import LatencyHiding.Proofs.Pass.Memory

set_option autoImplicit false

namespace LatencyHiding

open Relation

namespace LiveSet

/-- The usage and the height that an instruction needs above it add up to less than 2 ^ 64. -/
def HasRoom (s : LiveSet) (p : Placed) : Prop :=
  s.usage.toNat + (s.effect p).peak.toNat < UInt64.size

def StaysInRange (s : LiveSet) : List Placed → Prop
  | [] => True
  | p :: rest => s.HasRoom p ∧ (s.update p).StaysInRange rest

instance decidableStaysInRange (s : LiveSet) : (l : List Placed) → Decidable (s.StaysInRange l)
  | [] => inferInstanceAs (Decidable True)
  | p :: rest =>
    have := decidableStaysInRange (s.update p) rest
    inferInstanceAs (Decidable (_ < _ ∧ _))

variable {s : LiveSet} {p : Placed}

theorem peak_le_peak_update (s : LiveSet) (p : Placed) :
    s.state.peak ≤ (s.update p).state.peak := by
  rw [peak_update, UInt64.le_iff_toNat_le, UInt64.toNat_max]
  omega

theorem peak_le_peak_foldl (l : List Placed) (s : LiveSet) :
    s.state.peak ≤ (l.foldl update s).state.peak := by
  induction l generalizing s with
  | nil => exact UInt64.le_refl _
  | cons p l ih => exact UInt64.le_trans (peak_le_peak_update s p) (ih (s.update p))

theorem HasRoom.calleePeak_le (room : s.HasRoom p) : s.calleePeak p ≤ (s.update p).state.peak := by
  have heffect : (s.effect p).peak = max (s.sumSizes (s.madeLive p)) (s.calleePeak p) := rfl
  have hsum : (s.usage + (s.effect p).peak).toNat = s.usage.toNat + (s.effect p).peak.toNat := by
    rw [UInt64.toNat_add]
    exact Nat.mod_eq_of_lt room
  rw [peak_update, UInt64.le_iff_toNat_le, UInt64.toNat_max, hsum, heffect, UInt64.toNat_max]
  omega

/-- A walk that stays in range has a peak at least as high as the callees that it passes. -/
theorem StaysInRange.calleePeak_le {l : List Placed} (inRange : s.StaysInRange l) (hp : p ∈ l) :
    s.calleePeak p ≤ (l.foldl update s).state.peak := by
  induction l generalizing s with
  | nil => cases hp
  | cons first rest ih =>
    obtain ⟨room, inRange⟩ := inRange
    rw [List.foldl_cons]
    rcases List.mem_cons.1 hp with rfl | hp
    · exact UInt64.le_trans room.calleePeak_le (peak_le_peak_foldl rest _)
    · have hlater := ih inRange hp
      rwa [calleePeak, view_update pressure (fun _ _ _ => rfl) (fun _ _ => rfl)] at hlater

end LiveSet

namespace Computation

def StaysInRange (c : Computation) (sequence : List InstrId) (sizing : Shape.Sizing)
    (pressure : Option Pressure) : Prop :=
  ((LiveSet.ofComputation c sizing pressure).restart [] 0).StaysInRange
    (sequence.reverse.filterMap c.instruction?)

instance (c : Computation) (sequence : List InstrId) (sizing : Shape.Sizing)
    (pressure : Option Pressure) : Decidable (c.StaysInRange sequence sizing pressure) :=
  LiveSet.decidableStaysInRange _ _

theorem StaysInRange.calleePeak_le {c : Computation} {sequence : List Nat}
    (horder : c.IsOrder sequence) {sizing : Shape.Sizing} {t : Pressure}
    (inRange : c.StaysInRange sequence sizing (some t)) {p : Placed} (hp : p ∈ c.instructions) :
    t.calleePeak p.toInstruction ≤ (c.replay sequence sizing (some t)).peak := by
  have hpassed : p ∈ sequence.reverse.filterMap c.instruction? := by
    obtain ⟨k, hk⟩ := (mem_instructions_iff c p).1 hp
    refine List.mem_filterMap.2 ⟨k, List.mem_reverse.2 ?_, hk⟩
    exact (horder.mem_iff k).2 (lt_size_of_instruction? hk)
  have hpeak := LiveSet.StaysInRange.calleePeak_le inRange hpassed
  rw [LiveSet.calleePeak, LiveSet.pressure_restart] at hpeak
  rw [replay, LiveSet.walk, LiveSet.computation_restart]
  exact hpeak

end Computation

def Module.StaysInRange (m : Module) (sizing : Shape.Sizing) (schedule : Schedule) : Prop :=
  ∀ c ∈ m.computations, c.StaysInRange (orderIn schedule c) sizing
    (some (.ofSchedule sizing m schedule))

namespace Pressure

variable {m : Module} {schedule : Schedule} {sizing : Shape.Sizing}

def Covers (t : Pressure) (name other : String) : Prop :=
  ∃ outer inner, t.state? name = some outer ∧ t.state? other = some inner ∧ inner.peak ≤ outer.peak

theorem Covers.trans {t : Pressure} {a b c : String} (hab : t.Covers a b) (hbc : t.Covers b c) :
    t.Covers a c := by
  obtain ⟨outer, mid, houter, hmid, hle⟩ := hab
  obtain ⟨mid', inner, hmid', hinner, hle'⟩ := hbc
  obtain rfl : mid = mid' := Option.some.inj (hmid.symm.trans hmid')
  exact ⟨outer, inner, houter, hinner, UInt64.le_trans hle' hle⟩

section CalleeFirst

variable (sound : m.Sound) (acyclic : ∀ name, ¬ TransGen m.Calls name name)
  (horders : ∀ c ∈ m.computations, c.IsOrder (Module.orderIn schedule c))
  (inRange : m.StaysInRange sizing schedule)

include sound acyclic horders inRange

end CalleeFirst

end Pressure

namespace Pass

variable {τ : Type} [TimeScale τ] {m : Module}

end Pass

end LatencyHiding
