import LatencyHiding.Proofs.Async.Counts
import LatencyHiding.Proofs.Buffer.Accounting
import LatencyHiding.Proofs.Buffer.Checked

set_option autoImplicit false

namespace LatencyHiding

open Relation

namespace Module

/-- Bytes of a computation, with the largest of its callees above them, and so on. -/
def callVolume (m : Module) (sizing : Shape.Sizing) : String → Nat :=
  m.overCalls 0 (fun c above => (BufferTable.ofComputation c sizing).volume +
    largest ((c.instructions.flatMap fun p => p.calls).map above)) (m.computations.length + 1)

theorem Sound.callVolume_eq {m : Module} (sound : m.Sound)
    (acyclic : ∀ name, ¬ TransGen m.Calls name name) (sizing : Shape.Sizing) {c : Computation}
    (hc : c ∈ m.computations) :
    m.callVolume sizing c.name = (BufferTable.ofComputation c sizing).volume +
      largest ((c.instructions.flatMap fun p => p.calls).map (m.callVolume sizing)) := by
  refine overCalls_of_find? sound acyclic (fun c above above' h => ?_) (find?_of_mem sound.nodup hc)
  congr 2
  apply List.map_congr_left
  intro callee hcallee
  obtain ⟨p, hp, hcallee⟩ := List.mem_flatMap.1 hcallee
  exact h p hp callee hcallee

end Module

namespace LiveSet

variable {s : LiveSet}

theorem Roomy.peak_foldl_update_le {l : List Placed} (roomy : s.Roomy) {bound : Nat}
    (hl : ∀ p ∈ l, p ∈ s.computation.instructions)
    (hcallee : ∀ p ∈ s.computation.instructions, (s.calleePeak p).toNat ≤ bound)
    (hpeak : s.state.peak.toNat ≤ s.table.volume + bound) :
    (l.foldl LiveSet.update s).state.peak.toNat ≤ s.table.volume + bound := by
  induction l generalizing s with
  | nil => exact hpeak
  | cons p l ih =>
    obtain ⟨hp, hl⟩ := List.forall_mem_cons.1 hl
    rw [List.foldl_cons, ← table_update s p]
    apply ih (roomy.update p)
    · rw [computation_update]
      exact hl
    · rw [computation_update]
      intro q hq
      rw [calleePeak, pressure_update]
      exact hcallee q hq
    · rw [table_update]
      exact roomy.peak_update_le hp (hcallee p hp) hpeak

theorem Roomy.peak_walk_le (roomy : s.Roomy) {bound : Nat}
    (hcallee : ∀ p ∈ s.computation.instructions, (s.calleePeak p).toNat ≤ bound)
    (hpeak : s.state.peak.toNat ≤ s.table.volume + bound) (sequence : List Nat) :
    (s.walk sequence).state.peak.toNat ≤ s.table.volume + bound := by
  refine roomy.peak_foldl_update_le ?_ hcallee hpeak
  intro p hp
  obtain ⟨id, _, hid⟩ := List.mem_filterMap.1 hp
  exact (Computation.mem_instructions_iff _ p).2 ⟨id, hid⟩

end LiveSet

namespace Computation

variable {c : Computation} {sizing : Shape.Sizing} {pressure : Option Pressure}

theorem BytesFit.peak_replay_le (fit : c.BytesFit sizing pressure) {bound : Nat}
    (hcallee : ∀ p ∈ c.instructions,
      ((pressure.map fun q : Pressure => q.calleePeak p.toInstruction).getD 0).toNat ≤ bound)
    (sequence : List Nat) : (c.replay sequence sizing pressure).peak.toNat ≤
      (BufferTable.ofComputation c sizing).volume + bound := by
  let start := (LiveSet.ofComputation c sizing pressure).restart [] 0
  have roomy : start.Roomy := fit.roomy.restart [] 0
  have htable : start.table = BufferTable.ofComputation c sizing := LiveSet.table_restart _ _ _
  rw [← htable]
  refine roomy.peak_walk_le (fun p hp => ?_) ?_ sequence
  · rw [LiveSet.calleePeak, LiveSet.pressure_restart]
    exact hcallee p (by rwa [LiveSet.computation_restart] at hp)
  · have husage : start.usage.toNat ≤ start.table.volume := by
      rw [roomy.tallied.toNat_usage roomy.volume_lt]
      exact roomy.tallied.bytes_liveIds_le
    exact husage.trans (Nat.le_add_right _ _)

end Computation

namespace Pressure

variable {t : Pressure} {bound : String → Nat}

def Below (t : Pressure) (bound : String → Nat) : Prop :=
  ∀ name state, t.state? name = some state → state.peak.toNat ≤ bound name

theorem Below.record (below : t.Below bound) {name : String} {state : PressureState}
    (h : state.peak.toNat ≤ bound name) : (t.record name state).Below bound := by
  intro other state' hstate
  rw [state?_record] at hstate
  split at hstate
  · next heq =>
    rw [heq, ← Option.some.inj hstate]
    exact h
  · exact below other state' hstate

theorem Below.calleePeak_le (below : t.Below bound) (i : Instruction) :
    (t.calleePeak i).toNat ≤ Module.largest (i.calls.map bound) := by
  unfold calleePeak
  generalize hpeaks : (i.calls.filterMap t.state?).map (·.peak) = peaks
  have hmem (peak : UInt64) (hpeak : peak ∈ peaks) :
      peak.toNat ≤ Module.largest (i.calls.map bound) := by
    rw [← hpeaks] at hpeak
    obtain ⟨state, hstate, rfl⟩ := List.mem_map.1 hpeak
    obtain ⟨callee, hcallee, hstate⟩ := List.mem_filterMap.1 hstate
    exact (below callee state hstate).trans ((Module.largest_le_iff _ _).1 (Nat.le_refl _) _
      (List.mem_map_of_mem hcallee))
  clear hpeaks
  induction peaks with
  | nil => exact Nat.zero_le _
  | cons peak peaks ih =>
    obtain ⟨hpeak, hrest⟩ := List.forall_mem_cons.1 hmem
    have := ih hrest
    rw [List.foldl_cons, Bytes.toNat_foldl_max, UInt64.toNat_max, UInt64.toNat_zero]
    omega

end Pressure

section Calls

variable {safe : Prop} {m : Module} {sizing : Shape.Sizing} {t : Pressure} {c : Computation}
  (sound : m.Sound) (acyclic : ∀ name, ¬ TransGen m.Calls name name)

include sound acyclic

theorem Pressure.Below.calleePeak_le_above (below : t.Below (m.callVolume sizing))
    (hc : c ∈ m.computations) {p : Placed} (hp : p ∈ c.instructions) :
    (BufferTable.ofComputation c sizing).volume + (t.calleePeak p.toInstruction).toNat ≤
      m.callVolume sizing c.name := by
  rw [sound.callVolume_eq acyclic sizing hc]
  refine Nat.add_le_add_left ((below.calleePeak_le p.toInstruction).trans ?_) _
  apply Module.largest_le_largest
  rw [List.forall_mem_map]
  intro callee hcallee
  exact ⟨_, List.mem_map_of_mem (List.mem_flatMap.2 ⟨p, hp, hcallee⟩), Nat.le_refl _⟩

theorem Computation.bytesFit_of_below (below : t.Below (m.callVolume sizing))
    (hc : c ∈ m.computations) (hlt : m.callVolume sizing c.name < 2 ^ 63) :
    c.BytesFit sizing (some t) where
  volume_lt := by
    rw [sound.callVolume_eq acyclic sizing hc] at hlt
    omega
  callee_lt p hp := by
    have hle := below.calleePeak_le_above sound acyclic hc hp
    change _ + (t.calleePeak p.toInstruction).toNat < 2 ^ 64
    omega

theorem Computation.peak_replay_le_callVolume (below : t.Below (m.callVolume sizing))
    (hc : c ∈ m.computations) (hlt : m.callVolume sizing c.name < 2 ^ 63) (sequence : List Nat) :
    (c.replay sequence sizing (some t)).peak.toNat ≤ m.callVolume sizing c.name := by
  have hvolume := sound.callVolume_eq acyclic sizing hc
  have hcallee (p : Placed) (hp : p ∈ c.instructions) :
      (t.calleePeak p.toInstruction).toNat ≤
        m.callVolume sizing c.name - (BufferTable.ofComputation c sizing).volume := by
    have hle := below.calleePeak_le_above sound acyclic hc hp
    omega
  have fit := c.bytesFit_of_below sound acyclic below hc hlt
  have hpeak := fit.peak_replay_le hcallee sequence
  omega

end Calls

end LatencyHiding
