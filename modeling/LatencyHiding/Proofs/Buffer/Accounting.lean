import LatencyHiding.Proofs.Buffer.Liveness
import LatencyHiding.Proofs.Program.CalleeFirst
import Mathlib.Data.UInt

set_option autoImplicit false

namespace LatencyHiding

namespace Bytes

theorem max_eq_right_iff (a b : UInt64) : max a b = b ↔ a ≤ b := by
  rw [← UInt64.toNat_inj, UInt64.toNat_max, UInt64.le_iff_toNat_le]
  omega

theorem toNat_foldl_max (sizes : List UInt64) (start : UInt64) :
    (sizes.foldl max start).toNat = max start.toNat (sizes.foldl max 0).toNat := by
  induction sizes generalizing start with
  | nil => simp
  | cons size sizes ih =>
    rw [List.foldl_cons, List.foldl_cons, ih, ih (max 0 size), UInt64.toNat_max,
      UInt64.toNat_max]
    simp only [UInt64.toNat_zero]
    omega

theorem foldl_max_le_iff (sizes : List UInt64) (start bound : UInt64) :
    sizes.foldl max start ≤ bound ↔ start ≤ bound ∧ ∀ size ∈ sizes, size ≤ bound := by
  induction sizes generalizing start with
  | nil => simp
  | cons size sizes ih =>
    rw [List.foldl_cons, ih, List.forall_mem_cons, ← and_assoc]
    simp only [UInt64.le_iff_toNat_le, UInt64.toNat_max]
    refine and_congr_left fun _ => ?_
    omega

theorem foldl_max_eq (sizes : List UInt64) (start : UInt64) :
    sizes.foldl max start = max start (sizes.foldl max 0) := by
  rw [← UInt64.toNat_inj, toNat_foldl_max, UInt64.toNat_max]

end Bytes

namespace LiveSet

theorem isLive_revive_of_ne (s : LiveSet) {a b : Nat} (h : a ≠ b) :
    (s.revive a).isLive b = s.isLive b := by
  unfold isLive revive
  rw [List.getElem?_set_ne h]

theorem revive_comm (s : LiveSet) {a b : Nat} (h : a ≠ b) :
    (s.revive a).revive b = (s.revive b).revive a := by
  unfold revive
  simp only [List.set_comm _ _ h, UInt64.add_assoc, UInt64.add_comm (s.table.sizeOf a)]

theorem seed_comm (s : LiveSet) (a b : Nat) : (s.seed a).seed b = (s.seed b).seed a := by
  by_cases h : a = b
  · rw [h]
  -- whether one of them is seeded does not depend on the other
  have hother {x y : Nat} (hxy : x ≠ y) : (s.seed x).seed y =
      if s.table.counts y && !s.isLive y then (s.seed x).revive y else s.seed x := by
    rw [seed_eq s x]
    split
    · rw [seed_eq, isLive_revive_of_ne s hxy]
      rfl
    · exact seed_eq s y
  rw [hother h, hother (Ne.symm h), seed_eq s a, seed_eq s b]
  split <;> split
  · exact revive_comm s h
  · rfl
  · rfl
  · rfl

theorem foldl_seed_of_isLive (s : LiveSet) (ids : List BufferId)
    (h : ∀ id ∈ ids, s.isLive id = true) : ids.foldl seed s = s := by
  induction ids with
  | nil => rfl
  | cons id ids ih =>
    obtain ⟨hid, hids⟩ := List.forall_mem_cons.1 h
    rw [List.foldl_cons, seed_eq, hid, Bool.not_true, Bool.and_false, if_neg Bool.false_ne_true,
      ih hids]

/-- Naming in advance what is live at the bottom anyway changes nothing. -/
theorem restart_liveAtBottom (s : LiveSet) (initial : UInt64) :
    s.restart (s.restart [] initial).state.liveAtBottom initial = s.restart [] initial := by
  let cleared : LiveSet := { s with live := s.live.map fun _ => false, usage := 0, initial }
  let seeded : LiveSet := s.rootBuffers.foldl seed cleared
  have hseeded : (seeded.liveIds ++ s.rootBuffers).foldl seed cleared = seeded := by
    -- the order in which buffers are seeded is free, so the root may go first
    rw [List.perm_append_comm.foldl_eq' fun a _ b _ s => seed_comm s a b, List.foldl_append]
    exact foldl_seed_of_isLive seeded _ fun id hid => (List.mem_filter.1 hid).2
  exact congrArg (fun t : LiveSet =>
    { t with state := { peak := t.usage, liveAtBottom := t.liveIds } }) hseeded

end LiveSet

namespace Computation

def bottom (c : Computation) (sizing : Shape.Sizing) : List BufferId :=
  ((LiveSet.ofComputation c sizing none).restart [] 0).state.liveAtBottom

theorem liveAtBottom_restart (c : Computation) (sizing : Shape.Sizing) (q : Option Pressure) :
    ((LiveSet.ofComputation c sizing q).restart [] 0).state.liveAtBottom = c.bottom sizing := by
  rw [restart_ofComputation c sizing none q]
  rfl

theorem liveAtBottom_replay_eq (c : Computation) (sequence : List Nat) (sizing : Shape.Sizing)
    (q : Option Pressure) : (c.replay sequence sizing q).liveAtBottom = c.bottom sizing := by
  unfold replay
  rw [LiveSet.liveAtBottom_walk, liveAtBottom_restart]

end Computation

namespace Pressure

open Relation

variable {m : Module} {t t' : Pressure} {start start' : UInt64} {schedule schedule' : Schedule}
  {c : Computation} {before after : List Computation}

/-- The table has for the computations `cs` what replaying their orders gives under the table itself,
and its peak is the largest of what it had at the `start` and of what was recorded for them. -/
structure Accounts (t : Pressure) (start : UInt64) (schedule : Schedule) (cs : List Computation) :
    Prop where
  state_eq : ∀ c ∈ cs,
    t.state? c.name = some (c.replay (Module.orderIn schedule c) t.sizing (some t))
  peak_eq : t.peak =
    (cs.map fun c => c.memoryPeak (Module.orderIn schedule c) t.sizing (some t)).foldl max start

theorem sizing_ofSchedule (sizing : Shape.Sizing) (m : Module) (schedule : Schedule) :
    (ofSchedule sizing m schedule).sizing = sizing := by
  have hfold (cs : List Computation) (t : Pressure) :
      (cs.foldl (fun t c => t.replayed c (Module.orderIn schedule c)) t).sizing = t.sizing := by
    induction cs generalizing t with
    | nil => rfl
    | cons c cs ih => rw [List.foldl_cons, ih]; rfl
  exact hfold m.calleeFirst { sizing }

theorem replay_record {name : String} (hcalls : ∀ p ∈ c.instructions, name ∉ p.calls)
    (t : Pressure) (state : PressureState) (sequence : List Nat) (sizing : Shape.Sizing) :
    c.replay sequence sizing (some (t.record name state)) = c.replay sequence sizing (some t) := by
  apply Computation.replay_congr
  intro p hp
  apply calleePeak_congr
  intro callee hcallee
  rw [state?_record, if_neg]
  rintro rfl
  exact hcalls p hp hcallee

section CalleeFirst

variable (sound : m.Sound) (acyclic : ∀ name, ¬ TransGen m.Calls name name)

include sound acyclic

/-- One more computation, whose callees all come before it. -/
theorem Accounts.record (accounts : t.Accounts start schedule before)
    (h : m.calleeFirst = before ++ c :: after)
    (hsame : ∀ d ∈ before, Module.orderIn schedule' d = Module.orderIn schedule d) :
    (t.replayed c (Module.orderIn schedule' c)).Accounts start schedule' (before ++ [c]) := by
  -- nobody among `before ++ [c]` calls `c`, so that replaying them gives what it gave
  have hreplay : ∀ d ∈ before ++ [c], ∀ sequence,
      d.replay sequence t.sizing (some (t.replayed c (Module.orderIn schedule' c))) =
        d.replay sequence t.sizing (some t) := by
    intro d hd sequence
    exact replay_record (fun p hp => sound.not_called_before acyclic h hd hp) _ _ _ _
  constructor
  · intro d hd
    change (t.record _ _).state? d.name = some (d.replay _ t.sizing _)
    rw [hreplay d hd, state?_record]
    rcases List.mem_append.1 hd with hbefore | hlast
    · have hne : d.name ≠ c.name := fun heq =>
        sound.not_mem_before h (heq ▸ List.mem_map_of_mem hbefore)
      rw [if_neg hne, accounts.state_eq d hbefore, hsame d hbefore]
    · rw [List.mem_singleton.1 hlast, if_pos rfl]
  · have hpeaks : (before ++ [c]).map (fun d => d.memoryPeak (Module.orderIn schedule' d) t.sizing
          (some (t.replayed c (Module.orderIn schedule' c)))) =
        before.map (fun d => d.memoryPeak (Module.orderIn schedule d) t.sizing (some t)) ++
          [c.memoryPeak (Module.orderIn schedule' c) t.sizing (some t)] := by
      unfold Computation.memoryPeak
      rw [List.map_congr_left fun d hd => congrArg PressureState.peak (hreplay d hd _),
        List.map_append]
      refine congrArg (· ++ _) (List.map_congr_left fun d hd => ?_)
      rw [hsame d hd]
    change max t.peak (c.memoryPeak (Module.orderIn schedule' c) t.sizing (some t)) =
      List.foldl max start (List.map (fun d => d.memoryPeak (Module.orderIn schedule' d) t.sizing
        (some (t.replayed c (Module.orderIn schedule' c)))) (before ++ [c]))
    rw [hpeaks, List.foldl_concat, accounts.peak_eq]

theorem Accounts.foldl_replayed {cs : List Computation} (accounts : t.Accounts start schedule before)
    (h : m.calleeFirst = before ++ cs) :
    (cs.foldl (fun t c => t.replayed c (Module.orderIn schedule c)) t).Accounts start schedule
      m.calleeFirst := by
  induction cs generalizing before t with
  | nil =>
    rw [h, List.append_nil]
    exact accounts
  | cons c cs ih =>
    apply ih (accounts.record sound acyclic h fun _ _ => rfl)
    rw [h, List.append_cons]

theorem accounts_ofSchedule (sizing : Shape.Sizing) (schedule : Schedule) :
    (ofSchedule sizing m schedule).Accounts 0 schedule m.calleeFirst :=
  Accounts.foldl_replayed sound acyclic ⟨List.forall_mem_nil _, rfl⟩ rfl

theorem Accounts.state?_eq (first : t.Accounts start schedule m.calleeFirst)
    (second : t'.Accounts start' schedule m.calleeFirst) (hsizing : t'.sizing = t.sizing) :
    ∀ c ∈ m.computations, t'.state? c.name = t.state? c.name := by
  suffices hall : ∀ before after, m.calleeFirst = before ++ after →
      ∀ c ∈ before, t'.state? c.name = t.state? c.name by
    intro c hc
    exact hall m.calleeFirst [] (List.append_nil _).symm c ((sound.mem_calleeFirst_iff c).2 hc)
  intro before
  induction before using List.reverseRecOn with
  | nil => exact fun _ _ => List.forall_mem_nil _
  | append_singleton before c ih =>
    intro after h
    rw [List.append_assoc, List.singleton_append] at h
    have hbefore := ih _ h
    refine List.forall_mem_append.2 ⟨hbefore, List.forall_mem_singleton.2 ?_⟩
    have hc : c ∈ m.calleeFirst := by simp [h]
    rw [first.state_eq c hc, second.state_eq c hc, hsizing]
    congr 1
    apply Computation.replay_congr
    intro p hp
    apply calleePeak_congr
    intro callee hcallee
    obtain ⟨d, hd, rfl⟩ := List.mem_map.1 (sound.exists_callee_before acyclic h hp hcallee)
    exact hbefore d hd

theorem Accounts.replay_eq (first : t.Accounts start schedule m.calleeFirst)
    (second : t'.Accounts start' schedule m.calleeFirst) (hsizing : t'.sizing = t.sizing)
    (hc : c ∈ m.calleeFirst) :
    c.replay (Module.orderIn schedule c) t'.sizing (some t') =
      c.replay (Module.orderIn schedule c) t.sizing (some t) := by
  have hstate := first.state?_eq sound acyclic second hsizing c ((sound.mem_calleeFirst_iff c).1 hc)
  rw [first.state_eq c hc, second.state_eq c hc] at hstate
  exact Option.some.inj hstate

end CalleeFirst

end Pressure

end LatencyHiding
