import LatencyHiding.Buffer.Replay
import LatencyHiding.Proofs.KeyedList

set_option autoImplicit false

namespace LatencyHiding

namespace LiveSet

def grown (s : LiveSet) (p : Placed) : LiveSet :=
  (s.madeLive p).foldl revive
    { s with state := { s.state with peak := max s.state.peak (s.usage + (s.effect p).peak) } }

theorem update_eq (s : LiveSet) (p : Placed) :
    s.update p = ((s.grown p).freed p).foldl kill (s.grown p) := rfl

section Views

variable {β : Type} (view : LiveSet → β)

theorem view_foldl {α : Type} (step : LiveSet → α → LiveSet)
    (hstep : ∀ s a, view (step s a) = view s) (l : List α) (s : LiveSet) :
    view (l.foldl step s) = view s := by
  induction l generalizing s with
  | nil => rfl
  | cons a l ih => rw [List.foldl_cons, ih, hstep]

theorem view_update (hlive : ∀ s live usage, view { s with live, usage } = view s)
    (hpeak : ∀ s peak, view { s with state := { s.state with peak } } = view s) (s : LiveSet)
    (p : Placed) : view (s.update p) = view s := by
  have hgrown : view (s.grown p) = view s :=
    (view_foldl view revive (fun s _ => hlive s _ _) _ _).trans (hpeak s _)
  rw [update_eq, view_foldl view kill (fun s _ => hlive s _ _), hgrown]

theorem view_seed (hlive : ∀ s live usage, view { s with live, usage } = view s) (s : LiveSet)
    (id : BufferId) : view (s.seed id) = view s := by
  unfold seed
  split
  · split
    · rfl
    · exact hlive s _ _
  · rfl

theorem view_restart (hlive : ∀ s live usage, view { s with live, usage } = view s)
    (hinitial : ∀ s initial, view { s with initial } = view s)
    (hstate : ∀ s state, view { s with state } = view s) (s : LiveSet) (extra : List BufferId)
    (initial : UInt64) : view (s.restart extra initial) = view s := by
  have hcleared : view { s with live := s.live.map fun _ => false, usage := 0, initial } = view s :=
    (hinitial { s with live := s.live.map fun _ => false, usage := 0 } initial).trans (hlive s _ _)
  exact ((hstate _ _).trans (view_foldl view seed (view_seed view hlive) _ _)).trans hcleared

end Views

theorem peak_update (s : LiveSet) (p : Placed) :
    (s.update p).state.peak = max s.state.peak (s.usage + (s.effect p).peak) := by
  rw [update_eq, view_foldl (fun s => s.state.peak) kill (fun _ _ => rfl), grown,
    view_foldl (fun s => s.state.peak) revive (fun _ _ => rfl)]

theorem computation_restart (s : LiveSet) (extra : List BufferId) (initial : UInt64) :
    (s.restart extra initial).computation = s.computation :=
  view_restart computation (fun _ _ _ => rfl) (fun _ _ => rfl) (fun _ _ => rfl) s extra initial

theorem pressure_restart (s : LiveSet) (extra : List BufferId) (initial : UInt64) :
    (s.restart extra initial).pressure = s.pressure :=
  view_restart pressure (fun _ _ _ => rfl) (fun _ _ => rfl) (fun _ _ => rfl) s extra initial

theorem pressure_walk (s : LiveSet) (sequence : List Nat) :
    (s.walk sequence).pressure = s.pressure :=
  view_foldl pressure update (view_update pressure (fun _ _ _ => rfl) fun _ _ => rfl) _ _

theorem liveAtBottom_walk (s : LiveSet) (sequence : List Nat) :
    (s.walk sequence).state.liveAtBottom = s.state.liveAtBottom :=
  view_foldl (fun s => s.state.liveAtBottom) update
    (view_update (fun s => s.state.liveAtBottom) (fun _ _ _ => rfl) fun _ _ => rfl) _ _

theorem walk_cons {s : LiveSet} {id : Nat} {p : Placed}
    (hp : s.computation.instruction? id = some p) (rest : List Nat) : s.walk (id :: rest) = (s.walk rest).update p := by
  unfold walk
  rw [List.reverse_cons, List.filterMap_append, List.foldl_append, List.filterMap_cons, hp]
  rfl

def under (s : LiveSet) (pressure : Option Pressure) : LiveSet := { s with pressure }

variable {q : Option Pressure}

theorem foldl_under {α : Type} (step : LiveSet → α → LiveSet)
    (hstep : ∀ s a, step (s.under q) a = (step s a).under q) (l : List α) (s : LiveSet) :
    l.foldl step (s.under q) = (l.foldl step s).under q := by
  induction l generalizing s with
  | nil => rfl
  | cons a l ih => rw [List.foldl_cons, hstep, ih, List.foldl_cons]

theorem seed_under (s : LiveSet) (id : BufferId) : (s.under q).seed id = (s.seed id).under q := by
  have htable : (s.under q).table = s.table := rfl
  unfold seed
  rw [htable]
  cases s.table.info? id with
  | none => rfl
  | some info =>
    have hlive : (s.under q).isLive id = s.isLive id := rfl
    simp only [hlive]
    split <;> rfl

theorem restart_under (s : LiveSet) (extra : List BufferId) (initial : UInt64) :
    (s.under q).restart extra initial = (s.restart extra initial).under q := by
  have hseeded := foldl_under (q := q) seed seed_under (extra ++ s.rootBuffers)
    { s with live := s.live.map fun _ => false, usage := 0, initial }
  exact congrArg (fun seeded : LiveSet => { seeded with
    state := { peak := seeded.usage, liveAtBottom := seeded.liveIds } }) hseeded

theorem effect_under {s : LiveSet} {p : Placed} (hp : (s.under q).calleePeak p = s.calleePeak p) :
    (s.under q).effect p = s.effect p := by
  unfold effect
  rw [hp]
  rfl

theorem update_under {s : LiveSet} {p : Placed} (hp : (s.under q).calleePeak p = s.calleePeak p) :
    (s.under q).update p = (s.update p).under q := by
  have hgrown : (s.under q).grown p = (s.grown p).under q := by
    unfold grown
    rw [effect_under hp]
    exact foldl_under (q := q) revive (fun _ _ => rfl) (s.madeLive p)
      { s with state := { s.state with peak := max s.state.peak (s.usage + (s.effect p).peak) } }
  rw [update_eq, hgrown]
  exact foldl_under kill (fun _ _ => rfl) _ _

theorem foldl_update_under (l : List Placed) (s : LiveSet)
    (h : ∀ p ∈ l, (s.under q).calleePeak p = s.calleePeak p) :
    l.foldl update (s.under q) = (l.foldl update s).under q := by
  induction l generalizing s with
  | nil => rfl
  | cons p l ih =>
    obtain ⟨hp, hl⟩ := List.forall_mem_cons.1 h
    rw [List.foldl_cons, List.foldl_cons, update_under hp, ih]
    intro p' hp'
    have := hl p' hp'
    unfold calleePeak at this ⊢
    rw [view_update pressure (fun _ _ _ => rfl) (fun _ _ => rfl)]
    exact this

/-- Peaks of callees that are the same leave the walk the same. -/
theorem walk_under (s : LiveSet) (sequence : List Nat)
    (h : ∀ p ∈ s.computation.instructions, (s.under q).calleePeak p = s.calleePeak p) :
    (s.under q).walk sequence = (s.walk sequence).under q := by
  apply foldl_update_under
  intro p hp
  obtain ⟨id, _, hid⟩ := List.mem_filterMap.1 hp
  exact h p (List.mem_of_getElem? hid)

end LiveSet

namespace Computation

variable (c : Computation) (sequence : List Nat) (sizing : Shape.Sizing) (q q' : Option Pressure)

theorem restart_ofComputation : (LiveSet.ofComputation c sizing q').restart [] 0 =
    ((LiveSet.ofComputation c sizing q).restart [] 0).under q' :=
  LiveSet.restart_under (LiveSet.ofComputation c sizing q) [] 0

theorem liveAtBottom_replay (sequence' : List Nat) : (c.replay sequence' sizing q').liveAtBottom =
    (c.replay sequence sizing q).liveAtBottom := by
  unfold replay
  rw [LiveSet.liveAtBottom_walk, LiveSet.liveAtBottom_walk, restart_ofComputation c sizing q q']
  rfl

theorem replay_congr (h : ∀ p ∈ c.instructions, (q'.map (·.calleePeak p.toInstruction)).getD 0 =
    (q.map (·.calleePeak p.toInstruction)).getD 0) :
    c.replay sequence sizing q' = c.replay sequence sizing q := by
  unfold replay
  rw [restart_ofComputation c sizing q q', LiveSet.walk_under]
  · rfl
  · intro p hp
    rw [LiveSet.computation_restart] at hp
    unfold LiveSet.calleePeak
    rw [LiveSet.pressure_restart]
    exact h p hp

end Computation

namespace Pressure

variable {t t' : Pressure}

theorem state?_record (t : Pressure) (name other : String) (state : PressureState) :
    (t.record name state).state? other = if other = name then some state else t.state? other :=
  KeyedList.get?_set _ _ _ _

theorem calleePeak_congr {i : Instruction}
    (h : ∀ callee ∈ i.calls, t'.state? callee = t.state? callee) :
    t'.calleePeak i = t.calleePeak i := by
  unfold calleePeak
  rw [List.filterMap_congr h]

/-- What is live at the bottom of computations is the same. -/
structure SameBottoms (t t' : Pressure) : Prop where
  sizing_eq : t'.sizing = t.sizing
  bottom_eq : ∀ name, (t'.state? name).map (·.liveAtBottom) = (t.state? name).map (·.liveAtBottom)

theorem SameBottoms.record (same : t.SameBottoms t') (name : String) {state state' : PressureState}
    (h : state'.liveAtBottom = state.liveAtBottom) :
    (t.record name state).SameBottoms (t'.record name state') := by
  refine ⟨same.sizing_eq, ?_⟩
  intro other
  rw [state?_record, state?_record]
  split
  · exact congrArg some h
  · exact same.bottom_eq other

theorem SameBottoms.foldl_replayed (same : t.SameBottoms t') (cs : List Computation)
    (schedule schedule' : Schedule) :
    (cs.foldl (fun t c => t.replayed c (Module.orderIn schedule c)) t).SameBottoms
      (cs.foldl (fun t c => t.replayed c (Module.orderIn schedule' c)) t') := by
  induction cs generalizing t t' with
  | nil => exact same
  | cons c cs ih =>
    apply ih
    simp only [replayed, same.sizing_eq]
    exact same.record c.name (c.liveAtBottom_replay _ _ _ _ _)

end Pressure

end LatencyHiding
