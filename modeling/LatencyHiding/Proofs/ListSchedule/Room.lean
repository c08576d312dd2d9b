import LatencyHiding.Proofs.Async.Counts
import LatencyHiding.Proofs.Buffer.Checked
import LatencyHiding.Proofs.ListSchedule.Resources

set_option autoImplicit false

namespace LatencyHiding

variable {τ : Type} {safe : Prop}

theorem Gives.allM {α : Type} {ask : α → Option Bool} {truth : α → Bool} {l : List α}
    (h : ∀ x ∈ l, Gives safe (ask x) (truth x)) : Gives safe (l.allM ask) (l.all truth) := by
  induction l with
  | nil => exact .some true
  | cons x l ih =>
    obtain ⟨hx, hl⟩ := List.forall_mem_cons.1 h
    rw [List.allM, List.all_cons]
    refine hx.bind ?_
    cases truth x with
    | false => exact .some false
    | true => exact ih hl

namespace ScheduleState

theorem gives_countUse {inFlight : KeyedList Resource Nat} {use : Resource × Usage}
    (h : safe → inFlight.getD use.1 0 + 1 < UInt32.size) :
    Gives safe (countUse? inFlight use) (countUse inFlight use) := by
  unfold countUse?
  split
  · next hfull =>
    refine Or.inr ⟨fun hsafe => ?_, rfl⟩
    exact Nat.not_lt.2 hfull.2 (h hsafe)
  · exact .some _

theorem getD_countUse_le (inFlight : KeyedList Resource Nat) (use : Resource × Usage)
    (r : Resource) : (countUse inFlight use).getD r 0 ≤ inFlight.getD r 0 + 1 := by
  rw [getD_countUse]
  split
  · exact Nat.le_refl _
  · split <;> omega

theorem gives_foldl_countUse {inFlight : KeyedList Resource Nat} {uses : List (Resource × Usage)}
    (h : safe → ∀ r, inFlight.getD r 0 + uses.length < UInt32.size) :
    Gives safe (uses.foldlM countUse? inFlight) (uses.foldl countUse inFlight) := by
  apply Gives.foldlM fun inFlight uses => ∀ r, inFlight.getD r 0 + uses.length < UInt32.size
  · intro inFlight use rest hroom
    apply gives_countUse
    intro hsafe
    have := hroom hsafe use.1
    rw [List.length_cons] at this
    omega
  · intro inFlight use rest hroom r
    have hle := getD_countUse_le inFlight use r
    have := hroom r
    rw [List.length_cons] at this
    omega
  · exact h

theorem getD_foldl_countUse_le (uses : List (Resource × Usage)) (inFlight : KeyedList Resource Nat)
    (r : Resource) : (uses.foldl countUse inFlight).getD r 0 ≤ inFlight.getD r 0 + uses.length := by
  induction uses generalizing inFlight with
  | nil => exact Nat.le_refl _
  | cons use uses ih =>
    have hle := getD_countUse_le inFlight use r
    have hrest := ih (countUse inFlight use)
    rw [List.foldl_cons, List.length_cons]
    omega

theorem getD_inFlightAfter_le (uses : Nat → List (Resource × Usage)) (placed : List Nat)
    (r : Resource) :
    (inFlightAfter uses placed).getD r 0 ≤ (placed.map fun id => (uses id).length).sum := by
  induction placed with
  | nil => exact Nat.le_refl 0
  | cons id placed ih =>
    have hle := getD_foldl_countUse_le (uses id) (inFlightAfter uses placed) r
    rw [List.map_cons, List.sum_cons]
    change ((uses id).foldl countUse (inFlightAfter uses placed)).getD r 0 ≤ _
    omega

end ScheduleState

def Computation.useCount (c : Computation) (tracker : AsyncTracker τ) : Nat :=
  (c.instructions.map fun p => (tracker.uses p.toInstruction).length).sum

/-- No sum of bytes and no count of uses leaves its range. -/
structure Computation.InRange (c : Computation) (tracker : AsyncTracker τ)
    (pressure : Option Pressure) : Prop where
  bytes : c.BytesFit ((pressure.map (·.sizing)).getD Shape.byteSize) pressure
  uses : c.useCount tracker < UInt32.size

theorem Computation.sum_uses_le (c : Computation) (tracker : AsyncTracker τ) {ids : List Nat}
    (nodup : ids.Nodup) (hids : ∀ id ∈ ids, id < c.size) :
    (ids.map fun id => (c.usesOf tracker id).length).sum ≤ c.useCount tracker := by
  obtain ⟨part, hperm, hpart⟩ := List.subperm_of_subset nodup fun id hid =>
    List.mem_range.2 (hids id hid)
  have hall : ((List.range c.size).map fun id => (c.usesOf tracker id).length) =
      c.instructions.map fun p => (tracker.uses p.toInstruction).length := by
    apply List.ext_getElem (by simp [size])
    intro id hid hid'
    have hid : id < c.instructions.length := by simpa using hid'
    simp [usesOf, instruction?, hid]
  rw [useCount, ← hall, ← (hperm.map _).sum_eq]
  exact (hpart.map _).sum_le_sum (by simp)

namespace LiveSet

theorem Roomy.walk {s : LiveSet} (roomy : s.Roomy) (sequence : List Nat) :
    (s.walk sequence).Roomy := by
  unfold LiveSet.walk
  generalize sequence.reverse.filterMap s.computation.instruction? = l
  induction l generalizing s with
  | nil => exact roomy
  | cons p l ih => exact ih (roomy.update p)

theorem computation_walk (s : LiveSet) (sequence : List Nat) :
    (s.walk sequence).computation = s.computation :=
  view_foldl computation update computation_update _ s

end LiveSet

variable [TimeScale τ]

namespace ScheduleState

variable {st : ScheduleState τ} {index : Nat} {n : Node τ}

structure HasRoom (st : ScheduleState τ) (n : Node τ) : Prop where
  roomy : st.memory.Roomy
  mem : n.instr ∈ st.memory.computation.instructions
  inFlight_lt : ∀ r, st.inFlightOf r + n.uses.length < UInt32.size

theorem gives_place (h : safe → st.HasRoom n) :
    Gives safe (st.place? index n) (st.place index n) := by
  refine (gives_foldl_countUse fun hsafe => (h hsafe).inFlight_lt).bind ?_
  exact (LiveSet.gives_update fun hsafe => ⟨(h hsafe).roomy, (h hsafe).mem⟩).bind (.some _)

omit [TimeScale τ] in
theorem gives_releasesFit (h : safe → st.HasRoom n) :
    Gives safe (Scheduler.releasesFit? st n) (Scheduler.releasesFit st n) := by
  apply Gives.allM
  rintro ⟨r, usage⟩ hmem
  cases usage with
  | occupy => exact .some true
  | release =>
    have hone : 1 ≤ n.uses.length := List.length_pos_of_mem hmem
    by_cases hlt : st.inFlightOf r + 1 < UInt32.size
    · left
      change (AsyncTracker.inRange (st.inFlightOf r + 1)).map _ =
        some (decide (st.inFlightOf r + 1 ≤ (st.limitOf r).toNat))
      rw [AsyncTracker.inRange_of_lt hlt, Option.map_some, Option.some.injEq, decide_eq_decide,
        UInt32.le_iff_toNat_le, UInt32.toNat_ofNat_of_lt' hlt]
    · right
      refine ⟨fun hsafe => ?_, ?_⟩
      · have := (h hsafe).inFlight_lt r
        omega
      · change (AsyncTracker.inRange (st.inFlightOf r + 1)).map _ = none
        rw [AsyncTracker.inRange_of_le (Nat.not_lt.1 hlt), Option.map_none]

section Descends

variable {c : Computation} {sequence : List Nat} {latency : Node τ → Node τ → τ}
  {estimator : Estimator τ} {tracker : AsyncTracker τ} {g : Graph τ} {m : Option Module}
  {pressure : Option Pressure} (hc : c.Wired)
  (hbuild : Graph.buildWith latency c sequence estimator tracker = .ok g)

include hc hbuild

theorem Descends.hasRoom (h : Descends g c tracker m pressure st) (hindex : index ∈ st.ready)
    (hn : st.graph.node? index = some n) (inRange : c.InRange tracker pressure) : st.HasRoom n := by
  obtain ⟨history, consistent⟩ := h.consistent
  obtain ⟨admits, represents⟩ := Graph.build_ok hc hbuild
  have hsite : Graph.Keeps Node.toSite g (st.place index n).graph :=
    (h.keeps.of_essence Node.toSite fun _ => rfl).trans (keeps_place st index n fun _ _ _ _ _ => rfl)
  have horder : (st.place index n).graph.order = sequence :=
    hsite.order_eq.trans represents.order_eq
  have hplaced := consistent.place hindex hn
  have nodup : (n.instr.id :: st.placed).Nodup := by
    rw [← placed_place st index n]
    exact hplaced.nodup_placed (horder ▸ admits.nodup)
  have hknown := (Descends.label hc hbuild h hn).1
  have huses := Descends.uses_eq hc hbuild h hn
  refine ⟨?_, ?_, ?_⟩
  · rw [h.memory_eq]
    exact (inRange.bytes.roomy.restart _ _).walk _
  · rw [h.memory_eq, LiveSet.computation_walk, computation_initialMemory]
    exact (Computation.mem_instructions_iff c _).2 ⟨_, hknown⟩
  · intro r
    have hle := getD_inFlightAfter_le (c.usesOf tracker) st.placed r
    have hsum := c.sum_uses_le tracker nodup (by
      intro id hid
      rw [← placed_place st index n, hplaced.placed_eq] at hid
      obtain ⟨v, hv, rfl⟩ := List.mem_map.1 hid
      have hmem := List.mem_of_getElem? (Graph.getElem?_order _ (hplaced.lt_size v hv))
      rw [horder] at hmem
      exact admits.known _ hmem)
    rw [List.map_cons, List.sum_cons, ← huses] at hsum
    have hlt := inRange.uses
    rw [inFlightOf, h.inFlight_eq]
    omega

end Descends

end ScheduleState

end LatencyHiding
