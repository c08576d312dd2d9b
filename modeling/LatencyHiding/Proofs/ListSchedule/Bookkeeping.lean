import LatencyHiding.Proofs.ListSchedule.History

set_option autoImplicit false

namespace LatencyHiding

variable {τ : Type}

theorem ncard_setOf_mem {l : List Nat} (nodup : l.Nodup) : {a | a ∈ l}.ncard = l.length := by
  rw [← List.coe_toFinset, Set.ncard_coe_finset, List.toFinset_card_of_nodup nodup]

namespace ScheduleState

def Marked (s : ScheduleState τ) (u : NodeIndex) : Prop :=
  ∃ n, s.graph.node? u = some n ∧ n.scheduled = true

def unmarked (s : ScheduleState τ) (edges : List (Edge τ)) : Set NodeIndex :=
  {v | v ∈ edges.map (·.target) ∧ ¬ s.Marked v}

/-- The marks account for the ready nodes, the counters and what is placed. -/
structure Coherent (s : ScheduleState τ) : Prop where
  ready_nodup : s.ready.Nodup
  mem_ready_iff : ∀ u, u ∈ s.ready ↔ ∃ n, s.graph.node? u = some n ∧ ¬ s.Marked u ∧
    ∀ e ∈ n.successors, s.Marked e.target
  outdegree_eq : ∀ u n, s.graph.node? u = some n → n.outdegree = (s.unmarked n.successors).ncard
  indegree_eq : ∀ u n, s.graph.node? u = some n → n.indegree = (s.unmarked n.predecessors).ncard
  placed_nodup : s.placed.Nodup
  mem_placed_iff : ∀ id, id ∈ s.placed ↔ ∃ n ∈ s.graph.nodes, n.scheduled = true ∧ n.instr.id = id

namespace Consistent

variable {s : ScheduleState τ} {history : List Nat}

theorem marked_iff (consistent : s.Consistent history) (u : Nat) : s.Marked u ↔ u ∈ history := by
  constructor
  · rintro ⟨n, hn, hmark⟩
    exact (consistent.scheduled_iff u n hn).1 hmark
  · intro hu
    obtain ⟨n, hn⟩ := (Graph.lt_size_iff s.graph u).1 (consistent.lt_size u hu)
    exact ⟨n, hn, (consistent.scheduled_iff u n hn).2 hu⟩

theorem ncard_unmarked (consistent : s.Consistent history) {edges : List (Edge τ)}
    (nodup : (edges.map (·.target)).Nodup) :
    (s.unmarked edges).ncard = ((edges.map (·.target)).filter (· ∉ history)).length := by
  rw [← ncard_setOf_mem (nodup.filter _)]
  congr 1
  ext v
  simp [unmarked, consistent.marked_iff]

theorem coherent (consistent : s.Consistent history) (nodup : s.graph.order.Nodup) :
    s.Coherent where
  ready_nodup := consistent.ready_nodup
  mem_ready_iff u := by
    rw [consistent.mem_ready_iff, consistent.marked_iff, Graph.lt_size_iff]
    simp only [consistent.marked_iff]
    constructor
    · rintro ⟨⟨n, hn⟩, hnot, hafter⟩
      refine ⟨n, hn, hnot, ?_⟩
      intro e he
      exact hafter e.target (Graph.leads_of_mem_successors hn he)
    · rintro ⟨n, hn, hnot, hafter⟩
      refine ⟨⟨n, hn⟩, hnot, ?_⟩
      intro v hlead
      obtain ⟨e, he, rfl⟩ := List.mem_map.1 ((Graph.mem_successors_iff hn v).2 hlead)
      exact hafter e he
  outdegree_eq u n hn := by
    rw [consistent.outdegree_eq u n hn,
      consistent.ncard_unmarked (consistent.linked.nodup_successors hn)]
  indegree_eq u n hn := by
    rw [consistent.indegree_eq u n hn,
      consistent.ncard_unmarked (consistent.linked.nodup_predecessors hn)]
  placed_nodup := consistent.nodup_placed nodup
  mem_placed_iff id := by
    rw [consistent.placed_eq, List.mem_map]
    constructor
    · rintro ⟨u, hu, rfl⟩
      obtain ⟨n, hn, hmark⟩ := (consistent.marked_iff u).2 hu
      exact ⟨n, List.mem_of_getElem? hn, hmark, (Graph.idAt_eq hn).symm⟩
    · rintro ⟨n, hn, hmark, rfl⟩
      obtain ⟨u, hu⟩ := List.mem_iff_getElem?.1 hn
      exact ⟨u, (consistent.scheduled_iff u n hu).1 hmark, Graph.idAt_eq hu⟩

end Consistent

end ScheduleState

namespace Scheduler

variable [TimeScale τ] {s : Scheduler τ} {c : Computation} {sequence : List Nat}
  {m : Option Module} {pressure : Option Pressure} {st : ScheduleState τ}

theorem Reached.mem_edges_iff (h : s.Reached c sequence m pressure st) (hc : c.Wired) {u v : Nat}
    {n p : Node τ} (hn : st.graph.node? u = some n) (hp : st.graph.node? v = some p) :
    (v ∈ n.successors.map (·.target) ↔ s.tracker.Orders c n.instr.id p.instr.id) ∧
      (u ∈ p.predecessors.map (·.target) ↔ s.tracker.Orders c n.instr.id p.instr.id) := by
  obtain ⟨history, consistent⟩ := h.consistent
  obtain ⟨_, horder, hleads⟩ := h.represents hc
  have hu := (Graph.getElem?_order_eq_some_iff st.graph u n.instr.id).2 ⟨n, hn, rfl⟩
  have hv := (Graph.getElem?_order_eq_some_iff st.graph v p.instr.id).2 ⟨p, hp, rfl⟩
  rw [Graph.mem_successors_iff hn, consistent.linked.mem_predecessors_iff hp, hleads, ← horder, hu,
    hv]
  simp

/-- At any point of a run the marks account for everything else, and edges stand for precedences,
the demands of the tracker included. -/
theorem coherent_throughout (s : Scheduler τ) (hc : c.Built)
    (hstart : s.start c sequence m pressure = .ok st) (k : Nat) :
    (s.steps k st).2.Coherent ∧ (s.steps k st).2.graph.order = sequence ∧
    ∀ u v n p, (s.steps k st).2.graph.node? u = some n →
      (s.steps k st).2.graph.node? v = some p →
        (v ∈ n.successors.map (·.target) ↔ s.tracker.Orders c n.instr.id p.instr.id) ∧
        (u ∈ p.predecessors.map (·.target) ↔ s.tracker.Orders c n.instr.id p.instr.id) := by
  have reached := (reached_start hc.wired hstart).steps hc.wired k
  obtain ⟨history, consistent⟩ := reached.consistent
  obtain ⟨admits, horder, _⟩ := reached.represents hc.wired
  refine ⟨consistent.coherent (horder ▸ admits.nodup), horder, ?_⟩
  intro u v n p hn hp
  exact reached.mem_edges_iff hc.wired hn hp

/-- Where the done has to come before its start and the sum before itself, only the last instruction
is ever placed; the sum still waits for one successor and two predecessors. -/
theorem coherent_throughout_circularDemands :
    ∃ st, (demanding [⟨2, 1, 0⟩, ⟨3, 3, 0⟩]).start reduction [4, 3, 2, 1, 0] none none = .ok st ∧
      (∀ k, ((demanding [⟨2, 1, 0⟩, ⟨3, 3, 0⟩]).steps k st).2.Coherent) ∧
      ((demanding [⟨2, 1, 0⟩, ⟨3, 3, 0⟩]).steps 5 st).2.ready = [] ∧
      ((demanding [⟨2, 1, 0⟩, ⟨3, 3, 0⟩]).steps 5 st).2.placed = [4] ∧
      (((demanding [⟨2, 1, 0⟩, ⟨3, 3, 0⟩]).steps 5 st).2.graph.node? 1).map
        (fun n => (n.instr.id, n.outdegree, n.indegree)) = some (3, 1, 2) := by
  have hbuilt : reduction.Built := Computation.built_foldl_grown (.empty "c" false) _ rfl
  have hrun : ((demanding [⟨2, 1, 0⟩, ⟨3, 3, 0⟩]).start reduction [4, 3, 2, 1, 0] none
      none).toOption.map (fun st =>
        let final := ((demanding [⟨2, 1, 0⟩, ⟨3, 3, 0⟩]).steps 5 st).2
        (final.ready, final.placed, (final.graph.node? 1).map
          fun n => (n.instr.id, n.outdegree, n.indegree))) = some ([], [4], some (3, 1, 2)) := by
    decide +kernel
  cases hstart : (demanding [⟨2, 1, 0⟩, ⟨3, 3, 0⟩]).start reduction [4, 3, 2, 1, 0] none none with
  | error fault =>
    rw [hstart] at hrun
    cases hrun
  | ok st =>
    rw [hstart] at hrun
    obtain ⟨hready, hrest⟩ := Prod.mk.inj (Option.some.inj hrun)
    obtain ⟨hplaced, hdegrees⟩ := Prod.mk.inj hrest
    exact ⟨st, rfl, fun k => (coherent_throughout _ hbuilt hstart k).1, hready, hplaced, hdegrees⟩

end Scheduler

end LatencyHiding
