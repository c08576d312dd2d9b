import LatencyHiding.Proofs.Dependence.LongestPaths
import LatencyHiding.Proofs.Program.Checking

set_option autoImplicit false

namespace LatencyHiding

theorem Computation.admits_iff (c : Computation) (sequence : List Nat) : c.Admits sequence ↔
    (∀ id ∈ sequence, id < c.size) ∧ sequence.Nodup ∧
      ∀ id ∈ sequence, ∀ p, c.instruction? id = some p →
        ∀ input ∈ p.operands ++ p.controlPredecessors, input ∈ sequence := by
  constructor
  · rintro ⟨known, nodup, closed⟩
    exact ⟨known, nodup, fun id hid p hp input hinput => closed id hid input ⟨p, hp, hinput⟩⟩
  · rintro ⟨known, nodup, closed⟩
    exact ⟨known, nodup, fun id hid input ⟨p, hp, hinput⟩ => closed id hid p hp input hinput⟩

theorem AsyncTracker.orders_iff_of_no_demands {τ : Type} {tracker : AsyncTracker τ}
    {c : Computation} (hdemands : tracker.demands c = []) (a b : Nat) :
    tracker.Orders c a b ↔
      ∃ p, c.instruction? b = some p ∧ a ∈ p.operands ++ p.controlPredecessors := by
  unfold Orders
  rw [hdemands]
  simp only [List.not_mem_nil, false_and, exists_false, or_false]
  rfl

namespace Graph

variable {τ : Type} [TimeScale τ]

theorem addEdge_new_iff (g : Graph τ) (source sink : Nat) (latency : τ) :
    (g.addEdge source sink latency).2 = true ↔ ¬ g.Leads source sink := by
  rw [← hasEdge_iff]
  unfold addEdge
  split
  · next hold => simp [hold]
  · next hnew => simp [hnew]

theorem Fresh.addEdges {g : Graph τ} (fresh : g.Fresh) {edges : List (NewEdge τ)}
    (hsize : ∀ e ∈ edges, e.source < g.size ∧ e.sink < g.size) :
    (g.addEdges edges).Fresh ∧ ∀ u v, (g.addEdges edges).Leads u v ↔
      g.Leads u v ∨ ∃ e ∈ edges, e.source = u ∧ e.sink = v := by
  induction edges generalizing g with
  | nil => exact ⟨fresh, fun u v => by simp [Graph.addEdges]⟩
  | cons e rest ih =>
    obtain ⟨⟨hsource, hsink⟩, hrest⟩ := List.forall_mem_cons.1 hsize
    -- the bounds are about the old graph, and an addition keeps its size
    have hkeeps := keeps_toSite_addEdge g e.source e.sink e.latency
    obtain ⟨hfresh, hleads⟩ := ih (fresh.addEdge hsource hsink e.latency)
      (by rwa [hkeeps.size_eq])
    refine ⟨hfresh, ?_⟩
    intro u v
    rw [Graph.addEdges, List.foldl_cons, ← Graph.addEdges, hleads, leads_addEdge_iff hsource,
      List.exists_mem_cons_iff, or_assoc, eq_comm, @eq_comm _ v]

section Build

open LatencyHiding.Computation LatencyHiding.AsyncTracker

variable {c : Computation} {tracker : AsyncTracker τ}

/-- Without demands of the tracker, a graph can be built of exactly the lists of known and distinct
instructions that hold the dependencies of their members, and it has an edge for each dependency.
Whatever edges are added then, self-edges included, both ends of an edge mirror each other, no edge
is there twice and the degrees count the edges; and an addition says that its edge is new exactly if
the edge is neither that of a dependency nor one that was added before. -/
theorem wellFormed_after_edges (built : c.Built) (hdemands : tracker.demands c = [])
    (sequence : List Nat) (estimator : Estimator τ) :
    ((∃ g, build c sequence estimator tracker = .ok g) ↔
      (∀ id ∈ sequence, id < c.size) ∧ sequence.Nodup ∧
        ∀ id ∈ sequence, ∀ p, c.instruction? id = some p →
          ∀ input ∈ p.operands ++ p.controlPredecessors, input ∈ sequence) ∧
    ∀ g, build c sequence estimator tracker = .ok g →
      g.order = sequence ∧
      (∀ u v, g.Leads u v ↔ ∃ a b : Nat, sequence[u]? = some a ∧ sequence[v]? = some b ∧
        ∃ p, c.instruction? b = some p ∧ a ∈ p.operands ++ p.controlPredecessors) ∧
      ∀ edges : List (NewEdge τ), (∀ e ∈ edges, e.source < g.size ∧ e.sink < g.size) →
        (g.addEdges edges).Fresh ∧
        (∀ u v, (g.addEdges edges).Leads u v ↔
          g.Leads u v ∨ ∃ e ∈ edges, e.source = u ∧ e.sink = v) ∧
        ∀ source sink latency, source < g.size → sink < g.size →
          (((g.addEdges edges).addEdge source sink latency).2 = true ↔
            ¬ (g.Leads source sink ∨ ∃ e ∈ edges, e.source = source ∧ e.sink = sink)) := by
  have hc := built.wired
  refine ⟨?_, ?_⟩
  · rw [← admits_iff]
    exact ⟨fun ⟨_, hbuild⟩ => (build_ok hc hbuild).1,
      fun admits => exists_build hc admits estimator tracker⟩
  · intro g hbuild
    obtain ⟨_, represents⟩ := build_ok hc hbuild
    refine ⟨represents.order_eq, ?_, ?_⟩
    · intro u v
      rw [represents.leads_iff]
      simp only [orders_iff_of_no_demands hdemands]
    · intro edges hsize
      obtain ⟨hfresh, hleads⟩ := represents.fresh.addEdges hsize
      refine ⟨hfresh, hleads, ?_⟩
      intro source sink latency _ _
      rw [addEdge_new_iff, hleads]

/-- The two ways from the last instruction to the first, and an edge from one of them to itself: it
is not new a second time, nor is the edge of a dependency, but an edge against one is. -/
theorem wellFormed_twoWays : twoWays.Built ∧ ∃ g : Graph Rat,
    build twoWays [3, 2, 1, 0] Estimator.approximate (AsyncTracker.generic {}) = .ok g ∧
    (g.addEdges [⟨1, 1, 5⟩]).Fresh ∧
    ((g.addEdges [⟨1, 1, 5⟩]).addEdge 1 1 7).2 = false ∧
    ((g.addEdges [⟨1, 1, 5⟩]).addEdge 3 2 7).2 = false ∧
    ((g.addEdges [⟨1, 1, 5⟩]).addEdge 0 2 7).2 = true := by
  have built : twoWays.Built := built_foldl_grown (.empty "c" false) _ rfl
  have admits : twoWays.Admits [3, 2, 1, 0] :=
    (built.wired.isOrder_postOrder.admits built.wired).perm (by decide)
  have hdemands : (AsyncTracker.generic {} : AsyncTracker Rat).demands twoWays = [] := rfl
  obtain ⟨hiff, hgraph⟩ :=
    wellFormed_after_edges built hdemands [3, 2, 1, 0] Estimator.approximate
  obtain ⟨g, hbuild⟩ := hiff.2 ((admits_iff twoWays _).1 admits)
  obtain ⟨horder, hleads, hadded⟩ := hgraph g hbuild
  have hsize : g.size = 4 := by rw [size_eq_length_order, horder]; rfl
  obtain ⟨hfresh, _, hnew⟩ := hadded [⟨1, 1, 5⟩] (by simp [hsize])
  refine ⟨built, g, hbuild, hfresh, ?_, ?_, ?_⟩
  · rw [Bool.eq_false_iff, ne_eq, hnew 1 1 7 (by omega) (by omega), not_not]
    exact Or.inr ⟨_, List.mem_singleton_self _, rfl, rfl⟩
  · rw [Bool.eq_false_iff, ne_eq, hnew 3 2 7 (by omega) (by omega), not_not]
    exact Or.inl ((hleads 3 2).2 ⟨0, 1, rfl, rfl, _, rfl, by decide⟩)
  · rw [hnew 0 2 7 (by omega) (by omega)]
    rintro (hlead | ⟨e, he, hsource, _⟩)
    · obtain ⟨a, b, ha, hb, p, hp, hinput⟩ := (hleads 0 2).1 hlead
      obtain rfl : 3 = a := Option.some.inj ha
      obtain rfl : 1 = b := Option.some.inj hb
      obtain rfl := Option.some.inj hp
      revert hinput
      decide
    · obtain rfl := List.mem_singleton.1 he
      cases hsource

end Build

end Graph

end LatencyHiding
