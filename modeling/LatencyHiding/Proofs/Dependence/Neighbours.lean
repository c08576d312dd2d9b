import LatencyHiding.Proofs.Dependence.Content
import LatencyHiding.Proofs.Dependence.Depths
import LatencyHiding.Proofs.TimeScale.Laws

set_option autoImplicit false

namespace LatencyHiding

open TimeScale

variable {τ : Type}

def AsyncTracker.site (tracker : AsyncTracker τ) (p : Placed) : Site where
  instr := p
  isStart := tracker.isStart p.toInstruction
  isDone := tracker.isDone p.toInstruction

namespace Computation

instance (c : Computation) (user input : Nat) : Decidable (c.Needs user input) :=
  decidable_of_iff ((c.instruction? user).any (input ∈ ·.inputs) = true) <| by
    unfold Needs
    cases c.instruction? user <;> simp

def dependents (c : Computation) (a : Nat) : List Nat := c.postOrder.filter (c.Needs · a)

def dependencies (c : Computation) (b : Nat) : List Nat := c.postOrder.filter (c.Needs b)

def between [TimeScale τ] (c : Computation) (tracker : AsyncTracker τ) (time : Site → Site → τ)
    (a b : Nat) : τ :=
  ((c.instruction? a).bind fun p => (c.instruction? b).map fun q =>
    time (tracker.site p) (tracker.site q)).getD zero

theorem between_eq [TimeScale τ] {c : Computation} {a b : Nat} {p q : Placed}
    (hp : c.instruction? a = some p) (hq : c.instruction? b = some q) (tracker : AsyncTracker τ)
    (time : Site → Site → τ) :
    c.between tracker time a b = time (tracker.site p) (tracker.site q) := by
  simp [between, hp, hq]

theorem between_cases [TimeScale τ] (c : Computation) (tracker : AsyncTracker τ)
    (time : Site → Site → τ) (a b : Nat) : c.between tracker time a b = zero ∨
      ∃ p q, c.instruction? a = some p ∧ c.instruction? b = some q ∧
        c.between tracker time a b = time (tracker.site p) (tracker.site q) := by
  cases hp : c.instruction? a with
  | none => simp [between, hp]
  | some p =>
    cases hq : c.instruction? b with
    | none => simp [between, hq]
    | some q => exact Or.inr ⟨p, q, rfl, rfl, between_eq hp hq tracker time⟩

end Computation

namespace Graph

theorem filterMap_neighbours {β : Type} (g : Graph τ) (value : Node τ → τ → β) (f : Nat → τ → β)
    (edges : List (Edge τ)) (hsize : ∀ e ∈ edges, e.target < g.size)
    (hvalue : ∀ e ∈ edges, ∀ p, g.node? e.target = some p →
      value p e.latency = f p.instr.id e.latency) :
    (edges.filterMap fun e => (g.node? e.target).map fun p => value p e.latency) =
      edges.map fun e => f (g.idAt e.target) e.latency := by
  induction edges with
  | nil => rfl
  | cons e edges ih =>
    obtain ⟨p, hp⟩ := (lt_size_iff g e.target).1 (hsize e List.mem_cons_self)
    have hfirst := hvalue e List.mem_cons_self p hp
    have hrest := ih (fun e' he' => hsize e' (List.mem_cons_of_mem e he'))
      (fun e' he' => hvalue e' (List.mem_cons_of_mem e he'))
    rw [List.map_cons, ← hrest, List.filterMap_cons, hp, Option.map_some, hfirst, idAt_eq hp]

/-- A graph of all instructions of `c` and of nothing but their dependencies. -/
structure Depicts (g : Graph τ) (c : Computation) (estimator : Estimator τ)
    (tracker : AsyncTracker τ) : Prop where
  linked : g.Linked
  perm : g.order.Perm c.postOrder
  leads_iff : ∀ u v : Nat, g.Leads u v ↔
    ∃ a b : Nat, g.order[u]? = some a ∧ g.order[v]? = some b ∧ c.Needs b a
  known : ∀ (u : Nat) (n : Node τ), g.node? u = some n →
    c.instruction? n.instr.id = some n.instr ∧ n.toSite = tracker.site n.instr
  estimated : g.Estimated estimator

namespace Depicts

variable {g h : Graph τ} {c : Computation} {estimator : Estimator τ} {tracker : AsyncTracker τ}
  {u v : Nat} {n p : Node τ}

theorem keeps (depicts : g.Depicts c estimator tracker) (hsite : Keeps Node.toSite g h)
    (hsucc : Keeps Node.successors g h) (hpred : Keeps Node.predecessors g h) :
    h.Depicts c estimator tracker where
  linked := depicts.linked.keeps hsucc hpred
  perm := hsite.order_eq ▸ depicts.perm
  leads_iff u v := by
    rw [hsucc.leads_iff, hsite.order_eq]
    exact depicts.leads_iff u v
  known u n hn := by
    obtain ⟨m, hm, hsame⟩ := hsite.exists_node? hn
    have hinstr : m.instr = n.instr := congrArg Site.instr hsame
    rw [← hinstr, ← hsame]
    exact depicts.known u m hm
  estimated := depicts.estimated.keeps hsite hsucc

theorem nodup (depicts : g.Depicts c estimator tracker) : g.order.Nodup :=
  depicts.perm.nodup_iff.2 List.nodup_range

theorem leads_iff_needs (depicts : g.Depicts c estimator tracker) (hn : g.node? u = some n)
    (hp : g.node? v = some p) : g.Leads u v ↔ c.Needs p.instr.id n.instr.id := by
  have hu := (getElem?_order_eq_some_iff g u n.instr.id).2 ⟨n, hn, rfl⟩
  have hv := (getElem?_order_eq_some_iff g v p.instr.id).2 ⟨p, hp, rfl⟩
  rw [depicts.leads_iff, hu, hv]
  simp

theorem exists_node (depicts : g.Depicts c estimator tracker) {a : Nat} (ha : a < c.size) :
    ∃ (u : Nat) (n : Node τ), g.node? u = some n ∧ n.instr.id = a := by
  have hmem : a ∈ g.order := depicts.perm.mem_iff.2 (List.mem_range.2 ha)
  obtain ⟨u, hu⟩ := List.mem_iff_getElem?.1 hmem
  obtain ⟨n, hn, hid⟩ := (getElem?_order_eq_some_iff g u a).1 hu
  exact ⟨u, n, hn, hid⟩

theorem unique (depicts : g.Depicts c estimator tracker) (hn : g.node? u = some n)
    (hp : g.node? v = some p) (hid : n.instr.id = p.instr.id) : u = v ∧ n = p := by
  have huv : u = v := idAt_inj depicts.nodup ((lt_size_iff g u).2 ⟨n, hn⟩)
    ((lt_size_iff g v).2 ⟨p, hp⟩) (by rw [idAt_eq hn, idAt_eq hp, hid])
  subst huv
  exact ⟨rfl, Option.some.inj (hn.symm.trans hp)⟩

theorem nodup_map_idAt (depicts : g.Depicts c estimator tracker) {targets : List Nat}
    (hnodup : targets.Nodup) (hsize : ∀ v ∈ targets, v < g.size) : (targets.map g.idAt).Nodup := by
  apply hnodup.map_on
  intro v hv w hw
  exact idAt_inj depicts.nodup (hsize v hv) (hsize w hw)

theorem successors_perm (depicts : g.Depicts c estimator tracker) (hn : g.node? u = some n) :
    (n.successors.map fun e => g.idAt e.target).Perm (c.dependents n.instr.id) := by
  have hleads (v : Nat) := mem_successors_iff hn v
  have hmap : (n.successors.map fun e => g.idAt e.target) =
      (n.successors.map (·.target)).map g.idAt := by simp
  rw [hmap]
  apply (List.perm_ext_iff_of_nodup (depicts.nodup_map_idAt (depicts.linked.nodup_successors hn)
    fun v hv => (depicts.linked.lt_size ((hleads v).1 hv)).2) (List.nodup_range.filter _)).2
  intro b
  simp only [List.mem_map (f := g.idAt), List.mem_filter, decide_eq_true_eq, hleads]
  constructor
  · rintro ⟨v, hlead, rfl⟩
    obtain ⟨p, hp⟩ := (lt_size_iff g v).1 (depicts.linked.lt_size hlead).2
    have hneeds := (depicts.leads_iff_needs hn hp).1 hlead
    rw [idAt_eq hp]
    exact ⟨List.mem_range.2 hneeds.lt_size, hneeds⟩
  · rintro ⟨hb, hneeds⟩
    obtain ⟨v, p, hp, rfl⟩ := depicts.exists_node (List.mem_range.1 hb)
    exact ⟨v, (depicts.leads_iff_needs hn hp).2 hneeds, idAt_eq hp⟩

theorem predecessors_perm (depicts : g.Depicts c estimator tracker) (hc : c.Wired)
    (hn : g.node? u = some n) :
    (n.predecessors.map fun e => g.idAt e.target).Perm (c.dependencies n.instr.id) := by
  have hleads (v : Nat) := depicts.linked.mem_predecessors_iff hn v
  have hmap : (n.predecessors.map fun e => g.idAt e.target) =
      (n.predecessors.map (·.target)).map g.idAt := by simp
  rw [hmap]
  apply (List.perm_ext_iff_of_nodup (depicts.nodup_map_idAt (depicts.linked.nodup_predecessors hn)
    fun v hv => (depicts.linked.lt_size ((hleads v).1 hv)).1) (List.nodup_range.filter _)).2
  intro a
  simp only [List.mem_map (f := g.idAt), List.mem_filter, decide_eq_true_eq, hleads]
  constructor
  · rintro ⟨v, hlead, rfl⟩
    obtain ⟨p, hp⟩ := (lt_size_iff g v).1 (depicts.linked.lt_size hlead).1
    have hneeds := (depicts.leads_iff_needs hp hn).1 hlead
    rw [idAt_eq hp]
    exact ⟨List.mem_range.2 (Nat.lt_trans (hneeds.lt hc) hneeds.lt_size), hneeds⟩
  · rintro ⟨ha, hneeds⟩
    obtain ⟨v, p, hp, rfl⟩ := depicts.exists_node (List.mem_range.1 ha)
    exact ⟨v, (depicts.leads_iff_needs hp hn).2 hneeds, idAt_eq hp⟩

theorem not_reachesCycle (depicts : g.Depicts c estimator tracker) (hc : c.Wired) (u : Nat) :
    ¬ ReachesCycle g.Awaits u := by
  refine not_reachesCycle_of_lt g.idAt ?_ u
  intro u v hawaits
  obtain ⟨a, b, hv, hu, hneeds⟩ := (depicts.leads_iff v u).1 hawaits
  rw [idAt_of_getElem? hv, idAt_of_getElem? hu]
  exact hneeds.lt hc

theorem latency_predecessor (depicts : g.Depicts c estimator tracker) (hn : g.node? u = some n)
    {e : Edge τ} (he : e ∈ n.predecessors) (hp : g.node? e.target = some p) :
    e.latency = estimator.latency p.toSite n.toSite := by
  refine depicts.estimated e.target u e.latency p n ?_ hp hn
  rw [depicts.linked.mirrored, incoming_eq hn]
  exact he

section Latest

variable [TimeScale τ]

theorem latency_successor (depicts : g.Depicts c estimator tracker) (hn : g.node? u = some n)
    {e : Edge τ} (he : e ∈ n.successors) (hp : g.node? e.target = some p) :
    e.latency = c.between tracker estimator.latency n.instr.id p.instr.id := by
  obtain ⟨hknown, hsite⟩ := depicts.known u n hn
  obtain ⟨hknown', hsite'⟩ := depicts.known e.target p hp
  rw [Computation.between_eq hknown hknown', ← hsite, ← hsite']
  exact depicts.estimated u e.target e.latency n p (by rwa [outgoing_eq hn]) hn hp

variable [Ordered τ]

theorem latest_successors (depicts : g.Depicts c estimator tracker) (hn : g.node? u = some n)
    (value : Node τ → τ → τ) (f : Nat → τ)
    (hvalue : ∀ e ∈ n.successors, ∀ p, g.node? e.target = some p →
      value p e.latency = f p.instr.id) :
    latest zero (n.successors.filterMap fun e =>
        (g.node? e.target).map fun p => value p e.latency) =
      latest zero ((c.dependents n.instr.id).map f) := by
  rw [filterMap_neighbours g value (fun a _ => f a) n.successors ?_ hvalue]
  · have hperm := (depicts.successors_perm hn).map f
    rw [List.map_map] at hperm
    exact latest_perm hperm
  · intro e he
    exact (depicts.linked.lt_size (leads_of_mem_successors hn he)).2

theorem latest_predecessors (depicts : g.Depicts c estimator tracker) (hc : c.Wired)
    (hn : g.node? u = some n) (value : Node τ → τ → τ) (f : Nat → τ)
    (hvalue : ∀ e ∈ n.predecessors, ∀ p, g.node? e.target = some p →
      value p e.latency = f p.instr.id) :
    latest zero (n.predecessors.filterMap fun e =>
        (g.node? e.target).map fun p => value p e.latency) =
      latest zero ((c.dependencies n.instr.id).map f) := by
  rw [filterMap_neighbours g value (fun a _ => f a) n.predecessors ?_ hvalue]
  · have hperm := (depicts.predecessors_perm hc hn).map f
    rw [List.map_map] at hperm
    exact latest_perm hperm
  · intro e he
    exact (depicts.linked.lt_size
      ((depicts.linked.mem_predecessors_iff hn e.target).1 (List.mem_map_of_mem he))).1

def asyncLatency (estimator : Estimator τ) (source sink : Site) : τ :=
  if source.isAsyncPair sink then estimator.latency source sink else zero

theorem asyncDepthOf_eq (depicts : g.Depicts c estimator tracker) (hc : c.Wired)
    (hn : g.node? u = some n) (depth : Nat → τ)
    (hdepth : ∀ (v : Nat) (p : Node τ), g.Leads v u → g.node? v = some p →
      p.asyncDepth = depth p.instr.id) :
    g.asyncDepthOf n = latest zero ((c.dependencies n.instr.id).map fun a =>
      depth a + c.between tracker (asyncLatency estimator) a n.instr.id) := by
  apply depicts.latest_predecessors hc hn
    (fun p latency => p.asyncDepth + (if p.isAsyncPair n.toSite then latency else zero))
  intro e he p hp
  obtain ⟨hknown, hsite⟩ := depicts.known u n hn
  obtain ⟨hknown', hsite'⟩ := depicts.known e.target p hp
  have hlead := (depicts.linked.mem_predecessors_iff hn e.target).1 (List.mem_map_of_mem he)
  rw [Computation.between_eq hknown' hknown, ← hsite, ← hsite', asyncLatency,
    depicts.latency_predecessor hn he hp, hdepth e.target p hlead hp]

theorem asyncDepth_eq (hc : c.Wired) (hg : g.Depicts c estimator tracker)
    (hh : h.Depicts c estimator tracker) (deepg : ∀ u, g.Deep u) (deeph : ∀ u, h.Deep u)
    (hn : g.node? u = some n) (hp : h.node? v = some p) (hid : n.instr.id = p.instr.id) :
    n.asyncDepth = p.asyncDepth := by
  let depth (a : Nat) : τ := (((g.index? a).bind g.node?).map (·.asyncDepth)).getD zero
  have hdepth {u : Nat} {n : Node τ} (hn : g.node? u = some n) :
      n.asyncDepth = depth n.instr.id := by
    simp [depth, index?_of_node hg.nodup hn, hn]
  -- by induction on the id, since what an instruction needs has a smaller one
  have hall (b : Nat) : ∀ (v : Nat) (p : Node τ), h.node? v = some p → p.instr.id = b →
      p.asyncDepth = depth b := by
    induction b using Nat.strongRecOn with
    | ind b ih =>
      rintro v p hp rfl
      obtain ⟨u, n, hn, hid⟩ :=
        hg.exists_node (Computation.lt_size_of_instruction? (hh.known v p hp).1)
      rw [(deeph v p hp).1, hh.asyncDepthOf_eq hc hp depth, ← hid, ← hdepth hn, (deepg u n hn).1,
        hg.asyncDepthOf_eq hc hn depth]
      · intro w q _ hq
        exact hdepth hq
      · intro w q hlead hq
        exact ih q.instr.id (((hh.leads_iff_needs hq hp).1 hlead).lt hc) w q hq rfl
  rw [hdepth hn, hid, ← hall p.instr.id v p hp rfl]

end Latest

end Depicts

section Readings

variable [TimeScale τ] [Ordered τ]

theorem isReading_asyncDepth_demand {g : Graph τ} (h : ∀ n ∈ g.nodes, IsReading n.asyncDepth)
    (d : OrderDemand τ) : ∀ n ∈ (g.demand d).nodes, IsReading n.asyncDepth := by
  unfold demand
  split
  · unfold addEdge
    split
    · exact h
    · apply isReading_asyncDepth_withDepths
      exact (keeps_pushEdge (fun _ _ _ _ _ => rfl) g _ _ _).forall_nodes h
  · exact h

theorem isReading_asyncDepth_of_build {c : Computation} (hc : c.Wired) {sequence : List Nat}
    {estimator : Estimator τ} {tracker : AsyncTracker τ} {g : Graph τ}
    (hbuild : build c sequence estimator tracker = .ok g) :
    ∀ n ∈ g.nodes, IsReading n.asyncDepth := by
  obtain ⟨nodes, linked, happend, hlink, rfl⟩ := (build_eq_ok_iff _ _ _ _ _ g).1 hbuild
  obtain ⟨bare, _⟩ :=
    foldlM_appendNode_ok hc (bare_empty c estimator tracker) List.nodup_nil happend
  have hbare : ∀ n ∈ nodes.nodes, IsReading n.asyncDepth := by
    intro n hn
    obtain ⟨u, hu⟩ := List.mem_iff_getElem?.1 hn
    obtain ⟨p, _, rfl⟩ := bare.made u n hu
    exact isReading_zero
  have hdemands (demands : List (OrderDemand τ)) (g : Graph τ)
      (h : ∀ n ∈ g.nodes, IsReading n.asyncDepth) :
      ∀ n ∈ (demands.foldl demand g).nodes, IsReading n.asyncDepth := by
    induction demands generalizing g with
    | nil => exact h
    | cons d demands ih => exact ih _ (isReading_asyncDepth_demand h d)
  have hlinked := (keeps_foldlM_linkNode (fun _ _ _ _ _ => rfl) _ hlink).forall_nodes hbare
  exact (keeps_delayed _ (fun _ _ => rfl) _).forall_nodes
    (hdemands _ _ (isReading_asyncDepth_withDepths hlinked))

end Readings

section Build

variable [TimeScale τ] {c : Computation} {sequence : List Nat} {estimator : Estimator τ}
  {tracker : AsyncTracker τ} {g : Graph τ} (hc : c.Wired) (horder : c.IsOrder sequence)
  (free : ∀ c, tracker.demands c = []) (hbuild : build c sequence estimator tracker = .ok g)

include hc horder free hbuild

theorem depicts_of_build : g.Depicts c estimator tracker := by
  obtain ⟨_, represents⟩ := build_ok hc hbuild
  refine ⟨represents.fresh.toLinked, represents.order_eq ▸ horder.perm, ?_, ?_,
    estimated_of_build hc free hbuild⟩
  · intro u v
    rw [represents.leads_iff, represents.order_eq]
    simp [AsyncTracker.Orders, free]
  · intro u n hn
    obtain ⟨hknown, hlabel⟩ := label_of_build hc hbuild hn
    exact ⟨hknown, congrArg Prod.fst hlabel⟩

theorem deep_of_build (u : Nat) : g.Deep u := by
  have depicts := depicts_of_build hc horder free hbuild
  obtain ⟨nodes, linked, happend, hlink, rfl⟩ := (build_eq_ok_iff _ _ _ _ _ g).1 hbuild
  obtain ⟨bare, _, nodup, _⟩ :=
    foldlM_appendNode_ok hc (bare_empty c estimator tracker) List.nodup_nil happend
  have hlinked := foldlM_linkNode_ok estimator.onNodes bare.known nodup bare.fresh bare.not_leads
    (Nat.le_refl _) hlink
  have hawaits : (linked.withDepths.adjust tracker).Awaits = linked.Awaits := by
    funext v w
    have hsucc : Keeps Node.successors linked (linked.withDepths.adjust tracker) :=
      (keeps_withDepths (fun _ _ _ => rfl) linked).trans
        (keeps_adjust_of_free (fun _ _ => rfl) free _)
    exact propext (hsucc.leads_iff w v)
  refine (deep_withDepths hlinked.fresh.toLinked ?_).keeps
    (keeps_adjust_of_free (fun _ _ => rfl) free _)
  rw [← hawaits]
  exact depicts.not_reachesCycle hc u

end Build

end Graph

end LatencyHiding
