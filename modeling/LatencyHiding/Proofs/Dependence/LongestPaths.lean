import LatencyHiding.Proofs.Dependence.Alike

set_option autoImplicit false

/-!
Depths after edges are added one by one. Every new edge sets off a visit that writes over the depths
of the one before, and what is behind a cycle keeps them. Still the recurrences hold afterwards
wherever no cycle leads to, so that one visit of all edges would have found the same depths. No
visit ever counts below zero.
-/

namespace LatencyHiding.Graph

open TimeScale

variable {τ : Type}

structure Coherent (g : Graph τ) : Prop extends Fresh g where
  nodup : g.order.Nodup

theorem Coherent.keeps {g h : Graph τ} (coherent : g.Coherent) (fresh : h.Fresh)
    (hsite : Keeps Node.toSite g h) : h.Coherent where
  toFresh := fresh
  nodup := hsite.order_eq ▸ coherent.nodup

def join (g : Graph τ) (d : OrderDemand τ) : Graph τ :=
  match g.index? d.first, g.index? d.second with
  | some source, some sink =>
    if g.hasEdge source sink then g else g.pushEdge source sink d.latency
  | _, _ => g

section Join

variable {g h : Graph τ}

theorem keeps_join {β : Type} {view : Node τ → β} (hview : ∀ n s o p i,
      view { n with successors := s, outdegree := o, predecessors := p, indegree := i } = view n)
    (g : Graph τ) (d : OrderDemand τ) : Keeps view g (g.join d) := by
  unfold join
  split
  · split
    · exact Keeps.refl _ g
    · exact keeps_pushEdge hview g _ _ _
  · exact Keeps.refl _ g

theorem precedes_pushEdge_iff {source sink a b : Nat} (hsource : g.order[source]? = some a)
    (hsink : g.order[sink]? = some b) (latency : τ) (a' b' : Nat) (l : τ) :
    (g.pushEdge source sink latency).Precedes a' b' l ↔
      g.Precedes a' b' l ∨ (a' = a ∧ b' = b ∧ l = latency) := by
  simp only [Precedes, (keeps_toSite_pushEdge g source sink latency).order_eq,
    outgoing_pushEdge (lt_size_of_getElem? hsource)]
  constructor
  · rintro ⟨u, v, hu, hv, hedge⟩
    split at hedge
    · next hsame =>
      subst hsame
      rcases List.mem_append.1 hedge with hold | hnew
      · exact Or.inl ⟨source, v, hu, hv, hold⟩
      · obtain ⟨rfl, rfl⟩ := Edge.mk.inj (List.mem_singleton.1 hnew)
        exact Or.inr ⟨Option.some.inj (hu.symm.trans hsource),
          Option.some.inj (hv.symm.trans hsink), rfl⟩
    · exact Or.inl ⟨u, v, hu, hv, hedge⟩
  · rintro (⟨u, v, hu, hv, hedge⟩ | ⟨rfl, rfl, rfl⟩)
    · refine ⟨u, v, hu, hv, ?_⟩
      split
      · exact List.mem_append_left _ hedge
      · exact hedge
    · refine ⟨source, sink, hsource, hsink, ?_⟩
      rw [if_pos rfl]
      exact List.mem_append_right _ (List.mem_singleton.2 rfl)

def Lacks (g : Graph τ) (d : OrderDemand τ) : Prop :=
  d.first ∈ g.order ∧ d.second ∈ g.order ∧ ¬ ∃ latency, g.Precedes d.first d.second latency

theorem join_cases [TimeScale τ] (nodup : g.order.Nodup) (d : OrderDemand τ) :
    (g.Lacks d ∧ ∃ u v, g.order[u]? = some d.first ∧ g.order[v]? = some d.second ∧
      ¬ g.Leads u v ∧ g.join d = g.pushEdge u v d.latency ∧
      g.demand d = (g.pushEdge u v d.latency).withDepths) ∨
    (¬ g.Lacks d ∧ g.join d = g ∧ g.demand d = g) := by
  unfold join demand addEdge
  cases hu : g.index? d.first with
  | none =>
    exact Or.inr ⟨fun lacks => (index?_eq_none_iff g _).1 hu lacks.1, rfl, rfl⟩
  | some u =>
    cases hv : g.index? d.second with
    | none => exact Or.inr ⟨fun lacks => (index?_eq_none_iff g _).1 hv lacks.2.1, rfl, rfl⟩
    | some v =>
      rw [index?_eq_some_iff nodup] at hu hv
      have hleads := leads_iff_precedes nodup hu hv
      by_cases hlead : g.Leads u v
      · have hedge := (hasEdge_iff g u v).2 hlead
        exact Or.inr ⟨fun lacks => lacks.2.2 (hleads.1 hlead), by simp [hedge], by simp [hedge]⟩
      · have hedge : g.hasEdge u v = false := by
          rw [Bool.eq_false_iff, ne_eq, hasEdge_iff]
          exact hlead
        have hlacks : g.Lacks d := ⟨List.mem_of_getElem? hu, List.mem_of_getElem? hv,
          fun hprecedes => hlead (hleads.2 hprecedes)⟩
        exact Or.inl ⟨hlacks, u, v, hu, hv, hlead, by simp [hedge], by simp [hedge]⟩

end Join

section Steps

variable [TimeScale τ] {g h : Graph τ}

theorem precedes_join_iff (nodup : g.order.Nodup) (d : OrderDemand τ) (a b : Nat) (latency : τ) :
    (g.join d).Precedes a b latency ↔ g.Precedes a b latency ∨
      (g.Lacks d ∧ a = d.first ∧ b = d.second ∧ latency = d.latency) := by
  rcases join_cases nodup d with ⟨lacks, u, v, hu, hv, _, hjoin, _⟩ | ⟨hnot, hjoin, _⟩
  · rw [hjoin, precedes_pushEdge_iff hu hv]
    simp [lacks]
  · rw [hjoin]
    simp [hnot]

theorem Coherent.join (coherent : g.Coherent) (d : OrderDemand τ) : (g.join d).Coherent := by
  rcases join_cases coherent.nodup d with ⟨_, u, v, hu, hv, hnew, hjoin, _⟩ | ⟨_, hjoin, _⟩
  · rw [hjoin]
    exact coherent.keeps (coherent.toFresh.pushEdge (lt_size_of_getElem? hu)
      (lt_size_of_getElem? hv) d.latency hnew) (keeps_toSite_pushEdge g u v d.latency)
  · rwa [hjoin]

theorem Coherent.withDepths (coherent : g.Coherent) : g.withDepths.Coherent :=
  coherent.keeps coherent.toFresh.withDepths (keeps_withDepths (fun _ _ _ => rfl) g)

theorem Coherent.demand (coherent : g.Coherent) (d : OrderDemand τ) : (g.demand d).Coherent := by
  obtain ⟨fresh, hsite, _⟩ := demand_spec coherent.toFresh coherent.nodup d
  exact coherent.keeps fresh hsite

theorem alike_withDepths (g : Graph τ) : g.Alike g.withDepths :=
  (keeps_withDepths (fun _ _ _ => rfl) g).alike (keeps_withDepths (fun _ _ _ => rfl) g)

theorem Alike.join (alike : g.Alike h) (nodup : g.order.Nodup) (nodup' : h.order.Nodup)
    (d : OrderDemand τ) : (g.join d).Alike (h.join d) := by
  have hfacts (k : Graph τ) : Keeps (fun n => (n.toSite, n.cost)) k (k.join d) :=
    keeps_join (fun _ _ _ _ _ => rfl) k d
  have hlacks : g.Lacks d ↔ h.Lacks d := by
    simp only [Lacks, alike.mem_order_iff, alike.precedes_iff]
  constructor
  · intro a
    rw [(hfacts g).facts_eq, (hfacts h).facts_eq, alike.facts_eq]
  · intro a b latency
    rw [precedes_join_iff nodup, precedes_join_iff nodup', alike.precedes_iff, hlacks]

theorem alike_demand (nodup : g.order.Nodup) (d : OrderDemand τ) :
    (g.demand d).Alike (g.join d) := by
  rcases join_cases nodup d with ⟨_, u, v, _, _, _, hjoin, hdemand⟩ | ⟨_, hjoin, hdemand⟩
  · rw [hjoin, hdemand]
    exact (alike_withDepths _).symm
  · rw [hjoin, hdemand]
    exact Alike.refl g

theorem Solved.demand (solved : g.Solved) (coherent : g.Coherent) (d : OrderDemand τ) :
    (g.demand d).Solved := by
  rcases join_cases coherent.nodup d with ⟨_, u, v, hu, hv, hnew, _, hdemand⟩ | ⟨_, _, hdemand⟩
  · rw [hdemand]
    exact (coherent.toLinked.pushEdge (lt_size_of_getElem? hu) (lt_size_of_getElem? hv) d.latency
      hnew).solved_withDepths
  · rwa [hdemand]

/-- One by one or without depths, the same edges are added. -/
theorem foldl_demand_spec (solved : g.Solved) (coherent : g.Coherent) (coherent' : h.Coherent)
    (alike : g.Alike h) (demands : List (OrderDemand τ)) :
    (demands.foldl demand g).Solved ∧ (demands.foldl demand g).Coherent ∧
      (demands.foldl join h).Coherent ∧
      (demands.foldl demand g).Alike (demands.foldl join h) := by
  induction demands generalizing g h with
  | nil => exact ⟨solved, coherent, coherent', alike⟩
  | cons d rest ih =>
    exact ih (solved.demand coherent d) (coherent.demand d) (coherent'.join d)
      ((alike_demand coherent.nodup d).trans (alike.join coherent.nodup coherent'.nodup d))

end Steps

section Links

variable [TimeScale τ]

def linkAll (c : Computation) (sequence : List InstrId) (estimator : Estimator τ)
    (tracker : AsyncTracker τ) : Except Fault (Graph τ) := do
  let g ← sequence.foldlM (appendNode estimator tracker) { computation := c, nodes := [] }
  (List.range g.size).foldlM (linkNode estimator.onNodes) g

variable {c : Computation} {sequence : List Nat} {estimator : Estimator τ}
  {tracker : AsyncTracker τ} {g : Graph τ}

theorem build_eq_ok_iff_linkAll (g : Graph τ) : build c sequence estimator tracker = .ok g ↔
    ∃ linked, linkAll c sequence estimator tracker = .ok linked ∧
      g = linked.withDepths.adjust tracker := by
  simp only [build, build_eq_ok_iff, linkAll, bind_eq_ok_iff]
  constructor
  · rintro ⟨nodes, linked, happend, hlink, rfl⟩
    exact ⟨linked, ⟨nodes, happend, hlink⟩, rfl⟩
  · rintro ⟨linked, ⟨nodes, happend, hlink⟩, rfl⟩
    exact ⟨nodes, linked, happend, hlink, rfl⟩

theorem exists_linkAll (hc : c.Wired) (admits : c.Admits sequence) (estimator : Estimator τ)
    (tracker : AsyncTracker τ) : ∃ g, linkAll c sequence estimator tracker = .ok g := by
  obtain ⟨g, hbuild⟩ := exists_build hc admits estimator tracker
  obtain ⟨linked, hlink, _⟩ := (build_eq_ok_iff_linkAll g).1 hbuild
  exact ⟨linked, hlink⟩

/-- A graph of some instructions of `c` and of nothing but the dependencies between them. -/
structure Assembled (g : Graph τ) (c : Computation) (estimator : Estimator τ)
    (tracker : AsyncTracker τ) (sequence : List Nat) : Prop where
  coherent : g.Coherent
  computation_eq : g.computation = c
  order_eq : g.order = sequence
  leads_iff : ∀ u v, g.Leads u v ↔ Feeds c sequence u v
  known : ∀ (u : Nat) (n : Node τ), g.node? u = some n → c.instruction? n.instr.id = some n.instr ∧
    n.toSite = tracker.site n.instr ∧ n.cost = estimator.cost n.instr.toInstruction
  estimated : g.Estimated estimator

theorem assembled_of_linkAll (hc : c.Wired)
    (hlink : linkAll c sequence estimator tracker = .ok g) :
    g.Assembled c estimator tracker sequence := by
  obtain ⟨nodes, happend, hlink⟩ := (bind_eq_ok_iff _ _ _).1 hlink
  obtain ⟨bare, horder, nodup, _⟩ :=
    foldlM_appendNode_ok hc (bare_empty c estimator tracker) List.nodup_nil happend
  change nodes.order = sequence at horder
  have hlinked := foldlM_linkNode_ok estimator.onNodes bare.known nodup bare.fresh bare.not_leads
    (Nat.le_refl _) hlink
  refine ⟨⟨hlinked.fresh, hlinked.keeps.order_eq ▸ nodup⟩,
    hlinked.keeps.computation_eq.trans bare.computation_eq, hlinked.keeps.order_eq.trans horder, ?_,
    ?_, bare.estimated.foldlM_linkNode _ hlink⟩
  · intro u v
    rw [hlinked.leads_iff, horder, and_iff_right_of_imp]
    rintro ⟨a, b, _, hb, _⟩
    rw [size_eq_length_order, horder]
    exact (List.getElem?_eq_some_iff.1 hb).choose
  · intro u n hn
    have hkeeps : Keeps (fun n => (n.toSite, n.cost)) nodes g :=
      keeps_foldlM_linkNode (fun _ _ _ _ _ => rfl) _ hlink
    obtain ⟨m, hm, hsame⟩ := hkeeps.exists_node? hn
    obtain ⟨p, hp, rfl⟩ := bare.made u m hm
    obtain ⟨hsite, hcost⟩ := Prod.mk.inj hsame
    obtain rfl : p = n.instr := congrArg Site.instr hsite
    exact ⟨hp, hsite.symm, hcost.symm⟩

namespace Assembled

omit [TimeScale τ] in
theorem facts_eq (assembled : g.Assembled c estimator tracker sequence) (a : Nat) :
    g.facts a = if a ∈ sequence then (c.instruction? a).map fun p =>
      (tracker.site p, estimator.cost p.toInstruction) else none := by
  rw [← assembled.order_eq]
  split
  · next ha =>
    obtain ⟨u, hu⟩ := List.mem_iff_getElem?.1 ha
    obtain ⟨n, hn, rfl⟩ := (getElem?_order_eq_some_iff g u a).1 hu
    obtain ⟨hknown, hsite, hcost⟩ := assembled.known u n hn
    rw [facts_of_node assembled.coherent.nodup hn, hknown]
    exact congrArg some (Prod.ext hsite hcost)
  · next ha =>
    by_contra hsome
    exact ha ((mem_order_iff_facts g a).2 hsome)

theorem precedes_iff (assembled : g.Assembled c estimator tracker sequence) (a b : Nat)
    (latency : τ) : g.Precedes a b latency ↔ a ∈ sequence ∧ b ∈ sequence ∧ c.Needs b a ∧
      latency = c.between tracker estimator.latency a b := by
  have hlatency {u v : Nat} {l : τ} (hu : g.order[u]? = some a) (hv : g.order[v]? = some b)
      (hedge : ⟨v, l⟩ ∈ g.outgoing u) : l = c.between tracker estimator.latency a b := by
    obtain ⟨m, hm, rfl⟩ := (getElem?_order_eq_some_iff g u a).1 hu
    obtain ⟨n, hn, rfl⟩ := (getElem?_order_eq_some_iff g v b).1 hv
    obtain ⟨hknown, hsite, _⟩ := assembled.known u m hm
    obtain ⟨hknown', hsite', _⟩ := assembled.known v n hn
    rw [Computation.between_eq hknown hknown', ← hsite, ← hsite']
    exact assembled.estimated u v l m n hedge hm hn
  constructor
  · rintro ⟨u, v, hu, hv, hedge⟩
    obtain ⟨a', b', hu', hv', hneeds⟩ := (assembled.leads_iff u v).1 (List.mem_map_of_mem hedge)
    rw [← assembled.order_eq] at hu' hv' ⊢
    obtain rfl : a' = a := Option.some.inj (hu'.symm.trans hu)
    obtain rfl : b' = b := Option.some.inj (hv'.symm.trans hv)
    exact ⟨List.mem_of_getElem? hu, List.mem_of_getElem? hv, hneeds, hlatency hu hv hedge⟩
  · rintro ⟨ha, hb, hneeds, rfl⟩
    obtain ⟨u, hu⟩ := List.mem_iff_getElem?.1 ha
    obtain ⟨v, hv⟩ := List.mem_iff_getElem?.1 hb
    obtain ⟨e, he, rfl⟩ := List.mem_map.1 ((assembled.leads_iff u v).2 ⟨a, b, hu, hv, hneeds⟩)
    rw [← assembled.order_eq] at hu hv
    rw [← hlatency hu hv he]
    exact ⟨u, e.target, hu, hv, he⟩

theorem alike {h : Graph τ} {sequence' : List Nat}
    (assembled : g.Assembled c estimator tracker sequence)
    (assembled' : h.Assembled c estimator tracker sequence') (hperm : sequence'.Perm sequence) :
    g.Alike h := by
  constructor
  · intro a
    rw [assembled.facts_eq, assembled'.facts_eq]
    simp only [hperm.mem_iff]
  · intro a b latency
    rw [assembled.precedes_iff, assembled'.precedes_iff]
    simp only [hperm.mem_iff]

end Assembled

end Links

namespace Visit

def countDownChecked (v : Visit τ) (n : NodeIndex) : Option (Visit τ) :=
  match v.remaining[n]? with
  | some (_ + 1) => some (v.countDown n)
  | _ => none

theorem foldlM_countDownChecked {l : List Nat} (nodup : l.Nodup) {v : Visit τ}
    (hleft : ∀ u ∈ l, ∃ k, v.remaining[u]? = some (k + 1)) :
    l.foldlM countDownChecked v = some (l.foldl countDown v) := by
  induction l generalizing v with
  | nil => rfl
  | cons u l ih =>
    obtain ⟨hu, nodup⟩ := List.nodup_cons.1 nodup
    obtain ⟨⟨k, hk⟩, hrest⟩ := List.forall_mem_cons.1 hleft
    have hfirst : v.countDownChecked u = some (v.countDown u) := by
      rw [countDownChecked, hk]
    rw [List.foldlM_cons, hfirst]
    refine ih nodup ?_
    intro w hw
    have hne : w ≠ u := fun h => hu (h ▸ hw)
    rw [remaining_countDown, if_neg hne]
    exact hrest w hw

variable [TimeScale τ]

def stepChecked (v : Visit τ) : Option (Visit τ) :=
  match v.queue with
  | [] => some v
  | n :: rest =>
    match v.graph.node? n with
    | none => some { v with queue := rest }
    | some node =>
      let graph := v.graph.modify n fun m =>
        { m with asyncDepth := v.graph.asyncDepthOf node, depth := v.graph.depthOf node }
      (node.successors.map (·.target)).foldlM countDownChecked { v with graph, queue := rest }

def stepsChecked : Nat → Visit τ → Option (Visit τ)
  | 0, v => some v
  | n + 1, v => v.stepChecked.bind (stepsChecked n)

variable {g : Graph τ} {done : List Nat} {v : Visit τ}

/-- A node that is led to waits at least for the one that leads to it. -/
theorem Visited.stepChecked_eq (visited : Visited g done v) (linked : g.Linked) :
    v.stepChecked = some v.step := by
  cases hqueue : v.queue with
  | nil => simp only [stepChecked, Visit.step, hqueue]
  | cons i rest =>
    obtain ⟨hsize, hnot, _⟩ := visited.head_spec hqueue
    obtain ⟨n, hn⟩ := (lt_size_iff v.graph i).1 (by rwa [visited.keeps.size_eq])
    obtain ⟨old, hold, hsame⟩ := visited.keeps.exists_node? hn
    have hsucc : old.successors = n.successors := (congrArg Node.successors hsame :)
    simp only [stepChecked, Visit.step, hqueue, hn]
    apply foldlM_countDownChecked (hsucc ▸ linked.nodup_successors hold)
    intro u hu
    rw [← hsucc, mem_successors_iff hold] at hu
    obtain ⟨m, hm⟩ := (lt_size_iff g u).1 (linked.lt_size hu).2
    have hwaits : i ∈ (m.predecessors.map (·.target)).filter (· ∉ done) := by
      simpa [hnot] using (linked.mem_predecessors_iff hm i).2 hu
    obtain ⟨k, hk⟩ := Nat.exists_eq_succ_of_ne_zero (List.length_pos_of_mem hwaits).ne'
    exact ⟨k, (visited.remaining_eq u m hm).trans (congrArg some hk)⟩

theorem Visited.stepsChecked_eq (visited : Visited g done v) (linked : g.Linked) (k : Nat) :
    v.stepsChecked k = some (v.steps k) := by
  induction k generalizing done v with
  | zero => rfl
  | succ k ih =>
    rw [stepsChecked, visited.stepChecked_eq linked, Option.bind_some, Visit.steps]
    cases hqueue : v.queue with
    | nil =>
      have hstep : v.step = v := by simp only [Visit.step, hqueue]
      rw [hstep]
      exact ih visited
    | cons i rest => exact ih (visited.step linked hqueue)

end Visit

section Checked

variable [TimeScale τ] {g : Graph τ}

def withDepthsChecked (g : Graph τ) : Option (Graph τ) :=
  ((Visit.start g).stepsChecked g.size).map (·.graph)

def addEdgeChecked (g : Graph τ) (source sink : NodeIndex) (latency : τ) : Option (Graph τ) :=
  if g.hasEdge source sink then some g else (g.pushEdge source sink latency).withDepthsChecked

def demandChecked (g : Graph τ) (d : OrderDemand τ) : Option (Graph τ) :=
  match g.index? d.first, g.index? d.second with
  | some source, some sink => g.addEdgeChecked source sink d.latency
  | _, _ => some g

theorem Linked.withDepthsChecked_eq (linked : g.Linked) :
    g.withDepthsChecked = some g.withDepths := by
  rw [withDepthsChecked, (Visit.visited_start linked).stepsChecked_eq linked]
  rfl

theorem Coherent.addEdgeChecked_eq (coherent : g.Coherent) {source sink : Nat}
    (hsource : source < g.size) (hsink : sink < g.size) (latency : τ) :
    g.addEdgeChecked source sink latency = some (g.addEdge source sink latency).1 := by
  unfold addEdgeChecked addEdge
  split
  · rfl
  · next hnew =>
    rw [hasEdge_iff] at hnew
    exact (coherent.toLinked.pushEdge hsource hsink latency hnew).withDepthsChecked_eq

theorem Coherent.demandChecked_eq (coherent : g.Coherent) (d : OrderDemand τ) :
    g.demandChecked d = some (g.demand d) := by
  unfold demandChecked Graph.demand
  cases hsource : g.index? d.first with
  | none => rfl
  | some source =>
    cases hsink : g.index? d.second with
    | none => rfl
    | some sink =>
      rw [index?_eq_some_iff coherent.nodup] at hsource hsink
      exact coherent.addEdgeChecked_eq (lt_size_of_getElem? hsource) (lt_size_of_getElem? hsink) _

theorem Coherent.foldlM_demandChecked_eq (coherent : g.Coherent) (demands : List (OrderDemand τ)) :
    demands.foldlM demandChecked g = some (demands.foldl Graph.demand g) := by
  induction demands generalizing g with
  | nil => rfl
  | cons d rest ih =>
    rw [List.foldlM_cons, coherent.demandChecked_eq]
    exact ih (coherent.demand d)

end Checked

structure NewEdge (τ : Type) where
  source : NodeIndex
  sink : NodeIndex
  latency : τ

section Later

variable [TimeScale τ] {g : Graph τ}

def addEdges (g : Graph τ) (edges : List (NewEdge τ)) : Graph τ :=
  edges.foldl (fun g e => (g.addEdge e.source e.sink e.latency).1) g

def addEdgesChecked (g : Graph τ) (edges : List (NewEdge τ)) : Option (Graph τ) :=
  edges.foldlM (fun g e => g.addEdgeChecked e.source e.sink e.latency) g

def demandOf (g : Graph τ) (e : NewEdge τ) : OrderDemand τ where
  first := g.idAt e.source
  second := g.idAt e.sink
  latency := e.latency

theorem addEdge_eq_demand (nodup : g.order.Nodup) {e : NewEdge τ} (hsource : e.source < g.size)
    (hsink : e.sink < g.size) :
    (g.addEdge e.source e.sink e.latency).1 = g.demand (g.demandOf e) := by
  have hindex {u : Nat} (hu : u < g.size) : g.index? (g.idAt u) = some u :=
    (index?_eq_some_iff nodup _ u).2 (getElem?_order g hu)
  simp only [demand, demandOf, hindex hsource, hindex hsink]

theorem Coherent.addEdges_eq (coherent : g.Coherent) {edges : List (NewEdge τ)}
    (hsize : ∀ e ∈ edges, e.source < g.size ∧ e.sink < g.size) :
    g.addEdges edges = (edges.map g.demandOf).foldl Graph.demand g ∧
      g.addEdgesChecked edges = some (g.addEdges edges) := by
  induction edges generalizing g with
  | nil => exact ⟨rfl, rfl⟩
  | cons e rest ih =>
    obtain ⟨⟨hsource, hsink⟩, hrest⟩ := List.forall_mem_cons.1 hsize
    have hkeeps := keeps_toSite_addEdge g e.source e.sink e.latency
    have hdemand := addEdge_eq_demand coherent.nodup hsource hsink
    obtain ⟨hadd, hchecked⟩ := ih (hdemand ▸ coherent.demand (g.demandOf e))
      (by rwa [hkeeps.size_eq])
    have hdemands : Graph.demandOf (g.addEdge e.source e.sink e.latency).1 = g.demandOf := by
      funext e'
      rw [demandOf, hkeeps.idAt_eq, demandOf]
    constructor
    · rw [List.map_cons, List.foldl_cons, ← hdemand, ← hdemands]
      exact hadd
    · rw [addEdgesChecked, List.foldlM_cons, coherent.addEdgeChecked_eq hsource hsink]
      exact hchecked

end Later

section AtOnce

variable [TimeScale τ]

def buildAtOnce (c : Computation) (sequence : List InstrId) (estimator : Estimator τ)
    (tracker : AsyncTracker τ) (demands : List (OrderDemand τ)) : Except Fault (Graph τ) := do
  let g ← linkAll c sequence estimator tracker
  return (demands.foldl join g).withDepths

def buildChecked (c : Computation) (sequence : List InstrId) (estimator : Estimator τ)
    (tracker : AsyncTracker τ) : Except Fault (Option (Graph τ)) := do
  let g ← linkAll c sequence estimator tracker
  return do
    let g ← g.withDepthsChecked
    let g ← (tracker.demands g.computation).foldlM demandChecked g
    return { g with nodes := g.nodes.map fun n =>
      if tracker.delays g.computation n.instr then setForceDelay true n else n }

variable {c : Computation} {sequence : List Nat} {estimator : Estimator τ}
  {tracker : AsyncTracker τ} {linked : Graph τ}

theorem buildChecked_eq (hc : c.Wired) (hlink : linkAll c sequence estimator tracker = .ok linked) :
    buildChecked c sequence estimator tracker = .ok (some (linked.withDepths.adjust tracker)) := by
  have coherent := (assembled_of_linkAll hc hlink).coherent
  rw [buildChecked, hlink]
  simp only [bind, Except.bind, pure, Except.pure, coherent.toLinked.withDepthsChecked_eq,
    Option.bind_some, coherent.withDepths.foldlM_demandChecked_eq]
  rfl

/-- A graph that is built has the edges of all demands, and depths that solve their recurrences. -/
theorem adjust_withDepths_spec (hc : c.Wired)
    (hlink : linkAll c sequence estimator tracker = .ok linked) {h : Graph τ}
    (coherent' : h.Coherent) (alike : linked.Alike h) :
    (linked.withDepths.adjust tracker).Solved ∧ (linked.withDepths.adjust tracker).Coherent ∧
      ((tracker.demands c).foldl join h).Coherent ∧
      (linked.withDepths.adjust tracker).Alike ((tracker.demands c).foldl join h) := by
  have assembled := assembled_of_linkAll hc hlink
  have coherent := assembled.coherent.withDepths
  have hdeep : Keeps Node.toSite linked linked.withDepths := keeps_withDepths (fun _ _ _ => rfl) _
  have hcomputation : linked.withDepths.computation = c :=
    hdeep.computation_eq.trans assembled.computation_eq
  rw [← hcomputation]
  obtain ⟨solved, _, hjoined, halike⟩ :=
    foldl_demand_spec assembled.coherent.toLinked.solved_withDepths coherent coherent'
      ((alike_withDepths linked).symm.trans alike) (tracker.demands linked.withDepths.computation)
  -- the delays touch neither edges nor depths
  have hdelayed {β : Type} {view : Node τ → β}
      (hview : ∀ n value, view (setForceDelay value n) = view n) :=
    keeps_delays hview linked.withDepths tracker
  obtain ⟨hfresh, hsite, _⟩ := adjust_spec tracker coherent.toFresh coherent.nodup
  exact ⟨solved.keeps (hdelayed fun _ _ => rfl) (hdelayed fun _ _ => rfl),
    coherent.keeps hfresh hsite, hjoined,
    ((hdelayed fun _ _ => rfl).alike (hdelayed fun _ _ => rfl)).symm.trans halike⟩

variable [Ordered τ]

theorem Solved.isLatest {g : Graph τ} (solved : g.Solved) {u : Nat} {n : Node τ}
    (hn : g.node? u = some n) (hcycle : ¬ ReachesCycle g.Awaits u) :
    IsLatest {t | ∃ e ∈ n.predecessors, ∃ p, g.node? e.target = some p ∧
      t = p.depth + p.cost + e.latency} n.depth ∧
    IsLatest {t | ∃ e ∈ n.predecessors, ∃ p, g.node? e.target = some p ∧
      t = p.asyncDepth + if p.isAsyncPair n.toSite then e.latency else zero} n.asyncDepth := by
  have hset (value : Node τ → τ → τ) :
      {t | t ∈ n.predecessors.filterMap fun e =>
        (g.node? e.target).map fun p => value p e.latency} =
      {t | ∃ e ∈ n.predecessors, ∃ p, g.node? e.target = some p ∧ t = value p e.latency} := by
    ext t
    simp [eq_comm]
  rw [(solved u hcycle n hn).1, (solved u hcycle n hn).2]
  constructor
  · rw [← hset fun p latency => p.depth + p.cost + latency]
    exact isLatest_latest _
  · rw [← hset fun p latency => p.asyncDepth + if p.isAsyncPair n.toSite then latency else zero]
    exact isLatest_latest _

/-- After any edges are added to a graph that was built, the recurrences of the longest paths hold
at every node that no cycle leads to. They give an instruction the depths that it would have if all
edges had been there before the first visit, in whatever order the graph was made. Every count of
predecessors on the way stays at zero or above it. -/
theorem depths_after_edges (built : c.Built) {g : Graph τ}
    (hbuild : build c sequence estimator tracker = .ok g) (edges : List (NewEdge τ))
    (hsize : ∀ e ∈ edges, e.source < g.size ∧ e.sink < g.size) :
    (∀ (u : Nat) (n : Node τ), (g.addEdges edges).node? u = some n →
      ¬ ReachesCycle (g.addEdges edges).Awaits u →
      IsLatest {t | ∃ e ∈ n.predecessors, ∃ p, (g.addEdges edges).node? e.target = some p ∧
        t = p.depth + p.cost + e.latency} n.depth ∧
      IsLatest {t | ∃ e ∈ n.predecessors, ∃ p, (g.addEdges edges).node? e.target = some p ∧
        t = p.asyncDepth + if p.isAsyncPair n.toSite then e.latency else zero} n.asyncDepth) ∧
    (∀ sequence' : List Nat, sequence'.Perm sequence → ∃ h,
      buildAtOnce c sequence' estimator tracker
        (tracker.demands c ++ edges.map g.demandOf) = .ok h ∧ h.order = sequence' ∧
      ∀ (u v : Nat) (n m : Node τ), (g.addEdges edges).node? u = some n → h.node? v = some m →
        n.instr.id = m.instr.id → ¬ ReachesCycle (g.addEdges edges).Awaits u →
        n.asyncDepth = m.asyncDepth ∧ n.depth = m.depth) ∧
    buildChecked c sequence estimator tracker = .ok (some g) ∧
    g.addEdgesChecked edges = some (g.addEdges edges) := by
  obtain ⟨linked, hlink, rfl⟩ := (build_eq_ok_iff_linkAll g).1 hbuild
  have hc := built.wired
  have assembled := assembled_of_linkAll hc hlink
  obtain ⟨solved, coherent, _⟩ :=
    adjust_withDepths_spec hc hlink assembled.coherent (Alike.refl linked)
  obtain ⟨hadd, hchecked⟩ := coherent.addEdges_eq hsize
  refine ⟨?_, ?_, buildChecked_eq hc hlink, hchecked⟩
  · have hsolved := (foldl_demand_spec solved coherent coherent (Alike.refl _)
      (edges.map (linked.withDepths.adjust tracker).demandOf)).1
    rw [← hadd] at hsolved
    intro u n hn hcycle
    exact hsolved.isLatest hn hcycle
  · intro sequence' hperm
    obtain ⟨linked', hlink'⟩ :=
      exists_linkAll hc ((build_ok hc hbuild).1.perm hperm) estimator tracker
    have assembled' := assembled_of_linkAll hc hlink'
    obtain ⟨_, _, hjoined, halike⟩ :=
      adjust_withDepths_spec hc hlink assembled'.coherent (assembled.alike assembled' hperm)
    obtain ⟨solved, coherent, hjoined, halike⟩ := foldl_demand_spec solved coherent hjoined halike
      (edges.map (linked.withDepths.adjust tracker).demandOf)
    rw [← hadd] at solved coherent halike
    rw [← List.foldl_append] at hjoined halike
    refine ⟨_, by rw [buildAtOnce, hlink']; rfl, ?_, ?_⟩
    · have hjoin (k : Graph τ) (d : OrderDemand τ) : Keeps Node.toSite k (k.join d) :=
        keeps_join (fun _ _ _ _ _ => rfl) k d
      have hsite := (Keeps.foldl hjoin (tracker.demands c ++
        edges.map (linked.withDepths.adjust tracker).demandOf) linked').trans
          (keeps_withDepths (fun _ _ _ => rfl) _)
      exact hsite.order_eq.trans assembled'.order_eq
    · intro u v n m hn hm hid hcycle
      exact (halike.trans (alike_withDepths _)).depths_eq coherent.toLinked
        hjoined.withDepths.toLinked coherent.nodup hjoined.withDepths.nodup solved
        hjoined.toLinked.solved_withDepths hn hm hid hcycle

def pairAndNegation : Computation :=
  [{ name := "p", opcode := .parameter, shape := .array 4 },
    { name := "s", opcode := .allReduceStart, shape := .array 4, operands := [0] },
    { name := "d", opcode := .allReduceDone, shape := .array 4, operands := [1] },
    { name := "n", opcode := .negate, shape := .array 4, operands := [0] }].foldl
    Computation.grown { name := "c" }

theorem depths_after_edges_pairAndNegation : pairAndNegation.Built ∧ ∃ g h : Graph Rat,
    build pairAndNegation [2, 1, 0, 3] Estimator.approximate (AsyncTracker.generic {}) = .ok g ∧
    buildAtOnce pairAndNegation [0, 1, 2, 3] Estimator.approximate (AsyncTracker.generic {})
      ([⟨0, 3, 7⟩].map g.demandOf) = .ok h ∧
    ∃ n m, (g.addEdges [⟨0, 3, 7⟩]).node? 3 = some n ∧ h.node? 3 = some m ∧
      n.instr.id = 3 ∧ m.instr.id = 3 ∧ n.depth = 5011 ∧ m.depth = 5011 := by
  have built : pairAndNegation.Built := Computation.built_foldl_grown (.empty "c" false) _ rfl
  let later : List (NewEdge Rat) := [⟨0, 3, 7⟩]
  -- places of the nodes in the order of the paths
  let rank (u : Nat) : Nat := [2, 1, 0, 3].getD u 0
  have hvalue : (build pairAndNegation [2, 1, 0, 3] (Estimator.approximate : Estimator Rat)
      (AsyncTracker.generic {})).toOption.map (fun g =>
        (g.size, (g.addEdges later).size,
          ((g.addEdges later).node? 3).map fun n => (n.instr.id, n.depth),
          decide (∀ u < 4, ∀ v ∈ ((g.addEdges later).outgoing u).map (·.target),
            rank u < rank v))) =
      some (4, 4, some (3, 5011), true) := by decide +kernel
  cases hbuild : build pairAndNegation [2, 1, 0, 3] (Estimator.approximate : Estimator Rat)
      (AsyncTracker.generic {}) with
  | error fault =>
    rw [hbuild] at hvalue
    cases hvalue
  | ok g =>
    rw [hbuild] at hvalue
    simp only [Except.toOption, Option.map_some, Option.some.injEq, Prod.mk.injEq,
      decide_eq_true_eq] at hvalue
    obtain ⟨hsize, hfinal, hnode, hrank⟩ := hvalue
    obtain ⟨n, hn, hpair⟩ := Option.map_eq_some_iff.1 hnode
    obtain ⟨hid, hdepth⟩ := Prod.mk.inj hpair
    have hcycle : ¬ ReachesCycle (g.addEdges later).Awaits 3 := by
      refine not_reachesCycle_of_lt rank ?_ 3
      intro v u hlead
      obtain ⟨e, he, _⟩ := List.mem_map.1 hlead
      exact hrank u (hfinal ▸ lt_size_of_mem_outgoing he) v hlead
    obtain ⟨_, hatOnce, _⟩ := depths_after_edges built hbuild later (by simp [later, hsize])
    obtain ⟨h, hh, horder, hsame⟩ := hatOnce [0, 1, 2, 3] (by decide)
    obtain ⟨m, hm, hid'⟩ := (getElem?_order_eq_some_iff h 3 3).1 (by rw [horder]; rfl)
    have hdepths := hsame 3 3 n m hn hm (hid.trans hid'.symm) hcycle
    exact ⟨built, g, h, rfl, hh, n, m, hn, hm, hid, hid', hdepth, hdepths.2 ▸ hdepth⟩

end AtOnce

end LatencyHiding.Graph
