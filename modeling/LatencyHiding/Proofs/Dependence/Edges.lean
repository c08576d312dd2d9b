import LatencyHiding.Dependence.Depth
import Mathlib.Data.List.Nodup

set_option autoImplicit false

namespace LatencyHiding.Graph

variable {τ β : Type}

theorem node?_modify (g : Graph τ) (i : Nat) (f : Node τ → Node τ) (u : Nat) :
    (g.modify i f).node? u = if i = u then (g.node? u).map f else g.node? u := by
  unfold node? modify
  rw [List.getElem?_modify]
  split <;> simp

theorem map_node?_modify (view : Node τ → β) (f : Node τ → Node τ) (F : β → β)
    (hf : ∀ n, view (f n) = F (view n)) (g : Graph τ) (i u : Nat) :
    ((g.modify i f).node? u).map view =
      if u = i then ((g.node? u).map view).map F else (g.node? u).map view := by
  rw [node?_modify]
  by_cases hu : u = i
  · rw [if_pos hu, if_pos hu.symm, Option.map_map, Option.map_map]
    congr 1
    funext n
    exact hf n
  · rw [if_neg hu, if_neg (Ne.symm hu)]

theorem lt_size_iff (g : Graph τ) (u : Nat) : u < g.size ↔ ∃ n, g.node? u = some n := by
  constructor
  · intro h
    exact ⟨_, List.getElem?_eq_getElem h⟩
  · rintro ⟨n, hn⟩
    exact (List.getElem?_eq_some_iff.1 hn).choose

structure Keeps (view : Node τ → β) (g h : Graph τ) : Prop where
  computation_eq : h.computation = g.computation
  views_eq : h.nodes.map view = g.nodes.map view

namespace Keeps

variable {view : Node τ → β} {g h k : Graph τ}

theorem refl (view : Node τ → β) (g : Graph τ) : Keeps view g g := ⟨rfl, rfl⟩

theorem trans (hgh : Keeps view g h) (hhk : Keeps view h k) : Keeps view g k :=
  ⟨hhk.computation_eq.trans hgh.computation_eq, hhk.views_eq.trans hgh.views_eq⟩

theorem size_eq (hgh : Keeps view g h) : h.size = g.size := by
  have := congrArg List.length hgh.views_eq
  rwa [List.length_map, List.length_map] at this

theorem node?_eq (hgh : Keeps view g h) (u : Nat) :
    (h.node? u).map view = (g.node? u).map view := by
  have hviews : (h.nodes.map view)[u]? = (g.nodes.map view)[u]? := by rw [hgh.views_eq]
  rw [List.getElem?_map, List.getElem?_map] at hviews
  exact hviews

theorem exists_node? (hgh : Keeps view g h) {u : Nat} {n : Node τ} (hn : h.node? u = some n) :
    ∃ m, g.node? u = some m ∧ view m = view n := by
  have hviews := hgh.node?_eq u
  rw [hn, Option.map_some, eq_comm, Option.map_eq_some_iff] at hviews
  exact hviews

theorem modify (g : Graph τ) (i : Nat) (f : Node τ → Node τ) (hf : ∀ n, view (f n) = view n) :
    Keeps view g (g.modify i f) := by
  refine ⟨rfl, List.ext_getElem? ?_⟩
  intro u
  rw [List.getElem?_map, List.getElem?_map]
  change ((g.modify i f).node? u).map view = (g.node? u).map view
  rw [map_node?_modify view f id hf, Option.map_id, id_eq, ite_self]

theorem foldl {α : Type} {step : Graph τ → α → Graph τ} (hstep : ∀ g a, Keeps view g (step g a))
    (l : List α) (g : Graph τ) : Keeps view g (l.foldl step g) := by
  induction l generalizing g with
  | nil => exact refl view g
  | cons a l ih => exact (hstep g a).trans (ih (step g a))

theorem forall_nodes {P : Node τ → Prop} (hgh : Keeps P g h) (hP : ∀ n ∈ g.nodes, P n) :
    ∀ n ∈ h.nodes, P n := by
  have hall : ∀ p ∈ g.nodes.map P, p := List.forall_mem_map.2 hP
  rw [← hgh.views_eq] at hall
  intro n hn
  exact hall (P n) (List.mem_map_of_mem hn)

theorem map {γ : Type} {base : Node τ → γ} (hgh : Keeps base g h) (view : Node τ → β)
    (hview : ∀ m n, base m = base n → view m = view n) : Keeps view g h := by
  refine ⟨hgh.computation_eq, List.ext_getElem? ?_⟩
  intro u
  rw [List.getElem?_map, List.getElem?_map]
  have hbase := hgh.node?_eq u
  unfold node? at hbase
  cases hu : h.nodes[u]? with
  | none =>
    rw [hu, Option.map_none] at hbase
    rw [Option.map_eq_none_iff.1 hbase.symm]
  | some n =>
    rw [hu] at hbase
    obtain ⟨m, hm, hsame⟩ := Option.map_eq_some_iff.1 hbase.symm
    rw [hm, Option.map_some, Option.map_some, hview m n hsame]

theorem order_eq (hgh : Keeps Node.toSite g h) : h.order = g.order := by
  have := congrArg (List.map fun site : Site => site.instr.id) hgh.views_eq
  rwa [List.map_map, List.map_map] at this

end Keeps

def outgoing (g : Graph τ) (u : Nat) : List (Edge τ) :=
  ((g.node? u).map (·.successors)).getD []

def incoming (g : Graph τ) (u : Nat) : List (Edge τ) :=
  ((g.node? u).map (·.predecessors)).getD []

def Leads (g : Graph τ) (u v : Nat) : Prop := v ∈ (g.outgoing u).map (·.target)

instance (g : Graph τ) (u v : Nat) : Decidable (g.Leads u v) :=
  inferInstanceAs (Decidable (v ∈ _))

theorem outgoing_eq {g : Graph τ} {u : Nat} {n : Node τ} (h : g.node? u = some n) :
    g.outgoing u = n.successors := by
  rw [outgoing, h, Option.map_some, Option.getD_some]

theorem incoming_eq {g : Graph τ} {u : Nat} {n : Node τ} (h : g.node? u = some n) :
    g.incoming u = n.predecessors := by
  rw [incoming, h, Option.map_some, Option.getD_some]

theorem lt_size_of_mem_outgoing {g : Graph τ} {u : Nat} {e : Edge τ} (h : e ∈ g.outgoing u) :
    u < g.size := by
  rw [lt_size_iff]
  cases hu : g.node? u with
  | none =>
    rw [outgoing, hu] at h
    cases h
  | some n => exact ⟨n, rfl⟩

theorem lt_size_of_mem_incoming {g : Graph τ} {u : Nat} {e : Edge τ} (h : e ∈ g.incoming u) :
    u < g.size := by
  rw [lt_size_iff]
  cases hu : g.node? u with
  | none =>
    rw [incoming, hu] at h
    cases h
  | some n => exact ⟨n, rfl⟩

theorem Keeps.outgoing_eq {g h : Graph τ} (hgh : Keeps Node.successors g h)
    (u : Nat) : h.outgoing u = g.outgoing u := by
  unfold outgoing
  rw [hgh.node?_eq u]

theorem Keeps.incoming_eq {g h : Graph τ} (hgh : Keeps Node.predecessors g h)
    (u : Nat) : h.incoming u = g.incoming u := by
  unfold incoming
  rw [hgh.node?_eq u]

theorem Keeps.leads_iff {g h : Graph τ} (hgh : Keeps Node.successors g h)
    (u v : Nat) : h.Leads u v ↔ g.Leads u v := by
  unfold Leads
  rw [hgh.outgoing_eq u]

theorem mem_successors_iff {g : Graph τ} {u : Nat} {n : Node τ} (hn : g.node? u = some n)
    (v : Nat) : v ∈ n.successors.map (·.target) ↔ g.Leads u v := by
  rw [Leads, outgoing_eq hn]

theorem leads_of_mem_successors {g : Graph τ} {u : Nat} {n : Node τ} (hn : g.node? u = some n)
    {e : Edge τ} (he : e ∈ n.successors) : g.Leads u e.target :=
  (mem_successors_iff hn e.target).1 (List.mem_map_of_mem he)

theorem hasEdge_iff (g : Graph τ) (u v : Nat) : g.hasEdge u v = true ↔ g.Leads u v := by
  unfold hasEdge Leads outgoing
  cases g.node? u <;> simp

structure Linked (g : Graph τ) : Prop where
  mirrored : ∀ u v latency, ⟨v, latency⟩ ∈ g.outgoing u ↔ ⟨u, latency⟩ ∈ g.incoming v
  outgoing_nodup : ∀ u, ((g.outgoing u).map (·.target)).Nodup
  incoming_nodup : ∀ u, ((g.incoming u).map (·.target)).Nodup

namespace Linked

variable {g h : Graph τ}

theorem leads_iff (linked : g.Linked) (u v : Nat) :
    g.Leads u v ↔ u ∈ (g.incoming v).map (·.target) := by
  unfold Leads
  rw [List.mem_map, List.mem_map]
  constructor
  · rintro ⟨e, he, rfl⟩
    exact ⟨⟨u, e.latency⟩, (linked.mirrored u e.target e.latency).1 he, rfl⟩
  · rintro ⟨e, he, rfl⟩
    exact ⟨⟨v, e.latency⟩, (linked.mirrored e.target v e.latency).2 he, rfl⟩

theorem mem_predecessors_iff (linked : g.Linked) {v : Nat} {n : Node τ} (hn : g.node? v = some n)
    (u : Nat) : u ∈ n.predecessors.map (·.target) ↔ g.Leads u v := by
  rw [linked.leads_iff, incoming_eq hn]

theorem nodup_predecessors (linked : g.Linked) {v : Nat} {n : Node τ} (hn : g.node? v = some n) :
    (n.predecessors.map (·.target)).Nodup := by
  rw [← incoming_eq hn]
  exact linked.incoming_nodup v

theorem nodup_successors (linked : g.Linked) {u : Nat} {n : Node τ} (hn : g.node? u = some n) :
    (n.successors.map (·.target)).Nodup := by
  rw [← outgoing_eq hn]
  exact linked.outgoing_nodup u

theorem lt_size (linked : g.Linked) {u v : Nat} (huv : g.Leads u v) : u < g.size ∧ v < g.size := by
  constructor
  · obtain ⟨e, he, _⟩ := List.mem_map.1 huv
    exact lt_size_of_mem_outgoing he
  · obtain ⟨e, he, _⟩ := List.mem_map.1 ((linked.leads_iff u v).1 huv)
    exact lt_size_of_mem_incoming he

theorem keeps (linked : g.Linked) (hsucc : Keeps Node.successors g h)
    (hpred : Keeps Node.predecessors g h) : h.Linked where
  mirrored u v latency := by
    rw [hsucc.outgoing_eq, hpred.incoming_eq]
    exact linked.mirrored u v latency
  outgoing_nodup u := by
    rw [hsucc.outgoing_eq]
    exact linked.outgoing_nodup u
  incoming_nodup u := by
    rw [hpred.incoming_eq]
    exact linked.incoming_nodup u

end Linked

/-- Linked, with nothing placed: the degrees of a node count its edges. -/
structure Fresh (g : Graph τ) : Prop extends Linked g where
  nodes_fresh : ∀ n ∈ g.nodes, n.outdegree = n.successors.length ∧
    n.indegree = n.predecessors.length ∧ n.scheduled = false

theorem forall_nodes_modify {g : Graph τ} {P : Node τ → Prop} {f : Node τ → Node τ}
    (h : ∀ n ∈ g.nodes, P n) (hf : ∀ n, P n → P (f n)) (i : Nat) :
    ∀ n ∈ (g.modify i f).nodes, P n := by
  intro n hn
  obtain ⟨u, hu⟩ := List.mem_iff_getElem?.1 hn
  change (g.modify i f).node? u = some n at hu
  rw [node?_modify] at hu
  split at hu
  · obtain ⟨m, hm, rfl⟩ := Option.map_eq_some_iff.1 hu
    exact hf m (h m (List.mem_of_getElem? hm))
  · exact h n (List.mem_of_getElem? hu)

section PushEdge

variable {g : Graph τ} {source sink : Nat}

def withSuccessor (e : Edge τ) (n : Node τ) : Node τ :=
  { n with successors := n.successors ++ [e], outdegree := n.outdegree + 1 }

def withPredecessor (e : Edge τ) (n : Node τ) : Node τ :=
  { n with predecessors := n.predecessors ++ [e], indegree := n.indegree + 1 }

theorem pushEdge_eq (g : Graph τ) (source sink : Nat) (latency : τ) :
    g.pushEdge source sink latency = (g.modify source (withSuccessor ⟨sink, latency⟩)).modify sink
      (withPredecessor ⟨source, latency⟩) := rfl

theorem keeps_toSite_pushEdge (g : Graph τ) (source sink : Nat) (latency : τ) :
    Keeps Node.toSite g (g.pushEdge source sink latency) := by
  rw [pushEdge_eq]
  exact (Keeps.modify g source (withSuccessor _) fun _ => rfl).trans
    (Keeps.modify _ sink (withPredecessor _) fun _ => rfl)

theorem outgoing_pushEdge (hsource : source < g.size) (sink : Nat) (latency : τ) (u : Nat) :
    (g.pushEdge source sink latency).outgoing u =
      if source = u then g.outgoing u ++ [⟨sink, latency⟩] else g.outgoing u := by
  rw [pushEdge_eq, (Keeps.modify _ sink (withPredecessor _) fun _ => rfl).outgoing_eq u]
  unfold outgoing
  rw [node?_modify]
  split
  · next hu =>
    subst hu
    obtain ⟨n, hn⟩ := (lt_size_iff g source).1 hsource
    rw [hn]
    rfl
  · rfl

theorem incoming_pushEdge (source : Nat) (hsink : sink < g.size) (latency : τ) (v : Nat) :
    (g.pushEdge source sink latency).incoming v =
      if sink = v then g.incoming v ++ [⟨source, latency⟩] else g.incoming v := by
  have hkept : Keeps Node.predecessors g (g.modify source (withSuccessor ⟨sink, latency⟩)) :=
    Keeps.modify g source (withSuccessor _) fun _ => rfl
  rw [pushEdge_eq, ← hkept.incoming_eq v]
  unfold incoming
  rw [node?_modify]
  split
  · next hv =>
    subst hv
    rw [← hkept.size_eq] at hsink
    obtain ⟨n, hn⟩ := (lt_size_iff _ sink).1 hsink
    rw [hn]
    rfl
  · rfl

theorem leads_pushEdge_iff (hsource : source < g.size) (sink : Nat) (latency : τ) (u v : Nat) :
    (g.pushEdge source sink latency).Leads u v ↔ g.Leads u v ∨ (u = source ∧ v = sink) := by
  unfold Leads
  rw [outgoing_pushEdge hsource]
  split
  · next hu => simp [hu]
  · next hu => simp [Ne.symm hu]

theorem Linked.pushEdge (linked : g.Linked) (hsource : source < g.size) (hsink : sink < g.size)
    (latency : τ) (hnew : ¬ g.Leads source sink) : (g.pushEdge source sink latency).Linked where
  mirrored u v l := by
    have hold := linked.mirrored u v l
    rw [outgoing_pushEdge hsource, incoming_pushEdge source hsink]
    by_cases hu : source = u <;> by_cases hv : sink = v <;> grind
  outgoing_nodup u := by
    rw [outgoing_pushEdge hsource]
    split
    · next hu =>
      subst hu
      rw [List.map_append]
      exact (linked.outgoing_nodup source).append (List.nodup_singleton sink)
        (List.disjoint_singleton.2 hnew)
    · exact linked.outgoing_nodup u
  incoming_nodup v := by
    rw [incoming_pushEdge source hsink]
    split
    · next hv =>
      subst hv
      rw [List.map_append]
      rw [linked.leads_iff] at hnew
      exact (linked.incoming_nodup sink).append (List.nodup_singleton source)
        (List.disjoint_singleton.2 hnew)
    · exact linked.incoming_nodup v

theorem Fresh.pushEdge (fresh : g.Fresh) (hsource : source < g.size) (hsink : sink < g.size)
    (latency : τ) (hnew : ¬ g.Leads source sink) : (g.pushEdge source sink latency).Fresh where
  toLinked := fresh.toLinked.pushEdge hsource hsink latency hnew
  nodes_fresh := by
    rw [pushEdge_eq]
    apply forall_nodes_modify
    · apply forall_nodes_modify fresh.nodes_fresh
      rintro n ⟨hout, hin, hplaced⟩
      refine ⟨?_, hin, hplaced⟩
      rw [withSuccessor, hout, List.length_append, List.length_singleton]
    · rintro n ⟨hout, hin, hplaced⟩
      refine ⟨hout, ?_, hplaced⟩
      rw [withPredecessor, hin, List.length_append, List.length_singleton]

end PushEdge

section Depth

theorem Visit.graph_foldl_countDown (l : List Nat) (v : Visit τ) :
    (l.foldl countDown v).graph = v.graph := by
  induction l generalizing v with
  | nil => rfl
  | cons n l ih => exact ih (v.countDown n)

variable [TimeScale τ] {view : Node τ → β}

theorem Visit.keeps_step (hview : ∀ n a d, view { n with asyncDepth := a, depth := d } = view n)
    (v : Visit τ) : Keeps view v.graph v.step.graph := by
  unfold step
  split
  · exact Keeps.refl view _
  · split
    · exact Keeps.refl view _
    · rw [graph_foldl_countDown]
      exact Keeps.modify _ _ _ fun n => hview n _ _

theorem Visit.keeps_steps (hview : ∀ n a d, view { n with asyncDepth := a, depth := d } = view n)
    (k : Nat) (v : Visit τ) : Keeps view v.graph (v.steps k).graph := by
  induction k generalizing v with
  | zero => exact Keeps.refl view _
  | succ k ih => exact (keeps_step hview v).trans (ih v.step)

theorem keeps_withDepths (hview : ∀ n a d, view { n with asyncDepth := a, depth := d } = view n)
    (g : Graph τ) : Keeps view g g.withDepths :=
  Visit.keeps_steps hview g.size (.start g)

theorem Fresh.withDepths {g : Graph τ} (fresh : g.Fresh) : g.withDepths.Fresh where
  toLinked := fresh.toLinked.keeps (keeps_withDepths (fun _ _ _ => rfl) g)
    (keeps_withDepths (fun _ _ _ => rfl) g)
  nodes_fresh := (keeps_withDepths (fun _ _ _ => rfl) g).forall_nodes fresh.nodes_fresh

theorem keeps_toSite_addEdge (g : Graph τ) (source sink : Nat) (latency : τ) :
    Keeps Node.toSite g (g.addEdge source sink latency).1 := by
  unfold addEdge
  split
  · exact Keeps.refl _ g
  · exact (keeps_toSite_pushEdge g source sink latency).trans
      (keeps_withDepths (fun _ _ _ => rfl) _)

theorem Fresh.addEdge {g : Graph τ} {source sink : Nat} (fresh : g.Fresh)
    (hsource : source < g.size) (hsink : sink < g.size) (latency : τ) :
    (g.addEdge source sink latency).1.Fresh := by
  unfold Graph.addEdge
  split
  · exact fresh
  · next hnew =>
    rw [hasEdge_iff] at hnew
    exact (fresh.pushEdge hsource hsink latency hnew).withDepths

theorem leads_addEdge_iff {g : Graph τ} {source : Nat} (hsource : source < g.size) (sink : Nat)
    (latency : τ) (u v : Nat) : (g.addEdge source sink latency).1.Leads u v ↔
      g.Leads u v ∨ (u = source ∧ v = sink) := by
  unfold addEdge
  split
  · next hold =>
    rw [hasEdge_iff] at hold
    refine ⟨Or.inl, ?_⟩
    rintro (huv | ⟨rfl, rfl⟩)
    · exact huv
    · exact hold
  · rw [(keeps_withDepths (fun _ _ _ => rfl) _).leads_iff, leads_pushEdge_iff hsource]

end Depth

end LatencyHiding.Graph
