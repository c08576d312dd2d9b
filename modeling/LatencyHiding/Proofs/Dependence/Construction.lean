import LatencyHiding.Dependence.Build
import LatencyHiding.Proofs.Dependence.Edges
import LatencyHiding.Proofs.Program.Precedence
import LatencyHiding.Proofs.Traversal

set_option autoImplicit false

namespace LatencyHiding

/-- What a dependence graph can be made of. -/
structure Computation.Admits (c : Computation) (sequence : List Nat) : Prop where
  known : ∀ id ∈ sequence, id < c.size
  nodup : sequence.Nodup
  closed : ∀ id ∈ sequence, ∀ input, c.Needs id input → input ∈ sequence

theorem Computation.IsOrder.admits {c : Computation} {sequence : List Nat}
    (horder : c.IsOrder sequence) (hc : c.Wired) : c.Admits sequence where
  known id hid := (horder.mem_iff id).1 hid
  nodup := horder.nodup
  closed id hid input hneeds :=
    (horder.mem_iff input).2 (Nat.lt_trans (hneeds.lt hc) ((horder.mem_iff id).1 hid))

theorem Computation.Admits.perm {c : Computation} {sequence sequence' : List Nat}
    (admits : c.Admits sequence) (hperm : sequence'.Perm sequence) : c.Admits sequence' where
  known id hid := admits.known id (hperm.mem_iff.1 hid)
  nodup := hperm.nodup_iff.2 admits.nodup
  closed id hid input hneeds :=
    hperm.mem_iff.2 (admits.closed id (hperm.mem_iff.1 hid) input hneeds)

/-- Instruction `a` has to come before `b`, as its dependency or on demand. -/
def AsyncTracker.Orders {τ : Type} (tracker : AsyncTracker τ) (c : Computation) (a b : Nat) :
    Prop :=
  c.Needs b a ∨ ∃ d ∈ tracker.demands c, d.first = a ∧ d.second = b

namespace Graph

variable {τ : Type}

section Index

variable {g : Graph τ}

theorem index?_eq (g : Graph τ) (id : Nat) : g.index? id = g.order.findIdx? (· == id) := by
  unfold index? order
  rw [List.findIdx?_map]
  rfl

theorem index?_eq_some_iff (nodup : g.order.Nodup) (id u : Nat) :
    g.index? id = some u ↔ g.order[u]? = some id := by
  rw [index?_eq, List.findIdx?_eq_some_iff_getElem, List.getElem?_eq_some_iff]
  constructor
  · rintro ⟨hu, hid, _⟩
    exact ⟨hu, by simpa using hid⟩
  · rintro ⟨hu, hid⟩
    refine ⟨hu, by simpa using hid, ?_⟩
    intro j hj hsame
    have : g.order[j] = g.order[u] := by rw [hid]; simpa using hsame
    exact Nat.ne_of_lt hj (nodup.getElem_inj_iff.1 this)

theorem index?_eq_none_iff (g : Graph τ) (id : Nat) : g.index? id = none ↔ id ∉ g.order := by
  rw [index?_eq, List.findIdx?_eq_none_iff]
  constructor
  · intro h hid
    simpa using h id hid
  · intro h x hx
    exact beq_false_of_ne fun hxid => h (hxid ▸ hx)

theorem index_eq_ok_iff (nodup : g.order.Nodup) (id u : Nat) :
    g.index id = .ok u ↔ g.order[u]? = some id := by
  rw [← index?_eq_some_iff nodup]
  unfold index
  cases g.index? id <;> simp

theorem exists_index_iff (nodup : g.order.Nodup) (id : Nat) :
    (∃ u, g.index id = .ok u) ↔ id ∈ g.order := by
  simp only [index_eq_ok_iff nodup]
  exact List.mem_iff_getElem?.symm

theorem getElem?_order_eq_some_iff (g : Graph τ) (u id : Nat) :
    g.order[u]? = some id ↔ ∃ n, g.node? u = some n ∧ n.instr.id = id := by
  unfold order
  rw [List.getElem?_map, Option.map_eq_some_iff]
  rfl

theorem index?_of_node (nodup : g.order.Nodup) {u : Nat} {n : Node τ} (hn : g.node? u = some n) :
    g.index? n.instr.id = some u := by
  rw [index?_eq_some_iff nodup, getElem?_order_eq_some_iff]
  exact ⟨n, hn, rfl⟩

theorem size_eq_length_order (g : Graph τ) : g.size = g.order.length := (List.length_map _).symm

def idAt (g : Graph τ) (u : Nat) : Nat := g.order[u]?.getD 0

theorem idAt_eq {u : Nat} {n : Node τ} (hn : g.node? u = some n) : g.idAt u = n.instr.id := by
  have hu : g.nodes[u]? = some n := hn
  rw [idAt, order, List.getElem?_map, hu]
  rfl

theorem Keeps.idAt_eq {h : Graph τ} (hgh : Keeps Node.toSite g h) : h.idAt = g.idAt := by
  funext u
  rw [idAt, hgh.order_eq, idAt]

theorem getElem?_order (g : Graph τ) {u : Nat} (hu : u < g.size) :
    g.order[u]? = some (g.idAt u) := by
  rw [size_eq_length_order] at hu
  rw [idAt, List.getElem?_eq_getElem hu, Option.getD_some]

theorem idAt_of_getElem? {u a : Nat} (ha : g.order[u]? = some a) : g.idAt u = a := by
  rw [idAt, ha, Option.getD_some]

theorem lt_size_of_getElem? {u a : Nat} (ha : g.order[u]? = some a) : u < g.size := by
  rw [size_eq_length_order]
  exact (List.getElem?_eq_some_iff.1 ha).choose

theorem idAt_inj (nodup : g.order.Nodup) {u v : Nat} (hu : u < g.size) (hv : v < g.size)
    (hsame : g.idAt u = g.idAt v) : u = v := by
  have hiu := (index?_eq_some_iff nodup _ u).2 (getElem?_order g hu)
  have hiv := (index?_eq_some_iff nodup _ v).2 (getElem?_order g hv)
  rw [hsame, hiv] at hiu
  exact (Option.some.inj hiu).symm

end Index

section Nodes

variable [TimeScale τ] {c : Computation} {estimator : Estimator τ} {tracker : AsyncTracker τ}
  {g h : Graph τ}

structure Bare (c : Computation) (estimator : Estimator τ) (tracker : AsyncTracker τ)
    (g : Graph τ) : Prop where
  computation_eq : g.computation = c
  made : ∀ (u : Nat) (n : Node τ), g.node? u = some n →
    ∃ p, c.instruction? p.id = some p ∧ n = makeNode estimator tracker p u

theorem appendNode_eq_ok_iff (g h : Graph τ) (id : Nat) :
    appendNode estimator tracker g id = .ok h ↔ ∃ p, g.computation.instruction? id = some p ∧
      id ∉ g.order ∧ h = { g with nodes := g.nodes ++ [makeNode estimator tracker p g.size] } := by
  unfold appendNode
  cases hp : g.computation.instruction? id with
  | none => simp
  | some p =>
    rw [← index?_eq_none_iff]
    cases g.index? id <;> simp [eq_comm]

theorem Bare.append (hc : c.Wired) (bare : g.Bare c estimator tracker) {id : Nat} {p : Placed}
    (hp : c.instruction? id = some p) :
    Bare c estimator tracker
      { g with nodes := g.nodes ++ [makeNode estimator tracker p g.size] } := by
  refine ⟨bare.computation_eq, ?_⟩
  intro u n hn
  rcases List.getElem?_eq_some_iff.1 hn with ⟨hu, hget⟩
  by_cases hlast : u < g.size
  · apply bare.made u n
    rw [← hn]
    exact (List.getElem?_append_left hlast).symm
  · have hlen : u < g.size + 1 := by simpa [size] using hu
    obtain rfl : u = g.size := by omega
    refine ⟨p, ?_, ?_⟩
    · rw [hc.id_eq id p hp]
      exact hp
    · rw [← hget]
      simp [size]

theorem order_append (hc : c.Wired) (g : Graph τ) {id : Nat} {p : Placed}
    (hp : c.instruction? id = some p) (k : Nat) :
    order { g with nodes := g.nodes ++ [makeNode estimator tracker p k] } = g.order ++ [id] := by
  unfold order
  rw [List.map_append, ← hc.id_eq id p hp]
  rfl

theorem foldlM_appendNode_ok (hc : c.Wired) {sequence : List Nat}
    (bare : g.Bare c estimator tracker) (nodup : g.order.Nodup)
    (hfold : sequence.foldlM (appendNode estimator tracker) g = .ok h) :
    h.Bare c estimator tracker ∧ h.order = g.order ++ sequence ∧ h.order.Nodup ∧
      ∀ id ∈ sequence, id < c.size := by
  induction sequence generalizing g with
  | nil =>
    obtain rfl : g = h := Except.ok.inj hfold
    exact ⟨bare, (List.append_nil _).symm, nodup, List.forall_mem_nil _⟩
  | cons id rest ih =>
    rw [List.foldlM_cons, bind_eq_ok_iff] at hfold
    obtain ⟨next, hnext, hfold⟩ := hfold
    obtain ⟨p, hp, hnew, rfl⟩ := (appendNode_eq_ok_iff g next id).1 hnext
    rw [bare.computation_eq] at hp
    have hnodup : (g.order ++ [id]).Nodup :=
      nodup.append (List.nodup_singleton id) (List.disjoint_singleton.2 hnew)
    obtain ⟨hbare, hh, hhnodup, hknown⟩ := ih (bare.append hc hp)
      (by rwa [order_append hc g hp]) hfold
    refine ⟨hbare, ?_, hhnodup, ?_⟩
    · rw [hh, order_append hc g hp, List.append_assoc, List.singleton_append]
    · exact List.forall_mem_cons.2 ⟨Computation.lt_size_of_instruction? hp, hknown⟩

theorem exists_foldlM_appendNode (hc : c.Wired) {sequence : List Nat}
    (bare : g.Bare c estimator tracker) (known : ∀ id ∈ sequence, id < c.size)
    (nodup : (g.order ++ sequence).Nodup) :
    ∃ h, sequence.foldlM (appendNode estimator tracker) g = .ok h := by
  induction sequence generalizing g with
  | nil => exact ⟨g, rfl⟩
  | cons id rest ih =>
    obtain ⟨hid, known⟩ := List.forall_mem_cons.1 known
    obtain ⟨p, hp⟩ := Computation.exists_instruction? hid
    have hnew : id ∉ g.order := fun hmem =>
      (List.nodup_append.1 nodup).2.2 id hmem id List.mem_cons_self rfl
    have hnext : appendNode estimator tracker g id = .ok _ :=
      (appendNode_eq_ok_iff g _ id).2 ⟨p, by rw [bare.computation_eq, hp], hnew, rfl⟩
    obtain ⟨h, hfold⟩ := ih (bare.append hc hp) known
      (by rwa [order_append hc g hp, List.append_assoc, List.singleton_append])
    refine ⟨h, ?_⟩
    rw [List.foldlM_cons, hnext]
    exact hfold

theorem Bare.known (bare : g.Bare c estimator tracker) :
    ∀ n ∈ g.nodes, c.instruction? n.instr.id = some n.instr := by
  intro n hn
  obtain ⟨u, hu⟩ := List.mem_iff_getElem?.1 hn
  obtain ⟨p, hp, rfl⟩ := bare.made u n hu
  exact hp

theorem Bare.outgoing_eq_nil (bare : g.Bare c estimator tracker) (u : Nat) : g.outgoing u = [] := by
  unfold outgoing
  cases hu : g.node? u with
  | none => rfl
  | some n =>
    obtain ⟨p, _, rfl⟩ := bare.made u n hu
    rfl

theorem Bare.incoming_eq_nil (bare : g.Bare c estimator tracker) (u : Nat) : g.incoming u = [] := by
  unfold incoming
  cases hu : g.node? u with
  | none => rfl
  | some n =>
    obtain ⟨p, _, rfl⟩ := bare.made u n hu
    rfl

theorem Bare.fresh (bare : g.Bare c estimator tracker) : g.Fresh where
  mirrored u v latency := by
    rw [bare.outgoing_eq_nil, bare.incoming_eq_nil]
    exact iff_of_false List.not_mem_nil List.not_mem_nil
  outgoing_nodup u := by
    rw [bare.outgoing_eq_nil]
    exact List.nodup_nil
  incoming_nodup u := by
    rw [bare.incoming_eq_nil]
    exact List.nodup_nil
  nodes_fresh n hn := by
    obtain ⟨u, hu⟩ := List.mem_iff_getElem?.1 hn
    obtain ⟨p, _, rfl⟩ := bare.made u n hu
    exact ⟨rfl, rfl, rfl⟩

end Nodes

section Links

variable {c : Computation} {g h : Graph τ}

def sources (g : Graph τ) (n : Node τ) : List Nat :=
  (n.instr.inputs.map fun id => valueOf (g.index id)).eraseDups

theorem nodup_sources (g : Graph τ) (n : Node τ) : (g.sources n).Nodup := nodup_eraseDups _

theorem linkNode_eq_ok_iff (latency : Node τ → Node τ → τ) (nodup : g.order.Nodup) {sink : Nat}
    {n : Node τ} (hn : g.node? sink = some n) (h : Graph τ) :
    linkNode latency g sink = .ok h ↔ (∀ id ∈ n.instr.inputs, id ∈ g.order) ∧
      h = (g.sources n).foldl (connect latency sink) g := by
  have hopen : linkNode latency g sink = (do
      let sources ← n.instr.inputs.mapM g.index
      return sources.eraseDups.foldl (connect latency sink) g) := by
    unfold linkNode
    rw [hn]
  have hindex (id : Nat) : g.index id = .ok (valueOf (g.index id)) ↔ id ∈ g.order := by
    rw [← exists_index_iff nodup id]
    exact ⟨fun hok => ⟨_, hok⟩, fun ⟨u, hu⟩ => eq_ok_valueOf hu⟩
  rw [hopen, bind_pure_eq_ok_iff]
  constructor
  · rintro ⟨found, hfound, rfl⟩
    obtain ⟨hall, rfl⟩ := (mapM_eq_ok_iff _ _ _).1 hfound
    exact ⟨fun id hid => (hindex id).1 (hall id hid), rfl⟩
  · rintro ⟨hall, rfl⟩
    exact ⟨_, (mapM_eq_ok_iff _ _ _).2 ⟨fun id hid => (hindex id).2 (hall id hid), rfl⟩, rfl⟩

theorem mem_sources_iff (nodup : g.order.Nodup) {n : Node τ}
    (closed : ∀ id ∈ n.instr.inputs, id ∈ g.order) (u : Nat) :
    u ∈ g.sources n ↔ ∃ id : Nat, id ∈ n.instr.inputs ∧ g.order[u]? = some id := by
  unfold sources
  rw [List.mem_eraseDups, List.mem_map]
  apply exists_congr
  intro id
  apply and_congr_right
  intro hid
  obtain ⟨v, hv⟩ := (exists_index_iff nodup id).2 (closed id hid)
  rw [← index_eq_ok_iff nodup, hv]
  exact ⟨congrArg Except.ok, Except.ok.inj⟩

theorem exists_connect_eq (latency : Node τ → Node τ → τ) {source sink : Nat}
    (hsource : source < g.size) (hsink : sink < g.size) :
    ∃ time, connect latency sink g source = g.pushEdge source sink time := by
  obtain ⟨m, hm⟩ := (lt_size_iff g source).1 hsource
  obtain ⟨n, hn⟩ := (lt_size_iff g sink).1 hsink
  refine ⟨latency m n, ?_⟩
  rw [connect, hm, hn]

theorem foldl_connect (latency : Node τ → Node τ → τ) {sink : Nat} {found : List Nat}
    (fresh : g.Fresh) (hsink : sink < g.size) (nodup : found.Nodup)
    (hnew : ∀ u ∈ found, u < g.size ∧ ¬ g.Leads u sink) :
    (found.foldl (connect latency sink) g).Fresh ∧
      Keeps Node.toSite g (found.foldl (connect latency sink) g) ∧
      ∀ u v, (found.foldl (connect latency sink) g).Leads u v ↔
        g.Leads u v ∨ (u ∈ found ∧ v = sink) := by
  induction found generalizing g with
  | nil => exact ⟨fresh, Keeps.refl _ g, fun u v => by simp⟩
  | cons source rest ih =>
    obtain ⟨⟨hsource, hnone⟩, hrest⟩ := List.forall_mem_cons.1 hnew
    obtain ⟨hfirst, nodup⟩ := List.nodup_cons.1 nodup
    obtain ⟨time, hconnect⟩ := exists_connect_eq latency hsource hsink
    rw [List.foldl_cons, hconnect]
    have hkeeps := keeps_toSite_pushEdge g source sink time
    have hstep (u v : Nat) := leads_pushEdge_iff hsource sink time u v
    obtain ⟨hfresh, hkept, hleads⟩ := ih (fresh.pushEdge hsource hsink time hnone)
      (by rwa [hkeeps.size_eq]) nodup (by
        intro u hu
        rw [hkeeps.size_eq, hstep]
        refine ⟨(hrest u hu).1, ?_⟩
        rintro (hold | ⟨rfl, _⟩)
        · exact (hrest u hu).2 hold
        · exact hfirst hu)
    refine ⟨hfresh, hkeeps.trans hkept, ?_⟩
    intro u v
    rw [hleads, hstep, List.mem_cons]
    tauto

theorem Keeps.known (hkeeps : Keeps Node.toSite g h)
    (known : ∀ n ∈ g.nodes, c.instruction? n.instr.id = some n.instr) :
    ∀ n ∈ h.nodes, c.instruction? n.instr.id = some n.instr := by
  have hsites : ∀ site ∈ g.nodes.map Node.toSite, c.instruction? site.instr.id = some site.instr :=
    List.forall_mem_map.2 known
  rw [← hkeeps.views_eq] at hsites
  exact List.forall_mem_map.1 hsites

def Feeds (c : Computation) (order : List Nat) (u v : Nat) : Prop :=
  ∃ a b : Nat, order[u]? = some a ∧ order[v]? = some b ∧ c.Needs b a

section Link

variable (known : ∀ n ∈ g.nodes, c.instruction? n.instr.id = some n.instr) (nodup : g.order.Nodup)
  {sink : Nat} {n : Node τ} (hn : g.node? sink = some n)

include known hn

theorem needs_iff_mem_inputs {b : Nat} (hb : g.order[sink]? = some b) (a : Nat) :
    c.Needs b a ↔ a ∈ n.instr.inputs := by
  obtain ⟨m, hm, rfl⟩ := (getElem?_order_eq_some_iff g sink b).1 hb
  obtain rfl : n = m := Option.some.inj (hn.symm.trans hm)
  exact Computation.needs_iff (known n (List.mem_of_getElem? hn)) a

include nodup

theorem mem_sources_iff_feeds (closed : ∀ id ∈ n.instr.inputs, id ∈ g.order) (u : Nat) :
    u ∈ g.sources n ↔ Feeds c g.order u sink := by
  have hid := (getElem?_order_eq_some_iff g sink n.instr.id).2 ⟨n, hn, rfl⟩
  rw [mem_sources_iff nodup closed]
  constructor
  · rintro ⟨a, ha, hu⟩
    exact ⟨a, n.instr.id, hu, hid, (needs_iff_mem_inputs known hn hid a).2 ha⟩
  · rintro ⟨a, b, hu, hb, hneeds⟩
    exact ⟨a, (needs_iff_mem_inputs known hn hb a).1 hneeds, hu⟩

theorem exists_linkNode_iff (latency : Node τ → Node τ → τ) {b : Nat} (hb : g.order[sink]? = some b) :
    (∃ h, linkNode latency g sink = .ok h) ↔ ∀ a, c.Needs b a → a ∈ g.order := by
  simp only [needs_iff_mem_inputs known hn hb, linkNode_eq_ok_iff latency nodup hn]
  exact ⟨fun ⟨_, hall, _⟩ => hall, fun hall => ⟨_, hall, rfl⟩⟩

theorem linkNode_ok (latency : Node τ → Node τ → τ) (fresh : g.Fresh) (hunlinked : ∀ u, ¬ g.Leads u sink)
    (hlink : linkNode latency g sink = .ok h) :
    h.Fresh ∧ Keeps Node.toSite g h ∧
      ∀ u v, h.Leads u v ↔ g.Leads u v ∨ (Feeds c g.order u sink ∧ v = sink) := by
  obtain ⟨closed, rfl⟩ := (linkNode_eq_ok_iff latency nodup hn h).1 hlink
  have hsources := mem_sources_iff_feeds known nodup hn closed
  have hsink : sink < g.size := (lt_size_iff g sink).2 ⟨n, hn⟩
  obtain ⟨hfresh, hkeeps, hleads⟩ :=
    foldl_connect latency fresh hsink (nodup_sources g n) (by
      intro u hu
      obtain ⟨a, b, hua, _⟩ := (hsources u).1 hu
      refine ⟨?_, hunlinked u⟩
      rw [size_eq_length_order]
      exact (List.getElem?_eq_some_iff.1 hua).choose)
  refine ⟨hfresh, hkeeps, ?_⟩
  intro u v
  rw [hleads, hsources]

end Link

structure LinkedUpTo (c : Computation) (nodes g : Graph τ) (k : Nat) : Prop where
  fresh : g.Fresh
  keeps : Keeps Node.toSite nodes g
  leads_iff : ∀ u v, g.Leads u v ↔ v < k ∧ Feeds c nodes.order u v

variable {nodes : Graph τ}

theorem LinkedUpTo.link (latency : Node τ → Node τ → τ)
    (known : ∀ n ∈ nodes.nodes, c.instruction? n.instr.id = some n.instr)
    (nodup : nodes.order.Nodup) {k : Nat} (hk : k < nodes.size) (linked : LinkedUpTo c nodes g k)
    (hlink : linkNode latency g k = .ok h) : LinkedUpTo c nodes h (k + 1) := by
  have horder := linked.keeps.order_eq
  obtain ⟨n, hn⟩ := (lt_size_iff g k).1 (by rwa [linked.keeps.size_eq])
  have hunlinked (u : Nat) : ¬ g.Leads u k := fun hlead =>
    Nat.lt_irrefl k ((linked.leads_iff u k).1 hlead).1
  obtain ⟨hfresh, hkeeps, hleads⟩ := linkNode_ok (linked.keeps.known known) (by rwa [horder]) hn
    latency linked.fresh hunlinked hlink
  refine ⟨hfresh, linked.keeps.trans hkeeps, ?_⟩
  intro u v
  rw [hleads, linked.leads_iff, horder]
  constructor
  · rintro (⟨hv, huv⟩ | ⟨huv, rfl⟩)
    · exact ⟨Nat.lt_succ_of_lt hv, huv⟩
    · exact ⟨Nat.lt_succ_self v, huv⟩
  · rintro ⟨hv, huv⟩
    rcases Nat.lt_succ_iff_lt_or_eq.1 hv with hv | rfl
    · exact Or.inl ⟨hv, huv⟩
    · exact Or.inr ⟨huv, rfl⟩

theorem LinkedUpTo.exists_link_iff (latency : Node τ → Node τ → τ)
    (known : ∀ n ∈ nodes.nodes, c.instruction? n.instr.id = some n.instr)
    (nodup : nodes.order.Nodup) {k b : Nat} (hb : nodes.order[k]? = some b)
    (linked : LinkedUpTo c nodes g k) :
    (∃ h, linkNode latency g k = .ok h) ↔ ∀ a, c.Needs b a → a ∈ nodes.order := by
  rw [← linked.keeps.order_eq] at hb nodup ⊢
  obtain ⟨n, hn, _⟩ := (getElem?_order_eq_some_iff g k b).1 hb
  exact exists_linkNode_iff (linked.keeps.known known) nodup hn latency hb

section Run

variable (latency : Node τ → Node τ → τ)
  (known : ∀ n ∈ nodes.nodes, c.instruction? n.instr.id = some n.instr)
  (nodup : nodes.order.Nodup) (fresh : nodes.Fresh) (hempty : ∀ u v, ¬ nodes.Leads u v)

include known nodup fresh hempty

theorem foldlM_linkNode_ok {k : Nat} (hk : k ≤ nodes.size)
    (hlink : (List.range k).foldlM (linkNode latency) nodes = .ok g) :
    LinkedUpTo c nodes g k := by
  induction k generalizing g with
  | zero =>
    obtain rfl : nodes = g := Except.ok.inj hlink
    refine ⟨fresh, Keeps.refl _ nodes, ?_⟩
    intro u v
    exact iff_of_false (hempty u v) fun h => Nat.not_lt_zero v h.1
  | succ k ih =>
    obtain ⟨before, hbefore, hlast⟩ := (foldlM_range_succ_eq_ok_iff _ _ _ k).1 hlink
    exact (ih (Nat.le_of_succ_le hk) hbefore).link latency known nodup hk hlast

/-- Linking node after node succeeds if the order holds what its members depend on. -/
theorem exists_foldlM_linkNode_iff {k : Nat} (hk : k ≤ nodes.size) :
    (∃ g, (List.range k).foldlM (linkNode latency) nodes = .ok g) ↔
      ∀ v < k, ∀ b : Nat, nodes.order[v]? = some b → ∀ a, c.Needs b a → a ∈ nodes.order := by
  induction k with
  | zero => exact ⟨fun _ v hv => (Nat.not_lt_zero v hv).elim, fun _ => ⟨nodes, rfl⟩⟩
  | succ k ih =>
    have hlinked {before : Graph τ} :=
      foldlM_linkNode_ok (g := before) latency known nodup fresh hempty (Nat.le_of_succ_le hk)
    simp only [foldlM_range_succ_eq_ok_iff]
    constructor
    · rintro ⟨g, before, hbefore, hlast⟩ v hv b hb
      rcases Nat.lt_succ_iff_lt_or_eq.1 hv with hv | rfl
      · exact (ih (Nat.le_of_succ_le hk)).1 ⟨before, hbefore⟩ v hv b hb
      · exact ((hlinked hbefore).exists_link_iff latency known nodup hb).1 ⟨g, hlast⟩
    · intro hclosed
      obtain ⟨before, hbefore⟩ :=
        (ih (Nat.le_of_succ_le hk)).2 fun v hv => hclosed v (Nat.lt_succ_of_lt hv)
      obtain ⟨b, hb⟩ : ∃ b, nodes.order[k]? = some b :=
        ⟨_, List.getElem?_eq_getElem (by rwa [← size_eq_length_order])⟩
      obtain ⟨g, hlast⟩ := ((hlinked hbefore).exists_link_iff latency known nodup hb).2
        (hclosed k (Nat.lt_succ_self k) b hb)
      exact ⟨g, before, hbefore, hlast⟩

end Run

end Links

section Demands

theorem keeps_delayed {β : Type} {view : Node τ → β} (g : Graph τ)
    (hview : ∀ n value, view (setForceDelay value n) = view n) (late : Placed → Bool) :
    Keeps view g { g with
      nodes := g.nodes.map fun n => if late n.instr then setForceDelay true n else n } := by
  refine ⟨rfl, ?_⟩
  rw [List.map_map]
  apply List.map_congr_left
  intro n _
  rw [Function.comp_apply]
  split
  · exact hview n true
  · rfl

variable [TimeScale τ] {g : Graph τ}

theorem demand_spec (fresh : g.Fresh) (nodup : g.order.Nodup) (d : OrderDemand τ) :
    (g.demand d).Fresh ∧ Keeps Node.toSite g (g.demand d) ∧ ∀ u v, (g.demand d).Leads u v ↔
      g.Leads u v ∨ (g.order[u]? = some d.first ∧ g.order[v]? = some d.second) := by
  have hsize {id u : Nat} (hu : g.index? id = some u) : u < g.size := by
    rw [size_eq_length_order]
    exact (List.getElem?_eq_some_iff.1 ((index?_eq_some_iff nodup id u).1 hu)).choose
  simp only [← index?_eq_some_iff nodup]
  unfold demand
  split
  · next source sink hsource hsink =>
    refine ⟨fresh.addEdge (hsize hsource) (hsize hsink) d.latency,
      keeps_toSite_addEdge g source sink d.latency, ?_⟩
    intro u v
    rw [leads_addEdge_iff (hsize hsource), hsource, hsink, Option.some.injEq, Option.some.injEq,
      eq_comm, @eq_comm _ v]
  · next hmissing =>
    refine ⟨fresh, Keeps.refl _ g, ?_⟩
    intro u v
    refine ⟨Or.inl, ?_⟩
    rintro (huv | ⟨hu, hv⟩)
    · exact huv
    · exact (hmissing u v hu hv).elim

theorem foldl_demand (fresh : g.Fresh) (nodup : g.order.Nodup) (demands : List (OrderDemand τ)) :
    (demands.foldl demand g).Fresh ∧ Keeps Node.toSite g (demands.foldl demand g) ∧
      ∀ u v, (demands.foldl demand g).Leads u v ↔ g.Leads u v ∨
        ∃ d ∈ demands, g.order[u]? = some d.first ∧ g.order[v]? = some d.second := by
  induction demands generalizing g with
  | nil => exact ⟨fresh, Keeps.refl _ g, fun u v => by simp⟩
  | cons d rest ih =>
    obtain ⟨hfresh, hkeeps, hleads⟩ := demand_spec fresh nodup d
    have horder := hkeeps.order_eq
    obtain ⟨hfresh', hkeeps', hleads'⟩ := ih hfresh (by rwa [horder])
    refine ⟨hfresh', hkeeps.trans hkeeps', ?_⟩
    intro u v
    rw [List.foldl_cons, hleads', hleads, horder, List.exists_mem_cons_iff, or_assoc]

theorem keeps_delays {β : Type} {view : Node τ → β}
    (hview : ∀ n value, view (setForceDelay value n) = view n) (g : Graph τ)
    (tracker : AsyncTracker τ) :
    Keeps view ((tracker.demands g.computation).foldl demand g) (g.adjust tracker) :=
  keeps_delayed _ hview _

theorem adjust_spec (tracker : AsyncTracker τ) (fresh : g.Fresh) (nodup : g.order.Nodup) :
    (g.adjust tracker).Fresh ∧ Keeps Node.toSite g (g.adjust tracker) ∧
      ∀ u v, (g.adjust tracker).Leads u v ↔ g.Leads u v ∨ ∃ d ∈ tracker.demands g.computation,
        g.order[u]? = some d.first ∧ g.order[v]? = some d.second := by
  obtain ⟨hfresh, hkeeps, hleads⟩ := foldl_demand fresh nodup (tracker.demands g.computation)
  have hdelays {β : Type} {view : Node τ → β}
      (hview : ∀ n value, view (setForceDelay value n) = view n) := keeps_delays hview g tracker
  refine ⟨⟨hfresh.toLinked.keeps (hdelays fun _ _ => rfl) (hdelays fun _ _ => rfl), ?_⟩,
    hkeeps.trans (hdelays fun _ _ => rfl), ?_⟩
  · exact (hdelays fun _ _ => rfl).forall_nodes hfresh.nodes_fresh
  · intro u v
    rw [← hleads]
    exact (hdelays fun _ _ => rfl).leads_iff u v

end Demands

/-- What a dependence graph says about the order that it was made from. -/
structure Represents (g : Graph τ) (c : Computation) (tracker : AsyncTracker τ)
    (sequence : List Nat) : Prop where
  fresh : g.Fresh
  computation_eq : g.computation = c
  order_eq : g.order = sequence
  leads_iff : ∀ u v, g.Leads u v ↔
    ∃ a b : Nat, sequence[u]? = some a ∧ sequence[v]? = some b ∧ tracker.Orders c a b

section Build

variable [TimeScale τ] {c : Computation} {sequence : List Nat} {latency : Node τ → Node τ → τ}
  {estimator : Estimator τ} {tracker : AsyncTracker τ} {g : Graph τ}

theorem build_eq_ok_iff (latency : Node τ → Node τ → τ) (c : Computation) (sequence : List Nat)
    (estimator : Estimator τ) (tracker : AsyncTracker τ) (g : Graph τ) :
    buildWith latency c sequence estimator tracker = .ok g ↔ ∃ nodes linked,
      sequence.foldlM (appendNode estimator tracker) { computation := c, nodes := [] } = .ok nodes ∧
        (List.range nodes.size).foldlM (linkNode latency) nodes = .ok linked ∧
        g = linked.withDepths.adjust tracker := by
  unfold buildWith
  rw [bind_eq_ok_iff]
  apply exists_congr
  intro nodes
  rw [bind_eq_ok_iff]
  simp only [pure, Except.pure, Except.ok.injEq, exists_and_left, eq_comm]

theorem bare_empty (c : Computation) (estimator : Estimator τ) (tracker : AsyncTracker τ) :
    Bare c estimator tracker { computation := c, nodes := [] } :=
  ⟨rfl, fun u n hn => by simp [node?] at hn⟩

theorem Bare.not_leads (bare : g.Bare c estimator tracker) (u v : Nat) : ¬ g.Leads u v := by
  unfold Leads
  rw [bare.outgoing_eq_nil]
  exact List.not_mem_nil

theorem LinkedUpTo.represents {nodes linked : Graph τ} (bare : nodes.Bare c estimator tracker)
    (horder : nodes.order = sequence) (nodup : nodes.order.Nodup)
    (hlinked : LinkedUpTo c nodes linked nodes.size) :
    (linked.withDepths.adjust tracker).Represents c tracker sequence := by
  have hkeeps : Keeps Node.toSite nodes linked.withDepths :=
    hlinked.keeps.trans (keeps_withDepths (fun _ _ _ => rfl) linked)
  have hsequence : linked.withDepths.order = sequence := hkeeps.order_eq.trans horder
  have hcomputation : linked.withDepths.computation = c :=
    hkeeps.computation_eq.trans bare.computation_eq
  obtain ⟨hfresh, hkept, hleads⟩ := adjust_spec tracker hlinked.fresh.withDepths
    (by rwa [hkeeps.order_eq])
  refine ⟨hfresh, hkept.computation_eq.trans hcomputation, hkept.order_eq.trans hsequence, ?_⟩
  intro u v
  rw [hleads, (keeps_withDepths (fun _ _ _ => rfl) linked).leads_iff, hlinked.leads_iff,
    hsequence, hcomputation, horder]
  have hplace {v b : Nat} (hv : sequence[v]? = some b) : v < nodes.size := by
    rw [size_eq_length_order, horder]
    exact (List.getElem?_eq_some_iff.1 hv).choose
  constructor
  · rintro (⟨_, a, b, hu, hv, hneeds⟩ | ⟨d, hd, hu, hv⟩)
    · exact ⟨a, b, hu, hv, Or.inl hneeds⟩
    · exact ⟨d.first, d.second, hu, hv, Or.inr ⟨d, hd, rfl, rfl⟩⟩
  · rintro ⟨a, b, hu, hv, hneeds | ⟨d, hd, rfl, rfl⟩⟩
    · exact Or.inl ⟨hplace hv, a, b, hu, hv, hneeds⟩
    · exact Or.inr ⟨d, hd, hu, hv⟩

theorem build_ok (hc : c.Wired) (hbuild : buildWith latency c sequence estimator tracker = .ok g) :
    c.Admits sequence ∧ g.Represents c tracker sequence := by
  obtain ⟨nodes, linked, happend, hlink, rfl⟩ := (build_eq_ok_iff _ _ _ _ _ g).1 hbuild
  obtain ⟨bare, horder, nodup, known⟩ :=
    foldlM_appendNode_ok hc (bare_empty c estimator tracker) List.nodup_nil happend
  change nodes.order = sequence at horder
  have hlinked := foldlM_linkNode_ok latency bare.known nodup bare.fresh bare.not_leads
    (Nat.le_refl _) hlink
  have hiff := exists_foldlM_linkNode_iff latency bare.known nodup bare.fresh bare.not_leads
    (Nat.le_refl nodes.size)
  refine ⟨⟨known, horder ▸ nodup, ?_⟩, hlinked.represents bare horder nodup⟩
  intro id hid input hneeds
  obtain ⟨v, hv⟩ := List.mem_iff_getElem?.1 (horder ▸ hid : id ∈ nodes.order)
  have hsize : v < nodes.size := by
    rw [size_eq_length_order]
    exact (List.getElem?_eq_some_iff.1 hv).choose
  have hinput := hiff.1 ⟨linked, hlink⟩ v hsize id hv input hneeds
  rwa [horder] at hinput

theorem exists_buildWith (hc : c.Wired) (admits : c.Admits sequence)
    (latency : Node τ → Node τ → τ) (estimator : Estimator τ) (tracker : AsyncTracker τ) :
    ∃ g, buildWith latency c sequence estimator tracker = .ok g := by
  obtain ⟨nodes, happend⟩ :=
    exists_foldlM_appendNode hc (bare_empty c estimator tracker) admits.known admits.nodup
  obtain ⟨bare, horder, nodup, _⟩ :=
    foldlM_appendNode_ok hc (bare_empty c estimator tracker) List.nodup_nil happend
  change nodes.order = sequence at horder
  obtain ⟨linked, hlink⟩ := (exists_foldlM_linkNode_iff latency bare.known nodup bare.fresh
    bare.not_leads (Nat.le_refl nodes.size)).2 (by
      intro v _ b hb a hneeds
      rw [horder] at hb ⊢
      exact admits.closed b (List.mem_of_getElem? hb) a hneeds)
  exact ⟨_, (build_eq_ok_iff _ _ _ _ _ _).2 ⟨nodes, linked, happend, hlink, rfl⟩⟩

theorem exists_build (hc : c.Wired) (admits : c.Admits sequence) (estimator : Estimator τ)
    (tracker : AsyncTracker τ) : ∃ g, build c sequence estimator tracker = .ok g :=
  exists_buildWith hc admits estimator.onNodes estimator tracker

end Build

end Graph

end LatencyHiding
