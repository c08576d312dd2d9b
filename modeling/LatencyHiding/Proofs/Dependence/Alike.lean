import LatencyHiding.Proofs.Dependence.Neighbours

set_option autoImplicit false

namespace LatencyHiding.Graph

open TimeScale Relation

variable {τ : Type}

def Precedes (g : Graph τ) (a b : Nat) (latency : τ) : Prop :=
  ∃ u v : Nat, g.order[u]? = some a ∧ g.order[v]? = some b ∧ ⟨v, latency⟩ ∈ g.outgoing u

def facts (g : Graph τ) (a : Nat) : Option (Site × τ) :=
  ((g.index? a).bind g.node?).map fun n => (n.toSite, n.cost)

structure Alike (g h : Graph τ) : Prop where
  facts_eq : ∀ a, g.facts a = h.facts a
  precedes_iff : ∀ a b latency, g.Precedes a b latency ↔ h.Precedes a b latency

section Facts

variable {g h : Graph τ}

theorem facts_of_node (nodup : g.order.Nodup) {u : Nat} {n : Node τ} (hn : g.node? u = some n) :
    g.facts n.instr.id = some (n.toSite, n.cost) := by
  rw [facts, index?_of_node nodup hn, Option.bind_some, hn]
  rfl

theorem exists_node_of_facts {a : Nat} {x : Site × τ} (h : g.facts a = some x) :
    ∃ u n, g.index? a = some u ∧ g.node? u = some n ∧ (n.toSite, n.cost) = x := by
  obtain ⟨n, hn, hx⟩ := Option.map_eq_some_iff.1 h
  obtain ⟨u, hu, hn⟩ := Option.bind_eq_some_iff.1 hn
  exact ⟨u, n, hu, hn, hx⟩

theorem mem_order_iff_facts (g : Graph τ) (a : Nat) : a ∈ g.order ↔ g.facts a ≠ none := by
  rw [← not_iff_not, ← index?_eq_none_iff, not_not, facts]
  constructor
  · intro hnone
    rw [hnone]
    rfl
  · intro hnone
    cases hu : g.index? a with
    | none => rfl
    | some u =>
      obtain ⟨hsize, _⟩ := List.findIdx?_eq_some_iff_getElem.1 hu
      obtain ⟨n, hn⟩ := (lt_size_iff g u).1 hsize
      rw [hu, Option.bind_some, hn] at hnone
      cases hnone

theorem Keeps.facts_eq (hfacts : Keeps (fun n => (n.toSite, n.cost)) g h) (a : Nat) :
    h.facts a = g.facts a := by
  have hsite : Keeps Node.toSite g h := hfacts.map _ fun _ _ hsame => (Prod.mk.inj hsame).1
  rw [facts, facts, index?_eq, index?_eq, hsite.order_eq, Option.map_bind, Option.map_bind]
  congr 1
  funext u
  exact hfacts.node?_eq u

theorem Keeps.alike (hfacts : Keeps (fun n => (n.toSite, n.cost)) g h)
    (hsucc : Keeps Node.successors g h) : g.Alike h := by
  have hsite : Keeps Node.toSite g h := hfacts.map _ fun _ _ hsame => (Prod.mk.inj hsame).1
  refine ⟨fun a => (hfacts.facts_eq a).symm, ?_⟩
  intro a b latency
  simp only [Precedes, hsite.order_eq, hsucc.outgoing_eq]

namespace Alike

theorem refl (g : Graph τ) : g.Alike g := ⟨fun _ => rfl, fun _ _ _ => Iff.rfl⟩

theorem symm (alike : g.Alike h) : h.Alike g :=
  ⟨fun a => (alike.facts_eq a).symm, fun a b latency => (alike.precedes_iff a b latency).symm⟩

theorem trans {k : Graph τ} (alike : g.Alike h) (alike' : h.Alike k) : g.Alike k :=
  ⟨fun a => (alike.facts_eq a).trans (alike'.facts_eq a),
    fun a b latency => (alike.precedes_iff a b latency).trans (alike'.precedes_iff a b latency)⟩

theorem mem_order_iff (alike : g.Alike h) (a : Nat) : a ∈ g.order ↔ a ∈ h.order := by
  rw [mem_order_iff_facts, mem_order_iff_facts, alike.facts_eq]

end Alike

end Facts

section Depths

variable {g h : Graph τ}

theorem place_unique (nodup : g.order.Nodup) {u v a : Nat} (hu : g.order[u]? = some a)
    (hv : g.order[v]? = some a) : u = v :=
  (idxOf_of_getElem? nodup hu).symm.trans (idxOf_of_getElem? nodup hv)

theorem leads_iff_precedes (nodup : g.order.Nodup) {u v a b : Nat} (hu : g.order[u]? = some a)
    (hv : g.order[v]? = some b) : g.Leads u v ↔ ∃ latency, g.Precedes a b latency := by
  constructor
  · intro hlead
    obtain ⟨e, he, rfl⟩ := List.mem_map.1 hlead
    exact ⟨e.latency, u, e.target, hu, hv, he⟩
  · rintro ⟨latency, u', v', hu', hv', hedge⟩
    rw [place_unique nodup hu hu', place_unique nodup hv hv']
    exact List.mem_map_of_mem hedge

theorem Linked.mem_predecessors_iff_precedes (linked : g.Linked) (nodup : g.order.Nodup) {u : Nat}
    {n : Node τ} (hn : g.node? u = some n) (a : Nat) (latency : τ) :
    (a, latency) ∈ n.predecessors.map (fun e => (g.idAt e.target, e.latency)) ↔
      g.Precedes a n.instr.id latency := by
  have hu := (getElem?_order_eq_some_iff g u n.instr.id).2 ⟨n, hn, rfl⟩
  rw [List.mem_map, ← incoming_eq hn]
  constructor
  · rintro ⟨⟨v, l⟩, he, hpair⟩
    obtain ⟨rfl, rfl⟩ := Prod.mk.inj hpair
    have hedge := (linked.mirrored v u l).2 he
    exact ⟨v, u, getElem?_order g (lt_size_of_mem_outgoing hedge), hu, hedge⟩
  · rintro ⟨v, u', hv, hu', hedge⟩
    obtain rfl : u = u' := place_unique nodup hu hu'
    exact ⟨⟨v, latency⟩, (linked.mirrored v u latency).1 hedge, by rw [idAt_of_getElem? hv]⟩

theorem Linked.nodup_predecessors_by_id (linked : g.Linked) (nodup : g.order.Nodup) {u : Nat}
    {n : Node τ} (hn : g.node? u = some n) :
    (n.predecessors.map fun e => (g.idAt e.target, e.latency)).Nodup := by
  apply List.Nodup.of_map Prod.fst
  rw [List.map_map]
  have hmap : n.predecessors.map (Prod.fst ∘ fun e => (g.idAt e.target, e.latency)) =
      (n.predecessors.map (·.target)).map g.idAt := by
    rw [List.map_map]
    rfl
  rw [hmap]
  refine (linked.nodup_predecessors hn).map_on ?_
  intro v hv w hw
  exact idAt_inj nodup (linked.lt_size ((linked.mem_predecessors_iff hn v).1 hv)).1
    (linked.lt_size ((linked.mem_predecessors_iff hn w).1 hw)).1

namespace Alike

variable (alike : g.Alike h) (nodup : g.order.Nodup) (nodup' : h.order.Nodup)

include alike nodup

theorem exists_node {u : Nat} {n : Node τ} (hn : g.node? u = some n) :
    ∃ v m, h.index? n.instr.id = some v ∧ h.node? v = some m ∧ m.instr.id = n.instr.id := by
  have hfacts := alike.facts_eq n.instr.id
  rw [facts_of_node nodup hn] at hfacts
  obtain ⟨v, m, hv, hm, hsame⟩ := exists_node_of_facts hfacts.symm
  have hsite : m.toSite = n.toSite := (Prod.mk.inj hsame).1
  exact ⟨v, m, hv, hm, congrArg (·.instr.id) hsite⟩

include nodup'

theorem facts_eq_of_id {u v : Nat} {n m : Node τ} (hn : g.node? u = some n)
    (hm : h.node? v = some m) (hid : n.instr.id = m.instr.id) :
    n.toSite = m.toSite ∧ n.cost = m.cost := by
  have hsame := alike.facts_eq n.instr.id
  rw [facts_of_node nodup hn, hid, facts_of_node nodup' hm, Option.some.injEq] at hsame
  exact Prod.mk.inj hsame

theorem reachesCycle (linked : g.Linked) {u v : Nat} {n m : Node τ}
    (hn : g.node? u = some n) (hm : h.node? v = some m) (hid : n.instr.id = m.instr.id)
    (hcycle : ReachesCycle g.Awaits u) : ReachesCycle h.Awaits v := by
  let place (w : Nat) : Nat := (h.index? (g.idAt w)).getD 0
  have hplace {w : Nat} (hw : w < g.size) : h.order[place w]? = some (g.idAt w) := by
    obtain ⟨p, hp⟩ := (lt_size_iff g w).1 hw
    obtain ⟨w', q, hw', hq, hsame⟩ := alike.exists_node nodup hp
    rw [← index?_eq_some_iff nodup', idAt_eq hp]
    simp only [place, idAt_eq hp, hw', Option.getD_some]
  have hawaits {w x : Nat} (hwx : g.Awaits w x) : h.Awaits (place w) (place x) := by
    obtain ⟨hx, hw⟩ := linked.lt_size hwx
    obtain ⟨latency, hprecedes⟩ :=
      (leads_iff_precedes nodup (getElem?_order g hx) (getElem?_order g hw)).1 hwx
    exact (leads_iff_precedes nodup' (hplace hx) (hplace hw)).2
      ⟨latency, (alike.precedes_iff _ _ _).1 hprecedes⟩
  have hv : place u = v := by
    simp only [place, idAt_eq hn, hid, index?_of_node nodup' hm, Option.getD_some]
  obtain ⟨w, huw, hww⟩ := hcycle
  rw [← hv]
  exact ⟨place w, huw.lift place fun _ _ => hawaits, hww.lift place fun _ _ => hawaits⟩

variable [TimeScale τ] [Ordered τ]

theorem latest_predecessors_eq (linked : g.Linked) (linked' : h.Linked) {u v : Nat} {n m : Node τ}
    (hn : g.node? u = some n) (hm : h.node? v = some m) (hid : n.instr.id = m.instr.id)
    (value : Node τ → τ → τ)
    (hvalue : ∀ (w x : Nat) (p q : Node τ) (latency : τ), g.Awaits u w → g.node? w = some p →
      h.node? x = some q → p.instr.id = q.instr.id → value p latency = value q latency) :
    latest zero (n.predecessors.filterMap fun e =>
        (g.node? e.target).map fun p => value p e.latency) =
      latest zero (m.predecessors.filterMap fun e =>
        (h.node? e.target).map fun p => value p e.latency) := by
  -- the value that a predecessor has in `h`, by its id
  let f (a : Nat) (latency : τ) : τ :=
    (((h.index? a).bind h.node?).map fun q => value q latency).getD zero
  have hf {x : Nat} {q : Node τ} (hq : h.node? x = some q) (latency : τ) :
      f q.instr.id latency = value q latency := by
    simp only [f, index?_of_node nodup' hq, Option.bind_some, hq, Option.map_some,
      Option.getD_some]
  have hperm : (n.predecessors.map fun e => (g.idAt e.target, e.latency)).Perm
      (m.predecessors.map fun e => (h.idAt e.target, e.latency)) := by
    apply (List.perm_ext_iff_of_nodup (linked.nodup_predecessors_by_id nodup hn)
      (linked'.nodup_predecessors_by_id nodup' hm)).2
    rintro ⟨a, latency⟩
    rw [linked.mem_predecessors_iff_precedes nodup hn,
      linked'.mem_predecessors_iff_precedes nodup' hm, hid, alike.precedes_iff]
  have hlead {e : Edge τ} (he : e ∈ n.predecessors) : g.Leads e.target u :=
    (linked.mem_predecessors_iff hn e.target).1 (List.mem_map_of_mem he)
  have hlead' {e : Edge τ} (he : e ∈ m.predecessors) : h.Leads e.target v :=
    (linked'.mem_predecessors_iff hm e.target).1 (List.mem_map_of_mem he)
  rw [filterMap_neighbours g value f n.predecessors fun e he => (linked.lt_size (hlead he)).1,
    filterMap_neighbours h value f m.predecessors fun e he => (linked'.lt_size (hlead' he)).1]
  · have htimes := hperm.map fun s => f s.1 s.2
    rw [List.map_map, List.map_map] at htimes
    exact latest_perm htimes
  · intro e he q hq
    exact (hf hq e.latency).symm
  · intro e he p hp
    obtain ⟨x, q, _, hq, hsame⟩ := alike.exists_node nodup hp
    rw [← hsame, hf hq]
    exact hvalue e.target x p q e.latency (hlead he) hp hq hsame.symm

end Alike

end Depths

section Solutions

variable [TimeScale τ] {g h : Graph τ}

/-- The recurrences of the depths hold wherever no cycle leads to. -/
def Solved (g : Graph τ) : Prop := ∀ u, ¬ ReachesCycle g.Awaits u → g.Deep u

theorem Solved.keeps (solved : g.Solved) (hreach : Keeps Node.reach g h)
    (hsucc : Keeps Node.successors g h) : h.Solved := by
  have hawaits : h.Awaits = g.Awaits := by
    funext u v
    exact propext (hsucc.leads_iff v u)
  intro u hcycle
  rw [hawaits] at hcycle
  exact (solved u hcycle).keeps hreach

theorem Linked.solved_withDepths (linked : g.Linked) : g.withDepths.Solved := by
  have hawaits : g.withDepths.Awaits = g.Awaits := by
    funext u v
    exact propext ((keeps_withDepths (fun _ _ _ => rfl) g).leads_iff v u)
  intro u hcycle
  rw [hawaits] at hcycle
  exact deep_withDepths linked hcycle

/-- The recurrences have one solution. -/
theorem Alike.depths_eq [Ordered τ] (alike : g.Alike h) (linked : g.Linked) (linked' : h.Linked)
    (nodup : g.order.Nodup) (nodup' : h.order.Nodup) (solved : g.Solved) (solved' : h.Solved)
    {u v : Nat} {n m : Node τ} (hn : g.node? u = some n) (hm : h.node? v = some m)
    (hid : n.instr.id = m.instr.id) (hcycle : ¬ ReachesCycle g.Awaits u) :
    n.asyncDepth = m.asyncDepth ∧ n.depth = m.depth := by
  obtain ⟨done, visited, exhausted⟩ := Visit.exists_exhausted linked
  -- the induction follows a visit of `g`, which comes to `u` after all that `u` awaits
  have hall : ∀ u ∈ done, ∀ (v : Nat) (n m : Node τ), g.node? u = some n → h.node? v = some m →
      n.instr.id = m.instr.id → n.asyncDepth = m.asyncDepth ∧ n.depth = m.depth := by
    refine exhausted.grounded.forall_mem ?_
    intro u hu ih v n m hn hm hid
    have hcycle := exhausted.grounded.not_reachesCycle exhausted.nodup hu
    have hcycle' : ¬ ReachesCycle h.Awaits v := fun h =>
      hcycle (alike.symm.reachesCycle nodup' nodup linked' hm hn hid.symm h)
    have hsite := (alike.facts_eq_of_id nodup nodup' hn hm hid).1
    rw [(solved u hcycle n hn).1, (solved u hcycle n hn).2, (solved' v hcycle' m hm).1,
      (solved' v hcycle' m hm).2]
    constructor
    · unfold asyncDepthOf
      rw [← hsite]
      apply alike.latest_predecessors_eq nodup nodup' linked linked' hn hm hid fun p latency =>
        p.asyncDepth + (if p.isAsyncPair n.toSite then latency else zero)
      intro w x p q latency hw hp hq hsame
      rw [(ih w hw x p q hp hq hsame).1, (alike.facts_eq_of_id nodup nodup' hp hq hsame).1]
    · unfold depthOf
      apply alike.latest_predecessors_eq nodup nodup' linked linked' hn hm hid fun p latency =>
        p.depth + p.cost + latency
      intro w x p q latency hw hp hq hsame
      rw [(ih w hw x p q hp hq hsame).2, (alike.facts_eq_of_id nodup nodup' hp hq hsame).2]
  refine hall u ?_ v n m hn hm hid
  by_contra hnot
  exact hcycle (exhausted.reachesCycle (List.mem_range.2 ((lt_size_iff g u).2 ⟨n, hn⟩)) hnot)

end Solutions

end LatencyHiding.Graph
