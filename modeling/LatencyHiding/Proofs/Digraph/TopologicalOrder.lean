import LatencyHiding.Proofs.Digraph.DepthFirst
import LatencyHiding.Proofs.Program.Precedence
import LatencyHiding.Proofs.Traversal

set_option autoImplicit false

namespace LatencyHiding.Digraph

open Relation

variable {α : Type} [DecidableEq α]

def Joins (g : Digraph α) (a b : α) : Prop := (a, b) ∈ g.edges

/-- No node is there twice, and edges have their ends among the nodes. -/
structure Proper (g : Digraph α) : Prop where
  nodup : g.nodes.Nodup
  ends : ∀ a b, g.Joins a b → a ∈ g.nodes ∧ b ∈ g.nodes

section Insertion

variable {g : Digraph α}

theorem mem_nodes_addNode (g : Digraph α) (n a : α) :
    a ∈ (g.addNode n).nodes ↔ a ∈ g.nodes ∨ a = n := by
  unfold addNode
  split
  · next hn =>
    constructor
    · exact Or.inl
    · rintro (ha | rfl)
      · exact ha
      · exact hn
  · simp

theorem edges_addNode (g : Digraph α) (n : α) : (g.addNode n).edges = g.edges := by
  unfold addNode
  split <;> rfl

theorem Proper.addNode (proper : g.Proper) (n : α) : (g.addNode n).Proper where
  nodup := by
    unfold Digraph.addNode
    split
    · exact proper.nodup
    · next hn => exact proper.nodup.append (List.nodup_singleton n) (List.disjoint_singleton.2 hn)
  ends a b hab := by
    unfold Joins at hab
    rw [edges_addNode] at hab
    have := proper.ends a b hab
    simp only [mem_nodes_addNode]
    tauto

theorem mem_nodes_addEdge (g : Digraph α) (e : α × α) (a : α) :
    a ∈ (g.addEdge e).nodes ↔ a ∈ g.nodes ∨ a = e.1 ∨ a = e.2 := by
  have hnodes : (g.addEdge e).nodes = ((g.addNode e.1).addNode e.2).nodes := by
    unfold addEdge
    dsimp only
    split <;> rfl
  rw [hnodes, mem_nodes_addNode, mem_nodes_addNode, or_assoc]

theorem joins_addEdge (g : Digraph α) (e : α × α) (a b : α) :
    (g.addEdge e).Joins a b ↔ g.Joins a b ∨ (a, b) = e := by
  have hedges : ((g.addNode e.1).addNode e.2).edges = g.edges := by
    rw [edges_addNode, edges_addNode]
  unfold Joins addEdge
  dsimp only
  split
  · next hmem =>
    constructor
    · intro hab
      exact Or.inl (hedges ▸ hab)
    · rintro (hab | rfl)
      · exact hedges.symm ▸ hab
      · exact hmem
  · simp [hedges]

theorem Proper.addEdge (proper : g.Proper) (e : α × α) : (g.addEdge e).Proper where
  nodup := by
    have hnodes := ((proper.addNode e.1).addNode e.2).nodup
    unfold Digraph.addEdge
    dsimp only
    split <;> exact hnodes
  ends a b hab := by
    rw [joins_addEdge] at hab
    simp only [mem_nodes_addEdge]
    rcases hab with hab | rfl
    · have := proper.ends a b hab
      tauto
    · exact ⟨Or.inr (Or.inl rfl), Or.inr (Or.inr rfl)⟩

theorem foldl_addNode (nodes : List α) (proper : g.Proper) :
    (nodes.foldl Digraph.addNode g).Proper ∧ (nodes.foldl Digraph.addNode g).edges = g.edges ∧
      ∀ a, a ∈ (nodes.foldl Digraph.addNode g).nodes ↔ a ∈ g.nodes ∨ a ∈ nodes := by
  induction nodes generalizing g with
  | nil => exact ⟨proper, rfl, fun a => by simp⟩
  | cons n rest ih =>
    obtain ⟨hproper, hedges, hmem⟩ := ih (proper.addNode n)
    refine ⟨hproper, hedges.trans (edges_addNode g n), ?_⟩
    intro a
    rw [List.foldl_cons, hmem, mem_nodes_addNode, List.mem_cons, or_assoc]

theorem foldl_addEdge (edges : List (α × α)) (proper : g.Proper) :
    (edges.foldl Digraph.addEdge g).Proper ∧
      (∀ a b, (edges.foldl Digraph.addEdge g).Joins a b ↔ g.Joins a b ∨ (a, b) ∈ edges) ∧
      ∀ a, a ∈ (edges.foldl Digraph.addEdge g).nodes ↔
        a ∈ g.nodes ∨ ∃ e ∈ edges, a = e.1 ∨ a = e.2 := by
  induction edges generalizing g with
  | nil => exact ⟨proper, fun a b => by simp, fun a => by simp⟩
  | cons e rest ih =>
    obtain ⟨hproper, hjoins, hmem⟩ := ih (proper.addEdge e)
    refine ⟨hproper, ?_, ?_⟩
    · intro a b
      rw [List.foldl_cons, hjoins, joins_addEdge, List.mem_cons, or_assoc]
    · intro a
      rw [List.foldl_cons, hmem, mem_nodes_addEdge, List.exists_mem_cons_iff, or_assoc]

theorem ofLists_spec (nodes : List α) (edges : List (α × α)) :
    (ofLists nodes edges).Proper ∧
      (∀ a b, (ofLists nodes edges).Joins a b ↔ (a, b) ∈ edges) ∧
      ∀ a, a ∈ (ofLists nodes edges).nodes ↔ a ∈ nodes ∨ ∃ e ∈ edges, a = e.1 ∨ a = e.2 := by
  have hempty : Proper ({} : Digraph α) := ⟨List.nodup_nil, by simp [Joins]⟩
  obtain ⟨hnodes, hedges, hmem⟩ := foldl_addNode nodes hempty
  obtain ⟨hproper, hjoins, hmem'⟩ := foldl_addEdge edges hnodes
  refine ⟨hproper, ?_, ?_⟩
  · intro a b
    rw [ofLists, hjoins, Joins, hedges]
    simp
  · intro a
    rw [ofLists, hmem', hmem]
    simp

end Insertion

section Neighbours

variable {g : Digraph α}

theorem mem_outgoing_iff (g : Digraph α) (a b : α) : b ∈ g.outgoing a ↔ g.Joins a b := by
  unfold outgoing Joins
  simp

theorem mem_incoming_iff (g : Digraph α) (a b : α) : a ∈ g.incoming b ↔ g.Joins a b := by
  unfold incoming Joins
  simp

def neighbours (g : Digraph α) (n : α) : List α := (g.outgoing n).reverse

theorem steps_neighbours (g : Digraph α) : Steps g.neighbours = g.Joins := by
  funext a b
  rw [Steps, neighbours, List.mem_reverse, mem_outgoing_iff]

end Neighbours

section Walk

variable {g : Digraph α} {w w' : Walk α}

theorem explore_succ (g : Digraph α) (depth : Nat) (w : Walk α) {n : α} (hnew : n ∉ w.discovered)
    (hloop : ¬ g.Joins n n) : g.explore (depth + 1) w n = (do
      let below ← (g.neighbours n).foldlM (g.explore depth)
        { w with discovered := n :: w.discovered }
      return { below with finished := n :: below.finished }) := by
  rw [explore, if_neg hnew, if_neg (by rwa [mem_outgoing_iff])]
  rfl

omit [DecidableEq α] in
/-- A walk that does not end early meets only nodes without an edge to themselves. -/
theorem foldlM_explore_ok {step : Walk α → α → Except α (Walk α)} {next : Walk α → α → Walk α}
    (hstep : ∀ w n w', step w n = .ok w' → w' = next w n ∧
      ∀ a ∈ w'.discovered, a ∈ w.discovered ∨ ¬ g.Joins a a)
    (l : List α) (h : l.foldlM step w = .ok w') :
    w' = l.foldl next w ∧ ∀ a ∈ w'.discovered, a ∈ w.discovered ∨ ¬ g.Joins a a := by
  induction l generalizing w with
  | nil =>
    obtain rfl : w = w' := Except.ok.inj h
    exact ⟨rfl, fun a ha => Or.inl ha⟩
  | cons n rest ih =>
    obtain ⟨mid, hmid, hrest⟩ := (foldlM_cons_eq_ok_iff _ _ _ _ _).1 h
    obtain ⟨rfl, hloops⟩ := hstep w n mid hmid
    obtain ⟨hsame, hloops'⟩ := ih hrest
    refine ⟨hsame, ?_⟩
    intro a ha
    rcases hloops' a ha with hmet | hloop
    · exact hloops a hmet
    · exact Or.inr hloop

theorem explore_ok (depth : Nat) {n : α} (h : g.explore depth w n = .ok w') :
    w' = visit g.neighbours depth w n ∧
      ∀ a ∈ w'.discovered, a ∈ w.discovered ∨ ¬ g.Joins a a := by
  induction depth generalizing w w' n with
  | zero =>
    obtain rfl : w = w' := Except.ok.inj h
    exact ⟨rfl, fun a ha => Or.inl ha⟩
  | succ depth ih =>
    by_cases hmet : n ∈ w.discovered
    · rw [explore, if_pos hmet] at h
      obtain rfl : w = w' := Except.ok.inj h
      exact ⟨by rw [visit, if_pos hmet], fun a ha => Or.inl ha⟩
    · by_cases hloop : g.Joins n n
      · rw [explore, if_neg hmet, if_pos (by rwa [mem_outgoing_iff])] at h
        cases h
      · rw [explore_succ g depth w hmet hloop, bind_pure_eq_ok_iff] at h
        obtain ⟨below, hbelow, rfl⟩ := h
        obtain ⟨hsame, hloops⟩ := foldlM_explore_ok (fun w n w' hw => ih hw) _ hbelow
        refine ⟨by rw [visit, if_neg hmet, hsame], ?_⟩
        intro a ha
        rcases hloops a ha with hold | hnone
        · rcases List.mem_cons.1 hold with rfl | hold
          · exact Or.inr hloop
          · exact Or.inl hold
        · exact Or.inr hnone

theorem explore_of_loopless (hloops : ∀ a, ¬ g.Joins a a) (depth : Nat) (w : Walk α) (n : α) :
    g.explore depth w n = .ok (visit g.neighbours depth w n) := by
  induction depth generalizing w n with
  | zero => rfl
  | succ depth ih =>
    by_cases hmet : n ∈ w.discovered
    · rw [explore, if_pos hmet, visit, if_pos hmet]
    · have hbelow : g.explore depth = fun w n => pure (visit g.neighbours depth w n) := by
        funext w n
        exact ih w n
      rw [explore_succ g depth w hmet (hloops n), visit, if_neg hmet, hbelow, List.foldlM_pure]
      rfl

end Walk

section Check

variable {g : Digraph α} {earlier rest : List α}

theorem backEdge?_cons_eq_none_iff (g : Digraph α) (earlier rest : List α) (n : α) :
    g.backEdge? earlier (n :: rest) = none ↔
      (∀ m, g.Joins m n → m ∈ n :: earlier) ∧ g.backEdge? (n :: earlier) rest = none := by
  have hnone : ((g.incoming n).filter (· ∉ n :: earlier)).getLast? = none ↔
      ∀ m, g.Joins m n → m ∈ n :: earlier := by
    rw [List.getLast?_eq_none_iff, List.filter_eq_nil_iff]
    simp only [mem_incoming_iff, decide_eq_true_eq, not_not]
  rw [backEdge?, ← hnone]
  cases ((g.incoming n).filter (· ∉ n :: earlier)).getLast? <;> simp

theorem pairwise_of_backEdge? (h : g.backEdge? earlier rest = none) (nodup : rest.Nodup)
    (hapart : ∀ a ∈ earlier, a ∉ rest) : rest.Pairwise fun x y => ¬ g.Joins y x := by
  induction rest generalizing earlier with
  | nil => exact List.Pairwise.nil
  | cons n rest ih =>
    obtain ⟨hn, hrest⟩ := (backEdge?_cons_eq_none_iff g earlier rest n).1 h
    obtain ⟨hnew, nodup⟩ := List.nodup_cons.1 nodup
    refine List.Pairwise.cons ?_ (ih hrest nodup ?_)
    · intro m hm hjoin
      rcases List.mem_cons.1 (hn m hjoin) with rfl | hearlier
      · exact hnew hm
      · exact hapart m hearlier (List.mem_cons_of_mem n hm)
    · refine List.forall_mem_cons.2 ⟨hnew, ?_⟩
      intro a ha hmem
      exact hapart a ha (List.mem_cons_of_mem n hmem)

theorem backEdge?_of_grounded (hgrounded : Grounded g.Joins rest) (nodup : rest.Nodup)
    (hall : ∀ n ∈ rest, ∀ m, g.Joins m n → m ∈ earlier ∨ m ∈ rest) :
    g.backEdge? earlier rest = none := by
  induction rest generalizing earlier with
  | nil => rfl
  | cons n rest ih =>
    obtain ⟨hnew, nodup⟩ := List.nodup_cons.1 nodup
    obtain ⟨hn, hrest⟩ := List.forall_mem_cons.1 hall
    refine (backEdge?_cons_eq_none_iff g earlier rest n).2 ⟨?_, ih hgrounded.2 nodup ?_⟩
    · intro m hjoin
      rcases hn m hjoin with hm | hm
      · exact List.mem_cons_of_mem n hm
      · rcases List.mem_cons.1 hm with rfl | hm
        · exact List.mem_cons_self
        · -- what stands behind `n` has its own neighbours further back still
          exact (hnew (hgrounded.2.mem_of_rel hm hjoin)).elim
    · intro a ha m hjoin
      have := hrest a ha m hjoin
      simp only [List.mem_cons] at this ⊢
      tauto

end Check

section Sorting

variable {g : Digraph α} {order : List α}

theorem topologicalOrder_eq_ok_iff (g : Digraph α) (order : List α) :
    g.topologicalOrder = .ok order ↔
      ∃ walk, g.nodes.foldlM (g.explore (g.nodes.length + 1)) {} = .ok walk ∧
        g.backEdge? [] walk.finished = none ∧ order = walk.finished := by
  unfold topologicalOrder
  rw [bind_eq_ok_iff]
  apply exists_congr
  intro walk
  cases g.backEdge? [] walk.finished <;> simp [pure, Except.pure, throw, throwThe, eq_comm]

/-- All nodes are met, and each is finished once. -/
theorem Proper.foldl_visit (proper : g.Proper) {walk : Walk α}
    (hwalk : walk = g.nodes.foldl (visit g.neighbours (g.nodes.length + 1)) {}) :
    walk.Sound g.neighbours g.nodes [] ∧ walk.finished.Perm g.nodes := by
  have hnodes : ∀ a ∈ g.nodes, ∀ b ∈ g.neighbours a, b ∈ g.nodes := by
    intro a _ b hb
    have hjoin : g.Joins a b := by rwa [← steps_neighbours]
    exact (proper.ends a b hjoin).2
  obtain ⟨hsound, hall⟩ := Walk.Sound.foldl_visit hnodes g.nodes (List.Subset.refl _)
    (Walk.Sound.empty g.neighbours g.nodes)
  rw [← hwalk] at hsound hall
  refine ⟨hsound, (List.perm_ext_iff_of_nodup hsound.finished_nodup proper.nodup).2 ?_⟩
  intro a
  refine ⟨fun ha => ?_, fun ha => hall ha⟩
  exact hsound.mem_nodes a ((hsound.discovered_iff a).2 (Or.inr ha))

theorem topologicalOrder_ok (proper : g.Proper) (h : g.topologicalOrder = .ok order) :
    order.Perm g.nodes ∧ (order.Pairwise fun x y => ¬ g.Joins y x) ∧ ∀ a, ¬ g.Joins a a := by
  obtain ⟨walk, hwalk, hback, rfl⟩ := (topologicalOrder_eq_ok_iff g order).1 h
  obtain ⟨hsame, hloops⟩ := foldlM_explore_ok (fun w n w' hw => explore_ok _ hw) _ hwalk
  obtain ⟨hsound, hperm⟩ := proper.foldl_visit hsame
  refine ⟨hperm, pairwise_of_backEdge? hback hsound.finished_nodup (by simp), ?_⟩
  intro a ha
  have hmet := (hsound.discovered_iff a).2 (Or.inr (hperm.mem_iff.2 (proper.ends a a ha).1))
  rcases hloops a hmet with hempty | hnone
  · cases hempty
  · exact hnone ha

theorem exists_topologicalOrder (proper : g.Proper) (acyclic : ∀ a, ¬ TransGen g.Joins a a) :
    ∃ order, g.topologicalOrder = .ok order := by
  have hloops (a : α) : ¬ g.Joins a a := fun ha => acyclic a (TransGen.single ha)
  obtain ⟨hsound, hperm⟩ := proper.foldl_visit rfl
  have hexplore : g.explore (g.nodes.length + 1) =
      fun w n => pure (visit g.neighbours (g.nodes.length + 1) w n) := by
    funext w n
    exact explore_of_loopless hloops _ w n
  have hwalk : g.nodes.foldlM (g.explore (g.nodes.length + 1)) {} =
      .ok (g.nodes.foldl (visit g.neighbours (g.nodes.length + 1)) {}) := by
    rw [hexplore, List.foldlM_pure]
    rfl
  refine ⟨_, (topologicalOrder_eq_ok_iff g _).2 ⟨_, hwalk, ?_, rfl⟩⟩
  have hgrounded := hsound.grounded
  rw [steps_neighbours] at hgrounded
  refine backEdge?_of_grounded (hgrounded acyclic) hsound.finished_nodup ?_
  intro n _ m hjoin
  exact Or.inr (hperm.mem_iff.2 (proper.ends m n hjoin).1)

/-- What can be relied on in a sort. -/
structure Sorts (sort : Sorter α) : Prop where
  ok : ∀ {g : Digraph α} {order : List α}, g.Proper → sort g = .ok order →
    order.Perm g.nodes ∧ (order.Pairwise fun x y => ¬ g.Joins y x) ∧ ∀ a, ¬ g.Joins a a
  total : ∀ {g : Digraph α}, g.Proper → (∀ a, ¬ TransGen g.Joins a a) → ∃ order, sort g = .ok order

theorem sorts_topologicalOrder : Sorts (topologicalOrder : Sorter α) :=
  ⟨topologicalOrder_ok, exists_topologicalOrder⟩

/-- An order is found exactly if there is no cycle. -/
theorem Sorts.exists_iff {sort : Sorter α} (sorts : Sorts sort) (proper : g.Proper) :
    (∃ order, sort g = .ok order) ↔ ∀ a, ¬ TransGen g.Joins a a := by
  refine ⟨?_, sorts.total proper⟩
  rintro ⟨order, h⟩ a hcycle
  obtain ⟨hperm, hpairs, hloops⟩ := sorts.ok proper h
  have hmem {x : α} (hx : x ∈ g.nodes) : x ∈ order := hperm.mem_iff.2 hx
  have hplace {x y : α} (hxy : TransGen g.Joins x y) : order.idxOf x < order.idxOf y := by
    induction hxy with
    | single hxy =>
      obtain ⟨hx, hy⟩ := proper.ends _ _ hxy
      exact idxOf_lt_of_pairwise hpairs hloops (hmem hx) (hmem hy) hxy
    | tail _ hyz ih =>
      obtain ⟨hy, hz⟩ := proper.ends _ _ hyz
      exact Nat.lt_trans ih (idxOf_lt_of_pairwise hpairs hloops (hmem hy) (hmem hz) hyz)
  exact Nat.lt_irrefl _ (hplace hcycle)

end Sorting

end LatencyHiding.Digraph
