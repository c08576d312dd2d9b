set_option autoImplicit false

namespace LatencyHiding

structure Digraph (α : Type) where
  nodes : List α := []
  edges : List (α × α) := []

namespace Digraph

variable {α : Type} [DecidableEq α]

def addNode (g : Digraph α) (n : α) : Digraph α :=
  if n ∈ g.nodes then g else { g with nodes := g.nodes ++ [n] }

/-- Add an edge and its ends; what is there already stays where it is. -/
def addEdge (g : Digraph α) (edge : α × α) : Digraph α :=
  let g := (g.addNode edge.1).addNode edge.2
  if edge ∈ g.edges then g else { g with edges := g.edges ++ [edge] }

def ofLists (nodes : List α) (edges : List (α × α)) : Digraph α :=
  edges.foldl addEdge (nodes.foldl addNode {})

def outgoing (g : Digraph α) (n : α) : List α :=
  (g.edges.filter (·.1 = n)).map Prod.snd

def incoming (g : Digraph α) (n : α) : List α :=
  (g.edges.filter (·.2 = n)).map Prod.fst

structure Walk (α : Type) where
  discovered : List α := []
  finished : List α := []

/-- Walk from `n` along outgoing edges, the last neighbour first; a node with an edge to itself ends
the walk. A walk goes down at most once per node, which bounds `depth`. -/
def explore (g : Digraph α) : (depth : Nat) → Walk α → α → Except α (Walk α)
  | 0, w, _ => .ok w
  | depth + 1, w, n =>
    if n ∈ w.discovered then .ok w
    else if n ∈ g.outgoing n then .error n
    else do
      let below ← (g.outgoing n).reverse.foldlM (g.explore depth)
        { w with discovered := n :: w.discovered }
      return { below with finished := n :: below.finished }

/-- A node that stands before one of its predecessors: of the first node for which that is so, the
predecessor inserted last. -/
def backEdge? (g : Digraph α) : (earlier rest : List α) → Option α
  | _, [] => none
  | earlier, n :: rest =>
    match ((g.incoming n).filter (· ∉ n :: earlier)).getLast? with
    | some m => some m
    | none => g.backEdge? (n :: earlier) rest

/-- A way to sort: all nodes with every edge pointing forward, or a node on or next to a cycle. -/
abbrev Sorter (α : Type) := Digraph α → Except α (List α)

/-- A depth-first walk proposes an order, which is then checked edge by edge. -/
def topologicalOrder (g : Digraph α) : Except α (List α) := do
  let walk ← g.nodes.foldlM (g.explore (g.nodes.length + 1)) {}
  match g.backEdge? [] walk.finished with
  | some n => throw n
  | none => return walk.finished

end Digraph

end LatencyHiding
