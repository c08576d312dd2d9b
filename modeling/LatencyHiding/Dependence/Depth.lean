import LatencyHiding.Dependence.Basic

set_option autoImplicit false

namespace LatencyHiding.Graph

variable {τ : Type} [TimeScale τ]

open TimeScale

def asyncDepthOf (g : Graph τ) (n : Node τ) : τ :=
  latest zero <| n.predecessors.filterMap fun e =>
    (g.node? e.target).map fun p =>
      p.asyncDepth + (if p.isAsyncPair n.toSite then e.latency else zero)

def depthOf (g : Graph τ) (n : Node τ) : τ :=
  latest zero <| n.predecessors.filterMap fun e =>
    (g.node? e.target).map fun p => p.depth + p.cost + e.latency

/-- A visit under way: how many predecessors of each node are still to be visited, and which nodes
are next. -/
structure Visit (τ : Type) where
  graph : Graph τ
  remaining : List Nat
  queue : List NodeIndex

namespace Visit

def start (g : Graph τ) : Visit τ where
  graph := g
  remaining := g.nodes.map (·.predecessors.length)
  queue := (List.range g.size).filter fun n => (g.node? n).any (·.predecessors.isEmpty)

def countDown (v : Visit τ) (n : NodeIndex) : Visit τ :=
  let remaining := v.remaining.modify n (· - 1)
  { v with
    remaining
    queue := if remaining[n]? = some 0 then v.queue ++ [n] else v.queue }

def step (v : Visit τ) : Visit τ :=
  match v.queue with
  | [] => v
  | n :: rest =>
    match v.graph.node? n with
    | none => { v with queue := rest }
    | some node =>
      let graph := v.graph.modify n fun m =>
        { m with asyncDepth := v.graph.asyncDepthOf node, depth := v.graph.depthOf node }
      (node.successors.map (·.target)).foldl countDown { v with graph, queue := rest }

/-- No node is visited twice, so that as many steps as there are nodes empty the queue. -/
def steps : Nat → Visit τ → Visit τ
  | 0, v => v
  | n + 1, v => steps n v.step

end Visit

/-- Nodes on a cycle, or behind one, are not visited and keep the depths they had. -/
def withDepths (g : Graph τ) : Graph τ := (Visit.steps g.size (.start g)).graph

/-- Add an edge unless there is one already, and say whether it was new. -/
def addEdge (g : Graph τ) (source sink : NodeIndex) (latency : τ) : Graph τ × Bool :=
  if g.hasEdge source sink then (g, false)
  else ((g.pushEdge source sink latency).withDepths, true)

end LatencyHiding.Graph
