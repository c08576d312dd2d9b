import LatencyHiding.Async.Tracker
import LatencyHiding.Cost.Estimator
import LatencyHiding.Dependence.Depth

set_option autoImplicit false

namespace LatencyHiding.Graph

variable {τ : Type} [TimeScale τ]

open TimeScale

def makeNode (estimator : Estimator τ) (tracker : AsyncTracker τ) (p : Placed) (position : Nat) :
    Node τ where
  instr := p
  isStart := tracker.isStart p.toInstruction
  isDone := tracker.isDone p.toInstruction
  position := position
  cost := estimator.cost p.toInstruction
  uses := tracker.uses p.toInstruction
  forceDelay := p.hint == some .earliest
  asyncDepth := zero
  depth := zero
  readyTime := zero

def appendNode (estimator : Estimator τ) (tracker : AsyncTracker τ) (g : Graph τ) (id : InstrId) :
    Except Fault (Graph τ) :=
  match g.computation.instruction? id with
  | none => .error (.unknownId id g.computation.name)
  | some p =>
    if (g.index? id).isSome then .error (.badOrder g.computation.name (.appearsTwice p.name))
    else .ok { g with nodes := g.nodes ++ [makeNode estimator tracker p g.size] }

/-- The edge of one dependency. Both ends are seen with the edges that they have so far. -/
def connect (latency : Node τ → Node τ → τ) (sink : NodeIndex) (g : Graph τ) (source : NodeIndex) :
    Graph τ :=
  match g.node? source, g.node? sink with
  | some m, some n => g.pushEdge source sink (latency m n)
  | _, _ => g

def linkNode (latency : Node τ → Node τ → τ) (g : Graph τ) (sink : NodeIndex) :
    Except Fault (Graph τ) :=
  match g.node? sink with
  | none => .ok g
  | some n => do
    let sources ← n.instr.inputs.mapM g.index
    return sources.eraseDups.foldl (connect latency sink) g

/-- Add the edge that a demand asks for, if both instructions are in the graph. -/
def demand (g : Graph τ) (d : OrderDemand τ) : Graph τ :=
  match g.index? d.first, g.index? d.second with
  | some source, some sink => (g.addEdge source sink d.latency).1
  | _, _ => g

def setForceDelay (value : Bool) (n : Node τ) : Node τ := { n with forceDelay := value }

def adjust (tracker : AsyncTracker τ) (g : Graph τ) : Graph τ :=
  let g := (tracker.demands g.computation).foldl demand g
  { g with nodes := g.nodes.map fun n =>
      if tracker.delays g.computation n.instr then setForceDelay true n else n }

/-- The graph of an order, with latencies that may depend on all there is to see of two nodes. -/
def buildWith (latency : Node τ → Node τ → τ) (c : Computation) (sequence : List InstrId)
    (estimator : Estimator τ) (tracker : AsyncTracker τ) : Except Fault (Graph τ) := do
  let g ← sequence.foldlM (appendNode estimator tracker) { computation := c, nodes := [] }
  let g ← (List.range g.size).foldlM (linkNode latency) g
  return g.withDepths.adjust tracker

def build (c : Computation) (sequence : List InstrId) (estimator : Estimator τ)
    (tracker : AsyncTracker τ) : Except Fault (Graph τ) :=
  buildWith estimator.onNodes c sequence estimator tracker

end LatencyHiding.Graph
