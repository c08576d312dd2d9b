import LatencyHiding.Async.Resource
import LatencyHiding.Program.Computation
import LatencyHiding.TimeScale

set_option autoImplicit false

namespace LatencyHiding

abbrev NodeIndex := Nat

structure Site where
  instr : Placed
  isStart : Bool
  isDone : Bool

/-- `sink` is the done of the asynchronous start `source`. -/
def Site.isAsyncPair (source sink : Site) : Bool :=
  source.isStart && sink.isDone && sink.instr.operands.contains source.instr.id

structure Edge (τ : Type) where
  target : NodeIndex
  latency : τ

structure Node (τ : Type) extends Site where
  position : Nat
  cost : τ
  uses : List (Resource × Usage)
  forceDelay : Bool
  /-- Longest chain of asynchronous latencies that leads here. -/
  asyncDepth : τ
  /-- Longest chain of costs and latencies that leads here. -/
  depth : τ
  readyTime : τ
  /-- Predecessors that are not yet scheduled. -/
  indegree : Nat := 0
  /-- Successors that are not yet scheduled. -/
  outdegree : Nat := 0
  scheduled : Bool := false
  predecessors : List (Edge τ) := []
  successors : List (Edge τ) := []

structure Graph (τ : Type) where
  computation : Computation
  nodes : List (Node τ)

namespace Graph

variable {τ : Type}

def size (g : Graph τ) : Nat := g.nodes.length

def node? (g : Graph τ) (n : NodeIndex) : Option (Node τ) := g.nodes[n]?

def modify (g : Graph τ) (n : NodeIndex) (f : Node τ → Node τ) : Graph τ :=
  { g with nodes := g.nodes.modify n f }

def index? (g : Graph τ) (id : InstrId) : Option NodeIndex :=
  g.nodes.findIdx? (·.instr.id == id)

/-- The fault that an instruction is not in the graph, by name if it has one. -/
def absent (c : Computation) (id : InstrId) : Fault :=
  match c.instruction? id with
  | some p => .unknownInstruction p.name c.name
  | none => .unknownId id c.name

def index (g : Graph τ) (id : InstrId) : Except Fault NodeIndex :=
  match g.index? id with
  | some n => .ok n
  | none => .error (absent g.computation id)

def order (g : Graph τ) : List InstrId := g.nodes.map (·.instr.id)

/-- Nodes without successors, where a schedule built from its end starts. -/
def bottom (g : Graph τ) : List NodeIndex :=
  (List.range g.size).filter fun n => (g.node? n).any (·.successors.isEmpty)

def pushEdge (g : Graph τ) (source sink : NodeIndex) (latency : τ) : Graph τ :=
  (g.modify source fun n => { n with
    successors := n.successors ++ [⟨sink, latency⟩], outdegree := n.outdegree + 1 }).modify
  sink fun n => { n with
    predecessors := n.predecessors ++ [⟨source, latency⟩], indegree := n.indegree + 1 }

def hasEdge (g : Graph τ) (source sink : NodeIndex) : Bool :=
  (g.node? source).any fun n => n.successors.any (·.target == sink)

end Graph

end LatencyHiding
