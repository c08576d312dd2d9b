import LatencyHiding.Buffer.Replay
import LatencyHiding.Dependence.Build

set_option autoImplicit false

namespace LatencyHiding

structure Statistics (τ : Type) where
  computation : String
  wasted : KeyedList Resource τ
  totalCycles : τ
  memoryPeak : UInt64

def Statistics.totalWasted {τ : Type} [TimeScale τ] (s : Statistics τ) : τ :=
  TimeScale.sum s.wasted.values

namespace Timing

structure Machine (τ : Type) where
  time : τ
  finished : List τ := []
  wasted : KeyedList Resource τ := .empty

variable {τ : Type} [TimeScale τ]

open TimeScale

def chargedTo (n : Node τ) : Resource :=
  ((n.uses.find? (·.2 = .release)).map (·.1)).getD .unspecified

/-- Wait for one start, if it is one and has run. -/
def await (g : Graph τ) (n : Node τ) (m : Machine τ) (e : Edge τ) : Machine τ :=
  match g.node? e.target, m.finished[e.target]? with
  | some start, some started =>
    if start.isAsyncPair n.toSite then
      let wait := later (e.latency - (m.time - started)) zero
      { m with
        time := m.time + wait
        wasted := m.wasted.alter (chargedTo n) zero (· + wait) }
    else m
  | _, _ => m

def execute (g : Graph τ) (m : Machine τ) (n : Node τ) : Machine τ :=
  let waited := if n.isDone then n.predecessors.foldl (await g n) m else m
  let time := waited.time + n.cost
  { waited with time, finished := waited.finished ++ [time] }

def run (g : Graph τ) : Machine τ := g.nodes.foldl (execute g) { time := zero }

end Timing

namespace Computation

variable {τ : Type} [TimeScale τ]

def statisticsOf (c : Computation) (g : Graph τ) (memoryPeak : UInt64) : Statistics τ :=
  let machine := Timing.run g
  { computation := c.name
    wasted := machine.wasted
    totalCycles := machine.time
    memoryPeak }

def statistics (c : Computation) (sequence : List InstrId) (estimator : Estimator τ)
    (tracker : AsyncTracker τ) (sizing : Shape.Sizing) (pressure : Option Pressure) :
    Except Fault (Statistics τ) := do
  let g ← Graph.build c sequence estimator tracker
  return c.statisticsOf g (c.memoryPeak sequence sizing pressure)

/-- With a latency between nodes, and every sum of bytes checked. The graph comes first. -/
def statistics? (c : Computation) (sequence : List InstrId) (latency : Node τ → Node τ → τ)
    (estimator : Estimator τ) (tracker : AsyncTracker τ) (sizing : Shape.Sizing)
    (pressure : Option Pressure) : Option (Except Fault (Statistics τ)) :=
  match Graph.buildWith latency c sequence estimator tracker with
  | .error fault => some (.error fault)
  | .ok g => (c.memoryPeak? sequence sizing pressure).map fun peak => .ok (c.statisticsOf g peak)

end Computation

end LatencyHiding
