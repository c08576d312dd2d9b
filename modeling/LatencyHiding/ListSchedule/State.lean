import LatencyHiding.Async.Occupancy
import LatencyHiding.Buffer.Replay
import LatencyHiding.Dependence.Build
import LatencyHiding.ListSchedule.Candidate

set_option autoImplicit false

namespace LatencyHiding

structure Scheduler (τ : Type) where
  estimator : Estimator τ
  tracker : AsyncTracker τ
  settings : Settings := {}
  rule : Option (PlatformRule τ) := none

structure ScheduleState (τ : Type) where
  graph : Graph τ
  ready : List NodeIndex
  limits : List (Resource × UInt32)
  inFlight : KeyedList Resource Nat := .empty
  /-- What is placed so far, in forward order. -/
  placed : List InstrId := []
  time : τ
  memory : LiveSet
  module : Option Module

namespace ScheduleState

variable {τ : Type}

def inFlightOf (s : ScheduleState τ) (r : Resource) : Nat := s.inFlight.getD r 0

/-- A resource without a limit of its own has the largest number there is. -/
def limitOf (s : ScheduleState τ) (r : Resource) : UInt32 :=
  ((s.limits.find? (·.1 = r)).map (·.2)).getD 0xFFFFFFFF

def isDone (s : ScheduleState τ) : Bool := s.ready.isEmpty

end ScheduleState

namespace Scheduler

variable {τ : Type} [TimeScale τ]

def start (s : Scheduler τ) (c : Computation) (sequence : List InstrId) (m : Option Module)
    (pressure : Option Pressure) : Except Fault (ScheduleState τ) := do
  let graph ← Graph.build c sequence s.estimator s.tracker
  let sizing := (pressure.map (·.sizing)).getD Shape.byteSize
  let live := ((pressure.bind (·.state? c.name)).map (·.liveAtBottom)).getD []
  return {
    graph
    ready := graph.bottom
    limits := s.tracker.limits
    time := TimeScale.zero
    memory := (LiveSet.ofComputation c sizing pressure).restart live 0
    module := m }

end Scheduler

end LatencyHiding
