import LatencyHiding.ListSchedule.Selection

set_option autoImplicit false

/-!
Building a schedule from its end, one node at a time. The clock runs backwards from the end of the
computation: a node is ready once everything after it is placed and the latencies in between have
passed.
-/

namespace LatencyHiding

structure ScheduleStep (τ : Type) where
  scheduled : InstrId
  time : τ
  reason : Reason
  feasible : Bool
  newlyReady : List InstrId

structure ComputationSchedule where
  sequence : List InstrId
  memory : PressureState

namespace ScheduleState

variable {τ : Type} [TimeScale τ]

open TimeScale

/-- Placing a done puts its resources in flight, and placing a start ends that. -/
def countUse (inFlight : KeyedList Resource Nat) (use : Resource × Usage) :
    KeyedList Resource Nat :=
  inFlight.alter use.1 0 fun n =>
    match use.2 with
    | .release => n + 1
    | .occupy => n - 1

/-- The same in counts of 32 bits, of which there is none that is large enough for one more. -/
def countUse? (inFlight : KeyedList Resource Nat) (use : Resource × Usage) :
    Option (KeyedList Resource Nat) :=
  if use.2 = .release ∧ UInt32.size ≤ inFlight.getD use.1 0 + 1 then none
  else some (countUse inFlight use)

def readyTimeOf (g : Graph τ) (n : Node τ) : τ :=
  latest zero <| n.successors.filterMap fun e =>
    (g.node? e.target).map fun successor => successor.readyTime + e.latency

def relieve (s : ScheduleState τ) (index : NodeIndex) : ScheduleState τ :=
  let graph := s.graph.modify index fun n => { n with outdegree := n.outdegree - 1 }
  match graph.node? index with
  | none => { s with graph }
  | some n =>
    if n.outdegree ≠ 0 then { s with graph }
    else
      { s with
        graph := graph.modify index fun n => { n with readyTime := readyTimeOf graph n }
        ready := s.ready ++ [index] }

def putWith (s : ScheduleState τ) (index : NodeIndex) (n : Node τ) (time : τ)
    (inFlight : KeyedList Resource Nat) (memory : LiveSet) : ScheduleState τ :=
  { s with
    graph := s.graph.modify index fun n => { n with readyTime := time, scheduled := true }
    time := time + n.cost
    ready := s.ready.filter (· ≠ index)
    placed := n.instr.id :: s.placed
    inFlight
    memory }

def put (s : ScheduleState τ) (index : NodeIndex) (n : Node τ) (time : τ) : ScheduleState τ :=
  s.putWith index n time (n.uses.foldl countUse s.inFlight) (s.memory.update n.instr)

def settleSuccessors (s : ScheduleState τ) (n : Node τ) : ScheduleState τ :=
  { s with
    graph := n.successors.foldl
      (fun g e => g.modify e.target fun m => { m with indegree := m.indegree - 1 }) s.graph }

/-- Time at which a node is placed: not before the clock, and not before it is ready. -/
def placingTime (s : ScheduleState τ) (n : Node τ) : τ := later s.time n.readyTime

def placeWith (s : ScheduleState τ) (index : NodeIndex) (n : Node τ)
    (inFlight : KeyedList Resource Nat) (memory : LiveSet) : ScheduleState τ :=
  (n.predecessors.map (·.target)).foldl relieve
    ((s.putWith index n (s.placingTime n) inFlight memory).settleSuccessors n)

def place (s : ScheduleState τ) (index : NodeIndex) (n : Node τ) : ScheduleState τ :=
  s.placeWith index n (n.uses.foldl countUse s.inFlight) (s.memory.update n.instr)

def place? (s : ScheduleState τ) (index : NodeIndex) (n : Node τ) : Option (ScheduleState τ) := do
  let inFlight ← n.uses.foldlM countUse? s.inFlight
  let memory ← s.memory.update? n.instr
  return s.placeWith index n inFlight memory

def newlyReady (before after : ScheduleState τ) : List InstrId :=
  (after.ready.filter (· ∉ before.ready)).filterMap fun i =>
    (after.graph.node? i).map (·.instr.id)

def stepTo (before after : ScheduleState τ) (best : Candidate τ) (reason : Reason) (n : Node τ) :
    ScheduleStep τ where
  scheduled := best.instr
  time := before.placingTime n
  reason
  feasible := best.feasible
  newlyReady := before.newlyReady after

end ScheduleState

namespace Scheduler

variable {τ : Type} [TimeScale τ]

def step? (s : Scheduler τ) (st : ScheduleState τ) : Option (ScheduleStep τ × ScheduleState τ) :=
  match s.best? st with
  | none => none
  | some (best, reason) =>
    match st.graph.node? best.node with
    | none => none
    | some n =>
      let next := st.place best.node n
      some (st.stepTo next best reason n, next)

def steps (s : Scheduler τ) : Nat → ScheduleState τ → List (ScheduleStep τ) × ScheduleState τ
  | 0, st => ([], st)
  | n + 1, st =>
    match s.step? st with
    | none => ([], st)
    | some (did, next) =>
      let (rest, final) := s.steps n next
      (did :: rest, final)

/-- No node is placed twice, so that as many steps as there are nodes leave nothing ready. -/
def drain (s : Scheduler τ) (st : ScheduleState τ) : ScheduleState τ :=
  (s.steps st.graph.size st).2

def finish (st : ScheduleState τ) : Except Fault ComputationSchedule :=
  if st.placed.length = st.graph.size then
    .ok { sequence := st.placed, memory := st.memory.state }
  else
    .error (.neverReady st.graph.computation.name (st.graph.size - st.placed.length))

def schedule (s : Scheduler τ) (c : Computation) (sequence : List InstrId) (m : Option Module)
    (pressure : Option Pressure) : Except Fault ComputationSchedule := do
  finish (s.drain (← s.start c sequence m pressure))

end Scheduler

end LatencyHiding
