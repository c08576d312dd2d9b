import LatencyHiding.Pass

set_option autoImplicit false

/-!
Building a schedule in numbers that have a range. An engine does what a scheduler does, step by step,
except that there is no answer once a sum leaves its range, and that what calls hold is counted by
someone who takes notes. Latencies may depend on all that a node has, and neither limits nor counts
need be those of the tracker.
-/

namespace LatencyHiding

open AsyncTracker (Counting OccupierMemo)

/-- Work that can end in a fault, with notes. There is no answer once a number leaves its range. -/
abbrev Recalling (σ : Type) := ExceptT Fault (Counting σ)

namespace Recalling

variable {σ α : Type}

def on (work : Recalling σ α) (notes : σ) : Option (Except Fault α) × σ := work.run.run.run notes

def report (outcome : Option (Except Fault α)) : Recalling σ α := .mk (.mk (pure outcome))

def check (value : Option α) : Recalling σ α := report (value.map .ok)

end Recalling

structure Engine (τ σ : Type) extends Pass τ where
  latency : Node τ → Node τ → τ := scheduler.estimator.onNodes
  limits : List (Resource × UInt32) := scheduler.tracker.limits
  unitsHeld : Resource → Instruction → Option Module → Counting σ UInt32

def Pass.engine {τ : Type} (p : Pass τ) : Engine τ OccupierMemo where
  toPass := p
  unitsHeld := p.scheduler.tracker.checkedUnitsHeld p.scheduler.tracker.recalled

namespace Engine

variable {τ σ : Type} [TimeScale τ]

open Recalling (check report)

/-- The graph comes first: what is wrong with the order is found before bytes are summed. -/
def start (e : Engine τ σ) (c : Computation) (sequence : List InstrId) (m : Option Module)
    (pressure : Option Pressure) : Recalling σ (ScheduleState τ) := do
  let graph ← report
    (some (Graph.buildWith e.latency c sequence e.scheduler.estimator e.scheduler.tracker))
  let sizing := (pressure.map (·.sizing)).getD Shape.byteSize
  let live := ((pressure.bind (·.state? c.name)).map (·.liveAtBottom)).getD []
  let memory ← check ((LiveSet.ofComputation c sizing pressure).restart? live 0)
  return {
    graph
    ready := graph.bottom
    limits := e.limits
    time := TimeScale.zero
    memory
    module := m }

/-- The first limit that is exceeded decides, and nothing is counted for those behind it. -/
def callsFit (e : Engine τ σ) (st : ScheduleState τ) (n : Node τ) : Counting σ Bool :=
  st.limits.allM fun (r, limit) => do
    let needed ← e.unitsHeld r n.instr.toInstruction st.module
    return Scheduler.unitsFit st r needed limit

def isFeasible (e : Engine τ σ) (st : ScheduleState τ) (n : Node τ) : Recalling σ Bool := do
  let fits ← check (Scheduler.releasesFit? st n)
  if !fits then pure false
  else if n.instr.calls.isEmpty || !n.uses.isEmpty then pure true
  else ExceptT.lift (e.callsFit st n)

def candidate (e : Engine τ σ) (st : ScheduleState τ) (entry : NodeIndex × Node τ) :
    Recalling σ (Candidate τ) := do
  let feasible ← e.isFeasible st entry.2
  let memory ← check (st.memory.effect? entry.2.instr)
  return .ofNode entry.1 entry.2 feasible memory

def candidates (e : Engine τ σ) (st : ScheduleState τ) : Recalling σ (List (Candidate τ)) :=
  (st.ready.filterMap fun index => (st.graph.node? index).map (index, ·)).mapM (e.candidate st)

def best? (e : Engine τ σ) (st : ScheduleState τ) : Recalling σ (Option (Candidate τ × Reason)) := do
  let all ← e.candidates st
  return e.scheduler.winner? st (Candidate.shortlist all)

def step? (e : Engine τ σ) (st : ScheduleState τ) :
    Recalling σ (Option (ScheduleStep τ × ScheduleState τ)) := do
  match ← e.best? st with
  | none => return none
  | some (best, reason) =>
    match st.graph.node? best.node with
    | none => return none
    | some n =>
      let next ← check (st.place? best.node n)
      return some (st.stepTo next best reason n, next)

def steps (e : Engine τ σ) :
    Nat → ScheduleState τ → Recalling σ (List (ScheduleStep τ) × ScheduleState τ)
  | 0, st => return ([], st)
  | n + 1, st => do
    match ← e.step? st with
    | none => return ([], st)
    | some (did, next) =>
      let (rest, final) ← e.steps n next
      return (did :: rest, final)

def drain (e : Engine τ σ) (st : ScheduleState τ) : Recalling σ (ScheduleState τ) := do
  return (← e.steps st.graph.size st).2

def schedule (e : Engine τ σ) (c : Computation) (sequence : List InstrId) (m : Option Module)
    (pressure : Option Pressure) : Recalling σ ComputationSchedule := do
  let start ← e.start c sequence m pressure
  let final ← e.drain start
  report (some (Scheduler.finish final))

end Engine

end LatencyHiding
