import LatencyHiding.Engine.Basic

set_option autoImplicit false

namespace LatencyHiding

namespace Engine

variable {τ σ : Type} [TimeScale τ]

open Recalling (check report)

def scheduleComputation (e : Engine τ σ) (m : Module) (pressure : Pressure) (c : Computation)
    (sequence : List InstrId) : Recalling σ ComputationSchedule := do
  let floated ← report (some (if e.mode.floatsEarlyLate then c.float sequence else .ok sequence))
  if e.mode.hidesLatency then
    e.schedule c floated (some m) (some pressure)
  else
    let memory ← check (c.replay? floated e.sizing (some pressure))
    return { sequence := floated, memory }

def advance (e : Engine τ σ) (m : Module) (base : Schedule) (now : Pass.Progress τ)
    (c : Computation) : Recalling σ (Pass.Progress τ) := do
  let before := Module.orderIn base c
  let result ← e.scheduleComputation m now.pressure c before
  report (some (c.checkOrder result.sequence))
  let pressure := now.pressure.record c.name result.memory
  let statistics ← report (c.statistics? result.sequence e.latency e.scheduler.estimator
    e.scheduler.tracker e.sizing (some pressure))
  return now.next c before result.sequence pressure statistics

def complete (e : Engine τ σ) (m : Module) : Recalling σ (Pass.Progress τ) := do
  let pressure ← check (Pressure.ofSchedule? e.sizing m m.currentSchedule)
  m.calleeFirst.foldlM (e.advance m m.currentSchedule) { pressure }

def plan (e : Engine τ σ) (m : Module) : Recalling σ (Schedule × Summary τ) := do
  let done ← e.complete m
  return (done.schedule, done.summary)

def run (e : Engine τ σ) (m : Module) : Recalling σ (Module × Summary τ) := do
  let (schedule, summary) ← e.plan m
  return (← report (some (m.setSchedule schedule)), summary)

end Engine

def ModuleFile.schedule (f : ModuleFile) : Option (Except Fault (ModuleFile × Summary Float)) := do
  let p ← f.pass?
  let outcome ← ((p.engine.run f.module).on []).1
  return outcome.map fun (m, summary) => ({ f with module := m }, summary)

end LatencyHiding
