import LatencyHiding.Floating
import LatencyHiding.ListSchedule.Basic
import LatencyHiding.ModuleFile.Basic
import LatencyHiding.Timing

set_option autoImplicit false

namespace LatencyHiding

structure Summary (τ : Type) where
  statistics : List (Statistics τ) := []
  memoryPeak : UInt64 := 0
  changedComputations : Nat := 0

namespace Summary

variable {τ : Type}

def changed (s : Summary τ) : Bool := 0 < s.changedComputations

def statisticsFor? (s : Summary τ) (computation : String) : Option (Statistics τ) :=
  s.statistics.find? (·.computation == computation)

end Summary

structure Pass (τ : Type) where
  scheduler : Scheduler τ
  mode : Mode := .latencyHiding
  sizing : Shape.Sizing := Shape.byteSize

namespace Pass

variable {τ : Type} [TimeScale τ]

def scheduleComputation (p : Pass τ) (m : Module) (pressure : Pressure) (c : Computation)
    (sequence : List InstrId) : Except Fault ComputationSchedule := do
  let floated ← if p.mode.floatsEarlyLate then c.float sequence else pure sequence
  if p.mode.hidesLatency then
    p.scheduler.schedule c floated (some m) (some pressure)
  else
    return { sequence := floated, memory := c.replay floated p.sizing (some pressure) }

structure Progress (τ : Type) where
  pressure : Pressure
  schedule : Schedule := .empty
  statistics : List (Statistics τ) := []
  changedComputations : Nat := 0

def Progress.next (now : Progress τ) (c : Computation) (before sequence : List InstrId)
    (pressure : Pressure) (statistics : Statistics τ) : Progress τ where
  pressure
  schedule := now.schedule.set c.name sequence
  statistics := now.statistics ++ [statistics]
  changedComputations :=
    if sequence = before then now.changedComputations else now.changedComputations + 1

def advance (p : Pass τ) (m : Module) (base : Schedule) (now : Progress τ) (c : Computation) :
    Except Fault (Progress τ) := do
  let before := Module.orderIn base c
  let result ← p.scheduleComputation m now.pressure c before
  c.checkOrder result.sequence
  let pressure := now.pressure.record c.name result.memory
  let statistics ← c.statistics result.sequence p.scheduler.estimator p.scheduler.tracker p.sizing
    (some pressure)
  return now.next c before result.sequence pressure statistics

/-- What a pass starts from: nothing is scheduled, and callers are told of the present order. -/
def initial (p : Pass τ) (m : Module) : Progress τ where
  pressure := .ofSchedule p.sizing m m.currentSchedule

def complete (p : Pass τ) (m : Module) : Except Fault (Progress τ) :=
  m.calleeFirst.foldlM (p.advance m m.currentSchedule) (p.initial m)

def Progress.summary (done : Progress τ) : Summary τ where
  statistics := done.statistics
  memoryPeak := done.pressure.peak
  changedComputations := done.changedComputations

def plan (p : Pass τ) (m : Module) : Except Fault (Schedule × Summary τ) :=
  (p.complete m).map fun done => (done.schedule, done.summary)

def run (p : Pass τ) (m : Module) : Except Fault (Module × Summary τ) := do
  let (schedule, summary) ← p.plan m
  return (← m.setSchedule schedule, summary)

end Pass

namespace Module

/-- Bytes left for temporaries: so many percent of the device memory, less what the parameters and
the result of the entry take. -/
def deviceMemoryLimit (m : Module) (deviceBytes : UInt64) (slopPercent : UInt32) : UInt64 :=
  let parameters := Bytes.total (m.entry.parameters.map (·.shape.totalSize Shape.byteSize))
  let result := (m.entry.root?.map (·.shape.totalSize Shape.byteSize)).getD 0
  Bytes.subStopping (Bytes.mulStopping deviceBytes slopPercent.toUInt64 / 100) (parameters + result)

def deviceMemoryLimit? (m : Module) (deviceBytes : UInt64) (slopPercent : UInt32) :
    Option UInt64 := do
  let parameters ← Bytes.total? (← m.entry.parameters.mapM (·.shape.totalSize? Shape.byteSize))
  let result ← (m.entry.root?.map (·.shape.totalSize? Shape.byteSize)).getD (some 0)
  return Bytes.subStopping (Bytes.mulStopping deviceBytes slopPercent.toUInt64 / 100)
    (← Bytes.add? parameters result)

end Module

namespace Pass

variable {τ : Type} [TimeScale τ]

/-- A pass for a GPU on which a computation may use so much memory. Without latency hiding orders are
only floated. -/
def withinMemory (memoryLimit : UInt64) (settings : Settings) (device : DeviceSettings) (mode : Mode)
    (profile : Option (Profile τ)) : Pass τ :=
  let settings := { settings with memoryLimit }
  { scheduler := {
      estimator := Estimator.select settings profile .gpu
      tracker := .gpu settings
      settings }
    mode := if device.hideLatency then mode else .earlyLate }

def forDevice (m : Module) (settings : Settings) (device : DeviceSettings) (mode : Mode)
    (profile : Option (Profile τ)) : Pass τ :=
  withinMemory (m.deviceMemoryLimit device.memoryBytes device.slopPercent) settings device mode
    profile

def forDevice? (m : Module) (settings : Settings) (device : DeviceSettings) (mode : Mode)
    (profile : Option (Profile τ)) : Option (Pass τ) :=
  (m.deviceMemoryLimit? device.memoryBytes device.slopPercent).map fun memoryLimit =>
    withinMemory memoryLimit settings device mode profile

def forGeneric (settings : Settings) (mode : Mode) (profile : Option (Profile τ)) : Pass τ where
  scheduler := {
    estimator := Estimator.select settings profile .approximate
    tracker := .generic settings
    settings }
  mode

end Pass

def ModuleFile.pass? (f : ModuleFile) : Option (Pass Float) :=
  match f.platform with
  | .generic => some (.forGeneric f.settings f.mode f.profile)
  | .gpu => Pass.forDevice? f.module f.settings f.device f.mode f.profile

end LatencyHiding
