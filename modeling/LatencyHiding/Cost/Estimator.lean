import LatencyHiding.Cost.Profile
import LatencyHiding.Dependence.Basic
import LatencyHiding.Settings

set_option autoImplicit false

namespace LatencyHiding

structure Estimator (τ : Type) where
  cost : Instruction → τ
  /-- From the site that makes a value to one that needs it. -/
  latency : Site → Site → τ

namespace Estimator

variable {τ : Type}

def onNodes (estimator : Estimator τ) (source sink : Node τ) : τ :=
  estimator.latency source.toSite sink.toSite

variable [TimeScale τ]

open TimeScale

def lowCost : τ := ofCycles 1

def mediumCost : τ := ofCycles 1000

def lowLatency : τ := ofCycles 1

/-- About five instructions of medium cost fit into one asynchronous latency. -/
def highLatency : τ := ofCycles 5000

def approximate : Estimator τ where
  cost i := match i.opcode with
    | .fusion | .convolution | .dot | .customCall => mediumCost
    | _ => lowCost
  latency source sink := if source.isAsyncPair sink then highLatency else lowLatency

def isLibraryCall (i : Instruction) : Bool :=
  i.opcode == .customCall && i.customCallTarget.any fun target =>
    target == "__cublas$gemm" || target == "__cublas$lt$matmul" ||
      "__cudnn$conv".toList.isPrefixOf target.toList

/-- Of custom calls only library calls are costly, and synchronous collectives have no latency. -/
def gpu : Estimator τ where
  cost i :=
    if i.opcode = .customCall then if isLibraryCall i then mediumCost else lowCost
    else approximate.cost i
  latency source sink :=
    if source.instr.isSync then lowLatency else approximate.latency source sink

def ofPlatform : Platform → Estimator τ
  | .generic => approximate
  | .gpu => gpu

def measured (inner : Estimator τ) (profile : Profile τ) : Estimator τ where
  cost i := (profile.cost? i.name).getD (inner.cost i)
  latency source sink :=
    (profile.latency? source.instr.name sink.instr.name).getD (inner.latency source sink)

def select (settings : Settings) (profile : Option (Profile τ)) (fallback : Estimator τ) :
    Estimator τ :=
  match profile with
  | some p => if settings.useMeasuredTimes && !p.isEmpty then measured fallback p else fallback
  | none => fallback

end Estimator

end LatencyHiding
