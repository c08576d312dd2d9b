import LatencyHiding.Async.Resource
import LatencyHiding.Program.Computation
import LatencyHiding.Settings

set_option autoImplicit false

namespace LatencyHiding

structure OrderDemand (τ : Type) where
  first : InstrId
  second : InstrId
  latency : τ

structure AsyncTracker (τ : Type) where
  isStart : Instruction → Bool
  isDone : Instruction → Bool
  uses : Instruction → List (Resource × Usage)
  targetResources : Nat := 0
  capacity : Resource → UInt32
  demands : Computation → List (OrderDemand τ) := fun _ => []
  delays : Computation → Placed → Bool := fun _ _ => false

namespace AsyncTracker

def startSupported (s : Settings) (i : Instruction) : Bool :=
  match i.opcode with
  | .allReduceStart | .allGatherStart | .collectivePermuteStart | .copyStart => !i.isSync
  | .asyncStart => i.effectiveOpcode.isCollective && !i.isSync
  | .send | .recv => s.scheduleSendRecvs
  | .customCall => i.hint == some .earliest
  | _ => false

def doneSupported (s : Settings) (i : Instruction) : Bool :=
  match i.opcode with
  | .allReduceDone | .allGatherDone | .collectivePermuteDone | .copyDone => !i.isSync
  | .asyncDone => i.effectiveOpcode.isCollective && !i.isSync
  | .sendDone | .recvDone => s.scheduleSendRecvs
  | .customCall => i.hint == some .latest
  | _ => false

def resourceOf? (s : Settings) (i : Instruction) : Option Resource :=
  match i.effectiveOpcode with
  | .allReduce | .allReduceStart | .allReduceDone | .reduceScatter => some .allReduce
  | .allGather | .allGatherStart | .allGatherDone => some .allGather
  | .collectivePermute | .collectivePermuteStart | .collectivePermuteDone => some .collectivePermute
  | .allToAll => some .allToAll
  | .send | .sendDone => some (if i.isHostTransfer then .sendHost else .sendRecv)
  | .recv | .recvDone =>
    some (if i.isHostTransfer then
      if s.hostTransfersShareResource then .sendHost else .recvHost
    else .sendRecv)
  | _ => none

/-- A start occupies, a done releases, and nothing else does either. -/
def usage? (s : Settings) (i : Instruction) : Option Usage :=
  if startSupported s i then some .occupy
  else if doneSupported s i then some .release
  else none

def genericUses (s : Settings) (i : Instruction) : List (Resource × Usage) :=
  match usage? s i, resourceOf? s i with
  | some usage, some resource => [(resource, usage)]
  | _, _ => []

def genericCapacity (s : Settings) : Resource → UInt32
  | .unspecified => 0xFFFFFFFF
  | .collectivePermute => s.collectivePermuteOverlap
  | .allToAll => s.allToAllOverlap
  | .allGather => s.allGatherOverlap
  | .allReduce => s.allReduceOverlap
  | .sendRecv => s.sendRecvOverlap
  | .sendHost | .recvHost => s.sendRecvHostOverlap
  | .target _ => 1

variable {τ : Type}

def generic (s : Settings) : AsyncTracker τ where
  isStart := startSupported s
  isDone := doneSupported s
  uses := genericUses s
  capacity := genericCapacity s

def collectiveStream : Resource := .target 0

/-- In addition to its own resource, a collective uses the common stream. -/
def gpuUses (s : Settings) (i : Instruction) : List (Resource × Usage) :=
  match genericUses s i with
  | [] => []
  | (resource, usage) :: rest =>
    if i.effectiveOpcode.isSendRecv then (resource, usage) :: rest
    else (resource, usage) :: rest ++ [(collectiveStream, usage)]

def earliestKey : String := "force_earliest_schedule"

def gpu (s : Settings) : AsyncTracker τ where
  isStart := startSupported s
  isDone := doneSupported s
  uses := gpuUses s
  targetResources := 1
  capacity r := if r = collectiveStream then s.parallelCollectiveOverlap else genericCapacity s r
  delays _ p := p.flag earliestKey

def ofPlatform (s : Settings) : Platform → AsyncTracker τ
  | .generic => generic s
  | .gpu => gpu s

def limits (t : AsyncTracker τ) : List (Resource × UInt32) :=
  (Resource.limited ++ (List.range t.targetResources).map fun n => Resource.target n.toUInt32).map
    fun r => (r, t.capacity r)

def demanding (t : AsyncTracker τ) (computation : String) (demands : List (OrderDemand τ))
    (delayed : List InstrId) : AsyncTracker τ :=
  { t with
    demands := fun c => if c.name = computation then t.demands c ++ demands else t.demands c
    delays := fun c p => t.delays c p || (c.name == computation && delayed.contains p.id) }

end AsyncTracker

end LatencyHiding
