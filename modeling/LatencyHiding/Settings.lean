import LatencyHiding.Text.Blank
import LatencyHiding.Text.Lowercase

set_option autoImplicit false

namespace LatencyHiding

inductive Mode where
  | latencyHiding | earlyLate | both
  deriving DecidableEq

namespace Mode

def name : Mode → String
  | .latencyHiding => "latency-hiding"
  | .earlyLate => "early-late"
  | .both => "both"

def ofName? : String → Option Mode
  | "latency-hiding" => some .latencyHiding
  | "early-late" => some .earlyLate
  | "both" => some .both
  | _ => none

theorem ofName?_name (mode : Mode) : ofName? mode.name = some mode := by cases mode <;> rfl

def refusal (text : String) : String :=
  s!"invalid mode: {text} (expected \"latency-hiding\", \"early-late\" or \"both\")"

/-- Read a mode, for which `lhs` is a second name; a text that is none gives the refusal. -/
def ofText (text : String) : Except String Mode :=
  let word := Text.lowercase (Text.trim text)
  match if word = "lhs" then some .latencyHiding else ofName? word with
  | some mode => .ok mode
  | none => .error (refusal word)

def hidesLatency : Mode → Bool
  | .latencyHiding | .both => true
  | .earlyLate => false

def floatsEarlyLate : Mode → Bool
  | .earlyLate | .both => true
  | .latencyHiding => false

end Mode

inductive Platform where
  | generic | gpu
  deriving DecidableEq

namespace Platform

def name : Platform → String
  | .generic => "generic"
  | .gpu => "gpu"

def ofName? : String → Option Platform
  | "generic" => some .generic
  | "gpu" => some .gpu
  | _ => none

theorem ofName?_name (platform : Platform) : ofName? platform.name = some platform := by
  cases platform <;> rfl

def refusal (text : String) : String :=
  s!"invalid target: {text} (expected \"generic\" or \"gpu\")"

def ofText (text : String) : Except String Platform :=
  let word := Text.lowercase (Text.trim text)
  match ofName? word with
  | some platform => .ok platform
  | none => .error (refusal word)

end Platform

structure Settings where
  collectivePermuteOverlap : UInt32 := 1
  allToAllOverlap : UInt32 := 1
  allGatherOverlap : UInt32 := 1
  allReduceOverlap : UInt32 := 1
  sendRecvOverlap : UInt32 := 1
  sendRecvHostOverlap : UInt32 := 1
  parallelCollectiveOverlap : UInt32 := 1
  scheduleSendRecvs : Bool := false
  /-- Receives from the host share the resource of sends to the host. -/
  hostTransfersShareResource : Bool := false
  useMeasuredTimes : Bool := false
  aggressive : Bool := false
  /-- The largest value means that memory is not limited. -/
  memoryLimit : UInt64 := 0xFFFFFFFFFFFFFFFF
  deriving DecidableEq

namespace Settings

def unlimitedMemory : UInt64 := 0xFFFFFFFFFFFFFFFF

def limits (s : Settings) : List (String × UInt32) := [
  ("collective_permute_overlap_limit", s.collectivePermuteOverlap),
  ("all_to_all_overlap_limit", s.allToAllOverlap),
  ("all_gather_overlap_limit", s.allGatherOverlap),
  ("all_reduce_overlap_limit", s.allReduceOverlap),
  ("send_recv_overlap_limit", s.sendRecvOverlap),
  ("send_recv_host_overlap_limit", s.sendRecvHostOverlap),
  ("parallel_collective_overlap_limit", s.parallelCollectiveOverlap)]

def switches (s : Settings) : List (String × Bool) := [
  ("schedule_send_recvs", s.scheduleSendRecvs),
  ("force_send_recv_to_use_same_resource", s.hostTransfersShareResource),
  ("use_real_cost_model", s.useMeasuredTimes),
  ("aggressive_scheduling_policies", s.aggressive)]

end Settings

structure DeviceSettings where
  memoryBytes : UInt64 := 16 * 1024 * 1024 * 1024
  /-- Percentage of the device memory that may be planned for. -/
  slopPercent : UInt32 := 95
  hideLatency : Bool := true
  deriving DecidableEq

end LatencyHiding
