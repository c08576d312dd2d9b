import LatencyHiding.Document.Json
import LatencyHiding.Document.Section
import LatencyHiding.Document.Toml.Text
import LatencyHiding.ModuleFile.Declaration

set_option autoImplicit false

namespace LatencyHiding

open Document

mutual

/-- A shape is a number of bytes, or a list of shapes for a tuple. -/
def Shape.ofDocument? : Document → Option Shape
  | .integer n => (uint64? (.integer n)).map .array
  | .list items => (Shape.ofDocuments? items).map .tuple
  | _ => none

def Shape.ofDocuments? : List Document → Option (List Shape)
  | [] => some []
  | d :: rest => do
    let shape ← Shape.ofDocument? d
    let shapes ← Shape.ofDocuments? rest
    return shape :: shapes

end

def Opcode.ofDocument? (d : Document) : Option Opcode :=
  (text? d).bind fun s => (Opcode.ofText s).toOption

def Settings.fieldNames : List String :=
  (Settings.limits {}).map Prod.fst ++ (Settings.switches {}).map Prod.fst ++ ["memory_limit"]

def Settings.ofDocument? (dialect : Dialect) (d : Document) : Option Settings := do
  let s ← section? dialect fieldNames d
  let limit name := s.optional name 1 uint32?
  let switch name := s.optional name false bool?
  return {
    collectivePermuteOverlap := ← limit "collective_permute_overlap_limit"
    allToAllOverlap := ← limit "all_to_all_overlap_limit"
    allGatherOverlap := ← limit "all_gather_overlap_limit"
    allReduceOverlap := ← limit "all_reduce_overlap_limit"
    sendRecvOverlap := ← limit "send_recv_overlap_limit"
    sendRecvHostOverlap := ← limit "send_recv_host_overlap_limit"
    parallelCollectiveOverlap := ← limit "parallel_collective_overlap_limit"
    scheduleSendRecvs := ← switch "schedule_send_recvs"
    hostTransfersShareResource := ← switch "force_send_recv_to_use_same_resource"
    useMeasuredTimes := ← switch "use_real_cost_model"
    aggressive := ← switch "aggressive_scheduling_policies"
    memoryLimit := ← s.optional "memory_limit" Settings.unlimitedMemory uint64? }

def DeviceSettings.ofDocument? (dialect : Dialect) (d : Document) : Option DeviceSettings := do
  let s ← section? dialect
    ["device_memory_bytes", "memory_limit_slop_percent", "enable_latency_hiding_scheduler"] d
  return {
    memoryBytes := ← s.optional "device_memory_bytes" (16 * 1024 * 1024 * 1024) uint64?
    slopPercent := ← s.optional "memory_limit_slop_percent" 95 uint32?
    hideLatency := ← s.optional "enable_latency_hiding_scheduler" true bool? }

namespace Profile

def latencyOfDocument? (dialect : Dialect) (d : Document) : Option (String × String × Float) := do
  let s ← section? dialect ["from", "to", "latency_us"] d
  let source ← s.required "from" text?
  let sink ← s.required "to" text?
  let latency ← s.required "latency_us" float?
  return (source, sink, latency)

/-- Times are given in microseconds, and one cycle takes one microsecond. -/
def ofDocument? (dialect : Dialect) (d : Document) : Option (Profile Float) := do
  let s ← section? dialect ["costs", "latencies"] d
  let costs ← s.optional "costs" [] (tableOf? float?)
  let latencies ← s.optional "latencies" [] (listOf? (latencyOfDocument? dialect))
  return ofLists costs latencies

end Profile

def attributes? (d : Document) : Option (KeyedList String String) :=
  (tableOf? text? d).map KeyedList.ofList

def InstructionDecl.ofDocument? (dialect : Dialect) (d : Document) : Option InstructionDecl := do
  let s ← section? dialect ["name", "opcode", "shape", "operands", "control_predecessors", "calls",
    "custom_call_target", "schedule", "tuple_index", "attributes"] d
  return {
    name := ← s.required "name" text?
    opcode := ← s.required "opcode" Opcode.ofDocument?
    shape := ← s.optional "shape" (.array 0) Shape.ofDocument?
    operands := ← s.optional "operands" [] (listOf? text?)
    controlPredecessors := ← s.optional "control_predecessors" [] (listOf? text?)
    calls := ← s.optional "calls" [] (listOf? text?)
    customCallTarget := ← s.optional "custom_call_target" none (nullable text?)
    hint := ← s.optional "schedule" none (nullable (choice? dialect Hint.ofName?))
    tupleIndex := ← s.optional "tuple_index" none (nullable (natBelow? UInt64.size))
    attributes := ← s.optional "attributes" .empty attributes? }

def ComputationDecl.ofDocument? (dialect : Dialect) (d : Document) : Option ComputationDecl := do
  let s ← section? dialect ["name", "schedule", "instruction"] d
  return {
    name := ← s.required "name" text?
    schedule := ← s.optional "schedule" none (nullable (listOf? text?))
    instructions := ← s.optional "instruction" [] (listOf? (InstructionDecl.ofDocument? dialect)) }

namespace ModuleDecl

def headOfDocument? (dialect : Dialect) (d : Document) : Option ModuleDecl := do
  let s ← section? dialect ["name", "entry", "mode", "target"] d
  return {
    name := ← s.required "name" text?
    entry := ← s.optional "entry" none (nullable text?)
    mode := ← s.optional "mode" .latencyHiding (choice? dialect Mode.ofName?)
    platform := ← s.optional "target" .generic (choice? dialect Platform.ofName?) }

def ofDocument? (dialect : Dialect) (d : Document) : Option ModuleDecl := do
  let s ← section? dialect ["module", "scheduler", "gpu", "profile", "computation"] d
  let head ← s.required "module" (headOfDocument? dialect)
  return { head with
    settings := ← s.optional "scheduler" {} (Settings.ofDocument? dialect)
    device := ← s.optional "gpu" {} (DeviceSettings.ofDocument? dialect)
    profile := ← s.optional "profile" none (nullable (Profile.ofDocument? dialect))
    computations := ← s.optional "computation" [] (listOf? (ComputationDecl.ofDocument? dialect)) }

def ofToml? (text : String) : Option ModuleDecl :=
  (Document.ofToml? text).bind (ofDocument? .toml)

end ModuleDecl

end LatencyHiding
