import LatencyHiding.Text.Blank

set_option autoImplicit false

namespace LatencyHiding

inductive Opcode where
  | parameter | constant | add | subtract | multiply | divide | negate | exponential | tanh
  | maximum | compare | select | broadcast | reshape | transpose | slice | dynamicSlice
  | dynamicUpdateSlice | concatenate | reduce | convolution | dot | fusion | customCall | tuple
  | getTupleElement | bitcast | copy | copyStart | copyDone | whileLoop | conditional | call
  | allGather | allGatherStart | allGatherDone | allReduce | allReduceStart | allReduceDone
  | allToAll | reduceScatter | collectivePermute | collectivePermuteStart
  | collectivePermuteDone | asyncStart | asyncDone | send | sendDone | recv | recvDone
  deriving DecidableEq

namespace Opcode

def all : List Opcode := [
  .parameter, .constant, .add, .subtract, .multiply, .divide, .negate, .exponential, .tanh,
  .maximum, .compare, .select, .broadcast, .reshape, .transpose, .slice, .dynamicSlice,
  .dynamicUpdateSlice, .concatenate, .reduce, .convolution, .dot, .fusion, .customCall, .tuple,
  .getTupleElement, .bitcast, .copy, .copyStart, .copyDone, .whileLoop, .conditional, .call,
  .allGather, .allGatherStart, .allGatherDone, .allReduce, .allReduceStart, .allReduceDone,
  .allToAll, .reduceScatter, .collectivePermute, .collectivePermuteStart,
  .collectivePermuteDone, .asyncStart, .asyncDone, .send, .sendDone, .recv, .recvDone]

def name : Opcode → String
  | .parameter => "parameter"
  | .constant => "constant"
  | .add => "add"
  | .subtract => "subtract"
  | .multiply => "multiply"
  | .divide => "divide"
  | .negate => "negate"
  | .exponential => "exponential"
  | .tanh => "tanh"
  | .maximum => "maximum"
  | .compare => "compare"
  | .select => "select"
  | .broadcast => "broadcast"
  | .reshape => "reshape"
  | .transpose => "transpose"
  | .slice => "slice"
  | .dynamicSlice => "dynamic-slice"
  | .dynamicUpdateSlice => "dynamic-update-slice"
  | .concatenate => "concatenate"
  | .reduce => "reduce"
  | .convolution => "convolution"
  | .dot => "dot"
  | .fusion => "fusion"
  | .customCall => "custom-call"
  | .tuple => "tuple"
  | .getTupleElement => "get-tuple-element"
  | .bitcast => "bitcast"
  | .copy => "copy"
  | .copyStart => "copy-start"
  | .copyDone => "copy-done"
  | .whileLoop => "while"
  | .conditional => "conditional"
  | .call => "call"
  | .allGather => "all-gather"
  | .allGatherStart => "all-gather-start"
  | .allGatherDone => "all-gather-done"
  | .allReduce => "all-reduce"
  | .allReduceStart => "all-reduce-start"
  | .allReduceDone => "all-reduce-done"
  | .allToAll => "all-to-all"
  | .reduceScatter => "reduce-scatter"
  | .collectivePermute => "collective-permute"
  | .collectivePermuteStart => "collective-permute-start"
  | .collectivePermuteDone => "collective-permute-done"
  | .asyncStart => "async-start"
  | .asyncDone => "async-done"
  | .send => "send"
  | .sendDone => "send-done"
  | .recv => "recv"
  | .recvDone => "recv-done"

theorem mem_all (op : Opcode) : op ∈ all := by cases op <;> decide

def ofName? (name : String) : Option Opcode := all.find? (·.name == name)

def refusal (name : String) : String := s!"unknown opcode: {name}"

def ofText (text : String) : Except String Opcode :=
  let name := Text.trim text
  match ofName? name with
  | some op => .ok op
  | none => .error (refusal name)

def isAsyncStart : Opcode → Bool
  | .allGatherStart | .allReduceStart | .collectivePermuteStart | .asyncStart | .copyStart
  | .send | .recv => true
  | _ => false

def isAsyncDone : Opcode → Bool
  | .allGatherDone | .allReduceDone | .collectivePermuteDone | .asyncDone | .copyDone
  | .sendDone | .recvDone => true
  | _ => false

def isCollective : Opcode → Bool
  | .allGather | .allGatherStart | .allGatherDone
  | .allReduce | .allReduceStart | .allReduceDone
  | .allToAll | .reduceScatter
  | .collectivePermute | .collectivePermuteStart | .collectivePermuteDone => true
  | _ => false

def isSendRecv : Opcode → Bool
  | .send | .sendDone | .recv | .recvDone => true
  | _ => false

def isPassThrough : Opcode → Bool
  | .getTupleElement | .bitcast => true
  | _ => false

end Opcode

end LatencyHiding
