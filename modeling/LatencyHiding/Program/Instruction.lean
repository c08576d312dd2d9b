import LatencyHiding.KeyedList
import LatencyHiding.Program.Opcode
import LatencyHiding.Program.Shape

set_option autoImplicit false

namespace LatencyHiding

abbrev InstrId := Nat

inductive Hint where
  | earliest | latest
  deriving DecidableEq

namespace Hint

def name : Hint → String
  | .earliest => "earliest"
  | .latest => "latest"

def ofName? : String → Option Hint
  | "earliest" => some .earliest
  | "latest" => some .latest
  | _ => none

theorem ofName?_name (hint : Hint) : ofName? hint.name = some hint := by cases hint <;> rfl

end Hint

structure Instruction where
  name : String
  opcode : Opcode
  shape : Shape
  operands : List InstrId := []
  controlPredecessors : List InstrId := []
  calls : List String := []
  customCallTarget : Option String := none
  hint : Option Hint := none
  /-- For `async-start` and `async-done`: the operation that runs asynchronously. -/
  wrapped : Option Opcode := none
  /-- For `get-tuple-element`. -/
  tupleIndex : Option Nat := none
  attributes : KeyedList String String := .empty

namespace Instruction

def inputs (i : Instruction) : List InstrId := i.operands ++ i.controlPredecessors

/-- The attribute is present and says `true`, in letters of either case and between blanks. -/
def flag (i : Instruction) (key : String) : Bool :=
  match i.attributes.get? key with
  | some value => (Text.trimList value.toList).map Char.toLower == ['t', 'r', 'u', 'e']
  | none => false

def syncKey : String := "is_sync"

def hostTransferKey : String := "is_host_transfer"

def isSync (i : Instruction) : Bool := i.flag syncKey

def isHostTransfer (i : Instruction) : Bool := i.flag hostTransferKey

def isCustomCallHinted (i : Instruction) (hint : Hint) : Bool :=
  i.opcode == .customCall && i.hint == some hint

/-- The operation that decides which resource is held while this one is in flight. -/
def effectiveOpcode (i : Instruction) : Opcode :=
  match i.opcode with
  | .asyncStart | .asyncDone => i.wrapped.getD i.opcode
  | op => op

end Instruction

structure Placed extends Instruction where
  id : InstrId
  users : List InstrId := []
  controlSuccessors : List InstrId := []

def Placed.outputs (p : Placed) : List InstrId := p.users ++ p.controlSuccessors

end LatencyHiding
