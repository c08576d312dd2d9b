import LatencyHiding.Cost.Profile
import LatencyHiding.Program.Instruction
import LatencyHiding.Settings

set_option autoImplicit false

namespace LatencyHiding

structure InstructionDecl where
  name : String
  opcode : Opcode
  shape : Shape := .array 0
  operands : List String := []
  controlPredecessors : List String := []
  calls : List String := []
  customCallTarget : Option String := none
  hint : Option Hint := none
  tupleIndex : Option Nat := none
  attributes : KeyedList String String := .empty

def InstructionDecl.inputs (i : InstructionDecl) : List String := i.operands ++ i.controlPredecessors

structure ComputationDecl where
  name : String
  schedule : Option (List String) := none
  instructions : List InstructionDecl := []

structure ModuleDecl where
  name : String
  /-- The last computation is the entry if none is named. -/
  entry : Option String := none
  mode : Mode := .latencyHiding
  platform : Platform := .generic
  settings : Settings := {}
  device : DeviceSettings := {}
  profile : Option (Profile Float) := none
  computations : List ComputationDecl := []

end LatencyHiding
