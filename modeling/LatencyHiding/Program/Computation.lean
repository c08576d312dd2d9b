import LatencyHiding.Fault
import LatencyHiding.Program.Instruction

set_option autoImplicit false

namespace LatencyHiding

structure Computation where
  name : String
  isEntry : Bool := false
  instructions : List Placed := []

instance : Inhabited Computation := ⟨{ name := "" }⟩

namespace Computation

def size (c : Computation) : Nat := c.instructions.length

def instruction? (c : Computation) (id : InstrId) : Option Placed := c.instructions[id]?

def find? (c : Computation) (name : String) : Option Placed :=
  c.instructions.find? (·.name == name)

def nameOf (c : Computation) (id : InstrId) : String :=
  ((c.instruction? id).map (·.name)).getD ""

def root? (c : Computation) : Option Placed := c.instructions.getLast?

def parameters (c : Computation) : List Placed := c.instructions.filter (·.opcode == .parameter)

def postOrder (c : Computation) : List InstrId := List.range c.size

def callees (c : Computation) : List String :=
  (c.instructions.flatMap (·.calls)).eraseDups

def link (id : InstrId) (i : Instruction) (p : Placed) : Placed :=
  { p with
    users := if p.id ∈ i.operands then p.users ++ [id] else p.users
    controlSuccessors :=
      if p.id ∈ i.controlPredecessors then p.controlSuccessors ++ [id] else p.controlSuccessors }

/-- Append an instruction, whose id is the old size. Its name has to be new, and what it depends on
has to be there already. -/
def add (c : Computation) (i : Instruction) : Except Fault Computation :=
  if (c.find? i.name).isSome then
    .error (.duplicateInstruction c.name i.name)
  else if i.inputs.any (c.size ≤ ·) then
    .error (.undefinedReference i.name c.name)
  else
    .ok { c with
      instructions := c.instructions.map (link c.size i) ++ [{ i with id := c.size }] }

end Computation

end LatencyHiding
