import LatencyHiding.Program.Computation

set_option autoImplicit false

namespace LatencyHiding

abbrev BufferId := Nat

structure Buffer where
  definedBy : InstrId
  index : Shape.Path
  shape : Shape

abbrev Position := Shape.Path × BufferId

structure Aliasing where
  buffers : List Buffer := []
  outputs : List (List Position) := []

namespace Aliasing

def buffer? (a : Aliasing) (id : BufferId) : Option Buffer := a.buffers[id]?

def outputsOf (a : Aliasing) (id : InstrId) : List Position := (a.outputs[id]?).getD []

/-- Positions inside element `k` of an output, seen from that element. -/
def below (k : Nat) (positions : List Position) : List Position :=
  positions.filterMap fun (path, buffer) =>
    match path with
    | i :: rest => if i = k then some (rest, buffer) else none
    | [] => none

def above (outputs : List (List Position)) : List Position :=
  outputs.zipIdx.flatMap fun (positions, i) => positions.map fun (path, buffer) => (i :: path, buffer)

/-- Positions that an instruction takes over from its operands; none if it defines its own. -/
def inherited? (a : Aliasing) (p : Placed) : Option (List Position) :=
  match p.opcode, p.operands.head? with
  | .getTupleElement, some operand =>
    (p.tupleIndex.map fun k => below k (a.outputsOf operand)).filter (!·.isEmpty)
  | .bitcast, some operand | .whileLoop, some operand => some (a.outputsOf operand)
  | _, _ => none

def define (a : Aliasing) (p : Placed) (paths : List Shape.Path) : List Buffer × List Position :=
  (paths.map fun path => ⟨p.id, path, (p.shape.at? path).getD p.shape⟩,
    paths.zipIdx.map fun (path, i) => (path, a.buffers.length + i))

def append (a : Aliasing) (p : Placed) : Aliasing :=
  match p.opcode, a.inherited? p with
  | _, some positions => { a with outputs := a.outputs ++ [positions] }
  | .tuple, none =>
    let (buffers, top) := a.define p [[]]
    { buffers := a.buffers ++ buffers
      outputs := a.outputs ++ [top ++ above (p.operands.map a.outputsOf)] }
  | _, none =>
    let (buffers, positions) := a.define p p.shape.indices
    { buffers := a.buffers ++ buffers, outputs := a.outputs ++ [positions] }

def ofComputation (c : Computation) : Aliasing := c.instructions.foldl append {}

end Aliasing

end LatencyHiding
