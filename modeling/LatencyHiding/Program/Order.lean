import LatencyHiding.Program.Computation

set_option autoImplicit false

namespace LatencyHiding.Computation

/-- `sequence` holds every instruction of `c` exactly once, dependencies first. -/
structure IsOrder (c : Computation) (sequence : List InstrId) : Prop where
  perm : sequence.Perm c.postOrder
  dependenciesFirst : ∀ p ∈ c.instructions, ∀ dependency ∈ p.inputs,
    sequence.idxOf dependency < sequence.idxOf p.id

def strayId? (c : Computation) (seen : List InstrId) : List InstrId → Option BadOrder
  | [] => none
  | id :: rest =>
    match c.instruction? id with
    | none => some (.unknownId id)
    | some p => if id ∈ seen then some (.scheduledTwice p.name) else c.strayId? (id :: seen) rest

/-- The first instruction, in the order of ids, with a dependency behind it. -/
def lateDependency? (c : Computation) (sequence : List InstrId) : Option BadOrder :=
  c.instructions.findSome? fun p =>
    p.inputs.findSome? fun dependency =>
      if sequence.idxOf dependency > sequence.idxOf p.id then
        some (.afterUser (c.nameOf dependency) p.name)
      else none

def whyNotOrder? (c : Computation) (sequence : List InstrId) : Option BadOrder :=
  if sequence.length ≠ c.size then some (.wrongLength sequence.length c.size)
  else (c.strayId? [] sequence).or (c.lateDependency? sequence)

def checkOrder (c : Computation) (sequence : List InstrId) : Except Fault Unit :=
  match c.whyNotOrder? sequence with
  | some why => .error (.badOrder c.name why)
  | none => .ok ()

end LatencyHiding.Computation
