import LatencyHiding.Program.Computation

set_option autoImplicit false

namespace LatencyHiding

namespace Placed

def gainUser (user : InstrId) (p : Placed) : Placed := { p with users := p.users ++ [user] }

def gainSuccessor (successor : InstrId) (p : Placed) : Placed :=
  if successor ∈ p.controlSuccessors then p
  else { p with controlSuccessors := p.controlSuccessors ++ [successor] }

end Placed

structure Draft extends Computation where
  ids : KeyedList String InstrId := .empty

def Draft.check (d : Draft) (p : Placed) : Except Fault Unit :=
  if d.ids.contains p.name then .error (.duplicateInstruction d.name p.name)
  else if p.inputs.any (d.size ≤ ·) then .error (.undefinedReference p.name d.name)
  else .ok ()

/-- Something done to a draft. What was done before a fault stays done. -/
abbrev Drafting := ExceptT Fault (StateM Draft)

namespace Drafting

def on {α : Type} (work : Drafting α) (d : Draft) : Except Fault α × Draft := work.run.run d

def amend (id : InstrId) (change : Placed → Placed) : Drafting Unit :=
  modify fun d => { d with instructions := d.instructions.modify id change }

/-- Operands hear of their new user once each; those in `told` have heard. -/
def tellOperands (user : InstrId) (told : List InstrId) : List InstrId → Drafting Unit
  | [] => pure ()
  | operand :: rest =>
    if operand ∈ told then tellOperands user told rest
    else do
      amend operand (·.gainUser user)
      tellOperands user (told ++ [operand]) rest

/-- Here it is the predecessor that knows whether it has heard. -/
def tellPredecessors (successor : InstrId) : List InstrId → Drafting Unit
  | [] => pure ()
  | predecessor :: rest => do
    amend predecessor (·.gainSuccessor successor)
    tellPredecessors successor rest

/-- Append an instruction that comes from anywhere: its id and those who depend on it are forgotten.
The answer is its new id. -/
def append (p : Placed) : Drafting InstrId := do
  let d ← get
  d.check p
  tellOperands d.size [] p.operands
  tellPredecessors d.size p.controlPredecessors
  modify fun e => { e with
    instructions := e.instructions ++ [{ p with id := d.size, users := [], controlSuccessors := [] }]
    ids := e.ids.set p.name d.size }
  return d.size

end Drafting

def Draft.history (d : Draft) (arrivals : List Placed) : Draft :=
  arrivals.foldl (fun d p => ((Drafting.append p).on d).2) d

end LatencyHiding
