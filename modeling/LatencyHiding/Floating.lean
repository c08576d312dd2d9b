import LatencyHiding.Program.Order

set_option autoImplicit false

/-!
Floating an order: asynchronous starts move up to where their inputs exist, dones move down to where
they are first needed, and everything else stays in place.

What stays is an anchor. The anchors divide the order into gaps, numbered from zero by the anchors in
front, and floating instructions move from gap to gap: a start to the lowest gap that its inputs
allow, a done to the highest that its users allow. Within a gap, instructions come in an order that
respects dependencies, starts before dones and otherwise by id.
-/

namespace LatencyHiding

inductive Role where
  | early | late | anchor
  deriving DecidableEq

namespace Computation

def isEarly (i : Instruction) : Bool :=
  (i.opcode.isAsyncStart && !i.isSync) || i.isCustomCallHinted .earliest

/-- A done is late only if what it waits for is early. -/
def isLate (c : Computation) (i : Instruction) : Bool :=
  i.isCustomCallHinted .latest ||
    (i.opcode.isAsyncDone && (i.operands.head?.bind c.instruction?).any (isEarly ·.toInstruction))

def role (c : Computation) (i : Instruction) : Role :=
  if isEarly i then .early else if c.isLate i then .late else .anchor

def roleOf (c : Computation) (id : InstrId) : Role :=
  ((c.instruction? id).map fun p => c.role p.toInstruction).getD .anchor

def anchors (c : Computation) (sequence : List InstrId) : List InstrId :=
  sequence.filter (c.roleOf · = .anchor)

end Computation

/-- The gap of every instruction, by id. The gap of an anchor is the one in front of it. -/
abbrev Gaps := List Nat

namespace Gaps

def of (gaps : Gaps) (id : InstrId) : Nat := (gaps[id]?).getD 0

/-- Every instruction where it stands: behind as many anchors as come before it. -/
def ofSequence (c : Computation) (sequence : List InstrId) : Gaps :=
  (List.range c.size).map fun id => (c.anchors (sequence.takeWhile (· ≠ id))).length

def behind (c : Computation) (gaps : Gaps) (input : InstrId) : Nat :=
  if c.roleOf input = .anchor then gaps.of input + 1 else gaps.of input

def lowest (c : Computation) (gaps : Gaps) (p : Placed) : Nat :=
  (p.inputs.map (behind c gaps)).foldl max 0

def highest (last : Nat) (gaps : Gaps) (p : Placed) : Nat :=
  match p.outputs.map gaps.of with
  | [] => last
  | g :: rest => rest.foldl min g

def raise (c : Computation) (gaps : Gaps) (id : InstrId) : Gaps :=
  match c.instruction? id with
  | some p => if c.roleOf id = .early then gaps.set id (lowest c gaps p) else gaps
  | none => gaps

def lower (c : Computation) (last : Nat) (gaps : Gaps) (id : InstrId) : Gaps :=
  match c.instruction? id with
  | some p => if c.roleOf id = .late then gaps.set id (highest last gaps p) else gaps
  | none => gaps

def raiseAll (c : Computation) (sequence : List InstrId) (gaps : Gaps) : Gaps :=
  sequence.foldl (raise c) gaps

def lowerAll (c : Computation) (last : Nat) (sequence : List InstrId) (gaps : Gaps) : Gaps :=
  sequence.reverse.foldl (lower c last) gaps

/-- Rounds of moving up and then down, until a round moves nothing down. -/
def settle (c : Computation) (last : Nat) (sequence : List InstrId) :
    (rounds : Nat) → Gaps → Option Gaps
  | 0, _ => none
  | rounds + 1, gaps =>
    let raised := raiseAll c sequence gaps
    let lowered := lowerAll c last sequence raised
    if lowered = raised then some lowered else settle c last sequence rounds lowered

end Gaps

namespace Computation

abbrev Waiting := List (InstrId × Nat)

def waitingOf (c : Computation) (bucket : List InstrId) : Waiting :=
  bucket.map fun id =>
    (id, ((c.instruction? id).map fun p => (p.inputs.filter (bucket.contains ·)).length).getD 0)

/-- Early instructions come before late ones, and then lower ids before higher ones. -/
def comesBefore (c : Computation) (a b : InstrId) : Bool :=
  if (c.roleOf a == .late) = (c.roleOf b == .late) then a < b else c.roleOf b == .late

def firstFree? (c : Computation) (waiting : Waiting) : Option InstrId :=
  match (waiting.filter (·.2 = 0)).map (·.1) with
  | [] => none
  | id :: rest => some (rest.foldl (fun best id => if c.comesBefore id best then id else best) id)

def relax (waiting : Waiting) (output : InstrId) : Waiting :=
  waiting.map fun (id, n) => if id = output then (id, n - 1) else (id, n)

def emit (c : Computation) : Nat → Waiting → Except Fault (List InstrId)
  | 0, _ => .ok []
  | n + 1, waiting =>
    match c.firstFree? waiting with
    | none => .error (.badFloat c.name .cycle)
    | some id => do
      let outputs := ((c.instruction? id).map (·.outputs)).getD []
      let rest ← c.emit n (outputs.foldl relax (waiting.filter (·.1 ≠ id)))
      return id :: rest

def emitBucket (c : Computation) (bucket : List InstrId) : Except Fault (List InstrId) :=
  c.emit bucket.length (c.waitingOf bucket)

def strayFloat? (c : Computation) (seen : List InstrId) : List InstrId → Option Fault
  | [] => none
  | id :: rest =>
    if (c.instruction? id).isNone then some (.unknownId id c.name)
    else if id ∈ seen then some (.badFloat c.name (.appearsTwice id))
    else c.strayFloat? (id :: seen) rest

def bucket (c : Computation) (sequence : List InstrId) (gaps : Gaps) (g : Nat) : List InstrId :=
  sequence.filter fun id => c.roleOf id ≠ .anchor && gaps.of id == g

def emitGaps (c : Computation) (sequence : List InstrId) (gaps : Gaps) :
    Except Fault (List InstrId) := do
  let anchors := c.anchors sequence
  let parts ← (List.range (anchors.length + 1)).mapM fun g => do
    let floating ← c.emitBucket (c.bucket sequence gaps g)
    return floating ++ (anchors[g]?).toList
  return parts.flatten

/-- More rounds than late instructions could ever move. -/
def maxRounds (c : Computation) (last : Nat) : Nat :=
  (c.instructions.countP fun p => c.roleOf p.id = .late) * (last + 1) + 1

def float (c : Computation) (sequence : List InstrId) : Except Fault (List InstrId) := do
  if let some fault := c.strayFloat? [] sequence then
    throw fault
  if sequence.length ≠ c.size then
    throw (.badFloat c.name (.wrongLength sequence.length c.size))
  let last := (c.anchors sequence).length
  match Gaps.settle c last sequence (c.maxRounds last) (.ofSequence c sequence) with
  | some gaps => c.emitGaps sequence gaps
  | none => throw (.badFloat c.name .unsettled)

end Computation

end LatencyHiding
