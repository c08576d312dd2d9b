import LatencyHiding.Program.Order

set_option autoImplicit false

namespace LatencyHiding

abbrev Schedule := KeyedList String (List InstrId)

structure Module where
  name : String
  computations : List Computation
  schedule : Option Schedule := none

namespace Module

def find? (m : Module) (name : String) : Option Computation :=
  m.computations.find? (·.name == name)

def computation (m : Module) (name : String) : Except Fault Computation :=
  match m.find? name with
  | some c => .ok c
  | none => .error (.unknownComputation name)

def entry (m : Module) : Computation :=
  (m.computations.find? (·.isEntry)).getD { name := "" }

def repeated? : List String → List String → Option String
  | _, [] => none
  | seen, name :: rest => if name ∈ seen then some name else repeated? (name :: seen) rest

/-- The entry is the computation of the given name, and the last one if no name is given. -/
def entryName (computations : List Computation) (entry : Option String) : Except Fault String :=
  match entry with
  | some name =>
    if computations.any (·.name == name) then .ok name else .error (.unknownComputation name)
  | none => .ok ((computations.getLast?.map (·.name)).getD "")

def danglingCall? (computations : List Computation) : Option Fault :=
  computations.findSome? fun c =>
    (c.callees.find? fun callee => !computations.any (·.name == callee)).map
      (.unknownCalleeFrom · c.name)

/-- Change instructions one after the other, each in view of those before it as already changed. -/
def sweep (change : List Placed → Placed → Placed) (instructions : List Placed) : List Placed :=
  instructions.foldl (fun earlier p => earlier ++ [change earlier p]) []

/-- What an asynchronous operation runs: the root of the computation it calls, or, for a done that
calls none, what its start runs. An opcode given beforehand stays. -/
def resolveWrapped (rootOf : String → Option Opcode) (earlier : List Placed) (p : Placed) : Placed :=
  let called := p.calls.head?.bind rootOf
  match p.opcode with
  | .asyncStart => { p with wrapped := p.wrapped.or called }
  | .asyncDone =>
    let started := p.operands.head?.bind fun start => earlier[start]?.bind (·.wrapped)
    { p with wrapped := p.wrapped.or (called.or started) }
  | _ => p

def inherit (key : String) (start p : Placed) : Placed :=
  match start.attributes.get? key with
  | some value =>
    if p.attributes.contains key then p
    else { p with attributes := p.attributes.set key value }
  | none => p

/-- A done is synchronous, or a transfer with the host, if its start is. -/
def inheritFlags (earlier : List Placed) (p : Placed) : Placed :=
  if p.opcode.isAsyncDone then
    match p.operands.head?.bind (earlier[·]?) with
    | some start => inherit Instruction.hostTransferKey start (inherit Instruction.syncKey start p)
    | none => p
  else p

def assemble (name : String) (computations : List Computation) (entry : Option String) :
    Except Fault Module := do
  if computations.isEmpty then
    throw .emptyModule
  if let some twice := repeated? [] (computations.map (·.name)) then
    throw (.duplicateComputation twice)
  let entry ← entryName computations entry
  if let some fault := danglingCall? computations then
    throw fault
  let rootOf (callee : String) : Option Opcode :=
    ((computations.find? (·.name == callee)).bind (·.root?)).map (·.opcode)
  return {
    name
    computations := computations.map fun c => { c with
      isEntry := c.name == entry
      instructions := sweep inheritFlags (sweep (resolveWrapped rootOf) c.instructions) } }

structure Walk where
  visited : List String := []
  finished : List String := []

/-- A computation that a walk has still to come to, and whether it has been there before: then
everything it calls is finished. -/
abbrev Errand := String × Bool

def errands (m : Module) (w : Walk) (c : Computation) : List Errand :=
  (c.callees.filter fun callee => (m.find? callee).isSome && callee ∉ w.visited).map (·, false)

/-- Take errands from a stack. A computation is marked when it is taken, not when it is put there, so
that it may stand there more than once. -/
def runErrands (m : Module) : (turns : Nat) → List Errand → Walk → Walk
  | 0, _, w => w
  | _ + 1, [], w => w
  | turns + 1, (name, true) :: rest, w =>
    m.runErrands turns rest { w with finished := w.finished ++ [name] }
  | turns + 1, (name, false) :: rest, w =>
    match m.find? name with
    | none => m.runErrands turns rest w
    | some c =>
      if name ∈ w.visited then m.runErrands turns rest w
      else
        let w := { w with visited := name :: w.visited }
        m.runErrands turns (m.errands w c ++ (name, true) :: rest) w

/-- Every computation sends a walk back to itself and to each of its callees at most once. -/
def errandBound (m : Module) : Nat := m.computations.foldr (·.callees.length + 1 + ·) 0

def walkFrom (m : Module) (turns : Nat) (w : Walk) (root : String) : Walk :=
  if root ∈ w.visited then w else m.runErrands turns [(root, false)] w

def calleeFirstNames (m : Module) : List String :=
  let roots := m.entry.name :: (m.computations.map (·.name)).filter (· ≠ m.entry.name)
  (roots.foldl (m.walkFrom (m.errandBound + 1)) {}).finished

def calleeFirst (m : Module) : List Computation := m.calleeFirstNames.filterMap m.find?

/-- A value for every computation, found from those of its callees. What is not there has the value
`base`. Calls nest at most as deep as there are computations, unless they are recursive. -/
def overCalls {α : Type} (m : Module) (base : α) (inside : Computation → (String → α) → α) :
    (depth : Nat) → String → α
  | 0, _ => base
  | depth + 1, name => (m.find? name).elim base fun c => inside c (m.overCalls base inside depth)

def postOrderSchedule (m : Module) : Schedule :=
  KeyedList.ofList (m.computations.map fun c => (c.name, c.postOrder))

def checkSchedule (m : Module) (schedule : Schedule) : Except Fault Unit :=
  m.computations.forM fun c =>
    match schedule.get? c.name with
    | some sequence => c.checkOrder sequence
    | none => .error (.badOrder c.name .absent)

def setSchedule (m : Module) (schedule : Schedule) : Except Fault Module := do
  m.checkSchedule schedule
  return { m with schedule := some schedule }

def currentSchedule (m : Module) : Schedule := m.schedule.getD m.postOrderSchedule

/-- The order that `schedule` has for a computation, or else the order of addition. -/
def orderIn (schedule : Schedule) (c : Computation) : List InstrId :=
  schedule.getD c.name c.postOrder

end Module

end LatencyHiding
