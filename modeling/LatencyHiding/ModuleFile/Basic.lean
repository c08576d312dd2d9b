import LatencyHiding.Digraph
import LatencyHiding.ModuleFile.Declaration
import LatencyHiding.Program.Module

set_option autoImplicit false

namespace LatencyHiding

namespace ComputationDecl

def names (c : ComputationDecl) : List String := c.instructions.map (·.name)

/-- Dependencies by name, each edge from what is needed to what needs it. -/
def dependencies (c : ComputationDecl) : Digraph String :=
  .ofLists c.names (c.instructions.flatMap fun i => i.inputs.map (·, i.name))

def lastIndex? (c : ComputationDecl) (name : String) : Option Nat :=
  (c.names.zipIdx.filter (·.1 = name)).getLast?.map (·.2)

def referencesBackwards (c : ComputationDecl) : Bool :=
  c.instructions.zipIdx.all fun (i, n) => i.inputs.all fun d => (c.lastIndex? d).any (· < n)

def lastSink? (c : ComputationDecl) : Option Nat :=
  (c.names.zipIdx.filter fun (name, _) => (c.dependencies.outgoing name).isEmpty).getLast?.map (·.2)

/-- Places of the instructions in building order: as declared if references point backwards, and
otherwise a topological order with the last sink moved to the end. -/
def buildOrder (c : ComputationDecl) (sort : Digraph.Sorter String := Digraph.topologicalOrder) :
    Except Fault (List Nat) :=
  match sort c.dependencies with
  | .error name => .error (.dependencyCycle c.name name)
  | .ok order =>
    .ok <|
      if c.referencesBackwards then List.range c.instructions.length
      else
        let root := c.lastSink?
        (order.filterMap c.lastIndex?).filter (some · ≠ root) ++ root.toList

end ComputationDecl

namespace ModuleDecl

def names (d : ModuleDecl) : List String := d.computations.map (·.name)

def emptySection? (d : ModuleDecl) : Option Fault :=
  if d.computations.isEmpty then some .noComputationSection
  else (d.computations.find? (·.instructions.isEmpty)).map (.emptyComputation ·.name)

def badSetting? (d : ModuleDecl) : Option Fault :=
  ((d.settings.limits.find? (·.2 == 0)).map (.zeroLimit ·.1)).or <|
    if d.device.slopPercent == 0 || d.device.slopPercent > 100 then
      some (.slopOutOfRange d.device.slopPercent)
    else none

def badEntry? (d : ModuleDecl) : Option Fault :=
  (d.entry.filter (· ∉ d.names)).map .unknownEntry

/-- An instruction's first bad reference to an instruction or, after those, to a computation. -/
def badReference? (d : ModuleDecl) (c : ComputationDecl) (i : InstructionDecl) : Option Fault :=
  (i.inputs.findSome? fun needed =>
    if needed = i.name then some (.dependsOnItself i.name c.name)
    else if needed ∉ c.names then some (.unknownReference i.name c.name needed)
    else none).or
  ((i.calls.find? (· ∉ d.names)).map (.unknownCallee · i.name c.name))

def badScheduleName? (c : ComputationDecl) : Option Fault :=
  (((c.schedule.getD []).find? (· ∉ c.names))).map (.scheduleNamesUnknown c.name)

def badReferenceIn? (d : ModuleDecl) : Option Fault :=
  d.computations.findSome? fun c =>
    (c.instructions.findSome? (d.badReference? c)).or (badScheduleName? c)

def cyclicComputation? (d : ModuleDecl)
    (sort : Digraph.Sorter String := Digraph.topologicalOrder) : Option Fault :=
  d.computations.findSome? fun c =>
    match c.buildOrder sort with
    | .error fault => some fault
    | .ok _ => none

def callGraph (d : ModuleDecl) : Digraph String :=
  .ofLists d.names
    (d.computations.flatMap fun c => c.instructions.flatMap fun i => i.calls.map (c.name, ·))

def recursiveCall? (d : ModuleDecl) (sort : Digraph.Sorter String := Digraph.topologicalOrder) :
    Option Fault :=
  match sort d.callGraph with
  | .error name => some (.recursiveCalls name)
  | .ok _ => none

def firstFault? (d : ModuleDecl) (sort : Digraph.Sorter String := Digraph.topologicalOrder) :
    Option Fault :=
  d.emptySection?.or <| d.badSetting?.or <| d.badEntry?.or <| d.badReferenceIn?.or <|
    (d.cyclicComputation? sort).or (d.recursiveCall? sort)

end ModuleDecl

namespace ComputationDecl

def append (c : Computation) (i : InstructionDecl) : Except Fault Computation :=
  let resolve (names : List String) : List InstrId := names.filterMap fun n => (c.find? n).map (·.id)
  c.add {
    name := i.name
    opcode := i.opcode
    shape := i.shape
    operands := resolve i.operands
    controlPredecessors := resolve i.controlPredecessors
    calls := i.calls
    customCallTarget := i.customCallTarget
    hint := i.hint
    tupleIndex := i.tupleIndex
    attributes := i.attributes }

def build (c : ComputationDecl) (sort : Digraph.Sorter String := Digraph.topologicalOrder) :
    Except Fault Computation := do
  let order ← c.buildOrder sort
  (order.filterMap (c.instructions[·]?)).foldlM append { name := c.name }

def resolveSchedule (c : ComputationDecl) (m : Module) (names : List String) :
    Except Fault (List InstrId) := do
  let built ← m.computation c.name
  names.mapM fun n =>
    match built.find? n with
    | some p => .ok p.id
    | none => .error (.unknownInstruction n c.name)

end ComputationDecl

namespace ModuleDecl

/-- Install the declared orders; computations without one keep the order of building. -/
def install (d : ModuleDecl) (m : Module) : Except Fault Module :=
  if d.computations.all (·.schedule.isNone) then .ok m
  else do
    let schedule ← d.computations.foldlM (fun schedule c =>
      match c.schedule with
      | some names => (c.resolveSchedule m names).map (schedule.set c.name)
      | none => .ok schedule) m.postOrderSchedule
    m.setSchedule schedule

def buildModule (d : ModuleDecl) (sort : Digraph.Sorter String := Digraph.topologicalOrder) :
    Except Fault Module := do
  let computations ← d.computations.mapM (·.build sort)
  d.install (← Module.assemble d.name computations d.entry)

end ModuleDecl

structure ModuleFile where
  module : Module
  mode : Mode := .latencyHiding
  platform : Platform := .generic
  settings : Settings := {}
  device : DeviceSettings := {}
  profile : Option (Profile Float) := none

def ModuleFile.ofDecl (d : ModuleDecl) (sort : Digraph.Sorter String := Digraph.topologicalOrder) :
    Except Fault ModuleFile := do
  if let some fault := d.firstFault? sort then
    throw fault
  return {
    module := ← d.buildModule sort
    mode := d.mode
    platform := d.platform
    settings := d.settings
    device := d.device
    profile := d.profile }

end LatencyHiding
