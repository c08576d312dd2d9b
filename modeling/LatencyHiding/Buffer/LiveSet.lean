import LatencyHiding.Buffer.Pressure

set_option autoImplicit false

/-!
Live buffers while a computation is walked from its root upwards. A buffer becomes live at its last
user, which is the first one met, and dies where it is defined. Parameters of the entry are live for
the whole program and never counted; other parameters never die.
-/

namespace LatencyHiding

structure BufferInfo where
  definedBy : InstrId
  size : UInt64
  entryParameter : Bool

structure BufferTable where
  buffers : List BufferInfo := []
  outputs : List (List Position) := []

namespace BufferTable

def ofAliasing (c : Computation) (sizing : Shape.Sizing) (a : Aliasing) : BufferTable where
  buffers := a.buffers.map fun b => {
    definedBy := b.definedBy
    size := sizing b.shape
    entryParameter :=
      c.isEntry && (c.instruction? b.definedBy).any (·.opcode == .parameter) }
  outputs := (List.range c.size).map a.outputsOf

def info? (t : BufferTable) (id : BufferId) : Option BufferInfo := t.buffers[id]?

def sizeOf (t : BufferTable) (id : BufferId) : UInt64 := ((t.info? id).map (·.size)).getD 0

def outputsOf (t : BufferTable) (id : InstrId) : List Position := (t.outputs[id]?).getD []

def definedBy (t : BufferTable) (id : InstrId) : List BufferId :=
  if id < t.outputs.length then
    (t.buffers.zipIdx.filter (·.1.definedBy = id)).map (·.2)
  else []

end BufferTable

structure LiveSet where
  computation : Computation
  table : BufferTable
  pressure : Option Pressure
  live : List Bool
  usage : UInt64 := 0
  /-- Usage inherited from callers. -/
  initial : UInt64 := 0
  state : PressureState := {}

namespace LiveSet

def ofAliasing (c : Computation) (a : Aliasing) (sizing : Shape.Sizing)
    (pressure : Option Pressure) : LiveSet :=
  let table := BufferTable.ofAliasing c sizing a
  { computation := c, table, pressure, live := List.replicate table.buffers.length false }

def ofComputation (c : Computation) (sizing : Shape.Sizing) (pressure : Option Pressure) :
    LiveSet :=
  ofAliasing c (.ofComputation c) sizing pressure

def isLive (s : LiveSet) (id : BufferId) : Bool := (s.live[id]?).getD false

def liveIds (s : LiveSet) : List BufferId := (List.range s.live.length).filter s.isLive

def totalUsage (s : LiveSet) : UInt64 := s.usage + s.initial

def revive (s : LiveSet) (id : BufferId) : LiveSet :=
  { s with live := s.live.set id true, usage := s.usage + s.table.sizeOf id }

def kill (s : LiveSet) (id : BufferId) : LiveSet :=
  { s with live := s.live.set id false, usage := s.usage - s.table.sizeOf id }

/-- Make a buffer live at the bottom, unless it is live already or never counted. -/
def seed (s : LiveSet) (id : BufferId) : LiveSet :=
  match s.table.info? id with
  | some info => if info.entryParameter || s.isLive id then s else s.revive id
  | none => s

def rootBuffers (s : LiveSet) : List BufferId :=
  if s.computation.size = 0 then []
  else (s.table.outputsOf (s.computation.size - 1)).map Prod.snd

/-- Start over with some buffers live in addition to the output of the root. -/
def restart (s : LiveSet) (extra : List BufferId) (initial : UInt64) : LiveSet :=
  let cleared := { s with live := s.live.map fun _ => false, usage := 0, initial }
  let seeded := (extra ++ s.rootBuffers).foldl seed cleared
  { seeded with state := { peak := seeded.usage, liveAtBottom := seeded.liveIds } }

/-- A view does not touch what lies inside its operand, and entry parameters are not counted. -/
def skips (consumer : Instruction) (path : Shape.Path) (info : BufferInfo) : Bool :=
  (consumer.opcode.isPassThrough && !path.isEmpty) || info.entryParameter

def madeLive (s : LiveSet) (p : Placed) : List BufferId :=
  ((p.operands.flatMap s.table.outputsOf).filterMap fun (path, id) =>
    match s.table.info? id with
    | some info => if skips p.toInstruction path info || s.isLive id then none else some id
    | none => none).eraseDups

def freed (s : LiveSet) (p : Placed) : List BufferId :=
  if p.opcode = .parameter then [] else (s.table.definedBy p.id).filter s.isLive

def sumSizes (s : LiveSet) (ids : List BufferId) : UInt64 := Bytes.total (ids.map s.table.sizeOf)

def calleePeak (s : LiveSet) (p : Placed) : UInt64 :=
  (s.pressure.map (·.calleePeak p.toInstruction)).getD 0

/-- What an instruction would do to the usage: the change it leaves, and the height it needs in
between, both counted from the current usage. -/
structure Effect where
  increase : Int64
  peak : UInt64

def effect (s : LiveSet) (p : Placed) : Effect :=
  let allocated := s.sumSizes (s.madeLive p)
  let released := s.sumSizes (s.freed p)
  { increase := allocated.toInt64 - released.toInt64
    peak := max allocated (s.calleePeak p) }

/-- Go past an instruction: its operands become live, then what it defines dies. -/
def update (s : LiveSet) (p : Placed) : LiveSet :=
  let peak := max s.state.peak (s.usage + (s.effect p).peak)
  let grown := (s.madeLive p).foldl revive { s with state := { s.state with peak } }
  (grown.freed p).foldl kill grown

def totalUsage? (s : LiveSet) : Option UInt64 := Bytes.add? s.usage s.initial

def revive? (s : LiveSet) (id : BufferId) : Option LiveSet := do
  let usage ← Bytes.add? s.usage (s.table.sizeOf id)
  return { s with live := s.live.set id true, usage }

def kill? (s : LiveSet) (id : BufferId) : Option LiveSet := do
  let usage ← Bytes.sub? s.usage (s.table.sizeOf id)
  return { s with live := s.live.set id false, usage }

def seed? (s : LiveSet) (id : BufferId) : Option LiveSet :=
  match s.table.info? id with
  | some info => if info.entryParameter || s.isLive id then some s else s.revive? id
  | none => some s

def restart? (s : LiveSet) (extra : List BufferId) (initial : UInt64) : Option LiveSet := do
  let cleared := { s with live := s.live.map fun _ => false, usage := 0, initial }
  let seeded ← (extra ++ s.rootBuffers).foldlM seed? cleared
  return { seeded with state := { peak := seeded.usage, liveAtBottom := seeded.liveIds } }

def sumSizes? (s : LiveSet) (ids : List BufferId) : Option UInt64 :=
  Bytes.total? (ids.map s.table.sizeOf)

def effect? (s : LiveSet) (p : Placed) : Option Effect := do
  let allocated ← s.sumSizes? (s.madeLive p)
  let released ← s.sumSizes? (s.freed p)
  let increase ← Bytes.difference? allocated released
  return { increase, peak := max allocated (s.calleePeak p) }

def update? (s : LiveSet) (p : Placed) : Option LiveSet := do
  let effect ← s.effect? p
  let height ← Bytes.add? s.usage effect.peak
  let grown ← (s.madeLive p).foldlM revive?
    { s with state := { s.state with peak := max s.state.peak height } }
  (grown.freed p).foldlM kill? grown

end LiveSet

end LatencyHiding
