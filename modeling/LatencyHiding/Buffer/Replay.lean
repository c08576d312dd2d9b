import LatencyHiding.Buffer.LiveSet
import LatencyHiding.Program.Module

set_option autoImplicit false

namespace LatencyHiding

/-- Walk an order, given first to last, from its end. Ids that are none are passed over. -/
def LiveSet.walk (s : LiveSet) (sequence : List InstrId) : LiveSet :=
  (sequence.reverse.filterMap s.computation.instruction?).foldl LiveSet.update s

def LiveSet.walk? (s : LiveSet) (sequence : List InstrId) : Option LiveSet :=
  (sequence.reverse.filterMap s.computation.instruction?).foldlM LiveSet.update? s

namespace Computation

def replay (c : Computation) (sequence : List InstrId) (sizing : Shape.Sizing)
    (pressure : Option Pressure) : PressureState :=
  (((LiveSet.ofComputation c sizing pressure).restart [] 0).walk sequence).state

def memoryPeak (c : Computation) (sequence : List InstrId) (sizing : Shape.Sizing)
    (pressure : Option Pressure) : UInt64 :=
  (c.replay sequence sizing pressure).peak

def replay? (c : Computation) (sequence : List InstrId) (sizing : Shape.Sizing)
    (pressure : Option Pressure) : Option PressureState := do
  let start ← (LiveSet.ofComputation c sizing pressure).restart? [] 0
  return (← start.walk? sequence).state

def memoryPeak? (c : Computation) (sequence : List InstrId) (sizing : Shape.Sizing)
    (pressure : Option Pressure) : Option UInt64 :=
  (c.replay? sequence sizing pressure).map (·.peak)

end Computation

namespace Pressure

def replayed (t : Pressure) (c : Computation) (sequence : List InstrId) : Pressure :=
  t.record c.name (c.replay sequence t.sizing (some t))

/-- States of all computations of a module under a schedule; a computation that has no order in it is
taken in the order of addition. -/
def ofSchedule (sizing : Shape.Sizing) (m : Module) (schedule : Schedule) : Pressure :=
  m.calleeFirst.foldl (fun t c => t.replayed c (Module.orderIn schedule c)) { sizing }

def replayed? (t : Pressure) (c : Computation) (sequence : List InstrId) : Option Pressure := do
  return t.record c.name (← c.replay? sequence t.sizing (some t))

def ofSchedule? (sizing : Shape.Sizing) (m : Module) (schedule : Schedule) : Option Pressure :=
  m.calleeFirst.foldlM (fun t c => t.replayed? c (Module.orderIn schedule c)) { sizing }

end Pressure

end LatencyHiding
