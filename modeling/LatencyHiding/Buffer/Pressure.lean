import LatencyHiding.KeyedList
import LatencyHiding.Buffer.Aliasing

set_option autoImplicit false

namespace LatencyHiding

structure PressureState where
  peak : UInt64 := 0
  liveAtBottom : List BufferId := []
  deriving DecidableEq

/-- States by name of computation. The peak is the largest that was ever recorded. -/
structure Pressure where
  sizing : Shape.Sizing
  states : KeyedList String PressureState := .empty
  peak : UInt64 := 0

namespace Pressure

def state? (t : Pressure) (computation : String) : Option PressureState :=
  t.states.get? computation

def has (t : Pressure) (computation : String) : Bool := t.states.contains computation

def record (t : Pressure) (computation : String) (state : PressureState) : Pressure :=
  { t with states := t.states.set computation state, peak := max t.peak state.peak }

def calleePeak (t : Pressure) (i : Instruction) : UInt64 :=
  ((i.calls.filterMap t.state?).map (·.peak)).foldl max 0

end Pressure

end LatencyHiding
