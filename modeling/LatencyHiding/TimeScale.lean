set_option autoImplicit false

namespace LatencyHiding

/-- What the scheduler does with times. Comparisons need not be total and `==` need not be reflexive:
on binary64 a NaN is neither below nor equal to anything, itself included. -/
class TimeScale (τ : Type) extends Add τ, Sub τ, LT τ, LE τ, BEq τ where
  ofCycles : Nat → τ
  /-- The time that addition never changes, and so the sum of no times. -/
  neutral : τ
  decLt : DecidableLT τ
  decLe : DecidableLE τ

namespace TimeScale

variable {τ : Type} [TimeScale τ]

instance (a b : τ) : Decidable (a < b) := decLt a b

instance (a b : τ) : Decidable (a ≤ b) := decLe a b

def zero : τ := ofCycles 0

/-- The later of two times; a time that is not equal to itself loses against any other. -/
def later (a b : τ) : τ :=
  if a < b then b else if a == a then a else b

def latest (start : τ) (times : List τ) : τ := times.foldl later start

def sum (times : List τ) : τ := times.foldl (· + ·) neutral

end TimeScale

/-- On binary64 the neutral element of addition is minus zero: `0 + (-0) = 0`, `(-0) + (-0) = -0`. -/
instance : TimeScale Float where
  ofCycles := Float.ofNat
  neutral := -0.0
  decLt := fun _ _ => inferInstance
  decLe := fun _ _ => inferInstance

instance : TimeScale Rat where
  ofCycles n := n
  neutral := 0
  decLt := fun _ _ => inferInstance
  decLe := fun _ _ => inferInstance

end LatencyHiding
