set_option autoImplicit false

namespace LatencyHiding

/-- The number `± digits · 10 ^ exponent`. -/
structure Decimal where
  negative : Bool
  digits : Nat
  exponent : Int

namespace Decimal

def digitValue (c : Char) : Nat := c.toNat - '0'.toNat

def ofDigits (cs : List Char) : Nat := cs.foldl (fun n c => 10 * n + digitValue c) 0

def sign : List Char → Bool × List Char
  | '-' :: rest => (true, rest)
  | '+' :: rest => (false, rest)
  | rest => (false, rest)

def ofParts (negative : Bool) (whole fraction : List Char) (power : Int) : Decimal :=
  ⟨negative, ofDigits (whole ++ fraction), power - fraction.length⟩

/-- Magnitudes beyond `10 ^ 400` or below `10 ^ -400` round to infinity and zero in any case. -/
def magnitude (d : Decimal) : Float :=
  let places : Int := (Nat.toDigits 10 d.digits).length
  if d.digits = 0 ∨ d.exponent + places < -400 then 0.0
  else if d.exponent + places > 400 then 1.0 / 0.0
  else Float.ofScientific d.digits (d.exponent < 0) d.exponent.natAbs

def toFloat (d : Decimal) : Float := if d.negative then -d.magnitude else d.magnitude

end Decimal

end LatencyHiding
