set_option autoImplicit false

namespace LatencyHiding.Decimal

def fractionSize : Nat := 0x10000000000000

/-- The reals that round to one positive binary64 number, in units of `2 ^ exponent`. -/
structure Interval where
  low : Nat
  value : Nat
  high : Nat
  exponent : Int
  /-- Whether the ends themselves round to the number. -/
  closed : Bool

namespace Interval

/-- The interval of the number with the given exponent and fraction fields, which is positive and
finite. Below a power of two the neighbours lie closer together than above it. -/
def ofFields (exponentField fraction : Nat) : Interval :=
  let m := if exponentField = 0 then fraction else fractionSize + fraction
  let atPower := fraction = 0 ∧ 1 < exponentField
  { low := 4 * m - (if atPower then 1 else 2)
    value := 4 * m
    high := 4 * m + 2
    exponent := (if exponentField = 0 then 1 else exponentField) - 1077
    closed := m % 2 = 0 }

/-- `n · 2 ^ e` over a common denominator with powers of ten down to `10 ^ p`: the numerator. -/
def scaled (e p : Int) (n : Nat) : Nat := n * Nat.pow 2 e.toNat * Nat.pow 10 (-p).toNat

def scaledPower (e p : Int) (d : Nat) : Nat := d * Nat.pow 10 p.toNat * Nat.pow 2 (-e).toNat

def contains (i : Interval) (d : Nat) (p : Int) : Bool :=
  let x := scaledPower i.exponent p d
  let low := scaled i.exponent p i.low
  let high := scaled i.exponent p i.high
  if i.closed then low ≤ x && x ≤ high else low < x && x < high

def floorAt (i : Interval) (p : Int) : Nat :=
  scaled i.exponent p i.value / scaledPower i.exponent p 1

/-- Of the two neighbours of the value on the grid of `10 ^ p`, the nearer one in the interval. -/
def onGrid? (i : Interval) (p : Int) : Option Nat :=
  let d := i.floorAt p
  let rest := scaled i.exponent p i.value - scaledPower i.exponent p d
  let upIsNear := scaledPower i.exponent p 1 ≤ 2 * rest
  match i.contains d p, i.contains (d + 1) p with
  | true, true => some (if upIsNear then d + 1 else d)
  | true, false => some d
  | false, true => some (d + 1)
  | false, false => none

def search (i : Interval) : (steps : Nat) → Int → Nat × Int
  | 0, p => (i.floorAt p, p)
  | steps + 1, p =>
    match i.onGrid? p with
    | some d => (d, p)
    | none => i.search steps (p - 1)

/-- Some power of ten above every binary64 number; no more than 17 digits are ever needed. -/
def shortest (i : Interval) : Nat × Int := i.search 660 310

end Interval

end LatencyHiding.Decimal
