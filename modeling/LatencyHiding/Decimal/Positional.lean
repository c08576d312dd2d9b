import LatencyHiding.Decimal.Shortest

set_option autoImplicit false

namespace LatencyHiding.Decimal

def dropZeros : (fuel : Nat) → Nat → Int → Nat × Int
  | 0, d, p => (d, p)
  | fuel + 1, d, p => if d ≠ 0 ∧ d % 10 = 0 then dropZeros fuel (d / 10) (p + 1) else (d, p)

def positional (d : Nat) (p : Int) : String :=
  let digits := Nat.toDigits 10 d
  if 0 ≤ p then String.ofList (digits ++ List.replicate p.toNat '0')
  else
    let places := (-p).toNat
    if places < digits.length then
      String.ofList (digits.take (digits.length - places) ++
        '.' :: digits.drop (digits.length - places))
    else String.ofList ('0' :: '.' :: List.replicate (places - digits.length) '0' ++ digits)

def magnitudeText (exponentField fraction : Nat) : String :=
  let (d, p) := (Interval.ofFields exponentField fraction).shortest
  let (d, p) := dropZeros 400 d p
  positional d p

def floatText (x : Float) : String :=
  let bits := x.toBits.toNat
  let exponentField := bits / fractionSize % 2048
  let fraction := bits % fractionSize
  let text :=
    if exponentField = 0 ∧ fraction = 0 then "0"
    else if exponentField = 2047 then "inf"
    else magnitudeText exponentField fraction
  if x.isNaN then "NaN" else if bits < 0x8000000000000000 then text else "-" ++ text

end LatencyHiding.Decimal
