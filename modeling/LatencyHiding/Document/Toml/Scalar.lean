import LatencyHiding.Decimal.Reading
import LatencyHiding.Document.Json

set_option autoImplicit false

namespace LatencyHiding.Document.Toml

open Json (Reader)
open Text (hexValue? hexDigit? scalar?)

def isSpace (c : Char) : Bool := c == ' ' || c == '\t'

def skipSpace (cs : List Char) : List Char := cs.dropWhile isSpace

def isControl (c : Char) : Bool := (c.toNat < 0x20 && c != '\t') || c.toNat == 0x7F

def newline? : List Char → Option (List Char)
  | '\n' :: rest => some rest
  | '\r' :: '\n' :: rest => some rest
  | _ => none

/-- Every carriage return is followed by a line feed. -/
def returnsPaired : List Char → Bool
  | [] => true
  | '\r' :: '\n' :: rest => returnsPaired rest
  | '\r' :: _ => false
  | _ :: rest => returnsPaired rest

def escape (cs : List Char) : Option (Char × List Char) :=
  match cs with
  | 'b' :: rest => some (Char.ofNat 8, rest)
  | 'e' :: rest => some (Char.ofNat 27, rest)
  | 't' :: rest => some ('\t', rest)
  | 'n' :: rest => some ('\n', rest)
  | 'f' :: rest => some (Char.ofNat 12, rest)
  | 'r' :: rest => some ('\r', rest)
  | '"' :: rest => some ('"', rest)
  | '\\' :: rest => some ('\\', rest)
  | 'x' :: rest => hexEscape 2 rest
  | 'u' :: rest => hexEscape 4 rest
  | 'U' :: rest => hexEscape 8 rest
  | _ => none
where
  hexEscape (width : Nat) (cs : List Char) : Option (Char × List Char) := do
    let ds := cs.take width
    if ds.length = width then
      let c ← scalar? (← hexValue? ds)
      return (c, cs.drop width)
    else none

def basicBody : (fuel : Nat) → Reader (List Char)
  | 0, _ => none
  | fuel + 1, cs =>
    match cs with
    | [] => none
    | '"' :: rest => some ([], rest)
    | '\\' :: rest => do
      let (c, rest) ← escape rest
      let (body, rest) ← basicBody fuel rest
      return (c :: body, rest)
    | c :: rest =>
      if isControl c then none
      else (basicBody fuel rest).map fun (body, rest) => (c :: body, rest)

def literalBody : Reader (List Char)
  | [] => none
  | '\'' :: rest => some ([], rest)
  | c :: rest =>
    if isControl c then none
    else (literalBody rest).map fun (body, rest) => (c :: body, rest)

/-- Three to five quotes close a string of many lines; all but three of them belong to it. -/
def closing? (quote : Char) (cs : List Char) : Option (List Char × List Char) :=
  let quotes := (cs.takeWhile (· == quote)).length
  if 3 ≤ quotes then
    some (List.replicate (min quotes 5 - 3) quote, cs.drop (min quotes 5))
  else none

def isLineChar (c : Char) : Bool := !isControl c || c == '\n' || c == '\r'

/-- After a backslash at the end of a line, blanks and line ends up to the next text are skipped. -/
def continued? (cs : List Char) : Option (List Char) :=
  (newline? (skipSpace cs)).map fun rest =>
    rest.dropWhile fun c => isSpace c || c == '\n' || c == '\r'

def longBasicBody : (fuel : Nat) → Reader (List Char)
  | 0, _ => none
  | fuel + 1, cs =>
    match closing? '"' cs with
    | some (quotes, rest) => some (quotes, rest)
    | none =>
      match cs with
      | [] => none
      | '\\' :: rest =>
        match continued? rest with
        | some rest => longBasicBody fuel rest
        | none => do
          let (c, rest) ← escape rest
          let (body, rest) ← longBasicBody fuel rest
          return (c :: body, rest)
      | c :: rest =>
        if isLineChar c then
          (longBasicBody fuel rest).map fun (body, rest) => (c :: body, rest)
        else none

def longLiteralBody : Reader (List Char)
  | [] => none
  | c :: rest =>
    match closing? '\'' (c :: rest) with
    | some (quotes, rest) => some (quotes, rest)
    | none =>
      if isLineChar c then
        (longLiteralBody rest).map fun (body, rest) => (c :: body, rest)
      else none

def dropFirstNewline (cs : List Char) : List Char := (newline? cs).getD cs

def shortString? : Reader String
  | '"' :: rest => (basicBody (rest.length + 1) rest).map fun (b, rest) => (String.ofList b, rest)
  | '\'' :: rest => (literalBody rest).map fun (b, rest) => (String.ofList b, rest)
  | _ => none

def string? : Reader String
  | '"' :: '"' :: '"' :: rest =>
    (longBasicBody (rest.length + 1) (dropFirstNewline rest)).map fun (b, rest) =>
      (String.ofList b, rest)
  | '\'' :: '\'' :: '\'' :: rest =>
    (longLiteralBody (dropFirstNewline rest)).map fun (b, rest) => (String.ofList b, rest)
  | cs => shortString? cs

/-- Drop the underscores of a numeral, each of which has to stand between two digits. -/
def ungroup? (isDigit : Char → Bool) (cs : List Char) : Option (List Char) :=
  let groups := cs.splitOn '_'
  if groups.all fun g => !g.isEmpty && g.all isDigit then some groups.flatten else none

def wholeDigits? (cs : List Char) : Option (List Char) := do
  let ds ← ungroup? Char.isDigit cs
  if 1 < ds.length ∧ ds.head? = some '0' then none else some ds

/-- Integers are kept to 128 bits, signed or unsigned. -/
def bounded? (n : Int) : Option Document :=
  if -0x80000000000000000000000000000000 ≤ n ∧ n < 0x100000000000000000000000000000000 then
    some (.integer n)
  else none

def radixInteger? (base : Nat) (cs : List Char) : Option Document := do
  let ds ← ungroup? (fun c => (hexDigit? c).any (· < base)) cs
  bounded? (ds.foldl (fun n c => base * n + (hexDigit? c).getD 0) 0)

def decimalInteger? (cs : List Char) : Option Document := do
  let (negative, cs) := Decimal.sign cs
  let n := Decimal.ofDigits (← wholeDigits? cs)
  bounded? (if negative then -(n : Int) else n)

def power? (cs : List Char) : Option Int := do
  let (negative, cs) := Decimal.sign cs
  let n := Decimal.ofDigits (← ungroup? Char.isDigit cs)
  return if negative then -(n : Int) else n

def isExponentMark (c : Char) : Bool := c == 'e' || c == 'E'

/-- A numeral with a fraction, an exponent or both; one too large for binary64 is refused. -/
def decimalFloat? (cs : List Char) : Option Document := do
  let (negative, cs) := Decimal.sign cs
  let (mantissa, tail) := cs.span (!isExponentMark ·)
  let power ← match tail with
    | [] => some none
    | _ :: digits => (power? digits).map some
  let (whole, tail) := mantissa.span (· != '.')
  let fraction ← match tail with
    | [] => some none
    | _ :: digits => (ungroup? Char.isDigit digits).map some
  if power.isNone ∧ fraction.isNone then none
  else
    let x :=
      (Decimal.ofParts negative (← wholeDigits? whole) (fraction.getD []) (power.getD 0)).toFloat
    if x.isInf then none else some (.float x)

def namedFloat? (cs : List Char) : Option Document :=
  let (negative, cs) := Decimal.sign cs
  let x : Option Float :=
    if cs = ['i', 'n', 'f'] then some (1.0 / 0.0)
    else if cs = ['n', 'a', 'n'] then some (0.0 / 0.0)
    else none
  x.map fun x => .float (if negative then -x else x)

def field? (width low high : Nat) (cs : List Char) : Option (Nat × List Char) :=
  let ds := cs.take width
  let n := Decimal.ofDigits ds
  if ds.length = width ∧ ds.all Char.isDigit ∧ low ≤ n ∧ n ≤ high then some (n, cs.drop width)
  else none

def exactly? (c : Char) : List Char → Option (List Char)
  | d :: rest => if d = c then some rest else none
  | [] => none

def daysIn (year month : Nat) : Nat :=
  if month = 2 then
    if year % 4 = 0 ∧ (year % 100 ≠ 0 ∨ year % 400 = 0) then 29 else 28
  else if month = 4 ∨ month = 6 ∨ month = 9 ∨ month = 11 then 30
  else 31

abbrev MomentPart := Option (List Char × List Char)

def date? (cs : List Char) : MomentPart := do
  let (year, rest) ← field? 4 0 9999 cs
  let (month, rest) ← field? 2 1 12 (← exactly? '-' rest)
  let (_, rest) ← field? 2 1 (daysIn year month) (← exactly? '-' rest)
  return (cs.take 10, rest)

/-- Fractions of a second are kept to nine digits, and zeros at their end are dropped. -/
def fraction? : List Char → MomentPart
  | '.' :: rest =>
    let (digits, rest) := rest.span Char.isDigit
    let kept := ((digits.take 9).reverse.dropWhile (· == '0')).reverse
    if digits.isEmpty then none else some ('.' :: if kept.isEmpty then ['0'] else kept, rest)
  | rest => some ([], rest)

def time? (cs : List Char) : MomentPart := do
  let (_, rest) ← field? 2 0 23 cs
  let (_, rest) ← field? 2 0 59 (← exactly? ':' rest)
  match rest with
  | ':' :: seconds =>
    let (_, rest) ← field? 2 0 60 seconds
    let (fraction, rest) ← fraction? rest
    return (cs.take 8 ++ fraction, rest)
  | _ => return (cs.take 5, rest)

def offset? (cs : List Char) : MomentPart :=
  match cs with
  | [] => some ([], [])
  | 'Z' :: rest | 'z' :: rest => some (['Z'], rest)
  | '+' :: rest => distance? '+' rest
  | '-' :: rest => distance? '-' rest
  | _ => none
where
  distance? (sign : Char) (cs : List Char) : MomentPart := do
    let (hours, rest) ← field? 2 0 23 cs
    let (minutes, rest) ← field? 2 0 59 (← exactly? ':' rest)
    return ((if hours = 0 ∧ minutes = 0 then '+' else sign) :: cs.take 5, rest)

/-- A date, a time of day, or both; only both together can have an offset. -/
def moment? (cs : List Char) : Option String :=
  match date? cs with
  | some (date, []) => some (String.ofList date)
  | some (date, separator :: rest) =>
    if separator == 'T' || separator == 't' || separator == ' ' then
      match time? rest with
      | some (time, rest) =>
        match offset? rest with
        | some (offset, []) => some (String.ofList (date ++ 'T' :: time ++ offset))
        | _ => none
      | none => none
    else none
  | none =>
    match time? cs with
    | some (time, []) => some (String.ofList time)
    | _ => none

def isScalarChar (c : Char) : Bool :=
  c.isAlphanum || c == '+' || c == '-' || c == '.' || c == '_' || c == ':'

/-- The characters of a scalar; a date takes a time after a single space along. -/
def scalarToken (cs : List Char) : List Char × List Char :=
  let (token, rest) := cs.span isScalarChar
  match date? token, rest with
  | some (_, []), ' ' :: d :: more =>
    if d.isDigit then
      let (time, rest) := (d :: more).span isScalarChar
      (token ++ ' ' :: time, rest)
    else (token, rest)
  | _, _ => (token, rest)

def ofToken? (token : List Char) : Option Document :=
  match token with
  | ['t', 'r', 'u', 'e'] => some (.bool true)
  | ['f', 'a', 'l', 's', 'e'] => some (.bool false)
  | '0' :: 'x' :: ds => radixInteger? 16 ds
  | '0' :: 'o' :: ds => radixInteger? 8 ds
  | '0' :: 'b' :: ds => radixInteger? 2 ds
  | _ =>
    ((moment? token).map .moment).or
      ((namedFloat? token).or ((decimalInteger? token).or (decimalFloat? token)))

def scalar (cs : List Char) : Option (Document × List Char) :=
  let (token, rest) := scalarToken cs
  (ofToken? token).map fun v => (v, rest)

end LatencyHiding.Document.Toml
