import LatencyHiding.Decimal.Reading
import LatencyHiding.Document.Basic
import LatencyHiding.Text.Hex

set_option autoImplicit false

namespace LatencyHiding.Document

namespace Json

open Text (hexValue? scalar?)

abbrev Reader (α : Type) := List Char → Option (α × List Char)

def isSpace (c : Char) : Bool := c == ' ' || c == '\t' || c == '\n' || c == '\r'

def skipSpace (cs : List Char) : List Char := cs.dropWhile isSpace

/-- A hexadecimal escape of four digits; a high surrogate joins with the low one after it. -/
def unicodeEscape (cs : List Char) : Option (Char × List Char) := do
  let unit ← if (cs.take 4).length = 4 then hexValue? (cs.take 4) else none
  let rest := cs.drop 4
  if 0xD800 ≤ unit ∧ unit < 0xDC00 then
    match rest with
    | '\\' :: 'u' :: rest =>
      let low ← if (rest.take 4).length = 4 then hexValue? (rest.take 4) else none
      if 0xDC00 ≤ low ∧ low < 0xE000 then
        let c ← scalar? (0x10000 + (unit - 0xD800) * 0x400 + (low - 0xDC00))
        return (c, rest.drop 4)
      else none
    | _ => none
  else
    let c ← scalar? unit
    return (c, rest)

def simpleEscape? : Char → Option Char
  | '"' => some '"'
  | '\\' => some '\\'
  | '/' => some '/'
  | 'b' => some (Char.ofNat 8)
  | 'f' => some (Char.ofNat 12)
  | 'n' => some '\n'
  | 'r' => some '\r'
  | 't' => some '\t'
  | _ => none

def stringBody : Nat → Reader (List Char)
  | 0, _ => none
  | fuel + 1, cs =>
    match cs with
    | [] => none
    | '"' :: rest => some ([], rest)
    | '\\' :: 'u' :: rest => do
      let (c, rest) ← unicodeEscape rest
      let (body, rest) ← stringBody fuel rest
      return (c :: body, rest)
    | '\\' :: e :: rest => do
      let c ← simpleEscape? e
      let (body, rest) ← stringBody fuel rest
      return (c :: body, rest)
    | c :: rest =>
      if c.toNat < 0x20 ∨ c = '\\' then none
      else do
        let (body, rest) ← stringBody fuel rest
        return (c :: body, rest)

def string (cs : List Char) : Option (String × List Char) :=
  (stringBody (cs.length + 1) cs).map fun (body, rest) => (String.ofList body, rest)

def digits (cs : List Char) : List Char × List Char := cs.span Char.isDigit

def exponent (cs : List Char) : Option (Int × List Char) :=
  let (negative, cs) := Decimal.sign cs
  let (power, cs) := digits cs
  if power.isEmpty then none
  else
    let n : Int := Decimal.ofDigits power
    some (if negative then -n else n, cs)

def integer (negative : Bool) (n : Nat) : Document :=
  if negative then
    if 0 < n ∧ n ≤ 0x8000000000000000 then .integer (-n) else .float (Decimal.toFloat ⟨true, n, 0⟩)
  else if n < UInt64.size then .integer n
  else .float (Decimal.toFloat ⟨false, n, 0⟩)

def number (cs : List Char) : Option (Document × List Char) := do
  let (negative, cs) := match cs with
    | '-' :: rest => (true, rest)
    | _ => (false, cs)
  let (whole, cs) := digits cs
  if whole.isEmpty ∨ (1 < whole.length ∧ whole.head? = some '0') then none
  else
    let (fraction, cs) ← match cs with
      | '.' :: rest =>
        let (fraction, rest) := digits rest
        if fraction.isEmpty then none else some (some fraction, rest)
      | _ => some (none, cs)
    let (power, cs) ← match cs with
      | 'e' :: rest | 'E' :: rest => (exponent rest).map fun (n, rest) => (some n, rest)
      | _ => some (none, cs)
    match fraction, power with
    | none, none => return (integer negative (Decimal.ofDigits whole), cs)
    | _, _ =>
      return (.float (Decimal.ofParts negative whole (fraction.getD []) (power.getD 0)).toFloat, cs)

def word (w : String) (cs : List Char) : Option (List Char) :=
  if w.toList.isPrefixOf cs then some (cs.drop w.length) else none

mutual

/-- A value; every level of nesting and every item uses up some of `fuel`. -/
def value : (fuel : Nat) → Reader Document
  | 0, _ => none
  | fuel + 1, cs =>
    match skipSpace cs with
    | '\x7b' :: rest =>
      match skipSpace rest with
      | '\x7d' :: rest => some (.table [], rest)
      | rest => (entries fuel [] rest).map fun (es, rest) => (.table es, rest)
    | '[' :: rest =>
      match skipSpace rest with
      | ']' :: rest => some (.list [], rest)
      | rest => (items fuel rest).map fun (vs, rest) => (.list vs, rest)
    | '"' :: rest => (string rest).map fun (s, rest) => (.text s, rest)
    | 't' :: rest => (word "rue" rest).map (.bool true, ·)
    | 'f' :: rest => (word "alse" rest).map (.bool false, ·)
    | 'n' :: rest => (word "ull" rest).map (.null, ·)
    | rest => number rest

def items : (fuel : Nat) → Reader (List Document)
  | 0, _ => none
  | fuel + 1, cs => do
    let (v, rest) ← value fuel cs
    match skipSpace rest with
    | ',' :: rest =>
      let (vs, rest) ← items fuel rest
      return (v :: vs, rest)
    | ']' :: rest => return ([v], rest)
    | _ => none

def entries : (fuel : Nat) → List (String × Document) → Reader (List (String × Document))
  | 0, _, _ => none
  | fuel + 1, earlier, cs =>
    match skipSpace cs with
    | '"' :: rest => do
      let (key, rest) ← string rest
      match skipSpace rest with
      | ':' :: rest =>
        let (v, rest) ← value fuel rest
        let earlier := putEntry key v earlier
        match skipSpace rest with
        | ',' :: rest => entries fuel earlier rest
        | '\x7d' :: rest => return (earlier, rest)
        | _ => none
      | _ => none
    | _ => none

end

end Json

/-- A numeral without fraction and exponent is an integer if it fits 64 bits, signed or unsigned;
every other one, minus zero included, is a binary64 number. Of two entries with one key the later
counts. -/
def ofJson? (text : String) : Option Document :=
  match Json.value (text.length + 1) text.toList with
  | some (d, rest) => if rest.all Json.isSpace then some d else none
  | none => none

end LatencyHiding.Document
