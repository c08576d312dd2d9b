import LatencyHiding.Pattern.Basic
import LatencyHiding.Text.CaseFold

set_option autoImplicit false

namespace LatencyHiding.Pattern

open Text (CharRanges)

structure Switches where
  ignoreCase : Bool := false
  multiLine : Bool := false
  dotTakesAll : Bool := false
  /-- Carriage returns end lines too. -/
  returns : Bool := false
  /-- Classes, words and case go beyond ASCII. -/
  unicode : Bool := true
  /-- Blanks and comments between items are skipped. -/
  spaced : Bool := false

def asciiDigits : CharRanges := .range '0' '9'

def asciiBlanks : CharRanges := ⟨[(9, 13), (0x20, 0x20)]⟩

def foldedAscii (s : CharRanges) : CharRanges :=
  let shifted (letters : CharRanges) (shift : Int) : CharRanges :=
    ⟨(s.inter letters).ranges.map fun (a, b) => ((a + shift).toNat, (b + shift).toNat)⟩
  .unions [s, shifted (.range 'A' 'Z') 32, shifted (.range 'a' 'z') (-32)]

namespace Switches

def fold (w : Switches) (s : CharRanges) : CharRanges :=
  if w.ignoreCase then if w.unicode then s.folded else foldedAscii s else s

/-- Without Unicode a set must not go beyond ASCII. -/
def admit? (w : Switches) (s : CharRanges) : Option CharRanges :=
  if w.unicode || s.isAscii then some s else none

/-- A set that was written out, or its complement, in all spellings. -/
def close? (w : Switches) (negated : Bool) (s : CharRanges) : Option CharRanges :=
  w.admit? (if negated then (w.fold s).complement else w.fold s)

def class? (w : Switches) (c : Char) : Option CharRanges := do
  let set ← match c.toLower with
    | 'd' => some (if w.unicode then .digits else asciiDigits)
    | 's' => some (if w.unicode then .blanks else asciiBlanks)
    | 'w' => some (if w.unicode then .wordChars else asciiWordChars)
    | _ => none
  w.admit? (if c.isUpper then set.complement else set)

/-- A character by itself. Without Unicode, one beyond ASCII cannot be written as a byte. -/
def literal? (w : Switches) (c : Char) (isByte : Bool) : Option CharRanges :=
  if w.unicode then some (if w.ignoreCase then .spellings c else .single c)
  else if c.toNat < 0x80 then some (w.fold (.single c))
  else if isByte then none
  else some (.single c)

def member? (w : Switches) (c : Char) : Option Char :=
  if w.unicode || c.toNat < 0x80 then some c else none

def dot? (w : Switches) : Option CharRanges :=
  if !w.unicode then none
  else if w.dotTakesAll then some .all
  else if w.returns then some (CharRanges.complement ⟨[(10, 10), (13, 13)]⟩)
  else some (CharRanges.complement (.single '\n'))

def lineStart (w : Switches) : Look := if w.multiLine then .lineStart w.returns else .textStart

def lineStop (w : Switches) : Look := if w.multiLine then .lineStop w.returns else .textStop

def word (w : Switches) (edge : WordEdge) : Look := .word edge (!w.unicode)

end Switches

def namedClass? : String → Option CharRanges
  | "alnum" => some ⟨[(0x30, 0x39), (0x41, 0x5A), (0x61, 0x7A)]⟩
  | "alpha" => some ⟨[(0x41, 0x5A), (0x61, 0x7A)]⟩
  | "ascii" => some ⟨[(0, 0x7F)]⟩
  | "blank" => some ⟨[(9, 9), (0x20, 0x20)]⟩
  | "cntrl" => some ⟨[(0, 0x1F), (0x7F, 0x7F)]⟩
  | "digit" => some asciiDigits
  | "graph" => some ⟨[(0x21, 0x7E)]⟩
  | "lower" => some (.range 'a' 'z')
  | "print" => some ⟨[(0x20, 0x7E)]⟩
  | "punct" => some ⟨[(0x21, 0x2F), (0x3A, 0x40), (0x5B, 0x60), (0x7B, 0x7E)]⟩
  | "space" => some asciiBlanks
  | "upper" => some (.range 'A' 'Z')
  | "word" => some asciiWordChars
  | "xdigit" => some ⟨[(0x30, 0x39), (0x41, 0x46), (0x61, 0x66)]⟩
  | _ => none

end LatencyHiding.Pattern
