import LatencyHiding.Text.Property

set_option autoImplicit false

namespace LatencyHiding

open Text (CharRanges)

inductive WordEdge where
  /-- A word starts or stops here. -/
  | boundary
  | noBoundary
  | start
  | stop
  /-- No word goes on from before. -/
  | startHalf
  /-- No word goes on from here. -/
  | stopHalf

/-- A condition on a place in a text. A line ends at a line feed or, if `returns` is set, also at a
carriage return, the two of which count as one when they follow each other. -/
inductive Look where
  | textStart
  | textStop
  | lineStart (returns : Bool)
  | lineStop (returns : Bool)
  | word (edge : WordEdge) (ascii : Bool)

def asciiWordChars : CharRanges := ⟨[(0x30, 0x39), (0x41, 0x5A), (0x5F, 0x5F), (0x61, 0x7A)]⟩

def WordEdge.holds (edge : WordEdge) (before after : Bool) : Bool :=
  match edge with
  | .boundary => before != after
  | .noBoundary => before == after
  | .start => !before && after
  | .stop => before && !after
  | .startHalf => !before
  | .stopHalf => !after

/-- Whether a condition holds between two characters, one of which is missing at an end. -/
def Look.holds (l : Look) (before after : Option Char) : Bool :=
  match l with
  | .textStart => before.isNone
  | .textStop => after.isNone
  | .lineStart false => before.all (· == '\n')
  | .lineStart true => before.all fun c => c == '\n' || (c == '\r' && after != some '\n')
  | .lineStop false => after.all (· == '\n')
  | .lineStop true => after.all fun c => c == '\r' || (c == '\n' && before != some '\r')
  | .word edge ascii =>
    let chars := if ascii then asciiWordChars else CharRanges.wordChars
    edge.holds (before.any chars.contains) (after.any chars.contains)

inductive Pattern where
  | empty
  | look (condition : Look)
  | char (set : CharRanges)
  /-- A part that can be referred to. -/
  | marked (body : Pattern)
  | both (first second : Pattern)
  | either (first second : Pattern)
  /-- At least and at most so many times one after the other. -/
  | times (least : Nat) (most : Option Nat) (body : Pattern)

namespace Pattern

def set? : Pattern → Option CharRanges
  | char set => some set
  | _ => none

def isWeightless : Pattern → Bool
  | empty | look _ => true
  | char _ => false
  | marked p => p.isWeightless
  | both p q | either p q => p.isWeightless && q.isWeightless
  | times _ most p => most == some 0 || p.isWeightless

/-- A pattern repeated. What takes up no characters need not be repeated more than once. -/
def repeated (p : Pattern) (least : Nat) (most : Option Nat) : Pattern :=
  if p.isWeightless then times (min least 1) (some (min (most.getD 1) 1)) p else times least most p

def isSolid : Pattern → Bool
  | empty | look _ => false
  | char _ => true
  | marked p => p.isSolid
  | both p q => p.isSolid || q.isSolid
  | either p q => p.isSolid && q.isSolid
  | times least _ p => 0 < least && p.isSolid

end Pattern

end LatencyHiding
