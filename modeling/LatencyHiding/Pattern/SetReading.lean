import LatencyHiding.Pattern.Escape

set_option autoImplicit false

namespace LatencyHiding.Pattern

open Text (CharRanges)

abbrev Measured := CharRanges × Nat

inductive SetOperator where
  | inter | diff | symmDiff

def SetOperator.apply : SetOperator → CharRanges → CharRanges → CharRanges
  | .inter => CharRanges.inter
  | .diff => CharRanges.diff
  | .symmDiff => CharRanges.symmDiff

def highest (heights : List Nat) : Nat := heights.foldl max 0

def together : List Measured → Measured
  | [] => (.empty, 0)
  | [item] => item
  | items => (.unions (items.map (·.1)), highest (items.map (·.2)) + 1)

abbrev LeftSide := Option (Measured × SetOperator)

def combine (w : Switches) (left : LeftSide) (items : List Measured) : Measured :=
  let right := together items
  match left with
  | none => right
  | some (left, operator) =>
    (operator.apply (w.fold left.1) (w.fold right.1), max left.2 right.2 + 1)

def namedClass : Parser (Option CharRanges) := do
  match ← rest with
  | '[' :: ':' :: text =>
    let negated := text.head? == some '^'
    let text := if negated then text.drop 1 else text
    let (name, after) := text.span (· != ':')
    match after, namedClass? (String.ofList name) with
    | ':' :: ']' :: _, some set =>
      advance (name.length + (if negated then 5 else 4))
      return some (← lift ((← switches).close? negated set))
    | _, _ => return none
  | _ => return none

/-- The first character that is neither blank nor the start of a comment, or else just the first. -/
def glance (w : Switches) (cs : List Char) : Option Char :=
  let unblanked := cs.dropWhile Text.isBlank
  let found := if unblanked.head? == some '#' then (unblanked.drop 1).dropWhile Text.isBlank else unblanked
  if w.spaced then found.head?.or cs.head? else cs.head?

def setAtom : Parser Escape := do
  match ← next with
  | '\\' => escape
  | c => return .literal c false

def Escape.member (e : Escape) : Parser Char := do
  match e with
  | .literal c isByte =>
    let w ← switches
    demand (w.unicode || !isByte || c.toNat < 0x80)
    lift (w.member? c)
  | _ => failure

/-- A class, a character or a range of characters. A dash before the closing bracket or before another
dash does not make a range. -/
def setItem : Parser Measured := do
  let first ← setAtom
  skipBlanks
  match ← rest with
  | [] => failure
  | '-' :: after =>
    let second := glance (← switches) after
    if second == some ']' || second == some '-' then single first
    else
      advance 1
      skipBlanks
      let last ← setAtom
      let first ← first.member
      let last ← last.member
      demand (first ≤ last)
      return (.range first last, 0)
  | _ => single first
where
  single (e : Escape) : Parser Measured := do
    match e with
    | .set chars => return (chars, 0)
    | e =>
      let c ← e.member
      return (.single c, 0)

def dashes : (fuel : Nat) → Parser (List Measured)
  | 0 => return []
  | fuel + 1 => do
    if ← takeIf "-" then
      skipBlanks
      return (.single '-', 0) :: (← dashes fuel)
    else
      return []

/-- Characters at the front of a set that would mean something else later on: dashes, or else a
closing bracket. -/
def setFront : Parser (List Measured) := do
  let front ← dashes (← rest).length
  if front.isEmpty then
    if ← takeIf "]" then return [(.single ']', 0)]
    else return []
  else
    return front

mutual

def bracket : (fuel : Nat) → Parser Measured
  | 0 => failure
  | fuel + 1 => do
    skipBlanks
    let negated ← takeIf "^"
    skipBlanks
    let (set, height) ← setBody fuel none (← setFront)
    return (← lift ((← switches).close? negated set), height + 1)

def setBody : (fuel : Nat) → LeftSide → List Measured → Parser Measured
  | 0, _, _ => failure
  | fuel + 1, left, items => do
    skipBlanks
    let w ← switches
    if let some set ← namedClass then
      setBody fuel left (items ++ [(set, 0)])
    else if ← takeIf "[" then
      let nested ← bracket fuel
      setBody fuel left (items ++ [nested])
    else if ← takeIf "]" then
      return combine w left items
    else if ← takeIf "&&" then
      setBody fuel (some (combine w left items, .inter)) []
    else if ← takeIf "--" then
      setBody fuel (some (combine w left items, .diff)) []
    else if ← takeIf "~~" then
      setBody fuel (some (combine w left items, .symmDiff)) []
    else
      let item ← setItem
      setBody fuel left (items ++ [item])

end

end LatencyHiding.Pattern
