import LatencyHiding.Pattern.Footprint
import LatencyHiding.Pattern.SetReading

set_option autoImplicit false

namespace LatencyHiding.Pattern

open Text (CharRanges)

/-- A pattern with its height, by how much its text nests; a switch is an item that cannot be
repeated. -/
structure Item where
  pattern : Pattern
  height : Nat := 0
  isSwitch : Bool := false

def inSequence : List Item → Item
  | [] => { pattern := .empty }
  | [item] => { item with isSwitch := false }
  | items =>
    { pattern := (items.map (·.pattern)).foldr .both .empty
      height := highest (items.map (·.height)) + 1 }

def anyOf (first : Pattern) (others : List Pattern) : Pattern :=
  match (first :: others).mapM (·.set?) with
  | some sets => .char (.unions sets)
  | none => others.foldl .either first

def alternatives : List Item → Item
  | [] => { pattern := .empty }
  | [item] => item
  | item :: items =>
    { pattern := anyOf item.pattern (items.map (·.pattern))
      height := highest ((item :: items).map (·.height)) + 1 }

def repeatLatest (least : Nat) (most : Option Nat) : List Item → Parser (List Item)
  | [] => failure
  | item :: items => do
    demand !item.isSwitch
    return { pattern := item.pattern.repeated least most, height := item.height + 1 } :: items

def decimal : Parser Nat := do
  modify fun c => { c with rest := c.rest.dropWhile Text.isBlank }
  let digits ← digitsFrom ((← rest).length + 1)
  modify fun c => { c with rest := c.rest.dropWhile Text.isBlank }
  skipBlanks
  demand !digits.isEmpty
  let n := digits.foldl (fun n d => 10 * n + (d.toNat - '0'.toNat)) 0
  demand (n < UInt32.size)
  return n
where
  digitsFrom : (fuel : Nat) → Parser (List Char)
    | 0 => return []
    | fuel + 1 => do
      match ← rest with
      | c :: _ =>
        if c.isDigit then
          advance 1
          skipBlanks
          return c :: (← digitsFrom fuel)
        else return []
      | [] => return []

def count : Parser (Nat × Option Nat) := do
  skipBlanks
  let least ← decimal
  let most ←
    if ← takeIf "," then
      skipBlanks
      if (← rest).head? == some '\x7d' then pure none else some <$> decimal
    else pure (some least)
  demand (← takeIf "\x7d")
  skipBlanks
  demand (most.all (least ≤ ·))
  return (least, most)

def isNameChar (isFirst : Bool) (c : Char) : Bool :=
  c == '_' || CharRanges.letters.contains c ||
    (!isFirst && (c == '.' || c == '[' || c == ']' || CharRanges.numbers.contains c))

def groupName : Parser Unit := do
  let name := (← rest).takeWhile (· != '>')
  demand (name.head?.any (isNameChar true) && name.tail.all (isNameChar false))
  advance name.length
  demand (← takeIf ">")
  let name := String.ofList name
  demand !((← get).names.contains name)
  modify fun c => { c with names := name :: c.names }

def setSwitch? (w : Switches) (value : Bool) : Char → Option Switches
  | 'i' => some { w with ignoreCase := value }
  | 'm' => some { w with multiLine := value }
  | 's' => some { w with dotTakesAll := value }
  | 'R' => some { w with returns := value }
  | 'u' => some { w with unicode := value }
  | 'x' => some { w with spaced := value }
  | 'U' => some w
  | _ => none

/-- Switches as they are after a list of letters. Those after a dash are turned off, no letter and no
dash stands twice, and a dash does not come last. -/
def switched? (w : Switches) (letters : List Char) : Option Switches :=
  if letters.Nodup ∧ letters.getLast? ≠ some '-' then
    let (on, off) := letters.span (· != '-')
    (on.foldlM (setSwitch? · true) w).bind fun w => (off.drop 1).foldlM (setSwitch? · false) w
  else none

def single (c : Char) : Parser Pattern := do
  let w ← switches
  match c with
  | '^' => return .look w.lineStart
  | '$' => return .look w.lineStop
  | '.' => return .char (← lift w.dot?)
  | '\\' =>
    match ← escape with
    | .literal c isByte => return .char (← lift (w.literal? c isByte))
    | .look condition => return .look condition
    | .set chars => return .char chars
  | c => return .char (← lift (w.literal? c false))

def closed (wrap : Pattern → Pattern) (outer : Switches) (body : Item) : Parser Item := do
  demand (← takeIf ")")
  modify fun c => { c with switches := outer }
  return { pattern := wrap body.pattern, height := body.height + 1 }

def maxHeight : Nat := 250

def looksAround (cs : List Char) : Bool :=
  ["?=", "?!", "?<=", "?<!"].any (·.toList.isPrefixOf cs)

mutual

/-- Alternatives up to a closing bracket or the end, after some earlier ones, the latest first. -/
def branches : (fuel depth : Nat) → List Item → Parser Item
  | 0, _, _ => failure
  | fuel + 1, depth, earlier => do
    let branch ← sequence fuel depth []
    if ← takeIf "|" then branches fuel depth (branch :: earlier)
    else return alternatives (branch :: earlier).reverse

def sequence : (fuel depth : Nat) → List Item → Parser Item
  | 0, _, _ => failure
  | fuel + 1, depth, items => do
    skipBlanks
    match ← rest with
    | [] | '|' :: _ | ')' :: _ => return inSequence items.reverse
    | c :: _ =>
      advance 1
      match c with
      | '(' => sequence fuel depth ((← group fuel depth) :: items)
      | '[' =>
        let (set, height) ← bracket (2 * (← rest).length + 2)
        sequence fuel depth ({ pattern := .char set, height } :: items)
      | '*' => afterRepetition fuel depth 0 none items
      | '+' => afterRepetition fuel depth 1 none items
      | '?' => afterRepetition fuel depth 0 (some 1) items
      | '\x7b' =>
        let (least, most) ← count
        afterRepetition fuel depth least most items
      | _ => sequence fuel depth ({ pattern := ← single c } :: items)

/-- Go on after a repetition, and after the mark that asks for the shortest match. -/
def afterRepetition : (fuel depth least : Nat) → (most : Option Nat) → List Item → Parser Item
  | 0, _, _, _, _ => failure
  | fuel + 1, depth, least, most, items => do
    let _ ← takeIf "?"
    sequence fuel depth (← repeatLatest least most items)

def group : (fuel depth : Nat) → Parser Item
  | 0, _ => failure
  | fuel + 1, depth => do
    demand (depth < maxHeight)
    skipBlanks
    demand !(looksAround (← rest))
    let outer ← switches
    let isNamed ← if ← takeIf "?P<" then pure true else takeIf "?<"
    if isNamed then
      groupName
      closed .marked outer (← branches fuel (depth + 1) [])
    else if ← takeIf "?" then
      let letters := (← rest).takeWhile fun c => c != ':' && c != ')'
      let inner ← lift (switched? outer letters)
      advance letters.length
      modify fun c => { c with switches := inner }
      if ← takeIf ":" then
        closed id outer (← branches fuel (depth + 1) [])
      else
        demand (← takeIf ")")
        demand !letters.isEmpty
        return { pattern := .empty, isSwitch := true }
    else
      closed .marked outer (← branches fuel (depth + 1) [])

end

def ofText? (text : String) : Option Pattern :=
  match (branches (4 * text.length + 4) 0 []).run { rest := text.toList } with
  | some (item, cursor) =>
    if cursor.rest.isEmpty ∧ item.height ≤ maxHeight ∧ item.pattern.fits then some item.pattern
    else none
  | none => none

end LatencyHiding.Pattern
