import LatencyHiding.Pattern.Cursor

set_option autoImplicit false

namespace LatencyHiding.Pattern

open Text (CharRanges hexDigit? hexValue? scalar?)

inductive Escape where
  /-- A character, and whether it was written as a byte of two hexadecimal digits. -/
  | literal (c : Char) (isByte : Bool)
  | look (condition : Look)
  | set (chars : CharRanges)

def isEscapable (c : Char) : Bool := c.toNat < 128 && !c.isAlphanum && c != '<' && c != '>'

def controlChar? : Char → Option Char
  | 'a' => some '\x07'
  | 'f' => some '\x0c'
  | 't' => some '\t'
  | 'n' => some '\n'
  | 'r' => some '\r'
  | 'v' => some '\x0b'
  | _ => none

def hexDigits : (width : Nat) → Parser (List Char)
  | 0 => return []
  | width + 1 => do
    let c ← next
    demand (hexDigit? c).isSome
    skipBlanks
    return c :: (← hexDigits width)

/-- A character by its number: a fixed number of digits, or any number of them in braces. -/
def numbered (width : Nat) : Parser Escape := do
  skipBlanks
  if ← takeIf "\x7b" then
    let digits ← upTo '\x7d' (fun c => (hexDigit? c).isSome) ((← rest).length + 1)
    advance 1
    demand !digits.isEmpty
    return .literal (← lift ((hexValue? digits).bind scalar?)) false
  else
    let digits ← hexDigits width
    return .literal (← lift ((hexValue? digits).bind scalar?)) (width == 2)

def splitAt? (mark : List Char) : List Char → Option (List Char × List Char)
  | [] => none
  | c :: cs =>
    if mark.isPrefixOf (c :: cs) then some ([], (c :: cs).drop mark.length)
    else (splitAt? mark cs).map fun (before, after) => (c :: before, after)

def propertySet? (text : List Char) : Option (Bool × CharRanges) :=
  let ofPair (negated : Bool) : List Char × List Char → Option (Bool × CharRanges)
    | (name, value) =>
      (CharRanges.ofPropertyValue? (String.ofList name) (String.ofList value)).map (negated, ·)
  match splitAt? ['!', '='] text with
  | some pair => ofPair true pair
  | none =>
    match (splitAt? [':'] text).or (splitAt? ['='] text) with
    | some pair => ofPair false pair
    | none => (CharRanges.ofProperty? (String.ofList text)).map (false, ·)

def property (negated : Bool) : Parser Escape := do
  skipBlanks
  let name ←
    if ← takeIf "\x7b" then
      let name ← upTo '\x7d' (fun _ => true) ((← rest).length + 1)
      advance 1
      pure name
    else
      let c ← next
      demand (c != '\\')
      pure [c]
  let w ← switches
  demand w.unicode
  let (unequal, set) ← lift (propertySet? name)
  return .set (← lift (w.close? (negated != unequal) set))

def wordEdge? : String → Option WordEdge
  | "start" => some .start
  | "end" => some .stop
  | "start-half" => some .startHalf
  | "end-half" => some .stopHalf
  | _ => none

def isEdgeChar (c : Char) : Bool := c.isAlpha || c == '-'

def wordEdge : Parser WordEdge := do
  let start ← get
  if ← takeIf "\x7b" then
    skipBlanks
    match ← rest with
    | [] => failure
    | c :: _ =>
      if isEdgeChar c then
        let name ← upTo '\x7d' isEdgeChar ((← rest).length + 1)
        advance 1
        lift (wordEdge? (String.ofList name))
      else
        set start
        return .boundary
  else
    return .boundary

def escape : Parser Escape := do
  let c ← next
  let w ← switches
  if isEscapable c then return .literal c false
  else if let some control := controlChar? c then return .literal control false
  else
    match c with
    | 'x' => numbered 2
    | 'u' => numbered 4
    | 'U' => numbered 8
    | 'p' => property false
    | 'P' => property true
    | 'A' => return .look .textStart
    | 'z' => return .look .textStop
    | 'b' => return .look (w.word (← wordEdge))
    | 'B' => return .look (w.word .noBoundary)
    | '<' => return .look (w.word .start)
    | '>' => return .look (w.word .stop)
    | _ => return .set (← lift (w.class? c))

end LatencyHiding.Pattern
