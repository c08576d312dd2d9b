import LatencyHiding.Pattern.Switches
import LatencyHiding.Text.Blank

set_option autoImplicit false

namespace LatencyHiding.Pattern

structure Cursor where
  rest : List Char
  switches : Switches := {}
  names : List String := []

abbrev Parser := StateT Cursor Option

/-- What follows blanks and comments; a comment goes to the end of its line. -/
def dropBlanks (inComment : Bool) : List Char → List Char
  | [] => []
  | c :: rest =>
    if inComment then dropBlanks (c != '\n') rest
    else if Text.isBlank c then dropBlanks false rest
    else if c == '#' then dropBlanks true rest
    else c :: rest

def rest : Parser (List Char) := return (← get).rest

def switches : Parser Switches := return (← get).switches

def advance (n : Nat) : Parser Unit := modify fun c => { c with rest := c.rest.drop n }

def skipBlanks : Parser Unit :=
  modify fun c => if c.switches.spaced then { c with rest := dropBlanks false c.rest } else c

def next : Parser Char := do
  match ← rest with
  | [] => failure
  | c :: _ => advance 1; return c

def takeIf (word : String) : Parser Bool := do
  if word.toList.isPrefixOf (← rest) then
    advance word.length
    return true
  else
    return false

def demand (ok : Bool) : Parser Unit := if ok then return () else failure

def lift {α : Type} (result : Option α) : Parser α := StateT.lift result

def upTo (stop : Char) (admits : Char → Bool) : (fuel : Nat) → Parser (List Char)
  | 0 => failure
  | fuel + 1 => do
    skipBlanks
    match ← rest with
    | [] => failure
    | c :: _ =>
      if c == stop then return []
      else
        demand (admits c)
        advance 1
        return c :: (← upTo stop admits fuel)

end LatencyHiding.Pattern
