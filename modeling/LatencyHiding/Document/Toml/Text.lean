import LatencyHiding.Document.Toml.Definition
import LatencyHiding.Document.Toml.Scalar

set_option autoImplicit false

namespace LatencyHiding.Document

namespace Toml

open Json (Reader)

def isBareKeyChar (c : Char) : Bool := c.isAlphanum || c == '_' || c == '-'

def simpleKey (cs : List Char) : Option (String × List Char) :=
  match shortString? cs with
  | some key => some key
  | none =>
    let (bare, rest) := cs.span isBareKeyChar
    if bare.isEmpty then none else some (String.ofList bare, rest)

def dottedKey : (fuel : Nat) → Reader (List String × String)
  | 0, _ => none
  | fuel + 1, cs => do
    let (key, rest) ← simpleKey (skipSpace cs)
    match skipSpace rest with
    | '.' :: rest =>
      let ((path, last), rest) ← dottedKey fuel rest
      return ((key :: path, last), rest)
    | rest => return (([], key), rest)

/-- How deep values may be nested, and how many parts a key may have. -/
def maxDepth : Nat := 80

def key (cs : List Char) : Option ((List String × String) × List Char) := do
  let ((path, last), rest) ← dottedKey (cs.length + 1) cs
  if path.length < maxDepth then some ((path, last), rest) else none

def comment? (cs : List Char) : Option (List Char) :=
  let (body, rest) := cs.span (· != '\n')
  if body.any fun c => isControl c && c != '\r' then none else some rest

def skipLines : (fuel : Nat) → List Char → Option (List Char)
  | 0, _ => none
  | fuel + 1, cs =>
    match skipSpace cs with
    | '#' :: rest => do skipLines fuel (← comment? rest)
    | rest =>
      match newline? rest with
      | some rest => skipLines fuel rest
      | none => some rest

def gap (cs : List Char) : Option (List Char) := skipLines (cs.length + 1) cs

mutual

def value : (fuel depth : Nat) → Reader Document
  | 0, _, _ => none
  | fuel + 1, depth, cs =>
    match cs with
    | '[' :: rest =>
      if depth < maxDepth then
        (items fuel (depth + 1) rest).map fun (vs, rest) => (.list vs, rest)
      else none
    | '\x7b' :: rest =>
      if depth < maxDepth then
        (pairs fuel (depth + 1) [] rest).map fun (es, rest) => (.table (entriesToDocument es), rest)
      else none
    | '"' :: _ | '\'' :: _ => (string? cs).map fun (s, rest) => (.text s, rest)
    | _ => scalar cs

def items : (fuel depth : Nat) → Reader (List Document)
  | 0, _, _ => none
  | fuel + 1, depth, cs => do
    match ← gap cs with
    | ']' :: rest => return ([], rest)
    | rest =>
      let (v, rest) ← value fuel depth rest
      match ← gap rest with
      | ']' :: rest => return ([v], rest)
      | ',' :: rest =>
        let (vs, rest) ← items fuel depth rest
        return (v :: vs, rest)
      | _ => none

def pairs : (fuel depth : Nat) → Entries → Reader Entries
  | 0, _, _, _ => none
  | fuel + 1, depth, earlier, cs => do
    match ← gap cs with
    | '\x7d' :: rest => return (earlier, rest)
    | rest =>
      let ((path, last), rest) ← key rest
      match ← gap rest with
      | '=' :: rest =>
        let (v, rest) ← value fuel depth (← gap rest)
        let earlier ← define path last v .header earlier
        match ← gap rest with
        | ',' :: rest => pairs fuel depth earlier rest
        | '\x7d' :: rest => return (earlier, rest)
        | _ => none
      | _ => none

end

structure Draft where
  root : Entries := []
  header : List String := []

def lineEnd (cs : List Char) : Option (List Char) := do
  let rest ← match skipSpace cs with
    | '#' :: rest => comment? rest
    | rest => some rest
  match rest with
  | [] => some []
  | rest => newline? rest

def statement (d : Draft) (cs : List Char) : Option (Draft × List Char) :=
  match cs with
  | '[' :: '[' :: rest => do
    let ((path, last), rest) ← key rest
    match rest with
    | ']' :: ']' :: rest => return (⟨← openRow path last d.root, path ++ [last]⟩, rest)
    | _ => none
  | '[' :: rest => do
    let ((path, last), rest) ← key rest
    match rest with
    | ']' :: rest => return (⟨← openTable path last d.root, path ++ [last]⟩, rest)
    | _ => none
  | _ => do
    let ((path, last), rest) ← key cs
    match rest with
    | '=' :: rest =>
      let rest := skipSpace rest
      let (v, rest) ← value (rest.length + 1) 0 rest
      return ({ d with root := ← defineUnder d.header path last v d.root }, rest)
    | _ => none

def statements : (fuel : Nat) → Draft → List Char → Option Draft
  | 0, _, _ => none
  | fuel + 1, d, cs => do
    match ← gap cs with
    | [] => return d
    | rest =>
      let (d, rest) ← statement d rest
      statements fuel d (← lineEnd rest)

end Toml

/-- The document that a TOML text is; a byte order mark in front does not count. -/
def ofToml? (text : String) : Option Document :=
  let cs := match text.toList with
    | c :: rest => if c.toNat = 0xFEFF then rest else c :: rest
    | [] => []
  if Toml.returnsPaired cs then
    (Toml.statements (cs.length + 1) {} cs).map fun d => .table (Toml.entriesToDocument d.root)
  else none

end LatencyHiding.Document
