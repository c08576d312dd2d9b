import LatencyHiding.Document.Basic

set_option autoImplicit false

namespace LatencyHiding.Document.Toml

inductive Origin where
  /-- A header of its own, or an inline table. -/
  | header
  /-- Implied by the header of a table inside it. -/
  | implied
  /-- Implied by a dotted key. -/
  | dotted
  deriving DecidableEq

inductive Item where
  | value (v : Document)
  | table (origin : Origin) (entries : List (String × Item))
  | rows (tables : List (List (String × Item)))

abbrev Entries := List (String × Item)

mutual

def Item.toDocument : Item → Document
  | .value v => v
  | .table _ es => .table (entriesToDocument es)
  | .rows ts => .list (rowsToDocument ts)

def entriesToDocument : List (String × Item) → List (String × Document)
  | [] => []
  | (k, item) :: rest => (k, item.toDocument) :: entriesToDocument rest

def rowsToDocument : List (List (String × Item)) → List Document
  | [] => []
  | es :: rest => .table (entriesToDocument es) :: rowsToDocument rest

end

def alter (key : String) (f : Option Item → Option Item) : Entries → Option Entries
  | [] => (f none).map fun item => [(key, item)]
  | (k, item) :: rest =>
    if k = key then (f (some item)).map fun item => (key, item) :: rest
    else (alter key f rest).map ((k, item) :: ·)

/-- Go down a path of keys to the table that `f` then changes. Missing tables are made with origin
`made`, tables whose origin is not admitted stop the way, and of rows the last one is meant. -/
def descend (made : Origin) (admits : Origin → Bool) (f : Origin → Entries → Option Entries) :
    List String → Origin → Entries → Option Entries
  | [], origin, es => f origin es
  | key :: path, _, es =>
    es |> alter key fun
      | none => (descend made admits f path made []).map (.table made)
      | some (.table origin inner) =>
        if admits origin then (descend made admits f path origin inner).map (.table origin)
        else none
      | some (.rows tables) =>
        match tables.getLast? with
        | some last => (descend made admits f path .header last).map fun last =>
          .rows (tables.dropLast ++ [last])
        | none => none
      | some (.value _) => none

/-- The header `[path.key]`: a table that no header and no dotted key has defined before. -/
def openTable (path : List String) (key : String) (root : Entries) : Option Entries :=
  descend .implied (fun _ => true)
    (fun _ => alter key fun
      | none => some (.table .header [])
      | some (.table .implied inner) => some (.table .header inner)
      | _ => none)
    path .header root

def openRow (path : List String) (key : String) (root : Entries) : Option Entries :=
  descend .implied (fun _ => true)
    (fun _ => alter key fun
      | none => some (.rows [[]])
      | some (.rows tables) => some (.rows (tables ++ [[]]))
      | _ => none)
    path .header root

/-- The entry `path.key = v`. A dotted key neither enters nor extends a table that has a header, and
no key is given twice. -/
def define (path : List String) (key : String) (v : Document) (origin : Origin) (es : Entries) :
    Option Entries :=
  descend .dotted (· != .header)
    (fun reached inner =>
      if path.isEmpty ∨ reached = .dotted then
        inner |> alter key fun
          | none => some (.value v)
          | some _ => none
      else none)
    path origin es

def defineUnder (header path : List String) (key : String) (v : Document) (root : Entries) :
    Option Entries :=
  descend .implied (fun _ => true) (define path key v) header .header root

end LatencyHiding.Document.Toml
