import LatencyHiding.Document.Basic

set_option autoImplicit false

namespace LatencyHiding.Document

structure Dialect where
  /-- A list that is longer than the section has fields is accepted. -/
  ignoresSurplus : Bool
  /-- What may stand under the name of a choice that is written as a table of one entry. -/
  isUnit : Document → Bool

def Dialect.json : Dialect where
  ignoresSurplus := false
  isUnit
    | .null => true
    | _ => false

def Dialect.toml : Dialect where
  ignoresSurplus := true
  isUnit
    | .list [] | .table [] => true
    | _ => false

/-- The entries of a table. A moment counts as a table that holds its text under a key of its own. -/
def entries? : Document → Option (List (String × Document))
  | .table es => some es
  | .moment s => some [("$__toml_private_datetime", .text s)]
  | _ => none

/-- A section is written as a table, in which unknown keys are ignored, or as a list of its fields
in their order. -/
abbrev Section := String → Option Document

def section? (dialect : Dialect) (names : List String) : Document → Option Section
  | .list vs =>
    if vs.length ≤ names.length ∨ dialect.ignoresSurplus then
      some fun name => vs[names.idxOf name]?
    else none
  | d => (entries? d).map fun es name => lookup name es

def Section.required {α : Type} (s : Section) (name : String) (read : Document → Option α) :
    Option α :=
  (s name).bind read

def Section.optional {α : Type} (s : Section) (name : String) (default : α)
    (read : Document → Option α) : Option α :=
  match s name with
  | none => some default
  | some v => read v

def text? : Document → Option String
  | .text s => some s
  | _ => none

def bool? : Document → Option Bool
  | .bool b => some b
  | _ => none

def natBelow? (bound : Nat) : Document → Option Nat
  | .integer n => if 0 ≤ n ∧ n < bound then some n.toNat else none
  | _ => none

def uint32? (d : Document) : Option UInt32 := (natBelow? UInt32.size d).map (·.toUInt32)

def uint64? (d : Document) : Option UInt64 := (natBelow? UInt64.size d).map (·.toUInt64)

def float? : Document → Option Float
  | .float x => some x
  | .integer n => if -0x8000000000000000 ≤ n ∧ n < UInt64.size then some (Float.ofInt n) else none
  | _ => none

def listOf? {α : Type} (read : Document → Option α) : Document → Option (List α)
  | .list vs => vs.mapM read
  | _ => none

def tableOf? {α : Type} (read : Document → Option α) (d : Document) : Option (List (String × α)) :=
  (entries? d).bind (·.mapM fun (key, v) => (read v).map (key, ·))

def nullable {α : Type} (read : Document → Option α) : Document → Option (Option α)
  | .null => some none
  | v => (read v).map some

def choice? {α : Type} (dialect : Dialect) (ofName? : String → Option α) : Document → Option α
  | .text name => ofName? name
  | .table [(name, v)] => if dialect.isUnit v then ofName? name else none
  | _ => none

end LatencyHiding.Document
