set_option autoImplicit false

namespace LatencyHiding

inductive Document where
  | null
  | bool (value : Bool)
  | integer (value : Int)
  | float (value : Float)
  | text (value : String)
  | moment (value : String)
  | list (items : List Document)
  | table (entries : List (String × Document))

namespace Document

def lookup (key : String) : List (String × Document) → Option Document
  | [] => none
  | (k, v) :: rest => if k = key then some v else lookup key rest

def get? : Document → String → Option Document
  | .table entries, key => lookup key entries
  | _, _ => none

/-- Put an entry at the end, or in the place of the one with the same key. -/
def putEntry (key : String) (value : Document) :
    List (String × Document) → List (String × Document)
  | [] => [(key, value)]
  | (k, v) :: rest => if k = key then (key, value) :: rest else (k, v) :: putEntry key value rest

end Document

end LatencyHiding
