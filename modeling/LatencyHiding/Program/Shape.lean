import LatencyHiding.Bytes

set_option autoImplicit false

namespace LatencyHiding

inductive Shape where
  | array (bytes : UInt64)
  | tuple (elements : List Shape)

namespace Shape

abbrev Path := List Nat

def pointerSize : UInt64 := 8

/-- An array takes its bytes, a tuple only its table of pointers. -/
def byteSize : Shape → UInt64
  | .array bytes => bytes
  | .tuple elements => pointerSize * elements.length.toUInt64

def isArray : Shape → Bool
  | .array _ => true
  | .tuple _ => false

def isTuple : Shape → Bool
  | .array _ => false
  | .tuple _ => true

def element? : Shape → Nat → Option Shape
  | .array _, _ => none
  | .tuple elements, i => elements[i]?

def at? (s : Shape) : Path → Option Shape
  | [] => some s
  | i :: rest => (s.element? i).bind (·.at? rest)

mutual

def indices : Shape → List Path
  | .array _ => [[]]
  | .tuple elements => [] :: indicesFrom 0 elements

def indicesFrom (i : Nat) : List Shape → List Path
  | [] => []
  | e :: rest => e.indices.map (i :: ·) ++ indicesFrom (i + 1) rest

end

mutual

def text : Shape → String
  | .array bytes => s!"{bytes.toNat}B"
  | .tuple elements => "(" ++ ", ".intercalate (texts elements) ++ ")"

def texts : List Shape → List String
  | [] => []
  | e :: rest => e.text :: texts rest

end

abbrev Sizing := Shape → UInt64

def totalSize (sizing : Sizing) (s : Shape) : UInt64 :=
  Bytes.total ((s.indices.filterMap s.at?).map sizing)

def totalSize? (sizing : Sizing) (s : Shape) : Option UInt64 :=
  Bytes.total? ((s.indices.filterMap s.at?).map sizing)

end Shape

end LatencyHiding
