import LatencyHiding.Text.Hex

set_option autoImplicit false

namespace LatencyHiding.Text

structure CharRanges where
  ranges : List (Nat × Nat)
  deriving DecidableEq

namespace CharRanges

def contains (s : CharRanges) (c : Char) : Bool :=
  s.ranges.any fun (first, last) => first ≤ c.toNat && c.toNat ≤ last

def join : List (Nat × Nat) → List (Nat × Nat)
  | [] => []
  | (first, last) :: rest => joinFrom first last rest
where
  joinFrom (first last : Nat) : List (Nat × Nat) → List (Nat × Nat)
    | [] => [(first, last)]
    | (first', last') :: rest =>
      if first' ≤ last + 1 then joinFrom first (max last last') rest
      else (first, last) :: joinFrom first' last' rest

def ofList (ranges : List (Nat × Nat)) : CharRanges :=
  ⟨join (ranges.mergeSort fun a b => a.1 ≤ b.1)⟩

def empty : CharRanges := ⟨[]⟩

def range (first last : Char) : CharRanges := ⟨[(first.toNat, last.toNat)]⟩

def single (c : Char) : CharRanges := range c c

def lastNumber : Nat := 0x10FFFF

def all : CharRanges := ⟨[(0, lastNumber)]⟩

def union (s t : CharRanges) : CharRanges := ofList (s.ranges ++ t.ranges)

def unions (sets : List CharRanges) : CharRanges := ofList (sets.flatMap (·.ranges))

/-- What ascending ranges leave out, from the number `next` on. -/
def gaps (next : Nat) : List (Nat × Nat) → List (Nat × Nat)
  | [] => if next ≤ lastNumber then [(next, lastNumber)] else []
  | (first, last) :: rest =>
    if next < first then (next, first - 1) :: gaps (last + 1) rest else gaps (last + 1) rest

def complement (s : CharRanges) : CharRanges := ⟨gaps 0 s.ranges⟩

def inter (s t : CharRanges) : CharRanges := (s.complement.union t.complement).complement

def diff (s t : CharRanges) : CharRanges := s.inter t.complement

def symmDiff (s t : CharRanges) : CharRanges := (s.diff t).union (t.diff s)

def isAscii (s : CharRanges) : Bool := s.ranges.all fun (_, last) => last < 0x80

def single? (s : CharRanges) : Option Char :=
  match s.ranges with
  | [(first, last)] => if first = last then some (Char.ofNat first) else none
  | _ => none

def hexNumber (digits : List Char) : Nat := (hexValue? digits).getD 0

def rangeOfText (word : String) : Nat × Nat :=
  let (first, rest) := word.toList.span (· != '-')
  (hexNumber first, hexNumber (if rest.isEmpty then first else rest.drop 1))

def ofLines (lines : List String) : CharRanges :=
  ofList ((lines.flatMap (·.splitOn " ")).map rangeOfText)

end CharRanges

end LatencyHiding.Text
