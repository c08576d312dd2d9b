import LatencyHiding.Pattern.Basic

set_option autoImplicit false

namespace LatencyHiding

open Text (CharRanges)

namespace Text

def byteCount (n : Nat) : Nat :=
  if n < 0x80 then 1 else if n < 0x800 then 2 else if n < 0x10000 then 3 else 4

def bytesOf (n : Nat) : List Nat :=
  match byteCount n with
  | 1 => [n]
  | 2 => [0xC0 + n / 64, 0x80 + n % 64]
  | 3 => [0xE0 + n / 4096, 0x80 + n / 64 % 64, 0x80 + n % 64]
  | _ => [0xF0 + n / 262144, 0x80 + n / 4096 % 64, 0x80 + n / 64 % 64, 0x80 + n % 64]

abbrev ByteRanges := List (Nat × Nat)

def encodingLimit? (first last : Nat) : Option Nat :=
  [0x7F, 0x7FF, 0xFFFF].find? fun limit => first ≤ limit && limit < last

/-- Where a range has to be cut so that its bytes vary independently of each other. -/
def blockCut? (first last : Nat) : Option Nat :=
  [64, 4096, 262144].findSome? fun block =>
    if first / block = last / block then none
    else if first % block ≠ 0 then some (first - first % block + block - 1)
    else if last % block ≠ block - 1 then some (last - last % block - 1)
    else none

/-- A range of character numbers as sequences of byte ranges. Every cut settles one byte at one end,
so few cuts follow each other. -/
def byteRanges : (cuts : Nat) → Nat → Nat → List ByteRanges
  | 0, _, _ => []
  | cuts + 1, first, last =>
    if last < first then []
    else if first < 0xE000 ∧ 0xD7FF < last then
      byteRanges cuts first 0xD7FF ++ byteRanges cuts 0xE000 last
    else
      match (encodingLimit? first last).or (if last < 0x80 then none else blockCut? first last) with
      | some cut => byteRanges cuts first cut ++ byteRanges cuts (cut + 1) last
      | none => [(bytesOf first).zip (bytesOf last)]

def CharRanges.byteRanges (s : CharRanges) : List ByteRanges :=
  s.ranges.flatMap fun (first, last) => Text.byteRanges 32 first last

def branches : List ByteRanges → List ((Nat × Nat) × List ByteRanges)
  | [] => []
  | [] :: rest => branches rest
  | (b :: bs) :: rest =>
    match branches rest with
    | (b', more) :: others =>
      if b = b' then (b, bs :: more) :: others else (b, [bs]) :: (b', more) :: others
    | [] => [(b, [bs])]

def places : (depth : Nat) → List ByteRanges → List (List ByteRanges)
  | 0, _ => []
  | depth + 1, sequences =>
    sequences :: (branches sequences).flatMap fun (_, rest) =>
      if rest.all (·.isEmpty) then [] else places depth rest

end Text

namespace Pattern

/-- Room for one state of the machine, for one range of bytes that leads on from it, and for one of
several ways on. -/
def stateRoom : Nat := 32
def rangeRoom : Nat := 8
def wayRoom : Nat := 4

def forkRoom : Nat := stateRoom + 2 * wayRoom

def plainSetRoom? (s : CharRanges) : Option Nat :=
  match s.single? with
  | some c => some (stateRoom * Text.byteCount c.toNat)
  | none =>
    if s.isAscii then
      some (2 * stateRoom + if s.ranges.length = 1 then 0 else rangeRoom * s.ranges.length)
    else none

/-- Reading forwards, equal ends of sequences are kept once. -/
def forwardSetRoom (s : CharRanges) : Nat :=
  (plainSetRoom? s).getD <|
    ((Text.places 4 s.byteRanges).eraseDups.map fun place =>
      stateRoom + rangeRoom * (Text.branches place).length).foldl (· + ·) stateRoom

/-- Reading backwards, equal fronts of sequences are kept once. -/
def backwardSetRoom (s : CharRanges) : Nat :=
  (plainSetRoom? s).getD <|
    ((Text.places 4 s.byteRanges).map fun place =>
      stateRoom * (Text.branches place).length).foldl (· + ·)
        (2 * stateRoom + wayRoom * s.byteRanges.length)

def repeatedRoom (isSolid : Bool) (least : Nat) (most : Option Nat) (body : Nat) : Nat :=
  match most with
  | none =>
    if least = 0 then if isSolid then forkRoom + body else 2 * forkRoom + stateRoom + body
    else least * body + forkRoom
  | some most =>
    if most = 0 then stateRoom
    else if least = most then least * body
    else if most = 1 then forkRoom + body + stateRoom
    else max stateRoom (least * body) + stateRoom + (most - least) * (forkRoom + body)

def isEither : Pattern → Bool
  | either _ _ => true
  | _ => false

def room (markRoom : Nat) (setRoom : CharRanges → Nat) : Pattern → Nat
  | empty | look _ => stateRoom
  | char set => setRoom set
  | marked p => p.room markRoom setRoom + 2 * markRoom
  | both p q => p.room markRoom setRoom + q.room markRoom setRoom
  | either p q =>
    p.room markRoom setRoom + q.room markRoom setRoom + wayRoom +
      if p.isEither then 0 else 2 * stateRoom + wayRoom
  | times least most p =>
    repeatedRoom p.isSolid least most (p.room markRoom setRoom)

def frameRoom : Nat := forkRoom + 5 * stateRoom

def roomLimit : Nat := 10 * 1024 * 1024

def fits (p : Pattern) : Bool :=
  frameRoom + p.room stateRoom forwardSetRoom ≤ roomLimit &&
    frameRoom + p.room 0 backwardSetRoom ≤ roomLimit

end Pattern

end LatencyHiding
