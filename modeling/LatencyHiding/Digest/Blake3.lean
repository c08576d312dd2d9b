set_option autoImplicit false

namespace LatencyHiding.Blake3

abbrev Chain := Vector UInt32 8

abbrev Block := Vector UInt32 16

def initialChain : Chain :=
  #v[0x6A09E667, 0xBB67AE85, 0x3C6EF372, 0xA54FF53A, 0x510E527F, 0x9B05688C, 0x1F83D9AB, 0x5BE0CD19]

def chunkStart : UInt32 := 1
def chunkEnd : UInt32 := 2
def parentFlag : UInt32 := 4
def rootFlag : UInt32 := 8

def permutation : Vector (Fin 16) 16 := #v[2, 6, 3, 10, 7, 0, 4, 13, 1, 11, 12, 5, 9, 14, 15, 8]

def permute (block : Block) : Block := permutation.map fun i => block[i]

def rotateRight (x n : UInt32) : UInt32 := (x >>> n) ||| (x <<< (32 - n))

def mix (s : Block) (a b c d : Fin 16) (x y : UInt32) : Block :=
  let s := s.set a (s[a] + s[b] + x)
  let s := s.set d (rotateRight (s[d] ^^^ s[a]) 16)
  let s := s.set c (s[c] + s[d])
  let s := s.set b (rotateRight (s[b] ^^^ s[c]) 12)
  let s := s.set a (s[a] + s[b] + y)
  let s := s.set d (rotateRight (s[d] ^^^ s[a]) 8)
  let s := s.set c (s[c] + s[d])
  s.set b (rotateRight (s[b] ^^^ s[c]) 7)

def round (s m : Block) : Block :=
  let s := mix s 0 4 8 12 m[0] m[1]
  let s := mix s 1 5 9 13 m[2] m[3]
  let s := mix s 2 6 10 14 m[4] m[5]
  let s := mix s 3 7 11 15 m[6] m[7]
  let s := mix s 0 5 10 15 m[8] m[9]
  let s := mix s 1 6 11 12 m[10] m[11]
  let s := mix s 2 7 8 13 m[12] m[13]
  mix s 3 4 9 14 m[14] m[15]

def rounds : Nat → Block → Block → Block
  | 0, s, _ => s
  | n + 1, s, m => rounds n (round s m) (permute m)

/-- What a node of the tree compresses; the root is marked only when it is known to be one. -/
structure Node where
  chain : Chain
  block : Block
  counter : Nat
  length : Nat
  flags : UInt32

def Node.compress (n : Node) (flags : UInt32) : Chain :=
  let start : Block := #v[
    n.chain[0], n.chain[1], n.chain[2], n.chain[3], n.chain[4], n.chain[5], n.chain[6], n.chain[7],
    initialChain[0], initialChain[1], initialChain[2], initialChain[3],
    n.counter.toUInt32, (n.counter / UInt32.size).toUInt32, n.length.toUInt32, n.flags ||| flags]
  let s := rounds 7 start n.block
  #v[s[0] ^^^ s[8], s[1] ^^^ s[9], s[2] ^^^ s[10], s[3] ^^^ s[11],
    s[4] ^^^ s[12], s[5] ^^^ s[13], s[6] ^^^ s[14], s[7] ^^^ s[15]]

def word (bytes : List UInt8) : UInt32 :=
  bytes.foldr (fun b w => (w <<< 8) ||| b.toUInt32) 0

def blockOf (bytes : List UInt8) : Block :=
  Vector.ofFn fun i => word ((bytes.drop (4 * i.val)).take 4)

/-- Compress all but the last block of a chunk; the last one is left as a node. -/
def chunkNode (counter : Nat) : (fuel : Nat) → Chain → UInt32 → List UInt8 → Node
  | 0, chain, flags, bytes => ⟨chain, blockOf bytes, counter, bytes.length, flags ||| chunkEnd⟩
  | fuel + 1, chain, flags, bytes =>
    if bytes.length ≤ 64 then ⟨chain, blockOf bytes, counter, bytes.length, flags ||| chunkEnd⟩
    else
      let node : Node := ⟨chain, blockOf (bytes.take 64), counter, 64, flags⟩
      chunkNode counter fuel (node.compress 0) 0 (bytes.drop 64)

def chunk (counter : Nat) (bytes : List UInt8) : Node :=
  chunkNode counter 16 initialChain chunkStart bytes

def parent (left right : Chain) : Node :=
  ⟨initialChain, (left ++ right : Vector UInt32 16), 0, 64, parentFlag⟩

def chunkBytes : Nat := 1024

/-- Bytes in the left part of a tree over more than one chunk: the largest power of two of whole
chunks that leaves something for the right part. -/
def leftBytes (length : Nat) : Nat := chunkBytes * Nat.pow 2 ((length - 1) / chunkBytes).log2

/-- The tree over `bytes`, which start with chunk number `counter`. -/
def tree : (fuel : Nat) → (counter : Nat) → List UInt8 → Node
  | 0, counter, bytes => chunk counter bytes
  | fuel + 1, counter, bytes =>
    if bytes.length ≤ chunkBytes then chunk counter bytes
    else
      let left := leftBytes bytes.length
      parent ((tree fuel counter (bytes.take left)).compress 0)
        ((tree fuel (counter + left / chunkBytes) (bytes.drop left)).compress 0)

def wordBytes (w : UInt32) : List UInt8 :=
  [w.toUInt8, (w >>> 8).toUInt8, (w >>> 16).toUInt8, (w >>> 24).toUInt8]

def digest (bytes : List UInt8) : List UInt8 :=
  ((tree bytes.length 0 bytes).compress rootFlag).toList.flatMap wordBytes

def hexByte (b : UInt8) : List Char :=
  [Nat.digitChar (b.toNat / 16), Nat.digitChar (b.toNat % 16)]

def hexDigest (bytes : List UInt8) : String := String.ofList ((digest bytes).flatMap hexByte)

end LatencyHiding.Blake3
