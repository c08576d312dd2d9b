set_option autoImplicit false

namespace LatencyHiding.Bytes

def largest : UInt64 := 0xFFFFFFFFFFFFFFFF

def total (sizes : List UInt64) : UInt64 := sizes.foldr (· + ·) 0

def addStopping (a b : UInt64) : UInt64 :=
  if a.toNat + b.toNat < UInt64.size then a + b else largest

def mulStopping (a b : UInt64) : UInt64 :=
  if a.toNat * b.toNat < UInt64.size then a * b else largest

def subStopping (a b : UInt64) : UInt64 := if b ≤ a then a - b else 0

def add? (a b : UInt64) : Option UInt64 :=
  if a.toNat + b.toNat < UInt64.size then some (a + b) else none

def sub? (a b : UInt64) : Option UInt64 := if b ≤ a then some (a - b) else none

def total? (sizes : List UInt64) : Option UInt64 := sizes.foldlM add? 0

/-- Difference of two counts that are read as signed numbers. -/
def difference? (a b : UInt64) : Option Int64 :=
  let exact := a.toInt64.toInt - b.toInt64.toInt
  if Int64.minValue.toInt ≤ exact ∧ exact ≤ Int64.maxValue.toInt then some (a.toInt64 - b.toInt64) else none

theorem toNat_mulStopping (a b : UInt64) :
    (mulStopping a b).toNat = min (a.toNat * b.toNat) (UInt64.size - 1) := by
  unfold mulStopping
  split
  · next h => rw [UInt64.toNat_mul, Nat.mod_eq_of_lt h]; omega
  · next h => change UInt64.size - 1 = _; omega

theorem toNat_subStopping (a b : UInt64) : (subStopping a b).toNat = a.toNat - b.toNat := by
  unfold subStopping
  split
  · next h => exact UInt64.toNat_sub_of_le _ _ h
  · next h =>
    have : a.toNat < b.toNat := by simpa [UInt64.le_iff_toNat_le] using h
    simp; omega

end LatencyHiding.Bytes
