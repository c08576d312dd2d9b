import LatencyHiding.Bytes
import Mathlib.Data.UInt
import Mathlib.Data.List.Basic

set_option autoImplicit false

/-!
Checked arithmetic and the arithmetic that wraps around. A checked computation gives the value of the
other one or none at all, and where everything is safe there is a value. Both are said at once, so
that what is safe need be known only where a sum is made.
-/

namespace LatencyHiding

variable {α β : Type} {safe : Prop}

/-- The value is `a`, unless there is none and things are not safe. -/
def Gives (safe : Prop) (x : Option α) (a : α) : Prop := x = some a ∨ ¬ safe ∧ x = none

namespace Gives

theorem some (a : α) : Gives safe (some a) a := Or.inl rfl

theorem ite {P : Prop} [Decidable P] (h : safe → P) (a : α) :
    Gives safe (if P then .some a else none) a := by
  by_cases hP : P
  · rw [if_pos hP]
    exact .some a
  · rw [if_neg hP]
    exact Or.inr ⟨fun hsafe => hP (h hsafe), rfl⟩

theorem eq_some {x : Option α} {a : α} (h : Gives safe x a) (hsafe : safe) : x = .some a :=
  h.resolve_right fun hnone => hnone.1 hsafe

theorem eq_of_some {x : Option α} {a b : α} (h : Gives safe x a) (hx : x = .some b) : b = a := by
  rcases h with h | ⟨_, h⟩
  · exact Option.some.inj (hx.symm.trans h)
  · rw [hx] at h
    cases h

theorem bind {x : Option α} {a : α} {f : α → Option β} {b : β} (hx : Gives safe x a)
    (hf : Gives safe (f a) b) : Gives safe (x >>= f) b := by
  rcases hx with rfl | ⟨hsafe, rfl⟩
  · exact hf
  · exact Or.inr ⟨hsafe, rfl⟩

theorem map {x : Option α} {a : α} (hx : Gives safe x a) (f : α → β) :
    Gives safe (x.map f) (f a) := by
  rcases hx with rfl | ⟨hsafe, rfl⟩
  · exact .some _
  · exact Or.inr ⟨hsafe, rfl⟩

theorem foldlM {f : β → α → Option β} {g : β → α → β} (I : β → List α → Prop)
    (hstep : ∀ b x rest, (safe → I b (x :: rest)) → Gives safe (f b x) (g b x))
    (hkeep : ∀ b x rest, I b (x :: rest) → I (g b x) rest) {l : List α} {b : β}
    (h : safe → I b l) : Gives safe (l.foldlM f b) (l.foldl g b) := by
  induction l generalizing b with
  | nil => exact .some b
  | cons x rest ih =>
    rw [List.foldlM_cons, List.foldl_cons]
    exact (hstep b x rest h).bind (ih fun hsafe => hkeep b x rest (h hsafe))

end Gives

namespace Bytes

variable {a b : UInt64}

theorem gives_add (h : safe → a.toNat + b.toNat < 2 ^ 64) : Gives safe (add? a b) (a + b) := .ite h _

theorem gives_sub (h : safe → b ≤ a) : Gives safe (sub? a b) (a - b) := .ite h _

theorem foldl_add (sizes : List UInt64) (start : UInt64) :
    sizes.foldl (· + ·) start = start + total sizes := by
  induction sizes generalizing start with
  | nil => exact (UInt64.add_zero start).symm
  | cons size sizes ih =>
    rw [List.foldl_cons, ih, UInt64.add_assoc]
    rfl

theorem gives_total {sizes : List UInt64} (h : safe → (sizes.map UInt64.toNat).sum < 2 ^ 64) :
    Gives safe (total? sizes) (total sizes) := by
  have hfold : Gives safe (sizes.foldlM add? 0) (sizes.foldl (· + ·) 0) := by
    apply Gives.foldlM fun sum rest => sum.toNat + (rest.map UInt64.toNat).sum < 2 ^ 64
    · intro sum size rest hsum
      apply gives_add
      intro hsafe
      have := hsum hsafe
      rw [List.map_cons, List.sum_cons] at this
      omega
    · intro sum size rest hsum
      rw [List.map_cons, List.sum_cons] at hsum
      rw [UInt64.toNat_add, Nat.mod_eq_of_lt (by omega)]
      omega
    · intro hsafe
      rw [UInt64.toNat_zero, Nat.zero_add]
      exact h hsafe
  rwa [foldl_add, UInt64.zero_add] at hfold

end Bytes

end LatencyHiding
