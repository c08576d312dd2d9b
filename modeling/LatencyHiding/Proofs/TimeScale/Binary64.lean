import LatencyHiding.Proofs.TimeScale.Laws
import Mathlib

set_option autoImplicit false

namespace LatencyHiding.Binary64

open Float.Model Float.Model.UnpackedFloat

/-- Sign, exponent and mantissa, with infinities beyond all else. -/
def height : UnpackedFloat → Option (ℤ ×ₗ ℤ ×ₗ ℤ)
  | .notANumber => none
  | .infinity .negative => some (toLex (-2, toLex (0, 0)))
  | .finite .negative m e _ => some (toLex (-1, toLex (-e, -m)))
  | .zero _ => some (toLex (0, toLex (0, 0)))
  | .finite .positive m e _ => some (toLex (1, toLex (e, m)))
  | .infinity .positive => some (toLex (2, toLex (0, 0)))

theorem compare_toLex (a b c x y z : ℤ) :
    compare (toLex (a, toLex (b, c))) (toLex (x, toLex (y, z))) =
      (compare a x).then ((compare b y).then (compare c z)) := by
  rw [Prod.Lex.compare_def, compareLex, compareOn, compareOn, Prod.Lex.compare_def, compareLex,
    compareOn, compareOn]
  rfl

theorem compare_neg_neg (x y : ℤ) : compare (-x) (-y) = (compare x y).swap := by
  rcases lt_trichotomy x y with h | rfl | h
  · rw [compare_lt_iff_lt.2 h, compare_gt_iff_gt.2 (neg_lt_neg h), Ordering.swap_lt]
  · rw [compare_eq_iff_eq.2 rfl, compare_eq_iff_eq.2 rfl, Ordering.swap_eq]
  · rw [compare_gt_iff_gt.2 h, compare_lt_iff_lt.2 (neg_lt_neg h), Ordering.swap_gt]

theorem compare_natCast (m n : ℕ) : compare (m : ℤ) n = compare m n := by
  rcases lt_trichotomy m n with h | rfl | h
  · rw [compare_lt_iff_lt.2 h, compare_lt_iff_lt.2 (Int.ofNat_lt.2 h)]
  · rw [compare_eq_iff_eq.2 rfl, compare_eq_iff_eq.2 rfl]
  · rw [compare_gt_iff_gt.2 h, compare_gt_iff_gt.2 (Int.ofNat_lt.2 h)]

theorem compare_eq (a b : UnpackedFloat) :
    a.compare b = (height a).bind fun x => (height b).map (compare x) := by
  rcases a with (_ | _) | _ | (_ | _) | ⟨(_ | _), m, e, hm⟩ <;>
    rcases b with (_ | _) | _ | (_ | _) | ⟨(_ | _), m', e', hm'⟩ <;>
    simp only [UnpackedFloat.compare, height, compare_toLex, Option.bind_none, Option.bind_some,
      Option.map_none, Option.map_some]
  all_goals try rfl
  · rw [compare_neg_neg e e', compare_neg_neg m m', compare_natCast, Ordering.swap_then]
    rfl
  · rw [compare_natCast]
    rfl

theorem lt_iff (a b : Float) : a < b ↔ ∃ x y, height a.toModel.unpack = some x ∧
    height b.toModel.unpack = some y ∧ x < y := by
  change decide ((a.toModel.unpack.compare b.toModel.unpack == some .lt) = true) = true ↔ _
  rw [decide_eq_true_iff, compare_eq]
  cases height a.toModel.unpack <;> cases height b.toModel.unpack <;> simp [compare_lt_iff_lt]

theorem le_iff (a b : Float) : a ≤ b ↔ ∃ x y, height a.toModel.unpack = some x ∧
    height b.toModel.unpack = some y ∧ x ≤ y := by
  change decide (((a.toModel.unpack.compare b.toModel.unpack).any (·.isLE)) = true) = true ↔ _
  rw [decide_eq_true_iff, compare_eq]
  cases height a.toModel.unpack <;> cases height b.toModel.unpack <;>
    simp [Ordering.isLE_iff_ne_gt, compare_le_iff_le]

theorem beq_iff (a b : Float) : (a == b) = true ↔ ∃ x, height b.toModel.unpack = some x ∧
    height a.toModel.unpack = some x := by
  change (a.toModel.unpack.compare b.toModel.unpack == some .eq) = true ↔ _
  rw [compare_eq]
  cases height a.toModel.unpack <;> cases height b.toModel.unpack <;> simp [compare_eq_iff_eq]

theorem height_inj {u v : UnpackedFloat} {x : ℤ ×ₗ ℤ ×ₗ ℤ} (hu : height u = some x)
    (hv : height v = some x) (hx : toLex (0, toLex (0, 0)) < x) : u = v := by
  rcases u with (_ | _) | _ | (_ | _) | ⟨(_ | _), m, e, hm⟩ <;>
    rcases v with (_ | _) | _ | (_ | _) | ⟨(_ | _), m', e', hm'⟩ <;>
    simp only [height, Option.some.injEq, reduceCtorEq] at hu hv <;> subst hu <;>
    simp_all [Prod.Lex.toLex_lt_toLex]

theorem height_zero : height (TimeScale.zero : Float).toModel.unpack =
    some (toLex (0, toLex (0, 0))) := by
  rfl

theorem eq_of_height {a b : Float} {x : ℤ ×ₗ ℤ ×ₗ ℤ} (ha : height a.toModel.unpack = some x)
    (hb : height b.toModel.unpack = some x) (hx : toLex (0, toLex (0, 0)) < x) : a = b := by
  have hbits := (unpack_inj_of_valid a.toModel.valid b.toModel.valid).1 (height_inj ha hb hx)
  exact Float.toBits_inj.1 (UInt64.toBitVec_inj.1 hbits)

theorem exists_height {a : Float} (ha : TimeScale.IsReading a) :
    ∃ x, height a.toModel.unpack = some x ∧
      (a = TimeScale.zero ∨ toLex (0, toLex (0, 0)) < x) := by
  rcases ha with rfl | ha
  · exact ⟨_, height_zero, Or.inl rfl⟩
  · obtain ⟨x, y, hx, hy, hxy⟩ := (lt_iff _ _).1 ha
    rw [height_zero, Option.some.injEq] at hx
    exact ⟨y, hy, Or.inr (hx ▸ hxy)⟩

/-- Readings of one height are the same, although zero has the height of minus zero. -/
theorem eq_of_isReading {a b : Float} (ha : TimeScale.IsReading a) (hb : TimeScale.IsReading b)
    (hsame : height a.toModel.unpack = height b.toModel.unpack) : a = b := by
  obtain ⟨x, hx, hzero⟩ := exists_height ha
  obtain ⟨y, hy, hzero'⟩ := exists_height hb
  obtain rfl : x = y := Option.some.inj (hx.symm.trans (hsame.trans hy))
  rcases hzero with rfl | hpos
  · rcases hzero' with rfl | hpos
    · rfl
    · rw [height_zero, Option.some.injEq] at hx
      exact absurd (hx ▸ hpos) (lt_irrefl _)
  · exact eq_of_height hx hy hpos

instance : TimeScale.Ordered Float where
  lt_irrefl a h := by
    obtain ⟨x, y, hx, hy, hxy⟩ := (lt_iff a a).1 h
    rw [hx, Option.some.injEq] at hy
    exact lt_irrefl _ (hy ▸ hxy)
  lt_trans {a b c} hab hbc := by
    obtain ⟨x, y, hx, hy, hxy⟩ := (lt_iff a b).1 hab
    obtain ⟨y', z, hy', hz, hyz⟩ := (lt_iff b c).1 hbc
    rw [hy, Option.some.injEq] at hy'
    exact (lt_iff a c).2 ⟨x, z, hx, hz, lt_trans hxy (hy' ▸ hyz)⟩
  not_lt_of_le {a b} hab hba := by
    obtain ⟨x, y, hx, hy, hxy⟩ := (le_iff a b).1 hab
    obtain ⟨y', x', hy', hx', hyx⟩ := (lt_iff b a).1 hba
    rw [hx, Option.some.injEq] at hx'
    rw [hy, Option.some.injEq] at hy'
    subst hx' hy'
    exact not_lt_of_ge hxy hyx
  eq_of_not_lt {a b} ha hb hab hba := by
    obtain ⟨x, hx, _⟩ := exists_height ha
    obtain ⟨y, hy, _⟩ := exists_height hb
    have hxy : ¬ x < y := fun h => hab ((lt_iff a b).2 ⟨x, y, hx, hy, h⟩)
    have hyx : ¬ y < x := fun h => hba ((lt_iff b a).2 ⟨y, x, hy, hx, h⟩)
    exact eq_of_isReading ha hb (by rw [hx, hy, le_antisymm (not_lt.1 hyx) (not_lt.1 hxy)])
  beq_iff {a b} ha hb := by
    rw [beq_iff]
    constructor
    · rintro ⟨x, hx, hy⟩
      exact eq_of_isReading ha hb (hy.trans hx.symm)
    · rintro rfl
      obtain ⟨x, hx, _⟩ := exists_height ha
      exact ⟨x, hx, hx⟩
  le_or_lt {now a b} hnow hb := by
    obtain ⟨x, _, hx, _, _⟩ := (lt_iff now a).1 hnow
    obtain ⟨y, hy, _⟩ := exists_height hb
    rcases le_or_gt y x with hyx | hxy
    · exact Or.inl ((le_iff b now).2 ⟨y, x, hy, hx, hyx⟩)
    · exact Or.inr ((lt_iff now b).2 ⟨x, y, hx, hy, hxy⟩)

end LatencyHiding.Binary64
