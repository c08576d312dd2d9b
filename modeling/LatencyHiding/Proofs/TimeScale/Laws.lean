import LatencyHiding.TimeScale
import Mathlib.Data.List.Basic
import Mathlib.Data.Rat.Defs
import Mathlib.Algebra.Order.Ring.Rat
import Mathlib.Order.Bounds.Basic

set_option autoImplicit false

namespace LatencyHiding.TimeScale

variable {τ : Type} [TimeScale τ]

/-- A time that a clock can show. -/
def IsReading (a : τ) : Prop := a = zero ∨ zero < a

class Ordered (τ : Type) [TimeScale τ] : Prop where
  lt_irrefl : ∀ a : τ, ¬ a < a
  lt_trans : ∀ {a b c : τ}, a < b → b < c → a < c
  not_lt_of_le : ∀ {a b : τ}, a ≤ b → ¬ b < a
  eq_of_not_lt : ∀ {a b : τ}, IsReading a → IsReading b → ¬ a < b → ¬ b < a → a = b
  beq_iff : ∀ {a b : τ}, IsReading a → IsReading b → ((a == b) = true ↔ a = b)
  /-- What comes before something can be compared with every reading. -/
  le_or_lt : ∀ {now a b : τ}, now < a → IsReading b → b ≤ now ∨ now < b

theorem isReading_zero : IsReading (zero : τ) := Or.inl rfl

variable [Ordered τ]

open Ordered

theorem IsReading.of_lt {a b : τ} (ha : IsReading a) (hab : a < b) : IsReading b := by
  rcases ha with rfl | ha
  · exact Or.inr hab
  · exact Or.inr (lt_trans ha hab)

theorem IsReading.beq_self {a : τ} (ha : IsReading a) : (a == a) = true := (beq_iff ha ha).2 rfl

/-- Of two readings one is earlier, or they are the same. -/
theorem IsReading.trichotomy {a b : τ} (ha : IsReading a) (hb : IsReading b) :
    (a < b ∧ ¬ b < a ∧ (a == b) = false) ∨ a = b ∨ (b < a ∧ ¬ a < b ∧ (a == b) = false) := by
  have hne (h : a < b ∨ b < a) : (a == b) = false := by
    rw [Bool.eq_false_iff]
    intro hsame
    rw [beq_iff ha hb] at hsame
    subst hsame
    exact lt_irrefl a (h.elim id id)
  by_cases hab : a < b
  · exact Or.inl ⟨hab, fun hba => lt_irrefl a (lt_trans hab hba), hne (Or.inl hab)⟩
  · by_cases hba : b < a
    · exact Or.inr (Or.inr ⟨hba, hab, hne (Or.inr hba)⟩)
    · exact Or.inr (Or.inl (eq_of_not_lt ha hb hab hba))

theorem IsReading.later_eq {a : τ} (ha : IsReading a) (b : τ) :
    later a b = if a < b then b else a := by
  simp [later, ha.beq_self]

theorem IsReading.later {a : τ} (ha : IsReading a) (b : τ) : IsReading (later a b) := by
  rw [ha.later_eq]
  split
  · next hab => exact ha.of_lt hab
  · exact ha

theorem IsReading.latest {start : τ} (hstart : IsReading start) (times : List τ) :
    IsReading (latest start times) := by
  unfold TimeScale.latest
  induction times generalizing start with
  | nil => exact hstart
  | cons a times ih => exact ih (hstart.later a)

theorem IsReading.later_right_comm {start : τ} (hstart : IsReading start) (a b : τ) :
    TimeScale.later (TimeScale.later start a) b = TimeScale.later (TimeScale.later start b) a := by
  rw [(hstart.later a).later_eq, (hstart.later b).later_eq, hstart.later_eq, hstart.later_eq]
  by_cases ha : start < a
  · by_cases hb : start < b
    · rw [if_pos ha, if_pos hb]
      rcases (hstart.of_lt ha).trichotomy (hstart.of_lt hb) with ⟨hab, hba, _⟩ | rfl | ⟨hba, hab, _⟩
      · rw [if_pos hab, if_neg hba]
      · rfl
      · rw [if_neg hab, if_pos hba]
    · have hab : ¬ a < b := fun hab => hb (lt_trans ha hab)
      simp [ha, hb, hab]
  · by_cases hb : start < b
    · have hba : ¬ b < a := fun hba => ha (lt_trans hb hba)
      simp [ha, hb, hba]
    · simp [ha, hb]

theorem latest_perm {times times' : List τ} (h : times.Perm times') :
    latest zero times = latest zero times' := by
  have hfold : ∀ start : τ, IsReading start → latest start times = latest start times' := by
    induction h with
    | nil => exact fun _ _ => rfl
    | cons a _ ih => exact fun start hstart => ih _ (hstart.later a)
    | swap a b l =>
      intro start hstart
      change latest (later (later start b) a) l = latest (later (later start a) b) l
      rw [hstart.later_right_comm]
    | trans _ _ ih ih' => exact fun start hstart => (ih start hstart).trans (ih' start hstart)
  exact hfold zero isReading_zero

/-- The latest of zero and some times, in a scale where not all times can be compared. -/
def IsLatest (times : Set τ) (t : τ) : Prop :=
  t ∈ insert zero times ∧ ∀ a ∈ insert zero times, ¬ t < a

theorem isLatest_latest (times : List τ) : IsLatest {t | t ∈ times} (latest zero times) := by
  have hfold : ∀ start : τ, IsReading start →
      latest start times ∈ start :: times ∧ ∀ a ∈ start :: times, ¬ latest start times < a := by
    induction times with
    | nil =>
      intro start _
      exact ⟨List.mem_cons_self, List.forall_mem_singleton.2 (lt_irrefl start)⟩
    | cons time times ih =>
      intro start hstart
      obtain ⟨hmem, hupper⟩ := ih (later start time) (hstart.later time)
      obtain ⟨hlater, hupper⟩ := List.forall_mem_cons.1 hupper
      change latest (later start time) times ∈ _ ∧ ∀ a ∈ _, ¬ latest (later start time) times < a
      have hreading := (hstart.later time).latest times
      rw [hstart.later_eq] at hmem hupper hlater hreading ⊢
      generalize latest (if start < time then time else start) times = last at *
      by_cases hearly : start < time
      · rw [if_pos hearly] at hmem hlater
        refine ⟨List.mem_cons_of_mem start hmem, List.forall_mem_cons.2
          ⟨fun hlast => hlater (lt_trans hlast hearly), List.forall_mem_cons.2 ⟨hlater, hupper⟩⟩⟩
      · rw [if_neg hearly] at hmem hlater
        refine ⟨?_, List.forall_mem_cons.2 ⟨hlater, List.forall_mem_cons.2 ⟨?_, hupper⟩⟩⟩
        · rcases List.mem_cons.1 hmem with rfl | hmem
          · exact List.mem_cons_self
          · exact List.mem_cons_of_mem start (List.mem_cons_of_mem time hmem)
        · intro hlast
          rcases hstart.trichotomy hreading with ⟨hlt, _⟩ | rfl | ⟨hlt, _⟩
          · exact hearly (lt_trans hlt hlast)
          · exact hearly hlast
          · exact hlater hlt
  obtain ⟨hmem, hupper⟩ := hfold zero isReading_zero
  exact ⟨List.mem_cons.1 hmem, fun a ha => hupper a (List.mem_cons.2 ha)⟩

instance : Ordered Rat where
  lt_irrefl a := lt_irrefl a
  lt_trans := lt_trans
  not_lt_of_le := not_lt_of_ge
  eq_of_not_lt _ _ hab hba := le_antisymm (not_lt.1 hba) (not_lt.1 hab)
  beq_iff _ _ := beq_iff_eq
  le_or_lt _ _ := le_or_gt _ _

theorem later_eq_max (a b : Rat) : later a b = max a b := by
  rw [max_def_lt]
  simp [later]

theorem isGreatest_latest (start : Rat) (times : List Rat) :
    IsGreatest {t | t ∈ start :: times} (latest start times) := by
  unfold latest
  induction times generalizing start with
  | nil => simp
  | cons time times ih =>
    obtain ⟨hmem, hupper⟩ := ih (max start time)
    rw [List.foldl_cons, later_eq_max]
    refine ⟨?_, ?_⟩
    · rcases List.mem_cons.1 hmem with hmax | hmem
      · rw [hmax]
        rcases max_choice start time with h | h <;> simp [h]
      · exact List.mem_cons_of_mem _ (List.mem_cons_of_mem _ hmem)
    · have hmax : max start time ≤ _ := hupper List.mem_cons_self
      refine List.forall_mem_cons.2 ⟨(le_max_left _ _).trans hmax, List.forall_mem_cons.2
        ⟨(le_max_right _ _).trans hmax, ?_⟩⟩
      intro t ht
      exact hupper (List.mem_cons_of_mem _ ht)

theorem latest_le {start bound : Rat} {times : List Rat} (hstart : start ≤ bound)
    (h : ∀ t ∈ times, t ≤ bound) : latest start times ≤ bound := by
  rcases List.mem_cons.1 (isGreatest_latest start times).1 with hsame | hmem
  · exact hsame.trans_le hstart
  · exact h _ hmem

theorem latest_eq_zero {times : List Rat} (h : ∀ t ∈ times, t = 0) : latest zero times = 0 := by
  rcases List.mem_cons.1 (isGreatest_latest zero times).1 with hzero | hmem
  · exact hzero
  · exact h _ hmem

end LatencyHiding.TimeScale
