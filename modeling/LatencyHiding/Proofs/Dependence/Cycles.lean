import Mathlib.Data.Fintype.Card
import Mathlib.Data.List.Nodup
import Mathlib.Data.Set.Card
import Mathlib.Logic.Relation
import Mathlib.Order.WellFounded

set_option autoImplicit false

namespace LatencyHiding

open Relation

def ReachesCycle (r : Nat → Nat → Prop) (a : Nat) : Prop :=
  ∃ b, ReflTransGen r a b ∧ TransGen r b b

theorem not_reachesCycle_of_lt {r : Nat → Nat → Prop} (rank : Nat → Nat)
    (hlt : ∀ a b, r a b → rank b < rank a) (a : Nat) : ¬ ReachesCycle r a := by
  have hchain {a b : Nat} (h : TransGen r a b) : rank b < rank a := by
    induction h with
    | single h => exact hlt _ _ h
    | tail _ h ih => exact Nat.lt_trans (hlt _ _ h) ih
  rintro ⟨b, _, hcycle⟩
  exact Nat.lt_irrefl _ (hchain hcycle)

/-- All that a member leads to stands further back. -/
def Grounded {α : Type} (r : α → α → Prop) : List α → Prop
  | [] => True
  | a :: l => (∀ b, r a b → b ∈ l) ∧ Grounded r l

namespace Grounded

section Places

variable {α : Type} {r : α → α → Prop} {l : List α}

theorem mem_of_rel (h : Grounded r l) {a b : α} (ha : a ∈ l) (hab : r a b) : b ∈ l := by
  induction l with
  | nil => cases ha
  | cons x l ih =>
    rcases List.mem_cons.1 ha with rfl | ha
    · exact List.mem_cons_of_mem a (h.1 b hab)
    · exact List.mem_cons_of_mem x (ih h.2 ha)

theorem forall_mem {P : α → Prop} (h : Grounded r l)
    (step : ∀ a ∈ l, (∀ b, r a b → P b) → P a) : ∀ a ∈ l, P a := by
  induction l with
  | nil => exact List.forall_mem_nil P
  | cons x l ih =>
    have hrest := ih h.2 fun a ha => step a (List.mem_cons_of_mem x ha)
    exact List.forall_mem_cons.2
      ⟨step x List.mem_cons_self fun b hb => hrest b (h.1 b hb), hrest⟩

theorem idxOf_lt [BEq α] [LawfulBEq α] (h : Grounded r l) (nodup : l.Nodup) {a b : α} (ha : a ∈ l)
    (hab : r a b) : l.idxOf a < l.idxOf b := by
  induction l with
  | nil => cases ha
  | cons x l ih =>
    obtain ⟨hx, nodup⟩ := List.nodup_cons.1 nodup
    -- what is behind `x` differs from it, so its place is one more than in the rest
    have shift {y : α} (hy : y ∈ l) : (x :: l).idxOf y = l.idxOf y + 1 :=
      List.idxOf_cons_ne l fun hxy => hx (hxy ▸ hy)
    rcases List.mem_cons.1 ha with rfl | ha
    · rw [List.idxOf_cons_self, shift (h.1 b hab)]
      exact Nat.succ_pos _
    · rw [shift ha, shift (h.2.mem_of_rel ha hab)]
      exact Nat.succ_lt_succ (ih h.2 nodup ha)

theorem of_append {before after : List α} (h : Grounded r (before ++ after)) :
    Grounded r after := by
  induction before with
  | nil => exact h
  | cons a before ih => exact ih h.2

end Places

variable {r : Nat → Nat → Prop} {l : List Nat}

theorem mem_of_reflTransGen (h : Grounded r l) {a b : Nat} (ha : a ∈ l)
    (hab : ReflTransGen r a b) : b ∈ l := by
  induction hab with
  | refl => exact ha
  | tail _ hbc ih => exact h.mem_of_rel ih hbc

theorem idxOf_lt_of_transGen (h : Grounded r l) (nodup : l.Nodup) {a b : Nat} (ha : a ∈ l)
    (hab : TransGen r a b) : l.idxOf a < l.idxOf b := by
  induction hab with
  | single hab => exact h.idxOf_lt nodup ha hab
  | tail hab hbc ih =>
    exact Nat.lt_trans ih (h.idxOf_lt nodup (h.mem_of_reflTransGen ha hab.to_reflTransGen) hbc)

theorem not_reachesCycle (h : Grounded r l) (nodup : l.Nodup) {a : Nat} (ha : a ∈ l) :
    ¬ ReachesCycle r a := by
  rintro ⟨b, hab, hbb⟩
  exact Nat.lt_irrefl _ (h.idxOf_lt_of_transGen nodup (h.mem_of_reflTransGen ha hab) hbb)

theorem map {r' : Nat → Nat → Prop} (h : Grounded r l) (f : Nat → Nat)
    (lift : ∀ a ∈ l, ∀ b', r' (f a) b' → ∃ b, r a b ∧ f b = b') : Grounded r' (l.map f) := by
  induction l with
  | nil => exact trivial
  | cons a l ih =>
    refine ⟨?_, ih h.2 fun x hx => lift x (List.mem_cons_of_mem a hx)⟩
    intro b' hab'
    obtain ⟨b, hab, rfl⟩ := lift a List.mem_cons_self b' hab'
    exact List.mem_map_of_mem (h.1 b hab)

end Grounded

/-- Nothing more can be put in front: what is missing leads to something that is missing too. -/
structure Exhausted (r : Nat → Nat → Prop) (all l : List Nat) : Prop where
  nodup : l.Nodup
  subset : l ⊆ all
  grounded : Grounded r l
  stuck : ∀ a ∈ all, a ∉ l → ∃ b ∈ all, b ∉ l ∧ r a b

namespace Exhausted

variable {r : Nat → Nat → Prop} {all l : List Nat}

theorem reachesCycle (h : Exhausted r all l) {a : Nat} (ha : a ∈ all) (hl : a ∉ l) :
    ReachesCycle r a := by
  by_contra hnone
  let Reached := { b : Nat // b ∈ all ∧ b ∉ l ∧ ReflTransGen r a b }
  have : Finite Reached := (all.finite_toSet.subset fun b hb => hb.1).to_subtype
  let behind (x y : Reached) : Prop := TransGen r y.1 x.1
  have : IsTrans Reached behind := ⟨fun x y z hxy hyz => TransGen.trans hyz hxy⟩
  have : Std.Irrefl behind := ⟨fun x hxx => hnone ⟨x.1, x.2.2.2, hxx⟩⟩
  -- a reached member with no reached one behind it leads nowhere, although it is stuck
  obtain ⟨⟨b, hb, hbl, hab⟩, _, hlast⟩ := (Finite.wellFounded_of_trans_of_irrefl behind).has_min
    Set.univ ⟨⟨a, ha, hl, ReflTransGen.refl⟩, trivial⟩
  obtain ⟨d, hd, hdl, hbd⟩ := h.stuck b hb hbl
  exact hlast ⟨d, hd, hdl, hab.tail hbd⟩ trivial (TransGen.single hbd)

theorem not_mem_iff (h : Exhausted r all l) {a : Nat} (ha : a ∈ all) :
    a ∉ l ↔ ReachesCycle r a := by
  constructor
  · exact h.reachesCycle ha
  · intro hcycle hl
    exact h.grounded.not_reachesCycle h.nodup hl hcycle

/-- As many members are missing as can reach a cycle. -/
theorem length_sub_eq_ncard (h : Exhausted r all l) (nodup : all.Nodup) :
    all.length - l.length = {a | a ∈ all ∧ ReachesCycle r a}.ncard := by
  have hset : {a | a ∈ all ∧ ReachesCycle r a} = ↑(all.toFinset \ l.toFinset) := by
    ext a
    simp only [Set.mem_ofPred_eq, Finset.coe_sdiff, List.coe_toFinset, Set.mem_sdiff]
    constructor
    · rintro ⟨ha, hcycle⟩
      exact ⟨ha, (h.not_mem_iff ha).2 hcycle⟩
    · rintro ⟨ha, hl⟩
      exact ⟨ha, (h.not_mem_iff ha).1 hl⟩
  have hsub : l.toFinset ⊆ all.toFinset := fun a ha =>
    List.mem_toFinset.2 (h.subset (List.mem_toFinset.1 ha))
  rw [hset, Set.ncard_coe_finset, Finset.card_sdiff_of_subset hsub,
    List.toFinset_card_of_nodup h.nodup, List.toFinset_card_of_nodup nodup]

theorem perm_of_length_eq (h : Exhausted r all l) (hlength : l.length = all.length) : l.Perm all :=
  (List.subperm_of_subset h.nodup h.subset).perm_of_length_le (Nat.le_of_eq hlength.symm)

theorem length_eq_iff (h : Exhausted r all l) (nodup : all.Nodup)
    (hmem : ∀ a b, r a b → a ∈ all) : l.length = all.length ↔ ∀ a, ¬ TransGen r a a := by
  constructor
  · intro hlength a hcycle
    have ha : a ∈ all := by
      obtain ⟨b, hab, _⟩ := TransGen.head'_iff.1 hcycle
      exact hmem a b hab
    exact (h.not_mem_iff ha).2 ⟨a, ReflTransGen.refl, hcycle⟩
      ((h.perm_of_length_eq hlength).mem_iff.2 ha)
  · intro hacyclic
    apply List.Perm.length_eq
    apply (List.perm_ext_iff_of_nodup h.nodup nodup).2
    intro a
    refine ⟨fun hl => h.subset hl, ?_⟩
    intro ha
    by_contra hl
    obtain ⟨b, _, hcycle⟩ := h.reachesCycle ha hl
    exact hacyclic b hcycle

end Exhausted

end LatencyHiding
