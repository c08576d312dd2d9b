import LatencyHiding.Proofs.Program.Wiring
import Mathlib.Data.List.Nodup

set_option autoImplicit false

namespace LatencyHiding

section Lists

variable {α : Type} [BEq α] [LawfulBEq α] {l : List α} {first : α → α → Prop}

theorem idxOf_lt_of_pairwise (h : l.Pairwise fun x y => ¬ first y x) (irrefl : ∀ a, ¬ first a a)
    {a b : α} (ha : a ∈ l) (hb : b ∈ l) (hab : first a b) : l.idxOf a < l.idxOf b := by
  have ia := List.idxOf_lt_length_of_mem ha
  have ib := List.idxOf_lt_length_of_mem hb
  rcases Nat.lt_trichotomy (l.idxOf a) (l.idxOf b) with hlt | heq | hgt
  · exact hlt
  · have same : a = b := by
      rw [← List.getElem_idxOf ia, ← List.getElem_idxOf ib]
      simp only [heq]
    subst same
    exact (irrefl a hab).elim
  · have apart := List.pairwise_iff_getElem.1 h _ _ ib ia hgt
    rw [List.getElem_idxOf, List.getElem_idxOf] at apart
    exact (apart hab).elim

theorem idxOf_of_getElem? (nodup : l.Nodup) {k : Nat} {a : α} (h : l[k]? = some a) :
    l.idxOf a = k := by
  obtain ⟨hk, rfl⟩ := List.getElem?_eq_some_iff.1 h
  exact nodup.idxOf_getElem k hk

theorem pairwise_of_idxOf_lt (nodup : l.Nodup)
    (h : ∀ a ∈ l, ∀ b ∈ l, first a b → l.idxOf a < l.idxOf b) :
    l.Pairwise fun x y => ¬ first y x := by
  rw [List.pairwise_iff_getElem]
  intro i j hi hj hij hfirst
  have hlt := h _ (List.getElem_mem hj) _ (List.getElem_mem hi) hfirst
  rw [nodup.idxOf_getElem, nodup.idxOf_getElem] at hlt
  omega

theorem nodup_eraseDups (l : List Nat) : l.eraseDups.Nodup := by
  induction hn : l.length using Nat.strongRecOn generalizing l with
  | ind n ih =>
    cases l with
    | nil => exact List.nodup_nil
    | cons a l =>
      rw [List.eraseDups_cons, List.nodup_cons, List.mem_eraseDups]
      refine ⟨by simp, ih _ ?_ _ rfl⟩
      rw [← hn]
      exact Nat.lt_succ_of_le (List.length_filter_le _ _)

theorem filter_perm_cons {l : List Nat} (nodup : l.Nodup) {done : List Nat} {id : Nat}
    (hid : id ∈ l) (hnot : id ∉ done) : (l.filter (· ∉ done)).Perm (id :: l.filter (· ∉ id :: done)) := by
  apply (List.perm_ext_iff_of_nodup (nodup.filter _) ?_).2
  · intro k
    by_cases hk : k = id
    · subst hk
      simp [hid, hnot]
    · simp [hk]
  · rw [List.nodup_cons]
    exact ⟨by simp, nodup.filter _⟩

/-- A fold that meets every index of a list once, each time changing what is seen there. -/
theorem foldl_once {σ α : Type} (seen : σ → Nat → α) (step : σ → Nat → σ) (f : α → α)
    (hstep : ∀ s i u, seen (step s i) u = if u = i then f (seen s u) else seen s u)
    {l : List Nat} (nodup : l.Nodup) (s : σ) (u : Nat) :
    seen (l.foldl step s) u = if u ∈ l then f (seen s u) else seen s u := by
  induction l generalizing s with
  | nil => rw [if_neg List.not_mem_nil, List.foldl_nil]
  | cons i rest ih =>
    obtain ⟨hi, nodup⟩ := List.nodup_cons.1 nodup
    rw [List.foldl_cons, ih nodup, hstep]
    by_cases hu : u = i
    · subst hu
      rw [if_neg hi, if_pos rfl, if_pos List.mem_cons_self]
    · simp only [List.mem_cons, hu, false_or, if_false]

theorem length_filter_cons {l history : List Nat} (nodup : l.Nodup) {x : Nat} (hx : x ∉ history) :
    (l.filter (· ∉ x :: history)).length =
      if x ∈ l then (l.filter (· ∉ history)).length - 1 else (l.filter (· ∉ history)).length := by
  split
  · next hmem =>
    rw [(filter_perm_cons nodup hmem hx).length_eq, List.length_cons, Nat.add_sub_cancel]
  · next hmem =>
    congr 1
    apply List.filter_congr
    intro y hy
    have hyx : y ≠ x := fun h => hmem (h ▸ hy)
    simp [hyx]

/-- A fold that meets every index of a list once and puts out those that pass a test, where no step
changes the test of another index. -/
theorem foldl_append_once {σ : Type} (out : σ → List Nat) (test : σ → Nat → Bool)
    (step : σ → Nat → σ) (hout : ∀ s i, out (step s i) = out s ++ [i].filter (test s))
    (htest : ∀ s i u, u ≠ i → test (step s i) u = test s u) {l : List Nat} (nodup : l.Nodup)
    (s : σ) : out (l.foldl step s) = out s ++ l.filter (test s) := by
  induction l generalizing s with
  | nil => exact (List.append_nil _).symm
  | cons i rest ih =>
    obtain ⟨hi, nodup⟩ := List.nodup_cons.1 nodup
    have hrest : rest.filter (test (step s i)) = rest.filter (test s) := by
      apply List.filter_congr
      intro u hu
      exact htest s i u fun h => hi (h ▸ hu)
    rw [List.foldl_cons, ih nodup, hout, hrest, List.append_assoc, ← List.filter_append,
      List.singleton_append]

end Lists

namespace Computation

variable {c : Computation} {sequence : List InstrId}

theorem Needs.lt_size {user input : Nat} (h : c.Needs user input) : user < c.size := by
  obtain ⟨p, hp, _⟩ := h
  exact lt_size_of_instruction? hp

theorem Needs.lt {user input : Nat} (hc : c.Wired) (h : c.Needs user input) : input < user := by
  obtain ⟨p, hp, hi⟩ := h
  exact hc.input_lt user p hp input hi

theorem Wired.not_needs_self (hc : c.Wired) (k : Nat) : ¬ c.Needs k k :=
  fun h => Nat.lt_irrefl k (h.lt hc)

theorem Wired.mem_outputs_iff (hc : c.Wired) {k : Nat} {p : Placed}
    (hp : c.instruction? k = some p) (u : Nat) : u ∈ p.outputs ↔ c.Needs u k := by
  unfold Placed.outputs Needs Instruction.inputs
  rw [List.mem_append, hc.mem_users k p hp, hc.mem_controlSuccessors k p hp]
  simp only [List.mem_append]
  constructor
  · rintro (⟨q, hq, h⟩ | ⟨q, hq, h⟩)
    · exact ⟨q, hq, Or.inl h⟩
    · exact ⟨q, hq, Or.inr h⟩
  · rintro ⟨q, hq, h | h⟩
    · exact Or.inl ⟨q, hq, h⟩
    · exact Or.inr ⟨q, hq, h⟩

namespace IsOrder

theorem nodup (h : c.IsOrder sequence) : sequence.Nodup :=
  h.perm.nodup_iff.2 List.nodup_range

theorem mem_iff (h : c.IsOrder sequence) (k : Nat) : k ∈ sequence ↔ k < c.size := by
  rw [h.perm.mem_iff, postOrder, List.mem_range]

theorem idxOf_lt (hc : c.Wired) (h : c.IsOrder sequence) {user input : Nat}
    (hneeds : c.Needs user input) : sequence.idxOf input < sequence.idxOf user := by
  obtain ⟨p, hp, hi⟩ := hneeds
  have := h.dependenciesFirst p ((mem_instructions_iff c p).2 ⟨user, hp⟩) input hi
  rwa [hc.id_eq user p hp] at this

end IsOrder

theorem isOrder_iff_pairwise (hc : c.Wired) : c.IsOrder sequence ↔
    sequence.Perm c.postOrder ∧ sequence.Pairwise fun x y => ¬ c.Needs x y := by
  constructor
  · intro h
    refine ⟨h.perm, pairwise_of_idxOf_lt h.nodup ?_⟩
    intro a _ b _ hneeds
    exact h.idxOf_lt hc hneeds
  · rintro ⟨hperm, hpairs⟩
    refine ⟨hperm, ?_⟩
    intro p hp input hinput
    obtain ⟨k, hk⟩ := (mem_instructions_iff c p).1 hp
    have hneeds : c.Needs k input := ⟨p, hk, hinput⟩
    have hmem (j : Nat) (hj : j < c.size) : j ∈ sequence :=
      hperm.mem_iff.2 (List.mem_range.2 hj)
    rw [hc.id_eq k p hk]
    exact idxOf_lt_of_pairwise hpairs hc.not_needs_self
      (hmem input (Nat.lt_trans (hneeds.lt hc) hneeds.lt_size)) (hmem k hneeds.lt_size) hneeds

theorem Wired.isOrder_postOrder (hc : c.Wired) : c.IsOrder c.postOrder := by
  refine (isOrder_iff_pairwise hc).2 ⟨List.Perm.refl _, ?_⟩
  apply List.pairwise_lt_range.imp
  intro x y hlt hneeds
  exact Nat.lt_asymm hlt (hneeds.lt hc)

end Computation

end LatencyHiding
