import LatencyHiding.KeyedList
import Mathlib.Algebra.BigOperators.Group.List.Basic
import Mathlib.Data.List.Basic
import Mathlib.Order.RelClasses

set_option autoImplicit false

namespace LatencyHiding.KeyedList

variable {κ ν : Type} [DecidableEq κ] [LT κ] [DecidableLT κ]

theorem get?_set (m : KeyedList κ ν) (key other : κ) (value : ν) :
    (m.set key value).get? other = if other = key then some value else m.get? other := by
  split
  · next h => rw [h, get?_set_self]
  · next h => exact get?_set_of_ne h m value

theorem getD_alter (m : KeyedList κ ν) (key other : κ) (default : ν) (f : ν → ν) :
    (m.alter key default f).getD other default =
      if other = key then f (m.getD key default) else m.getD other default := by
  unfold alter
  rw [getD, get?_set]
  split <;> rfl

theorem get?_foldl_set (entries : List (κ × ν)) (nodup : (entries.map Prod.fst).Nodup)
    (m : KeyedList κ ν) (key : κ) :
    (∀ value, (key, value) ∈ entries →
      (entries.foldl (fun m (k, v) => m.set k v) m).get? key = some value) ∧
    (key ∉ entries.map Prod.fst →
      (entries.foldl (fun m (k, v) => m.set k v) m).get? key = m.get? key) := by
  induction entries generalizing m with
  | nil => simp
  | cons e rest ih =>
    obtain ⟨hfirst, nodup⟩ := List.nodup_cons.1 nodup
    obtain ⟨hmem, hnot⟩ := ih nodup (m.set e.1 e.2)
    rw [List.foldl_cons]
    constructor
    · intro value hvalue
      rcases List.mem_cons.1 hvalue with rfl | hvalue
      · rw [hnot hfirst, get?_set_self]
      · exact hmem value hvalue
    · intro hkey
      rw [List.map_cons, List.mem_cons, not_or] at hkey
      rw [hnot hkey.2, get?_set_of_ne hkey.1]

theorem get?_ofList (entries : List (κ × ν)) (nodup : (entries.map Prod.fst).Nodup) {key : κ}
    {value : ν} (h : (key, value) ∈ entries) : (ofList entries).get? key = some value :=
  (get?_foldl_set entries nodup empty key).1 value h

def Sorted (m : KeyedList κ ν) : Prop := m.entries.Pairwise (·.1 < ·.1)

omit [LT κ] [DecidableLT κ] in
theorem find_eq_none {key : κ} {entries : List (κ × ν)} (h : ∀ e ∈ entries, e.1 ≠ key) :
    find key entries = none := by
  induction entries with
  | nil => rfl
  | cons e rest ih =>
    rw [find, if_neg (h e List.mem_cons_self)]
    exact ih fun e' he' => h e' (List.mem_cons_of_mem e he')

theorem key_of_mem_place {key : κ} {value : ν} {entries : List (κ × ν)} {e : κ × ν}
    (h : e ∈ place key value entries) : e.1 = key ∨ e ∈ entries := by
  fun_induction place key value entries with grind

section Ordered

variable [IsStrictTotalOrder κ (· < ·)]

theorem pairwise_place (key : κ) (value : ν) {entries : List (κ × ν)}
    (h : entries.Pairwise (·.1 < ·.1)) : (place key value entries).Pairwise (·.1 < ·.1) := by
  fun_induction place key value entries with
  | case1 => exact List.pairwise_singleton _ _
  | case2 v rest =>
    exact List.pairwise_cons.2 (List.pairwise_cons.1 h)
  | case3 k v rest hne hlt =>
    refine List.pairwise_cons.2 ⟨List.forall_mem_cons.2 ⟨hlt, ?_⟩, h⟩
    intro e he
    exact trans_of (· < ·) hlt ((List.pairwise_cons.1 h).1 e he)
  | case4 k v rest hne hlt ih =>
    obtain ⟨hfirst, hrest⟩ := List.pairwise_cons.1 h
    refine List.pairwise_cons.2 ⟨?_, ih hrest⟩
    intro e he
    rcases key_of_mem_place he with hkey | hmem
    · rw [hkey]
      exact ((trichotomous_of (· < ·) k key).resolve_right (by tauto))
    · exact hfirst e hmem

theorem Sorted.alter {m : KeyedList κ ν} (sorted : m.Sorted) (key : κ) (default : ν) (f : ν → ν) :
    (m.alter key default f).Sorted :=
  pairwise_place key _ sorted

theorem Sorted.sum_values_alter [AddCommMonoid ν] {m : KeyedList κ ν} (sorted : m.Sorted) (key : κ)
    (more : ν) : (m.alter key 0 (· + more)).values.sum = m.values.sum + more := by
  obtain ⟨entries⟩ := m
  unfold Sorted at sorted
  change ((place key ((find key entries).getD 0 + more) entries).map Prod.snd).sum =
    (entries.map Prod.snd).sum + more
  induction entries with
  | nil => simp [place, find]
  | cons e rest ih =>
    obtain ⟨hfirst, hrest⟩ := List.pairwise_cons.1 sorted
    rw [place, find]
    split
    · simp [add_right_comm]
    · next hne =>
      split
      · next hlt =>
        rw [find_eq_none fun e' he' heq => ?_]
        · simp [add_comm]
        · exact irrefl_of (· < ·) key (trans_of (· < ·) hlt (heq ▸ hfirst e' he'))
      · simp [ih hrest, add_assoc]

end Ordered

end LatencyHiding.KeyedList
