import LatencyHiding.Program.Shape
import LatencyHiding.Proofs.Program.Precedence
import Mathlib.Data.List.Sort

set_option autoImplicit false

namespace LatencyHiding

theorem filterMap_flatMap_zipIdx {α β : Type} (tag : Nat → α → β) (untag : Nat → β → Option α)
    (h : ∀ k i x, untag k (tag i x) = if i = k then some x else none) (lists : List (List α))
    (i k : Nat) : ((lists.zipIdx i).flatMap fun q => q.1.map (tag q.2)).filterMap (untag k) =
      if i ≤ k then (lists[k - i]?).getD [] else [] := by
  induction lists generalizing i with
  | nil => simp
  | cons l lists ih =>
    -- of the lists only the one with number `k` gets through
    have hfirst : (l.map (tag i)).filterMap (untag k) = if i = k then l else [] := by
      rw [List.filterMap_map]
      split
      · next hik => simp [h, hik]
      · next hik => simp [h, hik]
    rw [List.zipIdx_cons, List.flatMap_cons, List.filterMap_append, hfirst, ih]
    rcases Nat.lt_trichotomy i k with hlt | rfl | hgt
    · obtain ⟨d, rfl⟩ : ∃ d, k = i + 1 + d := ⟨k - (i + 1), by omega⟩
      rw [if_neg (by omega), if_pos (by omega), if_pos (by omega), Nat.add_sub_cancel_left,
        show i + 1 + d - i = d + 1 by omega, List.getElem?_cons_succ, List.nil_append]
    · rw [if_pos rfl, if_neg (by omega), if_pos (Nat.le_refl i), Nat.sub_self,
        List.getElem?_cons_zero, List.append_nil, Option.getD_some]
    · rw [if_neg (by omega), if_neg (by omega), if_neg (by omega), List.append_nil]

namespace Shape

theorem induction {motive : Shape → Prop} (array : ∀ bytes, motive (.array bytes))
    (tuple : ∀ elements, (∀ e ∈ elements, motive e) → motive (.tuple elements)) :
    ∀ s, motive s
  | .array bytes => array bytes
  | .tuple elements => tuple elements fun e _ => induction array tuple e

mutual

def decEq : (s t : Shape) → Decidable (s = t)
  | .array a, .array b => decidable_of_iff (a = b) (by rw [Shape.array.injEq])
  | .tuple l, .tuple l' =>
    match decEqList l l' with
    | isTrue h => isTrue (congrArg Shape.tuple h)
    | isFalse h => isFalse fun heq => h (Shape.tuple.inj heq)
  | .array _, .tuple _ => isFalse nofun
  | .tuple _, .array _ => isFalse nofun

def decEqList : (l l' : List Shape) → Decidable (l = l')
  | [], [] => isTrue rfl
  | s :: l, t :: l' =>
    match decEq s t, decEqList l l' with
    | isTrue h, isTrue h' => isTrue (congrArg₂ List.cons h h')
    | isFalse h, _ => isFalse fun heq => h (List.cons.inj heq).1
    | _, isFalse h => isFalse fun heq => h (List.cons.inj heq).2
  | [], _ :: _ => isFalse nofun
  | _ :: _, [] => isFalse nofun

end

instance : DecidableEq Shape := decEq

def Path.through? (k : Nat) : Path → Option Path
  | [] => none
  | i :: rest => if i = k then some rest else none

theorem indicesFrom_eq (i : Nat) (elements : List Shape) : indicesFrom i elements =
    ((elements.map indices).zipIdx i).flatMap fun q => q.1.map (q.2 :: ·) := by
  induction elements generalizing i with
  | nil => rfl
  | cons e elements ih =>
    rw [indicesFrom, ih, List.map_cons, List.zipIdx_cons, List.flatMap_cons]

theorem nil_mem_indices (s : Shape) : [] ∈ s.indices := by
  cases s <;> exact List.mem_cons_self

/-- The paths through an element are the paths into it. -/
theorem filterMap_through_indices (s : Shape) (k : Nat) :
    s.indices.filterMap (Path.through? k) = ((s.element? k).map indices).getD [] := by
  cases s with
  | array bytes => rfl
  | tuple elements =>
    rw [indices, List.filterMap_cons_none rfl, indicesFrom_eq,
      filterMap_flatMap_zipIdx List.cons Path.through? fun _ _ _ => rfl, if_pos (Nat.zero_le k),
      Nat.sub_zero, List.getElem?_map, element?]

theorem cons_mem_indices_iff (s : Shape) (k : Nat) (rest : Path) :
    k :: rest ∈ s.indices ↔ ∃ e, s.element? k = some e ∧ rest ∈ e.indices := by
  have hmem : k :: rest ∈ s.indices ↔ rest ∈ s.indices.filterMap (Path.through? k) := by
    rw [List.mem_filterMap]
    constructor
    · intro h
      exact ⟨_, h, if_pos rfl⟩
    · rintro ⟨path, h, hsome⟩
      cases path with
      | nil => cases hsome
      | cons i rest' =>
        simp only [Path.through?] at hsome
        split at hsome
        · next hi =>
          obtain rfl := Option.some.inj hsome
          exact hi ▸ h
        · cases hsome
  rw [hmem, filterMap_through_indices]
  cases s.element? k <;> simp

theorem mem_indices_iff (s : Shape) (path : Path) :
    path ∈ s.indices ↔ ∃ t, s.at? path = some t := by
  induction path generalizing s with
  | nil => exact iff_of_true s.nil_mem_indices ⟨s, rfl⟩
  | cons k rest ih =>
    rw [cons_mem_indices_iff, at?]
    cases s.element? k <;> simp [ih]

theorem indicesFrom_increasing (i : Nat) {elements : List Shape}
    (h : ∀ e ∈ elements, e.indices.Pairwise (· < ·)) :
    (indicesFrom i elements).Pairwise (· < ·) ∧
      ∀ path ∈ indicesFrom i elements, ∃ j rest, path = j :: rest ∧ i ≤ j := by
  induction elements generalizing i with
  | nil => exact ⟨List.Pairwise.nil, List.forall_mem_nil _⟩
  | cons e elements ih =>
    obtain ⟨he, helements⟩ := List.forall_mem_cons.1 h
    obtain ⟨hincreasing, hlarge⟩ := ih (i + 1) helements
    rw [indicesFrom]
    -- the paths into `e` start with `i`, and all that follow with a larger number
    refine ⟨List.pairwise_append.2 ⟨?_, hincreasing, ?_⟩, ?_⟩
    · rw [List.pairwise_map]
      exact he.imp fun hlt => List.cons_lt_cons_iff.2 (Or.inr ⟨rfl, hlt⟩)
    · intro path hpath path' hpath'
      obtain ⟨rest, _, rfl⟩ := List.mem_map.1 hpath
      obtain ⟨j, rest', rfl, hj⟩ := hlarge path' hpath'
      exact List.cons_lt_cons_iff.2 (Or.inl hj)
    · intro path hpath
      rcases List.mem_append.1 hpath with hpath | hpath
      · obtain ⟨rest, _, rfl⟩ := List.mem_map.1 hpath
        exact ⟨i, rest, rfl, Nat.le_refl i⟩
      · obtain ⟨j, rest, rfl, hj⟩ := hlarge path hpath
        exact ⟨j, rest, rfl, Nat.le_of_succ_le hj⟩

theorem indices_increasing (s : Shape) : s.indices.Pairwise (· < ·) := by
  induction s using Shape.induction with
  | array bytes => exact List.pairwise_singleton _ _
  | tuple elements ih =>
    obtain ⟨hincreasing, hlarge⟩ := indicesFrom_increasing 0 ih
    rw [indices]
    refine List.pairwise_cons.2 ⟨?_, hincreasing⟩
    intro path hpath
    obtain ⟨j, rest, rfl, _⟩ := hlarge path hpath
    exact List.nil_lt_cons j rest

theorem nodup_indices (s : Shape) : s.indices.Nodup := by
  refine s.indices_increasing.imp ?_
  rintro path _ hlt rfl
  exact List.lt_irrefl path hlt

theorem at?_append (s : Shape) (path more : Path) :
    s.at? (path ++ more) = (s.at? path).bind (·.at? more) := by
  induction path generalizing s with
  | nil => rfl
  | cons i rest ih =>
    rw [List.cons_append, at?, at?]
    cases s.element? i with
    | none => rfl
    | some e => exact ih e

theorem mem_indices_of_isPrefix {s : Shape} {path longer : Path} (h : path <+: longer)
    (hlonger : longer ∈ s.indices) : path ∈ s.indices := by
  obtain ⟨more, rfl⟩ := h
  obtain ⟨t, ht⟩ := (s.mem_indices_iff _).1 hlonger
  rw [at?_append] at ht
  obtain ⟨e, he, _⟩ := Option.bind_eq_some_iff.1 ht
  exact (s.mem_indices_iff path).2 ⟨e, he⟩

theorem Path.lt_of_isPrefix {path longer : Path} (h : path <+: longer) (hne : path ≠ longer) :
    path < longer := (List.le_iff_lt_or_eq.1 h.le).resolve_right hne

theorem idxOf_indices_lt {s : Shape} {path path' : Path} (hpath : path ∈ s.indices)
    (hpath' : path' ∈ s.indices) (hlt : path < path') :
    s.indices.idxOf path < s.indices.idxOf path' :=
  idxOf_lt_of_pairwise (s.indices_increasing.imp List.lt_asymm) List.lt_irrefl hpath hpath' hlt

/-- The paths that are listed are those that lead somewhere, each once, in increasing order and thus
every path before those that go on from it. No other list has them all in this order. -/
theorem indices_enumerate (s : Shape) :
    (∀ path, path ∈ s.indices ↔ (s.at? path).isSome = true) ∧
    s.indices.Nodup ∧
    s.indices.Pairwise (· < ·) ∧
    (∀ path longer, longer ∈ s.indices → path <+: longer → path ≠ longer →
      path ∈ s.indices ∧ s.indices.idxOf path < s.indices.idxOf longer) ∧
    ∀ l : List Path, l.Pairwise (· < ·) → (∀ path, path ∈ l ↔ (s.at? path).isSome = true) →
      l = s.indices := by
  have hmem (path : Path) : path ∈ s.indices ↔ (s.at? path).isSome = true := by
    rw [mem_indices_iff, Option.isSome_iff_exists]
  refine ⟨hmem, s.nodup_indices, s.indices_increasing, ?_, ?_⟩
  · intro path longer hlonger hbegins hne
    have hpath := mem_indices_of_isPrefix hbegins hlonger
    exact ⟨hpath, idxOf_indices_lt hpath hlonger (Path.lt_of_isPrefix hbegins hne)⟩
  · intro l increasing hl
    exact increasing.eq_of_mem_iff s.indices_increasing fun path => (hl path).trans (hmem path).symm

def unevenTuple : Shape := .tuple [.array 4, .tuple [], .tuple [.tuple [.array 8]]]

theorem indices_enumerate_unevenTuple :
    [1, 0] ∉ unevenTuple.indices ∧ [2, 0, 0] ∈ unevenTuple.indices ∧
    unevenTuple.indices.idxOf [2] < unevenTuple.indices.idxOf [2, 0, 0] ∧
    ∃ l : List Path, l.Pairwise (· < ·) ∧
      (∀ path, path ∈ l ↔ (unevenTuple.at? path).isSome = true) ∧
      l = unevenTuple.indices ∧ l = [[], [0], [1], [2], [2, 0], [2, 0, 0]] := by
  obtain ⟨hmem, _, increasing, hbegins, hunique⟩ := indices_enumerate unevenTuple
  have hdeep : [2, 0, 0] ∈ unevenTuple.indices := (hmem _).2 rfl
  refine ⟨fun h => ?_, hdeep, (hbegins [2] [2, 0, 0] hdeep ⟨[0, 0], rfl⟩ (by decide)).2, ?_⟩
  · cases (hmem [1, 0]).1 h
  · exact ⟨_, increasing, hmem, hunique _ increasing hmem, rfl⟩

end Shape

end LatencyHiding
