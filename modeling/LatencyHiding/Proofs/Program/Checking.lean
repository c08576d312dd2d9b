import LatencyHiding.Proofs.Program.Precedence
import Mathlib.Data.List.Perm.Subperm

set_option autoImplicit false

namespace LatencyHiding.Computation

variable {c : Computation} {sequence : List InstrId}

theorem strayId?_eq_none_iff (c : Computation) (seen l : List Nat) :
    c.strayId? seen l = none ↔ (∀ k ∈ l, k < c.size) ∧ l.Nodup ∧ ∀ k ∈ l, k ∉ seen := by
  induction l generalizing seen with
  | nil => simp [strayId?]
  | cons k rest ih =>
    rw [strayId?]
    cases hk : c.instruction? k with
    | none =>
      have := (instruction?_eq_none_iff c k).1 hk
      constructor
      · rintro ⟨⟩
      · rintro ⟨hlt, _⟩
        have := hlt k List.mem_cons_self
        omega
    | some p =>
      have hlt := lt_size_of_instruction? hk
      dsimp only
      by_cases hseen : k ∈ seen
      · simp [hseen]
      · rw [if_neg hseen, ih, List.forall_mem_cons, List.nodup_cons, List.forall_mem_cons]
        constructor
        · rintro ⟨hrest, nodup, hapart⟩
          refine ⟨⟨hlt, hrest⟩, ⟨fun hmem => hapart k hmem List.mem_cons_self, nodup⟩, hseen, ?_⟩
          exact fun j hj hmem => hapart j hj (List.mem_cons_of_mem k hmem)
        · rintro ⟨⟨_, hrest⟩, ⟨hnew, nodup⟩, _, hapart⟩
          refine ⟨hrest, nodup, ?_⟩
          intro j hj hmem
          rcases List.mem_cons.1 hmem with rfl | hmem
          · exact hnew hj
          · exact hapart j hj hmem

theorem lateDependency?_eq_none_iff (c : Computation) (sequence : List InstrId) :
    c.lateDependency? sequence = none ↔ ∀ p ∈ c.instructions, ∀ dependency ∈ p.inputs,
      sequence.idxOf dependency ≤ sequence.idxOf p.id := by
  simp [lateDependency?, List.findSome?_eq_none_iff]

theorem perm_postOrder_iff (c : Computation) (sequence : List Nat) :
    sequence.Perm c.postOrder ↔
      sequence.length = c.size ∧ (∀ k ∈ sequence, k < c.size) ∧ sequence.Nodup := by
  constructor
  · intro hperm
    refine ⟨by simpa [postOrder] using hperm.length_eq, ?_, hperm.nodup_iff.2 List.nodup_range⟩
    intro k hk
    exact List.mem_range.1 (hperm.mem_iff.1 hk)
  · rintro ⟨hlength, hlt, nodup⟩
    refine (List.subperm_of_subset nodup ?_).perm_of_length_le ?_
    · intro k hk
      exact List.mem_range.2 (hlt k hk)
    · simp [postOrder, hlength]

theorem whyNotOrder?_eq_none_iff (hc : c.Wired) (sequence : List InstrId) :
    c.whyNotOrder? sequence = none ↔ c.IsOrder sequence := by
  have hcheck : c.whyNotOrder? sequence = none ↔ sequence.Perm c.postOrder ∧
      ∀ p ∈ c.instructions, ∀ dependency ∈ p.inputs,
        sequence.idxOf dependency ≤ sequence.idxOf p.id := by
    rw [whyNotOrder?, perm_postOrder_iff, ← lateDependency?_eq_none_iff]
    by_cases hlength : sequence.length = c.size
    · simp only [ne_eq, hlength, not_true_eq_false, if_false, Option.or_eq_none_iff,
        strayId?_eq_none_iff, true_and]
      simp
    · simp [hlength]
  rw [hcheck]
  constructor
  · rintro ⟨hperm, hlate⟩
    refine ⟨hperm, ?_⟩
    intro p hp (dependency : Nat) hdependency
    obtain ⟨k, hk⟩ := (mem_instructions_iff c p).1 hp
    have hlt := hc.input_lt k p hk dependency hdependency
    have hid := hc.id_eq k p hk
    -- two different members of a list have different places in it
    have hne : sequence.idxOf dependency ≠ sequence.idxOf p.id := by
      intro heq
      have hmem : dependency ∈ sequence :=
        hperm.mem_iff.2 (List.mem_range.2 (Nat.lt_trans hlt (lt_size_of_instruction? hk)))
      exact Nat.ne_of_lt (hid ▸ hlt) ((List.idxOf_inj hmem).1 heq)
    exact Nat.lt_of_le_of_ne (hlate p hp dependency hdependency) hne
  · rintro ⟨hperm, hfirst⟩
    exact ⟨hperm, fun p hp dependency hdependency =>
      Nat.le_of_lt (hfirst p hp dependency hdependency)⟩

theorem checkOrder_eq_ok_iff (hc : c.Wired) (sequence : List InstrId) :
    c.checkOrder sequence = .ok () ↔ c.IsOrder sequence := by
  rw [← whyNotOrder?_eq_none_iff hc, checkOrder]
  cases c.whyNotOrder? sequence <;> simp

theorem idxOf_lt_idxOf_iff {l : List Nat} (nodup : l.Nodup) {a b : Nat} (ha : a ∈ l) (hb : b ∈ l) :
    l.idxOf a < l.idxOf b ↔ ∃ i j : Nat, i < j ∧ l[i]? = some a ∧ l[j]? = some b := by
  constructor
  · intro hlt
    exact ⟨_, _, hlt, List.getElem?_idxOf ha, List.getElem?_idxOf hb⟩
  · rintro ⟨i, j, hij, hi, hj⟩
    rwa [idxOf_of_getElem? nodup hi, idxOf_of_getElem? nodup hj]

theorem Wired.mem_postOrder_iff (hc : c.Wired) (id : Nat) :
    id ∈ c.postOrder ↔ ∃ p ∈ c.instructions, p.id = id := by
  rw [postOrder, List.mem_range]
  constructor
  · intro hid
    obtain ⟨p, hp⟩ := exists_instruction? hid
    exact ⟨p, (mem_instructions_iff c p).2 ⟨id, hp⟩, hc.id_eq id p hp⟩
  · rintro ⟨p, hp, rfl⟩
    obtain ⟨k, hk⟩ := (mem_instructions_iff c p).1 hp
    rw [hc.id_eq k p hk]
    exact lt_size_of_instruction? hk

theorem Wired.perm_postOrder_iff_count (hc : c.Wired) (sequence : List Nat) :
    sequence.Perm c.postOrder ↔ (∀ p ∈ c.instructions, sequence.count p.id = 1) ∧
      ∀ id ∈ sequence, ∃ p ∈ c.instructions, p.id = id := by
  constructor
  · intro hperm
    refine ⟨?_, fun id hid => (hc.mem_postOrder_iff id).1 (hperm.mem_iff.1 hid)⟩
    intro p hp
    rw [hperm.count_eq]
    exact List.count_eq_one_of_mem List.nodup_range ((hc.mem_postOrder_iff p.id).2 ⟨p, hp, rfl⟩)
  · rintro ⟨honce, honly⟩
    rw [List.perm_iff_count]
    intro id
    by_cases hid : id ∈ c.postOrder
    · obtain ⟨p, hp, rfl⟩ := (hc.mem_postOrder_iff id).1 hid
      rw [honce p hp]
      exact (List.count_eq_one_of_mem List.nodup_range hid).symm
    · have hnot : id ∉ sequence := fun hmem => hid ((hc.mem_postOrder_iff id).2 (honly id hmem))
      rw [List.count_eq_zero_of_not_mem hnot, List.count_eq_zero_of_not_mem hid]

/-- The check accepts a list of ids if and only if it holds the id of every instruction once and
nothing else, and all operands and control predecessors of an instruction in front of it. -/
theorem checkOrder_decides (built : c.Built) (sequence : List Nat) :
    c.checkOrder sequence = .ok () ↔
      (∀ p ∈ c.instructions, sequence.count p.id = 1) ∧
      (∀ id ∈ sequence, ∃ p ∈ c.instructions, p.id = id) ∧
      ∀ p ∈ c.instructions, ∀ input ∈ p.operands ++ p.controlPredecessors,
        ∃ i j : Nat, i < j ∧ sequence[i]? = some input ∧ sequence[j]? = some p.id := by
  have hc := built.wired
  rw [checkOrder_eq_ok_iff hc, ← and_assoc, ← hc.perm_postOrder_iff_count]
  have hplaces (hperm : sequence.Perm c.postOrder) {p : Placed} (hp : p ∈ c.instructions)
      {input : Nat} (hinput : input ∈ p.inputs) :
      sequence.idxOf input < sequence.idxOf p.id ↔
        ∃ i j : Nat, i < j ∧ sequence[i]? = some input ∧ sequence[j]? = some p.id := by
    obtain ⟨k, hk⟩ := (mem_instructions_iff c p).1 hp
    have hknown : input < c.size :=
      Nat.lt_trans (hc.input_lt k p hk input hinput) (lt_size_of_instruction? hk)
    exact idxOf_lt_idxOf_iff (hperm.nodup_iff.2 List.nodup_range)
      (hperm.mem_iff.2 (List.mem_range.2 hknown))
      (hperm.mem_iff.2 ((hc.mem_postOrder_iff p.id).2 ⟨p, hp, rfl⟩))
  constructor
  · rintro ⟨hperm, hfirst⟩
    exact ⟨hperm, fun p hp input hinput =>
      (hplaces hperm hp hinput).1 (hfirst p hp input hinput)⟩
  · rintro ⟨hperm, hfirst⟩
    exact ⟨hperm, fun p hp input hinput =>
      (hplaces hperm hp hinput).2 (hfirst p hp input hinput)⟩

def twoWays : Computation :=
  [{ name := "p", opcode := .parameter, shape := .array 4 },
    { name := "a", opcode := .negate, shape := .array 4, operands := [0] },
    { name := "b", opcode := .exponential, shape := .array 4, controlPredecessors := [0] },
    { name := "r", opcode := .add, shape := .array 4, operands := [1, 1],
      controlPredecessors := [2] }].foldl grown { name := "c" }

theorem checkOrder_decides_twoWays : twoWays.Built ∧
    twoWays.checkOrder [0, 2, 1, 3] = .ok () ∧
    (∀ p ∈ twoWays.instructions, [0, 2, 1, 3].count p.id = 1) ∧
    (∀ id ∈ [0, 2, 1, 3], ∃ p ∈ twoWays.instructions, p.id = id) ∧
    ∀ p ∈ twoWays.instructions, ∀ input ∈ p.operands ++ p.controlPredecessors,
      ∃ i j : Nat, i < j ∧ [0, 2, 1, 3][i]? = some input ∧ [0, 2, 1, 3][j]? = some p.id := by
  have hbuilt : twoWays.Built := built_foldl_grown (.empty "c" false) _ rfl
  exact ⟨hbuilt, rfl, (checkOrder_decides hbuilt [0, 2, 1, 3]).1 rfl⟩

end LatencyHiding.Computation
