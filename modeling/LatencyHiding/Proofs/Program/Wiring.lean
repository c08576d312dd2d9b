import LatencyHiding.Program.Order
import Mathlib.Data.List.Basic

set_option autoImplicit false

namespace LatencyHiding.Computation

inductive Built : Computation → Prop where
  | empty (name : String) (isEntry : Bool) : Built { name, isEntry }
  | add {c d : Computation} {i : Instruction} (built : Built c) (added : c.add i = .ok d) : Built d

def Needs (c : Computation) (user input : Nat) : Prop :=
  ∃ p, c.instruction? user = some p ∧ input ∈ p.inputs

structure Wired (c : Computation) : Prop where
  id_eq : ∀ k p, c.instruction? k = some p → p.id = k
  input_lt : ∀ (k : Nat) (p : Placed), c.instruction? k = some p →
    ∀ i : Nat, i ∈ p.inputs → i < k
  mem_users : ∀ k p, c.instruction? k = some p →
    ∀ u, u ∈ p.users ↔ ∃ q, c.instruction? u = some q ∧ k ∈ q.operands
  mem_controlSuccessors : ∀ k p, c.instruction? k = some p →
    ∀ u, u ∈ p.controlSuccessors ↔ ∃ q, c.instruction? u = some q ∧ k ∈ q.controlPredecessors
  users_increasing : ∀ k p, c.instruction? k = some p → p.users.Pairwise (· < ·)
  controlSuccessors_increasing : ∀ k p, c.instruction? k = some p →
    p.controlSuccessors.Pairwise (· < ·)

theorem needs_iff {c : Computation} {k : Nat} {p : Placed} (hp : c.instruction? k = some p)
    (input : Nat) : c.Needs k input ↔ input ∈ p.inputs := by
  unfold Needs
  rw [hp]
  simp

theorem instruction?_eq_none_iff (c : Computation) (k : Nat) :
    c.instruction? k = none ↔ c.size ≤ k := List.getElem?_eq_none_iff

theorem lt_size_of_instruction? {c : Computation} {k : Nat} {p : Placed}
    (h : c.instruction? k = some p) : k < c.size := (List.getElem?_eq_some_iff.1 h).choose

theorem exists_instruction? {c : Computation} {k : Nat} (h : k < c.size) :
    ∃ p, c.instruction? k = some p := ⟨_, List.getElem?_eq_getElem h⟩

theorem mem_instructions_iff (c : Computation) (p : Placed) :
    p ∈ c.instructions ↔ ∃ k, c.instruction? k = some p := List.mem_iff_getElem?

def grown (c : Computation) (i : Instruction) : Computation :=
  { c with instructions := c.instructions.map (link c.size i) ++ [{ i with id := c.size }] }

theorem add_eq_ok_iff (c d : Computation) (i : Instruction) :
    c.add i = .ok d ↔
      c.find? i.name = none ∧ (∀ j : Nat, j ∈ i.inputs → j < c.size) ∧ d = c.grown i := by
  unfold add
  split
  · next h =>
    have : c.find? i.name ≠ none := Option.isSome_iff_ne_none.1 h
    simp [this]
  · next h =>
    have hname : c.find? i.name = none := by simpa using h
    split
    · next h' =>
      obtain ⟨j, hj, hle⟩ := List.any_eq_true.1 h'
      constructor
      · rintro ⟨⟩
      · rintro ⟨_, hlt, _⟩
        have := hlt j hj
        have : c.size ≤ j := by simpa using hle
        omega
    · next h' =>
      have hlt : ∀ j : Nat, j ∈ i.inputs → j < c.size := by simpa using h'
      simp only [Except.ok.injEq, hname, grown, true_and]
      exact ⟨fun h => ⟨hlt, h.symm⟩, fun h => h.2.symm⟩

theorem instruction?_grown (c : Computation) (i : Instruction) (k : Nat) :
    (c.grown i).instruction? k =
      if k = c.size then some { i with id := c.size }
      else (c.instruction? k).map (link c.size i) := by
  unfold instruction? grown
  by_cases hk : k < c.size
  · rw [List.getElem?_append_left (by simpa [size] using hk), List.getElem?_map,
      if_neg (Nat.ne_of_lt hk)]
  · rw [List.getElem?_append_right (by simpa [size] using hk), List.length_map]
    by_cases he : k = c.size
    · subst he
      simp [size]
    · have hnone : c.instructions[k]? = none :=
        List.getElem?_eq_none_iff.2 (Nat.not_lt.1 hk)
      have hrest : k - c.instructions.length ≠ 0 := by
        unfold size at hk he
        omega
      simp [he, hnone, hrest]

theorem instruction?_grown_cases {c : Computation} {i : Instruction} {k : Nat} {p : Placed}
    (h : (c.grown i).instruction? k = some p) :
    (k < c.size ∧ ∃ q, c.instruction? k = some q ∧ p = link c.size i q) ∨
      (k = c.size ∧ p = { i with id := c.size }) := by
  rw [instruction?_grown] at h
  split at h
  · next he => exact Or.inr ⟨he, (Option.some.inj h).symm⟩
  · obtain ⟨q, hq, hp⟩ := Option.map_eq_some_iff.1 h
    exact Or.inl ⟨lt_size_of_instruction? hq, q, hq, hp.symm⟩

theorem exists_grown_iff (c : Computation) (i : Instruction) (k u : Nat)
    (list : Instruction → List InstrId) :
    (∃ q, (c.grown i).instruction? u = some q ∧ k ∈ list q.toInstruction) ↔
      (∃ q, c.instruction? u = some q ∧ k ∈ list q.toInstruction) ∨ (u = c.size ∧ k ∈ list i) := by
  constructor
  · rintro ⟨q, hq, hk⟩
    rcases instruction?_grown_cases hq with ⟨_, r, hr, rfl⟩ | ⟨hu, rfl⟩
    · exact Or.inl ⟨r, hr, hk⟩
    · exact Or.inr ⟨hu, hk⟩
  · rintro (⟨q, hq, hk⟩ | ⟨rfl, hk⟩)
    · have hu := lt_size_of_instruction? hq
      refine ⟨link c.size i q, ?_, hk⟩
      rw [instruction?_grown, if_neg (Nat.ne_of_lt hu), hq, Option.map_some]
    · exact ⟨{ i with id := c.size }, by rw [instruction?_grown, if_pos rfl], hk⟩

theorem mem_extended_iff {l : List Nat} {id u : Nat} {b : Prop} [Decidable b] :
    u ∈ (if b then l ++ [id] else l) ↔ u ∈ l ∨ (u = id ∧ b) := by
  split <;> simp_all

theorem extended_increasing {l : List Nat} {id : Nat} {b : Prop} [Decidable b]
    (h : l.Pairwise (· < ·)) (hlt : ∀ u ∈ l, u < id) :
    (if b then l ++ [id] else l).Pairwise (· < ·) := by
  split
  · rw [List.pairwise_append]
    refine ⟨h, List.pairwise_singleton _ _, ?_⟩
    intro u hu v hv
    rw [List.mem_singleton.1 hv]
    exact hlt u hu
  · exact h

theorem Wired.grown {c : Computation} (hc : c.Wired) {i : Instruction}
    (hi : ∀ j : Nat, j ∈ i.inputs → j < c.size) : (c.grown i).Wired := by
  have hlast (h : c.size ∈ i.operands ∨ c.size ∈ i.controlPredecessors) : False :=
    Nat.lt_irrefl c.size (hi c.size (List.mem_append.2 h))
  have hbelow (u : Nat) (q : Placed) (hq : c.instruction? u = some q)
      (h : c.size ∈ q.operands ∨ c.size ∈ q.controlPredecessors) : False := by
    have := hc.input_lt u q hq c.size (List.mem_append.2 h)
    have := lt_size_of_instruction? hq
    omega
  refine ⟨?_, ?_, ?_, ?_, ?_, ?_⟩ <;> intro k p hp <;>
    rcases instruction?_grown_cases hp with ⟨_, q, hq, rfl⟩ | ⟨rfl, rfl⟩
  · exact hc.id_eq k q hq
  · rfl
  · exact hc.input_lt k q hq
  · exact hi
  · intro u
    rw [exists_grown_iff c i k u (·.operands), ← hc.mem_users k q hq u, ← hc.id_eq k q hq]
    exact mem_extended_iff
  · intro u
    rw [exists_grown_iff c i c.size u (·.operands)]
    constructor
    · intro h
      exact absurd h List.not_mem_nil
    · rintro (⟨q, hq, h⟩ | ⟨_, h⟩)
      · exact (hbelow u q hq (Or.inl h)).elim
      · exact (hlast (Or.inl h)).elim
  · intro u
    rw [exists_grown_iff c i k u (·.controlPredecessors), ← hc.mem_controlSuccessors k q hq u,
      ← hc.id_eq k q hq]
    exact mem_extended_iff
  · intro u
    rw [exists_grown_iff c i c.size u (·.controlPredecessors)]
    constructor
    · intro h
      exact absurd h List.not_mem_nil
    · rintro (⟨q, hq, h⟩ | ⟨_, h⟩)
      · exact (hbelow u q hq (Or.inr h)).elim
      · exact (hlast (Or.inr h)).elim
  · apply extended_increasing (hc.users_increasing k q hq)
    intro u hu
    obtain ⟨r, hr, _⟩ := (hc.mem_users k q hq u).1 hu
    exact lt_size_of_instruction? hr
  · exact List.Pairwise.nil
  · apply extended_increasing (hc.controlSuccessors_increasing k q hq)
    intro u hu
    obtain ⟨r, hr, _⟩ := (hc.mem_controlSuccessors k q hq u).1 hu
    exact lt_size_of_instruction? hr
  · exact List.Pairwise.nil

theorem Built.wired {c : Computation} (h : c.Built) : c.Wired := by
  induction h with
  | empty name isEntry =>
    have hnone (k : Nat) (p : Placed)
        (h : Computation.instruction? { name, isEntry } k = some p) : False :=
      Nat.not_lt_zero k (lt_size_of_instruction? h)
    exact ⟨fun k p h => (hnone k p h).elim, fun k p h => (hnone k p h).elim,
      fun k p h => (hnone k p h).elim, fun k p h => (hnone k p h).elim,
      fun k p h => (hnone k p h).elim, fun k p h => (hnone k p h).elim⟩
  | add built added ih =>
    obtain ⟨_, hi, rfl⟩ := (add_eq_ok_iff _ _ _).1 added
    exact ih.grown hi

theorem built_foldl_grown {c : Computation} (h : c.Built) (l : List Instruction)
    (hadd : l.foldlM add c = .ok (l.foldl grown c)) : (l.foldl grown c).Built := by
  induction l generalizing c with
  | nil => exact h
  | cons i l ih =>
    rw [List.foldlM_cons] at hadd
    cases hi : c.add i with
    | error fault =>
      rw [hi] at hadd
      cases hadd
    | ok next =>
      obtain ⟨_, _, rfl⟩ := (add_eq_ok_iff c next i).1 hi
      rw [hi] at hadd
      exact ih (h.add hi) hadd

end LatencyHiding.Computation
