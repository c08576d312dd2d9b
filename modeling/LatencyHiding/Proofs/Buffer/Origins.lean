import LatencyHiding.Buffer.Aliasing
import LatencyHiding.Proofs.Program.Precedence
import Mathlib.Logic.Relation

set_option autoImplicit false

namespace LatencyHiding

open Relation

namespace Computation

variable {c : Computation}

def Takes (c : Computation) (user operand : Nat) : Prop :=
  ∃ p, c.instruction? user = some p ∧ operand ∈ p.operands

theorem Takes.needs {user operand : Nat} (h : c.Takes user operand) : c.Needs user operand := by
  obtain ⟨p, hp, hmem⟩ := h
  exact ⟨p, hp, List.mem_append_left _ hmem⟩

theorem Takes.grown {user operand : Nat} (h : c.Takes user operand) (i : Instruction) :
    (c.grown i).Takes user operand :=
  (exists_grown_iff c i operand user (·.operands)).2 (Or.inl h)

theorem takes_grown_size {i : Instruction} {operand : Nat} (h : operand ∈ i.operands) :
    (c.grown i).Takes c.size operand :=
  (exists_grown_iff c i operand c.size (·.operands)).2 (Or.inr ⟨rfl, h⟩)

theorem le_of_reflTransGen_takes {place : Nat → Nat}
    (hplace : ∀ user input, c.Needs user input → place input < place user) {user origin : Nat}
    (h : ReflTransGen c.Takes user origin) : place origin ≤ place user := by
  induction h with
  | refl => exact Nat.le_refl _
  | tail _ htakes ih => exact Nat.le_trans (Nat.le_of_lt (hplace _ _ htakes.needs)) ih

end Computation

namespace Aliasing

variable {a : Aliasing} {p : Placed} {path : Shape.Path} {id : BufferId}

theorem mem_below_iff (k : Nat) (positions : List Position) (path : Shape.Path) (id : BufferId) :
    (path, id) ∈ below k positions ↔ (k :: path, id) ∈ positions := by
  unfold below
  rw [List.mem_filterMap]
  constructor
  · rintro ⟨⟨outer, id'⟩, hmem, hsome⟩
    cases outer with
    | nil => cases hsome
    | cons i rest =>
      by_cases hi : i = k
      · simp only [hi, if_true, Option.some.injEq, Prod.mk.injEq] at hsome
        rwa [← hsome.1, ← hsome.2, ← hi]
      · simp [hi] at hsome
  · intro hmem
    exact ⟨_, hmem, by simp⟩

theorem mem_above_iff (outputs : List (List Position)) (path : Shape.Path) (id : BufferId) :
    (path, id) ∈ above outputs ↔
      ∃ i inner positions, path = i :: inner ∧ outputs[i]? = some positions ∧
        (inner, id) ∈ positions := by
  constructor
  · intro h
    obtain ⟨⟨positions, i⟩, hmem, h⟩ := List.mem_flatMap.1 h
    obtain ⟨⟨inner, id'⟩, hinner, heq⟩ := List.mem_map.1 h
    obtain ⟨rfl, rfl⟩ := Prod.mk.inj heq
    exact ⟨i, inner, positions, rfl, List.mem_zipIdx_iff_getElem?.1 hmem, hinner⟩
  · rintro ⟨i, inner, positions, rfl, hi, hinner⟩
    exact List.mem_flatMap.2 ⟨(positions, i), List.mem_zipIdx_iff_getElem?.2 hi,
      List.mem_map.2 ⟨(inner, id), hinner, rfl⟩⟩

def Offered (a : Aliasing) (p : Placed) (id : BufferId) : Prop :=
  ∃ operand ∈ p.operands, ∃ inner, (inner, id) ∈ a.outputsOf operand

theorem offered_of_inherited {positions : List Position} (h : a.inherited? p = some positions)
    (hmem : (path, id) ∈ positions) : a.Offered p id := by
  unfold inherited? at h
  split at h
  · next operand _ hoperand =>
    obtain ⟨hmap, _⟩ := Option.filter_eq_some_iff.1 h
    obtain ⟨k, _, rfl⟩ := Option.map_eq_some_iff.1 hmap
    exact ⟨operand, List.mem_of_head? hoperand, _, (mem_below_iff _ _ _ _).1 hmem⟩
  · next operand _ hoperand =>
    obtain rfl := Option.some.inj h
    exact ⟨operand, List.mem_of_head? hoperand, path, hmem⟩
  · next operand _ hoperand =>
    obtain rfl := Option.some.inj h
    exact ⟨operand, List.mem_of_head? hoperand, path, hmem⟩
  · cases h

theorem exists_of_mem_define (paths : List Shape.Path) (h : (path, id) ∈ (a.define p paths).2) :
    ∃ buffer, (a.buffers ++ (a.define p paths).1)[id]? = some buffer ∧ buffer.definedBy = p.id := by
  obtain ⟨⟨path', i⟩, hmem, heq⟩ := List.mem_map.1 h
  obtain ⟨_, rfl⟩ : path' = path ∧ a.buffers.length + i = id := by simpa using heq
  have hpath := List.mem_zipIdx_iff_getElem?.1 hmem
  refine ⟨⟨p.id, path', (p.shape.at? path').getD p.shape⟩, ?_, rfl⟩
  rw [List.getElem?_append_right (Nat.le_add_right _ _), Nat.add_sub_cancel_left, define,
    List.getElem?_map, hpath, Option.map_some]

/-- What one instruction contributes: buffers that it defines, and output positions, each of them
backed by one of these or by a buffer behind an operand. -/
theorem exists_append_eq (a : Aliasing) (p : Placed) : ∃ buffers positions,
    a.append p = { buffers := a.buffers ++ buffers, outputs := a.outputs ++ [positions] } ∧
      ∀ path id, (path, id) ∈ positions → a.Offered p id ∨
        ∃ buffer, (a.buffers ++ buffers)[id]? = some buffer ∧ buffer.definedBy = p.id := by
  unfold append
  split
  · next positions hpositions =>
    refine ⟨[], positions, by rw [List.append_nil], ?_⟩
    intro path id hmem
    exact Or.inl (offered_of_inherited hpositions hmem)
  · refine ⟨_, _, rfl, ?_⟩
    intro path id hmem
    rcases List.mem_append.1 hmem with hown | habove
    · exact Or.inr (exists_of_mem_define [[]] hown)
    · obtain ⟨_, inner, _, _, hpositions, hinner⟩ := (mem_above_iff _ _ _).1 habove
      obtain ⟨operand, hoperand, rfl⟩ := List.mem_map.1 (List.mem_of_getElem? hpositions)
      exact Or.inl ⟨operand, hoperand, inner, hinner⟩
  · refine ⟨_, _, rfl, ?_⟩
    intro path id hmem
    exact Or.inr (exists_of_mem_define p.shape.indices hmem)

theorem ofComputation_grown (c : Computation) (i : Instruction) :
    ofComputation (c.grown i) = (ofComputation c).append { i with id := c.size } := by
  -- being linked to a new user changes nothing that the analysis looks at
  have hlink (a : Aliasing) (p : Placed) :
      a.append (Computation.link c.size i p) = a.append p := rfl
  unfold ofComputation Computation.grown
  rw [List.foldl_append, List.foldl_map]
  simp only [hlink]
  rfl

/-- Every position is backed by a buffer whose definition the instruction depends on through
operands. -/
structure Traced (c : Computation) (a : Aliasing) : Prop where
  length_outputs : a.outputs.length = c.size
  origin : ∀ k path id, (path, id) ∈ a.outputsOf k →
    ∃ buffer, a.buffer? id = some buffer ∧ ReflTransGen c.Takes k buffer.definedBy

theorem Traced.append {c : Computation} (traced : Traced c a) (i : Instruction) :
    Traced (c.grown i) (a.append { i with id := c.size }) := by
  obtain ⟨buffers, positions, happend, hpositions⟩ := a.exists_append_eq { i with id := c.size }
  have hlength := traced.length_outputs
  rw [happend]
  refine ⟨by simp [hlength, Computation.grown, Computation.size], ?_⟩
  -- what was traced before is traced still
  have hold (k : Nat) (path : Shape.Path) (id : BufferId) (hmem : (path, id) ∈ a.outputsOf k) :
      ∃ buffer, (a.buffers ++ buffers)[id]? = some buffer ∧
        ReflTransGen (c.grown i).Takes k buffer.definedBy := by
    obtain ⟨buffer, hbuffer, htakes⟩ := traced.origin k path id hmem
    refine ⟨buffer, ?_, ReflTransGen.mono (fun _ _ h => Computation.Takes.grown h i) _ _ htakes⟩
    exact (List.getElem?_append_left (List.getElem?_eq_some_iff.1 hbuffer).choose).trans hbuffer
  intro k path id hmem
  rcases Nat.lt_trichotomy k c.size with hlt | rfl | hgt
  · apply hold k path id
    rwa [outputsOf, List.getElem?_append_left (by omega)] at hmem
  · rw [outputsOf, ← hlength, List.getElem?_concat_length, Option.getD_some] at hmem
    rcases hpositions path id hmem with ⟨operand, hoperand, inner, hinner⟩ | ⟨buffer, hbuffer, heq⟩
    · obtain ⟨buffer, hbuffer, htakes⟩ := hold operand inner id hinner
      exact ⟨buffer, hbuffer, htakes.head (Computation.takes_grown_size hoperand)⟩
    · exact ⟨buffer, hbuffer, heq ▸ ReflTransGen.refl⟩
  · rw [outputsOf, List.getElem?_eq_none (by simp; omega)] at hmem
    cases hmem

theorem traced_ofComputation {c : Computation} (built : c.Built) : Traced c (ofComputation c) := by
  induction built with
  | empty name isEntry =>
    refine ⟨rfl, ?_⟩
    intro k path id hmem
    cases hmem
  | add built added ih =>
    obtain ⟨_, _, rfl⟩ := (Computation.add_eq_ok_iff _ _ _).1 added
    rw [ofComputation_grown]
    exact ih.append _

end Aliasing

end LatencyHiding
