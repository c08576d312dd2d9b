import LatencyHiding.Proofs.Program.CalleeFirst

set_option autoImplicit false

namespace LatencyHiding.Module

open Relation

variable {m : Module}

def rank (m : Module) (name : String) : Nat :=
  m.computations.length - m.calleeFirstNames.reverse.idxOf name

theorem rank_le (m : Module) (name : String) : m.rank name ≤ m.computations.length := Nat.sub_le _ _

theorem Sound.rank_lt (sound : m.Sound) (acyclic : ∀ name, ¬ TransGen m.Calls name name)
    {a b : String} (h : m.Calls a b) : m.rank b < m.rank a := by
  obtain ⟨hperm, hgrounded⟩ := sound.calleeFirstNames_walk
  have hnodup := hperm.nodup_iff.2 sound.nodup
  obtain ⟨c, hc, rfl, hcallee⟩ := h
  have hmem : c.name ∈ m.calleeFirstNames := hperm.mem_iff.2 (List.mem_map_of_mem hc)
  have hlt := (hgrounded acyclic).idxOf_lt (List.nodup_reverse.2 hnodup)
    (List.mem_reverse.2 hmem) ⟨c, hc, rfl, hcallee⟩
  have hlength : m.calleeFirstNames.reverse.length = m.computations.length := by
    rw [List.length_reverse, hperm.length_eq, List.length_map]
  have hle : m.calleeFirstNames.reverse.idxOf b ≤ m.computations.length :=
    hlength ▸ List.idxOf_le_length
  unfold rank
  omega

variable {α β : Type} {base : α} {inside : Computation → (String → α) → α}

theorem overCalls_of_unknown {name : String} (hunknown : m.find? name = none) (depth : Nat) :
    m.overCalls base inside depth name = base := by
  cases depth with
  | zero => rfl
  | succ depth => rw [overCalls, hunknown, Option.elim_none]

theorem overCalls_succ {name : String} {c : Computation} (hfind : m.find? name = some c)
    (depth : Nat) : m.overCalls base inside (depth + 1) name =
      inside c (m.overCalls base inside depth) := by
  rw [overCalls, hfind, Option.elim_some]

theorem overCalls_rel {base' : β} {inside' : Computation → (String → β) → β} {R : α → β → Prop}
    (hbase : R base base')
    (hinside : ∀ c value value', (∀ name, R (value name) (value' name)) →
      R (inside c value) (inside' c value'))
    (depth : Nat) (name : String) :
    R (m.overCalls base inside depth name) (m.overCalls base' inside' depth name) := by
  induction depth generalizing name with
  | zero => exact hbase
  | succ depth ih =>
    cases hfind : m.find? name with
    | none => rwa [overCalls_of_unknown hfind, overCalls_of_unknown hfind]
    | some c =>
      rw [overCalls_succ hfind, overCalls_succ hfind]
      exact hinside c _ _ ih

section Acyclic

variable (sound : m.Sound) (acyclic : ∀ name, ¬ TransGen m.Calls name name)
  (hinside : ∀ (c : Computation) (value value' : String → α),
    (∀ p ∈ c.instructions, ∀ callee ∈ p.calls, value callee = value' callee) →
      inside c value = inside c value')

include sound acyclic hinside

/-- Depths beyond the rank of a computation make no difference. -/
theorem overCalls_congr {depth depth' : Nat} {name : String} (h : m.rank name < depth)
    (h' : m.rank name < depth') :
    m.overCalls base inside depth name = m.overCalls base inside depth' name := by
  induction depth generalizing name depth' with
  | zero => omega
  | succ depth ih =>
    obtain ⟨depth', rfl⟩ : ∃ k, depth' = k + 1 := ⟨depth' - 1, by omega⟩
    cases hfind : m.find? name with
    | none => rw [overCalls_of_unknown hfind, overCalls_of_unknown hfind]
    | some c =>
      rw [overCalls_succ hfind, overCalls_succ hfind]
      obtain ⟨hc, rfl⟩ := mem_of_find? hfind
      apply hinside
      intro p hp callee hcallee
      have hlt := sound.rank_lt acyclic ⟨c, hc, rfl, p, hp, hcallee⟩
      exact ih (by omega) (by omega)

theorem overCalls_of_find? {name : String} {c : Computation} (hfind : m.find? name = some c) :
    m.overCalls base inside (m.computations.length + 1) name =
      inside c (m.overCalls base inside (m.computations.length + 1)) := by
  rw [overCalls_succ hfind]
  obtain ⟨hc, rfl⟩ := mem_of_find? hfind
  apply hinside
  intro p hp callee hcallee
  have hlt := sound.rank_lt acyclic ⟨c, hc, rfl, p, hp, hcallee⟩
  have hle := m.rank_le c.name
  exact overCalls_congr sound acyclic hinside (by omega) (by omega)

end Acyclic

end LatencyHiding.Module
