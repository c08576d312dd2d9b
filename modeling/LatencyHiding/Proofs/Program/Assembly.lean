import LatencyHiding.Program.Module
import LatencyHiding.Proofs.Program.Checking
import LatencyHiding.Proofs.Traversal
import Mathlib.Data.List.Induction

set_option autoImplicit false

namespace LatencyHiding

namespace Computation

def names (c : Computation) : List String := c.instructions.map (·.name)

theorem length_names (c : Computation) : c.names.length = c.size := List.length_map _

theorem find?_eq (c : Computation) (n : String) : c.find? n = c.instruction? (c.names.idxOf n) := by
  have hplace : c.names.idxOf n = c.instructions.findIdx (·.name == n) := by
    rw [names, List.idxOf, List.findIdx_map]
    rfl
  rw [hplace]
  exact List.find?_eq_getElem?_findIdx

theorem find?_eq_none_iff (c : Computation) (n : String) : c.find? n = none ↔ n ∉ c.names := by
  rw [find?_eq, instruction?_eq_none_iff, ← length_names, List.idxOf_lt_length_iff.not.symm,
    Nat.not_lt]

theorem getElem?_names (c : Computation) (k : Nat) :
    c.names[k]? = (c.instruction? k).map (·.name) := List.getElem?_map

theorem names_grown (c : Computation) (i : Instruction) :
    (c.grown i).names = c.names ++ [i.name] := by
  unfold names grown
  rw [List.map_append, List.map_map]
  rfl

theorem Built.nodup_names {c : Computation} (built : c.Built) : c.names.Nodup := by
  induction built with
  | empty name isEntry => exact List.nodup_nil
  | add built added ih =>
    obtain ⟨hnew, _, rfl⟩ := (add_eq_ok_iff _ _ _).1 added
    rw [names_grown, List.nodup_append_comm, List.singleton_append, List.nodup_cons]
    exact ⟨(find?_eq_none_iff _ _).1 hnew, ih⟩

theorem mem_callees_iff (c : Computation) (callee : String) :
    callee ∈ c.callees ↔ ∃ p ∈ c.instructions, callee ∈ p.calls := by
  rw [callees, List.mem_eraseDups, List.mem_flatMap]

theorem Wired.map_find? {c : Computation} (hc : c.Wired) (n : String) :
    (c.find? n).map (·.id) = if n ∈ c.names then some (c.names.idxOf n) else none := by
  split
  · next hn =>
    rw [find?_eq]
    obtain ⟨p, hp⟩ : ∃ p, c.instruction? (c.names.idxOf n) = some p := by
      apply exists_instruction?
      rw [← length_names]
      exact List.idxOf_lt_length_of_mem hn
    rw [hp, Option.map_some, hc.id_eq _ p hp]
  · next hn => rw [(find?_eq_none_iff c n).2 hn, Option.map_none]

end Computation

def Placed.skeleton (p : Placed) : Placed := { p with wrapped := none, attributes := .empty }

theorem Placed.eq_of_skeleton {β : Type} {p q : Placed} (hsame : q.skeleton = p.skeleton)
    (f : Placed → β) (hf : ∀ p : Placed, f p.skeleton = f p) : f q = f p := by
  rw [← hf q, hsame, hf p]

namespace Computation

/-- The same computation, but for what assembly fills in. -/
structure Alike (c d : Computation) : Prop where
  name_eq : d.name = c.name
  skeletons : d.instructions.map (·.skeleton) = c.instructions.map (·.skeleton)

namespace Alike

variable {c d : Computation}

theorem symm (h : c.Alike d) : d.Alike c := ⟨h.name_eq.symm, h.skeletons.symm⟩

theorem map_eq {β : Type} (h : c.Alike d) (f : Placed → β) (hf : ∀ p, f p.skeleton = f p) :
    d.instructions.map f = c.instructions.map f := by
  have hcomp : f ∘ Placed.skeleton = f := funext hf
  rw [← hcomp, ← List.map_map, h.skeletons, List.map_map]

theorem names_eq (h : c.Alike d) : d.names = c.names := h.map_eq (·.name) fun _ => rfl

theorem size_eq (h : c.Alike d) : d.size = c.size := by
  rw [← length_names, h.names_eq, length_names]

theorem postOrder_eq (h : c.Alike d) : d.postOrder = c.postOrder := by
  rw [postOrder, postOrder, h.size_eq]

theorem callees_eq (h : c.Alike d) : d.callees = c.callees := by
  have hcalls : d.instructions.flatMap (·.calls) = c.instructions.flatMap (·.calls) := by
    rw [List.flatMap_def, List.flatMap_def, h.map_eq (·.calls) fun _ => rfl]
  rw [callees, callees, hcalls]

theorem instruction? (h : c.Alike d) {k : Nat} {q : Placed} (hq : d.instruction? k = some q) :
    ∃ p, c.instruction? k = some p ∧ q.skeleton = p.skeleton := by
  have hmap := congrArg (·[k]?) h.skeletons
  simp only [List.getElem?_map] at hmap
  rw [show d.instructions[k]? = some q from hq, Option.map_some] at hmap
  obtain ⟨p, hp, hsame⟩ := Option.map_eq_some_iff.1 hmap.symm
  exact ⟨p, hp, hsame.symm⟩

theorem exists_mem_iff (h : c.Alike d) (list : Placed → List InstrId)
    (hlist : ∀ p, list p.skeleton = list p) (k u : Nat) :
    (∃ q, d.instruction? u = some q ∧ k ∈ list q) ↔
      ∃ p, c.instruction? u = some p ∧ k ∈ list p := by
  have transfer {c d : Computation} (h : c.Alike d) :
      (∃ q, d.instruction? u = some q ∧ k ∈ list q) →
        ∃ p, c.instruction? u = some p ∧ k ∈ list p := by
    rintro ⟨q, hq, hk⟩
    obtain ⟨p, hp, hsame⟩ := h.instruction? hq
    exact ⟨p, hp, by rwa [← Placed.eq_of_skeleton hsame list hlist]⟩
  exact ⟨transfer h, transfer h.symm⟩

theorem needs_iff (h : c.Alike d) (user input : Nat) : d.Needs user input ↔ c.Needs user input :=
  h.exists_mem_iff (·.inputs) (fun _ => rfl) input user

theorem wired (h : c.Alike d) (hc : c.Wired) : d.Wired := by
  refine ⟨?_, ?_, ?_, ?_, ?_, ?_⟩ <;> intro k q hq <;>
    obtain ⟨p, hp, hsame⟩ := h.instruction? hq
  · rw [Placed.eq_of_skeleton hsame (·.id) fun _ => rfl]
    exact hc.id_eq k p hp
  · rw [Placed.eq_of_skeleton hsame (·.inputs) fun _ => rfl]
    exact hc.input_lt k p hp
  · intro u
    rw [Placed.eq_of_skeleton hsame (·.users) fun _ => rfl, hc.mem_users k p hp,
      h.exists_mem_iff (·.operands) fun _ => rfl]
  · intro u
    rw [Placed.eq_of_skeleton hsame (·.controlSuccessors) fun _ => rfl,
      hc.mem_controlSuccessors k p hp, h.exists_mem_iff (·.controlPredecessors) fun _ => rfl]
  · rw [Placed.eq_of_skeleton hsame (·.users) fun _ => rfl]
    exact hc.users_increasing k p hp
  · rw [Placed.eq_of_skeleton hsame (·.controlSuccessors) fun _ => rfl]
    exact hc.controlSuccessors_increasing k p hp

theorem isOrder_iff (h : c.Alike d) (hc : c.Wired) (sequence : List InstrId) :
    d.IsOrder sequence ↔ c.IsOrder sequence := by
  rw [isOrder_iff_pairwise hc, isOrder_iff_pairwise (h.wired hc), h.postOrder_eq]
  simp only [h.needs_iff]

end Alike

end Computation

namespace Module

theorem find?_of_mem {m : Module} (nodup : (m.computations.map (·.name)).Nodup) {c : Computation}
    (hc : c ∈ m.computations) : m.find? c.name = some c := by
  unfold find?
  revert nodup hc
  induction m.computations with
  | nil => simp
  | cons first rest ih =>
    intro nodup hc
    obtain ⟨hfirst, nodup⟩ := List.nodup_cons.1 nodup
    rcases List.mem_cons.1 hc with rfl | hc
    · simp
    · have hne : first.name ≠ c.name := fun h => hfirst (List.mem_map.2 ⟨c, hc, h.symm⟩)
      rw [List.find?_cons_of_neg (by simpa using hne)]
      exact ih nodup hc

theorem map_sweep {β : Type} (f : Placed → β) {change : List Placed → Placed → Placed}
    (hchange : ∀ earlier p, f (change earlier p) = f p) (instructions : List Placed) :
    (sweep change instructions).map f = instructions.map f := by
  have hfrom (earlier : List Placed) :
      (instructions.foldl (fun earlier p => earlier ++ [change earlier p]) earlier).map f =
        earlier.map f ++ instructions.map f := by
    induction instructions generalizing earlier with
    | nil => simp
    | cons p rest ih =>
      rw [List.foldl_cons, ih]
      simp [hchange]
  exact hfrom []

theorem sweep_concat (change : List Placed → Placed → Placed) (instructions : List Placed)
    (p : Placed) : sweep change (instructions ++ [p]) =
      sweep change instructions ++ [change (sweep change instructions) p] := by
  unfold sweep
  rw [List.foldl_concat]

theorem length_sweep (change : List Placed → Placed → Placed) (instructions : List Placed) :
    (sweep change instructions).length = instructions.length := by
  induction instructions using List.reverseRecOn with
  | nil => rfl
  | append_singleton instructions p ih => simp [sweep_concat, ih]

/-- Each instruction is changed in view of what stands before it in the end. -/
theorem getElem?_sweep (change : List Placed → Placed → Placed) (instructions : List Placed)
    (k : Nat) : (sweep change instructions)[k]? =
      instructions[k]?.map (change ((sweep change instructions).take k)) := by
  induction instructions using List.reverseRecOn with
  | nil => rfl
  | append_singleton instructions p ih =>
    rw [sweep_concat]
    have hlength := length_sweep change instructions
    rcases Nat.lt_trichotomy k instructions.length with hlt | rfl | hgt
    · rw [List.getElem?_append_left (hlength ▸ hlt), List.getElem?_append_left hlt,
        List.take_append_of_le_length (by omega)]
      exact ih
    · simp [← hlength]
    · rw [List.getElem?_eq_none (by simp; omega), List.getElem?_eq_none (by simp; omega)]
      rfl

theorem skeleton_resolveWrapped (rootOf : String → Option Opcode) (earlier : List Placed)
    (p : Placed) : (resolveWrapped rootOf earlier p).skeleton = p.skeleton := by
  unfold resolveWrapped
  dsimp only
  split <;> rfl

theorem skeleton_inherit (key : String) (start p : Placed) :
    (inherit key start p).skeleton = p.skeleton := by
  unfold inherit
  split
  · split <;> rfl
  · rfl

theorem skeleton_inheritFlags (earlier : List Placed) (p : Placed) :
    (inheritFlags earlier p).skeleton = p.skeleton := by
  unfold inheritFlags
  split
  · split
    · rw [skeleton_inherit, skeleton_inherit]
    · rfl
  · rfl

theorem repeated?_eq_none_iff (seen l : List String) :
    repeated? seen l = none ↔ l.Nodup ∧ ∀ n ∈ l, n ∉ seen := by
  induction l generalizing seen with
  | nil => simp [repeated?]
  | cons n rest ih =>
    rw [repeated?]
    by_cases hseen : n ∈ seen
    · simp [hseen]
    · rw [if_neg hseen, ih, List.nodup_cons, List.forall_mem_cons]
      constructor
      · rintro ⟨nodup, hapart⟩
        refine ⟨⟨fun hmem => hapart n hmem List.mem_cons_self, nodup⟩, hseen, ?_⟩
        exact fun m hm hmem => hapart m hm (List.mem_cons_of_mem n hmem)
      · rintro ⟨⟨hnew, nodup⟩, _, hapart⟩
        refine ⟨nodup, ?_⟩
        intro m hm hmem
        rcases List.mem_cons.1 hmem with rfl | hmem
        · exact hnew hm
        · exact hapart m hm hmem

theorem any_name_iff (computations : List Computation) (name : String) :
    computations.any (·.name == name) = true ↔ name ∈ computations.map (·.name) := by
  simp

theorem exists_entryName_iff (computations : List Computation) (entry : Option String) :
    (∃ name, entryName computations entry = .ok name) ↔
      ∀ name, entry = some name → name ∈ computations.map (·.name) := by
  cases entry with
  | none => simp [entryName]
  | some name =>
    simp only [entryName, Option.some.injEq, forall_eq', ← any_name_iff]
    split <;> simp_all

theorem danglingCall?_eq_none_iff (computations : List Computation) :
    danglingCall? computations = none ↔
      ∀ c ∈ computations, ∀ callee ∈ c.callees, callee ∈ computations.map (·.name) := by
  simp [danglingCall?, List.findSome?_eq_none_iff]

/-- Computations that a module can be made of, with the given entry. -/
structure Assemblable (computations : List Computation) (entry : Option String) : Prop where
  nonempty : computations ≠ []
  nodup : (computations.map (·.name)).Nodup
  entry_known : ∀ name, entry = some name → name ∈ computations.map (·.name)
  callees_known : ∀ c ∈ computations, ∀ callee ∈ c.callees, callee ∈ computations.map (·.name)

def completed (known : String) (rootOf : String → Option Opcode) (c : Computation) : Computation :=
  { c with
    isEntry := c.name == known
    instructions := sweep inheritFlags (sweep (resolveWrapped rootOf) c.instructions) }

theorem alike_completed (known : String) (rootOf : String → Option Opcode) (c : Computation) :
    c.Alike (completed known rootOf c) := by
  refine ⟨rfl, ?_⟩
  unfold completed
  rw [map_sweep _ skeleton_inheritFlags, map_sweep _ (skeleton_resolveWrapped _)]

/-- The faults that assembly looks for are those that make computations unfit for it. -/
theorem assemble_cases (name : String) (computations : List Computation) (entry : Option String) :
    (∃ m, assemble name computations entry = .ok m ∧ Assemblable computations entry ∧
        m.schedule = none ∧ ∃ known rootOf, entryName computations entry = .ok known ∧
          m.computations = computations.map (completed known rootOf)) ∨
      (∃ fault, assemble name computations entry = .error fault) ∧
        ¬ Assemblable computations entry := by
  unfold assemble
  by_cases hempty : computations = []
  · exact Or.inr ⟨⟨.emptyModule, by rw [hempty]; rfl⟩, fun h => h.nonempty hempty⟩
  have hsome : computations.isEmpty = false := by simpa using hempty
  cases htwice : repeated? [] (computations.map (·.name)) with
  | some twice =>
    refine Or.inr ⟨⟨.duplicateComputation twice, by rw [hsome]; rfl⟩, fun h => ?_⟩
    rw [(repeated?_eq_none_iff _ _).2 ⟨h.nodup, by simp⟩] at htwice
    cases htwice
  | none =>
  cases hentry : entryName computations entry with
  | error fault =>
    refine Or.inr ⟨⟨fault, by rw [hsome]; rfl⟩, fun h => ?_⟩
    obtain ⟨known, hknown⟩ := (exists_entryName_iff computations entry).2 h.entry_known
    rw [hknown] at hentry
    cases hentry
  | ok known =>
  cases hdangling : danglingCall? computations with
  | some fault =>
    refine Or.inr ⟨⟨fault, by rw [hsome]; rfl⟩, fun h => ?_⟩
    rw [(danglingCall?_eq_none_iff computations).2 h.callees_known] at hdangling
    cases hdangling
  | none =>
    refine Or.inl ⟨_, by rw [hsome]; rfl, ⟨hempty, ?_, ?_, ?_⟩, rfl, known, _, rfl, rfl⟩
    · exact ((repeated?_eq_none_iff _ _).1 htwice).1
    · exact (exists_entryName_iff computations entry).1 ⟨known, hentry⟩
    · exact (danglingCall?_eq_none_iff computations).1 hdangling

theorem exists_assemble_iff (name : String) (computations : List Computation)
    (entry : Option String) :
    (∃ m, assemble name computations entry = .ok m) ↔ Assemblable computations entry := by
  rcases assemble_cases name computations entry with ⟨m, hm, hfit, _⟩ | ⟨⟨fault, hfault⟩, hunfit⟩
  · exact ⟨fun _ => hfit, fun _ => ⟨m, hm⟩⟩
  · refine ⟨?_, fun h => (hunfit h).elim⟩
    rintro ⟨m, hm⟩
    rw [hfault] at hm
    cases hm

section Assembled

variable {name : String} {computations : List Computation} {entry : Option String} {m : Module}

theorem exists_completed (h : assemble name computations entry = .ok m) : m.schedule = none ∧
    ∃ known rootOf, entryName computations entry = .ok known ∧
      m.computations = computations.map (completed known rootOf) := by
  rcases assemble_cases name computations entry with ⟨m', hm, _, hresult⟩ | ⟨⟨fault, hfault⟩, _⟩
  · rw [hm] at h
    obtain rfl : m' = m := Except.ok.inj h
    exact hresult
  · rw [hfault] at h
    cases h

theorem assemble_ok (h : assemble name computations entry = .ok m) :
    m.schedule = none ∧ ∃ complete : Computation → Computation,
      m.computations = computations.map complete ∧ ∀ c : Computation, c.Alike (complete c) := by
  obtain ⟨hnone, known, rootOf, _, hcomputations⟩ := exists_completed h
  exact ⟨hnone, _, hcomputations, alike_completed known rootOf⟩

theorem mem_of_entryName (hnonempty : computations ≠ []) {known : String}
    (h : entryName computations entry = .ok known) : known ∈ computations.map (·.name) := by
  cases entry with
  | some asked =>
    simp only [entryName] at h
    split at h
    · next hany => exact Except.ok.inj h ▸ (any_name_iff computations asked).1 hany
    · cases h
  | none =>
    have hlast := Except.ok.inj h
    rw [List.getLast?_eq_some_getLast hnonempty] at hlast
    exact hlast ▸ List.mem_map_of_mem (List.getLast_mem hnonempty)

theorem entry_of_assemble (h : assemble name computations entry = .ok m) :
    m.entry ∈ m.computations ∧ entryName computations entry = .ok m.entry.name := by
  have hfit := (exists_assemble_iff name computations entry).1 ⟨m, h⟩
  obtain ⟨_, known, rootOf, hknown, hcomputations⟩ := exists_completed h
  obtain ⟨c, hc, hname⟩ := List.mem_map.1 (mem_of_entryName hfit.nonempty hknown)
  have hflag : (completed known rootOf c).isEntry = true := beq_iff_eq.2 hname
  have hmem : completed known rootOf c ∈ m.computations :=
    hcomputations ▸ List.mem_map_of_mem hc
  cases hfind : m.computations.find? (·.isEntry) with
  | none => exact absurd hflag (List.find?_eq_none.1 hfind _ hmem)
  | some first =>
    have hfirst := List.mem_of_find?_eq_some hfind
    have hentry : first.isEntry = true := List.find?_some hfind
    rw [Module.entry, hfind, Option.getD_some]
    refine ⟨hfirst, ?_⟩
    rw [hcomputations] at hfirst
    obtain ⟨d, _, rfl⟩ := List.mem_map.1 hfirst
    rw [hknown, ← beq_iff_eq.1 (show (d.name == known) = true from hentry)]
    rfl

end Assembled

end Module

end LatencyHiding
