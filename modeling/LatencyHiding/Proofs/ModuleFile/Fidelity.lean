import LatencyHiding.Proofs.ModuleFile.Building

set_option autoImplicit false

namespace LatencyHiding

open Relation

namespace Computation

def declared (b : Computation) (p : Placed) : InstructionDecl where
  name := p.name
  opcode := p.opcode
  shape := p.shape
  operands := p.operands.map b.nameOf
  controlPredecessors := p.controlPredecessors.map b.nameOf
  calls := p.calls
  customCallTarget := p.customCallTarget
  hint := p.hint
  tupleIndex := p.tupleIndex
  attributes := p.attributes

variable {b : Computation}

theorem nameOf_idxOf {n : String} (h : n ∈ b.names) : b.nameOf (b.names.idxOf n) = n := by
  have hlt := List.idxOf_lt_length_of_mem h
  rw [nameOf, ← getElem?_names, List.getElem?_eq_getElem hlt, List.getElem_idxOf, Option.getD_some]

theorem declared_of_placedIn {p : Placed} {i : InstructionDecl} (h : i.inputs ⊆ b.names)
    (hp : p.toInstruction = i.placedIn b.names) : b.declared p = i := by
  have hread (l : List String) (hl : l ⊆ i.inputs) :
      ((l.filter (· ∈ b.names)).map b.names.idxOf).map b.nameOf = l := by
    rw [List.filter_eq_self.2 (by simpa using fun n hn => h (hl hn)), List.map_map]
    conv_rhs => rw [← List.map_id l]
    exact List.map_congr_left fun n hn => nameOf_idxOf (h (hl hn))
  unfold declared
  rw [hp]
  unfold InstructionDecl.placedIn
  simp only [hread i.operands (List.subset_append_left _ _),
    hread i.controlPredecessors (List.subset_append_right _ _)]

end Computation

namespace ComputationDecl

variable {c : ComputationDecl} {b : Computation} {names : List String}
  {sort : Digraph.Sorter String}

theorem Realizes.declared_perm (h : c.Realizes b) :
    (b.instructions.map b.declared).Perm c.instructions := by
  obtain ⟨l, hperm, hl⟩ := h.instructions
  have hread : b.instructions.map b.declared = l := by
    apply List.ext_getElem?
    intro k
    have hk := congrArg (·[k]?) hl
    simp only [List.getElem?_map] at hk ⊢
    cases hi : l[k]? with
    | none => simpa [hi] using hk
    | some i =>
      rw [hi] at hk
      obtain ⟨p, hp, hplaced⟩ := Option.map_eq_some_iff.1 hk
      have hinputs : i.inputs ⊆ b.names := fun n hn => h.isSchedule.perm.mem_iff.2
        (h.closed i (hperm.mem_iff.1 (List.mem_of_getElem? hi)) n hn)
      rw [hp, Option.map_some, Computation.declared_of_placedIn hinputs hplaced]
  rwa [hread]

theorem eq_instructions_of_map_name (nodup : c.names.Nodup) {l : List InstructionDecl}
    (hl : l ⊆ c.instructions) (h : l.map (·.name) = c.names) : l = c.instructions := by
  apply List.ext_getElem (by simpa [ComputationDecl.names] using congrArg List.length h)
  intro k hk hk'
  apply List.inj_on_of_nodup_map nodup (hl (List.getElem_mem hk)) (List.getElem_mem hk')
  have := congrArg (·[k]?) h
  simpa [ComputationDecl.names, hk, hk'] using this

theorem referencesBackwards_of_isSchedule (nodup : c.names.Nodup) (h : c.IsSchedule c.names) :
    c.referencesBackwards = true := by
  apply List.all_eq_true.2
  rintro ⟨i, k⟩ hmem
  have hk := List.mem_zipIdx_iff_getElem?.1 hmem
  have hi := List.mem_of_getElem? hk
  apply List.all_eq_true.2
  intro dependency hdependency
  have hlt := h.dependenciesFirst i hi dependency hdependency
  have hname : c.names[k]? = some i.name := by rw [getElem?_names, hk, Option.map_some]
  rw [idxOf_of_getElem? nodup hname] at hlt
  have hknown : dependency ∈ c.names := by
    have := (List.getElem?_eq_some_iff.1 hname).choose
    exact List.idxOf_lt_length_iff.1 (by omega)
  obtain ⟨j, hj⟩ := exists_lastIndex? hknown
  rw [idxOf_of_getElem? nodup (getElem?_of_lastIndex? hj)] at hlt
  simp [hj, hlt]

/-- No instruction depends on `n`, and every one declared after it is depended on. -/
def IsLastSink (c : ComputationDecl) (n : String) : Prop :=
  ∃ before after, c.names = before ++ n :: after ∧ (∀ a, ¬ c.DependsOn a n) ∧
    ∀ m ∈ after, ∃ a, c.DependsOn a m

theorem isEmpty_outgoing_iff (c : ComputationDecl) (n : String) :
    (c.dependencies.outgoing n).isEmpty = true ↔ ∀ a, ¬ c.DependsOn a n := by
  rw [List.isEmpty_iff, List.eq_nil_iff_forall_not_mem]
  simp only [Digraph.mem_outgoing_iff, joins_dependencies_iff]

def sinks (c : ComputationDecl) : List String :=
  c.names.filter fun n => (c.dependencies.outgoing n).isEmpty

theorem getLast?_sinks_eq_some_iff (n : String) : c.sinks.getLast? = some n ↔ c.IsLastSink n := by
  rw [sinks, List.getLast?_filter, List.find?_eq_some_iff_append, isEmpty_outgoing_iff]
  constructor
  · rintro ⟨hsink, after, before, hsplit, hafter⟩
    refine ⟨before.reverse, after.reverse, ?_, hsink, ?_⟩
    · simpa using congrArg List.reverse hsplit
    · intro m hm
      have := hafter m (List.mem_reverse.1 hm)
      rw [Bool.not_eq_true', ← Bool.not_eq_true, isEmpty_outgoing_iff] at this
      simpa using this
  · rintro ⟨before, after, hsplit, hsink, hafter⟩
    refine ⟨hsink, after.reverse, before.reverse, by simp [hsplit], ?_⟩
    intro m hm
    rw [Bool.not_eq_true', ← Bool.not_eq_true, isEmpty_outgoing_iff]
    simpa using hafter m (List.mem_reverse.1 hm)

theorem bind_lastSink? (c : ComputationDecl) :
    c.lastSink?.bind (c.names[·]?) = c.sinks.getLast? := by
  have hfst : c.sinks = (c.names.zipIdx.filter fun x =>
      (c.dependencies.outgoing x.1).isEmpty).map Prod.fst := by
    rw [sinks]
    conv_lhs => rw [← List.zipIdx_map_fst 0 c.names, List.filter_map]
    rfl
  rw [hfst, List.getLast?_map, lastSink?]
  cases hlast : (c.names.zipIdx.filter fun x =>
      (c.dependencies.outgoing x.1).isEmpty).getLast? with
  | none => simp
  | some x =>
    simpa using List.mem_zipIdx_iff_getElem?.1 (List.mem_of_mem_filter (List.mem_of_getLast? hlast))

theorem IsSchedule.mem_sinks (h : c.IsSchedule names) (nodup : c.names.Nodup) {n : String}
    (hlast : names.getLast? = some n) : n ∈ c.sinks := by
  have hn := h.perm.mem_iff.1 (List.mem_of_getLast? hlast)
  refine List.mem_filter.2 ⟨hn, (c.isEmpty_outgoing_iff n).2 ?_⟩
  rintro _ ⟨i, hi, rfl, hinput⟩
  obtain ⟨others, rfl⟩ := List.getLast?_eq_some_iff.1 hlast
  have hfirst := h.dependenciesFirst i hi n hinput
  have hlt := List.idxOf_lt_length_of_mem (h.perm.mem_iff.2 (List.mem_map_of_mem hi))
  have hnew : n ∉ others := by
    have := h.perm.nodup_iff.2 nodup
    rw [List.nodup_append] at this
    exact fun hmem => this.2.2 n hmem n (by simp) rfl
  rw [List.idxOf_append_of_notMem hnew, List.idxOf_cons_self] at hfirst
  rw [List.length_append, List.length_singleton] at hlt
  omega

theorem getLast?_names_of_build (sorts : Digraph.Sorts sort) (nodup : c.names.Nodup)
    (closed : c.Closed) (h : c.build sort = .ok b) : b.names.getLast? = c.sinks.getLast? := by
  have hschedule := (realizes_of_build sorts nodup closed h).isSchedule
  cases hlast : b.names.getLast? with
  | none =>
    rw [List.getLast?_eq_none_iff] at hlast
    have hnil : c.names = [] := (hlast ▸ hschedule.perm).nil_eq.symm
    rw [sinks, hnil]
    rfl
  | some r =>
    have hsink := hschedule.mem_sinks nodup hlast
    by_cases hback : c.referencesBackwards = true
    · -- the last declaration is a sink itself
      rw [(names_of_build sorts h).2.2 hback] at hlast
      obtain ⟨others, hothers⟩ := List.getLast?_eq_some_iff.1 hlast
      simp [sinks, hothers, (List.mem_filter.1 hsink).2]
    · -- there is a sink, so the last one has been moved to the end
      obtain ⟨places, hplaces, _, rfl⟩ := (build_eq_ok_iff c sort b).1 h
      obtain ⟨order, _, rfl⟩ := (buildOrder_eq_ok_iff c sort places).1 hplaces
      rw [names_foldl_extend, map_name_selected, if_neg hback] at hlast
      obtain ⟨n, hn⟩ := Option.ne_none_iff_exists'.1 fun hnone =>
        List.ne_nil_of_mem hsink (List.getLast?_eq_none_iff.1 hnone)
      obtain ⟨k, hk, hname⟩ := Option.bind_eq_some_iff.1 (c.bind_lastSink?.trans hn)
      rw [hn, ← hlast]
      simp [Computation.names, rearranged, hk, hname]

theorem exists_build_declared (sorts : Digraph.Sorts sort) (nodup : c.names.Nodup)
    (closed : c.Closed) (acyclic : ∀ n, ¬ TransGen c.DependsOn n n) :
    ∃ b, c.build sort = .ok b ∧ (b.instructions.map b.declared).Perm c.instructions ∧
      (c.IsSchedule c.names → ∀ k, (b.instruction? k).map b.declared = c.instructions[k]?) ∧
      ∀ n, b.root?.map (·.name) = some n ↔ c.IsLastSink n := by
  obtain ⟨b, hb⟩ := exists_build sorts nodup closed acyclic
  have hperm := (realizes_of_build sorts nodup closed hb).declared_perm
  refine ⟨b, hb, hperm, ?_, ?_⟩
  · intro hschedule k
    have hnames := (names_of_build sorts hb).2.2 (referencesBackwards_of_isSchedule nodup hschedule)
    have hsame : b.instructions.map b.declared = c.instructions := by
      apply eq_instructions_of_map_name nodup hperm.subset
      rw [← hnames, List.map_map]
      rfl
    rw [← hsame, List.getElem?_map]
    rfl
  · intro n
    rw [← getLast?_sinks_eq_some_iff, ← getLast?_names_of_build sorts nodup closed hb,
      Computation.names, List.getLast?_map, Computation.root?]

/-- Building loses nothing. A declaration with distinct names, references to declared instructions
and no cycle is built; what is built reads back as the declared instructions, with each list of
references as it was, and by id in the order of declaration if that is a schedule already. The root
is the last declared sink in any case. -/
theorem build_faithful (nodup : c.names.Nodup) (closed : c.Closed)
    (acyclic : ∀ n, ¬ TransGen c.DependsOn n n) :
    ∃ b, c.build = .ok b ∧ (b.instructions.map b.declared).Perm c.instructions ∧
      (c.IsSchedule c.names → ∀ k, (b.instruction? k).map b.declared = c.instructions[k]?) ∧
      ∀ n, b.root?.map (·.name) = some n ↔ c.IsLastSink n :=
  exists_build_declared Digraph.sorts_topologicalOrder nodup closed acyclic

def scattered : ComputationDecl where
  name := "c"
  instructions := [
    { name := "sum", opcode := .add, operands := ["x", "x"], controlPredecessors := ["s"] },
    { name := "d", opcode := .allReduceDone, operands := ["s"] },
    { name := "s", opcode := .allReduceStart, operands := ["x"] },
    { name := "x", opcode := .parameter }]

def gathered : ComputationDecl := { scattered with instructions := scattered.instructions.reverse }

theorem build_faithful_scattered :
    (∃ b, scattered.build = .ok b ∧
      (b.instructions.map b.declared).Perm scattered.instructions ∧
      b.root?.map (·.name) = some "d") ∧
    ∃ b, gathered.build = .ok b ∧
      ∀ k, (b.instruction? k).map b.declared = gathered.instructions[k]? := by
  have sorts := Digraph.sorts_topologicalOrder (α := String)
  constructor
  · obtain ⟨b, hb, hperm, _, hroot⟩ := build_faithful (c := scattered) (by decide)
      (by unfold Closed; decide) ((scattered.exists_buildOrder_iff sorts).1 ⟨_, rfl⟩)
    refine ⟨b, hb, hperm, (hroot "d").2 ⟨["sum"], ["s", "x"], rfl, ?_, ?_⟩⟩
    · simp [DependsOn, scattered, InstructionDecl.inputs]
    · simp [DependsOn, scattered, InstructionDecl.inputs]
  · have nodup : gathered.names.Nodup := by decide
    obtain ⟨b, hb, _, hids, _⟩ := build_faithful nodup (by unfold Closed; decide)
      ((gathered.exists_buildOrder_iff sorts).1 ⟨_, rfl⟩)
    exact ⟨b, hb, hids (isSchedule_of_referencesBackwards nodup (by decide))⟩

end ComputationDecl

end LatencyHiding
