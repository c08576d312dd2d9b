import LatencyHiding.ModuleFile.Basic
import LatencyHiding.Proofs.Digraph.TopologicalOrder
import LatencyHiding.Proofs.Program.Assembly

set_option autoImplicit false

namespace LatencyHiding

def InstructionDecl.placedIn (names : List String) (i : InstructionDecl) : Instruction where
  name := i.name
  opcode := i.opcode
  shape := i.shape
  operands := (i.operands.filter (· ∈ names)).map names.idxOf
  controlPredecessors := (i.controlPredecessors.filter (· ∈ names)).map names.idxOf
  calls := i.calls
  customCallTarget := i.customCallTarget
  hint := i.hint
  tupleIndex := i.tupleIndex
  attributes := i.attributes

theorem InstructionDecl.inputs_placedIn (names : List String) (i : InstructionDecl) :
    (i.placedIn names).inputs = (i.inputs.filter (· ∈ names)).map names.idxOf := by
  unfold Instruction.inputs InstructionDecl.inputs
  rw [List.filter_append, List.map_append]
  rfl

namespace ComputationDecl

def extend (c : Computation) (i : InstructionDecl) : Computation := c.grown (i.placedIn c.names)

section Appending

variable {c d : Computation} {i : InstructionDecl} {l : List InstructionDecl}

theorem append_eq (hc : c.Wired) (i : InstructionDecl) :
    append c i = c.add (i.placedIn c.names) := by
  have hresolve (names : List String) : (names.filterMap fun n => (c.find? n).map (·.id)) =
      (names.filter (· ∈ c.names)).map c.names.idxOf := by
    rw [← List.filterMap_eq_map, List.filterMap_filter]
    congr 1
    funext n
    rw [hc.map_find?]
    simp
  unfold append InstructionDecl.placedIn
  simp only [hresolve]

theorem inputs_placedIn_lt (c : Computation) (i : InstructionDecl) (j : Nat)
    (hj : j ∈ (i.placedIn c.names).inputs) : j < c.size := by
  rw [i.inputs_placedIn] at hj
  obtain ⟨n, hn, rfl⟩ := List.mem_map.1 hj
  rw [← Computation.length_names]
  exact List.idxOf_lt_length_of_mem (by simpa using (List.mem_filter.1 hn).2)

theorem append_eq_ok_iff (hc : c.Wired) :
    append c i = .ok d ↔ i.name ∉ c.names ∧ d = extend c i := by
  rw [append_eq hc, Computation.add_eq_ok_iff, Computation.find?_eq_none_iff]
  exact and_congr_right fun _ => ⟨fun h => h.2, fun h => ⟨inputs_placedIn_lt c i, h⟩⟩

theorem wired_extend (hc : c.Wired) (i : InstructionDecl) : (extend c i).Wired :=
  hc.grown (inputs_placedIn_lt c i)

theorem map_toInstruction_extend (c : Computation) (i : InstructionDecl) :
    (extend c i).instructions.map (·.toInstruction) =
      c.instructions.map (·.toInstruction) ++ [i.placedIn c.names] := by
  unfold extend Computation.grown
  rw [List.map_append, List.map_map]
  rfl

theorem names_extend (c : Computation) (i : InstructionDecl) :
    (extend c i).names = c.names ++ [i.name] := Computation.names_grown c _

theorem foldlM_append_eq_ok_iff (hc : c.Wired) : l.foldlM append c = .ok d ↔
    (l.map (·.name)).Nodup ∧ (∀ n ∈ l.map (·.name), n ∉ c.names) ∧ d = l.foldl extend c := by
  induction l generalizing c with
  | nil => simp [pure, Except.pure, eq_comm]
  | cons i rest ih =>
    rw [foldlM_cons_eq_ok_iff, List.map_cons, List.nodup_cons, List.forall_mem_cons]
    simp only [append_eq_ok_iff hc]
    constructor
    · rintro ⟨mid, ⟨hnew, rfl⟩, hrest⟩
      obtain ⟨nodup, hapart, hd⟩ := (ih (wired_extend hc i)).1 hrest
      rw [names_extend] at hapart
      refine ⟨⟨fun hmem => hapart _ hmem (by simp), nodup⟩, ⟨hnew, ?_⟩, hd⟩
      exact fun n hn hmem => hapart n hn (List.mem_append_left _ hmem)
    · rintro ⟨⟨hfirst, nodup⟩, ⟨hnew, hapart⟩, hd⟩
      refine ⟨_, ⟨hnew, rfl⟩, (ih (wired_extend hc i)).2 ⟨nodup, ?_, hd⟩⟩
      intro n hn hmem
      rw [names_extend, List.mem_append, List.mem_singleton] at hmem
      rcases hmem with hmem | rfl
      · exact hapart n hn hmem
      · exact hfirst hn

theorem wired_foldl_extend (hc : c.Wired) (l : List InstructionDecl) :
    (l.foldl extend c).Wired := by
  induction l generalizing c with
  | nil => exact hc
  | cons i rest ih => exact ih (wired_extend hc i)

theorem names_foldl_extend (c : Computation) (l : List InstructionDecl) :
    (l.foldl extend c).names = c.names ++ l.map (·.name) := by
  induction l generalizing c with
  | nil => simp
  | cons i rest ih => rw [List.foldl_cons, ih, names_extend, List.map_cons, List.append_assoc]; rfl

theorem name_foldl_extend (c : Computation) (l : List InstructionDecl) :
    (l.foldl extend c).name = c.name := by
  induction l generalizing c with
  | nil => rfl
  | cons i rest ih => exact ih (extend c i)

/-- Each instruction refers to those appended before it. -/
theorem map_toInstruction_foldl_extend (c : Computation) (l : List InstructionDecl) :
    (l.foldl extend c).instructions.map (·.toInstruction) =
      c.instructions.map (·.toInstruction) ++
        l.mapIdx fun k i => i.placedIn (c.names ++ (l.take k).map (·.name)) := by
  induction l generalizing c with
  | nil => simp
  | cons i rest ih =>
    rw [List.foldl_cons, ih, map_toInstruction_extend, names_extend, List.mapIdx_cons]
    simp

end Appending

def DependsOn (c : ComputationDecl) (a b : String) : Prop :=
  ∃ i ∈ c.instructions, i.name = a ∧ b ∈ i.inputs

/-- All declared names, dependencies first. -/
structure IsSchedule (c : ComputationDecl) (names : List String) : Prop where
  perm : names.Perm c.names
  dependenciesFirst : ∀ i ∈ c.instructions, ∀ dependency ∈ i.inputs,
    names.idxOf dependency < names.idxOf i.name

section Order

variable {c : ComputationDecl} {n : String} {k : Nat} {places : List Nat}

theorem getElem?_names (c : ComputationDecl) (k : Nat) :
    c.names[k]? = (c.instructions[k]?).map (·.name) := List.getElem?_map

theorem proper_dependencies (c : ComputationDecl) : c.dependencies.Proper :=
  (Digraph.ofLists_spec _ _).1

theorem joins_dependencies_iff (c : ComputationDecl) (a b : String) :
    c.dependencies.Joins a b ↔ c.DependsOn b a := by
  rw [dependencies, (Digraph.ofLists_spec _ _).2.1, DependsOn]
  simp only [List.mem_flatMap, List.mem_map, Prod.mk.injEq]
  constructor
  · rintro ⟨i, hi, _, hinput, rfl, rfl⟩
    exact ⟨i, hi, rfl, hinput⟩
  · rintro ⟨i, hi, rfl, hinput⟩
    exact ⟨i, hi, a, hinput, rfl, rfl⟩

theorem mem_nodes_of_mem_names (h : n ∈ c.names) : n ∈ c.dependencies.nodes :=
  ((Digraph.ofLists_spec _ _).2.2 n).2 (Or.inl h)

theorem getElem?_of_lastIndex? (h : c.lastIndex? n = some k) : c.names[k]? = some n := by
  obtain ⟨x, hx, rfl⟩ := Option.map_eq_some_iff.1 h
  have hmem := List.mem_filter.1 (List.mem_of_getLast? hx)
  obtain rfl : x.1 = n := by simpa using hmem.2
  exact List.mem_zipIdx_iff_getElem?.1 hmem.1

theorem exists_lastIndex? (h : n ∈ c.names) : ∃ k, c.lastIndex? n = some k := by
  obtain ⟨k, hk⟩ := List.mem_iff_getElem?.1 h
  have hmem : (n, k) ∈ c.names.zipIdx.filter (·.1 = n) :=
    List.mem_filter.2 ⟨List.mem_zipIdx_iff_getElem?.2 hk, by simp⟩
  cases hlast : (c.names.zipIdx.filter (·.1 = n)).getLast? with
  | none =>
    rw [List.getLast?_eq_none_iff.1 hlast] at hmem
    cases hmem
  | some x => exact ⟨x.2, by rw [lastIndex?, hlast]; rfl⟩

theorem getElem?_of_lastSink? (h : c.lastSink? = some k) :
    ∃ n, c.names[k]? = some n ∧ ∀ a, ¬ c.dependencies.Joins n a := by
  obtain ⟨x, hx, rfl⟩ := Option.map_eq_some_iff.1 h
  obtain ⟨hmem, hnone⟩ := List.mem_filter.1 (List.mem_of_getLast? hx)
  refine ⟨x.1, List.mem_zipIdx_iff_getElem?.1 hmem, ?_⟩
  intro a ha
  rw [← Digraph.mem_outgoing_iff, List.isEmpty_iff.1 hnone] at ha
  cases ha

def rearranged (c : ComputationDecl) (order : List String) : List Nat :=
  (order.filterMap c.lastIndex?).filter (some · ≠ c.lastSink?) ++ c.lastSink?.toList

theorem buildOrder_eq_ok_iff (c : ComputationDecl) (sort : Digraph.Sorter String)
    (places : List Nat) :
    c.buildOrder sort = .ok places ↔ ∃ order, sort c.dependencies = .ok order ∧
      places = if c.referencesBackwards then List.range c.instructions.length
        else c.rearranged order := by
  unfold buildOrder
  cases sort c.dependencies with
  | error name => simp
  | ok order =>
    simp only [Except.ok.injEq, exists_eq_left']
    exact eq_comm

variable {order : List String}

theorem mem_rearranged_iff (k : Nat) : k ∈ c.rearranged order ↔
    (∃ n ∈ order, c.lastIndex? n = some k) ∨ c.lastSink? = some k := by
  unfold rearranged
  rw [List.mem_append, List.mem_filter, List.mem_filterMap, Option.mem_toList]
  by_cases hroot : c.lastSink? = some k
  · simp [hroot]
  · simp [hroot, Ne.symm hroot]

theorem lt_length_of_mem_rearranged (h : k ∈ c.rearranged order) : k < c.instructions.length := by
  have hlength : c.names.length = c.instructions.length := List.length_map _
  rw [← hlength]
  rcases (mem_rearranged_iff k).1 h with ⟨n, _, hn⟩ | hroot
  · exact (List.getElem?_eq_some_iff.1 (getElem?_of_lastIndex? hn)).choose
  · obtain ⟨n, hn, _⟩ := getElem?_of_lastSink? hroot
    exact (List.getElem?_eq_some_iff.1 hn).choose

theorem nodup_rearranged (nodup : order.Nodup) : (c.rearranged order).Nodup := by
  have hplaces : (order.filterMap c.lastIndex?).Nodup := by
    apply nodup.filterMap
    intro a b k ha hb
    have ha := getElem?_of_lastIndex? ha
    rw [getElem?_of_lastIndex? hb] at ha
    exact (Option.some.inj ha).symm
  refine (hplaces.filter _).append (by cases c.lastSink? <;> simp) ?_
  intro k hk hroot
  have hne := (List.mem_filter.1 hk).2
  rw [Option.mem_toList] at hroot
  simp [Option.mem_def.1 hroot] at hne

/-- Moving a sink to the end leaves nothing in front of what it needs. -/
theorem pairwise_rearranged (hpairs : order.Pairwise fun x y => ¬ c.dependencies.Joins y x) :
    ((c.rearranged order).filterMap (c.names[·]?)).Pairwise
      fun x y => ¬ c.dependencies.Joins y x := by
  rw [List.pairwise_filterMap, rearranged, List.pairwise_append]
  refine ⟨List.Pairwise.filter _ ?_, by cases c.lastSink? <;> simp, ?_⟩
  · rw [List.pairwise_filterMap]
    apply hpairs.imp
    intro x y hxy j hj k hk a ha b hb
    rw [getElem?_of_lastIndex? hj] at ha
    rw [getElem?_of_lastIndex? hk] at hb
    rwa [← Option.some.inj ha, ← Option.some.inj hb]
  · intro j _ k hk a _ b hb
    obtain ⟨n, hn, hsink⟩ := getElem?_of_lastSink? (Option.mem_toList.1 hk)
    rw [hn] at hb
    rw [← Option.some.inj hb]
    exact hsink a

end Order

section Selection

variable {c : ComputationDecl} {places : List Nat} {sort : Digraph.Sorter String}

def selected (c : ComputationDecl) (places : List Nat) : List InstructionDecl :=
  places.filterMap (c.instructions[·]?)

theorem map_name_selected (c : ComputationDecl) (places : List Nat) :
    (c.selected places).map (·.name) = places.filterMap (c.names[·]?) := by
  rw [selected, List.map_filterMap]
  congr 1
  funext k
  exact (c.getElem?_names k).symm

theorem selected_range (c : ComputationDecl) :
    c.selected (List.range c.instructions.length) = c.instructions := by
  unfold selected
  induction c.instructions using List.reverseRecOn with
  | nil => rfl
  | append_singleton l i ih =>
    rw [List.length_append, List.length_singleton, List.range_succ, List.filterMap_append]
    have hold : (List.range l.length).filterMap ((l ++ [i])[·]?) = l := by
      refine (List.filterMap_congr ?_).trans ih
      intro k hk
      exact List.getElem?_append_left (List.mem_range.1 hk)
    rw [hold]
    simp

theorem selected_subset (c : ComputationDecl) (places : List Nat) :
    c.selected places ⊆ c.instructions := by
  intro i hi
  obtain ⟨k, _, hk⟩ := List.mem_filterMap.1 hi
  exact List.mem_of_getElem? hk

theorem mem_map_name_selected_iff (sorts : Digraph.Sorts sort)
    (h : c.buildOrder sort = .ok places) (n : String) :
    n ∈ (c.selected places).map (·.name) ↔ n ∈ c.names := by
  constructor
  · intro hn
    obtain ⟨i, hi, rfl⟩ := List.mem_map.1 hn
    exact List.mem_map_of_mem (c.selected_subset places hi)
  · intro hn
    obtain ⟨order, horder, rfl⟩ := (buildOrder_eq_ok_iff c sort places).1 h
    split
    · rwa [selected_range]
    · have hperm := (sorts.ok c.proper_dependencies horder).1
      obtain ⟨k, hk⟩ := exists_lastIndex? hn
      rw [map_name_selected]
      refine List.mem_filterMap.2 ⟨k, ?_, getElem?_of_lastIndex? hk⟩
      exact (mem_rearranged_iff k).2 (Or.inl ⟨n, hperm.mem_iff.2 (mem_nodes_of_mem_names hn), hk⟩)

/-- If names are distinct, every place is taken up once. -/
theorem perm_range_of_buildOrder (sorts : Digraph.Sorts sort) (nodup : c.names.Nodup)
    (h : c.buildOrder sort = .ok places) : places.Perm (List.range c.instructions.length) := by
  obtain ⟨order, horder, rfl⟩ := (buildOrder_eq_ok_iff c sort places).1 h
  split
  · exact List.Perm.refl _
  · have hperm := (sorts.ok c.proper_dependencies horder).1
    refine (List.perm_ext_iff_of_nodup (nodup_rearranged
      (hperm.nodup_iff.2 c.proper_dependencies.nodup)) List.nodup_range).2 ?_
    intro k
    rw [List.mem_range]
    refine ⟨lt_length_of_mem_rearranged, ?_⟩
    intro hk
    have hk : k < c.names.length := by simpa [names] using hk
    have hn : c.names[k]? = some c.names[k] := List.getElem?_eq_getElem hk
    obtain ⟨j, hj⟩ := exists_lastIndex? (List.mem_of_getElem? hn)
    obtain rfl : j = k := by
      rw [← idxOf_of_getElem? nodup hn, idxOf_of_getElem? nodup (getElem?_of_lastIndex? hj)]
    refine (mem_rearranged_iff j).2 (Or.inl ⟨_, hperm.mem_iff.2 ?_, hj⟩)
    exact mem_nodes_of_mem_names (List.mem_of_getElem? hn)

end Selection

/-- References are to other instructions of the computation. -/
def Closed (c : ComputationDecl) : Prop :=
  ∀ i ∈ c.instructions, ∀ dependency ∈ i.inputs, dependency ∈ c.names

section Schedule

variable {c : ComputationDecl} {names : List String} {places : List Nat}
  {sort : Digraph.Sorter String}

theorem isSchedule_iff_pairwise (nodup : c.names.Nodup) (closed : c.Closed)
    (irrefl : ∀ a, ¬ c.DependsOn a a) :
    c.IsSchedule names ↔ names.Perm c.names ∧ names.Pairwise fun x y => ¬ c.DependsOn x y := by
  constructor
  · rintro ⟨hperm, hfirst⟩
    refine ⟨hperm, pairwise_of_idxOf_lt (hperm.nodup_iff.2 nodup) ?_⟩
    rintro a _ b _ ⟨i, hi, rfl, hinput⟩
    exact hfirst i hi a hinput
  · rintro ⟨hperm, hpairs⟩
    refine ⟨hperm, ?_⟩
    intro i hi dependency hinput
    exact idxOf_lt_of_pairwise hpairs irrefl (hperm.mem_iff.2 (closed i hi dependency hinput))
      (hperm.mem_iff.2 (List.mem_map_of_mem hi)) ⟨i, hi, rfl, hinput⟩

theorem isSchedule_of_referencesBackwards (nodup : c.names.Nodup)
    (h : c.referencesBackwards = true) : c.IsSchedule c.names := by
  refine ⟨List.Perm.refl _, ?_⟩
  intro i hi dependency hinput
  obtain ⟨k, hk⟩ := List.mem_iff_getElem?.1 hi
  have hback := List.all_eq_true.1 h (i, k) (List.mem_zipIdx_iff_getElem?.2 hk)
  have hany := List.all_eq_true.1 hback dependency hinput
  cases hj : c.lastIndex? dependency with
  | none => simp [hj] at hany
  | some j =>
    have hlt : j < k := by simpa [hj] using hany
    have hname : c.names[k]? = some i.name := by rw [getElem?_names, hk, Option.map_some]
    rwa [idxOf_of_getElem? nodup (getElem?_of_lastIndex? hj), idxOf_of_getElem? nodup hname]

theorem isSchedule_of_buildOrder (sorts : Digraph.Sorts sort) (nodup : c.names.Nodup)
    (closed : c.Closed) (h : c.buildOrder sort = .ok places) :
    (c.selected places).Perm c.instructions ∧ c.IsSchedule ((c.selected places).map (·.name)) := by
  have hperm : (c.selected places).Perm c.instructions := by
    have := (perm_range_of_buildOrder sorts nodup h).filterMap (c.instructions[·]?)
    rwa [← selected, ← selected, selected_range] at this
  refine ⟨hperm, ?_⟩
  obtain ⟨order, horder, rfl⟩ := (buildOrder_eq_ok_iff c sort places).1 h
  by_cases hback : c.referencesBackwards = true
  · rw [if_pos hback, selected_range]
    exact isSchedule_of_referencesBackwards nodup hback
  · rw [if_neg hback] at hperm ⊢
    obtain ⟨_, hpairs, hloops⟩ := sorts.ok c.proper_dependencies horder
    have hpairs := pairwise_rearranged hpairs
    rw [← map_name_selected] at hpairs
    simp only [joins_dependencies_iff] at hpairs hloops
    exact (isSchedule_iff_pairwise nodup closed hloops).2 ⟨hperm.map _, hpairs⟩

theorem exists_buildOrder_iff (c : ComputationDecl) (sorts : Digraph.Sorts sort) :
    (∃ places, c.buildOrder sort = .ok places) ↔ ∀ n, ¬ Relation.TransGen c.DependsOn n n := by
  have hswap : c.dependencies.Joins = Function.swap c.DependsOn := by
    funext a b
    exact propext (c.joins_dependencies_iff a b)
  have hcycle := sorts.exists_iff c.proper_dependencies
  simp only [hswap, Relation.transGen_swap] at hcycle
  rw [← hcycle]
  constructor
  · rintro ⟨places, h⟩
    obtain ⟨order, horder, _⟩ := (buildOrder_eq_ok_iff c sort places).1 h
    exact ⟨order, horder⟩
  · rintro ⟨order, horder⟩
    exact ⟨_, (buildOrder_eq_ok_iff c sort _).2 ⟨order, horder, rfl⟩⟩

end Schedule

section Build

variable {c : ComputationDecl} {b : Computation} {names : List String}
  {sort : Digraph.Sorter String}

theorem wired_empty (name : String) : Computation.Wired { name } :=
  (Computation.Built.empty name false).wired

theorem build_eq_ok_iff (c : ComputationDecl) (sort : Digraph.Sorter String) (b : Computation) :
    c.build sort = .ok b ↔ ∃ places, c.buildOrder sort = .ok places ∧
      ((c.selected places).map (·.name)).Nodup ∧
      b = (c.selected places).foldl extend { name := c.name } := by
  rw [build, bind_eq_ok_iff]
  apply exists_congr
  intro places
  apply and_congr_right
  intro _
  rw [← selected, foldlM_append_eq_ok_iff (wired_empty c.name)]
  simp [Computation.names]

/-- What building keeps even if names are repeated. -/
theorem names_of_build (sorts : Digraph.Sorts sort) (h : c.build sort = .ok b) : b.names.Nodup ∧
    (∀ n, n ∈ b.names ↔ n ∈ c.names) ∧ (c.referencesBackwards = true → b.names = c.names) := by
  obtain ⟨places, hplaces, nodup, rfl⟩ := (build_eq_ok_iff c sort b).1 h
  rw [names_foldl_extend]
  refine ⟨nodup, mem_map_name_selected_iff sorts hplaces, ?_⟩
  intro hback
  obtain ⟨_, _, rfl⟩ := (buildOrder_eq_ok_iff c sort places).1 hplaces
  rw [if_pos hback, selected_range]
  rfl

theorem wired_of_build (h : c.build sort = .ok b) : b.Wired ∧ b.name = c.name := by
  obtain ⟨places, _, _, rfl⟩ := (build_eq_ok_iff c sort b).1 h
  exact ⟨wired_foldl_extend (wired_empty c.name) _, name_foldl_extend _ _⟩

theorem exists_build (sorts : Digraph.Sorts sort) (nodup : c.names.Nodup) (closed : c.Closed)
    (acyclic : ∀ n, ¬ Relation.TransGen c.DependsOn n n) : ∃ b, c.build sort = .ok b := by
  obtain ⟨places, hplaces⟩ := (c.exists_buildOrder_iff sorts).2 acyclic
  have hperm := (isSchedule_of_buildOrder sorts nodup closed hplaces).2.perm
  exact ⟨_, (build_eq_ok_iff c sort _).2 ⟨places, hplaces, hperm.nodup_iff.2 nodup, rfl⟩⟩

/-- The instructions of `b` are those of the declaration in another order, each with its references
resolved. -/
structure Realizes (c : ComputationDecl) (b : Computation) : Prop where
  wired : b.Wired
  isSchedule : c.IsSchedule b.names
  instructions : ∃ l : List InstructionDecl, l.Perm c.instructions ∧
    b.instructions.map (·.toInstruction) = l.map (·.placedIn b.names)

theorem placedIn_take {i : InstructionDecl} {k : Nat} (hk : k ≤ names.length)
    (h : ∀ dependency ∈ i.inputs, names.idxOf dependency < k) :
    i.placedIn (names.take k) = i.placedIn names := by
  have hresolve (l : List String) (hl : l ⊆ i.inputs) :
      (l.filter (· ∈ names.take k)).map (names.take k).idxOf =
        (l.filter (· ∈ names)).map names.idxOf := by
    have hmem {n : String} (hn : n ∈ l) : n ∈ names.take k := by
      have hlt := h n (hl hn)
      have hlength := Nat.lt_of_lt_of_le hlt hk
      rw [← List.getElem_idxOf hlength]
      exact List.mem_take_iff_getElem.2 ⟨_, by omega, rfl⟩
    have hmem' {n : String} (hn : n ∈ l) : n ∈ names := List.mem_of_mem_take (hmem hn)
    rw [List.filter_eq_self.2 (by simpa using fun n => hmem),
      List.filter_eq_self.2 (by simpa using fun n => hmem')]
    apply List.map_congr_left
    intro n hn
    conv_rhs => rw [← List.take_append_drop k names]
    rw [List.idxOf_append_of_mem (hmem hn)]
  unfold InstructionDecl.placedIn
  rw [hresolve i.operands (List.subset_append_left _ _),
    hresolve i.controlPredecessors (List.subset_append_right _ _)]

theorem realizes_of_build (sorts : Digraph.Sorts sort) (nodup : c.names.Nodup) (closed : c.Closed)
    (h : c.build sort = .ok b) : c.Realizes b := by
  obtain ⟨places, hplaces, nodup', rfl⟩ := (build_eq_ok_iff c sort b).1 h
  obtain ⟨hperm, hschedule⟩ := isSchedule_of_buildOrder sorts nodup closed hplaces
  have hnames : ((c.selected places).foldl extend { name := c.name }).names =
      (c.selected places).map (·.name) := names_foldl_extend _ _
  refine ⟨wired_foldl_extend (wired_empty c.name) _, hnames ▸ hschedule, c.selected places, hperm,
    ?_⟩
  rw [map_toInstruction_foldl_extend, hnames, List.map_nil, List.nil_append]
  apply List.ext_getElem?
  intro k
  rw [List.getElem?_mapIdx, List.getElem?_map]
  cases hk : (c.selected places)[k]? with
  | none => rfl
  | some i =>
    have hname : ((c.selected places).map (·.name))[k]? = some i.name := by
      rw [List.getElem?_map, hk, Option.map_some]
    have hplace := idxOf_of_getElem? nodup' hname
    have hi := c.selected_subset places (List.mem_of_getElem? hk)
    have hlt := (List.getElem?_eq_some_iff.1 hname).choose
    simp only [Option.map_some, Option.some.injEq]
    rw [show Computation.names { name := c.name } = [] from rfl, List.nil_append, List.map_take]
    refine placedIn_take (Nat.le_of_lt hlt) fun dependency hdependency => ?_
    have := hschedule.dependenciesFirst i hi dependency hdependency
    rwa [hplace] at this

namespace Realizes

theorem closed (h : c.Realizes b) : c.Closed := by
  intro i hi dependency hdependency
  have hfirst := h.isSchedule.dependenciesFirst i hi dependency hdependency
  have hlength : b.names.idxOf i.name ≤ b.names.length := List.idxOf_le_length
  exact h.isSchedule.perm.mem_iff.1 (List.idxOf_lt_length_iff.1 (by omega))

theorem irrefl (h : c.Realizes b) (a : String) : ¬ c.DependsOn a a := by
  rintro ⟨i, hi, rfl, hself⟩
  exact Nat.lt_irrefl _ (h.isSchedule.dependenciesFirst i hi i.name hself)

theorem mem_callees_iff (h : c.Realizes b) (callee : String) :
    callee ∈ b.callees ↔ ∃ i ∈ c.instructions, callee ∈ i.calls := by
  obtain ⟨l, hperm, hl⟩ := h.instructions
  have hcalls : b.instructions.flatMap (·.calls) = l.flatMap (·.calls) := by
    have := congrArg (fun x => (x.map Instruction.calls).flatten) hl
    simpa [List.flatMap_def, List.map_map, InstructionDecl.placedIn, Function.comp_def] using this
  rw [Computation.callees, List.mem_eraseDups, hcalls, List.mem_flatMap]
  simp only [hperm.mem_iff]

/-- Dependence between what is built is dependence between what was declared. -/
theorem needs_iff (h : c.Realizes b) (nodup : c.names.Nodup) {x y : String} (hx : x ∈ c.names)
    (hy : y ∈ c.names) : b.Needs (b.names.idxOf x) (b.names.idxOf y) ↔ c.DependsOn x y := by
  obtain ⟨l, hperm, hl⟩ := h.instructions
  have hnodup := h.isSchedule.perm.nodup_iff.2 nodup
  have hx := h.isSchedule.perm.mem_iff.2 hx
  have hy := h.isSchedule.perm.mem_iff.2 hy
  have hget (k : Nat) : (b.instruction? k).map (·.toInstruction) =
      (l[k]?).map (·.placedIn b.names) := by
    have := congrArg (·[k]?) hl
    rwa [List.getElem?_map, List.getElem?_map] at this
  constructor
  · rintro ⟨p, hp, hinput⟩
    have hi := hget (b.names.idxOf x)
    rw [hp, Option.map_some] at hi
    obtain ⟨i, hi, hsame⟩ := Option.map_eq_some_iff.1 hi.symm
    rw [← hsame, i.inputs_placedIn] at hinput
    obtain ⟨n, hn, hplace⟩ := List.mem_map.1 hinput
    obtain ⟨hn, hknown⟩ := List.mem_filter.1 hn
    obtain rfl : n = y := (List.idxOf_inj (by simpa using hknown)).1 hplace
    refine ⟨i, hperm.mem_iff.1 (List.mem_of_getElem? hi), ?_, hn⟩
    have hname := Computation.getElem?_names b (b.names.idxOf x)
    rw [hp, List.getElem?_eq_getElem (List.idxOf_lt_length_of_mem hx), List.getElem_idxOf] at hname
    rw [Option.some.inj hname]
    exact congrArg Instruction.name hsame
  · rintro ⟨i, hi, rfl, hinput⟩
    obtain ⟨k, hk⟩ := List.mem_iff_getElem?.1 (hperm.mem_iff.2 hi)
    have hp := hget k
    rw [hk, Option.map_some] at hp
    obtain ⟨p, hp, hsame⟩ := Option.map_eq_some_iff.1 hp
    have hname : b.names[k]? = some i.name := by
      rw [Computation.getElem?_names, hp, Option.map_some, hsame]
      rfl
    rw [idxOf_of_getElem? hnodup hname]
    refine ⟨p, hp, ?_⟩
    rw [hsame, i.inputs_placedIn]
    exact List.mem_map_of_mem (List.mem_filter.2 ⟨hinput, by simpa using hy⟩)

theorem isOrder_iff (h : c.Realizes b) (nodup : c.names.Nodup) (hnames : names ⊆ c.names) :
    b.IsOrder (names.map b.names.idxOf) ↔ c.IsSchedule names := by
  have hnodup := h.isSchedule.perm.nodup_iff.2 nodup
  rw [Computation.isOrder_iff_pairwise h.wired, isSchedule_iff_pairwise nodup h.closed h.irrefl,
    List.pairwise_map]
  apply and_congr
  · have hback (l : List String) (hl : l ⊆ c.names) :
        (l.map b.names.idxOf).map (b.names.getD · "") = l := by
      rw [List.map_map]
      conv_rhs => rw [← List.map_id l]
      apply List.map_congr_left
      intro n hn
      have hlt := List.idxOf_lt_length_of_mem (h.isSchedule.perm.mem_iff.2 (hl hn))
      simp [hlt]
    have hrange : b.postOrder = b.names.map b.names.idxOf := by
      apply List.ext_getElem
      · simp [Computation.postOrder, Computation.length_names]
      · intro k hk hk'
        have hk' : k < b.names.length := by simpa using hk'
        simp [Computation.postOrder, hnodup.idxOf_getElem k hk']
    rw [hrange, ← h.isSchedule.perm.congr_right]
    refine ⟨fun hperm => ?_, fun hperm => hperm.map _⟩
    have := hperm.map (b.names.getD · "")
    rwa [hback names hnames, hback b.names h.isSchedule.perm.subset] at this
  · apply List.Pairwise.iff_of_mem
    intro x y hx hy
    rw [h.needs_iff nodup (hnames hx) (hnames hy)]

end Realizes

end Build

end ComputationDecl

end LatencyHiding
