import LatencyHiding.Proofs.Buffer.Origins
import LatencyHiding.Proofs.Program.ShapePaths

set_option autoImplicit false

namespace LatencyHiding

open Relation

namespace Computation

def shapeOf? (c : Computation) (id : Nat) : Option Shape := (c.instruction? id).map (·.shape)

/-- The shape of an instruction goes with the shapes of its operands: a tuple has theirs, an element
the one in its place, and what is handed on keeps its shape. -/
def Fits (c : Computation) (p : Placed) : Prop :=
  (p.opcode = .tuple → p.shape = .tuple (p.operands.filterMap c.shapeOf?)) ∧
  (p.opcode = .getTupleElement → ∀ operand ∈ p.operands.head?, ∀ k ∈ p.tupleIndex,
    (c.shapeOf? operand).bind (·.element? k) = some p.shape) ∧
  (p.opcode = .bitcast ∨ p.opcode = .whileLoop → ∀ operand ∈ p.operands.head?,
    c.shapeOf? operand = some p.shape)

instance (c : Computation) (p : Placed) : Decidable (c.Fits p) :=
  inferInstanceAs (Decidable (_ ∧ _ ∧ _))

def WellShaped (c : Computation) : Prop := ∀ p ∈ c.instructions, c.Fits p

instance (c : Computation) : Decidable c.WellShaped :=
  inferInstanceAs (Decidable (∀ p ∈ c.instructions, _))

end Computation

namespace Aliasing

open Shape (Path)

/-- The positions are the paths into a shape, and behind each is a buffer for what it leads to. -/
structure Backs (buffers : List Buffer) (s : Shape) (positions : List Position) : Prop where
  paths_eq : positions.map Prod.fst = s.indices
  shape_eq : ∀ path id, (path, id) ∈ positions →
    ∃ buffer, buffers[id]? = some buffer ∧ s.at? path = some buffer.shape

variable {buffers : List Buffer} {s : Shape} {positions : List Position}

theorem Backs.append (h : Backs buffers s positions) (more : List Buffer) :
    Backs (buffers ++ more) s positions := by
  refine ⟨h.paths_eq, ?_⟩
  intro path id hmem
  obtain ⟨buffer, hbuffer, hshape⟩ := h.shape_eq path id hmem
  refine ⟨buffer, ?_, hshape⟩
  rw [List.getElem?_append_left (List.getElem?_eq_some_iff.1 hbuffer).choose, hbuffer]

theorem Backs.ne_nil (h : Backs buffers s positions) : positions ≠ [] := by
  rintro rfl
  have hnil := s.nil_mem_indices
  rw [← h.paths_eq] at hnil
  cases hnil

theorem below_eq (k : Nat) (positions : List Position) : below k positions =
    positions.filterMap fun q => (Path.through? k q.1).map (·, q.2) := by
  unfold below
  congr 1
  funext ⟨path, id⟩
  cases path with
  | nil => rfl
  | cons i rest =>
    by_cases hi : i = k <;> simp [Path.through?, hi]

theorem map_fst_below (k : Nat) (positions : List Position) :
    (below k positions).map Prod.fst = (positions.map Prod.fst).filterMap (Path.through? k) := by
  rw [below_eq, List.map_filterMap, List.filterMap_map]
  congr 1
  funext q
  simp [Function.comp_def]

theorem Backs.below (h : Backs buffers s positions) {k : Nat} {e : Shape}
    (he : s.element? k = some e) : Backs buffers e (below k positions) := by
  constructor
  · rw [map_fst_below, h.paths_eq, Shape.filterMap_through_indices, he, Option.map_some,
      Option.getD_some]
  · intro path id hmem
    obtain ⟨buffer, hbuffer, hshape⟩ := h.shape_eq _ _ ((mem_below_iff k positions path id).1 hmem)
    rw [Shape.at?, he, Option.bind_some] at hshape
    exact ⟨buffer, hbuffer, hshape⟩

theorem below_above (k : Nat) (id : BufferId) (outputs : List (List Position)) :
    below k (([], id) :: above outputs) = (outputs[k]?).getD [] := by
  rw [below_eq, List.filterMap_cons_none rfl]
  refine (filterMap_flatMap_zipIdx (fun i (q : Position) => (i :: q.1, q.2))
    (fun k q => (Path.through? k q.1).map (·, q.2)) ?_ outputs 0 k).trans ?_
  · intro k i q
    by_cases hi : i = k <;> simp [Path.through?, hi]
  · rw [if_pos (Nat.zero_le k), Nat.sub_zero]

theorem backs_tuple {operands : List Nat} {shape : Nat → Shape} {output : Nat → List Position}
    (h : ∀ o ∈ operands, Backs buffers (shape o) (output o)) {buffer : Buffer}
    (hbuffer : buffer.shape = .tuple (operands.map shape)) :
    Backs (buffers ++ [buffer]) (.tuple (operands.map shape))
      (([], buffers.length) :: above (operands.map output)) := by
  constructor
  · have hpaths : (operands.map shape).map Shape.indices =
        (operands.map output).map (List.map Prod.fst) := by
      rw [List.map_map, List.map_map]
      apply List.map_congr_left
      intro o ho
      exact (h o ho).paths_eq.symm
    rw [Shape.indices, Shape.indicesFrom_eq, hpaths, List.zipIdx_map, List.flatMap_map,
      List.map_cons, above, List.map_flatMap]
    simp [Function.comp_def]
  · intro path id hmem
    rcases List.mem_cons.1 hmem with heq | habove
    · obtain ⟨rfl, rfl⟩ := Prod.mk.inj heq
      refine ⟨buffer, List.getElem?_concat_length, ?_⟩
      rw [hbuffer, Shape.at?]
    · obtain ⟨i, inner, positions, rfl, hi, hinner⟩ := (mem_above_iff _ _ _).1 habove
      rw [List.getElem?_map, Option.map_eq_some_iff] at hi
      obtain ⟨o, ho, rfl⟩ := hi
      obtain ⟨found, hfound, hshape⟩ :=
        ((h o (List.mem_of_getElem? ho)).append [buffer]).shape_eq inner id hinner
      refine ⟨found, hfound, ?_⟩
      rw [Shape.at?, Shape.element?, List.getElem?_map, ho, Option.map_some, Option.bind_some,
        hshape]

theorem backs_define (a : Aliasing) (p : Placed) :
    Backs (a.buffers ++ (a.define p p.shape.indices).1) p.shape
      (a.define p p.shape.indices).2 := by
  constructor
  · rw [define, List.map_map]
    exact List.zipIdx_map_fst 0 _
  · intro path id hmem
    obtain ⟨⟨path', i⟩, hindex, heq⟩ := List.mem_map.1 hmem
    obtain ⟨rfl, rfl⟩ := Prod.mk.inj heq
    have hpath := List.mem_zipIdx_iff_getElem?.1 hindex
    obtain ⟨t, ht⟩ := (p.shape.mem_indices_iff path').1 (List.mem_of_getElem? hpath)
    refine ⟨⟨p.id, path', t⟩, ?_, ht⟩
    rw [List.getElem?_append_right (Nat.le_add_right _ _), Nat.add_sub_cancel_left, define,
      List.getElem?_map, hpath, Option.map_some, ht, Option.getD_some]

variable {a : Aliasing} {c : Computation} {p : Placed}

theorem inherited?_element {operand k : Nat} (hopcode : p.opcode = .getTupleElement)
    (hoperand : p.operands.head? = some operand) (hk : p.tupleIndex = some k)
    (hne : below k (a.outputsOf operand) ≠ []) :
    a.inherited? p = some (below k (a.outputsOf operand)) := by
  simp [inherited?, hopcode, hoperand, hk, Option.filter_some, hne]

theorem append_of_inherited (h : a.inherited? p = some positions) :
    a.append p = { a with outputs := a.outputs ++ [positions] } := by
  unfold append
  split
  · next hsome => rw [Option.some.inj (h.symm.trans hsome)]
  · next hnone => simp [h] at hnone
  · next hnone _ => simp [h] at hnone

theorem append_of_tuple (h : p.opcode = .tuple) : a.append p =
    { buffers := a.buffers ++ [⟨p.id, [], p.shape⟩]
      outputs := a.outputs ++ [([], a.buffers.length) :: above (p.operands.map a.outputsOf)] } := by
  have hnone : a.inherited? p = none := by simp [inherited?, h]
  simp [append, h, hnone, define, Shape.at?]

theorem append_of_own (h : a.inherited? p = none) (htuple : p.opcode ≠ .tuple) : a.append p =
    { buffers := a.buffers ++ (a.define p p.shape.indices).1
      outputs := a.outputs ++ [(a.define p p.shape.indices).2] } := by
  unfold append
  split
  · next hsome => simp [h] at hsome
  · next hopcode _ => exact absurd hopcode htuple
  · rfl

section Known

variable (hknown : ∀ o ∈ p.operands, ∃ t, c.shapeOf? o = some t ∧ Backs a.buffers t (a.outputsOf o))
  (fits : c.Fits p)

include hknown fits

theorem backs_handedOn (hopcode : p.opcode = .bitcast ∨ p.opcode = .whileLoop) {operand : Nat}
    (hoperand : p.operands.head? = some operand) :
    Backs a.buffers p.shape (a.outputsOf operand) := by
  obtain ⟨t, ht, backs⟩ := hknown operand (List.mem_of_head? hoperand)
  rw [fits.2.2 hopcode operand hoperand] at ht
  exact Option.some.inj ht ▸ backs

theorem backs_inherited (h : a.inherited? p = some positions) :
    Backs a.buffers p.shape positions := by
  unfold inherited? at h
  split at h
  · next operand hopcode hoperand =>
    obtain ⟨hmap, _⟩ := Option.filter_eq_some_iff.1 h
    obtain ⟨k, hk, rfl⟩ := Option.map_eq_some_iff.1 hmap
    obtain ⟨t, ht, backs⟩ := hknown operand (List.mem_of_head? hoperand)
    have helement := fits.2.1 hopcode operand hoperand k hk
    rw [ht, Option.bind_some] at helement
    exact backs.below helement
  · next operand hopcode hoperand =>
    exact Option.some.inj h ▸ backs_handedOn hknown fits (Or.inl hopcode) hoperand
  · next operand hopcode hoperand =>
    exact Option.some.inj h ▸ backs_handedOn hknown fits (Or.inr hopcode) hoperand
  · cases h

theorem backs_made (htuple : p.opcode = .tuple) :
    Backs (a.buffers ++ [⟨p.id, [], p.shape⟩]) p.shape
      (([], a.buffers.length) :: above (p.operands.map a.outputsOf)) := by
  have hshapes : p.operands.filterMap c.shapeOf? =
      p.operands.map fun o => (c.shapeOf? o).getD p.shape := by
    rw [← List.filterMap_eq_map']
    apply List.filterMap_congr
    intro o ho
    obtain ⟨t, ht, _⟩ := hknown o ho
    rw [ht]
    rfl
  rw [(fits.1 htuple).trans (congrArg Shape.tuple hshapes)]
  refine backs_tuple ?_ rfl
  intro o ho
  obtain ⟨t, ht, backs⟩ := hknown o ho
  rw [ht]
  exact backs

theorem exists_append_backs : ∃ buffers positions,
    a.append p = { buffers := a.buffers ++ buffers, outputs := a.outputs ++ [positions] } ∧
      Backs (a.buffers ++ buffers) p.shape positions := by
  cases hinherited : a.inherited? p with
  | some positions =>
    refine ⟨[], positions, ?_, ?_⟩
    · rw [append_of_inherited hinherited, List.append_nil]
    · rw [List.append_nil]
      exact backs_inherited hknown fits hinherited
  | none =>
    by_cases htuple : p.opcode = .tuple
    · exact ⟨_, _, append_of_tuple htuple, backs_made hknown fits htuple⟩
    · exact ⟨_, _, append_of_own hinherited htuple, backs_define a p⟩

end Known

theorem outputsOf_concat (buffers : List Buffer) (positions : List Position)
    {outputs : List (List Position)} {k : Nat} (h : outputs.length = k) :
    outputsOf { buffers, outputs := outputs ++ [positions] } k = positions := by
  rw [outputsOf, ← h, List.getElem?_concat_length, Option.getD_some]

theorem exists_outputs_foldl_append (l : List Placed) (a : Aliasing) : ∃ more,
    (l.foldl append a).outputs = a.outputs ++ more ∧ more.length = l.length := by
  induction l generalizing a with
  | nil => exact ⟨[], (List.append_nil _).symm, rfl⟩
  | cons p l ih =>
    obtain ⟨buffers, positions, happend, _⟩ := a.exists_append_eq p
    obtain ⟨more, hmore, hlength⟩ := ih (a.append p)
    refine ⟨positions :: more, ?_, by rw [List.length_cons, List.length_cons, hlength]⟩
    rw [List.foldl_cons, hmore, happend, List.append_assoc, List.singleton_append]

def ofFirst (c : Computation) (n : Nat) : Aliasing := (c.instructions.take n).foldl append {}

theorem ofFirst_size (c : Computation) : ofFirst c c.size = ofComputation c := by
  rw [ofFirst, Computation.size, List.take_length, ofComputation]

theorem ofFirst_succ {n : Nat} (hp : c.instruction? n = some p) :
    ofFirst c (n + 1) = (ofFirst c n).append p := by
  have hp : c.instructions[n]? = some p := hp
  rw [ofFirst, List.take_add_one, hp, List.foldl_append]
  rfl

theorem length_outputs_ofFirst {n : Nat} (hn : n ≤ c.size) :
    (ofFirst c n).outputs.length = n := by
  obtain ⟨more, hmore, hlength⟩ := exists_outputs_foldl_append (c.instructions.take n) {}
  have hn : n ≤ c.instructions.length := hn
  rw [ofFirst, hmore, List.nil_append, hlength, List.length_take, Nat.min_eq_left hn]

theorem outputsOf_ofFirst {n k : Nat} (hk : k < n) (hn : n ≤ c.size) :
    (ofFirst c n).outputsOf k = (ofComputation c).outputsOf k := by
  have hsplit : ofComputation c = (c.instructions.drop n).foldl append (ofFirst c n) := by
    rw [ofFirst, ← List.foldl_append, List.take_append_drop, ofComputation]
  obtain ⟨more, hmore, _⟩ := exists_outputs_foldl_append (c.instructions.drop n) (ofFirst c n)
  rw [hsplit, outputsOf, outputsOf, hmore,
    List.getElem?_append_left (by rwa [length_outputs_ofFirst hn])]

section Wired

variable (hc : c.Wired)

include hc

theorem outputsOf_operand {k : Nat} (hp : c.instruction? k = some p) {o : Nat}
    (ho : o ∈ p.operands) : (ofFirst c k).outputsOf o = (ofComputation c).outputsOf o :=
  outputsOf_ofFirst (hc.input_lt k p hp o (List.mem_append_left _ ho))
    (Nat.le_of_lt (Computation.lt_size_of_instruction? hp))

theorem backs_ofFirst (shaped : c.WellShaped) {n : Nat} (hn : n ≤ c.size) {k : Nat} {p : Placed}
    (hk : k < n) (hp : c.instruction? k = some p) :
    Backs (ofFirst c n).buffers p.shape ((ofFirst c n).outputsOf k) := by
  induction n generalizing k p with
  | zero => exact absurd hk (Nat.not_lt_zero k)
  | succ n ih =>
    obtain ⟨q, hq⟩ := Computation.exists_instruction? hn
    -- operands stand in front of the instruction, so that their outputs are there and backed
    have hknown (o : Nat) (ho : o ∈ q.operands) : ∃ t, c.shapeOf? o = some t ∧
        Backs (ofFirst c n).buffers t ((ofFirst c n).outputsOf o) := by
      have hlt := hc.input_lt n q hq o (List.mem_append_left _ ho)
      obtain ⟨r, hr⟩ := Computation.exists_instruction? (Nat.lt_trans hlt hn)
      exact ⟨r.shape, by rw [Computation.shapeOf?, hr]; rfl, ih (Nat.le_of_lt hn) hlt hr⟩
    obtain ⟨buffers, positions, happend, hbacks⟩ :=
      exists_append_backs hknown (shaped q ((c.mem_instructions_iff q).2 ⟨n, hq⟩))
    have hlength : (ofFirst c n).outputs.length = n := length_outputs_ofFirst (Nat.le_of_lt hn)
    rw [ofFirst_succ hq, happend]
    rcases Nat.lt_succ_iff_lt_or_eq.1 hk with hlt | rfl
    · rw [outputsOf, List.getElem?_append_left (by rwa [hlength])]
      exact (ih (Nat.le_of_lt hn) hlt hp).append buffers
    · obtain rfl : p = q := Option.some.inj (hp.symm.trans hq)
      rwa [outputsOf_concat _ _ hlength]

theorem backs_outputsOf (shaped : c.WellShaped) {k : Nat} (hp : c.instruction? k = some p) :
    Backs (ofComputation c).buffers p.shape ((ofComputation c).outputsOf k) := by
  rw [← ofFirst_size]
  exact backs_ofFirst hc shaped (Nat.le_refl _) (Computation.lt_size_of_instruction? hp) hp

omit hc in
theorem outputsOf_eq {k : Nat} (hp : c.instruction? k = some p) :
    (ofComputation c).outputsOf k = ((ofFirst c k).append p).outputsOf k := by
  rw [← ofFirst_succ hp]
  exact (outputsOf_ofFirst (Nat.lt_succ_self k) (Computation.lt_size_of_instruction? hp)).symm

theorem exists_outputsOf_tuple {k : Nat} (hp : c.instruction? k = some p)
    (hopcode : p.opcode = .tuple) : ∃ id, (ofComputation c).outputsOf k =
      ([], id) :: above (p.operands.map (ofComputation c).outputsOf) := by
  have hlength : (ofFirst c k).outputs.length = k :=
    length_outputs_ofFirst (Nat.le_of_lt (Computation.lt_size_of_instruction? hp))
  refine ⟨(ofFirst c k).buffers.length, ?_⟩
  rw [outputsOf_eq hp, append_of_tuple hopcode, outputsOf_concat _ _ hlength,
    List.map_congr_left fun o ho => outputsOf_operand hc hp ho]

theorem outputsOf_element {k operand i : Nat} (hp : c.instruction? k = some p)
    (hopcode : p.opcode = .getTupleElement) (hoperand : p.operands.head? = some operand)
    (hi : p.tupleIndex = some i) (hne : below i ((ofComputation c).outputsOf operand) ≠ []) :
    (ofComputation c).outputsOf k = below i ((ofComputation c).outputsOf operand) := by
  have hlength : (ofFirst c k).outputs.length = k :=
    length_outputs_ofFirst (Nat.le_of_lt (Computation.lt_size_of_instruction? hp))
  rw [← outputsOf_operand hc hp (List.mem_of_head? hoperand)] at hne ⊢
  rw [outputsOf_eq hp, append_of_inherited (inherited?_element hopcode hoperand hi hne),
    outputsOf_concat _ _ hlength]

theorem exists_outputsOf_element_of_tuple (shaped : c.WellShaped) {k t i : Nat} {q : Placed}
    (hp : c.instruction? k = some p) (hopcode : p.opcode = .getTupleElement)
    (ht : p.operands.head? = some t) (hi : p.tupleIndex = some i)
    (hq : c.instruction? t = some q) (htuple : q.opcode = .tuple) :
    ∃ o, q.operands[i]? = some o ∧
      (ofComputation c).outputsOf k = (ofComputation c).outputsOf o := by
  have helement := (shaped p ((c.mem_instructions_iff p).2 ⟨k, hp⟩)).2.1 hopcode t ht i hi
  rw [Computation.shapeOf?, hq, Option.map_some, Option.bind_some] at helement
  -- there is something below the element, so that no new buffers are made for it
  have hne := ((backs_outputsOf hc shaped hq).below helement).ne_nil
  have houtputs := outputsOf_element hc hp hopcode ht hi hne
  obtain ⟨id, hmade⟩ := exists_outputsOf_tuple hc hq htuple
  rw [hmade, below_above, List.getElem?_map] at hne houtputs
  cases ho : q.operands[i]? with
  | none => simp [ho] at hne
  | some o => exact ⟨o, rfl, by rw [houtputs, ho]; rfl⟩

end Wired

/-- In a computation where shapes go together, the positions of an output are the paths into its
shape, each once. Behind every position is a buffer for what the path leads to, which the
instruction defines or gets through operands, and taking an element of a tuple gives what was put
there. -/
theorem outputs_follow_shapes (hc : c.Built) (shaped : c.WellShaped) {k : Nat} {p : Placed}
    (hp : c.instruction? k = some p) :
    ((ofComputation c).outputsOf k).map Prod.fst = p.shape.indices ∧
    (((ofComputation c).outputsOf k).map Prod.fst).Nodup ∧
    (∀ path id, (path, id) ∈ (ofComputation c).outputsOf k →
      ∃ buffer, (ofComputation c).buffer? id = some buffer ∧ p.shape.at? path = some buffer.shape ∧
        ReflTransGen c.Takes k buffer.definedBy) ∧
    ∀ t i q, p.opcode = .getTupleElement → p.operands.head? = some t → p.tupleIndex = some i →
      c.instruction? t = some q → q.opcode = .tuple → ∃ o, q.operands[i]? = some o ∧
        (ofComputation c).outputsOf k = (ofComputation c).outputsOf o := by
  have backs := backs_outputsOf hc.wired shaped hp
  refine ⟨backs.paths_eq, backs.paths_eq ▸ p.shape.nodup_indices, ?_, ?_⟩
  · intro path id hmem
    obtain ⟨buffer, hbuffer, hshape⟩ := backs.shape_eq path id hmem
    obtain ⟨origin, horigin, htakes⟩ := (traced_ofComputation hc).origin k path id hmem
    obtain rfl : buffer = origin := Option.some.inj (hbuffer.symm.trans horigin)
    exact ⟨buffer, hbuffer, hshape, htakes⟩
  · intro t i q hopcode ht hi hq htuple
    exact exists_outputsOf_element_of_tuple hc.wired shaped hp hopcode ht hi hq htuple

def nestedTuples : Computation :=
  [{ name := "p", opcode := .parameter, shape := .array 4 },
    { name := "q", opcode := .parameter, shape := .array 8 },
    { name := "t", opcode := .tuple, shape := .tuple [.array 4, .array 8], operands := [0, 1] },
    { name := "u", opcode := .tuple, shape := .tuple [.tuple [.array 4, .array 8], .array 4],
      operands := [2, 0] },
    { name := "g", opcode := .getTupleElement, shape := .tuple [.array 4, .array 8],
      operands := [3], tupleIndex := some 0 },
    { name := "w", opcode := .whileLoop, shape := .tuple [.array 4, .array 8], operands := [4] },
    { name := "e", opcode := .getTupleElement, shape := .array 8, operands := [5],
      tupleIndex := some 1 },
    { name := "b", opcode := .bitcast, shape := .array 8, operands := [6] }].foldl
      Computation.grown { name := "c" }

theorem outputs_follow_shapes_nestedTuples :
    nestedTuples.Built ∧ nestedTuples.WellShaped ∧
      (ofComputation nestedTuples).outputsOf 3 = [([], 3), ([0], 2), ([0, 0], 0), ([0, 1], 1),
        ([1], 0)] ∧
      (ofComputation nestedTuples).outputsOf 7 = [([], 1)] ∧
      (∃ p, nestedTuples.instruction? 3 = some p ∧
        ((ofComputation nestedTuples).outputsOf 3).map Prod.fst = p.shape.indices) ∧
      (∃ buffer, (ofComputation nestedTuples).buffer? 1 = some buffer ∧
        ReflTransGen nestedTuples.Takes 7 buffer.definedBy) ∧
      ∃ o, [2, 0][0]? = some o ∧
        (ofComputation nestedTuples).outputsOf 4 = (ofComputation nestedTuples).outputsOf o := by
  have hbuilt : nestedTuples.Built := Computation.built_foldl_grown (.empty "c" false) _ rfl
  have hshaped : nestedTuples.WellShaped := by decide +kernel
  have hviewed : (ofComputation nestedTuples).outputsOf 7 = [([], 1)] := by decide +kernel
  obtain ⟨_, _, hbuffers, _⟩ := outputs_follow_shapes hbuilt hshaped (k := 7) rfl
  obtain ⟨buffer, hbuffer, _, htakes⟩ := hbuffers [] 1 (by rw [hviewed]; exact List.mem_cons_self)
  obtain ⟨_, _, _, helement⟩ := outputs_follow_shapes hbuilt hshaped (k := 4) rfl
  exact ⟨hbuilt, hshaped, by decide +kernel, hviewed,
    ⟨_, rfl, (outputs_follow_shapes hbuilt hshaped rfl).1⟩, ⟨buffer, hbuffer, htakes⟩,
    helement 3 0 _ rfl rfl rfl rfl rfl⟩

end Aliasing

end LatencyHiding
