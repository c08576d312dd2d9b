import LatencyHiding.Proofs.Buffer.Liveness
import LatencyHiding.Proofs.Buffer.Origins

set_option autoImplicit false

namespace LatencyHiding

open Relation

namespace Computation

def IsParameter (c : Computation) (k : Nat) : Prop :=
  ∃ p, c.instruction? k = some p ∧ p.opcode = .parameter

def Reads (c : Computation) (p : Placed) (id : BufferId) : Prop :=
  ∃ operand ∈ p.operands, ∃ path, (path, id) ∈ (Aliasing.ofComputation c).outputsOf operand ∧
    (p.opcode = .getTupleElement ∨ p.opcode = .bitcast → path = [])

/-- What is live once the instructions of `passed` are behind: all that is wanted and still to be
defined, or defined by a parameter, except for what the parameters of the entry hold. -/
def LiveAbove (c : Computation) (passed : List InstrId) (id : BufferId) : Prop :=
  ∃ buffer, (Aliasing.ofComputation c).buffer? id = some buffer ∧
    ¬ (c.isEntry = true ∧ c.IsParameter buffer.definedBy) ∧
    ((∃ root path, c.root? = some root ∧
        (path, id) ∈ (Aliasing.ofComputation c).outputsOf root.id) ∨
      ∃ k ∈ passed, ∃ p, c.instruction? k = some p ∧ c.Reads p id) ∧
    (buffer.definedBy ∉ passed ∨ c.IsParameter buffer.definedBy)

variable {c : Computation} {p : Placed} {k : Nat} {id : BufferId}

theorem LiveAbove.congr {passed passed' : List InstrId} (h : ∀ k, k ∈ passed' ↔ k ∈ passed)
    (id : BufferId) : c.LiveAbove passed' id ↔ c.LiveAbove passed id := by
  unfold LiveAbove
  simp only [h]

/-- A reader takes the buffer, through its operands, from where it was defined. -/
theorem exists_origin_of_reads (built : c.Built) (hp : c.instruction? k = some p)
    (reads : c.Reads p id) : ∃ buffer, (Aliasing.ofComputation c).buffer? id = some buffer ∧
      ∃ operand, c.Needs k operand ∧ ReflTransGen c.Takes operand buffer.definedBy := by
  obtain ⟨operand, hoperand, path, hmem, _⟩ := reads
  obtain ⟨buffer, hbuffer, htakes⟩ :=
    (Aliasing.traced_ofComputation built).origin operand path id hmem
  exact ⟨buffer, hbuffer, operand, ⟨p, hp, List.mem_append_left _ hoperand⟩, htakes⟩

end Computation

namespace BufferTable

abbrev ofComputation (c : Computation) (sizing : Shape.Sizing) : BufferTable :=
  ofAliasing c sizing (.ofComputation c)

variable {c : Computation} {a : Aliasing} {sizing : Shape.Sizing} {p : Placed} {k id : Nat}

theorem outputsOf_ofAliasing (hlength : a.outputs.length = c.size) (k : Nat) :
    (ofAliasing c sizing a).outputsOf k = a.outputsOf k := by
  unfold outputsOf ofAliasing
  rw [List.getElem?_map]
  by_cases hk : k < c.size
  · rw [List.getElem?_range hk, Option.map_some, Option.getD_some]
  · rw [List.getElem?_eq_none (by simpa using hk), Option.map_none, Aliasing.outputsOf,
      List.getElem?_eq_none (by omega)]

theorem info?_ofAliasing (id : Nat) : (ofAliasing c sizing a).info? id =
    (a.buffer? id).map fun b => ⟨b.definedBy, sizing b.shape,
      c.isEntry && (c.instruction? b.definedBy).any (·.opcode == .parameter)⟩ :=
  List.getElem?_map

theorem any_parameter_iff (k : Nat) :
    (c.instruction? k).any (·.opcode == .parameter) = true ↔ c.IsParameter k := by
  unfold Computation.IsParameter
  cases c.instruction? k <;> simp

theorem counts_ofAliasing_iff : (ofAliasing c sizing a).counts id = true ↔
    ∃ buffer, a.buffer? id = some buffer ∧
      ¬ (c.isEntry = true ∧ c.IsParameter buffer.definedBy) := by
  unfold counts
  rw [info?_ofAliasing]
  cases a.buffer? id with
  | none => simp
  | some buffer => cases c.isEntry <;> simp [← any_parameter_iff]

theorem mem_definedBy_iff : id ∈ (ofAliasing c sizing a).definedBy k ↔
    k < c.size ∧ ∃ buffer, a.buffer? id = some buffer ∧ buffer.definedBy = k := by
  have hlength : (ofAliasing c sizing a).outputs.length = c.size := by simp [ofAliasing]
  unfold definedBy
  rw [hlength]
  split
  · next hk =>
    rw [List.mem_map]
    simp only [List.mem_filter, decide_eq_true_eq, Prod.exists, exists_eq_right, hk, true_and,
      List.mem_zipIdx_iff_getElem?]
    change (∃ info, (ofAliasing c sizing a).info? id = some info ∧ _) ↔ _
    rw [info?_ofAliasing]
    cases a.buffer? id <;> simp
  · next hk => simp [hk]

theorem retires_iff (hp : c.instruction? k = some p) (hid : p.id = k) :
    (ofAliasing c sizing a).Retires p id ↔
      ¬ c.IsParameter k ∧ ∃ buffer, a.buffer? id = some buffer ∧ buffer.definedBy = k := by
  have hparameter : c.IsParameter k ↔ p.opcode = .parameter := by
    simp [Computation.IsParameter, hp]
  rw [Retires, mem_definedBy_iff, hid, hparameter]
  simp [Computation.lt_size_of_instruction? hp]

theorem reads_iff (built : c.Built) : (ofComputation c sizing).Reads p id ↔
    (ofComputation c sizing).counts id = true ∧ c.Reads p id := by
  have traced := Aliasing.traced_ofComputation built
  have hskips (path : Shape.Path) (info : BufferInfo) :
      LiveSet.skips p.toInstruction path info = false ↔
        (p.opcode = .getTupleElement ∨ p.opcode = .bitcast → path = []) ∧
          info.entryParameter = false := by
    unfold LiveSet.skips
    cases p.opcode <;> simp [Opcode.isPassThrough]
  have hcounts (info : BufferInfo)
      (hinfo : (ofComputation c sizing).info? id = some info) :
      (ofComputation c sizing).counts id = true ↔ info.entryParameter = false := by
    simp [counts, hinfo]
  unfold Reads Computation.Reads
  simp only [outputsOf_ofAliasing traced.length_outputs, hskips]
  constructor
  · rintro ⟨info, hinfo, operand, hoperand, path, hmem, htop, hcounted⟩
    exact ⟨(hcounts info hinfo).2 hcounted, operand, hoperand, path, hmem, htop⟩
  · rintro ⟨hcounted, operand, hoperand, path, hmem, htop⟩
    obtain ⟨buffer, hbuffer, _⟩ := traced.origin operand path id hmem
    have hinfo : (ofComputation c sizing).info? id = _ := info?_ofAliasing id
    rw [hbuffer, Option.map_some] at hinfo
    exact ⟨_, hinfo, operand, hoperand, path, hmem, htop, (hcounts _ hinfo).1 hcounted⟩

/-- Numbers that go up from everything needed to whoever needs it go up from the definition of a
buffer to its readers. -/
theorem lt_of_retires_of_reads (built : c.Built) {place : Nat → Nat}
    (hplace : ∀ user input, c.Needs user input → place input < place user) {definer reader : Nat}
    {p q : Placed} (hp : c.instruction? definer = some p) (hq : c.instruction? reader = some q)
    (hretires : (ofComputation c sizing).Retires p id)
    (hreads : (ofComputation c sizing).Reads q id) : place definer < place reader := by
  obtain ⟨_, buffer, hbuffer, rfl⟩ := (retires_iff hp (built.wired.id_eq definer p hp)).1 hretires
  obtain ⟨origin, horigin, operand, hneeds, htakes⟩ :=
    Computation.exists_origin_of_reads built hq ((reads_iff built).1 hreads).2
  obtain rfl : buffer = origin := Option.some.inj (hbuffer.symm.trans horigin)
  have hle := Computation.le_of_reflTransGen_takes hplace htakes
  have hlt := hplace reader operand hneeds
  omega

end BufferTable

namespace LiveSet

variable {s s' : LiveSet}

theorem initial_restart (s : LiveSet) (extra : List BufferId) (initial : UInt64) :
    (s.restart extra initial).initial = initial :=
  view_foldl LiveSet.initial seed (view_seed LiveSet.initial fun _ _ _ => rfl) _ _

theorem initial_update (s : LiveSet) (p : Placed) : (s.update p).initial = s.initial :=
  view_update LiveSet.initial (fun _ _ _ => rfl) (fun _ _ => rfl) s p

theorem table_restart (s : LiveSet) (extra : List BufferId) (initial : UInt64) :
    (s.restart extra initial).table = s.table :=
  view_restart table (fun _ _ _ => rfl) (fun _ _ => rfl) (fun _ _ => rfl) s extra initial

theorem live_eq_of_isLive (hlength : s'.live.length = s.live.length)
    (h : ∀ b, s'.isLive b = true ↔ s.isLive b = true) : s'.live = s.live := by
  apply List.ext_getElem hlength
  intro b hb hb'
  have hsame := Bool.eq_iff_iff.2 (h b)
  rwa [isLive, isLive, List.getElem?_eq_getElem hb, List.getElem?_eq_getElem hb'] at hsame

theorem Tallied.usage_congr (tallied : s.Tallied) (tallied' : s'.Tallied)
    (htable : s'.table = s.table) (hlive : s'.live = s.live) : s'.usage = s.usage := by
  have hids : s'.liveIds = s.liveIds := by
    unfold liveIds isLive
    rw [hlive]
  rw [tallied'.usage_eq, tallied.usage_eq, hids]
  unfold sumSizes
  rw [htable]

end LiveSet

namespace Computation

variable {c : Computation}

def walked (c : Computation) (sizing : Shape.Sizing) (pressure : Option Pressure) (initial : UInt64)
    (passed : List InstrId) : LiveSet :=
  ((LiveSet.ofComputation c sizing pressure).restart [] initial).walk passed

section Walked

variable (c : Computation) (sizing : Shape.Sizing) (pressure : Option Pressure) (initial : UInt64)
  (passed : List InstrId)

theorem restart_ofComputation_spec (extra : List BufferId) :
    ((LiveSet.ofComputation c sizing pressure).restart extra initial).Tallied ∧
      ∀ b, ((LiveSet.ofComputation c sizing pressure).restart extra initial).isLive b = true ↔
        (BufferTable.ofComputation c sizing).counts b = true ∧
          (b ∈ extra ∨ b ∈ (LiveSet.ofComputation c sizing pressure).rootBuffers) :=
  LiveSet.Tallied.restart List.length_replicate extra initial

theorem walked_eq : c.walked sizing pressure initial passed =
    (passed.reverse.filterMap c.instruction?).foldl LiveSet.update
      ((LiveSet.ofComputation c sizing pressure).restart [] initial) := by
  rw [walked, LiveSet.walk, LiveSet.computation_restart]
  rfl

theorem tallied_walked : (c.walked sizing pressure initial passed).Tallied := by
  rw [walked_eq]
  exact LiveSet.tallied_foldl_update (restart_ofComputation_spec c sizing pressure initial []).1 _

theorem table_walked : (c.walked sizing pressure initial passed).table =
    BufferTable.ofComputation c sizing := by
  rw [walked_eq, LiveSet.view_foldl LiveSet.table _ LiveSet.table_update, LiveSet.table_restart]
  rfl

theorem initial_walked : (c.walked sizing pressure initial passed).initial = initial := by
  rw [walked_eq, LiveSet.view_foldl LiveSet.initial _ LiveSet.initial_update,
    LiveSet.initial_restart]

end Walked

theorem mem_rootBuffers_iff (built : c.Built) (sizing : Shape.Sizing) (pressure : Option Pressure)
    (id : BufferId) : id ∈ (LiveSet.ofComputation c sizing pressure).rootBuffers ↔
      ∃ root path, c.root? = some root ∧
        (path, id) ∈ (Aliasing.ofComputation c).outputsOf root.id := by
  have hlength := (Aliasing.traced_ofComputation built).length_outputs
  have hroot : c.root? = c.instruction? (c.size - 1) := List.getLast?_eq_getElem?
  have houtputs : (LiveSet.ofComputation c sizing pressure).table.outputsOf (c.size - 1) =
    (Aliasing.ofComputation c).outputsOf (c.size - 1) := BufferTable.outputsOf_ofAliasing hlength _
  have hbuffers : (LiveSet.ofComputation c sizing pressure).rootBuffers = if c.size = 0 then [] else
      ((Aliasing.ofComputation c).outputsOf (c.size - 1)).map Prod.snd := by
    rw [← houtputs]
    rfl
  rw [hbuffers]
  split
  · next hempty =>
    have hnone : c.root? = none := by
      rw [hroot, instruction?_eq_none_iff]
      omega
    simp [hnone]
  · next hsize =>
    obtain ⟨root, hlast⟩ := exists_instruction? (c := c) (k := c.size - 1) (by omega)
    rw [hroot, hlast, List.mem_map]
    simp [built.wired.id_eq _ _ hlast]

theorem IsOrder.pairwise_passed (built : c.Built) {before passed : List InstrId}
    (order : c.IsOrder (before ++ passed)) (sizing : Shape.Sizing) (id : BufferId) :
    (passed.reverse.filterMap c.instruction?).Pairwise fun p q =>
      (BufferTable.ofComputation c sizing).Retires p id →
        ¬ (BufferTable.ofComputation c sizing).Reads q id := by
  have hplaces : (before ++ passed).Pairwise fun x y =>
      ¬ (before ++ passed).idxOf y < (before ++ passed).idxOf x :=
    pairwise_of_idxOf_lt order.nodup fun _ _ _ _ h => h
  rw [List.pairwise_filterMap]
  refine (List.pairwise_reverse.2 (List.pairwise_append.1 hplaces).2.1).imp ?_
  intro definer reader hlater p hp q hq hretires hreads
  exact hlater (BufferTable.lt_of_retires_of_reads built
    (fun _ _ h => order.idxOf_lt built.wired h) hp hq hretires hreads)

theorem mem_passed_iff {passed : List InstrId} {p : Placed} :
    p ∈ passed.reverse.filterMap c.instruction? ↔ ∃ k ∈ passed, c.instruction? k = some p := by
  simp only [List.mem_filterMap, List.mem_reverse]

theorem exists_reads_passed_iff (built : c.Built) (sizing : Shape.Sizing) (passed : List InstrId)
    (id : BufferId) : (∃ p ∈ passed.reverse.filterMap c.instruction?,
        (BufferTable.ofComputation c sizing).Reads p id) ↔
      (BufferTable.ofComputation c sizing).counts id = true ∧
        ∃ k ∈ passed, ∃ p, c.instruction? k = some p ∧ c.Reads p id := by
  simp only [BufferTable.reads_iff built, mem_passed_iff]
  constructor
  · rintro ⟨p, ⟨k, hk, hp⟩, hcounts, hreads⟩
    exact ⟨hcounts, k, hk, p, hp, hreads⟩
  · rintro ⟨hcounts, k, hk, p, hp, hreads⟩
    exact ⟨p, ⟨k, hk, hp⟩, hcounts, hreads⟩

theorem forall_not_retires_passed_iff (hc : c.Wired) (sizing : Shape.Sizing) {passed : List InstrId}
    (hknown : ∀ k ∈ passed, k < c.size) {id : BufferId} {buffer : Buffer}
    (hbuffer : (Aliasing.ofComputation c).buffer? id = some buffer) :
    (∀ p ∈ passed.reverse.filterMap c.instruction?,
        ¬ (BufferTable.ofComputation c sizing).Retires p id) ↔
      buffer.definedBy ∉ passed ∨ c.IsParameter buffer.definedBy := by
  rw [or_iff_not_imp_left, not_not]
  constructor
  · intro hkept hmem
    obtain ⟨p, hp⟩ := exists_instruction? (hknown _ hmem)
    by_contra hnot
    apply hkept p (mem_passed_iff.2 ⟨_, hmem, hp⟩)
    exact (BufferTable.retires_iff hp (hc.id_eq _ p hp)).2 ⟨hnot, buffer, hbuffer, rfl⟩
  · intro hparameter p hp hretires
    obtain ⟨k, hk, hp⟩ := mem_passed_iff.1 hp
    obtain ⟨hnot, origin, horigin, rfl⟩ := (BufferTable.retires_iff hp (hc.id_eq k p hp)).1 hretires
    obtain rfl : buffer = origin := Option.some.inj (hbuffer.symm.trans horigin)
    exact hnot (hparameter hk)

theorem isLive_walked_iff (built : c.Built) (sizing : Shape.Sizing) (pressure : Option Pressure)
    (initial : UInt64) {before passed : List InstrId} (order : c.IsOrder (before ++ passed))
    (id : BufferId) :
    (c.walked sizing pressure initial passed).isLive id = true ↔ c.LiveAbove passed id := by
  obtain ⟨tallied, hbottom⟩ := restart_ofComputation_spec c sizing pressure initial []
  have htable : ((LiveSet.ofComputation c sizing pressure).restart [] initial).table =
      BufferTable.ofComputation c sizing := LiveSet.table_restart _ _ _
  have hpairs := order.pairwise_passed built sizing id
  have hknown (k : Nat) (hk : k ∈ passed) : k < c.size :=
    (order.mem_iff k).1 (List.mem_append_right _ hk)
  rw [← htable] at hpairs
  rw [walked_eq, LiveSet.isLive_foldl_update_iff tallied hpairs, hbottom, htable,
    exists_reads_passed_iff built, mem_rootBuffers_iff built, ← and_or_left, and_assoc,
    BufferTable.counts_ofAliasing_iff, LiveAbove]
  cases hbuffer : (Aliasing.ofComputation c).buffer? id with
  | none => simp
  | some buffer =>
    rw [forall_not_retires_passed_iff built.wired sizing hknown hbuffer]
    simp

/-- Behind a suffix of an order exactly that is live which the closed form says, so that neither
what is live nor the usage tells in which order the instructions of the suffix were passed. -/
theorem live_above_suffix (built : c.Built) (sizing : Shape.Sizing) (pressure : Option Pressure)
    (initial : UInt64) {before passed : List InstrId} (order : c.IsOrder (before ++ passed)) :
    (∀ id, (c.walked sizing pressure initial passed).isLive id = true ↔ c.LiveAbove passed id) ∧
      ∀ before' passed', c.IsOrder (before' ++ passed') → (∀ k, k ∈ passed' ↔ k ∈ passed) →
        (c.walked sizing pressure initial passed').live =
            (c.walked sizing pressure initial passed).live ∧
          (c.walked sizing pressure initial passed').totalUsage =
            (c.walked sizing pressure initial passed).totalUsage := by
  refine ⟨isLive_walked_iff built sizing pressure initial order, ?_⟩
  intro before' passed' order' hsame
  have tallied := c.tallied_walked sizing pressure initial passed
  have tallied' := c.tallied_walked sizing pressure initial passed'
  have htable : (c.walked sizing pressure initial passed').table =
      (c.walked sizing pressure initial passed).table := by rw [table_walked, table_walked]
  have hlive : (c.walked sizing pressure initial passed').live =
      (c.walked sizing pressure initial passed).live := by
    apply LiveSet.live_eq_of_isLive
    · rw [tallied'.length_live, tallied.length_live, htable]
    · intro id
      rw [isLive_walked_iff built sizing pressure initial order',
        isLive_walked_iff built sizing pressure initial order, LiveAbove.congr hsame]
  refine ⟨hlive, ?_⟩
  unfold LiveSet.totalUsage
  rw [tallied.usage_congr tallied' htable hlive, initial_walked, initial_walked]

def selectedElement : Computation :=
  [{ name := "p", opcode := .parameter, shape := .array 8 },
    { name := "a", opcode := .negate, shape := .array 16, operands := [0] },
    { name := "b", opcode := .negate, shape := .array 32, operands := [0] },
    { name := "t", opcode := .tuple, shape := .tuple [.array 16, .array 32], operands := [1, 2] },
    { name := "g", opcode := .getTupleElement, shape := .array 32, operands := [3],
      tupleIndex := some 1 },
    { name := "n", opcode := .negate, shape := .array 16, operands := [1] },
    { name := "v", opcode := .bitcast, shape := .array 32, operands := [4] },
    { name := "r", opcode := .add, shape := .array 32, operands := [6, 5] }].foldl grown
      { name := "main", isEntry := true }

theorem built_selectedElement : selectedElement.Built :=
  built_foldl_grown (.empty "main" true) _ rfl

theorem live_above_suffix_selectedElement :
    (selectedElement.walked Shape.byteSize none 0 [4, 5, 6, 7]).liveIds = [1, 2, 3] ∧
      (∀ id, (selectedElement.walked Shape.byteSize none 0 [4, 5, 6, 7]).isLive id = true ↔
        selectedElement.LiveAbove [4, 5, 6, 7] id) ∧
      (selectedElement.walked Shape.byteSize none 0 [5, 4, 6, 7]).live =
        (selectedElement.walked Shape.byteSize none 0 [4, 5, 6, 7]).live ∧
      (selectedElement.walked Shape.byteSize none 0 [5, 4, 6, 7]).totalUsage =
        (selectedElement.walked Shape.byteSize none 0 [4, 5, 6, 7]).totalUsage := by
  have order : selectedElement.IsOrder ([0, 1, 2, 3] ++ [4, 5, 6, 7]) := ⟨by decide, by decide⟩
  have order' : selectedElement.IsOrder ([0, 1, 2, 3] ++ [5, 4, 6, 7]) := ⟨by decide, by decide⟩
  obtain ⟨hclosed, hsame⟩ :=
    live_above_suffix built_selectedElement Shape.byteSize none 0 order
  exact ⟨by decide, hclosed, hsame _ _ order' fun _ => (List.Perm.swap 4 5 [6, 7]).mem_iff⟩

end Computation

end LatencyHiding
