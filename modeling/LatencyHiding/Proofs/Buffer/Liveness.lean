import LatencyHiding.Proofs.Buffer.Walk
import LatencyHiding.Proofs.Program.Precedence

set_option autoImplicit false

namespace LatencyHiding

namespace BufferTable

def counts (t : BufferTable) (id : BufferId) : Bool :=
  (t.info? id).any fun info => !info.entryParameter

def Reads (t : BufferTable) (p : Placed) (id : BufferId) : Prop :=
  ∃ info, t.info? id = some info ∧ ∃ operand ∈ p.operands, ∃ path,
    (path, id) ∈ t.outputsOf operand ∧ LiveSet.skips p.toInstruction path info = false

def Retires (t : BufferTable) (p : Placed) (id : BufferId) : Prop :=
  p.opcode ≠ .parameter ∧ id ∈ t.definedBy p.id

variable {t : BufferTable} {p : Placed} {id : BufferId}

theorem lt_length_of_info? {info : BufferInfo} (h : t.info? id = some info) :
    id < t.buffers.length := (List.getElem?_eq_some_iff.1 h).choose

theorem lt_length_of_counts (h : t.counts id = true) : id < t.buffers.length := by
  cases hinfo : t.info? id with
  | none => simp [counts, hinfo] at h
  | some info => exact lt_length_of_info? hinfo

end BufferTable

namespace LiveSet

variable {s : LiveSet} {p : Placed} {a b : Nat}

theorem length_revive (s : LiveSet) (a : Nat) : (s.revive a).live.length = s.live.length :=
  List.length_set

theorem isLive_revive_iff (ha : a < s.live.length) :
    (s.revive a).isLive b = true ↔ b = a ∨ s.isLive b = true := by
  unfold isLive revive
  by_cases hb : b = a
  · subst hb
    simp [ha]
  · simp [List.getElem?_set_ne (Ne.symm hb), hb]

theorem isLive_kill_iff : (s.kill a).isLive b = true ↔ b ≠ a ∧ s.isLive b = true := by
  unfold isLive kill
  by_cases hb : b = a
  · subst hb
    by_cases hlt : b < s.live.length <;> simp [hlt]
  · simp [List.getElem?_set_ne (Ne.symm hb), hb]

theorem lt_length_of_isLive (h : s.isLive b = true) : b < s.live.length := by
  by_contra hge
  simp [isLive, List.getElem?_eq_none (Nat.not_lt.1 hge)] at h

theorem mem_liveIds_iff : b ∈ s.liveIds ↔ s.isLive b = true := by
  rw [liveIds, List.mem_filter, List.mem_range]
  exact ⟨fun h => h.2, fun h => ⟨lt_length_of_isLive h, h⟩⟩

theorem nodup_liveIds (s : LiveSet) : s.liveIds.Nodup := List.nodup_range.filter _

theorem liveIds_revive_perm (ha : a < s.live.length) (hdead : s.isLive a = false) :
    (s.revive a).liveIds.Perm (a :: s.liveIds) := by
  apply (List.perm_ext_iff_of_nodup (nodup_liveIds _) ?_).2
  · intro b
    rw [mem_liveIds_iff, isLive_revive_iff ha, List.mem_cons, mem_liveIds_iff]
  · exact List.nodup_cons.2 ⟨by simp [mem_liveIds_iff, hdead], nodup_liveIds s⟩

theorem liveIds_kill_perm (hlive : s.isLive a = true) :
    s.liveIds.Perm (a :: (s.kill a).liveIds) := by
  apply (List.perm_ext_iff_of_nodup (nodup_liveIds s) ?_).2
  · intro b
    rw [List.mem_cons, mem_liveIds_iff, mem_liveIds_iff, isLive_kill_iff]
    by_cases hb : b = a
    · simp [hb, hlive]
    · simp [hb]
  · exact List.nodup_cons.2 ⟨by simp [mem_liveIds_iff, isLive_kill_iff], nodup_liveIds _⟩

theorem sumSizes_perm {ids ids' : List BufferId} (h : ids.Perm ids') :
    s.sumSizes ids = s.sumSizes ids' := by
  unfold sumSizes Bytes.total
  apply (h.map _).foldr_eq'
  intro x _ y _ z
  rw [← UInt64.add_assoc, ← UInt64.add_assoc, UInt64.add_comm x y]

/-- There is a flag for every buffer, and the usage is the size of what is live. -/
structure Tallied (s : LiveSet) : Prop where
  length_live : s.live.length = s.table.buffers.length
  usage_eq : s.usage = s.sumSizes s.liveIds

theorem tallied_of_dead (hlength : s.live.length = s.table.buffers.length)
    (hdead : ∀ b, s.isLive b = false) (husage : s.usage = 0) : s.Tallied := by
  refine ⟨hlength, ?_⟩
  have hnone : s.liveIds = [] := by simp [liveIds, hdead]
  rw [husage, hnone]
  rfl

namespace Tallied

theorem revive (tallied : s.Tallied) (ha : a < s.live.length) (hdead : s.isLive a = false) :
    (s.revive a).Tallied := by
  refine ⟨(List.length_set).trans tallied.length_live, ?_⟩
  calc s.usage + s.table.sizeOf a
      = s.table.sizeOf a + s.sumSizes s.liveIds := by rw [tallied.usage_eq, UInt64.add_comm]
    _ = s.sumSizes (s.revive a).liveIds := (sumSizes_perm (liveIds_revive_perm ha hdead)).symm

theorem kill (tallied : s.Tallied) (hlive : s.isLive a = true) : (s.kill a).Tallied := by
  refine ⟨(List.length_set).trans tallied.length_live, ?_⟩
  calc s.usage - s.table.sizeOf a
      = s.table.sizeOf a + s.sumSizes (s.kill a).liveIds - s.table.sizeOf a := by
        rw [tallied.usage_eq, sumSizes_perm (liveIds_kill_perm hlive)]
        rfl
    _ = s.sumSizes (s.kill a).liveIds := by rw [UInt64.add_comm, UInt64.add_sub_cancel]

theorem foldl_revive {ids : List Nat} (tallied : s.Tallied) (nodup : ids.Nodup)
    (hids : ∀ a ∈ ids, a < s.live.length ∧ s.isLive a = false) :
    (ids.foldl LiveSet.revive s).Tallied := by
  induction ids generalizing s with
  | nil => exact tallied
  | cons a ids ih =>
    obtain ⟨⟨ha, hdead⟩, hids⟩ := List.forall_mem_cons.1 hids
    obtain ⟨hnot, nodup⟩ := List.nodup_cons.1 nodup
    apply ih (tallied.revive ha hdead) nodup
    intro b hb
    have hne : b ≠ a := fun h => hnot (h ▸ hb)
    refine ⟨by rw [length_revive]; exact (hids b hb).1, ?_⟩
    rw [Bool.eq_false_iff, Ne, isLive_revive_iff ha, (hids b hb).2]
    simp [hne]

theorem foldl_kill {ids : List Nat} (tallied : s.Tallied) (nodup : ids.Nodup)
    (hids : ∀ a ∈ ids, s.isLive a = true) : (ids.foldl LiveSet.kill s).Tallied := by
  induction ids generalizing s with
  | nil => exact tallied
  | cons a ids ih =>
    obtain ⟨hlive, hids⟩ := List.forall_mem_cons.1 hids
    obtain ⟨hnot, nodup⟩ := List.nodup_cons.1 nodup
    apply ih (tallied.kill hlive) nodup
    intro b hb
    exact isLive_kill_iff.2 ⟨fun h => hnot (h ▸ hb), hids b hb⟩

end Tallied

theorem isLive_foldl_revive_iff {ids : List Nat} (hids : ∀ a ∈ ids, a < s.live.length) :
    (ids.foldl revive s).isLive b = true ↔ b ∈ ids ∨ s.isLive b = true := by
  induction ids generalizing s with
  | nil => simp
  | cons a ids ih =>
    obtain ⟨ha, hids⟩ := List.forall_mem_cons.1 hids
    rw [← length_revive s a] at hids
    rw [List.foldl_cons, ih hids, isLive_revive_iff ha, List.mem_cons, or_left_comm, or_assoc]

theorem isLive_foldl_kill_iff {ids : List Nat} :
    (ids.foldl kill s).isLive b = true ↔ b ∉ ids ∧ s.isLive b = true := by
  induction ids generalizing s with
  | nil => simp
  | cons a ids ih =>
    rw [List.foldl_cons, ih, isLive_kill_iff, List.mem_cons, not_or, and_left_comm, and_assoc]

theorem mem_madeLive_iff : b ∈ s.madeLive p ↔ s.table.Reads p b ∧ s.isLive b = false := by
  unfold madeLive BufferTable.Reads
  rw [List.mem_eraseDups, List.mem_filterMap]
  constructor
  · rintro ⟨⟨path, id⟩, hmem, hsome⟩
    obtain ⟨operand, hoperand, hposition⟩ := List.mem_flatMap.1 hmem
    cases hinfo : s.table.info? id with
    | none => simp [hinfo] at hsome
    | some info =>
      simp only [hinfo, ite_eq_iff, reduceCtorEq, and_false, false_or, Bool.or_eq_true, not_or,
        Bool.not_eq_true, Option.some.injEq] at hsome
      obtain ⟨⟨hskip, hdead⟩, rfl⟩ := hsome
      exact ⟨⟨info, hinfo, operand, hoperand, path, hposition, hskip⟩, hdead⟩
  · rintro ⟨⟨info, hinfo, operand, hoperand, path, hposition, hskip⟩, hdead⟩
    refine ⟨(path, b), List.mem_flatMap.2 ⟨operand, hoperand, hposition⟩, ?_⟩
    simp [hinfo, hskip, hdead]

theorem nodup_madeLive (s : LiveSet) (p : Placed) : (s.madeLive p).Nodup := nodup_eraseDups _

theorem mem_freed_iff : b ∈ s.freed p ↔ s.table.Retires p b ∧ s.isLive b = true := by
  unfold freed BufferTable.Retires
  split
  · next h => simp [h]
  · next h => simp [h, List.mem_filter]

theorem nodup_freed (s : LiveSet) (p : Placed) : (s.freed p).Nodup := by
  have hdefined : (s.table.definedBy p.id).Nodup := by
    unfold BufferTable.definedBy
    split
    · refine List.Sublist.nodup ((List.filter_sublist).map _) ?_
      rw [List.zipIdx_map_snd]
      exact List.nodup_range'
    · exact List.nodup_nil
  unfold freed
  split
  · exact List.nodup_nil
  · exact hdefined.filter _

theorem table_grown (s : LiveSet) (p : Placed) : (s.grown p).table = s.table :=
  view_foldl table revive (fun _ _ => rfl) _ _

theorem table_update (s : LiveSet) (p : Placed) : (s.update p).table = s.table :=
  view_update table (fun _ _ _ => rfl) (fun _ _ => rfl) s p

namespace Tallied

theorem lt_length_of_mem_madeLive (tallied : s.Tallied) (h : b ∈ s.madeLive p) :
    b < s.live.length := by
  obtain ⟨⟨info, hinfo, _⟩, _⟩ := mem_madeLive_iff.1 h
  rw [tallied.length_live]
  exact BufferTable.lt_length_of_info? hinfo

theorem grown (tallied : s.Tallied) (p : Placed) : (s.grown p).Tallied := by
  refine foldl_revive ⟨tallied.length_live, tallied.usage_eq⟩ (nodup_madeLive s p) ?_
  intro b hb
  exact ⟨tallied.lt_length_of_mem_madeLive hb, (mem_madeLive_iff.1 hb).2⟩

theorem update (tallied : s.Tallied) (p : Placed) : (s.update p).Tallied :=
  (tallied.grown p).foldl_kill (nodup_freed _ p) fun _ hb => (mem_freed_iff.1 hb).2

theorem isLive_grown_iff (tallied : s.Tallied) (p : Placed) (b : Nat) :
    (s.grown p).isLive b = true ↔ s.isLive b = true ∨ s.table.Reads p b := by
  have hgrown : (s.grown p).isLive b = true ↔ b ∈ s.madeLive p ∨ s.isLive b = true :=
    isLive_foldl_revive_iff fun _ ha => tallied.lt_length_of_mem_madeLive ha
  rw [hgrown, mem_madeLive_iff]
  by_cases hlive : s.isLive b = true <;> simp [hlive]

theorem isLive_update_iff (tallied : s.Tallied) (p : Placed) (b : Nat) :
    (s.update p).isLive b = true ↔
      (s.isLive b = true ∨ s.table.Reads p b) ∧ ¬ s.table.Retires p b := by
  rw [update_eq, isLive_foldl_kill_iff, mem_freed_iff, table_grown, tallied.isLive_grown_iff]
  grind

end Tallied

theorem seed_eq (s : LiveSet) (id : BufferId) :
    s.seed id = if s.table.counts id && !s.isLive id then s.revive id else s := by
  unfold seed BufferTable.counts
  cases s.table.info? id with
  | none => rfl
  | some info =>
    by_cases hparameter : info.entryParameter = true <;> by_cases hlive : s.isLive id = true <;>
      simp [hparameter, hlive]

def cleared (s : LiveSet) (initial : UInt64) : LiveSet :=
  { s with live := s.live.map fun _ => false, usage := 0, initial }

theorem isLive_cleared (s : LiveSet) (initial : UInt64) (b : Nat) :
    (s.cleared initial).isLive b = false := by
  by_cases hb : b < s.live.length <;> simp [cleared, isLive, hb]

theorem table_seed (s : LiveSet) (a : Nat) : (s.seed a).table = s.table :=
  view_seed table (fun _ _ _ => rfl) s a

namespace Tallied

theorem seed (tallied : s.Tallied) (a : Nat) : (s.seed a).Tallied := by
  rw [seed_eq]
  split
  · next h =>
    obtain ⟨hcounts, hdead⟩ := Bool.and_eq_true_iff.1 h
    apply tallied.revive _ (by simpa using hdead)
    rw [tallied.length_live]
    exact BufferTable.lt_length_of_counts hcounts
  · exact tallied

theorem isLive_seed_iff (tallied : s.Tallied) : (s.seed a).isLive b = true ↔
    s.isLive b = true ∨ (s.table.counts b = true ∧ b = a) := by
  rw [seed_eq]
  split
  · next h =>
    obtain ⟨hcounts, _⟩ := Bool.and_eq_true_iff.1 h
    have ha : a < s.live.length := by
      rw [tallied.length_live]
      exact BufferTable.lt_length_of_counts hcounts
    rw [isLive_revive_iff ha]
    grind
  · grind

theorem foldl_seed (tallied : s.Tallied) (ids : List Nat) :
    (ids.foldl LiveSet.seed s).Tallied ∧ ∀ b, (ids.foldl LiveSet.seed s).isLive b = true ↔
      s.isLive b = true ∨ (s.table.counts b = true ∧ b ∈ ids) := by
  induction ids generalizing s with
  | nil => exact ⟨tallied, by simp⟩
  | cons a ids ih =>
    obtain ⟨hfold, hlive⟩ := ih (tallied.seed a)
    refine ⟨hfold, ?_⟩
    intro b
    rw [List.foldl_cons, hlive, tallied.isLive_seed_iff, table_seed, List.mem_cons]
    grind

theorem restart (hlength : s.live.length = s.table.buffers.length) (extra : List BufferId)
    (initial : UInt64) : (s.restart extra initial).Tallied ∧
      ∀ b, (s.restart extra initial).isLive b = true ↔
        s.table.counts b = true ∧ (b ∈ extra ∨ b ∈ s.rootBuffers) := by
  have tallied : (s.cleared initial).Tallied :=
    tallied_of_dead ((List.length_map _).trans hlength) (s.isLive_cleared initial) rfl
  obtain ⟨hseeded, hlive⟩ := tallied.foldl_seed (extra ++ s.rootBuffers)
  refine ⟨⟨hseeded.length_live, hseeded.usage_eq⟩, ?_⟩
  intro b
  refine (hlive b).trans ?_
  rw [isLive_cleared, List.mem_append]
  simp [cleared]

end Tallied

theorem tallied_foldl_update (tallied : s.Tallied) (l : List Placed) :
    (l.foldl update s).Tallied := by
  induction l generalizing s with
  | nil => exact tallied
  | cons p l ih => exact ih (tallied.update p)

/-- If nobody reads a buffer once it is retired, it is live as long as it was live at the start or
somebody has read it, and nobody has retired it. -/
theorem isLive_foldl_update_iff {l : List Placed} (tallied : s.Tallied)
    (hpairs : l.Pairwise fun p q => s.table.Retires p b → ¬ s.table.Reads q b) :
    (l.foldl update s).isLive b = true ↔
      (s.isLive b = true ∨ ∃ p ∈ l, s.table.Reads p b) ∧ ∀ p ∈ l, ¬ s.table.Retires p b := by
  induction l generalizing s with
  | nil => simp
  | cons p l ih =>
    obtain ⟨hlater, hpairs⟩ := List.pairwise_cons.1 hpairs
    rw [← table_update s p] at hpairs
    rw [List.foldl_cons, ih (tallied.update p) hpairs, tallied.isLive_update_iff, table_update]
    simp only [List.mem_cons, exists_eq_or_imp, forall_eq_or_imp]
    constructor
    · rintro ⟨⟨hlive, hkept⟩ | hread, hrest⟩
      · exact ⟨hlive.elim Or.inl fun h => Or.inr (Or.inl h), hkept, hrest⟩
      · -- a buffer that is read further on cannot have been retired here
        obtain ⟨q, hq, hread⟩ := hread
        exact ⟨Or.inr (Or.inr ⟨q, hq, hread⟩), fun h => hlater q hq h hread, hrest⟩
    · rintro ⟨hlive, hkept, hrest⟩
      refine ⟨?_, hrest⟩
      rcases hlive with hlive | hread | hread
      · exact Or.inl ⟨Or.inl hlive, hkept⟩
      · exact Or.inl ⟨Or.inr hread, hkept⟩
      · exact Or.inr hread

end LiveSet

end LatencyHiding
