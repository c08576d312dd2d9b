import LatencyHiding.Proofs.Buffer.ClosedForm
import Mathlib.Algebra.Order.BigOperators.Group.List
import Mathlib.Algebra.Order.Group.Nat
import Mathlib.Data.List.Perm.Subperm
import Mathlib.Data.UInt

set_option autoImplicit false

namespace LatencyHiding

namespace Bytes

theorem toNat_total (sizes : List UInt64) (h : (sizes.map UInt64.toNat).sum < UInt64.size) :
    (total sizes).toNat = (sizes.map UInt64.toNat).sum := by
  induction sizes with
  | nil => rfl
  | cons size sizes ih =>
    rw [List.map_cons, List.sum_cons] at h ⊢
    have htail := ih (by omega)
    change (size + total sizes).toNat = _
    rw [UInt64.toNat_add, htail]
    exact Nat.mod_eq_of_lt h

theorem toInt_toInt64 {a : UInt64} (h : a.toNat < 2 ^ 63) : a.toInt64.toInt = a.toNat := by
  rw [← Int64.toInt_toBitVec, UInt64.toBitVec_toInt64]
  apply BitVec.toInt_eq_toNat_of_lt
  rw [UInt64.toNat_toBitVec]
  omega

theorem toInt_difference {a b : UInt64} (ha : a.toNat < 2 ^ 63) (hb : b.toNat < 2 ^ 63) :
    (a.toInt64 - b.toInt64).toInt = (a.toNat : Int) - b.toNat := by
  rw [Int64.toInt_sub, toInt_toInt64 ha, toInt_toInt64 hb]
  apply Int.bmod_eq_of_le <;> omega

end Bytes

namespace BufferTable

variable {t : BufferTable} {ids ids' : List BufferId}

def bytes (t : BufferTable) (ids : List BufferId) : Nat :=
  (ids.map fun id => (t.sizeOf id).toNat).sum

def volume (t : BufferTable) : Nat := (t.buffers.map fun info => info.size.toNat).sum

theorem bytes_range (t : BufferTable) : t.bytes (List.range t.buffers.length) = t.volume := by
  unfold bytes volume
  congr 1
  apply List.ext_getElem (by simp)
  intro id hid hid'
  have hid : id < t.buffers.length := by simpa using hid
  simp [sizeOf, info?, hid]

theorem bytes_append (t : BufferTable) (ids ids' : List BufferId) :
    t.bytes (ids ++ ids') = t.bytes ids + t.bytes ids' := by
  simp [bytes]

theorem bytes_perm (h : ids.Perm ids') : t.bytes ids = t.bytes ids' := (h.map _).sum_eq

theorem bytes_le_bytes (nodup : ids.Nodup) (hsub : ids ⊆ ids') : t.bytes ids ≤ t.bytes ids' := by
  obtain ⟨part, hperm, hpart⟩ := List.subperm_of_subset nodup hsub
  calc t.bytes ids = t.bytes part := (bytes_perm hperm).symm
    _ ≤ t.bytes ids' := (hpart.map _).sum_le_sum (by simp)

end BufferTable

namespace LiveSet

variable {s : LiveSet} {p : Placed} {ids : List BufferId}

theorem toNat_sumSizes (h : s.table.bytes ids < UInt64.size) :
    (s.sumSizes ids).toNat = s.table.bytes ids := by
  unfold sumSizes
  rw [Bytes.toNat_total]
  · simp [BufferTable.bytes, Function.comp_def]
  · simpa [BufferTable.bytes, Function.comp_def] using h

theorem Tallied.bytes_le_volume (tallied : s.Tallied) (nodup : ids.Nodup)
    (hids : ∀ id ∈ ids, id < s.live.length) : s.table.bytes ids ≤ s.table.volume := by
  rw [← BufferTable.bytes_range]
  apply BufferTable.bytes_le_bytes nodup
  intro id hid
  rw [List.mem_range, ← tallied.length_live]
  exact hids id hid

theorem Tallied.bytes_liveIds_le (tallied : s.Tallied) :
    s.table.bytes s.liveIds ≤ s.table.volume :=
  tallied.bytes_le_volume (nodup_liveIds s) fun _ h => lt_length_of_isLive (mem_liveIds_iff.1 h)

theorem Tallied.toNat_usage (tallied : s.Tallied) (small : s.table.volume < 2 ^ 63) :
    s.usage.toNat = s.table.bytes s.liveIds := by
  have hle := tallied.bytes_liveIds_le
  rw [tallied.usage_eq]
  apply toNat_sumSizes
  change _ < 2 ^ 64
  omega

theorem Tallied.liveIds_grown_perm (tallied : s.Tallied) (p : Placed) :
    (s.grown p).liveIds.Perm (s.madeLive p ++ s.liveIds) := by
  apply (List.perm_ext_iff_of_nodup (nodup_liveIds _) ?_).2
  · intro b
    rw [mem_liveIds_iff, tallied.isLive_grown_iff, List.mem_append, mem_madeLive_iff,
      mem_liveIds_iff]
    by_cases hlive : s.isLive b = true <;> simp [hlive]
  · refine List.nodup_append.2 ⟨nodup_madeLive s p, nodup_liveIds s, ?_⟩
    rintro b hmade _ hlive rfl
    rw [mem_liveIds_iff, (mem_madeLive_iff.1 hmade).2] at hlive
    cases hlive

theorem liveIds_update_perm (s : LiveSet) (p : Placed) :
    (s.grown p).liveIds.Perm ((s.grown p).freed p ++ (s.update p).liveIds) := by
  apply (List.perm_ext_iff_of_nodup (nodup_liveIds _) ?_).2
  · intro b
    rw [List.mem_append, mem_liveIds_iff, mem_liveIds_iff, update_eq, isLive_foldl_kill_iff]
    by_cases hfreed : b ∈ (s.grown p).freed p
    · simp [hfreed, (mem_freed_iff.1 hfreed).2]
    · simp [hfreed]
  · refine List.nodup_append.2 ⟨nodup_freed _ p, nodup_liveIds _, ?_⟩
    rintro b hfreed _ hlive rfl
    rw [mem_liveIds_iff, update_eq, isLive_foldl_kill_iff] at hlive
    exact hlive.1 hfreed

/-- What is foreseen to be freed is freed, as nothing is read and defined by one instruction. -/
theorem Tallied.freed_grown (tallied : s.Tallied)
    (hapart : ∀ b, s.table.Retires p b → ¬ s.table.Reads p b) :
    (s.grown p).freed p = s.freed p := by
  unfold freed
  split
  · rfl
  · next hparameter =>
    rw [table_grown]
    apply List.filter_congr
    intro b hb
    rw [Bool.eq_iff_iff, tallied.isLive_grown_iff]
    have := hapart b ⟨hparameter, hb⟩
    simp [this]

/-- Whenever a buffer is freed, its size is part of the usage. -/
theorem Tallied.sizeOf_le_usage (tallied : s.Tallied) (small : s.table.volume < 2 ^ 63)
    {passed rest : List BufferId} {id : BufferId} (h : s.freed p = passed ++ id :: rest) :
    s.table.sizeOf id ≤ (passed.foldl LiveSet.kill s).usage := by
  have nodup := nodup_freed s p
  rw [h] at nodup
  obtain ⟨hpassed, hrest, hapart⟩ := List.nodup_append.1 nodup
  have hlive (b : Nat) (hb : b ∈ passed ++ id :: rest) : s.isLive b = true :=
    (mem_freed_iff.1 (h ▸ hb)).2
  have hkilled : (passed.foldl LiveSet.kill s).Tallied :=
    tallied.foldl_kill hpassed fun b hb => hlive b (List.mem_append_left _ hb)
  have htable : (passed.foldl LiveSet.kill s).table = s.table :=
    view_foldl table LiveSet.kill (fun _ _ => rfl) _ _
  have hid : (passed.foldl LiveSet.kill s).isLive id = true := by
    refine isLive_foldl_kill_iff.2 ⟨fun hmem => hapart id hmem id List.mem_cons_self rfl, ?_⟩
    exact hlive id (List.mem_append_right _ List.mem_cons_self)
  have hle : s.table.bytes [id] ≤ s.table.bytes (passed.foldl LiveSet.kill s).liveIds :=
    BufferTable.bytes_le_bytes (List.nodup_singleton id)
      (List.cons_subset.2 ⟨mem_liveIds_iff.2 hid, List.nil_subset _⟩)
  rw [UInt64.le_iff_toNat_le, hkilled.toNat_usage (by rw [htable]; exact small), htable]
  simpa [BufferTable.bytes] using hle

theorem Tallied.toNat_usage_update (tallied : s.Tallied) (small : s.table.volume < 2 ^ 63)
    (hapart : ∀ b, s.table.Retires p b → ¬ s.table.Reads p b) :
    (s.update p).usage.toNat + (s.sumSizes (s.freed p)).toNat =
        s.usage.toNat + (s.sumSizes (s.madeLive p)).toNat ∧
      s.usage.toNat + (s.sumSizes (s.madeLive p)).toNat < 2 ^ 63 := by
  have hgrown := s.table.bytes_append (s.madeLive p) s.liveIds
  have hupdate := s.table.bytes_append (s.freed p) (s.update p).liveIds
  rw [← BufferTable.bytes_perm (tallied.liveIds_grown_perm p)] at hgrown
  rw [← tallied.freed_grown hapart, ← BufferTable.bytes_perm (s.liveIds_update_perm p),
    tallied.freed_grown hapart] at hupdate
  have hle := (tallied.grown p).bytes_liveIds_le
  rw [table_grown] at hle
  have hmade : (s.sumSizes (s.madeLive p)).toNat = s.table.bytes (s.madeLive p) :=
    toNat_sumSizes (by change _ < 2 ^ 64; omega)
  have hfreed : (s.sumSizes (s.freed p)).toNat = s.table.bytes (s.freed p) :=
    toNat_sumSizes (by change _ < 2 ^ 64; omega)
  have husage := (tallied.update p).toNat_usage (by rw [table_update]; exact small)
  rw [table_update] at husage
  rw [husage, tallied.toNat_usage small, hmade, hfreed]
  omega

structure Fits (s : LiveSet) : Prop where
  initial : s.usage.toNat + s.initial.toNat < UInt64.size
  callee : ∀ p ∈ s.computation.instructions,
    s.usage.toNat + (s.calleePeak p).toNat < UInt64.size

/-- States that walks over `c` come to: they may start over at any time, with any buffers live at the
bottom, and pass instructions in any order and repeatedly, as long as there is room. -/
inductive Reached (c : Computation) (sizing : Shape.Sizing) (pressure : Option Pressure) :
    LiveSet → Prop where
  | fresh : Reached c sizing pressure (ofComputation c sizing pressure)
  | restart {s : LiveSet} (reached : Reached c sizing pressure s) (extra : List BufferId)
      (initial : UInt64) (fits : (s.restart extra initial).Fits) :
      Reached c sizing pressure (s.restart extra initial)
  | update {s : LiveSet} {p : Placed} (reached : Reached c sizing pressure s)
      (mem : p ∈ c.instructions) (fits : (s.update p).Fits) :
      Reached c sizing pressure (s.update p)

theorem not_reads_of_retires {c : Computation} (built : c.Built) (sizing : Shape.Sizing)
    (hp : p ∈ c.instructions) (b : BufferId)
    (hretires : (BufferTable.ofComputation c sizing).Retires p b) :
    ¬ (BufferTable.ofComputation c sizing).Reads p b := by
  intro hreads
  obtain ⟨k, hk⟩ := (Computation.mem_instructions_iff c p).1 hp
  exact Nat.lt_irrefl k (BufferTable.lt_of_retires_of_reads built
    (fun _ _ h => h.lt built.wired) hk hk hretires hreads)

theorem peak_effect (s : LiveSet) (p : Placed) :
    (s.effect p).peak.toNat = max (s.sumSizes (s.madeLive p)).toNat (s.calleePeak p).toNat :=
  UInt64.toNat_max _ _

structure Sound (c : Computation) (sizing : Shape.Sizing) (s : LiveSet) : Prop where
  computation_eq : s.computation = c
  table_eq : s.table = BufferTable.ofComputation c sizing
  tallied : s.Tallied
  fits : s.Fits
  usage_le_peak : s.usage.toNat ≤ s.state.peak.toNat

section States

variable {c : Computation} {sizing : Shape.Sizing} {pressure : Option Pressure}

theorem sound_ofComputation : Sound c sizing (ofComputation c sizing pressure) where
  computation_eq := rfl
  table_eq := rfl
  tallied := by
    refine tallied_of_dead List.length_replicate ?_ rfl
    intro b
    by_cases hb : b < (BufferTable.ofComputation c sizing).buffers.length <;>
      simp [isLive, ofComputation, ofAliasing, hb]
  fits := by
    refine ⟨Nat.two_pow_pos 64, ?_⟩
    intro p _
    exact (Nat.zero_add _).trans_lt (UInt64.toNat_lt _)
  usage_le_peak := Nat.le_refl 0

theorem Sound.restart (sound : Sound c sizing s) (extra : List BufferId) (initial : UInt64)
    (fits : (s.restart extra initial).Fits) : Sound c sizing (s.restart extra initial) where
  computation_eq := (computation_restart s extra initial).trans sound.computation_eq
  table_eq := (table_restart s extra initial).trans sound.table_eq
  tallied := (Tallied.restart sound.tallied.length_live extra initial).1
  fits := fits
  usage_le_peak := Nat.le_refl _

section Exact

variable (built : c.Built) (small : (BufferTable.ofComputation c sizing).volume < 2 ^ 63)
  (sound : Sound c sizing s) (hp : p ∈ c.instructions)

include built small sound hp

theorem Sound.toNat_usage_update :
    (s.update p).usage.toNat + (s.sumSizes (s.freed p)).toNat =
        s.usage.toNat + (s.sumSizes (s.madeLive p)).toNat ∧
      s.usage.toNat + (s.sumSizes (s.madeLive p)).toNat < 2 ^ 63 := by
  apply sound.tallied.toNat_usage_update
  · rw [sound.table_eq]
    exact small
  · rw [sound.table_eq]
    exact not_reads_of_retires built sizing hp

theorem Sound.toNat_peak_update : (s.update p).state.peak.toNat =
    max s.state.peak.toNat (s.usage.toNat + (s.effect p).peak.toNat) := by
  have hmade := (sound.toNat_usage_update built small hp).2
  have hcallee := sound.fits.callee p (by rw [sound.computation_eq]; exact hp)
  have hroom : s.usage.toNat + (s.effect p).peak.toNat < UInt64.size := by
    rw [peak_effect]
    change _ < 2 ^ 64 at hcallee ⊢
    omega
  rw [peak_update, UInt64.toNat_max, UInt64.toNat_add, Nat.mod_eq_of_lt hroom]

theorem Sound.update (fits : (s.update p).Fits) : Sound c sizing (s.update p) where
  computation_eq := by
    rw [view_update computation (fun _ _ _ => rfl) (fun _ _ => rfl), sound.computation_eq]
  table_eq := by rw [table_update, sound.table_eq]
  tallied := sound.tallied.update p
  fits := fits
  usage_le_peak := by
    have husage := (sound.toNat_usage_update built small hp).1
    rw [sound.toNat_peak_update built small hp, peak_effect]
    omega

end Exact

theorem Reached.sound (built : c.Built)
    (small : (BufferTable.ofComputation c sizing).volume < 2 ^ 63)
    (reached : Reached c sizing pressure s) : Sound c sizing s := by
  induction reached with
  | fresh => exact sound_ofComputation
  | restart _ extra initial fits ih => exact ih.restart extra initial fits
  | update _ mem fits ih => exact ih.update built small mem fits

theorem Sound.toNat_totalUsage (sound : Sound c sizing s) :
    s.totalUsage.toNat = s.usage.toNat + s.initial.toNat := by
  unfold totalUsage
  rw [UInt64.toNat_add]
  exact Nat.mod_eq_of_lt sound.fits.initial

/-- In every state the usage is the sum of the sizes of what is live and at most the peak, and what
an instruction is estimated to do is what passing it does: the usage changes by the increase, no
size is taken from a smaller usage on the way, and the peak rises to the estimated one. -/
theorem estimates_exact (built : c.Built)
    (small : (BufferTable.ofComputation c sizing).volume < 2 ^ 63)
    (reached : Reached c sizing pressure s) :
    s.totalUsage.toNat =
        s.initial.toNat + (BufferTable.ofComputation c sizing).bytes s.liveIds ∧
      s.totalUsage.toNat ≤ s.initial.toNat + s.state.peak.toNat ∧
      ∀ p ∈ c.instructions, (s.update p).Fits →
        ((s.update p).totalUsage.toNat : Int) =
            s.totalUsage.toNat + (s.effect p).increase.toInt ∧
          (∀ passed id rest, (s.grown p).freed p = passed ++ id :: rest →
            s.table.sizeOf id ≤ (passed.foldl kill (s.grown p)).usage) ∧
          (s.update p).state.peak.toNat =
            max s.state.peak.toNat (s.usage.toNat + (s.effect p).peak.toNat) := by
  have sound := reached.sound built small
  have htotal := sound.toNat_totalUsage
  have hpeak := sound.usage_le_peak
  have husage : s.usage.toNat = (BufferTable.ofComputation c sizing).bytes s.liveIds := by
    rw [← sound.table_eq]
    exact sound.tallied.toNat_usage (by rw [sound.table_eq]; exact small)
  refine ⟨by omega, by omega, ?_⟩
  intro p hp fits
  obtain ⟨hchange, hmade⟩ := sound.toNat_usage_update built small hp
  have hupdated := (sound.update built small hp fits).toNat_totalUsage
  rw [initial_update] at hupdated
  refine ⟨?_, ?_, sound.toNat_peak_update built small hp⟩
  · -- either sum is below half of the range, so that the signed difference is exact
    have hincrease : (s.effect p).increase.toInt =
        ((s.sumSizes (s.madeLive p)).toNat : Int) - (s.sumSizes (s.freed p)).toNat :=
      Bytes.toInt_difference (by omega) (by omega)
    omega
  · intro passed id rest h
    have hgrown := sound.tallied.grown p
    rw [← table_grown s p]
    exact hgrown.sizeOf_le_usage (by rw [table_grown, sound.table_eq]; exact small) h

end States

def calledBody : Computation :=
  [{ name := "p", opcode := .parameter, shape := .array 8 },
    { name := "w", opcode := .call, shape := .array 16, operands := [0], calls := ["body"] },
    { name := "t", opcode := .tuple, shape := .tuple [.array 16, .array 16], operands := [1, 1] },
    { name := "g", opcode := .getTupleElement, shape := .array 16, operands := [2],
      tupleIndex := some 0 },
    { name := "r", opcode := .add, shape := .array 16, operands := [3, 1] }].foldl Computation.grown
      { name := "main" }

def bodyPeak : Pressure :=
  { sizing := Shape.byteSize, states := KeyedList.empty.set "body" { peak := 4096 } }

theorem estimates_exact_calledBody : ∃ s p,
    Reached calledBody Shape.byteSize (some bodyPeak) s ∧ p ∈ calledBody.instructions ∧
      (s.update p).Fits ∧ s.totalUsage = 21 ∧ (s.effect p).increase = -8 ∧
      (s.effect p).peak = 4096 ∧
      ((s.update p).totalUsage.toNat : Int) = s.totalUsage.toNat + (s.effect p).increase.toInt ∧
      (s.update p).state.peak.toNat =
        max s.state.peak.toNat (s.usage.toNat + (s.effect p).peak.toNat) := by
  let start := (ofComputation calledBody Shape.byteSize (some bodyPeak)).restart [] 5
  let call := calledBody.instructions.get ⟨1, by decide⟩
  let root := calledBody.instructions.get ⟨4, by decide⟩
  have built : calledBody.Built := Computation.built_foldl_grown (.empty "main" false) _ rfl
  have reached : Reached calledBody Shape.byteSize (some bodyPeak) (start.update root) :=
    .update (.restart .fresh [] 5 ⟨by decide, by decide⟩) (List.get_mem _ _)
      ⟨by decide, by decide⟩
  have fits : ((start.update root).update call).Fits := ⟨by decide, by decide⟩
  obtain ⟨_, _, hexact⟩ := estimates_exact built (by decide) reached
  obtain ⟨hchange, _, hpeak⟩ := hexact call (List.get_mem _ _) fits
  exact ⟨start.update root, call, reached, List.get_mem _ _, fits, by decide, by decide, by decide,
    hchange, hpeak⟩

end LiveSet

end LatencyHiding
