import LatencyHiding.Proofs.Buffer.Estimates
import LatencyHiding.Proofs.Range

set_option autoImplicit false

namespace LatencyHiding

namespace Bytes

theorem gives_difference {safe : Prop} {a b : UInt64}
    (h : safe → a.toNat < 2 ^ 63 ∧ b.toNat < 2 ^ 63) :
    Gives safe (difference? a b) (a.toInt64 - b.toInt64) := by
  refine .ite (fun hsafe => ?_) _
  obtain ⟨ha, hb⟩ := h hsafe
  rw [toInt_toInt64 ha, toInt_toInt64 hb]
  change -2 ^ 63 ≤ (a.toNat : Int) - b.toNat ∧ (a.toNat : Int) - b.toNat ≤ 2 ^ 63 - 1
  omega

end Bytes

namespace LiveSet

variable {safe : Prop} {s : LiveSet} {p : Placed} {id : BufferId}

/-- All buffers together stay in the half of the range that signed differences leave, and there is
room above them for the peak of any callee. -/
structure Roomy (s : LiveSet) : Prop where
  tallied : s.Tallied
  volume_lt : s.table.volume < 2 ^ 63
  callee_lt : ∀ p ∈ s.computation.instructions,
    s.table.volume + (s.calleePeak p).toNat < UInt64.size

theorem Tallied.toNat_usage_add_lt (tallied : s.Tallied) (small : s.table.volume < 2 ^ 63)
    (hid : id < s.live.length) (hdead : s.isLive id = false) :
    s.usage.toNat + (s.table.sizeOf id).toNat < 2 ^ 64 := by
  have nodup : (id :: s.liveIds).Nodup :=
    List.nodup_cons.2 ⟨by simp [mem_liveIds_iff, hdead], nodup_liveIds s⟩
  have hle : s.table.bytes (id :: s.liveIds) ≤ s.table.volume := by
    apply tallied.bytes_le_volume nodup
    intro b hb
    rcases List.mem_cons.1 hb with rfl | hb
    · exact hid
    · exact lt_length_of_isLive (mem_liveIds_iff.1 hb)
  have hcons : s.table.bytes (id :: s.liveIds) =
      (s.table.sizeOf id).toNat + s.table.bytes s.liveIds := rfl
  rw [tallied.toNat_usage small]
  omega

theorem gives_revive (h : safe → s.usage.toNat + (s.table.sizeOf id).toNat < 2 ^ 64) :
    Gives safe (s.revive? id) (s.revive id) :=
  (Bytes.gives_add h).bind (.some _)

theorem gives_kill (h : safe → s.table.sizeOf id ≤ s.usage) :
    Gives safe (s.kill? id) (s.kill id) :=
  (Bytes.gives_sub h).bind (.some _)

theorem gives_seed (h : safe → s.Tallied ∧ s.table.volume < 2 ^ 63) :
    Gives safe (s.seed? id) (s.seed id) := by
  unfold seed? seed
  cases hinfo : s.table.info? id with
  | none => exact .some s
  | some info =>
    by_cases hskip : (info.entryParameter || s.isLive id) = true
    · simp only [hskip, if_true]
      exact .some s
    · simp only [hskip, Bool.false_eq_true, if_false]
      apply gives_revive
      intro hsafe
      obtain ⟨tallied, small⟩ := h hsafe
      apply tallied.toNat_usage_add_lt small
      · rw [tallied.length_live]
        exact BufferTable.lt_length_of_info? hinfo
      · simp only [Bool.or_eq_true, not_or, Bool.not_eq_true] at hskip
        exact hskip.2

theorem gives_restart (extra : List BufferId) (initial : UInt64)
    (h : safe → s.live.length = s.table.buffers.length ∧ s.table.volume < 2 ^ 63) :
    Gives safe (s.restart? extra initial) (s.restart extra initial) := by
  refine Gives.bind (a := (extra ++ s.rootBuffers).foldl seed (s.cleared initial)) ?_ (.some _)
  apply Gives.foldlM fun s _ => s.Tallied ∧ s.table.volume < 2 ^ 63
  · intro s id _ hs
    exact gives_seed hs
  · rintro s id _ ⟨tallied, small⟩
    exact ⟨tallied.seed id, by rwa [table_seed]⟩
  · intro hsafe
    obtain ⟨hlength, small⟩ := h hsafe
    exact ⟨tallied_of_dead ((List.length_map _).trans hlength) (s.isLive_cleared initial) rfl,
      small⟩

theorem gives_sumSizes {ids : List BufferId} (h : safe → s.table.bytes ids < 2 ^ 64) :
    Gives safe (s.sumSizes? ids) (s.sumSizes ids) := by
  apply Bytes.gives_total
  intro hsafe
  simpa [BufferTable.bytes, Function.comp_def] using h hsafe

theorem Tallied.bytes_madeLive_le (tallied : s.Tallied) (p : Placed) :
    s.table.bytes (s.madeLive p) ≤ s.table.volume :=
  tallied.bytes_le_volume (nodup_madeLive s p) fun _ => tallied.lt_length_of_mem_madeLive

theorem Tallied.bytes_freed_le (tallied : s.Tallied) (p : Placed) :
    s.table.bytes (s.freed p) ≤ s.table.volume :=
  tallied.bytes_le_volume (nodup_freed s p) fun _ hb => lt_length_of_isLive (mem_freed_iff.1 hb).2

theorem gives_effect (h : safe → s.Tallied ∧ s.table.volume < 2 ^ 63) :
    Gives safe (s.effect? p) (s.effect p) := by
  have hmade (hsafe : safe) : s.table.bytes (s.madeLive p) < 2 ^ 63 :=
    ((h hsafe).1.bytes_madeLive_le p).trans_lt (h hsafe).2
  have hfreed (hsafe : safe) : s.table.bytes (s.freed p) < 2 ^ 63 :=
    ((h hsafe).1.bytes_freed_le p).trans_lt (h hsafe).2
  have hlt {n : Nat} (hn : n < 2 ^ 63) : n < 2 ^ 64 := by omega
  refine (gives_sumSizes fun hsafe => hlt (hmade hsafe)).bind ?_
  refine (gives_sumSizes fun hsafe => hlt (hfreed hsafe)).bind ?_
  refine (Bytes.gives_difference fun hsafe => ?_).bind (.some _)
  rw [toNat_sumSizes (hlt (hmade hsafe)), toNat_sumSizes (hlt (hfreed hsafe))]
  exact ⟨hmade hsafe, hfreed hsafe⟩

theorem Tallied.toNat_usage_add_peak_le (tallied : s.Tallied) (small : s.table.volume < 2 ^ 63)
    (p : Placed) : s.usage.toNat + (s.effect p).peak.toNat ≤
      s.table.volume + (s.calleePeak p).toNat := by
  have hgrown := s.table.bytes_append (s.madeLive p) s.liveIds
  rw [← BufferTable.bytes_perm (tallied.liveIds_grown_perm p)] at hgrown
  have hle := (tallied.grown p).bytes_liveIds_le
  rw [table_grown] at hle
  have hmade : (s.sumSizes (s.madeLive p)).toNat = s.table.bytes (s.madeLive p) :=
    toNat_sumSizes (by change _ < 2 ^ 64; omega)
  rw [peak_effect, tallied.toNat_usage small, hmade]
  omega

theorem gives_foldl_revive (h : safe → s.Tallied ∧ s.table.volume < 2 ^ 63) {ids : List BufferId}
    (hids : safe → ids.Nodup ∧ ∀ id ∈ ids, id < s.live.length ∧ s.isLive id = false) :
    Gives safe (ids.foldlM revive? s) (ids.foldl revive s) := by
  apply Gives.foldlM fun s ids => (s.Tallied ∧ s.table.volume < 2 ^ 63) ∧ ids.Nodup ∧
    ∀ id ∈ ids, id < s.live.length ∧ s.isLive id = false
  · intro s id rest hs
    apply gives_revive
    intro hsafe
    obtain ⟨⟨tallied, small⟩, _, hids⟩ := hs hsafe
    obtain ⟨hid, hdead⟩ := hids id List.mem_cons_self
    exact tallied.toNat_usage_add_lt small hid hdead
  · rintro s id rest ⟨⟨tallied, small⟩, nodup, hids⟩
    obtain ⟨⟨hid, hdead⟩, hrest⟩ := List.forall_mem_cons.1 hids
    obtain ⟨hnot, nodup⟩ := List.nodup_cons.1 nodup
    refine ⟨⟨tallied.revive hid hdead, small⟩, nodup, ?_⟩
    intro b hb
    have hne : b ≠ id := fun heq => hnot (heq ▸ hb)
    refine ⟨by rw [length_revive]; exact (hrest b hb).1, ?_⟩
    rw [Bool.eq_false_iff, Ne, isLive_revive_iff hid, (hrest b hb).2]
    simp [hne]
  · exact fun hsafe => ⟨h hsafe, hids hsafe⟩

theorem gives_foldl_kill (h : safe → s.Tallied ∧ s.table.volume < 2 ^ 63) :
    Gives safe ((s.freed p).foldlM kill? s) ((s.freed p).foldl kill s) := by
  -- what is passed so far, so that the size to be taken away is known to be part of the usage
  apply Gives.foldlM fun now rest => ∃ passed, s.freed p = passed ++ rest ∧
    now = passed.foldl kill s ∧ s.Tallied ∧ s.table.volume < 2 ^ 63
  · intro now id rest hnow
    apply gives_kill
    intro hsafe
    obtain ⟨passed, hfreed, rfl, tallied, small⟩ := hnow hsafe
    have htable : (passed.foldl kill s).table = s.table :=
      view_foldl table kill (fun _ _ => rfl) _ _
    rw [htable]
    exact tallied.sizeOf_le_usage small hfreed
  · rintro now id rest ⟨passed, hfreed, rfl, hs⟩
    exact ⟨passed ++ [id], by simp [hfreed], by simp, hs⟩
  · exact fun hsafe => ⟨[], rfl, rfl, h hsafe⟩

theorem gives_update (h : safe → s.Roomy ∧ p ∈ s.computation.instructions) :
    Gives safe (s.update? p) (s.update p) := by
  have hs (hsafe : safe) : s.Tallied ∧ s.table.volume < 2 ^ 63 :=
    ⟨(h hsafe).1.tallied, (h hsafe).1.volume_lt⟩
  refine (gives_effect hs).bind ((Bytes.gives_add fun hsafe => ?_).bind ?_)
  · have hcallee := (h hsafe).1.callee_lt p (h hsafe).2
    exact ((hs hsafe).1.toNat_usage_add_peak_le (hs hsafe).2 p).trans_lt hcallee
  refine Gives.bind (a := s.grown p) ?_ ?_
  · refine gives_foldl_revive (fun hsafe => ?_) fun hsafe => ?_
    · exact ⟨⟨(hs hsafe).1.length_live, (hs hsafe).1.usage_eq⟩, (hs hsafe).2⟩
    · refine ⟨nodup_madeLive s p, ?_⟩
      intro b hb
      exact ⟨(hs hsafe).1.lt_length_of_mem_madeLive hb, (mem_madeLive_iff.1 hb).2⟩
  · apply gives_foldl_kill
    intro hsafe
    exact ⟨(hs hsafe).1.grown p, by rw [table_grown]; exact (hs hsafe).2⟩

theorem computation_update (s : LiveSet) (p : Placed) : (s.update p).computation = s.computation :=
  view_update computation (fun _ _ _ => rfl) (fun _ _ => rfl) s p

theorem pressure_update (s : LiveSet) (p : Placed) : (s.update p).pressure = s.pressure :=
  view_update pressure (fun _ _ _ => rfl) (fun _ _ => rfl) s p

namespace Roomy

theorem update (roomy : s.Roomy) (p : Placed) : (s.update p).Roomy where
  tallied := roomy.tallied.update p
  volume_lt := by
    rw [table_update]
    exact roomy.volume_lt
  callee_lt q hq := by
    rw [computation_update] at hq
    rw [table_update, calleePeak, pressure_update]
    exact roomy.callee_lt q hq

theorem restart (roomy : s.Roomy) (extra : List BufferId) (initial : UInt64) :
    (s.restart extra initial).Roomy where
  tallied := (Tallied.restart roomy.tallied.length_live extra initial).1
  volume_lt := by
    rw [table_restart]
    exact roomy.volume_lt
  callee_lt q hq := by
    rw [computation_restart] at hq
    rw [table_restart, calleePeak, pressure_restart]
    exact roomy.callee_lt q hq

theorem peak_update_le (roomy : s.Roomy) (hp : p ∈ s.computation.instructions) {bound : Nat}
    (hcallee : (s.calleePeak p).toNat ≤ bound)
    (hpeak : s.state.peak.toNat ≤ s.table.volume + bound) :
    (s.update p).state.peak.toNat ≤ s.table.volume + bound := by
  have hle := roomy.tallied.toNat_usage_add_peak_le roomy.volume_lt p
  have hroom := hle.trans_lt (roomy.callee_lt p hp)
  rw [peak_update, UInt64.toNat_max, UInt64.toNat_add, Nat.mod_eq_of_lt hroom]
  omega

end Roomy

theorem gives_foldl_update {l : List Placed}
    (h : safe → s.Roomy ∧ ∀ p ∈ l, p ∈ s.computation.instructions) :
    Gives safe (l.foldlM update? s) (l.foldl update s) := by
  apply Gives.foldlM fun s l => s.Roomy ∧ ∀ p ∈ l, p ∈ s.computation.instructions
  · intro s p rest hs
    exact gives_update fun hsafe => ⟨(hs hsafe).1, (hs hsafe).2 p List.mem_cons_self⟩
  · rintro s p rest ⟨roomy, hrest⟩
    refine ⟨roomy.update p, ?_⟩
    rw [computation_update]
    exact (List.forall_mem_cons.1 hrest).2
  · exact h

end LiveSet

namespace Computation

variable {safe : Prop} {c : Computation} {sizing : Shape.Sizing} {pressure : Option Pressure}

structure BytesFit (c : Computation) (sizing : Shape.Sizing) (pressure : Option Pressure) :
    Prop where
  volume_lt : (BufferTable.ofComputation c sizing).volume < 2 ^ 63
  callee_lt : ∀ p ∈ c.instructions, (BufferTable.ofComputation c sizing).volume +
    ((pressure.map fun q : Pressure => q.calleePeak p.toInstruction).getD 0).toNat < UInt64.size

theorem BytesFit.roomy (fit : c.BytesFit sizing pressure) :
    (LiveSet.ofComputation c sizing pressure).Roomy where
  tallied := LiveSet.sound_ofComputation.tallied
  volume_lt := fit.volume_lt
  callee_lt := fit.callee_lt

theorem gives_replay (sequence : List InstrId) (h : safe → c.BytesFit sizing pressure) :
    Gives safe (c.replay? sequence sizing pressure) (c.replay sequence sizing pressure) := by
  refine (LiveSet.gives_restart [] 0 fun hsafe => ?_).bind (Gives.bind ?_ (.some _))
  · exact ⟨(h hsafe).roomy.tallied.length_live, (h hsafe).volume_lt⟩
  · apply LiveSet.gives_foldl_update
    intro hsafe
    refine ⟨(h hsafe).roomy.restart [] 0, ?_⟩
    intro p hp
    obtain ⟨id, _, hid⟩ := List.mem_filterMap.1 hp
    exact (mem_instructions_iff _ p).2 ⟨id, hid⟩

theorem gives_memoryPeak (sequence : List InstrId) (h : safe → c.BytesFit sizing pressure) :
    Gives safe (c.memoryPeak? sequence sizing pressure) (c.memoryPeak sequence sizing pressure) :=
  (gives_replay sequence h).map (·.peak)

/-- The root keeps two buffers alive that fill half of the range each. -/
def halves : Computation :=
  [{ name := "a", opcode := .constant, shape := .array 0x7FFFFFFFFFFFFFFF },
    { name := "b", opcode := .constant, shape := .array 0x7FFFFFFFFFFFFFFF },
    { name := "r", opcode := .tuple,
      shape := .tuple [.array 0x7FFFFFFFFFFFFFFF, .array 0x7FFFFFFFFFFFFFFF],
      operands := [0, 1] }].foldl grown { name := "main", isEntry := true }

theorem built_halves : halves.Built := built_foldl_grown (.empty "main" true) _ rfl

end Computation

end LatencyHiding
