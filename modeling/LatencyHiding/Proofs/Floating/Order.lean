import LatencyHiding.Proofs.Floating.Emission
import LatencyHiding.Proofs.Traversal

set_option autoImplicit false

namespace LatencyHiding.Computation

variable {c : Computation} {sequence : List InstrId} {gaps : Gaps}

def part (c : Computation) (sequence : List InstrId) (floating : Nat → List Nat) (g : Nat) :
    List Nat :=
  floating g ++ ((c.anchors sequence)[g]?).toList

def parts (c : Computation) (sequence : List InstrId) (floating : Nat → List Nat) (n : Nat) :
    List Nat :=
  (List.range n).flatMap (c.part sequence floating)

theorem emitGaps_eq_ok_iff (c : Computation) (sequence : List InstrId) (gaps : Gaps)
    (out : List Nat) : c.emitGaps sequence gaps = .ok out ↔
      ∃ floating : Nat → List Nat,
        (∀ g ≤ (c.anchors sequence).length,
          c.emitBucket (c.bucket sequence gaps g) = .ok (floating g)) ∧
        out = c.parts sequence floating ((c.anchors sequence).length + 1) := by
  unfold emitGaps parts
  rw [bind_pure_eq_ok_iff]
  simp only [mapM_eq_ok_iff, List.mem_range, Nat.lt_succ_iff]
  constructor
  · rintro ⟨_, ⟨hall, rfl⟩, rfl⟩
    refine ⟨fun g => valueOf (c.emitBucket (c.bucket sequence gaps g)), ?_, ?_⟩
    · intro g hg
      obtain ⟨_, hfloating, _⟩ := (bind_pure_eq_ok_iff _ _ _).1 (hall g hg)
      exact eq_ok_valueOf hfloating
    · rw [List.flatMap_def]
      congr 1
      apply List.map_congr_left
      intro g hg
      obtain ⟨_, hfloating, hvalue⟩ :=
        (bind_pure_eq_ok_iff _ _ _).1 (hall g (Nat.lt_succ_iff.1 (List.mem_range.1 hg)))
      rw [hvalue, part, hfloating]
      rfl
  · rintro ⟨floating, hall, rfl⟩
    have hpart (g : Nat) (hg : g ≤ (c.anchors sequence).length) :
        (do let floating ← c.emitBucket (c.bucket sequence gaps g)
            return floating ++ ((c.anchors sequence)[g]?).toList : Except Fault (List Nat)) =
          .ok (c.part sequence floating g) :=
      (bind_pure_eq_ok_iff _ _ _).2 ⟨floating g, hall g hg, rfl⟩
    refine ⟨_, ⟨fun g hg => eq_ok_valueOf (hpart g hg), rfl⟩, ?_⟩
    rw [List.flatMap_def]
    congr 1
    apply List.map_congr_left
    intro g hg
    rw [hpart g (Nat.lt_succ_iff.1 (List.mem_range.1 hg))]
    rfl

theorem emitGaps_error {fault : Fault} (h : c.emitGaps sequence gaps = .error fault) :
    fault = .badFloat c.name .cycle := by
  unfold emitGaps at h
  rw [bind_pure_eq_error_iff] at h
  obtain ⟨g, _, hg⟩ := exists_error_of_mapM _ _ h
  rw [bind_pure_eq_error_iff] at hg
  exact emitBucket_error hg

theorem mem_bucket_iff (c : Computation) (sequence : List InstrId) (gaps : Gaps) (g k : Nat) :
    k ∈ c.bucket sequence gaps g ↔ k ∈ sequence ∧ c.roleOf k ≠ .anchor ∧ gaps.of k = g := by
  simp [bucket]

theorem mem_anchors_iff (c : Computation) (l : List Nat) (k : Nat) :
    k ∈ c.anchors l ↔ k ∈ l ∧ c.roleOf k = .anchor := by
  simp [anchors]

theorem anchors_append (c : Computation) (l l' : List Nat) :
    c.anchors (l ++ l') = c.anchors l ++ c.anchors l' := List.filter_append ..

theorem anchors_eq_nil {l : List Nat} (h : ∀ k ∈ l, c.roleOf k ≠ .anchor) : c.anchors l = [] :=
  List.filter_eq_nil_iff.2 fun k hk => by simpa using h k hk

theorem of_ofSequence_append {k : Nat} (hk : k < c.size) {front back : List Nat}
    (hfront : k ∉ front) :
    (Gaps.ofSequence c (front ++ k :: back)).of k = (c.anchors front).length := by
  rw [Gaps.of_ofSequence hk, List.idxOf_append_of_notMem hfront, List.idxOf_cons_self,
    Nat.add_zero, List.take_left]

theorem anchors_getElem?_eq_some_iff (ho : c.IsOrder sequence) (g k : Nat) :
    (c.anchors sequence)[g]? = some k ↔
      k ∈ sequence ∧ c.roleOf k = .anchor ∧ (Gaps.ofSequence c sequence).of k = g := by
  have hplace (hk : k ∈ sequence) (hrole : c.roleOf k = .anchor) :
      (c.anchors sequence)[(Gaps.ofSequence c sequence).of k]? = some k := by
    obtain ⟨front, back, rfl, hfront⟩ := List.eq_append_cons_of_mem hk
    rw [of_ofSequence_append ((ho.mem_iff k).1 hk) hfront, anchors_append,
      List.getElem?_append_right (Nat.le_refl _)]
    simp [anchors, hrole]
  constructor
  · intro hg
    obtain ⟨hk, hrole⟩ := (mem_anchors_iff c sequence k).1 (List.mem_of_getElem? hg)
    refine ⟨hk, hrole, ?_⟩
    have hlt := (List.getElem?_eq_some_iff.1 hg).choose
    exact ((List.getElem?_inj hlt (ho.nodup.filter _)).1 (hg.trans (hplace hk hrole).symm)).symm
  · rintro ⟨hk, hrole, rfl⟩
    exact hplace hk hrole

/-- `floating` has the floating instructions of every gap, inputs first. -/
structure Fills (c : Computation) (sequence : List InstrId) (gaps : Gaps)
    (floating : Nat → List Nat) : Prop where
  order : c.IsOrder sequence
  feasible : Gaps.Feasible c sequence gaps
  perm : ∀ g ≤ (c.anchors sequence).length, (floating g).Perm (c.bucket sequence gaps g)
  pairwise : ∀ g ≤ (c.anchors sequence).length, (floating g).Pairwise fun x y => ¬ c.Needs x y

namespace Fills

variable {floating : Nat → List Nat}

theorem mem_floating_iff (h : Fills c sequence gaps floating) {g : Nat}
    (hg : g ≤ (c.anchors sequence).length) (k : Nat) :
    k ∈ floating g ↔ k ∈ sequence ∧ c.roleOf k ≠ .anchor ∧ gaps.of k = g := by
  rw [(h.perm g hg).mem_iff, mem_bucket_iff]

theorem mem_anchor_iff (h : Fills c sequence gaps floating) (g k : Nat) :
    k ∈ ((c.anchors sequence)[g]?).toList ↔
      k ∈ sequence ∧ c.roleOf k = .anchor ∧ gaps.of k = g := by
  rw [Option.mem_toList, anchors_getElem?_eq_some_iff h.order]
  constructor
  · rintro ⟨hk, hrole, hg⟩
    exact ⟨hk, hrole, by rw [h.feasible.anchor_eq k hrole, hg]⟩
  · rintro ⟨hk, hrole, hg⟩
    exact ⟨hk, hrole, by rw [← h.feasible.anchor_eq k hrole, hg]⟩

theorem mem_part_iff (h : Fills c sequence gaps floating) {g : Nat}
    (hg : g ≤ (c.anchors sequence).length) (k : Nat) :
    k ∈ c.part sequence floating g ↔ k ∈ sequence ∧ gaps.of k = g := by
  rw [part, List.mem_append, h.mem_floating_iff hg, h.mem_anchor_iff]
  by_cases hrole : c.roleOf k = .anchor <;> simp [hrole]

theorem mem_parts_iff (h : Fills c sequence gaps floating) {n : Nat}
    (hn : n ≤ (c.anchors sequence).length + 1) (k : Nat) :
    k ∈ c.parts sequence floating n ↔ k ∈ sequence ∧ gaps.of k < n := by
  unfold parts
  rw [List.mem_flatMap]
  constructor
  · rintro ⟨g, hg, hk⟩
    have hg := List.mem_range.1 hg
    obtain ⟨hmem, rfl⟩ := (h.mem_part_iff (by omega) k).1 hk
    exact ⟨hmem, hg⟩
  · rintro ⟨hmem, hlt⟩
    exact ⟨gaps.of k, List.mem_range.2 hlt, (h.mem_part_iff (by omega) k).2 ⟨hmem, rfl⟩⟩

/-- What holds inside every gap and from each gap to those behind it holds of the whole. -/
theorem pairwise_parts {r : Nat → Nat → Prop}
    (hinside : ∀ g ≤ (c.anchors sequence).length, (c.part sequence floating g).Pairwise r)
    (hacross : ∀ g g', g < g' → g' ≤ (c.anchors sequence).length →
      ∀ x ∈ c.part sequence floating g, ∀ y ∈ c.part sequence floating g', r x y) :
    (c.parts sequence floating ((c.anchors sequence).length + 1)).Pairwise r := by
  rw [parts, List.pairwise_flatMap]
  refine ⟨fun g hg => hinside g (Nat.lt_succ_iff.1 (List.mem_range.1 hg)), ?_⟩
  apply List.pairwise_lt_range.imp_of_mem
  intro g g' _ hg' hlt
  exact hacross g g' hlt (Nat.lt_succ_iff.1 (List.mem_range.1 hg'))

theorem nodup_parts (h : Fills c sequence gaps floating) :
    (c.parts sequence floating ((c.anchors sequence).length + 1)).Nodup := by
  apply pairwise_parts
  · intro g hg
    rw [part]
    apply List.nodup_append.2
    refine ⟨(h.perm g hg).nodup_iff.2 (h.order.nodup.filter _), ?_, ?_⟩
    · cases (c.anchors sequence)[g]? <;> simp
    · rintro x hx y hy rfl
      exact ((h.mem_floating_iff hg x).1 hx).2.1 ((h.mem_anchor_iff g x).1 hy).2.1
  · rintro g g' hlt hg' x hx y hy rfl
    have heq := ((h.mem_part_iff (by omega) x).1 hx).2
    have heq' := ((h.mem_part_iff hg' x).1 hy).2
    omega

theorem parts_perm (h : Fills c sequence gaps floating) :
    (c.parts sequence floating ((c.anchors sequence).length + 1)).Perm sequence := by
  apply (List.perm_ext_iff_of_nodup h.nodup_parts h.order.nodup).2
  intro k
  rw [h.mem_parts_iff (Nat.le_refl _)]
  have := h.feasible.le_last k
  exact ⟨fun hk => hk.1, fun hk => ⟨hk, by omega⟩⟩

/-- Nothing stands before its inputs: not in a later gap, because the gaps are feasible, and not in
the same one, because an anchor comes last and the others are emitted inputs first. -/
theorem parts_pairwise (h : Fills c sequence gaps floating) :
    (c.parts sequence floating ((c.anchors sequence).length + 1)).Pairwise
      fun x y => ¬ c.Needs x y := by
  apply pairwise_parts
  · intro g hg
    rw [part]
    apply List.pairwise_append.2
    refine ⟨h.pairwise g hg, ?_, ?_⟩
    · cases (c.anchors sequence)[g]? <;> simp
    · intro x hx y hy hneeds
      have hx' := (h.mem_floating_iff hg x).1 hx
      have hy' := (h.mem_anchor_iff g y).1 hy
      have hle := h.feasible.behind_le x y hneeds
      rw [Gaps.behind, if_pos hy'.2.1] at hle
      omega
  · intro g g' hlt hg' x hx y hy hneeds
    have hx' := (h.mem_part_iff (by omega) x).1 hx
    have hy' := (h.mem_part_iff hg' y).1 hy
    have hle := h.feasible.behind_le x y hneeds
    have hbehind : gaps.of y ≤ Gaps.behind c gaps y := by
      unfold Gaps.behind
      split <;> omega
    omega

theorem parts_isOrder (hc : c.Wired) (h : Fills c sequence gaps floating) :
    c.IsOrder (c.parts sequence floating ((c.anchors sequence).length + 1)) :=
  (isOrder_iff_pairwise hc).2 ⟨h.parts_perm.trans h.order.perm, h.parts_pairwise⟩

theorem anchors_parts (h : Fills c sequence gaps floating) {n : Nat}
    (hn : n ≤ (c.anchors sequence).length + 1) :
    c.anchors (c.parts sequence floating n) = (c.anchors sequence).take n := by
  induction n with
  | zero => simp [parts, anchors]
  | succ n ih =>
    have hfloating : c.anchors (floating n) = [] :=
      anchors_eq_nil fun k hk => ((h.mem_floating_iff (by omega) k).1 hk).2.1
    have hanchor : c.anchors (((c.anchors sequence)[n]?).toList) =
        ((c.anchors sequence)[n]?).toList := by
      apply List.filter_eq_self.2
      intro k hk
      simpa using ((h.mem_anchor_iff n k).1 hk).2.1
    have hsplit : c.parts sequence floating (n + 1) =
        c.parts sequence floating n ++ c.part sequence floating n := by
      simp [parts, List.range_succ]
    rw [hsplit, anchors_append, ih (by omega), part, anchors_append, hfloating, hanchor,
      List.nil_append, List.take_add_one]

theorem ofSequence_parts (h : Fills c sequence gaps floating) :
    Gaps.ofSequence c (c.parts sequence floating ((c.anchors sequence).length + 1)) = gaps := by
  apply Gaps.ext_of (by simp [Gaps.ofSequence, h.feasible.length_eq])
  intro k
  by_cases hk : k < c.size
  · have hlast := h.feasible.le_last k
    have hmem := (h.mem_part_iff hlast k).2 ⟨(h.order.mem_iff k).2 hk, rfl⟩
    obtain ⟨front, back, hpart, hfront⟩ := List.eq_append_cons_of_mem hmem
    obtain ⟨more, hmore⟩ := Nat.exists_eq_add_of_le (Nat.succ_le_succ hlast)
    have hsplit : c.parts sequence floating ((c.anchors sequence).length + 1) =
        (c.parts sequence floating (gaps.of k) ++ front) ++ k :: (back ++
          ((List.range more).map (gaps.of k + 1 + ·)).flatMap (c.part sequence floating)) := by
      rw [parts, Nat.succ_eq_add_one] at *
      rw [hmore, List.range_add, List.range_succ]
      simp [parts, hpart]
    have hbefore : k ∉ c.parts sequence floating (gaps.of k) := by
      rw [h.mem_parts_iff (by omega)]
      omega
    -- In its own gap no anchor stands before `k`, since an anchor is the last of its gap.
    have hinitial : front <+: floating (gaps.of k) := by
      have hlen := congrArg List.length hpart
      have hone : ((c.anchors sequence)[gaps.of k]?).toList.length ≤ 1 := by
        cases (c.anchors sequence)[gaps.of k]? <;> simp
      simp only [part, List.length_append, List.length_cons] at hlen
      exact List.prefix_of_prefix_length_le ⟨_, hpart.symm⟩ (List.prefix_append _ _) (by omega)
    have hnone : c.anchors front = [] := anchors_eq_nil fun x hx =>
      ((h.mem_floating_iff hlast x).1 (hinitial.subset hx)).2.1
    rw [hsplit, of_ofSequence_append hk (by simp [hbefore, hfront]), anchors_append, hnone,
      h.anchors_parts (by omega)]
    simp
    omega
  · rw [Gaps.of_ofSequence_of_size_le (Nat.not_lt.1 hk), Gaps.of,
      List.getElem?_eq_none (by rw [h.feasible.length_eq]; exact Nat.not_lt.1 hk)]
    rfl

end Fills

def settledGaps (c : Computation) (sequence : List InstrId) : Gaps :=
  Gaps.round c (c.anchors sequence).length sequence (.ofSequence c sequence)

theorem feasible_settledGaps (hc : c.Wired) (ho : c.IsOrder sequence) :
    Gaps.Feasible c sequence (c.settledGaps sequence) :=
  (Gaps.feasible_ofSequence hc ho).round hc

theorem strayFloat?_eq_none {seen l : List Nat} (hknown : ∀ k ∈ l, k < c.size) (nodup : l.Nodup)
    (hseen : ∀ k ∈ l, k ∉ seen) : c.strayFloat? seen l = none := by
  induction l generalizing seen with
  | nil => rfl
  | cons k l ih =>
    obtain ⟨hk, nodup⟩ := List.nodup_cons.1 nodup
    obtain ⟨p, hp⟩ := exists_instruction? (hknown k List.mem_cons_self)
    rw [strayFloat?, hp, if_neg (by simp), if_neg (hseen k List.mem_cons_self)]
    apply ih (fun j hj => hknown j (List.mem_cons_of_mem k hj)) nodup
    intro j hj hmem
    rcases List.mem_cons.1 hmem with rfl | hmem
    · exact hk hj
    · exact hseen j (List.mem_cons_of_mem k hj) hmem

theorem float_eq_emitGaps (hc : c.Wired) (ho : c.IsOrder sequence) :
    c.float sequence = c.emitGaps sequence (c.settledGaps sequence) := by
  have hstray : c.strayFloat? [] sequence = none :=
    strayFloat?_eq_none (fun k hk => (ho.mem_iff k).1 hk) ho.nodup (fun _ _ => List.not_mem_nil)
  have hlen : sequence.length = c.size := by
    rw [ho.perm.length_eq, postOrder, List.length_range]
  unfold float
  simp only [hstray, hlen, ne_eq, not_true_eq_false, if_false,
    Gaps.settle_eq_round hc ho (Gaps.feasible_ofSequence hc ho)]
  rfl

theorem nodup_bucket (ho : c.IsOrder sequence) (gaps : Gaps) (g : Nat) :
    (c.bucket sequence gaps g).Nodup := ho.nodup.filter _

theorem lt_size_of_mem_bucket (ho : c.IsOrder sequence) {g k : Nat}
    (hk : k ∈ c.bucket sequence gaps g) : k < c.size :=
  (ho.mem_iff k).1 ((mem_bucket_iff c sequence gaps g k).1 hk).1

/-- What floating gives, if it gives anything: the settled gaps one after the other. -/
theorem exists_fills_of_float (hc : c.Wired) (ho : c.IsOrder sequence) {out : List Nat}
    (h : c.float sequence = .ok out) :
    ∃ floating, Fills c sequence (c.settledGaps sequence) floating ∧
      out = c.parts sequence floating ((c.anchors sequence).length + 1) := by
  rw [float_eq_emitGaps hc ho, emitGaps_eq_ok_iff] at h
  obtain ⟨floating, hemit, rfl⟩ := h
  have hok (g : Nat) (hg : g ≤ (c.anchors sequence).length) :=
    emitBucket_ok hc (nodup_bucket ho _ g) (fun k hk => lt_size_of_mem_bucket ho hk) (hemit g hg)
  exact ⟨floating, ⟨ho, feasible_settledGaps hc ho, fun g hg => (hok g hg).1,
    fun g hg => (hok g hg).2⟩, rfl⟩

theorem isOrder_and_anchors_of_float (hc : c.Wired) (ho : c.IsOrder sequence) {out : List Nat}
    (h : c.float sequence = .ok out) :
    c.IsOrder out ∧ c.anchors out = c.anchors sequence ∧
      Gaps.ofSequence c out = c.settledGaps sequence := by
  obtain ⟨floating, hfills, rfl⟩ := exists_fills_of_float hc ho h
  refine ⟨hfills.parts_isOrder hc, ?_, hfills.ofSequence_parts⟩
  rw [hfills.anchors_parts (Nat.le_refl _), List.take_of_length_le (Nat.le_succ _)]

theorem emitGaps_congr {l l' : List Nat} (hperm : l.Perm l')
    (hanchors : c.anchors l = c.anchors l') : c.emitGaps l gaps = c.emitGaps l' gaps := by
  have hbucket (g : Nat) :
      c.emitBucket (c.bucket l gaps g) = c.emitBucket (c.bucket l' gaps g) :=
    emitBucket_perm (hperm.filter _)
  unfold emitGaps
  simp only [hanchors, hbucket]

/-- An order is floated exactly if no floating instruction repeats, among its operands or among its
control predecessors, one that settles in the same gap. The gaps settle in any case, so that the
only fault is that of a gap that cannot be emitted. -/
theorem exists_float_eq_ok_iff (hc : c.Built) (ho : c.IsOrder sequence) :
    Gaps.settle c (c.anchors sequence).length sequence (c.maxRounds (c.anchors sequence).length)
        (.ofSequence c sequence) = some (c.settledGaps sequence) ∧
      ((∃ out, c.float sequence = .ok out) ↔ ∀ user input, c.roleOf user ≠ .anchor →
        c.roleOf input ≠ .anchor →
        (c.settledGaps sequence).of user = (c.settledGaps sequence).of input →
        ¬ c.Repeats user input) ∧
      ∀ fault, c.float sequence = .error fault → fault = .badFloat c.name .cycle := by
  have hw := hc.wired
  have hbucket (g : Nat) := exists_emitBucket_iff hw
    (nodup_bucket ho (c.settledGaps sequence) g) (fun k hk => lt_size_of_mem_bucket ho hk)
  refine ⟨Gaps.settle_eq_round hw ho (Gaps.feasible_ofSequence hw ho), ?_, ?_⟩
  · simp only [float_eq_emitGaps hw ho, emitGaps_eq_ok_iff]
    constructor
    · rintro ⟨_, floating, hemit, rfl⟩ user input huser hinput hsame hrep
      obtain ⟨p, hp⟩ := Gaps.exists_of_floating huser
      obtain ⟨q, hq⟩ := Gaps.exists_of_floating hinput
      have hlast := (feasible_settledGaps hw ho).le_last user
      apply (hbucket _).1 ⟨_, hemit _ hlast⟩ user ?_ input ?_ hrep
      · rw [mem_bucket_iff]
        exact ⟨(ho.mem_iff user).2 (lt_size_of_instruction? hp), huser, rfl⟩
      · rw [mem_bucket_iff]
        exact ⟨(ho.mem_iff input).2 (lt_size_of_instruction? hq), hinput, hsame.symm⟩
    · intro hrep
      have hemit (g : Nat) : ∃ floating, c.emitBucket
          (c.bucket sequence (c.settledGaps sequence) g) = .ok floating := by
        apply (hbucket g).2
        intro user huser input hinput
        obtain ⟨_, huser, hgap⟩ := (mem_bucket_iff c sequence _ g user).1 huser
        obtain ⟨_, hinput, hgap'⟩ := (mem_bucket_iff c sequence _ g input).1 hinput
        exact hrep user input huser hinput (hgap.trans hgap'.symm)
      choose floating hfloating using hemit
      exact ⟨_, floating, fun g _ => hfloating g, rfl⟩
  · intro fault h
    rw [float_eq_emitGaps hw ho] at h
    exact emitGaps_error h

def doubledOperand : Computation :=
  [{ name := "p", opcode := .parameter, shape := .array 16 },
    { name := "s", opcode := .allReduceStart, shape := .array 16, operands := [0] },
    { name := "e", opcode := .customCall, shape := .array 16, operands := [1, 1],
      hint := some .earliest }].foldl grown { name := "main" }

theorem built_doubledOperand : doubledOperand.Built :=
  built_foldl_grown (.empty "main" false) _ rfl

/-- A repeated operand in the same gap is taken for a cycle. -/
theorem float_doubledOperand :
    doubledOperand.Built ∧ doubledOperand.IsOrder doubledOperand.postOrder ∧
      doubledOperand.float doubledOperand.postOrder = .error (.badFloat "main" .cycle) :=
  ⟨built_doubledOperand, built_doubledOperand.wired.isOrder_postOrder, rfl⟩

theorem exists_float_doubledOperand_iff :
    ¬ (∃ out, doubledOperand.float doubledOperand.postOrder = .ok out) ∧
      ((∃ out, doubledOperand.float doubledOperand.postOrder = .ok out) ↔
        ∀ user input, doubledOperand.roleOf user ≠ .anchor → doubledOperand.roleOf input ≠ .anchor →
          (doubledOperand.settledGaps doubledOperand.postOrder).of user =
            (doubledOperand.settledGaps doubledOperand.postOrder).of input →
          ¬ doubledOperand.Repeats user input) := by
  refine ⟨?_, (exists_float_eq_ok_iff built_doubledOperand
    built_doubledOperand.wired.isOrder_postOrder).2.1⟩
  have hfault : doubledOperand.float doubledOperand.postOrder =
    .error (.badFloat "main" .cycle) := rfl
  rw [hfault]
  rintro ⟨out, ⟨⟩⟩

/-- Floating an order gives an order, in which the anchors follow one another as before. -/
theorem isOrder_of_float_eq_ok (hc : c.Built) (ho : c.IsOrder sequence) {out : List InstrId}
    (h : c.float sequence = .ok out) : c.IsOrder out ∧ c.anchors out = c.anchors sequence := by
  obtain ⟨horder, hanchors, _⟩ := isOrder_and_anchors_of_float hc.wired ho h
  exact ⟨horder, hanchors⟩

/-- Two reductions that overlap; a call to be placed early waits for the first, and the second
starts behind that call. -/
def overlapping : Computation :=
  [{ name := "p", opcode := .parameter, shape := .array 4 },
    { name := "s0", opcode := .allReduceStart, shape := .array 4, operands := [0] },
    { name := "d0", opcode := .allReduceDone, shape := .array 4, operands := [1] },
    { name := "c", opcode := .add, shape := .array 4, operands := [0] },
    { name := "e", opcode := .customCall, shape := .array 4, operands := [2, 3],
      hint := some .earliest },
    { name := "s1", opcode := .allReduceStart, shape := .array 4, operands := [3] },
    { name := "d1", opcode := .allReduceDone, shape := .array 4, operands := [5] },
    { name := "root", opcode := .tuple, shape := .array 4, operands := [4, 6] }].foldl grown
      { name := "c" }

theorem built_overlapping : overlapping.Built := built_foldl_grown (.empty "c" false) _ rfl

theorem float_overlapping :
    overlapping.float overlapping.postOrder = .ok [0, 1, 3, 5, 2, 4, 6, 7] := by decide

theorem isOrder_float_overlapping :
    overlapping.IsOrder [0, 1, 3, 5, 2, 4, 6, 7] ∧
      overlapping.anchors [0, 1, 3, 5, 2, 4, 6, 7] = overlapping.anchors overlapping.postOrder :=
  isOrder_of_float_eq_ok built_overlapping built_overlapping.wired.isOrder_postOrder
    float_overlapping

/-- What has been floated stays as it is: its instructions already stand in settled gaps, and each
gap is emitted as before. -/
theorem float_eq_ok_of_float_eq_ok (hc : c.Built) (ho : c.IsOrder sequence) {out : List InstrId}
    (h : c.float sequence = .ok out) : c.float out = .ok out := by
  have hw := hc.wired
  obtain ⟨horder, hanchors, hgaps⟩ := isOrder_and_anchors_of_float hw ho h
  have hsettled : Gaps.Settled c (c.anchors sequence).length (c.settledGaps sequence) :=
    (Gaps.feasible_ofSequence hw ho).settled_round hw ho
  have hsame : c.settledGaps out = c.settledGaps sequence := by
    unfold settledGaps Gaps.round
    rw [hanchors, hgaps, Gaps.raiseAll_eq (c.anchors sequence).length, Gaps.lowerAll_eq,
      hsettled.foldl_move, hsettled.foldl_move]
    rfl
  rw [float_eq_emitGaps hw horder, hsame, emitGaps_congr (horder.perm.trans ho.perm.symm) hanchors,
    ← float_eq_emitGaps hw ho, h]

theorem float_float_overlapping :
    overlapping.float [0, 1, 3, 5, 2, 4, 6, 7] = .ok [0, 1, 3, 5, 2, 4, 6, 7] :=
  float_eq_ok_of_float_eq_ok built_overlapping built_overlapping.wired.isOrder_postOrder
    float_overlapping

end LatencyHiding.Computation
