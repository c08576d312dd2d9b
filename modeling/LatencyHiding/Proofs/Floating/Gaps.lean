import LatencyHiding.Floating
import LatencyHiding.Proofs.Program.Precedence
import Mathlib.Data.List.Nodup

set_option autoImplicit false

/-!
Gaps while instructions float. In the gaps of an order everything stands behind its inputs, and
both sweeps keep it so (`Feasible`): the upward sweep can only lower the gaps of early instructions
and the downward sweep only raise those of late ones. Each sweep visits what an instruction looks at
before the instruction, so it leaves final values behind. The downward sweep does not disturb what
the upward one has reached, and so the gaps are settled after a single round; a second round, if
there is one, only finds that out.
-/

namespace LatencyHiding

open LatencyHiding.Computation

namespace Gaps

variable {c : Computation} {sequence : List InstrId} {last : Nat} {gaps : Gaps}

theorem of_set (gaps : Gaps) (id k v : Nat) (h : id < gaps.length) :
    Gaps.of (gaps.set id v) k = if k = id then v else gaps.of k := by
  unfold Gaps.of
  by_cases he : k = id
  · subst he
    simp [h]
  · rw [List.getElem?_set_ne (Ne.symm he), if_neg he]

theorem ext_of {g h : Gaps} (hlen : g.length = h.length) (hof : ∀ k, g.of k = h.of k) : g = h := by
  apply List.ext_getElem hlen
  intro k hg hh
  have := hof k
  unfold Gaps.of at this
  rwa [List.getElem?_eq_getElem hg, List.getElem?_eq_getElem hh] at this

theorem foldl_max_le_iff (l : List Nat) (start bound : Nat) :
    l.foldl max start ≤ bound ↔ start ≤ bound ∧ ∀ x ∈ l, x ≤ bound := by
  induction l generalizing start with
  | nil => simp
  | cons x l ih => rw [List.foldl_cons, ih, List.forall_mem_cons, Nat.max_le, and_assoc]

theorem le_foldl_min_iff (l : List Nat) (start bound : Nat) :
    bound ≤ l.foldl min start ↔ bound ≤ start ∧ ∀ x ∈ l, bound ≤ x := by
  induction l generalizing start with
  | nil => simp
  | cons x l ih => rw [List.foldl_cons, ih, List.forall_mem_cons, Nat.le_min, and_assoc]

theorem lowest_le_iff (c : Computation) (gaps : Gaps) (p : Placed) (bound : Nat) :
    lowest c gaps p ≤ bound ↔ ∀ i ∈ p.inputs, behind c gaps i ≤ bound := by
  rw [lowest, foldl_max_le_iff, List.forall_mem_map]
  exact ⟨fun h => h.2, fun h => ⟨Nat.zero_le _, h⟩⟩

theorem le_highest_iff (last : Nat) (gaps : Gaps) (p : Placed) (bound : Nat) :
    bound ≤ highest last gaps p ↔
      (p.outputs = [] → bound ≤ last) ∧ ∀ u ∈ p.outputs, bound ≤ gaps.of u := by
  unfold highest
  cases p.outputs with
  | nil => simp
  | cons u rest => simp [le_foldl_min_iff]

theorem highest_le {p : Placed} {u : Nat} (h : u ∈ p.outputs) : highest last gaps p ≤ gaps.of u :=
  ((le_highest_iff last gaps p _).1 (Nat.le_refl _)).2 u h

theorem behind_congr {g h : Gaps} {i : Nat} (hof : g.of i = h.of i) :
    behind c g i = behind c h i := by
  unfold behind
  rw [hof]

theorem behind_mono {g h : Gaps} {i : Nat} (hle : g.of i ≤ h.of i) :
    behind c g i ≤ behind c h i := by
  unfold behind
  split <;> omega

theorem behind_of_floating {i : Nat} (hi : c.roleOf i ≠ .anchor) :
    behind c gaps i = gaps.of i := if_neg hi

def aim (c : Computation) (last : Nat) (gaps : Gaps) (id : Nat) : Nat :=
  match c.instruction? id, c.roleOf id with
  | some p, .early => lowest c gaps p
  | some p, .late => highest last gaps p
  | _, _ => gaps.of id

def move (c : Computation) (last : Nat) (role : Role) (gaps : Gaps) (id : Nat) : Gaps :=
  if c.roleOf id = role then gaps.set id (aim c last gaps id) else gaps

theorem roleOf_eq_anchor {k : Nat} (h : c.instruction? k = none) : c.roleOf k = .anchor := by
  simp [roleOf, h]

theorem exists_of_floating {k : Nat} (h : c.roleOf k ≠ .anchor) :
    ∃ p, c.instruction? k = some p := by
  cases hk : c.instruction? k with
  | none => exact (h (roleOf_eq_anchor hk)).elim
  | some p => exact ⟨p, rfl⟩

theorem aim_early {k : Nat} {p : Placed} (hp : c.instruction? k = some p)
    (hrole : c.roleOf k = .early) : aim c last gaps k = lowest c gaps p := by
  simp only [aim, hp, hrole]

theorem aim_late {k : Nat} {p : Placed} (hp : c.instruction? k = some p)
    (hrole : c.roleOf k = .late) : aim c last gaps k = highest last gaps p := by
  simp only [aim, hp, hrole]

theorem aim_anchor {k : Nat} (hrole : c.roleOf k = .anchor) : aim c last gaps k = gaps.of k := by
  unfold aim
  split <;> simp_all

theorem raise_eq_move (last : Nat) (gaps : Gaps) (id : Nat) :
    raise c gaps id = move c last .early gaps id := by
  unfold raise move
  cases hp : c.instruction? id with
  | none => simp [roleOf_eq_anchor hp]
  | some p =>
    by_cases hrole : c.roleOf id = .early
    · simp only [hrole, if_true, aim_early hp hrole]
    · simp only [hrole, if_false]

theorem lower_eq_move (gaps : Gaps) (id : Nat) :
    lower c last gaps id = move c last .late gaps id := by
  unfold lower move
  cases hp : c.instruction? id with
  | none => simp [roleOf_eq_anchor hp]
  | some p =>
    by_cases hrole : c.roleOf id = .late
    · simp only [hrole, if_true, aim_late hp hrole]
    · simp only [hrole, if_false]

theorem raiseAll_eq (last : Nat) (gaps : Gaps) :
    raiseAll c sequence gaps = sequence.foldl (move c last .early) gaps := by
  unfold raiseAll
  congr 1
  funext g id
  exact raise_eq_move last g id

theorem lowerAll_eq (gaps : Gaps) :
    lowerAll c last sequence gaps = sequence.reverse.foldl (move c last .late) gaps := by
  unfold lowerAll
  congr 1
  funext g id
  exact lower_eq_move g id

theorem length_move (role : Role) (gaps : Gaps) (id : Nat) :
    (move c last role gaps id).length = gaps.length := by
  unfold move
  split <;> simp

theorem of_move {role : Role} (hrole : role ≠ .anchor) (hlen : gaps.length = c.size) (id k : Nat) :
    (move c last role gaps id).of k =
      if k = id ∧ c.roleOf id = role then aim c last gaps id else gaps.of k := by
  unfold move
  by_cases h : c.roleOf id = role
  · obtain ⟨p, hp⟩ := exists_of_floating (k := id) (c := c) (by rw [h]; exact hrole)
    rw [if_pos h, of_set _ _ _ _ (by rw [hlen]; exact lt_size_of_instruction? hp)]
    simp only [h, and_true]
  · rw [if_neg h, if_neg (fun hk => h hk.2)]

theorem length_foldl_move (role : Role) (order : List Nat) (gaps : Gaps) :
    (order.foldl (move c last role) gaps).length = gaps.length := by
  induction order generalizing gaps with
  | nil => rfl
  | cons id order ih => rw [List.foldl_cons, ih, length_move]

theorem of_foldl_move (role : Role) (hrole : role ≠ .anchor) (order : List Nat)
    (hlen : gaps.length = c.size) {k : Nat} (hk : k ∉ order ∨ c.roleOf k ≠ role) :
    (order.foldl (move c last role) gaps).of k = gaps.of k := by
  induction order generalizing gaps with
  | nil => rfl
  | cons id order ih =>
    rw [List.foldl_cons, ih (by rw [length_move, hlen]), of_move hrole hlen, if_neg]
    · rintro ⟨rfl, hid⟩
      exact hk.elim (fun h => h List.mem_cons_self) (fun h => h hid)
    · exact hk.imp_left fun h => mt (List.mem_cons_of_mem id) h

/-- The gap of `other` has a say in where an instruction of this role aims at. -/
def LooksAt (c : Computation) (role : Role) (id other : Nat) : Prop :=
  match role with
  | .early => c.Needs id other
  | .late => c.Needs other id
  | .anchor => False

theorem not_looksAt_self (hc : c.Wired) (role : Role) (id : Nat) : ¬ LooksAt c role id id := by
  cases role with
  | early => exact hc.not_needs_self id
  | late => exact hc.not_needs_self id
  | anchor => exact fun h => h

theorem aim_congr (hc : c.Wired) {g h : Gaps} {id : Nat} (hid : c.roleOf id ≠ .anchor)
    (hof : ∀ k, LooksAt c (c.roleOf id) id k → g.of k = h.of k) :
    aim c last g id = aim c last h id := by
  obtain ⟨p, hp⟩ := exists_of_floating hid
  cases hrole : c.roleOf id with
  | early =>
    rw [hrole] at hof
    rw [aim_early hp hrole, aim_early hp hrole, lowest, lowest]
    congr 1
    apply List.map_congr_left
    intro i hi
    exact behind_congr (hof i ⟨p, hp, hi⟩)
  | late =>
    rw [hrole] at hof
    have hmap : p.outputs.map g.of = p.outputs.map h.of := by
      apply List.map_congr_left
      intro u hu
      exact hof u ((hc.mem_outputs_iff hp u).1 hu)
    rw [aim_late hp hrole, aim_late hp hrole, highest, highest, hmap]
  | anchor => exact (hid hrole).elim

/-- A sweep in which nothing looks at what is visited later leaves every instruction of its role at
the gap it aims at. -/
theorem foldl_move_final (hc : c.Wired) (role : Role) (hrole : role ≠ .anchor) (order : List Nat)
    (nodup : order.Nodup) (hpairs : order.Pairwise fun x y => ¬ LooksAt c role x y)
    (hlen : gaps.length = c.size) {k : Nat} (hk : k ∈ order) (hkrole : c.roleOf k = role) :
    (order.foldl (move c last role) gaps).of k =
      aim c last (order.foldl (move c last role) gaps) k := by
  induction order generalizing gaps with
  | nil => exact (List.not_mem_nil hk).elim
  | cons id order ih =>
    obtain ⟨hid, nodup⟩ := List.nodup_cons.1 nodup
    obtain ⟨hlater, hpairs⟩ := List.pairwise_cons.1 hpairs
    have hlen' : (move c last role gaps id).length = c.size := by rw [length_move, hlen]
    rw [List.foldl_cons]
    rcases List.mem_cons.1 hk with rfl | hk
    · have hseen : ∀ j, LooksAt c (c.roleOf k) k j →
          (order.foldl (move c last role) (move c last role gaps k)).of j = gaps.of j := by
        intro j hj
        rw [hkrole] at hj
        have hne : j ≠ k := by
          rintro rfl
          exact not_looksAt_self hc role j hj
        rw [of_foldl_move role hrole order hlen' (Or.inl fun h => hlater j h hj),
          of_move hrole hlen, if_neg (fun h => hne h.1)]
      rw [aim_congr hc (by rw [hkrole]; exact hrole) hseen,
        of_foldl_move role hrole order hlen' (Or.inl hid), of_move hrole hlen, if_pos ⟨rfl, hkrole⟩]
    · exact ih nodup hpairs hlen' hk

/-- Gaps in which anchors stand where `sequence` has them and nothing stands before its inputs. -/
structure Feasible (c : Computation) (sequence : List InstrId) (gaps : Gaps) : Prop where
  length_eq : gaps.length = c.size
  anchor_eq : ∀ k, c.roleOf k = .anchor → gaps.of k = (ofSequence c sequence).of k
  le_last : ∀ k, gaps.of k ≤ (c.anchors sequence).length
  behind_le : ∀ u i, c.Needs u i → behind c gaps i ≤ gaps.of u

namespace Feasible

theorem set (hc : c.Wired) (h : Feasible c sequence gaps) {id v : Nat}
    (hid : c.roleOf id ≠ .anchor) (hlast : v ≤ (c.anchors sequence).length)
    (hinputs : ∀ i, c.Needs id i → behind c gaps i ≤ v)
    (houtputs : ∀ u, c.Needs u id → v ≤ gaps.of u) : Feasible c sequence (gaps.set id v) := by
  obtain ⟨p, hp⟩ := exists_of_floating hid
  have hlt : id < gaps.length := by
    rw [h.length_eq]
    exact lt_size_of_instruction? hp
  refine ⟨by rw [List.length_set, h.length_eq], ?_, ?_, ?_⟩
  · intro k hk
    have hne : k ≠ id := by
      rintro rfl
      exact hid hk
    rw [of_set _ _ _ _ hlt, if_neg hne, h.anchor_eq k hk]
  · intro k
    rw [of_set _ _ _ _ hlt]
    split
    · exact hlast
    · exact h.le_last k
  · intro u i hneeds
    by_cases hu : u = id
    · subst hu
      have hne : i ≠ u := Nat.ne_of_lt (hneeds.lt hc)
      rw [behind_congr (h := gaps) (by rw [of_set _ _ _ _ hlt, if_neg hne]),
        of_set _ _ _ _ hlt, if_pos rfl]
      exact hinputs i hneeds
    · rw [of_set _ _ _ _ hlt, if_neg hu]
      by_cases hi : i = id
      · subst hi
        rw [behind_of_floating hid, of_set _ _ _ _ hlt, if_pos rfl]
        exact houtputs u hneeds
      · rw [behind_congr (h := gaps) (by rw [of_set _ _ _ _ hlt, if_neg hi])]
        exact h.behind_le u i hneeds

theorem aim_le (h : Feasible c sequence gaps) {k : Nat} (hk : c.roleOf k = .early) :
    aim c last gaps k ≤ gaps.of k := by
  obtain ⟨p, hp⟩ := exists_of_floating (c := c) (k := k) (by simp [hk])
  rw [aim_early hp hk, lowest_le_iff]
  intro i hi
  exact h.behind_le k i ⟨p, hp, hi⟩

theorem le_aim (hc : c.Wired) (h : Feasible c sequence gaps) {k : Nat} (hk : c.roleOf k = .late) :
    gaps.of k ≤ aim c (c.anchors sequence).length gaps k := by
  have hfloat : c.roleOf k ≠ .anchor := by simp [hk]
  obtain ⟨p, hp⟩ := exists_of_floating hfloat
  rw [aim_late hp hk, le_highest_iff]
  refine ⟨fun _ => h.le_last k, ?_⟩
  intro u hu
  have := h.behind_le u k ((hc.mem_outputs_iff hp u).1 hu)
  rwa [behind_of_floating hfloat] at this

theorem move (hc : c.Wired) (h : Feasible c sequence gaps) (role : Role) (hrole : role ≠ .anchor)
    (id : Nat) : Feasible c sequence (move c (c.anchors sequence).length role gaps id) := by
  unfold Gaps.move
  split
  · next hid =>
    have hfloat : c.roleOf id ≠ .anchor := by rw [hid]; exact hrole
    obtain ⟨p, hp⟩ := exists_of_floating hfloat
    cases role with
    | early =>
      have hle : aim c (c.anchors sequence).length gaps id ≤ gaps.of id := h.aim_le hid
      apply h.set hc hfloat (Nat.le_trans hle (h.le_last id))
      · rw [aim_early hp hid]
        rintro i ⟨q, hq, hi⟩
        obtain rfl : p = q := Option.some.inj (hp.symm.trans hq)
        exact (lowest_le_iff c gaps p _).1 (Nat.le_refl _) i hi
      · intro u hneeds
        have := h.behind_le u id hneeds
        rw [behind_of_floating hfloat] at this
        exact Nat.le_trans hle this
    | late =>
      have hle := h.le_aim hc hid
      have hout : ∀ u, c.Needs u id → aim c (c.anchors sequence).length gaps id ≤ gaps.of u := by
        intro u hneeds
        rw [aim_late hp hid]
        exact highest_le ((hc.mem_outputs_iff hp u).2 hneeds)
      apply h.set hc hfloat ?_ ?_ hout
      · rw [aim_late hp hid, highest]
        cases hu : p.outputs with
        | nil => exact Nat.le_refl _
        | cons u rest =>
          have hmem : u ∈ p.outputs := by rw [hu]; exact List.mem_cons_self
          have := hout u ((hc.mem_outputs_iff hp u).1 hmem)
          rw [aim_late hp hid, highest, hu] at this
          exact Nat.le_trans this (h.le_last u)
      · intro i hneeds
        exact Nat.le_trans (h.behind_le id i hneeds) hle
    | anchor => exact (hrole rfl).elim
  · exact h

theorem foldl_move (hc : c.Wired) (role : Role) (hrole : role ≠ .anchor) (order : List Nat)
    (h : Feasible c sequence gaps) :
    Feasible c sequence (order.foldl (Gaps.move c (c.anchors sequence).length role) gaps) := by
  induction order generalizing gaps with
  | nil => exact h
  | cons id order ih => exact ih (h.move hc role hrole id)

theorem le_foldl_lower (hc : c.Wired) (order : List Nat) (h : Feasible c sequence gaps) (k : Nat) :
    gaps.of k ≤ (order.foldl (Gaps.move c (c.anchors sequence).length .late) gaps).of k := by
  induction order generalizing gaps with
  | nil => exact Nat.le_refl _
  | cons id order ih =>
    refine Nat.le_trans ?_ (ih (h.move hc .late (by simp) id))
    rw [of_move (by simp) h.length_eq]
    split
    · next hk =>
      obtain ⟨rfl, hid⟩ := hk
      exact h.le_aim hc hid
    · exact Nat.le_refl _

end Feasible

theorem takeWhile_ne_eq_take (l : List Nat) (k : Nat) :
    l.takeWhile (· ≠ k) = l.take (l.idxOf k) := by
  rw [List.takeWhile_eq_take_findIdx_not, List.idxOf]
  congr 2
  funext x
  simp [Bool.beq_eq_decide_eq]

theorem of_ofSequence {k : Nat} (hk : k < c.size) :
    (ofSequence c sequence).of k = (c.anchors (sequence.take (sequence.idxOf k))).length := by
  unfold Gaps.of ofSequence
  rw [List.getElem?_map, List.getElem?_range hk, Option.map_some, Option.getD_some,
    takeWhile_ne_eq_take]

theorem of_ofSequence_of_size_le {k : Nat} (hk : c.size ≤ k) :
    (ofSequence c sequence).of k = 0 := by
  unfold Gaps.of ofSequence
  rw [List.getElem?_eq_none (by simpa using hk), Option.getD_none]

theorem length_anchors_take_le (c : Computation) (l : List Nat) {m n : Nat} (h : m ≤ n) :
    (c.anchors (l.take m)).length ≤ (c.anchors (l.take n)).length :=
  ((List.take_prefix_take_left h).sublist.filter _).length_le

theorem feasible_ofSequence (hc : c.Wired) (ho : c.IsOrder sequence) :
    Feasible c sequence (ofSequence c sequence) := by
  refine ⟨by simp [ofSequence], fun _ _ => rfl, ?_, ?_⟩
  · intro k
    by_cases hk : k < c.size
    · rw [of_ofSequence hk]
      exact ((List.take_sublist _ _).filter _).length_le
    · rw [of_ofSequence_of_size_le (Nat.not_lt.1 hk)]
      exact Nat.zero_le _
  · intro u i hneeds
    have hlt : sequence.idxOf i < sequence.idxOf u := ho.idxOf_lt hc hneeds
    have hi : i < c.size := Nat.lt_trans (hneeds.lt hc) hneeds.lt_size
    unfold behind
    rw [of_ofSequence hneeds.lt_size, of_ofSequence hi]
    split
    · next hanchor =>
      have hplace := List.idxOf_lt_length_of_mem ((ho.mem_iff i).2 hi)
      have hnext : c.anchors (sequence.take (sequence.idxOf i + 1)) =
          c.anchors (sequence.take (sequence.idxOf i)) ++ [i] := by
        rw [List.take_succ_eq_append_getElem hplace, anchors, List.filter_append,
          List.getElem_idxOf]
        simp [anchors, hanchor]
      have hle := length_anchors_take_le c sequence hlt
      rw [Nat.succ_eq_add_one, hnext, List.length_append] at hle
      exact hle
    · exact length_anchors_take_le c sequence (Nat.le_of_lt hlt)

def Settled (c : Computation) (last : Nat) (gaps : Gaps) : Prop :=
  ∀ k, aim c last gaps k = gaps.of k

def round (c : Computation) (last : Nat) (sequence : List InstrId) (gaps : Gaps) : Gaps :=
  lowerAll c last sequence (raiseAll c sequence gaps)

theorem set_of_self (gaps : Gaps) (id : Nat) : gaps.set id (gaps.of id) = gaps := by
  by_cases h : id < gaps.length
  · apply ext_of (by simp)
    intro k
    rw [of_set _ _ _ _ h]
    split
    · next hk => rw [hk]
    · rfl
  · exact List.set_eq_of_length_le (Nat.not_lt.1 h)

theorem Settled.foldl_move (h : Settled c last gaps) (role : Role) (order : List Nat) :
    order.foldl (move c last role) gaps = gaps := by
  induction order with
  | nil => rfl
  | cons id order ih =>
    have hmove : move c last role gaps id = gaps := by
      unfold move
      rw [h id, set_of_self, ite_self]
    rw [List.foldl_cons, hmove, ih]

theorem Feasible.round (hc : c.Wired) (h : Feasible c sequence gaps) :
    Feasible c sequence (round c (c.anchors sequence).length sequence gaps) := by
  unfold Gaps.round
  rw [raiseAll_eq (c.anchors sequence).length, lowerAll_eq]
  exact (h.foldl_move hc .early (by simp) _).foldl_move hc .late (by simp) _

/-- After one round nothing would move any more. An early instruction has reached the lowest gap
that its inputs allow; when late inputs move down afterwards, they stop at that gap. -/
theorem Feasible.settled_round (hc : c.Wired) (ho : c.IsOrder sequence)
    (h : Feasible c sequence gaps) :
    Settled c (c.anchors sequence).length
      (Gaps.round c (c.anchors sequence).length sequence gaps) := by
  have hpairs := ((isOrder_iff_pairwise hc).1 ho).2
  have hfinal := h.round hc
  unfold Gaps.round at hfinal ⊢
  rw [raiseAll_eq (c.anchors sequence).length, lowerAll_eq] at hfinal ⊢
  have hraised := h.foldl_move hc .early (by simp) sequence
  intro k
  cases hrole : c.roleOf k with
  | anchor => exact aim_anchor hrole
  | late =>
    obtain ⟨p, hp⟩ := exists_of_floating (c := c) (k := k) (by simp [hrole])
    have hk : k ∈ sequence.reverse :=
      List.mem_reverse.2 ((ho.mem_iff k).2 (lt_size_of_instruction? hp))
    exact (foldl_move_final hc .late (by simp) sequence.reverse (List.nodup_reverse.2 ho.nodup)
      (List.pairwise_reverse.2 hpairs) hraised.length_eq hk hrole).symm
  | early =>
    obtain ⟨p, hp⟩ := exists_of_floating (c := c) (k := k) (by simp [hrole])
    have hk : k ∈ sequence := (ho.mem_iff k).2 (lt_size_of_instruction? hp)
    apply Nat.le_antisymm (hfinal.aim_le hrole)
    rw [of_foldl_move .late (by simp) sequence.reverse hraised.length_eq
        (Or.inr (by simp [hrole])),
      foldl_move_final hc .early (by simp) sequence ho.nodup hpairs h.length_eq hk hrole,
      aim_early hp hrole, aim_early hp hrole, lowest_le_iff]
    intro i hi
    exact Nat.le_trans (behind_mono (hraised.le_foldl_lower hc sequence.reverse i))
      ((lowest_le_iff c _ p _).1 (Nat.le_refl _) i hi)

theorem lowerAll_eq_self (hlen : gaps.length = c.size) (hlate : ∀ k, c.roleOf k ≠ .late) :
    lowerAll c last sequence gaps = gaps := by
  rw [lowerAll_eq]
  apply ext_of (length_foldl_move _ _ _)
  intro k
  exact of_foldl_move .late (by simp) _ hlen (Or.inr (hlate k))

theorem one_le_rounds_of_late (hc : c.Wired) {k : Nat} (hk : c.roleOf k = .late) (last : Nat) :
    1 ≤ (c.instructions.countP fun p => c.roleOf p.id = .late) * (last + 1) := by
  obtain ⟨p, hp⟩ := exists_of_floating (c := c) (k := k) (by simp [hk])
  have hmem : p ∈ c.instructions := (mem_instructions_iff c p).2 ⟨k, hp⟩
  have hpos : 0 < c.instructions.countP fun p => c.roleOf p.id = .late :=
    List.countP_pos_iff.2 ⟨p, hmem, by simp [hc.id_eq k p hp, hk]⟩
  exact Nat.mul_pos hpos (Nat.succ_pos last)

/-- The rounds that are allowed suffice, and the result is that of the first. -/
theorem settle_eq_round (hc : c.Wired) (ho : c.IsOrder sequence) (h : Feasible c sequence gaps) :
    settle c (c.anchors sequence).length sequence (c.maxRounds (c.anchors sequence).length) gaps =
      some (Gaps.round c (c.anchors sequence).length sequence gaps) := by
  have hsettled := h.settled_round hc ho
  have hraised : (raiseAll c sequence gaps).length = c.size := by
    rw [raiseAll_eq 0, length_foldl_move, h.length_eq]
  unfold maxRounds
  rw [settle]
  split
  · rfl
  · next hmoved =>
    -- Something moved down, so there is a late instruction and at least one more round.
    have hlate : ∃ k, c.roleOf k = .late := by
      by_contra hnone
      exact hmoved (lowerAll_eq_self hraised fun k hk => hnone ⟨k, hk⟩)
    obtain ⟨k, hk⟩ := hlate
    obtain ⟨more, hmore⟩ := Nat.exists_eq_add_of_le (one_le_rounds_of_late hc hk
      (c.anchors sequence).length)
    rw [hmore, Nat.add_comm 1 more, settle]
    change (if _ then _ else _) = _
    rw [raiseAll_eq (c.anchors sequence).length, lowerAll_eq]
    unfold Gaps.round at hsettled ⊢
    simp only [hsettled.foldl_move, if_true]

end Gaps

end LatencyHiding
