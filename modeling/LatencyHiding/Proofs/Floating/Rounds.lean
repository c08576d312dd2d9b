import LatencyHiding.Proofs.Floating.Order

set_option autoImplicit false

namespace LatencyHiding

open LatencyHiding.Computation

namespace Gaps

variable {c : Computation} {sequence : List InstrId} {last : Nat} {gaps : Gaps}

inductive Turn where
  | up (id : InstrId)
  | down (id : InstrId)

def takeTurn (c : Computation) (last : Nat) (gaps : Gaps) : Turn → Gaps
  | .up id => raise c gaps id
  | .down id => lower c last gaps id

def turns (sequence : List InstrId) : List Turn :=
  sequence.map .up ++ sequence.reverse.map .down

def course (c : Computation) (last : Nat) (sequence : List InstrId) (n : Nat) (gaps : Gaps) :
    List Gaps :=
  (List.replicate n (turns sequence)).flatten.scanl (takeTurn c last) gaps

/-- From one state to a later one, late instructions have moved only down and early ones only up. -/
structure Drifts (c : Computation) (earlier later : Gaps) : Prop where
  late_le : ∀ k, c.roleOf k = .late → earlier.of k ≤ later.of k
  early_le : ∀ k, c.roleOf k = .early → later.of k ≤ earlier.of k

theorem Drifts.refl (c : Computation) (gaps : Gaps) : Drifts c gaps gaps :=
  ⟨fun _ _ => Nat.le_refl _, fun _ _ => Nat.le_refl _⟩

theorem Drifts.trans {g h k : Gaps} (hgh : Drifts c g h) (hhk : Drifts c h k) : Drifts c g k :=
  ⟨fun id hid => Nat.le_trans (hgh.late_le id hid) (hhk.late_le id hid),
    fun id hid => Nat.le_trans (hhk.early_le id hid) (hgh.early_le id hid)⟩

theorem exists_takeTurn_eq_move (c : Computation) (last : Nat) (gaps : Gaps) (turn : Turn) :
    ∃ role id, role ≠ .anchor ∧ takeTurn c last gaps turn = move c last role gaps id := by
  cases turn with
  | up id => exact ⟨.early, id, by simp, raise_eq_move last gaps id⟩
  | down id => exact ⟨.late, id, by simp, lower_eq_move gaps id⟩

theorem Feasible.drifts_move (hc : c.Wired) (h : Feasible c sequence gaps) {role : Role}
    (hrole : role ≠ .anchor) (id : Nat) :
    Drifts c gaps (Gaps.move c (c.anchors sequence).length role gaps id) := by
  constructor
  · intro k hk
    rw [of_move hrole h.length_eq]
    split
    · next hmoved =>
      obtain ⟨rfl, _⟩ := hmoved
      exact h.le_aim hc hk
    · exact Nat.le_refl _
  · intro k hk
    rw [of_move hrole h.length_eq]
    split
    · next hmoved =>
      obtain ⟨rfl, _⟩ := hmoved
      exact h.aim_le hk
    · exact Nat.le_refl _

theorem Feasible.turn (hc : c.Wired) (h : Feasible c sequence gaps) (turn : Turn) :
    Feasible c sequence (takeTurn c (c.anchors sequence).length gaps turn) ∧
      Drifts c gaps (takeTurn c (c.anchors sequence).length gaps turn) := by
  obtain ⟨role, id, hrole, hmove⟩ := exists_takeTurn_eq_move c (c.anchors sequence).length gaps turn
  rw [hmove]
  exact ⟨h.move hc role hrole id, h.drifts_move hc hrole id⟩

theorem Feasible.scanl_takeTurn (hc : c.Wired) (h : Feasible c sequence gaps) (l : List Turn) :
    (∀ g ∈ l.scanl (takeTurn c (c.anchors sequence).length) gaps,
      Feasible c sequence g ∧ Drifts c gaps g) ∧
    (l.scanl (takeTurn c (c.anchors sequence).length) gaps).Pairwise (Drifts c) := by
  induction l generalizing gaps with
  | nil => simp [h, Drifts.refl]
  | cons turn l ih =>
    obtain ⟨hnext, hdrift⟩ := h.turn hc turn
    obtain ⟨hall, hpairs⟩ := ih hnext
    have hlater : ∀ g ∈ l.scanl (takeTurn c (c.anchors sequence).length)
        (takeTurn c (c.anchors sequence).length gaps turn),
        Feasible c sequence g ∧ Drifts c gaps g := by
      intro g hg
      exact ⟨(hall g hg).1, hdrift.trans (hall g hg).2⟩
    rw [List.scanl_cons]
    exact ⟨List.forall_mem_cons.2 ⟨⟨h, Drifts.refl c gaps⟩, hlater⟩,
      List.pairwise_cons.2 ⟨fun g hg => (hlater g hg).2, hpairs⟩⟩

theorem foldl_turns (gaps : Gaps) :
    (turns sequence).foldl (takeTurn c last) gaps = round c last sequence gaps := by
  rw [turns, List.foldl_append, List.foldl_map, List.foldl_map]
  rfl

theorem Settled.round_eq (h : Settled c last gaps) : round c last sequence gaps = gaps := by
  rw [round, raiseAll_eq last, lowerAll_eq, h.foldl_move, h.foldl_move]

theorem Settled.settle_eq (h : Settled c last gaps) (bound : Nat) :
    settle c last sequence (bound + 1) gaps = some gaps := by
  have hraised : raiseAll c sequence gaps = gaps := by rw [raiseAll_eq last, h.foldl_move]
  have hlowered : lowerAll c last sequence gaps = gaps := by rw [lowerAll_eq, h.foldl_move]
  simp only [settle, hraised, hlowered, if_true]

/-- A run that is settled by its first round ends with it, or with the second if the first one moved
something down. -/
theorem settle_of_settled_round (h : Settled c last (round c last sequence gaps)) :
    ∃ n, 0 < n ∧ n ≤ 2 ∧ ∀ bound, settle c last sequence bound gaps =
      if bound < n then none else some (round c last sequence gaps) := by
  by_cases hstop : lowerAll c last sequence (raiseAll c sequence gaps) = raiseAll c sequence gaps
  · refine ⟨1, Nat.one_pos, by omega, ?_⟩
    intro bound
    cases bound with
    | zero => rfl
    | succ bound =>
      have hfirst : settle c last sequence (bound + 1) gaps =
          some (round c last sequence gaps) := by
        rw [settle]
        exact if_pos hstop
      rw [hfirst, if_neg (by omega)]
  · refine ⟨2, Nat.two_pos, Nat.le_refl 2, ?_⟩
    intro bound
    have hfirst (bound : Nat) : settle c last sequence (bound + 1) gaps =
        settle c last sequence bound (round c last sequence gaps) := by
      rw [settle]
      exact if_neg hstop
    -- the second round finds the gaps settled and stops
    rcases bound with _ | _ | bound
    · rfl
    · exact hfirst 0
    · rw [hfirst, h.settle_eq, if_neg (by omega)]

theorem getLast?_course (h : Settled c last (round c last sequence gaps)) {n : Nat} (hn : 0 < n) :
    (course c last sequence n gaps).getLast? = some (round c last sequence gaps) := by
  -- whatever rounds come after the first change nothing
  have hrepeat (m : Nat) (g : Gaps) (hg : Settled c last g) :
      (List.replicate m (turns sequence)).flatten.foldl (takeTurn c last) g = g := by
    induction m with
    | zero => rfl
    | succ m ih =>
      rw [List.replicate_succ, List.flatten_cons, List.foldl_append, foldl_turns,
        hg.round_eq, ih]
  obtain ⟨m, rfl⟩ : ∃ m, n = m + 1 := ⟨n - 1, by omega⟩
  rw [course, List.getLast?_scanl, List.replicate_succ, List.flatten_cons, List.foldl_append,
    foldl_turns, hrepeat m _ h]

/-- Floating settles at once: its rounds stop after the first or the second, whatever more is
allowed, and that is within the bound. In the course of them everything stays between its inputs and
its users, late instructions never move up and early ones never down. -/
theorem settles_within_two_rounds (built : c.Built) (ho : c.IsOrder sequence) :
    ∃ n out, n ≤ 2 ∧ n ≤ c.maxRounds (c.anchors sequence).length ∧
      (∀ bound, settle c (c.anchors sequence).length sequence bound (ofSequence c sequence) =
        if bound < n then none else some out) ∧
      (course c (c.anchors sequence).length sequence n (ofSequence c sequence)).getLast? =
        some out ∧
      (∀ gaps ∈ course c (c.anchors sequence).length sequence n (ofSequence c sequence),
        Feasible c sequence gaps ∧ Drifts c (ofSequence c sequence) gaps) ∧
      (course c (c.anchors sequence).length sequence n (ofSequence c sequence)).Pairwise
        (Drifts c) := by
  have hc := built.wired
  have hstart := feasible_ofSequence hc ho
  have hsettled := hstart.settled_round hc ho
  obtain ⟨n, hpos, htwo, hruns⟩ := settle_of_settled_round hsettled
  refine ⟨n, _, htwo, ?_, hruns, getLast?_course hsettled hpos, hstart.scanl_takeTurn hc _⟩
  -- with fewer rounds allowed the run would not have ended
  by_contra hshort
  have hallowed := settle_eq_round hc ho hstart
  rw [hruns, if_pos (Nat.lt_of_not_le hshort)] at hallowed
  cases hallowed

theorem settles_overlapping :
    overlapping.Built ∧ overlapping.IsOrder overlapping.postOrder ∧
    settle overlapping 3 overlapping.postOrder 1 (ofSequence overlapping overlapping.postOrder) =
      none ∧
    ∃ out, settle overlapping 3 overlapping.postOrder 2
        (ofSequence overlapping overlapping.postOrder) = some out ∧
      (course overlapping 3 overlapping.postOrder 2
        (ofSequence overlapping overlapping.postOrder)).getLast? = some out ∧
      ∀ gaps ∈ course overlapping 3 overlapping.postOrder 2
        (ofSequence overlapping overlapping.postOrder),
        Feasible overlapping overlapping.postOrder gaps ∧
          Drifts overlapping (ofSequence overlapping overlapping.postOrder) gaps := by
  have ho := built_overlapping.wired.isOrder_postOrder
  have hone : settle overlapping 3 overlapping.postOrder 1
    (ofSequence overlapping overlapping.postOrder) = none := by decide
  obtain ⟨n, out, htwo, _, hruns, hlast, hall, _⟩ :=
    settles_within_two_rounds built_overlapping ho
  have hanchors : (overlapping.anchors overlapping.postOrder).length = 3 := by decide
  rw [hanchors] at hruns hlast hall
  have hmore : 1 < n := by
    by_contra hless
    rw [hruns, if_neg hless] at hone
    cases hone
  obtain rfl : n = 2 := Nat.le_antisymm htwo hmore
  exact ⟨built_overlapping, ho, hone, out, by rw [hruns, if_neg (Nat.lt_irrefl 2)], hlast, hall⟩

end Gaps

end LatencyHiding
