import LatencyHiding.Proofs.Floating.Order

set_option autoImplicit false

namespace LatencyHiding

namespace Gaps

variable {c : Computation} {last : Nat} {gaps : Gaps} {p : Placed}

theorem exists_behind_eq_lowest (h : 0 < lowest c gaps p) :
    ∃ i ∈ p.inputs, behind c gaps i = lowest c gaps p := by
  have hle := (lowest_le_iff c gaps p _).1 (Nat.le_refl _)
  by_contra hnone
  have hless : lowest c gaps p ≤ lowest c gaps p - 1 := by
    apply (lowest_le_iff c gaps p _).2
    intro i hi
    have hne : behind c gaps i ≠ lowest c gaps p := fun heq => hnone ⟨i, hi, heq⟩
    have := hle i hi
    omega
  omega

theorem exists_of_eq_highest (h : p.outputs ≠ []) :
    ∃ u ∈ p.outputs, gaps.of u = highest last gaps p := by
  by_contra hnone
  have hmore : highest last gaps p + 1 ≤ highest last gaps p := by
    apply (le_highest_iff last gaps p _).2
    refine ⟨fun hnil => absurd hnil h, ?_⟩
    intro u hu
    have hne : gaps.of u ≠ highest last gaps p := fun heq => hnone ⟨u, hu, heq⟩
    have hle : highest last gaps p ≤ gaps.of u := highest_le hu
    omega
  omega

theorem behind_of_anchor {i : Nat} (hi : c.roleOf i = .anchor) :
    behind c gaps i = gaps.of i + 1 := if_pos hi

theorem highest_of_unused (h : p.outputs = []) : highest last gaps p = last := by
  simp [highest, h]

end Gaps

namespace Computation

variable {c : Computation} {out : List InstrId}

theorem anchors_cons_anchor {a : Nat} (h : c.roleOf a = .anchor) (l : List Nat) :
    c.anchors (a :: l) = a :: c.anchors l := List.filter_cons_of_pos (by simpa using h)

theorem anchors_cons_floating {k : Nat} (h : c.roleOf k ≠ .anchor) (l : List Nat) :
    c.anchors (k :: l) = c.anchors l := List.filter_cons_of_neg (by simpa using h)

theorem exists_last_anchor {front : List Nat} (h : c.anchors front ≠ []) :
    ∃ earlier anchor between, front = earlier ++ anchor :: between ∧
      c.roleOf anchor = .anchor ∧ c.anchors between = [] := by
  obtain ⟨others, anchor, hsplit⟩ := (List.eq_nil_or_concat' (c.anchors front)).resolve_left h
  obtain ⟨far, near, rfl, _, hnear⟩ := List.filter_eq_append_iff.1 hsplit
  obtain ⟨skipped, between, rfl, _, hanchor, hbetween⟩ := List.filter_eq_cons_iff.1 hnear
  exact ⟨far ++ skipped, anchor, between, by simp, by simpa using hanchor, hbetween⟩

theorem exists_first_anchor {back : List Nat} (h : c.anchors back ≠ []) :
    ∃ between anchor later, back = between ++ anchor :: later ∧
      c.roleOf anchor = .anchor ∧ c.anchors between = [] := by
  obtain ⟨anchor, others, hsplit⟩ := List.exists_cons_of_ne_nil h
  obtain ⟨between, later, rfl, hbetween, hanchor, _⟩ := List.filter_eq_cons_iff.1 hsplit
  exact ⟨between, anchor, later, rfl, by simpa using hanchor, List.filter_eq_nil_iff.2 hbetween⟩

namespace IsOrder

theorem gap_eq (ho : c.IsOrder out) {front back : List Nat} {k : Nat}
    (hsplit : out = front ++ k :: back) :
    (Gaps.ofSequence c out).of k = (c.anchors front).length := by
  have hk : k < c.size := (ho.mem_iff k).1 (by rw [hsplit]; simp)
  have nodup := ho.nodup
  rw [hsplit] at nodup ⊢
  apply of_ofSequence_append hk
  intro hmem
  exact (List.nodup_append.1 nodup).2.2 k hmem k List.mem_cons_self rfl

theorem gap_le_of_mem (ho : c.IsOrder out) {front back : List Nat} {k : Nat}
    (hsplit : out = front ++ back) (hk : k ∈ front) :
    (Gaps.ofSequence c out).of k ≤ (c.anchors front).length := by
  obtain ⟨before, after, rfl⟩ := List.append_of_mem hk
  rw [ho.gap_eq (hsplit.trans (List.append_assoc ..)), anchors_append, List.length_append]
  exact Nat.le_add_right ..

theorem le_gap_of_mem (ho : c.IsOrder out) {front back : List Nat} {k : Nat}
    (hsplit : out = front ++ back) (hk : k ∈ back) :
    (c.anchors front).length ≤ (Gaps.ofSequence c out).of k := by
  obtain ⟨before, after, rfl⟩ := List.append_of_mem hk
  rw [ho.gap_eq (hsplit.trans (List.append_assoc ..).symm), anchors_append, List.length_append]
  exact Nat.le_add_right ..

theorem anchor_unique (ho : c.IsOrder out) {a b : Nat} (ha : a ∈ out) (hb : b ∈ out)
    (hanchor : c.roleOf a = .anchor) (hanchor' : c.roleOf b = .anchor)
    (hgap : (Gaps.ofSequence c out).of a = (Gaps.ofSequence c out).of b) : a = b := by
  have ha := (anchors_getElem?_eq_some_iff ho _ a).2 ⟨ha, hanchor, hgap⟩
  have hb := (anchors_getElem?_eq_some_iff ho _ b).2 ⟨hb, hanchor', rfl⟩
  exact Option.some.inj (ha.symm.trans hb)

theorem mem_front_of_needs (hc : c.Wired) (ho : c.IsOrder out) {front back : List Nat}
    {user input : Nat} (hsplit : out = front ++ user :: back) (hneeds : c.Needs user input) :
    input ∈ front := by
  have hmem : input ∈ out := (ho.mem_iff input).2 (Nat.lt_trans (hneeds.lt hc) hneeds.lt_size)
  have hpairs := ((isOrder_iff_pairwise hc).1 ho).2
  rw [hsplit] at hmem hpairs
  rcases List.mem_append.1 hmem with hfront | hback
  · exact hfront
  · rcases List.mem_cons.1 hback with rfl | hback
    · exact absurd hneeds (hc.not_needs_self input)
    · exact absurd hneeds ((List.pairwise_cons.1 (List.pairwise_append.1 hpairs).2.1).1 input hback)

theorem mem_back_of_needs (hc : c.Wired) (ho : c.IsOrder out) {front back : List Nat}
    {user input : Nat} (hsplit : out = front ++ input :: back) (hneeds : c.Needs user input) :
    user ∈ back := by
  have hmem : user ∈ out := (ho.mem_iff user).2 hneeds.lt_size
  have hpairs := ((isOrder_iff_pairwise hc).1 ho).2
  rw [hsplit] at hmem hpairs
  rcases List.mem_append.1 hmem with hfront | hback
  · exact absurd hneeds ((List.pairwise_append.1 hpairs).2.2 user hfront input List.mem_cons_self)
  · rcases List.mem_cons.1 hback with rfl | hback
    · exact absurd hneeds (hc.not_needs_self user)
    · exact hback

end IsOrder

section Settled

variable (hc : c.Wired) (ho : c.IsOrder out)
  (settled : Gaps.Settled c (c.anchors out).length (.ofSequence c out))

include hc ho settled

theorem early_kept {front back : List Nat} {e : Nat} {p : Placed}
    (hsplit : out = front ++ e :: back) (hp : c.instruction? e = some p)
    (hrole : c.roleOf e = .early) : c.anchors front = [] ∨
      ∃ earlier anchor between, front = earlier ++ anchor :: between ∧
        c.roleOf anchor = .anchor ∧ c.anchors between = [] ∧
        (anchor ∈ p.inputs ∨ ∃ k ∈ between, k ∈ p.inputs) := by
  refine or_iff_not_imp_left.2 fun hsome => ?_
  obtain ⟨earlier, anchor, between, rfl, hanchor, hbetween⟩ := exists_last_anchor hsome
  refine ⟨earlier, anchor, between, rfl, hanchor, hbetween, ?_⟩
  have hgap : (Gaps.ofSequence c out).of e = (c.anchors earlier).length + 1 := by
    rw [ho.gap_eq hsplit, anchors_append, anchors_cons_anchor hanchor, hbetween,
      List.length_append, List.length_singleton]
  have hsplit' : out = earlier ++ anchor :: (between ++ e :: back) := by simp [hsplit]
  have hlowest : Gaps.lowest c (.ofSequence c out) p = (c.anchors earlier).length + 1 := by
    rw [← Gaps.aim_early hp hrole, settled e, hgap]
  -- some input decides about the gap of `e`
  obtain ⟨i, hi, hbehind⟩ :=
    Gaps.exists_behind_eq_lowest (Nat.lt_of_lt_of_eq (Nat.succ_pos _) hlowest.symm)
  have hfront := ho.mem_front_of_needs hc hsplit ⟨p, hp, hi⟩
  rw [hlowest] at hbehind
  by_cases hfloats : c.roleOf i = .anchor
  · left
    rw [Gaps.behind_of_anchor hfloats] at hbehind
    have heq : anchor = i := by
      apply ho.anchor_unique _ _ hanchor hfloats
      · rw [ho.gap_eq hsplit']
        omega
      · simp [hsplit']
      · rw [hsplit]
        exact List.mem_append_left _ hfront
    rwa [heq]
  · right
    rw [Gaps.behind_of_floating hfloats] at hbehind
    refine ⟨i, ?_, hi⟩
    rcases List.mem_append.1 hfront with hearlier | hnear
    · have := ho.gap_le_of_mem hsplit' hearlier
      omega
    · exact (List.mem_cons.1 hnear).resolve_left fun heq => hfloats (heq ▸ hanchor)

theorem late_kept {front back : List Nat} {l : Nat} {p : Placed}
    (hsplit : out = front ++ l :: back) (hp : c.instruction? l = some p)
    (hrole : c.roleOf l = .late) : c.anchors back = [] ∨
      ∃ between anchor later, back = between ++ anchor :: later ∧
        c.roleOf anchor = .anchor ∧ c.anchors between = [] ∧
        (anchor ∈ p.outputs ∨ ∃ k ∈ between, k ∈ p.outputs) := by
  refine or_iff_not_imp_left.2 fun hsome => ?_
  obtain ⟨between, anchor, later, rfl, hanchor, hbetween⟩ := exists_first_anchor hsome
  refine ⟨between, anchor, later, rfl, hanchor, hbetween, ?_⟩
  have hl : c.anchors (l :: between) = [] := by
    rw [anchors_cons_floating (by simp [hrole]), hbetween]
  have hsplit' : out = (front ++ l :: between) ++ anchor :: later := by simp [hsplit]
  have hgap : (Gaps.ofSequence c out).of anchor = (c.anchors front).length := by
    rw [ho.gap_eq hsplit', anchors_append, hl, List.append_nil]
  have hhighest :
      Gaps.highest (c.anchors out).length (.ofSequence c out) p = (c.anchors front).length := by
    rw [← Gaps.aim_late hp hrole, settled l, ho.gap_eq hsplit]
  -- the last gap has no anchor, so some user decides about the gap of `l`
  have hused : p.outputs ≠ [] := by
    intro hnil
    rw [Gaps.highest_of_unused hnil, hsplit', anchors_append, anchors_append,
      anchors_cons_anchor hanchor] at hhighest
    simp at hhighest
  obtain ⟨u, hu, hof⟩ := Gaps.exists_of_eq_highest hused
  rw [hhighest] at hof
  have hback := ho.mem_back_of_needs hc hsplit ((hc.mem_outputs_iff hp u).1 hu)
  by_cases hfloats : c.roleOf u = .anchor
  · left
    have heq : anchor = u := by
      apply ho.anchor_unique _ _ hanchor hfloats (hgap.trans hof.symm)
      · simp [hsplit']
      · rw [hsplit]
        exact List.mem_append_right _ (List.mem_cons_of_mem l hback)
    rwa [heq]
  · right
    refine ⟨u, ?_, hu⟩
    rcases List.mem_append.1 hback with hnear | hfar
    · exact hnear
    · rcases List.mem_cons.1 hfar with heq | hlater
      · exact absurd (heq ▸ hanchor) hfloats
      · have hle := ho.le_gap_of_mem (hsplit'.trans (List.append_cons ..)) hlater
        rw [anchors_append, anchors_append, anchors_cons_anchor hanchor, List.length_append,
          List.length_append] at hle
        simp only [hl, List.length_nil, List.length_cons] at hle
        omega

end Settled

/-- Floating goes as far as it can. An early instruction ends up in front of all anchors, or an
input of it is the last anchor in front of it or floats between the two; a late instruction ends up
behind all anchors, or one of those that wait for it is the next anchor or floats before that. -/
theorem kept_of_float {sequence : List InstrId} (hc : c.Built) (ho : c.IsOrder sequence)
    (h : c.float sequence = .ok out) :
    (∀ front e back p, out = front ++ e :: back → c.instruction? e = some p →
      c.roleOf e = .early → c.anchors front = [] ∨
        ∃ earlier anchor between, front = earlier ++ anchor :: between ∧
          c.roleOf anchor = .anchor ∧ c.anchors between = [] ∧
          (anchor ∈ p.inputs ∨ ∃ k ∈ between, k ∈ p.inputs)) ∧
    ∀ front l back p, out = front ++ l :: back → c.instruction? l = some p →
      c.roleOf l = .late → c.anchors back = [] ∨
        ∃ between anchor later, back = between ++ anchor :: later ∧
          c.roleOf anchor = .anchor ∧ c.anchors between = [] ∧
          (anchor ∈ p.outputs ∨ ∃ k ∈ between, k ∈ p.outputs) := by
  have hw := hc.wired
  obtain ⟨horder, hanchors, hgaps⟩ := isOrder_and_anchors_of_float hw ho h
  have hsettled : Gaps.Settled c (c.anchors out).length (.ofSequence c out) := by
    rw [hanchors, hgaps]
    exact (Gaps.feasible_ofSequence hw ho).settled_round hw ho
  exact ⟨fun _ _ _ _ => early_kept hw horder hsettled, fun _ _ _ _ => late_kept hw horder hsettled⟩

theorem kept_float_overlapping :
    (∃ earlier anchor between, [0, 1, 3, 5, 2] = earlier ++ anchor :: between ∧
      overlapping.roleOf anchor = .anchor ∧ overlapping.anchors between = [] ∧
      (anchor ∈ [2, 3] ∨ ∃ k ∈ between, k ∈ [2, 3])) ∧
    ∃ between anchor later, [4, 6, 7] = between ++ anchor :: later ∧
      overlapping.roleOf anchor = .anchor ∧ overlapping.anchors between = [] ∧
      (anchor ∈ [4] ∨ ∃ k ∈ between, k ∈ [4]) := by
  obtain ⟨early, late⟩ := kept_of_float built_overlapping
    built_overlapping.wired.isOrder_postOrder float_overlapping
  exact ⟨(early [0, 1, 3, 5, 2] 4 [6, 7] _ rfl rfl (by decide)).resolve_left (by decide),
    (late [0, 1, 3, 5] 2 [4, 6, 7] _ rfl rfl (by decide)).resolve_left (by decide)⟩

end Computation

end LatencyHiding
