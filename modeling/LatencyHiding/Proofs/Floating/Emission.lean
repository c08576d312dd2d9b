import LatencyHiding.Proofs.Floating.Gaps
import Mathlib.Data.List.Perm.Basic

set_option autoImplicit false

namespace LatencyHiding.Computation

variable {c : Computation} {bucket done : List Nat}

theorem comesBefore_iff (c : Computation) (a b : Nat) : c.comesBefore a b = true ↔
    (c.roleOf a ≠ .late ∧ c.roleOf b = .late) ∨
      ((c.roleOf a = .late ↔ c.roleOf b = .late) ∧ a < b) := by
  unfold comesBefore
  by_cases ha : c.roleOf a = .late <;> by_cases hb : c.roleOf b = .late <;> simp [ha, hb]

theorem comesBefore_trans {a b d : Nat} (hab : c.comesBefore a b) (hbd : c.comesBefore b d) :
    c.comesBefore a d := by
  rw [comesBefore_iff] at *
  rcases hab with ⟨ha, hb⟩ | ⟨hab, hlt⟩ <;> rcases hbd with ⟨hb', hd⟩ | ⟨hbd, hlt'⟩
  · exact (hb' hb).elim
  · exact Or.inl ⟨ha, hbd.1 hb⟩
  · exact Or.inl ⟨mt hab.1 hb', hd⟩
  · exact Or.inr ⟨hab.trans hbd, Nat.lt_trans hlt hlt'⟩

theorem comesBefore_asymm {a b : Nat} (hab : c.comesBefore a b) : ¬ c.comesBefore b a := by
  intro hba
  have := comesBefore_trans hab hba
  rw [comesBefore_iff] at this
  rcases this with ⟨h, h'⟩ | ⟨_, hlt⟩
  · exact h h'
  · exact Nat.lt_irrefl a hlt

theorem comesBefore_of_not {a b : Nat} (hne : a ≠ b) (h : ¬ c.comesBefore a b) :
    c.comesBefore b a := by
  rw [comesBefore_iff] at *
  by_cases ha : c.roleOf a = .late <;> by_cases hb : c.roleOf b = .late <;> simp_all <;> omega

theorem foldl_comesBefore (c : Computation) (first : Nat) (rest : List Nat) :
    let best := rest.foldl (fun best id => if c.comesBefore id best then id else best) first
    best ∈ first :: rest ∧ ∀ j ∈ first :: rest, j = best ∨ c.comesBefore best j := by
  induction rest generalizing first with
  | nil => simp
  | cons id rest ih =>
    rw [List.foldl_cons]
    split
    · next hwins =>
      obtain ⟨hmem, hleast⟩ := ih id
      refine ⟨List.mem_cons_of_mem first hmem, ?_⟩
      intro j hj
      rcases List.mem_cons.1 hj with rfl | hj
      · rcases hleast id List.mem_cons_self with heq | hbefore
        · exact Or.inr (heq ▸ hwins)
        · exact Or.inr (comesBefore_trans hbefore hwins)
      · exact hleast j hj
    · next hloses =>
      obtain ⟨hmem, hleast⟩ := ih first
      refine ⟨?_, ?_⟩
      · rcases List.mem_cons.1 hmem with heq | hmem
        · exact List.mem_cons.2 (Or.inl heq)
        · exact List.mem_cons_of_mem first (List.mem_cons_of_mem id hmem)
      · intro j hj
        rcases List.mem_cons.1 hj with rfl | hj
        · exact hleast j List.mem_cons_self
        rcases List.mem_cons.1 hj with rfl | hj
        · by_cases hsame : j = first
          · subst hsame
            exact hleast j List.mem_cons_self
          · have hfirst := comesBefore_of_not hsame hloses
            rcases hleast first List.mem_cons_self with heq | hbefore
            · exact Or.inr (heq ▸ hfirst)
            · exact Or.inr (comesBefore_trans hbefore hfirst)
        · exact hleast j (List.mem_cons_of_mem first hj)

theorem mem_free_iff (w : Waiting) (id : Nat) :
    id ∈ (w.filter (·.2 = 0)).map (·.1) ↔ (id, 0) ∈ w := by
  simp

theorem firstFree?_eq_none_iff (c : Computation) (w : Waiting) :
    c.firstFree? w = none ↔ ∀ id, (id, 0) ∉ w := by
  unfold firstFree?
  split
  · next hfree =>
    simp only [true_iff]
    intro id hid
    rw [← mem_free_iff, hfree] at hid
    exact List.not_mem_nil hid
  · next id rest hfree =>
    simp only [reduceCtorEq, false_iff]
    intro hnone
    apply hnone id
    rw [← mem_free_iff, hfree]
    exact List.mem_cons_self

theorem firstFree?_eq_some_iff (c : Computation) (w : Waiting) (id : Nat) :
    c.firstFree? w = some id ↔
      (id, 0) ∈ w ∧ ∀ j, (j, 0) ∈ w → j = id ∨ c.comesBefore id j := by
  unfold firstFree?
  simp only [← mem_free_iff]
  cases (w.filter (·.2 = 0)).map (·.1) with
  | nil => simp
  | cons first rest =>
    obtain ⟨hmem, hleast⟩ := foldl_comesBefore c first rest
    simp only [Option.some.injEq]
    constructor
    · rintro rfl
      exact ⟨hmem, hleast⟩
    · rintro ⟨hid, hid_least⟩
      rcases hleast id hid with heq | hbefore
      · exact heq.symm
      · rcases hid_least _ hmem with heq | hafter
        · exact heq
        · exact (comesBefore_asymm hbefore hafter).elim

theorem firstFree?_perm {w w' : Waiting} (h : w.Perm w') : c.firstFree? w = c.firstFree? w' := by
  cases hw' : c.firstFree? w' with
  | none =>
    rw [firstFree?_eq_none_iff] at hw' ⊢
    intro id hid
    exact hw' id (h.mem_iff.1 hid)
  | some id =>
    rw [firstFree?_eq_some_iff] at hw' ⊢
    refine ⟨h.mem_iff.2 hw'.1, ?_⟩
    intro j hj
    exact hw'.2 j (h.mem_iff.1 hj)

theorem foldl_relax (outputs : List Nat) (w : Waiting) :
    outputs.foldl relax w = w.map fun e => (e.1, e.2 - outputs.count e.1) := by
  induction outputs generalizing w with
  | nil => simp
  | cons o outputs ih =>
    rw [List.foldl_cons, ih, relax, List.map_map]
    apply List.map_congr_left
    rintro ⟨id, n⟩ _
    by_cases h : id = o
    · subst h
      simp
      omega
    · simp [h, Ne.symm h]

theorem emit_perm (c : Computation) (n : Nat) {w w' : Waiting} (h : w.Perm w') :
    c.emit n w = c.emit n w' := by
  induction n generalizing w w' with
  | zero => rfl
  | succ n ih =>
    rw [emit, emit, firstFree?_perm h]
    cases c.firstFree? w' with
    | none => rfl
    | some id =>
      have hrest (outputs : List Nat) : (outputs.foldl relax (w.filter (·.1 ≠ id))).Perm
          (outputs.foldl relax (w'.filter (·.1 ≠ id))) := by
        rw [foldl_relax, foldl_relax]
        exact (h.filter _).map _
      simp only [ih (hrest _)]

/-- Instruction `user` lists `input` more than once as an operand, or more than once as a control
predecessor. -/
def Repeats (c : Computation) (user input : Nat) : Prop :=
  ∃ p, c.instruction? user = some p ∧
    (1 < p.operands.count input ∨ 1 < p.controlPredecessors.count input)

def inputsOf (c : Computation) (id : Nat) : List Nat :=
  ((c.instruction? id).map fun p => p.inputs).getD []

def outputsOf (c : Computation) (id : Nat) : List Nat :=
  ((c.instruction? id).map (·.outputs)).getD []

theorem inputsOf_eq {k : Nat} {p : Placed} (hp : c.instruction? k = some p) :
    c.inputsOf k = p.operands ++ p.controlPredecessors := by
  simp [inputsOf, hp, Instruction.inputs]

theorem mem_inputsOf_iff (k j : Nat) : j ∈ c.inputsOf k ↔ c.Needs k j := by
  unfold inputsOf Needs
  cases c.instruction? k <;> simp

theorem Repeats.needs {k j : Nat} (h : c.Repeats k j) : c.Needs k j := by
  obtain ⟨p, hp, hcount⟩ := h
  refine ⟨p, hp, List.mem_append.2 (hcount.imp ?_ ?_)⟩ <;> intro hmany <;>
    exact List.count_pos_iff.1 (Nat.lt_trans Nat.zero_lt_one hmany)

theorem count_eq_min_of_increasing {l l' : List Nat} {k j : Nat} (h : l.Pairwise (· < ·))
    (hmem : k ∈ l ↔ j ∈ l') : l.count k = min 1 (l'.count j) := by
  have nodup : l.Nodup := h.imp fun hlt => Nat.ne_of_lt hlt
  rw [nodup.count]
  split
  · next hk =>
    have := List.count_pos_iff.2 (hmem.1 hk)
    omega
  · next hk =>
    have := List.count_eq_zero.2 (mt hmem.2 hk)
    omega

/-- Emitting `j` counts at most once for the operands of `k` and once for its control
predecessors. -/
theorem count_outputsOf (hc : c.Wired) {k : Nat} {p : Placed} (hp : c.instruction? k = some p)
    (j : Nat) : (c.outputsOf j).count k =
      min 1 (p.operands.count j) + min 1 (p.controlPredecessors.count j) := by
  cases hj : c.instruction? j with
  | none =>
    have hsize := (instruction?_eq_none_iff c j).1 hj
    have hk := lt_size_of_instruction? hp
    have hnone : j ∉ p.operands ++ p.controlPredecessors := by
      intro hmem
      have := hc.input_lt k p hp j hmem
      omega
    rw [List.mem_append, not_or] at hnone
    simp [outputsOf, hj, List.count_eq_zero.2 hnone.1, List.count_eq_zero.2 hnone.2]
  | some q =>
    have hout : c.outputsOf j = q.users ++ q.controlSuccessors := by
      simp [outputsOf, hj, Placed.outputs]
    rw [hout, List.count_append]
    congr 1
    · apply count_eq_min_of_increasing (hc.users_increasing j q hj)
      rw [hc.mem_users j q hj k, hp]
      simp
    · apply count_eq_min_of_increasing (hc.controlSuccessors_increasing j q hj)
      rw [hc.mem_controlSuccessors j q hj k, hp]
      simp

def listed (c : Computation) (bucket : List Nat) (k : Nat) : Nat :=
  (c.inputsOf k).countP (· ∈ bucket)

def released (c : Computation) (done : List Nat) (k : Nat) : Nat :=
  (done.flatMap c.outputsOf).count k

theorem released_cons (c : Computation) (j : Nat) (done : List Nat) (k : Nat) :
    c.released (j :: done) k = (c.outputsOf j).count k + c.released done k := by
  rw [released, List.flatMap_cons, List.count_append, released]

theorem listed_cons (c : Computation) {j : Nat} {done : List Nat} (hj : j ∉ done) (k : Nat) :
    c.listed (j :: done) k = (c.inputsOf k).count j + c.listed done k := by
  unfold listed
  induction c.inputsOf k with
  | nil => rfl
  | cons i l ih =>
    rw [List.countP_cons, List.countP_cons, List.count_cons, ih]
    by_cases hi : i = j
    · subst hi
      simp [hj]
      omega
    · simp [hi]
      omega

theorem listed_mono (c : Computation) (h : done ⊆ bucket) (k : Nat) :
    c.listed done k ≤ c.listed bucket k := by
  apply List.countP_mono_left
  intro i _ hi
  simpa using h (by simpa using hi)

theorem listed_lt (h : done ⊆ bucket) {k j : Nat} (hneeds : c.Needs k j) (hj : j ∈ bucket)
    (hdone : j ∉ done) : c.listed done k < c.listed bucket k := by
  have hpos := List.count_pos_iff.2 ((mem_inputsOf_iff k j).2 hneeds)
  have hle := listed_mono c (List.cons_subset.2 ⟨hj, h⟩) k
  rw [listed_cons c hdone] at hle
  omega

theorem count_outputsOf_le (hc : c.Wired) {k : Nat} {p : Placed} (hp : c.instruction? k = some p)
    (j : Nat) : (c.outputsOf j).count k ≤ (c.inputsOf k).count j := by
  rw [count_outputsOf hc hp, inputsOf_eq hp, List.count_append]
  omega

theorem released_le (hc : c.Wired) {k : Nat} {p : Placed} (hp : c.instruction? k = some p)
    (nodup : done.Nodup) : c.released done k ≤ c.listed done k := by
  induction done with
  | nil => exact Nat.zero_le _
  | cons j done ih =>
    obtain ⟨hj, nodup⟩ := List.nodup_cons.1 nodup
    rw [released_cons, listed_cons c hj]
    exact Nat.add_le_add (count_outputsOf_le hc hp j) (ih nodup)

theorem released_lt_of_repeats (hc : c.Wired) {k : Nat} {p : Placed}
    (hp : c.instruction? k = some p) (nodup : done.Nodup) {j : Nat} (hj : j ∈ done)
    (hrep : c.Repeats k j) : c.released done k < c.listed done k := by
  induction done with
  | nil => exact (List.not_mem_nil hj).elim
  | cons i done ih =>
    obtain ⟨hi, hrest⟩ := List.nodup_cons.1 nodup
    rw [released_cons, listed_cons c hi]
    rcases List.mem_cons.1 hj with rfl | hj
    · obtain ⟨q, hq, hmany⟩ := hrep
      obtain rfl : p = q := Option.some.inj (hp.symm.trans hq)
      have hle := released_le hc hp hrest
      rw [count_outputsOf hc hp, inputsOf_eq hp, List.count_append]
      omega
    · exact Nat.add_lt_add_of_le_of_lt (count_outputsOf_le hc hp i) (ih hrest hj)

theorem released_eq (hc : c.Wired) {k : Nat} {p : Placed} (hp : c.instruction? k = some p)
    (nodup : done.Nodup) (hrep : ∀ j ∈ done, ¬ c.Repeats k j) :
    c.released done k = c.listed done k := by
  induction done with
  | nil => simp [released, listed]
  | cons j done ih =>
    obtain ⟨hj, nodup⟩ := List.nodup_cons.1 nodup
    rw [released_cons, listed_cons c hj, ih nodup fun i hi => hrep i (List.mem_cons_of_mem j hi)]
    have honce : p.operands.count j ≤ 1 ∧ p.controlPredecessors.count j ≤ 1 := by
      by_contra hmany
      apply hrep j List.mem_cons_self
      exact ⟨p, hp, by omega⟩
    rw [count_outputsOf hc hp, inputsOf_eq hp, List.count_append]
    omega

/-- An instruction waits for nothing any more exactly if its inputs in the gap are all emitted and
none of them is repeated. -/
theorem listed_le_released_iff (hc : c.Wired) {k : Nat} (hk : k < c.size) (nodup : done.Nodup)
    (hsub : done ⊆ bucket) : c.listed bucket k ≤ c.released done k ↔
      ∀ j ∈ bucket, c.Needs k j → j ∈ done ∧ ¬ c.Repeats k j := by
  obtain ⟨p, hp⟩ := exists_instruction? hk
  have hle := released_le hc hp nodup
  have hmono := listed_mono c hsub k
  constructor
  · intro hfree j hj hneeds
    have hdone : j ∈ done := by
      by_contra hnot
      have := listed_lt hsub hneeds hj hnot
      omega
    refine ⟨hdone, ?_⟩
    intro hrep
    have := released_lt_of_repeats hc hp nodup hdone hrep
    omega
  · intro h
    have heq := released_eq hc hp nodup fun j hj hrep => (h j (hsub hj) hrep.needs).2 hrep
    rw [heq]
    apply List.countP_mono_left
    intro j hj hmem
    simpa using (h j (by simpa using hmem) ((mem_inputsOf_iff k j).1 hj)).1

def remaining (c : Computation) (bucket done : List Nat) : Waiting :=
  (bucket.filter (· ∉ done)).map fun k => (k, c.listed bucket k - c.released done k)

theorem waitingOf_eq (c : Computation) (bucket : List Nat) :
    c.waitingOf bucket = c.remaining bucket [] := by
  have hall : bucket.filter (· ∉ ([] : List Nat)) = bucket := List.filter_eq_self.2 (by simp)
  rw [waitingOf, remaining, hall]
  apply List.map_congr_left
  intro k _
  cases hk : c.instruction? k <;>
    simp [listed, released, inputsOf, hk, List.countP_eq_length_filter]

theorem foldl_relax_remaining (c : Computation) (bucket done : List Nat) (id : Nat) :
    (c.outputsOf id).foldl relax ((c.remaining bucket done).filter (·.1 ≠ id)) =
      c.remaining bucket (id :: done) := by
  rw [foldl_relax, remaining, remaining, List.filter_map, List.map_map, List.filter_filter]
  have hleft : (bucket.filter fun k => ((fun e : Nat × Nat => decide (e.1 ≠ id)) ∘
      fun k => (k, c.listed bucket k - c.released done k)) k && decide (k ∉ done)) =
      bucket.filter (· ∉ id :: done) := by
    apply List.filter_congr
    intro k _
    simp
  rw [hleft]
  apply List.map_congr_left
  intro k _
  rw [released_cons]
  simp only [Function.comp_apply, Prod.mk.injEq, true_and]
  omega

theorem mem_remaining_iff (c : Computation) (bucket done : List Nat) (k : Nat) :
    (k, 0) ∈ c.remaining bucket done ↔
      (k ∈ bucket ∧ k ∉ done) ∧ c.listed bucket k ≤ c.released done k := by
  simp [remaining, Nat.sub_eq_zero_iff_le]

/-- One emission: what is chosen has its inputs emitted, and the rest waits as before. -/
theorem emit_succ_eq_ok_iff (c : Computation) (n : Nat) (bucket done out : List Nat) :
    c.emit (n + 1) (c.remaining bucket done) = .ok out ↔
      ∃ (id : Nat) (rest : List Nat), c.firstFree? (c.remaining bucket done) = some id ∧
        c.emit n (c.remaining bucket (id :: done)) = .ok rest ∧ out = id :: rest := by
  rw [emit]
  cases hfree : c.firstFree? (c.remaining bucket done) with
  | none => simp
  | some id =>
    have hnext := foldl_relax_remaining c bucket done id
    unfold outputsOf at hnext
    simp only [hnext, Option.some.injEq, exists_and_left, exists_eq_left']
    cases c.emit n (c.remaining bucket (id :: done)) with
    | error fault => simp [bind, Except.bind]
    | ok rest => simp [bind, Except.bind, pure, Except.pure, eq_comm]

theorem emit_ok (hc : c.Wired) (nodup : bucket.Nodup) (hsize : ∀ k ∈ bucket, k < c.size) (n : Nat)
    {done out : List Nat} (hdone : done.Nodup) (hsub : done ⊆ bucket)
    (hn : (bucket.filter (· ∉ done)).length = n)
    (h : c.emit n (c.remaining bucket done) = .ok out) :
    out.Perm (bucket.filter (· ∉ done)) ∧ (out.Pairwise fun x y => ¬ c.Needs x y) ∧
      ∀ k ∈ out, ∀ j ∈ bucket, ¬ c.Repeats k j := by
  induction n generalizing done out with
  | zero =>
    obtain rfl : [] = out := Except.ok.inj h
    rw [List.eq_nil_of_length_eq_zero hn]
    simp
  | succ n ih =>
    obtain ⟨id, rest, hfree, hrest, rfl⟩ := (emit_succ_eq_ok_iff c n bucket done out).1 h
    obtain ⟨⟨hid, hnot⟩, hzero⟩ :=
      (mem_remaining_iff c bucket done id).1 ((firstFree?_eq_some_iff c _ id).1 hfree).1
    have hready := (listed_le_released_iff hc (hsize id hid) hdone hsub).1 hzero
    have hperm := filter_perm_cons nodup hid hnot
    have hlen : (bucket.filter (· ∉ id :: done)).length = n := by
      have := hperm.length_eq
      rw [hn, List.length_cons] at this
      omega
    obtain ⟨hp, hpairs, hrep⟩ :=
      ih (List.nodup_cons.2 ⟨hnot, hdone⟩) (List.cons_subset.2 ⟨hid, hsub⟩) hlen hrest
    refine ⟨(hp.cons id).trans hperm.symm, List.pairwise_cons.2 ⟨?_, hpairs⟩, ?_⟩
    · intro y hy hneeds
      have hy' := List.mem_filter.1 (hp.mem_iff.1 hy)
      have hlate : y ∉ id :: done := by simpa using hy'.2
      exact hlate (List.mem_cons_of_mem id (hready y hy'.1 hneeds).1)
    · intro k hk j hj hrepeats
      rcases List.mem_cons.1 hk with rfl | hk
      · exact (hready j hj hrepeats.needs).2 hrepeats
      · exact hrep k hk j hj hrepeats

/-- The lowest id that is still to come has all of its inputs emitted. -/
theorem exists_free (hc : c.Wired) (hsize : ∀ k ∈ bucket, k < c.size) (hdone : done.Nodup)
    (hsub : done ⊆ bucket) (hrep : ∀ k ∈ bucket, ∀ j ∈ bucket, ¬ c.Repeats k j)
    (hne : bucket.filter (· ∉ done) ≠ []) : ∃ k, (k, 0) ∈ c.remaining bucket done := by
  obtain ⟨k, hk⟩ := Option.isSome_iff_exists.1 (List.isSome_min?_of_ne_nil hne)
  obtain ⟨hmem, hleast⟩ := List.min?_eq_some_iff.1 hk
  obtain ⟨hbucket, hnot⟩ := List.mem_filter.1 hmem
  refine ⟨k, (mem_remaining_iff c bucket done k).2 ⟨⟨hbucket, by simpa using hnot⟩, ?_⟩⟩
  rw [listed_le_released_iff hc (hsize k hbucket) hdone hsub]
  intro j hj hneeds
  refine ⟨?_, hrep k hbucket j hj⟩
  by_contra hlate
  have := hleast j (List.mem_filter.2 ⟨hj, by simpa using hlate⟩)
  have := hneeds.lt hc
  omega

theorem exists_emit (hc : c.Wired) (nodup : bucket.Nodup) (hsize : ∀ k ∈ bucket, k < c.size)
    (hrep : ∀ k ∈ bucket, ∀ j ∈ bucket, ¬ c.Repeats k j) (n : Nat) {done : List Nat}
    (hdone : done.Nodup) (hsub : done ⊆ bucket) (hn : (bucket.filter (· ∉ done)).length = n) :
    ∃ out, c.emit n (c.remaining bucket done) = .ok out := by
  induction n generalizing done with
  | zero => exact ⟨[], rfl⟩
  | succ n ih =>
    have hne : bucket.filter (· ∉ done) ≠ [] := by
      intro hnil
      rw [hnil] at hn
      simp at hn
    obtain ⟨k, hk⟩ := exists_free hc hsize hdone hsub hrep hne
    cases hfree : c.firstFree? (c.remaining bucket done) with
    | none => exact ((firstFree?_eq_none_iff c _).1 hfree k hk).elim
    | some id =>
      obtain ⟨⟨hid, hnot⟩, _⟩ :=
        (mem_remaining_iff c bucket done id).1 ((firstFree?_eq_some_iff c _ id).1 hfree).1
      have hlen := (filter_perm_cons nodup hid hnot).length_eq
      rw [hn, List.length_cons] at hlen
      obtain ⟨rest, hrest⟩ := ih (List.nodup_cons.2 ⟨hnot, hdone⟩)
        (List.cons_subset.2 ⟨hid, hsub⟩) (by omega)
      exact ⟨id :: rest, (emit_succ_eq_ok_iff c n bucket done _).2 ⟨id, rest, hfree, hrest, rfl⟩⟩

theorem emit_error (n : Nat) {w : Waiting} {fault : Fault} (h : c.emit n w = .error fault) :
    fault = .badFloat c.name .cycle := by
  induction n generalizing w with
  | zero => exact absurd h (by simp [emit])
  | succ n ih =>
    rw [emit] at h
    cases hfree : c.firstFree? w with
    | none =>
      simp only [hfree, Except.error.injEq] at h
      exact h.symm
    | some id =>
      simp only [hfree] at h
      cases hrest : c.emit n
          ((((c.instruction? id).map (·.outputs)).getD []).foldl relax (w.filter (·.1 ≠ id))) with
      | ok rest =>
        rw [hrest] at h
        simp [bind, Except.bind, pure, Except.pure] at h
      | error other =>
        rw [hrest] at h
        obtain rfl : other = fault := Except.error.inj h
        exact ih hrest

theorem emitBucket_ok (hc : c.Wired) (nodup : bucket.Nodup) (hsize : ∀ k ∈ bucket, k < c.size)
    {out : List Nat} (h : c.emitBucket bucket = .ok out) :
    out.Perm bucket ∧ out.Pairwise fun x y => ¬ c.Needs x y := by
  have hall : bucket.filter (· ∉ ([] : List Nat)) = bucket := List.filter_eq_self.2 (by simp)
  rw [emitBucket, waitingOf_eq] at h
  obtain ⟨hperm, hpairs, _⟩ :=
    emit_ok hc nodup hsize _ List.nodup_nil (List.nil_subset _) (by rw [hall]) h
  rw [hall] at hperm
  exact ⟨hperm, hpairs⟩

theorem exists_emitBucket_iff (hc : c.Wired) (nodup : bucket.Nodup)
    (hsize : ∀ k ∈ bucket, k < c.size) : (∃ out, c.emitBucket bucket = .ok out) ↔
      ∀ k ∈ bucket, ∀ j ∈ bucket, ¬ c.Repeats k j := by
  have hall : bucket.filter (· ∉ ([] : List Nat)) = bucket := List.filter_eq_self.2 (by simp)
  rw [emitBucket, waitingOf_eq]
  constructor
  · rintro ⟨out, h⟩ k hk
    obtain ⟨hperm, _, hrep⟩ :=
      emit_ok hc nodup hsize _ List.nodup_nil (List.nil_subset _) (by rw [hall]) h
    rw [hall] at hperm
    exact hrep k (hperm.mem_iff.2 hk)
  · intro hrep
    exact exists_emit hc nodup hsize hrep _ List.nodup_nil (List.nil_subset _) (by rw [hall])

theorem emitBucket_error {fault : Fault} (h : c.emitBucket bucket = .error fault) :
    fault = .badFloat c.name .cycle := emit_error _ h

theorem emitBucket_perm {bucket' : List Nat} (h : bucket.Perm bucket') :
    c.emitBucket bucket = c.emitBucket bucket' := by
  have hcontains : (fun k => bucket.contains k) = fun k => bucket'.contains k := by
    funext k
    rw [Bool.eq_iff_iff, List.contains_iff_mem, List.contains_iff_mem]
    exact h.mem_iff
  unfold emitBucket waitingOf
  rw [h.length_eq, hcontains]
  exact emit_perm c _ (h.map _)

end LatencyHiding.Computation
