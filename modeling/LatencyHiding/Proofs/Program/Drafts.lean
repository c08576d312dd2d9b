import LatencyHiding.Program.Draft
import LatencyHiding.Proofs.KeyedList
import LatencyHiding.Proofs.Program.Assembly

set_option autoImplicit false

namespace LatencyHiding

namespace Placed

theorem gainSuccessor_gainSuccessor (successor : InstrId) (p : Placed) :
    (p.gainSuccessor successor).gainSuccessor successor = p.gainSuccessor successor := by
  unfold gainSuccessor
  split <;> simp_all

def informed (id : InstrId) (i : Instruction) (k : Nat) (p : Placed) : Placed :=
  let q := if k ∈ i.operands then p.gainUser id else p
  if k ∈ i.controlPredecessors then q.gainSuccessor id else q

end Placed

namespace Draft

def revised (d : Draft) (change : Nat → Placed → Placed) : Draft :=
  { d with instructions := d.instructions.mapIdx change }

theorem revised_revised (d : Draft) (change more : Nat → Placed → Placed) :
    (d.revised change).revised more = d.revised fun k p => more k (change k p) := by
  unfold revised
  rw [List.mapIdx_mapIdx]
  rfl

theorem revised_self (d : Draft) : (d.revised fun _ p => p) = d := by
  have hsame : d.instructions.mapIdx (fun _ p => p) = d.instructions := by
    apply List.ext_getElem?
    simp
  unfold revised
  rw [hsame]

end Draft

namespace Drafting

theorem on_get_bind {α : Type} (next : Draft → Drafting α) (d : Draft) :
    Drafting.on (do next (← get)) d = (next d).on d := rfl

theorem on_bind_of_ok {α β : Type} {work : Drafting α} {d e : Draft} {answer : α}
    (h : work.on d = (.ok answer, e)) (next : α → Drafting β) :
    (work >>= next).on d = (next answer).on e := by
  unfold on at *
  rw [ExceptT.run_bind, StateT.run_bind, h]
  rfl

theorem amend_on (id : InstrId) (change : Placed → Placed) (d : Draft) :
    (amend id change).on d = (.ok (), d.revised fun k p => if k = id then change p else p) := by
  have hmodify : d.instructions.modify id change =
      d.instructions.mapIdx fun k p => if k = id then change p else p := by
    apply List.ext_getElem?
    intro k
    rw [List.getElem?_modify, List.getElem?_mapIdx]
    by_cases hk : id = k
    · simp [hk]
    · simp [hk, Ne.symm hk]
  change ((.ok (), { d with instructions := d.instructions.modify id change }) :
    Except Fault Unit × Draft) = _
  rw [hmodify]
  rfl

theorem tellOperands_on (user : InstrId) (told operands : List Nat) (d : Draft) :
    (tellOperands user told operands).on d = (.ok (), d.revised fun k p =>
      if k ∈ operands ∧ k ∉ told then p.gainUser user else p) := by
  induction operands generalizing told d with
  | nil =>
    simp only [List.not_mem_nil, false_and, if_false, d.revised_self]
    rfl
  | cons operand rest ih =>
    rw [tellOperands]
    -- `told` grows by each operand that is told, so it covers the repetitions among the rest
    by_cases hold : operand ∈ told
    · rw [if_pos hold, ih]
      congr 2
      funext k p
      by_cases hk : k = operand
      · simp [hk, hold]
      · simp [hk]
    · rw [if_neg hold, on_bind_of_ok (amend_on _ _ d), ih, Draft.revised_revised]
      congr 2
      funext k p
      by_cases hk : k = operand
      · simp [hk, hold]
      · simp [hk]

theorem tellPredecessors_on (successor : InstrId) (predecessors : List Nat) (d : Draft) :
    (tellPredecessors successor predecessors).on d = (.ok (), d.revised fun k p =>
      if k ∈ predecessors then p.gainSuccessor successor else p) := by
  induction predecessors generalizing d with
  | nil =>
    simp only [List.not_mem_nil, if_false, d.revised_self]
    rfl
  | cons predecessor rest ih =>
    rw [tellPredecessors, on_bind_of_ok (amend_on _ _ d), ih, Draft.revised_revised]
    congr 2
    funext k p
    by_cases hk : k = predecessor
    · simp [hk, Placed.gainSuccessor_gainSuccessor]
    · simp [hk]

/-- The check comes before the first change. -/
theorem append_on_of_refused {p : Placed} {d : Draft} {fault : Fault}
    (h : d.check p = .error fault) : (append p).on d = (.error fault, d) := by
  rw [append, on_get_bind, h]
  rfl

theorem append_on_of_free {p : Placed} {d : Draft} (h : d.check p = .ok ()) :
    (append p).on d = (.ok d.size, {
      name := d.name
      isEntry := d.isEntry
      instructions := d.instructions.mapIdx (Placed.informed d.size p.toInstruction) ++
        [{ p.toInstruction with id := d.size }]
      ids := d.ids.set p.name d.size }) := by
  have hcheck : Drafting.on (liftM (d.check p)) d = (.ok (), d) := by rw [h]; rfl
  rw [append, on_get_bind, on_bind_of_ok hcheck, on_bind_of_ok (tellOperands_on _ _ _ d),
    on_bind_of_ok (tellPredecessors_on _ _ _), Draft.revised_revised]
  simp only [List.not_mem_nil, not_false_eq_true, and_true]
  rfl

end Drafting

namespace Computation

theorem Wired.size_not_mem_controlSuccessors {c : Computation} (hc : c.Wired) {k : Nat} {p : Placed}
    (hp : c.instruction? k = some p) : c.size ∉ p.controlSuccessors := by
  intro hmem
  obtain ⟨q, hq, _⟩ := (hc.mem_controlSuccessors k p hp c.size).1 hmem
  have := lt_size_of_instruction? hq
  omega

theorem unfit_of_add_eq_error {c : Computation} {i : Instruction} {fault : Fault}
    (h : c.add i = .error fault) :
    i.name ∈ c.names ∨ ∃ input : Nat, input ∈ i.inputs ∧ c.size ≤ input := by
  by_contra hfit
  rw [not_or, ← find?_eq_none_iff] at hfit
  have hadd := (add_eq_ok_iff c (c.grown i) i).2
    ⟨hfit.1, fun j hj => Nat.lt_of_not_le fun hle => hfit.2 ⟨j, hj, hle⟩, rfl⟩
  rw [h] at hadd
  cases hadd

/-- Telling one reference after the other comes to linking all at once. -/
theorem Wired.mapIdx_informed {c : Computation} (hc : c.Wired) (i : Instruction) :
    c.instructions.mapIdx (Placed.informed c.size i) = c.instructions.map (link c.size i) := by
  apply List.ext_getElem?
  intro k
  rw [List.getElem?_mapIdx, List.getElem?_map]
  cases hp : c.instructions[k]? with
  | none => rfl
  | some p =>
    -- `link` goes by the id that an instruction has, and never asks whether it has heard
    obtain rfl : p.id = k := hc.id_eq k p hp
    have hnew := hc.size_not_mem_controlSuccessors hp
    by_cases ho : p.id ∈ i.operands <;> by_cases hs : p.id ∈ i.controlPredecessors <;>
      simp [ho, hs, link, Placed.informed, Placed.gainUser, Placed.gainSuccessor, hnew]

end Computation

namespace Draft

structure Coherent (d : Draft) : Prop where
  built : d.Built
  get?_ids_iff : ∀ n k, d.ids.get? n = some k ↔ d.names[k]? = some n

def taking (d : Draft) (p : Placed) : Draft :=
  ⟨d.grown p.toInstruction, d.ids.set p.name d.size⟩

namespace Coherent

variable {d : Draft}

theorem contains_ids_iff (hd : d.Coherent) (n : String) :
    d.ids.contains n = true ↔ n ∈ d.names := by
  rw [KeyedList.contains, Option.isSome_iff_exists, List.mem_iff_getElem?]
  simp only [hd.get?_ids_iff]

theorem get?_ids_taking (hd : d.Coherent) {p : Placed} (hname : p.name ∉ d.names) (n : String)
    (k : Nat) : (d.taking p).ids.get? n = some k ↔ (d.taking p).names[k]? = some n := by
  have hnames : (d.taking p).names = d.names ++ [p.name] := Computation.names_grown _ _
  have hids : (d.taking p).ids = d.ids.set p.name d.names.length := by
    rw [Draft.taking, Computation.length_names]
  rw [hnames, hids, KeyedList.get?_set]
  rcases Nat.lt_trichotomy k d.names.length with hlt | rfl | hgt
  · rw [List.getElem?_append_left hlt]
    split
    · next hn =>
      have hother : d.names[k]? ≠ some n := fun h => hname (hn ▸ List.mem_of_getElem? h)
      simp [hother, Nat.ne_of_gt hlt]
    · exact hd.get?_ids_iff n k
  · rw [List.getElem?_concat_length]
    split
    · next hn => simp [hn]
    · next hn => simp [hd.get?_ids_iff, Ne.symm hn]
  · have hnone : (d.names ++ [p.name])[k]? = none := by simp; omega
    rw [hnone]
    split
    · simp [Nat.ne_of_lt hgt]
    · rw [hd.get?_ids_iff, List.getElem?_eq_none (by omega)]

theorem check_eq (hd : d.Coherent) (p : Placed) :
    d.check p = (d.add p.toInstruction).map fun _ => () := by
  have hfind : (d.find? p.name).isSome = d.ids.contains p.name := by
    rw [Bool.eq_iff_iff, hd.contains_ids_iff, Option.isSome_iff_ne_none, ne_eq,
      Computation.find?_eq_none_iff, not_not]
  unfold Draft.check Computation.add
  rw [hfind]
  split
  · rfl
  · split <;> rfl

theorem append_cases (hd : d.Coherent) (p : Placed) :
    (∃ fault, d.add p.toInstruction = .error fault ∧
        (Drafting.append p).on d = (.error fault, d)) ∨
      d.add p.toInstruction = .ok (d.taking p).toComputation ∧
        (Drafting.append p).on d = (.ok d.size, d.taking p) := by
  have hcheck := hd.check_eq p
  cases hadd : d.add p.toInstruction with
  | error fault =>
    rw [hadd] at hcheck
    exact Or.inl ⟨fault, rfl, Drafting.append_on_of_refused hcheck⟩
  | ok c =>
    rw [hadd] at hcheck
    obtain ⟨_, _, rfl⟩ := (Computation.add_eq_ok_iff _ _ _).1 hadd
    refine Or.inr ⟨rfl, ?_⟩
    rw [Drafting.append_on_of_free hcheck, hd.built.wired.mapIdx_informed]
    rfl

theorem append (hd : d.Coherent) (p : Placed) : ((Drafting.append p).on d).2.Coherent := by
  rcases hd.append_cases p with ⟨fault, _, happend⟩ | ⟨hadd, happend⟩
  · rw [happend]
    exact hd
  · rw [happend]
    have hname : p.name ∉ d.names :=
      (Computation.find?_eq_none_iff _ _).1 ((Computation.add_eq_ok_iff _ _ _).1 hadd).1
    exact ⟨hd.built.add hadd, hd.get?_ids_taking hname⟩

theorem history (hd : d.Coherent) (arrivals : List Placed) : (d.history arrivals).Coherent := by
  induction arrivals generalizing d with
  | nil => exact hd
  | cons p rest ih => exact ih (hd.append p)

end Coherent

theorem coherent_empty (name : String) (isEntry : Bool) : Coherent { name, isEntry } :=
  ⟨.empty name isEntry, fun _ _ => ⟨nofun, nofun⟩⟩

/-- Whatever instructions have arrived at an empty draft, each with any ids of its own and any
repetitions, every id is a place, names are distinct and the table leads from exactly these to
their places, references lead back, and users and successors are the references to an instruction in
increasing order. The next arrival is taken in as its computation would have it; if its name is not
new or a reference does not lead back, it is refused and the draft is what it was. -/
theorem consistent_after_arrivals (name : String) (isEntry : Bool) (arrivals : List Placed)
    {d : Draft} (hd : Draft.history { name, isEntry } arrivals = d) :
    (∀ k p, d.instruction? k = some p → p.id = k) ∧
    d.names.Nodup ∧
    (∀ n k, d.ids.get? n = some k ↔ ∃ p, d.instruction? k = some p ∧ p.name = n) ∧
    (∀ k p, d.instruction? k = some p →
      ∀ input ∈ p.operands ++ p.controlPredecessors, input < p.id) ∧
    (∀ k p, d.instruction? k = some p →
      (∀ u, u ∈ p.users ↔ ∃ q, d.instruction? u = some q ∧ k ∈ q.operands) ∧
      (∀ u, u ∈ p.controlSuccessors ↔
        ∃ q, d.instruction? u = some q ∧ k ∈ q.controlPredecessors) ∧
      p.users.Pairwise (· < ·) ∧ p.controlSuccessors.Pairwise (· < ·)) ∧
    ∀ p : Placed,
      (p.name ∉ d.names ∧ (∀ input ∈ p.operands ++ p.controlPredecessors, input < d.size) ∧
        ∃ e, (Drafting.append p).on d = (.ok d.size, e) ∧
          d.add p.toInstruction = .ok e.toComputation) ∨
      ((p.name ∈ d.names ∨ ∃ input ∈ p.operands ++ p.controlPredecessors, d.size ≤ input) ∧
        ∃ fault, (Drafting.append p).on d = (.error fault, d) ∧
          d.add p.toInstruction = .error fault) := by
  have coherent : d.Coherent := hd ▸ (coherent_empty name isEntry).history arrivals
  have wired := coherent.built.wired
  refine ⟨wired.id_eq, coherent.built.nodup_names, ?_, ?_, ?_, ?_⟩
  · intro n k
    rw [coherent.get?_ids_iff, Computation.getElem?_names, Option.map_eq_some_iff]
  · intro k p hp
    rw [wired.id_eq k p hp]
    exact wired.input_lt k p hp
  · intro k p hp
    exact ⟨wired.mem_users k p hp, wired.mem_controlSuccessors k p hp,
      wired.users_increasing k p hp, wired.controlSuccessors_increasing k p hp⟩
  · intro p
    rcases coherent.append_cases p with ⟨fault, hadd, happend⟩ | ⟨hadd, happend⟩
    · exact Or.inr ⟨Computation.unfit_of_add_eq_error hadd, fault, happend, hadd⟩
    · obtain ⟨hnew, hback, _⟩ := (Computation.add_eq_ok_iff _ _ _).1 hadd
      exact Or.inl ⟨(Computation.find?_eq_none_iff _ _).1 hnew, hback, d.taking p, happend, hadd⟩

/-- All bring ids along that mean nothing here; the third has a name and the fourth a reference that
will not do, and the fifth is the fourth put right. -/
def mixedArrivals : List Placed := [
  { name := "p", opcode := .parameter, shape := .array 4, id := 7, users := [3, 3] },
  { name := "a", opcode := .add, shape := .array 4, operands := [0, 0], id := 0 },
  { name := "a", opcode := .negate, shape := .array 4, id := 2 },
  { name := "b", opcode := .negate, shape := .array 4, operands := [2], id := 2 },
  { name := "b", opcode := .negate, shape := .array 4, operands := [0],
    controlPredecessors := [1, 1], id := 1, controlSuccessors := [0] }]

theorem consistent_mixedArrivals : ∃ d, Draft.history { name := "c" } mixedArrivals = d ∧
    d.names = ["p", "a", "b"] ∧
    d.instructions.map (·.users) = [[1, 2], [], []] ∧
    d.instructions.map (·.controlSuccessors) = [[], [2], []] ∧
    d.ids.get? "b" = some 2 ∧
    ∀ p : Placed, p.name = "a" → ∃ fault, (Drafting.append p).on d = (.error fault, d) := by
  obtain ⟨_, _, htable, _, _, hnext⟩ := consistent_after_arrivals "c" false mixedArrivals rfl
  refine ⟨_, rfl, rfl, rfl, rfl, (htable "b" 2).2 ⟨_, rfl, rfl⟩, ?_⟩
  intro p hp
  rcases hnext p with ⟨hnew, _⟩ | ⟨_, fault, happend, _⟩
  · exact absurd (hp ▸ List.mem_cons_of_mem "p" List.mem_cons_self) hnew
  · exact ⟨fault, happend⟩

end Draft

end LatencyHiding
