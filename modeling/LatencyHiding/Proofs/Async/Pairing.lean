import LatencyHiding.Async.Tracker
import LatencyHiding.Proofs.Program.Schedules

set_option autoImplicit false

namespace LatencyHiding

inductive Opcode.Pairs : (start done : Opcode) → Prop where
  | allReduce : Pairs .allReduceStart .allReduceDone
  | allGather : Pairs .allGatherStart .allGatherDone
  | collectivePermute : Pairs .collectivePermuteStart .collectivePermuteDone
  | copy : Pairs .copyStart .copyDone
  | send : Pairs .send .sendDone
  | recv : Pairs .recv .recvDone
  | async : Pairs .asyncStart .asyncDone

namespace Opcode.Pairs

variable {a b : Opcode}

theorem isAsyncDone_start (pairs : Pairs a b) : a.isAsyncDone = false := by cases pairs <;> rfl

theorem isAsyncDone_done (pairs : Pairs a b) : b.isAsyncDone = true := by cases pairs <;> rfl

theorem eq_asyncDone (pairs : Pairs .asyncStart b) : b = .asyncDone := by
  cases pairs
  rfl

theorem isCollective_eq (pairs : Pairs a b) : b.isCollective = a.isCollective := by
  cases pairs <;> rfl

theorem isSendRecv_eq (pairs : Pairs a b) : b.isSendRecv = a.isSendRecv := by cases pairs <;> rfl

end Opcode.Pairs

/-- A done that has what its start has, as far as trackers look. -/
structure Instruction.Answers (d s : Instruction) : Prop where
  pairs : Opcode.Pairs s.opcode d.opcode
  wrapped_eq : s.opcode = .asyncStart → d.wrapped = s.wrapped
  isSync_eq : d.isSync = s.isSync
  isHostTransfer_eq : d.isHostTransfer = s.isHostTransfer

namespace Instruction.Answers

variable {d s : Instruction}

theorem effectiveOpcode_cases (answers : d.Answers s) :
    d.effectiveOpcode = s.effectiveOpcode ∨ Opcode.Pairs s.effectiveOpcode d.effectiveOpcode := by
  have hpairs := answers.pairs
  have hwrapped := answers.wrapped_eq
  unfold effectiveOpcode
  generalize s.opcode = a at hpairs hwrapped ⊢
  generalize d.opcode = b at hpairs ⊢
  cases hpairs with
  | async =>
    rw [hwrapped rfl]
    cases s.wrapped with
    | none => exact Or.inr .async
    | some op => exact Or.inl rfl
  | allReduce => exact Or.inr .allReduce
  | allGather => exact Or.inr .allGather
  | collectivePermute => exact Or.inr .collectivePermute
  | copy => exact Or.inr .copy
  | send => exact Or.inr .send
  | recv => exact Or.inr .recv

theorem isCollective_eq (answers : d.Answers s) :
    d.effectiveOpcode.isCollective = s.effectiveOpcode.isCollective := by
  rcases answers.effectiveOpcode_cases with h | h
  · rw [h]
  · exact h.isCollective_eq

theorem isSendRecv_eq (answers : d.Answers s) :
    d.effectiveOpcode.isSendRecv = s.effectiveOpcode.isSendRecv := by
  rcases answers.effectiveOpcode_cases with h | h
  · rw [h]
  · exact h.isSendRecv_eq

end Instruction.Answers

namespace AsyncTracker

variable {d s : Instruction}

theorem startSupported_done (pairs : Opcode.Pairs s.opcode d.opcode) (settings : Settings) :
    startSupported settings d = false := by
  unfold startSupported
  generalize s.opcode = a at pairs
  generalize d.opcode = b at pairs ⊢
  cases pairs <;> rfl

theorem doneSupported_start (pairs : Opcode.Pairs s.opcode d.opcode) (settings : Settings) :
    doneSupported settings s = false := by
  unfold doneSupported
  generalize s.opcode = a at pairs ⊢
  generalize d.opcode = b at pairs
  cases pairs <;> rfl

theorem doneSupported_eq (answers : d.Answers s) (settings : Settings) :
    doneSupported settings d = startSupported settings s := by
  have hpairs := answers.pairs
  unfold doneSupported startSupported
  rw [answers.isSync_eq, answers.isCollective_eq]
  generalize s.opcode = a at hpairs ⊢
  generalize d.opcode = b at hpairs ⊢
  cases hpairs <;> rfl

theorem resourceOf?_eq (answers : d.Answers s) (settings : Settings) :
    resourceOf? settings d = resourceOf? settings s := by
  unfold resourceOf?
  rw [answers.isHostTransfer_eq]
  rcases answers.effectiveOpcode_cases with h | hpairs
  · rw [h]
  · generalize s.effectiveOpcode = a at hpairs ⊢
    generalize d.effectiveOpcode = b at hpairs ⊢
    cases hpairs <;> rfl

theorem usage?_eq (answers : d.Answers s) (settings : Settings) :
    usage? settings s = (if startSupported settings s then some .occupy else none) ∧
      usage? settings d = if startSupported settings s then some .release else none := by
  unfold usage?
  rw [doneSupported_start answers.pairs, startSupported_done answers.pairs, doneSupported_eq answers]
  exact ⟨rfl, rfl⟩

/-- What a start occupies its done releases, on every platform. -/
theorem exists_uses {τ : Type} (answers : d.Answers s) (settings : Settings) (platform : Platform) :
    ∃ resources : List Resource,
      (ofPlatform settings platform : AsyncTracker τ).uses s = resources.map (·, .occupy) ∧
      (ofPlatform settings platform : AsyncTracker τ).uses d = resources.map (·, .release) := by
  obtain ⟨hs, hd⟩ := usage?_eq answers settings
  have hresource := resourceOf?_eq answers settings
  have hgeneric : ∃ resource : Option Resource,
      genericUses settings s = resource.toList.map (·, .occupy) ∧
      genericUses settings d = resource.toList.map (·, .release) := by
    unfold genericUses
    rw [hs, hd, hresource]
    cases startSupported settings s with
    | false => exact ⟨none, rfl, rfl⟩
    | true =>
      cases resourceOf? settings s with
      | none => exact ⟨none, rfl, rfl⟩
      | some r => exact ⟨some r, rfl, rfl⟩
  obtain ⟨resource, hs, hd⟩ := hgeneric
  cases platform with
  | generic => exact ⟨_, hs, hd⟩
  | gpu =>
    change ∃ resources : List Resource, gpuUses settings s = resources.map _ ∧
      gpuUses settings d = resources.map _
    unfold gpuUses
    rw [hs, hd, answers.isSendRecv_eq]
    cases resource with
    | none => exact ⟨[], rfl, rfl⟩
    | some r =>
      cases s.effectiveOpcode.isSendRecv with
      | false => exact ⟨[r, collectiveStream], rfl, rfl⟩
      | true => exact ⟨[r], rfl, rfl⟩

end AsyncTracker

namespace Module

theorem attributes_resolveWrapped (rootOf : String → Option Opcode) (earlier : List Placed)
    (p : Placed) : (resolveWrapped rootOf earlier p).attributes = p.attributes := by
  unfold resolveWrapped
  dsimp only
  split <;> rfl

theorem opcode_resolveWrapped (rootOf : String → Option Opcode) (earlier : List Placed)
    (p : Placed) : (resolveWrapped rootOf earlier p).opcode = p.opcode :=
  Placed.eq_of_skeleton (skeleton_resolveWrapped rootOf earlier p) (·.opcode) fun _ => rfl

theorem wrapped_asyncStart (rootOf : String → Option Opcode) (earlier : List Placed) {p : Placed}
    (h : p.opcode = .asyncStart) :
    (resolveWrapped rootOf earlier p).wrapped = p.wrapped.or (p.calls.head?.bind rootOf) := by
  simp [resolveWrapped, h]

theorem wrapped_asyncDone (rootOf : String → Option Opcode) (earlier : List Placed) {p : Placed}
    (h : p.opcode = .asyncDone) : (resolveWrapped rootOf earlier p).wrapped =
      p.wrapped.or ((p.calls.head?.bind rootOf).or
        (p.operands.head?.bind fun start => earlier[start]?.bind (·.wrapped))) := by
  simp [resolveWrapped, h]

theorem wrapped_resolveWrapped (rootOf : String → Option Opcode) {earlier earlier' : List Placed}
    {s d : Placed} {start : Nat} (hs : s.opcode = .asyncStart) (hd : d.opcode = .asyncDone)
    (hpreset : s.wrapped = none ∧ d.wrapped = none)
    (hcalls : d.calls = [] ∨ d.calls.head? = s.calls.head?)
    (hoperand : d.operands.head? = some start)
    (hstart : earlier'[start]? = some (resolveWrapped rootOf earlier s)) :
    (resolveWrapped rootOf earlier' d).wrapped = (resolveWrapped rootOf earlier s).wrapped := by
  rw [wrapped_asyncDone rootOf earlier' hd, hpreset.2, hoperand, Option.bind_some, hstart,
    Option.bind_some, wrapped_asyncStart rootOf earlier hs, hpreset.1, Option.none_or,
    Option.none_or]
  rcases hcalls with h | h
  · rw [h]
    rfl
  · rw [h, Option.or_self]

theorem wrapped_inherit (key : String) (start p : Placed) :
    (inherit key start p).wrapped = p.wrapped := by
  unfold inherit
  split
  · split <;> rfl
  · rfl

theorem get?_inherit (key : String) (start p : Placed) (other : String) :
    (inherit key start p).attributes.get? other =
      if other = key then (p.attributes.get? key).or (start.attributes.get? key)
      else p.attributes.get? other := by
  have hkept {value : Option String} (hvalue : p.attributes.get? key = value) :
      p.attributes.get? other = if other = key then value else p.attributes.get? other := by
    split
    · next h => rw [h, hvalue]
    · rfl
  unfold inherit KeyedList.contains
  cases start.attributes.get? key with
  | none => exact hkept (Option.or_none).symm
  | some value =>
    cases hown : p.attributes.get? key with
    | some own => exact hkept hown
    | none => exact KeyedList.get?_set p.attributes key other value

theorem flag_inheritFlags {earlier : List Placed} {s d : Placed} {start : Nat}
    (hdone : d.opcode.isAsyncDone = true) (hoperand : d.operands.head? = some start)
    (hstart : earlier[start]? = some s) {key : String}
    (hkey : key ∈ [Instruction.syncKey, Instruction.hostTransferKey])
    (hown : d.attributes.get? key = none) :
    (inheritFlags earlier d).flag key = s.flag key := by
  have hflags : inheritFlags earlier d =
      inherit Instruction.hostTransferKey s (inherit Instruction.syncKey s d) := by
    unfold inheritFlags
    rw [if_pos hdone, hoperand, Option.bind_some, hstart]
  have hget : (inheritFlags earlier d).attributes.get? key = s.attributes.get? key := by
    rw [hflags]
    rcases List.mem_pair.1 hkey with rfl | rfl
    · rw [get?_inherit, if_neg (by decide), get?_inherit, if_pos rfl, hown, Option.none_or]
    · rw [get?_inherit, if_pos rfl, get?_inherit, if_neg (by decide), hown, Option.none_or]
  unfold Instruction.flag
  rw [hget]

theorem wrapped_inheritFlags (earlier : List Placed) (p : Placed) :
    (inheritFlags earlier p).wrapped = p.wrapped := by
  unfold inheritFlags
  split
  · split
    · rw [wrapped_inherit, wrapped_inherit]
    · rfl
  · rfl

/-- In a module, a done answers its start unless it was given something else to run or flags of its
own. -/
theorem exists_answers {c : Computation} (wired : c.Wired) {start done : Nat} {s d : Placed}
    (hs : c.instruction? start = some s) (hd : c.instruction? done = some d)
    (hoperand : d.operands.head? = some start) (pairs : Opcode.Pairs s.opcode d.opcode)
    (hpreset : s.wrapped = none ∧ d.wrapped = none)
    (hcalls : d.opcode = .asyncDone → d.calls = [] ∨ d.calls.head? = s.calls.head?)
    (hown : ∀ key ∈ [Instruction.syncKey, Instruction.hostTransferKey],
      d.attributes.get? key = none)
    (known : String) (rootOf : String → Option Opcode) :
    ∃ s' d', (completed known rootOf c).instruction? start = some s' ∧
      (completed known rootOf c).instruction? done = some d' ∧
      d'.toInstruction.Answers s'.toInstruction := by
  have hlt : start < done := by
    apply wired.input_lt done d hd start
    exact List.mem_append_left _ (List.mem_of_head? hoperand)
  let resolved := sweep (resolveWrapped rootOf) c.instructions
  let final := sweep inheritFlags resolved
  let s' := resolveWrapped rootOf (resolved.take start) s
  let d' := resolveWrapped rootOf (resolved.take done) d
  have hs' : resolved[start]? = some s' :=
    (getElem?_sweep _ _ _).trans (congrArg (Option.map _) hs)
  have hd' : resolved[done]? = some d' :=
    (getElem?_sweep _ _ _).trans (congrArg (Option.map _) hd)
  have hsopcode : s'.opcode = s.opcode := opcode_resolveWrapped _ _ _
  have hdopcode : d'.opcode = d.opcode := opcode_resolveWrapped _ _ _
  -- a start is not a done, so that the second sweep leaves it alone
  have hfinal : final[start]? = some s' := by
    have hnot : ¬ s'.opcode.isAsyncDone = true := by simp [hsopcode, pairs.isAsyncDone_start]
    rw [getElem?_sweep, hs', Option.map_some, inheritFlags, if_neg hnot]
  have hstart : (final.take done)[start]? = some s' := by
    rw [List.getElem?_take_of_lt hlt, hfinal]
  have hflag : ∀ key ∈ [Instruction.syncKey, Instruction.hostTransferKey],
      (inheritFlags (final.take done) d').flag key = s'.flag key := by
    intro key hkey
    apply flag_inheritFlags (by rw [hdopcode, pairs.isAsyncDone_done]) _ hstart hkey
    · rw [attributes_resolveWrapped, hown key hkey]
    · rw [← hoperand]
      exact Placed.eq_of_skeleton (skeleton_resolveWrapped _ _ d) (·.operands.head?) fun _ => rfl
  refine ⟨s', inheritFlags (final.take done) d', hfinal, ?_, ?_, ?_, ?_, ?_⟩
  · exact (getElem?_sweep _ _ _).trans (congrArg (Option.map _) hd')
  · have hopcode : (inheritFlags (final.take done) d').opcode = d'.opcode :=
      Placed.eq_of_skeleton (skeleton_inheritFlags _ d') (·.opcode) fun _ => rfl
    rw [hopcode, hdopcode, hsopcode]
    exact pairs
  · intro hasync
    rw [hsopcode] at hasync
    have hdone : d.opcode = .asyncDone := (hasync ▸ pairs).eq_asyncDone
    rw [wrapped_inheritFlags]
    apply wrapped_resolveWrapped rootOf hasync hdone hpreset (hcalls hdone) hoperand
    rw [List.getElem?_take_of_lt hlt, hs']
  · exact hflag _ (by simp)
  · exact hflag _ (by simp)

/-- A done releases what its start occupies, in the same order, and is told to be a done exactly if
its start is told to be a start, whatever the settings and on every platform. -/
theorem releases_what_start_occupies {τ : Type} {name : String} {computations : List Computation}
    {entry : Option String} {m : Module} (built : ∀ c ∈ computations, c.Built)
    (h : assemble name computations entry = .ok m) {c : Computation} (hc : c ∈ computations)
    {start done : Nat} {s d : Placed} (hs : c.instruction? start = some s)
    (hd : c.instruction? done = some d) (hoperand : d.operands.head? = some start)
    (pairs : Opcode.Pairs s.opcode d.opcode) (hpreset : s.wrapped = none ∧ d.wrapped = none)
    (hcalls : d.opcode = .asyncDone → d.calls = [] ∨ d.calls.head? = s.calls.head?)
    (hown : ∀ key ∈ [Instruction.syncKey, Instruction.hostTransferKey],
      d.attributes.get? key = none) :
    ∃ c' s' d', m.find? c.name = some c' ∧ c'.instruction? start = some s' ∧
      c'.instruction? done = some d' ∧
      ∀ (settings : Settings) (platform : Platform) (tracker : AsyncTracker τ),
        tracker = .ofPlatform settings platform →
        tracker.isDone d'.toInstruction = tracker.isStart s'.toInstruction ∧
        ∃ resources : List Resource,
          tracker.uses s'.toInstruction = resources.map (·, .occupy) ∧
          tracker.uses d'.toInstruction = resources.map (·, .release) := by
  have wired : ∀ c ∈ computations, c.Wired := fun c hc => (built c hc).wired
  have sound := sound_of_assemble wired h
  obtain ⟨_, known, rootOf, _, hcomputations⟩ := exists_completed h
  obtain ⟨s', d', hs', hd', answers⟩ := exists_answers (wired c hc) hs hd hoperand pairs hpreset
    hcalls hown known rootOf
  have hmem : completed known rootOf c ∈ m.computations :=
    hcomputations ▸ List.mem_map_of_mem hc
  refine ⟨completed known rootOf c, s', d', find?_of_mem sound.nodup hmem, hs', hd', ?_⟩
  rintro settings platform tracker rfl
  refine ⟨?_, AsyncTracker.exists_uses answers settings platform⟩
  have heq := AsyncTracker.doneSupported_eq answers settings
  cases platform <;> exact heq

def wrappingComputations : List Computation :=
  [[{ name := "x", opcode := .parameter, shape := .array 4 },
      { name := "r", opcode := .allReduce, shape := .array 4, operands := [0] }].foldl
        Computation.grown { name := "sum" },
    [{ name := "p", opcode := .parameter, shape := .array 4 },
      { name := "s", opcode := .asyncStart, shape := .array 4, operands := [0], calls := ["sum"] },
      { name := "d", opcode := .asyncDone, shape := .array 4, operands := [1] }].foldl
        Computation.grown { name := "main" }]

theorem built_wrappingComputations : ∀ c ∈ wrappingComputations, c.Built := by
  rw [wrappingComputations, List.forall_mem_cons, List.forall_mem_singleton]
  exact ⟨Computation.built_foldl_grown (.empty "sum" false) _ rfl,
    Computation.built_foldl_grown (.empty "main" false) _ rfl⟩

theorem releases_wrappingComputations : ∃ m, assemble "m" wrappingComputations none = .ok m ∧
    ∃ c' s' d', m.find? "main" = some c' ∧ c'.instruction? 1 = some s' ∧
      c'.instruction? 2 = some d' ∧
      ∀ (settings : Settings) (platform : Platform) (tracker : AsyncTracker Float),
        tracker = .ofPlatform settings platform →
        tracker.isDone d'.toInstruction = tracker.isStart s'.toInstruction ∧
        ∃ resources : List Resource,
          tracker.uses s'.toInstruction = resources.map (·, .occupy) ∧
          tracker.uses d'.toInstruction = resources.map (·, .release) := by
  obtain ⟨m, h⟩ : ∃ m, assemble "m" wrappingComputations none = .ok m := ⟨_, rfl⟩
  refine ⟨m, h, ?_⟩
  exact releases_what_start_occupies built_wrappingComputations h (List.mem_cons_of_mem _
    List.mem_cons_self) rfl rfl rfl .async ⟨rfl, rfl⟩ (fun _ => Or.inl rfl) fun _ _ => rfl

end Module

end LatencyHiding
