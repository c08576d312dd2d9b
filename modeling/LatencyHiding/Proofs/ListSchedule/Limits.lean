import LatencyHiding.Proofs.ListSchedule.Resources
import LatencyHiding.Proofs.Program.Assembly

set_option autoImplicit false

namespace LatencyHiding

variable {τ : Type}

namespace Scheduler

open ScheduleState

variable [TimeScale τ] {s : Scheduler τ} {c : Computation} {sequence : List Nat}
  {m : Option Module} {pressure : Option Pressure} {st : ScheduleState τ}

/-- What is placed keeps to the limits: what the schedule releases without having occupied it yet,
and what a call in front of it holds at the same time. -/
def Kept (s : Scheduler τ) (c : Computation) (m : Option Module) (placed : List Nat) : Prop :=
  ∀ limit ∈ s.tracker.limits,
    c.releasers s.tracker limit.1 placed ≤ c.occupiers s.tracker limit.1 placed + limit.2.toNat ∧
    ∀ id rest, placed = id :: rest → ∀ p, c.instruction? id = some p → p.calls ≠ [] →
      s.tracker.uses p.toInstruction = [] → limit.2.toNat < UInt32.size - 1 →
        c.releasers s.tracker limit.1 rest + (s.tracker.unitsHeld limit.1 p.toInstruction m).toNat ≤
          c.occupiers s.tracker limit.1 rest + limit.2.toNat

omit [TimeScale τ] in
theorem kept_nil (s : Scheduler τ) (c : Computation) (m : Option Module) : s.Kept c m [] := by
  intro limit _
  refine ⟨Nat.zero_le _, ?_⟩
  rintro id rest ⟨⟩

section Order

variable (hc : c.Wired) (horder : c.IsOrder sequence) (regular : s.tracker.Regular)
  (provided : s.Provided c m)

include hc horder regular provided

/-- A feasible node goes in front of what keeps to the limits. -/
theorem Reached.kept_cons (h : s.Reached c sequence m pressure st) (hkept : s.Kept c m st.placed)
    {u : Nat} {n : Node τ} (hn : st.graph.node? u = some n) (hfeasible : s.isFeasible st n = true) :
    s.Kept c m (n.instr.id :: st.placed) := by
  unfold isFeasible at hfeasible
  rw [Bool.and_eq_true] at hfeasible
  obtain ⟨hreleases, hcalls⟩ := hfeasible
  obtain ⟨hknown, _⟩ := h.label hc hn
  have huses := h.uses_eq hc hn
  intro limit hlimit
  have hbalance := h.balance hc horder regular provided.paired limit.1
  have hroom := (hkept limit hlimit).1
  refine ⟨?_, ?_⟩
  · unfold Computation.releasers Computation.occupiers at hbalance hroom ⊢
    rw [List.countP_cons, List.countP_cons]
    by_cases hrelease : c.makes s.tracker (limit.1, .release) n.instr.id = true
    · -- releasing puts one more in flight, for which there was room
      have hfit := List.all_eq_true.1 hreleases _
        (huses ▸ (Computation.makes_iff _ _).1 hrelease)
      simp only [BEq.rfl, Bool.not_true, Bool.false_or, decide_eq_true_eq,
        limitOf_eq regular h.limits_eq hlimit] at hfit
      rw [if_pos hrelease]
      omega
    · rw [if_neg hrelease]
      omega
  · intro id rest hcons p hp hcalling hnone hfinite
    obtain ⟨rfl, rfl⟩ := List.cons.inj hcons
    obtain rfl : n.instr = p := Option.some.inj (hknown.symm.trans hp)
    have hempty : n.uses = [] := by rw [huses, Computation.usesOf_eq hknown, hnone]
    have hfit : s.callsFit st n = true := by simpa [hcalling, hempty] using hcalls
    have hfit := List.all_eq_true.1 hfit limit (h.limits_eq ▸ hlimit)
    simp only [unitsFit, h.module_eq, Bool.or_eq_true, beq_iff_eq, decide_eq_true_eq] at hfit
    rcases hfit with hzero | hfit
    · rw [hzero]
      exact hroom
    · omega

theorem Reached.kept_steps (h : s.Reached c sequence m pressure st)
    (hkept : ∀ after, after <:+ st.placed → s.Kept c m after) (k : Nat) :
    (∀ did ∈ (s.steps k st).1, did.feasible = true) ∧
      ∀ after, after <:+ (s.steps k st).2.placed → s.Kept c m after := by
  have hrun := steps_forall s (P := fun st => s.Reached c sequence m pressure st ∧
    ∀ after, after <:+ st.placed → s.Kept c m after) (Q := fun did => did.feasible = true) ?_ k
    ⟨h, hkept⟩
  · exact ⟨hrun.1, hrun.2.2⟩
  · rintro st did next ⟨h, hkept⟩ hstep
    obtain ⟨hdid, index, hindex, n, hn, hfeasible, rfl⟩ :=
      h.feasible_step hc horder regular provided hstep
    refine ⟨hdid, h.place hc hindex hn, ?_⟩
    intro after hafter
    rw [placed_place] at hafter
    rcases List.suffix_cons_iff.1 hafter with rfl | hafter
    · exact h.kept_cons hc horder regular provided (hkept _ List.suffix_rfl) hn hfeasible
    · exact hkept after hafter

end Order

end Scheduler

namespace Computation

variable {c : Computation} {tracker : AsyncTracker τ}

/-- How many of some instructions occupy a resource, less those that release it. -/
def balance (c : Computation) (tracker : AsyncTracker τ) (r : Resource) (ids : List Nat) : Int :=
  c.occupiers tracker r ids - c.releasers tracker r ids

theorem balance_append (r : Resource) (before after : List Nat) :
    c.balance tracker r (before ++ after) =
      c.balance tracker r before + c.balance tracker r after := by
  unfold balance occupiers releasers
  rw [List.countP_append, List.countP_append]
  omega

/-- Over the whole program, everything occupied is released. -/
theorem Paired.balance_eq_zero (paired : c.Paired tracker) (hc : c.Wired) {sequence : List Nat}
    (hperm : sequence.Perm c.postOrder) (r : Resource) : c.balance tracker r sequence = 0 := by
  have nodup : sequence.Nodup := hperm.nodup_iff.2 List.nodup_range
  have hmem {k : Nat} (hk : k < c.size) : k ∈ sequence := hperm.mem_iff.2 (List.mem_range.2 hk)
  have hle := paired.occupiers_le_releasers r nodup fun _ _ _ hneeds => hmem hneeds.lt_size
  have hge := paired.releasers_le_occupiers r nodup fun _ _ _ hneeds _ _ =>
    hmem (Nat.lt_trans (hneeds.lt hc) hneeds.lt_size)
  unfold balance
  omega

end Computation

namespace Scheduler

open ScheduleState

variable [TimeScale τ] {s : Scheduler τ} {c : Computation} {sequence : List Nat}

/-- For a platform's own tracker: if every limit is at least one, every start is needed by its done
alone, and no call holds more than there is, then no step exceeds a limit. In front of every place
of the new order no more of a resource is occupied than its limit allows, nor together with what a
call at that place holds; but counts stop at the largest one, which limits nothing. -/
theorem within_limits (settings : Settings) (platform : Platform)
    (hs : s.tracker = .ofPlatform settings platform) (hc : c.Built) (horder : c.IsOrder sequence)
    {m : Option Module} (provided : s.Provided c m) (pressure : Option Pressure) :
    ∃ st out, s.start c sequence m pressure = .ok st ∧
      s.schedule c sequence m pressure = .ok out ∧
      (∀ k, ∀ did ∈ (s.steps k st).1, did.feasible = true) ∧
      ∀ before after, out.sequence = before ++ after → ∀ limit ∈ s.tracker.limits,
        0 ≤ c.balance s.tracker limit.1 before ∧
        c.balance s.tracker limit.1 before ≤ limit.2.toNat ∧
        ∀ p ∈ c.instructions, after.head? = some p.id → p.calls ≠ [] →
          s.tracker.uses p.toInstruction = [] → limit.2 ≠ 0xFFFFFFFF →
            c.balance s.tracker limit.1 before +
              (s.tracker.unitsHeld limit.1 p.toInstruction m).toNat ≤ limit.2.toNat := by
  have regular : s.tracker.Regular := hs ▸ AsyncTracker.regular_ofPlatform settings platform
  have wired := hc.wired
  obtain ⟨st, hstart⟩ := exists_start_of_isOrder s wired horder m pressure
  have hreached := reached_start wired hstart
  have hrun := hreached.kept_steps wired horder regular provided fun after hafter => by
    rw [(start_ok hstart).2.2, List.suffix_nil] at hafter
    exact hafter ▸ kept_nil s c m
  refine ⟨st, _, hstart, schedule_of_start wired horder regular.demands_eq hstart,
    fun k => (hrun k).1, ?_⟩
  have hperm := (perm_drain wired horder regular.demands_eq hstart).trans horder.perm
  have hgrounded := (hreached.steps wired st.graph.size).grounded_needs wired horder
    regular.demands_eq
  have hkept := (hrun st.graph.size).2
  intro before after hsplit limit hlimit
  change (s.steps st.graph.size st).2.placed = before ++ after at hsplit
  -- what is occupied in front of a place is what is released behind it
  have htotal := provided.paired.balance_eq_zero wired hperm limit.1
  change c.balance s.tracker limit.1 (s.steps st.graph.size st).2.placed = 0 at htotal
  have nodup : (before ++ after).Nodup := hsplit ▸ hperm.nodup_iff.2 List.nodup_range
  rw [hsplit] at hgrounded hkept htotal
  rw [Computation.balance_append] at htotal
  have hle := provided.paired.occupiers_le_releasers limit.1 (List.nodup_append.1 nodup).2.1
    fun a ha b hneeds => hgrounded.of_append.mem_of_rel ha hneeds
  obtain ⟨hroom, hcall⟩ := hkept after (List.suffix_append before after) limit hlimit
  have hsame : c.balance s.tracker limit.1 before = c.releasers s.tracker limit.1 after -
      c.occupiers s.tracker limit.1 after := by
    unfold Computation.balance at htotal ⊢
    omega
  refine ⟨by omega, by omega, ?_⟩
  intro p hp hhead hcalls huses hfinite
  obtain ⟨rest, rfl⟩ := List.head?_eq_some_iff.1 hhead
  obtain ⟨k, hk⟩ := (Computation.mem_instructions_iff c p).1 hp
  have hid : p.id = k := wired.id_eq k p hk
  have hnone (use : Resource × Usage) : c.makes s.tracker use p.id = false := by
    rw [Computation.makes, hid, Computation.usesOf_eq hk, huses]
    rfl
  have hlarge : limit.2.toNat < UInt32.size - 1 := by
    have hne : limit.2.toNat ≠ UInt32.size - 1 := fun h => hfinite (UInt32.toNat_inj.1 h)
    have := limit.2.toNat_lt
    have : UInt32.size = 2 ^ 32 := rfl
    omega
  have hheld := hcall p.id rest rfl p (hid ▸ hk) hcalls huses hlarge
  have hreleasers : c.releasers s.tracker limit.1 (p.id :: rest) =
      c.releasers s.tracker limit.1 rest := List.countP_cons_of_neg (by simp [hnone])
  have hoccupiers : c.occupiers s.tracker limit.1 (p.id :: rest) =
      c.occupiers s.tracker limit.1 rest := List.countP_cons_of_neg (by simp [hnone])
  rw [hsame, hreleasers, hoccupiers]
  omega

def aroundCall (callee : String) : Computation :=
  [{ name := "s", opcode := .allReduceStart, shape := .array 4 },
    { name := "w", opcode := .call, shape := .array 4, calls := [callee] },
    { name := "d", opcode := .allReduceDone, shape := .array 4, operands := [0],
      controlPredecessors := [1] }].foldl
      Computation.grown { name := "main" }

def generic (settings : Settings) : Scheduler Rat where
  estimator := .approximate
  tracker := .generic settings
  settings

theorem makes_aroundCall (callee : String) (settings : Settings) (use : Resource × Usage)
    (id : Nat) : (aroundCall callee).makes (generic settings).tracker use id = true ↔
      (id = 0 ∧ use = (.allReduce, .occupy)) ∨ (id = 2 ∧ use = (.allReduce, .release)) := by
  have hstart : (aroundCall callee).usesOf (generic settings).tracker 0 = [(.allReduce, .occupy)] :=
    rfl
  have hcall : (aroundCall callee).usesOf (generic settings).tracker 1 = [] := rfl
  have hdone : (aroundCall callee).usesOf (generic settings).tracker 2 = [(.allReduce, .release)] :=
    rfl
  have hnone (k : Nat) : (aroundCall callee).usesOf (generic settings).tracker (k + 3) = [] := rfl
  rw [Computation.makes_iff]
  rcases id with _ | _ | _ | k
  · simp [hstart]
  · simp [hcall]
  · simp [hdone]
  · simp [hnone]

theorem needs_aroundCall (callee : String) (user input : Nat) :
    (aroundCall callee).Needs user input ↔ user = 2 ∧ (input = 0 ∨ input = 1) := by
  rcases user with _ | _ | _ | k
  · rw [Computation.needs_iff (rfl : (aroundCall callee).instruction? 0 = some _)]
    simp [Computation.link, Instruction.inputs]
  · rw [Computation.needs_iff (rfl : (aroundCall callee).instruction? 1 = some _)]
    simp [Computation.link, Instruction.inputs]
  · rw [Computation.needs_iff (rfl : (aroundCall callee).instruction? 2 = some _)]
    simp [Instruction.inputs]
  · refine iff_of_false ?_ (by simp)
    rintro ⟨p, hp, _⟩
    cases hp

theorem paired_aroundCall (callee : String) (settings : Settings) :
    (aroundCall callee).Paired (generic settings).tracker := by
  refine ⟨?_, ?_⟩
  · intro a ha
    simp only [makes_aroundCall, needs_aroundCall] at ha ⊢
    obtain rfl : a = 0 := by simpa using ha
    exact ⟨2, by simp, by simp⟩
  · intro b hb
    simp only [makes_aroundCall, needs_aroundCall] at hb ⊢
    obtain rfl : b = 2 := by simpa using hb
    refine ⟨0, ?_⟩
    intro a
    simp
    omega

theorem built_aroundCall (callee : String) : (aroundCall callee).Built :=
  Computation.built_foldl_grown (.empty "main" false) _ rfl

theorem isOrder_aroundCall (callee : String) : (aroundCall callee).IsOrder [0, 1, 2] :=
  (built_aroundCall callee).wired.isOrder_postOrder

def innerReduction : Computation :=
  [{ name := "s", opcode := .allReduceStart, shape := .array 4 },
    { name := "d", opcode := .allReduceDone, shape := .array 4, operands := [0] }].foldl
      Computation.grown { name := "inner" }

def reductions : Module := { name := "m", computations := [innerReduction, aroundCall "inner"] }

/-- Where one reduction at a time is allowed, a call that makes one stays outside of another. -/
theorem within_limits_aroundCall :
    ∃ out, (generic {}).schedule (aroundCall "inner") [0, 1, 2] (some reductions) none = .ok out ∧
      ∀ before after, out.sequence = before ++ 1 :: after →
        (aroundCall "inner").balance (generic {}).tracker .allReduce before = 0 := by
  obtain ⟨_, out, _, hout, _, hlimits⟩ := within_limits (s := generic {}) {} .generic rfl
    (built_aroundCall "inner") (isOrder_aroundCall "inner") (m := some reductions)
    ⟨by decide, paired_aroundCall "inner" {}, by decide⟩ none
  refine ⟨out, hout, ?_⟩
  intro before after hsplit
  obtain ⟨hnonneg, _, hcall⟩ := hlimits before (1 :: after) hsplit (.allReduce, 1) (by decide)
  have hheld := hcall ((aroundCall "inner").instructions.get ⟨1, by decide⟩) (List.get_mem _ _) rfl
    (by decide) rfl (by decide)
  have hunits : ((generic {}).tracker.unitsHeld .allReduce
      ((aroundCall "inner").instructions.get ⟨1, by decide⟩).toInstruction
      (some reductions)).toNat = 1 := by
    decide
  rw [hunits] at hheld
  change 0 ≤ (aroundCall "inner").balance (generic {}).tracker .allReduce before at hnonneg
  change (aroundCall "inner").balance (generic {}).tracker .allReduce before + (1 : Nat) ≤ (1 : Nat)
    at hheld
  omega

section Unlimited

variable (s)

def Unlimited (limits : List (Resource × UInt32)) : Prop := ∀ limit ∈ limits, limit.2 = 0xFFFFFFFF

omit [TimeScale τ] in
theorem callsFit_of_unlimited (st : ScheduleState τ) (h : Unlimited st.limits) (n : Node τ) :
    s.callsFit st n = true := by
  unfold callsFit
  rw [List.all_eq_true]
  intro limit hlimit
  have hlargest : limit.2.toNat = UInt32.size - 1 := congrArg UInt32.toNat (h limit hlimit)
  simp only [unitsFit, hlargest, Bool.or_eq_true, decide_eq_true_eq]
  exact Or.inr (Nat.min_le_right _ _)

/-- The module of a state is asked for what calls hold, and for nothing else. -/
theorem best?_of_unlimited {st : ScheduleState τ} (h : Unlimited st.limits) (m : Option Module) :
    s.best? { st with module := m } = s.best? st := by
  have hfeasible (n : Node τ) : s.isFeasible { st with module := m } n = s.isFeasible st n := by
    unfold isFeasible
    rw [callsFit_of_unlimited s st h, callsFit_of_unlimited s { st with module := m } h]
    rfl
  have hcandidate (index : Nat) (n : Node τ) :
      s.candidate { st with module := m } index n = s.candidate st index n := by
    unfold candidate
    rw [hfeasible]
  have hpool : s.pool { st with module := m } = s.pool st := by
    unfold pool candidates
    simp only [funext (hcandidate _)]
  unfold best?
  rw [hpool]
  rfl

theorem relieve_module (st : ScheduleState τ) (m : Option Module) (index : Nat) :
    relieve { st with module := m } index = { st.relieve index with module := m } := by
  unfold relieve
  dsimp only
  split
  · rfl
  · split <;> rfl

theorem place_module (st : ScheduleState τ) (m : Option Module) (index : Nat) (n : Node τ) :
    place { st with module := m } index n = { st.place index n with module := m } := by
  have hrelieve (l : List Nat) (st : ScheduleState τ) :
      l.foldl relieve { st with module := m } = { l.foldl relieve st with module := m } := by
    induction l generalizing st with
    | nil => rfl
    | cons index l ih => rw [List.foldl_cons, relieve_module, ih, List.foldl_cons]
  exact hrelieve (n.predecessors.map (·.target))
    ((st.put index n (st.placingTime n)).settleSuccessors n)

theorem step?_of_unlimited {st : ScheduleState τ} (h : Unlimited st.limits) (m : Option Module) :
    s.step? { st with module := m } =
      (s.step? st).map fun (did, next) => (did, { next with module := m }) := by
  unfold step?
  rw [best?_of_unlimited s h]
  cases s.best? st with
  | none => rfl
  | some chosen =>
    dsimp only
    cases st.graph.node? chosen.1.node with
    | none => rfl
    | some n =>
      simp only [Option.map_some, place_module]
      rfl

theorem steps_of_unlimited (k : Nat) (st : ScheduleState τ) (h : Unlimited st.limits)
    (m : Option Module) :
    s.steps k { st with module := m } =
      ((s.steps k st).1, { (s.steps k st).2 with module := m }) := by
  induction k generalizing st with
  | zero => rfl
  | succ k ih =>
    unfold steps
    rw [step?_of_unlimited s h]
    cases hstep : s.step? st with
    | none => rfl
    | some done =>
      obtain ⟨did, next⟩ := done
      obtain ⟨index, _, n, _, rfl⟩ := step?_eq_some s hstep
      have hlimits : Unlimited (st.place index n).limits := by
        obtain ⟨graph, ready, hplace⟩ := place_rest st index n
        rwa [hplace]
      simp only [Option.map_some, ih _ hlimits]

/-- Without limits that count, calls may hold what they like. -/
theorem schedule_of_unlimited (h : Unlimited s.tracker.limits) (c : Computation)
    (sequence : List Nat) (m : Option Module) (pressure : Option Pressure) :
    s.schedule c sequence m pressure = s.schedule c sequence none pressure := by
  unfold schedule start
  cases Graph.build c sequence s.estimator s.tracker with
  | error fault => rfl
  | ok g =>
    simp only [bind, Except.bind, pure, Except.pure]
    unfold drain
    exact congrArg (fun run => finish run.2) (steps_of_unlimited s g.size {
      graph := g
      ready := g.bottom
      limits := s.tracker.limits
      time := TimeScale.zero
      memory := initialMemory c pressure
      module := none } h m)

end Unlimited

def boundless : Settings where
  collectivePermuteOverlap := 0xFFFFFFFF
  allToAllOverlap := 0xFFFFFFFF
  allGatherOverlap := 0xFFFFFFFF
  allReduceOverlap := 0xFFFFFFFF
  sendRecvOverlap := 0xFFFFFFFF
  sendRecvHostOverlap := 0xFFFFFFFF

theorem le_largest (x : UInt32) : x ≤ 0xFFFFFFFF := by
  have := x.toNat_lt
  rw [UInt32.le_iff_toNat_le]
  change x.toNat ≤ 4294967295
  omega

theorem unlimited_boundless : Unlimited (generic boundless).tracker.limits := by
  unfold Unlimited
  decide

def levelName (k : Nat) : String := String.ofList (List.replicate k 'c')

def level : Nat → Computation
  | 0 => [{ name := "s", opcode := .allReduceStart, shape := .array 4 }].foldl
      Computation.grown { name := levelName 0 }
  | k + 1 => [{ name := "s", opcode := .allReduceStart, shape := .array 4 },
      { name := "a", opcode := .call, shape := .array 4, calls := [levelName k] },
      { name := "b", opcode := .call, shape := .array 4, calls := [levelName k] }].foldl
      Computation.grown { name := levelName (k + 1) }

def tower : Module where
  name := "m"
  computations := aroundCall (levelName 31) :: (List.range 32).map level

theorem name_level (k : Nat) : (level k).name = levelName k := by
  cases k <;> rfl

theorem levelName_inj {j k : Nat} (h : levelName j = levelName k) : j = k := by
  have := congrArg String.toList h
  simpa [levelName] using congrArg List.length this

theorem nodup_names_tower : (tower.computations.map (·.name)).Nodup := by
  have hnames : tower.computations.map (·.name) = "main" :: (List.range 32).map levelName := by
    rw [tower, List.map_cons, List.map_map]
    exact congrArg _ (List.map_congr_left fun k _ => name_level k)
  rw [hnames, List.nodup_cons]
  refine ⟨?_, List.nodup_range.map fun j k => levelName_inj⟩
  intro hmain
  obtain ⟨k, _, hk⟩ := List.mem_map.1 hmain
  have hchars : List.replicate k 'c' = ['m', 'a', 'i', 'n'] := by
    simpa [levelName] using congrArg String.toList hk
  have hm : 'm' ∈ List.replicate k 'c' := hchars ▸ List.mem_cons_self
  exact absurd (List.eq_of_mem_replicate hm) (by decide)

theorem find?_tower {k : Nat} (hk : k < 32) : tower.find? (levelName k) = some (level k) := by
  rw [← name_level]
  apply Module.find?_of_mem nodup_names_tower
  exact List.mem_cons_of_mem _ (List.mem_map.2 ⟨k, List.mem_range.2 hk, rfl⟩)

theorem max_zero_left (x : UInt32) : max 0 x = x := if_pos UInt32.zero_le

omit [TimeScale τ] in
theorem unitsHeld_call (t : AsyncTracker τ) (r : Resource) (m : Module) (callee : String)
    {i : Instruction} (hcalls : i.calls = [callee]) (hstart : t.isStart i = false)
    (hdone : t.isDone i = false) : t.unitsHeld r i (some m) = t.occupiers m r callee := by
  simp [AsyncTracker.unitsHeld, AsyncTracker.largestCount, hcalls, hstart, hdone, max_zero_left]

theorem occupiersWithin_tower (settings : Settings) {k : Nat} (hk : k < 32) (depth : Nat)
    (hdepth : k < depth) :
    (generic settings).tracker.occupiersWithin tower .allReduce depth (levelName k) =
      UInt32.ofNat (2 ^ (k + 1) - 1) := by
  induction k generalizing depth with
  | zero =>
    obtain ⟨depth, rfl⟩ : ∃ d, depth = d + 1 := ⟨depth - 1, by omega⟩
    rw [AsyncTracker.occupiersWithin, Module.overCalls, find?_tower hk]
    rfl
  | succ k ih =>
    obtain ⟨depth, rfl⟩ : ∃ d, depth = d + 1 := ⟨depth - 1, by omega⟩
    have hbelow := ih (by omega) depth (by omega)
    rw [AsyncTracker.occupiersWithin, Module.overCalls, find?_tower hk]
    -- the start, and twice what is occupied below
    change (1 : UInt32) + 0 + ((0 + max 0 ((generic settings).tracker.occupiersWithin tower
      .allReduce depth (levelName k))) + ((0 + max 0 ((generic settings).tracker.occupiersWithin
        tower .allReduce depth (levelName k))) + 0)) = _
    rw [hbelow]
    have hpow : 2 ^ (k + 1 + 1) - 1 = 1 + ((2 ^ (k + 1) - 1) + (2 ^ (k + 1) - 1)) := by
      have := Nat.pow_succ 2 (k + 1)
      have := Nat.one_le_two_pow (n := k + 1)
      omega
    rw [hpow, UInt32.ofNat_add, UInt32.ofNat_add]
    simp [max_zero_left]

/-- One reduction is under way while a call makes as many more as can be counted. -/
theorem exceeds_limit_tower :
    (generic boundless).Provided (aroundCall (levelName 31)) (some tower) ∧
    (Resource.allReduce, 0xFFFFFFFF) ∈ (generic boundless).tracker.limits ∧
    (∃ out, (generic boundless).schedule (aroundCall (levelName 31)) [0, 1, 2] (some tower) none =
      .ok out ∧ out.sequence = [0] ++ 1 :: [2]) ∧
    ∃ p, (aroundCall (levelName 31)).instruction? 1 = some p ∧
      (0xFFFFFFFF : UInt32).toNat <
        (aroundCall (levelName 31)).balance (generic boundless).tracker .allReduce [0] +
          ((generic boundless).tracker.unitsHeld .allReduce p.toInstruction
            (some tower)).toNat := by
  have hrun : ((generic boundless).schedule (aroundCall (levelName 31)) [0, 1, 2] none
      none).toOption.map (·.sequence) = some [0, 1, 2] := by decide +kernel
  have hunits := occupiersWithin_tower boundless (k := 31) (by decide)
    (tower.computations.length + 1) (by decide)
  rw [← AsyncTracker.occupiers_eq] at hunits
  have hbalance :
      (aroundCall (levelName 31)).balance (generic boundless).tracker .allReduce [0] = 1 := rfl
  refine ⟨⟨?_, paired_aroundCall _ _, ?_⟩, by decide, ?_, _, rfl, ?_⟩
  · intro limit hlimit
    rw [unlimited_boundless limit hlimit]
    decide
  · intro p _ _ _ limit hlimit
    rw [unlimited_boundless limit hlimit]
    exact le_largest _
  · rw [schedule_of_unlimited _ unlimited_boundless]
    cases hout : (generic boundless).schedule (aroundCall (levelName 31)) [0, 1, 2] none none with
    | error fault =>
      rw [hout] at hrun
      cases hrun
    | ok out =>
      rw [hout] at hrun
      exact ⟨out, rfl, Option.some.inj hrun⟩
  · rw [hbalance, unitsHeld_call _ _ tower (levelName 31) rfl rfl rfl, hunits]
    decide

end Scheduler

end LatencyHiding
