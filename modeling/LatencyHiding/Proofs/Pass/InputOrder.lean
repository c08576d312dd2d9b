import LatencyHiding.Proofs.Engine.Passes

set_option autoImplicit false

namespace LatencyHiding

open Relation TimeScale ScheduleState

/-- Nothing in it starts or ends asynchronous work, and nothing should stand early. -/
def Computation.Quiet (c : Computation) (settings : Settings) : Prop :=
  ∀ p ∈ c.instructions, AsyncTracker.startSupported settings p.toInstruction = false ∧
    AsyncTracker.doneSupported settings p.toInstruction = false ∧ p.hint ≠ some .earliest

instance (c : Computation) (settings : Settings) : Decidable (c.Quiet settings) :=
  inferInstanceAs (Decidable (∀ p ∈ c.instructions, _))

def Module.Quiet (m : Module) (settings : Settings) : Prop :=
  ∀ c ∈ m.computations, c.Quiet settings

instance (m : Module) (settings : Settings) : Decidable (m.Quiet settings) :=
  inferInstanceAs (Decidable (∀ c ∈ m.computations, _))

namespace AsyncTracker

variable {τ : Type} {settings : Settings} {c : Computation} {m : Module}

theorem largestCount_eq_zero {counts : List UInt32} (h : ∀ x ∈ counts, x = 0) :
    largestCount counts = 0 := by
  unfold largestCount
  induction counts with
  | nil => rfl
  | cons x counts ih =>
    obtain ⟨rfl, hrest⟩ := List.forall_mem_cons.1 h
    exact ih hrest

theorem uses_of_quiet (quiet : c.Quiet settings) {p : Placed} (hp : p ∈ c.instructions) :
    (generic settings : AsyncTracker τ).uses p.toInstruction = [] := by
  obtain ⟨hstart, hdone, _⟩ := quiet p hp
  change genericUses settings p.toInstruction = []
  simp [genericUses, usage?, hstart, hdone]

theorem ownUnits_of_quiet (quiet : c.Quiet settings) (r : Resource) {p : Placed}
    (hp : p ∈ c.instructions) :
    (generic settings : AsyncTracker τ).ownUnits r p.toInstruction = 0 := by
  rw [ownUnits, uses_of_quiet quiet hp]
  rfl

theorem checkedUnitsIn_of_quiet (quiet : c.Quiet settings) (r : Resource)
    {count : String → Option UInt32} (hcount : ∀ name, count name = some 0) :
    (generic settings : AsyncTracker τ).checkedUnitsIn r c count = some 0 := by
  have hlargest (callees : List String) : largestOf count callees = some 0 := by
    have hgives : Gives True (largestOf count callees) (largestCount (callees.map fun _ => 0)) :=
      gives_largestOf fun callee _ => hcount callee ▸ .some 0
    rw [hgives.eq_some trivial, largestCount_eq_zero (by simp)]
  have hsum (l : List Placed) (hl : l ⊆ c.instructions) : l.foldlM (fun sum p => do
      let nested ← largestOf count ((generic settings : AsyncTracker τ).heldCallees p.toInstruction)
      let units ← addInRange ((generic settings : AsyncTracker τ).ownUnits r p.toInstruction) nested
      addInRange sum units) 0 = some 0 := by
    induction l with
    | nil => rfl
    | cons p l ih =>
      obtain ⟨hp, hl⟩ := List.cons_subset.1 hl
      rw [List.foldlM_cons, hlargest, ownUnits_of_quiet quiet r hp]
      exact ih hl
  exact hsum c.instructions (List.Subset.refl _)

theorem checkedOccupiers_of_quiet (quiet : m.Quiet settings) (r : Resource) (name : String) :
    (generic settings : AsyncTracker τ).checkedOccupiers m r name = some 0 := by
  unfold checkedOccupiers
  generalize m.computations.length + 1 = depth
  induction depth generalizing name with
  | zero => rfl
  | succ depth ih =>
    cases hfind : m.find? name with
    | none => exact Module.overCalls_of_unknown hfind _
    | some c =>
      rw [Module.overCalls_succ hfind]
      exact checkedUnitsIn_of_quiet (quiet c (Module.mem_of_find? hfind).1) r ih

theorem unitsHeld_of_quiet (quiet : m.Quiet settings) (hc : c ∈ m.computations) (r : Resource)
    {p : Placed} (hp : p ∈ c.instructions) :
    (generic settings : AsyncTracker τ).unitsHeld r p.toInstruction (some m) = 0 := by
  have hdirect : (generic settings : AsyncTracker τ).directUnits r p.toInstruction = 0 := by
    rw [directUnits, uses_of_quiet (quiet c hc) hp]
    rfl
  rw [unitsHeld, hdirect]
  split
  · rfl
  · apply largestCount_eq_zero
    rw [List.forall_mem_map]
    exact fun callee _ => occupiers_of_checked (checkedOccupiers_of_quiet quiet r callee)

end AsyncTracker

namespace Scheduler

/-- Approximate times, the generic tracker, no rule of the platform and no limit on memory. -/
structure Approximates (s : Scheduler Rat) (settings : Settings) : Prop where
  estimator_eq : s.estimator = .approximate
  tracker_eq : s.tracker = .generic settings
  rule_eq : s.rule = none
  limit_eq : s.settings.memoryLimit = Settings.unlimitedMemory

variable {s : Scheduler Rat} {settings : Settings} {c : Computation} {σ : List Nat} {m : Module}
  {pressure : Option Pressure} {st : ScheduleState Rat}

namespace Approximates

theorem free (approximates : s.Approximates settings) (c : Computation) :
    s.tracker.demands c = [] := by
  rw [approximates.tracker_eq]
  rfl

theorem one_le_costOf (approximates : s.Approximates settings) {a : Nat} (ha : a < c.size) :
    1 ≤ s.costOf c a := by
  obtain ⟨p, hp⟩ := Computation.exists_instruction? ha
  rw [costOf, hp, approximates.estimator_eq]
  change 1 ≤ Estimator.approximate.cost p.toInstruction
  unfold Estimator.approximate Estimator.mediumCost Estimator.lowCost
  dsimp only
  split <;> norm_num [ofCycles]

section Quiet

variable (approximates : s.Approximates settings) (quiet : c.Quiet settings)

include approximates quiet

theorem isAsyncPair_eq_false {a : Nat} {p q : Placed} (hp : c.instruction? a = some p) :
    (s.tracker.site p).isAsyncPair (s.tracker.site q) = false := by
  have hstart := (quiet p ((Computation.mem_instructions_iff c p).2 ⟨a, hp⟩)).1
  have hsite : (s.tracker.site p).isStart = false := by
    rw [approximates.tracker_eq]
    exact hstart
  simp [Site.isAsyncPair, hsite]

theorem latency_le_one (a b : Nat) : c.between s.tracker s.estimator.latency a b ≤ 1 := by
  rcases c.between_cases s.tracker s.estimator.latency a b with hzero | ⟨p, q, hp, _, hpair⟩
  · rw [hzero]
    exact zero_le_one
  · rw [hpair, approximates.estimator_eq]
    simp [Estimator.approximate, approximates.isAsyncPair_eq_false quiet hp, Estimator.lowLatency,
      ofCycles]

theorem asyncLatency_eq_zero (a b : Nat) :
    c.between s.tracker (Graph.Depicts.asyncLatency s.estimator) a b = 0 := by
  rcases c.between_cases s.tracker (Graph.Depicts.asyncLatency s.estimator) a b with
    hzero | ⟨p, q, hp, _, hpair⟩
  · exact hzero
  · rw [hpair, Graph.Depicts.asyncLatency, approximates.isAsyncPair_eq_false quiet hp]
    rfl

end Quiet

/-- Since an instruction started the clock has gone on by what the latency to it takes. -/
theorem started_add_one_le (approximates : s.Approximates settings) {placed : List Nat}
    (hknown : ∀ a ∈ placed, a < c.size) : 0 ≤ (s.timeline c placed).now ∧
      ∀ b ∈ placed, (s.timeline c placed).started b + 1 ≤ (s.timeline c placed).now := by
  induction placed with
  | nil => exact ⟨le_refl _, List.forall_mem_nil _⟩
  | cons a placed ih =>
    obtain ⟨ha, hrest⟩ := List.forall_mem_cons.1 hknown
    obtain ⟨hnow, hstarted⟩ := ih hrest
    have hcost := approximates.one_le_costOf ha
    have hstart : (s.timeline c placed).now ≤ (s.timeline c (a :: placed)).started a := by
      simp [timeline, later_eq_max]
    rw [now_timeline_cons]
    refine ⟨by linarith, ?_⟩
    intro b hb
    by_cases hba : b = a
    · rw [hba]
      linarith
    · have hb := hstarted b ((List.mem_cons.1 hb).resolve_left hba)
      rw [started_timeline_cons_of_ne hba]
      linarith

end Approximates

end Scheduler

structure Candidate.Indistinct (now : Rat) (x : Candidate Rat) : Prop where
  forceDelay_eq : x.forceDelay = false
  asyncDepth_eq : x.asyncDepth = 0
  isDone_eq : x.isDone = false
  readyTime_le : x.readyTime ≤ now

namespace Scheduler

variable {s : Scheduler Rat} {settings : Settings} {c : Computation} {σ : List Nat} {m : Module}
  {pressure : Option Pressure} {st : ScheduleState Rat}

theorem prefers_of_indistinct (hlimit : s.settings.memoryLimit = Settings.unlimitedMemory)
    {a b : Candidate Rat} (ha : a.Indistinct st.time) (hb : b.Indistinct st.time) :
    s.prefers st a b = none := by
  simp [prefers, Candidate.byForceDelay, Candidate.byAsyncDepth, Candidate.byMemory,
    Candidate.byAsyncDone, Candidate.byStall, Candidate.choose, hlimit, ha.forceDelay_eq,
    hb.forceDelay_eq, ha.asyncDepth_eq, hb.asyncDepth_eq, ha.isDone_eq, hb.isDone_eq,
    ha.readyTime_le, hb.readyTime_le, not_lt.2 ha.readyTime_le]

theorem Reached.lt_size_of_placed {q : Option Module} (h : s.Reached c σ q pressure st)
    (hc : c.Wired) (horder : c.IsOrder σ) {a : Nat} (ha : a ∈ st.placed) : a < c.size := by
  obtain ⟨history, consistent⟩ := h.consistent
  rw [consistent.placed_eq] at ha
  obtain ⟨v, hv, rfl⟩ := List.mem_map.1 ha
  rw [← horder.mem_iff, ← (h.represents hc).2.1]
  exact List.mem_of_getElem? (Graph.getElem?_order _ (consistent.lt_size v hv))

/-- Of an order whose end is placed, the next instruction from the end is ready: what needs it
stands neither before it nor in its place. -/
theorem Reached.mem_ready_of_end {q : Option Module} (h : s.Reached c σ q pressure st)
    (hc : c.Wired) (horder : c.IsOrder σ) (free : ∀ c, s.tracker.demands c = []) {u : Nat}
    {n : Node Rat} (hn : st.graph.node? u = some n) {l : List Nat}
    (hend : σ = l ++ n.instr.id :: st.placed) : u ∈ st.ready := by
  rw [h.mem_ready_iff_needs hc horder free hn]
  constructor
  · have nodup := horder.nodup
    rw [hend] at nodup
    exact (List.nodup_cons.1 nodup.of_append_right).1
  · intro b hneeds
    have hpairs := ((Computation.isOrder_iff_pairwise hc).1 horder).2
    have hb := (horder.mem_iff b).2 hneeds.lt_size
    rw [hend, List.pairwise_append] at hpairs
    rw [hend, List.mem_append, List.mem_cons] at hb
    rcases hb with hb | rfl | hb
    · exact absurd hneeds (hpairs.2.2 b hb _ List.mem_cons_self)
    · exact absurd hneeds (hc.not_needs_self _)
    · exact hb

section Run

variable (approximates : s.Approximates settings) (quiet : m.Quiet settings)
  (hmem : c ∈ m.computations) (hc : c.Wired) (horder : c.IsOrder σ)

include approximates quiet hmem hc

theorem Reached.isFeasible_of_quiet (h : s.Reached c σ (some m) pressure st) {u : Nat}
    {n : Node Rat} (hn : st.graph.node? u = some n) : s.isFeasible st n = true := by
  have hknown := (h.label hc hn).1
  have hinstr : n.instr ∈ c.instructions := (Computation.mem_instructions_iff c _).2 ⟨_, hknown⟩
  have huses : n.uses = [] := by
    rw [h.uses_eq hc hn, Computation.usesOf, hknown, approximates.tracker_eq]
    exact AsyncTracker.uses_of_quiet (quiet c hmem) hinstr
  have hcalls : s.callsFit st n = true := by
    rw [callsFit, List.all_eq_true]
    rintro ⟨r, limit⟩ _
    dsimp only
    rw [h.module_eq, approximates.tracker_eq, AsyncTracker.unitsHeld_of_quiet quiet hmem r hinstr]
    rfl
  simp [isFeasible, releasesFit, huses, hcalls]

include horder

theorem Reached.asyncDepth_of_quiet (h : s.Reached c σ (some m) pressure st) {u : Nat}
    {n : Node Rat} (hn : st.graph.node? u = some n) : n.asyncDepth = 0 := by
  obtain ⟨g, hg, hkeeps⟩ := h.graph
  obtain ⟨old, hold, hsame⟩ := hkeeps.exists_node? hn
  have depicts := Graph.depicts_of_build hc horder approximates.free hg
  have deep := Graph.deep_of_build hc horder approximates.free hg
  -- by induction on the id, since what an instruction needs has a smaller one
  have hall (b : Nat) : ∀ (v : Nat) (p : Node Rat), g.node? v = some p → p.instr.id = b →
      p.asyncDepth = 0 := by
    induction b using Nat.strongRecOn with
    | ind b ih =>
      rintro v p hp rfl
      rw [(deep v p hp).1, depicts.asyncDepthOf_eq hc hp fun _ => 0]
      · apply latest_eq_zero
        rw [List.forall_mem_map]
        intro a _
        rw [approximates.asyncLatency_eq_zero (quiet c hmem), add_zero]
      · intro w q hlead hq
        exact ih q.instr.id (((depicts.leads_iff_needs hq hp).1 hlead).lt hc) w q hq rfl
  rw [← Node.eq_of_essence hsame Node.asyncDepth fun _ => rfl]
  exact hall _ u old hold rfl

theorem Reached.readyTime_le_of_quiet (h : s.Reached c σ (some m) pressure st)
    (onTime : s.OnTime c st) {u : Nat} (hu : u ∈ st.ready) {n : Node Rat}
    (hn : st.graph.node? u = some n) : n.readyTime ≤ st.time := by
  obtain ⟨hnow, hstarted⟩ := approximates.started_add_one_le fun a ha =>
    h.lt_size_of_placed hc horder ha
  have hafter := ((h.mem_ready_iff_needs hc horder approximates.free hn).1 hu).2
  rw [onTime.ready_eq u hu n hn, onTime.time_eq]
  apply latest_le hnow
  rw [List.forall_mem_map]
  intro b hb
  have hneeds : c.Needs b n.instr.id := by simpa using (List.mem_filter.1 hb).2
  have hlatency := approximates.latency_le_one (quiet c hmem) n.instr.id b
  have hb := hstarted b (hafter b hneeds)
  linarith

theorem Reached.indistinct (h : s.Reached c σ (some m) pressure st) (onTime : s.OnTime c st)
    {u : Nat} (hu : u ∈ st.ready) {n : Node Rat} (hn : st.graph.node? u = some n) :
    (s.candidate st u n).Indistinct st.time := by
  obtain ⟨hknown, hlabel⟩ := h.label hc hn
  obtain ⟨_, hdone, hhint⟩ := quiet c hmem n.instr ((Computation.mem_instructions_iff c _).2
    ⟨_, hknown⟩)
  constructor
  · obtain ⟨g, hg, hkeeps⟩ := h.graph
    obtain ⟨old, hold, hsame⟩ := hkeeps.exists_node? hn
    have hinstr := Node.eq_of_essence hsame (·.instr) fun _ => rfl
    change n.forceDelay = false
    rw [← Node.eq_of_essence hsame Node.forceDelay fun _ => rfl,
      Graph.forceDelay_of_build hc hg hold, hinstr, approximates.tracker_eq]
    simpa [AsyncTracker.generic] using hhint
  · exact h.asyncDepth_of_quiet approximates quiet hmem hc horder hn
  · have hsite : n.isDone = s.tracker.isDone n.instr.toInstruction :=
      congrArg (fun label => label.1.isDone) hlabel
    change n.isDone = false
    rw [hsite, approximates.tracker_eq]
    exact hdone
  · exact h.readyTime_le_of_quiet approximates quiet hmem hc horder onTime hu hn

theorem Reached.step?_of_end (h : s.Reached c σ (some m) pressure st) (onTime : s.OnTime c st)
    {l : List Nat} {a : Nat} (hend : σ = l ++ a :: st.placed) :
    ∃ u ∈ st.ready, ∃ n did, st.graph.node? u = some n ∧ n.instr.id = a ∧
      s.step? st = some (did, st.place u n) := by
  have free := approximates.free
  have ha : a < c.size := (horder.mem_iff a).1 (by simp [hend])
  obtain ⟨u, n, hn, rfl⟩ := (h.depicts hc horder free).exists_node ha
  have hready := h.mem_ready_of_end hc horder free hn hend
  have hcandidate := (mem_candidates_iff s (s.candidate st u n)).2 ⟨u, hready, n, hn, rfl⟩
  have hpool : s.candidate st u n ∈ s.pool st := (mem_pool_iff _).2
    ⟨hcandidate, Or.inl (h.isFeasible_of_quiet approximates quiet hmem hc hn)⟩
  obtain ⟨reason, hbest⟩ := best?_of_prefers approximates.rule_eq (h.timed hc onTime) hpool
    (by
      intro x hx
      obtain ⟨v, hv, p, hp, rfl⟩ := (mem_candidates_iff s x).1 (mem_candidates_of_mem_pool s hx)
      rw [prefers_of_indistinct approximates.limit_eq
        (h.indistinct approximates quiet hmem hc horder onTime hready hn)
        (h.indistinct approximates quiet hmem hc horder onTime hv hp)]
      exact nofun)
    (h.position_lt_of_end hc horder free hend hn)
  obtain ⟨did, hstep⟩ := step?_of_best hbest hn
  exact ⟨u, hready, n, did, hn, rfl, hstep⟩

theorem Reached.placed_steps_of_end (h : s.Reached c σ (some m) pressure st)
    (onTime : s.OnTime c st) {l : List Nat} (hend : σ = l ++ st.placed) :
    (s.steps l.length st).2.placed = σ := by
  induction l using List.reverseRecOn generalizing st with
  | nil => exact hend.symm
  | append_singleton l a ih =>
    rw [List.append_assoc, List.singleton_append] at hend
    obtain ⟨u, hu, n, did, hn, rfl, hstep⟩ :=
      h.step?_of_end approximates quiet hmem hc horder onTime hend
    have hnext := ih (h.place hc hu hn) (.place hc horder approximates.free h hu hn onTime)
      (by rw [placed_place, hend])
    rw [List.length_append, List.length_singleton, Scheduler.steps, hstep]
    exact hnext

/-- An order with nothing to hide stays as it is. -/
theorem sequence_of_quiet {out : ComputationSchedule}
    (hout : s.schedule c σ (some m) pressure = .ok out) : out.sequence = σ := by
  obtain ⟨st, hstart⟩ := s.exists_start_of_isOrder hc horder (some m) pressure
  rw [schedule_of_start hc horder approximates.free hstart, Except.ok.injEq] at hout
  subst hout
  have reached := reached_start hc hstart
  have hsize : st.graph.size = σ.length := by
    rw [Graph.size_eq_length_order, (reached.represents hc).2.1]
  change (s.steps st.graph.size st).2.placed = σ
  rw [hsize]
  apply reached.placed_steps_of_end approximates quiet hmem hc horder
    (onTime_start hc horder approximates.free hstart)
  rw [(start_ok hstart).2.2, List.append_nil]

end Run

end Scheduler

namespace Pass

variable {p : Pass Rat} {settings : Settings} {m : Module}

theorem exists_run_of_quiet (hmode : p.mode = .latencyHiding)
    (approximates : p.scheduler.Approximates settings) (sound : m.Sound) (quiet : m.Quiet settings) :
    ∃ schedule summary, p.run m = .ok ({ m with schedule := some schedule }, summary) ∧
      (∀ c ∈ m.computations, schedule.get? c.name = some (Module.orderIn m.currentSchedule c)) ∧
      summary.changedComputations = 0 := by
  obtain ⟨done, hdone⟩ := exists_complete_of_latencyHiding hmode approximates.free sound
  refine ⟨_, _, run_of_complete sound hdone, ?_⟩
  simp only [← sound.mem_calleeFirst_iff]
  apply complete_invariant (P := fun before (now : Progress Rat) =>
    (∀ c ∈ before, now.schedule.get? c.name = some (Module.orderIn m.currentSchedule c)) ∧
      now.changedComputations = 0) ⟨List.forall_mem_nil _, rfl⟩ _ hdone
  rintro before c after now next hsplit ⟨hschedule, hchanged⟩ hnext
  have hc : c ∈ m.computations := (sound.mem_calleeFirst_iff c).1 (by simp [hsplit])
  obtain ⟨result, hresult, _, statistics, _, rfl⟩ := advance_eq_ok_iff.1 hnext
  rw [scheduleComputation_of_latencyHiding hmode] at hresult
  have hsame := Scheduler.sequence_of_quiet approximates quiet hc (sound.wired c hc)
    (sound.scheduled c hc) hresult
  constructor
  · intro d hd
    change (now.schedule.set c.name result.sequence).get? d.name = _
    rw [hsame]
    by_cases hname : d.name = c.name
    · have hd' : d ∈ m.computations := by
        rw [← sound.mem_calleeFirst_iff, hsplit, List.append_cons]
        exact List.mem_append_left after hd
      rw [hname, KeyedList.get?_set_self, sound.eq_of_name hd' hc hname]
    · rw [KeyedList.get?_set_of_ne hname]
      refine hschedule d ((List.mem_append.1 hd).resolve_right ?_)
      rintro hd
      exact hname (congrArg _ (List.mem_singleton.1 hd))
  · exact (if_pos hsame).trans hchanged

theorem inRange_of_quiet (approximates : p.scheduler.Approximates settings)
    (quiet : m.Quiet settings)
    (hbytes : ∀ c ∈ m.computations, m.callVolume p.sizing c.name < 2 ^ 63) : p.InRange m where
  bytes := hbytes
  uses c hc := by
    rw [approximates.tracker_eq, Computation.useCount, List.sum_eq_zero]
    · decide
    rw [List.forall_mem_map]
    intro i hi
    rw [AsyncTracker.uses_of_quiet (quiet c hc) hi, List.length_nil]
  counts c hc i hi callee hcallee r := by
    rw [approximates.tracker_eq, AsyncTracker.checkedOccupiers_of_quiet quiet]
    exact Option.some_ne_none 0

/-- A pass that hides latencies, where there are none, succeeds without a change, if the memo of its
tracker is right about the module: it installs for every computation the order that it had, and
counts nothing as changed. It has an answer unless bytes leave their range. -/
theorem input_order_stable (hmode : p.mode = .latencyHiding)
    (approximates : p.scheduler.Approximates settings) (made : m.Made)
    (acyclic : ∀ name, ¬ TransGen m.Calls name name) (quiet : m.Quiet settings)
    {notes : AsyncTracker.OccupierMemo} (recalls : p.scheduler.tracker.Recalls m notes) :
    let outcome := ((p.engine.run m).on notes).1
    ((∀ c ∈ m.computations, m.callVolume p.sizing c.name < 2 ^ 63) → outcome ≠ none) ∧
      ∀ answer, outcome = some answer →
        ∃ schedule summary, answer = .ok ({ m with schedule := some schedule }, summary) ∧
          (∀ c ∈ m.computations,
            schedule.get? c.name = some (Module.orderIn m.currentSchedule c)) ∧
          summary.changedComputations = 0 := by
  intro outcome
  have hgives : Gives (p.InRange m) outcome (p.run m) := gives_run made.sound acyclic recalls
  refine ⟨fun hbytes => ?_, fun answer hanswer => ?_⟩
  · rw [hgives.eq_some (inRange_of_quiet approximates quiet hbytes)]
    exact Option.some_ne_none _
  · rw [hgives.eq_of_some hanswer]
    exact exists_run_of_quiet hmode approximates made.sound quiet

def swappedPair : Module where
  name := "m"
  computations := [
    [{ name := "p", opcode := .parameter, shape := .array 4 },
      { name := "a", opcode := .negate, shape := .array 4, operands := [0] },
      { name := "b", opcode := .customCall, shape := .array 4, operands := [0] },
      { name := "r", opcode := .add, shape := .array 4, operands := [1, 2] }].foldl
        Computation.grown { name := "c" },
    [{ name := "p", opcode := .parameter, shape := .array 4 },
      { name := "w", opcode := .call, shape := .array 4, operands := [0], calls := ["c"] }].foldl
        Computation.grown { name := "main", isEntry := true }]
  schedule := some ⟨[("c", [0, 2, 1, 3]), ("main", [0, 1])]⟩

theorem made_swappedPair : swappedPair.Made := by
  have hassembled : Module.Made { swappedPair with schedule := none } := by
    refine .assembled (?_ : ∀ c ∈ swappedPair.computations, c.Built)
      (rfl : Module.assemble "m" _ none = .ok _)
    rw [show swappedPair.computations = [_, _] from rfl, List.forall_mem_cons,
      List.forall_mem_singleton]
    exact ⟨Computation.built_foldl_grown (.empty "c" false) _ rfl,
      Computation.built_foldl_grown (.empty "main" true) _ rfl⟩
  exact .scheduled hassembled
    (rfl : Module.setSchedule _ ⟨[("c", [0, 2, 1, 3]), ("main", [0, 1])]⟩ = .ok swappedPair)

theorem acyclic_swappedPair (name : String) : ¬ TransGen swappedPair.Calls name name :=
  Module.acyclic_of_rank (fun name => if name = "main" then 1 else 0) (by decide) name

/-- The costly instruction keeps its place, with the most eager settings as well. -/
theorem input_order_stable_swappedPair : ∃ schedule summary,
    (((forGeneric { aggressive := true } .latencyHiding none : Pass Rat).engine.run
        swappedPair).on []).1 =
      some (.ok ({ swappedPair with schedule := some schedule }, summary)) ∧
    schedule.get? "c" = some [0, 2, 1, 3] ∧ schedule.get? "main" = some [0, 1] ∧
    summary.changedComputations = 0 := by
  obtain ⟨hsome, hanswer⟩ := input_order_stable
    (p := forGeneric { aggressive := true } .latencyHiding none) rfl ⟨rfl, rfl, rfl, rfl⟩
    made_swappedPair acyclic_swappedPair (by decide) (AsyncTracker.recalls_nil _ _)
  obtain ⟨answer, hvalue⟩ := Option.ne_none_iff_exists'.1 (hsome (by decide +kernel))
  obtain ⟨schedule, summary, rfl, hschedule, hchanged⟩ := hanswer answer hvalue
  exact ⟨schedule, summary, hvalue, hschedule _ List.mem_cons_self,
    hschedule _ (List.mem_cons_of_mem _ List.mem_cons_self), hchanged⟩

def halvesAlone : Module where
  name := "m"
  computations := [Computation.halves]

def sumWithCall : Computation :=
  [{ name := "p", opcode := .parameter, shape := .array 4 },
    { name := "a", opcode := .negate, shape := .array 4, operands := [0] },
    { name := "w", opcode := .call, shape := .array 4, operands := [0], calls := ["body"] },
    { name := "r", opcode := .add, shape := .array 4, operands := [1, 2] }].foldl
      Computation.grown { name := "main", isEntry := true }

def quietBody : Module where
  name := "m"
  computations := [[{ name := "p", opcode := .parameter, shape := .array 4 }].foldl
    Computation.grown { name := "body" }, sumWithCall]

def crowdedBody : Module where
  name := "m"
  computations := [
    [{ name := "p", opcode := .parameter, shape := .array 4 },
      { name := "s", opcode := .allReduceStart, shape := .array 4, operands := [0] },
      { name := "t", opcode := .allReduceStart, shape := .array 4, operands := [0] },
      { name := "d", opcode := .allReduceDone, shape := .array 4, operands := [1] },
      { name := "e", opcode := .allReduceDone, shape := .array 4, operands := [2] },
      { name := "r", opcode := .add, shape := .array 4, operands := [3, 4] }].foldl
        Computation.grown { name := "body" }, sumWithCall]

theorem made_halvesAlone : halvesAlone.Made :=
  .assembled (List.forall_mem_singleton.2 Computation.built_halves)
    (rfl : Module.assemble "m" [Computation.halves] none = .ok halvesAlone)

theorem made_quietBody : quietBody.Made := by
  refine .assembled (?_ : ∀ c ∈ quietBody.computations, c.Built)
    (rfl : Module.assemble "m" _ none = .ok _)
  rw [show quietBody.computations = [_, _] from rfl, List.forall_mem_cons,
    List.forall_mem_singleton]
  exact ⟨Computation.built_foldl_grown (.empty "body" false) _ rfl,
    Computation.built_foldl_grown (.empty "main" true) _ rfl⟩

/-- There is no answer where bytes leave their range, and with a memo that is about another module
the order changes. -/
theorem input_order_lost :
    (halvesAlone.Made ∧ (∀ name, ¬ TransGen halvesAlone.Calls name name) ∧ halvesAlone.Quiet {} ∧
      (((forGeneric {} .latencyHiding none : Pass Rat).engine.run halvesAlone).on []).1 = none) ∧
    quietBody.Made ∧ (∀ name, ¬ TransGen quietBody.Calls name name) ∧ quietBody.Quiet {} ∧
      ∃ notes, notes =
          (((forGeneric {} .latencyHiding none : Pass Rat).engine.run crowdedBody).on []).2 ∧
        ((((forGeneric {} .latencyHiding none : Pass Rat).engine.run quietBody).on notes).1.bind
          fun answer => answer.toOption.map fun (m, summary) =>
            (m.currentSchedule.get? "main", summary.changedComputations)) =
          some (some [0, 2, 1, 3], 1) := by
  refine ⟨⟨made_halvesAlone, ?_, by decide, Option.isNone_iff_eq_none.1 (by decide +kernel)⟩,
    made_quietBody, ?_, by decide, _, rfl, by decide +kernel⟩
  · exact Module.acyclic_of_rank (fun _ => 0) (by decide)
  · exact Module.acyclic_of_rank (fun name => if name = "main" then 1 else 0) (by decide)

end Pass

end LatencyHiding
