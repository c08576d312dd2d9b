import LatencyHiding.Proofs.ListSchedule.Resources
import LatencyHiding.Proofs.Pass.Planning
import LatencyHiding.Proofs.TimeScale.Binary64

set_option autoImplicit false

namespace LatencyHiding.Pass

open TimeScale Relation

variable {τ : Type} {p : Pass τ} {m : Module} {c : Computation} {before : List Computation}
  {now now' next done : Progress τ}

/-- Only latencies are hidden, with the tracker of a platform and no rule beside it. -/
structure Plain (p : Pass τ) : Prop where
  mode_eq : p.mode = .latencyHiding
  rule_eq : p.scheduler.rule = none
  tracker_eq : ∃ settings platform, p.scheduler.tracker = .ofPlatform settings platform

namespace Plain

theorem free (plain : p.Plain) (c : Computation) : p.scheduler.tracker.demands c = [] := by
  obtain ⟨settings, platform, htracker⟩ := plain.tracker_eq
  rw [htracker]
  exact (AsyncTracker.regular_ofPlatform settings platform).demands_eq c

variable [TimeScale τ]

theorem scheduleComputation_eq (plain : p.Plain) (m : Module) (pressure : Pressure)
    (c : Computation) (sequence : List Nat) : p.scheduleComputation m pressure c sequence =
      p.scheduler.schedule c sequence (some m) (some pressure) :=
  scheduleComputation_of_latencyHiding plain.mode_eq m pressure c sequence

theorem exists_complete (plain : p.Plain) (sound : m.Sound) : ∃ done, p.complete m = .ok done :=
  exists_complete_of_latencyHiding plain.mode_eq plain.free sound

end Plain

/-- Two runs that have made the same of the computations `before`. -/
structure Tandem (before : List Computation) (now now' : Progress τ) : Prop where
  schedule_eq : now'.schedule = now.schedule
  statistics_eq : now'.statistics = now.statistics
  unchanged : now'.changedComputations = 0
  bottoms : now.pressure.SameBottoms now'.pressure
  state_eq : ∀ name ∈ before.map (·.name), now'.pressure.state? name = now.pressure.state? name

namespace Tandem

theorem sameOutlook (tandem : Tandem before now now')
    (hcallees : ∀ p ∈ c.instructions, ∀ callee ∈ p.calls, callee ∈ before.map (·.name)) :
    c.SameOutlook (some now.pressure) (some now'.pressure) where
  sizing_eq := tandem.bottoms.sizing_eq
  bottom_eq := congrArg (·.getD []) (tandem.bottoms.bottom_eq c.name)
  calleePeak_eq p hp := Pressure.calleePeak_congr fun callee hcallee =>
    tandem.state_eq callee (hcallees p hp callee hcallee)

theorem step (tandem : Tandem before now now') (c : Computation) (sequence : List Nat)
    (result : ComputationSchedule) (statistics : Statistics τ) : Tandem (before ++ [c])
      (now.next c sequence result.sequence (now.pressure.record c.name result.memory) statistics)
      (now'.next c result.sequence result.sequence (now'.pressure.record c.name result.memory)
        statistics) where
  schedule_eq := congrArg (·.set c.name result.sequence) tandem.schedule_eq
  statistics_eq := congrArg (· ++ [statistics]) tandem.statistics_eq
  unchanged := (if_pos rfl).trans tandem.unchanged
  bottoms := tandem.bottoms.record c.name rfl
  state_eq := by
    intro name hname
    change (now'.pressure.record _ _).state? name = (now.pressure.record _ _).state? name
    rw [Pressure.state?_record, Pressure.state?_record]
    split
    · rfl
    · next hne =>
      apply tandem.state_eq
      simpa [hne] using hname

variable [TimeScale τ] [Ordered τ]

/-- The second run gets the order that the first one made, and keeps it. -/
theorem advance (tandem : Tandem before now now') (plain : p.Plain) (hc : c.Wired)
    {base final : Schedule} (horder : c.IsOrder (Module.orderIn base c))
    (hcallees : ∀ p ∈ c.instructions, ∀ callee ∈ p.calls, callee ∈ before.map (·.name))
    (hnext : p.advance m base now c = .ok next)
    (hfinal : final.get? c.name = next.schedule.get? c.name) :
    ∃ next', p.advance { m with schedule := some final } final now' c = .ok next' ∧
      Tandem (before ++ [c]) next next' := by
  obtain ⟨result, hresult, hcheck, statistics, hstatistics, rfl⟩ := advance_eq_ok_iff.1 hnext
  have hagain : Module.orderIn final c = result.sequence :=
    Module.orderIn_of_get? (hfinal.trans (KeyedList.get?_set_self _ _ _))
  have hunits (r : Resource) (i : Instruction) : p.scheduler.tracker.unitsHeld r i
      (some { m with schedule := some final }) = p.scheduler.tracker.unitsHeld r i (some m) := rfl
  have hnext' := tandem.step c (Module.orderIn base c) result statistics
  refine ⟨_, advance_eq_ok_iff.2 ⟨result, ?_, hcheck, statistics, ?_, rfl⟩, ?_⟩
  · rw [plain.scheduleComputation_eq] at hresult ⊢
    rw [hagain]
    exact Scheduler.schedule_schedule hc horder plain.free plain.rule_eq hunits
      (tandem.sameOutlook hcallees) hresult
  · rw [← hstatistics]
    apply Computation.statistics_congr
    refine (hnext'.sameOutlook ?_).calleePeak_eq
    intro p hp callee hcallee
    simp [hcallees p hp callee hcallee]
  · rw [hagain]
    exact hnext'

theorem foldlM (tandem : Tandem before now now') (plain : p.Plain) (sound : m.Sound)
    (acyclic : ∀ name, ¬ TransGen m.Calls name name) {cs : List Computation}
    (hcs : m.calleeFirst = before ++ cs)
    (h : cs.foldlM (p.advance m m.currentSchedule) now = .ok done) :
    ∃ done', cs.foldlM (p.advance { m with schedule := some done.schedule } done.schedule) now' =
      .ok done' ∧ Tandem m.calleeFirst done done' := by
  -- the second run reads its orders from the end of the first one, so `done` stays fixed
  induction cs generalizing before now now' with
  | nil =>
    obtain rfl : now = done := Except.ok.inj h
    rw [hcs, List.append_nil]
    exact ⟨now', rfl, tandem⟩
  | cons c cs ih =>
    obtain ⟨next, hnext, hrest⟩ := (foldlM_cons_eq_ok_iff _ _ _ _ _).1 h
    have hc : c ∈ m.computations := (sound.mem_calleeFirst_iff c).1 (by simp [hcs])
    have hlast : c.name ∉ cs.map (·.name) := by
      have hnodup := sound.nodup_calleeFirst
      rw [hcs, List.map_append, List.map_cons] at hnodup
      exact (List.nodup_cons.1 hnodup.of_append_right).1
    obtain ⟨next', hnext', tandem'⟩ := tandem.advance plain (sound.wired c hc)
      (sound.scheduled c hc) (fun p hp callee => sound.exists_callee_before acyclic hcs hp) hnext
      (get?_schedule_of_foldlM hlast hrest)
    obtain ⟨done', hdone', hfinal⟩ := ih tandem' (by rw [hcs, List.append_assoc]; rfl) hrest
    exact ⟨done', (foldlM_cons_eq_ok_iff _ _ _ _ _).2 ⟨next', hnext', hdone'⟩, hfinal⟩

end Tandem

theorem tandem_initial [TimeScale τ] (p : Pass τ) (m : Module) (schedule : Option Schedule) :
    Tandem [] (p.initial m) (p.initial { m with schedule }) where
  schedule_eq := rfl
  statistics_eq := rfl
  unchanged := rfl
  bottoms := by
    change (Pressure.ofSchedule _ _ _).SameBottoms (Pressure.ofSchedule _ _ _)
    unfold Pressure.ofSchedule
    rw [Module.calleeFirst_installed m schedule]
    exact Pressure.SameBottoms.foldl_replayed ⟨rfl, fun _ => rfl⟩ _ _ _
  state_eq := by simp

/-- A pass that hides latencies succeeds, and run again on what it made it succeeds with no change
at all: the module stays as it is, no computation is counted as changed, and the statistics are
those of the first run. -/
theorem run_run [TimeScale τ] [Ordered τ] (plain : p.Plain) (made : m.Made)
    (acyclic : ∀ name, ¬ TransGen m.Calls name name) :
    ∃ m' first second, p.run m = .ok (m', first) ∧ p.run m' = .ok (m', second) ∧
      second.changedComputations = 0 ∧ second.statistics = first.statistics := by
  obtain ⟨done, hdone⟩ := plain.exists_complete made.sound
  obtain ⟨done', hdone', tandem⟩ := (tandem_initial p m (some done.schedule)).foldlM plain
    made.sound acyclic rfl hdone
  have sound' := made.sound.setSchedule (setSchedule_of_complete made.sound hdone)
  have hrerun : p.complete { m with schedule := some done.schedule } = .ok done' := by
    unfold complete
    rw [Module.calleeFirst_installed]
    exact hdone'
  refine ⟨_, _, done'.summary, run_of_complete made.sound hdone, ?_, tandem.unchanged,
    tandem.statistics_eq⟩
  rw [run_of_complete sound' hrerun, tandem.schedule_eq]

def caller : Computation :=
  [{ name := "p", opcode := .parameter, shape := .array 4 },
    { name := "w", opcode := .call, shape := .array 4, operands := [0], calls := ["c"] }].foldl
      Computation.grown { name := "main" }

def calledReduction : Module where
  name := "m"
  computations := [Scheduler.reduction, { caller with isEntry := true }]

theorem built_calledReduction : ∀ c ∈ [Scheduler.reduction, caller], c.Built := by
  rw [List.forall_mem_cons, List.forall_mem_singleton]
  exact ⟨Computation.built_foldl_grown (.empty "c" false) _ rfl,
    Computation.built_foldl_grown (.empty "main" false) _ rfl⟩

theorem assemble_calledReduction :
    Module.assemble "m" [Scheduler.reduction, caller] none = .ok calledReduction := rfl

theorem made_calledReduction : calledReduction.Made :=
  .assembled built_calledReduction assemble_calledReduction

theorem acyclic_calledReduction (name : String) : ¬ TransGen calledReduction.Calls name name :=
  Module.acyclic_of_rank (fun name => if name = "main" then 1 else 0) (by decide) name

theorem plain_forGeneric [TimeScale τ] (settings : Settings) (profile : Option (Profile τ)) :
    (forGeneric settings .latencyHiding profile).Plain :=
  ⟨rfl, rfl, settings, .generic, rfl⟩

/-- The first run moves a sum between start and done of a reduction, the second one nothing. -/
theorem run_run_calledReduction :
    (∃ m' first second, (forGeneric {} .latencyHiding none : Pass Rat).run calledReduction =
        .ok (m', first) ∧ first.changedComputations = 1 ∧
      (forGeneric {} .latencyHiding none : Pass Rat).run m' = .ok (m', second) ∧
      second.changedComputations = 0 ∧ second.statistics = first.statistics) ∧
    ∃ m' first second, (forGeneric {} .latencyHiding none : Pass Float).run calledReduction =
        .ok (m', first) ∧
      (forGeneric {} .latencyHiding none : Pass Float).run m' = .ok (m', second) ∧
      second.changedComputations = 0 ∧ second.statistics = first.statistics := by
  constructor
  · obtain ⟨m', first, second, hfirst, hsecond⟩ := run_run (plain_forGeneric (τ := Rat) {} none)
      made_calledReduction acyclic_calledReduction
    have hchanged : ((forGeneric {} .latencyHiding none : Pass Rat).run
        calledReduction).toOption.map (·.2.changedComputations) = some 1 := by decide +kernel
    rw [hfirst] at hchanged
    exact ⟨m', first, second, hfirst, Option.some.inj hchanged, hsecond⟩
  · exact run_run (plain_forGeneric {} none) made_calledReduction acyclic_calledReduction

end LatencyHiding.Pass
