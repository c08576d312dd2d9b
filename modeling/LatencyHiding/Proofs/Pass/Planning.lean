import LatencyHiding.Pass
import LatencyHiding.Proofs.ListSchedule.Rescheduling
import LatencyHiding.Proofs.Program.CalleeFirst

set_option autoImplicit false

namespace LatencyHiding

variable {τ : Type} [TimeScale τ]

namespace Computation

theorem exists_statistics {c : Computation} (hc : c.Wired) {sequence : List Nat}
    (horder : c.IsOrder sequence) (estimator : Estimator τ) (tracker : AsyncTracker τ)
    (sizing : Shape.Sizing) (pressure : Option Pressure) :
    ∃ statistics, c.statistics sequence estimator tracker sizing pressure = .ok statistics := by
  obtain ⟨g, hg⟩ := Graph.exists_build hc (horder.admits hc) estimator tracker
  unfold statistics
  rw [hg]
  exact ⟨_, rfl⟩

theorem statistics_congr (c : Computation) (sequence : List Nat) (estimator : Estimator τ)
    (tracker : AsyncTracker τ) (sizing : Shape.Sizing) {q q' : Option Pressure}
    (h : ∀ p ∈ c.instructions, (q'.map (·.calleePeak p.toInstruction)).getD 0 =
      (q.map (·.calleePeak p.toInstruction)).getD 0) :
    c.statistics sequence estimator tracker sizing q' =
      c.statistics sequence estimator tracker sizing q := by
  unfold statistics memoryPeak
  rw [c.replay_congr sequence sizing q q' h]

end Computation

namespace Pass

variable {p : Pass τ} {m : Module} {base : Schedule} {now next done : Progress τ} {c : Computation}
  {cs : List Computation}

theorem scheduleComputation_eq_ok_iff {pressure : Pressure} {sequence : List Nat}
    {result : ComputationSchedule} : p.scheduleComputation m pressure c sequence = .ok result ↔
      ∃ floated, (if p.mode.floatsEarlyLate then c.float sequence else .ok sequence) = .ok floated ∧
        (if p.mode.hidesLatency then p.scheduler.schedule c floated (some m) (some pressure)
          else .ok ⟨floated, c.replay floated p.sizing (some pressure)⟩) = .ok result := by
  unfold scheduleComputation
  cases p.mode.floatsEarlyLate
  · exact ⟨fun h => ⟨sequence, rfl, h⟩, fun ⟨_, hsame, h⟩ => Except.ok.inj hsame ▸ h⟩
  · exact bind_eq_ok_iff _ _ _

theorem scheduleComputation_of_latencyHiding (hmode : p.mode = .latencyHiding) (m : Module)
    (pressure : Pressure) (c : Computation) (sequence : List Nat) :
    p.scheduleComputation m pressure c sequence =
      p.scheduler.schedule c sequence (some m) (some pressure) := by
  unfold scheduleComputation
  rw [hmode]
  rfl

theorem advance_eq_ok_iff : p.advance m base now c = .ok next ↔
    ∃ result, p.scheduleComputation m now.pressure c (Module.orderIn base c) = .ok result ∧
      c.checkOrder result.sequence = .ok () ∧
      ∃ statistics, c.statistics result.sequence p.scheduler.estimator p.scheduler.tracker p.sizing
          (some (now.pressure.record c.name result.memory)) = .ok statistics ∧
        next = now.next c (Module.orderIn base c) result.sequence
          (now.pressure.record c.name result.memory) statistics := by
  unfold advance
  simp only [bind_eq_ok_iff]
  constructor
  · rintro ⟨result, hresult, ⟨⟩, hcheck, statistics, hstatistics, hnext⟩
    exact ⟨result, hresult, hcheck, statistics, hstatistics, (Except.ok.inj hnext).symm⟩
  · rintro ⟨result, hresult, hcheck, statistics, hstatistics, rfl⟩
    exact ⟨result, hresult, ⟨⟩, hcheck, statistics, hstatistics, rfl⟩

/-- What every step of a pass preserves, with the computations that were taken before, a pass
does. -/
theorem complete_invariant {P : List Computation → Progress τ → Prop} (hinitial : P [] (p.initial m))
    (hstep : ∀ before c after now next, m.calleeFirst = before ++ c :: after → P before now →
      p.advance m m.currentSchedule now c = .ok next → P (before ++ [c]) next)
    (h : p.complete m = .ok done) : P m.calleeFirst done := by
  have hfrom (before cs : List Computation) (now : Progress τ) (hcs : m.calleeFirst = before ++ cs)
      (hnow : P before now) (hdone : cs.foldlM (p.advance m m.currentSchedule) now = .ok done) :
      P m.calleeFirst done := by
    induction cs generalizing before now with
    | nil =>
      rw [hcs, List.append_nil, ← Except.ok.inj hdone]
      exact hnow
    | cons c cs ih =>
      obtain ⟨next, hnext, hrest⟩ := (foldlM_cons_eq_ok_iff _ _ _ _ _).1 hdone
      apply ih (before ++ [c]) next _ (hstep before c cs now next hcs hnow hnext) hrest
      rw [hcs, List.append_cons]
  exact hfrom [] m.calleeFirst _ rfl hinitial h

theorem plan_eq_ok_iff {schedule : Schedule} {summary : Summary τ} :
    p.plan m = .ok (schedule, summary) ↔
      ∃ done, p.complete m = .ok done ∧ done.schedule = schedule ∧ done.summary = summary := by
  unfold plan
  cases p.complete m with
  | error fault => simp [Except.map]
  | ok done => simp [Except.map]

theorem get?_schedule_of_foldlM {name : String} (hname : name ∉ cs.map (·.name))
    (h : cs.foldlM (p.advance m base) now = .ok done) :
    done.schedule.get? name = now.schedule.get? name := by
  induction cs generalizing now with
  | nil => rw [← Except.ok.inj h]
  | cons c cs ih =>
    obtain ⟨mid, hmid, hrest⟩ := (foldlM_cons_eq_ok_iff _ _ _ _ _).1 h
    obtain ⟨result, _, _, statistics, _, rfl⟩ := advance_eq_ok_iff.1 hmid
    rw [List.map_cons, List.mem_cons, not_or] at hname
    rw [ih hname.2 hrest]
    exact KeyedList.get?_set_of_ne hname.1 _ _

theorem isOrder_of_foldlM (nodup : (cs.map (·.name)).Nodup) (wired : ∀ c ∈ cs, c.Wired)
    (h : cs.foldlM (p.advance m base) now = .ok done) :
    ∀ c ∈ cs, ∃ sequence, done.schedule.get? c.name = some sequence ∧ c.IsOrder sequence := by
  induction cs generalizing now with
  | nil => simp
  | cons c cs ih =>
    obtain ⟨hname, nodup⟩ := List.nodup_cons.1 nodup
    obtain ⟨hc, wired⟩ := List.forall_mem_cons.1 wired
    obtain ⟨mid, hmid, hrest⟩ := (foldlM_cons_eq_ok_iff _ _ _ _ _).1 h
    refine List.forall_mem_cons.2 ⟨?_, ih nodup wired hrest⟩
    obtain ⟨result, _, hcheck, statistics, _, rfl⟩ := advance_eq_ok_iff.1 hmid
    refine ⟨result.sequence, ?_, (Computation.checkOrder_eq_ok_iff hc _).1 hcheck⟩
    rw [get?_schedule_of_foldlM hname hrest]
    exact KeyedList.get?_set_self _ _ _

theorem exists_foldlM (wired : ∀ c ∈ cs, c.Wired)
    (hschedule : ∀ c ∈ cs, ∀ pressure, ∃ result,
      p.scheduleComputation m pressure c (Module.orderIn base c) = .ok result ∧
        c.IsOrder result.sequence) (now : Progress τ) :
    ∃ done, cs.foldlM (p.advance m base) now = .ok done := by
  induction cs generalizing now with
  | nil => exact ⟨now, rfl⟩
  | cons c cs ih =>
    obtain ⟨hc, wired⟩ := List.forall_mem_cons.1 wired
    obtain ⟨hfirst, hschedule⟩ := List.forall_mem_cons.1 hschedule
    obtain ⟨result, hresult, horder⟩ := hfirst now.pressure
    obtain ⟨statistics, hstatistics⟩ := Computation.exists_statistics hc horder
      p.scheduler.estimator p.scheduler.tracker p.sizing
      (some (now.pressure.record c.name result.memory))
    obtain ⟨done, hdone⟩ := ih wired hschedule
      (now.next c (Module.orderIn base c) result.sequence
        (now.pressure.record c.name result.memory) statistics)
    refine ⟨done, (foldlM_cons_eq_ok_iff _ _ _ _ _).2 ⟨_, advance_eq_ok_iff.2 ?_, hdone⟩⟩
    exact ⟨result, hresult, (Computation.checkOrder_eq_ok_iff hc _).2 horder, statistics,
      hstatistics, rfl⟩

/-- With latencies to hide and nothing demanded, no step of a pass fails. -/
theorem exists_complete_of_latencyHiding (hmode : p.mode = .latencyHiding)
    (free : ∀ c, p.scheduler.tracker.demands c = []) (sound : m.Sound) :
    ∃ done, p.complete m = .ok done := by
  have hmem (c : Computation) (hc : c ∈ m.calleeFirst) : c ∈ m.computations :=
    (sound.mem_calleeFirst_iff c).1 hc
  apply exists_foldlM (fun c hc => sound.wired c (hmem c hc))
  intro c hc pressure
  have wired := sound.wired c (hmem c hc)
  have horder := sound.scheduled c (hmem c hc)
  obtain ⟨st, hstart⟩ := p.scheduler.exists_start_of_isOrder wired horder (some m) (some pressure)
  rw [scheduleComputation_of_latencyHiding hmode,
    Scheduler.schedule_of_start wired horder free hstart]
  exact ⟨_, rfl, Scheduler.isOrder_drain wired horder free hstart⟩

theorem setSchedule_of_complete (sound : m.Sound) (h : p.complete m = .ok done) :
    m.setSchedule done.schedule = .ok { m with schedule := some done.schedule } := by
  refine (Module.setSchedule_eq_ok_iff sound.wired _).2 ⟨?_, rfl⟩
  intro c hc
  refine isOrder_of_foldlM sound.nodup_calleeFirst ?_ h c ((sound.mem_calleeFirst_iff c).2 hc)
  exact fun c hc => sound.wired c ((sound.mem_calleeFirst_iff c).1 hc)

theorem run_of_complete (sound : m.Sound) (h : p.complete m = .ok done) :
    p.run m = .ok ({ m with schedule := some done.schedule }, done.summary) := by
  unfold run plan
  rw [h]
  simp only [Except.map, bind, Except.bind, setSchedule_of_complete sound h]
  rfl

end Pass

end LatencyHiding
