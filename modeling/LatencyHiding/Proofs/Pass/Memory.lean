import LatencyHiding.Proofs.Buffer.Accounting
import LatencyHiding.Proofs.Pass.Rerun

set_option autoImplicit false

namespace LatencyHiding

open Relation

variable {τ : Type}

def Summary.largestPeak (s : Summary τ) : UInt64 := (s.statistics.map (·.memoryPeak)).foldl max 0

namespace Pass

variable {p : Pass τ} {m : Module} {c : Computation} {before after : List Computation}
  {now next done : Progress τ}

/-- The accounts of a pass that has been to the computations `before`. -/
structure Accounted (p : Pass τ) (m : Module) (before : List Computation) (now : Progress τ) :
    Prop where
  sizing_eq : now.pressure.sizing = p.sizing
  accounts : now.pressure.Accounts (p.initial m).pressure.peak now.schedule before
  bottom_eq : ∀ c ∈ m.computations,
    (now.pressure.state? c.name).map (·.liveAtBottom) = some (c.bottom p.sizing)
  statistics_eq : now.statistics.map (fun s => (s.computation, some s.memoryPeak)) =
    before.map fun c => (c.name, (now.pressure.state? c.name).map (·.peak))

theorem accounted_initial (p : Pass τ) (sound : m.Sound)
    (acyclic : ∀ name, ¬ TransGen m.Calls name name) : p.Accounted m [] (p.initial m) := by
  have hsizing : (p.initial m).pressure.sizing = p.sizing := Pressure.sizing_ofSchedule _ _ _
  refine ⟨hsizing, ⟨List.forall_mem_nil _, rfl⟩, ?_, rfl⟩
  intro c hc
  have haccounts := Pressure.accounts_ofSchedule sound acyclic p.sizing m.currentSchedule
  change (Pressure.state? (.ofSchedule p.sizing m m.currentSchedule) c.name).map _ = _
  rw [haccounts.state_eq c ((sound.mem_calleeFirst_iff c).2 hc), Option.map_some,
    c.liveAtBottom_replay_eq, Pressure.sizing_ofSchedule]

theorem Accounted.peaks_eq (accounted : p.Accounted m before now) :
    now.statistics.map (fun s => (s.computation, s.memoryPeak)) = before.map fun c =>
      (c.name, c.memoryPeak (Module.orderIn now.schedule c) p.sizing (some now.pressure)) := by
  have hinjective : Function.Injective (Prod.map id some : String × UInt64 → _) :=
    Function.injective_id.prodMap (Option.some_injective _)
  apply List.map_injective_iff.2 hinjective
  rw [List.map_map, List.map_map]
  refine accounted.statistics_eq.trans (List.map_congr_left fun c hc => ?_)
  rw [accounted.accounts.state_eq c hc, accounted.sizing_eq]
  rfl

theorem Accounted.exists_statisticsFor? (accounted : p.Accounted m before now) (hc : c ∈ before) :
    ∃ statistics, now.summary.statisticsFor? c.name = some statistics ∧
      some statistics.memoryPeak = (now.pressure.state? c.name).map (·.peak) := by
  have hmem : (c.name, (now.pressure.state? c.name).map (·.peak)) ∈
      now.statistics.map fun s => (s.computation, some s.memoryPeak) := by
    rw [accounted.statistics_eq]
    exact List.mem_map_of_mem hc
  obtain ⟨s, hs, heq⟩ := List.mem_map.1 hmem
  have hfound : (now.summary.statisticsFor? c.name).isSome = true :=
    List.find?_isSome.2 ⟨s, hs, beq_iff_eq.2 (congrArg Prod.fst heq)⟩
  obtain ⟨statistics, hstatistics⟩ := Option.isSome_iff_exists.1 hfound
  refine ⟨statistics, hstatistics, ?_⟩
  -- whichever is found first, its peak is the one that was recorded under that name
  have hentry := List.mem_map_of_mem (f := fun s => (s.computation, some s.memoryPeak))
    (List.mem_of_find?_eq_some hstatistics)
  change _ ∈ now.statistics.map _ at hentry
  rw [accounted.statistics_eq] at hentry
  obtain ⟨d, _, hd⟩ := List.mem_map.1 hentry
  have hname := List.find?_some hstatistics
  obtain ⟨hsame, hpeak⟩ := Prod.mk.inj hd
  rw [← hpeak, hsame, beq_iff_eq.1 hname]

/-- The peak of a pass never falls below the one that it started with. -/
theorem Accounted.memoryPeak_eq (accounted : p.Accounted m before now) :
    now.summary.memoryPeak = max (p.initial m).pressure.peak now.summary.largestPeak := by
  have hpeaks := congrArg (List.map Prod.snd) accounted.peaks_eq
  rw [List.map_map, List.map_map] at hpeaks
  have hpeak := accounted.accounts.peak_eq
  rw [accounted.sizing_eq, Bytes.foldl_max_eq] at hpeak
  exact hpeak.trans (congrArg (max _ ·) (congrArg (List.foldl max 0) hpeaks.symm))

end Pass

variable [TimeScale τ]

namespace Computation

theorem statistics_ok {c : Computation} {sequence : List Nat} {estimator : Estimator τ}
    {tracker : AsyncTracker τ} {sizing : Shape.Sizing} {pressure : Option Pressure}
    {statistics : Statistics τ}
    (h : c.statistics sequence estimator tracker sizing pressure = .ok statistics) :
    statistics.computation = c.name ∧
      statistics.memoryPeak = c.memoryPeak sequence sizing pressure := by
  obtain ⟨g, _, rfl⟩ := (bind_pure_eq_ok_iff _ _ _).1 h
  exact ⟨rfl, rfl⟩

end Computation

theorem Scheduler.memory_of_schedule {s : Scheduler τ} {c : Computation} {sequence : List Nat}
    {m : Option Module} {pressure : Pressure} {out : ComputationSchedule} (hc : c.Wired)
    (hbottom : (pressure.state? c.name).map (·.liveAtBottom) = some (c.bottom pressure.sizing))
    (h : s.schedule c sequence m (some pressure) = .ok out) :
    out.memory = c.replay out.sequence pressure.sizing (some pressure) := by
  obtain ⟨st, hstart, hfinish⟩ := (schedule_eq_ok_iff _ _ _ _ _ out).1 h
  obtain ⟨_, rfl⟩ := (finish_eq_ok_iff _ out).1 hfinish
  have hmemory : (s.drain st).memory = (ScheduleState.initialMemory c (some pressure)).walk
      (s.drain st).placed := ((reached_start hc hstart).steps hc st.graph.size).memory_eq
  have hinitial : ScheduleState.initialMemory c (some pressure) =
      (LiveSet.ofComputation c pressure.sizing (some pressure)).restart [] 0 := by
    unfold ScheduleState.initialMemory
    simp only [Option.map_some, Option.getD_some, Option.bind_some, hbottom]
    rw [← c.liveAtBottom_restart pressure.sizing (some pressure), LiveSet.restart_liveAtBottom]
  change (s.drain st).memory.state = _
  rw [hmemory, hinitial]
  rfl

namespace Pass

variable {p : Pass τ} {m : Module} {c : Computation} {before after : List Computation}
  {now next done : Progress τ}

theorem memory_of_scheduleComputation {pressure : Pressure} {sequence : List Nat}
    {result : ComputationSchedule} (hc : c.Wired) (hsizing : pressure.sizing = p.sizing)
    (hbottom : (pressure.state? c.name).map (·.liveAtBottom) = some (c.bottom p.sizing))
    (h : p.scheduleComputation m pressure c sequence = .ok result) :
    result.memory = c.replay result.sequence p.sizing (some pressure) := by
  obtain ⟨floated, _, h⟩ := scheduleComputation_eq_ok_iff.1 h
  split at h
  · rw [← hsizing] at hbottom ⊢
    exact Scheduler.memory_of_schedule hc hbottom h
  · rw [← Except.ok.inj h]

section CalleeFirst

variable (sound : m.Sound) (acyclic : ∀ name, ¬ TransGen m.Calls name name)

include sound acyclic

theorem Accounted.advance (accounted : p.Accounted m before now)
    (h : m.calleeFirst = before ++ c :: after)
    (hnext : p.advance m m.currentSchedule now c = .ok next) :
    p.Accounted m (before ++ [c]) next := by
  obtain ⟨result, hresult, _, statistics, hstatistics, rfl⟩ := advance_eq_ok_iff.1 hnext
  have hc : c ∈ m.computations := (sound.mem_calleeFirst_iff c).1 (by simp [h])
  have hmemory := memory_of_scheduleComputation (sound.wired c hc) accounted.sizing_eq
    (accounted.bottom_eq c hc) hresult
  obtain ⟨hname, hpeak⟩ := Computation.statistics_ok hstatistics
  have hne {d : Computation} (hd : d ∈ before) : d.name ≠ c.name := fun heq =>
    sound.not_mem_before h (heq ▸ List.mem_map_of_mem hd)
  have horder := Module.orderIn_set_self now.schedule c result.sequence
  have hrecord : now.pressure.record c.name result.memory = now.pressure.replayed c
      (Module.orderIn (now.schedule.set c.name result.sequence) c) := by
    rw [horder, hmemory, ← accounted.sizing_eq]
    rfl
  have haccounts := accounted.accounts.record sound acyclic h fun d hd =>
    Module.orderIn_set_of_ne now.schedule (hne hd) result.sequence
  rw [← hrecord] at haccounts
  have hrecorded : ((now.pressure.record c.name result.memory).state? c.name).map (·.peak) =
      some statistics.memoryPeak := by
    rw [haccounts.state_eq c (by simp), hpeak, ← accounted.sizing_eq, horder]
    rfl
  refine ⟨accounted.sizing_eq, haccounts, ?_, ?_⟩
  · intro d hd
    change ((now.pressure.record _ _).state? d.name).map _ = _
    rw [Pressure.state?_record]
    split
    · next heq =>
      obtain rfl : d = c := sound.eq_of_name hd hc heq
      rw [Option.map_some, hmemory, d.liveAtBottom_replay_eq]
    · exact accounted.bottom_eq d hd
  · change (now.statistics ++ [statistics]).map _ = (before ++ [c]).map _
    rw [List.map_append, List.map_append, accounted.statistics_eq]
    congr 1
    · apply List.map_congr_left
      intro d hd
      change _ = (d.name, ((now.pressure.record _ _).state? d.name).map _)
      rw [Pressure.state?_record, if_neg (hne hd)]
    · rw [List.map_singleton, List.map_singleton, hname, ← hrecorded]
      rfl

theorem accounted_of_complete (h : p.complete m = .ok done) : p.Accounted m m.calleeFirst done := by
  refine complete_invariant (p.accounted_initial sound acyclic) ?_ h
  intro before c after now next hsplit accounted hnext
  exact accounted.advance sound acyclic hsplit hnext

end CalleeFirst

/-- What a pass has recorded for a computation when it ends is what replaying the new order gives,
under the states that it has recorded for the callees, and the peak is the one in the statistics. -/
theorem state?_eq_replay_of_plan (made : m.Made) (acyclic : ∀ name, ¬ TransGen m.Calls name name)
    {schedule : Schedule} {summary : Summary τ} (h : p.plan m = .ok (schedule, summary)) :
    ∃ done, p.complete m = .ok done ∧ done.schedule = schedule ∧ done.summary = summary ∧
      ∀ c ∈ m.computations, ∃ sequence statistics, schedule.get? c.name = some sequence ∧
        done.pressure.state? c.name = some (c.replay sequence p.sizing (some done.pressure)) ∧
        summary.statisticsFor? c.name = some statistics ∧
        statistics.memoryPeak = (c.replay sequence p.sizing (some done.pressure)).peak := by
  obtain ⟨done, hdone, rfl, rfl⟩ := plan_eq_ok_iff.1 h
  have sound := made.sound
  have accounted := accounted_of_complete sound acyclic hdone
  refine ⟨done, hdone, rfl, rfl, ?_⟩
  intro c hc
  have hmem := (sound.mem_calleeFirst_iff c).2 hc
  obtain ⟨sequence, hsequence, _⟩ := ((Module.setSchedule_eq_ok_iff sound.wired _).1
    (setSchedule_of_complete sound hdone)).1 c hc
  have hstate := accounted.accounts.state_eq c hmem
  rw [Module.orderIn_of_get? hsequence, accounted.sizing_eq] at hstate
  obtain ⟨statistics, hstatistics, hpeak⟩ := accounted.exists_statisticsFor? hmem
  rw [hstate] at hpeak
  exact ⟨sequence, statistics, hsequence, hstate, hstatistics, Option.some.inj hpeak⟩

theorem state?_eq_replay_calledReduction : ∃ schedule summary,
    (forGeneric {} .latencyHiding none : Pass Float).plan calledReduction =
        .ok (schedule, summary) ∧
    ∃ done, (forGeneric {} .latencyHiding none : Pass Float).complete calledReduction = .ok done ∧
      done.schedule = schedule ∧ done.summary = summary ∧
      ∀ c ∈ calledReduction.computations, ∃ sequence statistics,
        schedule.get? c.name = some sequence ∧
        done.pressure.state? c.name =
          some (c.replay sequence Shape.byteSize (some done.pressure)) ∧
        summary.statisticsFor? c.name = some statistics ∧
        statistics.memoryPeak = (c.replay sequence Shape.byteSize (some done.pressure)).peak := by
  obtain ⟨done, hdone⟩ :=
    (plain_forGeneric (τ := Float) {} none).exists_complete made_calledReduction.sound
  have hplan := plan_eq_ok_iff.2 ⟨done, hdone, rfl, rfl⟩
  exact ⟨_, _, hplan, state?_eq_replay_of_plan made_calledReduction acyclic_calledReduction hplan⟩

/-- The reported peak is the largest one before or after. It is the largest one after exactly if no
computation had a larger one before. -/
theorem memoryPeak_of_plan (made : m.Made) (acyclic : ∀ name, ¬ TransGen m.Calls name name)
    {schedule : Schedule} {summary : Summary τ} (h : p.plan m = .ok (schedule, summary)) :
    summary.memoryPeak =
        max (Pressure.ofSchedule p.sizing m m.currentSchedule).peak summary.largestPeak ∧
      (summary.memoryPeak = summary.largestPeak ↔ ∀ c ∈ m.computations,
        c.memoryPeak (Module.orderIn m.currentSchedule c) p.sizing
          (some (.ofSchedule p.sizing m m.currentSchedule)) ≤ summary.largestPeak) ∧
      summary.statistics.map (fun s => (s.computation, s.memoryPeak)) = m.calleeFirst.map fun c =>
        (c.name, c.memoryPeak (Module.orderIn schedule c) p.sizing
          (some (.ofSchedule p.sizing m schedule))) := by
  obtain ⟨done, hdone, rfl, rfl⟩ := plan_eq_ok_iff.1 h
  have sound := made.sound
  have accounted := accounted_of_complete sound acyclic hdone
  have hbefore := Pressure.accounts_ofSchedule sound acyclic p.sizing m.currentSchedule
  have hafter := Pressure.accounts_ofSchedule sound acyclic p.sizing done.schedule
  have hpeak : done.summary.memoryPeak = max (Pressure.ofSchedule p.sizing m
    m.currentSchedule).peak done.summary.largestPeak := accounted.memoryPeak_eq
  refine ⟨hpeak, ?_, ?_⟩
  · rw [hpeak, Bytes.max_eq_right_iff, hbefore.peak_eq, Bytes.foldl_max_le_iff,
      List.forall_mem_map, Pressure.sizing_ofSchedule]
    simp only [sound.mem_calleeFirst_iff]
    exact and_iff_right UInt64.zero_le
  · refine accounted.peaks_eq.trans (List.map_congr_left fun c hc => ?_)
    have hreplay := accounted.accounts.replay_eq sound acyclic hafter
      ((Pressure.sizing_ofSchedule _ _ _).trans accounted.sizing_eq.symm) hc
    rw [accounted.sizing_eq, Pressure.sizing_ofSchedule] at hreplay
    exact congrArg (fun state : PressureState => (c.name, state.peak)) hreplay.symm

def lateOperand : Module where
  name := "m"
  computations := [[{ name := "x", opcode := .customCall, shape := .array 100, hint := some .latest },
    { name := "y", opcode := .constant, shape := .array 100 },
    { name := "z", opcode := .negate, shape := .array 1, operands := [1] },
    { name := "r", opcode := .add, shape := .array 1, operands := [0, 2] }].foldl
      Computation.grown { name := "main", isEntry := true }]

theorem made_lateOperand : lateOperand.Made := by
  refine .assembled (?_ : ∀ c ∈ lateOperand.computations, c.Built)
    (rfl : Module.assemble "m" _ none = .ok lateOperand)
  rw [show lateOperand.computations = [_] from rfl, List.forall_mem_singleton]
  exact Computation.built_foldl_grown (.empty "main" true) _ rfl

theorem acyclic_lateOperand (name : String) : ¬ TransGen lateOperand.Calls name name :=
  Module.acyclic_of_rank (fun _ => 0) (by decide) name

/-- Floating the operand down nearly halves the peak, but what is reported is the old one. -/
theorem memoryPeak_ne_largestPeak : lateOperand.Made ∧
    (∀ name, ¬ TransGen lateOperand.Calls name name) ∧
    ∃ schedule summary,
      (forGeneric {} .earlyLate none : Pass Float).plan lateOperand = .ok (schedule, summary) ∧
      schedule.get? "main" = some [1, 2, 0, 3] ∧ summary.largestPeak = 102 ∧
      summary.memoryPeak = 201 :=
  ⟨made_lateOperand, acyclic_lateOperand, _, _, rfl, rfl, rfl, rfl⟩

theorem memoryPeak_of_plan_lateOperand : ∃ schedule summary,
    (forGeneric {} .earlyLate none : Pass Float).plan lateOperand = .ok (schedule, summary) ∧
    summary.memoryPeak = max (Pressure.ofSchedule Shape.byteSize lateOperand
      lateOperand.currentSchedule).peak summary.largestPeak ∧
    (summary.memoryPeak = summary.largestPeak ↔ ∀ c ∈ lateOperand.computations,
      c.memoryPeak (Module.orderIn lateOperand.currentSchedule c) Shape.byteSize
        (some (.ofSchedule Shape.byteSize lateOperand lateOperand.currentSchedule)) ≤
          summary.largestPeak) ∧
    summary.statistics.map (fun s => (s.computation, s.memoryPeak)) =
      lateOperand.calleeFirst.map fun c =>
        (c.name, c.memoryPeak (Module.orderIn schedule c) Shape.byteSize
          (some (.ofSchedule Shape.byteSize lateOperand schedule))) := by
  obtain ⟨schedule, summary, hplan⟩ : ∃ schedule summary,
      (forGeneric {} .earlyLate none : Pass Float).plan lateOperand = .ok (schedule, summary) :=
    ⟨_, _, rfl⟩
  have hpeak := memoryPeak_of_plan made_lateOperand acyclic_lateOperand hplan
  exact ⟨schedule, summary, hplan, hpeak⟩

end Pass

end LatencyHiding
