import LatencyHiding.Engine.Module
import LatencyHiding.Proofs.Async.Recall
import LatencyHiding.Proofs.Buffer.CallVolume
import LatencyHiding.Proofs.Engine.Schedule
import LatencyHiding.Proofs.Pass.Memory
import LatencyHiding.Proofs.Timing

set_option autoImplicit false

namespace LatencyHiding

open Relation

variable {safe : Prop}

namespace AsyncTracker

variable {τ : Type} {t : AsyncTracker τ} {m : Module} {r : Resource}

theorem gives_occupiers {name : String} (h : safe → t.checkedOccupiers m r name ≠ none) :
    Gives safe (t.checkedOccupiers m r name) (t.occupiers m r name) := by
  cases hcount : t.checkedOccupiers m r name with
  | none => exact Or.inr ⟨fun hsafe => h hsafe hcount, rfl⟩
  | some n =>
    rw [occupiers_of_checked hcount]
    exact .some n

theorem gives_largestOf {checked : String → Option UInt32} {count : String → UInt32}
    {callees : List String} (h : ∀ callee ∈ callees, Gives safe (checked callee) (count callee)) :
    Gives safe (largestOf checked callees) (largestCount (callees.map count)) := by
  unfold largestOf largestCount
  generalize (0 : UInt32) = most
  induction callees generalizing most with
  | nil => exact .some most
  | cons callee callees ih =>
    obtain ⟨hcallee, hcallees⟩ := List.forall_mem_cons.1 h
    rw [List.foldlM_cons, List.map_cons, List.foldl_cons]
    have hmost : Gives safe (do return max most (← checked callee)) (max most (count callee)) :=
      hcallee.bind (.some _)
    exact hmost.bind (ih hcallees _)

end AsyncTracker

theorem Yields.of_answers {σ α : Type} {P : σ → Prop} {work : AsyncTracker.Counting σ α}
    {x : Option α} {a : α} (h : AsyncTracker.Answers P work.run x) (hx : Gives safe x a) :
    Yields P safe work (· = a) := by
  intro notes hnotes
  obtain ⟨after, hrun, hafter⟩ := h notes hnotes
  rw [hrun]
  rcases hx with rfl | ⟨hsafe, rfl⟩
  · exact ⟨rfl, hafter⟩
  · exact hsafe

namespace Pressure

variable {m : Module} {sizing : Shape.Sizing} (sound : m.Sound)
  (acyclic : ∀ name, ¬ TransGen m.Calls name name) (schedule : Schedule)

include sound acyclic

theorem Below.replayed {t : Pressure} {c : Computation} (below : t.Below (m.callVolume sizing))
    (hsizing : t.sizing = sizing) (hc : c ∈ m.computations)
    (hlt : m.callVolume sizing c.name < 2 ^ 63) (sequence : List Nat) :
    (t.replayed c sequence).Below (m.callVolume sizing) := by
  refine below.record ?_
  rw [hsizing]
  exact c.peak_replay_le_callVolume sound acyclic below hc hlt sequence

theorem below_ofSchedule (hlt : ∀ c ∈ m.computations, m.callVolume sizing c.name < 2 ^ 63) :
    (ofSchedule sizing m schedule).Below (m.callVolume sizing) := by
  have hfold (cs : List Computation) (hcs : cs ⊆ m.computations) (t : Pressure)
      (hsizing : t.sizing = sizing) (below : t.Below (m.callVolume sizing)) :
      (cs.foldl (fun t c => t.replayed c (Module.orderIn schedule c)) t).Below
        (m.callVolume sizing) := by
    induction cs generalizing t with
    | nil => exact below
    | cons c cs ih =>
      obtain ⟨hc, hcs⟩ := List.cons_subset.1 hcs
      exact ih hcs _ hsizing (below.replayed sound acyclic hsizing hc (hlt c hc) _)
  exact hfold m.calleeFirst (fun c => (sound.mem_calleeFirst_iff c).1) { sizing } rfl nofun

theorem gives_ofSchedule
    (hlt : safe → ∀ c ∈ m.computations, m.callVolume sizing c.name < 2 ^ 63) :
    Gives safe (ofSchedule? sizing m schedule) (ofSchedule sizing m schedule) := by
  apply Gives.foldlM fun (t : Pressure) cs => t.Below (m.callVolume sizing) ∧ t.sizing = sizing ∧
    ∀ c ∈ cs, c ∈ m.computations ∧ m.callVolume sizing c.name < 2 ^ 63
  · intro t c rest h
    refine Gives.bind (Computation.gives_replay _ fun hsafe => ?_) (.some _)
    obtain ⟨below, hsizing, hrest⟩ := h hsafe
    obtain ⟨hc, hlt⟩ := hrest c List.mem_cons_self
    rw [hsizing]
    exact c.bytesFit_of_below sound acyclic below hc hlt
  · rintro t c rest ⟨below, hsizing, hrest⟩
    obtain ⟨⟨hc, hlt⟩, hrest⟩ := List.forall_mem_cons.1 hrest
    exact ⟨below.replayed sound acyclic hsizing hc hlt _, hsizing, hrest⟩
  · intro hsafe
    refine ⟨nofun, rfl, fun c hc => ?_⟩
    have hc := (sound.mem_calleeFirst_iff c).1 hc
    exact ⟨hc, hlt hsafe c hc⟩

end Pressure

namespace Pass

variable {τ : Type} [TimeScale τ] {p : Pass τ} {m : Module}

/-- No number leaves its range: neither bytes with those of callees above them, nor counts of uses,
nor occupiers of what is called. -/
structure InRange (p : Pass τ) (m : Module) : Prop where
  bytes : ∀ c ∈ m.computations, m.callVolume p.sizing c.name < 2 ^ 63
  uses : ∀ c ∈ m.computations, c.useCount p.scheduler.tracker < UInt32.size
  counts : ∀ c ∈ m.computations, ∀ i ∈ c.instructions, ∀ callee ∈ i.calls, ∀ r,
    p.scheduler.tracker.checkedOccupiers m r callee ≠ none

section Follow

variable (sound : m.Sound) (acyclic : ∀ name, ¬ TransGen m.Calls name name)

include sound acyclic

omit [TimeScale τ] in
theorem counts_engine {c : Computation} (hc : c ∈ m.computations) :
    p.engine.Counts (p.scheduler.tracker.Recalls m) (p.InRange m) True c (some m) := by
  intro r i hi
  change Yields _ _ (p.scheduler.tracker.checkedUnitsHeld p.scheduler.tracker.recalled r
    i.toInstruction (some m)) fun units => True → units =
      p.scheduler.tracker.unitsHeld r i.toInstruction (some m)
  unfold AsyncTracker.checkedUnitsHeld AsyncTracker.unitsHeld
  dsimp only
  split
  · exact .pure fun _ => rfl
  · refine (Yields.of_answers
      (.largestOf fun callee _ => AsyncTracker.answers_recalled sound acyclic r callee)
      (AsyncTracker.gives_largestOf fun callee hcallee => ?_)).mono fun _ h _ => h
    exact AsyncTracker.gives_occupiers fun inRange => inRange.counts c hc i hi callee hcallee r

variable {c : Computation} {pressure : Pressure} (hc : c ∈ m.computations)
  (hsizing : pressure.sizing = p.sizing)
  (below : p.InRange m → pressure.Below (m.callVolume p.sizing))

include hc hsizing below

theorem follows_schedule (sequence : List Nat) :
    Yields (p.scheduler.tracker.Recalls m) (p.InRange m)
      (p.engine.schedule c sequence (some m) (some pressure)).run
      (· = p.scheduler.schedule c sequence (some m) (some pressure)) := by
  have hrange (inRange : p.InRange m) : c.InRange p.scheduler.tracker (some pressure) := by
    refine ⟨?_, inRange.uses c hc⟩
    change c.BytesFit pressure.sizing (some pressure)
    rw [hsizing]
    exact c.bytesFit_of_below sound acyclic (below inRange) hc (inRange.bytes c hc)
  refine (Engine.yields_schedule p.engine (sound.wired c hc) sequence
    (counts_engine sound acyclic hc) hrange).mono ?_
  unfold Scheduler.schedule Scheduler.start
  rintro answer (⟨fault, hbuild, rfl⟩ | ⟨g, final, hbuild, _, _, rfl, hdrain⟩)
  · change Graph.build c sequence p.scheduler.estimator p.scheduler.tracker = _ at hbuild
    rw [hbuild]
    rfl
  · change Graph.build c sequence p.scheduler.estimator p.scheduler.tracker = _ at hbuild
    rw [hbuild, hdrain trivial]
    rfl

theorem follows_scheduleComputation (sequence : List Nat) :
    Yields (p.scheduler.tracker.Recalls m) (p.InRange m)
      (p.engine.scheduleComputation m pressure c sequence).run
      (· = p.scheduleComputation m pressure c sequence) := by
  have hrest (floated : List Nat) : Yields (p.scheduler.tracker.Recalls m) (p.InRange m)
      (if p.mode.hidesLatency then p.engine.schedule c floated (some m) (some pressure)
        else do
          let memory ← Recalling.check (c.replay? floated p.sizing (some pressure))
          return { sequence := floated, memory }).run
      (· = if p.mode.hidesLatency then p.scheduler.schedule c floated (some m) (some pressure)
        else .ok { sequence := floated, memory := c.replay floated p.sizing (some pressure) }) := by
    split
    · exact follows_schedule sound acyclic hc hsizing below floated
    · refine Yields.followMap _ (.check (Computation.gives_replay floated fun inRange => ?_))
      exact c.bytesFit_of_below sound acyclic (below inRange) hc (inRange.bytes c hc)
  unfold Engine.scheduleComputation scheduleComputation
  change Yields _ _ (Recalling.report (some (if p.mode.floatsEarlyLate then c.float sequence
    else .ok sequence)) >>= _ : Recalling _ _).run _
  cases p.mode.floatsEarlyLate with
  | true => exact (Yields.report (.some _)).follow fun floated _ => hrest floated
  | false => exact (Yields.report (.some _)).follow fun floated _ => hrest floated

omit below in
theorem memory_le_callVolume {sequence : List Nat} {result : ComputationSchedule}
    (hbottom : (pressure.state? c.name).map (·.liveAtBottom) = some (c.bottom p.sizing))
    (hresult : p.scheduleComputation m pressure c sequence = .ok result)
    (below : pressure.Below (m.callVolume p.sizing))
    (hlt : m.callVolume p.sizing c.name < 2 ^ 63) :
    result.memory.peak.toNat ≤ m.callVolume p.sizing c.name := by
  rw [memory_of_scheduleComputation (sound.wired c hc) hsizing hbottom hresult]
  exact c.peak_replay_le_callVolume sound acyclic below hc hlt _

omit hsizing below in
theorem follows_advance {before : List Computation} {now : Progress τ}
    (accounted : p.Accounted m before now)
    (below : p.InRange m → now.pressure.Below (m.callVolume p.sizing)) (base : Schedule) :
    Yields (p.scheduler.tracker.Recalls m) (p.InRange m) (p.engine.advance m base now c).run
      (· = p.advance m base now c) := by
  refine (follows_scheduleComputation sound acyclic hc accounted.sizing_eq below _).follow
    fun result hresult => ?_
  refine (Yields.report (.some _)).follow fun _ _ => ?_
  refine Yields.followMap _ (.report (Computation.gives_statistics _ _ _ fun inRange => ?_))
  refine c.bytesFit_of_below sound acyclic ((below inRange).record ?_) hc (inRange.bytes c hc)
  exact memory_le_callVolume sound acyclic hc accounted.sizing_eq (accounted.bottom_eq c hc) hresult
    (below inRange) (inRange.bytes c hc)

omit hc hsizing below

theorem follows_complete : Yields (p.scheduler.tracker.Recalls m) (p.InRange m)
    (p.engine.complete m).run (· = p.complete m) := by
  have hmem {before after : List Computation} {c : Computation}
      (hsplit : m.calleeFirst = before ++ c :: after) : c ∈ m.computations :=
    (sound.mem_calleeFirst_iff c).1 (by simp [hsplit])
  refine (Yields.check (Pressure.gives_ofSchedule sound acyclic m.currentSchedule
    InRange.bytes)).andThen ?_ nofun
  rintro _ ⟨⟩
  refine Yields.followFold (fun before (now : Progress τ) => p.Accounted m before now ∧
    (p.InRange m → now.pressure.Below (m.callVolume p.sizing))) ?_ ?_ ?_
  · rintro before c after now hsplit ⟨accounted, below⟩
    exact follows_advance sound acyclic (hmem hsplit) accounted below _
  · rintro before c after now next hsplit ⟨accounted, below⟩ hnext
    refine ⟨accounted.advance sound acyclic hsplit hnext, fun inRange => ?_⟩
    obtain ⟨result, hresult, _, _, _, rfl⟩ := advance_eq_ok_iff.1 hnext
    have hc := hmem hsplit
    exact (below inRange).record (memory_le_callVolume sound acyclic hc accounted.sizing_eq
      (accounted.bottom_eq c hc) hresult (below inRange) (inRange.bytes c hc))
  · exact ⟨p.accounted_initial sound acyclic, fun inRange =>
      Pressure.below_ofSchedule sound acyclic _ inRange.bytes⟩

/-- From a memo that is right about the module, the engine comes to what the pass comes to, unless a
number leaves its range. -/
theorem gives_run {notes : AsyncTracker.OccupierMemo}
    (recalls : p.scheduler.tracker.Recalls m notes) :
    Gives (p.InRange m) ((p.engine.run m).on notes).1 (p.run m) := by
  have hplan : Yields (p.scheduler.tracker.Recalls m) (p.InRange m) (p.engine.plan m).run
      (· = p.plan m) := (follows_complete sound acyclic).followMap _
  have hrun : Yields (p.scheduler.tracker.Recalls m) (p.InRange m) (p.engine.run m).run
      (· = p.run m) :=
    hplan.follow fun planned _ => (Yields.report (.some _)).followMap (·, planned.2)
  obtain ⟨hanswer, hsome⟩ := hrun.on recalls
  cases hvalue : ((p.engine.run m).on notes).1 with
  | none => exact Or.inr ⟨fun inRange => hsome inRange hvalue, rfl⟩
  | some answer =>
    rw [hanswer answer hvalue]
    exact .some _

end Follow

end Pass

end LatencyHiding
