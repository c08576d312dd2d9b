import LatencyHiding.Proofs.Pass.Rerun
import LatencyHiding.Session

set_option autoImplicit false

namespace LatencyHiding

variable {τ : Type} {m m' : Module}

namespace Module

theorem Made.get?_currentSchedule (made : m.Made) {c : Computation} (hc : c ∈ m.computations) :
    ∃ sequence, m.currentSchedule.get? c.name = some sequence ∧ c.IsOrder sequence := by
  cases made with
  | assembled built h =>
    have sound := sound_of_assemble (fun c hc => (built c hc).wired) h
    have hget := get?_postOrderSchedule sound.nodup hc
    rw [currentSchedule, (assemble_ok h).1, Option.getD_none]
    exact ⟨c.postOrder, hget, (sound.wired c hc).isOrder_postOrder⟩
  | scheduled made h =>
    obtain ⟨horders, rfl⟩ := (setSchedule_eq_ok_iff made.sound.wired _).1 h
    exact horders c hc

end Module

namespace Session

def settle {α : Type} (m : Module) : Except Fault (Module × α) → Except Fault α × Module
  | .ok (m', answer) => (.ok answer, m')
  | .error fault => (.error fault, m)

theorem on_map {α β : Type} (f : α → β) (session : Session α) (m : Module) :
    (f <$> session).on m = ((session.on m).1.map f, (session.on m).2) := by
  unfold on
  rw [ExceptT.run_map, StateT.run_map]
  rfl

theorem on_get_bind {α : Type} (next : Module → Session α) (m : Module) :
    Session.on (do next (← get)) m = (next m).on m := rfl

theorem install_on (schedule : Schedule) (m : Module) :
    (install schedule).on m = settle m ((m.setSchedule schedule).map (·, ())) := by
  rw [install, on_get_bind, Module.setSchedule]
  cases m.checkSchedule schedule <;> rfl

variable [TimeScale τ]

theorem pass_on (p : Pass τ) (m : Module) : (pass p).on m = settle m (p.run m) := by
  rw [pass, on_get_bind, Pass.run]
  cases p.plan m with
  | error fault => rfl
  | ok planned =>
    have hinstall : Session.on (do install planned.1; return planned.2) m =
        (((install planned.1).on m).1.map fun _ => planned.2, ((install planned.1).on m).2) := by
      rw [bind_pure_comp, on_map]
    refine hinstall.trans ?_
    rw [install_on]
    change _ = settle m (do return (← m.setSchedule planned.1, planned.2))
    cases m.setSchedule planned.1 <;> rfl

theorem devicePass_on (settings : Settings) (device : DeviceSettings) (mode : Mode)
    (profile : Option (Profile τ)) (m : Module) :
    (devicePass settings device mode profile).on m =
      settle m ((Pass.forDevice m settings device mode profile).run m) := by
  rw [devicePass, on_get_bind, pass_on]

end Session

theorem Pass.exists_setSchedule_of_run [TimeScale τ] {p : Pass τ} {summary : Summary τ}
    (h : p.run m = .ok (m', summary)) : ∃ schedule, m.setSchedule schedule = .ok m' := by
  obtain ⟨planned, _, h⟩ := (bind_eq_ok_iff _ _ _).1 h
  obtain ⟨_, hset, h⟩ := (bind_eq_ok_iff _ _ _).1 h
  exact ⟨planned.1, hset.trans (congrArg Except.ok (Prod.mk.inj (Except.ok.inj h)).1)⟩

namespace Session

/-- All that can happen: the module stays as it is, or a schedule is checked and installed. -/
def Guarded {α : Type} (session : Session α) : Prop :=
  ∀ m, (∃ fault, session.on m = (.error fault, m)) ∨
    ∃ answer schedule m', m.setSchedule schedule = .ok m' ∧ session.on m = (.ok answer, m')

theorem guarded_of_settle {α : Type} {session : Session α}
    {make : Module → Except Fault (Module × α)} (hsession : ∀ m, session.on m = settle m (make m))
    (hmake : ∀ m m' answer, make m = .ok (m', answer) →
      ∃ schedule, m.setSchedule schedule = .ok m') : session.Guarded := by
  intro m
  rw [hsession]
  cases hmade : make m with
  | error fault => exact Or.inl ⟨fault, rfl⟩
  | ok made =>
    obtain ⟨schedule, hset⟩ := hmake m made.1 made.2 hmade
    exact Or.inr ⟨made.2, schedule, made.1, hset, rfl⟩

theorem Guarded.map {α β : Type} {session : Session α} (guarded : session.Guarded) (f : α → β) :
    Guarded (f <$> session) := by
  intro m
  rw [on_map]
  rcases guarded m with ⟨fault, h⟩ | ⟨answer, schedule, m', hset, h⟩
  · exact Or.inl ⟨fault, by rw [h]; rfl⟩
  · exact Or.inr ⟨f answer, schedule, m', hset, by rw [h]; rfl⟩

theorem guarded_install (schedule : Schedule) : (install schedule).Guarded := by
  refine guarded_of_settle (install_on schedule) fun m m' _ hmade => ⟨schedule, ?_⟩
  cases hset : m.setSchedule schedule with
  | error fault =>
    rw [hset] at hmade
    cases hmade
  | ok made =>
    rw [hset] at hmade
    rw [(Prod.mk.inj (Except.ok.inj hmade)).1]

end Session

variable [TimeScale τ]

theorem Request.guarded_perform (r : Request τ) : r.perform.Guarded := by
  cases r with
  | install schedule =>
    change Session.Guarded (do Session.install schedule; return none)
    rw [bind_pure_comp]
    exact (Session.guarded_install schedule).map _
  | pass p =>
    exact (Session.guarded_of_settle (Session.pass_on p)
      fun _ _ _ => Pass.exists_setSchedule_of_run).map _
  | devicePass settings device mode profile =>
    exact (Session.guarded_of_settle (Session.devicePass_on settings device mode profile)
      fun _ _ _ => Pass.exists_setSchedule_of_run).map _

namespace Module

theorem Made.perform (made : m.Made) (r : Request τ) : (r.perform.on m).2.Made := by
  rcases r.guarded_perform m with ⟨fault, h⟩ | ⟨answer, schedule, m', hset, h⟩
  · rw [h]
    exact made
  · rw [h]
    exact made.scheduled hset

theorem Made.history (made : m.Made) (requests : List (Request τ)) : (m.history requests).Made := by
  induction requests generalizing m with
  | nil => exact made
  | cons r requests ih => exact ih (made.perform r)

/-- Whatever was asked of a module, it has an order for every computation; what is asked next leaves
it as it is or gives it another schedule; and a pass that only hides latencies is granted. -/
theorem orders_throughout_history {name : String} {computations : List Computation}
    {entry : Option String} (built : ∀ c ∈ computations, c.Built)
    (h : assemble name computations entry = .ok m') (requests : List (Request τ))
    (hm : m'.history requests = m) :
    (∀ c ∈ m.computations, ∃ sequence,
        m.currentSchedule.get? c.name = some sequence ∧ c.IsOrder sequence) ∧
      (∀ (r : Request τ) (fault : Fault), (r.perform.on m).1 = .error fault →
        (r.perform.on m).2 = m) ∧
      (∀ (r : Request τ) (answer : Option (Summary τ)), (r.perform.on m).1 = .ok answer →
        ∃ schedule, (r.perform.on m).2 = { m with schedule := some schedule }) ∧
      ∀ (p : Pass τ) (settings : Settings) (platform : Platform), p.mode = .latencyHiding →
        p.scheduler.tracker = .ofPlatform settings platform →
        ∃ after summary, p.run m = .ok (after, summary) ∧
          (Request.pass p).perform.on m = (.ok (some summary), after) := by
  have made : m.Made := hm ▸ (Made.assembled built h).history requests
  refine ⟨fun c hc => made.get?_currentSchedule hc, ?_, ?_, ?_⟩
  · intro r fault hfault
    rcases r.guarded_perform m with ⟨_, hr⟩ | ⟨answer, _, _, _, hr⟩
    · rw [hr]
    · rw [hr] at hfault
      cases hfault
  · intro r answer hanswer
    rcases r.guarded_perform m with ⟨fault, hr⟩ | ⟨_, schedule, after, hset, hr⟩
    · rw [hr] at hanswer
      cases hanswer
    · rw [hr]
      exact ⟨schedule, ((setSchedule_eq_ok_iff made.sound.wired schedule).1 hset).2⟩
  · intro p settings platform hmode htracker
    have free : ∀ c, p.scheduler.tracker.demands c = [] := by
      rw [htracker]
      exact (AsyncTracker.regular_ofPlatform settings platform).demands_eq
    obtain ⟨done, hdone⟩ := Pass.exists_complete_of_latencyHiding hmode free made.sound
    have hrun := Pass.run_of_complete made.sound hdone
    refine ⟨_, _, hrun, ?_⟩
    change Session.on (some <$> Session.pass p) m = _
    rw [Session.on_map, Session.pass_on, hrun]
    rfl

def mixedRequests : List (Request Float) :=
  [.install .empty, .pass (.forGeneric {} .latencyHiding none), .devicePass {} {} .both none]

theorem orders_throughout_mixedRequests :
    assemble "m" [Scheduler.reduction, Pass.caller] none = .ok Pass.calledReduction ∧
    ∃ m, Pass.calledReduction.history mixedRequests = m ∧
      (∀ c ∈ m.computations, ∃ sequence,
        m.currentSchedule.get? c.name = some sequence ∧ c.IsOrder sequence) ∧
      (∀ (r : Request Float) (fault : Fault), (r.perform.on m).1 = .error fault →
        (r.perform.on m).2 = m) ∧
      (∀ (r : Request Float) (answer : Option (Summary Float)), (r.perform.on m).1 = .ok answer →
        ∃ schedule, (r.perform.on m).2 = { m with schedule := some schedule }) ∧
      ∀ (p : Pass Float) (settings : Settings) (platform : Platform), p.mode = .latencyHiding →
        p.scheduler.tracker = .ofPlatform settings platform →
        ∃ after summary, p.run m = .ok (after, summary) ∧
          (Request.pass p).perform.on m = (.ok (some summary), after) :=
  ⟨Pass.assemble_calledReduction, _, rfl, orders_throughout_history Pass.built_calledReduction
    Pass.assemble_calledReduction mixedRequests rfl⟩

end Module

end LatencyHiding
