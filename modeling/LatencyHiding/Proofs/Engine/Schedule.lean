import LatencyHiding.Proofs.Engine.Yields
import LatencyHiding.Proofs.ListSchedule.Room

set_option autoImplicit false

namespace LatencyHiding

open Relation ScheduleState

variable {τ σ : Type} [TimeScale τ]

namespace Engine

variable {e : Engine τ σ} {P : σ → Prop} {safe faithful : Prop} {c : Computation}
  {m : Option Module} {pressure : Option Pressure} {st : ScheduleState τ} {n : Node τ}

/-- Counts that can be asked for, and are those of the tracker if all goes faithfully. -/
def Counts (e : Engine τ σ) (P : σ → Prop) (safe faithful : Prop) (c : Computation)
    (m : Option Module) : Prop :=
  ∀ r, ∀ p ∈ c.instructions, Yields P safe (e.unitsHeld r p.toInstruction m) fun units =>
    faithful → units = e.scheduler.tracker.unitsHeld r p.toInstruction m

section Choice

variable (hcounts : e.Counts P safe faithful c m) (hmodule : st.module = m)

include hcounts hmodule

omit [TimeScale τ] in
theorem yields_callsFit (hinstr : n.instr ∈ c.instructions) :
    Yields P safe (e.callsFit st n) fun b => faithful → b = e.scheduler.callsFit st n := by
  subst hmodule
  refine .allM fun (r, limit) _ => (hcounts r n.instr hinstr).bind fun units hunits => ?_
  refine .pure fun hfaithful => ?_
  rw [hunits hfaithful]

omit [TimeScale τ] in
theorem obtains_isFeasible (hinstr : n.instr ∈ c.instructions) (hroom : safe → st.HasRoom n) :
    Obtains P safe (e.isFeasible st n) fun b =>
      faithful → b = e.scheduler.isFeasible st n := by
  unfold isFeasible Scheduler.isFeasible
  refine (Obtains.check (gives_releasesFit hroom)).bind ?_
  rintro _ rfl
  cases Scheduler.releasesFit st n with
  | false => exact .pure fun _ => rfl
  | true =>
    cases hcalls : n.instr.calls.isEmpty || !n.uses.isEmpty with
    | true => exact .pure fun _ => rfl
    | false => exact .lift (yields_callsFit hcounts hmodule hinstr)

omit [TimeScale τ] in
theorem obtains_candidate (index : Nat) (hinstr : n.instr ∈ c.instructions)
    (hroom : safe → st.HasRoom n) : Obtains P safe (e.candidate st (index, n)) fun x =>
      x.node = index ∧ (faithful → x = e.scheduler.candidate st index n) := by
  refine (obtains_isFeasible hcounts hmodule hinstr hroom).bind fun feasible hfeasible => ?_
  have hroomy (hsafe : safe) : st.memory.Tallied ∧ st.memory.table.volume < 2 ^ 63 :=
    ⟨(hroom hsafe).roomy.tallied, (hroom hsafe).roomy.volume_lt⟩
  refine (Obtains.check (LiveSet.gives_effect hroomy)).bind ?_
  rintro _ rfl
  refine .pure ⟨rfl, fun hfaithful => ?_⟩
  rw [hfeasible hfaithful]
  rfl

end Choice

section Run

variable {sequence : List Nat} {latency : Node τ → Node τ → τ} {estimator : Estimator τ}
  {g : Graph τ} (hc : c.Wired)
  (hbuild : Graph.buildWith latency c sequence estimator e.scheduler.tracker = .ok g)
  (hcounts : e.Counts P safe faithful c m)
  (fits : safe → c.InRange e.scheduler.tracker pressure)
  (descends : Descends g c e.scheduler.tracker m pressure st)

include hc hbuild hcounts fits descends

theorem obtains_candidates : Obtains P safe (e.candidates st) fun all =>
    all.map (·.node) = st.ready ∧ (faithful → all = e.scheduler.candidates st) := by
  obtain ⟨history, consistent⟩ := descends.consistent
  let entries := st.ready.filterMap fun index => (st.graph.node? index).map (index, ·)
  have hready : entries.map Prod.fst = st.ready := by
    rw [List.map_filterMap]
    conv_rhs => rw [← List.filterMap_some (l := st.ready)]
    apply List.filterMap_congr
    intro index hindex
    obtain ⟨n, hn⟩ := (Graph.lt_size_iff st.graph index).1
      ((consistent.mem_ready_iff index).1 hindex).1
    rw [hn]
    rfl
  have hplain : entries.map (fun entry => e.scheduler.candidate st entry.1 entry.2) =
      e.scheduler.candidates st := by
    rw [List.map_filterMap]
    apply List.filterMap_congr
    intro index _
    rw [Option.map_map]
    rfl
  rw [← hready, ← hplain]
  apply Obtains.mapM
  rintro ⟨index, n⟩ hentry
  obtain ⟨ready, hready, hentry⟩ := List.mem_filterMap.1 hentry
  obtain ⟨_, hn, hpair⟩ := Option.map_eq_some_iff.1 hentry
  obtain ⟨rfl, rfl⟩ := Prod.mk.inj hpair
  refine obtains_candidate hcounts descends.module_eq _ ?_ fun hsafe =>
    Descends.hasRoom hc hbuild descends hready hn (fits hsafe)
  exact (Computation.mem_instructions_iff c _).2 ⟨_, (Descends.label hc hbuild descends hn).1⟩

theorem obtains_best? : Obtains P safe (e.best? st) fun best =>
    (best = none → st.ready = []) ∧
      (∀ choice, best = some choice → choice.1.node ∈ st.ready) ∧
      (faithful → best = e.scheduler.best? st) := by
  refine (obtains_candidates hc hbuild hcounts fits descends).bind ?_
  rintro all ⟨hnodes, hall⟩
  refine .pure ⟨?_, ?_, ?_⟩
  · intro hnone
    rw [Scheduler.winner?_eq_none_iff, Candidate.shortlist_eq_nil_iff] at hnone
    rw [← hnodes, hnone, List.map_nil]
  · rintro ⟨choice, reason⟩ hchoice
    rw [← hnodes]
    exact List.mem_map_of_mem
      (Candidate.mem_of_mem_shortlist (Scheduler.mem_of_winner? _ hchoice))
  · intro hfaithful
    rw [hall hfaithful]
    rfl

theorem obtains_step? : Obtains P safe (e.step? st) fun result =>
    (result = none → st.ready = []) ∧
      (∀ did next, result = some (did, next) → ∃ index ∈ st.ready, ∃ n,
        st.graph.node? index = some n ∧ next = st.place index n) ∧
      (faithful → result = e.scheduler.step? st) := by
  refine (obtains_best? hc hbuild hcounts fits descends).bind ?_
  rintro best ⟨hnone, hready, hbest⟩
  obtain ⟨history, consistent⟩ := descends.consistent
  cases best with
  | none =>
    refine .pure ⟨fun _ => hnone rfl, fun _ _ h => absurd h (by simp), fun hfaithful => ?_⟩
    rw [Scheduler.step?, ← hbest hfaithful]
  | some choice =>
    have hindex := hready choice rfl
    obtain ⟨n, hn⟩ := (Graph.lt_size_iff st.graph choice.1.node).1
      ((consistent.mem_ready_iff _).1 hindex).1
    simp only [hn]
    refine (Obtains.check (gives_place fun hsafe =>
      Descends.hasRoom hc hbuild descends hindex hn (fits hsafe))).bind ?_
    rintro _ rfl
    refine .pure ⟨fun h => absurd h (by simp), ?_, fun hfaithful => ?_⟩
    · rintro did next ⟨⟩
      exact ⟨choice.1.node, hindex, n, hn, rfl⟩
    · simp only [Scheduler.step?, ← hbest hfaithful, hn]

theorem obtains_steps (k : Nat) : Obtains P safe (e.steps k st) fun run =>
    Descends g c e.scheduler.tracker m pressure run.2 ∧
      (run.2.ready = [] ∨ run.2.placed.length = st.placed.length + k) ∧
      (faithful → run = e.scheduler.steps k st) := by
  induction k generalizing st with
  | zero => exact .pure ⟨descends, Or.inr rfl, fun _ => rfl⟩
  | succ k ih =>
    refine (obtains_step? hc hbuild hcounts fits descends).bind ?_
    rintro result ⟨hnone, hplace, hstep⟩
    cases result with
    | none =>
      refine .pure ⟨descends, Or.inl (hnone rfl), fun hfaithful => ?_⟩
      rw [Scheduler.steps, ← hstep hfaithful]
    | some did =>
      obtain ⟨did, next⟩ := did
      obtain ⟨index, hindex, n, hn, rfl⟩ := hplace did next rfl
      refine (ih (Descends.place hc hbuild descends hn hindex)).bind ?_
      rintro ⟨rest, final⟩ ⟨hfinal, hprogress, hrest⟩
      refine .pure ⟨hfinal, hprogress.imp id fun hlength => ?_, fun hfaithful => ?_⟩
      · rw [hlength, placed_place, List.length_cons]
        omega
      · rw [Scheduler.steps, ← hstep hfaithful]
        simp only [← hrest hfaithful]

theorem obtains_drain (hplaced : st.placed = []) : Obtains P safe (e.drain st) fun final =>
    Descends g c e.scheduler.tracker m pressure final ∧ final.ready = [] ∧
      (faithful → final = e.scheduler.drain st) := by
  refine (obtains_steps hc hbuild hcounts fits descends st.graph.size).bind ?_
  rintro run ⟨hfinal, hprogress, hrun⟩
  refine .pure ⟨hfinal, ?_, fun hfaithful => congrArg Prod.snd (hrun hfaithful)⟩
  rcases hprogress with hnone | hlength
  · exact hnone
  · obtain ⟨history, consistent⟩ := hfinal.consistent
    apply consistent.ready_eq_nil
    rw [hlength, hplaced, List.length_nil, Nat.zero_add, hfinal.keeps.size_eq,
      descends.keeps.size_eq]

end Run

def begun (e : Engine τ σ) (c : Computation) (m : Option Module) (pressure : Option Pressure)
    (g : Graph τ) : ScheduleState τ where
  graph := g
  ready := g.bottom
  limits := e.limits
  time := TimeScale.zero
  memory := initialMemory c pressure
  module := m

section Schedule

variable (e) (hc : c.Wired) (sequence : List Nat) (hcounts : e.Counts P safe faithful c m)
  (fits : safe → c.InRange e.scheduler.tracker pressure)

include fits

theorem yields_start : Yields P safe (e.start c sequence m pressure).run (· =
    (Graph.buildWith e.latency c sequence e.scheduler.estimator e.scheduler.tracker).map
      (e.begun c m pressure)) := by
  refine (Yields.report (.some _)).andThen ?_ ?_
  · rintro g hg
    rw [← hg]
    have hmemory : Gives safe ((LiveSet.ofComputation c _ pressure).restart? _ 0)
        (initialMemory c pressure) :=
      LiveSet.gives_restart _ _ fun hsafe =>
        ⟨(fits hsafe).bytes.roomy.tallied.length_live, (fits hsafe).bytes.volume_lt⟩
    refine (Yields.check hmemory).andThen ?_ nofun
    rintro _ ⟨⟩
    exact .pure rfl
  · rintro fault hfault
    rw [← hfault]
    rfl

include hc hcounts

/-- The order cannot be made into a graph, or the answer is read off a state where nothing is
ready. -/
theorem yields_schedule : Yields P safe (e.schedule c sequence m pressure).run fun answer =>
    (∃ fault, Graph.buildWith e.latency c sequence e.scheduler.estimator e.scheduler.tracker =
        .error fault ∧ answer = .error fault) ∨
      ∃ g final, Graph.buildWith e.latency c sequence e.scheduler.estimator e.scheduler.tracker =
          .ok g ∧ Descends g c e.scheduler.tracker m pressure final ∧ final.ready = [] ∧
        answer = Scheduler.finish final ∧
        (faithful → final = e.scheduler.drain (e.begun c m pressure g)) := by
  have hstart : Yields P safe (e.start c sequence m pressure).run _ := yields_start e sequence fits
  cases hbuild : Graph.buildWith e.latency c sequence e.scheduler.estimator e.scheduler.tracker with
  | error fault =>
    rw [hbuild] at hstart
    refine hstart.andThen nofun ?_
    rintro _ ⟨⟩
    exact Or.inl ⟨fault, rfl, rfl⟩
  | ok g =>
    rw [hbuild] at hstart
    refine hstart.andThen ?_ nofun
    rintro _ ⟨⟩
    refine (obtains_drain hc hbuild hcounts fits (descends_of_build hc hbuild e.limits) rfl).andThen
      ?_
    rintro final ⟨hfinal, hready, hdrain⟩
    refine (Yields.report (.some _)).mono ?_
    rintro _ rfl
    exact Or.inr ⟨g, final, rfl, hfinal, hready, rfl, hdrain⟩

end Schedule

structure InRange (e : Engine τ σ) (c : Computation) (m : Option Module)
    (pressure : Option Pressure) (notes : σ) : Prop
    extends c.InRange e.scheduler.tracker pressure where
  counts : ∃ P : σ → Prop, P notes ∧ ∀ r, ∀ p ∈ c.instructions, ∀ now, P now →
    ∃ units after, (e.unitsHeld r p.toInstruction m).run.run now = (some units, after) ∧ P after

/-- The answer is a schedule if and only if the list is closed and consists of distinct known
instructions, and nothing has to come before itself. A schedule is an order of the list that respects
all precedences, and a cycle is reported with the number of instructions from which one can be
reached. There is an answer unless a number leaves its range. -/
theorem exists_schedule_iff (e : Engine τ σ) (hc : c.Built) (sequence : List Nat)
    (m : Option Module) (pressure : Option Pressure) (notes : σ) :
    let outcome := ((e.schedule c sequence m pressure).on notes).1
    (∀ answer, outcome = some answer →
      ((∃ out, answer = .ok out) ↔
        c.Admits sequence ∧ ∀ a, ¬ TransGen (e.scheduler.Precedes c sequence) a a) ∧
      (∀ out, answer = .ok out → out.sequence.Perm sequence ∧ ∀ a b,
        e.scheduler.Precedes c sequence a b → out.sequence.idxOf a < out.sequence.idxOf b) ∧
      (c.Admits sequence → (∃ a, TransGen (e.scheduler.Precedes c sequence) a a) →
        answer = .error (.neverReady c.name
          {a | a ∈ sequence ∧ ReachesCycle (e.scheduler.Precedes c sequence) a}.ncard))) ∧
    (e.InRange c m pressure notes → outcome ≠ none) := by
  intro outcome
  refine ⟨?_, ?_⟩
  · -- whatever the counts are, and whether or not they are in range
    have hcounts : e.Counts (fun _ => True) False False c m := by
      intro r p _ now _
      cases (e.unitsHeld r p.toInstruction m).run.run now with
      | mk units after => cases units <;> simp
    have hrange : False → c.InRange e.scheduler.tracker pressure := False.elim
    intro answer hanswer
    rcases ((yields_schedule e hc.wired sequence hcounts hrange).on trivial).1 answer hanswer with
      ⟨fault, hbuild, rfl⟩ | ⟨g, final, hbuild, hfinal, hready, rfl, _⟩
    · have hnot : ¬ c.Admits sequence := by
        intro admits
        obtain ⟨g, hg⟩ := Graph.exists_buildWith hc.wired admits e.latency e.scheduler.estimator
          e.scheduler.tracker
        rw [hbuild] at hg
        cases hg
      exact ⟨⟨nofun, fun h => absurd h.1 hnot⟩, nofun, fun admits => absurd admits hnot⟩
    · obtain ⟨history, consistent⟩ := hfinal.consistent
      obtain ⟨admits, hname, hsize, hplaced⟩ := Scheduler.spec_of_build hc.wired hbuild consistent
        hready (hfinal.keeps.of_essence Node.toSite fun _ => rfl)
        (hfinal.keeps.of_essence Node.successors fun _ => rfl)
      have settles := Scheduler.settles_finish admits hname hsize hplaced
      exact ⟨settles.isOk_iff.trans (and_iff_right admits).symm, settles.respects,
        fun _ => settles.reports⟩
  · intro inRange
    obtain ⟨P, hnotes, hcounted⟩ := inRange.counts
    have hcounts : e.Counts P True False c m := by
      intro r p hp now hnow
      obtain ⟨units, after, hrun, hafter⟩ := hcounted r p hp now hnow
      rw [hrun]
      exact ⟨False.elim, hafter⟩
    have hyields := yields_schedule e hc.wired sequence hcounts fun _ => inRange.toInRange
    exact (hyields.on hnotes).2 trivial

section Examples

open Scheduler (reduction demanding)

def demandingEngine (demands : List (OrderDemand Rat)) : Engine Rat AsyncTracker.OccupierMemo :=
  Pass.engine { scheduler := demanding demands }

/-- The sum can be put behind the reduction; its done in front of its start leaves three
instructions. -/
theorem exists_schedule_reduction :
    (demandingEngine [⟨2, 3, 0⟩]).InRange reduction none none [] ∧
    (∃ out, (((demandingEngine [⟨2, 3, 0⟩]).schedule reduction [4, 3, 2, 1, 0] none none).on []).1 =
        some (.ok out) ∧ out.sequence.Perm [4, 3, 2, 1, 0] ∧
      ∀ a b, (demanding [⟨2, 3, 0⟩]).Precedes reduction [4, 3, 2, 1, 0] a b →
        out.sequence.idxOf a < out.sequence.idxOf b) ∧
    {a | a ∈ [4, 3, 2, 1, 0] ∧ ReachesCycle
      ((demanding [⟨2, 1, 0⟩]).Precedes reduction [4, 3, 2, 1, 0]) a}.ncard = 3 := by
  have hbuilt : reduction.Built := Computation.built_foldl_grown (.empty "c" false) _ rfl
  have inRange : (demandingEngine [⟨2, 3, 0⟩]).InRange reduction none none [] := by
    refine ⟨⟨⟨by decide +kernel, by decide +kernel⟩, by decide +kernel⟩, fun _ => True, trivial, ?_⟩
    exact fun r p _ now _ => ⟨_, now, rfl, trivial⟩
  obtain ⟨hforward, _⟩ :=
    exists_schedule_iff (demandingEngine [⟨2, 3, 0⟩]) hbuilt [4, 3, 2, 1, 0] none none []
  obtain ⟨hbackward, _⟩ :=
    exists_schedule_iff (demandingEngine [⟨2, 1, 0⟩]) hbuilt [4, 3, 2, 1, 0] none none []
  have hrun : ∃ out, (((demandingEngine [⟨2, 3, 0⟩]).schedule reduction [4, 3, 2, 1, 0] none
      none).on []).1 = some (.ok out) := ⟨_, rfl⟩
  have hforth : (demanding [⟨2, 1, 0⟩]).Precedes reduction [4, 3, 2, 1, 0] 1 2 :=
    ⟨by decide, by decide, Or.inl ⟨_, rfl, by decide⟩⟩
  have hback : (demanding [⟨2, 1, 0⟩]).Precedes reduction [4, 3, 2, 1, 0] 2 1 :=
    ⟨by decide, by decide, Or.inr ⟨⟨2, 1, 0⟩, List.mem_singleton.2 rfl, rfl, rfl⟩⟩
  have hfault : (((demandingEngine [⟨2, 1, 0⟩]).schedule reduction [4, 3, 2, 1, 0] none
      none).on []).1 = some (.error (.neverReady "c" 3)) := rfl
  obtain ⟨out, hout⟩ := hrun
  obtain ⟨hiff, horder, _⟩ := hforward _ hout
  have hleft := (hbackward _ hfault).2.2 (hiff.1 ⟨out, rfl⟩).1
    ⟨1, (TransGen.single hforth).tail hback⟩
  exact ⟨inRange, ⟨out, hout, horder out rfl⟩,
    (Fault.neverReady.inj (Except.error.inj hleft)).2.symm⟩

/-- An order that needs more bytes than there are has no answer, though nothing else is wrong. -/
theorem no_schedule_halves : Computation.halves.Built ∧ Computation.halves.Admits [0, 1, 2] ∧
    (∀ a, ¬ TransGen ((demanding []).Precedes Computation.halves [0, 1, 2]) a a) ∧
    (((demandingEngine []).schedule Computation.halves [0, 1, 2] none none).on []).1 = none := by
  have wired := Computation.built_halves.wired
  have horder : Computation.halves.IsOrder [0, 1, 2] := wired.isOrder_postOrder
  refine ⟨Computation.built_halves, horder.admits wired, ?_,
    Option.isNone_iff_eq_none.1 (by decide +kernel)⟩
  exact Scheduler.not_transGen_precedes wired horder fun c => ite_self []

end Examples

end Engine

end LatencyHiding
