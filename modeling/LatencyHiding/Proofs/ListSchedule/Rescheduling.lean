import LatencyHiding.Proofs.ListSchedule.Choice
import LatencyHiding.Proofs.ListSchedule.Timeline

set_option autoImplicit false

namespace LatencyHiding

open TimeScale ScheduleState

variable {τ : Type}

def Candidate.essence (x : Candidate τ) : Candidate τ := { x with node := 0, position := 0 }

/-- Two pressures tell a computation the same. -/
structure Computation.SameOutlook (c : Computation) (q q' : Option Pressure) : Prop where
  sizing_eq : (q'.map (·.sizing)).getD Shape.byteSize = (q.map (·.sizing)).getD Shape.byteSize
  bottom_eq : ((q'.bind (·.state? c.name)).map (·.liveAtBottom)).getD [] =
    ((q.bind (·.state? c.name)).map (·.liveAtBottom)).getD []
  calleePeak_eq : ∀ p ∈ c.instructions, (q'.map (·.calleePeak p.toInstruction)).getD 0 =
    (q.map (·.calleePeak p.toInstruction)).getD 0

namespace Computation.SameOutlook

variable {c : Computation} {q q' : Option Pressure}

theorem symm (same : c.SameOutlook q q') : c.SameOutlook q' q :=
  ⟨same.sizing_eq.symm, same.bottom_eq.symm, fun p hp => (same.calleePeak_eq p hp).symm⟩

theorem initialMemory_eq (same : c.SameOutlook q q') :
    initialMemory c q' = (initialMemory c q).under q' := by
  unfold initialMemory
  rw [same.sizing_eq, same.bottom_eq, ← LiveSet.restart_under]
  rfl

theorem calleePeak_under (same : c.SameOutlook q q') (placed : List Nat) {p : Placed}
    (hp : p ∈ c.instructions) : (((initialMemory c q).walk placed).under q').calleePeak p =
      ((initialMemory c q).walk placed).calleePeak p := by
  have hpressure : ((initialMemory c q).walk placed).pressure = q := by
    rw [LiveSet.pressure_walk]
    exact LiveSet.pressure_restart _ _ _
  unfold LiveSet.calleePeak
  rw [hpressure]
  exact same.calleePeak_eq p hp

theorem walk_eq (same : c.SameOutlook q q') (placed : List Nat) :
    (initialMemory c q').walk placed = ((initialMemory c q).walk placed).under q' := by
  rw [same.initialMemory_eq, LiveSet.walk_under]
  intro p hp
  rw [computation_initialMemory] at hp
  exact same.calleePeak_under [] hp

end Computation.SameOutlook

namespace Scheduler

variable [TimeScale τ] {s : Scheduler τ} {c : Computation} {σ σ' : List Nat} {m m' : Option Module}
  {q q' : Option Pressure} {st st' : ScheduleState τ}

theorem prefers_congr {a a' b b' : Candidate τ} (htime : st'.time = st.time)
    (husage : st'.memory.totalUsage = st.memory.totalUsage) (ha : a'.essence = a.essence)
    (hb : b'.essence = b.essence) : s.prefers st' a' b' = s.prefers st a b := by
  have hessence (st : ScheduleState τ) (a b : Candidate τ) :
      s.prefers st a b = s.prefers st a.essence b.essence := rfl
  rw [hessence st', ha, hb, hessence st]
  unfold prefers
  rw [htime, husage]

omit [TimeScale τ] in
theorem mem_pool_iff (x : Candidate τ) : x ∈ s.pool st ↔ x ∈ s.candidates st ∧
    (x.feasible = true ∨ ∀ y ∈ s.candidates st, y.feasible = false) := by
  rw [pool_eq]
  split
  · next hnone =>
    rw [List.isEmpty_iff, List.filter_eq_nil_iff] at hnone
    refine ⟨fun hx => ⟨hx, Or.inr fun y hy => by simpa using hnone y hy⟩, And.left⟩
  · next hsome =>
    rw [List.isEmpty_iff, List.filter_eq_nil_iff, not_forall] at hsome
    obtain ⟨z, hz⟩ := hsome
    rw [Classical.not_imp, not_not] at hz
    rw [List.mem_filter]
    refine and_congr_right fun _ => ⟨Or.inl, ?_⟩
    rintro (hx | hall)
    · exact hx
    · rw [hall z hz.1] at hz
      exact absurd hz.2 Bool.false_ne_true

theorem exists_append_placed (s : Scheduler τ) (k : Nat) (st : ScheduleState τ) :
    ∃ l, (s.steps k st).2.placed = l ++ st.placed := by
  apply steps_invariant s (P := fun next => ∃ l, next.placed = l ++ st.placed)
  · rintro next index n ⟨l, hl⟩ _ _
    exact ⟨n.instr.id :: l, by rw [placed_place, hl, List.cons_append]⟩
  · exact ⟨[], rfl⟩

theorem step?_of_best {u : Nat} {n : Node τ} {reason : Reason}
    (hbest : s.best? st = some (s.candidate st u n, reason)) (hn : st.graph.node? u = some n) :
    ∃ did, s.step? st = some (did, st.place u n) := by
  have hnode : st.graph.node? (s.candidate st u n).node = some n := hn
  unfold step?
  simp only [hbest, hnode]
  exact ⟨_, rfl⟩

theorem Reached.lt_size_of_ready (h : s.Reached c σ m q st) {u : Nat} (hu : u ∈ st.ready) :
    u < st.graph.size := by
  obtain ⟨history, consistent⟩ := h.consistent
  exact ((consistent.mem_ready_iff u).1 hu).1

section Order

variable (hc : c.Wired) (horder : c.IsOrder σ) (free : ∀ c, s.tracker.demands c = [])

include hc

theorem Reached.position_eq (h : s.Reached c σ m q st) {u : Nat} {n : Node τ}
    (hn : st.graph.node? u = some n) : n.position = u :=
  congrArg (fun label => label.2.1) (h.label hc hn).2

theorem Reached.getElem?_eq (h : s.Reached c σ m q st) {u : Nat} {n : Node τ}
    (hn : st.graph.node? u = some n) : σ[u]? = some n.instr.id := by
  rw [← (h.represents hc).2.1]
  exact (Graph.getElem?_order_eq_some_iff _ _ _).2 ⟨n, hn, rfl⟩

theorem Reached.isReading_asyncDepth [Ordered τ] (h : s.Reached c σ m q st) {u : Nat} {n : Node τ}
    (hn : st.graph.node? u = some n) : IsReading n.asyncDepth := by
  obtain ⟨g, hg, hkeeps⟩ := h.graph
  exact (hkeeps.of_essence (fun n => IsReading n.asyncDepth) fun _ => rfl).forall_nodes
    (Graph.isReading_asyncDepth_of_build hc hg) n (List.mem_of_getElem? hn)

theorem Reached.timed [Ordered τ] (h : s.Reached c σ m q st) (onTime : s.OnTime c st) :
    ∀ x ∈ s.pool st, x.Timed := by
  intro x hx
  obtain ⟨u, hu, n, hn, rfl⟩ := (mem_candidates_iff s x).1 (mem_candidates_of_mem_pool s hx)
  refine ⟨h.isReading_asyncDepth hc hn, ?_⟩
  change IsReading n.readyTime
  rw [onTime.ready_eq u hu n hn]
  exact isReading_zero.latest _

theorem Reached.apart (h : s.Reached c σ m q st) :
    ∀ x ∈ s.pool st, ∀ y ∈ s.pool st, x.position = y.position → x = y := by
  intro x hx y hy hsame
  obtain ⟨v, _, p, hp, rfl⟩ := (mem_candidates_iff s x).1 (mem_candidates_of_mem_pool s hx)
  obtain ⟨w, _, r, hr, rfl⟩ := (mem_candidates_iff s y).1 (mem_candidates_of_mem_pool s hy)
  change p.position = r.position at hsame
  rw [h.position_eq hc hp, h.position_eq hc hr] at hsame
  subst hsame
  rw [Option.some.inj (hp.symm.trans hr)]

include horder

/-- In an order that ends with what is placed, all that waits stands in front of the one that is
placed next, or is it. -/
theorem Reached.place_of_end (h : s.Reached c σ m q st) {u v : Nat} {n p : Node τ} {l : List Nat}
    (hend : σ = l ++ n.instr.id :: st.placed) (hn : st.graph.node? u = some n)
    (hp : st.graph.node? v = some p) (hwaits : p.instr.id ∉ st.placed) : v = u ∨ v < u := by
  have nodup := horder.nodup
  have hv := h.getElem?_eq hc hp
  have hlast : σ[l.length]? = some n.instr.id := by simp [hend]
  have hplace : u = l.length := by
    rw [← idxOf_of_getElem? nodup (h.getElem?_eq hc hn), idxOf_of_getElem? nodup hlast]
  by_cases hsame : p.instr.id = n.instr.id
  · left
    rw [hplace, ← idxOf_of_getElem? nodup hv, hsame, idxOf_of_getElem? nodup hlast]
  · right
    by_contra hge
    rw [hplace, not_lt] at hge
    rw [hend, List.getElem?_append_right hge] at hv
    exact hwaits ((List.mem_cons.1 (List.mem_of_getElem? hv)).resolve_left hsame)

include free

theorem Reached.position_lt_of_end (h : s.Reached c σ m q st) {u : Nat} {n : Node τ} {l : List Nat}
    (hend : σ = l ++ n.instr.id :: st.placed) (hn : st.graph.node? u = some n) :
    ∀ x ∈ s.pool st, x = s.candidate st u n ∨ x.position < n.position := by
  intro x hx
  obtain ⟨v, hv, p, hp, rfl⟩ := (mem_candidates_iff s x).1 (mem_candidates_of_mem_pool s hx)
  have hwaits := ((h.mem_ready_iff_needs hc horder free hp).1 hv).1
  change _ ∨ p.position < n.position
  rw [h.position_eq hc hp, h.position_eq hc hn]
  refine (h.place_of_end hc horder hend hn hp hwaits).imp_left ?_
  rintro rfl
  rw [Option.some.inj (hp.symm.trans hn)]

end Order

structure Companions (s : Scheduler τ) (c : Computation) (σ σ' : List Nat) (m m' : Option Module)
    (q q' : Option Pressure) (st st' : ScheduleState τ) : Prop where
  first : s.Reached c σ m q st
  second : s.Reached c σ' m' q' st'
  firstOnTime : s.OnTime c st
  secondOnTime : s.OnTime c st'
  placed_eq : st'.placed = st.placed

namespace Companions

theorem symm (pair : s.Companions c σ σ' m m' q q' st st') :
    s.Companions c σ' σ m' m q' q st' st :=
  ⟨pair.second, pair.first, pair.secondOnTime, pair.firstOnTime, pair.placed_eq.symm⟩

theorem time_eq (pair : s.Companions c σ σ' m m' q q' st st') : st'.time = st.time := by
  rw [pair.firstOnTime.time_eq, pair.secondOnTime.time_eq, pair.placed_eq]

theorem memory_eq (pair : s.Companions c σ σ' m m' q q' st st') (same : c.SameOutlook q q') :
    st'.memory = st.memory.under q' := by
  rw [pair.first.memory_eq, pair.second.memory_eq, pair.placed_eq, same.walk_eq]

variable (hc : c.Wired) (horder : c.IsOrder σ) (horder' : c.IsOrder σ')
  (free : ∀ c, s.tracker.demands c = [])
  (units : ∀ r i, s.tracker.unitsHeld r i m' = s.tracker.unitsHeld r i m)
  (same : c.SameOutlook q q') (pair : s.Companions c σ σ' m m' q q' st st')

section Twins

variable {u u' : Nat} {n n' : Node τ} (hn : st.graph.node? u = some n)
  (hn' : st'.graph.node? u' = some n') (hid : n'.instr.id = n.instr.id)

include hc pair hn hn' hid

theorem label_eq : n'.toSite = n.toSite ∧ n'.uses = n.uses := by
  obtain ⟨hknown, hlabel⟩ := pair.first.label hc hn
  obtain ⟨hknown', hlabel'⟩ := pair.second.label hc hn'
  rw [hid, hknown, Option.some.injEq] at hknown'
  rw [← hknown'] at hlabel'
  exact ⟨(congrArg (·.1) hlabel').trans (congrArg (·.1) hlabel).symm,
    (congrArg (·.2.2.2) hlabel').trans (congrArg (·.2.2.2) hlabel).symm⟩

theorem forceDelay_eq : n'.forceDelay = n.forceDelay := by
  obtain ⟨g, hg, hkeeps⟩ := pair.first.graph
  obtain ⟨g', hg', hkeeps'⟩ := pair.second.graph
  obtain ⟨old, hold, hsame⟩ := hkeeps.exists_node? hn
  obtain ⟨old', hold', hsame'⟩ := hkeeps'.exists_node? hn'
  have hinstr : n'.instr = n.instr := congrArg Site.instr (pair.label_eq hc hn hn' hid).1
  rw [← Node.eq_of_essence hsame Node.forceDelay fun _ => rfl,
    ← Node.eq_of_essence hsame' Node.forceDelay fun _ => rfl,
    Graph.forceDelay_of_build hc hg hold, Graph.forceDelay_of_build hc hg' hold',
    Node.eq_of_essence hsame (·.instr) fun _ => rfl,
    Node.eq_of_essence hsame' (·.instr) fun _ => rfl, hinstr]

include horder horder' free in
theorem asyncDepth_eq [Ordered τ] : n'.asyncDepth = n.asyncDepth := by
  obtain ⟨g, hg, hkeeps⟩ := pair.first.graph
  obtain ⟨g', hg', hkeeps'⟩ := pair.second.graph
  obtain ⟨old, hold, hsame⟩ := hkeeps.exists_node? hn
  obtain ⟨old', hold', hsame'⟩ := hkeeps'.exists_node? hn'
  rw [← Node.eq_of_essence hsame Node.asyncDepth fun _ => rfl,
    ← Node.eq_of_essence hsame' Node.asyncDepth fun _ => rfl]
  apply Graph.Depicts.asyncDepth_eq hc (Graph.depicts_of_build hc horder' free hg')
    (Graph.depicts_of_build hc horder free hg) (Graph.deep_of_build hc horder' free hg')
    (Graph.deep_of_build hc horder free hg) hold' hold
  rw [Node.eq_of_essence hsame (·.instr) fun _ => rfl,
    Node.eq_of_essence hsame' (·.instr) fun _ => rfl, hid]

include units in
theorem isFeasible_eq : s.isFeasible st' n' = s.isFeasible st n := by
  obtain ⟨hsite, huses⟩ := pair.label_eq hc hn hn' hid
  have hinstr : n'.instr = n.instr := congrArg Site.instr hsite
  have hflight : st'.inFlight = st.inFlight := by
    rw [pair.first.inFlight_eq, pair.second.inFlight_eq, pair.placed_eq]
  have hlimits : st'.limits = st.limits := by rw [pair.first.limits_eq, pair.second.limits_eq]
  unfold isFeasible releasesFit callsFit unitsFit inFlightOf limitOf
  rw [hflight, hlimits, hinstr, huses, pair.first.module_eq, pair.second.module_eq]
  simp only [units]

end Twins

include hc horder horder' free units same pair

/-- What is ready in one run is ready in the other, and differs at most in its position. -/
theorem exists_twin [Ordered τ] {x : Candidate τ} (hx : x ∈ s.candidates st) :
    ∃ x' ∈ s.candidates st', x'.essence = x.essence := by
  obtain ⟨u, hu, n, hn, rfl⟩ := (mem_candidates_iff s x).1 hx
  have hready := (pair.first.mem_ready_iff_needs hc horder free hn).1 hu
  obtain ⟨u', n', hn', hid⟩ := (pair.second.depicts hc horder' free).exists_node
    (Computation.lt_size_of_instruction? (pair.first.label hc hn).1)
  have hu' : u' ∈ st'.ready := by
    rw [pair.second.mem_ready_iff_needs hc horder' free hn', hid, pair.placed_eq]
    exact hready
  refine ⟨_, (mem_candidates_iff s _).2 ⟨u', hu', n', hn', rfl⟩, ?_⟩
  obtain ⟨hsite, _⟩ := pair.label_eq hc hn hn' hid
  have hinstr : n'.instr = n.instr := congrArg Site.instr hsite
  have hmem : n.instr ∈ c.instructions := List.mem_of_getElem? (pair.first.label hc hn).1
  have heffect : st'.memory.effect n'.instr = st.memory.effect n.instr := by
    rw [pair.memory_eq same, hinstr]
    apply LiveSet.effect_under
    rw [pair.first.memory_eq]
    exact same.calleePeak_under st.placed hmem
  have hready' : n'.readyTime = n.readyTime := by
    rw [pair.firstOnTime.ready_eq u hu n hn, pair.secondOnTime.ready_eq u' hu' n' hn',
      pair.placed_eq, hid]
  have hdone : n'.isDone = n.isDone := congrArg Site.isDone hsite
  unfold candidate Candidate.ofNode Candidate.essence
  simp only [hid, heffect, hready', hdone, pair.forceDelay_eq hc hn hn' hid,
    pair.asyncDepth_eq hc horder horder' free hn hn' hid, pair.isFeasible_eq hc units hn hn' hid]

theorem exists_twin_of_mem_pool [Ordered τ] {x : Candidate τ} (hx : x ∈ s.pool st) :
    ∃ x' ∈ s.pool st', x'.essence = x.essence := by
  obtain ⟨hmem, hfeasible⟩ := (mem_pool_iff x).1 hx
  obtain ⟨x', hmem', htwin⟩ := pair.exists_twin hc horder horder' free units same hmem
  have hflag {y y' : Candidate τ} (h : y'.essence = y.essence) : y'.feasible = y.feasible :=
    (congrArg Candidate.feasible h :)
  refine ⟨x', (mem_pool_iff x').2 ⟨hmem', hfeasible.imp (fun h => (hflag htwin).trans h) ?_⟩, htwin⟩
  intro hnone y' hy'
  obtain ⟨y, hy, hsame⟩ := pair.symm.exists_twin hc horder' horder free
    (fun r i => (units r i).symm) same.symm hy'
  rw [← hflag hsame]
  exact hnone y hy

/-- The chosen one is chosen by the other run too, if its order ends with what is placed then. -/
theorem exists_best [Ordered τ] (hrule : s.rule = none) {u : Nat} {n : Node τ} {reason : Reason}
    (hbest : s.best? st = some (s.candidate st u n, reason)) {l : List Nat}
    (hend : σ' = l ++ n.instr.id :: st.placed) :
    ∃ u' ∈ st'.ready, ∃ n' reason', st'.graph.node? u' = some n' ∧ n'.instr.id = n.instr.id ∧
      s.best? st' = some (s.candidate st' u' n', reason') := by
  have hprefers := prefers_of_best? hrule (pair.first.timed hc pair.firstOnTime)
    (pair.first.apart hc) hbest
  obtain ⟨x', hx', htwin⟩ := pair.exists_twin_of_mem_pool hc horder horder' free units same
    (mem_pool_of_best? s hbest)
  obtain ⟨u', hu', n', hn', rfl⟩ := (mem_candidates_iff s x').1 (mem_candidates_of_mem_pool s hx')
  have hid : n'.instr.id = n.instr.id := (congrArg Candidate.instr htwin :)
  have husage : st'.memory.totalUsage = st.memory.totalUsage := by
    rw [pair.memory_eq same]
    rfl
  obtain ⟨reason', hbest'⟩ := best?_of_prefers hrule
    (pair.second.timed hc pair.secondOnTime) hx' (by
      intro y' hy'
      obtain ⟨y, hy, hsame⟩ := pair.symm.exists_twin_of_mem_pool hc horder' horder free
        (fun r i => (units r i).symm) same.symm hy'
      rw [prefers_congr pair.time_eq husage htwin hsame.symm]
      exact hprefers y hy) (by
      rw [← pair.placed_eq, ← hid] at hend
      exact pair.second.position_lt_of_end hc horder' free hend hn')
  exact ⟨u', hu', n', reason', hn', hid, hbest'⟩

theorem placed_steps [Ordered τ] (hrule : s.rule = none) (k : Nat)
    (hfinal : (s.steps k st).2.placed = σ') : (s.steps k st').2.placed = σ' := by
  induction k generalizing st st' with
  | zero => exact pair.placed_eq.trans hfinal
  | succ k ih =>
    cases hstep : s.step? st with
    | none =>
      -- all is placed, so that nothing is ready in the second run either
      have hdone : st.placed = σ' := by simpa [steps, hstep] using hfinal
      have hready : st'.ready = [] := by
        rw [List.eq_nil_iff_forall_not_mem]
        intro u hu
        obtain ⟨n, hn⟩ := (Graph.lt_size_iff st'.graph u).1 (pair.second.lt_size_of_ready hu)
        refine ((pair.second.mem_ready_iff_needs hc horder' free hn).1 hu).1 ?_
        rw [pair.placed_eq, hdone]
        exact List.mem_of_getElem? (pair.second.getElem?_eq hc hn)
      have hstep' : s.step? st' = none :=
        (step?_eq_none_iff s fun u hu => pair.second.lt_size_of_ready hu).2 hready
      simpa [steps, hstep', pair.placed_eq] using hdone
    | some result =>
      obtain ⟨did, next⟩ := result
      obtain ⟨u, hu, n, reason, hn, hbest, _, rfl⟩ := step?_best s hstep
      have hrest : (s.steps k (st.place u n)).2.placed = σ' := by
        simpa [steps, hstep] using hfinal
      obtain ⟨l, hl⟩ := exists_append_placed s k (st.place u n)
      rw [hrest, placed_place] at hl
      obtain ⟨u', hu', n', reason', hn', hid, hbest'⟩ :=
        pair.exists_best hc horder horder' free units same hrule hbest hl
      obtain ⟨did', hstep'⟩ := step?_of_best hbest' hn'
      have hnext := ih ⟨pair.first.place hc hu hn, pair.second.place hc hu' hn',
        .place hc horder free pair.first hu hn pair.firstOnTime,
        .place hc horder' free pair.second hu' hn' pair.secondOnTime,
        by rw [placed_place, placed_place, hid, pair.placed_eq]⟩ hrest
      simpa [steps, hstep'] using hnext

end Companions

section Outcome

variable (hc : c.Wired) (horder : c.IsOrder σ) (free : ∀ c, s.tracker.demands c = [])

include hc horder free

theorem isOrder_drain (hstart : s.start c σ m q = .ok st) : c.IsOrder (s.drain st).placed := by
  have reached : s.Reached c σ m q (s.drain st) := (reached_start hc hstart).steps hc _
  have hperm := perm_drain hc horder free hstart
  refine ⟨hperm.trans horder.perm, ?_⟩
  intro p hp dependency hdependency
  obtain ⟨k, hk⟩ := (Computation.mem_instructions_iff c p).1 hp
  have hneeds : c.Needs p.id dependency := by
    rw [hc.id_eq k p hk]
    exact ⟨p, hk, hdependency⟩
  apply (reached.grounded_needs hc horder free).idxOf_lt (reached.nodup_placed hc) _ hneeds
  rw [hperm.mem_iff, horder.mem_iff]
  exact Nat.lt_trans (hneeds.lt hc) hneeds.lt_size

/-- A schedule stays as it is when it is scheduled again. -/
theorem schedule_schedule [Ordered τ] (hrule : s.rule = none)
    (units : ∀ r i, s.tracker.unitsHeld r i m' = s.tracker.unitsHeld r i m)
    (same : c.SameOutlook q q') {out : ComputationSchedule}
    (hout : s.schedule c σ m q = .ok out) : s.schedule c out.sequence m' q' = .ok out := by
  obtain ⟨st, hstart⟩ := exists_start_of_isOrder s hc horder m q
  rw [schedule_of_start hc horder free hstart, Except.ok.injEq] at hout
  subst hout
  have horder' := isOrder_drain hc horder free hstart
  obtain ⟨st', hstart'⟩ := exists_start_of_isOrder s hc horder' m' q'
  have reached := reached_start hc hstart
  have reached' := reached_start hc hstart'
  have hsize : st'.graph.size = st.graph.size := by
    rw [Graph.size_eq_length_order, (reached'.represents hc).2.1, Graph.size_eq_length_order,
      (reached.represents hc).2.1, (perm_drain hc horder free hstart).length_eq]
  have pair : s.Companions c σ (s.drain st).placed m m' q q' st st' :=
    ⟨reached, reached', onTime_start hc horder free hstart, onTime_start hc horder' free hstart', by
      rw [(start_ok hstart).2.2, (start_ok hstart').2.2]⟩
  have hplaced : (s.drain st').placed = (s.drain st).placed := by
    unfold drain
    rw [hsize]
    exact pair.placed_steps hc horder horder' free units same hrule _ rfl
  have hmemory : (s.drain st').memory.state = (s.drain st).memory.state := by
    have hfirst : (s.drain st).memory = _ := (reached.steps hc st.graph.size).memory_eq
    have hsecond : (s.drain st').memory = _ := (reached'.steps hc st'.graph.size).memory_eq
    change (s.drain st).memory = (initialMemory c q).walk (s.drain st).placed at hfirst
    change (s.drain st').memory = (initialMemory c q').walk (s.drain st').placed at hsecond
    rw [hfirst, hsecond, hplaced, same.walk_eq]
    rfl
  rw [schedule_of_start hc horder' free hstart', hplaced, hmemory]

end Outcome

end Scheduler

end LatencyHiding
