import LatencyHiding.Proofs.Dependence.Neighbours
import LatencyHiding.Proofs.ListSchedule.History

set_option autoImplicit false

namespace LatencyHiding

open TimeScale ScheduleState

variable {τ : Type}

structure Timeline (τ : Type) where
  now : τ
  started : Nat → τ

namespace ScheduleState

open LatencyHiding.Graph

variable [TimeScale τ] {s : ScheduleState τ} {history : List Nat} {index : Nat} {n : Node τ}

theorem Consistent.readyTime?_place (consistent : s.Consistent history) (hindex : index ∈ s.ready)
    (hn : s.graph.node? index = some n) (u : Nat) :
    readyTime? (s.place index n).graph u =
      if s.graph.Leads u index ∧ lastWait s.graph u = true then
        ((s.cleared index n).graph.node? u).map (readyTimeOf (s.cleared index n).graph)
      else readyTime? (s.cleared index n).graph u := by
  have hpred := consistent.linked.mem_predecessors_iff hn
  have hsucc : Keeps Node.successors s.graph (s.cleared index n).graph :=
    keeps_cleared s index n fun _ _ _ _ => rfl
  rw [place_eq, readyTime?_foldl_relieve (consistent.linked.nodup_predecessors hn),
    lastWait_cleared]
  · simp only [hpred]
  intro v hv hlast m hm e he hmem
  rw [hpred] at hv hmem
  rw [lastWait_cleared] at hlast
  have hlead : s.graph.Leads v e.target := by
    rw [← hsucc.leads_iff]
    exact leads_of_mem_successors hm he
  rcases List.mem_cons.1 ((consistent.lastWait_iff hindex hv).1 hlast e.target hlead) with hi | hd
  · exact consistent.not_leads_of_mem_ready hindex hindex (hi ▸ hmem)
  · exact consistent.not_leads_of_mem_history hindex hd hmem

theorem Consistent.readyTime?_place_of_not_leads (consistent : s.Consistent history)
    (hindex : index ∈ s.ready) (hn : s.graph.node? index = some n) {u : Nat}
    (hlead : ¬ s.graph.Leads u index) : readyTime? (s.place index n).graph u =
      if u = index then some (s.placingTime n) else readyTime? s.graph u := by
  rw [consistent.readyTime?_place hindex hn, if_neg fun h => hlead h.1, readyTime?_cleared]
  split
  · next hu => simp [hu, readyTime?, hn]
  · rfl

theorem exists_node?_of_cleared {u : Nat} {q : Node τ}
    (hq : (s.cleared index n).graph.node? u = some q) :
    ∃ old, s.graph.node? u = some old ∧ old.instr.id = q.instr.id :=
  (keeps_cleared s index n fun _ _ _ _ => rfl :
    Keeps (fun n : Node τ => n.instr.id) _ _).exists_node? hq

theorem exists_cleared_of_place {u : Nat} {p : Node τ}
    (hp : (s.place index n).graph.node? u = some p) :
    ∃ q, (s.cleared index n).graph.node? u = some q ∧ q.instr.id = p.instr.id :=
  (keeps_foldl_relieve _ (s.cleared index n) fun _ _ _ => rfl :
    Keeps (fun n : Node τ => n.instr.id) _ _).exists_node? hp

end ScheduleState

namespace Scheduler

variable [TimeScale τ]

def costOf (s : Scheduler τ) (c : Computation) (a : Nat) : τ :=
  ((c.instruction? a).map fun p => s.estimator.cost p.toInstruction).getD zero

def readyFrom (s : Scheduler τ) (c : Computation) (started : Nat → τ) (a : Nat) : τ :=
  latest zero ((c.dependents a).map fun b =>
    started b + c.between s.tracker s.estimator.latency a b)

/-- The timeline after placing some instructions, the last one first. -/
def timeline (s : Scheduler τ) (c : Computation) : List Nat → Timeline τ
  | [] => ⟨zero, fun _ => zero⟩
  | a :: placed =>
    let before := s.timeline c placed
    let start := later before.now (s.readyFrom c before.started a)
    ⟨start + s.costOf c a, Function.update before.started a start⟩

variable {s : Scheduler τ} {c : Computation} {sequence : List Nat} {m : Option Module}
  {pressure : Option Pressure} {st : ScheduleState τ}

theorem now_timeline_cons (a : Nat) (placed : List Nat) : (s.timeline c (a :: placed)).now =
    (s.timeline c (a :: placed)).started a + s.costOf c a := by
  simp [timeline]

theorem started_timeline_cons_of_ne {a b : Nat} (hne : b ≠ a) (placed : List Nat) :
    (s.timeline c (a :: placed)).started b = (s.timeline c placed).started b :=
  Function.update_of_ne hne _ _

theorem readyFrom_congr {started started' : Nat → τ} {a : Nat}
    (h : ∀ b, c.Needs b a → started b = started' b) :
    s.readyFrom c started a = s.readyFrom c started' a := by
  unfold readyFrom
  congr 1
  apply List.map_congr_left
  intro b hb
  rw [h b (by simpa using (List.mem_filter.1 hb).2)]

theorem Reached.costOf_eq (h : s.Reached c sequence m pressure st) (hc : c.Wired) {u : Nat}
    {n : Node τ} (hn : st.graph.node? u = some n) : n.cost = s.costOf c n.instr.id := by
  obtain ⟨hknown, hlabel⟩ := h.label hc hn
  rw [costOf, hknown]
  exact congrArg (fun label => label.2.2.1) hlabel

theorem Reached.depicts (h : s.Reached c sequence m pressure st) (hc : c.Wired)
    (horder : c.IsOrder sequence) (free : ∀ c, s.tracker.demands c = []) :
    st.graph.Depicts c s.estimator s.tracker := by
  obtain ⟨g, hg, hkeeps⟩ := h.graph
  exact (Graph.depicts_of_build hc horder free hg).keeps
    (hkeeps.of_essence Node.toSite fun _ => rfl) (hkeeps.of_essence Node.successors fun _ => rfl)
    (hkeeps.of_essence Node.predecessors fun _ => rfl)

structure OnTime (s : Scheduler τ) (c : Computation) (st : ScheduleState τ) : Prop where
  time_eq : st.time = (s.timeline c st.placed).now
  started_eq : ∀ (u : Nat) (n : Node τ), st.graph.node? u = some n → n.instr.id ∈ st.placed →
    n.readyTime = (s.timeline c st.placed).started n.instr.id
  ready_eq : ∀ u ∈ st.ready, ∀ n : Node τ, st.graph.node? u = some n →
    n.readyTime = s.readyFrom c (s.timeline c st.placed).started n.instr.id

theorem OnTime.started_self (onTime : s.OnTime c st) {index : Nat} {n : Node τ}
    (hindex : index ∈ st.ready) (hn : st.graph.node? index = some n) :
    (s.timeline c (n.instr.id :: st.placed)).started n.instr.id = st.placingTime n := by
  change Function.update _ n.instr.id _ n.instr.id = _
  rw [Function.update_self, placingTime, onTime.time_eq, onTime.ready_eq index hindex n hn]

section Order

variable (hc : c.Wired) (horder : c.IsOrder sequence) (free : ∀ c, s.tracker.demands c = [])

include hc horder free

theorem onTime_start (hstart : s.start c sequence m pressure = .ok st) : s.OnTime c st := by
  obtain ⟨g, hg, rfl⟩ := (start_eq_ok_iff s c sequence m pressure st).1 hstart
  constructor
  · rfl
  · intro u n _ hplaced
    exact absurd hplaced List.not_mem_nil
  · intro u hu n hn
    have hperm := (Graph.depicts_of_build hc horder free hg).successors_perm hn
    have hlast : n.successors = [] := by simpa [hn] using (List.mem_filter.1 hu).2
    rw [hlast, List.map_nil] at hperm
    rw [Graph.readyTime_of_build hc hg hn, readyFrom, ← hperm.nil_eq]
    rfl

section Place

variable (h : s.Reached c sequence m pressure st) {index : Nat} {n : Node τ}
  (hindex : index ∈ st.ready) (hn : st.graph.node? index = some n)

include h

theorem Reached.depicts_cleared (index : Nat) (n : Node τ) :
    (st.cleared index n).graph.Depicts c s.estimator s.tracker :=
  (h.depicts hc horder free).keeps (keeps_cleared st index n fun _ _ _ _ => rfl)
    (keeps_cleared st index n fun _ _ _ _ => rfl) (keeps_cleared st index n fun _ _ _ _ => rfl)

theorem Reached.leads_iff_needs_cleared (hn : st.graph.node? index = some n) {u : Nat} {q : Node τ}
    (hq : (st.cleared index n).graph.node? u = some q) :
    st.graph.Leads u index ↔ c.Needs n.instr.id q.instr.id := by
  obtain ⟨old, hold, hid⟩ := exists_node?_of_cleared hq
  rw [(h.depicts hc horder free).leads_iff_needs hold hn, hid]

include hindex hn

theorem OnTime.started_cleared (onTime : s.OnTime c st) {v : Nat} {p : Node τ}
    (hp : (st.cleared index n).graph.node? v = some p)
    (hplaced : p.instr.id ∈ n.instr.id :: st.placed) :
    p.readyTime = (s.timeline c (n.instr.id :: st.placed)).started p.instr.id := by
  obtain ⟨old, hold, hid⟩ := exists_node?_of_cleared hp
  have htime := readyTime?_cleared st index n v
  simp only [readyTime?, hp, hold, Option.map_some] at htime
  rw [← hid] at hplaced ⊢
  by_cases hvi : v = index
  · subst hvi
    obtain rfl : old = n := Option.some.inj (hold.symm.trans hn)
    rw [if_pos rfl] at htime
    rw [Option.some.inj htime, onTime.started_self hindex hn]
  · have hne : old.instr.id ≠ n.instr.id := fun hsame =>
      hvi ((h.depicts hc horder free).unique hold hn hsame).1
    have hmem := (List.mem_cons.1 hplaced).resolve_left hne
    rw [if_neg hvi] at htime
    rw [Option.some.inj htime, onTime.started_eq v old hold hmem]
    exact (started_timeline_cons_of_ne hne _).symm

theorem OnTime.started_place (onTime : s.OnTime c st) {u : Nat} {p : Node τ}
    (hp : (st.place index n).graph.node? u = some p)
    (hmem : p.instr.id ∈ n.instr.id :: st.placed) :
    p.readyTime = (s.timeline c (n.instr.id :: st.placed)).started p.instr.id := by
  obtain ⟨history, consistent⟩ := h.consistent
  obtain ⟨q, hq, hid⟩ := exists_cleared_of_place hp
  have hnot := ((h.mem_ready_iff_needs hc horder free hn).1 hindex).1
  -- nothing placed leads to what is placed later
  have hlead : ¬ st.graph.Leads u index := by
    rw [h.leads_iff_needs_cleared hc horder free hn hq, hid]
    intro hneeds
    rcases List.mem_cons.1 hmem with hself | hmem
    · exact hc.not_needs_self _ (hself ▸ hneeds)
    · exact hnot ((h.grounded_needs hc horder free).mem_of_rel hmem hneeds)
  have htime := consistent.readyTime?_place hindex hn u
  rw [if_neg fun hboth => hlead hboth.1] at htime
  simp only [readyTime?, hp, hq, Option.map_some, Option.some.injEq] at htime
  rw [htime, ← hid]
  exact onTime.started_cleared hc horder free h hindex hn hq (hid ▸ hmem)

variable [Ordered τ]

/-- A node that becomes ready takes its time from nodes that are placed. -/
theorem OnTime.ready_place_of_leads (onTime : s.OnTime c st) {u : Nat} {p : Node τ}
    (hu : u ∈ (st.place index n).ready) (hp : (st.place index n).graph.node? u = some p)
    (hlead : st.graph.Leads u index) : p.readyTime =
      s.readyFrom c (s.timeline c (n.instr.id :: st.placed)).started p.instr.id := by
  obtain ⟨history, consistent⟩ := h.consistent
  obtain ⟨q, hq, hid⟩ := exists_cleared_of_place hp
  have depicts := h.depicts_cleared hc horder free index n
  have hafter := (((h.place hc hindex hn).mem_ready_iff_needs hc horder free hp).1 hu).2
  rw [placed_place, ← hid] at hafter
  have hlast := (consistent.lastWait_iff hindex hlead).2
    ((consistent.mem_ready_place_iff hindex hn u).1 hu).2.2
  have htime := consistent.readyTime?_place hindex hn u
  rw [if_pos ⟨hlead, hlast⟩] at htime
  simp only [readyTime?, hp, hq, Option.map_some, Option.some.injEq] at htime
  rw [htime, ← hid]
  apply depicts.latest_successors hq (fun r latency => r.readyTime + latency)
  intro e he r hr
  have hneeds := (depicts.leads_iff_needs hq hr).1 (Graph.leads_of_mem_successors hq he)
  rw [onTime.started_cleared hc horder free h hindex hn hr (hafter _ hneeds),
    depicts.latency_successor hq he hr]

omit [Ordered τ] in
theorem OnTime.ready_place_of_not_leads (onTime : s.OnTime c st) {u : Nat} {p : Node τ}
    (hu : u ∈ (st.place index n).ready) (hp : (st.place index n).graph.node? u = some p)
    (hlead : ¬ st.graph.Leads u index) : p.readyTime =
      s.readyFrom c (s.timeline c (n.instr.id :: st.placed)).started p.instr.id := by
  obtain ⟨history, consistent⟩ := h.consistent
  obtain ⟨q, hq, hid⟩ := exists_cleared_of_place hp
  obtain ⟨old, hold, hoid⟩ := exists_node?_of_cleared hq
  obtain ⟨hunplaced, hafter⟩ := ((h.place hc hindex hn).mem_ready_iff_needs hc horder free hp).1 hu
  rw [placed_place, ← hid, ← hoid] at hunplaced hafter
  have htime := consistent.readyTime?_place_of_not_leads hindex hn hlead
  rw [(h.depicts hc horder free).leads_iff_needs hold hn] at hlead
  have hui : u ≠ index := by
    rintro rfl
    obtain rfl : old = n := Option.some.inj (hold.symm.trans hn)
    exact hunplaced List.mem_cons_self
  have hother {b : Nat} (hneeds : c.Needs b old.instr.id) : b ≠ n.instr.id := fun hb =>
    hlead (hb ▸ hneeds)
  have hready : u ∈ st.ready := by
    rw [h.mem_ready_iff_needs hc horder free hold]
    refine ⟨fun hmem => hunplaced (List.mem_cons_of_mem _ hmem), ?_⟩
    intro b hneeds
    exact (List.mem_cons.1 (hafter b hneeds)).resolve_left (hother hneeds)
  rw [if_neg hui] at htime
  simp only [readyTime?, hp, hold, Option.map_some, Option.some.injEq] at htime
  rw [htime, onTime.ready_eq u hready old hold, ← hid, ← hoid]
  apply readyFrom_congr
  intro b hneeds
  exact (started_timeline_cons_of_ne (hother hneeds) _).symm

theorem OnTime.place (onTime : s.OnTime c st) : s.OnTime c (st.place index n) := by
  constructor
  · obtain ⟨graph, ready, hrest⟩ := place_rest st index n
    have htime : (st.place index n).time = st.placingTime n + n.cost := by rw [hrest]
    rw [htime, placed_place, h.costOf_eq hc hn, now_timeline_cons, onTime.started_self hindex hn]
  · intro u p hp hmem
    rw [placed_place] at hmem ⊢
    exact onTime.started_place hc horder free h hindex hn hp hmem
  · intro u hu p hp
    rw [placed_place]
    by_cases hlead : st.graph.Leads u index
    · exact onTime.ready_place_of_leads hc horder free h hindex hn hu hp hlead
    · exact onTime.ready_place_of_not_leads hc horder free h hindex hn hu hp hlead

end Place

end Order

end Scheduler

end LatencyHiding
