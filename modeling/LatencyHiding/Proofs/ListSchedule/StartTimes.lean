import LatencyHiding.Proofs.ListSchedule.Bookkeeping
import LatencyHiding.Proofs.ListSchedule.Timeline

set_option autoImplicit false

/-!
When the nodes of a schedule start. A node has one field for its time: first it says when the node
is ready, and from the step that places it on when it has started. A node gets ready when the last
of its successors is placed. At that moment all of them hold their starts, and no later step writes
to a node that is ready or placed, so every node starts as early as the clock and the starts of its
successors allow.
-/

namespace LatencyHiding

open TimeScale ScheduleState

variable {τ : Type} [TimeScale τ]

namespace ScheduleState

open LatencyHiding.Graph

/-- What is ready is so from the time on that its successors give. -/
def Prompt (s : ScheduleState τ) : Prop :=
  ∀ u ∈ s.ready, ∀ n, s.graph.node? u = some n → n.readyTime = readyTimeOf s.graph n

section Place

variable {s : ScheduleState τ} {history : List Nat} {index : Nat} {n : Node τ}
  (consistent : s.Consistent history) (hindex : index ∈ s.ready)
  (hn : s.graph.node? index = some n)

include consistent hindex

omit [TimeScale τ] in
theorem Consistent.not_leads_of_mem_cons {u : Nat} (hu : u ∈ index :: history) :
    ¬ s.graph.Leads u index := by
  rcases List.mem_cons.1 hu with rfl | hu
  · exact consistent.not_leads_of_mem_ready hindex hindex
  · exact consistent.not_leads_of_mem_history hindex hu

include hn

theorem Consistent.readyTime?_place_self :
    readyTime? (s.place index n).graph index = some (s.placingTime n) := by
  rw [consistent.readyTime?_place_of_not_leads hindex hn
    (consistent.not_leads_of_mem_ready hindex hindex), if_pos rfl]

theorem Consistent.readyTime?_place_of_mem_history {u : Nat} (hu : u ∈ history) :
    readyTime? (s.place index n).graph u = readyTime? s.graph u := by
  have hne : u ≠ index := fun h => consistent.not_mem_history hindex (h ▸ hu)
  rw [consistent.readyTime?_place_of_not_leads hindex hn
    (consistent.not_leads_of_mem_history hindex hu), if_neg hne]

theorem Consistent.readyTime?_place_of_mem_ready {u : Nat} (hu : u ∈ s.ready) (hne : u ≠ index) :
    readyTime? (s.place index n).graph u = readyTime? s.graph u := by
  rw [consistent.readyTime?_place_of_not_leads hindex hn
    (consistent.not_leads_of_mem_ready hindex hu), if_neg hne]

/-- A node whose last successor is placed is given its time while all of them hold their starts. -/
theorem Consistent.readyTime_place_of_leads {u : Nat} {p : Node τ}
    (hp : (s.place index n).graph.node? u = some p) (hlead : s.graph.Leads u index)
    (hafter : ∀ v, s.graph.Leads u v → v ∈ index :: history) :
    p.readyTime = readyTimeOf (s.place index n).graph p := by
  have hsucc : Keeps Node.successors (s.cleared index n).graph (s.place index n).graph :=
    keeps_foldl_relieve _ _ fun _ _ _ => rfl
  have hclear : Keeps Node.successors s.graph (s.cleared index n).graph :=
    keeps_cleared s index n fun _ _ _ _ => rfl
  obtain ⟨q, hq, hsame⟩ := hsucc.exists_node? hp
  have htime := consistent.readyTime?_place hindex hn u
  rw [if_pos ⟨hlead, (consistent.lastWait_iff hindex hlead).2 hafter⟩] at htime
  simp only [readyTime?, hp, hq, Option.map_some, Option.some.injEq] at htime
  rw [htime]
  symm
  apply readyTimeOf_congr hsame.symm
  intro e he
  have hplaced : e.target ∈ index :: history :=
    hafter _ ((hclear.leads_iff u e.target).1 (leads_of_mem_successors hq he))
  rw [consistent.readyTime?_place hindex hn,
    if_neg fun h => consistent.not_leads_of_mem_cons hindex hplaced h.1]

theorem Prompt.place (prompt : s.Prompt) : (s.place index n).Prompt := by
  intro u hu p hp
  obtain ⟨hsize, hnot, hafter⟩ := (consistent.mem_ready_place_iff hindex hn u).1 hu
  by_cases hlead : s.graph.Leads u index
  · exact consistent.readyTime_place_of_leads hindex hn hp hlead hafter
  -- it was ready before, and neither its own time nor those of its successors change
  have hsucc : Keeps Node.successors s.graph (s.place index n).graph :=
    keeps_place s index n fun _ _ _ _ _ => rfl
  obtain ⟨old, hold, hsame⟩ := hsucc.exists_node? hp
  have hafter (v : Nat) (hv : s.graph.Leads u v) : v ∈ history :=
    (List.mem_cons.1 (hafter v hv)).resolve_left fun h => hlead (h ▸ hv)
  have hready : u ∈ s.ready := (consistent.mem_ready_iff u).2
    ⟨hsize, fun h => hnot (List.mem_cons_of_mem _ h), hafter⟩
  have hne : u ≠ index := fun h => hnot (h ▸ List.mem_cons_self)
  have htime := consistent.readyTime?_place_of_mem_ready hindex hn hready hne
  simp only [readyTime?, hp, hold, Option.map_some, Option.some.injEq] at htime
  rw [htime, prompt u hready old hold]
  symm
  apply readyTimeOf_congr hsame.symm
  intro e he
  exact consistent.readyTime?_place_of_mem_history hindex hn
    (hafter _ (leads_of_mem_successors hold he))

omit hindex in
theorem Consistent.mem_ready_place {u : Nat} (hu : u ∈ s.ready) (hne : u ≠ index) :
    u ∈ (s.place index n).ready := by
  rw [ready_place s index n (consistent.linked.nodup_predecessors hn)]
  exact List.mem_append_left _ (List.mem_filter.2 ⟨hu, by simpa using hne⟩)

end Place

end ScheduleState

def Graph.StartsAt (g : Graph τ) (log : List (ScheduleStep τ)) (i u : Nat) (time : τ) : Prop :=
  ∃ did, log[i]? = some did ∧ g.order[u]? = some did.scheduled ∧ did.time = time

namespace Scheduler

section Log

variable {s : Scheduler τ} {st : ScheduleState τ} {i k : Nat} {did : ScheduleStep τ}
  {next : ScheduleState τ}

theorem steps_succ_of_none (h : s.step? (s.steps i st).2 = none) :
    s.steps (i + 1) st = s.steps i st := by
  induction i generalizing st with
  | zero => simp [steps, show s.step? st = none from h]
  | succ i ih =>
    rw [steps]
    conv_rhs => rw [steps]
    cases hstep : s.step? st with
    | none => rfl
    | some first =>
      simp only [steps, hstep] at h
      simp only [ih h]

theorem steps_succ_of_some (h : s.step? (s.steps i st).2 = some (did, next)) :
    s.steps (i + 1) st = ((s.steps i st).1 ++ [did], next) := by
  induction i generalizing st with
  | zero => simp [steps, show s.step? st = some (did, next) from h]
  | succ i ih =>
    rw [steps]
    conv_rhs => rw [steps]
    cases hstep : s.step? st with
    | none => simp [steps, hstep] at h
    | some first =>
      simp only [steps, hstep] at h
      simp only [ih h, List.cons_append]

theorem exists_step_of_getElem? (h : (s.steps k st).1[i]? = some did) :
    ∃ next, s.step? (s.steps i st).2 = some (did, next) := by
  induction k generalizing st i with
  | zero => simp [steps] at h
  | succ k ih =>
    rw [steps] at h
    cases hstep : s.step? st with
    | none => simp [hstep] at h
    | some first =>
      obtain ⟨entry, second⟩ := first
      simp only [hstep] at h
      cases i with
      | zero =>
        obtain rfl : entry = did := by simpa using h
        exact ⟨second, hstep⟩
      | succ i =>
        have hrest : (s.steps k second).1[i]? = some did := by simpa using h
        obtain ⟨next, hnext⟩ := ih hrest
        exact ⟨next, by simpa [steps, hstep] using hnext⟩

variable (s st) in
theorem prefix_steps (h : i ≤ k) : (s.steps i st).1 <+: (s.steps k st).1 := by
  induction k, h using Nat.le_induction with
  | base => exact List.prefix_rfl
  | succ k _ ih =>
    refine ih.trans ?_
    cases hstep : s.step? (s.steps k st).2 with
    | none => rw [steps_succ_of_none hstep]
    | some first =>
      rw [steps_succ_of_some hstep]
      exact List.prefix_append _ _

theorem length_steps_le (k : Nat) : (s.steps k st).1.length ≤ k := by
  induction k with
  | zero => exact Nat.le_refl 0
  | succ k ih =>
    cases hstep : s.step? (s.steps k st).2 with
    | none =>
      rw [steps_succ_of_none hstep]
      omega
    | some first =>
      rw [steps_succ_of_some hstep, List.length_append, List.length_singleton]
      omega

end Log

structure Logged (s : Scheduler τ) (c : Computation) (sequence : List Nat) (m : Option Module)
    (pressure : Option Pressure) (log : List (ScheduleStep τ)) (st : ScheduleState τ) : Prop
    extends s.Reached c sequence m pressure st where
  prompt : st.Prompt
  placed_eq : st.placed = (log.map (·.scheduled)).reverse
  /-- What is placed has the time at which it started. -/
  started_eq : ∀ did ∈ log, ∀ u, sequence[u]? = some did.scheduled →
    readyTime? st.graph u = some did.time

variable {s : Scheduler τ} {c : Computation} {sequence : List Nat} {m : Option Module}
  {pressure : Option Pressure} {st : ScheduleState τ} {log : List (ScheduleStep τ)}

theorem logged_start (hc : c.Wired) (hstart : s.start c sequence m pressure = .ok st) :
    s.Logged c sequence m pressure [] st := by
  refine ⟨reached_start hc hstart, ?_, ?_, List.forall_mem_nil _⟩
  · obtain ⟨g, hg, rfl⟩ := (start_eq_ok_iff s c sequence m pressure st).1 hstart
    intro u hu n hn
    have hlast : n.successors = [] := by simpa [hn] using (List.mem_filter.1 hu).2
    rw [Graph.readyTime_of_build hc hg hn, readyTimeOf, hlast]
    rfl
  · exact (start_ok hstart).2.2

theorem Logged.step (h : s.Logged c sequence m pressure log st) (hc : c.Wired)
    {did : ScheduleStep τ} {next : ScheduleState τ} (hstep : s.step? st = some (did, next)) :
    s.Logged c sequence m pressure (log ++ [did]) next := by
  obtain ⟨index, hindex, n, reason, hn, _, rfl, rfl⟩ := step?_best s hstep
  obtain ⟨history, consistent⟩ := h.consistent
  obtain ⟨admits, horder, _⟩ := h.represents hc
  have nodup : st.graph.order.Nodup := horder ▸ admits.nodup
  refine ⟨h.toReached.place hc hindex hn, Prompt.place consistent hindex hn h.prompt, ?_, ?_⟩
  · rw [placed_place, h.placed_eq]
    simp
  · intro entry hentry u hu
    rw [← horder] at hu
    rcases List.mem_append.1 hentry with hbefore | hnow
    · -- the node of an older entry is placed, and nothing placed gets a new time
      have hplaced : entry.scheduled ∈ st.placed := by
        rw [h.placed_eq, List.mem_reverse]
        exact List.mem_map_of_mem hbefore
      rw [consistent.readyTime?_place_of_mem_history hindex hn
        ((consistent.mem_placed_iff nodup hu).1 hplaced)]
      exact h.started_eq entry hbefore u (horder ▸ hu)
    · obtain rfl := List.mem_singleton.1 hnow
      obtain rfl : u = index := Graph.idAt_inj nodup (Graph.lt_size_of_getElem? hu)
        ((Graph.lt_size_iff st.graph index).2 ⟨n, hn⟩)
        ((Graph.idAt_of_getElem? hu).trans (Graph.idAt_eq hn).symm)
      exact consistent.readyTime?_place_self hindex hn

theorem logged_steps (hc : c.Wired) (hstart : s.start c sequence m pressure = .ok st) (k : Nat) :
    s.Logged c sequence m pressure (s.steps k st).1 (s.steps k st).2 := by
  induction k with
  | zero => exact logged_start hc hstart
  | succ k ih =>
    cases hstep : s.step? (s.steps k st).2 with
    | none =>
      rw [steps_succ_of_none hstep]
      exact ih
    | some first =>
      rw [steps_succ_of_some hstep]
      exact ih.step hc hstep

theorem ready_eq_nil_or_length_steps (hc : c.Wired)
    (hstart : s.start c sequence m pressure = .ok st) (k : Nat) :
    (s.steps k st).2.ready = [] ∨ (s.steps k st).1.length = k := by
  obtain ⟨history, consistent⟩ := (reached_start hc hstart).consistent
  refine (steps_progress s k consistent).imp id ?_
  intro hlength
  rwa [(logged_steps hc hstart k).placed_eq, (start_ok hstart).2.2, List.length_reverse,
    List.length_map, List.length_nil, Nat.zero_add] at hlength

theorem readyTime?_steps_of_mem_ready (hc : c.Wired)
    (hstart : s.start c sequence m pressure = .ok st) {i j u : Nat} (hij : i ≤ j)
    (hu : u ∈ (s.steps i st).2.ready) (hmark : ¬ (s.steps j st).2.Marked u) :
    u ∈ (s.steps j st).2.ready ∧
      readyTime? (s.steps j st).2.graph u = readyTime? (s.steps i st).2.graph u := by
  induction j, hij using Nat.le_induction with
  | base => exact ⟨hu, rfl⟩
  | succ j _ ih =>
    cases hstep : s.step? (s.steps j st).2 with
    | none =>
      rw [steps_succ_of_none hstep] at hmark ⊢
      exact ih hmark
    | some first =>
      obtain ⟨did, next⟩ := first
      rw [steps_succ_of_some hstep] at hmark ⊢
      obtain ⟨index, hindex, n, hn, rfl⟩ := step?_eq_some s hstep
      obtain ⟨history, consistent⟩ := (logged_steps hc hstart j).consistent
      rw [(consistent.place hindex hn).marked_iff, List.mem_cons, not_or] at hmark
      obtain ⟨hready, htime⟩ := ih (by rw [consistent.marked_iff]; exact hmark.2)
      exact ⟨consistent.mem_ready_place hn hready hmark.1,
        (consistent.readyTime?_place_of_mem_ready hindex hn hready hmark.1).trans htime⟩

theorem Reached.exists_node_of_start (h : s.Reached c sequence m pressure st)
    {first : ScheduleState τ} (hstart : s.start c sequence m pressure = .ok first) {u : Nat}
    {n : Node τ} (hn : st.graph.node? u = some n) :
    ∃ old, first.graph.node? u = some old ∧ old.essence = n.essence := by
  obtain ⟨g, hg, hkeeps⟩ := h.graph
  obtain ⟨g', hg', rfl⟩ := (start_eq_ok_iff s c sequence m pressure first).1 hstart
  obtain rfl : g = g' := Except.ok.inj (hg.symm.trans hg')
  exact hkeeps.exists_node? hn

theorem Reached.exists_placed_of_mem_ready (h : s.Reached c sequence m pressure st) (hc : c.Wired)
    {u : Nat} (hu : u ∈ st.ready) {n : Node τ} (hn : st.graph.node? u = some n) {e : Edge τ}
    (he : e ∈ n.successors) : ∃ b, sequence[e.target]? = some b ∧ b ∈ st.placed := by
  obtain ⟨history, consistent⟩ := h.consistent
  obtain ⟨admits, horder, _⟩ := h.represents hc
  have hmem : e.target ∈ history :=
    ((consistent.mem_ready_iff u).1 hu).2.2 _ (Graph.leads_of_mem_successors hn he)
  have hid := Graph.getElem?_order st.graph (consistent.lt_size _ hmem)
  refine ⟨_, horder ▸ hid, ?_⟩
  exact (consistent.mem_placed_iff (horder ▸ admits.nodup) hid).2 hmem

section Starts

variable (hc : c.Wired) (hstart : s.start c sequence m pressure = .ok st) {i k u : Nat}

section Entry

variable {start : τ} (h : st.graph.StartsAt (s.steps k st).1 i u start)

include h

theorem lt_of_startsAt : i < k := by
  obtain ⟨did, hdid, _⟩ := h
  exact Nat.lt_of_lt_of_le (List.getElem?_eq_some_iff.1 hdid).choose (length_steps_le k)

include hc hstart

theorem readyTime?_of_startsAt {j : Nat} (hij : i < j) :
    readyTime? (s.steps j st).2.graph u = some start := by
  obtain ⟨did, hdid, hu, rfl⟩ := h
  obtain ⟨next, hstep⟩ := exists_step_of_getElem? hdid
  have hmem : did ∈ (s.steps (i + 1) st).1 := by
    rw [steps_succ_of_some hstep]
    exact List.mem_append_right _ List.mem_cons_self
  rw [((reached_start hc hstart).represents hc).2.1] at hu
  exact (logged_steps hc hstart j).started_eq did ((prefix_steps s st hij).subset hmem) u hu

theorem exists_place_of_startsAt {n : Node τ} (hn : st.graph.node? u = some n) :
    ∃ p, u ∈ (s.steps i st).2.ready ∧ (s.steps i st).2.graph.node? u = some p ∧
      p.essence = n.essence ∧ (s.steps i st).2.placingTime p = start ∧
      (s.steps (i + 1) st).2 = (s.steps i st).2.place u p := by
  obtain ⟨did, hdid, hu, rfl⟩ := h
  obtain ⟨next, hstep⟩ := exists_step_of_getElem? hdid
  have hnext : (s.steps (i + 1) st).2 = next := by rw [steps_succ_of_some hstep]
  obtain ⟨index, hindex, p, reason, hp, _, rfl, rfl⟩ := step?_best s hstep
  have reached := (logged_steps hc hstart i).toReached
  obtain ⟨old, hold, hsame⟩ := reached.exists_node_of_start hstart hp
  obtain ⟨admits, horder, _⟩ := (reached_start hc hstart).represents hc
  have hid : p.instr.id = old.instr.id :=
    (Node.eq_of_essence hsame (·.instr.id) fun _ => rfl).symm
  obtain rfl : u = index := Graph.idAt_inj (horder ▸ admits.nodup) (Graph.lt_size_of_getElem? hu)
    ((Graph.lt_size_iff st.graph index).2 ⟨old, hold⟩)
    (((Graph.idAt_of_getElem? hu).trans hid).trans (Graph.idAt_eq hold).symm)
  obtain rfl : old = n := Option.some.inj (hold.symm.trans hn)
  exact ⟨p, hindex, hp, hsame.symm, rfl, hnext⟩

end Entry

variable {b : Nat} (hik : i ≤ k) (hu : sequence[u]? = some b) (hb : b ∈ (s.steps i st).2.placed)

include hc hstart hik hu hb

theorem exists_startsAt_of_mem_placed : ∃ j < i, ∃ start,
    st.graph.StartsAt (s.steps k st).1 j u start := by
  have horder := ((reached_start hc hstart).represents hc).2.1
  rw [(logged_steps hc hstart i).placed_eq, List.mem_reverse] at hb
  obtain ⟨did, hdid, rfl⟩ := List.mem_map.1 hb
  obtain ⟨j, hj⟩ := List.mem_iff_getElem?.1 hdid
  have hlt : j < (s.steps i st).1.length := (List.getElem?_eq_some_iff.1 hj).choose
  obtain ⟨later, hlater⟩ := prefix_steps s st hik
  refine ⟨j, Nat.lt_of_lt_of_le hlt (length_steps_le i), did.time, did, ?_, horder ▸ hu, rfl⟩
  rw [← hlater, List.getElem?_append_left hlt, hj]

theorem exists_startsAt_iff (start : τ) : (∃ j, st.graph.StartsAt (s.steps k st).1 j u start) ↔
    readyTime? (s.steps i st).2.graph u = some start := by
  obtain ⟨j, hji, known, hknown⟩ := exists_startsAt_of_mem_placed hc hstart hik hu hb
  have htime := readyTime?_of_startsAt hc hstart hknown hji
  constructor
  · rintro ⟨j', h⟩
    -- the last state has one time for the node, whichever entry it is read from
    have hlast := readyTime?_of_startsAt hc hstart h (lt_of_startsAt h)
    rw [readyTime?_of_startsAt hc hstart hknown (lt_of_startsAt hknown)] at hlast
    rw [htime, hlast]
  · intro h
    obtain rfl : known = start := Option.some.inj (htime.symm.trans h)
    exact ⟨j, hknown⟩

end Starts

end Scheduler

theorem ScheduleState.Prompt.isGreatest_placingTime {st : ScheduleState Rat} (prompt : st.Prompt)
    {u : Nat} (hu : u ∈ st.ready) {n : Node Rat} (hn : st.graph.node? u = some n) :
    IsGreatest ({st.time, 0} ∪ {t | ∃ e ∈ n.successors, ∃ start,
      readyTime? st.graph e.target = some start ∧ t = start + e.latency}) (st.placingTime n) := by
  -- the bound that a successor sets is in the list of times just if it has a time
  have hbounds : ({st.time, 0} ∪ {t | ∃ e ∈ n.successors, ∃ start,
      readyTime? st.graph e.target = some start ∧ t = start + e.latency} : Set Rat) =
      {st.time} ∪ {t | t ∈ zero :: n.successors.filterMap fun e =>
        (st.graph.node? e.target).map fun p => p.readyTime + e.latency} := by
    ext t
    rw [Set.insert_eq, Set.union_assoc]
    simp only [Set.mem_union, Set.mem_singleton_iff, Set.mem_ofPred_eq, List.mem_cons,
      List.mem_filterMap, readyTime?, Option.map_eq_some_iff]
    apply or_congr_right
    apply or_congr Iff.rfl
    constructor
    · rintro ⟨e, he, _, ⟨p, hp, rfl⟩, rfl⟩
      exact ⟨e, he, p, hp, rfl⟩
    · rintro ⟨e, he, p, hp, rfl⟩
      exact ⟨e, he, _, ⟨p, hp, rfl⟩, rfl⟩
  rw [hbounds, placingTime, later_eq_max, prompt u hu n hn]
  exact isGreatest_singleton.union (isGreatest_latest zero _)

namespace Scheduler

variable {c : Computation} {sequence : List Nat} {m : Option Module} {pressure : Option Pressure}
  {st : ScheduleState Rat}

/-- Each step of a run, until nothing is ready, places one more node. Every node starts as early as
the clock, zero and the starts of its successors allow. The clock then goes on by its cost. From
getting ready to being placed a node keeps the time at which it is ready, and from then on the time
at which it has started. -/
theorem starts_respect_latencies (s : Scheduler Rat) (hc : c.Built)
    (hstart : s.start c sequence m pressure = .ok st) (k : Nat) :
    (s.steps k st).2.placed = ((s.steps k st).1.map (·.scheduled)).reverse ∧
    ((s.steps k st).2.ready = [] ∨ (s.steps k st).1.length = k) ∧
    (∀ i u n start, st.graph.node? u = some n →
      st.graph.StartsAt (s.steps k st).1 i u start →
      (∀ e ∈ n.successors, ∃ j < i, ∃ t, st.graph.StartsAt (s.steps k st).1 j e.target t) ∧
      IsGreatest ({(s.steps i st).2.time, 0} ∪ {t | ∃ e ∈ n.successors, ∃ j before,
        st.graph.StartsAt (s.steps k st).1 j e.target before ∧ t = before + e.latency}) start ∧
      (s.steps (i + 1) st).2.time = start + n.cost ∧
      ∀ j > i, readyTime? (s.steps j st).2.graph u = some start) ∧
    ∀ i j u, i ≤ j → u ∈ (s.steps i st).2.ready → ¬ (s.steps j st).2.Marked u →
      u ∈ (s.steps j st).2.ready ∧
        readyTime? (s.steps j st).2.graph u = readyTime? (s.steps i st).2.graph u := by
  refine ⟨(logged_steps hc.wired hstart k).placed_eq,
    ready_eq_nil_or_length_steps hc.wired hstart k, ?_,
    fun i j u hij hu hmark => readyTime?_steps_of_mem_ready hc.wired hstart hij hu hmark⟩
  intro i u n start hn h
  have hik : i ≤ k := (lt_of_startsAt h).le
  have logged := logged_steps hc.wired hstart i
  obtain ⟨p, hready, hp, hsame, hplacing, hnext⟩ := exists_place_of_startsAt hc.wired hstart h hn
  have hsucc : p.successors = n.successors := Node.eq_of_essence hsame (·.successors) fun _ => rfl
  have hcost : p.cost = n.cost := Node.eq_of_essence hsame (·.cost) fun _ => rfl
  have hplaced (e : Edge Rat) (he : e ∈ n.successors) :=
    logged.toReached.exists_placed_of_mem_ready hc.wired hready hp (hsucc ▸ he)
  refine ⟨?_, ?_, ?_, fun j hij => readyTime?_of_startsAt hc.wired hstart h hij⟩
  · intro e he
    obtain ⟨b, hb, hmem⟩ := hplaced e he
    exact exists_startsAt_of_mem_placed hc.wired hstart hik hb hmem
  · have hgreatest := logged.prompt.isGreatest_placingTime hready hp
    rw [hplacing, hsucc] at hgreatest
    have hbounds : {t | ∃ e ∈ n.successors, ∃ j before,
        st.graph.StartsAt (s.steps k st).1 j e.target before ∧ t = before + e.latency} =
        {t | ∃ e ∈ n.successors, ∃ before,
          readyTime? (s.steps i st).2.graph e.target = some before ∧ t = before + e.latency} := by
      ext t
      apply exists_congr
      intro e
      apply and_congr_right
      intro he
      obtain ⟨b, hb, hmem⟩ := hplaced e he
      rw [exists_comm]
      simp only [exists_and_right, exists_startsAt_iff hc.wired hstart hik hb hmem]
    rwa [hbounds]
  · obtain ⟨graph, ready, hrest⟩ := place_rest (s.steps i st).2 u p
    rw [hnext, hrest, hplacing, hcost]

/-- The start of the reduction waits for its done, and the parameter still longer for the tuple that
it is held up by. -/
theorem starts_respect_latencies_heldParameter :
    ∃ st n, (demanding [⟨0, 4, 6000⟩]).start reduction [0, 1, 2, 3, 4] none none = .ok st ∧
      st.graph.node? 0 = some n ∧
      (((demanding [⟨0, 4, 6000⟩]).steps 5 st).1.map fun did => (did.scheduled, did.time)) =
        [(4, 0), (2, 1), (3, 2), (1, 5001), (0, 6000)] ∧
      ((demanding [⟨0, 4, 6000⟩]).steps 4 st).2.time = 5002 ∧
      IsGreatest ({((demanding [⟨0, 4, 6000⟩]).steps 4 st).2.time, 0} ∪
        {t | ∃ e ∈ n.successors, ∃ j before, st.graph.StartsAt
          ((demanding [⟨0, 4, 6000⟩]).steps 5 st).1 j e.target before ∧
            t = before + e.latency}) 6000 := by
  have hbuilt : reduction.Built := Computation.built_foldl_grown (.empty "c" false) _ rfl
  have hrun : ((demanding [⟨0, 4, 6000⟩]).start reduction [0, 1, 2, 3, 4] none none).toOption.map
      (fun st => ((((demanding [⟨0, 4, 6000⟩]).steps 5 st).1.map fun did =>
        (did.scheduled, did.time)), ((demanding [⟨0, 4, 6000⟩]).steps 4 st).2.time)) =
      some ([(4, 0), (2, 1), (3, 2), (1, 5001), (0, 6000)], 5002) := by
    decide +kernel
  cases hstart : (demanding [⟨0, 4, 6000⟩]).start reduction [0, 1, 2, 3, 4] none none with
  | error fault =>
    rw [hstart] at hrun
    cases hrun
  | ok st =>
    rw [hstart] at hrun
    obtain ⟨hlog, htime⟩ := Prod.mk.inj (Option.some.inj hrun)
    have horder := ((reached_start hbuilt.wired hstart).represents hbuilt.wired).2.1
    obtain ⟨n, hn, _⟩ := (Graph.getElem?_order_eq_some_iff st.graph 0 0).1 (by rw [horder]; rfl)
    have hentry : (((demanding [⟨0, 4, 6000⟩]).steps 5 st).1.map fun did =>
        (did.scheduled, did.time))[4]? = some (0, 6000) := by rw [hlog]; rfl
    rw [List.getElem?_map, Option.map_eq_some_iff] at hentry
    obtain ⟨did, hdid, hsame⟩ := hentry
    obtain ⟨hscheduled, hstarted⟩ := Prod.mk.inj hsame
    obtain ⟨_, _, hstarts, _⟩ := starts_respect_latencies _ hbuilt hstart 5
    obtain ⟨_, hgreatest, _⟩ := hstarts 4 0 n 6000 hn
      ⟨did, hdid, by rw [horder, hscheduled]; rfl, hstarted⟩
    exact ⟨st, n, rfl, hn, hlog, htime, hgreatest⟩

end Scheduler

end LatencyHiding
