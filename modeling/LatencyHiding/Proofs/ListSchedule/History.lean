import LatencyHiding.Proofs.Buffer.Walk
import LatencyHiding.Proofs.Dependence.Content
import LatencyHiding.Proofs.ListSchedule.Completion

set_option autoImplicit false

namespace LatencyHiding

variable {τ : Type}

def Node.essence [TimeScale τ] (n : Node τ) : Node τ :=
  { n with readyTime := TimeScale.zero, indegree := 0, outdegree := 0, scheduled := false }

theorem Node.eq_of_essence {β : Type} [TimeScale τ] {m n : Node τ} (h : m.essence = n.essence)
    (view : Node τ → β) (hview : ∀ n : Node τ, view n.essence = view n) : view m = view n := by
  rw [← hview m, h, hview n]

theorem Graph.Keeps.of_essence {β : Type} [TimeScale τ] {g h : Graph τ}
    (hgh : Graph.Keeps Node.essence g h) (view : Node τ → β)
    (hview : ∀ n : Node τ, view n.essence = view n) : Graph.Keeps view g h :=
  hgh.map view fun _ _ hsame => Node.eq_of_essence hsame view hview

def Computation.usesOf (c : Computation) (tracker : AsyncTracker τ) (id : Nat) :
    List (Resource × Usage) :=
  ((c.instruction? id).map fun p => tracker.uses p.toInstruction).getD []

namespace ScheduleState

def inFlightAfter (uses : Nat → List (Resource × Usage)) (placed : List Nat) :
    KeyedList Resource Nat :=
  placed.foldr (fun id inFlight => (uses id).foldl countUse inFlight) .empty

def initialMemory (c : Computation) (pressure : Option Pressure) : LiveSet :=
  (LiveSet.ofComputation c ((pressure.map (·.sizing)).getD Shape.byteSize) pressure).restart
    (((pressure.bind (·.state? c.name)).map (·.liveAtBottom)).getD []) 0

theorem computation_initialMemory (c : Computation) (pressure : Option Pressure) :
    (initialMemory c pressure).computation = c :=
  LiveSet.computation_restart _ _ _

section Ids

variable {s : ScheduleState τ} {history : List Nat}

theorem Consistent.mem_placed_iff (consistent : s.Consistent history) (nodup : s.graph.order.Nodup)
    {u a : Nat} (hu : s.graph.order[u]? = some a) : a ∈ s.placed ↔ u ∈ history := by
  rw [consistent.placed_eq, List.mem_map]
  constructor
  · rintro ⟨v, hv, hsame⟩
    rw [← Graph.idAt_of_getElem? hu] at hsame
    have := Graph.idAt_inj nodup (consistent.lt_size v hv) (Graph.lt_size_of_getElem? hu) hsame
    rwa [← this]
  · intro hmem
    exact ⟨u, hmem, Graph.idAt_of_getElem? hu⟩

theorem Consistent.nodup_placed (consistent : s.Consistent history)
    (nodup : s.graph.order.Nodup) : s.placed.Nodup := by
  rw [consistent.placed_eq]
  apply consistent.nodup.map_on
  intro u hu v hv
  exact Graph.idAt_inj nodup (consistent.lt_size u hu) (consistent.lt_size v hv)

end Ids

variable [TimeScale τ]

theorem place_rest (s : ScheduleState τ) (index : Nat) (n : Node τ) : ∃ graph ready,
    s.place index n = { s with
      graph
      ready
      time := s.placingTime n + n.cost
      placed := n.instr.id :: s.placed
      inFlight := n.uses.foldl countUse s.inFlight
      memory := s.memory.update n.instr } := by
  obtain ⟨graph, ready, hrelieve⟩ :=
    foldl_relieve_eq (n.predecessors.map (·.target)) (s.cleared index n)
  exact ⟨graph, ready, (place_eq s index n).trans hrelieve⟩

/-- A state that placing ready nodes comes to from the graph `g`. -/
structure Descends (g : Graph τ) (c : Computation) (tracker : AsyncTracker τ) (m : Option Module)
    (pressure : Option Pressure) (st : ScheduleState τ) : Prop where
  consistent : ∃ history, st.Consistent history
  keeps : Graph.Keeps Node.essence g st.graph
  module_eq : st.module = m
  inFlight_eq : st.inFlight = inFlightAfter (c.usesOf tracker) st.placed
  memory_eq : st.memory = (initialMemory c pressure).walk st.placed

section Descends

variable {c : Computation} {sequence : List Nat} {latency : Node τ → Node τ → τ}
  {estimator : Estimator τ} {tracker : AsyncTracker τ} {g : Graph τ} {m : Option Module}
  {pressure : Option Pressure} {st : ScheduleState τ} (hc : c.Wired)
  (hbuild : Graph.buildWith latency c sequence estimator tracker = .ok g)

include hc hbuild

theorem descends_of_build (limits : List (Resource × UInt32)) : Descends g c tracker m pressure {
    graph := g
    ready := g.bottom
    limits
    time := TimeScale.zero
    memory := initialMemory c pressure
    module := m } :=
  ⟨⟨[], consistent_of_fresh (Graph.build_ok hc hbuild).2.fresh rfl rfl⟩, Graph.Keeps.refl _ g, rfl,
    rfl, rfl⟩

namespace Descends

variable (h : Descends g c tracker m pressure st) {u : Nat} {n : Node τ}
  (hn : st.graph.node? u = some n)

include h hn

theorem label : c.instruction? n.instr.id = some n.instr ∧
    n.label = (Graph.makeNode estimator tracker n.instr u).label := by
  obtain ⟨old, hold, hsame⟩ := h.keeps.exists_node? hn
  have hlabel := Node.eq_of_essence hsame Node.label fun _ => rfl
  have hinstr := Node.eq_of_essence hsame (·.instr) fun _ => rfl
  obtain ⟨hknown, hmade⟩ := Graph.label_of_build hc hbuild hold
  rw [hinstr] at hknown hmade
  exact ⟨hknown, hlabel ▸ hmade⟩

theorem uses_eq : n.uses = c.usesOf tracker n.instr.id := by
  obtain ⟨hknown, hlabel⟩ := label hc hbuild h hn
  rw [Computation.usesOf, hknown]
  exact congrArg (fun label => label.2.2.2) hlabel

theorem place (hindex : u ∈ st.ready) : Descends g c tracker m pressure (st.place u n) := by
  obtain ⟨history, consistent⟩ := h.consistent
  have huses := uses_eq hc hbuild h hn
  have hknown := (label hc hbuild h hn).1
  obtain ⟨graph, ready, hplace⟩ := place_rest st u n
  refine ⟨⟨_, consistent.place hindex hn⟩, h.keeps.trans (keeps_place st u n
    fun _ _ _ _ _ => rfl), ?_, ?_, ?_⟩
  · rw [hplace]
    exact h.module_eq
  · rw [hplace]
    change n.uses.foldl countUse st.inFlight = _
    rw [h.inFlight_eq, huses]
    rfl
  · rw [hplace]
    change st.memory.update n.instr = _
    rw [LiveSet.walk_cons (by rwa [computation_initialMemory]), ← h.memory_eq]

end Descends

end Descends

end ScheduleState

namespace Scheduler

open ScheduleState

variable [TimeScale τ]

structure Reached (s : Scheduler τ) (c : Computation) (sequence : List Nat) (m : Option Module)
    (pressure : Option Pressure) (st : ScheduleState τ) : Prop where
  descends : ∃ g, Graph.build c sequence s.estimator s.tracker = .ok g ∧
    Descends g c s.tracker m pressure st
  limits_eq : st.limits = s.tracker.limits

theorem start_eq_ok_iff (s : Scheduler τ) (c : Computation) (sequence : List Nat)
    (m : Option Module) (pressure : Option Pressure) (st : ScheduleState τ) :
    s.start c sequence m pressure = .ok st ↔
      ∃ g, Graph.build c sequence s.estimator s.tracker = .ok g ∧ st = {
        graph := g
        ready := g.bottom
        limits := s.tracker.limits
        time := TimeScale.zero
        memory := initialMemory c pressure
        module := m } := by
  unfold start
  rw [bind_pure_eq_ok_iff]
  rfl

variable {s : Scheduler τ} {c : Computation} {sequence : List Nat} {m : Option Module}
  {pressure : Option Pressure} {st : ScheduleState τ}

theorem reached_start (hc : c.Wired) (hstart : s.start c sequence m pressure = .ok st) :
    s.Reached c sequence m pressure st := by
  obtain ⟨g, hg, rfl⟩ := (start_eq_ok_iff s c sequence m pressure st).1 hstart
  exact ⟨⟨g, hg, descends_of_build hc hg _⟩, rfl⟩

namespace Reached

theorem consistent (h : s.Reached c sequence m pressure st) : ∃ history, st.Consistent history :=
  h.descends.choose_spec.2.consistent

theorem graph (h : s.Reached c sequence m pressure st) :
    ∃ g, Graph.build c sequence s.estimator s.tracker = .ok g ∧
      Graph.Keeps Node.essence g st.graph := by
  obtain ⟨g, hg, descends⟩ := h.descends
  exact ⟨g, hg, descends.keeps⟩

theorem module_eq (h : s.Reached c sequence m pressure st) : st.module = m :=
  h.descends.choose_spec.2.module_eq

theorem inFlight_eq (h : s.Reached c sequence m pressure st) :
    st.inFlight = inFlightAfter (c.usesOf s.tracker) st.placed :=
  h.descends.choose_spec.2.inFlight_eq

theorem memory_eq (h : s.Reached c sequence m pressure st) :
    st.memory = (initialMemory c pressure).walk st.placed :=
  h.descends.choose_spec.2.memory_eq

theorem label (h : s.Reached c sequence m pressure st) (hc : c.Wired) {u : Nat} {n : Node τ}
    (hn : st.graph.node? u = some n) : c.instruction? n.instr.id = some n.instr ∧
      n.label = (Graph.makeNode s.estimator s.tracker n.instr u).label := by
  obtain ⟨g, hg, descends⟩ := h.descends
  exact Descends.label hc hg descends hn

theorem uses_eq (h : s.Reached c sequence m pressure st) (hc : c.Wired) {u : Nat} {n : Node τ}
    (hn : st.graph.node? u = some n) : n.uses = c.usesOf s.tracker n.instr.id := by
  obtain ⟨g, hg, descends⟩ := h.descends
  exact Descends.uses_eq hc hg descends hn

theorem place (h : s.Reached c sequence m pressure st) (hc : c.Wired) {index : Nat} {n : Node τ}
    (hindex : index ∈ st.ready) (hn : st.graph.node? index = some n) :
    s.Reached c sequence m pressure (st.place index n) := by
  obtain ⟨g, hg, descends⟩ := h.descends
  refine ⟨⟨g, hg, Descends.place hc hg descends hn hindex⟩, ?_⟩
  obtain ⟨graph, ready, hplace⟩ := place_rest st index n
  rw [hplace]
  exact h.limits_eq

theorem represents (h : s.Reached c sequence m pressure st) (hc : c.Wired) : c.Admits sequence ∧
    st.graph.order = sequence ∧ ∀ u v, st.graph.Leads u v ↔ ∃ a b : Nat, sequence[u]? = some a ∧
      sequence[v]? = some b ∧ s.tracker.Orders c a b := by
  obtain ⟨g, hg, hkeeps⟩ := h.graph
  obtain ⟨admits, represents⟩ := Graph.build_ok hc hg
  have hsite : Graph.Keeps Node.toSite g st.graph := hkeeps.of_essence Node.toSite fun _ => rfl
  have hsucc : Graph.Keeps Node.successors g st.graph :=
    hkeeps.of_essence Node.successors fun _ => rfl
  refine ⟨admits, hsite.order_eq.trans represents.order_eq, ?_⟩
  intro u v
  rw [hsucc.leads_iff, represents.leads_iff]

theorem mem_ready_iff (h : s.Reached c sequence m pressure st) (hc : c.Wired) {u a : Nat}
    (hu : sequence[u]? = some a) : u ∈ st.ready ↔ a ∉ st.placed ∧
      ∀ b ∈ sequence, s.tracker.Orders c a b → b ∈ st.placed := by
  obtain ⟨history, consistent⟩ := h.consistent
  obtain ⟨admits, horder, hleads⟩ := h.represents hc
  rw [← horder] at hu
  have nodup : st.graph.order.Nodup := horder ▸ admits.nodup
  rw [consistent.mem_ready_iff, consistent.mem_placed_iff nodup hu]
  simp only [Graph.lt_size_of_getElem? hu, true_and]
  apply and_congr_right
  intro _
  constructor
  · intro hafter b hb horders
    rw [← horder] at hb
    obtain ⟨v, hv⟩ := List.mem_iff_getElem?.1 hb
    exact (consistent.mem_placed_iff nodup hv).2
      (hafter v ((hleads u v).2 ⟨a, b, horder ▸ hu, horder ▸ hv, horders⟩))
  · intro hafter v hlead
    obtain ⟨a', b, hu', hv, horders⟩ := (hleads u v).1 hlead
    rw [horder] at hu
    obtain rfl : a = a' := Option.some.inj (hu.symm.trans hu')
    exact (consistent.mem_placed_iff nodup (horder ▸ hv)).1
      (hafter b (List.mem_of_getElem? hv) horders)

theorem nodup_placed (h : s.Reached c sequence m pressure st) (hc : c.Wired) : st.placed.Nodup := by
  obtain ⟨history, consistent⟩ := h.consistent
  obtain ⟨admits, horder, _⟩ := h.represents hc
  exact consistent.nodup_placed (horder ▸ admits.nodup)

theorem grounded (h : s.Reached c sequence m pressure st) (hc : c.Wired) :
    Grounded (s.Precedes c sequence) st.placed := by
  obtain ⟨history, consistent⟩ := h.consistent
  obtain ⟨_, horder, hleads⟩ := h.represents hc
  rw [consistent.placed_eq]
  apply consistent.grounded.map
  rintro u hu b ⟨_, hb, horders⟩
  obtain ⟨v, hv⟩ := List.mem_iff_getElem?.1 hb
  have hu := Graph.getElem?_order st.graph (consistent.lt_size u hu)
  rw [horder] at hu
  exact ⟨v, (hleads u v).2 ⟨_, b, hu, hv, horders⟩, Graph.idAt_of_getElem? (horder ▸ hv)⟩

end Reached

section Order

variable (hc : c.Wired) (horder : c.IsOrder sequence) (free : ∀ c, s.tracker.demands c = [])

include hc horder free

omit [TimeScale τ] in
theorem precedes_iff_needs (a b : Nat) : s.Precedes c sequence a b ↔ c.Needs b a := by
  unfold Precedes AsyncTracker.Orders
  rw [free, horder.mem_iff, horder.mem_iff]
  constructor
  · rintro ⟨_, _, hneeds | ⟨d, hd, _⟩⟩
    · exact hneeds
    · cases hd
  · intro hneeds
    exact ⟨Nat.lt_trans (hneeds.lt hc) hneeds.lt_size, hneeds.lt_size, Or.inl hneeds⟩

omit [TimeScale τ] in
theorem precedes_eq_needs : s.Precedes c sequence = fun a b => c.Needs b a := by
  funext a b
  exact propext (precedes_iff_needs hc horder free a b)

theorem Reached.grounded_needs (h : s.Reached c sequence m pressure st) :
    Grounded (fun a b => c.Needs b a) st.placed := by
  rw [← precedes_eq_needs hc horder free]
  exact h.grounded hc

theorem Reached.mem_ready_iff_needs (h : s.Reached c sequence m pressure st) {u : Nat} {n : Node τ}
    (hn : st.graph.node? u = some n) : u ∈ st.ready ↔
      n.instr.id ∉ st.placed ∧ ∀ b, c.Needs b n.instr.id → b ∈ st.placed := by
  have hid : sequence[u]? = some n.instr.id := by
    rw [← (h.represents hc).2.1]
    exact (Graph.getElem?_order_eq_some_iff _ _ _).2 ⟨n, hn, rfl⟩
  rw [h.mem_ready_iff hc hid]
  apply and_congr_right
  intro _
  constructor
  · intro hafter b hneeds
    exact hafter b ((horder.mem_iff b).2 hneeds.lt_size) (Or.inl hneeds)
  · intro hafter b hb horders
    exact hafter b ((precedes_iff_needs hc horder free _ b).1
      ⟨List.mem_of_getElem? hid, hb, horders⟩)

omit [TimeScale τ] in
theorem not_transGen_precedes (a : Nat) : ¬ Relation.TransGen (s.Precedes c sequence) a a := by
  have hlt (a b : Nat) (hab : s.Precedes c sequence a b) : a < b :=
    ((precedes_iff_needs hc horder free a b).1 hab).lt hc
  have hchain {b : Nat} (h : Relation.TransGen (s.Precedes c sequence) a b) : a < b := by
    induction h with
    | single hab => exact hlt _ _ hab
    | tail _ hbd ih => exact Nat.lt_trans ih (hlt _ _ hbd)
  exact fun hcycle => Nat.lt_irrefl a (hchain hcycle)

theorem perm_drain (hstart : s.start c sequence m pressure = .ok st) :
    (s.drain st).placed.Perm sequence := by
  obtain ⟨_, _, _, hplaced⟩ := drain_spec hc hstart
  apply hplaced.perm_of_length_eq
  exact (hplaced.length_eq_iff horder.nodup fun _ _ h => h.1).2
    (not_transGen_precedes hc horder free)

theorem schedule_of_start (hstart : s.start c sequence m pressure = .ok st) :
    s.schedule c sequence m pressure =
      .ok { sequence := (s.drain st).placed, memory := (s.drain st).memory.state } := by
  obtain ⟨_, _, hsize, _⟩ := drain_spec hc hstart
  refine (schedule_eq_ok_iff _ _ _ _ _ _).2 ⟨st, hstart, (finish_eq_ok_iff _ _).2 ⟨?_, rfl⟩⟩
  rw [hsize, (perm_drain hc horder free hstart).length_eq]

end Order

theorem exists_start_of_isOrder (s : Scheduler τ) (hc : c.Wired) (horder : c.IsOrder sequence)
    (m : Option Module) (pressure : Option Pressure) :
    ∃ st, s.start c sequence m pressure = .ok st :=
  exists_start s hc (horder.admits hc) m pressure

theorem Reached.steps (h : s.Reached c sequence m pressure st) (hc : c.Wired) (k : Nat) :
    s.Reached c sequence m pressure (s.steps k st).2 :=
  steps_invariant s (fun _ _ _ h hindex hn => h.place hc hindex hn) k h

end Scheduler

end LatencyHiding
