import LatencyHiding.Proofs.ListSchedule.Progress

set_option autoImplicit false

namespace LatencyHiding

open Relation

namespace Scheduler

variable {τ : Type}

def Precedes (s : Scheduler τ) (c : Computation) (sequence : List Nat) (a b : Nat) : Prop :=
  a ∈ sequence ∧ b ∈ sequence ∧ s.tracker.Orders c a b

variable {s : Scheduler τ} {c : Computation} {sequence : List Nat} {st : ScheduleState τ}
  {history : List Nat}

theorem exhausted_placed (consistent : st.Consistent history) (hready : st.ready = [])
    (nodup : sequence.Nodup) (horder : st.graph.order = sequence)
    (hleads : ∀ u v, st.graph.Leads u v ↔ ∃ a b : Nat, sequence[u]? = some a ∧
      sequence[v]? = some b ∧ s.tracker.Orders c a b) :
    Exhausted (s.Precedes c sequence) sequence st.placed := by
  subst horder
  have hplace {u : Nat} (hu : u < st.graph.size) := Graph.getElem?_order st.graph hu
  rw [consistent.placed_eq]
  refine ⟨?_, ?_, consistent.grounded.map _ ?_, ?_⟩
  · apply consistent.nodup.map_on
    intro u hu v hv
    exact Graph.idAt_inj nodup (consistent.lt_size u hu) (consistent.lt_size v hv)
  · intro a ha
    obtain ⟨u, hu, rfl⟩ := List.mem_map.1 ha
    exact List.mem_of_getElem? (hplace (consistent.lt_size u hu))
  · rintro u hu b ⟨_, hb, horders⟩
    obtain ⟨v, hv⟩ := List.mem_iff_getElem?.1 hb
    exact ⟨v, (hleads u v).2 ⟨_, b, hplace (consistent.lt_size u hu), hv, horders⟩,
      Graph.idAt_of_getElem? hv⟩
  · intro a ha hnot
    obtain ⟨u, hu⟩ := List.mem_iff_getElem?.1 ha
    have huh : u ∉ history := fun h => hnot (List.mem_map.2 ⟨u, h, Graph.idAt_of_getElem? hu⟩)
    obtain ⟨v, hlead, hvh⟩ : ∃ v, st.graph.Leads u v ∧ v ∉ history := by
      by_contra hnone
      have hmem : u ∈ st.ready := (consistent.mem_ready_iff u).2
        ⟨Graph.lt_size_of_getElem? hu, huh, by simpa using hnone⟩
      rw [hready] at hmem
      cases hmem
    obtain ⟨a', b, hu', hv, horders⟩ := (hleads u v).1 hlead
    obtain rfl : a = a' := Option.some.inj (hu.symm.trans hu')
    have hb := List.mem_of_getElem? hv
    refine ⟨b, hb, ?_, ha, hb, horders⟩
    intro hmem
    obtain ⟨w, hw, hsame⟩ := List.mem_map.1 hmem
    obtain rfl : w = v := Graph.idAt_inj nodup (consistent.lt_size w hw)
      (Graph.lt_size_of_getElem? hv) (hsame.trans (Graph.idAt_of_getElem? hv).symm)
    exact hvh hw

theorem finish_eq_ok_iff (st : ScheduleState τ) (out : ComputationSchedule) :
    finish st = .ok out ↔ st.placed.length = st.graph.size ∧
      out = { sequence := st.placed, memory := st.memory.state } := by
  unfold finish
  split
  · next hall => simp [hall, eq_comm]
  · next hmissing => simp [hmissing]

theorem spec_of_build [TimeScale τ] {latency : Node τ → Node τ → τ} {g : Graph τ} (hc : c.Wired)
    (hbuild : Graph.buildWith latency c sequence s.estimator s.tracker = .ok g)
    (consistent : st.Consistent history) (hready : st.ready = [])
    (hsite : Graph.Keeps Node.toSite g st.graph)
    (hsucc : Graph.Keeps Node.successors g st.graph) :
    c.Admits sequence ∧ st.graph.computation = c ∧ st.graph.size = sequence.length ∧
      Exhausted (s.Precedes c sequence) sequence st.placed := by
  obtain ⟨admits, represents⟩ := Graph.build_ok hc hbuild
  have horder : st.graph.order = sequence := hsite.order_eq.trans represents.order_eq
  refine ⟨admits, hsite.computation_eq.trans represents.computation_eq, ?_, ?_⟩
  · rw [Graph.size_eq_length_order, horder]
  · apply exhausted_placed consistent hready admits.nodup horder
    intro u v
    rw [hsucc.leads_iff, represents.leads_iff]

/-- Of a closed list of distinct known instructions, `answer` is a schedule if nothing has to come
before itself: an order of the list that respects all precedences. A cycle is reported with the
number of instructions from which one can be reached. -/
structure Settles (s : Scheduler τ) (c : Computation) (sequence : List Nat)
    (answer : Except Fault ComputationSchedule) : Prop where
  isOk_iff : (∃ out, answer = .ok out) ↔ ∀ a, ¬ TransGen (s.Precedes c sequence) a a
  respects : ∀ out, answer = .ok out → out.sequence.Perm sequence ∧
    ∀ a b, s.Precedes c sequence a b → out.sequence.idxOf a < out.sequence.idxOf b
  reports : (∃ a, TransGen (s.Precedes c sequence) a a) → answer = .error (.neverReady c.name
    {a | a ∈ sequence ∧ ReachesCycle (s.Precedes c sequence) a}.ncard)

theorem settles_finish (admits : c.Admits sequence) (hname : st.graph.computation = c)
    (hsize : st.graph.size = sequence.length)
    (hplaced : Exhausted (s.Precedes c sequence) sequence st.placed) :
    s.Settles c sequence (finish st) := by
  have hlength := hplaced.length_eq_iff admits.nodup fun _ _ hab => hab.1
  refine ⟨⟨?_, ?_⟩, ?_, ?_⟩
  · rintro ⟨out, hout⟩
    exact hlength.1 (((finish_eq_ok_iff st out).1 hout).1.trans hsize)
  · intro acyclic
    exact ⟨_, (finish_eq_ok_iff st _).2 ⟨(hlength.2 acyclic).trans hsize.symm, rfl⟩⟩
  · intro out hout
    obtain ⟨hall, rfl⟩ := (finish_eq_ok_iff st out).1 hout
    have hperm := hplaced.perm_of_length_eq (hall.trans hsize)
    refine ⟨hperm, ?_⟩
    intro a b hab
    exact hplaced.grounded.idxOf_lt hplaced.nodup (hperm.mem_iff.2 hab.1) hab
  · rintro ⟨a, hcycle⟩
    have hmissing : st.placed.length ≠ st.graph.size := by
      rw [hsize]
      intro hall
      exact hlength.1 hall a hcycle
    rw [finish, if_neg hmissing, hname, hsize, hplaced.length_sub_eq_ncard admits.nodup]

variable [TimeScale τ] {m : Option Module} {pressure : Option Pressure}

theorem start_ok (hstart : s.start c sequence m pressure = .ok st) :
    Graph.build c sequence s.estimator s.tracker = .ok st.graph ∧
      st.ready = st.graph.bottom ∧ st.placed = [] := by
  unfold start at hstart
  rw [bind_pure_eq_ok_iff] at hstart
  obtain ⟨g, hg, rfl⟩ := hstart
  exact ⟨hg, rfl, rfl⟩

theorem exists_start (s : Scheduler τ) (hc : c.Wired) (admits : c.Admits sequence)
    (m : Option Module) (pressure : Option Pressure) :
    ∃ st, s.start c sequence m pressure = .ok st := by
  obtain ⟨g, hg⟩ := Graph.exists_build hc admits s.estimator s.tracker
  unfold start
  rw [hg]
  exact ⟨_, rfl⟩

theorem schedule_eq_ok_iff (s : Scheduler τ) (c : Computation) (sequence : List Nat)
    (m : Option Module) (pressure : Option Pressure) (out : ComputationSchedule) :
    s.schedule c sequence m pressure = .ok out ↔
      ∃ st, s.start c sequence m pressure = .ok st ∧ finish (s.drain st) = .ok out :=
  bind_eq_ok_iff _ _ _

theorem drain_spec (hc : c.Wired) (hstart : s.start c sequence m pressure = .ok st) :
    c.Admits sequence ∧ (s.drain st).graph.computation = c ∧
      (s.drain st).graph.size = sequence.length ∧
      Exhausted (s.Precedes c sequence) sequence (s.drain st).placed := by
  obtain ⟨hbuild, hbottom, hplaced⟩ := start_ok hstart
  obtain ⟨⟨history, consistent⟩, hready, hsite, hsucc⟩ := drain_consistent s
    (ScheduleState.consistent_of_fresh (Graph.build_ok hc hbuild).2.fresh hbottom hplaced)
  exact spec_of_build hc hbuild consistent hready hsite hsucc

def reduction : Computation :=
  [{ name := "p", opcode := .parameter, shape := .array 4 },
    { name := "s", opcode := .allReduceStart, shape := .array 4, operands := [0] },
    { name := "d", opcode := .allReduceDone, shape := .array 4, operands := [1] },
    { name := "a", opcode := .add, shape := .array 4, operands := [0, 0] },
    { name := "t", opcode := .tuple, shape := .array 4, operands := [2, 3] }].foldl
      Computation.grown { name := "c" }

def demanding (demands : List (OrderDemand Rat)) : Scheduler Rat where
  estimator := .approximate
  tracker := AsyncTracker.demanding (.generic {}) "c" demands []

end Scheduler

end LatencyHiding
