import LatencyHiding.Proofs.Dependence.Construction
import LatencyHiding.Proofs.Dependence.Cycles
import LatencyHiding.Proofs.ListSchedule.Placement

set_option autoImplicit false

namespace LatencyHiding

namespace ScheduleState

open LatencyHiding.Graph

variable {τ : Type}

structure Consistent (s : ScheduleState τ) (history : List Nat) : Prop where
  linked : s.graph.Linked
  nodup : history.Nodup
  lt_size : ∀ u ∈ history, u < s.graph.size
  /-- Everything placed has all that comes after it placed before it. -/
  grounded : Grounded s.graph.Leads history
  placed_eq : s.placed = history.map s.graph.idAt
  outdegree_eq : ∀ (u : Nat) (n : Node τ), s.graph.node? u = some n →
    n.outdegree = ((n.successors.map (·.target)).filter (· ∉ history)).length
  indegree_eq : ∀ (u : Nat) (n : Node τ), s.graph.node? u = some n →
    n.indegree = ((n.predecessors.map (·.target)).filter (· ∉ history)).length
  scheduled_iff : ∀ (u : Nat) (n : Node τ), s.graph.node? u = some n →
    (n.scheduled = true ↔ u ∈ history)
  ready_nodup : s.ready.Nodup
  mem_ready_iff : ∀ u : Nat, u ∈ s.ready ↔
    u < s.graph.size ∧ u ∉ history ∧ ∀ v, s.graph.Leads u v → v ∈ history

namespace Consistent

variable {s : ScheduleState τ} {history : List Nat} {index : Nat} {n : Node τ}

theorem not_mem_history (consistent : s.Consistent history) (hindex : index ∈ s.ready) :
    index ∉ history := ((consistent.mem_ready_iff index).1 hindex).2.1

theorem not_leads_of_mem_history (consistent : s.Consistent history) (hindex : index ∈ s.ready)
    {u : Nat} (hu : u ∈ history) : ¬ s.graph.Leads u index := by
  intro hlead
  exact consistent.not_mem_history hindex (consistent.grounded.mem_of_rel hu hlead)

theorem not_leads_of_mem_ready (consistent : s.Consistent history) (hindex : index ∈ s.ready)
    {u : Nat} (hu : u ∈ s.ready) : ¬ s.graph.Leads u index := by
  intro hlead
  exact consistent.not_mem_history hindex (((consistent.mem_ready_iff u).1 hu).2.2 index hlead)

theorem lastWait_iff (consistent : s.Consistent history) (hindex : index ∈ s.ready) {u : Nat}
    (hlead : s.graph.Leads u index) :
    lastWait s.graph u = true ↔ ∀ v, s.graph.Leads u v → v ∈ index :: history := by
  obtain ⟨m, hm⟩ := (lt_size_iff s.graph u).1 (consistent.linked.lt_size hlead).1
  have hperm := filter_perm_cons (consistent.linked.nodup_successors hm)
    ((mem_successors_iff hm index).2 hlead) (consistent.not_mem_history hindex)
  have hcount : m.outdegree =
      ((m.successors.map (·.target)).filter (· ∉ index :: history)).length + 1 := by
    rw [consistent.outdegree_eq u m hm, hperm.length_eq, List.length_cons]
  have hwait : lastWait s.graph u = true ↔
      (m.successors.map (·.target)).filter (· ∉ index :: history) = [] := by
    rw [lastWait, outdegree?, hm, ← List.length_eq_zero_iff]
    simp only [Option.map_some, Option.any_some, decide_eq_true_eq]
    omega
  rw [hwait, List.filter_eq_nil_iff]
  simp only [mem_successors_iff hm, decide_eq_true_eq, not_not]

section Place

variable [TimeScale τ]

theorem scheduled_place_iff (consistent : s.Consistent history) (u : Nat) (m : Node τ)
    (hm : (s.place index n).graph.node? u = some m) :
    m.scheduled = true ↔ u ∈ index :: history := by
  have hchange := scheduled_place s index n u
  obtain ⟨old, hold, _⟩ : ∃ old, s.graph.node? u = some old ∧ _ :=
    (keeps_place s index n fun _ _ _ _ _ => rfl : Keeps Node.successors _ _).exists_node? hm
  simp only [hm, hold, Option.map_some] at hchange
  rw [List.mem_cons, ← consistent.scheduled_iff u old hold]
  split at hchange
  · next hu => simp [hu, Option.some.inj hchange]
  · next hu => simp [hu, Option.some.inj hchange]

variable (consistent : s.Consistent history) (hindex : index ∈ s.ready)
  (hn : s.graph.node? index = some n)

include consistent hindex hn

theorem outdegree_place (u : Nat) (m : Node τ) (hm : (s.place index n).graph.node? u = some m) :
    m.outdegree = ((m.successors.map (·.target)).filter (· ∉ index :: history)).length := by
  have hkeeps : Keeps Node.successors s.graph (s.place index n).graph :=
    keeps_place s index n fun _ _ _ _ _ => rfl
  obtain ⟨old, hold, hsame⟩ := hkeeps.exists_node? hm
  have hchange := outdegree?_place s index n (consistent.linked.nodup_predecessors hn) u
  simp only [outdegree?, hm, hold, Option.map_some, consistent.linked.mem_predecessors_iff hn,
    ← mem_successors_iff hold, consistent.outdegree_eq u old hold] at hchange
  rw [← hsame, length_filter_cons (consistent.linked.nodup_successors hold)
    (consistent.not_mem_history hindex)]
  split at hchange
  · next hmem => rw [if_pos hmem, Option.some.inj hchange]
  · next hmem => rw [if_neg hmem, Option.some.inj hchange]

theorem indegree_place (u : Nat) (m : Node τ) (hm : (s.place index n).graph.node? u = some m) :
    m.indegree = ((m.predecessors.map (·.target)).filter (· ∉ index :: history)).length := by
  have hkeeps : Keeps Node.predecessors s.graph (s.place index n).graph :=
    keeps_place s index n fun _ _ _ _ _ => rfl
  obtain ⟨old, hold, hsame⟩ := hkeeps.exists_node? hm
  have hchange := indegree?_place s index n (consistent.linked.nodup_successors hn) u
  simp only [indegree?, hm, hold, Option.map_some, mem_successors_iff hn,
    ← consistent.linked.mem_predecessors_iff hold, consistent.indegree_eq u old hold] at hchange
  rw [← hsame, length_filter_cons (consistent.linked.nodup_predecessors hold)
    (consistent.not_mem_history hindex)]
  split at hchange
  · next hmem => rw [if_pos hmem, Option.some.inj hchange]
  · next hmem => rw [if_neg hmem, Option.some.inj hchange]

theorem mem_ready_place_iff (u : Nat) : u ∈ (s.place index n).ready ↔
    u < s.graph.size ∧ u ∉ index :: history ∧ ∀ v, s.graph.Leads u v → v ∈ index :: history := by
  rw [ready_place s index n (consistent.linked.nodup_predecessors hn), List.mem_append,
    List.mem_filter, List.mem_filter, consistent.linked.mem_predecessors_iff hn, List.mem_cons,
    not_or]
  constructor
  · rintro (⟨hready, hne⟩ | ⟨hlead, hlast⟩)
    · obtain ⟨hsize, hnot, hafter⟩ := (consistent.mem_ready_iff u).1 hready
      refine ⟨hsize, ⟨by simpa using hne, hnot⟩, ?_⟩
      intro v hv
      exact List.mem_cons_of_mem index (hafter v hv)
    · refine ⟨(consistent.linked.lt_size hlead).1, ⟨?_, ?_⟩,
        (consistent.lastWait_iff hindex hlead).1 hlast⟩
      · rintro rfl
        exact consistent.not_leads_of_mem_ready hindex hindex hlead
      · intro hu
        exact consistent.not_leads_of_mem_history hindex hu hlead
  · rintro ⟨hsize, ⟨hne, hnot⟩, hafter⟩
    by_cases hlead : s.graph.Leads u index
    · exact Or.inr ⟨hlead, (consistent.lastWait_iff hindex hlead).2 hafter⟩
    · refine Or.inl ⟨(consistent.mem_ready_iff u).2 ⟨hsize, hnot, ?_⟩, by simpa using hne⟩
      intro v hv
      rcases List.mem_cons.1 (hafter v hv) with rfl | hmem
      · exact (hlead hv).elim
      · exact hmem

theorem ready_place_nodup : (s.place index n).ready.Nodup := by
  have hnodup := consistent.linked.nodup_predecessors hn
  rw [ready_place s index n hnodup]
  refine (consistent.ready_nodup.filter _).append (hnodup.filter _) ?_
  intro u hready hpredecessor
  exact consistent.not_leads_of_mem_ready hindex (List.mem_filter.1 hready).1
    ((consistent.linked.mem_predecessors_iff hn u).1 (List.mem_filter.1 hpredecessor).1)

/-- Placing a ready node makes history. -/
theorem place : (s.place index n).Consistent (index :: history) := by
  have hsucc : Keeps Node.successors s.graph (s.place index n).graph :=
    keeps_place s index n fun _ _ _ _ _ => rfl
  have hpred : Keeps Node.predecessors s.graph (s.place index n).graph :=
    keeps_place s index n fun _ _ _ _ _ => rfl
  have hsite : Keeps Node.toSite s.graph (s.place index n).graph :=
    keeps_place s index n fun _ _ _ _ _ => rfl
  have hleads : (s.place index n).graph.Leads = s.graph.Leads := by
    funext u v
    exact propext (hsucc.leads_iff u v)
  obtain ⟨hsize, hnot, hafter⟩ := (consistent.mem_ready_iff index).1 hindex
  exact
    { linked := consistent.linked.keeps hsucc hpred
      nodup := List.nodup_cons.2 ⟨hnot, consistent.nodup⟩
      lt_size := by
        rw [hsite.size_eq]
        exact List.forall_mem_cons.2 ⟨hsize, consistent.lt_size⟩
      grounded := by
        rw [hleads]
        exact ⟨hafter, consistent.grounded⟩
      placed_eq := by
        rw [placed_place, consistent.placed_eq, hsite.idAt_eq, List.map_cons, idAt_eq hn]
      outdegree_eq := consistent.outdegree_place hindex hn
      indegree_eq := consistent.indegree_place hindex hn
      scheduled_iff := consistent.scheduled_place_iff
      ready_nodup := consistent.ready_place_nodup hindex hn
      mem_ready_iff := by
        rw [hsite.size_eq, hleads]
        exact consistent.mem_ready_place_iff hindex hn }

end Place

theorem subset_range (consistent : s.Consistent history) : history ⊆ List.range s.graph.size :=
  fun u hu => List.mem_range.2 (consistent.lt_size u hu)

theorem length_placed (consistent : s.Consistent history) : s.placed.length = history.length := by
  rw [consistent.placed_eq, List.length_map]

theorem ready_eq_nil (consistent : s.Consistent history)
    (hall : s.graph.size ≤ s.placed.length) : s.ready = [] := by
  have hsub : history.Subperm (List.range s.graph.size) :=
    List.subperm_of_subset consistent.nodup consistent.subset_range
  have hperm : history.Perm (List.range s.graph.size) := by
    apply hsub.perm_of_length_le
    rw [List.length_range, ← consistent.length_placed]
    exact hall
  rw [List.eq_nil_iff_forall_not_mem]
  intro u hu
  obtain ⟨hsize, hnot, _⟩ := (consistent.mem_ready_iff u).1 hu
  exact hnot (hperm.mem_iff.2 (List.mem_range.2 hsize))

end Consistent

theorem consistent_of_fresh {s : ScheduleState τ} (fresh : s.graph.Fresh)
    (hready : s.ready = s.graph.bottom) (hplaced : s.placed = []) : s.Consistent [] := by
  have hall (l : List Nat) : l.filter (· ∉ ([] : List Nat)) = l :=
    List.filter_eq_self.2 fun u _ => by simp
  have hnode {u : Nat} {n : Node τ} (hn : s.graph.node? u = some n) :=
    fresh.nodes_fresh n (List.mem_of_getElem? hn)
  exact
    { linked := fresh.toLinked
      nodup := List.nodup_nil
      lt_size := List.forall_mem_nil _
      grounded := trivial
      placed_eq := hplaced
      outdegree_eq := fun u n hn => by rw [hall, List.length_map, (hnode hn).1]
      indegree_eq := fun u n hn => by rw [hall, List.length_map, (hnode hn).2.1]
      scheduled_iff := fun u n hn => by simp [(hnode hn).2.2]
      ready_nodup := by
        rw [hready]
        exact List.nodup_range.filter _
      mem_ready_iff := by
        intro u
        rw [hready, bottom, List.mem_filter, List.mem_range]
        apply and_congr_right
        intro hu
        obtain ⟨n, hn⟩ := (lt_size_iff s.graph u).1 hu
        simp [hn, ← mem_successors_iff hn, List.eq_nil_iff_forall_not_mem] }

end ScheduleState

namespace Candidate

variable {τ : Type} {candidate : Candidate τ} {all : List (Candidate τ)}

theorem mem_of_mem_shortlist (h : candidate ∈ shortlist all) : candidate ∈ all := by
  unfold shortlist at h
  dsimp only at h
  split at h
  · exact h
  · exact (List.mem_filter.1 h).1

theorem shortlist_eq_nil_iff (all : List (Candidate τ)) : shortlist all = [] ↔ all = [] := by
  unfold shortlist
  dsimp only
  split
  · rfl
  · next hfeasible =>
    rw [List.isEmpty_iff] at hfeasible
    refine iff_of_false hfeasible ?_
    rintro rfl
    exact hfeasible rfl

end Candidate

namespace Scheduler

variable {τ : Type} (s : Scheduler τ) {st : ScheduleState τ}

theorem mem_candidates_iff (candidate : Candidate τ) : candidate ∈ s.candidates st ↔
    ∃ index ∈ st.ready, ∃ n, st.graph.node? index = some n ∧
      s.candidate st index n = candidate := by
  unfold candidates
  rw [List.mem_filterMap]
  simp only [Option.map_eq_some_iff]

theorem pool_eq (st : ScheduleState τ) : s.pool st =
    if ((s.candidates st).filter (·.feasible)).isEmpty then s.candidates st
    else (s.candidates st).filter (·.feasible) := rfl

theorem mem_candidates_of_mem_pool {candidate : Candidate τ} (h : candidate ∈ s.pool st) :
    candidate ∈ s.candidates st := Candidate.mem_of_mem_shortlist h

theorem pool_eq_nil_iff (st : ScheduleState τ) : s.pool st = [] ↔ s.candidates st = [] :=
  Candidate.shortlist_eq_nil_iff _

variable [TimeScale τ]

theorem foldl_challenge_mem (st : ScheduleState τ) (rest : List (Candidate τ))
    (leader : Candidate τ × Reason) :
    (rest.foldl (s.challenge st) leader).1 ∈ leader.1 :: rest := by
  induction rest generalizing leader with
  | nil => exact List.mem_singleton.2 rfl
  | cons challenger rest ih =>
    have hleader : (s.challenge st leader challenger).1 = leader.1 ∨
        (s.challenge st leader challenger).1 = challenger := by
      unfold challenge
      dsimp only
      split
      · exact Or.inr rfl
      · split <;> exact Or.inl rfl
    rw [List.foldl_cons]
    rcases List.mem_cons.1 (ih (s.challenge st leader challenger)) with hbest | hbest
    · rw [hbest]
      rcases hleader with hsame | hsame <;> simp [hsame]
    · exact List.mem_cons_of_mem _ (List.mem_cons_of_mem _ hbest)

theorem mem_of_winner? {candidates : List (Candidate τ)} {best : Candidate τ} {reason : Reason}
    (h : s.winner? st candidates = some (best, reason)) : best ∈ candidates := by
  cases candidates with
  | nil => cases h
  | cons first rest =>
    have hbest := foldl_challenge_mem s st rest (first, .onlyCandidate)
    rwa [Option.some.inj h] at hbest

theorem winner?_eq_none_iff (st : ScheduleState τ) (candidates : List (Candidate τ)) :
    s.winner? st candidates = none ↔ candidates = [] := by
  cases candidates <;> simp [winner?]

theorem mem_pool_of_best? {best : Candidate τ} {reason : Reason}
    (h : s.best? st = some (best, reason)) : best ∈ s.pool st := mem_of_winner? s h

theorem best?_eq_none_iff (st : ScheduleState τ) : s.best? st = none ↔ s.candidates st = [] := by
  rw [← pool_eq_nil_iff]
  exact winner?_eq_none_iff s st _

/-- What a step can do: it goes for a ready node, places it and says so. -/
theorem step?_best {did : ScheduleStep τ} {next : ScheduleState τ}
    (h : s.step? st = some (did, next)) : ∃ index ∈ st.ready, ∃ n reason,
      st.graph.node? index = some n ∧ s.best? st = some (s.candidate st index n, reason) ∧
        did = {
          scheduled := n.instr.id
          time := st.placingTime n
          reason
          feasible := s.isFeasible st n
          newlyReady := st.newlyReady next } ∧ next = st.place index n := by
  unfold step? at h
  split at h
  · cases h
  · next best reason hbest =>
    obtain ⟨index, hindex, n, hn, rfl⟩ :=
      (mem_candidates_iff s best).1 (mem_candidates_of_mem_pool s (mem_pool_of_best? s hbest))
    have hnode : st.graph.node? (s.candidate st index n).node = some n := hn
    simp only [hnode] at h
    obtain ⟨rfl, rfl⟩ := Prod.mk.inj (Option.some.inj h)
    exact ⟨index, hindex, n, reason, hn, hbest, rfl, rfl⟩

theorem step?_eq_some {did : ScheduleStep τ} {next : ScheduleState τ}
    (h : s.step? st = some (did, next)) : ∃ index ∈ st.ready, ∃ n,
      st.graph.node? index = some n ∧ next = st.place index n := by
  obtain ⟨index, hindex, n, _, hn, _, _, hnext⟩ := step?_best s h
  exact ⟨index, hindex, n, hn, hnext⟩

omit [TimeScale τ] in
theorem candidates_eq_nil_iff (hready : ∀ u ∈ st.ready, u < st.graph.size) :
    s.candidates st = [] ↔ st.ready = [] := by
  constructor
  · intro hnone
    rw [List.eq_nil_iff_forall_not_mem]
    intro u hu
    obtain ⟨n, hn⟩ := (Graph.lt_size_iff st.graph u).1 (hready u hu)
    have hmem := (mem_candidates_iff s (s.candidate st u n)).2 ⟨u, hu, n, hn, rfl⟩
    rw [hnone] at hmem
    cases hmem
  · intro hnone
    rw [candidates, hnone, List.filterMap_nil]

theorem step?_eq_none_iff (hready : ∀ u ∈ st.ready, u < st.graph.size) :
    s.step? st = none ↔ st.ready = [] := by
  rw [← candidates_eq_nil_iff s hready, ← best?_eq_none_iff]
  cases hbest : s.best? st with
  | none => simp [step?, hbest]
  | some chosen =>
    obtain ⟨best, reason⟩ := chosen
    obtain ⟨index, hindex, n, hn, rfl⟩ :=
      (mem_candidates_iff s best).1 (mem_candidates_of_mem_pool s (mem_pool_of_best? s hbest))
    have hnode : st.graph.node? (s.candidate st index n).node = some n := hn
    simp [step?, hbest, hnode]

/-- What placing a ready node preserves, a run does. -/
theorem steps_invariant {P : ScheduleState τ → Prop}
    (hplace : ∀ st index n, P st → index ∈ st.ready → st.graph.node? index = some n →
      P (st.place index n)) (k : Nat) (hst : P st) : P (s.steps k st).2 := by
  induction k generalizing st with
  | zero => exact hst
  | succ k ih =>
    unfold steps
    split
    · exact hst
    · next did next hstep =>
      obtain ⟨index, hindex, n, hn, rfl⟩ := step?_eq_some s hstep
      exact ih (hplace st index n hst hindex hn)

/-- What every step preserves, a run does, and each of its steps is as a step from such a state. -/
theorem steps_forall {P : ScheduleState τ → Prop} {Q : ScheduleStep τ → Prop}
    (hstep : ∀ st did next, P st → s.step? st = some (did, next) → Q did ∧ P next) (k : Nat)
    (hst : P st) : (∀ did ∈ (s.steps k st).1, Q did) ∧ P (s.steps k st).2 := by
  induction k generalizing st with
  | zero => exact ⟨List.forall_mem_nil _, hst⟩
  | succ k ih =>
    unfold steps
    split
    · exact ⟨List.forall_mem_nil _, hst⟩
    · next did next hnext =>
      obtain ⟨hdid, hnext⟩ := hstep st did next hst hnext
      obtain ⟨hrest, hfinal⟩ := ih hnext
      exact ⟨List.forall_mem_cons.2 ⟨hdid, hrest⟩, hfinal⟩

theorem steps_progress (k : Nat) {history : List Nat} (consistent : st.Consistent history) :
    (s.steps k st).2.ready = [] ∨ (s.steps k st).2.placed.length = st.placed.length + k := by
  induction k generalizing st history with
  | zero => exact Or.inr rfl
  | succ k ih =>
    have hready : ∀ u ∈ st.ready, u < st.graph.size := fun u hu =>
      ((consistent.mem_ready_iff u).1 hu).1
    unfold steps
    split
    · next hstep => exact Or.inl ((step?_eq_none_iff s hready).1 hstep)
    · next did next hstep =>
      obtain ⟨index, hindex, n, hn, rfl⟩ := step?_eq_some s hstep
      refine (ih (consistent.place hindex hn)).imp id ?_
      intro hlength
      rw [hlength, ScheduleState.placed_place, List.length_cons]
      omega

theorem drain_consistent {history : List Nat} (consistent : st.Consistent history) :
    (∃ final, (s.drain st).Consistent final) ∧ (s.drain st).ready = [] ∧
      Graph.Keeps Node.toSite st.graph (s.drain st).graph ∧
      Graph.Keeps Node.successors st.graph (s.drain st).graph := by
  have hinvariant : (∃ final, (s.drain st).Consistent final) ∧
      Graph.Keeps Node.toSite st.graph (s.drain st).graph ∧
      Graph.Keeps Node.successors st.graph (s.drain st).graph := by
    apply steps_invariant s (P := fun st' => (∃ final, st'.Consistent final) ∧
      Graph.Keeps Node.toSite st.graph st'.graph ∧ Graph.Keeps Node.successors st.graph st'.graph)
    · rintro st' index n ⟨⟨final, hfinal⟩, hsite, hsucc⟩ hindex hn
      exact ⟨⟨_, hfinal.place hindex hn⟩,
        hsite.trans (ScheduleState.keeps_place st' index n fun _ _ _ _ _ => rfl),
        hsucc.trans (ScheduleState.keeps_place st' index n fun _ _ _ _ _ => rfl)⟩
    · exact ⟨⟨history, consistent⟩, Graph.Keeps.refl _ _, Graph.Keeps.refl _ _⟩
  obtain ⟨⟨final, hfinal⟩, hsite, hsucc⟩ := hinvariant
  refine ⟨⟨final, hfinal⟩, ?_, hsite, hsucc⟩
  rcases steps_progress s st.graph.size consistent with hnone | hlength
  · exact hnone
  · apply hfinal.ready_eq_nil
    rw [hsite.size_eq]
    change _ ≤ (s.steps st.graph.size st).2.placed.length
    omega

end Scheduler

end LatencyHiding
