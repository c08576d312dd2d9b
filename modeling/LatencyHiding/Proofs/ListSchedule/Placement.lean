import LatencyHiding.ListSchedule.Basic
import LatencyHiding.Proofs.Dependence.Edges
import LatencyHiding.Proofs.Program.Precedence

set_option autoImplicit false

namespace LatencyHiding

namespace ScheduleState

open LatencyHiding.Graph

variable {τ β : Type} {view : Node τ → β}

def outdegree? (g : Graph τ) (u : Nat) : Option Nat := (g.node? u).map (·.outdegree)

def indegree? (g : Graph τ) (u : Nat) : Option Nat := (g.node? u).map (·.indegree)

def readyTime? (g : Graph τ) (u : Nat) : Option τ := (g.node? u).map (·.readyTime)

section Settle

def settled (n : Node τ) : Node τ := { n with indegree := n.indegree - 1 }

variable (s : ScheduleState τ) (n : Node τ)

theorem graph_settleSuccessors : (s.settleSuccessors n).graph =
    (n.successors.map (·.target)).foldl (fun g i => g.modify i settled) s.graph := by
  rw [List.foldl_map]
  rfl

theorem keeps_settleSuccessors (hview : ∀ n i, view { n with indegree := i } = view n) :
    Keeps view s.graph (s.settleSuccessors n).graph := by
  rw [graph_settleSuccessors]
  exact Keeps.foldl (fun g i => Keeps.modify g i settled fun m => hview m _) _ s.graph

theorem indegree?_settleSuccessors (nodup : (n.successors.map (·.target)).Nodup) (u : Nat) :
    indegree? (s.settleSuccessors n).graph u =
      if u ∈ n.successors.map (·.target) then (indegree? s.graph u).map (· - 1)
      else indegree? s.graph u := by
  rw [graph_settleSuccessors]
  apply foldl_once indegree? _ _ _ nodup
  intro g i v
  exact map_node?_modify Node.indegree settled (· - 1) (fun _ => rfl) g i v

end Settle

variable [TimeScale τ]

def lastWait (g : Graph τ) (u : Nat) : Bool := (outdegree? g u).any (· ≤ 1)

theorem readyTimeOf_congr {g h : Graph τ} {m n : Node τ} (hsucc : m.successors = n.successors)
    (hsame : ∀ e ∈ n.successors, readyTime? h e.target = readyTime? g e.target) :
    readyTimeOf h m = readyTimeOf g n := by
  unfold readyTimeOf
  rw [hsucc]
  congr 1
  apply List.filterMap_congr
  intro e he
  have htimes := congrArg (Option.map (· + e.latency)) (hsame e he)
  rwa [readyTime?, readyTime?, Option.map_map, Option.map_map] at htimes

section Relieve

def relieved (n : Node τ) : Node τ := { n with outdegree := n.outdegree - 1 }

def timed (g : Graph τ) (n : Node τ) : Node τ := { n with readyTime := readyTimeOf g n }

variable (s : ScheduleState τ) (i : Nat)

theorem relieve_eq : s.relieve i =
    if lastWait s.graph i then
      { s with
        graph := (s.graph.modify i relieved).modify i (timed (s.graph.modify i relieved))
        ready := s.ready ++ [i] }
    else { s with graph := s.graph.modify i relieved } := by
  have hnode : (s.graph.modify i fun n => { n with outdegree := n.outdegree - 1 }).node? i =
      (s.graph.node? i).map relieved := by
    rw [node?_modify, if_pos rfl]
    rfl
  unfold relieve lastWait outdegree?
  simp only [hnode]
  cases s.graph.node? i with
  | none => rfl
  | some n =>
    by_cases hlast : n.outdegree ≤ 1
    · have hzero : (relieved n).outdegree = 0 := Nat.sub_eq_zero_of_le hlast
      exact (if_neg (not_not_intro hzero)).trans (if_pos (decide_eq_true hlast)).symm
    · have hzero : (relieved n).outdegree ≠ 0 := Nat.sub_ne_zero_of_lt (Nat.not_le.1 hlast)
      exact (if_pos hzero).trans (if_neg (by simpa using hlast)).symm

theorem keeps_relieve (hview : ∀ n t o, view { n with readyTime := t, outdegree := o } = view n) :
    Keeps view s.graph (s.relieve i).graph := by
  have hrelieved : Keeps view s.graph (s.graph.modify i relieved) :=
    Keeps.modify s.graph i relieved fun n => hview n n.readyTime _
  rw [relieve_eq]
  split
  · exact hrelieved.trans (Keeps.modify _ i (timed _) fun n => hview n _ n.outdegree)
  · exact hrelieved

theorem outdegree?_relieve (u : Nat) : outdegree? (s.relieve i).graph u =
    if u = i then (outdegree? s.graph u).map (· - 1) else outdegree? s.graph u := by
  have hrelieved : outdegree? (s.graph.modify i relieved) u =
      if u = i then (outdegree? s.graph u).map (· - 1) else outdegree? s.graph u :=
    map_node?_modify Node.outdegree relieved (· - 1) (fun _ => rfl) s.graph i u
  rw [← hrelieved, relieve_eq]
  split
  · exact (Keeps.modify _ i (timed _) fun _ => rfl).node?_eq u
  · rfl

theorem readyTime?_relieve (u : Nat) : readyTime? (s.relieve i).graph u =
    if u = i ∧ lastWait s.graph i = true then (s.graph.node? u).map (readyTimeOf s.graph)
    else readyTime? s.graph u := by
  have hkept (v : Nat) : readyTime? (s.graph.modify i relieved) v = readyTime? s.graph v :=
    (Keeps.modify s.graph i relieved fun _ => rfl).node?_eq v
  rw [relieve_eq]
  by_cases hlast : lastWait s.graph i = true
  · simp only [hlast, if_true, and_true]
    rw [← hkept, readyTime?, node?_modify, node?_modify]
    by_cases hu : u = i
    · subst hu
      rw [if_pos rfl, if_pos rfl, if_pos rfl, Option.map_map, Option.map_map]
      congr 1
      funext n
      exact readyTimeOf_congr rfl fun e _ => hkept e.target
    · rw [if_neg (Ne.symm hu), if_neg hu, readyTime?, node?_modify]
  · rw [if_neg hlast, if_neg fun h => hlast h.2]
    exact hkept u

theorem ready_relieve : (s.relieve i).ready = s.ready ++ [i].filter (lastWait s.graph) := by
  rw [relieve_eq]
  split
  · next hlast => rw [List.filter_cons_of_pos hlast, List.filter_nil]
  · next hlast => rw [List.filter_cons_of_neg hlast, List.filter_nil, List.append_nil]

end Relieve

theorem foldl_relieve_eq (l : List Nat) (s : ScheduleState τ) : ∃ graph ready,
    l.foldl relieve s = { s with graph, ready } := by
  induction l generalizing s with
  | nil => exact ⟨s.graph, s.ready, rfl⟩
  | cons i rest ih =>
    obtain ⟨graph, ready, hrest⟩ := ih (s.relieve i)
    refine ⟨graph, ready, ?_⟩
    rw [List.foldl_cons, hrest, relieve_eq]
    split <;> rfl

theorem keeps_foldl_relieve (l : List Nat) (s : ScheduleState τ)
    (hview : ∀ n t o, view { n with readyTime := t, outdegree := o } = view n) :
    Keeps view s.graph (l.foldl relieve s).graph := by
  induction l generalizing s with
  | nil => exact Keeps.refl view s.graph
  | cons i rest ih => exact (keeps_relieve s i hview).trans (ih (s.relieve i))

theorem outdegree?_foldl_relieve {l : List Nat} (nodup : l.Nodup) (s : ScheduleState τ) (u : Nat) :
    outdegree? (l.foldl relieve s).graph u =
      if u ∈ l then (outdegree? s.graph u).map (· - 1) else outdegree? s.graph u :=
  foldl_once (fun s => outdegree? s.graph) relieve _ outdegree?_relieve nodup s u

/-- A node that becomes ready does so at a time that relieving the others does not change, if all
that it leads to is out of the list. -/
theorem readyTime?_foldl_relieve {l : List Nat} (nodup : l.Nodup) (s : ScheduleState τ)
    (apart : ∀ u ∈ l, lastWait s.graph u = true → ∀ m, s.graph.node? u = some m →
      ∀ e ∈ m.successors, e.target ∉ l) (u : Nat) :
    readyTime? (l.foldl relieve s).graph u =
      if u ∈ l ∧ lastWait s.graph u = true then (s.graph.node? u).map (readyTimeOf s.graph)
      else readyTime? s.graph u := by
  induction l generalizing s with
  | nil => simp
  | cons i rest ih =>
    obtain ⟨hi, nodup⟩ := List.nodup_cons.1 nodup
    have hother {v : Nat} (hv : v ≠ i) : lastWait (s.relieve i).graph v = lastWait s.graph v := by
      rw [lastWait, outdegree?_relieve, if_neg hv, lastWait]
    have hsucc : Keeps Node.successors s.graph (s.relieve i).graph :=
      keeps_relieve s i fun _ _ _ => rfl
    have htime {v : Nat} (hv : v ≠ i) :
        readyTime? (s.relieve i).graph v = readyTime? s.graph v := by
      rw [readyTime?_relieve, if_neg fun h => hv h.1]
    have hrest (v : Nat) (hv : v ∈ rest) : v ≠ i := fun h => hi (h ▸ hv)
    rw [List.foldl_cons, ih nodup]
    · by_cases hu : u ∈ rest
      · rw [hother (hrest u hu), htime (hrest u hu)]
        simp only [hu, List.mem_cons, or_true, true_and]
        by_cases hlast : lastWait s.graph u = true
        · rw [if_pos hlast, if_pos hlast]
          -- the time is read in a graph where `i` is relieved, but `i` is no successor of `u`
          have hsame := hsucc.node?_eq u
          cases hm : s.graph.node? u with
          | none =>
            rw [hm, Option.map_none, Option.map_eq_none_iff] at hsame
            rw [hsame]
            rfl
          | some m =>
            rw [hm] at hsame
            obtain ⟨m', hm', hsame⟩ := Option.map_eq_some_iff.1 hsame
            rw [hm', Option.map_some, Option.map_some, readyTimeOf_congr hsame]
            intro e he
            exact htime fun h => apart u (List.mem_cons_of_mem i hu) hlast m hm e he
              (h ▸ List.mem_cons_self)
        · rw [if_neg hlast, if_neg hlast]
      · rw [if_neg fun h => hu h.1, readyTime?_relieve]
        by_cases hui : u = i
        · subst hui
          simp
        · simp [hu, hui]
    · intro v hv hlast m hm e he hmem
      obtain ⟨old, hold, hsame⟩ := hsucc.exists_node? hm
      rw [hother (hrest v hv)] at hlast
      rw [← hsame] at he
      exact apart v (List.mem_cons_of_mem i hv) hlast old hold e he (List.mem_cons_of_mem i hmem)

theorem ready_foldl_relieve {l : List Nat} (nodup : l.Nodup) (s : ScheduleState τ) :
    (l.foldl relieve s).ready = s.ready ++ l.filter (lastWait s.graph) := by
  apply foldl_append_once ScheduleState.ready (fun s : ScheduleState τ => lastWait s.graph) relieve
    ready_relieve _ nodup
  intro s i u hui
  simp only [lastWait]
  rw [outdegree?_relieve, if_neg hui]

section Place

variable (s : ScheduleState τ) (index : Nat) (n : Node τ)

def marked (time : τ) (n : Node τ) : Node τ := { n with readyTime := time, scheduled := true }

def cleared (s : ScheduleState τ) (index : Nat) (n : Node τ) : ScheduleState τ :=
  (s.put index n (s.placingTime n)).settleSuccessors n

theorem place_eq : s.place index n =
    (n.predecessors.map (·.target)).foldl relieve (s.cleared index n) := rfl

theorem keeps_cleared (hview : ∀ n t i b,
      view { n with readyTime := t, indegree := i, scheduled := b } = view n) :
    Keeps view s.graph (s.cleared index n).graph := by
  have hput : Keeps view s.graph (s.put index n (s.placingTime n)).graph :=
    Keeps.modify s.graph index (marked _) fun m => hview m _ m.indegree _
  exact hput.trans (keeps_settleSuccessors _ n fun m i => hview m m.readyTime i m.scheduled)

/-- Nothing but the times, the degrees and the marks of the nodes changes. -/
theorem keeps_place (hview : ∀ n t i o b,
      view { n with readyTime := t, indegree := i, outdegree := o, scheduled := b } = view n) :
    Keeps view s.graph (s.place index n).graph := by
  have hcleared : Keeps view s.graph (s.cleared index n).graph :=
    keeps_cleared s index n fun m t i b => hview m t i m.outdegree b
  exact hcleared.trans (keeps_foldl_relieve _ _ fun m t o => hview m t m.indegree o m.scheduled)

theorem outdegree?_place (nodup : (n.predecessors.map (·.target)).Nodup) (u : Nat) :
    outdegree? (s.place index n).graph u =
      if u ∈ n.predecessors.map (·.target) then (outdegree? s.graph u).map (· - 1)
      else outdegree? s.graph u := by
  have hcleared : outdegree? (s.cleared index n).graph u = outdegree? s.graph u :=
    (keeps_cleared s index n fun _ _ _ _ => rfl).node?_eq u
  rw [place_eq, outdegree?_foldl_relieve nodup, hcleared]

theorem indegree?_place (nodup : (n.successors.map (·.target)).Nodup) (u : Nat) :
    indegree? (s.place index n).graph u =
      if u ∈ n.successors.map (·.target) then (indegree? s.graph u).map (· - 1)
      else indegree? s.graph u := by
  have hrelieve : indegree? (s.place index n).graph u = indegree? (s.cleared index n).graph u :=
    (keeps_foldl_relieve _ _ fun _ _ _ => rfl).node?_eq u
  have hput : indegree? (s.put index n (s.placingTime n)).graph u = indegree? s.graph u :=
    (Keeps.modify s.graph index (marked _) fun _ => rfl).node?_eq u
  rw [hrelieve, cleared, indegree?_settleSuccessors _ n nodup, hput]

theorem scheduled_place (u : Nat) :
    ((s.place index n).graph.node? u).map (·.scheduled) =
      if u = index then ((s.graph.node? u).map (·.scheduled)).map fun _ => true
      else (s.graph.node? u).map (·.scheduled) := by
  have hrelieve := (keeps_foldl_relieve (n.predecessors.map (·.target)) (s.cleared index n)
    fun _ _ _ => rfl : Keeps Node.scheduled _ _).node?_eq u
  have hsettle := (keeps_settleSuccessors (s.put index n (s.placingTime n)) n
    fun _ _ => rfl : Keeps Node.scheduled _ _).node?_eq u
  rw [place_eq, hrelieve, cleared, hsettle]
  exact map_node?_modify Node.scheduled (marked _) (fun _ => true) (fun _ => rfl) s.graph index u

theorem readyTime?_cleared (u : Nat) : readyTime? (s.cleared index n).graph u =
    if u = index then (readyTime? s.graph u).map fun _ => s.placingTime n
    else readyTime? s.graph u := by
  have hsettle := (keeps_settleSuccessors (s.put index n (s.placingTime n)) n
    fun _ _ => rfl : Keeps Node.readyTime _ _).node?_eq u
  rw [readyTime?, cleared, hsettle]
  exact map_node?_modify Node.readyTime (marked _) (fun _ => s.placingTime n) (fun _ => rfl)
    s.graph index u

theorem lastWait_cleared : lastWait (s.cleared index n).graph = lastWait s.graph := by
  funext u
  have hcleared : outdegree? (s.cleared index n).graph u = outdegree? s.graph u :=
    (keeps_cleared s index n fun _ _ _ _ => rfl).node?_eq u
  rw [lastWait, hcleared, lastWait]

theorem ready_place (nodup : (n.predecessors.map (·.target)).Nodup) :
    (s.place index n).ready = s.ready.filter (· ≠ index) ++
      (n.predecessors.map (·.target)).filter (lastWait s.graph) := by
  rw [place_eq, ready_foldl_relieve nodup, lastWait_cleared]
  rfl

theorem placed_place : (s.place index n).placed = n.instr.id :: s.placed := by
  obtain ⟨graph, ready, hrelieve⟩ :=
    foldl_relieve_eq (n.predecessors.map (·.target)) (s.cleared index n)
  rw [place_eq, hrelieve]
  rfl

end Place

end ScheduleState

end LatencyHiding
