import LatencyHiding.Proofs.Dependence.Cycles
import LatencyHiding.Proofs.Dependence.Edges
import LatencyHiding.Proofs.Program.Precedence
import LatencyHiding.Proofs.TimeScale.Laws

set_option autoImplicit false

namespace LatencyHiding

variable {τ : Type}

def Node.undeepened [TimeScale τ] (n : Node τ) : Node τ :=
  { n with asyncDepth := TimeScale.zero, depth := TimeScale.zero }

def Node.reach (n : Node τ) : Site × List (Edge τ) × τ × τ × τ :=
  (n.toSite, n.predecessors, n.asyncDepth, n.depth, n.cost)

namespace Graph

def Awaits (g : Graph τ) (u v : Nat) : Prop := g.Leads v u

namespace Visit

def lastWait (v : Visit τ) (u : Nat) : Bool := (v.remaining[u]?).any (· ≤ 1)

theorem remaining_countDown (v : Visit τ) (i u : Nat) :
    (v.countDown i).remaining[u]? =
      if u = i then (v.remaining[u]?).map (· - 1) else v.remaining[u]? := by
  change (v.remaining.modify i (· - 1))[u]? = _
  rw [List.getElem?_modify]
  by_cases hu : u = i
  · simp [hu]
  · simp [hu, Ne.symm hu]

theorem queue_countDown (v : Visit τ) (i : Nat) :
    (v.countDown i).queue = v.queue ++ [i].filter v.lastWait := by
  have hzero : (v.remaining.modify i (· - 1))[i]? = some 0 ↔ v.lastWait i = true := by
    rw [List.getElem?_modify, lastWait]
    cases v.remaining[i]? with
    | none => simp
    | some k =>
      simp
      omega
  unfold countDown
  simp only [hzero]
  by_cases hlast : v.lastWait i = true
  · simp [hlast]
  · simp [hlast]

theorem remaining_foldl_countDown {l : List Nat} (nodup : l.Nodup) (v : Visit τ) (u : Nat) :
    (l.foldl countDown v).remaining[u]? =
      if u ∈ l then (v.remaining[u]?).map (· - 1) else v.remaining[u]? :=
  foldl_once (fun v u => v.remaining[u]?) countDown _ remaining_countDown nodup v u

theorem queue_foldl_countDown {l : List Nat} (nodup : l.Nodup) (v : Visit τ) :
    (l.foldl countDown v).queue = v.queue ++ l.filter v.lastWait := by
  apply foldl_append_once Visit.queue lastWait countDown queue_countDown _ nodup
  intro v i u hui
  rw [lastWait, remaining_countDown, if_neg hui, lastWait]

end Visit

variable [TimeScale τ]

def Deep (g : Graph τ) (u : Nat) : Prop :=
  ∀ n, g.node? u = some n → n.asyncDepth = g.asyncDepthOf n ∧ n.depth = g.depthOf n

theorem depths_congr {g h : Graph τ} {m n : Node τ} (hsite : m.toSite = n.toSite)
    (hpred : m.predecessors = n.predecessors)
    (hsame : ∀ e ∈ n.predecessors,
      (h.node? e.target).map Node.reach = (g.node? e.target).map Node.reach) :
    h.asyncDepthOf m = g.asyncDepthOf n ∧ h.depthOf m = g.depthOf n := by
  have hread {β : Type} (f : Site × List (Edge τ) × τ × τ × τ → Edge τ → β) :
      (n.predecessors.filterMap fun e => (h.node? e.target).map fun p => f p.reach e) =
        n.predecessors.filterMap fun e => (g.node? e.target).map fun p => f p.reach e := by
    apply List.filterMap_congr
    intro e he
    have hviews := congrArg (Option.map fun reach => f reach e) (hsame e he)
    rwa [Option.map_map, Option.map_map] at hviews
  unfold asyncDepthOf depthOf
  rw [hsite, hpred]
  exact ⟨congrArg _ (hread fun reach e => reach.2.2.1 +
      (if reach.1.isAsyncPair n.toSite then e.latency else TimeScale.zero)),
    congrArg _ (hread fun reach e => reach.2.2.2.1 + reach.2.2.2.2 + e.latency)⟩

theorem Deep.keeps {g h : Graph τ} {u : Nat} (deep : g.Deep u) (hkeeps : Keeps Node.reach g h) :
    h.Deep u := by
  intro n hn
  obtain ⟨m, hm, hsame⟩ := hkeeps.exists_node? hn
  simp only [Node.reach, Prod.mk.injEq] at hsame
  obtain ⟨hsite, hpred, hasync, hdepth, _⟩ := hsame
  have hcongr := depths_congr (g := g) (h := h) hsite.symm hpred.symm
    fun e _ => hkeeps.node?_eq e.target
  rw [← hasync, ← hdepth, hcongr.1, hcongr.2]
  exact deep m hm

namespace Visit

/-- A visit of `g` that has taken the nodes of `done`, the last one first. -/
structure Visited (g : Graph τ) (done : List Nat) (v : Visit τ) : Prop where
  keeps : Keeps Node.undeepened g v.graph
  nodup : done.Nodup
  lt_size : ∀ u ∈ done, u < g.size
  grounded : Grounded g.Awaits done
  remaining_eq : ∀ (u : Nat) (n : Node τ), g.node? u = some n →
    v.remaining[u]? = some ((n.predecessors.map (·.target)).filter (· ∉ done)).length
  queue_nodup : v.queue.Nodup
  mem_queue_iff : ∀ u : Nat, u ∈ v.queue ↔
    u < g.size ∧ u ∉ done ∧ ∀ w, g.Awaits u w → w ∈ done
  deep : ∀ u ∈ done, v.graph.Deep u

variable {g : Graph τ} {done : List Nat} {v : Visit τ}

theorem visited_start (linked : g.Linked) : Visited g [] (.start g) where
  keeps := Keeps.refl _ g
  nodup := List.nodup_nil
  lt_size := List.forall_mem_nil _
  grounded := trivial
  remaining_eq u n hn := by
    have hu : g.nodes[u]? = some n := hn
    simp [start, hu]
  queue_nodup := List.nodup_range.filter _
  mem_queue_iff u := by
    unfold start Awaits
    rw [List.mem_filter, List.mem_range]
    apply and_congr_right
    intro hu
    obtain ⟨n, hn⟩ := (lt_size_iff g u).1 hu
    simp [hn, ← linked.mem_predecessors_iff hn, List.eq_nil_iff_forall_not_mem]
  deep := List.forall_mem_nil _

namespace Visited

theorem step_eq {i : Nat} {rest : List Nat} (hqueue : v.queue = i :: rest) {n : Node τ}
    (hn : v.graph.node? i = some n) :
    v.step = (n.successors.map (·.target)).foldl countDown
      { v with
        graph := v.graph.modify i fun m =>
          { m with asyncDepth := v.graph.asyncDepthOf n, depth := v.graph.depthOf n }
        queue := rest } := by
  unfold step
  simp only [hqueue, hn]

section Step

variable (visited : Visited g done v) (linked : g.Linked) {i : Nat} {rest : List Nat}
  (hqueue : v.queue = i :: rest)

include visited hqueue

theorem head_spec : i < g.size ∧ i ∉ done ∧ (∀ w, g.Awaits i w → w ∈ done) ∧ i ∉ rest ∧
    rest.Nodup := by
  have hi := (visited.mem_queue_iff i).1 (hqueue ▸ List.mem_cons_self)
  have hnodup := visited.queue_nodup
  rw [hqueue, List.nodup_cons] at hnodup
  exact ⟨hi.1, hi.2.1, hi.2.2, hnodup.1, hnodup.2⟩

include linked

theorem lastWait_iff {u : Nat} (hlead : g.Leads i u) :
    v.lastWait u = true ↔ ∀ w, g.Awaits u w → w ∈ i :: done := by
  obtain ⟨_, hnot, _⟩ := visited.head_spec hqueue
  obtain ⟨m, hm⟩ := (lt_size_iff g u).1 (linked.lt_size hlead).2
  have hcount := length_filter_cons (linked.nodup_predecessors hm) hnot
  rw [if_pos ((linked.mem_predecessors_iff hm i).2 hlead)] at hcount
  have hone : 0 < ((m.predecessors.map (·.target)).filter (· ∉ done)).length := by
    apply List.length_pos_of_mem (a := i)
    simpa [hnot] using (linked.mem_predecessors_iff hm i).2 hlead
  have hwait : v.lastWait u = true ↔
      (m.predecessors.map (·.target)).filter (· ∉ i :: done) = [] := by
    rw [lastWait, visited.remaining_eq u m hm, ← List.length_eq_zero_iff, hcount]
    simp only [Option.any_some, decide_eq_true_eq]
    omega
  rw [hwait, List.filter_eq_nil_iff]
  simp only [linked.mem_predecessors_iff hm, decide_eq_true_eq, not_not]
  rfl

theorem mem_queue_step_iff (u : Nat) {n : Node τ} (hn : g.node? i = some n) :
    u ∈ rest ++ (n.successors.map (·.target)).filter v.lastWait ↔
      u < g.size ∧ u ∉ i :: done ∧ ∀ w, g.Awaits u w → w ∈ i :: done := by
  obtain ⟨hsize, hnot, hbefore, hrest, _⟩ := visited.head_spec hqueue
  have hqueued := visited.mem_queue_iff u
  rw [hqueue, List.mem_cons] at hqueued
  rw [List.mem_append, List.mem_filter, mem_successors_iff hn, List.mem_cons, not_or]
  by_cases hlead : g.Leads i u
  · have hi : i ≠ u := fun h => hnot (hbefore i (h ▸ hlead))
    have hlast := visited.lastWait_iff linked hqueue hlead
    have hdone : u ∉ done := fun hu => hnot (visited.grounded.mem_of_rel hu hlead)
    have hnotqueued : u ∉ rest := fun hu => hnot ((hqueued.1 (Or.inr hu)).2.2 i hlead)
    simp only [hnotqueued, hlead, hlast, true_and, false_or, (linked.lt_size hlead).2, hdone,
      hi.symm, not_false_eq_true]
  · have hawaits : (∀ w, g.Awaits u w → w ∈ i :: done) ↔ ∀ w, g.Awaits u w → w ∈ done := by
      refine forall_congr' fun w => imp_congr_right fun hw => ?_
      rw [List.mem_cons, or_iff_right]
      rintro rfl
      exact hlead hw
    rw [hawaits]
    by_cases hi : u = i
    · subst hi
      simp [hrest, hlead]
    · simp only [hi, false_or] at hqueued
      simp [hqueued, hlead, hi]

theorem deep_step {n : Node τ} (hn : v.graph.node? i = some n) :
    ∀ u ∈ i :: done, Deep (v.graph.modify i fun m =>
      { m with asyncDepth := v.graph.asyncDepthOf n, depth := v.graph.depthOf n }) u := by
  obtain ⟨_, hnot, hbefore, _, _⟩ := visited.head_spec hqueue
  have hpred : Keeps Node.predecessors g v.graph :=
    visited.keeps.map Node.predecessors fun _ _ h => (congrArg Node.predecessors h :)
  -- the node at `i` is no predecessor of a visited one, nor of itself
  have hother {u : Nat} (hu : u ∈ i :: done) {m : Node τ} (hm : v.graph.node? u = some m) :
      ∀ e ∈ m.predecessors, i ≠ e.target := by
    intro e he hie
    have hawaits : g.Awaits u e.target := by
      rw [Awaits, linked.leads_iff, ← hpred.incoming_eq, incoming_eq hm]
      exact List.mem_map_of_mem he
    rcases List.mem_cons.1 hu with rfl | hu
    · exact hnot (hie ▸ hbefore _ hawaits)
    · exact hnot (hie ▸ visited.grounded.mem_of_rel hu hawaits)
  intro u hu m hm
  rw [node?_modify] at hm
  split at hm
  · next hiu =>
    subst hiu
    rw [hn, Option.map_some, Option.some.injEq] at hm
    subst hm
    have hsame := depths_congr (h := v.graph.modify i fun m =>
      { m with asyncDepth := v.graph.asyncDepthOf n, depth := v.graph.depthOf n }) (g := v.graph)
      (m := { n with asyncDepth := v.graph.asyncDepthOf n, depth := v.graph.depthOf n }) (n := n)
      rfl rfl fun e he => by rw [node?_modify, if_neg (hother hu hn e he)]
    exact ⟨hsame.1.symm, hsame.2.symm⟩
  · next hiu =>
    have hdone : u ∈ done := (List.mem_cons.1 hu).resolve_left (Ne.symm hiu)
    have hsame := depths_congr (h := v.graph.modify i fun m =>
      { m with asyncDepth := v.graph.asyncDepthOf n, depth := v.graph.depthOf n }) (g := v.graph)
      (m := m) (n := m) rfl rfl fun e he => by rw [node?_modify, if_neg (hother hu hm e he)]
    rw [hsame.1, hsame.2]
    exact visited.deep u hdone m hm

theorem step : Visited g (i :: done) v.step := by
  obtain ⟨hsize, hnot, hbefore, hrest, hnodup⟩ := visited.head_spec hqueue
  obtain ⟨n, hn⟩ := (lt_size_iff v.graph i).1 (by rwa [visited.keeps.size_eq])
  obtain ⟨old, hold, hsame⟩ := visited.keeps.exists_node? hn
  have hsucc : old.successors = n.successors := (congrArg Node.successors hsame :)
  have htargets : (n.successors.map (·.target)).Nodup := hsucc ▸ linked.nodup_successors hold
  have hstep := step_eq hqueue hn
  have hnext : v.step.queue = rest ++ (n.successors.map (·.target)).filter v.lastWait := by
    rw [hstep, queue_foldl_countDown htargets]
    rfl
  exact
    { keeps := visited.keeps.trans (keeps_step (fun _ _ _ => rfl) v)
      nodup := List.nodup_cons.2 ⟨hnot, visited.nodup⟩
      lt_size := List.forall_mem_cons.2 ⟨hsize, visited.lt_size⟩
      grounded := ⟨hbefore, visited.grounded⟩
      remaining_eq := by
        intro u m hm
        have hmem : u ∈ n.successors.map (·.target) ↔ i ∈ m.predecessors.map (·.target) := by
          rw [← hsucc, mem_successors_iff hold, linked.mem_predecessors_iff hm]
        rw [hstep, remaining_foldl_countDown htargets,
          length_filter_cons (linked.nodup_predecessors hm) hnot, visited.remaining_eq u m hm]
        simp only [hmem]
        split <;> rfl
      queue_nodup := by
        rw [hnext]
        refine hnodup.append (htargets.filter _) ?_
        intro u hu hnew
        have hlead : g.Leads i u := by
          rw [← mem_successors_iff hold, hsucc]
          exact (List.mem_filter.1 hnew).1
        have hqueued := (visited.mem_queue_iff u).1 (hqueue ▸ List.mem_cons_of_mem i hu)
        exact hnot (hqueued.2.2 i hlead)
      mem_queue_iff := by
        intro u
        rw [hnext, ← hsucc]
        exact visited.mem_queue_step_iff linked hqueue u hold
      deep := by
        rw [hstep, graph_foldl_countDown]
        exact visited.deep_step linked hqueue hn }

end Step

/-- A visit takes a node at every step, until nothing is left in the queue. -/
theorem steps (visited : Visited g done v) (linked : g.Linked) (k : Nat) :
    ∃ final, Visited g final (v.steps k) ∧
      ((v.steps k).queue = [] ∨ final.length = done.length + k) := by
  induction k generalizing done v with
  | zero => exact ⟨done, visited, Or.inr rfl⟩
  | succ k ih =>
    cases hqueue : v.queue with
    | nil =>
      have hstop (k : Nat) : v.steps k = v := by
        have hstep : v.step = v := by simp [Visit.step, hqueue]
        induction k with
        | zero => rfl
        | succ k ih => rw [Visit.steps, hstep, ih]
      rw [hstop]
      exact ⟨done, visited, Or.inl hqueue⟩
    | cons i rest =>
      obtain ⟨final, hfinal, hlength⟩ := ih (visited.step linked hqueue)
      refine ⟨final, hfinal, hlength.imp_right ?_⟩
      intro hlength
      rw [hlength, List.length_cons]
      omega

end Visited

/-- At the end everything is visited that no cycle leads to. -/
theorem exists_exhausted (linked : g.Linked) : ∃ done, Visited g done ((start g).steps g.size) ∧
    Exhausted g.Awaits (List.range g.size) done := by
  obtain ⟨done, visited, hend⟩ := (visited_start linked).steps linked g.size
  have hsub : done ⊆ List.range g.size := fun u hu => List.mem_range.2 (visited.lt_size u hu)
  have hempty : ((start g).steps g.size).queue = [] := by
    rcases hend with hempty | hlength
    · exact hempty
    · rw [List.eq_nil_iff_forall_not_mem]
      intro u hu
      obtain ⟨hsize, hnot, _⟩ := (visited.mem_queue_iff u).1 hu
      have hperm : done.Perm (List.range g.size) :=
        (List.subperm_of_subset visited.nodup hsub).perm_of_length_le (by simp [hlength])
      exact hnot (hperm.mem_iff.2 (List.mem_range.2 hsize))
  refine ⟨done, visited, visited.nodup, hsub, visited.grounded, ?_⟩
  intro u hu hnot
  have hqueue := (visited.mem_queue_iff u).not.1 (hempty ▸ List.not_mem_nil)
  simp only [List.mem_range.1 hu, hnot, true_and, not_false_eq_true, not_forall] at hqueue
  obtain ⟨w, hw, hmissing⟩ := hqueue
  exact ⟨w, List.mem_range.2 (linked.lt_size hw).1, hmissing, hw⟩

end Visit

/-- The depths of a node that no cycle leads to are longest paths. -/
theorem deep_withDepths {g : Graph τ} (linked : g.Linked) {u : Nat}
    (hcycle : ¬ ReachesCycle g.Awaits u) : g.withDepths.Deep u := by
  intro n hn
  obtain ⟨done, visited, exhausted⟩ := Visit.exists_exhausted linked
  have hu : u < g.size := by
    rw [← (keeps_withDepths (fun _ _ _ => rfl) g : Keeps Node.undeepened _ _).size_eq]
    exact (lt_size_iff _ u).2 ⟨n, hn⟩
  apply visited.deep u _ n hn
  by_contra hnot
  exact hcycle (exhausted.reachesCycle (List.mem_range.2 hu) hnot)

section Readings

open TimeScale

variable [Ordered τ]

theorem Visit.isReading_asyncDepth_step (v : Visit τ)
    (h : ∀ n ∈ v.graph.nodes, IsReading n.asyncDepth) :
    ∀ n ∈ v.step.graph.nodes, IsReading n.asyncDepth := by
  unfold step
  split
  · exact h
  · split
    · exact h
    · rw [graph_foldl_countDown]
      exact forall_nodes_modify h (fun _ _ => isReading_zero.latest _) _

/-- Depths are readings wherever a visit has come to, and cycles do not matter for that. -/
theorem isReading_asyncDepth_withDepths {g : Graph τ} (h : ∀ n ∈ g.nodes, IsReading n.asyncDepth) :
    ∀ n ∈ g.withDepths.nodes, IsReading n.asyncDepth := by
  have hsteps (k : Nat) (v : Visit τ) (h : ∀ n ∈ v.graph.nodes, IsReading n.asyncDepth) :
      ∀ n ∈ (v.steps k).graph.nodes, IsReading n.asyncDepth := by
    induction k generalizing v with
    | zero => exact h
    | succ k ih => exact ih v.step (v.isReading_asyncDepth_step h)
  exact hsteps g.size (.start g) h

end Readings

end Graph

end LatencyHiding
