import LatencyHiding.Proofs.Dependence.Construction

set_option autoImplicit false

namespace LatencyHiding

variable {τ β : Type}

def Node.label (n : Node τ) : Site × Nat × τ × List (Resource × Usage) :=
  (n.toSite, n.position, n.cost, n.uses)

namespace Graph

section Edges

variable {view : Node τ → β} (hview : ∀ n s o p i,
  view { n with successors := s, outdegree := o, predecessors := p, indegree := i } = view n)

include hview

theorem keeps_pushEdge (g : Graph τ) (source sink : Nat) (latency : τ) :
    Keeps view g (g.pushEdge source sink latency) := by
  rw [pushEdge_eq]
  have hsource := Keeps.modify g source (withSuccessor ⟨sink, latency⟩)
    fun n => hview n _ _ n.predecessors n.indegree
  exact hsource.trans
    (Keeps.modify _ sink (withPredecessor _) fun n => hview n n.successors n.outdegree _ _)

theorem keeps_connect (latency : Node τ → Node τ → τ) (sink : Nat) (g : Graph τ) (source : Nat) :
    Keeps view g (connect latency sink g source) := by
  unfold connect
  split
  · exact keeps_pushEdge hview g source sink _
  · exact Keeps.refl view g

theorem keeps_linkNode {latency : Node τ → Node τ → τ} {g h : Graph τ} {sink : Nat}
    (hlink : linkNode latency g sink = .ok h) : Keeps view g h := by
  unfold linkNode at hlink
  split at hlink
  · rw [← Except.ok.inj hlink]
    exact Keeps.refl view g
  · next n hn =>
    obtain ⟨sources, _, rfl⟩ := (bind_pure_eq_ok_iff _ _ _).1 hlink
    exact Keeps.foldl (keeps_connect hview latency sink) _ g

theorem keeps_foldlM_linkNode {latency : Node τ → Node τ → τ} {g h : Graph τ} (l : List Nat)
    (hlink : l.foldlM (linkNode latency) g = .ok h) : Keeps view g h := by
  induction l generalizing g with
  | nil =>
    obtain rfl : g = h := Except.ok.inj hlink
    exact Keeps.refl view g
  | cons sink rest ih =>
    obtain ⟨mid, hmid, hrest⟩ := (foldlM_cons_eq_ok_iff _ _ _ _ _).1 hlink
    exact (keeps_linkNode hview hmid).trans (ih hrest)

end Edges

section Labels

variable [TimeScale τ] {c : Computation} {sequence : List Nat} {latency : Node τ → Node τ → τ}
  {estimator : Estimator τ} {tracker : AsyncTracker τ} {g : Graph τ}

section Views

variable (view : Node τ → β) (hedges : ∀ n s o p i,
    view { n with successors := s, outdegree := o, predecessors := p, indegree := i } = view n)
  (hdepths : ∀ n a d, view { n with asyncDepth := a, depth := d } = view n)

include hedges hdepths

theorem keeps_demand (g : Graph τ) (d : OrderDemand τ) : Keeps view g (g.demand d) := by
  unfold demand
  split
  · unfold addEdge
    split
    · exact Keeps.refl _ g
    · exact (keeps_pushEdge hedges g _ _ _).trans (keeps_withDepths hdepths _)
  · exact Keeps.refl _ g

/-- What neither edges nor depths can change is as it was made, but for the delays. -/
theorem exists_made_of_build (hc : c.Wired)
    (hbuild : buildWith latency c sequence estimator tracker = .ok g) : ∃ h : Graph τ,
      (∀ (u : Nat) (n : Node τ), h.node? u = some n → c.instruction? n.instr.id = some n.instr ∧
        view n = view (makeNode estimator tracker n.instr u)) ∧
      g = { h with nodes := h.nodes.map fun n =>
        if tracker.delays c n.instr then setForceDelay true n else n } := by
  obtain ⟨nodes, linked, happend, hlink, rfl⟩ := (build_eq_ok_iff _ _ _ _ _ g).1 hbuild
  obtain ⟨bare, _⟩ :=
    foldlM_appendNode_ok hc (bare_empty c estimator tracker) List.nodup_nil happend
  let demanded := (tracker.demands linked.withDepths.computation).foldl demand linked.withDepths
  have hkeeps {γ : Type} (sight : Node τ → γ)
      (hedges : ∀ n s o p i, sight { n with
        successors := s, outdegree := o, predecessors := p, indegree := i } = sight n)
      (hdepths : ∀ n a d, sight { n with asyncDepth := a, depth := d } = sight n) :
      Keeps sight nodes demanded :=
    ((keeps_foldlM_linkNode hedges _ hlink).trans (keeps_withDepths hdepths linked)).trans
      (Keeps.foldl (keeps_demand sight hedges hdepths) _ _)
  refine ⟨demanded, ?_, ?_⟩
  · intro u n hn
    obtain ⟨m, hm, hsame⟩ := (hkeeps (fun n => (n.toSite, view n))
      (fun n s o p i => by rw [hedges]) (fun n a d => by rw [hdepths])).exists_node? hn
    obtain ⟨p, hp, rfl⟩ := bare.made u m hm
    obtain ⟨hsite, hview⟩ := Prod.mk.inj hsame
    obtain rfl : p = n.instr := congrArg Site.instr hsite
    exact ⟨hp, hview.symm⟩
  · have hcomputation : demanded.computation = c :=
      (hkeeps view hedges hdepths).computation_eq.trans bare.computation_eq
    rw [← hcomputation]
    rfl

theorem view_of_build (hdelay : ∀ n value, view (setForceDelay value n) = view n) (hc : c.Wired)
    (hbuild : buildWith latency c sequence estimator tracker = .ok g) {u : Nat} {n : Node τ}
    (hn : g.node? u = some n) : c.instruction? n.instr.id = some n.instr ∧
      view n = view (makeNode estimator tracker n.instr u) := by
  obtain ⟨h, hmade, rfl⟩ := exists_made_of_build view hedges hdepths hc hbuild
  obtain ⟨m, hm, hsame⟩ := (keeps_delayed h (fun n value => by rw [hdelay]; rfl)
    (tracker.delays c) : Keeps (fun n => (n.toSite, view n)) _ _).exists_node? hn
  obtain ⟨hsite, hview⟩ := Prod.mk.inj hsame
  obtain ⟨hknown, hmade⟩ := hmade u m hm
  rw [(congrArg Site.instr hsite : m.instr = n.instr)] at hknown hmade
  exact ⟨hknown, hview.symm.trans hmade⟩

end Views

theorem label_of_build (hc : c.Wired) (hbuild : buildWith latency c sequence estimator tracker = .ok g)
    {u : Nat} {n : Node τ} (hn : g.node? u = some n) :
    c.instruction? n.instr.id = some n.instr ∧
      n.label = (makeNode estimator tracker n.instr u).label :=
  view_of_build _ (fun _ _ _ _ _ => rfl) (fun _ _ _ => rfl) (fun _ _ => rfl) hc hbuild hn

theorem readyTime_of_build (hc : c.Wired) (hbuild : buildWith latency c sequence estimator tracker = .ok g)
    {u : Nat} {n : Node τ} (hn : g.node? u = some n) : n.readyTime = TimeScale.zero :=
  (view_of_build Node.readyTime (fun _ _ _ _ _ => rfl) (fun _ _ _ => rfl)
    (fun _ _ => rfl) hc hbuild hn).2

theorem forceDelay_of_build (hc : c.Wired) (hbuild : buildWith latency c sequence estimator tracker = .ok g)
    {u : Nat} {n : Node τ} (hn : g.node? u = some n) :
    n.forceDelay = (n.instr.hint == some .earliest || tracker.delays c n.instr) := by
  obtain ⟨h, hmade, rfl⟩ := exists_made_of_build Node.forceDelay (fun _ _ _ _ _ => rfl)
    (fun _ _ _ => rfl) hc hbuild
  obtain ⟨m, hm, rfl⟩ : ∃ m, h.node? u = some m ∧
      (if tracker.delays c m.instr then setForceDelay true m else m) = n := by
    rw [node?, List.getElem?_map] at hn
    exact Option.map_eq_some_iff.1 hn
  have hdelay := (hmade u m hm).2
  split
  · next hlate =>
    change true = (m.instr.hint == some .earliest || tracker.delays c m.instr)
    rw [hlate, Bool.or_true]
  · next hlate =>
    rw [Bool.not_eq_true] at hlate
    rw [hlate, Bool.or_false, hdelay]
    rfl

end Labels

def Estimated (estimator : Estimator τ) (g : Graph τ) : Prop :=
  ∀ (u v : Nat) (latency : τ) (m n : Node τ), ⟨v, latency⟩ ∈ g.outgoing u → g.node? u = some m →
    g.node? v = some n → latency = estimator.latency m.toSite n.toSite

namespace Estimated

variable {estimator : Estimator τ} {g h : Graph τ}

theorem keeps (estimated : g.Estimated estimator) (hsite : Keeps Node.toSite g h)
    (hsucc : Keeps Node.successors g h) : h.Estimated estimator := by
  intro u v latency m n hedge hm hn
  obtain ⟨m', hm', hsame⟩ := hsite.exists_node? hm
  obtain ⟨n', hn', hsame'⟩ := hsite.exists_node? hn
  rw [hsucc.outgoing_eq] at hedge
  rw [← hsame, ← hsame']
  exact estimated u v latency m' n' hedge hm' hn'

theorem pushEdge (estimated : g.Estimated estimator) {source sink : Nat} {m n : Node τ}
    (hm : g.node? source = some m) (hn : g.node? sink = some n) :
    (g.pushEdge source sink (estimator.latency m.toSite n.toSite)).Estimated estimator := by
  intro u v latency p q hedge hp hq
  have hsite := keeps_toSite_pushEdge g source sink (estimator.latency m.toSite n.toSite)
  obtain ⟨p', hp', hsame⟩ := hsite.exists_node? hp
  obtain ⟨q', hq', hsame'⟩ := hsite.exists_node? hq
  rw [outgoing_pushEdge ((lt_size_iff g source).2 ⟨m, hm⟩)] at hedge
  rw [← hsame, ← hsame']
  split at hedge
  · next hu =>
    subst hu
    rcases List.mem_append.1 hedge with hold | hnew
    · exact estimated source v latency p' q' hold hp' hq'
    · obtain ⟨rfl, rfl⟩ := Edge.mk.inj (List.mem_singleton.1 hnew)
      rw [Option.some.inj (hp'.symm.trans hm), Option.some.inj (hq'.symm.trans hn)]
  · exact estimated u v latency p' q' hedge hp' hq'

theorem connect (estimated : g.Estimated estimator) (sink source : Nat) :
    (connect estimator.onNodes sink g source).Estimated estimator := by
  unfold Graph.connect
  split
  · next m n hm hn => exact estimated.pushEdge hm hn
  · exact estimated

theorem foldlM_linkNode (estimated : g.Estimated estimator) (l : List Nat)
    (hlink : l.foldlM (linkNode estimator.onNodes) g = .ok h) : h.Estimated estimator := by
  have hconnect (sink : Nat) (found : List Nat) {g : Graph τ} (estimated : g.Estimated estimator) :
      (found.foldl (Graph.connect estimator.onNodes sink) g).Estimated estimator := by
    induction found generalizing g with
    | nil => exact estimated
    | cons source rest ih => exact ih (estimated.connect sink source)
  induction l generalizing g with
  | nil =>
    obtain rfl : g = h := Except.ok.inj hlink
    exact estimated
  | cons sink rest ih =>
    obtain ⟨mid, hmid, hrest⟩ := (foldlM_cons_eq_ok_iff _ _ _ _ _).1 hlink
    refine ih ?_ hrest
    unfold linkNode at hmid
    split at hmid
    · rw [← Except.ok.inj hmid]
      exact estimated
    · obtain ⟨sources, _, rfl⟩ := (bind_pure_eq_ok_iff _ _ _).1 hmid
      exact hconnect sink _ estimated

end Estimated

theorem Bare.estimated [TimeScale τ] {c : Computation} {estimator : Estimator τ}
    {tracker : AsyncTracker τ} {g : Graph τ} (bare : g.Bare c estimator tracker) :
    g.Estimated estimator := by
  intro u v latency m n hedge
  rw [bare.outgoing_eq_nil] at hedge
  cases hedge

theorem keeps_adjust_of_free [TimeScale τ] {view : Node τ → β}
    (hview : ∀ n value, view (setForceDelay value n) = view n) {tracker : AsyncTracker τ}
    (free : ∀ c, tracker.demands c = []) (g : Graph τ) : Keeps view g (g.adjust tracker) := by
  unfold adjust
  rw [free, List.foldl_nil]
  exact keeps_delayed g hview (tracker.delays g.computation)

theorem estimated_of_build [TimeScale τ] {c : Computation} {sequence : List Nat}
    {estimator : Estimator τ} {tracker : AsyncTracker τ} {g : Graph τ} (hc : c.Wired)
    (free : ∀ c, tracker.demands c = []) (hbuild : build c sequence estimator tracker = .ok g) :
    g.Estimated estimator := by
  obtain ⟨nodes, linked, happend, hlink, rfl⟩ := (build_eq_ok_iff _ _ _ _ _ g).1 hbuild
  obtain ⟨bare, _⟩ :=
    foldlM_appendNode_ok hc (bare_empty c estimator tracker) List.nodup_nil happend
  have hlinked := bare.estimated.foldlM_linkNode _ hlink
  have hdeep := hlinked.keeps (keeps_withDepths (fun _ _ _ => rfl) linked)
    (keeps_withDepths (fun _ _ _ => rfl) linked)
  exact hdeep.keeps (keeps_adjust_of_free (fun _ _ => rfl) free _)
    (keeps_adjust_of_free (fun _ _ => rfl) free _)

end Graph

end LatencyHiding
