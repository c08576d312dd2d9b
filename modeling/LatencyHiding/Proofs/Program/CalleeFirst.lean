import LatencyHiding.Proofs.Digraph.DepthFirst
import LatencyHiding.Proofs.Program.CallStack
import LatencyHiding.Proofs.Program.Schedules

set_option autoImplicit false

namespace LatencyHiding.Module

open Relation LatencyHiding.Digraph

variable {m : Module}

def Calls (m : Module) (a b : String) : Prop :=
  ∃ c ∈ m.computations, c.name = a ∧ ∃ p ∈ c.instructions, b ∈ p.calls

theorem acyclic_of_rank (rank : String → Nat) (hrank : ∀ c ∈ m.computations, ∀ p ∈ c.instructions,
    ∀ callee ∈ p.calls, rank callee < rank c.name) (name : String) :
    ¬ TransGen m.Calls name name := by
  have hchain {a b : String} (h : TransGen m.Calls a b) : rank b < rank a := by
    induction h with
    | single h =>
      obtain ⟨c, hc, rfl, p, hp, hcallee⟩ := h
      exact hrank c hc p hp _ hcallee
    | tail _ h ih =>
      obtain ⟨c, hc, rfl, p, hp, hcallee⟩ := h
      exact Nat.lt_trans (hrank c hc p hp _ hcallee) ih
  exact fun hcycle => Nat.lt_irrefl _ (hchain hcycle)

def calleesOf (m : Module) (name : String) : List String :=
  ((m.find? name).map (·.callees)).getD []

theorem exists_find? {name : String} (hname : name ∈ m.computations.map (·.name)) :
    ∃ c, m.find? name = some c := by
  obtain ⟨c, hc, hcname⟩ := List.mem_map.1 hname
  apply Option.isSome_iff_exists.1
  rw [find?, List.find?_isSome]
  exact ⟨c, hc, beq_iff_eq.2 hcname⟩

theorem mem_of_find? {name : String} {c : Computation} (h : m.find? name = some c) :
    c ∈ m.computations ∧ c.name = name := by
  have hname := List.find?_some h
  exact ⟨List.mem_of_find?_eq_some h, beq_iff_eq.1 hname⟩

namespace Sound

theorem calleesOf_eq (sound : m.Sound) {c : Computation} (hc : c ∈ m.computations) :
    m.calleesOf c.name = c.callees := by
  rw [calleesOf, find?_of_mem sound.nodup hc, Option.map_some, Option.getD_some]

theorem eq_of_name (sound : m.Sound) {c d : Computation} (hc : c ∈ m.computations)
    (hd : d ∈ m.computations) (h : c.name = d.name) : c = d := by
  have hfind := find?_of_mem sound.nodup hc
  rw [h, find?_of_mem sound.nodup hd] at hfind
  exact (Option.some.inj hfind).symm

theorem steps_iff (sound : m.Sound) (a b : String) : Steps m.calleesOf a b ↔ m.Calls a b := by
  constructor
  · intro h
    cases hfind : m.find? a with
    | none =>
      rw [Steps, calleesOf, hfind] at h
      cases h
    | some c =>
      obtain ⟨hc, rfl⟩ := mem_of_find? hfind
      rw [Steps, sound.calleesOf_eq hc, Computation.mem_callees_iff] at h
      exact ⟨c, hc, rfl, h⟩
  · rintro ⟨c, hc, rfl, h⟩
    rw [Steps, sound.calleesOf_eq hc, Computation.mem_callees_iff]
    exact h

theorem calleesOf_known (sound : m.Sound) {name : String}
    (hname : name ∈ m.computations.map (·.name)) :
    ∀ callee ∈ m.calleesOf name, callee ∈ m.computations.map (·.name) := by
  obtain ⟨c, hc, rfl⟩ := List.mem_map.1 hname
  rw [sound.calleesOf_eq hc]
  exact sound.callees_known c hc

end Sound

theorem visit_installed (m : Module) (schedule : Option Schedule) (depth : Nat) :
    visit { m with schedule } depth = m.visit depth := by
  induction depth with
  | zero => rfl
  | succ depth ih =>
    funext w name
    rw [visit, visit, ih]
    rfl

theorem calleeFirst_installed (m : Module) (schedule : Option Schedule) :
    calleeFirst { m with schedule } = m.calleeFirst := by
  unfold calleeFirst
  rw [calleeFirstNames_eq, calleeFirstNames_eq, visit_installed]
  rfl

def Walk.mirrored (w : Walk) : Digraph.Walk String := ⟨w.visited, w.finished.reverse⟩

theorem mirrored_foldl {step : Walk → String → Walk}
    (step' : Digraph.Walk String → String → Digraph.Walk String) (l : List String)
    (hstep : ∀ name ∈ l, ∀ w, (step w name).mirrored = step' w.mirrored name) (w : Walk) :
    (l.foldl step w).mirrored = l.foldl step' w.mirrored := by
  induction l generalizing w with
  | nil => rfl
  | cons name rest ih =>
    obtain ⟨hname, hrest⟩ := List.forall_mem_cons.1 hstep
    rw [List.foldl_cons, List.foldl_cons, ih hrest, hname]

theorem Sound.mirrored_visit (sound : m.Sound) (depth : Nat) {name : String}
    (hname : name ∈ m.computations.map (·.name)) (w : Walk) :
    (m.visit depth w name).mirrored = Digraph.visit m.calleesOf depth w.mirrored name := by
  induction depth generalizing name w with
  | zero => rfl
  | succ depth ih =>
    obtain ⟨c, hc⟩ := exists_find? hname
    have hcallees : m.calleesOf name = c.callees := by
      rw [calleesOf, hc, Option.map_some, Option.getD_some]
    simp only [visit, hc, Digraph.visit]
    by_cases hvisited : name ∈ w.visited
    · rw [if_pos hvisited, if_pos (show name ∈ w.mirrored.discovered from hvisited)]
    · rw [if_neg hvisited, if_neg (show name ∉ w.mirrored.discovered from hvisited)]
      have hbelow := mirrored_foldl (Digraph.visit m.calleesOf depth) c.callees
        (fun callee hcallee w => ih (sound.calleesOf_known hname callee (hcallees ▸ hcallee)) w)
        { w with visited := name :: w.visited }
      rw [hcallees, show Digraph.Walk.mk (name :: w.mirrored.discovered) w.mirrored.finished =
        Walk.mirrored { w with visited := name :: w.visited } from rfl, ← hbelow]
      simp [Walk.mirrored]

theorem Sound.reverse_finished_foldl_visit (sound : m.Sound) {roots : List String}
    (hroots : roots ⊆ m.computations.map (·.name)) :
    (roots.foldl (m.visit (m.computations.length + 1)) {}).finished.reverse =
      (roots.foldl (Digraph.visit m.calleesOf (m.computations.length + 1)) {}).finished :=
  congrArg Digraph.Walk.finished
    (mirrored_foldl _ roots (fun _ hname => sound.mirrored_visit _ (hroots hname)) {})

/-- A name of the entry that is none of the module's leaves the walk where it is. -/
theorem Sound.exists_roots (sound : m.Sound) : ∃ roots ⊆ m.computations.map (·.name),
    m.computations.map (·.name) ⊆ roots ∧ m.calleeFirstNames.reverse =
      (roots.foldl (Digraph.visit m.calleesOf (m.computations.length + 1)) {}).finished := by
  by_cases hentry : m.entry.name ∈ m.computations.map (·.name)
  · have hroots := List.cons_subset.2 ⟨hentry, List.Subset.refl _⟩
    refine ⟨_, hroots, List.subset_cons_self _ _, ?_⟩
    rw [calleeFirstNames_eq]
    exact sound.reverse_finished_foldl_visit hroots
  · have hunknown : m.find? m.entry.name = none := by
      rw [Option.eq_none_iff_forall_ne_some]
      intro c hc
      obtain ⟨hmem, hname⟩ := mem_of_find? hc
      exact hentry (hname ▸ List.mem_map_of_mem hmem)
    refine ⟨_, List.Subset.refl _, List.Subset.refl _, ?_⟩
    rw [calleeFirstNames_eq, List.foldl_cons, visit_of_unknown hunknown]
    exact sound.reverse_finished_foldl_visit (List.Subset.refl _)

namespace Sound

theorem calleeFirstNames_walk (sound : m.Sound) :
    m.calleeFirstNames.Perm (m.computations.map (·.name)) ∧
      ((∀ name, ¬ TransGen m.Calls name name) → Grounded m.Calls m.calleeFirstNames.reverse) := by
  obtain ⟨roots, hknown, hall, hwalk⟩ := sound.exists_roots
  obtain ⟨hsound, hmet⟩ := (Digraph.Walk.Sound.empty m.calleesOf (m.computations.map (·.name)))
    |>.foldl_visit (fun a ha b hb => sound.calleesOf_known ha b hb) roots hknown
  rw [List.length_map] at hsound hmet
  constructor
  · have hnodup := hsound.finished_nodup
    rw [← hwalk] at hnodup hmet
    apply (List.perm_ext_iff_of_nodup (List.nodup_reverse.1 hnodup) sound.nodup).2
    intro name
    rw [← List.mem_reverse]
    refine ⟨fun h => ?_, fun h => hmet (hall h)⟩
    rw [hwalk] at h
    exact hsound.mem_nodes name ((hsound.discovered_iff name).2 (Or.inr h))
  · intro acyclic
    have hsteps : Steps m.calleesOf = m.Calls := funext₂ fun a b => propext (sound.steps_iff a b)
    rw [hwalk, ← hsteps]
    apply hsound.grounded
    rwa [hsteps]

theorem map_name_calleeFirst (sound : m.Sound) :
    m.calleeFirst.map (·.name) = m.calleeFirstNames := by
  have hknown := sound.calleeFirstNames_walk.1.subset
  unfold calleeFirst
  revert hknown
  induction m.calleeFirstNames with
  | nil => exact fun _ => rfl
  | cons name rest ih =>
    intro hknown
    obtain ⟨hname, hrest⟩ := List.cons_subset.1 hknown
    obtain ⟨c, hc⟩ := exists_find? hname
    rw [List.filterMap_cons_some hc, List.map_cons, ih hrest, (mem_of_find? hc).2]

theorem nodup_calleeFirst (sound : m.Sound) : (m.calleeFirst.map (·.name)).Nodup := by
  rw [sound.map_name_calleeFirst]
  exact sound.calleeFirstNames_walk.1.nodup_iff.2 sound.nodup

theorem mem_calleeFirst_iff (sound : m.Sound) (c : Computation) :
    c ∈ m.calleeFirst ↔ c ∈ m.computations := by
  unfold calleeFirst
  rw [List.mem_filterMap]
  constructor
  · rintro ⟨name, _, hc⟩
    exact (mem_of_find? hc).1
  · intro hc
    refine ⟨c.name, ?_, find?_of_mem sound.nodup hc⟩
    exact sound.calleeFirstNames_walk.1.mem_iff.2 (List.mem_map_of_mem hc)

theorem exists_callee_before (sound : m.Sound) (acyclic : ∀ name, ¬ TransGen m.Calls name name)
    {before after : List Computation} {c : Computation} (h : m.calleeFirst = before ++ c :: after)
    {p : Placed} (hp : p ∈ c.instructions) {callee : String} (hcallee : callee ∈ p.calls) :
    callee ∈ before.map (·.name) := by
  have hc : c ∈ m.computations := (sound.mem_calleeFirst_iff c).1 (by simp [h])
  have hgrounded := sound.calleeFirstNames_walk.2 acyclic
  rw [← sound.map_name_calleeFirst, h] at hgrounded
  simp only [List.map_append, List.map_cons, List.reverse_append, List.reverse_cons,
    List.append_assoc, List.singleton_append] at hgrounded
  have hbehind := hgrounded.of_append.1 callee ⟨c, hc, rfl, p, hp, hcallee⟩
  exact List.mem_reverse.1 hbehind

theorem not_mem_before (sound : m.Sound) {before after : List Computation} {c : Computation}
    (h : m.calleeFirst = before ++ c :: after) : c.name ∉ before.map (·.name) := by
  have hnodup := sound.nodup_calleeFirst
  rw [h, List.map_append, List.map_cons] at hnodup
  intro hmem
  exact List.disjoint_of_nodup_append hnodup hmem List.mem_cons_self

theorem not_called_before (sound : m.Sound) (acyclic : ∀ name, ¬ TransGen m.Calls name name)
    {before after : List Computation} {c d : Computation} (h : m.calleeFirst = before ++ c :: after)
    (hd : d ∈ before ++ [c]) {p : Placed} (hp : p ∈ d.instructions) : c.name ∉ p.calls := by
  intro hcall
  obtain ⟨first, rest, hsplit⟩ := List.append_of_mem hd
  have hcalleeFirst : m.calleeFirst = first ++ d :: (rest ++ after) := by
    rw [h, List.append_cons, hsplit, List.append_assoc, List.cons_append]
  have hmem := sound.exists_callee_before acyclic hcalleeFirst hp hcall
  have hprefix : first <+: before := by
    apply List.prefix_of_prefix_length_le ⟨d :: rest, hsplit.symm⟩ (List.prefix_append before [c])
    have hlength := congrArg List.length hsplit
    simp only [List.length_append, List.length_cons, List.length_nil] at hlength
    omega
  exact sound.not_mem_before h (List.map_subset _ hprefix.subset hmem)

theorem perm_calleeFirst (sound : m.Sound) : m.calleeFirst.Perm m.computations :=
  (List.perm_ext_iff_of_nodup (.of_map _ sound.nodup_calleeFirst) (.of_map _ sound.nodup)).2
    sound.mem_calleeFirst_iff

/-- The walk from the entry is the first one, and the walks after it finish the rest. -/
theorem exists_reached_names (sound : m.Sound)
    (hentry : m.entry.name ∈ m.computations.map (·.name)) : ∃ reached others,
      m.calleeFirstNames = reached ++ others ∧
        ∀ name, name ∈ reached ↔ ReflTransGen m.Calls m.entry.name name := by
  have hnodes (a : String) (ha : a ∈ m.computations.map (·.name)) := sound.calleesOf_known ha
  have hsteps : Steps m.calleesOf = m.Calls := funext₂ fun a b => propext (sound.steps_iff a b)
  have hnames := sound.reverse_finished_foldl_visit
    (List.cons_subset.2 ⟨hentry, List.Subset.refl _⟩)
  have hfirst := Walk.Continues.mem_finished_visit_iff hnodes hentry
  have hrest := Walk.Continues.foldl (P := fun _ => True) (m.computations.map (·.name))
    (fun w b _ => (Walk.Continues.visit m.calleesOf (m.computations.length + 1) w b).mono
      fun _ _ => trivial)
    (Digraph.visit m.calleesOf (m.computations.length + 1) {} m.entry.name)
  rw [List.length_map, hsteps] at hfirst
  obtain ⟨later, hlater⟩ := hrest.suffix
  refine ⟨_, later.reverse, ?_, fun name => List.mem_reverse.trans (hfirst name)⟩
  rw [← List.reverse_append, hlater, ← List.foldl_cons, ← hnames, List.reverse_reverse,
    calleeFirstNames_eq]

theorem exists_reached (sound : m.Sound) (hentry : m.entry ∈ m.computations) :
    ∃ reached others, m.calleeFirst = reached ++ others ∧
      (∀ c ∈ reached, ReflTransGen m.Calls m.entry.name c.name) ∧
      ∀ c ∈ others, ¬ ReflTransGen m.Calls m.entry.name c.name := by
  obtain ⟨reached, others, hsplit, hreached⟩ :=
    sound.exists_reached_names (List.mem_map_of_mem hentry)
  have hapart : List.Disjoint reached others := by
    have hnodup := sound.calleeFirstNames_walk.1.nodup_iff.2 sound.nodup
    rw [hsplit] at hnodup
    exact List.disjoint_of_nodup_append hnodup
  have hnamed {names : List String} {c : Computation} (hc : c ∈ names.filterMap m.find?) :
      c.name ∈ names := by
    obtain ⟨name, hname, hfind⟩ := List.mem_filterMap.1 hc
    exact (mem_of_find? hfind).2 ▸ hname
  refine ⟨reached.filterMap m.find?, others.filterMap m.find?, ?_, ?_, ?_⟩
  · rw [calleeFirst, hsplit, List.filterMap_append]
  · exact fun c hc => (hreached c.name).1 (hnamed hc)
  · exact fun c hc h => hapart ((hreached c.name).2 h) (hnamed hc)

end Sound

theorem Made.entry_mem (made : m.Made) : m.entry ∈ m.computations := by
  induction made with
  | assembled _ h => exact (entry_of_assemble h).1
  | scheduled made h ih =>
    obtain ⟨_, rfl⟩ := (setSchedule_eq_ok_iff made.sound.wired _).1 h
    exact ih

/-- Every computation once, those that the entry reaches before all others, and if calls do not go
in circles each one behind all that it calls. -/
theorem calleeFirst_enumerates (made : m.Made) :
    m.calleeFirst.Perm m.computations ∧ (m.calleeFirst.map (·.name)).Nodup ∧
    (∃ reached others, m.calleeFirst = reached ++ others ∧ m.entry ∈ reached ∧
      (∀ c ∈ reached, ReflTransGen m.Calls m.entry.name c.name) ∧
      ∀ c ∈ others, ¬ ReflTransGen m.Calls m.entry.name c.name) ∧
    ((∀ name, ¬ TransGen m.Calls name name) → ∀ before c after,
      m.calleeFirst = before ++ c :: after → ∀ p ∈ c.instructions, ∀ callee ∈ p.calls,
        ∃ d ∈ before, d.name = callee) := by
  have sound := made.sound
  obtain ⟨reached, others, hsplit, hreached, hothers⟩ := sound.exists_reached made.entry_mem
  refine ⟨sound.perm_calleeFirst, sound.nodup_calleeFirst,
    ⟨reached, others, hsplit, ?_, hreached, hothers⟩, ?_⟩
  · have hmem := (sound.mem_calleeFirst_iff m.entry).2 made.entry_mem
    rw [hsplit] at hmem
    exact (List.mem_append.1 hmem).resolve_right fun h => hothers _ h ReflTransGen.refl
  · intro acyclic before c after h p hp callee hcallee
    exact List.mem_map.1 (sound.exists_callee_before acyclic h hp hcallee)

def caller (name : String) (isEntry : Bool) (callees : List String) : Computation :=
  Computation.grown { name, isEntry }
    { name := "w", opcode := .call, shape := .array 8, calls := callees }

theorem built_caller (name : String) (isEntry : Bool) (callees : List String) :
    (caller name isEntry callees).Built := by
  refine .add (.empty name isEntry) ((Computation.add_eq_ok_iff _ _ _).2 ⟨rfl, ?_, rfl⟩)
  simp [Instruction.inputs]

def sharedCallee : Module where
  name := "m"
  computations := [caller "x" false ["a"], caller "main" true ["a", "b"], caller "a" false ["d"],
    caller "b" false ["d"], caller "d" false []]

def circularCalls : Module where
  name := "m"
  computations := [caller "main" true ["a"], caller "x" false ["main"], caller "a" false ["b"],
    caller "b" false ["a"]]

theorem calleeFirst_enumerates_sharedCallee :
    (sharedCallee.calleeFirst.map (·.name) = ["d", "a", "b", "main", "x"] ∧
      ∀ before c after, sharedCallee.calleeFirst = before ++ c :: after →
        ∀ p ∈ c.instructions, ∀ callee ∈ p.calls, ∃ d ∈ before, d.name = callee) ∧
    TransGen circularCalls.Calls "a" "a" ∧
    circularCalls.calleeFirst.map (·.name) = ["b", "a", "main", "x"] ∧
    circularCalls.calleeFirst.Perm circularCalls.computations ∧
    ∃ reached others, circularCalls.calleeFirst = reached ++ others ∧
      circularCalls.entry ∈ reached ∧
      (∀ c ∈ reached, ReflTransGen circularCalls.Calls "main" c.name) ∧
      ∀ c ∈ others, ¬ ReflTransGen circularCalls.Calls "main" c.name := by
  have hshared : sharedCallee.Made := by
    refine .assembled (?_ : ∀ c ∈ sharedCallee.computations, c.Built)
      (rfl : assemble "m" _ (some "main") = .ok sharedCallee)
    simp [sharedCallee, built_caller]
  have hcircular : circularCalls.Made := by
    refine .assembled (?_ : ∀ c ∈ circularCalls.computations, c.Built)
      (rfl : assemble "m" _ (some "main") = .ok circularCalls)
    simp [circularCalls, built_caller]
  have hforth : circularCalls.Calls "a" "b" := by unfold Calls; decide
  have hback : circularCalls.Calls "b" "a" := by unfold Calls; decide
  obtain ⟨_, _, _, hbehind⟩ := calleeFirst_enumerates hshared
  obtain ⟨hperm, _, hreached, _⟩ := calleeFirst_enumerates hcircular
  refine ⟨⟨by decide, hbehind ?_⟩, (TransGen.single hforth).tail hback, by decide, hperm, hreached⟩
  exact acyclic_of_rank
    (fun name => if name = "d" then 0 else if name = "a" ∨ name = "b" then 1 else 2) (by decide)

end LatencyHiding.Module
