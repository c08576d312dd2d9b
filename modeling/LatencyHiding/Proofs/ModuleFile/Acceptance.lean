import LatencyHiding.Proofs.ModuleFile.Building
import LatencyHiding.Proofs.Program.Schedules

set_option autoImplicit false

namespace LatencyHiding

open Relation

namespace ModuleDecl

def Calls (d : ModuleDecl) (a b : String) : Prop :=
  ∃ c ∈ d.computations, c.name = a ∧ ∃ i ∈ c.instructions, b ∈ i.calls

structure WellFormed (d : ModuleDecl) : Prop where
  computations_nonempty : d.computations ≠ []
  instructions_nonempty : ∀ c ∈ d.computations, c.instructions ≠ []
  limits : ∀ limit ∈ d.settings.limits, 1 ≤ limit.2
  slop : 1 ≤ d.device.slopPercent ∧ d.device.slopPercent ≤ 100
  entry : ∀ name, d.entry = some name → name ∈ d.names
  references : ∀ c ∈ d.computations, ∀ i ∈ c.instructions, ∀ n ∈ i.inputs, n ∈ c.names ∧ n ≠ i.name
  callees : ∀ c ∈ d.computations, ∀ i ∈ c.instructions, ∀ callee ∈ i.calls, callee ∈ d.names
  names_nodup : d.names.Nodup
  dependencies_acyclic : ∀ c ∈ d.computations, ∀ n, ¬ TransGen c.DependsOn n n
  calls_acyclic : ∀ n, ¬ TransGen d.Calls n n
  schedules : ∀ c ∈ d.computations, ∀ names, c.schedule = some names → c.IsSchedule names

section Checks

variable (d : ModuleDecl) {sort : Digraph.Sorter String} (sorts : Digraph.Sorts sort)

theorem emptySection?_eq_none_iff : d.emptySection? = none ↔
    d.computations ≠ [] ∧ ∀ c ∈ d.computations, c.instructions ≠ [] := by
  unfold emptySection?
  cases d.computations <;> simp

theorem badSetting?_eq_none_iff : d.badSetting? = none ↔
    (∀ limit ∈ d.settings.limits, 1 ≤ limit.2) ∧
      1 ≤ d.device.slopPercent ∧ d.device.slopPercent ≤ 100 := by
  have hpos (n : UInt32) : 1 ≤ n ↔ ¬ n = 0 := by
    rw [UInt32.le_iff_toNat_le, ← UInt32.toNat_inj]
    simp only [UInt32.toNat_one, UInt32.toNat_zero]
    omega
  unfold badSetting?
  rw [Option.or_eq_none_iff]
  apply and_congr
  · simp only [Option.map_eq_none_iff, List.find?_eq_none, hpos, beq_iff_eq]
  · rw [hpos]
    simp [not_or, UInt32.not_lt]

theorem badEntry?_eq_none_iff : d.badEntry? = none ↔
    ∀ name, d.entry = some name → name ∈ d.names := by
  unfold badEntry?
  cases d.entry <;> simp

theorem badReferenceIn?_eq_none_iff : d.badReferenceIn? = none ↔
    ∀ c ∈ d.computations,
      (∀ i ∈ c.instructions, (∀ n ∈ i.inputs, n ∈ c.names ∧ n ≠ i.name) ∧
        ∀ callee ∈ i.calls, callee ∈ d.names) ∧
      ∀ names, c.schedule = some names → names ⊆ c.names := by
  unfold badReferenceIn?
  rw [List.findSome?_eq_none_iff]
  apply forall₂_congr
  intro c _
  rw [Option.or_eq_none_iff, List.findSome?_eq_none_iff]
  apply and_congr
  · apply forall₂_congr
    intro i _
    unfold badReference?
    rw [Option.or_eq_none_iff, List.findSome?_eq_none_iff]
    apply and_congr
    · apply forall₂_congr
      intro n _
      by_cases hself : n = i.name
      · simp [hself]
      · simp [hself]
    · simp
  · unfold badScheduleName?
    cases c.schedule <;> simp [List.subset_def]

include sorts

theorem cyclicComputation?_eq_none_iff : d.cyclicComputation? sort = none ↔
    ∀ c ∈ d.computations, ∀ n, ¬ TransGen c.DependsOn n n := by
  unfold cyclicComputation?
  rw [List.findSome?_eq_none_iff]
  apply forall₂_congr
  intro c _
  rw [← c.exists_buildOrder_iff sorts]
  cases c.buildOrder sort <;> simp

theorem recursiveCall?_eq_none_iff :
    d.recursiveCall? sort = none ↔ ∀ n, ¬ TransGen d.Calls n n := by
  have hproper : d.callGraph.Proper := (Digraph.ofLists_spec _ _).1
  have hcalls : d.callGraph.Joins = d.Calls := by
    funext a b
    rw [callGraph, (Digraph.ofLists_spec _ _).2.1, Calls]
    simp only [List.mem_flatMap, List.mem_map, Prod.mk.injEq, eq_iff_iff]
    constructor
    · rintro ⟨c, hc, i, hi, _, hb, rfl, rfl⟩
      exact ⟨c, hc, rfl, i, hi, hb⟩
    · rintro ⟨c, hc, rfl, i, hi, hb⟩
      exact ⟨c, hc, i, hi, b, hb, rfl, rfl⟩
  rw [← hcalls, ← sorts.exists_iff hproper]
  unfold recursiveCall?
  cases sort d.callGraph <;> simp

end Checks

section Installation

variable {d : ModuleDecl} {m m' : Module} {c : ComputationDecl} {b : Computation}

theorem resolveSchedule_eq_ok_iff (hb : m.find? c.name = some b) (wired : b.Wired)
    (names : List String) (sequence : List InstrId) :
    c.resolveSchedule m names = .ok sequence ↔
      names ⊆ b.names ∧ sequence = names.map b.names.idxOf := by
  have hlookup : c.resolveSchedule m names = names.mapM fun n =>
      if n ∈ b.names then Except.ok (b.names.idxOf n)
      else .error (.unknownInstruction n c.name) := by
    unfold ComputationDecl.resolveSchedule Module.computation
    rw [hb]
    show names.mapM _ = _
    congr 1
    funext n
    have hn := wired.map_find? n
    by_cases hmem : n ∈ b.names
    · rw [if_pos hmem] at hn ⊢
      obtain ⟨p, hp, hid⟩ := Option.map_eq_some_iff.1 hn
      rw [hp, ← hid]
    · rw [if_neg hmem, (Computation.find?_eq_none_iff b n).2 hmem]
  rw [hlookup]
  exact mapM_ite_eq_ok_iff _ _ _ names sequence

def setDeclared (m : Module) (schedule : Schedule) (c : ComputationDecl) : Except Fault Schedule :=
  c.schedule.elim (.ok schedule) fun names => (c.resolveSchedule m names).map (schedule.set c.name)

theorem install_eq (d : ModuleDecl) (m : Module) : d.install m =
    if d.computations.all (·.schedule.isNone) then .ok m
    else d.computations.foldlM (setDeclared m) m.postOrderSchedule >>= m.setSchedule := by
  have hstep : setDeclared m = fun schedule c =>
      c.schedule.elim (.ok schedule) fun names =>
        (c.resolveSchedule m names).map (schedule.set c.name) := rfl
  unfold install
  rw [hstep]
  congr 3
  funext schedule c
  cases c.schedule <;> rfl

/-- Declared orders take the place of those that are there already. -/
theorem foldlM_setDeclared {ids : ComputationDecl → List String → List InstrId}
    (l : List ComputationDecl) (nodup : (l.map (·.name)).Nodup)
    (hids : ∀ c ∈ l, ∀ names, c.schedule = some names →
      c.resolveSchedule m names = .ok (ids c names))
    (start : Schedule) : ∃ schedule, l.foldlM (setDeclared m) start = .ok schedule ∧
      (∀ c ∈ l, schedule.get? c.name = (c.schedule.map (ids c)).or (start.get? c.name)) ∧
      ∀ n, n ∉ l.map (·.name) → schedule.get? n = start.get? n := by
  induction l generalizing start with
  | nil => exact ⟨start, rfl, by simp, by simp⟩
  | cons c rest ih =>
    obtain ⟨hfirst, nodup⟩ := List.nodup_cons.1 nodup
    obtain ⟨hc, hids⟩ := List.forall_mem_cons.1 hids
    -- names are distinct, so what is set for later computations leaves the first one alone
    cases hdeclared : c.schedule with
    | none =>
      obtain ⟨schedule, hfold, hget, hother⟩ := ih nodup hids start
      have hstep : setDeclared m start c = .ok start := by rw [setDeclared, hdeclared]; rfl
      refine ⟨schedule, (foldlM_cons_eq_ok_iff _ _ _ _ _).2 ⟨_, hstep, hfold⟩,
        List.forall_mem_cons.2 ⟨?_, hget⟩, ?_⟩
      · rw [hother _ hfirst, hdeclared]
        rfl
      · intro n hn
        exact hother n fun hmem => hn (List.mem_cons_of_mem _ hmem)
    | some names =>
      obtain ⟨schedule, hfold, hget, hother⟩ := ih nodup hids (start.set c.name (ids c names))
      have hstep : setDeclared m start c = .ok (start.set c.name (ids c names)) := by
        rw [setDeclared, hdeclared, Option.elim_some, hc names hdeclared]
        rfl
      refine ⟨schedule, (foldlM_cons_eq_ok_iff _ _ _ _ _).2 ⟨_, hstep, hfold⟩,
        List.forall_mem_cons.2 ⟨?_, ?_⟩, ?_⟩
      · rw [hother _ hfirst, hdeclared, KeyedList.get?_set_self]
        rfl
      · intro c' hc'
        rw [hget c' hc', KeyedList.get?_set_of_ne]
        intro hname
        exact hfirst (List.mem_map.2 ⟨c', hc', hname⟩)
      · intro n hn
        rw [List.map_cons, List.mem_cons, not_or] at hn
        rw [hother n hn.2, KeyedList.get?_set_of_ne hn.1]

theorem exists_install_iff {built : ComputationDecl → Computation}
    (hm : m.computations = d.computations.map built) (nodup : d.names.Nodup)
    (hbuilt : ∀ c ∈ d.computations, (built c).Wired ∧ (built c).name = c.name)
    (hnames : ∀ c ∈ d.computations, ∀ names, c.schedule = some names → names ⊆ (built c).names) :
    (∃ m', d.install m = .ok m') ↔ ∀ c ∈ d.computations, ∀ names, c.schedule = some names →
      (built c).IsOrder (names.map (built c).names.idxOf) := by
  have hmap : m.computations.map (·.name) = d.names := by
    rw [hm, List.map_map]
    exact List.map_congr_left fun c hc => (hbuilt c hc).2
  have hmem {c : ComputationDecl} (hc : c ∈ d.computations) : built c ∈ m.computations :=
    hm ▸ List.mem_map_of_mem hc
  have hwired : ∀ c' ∈ m.computations, c'.Wired := by
    rw [hm]
    exact List.forall_mem_map.2 fun c hc => (hbuilt c hc).1
  have hresolve (c : ComputationDecl) (hc : c ∈ d.computations) (names : List String)
      (hnames' : c.schedule = some names) :
      c.resolveSchedule m names = .ok (names.map (built c).names.idxOf) := by
    have hfind := Module.find?_of_mem (hmap ▸ nodup) (hmem hc)
    rw [(hbuilt c hc).2] at hfind
    exact (resolveSchedule_eq_ok_iff hfind (hbuilt c hc).1 names _).2
      ⟨hnames c hc names hnames', rfl⟩
  rw [install_eq]
  by_cases hnone : d.computations.all (·.schedule.isNone) = true
  · rw [if_pos hnone]
    refine ⟨fun _ c hc names hnames => ?_, fun _ => ⟨m, rfl⟩⟩
    have := List.all_eq_true.1 hnone c hc
    simp [hnames] at this
  · rw [if_neg hnone]
    obtain ⟨schedule, hfold, hget, _⟩ := foldlM_setDeclared d.computations nodup hresolve
      m.postOrderSchedule
    have hsequence {c : ComputationDecl} (hc : c ∈ d.computations) : schedule.get? (built c).name =
        some ((c.schedule.map (·.map (built c).names.idxOf)).getD (built c).postOrder) := by
      rw [(hbuilt c hc).2, hget c hc, ← (hbuilt c hc).2,
        Module.get?_postOrderSchedule (hmap ▸ nodup) (hmem hc)]
      cases c.schedule <;> rfl
    simp only [bind_eq_ok_iff, hfold, Except.ok.injEq, exists_eq_left',
      Module.setSchedule_eq_ok_iff hwired, exists_and_left, exists_eq, and_true]
    rw [hm, List.forall_mem_map]
    apply forall₂_congr
    intro c hc
    rw [hsequence hc]
    -- the order of building needs no check
    have horder := (hbuilt c hc).1.isOrder_postOrder
    cases hdeclared : c.schedule <;> simp [horder]

theorem computations_of_install (h : d.install m = .ok m') : m'.computations = m.computations := by
  unfold install at h
  split at h
  · rw [Except.ok.inj h]
  · obtain ⟨schedule, _, h⟩ := (bind_eq_ok_iff _ _ _).1 h
    obtain ⟨_, _, h⟩ := (bind_eq_ok_iff _ _ _).1 h
    rw [← Except.ok.inj h]

end Installation

section Modules

variable {d : ModuleDecl} {m : Module} {sort : Digraph.Sorter String}

theorem buildModule_eq_ok_iff (d : ModuleDecl) (sort : Digraph.Sorter String) (m : Module) :
    d.buildModule sort = .ok m ↔
      (∀ c ∈ d.computations, c.build sort = .ok (valueOf (c.build sort))) ∧
        ∃ plain, Module.assemble d.name (d.computations.map fun c => valueOf (c.build sort))
          d.entry = .ok plain ∧ d.install plain = .ok m := by
  unfold buildModule
  rw [bind_eq_ok_iff]
  simp only [mapM_eq_ok_iff, bind_eq_ok_iff, and_assoc, exists_and_left, exists_eq_left]

section Assembling

variable {built : ComputationDecl → Computation}
  (hrealizes : ∀ c ∈ d.computations, c.Realizes (built c))
  (hname : ∀ c ∈ d.computations, (built c).name = c.name)

include hrealizes hname

theorem assemblable_iff (hnonempty : d.computations ≠ [])
    (hentry : ∀ name, d.entry = some name → name ∈ d.names)
    (hcallees : ∀ c ∈ d.computations, ∀ i ∈ c.instructions, ∀ callee ∈ i.calls,
      callee ∈ d.names) :
    Module.Assemblable (d.computations.map built) d.entry ↔ d.names.Nodup := by
  have hnames : (d.computations.map built).map (·.name) = d.names := by
    rw [List.map_map]
    exact List.map_congr_left hname
  constructor
  · intro h
    exact hnames ▸ h.nodup
  · intro h
    refine ⟨by simpa using hnonempty, hnames.symm ▸ h, hnames.symm ▸ hentry, ?_⟩
    rw [hnames]
    refine List.forall_mem_map.2 fun c hc callee hcallee => ?_
    obtain ⟨i, hi, hcall⟩ := ((hrealizes c hc).mem_callees_iff callee).1 hcallee
    exact hcallees c hc i hi callee hcall

theorem exists_install_of_assemble_iff (nodup : ∀ c ∈ d.computations, c.names.Nodup)
    (hknown : ∀ c ∈ d.computations, ∀ names, c.schedule = some names → names ⊆ c.names)
    (hassemble : Module.assemble d.name (d.computations.map built) d.entry = .ok m)
    (hd : d.names.Nodup) : (∃ m', d.install m = .ok m') ↔
      ∀ c ∈ d.computations, ∀ names, c.schedule = some names → c.IsSchedule names := by
  obtain ⟨_, complete, hcomputations, halike⟩ := Module.assemble_ok hassemble
  rw [List.map_map] at hcomputations
  rw [exists_install_iff hcomputations hd]
  · apply forall₂_congr
    intro c hc
    apply forall₂_congr
    intro names hschedule
    have hsame := halike (built c)
    rw [Function.comp_apply, hsame.names_eq, hsame.isOrder_iff (hrealizes c hc).wired]
    exact (hrealizes c hc).isOrder_iff (nodup c hc) (hknown c hc names hschedule)
  · intro c hc
    have hsame := halike (built c)
    exact ⟨hsame.wired (hrealizes c hc).wired, hsame.name_eq.trans (hname c hc)⟩
  · intro c hc names hschedule
    have hsame := halike (built c)
    rw [Function.comp_apply, hsame.names_eq]
    intro n hn
    exact (hrealizes c hc).isSchedule.perm.mem_iff.2 (hknown c hc names hschedule hn)

end Assembling

/-- Computations that can all be built make a module unless two share a name or a declared order is
none. -/
theorem exists_buildModule_iff (sorts : Digraph.Sorts sort)
    (nodup : ∀ c ∈ d.computations, c.names.Nodup)
    (hnonempty : d.computations ≠ []) (hentry : ∀ name, d.entry = some name → name ∈ d.names)
    (hclosed : ∀ c ∈ d.computations, c.Closed)
    (hcallees : ∀ c ∈ d.computations, ∀ i ∈ c.instructions, ∀ callee ∈ i.calls, callee ∈ d.names)
    (acyclic : ∀ c ∈ d.computations, ∀ n, ¬ TransGen c.DependsOn n n)
    (hknown : ∀ c ∈ d.computations, ∀ names, c.schedule = some names → names ⊆ c.names) :
    (∃ m, d.buildModule sort = .ok m) ↔ d.names.Nodup ∧
      ∀ c ∈ d.computations, ∀ names, c.schedule = some names → c.IsSchedule names := by
  have hbuild (c : ComputationDecl) (hc : c ∈ d.computations) :
      c.build sort = .ok (valueOf (c.build sort)) := by
    obtain ⟨b, hb⟩ := ComputationDecl.exists_build sorts (nodup c hc) (hclosed c hc) (acyclic c hc)
    exact eq_ok_valueOf hb
  have hrealizes (c : ComputationDecl) (hc : c ∈ d.computations) :
      c.Realizes (valueOf (c.build sort)) :=
    ComputationDecl.realizes_of_build sorts (nodup c hc) (hclosed c hc) (hbuild c hc)
  have hname (c : ComputationDecl) (hc : c ∈ d.computations) :
      (valueOf (c.build sort)).name = c.name :=
    (ComputationDecl.wired_of_build (hbuild c hc)).2
  have hfit := assemblable_iff hrealizes hname hnonempty hentry hcallees
  simp only [buildModule_eq_ok_iff]
  constructor
  · rintro ⟨m, _, plain, hplain, hm⟩
    have hd := hfit.1 ((Module.exists_assemble_iff _ _ _).1 ⟨plain, hplain⟩)
    exact ⟨hd, (exists_install_of_assemble_iff hrealizes hname nodup hknown hplain hd).1 ⟨m, hm⟩⟩
  · rintro ⟨hd, hschedules⟩
    obtain ⟨plain, hplain⟩ := (Module.exists_assemble_iff d.name _ _).2 (hfit.2 hd)
    obtain ⟨m, hm⟩ :=
      (exists_install_of_assemble_iff hrealizes hname nodup hknown hplain hd).2 hschedules
    exact ⟨m, hbuild, plain, hplain, hm⟩

end Modules

end ModuleDecl

namespace ModuleFile

theorem ofDecl_eq_ok_iff (d : ModuleDecl) (sort : Digraph.Sorter String) (f : ModuleFile) :
    ofDecl d sort = .ok f ↔ d.firstFault? sort = none ∧ ∃ m, d.buildModule sort = .ok m ∧ f = {
      module := m
      mode := d.mode
      platform := d.platform
      settings := d.settings
      device := d.device
      profile := d.profile } := by
  unfold ofDecl
  cases d.firstFault? sort with
  | some fault => simp [throw, throwThe, MonadExceptOf.throw, bind, Except.bind]
  | none => simp only [true_and, bind_pure_eq_ok_iff]

theorem wellFormed_iff (d : ModuleDecl) {sort : Digraph.Sorter String} (sorts : Digraph.Sorts sort)
    (nodup : ∀ c ∈ d.computations, c.names.Nodup) :
    (∃ f, ofDecl d sort = .ok f) ↔ d.WellFormed := by
  have haccept : (∃ f, ofDecl d sort = .ok f) ↔
      d.firstFault? sort = none ∧ ∃ m, d.buildModule sort = .ok m := by
    simp only [ofDecl_eq_ok_iff, exists_and_left]
    exact and_congr_right fun _ => ⟨fun ⟨_, m, hm, _⟩ => ⟨m, hm⟩, fun ⟨m, hm⟩ => ⟨_, m, hm, rfl⟩⟩
  rw [haccept]
  unfold ModuleDecl.firstFault?
  simp only [Option.or_eq_none_iff, d.emptySection?_eq_none_iff, d.badSetting?_eq_none_iff,
    d.badEntry?_eq_none_iff, d.badReferenceIn?_eq_none_iff, d.cyclicComputation?_eq_none_iff sorts,
    d.recursiveCall?_eq_none_iff sorts]
  constructor
  · rintro ⟨⟨⟨hsome, hfilled⟩, ⟨hlimits, hslop⟩, hentry, hreferences, hacyclic, hcalls⟩, hbuild⟩
    have hclosed : ∀ c ∈ d.computations, c.Closed := fun c hc i hi n hn =>
      (((hreferences c hc).1 i hi).1 n hn).1
    have hcallees := fun c hc i hi => ((hreferences c hc).1 i hi).2
    obtain ⟨hnames, hschedules⟩ := (ModuleDecl.exists_buildModule_iff sorts nodup hsome hentry
      hclosed hcallees hacyclic fun c hc => (hreferences c hc).2).1 hbuild
    exact ⟨hsome, hfilled, hlimits, hslop, hentry, fun c hc i hi => ((hreferences c hc).1 i hi).1,
      hcallees, hnames, hacyclic, hcalls, hschedules⟩
  · intro h
    have hclosed : ∀ c ∈ d.computations, c.Closed := fun c hc i hi n hn =>
      (h.references c hc i hi n hn).1
    have hknown : ∀ c ∈ d.computations, ∀ names, c.schedule = some names → names ⊆ c.names :=
      fun c hc names hnames => (h.schedules c hc names hnames).perm.subset
    refine ⟨⟨⟨h.computations_nonempty, h.instructions_nonempty⟩, ⟨h.limits, h.slop⟩, h.entry,
      fun c hc => ⟨fun i hi => ⟨h.references c hc i hi, h.callees c hc i hi⟩, hknown c hc⟩,
      h.dependencies_acyclic, h.calls_acyclic⟩, ?_⟩
    exact (ModuleDecl.exists_buildModule_iff sorts nodup h.computations_nonempty h.entry hclosed
      h.callees h.dependencies_acyclic hknown).2 ⟨h.names_nodup, h.schedules⟩

/-- A declaration with distinct instruction names is accepted exactly if it is well formed. -/
theorem exists_ofDecl_iff (d : ModuleDecl) (nodup : ∀ c ∈ d.computations, c.names.Nodup) :
    (∃ f, ofDecl d = .ok f) ↔ d.WellFormed :=
  wellFormed_iff d Digraph.sorts_topologicalOrder nodup

def reversedReduction : ModuleDecl where
  name := "m"
  entry := some "main"
  computations := [
    { name := "main"
      schedule := some ["p", "s", "w", "d"]
      instructions := [
        { name := "d", opcode := .allReduceDone, operands := ["s"], controlPredecessors := ["w"] },
        { name := "s", opcode := .allReduceStart, operands := ["p"] },
        { name := "w", opcode := .call, operands := ["p", "p"], calls := ["body"] },
        { name := "p", opcode := .parameter }] },
    { name := "body"
      instructions := [{ name := "p", opcode := .parameter }] }]

theorem wellFormed_reversedReduction :
    (∀ c ∈ reversedReduction.computations, c.names.Nodup) ∧ reversedReduction.WellFormed :=
  ⟨by decide, (exists_ofDecl_iff reversedReduction (by decide)).1 ⟨_, rfl⟩⟩

/-- The names of a computation's instructions are the declared names, each once, so that
instructions are lost exactly if names are repeated. References that all point backwards leave no
room for that. -/
structure OncePerName (declared : ComputationDecl) (built : Computation) : Prop where
  name_eq : built.name = declared.name
  nodup : built.names.Nodup
  mem_names_iff : ∀ n, n ∈ built.names ↔ n ∈ declared.names
  size_eq_iff : built.size = declared.instructions.length ↔ declared.names.Nodup
  nodup_of_referencesBackwards : declared.referencesBackwards = true → declared.names.Nodup

theorem oncePerName_of_build {c : ComputationDecl} {b : Computation} {sort : Digraph.Sorter String}
    (sorts : Digraph.Sorts sort) (h : c.build sort = .ok b) : OncePerName c b := by
  obtain ⟨nodup, hmem, hback⟩ := ComputationDecl.names_of_build sorts h
  refine ⟨(ComputationDecl.wired_of_build h).2, nodup, hmem, ?_, fun h => hback h ▸ nodup⟩
  have hlength : c.names.length = c.instructions.length := List.length_map _
  rw [← b.length_names, ← hlength]
  constructor
  · intro hsize
    have hsub : b.names.Subperm c.names := List.subperm_of_subset nodup fun n hn => (hmem n).1 hn
    exact (hsub.perm_of_length_le (Nat.le_of_eq hsize.symm)).nodup_iff.1 nodup
  · intro nodup'
    exact ((List.perm_ext_iff_of_nodup nodup nodup').2 hmem).length_eq

theorem OncePerName.alike {c : ComputationDecl} {b b' : Computation} (h : OncePerName c b)
    (hsame : b.Alike b') : OncePerName c b' where
  name_eq := hsame.name_eq.trans h.name_eq
  nodup := hsame.names_eq ▸ h.nodup
  mem_names_iff := hsame.names_eq ▸ h.mem_names_iff
  size_eq_iff := hsame.size_eq ▸ h.size_eq_iff
  nodup_of_referencesBackwards := h.nodup_of_referencesBackwards

theorem forall₂_oncePerName {d : ModuleDecl} {f : ModuleFile} {sort : Digraph.Sorter String}
    (sorts : Digraph.Sorts sort) (h : ofDecl d sort = .ok f) :
    List.Forall₂ OncePerName d.computations f.module.computations := by
  obtain ⟨_, m, hm, rfl⟩ := (ofDecl_eq_ok_iff d sort f).1 h
  obtain ⟨hbuild, plain, hplain, hinstall⟩ := (ModuleDecl.buildModule_eq_ok_iff d sort m).1 hm
  obtain ⟨_, complete, hcomputations, halike⟩ := Module.assemble_ok hplain
  rw [ModuleDecl.computations_of_install hinstall, hcomputations, List.map_map,
    List.forall₂_map_right_iff, List.forall₂_same]
  intro c hc
  exact (oncePerName_of_build sorts (hbuild c hc)).alike (halike _)

/-- Of what is accepted, every declared name is kept. -/
theorem oncePerName_of_ofDecl {d : ModuleDecl} {f : ModuleFile} (h : ofDecl d = .ok f) :
    List.Forall₂ OncePerName d.computations f.module.computations :=
  forall₂_oncePerName Digraph.sorts_topologicalOrder h

theorem oncePerName_reversedReduction : ∃ f, ofDecl reversedReduction = .ok f ∧
    List.Forall₂ OncePerName reversedReduction.computations f.module.computations :=
  ⟨_, rfl, oncePerName_of_ofDecl rfl⟩

def twoParameters : ModuleDecl where
  name := "m"
  computations := [
    { name := "main"
      instructions := [
        { name := "p", opcode := .parameter, shape := .array 16 },
        { name := "r", opcode := .negate, shape := .array 16, operands := ["q"] },
        { name := "q", opcode := .negate, shape := .array 16, operands := ["p"] },
        { name := "p", opcode := .parameter, shape := .array 32 }] }]

/-- Four instructions are declared, two of them under one name, and three are built. -/
theorem size_twoParameters : ∃ f, ofDecl twoParameters = .ok f ∧
    twoParameters.computations.map (·.instructions.length) = [4] ∧
      f.module.computations.map (·.size) = [3] :=
  ⟨_, rfl, rfl, rfl⟩

end ModuleFile

end LatencyHiding
