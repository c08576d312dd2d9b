import LatencyHiding.Proofs.Async.Recall
import LatencyHiding.Proofs.Async.Uses
import LatencyHiding.Proofs.ModuleFile.Acceptance

set_option autoImplicit false

namespace LatencyHiding

open Relation

namespace ModuleFile

variable {d : ModuleDecl} {f : ModuleFile} {sort : Digraph.Sorter String}

theorem calls_of_build {c : ComputationDecl} {b : Computation} (h : c.build sort = .ok b)
    {p : Placed} (hp : p ∈ b.instructions) : ∃ i ∈ c.instructions, i.calls = p.calls := by
  obtain ⟨places, _, _, rfl⟩ := (ComputationDecl.build_eq_ok_iff c sort b).1 h
  have hmem := List.mem_map_of_mem (f := Placed.toInstruction) hp
  rw [ComputationDecl.map_toInstruction_foldl_extend, List.map_nil, List.nil_append] at hmem
  obtain ⟨k, hk, hplaced⟩ := List.mem_mapIdx.1 hmem
  refine ⟨_, c.selected_subset places (List.getElem_mem hk), ?_⟩
  rw [← hplaced]
  rfl

theorem sound_of_ofDecl (h : ofDecl d sort = .ok f) : f.module.Sound := by
  obtain ⟨_, m, hm, rfl⟩ := (ofDecl_eq_ok_iff d sort f).1 h
  obtain ⟨hbuild, plain, hplain, hinstall⟩ := (ModuleDecl.buildModule_eq_ok_iff d sort m).1 hm
  have hsound : plain.Sound := by
    refine Module.sound_of_assemble (List.forall_mem_map.2 ?_) hplain
    intro c hc
    exact (ComputationDecl.wired_of_build (hbuild c hc)).1
  rw [ModuleDecl.install_eq] at hinstall
  split at hinstall
  · rwa [← Except.ok.inj hinstall]
  · obtain ⟨schedule, _, hset⟩ := (bind_eq_ok_iff _ _ _).1 hinstall
    exact hsound.setSchedule hset

/-- Calls between what is built are calls that were declared. -/
theorem acyclic_of_ofDecl (sorts : Digraph.Sorts sort) (h : ofDecl d sort = .ok f)
    (name : String) : ¬ TransGen f.module.Calls name name := by
  obtain ⟨hfault, m, hm, rfl⟩ := (ofDecl_eq_ok_iff d sort f).1 h
  obtain ⟨hbuild, plain, hplain, hinstall⟩ := (ModuleDecl.buildModule_eq_ok_iff d sort m).1 hm
  obtain ⟨_, complete, hcomputations, halike⟩ := Module.assemble_ok hplain
  have hdeclared (a b : String) (hcalls : m.Calls a b) : d.Calls a b := by
    obtain ⟨c', hc', rfl, p', hp', hcallee⟩ := hcalls
    rw [ModuleDecl.computations_of_install hinstall, hcomputations, List.map_map] at hc'
    obtain ⟨c, hc, rfl⟩ := List.mem_map.1 hc'
    have hsame := halike (valueOf (c.build sort))
    -- assembling a module leaves the calls of an instruction alone
    have hcalls' := hsame.map_eq (·.calls) fun _ => rfl
    obtain ⟨p, hp, hpcalls⟩ := List.mem_map.1 (hcalls' ▸ List.mem_map_of_mem hp')
    obtain ⟨i, hi, hicalls⟩ := calls_of_build (hbuild c hc) hp
    refine ⟨c, hc, ?_, i, hi, ?_⟩
    · exact ((ComputationDecl.wired_of_build (hbuild c hc)).2.symm.trans hsame.name_eq.symm)
    · rw [hicalls, hpcalls]
      exact hcallee
  have hrecursive : d.recursiveCall? sort = none := by
    unfold ModuleDecl.firstFault? at hfault
    simp only [Option.or_eq_none_iff] at hfault
    exact hfault.2.2.2.2.2
  intro hcycle
  exact (d.recursiveCall?_eq_none_iff sorts).1 hrecursive name
    (TransGen.mono hdeclared _ _ hcycle)

end ModuleFile

namespace AsyncTracker

variable {τ : Type} {t : AsyncTracker τ} {m : Module} {r : Resource}

theorem Regular.ownOccupiers_le_one (regular : t.Regular) (i : Instruction) :
    t.ownOccupiers r i ≤ 1 := by
  have hcount : t.ownOccupiers r i ≤ ((t.uses i).map Prod.fst).count r := by
    rw [ownOccupiers, List.count, List.countP_map]
    apply List.countP_mono_left
    intro u _ hu
    have hr : u.1 = r := by simpa using (Bool.and_eq_true_iff.1 hu).1
    simpa using hr
  exact hcount.trans (List.nodup_iff_count_le_one.1 (regular.nodup i) r)

/-- In a module that a file declares, counting has the value of the recursion over calls if that is
below `2 ^ 32`, and no value if it is not. A memo whose entries are right gives the same answer. The
value is at most the number of instructions that are run. -/
theorem counts_exactly_iff {d : ModuleDecl} {f : ModuleFile} (h : ModuleFile.ofDecl d = .ok f)
    (settings : Settings) (platform : Platform) (r : Resource) (name : String) :
    let t : AsyncTracker τ := ofPlatform settings platform
    (∀ c, f.module.find? name = some c → t.exactOccupiers f.module r name =
      (c.instructions.map fun p => t.ownOccupiers r p.toInstruction + Module.largest
        ((t.heldCallees p.toInstruction).map (t.exactOccupiers f.module r))).sum) ∧
    (∀ n, t.checkedOccupiers f.module r name = some n ↔
      n.toNat = t.exactOccupiers f.module r name) ∧
    (t.checkedOccupiers f.module r name = none ↔ 2 ^ 32 ≤ t.exactOccupiers f.module r name) ∧
    (∀ memo, t.Recalls f.module memo → ∃ memo', t.Recalls f.module memo' ∧
      (t.recalled f.module r name).run.run memo = (t.checkedOccupiers f.module r name, memo')) ∧
    t.exactOccupiers f.module r name ≤ f.module.runLength name := by
  intro t
  have sound := ModuleFile.sound_of_ofDecl h
  have acyclic := ModuleFile.acyclic_of_ofDecl Digraph.sorts_topologicalOrder h
  have hone (i : Instruction) : t.ownOccupiers r i ≤ 1 :=
    (regular_ofPlatform settings platform).ownOccupiers_le_one i
  have hchecked := checkedOccupiers_eq (m := f.module)
    (fun i => Nat.lt_of_le_of_lt (hone i) (by decide)) name
  refine ⟨fun c hfind => exactOccupiers_of_find? sound acyclic hfind, ?_, ?_, ?_,
    f.module.weight_le_weight hone heldCallees_subset name⟩
  · intro n
    rw [hchecked, inRange_eq_some_iff]
  · rw [hchecked, inRange_eq_none_iff]
  · intro memo recalls
    obtain ⟨memo', hrun, recalls'⟩ := answers_recalled sound acyclic r name memo recalls
    exact ⟨memo', recalls', hrun⟩

def floorName (k : Nat) : String := String.ofList (List.replicate (k + 1) 'c')

def floor : Nat → ComputationDecl
  | 0 => { name := floorName 0, instructions := [{ name := "s", opcode := .allReduceStart }] }
  | k + 1 => {
      name := floorName (k + 1)
      instructions := [
        { name := "a", opcode := .call, calls := [floorName k] },
        { name := "b", opcode := .call, calls := [floorName k] }] }

def doublings (height : Nat) : ModuleDecl where
  name := "m"
  computations := (List.range (height + 1)).map floor

theorem counts_exactly_doublings : ∃ f, ModuleFile.ofDecl (doublings 2) = .ok f ∧
    (generic {} : AsyncTracker Float).checkedOccupiers f.module .allReduce (floorName 2) =
      some 4 ∧
    ∃ memo,
      ((generic {} : AsyncTracker Float).recalled f.module .allReduce (floorName 2)).run.run [] =
      (some 4, memo) := by
  have hexact : (ModuleFile.ofDecl (doublings 2)).toOption.map (fun f =>
      (generic {} : AsyncTracker Float).exactOccupiers f.module .allReduce (floorName 2)) =
        some 4 := by decide +kernel
  cases hf : ModuleFile.ofDecl (doublings 2) with
  | error fault =>
    rw [hf] at hexact
    cases hexact
  | ok f =>
    rw [hf] at hexact
    obtain ⟨_, hvalue, _, hrecall, _⟩ :=
      counts_exactly_iff (τ := Float) hf {} .generic .allReduce (floorName 2)
    have hfour := (hvalue 4).2 (Option.some.inj hexact).symm
    obtain ⟨memo, _, hrun⟩ := hrecall [] (recalls_nil _ _)
    rw [hfour] at hrun
    exact ⟨f, rfl, hfour, memo, hrun⟩

def outline (t : AsyncTracker τ) (c : Computation) : List (Nat × List String) :=
  c.instructions.map fun p =>
    (t.ownOccupiers .allReduce p.toInstruction, t.heldCallees p.toInstruction)

def floorOutline : Nat → List (Nat × List String)
  | 0 => [(1, [])]
  | k + 1 => [(0, [floorName k]), (0, [floorName k])]

theorem weightIn_eq_outline (t : AsyncTracker τ) (c : Computation) (weight : String → Nat) :
    Module.weightIn (t.ownOccupiers .allReduce) t.heldCallees c weight =
      ((t.outline c).map fun (own, held) => own + Module.largest (held.map weight)).sum := by
  rw [outline, List.map_map]
  rfl

def Doubles (t : AsyncTracker τ) (m : Module) (height : Nat) : Prop :=
  ∀ k ≤ height, (m.find? (floorName k)).map t.outline = some (floorOutline k)

namespace Doubles

variable {height : Nat} (doubles : t.Doubles m height) (sound : m.Sound)
  (acyclic : ∀ name, ¬ TransGen m.Calls name name)

include doubles sound acyclic

theorem exactOccupiers_eq {k : Nat} (hk : k ≤ height) :
    t.exactOccupiers m .allReduce (floorName k) = 2 ^ k := by
  induction k with
  | zero =>
    obtain ⟨c, hfind, houtline⟩ := Option.map_eq_some_iff.1 (doubles 0 hk)
    rw [exactOccupiers_of_find? sound acyclic hfind, weightIn_eq_outline, houtline]
    rfl
  | succ k ih =>
    obtain ⟨c, hfind, houtline⟩ := Option.map_eq_some_iff.1 (doubles (k + 1) hk)
    rw [exactOccupiers_of_find? sound acyclic hfind, weightIn_eq_outline, houtline]
    simp [floorOutline, Module.largest, ih (by omega), Nat.pow_succ, Nat.mul_two]

end Doubles

/-- With 32 floors the file is accepted too, and the count leaves the range. -/
theorem overflow_doublings : ∃ f, ModuleFile.ofDecl (doublings 32) = .ok f ∧
    (generic {} : AsyncTracker Float).exactOccupiers f.module .allReduce (floorName 32) = 2 ^ 32 ∧
    (generic {} : AsyncTracker Float).checkedOccupiers f.module .allReduce (floorName 32) = none ∧
    (((generic {} : AsyncTracker Float).recalled f.module .allReduce (floorName 32)).run.run []).1 =
      none := by
  have houtline : (ModuleFile.ofDecl (doublings 32)).toOption.map (fun f =>
      (List.range 33).map fun k => (f.module.find? (floorName k)).map
        (generic {} : AsyncTracker Float).outline) =
      some ((List.range 33).map fun k => some (floorOutline k)) := by decide +kernel
  cases hf : ModuleFile.ofDecl (doublings 32) with
  | error fault =>
    rw [hf] at houtline
    cases houtline
  | ok f =>
    rw [hf] at houtline
    have doubles : (generic {} : AsyncTracker Float).Doubles f.module 32 := fun k hk =>
      List.map_inj_left.1 (Option.some.inj houtline) k (List.mem_range.2 (Nat.lt_succ_of_le hk))
    have sound := ModuleFile.sound_of_ofDecl hf
    have acyclic := ModuleFile.acyclic_of_ofDecl Digraph.sorts_topologicalOrder hf
    have hexact := doubles.exactOccupiers_eq sound acyclic (Nat.le_refl 32)
    have hone (i : Instruction) : (generic {} : AsyncTracker Float).ownOccupiers .allReduce i ≤ 1 :=
      (regular_ofPlatform {} .generic).ownOccupiers_le_one i
    have hchecked : (generic {} : AsyncTracker Float).checkedOccupiers f.module .allReduce
        (floorName 32) = none := by
      rw [checkedOccupiers_eq (fun i => Nat.lt_of_le_of_lt (hone i) (by decide)), hexact]
      exact inRange_of_le (Nat.le_refl _)
    obtain ⟨memo, hrun, _⟩ := answers_recalled sound acyclic .allReduce (floorName 32) []
      (recalls_nil (generic {} : AsyncTracker Float) f.module)
    refine ⟨f, rfl, hexact, hchecked, ?_⟩
    rw [hrun]
    exact hchecked

end AsyncTracker

end LatencyHiding
