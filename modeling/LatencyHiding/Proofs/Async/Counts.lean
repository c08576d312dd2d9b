import LatencyHiding.Async.Occupancy
import LatencyHiding.Proofs.Program.CallDepth
import Mathlib.Algebra.Order.BigOperators.Group.List
import Mathlib.Algebra.Order.Group.Nat
import Mathlib.Data.UInt

set_option autoImplicit false

namespace LatencyHiding

open Relation

namespace Module

def largest (weights : List Nat) : Nat := weights.foldr max 0

theorem largest_le_iff (weights : List Nat) (bound : Nat) :
    largest weights ≤ bound ↔ ∀ w ∈ weights, w ≤ bound := by
  induction weights with
  | nil => simp [largest]
  | cons w weights ih =>
    rw [List.forall_mem_cons, ← ih]
    exact max_le_iff

theorem largest_le_largest {weights weights' : List Nat}
    (h : ∀ w ∈ weights, ∃ w' ∈ weights', w ≤ w') : largest weights ≤ largest weights' := by
  rw [largest_le_iff]
  intro w hw
  obtain ⟨w', hw', hle⟩ := h w hw
  exact Nat.le_trans hle ((largest_le_iff weights' _).1 (Nat.le_refl _) w' hw')

def weightIn (own : Instruction → Nat) (callees : Instruction → List String) (c : Computation)
    (weight : String → Nat) : Nat :=
  (c.instructions.map fun p =>
    own p.toInstruction + largest ((callees p.toInstruction).map weight)).sum

def weight (m : Module) (own : Instruction → Nat) (callees : Instruction → List String) :
    String → Nat :=
  m.overCalls 0 (weightIn own callees) (m.computations.length + 1)

def runLength (m : Module) : String → Nat := m.weight (fun _ => 1) Instruction.calls

theorem weightIn_congr {own : Instruction → Nat} {callees : Instruction → List String}
    (hcallees : ∀ i, callees i ⊆ i.calls) (c : Computation) (weight weight' : String → Nat)
    (h : ∀ p ∈ c.instructions, ∀ callee ∈ p.calls, weight callee = weight' callee) :
    weightIn own callees c weight = weightIn own callees c weight' := by
  unfold weightIn
  congr 1
  apply List.map_congr_left
  intro p hp
  congr 2
  apply List.map_congr_left
  intro callee hcallee
  exact h p hp callee (hcallees _ hcallee)

theorem weightIn_le_weightIn {own own' : Instruction → Nat}
    {callees callees' : Instruction → List String} (hown : ∀ i, own i ≤ own' i)
    (hcallees : ∀ i, callees i ⊆ callees' i) (c : Computation) {weight weight' : String → Nat}
    (h : ∀ name, weight name ≤ weight' name) :
    weightIn own callees c weight ≤ weightIn own' callees' c weight' := by
  apply List.sum_le_sum
  intro p _
  refine Nat.add_le_add (hown _) (largest_le_largest (List.forall_mem_map.2 ?_))
  intro callee hcallee
  exact ⟨_, List.mem_map_of_mem (hcallees _ hcallee), h callee⟩

theorem weight_le_weight (m : Module) {own own' : Instruction → Nat}
    {callees callees' : Instruction → List String} (hown : ∀ i, own i ≤ own' i)
    (hcallees : ∀ i, callees i ⊆ callees' i) (name : String) :
    m.weight own callees name ≤ m.weight own' callees' name :=
  overCalls_rel (Nat.le_refl 0) (fun c _ _ => weightIn_le_weightIn hown hcallees c) _ name

end Module

namespace AsyncTracker

theorem inRange_of_lt {n : Nat} (h : n < UInt32.size) : inRange n = some (.ofNat n) := if_pos h

theorem inRange_of_le {n : Nat} (h : UInt32.size ≤ n) : inRange n = none := if_neg (Nat.not_lt.2 h)

theorem inRange_eq_some_iff {n : Nat} {a : UInt32} : inRange n = some a ↔ a.toNat = n := by
  unfold inRange
  split
  · next h =>
    rw [Option.some.injEq, ← UInt32.toNat_inj, UInt32.toNat_ofNat_of_lt' h, eq_comm]
  · next h =>
    have hlt : a.toNat < UInt32.size := a.toNat_lt
    simp only [reduceCtorEq, false_iff]
    omega

theorem inRange_eq_none_iff {n : Nat} : inRange n = none ↔ 2 ^ 32 ≤ n := by
  rw [inRange, ite_eq_right_iff]
  change (n < 2 ^ 32 → _) ↔ _
  simp

theorem addInRange_ofNat {a b : Nat} (ha : a < UInt32.size) (hb : b < UInt32.size) :
    addInRange (.ofNat a) (.ofNat b) = inRange (a + b) := by
  rw [addInRange, UInt32.toNat_ofNat_of_lt' ha, UInt32.toNat_ofNat_of_lt' hb]

theorem eq_add_of_addInRange {a b c : UInt32} (h : addInRange a b = some c) : a + b = c := by
  unfold addInRange inRange at h
  split at h
  · rw [← Option.some.inj h, UInt32.ofNat_add, UInt32.ofNat_toNat, UInt32.ofNat_toNat]
  · cases h

theorem ofNat_max {a b : Nat} (ha : a < UInt32.size) (hb : b < UInt32.size) :
    max (UInt32.ofNat a) (.ofNat b) = .ofNat (max a b) := by
  apply UInt32.toNat_inj.1
  rw [UInt32.toNat_max, UInt32.toNat_ofNat_of_lt' ha, UInt32.toNat_ofNat_of_lt' hb,
    UInt32.toNat_ofNat_of_lt' (Nat.max_lt.2 ⟨ha, hb⟩)]

section Folds

variable {α : Type} (w : α → Nat)

theorem foldlM_max_inRange (l : List α) {a : Nat} (ha : a < UInt32.size) :
    l.foldlM (fun most x => (inRange (w x)).bind fun n => some (max most n)) (UInt32.ofNat a) =
      inRange (max a (Module.largest (l.map w))) := by
  induction l generalizing a with
  | nil =>
    rw [show max a (Module.largest ([].map w)) = a from Nat.max_zero a, inRange_of_lt ha]
    rfl
  | cons x l ih =>
    have hcons : max a (Module.largest ((x :: l).map w)) =
        max (max a (w x)) (Module.largest (l.map w)) := (Nat.max_assoc _ _ _).symm
    rw [List.foldlM_cons, hcons]
    by_cases hx : w x < UInt32.size
    · rw [inRange_of_lt hx, Option.bind_some, ofNat_max ha hx]
      exact ih (Nat.max_lt.2 ⟨ha, hx⟩)
    · rw [inRange_of_le (Nat.not_lt.1 hx), inRange_of_le (by omega)]
      rfl

/-- A sum is in the range exactly if no addition on the way to it leaves the range. -/
theorem foldlM_add_inRange (l : List α) {a : Nat} (ha : a < UInt32.size) :
    l.foldlM (fun sum x => (inRange (w x)).bind (addInRange sum)) (UInt32.ofNat a) =
      inRange (a + (l.map w).sum) := by
  induction l generalizing a with
  | nil =>
    rw [List.map_nil, List.sum_nil, Nat.add_zero, inRange_of_lt ha]
    rfl
  | cons x l ih =>
    rw [List.foldlM_cons, List.map_cons, List.sum_cons, ← Nat.add_assoc]
    by_cases hx : w x < UInt32.size
    · rw [inRange_of_lt hx, Option.bind_some, addInRange_ofNat ha hx]
      by_cases hsum : a + w x < UInt32.size
      · rw [inRange_of_lt hsum]
        exact ih hsum
      · rw [inRange_of_le (Nat.not_lt.1 hsum), inRange_of_le (by omega)]
        rfl
    · rw [inRange_of_le (Nat.not_lt.1 hx), inRange_of_le (by omega)]
      rfl

end Folds

variable {τ : Type} (t : AsyncTracker τ) (m : Module) (r : Resource)

def ownOccupiers (i : Instruction) : Nat := (t.uses i).countP fun u => u.1 = r && u.2 = .occupy

/-- The value of the recursion over calls, in exact numbers. -/
def exactOccupiers : String → Nat := m.weight (t.ownOccupiers r) t.heldCallees

variable {t m r}

theorem ownUnits_eq (i : Instruction) : t.ownUnits r i = .ofNat (t.ownOccupiers r i) := rfl

theorem mem_calls_of_mem_heldCallees {i : Instruction} {callee : String}
    (h : callee ∈ t.heldCallees i) : callee ∈ i.calls := by
  unfold heldCallees at h
  split at h
  · cases h
  · exact h

theorem heldCallees_subset (i : Instruction) : t.heldCallees i ⊆ i.calls :=
  fun _ => mem_calls_of_mem_heldCallees

theorem exactOccupiers_of_find? (sound : m.Sound) (acyclic : ∀ name, ¬ TransGen m.Calls name name)
    {name : String} {c : Computation} (hfind : m.find? name = some c) :
    t.exactOccupiers m r name =
      Module.weightIn (t.ownOccupiers r) t.heldCallees c (t.exactOccupiers m r) :=
  Module.overCalls_of_find? sound acyclic (Module.weightIn_congr heldCallees_subset) hfind

theorem largestOf_inRange (weight : String → Nat) (callees : List String) :
    largestOf (fun name => inRange (weight name)) callees =
      inRange (Module.largest (callees.map weight)) := by
  have hmax := foldlM_max_inRange weight callees (show 0 < UInt32.size by decide)
  rwa [Nat.zero_max] at hmax

theorem checkedUnitsIn_inRange (hown : ∀ i, t.ownOccupiers r i < UInt32.size) (c : Computation)
    (weight : String → Nat) : t.checkedUnitsIn r c (fun name => inRange (weight name)) =
      inRange (Module.weightIn (t.ownOccupiers r) t.heldCallees c weight) := by
  have hinstruction (p : Placed) :
      (inRange (Module.largest ((t.heldCallees p.toInstruction).map weight))).bind
        (addInRange (t.ownUnits r p.toInstruction)) =
      inRange (t.ownOccupiers r p.toInstruction +
        Module.largest ((t.heldCallees p.toInstruction).map weight)) := by
    rw [ownUnits_eq]
    by_cases hnested : Module.largest ((t.heldCallees p.toInstruction).map weight) < UInt32.size
    · rw [inRange_of_lt hnested, Option.bind_some, addInRange_ofNat (hown _) hnested]
    · rw [inRange_of_le (Nat.not_lt.1 hnested), inRange_of_le (by omega), Option.bind_none]
  have hsum := foldlM_add_inRange (fun p : Placed => t.ownOccupiers r p.toInstruction +
    Module.largest ((t.heldCallees p.toInstruction).map weight)) c.instructions
    (show 0 < UInt32.size by decide)
  rw [Nat.zero_add] at hsum
  rw [Module.weightIn, ← hsum, checkedUnitsIn]
  congr 1
  funext sum p
  simp only [largestOf_inRange, monadLift_self]
  rw [← hinstruction, Option.bind_assoc]
  rfl

/-- No addition leaves the range if and only if the exact count is in it. -/
theorem checkedOccupiers_eq (hown : ∀ i, t.ownOccupiers r i < UInt32.size) (name : String) :
    t.checkedOccupiers m r name = inRange (t.exactOccupiers m r name) := by
  have hzero : some 0 = inRange 0 := rfl
  refine Module.overCalls_rel (R := fun checked exact => checked = inRange exact) hzero ?_ _ name
  intro c checked exact h
  rw [← checkedUnitsIn_inRange hown, show checked = fun name => inRange (exact name) from funext h]

section Unchecked

variable {count : String → UInt32} {checked : String → Option UInt32}
  (hcount : ∀ name n, checked name = some n → count name = n)

include hcount

theorem largestCount_of_checked {callees : List String} {n : UInt32}
    (h : largestOf checked callees = some n) : largestCount (callees.map count) = n := by
  have hfold {callees : List String} {a n : UInt32}
      (h : callees.foldlM (fun most callee => do return max most (← checked callee)) a = some n) :
      (callees.map count).foldl max a = n := by
    induction callees generalizing a with
    | nil => exact Option.some.inj h
    | cons callee callees ih =>
      rw [List.foldlM_cons] at h
      obtain ⟨next, hnext, hrest⟩ := Option.bind_eq_some_iff.1 h
      obtain ⟨k, hk, hmax⟩ := Option.bind_eq_some_iff.1 hnext
      obtain rfl := Option.some.inj hmax
      rw [List.map_cons, List.foldl_cons, hcount callee k hk]
      exact ih hrest
  exact hfold h

theorem unitsIn_of_checked {c : Computation} {n : UInt32}
    (h : t.checkedUnitsIn r c checked = some n) : t.unitsIn r c count = n := by
  have hsum (l : List Placed) {sum n : UInt32} (h : l.foldlM (fun sum p => do
      let nested ← largestOf checked (t.heldCallees p.toInstruction)
      let units ← addInRange (t.ownUnits r p.toInstruction) nested
      addInRange sum units) sum = some n) :
      sum + totalCount (l.map fun p => t.ownUnits r p.toInstruction +
        largestCount ((t.heldCallees p.toInstruction).map count)) = n := by
    induction l generalizing sum with
    | nil =>
      rw [← Option.some.inj h]
      exact UInt32.add_zero sum
    | cons p l ih =>
      rw [List.foldlM_cons] at h
      obtain ⟨next, hnext, hrest⟩ := Option.bind_eq_some_iff.1 h
      obtain ⟨nested, hnested, hnext⟩ := Option.bind_eq_some_iff.1 hnext
      obtain ⟨units, hunits, hnext⟩ := Option.bind_eq_some_iff.1 hnext
      rw [← ih hrest, ← eq_add_of_addInRange hnext, ← eq_add_of_addInRange hunits,
        ← largestCount_of_checked hcount hnested, UInt32.add_assoc]
      rfl
  have hall := hsum c.instructions h
  rwa [UInt32.zero_add] at hall

end Unchecked

theorem occupiers_of_checked {name : String} {n : UInt32}
    (h : t.checkedOccupiers m r name = some n) : t.occupiers m r name = n := by
  rw [occupiers_eq]
  refine Module.overCalls_rel (R := fun count checked => ∀ n, checked = some n → count = n)
    (fun _ h => Option.some.inj h) ?_ _ name n h
  intro c count checked hcount n hn
  exact unitsIn_of_checked hcount hn

end AsyncTracker

end LatencyHiding
