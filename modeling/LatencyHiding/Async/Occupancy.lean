import LatencyHiding.Async.Tracker
import LatencyHiding.Program.Module

set_option autoImplicit false

namespace LatencyHiding.AsyncTracker

variable {τ : Type}

def largestCount (counts : List UInt32) : UInt32 := counts.foldl max 0

def totalCount (counts : List UInt32) : UInt32 := counts.foldr (· + ·) 0

def ownUnits (t : AsyncTracker τ) (r : Resource) (i : Instruction) : UInt32 :=
  ((t.uses i).countP fun u => u.1 = r && u.2 = .occupy).toUInt32

/-- Callees whose units an instruction holds: those of an asynchronous start run on their own. -/
def heldCallees (t : AsyncTracker τ) (i : Instruction) : List String :=
  if t.isStart i then [] else i.calls

def unitsIn (t : AsyncTracker τ) (r : Resource) (c : Computation) (count : String → UInt32) :
    UInt32 :=
  totalCount (c.instructions.map fun p =>
    t.ownUnits r p.toInstruction + largestCount ((t.heldCallees p.toInstruction).map count))

def occupiersWithin (t : AsyncTracker τ) (m : Module) (r : Resource) :
    (depth : Nat) → String → UInt32 :=
  m.overCalls 0 (t.unitsIn r)

abbrev OccupierCounts := List (String × UInt32)

def OccupierCounts.count (counts : OccupierCounts) (name : String) : UInt32 :=
  ((List.find? (·.1 == name) counts).map (·.2)).getD 0

def recount (t : AsyncTracker τ) (m : Module) (r : Resource) (counts : OccupierCounts) :
    OccupierCounts :=
  m.computations.map fun c => (c.name, t.unitsIn r c counts.count)

def settle {α : Type} [DecidableEq α] (f : α → α) : (rounds : Nat) → α → α
  | 0, x => x
  | rounds + 1, x => if f x = x then x else settle f rounds (f x)

/-- The counts of all computations are found together, in no more rounds than calls nest. -/
def occupiers (t : AsyncTracker τ) (m : Module) (r : Resource) (name : String) : UInt32 :=
  OccupierCounts.count (settle (t.recount m r) (m.computations.length + 1) []) name

theorem repeat_fixed {α : Type} {f : α → α} {x : α} (h : f x = x) (n : Nat) :
    Nat.repeat f n x = x := by
  induction n with
  | zero => rfl
  | succ n ih => rw [Nat.repeat, ih, h]

theorem repeat_apply {α : Type} (f : α → α) (n : Nat) (x : α) :
    Nat.repeat f n (f x) = f (Nat.repeat f n x) := by
  induction n with
  | zero => rfl
  | succ n ih => rw [Nat.repeat, ih, Nat.repeat]

theorem settle_eq_repeat {α : Type} [DecidableEq α] (f : α → α) (rounds : Nat) (x : α) :
    settle f rounds x = Nat.repeat f rounds x := by
  induction rounds generalizing x with
  | zero => rfl
  | succ n ih =>
    rw [settle]
    split
    · next h => exact (repeat_fixed h (n + 1)).symm
    · rw [ih, repeat_apply, Nat.repeat]

theorem count_map (f : Computation → UInt32) (cs : List Computation) (name : String) :
    OccupierCounts.count (cs.map fun c => (c.name, f c)) name =
      ((cs.find? (·.name == name)).map f).getD 0 := by
  induction cs with
  | nil => rfl
  | cons c cs ih =>
    simp only [OccupierCounts.count, List.map_cons, List.find?_cons] at ih ⊢
    cases c.name == name
    · exact ih
    · rfl

theorem count_repeat_recount (t : AsyncTracker τ) (m : Module) (r : Resource) (depth : Nat)
    (name : String) :
    OccupierCounts.count (Nat.repeat (t.recount m r) depth []) name =
      t.occupiersWithin m r depth name := by
  induction depth generalizing name with
  | zero => rfl
  | succ depth ih =>
    have counts : OccupierCounts.count (Nat.repeat (t.recount m r) depth []) =
        t.occupiersWithin m r depth := funext ih
    rw [Nat.repeat, recount, count_map, counts, occupiersWithin, Module.overCalls, Module.find?]
    cases m.computations.find? (·.name == name) with
    | none => rfl
    | some c => rfl

theorem occupiers_eq (t : AsyncTracker τ) (m : Module) (r : Resource) (name : String) :
    t.occupiers m r name = t.occupiersWithin m r (m.computations.length + 1) name := by
  rw [occupiers, settle_eq_repeat, count_repeat_recount]

def directUnits (t : AsyncTracker τ) (r : Resource) (i : Instruction) : UInt32 :=
  if (t.uses i).any (·.1 = r) then 1 else 0

/-- Units of `r` held while an instruction runs. Without a module calls are taken to hold nothing. -/
def unitsHeld (t : AsyncTracker τ) (r : Resource) (i : Instruction) (m : Option Module) : UInt32 :=
  match m with
  | none => t.directUnits r i
  | some m =>
    if i.calls.isEmpty || t.isStart i || t.isDone i then t.directUnits r i
    else largestCount (i.calls.map (t.occupiers m r))

abbrev OccupierMemo := List ((String × Resource) × UInt32)

def OccupierMemo.find? (memo : OccupierMemo) (name : String) (r : Resource) : Option UInt32 :=
  (List.find? (fun entry => entry.1 = (name, r)) memo).map (·.2)

/-- Count with a memo, which takes up the answer and all answers on the way to it. -/
def rememberedWithin (t : AsyncTracker τ) (m : Module) (r : Resource) :
    (depth : Nat) → String → StateM OccupierMemo UInt32
  | 0, _ => pure 0
  | depth + 1, name => do
    match (← get).find? name r with
    | some count => return count
    | none =>
      let count ← match m.find? name with
        | none => pure 0
        | some c => do
          let units ← c.instructions.mapM fun p => do
            let nested ← (t.heldCallees p.toInstruction).mapM (t.rememberedWithin m r depth)
            return t.ownUnits r p.toInstruction + largestCount nested
          pure (totalCount units)
      modify (((name, r), count) :: ·)
      return count

def remembered (t : AsyncTracker τ) (m : Module) (r : Resource) (name : String) :
    StateM OccupierMemo UInt32 :=
  t.rememberedWithin m r (m.computations.length + 1) name

def inRange (n : Nat) : Option UInt32 := if n < UInt32.size then some (.ofNat n) else none

def addInRange (a b : UInt32) : Option UInt32 := inRange (a.toNat + b.toNat)

/-- Counting by someone who takes notes. There is no answer once a sum leaves the range. -/
abbrev Counting (σ : Type) := OptionT (StateM σ)

instance (σ : Type) : MonadLift Option (Counting σ) := ⟨fun x => .mk (pure x)⟩

section Checked

variable {M : Type → Type} [Monad M]

def largestOf (count : String → M UInt32) (callees : List String) : M UInt32 :=
  callees.foldlM (fun most callee => return max most (← count callee)) 0

def checkedUnitsIn [MonadLiftT Option M] (t : AsyncTracker τ) (r : Resource) (c : Computation)
    (count : String → M UInt32) : M UInt32 :=
  c.instructions.foldlM (fun sum p => do
    let nested ← largestOf count (t.heldCallees p.toInstruction)
    let units ← addInRange (t.ownUnits r p.toInstruction) nested
    addInRange sum units) 0

def checkedUnitsHeld (t : AsyncTracker τ) (count : Module → Resource → String → M UInt32)
    (r : Resource) (i : Instruction) (m : Option Module) : M UInt32 :=
  match m with
  | none => return t.directUnits r i
  | some m =>
    if i.calls.isEmpty || t.isStart i || t.isDone i then return t.directUnits r i
    else largestOf (count m r) i.calls

end Checked

/-- The count by the recursion over calls, which starts over at every call. -/
def checkedOccupiers (t : AsyncTracker τ) (m : Module) (r : Resource) (name : String) :
    Option UInt32 :=
  m.overCalls (some 0) (t.checkedUnitsIn r) (m.computations.length + 1) name

def recallWithin (t : AsyncTracker τ) (m : Module) (r : Resource) :
    (depth : Nat) → String → Counting OccupierMemo UInt32
  | 0, _ => return 0
  | depth + 1, name => do
    match (← get).find? name r with
    | some count => return count
    | none =>
      let count ← match m.find? name with
        | none => pure 0
        | some c => t.checkedUnitsIn r c (t.recallWithin m r depth)
      modify (((name, r), count) :: ·)
      return count

/-- The count from the memo if it is there, and otherwise a new one that the memo takes up. -/
def recalled (t : AsyncTracker τ) (m : Module) (r : Resource) (name : String) :
    Counting OccupierMemo UInt32 :=
  t.recallWithin m r (m.computations.length + 1) name

end LatencyHiding.AsyncTracker
