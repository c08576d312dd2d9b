import LatencyHiding.Proofs.Async.Memo

set_option autoImplicit false

namespace LatencyHiding.AsyncTracker

open Relation

namespace Answers

variable {σ α β : Type} {P : σ → Prop}

theorem bind_counting {x : Counting σ α} {f : α → Counting σ β} {a : Option α}
    {g : α → Option β} (hx : Answers P x.run a) (hf : ∀ v, a = some v → Answers P (f v).run (g v)) :
    Answers P (x >>= f).run (a >>= g) := by
  rw [OptionT.run_bind]
  refine .bind hx ?_
  cases a with
  | none => exact .pure none
  | some v => exact hf v rfl

theorem foldlM_counting {f : β → α → Counting σ β} {g : β → α → Option β} {xs : List α}
    (h : ∀ b, ∀ x ∈ xs, Answers P (f b x).run (g b x)) (b : β) :
    Answers P (xs.foldlM f b).run (xs.foldlM g b) := by
  induction xs generalizing b with
  | nil => exact .pure (some b)
  | cons x xs ih =>
    rw [List.foldlM_cons, List.foldlM_cons]
    refine bind_counting (h b x List.mem_cons_self) fun next _ => ?_
    exact ih (fun b x hx => h b x (List.mem_cons_of_mem _ hx)) next

theorem lift (x : Option α) : Answers P (liftM x : Counting σ α).run x := .pure x

variable {count : String → Counting σ UInt32} {checked : String → Option UInt32}

theorem largestOf {callees : List String}
    (h : ∀ callee ∈ callees, Answers P (count callee).run (checked callee)) :
    Answers P (AsyncTracker.largestOf count callees).run
      (AsyncTracker.largestOf checked callees) :=
  foldlM_counting (fun _ callee hcallee => bind_counting (h callee hcallee) fun _ _ => .pure _) 0

theorem checkedUnitsIn {τ : Type} {t : AsyncTracker τ} {c : Computation}
    (h : ∀ p ∈ c.instructions, ∀ callee ∈ p.calls, Answers P (count callee).run (checked callee))
    (r : Resource) : Answers P (t.checkedUnitsIn r c count).run (t.checkedUnitsIn r c checked) := by
  refine foldlM_counting (fun sum p hp => bind_counting (largestOf fun callee hcallee => ?_)
    fun nested _ => bind_counting (.lift _) fun units _ => .lift _) 0
  exact h p hp callee (mem_calls_of_mem_heldCallees hcallee)

end Answers

variable {τ : Type} {t : AsyncTracker τ} {m : Module} {r : Resource}

theorem checkedUnitsIn_congr (c : Computation) (checked checked' : String → Option UInt32)
    (h : ∀ p ∈ c.instructions, ∀ callee ∈ p.calls, checked callee = checked' callee) :
    t.checkedUnitsIn r c checked = t.checkedUnitsIn r c checked' := by
  -- an action that takes no notes is answered by both
  let count (callee : String) : Counting Unit UInt32 := .mk (pure (checked callee))
  have hfirst : Answers (fun _ => True) (t.checkedUnitsIn r c count).run
      (t.checkedUnitsIn r c checked) := .checkedUnitsIn (fun _ _ _ _ => .pure _) r
  have hsecond : Answers (fun _ => True) (t.checkedUnitsIn r c count).run
      (t.checkedUnitsIn r c checked') := by
    refine .checkedUnitsIn (fun p hp callee hcallee => ?_) r
    rw [← h p hp callee hcallee]
    exact .pure _
  obtain ⟨_, hrun, _⟩ := hfirst () trivial
  obtain ⟨_, hrun', _⟩ := hsecond () trivial
  exact congrArg Prod.fst (hrun.symm.trans hrun')

theorem checkedOccupiers_of_find? (sound : m.Sound)
    (acyclic : ∀ name, ¬ TransGen m.Calls name name) {name : String} {c : Computation}
    (hfind : m.find? name = some c) :
    t.checkedOccupiers m r name = t.checkedUnitsIn r c (t.checkedOccupiers m r) :=
  Module.overCalls_of_find? sound acyclic checkedUnitsIn_congr hfind

def Recalls (t : AsyncTracker τ) (m : Module) (memo : OccupierMemo) : Prop :=
  ∀ name r count, ((name, r), count) ∈ memo → t.checkedOccupiers m r name = some count

theorem recalls_nil (t : AsyncTracker τ) (m : Module) : t.Recalls m [] := by simp [Recalls]

theorem Recalls.cons {memo : OccupierMemo} (recalls : t.Recalls m memo) {name : String}
    {count : UInt32} (hcount : t.checkedOccupiers m r name = some count) :
    t.Recalls m (((name, r), count) :: memo) := by
  intro name' r' count' hentry
  rcases List.mem_cons.1 hentry with hnew | hold
  · simp only [Prod.mk.injEq] at hnew
    obtain ⟨⟨rfl, rfl⟩, rfl⟩ := hnew
    exact hcount
  · exact recalls name' r' count' hold

def counted (t : AsyncTracker τ) (m : Module) (r : Resource) (depth : Nat) (name : String) :
    Counting OccupierMemo UInt32 :=
  match m.find? name with
  | none => pure 0
  | some c => t.checkedUnitsIn r c (t.recallWithin m r depth)

theorem run_get_bind {α : Type} (f : OccupierMemo → Counting OccupierMemo α) (memo : OccupierMemo) :
    (get >>= f : Counting OccupierMemo α).run.run memo = (f memo).run.run memo := rfl

theorem recallWithin_of_find? {memo : OccupierMemo} {name : String} {count : UInt32}
    (h : memo.find? name r = some count) (depth : Nat) :
    (t.recallWithin m r (depth + 1) name).run.run memo = (some count, memo) := by
  rw [recallWithin, run_get_bind]
  simp only [h]
  rfl

theorem recallWithin_of_new {memo memo' : OccupierMemo} {name : String}
    (h : memo.find? name r = none) (depth : Nat) {answer : Option UInt32}
    (hcounted : (t.counted m r depth name).run.run memo = (answer, memo')) :
    (t.recallWithin m r (depth + 1) name).run.run memo =
      (answer, (answer.map fun count => ((name, r), count)).toList ++ memo') := by
  have hrun : (t.recallWithin m r (depth + 1) name).run.run memo =
      ((t.counted m r depth name >>= fun count => do
        modify (((name, r), count) :: ·)
        return count) : Counting OccupierMemo UInt32).run.run memo := by
    rw [recallWithin, run_get_bind]
    simp only [h]
    unfold counted
    cases m.find? name <;> rfl
  rw [hrun, OptionT.run_bind, Option.elimM, StateT.run_bind, hcounted]
  cases answer <;> rfl

section Acyclic

variable (sound : m.Sound) (acyclic : ∀ name, ¬ TransGen m.Calls name name)

include sound acyclic

theorem answers_counted {depth : Nat} {name : String}
    (h : ∀ callee, m.Calls name callee → Answers (t.Recalls m)
      (t.recallWithin m r depth callee).run (t.checkedOccupiers m r callee)) :
    Answers (t.Recalls m) (t.counted m r depth name).run (t.checkedOccupiers m r name) := by
  unfold counted
  cases hfind : m.find? name with
  | none =>
    rw [checkedOccupiers, Module.overCalls_of_unknown hfind]
    exact .pure _
  | some c =>
    obtain ⟨hc, rfl⟩ := Module.mem_of_find? hfind
    rw [checkedOccupiers_of_find? sound acyclic hfind]
    exact .checkedUnitsIn (fun p hp callee hcallee => h callee ⟨c, hc, rfl, p, hp, hcallee⟩) r

theorem answers_recallWithin {depth : Nat} {name : String} (hrank : m.rank name < depth) :
    Answers (t.Recalls m) (t.recallWithin m r depth name).run (t.checkedOccupiers m r name) := by
  -- entries that are made on the way down are right as well
  induction depth generalizing name with
  | zero => omega
  | succ depth ih =>
    intro memo recalls
    cases hfind : memo.find? name r with
    | some count =>
      rw [recalls name r count (mem_of_find?_memo hfind)]
      exact ⟨memo, recallWithin_of_find? hfind depth, recalls⟩
    | none =>
      have hbelow : Answers (t.Recalls m) (t.counted m r depth name).run
          (t.checkedOccupiers m r name) := by
        apply answers_counted sound acyclic
        intro callee hcalls
        have hlt := sound.rank_lt acyclic hcalls
        exact ih (by omega)
      obtain ⟨memo', hrun, recalls'⟩ := hbelow memo recalls
      refine ⟨_, recallWithin_of_new hfind depth hrun, ?_⟩
      cases hcount : t.checkedOccupiers m r name with
      | none => exact recalls'
      | some count => exact recalls'.cons hcount

theorem answers_recalled (r : Resource) (name : String) :
    Answers (t.Recalls m) (t.recalled m r name).run (t.checkedOccupiers m r name) :=
  answers_recallWithin sound acyclic (Nat.lt_succ_of_le (m.rank_le name))

end Acyclic

end LatencyHiding.AsyncTracker
