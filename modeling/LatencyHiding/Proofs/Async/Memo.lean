import LatencyHiding.Proofs.Async.Counts

set_option autoImplicit false

namespace LatencyHiding

open Relation

namespace AsyncTracker

variable {τ : Type} {t : AsyncTracker τ} {m : Module} {r : Resource}

theorem unitsIn_congr (c : Computation) (count count' : String → UInt32)
    (h : ∀ p ∈ c.instructions, ∀ callee ∈ p.calls, count callee = count' callee) :
    t.unitsIn r c count = t.unitsIn r c count' := by
  unfold unitsIn
  congr 1
  apply List.map_congr_left
  intro p hp
  congr 2
  apply List.map_congr_left
  intro callee hcallee
  exact h p hp callee (mem_calls_of_mem_heldCallees hcallee)

theorem occupiers_of_unknown {name : String} (hunknown : m.find? name = none) :
    t.occupiers m r name = 0 := by
  rw [occupiers_eq]
  exact Module.overCalls_of_unknown hunknown _

theorem occupiers_of_find? (sound : m.Sound) (acyclic : ∀ name, ¬ TransGen m.Calls name name)
    {name : String} {c : Computation} (hfind : m.find? name = some c) :
    t.occupiers m r name = t.unitsIn r c (t.occupiers m r) := by
  have hcounts : t.occupiers m r = t.occupiersWithin m r (m.computations.length + 1) :=
    funext (t.occupiers_eq m r)
  rw [hcounts]
  exact Module.overCalls_of_find? sound acyclic unitsIn_congr hfind

/-- From all notes with a property the action gives this value, and notes with the property. -/
def Answers {σ α : Type} (P : σ → Prop) (action : StateM σ α) (value : α) : Prop :=
  ∀ memo, P memo → ∃ memo', action.run memo = (value, memo') ∧ P memo'

namespace Answers

variable {σ α β : Type} {P : σ → Prop}

theorem pure (value : α) : Answers P (Pure.pure value) value :=
  fun memo hmemo => ⟨memo, rfl, hmemo⟩

theorem bind {x : StateM σ α} {f : α → StateM σ β} {a : α} {b : β}
    (hx : Answers P x a) (hf : Answers P (f a) b) : Answers P (x >>= f) b := by
  intro memo hmemo
  obtain ⟨mid, hmid, hmid'⟩ := hx memo hmemo
  obtain ⟨memo', hmemo', hlast⟩ := hf mid hmid'
  refine ⟨memo', ?_, hlast⟩
  rw [StateT.run_bind, hmid]
  exact hmemo'

theorem mapM {f : α → StateM σ β} {g : α → β} {xs : List α}
    (h : ∀ x ∈ xs, Answers P (f x) (g x)) : Answers P (xs.mapM f) (xs.map g) := by
  induction xs with
  | nil => exact pure []
  | cons x xs ih =>
    obtain ⟨hx, hxs⟩ := List.forall_mem_cons.1 h
    rw [List.mapM_cons]
    exact bind hx (bind (ih hxs) (pure _))

end Answers

theorem mem_of_find?_memo {memo : OccupierMemo} {name : String} {count : UInt32}
    (h : memo.find? name r = some count) : ((name, r), count) ∈ memo := by
  obtain ⟨⟨key, _⟩, hentry, rfl⟩ := Option.map_eq_some_iff.1 h
  obtain rfl : key = (name, r) := by simpa using List.find?_some hentry
  exact List.mem_of_find?_eq_some hentry

def recounted (t : AsyncTracker τ) (m : Module) (r : Resource) (depth : Nat) (name : String) :
    StateM OccupierMemo UInt32 :=
  match m.find? name with
  | none => pure 0
  | some c => do
    let units ← c.instructions.mapM fun p => do
      let nested ← (t.heldCallees p.toInstruction).mapM (t.rememberedWithin m r depth)
      return t.ownUnits r p.toInstruction + largestCount nested
    pure (totalCount units)

theorem rememberedWithin_of_find? {memo : OccupierMemo} {name : String} {count : UInt32}
    (h : memo.find? name r = some count) (depth : Nat) :
    (t.rememberedWithin m r (depth + 1) name).run memo = (count, memo) := by
  simp only [rememberedWithin, StateT.run_bind, StateT.run_get, pure_bind, h]
  rfl

/-- A new count goes to the front of the memo, before those that were found on the way. -/
theorem rememberedWithin_of_new {memo : OccupierMemo} {name : String}
    (h : memo.find? name r = none) (depth : Nat) {count : UInt32} {memo' : OccupierMemo}
    (hcount : (t.recounted m r depth name).run memo = (count, memo')) :
    (t.rememberedWithin m r (depth + 1) name).run memo = (count, ((name, r), count) :: memo') := by
  have hrun : (t.rememberedWithin m r (depth + 1) name).run memo =
      (((t.recounted m r depth name).run memo).1,
        ((name, r), ((t.recounted m r depth name).run memo).1) ::
          ((t.recounted m r depth name).run memo).2) := by
    simp only [rememberedWithin, StateT.run_bind, StateT.run_get, pure_bind, h]
    unfold recounted
    cases m.find? name with
    | none => rfl
    | some c => rfl
  rw [hrun, hcount]

/-- What was answered once is answered again, whatever module is asked about. -/
theorem remembered_again (t : AsyncTracker τ) (m m' : Module) (r : Resource) (name : String)
    (memo : OccupierMemo) : ∃ count memo', (t.remembered m r name).run memo = (count, memo') ∧
      (t.remembered m' r name).run memo' = (count, memo') := by
  cases hfind : memo.find? name r with
  | some count =>
    exact ⟨count, memo, rememberedWithin_of_find? hfind _, rememberedWithin_of_find? hfind _⟩
  | none =>
    cases hcount : (t.recounted m r m.computations.length name).run memo with
    | mk count memo' =>
      refine ⟨count, _, rememberedWithin_of_new hfind _ hcount, rememberedWithin_of_find? ?_ _⟩
      simp [OccupierMemo.find?]

/-- Every entry is the count of its computation in all modules that are asked about. -/
def Faithful (t : AsyncTracker τ) (among : Module → Prop) (memo : OccupierMemo) : Prop :=
  ∀ name r count, ((name, r), count) ∈ memo → ∀ m, among m → t.occupiers m r name = count

section Agree

variable {among : Module → Prop}
  (agree : ∀ m m', among m → among m' → ∀ r name, t.occupiers m r name = t.occupiers m' r name)
  (hm : among m) (sound : m.Sound) (acyclic : ∀ name, ¬ TransGen m.Calls name name)

include agree hm in
theorem Faithful.cons {memo : OccupierMemo} (faithful : t.Faithful among memo) (name : String) :
    t.Faithful among (((name, r), t.occupiers m r name) :: memo) := by
  intro name' r' count hentry m' hm'
  rcases List.mem_cons.1 hentry with hnew | hold
  · simp only [Prod.mk.injEq] at hnew
    obtain ⟨⟨rfl, rfl⟩, rfl⟩ := hnew
    exact agree m' m hm' hm _ _
  · exact faithful name' r' count hold m' hm'

include sound acyclic

theorem answers_recounted {P : OccupierMemo → Prop} {depth : Nat} {name : String}
    (h : ∀ callee, m.Calls name callee →
      Answers P (t.rememberedWithin m r depth callee) (t.occupiers m r callee)) :
    Answers P (t.recounted m r depth name) (t.occupiers m r name) := by
  unfold recounted
  cases hfind : m.find? name with
  | none =>
    rw [occupiers_of_unknown hfind]
    exact .pure 0
  | some c =>
    obtain ⟨hc, rfl⟩ := Module.mem_of_find? hfind
    rw [occupiers_of_find? sound acyclic hfind]
    refine .bind (.mapM fun p hp => .bind (.mapM fun callee hcallee => ?_) (.pure _)) (.pure _)
    exact h callee ⟨c, hc, rfl, p, hp, mem_calls_of_mem_heldCallees hcallee⟩

include agree hm

theorem answers_rememberedWithin {depth : Nat} {name : String} (hrank : m.rank name < depth) :
    Answers (t.Faithful among) (t.rememberedWithin m r depth name) (t.occupiers m r name) := by
  -- entries that are made on the way down are faithful as well
  induction depth generalizing name with
  | zero => omega
  | succ depth ih =>
    intro memo faithful
    cases hfind : memo.find? name r with
    | some count =>
      have hcount := faithful name r count (mem_of_find?_memo hfind) m hm
      rw [hcount]
      exact ⟨memo, rememberedWithin_of_find? hfind depth, faithful⟩
    | none =>
      have hbelow : Answers (t.Faithful among) (t.recounted m r depth name)
          (t.occupiers m r name) := by
        apply answers_recounted sound acyclic
        intro callee hcalls
        have hlt := sound.rank_lt acyclic hcalls
        exact ih (by omega)
      obtain ⟨memo', hrun, faithful'⟩ := hbelow memo faithful
      exact ⟨_, rememberedWithin_of_new hfind depth hrun, faithful'.cons agree hm name⟩

end Agree

structure OccupierQuery where
  module : Module
  resource : Resource
  computation : String

def OccupierQuery.count (t : AsyncTracker τ) (q : OccupierQuery) : UInt32 :=
  t.occupiers q.module q.resource q.computation

/-- What one tracker answers to queries in a row, its memo being empty at first. -/
def replies (t : AsyncTracker τ) (queries : List OccupierQuery) : List UInt32 :=
  ((queries.mapM fun q => t.remembered q.module q.resource q.computation).run' []).run

/-- A memo answers all histories of queries to some modules as the recursion over calls does, if and
only if these modules agree on the counts of every computation. -/
theorem replies_eq_count_iff (t : AsyncTracker τ) (among : Module → Prop)
    (h : ∀ m, among m → m.Made ∧ ∀ name, ¬ TransGen m.Calls name name) :
    (∀ queries : List OccupierQuery, (∀ q ∈ queries, among q.module) →
      t.replies queries = queries.map (·.count t)) ↔
    ∀ m m', among m → among m' → ∀ r name, t.occupiers m r name = t.occupiers m' r name := by
  constructor
  · intro hall m m' hm hm' r name
    have hpair := hall [⟨m, r, name⟩, ⟨m', r, name⟩] (by simp [hm, hm'])
    obtain ⟨count, memo, hfirst, hsecond⟩ := t.remembered_again m m' r name []
    have hreplies : t.replies [⟨m, r, name⟩, ⟨m', r, name⟩] = [count, count] := by
      unfold replies
      rw [StateT.run'_eq, List.mapM_cons, StateT.run_bind, hfirst]
      exact congrArg (fun answer : UInt32 × OccupierMemo => [count, answer.1]) hsecond
    rw [hreplies] at hpair
    obtain ⟨hcount, hcount'⟩ : count = t.occupiers m r name ∧ count = t.occupiers m' r name := by
      simpa [OccupierQuery.count] using hpair
    exact hcount.symm.trans hcount'
  · intro agree queries hqueries
    have hanswers : Answers (t.Faithful among)
        (queries.mapM fun q => t.remembered q.module q.resource q.computation)
        (queries.map (·.count t)) := by
      apply Answers.mapM
      intro q hq
      have hm := hqueries q hq
      obtain ⟨made, acyclic⟩ := h q.module hm
      exact answers_rememberedWithin agree hm made.sound acyclic
        (Nat.lt_succ_of_le (q.module.rank_le q.computation))
    obtain ⟨memo, hrun, _⟩ := hanswers [] (by simp [Faithful])
    unfold replies
    rw [StateT.run'_eq, hrun]
    rfl

def reducing : Module where
  name := "m"
  computations := [
    [{ name := "p", opcode := .parameter, shape := .array 4 },
      { name := "s", opcode := .allReduceStart, shape := .array 4, operands := [0] },
      { name := "d", opcode := .allReduceDone, shape := .array 4, operands := [1] }].foldl
        Computation.grown { name := "c" },
    [{ name := "p", opcode := .parameter, shape := .array 4 },
      { name := "v", opcode := .call, shape := .array 4, operands := [0], calls := ["c"] },
      { name := "w", opcode := .call, shape := .array 4, operands := [1], calls := ["c"] }].foldl
        Computation.grown { name := "main", isEntry := true }]

theorem made_reducing : reducing.Made := by
  refine .assembled (?_ : ∀ c ∈ reducing.computations, c.Built)
    (rfl : Module.assemble "m" _ none = .ok reducing)
  rw [show reducing.computations = [_, _] from rfl, List.forall_mem_cons, List.forall_mem_singleton]
  exact ⟨Computation.built_foldl_grown (.empty "c" false) _ rfl,
    Computation.built_foldl_grown (.empty "main" true) _ rfl⟩

theorem acyclic_reducing (name : String) : ¬ TransGen reducing.Calls name name :=
  Module.acyclic_of_rank (fun name => if name = "main" then 1 else 0) (by decide) name

theorem replies_reducing :
    (generic {} : AsyncTracker Float).replies
      [⟨reducing, .allReduce, "main"⟩, ⟨reducing, .allReduce, "c"⟩] =
        [⟨reducing, .allReduce, "main"⟩, ⟨reducing, .allReduce, "c"⟩].map
          (OccupierQuery.count (generic {} : AsyncTracker Float)) ∧
    OccupierQuery.count (generic {} : AsyncTracker Float) ⟨reducing, .allReduce, "main"⟩ = 2 := by
  refine ⟨(replies_eq_count_iff (generic {}) (· = reducing) ?_).2 ?_ _ ?_, by decide⟩
  · rintro m rfl
    exact ⟨made_reducing, acyclic_reducing⟩
  · rintro m m' rfl rfl r name
    rfl
  · simp

def idle : Module where
  name := "m"
  computations := [
    [{ name := "p", opcode := .parameter, shape := .array 4 }].foldl
      Computation.grown { name := "c", isEntry := true }]

/-- A count of one module is given out as that of another. -/
theorem replies_ne_count :
    (idle.Made ∧ ∀ name, ¬ TransGen idle.Calls name name) ∧
    (reducing.Made ∧ ∀ name, ¬ TransGen reducing.Calls name name) ∧
    ∀ platform : Platform,
      (ofPlatform {} platform : AsyncTracker Float).replies
        [⟨reducing, .allReduce, "c"⟩, ⟨idle, .allReduce, "c"⟩] = [1, 1] ∧
      OccupierQuery.count (ofPlatform {} platform : AsyncTracker Float) ⟨idle, .allReduce, "c"⟩ =
        0 := by
  have hidle : idle.Made := by
    refine .assembled (?_ : ∀ c ∈ idle.computations, c.Built)
      (rfl : Module.assemble "m" _ none = .ok idle)
    rw [show idle.computations = [_] from rfl, List.forall_mem_singleton]
    exact Computation.built_foldl_grown (.empty "c" true) _ rfl
  refine ⟨⟨hidle, Module.acyclic_of_rank (fun _ => 0) (by decide)⟩,
    ⟨made_reducing, acyclic_reducing⟩, ?_⟩
  rintro ⟨⟩ <;> decide

end AsyncTracker

end LatencyHiding
