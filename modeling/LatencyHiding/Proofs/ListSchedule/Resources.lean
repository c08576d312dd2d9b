import LatencyHiding.Proofs.Async.Uses
import LatencyHiding.Proofs.KeyedList
import LatencyHiding.Proofs.ListSchedule.History
import Mathlib.Tactic.Choose

set_option autoImplicit false

namespace LatencyHiding

variable {τ : Type}

/-- As many members satisfy `q` as satisfy `p`, if those that satisfy `p` can be sent to different
ones that satisfy `q`. -/
theorem countP_le_of_injOn {l : List Nat} (nodup : l.Nodup) {p q : Nat → Bool} (f : Nat → Nat)
    (hf : ∀ a ∈ l, p a → f a ∈ l ∧ q (f a))
    (hinj : ∀ a ∈ l, p a → ∀ b ∈ l, p b → f a = f b → a = b) : l.countP p ≤ l.countP q := by
  rw [List.countP_eq_length_filter, List.countP_eq_length_filter, ← List.length_map f]
  refine (List.subperm_of_subset ((nodup.filter p).map_on ?_) ?_).length_le
  · intro a ha b hb
    obtain ⟨ha, hpa⟩ := List.mem_filter.1 ha
    obtain ⟨hb, hpb⟩ := List.mem_filter.1 hb
    exact hinj a ha hpa b hb hpb
  · intro x hx
    obtain ⟨a, ha, rfl⟩ := List.mem_map.1 hx
    obtain ⟨ha, hpa⟩ := List.mem_filter.1 ha
    exact List.mem_filter.2 (hf a ha hpa)

namespace Computation

variable (c : Computation) (tracker : AsyncTracker τ)

def makes (use : Resource × Usage) (id : Nat) : Bool := (c.usesOf tracker id).contains use

def occupiers (r : Resource) (ids : List Nat) : Nat := ids.countP (c.makes tracker (r, .occupy))

def releasers (r : Resource) (ids : List Nat) : Nat := ids.countP (c.makes tracker (r, .release))

/-- What occupies resources is needed by one instruction, which releases the same, and what releases
resources needs one instruction that occupies any. -/
structure Paired : Prop where
  partner : ∀ a, (∃ r, c.makes tracker (r, .occupy) a) →
    ∃ b, (∀ b', c.Needs b' a ↔ b' = b) ∧
      ∀ r, c.makes tracker (r, .release) b ↔ c.makes tracker (r, .occupy) a
  source : ∀ b, (∃ r, c.makes tracker (r, .release) b) →
    ∃ a, ∀ a', c.Needs b a' ∧ (∃ r, c.makes tracker (r, .occupy) a') ↔ a' = a

variable {c tracker}

theorem makes_iff (use : Resource × Usage) (id : Nat) :
    c.makes tracker use id ↔ use ∈ c.usesOf tracker id := by simp [makes]

theorem usesOf_eq {id : Nat} {p : Placed} (hp : c.instruction? id = some p) :
    c.usesOf tracker id = tracker.uses p.toInstruction := by
  rw [usesOf, hp]
  rfl

theorem usesOf_cases (c : Computation) (tracker : AsyncTracker τ) (id : Nat) :
    c.usesOf tracker id = [] ∨ ∃ i, c.usesOf tracker id = tracker.uses i := by
  unfold usesOf
  cases c.instruction? id with
  | none => exact Or.inl rfl
  | some p => exact Or.inr ⟨p.toInstruction, rfl⟩

theorem nodup_usesOf (regular : tracker.Regular) (id : Nat) :
    ((c.usesOf tracker id).map Prod.fst).Nodup := by
  rcases usesOf_cases c tracker id with h | ⟨i, h⟩
  · simp [h]
  · rw [h]
    exact regular.nodup i

theorem not_releases_of_occupies (regular : tracker.Regular) {id : Nat} {r r' : Resource}
    (h : c.makes tracker (r, .occupy) id) : ¬ c.makes tracker (r', .release) id := by
  intro h'
  rw [makes_iff] at h h'
  rcases usesOf_cases c tracker id with hnone | ⟨i, huses⟩
  · rw [hnone] at h
    cases h
  · rw [huses] at h h'
    exact Usage.noConfusion (regular.uniform i _ h _ h')

namespace Paired

/-- What is placed with all that needs it releases what it occupies. -/
theorem occupiers_le_releasers (paired : c.Paired tracker) (r : Resource) {l : List Nat}
    (nodup : l.Nodup) (closed : ∀ a ∈ l, ∀ b, c.Needs b a → b ∈ l) :
    c.occupiers tracker r l ≤ c.releasers tracker r l := by
  have hpartner := paired.partner
  choose! done hneeds hreleases using hpartner
  apply countP_le_of_injOn nodup done
  · intro a ha hoccupies
    exact ⟨closed a ha _ ((hneeds a ⟨r, hoccupies⟩ _).2 rfl),
      (hreleases a ⟨r, hoccupies⟩ r).2 hoccupies⟩
  · intro a _ ha b _ hb hsame
    have hreleased := (hreleases a ⟨r, ha⟩ r).2 ha
    obtain ⟨start, hstart⟩ := paired.source (done a) ⟨r, hreleased⟩
    have hneedsb := (hneeds b ⟨r, hb⟩ (done b)).2 rfl
    rw [← hsame] at hneedsb
    exact ((hstart a).1 ⟨(hneeds a ⟨r, ha⟩ _).2 rfl, r, ha⟩).trans
      ((hstart b).1 ⟨hneedsb, r, hb⟩).symm

theorem releasers_le_occupiers (paired : c.Paired tracker) (r : Resource) {l : List Nat}
    (nodup : l.Nodup) (closed : ∀ b ∈ l, ∀ a, c.Needs b a → c.makes tracker (r, .release) b →
      c.makes tracker (r, .occupy) a → a ∈ l) :
    c.releasers tracker r l ≤ c.occupiers tracker r l := by
  have hsource := paired.source
  choose! start hstart using hsource
  -- the start of a done occupies what the done releases, and leads to no other done
  have hpair (b : Nat) (hb : c.makes tracker (r, .release) b) : c.Needs b (start b) ∧
      c.makes tracker (r, .occupy) (start b) ∧ ∀ b', c.Needs b' (start b) → b' = b := by
    obtain ⟨hneeds, hoccupies⟩ := (hstart b ⟨r, hb⟩ (start b)).2 rfl
    obtain ⟨done, honly, hsame⟩ := paired.partner (start b) hoccupies
    obtain rfl : b = done := (honly b).1 hneeds
    exact ⟨hneeds, (hsame r).1 hb, fun b' hb' => (honly b').1 hb'⟩
  apply countP_le_of_injOn nodup start
  · intro b hb hreleases
    obtain ⟨hneeds, hoccupies, _⟩ := hpair b hreleases
    exact ⟨closed b hb _ hneeds hreleases hoccupies, hoccupies⟩
  · intro b _ hb b' _ hb' hsame
    exact (hpair b' hb').2.2 b (hsame ▸ (hpair b hb).1)

end Paired

end Computation

namespace ScheduleState

variable {c : Computation} {tracker : AsyncTracker τ}

theorem getD_countUse (inFlight : KeyedList Resource Nat) (use : Resource × Usage) (r : Resource) :
    (countUse inFlight use).getD r 0 =
      if use = (r, .release) then inFlight.getD r 0 + 1
      else if use = (r, .occupy) then inFlight.getD r 0 - 1
      else inFlight.getD r 0 := by
  obtain ⟨r', usage⟩ := use
  unfold countUse
  rw [KeyedList.getD_alter]
  by_cases hr : r = r'
  · subst hr
    cases usage <;> simp
  · cases usage <;> simp [hr, Ne.symm hr]

theorem getD_foldl_countUse (uses : List (Resource × Usage)) (nodup : (uses.map Prod.fst).Nodup)
    (inFlight : KeyedList Resource Nat) (r : Resource) :
    (uses.foldl countUse inFlight).getD r 0 =
      if (r, .release) ∈ uses then inFlight.getD r 0 + 1
      else if (r, .occupy) ∈ uses then inFlight.getD r 0 - 1
      else inFlight.getD r 0 := by
  induction uses generalizing inFlight with
  | nil => simp
  | cons use rest ih =>
    obtain ⟨hnew, nodup⟩ := List.nodup_cons.1 nodup
    rw [List.foldl_cons, ih nodup, getD_countUse]
    by_cases hr : use.1 = r
    · subst hr
      have hrest (usage : Usage) : (use.1, usage) ∉ rest := fun h =>
        hnew (List.mem_map.2 ⟨_, h, rfl⟩)
      obtain ⟨r, usage⟩ := use
      cases usage <;> simp [hrest]
    · have hne (usage : Usage) : use ≠ (r, usage) := fun h => hr (congrArg Prod.fst h)
      have hne' (usage : Usage) : (r, usage) ≠ use := fun h => hne usage h.symm
      simp [hne, hne']

/-- In flight is what was released and not yet occupied. -/
theorem inFlightAfter_balance (regular : tracker.Regular) (paired : c.Paired tracker)
    {placed : List Nat} (nodup : placed.Nodup)
    (grounded : Grounded (fun a b => c.Needs b a) placed) (r : Resource) :
    (inFlightAfter (c.usesOf tracker) placed).getD r 0 + c.occupiers tracker r placed =
      c.releasers tracker r placed := by
  induction placed with
  | nil => rfl
  | cons a rest ih =>
    obtain ⟨hnew, nodup'⟩ := List.nodup_cons.1 nodup
    have ih := ih nodup' grounded.2
    have hstep := getD_foldl_countUse (c.usesOf tracker a) (Computation.nodup_usesOf regular a)
      (inFlightAfter (c.usesOf tracker) rest) r
    rw [inFlightAfter, List.foldr_cons, ← inFlightAfter, hstep, Computation.occupiers,
      Computation.releasers, List.countP_cons, List.countP_cons, ← Computation.occupiers,
      ← Computation.releasers]
    simp only [← Computation.makes_iff]
    by_cases hrelease : c.makes tracker (r, .release) a = true
    · have hoccupy : ¬ c.makes tracker (r, .occupy) a = true := fun h =>
        Computation.not_releases_of_occupies regular h hrelease
      simp only [hrelease, hoccupy]
      simp
      omega
    · by_cases hoccupy : c.makes tracker (r, .occupy) a = true
      · -- its done is placed and in flight, since it has no other start
        have hle := paired.occupiers_le_releasers r nodup fun x hx y hy => grounded.mem_of_rel hx hy
        rw [Computation.occupiers, Computation.releasers, List.countP_cons_of_pos hoccupy,
          List.countP_cons_of_neg hrelease, ← Computation.occupiers, ← Computation.releasers] at hle
        simp only [hrelease, hoccupy]
        simp
        omega
      · simp only [hrelease, hoccupy]
        simpa using ih

end ScheduleState

namespace Scheduler

open ScheduleState

variable [TimeScale τ] {s : Scheduler τ} {c : Computation} {sequence : List Nat}
  {m : Option Module} {pressure : Option Pressure} {st : ScheduleState τ}

/-- What the limits have to allow for. -/
structure Provided (s : Scheduler τ) (c : Computation) (m : Option Module) : Prop where
  limits_pos : ∀ limit ∈ s.tracker.limits, 1 ≤ limit.2
  paired : c.Paired s.tracker
  calls_fit : ∀ p ∈ c.instructions, p.calls ≠ [] → s.tracker.uses p.toInstruction = [] →
    ∀ limit ∈ s.tracker.limits, s.tracker.unitsHeld limit.1 p.toInstruction m ≤ limit.2

omit [TimeScale τ] in
theorem limitOf_eq (regular : s.tracker.Regular) (hst : st.limits = s.tracker.limits)
    {limit : Resource × UInt32} (hlimit : limit ∈ s.tracker.limits) :
    st.limitOf limit.1 = limit.2 := by
  have hfind : s.tracker.limits.find? (·.1 = limit.1) = some limit := by
    have nodup := regular.limits_nodup
    revert hlimit nodup
    induction s.tracker.limits with
    | nil => simp
    | cons first rest ih =>
      intro hlimit nodup
      obtain ⟨hfirst, nodup⟩ := List.nodup_cons.1 nodup
      rcases List.mem_cons.1 hlimit with rfl | hlimit
      · simp
      · have hne : first.1 ≠ limit.1 := fun h => hfirst (List.mem_map.2 ⟨limit, hlimit, h.symm⟩)
        rw [List.find?_cons_of_neg (by simpa using hne)]
        exact ih hlimit nodup
  rw [limitOf, hst, hfind]
  rfl

omit [TimeScale τ] in
theorem limitOf_pos (hst : st.limits = s.tracker.limits)
    (hpos : ∀ limit ∈ s.tracker.limits, 1 ≤ limit.2) (r : Resource) : 1 ≤ (st.limitOf r).toNat := by
  rw [limitOf, hst]
  cases hfind : s.tracker.limits.find? (·.1 = r) with
  | none => decide
  | some limit =>
    have := UInt32.le_iff_toNat_le.1 (hpos limit (List.mem_of_find?_eq_some hfind))
    simpa using this

section Order

variable (hc : c.Wired) (horder : c.IsOrder sequence) (regular : s.tracker.Regular)

include hc horder regular

theorem Reached.balance (h : s.Reached c sequence m pressure st) (paired : c.Paired s.tracker)
    (r : Resource) : st.inFlightOf r + c.occupiers s.tracker r st.placed =
      c.releasers s.tracker r st.placed := by
  rw [inFlightOf, h.inFlight_eq]
  exact inFlightAfter_balance regular paired (h.nodup_placed hc)
    (h.grounded_needs hc horder regular.demands_eq) r

/-- While something is in flight, a start of it is ready. -/
theorem Reached.exists_start_ready (h : s.Reached c sequence m pressure st)
    (paired : c.Paired s.tracker) {r : Resource} (hflight : 0 < st.inFlightOf r) :
    ∃ index ∈ st.ready, ∃ n, st.graph.node? index = some n ∧ (r, .occupy) ∈ n.uses := by
  obtain ⟨b, hb, a, hneeds, hrelease, hoccupy, hnot⟩ : ∃ b ∈ st.placed, ∃ a, c.Needs b a ∧
      c.makes s.tracker (r, .release) b ∧ c.makes s.tracker (r, .occupy) a ∧ a ∉ st.placed := by
    by_contra hnone
    have hle := paired.releasers_le_occupiers r (h.nodup_placed hc) (by
      intro b hb a hneeds hrelease hoccupy
      by_contra hnot
      exact hnone ⟨b, hb, a, hneeds, hrelease, hoccupy, hnot⟩)
    have := h.balance hc horder regular paired r
    omega
  obtain ⟨b', honly, _⟩ := paired.partner a ⟨r, hoccupy⟩
  obtain rfl : b = b' := (honly b).1 hneeds
  have ha : a ∈ sequence := (horder.mem_iff a).2 (Nat.lt_trans (hneeds.lt hc) hneeds.lt_size)
  obtain ⟨u, hu⟩ := List.mem_iff_getElem?.1 ha
  have hready : u ∈ st.ready := by
    refine (h.mem_ready_iff hc hu).2 ⟨hnot, ?_⟩
    intro b' hb' horders
    have := (precedes_iff_needs hc horder regular.demands_eq a b').1 ⟨ha, hb', horders⟩
    rwa [(honly b').1 this]
  obtain ⟨n, hn, hid⟩ := (Graph.getElem?_order_eq_some_iff st.graph u a).1
    (by rwa [(h.represents hc).2.1])
  refine ⟨u, hready, n, hn, ?_⟩
  rw [h.uses_eq hc hn, hid]
  exact (Computation.makes_iff _ _).1 hoccupy

omit horder in
/-- A start needs no room. -/
theorem Reached.isFeasible_start (h : s.Reached c sequence m pressure st) {u : Nat} {n : Node τ}
    (hn : st.graph.node? u = some n) {r : Resource} (hr : (r, .occupy) ∈ n.uses) :
    s.isFeasible st n = true := by
  have hfit : releasesFit st n = true := by
    unfold releasesFit
    rw [List.all_eq_true]
    rintro ⟨r', usage⟩ huse
    have hoccupy : c.makes s.tracker (r, .occupy) n.instr.id := by
      rw [Computation.makes_iff, ← h.uses_eq hc hn]
      exact hr
    cases usage with
    | occupy => simp
    | release =>
      rw [h.uses_eq hc hn, ← Computation.makes_iff] at huse
      exact (Computation.not_releases_of_occupies regular hoccupy huse).elim
  unfold isFeasible
  have huses : n.uses.isEmpty = false := by
    cases huses : n.uses with
    | nil => simp [huses] at hr
    | cons _ _ => rfl
  simp [hfit, huses]

omit horder regular in
/-- While nothing is in flight there is room for everything. -/
theorem Reached.isFeasible_of_idle (h : s.Reached c sequence m pressure st)
    (provided : s.Provided c m) (hidle : ∀ r, st.inFlightOf r = 0) {u : Nat} {n : Node τ}
    (hn : st.graph.node? u = some n) : s.isFeasible st n = true := by
  have hfit : releasesFit st n = true := by
    unfold releasesFit
    rw [List.all_eq_true]
    rintro ⟨r, usage⟩ _
    have := limitOf_pos h.limits_eq provided.limits_pos r
    simp [hidle r, this]
  unfold isFeasible
  rw [hfit, Bool.true_and]
  by_cases hcalls : n.instr.calls = []
  · simp [hcalls]
  by_cases huses : n.uses = []
  · obtain ⟨hknown, hlabel⟩ := h.label hc hn
    have hsame : n.uses = s.tracker.uses n.instr.toInstruction :=
      congrArg (fun label => label.2.2.2) hlabel
    have hcallsFit : s.callsFit st n = true := by
      unfold callsFit
      rw [List.all_eq_true, h.limits_eq]
      rintro ⟨r, limit⟩ hlimit
      have hneed : (s.tracker.unitsHeld r n.instr.toInstruction m).toNat ≤ limit.toNat :=
        UInt32.le_iff_toNat_le.1 (provided.calls_fit n.instr
          ((Computation.mem_instructions_iff c _).2 ⟨_, hknown⟩) hcalls (hsame ▸ huses) _ hlimit)
      simp only [unitsFit, hidle r, h.module_eq, Nat.zero_add, Bool.or_eq_true, decide_eq_true_eq]
      right
      omega
    simp [hcallsFit]
  · have : n.uses.isEmpty = false := by simpa using huses
    simp [this]

theorem Reached.exists_feasible (h : s.Reached c sequence m pressure st)
    (provided : s.Provided c m) (hready : st.ready ≠ []) :
    ∃ index ∈ st.ready, ∃ n, st.graph.node? index = some n ∧ s.isFeasible st n = true := by
  by_cases hflight : ∃ r, 0 < st.inFlightOf r
  · obtain ⟨r, hr⟩ := hflight
    obtain ⟨index, hindex, n, hn, huse⟩ :=
      h.exists_start_ready hc horder regular provided.paired hr
    exact ⟨index, hindex, n, hn, h.isFeasible_start hc regular hn huse⟩
  · have hidle (r : Resource) : st.inFlightOf r = 0 := by
      by_contra hr
      exact hflight ⟨r, Nat.pos_of_ne_zero hr⟩
    obtain ⟨index, hindex⟩ := List.exists_mem_of_ne_nil _ hready
    obtain ⟨history, consistent⟩ := h.consistent
    obtain ⟨n, hn⟩ := (Graph.lt_size_iff st.graph index).1
      ((consistent.mem_ready_iff index).1 hindex).1
    exact ⟨index, hindex, n, hn, h.isFeasible_of_idle hc provided hidle hn⟩

theorem Reached.feasible_step (h : s.Reached c sequence m pressure st) (provided : s.Provided c m)
    {did : ScheduleStep τ} {next : ScheduleState τ} (hstep : s.step? st = some (did, next)) :
    did.feasible = true ∧ ∃ index ∈ st.ready, ∃ n, st.graph.node? index = some n ∧
      s.isFeasible st n = true ∧ next = st.place index n := by
  obtain ⟨index, hindex, n, reason, hn, hbest, rfl, rfl⟩ := step?_best s hstep
  obtain ⟨index', hindex', n', hn', hfeasible⟩ :=
    h.exists_feasible hc horder regular provided (List.ne_nil_of_mem hindex)
  have hmem : s.candidate st index' n' ∈ (s.candidates st).filter (·.feasible) :=
    List.mem_filter.2 ⟨(mem_candidates_iff s _).2 ⟨index', hindex', n', hn', rfl⟩, hfeasible⟩
  have hpool := mem_pool_of_best? s hbest
  rw [pool_eq, if_neg (by simpa using List.ne_nil_of_mem hmem)] at hpool
  have hchosen : s.isFeasible st n = true := (List.mem_filter.1 hpool).2
  exact ⟨hchosen, index, hindex, n, hn, hchosen, rfl⟩

end Order

end Scheduler

end LatencyHiding
