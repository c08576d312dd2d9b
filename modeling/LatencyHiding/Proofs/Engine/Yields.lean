import LatencyHiding.Engine.Basic
import LatencyHiding.Proofs.Range

set_option autoImplicit false

namespace LatencyHiding

open AsyncTracker (Counting)

variable {σ α β : Type} {P : σ → Prop} {safe faithful : Prop}

/-- From all notes with a property, the work comes to a value with the property `Q`, and to notes
with theirs. It may come to none only if things are not safe. -/
def Yields (P : σ → Prop) (safe : Prop) (work : Counting σ α) (Q : α → Prop) : Prop :=
  ∀ notes, P notes → match work.run.run notes with
    | (some a, after) => Q a ∧ P after
    | (none, _) => ¬ safe

namespace Yields

variable {Q : α → Prop} {R : β → Prop}

theorem pure {a : α} (ha : Q a) : Yields P safe (Pure.pure a) Q := fun _ hnotes => ⟨ha, hnotes⟩

theorem mono {work : Counting σ α} {Q' : α → Prop} (h : Yields P safe work Q)
    (hQ : ∀ a, Q a → Q' a) : Yields P safe work Q' := by
  intro notes hnotes
  have hwork := h notes hnotes
  revert hwork
  cases work.run.run notes with
  | mk value after =>
    cases value with
    | none => exact id
    | some a => exact fun hwork => ⟨hQ a hwork.1, hwork.2⟩

theorem bind {work : Counting σ α} {f : α → Counting σ β} (h : Yields P safe work Q)
    (hf : ∀ a, Q a → Yields P safe (f a) R) : Yields P safe (work >>= f) R := by
  intro notes hnotes
  have hwork := h notes hnotes
  have hrun : (work >>= f).run.run notes = match work.run.run notes with
      | (some a, after) => (f a).run.run after
      | (none, after) => (none, after) := by
    rw [OptionT.run_bind, Option.elimM, StateT.run_bind]
    cases work.run.run notes with
    | mk value after => cases value <;> rfl
  rw [hrun]
  revert hwork
  cases work.run.run notes with
  | mk value after =>
    cases value with
    | none => exact id
    | some a => exact fun hwork => hf a hwork.1 after hwork.2

theorem allM {ask : α → Counting σ Bool} {truth : α → Bool} {l : List α}
    (h : ∀ x ∈ l, Yields P safe (ask x) fun b => faithful → b = truth x) :
    Yields P safe (l.allM ask) fun b => faithful → b = l.all truth := by
  induction l with
  | nil => exact .pure fun _ => rfl
  | cons x l ih =>
    obtain ⟨hx, hl⟩ := List.forall_mem_cons.1 h
    rw [List.allM]
    refine hx.bind fun b hb => ?_
    cases b with
    | false =>
      refine .pure fun hfaithful => ?_
      rw [List.all_cons, ← hb hfaithful, Bool.false_and]
    | true =>
      refine (ih hl).mono fun b' hb' hfaithful => ?_
      rw [List.all_cons, ← hb hfaithful, Bool.true_and, hb' hfaithful]

theorem report {outcome : Option (Except Fault α)} {value : Except Fault α}
    (h : Gives safe outcome value) :
    Yields P safe (Recalling.report outcome : Recalling σ α).run (· = value) := by
  intro notes hnotes
  rcases h with rfl | ⟨hsafe, rfl⟩
  · exact ⟨rfl, hnotes⟩
  · exact hsafe

theorem check {x : Option α} {a : α} (h : Gives safe x a) :
    Yields P safe (Recalling.check x : Recalling σ α).run (· = .ok a) := report (h.map Except.ok)

theorem on {work : Recalling σ α} {Q : Except Fault α → Prop} (h : Yields P safe work.run Q)
    {notes : σ} (hnotes : P notes) :
    (∀ answer, (work.on notes).1 = some answer → Q answer) ∧
      (safe → (work.on notes).1 ≠ none) := by
  have hwork := h notes hnotes
  unfold Recalling.on
  revert hwork
  cases work.run.run.run notes with
  | mk value after =>
    cases value with
    | none => exact fun hsafe => ⟨nofun, fun h => absurd h hsafe⟩
    | some a =>
      intro hwork
      refine ⟨?_, fun _ => Option.some_ne_none a⟩
      rintro _ ⟨⟩
      exact hwork.1

theorem andThen {work : Recalling σ α} {f : α → Recalling σ β} {Q : Except Fault α → Prop}
    {R : Except Fault β → Prop} (h : Yields P safe work.run Q)
    (hok : ∀ a, Q (.ok a) → Yields P safe (f a).run R)
    (herror : ∀ fault, Q (.error fault) → R (.error fault)) : Yields P safe (work >>= f).run R := by
  rw [ExceptT.run_bind]
  refine h.bind fun outcome houtcome => ?_
  cases outcome with
  | ok a => exact hok a houtcome
  | error fault => exact .pure (herror fault houtcome)

theorem follow {work : Recalling σ α} {f : α → Recalling σ β} {x : Except Fault α}
    {g : α → Except Fault β} (h : Yields P safe work.run (· = x))
    (hf : ∀ a, x = .ok a → Yields P safe (f a).run (· = g a)) :
    Yields P safe (work >>= f).run (· = x >>= g) := by
  refine h.andThen ?_ ?_
  · rintro a rfl
    exact hf a rfl
  · rintro fault rfl
    rfl

theorem followMap {work : Recalling σ α} {x : Except Fault α} (f : α → β)
    (h : Yields P safe work.run (· = x)) :
    Yields P safe (do return f (← work) : Recalling σ β).run (· = x.map f) := by
  refine h.andThen ?_ ?_
  · rintro a rfl
    exact .pure rfl
  · rintro fault rfl
    rfl

/-- A fold, by what is known of the members passed and of the value that they led to. -/
theorem followFold {f : β → α → Recalling σ β} {g : β → α → Except Fault β}
    (I : List α → β → Prop) {l : List α}
    (hstep : ∀ before x after b, l = before ++ x :: after → I before b →
      Yields P safe (f b x).run (· = g b x))
    (hkeep : ∀ before x after b next, l = before ++ x :: after → I before b → g b x = .ok next →
      I (before ++ [x]) next) {b : β} (hb : I [] b) :
    Yields P safe (l.foldlM f b).run (· = l.foldlM g b) := by
  -- the members still to come, with those passed
  suffices h : ∀ before after b, l = before ++ after → I before b →
      Yields P safe (after.foldlM f b).run (· = after.foldlM g b) from h [] l b rfl hb
  intro before after
  induction after generalizing before with
  | nil => exact fun b _ _ => .pure rfl
  | cons x after ih =>
    intro b hsplit hb
    rw [List.foldlM_cons, List.foldlM_cons]
    refine (hstep before x after b hsplit hb).follow fun next hnext => ?_
    exact ih (before ++ [x]) next (by rw [hsplit, List.append_assoc, List.singleton_append])
      (hkeep before x after b next hsplit hb hnext)

end Yields

def Obtains (P : σ → Prop) (safe : Prop) (work : Recalling σ α) (Q : α → Prop) : Prop :=
  Yields P safe work.run fun outcome => ∃ a, outcome = .ok a ∧ Q a

namespace Obtains

variable {Q : α → Prop} {R : β → Prop}

theorem pure {a : α} (ha : Q a) : Obtains P safe (Pure.pure a) Q := Yields.pure ⟨a, rfl, ha⟩

theorem check {x : Option α} {a : α} (h : Gives safe x a) :
    Obtains P safe (Recalling.check x) (· = a) :=
  (Yields.check h).mono fun _ houtcome => ⟨a, houtcome, rfl⟩

theorem lift {work : Counting σ α} (h : Yields P safe work Q) :
    Obtains P safe (ExceptT.lift work) Q := by
  unfold Obtains
  rw [ExceptT.run_lift, ← bind_pure_comp]
  exact h.bind fun a ha => .pure ⟨a, rfl, ha⟩

theorem andThen {work : Recalling σ α} {f : α → Recalling σ β} {R : Except Fault β → Prop}
    (h : Obtains P safe work Q) (hf : ∀ a, Q a → Yields P safe (f a).run R) :
    Yields P safe (work >>= f).run R := by
  refine Yields.andThen h ?_ ?_
  · rintro a ⟨_, ⟨⟩, ha⟩
    exact hf a ha
  · rintro fault ⟨_, ⟨⟩, _⟩

theorem bind {work : Recalling σ α} {f : α → Recalling σ β} (h : Obtains P safe work Q)
    (hf : ∀ a, Q a → Obtains P safe (f a) R) : Obtains P safe (work >>= f) R := h.andThen hf

theorem mapM {γ : Type} {f : α → Recalling σ β} {view : β → γ} {seen : α → γ} {truth : α → β}
    {l : List α} (h : ∀ x ∈ l, Obtains P safe (f x) fun y =>
      view y = seen x ∧ (faithful → y = truth x)) :
    Obtains P safe (l.mapM f) fun ys =>
      ys.map view = l.map seen ∧ (faithful → ys = l.map truth) := by
  induction l with
  | nil => exact .pure ⟨rfl, fun _ => rfl⟩
  | cons x l ih =>
    obtain ⟨hx, hl⟩ := List.forall_mem_cons.1 h
    rw [List.mapM_cons]
    refine hx.bind fun y hy => (ih hl).bind fun ys hys => .pure ⟨?_, ?_⟩
    · rw [List.map_cons, List.map_cons, hy.1, hys.1]
    · intro hfaithful
      rw [List.map_cons, hy.2 hfaithful, hys.2 hfaithful]

end Obtains

end LatencyHiding
