import Mathlib.Data.List.Basic

set_option autoImplicit false

namespace LatencyHiding

variable {α β ε : Type}

theorem mapM_cons_eq_ok_iff (f : α → Except ε β) (a : α) (l : List α) (r : List β) :
    (a :: l).mapM f = .ok r ↔ ∃ b rest, f a = .ok b ∧ l.mapM f = .ok rest ∧ r = b :: rest := by
  rw [List.mapM_cons]
  cases f a with
  | error fault => simp [bind, Except.bind]
  | ok b =>
    cases l.mapM f with
    | error fault => simp [bind, Except.bind]
    | ok rest => simp [bind, Except.bind, pure, Except.pure, eq_comm]

def valueOf [Inhabited β] : Except ε β → β
  | .ok b => b
  | .error _ => default

theorem eq_ok_valueOf [Inhabited β] {e : Except ε β} {b : β} (h : e = .ok b) :
    e = .ok (valueOf e) := by rw [h]; rfl

theorem mapM_eq_ok_iff [Inhabited β] (f : α → Except ε β) (l : List α) (r : List β) :
    l.mapM f = .ok r ↔ (∀ a ∈ l, f a = .ok (valueOf (f a))) ∧ r = l.map fun a => valueOf (f a) := by
  induction l generalizing r with
  | nil => simp [pure, Except.pure, eq_comm]
  | cons a l ih =>
    rw [mapM_cons_eq_ok_iff, List.forall_mem_cons, List.map_cons]
    constructor
    · rintro ⟨b, rest, hb, hrest, rfl⟩
      obtain ⟨hall, hvalues⟩ := (ih rest).1 hrest
      refine ⟨⟨eq_ok_valueOf hb, hall⟩, ?_⟩
      rw [hb, hvalues]
      rfl
    · rintro ⟨⟨ha, hall⟩, rfl⟩
      exact ⟨_, _, ha, (ih _).2 ⟨hall, rfl⟩, rfl⟩

theorem mapM_ite_eq_ok_iff (p : α → Prop) [DecidablePred p] (value : α → β) (fault : α → ε)
    (l : List α) (r : List β) :
    l.mapM (fun a => if p a then Except.ok (value a) else .error (fault a)) = .ok r ↔
      (∀ a ∈ l, p a) ∧ r = l.map value := by
  induction l generalizing r with
  | nil => simp [pure, Except.pure, eq_comm]
  | cons a l ih =>
    rw [mapM_cons_eq_ok_iff, List.forall_mem_cons, List.map_cons]
    by_cases ha : p a
    · simp only [if_pos ha, Except.ok.injEq, exists_and_left, exists_eq_left', ih]
      constructor
      · rintro ⟨rest, ⟨hall, rfl⟩, rfl⟩
        exact ⟨⟨ha, hall⟩, rfl⟩
      · rintro ⟨⟨_, hall⟩, rfl⟩
        exact ⟨_, ⟨hall, rfl⟩, rfl⟩
    · simp [ha]

theorem bind_eq_ok_iff (e : Except ε α) (f : α → Except ε β) (b : β) :
    (e >>= f) = .ok b ↔ ∃ a, e = .ok a ∧ f a = .ok b := by
  cases e <;> simp [bind, Except.bind]

theorem foldlM_cons_eq_ok_iff (f : α → β → Except ε α) (a c : α) (b : β) (l : List β) :
    (b :: l).foldlM f a = .ok c ↔ ∃ mid, f a b = .ok mid ∧ l.foldlM f mid = .ok c := by
  rw [List.foldlM_cons, bind_eq_ok_iff]

theorem forM_eq_ok_iff (f : α → Except ε Unit) (l : List α) :
    l.forM f = .ok () ↔ ∀ a ∈ l, f a = .ok () := by
  induction l with
  | nil => simp [List.forM, pure, Except.pure]
  | cons a l ih =>
    rw [List.forM, bind_eq_ok_iff, List.forall_mem_cons, ← ih]
    constructor
    · rintro ⟨⟨⟩, ha, hl⟩
      exact ⟨ha, hl⟩
    · rintro ⟨ha, hl⟩
      exact ⟨(), ha, hl⟩

theorem foldlM_range_succ_eq_ok_iff (f : α → Nat → Except ε α) (a b : α) (k : Nat) :
    (List.range (k + 1)).foldlM f a = .ok b ↔
      ∃ mid, (List.range k).foldlM f a = .ok mid ∧ f mid k = .ok b := by
  rw [List.range_succ, List.foldlM_append, bind_eq_ok_iff]
  simp [bind_eq_ok_iff, pure, Except.pure]

theorem bind_pure_eq_ok_iff (e : Except ε α) (f : α → β) (b : β) :
    (do let a ← e; return f a : Except ε β) = .ok b ↔ ∃ a, e = .ok a ∧ b = f a := by
  cases e <;> simp [bind, Except.bind, pure, Except.pure, eq_comm]

theorem bind_pure_eq_error_iff (e : Except ε α) (f : α → β) (fault : ε) :
    (do let a ← e; return f a : Except ε β) = .error fault ↔ e = .error fault := by
  cases e <;> simp [bind, Except.bind, pure, Except.pure]

theorem exists_error_of_mapM (f : α → Except ε β) (l : List α) {fault : ε}
    (h : l.mapM f = .error fault) : ∃ a ∈ l, f a = .error fault := by
  induction l with
  | nil => simp [pure, Except.pure] at h
  | cons a l ih =>
    rw [List.mapM_cons] at h
    cases ha : f a with
    | error other =>
      rw [ha] at h
      exact ⟨a, List.mem_cons_self, by rw [ha, Except.error.inj h]⟩
    | ok b =>
      rw [ha] at h
      cases hl : l.mapM f with
      | error other =>
        rw [hl] at h
        obtain rfl : other = fault := Except.error.inj h
        obtain ⟨x, hx, hfault⟩ := ih hl
        exact ⟨x, List.mem_cons_of_mem a hx, hfault⟩
      | ok rest =>
        rw [hl] at h
        simp [bind, Except.bind, pure, Except.pure] at h

end LatencyHiding
