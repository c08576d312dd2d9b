import LatencyHiding.Proofs.ListSchedule.Progress
import LatencyHiding.Proofs.TimeScale.Laws
import Mathlib.Order.WithBot

set_option autoImplicit false

namespace LatencyHiding

section Ranking

variable {α : Type}

/-- Among members of `P` a rule tells a better from a worse or lets them tie. -/
structure Ranks (P : α → Prop) (rule : α → α → Option Bool) : Prop where
  swap : ∀ {a b}, P a → P b → rule b a = (rule a b).map not
  congr : ∀ {a b c}, P a → P b → P c → rule a b = none → rule a c = rule b c
  trans : ∀ {a b c}, P a → P b → P c → rule a b = some true → rule b c = some true →
    rule a c = some true

namespace Ranks

variable {P : α → Prop} {rule rule' : α → α → Option Bool}

theorem none : Ranks P fun _ _ => (Option.none : Option Bool) where
  swap _ _ := rfl
  congr _ _ _ _ := rfl
  trans _ _ _ h _ := h

theorem congr_right (h : Ranks P rule) {a b c : α} (ha : P a) (hb : P b) (hc : P c)
    (htie : rule b c = .none) : rule a b = rule a c := by
  have hsame := h.congr hb hc ha htie
  rw [h.swap hb ha, h.swap hc ha, hsame]

theorem or (h : Ranks P rule) (h' : Ranks P rule') :
    Ranks P fun a b => (rule a b).or (rule' a b) where
  swap {a b} ha hb := by
    rw [h.swap ha hb, h'.swap ha hb]
    cases rule a b <;> rfl
  congr {a b c} ha hb hc htie := by
    obtain ⟨hfirst, hsecond⟩ := Option.or_eq_none_iff.1 htie
    rw [h.congr ha hb hc hfirst, h'.congr ha hb hc hsecond]
  trans {a b c} ha hb hc hab hbc := by
    cases hab' : rule a b with
    | none =>
      rw [hab', Option.none_or] at hab
      rw [h.congr ha hb hc hab']
      cases hbc' : rule b c with
      | none =>
        rw [hbc', Option.none_or] at hbc
        exact h'.trans ha hb hc hab hbc
      | some better =>
        rw [hbc'] at hbc
        exact hbc
    | some better =>
      rw [hab'] at hab
      obtain rfl : better = true := Option.some.inj hab
      cases hbc' : rule b c with
      | none => rw [← h.congr_right ha hb hc hbc', hab']; rfl
      | some better =>
        rw [hbc'] at hbc
        obtain rfl : better = true := Option.some.inj hbc
        rw [h.trans ha hb hc hab' hbc']
        rfl

/-- The better one is preferred, where ties pass on to each other what is better and worse. -/
theorem of_better (better : α → α → Prop) [DecidableRel better]
    (irrefl : ∀ a, ¬ better a a) (htrans : ∀ {a b c}, better a b → better b c → better a c)
    (split : ∀ {a b c}, P a → P b → P c → better a c → better a b ∨ better b c)
    (hrule : ∀ {a b}, P a → P b → rule a b =
      if better a b then some true else if better b a then some false else Option.none) :
    Ranks P rule where
  swap {a b} ha hb := by
    have hasymm (h : better a b) : ¬ better b a := fun h' => irrefl a (htrans h h')
    rw [hrule ha hb, hrule hb ha]
    by_cases hab : better a b
    · simp [hab, hasymm hab]
    · by_cases hba : better b a <;> simp [hab, hba]
  congr {a b c} ha hb hc htie := by
    rw [hrule ha hb] at htie
    have hab : ¬ better a b := fun h => by simp [h] at htie
    have hba : ¬ better b a := fun h => by simp [h, hab] at htie
    have hwin : better a c ↔ better b c :=
      ⟨fun h => (split ha hb hc h).resolve_left hab, fun h => (split hb ha hc h).resolve_left hba⟩
    have hlose : better c a ↔ better c b :=
      ⟨fun h => (split hc hb ha h).resolve_right hba, fun h => (split hc ha hb h).resolve_right hab⟩
    rw [hrule ha hc, hrule hb hc]
    simp only [hwin, hlose]
  trans {a b c} ha hb hc hab hbc := by
    have hwin {x y : α} (hx : P x) (hy : P y) (h : rule x y = some true) : better x y := by
      rw [hrule hx hy] at h
      by_contra hnot
      rw [if_neg hnot] at h
      split_ifs at h
      cases h
    rw [hrule ha hc, if_pos (htrans (hwin ha hb hab) (hwin hb hc hbc))]

theorem of_key {κ : Type} [LinearOrder κ] (f : α → κ)
    (hrule : ∀ {a b}, P a → P b → rule a b =
      if f a < f b then some true else if f b < f a then some false else Option.none) :
    Ranks P rule := by
  refine of_better (fun a b => f a < f b) (fun a => lt_irrefl _) lt_trans ?_ hrule
  intro a b c _ _ _ hac
  rcases lt_or_ge (f a) (f b) with hab | hba
  · exact Or.inl hab
  · exact Or.inr (hba.trans_lt hac)

end Ranks

end Ranking

section Champion

variable {α : Type} (beats : α → α → Bool)

def champion (leader : α) (rest : List α) : α :=
  rest.foldl (fun leader challenger => if beats challenger leader then challenger else leader)
    leader

variable {beats}

theorem champion_cons (leader challenger : α) (rest : List α) :
    champion beats leader (challenger :: rest) =
      champion beats (if beats challenger leader then challenger else leader) rest := rfl

theorem champion_eq {best : α} (rest : List α) (leader : α) (hmem : best ∈ leader :: rest)
    (hbest : ∀ x ∈ leader :: rest, x = best ∨ (beats best x = true ∧ beats x best = false)) :
    champion beats leader rest = best := by
  induction rest generalizing leader with
  | nil => exact (List.mem_singleton.1 hmem).symm
  | cons challenger rest ih =>
    rw [champion_cons]
    have hrest (x : α) (hx : x ∈ rest) :=
      hbest x (List.mem_cons_of_mem _ (List.mem_cons_of_mem _ hx))
    have hleader := hbest leader List.mem_cons_self
    have hchallenger := hbest challenger (List.mem_cons_of_mem _ List.mem_cons_self)
    apply ih
    · rcases List.mem_cons.1 hmem with rfl | hmem
      · rcases hchallenger with rfl | ⟨_, hlost⟩
        · simp
        · simp [hlost]
      · rcases List.mem_cons.1 hmem with rfl | hmem
        · rcases hleader with rfl | ⟨hwon, _⟩
          · simp
          · simp [hwon]
        · exact List.mem_cons_of_mem _ hmem
    · rw [List.forall_mem_cons]
      refine ⟨?_, hrest⟩
      split
      · exact hchallenger
      · exact hleader

/-- The champion beats all others, if of any two one beats the other. -/
theorem beats_champion (rest : List α) (leader : α)
    (htotal : ∀ x ∈ leader :: rest, ∀ y ∈ leader :: rest,
      x = y ∨ beats x y = true ∨ beats y x = true)
    (htrans : ∀ x ∈ leader :: rest, ∀ y ∈ leader :: rest, ∀ z ∈ leader :: rest,
      beats x y = true → beats y z = true → beats x z = true) :
    champion beats leader rest ∈ leader :: rest ∧ ∀ x ∈ leader :: rest,
      x = champion beats leader rest ∨ beats (champion beats leader rest) x = true := by
  induction rest generalizing leader with
  | nil =>
    refine ⟨List.mem_singleton.2 rfl, ?_⟩
    intro x hx
    exact Or.inl (List.mem_singleton.1 hx)
  | cons challenger rest ih =>
    rw [champion_cons]
    -- the one of the first two that goes on, and the other one
    obtain ⟨winner, loser, hwinner, hpair, hwon⟩ : ∃ winner loser,
        (if beats challenger leader then challenger else leader) = winner ∧
        (∀ x, x ∈ leader :: challenger :: rest ↔ x = loser ∨ x ∈ winner :: rest) ∧
        (loser = winner ∨ beats winner loser = true) := by
      by_cases hbeats : beats challenger leader = true
      · refine ⟨challenger, leader, if_pos hbeats, ?_, Or.inr hbeats⟩
        simp
      · refine ⟨leader, challenger, if_neg hbeats, ?_, ?_⟩
        · intro x
          simp only [List.mem_cons]
          tauto
        · rcases htotal leader (by simp) challenger (by simp) with hsame | hbetter | hworse
          · exact Or.inl hsame.symm
          · exact Or.inr hbetter
          · exact absurd hworse hbeats
    rw [hwinner]
    have hsub (x : α) (hx : x ∈ winner :: rest) : x ∈ leader :: challenger :: rest :=
      (hpair x).2 (Or.inr hx)
    obtain ⟨hmem, hall⟩ := ih winner
      (fun x hx y hy => htotal x (hsub x hx) y (hsub y hy))
      (fun x hx y hy z hz => htrans x (hsub x hx) y (hsub y hy) z (hsub z hz))
    refine ⟨hsub _ hmem, ?_⟩
    intro x hx
    rcases (hpair x).1 hx with rfl | hx
    · rcases hwon with rfl | hwon
      · exact hall x List.mem_cons_self
      · rcases hall winner List.mem_cons_self with hsame | hbeats
        · exact Or.inr (hsame ▸ hwon)
        · exact Or.inr (htrans _ (hsub _ hmem) _ (hsub _ List.mem_cons_self) _ hx hbeats hwon)
    · exact hall x hx

end Champion

namespace Candidate

open TimeScale

variable {τ : Type} [TimeScale τ]

def Timed (c : Candidate τ) : Prop := IsReading c.asyncDepth ∧ IsReading c.readyTime

omit [TimeScale τ] in
theorem ranks_choose (P : Candidate τ → Prop) (f : Candidate τ → Bool) (reason : Reason) :
    Ranks P fun a b => (choose (f a) (f b) reason).map Prod.fst := by
  refine Ranks.of_key (fun a => !f a) ?_
  intro a b _ _
  unfold choose
  cases f a <;> cases f b <;> rfl

omit [TimeScale τ] in
theorem ranks_byMemory (P : Candidate τ → Prop) (limit usage : UInt64) :
    Ranks P fun a b => (byMemory limit usage a b).map Prod.fst := by
  by_cases hlimit : limit = Settings.unlimitedMemory
  · simp only [byMemory, if_pos hlimit, Option.map_none]
    exact Ranks.none
  · -- what fits is below everything that does not
    refine Ranks.of_key
      (fun c => if c.fits limit usage then (⊥ : WithBot ℤ) else c.memory.increase.toInt) ?_
    intro a b _ _
    simp only [byMemory, if_neg hlimit, choose]
    by_cases ha : a.fits limit usage = true <;> by_cases hb : b.fits limit usage = true
    · simp [ha, hb]
    · simp [ha, hb]
    · simp [ha, hb]
    · rcases lt_trichotomy a.memory.increase.toInt b.memory.increase.toInt with h | h | h
      · have hne : a.memory.increase ≠ b.memory.increase := fun hsame => h.ne (by rw [hsame])
        simp [ha, hb, h, hne, Int64.lt_iff_toInt_lt]
      · simp [ha, hb, Int64.toInt_inj.1 h]
      · have hne : a.memory.increase ≠ b.memory.increase := fun hsame => h.ne (by rw [hsame])
        simp [ha, hb, h, h.not_gt, hne, Int64.lt_iff_toInt_lt]

variable [Ordered τ]

open Ordered

theorem map_byAsyncDepth {a b : Candidate τ} (ha : a.Timed) (hb : b.Timed) :
    (byAsyncDepth a b).map Prod.fst = if b.asyncDepth < a.asyncDepth then some true
      else if a.asyncDepth < b.asyncDepth then some false else none := by
  rcases ha.1.trichotomy hb.1 with ⟨hab, hba, hne⟩ | hsame | ⟨hba, hab, hne⟩
  · simp [byAsyncDepth, hab, hba, hne]
  · simp [byAsyncDepth, hsame, hb.1.beq_self, Ordered.lt_irrefl]
  · simp [byAsyncDepth, hba, hne]

theorem ranks_byAsyncDepth :
    Ranks Timed fun a b : Candidate τ => (byAsyncDepth a b).map Prod.fst := by
  refine Ranks.of_better (fun a b : Candidate τ => b.asyncDepth < a.asyncDepth)
    (fun a => lt_irrefl _) (fun hab hbc => lt_trans hbc hab) ?_ map_byAsyncDepth
  intro a b c ha hb _ hca
  rcases ha.1.trichotomy hb.1 with ⟨hab, _⟩ | hsame | ⟨hba, _⟩
  · exact Or.inr (lt_trans hca hab)
  · exact Or.inr (hsame ▸ hca)
  · exact Or.inl hba

theorem Timed.lt_of_lt {a b : Candidate τ} {now : τ} (ha : a.Timed) (hnow : now < b.readyTime)
    (hlate : ¬ a.readyTime ≤ now) : now < a.readyTime :=
  (le_or_lt hnow ha.2).resolve_left hlate

/-- One can start now and the other cannot, or both are to come and one sooner. -/
def Sooner (now : τ) (a b : Candidate τ) : Prop :=
  (a.readyTime ≤ now ∧ ¬ b.readyTime ≤ now) ∨ (now < a.readyTime ∧ a.readyTime < b.readyTime)

instance (now : τ) : DecidableRel (Sooner now) := fun _ _ => inferInstanceAs (Decidable (_ ∨ _))

theorem map_byStall (now : τ) {a b : Candidate τ} (ha : a.Timed) (hb : b.Timed) :
    (byStall now a b).map Prod.fst =
      if Sooner now a b then some true else if Sooner now b a then some false else none := by
  have hstart {c : Candidate τ} (hc : c.readyTime ≤ now) : ¬ now < c.readyTime := not_lt_of_le hc
  unfold Sooner
  by_cases ha' : a.readyTime ≤ now <;> by_cases hb' : b.readyTime ≤ now
  · simp [byStall, choose, ha', hb', hstart ha', hstart hb']
  · simp [byStall, choose, ha', hb']
  · have hlate : ¬ (now < a.readyTime ∧ a.readyTime < b.readyTime) := fun h =>
      hstart hb' (lt_trans h.1 h.2)
    simp [byStall, choose, ha', hb', hlate]
  · by_cases hnow : now < a.readyTime
    · have hnow' := hb.lt_of_lt hnow hb'
      rcases ha.2.trichotomy hb.2 with ⟨hab, hba, hne⟩ | hsame | ⟨hba, hab, hne⟩
      · simp [byStall, choose, ha', hb', hnow, bne, hab, hne]
      · simp [byStall, choose, hsame, bne, hb.2.beq_self, Ordered.lt_irrefl]
      · simp [byStall, choose, ha', hb', hnow, hnow', bne, hab, hba, hne]
    · have hnow' : ¬ now < b.readyTime := fun h => hnow (ha.lt_of_lt h ha')
      simp [byStall, choose, ha', hb', hnow, hnow']

theorem ranks_byStall (now : τ) :
    Ranks Timed fun a b : Candidate τ => (byStall now a b).map Prod.fst := by
  refine Ranks.of_better (Sooner now) ?_ ?_ ?_ (map_byStall now)
  · rintro a (⟨h, hnot⟩ | ⟨_, h⟩)
    · exact hnot h
    · exact lt_irrefl _ h
  · rintro a b c (⟨ha, hb⟩ | ⟨ha, hab⟩) (⟨hb', hc⟩ | ⟨hb', hbc⟩)
    · exact absurd hb' hb
    · exact Or.inl ⟨ha, fun hc => not_lt_of_le hc (lt_trans hb' hbc)⟩
    · exact absurd (lt_trans ha hab) (not_lt_of_le hb')
    · exact Or.inr ⟨ha, lt_trans hab hbc⟩
  · rintro a b c ha hb hc (⟨ha', hc'⟩ | ⟨ha', hac⟩)
    · by_cases hb' : b.readyTime ≤ now
      · exact Or.inr (Or.inl ⟨hb', hc'⟩)
      · exact Or.inl (Or.inl ⟨ha', hb'⟩)
    · have hc' : ¬ c.readyTime ≤ now := fun h => not_lt_of_le h (lt_trans ha' hac)
      by_cases hb' : b.readyTime ≤ now
      · exact Or.inr (Or.inl ⟨hb', hc'⟩)
      · have hb'' := hb.lt_of_lt ha' hb'
        rcases ha.2.trichotomy hb.2 with ⟨hab, _⟩ | hsame | ⟨hba, _⟩
        · exact Or.inl (Or.inr ⟨ha', hab⟩)
        · exact Or.inr (Or.inr ⟨hb'', hsame ▸ hac⟩)
        · exact Or.inr (Or.inr ⟨hb'', lt_trans hba hac⟩)

end Candidate

namespace Scheduler

open TimeScale Candidate

variable {τ : Type} [TimeScale τ] (s : Scheduler τ) (st : ScheduleState τ)

def prefers (a b : Candidate τ) : Option Bool :=
  ((byForceDelay a b).or <| (byAsyncDepth a b).or <|
    (byMemory s.settings.memoryLimit st.memory.totalUsage a b).or <|
    (byAsyncDone s.settings.aggressive a b).or <| byStall st.time a b).map Prod.fst

theorem compare_fst (hrule : s.rule = none) (a b : Candidate τ) :
    (s.compare st a b).1 = (s.prefers st a b).getD (decide (b.position < a.position)) := by
  unfold compare prefers byPlatform
  rw [hrule, Option.bind_none, Option.map_none, Option.none_or]
  cases (byForceDelay a b).or _ <;> rfl

theorem fst_foldl_challenge (rest : List (Candidate τ)) (leader : Candidate τ × Reason) :
    (rest.foldl (s.challenge st) leader).1 =
      champion (fun a b => (s.compare st a b).1) leader.1 rest := by
  induction rest generalizing leader with
  | nil => rfl
  | cons challenger rest ih =>
    rw [List.foldl_cons, ih, champion_cons]
    congr 1
    unfold challenge
    dsimp only
    split
    · rfl
    · split <;> rfl

variable [Ordered τ]

theorem ranks_prefers : Ranks Timed (s.prefers st) := by
  have hdone : Ranks Timed fun a b : Candidate τ =>
      (byAsyncDone s.settings.aggressive a b).map Prod.fst := by
    unfold byAsyncDone
    split
    · exact ranks_choose _ (·.isDone) _
    · exact Ranks.none
  have hall := (ranks_choose Timed (fun c : Candidate τ => !c.forceDelay) .forceDelay).or <|
    ranks_byAsyncDepth.or <|
    (ranks_byMemory Timed s.settings.memoryLimit st.memory.totalUsage).or <|
    hdone.or <| ranks_byStall st.time
  simp only [← Option.map_or] at hall
  exact hall

def ranking (a b : Candidate τ) : Option Bool :=
  (s.prefers st a b).or (if b.position < a.position then some true
    else if a.position < b.position then some false else none)

theorem ranks_ranking : Ranks Timed (s.ranking st) :=
  (ranks_prefers s st).or
    (Ranks.of_key (fun c : Candidate τ => OrderDual.toDual c.position) fun _ _ => rfl)

omit [Ordered τ] in
theorem compare_iff_ranking (hrule : s.rule = none) (a b : Candidate τ) :
    (s.compare st a b).1 = true ↔ s.ranking st a b = some true := by
  rw [compare_fst s st hrule, ranking]
  cases s.prefers st a b with
  | none => by_cases hba : b.position < a.position <;> simp [hba]
  | some better => simp

omit [Ordered τ] in
theorem position_eq_of_ranking {a b : Candidate τ} (h : s.ranking st a b = none) :
    a.position = b.position := by
  have hlast := (Option.or_eq_none_iff.1 h).2
  split_ifs at hlast
  omega

variable {s st} {best : Candidate τ}

theorem ranking_of_best? (hrule : s.rule = none) (timed : ∀ x ∈ s.pool st, x.Timed)
    (apart : ∀ x ∈ s.pool st, ∀ y ∈ s.pool st, x.position = y.position → x = y) {reason : Reason}
    (hbest : s.best? st = some (best, reason)) :
    ∀ x ∈ s.pool st, x = best ∨ s.ranking st best x = some true := by
  have hranks := ranks_ranking s st
  unfold best? at hbest
  cases hpool : s.pool st with
  | nil =>
    rw [hpool] at hbest
    cases hbest
  | cons first rest =>
    rw [hpool] at hbest timed apart
    have hchampion := congrArg Prod.fst (Option.some.inj hbest)
    rw [fst_foldl_challenge] at hchampion
    change champion _ first rest = best at hchampion
    have htotal : ∀ x ∈ first :: rest, ∀ y ∈ first :: rest,
        x = y ∨ (s.compare st x y).1 = true ∨ (s.compare st y x).1 = true := by
      intro x hx y hy
      rw [compare_iff_ranking s st hrule, compare_iff_ranking s st hrule,
        hranks.swap (timed x hx) (timed y hy)]
      cases hxy : s.ranking st x y with
      | none => exact Or.inl (apart x hx y hy (position_eq_of_ranking s st hxy))
      | some better => cases better <;> simp
    have htrans : ∀ x ∈ first :: rest, ∀ y ∈ first :: rest, ∀ z ∈ first :: rest,
        (s.compare st x y).1 = true → (s.compare st y z).1 = true →
          (s.compare st x z).1 = true := by
      intro x hx y hy z hz
      simp only [compare_iff_ranking s st hrule]
      exact hranks.trans (timed x hx) (timed y hy) (timed z hz)
    have hall := (beats_champion rest first htotal htrans).2
    rw [hchampion] at hall
    simpa only [compare_iff_ranking s st hrule] using hall

theorem prefers_of_best? (hrule : s.rule = none) (timed : ∀ x ∈ s.pool st, x.Timed)
    (apart : ∀ x ∈ s.pool st, ∀ y ∈ s.pool st, x.position = y.position → x = y) {reason : Reason}
    (hbest : s.best? st = some (best, reason)) :
    ∀ x ∈ s.pool st, s.prefers st best x ≠ some false := by
  intro x hx hworse
  have hlost : s.ranking st best x = some false := by rw [ranking, hworse]; rfl
  rcases ranking_of_best? hrule timed apart hbest x hx with rfl | hbefore
  · have hself := (ranks_ranking s st).swap (timed x hx) (timed x hx)
    rw [hlost] at hself
    cases hself
  · rw [hlost] at hbefore
    cases hbefore

/-- What ranks before all others is chosen. -/
theorem best?_of_ranking (hrule : s.rule = none) (timed : ∀ x ∈ s.pool st, x.Timed)
    (hmem : best ∈ s.pool st)
    (hbest : ∀ x ∈ s.pool st, x = best ∨ s.ranking st best x = some true) :
    ∃ reason, s.best? st = some (best, reason) := by
  have hwins (x : Candidate τ) (hx : x ∈ s.pool st) :
      x = best ∨ ((s.compare st best x).1 = true ∧ (s.compare st x best).1 = false) := by
    refine (hbest x hx).imp_right fun hranking => ?_
    refine ⟨(compare_iff_ranking s st hrule best x).2 hranking, ?_⟩
    rw [Bool.eq_false_iff, Ne, compare_iff_ranking s st hrule,
      (ranks_ranking s st).swap (timed best hmem) (timed x hx), hranking]
    simp
  unfold best?
  cases hpool : s.pool st with
  | nil =>
    rw [hpool] at hmem
    cases hmem
  | cons first rest =>
    rw [hpool] at hmem hwins
    have hchampion : champion (fun a b => (s.compare st a b).1) first rest = best :=
      champion_eq rest first hmem hwins
    rw [← fst_foldl_challenge s st rest (first, .onlyCandidate)] at hchampion
    exact ⟨_, congrArg some (Prod.ext hchampion rfl)⟩

/-- What is not worse than any other by these rules and stands behind all others is chosen. -/
theorem best?_of_prefers (hrule : s.rule = none) (timed : ∀ x ∈ s.pool st, x.Timed)
    (hmem : best ∈ s.pool st) (hbest : ∀ x ∈ s.pool st, s.prefers st best x ≠ some false)
    (hlast : ∀ x ∈ s.pool st, x = best ∨ x.position < best.position) :
    ∃ reason, s.best? st = some (best, reason) := by
  apply best?_of_ranking hrule timed hmem
  intro x hx
  refine (hlast x hx).imp_right fun hbehind => ?_
  rw [ranking]
  cases hprefers : s.prefers st best x with
  | none => simp [hbehind]
  | some better =>
    cases better with
    | true => rfl
    | false => exact absurd hprefers (hbest x hx)

end Scheduler

end LatencyHiding
