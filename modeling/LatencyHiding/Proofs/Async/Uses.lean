import LatencyHiding.Async.Tracker
import Mathlib.Data.List.Nodup

set_option autoImplicit false

namespace LatencyHiding

variable {τ : Type}

namespace AsyncTracker

/-- All that an instruction does with resources is of one kind and concerns different ones, limits
are for different resources, and nothing is demanded of the order. -/
structure Regular (tracker : AsyncTracker τ) : Prop where
  uniform : ∀ i, ∀ u ∈ tracker.uses i, ∀ v ∈ tracker.uses i, u.2 = v.2
  nodup : ∀ i, ((tracker.uses i).map Prod.fst).Nodup
  limits_nodup : (tracker.limits.map Prod.fst).Nodup
  demands_eq : ∀ c, tracker.demands c = []

theorem not_target_of_resourceOf? {settings : Settings} {i : Instruction} {r : Resource}
    (h : resourceOf? settings i = some r) (n : UInt32) : r ≠ .target n := by
  rintro rfl
  unfold resourceOf? at h
  split at h
  all_goals try cases h
  all_goals
    split at h
    · first | cases h | (split at h <;> cases h)
    · cases h

theorem genericUses_cases (settings : Settings) (i : Instruction) : genericUses settings i = [] ∨
    ∃ r usage, genericUses settings i = [(r, usage)] ∧ r ≠ collectiveStream := by
  unfold genericUses
  split
  · next usage r _ hr => exact Or.inr ⟨r, usage, rfl, not_target_of_resourceOf? hr 0⟩
  · exact Or.inl rfl

theorem uses_cases (settings : Settings) (platform : Platform) (i : Instruction) :
    (ofPlatform settings platform : AsyncTracker τ).uses i = [] ∨
      ∃ r usage, r ≠ collectiveStream ∧
        ((ofPlatform settings platform : AsyncTracker τ).uses i = [(r, usage)] ∨
        (ofPlatform settings platform : AsyncTracker τ).uses i =
          [(r, usage), (collectiveStream, usage)]) := by
  cases platform with
  | generic =>
    rcases genericUses_cases settings i with h | ⟨r, usage, h, hr⟩
    · exact Or.inl h
    · exact Or.inr ⟨r, usage, hr, Or.inl h⟩
  | gpu =>
    change gpuUses settings i = [] ∨ ∃ r usage, r ≠ collectiveStream ∧
      (gpuUses settings i = [(r, usage)] ∨
        gpuUses settings i = [(r, usage), (collectiveStream, usage)])
    unfold gpuUses
    rcases genericUses_cases settings i with h | ⟨r, usage, h, hr⟩
    · rw [h]
      exact Or.inl rfl
    · rw [h]
      refine Or.inr ⟨r, usage, hr, ?_⟩
      dsimp only
      split
      · exact Or.inl rfl
      · exact Or.inr rfl

theorem regular_ofPlatform (settings : Settings) (platform : Platform) :
    (ofPlatform settings platform : AsyncTracker τ).Regular := by
  refine ⟨?_, ?_, ?_, ?_⟩
  · intro i
    rcases uses_cases (τ := τ) settings platform i with h | ⟨r, usage, _, h | h⟩ <;> simp [h]
  · intro i
    rcases uses_cases (τ := τ) settings platform i with h | ⟨r, usage, hr, h | h⟩
    · simp [h]
    · simp [h]
    · simp [h, hr]
  · cases platform <;> simp [limits, ofPlatform, generic, gpu, Resource.limited]
  · cases platform <;> exact fun _ => rfl

end AsyncTracker

end LatencyHiding
