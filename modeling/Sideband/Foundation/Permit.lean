import Mathlib.Data.Set.Card

/-!
# One permit

`Permit count holds` says that one permit is either free (`count = 1`, nobody holds it) or held
by exactly one. `take` and `give` are what a semaphore's two operations do; whatever else
happens leaves the holders (`congr`). The count and the number of holders always add up to one
(`count_add_encard`).
-/

namespace Foundation

universe u

variable {ι : Type u} {count : ℕ} {holds holds' : ι → Prop} {i j : ι}

/-- One permit: free, or with exactly one holder. It is about the count of a semaphore and those
who have passed it, however the two change. -/
inductive Permit : ℕ → (ι → Prop) → Prop
  | free {holds : ι → Prop} (h : ∀ i, ¬ holds i) : Permit 1 holds
  | held {holds : ι → Prop} (i : ι) (h : ∀ j, holds j ↔ j = i) : Permit 0 holds

namespace Permit

theorem congr (h : Permit count holds) (hsame : ∀ i, holds' i ↔ holds i) : Permit count holds' := by
  cases h with
  | free h => exact .free fun i hi => h i ((hsame i).mp hi)
  | held i h => exact .held i fun j => (hsame j).trans (h j)

/-- There is one holder at most. -/
theorem eq (h : Permit count holds) (hi : holds i) (hj : holds j) : i = j := by
  cases h with
  | free h => exact absurd hi (h i)
  | held k h => rw [(h i).mp hi, (h j).mp hj]

theorem count_eq_zero (h : Permit count holds) (hi : holds i) : count = 0 := by
  cases h with
  | free h => exact absurd hi (h i)
  | held => rfl

theorem count_eq_one (h : Permit count holds) (hnone : ∀ i, ¬ holds i) : count = 1 := by
  cases h with
  | free => rfl
  | held i h => exact absurd ((h i).mpr rfl) (hnone i)

theorem not_holds (h : Permit count holds) (hcount : 0 < count) (i : ι) : ¬ holds i := by
  intro hi
  rw [h.count_eq_zero hi] at hcount
  exact Nat.lt_irrefl 0 hcount

/-- Taking the free permit. -/
theorem take (h : Permit count holds) (hcount : 0 < count)
    (hnew : ∀ j, holds' j ↔ holds j ∨ j = i) : Permit (count - 1) holds' := by
  have hone : count = 1 := by
    cases h with
    | free => rfl
    | held => exact absurd hcount (Nat.lt_irrefl 0)
  subst hone
  refine .held i fun j => (hnew j).trans ⟨fun hj => ?_, .inr⟩
  exact hj.resolve_left (h.not_holds hcount j)

/-- Giving back a permit that is held. -/
theorem give (h : Permit count holds) (hi : holds i) (hnew : ∀ j, ¬ holds' j ∨ (holds j ∧ j ≠ i)) :
    Permit (count + 1) holds' := by
  rw [h.count_eq_zero hi]
  refine .free fun j hj => ?_
  rcases hnew j with hnot | ⟨hj', hne⟩
  · exact hnot hj
  · exact hne (h.eq hj' hi)

/-- The count and the holders add up to one. -/
theorem count_add_encard (h : Permit count holds) : (count : ℕ∞) + {i | holds i}.encard = 1 := by
  cases h with
  | free h =>
    have hempty : {i | holds i} = ∅ := Set.eq_empty_iff_forall_notMem.mpr h
    rw [hempty, Set.encard_empty, Nat.cast_one, add_zero]
  | held i h =>
    have hsingle : {i | holds i} = {i} := Set.ext h
    rw [hsingle, Set.encard_singleton, Nat.cast_zero, zero_add]

end Permit

end Foundation
