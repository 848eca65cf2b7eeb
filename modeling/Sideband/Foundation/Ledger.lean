import Mathlib.Data.Finset.Basic

/-!
# Resources and their owners

`Ledger used holds` says that the resources in use are those that somebody holds, each by one owner.
An owner may acquire a resource that is not in use (`acquire`) and release one that it holds
(`release`). A ledger is broken by a resource that its owner loses while it stays in use
(`not_of_lost`), and by one that is given back while somebody holds it (`not_of_taken`).
-/

namespace Foundation

universe u v

variable {κ : Type u} {ρ : Type v} {used : Finset ρ} {holds holds' : κ → ρ → Prop} {o : κ} {r : ρ}

/-- The resources in use are the ones that are held, each by one owner: none leaks, none is used
after it was given back, and none is given back twice. -/
structure Ledger (used : Finset ρ) (holds : κ → ρ → Prop) : Prop where
  mem_used_iff : ∀ r, r ∈ used ↔ ∃ o, holds o r
  unique : ∀ o o' r, holds o r → holds o' r → o = o'

namespace Ledger

theorem congr (h : Ledger used holds) (hsame : ∀ o r, holds' o r ↔ holds o r) :
    Ledger used holds' where
  mem_used_iff r := (h.mem_used_iff r).trans (exists_congr fun o => (hsame o r).symm)
  unique o o' r ho ho' := h.unique o o' r ((hsame o r).mp ho) ((hsame o' r).mp ho')

/-- An owner loses a resource that stays in use. -/
theorem not_of_lost (h : Ledger used holds) (hr : holds o r)
    (hlost : ∀ o', holds' o' r → o' ≠ o ∧ holds o' r) : ¬ Ledger used holds' := by
  intro h'
  obtain ⟨o', ho'⟩ := (h'.mem_used_iff r).mp ((h.mem_used_iff r).mpr ⟨o, hr⟩)
  obtain ⟨hne, hold⟩ := hlost o' ho'
  exact hne (h.unique o' o r hold hr)

variable [DecidableEq ρ]

theorem acquire (h : Ledger used holds) (hnew : r ∉ used)
    (hholds : ∀ o' r', holds' o' r' ↔ holds o' r' ∨ (o' = o ∧ r' = r)) :
    Ledger (insert r used) holds' where
  mem_used_iff r' := by
    rw [Finset.mem_insert, h.mem_used_iff]
    constructor
    · rintro (rfl | ⟨o', ho'⟩)
      · exact ⟨o, (hholds o r').mpr (.inr ⟨rfl, rfl⟩)⟩
      · exact ⟨o', (hholds o' r').mpr (.inl ho')⟩
    · rintro ⟨o', ho'⟩
      rcases (hholds o' r').mp ho' with hold | ⟨-, rfl⟩
      · exact .inr ⟨o', hold⟩
      · exact .inl rfl
  unique o₁ o₂ r' h₁ h₂ := by
    have hfresh : ∀ o', ¬ holds o' r := fun o' ho' => hnew ((h.mem_used_iff r).mpr ⟨o', ho'⟩)
    rcases (hholds o₁ r').mp h₁ with hold₁ | ⟨rfl, rfl⟩
    · rcases (hholds o₂ r').mp h₂ with hold₂ | ⟨-, rfl⟩
      · exact h.unique o₁ o₂ r' hold₁ hold₂
      · exact absurd hold₁ (hfresh o₁)
    · rcases (hholds o₂ r').mp h₂ with hold₂ | ⟨rfl, -⟩
      · exact absurd hold₂ (hfresh o₂)
      · rfl

theorem release (h : Ledger used holds) (hr : holds o r)
    (hholds : ∀ o' r', holds' o' r' ↔ holds o' r' ∧ ¬ (o' = o ∧ r' = r)) :
    Ledger (used.erase r) holds' where
  mem_used_iff r' := by
    rw [Finset.mem_erase, h.mem_used_iff]
    constructor
    · rintro ⟨hne, o', ho'⟩
      exact ⟨o', (hholds o' r').mpr ⟨ho', fun hboth => hne hboth.2⟩⟩
    · rintro ⟨o', ho'⟩
      obtain ⟨hold, hother⟩ := (hholds o' r').mp ho'
      refine ⟨?_, o', hold⟩
      rintro rfl
      exact hother ⟨h.unique o' o r' hold hr, rfl⟩
  unique o₁ o₂ r' h₁ h₂ := h.unique o₁ o₂ r' ((hholds o₁ r').mp h₁).1 ((hholds o₂ r').mp h₂).1

/-- A resource that is held is given back. -/
theorem not_of_taken (h : Ledger used holds) (hr : r ∈ used)
    (hkeep : ∀ o', holds o' r → holds' o' r) : ¬ Ledger (used.erase r) holds' := by
  intro h'
  obtain ⟨o, ho⟩ := (h.mem_used_iff r).mp hr
  exact Finset.notMem_erase r used ((h'.mem_used_iff r).mpr ⟨o, hkeep o ho⟩)

end Ledger

end Foundation
