import Mathlib.Algebra.BigOperators.Group.Finset.Basic
import Mathlib.Algebra.Order.Group.Nat
import Sideband.Foundation.Machine

/-!
# Runs that end

A rank is a natural number that every step of a kind makes smaller. From a state of rank `n` there
are at most `n` such steps one after the other (`Ranked.length_le`), and as many as the rank falls
if each step makes it smaller by one (`Run.length_eq`). So the machine gets stuck in the end
(`Ranked.exists_stuck`): what holds whenever it is stuck is what every run leads to.
-/

namespace Foundation

universe u v

namespace Machine

variable {σ : Type u} {α : Type v} (M : Machine σ α) {ok : σ → α → Prop} {I : σ → Prop}
  {rank : σ → ℕ} {s s' : σ} {as : List α}

/-- Steps one after the other that meet `ok`, with the state that they start in and the one that
they lead to. -/
inductive Run (ok : σ → α → Prop) : σ → List α → σ → Prop
  | nil (s : σ) : Run ok s [] s
  | cons {s t s' : σ} {a : α} {as : List α} (hok : ok s a) (h : M.next s a = some t)
      (hrest : Run ok t as s') : Run ok s (a :: as) s'

/-- No step that meets `ok` is enabled. Steps that do not meet it may be: a system at rest may
wait for its environment. -/
def Stuck (ok : σ → α → Prop) (s : σ) : Prop := ∀ a, ok s a → M.next s a = none

/-- The steps that meet `ok` keep the invariant `I` and make the rank smaller. Nothing is assumed
of fairness: every step counts, whoever takes it. -/
structure Ranked (ok : σ → α → Prop) (I : σ → Prop) (rank : σ → ℕ) : Prop where
  keeps : ∀ s a s', I s → ok s a → M.next s a = some s' → I s'
  lt : ∀ s a s', I s → ok s a → M.next s a = some s' → rank s' < rank s

variable {M}

theorem Ranked.mono {ok' : σ → α → Prop} (h : M.Ranked ok I rank) (hle : ∀ s a, ok' s a → ok s a) :
    M.Ranked ok' I rank where
  keeps s a s' hs hok := h.keeps s a s' hs (hle s a hok)
  lt s a s' hs hok := h.lt s a s' hs (hle s a hok)

theorem run_of_exec (h : M.exec s as = some s') (hok : ∀ s, ∀ a ∈ as, ok s a) :
    M.Run ok s as s' := by
  induction as generalizing s with
  | nil => exact Option.some.inj h ▸ .nil s
  | cons a as ih =>
    obtain ⟨t, ht, hrest⟩ := Option.bind_eq_some_iff.mp h
    exact .cons (hok s a List.mem_cons_self) ht
      (ih hrest fun s b hb => hok s b (List.mem_cons_of_mem a hb))

/-- A rank that every step makes smaller by one. -/
theorem Ranked.of_eq (h : ∀ s a s', I s → ok s a → M.next s a = some s' →
    I s' ∧ rank s' + 1 = rank s) : M.Ranked ok I rank where
  keeps s a s' hs hok hnext := (h s a s' hs hok hnext).1
  lt s a s' hs hok hnext := (h s a s' hs hok hnext).2 ▸ Nat.lt_succ_self _

/-- A run from a reachable state ends in one. -/
theorem Run.reachable {ok' : σ → α → Prop} (hle : ∀ s a, ok s a → ok' s a)
    (h : M.Run ok s as s') (hs : M.Reachable ok' s) : M.Reachable ok' s' := by
  induction h with
  | nil s => exact hs
  | cons hok h _ ih => exact ih (.step hs (hle _ _ hok) h)

/-- What every step keeps, a run keeps. -/
theorem Run.keeps {β : Type*} {f : σ → β}
    (hkeeps : ∀ s a s', ok s a → M.next s a = some s' → f s' = f s) (h : M.Run ok s as s') :
    f s' = f s := by
  induction h with
  | nil s => rfl
  | cons hok hnext _ ih => exact ih.trans (hkeeps _ _ _ hok hnext)

/-- The rank bounds the length of a run, from every state that satisfies the invariant. -/
theorem Ranked.length_le (h : M.Ranked ok I rank) (hs : I s) (hrun : M.Run ok s as s') :
    as.length + rank s' ≤ rank s := by
  induction hrun with
  | nil s => rw [List.length_nil, Nat.zero_add]
  | cons hok hnext _ ih =>
    have hrest := ih (h.keeps _ _ _ hs hok hnext)
    have hlt := h.lt _ _ _ hs hok hnext
    rw [List.length_cons]
    omega

/-- Where every step makes the rank smaller by one, the rank counts the steps. -/
theorem Run.length_eq (hkeeps : ∀ s a s', I s → ok s a → M.next s a = some s' →
      I s' ∧ rank s' + 1 = rank s) (hs : I s) (hrun : M.Run ok s as s') :
    as.length + rank s' = rank s := by
  induction hrun with
  | nil s => rw [List.length_nil, Nat.zero_add]
  | cons hok hnext _ ih =>
    obtain ⟨ht, hrank⟩ := hkeeps _ _ _ hs hok hnext
    have hrest := ih ht
    rw [List.length_cons]
    omega

/-- Every state leads to one in which the machine is stuck, and by `Ranked.length_le` no run
avoids it for longer than the rank. -/
theorem Ranked.exists_stuck (h : M.Ranked ok I rank) (hs : I s) :
    ∃ as s', M.Run ok s as s' ∧ M.Stuck ok s' := by
  induction hn : rank s using Nat.strong_induction_on generalizing s with
  | _ n ih =>
    by_cases hstuck : M.Stuck ok s
    · exact ⟨[], s, .nil s, hstuck⟩
    · obtain ⟨a, ha⟩ := not_forall.mp hstuck
      obtain ⟨hok, hnext⟩ := Classical.not_imp.mp ha
      obtain ⟨t, ht⟩ := Option.ne_none_iff_exists'.mp hnext
      obtain ⟨as, s', hrun, hend⟩ :=
        ih (rank t) (hn ▸ h.lt s a t hs hok ht) (h.keeps s a t hs hok ht) rfl
      exact ⟨a :: as, s', .cons hok ht hrun, hend⟩

end Machine

/-- A sum falls as the summand that changes. -/
theorem sum_add_of_update {ι : Type u} [Fintype ι] {f f' : ι → ℕ} {i : ι} {n : ℕ}
    (hi : f' i + n = f i) (hother : ∀ j ≠ i, f' j = f j) : ∑ j, f' j + n = ∑ j, f j := by
  classical
  have hsame : ∑ j ∈ Finset.univ.erase i, f' j = ∑ j ∈ Finset.univ.erase i, f j :=
    Finset.sum_congr rfl fun j hj => hother j (Finset.ne_of_mem_erase hj)
  rw [← Finset.add_sum_erase Finset.univ f' (Finset.mem_univ i),
    ← Finset.add_sum_erase Finset.univ f (Finset.mem_univ i), hsame, ← hi]
  omega

end Foundation
