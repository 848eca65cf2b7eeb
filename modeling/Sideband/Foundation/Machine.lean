import Mathlib.Data.List.Basic
import Mathlib.Order.Basic

/-!
# Labelled machines

A system of several parties that take steps one after the other is a `Machine`: a set of
initial states and a partial function `next` that performs one labelled step, `none` when the
step is not enabled. An interleaving is a list of labels, so a statement about every
interleaving is a statement about every `Reachable` state.

`Reachable ok s` restricts the runs to the steps that meet a condition `ok` on the state
before the step; `Anything` is the condition that excludes no step.

* `Reachable.invariant` is the induction principle, `Reachable.mono` weakens the condition,
  and `exec_reachable` and `Reachable.execWhile` turn a computed run into a reachable state.
* `Refinement` relates a machine to a more abstract one; every reachable concrete state has
  a related reachable abstract state (`Refinement.reachable`).
* `family` puts machines side by side; each of them only reaches what it reaches alone.
* `update_some_eq_some_iff` and `update_none_eq_some_iff` are about states that hold cells: which
  cells are full after a step that fills one, or that empties one.
-/

namespace Foundation

universe u v u' v'

/-- A labelled machine: initial states and a partial step function. A party that cannot go on has
no enabled step, and whatever is left open in the system modelled is a label of its own, so that
a run fixes it. -/
structure Machine (σ : Type u) (α : Type v) where
  /-- The states a run starts in. -/
  init : σ → Prop
  /-- The state after a step, `none` when the step is not enabled. -/
  next : σ → α → Option σ

/-- The condition that every step meets. A run under it is any run of the machine. -/
def Anything {σ : Type u} {α : Type v} : σ → α → Prop := fun _ _ => True

namespace Machine

variable {σ : Type u} {α : Type v} (M : Machine σ α)

/-- The states reached by runs all of whose steps meet `ok`. The condition is on the state before
a step and on its label, and so it is one that a scheduler can keep. -/
inductive Reachable (ok : σ → α → Prop) : σ → Prop
  | init {s : σ} (h : M.init s) : Reachable ok s
  | step {s s' : σ} {a : α} (hs : Reachable ok s) (hok : ok s a) (h : M.next s a = some s') :
      Reachable ok s'

/-- Perform a list of steps; `none` as soon as one is not enabled. It computes, so a run on given
inputs can be evaluated. -/
def exec : σ → List α → Option σ
  | s, [] => some s
  | s, a :: as => (M.next s a).bind fun s' => exec s' as

/-- Perform a list of steps that meet a computable condition. With a condition that implies `ok`
the run shows a state to be `Reachable ok`. -/
def execWhile (p : σ → α → Bool) : σ → List α → Option σ
  | s, [] => some s
  | s, a :: as => if p s a then (M.next s a).bind fun s' => execWhile p s' as else none

variable {M} {ok ok' : σ → α → Prop}

/-- **Invariance.** What holds initially and is preserved by every step that meets the condition
holds in every state reached. The step may rely on the state being reachable, so invariants can
be proved one on top of the other. -/
theorem Reachable.invariant {I : σ → Prop} {s : σ} (h : M.Reachable ok s)
    (hinit : ∀ s, M.init s → I s)
    (hstep : ∀ s a s', I s → ok s a → M.next s a = some s' → I s') : I s := by
  induction h with
  | init h => exact hinit _ h
  | step _ hok h ih => exact hstep _ _ _ ih hok h

theorem Reachable.mono {s : σ} (h : M.Reachable ok s) (hle : ∀ s a, ok s a → ok' s a) :
    M.Reachable ok' s := by
  induction h with
  | init h => exact .init h
  | step _ hok h ih => exact .step ih (hle _ _ hok) h

/-- A computed run ends in a reachable state, from any reachable state it starts in. -/
theorem Reachable.exec {s s' : σ} {as : List α} (hs : M.Reachable Anything s)
    (h : M.exec s as = some s') : M.Reachable Anything s' := by
  induction as generalizing s with
  | nil =>
    cases h
    exact hs
  | cons a as ih =>
    obtain ⟨t, ht, hrest⟩ := Option.bind_eq_some_iff.mp h
    exact ih (.step hs trivial ht) hrest

theorem exec_append (s : σ) (as bs : List α) :
    M.exec s (as ++ bs) = (M.exec s as).bind fun t => M.exec t bs := by
  induction as generalizing s with
  | nil => rfl
  | cons a as ih =>
    rw [List.cons_append, Machine.exec, Machine.exec, Option.bind_assoc]
    exact congrArg (Option.bind _) (funext ih)

theorem exec_reachable {s s' : σ} {as : List α} (hs : M.init s) (h : M.exec s as = some s') :
    M.Reachable Anything s' :=
  (Reachable.init hs).exec h

theorem Reachable.execWhile {p : σ → α → Bool}
    (hp : ∀ s a, M.Reachable ok s → p s a = true → ok s a) {s s' : σ} {as : List α}
    (hs : M.Reachable ok s) (h : M.execWhile p s as = some s') : M.Reachable ok s' := by
  induction as generalizing s with
  | nil =>
    cases h
    exact hs
  | cons a as ih =>
    rw [Machine.execWhile] at h
    split_ifs at h with hpa
    obtain ⟨t, ht, hrest⟩ := Option.bind_eq_some_iff.mp h
    exact ih (.step hs (hp s a hs hpa) ht) hrest

/-! ### Refinement -/

/-- A relation under which every step of `C` that meets `ok` is a step of the abstract machine
`A` or leaves the abstract state as it is. One step of `C` is at most one step of `A`; nothing is
said about what `A` can do and `C` cannot. -/
structure Refinement {τ : Type u'} {β : Type v'} (C : Machine σ α) (ok : σ → α → Prop)
    (A : Machine τ β) (R : σ → τ → Prop) : Prop where
  init : ∀ s, C.init s → ∃ t, A.init t ∧ R s t
  step : ∀ s t a s', R s t → ok s a → C.next s a = some s' →
    R s' t ∨ ∃ b t', A.next t b = some t' ∧ R s' t'

/-- Every reachable concrete state is related to a reachable abstract one, so what holds of all
states of the abstract machine can be carried over. -/
theorem Refinement.reachable {τ : Type u'} {β : Type v'} {A : Machine τ β} {R : σ → τ → Prop}
    (h : Refinement M ok A R) {s : σ} (hs : M.Reachable ok s) :
    ∃ t, A.Reachable Anything t ∧ R s t := by
  induction hs with
  | init hi =>
    obtain ⟨t, ht, hR⟩ := h.init _ hi
    exact ⟨t, .init ht, hR⟩
  | step _ hok hn ih =>
    obtain ⟨t, ht, hR⟩ := ih
    rcases h.step _ _ _ _ hR hok hn with hstay | ⟨b, t', hb, hR'⟩
    · exact ⟨t, ht, hstay⟩
    · exact ⟨t', .step ht trivial hb, hR'⟩

/-! ### What runs keep -/

variable (M) in
/-- `I` holds from `s` on, after each of the steps that is enabled. A list whose next step is not
enabled ends there. -/
def Throughout (I : σ → Prop) : σ → List α → Prop
  | s, [] => I s
  | s, a :: as => I s ∧ ∀ s', M.next s a = some s' → Throughout I s' as

variable (M) in
/-- Each of the steps that is enabled meets `ok`. Behind a step that is not enabled there is
nothing to meet. -/
def Meets (ok : σ → α → Prop) : σ → List α → Prop
  | _, [] => True
  | s, a :: as => ∀ s', M.next s a = some s' → ok s a ∧ Meets ok s' as

theorem Throughout.head {I : σ → Prop} {s : σ} {as : List α} (h : M.Throughout I s as) : I s := by
  cases as with
  | nil => exact h
  | cons a as => exact h.1

/-- Where a step keeps `I` exactly if it meets `ok`, so does a run. -/
theorem throughout_iff_meets {I : σ → Prop}
    (hstep : ∀ s a s', I s → M.next s a = some s' → (I s' ↔ ok s a)) {s : σ} {as : List α}
    (hs : I s) : M.Throughout I s as ↔ M.Meets ok s as := by
  induction as generalizing s with
  | nil => exact iff_of_true hs trivial
  | cons a as ih =>
    constructor
    · rintro ⟨-, hrest⟩ s' hnext
      have hs' := (hrest s' hnext).head
      exact ⟨(hstep s a s' hs hnext).mp hs', (ih hs').mp (hrest s' hnext)⟩
    · refine fun hmeets => ⟨hs, fun s' hnext => ?_⟩
      obtain ⟨hok, hrest⟩ := hmeets s' hnext
      exact (ih ((hstep s a s' hs hnext).mpr hok)).mpr hrest

/-! ### Machines side by side -/

/-- One machine for each index; a step is a step of one of them. The machines share nothing, so
that their steps commute. -/
def family {ι : Type u'} [DecidableEq ι] (M : Machine σ α) : Machine (ι → σ) (ι × α) where
  init s := ∀ i, M.init (s i)
  next s a := (M.next (s a.1) a.2).map (Function.update s a.1)

/-- Each of the machines is in a state that it reaches alone. -/
theorem Reachable.apply {ι : Type u'} [DecidableEq ι] {s : ι → σ}
    (h : (family M).Reachable Anything s) (i : ι) : M.Reachable Anything (s i) := by
  induction h with
  | init h => exact .init (h i)
  | @step s s' a _ _ h ih =>
    obtain ⟨t, ht, rfl⟩ := Option.map_eq_some_iff.mp h
    by_cases hi : i = a.1
    · subst hi
      rw [Function.update_self]
      exact .step ih trivial ht
    · rwa [Function.update_of_ne hi]

end Machine

/-! ### Cells of a state -/

section Cells

variable {κ : Type u} {α : Type v} [DecidableEq κ] {cells : κ → Option α} {k l : κ} {a b : α}

/-- After a cell is filled, a full one is that cell, or it was full before. -/
theorem update_some_eq_some_iff : Function.update cells k (some a) l = some b ↔
    (l = k ∧ b = a) ∨ (l ≠ k ∧ cells l = some b) := by
  by_cases hl : l = k
  · rw [hl, Function.update_self, Option.some.injEq]
    simp [eq_comm]
  · rw [Function.update_of_ne hl]
    simp [hl]

/-- After a cell is emptied, a full one is another cell that was full before. -/
theorem update_none_eq_some_iff : Function.update cells k none l = some b ↔
    l ≠ k ∧ cells l = some b := by
  by_cases hl : l = k
  · rw [hl, Function.update_self]
    simp
  · rw [Function.update_of_ne hl]
    simp [hl]

end Cells

end Foundation
