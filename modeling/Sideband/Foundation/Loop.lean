import Sideband.Foundation.Exec
import Mathlib.Data.Nat.Notation

/-!
# Loops with a bound

`Exec.loop body n a` goes round a loop at most `n` times. The body gets the value of the loop
variable and either ends the loop or gives the variable's next value, so the result tells a loop
that has ended (`none`) from one that is still going. The rules say what the first round does to
the whole: `loop_ends`, `loop_goesOn`, `loop_fails`. A loop that takes one element of a list in each
round does well exactly if it does well with every element (`forall_loop_iff`).
-/

namespace Foundation.Exec

variable {σ α : Type}

/-- Go round at most `n` times: the value of the loop variable, if the loop has not ended. A
source loop without a bound is modelled by all of them at once: what holds for every `n` holds of
each of its rounds. -/
def loop (body : α → Exec σ (Option α)) : ℕ → α → Exec σ (Option α)
  | 0, a => return some a
  | n + 1, a => do
    match ← body a with
    | none => return none
    | some a => loop body n a

variable {body : α → Exec σ (Option α)} {a a' : α} {s s' : σ} {e : Stop}

@[simp]
theorem loop_zero (body : α → Exec σ (Option α)) (a : α) (s : σ) :
    (loop body 0 a).run s = .ok (some a, s) := rfl

theorem loop_ends (h : (body a).run s = .ok (none, s')) (n : ℕ) :
    (loop body (n + 1) a).run s = .ok (none, s') := by
  rw [loop, run_bind_ok h]
  rfl

theorem loop_goesOn (h : (body a).run s = .ok (some a', s')) (n : ℕ) :
    (loop body (n + 1) a).run s = (loop body n a').run s' := by
  rw [loop, run_bind_ok h]

theorem loop_fails (h : (body a).run s = .error e) (n : ℕ) :
    (loop body (n + 1) a).run s = .error e := by
  rw [loop, run_bind_error h]

/-- `Waits as a s`: the elements that the loop will take from `s` on are `as`. Whatever the bound,
the result satisfies `Q` exactly if all elements satisfy `P`, where an element that does not makes
the loop fail. -/
theorem forall_loop_iff {ρ : Type} (Waits : List ρ → α → σ → Prop) (P : ρ → Prop)
    (Q : Except Stop (Option α × σ) → Prop)
    (hstart : ∀ {rs a s}, Waits rs a s → Q (.ok (some a, s)))
    (hend : ∀ {a s}, Waits [] a s → ∀ n, Q ((loop body (n + 1) a).run s))
    (hnext : ∀ {r rs a s}, Waits (r :: rs) a s → P r →
      ∃ a' s', (body a).run s = .ok (some a', s') ∧ Waits rs a' s')
    (hfail : ∀ {r rs a s}, Waits (r :: rs) a s → ¬ P r →
      ∃ e, (body a).run s = .error e ∧ ¬ Q (.error e))
    {rs : List ρ} (h : Waits rs a s) :
    (∀ n, Q ((loop body n a).run s)) ↔ ∀ r ∈ rs, P r := by
  induction rs generalizing a s with
  | nil =>
    refine iff_of_true ?_ fun r hr => absurd hr List.not_mem_nil
    intro n
    rcases n with - | n
    · exact hstart h
    · exact hend h n
  | cons r rs ih =>
    rw [List.forall_mem_cons]
    -- a good element takes the loop to the others, a bad one fails in the first round
    by_cases hr : P r
    · obtain ⟨a', s', hround, hwaits⟩ := hnext h hr
      rw [← ih hwaits]
      constructor
      · intro hall
        refine ⟨hr, fun n => ?_⟩
        rw [← loop_goesOn hround]
        exact hall (n + 1)
      · rintro ⟨-, hall⟩ n
        rcases n with - | n
        · exact hstart h
        · rw [loop_goesOn hround]
          exact hall n
    · refine iff_of_false ?_ fun hall => hr hall.1
      intro hall
      obtain ⟨e, hround, hQ⟩ := hfail h hr
      have hone := hall 1
      rw [loop_fails hround] at hone
      exact hQ hone

end Foundation.Exec
