import Mathlib.Data.Finset.Card
import Mathlib.Order.Disjoint
import Mathlib.Tactic.SplitIfs

/-!
# A condition variable

The threads that wait on a condition variable sleep, or they are awake and go for the mutex again.
`notifyOne` wakes one sleeper up, when there is one; a sleeper may also wake up for no reason
(`wake`).

`Covered count v` is what keeps a wake-up from being lost, for a count that the sleepers wait for:
while somebody sleeps, there are as many awake as the count says. Each operation keeps it:
`Covered.notifyOne` for a notification that comes with one more, `Covered.leave` for a thread that
takes one, whether it slept or not, `Covered.wake` for a spurious wake-up, and a thread goes to
sleep only when there is nothing to take (`covered_of_nonpos`).
-/

namespace Foundation

universe u

/-- The threads that wait on a condition variable. A thread that does not wait is in neither of
the two sets; who has the mutex is not said here. -/
structure CondVar (ι : Type u) where
  asleep : Finset ι := ∅
  /-- Woken up, and not back under the mutex. -/
  awake : Finset ι := ∅
  disjoint : Disjoint asleep awake := by simp

namespace CondVar

variable {ι : Type u} {v : CondVar ι} {count : ℤ}

/-- While somebody sleeps, as many are awake as the count says. So whatever there is to take is
on its way to somebody, and no wake-up is lost. -/
def Covered (count : ℤ) (v : CondVar ι) : Prop := v.asleep.Nonempty → count ≤ v.awake.card

theorem covered_of_nonpos (hcount : count ≤ 0) : Covered count v :=
  fun _ => hcount.trans (Int.natCast_nonneg _)

theorem covered_of_asleep_eq_empty (h : v.asleep = ∅) : Covered count v := by
  intro hsleeper
  rw [h] at hsleeper
  exact absurd hsleeper Finset.not_nonempty_empty

variable [DecidableEq ι] (v : CondVar ι) (i : ι)

/-- `i` does not wait: it is neither asleep nor woken up and on its way back. -/
abbrev Outside : Prop := i ∉ v.asleep ∧ i ∉ v.awake

def sleep : CondVar ι where
  asleep := insert i v.asleep
  awake := v.awake.erase i
  disjoint := by
    rw [Finset.disjoint_insert_left]
    exact ⟨Finset.notMem_erase i _, v.disjoint.mono_right (Finset.erase_subset i _)⟩

def wake : CondVar ι where
  asleep := v.asleep.erase i
  awake := insert i v.awake
  disjoint := by
    rw [Finset.disjoint_insert_right]
    exact ⟨Finset.notMem_erase i _, v.disjoint.mono_left (Finset.erase_subset i _)⟩

/-- `i` is back under the mutex, and does not wait any longer. -/
def leave : CondVar ι where
  asleep := v.asleep
  awake := v.awake.erase i
  disjoint := v.disjoint.mono_right (Finset.erase_subset i _)

/-- `notify_one`: the sleeper it wakes up, and none only when nobody sleeps. Which sleeper it is,
is open. -/
def notifyOne : Option ι → Option (CondVar ι)
  | some i => if i ∈ v.asleep then some (v.wake i) else none
  | none => if v.asleep = ∅ then some v else none

variable {v i} {v' : CondVar ι} {woken : Option ι}

theorem card_awake_wake (hi : i ∈ v.asleep) : (v.wake i).awake.card = v.awake.card + 1 :=
  Finset.card_insert_of_notMem (Finset.disjoint_left.mp v.disjoint hi)

namespace Covered

/-- One of the count is taken, by a thread that was awake or by a newcomer. -/
theorem leave (h : Covered count v) (i : ι) : Covered (count - 1) (v.leave i) := by
  intro hsleeper
  have hcard : v.awake.card - 1 ≤ (v.awake.erase i).card := Finset.pred_card_le_card_erase
  have hcount := h hsleeper
  simp only [CondVar.leave]
  omega

theorem wake (h : Covered count v) (hi : i ∈ v.asleep) : Covered count (v.wake i) := by
  intro _
  have hcount := h ⟨i, hi⟩
  rw [card_awake_wake hi]
  omega

/-- The count goes up and a sleeper is woken up for it. -/
theorem notifyOne (h : Covered count v) (hnotify : v.notifyOne woken = some v') :
    Covered (count + 1) v' := by
  cases woken with
  | some i =>
    rw [CondVar.notifyOne] at hnotify
    split_ifs at hnotify with hi
    cases hnotify
    intro _
    have hcount := h ⟨i, hi⟩
    rw [card_awake_wake hi]
    omega
  | none =>
    rw [CondVar.notifyOne] at hnotify
    split_ifs at hnotify with hempty
    cases hnotify
    exact covered_of_asleep_eq_empty hempty

end Covered

end CondVar

end Foundation
