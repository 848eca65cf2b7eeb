import Sideband.Connect.Registry
import Sideband.Foundation.CondVar
import Sideband.Foundation.Machine

/-!
# The semaphore's threads

`Semaphore` is a count, a mutex and a condition variable. A thread that waits may find the count at
`0`, sleep, be woken up and find that a newcomer took the count first.

* `SemaphoreCorrect`: the count is the initial count and the notifies less the completed waits,
  never negative, and while it is positive and somebody sleeps, as many are on their way to test it
  again.
* `semaphoreCorrect_of_reachable`: it holds in every run in which no notify comes at the largest
  `int` (`FitsInt`). A notify that does makes the count negative
  (`not_semaphoreCorrect_overflow`).
* `semaphoreThreads_refines`: to those who call it, the semaphore is the one of the connect queues,
  whose operations are one step each.
-/

namespace Sideband

open Foundation

/-- A `Semaphore` and the threads at its condition variable. The mutex is not part of the state:
whoever has it runs to the end of its section. -/
structure SemaphoreThreads (τ : Type) where
  /-- The argument of the constructor. -/
  initial : ℤ
  count : ℤ := initial
  cv : CondVar τ := {}
  notifies : ℕ := 0
  /-- The waits that have returned. -/
  waits : ℕ := 0

/-- A section under the mutex: it ends at the release, also at the one in `cv.wait`. -/
inductive SemaphoreStep (τ : Type)
  /-- `notify`, and the sleeper that `notify_one` wakes up. -/
  | notify (t : τ) (woken : Option τ)
  | wait (t : τ)
  /-- A thread that is awake in `cv.wait` takes the mutex again. -/
  | retest (t : τ)
  /-- A spurious wake-up. -/
  | wake (t : τ)

section Property

variable {τ : Type} {s : SemaphoreThreads τ}

/-- What the semaphore promises in a state: it counts right, and no thread sleeps on while there
is something to take and nobody awake to take it. -/
structure SemaphoreCorrect (s : SemaphoreThreads τ) : Prop where
  count : s.count = s.initial + s.notifies - s.waits
  nonneg : 0 ≤ s.count
  /-- No wake-up is lost. -/
  awake : 0 < s.count → s.cv.asleep.Nonempty → s.count ≤ s.cv.awake.card

/-- `SemaphoreCorrect`, with the sleepers covered whatever the count, and the count an `int`. -/
structure SemaphoreCovered (s : SemaphoreThreads τ) : Prop where
  count : s.count = s.initial + s.notifies - s.waits
  nonneg : 0 ≤ s.count
  lt : s.count < 2 ^ 31
  covered : s.cv.Covered s.count

namespace SemaphoreCovered

theorem correct (h : SemaphoreCovered s) : SemaphoreCorrect s where
  count := h.count
  nonneg := h.nonneg
  awake := fun _ => h.covered

theorem toInt32_pred (h : SemaphoreCovered s) : toInt32 (s.count - 1) = s.count - 1 := by
  have hnonneg := h.nonneg
  have hlt := h.lt
  exact toInt32_of_range (by omega) (by omega)

theorem toInt32_succ (h : SemaphoreCovered s) (hfits : s.count < 2 ^ 31 - 1) :
    toInt32 (s.count + 1) = s.count + 1 := by
  have hnonneg := h.nonneg
  exact toInt32_of_range (by omega) (by omega)

end SemaphoreCovered

end Property

/-! ### The sections -/

namespace SemaphoreThreads

variable {τ : Type} [DecidableEq τ] (s : SemaphoreThreads τ) (t : τ)

/-- `count++` at the largest `int` is undefined; here it wraps. -/
def notify (woken : Option τ) : Option (SemaphoreThreads τ) :=
  if s.cv.Outside t then
    (s.cv.notifyOne woken).map fun cv =>
      { s with count := toInt32 (s.count + 1), notifies := s.notifies + 1, cv }
  else none

/-- The loop of `wait`, from a test of the count until the mutex is released. -/
def test : SemaphoreThreads τ :=
  if s.count = 0 then { s with cv := s.cv.sleep t }
  else { s with count := toInt32 (s.count - 1), waits := s.waits + 1, cv := s.cv.leave t }

def wait : Option (SemaphoreThreads τ) := if s.cv.Outside t then some (s.test t) else none

def retest : Option (SemaphoreThreads τ) := if t ∈ s.cv.awake then some (s.test t) else none

def wake : Option (SemaphoreThreads τ) :=
  if t ∈ s.cv.asleep then some { s with cv := s.cv.wake t } else none

end SemaphoreThreads

/-- Any number of threads that wait and notify, in any order. A step is a section under the
mutex, sleepers may wake up for no reason, and which of them a notification wakes is open. -/
def semaphoreThreads (τ : Type) [DecidableEq τ] :
    Machine (SemaphoreThreads τ) (SemaphoreStep τ) where
  init s := 0 ≤ s.initial ∧ s.initial < 2 ^ 31 ∧ s = { initial := s.initial }
  next s
    | .notify t woken => s.notify t woken
    | .wait t => s.wait t
    | .retest t => s.retest t
    | .wake t => s.wake t

variable {τ : Type} [DecidableEq τ] {s s' : SemaphoreThreads τ} {a : SemaphoreStep τ} {t : τ}

/-- No notify comes at the largest `int`, where `count++` overflows. Of the waits nothing is
asked. -/
def FitsInt (s : SemaphoreThreads τ) : SemaphoreStep τ → Prop
  | .notify _ _ => s.count < 2 ^ 31 - 1
  | _ => True

/-! ### What a section does -/

namespace SemaphoreThreads

theorem notify_eq_some {woken : Option τ} (h : s.notify t woken = some s') :
    ∃ cv, s.cv.notifyOne woken = some cv ∧
      s' = { s with count := toInt32 (s.count + 1), notifies := s.notifies + 1, cv } := by
  rw [notify] at h
  split_ifs at h
  obtain ⟨cv, hcv, rfl⟩ := Option.map_eq_some_iff.mp h
  exact ⟨cv, hcv, rfl⟩

theorem wait_eq_some (h : s.wait t = some s') : s' = s.test t := by
  rw [wait] at h
  split_ifs at h
  exact (Option.some.inj h).symm

theorem retest_eq_some (h : s.retest t = some s') : s' = s.test t := by
  rw [retest] at h
  split_ifs at h
  exact (Option.some.inj h).symm

theorem wake_eq_some (h : s.wake t = some s') :
    t ∈ s.cv.asleep ∧ s' = { s with cv := s.cv.wake t } := by
  rw [wake] at h
  split_ifs at h with hasleep
  exact ⟨hasleep, (Option.some.inj h).symm⟩

theorem test_of_eq (h : s.count = 0) : s.test t = { s with cv := s.cv.sleep t } := if_pos h

theorem test_of_ne (h : s.count ≠ 0) : s.test t =
    { s with count := toInt32 (s.count - 1), waits := s.waits + 1, cv := s.cv.leave t } := if_neg h

end SemaphoreThreads

/-! ### The invariant -/

namespace SemaphoreCovered

theorem notify {woken : Option τ} (h : SemaphoreCovered s) (hfits : s.count < 2 ^ 31 - 1)
    (hstep : s.notify t woken = some s') : SemaphoreCovered s' := by
  obtain ⟨cv, hcv, rfl⟩ := SemaphoreThreads.notify_eq_some hstep
  have hcount := h.count
  have hnonneg := h.nonneg
  constructor <;> simp only [h.toInt32_succ hfits]
  · rw [Nat.cast_add, Nat.cast_one]
    omega
  · omega
  · omega
  · exact h.covered.notifyOne hcv

/-- A thread sleeps only at `0`; one that goes on takes one of the count. -/
theorem test (h : SemaphoreCovered s) : SemaphoreCovered (s.test t) := by
  have hbalance := h.count
  have hnonneg := h.nonneg
  have hlt := h.lt
  by_cases hcount : s.count = 0
  · rw [SemaphoreThreads.test_of_eq hcount]
    exact ⟨hbalance, hnonneg, hlt, CondVar.covered_of_nonpos hcount.le⟩
  · rw [SemaphoreThreads.test_of_ne hcount]
    constructor <;> simp only [h.toInt32_pred]
    · rw [Nat.cast_add, Nat.cast_one]
      omega
    · omega
    · omega
    · exact h.covered.leave t

theorem step (h : SemaphoreCovered s) (hfits : FitsInt s a)
    (hstep : (semaphoreThreads τ).next s a = some s') : SemaphoreCovered s' := by
  cases a with
  | notify t woken => exact h.notify hfits hstep
  | wait t =>
    rw [SemaphoreThreads.wait_eq_some hstep]
    exact h.test
  | retest t =>
    rw [SemaphoreThreads.retest_eq_some hstep]
    exact h.test
  | wake t =>
    obtain ⟨hasleep, rfl⟩ := SemaphoreThreads.wake_eq_some hstep
    exact ⟨h.count, h.nonneg, h.lt, h.covered.wake hasleep⟩

end SemaphoreCovered

theorem semaphoreCovered_of_init (h : (semaphoreThreads τ).init s) : SemaphoreCovered s := by
  obtain ⟨hnonneg, hlt, hs⟩ := h
  rw [hs]
  refine ⟨?_, hnonneg, hlt, CondVar.covered_of_asleep_eq_empty rfl⟩
  rw [Nat.cast_zero, add_zero, sub_zero]

theorem semaphoreCovered_of_reachable (h : (semaphoreThreads τ).Reachable FitsInt s) :
    SemaphoreCovered s :=
  h.invariant (fun _ => semaphoreCovered_of_init) fun _ _ _ hs hok hstep => hs.step hok hstep

/-- **The semaphore is correct**, in every run in which no notify comes at the largest `int`. The
threads may be of any number, and `wait`, `notify` and spurious wake-ups come in any order. -/
theorem semaphoreCorrect_of_reachable (h : (semaphoreThreads τ).Reachable FitsInt s) :
    SemaphoreCorrect s :=
  (semaphoreCovered_of_reachable h).correct

/-- Thread `0` waits at `0` and is woken up; thread `1` sleeps on. -/
theorem semaphoreCorrect_woken : ∃ s : SemaphoreThreads ℕ,
    0 < s.count ∧ s.cv.asleep.Nonempty ∧ SemaphoreCorrect s := by
  let run : List (SemaphoreStep ℕ) := [.wait 0, .wait 1, .notify 2 (some 0)]
  obtain ⟨s, hs⟩ : ∃ s, (semaphoreThreads ℕ).execWhile (fun s _ => s.count < 2 ^ 31 - 1)
      { initial := 0 } run = some s := Option.isSome_iff_exists.mp rfl
  have hreach : (semaphoreThreads ℕ).Reachable FitsInt s := by
    refine Machine.Reachable.execWhile (fun s a _ hfits => ?_) (.init ⟨le_rfl, by decide, rfl⟩) hs
    cases a with
    | notify => exact (of_decide_eq_true hfits : s.count < 2 ^ 31 - 1)
    | _ => trivial
  cases hs
  exact ⟨_, by decide, by decide, semaphoreCorrect_of_reachable hreach⟩

/-- A notify at the largest `int` makes the count negative. -/
theorem not_semaphoreCorrect_overflow : ¬ ∀ s : SemaphoreThreads ℕ,
    (semaphoreThreads ℕ).Reachable Anything s → SemaphoreCorrect s := by
  intro hall
  have hinit : (semaphoreThreads ℕ).init { initial := 2 ^ 31 - 1 } :=
    ⟨by norm_num, by norm_num, rfl⟩
  have hrun : (semaphoreThreads ℕ).exec { initial := 2 ^ 31 - 1 } [.notify 0 none] =
      some { initial := 2 ^ 31 - 1, count := -2 ^ 31, notifies := 1 } := rfl
  exact absurd (hall _ (Machine.exec_reachable hinit hrun)).nonneg (by norm_num)

/-! ### The semaphore of the connect queues -/

inductive SemaphoreCall
  | wait
  | notify

/-- The operations of a `Semaphore`, each one step, from any count on. -/
def semaphore : Machine Semaphore SemaphoreCall where
  init _ := True
  next q
    | .wait => q.wait
    | .notify => some q.notify

/-- A wait takes its step when it takes one of the count, whenever it was called; until then it
leaves the specification's count alone. -/
theorem semaphoreThreads_refines : Machine.Refinement (semaphoreThreads τ) FitsInt semaphore
    fun s q => SemaphoreCovered s ∧ s.count = q.count where
  init s h := by
    have hs := semaphoreCovered_of_init h
    exact ⟨⟨s.count.toNat⟩, trivial, hs, (Int.toNat_of_nonneg hs.nonneg).symm⟩
  step s q a s' hR hfits hstep := by
    obtain ⟨hs, hq⟩ := hR
    have hs' := hs.step hfits hstep
    have htest {t : τ} (heq : s' = s.test t) : (SemaphoreCovered s' ∧ s'.count = q.count) ∨
        ∃ b q', semaphore.next q b = some q' ∧ SemaphoreCovered s' ∧ s'.count = q'.count := by
      by_cases hcount : s.count = 0
      · rw [heq, SemaphoreThreads.test_of_eq hcount] at hs' ⊢
        exact .inl ⟨hs', hq⟩
      · have hpos : q.count ≠ 0 := fun hzero => hcount (by rw [hq, hzero, Nat.cast_zero])
        refine .inr ⟨.wait, ⟨q.count - 1⟩, if_neg hpos, hs', ?_⟩
        rw [heq, SemaphoreThreads.test_of_ne hcount]
        simp only [hs.toInt32_pred]
        omega
    cases a with
    | notify t woken =>
      obtain ⟨cv, -, rfl⟩ := SemaphoreThreads.notify_eq_some hstep
      refine .inr ⟨.notify, q.notify, rfl, hs', ?_⟩
      change toInt32 (s.count + 1) = ((q.count + 1 : ℕ) : ℤ)
      rw [hs.toInt32_succ hfits, hq, Nat.cast_add, Nat.cast_one]
    | wait t => exact htest (SemaphoreThreads.wait_eq_some hstep)
    | retest t => exact htest (SemaphoreThreads.retest_eq_some hstep)
    | wake t =>
      obtain ⟨-, rfl⟩ := SemaphoreThreads.wake_eq_some hstep
      exact .inl ⟨hs', hq⟩

end Sideband
