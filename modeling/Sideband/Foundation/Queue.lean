import Sideband.Foundation.Machine

/-!
# Queues and slots used in turn

* `fifo room` is the abstract queue as a machine, with a record of what went in and what came
  out: in every reachable state the one is the other followed by what is still queued
  (`fifo_sent_eq`), so entries come out in order, none lost and none twice.
* `InSlots n holds first queue` says that `n` slots used in turn hold a queue of at most `n`
  entries, the front one in slot `first % n`. Pushing fills a slot that holds no entry of the
  queue (`InSlots.push`), popping frees the front one (`InSlots.pop`).
-/

namespace Foundation

universe u

variable {α : Type u}

/-! ### The abstract queue -/

/-- A queue, and a record of what went in and what came out. The records are no part of what a
queue does; they are what its promises are about. -/
structure Fifo (α : Type u) where
  sent : List α := []
  received : List α := []
  queue : List α := []

inductive FifoStep (α : Type u)
  | push (v : α)
  | pop

/-- The queue as a machine; `room n` says whether a queue of `n` entries takes another. A push
without room and a pop of nothing are not enabled. -/
def fifo (room : ℕ → Bool) : Machine (Fifo α) (FifoStep α) where
  init t := t = {}
  next t
    | .push v =>
      if room t.queue.length then
        some { t with sent := t.sent ++ [v], queue := t.queue ++ [v] }
      else none
    | .pop =>
      match t.queue with
      | [] => none
      | v :: rest => some { t with received := t.received ++ [v], queue := rest }

variable {room : ℕ → Bool} {ok : Fifo α → FifoStep α → Prop} {t t' : Fifo α} {v : α}

theorem fifo_push (h : room t.queue.length) : (fifo room).next t (.push v) =
    some { t with sent := t.sent ++ [v], queue := t.queue ++ [v] } := if_pos h

theorem fifo_pop {rest : List α} (h : t.queue = v :: rest) : (fifo room).next t .pop =
    some { t with received := t.received ++ [v], queue := rest } := by
  simp only [fifo, h]

/-- What went in is what came out, followed by what is queued. -/
theorem fifo_sent_eq (h : (fifo room).Reachable ok t) : t.sent = t.received ++ t.queue := by
  refine h.invariant (I := fun t => t.sent = t.received ++ t.queue) ?_ ?_
  · rintro t rfl
    rfl
  · rintro t (v | _) t' hinv - hnext
    · simp only [fifo] at hnext
      split_ifs at hnext
      cases hnext
      simp [hinv, List.append_assoc]
    · simp only [fifo] at hnext
      split at hnext
      · cases hnext
      · next w rest hqueue =>
        cases hnext
        simp [hinv, hqueue]

/-! ### Slots used in turn -/

/-- `n` slots used in turn hold a queue whose front is in slot `first % n`; `holds s v` says
that slot `s` holds `v`. -/
structure InSlots (n : ℕ) (holds : ℕ → α → Prop) (first : ℕ) (queue : List α) : Prop where
  length_le : queue.length ≤ n
  holds : ∀ i (h : i < queue.length), holds ((first + i) % n) queue[i]

namespace InSlots

variable {n first : ℕ} {holds holds' : ℕ → α → Prop} {queue rest : List α}

theorem nil (n : ℕ) (holds : ℕ → α → Prop) (first : ℕ) : InSlots n holds first [] :=
  ⟨Nat.zero_le n, fun i h => absurd h (Nat.not_lt_zero i)⟩

/-- The slots of two entries less than `n` apart are different. -/
theorem slot_ne {i j : ℕ} (hij : i < j) (hj : j < i + n) : i % n ≠ j % n := by
  intro h
  have hdvd : n ∣ j - i := Nat.dvd_of_mod_eq_zero (Nat.sub_mod_eq_zero_of_mod_eq h.symm)
  have hle := Nat.le_of_dvd (by omega) hdvd
  omega

theorem mono (h : InSlots n holds first queue) (hkeep : ∀ s v, holds s v → holds' s v) :
    InSlots n holds' first queue :=
  ⟨h.length_le, fun i hi => hkeep _ _ (h.holds i hi)⟩

/-- A push fills the slot behind the last entry, which holds no entry of the queue. -/
theorem push (h : InSlots n holds first queue) (hroom : queue.length < n)
    (hnew : holds' ((first + queue.length) % n) v)
    (hkeep : ∀ s < n, ∀ u, s ≠ (first + queue.length) % n → holds s u → holds' s u) :
    InSlots n holds' first (queue ++ [v]) := by
  refine ⟨by rw [List.length_append, List.length_singleton]; omega, fun i hi => ?_⟩
  rw [List.length_append, List.length_singleton] at hi
  by_cases hlast : i = queue.length
  · subst hlast
    simpa using hnew
  · have hlt : i < queue.length := by omega
    rw [List.getElem_append_left hlt]
    exact hkeep _ (Nat.mod_lt _ (by omega)) _ (slot_ne (by omega) (by omega)) (h.holds i hlt)

/-- A pop takes the entry in slot `first % n`. -/
theorem pop (h : InSlots n holds first (v :: rest)) :
    holds (first % n) v ∧ InSlots n holds (first + 1) rest := by
  refine ⟨h.holds 0 (by simp), ⟨?_, ?_⟩⟩
  · have := h.length_le
    rw [List.length_cons] at this
    omega
  · intro i hi
    have hnext := h.holds (i + 1) (by simpa using hi)
    rwa [List.getElem_cons_succ, show first + (i + 1) = first + 1 + i by omega] at hnext

end InSlots

end Foundation
