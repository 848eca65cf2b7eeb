import Mathlib.Data.List.AList
import Sideband.Handle

/-!
# What the owner's threads share

The strategies, the map `_buffers` from ids to handles, and the semaphore that orders the
connections. Each operation on the map and on the semaphore holds its lock from start to end, so
it is one step.
-/

namespace Sideband

open Foundation

/-- `SidebandStrategy`, with the enumerators in the order of their values. -/
inductive SidebandStrategy
  | unknown
  | grpc
  | sharedMemory
  | doubleBufferedSharedMemory
  | sockets
  | socketsLowLatency
  | hypervisorSockets
  | rdma
  | rdmaLowLatency
  deriving DecidableEq, Repr

/-! ### The semaphore -/

/-- `Semaphore`, as those who call it see it: a count that a call finds and changes. That its
operations are one step each is shown of its threads. -/
structure Semaphore where
  count : ℕ := 1
  deriving DecidableEq, Repr

namespace Semaphore

/-- `wait`: `none` while the count is `0`. The thread that waits stays where it is, and any
thread may be the next one to get through. -/
def wait (q : Semaphore) : Option Semaphore :=
  if q.count = 0 then none else some ⟨q.count - 1⟩

def notify (q : Semaphore) : Semaphore := ⟨q.count + 1⟩

theorem wait_eq_some {q q' : Semaphore} (h : q.wait = some q') :
    0 < q.count ∧ q'.count = q.count - 1 := by
  rw [wait] at h
  split_ifs at h with hcount
  cases h
  exact ⟨Nat.pos_of_ne_zero hcount, rfl⟩

end Semaphore

/-! ### The map -/

/-- `_buffers`, with handles of type `β`: a map with at most one handle for an id. -/
abbrev Buffers (β : Type) := AList fun _ : Bytes => β

namespace Buffers

variable {β : Type} {buffers : Buffers β} {usageId other : Bytes} {o o' : β}

/-- `_buffers.emplace`: an id that is in the map keeps its handle. -/
def emplace (usageId : Bytes) (o : β) (buffers : Buffers β) : Buffers β :=
  match buffers.lookup usageId with
  | some _ => buffers
  | none => buffers.insert usageId o

theorem lookup_emplace_of_none (h : buffers.lookup usageId = none) :
    (emplace usageId o buffers).lookup usageId = some o := by
  simp only [emplace, h]
  exact AList.lookup_insert _

theorem emplace_of_some (h : buffers.lookup usageId = some o') :
    emplace usageId o buffers = buffers := by
  simp only [emplace, h]

theorem lookup_emplace_ne (h : other ≠ usageId) :
    (emplace usageId o buffers).lookup other = buffers.lookup other := by
  rw [emplace]
  split
  · rfl
  · exact AList.lookup_insert_ne h

/-- What was in the map stays. -/
theorem lookup_emplace_mono (h : buffers.lookup other = some o') :
    (emplace usageId o buffers).lookup other = some o' := by
  by_cases hother : other = usageId
  · subst hother
    rw [emplace_of_some h, h]
  · rw [lookup_emplace_ne hother, h]

/-- What is in the map was there or is new. -/
theorem lookup_emplace_cases (h : (emplace usageId o buffers).lookup other = some o') :
    buffers.lookup other = some o' ∨ other = usageId ∧ o' = o := by
  by_cases hother : other = usageId
  · subst hother
    cases hold : buffers.lookup other with
    | some o'' =>
      rw [emplace_of_some hold] at h
      exact .inl (hold.symm.trans h)
    | none =>
      rw [lookup_emplace_of_none hold] at h
      cases h
      exact .inr ⟨rfl, rfl⟩
  · rw [lookup_emplace_ne hother] at h
    exact .inl h

end Buffers

end Sideband
