import Mathlib.Data.List.Nodup
import Mathlib.Data.Fin.Basic
import Sideband.Handle

/-!
# easyrdma sessions

The two ends of an easyrdma connection as the transport uses them, each with two regions of
`size` bytes. Easyrdma itself is not part of the source; this is its documented behaviour, and
`EasyRdma` lists what the transport relies on of it.

* `SendSession`: a free region is acquired, filled through its pointer and queued; its first
  `usedSize` bytes are then in flight until the other end has them.
* `ReceiveSession`: an incoming message goes to a free region and is delivered; the oldest
  delivered region is acquired, and held until it is released.
* `deliver` is the step of the network between the two.

A region is in one place at a time: the sessions carry that as a field. The outcomes of the
coming calls are part of the state; once they are used up, calls succeed. A call that finds no
region waits (the timeout is infinite).
-/

namespace Sideband

open Foundation

/-- The result of an easyrdma call. The transport tells success, a timeout and the rest apart,
and nothing else. -/
inductive EasyRdmaResult
  | success
  | timeout
  | failure
  deriving DecidableEq, Repr

/-- `easyrdma_InternalBufferRegion`: where a region is and how much of it is used. A handle has
one for writing and one for reading. -/
structure BufferRegion where
  buffer : Pointer := .null
  usedSize : ℕ := 0
  deriving DecidableEq, Repr

/-- A region and the bytes it was filled with. The bytes are a record: what the region holds is
its memory, and `Intact` says that the two agree. -/
structure Filled where
  region : Fin 2
  bytes : Bytes
  deriving DecidableEq, Repr

/-- Every region holds the bytes it is recorded with. A program can break this: nothing keeps it
from storing to a region that is in flight. -/
def Intact (memory : Fin 2 → Bytes) (es : List Filled) : Prop :=
  ∀ e ∈ es, (memory e.region).take e.bytes.length = e.bytes

/-! ### The sending end -/

/-- A session connected for sending, with the two regions that the transport configures. A region
is acquired, in flight or free, in one of these places at a time; what is not in a list is free. -/
structure SendSession (size : ℕ) where
  memory : Fin 2 → Bytes
  acquired : List (Fin 2) := []
  /-- The regions in flight, the oldest first, with the bytes that were queued. -/
  queue : List Filled := []
  /-- The region easyrdma picks when both are free. -/
  prefer : Fin 2 := 0
  /-- The results of the coming calls. -/
  results : List EasyRdmaResult := []
  length_memory : ∀ r, (memory r).length = size
  distinct : (acquired ++ queue.map Filled.region).Nodup := by simp

namespace SendSession

variable {size : ℕ}

/-- A session after `easyrdma_ConfigureBuffers`. -/
def configured (size : ℕ) : SendSession size where
  memory _ := List.replicate size 0
  length_memory _ := List.length_replicate

def Free (s : SendSession size) (r : Fin 2) : Prop :=
  r ∉ s.acquired ∧ r ∉ s.queue.map Filled.region

instance (s : SendSession size) (r : Fin 2) : Decidable (s.Free r) := inferInstanceAs
  (Decidable (_ ∧ _))

/-- The free region that the next acquire yields, if there is one. `prefer` is the only choice
that easyrdma has with two regions, and no machine fixes it. -/
def pick (s : SendSession size) : Option (Fin 2) :=
  if s.Free s.prefer then some s.prefer else if s.Free (s.prefer + 1) then some (s.prefer + 1)
  else none

/-- Hand out a free region. -/
def acquire (r : Fin 2) (s : SendSession size) : SendSession size :=
  if h : s.Free r then
    { s with
      acquired := r :: s.acquired
      distinct := by
        rw [List.cons_append, List.nodup_cons, List.mem_append, not_or]
        exact ⟨h, s.distinct⟩ }
  else s

/-- Put the first `usedSize` bytes of an acquired region in flight. The region is not free again
before they have arrived. -/
def enqueue (r : Fin 2) (usedSize : ℕ) (s : SendSession size) : SendSession size :=
  if h : r ∈ s.acquired then
    { s with
      acquired := s.acquired.erase r
      queue := s.queue ++ [⟨r, (s.memory r).take usedSize⟩]
      distinct := by
        have hperm : (s.acquired.erase r ++
            (s.queue ++ [Filled.mk r ((s.memory r).take usedSize)]).map Filled.region).Perm
              (s.acquired ++ s.queue.map Filled.region) := by
          rw [List.map_append, List.map_singleton, ← List.append_assoc]
          refine (List.perm_append_singleton _ _).trans ?_
          rw [← List.cons_append]
          exact (List.perm_cons_erase h).symm.append_right _
        exact hperm.nodup_iff.mpr s.distinct }
  else s

/-- Change the memory of a region, which the program may do whoever has the region: that it does
so only with an acquired one has to be proved. -/
def setMemory (r : Fin 2) (mem : Bytes) (s : SendSession size) : SendSession size :=
  if h : mem.length = size then
    { s with
      memory := Function.update s.memory r mem
      length_memory := fun r' => by
        by_cases hr : r' = r
        · rw [hr, Function.update_self, h]
        · rw [Function.update_of_ne hr, s.length_memory] }
  else s

/-- The result of the next call. -/
def answer (s : SendSession size) : EasyRdmaResult := s.results.headD .success

/-- The session after the result of a call is known. -/
def answered (s : SendSession size) : SendSession size := { s with results := s.results.tail }

def nextResult : Exec (SendSession size) EasyRdmaResult := fun s =>
  .ok (s.results.headD .success, { s with results := s.results.tail })

/-- `easyrdma_AcquireSendRegion`: the result, and the region if there is one. With no region free
it waits, whatever timeout was given, unless the coming result is a failure or a timeout. -/
def acquireSendRegion : Exec (SendSession size) (EasyRdmaResult × Option BufferRegion) := do
  match ← nextResult with
  | .success =>
    match (← get).pick with
    | some r =>
      modify (acquire r)
      return (.success, some { buffer := .into (.sendRegion r) 0 })
    | none => throw .blocked
  | result => return (result, none)

/-- `easyrdma_QueueBufferRegion`: only an acquired region can be queued, from its start and with
no more bytes than it has. Anything else is refused, and the region stays where it is. -/
def queueBufferRegion (region : BufferRegion) : Exec (SendSession size) EasyRdmaResult := do
  match ← nextResult with
  | .success =>
    match region.buffer with
    | .into (.sendRegion r) 0 =>
      if r ∈ (← get).acquired ∧ region.usedSize ≤ size then
        modify (enqueue r region.usedSize)
        return .success
      else
        return .failure
    | _ => return .failure
  | result => return result

section Lemmas

variable {s : SendSession size} {r r' : Fin 2} {n : ℕ} {mem : Bytes}

@[simp]
theorem memory_acquire : (s.acquire r).memory = s.memory := by
  rw [acquire]
  split <;> rfl

@[simp]
theorem queue_acquire : (s.acquire r).queue = s.queue := by
  rw [acquire]
  split <;> rfl

@[simp]
theorem results_acquire : (s.acquire r).results = s.results := by
  rw [acquire]
  split <;> rfl

theorem acquired_acquire (h : s.Free r) : (s.acquire r).acquired = r :: s.acquired := by
  rw [acquire, dif_pos h]

@[simp]
theorem memory_enqueue : (s.enqueue r n).memory = s.memory := by
  rw [enqueue]
  split <;> rfl

@[simp]
theorem results_enqueue : (s.enqueue r n).results = s.results := by
  rw [enqueue]
  split <;> rfl

theorem acquired_enqueue (h : r ∈ s.acquired) : (s.enqueue r n).acquired = s.acquired.erase r := by
  rw [enqueue, dif_pos h]

theorem queue_enqueue (h : r ∈ s.acquired) :
    (s.enqueue r n).queue = s.queue ++ [⟨r, (s.memory r).take n⟩] := by
  rw [enqueue, dif_pos h]

@[simp]
theorem acquired_setMemory : (s.setMemory r mem).acquired = s.acquired := by
  rw [setMemory]
  split <;> rfl

@[simp]
theorem queue_setMemory : (s.setMemory r mem).queue = s.queue := by
  rw [setMemory]
  split <;> rfl

@[simp]
theorem results_setMemory : (s.setMemory r mem).results = s.results := by
  rw [setMemory]
  split <;> rfl

theorem memory_setMemory (h : mem.length = size) : (s.setMemory r mem).memory r = mem := by
  rw [setMemory, dif_pos h]
  exact Function.update_self _ _ _

theorem memory_setMemory_ne (h : r' ≠ r) : (s.setMemory r mem).memory r' = s.memory r' := by
  rw [setMemory]
  split
  · exact Function.update_of_ne h _ _
  · rfl

theorem setMemory_self (s : SendSession size) (r : Fin 2) : s.setMemory r (s.memory r) = s := by
  rw [setMemory, dif_pos (s.length_memory r)]
  simp only [Function.update_eq_self]

/-- The region an acquire yields is free. -/
theorem free_of_pick (h : s.pick = some r) : s.Free r := by
  rw [pick] at h
  split_ifs at h with h₁ h₂
  · cases h
    exact h₁
  · cases h
    exact h₂

/-- An acquire finds a region as long as one is free. -/
theorem pick_isSome_iff : s.pick.isSome ↔ ∃ r, s.Free r := by
  constructor
  · intro h
    obtain ⟨r, hr⟩ := Option.isSome_iff_exists.mp h
    exact ⟨r, free_of_pick hr⟩
  · rintro ⟨r, hr⟩
    have hcases : ∀ p q : Fin 2, q = p ∨ q = p + 1 := by decide
    rw [pick]
    split_ifs with h₁ h₂
    · rfl
    · rfl
    · rcases hcases s.prefer r with rfl | rfl
      · exact absurd hr h₁
      · exact absurd hr h₂

theorem run_nextResult_eq (s : SendSession size) :
    nextResult.run s = .ok (s.answer, s.answered) := rfl

@[simp]
theorem pick_answered (s : SendSession size) : s.answered.pick = s.pick := rfl

theorem run_nextResult (h : s.results = []) : nextResult.run s = .ok (.success, s) := by
  change Except.ok (s.results.headD .success, { s with results := s.results.tail }) = _
  rw [h]
  obtain ⟨⟩ := s
  cases h
  rfl

theorem run_acquireSendRegion (hresults : s.results = []) (h : s.pick = some r) :
    acquireSendRegion.run s =
      .ok ((.success, some { buffer := .into (.sendRegion r) 0 }), s.acquire r) := by
  rw [acquireSendRegion, Exec.run_bind_ok (run_nextResult hresults)]
  simp only
  rw [Exec.run_bind_ok (Exec.run_get s), h]
  rfl

theorem run_acquireSendRegion_blocked (hresults : s.results = []) (h : s.pick = none) :
    acquireSendRegion.run s = .error .blocked := by
  rw [acquireSendRegion, Exec.run_bind_ok (run_nextResult hresults)]
  simp only
  rw [Exec.run_bind_ok (Exec.run_get s), h]
  rfl

theorem run_queueBufferRegion (hresults : s.results = []) (hr : r ∈ s.acquired) (hn : n ≤ size) :
    (queueBufferRegion ⟨.into (.sendRegion r) 0, n⟩).run s =
      .ok (.success, s.enqueue r n) := by
  rw [queueBufferRegion, Exec.run_bind_ok (run_nextResult hresults)]
  simp only
  rw [Exec.run_bind_ok (Exec.run_get s), if_pos ⟨hr, hn⟩]
  rfl

/-- An acquire that returns has not succeeded, or it has taken a free region. -/
theorem of_run_acquireSendRegion {answer : EasyRdmaResult × Option BufferRegion}
    {t : SendSession size} (hrun : acquireSendRegion.run s = .ok (answer, t)) :
    answer.1 ≠ .success ∧ answer.2 = none ∧ t = s.answered ∨
      ∃ r, s.Free r ∧ t = s.answered.acquire r ∧
        answer = (.success, some { buffer := .into (.sendRegion r) 0 }) := by
  rw [acquireSendRegion, Exec.run_bind_ok s.run_nextResult_eq] at hrun
  cases hresult : s.answer with
  | success =>
    rw [hresult] at hrun
    simp only [Exec.run_bind_ok (Exec.run_get _)] at hrun
    cases hpick : s.answered.pick with
    | none =>
      simp only [hpick] at hrun
      cases hrun
    | some r =>
      simp only [hpick] at hrun
      cases hrun
      exact .inr ⟨r, free_of_pick hpick, rfl, rfl⟩
  | timeout | failure =>
    rw [hresult] at hrun
    cases hrun
    exact .inl ⟨by simp, rfl, rfl⟩

/-- It waits when there is none. -/
theorem of_run_acquireSendRegion_error {e : Stop}
    (hrun : acquireSendRegion.run s = .error e) : e = .blocked ∧ s.pick = none := by
  rw [acquireSendRegion, Exec.run_bind_ok s.run_nextResult_eq] at hrun
  cases hresult : s.answer with
  | success =>
    rw [hresult] at hrun
    simp only [Exec.run_bind_ok (Exec.run_get _), pick_answered] at hrun
    cases hpick : s.pick with
    | none =>
      simp only [hpick] at hrun
      cases hrun
      exact ⟨rfl, rfl⟩
    | some r =>
      simp only [hpick] at hrun
      cases hrun
  | timeout | failure =>
    rw [hresult] at hrun
    cases hrun

/-- A call that returns has not succeeded, or it has queued an acquired region. -/
theorem of_run_queueBufferRegion {region : BufferRegion} {result : EasyRdmaResult}
    {t : SendSession size} (hrun : (queueBufferRegion region).run s = .ok (result, t)) :
    result ≠ .success ∧ t = s.answered ∨
      result = .success ∧ ∃ r ∈ s.acquired, region.buffer = .into (.sendRegion r) 0 ∧
        region.usedSize ≤ size ∧ t = s.answered.enqueue r region.usedSize := by
  rw [queueBufferRegion, Exec.run_bind_ok s.run_nextResult_eq] at hrun
  split at hrun
  · split at hrun
    · next r hbuffer =>
      rw [Exec.run_bind_ok (Exec.run_get _)] at hrun
      split_ifs at hrun with hacquired <;> cases hrun
      · exact .inr ⟨rfl, r, hacquired.1, hbuffer, hacquired.2, rfl⟩
      · exact .inl ⟨by simp, rfl⟩
    · cases hrun
      exact .inl ⟨by simp, rfl⟩
  · next hne =>
    cases hrun
    exact .inl ⟨hne, rfl⟩

/-- A queue always returns. -/
theorem queueBufferRegion_total (region : BufferRegion) (s : SendSession size) :
    ∃ result t, (queueBufferRegion region).run s = .ok (result, t) := by
  rw [queueBufferRegion, Exec.run_bind_ok s.run_nextResult_eq]
  split
  · split
    · rw [Exec.run_bind_ok (Exec.run_get _)]
      split_ifs
      · exact ⟨_, _, rfl⟩
      · exact ⟨_, _, rfl⟩
    · exact ⟨_, _, rfl⟩
  · exact ⟨_, _, rfl⟩

end Lemmas

end SendSession

/-! ### The receiving end -/

/-- A session connected for receiving. A region is delivered, held by the program or free; the
delivered ones are in the order in which their messages arrived. -/
structure ReceiveSession (size : ℕ) where
  memory : Fin 2 → Bytes
  /-- The regions that have arrived, the oldest first, with the bytes that arrived. -/
  delivered : List Filled := []
  held : List Filled := []
  results : List EasyRdmaResult := []
  length_memory : ∀ r, (memory r).length = size
  distinct : ((held ++ delivered).map Filled.region).Nodup := by simp

namespace ReceiveSession

variable {size : ℕ}

/-- A session after `easyrdma_ConfigureBuffers`. -/
def configured (size : ℕ) : ReceiveSession size where
  memory _ := List.replicate size 0
  length_memory _ := List.length_replicate

def Free (s : ReceiveSession size) (r : Fin 2) : Prop :=
  r ∉ (s.held ++ s.delivered).map Filled.region

instance (s : ReceiveSession size) (r : Fin 2) : Decidable (s.Free r) := inferInstanceAs
  (Decidable (_ ∉ _))

/-- The oldest delivered region goes to the program. -/
def acquire (s : ReceiveSession size) : ReceiveSession size :=
  match h : s.delivered with
  | [] => s
  | e :: rest =>
    { s with
      delivered := rest
      held := s.held ++ [e]
      distinct := by
        rw [List.append_assoc, List.singleton_append, ← h]
        exact s.distinct }

/-- A held region is free again, and the network may deliver the next message there. Its bytes
stay until it does. -/
def release (r : Fin 2) (s : ReceiveSession size) : ReceiveSession size :=
  { s with
    held := s.held.filter fun e => e.region ≠ r
    distinct := s.distinct.sublist
      (((List.filter_sublist).append_right s.delivered).map Filled.region) }

/-- A message arrives in a free region. Behind it the region keeps what it held. -/
def arrive (r : Fin 2) (bytes : Bytes) (s : ReceiveSession size) : ReceiveSession size :=
  if h : s.Free r ∧ bytes.length ≤ size then
    { s with
      memory := Function.update s.memory r (overlay 0 bytes (s.memory r))
      delivered := s.delivered ++ [⟨r, bytes⟩]
      length_memory := fun r' => by
        by_cases hr : r' = r
        · rw [hr, Function.update_self, length_overlay (by rw [s.length_memory]; omega),
            s.length_memory]
        · rw [Function.update_of_ne hr, s.length_memory]
      distinct := by
        rw [← List.append_assoc, List.map_append, List.map_singleton]
        exact (List.perm_append_singleton _ _).nodup_iff.mpr
          (List.nodup_cons.mpr ⟨h.1, s.distinct⟩) }
  else s

/-- The session after the result of a call is known. -/
def answered (s : ReceiveSession size) : ReceiveSession size := { s with results := s.results.tail }

def nextResult : Exec (ReceiveSession size) EasyRdmaResult := fun s =>
  .ok (s.results.headD .success, { s with results := s.results.tail })

/-- `easyrdma_AcquireReceivedRegion`: the region of the oldest message that has arrived. With no
message it waits, unless the coming result is a failure or a timeout. -/
def acquireReceivedRegion : Exec (ReceiveSession size) (EasyRdmaResult × Option BufferRegion) := do
  match ← nextResult with
  | .success =>
    match (← get).delivered with
    | e :: _ =>
      modify acquire
      return (.success, some ⟨.into (.receiveRegion e.region) 0, e.bytes.length⟩)
    | [] => throw .blocked
  | result => return (result, none)

/-- `easyrdma_ReleaseReceivedBufferRegion`: only a held region can be released. What the region
holds stays, until the next message arrives in it. -/
def releaseReceivedBufferRegion (region : BufferRegion) :
    Exec (ReceiveSession size) EasyRdmaResult := do
  match ← nextResult with
  | .success =>
    match region.buffer with
    | .into (.receiveRegion r) 0 =>
      if r ∈ (← get).held.map Filled.region then
        modify (release r)
        return .success
      else
        return .failure
    | _ => return .failure
  | result => return result

section Lemmas

variable {s : ReceiveSession size} {r r' : Fin 2} {bytes : Bytes} {e : Filled} {rest : List Filled}

@[simp]
theorem memory_acquire : s.acquire.memory = s.memory := by
  rw [acquire]
  split <;> rfl

@[simp]
theorem results_acquire : s.acquire.results = s.results := by
  rw [acquire]
  split <;> rfl

theorem delivered_acquire (h : s.delivered = e :: rest) : s.acquire.delivered = rest := by
  rw [acquire]
  split
  · next hnil =>
    rw [hnil] at h
    cases h
  · next e' rest' hcons =>
    rw [hcons] at h
    cases h
    rfl

theorem held_acquire (h : s.delivered = e :: rest) : s.acquire.held = s.held ++ [e] := by
  rw [acquire]
  split
  · next hnil =>
    rw [hnil] at h
    cases h
  · next e' rest' hcons =>
    rw [hcons] at h
    cases h
    rfl

/-- An arrival fills a free region and is delivered last. -/
theorem arrive_eq (hfree : s.Free r) (hbytes : bytes.length ≤ size) :
    (s.arrive r bytes).memory = Function.update s.memory r (overlay 0 bytes (s.memory r)) ∧
      (s.arrive r bytes).delivered = s.delivered ++ [⟨r, bytes⟩] ∧
      (s.arrive r bytes).held = s.held ∧ (s.arrive r bytes).results = s.results := by
  rw [arrive, dif_pos ⟨hfree, hbytes⟩]
  exact ⟨rfl, rfl, rfl, rfl⟩

/-- The regions that had arrived keep their bytes. -/
theorem memory_arrive_of_mem (hfree : s.Free r) (hbytes : bytes.length ≤ size)
    (he : e ∈ s.held ++ s.delivered) : (s.arrive r bytes).memory e.region = s.memory e.region := by
  have hne : e.region ≠ r := by
    rintro rfl
    exact hfree (List.mem_map_of_mem he)
  rw [(arrive_eq hfree hbytes).1, Function.update_of_ne hne]

theorem intact_arrive (hfree : s.Free r) (hbytes : bytes.length ≤ size)
    (h : Intact s.memory (s.held ++ s.delivered)) :
    Intact (s.arrive r bytes).memory ((s.arrive r bytes).held ++ (s.arrive r bytes).delivered) := by
  obtain ⟨hmemory, hdelivered, hheld, -⟩ := arrive_eq hfree hbytes
  intro e he
  rw [hheld, hdelivered, ← List.append_assoc, List.mem_append, List.mem_singleton] at he
  rcases he with he | rfl
  · rw [memory_arrive_of_mem hfree hbytes he]
    exact h e he
  · rw [hmemory, Function.update_self, overlay, List.take_zero, List.nil_append, List.take_left]

theorem run_nextResult (h : s.results = []) : nextResult.run s = .ok (.success, s) := by
  change Except.ok (s.results.headD .success, { s with results := s.results.tail }) = _
  rw [h]
  obtain ⟨⟩ := s
  cases h
  rfl

theorem run_acquireReceivedRegion (hresults : s.results = []) (h : s.delivered = e :: rest) :
    acquireReceivedRegion.run s =
      .ok ((.success, some ⟨.into (.receiveRegion e.region) 0, e.bytes.length⟩), s.acquire) := by
  rw [acquireReceivedRegion, Exec.run_bind_ok (run_nextResult hresults)]
  simp only
  rw [Exec.run_bind_ok (Exec.run_get s)]
  simp only [h]
  rfl

theorem run_acquireReceivedRegion_blocked (hresults : s.results = []) (h : s.delivered = []) :
    acquireReceivedRegion.run s = .error .blocked := by
  rw [acquireReceivedRegion, Exec.run_bind_ok (run_nextResult hresults)]
  simp only
  rw [Exec.run_bind_ok (Exec.run_get s)]
  simp only [h]
  rfl

/-- A call that returns has not succeeded, or it has taken the oldest message. -/
theorem of_run_acquireReceivedRegion {answer : EasyRdmaResult × Option BufferRegion}
    {t : ReceiveSession size} (hrun : acquireReceivedRegion.run s = .ok (answer, t)) :
    answer.1 = s.results.headD .success ∧
      (answer.1 ≠ .success ∧ answer.2 = none ∧ t = s.answered ∨
        ∃ e rest, s.delivered = e :: rest ∧ t = s.answered.acquire ∧
          answer = (.success, some ⟨.into (.receiveRegion e.region) 0, e.bytes.length⟩)) := by
  have hnext : nextResult.run s = .ok (s.results.headD .success, s.answered) := rfl
  rw [acquireReceivedRegion, Exec.run_bind_ok hnext] at hrun
  cases hresult : s.results.headD .success with
  | success =>
    rw [hresult] at hrun
    simp only [Exec.run_bind_ok (Exec.run_get _)] at hrun
    cases hdelivered : s.answered.delivered with
    | nil =>
      simp only [hdelivered] at hrun
      cases hrun
    | cons e rest =>
      simp only [hdelivered] at hrun
      cases hrun
      exact ⟨rfl, .inr ⟨e, rest, hdelivered, rfl, rfl⟩⟩
  | timeout =>
    rw [hresult] at hrun
    cases hrun
    exact ⟨rfl, .inl ⟨by simp, rfl, rfl⟩⟩
  | failure =>
    rw [hresult] at hrun
    cases hrun
    exact ⟨rfl, .inl ⟨by simp, rfl, rfl⟩⟩

/-- It waits when no message has arrived. -/
theorem of_run_acquireReceivedRegion_error {failure : Stop}
    (hrun : acquireReceivedRegion.run s = .error failure) :
    failure = .blocked ∧ s.delivered = [] := by
  have hnext : nextResult.run s = .ok (s.results.headD .success, s.answered) := rfl
  rw [acquireReceivedRegion, Exec.run_bind_ok hnext] at hrun
  cases hresult : s.results.headD .success with
  | success =>
    rw [hresult] at hrun
    simp only [Exec.run_bind_ok (Exec.run_get _)] at hrun
    cases hdelivered : s.answered.delivered with
    | nil =>
      simp only [hdelivered] at hrun
      cases hrun
      exact ⟨rfl, hdelivered⟩
    | cons e rest =>
      simp only [hdelivered] at hrun
      cases hrun
  | timeout | failure =>
    rw [hresult] at hrun
    cases hrun

/-- An acquire returns, or waits for a message. -/
theorem acquireReceivedRegion_returns (s : ReceiveSession size) :
    acquireReceivedRegion.run s = .error .blocked ∨
      ∃ answer s', acquireReceivedRegion.run s = .ok (answer, s') := by
  have hnext : nextResult.run s = .ok (s.results.headD .success,
      { s with results := s.results.tail }) := rfl
  rw [acquireReceivedRegion, Exec.run_bind_ok hnext]
  split
  · rw [Exec.run_bind_ok (Exec.run_get _)]
    split
    · exact .inr ⟨_, _, rfl⟩
    · exact .inl rfl
  · exact .inr ⟨_, _, rfl⟩

theorem run_releaseReceivedBufferRegion (hresults : s.results = [])
    (hr : r ∈ s.held.map Filled.region) (n : ℕ) :
    (releaseReceivedBufferRegion ⟨.into (.receiveRegion r) 0, n⟩).run s =
      .ok (.success, s.release r) := by
  rw [releaseReceivedBufferRegion, Exec.run_bind_ok (run_nextResult hresults)]
  simp only
  rw [Exec.run_bind_ok (Exec.run_get s), if_pos hr]
  rfl

/-- A call that returns has not succeeded, or it has released a held region. -/
theorem of_run_releaseReceivedBufferRegion {region : BufferRegion} {result : EasyRdmaResult}
    {t : ReceiveSession size}
    (hrun : (releaseReceivedBufferRegion region).run s = .ok (result, t)) :
    result ≠ .success ∧ t = s.answered ∨
      result = .success ∧ ∃ r ∈ s.held.map Filled.region,
        region.buffer = .into (.receiveRegion r) 0 ∧ t = s.answered.release r := by
  have hnext : nextResult.run s = .ok (s.results.headD .success, s.answered) := rfl
  rw [releaseReceivedBufferRegion, Exec.run_bind_ok hnext] at hrun
  split at hrun
  · split at hrun
    · next r hbuffer =>
      rw [Exec.run_bind_ok (Exec.run_get _)] at hrun
      split_ifs at hrun with hheld <;> cases hrun
      · exact .inr ⟨rfl, r, hheld, hbuffer, rfl⟩
      · exact .inl ⟨by simp, rfl⟩
    · cases hrun
      exact .inl ⟨by simp, rfl⟩
  · next hne =>
    cases hrun
    exact .inl ⟨hne, rfl⟩

/-- A release always returns. -/
theorem releaseReceivedBufferRegion_total (region : BufferRegion) (s : ReceiveSession size) :
    ∃ result s', (releaseReceivedBufferRegion region).run s = .ok (result, s') := by
  have hnext : nextResult.run s = .ok (s.results.headD .success,
      { s with results := s.results.tail }) := rfl
  rw [releaseReceivedBufferRegion, Exec.run_bind_ok hnext]
  split
  · split
    · rw [Exec.run_bind_ok (Exec.run_get _)]
      split_ifs
      · exact ⟨_, _, rfl⟩
      · exact ⟨_, _, rfl⟩
    · exact ⟨_, _, rfl⟩
  · exact ⟨_, _, rfl⟩

end Lemmas

end ReceiveSession

/-! ### The network -/

/-- The message at the front of the queue arrives in region `r` of the other end, as the sending
region holds it now, which is then free. No message is lost, and none overtakes another. -/
def deliver {size : ℕ} (r : Fin 2) (send : SendSession size) (receive : ReceiveSession size) :
    Option (SendSession size × ReceiveSession size) :=
  match h : send.queue with
  | [] => none
  | e :: rest =>
    if receive.Free r then
      some ({ send with
          queue := rest
          distinct := send.distinct.sublist (by
            rw [h, List.map_cons]
            exact (List.sublist_cons_self _ _).append_left _) },
        receive.arrive r ((send.memory e.region).take e.bytes.length))
    else none

section Deliver

variable {size : ℕ} {send : SendSession size} {receive : ReceiveSession size} {r : Fin 2}

/-- What a delivery does to the two sessions. -/
theorem deliver_eq {e : Filled} {rest : List Filled} (hqueue : send.queue = e :: rest)
    (hfree : receive.Free r) :
    ∃ send', deliver r send receive =
        some (send', receive.arrive r ((send.memory e.region).take e.bytes.length)) ∧
      send'.queue = rest ∧ send'.memory = send.memory ∧ send'.acquired = send.acquired ∧
      send'.results = send.results := by
  rw [deliver]
  split
  · next hnil =>
    rw [hnil] at hqueue
    cases hqueue
  · next e' rest' hcons =>
    rw [hcons] at hqueue
    cases hqueue
    exact ⟨_, if_pos hfree, rfl, rfl, rfl, rfl⟩

/-- The network can deliver whenever something is in flight and the region is free. -/
theorem deliver_isSome_iff :
    (deliver r send receive).isSome ↔ send.queue ≠ [] ∧ receive.Free r := by
  rw [deliver]
  split
  · next hnil => simp [hnil]
  · next e rest hcons =>
    by_cases hfree : receive.Free r
    · simp [hcons, hfree]
    · simp [hfree]

end Deliver

end Sideband
