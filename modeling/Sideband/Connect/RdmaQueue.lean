import Mathlib.Data.List.Count
import Sideband.Connect.Registry
import Sideband.Foundation.Machine

/-!
# The connect queue of the RDMA transport

A client opens two sessions, one at each listener. The two accept threads leave theirs in static
variables, and whichever of them finds that everything the queue call waits for is there
constructs the handle, registers it and notifies. Nothing but the next queue call clears the
static variables.

What is recorded beside the state is looked at by no step: which session is whose (`session`),
the handles that were registered and the ones for which `notify` was called, and the queue call
that has led to no registration yet (`current`).
-/

namespace Sideband

open Foundation

/-! ### Threads and sessions -/

/-- `easyrdma_Direction`, as the listeners use it: a send session is one to write to. -/
inductive Direction
  | receive
  | send
  deriving DecidableEq, Repr

/-- The other listener. -/
def Direction.other : Direction → Direction
  | .receive => .send
  | .send => .receive

theorem Direction.eq_or_eq_other (d e : Direction) : e = d ∨ e = d.other := by
  cases d <;> cases e <;> simp [other]

theorem Direction.other_ne (d : Direction) : d.other ≠ d := by
  cases d <;> decide

/-- A stream as `QueueSidebandConnection` is called for it. `waitFor` of the receive direction
is `waitForReader`, of the send direction `waitForWriter`. -/
structure RdmaStream where
  strategy : SidebandStrategy
  id : Bytes
  waitFor : Direction → Bool
  bufferSize : ℕ

def RdmaStream.lowLatency (stream : RdmaStream) : Bool := stream.strategy = .rdmaLowLatency

/-- A handle as `RegisterSidebandData` gets it. Its sessions are numbers, which the messages on
them are no part of. -/
structure RdmaHandle where
  id : Bytes
  connectedWriteSession : Option ℕ
  connectedReadSession : Option ℕ
  lowLatency : Bool
  bufferSize : ℕ
  deriving DecidableEq, Repr

/-- The session of a direction. -/
def RdmaHandle.connected (o : RdmaHandle) : Direction → Option ℕ
  | .receive => o.connectedReadSession
  | .send => o.connectedWriteSession

/-- How far a server thread is in `QueueSidebandConnection`: after the wait there are seven
assignments, each of them a step. -/
inductive RdmaQueueCall
  | idle
  | waited
  | writeCleared
  | readCleared
  | lowLatencySet
  | bufferSizeSet
  | waitForReaderSet
  | waitForWriterSet
  | returned
  deriving DecidableEq, Repr

/-- How far an accept thread is in `InitFromConnection` with a session. There are two such
threads, one for each direction. -/
inductive RdmaAcceptThread
  | idle
  | accepted (session : ℕ)
  | stored (session : ℕ)
  | registered (session : ℕ) (o : RdmaHandle)
  deriving DecidableEq, Repr

/-- The session an accept thread is at work with. -/
def RdmaAcceptThread.session : RdmaAcceptThread → Option ℕ
  | .idle => none
  | .accepted n => some n
  | .stored n => some n
  | .registered n _ => some n

/-- The RDMA transport's static variables, its threads and the sessions. The variables are shared
by all threads and guarded by nothing; each access of one is a step. -/
structure RdmaQueue (ι : Type) where
  rdmaConnectQueue : Semaphore := {}
  /-- `_pendingReadSession` and `_pendingWriteSession`. -/
  pendingSession : Direction → Option ℕ := fun _ => none
  nextConnectLowLatency : Bool := false
  nextConnectBufferSize : ℕ := 0
  /-- `_waitForReaderConnection` and `_waitForWriteConnection`. -/
  waitForConnection : Direction → Bool := fun _ => false
  nextConnectionId : Bytes := []
  thread : ι → RdmaQueueCall := fun _ => .idle
  accepting : Direction → RdmaAcceptThread := fun _ => .idle
  /-- Sessions that a listener has not accepted. -/
  backlog : Direction → List ℕ := fun _ => []
  /-- The sessions with `easyrdma_Property_UseRxPolling` set. -/
  useRxPolling : List ℕ := []
  nextSession : ℕ := 0
  /-- The sessions a stream's client has opened. -/
  session : ι → Direction → Option ℕ := fun _ _ => none
  /-- The call that has passed the wait and led to no registration. -/
  current : Option ι := none
  /-- What `RegisterSidebandData` was called with, the last one first. -/
  registered : List RdmaHandle := []
  /-- The handles for which `notify` was called, the last one first. -/
  notified : List RdmaHandle := []

/-- An access of the static variables by a server thread or an accept thread, a call of the
semaphore, or a session that a client opens. -/
inductive RdmaQueueStep (ι : Type)
  | wait (i : ι)
  /-- The next assignment of the call. -/
  | assign (i : ι)
  /-- The client opens a session, after the call has returned. -/
  | connect (i : ι) (d : Direction)
  /-- The listener's thread takes one of its sessions. -/
  | accept (d : Direction) (k : ℕ)
  | store (d : Direction)
  /-- The test and, if it passes, everything up to `RegisterSidebandData`. -/
  | test (d : Direction)
  | notify (d : Direction)

namespace RdmaQueue

variable {ι : Type}

/-- The sessions a direction's listener and thread have in hand: the one that is at work with,
and those that wait to be accepted. -/
def inHand (s : RdmaQueue ι) (d : Direction) : List ℕ :=
  (s.accepting d).session.toList ++ s.backlog d

/-- The accept threads are done with both sessions of the stream's client. -/
def Processed (s : RdmaQueue ι) (i : ι) : Prop :=
  ∀ d, ∃ n, s.session i d = some n ∧ n ∉ s.inHand d

variable (streams : ι → RdmaStream)

/-- The handle with a stream's parameters and the sessions of its client, which is the one that
should be registered for it. -/
def handle (s : RdmaQueue ι) (i : ι) : RdmaHandle where
  id := (streams i).id
  connectedWriteSession := s.session i .send
  connectedReadSession := s.session i .receive
  lowLatency := (streams i).lowLatency
  bufferSize := (streams i).bufferSize

/-- The test of `InitFromConnection`: for each direction a session is there or is not waited for. -/
def complete (s : RdmaQueue ι) : Bool :=
  ((s.pendingSession .send).isSome || !s.waitForConnection .send) &&
    ((s.pendingSession .receive).isSome || !s.waitForConnection .receive)

variable (s : RdmaQueue ι)

section Threads

variable [DecidableEq ι]

def advance (i : ι) (call : RdmaQueueCall) : RdmaQueue ι :=
  { s with thread := Function.update s.thread i call }

/-- `_rdmaConnectQueue.wait()`. -/
def wait (i : ι) : Option (RdmaQueue ι) :=
  if s.thread i = .idle then
    s.rdmaConnectQueue.wait.map fun rdmaConnectQueue =>
      ({ s with rdmaConnectQueue, current := some i }).advance i .waited
  else none

/-- The assignments of `QueueSidebandConnection`, one at a time, in the order of the source. The
accept threads may take steps in between. -/
def assign (i : ι) : Option (RdmaQueue ι) :=
  match s.thread i with
  | .waited => some (({ s with
      pendingSession := Function.update s.pendingSession .send none }).advance i .writeCleared)
  | .writeCleared => some (({ s with
      pendingSession := Function.update s.pendingSession .receive none }).advance i .readCleared)
  | .readCleared => some (({ s with
      nextConnectLowLatency := (streams i).lowLatency }).advance i .lowLatencySet)
  | .lowLatencySet => some (({ s with
      nextConnectBufferSize := (streams i).bufferSize }).advance i .bufferSizeSet)
  | .bufferSizeSet => some (({ s with
      waitForConnection := Function.update s.waitForConnection .receive
        ((streams i).waitFor .receive) }).advance i .waitForReaderSet)
  | .waitForReaderSet => some (({ s with
      waitForConnection := Function.update s.waitForConnection .send
        ((streams i).waitFor .send) }).advance i .waitForWriterSet)
  | .waitForWriterSet => some (({ s with
      nextConnectionId := (streams i).id }).advance i .returned)
  | .idle => none
  | .returned => none

/-- `easyrdma_Connect` of the client, once in each direction, after the queue call for its stream
has returned. -/
def connect (i : ι) (d : Direction) : Option (RdmaQueue ι) :=
  if s.thread i = .returned ∧ s.session i d = none then
    some { s with
      backlog := Function.update s.backlog d (s.backlog d ++ [s.nextSession])
      nextSession := s.nextSession + 1
      session := Function.update s.session i (Function.update (s.session i) d s.nextSession) }
  else none

end Threads

/-- `easyrdma_Accept`, of any of the sessions that wait at the listener. -/
def accept (d : Direction) (k : ℕ) : Option (RdmaQueue ι) :=
  match s.accepting d, (s.backlog d)[k]? with
  | .idle, some n => some { s with
      accepting := Function.update s.accepting d (.accepted n)
      backlog := Function.update s.backlog d ((s.backlog d).eraseIdx k) }
  | _, _ => none

/-- `_pendingWriteSession = connectedSession` or `_pendingReadSession = connectedSession`. -/
def store (d : Direction) : Option (RdmaQueue ι) :=
  match s.accepting d with
  | .accepted n => some { s with
      accepting := Function.update s.accepting d (.stored n)
      pendingSession := Function.update s.pendingSession d (some n) }
  | _ => none

/-- The handle that is constructed when the test passes, from whatever the statics hold then. -/
def pendingHandle : RdmaHandle where
  id := s.nextConnectionId
  connectedWriteSession := s.pendingSession .send
  connectedReadSession := s.pendingSession .receive
  lowLatency := s.nextConnectLowLatency
  bufferSize := s.nextConnectBufferSize

/-- The rest of `InitFromConnection`, up to the notification: the test, and if it passes the
handle that is made of the static variables as they are then. -/
def test (d : Direction) : Option (RdmaQueue ι) :=
  match s.accepting d with
  | .stored n => some (
      if s.complete then { s with
        useRxPolling := if s.nextConnectLowLatency then
          (s.pendingSession .receive).toList ++ s.useRxPolling else s.useRxPolling
        accepting := Function.update s.accepting d (.registered n s.pendingHandle)
        current := none
        registered := s.pendingHandle :: s.registered }
      else { s with accepting := Function.update s.accepting d .idle })
  | _ => none

/-- `_rdmaConnectQueue.notify()`, and the return. -/
def notify (d : Direction) : Option (RdmaQueue ι) :=
  match s.accepting d with
  | .registered _ o => some { s with
      accepting := Function.update s.accepting d .idle
      rdmaConnectQueue := s.rdmaConnectQueue.notify
      notified := o :: s.notified }
  | _ => none

/-! ### What a step can do -/

section Steps

variable {streams s} {s' : RdmaQueue ι} {i j : ι} {d : Direction} {k : ℕ}

section Threads

variable [DecidableEq ι]

@[simp]
theorem thread_advance_self (call : RdmaQueueCall) (s : RdmaQueue ι) :
    (s.advance i call).thread i = call := Function.update_self _ _ _

theorem thread_advance_ne (call : RdmaQueueCall) (s : RdmaQueue ι) (h : j ≠ i) :
    (s.advance i call).thread j = s.thread j := Function.update_of_ne h _ _

theorem wait_eq_some (h : s.wait i = some s') : s.thread i = .idle ∧
    0 < s.rdmaConnectQueue.count ∧ ∃ q : Semaphore, q.count = s.rdmaConnectQueue.count - 1 ∧
      s' = ({ s with rdmaConnectQueue := q, current := some i }).advance i .waited := by
  rw [wait] at h
  split_ifs at h with hidle
  obtain ⟨q, hq, rfl⟩ := Option.map_eq_some_iff.mp h
  obtain ⟨hpos, hcount⟩ := Semaphore.wait_eq_some hq
  exact ⟨hidle, hpos, q, hcount, rfl⟩

theorem connect_eq_some (h : s.connect i d = some s') :
    s.thread i = .returned ∧ s.session i d = none ∧
      s' = { s with
        backlog := Function.update s.backlog d (s.backlog d ++ [s.nextSession])
        nextSession := s.nextSession + 1
        session := Function.update s.session i
          (Function.update (s.session i) d s.nextSession) } := by
  rw [connect] at h
  split_ifs at h with hopen
  cases h
  exact ⟨hopen.1, hopen.2, rfl⟩

end Threads

theorem accept_eq_some (h : s.accept d k = some s') : s.accepting d = .idle ∧
    ∃ n, (s.backlog d)[k]? = some n ∧
      s' = { s with
        accepting := Function.update s.accepting d (.accepted n)
        backlog := Function.update s.backlog d ((s.backlog d).eraseIdx k) } := by
  rw [accept] at h
  split at h
  · next n hidle hn =>
    cases h
    exact ⟨hidle, n, hn, rfl⟩
  · cases h

theorem store_eq_some (h : s.store d = some s') : ∃ n, s.accepting d = .accepted n ∧
    s' = { s with
      accepting := Function.update s.accepting d (.stored n)
      pendingSession := Function.update s.pendingSession d (some n) } := by
  rw [store] at h
  split at h
  · next n hn =>
    cases h
    exact ⟨n, hn, rfl⟩
  · cases h

/-- Either the test fails and the thread is done with its session, or the handle is registered. -/
theorem test_eq_some (h : s.test d = some s') : ∃ n, s.accepting d = .stored n ∧
    ((s.complete = false ∧ s' = { s with accepting := Function.update s.accepting d .idle }) ∨
      (s.complete = true ∧ ∃ useRxPolling, s' = { s with
        useRxPolling
        accepting := Function.update s.accepting d (.registered n s.pendingHandle)
        current := none
        registered := s.pendingHandle :: s.registered })) := by
  rw [test] at h
  split at h
  · next n hn =>
    refine ⟨n, hn, ?_⟩
    by_cases hcomplete : s.complete = true
    · rw [if_pos hcomplete] at h
      cases h
      exact .inr ⟨hcomplete, _, rfl⟩
    · rw [if_neg hcomplete] at h
      cases h
      exact .inl ⟨Bool.eq_false_iff.mpr hcomplete, rfl⟩
  · cases h

theorem notify_eq_some (h : s.notify d = some s') : ∃ n o, s.accepting d = .registered n o ∧
    s' = { s with
      accepting := Function.update s.accepting d .idle
      rdmaConnectQueue := s.rdmaConnectQueue.notify
      notified := o :: s.notified } := by
  rw [notify] at h
  split at h
  · next n o hn =>
    cases h
    exact ⟨n, o, hn, rfl⟩
  · cases h

/-- The test passes when each session is there or not waited for. -/
theorem complete_iff : s.complete = true ↔
    ∀ d, (s.pendingSession d).isSome ∨ s.waitForConnection d = false := by
  constructor
  · intro h d
    obtain ⟨hsend, hreceive⟩ := Bool.and_eq_true_iff.mp h
    cases d with
    | send => simpa using Bool.or_eq_true_iff.mp hsend
    | receive => simpa using Bool.or_eq_true_iff.mp hreceive
  · intro h
    refine Bool.and_eq_true_iff.mpr ⟨?_, ?_⟩
    · simpa using h .send
    · simpa using h .receive

/-- The test passes when both sessions are there, whatever the call waits for. -/
theorem complete_of_pending (h : ∀ d, (s.pendingSession d).isSome) : s.complete = true :=
  complete_iff.mpr fun d => .inl (h d)

/-- A thread that has stored registers when everything that the call waits for is there. -/
theorem test_of_stored {n : ℕ} (hn : s.accepting d = .stored n) (hcomplete : s.complete = true) :
    ∃ s', s.test d = some s' ∧ s'.current = none ∧ s'.pendingSession = s.pendingSession ∧
      ∀ e, e ≠ d → s'.accepting e = s.accepting e := by
  rw [test, hn]
  dsimp only
  rw [if_pos hcomplete]
  exact ⟨_, rfl, rfl, rfl, fun e he => Function.update_of_ne he _ _⟩

end Steps

end RdmaQueue

/-- The RDMA connect queue, with its threads' steps in any order. There are any number of
streams, one accept thread for each direction, and each client opens its two sessions after its
call has returned. Sessions that nobody has queued for are left out, and so are calls of easyrdma
that fail. -/
def rdmaQueue {ι : Type} [DecidableEq ι] (streams : ι → RdmaStream) :
    Machine (RdmaQueue ι) (RdmaQueueStep ι) where
  init s := s = {}
  next s
    | .wait i => s.wait i
    | .assign i => s.assign streams i
    | .connect i d => s.connect i d
    | .accept d k => s.accept d k
    | .store d => s.store d
    | .test d => s.test d
    | .notify d => s.notify d

end Sideband
