import Sideband.Connect.Registry
import Sideband.Foundation.Machine
import Sideband.Sockets.Loops

/-!
# The connect queue of the socket transport

A stream's server thread runs `QueueSidebandConnection`: it waits on the semaphore and leaves
what the next connection is to be initialised with in static variables, one after the other.
The accept thread runs `InitFromConnection` for one accepted connection at a time, with whatever
the statics hold. `socketQueue` is the machine of all of these threads and of the connections
that come in: there may be any number of streams, and anybody may connect.

Which stream a connection is for is told by the id it sends. What is recorded beside the state
(`clientSocket`, `completed`, `received`, `tokens`) is looked at by no step.
-/

namespace Sideband

open Foundation

/-- A stream as `QueueSidebandConnection` is called for it. The wait flags that the call also has
are of use to RDMA only. -/
structure Stream where
  strategy : SidebandStrategy
  id : Bytes
  bufferSize : ℕ

def Stream.lowLatency (stream : Stream) : Bool := stream.strategy = .socketsLowLatency

/-! ### Threads -/

/-- How far a server thread is in `QueueSidebandConnection`: after the wait there are three
assignments, each of them a step. -/
inductive QueueCall
  | idle
  | waited
  | lowLatencySet
  | bufferSizeSet
  | returned
  deriving DecidableEq, Repr

/-- A connection on its way to the accept thread, with what its client sends as long as anybody
reads from it. -/
structure Incoming where
  socket : ℤ
  connection : Connection

/-- How far the accept thread is in `InitFromConnection`, evaluation by evaluation: some of them
read a variable that a server thread may be writing. -/
inductive AcceptThread
  | idle
  | entered (c : Incoming)
  | noDelaySet (c : Incoming)
  /-- The first argument of the constructor is evaluated. -/
  | sized (c : Incoming) (bufferSize : ℕ)
  | constructed (o : SidebandData SocketSidebandData)
  | identified (o : SidebandData SocketSidebandData)
  | registered (o : SidebandData SocketSidebandData)

/-- The socket transport's static variables, its threads and the connections. The variables are
shared by all threads and guarded by nothing but the semaphore; each access of one is a step. -/
structure SocketQueue (ι : Type) where
  connectQueue : Semaphore := {}
  nextConnectLowLatency : Bool := false
  nextConnectBufferSize : ℕ := 0
  nextConnectionId : Bytes := []
  thread : ι → QueueCall := fun _ => .idle
  accepting : AcceptThread := .idle
  backlog : List Incoming := []
  /-- The sockets with `TCP_NODELAY` set. -/
  noDelay : List ℤ := []
  buffers : Buffers (SidebandData SocketSidebandData) := ∅
  nextSocket : ℕ := 0
  /-- The socket of a stream's client at the server. -/
  clientSocket : ι → Option ℤ := fun _ => none
  /-- The streams whose `InitFromConnection` has notified. -/
  completed : ι → Bool := fun _ => false
  /-- The ids that were read completely. -/
  received : List Bytes := []
  /-- What `GetOwnerSidebandDataToken` returned. -/
  tokens : List (Bytes × SidebandData SocketSidebandData) := []

/-- An access of the static variables by a server thread or the accept thread, a call of the
semaphore or the registry, or a connection that comes in. -/
inductive SocketQueueStep (ι : Type)
  | wait (i : ι)
  | setLowLatency (i : ι)
  | setBufferSize (i : ι)
  | setConnectionId (i : ι)
  /-- A connection comes in and sends some bytes; the stream is that of a client. -/
  | connect (client : Option ι) (sent : Bytes)
  /-- The accept thread takes one of the connections. -/
  | accept (k : ℕ)
  | setNoDelay
  | readBufferSize
  | construct
  /-- `ReadConnectionId` meets these `recv` outcomes. -/
  | readConnectionId (recvs : List RecvEvent)
  | register
  | notify
  | getToken (usageId : Bytes)

namespace SocketSidebandData

/-- Whether `ReadFromSocket` reports success in `ReadConnectionId`. The source drops this result;
it is used in statements only. -/
def connectionIdRead (h : SocketSidebandData) : Bool :=
  match (readFromSocket (some (List.replicate connectIdLength 0)) connectIdLength).run h with
  | .ok ((result, _), _) => result
  | .error _ => false

/-- On a kernel that does not fail, a `ReadConnectionId` that returns has read the id. -/
theorem readConnectionId_eq_of_ok {h h' : SocketSidebandData}
    (hsteady : ∀ e ∈ h.connection.recvs, e.fails = false)
    (hrun : readConnectionId.run h = .ok (⟨⟩, h')) :
    connectIdLength ≤ h.connection.incoming.length ∧
      h'.id = h.connection.incoming.take connectIdLength ∧ h'.socket = h.socket ∧
      h'.lowLatency = h.lowLatency ∧ h.connectionIdRead = true := by
  rw [readConnectionId, Exec.run_bind_eq_ok_iff] at hrun
  obtain ⟨r, h₁, hread, hset⟩ := hrun
  have hlt : connectIdLength < 2 ^ 31 := by
    rw [connectIdLength_eq]
    decide
  obtain ⟨hle, rfl, -, -⟩ := readFromSocket_eq_of_ok hsteady hlt
    (List.length_replicate (n := connectIdLength)).ge hread
  have hframe := readFromSocket_frame hread
  cases hset
  refine ⟨hle, ?_, ?_, ?_, ?_⟩
  · rw [Option.getD_some]
    refine overlay_full ?_
    rw [List.length_take, List.length_replicate]
    omega
  · rw [hframe]
  · rw [hframe]
  · rw [connectionIdRead, hread]

end SocketSidebandData

/-! ### The machine -/

namespace SocketQueue

variable {ι : Type}

/-- The stream has passed the wait, and its `InitFromConnection` has not notified. -/
def Pending (s : SocketQueue ι) (i : ι) : Prop := s.thread i ≠ .idle ∧ s.completed i = false

section Threads

variable [DecidableEq ι]

/-- The server thread moves on in `QueueSidebandConnection`. -/
def advance (i : ι) (call : QueueCall) (s : SocketQueue ι) : SocketQueue ι :=
  { s with thread := Function.update s.thread i call }

variable (streams : ι → Stream) (s : SocketQueue ι)

/-- `_connectQueue.wait()`. -/
def wait (i : ι) : Option (SocketQueue ι) :=
  if s.thread i = .idle then
    s.connectQueue.wait.map fun connectQueue => ({ s with connectQueue }).advance i .waited
  else none

/-- `_nextConnectLowLatency = strategy == ::SidebandStrategy::SOCKETS_LOW_LATENCY`. -/
def setLowLatency (i : ι) : Option (SocketQueue ι) :=
  if s.thread i = .waited then
    some (({ s with nextConnectLowLatency := (streams i).lowLatency }).advance i .lowLatencySet)
  else none

/-- `_nextConnectBufferSize = bufferSize`. -/
def setBufferSize (i : ι) : Option (SocketQueue ι) :=
  if s.thread i = .lowLatencySet then
    some (({ s with nextConnectBufferSize := (streams i).bufferSize }).advance i .bufferSizeSet)
  else none

/-- `_nextConnectionId = id`, and the return. Nothing reads the variable. -/
def setConnectionId (i : ι) : Option (SocketQueue ι) :=
  if s.thread i = .bufferSizeSet then
    some (({ s with nextConnectionId := (streams i).id }).advance i .returned)
  else none

/-- The kernel queues a connection, of a stream's client or of anybody, with all that it will
send. -/
def connect (client : Option ι) (sent : Bytes) : SocketQueue ι :=
  { s with
    backlog := s.backlog ++ [⟨s.nextSocket, { incoming := sent }⟩]
    nextSocket := s.nextSocket + 1
    clientSocket := fun i => if client = some i then some s.nextSocket else s.clientSocket i }

end Threads

variable (streams : ι → Stream) (s : SocketQueue ι)

/-- `accept`, of any of the connections that wait. The order in which the kernel hands them out
is open. -/
def accept (k : ℕ) : Option (SocketQueue ι) :=
  match s.accepting, s.backlog[k]? with
  | .idle, some c => some { s with accepting := .entered c, backlog := s.backlog.eraseIdx k }
  | _, _ => none

/-- `setsockopt(socket, IPPROTO_TCP, TCP_NODELAY, …)`. -/
def setNoDelay : Option (SocketQueue ι) :=
  match s.accepting with
  | .entered c => some { s with
      accepting := .noDelaySet c
      noDelay := if s.nextConnectLowLatency then c.socket :: s.noDelay else s.noDelay }
  | _ => none

/-- The arguments of `new SocketSidebandData` are evaluated: the size here, and the latency flag
when the object is constructed. -/
def readBufferSize : Option (SocketQueue ι) :=
  match s.accepting with
  | .noDelaySet c => some { s with accepting := .sized c s.nextConnectBufferSize }
  | _ => none

def construct : Option (SocketQueue ι) :=
  match s.accepting with
  | .sized c bufferSize => some { s with
      accepting := .constructed (.new bufferSize
        { socket := c.socket, lowLatency := s.nextConnectLowLatency, connection := c.connection }) }
  | _ => none

/-- `sidebandData->ReadConnectionId()`. -/
def readConnectionId (recvs : List RecvEvent) : Option (SocketQueue ι) :=
  match s.accepting with
  | .constructed o =>
    let before := { o.derived with connection.recvs := recvs }
    match SocketSidebandData.readConnectionId.run before with
    | .ok (_, derived) => some { s with
        accepting := .identified { o with derived }
        received := if before.connectionIdRead then derived.id :: s.received else s.received }
    | .error _ => none
  | _ => none

/-- `RegisterSidebandData(sidebandData)`: the handle goes in the map under the id that was read,
if there is none yet. -/
def register : Option (SocketQueue ι) :=
  match s.accepting with
  | .identified o => some { s with
      accepting := .registered o
      buffers := s.buffers.emplace o.derived.id o }
  | _ => none

/-- `_connectQueue.notify()`, and the return. -/
def notify : Option (SocketQueue ι) :=
  match s.accepting with
  | .registered o => some { s with
      accepting := .idle
      connectQueue := s.connectQueue.notify
      completed := fun i => s.completed i ||
        (decide (s.thread i ≠ .idle) && decide ((streams i).id = o.derived.id)) }
  | _ => none

/-- `GetOwnerSidebandDataToken` returns. -/
def getToken (usageId : Bytes) : Option (SocketQueue ι) :=
  (s.buffers.lookup usageId).map fun o => { s with tokens := s.tokens ++ [(usageId, o)] }

/-! ### What a step can do -/

section Steps

variable {streams s} {s' : SocketQueue ι} {i j : ι} {k : ℕ} {recvs : List RecvEvent}

section Threads

variable [DecidableEq ι]

@[simp]
theorem thread_advance_self (call : QueueCall) (s : SocketQueue ι) :
    (s.advance i call).thread i = call := Function.update_self _ _ _

theorem thread_advance_ne (call : QueueCall) (s : SocketQueue ι) (h : j ≠ i) :
    (s.advance i call).thread j = s.thread j := Function.update_of_ne h _ _

/-- Which streams have passed the wait stays while a thread moves on behind it. -/
theorem thread_advance_ne_idle {call : QueueCall} (hbefore : s.thread i ≠ .idle)
    (hafter : call ≠ .idle) : (s.advance i call).thread j ≠ .idle ↔ s.thread j ≠ .idle := by
  by_cases hj : j = i
  · subst hj
    rw [thread_advance_self]
    exact iff_of_true hafter hbefore
  · rw [thread_advance_ne _ _ hj]

theorem wait_eq_some (h : s.wait i = some s') : s.thread i = .idle ∧ 0 < s.connectQueue.count ∧
    ∃ q : Semaphore, q.count = s.connectQueue.count - 1 ∧
      s' = ({ s with connectQueue := q }).advance i .waited := by
  rw [wait] at h
  split_ifs at h with hidle
  obtain ⟨q, hq, rfl⟩ := Option.map_eq_some_iff.mp h
  obtain ⟨hpos, hcount⟩ := Semaphore.wait_eq_some hq
  exact ⟨hidle, hpos, q, hcount, rfl⟩

theorem setLowLatency_eq_some (h : s.setLowLatency streams i = some s') : s.thread i = .waited ∧
    s' = ({ s with nextConnectLowLatency := (streams i).lowLatency }).advance i .lowLatencySet := by
  rw [setLowLatency] at h
  split_ifs at h with hthread
  cases h
  exact ⟨hthread, rfl⟩

theorem setBufferSize_eq_some (h : s.setBufferSize streams i = some s') :
    s.thread i = .lowLatencySet ∧
      s' = ({ s with nextConnectBufferSize := (streams i).bufferSize }).advance i
        .bufferSizeSet := by
  rw [setBufferSize] at h
  split_ifs at h with hthread
  cases h
  exact ⟨hthread, rfl⟩

theorem setConnectionId_eq_some (h : s.setConnectionId streams i = some s') :
    s.thread i = .bufferSizeSet ∧
      s' = ({ s with nextConnectionId := (streams i).id }).advance i .returned := by
  rw [setConnectionId] at h
  split_ifs at h with hthread
  cases h
  exact ⟨hthread, rfl⟩

end Threads

theorem accept_eq_some (h : s.accept k = some s') : s.accepting = .idle ∧
    ∃ c, s.backlog[k]? = some c ∧
      s' = { s with accepting := .entered c, backlog := s.backlog.eraseIdx k } := by
  rw [accept] at h
  split at h
  · next c hidle hc =>
    cases h
    exact ⟨hidle, c, hc, rfl⟩
  · cases h

theorem setNoDelay_eq_some (h : s.setNoDelay = some s') : ∃ c noDelay,
    s.accepting = .entered c ∧ s' = { s with accepting := .noDelaySet c, noDelay } := by
  rw [setNoDelay] at h
  split at h
  · next c hc =>
    cases h
    exact ⟨c, _, hc, rfl⟩
  · cases h

theorem readBufferSize_eq_some (h : s.readBufferSize = some s') : ∃ c,
    s.accepting = .noDelaySet c ∧
      s' = { s with accepting := .sized c s.nextConnectBufferSize } := by
  rw [readBufferSize] at h
  split at h
  · next c hc =>
    cases h
    exact ⟨c, hc, rfl⟩
  · cases h

theorem construct_eq_some (h : s.construct = some s') : ∃ c bufferSize,
    s.accepting = .sized c bufferSize ∧
      s' = { s with
        accepting := .constructed (.new bufferSize
          { socket := c.socket, lowLatency := s.nextConnectLowLatency,
            connection := c.connection }) } := by
  rw [construct] at h
  split at h
  · next c bufferSize hc =>
    cases h
    exact ⟨c, bufferSize, hc, rfl⟩
  · cases h

/-- On a kernel that does not fail, the id is what the connection sent first. -/
theorem readConnectionId_eq_some (h : s.readConnectionId recvs = some s')
    {o : SidebandData SocketSidebandData} (ho : s.accepting = .constructed o)
    (hsteady : ∀ e ∈ recvs, e.fails = false) : ∃ derived : SocketSidebandData,
    derived.id = o.derived.connection.incoming.take connectIdLength ∧
      derived.socket = o.derived.socket ∧ derived.lowLatency = o.derived.lowLatency ∧
      s' = { s with
        accepting := .identified { o with derived }
        received := derived.id :: s.received } := by
  simp only [readConnectionId, ho] at h
  split at h
  · next derived hrun =>
    obtain ⟨-, hid, hsocket, hlow, hread⟩ :=
      SocketSidebandData.readConnectionId_eq_of_ok (by exact hsteady) hrun
    rw [hread, if_pos rfl] at h
    cases h
    exact ⟨derived, hid, hsocket, hlow, rfl⟩
  · cases h

/-- Only a constructed handle reads an id. -/
theorem constructed_of_readConnectionId (h : s.readConnectionId recvs = some s') :
    ∃ o, s.accepting = .constructed o := by
  rw [readConnectionId] at h
  split at h
  · next o ho => exact ⟨o, ho⟩
  · cases h

theorem register_eq_some (h : s.register = some s') : ∃ o, s.accepting = .identified o ∧
    s' = { s with accepting := .registered o, buffers := s.buffers.emplace o.derived.id o } := by
  rw [register] at h
  split at h
  · next o ho =>
    cases h
    exact ⟨o, ho, rfl⟩
  · cases h

theorem notify_eq_some (h : s.notify streams = some s') : ∃ o, s.accepting = .registered o ∧
    s' = { s with
      accepting := .idle
      connectQueue := s.connectQueue.notify
      completed := fun i => s.completed i ||
        (decide (s.thread i ≠ .idle) && decide ((streams i).id = o.derived.id)) } := by
  rw [notify] at h
  split at h
  · next o ho =>
    cases h
    exact ⟨o, ho, rfl⟩
  · cases h

theorem getToken_eq_some {usageId : Bytes} (h : s.getToken usageId = some s') :
    ∃ o, s.buffers.lookup usageId = some o ∧
      s' = { s with tokens := s.tokens ++ [(usageId, o)] } := by
  obtain ⟨o, ho, rfl⟩ := Option.map_eq_some_iff.mp h
  exact ⟨o, ho, rfl⟩

end Steps

end SocketQueue

/-- The connect queue with any connections, and its threads' steps in any order. Any number of
streams are queued, each once, and one accept thread serves one connection after the other. An
`accept` or a `setsockopt` that fails is left out. -/
def socketQueue {ι : Type} [DecidableEq ι] (streams : ι → Stream) :
    Machine (SocketQueue ι) (SocketQueueStep ι) where
  init s := s = {}
  next s
    | .wait i => s.wait i
    | .setLowLatency i => s.setLowLatency streams i
    | .setBufferSize i => s.setBufferSize streams i
    | .setConnectionId i => s.setConnectionId streams i
    | .connect client sent => some (s.connect client sent)
    | .accept k => s.accept k
    | .setNoDelay => s.setNoDelay
    | .readBufferSize => s.readBufferSize
    | .construct => s.construct
    | .readConnectionId recvs => s.readConnectionId recvs
    | .register => s.register
    | .notify => s.notify streams
    | .getToken usageId => s.getToken usageId

end Sideband
