import Sideband.Foundation.Machine
import Sideband.Messages.Transport
import Sideband.Rdma.Calls
import Sideband.SharedMemory.Calls
import Sideband.Sockets.Loops

/-!
# Messages nobody sent

A peer produces frames and a client reads messages, over any transport and with any outcomes
of the operations underneath (`ReadLink`). `ReadReport` is what one read did: what it returned,
whether an operation failed in it, and which frame of the peer it consumed. What the peer has
produced and nobody has read is recorded beside the state; no step looks at it.

Over sockets and RDMA a read is one step, since what the peer sends meanwhile comes behind what
there is. Over shared memory it is three, and the peer may write between them.

* A genuine read (`ReadReport.Genuine`) returns a message only for a frame it consumed, and
  none if an operation failed.
* `reads_genuine`: as long as no operation fails, and over shared memory a frame is there to
  be read and stays there until it is parsed, every read is genuine.
* `exists_invented_message`: one failed operation is enough for a message nobody sent. The
  error is dropped on the way up and zero bytes parse.
-/

namespace Sideband

open Foundation
open Parties (on)

/-! ### Reads -/

/-- What a call of `ReadSidebandMessage` did. -/
structure ReadReport (M : Type) where
  /-- The message if it returned true. -/
  result : Option M
  failed : Bool
  /-- The body of the frame of the peer that it consumed. -/
  consumed : Option Bytes

/-- A message is returned only for a consumed frame, and none if an operation failed. That a
consumed frame is returned at all is not asked for: its body need not parse. -/
structure ReadReport.Genuine {M : Type} (codec : MessageLite M) (r : ReadReport M) : Prop where
  of_result : ∀ m, r.result = some m → ∃ body, r.consumed = some body ∧ codec.parse body = some m
  of_failed : r.failed = true → r.result = none

/-- A client that reads messages and a peer that produces frames. -/
structure ReadLink (M : Type) where
  World : Type
  /-- What the peer may do, and what the client may do with what may happen to it. -/
  Step : Type
  init : World → Prop
  /-- The world after a step that returns, and the report of a read that is over with it. -/
  next : World → Step → Option (World × Option (ReadReport M))
  /-- No operation of the step fails. A read meets a frame that fits, and the peer lets the read
  have it. -/
  Steady : World → Step → Prop

namespace ReadLink

variable {M : Type} (L : ReadLink M)

/-- A link and the reads so far. -/
structure Run where
  world : L.World
  reads : List (ReadReport M) := []

/-- Steps of the client and of the peer in any order, with the report of each read as it comes to
its end. -/
def runs : Machine L.Run L.Step where
  init s := L.init s.world ∧ s.reads = []
  next s a := (L.next s.world a).map fun (world, report) => ⟨world, s.reads ++ report.toList⟩

/-- The condition on the steps. -/
def SteadyStep (s : L.Run) (a : L.Step) : Prop := L.Steady s.world a

variable {L} {codec : MessageLite M}

/-- With an invariant under which every steady step that ends a read ends a genuine one, all reads
of a steady run are genuine. -/
theorem genuine_of_invariant {I : L.World → Prop} (hinit : ∀ w, L.init w → I w)
    (hnext : ∀ w a w' report, I w → L.Steady w a → L.next w a = some (w', report) →
      I w' ∧ ∀ r ∈ report, r.Genuine codec)
    {s : L.Run} (h : L.runs.Reachable L.SteadyStep s) : ∀ r ∈ s.reads, r.Genuine codec := by
  have hinv : I s.world ∧ ∀ r ∈ s.reads, r.Genuine codec := by
    refine h.invariant (I := fun s => I s.world ∧ ∀ r ∈ s.reads, r.Genuine codec) ?_ ?_
    · rintro s ⟨hworld, hreads⟩
      refine ⟨hinit _ hworld, ?_⟩
      rw [hreads]
      exact fun r hr => absurd hr List.not_mem_nil
    · rintro s a s' ⟨hworld, hreads⟩ hsteady hstep
      obtain ⟨⟨w, report⟩, hw, rfl⟩ := Option.map_eq_some_iff.mp hstep
      obtain ⟨hworld', hgenuine⟩ := hnext _ _ _ _ hworld hsteady hw
      refine ⟨hworld', fun r hr => ?_⟩
      rcases List.mem_append.mp hr with hr | hr
      · exact hreads r hr
      · exact hgenuine r (Option.mem_toList.mp hr)
  exact hinv.2

end ReadLink

/-- A link whose reads are one step each. Over sockets and RDMA nothing is lost by that: a frame
that the peer sends meanwhile comes behind those that are there. -/
structure CallLink (M : Type) where
  World : Type
  /-- What the peer may do. -/
  PeerStep : Type
  /-- What may happen to the operations of one read. -/
  Outcomes : Type
  init : World → Prop
  peer : World → PeerStep → Option World
  /-- A call of `ReadSidebandMessage`, `none` if it does not return. -/
  read : World → Outcomes → Option (ReadReport M × World)
  /-- No operation of the read fails, and it meets a frame that fits. -/
  Steady : World → Outcomes → Prop

namespace CallLink

variable {M : Type} (L : CallLink M)

inductive Step
  | peer (a : L.PeerStep)
  | read (outcomes : L.Outcomes)

def toReadLink : ReadLink M where
  World := L.World
  Step := L.Step
  init := L.init
  next w
    | .peer a => (L.peer w a).map fun w' => (w', none)
    | .read outcomes => (L.read w outcomes).map fun (report, w') => (w', some report)
  Steady w
    | .peer _ => True
    | .read outcomes => L.Steady w outcomes

variable {L} {codec : MessageLite M}

theorem genuine_of_invariant {I : L.World → Prop} (hinit : ∀ w, L.init w → I w)
    (hpeer : ∀ w a w', I w → L.peer w a = some w' → I w')
    (hread : ∀ w outcomes report w', I w → L.Steady w outcomes →
      L.read w outcomes = some (report, w') → I w' ∧ report.Genuine codec)
    {s : L.toReadLink.Run} (h : L.toReadLink.runs.Reachable L.toReadLink.SteadyStep s) :
    ∀ r ∈ s.reads, r.Genuine codec := by
  refine ReadLink.genuine_of_invariant (I := I) hinit ?_ h
  rintro w (a | outcomes) w' report hinv hsteady hnext
  · obtain ⟨w₁, hw₁, hpair⟩ := Option.map_eq_some_iff.mp hnext
    cases hpair
    exact ⟨hpeer _ _ _ hinv hw₁, fun r hr => (nomatch hr)⟩
  · obtain ⟨⟨report₁, w₁⟩, hw₁, hpair⟩ := Option.map_eq_some_iff.mp hnext
    cases hpair
    obtain ⟨hinv', hgenuine⟩ := hread _ _ _ _ hinv hsteady hw₁
    refine ⟨hinv', fun r hr => ?_⟩
    cases hr
    exact hgenuine

end CallLink

/-! ### Sockets -/

namespace SocketSidebandData

variable {M : Type} (codec : MessageLite M) (size : ℕ)

/-- The client's handle, and the frames that were sent and not read. -/
structure ReadWorld where
  client : SidebandData SocketSidebandData
  unread : List Bytes := []

/-- The body of the front frame, if a read that moved the connection from `c` to `c'` took
exactly this frame. -/
def consumedFrame (c c' : Connection) : List Bytes → Option Bytes
  | [] => none
  | body :: _ =>
    if c.incoming = frame body ++ c'.incoming then some body else none

/-- Frames sent over a socket. What the read meets is a list of `recv` outcomes, with any cuts,
would-blocks and failures. -/
def link : CallLink M where
  World := ReadWorld
  PeerStep := Bytes
  Outcomes := List RecvEvent
  init w := w.client.bufferSize = size ∧ w.client.serializeBuffer = [] ∧
    w.client.derived.connection.incoming = [] ∧ w.unread = []
  peer w body := some { w with
    client.derived.connection.incoming := w.client.derived.connection.incoming ++ frame body
    unread := w.unread ++ [body] }
  read w recvs :=
    match (readSidebandMessage codec methods).run
      { w.client with derived.connection.recvs := recvs } with
    | .ok (result, client) =>
      let used := recvs.take (recvs.length - client.derived.connection.recvs.length)
      let consumed := consumedFrame w.client.derived.connection client.derived.connection w.unread
      some (⟨result, used.any RecvEvent.fails, consumed⟩,
        { client, unread := if consumed.isSome then w.unread.tail else w.unread })
    | .error _ => none
  Steady w recvs := (∀ e ∈ recvs, e.fails = false) ∧
    ∀ body ∈ w.unread.head?, body.length ≤ size ∧ body.length < 2 ^ 31

/-- The connection holds the unread frames. -/
structure ReadInv (w : ReadWorld) : Prop where
  ready : Ready size w.client
  incoming : w.client.derived.connection.incoming = (w.unread.map frame).flatten

variable {codec size} {w w' : ReadWorld} {recvs : List RecvEvent} {report : ReadReport M}

/-- A steady read that returns has read the front frame, and parsed its body. -/
theorem readSidebandMessage_steady {o o' : SidebandData SocketSidebandData} {result : Option M}
    {unread : List Bytes} (hready : Ready size o)
    (hincoming : o.derived.connection.incoming = (unread.map frame).flatten)
    (hsteady : ∀ e ∈ o.derived.connection.recvs, e.fails = false)
    (hfits : ∀ body ∈ unread.head?, body.length ≤ size ∧ body.length < 2 ^ 31)
    (hrun : (readSidebandMessage codec methods).run o = .ok (result, o')) :
    ∃ body rest, unread = body :: rest ∧ result = codec.parse body ∧ Ready size o' ∧
      o'.derived.connection.incoming = (rest.map frame).flatten := by
  obtain ⟨p, d, r, d', hheader, hread, hparse⟩ := readSidebandMessage_copy_of_ok rfl hrun
  change readLengthPrefix.run o.derived = _ at hheader
  change (read (some o.allocated) p).run d = _ at hread
  obtain ⟨hle, hp, hrest, hsteady'⟩ := readLengthPrefix_eq_of_ok hsteady hheader
  cases unread with
  | nil =>
    -- a prefix was there to be read
    rw [hincoming] at hle
    cases hle
  | cons body rest =>
    obtain ⟨hbody, hbody'⟩ := hfits body rfl
    have hheader : (le64 body.length).length = sizeofInt64 := length_le64_eq_sizeof _
    rw [List.map_cons, List.flatten_cons, frame, List.append_assoc] at hincoming
    -- it is that of the front frame, and the second read takes the frame's body
    have htake : o.derived.connection.incoming.take sizeofInt64 = le64 body.length := by
      rw [hincoming, ← hheader, List.take_left]
    have hdrop : d.connection.incoming = body ++ (rest.map frame).flatten := by
      rw [hrest, hincoming, ← hheader, List.drop_left]
    obtain rfl : p = body.length := by
      rw [hp, htake, int64OfLe_le64_natCast (by omega)]
    obtain ⟨hbytes, hrest'⟩ := read_eq_of_ok hsteady' hbody'
      (hready.length_allocated.symm ▸ hbody) hread
    rw [hdrop, List.take_left] at hbytes
    have hserialized : (overlay 0 body o.allocated).length = size := by
      rw [length_overlay (by rw [hready.length_allocated]; omega), hready.length_allocated]
    have hexact : toInt32 body.length = body.length := toInt32_of_range (by omega) (by omega)
    have hparsed : (overlay 0 body o.allocated).take body.length = body := by
      rw [overlay, List.take_zero, List.nil_append, List.take_left]
    rw [hbytes, Option.getD_some, run_parseFromSerializeBuffer_ok (by rw [hexact]; omega)
      (by rw [hexact, Int.toNat_natCast]; exact hserialized.symm ▸ hbody), hexact,
      Int.toNat_natCast] at hparse
    dsimp only at hparse
    rw [hparsed] at hparse
    cases hparse
    refine ⟨body, rest, rfl, rfl, ⟨hready.bufferSize, .inr hserialized⟩, ?_⟩
    rw [hrest', hdrop, List.drop_left]

/-- Steady reads are genuine and keep the frames in step. -/
theorem read_genuine (hinv : ReadInv size w) (hsteady : (link codec size).Steady w recvs)
    (hread : (link codec size).read w recvs = some (report, w')) :
    ReadInv size w' ∧ report.Genuine codec := by
  simp only [link] at hread
  split at hread
  · next result client hrun =>
    obtain ⟨body, rest, hunread, rfl, hready, hincoming⟩ := readSidebandMessage_steady
      (o := { w.client with derived.connection.recvs := recvs })
      ⟨hinv.ready.bufferSize, hinv.ready.serializeBuffer⟩ hinv.incoming hsteady.1 hsteady.2 hrun
    have hconsumed : consumedFrame w.client.derived.connection client.derived.connection w.unread =
        some body := by
      rw [hunread, consumedFrame, if_pos]
      rw [hinv.incoming, hunread, hincoming, List.map_cons, List.flatten_cons]
    have hfailed : (recvs.take (recvs.length - client.derived.connection.recvs.length)).any
        RecvEvent.fails = false := by
      rw [List.any_eq_false]
      exact fun e he => by rw [hsteady.1 e (List.mem_of_mem_take he)]; decide
    rw [hconsumed, hfailed] at hread
    cases hread
    refine ⟨⟨hready, ?_⟩, ⟨fun m hm => ⟨body, rfl, hm⟩, ?_⟩⟩
    · rw [hincoming, hunread]
      rfl
    · intro h
      cases h
  · cases hread

theorem link_reads_genuine {s : (link codec size).toReadLink.Run}
    (h : (link codec size).toReadLink.runs.Reachable (link codec size).toReadLink.SteadyStep s) :
    ∀ r ∈ s.reads, r.Genuine codec := by
  refine CallLink.genuine_of_invariant (I := ReadInv size) ?_ ?_ ?_ h
  · rintro w ⟨hsize, hserialize, hincoming, hunread⟩
    refine ⟨⟨hsize, .inl (by rw [hserialize]; rfl)⟩, ?_⟩
    rw [hincoming, hunread]
    rfl
  · intro w body w' hinv hpeer
    cases hpeer
    refine ⟨⟨hinv.ready.bufferSize, hinv.ready.serializeBuffer⟩, ?_⟩
    change w.client.derived.connection.incoming ++ frame body = _
    rw [hinv.incoming, List.map_append, List.flatten_append]
    exact congrArg (_ ++ ·) (List.append_nil _).symm
  · exact fun w recvs report w' hinv hsteady hread => read_genuine hinv hsteady hread

end SocketSidebandData

/-! ### RDMA -/

namespace RdmaSidebandDataImp

/-- The easyrdma calls of a read. -/
inductive ReadCall
  | acquireReceivedRegion
  | releaseReceivedBufferRegion
  deriving DecidableEq

/-- What one read meets: timeouts of the acquire, then a failure or none. A read makes its two
calls in order, so that one failure is the last thing that it meets. -/
structure ReadOutcomes where
  timeouts : ℕ := 0
  failure : Option ReadCall := none

/-- The results of the calls, up to the failure. -/
def ReadOutcomes.results (o : ReadOutcomes) : List EasyRdmaResult :=
  List.replicate o.timeouts .timeout ++
    match o.failure with
    | none => []
    | some .acquireReceivedRegion => [.failure]
    | some .releaseReceivedBufferRegion => [.success, .failure]

/-- The client's handle, and the frames that were delivered and not read. -/
structure ReadWorld (size : ℕ) where
  client : SidebandData (RdmaSidebandDataImp size)
  unread : List Bytes := []

variable {M : Type} (codec : MessageLite M) (size : ℕ)

/-- Frames sent over RDMA: each arrives whole in a region that is free, whichever it is, and
waits there for its turn. -/
def link : CallLink M where
  World := ReadWorld size
  PeerStep := Bytes × Fin 2
  Outcomes := ReadOutcomes
  init w := w.client.derived.connectedReadSession.delivered = [] ∧
    w.client.derived.connectedReadSession.held = [] ∧
    w.client.derived.connectedReadSession.results = [] ∧ w.unread = []
  peer w a :=
    if w.client.derived.connectedReadSession.Free a.2 ∧ (frame a.1).length ≤ size then
      some { w with
        client.derived.connectedReadSession :=
          w.client.derived.connectedReadSession.arrive a.2 (frame a.1)
        unread := w.unread ++ [a.1] }
    else none
  read w outcomes :=
    match (readSidebandMessage codec methods).run
      { w.client with derived := w.client.derived.withResults outcomes.results } with
    | .ok (result, client) =>
      if outcomes.failure = some .acquireReceivedRegion then
        some (⟨result, true, none⟩, { w with client })
      else
        some (⟨result, outcomes.failure.isSome, w.unread.head?⟩,
          { client, unread := w.unread.tail })
    | .error _ => none
  Steady w outcomes := outcomes.failure = none ∧ ∀ body ∈ w.unread.head?, body.length < 2 ^ 31

/-- The delivered regions hold the unread frames. -/
structure ReadInv (w : ReadWorld size) : Prop where
  results : w.client.derived.connectedReadSession.results = []
  held : w.client.derived.connectedReadSession.held = []
  unread : w.unread.map frame = w.client.derived.connectedReadSession.delivered.map Filled.bytes
  intact : Intact w.client.derived.connectedReadSession.memory
    w.client.derived.connectedReadSession.delivered

variable {codec size} {w w' : ReadWorld size} {outcomes : ReadOutcomes} {report : ReadReport M}

theorem peer_readInv (hinv : ReadInv size w) {a : Bytes × Fin 2}
    (hpeer : (link codec size).peer w a = some w') : ReadInv size w' := by
  simp only [link] at hpeer
  split_ifs at hpeer with hguard
  cases hpeer
  obtain ⟨hmemory, hdelivered, hheld, hresults⟩ := ReceiveSession.arrive_eq hguard.1 hguard.2
  have hintact := ReceiveSession.intact_arrive hguard.1 hguard.2 (by
    rw [hinv.held]
    exact hinv.intact)
  refine ⟨hresults.trans hinv.results, hheld.trans hinv.held, ?_, ?_⟩
  · rw [hdelivered, List.map_append, List.map_append, hinv.unread]
    rfl
  · rwa [hheld, hinv.held, List.nil_append] at hintact

/-- Steady reads are genuine and keep the frames in step. -/
theorem read_genuine (hinv : ReadInv size w) (hsteady : (link codec size).Steady w outcomes)
    (hread : (link codec size).read w outcomes = some (report, w')) :
    ReadInv size w' ∧ report.Genuine codec := by
  obtain ⟨hfailure, hbody⟩ := hsteady
  have hresults : outcomes.results = List.replicate outcomes.timeouts .timeout ++ [] := by
    rw [ReadOutcomes.results, hfailure]
  have hsame : w.client.derived.withResults [] = w.client.derived := by
    rw [withResults, ← hinv.results]
  have hdirect : (directRead codec methods).run (w.client.derived.withResults outcomes.results) =
      (directRead codec methods).run w.client.derived := by
    rw [hresults, directRead_timeouts, hsame]
  simp only [link, hfailure] at hread
  split at hread
  · next result client hrun =>
    rw [readSidebandMessage_direct rfl] at hrun
    cases hdelivered : w.client.derived.connectedReadSession.delivered with
    | nil =>
      -- with nothing delivered the acquire waits, and the read does not return
      have hblocked := directRead_blocked codec hinv.results hdelivered
      rw [SidebandData.run_call_error (hdirect.trans hblocked)] at hrun
      cases hrun
    | cons e rest =>
      have hunread := hinv.unread
      rw [hdelivered, List.map_cons] at hunread
      obtain ⟨body, bodies, hbodies, hframe, hmap⟩ := List.map_eq_cons_iff.mp hunread
      have hintact := hinv.intact e (hdelivered ▸ List.mem_cons_self)
      rw [← hframe] at hintact
      have hrun' := directRead_ok codec hinv.results hdelivered hintact
        (hbody body (by rw [hbodies]; rfl))
      rw [SidebandData.run_call_ok (hdirect.trans hrun')] at hrun
      rw [hbodies] at hread
      cases hrun
      cases hread
      obtain ⟨hheld, hrest, hmemory, hresults'⟩ := released_received hinv.held hdelivered
      refine ⟨⟨hresults'.trans hinv.results, hheld, ?_, ?_⟩, ⟨fun m hm => ⟨body, rfl, hm⟩, ?_⟩⟩
      · rw [hrest]
        exact hmap
      · rw [hrest, hmemory]
        exact fun e' he' => hinv.intact e' (hdelivered ▸ List.mem_cons_of_mem e he')
      · exact fun hfailed => (nomatch hfailed)
  · cases hread

theorem link_reads_genuine {s : (link codec size).toReadLink.Run}
    (h : (link codec size).toReadLink.runs.Reachable (link codec size).toReadLink.SteadyStep s) :
    ∀ r ∈ s.reads, r.Genuine codec := by
  refine CallLink.genuine_of_invariant (I := ReadInv size) ?_ ?_ ?_ h
  · rintro w ⟨hdelivered, hheld, hresults, hunread⟩
    refine ⟨hresults, hheld, ?_, ?_⟩
    · rw [hunread, hdelivered]
      rfl
    · rw [hdelivered]
      exact fun e he => absurd he List.not_mem_nil
  · exact fun w a w' hinv hpeer => peer_readInv hinv hpeer
  · exact fun w outcomes report w' hinv hsteady hread => read_genuine hinv hsteady hread

end RdmaSidebandDataImp

/-! ### Shared memory -/

/-- The body of the frame that the bytes are, if they are one: eight bytes that spell the length
of the others. -/
def bodyOf (bytes : Bytes) : Option Bytes :=
  if frame (bytes.drop sizeofInt64) = bytes then some (bytes.drop sizeofInt64) else none

theorem frame_of_bodyOf {bytes body : Bytes} (h : bodyOf bytes = some body) :
    frame body = bytes := by
  rw [bodyOf] at h
  split_ifs at h with hframe
  cases h
  exact hframe

/-- The outcomes of system calls of which call number `k` fails. -/
def callsUntil : Option ℕ → List Bool
  | none => []
  | some k => List.replicate k true ++ [false]

/-- Where the client's read is: the call that comes next, with what it is called on. `body` is that
of the frame that nobody had read where the read began. -/
inductive ReadPhase (M : Type)
  | idle
  | parse (buffer : Pointer) (bufferSize : Option ℤ) (failed : Bool) (body : Option Bytes)
  | finish (report : ReadReport M)

/-- The two parties, where the read is, and the frames that were written and not read, by the name
of the memory they are in. -/
structure SharedWorld (η M : Type) where
  parties : Parties η
  phase : ReadPhase M := .idle
  unread : Bytes → Option Bytes := fun _ => none

/-- What happens next. -/
inductive SharedStep
  /-- The peer calls `Write`. -/
  | write (bytes : Bytes)
  /-- A read begins; the system call with the number fails. -/
  | beginRead (failure : Option ℕ)
  /-- The read goes on with its next call. -/
  | read

section Shared

variable {η M : Type} (codec : MessageLite M) (stream : SharedStream η)

/-- The kernel with the outcomes of the coming calls. -/
def Parties.withCalls (calls : List Bool) (s : Parties η) : Parties η :=
  { s with shm.calls := calls }

namespace SharedWorld

/-- The segment that a party's handle works on. -/
def slot (side : Side) (w : SharedWorld η M) : Bytes :=
  stream.slot (w.parties.world side).handle

def write (bytes : Bytes) (w : SharedWorld η M) : Option (SharedWorld η M) :=
  if bytes.length ≤ stream.size then
    match (on .owner (sidebandDataWrite stream.methods bytes)).run w.parties with
    | .ok (_, parties) => some { w with
        parties
        unread := Function.update w.unread (w.slot stream .owner) (bodyOf bytes) }
    | .error _ => none
  else none

def beginRead (failure : Option ℕ) (w : SharedWorld η M) : Option (SharedWorld η M) :=
  match w.phase with
  | .idle =>
    match (on .client (SidebandData.call stream.methods.beginDirectReadLengthPrefixed)).run
        (w.parties.withCalls (callsUntil failure)) with
    | .ok ((buffer, bufferSize), parties) =>
      let failed := decide (false ∈ callsUntil failure ∧ false ∉ parties.shm.calls)
      some { w with
        parties := parties.withCalls []
        phase := .parse buffer bufferSize failed (w.unread (w.slot stream .client)) }
    | .error _ => none
  | _ => none

/-- The calls of a read after its first. The frame is consumed if it is still there when it is
parsed. -/
def read (w : SharedWorld η M) : Option (SharedWorld η M × Option (ReadReport M)) :=
  match w.phase with
  | .idle => none
  | .parse buffer bufferSize failed body =>
    match (on .client (SidebandData.call
        (parseFromArray codec stream.methods buffer (bufferSize.getD 0)))).run w.parties with
    | .ok (result, parties) =>
      let name := w.slot stream .client
      let consumed := if failed = false ∧ w.unread name = body then body else none
      some ({ w with
        parties
        phase := .finish ⟨result, failed, consumed⟩
        unread := if consumed.isSome then Function.update w.unread name none else w.unread }, none)
    | .error _ => none
  | .finish report =>
    match (on .client (SidebandData.call stream.methods.finishDirectRead)).run w.parties with
    | .ok (_, parties) => some ({ w with parties, phase := .idle }, some report)
    | .error _ => none

variable {w : SharedWorld η M} {parties : Parties η}

theorem read_of_parse {buffer : Pointer} {bufferSize : Option ℤ} {failed : Bool}
    {body : Option Bytes} {result : Option M}
    (hphase : w.phase = .parse buffer bufferSize failed body)
    (hrun : (on .client (SidebandData.call
        (parseFromArray codec stream.methods buffer (bufferSize.getD 0)))).run w.parties =
      .ok (result, parties)) :
    ∃ w' report, w.read codec stream = some (w', none) ∧ w'.phase = .finish report ∧
      report.result = result ∧ w'.parties = parties := by
  rw [read, hphase]
  dsimp only
  rw [hrun]
  exact ⟨_, _, rfl, rfl, rfl, rfl⟩

theorem read_of_finish {report : ReadReport M} {b : Bool} (hphase : w.phase = .finish report)
    (hrun : (on .client (SidebandData.call stream.methods.finishDirectRead)).run w.parties =
      .ok (b, parties)) :
    w.read codec stream = some ({ w with parties, phase := .idle }, some report) := by
  rw [read, hphase]
  dsimp only
  rw [hrun]

end SharedWorld

/-- Frames written to shared memory by the owner and read by the client. A `Write` of the peer is
one step, a read is the three calls that `ReadSidebandMessage` makes (`SharedWorld.read_steps`),
and nothing keeps the two apart: the peer may write at any time. A steady run has no write into
the segment of a read between its begin and its parse; a `Write` whose copy overlaps that time is
one of those. -/
def sharedLink : ReadLink M where
  World := SharedWorld η M
  Step := SharedStep
  init w := ∃ shm : Shm, shm.calls = [] ∧
    w = { parties := .opened stream.handle stream.size shm }
  next w
    | .write bytes => (w.write stream bytes).map fun w' => (w', none)
    | .beginRead failure => (w.beginRead stream failure).map fun w' => (w', none)
    | .read => w.read codec stream
  Steady w
    | .write _ =>
      match w.phase with
      | .parse _ _ _ _ => w.slot stream .owner ≠ w.slot stream .client
      | _ => True
    | .beginRead failure => failure = none ∧
        ∃ body, w.unread (w.slot stream .client) = some body ∧ body.length < 2 ^ 31
    | .read => True

/-- A read that began on an unread frame, which is still there. This is what the condition
preserves between the begin of a read and its parse. -/
structure OnFrame (buffer : Pointer) (bufferSize : Option ℤ) (body : Option Bytes)
    (w : SharedWorld η M) : Prop where
  buffer : ∃ n, buffer = .into (.segment n) sizeofInt64 ∧
    w.parties.shm.Behind stream.size n (w.slot stream .client)
  bufferSize : bufferSize =
    some (int64OfLe ((stream.memory (w.parties.world .client)).take sizeofInt64))
  unread : w.unread (w.slot stream .client) = body
  frame : ∃ b, body = some b ∧ b.length < 2 ^ 31

/-- The memory holds the unread frames, and a read that has begun is on one of them. What else a
segment holds is open. -/
structure SharedInv (At : η → Shm → Prop) (w : SharedWorld η M) : Prop where
  calls : w.parties.shm.calls = []
  attached : ∀ side, At (w.parties.world side).handle w.parties.shm
  unread : ∀ name body, w.unread name = some body →
    (w.parties.shm.view name stream.size).take (frame body).length = frame body
  parsing : ∀ buffer bufferSize failed body, w.phase = .parse buffer bufferSize failed body →
    failed = false ∧ OnFrame stream buffer bufferSize body w
  finishing : ∀ report, w.phase = .finish report → report.Genuine codec

variable {codec stream} {At : η → Shm → Prop} {w w' : SharedWorld η M}

theorem Parties.withCalls_nil {s : Parties η} (h : s.shm.calls = []) : s.withCalls [] = s := by
  obtain ⟨owner, client, shm⟩ := s
  obtain ⟨names, objects, calls, h₁, h₂⟩ := shm
  obtain rfl : calls = [] := h
  rfl

/-- Memory that starts with a frame spells its body. -/
theorem spelled_of_take_frame (codec : MessageLite M) {mem body : Bytes}
    (h : mem.take (frame body).length = frame body)
    (hbody : body.length < 2 ^ 31) : spelled codec mem = some (codec.parse body) := by
  obtain ⟨hle, hheader, hpayload⟩ := of_take_frame h
  have hlen : toInt32 (int64OfLe (mem.take sizeofInt64)) = body.length := by
    rw [hheader, int64OfLe_le64_natCast (by omega)]
    exact toInt32_of_range (by omega) (by omega)
  rw [spelled]
  simp only [hlen]
  rw [if_neg (by omega), Int.toNat_natCast, loadAt_eq_some hle, Option.map_some, hpayload]

/-- Uninterrupted, and with no call that fails, the three calls are `ReadSidebandMessage`. -/
theorem SharedWorld.read_steps (hcalls : stream.Calls At)
    (hat : At (w.parties.world .client).handle w.parties.shm) (hshm : w.parties.shm.calls = [])
    (hphase : w.phase = .idle) {result : Option M} {parties : Parties η}
    (hrun : (on .client (readSidebandMessage codec stream.methods)).run w.parties =
      .ok (result, parties)) :
    ∃ w₁ w₂ w₃ report, w.beginRead stream none = some w₁ ∧
      w₁.read codec stream = some (w₂, none) ∧ w₂.read codec stream = some (w₃, some report) ∧
      w₃.parties = parties ∧ report.result = result := by
  rw [readSidebandMessage_direct stream.direct] at hrun
  obtain ⟨o, ho, rfl⟩ := Exec.run_zoom_eq_ok_iff.mp hrun
  obtain ⟨d, hd, rfl⟩ := Exec.run_zoom_eq_ok_iff.mp ho
  obtain ⟨⟨buffer, bufferSize⟩, d₁, hbegin, hd⟩ := Exec.run_bind_eq_ok_iff.mp hd
  obtain ⟨parsed, d₂, hparse, hd⟩ := Exec.run_bind_eq_ok_iff.mp hd
  obtain ⟨finished, d₃, hfinish, hd⟩ := Exec.run_bind_eq_ok_iff.mp hd
  cases hd
  have hsize : sizeofInt64 ≤ stream.size := by
    by_contra hsmall
    have herror := hcalls.beginRead_outOfBounds (w := w.parties.world .client) hat hshm
      (not_le.mp hsmall)
    cases herror.symm.trans hbegin
  obtain ⟨n, d', hbegin', -, hstays⟩ := hcalls.beginRead (w := w.parties.world .client) hat hshm
    hsize
  cases hbegin'.symm.trans hbegin
  have hcalls₁ : (w.parties.step .client d₁).shm.calls = [] := hstays.update.calls
  have hrun₁ := Parties.run_on_call_ok hbegin
  obtain ⟨s₁, hs₁⟩ : ∃ s₁, w.parties.step .client d₁ = s₁ := ⟨_, rfl⟩
  obtain ⟨s₂, hs₂⟩ : ∃ s₂, s₁.step .client d₂ = s₂ := ⟨_, rfl⟩
  rw [hs₁] at hrun₁ hcalls₁
  have hworld₁ : s₁.world .client = d₁ := by rw [← hs₁, Parties.world_step_same]
  have hworld₂ : s₂.world .client = d₂ := by rw [← hs₂, Parties.world_step_same]
  have hrun₂ := Parties.run_on_call_ok (hworld₁.symm ▸ hparse)
  have hrun₃ := Parties.run_on_call_ok (hworld₂.symm ▸ hfinish)
  have h₁ : w.beginRead stream none = some { w with
      parties := s₁
      phase := .parse (.into (.segment n) sizeofInt64)
        (some (int64OfLe ((stream.memory (w.parties.world .client)).take sizeofInt64))) false
        (w.unread (w.slot stream .client)) } := by
    simp [SharedWorld.beginRead, hphase, callsUntil, Parties.withCalls_nil hshm, hrun₁,
      Parties.withCalls_nil hcalls₁]
  obtain ⟨w₂, report, h₂, hfinishing, hresult, hparties⟩ :=
    SharedWorld.read_of_parse codec stream (w := { w with
      parties := s₁
      phase := .parse (.into (.segment n) sizeofInt64)
        (some (int64OfLe ((stream.memory (w.parties.world .client)).take sizeofInt64))) false
        (w.unread (w.slot stream .client)) }) rfl hrun₂
  have h₃ := SharedWorld.read_of_finish codec stream hfinishing
    ((hparties.trans hs₂).symm ▸ hrun₃)
  refine ⟨_, w₂, _, report, h₁, h₂, h₃, ?_, hresult⟩
  change w₂.parties.step .client _ = _
  rw [hparties, ← hs₁]
  cases w.parties
  rfl

/-- Where the client is not reading, the peer writes its frame. -/
theorem SharedInv.write (hcalls : stream.Calls At) (hinv : SharedInv codec stream At w)
    {bytes : Bytes} (hsteady : (sharedLink codec stream).Steady w (.write bytes))
    (hnext : w.write stream bytes = some w') : SharedInv codec stream At w' := by
  rw [SharedWorld.write] at hnext
  split_ifs at hnext with hle
  obtain ⟨w₁, hwrite, hat, hu⟩ := hcalls.write (w := w.parties.world .owner)
    (hinv.attached .owner) hinv.calls hle
  have hrun : (on .owner (sidebandDataWrite stream.methods bytes)).run w.parties =
      .ok (0, w.parties.step .owner w₁) := by
    have hcall : (sidebandDataWrite stream.methods bytes).run
        { w.parties.party .owner with derived := w.parties.world .owner } =
          .ok (0, { w.parties.party .owner with derived := w₁ }) := by
      rw [sidebandDataWrite, Exec.run_bind_ok (SidebandData.run_call_ok hwrite)]
      rfl
    exact Exec.run_zoom_ok hcall
  rw [hrun] at hnext
  cases hnext
  have hlen : (overlay 0 bytes (stream.memory (w.parties.world .owner))).length = stream.size :=
    Shm.length_overlay_view _ _ hle
  have hevolves := hcalls.evolves hu hlen
  have hclient : (w.parties.step .owner w₁).world .client =
      ⟨(w.parties.world .client).handle, w₁.shm⟩ := Parties.world_step_peer .owner w₁ _
  refine ⟨hu.calls, fun side => ?_, fun name body hname => ?_, ?_, hinv.finishing⟩
  · cases side with
    | owner => exact hat
    | client => exact hevolves.attached _ (hinv.attached .client)
  · dsimp only at hname
    by_cases hslot : name = w.slot stream .owner
    · -- the memory that was written holds the new frame, if the bytes are one
      rw [hslot, Function.update_self] at hname
      have hframe := frame_of_bodyOf hname
      have hview : w₁.shm.view (w.slot stream .owner) stream.size = _ := hu.view_same hlen
      change (w₁.shm.view name stream.size).take _ = _
      rw [hslot, hview, hframe, overlay, List.take_zero, List.nil_append, List.take_left]
    · rw [Function.update_of_ne hslot] at hname
      have hview : w₁.shm.view name stream.size = _ := hu.view_other hslot stream.size
      change (w₁.shm.view name stream.size).take _ = _
      rw [hview]
      exact hinv.unread name body hname
  · intro buffer bufferSize failed body hphase
    obtain ⟨hfailed, ⟨n, hbuffer, hbehind⟩, hsize, hunread, hframe⟩ := hinv.parsing _ _ _ _ hphase
    have hne : w.slot stream .owner ≠ w.slot stream .client := by
      simpa only [sharedLink, show w.phase = _ from hphase] using hsteady
    have hmemory : stream.memory ⟨(w.parties.world .client).handle, w₁.shm⟩ =
        stream.memory (w.parties.world .client) := hu.view_other hne.symm stream.size
    refine ⟨hfailed, ⟨n, hbuffer, ?_⟩, ?_, ?_, hframe⟩
    · exact hevolves.behind _ _ hbehind
    · change bufferSize = some (int64OfLe ((stream.memory
        ((w.parties.step .owner w₁).world .client)).take sizeofInt64))
      rw [hclient, hmemory, hsize]
    · exact (Function.update_of_ne hne.symm _ _).trans hunread

/-- A steady read begins on an unread frame. -/
theorem SharedInv.beginRead (hcalls : stream.Calls At) (hinv : SharedInv codec stream At w)
    {failure : Option ℕ} (hsteady : (sharedLink codec stream).Steady w (.beginRead failure))
    (hnext : w.beginRead stream failure = some w') : SharedInv codec stream At w' := by
  obtain ⟨rfl, body, hbody, hlt⟩ := hsteady
  have hframe := hinv.unread _ _ hbody
  have hsize : sizeofInt64 ≤ stream.size := by
    have := (of_take_frame hframe).1
    rw [Shm.length_view] at this
    omega
  obtain ⟨n, w₁, hbegin, hbehind, hstays⟩ := hcalls.beginRead (w := w.parties.world .client)
    (hinv.attached .client) hinv.calls hsize
  have hrun := Parties.run_on_call_ok hbegin
  have hcalls' : (w.parties.step .client w₁).shm.calls = [] := hstays.update.calls
  rw [SharedWorld.beginRead] at hnext
  split at hnext
  · rw [callsUntil, Parties.withCalls_nil hinv.calls, hrun] at hnext
    simp only [List.not_mem_nil, false_and, decide_false, Parties.withCalls_nil hcalls'] at hnext
    cases hnext
    have hevolves := hcalls.evolves_of_stays hstays
    refine ⟨hcalls', fun side => ?_, fun name body' hname => ?_, ?_,
      fun _ hphase => (nomatch hphase)⟩
    · cases side with
      | owner => exact hevolves.attached _ (hinv.attached .owner)
      | client => exact hstays.attached
    · exact (congrArg (List.take _) hstays.update.view_eq).trans (hinv.unread name body' hname)
    · intro buffer bufferSize failed body' hphase
      cases hphase
      have hslot : stream.slot w₁.handle = w.slot stream .client := hstays.slot
      refine ⟨rfl, ⟨n, rfl, ?_⟩, ?_, ?_, body, hbody, hlt⟩
      · change w₁.shm.Behind stream.size n (stream.slot w₁.handle)
        rw [hslot]
        exact hbehind
      · change _ = some (int64OfLe ((stream.memory w₁).take sizeofInt64))
        rw [hstays.memory]
      · change w.unread (stream.slot w₁.handle) = _
        rw [hslot]
  · cases hnext

/-- What a read parses is the frame that it began on, and what it reports is genuine. -/
theorem SharedInv.read (hcalls : stream.Calls At) (hinv : SharedInv codec stream At w)
    {report : Option (ReadReport M)} (hnext : w.read codec stream = some (w', report)) :
    SharedInv codec stream At w' ∧ ∀ r ∈ report, r.Genuine codec := by
  have hat := hinv.attached .client
  rw [SharedWorld.read] at hnext
  split at hnext
  · cases hnext
  · next buffer bufferSize failed body hphase =>
    obtain ⟨rfl, ⟨n, rfl, hbehind⟩, rfl, hunread, b, rfl, hlt⟩ := hinv.parsing _ _ _ _ hphase
    have hparse := hcalls.parse (w := w.parties.world .client) hat hbehind
      (spelled_of_take_frame codec (hinv.unread _ _ hunread) hlt)
    have hrun := Parties.run_on_call_ok hparse
    rw [Parties.step_world] at hrun
    rw [Option.getD_some, hrun] at hnext
    simp only [hunread, and_self, if_true, Option.isSome_some] at hnext
    cases hnext
    refine ⟨⟨hinv.calls, hinv.attached, fun name body hname => ?_,
      fun _ _ _ _ hphase => (nomatch hphase), fun report hphase => ?_⟩, fun r hr => (nomatch hr)⟩
    · exact hinv.unread name body (update_none_eq_some_iff.mp hname).2
    · cases hphase
      exact ⟨fun m hm => ⟨b, rfl, hm⟩, fun hfailed => (nomatch hfailed)⟩
  · next report' hphase =>
    obtain ⟨handle, hfinish, hat'⟩ := hcalls.finishRead (w := w.parties.world .client) hat
    rw [Parties.run_on_call_ok hfinish] at hnext
    cases hnext
    refine ⟨⟨hinv.calls, fun side => ?_, hinv.unread, fun _ _ _ _ hphase => (nomatch hphase),
      fun _ hphase => (nomatch hphase)⟩, fun r hr => ?_⟩
    · cases side with
      | owner => exact hinv.attached .owner
      | client => exact hat'
    · cases hr
      exact hinv.finishing _ hphase

theorem shared_reads_genuine (hcalls : stream.Calls At) {s : (sharedLink codec stream).Run}
    (hs : (sharedLink codec stream).runs.Reachable (sharedLink codec stream).SteadyStep s) :
    ∀ r ∈ s.reads, r.Genuine codec := by
  refine ReadLink.genuine_of_invariant (I := SharedInv codec stream At) ?_ ?_ hs
  · rintro w ⟨shm, hshm, rfl⟩
    refine ⟨hshm, fun side => ?_, fun _ _ hname => (nomatch hname),
      fun _ _ _ _ hphase => (nomatch hphase), fun _ hphase => (nomatch hphase)⟩
    cases side <;> exact hcalls.new shm
  · intro w a w' report hinv hsteady hnext
    cases a with
    | write bytes =>
      obtain ⟨w₁, hw₁, hpair⟩ := Option.map_eq_some_iff.mp hnext
      cases hpair
      exact ⟨hinv.write hcalls hsteady hw₁, fun r hr => (nomatch hr)⟩
    | beginRead failure =>
      obtain ⟨w₁, hw₁, hpair⟩ := Option.map_eq_some_iff.mp hnext
      cases hpair
      exact ⟨hinv.beginRead hcalls hsteady hw₁, fun r hr => (nomatch hr)⟩
    | read => exact hinv.read hcalls hnext

end Shared

/-! ### All transports -/

namespace Transport

variable {M : Type} (codec : MessageLite M) (id : Bytes) (size : ℕ)

/-- A client and its peer over any transport; the id is that of the shared memory. Every buffer
has the size `size`. -/
def link : Transport → ReadLink M
  | sharedMemory => sharedLink codec (.sharedMemory id size)
  | doubleBufferedSharedMemory => sharedLink codec (.doubleBuffered id size)
  | sockets => (SocketSidebandData.link codec size).toReadLink
  | rdma => (RdmaSidebandDataImp.link codec size).toReadLink

end Transport

/-- **No invented message, as long as nothing fails.** In every run whose reads are steady, every
read is genuine, over each of the four transports. Over shared memory the peer may write between
the calls of a read; over sockets and RDMA a read is one step, since what the peer sends
meanwhile comes behind what is there. -/
theorem reads_genuine {M : Type} (codec : MessageLite M) (id : Bytes) (size : ℕ) (T : Transport)
    {s : (T.link codec id size).Run}
    (h : (T.link codec id size).runs.Reachable (T.link codec id size).SteadyStep s) :
    ∀ r ∈ s.reads, r.Genuine codec := by
  cases T with
  | sharedMemory =>
    exact shared_reads_genuine (SharedMemorySidebandData.calls_sharedMemory id size) h
  | doubleBufferedSharedMemory =>
    exact shared_reads_genuine
      (DoubleBufferedSharedMemorySidebandData.calls_doubleBuffered id size) h
  | sockets => exact SocketSidebandData.link_reads_genuine h
  | rdma => exact RdmaSidebandDataImp.link_reads_genuine h

/-- Two frames read over a socket, the first one in three pieces. -/
theorem exists_socket_run : ∃ s : (Transport.sockets.link rawMessage [] 16).Run,
    (Transport.sockets.link rawMessage [] 16).runs.Reachable
      (Transport.sockets.link rawMessage [] 16).SteadyStep s ∧ s.reads.length = 2 := by
  have hinit : (Transport.sockets.link rawMessage [] 16).runs.init
      ⟨⟨.new 16 ⟨[], 0, false, {}⟩, []⟩, []⟩ := ⟨⟨rfl, rfl, rfl, rfl⟩, rfl⟩
  have hexec : ((Transport.sockets.link rawMessage [] 16).runs.execWhile (fun s => fun
        | .peer _ => true
        | .read recvs => recvs.all (fun e => !RecvEvent.fails e) &&
          s.world.unread.all fun body => decide (body.length ≤ 16 ∧ body.length < 2 ^ 31))
      ⟨⟨.new 16 ⟨[], 0, false, {}⟩, []⟩, []⟩
      [.peer [1], .peer [2], .read [.deliver 3, .fail .EAGAIN, .deliver 5, .deliver 1],
        .read [.deliver 8, .deliver 1]]).map (fun s => s.reads.length) = some 2 := by
    decide +kernel
  obtain ⟨s, hs, hlength⟩ := Option.map_eq_some_iff.mp hexec
  refine ⟨s, (Machine.Reachable.init hinit).execWhile ?_ hs, hlength⟩
  rintro s (body | recvs) _ hp
  · exact trivial
  · obtain ⟨hrecvs, hunread⟩ := Bool.and_eq_true_iff.mp hp
    refine ⟨fun e he => by simpa using List.all_eq_true.mp hrecvs e he, fun body hbody => ?_⟩
    exact of_decide_eq_true (List.all_eq_true.mp hunread body (List.mem_of_mem_head? hbody))

/-- `Steady` over shared memory, to be computed. -/
def steadyShared {η M : Type} (stream : SharedStream η) (w : SharedWorld η M) : SharedStep → Bool
  | .write _ =>
    match w.phase with
    | .parse _ _ _ _ => w.slot stream .owner ≠ w.slot stream .client
    | _ => true
  | .beginRead failure => failure.isNone &&
      (w.unread (w.slot stream .client)).any fun body => decide (body.length < 2 ^ 31)
  | .read => true

theorem steady_of_steadyShared {η M : Type} {codec : MessageLite M} {stream : SharedStream η}
    {w : SharedWorld η M} {a : SharedStep} (h : steadyShared stream w a = true) :
    (sharedLink codec stream).Steady w a := by
  cases a with
  | write bytes =>
    rw [steadyShared] at h
    change match w.phase with
      | .parse _ _ _ _ => w.slot stream .owner ≠ w.slot stream .client
      | _ => True
    cases hphase : w.phase with
    | parse buffer bufferSize failed body =>
      rw [hphase] at h
      exact of_decide_eq_true h
    | _ => exact trivial
  | beginRead failure =>
    obtain ⟨hnone, hany⟩ := Bool.and_eq_true_iff.mp h
    obtain ⟨body, hbody, hlt⟩ := (Option.any_eq_true _ _).mp hany
    exact ⟨Option.isNone_iff_eq_none.mp hnone, body, hbody, of_decide_eq_true hlt⟩
  | read => exact trivial

/-- Two frames written to the two buffers, the second one while the first is read. -/
theorem exists_doubleBuffered_run :
    ∃ s : (Transport.doubleBufferedSharedMemory.link rawMessage [] 16).Run,
      (Transport.doubleBufferedSharedMemory.link rawMessage [] 16).runs.Reachable
        (Transport.doubleBufferedSharedMemory.link rawMessage [] 16).SteadyStep s ∧
      s.reads.length = 2 := by
  have hinit : (Transport.doubleBufferedSharedMemory.link rawMessage [] 16).runs.init
      ⟨{ parties := .opened (.new [] 16) 16 {} }, []⟩ := ⟨⟨{}, rfl, rfl⟩, rfl⟩
  have hexec : ((Transport.doubleBufferedSharedMemory.link rawMessage [] 16).runs.execWhile
      (fun s a => steadyShared (.doubleBuffered [] 16) s.world a)
      ⟨{ parties := .opened (.new [] 16) 16 {} }, []⟩
      [.write (frame [1]), .beginRead none, .write (frame [2]), .read, .read, .beginRead none,
        .read, .read]).map (fun s => s.reads.length) = some 2 := by
    decide +kernel
  obtain ⟨s, hs, hlength⟩ := Option.map_eq_some_iff.mp hexec
  exact ⟨s, (Machine.Reachable.init hinit).execWhile
    (fun _ _ _ hp => steady_of_steadyShared hp) hs, hlength⟩

/-- Two genuine reads over a socket, and two over shared memory with a write in between. -/
theorem reads_genuine_run :
    (∃ s : (Transport.sockets.link rawMessage [] 16).Run,
      (Transport.sockets.link rawMessage [] 16).runs.Reachable
        (Transport.sockets.link rawMessage [] 16).SteadyStep s ∧
      s.reads.length = 2 ∧ ∀ r ∈ s.reads, r.Genuine rawMessage) ∧
    ∃ s : (Transport.doubleBufferedSharedMemory.link rawMessage [] 16).Run,
      (Transport.doubleBufferedSharedMemory.link rawMessage [] 16).runs.Reachable
        (Transport.doubleBufferedSharedMemory.link rawMessage [] 16).SteadyStep s ∧
      s.reads.length = 2 ∧ ∀ r ∈ s.reads, r.Genuine rawMessage := by
  obtain ⟨s, hs, hlength⟩ := exists_socket_run
  obtain ⟨t, ht, hlength'⟩ := exists_doubleBuffered_run
  exact ⟨⟨s, hs, hlength, reads_genuine rawMessage [] 16 .sockets hs⟩,
    t, ht, hlength', reads_genuine rawMessage [] 16 .doubleBufferedSharedMemory ht⟩

/-- A read that failed and returned a message. -/
def ReadReport.Invented {M : Type} (r : ReadReport M) : Bool := r.failed && r.result.isSome

theorem ReadReport.not_genuine_of_invented {M : Type} {codec : MessageLite M} {r : ReadReport M}
    (h : r.Invented) : ¬ r.Genuine codec := by
  intro hgenuine
  obtain ⟨hfailed, hsome⟩ := Bool.and_eq_true_iff.mp h
  rw [hgenuine.of_failed hfailed] at hsome
  cases hsome

/-- A run that ends with an invented message. -/
theorem ReadLink.exists_invented {M : Type} {L : ReadLink M} {s : L.Run} (steps : List L.Step)
    (hinit : L.runs.init s)
    (hexec : (L.runs.exec s steps).map (fun s => s.reads.map ReadReport.Invented) = some [true]) :
    ∃ s, L.runs.Reachable Anything s ∧ ∃ r ∈ s.reads, r.Invented := by
  obtain ⟨s', hs', hreads⟩ := Option.map_eq_some_iff.mp hexec
  obtain ⟨r, rest, hr, hinvented, -⟩ := List.map_eq_cons_iff.mp hreads
  exact ⟨s', Machine.exec_reachable hinit hs', r, hr ▸ List.mem_cons_self, hinvented⟩

/-- Whatever the transport, a first operation that fails is enough: the read returns a message
nobody sent. -/
theorem exists_invented_message (T : Transport) :
    ∃ s, (T.link rawMessage [] 16).runs.Reachable Anything s ∧ ∃ r ∈ s.reads, r.Invented := by
  cases T with
  | sharedMemory =>
    refine ReadLink.exists_invented (s := ⟨{ parties := .opened (.new [] 16) 16 {} }, []⟩)
      [.beginRead (some 0), .read, .read] ?_ (by decide +kernel)
    exact ⟨⟨{}, rfl, rfl⟩, rfl⟩
  | doubleBufferedSharedMemory =>
    refine ReadLink.exists_invented (s := ⟨{ parties := .opened (.new [] 16) 16 {} }, []⟩)
      [.beginRead (some 0), .read, .read] ?_ (by decide +kernel)
    exact ⟨⟨{}, rfl, rfl⟩, rfl⟩
  | sockets =>
    refine ReadLink.exists_invented (s := ⟨⟨.new 16 ⟨[], 0, false, {}⟩, []⟩, []⟩)
      [.read [.fail .other]] ?_ (by decide +kernel)
    exact ⟨⟨rfl, rfl, rfl, rfl⟩, rfl⟩
  | rdma =>
    refine ReadLink.exists_invented
      (s := ⟨⟨.new 16 ⟨.configured 16, .configured 16, {}, {}⟩, []⟩, []⟩)
      [.read ⟨0, some .acquireReceivedRegion⟩] ?_ (by decide +kernel)
    exact ⟨⟨rfl, rfl, rfl, rfl⟩, rfl⟩

/-- Without the condition, no transport keeps the promise: the first operation of the first read
fails, and the read returns true with the empty message. -/
theorem not_reads_genuine : ¬ ∃ T : Transport,
    ∀ s, (T.link rawMessage [] 16).runs.Reachable Anything s →
      ∀ r ∈ s.reads, r.Genuine rawMessage := by
  rintro ⟨T, h⟩
  obtain ⟨s, hs, r, hr, hinvented⟩ := exists_invented_message T
  exact ReadReport.not_genuine_of_invented hinvented (h s hs r hr)

end Sideband
