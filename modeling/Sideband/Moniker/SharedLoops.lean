import Mathlib.Logic.Relation
import Sideband.Foundation.Machine
import Sideband.Moniker.Requests
import Sideband.SharedMemory.Calls

/-!
# The two loops of a stream over shared memory

The client-first branch of `RunSidebandReadWriteLoop` on the owner's handle, and a client that
calls `WriteSidebandMessage` and `ReadSidebandMessage` on its own, over either shared memory
strategy. Nothing makes one of the loops wait for the other, so they are one machine
(`sharedLoops`) whose runs are all interleavings. A step is one of the calls that the two message
functions make on the handle; what the server's loop does between them is one step. The loop runs
alone on its handle, the client is a program that writes any requests and reads at any time, and no
system call fails.

`SharedLoops.sent` and `accepted` record the requests that the client has finished writing and that
the server has got, and `turn` what has happened last in each segment; no step looks at them.
Uninterrupted, the server's steps are a round of the loop (`serverLeads_round`).
-/

namespace Sideband

open Foundation
open Parties (on)

/-! ### Messages that can be sent -/

section Formats

variable {M : Type} {empty : M}

/-- The messages that protobuf serializes: those of less than 2 GiB. -/
abbrev WireFormat.Message (format : WireFormat empty) : Type :=
  { m : M // (format.serialize m).length < 2 ^ 31 }

/-- The message type of a format. Bytes that parse to a message that is too long to be serialized
are not parsed; no segment holds such bytes. -/
def WireFormat.messageLite (format : WireFormat empty) : MessageLite format.Message where
  serialize m := format.serialize m.val
  parse bytes := (format.parse bytes).bind fun m =>
    if h : (format.serialize m).length < 2 ^ 31 then some ⟨m, h⟩ else none
  parse_serialize m := by
    rw [format.parse_serialize, Option.bind_some, dif_pos m.property]
  size_lt m := m.property

/-- A message that is too long to be serialized is too long for every segment. -/
def WireFormat.sendable (format : WireFormat empty) {σ : Type} (m : M) : Exec σ format.Message :=
  if h : (format.serialize m).length < 2 ^ 31 then return ⟨m, h⟩ else throw .outOfBounds

end Formats

/-! ### States -/

/-- Where the server's loop is: the call that comes next, with what it is called on. Pointers are
kept from one call to the next, as the source keeps them, and what they lead to may change. -/
inductive ServerPhase (Q P : Type)
  | beginRead
  | parse (buffer : Pointer) (bufferSize : Option ℤ)
  | finishRead (success : Option Q)
  /-- Call the endpoints. -/
  | handle (writeRequest : Q)
  | beginWrite (readResult : P)
  | serialize (readResult : P) (buffer : Pointer)
  | finishWrite (readResult : P)
  /-- The loop is over. -/
  | returned

/-- Where the client is. What it does with a response is its own business, so the response is not
kept. -/
inductive ClientPhase (Q : Type)
  | idle
  | serialize (request : Q) (buffer : Pointer)
  | finishWrite (request : Q)
  | parse (buffer : Pointer) (bufferSize : Option ℤ)
  | finishRead

/-- What has happened last in a segment, as far as the server's reads go. It is a history
variable, from which the condition on a schedule is stated. -/
inductive Turn (Q : Type)
  /-- There is no request for the server: none was stored, it has been parsed, or a response lies
  over it. -/
  | free
  /-- The client has stored a request, and not finished the write. -/
  | written (request : Q)
  /-- The write is finished. -/
  | ready (request : Q)
  /-- The server has begun to read it, and not parsed it. -/
  | begun (request : Q)

namespace Turn

variable {Q : Type}

/-- The client has finished a write. -/
def finishWrite : Turn Q → Turn Q
  | .written request => .ready request
  | turn => turn

/-- The server has begun a read. -/
def beginRead : Turn Q → Turn Q
  | .ready request => .begun request
  | turn => turn

end Turn

/-- The service with the handles of both parties, where the two are, and the record of what was
sent and accepted. The two handles share the kernel's objects and nothing else. -/
structure SharedLoops (σ ε V η Q P : Type) where
  service : MonikerState σ ε V (Parties η)
  server : ServerPhase Q P := .beginRead
  client : ClientPhase Q := .idle
  /-- The requests that the client has finished writing. -/
  sent : List Q := []
  turn : Bytes → Turn Q := fun _ => .free
  /-- The requests that `ReadSidebandMessage` has returned to the server's loop. -/
  accepted : List Q := []

/-- What happens next. The server's loop decides itself what it does, the client is told. -/
inductive LoopStep (Q : Type)
  /-- The server's loop goes on. -/
  | server
  /-- The client begins to write a request. -/
  | write (request : Q)
  /-- The client begins to read a response. -/
  | read
  /-- The client goes on. -/
  | client

section Loops

variable {σ ε V η Q P α : Type}

namespace SharedLoops

/-- The segment that a party's handle works on. -/
def slot (stream : SharedStream η) (side : Side) (s : SharedLoops σ ε V η Q P) : Bytes :=
  stream.slot (s.service.transport.party side).derived

/-- Perform a call, if it returns. -/
def perform (x : Exec (MonikerState σ ε V (Parties η)) α)
    (f : α → SharedLoops σ ε V η Q P → SharedLoops σ ε V η Q P) (s : SharedLoops σ ε V η Q P) :
    Option (SharedLoops σ ε V η Q P) :=
  match x.run s.service with
  | .ok (a, service) => some (f a { s with service })
  | .error _ => none

theorem perform_eq_some {x : Exec (MonikerState σ ε V (Parties η)) α}
    {f : α → SharedLoops σ ε V η Q P → SharedLoops σ ε V η Q P} {s s' : SharedLoops σ ε V η Q P}
    (h : s.perform x f = some s') :
    ∃ a service, x.run s.service = .ok (a, service) ∧ f a { s with service } = s' := by
  rw [perform] at h
  split at h
  · next a service hrun => exact ⟨a, service, hrun, Option.some.inj h⟩
  · cases h

theorem perform_of_ok {x : Exec (MonikerState σ ε V (Parties η)) α}
    (f : α → SharedLoops σ ε V η Q P → SharedLoops σ ε V η Q P) {s : SharedLoops σ ε V η Q P}
    {a : α} {service : MonikerState σ ε V (Parties η)} (h : x.run s.service = .ok (a, service)) :
    s.perform x f = some (f a { s with service }) := by
  rw [perform, h]

end SharedLoops

/-- A call of a party's handle. -/
def partyCall (side : Side) (x : Exec (WithShm η) α) : Exec (MonikerState σ ε V (Parties η)) α :=
  onTransport (on side (SidebandData.call x))

/-- A call that returns changes the caller's handle and the memory. -/
theorem of_run_partyCall {side : Side} {x : Exec (WithShm η) α} {a : α}
    {service service' : MonikerState σ ε V (Parties η)}
    (h : (partyCall side x).run service = .ok (a, service')) :
    ∃ w, x.run (service.transport.world side) = .ok (a, w) ∧
      service' = { service with transport := service.transport.step side w } := by
  obtain ⟨transport, htransport, rfl⟩ := Exec.run_zoom_eq_ok_iff.mp h
  obtain ⟨o, ho, rfl⟩ := Exec.run_zoom_eq_ok_iff.mp htransport
  obtain ⟨w, hw, rfl⟩ := Exec.run_zoom_eq_ok_iff.mp ho
  exact ⟨w, hw, rfl⟩

theorem SharedLoops.perform_partyCall {side : Side} {x : Exec (WithShm η) α}
    {f : α → SharedLoops σ ε V η Q P → SharedLoops σ ε V η Q P} {s s' : SharedLoops σ ε V η Q P}
    (h : s.perform (partyCall side x) f = some s') :
    ∃ a w, x.run (s.service.transport.world side) = .ok (a, w) ∧
      f a { s with service.transport := s.service.transport.step side w } = s' := by
  obtain ⟨a, service, hrun, hs'⟩ := perform_eq_some h
  obtain ⟨w, hw, rfl⟩ := of_run_partyCall hrun
  exact ⟨a, w, hw, hs'⟩

/-! ### Steps -/

variable (behave : ε → ℤ → V → σ → V × σ) (stream : SharedStream η)
  (requestFormat : WireFormat ({} : SidebandWriteRequest V))
  (responseFormat : WireFormat ({} : SidebandReadResponse V))

/-- What the client-first branch does between reading a request and writing its response. The
other branch is left out. -/
def handleRequest [Inhabited V] {τ : Type} (readers writers : EndpointList ε)
    (writeRequest : SidebandWriteRequest V) :
    Exec (MonikerState σ ε V τ) (Option (SidebandReadResponse V)) := do
  let _ ← callIndexed behave writers 0 writeRequest.values
  if readers.length > 0 then return some (← sidebandClientFirstResponse behave readers)
  else return none

/-- The loops of a stream whose messages have the two formats. -/
abbrev StreamLoops (σ ε V η : Type) (requestFormat : WireFormat ({} : SidebandWriteRequest V))
    (responseFormat : WireFormat ({} : SidebandReadResponse V)) : Type :=
  SharedLoops σ ε V η requestFormat.Message responseFormat.Message

/-- Where `ReadSidebandMessage` leads: a failed read, and a request that cancels the stream, end
the loop. -/
def ServerPhase.afterRead (requestFormat : WireFormat ({} : SidebandWriteRequest V))
    (success : Option requestFormat.Message) : ServerPhase requestFormat.Message P :=
  match success with
  | none => .returned
  | some writeRequest => if writeRequest.val.cancel then .returned else .handle writeRequest

/-- Where the endpoints lead: without a read endpoint there is no response. -/
def ServerPhase.afterHandle (readResult : Option P) : ServerPhase Q P :=
  match readResult with
  | none => .beginRead
  | some readResult => .beginWrite readResult

/-- Where `WriteSidebandMessage` leads: the loop takes the size of its message for success, and a
response without bytes for a failure. -/
def ServerPhase.afterWrite (byteSize : ℤ) : ServerPhase Q P :=
  if byteSize = 0 then .returned else .beginRead

/-- The next step of the server's loop: one of the three calls of a read or of a write, or the
endpoints' part of a round. -/
def serverStep [Inhabited V] (readers writers : EndpointList ε)
    (s : StreamLoops σ ε V η requestFormat responseFormat) :
    Option (StreamLoops σ ε V η requestFormat responseFormat) :=
  let name := s.slot stream .owner
  match s.server with
  | .beginRead =>
    s.perform (partyCall .owner stream.methods.beginDirectReadLengthPrefixed)
      fun (buffer, bufferSize) t =>
        { t with
          server := .parse buffer bufferSize
          turn := Function.update s.turn name (s.turn name).beginRead }
  | .parse buffer bufferSize =>
    s.perform (partyCall .owner
        (parseFromArray requestFormat.messageLite stream.methods buffer (bufferSize.getD 0)))
      fun success t =>
        { t with server := .finishRead success, turn := Function.update s.turn name .free }
  | .finishRead success =>
    s.perform (partyCall .owner stream.methods.finishDirectRead) fun _ t =>
      { t with
        server := .afterRead requestFormat success
        accepted := s.accepted ++ success.toList }
  | .handle writeRequest =>
    s.perform (do
        match ← handleRequest behave readers writers writeRequest.val with
        | none => return none
        | some readResult => return some (← responseFormat.sendable readResult))
      fun readResult t => { t with server := .afterHandle readResult }
  | .beginWrite readResult =>
    s.perform (partyCall .owner stream.methods.beginDirectWrite) fun buffer t =>
      { t with server := .serialize readResult buffer }
  | .serialize readResult buffer =>
    s.perform (partyCall .owner
        (serializeToArray responseFormat.messageLite stream.methods readResult buffer))
      fun _ t =>
        { t with server := .finishWrite readResult, turn := Function.update s.turn name .free }
  | .finishWrite readResult =>
    s.perform (do
        let _ ← partyCall .owner
          (stream.methods.finishDirectWrite (byteSizeLong responseFormat.messageLite readResult))
        responded readResult.val.values)
      fun _ t =>
        { t with server := .afterWrite (byteSizeLong responseFormat.messageLite readResult) }
  | .returned => none

/-- The next step of a client that has begun a call of `WriteSidebandMessage` or
`ReadSidebandMessage`. -/
def clientStep (s : StreamLoops σ ε V η requestFormat responseFormat) :
    Option (StreamLoops σ ε V η requestFormat responseFormat) :=
  let name := s.slot stream .client
  match s.client with
  | .idle => none
  | .serialize request buffer =>
    s.perform (partyCall .client
        (serializeToArray requestFormat.messageLite stream.methods request buffer))
      fun _ t =>
        { t with
          client := .finishWrite request
          turn := Function.update s.turn name (.written request) }
  | .finishWrite request =>
    s.perform (partyCall .client
        (stream.methods.finishDirectWrite (byteSizeLong requestFormat.messageLite request)))
      fun _ t =>
        { t with
          client := .idle
          sent := s.sent ++ [request]
          turn := Function.update s.turn name (s.turn name).finishWrite }
  | .parse buffer bufferSize =>
    s.perform (partyCall .client
        (parseFromArray responseFormat.messageLite stream.methods buffer (bufferSize.getD 0)))
      fun _ t => { t with client := .finishRead }
  | .finishRead =>
    s.perform (partyCall .client stream.methods.finishDirectRead) fun _ t =>
      { t with client := .idle }

/-- The server's loop and a client, over segments that hold zeros: every interleaving of their
calls on the two handles. The endpoints' part of a round is one step, no other thread calls the
endpoints, and no system call fails. A call that goes out of bounds is no step. -/
def sharedLoops [Inhabited V] (readers writers : EndpointList ε) :
    Machine (StreamLoops σ ε V η requestFormat responseFormat)
      (LoopStep requestFormat.Message) where
  init s := ∃ (shm : Shm) (shared : σ), shm.calls = [] ∧
    (∀ name ∈ stream.names, shm.view name stream.size = List.replicate stream.size 0) ∧
    s = { service := ⟨shared, [], .opened stream.handle stream.size shm⟩ }
  next s
    | .server => serverStep behave stream requestFormat responseFormat readers writers s
    | .write request =>
      match s.client with
      | .idle =>
        s.perform (partyCall .client stream.methods.beginDirectWrite) fun buffer t =>
          { t with client := .serialize request buffer }
      | _ => none
    | .read =>
      match s.client with
      | .idle =>
        s.perform (partyCall .client stream.methods.beginDirectReadLengthPrefixed)
          fun (buffer, bufferSize) t => { t with client := .parse buffer bufferSize }
      | _ => none
    | .client => clientStep stream requestFormat responseFormat s

/-! ### The server's steps as rounds -/

theorem onTransport_bind {τ β : Type} (x : Exec τ α) (f : α → Exec τ β) :
    (onTransport (x >>= f) : Exec (MonikerState σ ε V τ) β) =
      onTransport x >>= fun a => onTransport (f a) := by
  refine Exec.zoom_bind ?_ ?_ x f
  · exact fun _ _ => rfl
  · exact fun _ _ _ => rfl

theorem onTransport_pure {τ : Type} (a : α) :
    (onTransport (pure a : Exec τ α) : Exec (MonikerState σ ε V τ) α) = pure a := by
  refine Exec.zoom_pure ?_ a
  exact fun _ => rfl

theorem partyCall_bind {β : Type} (side : Side) (x : Exec (WithShm η) α)
    (f : α → Exec (WithShm η) β) :
    (partyCall side (x >>= f) : Exec (MonikerState σ ε V (Parties η)) β) =
      partyCall side x >>= fun a => partyCall side (f a) := by
  have hon (x : Exec (SidebandData (WithShm η)) α) (f : α → Exec (SidebandData (WithShm η)) β) :
      on side (x >>= f) = on side x >>= fun a => on side (f a) := by
    refine Exec.zoom_bind ?_ ?_ x f
    · intro o s
      cases side <;> rfl
    · intro o o' s
      cases side <;> rfl
  rw [partyCall, SidebandData.call_bind, hon, onTransport_bind]
  rfl

theorem partyCall_pure (side : Side) (a : α) :
    (partyCall side (pure a : Exec (WithShm η) α) : Exec (MonikerState σ ε V (Parties η)) α) =
      pure a := by
  have hon : (on side (pure a) : Exec (Parties η) α) = pure a := by
    refine Exec.zoom_pure (fun s => ?_) a
    cases side <;> rfl
  rw [partyCall, SidebandData.call_pure, hon, onTransport_pure]

/-- The message functions on the owner's handle, each from start to end with no step of the
client in between. -/
def sharedChannel : MessageChannel (Parties η) V where
  read := do
    let request ← on .owner (readSidebandMessage requestFormat.messageLite stream.methods)
    return request.map Subtype.val
  write response := do
    let response ← responseFormat.sendable response
    on .owner (writeSidebandMessage responseFormat.messageLite stream.methods response)

theorem onTransport_read :
    (onTransport (sharedChannel stream requestFormat responseFormat).read :
      Exec (MonikerState σ ε V (Parties η)) _) = do
        let request ← partyCall .owner (directRead requestFormat.messageLite stream.methods)
        return request.map Subtype.val := by
  rw [sharedChannel, readSidebandMessage_direct stream.direct, onTransport_bind]
  simp only [onTransport_pure]
  rfl

/-- The bytes of a response go to the segment only if protobuf serializes it. -/
theorem run_onTransport_write {response : SidebandReadResponse V} {byteSize : ℤ}
    {service service' : MonikerState σ ε V (Parties η)}
    (h : (onTransport ((sharedChannel stream requestFormat responseFormat).write response)).run
      service = .ok (byteSize, service')) :
    ∃ message : responseFormat.Message, message.val = response ∧
      (∀ {τ : Type} (s : τ), (responseFormat.sendable response).run s = .ok (message, s)) ∧
      (partyCall .owner (directWrite responseFormat.messageLite stream.methods message)).run
        service = .ok (byteSize, service') := by
  rw [sharedChannel] at h
  by_cases hsize : (responseFormat.serialize response).length < 2 ^ 31
  · refine ⟨⟨response, hsize⟩, rfl, ?_, ?_⟩
    · intro τ s
      rw [WireFormat.sendable, dif_pos hsize]
      rfl
    · simp only [WireFormat.sendable, dif_pos hsize, pure_bind,
        writeSidebandMessage_direct stream.direct] at h
      exact h
  · simp only [WireFormat.sendable, dif_neg hsize] at h
    cases h

section Rounds

variable [Inhabited V] (readers writers : EndpointList ε)

/-- The server's loop takes steps, and the client none, until the loops are as `P` says. So it is
that a round is among the runs of the machine. -/
def ServerLeads (s : StreamLoops σ ε V η requestFormat responseFormat)
    (P : StreamLoops σ ε V η requestFormat responseFormat → Prop) : Prop :=
  ∃ t, Relation.ReflTransGen (fun s t =>
    (sharedLoops behave stream requestFormat responseFormat readers writers).next s .server =
      some t) s t ∧ P t

variable {behave stream requestFormat responseFormat readers writers}
  {s : StreamLoops σ ε V η requestFormat responseFormat}
  {P : StreamLoops σ ε V η requestFormat responseFormat → Prop}
  {service service' : MonikerState σ ε V (Parties η)}

theorem ServerLeads.refl (h : P s) :
    ServerLeads behave stream requestFormat responseFormat readers writers s P :=
  ⟨s, .refl, h⟩

/-- A step that performs a call, and the steps after it. -/
theorem ServerLeads.perform {x : Exec (MonikerState σ ε V (Parties η)) α}
    {f : α → StreamLoops σ ε V η requestFormat responseFormat →
      StreamLoops σ ε V η requestFormat responseFormat} {a : α}
    (hstep : serverStep behave stream requestFormat responseFormat readers writers s =
      SharedLoops.perform x f s)
    (hrun : x.run s.service = .ok (a, service))
    (hrest : ServerLeads behave stream requestFormat responseFormat readers writers
      (f a { s with service }) P) :
    ServerLeads behave stream requestFormat responseFormat readers writers s P := by
  obtain ⟨t, hsteps, ht⟩ := hrest
  exact ⟨t, .head (hstep.trans (SharedLoops.perform_of_ok f hrun)) hsteps, ht⟩

/-- A call of `ReadSidebandMessage` is three steps. -/
theorem ServerLeads.read (hserver : s.server = .beginRead) {success : Option requestFormat.Message}
    (hrun : (partyCall .owner (directRead requestFormat.messageLite stream.methods)).run s.service =
      .ok (success, service))
    (hrest : ∀ t : StreamLoops σ ε V η requestFormat responseFormat, t.service = service →
      t.server = .afterRead requestFormat success →
      ServerLeads behave stream requestFormat responseFormat readers writers t P) :
    ServerLeads behave stream requestFormat responseFormat readers writers s P := by
  rw [directRead, partyCall_bind, Exec.run_bind_eq_ok_iff] at hrun
  obtain ⟨⟨buffer, bufferSize⟩, s₁, hbegin, hrun⟩ := hrun
  rw [partyCall_bind, Exec.run_bind_eq_ok_iff] at hrun
  obtain ⟨success', s₂, hparse, hrun⟩ := hrun
  rw [partyCall_bind, Exec.run_bind_eq_ok_iff] at hrun
  obtain ⟨finished, s₃, hfinish, hrun⟩ := hrun
  rw [partyCall_pure, Exec.run_pure] at hrun
  obtain ⟨rfl, rfl⟩ := Prod.mk.inj (Except.ok.inj hrun)
  refine .perform (by rw [serverStep, hserver]) hbegin ?_
  refine .perform (by rw [serverStep]) hparse ?_
  exact .perform (by rw [serverStep]) hfinish (hrest _ rfl rfl)

/-- A call of `WriteSidebandMessage`, with the record of the response, is three steps. -/
theorem ServerLeads.write {readResult : responseFormat.Message}
    (hserver : s.server = .beginWrite readResult) {byteSize : ℤ}
    (hrun : (partyCall .owner (directWrite responseFormat.messageLite stream.methods
      readResult)).run s.service = .ok (byteSize, service))
    (hresponded : (responded readResult.val.values).run service = .ok ((), service'))
    (hrest : ∀ t : StreamLoops σ ε V η requestFormat responseFormat, t.service = service' →
      t.server = .afterWrite byteSize →
      ServerLeads behave stream requestFormat responseFormat readers writers t P) :
    ServerLeads behave stream requestFormat responseFormat readers writers s P := by
  rw [directWrite, partyCall_bind, Exec.run_bind_eq_ok_iff] at hrun
  obtain ⟨buffer, s₁, hbegin, hrun⟩ := hrun
  rw [partyCall_bind, Exec.run_bind_eq_ok_iff] at hrun
  obtain ⟨stored, s₂, hserialize, hrun⟩ := hrun
  rw [partyCall_bind, Exec.run_bind_eq_ok_iff] at hrun
  obtain ⟨finished, s₃, hfinish, hrun⟩ := hrun
  rw [partyCall_pure, Exec.run_pure] at hrun
  obtain ⟨rfl, rfl⟩ := Prod.mk.inj (Except.ok.inj hrun)
  refine .perform (by rw [serverStep, hserver]) hbegin ?_
  refine .perform (by rw [serverStep]) hserialize ?_
  exact .perform (by rw [serverStep]) ((Exec.run_bind_ok hfinish).trans hresponded)
    (hrest _ rfl rfl)

/-- Uninterrupted, the server's steps make a round of the loop. -/
theorem serverLeads_round (hserver : s.server = .beginRead) {next : Option Unit}
    (hrun : (sidebandClientFirst behave (sharedChannel stream requestFormat responseFormat) readers
      writers ()).run s.service = .ok (next, service)) :
    ServerLeads behave stream requestFormat responseFormat readers writers s fun t =>
      t.service = service ∧ t.server = if next.isSome then .beginRead else .returned := by
  rw [sidebandClientFirst, onTransport_read, bind_assoc, Exec.run_bind_eq_ok_iff] at hrun
  obtain ⟨success, s₁, hread, hrun⟩ := hrun
  rw [pure_bind] at hrun
  refine .read hserver hread fun t ht htserver => ?_
  -- a read that fails ends the loop
  rcases success with - | ⟨writeRequest, hlength⟩
  · cases hrun
    exact .refl ⟨ht, htserver⟩
  dsimp only [Option.map_some] at hrun
  -- so does a cancel
  by_cases hcancel : writeRequest.cancel = true
  · rw [if_pos hcancel] at hrun
    cases hrun
    exact .refl ⟨ht, htserver.trans (if_pos hcancel)⟩
  rw [if_neg hcancel, Exec.run_bind_eq_ok_iff] at hrun
  obtain ⟨values, s₂, hwrite, hrun⟩ := hrun
  have hphase : t.server = .handle ⟨writeRequest, hlength⟩ := htserver.trans (if_neg hcancel)
  subst ht
  -- there is a response to write exactly if there is a reader
  by_cases hreaders : readers.length > 0
  · rw [if_pos hreaders, Exec.run_bind_eq_ok_iff] at hrun
    obtain ⟨readResult, s₃, hresponse, hrun⟩ := hrun
    rw [writeSidebandResponse, bind_assoc, Exec.run_bind_eq_ok_iff] at hrun
    obtain ⟨byteSize, s₄, hsend, hrun⟩ := hrun
    obtain ⟨message, rfl, hsendable, hdirect⟩ := run_onTransport_write stream _ _ hsend
    have hhandle : (handleRequest behave readers writers writeRequest).run t.service =
        .ok (some message.val, s₃) := by
      rw [handleRequest, Exec.run_bind_ok hwrite, if_pos hreaders, Exec.run_bind_ok hresponse]
      rfl
    refine .perform (by rw [serverStep, hphase]) ((Exec.run_bind_ok hhandle).trans
      (Exec.run_bind_ok (hsendable s₃))) ?_
    cases hrun
    refine .write rfl hdirect rfl fun u hu huserver => .refl ⟨hu, huserver.trans ?_⟩
    by_cases hzero : byteSize = 0
    · simp [ServerPhase.afterWrite, hzero]
    · simp [ServerPhase.afterWrite, hzero]
  · rw [if_neg hreaders] at hrun
    cases hrun
    have hhandle : (handleRequest behave readers writers writeRequest).run t.service =
        .ok (none, service) := by
      rw [handleRequest, Exec.run_bind_ok hwrite, if_neg hreaders]
      rfl
    exact .perform (by rw [serverStep, hphase]) (Exec.run_bind_ok hhandle) (.refl ⟨rfl, rfl⟩)

end Rounds

end Loops

end Sideband
