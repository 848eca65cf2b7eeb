import Sideband.Moniker.SharedLoops
import Sideband.Sockets.Session

/-!
# The two loops of a stream over a socket

The client-first branch of `RunSidebandReadWriteLoop` on the owner's end of a connection, and a
client that calls `WriteSidebandMessage` and `ReadSidebandMessage` on its own end, in any order and
as often as it wants. A step (`socketLoops`) is one `send` or `recv` of a party, an arrival of
bytes, or what a loop does between two calls, so a run is an interleaving of all of these.

* `answersRequests_of_reachable`: the requests that the server has handled are the first ones of the
  client, each handled once and in order, and the `k`th response that the client reads is the one to
  its `k`th request.
-/

namespace Sideband

open Foundation

/-! ### States -/

/-- Where the server's loop is: the step that comes next. In `reading` and `writing` the steps
are those of the party's call. -/
inductive LoopPhase (Q P : Type)
  | beginRead
  /-- In `ReadSidebandMessage`. -/
  | reading
  /-- Call the endpoints. -/
  | handle (writeRequest : Q)
  | beginWrite (readResult : P)
  /-- In `WriteSidebandMessage`. -/
  | writing (readResult : P)
  /-- The loop is over. -/
  | returned
  deriving DecidableEq, Repr

/-- The two parties, the endpoints behind the server, where the server is, and a record of the
requests that the client has begun to write, of which the last one may not be written completely. -/
structure SocketLoops (σ ε V Q P : Type) where
  session : SocketSession
  service : MonikerState σ ε V Unit
  server : LoopPhase Q P := .beginRead
  requests : List Q := []

/-- What happens next: a system call of a party, an arrival, a step of the server's loop between
two calls, or a call that the client begins. -/
inductive SocketLoopStep (Q : Type)
  /-- The server's loop goes on between two calls. -/
  | server
  /-- The client begins to write a request. -/
  | write (request : Q)
  /-- The client begins to read a response. -/
  | read
  | send (side : Side) (count : ℕ)
  | recv (side : Side) (e : RecvEvent)
  | deliver (side : Side) (count : ℕ)
  deriving DecidableEq, Repr

section Loops

variable {σ ε V Q P : Type}

namespace SocketLoops

variable (s : SocketLoops σ ε V Q P)

/-- A party's handle and call. -/
abbrev party (side : Side) : SocketParty := s.session.party side

def setParty (side : Side) (p : SocketParty) : SocketLoops σ ε V Q P :=
  { s with session := s.session.set side p }

@[simp]
theorem party_setParty_self (side : Side) (p : SocketParty) : (s.setParty side p).party side = p :=
  SocketSession.party_set_self side p s.session

@[simp]
theorem party_setParty_peer (side : Side) (p : SocketParty) :
    (s.setParty side p).party side.peer = s.party side.peer :=
  SocketSession.party_set_peer side p s.session

end SocketLoops

/-! ### Steps -/

variable (behave : ε → ℤ → V → σ → V × σ)
  (requestFormat : WireFormat ({} : SidebandWriteRequest V))
  (responseFormat : WireFormat ({} : SidebandReadResponse V))

/-- The loops of a stream whose messages have the two formats. -/
abbrev SocketStreamLoops (σ ε V : Type) (requestFormat : WireFormat ({} : SidebandWriteRequest V))
    (responseFormat : WireFormat ({} : SidebandReadResponse V)) : Type :=
  SocketLoops σ ε V requestFormat.Message responseFormat.Message

/-- Where `ReadSidebandMessage` leads: a failed read, and a request that cancels the stream, end
the loop. -/
def LoopPhase.afterRead (requestFormat : WireFormat ({} : SidebandWriteRequest V))
    (success : Option requestFormat.Message) : LoopPhase requestFormat.Message P :=
  match success with
  | none => .returned
  | some writeRequest => if writeRequest.val.cancel then .returned else .handle writeRequest

/-- Where the endpoints lead: without a read endpoint there is no response. -/
def LoopPhase.afterHandle (readResult : Option P) : LoopPhase Q P :=
  match readResult with
  | none => .beginRead
  | some readResult => .beginWrite readResult

/-- Where `WriteSidebandMessage` leads: the loop takes the size of its message for success, and a
response without bytes for a failure. -/
def LoopPhase.afterWrite (byteSize : ℤ) : LoopPhase Q P :=
  if byteSize = 0 then .returned else .beginRead

/-- The endpoints' part of a round, with the response as a message that protobuf serializes. One
that is too long for that is undefined, as it is in the source. -/
def sendableResponse [Inhabited V] {τ : Type} (readers writers : EndpointList ε)
    (writeRequest : SidebandWriteRequest V) :
    Exec (MonikerState σ ε V τ) (Option responseFormat.Message) := do
  match ← handleRequest behave readers writers writeRequest with
  | none => return none
  | some readResult => return some (← responseFormat.sendable readResult)

/-- The next step of the server's loop, between two calls or at the end of one. In the midst of a
call there is none: the call goes on by `send` and `recv`. -/
def socketServerStep [Inhabited V] (readers writers : EndpointList ε)
    (s : SocketStreamLoops σ ε V requestFormat responseFormat) :
    Option (SocketStreamLoops σ ε V requestFormat responseFormat) :=
  let owner := s.party .owner
  match s.server with
  | .beginRead => owner.beginRead.map fun p => { s.setParty .owner p with server := .reading }
  | .reading =>
    if owner.call = .idle then
      owner.read.getLast?.map fun payload =>
        { s with server := .afterRead requestFormat (requestFormat.messageLite.parse payload) }
    else none
  | .handle writeRequest =>
    match (sendableResponse behave responseFormat readers writers writeRequest.val).run
      s.service with
    | .ok (readResult, service) => some { s with service, server := .afterHandle readResult }
    | .error _ => none
  | .beginWrite readResult =>
    (owner.beginWrite (responseFormat.messageLite.serialize readResult)).map fun p =>
      { s.setParty .owner p with server := .writing readResult }
  | .writing readResult =>
    if owner.call = .idle then
      some { s with
        service.events := s.service.events ++ [.respond readResult.val.values]
        server := .afterWrite (byteSizeLong responseFormat.messageLite readResult) }
    else none
  | .returned => none

/-- The client-first branch of `RunSidebandReadWriteLoop`, with the endpoints `readers` and
`writers` that the monikers have been resolved to, and a client that writes any requests and
reads at any time, on fresh handles with buffers of `size` bytes. A step is one system call of a
party, an arrival of bytes, or what the loop does between two calls; the endpoints' part of a
round is one step. Left out are a connection that fails or closes, a `send` that would block, and
other threads that call the endpoints. The machine has no step where the source's behaviour is
undefined: a request without a value for each writer, a response that does not fit. -/
def socketLoops [Inhabited V] (readers writers : EndpointList ε) (size : ℕ) (shared : σ) :
    Machine (SocketStreamLoops σ ε V requestFormat responseFormat)
      (SocketLoopStep requestFormat.Message) where
  init s := ∃ session, (socketSession size).init session ∧
    s = { session, service := ⟨shared, [], ()⟩ }
  next s
    | .server => socketServerStep behave requestFormat responseFormat readers writers s
    | .write request =>
      ((s.party .client).beginWrite (requestFormat.messageLite.serialize request)).map fun p =>
        { s.setParty .client p with requests := s.requests ++ [request] }
    | .read => (s.party .client).beginRead.map (s.setParty .client)
    | .send side count => ((s.party side).send count).map (s.setParty side)
    | .recv side e => ((s.party side).recv e).map (s.setParty side)
    | .deliver side count => (s.session.deliver side count).map fun session => { s with session }

/-! ### The session under the loops -/

section Session

variable [Inhabited V] {behave requestFormat responseFormat} {readers writers : EndpointList ε}
  {size : ℕ} {shared : σ} {s s' : SocketStreamLoops σ ε V requestFormat responseFormat}

variable (behave readers writers) in
/-- What the server's loop does from each place. -/
inductive ServerStep (s : SocketStreamLoops σ ε V requestFormat responseFormat) :
    LoopPhase requestFormat.Message responseFormat.Message →
      SocketStreamLoops σ ε V requestFormat responseFormat → Prop
  | beginRead {p : SocketParty} (h : (s.party .owner).beginRead = some p) :
      ServerStep s .beginRead { s.setParty .owner p with server := .reading }
  | reading {payload : Bytes} (hidle : (s.party .owner).call = .idle)
      (h : (s.party .owner).read.getLast? = some payload) : ServerStep s .reading
        { s with server := .afterRead requestFormat (requestFormat.messageLite.parse payload) }
  | handle {writeRequest : requestFormat.Message} {readResult : Option responseFormat.Message}
      {service : MonikerState σ ε V Unit}
      (h : (sendableResponse behave responseFormat readers writers writeRequest.val).run s.service =
        .ok (readResult, service)) :
      ServerStep s (.handle writeRequest) { s with service, server := .afterHandle readResult }
  | beginWrite {readResult : responseFormat.Message} {p : SocketParty}
      (h : (s.party .owner).beginWrite (responseFormat.serialize readResult.val) = some p) :
      ServerStep s (.beginWrite readResult)
        { s.setParty .owner p with server := .writing readResult }
  | writing {readResult : responseFormat.Message} (hidle : (s.party .owner).call = .idle) :
      ServerStep s (.writing readResult)
        { s with
          service.events := s.service.events ++ [.respond readResult.val.values]
          server := .afterWrite (byteSizeLong responseFormat.messageLite readResult) }

theorem serverStep_of_eq_some
    (h : socketServerStep behave requestFormat responseFormat readers writers s = some s') :
    ServerStep behave readers writers s s.server s' := by
  rw [socketServerStep] at h
  dsimp only at h
  cases hphase : s.server with
  | beginRead =>
    rw [hphase] at h
    obtain ⟨p, hp, rfl⟩ := Option.map_eq_some_iff.mp h
    exact .beginRead hp
  | reading =>
    rw [hphase] at h
    dsimp only at h
    split_ifs at h with hidle
    obtain ⟨payload, hlast, rfl⟩ := Option.map_eq_some_iff.mp h
    exact .reading hidle hlast
  | handle writeRequest =>
    rw [hphase] at h
    dsimp only at h
    split at h
    · next readResult service hrun =>
      obtain rfl := Option.some.inj h
      exact .handle hrun
    · cases h
  | beginWrite readResult =>
    rw [hphase] at h
    obtain ⟨p, hp, rfl⟩ := Option.map_eq_some_iff.mp h
    exact .beginWrite hp
  | writing readResult =>
    rw [hphase] at h
    dsimp only at h
    split_ifs at h with hidle
    obtain rfl := Option.some.inj h
    exact .writing hidle
  | returned =>
    rw [hphase] at h
    cases h

variable (size) in
/-- A step of the server's loop begins a call, or leaves the session. -/
theorem ServerStep.session {phase : LoopPhase requestFormat.Message responseFormat.Message}
    (h : ServerStep behave readers writers s phase s') : s'.session = s.session ∨
      ∃ a, (socketSession size).next s.session (.party .owner a) = some s'.session := by
  cases h with
  | beginRead hp => exact .inr ⟨.beginRead, Option.map_eq_some_iff.mpr ⟨_, hp, rfl⟩⟩
  | beginWrite hp => exact .inr ⟨.beginWrite _, Option.map_eq_some_iff.mpr ⟨_, hp, rfl⟩⟩
  | _ => exact .inl rfl

/-- It leaves the client. -/
theorem ServerStep.frame {phase : LoopPhase requestFormat.Message responseFormat.Message}
    (h : ServerStep behave readers writers s phase s') :
    s'.party .client = s.party .client ∧ s'.requests = s.requests := by
  cases h <;> exact ⟨rfl, rfl⟩

variable (behave requestFormat responseFormat readers writers size shared) in
/-- The loops take the steps of a session, or leave it. What holds of every reachable session
holds of theirs. -/
theorem socketLoops_refines :
    Machine.Refinement (socketLoops behave requestFormat responseFormat readers writers size shared)
      Anything (socketSession size) (fun s t => s.session = t) where
  init s h := by
    obtain ⟨session, hinit, rfl⟩ := h
    exact ⟨session, hinit, rfl⟩
  step s t a s' h _ hnext := by
    subst h
    cases a with
    | server =>
      rcases (serverStep_of_eq_some hnext).session size with hsame | ⟨a, ha⟩
      · exact .inl hsame
      · exact .inr ⟨_, _, ha, rfl⟩
    | write request =>
      obtain ⟨p, hp, rfl⟩ := Option.map_eq_some_iff.mp hnext
      exact .inr ⟨.party .client (.beginWrite _), _, Option.map_eq_some_iff.mpr ⟨p, hp, rfl⟩, rfl⟩
    | read =>
      obtain ⟨p, hp, rfl⟩ := Option.map_eq_some_iff.mp hnext
      exact .inr ⟨.party .client .beginRead, _, Option.map_eq_some_iff.mpr ⟨p, hp, rfl⟩, rfl⟩
    | send side count =>
      obtain ⟨p, hp, rfl⟩ := Option.map_eq_some_iff.mp hnext
      exact .inr ⟨.party side (.send count), _, Option.map_eq_some_iff.mpr ⟨p, hp, rfl⟩, rfl⟩
    | recv side e =>
      obtain ⟨p, hp, rfl⟩ := Option.map_eq_some_iff.mp hnext
      exact .inr ⟨.party side (.recv e), _, Option.map_eq_some_iff.mpr ⟨p, hp, rfl⟩, rfl⟩
    | deliver side count =>
      obtain ⟨session, hsession, rfl⟩ := Option.map_eq_some_iff.mp hnext
      exact .inr ⟨.deliver side count, session, hsession, rfl⟩

/-- So the session is two queues of messages, -/
theorem isSession_of_reachable (h : (socketLoops behave requestFormat responseFormat readers
    writers size shared).Reachable Anything s) :
    ∃ t, sessionQueues.Reachable Anything t ∧ IsSession size s.session t := by
  obtain ⟨t, ht, rfl⟩ := (socketLoops_refines behave requestFormat responseFormat readers writers
    size shared).reachable h
  exact (socketSession_refines size).reachable ht

/-- and carries them. -/
theorem session_carriesMessages (h : (socketLoops behave requestFormat responseFormat readers
    writers size shared).Reachable Anything s) : CarriesMessages size s.session := by
  obtain ⟨t, ht, hsession⟩ := isSession_of_reachable h
  exact hsession.carriesMessages ht

end Session

/-! ### The endpoints' part of a round -/

section Endpoints

variable [Inhabited V] {responseFormat} {τ : Type} {readers writers : List (ε × ℤ)}
  {writeRequest : SidebandWriteRequest V} {service service' : MonikerState σ ε V τ}

/-- A request that is handled has the effect of its values, but for the record of the response. -/
theorem handleRequest_eq_ok {readResult : Option (SidebandReadResponse V)}
    (h : (handleRequest behave (pointers readers) (pointers writers) writeRequest).run service =
      .ok (readResult, service')) :
    let effect := requestEffect behave readers writers writeRequest.values service.shared
    service'.shared = effect.shared ∧
      (∃ calls, service'.events = service.events ++ callEvents calls ∧
        effect.events = callEvents calls ++ readResult.toList.map fun r => .respond r.values) ∧
      ∀ r ∈ readResult, r = { values? := some r.values } := by
  by_cases hvalues : writers.length ≤ writeRequest.values.length
  · obtain ⟨values', hwrite⟩ := run_callIndexed_zero behave service hvalues
    rw [handleRequest, Exec.run_bind_ok hwrite] at h
    rcases eq_or_ne readers [] with rfl | hreaders
    · have hnone : ¬ (pointers ([] : List (ε × ℤ))).length > 0 := Nat.lt_irrefl 0
      rw [if_neg hnone] at h
      cases h
      exact ⟨rfl, ⟨_, rfl, (List.append_nil _).symm⟩, fun r hr => (by cases hr)⟩
    · have hsome : (pointers readers).length > 0 := by
        rw [pointers, List.length_map]
        exact List.length_pos_iff.mpr hreaders
      rw [if_pos hsome, Exec.run_bind_ok (run_sidebandClientFirstResponse behave hreaders _)] at h
      cases h
      rw [requestEffect_of_ne_nil behave hreaders]
      refine ⟨rfl, ⟨writeCalls writers writeRequest.values ++ readCalls readers, ?_, ?_⟩,
        fun r hr => ?_⟩
      · simp [MonikerState.called, callEvents]
      · simp [streamEffect, callEvents, SidebandReadResponse.values, MonikerState.called]
      · obtain rfl := Option.some.inj hr
        rfl
  · rw [handleRequest, Exec.run_bind_error (run_callIndexed_outOfBounds behave
      (fun hin => hvalues (by simpa [pointers] using hin.2)) (Nat.zero_le _) service)] at h
    cases h

theorem sendableResponse_eq_ok {readResult : Option responseFormat.Message}
    (h : (sendableResponse behave responseFormat (pointers readers) (pointers writers)
      writeRequest).run service = .ok (readResult, service')) :
    (handleRequest behave (pointers readers) (pointers writers) writeRequest).run service =
      .ok (readResult.map Subtype.val, service') := by
  rw [sendableResponse, Exec.run_bind_eq_ok_iff] at h
  obtain ⟨result, service₁, hhandle, hsend⟩ := h
  rw [hhandle]
  cases result with
  | none =>
    cases hsend
    rfl
  | some response =>
    rw [Exec.run_bind_eq_ok_iff] at hsend
    obtain ⟨message, service₂, hmessage, hdone⟩ := hsend
    cases hdone
    rw [WireFormat.sendable] at hmessage
    split_ifs at hmessage
    · cases hmessage
      rfl
    · cases hmessage

end Endpoints

/-! ### What the server has done -/

section Served

variable {requestFormat responseFormat}

/-- A response whose calls are recorded, and which is not. -/
def LoopPhase.unanswered : LoopPhase Q responseFormat.Message → List (MonikerEvent ε V)
  | .beginWrite readResult => [.respond readResult.val.values]
  | .writing readResult => [.respond readResult.val.values]
  | _ => []

/-- Where the server's party is when its loop is at `phase`: it has read the messages `read` and
has answered with `frames`. It relates the loop to the calls, and says nothing of the endpoints. -/
def LoopAt (owner : SocketParty) (read frames : List Bytes) :
    LoopPhase requestFormat.Message responseFormat.Message → Prop
  | .beginRead => owner.call = .idle ∧ owner.read = read ∧ owner.written = frames
  | .reading => owner.written = frames ∧ (owner.call.receives ∧ owner.read = read ∨
      owner.call = .idle ∧ ∃ payload, owner.read = read ++ [payload])
  | .handle writeRequest => owner.call = .idle ∧
      owner.read = read ++ [requestFormat.serialize writeRequest.val] ∧
      writeRequest.val.cancel = false ∧ owner.written = frames
  | .beginWrite readResult => owner.call = .idle ∧ owner.read = read ∧
      owner.written ++ [responseFormat.serialize readResult.val] = frames
  | .writing readResult => owner.read = read ∧ ∃ earlier,
      frames = earlier ++ [responseFormat.serialize readResult.val] ∧
      (owner.sending = [responseFormat.serialize readResult.val] ∧ owner.written = earlier ∨
        owner.call = .idle ∧ owner.written = frames)
  | .returned => owner.call = .idle ∧ read <+: owner.read ∧ owner.written = frames

variable {owner owner' : SocketParty} {read frames : List Bytes}
  {phase : LoopPhase requestFormat.Message responseFormat.Message}

theorem LoopAt.congr (h : LoopAt owner read frames phase) (hcall : owner'.call = owner.call)
    (hread : owner'.read = owner.read) (hwritten : owner'.written = owner.written) :
    LoopAt owner' read frames phase := by
  have hsending : owner'.sending = owner.sending := by
    rw [SocketParty.sending, SocketParty.sending, hcall]
  cases phase <;> simpa only [LoopAt, hcall, hread, hwritten, hsending] using h

/-- A `send` of the server is one of its response. -/
theorem LoopAt.send (h : LoopAt owner read frames phase) {count : ℕ}
    (hsend : owner.send count = some owner') : LoopAt owner' read frames phase := by
  obtain ⟨hread, payload, hsending, hrest⟩ := SocketParty.send_records hsend
  have hidle : owner.call ≠ .idle := by
    intro hidle
    rw [SocketParty.sending_eq_nil hidle] at hsending
    cases hsending
  cases phase with
  | reading =>
    obtain ⟨-, ⟨hreceives, -⟩ | ⟨hcall, -⟩⟩ := h
    · rw [(SocketParty.of_receives hreceives).1] at hsending
      cases hsending
    · exact absurd hcall hidle
  | writing readResult =>
    obtain ⟨hread', earlier, hframes, ⟨hsending', hwritten⟩ | ⟨hcall, -⟩⟩ := h
    · obtain rfl : payload = _ := List.head_eq_of_cons_eq (hsending.symm.trans hsending')
      refine ⟨hread.trans hread', earlier, hframes, ?_⟩
      rcases hrest with ⟨hagain, hsame⟩ | ⟨hdone, hmore⟩
      · exact .inl ⟨hagain, hsame.trans hwritten⟩
      · exact .inr ⟨hdone, by rw [hmore, hwritten, hframes]⟩
    · exact absurd hcall hidle
  | _ => exact absurd h.1 hidle

/-- A `recv` of the server is one of a request. -/
theorem LoopAt.recv (h : LoopAt owner read frames phase) {e : RecvEvent}
    (hrecv : owner.recv e = some owner') : LoopAt owner' read frames phase := by
  obtain ⟨hreceives, hwritten, hrest⟩ := SocketParty.recv_records hrecv
  have hidle : owner.call ≠ .idle := by
    intro hidle
    rw [hidle] at hreceives
    cases hreceives
  cases phase with
  | reading =>
    obtain ⟨hframes, ⟨-, hread⟩ | ⟨hcall, -⟩⟩ := h
    · refine ⟨hwritten.trans hframes, ?_⟩
      rcases hrest with ⟨hagain, hsame⟩ | ⟨hdone, payload, hmore⟩
      · exact .inl ⟨hagain, hsame.trans hread⟩
      · exact .inr ⟨hdone, payload, by rw [hmore, hread]⟩
    · exact absurd hcall hidle
  | writing readResult =>
    obtain ⟨-, earlier, -, ⟨hsending, -⟩ | ⟨hcall, -⟩⟩ := h
    · rw [(SocketParty.of_receives hreceives).1] at hsending
      cases hsending
    · exact absurd hcall hidle
  | _ => exact absurd h.1 hidle

variable (requestFormat) [Inhabited V] (readers writers : List (ε × ℤ)) (initial : σ)

/-- The effect of the requests, from the state that the endpoints start in. The record of calls
is part of it. -/
def effectOf (handled : List requestFormat.Message) : Effect σ ε V :=
  requestsEffect behave readers writers (handled.map fun request => request.val.values) initial

variable {behave requestFormat readers writers initial}

theorem requestsEffect_append (requests requests' : List (List V)) (shared : σ) :
    requestsEffect behave readers writers (requests ++ requests') shared =
      let first := requestsEffect behave readers writers requests shared
      let rest := requestsEffect behave readers writers requests' first.shared
      ⟨first.events ++ rest.events, rest.shared⟩ := by
  induction requests generalizing shared with
  | nil => rfl
  | cons values requests ih =>
    rw [List.cons_append, requestsEffect, ih]
    simp only [requestsEffect, List.append_assoc]

/-- One more request. -/
theorem effectOf_concat (handled : List requestFormat.Message) (request : requestFormat.Message) :
    effectOf behave requestFormat readers writers initial (handled ++ [request]) =
      let first := effectOf behave requestFormat readers writers initial handled
      let last := requestEffect behave readers writers request.val.values first.shared
      ⟨first.events ++ last.events, last.shared⟩ := by
  rw [effectOf, List.map_append, requestsEffect_append]
  simp only [List.map_cons, List.map_nil, requestsEffect, List.append_nil]
  rfl

variable (behave readers writers initial) in
/-- The server has handled these requests, and is about to write the last response or has written
it. It is the server's half of the invariant. -/
structure ServesRequests (s : SocketStreamLoops σ ε V requestFormat responseFormat)
    (handled : List requestFormat.Message) : Prop where
  goesOn : ∀ request ∈ handled, request.val.cancel = false
  shared : s.service.shared =
    (effectOf behave requestFormat readers writers initial handled).shared
  events : s.service.events ++ s.server.unanswered =
    (effectOf behave requestFormat readers writers initial handled).events
  loopAt : LoopAt (s.party .owner) (handled.map fun request => requestFormat.serialize request.val)
    (responseFrames responseFormat
      (effectOf behave requestFormat readers writers initial handled).events) s.server

variable {s s' : SocketStreamLoops σ ε V requestFormat responseFormat}
  {handled : List requestFormat.Message}

theorem ServesRequests.congr (h : ServesRequests behave readers writers initial s handled)
    (hservice : s'.service = s.service) (hserver : s'.server = s.server)
    (hcall : (s'.party .owner).call = (s.party .owner).call)
    (hread : (s'.party .owner).read = (s.party .owner).read)
    (hwritten : (s'.party .owner).written = (s.party .owner).written) :
    ServesRequests behave readers writers initial s' handled where
  goesOn := h.goesOn
  shared := hservice ▸ h.shared
  events := by
    rw [hservice, hserver]
    exact h.events
  loopAt := by
    rw [hserver]
    exact h.loopAt.congr hcall hread hwritten

omit [Inhabited V] in
theorem LoopPhase.unanswered_afterWrite (byteSize : ℤ) :
    (LoopPhase.afterWrite byteSize : LoopPhase Q responseFormat.Message).unanswered =
      ([] : List (MonikerEvent ε V)) := by
  rw [LoopPhase.afterWrite]
  split_ifs <;> rfl

/-- The endpoints are called on the request that was read. -/
theorem ServesRequests.handle (h : ServesRequests behave readers writers initial s handled)
    {writeRequest : requestFormat.Message} (hphase : s.server = .handle writeRequest)
    {readResult : Option responseFormat.Message} {service : MonikerState σ ε V Unit}
    (hrun : (sendableResponse behave responseFormat (pointers readers) (pointers writers)
      writeRequest.val).run s.service = .ok (readResult, service)) :
    ServesRequests behave readers writers initial
      { s with service, server := .afterHandle readResult } (handled ++ [writeRequest]) := by
  have hloop := h.loopAt
  have hevents := h.events
  rw [hphase] at hloop hevents
  obtain ⟨hidle, hread, hcancel, hframes⟩ := hloop
  replace hevents : s.service.events = _ := (List.append_nil _).symm.trans hevents
  obtain ⟨hshared, ⟨calls, hcalls, heffect⟩, hshape⟩ :=
    handleRequest_eq_ok behave (sendableResponse_eq_ok behave hrun)
  rw [h.shared] at hshared heffect
  rw [hevents] at hcalls
  refine ⟨fun request hrequest => ?_, ?_, ?_, ?_⟩
  · rcases List.mem_append.mp hrequest with hold | hnew
    · exact h.goesOn request hold
    · rwa [List.mem_singleton.mp hnew]
  · rw [effectOf_concat]
    exact hshared
  · rw [effectOf_concat]
    change service.events ++ _ = _ ++ _
    rw [hcalls, heffect, List.append_assoc]
    cases readResult <;> rfl
  · rw [effectOf_concat, List.map_append]
    dsimp only
    rw [heffect, responseFrames_append, responseFrames_append, ← hframes,
      responseFrames, filterMap_callEvents, List.map_nil, List.nil_append]
    cases readResult with
    | none => exact ⟨hidle, hread, (List.append_nil _).symm⟩
    | some response =>
      refine ⟨hidle, hread, congrArg ((s.party .owner).written ++ [·]) ?_⟩
      exact congrArg responseFormat.serialize (hshape response.val rfl)

/-- The server's loop goes on: what it reads is a request of the client. -/
theorem ServesRequests.server (h : ServesRequests behave readers writers initial s handled)
    (hread : ∀ payload, (s.party .owner).read =
      (handled.map fun request => requestFormat.serialize request.val) ++ [payload] →
        ∃ request : requestFormat.Message, payload = requestFormat.serialize request.val)
    (hstep : socketServerStep behave requestFormat responseFormat (pointers readers)
      (pointers writers) s = some s') :
    ∃ handled', ServesRequests behave readers writers initial s' handled' := by
  have hloop := h.loopAt
  have hevents := h.events
  have hserver := serverStep_of_eq_some hstep
  generalize hphase : s.server = phase at hserver hloop hevents
  cases hserver with
  | @beginRead p hp =>
    obtain ⟨-, hreceives, hsame, hwritten⟩ := SocketParty.beginRead_records hp
    obtain ⟨-, hread', hframes⟩ := hloop
    refine ⟨handled, h.goesOn, h.shared, hevents, ?_⟩
    change LoopAt ((s.setParty .owner p).party .owner) _ _ _
    rw [SocketLoops.party_setParty_self]
    exact ⟨hwritten.trans hframes, .inl ⟨hreceives, hsame.trans hread'⟩⟩
  | @reading payload hidle hlast =>
    obtain ⟨hframes, ⟨hreceives, -⟩ | ⟨-, payload', hmore⟩⟩ := hloop
    · rw [hidle] at hreceives
      cases hreceives
    rw [hmore, List.getLast?_concat] at hlast
    obtain rfl := Option.some.inj hlast
    obtain ⟨request, rfl⟩ := hread payload' hmore
    have hparse : requestFormat.messageLite.parse (requestFormat.serialize request.val) =
        some request := requestFormat.messageLite.parse_serialize request
    rw [hparse, LoopPhase.afterRead]
    by_cases hcancel : request.val.cancel = true
    · rw [if_pos hcancel]
      exact ⟨handled, h.goesOn, h.shared, hevents, hidle, ⟨_, hmore.symm⟩, hframes⟩
    · rw [if_neg hcancel]
      exact ⟨handled, h.goesOn, h.shared, hevents, hidle, hmore,
        Bool.eq_false_of_not_eq_true hcancel, hframes⟩
  | handle hrun => exact ⟨_, h.handle hphase hrun⟩
  | @beginWrite _ p hp =>
    obtain ⟨-, hsending, hsame, hwritten⟩ := SocketParty.beginWrite_records hp
    obtain ⟨-, hread', hframes⟩ := hloop
    refine ⟨handled, h.goesOn, h.shared, hevents, ?_⟩
    change LoopAt ((s.setParty .owner p).party .owner) _ _ _
    rw [SocketLoops.party_setParty_self]
    exact ⟨hsame.trans hread', (s.party .owner).written, hframes.symm, .inl ⟨hsending, hwritten⟩⟩
  | writing hidle =>
    obtain ⟨hread', earlier, -, ⟨hsending, -⟩ | ⟨-, hframes⟩⟩ := hloop
    · rw [SocketParty.sending_eq_nil hidle] at hsending
      cases hsending
    refine ⟨handled, h.goesOn, h.shared, ?_, ?_⟩
    · rw [LoopPhase.unanswered_afterWrite, List.append_nil]
      exact hevents
    · change LoopAt (s.party .owner) _ _ (.afterWrite _)
      rw [LoopPhase.afterWrite]
      split_ifs
      · exact ⟨hidle, ⟨[], by rw [hread', List.append_nil]⟩, hframes⟩
      · exact ⟨hidle, hread', hframes⟩

/-! ### Every interleaving -/

variable (behave readers writers initial) in
/-- The server has handled the requests `handled`, and the client reads the responses to them.
Which requests these are depends on how far the loop has come; what is promised is that they are
the first ones, and what they have led to. -/
structure AnswersRequests (s : SocketStreamLoops σ ε V requestFormat responseFormat)
    (handled : List requestFormat.Message) : Prop where
  /-- They are the first ones that the client has written. -/
  requests : handled <+: s.requests
  written : (handled.map fun request => requestFormat.serialize request.val) <+:
    (s.party .client).written
  goesOn : ∀ request ∈ handled, request.val.cancel = false
  /-- The endpoints have been called on each of them once, in order. -/
  shared : s.service.shared =
    (effectOf behave requestFormat readers writers initial handled).shared
  events : s.service.events ++ s.server.unanswered =
    (effectOf behave requestFormat readers writers initial handled).events
  /-- The `k`th response that the client has read is the `k`th response of the server. -/
  responses : (s.party .client).read <+: responseFrames responseFormat
    (effectOf behave requestFormat readers writers initial handled).events

/-- The client has begun to write the requests. -/
def Writes (s : SocketStreamLoops σ ε V requestFormat responseFormat) : Prop :=
  (s.party .client).begun = s.requests.map fun request => requestFormat.serialize request.val

variable {size : ℕ}

omit [Inhabited V] in
/-- The server reads what the client has written. -/
theorem Writes.exists_request (hs : Writes s) (hsession : CarriesMessages size s.session)
    {read : List Bytes} {payload : Bytes} (hread : (s.party .owner).read = read ++ [payload]) :
    ∃ request ∈ s.requests, payload = requestFormat.serialize request.val := by
  have hahead := (hsession.inOrder .client).trans (List.prefix_append _ (s.party .client).sending)
  have hmem : payload ∈ s.requests.map fun request => requestFormat.serialize request.val := by
    rw [← hs]
    refine hahead.subset ?_
    change payload ∈ (s.party .owner).read
    rw [hread]
    exact List.mem_append_right _ List.mem_cons_self
  obtain ⟨request, hrequest, rfl⟩ := List.mem_map.mp hmem
  exact ⟨request, hrequest, rfl⟩

theorem serves_of_reachable (h : (socketLoops behave requestFormat responseFormat
    (pointers readers) (pointers writers) size initial).Reachable Anything s) :
    Writes s ∧ ∃ handled, ServesRequests behave readers writers initial s handled := by
  induction h with
  | init h =>
    obtain ⟨session, hsession, rfl⟩ := h
    obtain ⟨o, ho, -⟩ := hsession .owner
    obtain ⟨o', ho', -⟩ := hsession .client
    refine ⟨?_, [], fun request hrequest => (by cases hrequest), rfl, rfl, ?_⟩
    · change (session.party .client).begun = []
      rw [ho']
      rfl
    · change LoopAt (session.party .owner) _ _ _
      rw [ho]
      exact ⟨rfl, rfl, rfl⟩
  | @step s s' a hs _ hnext ih =>
    obtain ⟨hwrites, handled, hserves⟩ := ih
    have hsession := session_carriesMessages hs
    have hclient : ∀ p, p.begun = (s.party .client).begun → Writes (s.setParty .client p) :=
      fun p hp => by
        rw [Writes, SocketLoops.party_setParty_self, hp]
        exact hwrites
    have howner : ∀ p, Writes (s.setParty .owner p) := fun p => hwrites
    cases a with
    | server =>
      obtain ⟨hsame, hrequests⟩ := (serverStep_of_eq_some hnext).frame
      refine ⟨?_, hserves.server (fun payload hread => ?_) hnext⟩
      · rw [Writes, hsame, hrequests]
        exact hwrites
      · obtain ⟨request, -, hrequest⟩ := hwrites.exists_request hsession hread
        exact ⟨request, hrequest⟩
    | write request =>
      obtain ⟨p, hp, rfl⟩ := Option.map_eq_some_iff.mp hnext
      refine ⟨?_, handled, hserves.congr rfl rfl rfl rfl rfl⟩
      change ((s.setParty .client p).party .client).begun = _
      rw [SocketLoops.party_setParty_self, SocketParty.begun_beginWrite hp, hwrites,
        List.map_append]
      rfl
    | read =>
      obtain ⟨p, hp, rfl⟩ := Option.map_eq_some_iff.mp hnext
      exact ⟨hclient p (SocketParty.begun_beginRead hp), handled,
        hserves.congr rfl rfl rfl rfl rfl⟩
    | send side count =>
      obtain ⟨p, hp, rfl⟩ := Option.map_eq_some_iff.mp hnext
      cases side with
      | owner =>
        exact ⟨howner p, handled, hserves.goesOn, hserves.shared, hserves.events,
          hserves.loopAt.send hp⟩
      | client =>
        exact ⟨hclient p (SocketParty.begun_send hp), handled,
          hserves.congr rfl rfl rfl rfl rfl⟩
    | recv side e =>
      obtain ⟨p, hp, rfl⟩ := Option.map_eq_some_iff.mp hnext
      cases side with
      | owner =>
        exact ⟨howner p, handled, hserves.goesOn, hserves.shared, hserves.events,
          hserves.loopAt.recv hp⟩
      | client =>
        exact ⟨hclient p (SocketParty.begun_recv hp), handled,
          hserves.congr rfl rfl rfl rfl rfl⟩
    | deliver side count =>
      obtain ⟨session, hdeliver, rfl⟩ := Option.map_eq_some_iff.mp hnext
      have hframe := SocketSession.deliver_frame hdeliver
      refine ⟨?_, handled, hserves.congr rfl rfl (hframe .owner).call (hframe .owner).read
        (hframe .owner).written⟩
      change (session.party .client).begun = _
      rw [(hframe .client).begun]
      exact hwrites

omit [Inhabited V] in
theorem LoopAt.read_prefix {owner : SocketParty} {read frames : List Bytes}
    {phase : LoopPhase requestFormat.Message responseFormat.Message}
    (h : LoopAt owner read frames phase) : read <+: owner.read := by
  cases phase with
  | beginRead => exact h.2.1 ▸ List.prefix_rfl
  | reading =>
    obtain ⟨-, ⟨-, hread⟩ | ⟨-, payload, hread⟩⟩ := h
    · exact hread ▸ List.prefix_rfl
    · exact ⟨[payload], hread.symm⟩
  | handle writeRequest => exact ⟨_, h.2.1.symm⟩
  | beginWrite readResult => exact h.2.1 ▸ List.prefix_rfl
  | writing readResult => exact h.1 ▸ List.prefix_rfl
  | returned => exact h.2.1

omit [Inhabited V] in
theorem LoopAt.written_prefix {owner : SocketParty} {read frames : List Bytes}
    {phase : LoopPhase requestFormat.Message responseFormat.Message}
    (h : LoopAt owner read frames phase) : owner.written <+: frames := by
  cases phase with
  | beginRead => exact h.2.2 ▸ List.prefix_rfl
  | reading => exact h.1 ▸ List.prefix_rfl
  | handle writeRequest => exact h.2.2.2 ▸ List.prefix_rfl
  | beginWrite readResult => exact ⟨_, h.2.2⟩
  | writing readResult =>
    obtain ⟨-, earlier, hframes, ⟨-, hwritten⟩ | ⟨-, hwritten⟩⟩ := h
    · exact ⟨_, hwritten ▸ hframes.symm⟩
    · exact hwritten ▸ List.prefix_rfl
  | returned => exact h.2.2 ▸ List.prefix_rfl

omit [Inhabited V] in
theorem serialize_message_injective (format : WireFormat ({} : SidebandWriteRequest V)) :
    Function.Injective fun request : format.Message => format.serialize request.val := by
  intro request request' h
  have hparse := congrArg format.messageLite.parse h
  exact Option.some.inj (((format.messageLite.parse_serialize request).symm.trans hparse).trans
    (format.messageLite.parse_serialize request'))

/-- The requests that the server has handled are the first ones of the client. -/
theorem ServesRequests.prefix_requests (h : ServesRequests behave readers writers initial s handled)
    (hwrites : Writes s) (hsession : CarriesMessages size s.session) : handled <+: s.requests := by
  refine (List.prefix_map_iff_of_injective (serialize_message_injective requestFormat)).mp ?_
  rw [← hwrites]
  exact (h.loopAt.read_prefix.trans (hsession.inOrder .client)).trans (List.prefix_append _ _)

/-- **The server answers the requests of the client in order**, over every interleaving of the
two loops with the network. The requests may be of any kind, cancelling ones included, as long as
each has the values that its writers take; the connection does not fail. -/
theorem answersRequests_of_reachable (h : (socketLoops behave requestFormat responseFormat
    (pointers readers) (pointers writers) size initial).Reachable Anything s) :
    ∃ handled, AnswersRequests behave readers writers initial s handled := by
  obtain ⟨hwrites, handled, hserves⟩ := serves_of_reachable h
  have hsession := session_carriesMessages h
  exact ⟨handled, hserves.prefix_requests hwrites hsession,
    hserves.loopAt.read_prefix.trans (hsession.inOrder .client), hserves.goesOn, hserves.shared,
    hserves.events, (hsession.inOrder .owner).trans hserves.loopAt.written_prefix⟩

end Served

section Store

/-- A client writes its second request while the server answers the first one. -/
theorem answersRequests_of_reachable_store :
    ∃ (s : SocketStreamLoops Any Bool Any sidebandWriteRequestFormat sidebandReadResponseFormat)
      (handled : List sidebandWriteRequestFormat.Message),
      (s.party .client).read = [[0x12, 0x05, 0x0A, 0x03, 0x12, 0x01, 0x07]] ∧
        (s.party .client).written.length = 2 ∧
        AnswersRequests storeLoad [(false, 1)] [(true, 2)] {} s handled := by
  have hexec : ((socketLoops storeLoad sidebandWriteRequestFormat sidebandReadResponseFormat
      (pointers [(false, 1)]) (pointers [(true, 2)]) 64 {}).exec
      ⟨⟨fun _ => { handle := .new 64 ⟨[], 5, true, {}⟩ }⟩, ⟨{}, [], ()⟩, .beginRead, []⟩
      [.write ⟨.ofValues [{ value := [7] }], by decide⟩, .send .client 8, .send .client 7,
        .deliver .client 15, .write ⟨.ofValues [{ value := [8] }], by decide⟩, .server,
        .recv .owner (.deliver 8), .recv .owner (.deliver 7), .server, .server, .server,
        .send .client 8, .send .owner 8, .send .owner 7, .server, .deliver .owner 15,
        .send .client 7, .read, .recv .client (.deliver 8), .recv .client (.deliver 7)]).map
          (fun s => ((s.party .client).read, (s.party .client).written.length)) =
    some ([[0x12, 0x05, 0x0A, 0x03, 0x12, 0x01, 0x07]], 2) := by decide +kernel
  obtain ⟨s, hs, hrecords⟩ := Option.map_eq_some_iff.mp hexec
  have hreachable := Machine.exec_reachable
    (by exact ⟨_, fun _ => ⟨⟨[], 5, true, {}⟩, rfl, rfl, rfl⟩, rfl⟩) hs
  obtain ⟨handled, hanswers⟩ := answersRequests_of_reachable hreachable
  exact ⟨s, handled, congrArg Prod.fst hrecords, congrArg Prod.snd hrecords, hanswers⟩

end Store

end Loops

end Sideband
