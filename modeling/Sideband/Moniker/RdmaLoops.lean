import Sideband.Moniker.SocketLoops
import Sideband.Rdma.Session

/-!
# The two loops of a stream over RDMA

The client-first branch of `RunSidebandReadWriteLoop` on the owner's end of an RDMA connection, and
a client that makes its calls of `WriteSidebandMessage` and `ReadSidebandMessage` one after the
other. A step (`rdmaLoops`) is a step of one of the calls, a delivery of the network, or what a loop
does between two calls.

* `rdmaAnswers_of_reachable`: the requests that the server has handled are the first ones of the
  client, each handled once and in order, and the responses that the client has read are the first
  ones to them.
-/

namespace Sideband

open Foundation

/-! ### States -/

/-- A call of the client: `WriteSidebandMessage` of a request, or `ReadSidebandMessage` of a
response. -/
inductive ClientCall (Q : Type)
  | write (request : Q)
  | read
  deriving DecidableEq, Repr

/-- The two parties, the endpoints behind the server, where the server is, and the calls that the
client has still to begin. A call that has begun is part of the session. -/
structure RdmaLoops (σ ε V Q P : Type) (size : ℕ) where
  session : RdmaSession Q P size
  service : MonikerState σ ε V Unit
  server : LoopPhase Q P := .beginRead
  calls : List (ClientCall Q)

/-- What happens next: a step of the server or of the client, or a delivery of the network.
`prefer` is the region easyrdma picks when both are free. -/
inductive RdmaLoopStep
  | server (prefer : Fin 2)
  | client (prefer : Fin 2)
  | deliver (side : Side) (r : Fin 2)

section Loops

variable {σ ε V : Type} {size : ℕ} (behave : ε → ℤ → V → σ → V × σ)
  (requestFormat : WireFormat ({} : SidebandWriteRequest V))
  (responseFormat : WireFormat ({} : SidebandReadResponse V))

/-- The loops of a stream whose messages have the two formats. -/
abbrev RdmaStreamLoops (σ ε V : Type) (requestFormat : WireFormat ({} : SidebandWriteRequest V))
    (responseFormat : WireFormat ({} : SidebandReadResponse V)) (size : ℕ) : Type :=
  RdmaLoops σ ε V requestFormat.Message responseFormat.Message size

/-! ### Steps -/

section Steps

variable {requestFormat responseFormat}

/-- A step of the link from the client to the owner. -/
def RdmaLoops.onRequests (a : RdmaLinkStep requestFormat.Message)
    (s : RdmaStreamLoops σ ε V requestFormat responseFormat size) :
    Option (RdmaStreamLoops σ ε V requestFormat responseFormat size) :=
  ((rdmaLink requestFormat.messageLite size).next s.session.requests a).map fun link =>
    { s with session := s.session.setRequests link }

/-- A step of the link from the owner to the client. -/
def RdmaLoops.onResponses (a : RdmaLinkStep responseFormat.Message)
    (s : RdmaStreamLoops σ ε V requestFormat responseFormat size) :
    Option (RdmaStreamLoops σ ε V requestFormat responseFormat size) :=
  ((rdmaLink responseFormat.messageLite size).next s.session.responses a).map fun link =>
    { s with session := s.session.setResponses link }

end Steps

/-- The next step of the server's loop, which is one of the calls that it makes, or what it does
between two of them. -/
def rdmaServerStep [Inhabited V] (readers writers : EndpointList ε) (prefer : Fin 2)
    (s : RdmaStreamLoops σ ε V requestFormat responseFormat size) :
    Option (RdmaStreamLoops σ ε V requestFormat responseFormat size) :=
  match s.server with
  | .beginRead => (s.onRequests .beginRead).map fun s => { s with server := .reading }
  | .reading =>
    match s.session.owner.reading with
    | .begun _ _ => s.onRequests .parse
    | .parsed _ => s.onRequests .finishRead
    | .idle => s.session.owner.reads.getLast?.map fun success =>
      { s with server := .afterRead requestFormat success }
  | .handle writeRequest =>
    match (sendableResponse behave responseFormat readers writers writeRequest.val).run
      s.service with
    | .ok (readResult, service) => some { s with service, server := .afterHandle readResult }
    | .error _ => none
  | .beginWrite readResult =>
    (s.onResponses (.beginWrite readResult prefer)).map fun s =>
      { s with server := .writing readResult }
  | .writing readResult =>
    match s.session.owner.writing with
    | .begun _ _ => s.onResponses .fill
    | .filled _ => s.onResponses .finishWrite
    | .idle => some { s with
        service.events := s.service.events ++ [.respond readResult.val.values]
        server := .afterWrite (byteSizeLong responseFormat.messageLite readResult) }
  | .returned => none

/-- The client's call goes on, or its next one begins. It makes one call at a time, in the order
of its program. -/
def rdmaClientStep (prefer : Fin 2) (s : RdmaStreamLoops σ ε V requestFormat responseFormat size) :
    Option (RdmaStreamLoops σ ε V requestFormat responseFormat size) :=
  match s.session.client.writing with
  | .begun _ _ => s.onRequests .fill
  | .filled _ => s.onRequests .finishWrite
  | .idle =>
    match s.session.client.reading with
    | .begun _ _ => s.onResponses .parse
    | .parsed _ => s.onResponses .finishRead
    | .idle =>
      match s.calls with
      | [] => none
      | .write request :: calls =>
        (s.onRequests (.beginWrite request prefer)).map fun s => { s with calls }
      | .read :: calls => (s.onResponses .beginRead).map fun s => { s with calls }

/-- The client-first branch of `RunSidebandReadWriteLoop`, with the endpoints that the monikers
have been resolved to, and a client that makes the calls `program` one after the other, on a
fresh connection. The steps of the two and of the network come in any order; the endpoints' part
of a round is one step. Left out are calls of easyrdma that fail, a connection that closes, and
other threads that call the endpoints. A request that fits no region is not written, and the
machine has no step where the source's behaviour is undefined. -/
def rdmaLoops [Inhabited V] (readers writers : EndpointList ε) (size : ℕ) (shared : σ)
    (program : List (ClientCall requestFormat.Message)) :
    Machine (RdmaStreamLoops σ ε V requestFormat responseFormat size) RdmaLoopStep where
  init s := ∃ session,
    (rdmaSession requestFormat.messageLite responseFormat.messageLite size).init session ∧
      s = { session, service := ⟨shared, [], ()⟩, calls := program }
  next s
    | .server prefer =>
      rdmaServerStep behave requestFormat responseFormat readers writers prefer s
    | .client prefer => rdmaClientStep requestFormat responseFormat prefer s
    | .deliver .client r => s.onRequests (.deliver r)
    | .deliver .owner r => s.onResponses (.deliver r)

/-! ### What a step does -/

section Moves

variable [Inhabited V] {behave requestFormat responseFormat} {readers writers : EndpointList ε}
  {s s' : RdmaStreamLoops σ ε V requestFormat responseFormat size} {prefer : Fin 2}

omit [Inhabited V] in
theorem onRequests_eq_some {a : RdmaLinkStep requestFormat.Message} (h : s.onRequests a = some s') :
    ∃ link, (rdmaLink requestFormat.messageLite size).next s.session.requests a = some link ∧
      s' = { s with session := s.session.setRequests link } := by
  obtain ⟨link, hlink, rfl⟩ := Option.map_eq_some_iff.mp h
  exact ⟨link, hlink, rfl⟩

omit [Inhabited V] in
theorem onResponses_eq_some {a : RdmaLinkStep responseFormat.Message}
    (h : s.onResponses a = some s') :
    ∃ link, (rdmaLink responseFormat.messageLite size).next s.session.responses a = some link ∧
      s' = { s with session := s.session.setResponses link } := by
  obtain ⟨link, hlink, rfl⟩ := Option.map_eq_some_iff.mp h
  exact ⟨link, hlink, rfl⟩

variable (behave readers writers) in
/-- What the server's loop does from each place. -/
inductive RdmaServerStep (s : RdmaStreamLoops σ ε V requestFormat responseFormat size) :
    LoopPhase requestFormat.Message responseFormat.Message →
      RdmaStreamLoops σ ε V requestFormat responseFormat size → Prop
  | beginRead {link : RdmaLink requestFormat.Message size}
      (h : (rdmaLink requestFormat.messageLite size).next s.session.requests .beginRead =
        some link) :
      RdmaServerStep s .beginRead
        { s with session := s.session.setRequests link, server := .reading }
  | parse {link : RdmaLink requestFormat.Message size}
      (h : (rdmaLink requestFormat.messageLite size).next s.session.requests .parse = some link) :
      RdmaServerStep s .reading { s with session := s.session.setRequests link }
  | finishRead {link : RdmaLink requestFormat.Message size}
      (h : (rdmaLink requestFormat.messageLite size).next s.session.requests .finishRead =
        some link) :
      RdmaServerStep s .reading { s with session := s.session.setRequests link }
  | read {success : Option requestFormat.Message} (hidle : s.session.owner.reading = .idle)
      (h : s.session.owner.reads.getLast? = some success) :
      RdmaServerStep s .reading { s with server := .afterRead requestFormat success }
  | handle {writeRequest : requestFormat.Message} {readResult : Option responseFormat.Message}
      {service : MonikerState σ ε V Unit}
      (h : (sendableResponse behave responseFormat readers writers writeRequest.val).run s.service =
        .ok (readResult, service)) :
      RdmaServerStep s (.handle writeRequest) { s with service, server := .afterHandle readResult }
  | beginWrite {readResult : responseFormat.Message} {prefer : Fin 2}
      {link : RdmaLink responseFormat.Message size}
      (h : (rdmaLink responseFormat.messageLite size).next s.session.responses
        (.beginWrite readResult prefer) = some link) :
      RdmaServerStep s (.beginWrite readResult)
        { s with session := s.session.setResponses link, server := .writing readResult }
  | fill {readResult : responseFormat.Message} {link : RdmaLink responseFormat.Message size}
      (h : (rdmaLink responseFormat.messageLite size).next s.session.responses .fill = some link) :
      RdmaServerStep s (.writing readResult) { s with session := s.session.setResponses link }
  | finishWrite {readResult : responseFormat.Message} {link : RdmaLink responseFormat.Message size}
      (h : (rdmaLink responseFormat.messageLite size).next s.session.responses .finishWrite =
        some link) :
      RdmaServerStep s (.writing readResult) { s with session := s.session.setResponses link }
  | written {readResult : responseFormat.Message} (hidle : s.session.owner.writing = .idle) :
      RdmaServerStep s (.writing readResult)
        { s with
          service.events := s.service.events ++ [.respond readResult.val.values]
          server := .afterWrite (byteSizeLong responseFormat.messageLite readResult) }

theorem rdmaServerStep_of_eq_some
    (h : rdmaServerStep behave requestFormat responseFormat readers writers prefer s = some s') :
    RdmaServerStep behave readers writers s s.server s' := by
  rw [rdmaServerStep] at h
  cases hphase : s.server with
  | beginRead =>
    rw [hphase] at h
    obtain ⟨t, ht, rfl⟩ := Option.map_eq_some_iff.mp h
    obtain ⟨link, hlink, rfl⟩ := onRequests_eq_some ht
    exact .beginRead hlink
  | reading =>
    rw [hphase] at h
    dsimp only at h
    split at h
    · obtain ⟨link, hlink, rfl⟩ := onRequests_eq_some h
      exact .parse hlink
    · obtain ⟨link, hlink, rfl⟩ := onRequests_eq_some h
      exact .finishRead hlink
    · next hidle =>
      obtain ⟨success, hlast, rfl⟩ := Option.map_eq_some_iff.mp h
      exact .read hidle hlast
  | handle writeRequest =>
    rw [hphase] at h
    dsimp only at h
    split at h
    · next readResult service hrun =>
      obtain rfl := Option.some.inj h
      exact .handle hrun
    · cases h
  | beginWrite readResult =>
    rw [hphase] at h
    obtain ⟨t, ht, rfl⟩ := Option.map_eq_some_iff.mp h
    obtain ⟨link, hlink, rfl⟩ := onResponses_eq_some ht
    exact .beginWrite hlink
  | writing readResult =>
    rw [hphase] at h
    dsimp only at h
    split at h
    · obtain ⟨link, hlink, rfl⟩ := onResponses_eq_some h
      exact .fill hlink
    · obtain ⟨link, hlink, rfl⟩ := onResponses_eq_some h
      exact .finishWrite hlink
    · next hidle =>
      obtain rfl := Option.some.inj h
      exact .written hidle
  | returned =>
    rw [hphase] at h
    cases h

/-- What the client does: its call goes on or the next one begins. -/
inductive RdmaClientStep (s : RdmaStreamLoops σ ε V requestFormat responseFormat size) :
    RdmaStreamLoops σ ε V requestFormat responseFormat size → Prop
  | write {request : requestFormat.Message} {calls : List (ClientCall requestFormat.Message)}
      {prefer : Fin 2} {link : RdmaLink requestFormat.Message size}
      (hreading : s.session.client.reading = .idle) (hcalls : s.calls = .write request :: calls)
      (h : (rdmaLink requestFormat.messageLite size).next s.session.requests
        (.beginWrite request prefer) = some link) :
      RdmaClientStep s { s with session := s.session.setRequests link, calls }
  | fill {link : RdmaLink requestFormat.Message size}
      (h : (rdmaLink requestFormat.messageLite size).next s.session.requests .fill = some link) :
      RdmaClientStep s { s with session := s.session.setRequests link }
  | finishWrite {link : RdmaLink requestFormat.Message size}
      (h : (rdmaLink requestFormat.messageLite size).next s.session.requests .finishWrite =
        some link) :
      RdmaClientStep s { s with session := s.session.setRequests link }
  | read {calls : List (ClientCall requestFormat.Message)}
      {link : RdmaLink responseFormat.Message size}
      (hwriting : s.session.client.writing = .idle) (hcalls : s.calls = .read :: calls)
      (h : (rdmaLink responseFormat.messageLite size).next s.session.responses .beginRead =
        some link) :
      RdmaClientStep s { s with session := s.session.setResponses link, calls }
  | parse {link : RdmaLink responseFormat.Message size}
      (h : (rdmaLink responseFormat.messageLite size).next s.session.responses .parse =
        some link) :
      RdmaClientStep s { s with session := s.session.setResponses link }
  | finishRead {link : RdmaLink responseFormat.Message size}
      (h : (rdmaLink responseFormat.messageLite size).next s.session.responses .finishRead =
        some link) :
      RdmaClientStep s { s with session := s.session.setResponses link }

omit [Inhabited V] in
theorem rdmaClientStep_of_eq_some
    (h : rdmaClientStep requestFormat responseFormat prefer s = some s') : RdmaClientStep s s' := by
  rw [rdmaClientStep] at h
  split at h
  · obtain ⟨link, hlink, rfl⟩ := onRequests_eq_some h
    exact .fill hlink
  · obtain ⟨link, hlink, rfl⟩ := onRequests_eq_some h
    exact .finishWrite hlink
  · next hwriting =>
    split at h
    · obtain ⟨link, hlink, rfl⟩ := onResponses_eq_some h
      exact .parse hlink
    · obtain ⟨link, hlink, rfl⟩ := onResponses_eq_some h
      exact .finishRead hlink
    · next hreading =>
      split at h
      · cases h
      · next request calls hcalls =>
        obtain ⟨t, ht, rfl⟩ := Option.map_eq_some_iff.mp h
        obtain ⟨link, hlink, rfl⟩ := onRequests_eq_some ht
        exact .write hreading hcalls hlink
      · next calls hcalls =>
        obtain ⟨t, ht, rfl⟩ := Option.map_eq_some_iff.mp h
        obtain ⟨link, hlink, rfl⟩ := onResponses_eq_some ht
        exact .read hwriting hcalls hlink

variable (behave requestFormat responseFormat readers writers size) in
/-- The loops take the steps of a connection, or leave it. What holds of every reachable
connection holds of theirs. -/
theorem rdmaLoops_refines (shared : σ) (program : List (ClientCall requestFormat.Message)) :
    Machine.Refinement
      (rdmaLoops behave requestFormat responseFormat readers writers size shared program) Anything
      (rdmaSession requestFormat.messageLite responseFormat.messageLite size)
      (fun s t => s.session = t) where
  init s h := by
    obtain ⟨session, hinit, rfl⟩ := h
    exact ⟨session, hinit, rfl⟩
  step s t a s' h _ hnext := by
    subst h
    have hrequests : ∀ {a link}, (rdmaLink requestFormat.messageLite size).next s.session.requests
        a = some link → ∃ b t', (rdmaSession requestFormat.messageLite responseFormat.messageLite
          size).next s.session b = some t' ∧ s.session.setRequests link = t' :=
      fun hlink => ⟨.requests _, _, Option.map_eq_some_iff.mpr ⟨_, hlink, rfl⟩, rfl⟩
    have hresponses : ∀ {a link}, (rdmaLink responseFormat.messageLite size).next
        s.session.responses a = some link → ∃ b t', (rdmaSession requestFormat.messageLite
          responseFormat.messageLite size).next s.session b = some t' ∧
            s.session.setResponses link = t' :=
      fun hlink => ⟨.responses _, _, Option.map_eq_some_iff.mpr ⟨_, hlink, rfl⟩, rfl⟩
    cases a with
    | server prefer =>
      have hserver := rdmaServerStep_of_eq_some hnext
      generalize s.server = phase at hserver
      cases hserver with
      | beginRead hlink => exact .inr (hrequests hlink)
      | parse hlink => exact .inr (hrequests hlink)
      | finishRead hlink => exact .inr (hrequests hlink)
      | read hidle hlast => exact .inl rfl
      | handle hrun => exact .inl rfl
      | beginWrite hlink => exact .inr (hresponses hlink)
      | fill hlink => exact .inr (hresponses hlink)
      | finishWrite hlink => exact .inr (hresponses hlink)
      | written hidle => exact .inl rfl
    | client prefer =>
      cases rdmaClientStep_of_eq_some hnext with
      | write hreading hcalls hlink => exact .inr (hrequests hlink)
      | fill hlink => exact .inr (hrequests hlink)
      | finishWrite hlink => exact .inr (hrequests hlink)
      | read hwriting hcalls hlink => exact .inr (hresponses hlink)
      | parse hlink => exact .inr (hresponses hlink)
      | finishRead hlink => exact .inr (hresponses hlink)
    | deliver side r =>
      cases side with
      | client =>
        obtain ⟨link, hlink, rfl⟩ := onRequests_eq_some hnext
        exact .inr (hrequests hlink)
      | owner =>
        obtain ⟨link, hlink, rfl⟩ := onResponses_eq_some hnext
        exact .inr (hresponses hlink)

/-- So the connection is two queues of messages. -/
theorem session_isDuplex {shared : σ} {program : List (ClientCall requestFormat.Message)}
    (h : (rdmaLoops behave requestFormat responseFormat readers writers size shared
      program).Reachable Anything s) :
    IsDuplex requestFormat.messageLite responseFormat.messageLite s.session := by
  obtain ⟨t, ht, rfl⟩ := (rdmaLoops_refines size behave requestFormat responseFormat readers writers
    shared program).reachable h
  exact isDuplex_of_reachable ht

end Moves

/-! ### What the server has done -/

section Served

variable {behave requestFormat responseFormat}

/-- Where the owner's calls are when its loop is at `phase`: it has read the requests `read` and
has answered with `responses`, of which the last may still be with the call. -/
def OwnerAt (owner : RdmaParty responseFormat.Message requestFormat.Message size)
    (read : List requestFormat.Message) (responses : List responseFormat.Message) :
    LoopPhase requestFormat.Message responseFormat.Message → Prop
  | .beginRead => owner.writing = .idle ∧ owner.reading = .idle ∧ owner.reads = read.map some ∧
      owner.written = responses
  | .reading => owner.writing = .idle ∧ owner.written = responses ∧
      (owner.reading ≠ .idle ∧ owner.reads = read.map some ∨
        owner.reading = .idle ∧ ∃ success, owner.reads = read.map some ++ [success])
  | .handle writeRequest => owner.writing = .idle ∧ owner.reading = .idle ∧
      owner.reads = read.map some ++ [some writeRequest] ∧ writeRequest.val.cancel = false ∧
      owner.written = responses
  | .beginWrite readResult => owner.writing = .idle ∧ owner.reading = .idle ∧
      owner.reads = read.map some ∧ owner.written ++ [readResult] = responses
  | .writing readResult => owner.reading = .idle ∧ owner.reads = read.map some ∧
      owner.written ++ owner.writing.message = responses ∧ readResult ∈ responses
  | .returned => owner.writing = .idle ∧ owner.reading = .idle ∧
      (∃ rest, owner.reads = read.map some ++ rest) ∧ owner.written = responses

variable {owner owner' : RdmaParty responseFormat.Message requestFormat.Message size}
  {read : List requestFormat.Message} {responses : List responseFormat.Message}
  {phase : LoopPhase requestFormat.Message responseFormat.Message}

theorem OwnerAt.congr (h : OwnerAt owner read responses phase)
    (hwriting : owner'.writing = owner.writing) (hreading : owner'.reading = owner.reading)
    (hwritten : owner'.written = owner.written) (hreads : owner'.reads = owner.reads) :
    OwnerAt owner' read responses phase := by
  cases phase <;> simpa only [OwnerAt, hwriting, hreading, hwritten, hreads] using h

variable [Inhabited V] {readers writers : List (ε × ℤ)} {initial : σ}

variable (behave readers writers initial) in
/-- The server has handled these requests, and is about to write the last response or has written
it. It is the server's half of the invariant. -/
structure ServesOverRdma (s : RdmaStreamLoops σ ε V requestFormat responseFormat size)
    (handled : List requestFormat.Message) (responses : List responseFormat.Message) : Prop where
  goesOn : ∀ request ∈ handled, request.val.cancel = false
  shared : s.service.shared =
    (effectOf behave requestFormat readers writers initial handled).shared
  events : s.service.events ++ s.server.unanswered =
    (effectOf behave requestFormat readers writers initial handled).events
  frames : responses.map (fun readResult => responseFormat.serialize readResult.val) =
    responseFrames responseFormat
      (effectOf behave requestFormat readers writers initial handled).events
  ownerAt : OwnerAt s.session.owner handled responses s.server

variable {s s' : RdmaStreamLoops σ ε V requestFormat responseFormat size}
  {handled : List requestFormat.Message} {prefer : Fin 2}

theorem ServesOverRdma.congr
    (h : ServesOverRdma behave readers writers initial s handled responses)
    (hservice : s'.service = s.service) (hserver : s'.server = s.server)
    (howner : OwnerAt s'.session.owner handled responses s.server) :
    ServesOverRdma behave readers writers initial s' handled responses where
  goesOn := h.goesOn
  shared := hservice ▸ h.shared
  events := by
    rw [hservice, hserver]
    exact h.events
  frames := h.frames
  ownerAt := by
    rw [hserver]
    exact howner

/-- What the client and the network do on the one link is nothing to the server. -/
theorem ServesOverRdma.setRequests
    (h : ServesOverRdma behave readers writers initial s handled responses)
    {link : RdmaLink requestFormat.Message size} {calls : List (ClientCall requestFormat.Message)}
    (hreading : link.reading = s.session.owner.reading)
    (hreads : link.reads = s.session.owner.reads) :
    ServesOverRdma behave readers writers initial
      { s with session := s.session.setRequests link, calls } handled responses :=
  h.congr rfl rfl (h.ownerAt.congr rfl hreading rfl hreads)

theorem ServesOverRdma.setResponses
    (h : ServesOverRdma behave readers writers initial s handled responses)
    {link : RdmaLink responseFormat.Message size} {calls : List (ClientCall requestFormat.Message)}
    (hwriting : link.writing = s.session.owner.writing)
    (hwritten : link.written = s.session.owner.written) :
    ServesOverRdma behave readers writers initial
      { s with session := s.session.setResponses link, calls } handled responses :=
  h.congr rfl rfl (h.ownerAt.congr hwriting rfl hwritten rfl)

/-- The endpoints are called on the request that was read. -/
theorem ServesOverRdma.handle
    (h : ServesOverRdma behave readers writers initial s handled responses)
    {writeRequest : requestFormat.Message} (hphase : s.server = .handle writeRequest)
    {readResult : Option responseFormat.Message} {service : MonikerState σ ε V Unit}
    (hrun : (sendableResponse behave responseFormat (pointers readers) (pointers writers)
      writeRequest.val).run s.service = .ok (readResult, service)) :
    ServesOverRdma behave readers writers initial
      { s with service, server := .afterHandle readResult } (handled ++ [writeRequest])
      (responses ++ readResult.toList) := by
  have howner := h.ownerAt
  have hevents := h.events
  rw [hphase] at howner hevents
  obtain ⟨hwriting, hreading, hreads, hcancel, hwritten⟩ := howner
  replace hevents : s.service.events = _ := (List.append_nil _).symm.trans hevents
  obtain ⟨hshared, ⟨calls, hcalls, heffect⟩, hshape⟩ :=
    handleRequest_eq_ok behave (sendableResponse_eq_ok behave hrun)
  rw [h.shared] at hshared heffect
  rw [hevents] at hcalls
  refine ⟨fun request hrequest => ?_, ?_, ?_, ?_, ?_⟩
  · rcases List.mem_append.mp hrequest with hold | hnew
    · exact h.goesOn request hold
    · rwa [List.mem_singleton.mp hnew]
  · rw [effectOf_concat]
    exact hshared
  · rw [effectOf_concat]
    change service.events ++ _ = _ ++ _
    rw [hcalls, heffect, List.append_assoc]
    cases readResult <;> rfl
  · rw [effectOf_concat, List.map_append]
    dsimp only
    rw [heffect, responseFrames_append, responseFrames_append, ← h.frames,
      responseFrames, filterMap_callEvents, List.map_nil, List.nil_append]
    cases readResult with
    | none => rfl
    | some response =>
      exact congrArg (_ ++ [·]) (congrArg responseFormat.serialize (hshape response.val rfl))
  · have hreads' : s.session.owner.reads = (handled ++ [writeRequest]).map some := by
      rw [hreads, List.map_append, List.map_singleton]
    cases readResult with
    | none =>
      rw [Option.toList_none, List.append_nil]
      exact ⟨hwriting, hreading, hreads', hwritten⟩
    | some response =>
      exact ⟨hwriting, hreading, hreads', by rw [hwritten]; rfl⟩

/-- The server's loop goes on: what it reads is a request. -/
theorem ServesOverRdma.server
    (h : ServesOverRdma behave readers writers initial s handled responses)
    (hread : ∀ success, s.session.owner.reads = handled.map some ++ [success] →
      ∃ request, success = some request)
    (hstep : rdmaServerStep behave requestFormat responseFormat (pointers readers)
      (pointers writers) prefer s = some s') :
    ∃ handled' responses',
      ServesOverRdma behave readers writers initial s' handled' responses' := by
  have howner := h.ownerAt
  have hevents := h.events
  have hserver := rdmaServerStep_of_eq_some hstep
  generalize hphase : s.server = phase at hserver howner hevents
  cases hserver with
  | @beginRead link hlink =>
    cases linkMoves_of_next hlink with
    | beginRead before after _ writing written reads =>
      obtain ⟨hwriting, -, hreads, hwritten⟩ := howner
      refine ⟨handled, responses, h.goesOn, h.shared, hevents, h.frames, hwriting, hwritten,
        .inl ⟨?_, reads.trans hreads⟩⟩
      change link.reading ≠ .idle
      rw [after]
      exact fun hidle => (by cases hidle)
  | @parse link hlink =>
    cases linkMoves_of_next hlink with
    | parse before after _ writing written reads =>
      obtain ⟨hwriting, hwritten, ⟨-, hreads⟩ | ⟨hidle, -⟩⟩ := howner
      · refine ⟨handled, responses, h.congr rfl rfl ?_⟩
        rw [hphase]
        refine ⟨hwriting, hwritten, .inl ⟨?_, reads.trans hreads⟩⟩
        change link.reading ≠ .idle
        rw [after]
        exact fun hidle => (by cases hidle)
      · cases hidle.symm.trans before
  | @finishRead link hlink =>
    cases linkMoves_of_next hlink with
    | @finishRead success before after _ writing written reads =>
      obtain ⟨hwriting, hwritten, ⟨-, hreads⟩ | ⟨hidle, -⟩⟩ := howner
      · refine ⟨handled, responses, h.congr rfl rfl ?_⟩
        rw [hphase]
        exact ⟨hwriting, hwritten, .inr ⟨after, success, reads.trans (congrArg (· ++ _) hreads)⟩⟩
      · cases hidle.symm.trans before
  | @read success hidle hlast =>
    obtain ⟨hwriting, hwritten, ⟨hbusy, -⟩ | ⟨-, success', hmore⟩⟩ := howner
    · exact absurd hidle hbusy
    rw [hmore, List.getLast?_concat] at hlast
    obtain rfl := Option.some.inj hlast
    obtain ⟨request, rfl⟩ := hread success' hmore
    rw [LoopPhase.afterRead]
    by_cases hcancel : request.val.cancel = true
    · rw [if_pos hcancel]
      exact ⟨handled, responses, h.goesOn, h.shared, hevents, h.frames, hwriting, hidle,
        ⟨_, hmore⟩, hwritten⟩
    · rw [if_neg hcancel]
      exact ⟨handled, responses, h.goesOn, h.shared, hevents, h.frames, hwriting, hidle, hmore,
        Bool.eq_false_of_not_eq_true hcancel, hwritten⟩
  | handle hrun => exact ⟨_, _, h.handle hphase hrun⟩
  | @beginWrite readResult prefer link hlink =>
    cases linkMoves_of_next hlink with
    | beginWrite before after _ reading written reads =>
      obtain ⟨-, hreading, hreads, hwritten⟩ := howner
      refine ⟨handled, responses, h.goesOn, h.shared, hevents, h.frames, hreading, hreads, ?_, ?_⟩
      · change link.written ++ link.writing.message = responses
        rw [written, after]
        exact hwritten
      · rw [← hwritten]
        exact List.mem_append_right _ List.mem_cons_self
  | @fill readResult link hlink =>
    cases linkMoves_of_next hlink with
    | fill before after _ reading written reads =>
      obtain ⟨hreading, hreads, hwritten, hmem⟩ := howner
      refine ⟨handled, responses, h.congr rfl rfl ?_⟩
      rw [hphase]
      refine ⟨hreading, hreads, ?_, hmem⟩
      change link.written ++ link.writing.message = responses
      change s.session.owner.writing = _ at before
      rw [before] at hwritten
      rw [written, after]
      exact hwritten
  | @finishWrite readResult link hlink =>
    cases linkMoves_of_next hlink with
    | finishWrite before after _ reading written reads =>
      obtain ⟨hreading, hreads, hwritten, hmem⟩ := howner
      refine ⟨handled, responses, h.congr rfl rfl ?_⟩
      rw [hphase]
      refine ⟨hreading, hreads, ?_, hmem⟩
      change link.written ++ link.writing.message = responses
      change s.session.owner.writing = _ at before
      rw [before] at hwritten
      rw [written, after, Writing.message, List.append_nil]
      exact hwritten
  | @written readResult hidle =>
    obtain ⟨hreading, hreads, hwritten, -⟩ := howner
    rw [hidle, Writing.message, List.append_nil] at hwritten
    refine ⟨handled, responses, h.goesOn, h.shared, ?_, h.frames, ?_⟩
    · rw [LoopPhase.unanswered_afterWrite, List.append_nil]
      exact hevents
    · change OwnerAt s.session.owner _ _ (.afterWrite _)
      rw [LoopPhase.afterWrite]
      split_ifs
      · exact ⟨hidle, hreading, ⟨[], by rw [hreads, List.append_nil]⟩, hwritten⟩
      · exact ⟨hidle, hreading, hreads, hwritten⟩

theorem servesOverRdma_of_reachable {program : List (ClientCall requestFormat.Message)}
    (h : (rdmaLoops behave requestFormat responseFormat (pointers readers) (pointers writers) size
      initial program).Reachable Anything s) :
    ∃ handled responses, ServesOverRdma behave readers writers initial s handled responses := by
  induction h with
  | init h =>
    obtain ⟨session, ⟨hrequests, hresponses⟩, rfl⟩ := h
    obtain ⟨-, -, -, -, -, -, -, hreading, -, hreads⟩ := hrequests
    obtain ⟨-, -, -, -, -, -, hwriting, -, hwritten, -⟩ := hresponses
    exact ⟨[], [], fun request hrequest => (by cases hrequest), rfl, rfl, rfl, hwriting, hreading,
      hreads, hwritten⟩
  | @step s s' a hs _ hnext ih =>
    obtain ⟨handled, responses, hserves⟩ := ih
    obtain ⟨⟨t, ht, hrequests⟩, u, hu, hresponses⟩ := session_isDuplex hs
    cases a with
    | server prefer =>
      refine hserves.server (fun success hmore => ?_) hnext
      obtain ⟨read, hreads, -⟩ := hrequests.reads_eq ht
      have hmem : success ∈ read.map some := by
        rw [← hreads]
        change success ∈ s.session.owner.reads
        rw [hmore]
        exact List.mem_append_right _ List.mem_cons_self
      obtain ⟨request, -, rfl⟩ := List.mem_map.mp hmem
      exact ⟨request, rfl⟩
    | client prefer =>
      cases rdmaClientStep_of_eq_some hnext with
      | write hreading hcalls hlink =>
        cases linkMoves_of_next hlink with
        | beginWrite before after _ reading written reads =>
          exact ⟨handled, responses, hserves.setRequests reading reads⟩
      | fill hlink =>
        cases linkMoves_of_next hlink with
        | fill before after _ reading written reads =>
          exact ⟨handled, responses, hserves.setRequests reading reads⟩
      | finishWrite hlink =>
        cases linkMoves_of_next hlink with
        | finishWrite before after _ reading written reads =>
          exact ⟨handled, responses, hserves.setRequests reading reads⟩
      | read hwriting hcalls hlink =>
        cases linkMoves_of_next hlink with
        | beginRead before after _ writing written reads =>
          exact ⟨handled, responses, hserves.setResponses writing written⟩
      | parse hlink =>
        cases linkMoves_of_next hlink with
        | parse before after _ writing written reads =>
          exact ⟨handled, responses, hserves.setResponses writing written⟩
      | finishRead hlink =>
        cases linkMoves_of_next hlink with
        | finishRead before after _ writing written reads =>
          exact ⟨handled, responses, hserves.setResponses writing written⟩
    | deliver side r =>
      cases side with
      | client =>
        obtain ⟨link, hlink, rfl⟩ := onRequests_eq_some hnext
        cases linkMoves_of_next hlink with
        | deliver writing reading _ written reads =>
          exact ⟨handled, responses, hserves.setRequests reading reads⟩
      | owner =>
        obtain ⟨link, hlink, rfl⟩ := onResponses_eq_some hnext
        cases linkMoves_of_next hlink with
        | deliver writing reading _ written reads =>
          exact ⟨handled, responses, hserves.setResponses writing written⟩

/-! ### Every interleaving -/

variable (behave readers writers initial) in
/-- The server has handled the requests `handled`, and the client reads the responses to them. As
over a socket, these are the first ones that the client has written. -/
structure AnswersOverRdma (s : RdmaStreamLoops σ ε V requestFormat responseFormat size)
    (handled : List requestFormat.Message) : Prop where
  /-- They are the first ones that the client has written. -/
  requests : handled <+: s.session.client.written
  goesOn : ∀ request ∈ handled, request.val.cancel = false
  /-- The endpoints have been called on each of them once, in order. -/
  shared : s.service.shared =
    (effectOf behave requestFormat readers writers initial handled).shared
  events : s.service.events ++ s.server.unanswered =
    (effectOf behave requestFormat readers writers initial handled).events
  /-- The `k`th response that the client has read is the `k`th response of the server. -/
  responses : ∃ read : List responseFormat.Message, s.session.client.reads = read.map some ∧
    read.map (fun readResult => responseFormat.serialize readResult.val) <+:
      responseFrames responseFormat
        (effectOf behave requestFormat readers writers initial handled).events

omit [Inhabited V] in
theorem OwnerAt.read_prefix (h : OwnerAt owner read responses phase) :
    read.map some <+: owner.reads := by
  cases phase with
  | beginRead => exact h.2.2.1 ▸ List.prefix_rfl
  | reading =>
    obtain ⟨-, -, ⟨-, hreads⟩ | ⟨-, success, hreads⟩⟩ := h
    · exact hreads ▸ List.prefix_rfl
    · exact ⟨[success], hreads.symm⟩
  | handle writeRequest => exact ⟨_, h.2.2.1.symm⟩
  | beginWrite readResult => exact h.2.2.1 ▸ List.prefix_rfl
  | writing readResult => exact h.2.1 ▸ List.prefix_rfl
  | returned =>
    obtain ⟨rest, hreads⟩ := h.2.2.1
    exact ⟨rest, hreads.symm⟩

omit [Inhabited V] in
theorem OwnerAt.written_prefix (h : OwnerAt owner read responses phase) :
    owner.written <+: responses := by
  cases phase with
  | beginRead => exact h.2.2.2 ▸ List.prefix_rfl
  | reading => exact h.2.1 ▸ List.prefix_rfl
  | handle writeRequest => exact h.2.2.2.2 ▸ List.prefix_rfl
  | beginWrite readResult => exact ⟨_, h.2.2.2⟩
  | writing readResult => exact ⟨_, h.2.2.1⟩
  | returned => exact h.2.2.2 ▸ List.prefix_rfl

theorem ServesOverRdma.answers
    (h : ServesOverRdma behave readers writers initial s handled responses)
    (hduplex : IsDuplex requestFormat.messageLite responseFormat.messageLite s.session) :
    AnswersOverRdma behave readers writers initial s handled := by
  obtain ⟨⟨t, ht, hrequests⟩, u, hu, hresponses⟩ := hduplex
  obtain ⟨read, hreads, hread⟩ := hrequests.reads_eq ht
  obtain ⟨answers, hanswers, hanswer⟩ := hresponses.reads_eq hu
  have hprefix := h.ownerAt.read_prefix
  change s.session.owner.reads = _ at hreads
  rw [hreads] at hprefix
  refine ⟨((List.prefix_map_iff_of_injective (Option.some_injective _)).mp hprefix).trans hread,
    h.goesOn, h.shared, h.events, answers, hanswers, ?_⟩
  rw [← h.frames]
  exact (hanswer.trans h.ownerAt.written_prefix).map _

/-- **The server answers the requests of the client in order**, over every interleaving of the
two loops with the network, whatever calls the client makes. No call of easyrdma fails; the
client need not read its responses. -/
theorem rdmaAnswers_of_reachable {program : List (ClientCall requestFormat.Message)}
    (h : (rdmaLoops behave requestFormat responseFormat (pointers readers) (pointers writers) size
      initial program).Reachable Anything s) :
    ∃ handled, AnswersOverRdma behave readers writers initial s handled := by
  obtain ⟨handled, responses, hserves⟩ := servesOverRdma_of_reachable h
  exact ⟨handled, hserves.answers (session_isDuplex h)⟩

end Served

section Store

/-- A client writes its second request while the server answers the first one. -/
theorem rdmaAnswers_of_reachable_store :
    ∃ (s : RdmaStreamLoops Any Bool Any sidebandWriteRequestFormat sidebandReadResponseFormat 16)
      (handled : List sidebandWriteRequestFormat.Message),
      s.session.client.reads.length = 1 ∧ s.session.client.written.length = 2 ∧
        AnswersOverRdma storeLoad [(false, 1)] [(true, 2)] {} s handled := by
  have hexec : ((rdmaLoops storeLoad sidebandWriteRequestFormat sidebandReadResponseFormat
      (pointers [(false, 1)]) (pointers [(true, 2)]) 16 {}
      [.write ⟨.ofValues [{ value := [7] }], by decide⟩,
        .write ⟨.ofValues [{ value := [8] }], by decide⟩, .read]).exec
      ⟨⟨⟨⟨.configured 16, .configured 16, {}, {}⟩, .idle, .idle, [], []⟩,
          ⟨⟨.configured 16, .configured 16, {}, {}⟩, .idle, .idle, [], []⟩⟩, ⟨{}, [], ()⟩,
        .beginRead, [.write ⟨.ofValues [{ value := [7] }], by decide⟩,
          .write ⟨.ofValues [{ value := [8] }], by decide⟩, .read]⟩
      [.client 0, .client 0, .client 0, .deliver .client 1, .server 0, .client 0, .server 0,
        .server 0, .client 0, .server 0, .server 0, .server 1, .client 0, .server 0, .server 0,
        .deliver .owner 0, .client 0, .client 0, .server 0, .client 0]).map
          (fun s => (s.session.client.reads.length, s.session.client.written.length)) =
    some (1, 2) := by decide +kernel
  obtain ⟨s, hs, hrecords⟩ := Option.map_eq_some_iff.mp hexec
  have hreachable := Machine.exec_reachable
    (by exact ⟨_, ⟨⟨rfl, rfl, rfl, rfl, rfl, rfl, rfl, rfl, rfl, rfl⟩,
      ⟨rfl, rfl, rfl, rfl, rfl, rfl, rfl, rfl, rfl, rfl⟩⟩, rfl⟩) hs
  obtain ⟨handled, hanswers⟩ := rdmaAnswers_of_reachable hreachable
  exact ⟨s, handled, congrArg Prod.fst hrecords, congrArg Prod.snd hrecords, hanswers⟩

end Store

end Loops

end Sideband
