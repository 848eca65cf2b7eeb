import Sideband.Rdma.Receives
import Sideband.Rdma.Window

/-!
# An RDMA connection of two parties

A handle has a session for each direction, so what the client writes and what the owner writes are
two links with the same two handles at their ends (`RdmaSession`). A call for the one direction
leaves the sessions of the other (`sameBack_of_next`), so the connection is two queues of messages,
each with its own window, and neither holds up the other (`carriesBothWays_of_reachable`).
-/

namespace Sideband

open Foundation

open RdmaSidebandDataImp (methods)

/-! ### The two directions of a handle -/

section Handle

variable {size : ℕ} {α : Type}

/-- The handle reads as before. -/
structure SameReads (h h' : RdmaSidebandDataImp size) : Prop where
  session : h'.connectedReadSession = h.connectedReadSession
  buffer : h'.readBuffer = h.readBuffer

/-- The handle writes as before. -/
structure SameWrites (h h' : RdmaSidebandDataImp size) : Prop where
  session : h'.connectedWriteSession = h.connectedWriteSession
  buffer : h'.writeBuffer = h.writeBuffer

instance : Std.Refl (@SameReads size) := ⟨fun _ => ⟨rfl, rfl⟩⟩

instance : IsTrans (RdmaSidebandDataImp size) SameReads :=
  ⟨fun _ _ _ h h' => ⟨h'.session.trans h.session, h'.buffer.trans h.buffer⟩⟩

instance : Std.Refl (@SameWrites size) := ⟨fun _ => ⟨rfl, rfl⟩⟩

instance : IsTrans (RdmaSidebandDataImp size) SameWrites :=
  ⟨fun _ _ _ h h' => ⟨h'.session.trans h.session, h'.buffer.trans h.buffer⟩⟩

namespace RdmaSidebandDataImp

theorem sameReads_onWriteSession (x : Exec (SendSession size) α) :
    Exec.Steps SameReads (onWriteSession x) :=
  Exec.steps_zoom (Q := fun _ _ => True) (fun _ _ _ _ => trivial) fun _ _ _ => ⟨rfl, rfl⟩

theorem sameReads_store (p : Pointer) (bytes : Bytes) :
    Exec.Steps (@SameReads size) (store p bytes) := by
  unfold store
  split_ifs
  · exact Exec.steps_pure _
  · split
    · exact Exec.steps_get.bind fun h => (Exec.steps_checked _).bind fun mem =>
        sameReads_onWriteSession _
    · exact Exec.steps_throw _

theorem sameReads_beginDirectWrite :
    Exec.Steps (@SameReads size) methods.beginDirectWrite := by
  have hacquire : Exec.Steps (@SameReads size) acquireSendRegion :=
    (sameReads_onWriteSession _).bind fun answer =>
      (Exec.steps_modify fun h => ⟨rfl, rfl⟩).bind fun _ => Exec.steps_pure _
  exact hacquire.bind fun result => Exec.steps_get.bind fun h => Exec.steps_pure _

theorem sameReads_finishDirectWrite (byteCount : ℤ) :
    Exec.Steps (@SameReads size) (methods.finishDirectWrite byteCount) := by
  have hqueue : Exec.Steps (@SameReads size) queueBufferRegion :=
    Exec.steps_get.bind fun h => sameReads_onWriteSession _
  exact Exec.steps_get.bind fun h => (sameReads_store _ _).bind fun _ =>
    (Exec.steps_modify fun h => ⟨rfl, rfl⟩).bind fun _ => hqueue.bind fun _ => Exec.steps_pure _

theorem sameWrites_onReadSession (x : Exec (ReceiveSession size) α) :
    Exec.Steps SameWrites (onReadSession x) :=
  Exec.steps_zoom (Q := fun _ _ => True) (fun _ _ _ _ => trivial) fun _ _ _ => ⟨rfl, rfl⟩

theorem sameWrites_load (p : Pointer) (n : ℕ) :
    Exec.Steps (@SameWrites size) (load p n) := by
  intro h bytes h' hrun
  rw [load_state hrun]
  exact ⟨rfl, rfl⟩

theorem sameWrites_acquireLoop (results : List EasyRdmaResult) :
    Exec.Steps (@SameWrites size) (acquireLoop results) := by
  have hacquire : Exec.Steps (@SameWrites size) acquireReceivedRegion :=
    (sameWrites_onReadSession _).bind fun answer =>
      (Exec.steps_modify fun h => ⟨rfl, rfl⟩).bind fun _ => Exec.steps_pure _
  induction results with
  | nil => exact hacquire
  | cons result results ih =>
    cases result with
    | timeout => exact hacquire.bind fun _ => ih
    | success => exact hacquire
    | failure => exact hacquire

theorem sameWrites_beginDirectReadLengthPrefixed :
    Exec.Steps (@SameWrites size) methods.beginDirectReadLengthPrefixed := by
  have hread : Exec.Steps (@SameWrites size) (read none 0) := by
    refine (Exec.steps_modify fun h => ⟨rfl, rfl⟩).bind fun _ => Exec.steps_get.bind fun h =>
      (sameWrites_acquireLoop _).bind fun result => ?_
    split_ifs
    · exact Exec.steps_pure _
    · exact Exec.steps_pure _
  refine hread.bind fun result => ?_
  split_ifs
  · exact Exec.steps_get.bind fun h => (sameWrites_load _ _).bind fun _ => Exec.steps_pure _
  · exact Exec.steps_pure _

theorem sameWrites_parseFromArray {M : Type} (codec : MessageLite M) (buffer : Pointer)
    (bufferSize : ℤ) : Exec.Steps (@SameWrites size)
      (parseFromArray codec methods buffer bufferSize) := by
  unfold parseFromArray
  dsimp only
  split_ifs
  · exact (Exec.steps_throw _).bind fun _ => (sameWrites_load _ _).bind fun _ => Exec.steps_pure _
  · exact (sameWrites_load _ _).bind fun _ => Exec.steps_pure _

theorem sameWrites_finishDirectRead :
    Exec.Steps (@SameWrites size) methods.finishDirectRead := by
  have hrelease : Exec.Steps (@SameWrites size) releaseReceivedBufferRegion :=
    Exec.steps_get.bind fun h => sameWrites_onReadSession _
  exact hrelease.bind fun _ => Exec.steps_pure _

end RdmaSidebandDataImp

end Handle

/-! ### The other direction of a link -/

section Link

variable {size : ℕ} {M : Type} {codec : MessageLite M} {link link' : RdmaLink M size} {t : Fifo M}

/-- What the two handles of a link have for the other direction is as before: no call for one
direction touches the session or the region of the other. -/
structure SameBack (link link' : RdmaLink M size) : Prop where
  writer : SameReads link.writer link'.writer
  reader : SameWrites link.reader link'.reader

/-- What the two handles of a link have for it is as before. The other direction may have moved
on. -/
structure SameLink (link link' : RdmaLink M size) : Prop where
  writer : SameWrites link.writer link'.writer
  reader : SameReads link.reader link'.reader
  writing : link'.writing = link.writing
  reading : link'.reading = link.reading
  written : link'.written = link.written
  reads : link'.reads = link.reads

/-- A step of a link leaves the other direction. -/
theorem sameBack_of_next {a : RdmaLinkStep M}
    (h : (rdmaLink codec size).next link a = some link') : SameBack link link' := by
  cases a with
  | beginWrite m prefer =>
    simp only [rdmaLink] at h
    split at h
    · split_ifs at h
      split at h
      · next hrun =>
        obtain rfl := Option.some.inj h
        have hsame := RdmaSidebandDataImp.sameReads_beginDirectWrite _ _ _ hrun
        exact ⟨⟨hsame.session, hsame.buffer⟩, refl_of SameWrites _⟩
      · cases h
    · cases h
  | fill =>
    simp only [rdmaLink] at h
    split at h
    · split at h
      · next hrun =>
        obtain rfl := Option.some.inj h
        exact ⟨RdmaSidebandDataImp.sameReads_store _ _ _ _ _ hrun, refl_of SameWrites _⟩
      · cases h
    · cases h
  | finishWrite =>
    simp only [rdmaLink] at h
    split at h
    · split at h
      · next hrun =>
        obtain rfl := Option.some.inj h
        exact ⟨RdmaSidebandDataImp.sameReads_finishDirectWrite _ _ _ _ hrun, refl_of SameWrites _⟩
      · cases h
    · cases h
  | deliver r =>
    obtain ⟨sessions, -, rfl⟩ := Option.map_eq_some_iff.mp h
    exact ⟨⟨rfl, rfl⟩, ⟨rfl, rfl⟩⟩
  | beginRead =>
    simp only [rdmaLink] at h
    split at h
    · split at h
      · next hrun =>
        obtain rfl := Option.some.inj h
        exact ⟨refl_of SameReads _,
          RdmaSidebandDataImp.sameWrites_beginDirectReadLengthPrefixed _ _ _ hrun⟩
      · cases h
    · cases h
  | parse =>
    simp only [rdmaLink] at h
    split at h
    · split at h
      · next hrun =>
        obtain rfl := Option.some.inj h
        exact ⟨refl_of SameReads _,
          RdmaSidebandDataImp.sameWrites_parseFromArray codec _ _ _ _ _ hrun⟩
      · cases h
    · cases h
  | finishRead =>
    simp only [rdmaLink] at h
    split at h
    · split at h
      · next hrun =>
        obtain rfl := Option.some.inj h
        exact ⟨refl_of SameReads _, RdmaSidebandDataImp.sameWrites_finishDirectRead _ _ _ hrun⟩
      · cases h
    · cases h

/-- The message that is being written. -/
def Writing.message : Writing M → List M
  | .idle => []
  | .begun m _ => [m]
  | .filled m => [m]

/-- The messages read are the first ones written. -/
theorem IsLink.reads_eq (h : IsLink codec link t) (ht : (messageQueue M).Reachable Anything t) :
    ∃ read, link.reads = read.map some ∧ read <+: link.written :=
  ⟨t.received, h.received, ⟨t.queue, by rw [← h.sent, fifo_sent_eq ht]⟩⟩

/-- The link is still the same queue. -/
theorem IsLink.congr (h : IsLink codec link t) (hsame : SameLink link link') :
    IsLink codec link' t := by
  obtain ⟨writer, reader, writing, reading, written, reads⟩ := link
  obtain ⟨writer', reader', writing', reading', written', reads'⟩ := link'
  obtain ⟨⟨hsend, hwrite⟩, ⟨hreceive, hread⟩, rfl, rfl, rfl, rfl⟩ := hsame
  obtain ⟨send, receive, writeBuffer, readBuffer⟩ := writer
  obtain ⟨send', receive', writeBuffer', readBuffer'⟩ := writer'
  obtain ⟨rsend, rreceive, rwriteBuffer, rreadBuffer⟩ := reader
  obtain ⟨rsend', rreceive', rwriteBuffer', rreadBuffer'⟩ := reader'
  dsimp only at hsend hwrite hreceive hread
  subst hsend hwrite hreceive hread
  exact ⟨h.sendResults, h.receiveResults, h.writer, h.reader, h.inFlight, h.arrived, h.queue,
    h.sent, h.received⟩

variable (codec) in
/-- What a step of a link waits for: its own party's turn, and a region where it takes one. -/
def Enabled (link : RdmaLink M size) : RdmaLinkStep M → Prop
  | .beginWrite m _ => link.writing = .idle ∧ (codec.serialize m).length + sizeofInt64 ≤ size ∧
      ∃ r, link.writer.connectedWriteSession.Free r
  | .fill => ∃ m buffer, link.writing = .begun m buffer
  | .finishWrite => ∃ m, link.writing = .filled m
  | .deliver r => link.writer.connectedWriteSession.queue ≠ [] ∧
      link.reader.connectedReadSession.Free r
  | .beginRead => link.reading = .idle ∧ link.reader.connectedReadSession.delivered ≠ []
  | .parse => ∃ buffer bufferSize, link.reading = .begun buffer bufferSize
  | .finishRead => ∃ success, link.reading = .parsed success

/-- The calls wait for nothing else. -/
theorem IsLink.isSome_next_iff (h : IsLink codec link t) (a : RdmaLinkStep M) :
    ((rdmaLink codec size).next link a).isSome ↔ Enabled codec link a := by
  constructor
  · intro hsome
    obtain ⟨link', hnext⟩ := Option.isSome_iff_exists.mp hsome
    cases a with
    | beginWrite m prefer =>
      have hfree : ∃ r, link.writer.connectedWriteSession.Free r := by
        by_contra hfree
        rw [next_beginWrite_blocked h hfree] at hnext
        cases hnext
      simp only [rdmaLink] at hnext
      split at hnext
      · next hidle =>
        split_ifs at hnext with hm
        exact ⟨hidle, hm, hfree⟩
      · cases hnext
    | fill =>
      cases linkMoves_of_next hnext with
      | fill before => exact ⟨_, _, before⟩
    | finishWrite =>
      cases linkMoves_of_next hnext with
      | finishWrite before => exact ⟨_, before⟩
    | deliver r =>
      cases linkMoves_of_next hnext with
      | deliver _ _ delivers =>
        exact ((easyRdma size).deliver_isSome_iff _ _ _).mp (Option.isSome_of_eq_some delivers)
    | beginRead =>
      cases linkMoves_of_next hnext with
      | beginRead before =>
        refine ⟨before, fun hdelivered => ?_⟩
        rw [next_beginRead_blocked h hdelivered] at hnext
        cases hnext
    | parse =>
      cases linkMoves_of_next hnext with
      | parse before => exact ⟨_, _, before⟩
    | finishRead =>
      cases linkMoves_of_next hnext with
      | finishRead before => exact ⟨_, before⟩
  · intro henabled
    cases a with
    | beginWrite m prefer =>
      obtain ⟨hidle, hm, hfree⟩ := henabled
      obtain ⟨link', hnext, -⟩ := next_beginWrite h hidle hm prefer hfree
      exact Option.isSome_of_eq_some hnext
    | fill =>
      obtain ⟨m, buffer, hbegun⟩ := henabled
      obtain ⟨link', hnext, -⟩ := next_fill h hbegun
      exact Option.isSome_of_eq_some hnext
    | finishWrite =>
      obtain ⟨m, hfilled⟩ := henabled
      obtain ⟨link', t', hnext, -⟩ := next_finishWrite h hfilled
      exact Option.isSome_of_eq_some hnext
    | deliver r =>
      obtain ⟨hne, hfree⟩ := henabled
      obtain ⟨e, rest, hflight⟩ := List.exists_cons_of_ne_nil hne
      obtain ⟨link', hnext, -⟩ := next_deliver h hflight hfree
      exact Option.isSome_of_eq_some hnext
    | beginRead =>
      obtain ⟨hidle, hdelivered⟩ := henabled
      obtain ⟨link', hnext, -⟩ := next_beginRead h hidle hdelivered
      exact Option.isSome_of_eq_some hnext
    | parse =>
      obtain ⟨buffer, bufferSize, hbegun⟩ := henabled
      obtain ⟨link', hnext, -⟩ := next_parse h hbegun
      exact Option.isSome_of_eq_some hnext
    | finishRead =>
      obtain ⟨success, hparsed⟩ := henabled
      obtain ⟨link', t', hnext, -⟩ := next_finishRead h hparsed
      exact Option.isSome_of_eq_some hnext

theorem SameLink.enabled_iff (hsame : SameLink link link') (a : RdmaLinkStep M) :
    Enabled codec link' a ↔ Enabled codec link a := by
  cases a <;> simp only [Enabled, hsame.writing, hsame.reading, hsame.writer.session,
    hsame.reader.session]

/-- What holds up a step of the link is the same. -/
theorem IsLink.isSome_next_congr (h : IsLink codec link t) (hsame : SameLink link link')
    (a : RdmaLinkStep M) :
    ((rdmaLink codec size).next link' a).isSome ↔ ((rdmaLink codec size).next link a).isSome := by
  rw [(h.congr hsame).isSome_next_iff, h.isSome_next_iff, hsame.enabled_iff]

end Link

/-! ### Two parties -/

/-- One party: its handle, where its calls are, and a record of what they have done. Its writing
and its reading are two threads, which share nothing but the handle. -/
structure RdmaParty (W R : Type) (size : ℕ) where
  handle : RdmaSidebandDataImp size
  writing : Writing W := .idle
  reading : Reading R := .idle
  written : List W := []
  reads : List (Option R) := []

/-- The party that writes the `Q`s and the one that writes the `P`s, each of which reads what the
other writes. -/
structure RdmaSession (Q P : Type) (size : ℕ) where
  client : RdmaParty Q P size
  owner : RdmaParty P Q size

inductive RdmaSessionStep (Q P : Type)
  | requests (a : RdmaLinkStep Q)
  | responses (a : RdmaLinkStep P)

section Session

variable {Q P : Type} {size : ℕ}

namespace RdmaSession

/-- The connection from its other end, so that what is proved of the one link is proved of the
other. -/
def swap (s : RdmaSession Q P size) : RdmaSession P Q size := ⟨s.owner, s.client⟩

/-- The link from the client to the owner. -/
def requests (s : RdmaSession Q P size) : RdmaLink Q size where
  writer := s.client.handle
  reader := s.owner.handle
  writing := s.client.writing
  reading := s.owner.reading
  written := s.client.written
  reads := s.owner.reads

def setRequests (s : RdmaSession Q P size) (link : RdmaLink Q size) : RdmaSession Q P size where
  client := { s.client with
    handle := link.writer, writing := link.writing, written := link.written }
  owner := { s.owner with handle := link.reader, reading := link.reading, reads := link.reads }

/-- The link from the owner to the client. -/
def responses (s : RdmaSession Q P size) : RdmaLink P size := s.swap.requests

def setResponses (s : RdmaSession Q P size) (link : RdmaLink P size) : RdmaSession Q P size :=
  (s.swap.setRequests link).swap

end RdmaSession

variable (requestCodec : MessageLite Q) (responseCodec : MessageLite P)

/-- The steps of the two links, in any order: a party may write and read at the same time, and
neither direction waits for the other. What is left out of a link is left out here: calls of
easyrdma that fail, and messages that fit no region. -/
def rdmaSession (size : ℕ) : Machine (RdmaSession Q P size) (RdmaSessionStep Q P) where
  init s := (rdmaLink requestCodec size).init s.requests ∧
    (rdmaLink responseCodec size).init s.responses
  next s
    | .requests a => ((rdmaLink requestCodec size).next s.requests a).map s.setRequests
    | .responses a => ((rdmaLink responseCodec size).next s.responses a).map s.setResponses

/-- The connection as two queues of messages, each in a state that it can get into alone. The
queues have nothing to do with each other. -/
structure IsDuplex (s : RdmaSession Q P size) : Prop where
  requests : ∃ t, (messageQueue Q).Reachable Anything t ∧ IsLink requestCodec s.requests t
  responses : ∃ t, (messageQueue P).Reachable Anything t ∧ IsLink responseCodec s.responses t

variable {requestCodec responseCodec} {s s' : RdmaSession Q P size}

/-- A step of the one link leaves the other. -/
theorem RdmaSession.sameResponses {a : RdmaLinkStep Q} {link : RdmaLink Q size}
    (h : (rdmaLink requestCodec size).next s.requests a = some link) :
    SameLink s.responses (s.setRequests link).responses := by
  have hback := sameBack_of_next h
  exact ⟨hback.reader, hback.writer, rfl, rfl, rfl, rfl⟩

theorem RdmaSession.sameRequests {a : RdmaLinkStep P} {link : RdmaLink P size}
    (h : (rdmaLink responseCodec size).next s.responses a = some link) :
    SameLink s.requests (s.setResponses link).requests := by
  have hback := sameBack_of_next h
  exact ⟨hback.reader, hback.writer, rfl, rfl, rfl, rfl⟩

theorem IsLink.exists_next {M : Type} {codec : MessageLite M} {link link' : RdmaLink M size}
    {t : Fifo M} {a : RdmaLinkStep M} (h : IsLink codec link t)
    (ht : (messageQueue M).Reachable Anything t)
    (hnext : (rdmaLink codec size).next link a = some link') :
    ∃ t', (messageQueue M).Reachable Anything t' ∧ IsLink codec link' t' := by
  rcases (h.step hnext).2 with hstay | ⟨b, t', hb, hlink⟩
  · exact ⟨t, ht, hstay⟩
  · exact ⟨t', .step ht trivial hb, hlink⟩

/-- **The connection is two queues of messages**, whatever the order of the steps of both. A step
of the one leaves what the other has of the two handles. -/
theorem isDuplex_of_reachable (h : (rdmaSession requestCodec responseCodec size).Reachable Anything
    s) : IsDuplex requestCodec responseCodec s := by
  induction h with
  | init h =>
    exact ⟨⟨{}, .init rfl, isLink_init size requestCodec h.1⟩,
      ⟨{}, .init rfl, isLink_init size responseCodec h.2⟩⟩
  | @step s s' a _ _ hnext ih =>
    obtain ⟨⟨t, ht, hrequests⟩, u, hu, hresponses⟩ := ih
    cases a with
    | requests a =>
      obtain ⟨link, hlink, rfl⟩ := Option.map_eq_some_iff.mp hnext
      exact ⟨hrequests.exists_next ht hlink,
        u, hu, hresponses.congr (RdmaSession.sameResponses hlink)⟩
    | responses a =>
      obtain ⟨link, hlink, rfl⟩ := Option.map_eq_some_iff.mp hnext
      exact ⟨⟨t, ht, hrequests.congr (RdmaSession.sameRequests hlink)⟩,
        hresponses.exists_next hu hlink⟩

variable (requestCodec responseCodec) in
/-- What the connection promises its two parties in a state: each direction is a queue of
messages with the window of its own regions, and what one direction does leaves the other where
it was. -/
structure CarriesBothWays (s : RdmaSession Q P size) : Prop where
  /-- Each direction delivers its messages in order. -/
  requests : IsMessageQueue requestCodec s.requests
  responses : IsMessageQueue responseCodec s.responses
  /-- Each has a window of its own. -/
  requestsWindow : Window requestCodec s.requests
  responsesWindow : Window responseCodec s.responses
  /-- A step of the one neither lets a step of the other go on nor holds it up. -/
  responsesApart : ∀ a s', (rdmaSession requestCodec responseCodec size).next s (.requests a) =
    some s' → ∀ b, (((rdmaSession requestCodec responseCodec size).next s' (.responses b)).isSome ↔
      ((rdmaSession requestCodec responseCodec size).next s (.responses b)).isSome)
  requestsApart : ∀ b s', (rdmaSession requestCodec responseCodec size).next s (.responses b) =
    some s' → ∀ a, (((rdmaSession requestCodec responseCodec size).next s' (.requests a)).isSome ↔
      ((rdmaSession requestCodec responseCodec size).next s (.requests a)).isSome)

/-- **Each direction of a connection is a link of its own**, although both parties have one
handle for both. The messages of either direction are in order and have their window, and the
directions do not hold each other up. -/
theorem carriesBothWays_of_reachable
    (h : (rdmaSession requestCodec responseCodec size).Reachable Anything s) :
    CarriesBothWays requestCodec responseCodec s := by
  obtain ⟨⟨t, ht, hrequests⟩, u, hu, hresponses⟩ := isDuplex_of_reachable h
  refine ⟨hrequests.isMessageQueue ht, hresponses.isMessageQueue hu, hrequests.window ht,
    hresponses.window hu, fun a s' hnext b => ?_, fun b s' hnext a => ?_⟩
  · obtain ⟨link, hlink, rfl⟩ := Option.map_eq_some_iff.mp hnext
    simp only [rdmaSession, Option.isSome_map]
    exact hresponses.isSome_next_congr (RdmaSession.sameResponses hlink) b
  · obtain ⟨link, hlink, rfl⟩ := Option.map_eq_some_iff.mp hnext
    simp only [rdmaSession, Option.isSome_map]
    exact hrequests.isSome_next_congr (RdmaSession.sameRequests hlink) a

/-- The client's second request is in flight while it reads the response to its first. -/
theorem carriesBothWays_of_reachable_run : ∃ s : RdmaSession _ _ 9,
    s.requests.written.length = 2 ∧ s.requests.reads.length = 1 ∧ s.responses.reads.length = 1 ∧
      CarriesBothWays rawMessage rawMessage s := by
  have hexec : ((rdmaSession rawMessage rawMessage 9).exec
      ⟨⟨⟨.configured 9, .configured 9, {}, {}⟩, .idle, .idle, [], []⟩,
        ⟨⟨.configured 9, .configured 9, {}, {}⟩, .idle, .idle, [], []⟩⟩
      [.requests (.beginWrite ⟨[1], by decide⟩ 0), .requests .fill, .requests .finishWrite,
        .requests (.deliver 1), .requests .beginRead, .requests .parse,
        .requests (.beginWrite ⟨[2], by decide⟩ 0), .requests .finishRead,
        .responses (.beginWrite ⟨[7], by decide⟩ 1), .requests .fill, .responses .fill,
        .responses .finishWrite, .requests .finishWrite, .responses (.deliver 0),
        .responses .beginRead, .responses .parse, .responses .finishRead]).map
      (fun s => (s.requests.written.length, s.requests.reads.length, s.responses.reads.length)) =
    some (2, 1, 1) := by decide +kernel
  obtain ⟨s, hs, hrecords⟩ := Option.map_eq_some_iff.mp hexec
  simp only [Prod.mk.injEq] at hrecords
  obtain ⟨hwritten, hreads, hresponses⟩ := hrecords
  have hrun := Machine.exec_reachable
    (by exact ⟨⟨rfl, rfl, rfl, rfl, rfl, rfl, rfl, rfl, rfl, rfl⟩,
      ⟨rfl, rfl, rfl, rfl, rfl, rfl, rfl, rfl, rfl, rfl⟩⟩) hs
  exact ⟨s, hwritten, hreads, hresponses, carriesBothWays_of_reachable hrun⟩

end Session

end Sideband
