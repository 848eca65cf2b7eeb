import Sideband.Sockets.Session

/-!
# A stream from its first byte on

The client sends the id of its stream at the end of `ConnectToSocket`, and the accept thread reads
it in `ReadConnectionId`, each in as many pieces as the kernel makes of it. The client may go on to
its messages while the id is still on the way, and the owner takes nothing of them for the id.

* `readConnectionId_of_readIds`: the steps that read the id are a call of `ReadConnectionId`.
* `socketStream_refines`: the stream is a session behind the id, as no step of a party looks at what
  it has sent before (`SocketParty.step_preceded`).
* `streamCarries_of_reachable`: so the owner reads the id and no more, and both read the messages.
-/

namespace Sideband

open Foundation

/-! ### The machine -/

/-- A session, what `ConnectToSocket` has left to send of the id, and the buffer and the offset
of `ReadConnectionId`, until it returns. The two sides come to their messages independently. -/
structure SocketStream where
  session : SocketSession
  greeting : Bytes
  reading : Option (Bytes × ℕ)

inductive SocketStreamStep
  /-- A `send` of `ConnectToSocket`. -/
  | greet (count : ℕ)
  /-- A `recv` of `ReadConnectionId` that returns bytes. One that fails for now is made again. -/
  | readId (count : ℕ)
  | party (side : Side) (a : PartyStep)
  | deliver (side : Side) (count : ℕ)
  deriving DecidableEq, Repr

namespace SocketStream

variable (s : SocketStream)

abbrev party (side : Side) : SocketParty := s.session.party side

/-- A `send` of `ConnectToSocket`. The result of `WriteToSocket` is not looked at there, so no
failure is modelled. -/
def greet (count : ℕ) : Option SocketStream :=
  if s.greeting = [] then none
  else some { s with
    session := s.session.set .client ((s.party .client).sendRound count s.greeting)
    greeting := s.greeting.drop (transferCount count s.greeting.length) }

/-- A `recv` of `ReadConnectionId`, which sets `_id` after the last one. It asks for no more than
the id has left, and so takes nothing behind it. -/
def readId (count : ℕ) : Option SocketStream :=
  match s.reading with
  | none => none
  | some (buffer, start) =>
    let owner := s.party .owner
    if owner.connection.incoming = [] then none
    else
      let bytes := owner.received count (connectIdLength - start)
      (storeAt start bytes buffer).map fun buffer =>
        let owner := owner.recvRound count (connectIdLength - start)
        if connectIdLength ≤ start + bytes.length then
          { s with
            session := s.session.set .owner { owner with handle.derived.id := buffer }
            reading := none }
        else
          { s with
            session := s.session.set .owner owner
            reading := some (buffer, start + bytes.length) }

/-- A party has come to its messages: the client has sent its id, the owner has read it. -/
def ready : Side → Bool
  | .owner => s.reading.isNone
  | .client => s.greeting.isEmpty

end SocketStream

/-- The client, the owner and the network from the connection on: a session in which the client
first sends the id, and the owner first reads as many bytes as an id has. What is left out of a
session is left out here. -/
def socketStream (id : Bytes) (size : ℕ) : Machine SocketStream SocketStreamStep where
  init s := (socketSession size).init s.session ∧ s.greeting = id ∧
    s.reading = some (List.replicate connectIdLength 0, 0)
  next s
    | .greet count => s.greet count
    | .readId count => s.readId count
    | .party side a =>
      if s.ready side then
        ((s.party side).step a).map fun p => { s with session := s.session.set side p }
      else none
    | .deliver side count => (s.session.deliver side count).map fun session => { s with session }

/-! ### The two calls -/

section Calls

variable {s s' : SocketStream} {buffer : Bytes} {start : ℕ} {counts : List ℕ}

/-- The `greet` steps, one after the other, are the `WriteToSocket` of `ConnectToSocket`. -/
theorem writeLoop_of_greets (hlt : s.greeting.length < 2 ^ 31)
    (h : counts.foldlM SocketStream.greet s = some s') (hdone : s'.greeting = []) :
    writeLoop (s.party .client).connection s.greeting (counts.map .accept) =
      .ok (true, { (s'.party .client).connection with sends := [] }) := by
  induction counts generalizing s with
  | nil =>
    obtain rfl : s = s' := Option.some.inj h
    rw [hdone, List.map_nil, writeLoop_nil]
  | cons count counts ih =>
    rw [List.foldlM_cons] at h
    obtain ⟨q, hq, hrest⟩ := Option.bind_eq_some_iff.mp h
    rw [SocketStream.greet] at hq
    split_ifs at hq with hgreeting
    obtain rfl := Option.some.inj hq
    have htail := ih ((List.drop_sublist _ _).length_le.trans_lt hlt) hrest
    dsimp only [SocketStream.party] at htail
    rw [SocketSession.party_set_self] at htail
    rw [List.map_cons, writeLoop_piece _ hgreeting hlt]
    exact htail

/-- The `readId` steps, one after the other, are the loop of `ReadFromSocket`. -/
theorem readLoop_of_readIds (hreading : s.reading = some (buffer, start))
    (hlength : buffer.length = connectIdLength) (hlt : start < connectIdLength)
    (h : counts.foldlM SocketStream.readId s = some s') (hdone : s'.reading = none) :
    readLoop (s.party .owner).connection (some buffer) start (connectIdLength - start : ℕ)
        (counts.map .deliver) =
      .ok ((true, some (s'.party .owner).handle.derived.id),
        { (s'.party .owner).connection with recvs := [] }) ∧
      (s'.party .owner).handle.derived = { (s.party .owner).handle.derived with
        id := (s'.party .owner).handle.derived.id
        connection := (s'.party .owner).connection } := by
  induction counts generalizing s buffer start with
  | nil =>
    obtain rfl : s = s' := Option.some.inj h
    rw [hreading] at hdone
    cases hdone
  | cons count counts ih =>
    rw [List.foldlM_cons] at h
    obtain ⟨q, hq, hrest⟩ := Option.bind_eq_some_iff.mp h
    have hin : (s.party .owner).connection.incoming ≠ [] := by
      intro hnil
      rw [SocketStream.readId, hreading] at hq
      dsimp only at hq
      rw [if_pos hnil] at hq
      cases hq
    rw [SocketStream.readId, hreading] at hq
    dsimp only at hq
    rw [if_neg hin] at hq
    obtain ⟨buffer', hstore, hq⟩ := Option.map_eq_some_iff.mp hq
    have hround := readLoop_received (s.party .owner) start
      (show (0 : ℤ) < (connectIdLength - start : ℕ) by omega) hin
      (show buffer.length < 2 ^ 31 by rw [hlength]; decide) hstore (counts.map .deliver)
    rw [Int.toNat_natCast] at hround
    rw [List.map_cons, hround]
    split_ifs at hq with hfull
    · -- the id is read, so this was the last step
      obtain rfl := hq
      cases counts with
      | nil =>
        obtain rfl := Option.some.inj hrest
        dsimp only [SocketStream.party] at hfull ⊢
        rw [SocketSession.party_set_self]
        exact ⟨readLoop_done _ _ _ _ (by omega), rfl⟩
      | cons count' counts => cases hrest
    · obtain rfl := hq
      obtain ⟨htail, hsame⟩ :=
        ih rfl ((length_of_storeAt hstore).trans hlength) (not_le.mp hfull) hrest
      dsimp only [SocketStream.party] at htail hsame hfull ⊢
      rw [SocketSession.party_set_self] at htail hsame
      refine ⟨htail ▸ congrArg (readLoop _ _ _ · _) ?_, hsame⟩
      omega

/-- The `readId` steps are a call of `ReadConnectionId`. -/
theorem readConnectionId_of_readIds
    (hreading : s.reading = some (List.replicate connectIdLength 0, 0))
    (h : counts.foldlM SocketStream.readId s = some s') (hdone : s'.reading = none)
    (sends : List SendEvent) :
    SocketSidebandData.readConnectionId.run ((s.party .owner).handle.derived.withConnection
        { (s.party .owner).connection with sends, recvs := counts.map .deliver }) =
      .ok (⟨⟩, (s'.party .owner).handle.derived.withConnection
        { (s'.party .owner).connection with sends, recvs := [] }) := by
  obtain ⟨hloop, hsame⟩ := readLoop_of_readIds hreading List.length_replicate (by decide) h hdone
  refine (Exec.run_bind_ok (SocketSidebandData.readFromSocket_of_readLoop
    (s.party .owner).handle.derived sends hloop)).trans ?_
  rw [hsame]
  rfl

end Calls

/-! ### What was sent before -/

namespace SocketParty

variable {p p' : SocketParty} {bytes : Bytes} {a : PartyStep}

/-- The party with bytes on their way before those that it has sent. -/
def preceded (bytes : Bytes) (p : SocketParty) : SocketParty :=
  p.withConnection { p.connection with outgoing := bytes ++ p.connection.outgoing }

theorem sendRest_preceded (payload rest : Bytes) :
    (p.preceded bytes).sendRest payload rest = (p.sendRest payload rest).preceded bytes := by
  rw [sendRest, sendRest]
  split_ifs <;> rfl

theorem sendRound_preceded (count : ℕ) (rest : Bytes) :
    (p.preceded bytes).sendRound count rest = (p.sendRound count rest).preceded bytes := by
  have hassoc := List.append_assoc bytes p.connection.outgoing
    (rest.take (transferCount count rest.length))
  exact congrArg (fun outgoing => p.withConnection { p.connection with outgoing }) hassoc

theorem recvRest_preceded (bufferSize : ℤ) (start : ℕ) :
    (p.preceded bytes).recvRest bufferSize start =
      (p.recvRest bufferSize start).map (preceded bytes) := by
  rw [recvRest, recvRest]
  split_ifs
  · rfl
  · rw [Option.map_map]
    rfl
  · rfl

theorem call_preceded : (p.preceded bytes).call = p.call := rfl

theorem beginWrite_preceded (payload : Bytes) :
    (p.preceded bytes).beginWrite payload = (p.beginWrite payload).map (preceded bytes) := by
  rw [beginWrite, beginWrite, call_preceded]
  cases p.call with
  | idle =>
    dsimp only
    split_ifs
    · rw [Option.map_map]
      rfl
    · rfl
  | _ => rfl

theorem send_preceded (count : ℕ) :
    (p.preceded bytes).send count = (p.send count).map (preceded bytes) := by
  rw [send, send, call_preceded]
  cases p.call with
  | sendPrefix payload rest =>
    dsimp only
    rw [sendRound_preceded]
    split_ifs
    · rw [sendRest_preceded]
      rfl
    · rfl
  | sendPayload payload rest =>
    dsimp only
    rw [sendRound_preceded, sendRest_preceded]
    rfl
  | _ => rfl

theorem recvSome_preceded (count : ℕ) :
    (p.preceded bytes).recvSome count = (p.recvSome count).map (preceded bytes) := by
  rw [recvSome, recvSome, call_preceded,
    show (p.preceded bytes).connection.incoming = p.connection.incoming from rfl]
  by_cases hin : p.connection.incoming = []
  · rw [if_pos hin, if_pos hin]
    rfl
  rw [if_neg hin, if_neg hin]
  cases p.call with
  | recvPrefix bufferSize start =>
    dsimp only
    rw [Option.map_bind, show (p.preceded bytes).received count (sizeofInt64 - start) =
      p.received count (sizeofInt64 - start) from rfl]
    refine congrArg (Option.bind _) (funext fun header => ?_)
    rw [Function.comp_apply]
    split_ifs
    · exact recvRest_preceded (p := (p.recvRound count (sizeofInt64 - start)).withBuffer
        p.handle.allocated) (int64OfLe header) 0
    · rfl
  | recvPayload bufferSize start =>
    dsimp only
    rw [Option.map_bind]
    exact congrArg (Option.bind _) (funext fun buffer => recvRest_preceded
      (p := (p.recvRound count (bufferSize.toNat - start)).withBuffer buffer) bufferSize
      (start + (p.received count (bufferSize.toNat - start)).length))
  | _ => rfl

theorem recv_preceded (e : RecvEvent) :
    (p.preceded bytes).recv e = (p.recv e).map (preceded bytes) := by
  cases e with
  | deliver count => exact recvSome_preceded count
  | closed =>
    rw [recv, recv, call_preceded]
    split_ifs <;> rfl
  | fail errno =>
    rw [recv, recv, call_preceded]
    split_ifs <;> rfl

/-- No step looks at what was sent before. -/
theorem step_preceded : (p.preceded bytes).step a = (p.step a).map (preceded bytes) := by
  cases a with
  | beginWrite payload => exact beginWrite_preceded payload
  | send count => exact send_preceded count
  | beginRead =>
    rw [step, step, beginRead, beginRead, call_preceded]
    cases p.call <;> rfl
  | recv e => exact recv_preceded e

end SocketParty

/-! ### The session behind the id -/

/-- While the id is read, the owner's other bytes and the client's are those of a session: `early`
has arrived and `late` has not. The owner of that session has its id already. -/
structure Behind (id : Bytes) (s : SocketStream) (t : SocketSession) (buffer : Bytes) (start : ℕ)
    (early late : Bytes) : Prop where
  id_eq : buffer.take start ++ early ++ late ++ s.greeting = id
  length : buffer.length = connectIdLength
  lt : start < connectIdLength
  client : s.party .client = (t.party .client).preceded late
  owner : ∃ incoming, (s.party .owner).connection.incoming = early ++ incoming ∧
    t.party .owner = { s.party .owner with
      handle.derived.id := id
      handle.derived.connection.incoming := incoming } ∧
    (late ++ s.greeting ≠ [] → incoming = [])
  /-- The client comes to its messages after the id. -/
  waits : s.greeting ≠ [] → (t.party .client).connection.outgoing = []
  /-- The owner has sent nothing. -/
  silent : (s.party .owner).connection.outgoing = []

/-- The stream as a session, in which the owner has the id from the start. While the id is read,
the bytes of the id that are on the way are taken out of the streams. -/
inductive IsStream (id : Bytes) (s : SocketStream) (t : SocketSession) : Prop
  | reading {buffer : Bytes} {start : ℕ} {early late : Bytes}
      (hreading : s.reading = some (buffer, start)) (h : Behind id s t buffer start early late)
  | read (hreading : s.reading = none) (hsession : s.session = t) (hgreeting : s.greeting = [])

theorem SocketSession.ext_of_parties {s t : SocketSession}
    (howner : s.party .owner = t.party .owner) (hclient : s.party .client = t.party .client) :
    s = t := by
  obtain ⟨party⟩ := s
  obtain ⟨party'⟩ := t
  refine congrArg SocketSession.mk (funext fun side => ?_)
  cases side with
  | owner => exact howner
  | client => exact hclient

/-- What arrives is what was sent first. -/
theorem SocketSession.deliver_eq_some (s : SocketSession) (side : Side) (count : ℕ)
    (hout : (s.party side).connection.outgoing ≠ []) :
    ∃ s' n, n = transferCount count (s.party side).connection.outgoing.length ∧
      s.deliver side count = some s' ∧
      s'.party side = (s.party side).withConnection { (s.party side).connection with
        outgoing := (s.party side).connection.outgoing.drop n } ∧
      s'.party side.peer = (s.party side.peer).withConnection { (s.party side.peer).connection with
        incoming := (s.party side.peer).connection.incoming ++
          (s.party side).connection.outgoing.take n } := by
  refine ⟨_, _, rfl, if_neg hout, ?_, ?_⟩
  · rw [SocketSession.party_set_peer_self, SocketSession.party_set_self]
  · rw [SocketSession.party_set_self]

section Streams

variable {id : Bytes} {size : ℕ} {s s' : SocketStream} {t : SocketSession} {buffer : Bytes}
  {start count : ℕ} {early late : Bytes}

/-- A `send` of `ConnectToSocket` puts bytes of the id on their way. -/
theorem Behind.greet (h : Behind id s t buffer start early late)
    (hstep : s.greet count = some s') : ∃ late, Behind id s' t buffer start early late := by
  rw [SocketStream.greet] at hstep
  split_ifs at hstep with hgreeting
  obtain rfl := Option.some.inj hstep
  obtain ⟨n, hn⟩ : ∃ n, transferCount count s.greeting.length = n := ⟨_, rfl⟩
  obtain ⟨incoming, hin, howner, hwaits⟩ := h.owner
  have hclient : (s.party .client).sendRound count s.greeting =
      (t.party .client).preceded (late ++ s.greeting.take n) := by
    rw [h.client, ← hn]
    refine congrArg (fun outgoing => (t.party .client).withConnection
      { (t.party .client).connection with outgoing }) ?_
    change late ++ (t.party .client).connection.outgoing ++ _ = _ ++ _
    rw [h.waits hgreeting, List.append_nil, List.append_nil]
  have hsame : (s.session.set .client ((s.party .client).sendRound count s.greeting)).party .owner =
      s.party .owner := SocketSession.party_set_peer .client _ _
  refine ⟨late ++ s.greeting.take n, ⟨?_, h.length, h.lt, ?_, ⟨incoming, ?_, ?_, ?_⟩, ?_, ?_⟩⟩
  · dsimp only
    rw [hn, ← List.append_assoc, List.append_assoc _ (List.take n _), List.take_append_drop]
    exact h.id_eq
  · exact (SocketSession.party_set_self .client _ _).trans hclient
  · exact (congrArg (fun p => p.connection.incoming) hsame).trans hin
  · dsimp only [SocketStream.party]
    rw [hsame]
    exact howner
  · exact fun _ => hwaits (List.append_ne_nil_of_right_ne_nil _ hgreeting)
  · exact fun _ => h.waits hgreeting
  · exact (congrArg (fun p => p.connection.outgoing) hsame).trans h.silent

/-- The network takes bytes of the id first, and then bytes of the session. -/
theorem Behind.deliver (h : Behind id s t buffer start early late) {session : SocketSession}
    (hstep : s.session.deliver .client count = some session) :
    ∃ early late, Behind id { s with session } t buffer start early late ∨
      ∃ count t', t.deliver .client count = some t' ∧
        Behind id { s with session } t' buffer start early late := by
  have hout : (s.party .client).connection.outgoing ≠ [] := by
    intro hnil
    rw [SocketSession.deliver, if_pos hnil] at hstep
    cases hstep
  obtain ⟨session', n, hn, hdeliver, hsender, hreceiver⟩ :=
    s.session.deliver_eq_some .client count hout
  obtain rfl : session' = session := Option.some.inj (hdeliver.symm.trans hstep)
  change session'.party .owner = (s.party .owner).withConnection { (s.party .owner).connection with
    incoming := (s.party .owner).connection.incoming ++
      (s.party .client).connection.outgoing.take n } at hreceiver
  obtain ⟨incoming, hin, howner, hwaits⟩ := h.owner
  obtain ⟨sent, hsent⟩ : ∃ sent, (t.party .client).connection.outgoing = sent := ⟨_, rfl⟩
  have hstream : (s.party .client).connection.outgoing = late ++ sent := by
    rw [h.client, ← hsent]
    rfl
  have hle : n ≤ (late ++ sent).length := by
    rw [← hstream, hn]
    exact transferCount_le (List.length_pos_iff.mpr hout)
  rw [List.length_append] at hle
  have hpos : 0 < n := hn ▸ transferCount_pos _ _
  have hrest : session'.party .client = (t.party .client).withConnection
      { (t.party .client).connection with outgoing := (late ++ sent).drop n } := by
    rw [show (s.session.party .client).connection.outgoing = _ from hstream] at hsender
    refine hsender.trans ?_
    rw [show s.session.party .client = _ from h.client]
    rfl
  have hsilent : (session'.party .owner).connection.outgoing = [] := by
    rw [hreceiver]
    exact h.silent
  rw [hin, hstream] at hreceiver
  rcases Nat.lt_or_ge late.length n with hmore | hall
  · -- the rest of the id, and bytes of the session behind it
    have hgreeting : s.greeting = [] := by
      by_contra hne
      rw [← hsent, h.waits hne, List.length_nil] at hle
      omega
    have hsome : (t.party .client).connection.outgoing ≠ [] := by
      rw [hsent]
      exact List.ne_nil_of_length_pos (by omega)
    obtain ⟨t', m, hm, hdeliver', hsender', hreceiver'⟩ :=
      t.deliver_eq_some .client (n - late.length) hsome
    obtain rfl : m = n - late.length := by
      rw [hm, hsent, transferCount]
      omega
    have hbytes : early ++ incoming ++ (late ++ sent).take n =
        early ++ late ++ (incoming ++ sent.take (n - late.length)) := by
      rw [List.take_append, List.take_of_length_le hmore.le]
      by_cases hnil : late = []
      · simp only [hnil, List.append_nil, List.nil_append, List.append_assoc]
      · rw [hwaits (List.append_ne_nil_of_left_ne_nil hnil _)]
        simp only [List.append_nil, List.nil_append, List.append_assoc]
    rw [hbytes] at hreceiver
    refine ⟨early ++ late, [], .inr ⟨_, t', hdeliver', ⟨?_, h.length, h.lt, ?_,
      ⟨incoming ++ sent.take (n - late.length), ?_, ?_, ?_⟩, ?_, hsilent⟩⟩⟩
    · rw [List.append_nil, ← List.append_assoc]
      exact h.id_eq
    · rw [List.drop_append, List.drop_eq_nil_of_le hmore.le, List.nil_append, ← hsent] at hrest
      rw [hsender']
      exact hrest
    · rw [show ({ s with session := session' } : SocketStream).party .owner = _ from hreceiver]
      rfl
    · rw [show ({ s with session := session' } : SocketStream).party .owner = _ from hreceiver]
      refine hreceiver'.trans ?_
      rw [show t.party Side.client.peer = _ from howner, hsent]
      rfl
    · exact fun hne => absurd (List.append_eq_nil_iff.mpr ⟨rfl, hgreeting⟩) hne
    · exact fun hne => absurd hgreeting hne
  · -- bytes of the id
    have hnil : incoming = [] := hwaits (List.append_ne_nil_of_left_ne_nil
      (List.ne_nil_of_length_pos (by omega)) _)
    rw [List.take_append_of_le_length hall, hnil, List.append_nil] at hreceiver
    refine ⟨early ++ late.take n, late.drop n, .inl ⟨?_, h.length, h.lt, ?_,
      ⟨[], ?_, ?_, fun _ => rfl⟩, h.waits, hsilent⟩⟩
    · have hid : buffer.take start ++ (early ++ late.take n) ++ late.drop n =
          buffer.take start ++ early ++ late := by
        simp only [List.append_assoc, List.take_append_drop]
      rw [hid]
      exact h.id_eq
    · rw [List.drop_append_of_le_length hall, ← hsent] at hrest
      exact hrest
    · rw [show ({ s with session := session' } : SocketStream).party .owner = _ from hreceiver]
      exact (List.append_nil _).symm
    · rw [show ({ s with session := session' } : SocketStream).party .owner = _ from hreceiver,
        howner, hnil]
      rfl

/-- The client's messages are those of the session. -/
theorem Behind.party (h : Behind id s t buffer start early late) {a : PartyStep} {p : SocketParty}
    (hready : s.greeting = []) (hstep : (s.party .client).step a = some p) :
    ∃ q, (t.party .client).step a = some q ∧
      Behind id { s with session := s.session.set .client p } (t.set .client q) buffer start
        early late := by
  obtain ⟨incoming, hin, howner, hwaits⟩ := h.owner
  rw [h.client, SocketParty.step_preceded] at hstep
  obtain ⟨q, hq, rfl⟩ := Option.map_eq_some_iff.mp hstep
  have hsame : (s.session.set .client (q.preceded late)).party .owner = s.party .owner :=
    SocketSession.party_set_peer .client _ _
  have hsame' : (t.set .client q).party .owner = t.party .owner :=
    SocketSession.party_set_peer .client _ _
  refine ⟨q, hq, ⟨h.id_eq, h.length, h.lt, ?_, ⟨incoming, ?_, ?_, hwaits⟩, ?_, ?_⟩⟩
  · rw [SocketSession.party_set_self]
    exact SocketSession.party_set_self .client _ _
  · exact (congrArg (fun p => p.connection.incoming) hsame).trans hin
  · rw [hsame', howner]
    dsimp only [SocketStream.party]
    rw [hsame]
  · exact fun hne => absurd hready hne
  · exact (congrArg (fun p => p.connection.outgoing) hsame).trans h.silent

/-- The owner takes nothing but the id from the stream. -/
theorem Behind.readId (hid : id.length = connectIdLength)
    (h : Behind id s t buffer start early late) (hreading : s.reading = some (buffer, start))
    (hin : (s.party .owner).connection.incoming ≠ []) (count : ℕ) :
    ∃ s', s.readId count = some s' ∧ IsStream id s' t := by
  obtain ⟨incoming, hincoming, howner, hwaits⟩ := h.owner
  have hlt := h.lt
  have hlength := h.length
  obtain ⟨n, buffer', hn, hlen, hstore, hsize, hmoved⟩ :=
    (s.party .owner).storeAt_received hin (show 0 < connectIdLength - start by omega)
      (show start + (connectIdLength - start) ≤ buffer.length by omega) count
  obtain ⟨owner, ho⟩ : ∃ owner,
      (s.party .owner).recvRound count (connectIdLength - start) = owner := ⟨_, rfl⟩
  rw [ho, hincoming] at hmoved
  have htaken : (buffer'.take (start + n)).length = start + n := by
    rw [List.length_take]
    omega
  have hidLength := congrArg List.length h.id_eq
  simp only [List.length_append, List.length_take, hid] at hidLength
  -- what is missing of the id is in front, and nothing else has arrived before it is there
  have hfew : n ≤ early.length := by
    by_cases hnil : late ++ s.greeting = []
    · have hlengths := congrArg List.length hnil
      rw [List.length_append, List.length_nil] at hlengths
      omega
    · have hlengths := congrArg List.length hmoved
      rw [hwaits hnil, List.append_nil, List.length_append, List.length_append, htaken,
        List.length_take] at hlengths
      omega
  obtain ⟨early', hearly⟩ : buffer'.take (start + n) <+: buffer.take start ++ early := by
    refine List.prefix_of_prefix_length_le ⟨_, hmoved⟩ ⟨incoming, List.append_assoc _ _ _⟩ ?_
    rw [htaken, List.length_append, List.length_take]
    omega
  have hleft : owner.connection.incoming = early' ++ incoming := by
    rw [← List.append_assoc, ← hearly, List.append_assoc] at hmoved
    exact List.append_cancel_left hmoved
  have howner' : owner = (s.party .owner).withConnection { (s.party .owner).connection with
      incoming := early' ++ incoming } := by
    rw [← hleft, ← ho]
    rfl
  have hidEq : buffer'.take (start + n) ++ early' ++ late ++ s.greeting = id := by
    rw [hearly]
    exact h.id_eq
  rw [SocketStream.readId, hreading]
  dsimp only
  rw [if_neg hin, hstore, Option.map_some, hlen, ho]
  by_cases hfull : connectIdLength ≤ start + n
  · -- the id is read
    rw [List.take_of_length_le (by omega)] at hidEq
    have hnothing : early' ++ (late ++ s.greeting) = [] := by
      have hlengths := congrArg List.length hidEq
      simp only [List.length_append, hid] at hlengths
      refine List.eq_nil_of_length_eq_zero ?_
      simp only [List.length_append]
      omega
    obtain ⟨rfl, hrest⟩ := List.append_eq_nil_iff.mp hnothing
    obtain ⟨rfl, hgreeting⟩ := List.append_eq_nil_iff.mp hrest
    rw [hgreeting, List.append_nil, List.append_nil, List.append_nil] at hidEq
    rw [if_pos hfull]
    refine ⟨_, rfl, .read rfl (SocketSession.ext_of_parties ?_ ?_) hgreeting⟩
    · refine (SocketSession.party_set_self .owner _ _).trans ?_
      rw [howner, howner', hidEq]
      rfl
    · exact (SocketSession.party_set_peer .owner _ _).trans h.client
  · rw [if_neg hfull]
    have hself : (s.session.set .owner owner).party .owner = owner :=
      SocketSession.party_set_self .owner _ _
    refine ⟨_, rfl, .reading rfl ⟨hidEq, hsize.trans hlength, not_le.mp hfull, ?_,
      ⟨incoming, ?_, ?_, hwaits⟩, h.waits, ?_⟩⟩
    · exact (SocketSession.party_set_peer .owner _ _).trans h.client
    · exact (congrArg (fun p => p.connection.incoming) hself).trans hleft
    · dsimp only [SocketStream.party]
      rw [hself, howner, howner']
      rfl
    · refine (congrArg (fun p => p.connection.outgoing) hself).trans ?_
      rw [howner']
      exact h.silent

/-! ### The refinement -/

/-- A stream starts as a session whose owner has its id. -/
theorem isStream_init (h : (socketStream id size).init s) :
    ∃ t, (socketSession size).init t ∧ IsStream id s t ∧
      (t.party .owner).handle.derived.id = id := by
  obtain ⟨hsession, hgreeting, hreading⟩ := h
  obtain ⟨o, ho, hin, hout⟩ := hsession .owner
  obtain ⟨c, hc, hin', hout'⟩ := hsession .client
  obtain ⟨t, ht⟩ : ∃ t, s.session.set .owner { handle := .new size { o with id } } = t := ⟨_, rfl⟩
  have howner : t.party .owner = { handle := .new size { o with id } } :=
    ht ▸ SocketSession.party_set_self .owner _ _
  have hclient : t.party .client = { handle := .new size c } :=
    (ht ▸ SocketSession.party_set_peer .owner _ _).trans hc
  have hbehind : Behind id s t (List.replicate connectIdLength 0) 0 [] [] := by
    refine ⟨hgreeting, List.length_replicate, by decide, hc.trans hclient.symm,
      ⟨[], ?_, ?_, fun _ => rfl⟩, fun _ => ?_, ?_⟩
    · rw [SocketStream.party, ho]
      exact hin
    · rw [howner, SocketStream.party, ho, ← hin]
      rfl
    · rw [hclient]
      exact hout'
    · rw [SocketStream.party, ho]
      exact hout
  refine ⟨t, fun side => ?_, .reading hreading hbehind, congrArg (·.handle.derived.id) howner⟩
  cases side with
  | owner => exact ⟨{ o with id }, howner, hin, hout⟩
  | client => exact ⟨c, hclient, hin', hout'⟩

/-- A step is one of the session, or the session does not see it. -/
theorem IsStream.step (hid : id.length = connectIdLength) (h : IsStream id s t)
    {a : SocketStreamStep} (hnext : (socketStream id size).next s a = some s') :
    IsStream id s' t ∨ ∃ b t', (socketSession size).next t b = some t' ∧ IsStream id s' t' := by
  cases h with
  | read hreading hsession hgreeting =>
    subst hsession
    cases a with
    | greet count =>
      change s.greet count = some s' at hnext
      rw [SocketStream.greet, if_pos hgreeting] at hnext
      cases hnext
    | readId count =>
      change s.readId count = some s' at hnext
      rw [SocketStream.readId, hreading] at hnext
      cases hnext
    | party side a =>
      rw [socketStream] at hnext
      dsimp only at hnext
      split_ifs at hnext
      obtain ⟨p, hp, rfl⟩ := Option.map_eq_some_iff.mp hnext
      exact .inr ⟨.party side a, _, Option.map_eq_some_iff.mpr ⟨p, hp, rfl⟩,
        .read hreading rfl hgreeting⟩
    | deliver side count =>
      obtain ⟨session, hdeliver, rfl⟩ := Option.map_eq_some_iff.mp hnext
      exact .inr ⟨.deliver side count, session, hdeliver, .read hreading rfl hgreeting⟩
  | reading hreading h =>
    cases a with
    | greet count =>
      obtain ⟨late, h⟩ := h.greet hnext
      have hsame : s'.reading = s.reading := by
        change s.greet count = some s' at hnext
        rw [SocketStream.greet] at hnext
        split_ifs at hnext
        rw [← Option.some.inj hnext]
      exact .inl (.reading (hsame.trans hreading) h)
    | readId count =>
      have hin : (s.party .owner).connection.incoming ≠ [] := by
        intro hnil
        change s.readId count = some s' at hnext
        rw [SocketStream.readId, hreading] at hnext
        dsimp only at hnext
        rw [if_pos hnil] at hnext
        cases hnext
      obtain ⟨s'', hread, hstream⟩ := h.readId hid hreading hin count
      obtain rfl : s'' = s' := Option.some.inj (hread.symm.trans hnext)
      exact .inl hstream
    | party side a =>
      rw [socketStream] at hnext
      dsimp only at hnext
      split_ifs at hnext with hready
      obtain ⟨p, hp, rfl⟩ := Option.map_eq_some_iff.mp hnext
      cases side with
      | owner =>
        rw [SocketStream.ready, hreading] at hready
        cases hready
      | client =>
        obtain ⟨q, hq, h⟩ := h.party (List.isEmpty_iff.mp hready) hp
        exact .inr ⟨.party .client a, _, Option.map_eq_some_iff.mpr ⟨q, hq, rfl⟩,
          .reading hreading h⟩
    | deliver side count =>
      obtain ⟨session, hdeliver, rfl⟩ := Option.map_eq_some_iff.mp hnext
      cases side with
      | owner =>
        rw [SocketSession.deliver, if_pos h.silent] at hdeliver
        cases hdeliver
      | client =>
        obtain ⟨early, late, hstay | ⟨m, t', ht, hmoved⟩⟩ := h.deliver hdeliver
        · exact .inl (.reading hreading hstay)
        · exact .inr ⟨.deliver .client m, t', ht, .reading hreading hmoved⟩

/-! ### The id stays -/

theorem SocketParty.handle_sendRest (p : SocketParty) (payload rest : Bytes) :
    (p.sendRest payload rest).handle = p.handle := by
  rw [SocketParty.sendRest]
  split_ifs <;> rfl

theorem SocketParty.handle_recvRest {p p' : SocketParty} {bufferSize : ℤ}
    (h : p.recvRest bufferSize start = some p') : p'.handle = p.handle := by
  rw [SocketParty.recvRest] at h
  split_ifs at h
  · obtain ⟨payload, -, rfl⟩ := Option.map_eq_some_iff.mp h
    rfl
  · exact Option.some.inj h ▸ rfl

theorem SocketParty.id_of_step {p p' : SocketParty} {a : PartyStep} (h : p.step a = some p') :
    p'.handle.derived.id = p.handle.derived.id := by
  cases a with
  | beginWrite payload =>
    rw [SocketParty.step, SocketParty.beginWrite] at h
    cases hcall : p.call with
    | idle =>
      rw [hcall] at h
      dsimp only at h
      split_ifs at h
      obtain ⟨buffer, -, rfl⟩ := Option.map_eq_some_iff.mp h
      rfl
    | _ => simp [hcall] at h
  | send count =>
    rw [SocketParty.step, SocketParty.send] at h
    cases hcall : p.call with
    | sendPrefix payload rest =>
      rw [hcall] at h
      dsimp only at h
      split_ifs at h
      · rw [← Option.some.inj h, SocketParty.handle_sendRest]
        rfl
      · rw [← Option.some.inj h]
        rfl
    | sendPayload payload rest =>
      rw [hcall] at h
      rw [← Option.some.inj h, SocketParty.handle_sendRest]
      rfl
    | _ => simp [hcall] at h
  | beginRead =>
    rw [SocketParty.step, SocketParty.beginRead] at h
    cases hcall : p.call with
    | idle =>
      rw [hcall] at h
      rw [← Option.some.inj h]
    | _ => simp [hcall] at h
  | recv e =>
    cases e with
    | deliver count =>
      rw [SocketParty.step, SocketParty.recv, SocketParty.recvSome] at h
      split_ifs at h
      cases hcall : p.call with
      | recvPrefix bufferSize start =>
        rw [hcall] at h
        obtain ⟨header, -, hrest⟩ := Option.bind_eq_some_iff.mp h
        dsimp only at hrest
        split_ifs at hrest
        · rw [SocketParty.handle_recvRest hrest]
          rfl
        · rw [← Option.some.inj hrest]
          rfl
      | recvPayload bufferSize start =>
        rw [hcall] at h
        obtain ⟨buffer, -, hrest⟩ := Option.bind_eq_some_iff.mp h
        rw [SocketParty.handle_recvRest hrest]
        rfl
      | _ => simp [hcall] at h
    | closed =>
      rw [SocketParty.step, SocketParty.recv] at h
      split_ifs at h
      rw [← Option.some.inj h]
    | fail errno =>
      rw [SocketParty.step, SocketParty.recv] at h
      split_ifs at h
      rw [← Option.some.inj h]
      rfl

/-- No step of a session changes an id. -/
theorem SocketSession.id_of_next {t t' : SocketSession} {a : SocketSessionStep}
    (h : (socketSession size).next t a = some t') (side : Side) :
    (t'.party side).handle.derived.id = (t.party side).handle.derived.id := by
  cases a with
  | party side' a =>
    obtain ⟨p, hp, rfl⟩ := Option.map_eq_some_iff.mp h
    rcases Side.eq_or_eq_peer side' side with rfl | rfl
    · rw [SocketSession.party_set_self]
      exact SocketParty.id_of_step hp
    · rw [SocketSession.party_set_peer]
  | deliver side' count =>
    change t.deliver side' count = some t' at h
    have hout : (t.party side').connection.outgoing ≠ [] := by
      intro hnil
      rw [SocketSession.deliver, if_pos hnil] at h
      cases h
    obtain ⟨t'', n, -, hdeliver, hsender, hreceiver⟩ := t.deliver_eq_some side' count hout
    obtain rfl : t'' = t' := Option.some.inj (hdeliver.symm.trans h)
    rcases Side.eq_or_eq_peer side' side with rfl | rfl
    · rw [hsender]
      rfl
    · rw [hreceiver]
      rfl

variable (id size) in
/-- **The stream refines the session behind its id**, in which the owner has the id. Until both
parties have come to their messages, the steps leave the session as it begins. -/
theorem socketStream_refines (hid : id.length = connectIdLength) :
    Machine.Refinement (socketStream id size) Anything (socketSession size) fun s t =>
      IsStream id s t ∧ (t.party .owner).handle.derived.id = id where
  init _ h := isStream_init h
  step _ _ _ _ h _ hnext := by
    rcases h.1.step hid hnext with hstay | ⟨b, t', hb, hstep⟩
    · exact .inl ⟨hstay, h.2⟩
    · exact .inr ⟨b, t', hb, hstep, (SocketSession.id_of_next hb .owner).trans h.2⟩

/-! ### What the stream promises -/

/-- What the stream promises in a state: the owner gets the id and nothing behind it, and from
there on what a session promises. -/
structure StreamCarries (id : Bytes) (size : ℕ) (s : SocketStream) : Prop where
  /-- The owner comes to its messages with the client's id, and none of its bytes is left. -/
  read : s.reading = none → (s.party .owner).handle.derived.id = id ∧ s.greeting = [] ∧
    CarriesMessages size s.session
  /-- Before that the client may go on, but no message is lost to the id. -/
  inOrder : ∀ side, (s.party side.peer).read <+: (s.party side).written
  /-- The accept thread waits for nothing but bytes. -/
  readId : ∀ count, s.reading ≠ none → (((socketStream id size).next s (.readId count)).isSome ↔
    (s.party .owner).connection.incoming ≠ [])
  /-- They come: the whole id is not read before it is there. -/
  arrives : s.reading ≠ none → s.greeting = [] → (s.party .client).connection.outgoing = [] →
    (s.party .owner).connection.incoming ≠ []

theorem IsStream.written_read (h : IsStream id s t) (side : Side) :
    (s.party side).written = (t.party side).written ∧
      (s.party side).read = (t.party side).read := by
  cases h with
  | read hreading hsession hgreeting =>
    subst hsession
    exact ⟨rfl, rfl⟩
  | reading hreading h =>
    cases side with
    | owner =>
      obtain ⟨incoming, -, howner, -⟩ := h.owner
      rw [howner]
      exact ⟨rfl, rfl⟩
    | client =>
      rw [h.client]
      exact ⟨rfl, rfl⟩

/-- **The id and the messages share the stream**: however the kernel cuts it, the owner reads the
id and no more, and the messages behind it reach their reader in order. -/
theorem streamCarries_of_reachable (hid : id.length = connectIdLength)
    (h : (socketStream id size).Reachable Anything s) : StreamCarries id size s := by
  obtain ⟨t, ht, hstream, howner⟩ := (socketStream_refines id size hid).reachable h
  obtain ⟨queues, hqueues, hsession⟩ := (socketSession_refines size).reachable ht
  have hcarries := hsession.carriesMessages hqueues
  refine ⟨fun hnone => ?_, fun side => ?_, fun count hread => ?_, fun hread hgreeting hout => ?_⟩
  · cases hstream with
    | read hreading heq hgreeting =>
      subst heq
      exact ⟨howner, hgreeting, hcarries⟩
    | reading hreading h => cases hnone.symm.trans hreading
  · rw [(hstream.written_read side.peer).2, (hstream.written_read side).1]
    exact hcarries.inOrder side
  · cases hstream with
    | read hreading heq hgreeting => exact absurd hreading hread
    | reading hreading h =>
      constructor
      · intro hsome hnil
        have hnone : s.readId count = none := by
          rw [SocketStream.readId, hreading]
          exact if_pos hnil
        rw [show (socketStream id size).next s (.readId count) = none from hnone] at hsome
        cases hsome
      · intro hin
        obtain ⟨s', hs', -⟩ := h.readId hid hreading hin count
        rw [show (socketStream id size).next s (.readId count) = some s' from hs',
          Option.isSome_some]
  · cases hstream with
    | read hreading heq hgreeting => exact absurd hreading hread
    | @reading buffer start early late hreading h =>
      obtain ⟨incoming, hin, -, -⟩ := h.owner
      -- the buffer lacks bytes, and nothing else holds them
      have hlate : late = [] := by
        rw [h.client] at hout
        exact (List.append_eq_nil_iff.mp hout).1
      have hlength := congrArg List.length h.id_eq
      have hlt := h.lt
      rw [hlate, hgreeting, List.append_nil, List.append_nil, List.length_append, List.length_take,
        hid] at hlength
      rw [hin]
      refine List.append_ne_nil_of_left_ne_nil (List.ne_nil_of_length_pos ?_) _
      omega

/-- The client's message follows the id, and the owner reads both in pieces. -/
theorem streamCarries_of_reachable_run : (connectionId 1).length = connectIdLength ∧
    ∃ s : SocketStream, (socketStream (connectionId 1) 8).Reachable Anything s ∧
      s.reading = none ∧ (s.party .owner).read = [[7]] ∧
        StreamCarries (connectionId 1) 8 s := by
  have hexec : ((socketStream (connectionId 1) 8).exec
      ⟨⟨fun _ => { handle := .new 8 ⟨[], 5, true, {}⟩ }⟩, connectionId 1,
        some (List.replicate connectIdLength 0, 0)⟩
      [.greet 5, .deliver .client 4, .readId 9, .greet 20, .party .client (.beginWrite [7]),
        .party .client (.send 8), .deliver .client 30, .readId 1, .readId 20,
        .party .client (.send 1), .party .owner .beginRead,
        .party .owner (.recv (.deliver 5)), .party .owner (.recv (.deliver 5)),
        .deliver .client 1, .party .owner (.recv (.deliver 5))]).map
      (fun s => (s.reading, (s.party .owner).read)) = some (none, [[7]]) := by decide
  obtain ⟨s, hs, hmap⟩ := Option.map_eq_some_iff.mp hexec
  rw [Prod.mk.injEq] at hmap
  have hreachable : (socketStream (connectionId 1) 8).Reachable Anything s :=
    Machine.exec_reachable ⟨fun _ => ⟨_, rfl, rfl, rfl⟩, rfl, rfl⟩ hs
  exact ⟨by decide, s, hreachable, hmap.1, hmap.2,
    streamCarries_of_reachable (by decide) hreachable⟩

end Streams

end Sideband
