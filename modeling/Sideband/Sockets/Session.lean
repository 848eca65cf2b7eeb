import Sideband.Sockets.Parties

/-!
# A socket session

The two parties of a stream over one connection. Between the steps of the parties the network takes
bytes from one end to the other (`socketSession`). The steps come in any order, so a message may be
read in pieces while the rest of it is still being written, in both directions at once.

* `socketSession_refines`: the session is two queues of messages, one in each direction.
* `carriesMessages_of_reachable`: what a party has read is what its peer has written, in order; a
  `send` never goes wrong, and a `recv` waits for nothing but bytes.
-/

namespace Sideband

open Foundation

/-! ### The session -/

/-- The two parties. The bytes between them are the sent ones of one and the received ones of the
other, and the network moves them. -/
structure SocketSession where
  party : Side → SocketParty

/-- A party takes a step, or the network does. How much it takes at once, and how long it waits,
is open. -/
inductive SocketSessionStep
  | party (side : Side) (a : PartyStep)
  /-- The network takes some of the bytes that a party has sent to its peer. -/
  | deliver (side : Side) (count : ℕ)
  deriving DecidableEq, Repr

namespace SocketSession

/-- A party changes. -/
def set (side : Side) (p : SocketParty) (s : SocketSession) : SocketSession :=
  ⟨Function.update s.party side p⟩

@[simp]
theorem party_set_self (side : Side) (p : SocketParty) (s : SocketSession) :
    (s.set side p).party side = p := Function.update_self _ _ _

@[simp]
theorem party_set_peer (side : Side) (p : SocketParty) (s : SocketSession) :
    (s.set side p).party side.peer = s.party side.peer :=
  Function.update_of_ne (by cases side <;> decide) _ _

@[simp]
theorem party_set_peer_self (side : Side) (p : SocketParty) (s : SocketSession) :
    (s.set side.peer p).party side = s.party side :=
  Function.update_of_ne (by cases side <;> decide) _ _

/-- Bytes on their way arrive, as many as the network brings at once, in the order in which they
were sent. -/
def deliver (side : Side) (count : ℕ) (s : SocketSession) : Option SocketSession :=
  let c := (s.party side).connection
  let c' := (s.party side.peer).connection
  if c.outgoing = [] then none
  else
    let n := transferCount count c.outgoing.length
    some ((s.set side ((s.party side).withConnection { c with outgoing := c.outgoing.drop n })).set
      side.peer ((s.party side.peer).withConnection
        { c' with incoming := c'.incoming ++ c.outgoing.take n }))

end SocketSession

/-- The two parties and the network, in any order; a step of a party is one `send` or one `recv`.
The handles are fresh, with buffers of `size` bytes, and each party makes one call at a time. The
network cuts and delays the bytes as it likes, and keeps any number of them. Left out are a
connection that fails or closes, and a `send` that would block. -/
def socketSession (size : ℕ) : Machine SocketSession SocketSessionStep where
  init s := ∀ side, ∃ h : SocketSidebandData, s.party side = { handle := .new size h } ∧
    h.connection.incoming = [] ∧ h.connection.outgoing = []
  next s
    | .party side a => ((s.party side).step a).map fun p => s.set side p
    | .deliver side count => s.deliver side count

/-! ### What is on the way -/

theorem frames_append (payloads payloads' : List Bytes) :
    frames (payloads ++ payloads') = frames payloads ++ frames payloads' :=
  List.flatMap_append

namespace SocketParty

variable (p : SocketParty)

/-- The message that is being written. -/
def sending : List Bytes :=
  match p.call with
  | .sendPrefix payload _ => [payload]
  | .sendPayload payload _ => [payload]
  | _ => []

/-- The bytes of its frame that no `send` has accepted. -/
def unsent : Bytes :=
  match p.call with
  | .sendPrefix payload rest => rest ++ payload
  | .sendPayload _ rest => rest
  | _ => []

/-- The received bytes of the message that is being read: the prefix, and the part of the payload
that is in the serialize buffer. -/
def consumed : Bytes :=
  match p.call with
  | .recvPrefix bufferSize start => bufferSize.take start
  | .recvPayload bufferSize start => le64 bufferSize ++ p.handle.serializeBuffer.take start
  | _ => []

/-- What the call says about the serialize buffer and its own variables. While a payload is sent,
it is still at the front of the buffer. -/
def CallAt (size : ℕ) (buffer : Bytes) : MessageCall → Prop
  | .idle => True
  | .sendPrefix payload rest => rest ≠ [] ∧ slice 0 payload.length buffer = payload
  | .sendPayload _ rest => rest ≠ []
  | .recvPrefix bufferSize start => bufferSize.length = sizeofInt64 ∧ start < sizeofInt64
  | .recvPayload bufferSize start => (start : ℤ) < bufferSize ∧ buffer.length = size

/-- The handle is one with buffers of `size` bytes, in the midst of its call. It says nothing
about the streams. -/
structure Wellformed (size : ℕ) : Prop where
  ready : Ready size p.handle
  callAt : CallAt size p.handle.serializeBuffer p.call

end SocketParty

/-- The messages from the party `w` to the party `r` as a queue: what `r` has received of the
message it reads, what is on the way and what `w` still has to send are the frames of the messages
that `r` has not read, the last of which `w` may be writing. -/
structure Conveys (size : ℕ) (w r : SocketParty) (t : Fifo Bytes) : Prop where
  stream : r.consumed ++ r.connection.incoming ++ w.connection.outgoing ++ w.unsent =
    frames (t.queue ++ w.sending)
  fits : ∀ payload ∈ t.queue ++ w.sending, payload.length ≤ size ∧ payload.length < 2 ^ 31
  /-- The length that `r` has read is that of the message in front. -/
  payload : ∀ bufferSize start, r.call = .recvPayload bufferSize start →
    ∃ payload rest, t.queue ++ w.sending = payload :: rest ∧ bufferSize = payload.length
  sent : t.sent = w.written
  received : t.received = r.read

/-- The party's reading is as before. Steps of its writing and of its peer are of this kind. -/
structure KeepsReading (p p' : SocketParty) : Prop where
  consumed : p'.consumed = p.consumed
  incoming : p'.connection.incoming = p.connection.incoming
  recvPayload : ∀ bufferSize start, p'.call = .recvPayload bufferSize start →
    p.call = .recvPayload bufferSize start
  read : p'.read = p.read

/-- The party's writing is as before. Steps of its reading and of its peer are of this kind. -/
structure KeepsWriting (p p' : SocketParty) : Prop where
  outgoing : p'.connection.outgoing = p.connection.outgoing
  unsent : p'.unsent = p.unsent
  sending : p'.sending = p.sending
  written : p'.written = p.written

section Steps

variable {size : ℕ} {w w' r r' p p' : SocketParty} {t : Fifo Bytes} {payload : Bytes}

theorem Conveys.congr (h : Conveys size w r t) (hw : KeepsWriting w w')
    (hr : KeepsReading r r') : Conveys size w' r' t where
  stream := by
    rw [hr.consumed, hr.incoming, hw.outgoing, hw.unsent, hw.sending]
    exact h.stream
  fits := by
    rw [hw.sending]
    exact h.fits
  payload bufferSize start hcall := by
    rw [hw.sending]
    exact h.payload bufferSize start (hr.recvPayload bufferSize start hcall)
  sent := h.sent.trans hw.written.symm
  received := h.received.trans hr.read.symm

/-! ### Writing -/

theorem SocketParty.Wellformed.unsent_ne_nil (hp : p.Wellformed size) (hsending : p.sending ≠ []) :
    p.unsent ≠ [] := by
  have hat := hp.callAt
  rw [SocketParty.unsent]
  cases hcall : p.call with
  | sendPrefix payload rest =>
    rw [hcall] at hat
    exact List.append_ne_nil_of_left_ne_nil hat.1 payload
  | sendPayload payload rest =>
    rw [hcall] at hat
    exact hat
  | idle => simp [SocketParty.sending, hcall] at hsending
  | recvPrefix bufferSize start => simp [SocketParty.sending, hcall] at hsending
  | recvPayload bufferSize start => simp [SocketParty.sending, hcall] at hsending

/-- A write begins with the whole frame to send. -/
theorem Conveys.beginWrite (h : Conveys size w r t) (hw : w.Wellformed size)
    (hidle : w.call = .idle) (hle : payload.length ≤ size) (hlt : payload.length < 2 ^ 31) :
    ∃ w', w.beginWrite payload = some w' ∧ w'.Wellformed size ∧ KeepsReading w w' ∧
      Conveys size w' r t := by
  have hallocated := hw.ready.length_allocated
  have hlength : (overlay 0 payload w.handle.allocated).length = size := by
    rw [length_overlay (by omega), hallocated]
  have hstore : storeAt 0 payload w.handle.allocated =
      some (overlay 0 payload w.handle.allocated) := storeAt_eq_some (by omega)
  have hsending : w.sending = [] := by rw [SocketParty.sending, hidle]
  have hunsent : w.unsent = [] := by rw [SocketParty.unsent, hidle]
  have hconsumed : w.consumed = [] := by rw [SocketParty.consumed, hidle]
  refine ⟨{ w.withBuffer (overlay 0 payload w.handle.allocated) with
    call := .sendPrefix payload (le64 payload.length) }, ?_, ⟨⟨hw.ready.bufferSize, .inr hlength⟩,
    ?_, slice_overlay (Nat.zero_le _)⟩, ⟨hconsumed.symm, rfl, by simp, rfl⟩, ?_⟩
  · rw [SocketParty.beginWrite, hidle]
    dsimp only
    rw [if_pos hlt, hstore, Option.map_some]
  · exact List.ne_nil_of_length_pos (by rw [length_le64]; decide)
  · have hstream := h.stream
    have hfits := h.fits
    have hpayload := h.payload
    rw [hsending, List.append_nil] at hstream hfits hpayload
    refine ⟨?_, ?_, ?_, h.sent, h.received⟩
    · rw [hunsent, List.append_nil] at hstream
      change _ ++ (le64 payload.length ++ payload) = frames (t.queue ++ [payload])
      rw [frames_append, ← hstream, frames_cons, frames_nil, List.append_nil, frame]
      rfl
    · intro q hq
      rcases List.mem_append.mp hq with hq | hq
      · exact hfits q hq
      · rw [List.mem_singleton.mp hq]
        exact ⟨hle, hlt⟩
    · intro bufferSize start hcall
      obtain ⟨q, rest, hqueue, hlen⟩ := hpayload bufferSize start hcall
      exact ⟨q, rest ++ [payload], congrArg (· ++ [payload]) hqueue, hlen⟩

theorem SocketParty.consumed_of_sending (h : p.sending ≠ []) : p.consumed = [] := by
  cases hcall : p.call with
  | recvPrefix bufferSize start => simp [SocketParty.sending, hcall] at h
  | recvPayload bufferSize start => simp [SocketParty.sending, hcall] at h
  | _ => rw [SocketParty.consumed, hcall]

/-- `WriteToSocket` of the payload has `rest` left to send. -/
theorem Conveys.sendRest (h : Conveys size w r t) (hsending : w.sending = [payload])
    (p : SocketParty) (rest : Bytes) (hready : Ready size p.handle)
    (hincoming : p.connection.incoming = w.connection.incoming) (hread : p.read = w.read)
    (hwritten : p.written = w.written)
    (hstream : r.consumed ++ r.connection.incoming ++ p.connection.outgoing ++ rest =
      frames (t.queue ++ [payload])) :
    (p.sendRest payload rest).Wellformed size ∧ KeepsReading w (p.sendRest payload rest) ∧
      (Conveys size (p.sendRest payload rest) r t ∨ ∃ t',
        (fifo fun _ => true).next t (.push payload) = some t' ∧
          Conveys size (p.sendRest payload rest) r t') := by
  have hconsumed : w.consumed = [] := SocketParty.consumed_of_sending (by simp [hsending])
  have hfits := h.fits
  have hpayload := h.payload
  rw [hsending] at hfits hpayload
  rw [SocketParty.sendRest]
  by_cases hrest : rest = []
  · -- the message is written
    rw [if_pos hrest]
    refine ⟨⟨hready, trivial⟩,
      ⟨hconsumed.symm, hincoming, fun _ _ hcall => (by cases hcall), hread⟩,
      .inr ⟨_, fifo_push rfl, ?_, ?_, ?_, ?_, h.received⟩⟩
    · rw [hrest] at hstream
      change _ ++ [] = frames (t.queue ++ [payload] ++ [])
      rw [List.append_nil (t.queue ++ _)]
      exact hstream
    · change ∀ q ∈ t.queue ++ [payload] ++ [], _
      rw [List.append_nil]
      exact hfits
    · intro bufferSize start hcall
      obtain ⟨q, tail, hqueue, hlen⟩ := hpayload bufferSize start hcall
      exact ⟨q, tail, (List.append_nil _).trans hqueue, hlen⟩
    · rw [h.sent, hwritten]
  · rw [if_neg hrest]
    exact ⟨⟨hready, hrest⟩,
      ⟨hconsumed.symm, hincoming, fun _ _ hcall => (by cases hcall), hread⟩,
      .inl ⟨hstream, hfits, hpayload, h.sent.trans hwritten.symm, h.received⟩⟩

/-- The party is in `WriteToSocket`. -/
theorem SocketParty.sending_ne_nil_iff : p.sending ≠ [] ↔
    (∃ payload rest, p.call = .sendPrefix payload rest) ∨
      ∃ payload rest, p.call = .sendPayload payload rest := by
  cases hcall : p.call <;> simp [SocketParty.sending, hcall]

/-- A `send` takes bytes of the frame to the stream; the last one ends the call. -/
theorem Conveys.send (h : Conveys size w r t) (hw : w.Wellformed size)
    (hsending : w.sending ≠ []) (count : ℕ) :
    ∃ w', w.send count = some w' ∧ w'.Wellformed size ∧ KeepsReading w w' ∧
      (Conveys size w' r t ∨ ∃ payload t',
        (fifo fun _ => true).next t (.push payload) = some t' ∧ Conveys size w' r t') := by
  have hat := hw.callAt
  have hstream := h.stream
  have hconsumed := SocketParty.consumed_of_sending hsending
  rcases SocketParty.sending_ne_nil_iff.mp hsending with
    ⟨payload, rest, hcall⟩ | ⟨payload, rest, hcall⟩
  · rw [hcall] at hat
    obtain ⟨-, hslice⟩ := hat
    have hpayload : w.sending = [payload] := by rw [SocketParty.sending, hcall]
    rw [show w.unsent = rest ++ payload by rw [SocketParty.unsent, hcall], hpayload] at hstream
    by_cases hleft : rest.drop (transferCount count rest.length) = []
    · -- the prefix is sent, and the payload begins
      have hall : rest.take (transferCount count rest.length) = rest := by
        have hsplit := List.take_append_drop (transferCount count rest.length) rest
        rwa [hleft, List.append_nil] at hsplit
      obtain ⟨hwell, hkeeps, hdirection⟩ := h.sendRest hpayload (w.sendRound count rest) payload
        ⟨hw.ready.bufferSize, hw.ready.serializeBuffer⟩ rfl rfl rfl
        (by
          change _ ++ _ ++ (w.connection.outgoing ++ rest.take _) ++ _ = _
          rw [hall, ← hstream]
          simp only [List.append_assoc])
      refine ⟨(w.sendRound count rest).sendRest payload payload, ?_, hwell, hkeeps, ?_⟩
      · simp only [SocketParty.send, hcall, hleft, if_true, hslice]
      · rcases hdirection with hstay | ⟨t', hpush, hdirection⟩
        · exact .inl hstay
        · exact .inr ⟨payload, t', hpush, hdirection⟩
    · refine ⟨{ w.sendRound count rest with
          call := .sendPrefix payload (rest.drop (transferCount count rest.length)) }, ?_,
        ⟨⟨hw.ready.bufferSize, hw.ready.serializeBuffer⟩, hleft, hslice⟩,
        ⟨hconsumed.symm, rfl, fun _ _ hcall => (by cases hcall), rfl⟩, .inl ⟨?_, ?_, ?_, h.sent,
          h.received⟩⟩
      · simp only [SocketParty.send, hcall, hleft, if_false]
      · change _ ++ _ ++ (w.connection.outgoing ++ rest.take _) ++ (rest.drop _ ++ payload) =
          frames (t.queue ++ [payload])
        rw [← hstream]
        simp only [List.append_assoc]
        rw [← List.append_assoc (rest.take _), List.take_append_drop]
      · have hfits := h.fits
        rwa [hpayload] at hfits
      · have hpayload' := h.payload
        rwa [hpayload] at hpayload'
  · have hpayload : w.sending = [payload] := by rw [SocketParty.sending, hcall]
    rw [show w.unsent = rest by rw [SocketParty.unsent, hcall], hpayload] at hstream
    obtain ⟨hwell, hkeeps, hdirection⟩ := h.sendRest hpayload (w.sendRound count rest)
      (rest.drop (transferCount count rest.length))
      ⟨hw.ready.bufferSize, hw.ready.serializeBuffer⟩ rfl rfl rfl
      (by
        change _ ++ _ ++ (w.connection.outgoing ++ rest.take _) ++ _ = _
        rw [← hstream]
        simp only [List.append_assoc]
        rw [List.take_append_drop])
    refine ⟨_, by rw [SocketParty.send, hcall], hwell, hkeeps, ?_⟩
    rcases hdirection with hstay | ⟨t', hpush, hdirection⟩
    · exact .inl hstay
    · exact .inr ⟨payload, t', hpush, hdirection⟩

/-! ### Reading -/

/-- A party that reads does not write. -/
theorem SocketParty.of_receives (h : p.call.receives) : p.sending = [] ∧ p.unsent = [] := by
  cases hcall : p.call with
  | recvPrefix bufferSize start => simp [SocketParty.sending, SocketParty.unsent, hcall]
  | recvPayload bufferSize start => simp [SocketParty.sending, SocketParty.unsent, hcall]
  | _ => simp [MessageCall.receives, hcall] at h

/-- A read begins with nothing received. -/
theorem Conveys.beginRead (h : Conveys size w r t) (hr : r.Wellformed size)
    (hidle : r.call = .idle) :
    ∃ r', r.beginRead = some r' ∧ r'.Wellformed size ∧ KeepsWriting r r' ∧
      Conveys size w r' t := by
  have hsending : r.sending = [] := by rw [SocketParty.sending, hidle]
  have hunsent : r.unsent = [] := by rw [SocketParty.unsent, hidle]
  have hconsumed : r.consumed = [] := by rw [SocketParty.consumed, hidle]
  refine ⟨{ r with call := .recvPrefix (le64 0) 0 }, by rw [SocketParty.beginRead, hidle],
    ⟨hr.ready, length_le64 0, by decide⟩, ⟨rfl, hunsent.symm, hsending.symm, rfl⟩,
    h.congr ⟨rfl, rfl, rfl, rfl⟩ ⟨hconsumed.symm, rfl, fun _ _ hcall => (by cases hcall), rfl⟩⟩

/-- `ReadFromSocket` of the message in front has read `start` bytes of it. -/
theorem Conveys.recvRest (h : Conveys size w r t) (hw : w.Wellformed size)
    (hreceives : r.call.receives) {rest : List Bytes} (p : SocketParty) (start : ℕ)
    (hfront : t.queue ++ w.sending = payload :: rest) (hready : Ready size p.handle)
    (hbuffer : p.handle.serializeBuffer.length = size) (hstart : start ≤ payload.length)
    (hstream : le64 payload.length ++ p.handle.serializeBuffer.take start ++
      p.connection.incoming ++ w.connection.outgoing ++ w.unsent = frames (payload :: rest))
    (houtgoing : p.connection.outgoing = r.connection.outgoing) (hwritten : p.written = r.written)
    (hread : p.read = r.read) :
    ∃ r', p.recvRest payload.length start = some r' ∧ r'.Wellformed size ∧ KeepsWriting r r' ∧
      (Conveys size w r' t ∨ ∃ t',
        (fifo fun _ => true).next t .pop = some t' ∧ Conveys size w r' t') := by
  obtain ⟨hle, hlt⟩ := h.fits payload (hfront ▸ List.mem_cons_self)
  obtain ⟨hsending, hunsent⟩ := SocketParty.of_receives hreceives
  have hint : toInt32 payload.length = payload.length := toInt32_of_range (by omega) (by omega)
  rw [SocketParty.recvRest]
  rcases Nat.lt_or_ge start payload.length with hmissing | hall
  · rw [if_neg (by omega)]
    exact ⟨_, rfl, ⟨hready, Int.ofNat_lt.mpr hmissing, hbuffer⟩,
      ⟨houtgoing, hunsent.symm, hsending.symm, hwritten⟩,
      .inl ⟨hstream.trans (congrArg frames hfront.symm), h.fits, fun bufferSize offset hcall => by
        cases hcall
        exact ⟨payload, rest, hfront, rfl⟩, h.sent, h.received.trans hread.symm⟩⟩
  · obtain rfl : start = payload.length := le_antisymm hstart hall
    have hload : loadAt 0 payload.length p.handle.serializeBuffer =
        some (p.handle.serializeBuffer.take payload.length) := loadAt_eq_some (by omega)
    -- the bytes behind the prefix are the payload, and the frames behind it are left
    have hbytes : p.handle.serializeBuffer.take payload.length = payload ∧
        p.connection.incoming ++ w.connection.outgoing ++ w.unsent = frames rest := by
      rw [frames_cons, frame] at hstream
      simp only [List.append_assoc] at hstream ⊢
      refine List.append_inj (List.append_cancel_left hstream) ?_
      rw [List.length_take]
      omega
    -- not the message that is still being written: there is something left to send of that one
    obtain ⟨queue, hqueue, hrest⟩ : ∃ queue, t.queue = payload :: queue ∧
        queue ++ w.sending = rest := by
      cases hcons : t.queue with
      | cons q queue =>
        rw [hcons, List.cons_append, List.cons.injEq] at hfront
        exact ⟨queue, by rw [hfront.1], hfront.2⟩
      | nil =>
        rw [hcons, List.nil_append] at hfront
        have hone : rest = [] := by
          have hlength := congrArg List.length hfront
          rw [SocketParty.sending] at hlength
          split at hlength <;> simp_all
        rw [hone, frames_nil] at hbytes
        exact absurd (List.append_eq_nil_iff.mp hbytes.2).2
          (hw.unsent_ne_nil (by rw [hfront]; exact List.cons_ne_nil _ _))
    rw [if_pos le_rfl, hint, if_neg (by omega), Int.toNat_natCast, hload, Option.map_some,
      hbytes.1]
    refine ⟨_, rfl, ⟨hready, trivial⟩, ⟨houtgoing, hunsent.symm, hsending.symm, hwritten⟩,
      .inr ⟨_, fifo_pop hqueue, ?_, ?_, fun _ _ hcall => (by cases hcall), h.sent, ?_⟩⟩
    · change [] ++ _ ++ _ ++ _ = frames (queue ++ w.sending)
      rw [hrest, List.nil_append]
      exact hbytes.2
    · intro q hq
      exact h.fits q (hfront ▸ List.mem_cons_of_mem _ (hrest ▸ hq))
    · rw [h.received, ← hread]

/-- One `recv` moves bytes from the stream to the memory at `start`. -/
theorem SocketParty.storeAt_received (p : SocketParty) (hin : p.connection.incoming ≠ [])
    {missing start : ℕ} {mem : Bytes} (hmissing : 0 < missing) (hle : start + missing ≤ mem.length)
    (count : ℕ) :
    ∃ n mem', n ≤ missing ∧ (p.received count missing).length = n ∧
      storeAt start (p.received count missing) mem = some mem' ∧ mem'.length = mem.length ∧
      mem'.take (start + n) ++ (p.recvRound count missing).connection.incoming =
        mem.take start ++ p.connection.incoming := by
  have hlength := List.length_pos_iff.mpr hin
  obtain ⟨n, hn⟩ : ∃ n, transferCount count (min missing p.connection.incoming.length) = n :=
    ⟨_, rfl⟩
  have hmin : n ≤ min missing p.connection.incoming.length := hn ▸ transferCount_le (by omega)
  have hbytes : p.received count missing = p.connection.incoming.take n :=
    congrArg p.connection.incoming.take hn
  have hdrop : (p.recvRound count missing).connection.incoming = p.connection.incoming.drop n :=
    congrArg p.connection.incoming.drop hn
  have hlen : (p.connection.incoming.take n).length = n := by
    rw [List.length_take]
    omega
  refine ⟨n, overlay start (p.connection.incoming.take n) mem, by omega, hbytes ▸ hlen, ?_,
    length_overlay (by omega), ?_⟩
  · rw [hbytes, storeAt_eq_some (by omega)]
  · have htake : (overlay start (p.connection.incoming.take n) mem).take
        (start + (p.connection.incoming.take n).length) = _ := take_add_overlay (by omega)
    rw [hlen] at htake
    rw [htake, hdrop, List.append_assoc, List.take_append_drop]

/-- A whole prefix at the front of the stream is that of the message in front. -/
theorem le64_of_frames {header rest : Bytes} {payloads : List Bytes}
    (hlength : header.length = sizeofInt64) (h : header ++ rest = frames payloads) :
    ∃ payload payloads', payloads = payload :: payloads' ∧ header = le64 payload.length := by
  cases payloads with
  | nil =>
    rw [(List.append_eq_nil_iff.mp h).1] at hlength
    cases hlength
  | cons payload payloads' =>
    rw [frames_cons, frame, List.append_assoc] at h
    exact ⟨payload, payloads', rfl,
      (List.append_inj h (by rw [hlength, length_le64_eq_sizeof])).1⟩

/-- A `recv` takes bytes of the message in front; the last one ends the call. -/
theorem Conveys.recvSome (h : Conveys size w r t) (hw : w.Wellformed size)
    (hr : r.Wellformed size) (hreceives : r.call.receives) (hin : r.connection.incoming ≠ [])
    (count : ℕ) :
    ∃ r', r.recvSome count = some r' ∧ r'.Wellformed size ∧ KeepsWriting r r' ∧
      (Conveys size w r' t ∨ ∃ t',
        (fifo fun _ => true).next t .pop = some t' ∧ Conveys size w r' t') := by
  have hat := hr.callAt
  have hstream := h.stream
  obtain ⟨hsending, hunsent⟩ := SocketParty.of_receives hreceives
  rw [SocketParty.recvSome, if_neg hin]
  cases hcall : r.call with
  | recvPrefix bufferSize start =>
    rw [hcall] at hat
    obtain ⟨hsize, hstart⟩ := hat
    rw [show r.consumed = bufferSize.take start by rw [SocketParty.consumed, hcall]] at hstream
    obtain ⟨n, header, hn, hlen, hstore, hlength, hmoved⟩ := r.storeAt_received hin
      (show 0 < sizeofInt64 - start by omega)
      (show start + (sizeofInt64 - start) ≤ bufferSize.length by omega) count
    rw [← hmoved] at hstream
    dsimp only
    rw [hstore, Option.bind_some, hlen]
    by_cases hfull : sizeofInt64 ≤ start + n
    · -- the prefix is read, and the payload begins
      rw [List.take_of_length_le (by omega)] at hstream
      rw [if_pos hfull]
      obtain ⟨payload, rest, hfront, rfl⟩ := le64_of_frames (hlength.trans hsize)
        (by simpa only [List.append_assoc] using hstream)
      obtain ⟨-, hlt⟩ := h.fits payload (hfront ▸ List.mem_cons_self)
      rw [int64OfLe_le64_natCast (by omega)]
      refine h.recvRest hw hreceives ((r.recvRound count (sizeofInt64 - start)).withBuffer
        r.handle.allocated) 0 hfront ⟨hr.ready.bufferSize, .inr hr.ready.length_allocated⟩
        hr.ready.length_allocated (Nat.zero_le _) ?_ rfl rfl rfl
      rw [List.take_zero, List.append_nil, ← hfront]
      exact hstream
    · rw [if_neg hfull]
      exact ⟨_, rfl, ⟨⟨hr.ready.bufferSize, hr.ready.serializeBuffer⟩, hlength.trans hsize,
        by omega⟩, ⟨rfl, hunsent.symm, hsending.symm, rfl⟩,
        .inl ⟨hstream, h.fits, fun _ _ hcall => (by cases hcall), h.sent, h.received⟩⟩
  | recvPayload bufferSize start =>
    rw [hcall] at hat
    obtain ⟨hstart, hsize⟩ := hat
    obtain ⟨payload, rest, hfront, rfl⟩ := h.payload bufferSize start hcall
    obtain ⟨hle, -⟩ := h.fits payload (hfront ▸ List.mem_cons_self)
    rw [show r.consumed = le64 payload.length ++ r.handle.serializeBuffer.take start by
      rw [SocketParty.consumed, hcall]] at hstream
    obtain ⟨n, buffer, hn, hlen, hstore, hlength, hmoved⟩ := r.storeAt_received hin
      (show 0 < payload.length - start by omega)
      (show start + (payload.length - start) ≤ r.handle.serializeBuffer.length by omega) count
    dsimp only
    rw [Int.toNat_natCast, hstore, Option.bind_some, hlen]
    refine h.recvRest hw hreceives ((r.recvRound count (payload.length - start)).withBuffer
      buffer) (start + n) hfront ⟨hr.ready.bufferSize, .inr (hlength.trans hsize)⟩
      (hlength.trans hsize) (by omega) ?_ rfl rfl rfl
    rw [List.append_assoc (le64 _), ← hmoved] at hstream
    rw [List.append_assoc (le64 _), ← hfront]
    exact hstream
  | idle => simp [MessageCall.receives, hcall] at hreceives
  | sendPrefix payload rest => simp [MessageCall.receives, hcall] at hreceives
  | sendPayload payload rest => simp [MessageCall.receives, hcall] at hreceives

/-- A `recv` that returns no bytes leaves the streams. -/
theorem SocketParty.recv_eq_some {e : RecvEvent} (h : p.recv e = some p') :
    p.call.receives ∧ ((∃ count, e = .deliver count ∧ p.recvSome count = some p') ∨
      (KeepsReading p p' ∧ KeepsWriting p p' ∧ (p.Wellformed size → p'.Wellformed size))) := by
  refine ⟨SocketParty.receives_of_recv h, ?_⟩
  cases e with
  | deliver count => exact .inl ⟨count, rfl, h⟩
  | closed =>
    rw [SocketParty.recv] at h
    split_ifs at h
    cases h
    exact .inr ⟨⟨rfl, rfl, fun _ _ hcall => hcall, rfl⟩, ⟨rfl, rfl, rfl, rfl⟩, id⟩
  | fail errno =>
    rw [SocketParty.recv] at h
    split_ifs at h
    cases h
    exact .inr ⟨⟨rfl, rfl, fun _ _ hcall => hcall, rfl⟩, ⟨rfl, rfl, rfl, rfl⟩,
      fun hp => ⟨⟨hp.ready.bufferSize, hp.ready.serializeBuffer⟩, hp.callAt⟩⟩

/-! ### What the steps record -/

theorem SocketParty.beginWrite_records (h : p.beginWrite payload = some p') :
    p.call = .idle ∧ p'.sending = [payload] ∧ p'.read = p.read ∧ p'.written = p.written := by
  rw [SocketParty.beginWrite] at h
  cases hcall : p.call with
  | idle =>
    rw [hcall] at h
    dsimp only at h
    split_ifs at h
    obtain ⟨buffer, -, rfl⟩ := Option.map_eq_some_iff.mp h
    exact ⟨rfl, rfl, rfl, rfl⟩
  | _ => simp [hcall] at h

/-- The message is recorded when the last of its bytes is accepted. -/
theorem SocketParty.send_records {count : ℕ} (h : p.send count = some p') :
    p'.read = p.read ∧ ∃ payload, p.sending = [payload] ∧
      (p'.sending = [payload] ∧ p'.written = p.written ∨
        p'.call = .idle ∧ p'.written = p.written ++ [payload]) := by
  have hrest : ∀ (q : SocketParty) (payload rest : Bytes),
      (q.sendRest payload rest).read = q.read ∧
        ((q.sendRest payload rest).sending = [payload] ∧
            (q.sendRest payload rest).written = q.written ∨
          (q.sendRest payload rest).call = .idle ∧
            (q.sendRest payload rest).written = q.written ++ [payload]) := by
    intro q payload rest
    rw [SocketParty.sendRest]
    split_ifs
    · exact ⟨rfl, .inr ⟨rfl, rfl⟩⟩
    · exact ⟨rfl, .inl ⟨rfl, rfl⟩⟩
  rw [SocketParty.send] at h
  cases hcall : p.call with
  | sendPrefix payload rest =>
    rw [hcall] at h
    dsimp only at h
    split_ifs at h
    · obtain rfl := Option.some.inj h
      obtain ⟨hread, hwritten⟩ := hrest (p.sendRound count rest) payload
        (slice 0 payload.length p.handle.serializeBuffer)
      exact ⟨hread, payload, by rw [SocketParty.sending, hcall], hwritten⟩
    · obtain rfl := Option.some.inj h
      exact ⟨rfl, payload, by rw [SocketParty.sending, hcall], .inl ⟨rfl, rfl⟩⟩
  | sendPayload payload rest =>
    rw [hcall] at h
    obtain rfl := Option.some.inj h
    obtain ⟨hread, hwritten⟩ := hrest (p.sendRound count rest) payload
      (rest.drop (transferCount count rest.length))
    exact ⟨hread, payload, by rw [SocketParty.sending, hcall], hwritten⟩
  | _ => simp [hcall] at h

theorem SocketParty.beginRead_records (h : p.beginRead = some p') :
    p.call = .idle ∧ p'.call.receives ∧ p'.read = p.read ∧ p'.written = p.written := by
  rw [SocketParty.beginRead] at h
  cases hcall : p.call with
  | idle =>
    rw [hcall] at h
    obtain rfl := Option.some.inj h
    exact ⟨rfl, rfl, rfl, rfl⟩
  | _ => simp [hcall] at h

/-- The message is recorded when the last of its bytes is received. -/
theorem SocketParty.recv_records {e : RecvEvent} (h : p.recv e = some p') :
    p.call.receives ∧ p'.written = p.written ∧ (p'.call.receives ∧ p'.read = p.read ∨
      p'.call = .idle ∧ ∃ payload, p'.read = p.read ++ [payload]) := by
  have hrest : ∀ (q q' : SocketParty) (bufferSize : ℤ) (start : ℕ),
      q.recvRest bufferSize start = some q' → q'.written = q.written ∧
        (q'.call.receives ∧ q'.read = q.read ∨
          q'.call = .idle ∧ ∃ payload, q'.read = q.read ++ [payload]) := by
    intro q q' bufferSize start hq
    rw [SocketParty.recvRest] at hq
    split_ifs at hq
    · obtain ⟨payload, -, rfl⟩ := Option.map_eq_some_iff.mp hq
      exact ⟨rfl, .inr ⟨rfl, payload, rfl⟩⟩
    · obtain rfl := Option.some.inj hq
      exact ⟨rfl, .inl ⟨rfl, rfl⟩⟩
  have hreceives := SocketParty.receives_of_recv h
  refine ⟨hreceives, ?_⟩
  cases e with
  | deliver count =>
    rw [SocketParty.recv, SocketParty.recvSome] at h
    split_ifs at h
    cases hcall : p.call with
    | recvPrefix bufferSize start =>
      rw [hcall] at h
      obtain ⟨header, -, hround⟩ := Option.bind_eq_some_iff.mp h
      dsimp only at hround
      split_ifs at hround
      · obtain ⟨hwritten, hread⟩ := hrest _ _ _ _ hround
        exact ⟨hwritten, hread⟩
      · obtain rfl := Option.some.inj hround
        exact ⟨rfl, .inl ⟨rfl, rfl⟩⟩
    | recvPayload bufferSize start =>
      rw [hcall] at h
      obtain ⟨buffer, -, hround⟩ := Option.bind_eq_some_iff.mp h
      obtain ⟨hwritten, hread⟩ := hrest _ _ _ _ hround
      exact ⟨hwritten, hread⟩
    | _ => simp [hcall] at h
  | closed =>
    rw [SocketParty.recv] at h
    split_ifs at h
    obtain rfl := Option.some.inj h
    exact ⟨rfl, .inl ⟨hreceives, rfl⟩⟩
  | fail errno =>
    rw [SocketParty.recv] at h
    split_ifs at h
    obtain rfl := Option.some.inj h
    exact ⟨rfl, .inl ⟨hreceives, rfl⟩⟩

theorem SocketParty.sending_eq_nil (h : p.call = .idle) : p.sending = [] := by
  rw [SocketParty.sending, h]

theorem SocketParty.length_sending (h : p.sending ≠ []) : p.sending.length = 1 := by
  rcases SocketParty.sending_ne_nil_iff.mp h with
    ⟨payload, rest, hcall⟩ | ⟨payload, rest, hcall⟩ <;> rw [SocketParty.sending, hcall] <;> rfl

/-- A party is between two calls, in a write or in a read. -/
theorem SocketParty.call_cases (p : SocketParty) :
    p.call = .idle ∨ p.sending ≠ [] ∨ p.call.receives := by
  cases hcall : p.call <;> simp [SocketParty.sending, MessageCall.receives, hcall]

/-- The messages that the party has written, and the one that it is writing. -/
def SocketParty.begun (p : SocketParty) : List Bytes := p.written ++ p.sending

theorem SocketParty.begun_beginWrite (h : p.beginWrite payload = some p') :
    p'.begun = p.begun ++ [payload] := by
  obtain ⟨hidle, hsending, -, hwritten⟩ := SocketParty.beginWrite_records h
  rw [SocketParty.begun, SocketParty.begun, hsending, hwritten, SocketParty.sending_eq_nil hidle,
    List.append_nil]

theorem SocketParty.begun_send {count : ℕ} (h : p.send count = some p') : p'.begun = p.begun := by
  obtain ⟨-, payload, hsending, ⟨hagain, hsame⟩ | ⟨hidle, hwritten⟩⟩ := SocketParty.send_records h
  · rw [SocketParty.begun, SocketParty.begun, hsending, hagain, hsame]
  · rw [SocketParty.begun, SocketParty.begun, hsending, hwritten, SocketParty.sending_eq_nil hidle,
      List.append_nil]

theorem SocketParty.begun_beginRead (h : p.beginRead = some p') : p'.begun = p.begun := by
  obtain ⟨hidle, hreceives, -, hwritten⟩ := SocketParty.beginRead_records h
  rw [SocketParty.begun, SocketParty.begun, hwritten, SocketParty.sending_eq_nil hidle,
    (SocketParty.of_receives hreceives).1]

theorem SocketParty.begun_recv {e : RecvEvent} (h : p.recv e = some p') : p'.begun = p.begun := by
  obtain ⟨hreceives, hwritten, ⟨hagain, -⟩ | ⟨hidle, -⟩⟩ := SocketParty.recv_records h
  · rw [SocketParty.begun, SocketParty.begun, hwritten, (SocketParty.of_receives hreceives).1,
      (SocketParty.of_receives hagain).1]
  · rw [SocketParty.begun, SocketParty.begun, hwritten, (SocketParty.of_receives hreceives).1,
      SocketParty.sending_eq_nil hidle]

/-- The party's call and record are as before. -/
structure SocketParty.KeepsCall (p p' : SocketParty) : Prop where
  call : p'.call = p.call
  read : p'.read = p.read
  written : p'.written = p.written

theorem SocketParty.KeepsCall.begun (h : p.KeepsCall p') : p'.begun = p.begun := by
  rw [SocketParty.begun, SocketParty.begun, SocketParty.sending, SocketParty.sending, h.call,
    h.written]

/-- Bytes that arrive change no call. -/
theorem SocketSession.deliver_frame {s s' : SocketSession} {side : Side} {count : ℕ}
    (h : s.deliver side count = some s') (side' : Side) :
    (s.party side').KeepsCall (s'.party side') := by
  rw [SocketSession.deliver] at h
  dsimp only at h
  split_ifs at h
  obtain rfl := Option.some.inj h
  rcases Side.eq_or_eq_peer side side' with rfl | rfl
  · rw [SocketSession.party_set_peer_self, SocketSession.party_set_self]
    exact ⟨rfl, rfl, rfl⟩
  · rw [SocketSession.party_set_self]
    exact ⟨rfl, rfl, rfl⟩

end Steps

/-! ### The session as two queues -/

/-- The queues of the messages of each party, side by side. They have any room, since the network
has. -/
def sessionQueues : Machine (Side → Fifo Bytes) (Side × FifoStep Bytes) :=
  (fifo fun _ => true).family

/-- The session as a queue for each direction, with the frames of the messages spread over what
was received, what is on the way and what is still to be sent. -/
structure IsSession (size : ℕ) (s : SocketSession) (t : Side → Fifo Bytes) : Prop where
  wellformed : ∀ side, (s.party side).Wellformed size
  direction : ∀ side, Conveys size (s.party side) (s.party side.peer) (t side)

section Session

variable {size : ℕ} {s s' : SocketSession} {t : Side → Fifo Bytes} {side : Side} {p : SocketParty}

theorem IsSession.wellformed_set (h : IsSession size s t) (hp : p.Wellformed size) (side' : Side) :
    ((s.set side p).party side').Wellformed size := by
  rcases Side.eq_or_eq_peer side side' with rfl | rfl
  · rwa [SocketSession.party_set_self]
  · rw [SocketSession.party_set_peer]
    exact h.wellformed side.peer

/-- A party that writes changes the queue of its own messages only. -/
theorem IsSession.writes (h : IsSession size s t) (hp : p.Wellformed size)
    (hkeeps : KeepsReading (s.party side) p) {x : Fifo Bytes}
    (hdirection : Conveys size p (s.party side.peer) x) :
    IsSession size (s.set side p) (Function.update t side x) := by
  refine ⟨h.wellformed_set hp, fun side' => ?_⟩
  rcases Side.eq_or_eq_peer side side' with rfl | rfl
  · rwa [SocketSession.party_set_self, SocketSession.party_set_peer, Function.update_self]
  · rw [SocketSession.party_set_peer, Parties.peer_peer, SocketSession.party_set_self,
      Function.update_of_ne (by cases side <;> decide)]
    have hother := h.direction side.peer
    rw [Parties.peer_peer] at hother
    exact hother.congr ⟨rfl, rfl, rfl, rfl⟩ hkeeps

/-- A party that reads changes the queue of its peer's messages only. -/
theorem IsSession.reads (h : IsSession size s t) (hp : p.Wellformed size)
    (hkeeps : KeepsWriting (s.party side) p) {x : Fifo Bytes}
    (hdirection : Conveys size (s.party side.peer) p x) :
    IsSession size (s.set side p) (Function.update t side.peer x) := by
  refine ⟨h.wellformed_set hp, fun side' => ?_⟩
  rcases Side.eq_or_eq_peer side side' with rfl | rfl
  · rw [SocketSession.party_set_self, SocketSession.party_set_peer,
      Function.update_of_ne (by cases side' <;> decide)]
    exact (h.direction side').congr hkeeps ⟨rfl, rfl, fun _ _ hcall => hcall, rfl⟩
  · rwa [SocketSession.party_set_peer, Parties.peer_peer, SocketSession.party_set_self,
      Function.update_self]

/-- A step of the session is a step of one of the queues or leaves them. Most steps move bytes of
a frame and leave the queues as they are. -/
def Follows (size : ℕ) (s' : SocketSession) (t : Side → Fifo Bytes) : Prop :=
  IsSession size s' t ∨ ∃ b t', sessionQueues.next t b = some t' ∧ IsSession size s' t'

theorem IsSession.writes_step (h : IsSession size s t) (hp : p.Wellformed size)
    (hkeeps : KeepsReading (s.party side) p)
    (hdirection : Conveys size p (s.party side.peer) (t side) ∨ ∃ payload x,
      (fifo fun _ => true).next (t side) (.push payload) = some x ∧
        Conveys size p (s.party side.peer) x) : Follows size (s.set side p) t := by
  rcases hdirection with hstay | ⟨payload, x, hpush, hdirection⟩
  · have hsame := h.writes hp hkeeps hstay
    rw [Function.update_eq_self] at hsame
    exact .inl hsame
  · refine .inr ⟨(side, .push payload), _, ?_, h.writes hp hkeeps hdirection⟩
    exact Option.map_eq_some_iff.mpr ⟨x, hpush, rfl⟩

theorem IsSession.reads_step (h : IsSession size s t) (hp : p.Wellformed size)
    (hkeeps : KeepsWriting (s.party side) p)
    (hdirection : Conveys size (s.party side.peer) p (t side.peer) ∨ ∃ x,
      (fifo fun _ => true).next (t side.peer) .pop = some x ∧
        Conveys size (s.party side.peer) p x) : Follows size (s.set side p) t := by
  rcases hdirection with hstay | ⟨x, hpop, hdirection⟩
  · have hsame := h.reads hp hkeeps hstay
    rw [Function.update_eq_self] at hsame
    exact .inl hsame
  · refine .inr ⟨(side.peer, .pop), _, ?_, h.reads hp hkeeps hdirection⟩
    exact Option.map_eq_some_iff.mpr ⟨x, hpop, rfl⟩

/-- The messages that a party reads, with the party as the reader. -/
theorem IsSession.toReader (h : IsSession size s t) (side : Side) :
    Conveys size (s.party side.peer) (s.party side) (t side.peer) := by
  have hdirection := h.direction side.peer
  rwa [Parties.peer_peer] at hdirection

/-- Bytes that arrive are still on the way in the queue. -/
theorem IsSession.deliver (h : IsSession size s t) {count : ℕ}
    (hstep : s.deliver side count = some s') : IsSession size s' t := by
  rw [SocketSession.deliver] at hstep
  dsimp only at hstep
  split_ifs at hstep
  cases hstep
  obtain ⟨n, hn⟩ : ∃ n, transferCount count (s.party side).connection.outgoing.length = n :=
    ⟨_, rfl⟩
  rw [hn]
  have hw := h.wellformed side
  have hr := h.wellformed side.peer
  have hdirection := h.direction side
  have hback := h.toReader side
  refine ⟨fun side' => ?_, fun side' => ?_⟩
  · rcases Side.eq_or_eq_peer side side' with rfl | rfl
    · rw [SocketSession.party_set_peer_self, SocketSession.party_set_self]
      exact ⟨⟨hw.ready.bufferSize, hw.ready.serializeBuffer⟩, hw.callAt⟩
    · rw [SocketSession.party_set_self]
      exact ⟨⟨hr.ready.bufferSize, hr.ready.serializeBuffer⟩, hr.callAt⟩
  · rcases Side.eq_or_eq_peer side side' with rfl | rfl
    · rw [SocketSession.party_set_peer_self, SocketSession.party_set_self,
        SocketSession.party_set_self]
      refine ⟨?_, hdirection.fits, hdirection.payload, hdirection.sent, hdirection.received⟩
      refine Eq.trans ?_ hdirection.stream
      change (s.party side'.peer).consumed ++ ((s.party side'.peer).connection.incoming ++
        (s.party side').connection.outgoing.take n) ++
        (s.party side').connection.outgoing.drop n ++ (s.party side').unsent = _
      rw [← List.append_assoc (s.party side'.peer).consumed,
        List.append_assoc (_ ++ _) (List.take _ _), List.take_append_drop]
    · rw [SocketSession.party_set_self, Parties.peer_peer, SocketSession.party_set_peer_self,
        SocketSession.party_set_self]
      exact hback.congr ⟨rfl, rfl, rfl, rfl⟩ ⟨rfl, rfl, fun _ _ hcall => hcall, rfl⟩

/-- A write that begins is one of a message that fits. -/
theorem SocketParty.beginWrite_eq_some {p' : SocketParty} {payload : Bytes}
    (h : p.beginWrite payload = some p') (hp : p.Wellformed size) :
    p.call = .idle ∧ payload.length ≤ size ∧ payload.length < 2 ^ 31 := by
  rw [SocketParty.beginWrite] at h
  split at h
  · next hidle =>
    split_ifs at h with hlt
    obtain ⟨buffer, hbuffer, -⟩ := Option.map_eq_some_iff.mp h
    refine ⟨hidle, not_lt.mp fun hlong => ?_, hlt⟩
    rw [storeAt_eq_none (by rw [hp.ready.length_allocated]; omega)] at hbuffer
    cases hbuffer
  · cases h

/-- What a party does is seen in the queues. -/
theorem IsSession.step_party (h : IsSession size s t) {a : PartyStep}
    (hstep : (s.party side).step a = some p) : Follows size (s.set side p) t := by
  have hself := h.wellformed side
  have hpeer := h.wellformed side.peer
  cases a with
  | beginWrite payload =>
    obtain ⟨hidle, hle, hlt⟩ := SocketParty.beginWrite_eq_some hstep hself
    obtain ⟨p', hp', hwell, hkeeps, hdirection⟩ :=
      (h.direction side).beginWrite hself hidle hle hlt
    cases hstep.symm.trans hp'
    exact h.writes_step hwell hkeeps (.inl hdirection)
  | send count =>
    have hsending : (s.party side).sending ≠ [] := by
      rw [SocketParty.step, SocketParty.send] at hstep
      cases hcall : (s.party side).call <;> simp [SocketParty.sending, hcall] at hstep ⊢
    obtain ⟨p', hp', hwell, hkeeps, hdirection⟩ := (h.direction side).send hself hsending count
    cases hstep.symm.trans hp'
    exact h.writes_step hwell hkeeps hdirection
  | beginRead =>
    have hidle : (s.party side).call = .idle := by
      rw [SocketParty.step, SocketParty.beginRead] at hstep
      cases hcall : (s.party side).call <;> simp [hcall] at hstep ⊢
    obtain ⟨p', hp', hwell, hkeeps, hdirection⟩ := (h.toReader side).beginRead hself hidle
    cases hstep.symm.trans hp'
    exact h.reads_step hwell hkeeps (.inl hdirection)
  | recv e =>
    obtain ⟨hreceives, ⟨count, rfl, hsome⟩ | ⟨hreading, hwriting, hwell⟩⟩ :=
      SocketParty.recv_eq_some hstep
    · have hin : (s.party side).connection.incoming ≠ [] := by
        intro hnil
        rw [SocketParty.recvSome, if_pos hnil] at hsome
        cases hsome
      obtain ⟨p', hp', hwell, hkeeps, hdirection⟩ :=
        (h.toReader side).recvSome hpeer hself hreceives hin count
      cases hsome.symm.trans hp'
      exact h.reads_step hwell hkeeps hdirection
    · exact h.reads_step (hwell hself) hwriting
        (.inl ((h.toReader side).congr ⟨rfl, rfl, rfl, rfl⟩ hreading))

variable (size) in
/-- Before the first step nothing is on the way. -/
theorem isSession_init (h : (socketSession size).init s) : IsSession size s fun _ => {} := by
  refine ⟨fun side => ?_, fun side => ?_⟩
  · obtain ⟨o, ho, -, -⟩ := h side
    rw [ho]
    exact ⟨⟨rfl, .inl rfl⟩, trivial⟩
  · obtain ⟨o, ho, -, hout⟩ := h side
    obtain ⟨o', ho', hin, -⟩ := h side.peer
    rw [ho, ho']
    refine ⟨?_, fun payload hpayload => ?_, fun _ _ hcall => (by cases hcall), rfl, rfl⟩
    · change [] ++ o'.connection.incoming ++ o.connection.outgoing ++ [] = []
      rw [hin, hout]
      rfl
    · exact absurd hpayload List.not_mem_nil

variable (size) in
/-- **The session refines two queues of messages.** A message is pushed by the last `send` of its
frame and popped by the last `recv`; the system calls in between move bytes. -/
theorem socketSession_refines :
    Machine.Refinement (socketSession size) Anything sessionQueues (IsSession size) where
  init _ h := ⟨_, fun _ => rfl, isSession_init size h⟩
  step _ _ a _ h _ hnext := by
    cases a with
    | party side a =>
      obtain ⟨p, hp, rfl⟩ := Option.map_eq_some_iff.mp hnext
      exact h.step_party hp
    | deliver side count => exact .inl (h.deliver hnext)

/-- What the session promises in a state: messages reach their reader in order, none is lost or
made up, and a party waits for nothing but bytes. That the parties go on is not promised; they
may stop at any time. -/
structure CarriesMessages (size : ℕ) (s : SocketSession) : Prop where
  /-- What a party has read is what its peer has written, from the first message on. -/
  inOrder : ∀ side, (s.party side.peer).read <+: (s.party side).written
  /-- All of it, once the peer does not write and nothing is on the way. -/
  complete : ∀ side, (s.party side).sending = [] → (s.party side).connection.outgoing = [] →
    (s.party side.peer).connection.incoming = [] →
      (s.party side.peer).read = (s.party side).written
  /-- A message that fits is sent, each `send` being one that finds the frame. -/
  beginWrite : ∀ side payload, (s.party side).call = .idle → payload.length ≤ size →
    payload.length < 2 ^ 31 →
      ((socketSession size).next s (.party side (.beginWrite payload))).isSome
  send : ∀ side count, (s.party side).sending ≠ [] →
    ((socketSession size).next s (.party side (.send count))).isSome
  /-- A read waits for nothing but bytes. -/
  recv : ∀ side count, (s.party side).call.receives →
    (((socketSession size).next s (.party side (.recv (.deliver count)))).isSome ↔
      (s.party side).connection.incoming ≠ [])

/-- A frame that is read in part is not all of what is still to be read. -/
theorem Conveys.queue_eq_nil {w r : SocketParty} {x : Fifo Bytes} (h : Conveys size w r x)
    (hr : r.Wellformed size) (hsending : w.sending = []) (hout : w.connection.outgoing = [])
    (hin : r.connection.incoming = []) : x.queue = [] := by
  have hunsent : w.unsent = [] := by
    rw [SocketParty.unsent]
    cases hcall : w.call <;> simp [SocketParty.sending, hcall] at hsending ⊢
  have hstream := h.stream
  have hpayload := h.payload
  have hat := hr.callAt
  rw [hsending, hunsent, hout, hin, List.append_nil, List.append_nil, List.append_nil,
    List.append_nil] at hstream
  rw [hsending, List.append_nil] at hpayload
  by_contra hne
  obtain ⟨payload, rest, hqueue⟩ := List.exists_cons_of_ne_nil hne
  have hlength := congrArg List.length hstream
  rw [hqueue, frames_cons, List.length_append, length_frame, SocketParty.consumed] at hlength
  cases hcall : r.call with
  | recvPrefix bufferSize start =>
    rw [hcall] at hlength hat
    have hstart := hat.2
    rw [List.length_take, sizeofInt64] at *
    omega
  | recvPayload bufferSize start =>
    obtain ⟨payload', rest', hqueue', rfl⟩ := hpayload bufferSize start hcall
    rw [hcall] at hlength hat
    have hstart := hat.1
    rw [hqueue, List.cons.injEq] at hqueue'
    rw [List.length_append, length_le64, List.length_take, hqueue'.1] at hlength
    omega
  | _ =>
    rw [hcall, List.length_nil] at hlength
    omega

theorem IsSession.carriesMessages (h : IsSession size s t)
    (ht : sessionQueues.Reachable Anything t) : CarriesMessages size s where
  inOrder side := by
    have hsent := fifo_sent_eq (ht.apply side)
    rw [(h.direction side).sent, (h.direction side).received] at hsent
    exact ⟨_, hsent.symm⟩
  complete side hsending hout hin := by
    have hsent := fifo_sent_eq (ht.apply side)
    rw [(h.direction side).sent, (h.direction side).received, (h.direction side).queue_eq_nil
      (h.wellformed side.peer) hsending hout hin, List.append_nil] at hsent
    exact hsent.symm
  beginWrite side payload hidle hle hlt := by
    obtain ⟨p, hp, -⟩ := (h.direction side).beginWrite (h.wellformed side) hidle hle hlt
    rw [show (socketSession size).next s (.party side (.beginWrite payload)) =
      some (s.set side p) from congrArg (Option.map _) hp, Option.isSome_some]
  send side count hsending := by
    obtain ⟨p, hp, -⟩ := (h.direction side).send (h.wellformed side) hsending count
    rw [show (socketSession size).next s (.party side (.send count)) =
      some (s.set side p) from congrArg (Option.map _) hp, Option.isSome_some]
  recv side count hreceives := by
    constructor
    · intro hsome hnil
      have hnone : (s.party side).recvSome count = none := by
        rw [SocketParty.recvSome, if_pos hnil]
      rw [show (socketSession size).next s (.party side (.recv (.deliver count))) = none from
        congrArg (Option.map _) hnone] at hsome
      cases hsome
    · intro hin
      obtain ⟨p, hp, -⟩ := (h.toReader side).recvSome (h.wellformed side.peer)
        (h.wellformed side) hreceives hin count
      rw [show (socketSession size).next s (.party side (.recv (.deliver count))) =
        some (s.set side p) from congrArg (Option.map _) hp, Option.isSome_some]

/-- **A socket session carries messages in order**, in both directions and whatever the order of
the system calls and the cuts of the streams, as long as the connection does not fail. A `recv`
that brings nothing is a wait and not a step. -/
theorem carriesMessages_of_reachable (h : (socketSession size).Reachable Anything s) :
    CarriesMessages size s := by
  obtain ⟨t, ht, hsession⟩ := (socketSession_refines size).reachable h
  exact hsession.carriesMessages ht

/-- The client reads the first of two messages in pieces while its own message is on the way to
the owner. -/
theorem carriesMessages_of_reachable_run : ∃ s : SocketSession,
    (socketSession 8).Reachable Anything s ∧ (s.party .client).read = [[1, 2]] ∧
      (s.party .owner).written = [[1, 2], [3]] ∧ CarriesMessages 8 s := by
  have hexec : ((socketSession 8).exec
      ⟨fun _ => { handle := .new 8 ⟨[], 5, true, {}⟩ }⟩
      [.party .owner (.beginWrite [1, 2]), .party .owner (.send 5), .deliver .owner 3,
        .party .client (.beginWrite [7]), .party .client (.send 8), .party .client (.send 1),
        .party .client .beginRead, .party .client (.recv (.deliver 9)), .party .owner (.send 3),
        .party .owner (.send 2), .deliver .owner 7, .party .client (.recv (.deliver 9)),
        .deliver .client 4, .party .owner (.beginWrite [3]), .party .owner (.send 8),
        .party .client (.recv (.deliver 9)), .party .owner (.send 1)]).map
          (fun s => ((s.party .client).read, (s.party .owner).written)) =
    some ([[1, 2]], [[1, 2], [3]]) := by decide +kernel
  obtain ⟨s, hs, hrecords⟩ := Option.map_eq_some_iff.mp hexec
  have hreachable := Machine.exec_reachable
    (by exact fun _ => ⟨⟨[], 5, true, {}⟩, rfl, rfl, rfl⟩) hs
  exact ⟨s, hreachable, congrArg Prod.fst hrecords, congrArg Prod.snd hrecords,
    carriesMessages_of_reachable hreachable⟩

end Session

end Sideband
