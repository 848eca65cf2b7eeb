import Sideband.Foundation.Queue
import Sideband.Messages.Transport
import Sideband.SharedMemory.Messages
import Sideband.Sockets.RoundTrip

/-!
# The message functions of a socket, one system call at a time

A party runs `WriteSidebandMessage` and `ReadSidebandMessage` on its own handle, one call after the
other (`SocketParty`). A step of it is one `send` or one `recv`.

* `writeSidebandMessage_of_sends`, `readSidebandMessage_of_recvs`: one after the other, the steps of
  a party are calls of the two functions.
-/

namespace Sideband

open Foundation

/-! ### Parties -/

/-- How far a party is in a message function: `rest` is what `WriteToSocket` has left to send,
`start` the offset that `ReadFromSocket` has reached. -/
inductive MessageCall
  | idle
  | sendPrefix (payload rest : Bytes)
  | sendPayload (payload rest : Bytes)
  | recvPrefix (bufferSize : Bytes) (start : ℕ)
  | recvPayload (bufferSize : ℤ) (start : ℕ)
  deriving DecidableEq, Repr

/-- A party's handle and its call, with a record of the serialized messages that were written and
of the bytes that were given to the parser. Whether the parser accepts them is left out. -/
structure SocketParty where
  handle : SidebandData SocketSidebandData
  call : MessageCall := .idle
  written : List Bytes := []
  read : List Bytes := []
  deriving DecidableEq, Repr

/-- What a party does next: begin one of the two functions, or make the system call that it is
at. The party may choose to begin either whenever it is between two calls. -/
inductive PartyStep
  | beginWrite (payload : Bytes)
  /-- `send` accepts some of the bytes: at least one, at most `count`. -/
  | send (count : ℕ)
  | beginRead
  | recv (e : RecvEvent)
  deriving DecidableEq, Repr

/-- The party is in `ReadFromSocket`. -/
def MessageCall.receives : MessageCall → Bool
  | .recvPrefix _ _ => true
  | .recvPayload _ _ => true
  | _ => false

namespace SocketParty

variable (p : SocketParty)

abbrev connection : Connection := p.handle.derived.connection

/-- The party with other bytes on its connection. -/
def withConnection (c : Connection) : SocketParty := { p with handle.derived.connection := c }

/-- The party with another serialize buffer. -/
def withBuffer (buffer : Bytes) : SocketParty := { p with handle.serializeBuffer := buffer }

/-- Serialize the message, and call `WriteLengthPrefixed`. Protobuf serializes no message of 2
GiB or more, and a message that is longer than the serialize buffer has no step: the source would
store beyond its end. -/
def beginWrite (payload : Bytes) : Option SocketParty :=
  match p.call with
  | .idle =>
    if payload.length < 2 ^ 31 then
      (storeAt 0 payload p.handle.allocated).map fun buffer =>
        { p.withBuffer buffer with call := .sendPrefix payload (le64 payload.length) }
    else none
  | _ => none

/-- One `send` of `WriteToSocket`: as many bytes as the kernel takes, and one at least, go behind
those on their way. -/
def sendRound (count : ℕ) (rest : Bytes) : SocketParty :=
  p.withConnection { p.connection with
    outgoing := p.connection.outgoing ++ rest.take (transferCount count rest.length) }

/-- `WriteToSocket` of the payload, or of what is left of it. Of an empty payload there is
nothing to send, and the call is over with its prefix. -/
def sendRest (payload rest : Bytes) : SocketParty :=
  if rest = [] then { p with call := .idle, written := p.written ++ [payload] }
  else { p with call := .sendPayload payload rest }

/-- One `send` of the call, which accepts at least one byte. A `send` that fails or would block
is left out: the call would give up. -/
def send (count : ℕ) : Option SocketParty :=
  match p.call with
  | .sendPrefix payload rest =>
    let left := rest.drop (transferCount count rest.length)
    if left = [] then
      some ((p.sendRound count rest).sendRest payload
        (slice 0 payload.length p.handle.serializeBuffer))
    else some { p.sendRound count rest with call := .sendPrefix payload left }
  | .sendPayload payload rest =>
    some ((p.sendRound count rest).sendRest payload
      (rest.drop (transferCount count rest.length)))
  | _ => none

/-- Call `ReadLengthPrefix`. A party is in one call at a time, so there is none when it is in
another. -/
def beginRead : Option SocketParty :=
  match p.call with
  | .idle => some { p with call := .recvPrefix (le64 0) 0 }
  | _ => none

/-- The bytes of one `recv` for `n` bytes. -/
def received (count n : ℕ) : Bytes :=
  p.connection.incoming.take (transferCount count (min n p.connection.incoming.length))

/-- One `recv` of `ReadFromSocket`: as many of the bytes that have arrived as the kernel gives,
and no more than are asked for. -/
def recvRound (count n : ℕ) : SocketParty :=
  p.withConnection { p.connection with
    incoming := p.connection.incoming.drop
      (transferCount count (min n p.connection.incoming.length)) }

/-- `ReadFromSocket` of the payload, or of what is missing of it, and then the parse: it takes the
size as an `int`. -/
def recvRest (bufferSize : ℤ) (start : ℕ) : Option SocketParty :=
  if bufferSize ≤ start then
    if toInt32 bufferSize < 0 then none
    else (loadAt 0 (toInt32 bufferSize).toNat p.handle.serializeBuffer).map fun payload =>
      { p with call := .idle, read := p.read ++ [payload] }
  else some { p with call := .recvPayload bufferSize start }

/-- A `recv` that returns bytes. -/
def recvSome (count : ℕ) : Option SocketParty :=
  -- with nothing on the way the call waits
  if p.connection.incoming = [] then none
  else match p.call with
  | .recvPrefix bufferSize start =>
    let bytes := p.received count (sizeofInt64 - start)
    (storeAt start bytes bufferSize).bind fun bufferSize =>
      let p := p.recvRound count (sizeofInt64 - start)
      if sizeofInt64 ≤ start + bytes.length then
        (p.withBuffer p.handle.allocated).recvRest (int64OfLe bufferSize) 0
      else some { p with call := .recvPrefix bufferSize (start + bytes.length) }
  | .recvPayload bufferSize start =>
    let bytes := p.received count (bufferSize.toNat - start)
    (storeAt start bytes p.handle.serializeBuffer).bind fun buffer =>
      ((p.recvRound count (bufferSize.toNat - start)).withBuffer buffer).recvRest bufferSize
        (start + bytes.length)
  | _ => none

/-- `recv`. The connection is reliable, so no `recv` fails but for now, and a `0` is taken for a
piece of no bytes: neither gets the party any further. -/
def recv (e : RecvEvent) : Option SocketParty :=
  match e with
  | .deliver count => p.recvSome count
  | .closed => if p.call.receives then some p else none
  | .fail errno =>
    if p.call.receives && errno.wouldBlock then some (p.withConnection { p.connection with errno })
    else none

def step : PartyStep → Option SocketParty
  | .beginWrite payload => p.beginWrite payload
  | .send count => p.send count
  | .beginRead => p.beginRead
  | .recv e => p.recv e

end SocketParty
/-! ### The steps of a call -/

section Calls

variable {p p' : SocketParty} {payload rest : Bytes}

/-- A handle on whose connection `send` and `recv` will have these outcomes. -/
def SidebandData.withOutcomes (sends : List SendEvent) (recvs : List RecvEvent)
    (o : SidebandData SocketSidebandData) : SidebandData SocketSidebandData :=
  { o with derived.connection := { o.derived.connection with sends, recvs } }

theorem writeLoop_nil (c : Connection) (sends : List SendEvent) :
    writeLoop c [] sends = .ok (true, { c with sends }) := by
  cases sends <;> simp [writeLoop]

/-- A piece that an `int` counts goes to the stream, and the loop goes on with what is left. -/
theorem writeLoop_piece (c : Connection) (hrest : rest ≠ []) (hsize : rest.length < 2 ^ 31) (k : ℕ)
    (sends : List SendEvent) : writeLoop c rest (.accept k :: sends) =
      writeLoop { c with outgoing := c.outgoing ++ rest.take (transferCount k rest.length) }
        (rest.drop (transferCount k rest.length)) sends := by
  have hle := transferCount_le (k := k) (List.length_pos_iff.mpr hrest)
  have hcount : toInt32 (transferCount k rest.length) = transferCount k rest.length :=
    toInt32_of_range (by omega) (by omega)
  rw [writeLoop, if_neg hrest]
  simp only [hcount]
  rw [if_neg (by omega), Int.toNat_natCast]

/-- `WriteToSocket` sends `rest` when `send` accepts so many bytes in its calls, whatever
outcomes follow. -/
def SendsAll (rest : Bytes) (counts : List ℕ) : Prop :=
  ∀ (c : Connection) (sends : List SendEvent), writeLoop c rest (counts.map .accept ++ sends) =
    .ok (true, { c with outgoing := c.outgoing ++ rest, sends })

theorem sendsAll_nil : SendsAll [] [] := by
  intro c sends
  rw [List.map_nil, List.nil_append, writeLoop_nil, List.append_nil]

theorem SendsAll.cons {k : ℕ} {counts : List ℕ} (hrest : rest ≠ []) (hsize : rest.length < 2 ^ 31)
    (h : SendsAll (rest.drop (transferCount k rest.length)) counts) :
    SendsAll rest (k :: counts) := by
  intro c sends
  rw [List.map_cons, List.cons_append, writeLoop_piece c hrest hsize, h]
  simp only [List.append_assoc, List.take_append_drop]

/-- What is accepted of the bytes and what is left are the bytes. -/
theorem SocketParty.outgoing_sendRound (p : SocketParty) (k : ℕ) (rest : Bytes) :
    (p.sendRound k rest).connection.outgoing ++ rest.drop (transferCount k rest.length) =
      p.connection.outgoing ++ rest := by
  change p.connection.outgoing ++ rest.take _ ++ _ = _
  rw [List.append_assoc, List.take_append_drop]

/-- The `send` steps of the payload are the loop of `WriteToSocket`. -/
theorem sends_of_sendRest {counts : List ℕ} (hsize : rest.length < 2 ^ 31)
    (h : (counts.map PartyStep.send).foldlM SocketParty.step (p.sendRest payload rest) = some p')
    (hidle : p'.call = .idle) :
    SendsAll rest counts ∧
      p' = { p.withConnection { p.connection with outgoing := p.connection.outgoing ++ rest } with
        call := .idle, written := p.written ++ [payload] } := by
  induction counts generalizing p rest with
  | nil =>
    obtain rfl : p.sendRest payload rest = p' := Option.some.inj h
    rw [SocketParty.sendRest] at hidle ⊢
    split_ifs at hidle ⊢ with hrest
    rw [hrest, List.append_nil]
    exact ⟨sendsAll_nil, rfl⟩
  | cons k counts ih =>
    rw [List.map_cons, List.foldlM_cons] at h
    obtain ⟨q, hq, hsteps⟩ := Option.bind_eq_some_iff.mp h
    rw [SocketParty.sendRest] at hq
    split_ifs at hq with hrest
    · cases hq
    · obtain rfl := Option.some.inj hq
      obtain ⟨hloop, rfl⟩ := ih (p := p.sendRound k rest)
        (by rw [List.length_drop]; omega) hsteps
      rw [p.outgoing_sendRound]
      exact ⟨hloop.cons hrest hsize, rfl⟩

/-- The `send` steps of the prefix are the loop of `WriteToSocket`, and the others those of the
payload. -/
theorem sends_of_sendPrefix {counts : List ℕ} (hrest : rest ≠ []) (hsize : rest.length < 2 ^ 31)
    (h : (counts.map PartyStep.send).foldlM SocketParty.step
      { p with call := .sendPrefix payload rest } = some p') (hidle : p'.call = .idle) :
    ∃ first others, counts = first ++ others ∧ SendsAll rest first ∧
      (others.map PartyStep.send).foldlM SocketParty.step
        ((p.withConnection { p.connection with outgoing := p.connection.outgoing ++ rest }).sendRest
          payload (slice 0 payload.length p.handle.serializeBuffer)) = some p' := by
  induction counts generalizing p rest with
  | nil =>
    cases Option.some.inj h
    cases hidle
  | cons k counts ih =>
    rw [List.map_cons, List.foldlM_cons] at h
    obtain ⟨q, hq, hsteps⟩ := Option.bind_eq_some_iff.mp h
    have hall := p.outgoing_sendRound k rest
    rw [SocketParty.step, SocketParty.send] at hq
    dsimp only at hq
    split_ifs at hq with hleft
    · -- the prefix is sent
      obtain rfl := Option.some.inj hq
      refine ⟨[k], counts, rfl, .cons hrest hsize (hleft ▸ sendsAll_nil), ?_⟩
      rw [hleft, List.append_nil] at hall
      rw [← hall]
      exact hsteps
    · obtain rfl := Option.some.inj hq
      obtain ⟨first, others, rfl, hloop, hothers⟩ := ih (p := p.sendRound k rest) hleft
        (by rw [List.length_drop]; omega) hsteps
      refine ⟨k :: first, others, rfl, hloop.cons hrest hsize, ?_⟩
      rw [← hall]
      exact hothers

theorem SocketSidebandData.writeToSocket_of_sends {h : SocketSidebandData} {counts : List ℕ}
    {sends : List SendEvent} (hsends : SendsAll rest counts)
    (hh : h.connection.sends = counts.map .accept ++ sends) :
    (writeToSocket rest).run h = .ok (true, h.withConnection
      { h.connection with outgoing := h.connection.outgoing ++ rest, sends }) := by
  rw [run_writeToSocket, hh, hsends]
  rfl

/-- The steps of a write, one after the other, are a call of `WriteSidebandMessage`. -/
theorem writeSidebandMessage_of_sends {M : Type} (codec : MessageLite M) (m : M) {counts : List ℕ}
    (recvs : List RecvEvent)
    (h : (.beginWrite (codec.serialize m) :: counts.map PartyStep.send).foldlM SocketParty.step p =
      some p') (hidle : p'.call = .idle) :
    p'.written = p.written ++ [codec.serialize m] ∧
      (writeSidebandMessage codec SocketSidebandData.methods m).run
        (p.handle.withOutcomes (counts.map .accept) recvs) =
          .ok (byteSizeLong codec m, p'.handle.withOutcomes [] recvs) := by
  rw [List.foldlM_cons] at h
  obtain ⟨q, hq, hsteps⟩ := Option.bind_eq_some_iff.mp h
  rw [SocketParty.step, SocketParty.beginWrite] at hq
  split at hq
  on_goal 2 => cases hq
  rw [if_pos (codec.size_lt m)] at hq
  obtain ⟨buffer, hbuffer, rfl⟩ := Option.map_eq_some_iff.mp hq
  have hheader : le64 (codec.serialize m).length ≠ [] :=
    List.ne_nil_of_length_pos (by rw [length_le64]; decide)
  obtain ⟨first, others, rfl, hahead, hothers⟩ := sends_of_sendPrefix
    (p := p.withBuffer buffer) hheader (by rw [length_le64]; decide) hsteps hidle
  have hslice : slice 0 (codec.serialize m).length buffer = codec.serialize m := by
    rw [← (storeAt_eq_some_iff.mp hbuffer).2, slice_overlay (Nat.zero_le _)]
  rw [show (p.withBuffer buffer).handle.serializeBuffer = buffer from rfl, hslice] at hothers
  obtain ⟨hpayload, rfl⟩ := sends_of_sendRest (codec.size_lt m) hothers hidle
  refine ⟨rfl, ?_⟩
  obtain ⟨o, ho⟩ : ∃ o, (p.handle.withOutcomes ((first ++ others).map .accept) recvs).derived = o :=
    ⟨_, rfl⟩
  have houtcomes : o.connection.sends = first.map .accept ++ others.map .accept := by
    rw [← ho, ← List.map_append]
    rfl
  have hwrite : (SocketSidebandData.writeLengthPrefixed (codec.serialize m)).run o =
      .ok (true, o.withConnection { o.connection with
        outgoing := o.connection.outgoing ++ le64 (codec.serialize m).length ++ codec.serialize m
        sends := [] }) := by
    rw [SocketSidebandData.writeLengthPrefixed,
      Exec.run_bind_ok (SocketSidebandData.writeToSocket_of_sends hahead houtcomes), if_pos rfl]
    exact SocketSidebandData.writeToSocket_of_sends hpayload (List.append_nil _).symm
  have hdirect : sidebandDataSupportsDirectReadWrite SocketSidebandData.methods ≠ 1 := by decide
  have hsize : (byteSizeLong codec m).toNat = (codec.serialize m).length := Int.toNat_natCast _
  simp only [writeSidebandMessage, hdirect, if_false, sidebandDataWriteLengthPrefixed, bind_assoc,
    pure_bind, hsize]
  have hstore : storeAt 0 (codec.serialize m) (SidebandData.allocated
      (p.handle.withOutcomes ((first ++ others).map .accept) recvs)) = some buffer := hbuffer
  rw [Exec.run_bind_ok (SidebandData.run_serializeBufferPtr _), hstore,
    Exec.run_bind_ok (Exec.run_checked_some _ _),
    Exec.run_bind_ok (SidebandData.run_setSerializeBuffer _ _), hslice]
  subst ho
  exact Exec.run_bind_ok (SidebandData.run_call_ok hwrite)

/-- A `recv` step that returns bytes is a round of `ReadFromSocket`. -/
theorem readLoop_received (p : SocketParty) (start : ℕ) {k : ℕ} {mem mem' : Bytes}
    {remainingBytes : ℤ} (hrem : 0 < remainingBytes) (hin : p.connection.incoming ≠ [])
    (hlt : mem.length < 2 ^ 31)
    (hstore : storeAt start (p.received k remainingBytes.toNat) mem = some mem')
    (recvs : List RecvEvent) :
    readLoop p.connection (some mem) start remainingBytes (.deliver k :: recvs) =
      readLoop (p.recvRound k remainingBytes.toNat).connection (some mem')
        (start + (p.received k remainingBytes.toNat).length)
        (remainingBytes - (p.received k remainingBytes.toNat).length) recvs := by
  have hlength := List.length_pos_iff.mpr hin
  have hlen : (p.received k remainingBytes.toNat).length =
      transferCount k (min remainingBytes.toNat p.connection.incoming.length) := by
    have hle := transferCount_le (k := k)
      (show 0 < min remainingBytes.toNat p.connection.incoming.length by omega)
    rw [SocketParty.received, List.length_take]
    omega
  have hfits := (storeAt_eq_some_iff.mp hstore).1
  rw [hlen] at hfits ⊢
  refine readLoop_deliver p.connection _ start recvs hrem hin rfl
    (toInt32_of_range (by omega) (by omega)) ?_
  change (storeAt start (p.received k remainingBytes.toNat) mem).map some = _
  rw [hstore, Option.map_some]

/-- The loop looks at no other outcomes than its own. -/
theorem readLoop_withOutcomes (c : Connection) (sends : List SendEvent) (recvs : List RecvEvent)
    (dst : Option Bytes) (start : ℕ) (remainingBytes : ℤ) (es : List RecvEvent) :
    readLoop { c with sends, recvs } dst start remainingBytes es =
      (readLoop c dst start remainingBytes es).map fun r => (r.1, { r.2 with sends }) := by
  induction es generalizing c dst start remainingBytes with
  | nil =>
    rw [readLoop, readLoop]
    split_ifs <;> rfl
  | cons e es ih =>
    by_cases hrem : remainingBytes ≤ 0
    · rw [readLoop_done _ _ _ _ hrem, readLoop_done _ _ _ _ hrem]
      rfl
    cases e with
    | closed =>
      rw [readLoop, readLoop, if_neg hrem, if_neg hrem]
      exact ih c dst start remainingBytes
    | fail errno =>
      rw [readLoop, readLoop, if_neg hrem, if_neg hrem]
      dsimp only
      split_ifs
      · exact ih { c with errno } dst start remainingBytes
      · rfl
    | deliver k =>
      rw [readLoop, readLoop, if_neg hrem, if_neg hrem]
      dsimp only
      by_cases hin : c.incoming = []
      · rw [if_pos hin, if_pos hin]
        rfl
      rw [if_neg hin, if_neg hin]
      cases storeDst start (c.incoming.take (transferCount k
        (min remainingBytes.toNat c.incoming.length))) dst with
      | none => rfl
      | some dst' =>
        obtain ⟨rest, hrest⟩ : ∃ rest, c.incoming.drop (transferCount k
          (min remainingBytes.toNat c.incoming.length)) = rest := ⟨_, rfl⟩
        dsimp only
        rw [hrest]
        split_ifs
        · exact ih { c with incoming := rest } dst' start remainingBytes
        · rfl
        · exact ih { c with incoming := rest } dst' _ _

theorem SocketSidebandData.readFromSocket_of_readLoop (h : SocketSidebandData)
    (sends : List SendEvent) {c c' : Connection} {dst : Option Bytes} {n : ℤ}
    {recvs : List RecvEvent} {r : Bool × Option Bytes}
    (hloop : readLoop c dst 0 n recvs = .ok (r, c')) :
    (readFromSocket dst n).run (h.withConnection { c with sends, recvs }) =
      .ok (r, h.withConnection { c' with sends }) := by
  rw [run_readFromSocket]
  refine (congrArg (Except.map _) (readLoop_withOutcomes c sends recvs dst 0 n recvs)).trans ?_
  rw [hloop]
  rfl

/-- `recv` is called in a read only. -/
theorem SocketParty.receives_of_recv {e : RecvEvent} (h : p.recv e = some p') :
    p.call.receives := by
  cases e with
  | deliver count =>
    rw [SocketParty.recv, SocketParty.recvSome] at h
    split_ifs at h
    cases hcall : p.call with
    | recvPrefix bufferSize start => rfl
    | recvPayload bufferSize start => rfl
    | _ => simp [hcall] at h
  | closed =>
    rw [SocketParty.recv] at h
    split_ifs at h with hreceives
    exact hreceives
  | fail errno =>
    rw [SocketParty.recv] at h
    split_ifs at h with hreceives
    exact (Bool.and_eq_true_iff.mp hreceives).1

/-- The `recv` steps of the payload are the loop of `ReadFromSocket`, and the parse follows. -/
theorem readLoop_of_recvRest {q : SocketParty} {bufferSize : ℤ} {start : ℕ} {es : List RecvEvent}
    (hlt : p.handle.serializeBuffer.length < 2 ^ 31) (hq : p.recvRest bufferSize start = some q)
    (h : (es.map PartyStep.recv).foldlM SocketParty.step q = some p') (hidle : p'.call = .idle) :
    readLoop p.connection (some p.handle.serializeBuffer) start (bufferSize - start) es =
        .ok ((true, some p'.handle.serializeBuffer), { p'.connection with recvs := [] }) ∧
      p'.handle = { p.handle with
        serializeBuffer := p'.handle.serializeBuffer, derived.connection := p'.connection } ∧
      0 ≤ toInt32 bufferSize ∧ ∃ payload,
        loadAt 0 (toInt32 bufferSize).toNat p'.handle.serializeBuffer = some payload ∧
          p'.read = p.read ++ [payload] := by
  induction es generalizing p start q with
  | nil =>
    obtain rfl : q = p' := Option.some.inj h
    rw [SocketParty.recvRest] at hq
    split_ifs at hq with hall hneg
    · obtain ⟨payload, hload, rfl⟩ := Option.map_eq_some_iff.mp hq
      exact ⟨readLoop_done _ _ _ _ (by omega), rfl, not_lt.mp hneg, payload, hload, rfl⟩
    · cases hq
      cases hidle
  | cons e es ih =>
    rw [List.map_cons, List.foldlM_cons] at h
    obtain ⟨q', hq', hsteps⟩ := Option.bind_eq_some_iff.mp h
    rw [SocketParty.recvRest] at hq
    split_ifs at hq with hall hneg
    · -- the call has ended before the step
      obtain ⟨payload, hload, rfl⟩ := Option.map_eq_some_iff.mp hq
      cases SocketParty.receives_of_recv hq'
    obtain rfl := Option.some.inj hq
    cases e with
    | deliver k =>
      have hround : (if p.connection.incoming = [] then none
          else (storeAt start (p.received k (bufferSize.toNat - start))
            p.handle.serializeBuffer).bind fun buffer =>
              ((p.recvRound k (bufferSize.toNat - start)).withBuffer buffer).recvRest bufferSize
                (start + (p.received k (bufferSize.toNat - start)).length)) = some q' := hq'
      split_ifs at hround with hin
      obtain ⟨buffer, hstore, hrest⟩ := Option.bind_eq_some_iff.mp hround
      have hlength : buffer.length = p.handle.serializeBuffer.length := length_of_storeAt hstore
      obtain ⟨hloop, hrest⟩ := ih
        (p := (p.recvRound k (bufferSize.toNat - start)).withBuffer buffer)
        (hlength.trans_lt hlt) hrest hsteps
      have hmissing : (bufferSize - start).toNat = bufferSize.toNat - start := Int.toNat_sub' _ _
      have hpiece := readLoop_received p start (k := k)
        (show 0 < bufferSize - start by omega) hin hlt (by rwa [hmissing]) es
      rw [hmissing, sub_sub, ← Nat.cast_add] at hpiece
      exact ⟨hpiece.trans hloop, hrest⟩
    | closed =>
      have hround : (some { p with call := .recvPayload bufferSize start } : Option SocketParty) =
        some q' := hq'
      cases hround
      obtain ⟨hloop, hrest⟩ := ih hlt (if_neg hall) hsteps
      refine ⟨?_, hrest⟩
      rw [readLoop, if_neg (by omega)]
      exact hloop
    | fail errno =>
      have hround : (if errno.wouldBlock then
          some ({ p.withConnection { p.connection with errno } with
            call := .recvPayload bufferSize start } : SocketParty) else none) = some q' := hq'
      split_ifs at hround with hblock
      cases hround
      obtain ⟨hloop, hrest⟩ := ih (p := p.withConnection { p.connection with errno }) hlt
        (if_neg hall) hsteps
      refine ⟨?_, hrest⟩
      rw [readLoop_wouldBlock _ _ _ _ (by omega) hblock]
      exact hloop

/-- The `recv` steps of the prefix are the loop of `ReadFromSocket`, and the others those of the
payload. -/
theorem readLoop_of_recvPrefix {bufferSize : Bytes} {start : ℕ} {es : List RecvEvent}
    (hlength : bufferSize.length = sizeofInt64) (hstart : start < sizeofInt64)
    (h : (es.map PartyStep.recv).foldlM SocketParty.step
      { p with call := .recvPrefix bufferSize start } = some p') (hidle : p'.call = .idle) :
    ∃ first others header c q, es = first ++ others ∧
      (∀ more, readLoop p.connection (some bufferSize) start (sizeofInt64 - start : ℕ)
        (first ++ more) = .ok ((true, some header), { c with recvs := more })) ∧
      ((p.withConnection c).withBuffer p.handle.allocated).recvRest (int64OfLe header) 0 =
        some q ∧
      (others.map PartyStep.recv).foldlM SocketParty.step q = some p' := by
  induction es generalizing p bufferSize start with
  | nil =>
    cases Option.some.inj h
    cases hidle
  | cons e es ih =>
    rw [List.map_cons, List.foldlM_cons] at h
    obtain ⟨q, hq, hsteps⟩ := Option.bind_eq_some_iff.mp h
    cases e with
    | deliver k =>
      obtain ⟨n, hn⟩ : ∃ n, sizeofInt64 - start = n := ⟨_, rfl⟩
      have hround : (if p.connection.incoming = [] then none
          else (storeAt start (p.received k n) bufferSize).bind fun bufferSize =>
            if sizeofInt64 ≤ start + (p.received k n).length then
              ((p.recvRound k n).withBuffer p.handle.allocated).recvRest (int64OfLe bufferSize) 0
            else some { p.recvRound k n with
              call := .recvPrefix bufferSize (start + (p.received k n).length) }) = some q := by
        rw [← hn]
        exact hq
      by_cases hin : p.connection.incoming = []
      · rw [if_pos hin] at hround
        cases hround
      rw [if_neg hin] at hround
      obtain ⟨header, hstore, hrest⟩ := Option.bind_eq_some_iff.mp hround
      have hfits := (storeAt_eq_some_iff.mp hstore).1
      have hpiece := readLoop_received p start (k := k)
        (show (0 : ℤ) < n by omega) hin (by rw [hlength]; decide) hstore
      have hleft : (n : ℤ) - (p.received k n).length =
          (sizeofInt64 - (start + (p.received k n).length) : ℕ) := by omega
      simp only [Int.toNat_natCast, hleft] at hpiece
      split_ifs at hrest with hfull
      · -- the prefix is read
        refine ⟨[.deliver k], es, header, (p.recvRound k n).connection, q, rfl,
          fun more => ?_, hrest, hsteps⟩
        rw [hn]
        exact (hpiece more).trans (readLoop_done _ _ _ _ (by omega))
      · obtain rfl := Option.some.inj hrest
        obtain ⟨first, others, header', c, q, rfl, hloop, hrest⟩ := ih
          (p := p.recvRound k n) ((length_of_storeAt hstore).trans hlength)
          (not_le.mp hfull) hsteps
        refine ⟨.deliver k :: first, others, header', c, q, rfl, fun more => ?_, hrest⟩
        rw [List.cons_append, hn]
        exact (hpiece (first ++ more)).trans (hloop more)
    | closed =>
      have hround : (some { p with call := .recvPrefix bufferSize start } : Option SocketParty) =
        some q := hq
      cases hround
      obtain ⟨first, others, header', c, q, rfl, hloop, hrest⟩ := ih hlength hstart hsteps
      refine ⟨.closed :: first, others, header', c, q, rfl, fun more => ?_, hrest⟩
      rw [List.cons_append, readLoop, if_neg (by omega)]
      exact hloop more
    | fail errno =>
      have hround : (if errno.wouldBlock then
          some ({ p.withConnection { p.connection with errno } with
            call := .recvPrefix bufferSize start } : SocketParty) else none) = some q := hq
      split_ifs at hround with hblock
      cases hround
      obtain ⟨first, others, header', c, q, rfl, hloop, hrest⟩ := ih
        (p := p.withConnection { p.connection with errno }) hlength hstart hsteps
      refine ⟨.fail errno :: first, others, header', c, q, rfl, fun more => ?_, hrest⟩
      rw [List.cons_append, readLoop_wouldBlock _ _ _ _ (by omega) hblock]
      exact hloop more

/-- The steps of a read, one after the other, are a call of `ReadSidebandMessage`. -/
theorem readSidebandMessage_of_recvs {M : Type} (codec : MessageLite M) {es : List RecvEvent}
    (sends : List SendEvent) (hlt : p.handle.allocated.length < 2 ^ 31)
    (h : (.beginRead :: es.map PartyStep.recv).foldlM SocketParty.step p = some p')
    (hidle : p'.call = .idle) :
    ∃ payload, p'.read = p.read ++ [payload] ∧
      (readSidebandMessage codec SocketSidebandData.methods).run (p.handle.withOutcomes sends es) =
        .ok (codec.parse payload, p'.handle.withOutcomes sends []) := by
  rw [List.foldlM_cons] at h
  obtain ⟨q, hq, hsteps⟩ := Option.bind_eq_some_iff.mp h
  rw [SocketParty.step, SocketParty.beginRead] at hq
  split at hq
  on_goal 2 => cases hq
  obtain rfl := Option.some.inj hq
  obtain ⟨first, others, header, c, q, rfl, hahead, hrest, hothers⟩ :=
    readLoop_of_recvPrefix (length_le64 0) (by decide) hsteps hidle
  obtain ⟨hpayload, hhandle, hsign, payload, hload, hread⟩ :=
    readLoop_of_recvRest hlt hrest hothers hidle
  refine ⟨payload, hread, ?_⟩
  have hheader : SocketSidebandData.readLengthPrefix.run
      (p.handle.withOutcomes sends (first ++ others)).derived = .ok (int64OfLe header,
        p.handle.derived.withConnection { c with sends, recvs := others }) := by
    refine (Exec.run_bind_ok (a := (true, some header)) ?_).trans (Exec.run_pure _ _)
    exact SocketSidebandData.readFromSocket_of_readLoop p.handle.derived sends (hahead others)
  have hbytes : (SocketSidebandData.readFromLengthPrefixed (some p.handle.allocated)
      (int64OfLe header)).run
        (p.handle.derived.withConnection { c with sends, recvs := others }) =
      .ok (⟨true, some p'.handle.serializeBuffer, some (int64OfLe header)⟩,
        p.handle.derived.withConnection { p'.connection with sends, recvs := [] }) := by
    rw [Nat.cast_zero, sub_zero] at hpayload
    refine (Exec.run_bind_ok (SocketSidebandData.readFromSocket_of_readLoop p.handle.derived sends
      hpayload)).trans ?_
    rfl
  have hle : (toInt32 (int64OfLe header)).toNat ≤ p'.handle.serializeBuffer.length ∧
      p'.handle.serializeBuffer.take (toInt32 (int64OfLe header)).toNat = payload := by
    rw [loadAt] at hload
    split_ifs at hload with hle
    exact ⟨by omega, Option.some.inj hload⟩
  rw [run_readSidebandMessage_copy rfl hheader hbytes,
    run_parseFromSerializeBuffer_ok hsign (by exact hle.1)]
  refine congrArg Except.ok (Prod.ext (congrArg codec.parse hle.2) ?_)
  rw [hhandle]
  rfl

end Calls

end Sideband
