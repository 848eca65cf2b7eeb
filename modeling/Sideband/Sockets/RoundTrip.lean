import Sideband.Sockets.Loops

/-!
# The socket session round trip

A client that announces its usage id and then sends a sequence of length-prefixed payloads,
and a server that reads the id and then one prefix and one body after the other. The two
ends share nothing but the byte stream, which each cuts into pieces of its own
(`SessionRoundTrips`).

* `writeAll_ok`: the client puts exactly `sessionStream` on the stream.
* `readPairs_ok`: the server takes exactly one frame off the stream in each pair of calls.
* `sessionRoundTrips_iff`: the session round-trips, however the stream is cut, exactly when
  every payload is shorter than 2 GiB. From there on a single `send` may accept a count that
  the `int written` of `WriteToSocket` cannot hold (`not_sessionRoundTrips_of_long`).
-/

namespace Sideband

open Foundation

/-! ### Frames -/

/-- The frames of a sequence of payloads. -/
def frames (payloads : List Bytes) : Bytes := payloads.flatMap frame

/-- What a client that announces `usageId` and sends `payloads` puts on the stream. Nothing
separates the id from the first frame but its length. -/
def sessionStream (usageId : Bytes) (payloads : List Bytes) : Bytes := usageId ++ frames payloads

@[simp]
theorem frames_nil : frames [] = [] := rfl

@[simp]
theorem frames_cons (p : Bytes) (ps : List Bytes) : frames (p :: ps) = frame p ++ frames ps := rfl

namespace SocketSidebandData

/-! ### The client -/

/-- Send payloads one after the other: the result of each call. A call that fails does not keep
the next one from being made. -/
def writeAll : List Bytes → Exec SocketSidebandData (List Bool)
  | [] => return []
  | p :: ps => do
    let result ← writeLengthPrefixed p
    let results ← writeAll ps
    return result :: results

/-- The client's side of a session: the end of `ConnectToSocket` and one `WriteLengthPrefixed`
for each payload, whether the one before succeeded or not. -/
def clientSession (usageId : Bytes) (payloads : List Bytes) :
    Exec SocketSidebandData (List Bool) := do
  sendUsageId usageId
  writeAll payloads

/-- One length-prefixed write puts one frame on the stream. -/
theorem writeLengthPrefixed_ok (h : SocketSidebandData) {p : Bytes} {m : ℕ}
    (hsize : p.length < 2 ^ 31) (hs : Accepting h.connection.sends ((frame p).length + m)) :
    ∃ sends', Accepting sends' m ∧
      (writeLengthPrefixed p).run h = .ok (true, h.withConnection
        { h.connection with outgoing := h.connection.outgoing ++ frame p, sends := sends' }) := by
  have hlen : (le64 p.length).length < 2 ^ 31 := by simp
  obtain ⟨sends₁, hacc₁, hheader⟩ := writeToSocket_ok h (m := p.length + m) hlen
    (hs.mono (by simp; omega))
  obtain ⟨sends₂, hacc₂, hbody⟩ := writeToSocket_ok (h.withConnection { h.connection with
    outgoing := h.connection.outgoing ++ le64 p.length, sends := sends₁ }) hsize hacc₁
  refine ⟨sends₂, hacc₂, ?_⟩
  rw [writeLengthPrefixed, Exec.run_bind_ok hheader, if_pos rfl, hbody]
  simp [frame, List.append_assoc]

theorem sends_suffix_of_writeLengthPrefixed {h h' : SocketSidebandData} {p : Bytes} {result : Bool}
    (hrun : (writeLengthPrefixed p).run h = .ok (result, h')) :
    h'.connection.sends <:+ h.connection.sends := by
  obtain ⟨ok, h₁, hheader, hrest⟩ := Exec.run_bind_eq_ok_iff.mp hrun
  have hfirst := sends_suffix_of_writeToSocket hheader
  cases ok with
  | true => exact (sends_suffix_of_writeToSocket hrest).trans hfirst
  | false =>
    cases hrest
    exact hfirst

theorem writeAll_ok {ps : List Bytes} (h : SocketSidebandData) {m : ℕ}
    (hsize : ∀ p ∈ ps, p.length < 2 ^ 31)
    (hs : Accepting h.connection.sends ((frames ps).length + m)) :
    ∃ sends', Accepting sends' m ∧
      (writeAll ps).run h = .ok (ps.map fun _ => true, h.withConnection
        { h.connection with outgoing := h.connection.outgoing ++ frames ps, sends := sends' }) := by
  induction ps generalizing h with
  | nil => exact ⟨h.connection.sends, hs.mono (by simp), by simp [writeAll]⟩
  | cons p ps ih =>
    rw [frames_cons, List.length_append, Nat.add_assoc] at hs
    obtain ⟨sends₁, hacc₁, hfirst⟩ := writeLengthPrefixed_ok h (hsize p List.mem_cons_self) hs
    obtain ⟨sends₂, hacc₂, hrest⟩ := ih (h.withConnection { h.connection with
      outgoing := h.connection.outgoing ++ frame p, sends := sends₁ })
      (fun q hq => hsize q (List.mem_cons_of_mem p hq)) hacc₁
    refine ⟨sends₂, hacc₂, ?_⟩
    rw [writeAll, Exec.run_bind_ok hfirst, Exec.run_bind_ok hrest]
    simp [List.append_assoc]

/-- The client's session puts exactly the session's bytes on the stream. -/
theorem clientSession_ok {id : Bytes} {ps : List Bytes} (h : SocketSidebandData)
    (hid : id.length < 2 ^ 31) (hsize : ∀ p ∈ ps, p.length < 2 ^ 31)
    (hs : Accepting h.connection.sends (sessionStream id ps).length) :
    ∃ h', (clientSession id ps).run h = .ok (ps.map fun _ => true, h') ∧
      h'.connection.outgoing = h.connection.outgoing ++ sessionStream id ps := by
  rw [sessionStream, List.length_append] at hs
  obtain ⟨sends₁, hacc₁, hsend⟩ := writeToSocket_ok h (m := (frames ps).length) hid hs
  obtain ⟨sends₂, -, hall⟩ := writeAll_ok (h.withConnection { h.connection with
    outgoing := h.connection.outgoing ++ id, sends := sends₁ }) (m := 0) hsize hacc₁
  have hannounce : (sendUsageId id).run h = .ok (⟨⟩, h.withConnection { h.connection with
      outgoing := h.connection.outgoing ++ id, sends := sends₁ }) := by
    rw [sendUsageId, Exec.run_bind_ok hsend, Exec.run_pure]
  refine ⟨_, by rw [clientSession, Exec.run_bind_ok hannounce, hall], ?_⟩
  simp [sessionStream, List.append_assoc]

/-! ### The server -/

/-- `ReadLengthPrefix`, then `ReadFromLengthPrefixed` with the length just returned, into a
buffer of that length. -/
def readPair : Exec SocketSidebandData (ℤ × ReadResult) := do
  let n ← readLengthPrefix
  let r ← readFromLengthPrefixed (some (List.replicate n.toNat 0)) n
  return (n, r)

def readPairs : ℕ → Exec SocketSidebandData (List (ℤ × ReadResult))
  | 0 => return []
  | k + 1 => do
    let pair ← readPair
    let pairs ← readPairs k
    return pair :: pairs

/-- The server's side of a session of `k` payloads: `ReadConnectionId` and one pair of reads for
each payload. -/
def serverSession (k : ℕ) : Exec SocketSidebandData (List (ℤ × ReadResult)) := do
  readConnectionId
  readPairs k

/-- What a pair of calls reports when it delivers the payload `p`. -/
def delivered (p : Bytes) : ℤ × ReadResult := (p.length, ⟨true, some p, some p.length⟩)

/-- One pair of calls takes one frame off the stream and delivers its payload. -/
theorem readPair_ok (h : SocketSidebandData) {p rest : Bytes} {m : ℕ}
    (hsize : p.length < 2 ^ 31) (hin : h.connection.incoming = frame p ++ rest)
    (hr : Delivering h.connection.recvs ((frame p).length + m)) :
    ∃ recvs' errno', Delivering recvs' m ∧
      readPair.run h = .ok (delivered p, h.withConnection
        { h.connection with incoming := rest, recvs := recvs', errno := errno' }) := by
  have hin' : h.connection.incoming = le64 p.length ++ (p ++ rest) := by
    rw [hin, frame, List.append_assoc]
  have hprefixLen : (le64 p.length).length = sizeofInt64 := length_le64_eq_sizeof _
  -- the prefix comes first, and then the payload, from what the prefix has left
  obtain ⟨recvs₁, errno₁, hdel₁, hheader⟩ := readFromSocket_ok h (d := le64 0)
    (n := sizeofInt64) (m := p.length + m) (by decide)
    (hr.mono (by rw [length_frame, sizeofInt64]; omega))
    (by rw [hin', List.length_append]; omega) (length_le64_eq_sizeof 0)
  rw [hin', List.take_left' hprefixLen, List.drop_left' hprefixLen] at hheader
  obtain ⟨recvs₂, errno₂, hdel₂, hbody⟩ := readFromSocket_ok (h.withConnection { h.connection with
    incoming := p ++ rest, recvs := recvs₁, errno := errno₁ })
    (d := List.replicate p.length 0) hsize hdel₁ (by simp) (by simp)
  simp only [List.take_left, List.drop_left] at hbody
  refine ⟨recvs₂, errno₂, hdel₂, ?_⟩
  have hlength : readLengthPrefix.run h = .ok ((p.length : ℤ), h.withConnection { h.connection with
      incoming := p ++ rest, recvs := recvs₁, errno := errno₁ }) := by
    rw [readLengthPrefix, Exec.run_bind_ok hheader, Exec.run_pure, Option.getD_some,
      int64OfLe_le64_natCast (by omega)]
  have hread : (readFromLengthPrefixed (some (List.replicate p.length 0)) p.length).run
      (h.withConnection { h.connection with
        incoming := p ++ rest, recvs := recvs₁, errno := errno₁ }) =
      .ok (⟨true, some p, some p.length⟩, h.withConnection { h.connection with
        incoming := rest, recvs := recvs₂, errno := errno₂ }) := by
    rw [readFromLengthPrefixed, read, Exec.run_bind_ok hbody]
    rfl
  rw [readPair, Exec.run_bind_ok hlength, Int.toNat_natCast, Exec.run_bind_ok hread, Exec.run_pure]
  rfl

theorem readPairs_ok {ps : List Bytes} (h : SocketSidebandData) {t : Bytes} {m : ℕ}
    (hsize : ∀ p ∈ ps, p.length < 2 ^ 31) (hin : h.connection.incoming = frames ps ++ t)
    (hr : Delivering h.connection.recvs ((frames ps).length + m)) :
    ∃ recvs' errno', Delivering recvs' m ∧
      (readPairs ps.length).run h = .ok (ps.map delivered, h.withConnection
        { h.connection with incoming := t, recvs := recvs', errno := errno' }) := by
  induction ps generalizing h with
  | nil =>
    refine ⟨h.connection.recvs, h.connection.errno, hr.mono (by simp), ?_⟩
    rw [frames_nil, List.nil_append] at hin
    simp [readPairs, ← hin]
  | cons p ps ih =>
    rw [frames_cons, List.append_assoc] at hin
    rw [frames_cons, List.length_append, Nat.add_assoc] at hr
    obtain ⟨recvs₁, errno₁, hdel₁, hfirst⟩ := readPair_ok h (hsize p List.mem_cons_self) hin hr
    obtain ⟨recvs₂, errno₂, hdel₂, hrest⟩ := ih (h.withConnection { h.connection with
      incoming := frames ps ++ t, recvs := recvs₁, errno := errno₁ })
      (fun q hq => hsize q (List.mem_cons_of_mem p hq)) rfl hdel₁
    refine ⟨recvs₂, errno₂, hdel₂, ?_⟩
    rw [List.length_cons, readPairs, Exec.run_bind_ok hfirst, Exec.run_bind_ok hrest, Exec.run_pure]
    simp

/-- `ReadConnectionId` takes exactly the id off a stream that begins with one. -/
theorem readConnectionId_ok (h : SocketSidebandData) {id rest : Bytes} {m : ℕ}
    (hid : id.length = connectIdLength) (hin : h.connection.incoming = id ++ rest)
    (hr : Delivering h.connection.recvs (id.length + m)) :
    ∃ recvs' errno', Delivering recvs' m ∧
      readConnectionId.run h = .ok (⟨⟩, { h with
        id := id
        connection := { h.connection with
          incoming := rest, recvs := recvs', errno := errno' } }) := by
  have h13 := connectIdLength_eq
  obtain ⟨recvs', errno', hdel, hrun⟩ := readFromSocket_ok h (d := List.replicate connectIdLength 0)
    (n := connectIdLength) (m := m) (by omega) (by rwa [← hid])
    (by rw [hin, List.length_append]; omega) (by simp)
  rw [hin, List.take_left' hid, List.drop_left' hid] at hrun
  exact ⟨recvs', errno', hdel, by rw [readConnectionId, Exec.run_bind_ok hrun]; rfl⟩

/-- The server's session takes the id and every frame off the stream, and nothing else. -/
theorem serverSession_ok {id : Bytes} {ps : List Bytes} (h : SocketSidebandData)
    (hid : id.length = connectIdLength) (hsize : ∀ p ∈ ps, p.length < 2 ^ 31)
    (hin : h.connection.incoming = sessionStream id ps)
    (hr : Delivering h.connection.recvs (sessionStream id ps).length) :
    ∃ h', (serverSession ps.length).run h = .ok (ps.map delivered, h') ∧
      h'.id = id ∧ h'.connection.incoming = [] := by
  rw [sessionStream, List.length_append] at hr
  obtain ⟨recvs₁, errno₁, hdel₁, hfirst⟩ := readConnectionId_ok h hid hin hr
  obtain ⟨recvs₂, errno₂, -, hrest⟩ := readPairs_ok { h with
    id := id
    connection := { h.connection with
      incoming := frames ps, recvs := recvs₁, errno := errno₁ } }
    (t := []) (m := 0) hsize (List.append_nil _).symm hdel₁
  exact ⟨_, by rw [serverSession, Exec.run_bind_ok hfirst, hrest], rfl, rfl⟩

/-! ### The session -/

/-- **The session round trip.** However the sends and the receives cut the stream, every
write succeeds, the server gets the id and every payload with its length, and nothing is left
of the stream. -/
def SessionRoundTrips (usageId : Bytes) (payloads : List Bytes) : Prop :=
  ∀ client server : SocketSidebandData, client.connection.outgoing = [] →
    Accepting client.connection.sends (sessionStream usageId payloads).length →
    Delivering server.connection.recvs (sessionStream usageId payloads).length →
    ∃ client' server', (clientSession usageId payloads).run client =
        .ok (payloads.map fun _ => true, client') ∧
      (serverSession payloads.length).run (server.withConnection
        { server.connection with incoming := client'.connection.outgoing }) =
        .ok (payloads.map delivered, server') ∧
      server'.id = usageId ∧ server'.connection.incoming = []

theorem sessionRoundTrips_of_short {id : Bytes} {ps : List Bytes}
    (hid : id.length = connectIdLength) (hsize : ∀ p ∈ ps, p.length < 2 ^ 31) :
    SessionRoundTrips id ps := by
  intro client server hout hs hr
  have h13 := connectIdLength_eq
  obtain ⟨client', hclient, hout'⟩ := clientSession_ok client (by omega) hsize hs
  rw [hout, List.nil_append] at hout'
  obtain ⟨server', hserver, hid', hleft⟩ := serverSession_ok (server.withConnection
    { server.connection with incoming := client'.connection.outgoing }) hid hsize hout' hr
  exact ⟨client', server', hclient, hserver, hid', hleft⟩

/-! ### Payloads of 2 GiB and more -/

/-- A kernel that accepts 2 GiB in one call whenever it is offered that much. The result of such
a call is no `int`, and `WriteToSocket` counts it as a negative number. -/
private def Greedy (sends : List SendEvent) : Prop := ∀ e ∈ sends, e = .accept (2 ^ 31)

private theorem Greedy.accepting {sends : List SendEvent} {n : ℕ} (h : Greedy sends)
    (hn : n ≤ sends.length) : Accepting sends n :=
  ⟨fun e he => ⟨_, h e he⟩, hn⟩

private theorem Greedy.suffix {sends sends' : List SendEvent} (h : Greedy sends)
    (hs : sends' <:+ sends) : Greedy sends' :=
  fun e he => h e (hs.subset he)

/-- A greedy kernel makes the write of a long payload fail after its prefix. -/
private theorem writeLengthPrefixed_greedy {h : SocketSidebandData} {p : Bytes}
    (hlong : 2 ^ 31 ≤ p.length) (hgreedy : Greedy h.connection.sends)
    (hn : (frame p).length ≤ h.connection.sends.length) :
    ∃ h', (writeLengthPrefixed p).run h = .ok (false, h') := by
  rw [length_frame] at hn
  obtain ⟨sends₁, hacc, hheader⟩ := writeToSocket_ok h (b := le64 p.length) (m := p.length)
    (by simp) (hgreedy.accepting (by simpa using hn))
  have hgreedy₁ : Greedy sends₁ := hgreedy.suffix (sends_suffix_of_writeToSocket hheader)
  cases sends₁ with
  | nil =>
    have henough := hacc.enough
    rw [List.length_nil] at henough
    omega
  | cons e sends₂ =>
    obtain rfl := hgreedy₁ e List.mem_cons_self
    obtain ⟨h', hbody⟩ := writeToSocket_truncated (h.withConnection { h.connection with
      outgoing := h.connection.outgoing ++ le64 p.length, sends := .accept (2 ^ 31) :: sends₂ })
      hlong rfl
    exact ⟨h', by rw [writeLengthPrefixed, Exec.run_bind_ok hheader, if_pos rfl, hbody]⟩

/-- Some write of a sequence with a long payload does not succeed on a greedy kernel. -/
private theorem writeAll_greedy {ps : List Bytes} {h : SocketSidebandData}
    (hlong : ∃ p ∈ ps, 2 ^ 31 ≤ p.length) (hgreedy : Greedy h.connection.sends)
    (hn : (frames ps).length ≤ h.connection.sends.length) (h' : SocketSidebandData) :
    (writeAll ps).run h ≠ .ok (ps.map fun _ => true, h') := by
  induction ps generalizing h with
  | nil => simp at hlong
  | cons p ps ih =>
    intro hrun
    rw [frames_cons, List.length_append] at hn
    rw [writeAll, Exec.run_bind_eq_ok_iff] at hrun
    obtain ⟨result, h₁, hfirst, hrun⟩ := hrun
    obtain ⟨results, h₂, hrest, hrun⟩ := Exec.run_bind_eq_ok_iff.mp hrun
    rw [Exec.run_pure, List.map_cons] at hrun
    simp only [Except.ok.injEq, Prod.mk.injEq, List.cons.injEq] at hrun
    obtain ⟨⟨rfl, rfl⟩, rfl⟩ := hrun
    -- the first write fails if its payload is the long one, otherwise a later write does
    by_cases hp : 2 ^ 31 ≤ p.length
    · obtain ⟨h'', hfail⟩ := writeLengthPrefixed_greedy hp hgreedy (by omega)
      rw [hfail] at hfirst
      cases hfirst
    · obtain ⟨sends₁, hacc, hok⟩ := writeLengthPrefixed_ok h (p := p) (m := (frames ps).length)
        (by omega) (hgreedy.accepting hn)
      rw [hok] at hfirst
      cases hfirst
      have htail : ∃ q ∈ ps, 2 ^ 31 ≤ q.length := by
        obtain ⟨q, hq, hqlong⟩ := hlong
        rcases List.mem_cons.mp hq with rfl | hq
        · exact absurd hqlong hp
        · exact ⟨q, hq, hqlong⟩
      exact ih htail (hgreedy.suffix (sends_suffix_of_writeLengthPrefixed hok)) hacc.enough hrest

/-- From 2 GiB on, a session does not round-trip however the stream is cut. -/
theorem not_sessionRoundTrips_of_long {id : Bytes} {ps : List Bytes}
    (hid : id.length = connectIdLength) (hlong : ∃ p ∈ ps, 2 ^ 31 ≤ p.length) :
    ¬ SessionRoundTrips id ps := by
  intro hsession
  have h13 := connectIdLength_eq
  obtain ⟨n, hn⟩ : ∃ n, (sessionStream id ps).length = n := ⟨_, rfl⟩
  have hgreedy : Greedy (List.replicate n (.accept (2 ^ 31))) := fun e he =>
    List.eq_of_mem_replicate he
  obtain ⟨client', -, hclient, -⟩ := hsession
    ⟨[], 0, false, { sends := List.replicate n (.accept (2 ^ 31)) }⟩
    ⟨[], 0, false, { recvs := List.replicate n (.deliver 1) }⟩ rfl
    (hgreedy.accepting (by simp [hn]))
    ⟨fun e he => .inl ⟨1, List.eq_of_mem_replicate he⟩, by
      simp [hn, List.countP_replicate, RecvEvent.delivers]⟩
  rw [clientSession, sendUsageId, Exec.run_bind_eq_ok_iff] at hclient
  obtain ⟨_, h₁, hannounce, hall⟩ := hclient
  rw [sessionStream, List.length_append] at hn
  obtain ⟨sends₁, hacc, hsend⟩ := writeToSocket_ok
    ⟨[], 0, false, { sends := List.replicate n (.accept (2 ^ 31)) }⟩ (b := id)
    (m := (frames ps).length) (by omega) (hgreedy.accepting (by simp [hn]))
  rw [Exec.run_bind_ok hsend, Exec.run_pure] at hannounce
  cases hannounce
  exact writeAll_greedy hlong (hgreedy.suffix (sends_suffix_of_writeToSocket hsend)) hacc.enough
    client' hall

/-- **Socket session round trip.** A session round-trips, however the stream is cut, exactly when
every payload is shorter than 2 GiB. The id has the length that `ReadConnectionId` reads, the
connection does not fail, and the payloads may be of any number and empty. -/
theorem sessionRoundTrips_iff {id : Bytes} {ps : List Bytes} (hid : id.length = connectIdLength) :
    SessionRoundTrips id ps ↔ ∀ p ∈ ps, p.length < 2 ^ 31 := by
  refine ⟨fun h p hp => ?_, sessionRoundTrips_of_short hid⟩
  by_contra hlong
  exact not_sessionRoundTrips_of_long hid ⟨p, hp, not_lt.mp hlong⟩ h

/-- An id of zeros, and an empty payload behind one of three bytes. -/
theorem sessionRoundTrips_iff_short_payloads :
    zeroId.length = connectIdLength ∧
      (SessionRoundTrips zeroId [[1, 2, 3], []] ↔
        ∀ p ∈ [[1, 2, 3], []], (p : Bytes).length < 2 ^ 31) :=
  ⟨rfl, sessionRoundTrips_iff rfl⟩

/-- One payload of 2 GiB. -/
theorem not_sessionRoundTrips_two_gib :
    ¬ ∀ (id : Bytes) (ps : List Bytes), id.length = connectIdLength → SessionRoundTrips id ps :=
  fun h => @not_sessionRoundTrips_of_long zeroId [List.replicate (2 ^ 31) 0] rfl
    ⟨_, List.mem_singleton_self _, by rw [List.length_replicate]⟩ (h _ _ rfl)

end SocketSidebandData

end Sideband
