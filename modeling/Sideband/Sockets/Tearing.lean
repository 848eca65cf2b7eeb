import Sideband.Sockets.RoundTrip

/-!
# Frames and sends that would block

`WriteToSocket` returns false at the first `send` that fails, also when it only would have blocked;
`ReadFromSocket` goes round in that case. `sendFrame p sends` follows the outcomes that a frame
meets, by their counts alone: `whole` (all of its bytes are accepted), `refused` (a failure comes
before its first byte), `torn` or `waits`.

* `writeLengthPrefixed_sent`: what a call does in each of the four cases.
* `putsWholeFrames_iff`: the calls put on the stream the frames of those that returned true, and
  nothing else, exactly when no frame is torn (`Untorn`).
-/

namespace Sideband

open Foundation

/-! ### What the kernel does with a frame -/

/-- What becomes of some bytes handed to `send`, with the outcomes that are left. It is decided
by the counts alone, and not by the bytes. -/
inductive Sent
  | whole (sends : List SendEvent)
  /-- A failure comes before the first byte. -/
  | refused (sends : List SendEvent)
  /-- A failure comes after some of the bytes, or a count that an `int` does not hold. -/
  | torn
  | waits
  deriving DecidableEq, Repr

/-- After a count that an `int` does not hold, the stream is not what it should be, unless the
call waits for ever. -/
def Sent.miscounted : Sent → Sent
  | .waits => .waits
  | _ => .torn

/-- Hand over more bytes behind those. -/
def Sent.andThen (next : List SendEvent → Sent) : Sent → Sent
  | .whole sends => next sends
  | sent => sent

/-- What the outcomes make of `n` bytes, some of which may be on the stream already: a failure
tears. -/
def sendAll (n : ℕ) : List SendEvent → Sent
  | [] => if n = 0 then .whole [] else .waits
  | e :: sends =>
    if n = 0 then .whole (e :: sends)
    else match e with
      | .fail _ => .torn
      | .accept k =>
        let written := toInt32 (transferCount k n)
        if written < 0 then .torn
        else if written = transferCount k n then sendAll (n - written.toNat) sends
        else (sendAll (n - written.toNat) sends).miscounted

/-- What the outcomes make of the frame of a payload: the prefix, then the payload. Only a
failure at the very first byte leaves the stream as it was. -/
def sendFrame (p : Bytes) : List SendEvent → Sent
  | .fail _ :: sends => .refused sends
  | sends => (sendAll sizeofInt64 sends).andThen (sendAll p.length)

theorem sendFrame_accept (p : Bytes) (k : ℕ) (sends : List SendEvent) :
    sendFrame p (.accept k :: sends) =
      (sendAll sizeofInt64 (.accept k :: sends)).andThen (sendAll p.length) := by
  rw [sendFrame]
  intro errno sends' h
  cases h

/-- No frame is torn: each call meets a failure before its first byte, or none before its last,
as long as the calls return. Nothing is asked behind a call that waits. -/
def Untorn : List Bytes → List SendEvent → Prop
  | [], _ => True
  | p :: ps, sends =>
    match sendFrame p sends with
    | .whole sends => Untorn ps sends
    | .refused sends => Untorn ps sends
    | .torn => False
    | .waits => True

/-- Every failure is a would-block, and a success comes after it. Such a socket is in order, and
only busy for a while. -/
def Transient (sends : List SendEvent) : Prop :=
  ∀ before errno after, sends = before ++ .fail errno :: after →
    errno.wouldBlock = true ∧ ∃ k, SendEvent.accept k ∈ after

/-! ### The loop -/

section Loop

variable {c c' : Connection} {rest : Bytes} {sends : List SendEvent} {result : Bool}

/-- The loop takes nothing back. -/
theorem length_outgoing_le_of_writeLoop (h : writeLoop c rest sends = .ok (result, c')) :
    c.outgoing.length ≤ c'.outgoing.length := by
  induction sends generalizing c rest with
  | nil =>
    rw [writeLoop] at h
    split at h
    · cases h
      exact le_rfl
    · cases h
  | cons e sends ih =>
    by_cases hrest : rest = []
    · cases e <;> rw [writeLoop, if_pos hrest] at h <;> cases h <;> exact le_rfl
    cases e with
    | fail errno =>
      rw [writeLoop, if_neg hrest] at h
      cases h
      exact le_rfl
    | accept k =>
      rw [writeLoop, if_neg hrest] at h
      dsimp only at h
      split at h
      · cases h
        simp
      · have hle := ih h
        rw [List.length_append] at hle
        omega

/-- Once a `send` has accepted bytes, they are on the stream. -/
theorem length_outgoing_lt_of_accept {k : ℕ} (hrest : rest ≠ [])
    (h : writeLoop c rest (.accept k :: sends) = .ok (result, c')) :
    c.outgoing.length < c'.outgoing.length := by
  have hpos := transferCount_pos k rest.length
  have hlen : 0 < rest.length := List.length_pos_iff.mpr hrest
  have hle := transferCount_le (k := k) hlen
  rw [writeLoop, if_neg hrest] at h
  dsimp only at h
  split at h
  · cases h
    rw [List.length_append, List.length_take]
    omega
  · have hmono := length_outgoing_le_of_writeLoop h
    rw [List.length_append, List.length_take] at hmono
    omega

/-- What a call leaves that was torn: too many bytes if it returned true, which takes 2 GiB. -/
structure Tears (c : Connection) (rest : Bytes) (result : Bool) (c' : Connection) : Prop where
  grows : c.outgoing.length ≤ c'.outgoing.length
  success : result = true →
    2 ^ 31 ≤ rest.length ∧ c.outgoing.length + rest.length < c'.outgoing.length

theorem Tears.eq_false (h : Tears c rest result c') (hsmall : rest.length < 2 ^ 31) :
    result = false := by
  cases result with
  | false => rfl
  | true => exact absurd (h.success rfl).1 (not_le.mpr hsmall)

/-- What the loop does, by what becomes of its bytes. If they are torn, it does something that
`Tears` bounds. -/
def Sent.Describes (c : Connection) (rest : Bytes) (x : Except Stop (Bool × Connection)) :
    Sent → Prop
  | .whole sends => x = .ok (true, { c with outgoing := c.outgoing ++ rest, sends := sends })
  | .refused _ => False
  | .torn => ∃ result c', x = .ok (result, c') ∧ Tears c rest result c'
  | .waits => x = .error .blocked

/-- A piece that was counted exactly, and then the rest. -/
theorem Sent.Describes.of_piece {sent : Sent} {x : Except Stop (Bool × Connection)} {count : ℕ}
    (hle : count ≤ rest.length) (h : sent.Describes
      { c with outgoing := c.outgoing ++ rest.take count } (rest.drop count) x) :
    sent.Describes c rest x := by
  cases sent with
  | whole sends =>
    refine Eq.trans h ?_
    simp [List.append_assoc, List.take_append_drop]
  | refused sends => exact h
  | torn =>
    obtain ⟨result, c', hx, hgrows, hsuccess⟩ := h
    rw [List.length_append, List.length_take, List.length_drop] at *
    refine ⟨result, c', hx, by omega, fun hresult => ?_⟩
    obtain ⟨hlarge, hlt⟩ := hsuccess hresult
    omega
  | waits => exact h

/-- A piece that was counted as a shorter one, and then what the loop takes for the rest. -/
theorem Sent.Describes.of_miscounted {sent : Sent} {x : Except Stop (Bool × Connection)}
    {count written : ℕ} (hlt : written < count) (hlarge : 2 ^ 31 ≤ count)
    (hle : count ≤ rest.length) (h : sent.Describes
      { c with outgoing := c.outgoing ++ rest.take count } (rest.drop written) x) :
    sent.miscounted.Describes c rest x := by
  cases sent with
  | whole sends =>
    refine ⟨true, _, h, ?_, fun _ => ⟨hlarge.trans hle, ?_⟩⟩
    · simp
    · dsimp only
      rw [List.length_append, List.length_append, List.length_take, List.length_drop]
      omega
  | refused sends => exact h.elim
  | torn =>
    obtain ⟨result, c', hx, hgrows, hsuccess⟩ := h
    rw [List.length_append, List.length_take, List.length_drop] at *
    refine ⟨result, c', hx, by omega, fun hresult => ?_⟩
    obtain ⟨-, hlt'⟩ := hsuccess hresult
    omega
  | waits => exact h

theorem describes_writeLoop (sends : List SendEvent) (c : Connection) (rest : Bytes) :
    (sendAll rest.length sends).Describes c rest (writeLoop c rest sends) := by
  induction sends generalizing c rest with
  | nil =>
    by_cases hrest : rest = []
    · subst hrest
      simp [sendAll, writeLoop, Sent.Describes]
    · rw [sendAll, if_neg (by simpa using hrest), writeLoop, if_neg hrest]
      rfl
  | cons e sends ih =>
    by_cases hrest : rest = []
    · subst hrest
      simp [sendAll, writeLoop, Sent.Describes]
    have hlen : 0 < rest.length := List.length_pos_iff.mpr hrest
    cases e with
    | fail errno =>
      rw [sendAll, if_neg (by omega), writeLoop, if_neg hrest]
      exact ⟨false, _, rfl, le_rfl, fun h => absurd h Bool.false_ne_true⟩
    | accept k =>
      obtain ⟨count, hcount⟩ : ∃ count, transferCount k rest.length = count := ⟨_, rfl⟩
      have hpos : 0 < count := hcount ▸ transferCount_pos k rest.length
      have hle : count ≤ rest.length := hcount ▸ transferCount_le hlen
      rw [sendAll, if_neg (by omega), writeLoop, if_neg hrest]
      dsimp only
      rw [hcount]
      generalize hwritten : toInt32 (count : ℤ) = written
      by_cases hneg : written < 0
      · rw [if_pos hneg, if_pos hneg]
        refine ⟨false, _, rfl, ?_, fun h => absurd h Bool.false_ne_true⟩
        simp
      · rw [if_neg hneg, if_neg hneg]
        obtain ⟨n, rfl⟩ := Int.eq_ofNat_of_zero_le (not_lt.mp hneg)
        rw [Int.toNat_natCast]
        have hstep := ih { c with outgoing := c.outgoing ++ rest.take count } (rest.drop n)
        rw [List.length_drop] at hstep
        by_cases hexact : (n : ℤ) = count
        · rw [if_pos hexact]
          obtain rfl : n = count := by exact_mod_cast hexact
          exact hstep.of_piece hle
        · rw [if_neg hexact]
          have hcounted : toInt32 count ≤ count := toInt32_le (Int.natCast_nonneg count)
          have hlarge : 2 ^ 31 ≤ count := by
            by_contra hsmall
            exact hexact (hwritten.symm.trans (toInt32_of_range (by omega) (by omega)))
          exact hstep.of_miscounted (by omega) hlarge hle

/-- A call that returns has sent all of its bytes, or was torn. -/
theorem writeLoop_ok_cases (h : writeLoop c rest sends = .ok (result, c')) :
    (∃ left, sendAll rest.length sends = .whole left ∧ result = true ∧
        c' = { c with outgoing := c.outgoing ++ rest, sends := left }) ∨
      sendAll rest.length sends = .torn ∧ Tears c rest result c' := by
  have hdescribes := describes_writeLoop sends c rest
  cases hsent : sendAll rest.length sends with
  | whole left =>
    rw [hsent] at hdescribes
    cases h.symm.trans hdescribes
    exact .inl ⟨left, rfl, rfl, rfl⟩
  | refused left =>
    rw [hsent] at hdescribes
    exact hdescribes.elim
  | torn =>
    rw [hsent] at hdescribes
    obtain ⟨result', c₁, hloop, htears⟩ := hdescribes
    cases h.symm.trans hloop
    exact .inr ⟨rfl, htears⟩
  | waits =>
    rw [hsent] at hdescribes
    cases h.symm.trans hdescribes

/-- A call that does not return waits for an outcome. -/
theorem sendAll_eq_waits_of_error {e : Stop} (h : writeLoop c rest sends = .error e) :
    sendAll rest.length sends = .waits := by
  have hdescribes := describes_writeLoop sends c rest
  cases hsent : sendAll rest.length sends with
  | whole left =>
    rw [hsent] at hdescribes
    cases h.symm.trans hdescribes
  | refused left =>
    rw [hsent] at hdescribes
    exact hdescribes.elim
  | torn =>
    rw [hsent] at hdescribes
    obtain ⟨result, c', hloop, -⟩ := hdescribes
    cases h.symm.trans hloop
  | waits => rfl

/-- Below 2 GiB a call that was torn returns false. -/
theorem writeLoop_torn (hsmall : rest.length < 2 ^ 31) (h : sendAll rest.length sends = .torn) :
    ∃ c', writeLoop c rest sends = .ok (false, c') := by
  have hdescribes := describes_writeLoop sends c rest
  rw [h] at hdescribes
  obtain ⟨result, c', hloop, htears⟩ := hdescribes
  obtain rfl := htears.eq_false hsmall
  exact ⟨c', hloop⟩

/-- Where each count fits an `int`, a call that returns has put no byte on the stream twice, and one
that returns false has left some out. -/
theorem length_outgoing_of_counts
    (hcounts : ∀ k, SendEvent.accept k ∈ sends → transferCount k rest.length < 2 ^ 31)
    (h : writeLoop c rest sends = .ok (result, c')) :
    c'.outgoing.length ≤ c.outgoing.length + rest.length ∧
      (result = false → c'.outgoing.length < c.outgoing.length + rest.length) := by
  induction sends generalizing c rest with
  | nil =>
    rw [writeLoop] at h
    split at h
    · cases h
      exact ⟨Nat.le_add_right _ _, by simp⟩
    · cases h
  | cons e sends ih =>
    by_cases hrest : rest = []
    · cases e <;> rw [writeLoop, if_pos hrest] at h <;> cases h <;> simp
    have hlen : 0 < rest.length := List.length_pos_iff.mpr hrest
    cases e with
    | fail errno =>
      rw [writeLoop, if_neg hrest] at h
      cases h
      dsimp only
      omega
    | accept k =>
      have hpos := transferCount_pos k rest.length
      have hle := transferCount_le (k := k) hlen
      have hlt := hcounts k List.mem_cons_self
      have hcounted : toInt32 (transferCount k rest.length : ℤ) = transferCount k rest.length :=
        toInt32_of_range (by omega) (by omega)
      rw [writeLoop, if_neg hrest] at h
      dsimp only at h
      rw [hcounted, if_neg (by omega), Int.toNat_natCast] at h
      have hcounts' (j : ℕ) (hj : SendEvent.accept j ∈ sends) :
          transferCount j (rest.drop (transferCount k rest.length)).length < 2 ^ 31 := by
        have hcount := hcounts j (List.mem_cons_of_mem _ hj)
        rw [List.length_drop]
        unfold transferCount at *
        omega
      have hloop := ih hcounts' h
      rw [List.length_append, List.length_take, List.length_drop] at hloop
      refine ⟨by omega, fun hresult => ?_⟩
      have hless := hloop.2 hresult
      omega

/-- Below 2 GiB every count fits an `int`. -/
theorem transferCount_lt_of_small (hsmall : rest.length < 2 ^ 31) (k : ℕ) :
    transferCount k rest.length < 2 ^ 31 := by
  rw [transferCount]
  omega

/-- Below 2 GiB a call that returns false has put fewer bytes on the stream than it was given. -/
theorem length_outgoing_lt_of_false (hsmall : rest.length < 2 ^ 31)
    (h : writeLoop c rest sends = .ok (false, c')) :
    c'.outgoing.length < c.outgoing.length + rest.length :=
  (length_outgoing_of_counts (fun k _ => transferCount_lt_of_small hsmall k) h).2 rfl

/-- Where each count fits an `int`, a call that returns has put exactly its bytes on the stream when
the outcomes accept all of them, and only then. -/
theorem outgoing_eq_iff_whole
    (hcounts : ∀ k, SendEvent.accept k ∈ sends → transferCount k rest.length < 2 ^ 31)
    (h : writeLoop c rest sends = .ok (result, c')) :
    c'.outgoing = c.outgoing ++ rest ↔ ∃ left, sendAll rest.length sends = .whole left := by
  rcases writeLoop_ok_cases h with ⟨left, hsent, rfl, rfl⟩ | ⟨hsent, htears⟩
  · exact iff_of_true rfl ⟨left, hsent⟩
  · obtain ⟨hle, hlt⟩ := length_outgoing_of_counts hcounts h
    refine iff_of_false (fun hsame => ?_) (by simp [hsent])
    have hlength := congrArg List.length hsame
    rw [List.length_append] at hlength
    cases result with
    | false => exact absurd hlength (hlt rfl).ne
    | true => exact absurd hlength (htears.success rfl).2.ne'

end Loop

namespace SocketSidebandData

variable {h h' : SocketSidebandData} {p : Bytes} {ps : List Bytes}

/-! ### One call -/

/-- What a call puts on the stream if it puts whole frames. -/
def reportedFrame (p : Bytes) (result : Bool) : Bytes := if result then frame p else []

/-- What `WriteLengthPrefixed` does, by what becomes of its frame: prefix and payload are two
loops, and the second runs only after the first has returned true. -/
def Describes (h : SocketSidebandData) (p : Bytes) : Sent → Prop
  | .whole sends => (writeLengthPrefixed p).run h = .ok (true, h.withConnection
      { h.connection with outgoing := h.connection.outgoing ++ frame p, sends := sends })
  | .refused sends => ∃ errno, (writeLengthPrefixed p).run h = .ok (false, h.withConnection
      { h.connection with sends := sends, errno := errno })
  | .torn => ∃ result h', (writeLengthPrefixed p).run h = .ok (result, h') ∧
      h'.connection.outgoing ≠ h.connection.outgoing ++ reportedFrame p result
  | .waits => (writeLengthPrefixed p).run h = .error .blocked

theorem describes_header (c : Connection) (x : ℤ) (sends : List SendEvent) :
    (sendAll sizeofInt64 sends).Describes c (le64 x) (writeLoop c (le64 x) sends) := by
  have hdescribes := describes_writeLoop sends c (le64 x)
  rw [length_le64_eq_sizeof] at hdescribes
  exact hdescribes

/-- The payload behind a prefix that was sent. -/
theorem describes_body {sends : List SendEvent}
    (hsentHeader : sendAll sizeofInt64 h.connection.sends = .whole sends) :
    Describes h p (sendAll p.length sends) := by
  have hheader := describes_header h.connection p.length h.connection.sends
  rw [hsentHeader] at hheader
  obtain ⟨c, hc⟩ : ∃ c, { h.connection with
      outgoing := h.connection.outgoing ++ le64 p.length, sends := sends } = c := ⟨_, rfl⟩
  have hfirst : (writeToSocket (le64 p.length)).run h = .ok (true, h.withConnection c) := by
    rw [run_writeToSocket, hheader, ← hc]
    rfl
  have hrun : (writeLengthPrefixed p).run h =
      (writeLoop c p sends).map fun r => (r.1, h.withConnection r.2) := by
    rw [writeLengthPrefixed, Exec.run_bind_ok hfirst, if_pos rfl, run_writeToSocket, ← hc]
  have hbody := describes_writeLoop sends c p
  cases hsent : sendAll p.length sends with
  | whole sends' =>
    rw [hsent] at hbody
    rw [Describes, hrun, hbody, ← hc, frame, ← List.append_assoc]
    rfl
  | refused sends' =>
    rw [hsent] at hbody
    exact hbody.elim
  | torn =>
    rw [hsent] at hbody
    obtain ⟨result, c', hloop, hgrows, hsuccess⟩ := hbody
    refine ⟨result, h.withConnection c', by rw [hrun, hloop]; rfl, fun hsame => ?_⟩
    have hlength := congrArg List.length hsame
    have houtgoing : c.outgoing.length = h.connection.outgoing.length + 8 := by
      rw [← hc, List.length_append, length_le64]
    rw [List.length_append] at hlength
    cases result with
    | true =>
      have hlt := (hsuccess rfl).2
      rw [reportedFrame, if_pos rfl, length_frame] at hlength
      dsimp only at hlength
      omega
    | false =>
      rw [reportedFrame, if_neg Bool.false_ne_true, List.length_nil] at hlength
      dsimp only at hlength
      omega
  | waits =>
    rw [hsent] at hbody
    rw [Describes, hrun, hbody]
    rfl

theorem run_writeLengthPrefixed_waits (hloop : writeLoop h.connection (le64 p.length)
    h.connection.sends = .error .blocked) : (writeLengthPrefixed p).run h = .error .blocked := by
  have hfirst : (writeToSocket (le64 p.length)).run h = .error .blocked := by
    rw [run_writeToSocket, hloop]
    rfl
  rw [writeLengthPrefixed, Exec.run_bind_error hfirst]

/-- A prefix that fails is the end of the call. -/
theorem run_writeLengthPrefixed_fails {c : Connection} (hloop : writeLoop h.connection
    (le64 p.length) h.connection.sends = .ok (false, c)) :
    (writeLengthPrefixed p).run h = .ok (false, h.withConnection c) := by
  have hfirst : (writeToSocket (le64 p.length)).run h = .ok (false, h.withConnection c) := by
    rw [run_writeToSocket, hloop]
    rfl
  rw [writeLengthPrefixed, Exec.run_bind_ok hfirst, if_neg Bool.false_ne_true, Exec.run_pure]

theorem le64_ne_nil (x : ℤ) : le64 x ≠ [] := by
  rw [← List.length_pos_iff, length_le64]
  omega

/-- A call whose first `send` accepts bytes. -/
theorem describes_accept {k : ℕ} {sends : List SendEvent}
    (hsends : h.connection.sends = .accept k :: sends) : Describes h p
      ((sendAll sizeofInt64 h.connection.sends).andThen (sendAll p.length)) := by
  have hheader := describes_header h.connection p.length h.connection.sends
  cases hsent : sendAll sizeofInt64 h.connection.sends with
  | whole sends' => exact describes_body hsent
  | refused sends' =>
    rw [hsent] at hheader
    exact hheader.elim
  | torn =>
    have htorn : ∃ c, writeLoop h.connection (le64 p.length) h.connection.sends =
        .ok (false, c) := writeLoop_torn (by simp) (by rw [length_le64_eq_sizeof]; exact hsent)
    obtain ⟨c, hloop⟩ := htorn
    refine ⟨false, _, run_writeLengthPrefixed_fails hloop, fun hsame => ?_⟩
    rw [hsends] at hloop
    have hlt := length_outgoing_lt_of_accept (le64_ne_nil _) hloop
    rw [reportedFrame, if_neg Bool.false_ne_true, List.append_nil] at hsame
    rw [← hsame] at hlt
    exact lt_irrefl _ hlt
  | waits =>
    rw [hsent] at hheader
    exact run_writeLengthPrefixed_waits hheader

theorem writeLengthPrefixed_sent (h : SocketSidebandData) (p : Bytes) :
    Describes h p (sendFrame p h.connection.sends) := by
  cases hsends : h.connection.sends with
  | nil =>
    have hheader := describes_header h.connection p.length h.connection.sends
    rw [hsends] at hheader
    refine run_writeLengthPrefixed_waits ?_
    rw [hsends]
    exact hheader
  | cons e sends =>
    cases e with
    | fail errno =>
      refine ⟨errno, run_writeLengthPrefixed_fails ?_⟩
      rw [hsends, writeLoop, if_neg (le64_ne_nil _)]
    | accept k =>
      rw [sendFrame_accept, ← hsends]
      exact describes_accept hsends

/-- A call whose frame the outcomes settle returns. -/
theorem writeLengthPrefixed_returns (hsettled : sendFrame p h.connection.sends ≠ .waits) :
    ∃ result h', (writeLengthPrefixed p).run h = .ok (result, h') := by
  have hsent := writeLengthPrefixed_sent h p
  cases hframe : sendFrame p h.connection.sends with
  | whole sends =>
    rw [hframe] at hsent
    exact ⟨_, _, hsent⟩
  | refused sends =>
    rw [hframe] at hsent
    obtain ⟨errno, hrefused⟩ := hsent
    exact ⟨_, _, hrefused⟩
  | torn =>
    rw [hframe] at hsent
    obtain ⟨result, h', htorn, -⟩ := hsent
    exact ⟨_, _, htorn⟩
  | waits => exact absurd hframe hsettled

theorem writeLengthPrefixed_blocked (hwaits : sendFrame p h.connection.sends = .waits) :
    (writeLengthPrefixed p).run h = .error .blocked := by
  have hsent := writeLengthPrefixed_sent h p
  rwa [hwaits] at hsent

/-- Below 2 GiB a call that returns false has put less than its frame on the stream. -/
theorem length_outgoing_of_writeLengthPrefixed_false (hsmall : p.length < 2 ^ 31)
    (hrun : (writeLengthPrefixed p).run h = .ok (false, h')) :
    h'.connection.outgoing.length < h.connection.outgoing.length + (frame p).length := by
  rw [writeLengthPrefixed] at hrun
  obtain ⟨result, h₁, hfirst, hrest⟩ := Exec.run_bind_eq_ok_iff.mp hrun
  obtain ⟨c₁, hloop, rfl⟩ := writeToSocket_eq_ok hfirst
  cases result with
  | false =>
    have hlt := length_outgoing_lt_of_false (by simp) hloop
    rw [length_le64] at hlt
    cases hrest
    rw [length_frame]
    exact hlt.trans_le (by omega)
  | true =>
    obtain ⟨c₂, hbody, rfl⟩ := writeToSocket_eq_ok hrest
    have hlt := length_outgoing_lt_of_false hsmall hbody
    have hlength : c₁.outgoing.length = h.connection.outgoing.length + 8 := by
      rcases writeLoop_ok_cases hloop with ⟨left, -, -, rfl⟩ | ⟨-, htears⟩
      · rw [List.length_append, length_le64]
      · exact absurd (htears.eq_false (by simp)) Bool.true_eq_false.mp
    rw [length_frame]
    change c₂.outgoing.length < c₁.outgoing.length + p.length at hlt
    change c₂.outgoing.length < _
    omega

/-- Below 2 GiB a call that returns has put its frame on the stream exactly when the outcomes make a
whole frame of it. -/
theorem writeLengthPrefixed_handed_iff (hsmall : p.length < 2 ^ 31) {result : Bool}
    (hrun : (writeLengthPrefixed p).run h = .ok (result, h')) :
    h'.connection.outgoing = h.connection.outgoing ++ frame p ↔
      ∃ sends, sendFrame p h.connection.sends = .whole sends := by
  have hsent := writeLengthPrefixed_sent h p
  have hless (hfalse : result = false) :
      h'.connection.outgoing ≠ h.connection.outgoing ++ frame p := by
    subst hfalse
    intro hsame
    have hlt := length_outgoing_of_writeLengthPrefixed_false hsmall hrun
    rw [hsame, List.length_append] at hlt
    omega
  cases hframe : sendFrame p h.connection.sends with
  | whole sends =>
    rw [hframe] at hsent
    cases hrun.symm.trans hsent
    exact iff_of_true rfl ⟨sends, rfl⟩
  | refused sends =>
    rw [hframe] at hsent
    obtain ⟨errno, hrefused⟩ := hsent
    cases hrun.symm.trans hrefused
    exact iff_of_false (hless rfl) (by simp)
  | torn =>
    rw [hframe] at hsent
    obtain ⟨result', h₁, htorn, hne⟩ := hsent
    cases hrun.symm.trans htorn
    refine iff_of_false ?_ (by simp)
    cases result with
    | true => exact hne
    | false => exact hless rfl
  | waits =>
    rw [hframe] at hsent
    cases hrun.symm.trans hsent

/-! ### A sequence of calls -/

/-- The payloads whose call returned true. -/
def reported (payloads : List Bytes) (results : List Bool) : List Bytes :=
  ((payloads.zip results).filter Prod.snd).map Prod.fst

theorem frames_reported_cons (p : Bytes) (ps : List Bytes) (result : Bool) (results : List Bool) :
    frames (reported (p :: ps) (result :: results)) =
      reportedFrame p result ++ frames (reported ps results) := by
  cases result <;> simp [reported, reportedFrame]

/-- A sequence of calls puts the frames of those that returned true on the stream, and a call
that returned false puts nothing there. It is asked at every point of the sequence. -/
structure PutsWholeFrames (ps : List Bytes) (h : SocketSidebandData) : Prop where
  stream : ∀ calls, calls <+: ps → ∀ results h', (writeAll calls).run h = .ok (results, h') →
    h'.connection.outgoing = h.connection.outgoing ++ frames (reported calls results)
  failed : ∀ calls p, calls ++ [p] <+: ps → ∀ results h₁ h₂,
    (writeAll calls).run h = .ok (results, h₁) →
      (writeLengthPrefixed p).run h₁ = .ok (false, h₂) →
        h₂.connection.outgoing = h₁.connection.outgoing

/-- A call that puts a whole frame or nothing, and then the others. -/
theorem putsWholeFrames_cons {result : Bool}
    (hrun : (writeLengthPrefixed p).run h = .ok (result, h'))
    (houtgoing : h'.connection.outgoing = h.connection.outgoing ++ reportedFrame p result) :
    PutsWholeFrames (p :: ps) h ↔ PutsWholeFrames ps h' := by
  have hcons {calls : List Bytes} {results : List Bool} {h₂ : SocketSidebandData}
      (hcalls : (writeAll calls).run h' = .ok (results, h₂)) :
      (writeAll (p :: calls)).run h = .ok (result :: results, h₂) := by
    rw [writeAll, Exec.run_bind_ok hrun, Exec.run_bind_ok hcalls, Exec.run_pure]
  have huncons {calls : List Bytes} {results : List Bool} {h₂ : SocketSidebandData}
      (hcalls : (writeAll (p :: calls)).run h = .ok (results, h₂)) :
      ∃ rest, results = result :: rest ∧ (writeAll calls).run h' = .ok (rest, h₂) := by
    rw [writeAll, Exec.run_bind_ok hrun, Exec.run_bind_eq_ok_iff] at hcalls
    obtain ⟨rest, t, hrest, hpure⟩ := hcalls
    cases hpure
    exact ⟨rest, rfl, hrest⟩
  constructor
  · rintro ⟨hstream, hfailed⟩
    constructor
    · intro calls hcalls results h₂ hrest
      have hcalls' : p :: calls <+: p :: ps := List.cons_prefix_cons.mpr ⟨rfl, hcalls⟩
      have hwhole := hstream (p :: calls) hcalls' _ _ (hcons hrest)
      rw [frames_reported_cons, ← List.append_assoc, ← houtgoing] at hwhole
      exact hwhole
    · intro calls q hcalls results h₁ h₂ hrest hlast
      exact hfailed (p :: calls) q (List.cons_prefix_cons.mpr ⟨rfl, hcalls⟩) _ h₁ h₂ (hcons hrest)
        hlast
  · rintro ⟨hstream, hfailed⟩
    constructor
    · intro calls hcalls results h₂ hrest
      cases calls with
      | nil =>
        cases hrest
        simp [reported]
      | cons q calls =>
        obtain ⟨rfl, htail⟩ := List.cons_prefix_cons.mp hcalls
        obtain ⟨rest, rfl, hcalls'⟩ := huncons hrest
        rw [hstream calls htail rest h₂ hcalls', houtgoing, frames_reported_cons, List.append_assoc]
    · intro calls q hcalls results h₁ h₂ hrest hlast
      cases calls with
      | nil =>
        obtain ⟨rfl, -⟩ := List.cons_prefix_cons.mp hcalls
        cases hrest
        rw [hrun] at hlast
        cases hlast
        rw [houtgoing, reportedFrame, if_neg Bool.false_ne_true, List.append_nil]
      | cons q' calls =>
        obtain ⟨rfl, htail⟩ := List.cons_prefix_cons.mp hcalls
        obtain ⟨rest, rfl, hcalls'⟩ := huncons hrest
        exact hfailed calls q htail rest h₁ h₂ hcalls' hlast

/-- The calls that follow one that waits are not made. -/
theorem putsWholeFrames_of_waits (hrun : (writeLengthPrefixed p).run h = .error .blocked) :
    PutsWholeFrames (p :: ps) h := by
  have hcons (calls : List Bytes) : (writeAll (p :: calls)).run h = .error .blocked := by
    rw [writeAll, Exec.run_bind_error hrun]
  constructor
  · intro calls hcalls results h₂ hrest
    cases calls with
    | nil =>
      cases hrest
      simp [reported]
    | cons q calls =>
      obtain ⟨rfl, -⟩ := List.cons_prefix_cons.mp hcalls
      rw [hcons] at hrest
      cases hrest
  · intro calls q hcalls results h₁ h₂ hrest hlast
    cases calls with
    | nil =>
      obtain ⟨rfl, -⟩ := List.cons_prefix_cons.mp hcalls
      cases hrest
      rw [hrun] at hlast
      cases hlast
    | cons q' calls =>
      obtain ⟨rfl, -⟩ := List.cons_prefix_cons.mp hcalls
      rw [hcons] at hrest
      cases hrest

/-- **Whole frames.** For every sequence of payloads and every sequence of send outcomes, the calls
put on the stream exactly the frames of those that returned true, and a call that returned false put
nothing there, if and only if no frame is torn. -/
theorem putsWholeFrames_iff (ps : List Bytes) (h : SocketSidebandData) :
    PutsWholeFrames ps h ↔ Untorn ps h.connection.sends := by
  induction ps generalizing h with
  | nil =>
    refine iff_of_true ⟨?_, ?_⟩ trivial
    · intro calls hcalls results h' hrun
      obtain rfl := List.prefix_nil.mp hcalls
      cases hrun
      simp [reported]
    · intro calls p hcalls
      exact absurd (List.prefix_nil.mp hcalls) (by simp)
  | cons p ps ih =>
    have hcall := writeLengthPrefixed_sent h p
    rw [Untorn]
    cases hsent : sendFrame p h.connection.sends with
    | whole sends =>
      rw [hsent] at hcall
      exact (putsWholeFrames_cons hcall rfl).trans (ih _)
    | refused sends =>
      rw [hsent] at hcall
      obtain ⟨errno, hrun⟩ := hcall
      refine (putsWholeFrames_cons hrun ?_).trans (ih _)
      rw [reportedFrame, if_neg Bool.false_ne_true, List.append_nil]
    | torn =>
      rw [hsent] at hcall
      obtain ⟨result, h', hrun, htorn⟩ := hcall
      refine iff_of_false (fun hwhole => htorn ?_) not_false
      have hone : (writeAll [p]).run h = .ok ([result], h') := by
        rw [writeAll, Exec.run_bind_ok hrun]
        rfl
      have hstream := hwhole.stream [p] (List.prefix_append [p] ps) _ _ hone
      rw [frames_reported_cons] at hstream
      simpa [reported] using hstream
    | waits =>
      rw [hsent] at hcall
      exact iff_of_true (putsWholeFrames_of_waits hcall) trivial

/-- A handle of a non-blocking socket. -/
def lowLatencyHandle (sends : List SendEvent) : SocketSidebandData where
  socket := 3
  lowLatency := true
  connection := { sends := sends }

/-- A would-block in a prefix: three bytes of a frame are on the stream, and the call returned
false. -/
theorem not_putsWholeFrames_wouldBlock : ¬ ∀ (ps : List Bytes) (h : SocketSidebandData),
    Transient h.connection.sends → PutsWholeFrames ps h := by
  intro hall
  have htransient : Transient [.accept 3, .fail .EWOULDBLOCK, .accept 8] := by
    intro before errno after heq
    rcases before with _ | ⟨_, _ | ⟨_, before⟩⟩
    · simp at heq
    · simp only [List.cons_append, List.nil_append, List.cons.injEq, SendEvent.fail.injEq] at heq
      obtain ⟨-, rfl, rfl⟩ := heq
      exact ⟨rfl, 8, List.mem_singleton_self _⟩
    · obtain ⟨-, -, hlast⟩ : _ ∧ _ ∧ [SendEvent.accept 8] = before ++ .fail errno :: after := by
        simpa using heq
      have hmem : SendEvent.fail errno ∈ [SendEvent.accept 8] := hlast ▸ by simp
      simp at hmem
  have hwhole := hall [[7]] (lowLatencyHandle [.accept 3, .fail .EWOULDBLOCK, .accept 8]) htransient
  have hfailed := hwhole.failed [] [7] (List.prefix_refl _) [] _ _ rfl rfl
  revert hfailed
  decide

end SocketSidebandData

end Sideband
