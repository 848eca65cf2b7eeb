import Sideband.Sockets.Socket

/-!
# The send and receive loops

What `WriteToSocket` and `ReadFromSocket` do on a kernel that transfers something in every
call: `writeToSocket_ok` and `readFromSocket_ok`. Both hold for every way the kernel cuts the
stream into pieces, as long as a piece is counted exactly by an `int`; the requests below
2 GiB are the ones for which it always is. `writeToSocket_truncated` is the other side: a
piece of exactly 2 GiB is counted as a negative number.

The outcomes a call leaves are the ones the next call finds, so `Accepting` and `Delivering`
carry a budget: how many bytes the remaining outcomes are sure to transfer.

On any kernel, `readRound_of_readLoop` tells what the first round of a loop that returns has done.
-/

namespace Sideband

open Foundation

/-! ### Kernels that always transfer something -/

/-- A list of send outcomes without failures, long enough for `n` bytes even if each of them
takes a single one. -/
structure Accepting (sends : List SendEvent) (n : ℕ) : Prop where
  accepts : ∀ e ∈ sends, ∃ k, e = .accept k
  enough : n ≤ sends.length

/-- Whether a `recv` outcome transfers bytes. -/
def RecvEvent.delivers : RecvEvent → Bool
  | .deliver _ => true
  | _ => false

/-- A list of receive outcomes whose only failures are would-block ones, long enough for `n`
bytes even if each of the others brings a single one. -/
structure Delivering (recvs : List RecvEvent) (n : ℕ) : Prop where
  delivers : ∀ e ∈ recvs, (∃ k, e = .deliver k) ∨ ∃ errno, e = .fail errno ∧ errno.wouldBlock
  enough : n ≤ recvs.countP RecvEvent.delivers

theorem Accepting.mono {sends : List SendEvent} {m n : ℕ} (h : Accepting sends n) (hmn : m ≤ n) :
    Accepting sends m :=
  ⟨h.accepts, hmn.trans h.enough⟩

theorem Delivering.mono {recvs : List RecvEvent} {m n : ℕ} (h : Delivering recvs n)
    (hmn : m ≤ n) : Delivering recvs m :=
  ⟨h.delivers, hmn.trans h.enough⟩

theorem transferCount_pos (k n : ℕ) : 0 < transferCount k n := by
  rw [transferCount]
  omega

theorem transferCount_le {k n : ℕ} (h : 0 < n) : transferCount k n ≤ n := by
  rw [transferCount]
  omega

/-! ### `WriteToSocket` -/

/-- The loop sends exactly `rest`. -/
theorem writeLoop_ok {sends : List SendEvent} (c : Connection) {rest : Bytes} {m : ℕ}
    (hsize : rest.length < 2 ^ 31) (hs : Accepting sends (rest.length + m)) :
    ∃ sends', Accepting sends' m ∧
      writeLoop c rest sends =
        .ok (true, { c with outgoing := c.outgoing ++ rest, sends := sends' }) := by
  induction sends generalizing c rest with
  | nil =>
    have hlen := hs.enough
    rw [List.length_nil] at hlen
    obtain rfl : rest = [] := List.eq_nil_of_length_eq_zero (by omega)
    exact ⟨[], hs.mono (by omega), by simp [writeLoop]⟩
  | cons e sends ih =>
    -- with nothing left to send, the rest of the outcomes is not used
    by_cases hrest : rest = []
    · subst hrest
      exact ⟨e :: sends, hs.mono (by simp), by simp [writeLoop]⟩
    obtain ⟨k, rfl⟩ := hs.accepts e List.mem_cons_self
    have hlen : 0 < rest.length := List.length_pos_iff.mpr hrest
    have hpos := transferCount_pos k rest.length
    have hle := transferCount_le (k := k) hlen
    -- the count is exact as an `int`, so `start` moves by what was accepted
    have hcount : toInt32 (transferCount k rest.length) = transferCount k rest.length :=
      toInt32_of_range (by omega) (by omega)
    have hrest' : Accepting sends ((rest.drop (transferCount k rest.length)).length + m) := by
      refine ⟨fun e he => hs.accepts e (List.mem_cons_of_mem _ he), ?_⟩
      have := hs.enough
      rw [List.length_cons] at this
      rw [List.length_drop]
      omega
    obtain ⟨sends', hacc, hrun⟩ := ih
      { c with outgoing := c.outgoing ++ rest.take (transferCount k rest.length) }
      (by rw [List.length_drop]; omega) hrest'
    refine ⟨sends', hacc, ?_⟩
    rw [writeLoop, if_neg hrest]
    simp only [hcount]
    rw [if_neg (by omega), Int.toNat_natCast, hrun]
    simp [List.append_assoc, List.take_append_drop]

/-- The loop consumes outcomes from the front. -/
theorem sends_suffix_of_writeLoop {sends : List SendEvent} {c c' : Connection} {rest : Bytes}
    {result : Bool} (h : writeLoop c rest sends = .ok (result, c')) : c'.sends <:+ sends := by
  induction sends generalizing c rest with
  | nil =>
    rw [writeLoop] at h
    split at h
    · cases h
      exact List.suffix_rfl
    · cases h
  | cons e sends ih =>
    by_cases hrest : rest = []
    · cases e <;> rw [writeLoop, if_pos hrest] at h <;> cases h <;> exact List.suffix_rfl
    cases e with
    | fail errno =>
      rw [writeLoop, if_neg hrest] at h
      cases h
      exact List.suffix_cons _ _
    -- a count that is negative as an `int` ends the loop, any other one goes on
    | accept k =>
      rw [writeLoop, if_neg hrest] at h
      dsimp only at h
      split at h
      · cases h
        exact List.suffix_cons _ _
      · exact (ih h).trans (List.suffix_cons _ _)

/-- A piece of 2 GiB is counted as a negative number: the write reports a failure. -/
theorem writeLoop_truncated (sends : List SendEvent) (c : Connection) {rest : Bytes}
    (hsize : 2 ^ 31 ≤ rest.length) :
    ∃ c', writeLoop c rest (.accept (2 ^ 31) :: sends) = .ok (false, c') := by
  have hrest : rest ≠ [] := fun h => by
    rw [h, List.length_nil] at hsize
    omega
  have hcount : transferCount (2 ^ 31) rest.length = 2 ^ 31 := by
    rw [transferCount]
    omega
  rw [writeLoop, if_neg hrest]
  simp only [hcount]
  rw [if_pos (by decide)]
  exact ⟨_, rfl⟩

namespace SocketSidebandData

/-- A handle whose connection has other outcomes and bytes. -/
abbrev withConnection (h : SocketSidebandData) (c : Connection) : SocketSidebandData :=
  { h with connection := c }

theorem run_writeToSocket (h : SocketSidebandData) (bytes : Bytes) :
    (writeToSocket bytes).run h =
      (writeLoop h.connection bytes h.connection.sends).map fun r =>
        (r.1, h.withConnection r.2) := rfl

/-- A call that returns is the loop, with what it leaves of the connection. -/
theorem writeToSocket_eq_ok {h h' : SocketSidebandData} {bytes : Bytes} {result : Bool}
    (hrun : (writeToSocket bytes).run h = .ok (result, h')) :
    ∃ c, writeLoop h.connection bytes h.connection.sends = .ok (result, c) ∧
      h' = h.withConnection c := by
  rw [run_writeToSocket] at hrun
  cases hloop : writeLoop h.connection bytes h.connection.sends with
  | error e =>
    rw [hloop] at hrun
    cases hrun
  | ok r =>
    rw [hloop] at hrun
    cases hrun
    exact ⟨r.2, rfl, rfl⟩

theorem writeToSocket_ok (h : SocketSidebandData) {b : Bytes} {m : ℕ}
    (hsize : b.length < 2 ^ 31) (hs : Accepting h.connection.sends (b.length + m)) :
    ∃ sends', Accepting sends' m ∧
      (writeToSocket b).run h = .ok (true, h.withConnection
        { h.connection with outgoing := h.connection.outgoing ++ b, sends := sends' }) := by
  obtain ⟨sends', hacc, hrun⟩ := writeLoop_ok h.connection hsize hs
  refine ⟨sends', hacc, ?_⟩
  rw [run_writeToSocket, hrun]
  rfl

theorem sends_suffix_of_writeToSocket {h h' : SocketSidebandData} {bytes : Bytes} {result : Bool}
    (hrun : (writeToSocket bytes).run h = .ok (result, h')) :
    h'.connection.sends <:+ h.connection.sends := by
  obtain ⟨c, hloop, rfl⟩ := writeToSocket_eq_ok hrun
  exact sends_suffix_of_writeLoop hloop

theorem writeToSocket_truncated (h : SocketSidebandData) {bytes : Bytes} {sends : List SendEvent}
    (hsize : 2 ^ 31 ≤ bytes.length) (hs : h.connection.sends = .accept (2 ^ 31) :: sends) :
    ∃ h', (writeToSocket bytes).run h = .ok (false, h') := by
  obtain ⟨c', hrun⟩ := writeLoop_truncated sends h.connection hsize
  refine ⟨h.withConnection c', ?_⟩
  rw [run_writeToSocket, hs, hrun]
  rfl

end SocketSidebandData

/-! ### `ReadFromSocket` -/

section ReadSteps

variable (c : Connection) (dst : Option Bytes) (start : ℕ) {remainingBytes : ℤ}
  (recvs : List RecvEvent)

theorem readLoop_done (h : remainingBytes ≤ 0) :
    readLoop c dst start remainingBytes recvs = .ok ((true, dst), { c with recvs }) := by
  cases recvs with
  | nil => rw [readLoop, if_pos h]
  | cons e recvs => cases e <;> rw [readLoop, if_pos h]

theorem readLoop_wouldBlock {errno : Errno} (h : 0 < remainingBytes) (hblock : errno.wouldBlock) :
    readLoop c dst start remainingBytes (.fail errno :: recvs) =
      readLoop { c with errno } dst start remainingBytes recvs := by
  rw [readLoop, if_neg (by omega)]
  simp only [hblock, if_true]

theorem readLoop_fail {errno : Errno} (h : 0 < remainingBytes) (hfail : errno.wouldBlock = false) :
    readLoop c dst start remainingBytes (.fail errno :: recvs) =
      .ok ((false, dst), { c with recvs, errno }) := by
  rw [readLoop, if_neg (by omega)]
  simp [hfail]

/-- One piece, counted exactly by an `int`. -/
theorem readLoop_deliver {k count : ℕ} {dst' : Option Bytes} (h : 0 < remainingBytes)
    (hne : c.incoming ≠ [])
    (hcount : transferCount k (min remainingBytes.toNat c.incoming.length) = count)
    (hexact : toInt32 count = count)
    (hstore : storeDst start (c.incoming.take count) dst = some dst') :
    readLoop c dst start remainingBytes (.deliver k :: recvs) =
      readLoop { c with incoming := c.incoming.drop count } dst' (start + count)
        (remainingBytes - count) recvs := by
  rw [readLoop, if_neg (by omega)]
  dsimp only
  rw [if_neg hne, hcount, hstore]
  dsimp only
  rw [hexact, if_neg (by omega), Int.toNat_natCast]

/-- A piece that an `int` counts exactly goes behind what was read, and the loop goes on with what
is missing. -/
theorem readLoop_piece {k count : ℕ} {d : Bytes} (h : 0 < remainingBytes) (hne : c.incoming ≠ [])
    (hcount : transferCount k (min remainingBytes.toNat c.incoming.length) = count)
    (hint : count < 2 ^ 31) (hdst : start + remainingBytes ≤ d.length) :
    readLoop c (some d) start remainingBytes (.deliver k :: recvs) =
      readLoop { c with incoming := c.incoming.drop count }
        (some (overlay start (c.incoming.take count) d)) (start + count) (remainingBytes - count)
        recvs := by
  have hpos := List.length_pos_iff.mpr hne
  have hle : count ≤ min remainingBytes.toNat c.incoming.length :=
    hcount ▸ transferCount_le (by omega)
  have htake : (c.incoming.take count).length = count := by
    rw [List.length_take]
    omega
  have hstore : storeDst start (c.incoming.take count) (some d) =
      some (some (overlay start (c.incoming.take count) d)) := by
    rw [storeDst, storeAt_eq_some (by omega), Option.map_some]
  exact readLoop_deliver c _ start recvs h hne hcount (toInt32_of_range (by omega) (by omega))
    hstore

end ReadSteps

/-- The loop stores exactly the next `n` bytes, at offset `i`. -/
theorem readLoop_ok {recvs : List RecvEvent} (c : Connection) {d : Bytes} {i n m : ℕ}
    (hsize : n < 2 ^ 31) (hr : Delivering recvs (n + m)) (hin : n ≤ c.incoming.length)
    (hdst : i + n ≤ d.length) :
    ∃ recvs' errno', Delivering recvs' m ∧
      readLoop c (some d) i n recvs =
        .ok ((true, some (overlay i (c.incoming.take n) d)),
          { c with incoming := c.incoming.drop n, recvs := recvs', errno := errno' }) := by
  induction recvs generalizing c d i n with
  | nil =>
    have henough := hr.enough
    rw [List.countP_nil] at henough
    obtain rfl : n = 0 := by omega
    exact ⟨[], c.errno, hr.mono (by omega), by simp [readLoop_done]⟩
  | cons e recvs ih =>
    rcases Nat.eq_zero_or_pos n with rfl | hn
    · exact ⟨e :: recvs, c.errno, hr.mono (by omega), by simp [readLoop_done]⟩
    have htail : ∀ e ∈ recvs, (∃ k, e = .deliver k) ∨ ∃ errno, e = .fail errno ∧ errno.wouldBlock :=
      fun e he => hr.delivers e (List.mem_cons_of_mem _ he)
    have henough := hr.enough
    rcases hr.delivers e List.mem_cons_self with ⟨k, rfl⟩ | ⟨errno, rfl, hblock⟩
    · -- a piece of `count` bytes arrives
      rw [List.countP_cons_of_pos rfl] at henough
      have hne : c.incoming ≠ [] := fun h => by
        rw [h, List.length_nil] at hin
        omega
      obtain ⟨count, hcount⟩ : ∃ count, transferCount k (min n c.incoming.length) = count :=
        ⟨_, rfl⟩
      have hpos : 0 < count := hcount ▸ transferCount_pos _ _
      have hle : count ≤ n :=
        hcount ▸ (transferCount_le (by omega)).trans (min_le_left n c.incoming.length)
      have hfits : i + (c.incoming.take count).length ≤ d.length := by
        rw [List.length_take]
        omega
      obtain ⟨recvs', errno', hdel, hrun⟩ := ih { c with incoming := c.incoming.drop count }
        (d := overlay i (c.incoming.take count) d) (i := i + count)
        (n := n - count) (by omega) ⟨htail, by omega⟩
        (by simp only [List.length_drop]; omega) (by rw [length_overlay hfits]; omega)
      refine ⟨recvs', errno', hdel, ?_⟩
      have hrem : (n : ℤ) - count = ((n - count : ℕ) : ℤ) := by omega
      rw [readLoop_piece c i recvs (by omega) hne hcount (by omega) (by omega), hrem, hrun,
        overlay_take_drop hle hin hdst]
      simp only [List.drop_drop, Nat.add_sub_cancel' hle]
    · -- would-block: once more round the inner loop
      rw [List.countP_cons_of_neg (by simp [RecvEvent.delivers])] at henough
      obtain ⟨recvs', errno', hdel, hrun⟩ := ih { c with errno } (d := d) (i := i)
        hsize ⟨htail, henough⟩ hin hdst
      exact ⟨recvs', errno', hdel, by rw [readLoop_wouldBlock c _ i recvs (by omega) hblock, hrun]⟩

/-- Whether a `recv` outcome is an error other than would-block. -/
def RecvEvent.fails : RecvEvent → Bool
  | .fail errno => !errno.wouldBlock
  | _ => false

/-- The first round of a loop that returns, and how it goes on. The cases are those of the
source's two nested loops, by the outcome of the `recv`. -/
inductive ReadRound (c : Connection) (dst : Option Bytes) (start : ℕ) (remainingBytes : ℤ)
    (r : Bool × Option Bytes) (c' : Connection) : List RecvEvent → Prop
  | done {recvs : List RecvEvent} (hrem : remainingBytes ≤ 0) (hr : r = (true, dst))
      (hc : c' = { c with recvs }) : ReadRound c dst start remainingBytes r c' recvs
  | failed {e : RecvEvent} {recvs : List RecvEvent} (hfails : e.fails = true)
      (hr : r = (false, dst)) : ReadRound c dst start remainingBytes r c' (e :: recvs)
  /-- Would-block, or `recv` returned 0, which the loop takes for a piece of no bytes. -/
  | again {e : RecvEvent} {recvs : List RecvEvent} (errno : Errno) (hrem : 0 < remainingBytes)
      (h : readLoop { c with errno } dst start remainingBytes recvs = .ok (r, c')) :
      ReadRound c dst start remainingBytes r c' (e :: recvs)
  | piece {k : ℕ} {recvs : List RecvEvent} {dst' : Option Bytes} (count : ℕ)
      (hrem : 0 < remainingBytes) (hpos : 0 < count)
      (hle : count ≤ min remainingBytes.toNat c.incoming.length)
      (hstore : storeDst start (c.incoming.take count) dst = some dst')
      (hcounted : 0 ≤ toInt32 count)
      (h : readLoop { c with incoming := c.incoming.drop count } dst'
        (start + (toInt32 count).toNat) (remainingBytes - toInt32 count) recvs = .ok (r, c')) :
      ReadRound c dst start remainingBytes r c' (.deliver k :: recvs)
  /-- The `int` is negative: an error, or would-block, as the `errno` of an earlier call says. -/
  | overflowed {k : ℕ} {recvs : List RecvEvent} {dst' : Option Bytes} (count : ℕ)
      (hrem : 0 < remainingBytes) (hpos : 0 < count)
      (hle : count ≤ min remainingBytes.toNat c.incoming.length)
      (hstore : storeDst start (c.incoming.take count) dst = some dst')
      (hcounted : toInt32 count < 0)
      (h : r = (false, dst') ∨ readLoop { c with incoming := c.incoming.drop count } dst' start
        remainingBytes recvs = .ok (r, c')) :
      ReadRound c dst start remainingBytes r c' (.deliver k :: recvs)

theorem readRound_of_readLoop {recvs : List RecvEvent} {c c' : Connection} {dst : Option Bytes}
    {start : ℕ} {remainingBytes : ℤ} {r : Bool × Option Bytes}
    (h : readLoop c dst start remainingBytes recvs = .ok (r, c')) :
    ReadRound c dst start remainingBytes r c' recvs := by
  by_cases hrem : remainingBytes ≤ 0
  · rw [readLoop_done c dst start recvs hrem] at h
    cases h
    exact .done hrem rfl rfl
  cases recvs with
  | nil =>
    rw [readLoop, if_neg hrem] at h
    cases h
  | cons e recvs =>
    cases e with
    | fail errno =>
      cases hblock : errno.wouldBlock with
      | true =>
        rw [readLoop_wouldBlock c dst start recvs (not_le.mp hrem) hblock] at h
        exact .again errno (not_le.mp hrem) h
      | false =>
        rw [readLoop_fail c dst start recvs (not_le.mp hrem) hblock] at h
        cases h
        exact .failed (by simp [RecvEvent.fails, hblock]) rfl
    | closed =>
      rw [readLoop, if_neg hrem] at h
      exact .again c.errno (not_le.mp hrem) h
    | deliver k =>
      rw [readLoop, if_neg hrem] at h
      dsimp only at h
      by_cases hin : c.incoming = []
      · -- with nothing on the way the call waits
        rw [if_pos hin] at h
        cases h
      obtain ⟨count, hcount⟩ : ∃ count,
        transferCount k (min remainingBytes.toNat c.incoming.length) = count := ⟨_, rfl⟩
      have hlength := List.length_pos_iff.mpr hin
      have hpos : 0 < count := hcount ▸ transferCount_pos _ _
      have hle : count ≤ min remainingBytes.toNat c.incoming.length :=
        hcount ▸ transferCount_le (by omega)
      rw [if_neg hin, hcount] at h
      cases hstore : storeDst start (c.incoming.take count) dst with
      | none =>
        rw [hstore] at h
        cases h
      | some dst' =>
        rw [hstore] at h
        dsimp only at h
        split_ifs at h with hneg hblock
        · exact .overflowed count (not_le.mp hrem) hpos hle hstore hneg (.inr h)
        · cases h
          exact .overflowed count (not_le.mp hrem) hpos hle hstore hneg (.inl rfl)
        · exact .piece count (not_le.mp hrem) hpos hle hstore (not_lt.mp hneg) h

/-- On a kernel that does not fail, a loop that returns has stored exactly the next `n` bytes. -/
theorem readLoop_eq_of_ok {recvs : List RecvEvent} (hsteady : ∀ e ∈ recvs, e.fails = false)
    {c c' : Connection} {d : Bytes} {i n : ℕ} {r : Bool × Option Bytes} (hsize : n < 2 ^ 31)
    (hdst : i + n ≤ d.length) (h : readLoop c (some d) i n recvs = .ok (r, c')) :
    n ≤ c.incoming.length ∧ r = (true, some (overlay i (c.incoming.take n) d)) ∧
      c'.incoming = c.incoming.drop n ∧ ∀ e ∈ c'.recvs, e.fails = false := by
  induction recvs generalizing c d i n with
  | nil =>
    cases readRound_of_readLoop h with
    | done hrem hr hc =>
      obtain rfl : n = 0 := by omega
      rw [hr, hc, List.take_zero, overlay_nil]
      exact ⟨Nat.zero_le _, rfl, rfl, hsteady⟩
  | cons e recvs ih =>
    have htail := fun e he => hsteady e (List.mem_cons_of_mem _ he)
    cases readRound_of_readLoop h with
    | done hrem hr hc =>
      obtain rfl : n = 0 := by omega
      rw [hr, hc, List.take_zero, overlay_nil]
      exact ⟨Nat.zero_le _, rfl, rfl, hsteady⟩
    | failed hfails =>
      rw [hsteady _ List.mem_cons_self] at hfails
      cases hfails
    | again errno _ h => exact ih (c := { c with errno }) htail hsize hdst h
    | overflowed count _ _ hle _ hcounted =>
      rw [toInt32_of_range (by omega) (by omega)] at hcounted
      omega
    | piece count _ hpos hle hstore hcounted h =>
      have hfits : i + (c.incoming.take count).length ≤ d.length := by
        rw [List.length_take]
        omega
      have hrem : (n : ℤ) - count = ((n - count : ℕ) : ℤ) := by omega
      rw [of_storeDst hstore, toInt32_of_range (by omega) (by omega), Int.toNat_natCast, hrem] at h
      obtain ⟨hlen, hr, hincoming, hrecvs⟩ := ih htail (by omega)
        (by rw [length_overlay hfits]; omega) h
      rw [List.length_drop] at hlen
      refine ⟨by omega, ?_, ?_, hrecvs⟩
      · rw [hr, overlay_take_drop (by omega) (by omega) hdst]
      · rw [hincoming, List.drop_drop, Nat.add_sub_cancel' (by omega)]

/-- On any kernel, a loop that asks for no more bytes than there is room for leaves a buffer of
the same size, or waits. -/
theorem readLoop_inBounds (recvs : List RecvEvent) (c : Connection) {d : Bytes} {start : ℕ}
    {remainingBytes : ℤ} (h : start + remainingBytes.toNat ≤ d.length) :
    readLoop c (some d) start remainingBytes recvs = .error .blocked ∨
      ∃ result d' c', readLoop c (some d) start remainingBytes recvs =
        .ok ((result, some d'), c') ∧ d'.length = d.length := by
  induction recvs generalizing c d start remainingBytes with
  | nil =>
    by_cases hrem : remainingBytes ≤ 0
    · exact .inr ⟨true, d, _, readLoop_done c _ start [] hrem, rfl⟩
    · exact .inl (by rw [readLoop, if_neg hrem])
  | cons e recvs ih =>
    by_cases hrem : remainingBytes ≤ 0
    · exact .inr ⟨true, d, _, readLoop_done c _ start _ hrem, rfl⟩
    cases e with
    | fail errno =>
      cases hblock : errno.wouldBlock with
      | true =>
        rw [readLoop_wouldBlock c _ start recvs (by omega) hblock]
        exact ih _ h
      | false => exact .inr ⟨false, d, _, readLoop_fail c _ start recvs (by omega) hblock, rfl⟩
    | closed =>
      rw [readLoop, if_neg hrem]
      exact ih _ h
    | deliver k =>
      by_cases hin : c.incoming = []
      · refine .inl ?_
        rw [readLoop, if_neg hrem]
        simp only [hin, if_true]
      · obtain ⟨count, hcount⟩ : ∃ count,
          transferCount k (min remainingBytes.toNat c.incoming.length) = count := ⟨_, rfl⟩
        have hpos := List.length_pos_iff.mpr hin
        have hle : count ≤ min remainingBytes.toNat c.incoming.length :=
          hcount ▸ transferCount_le (by omega)
        have hfits : start + (c.incoming.take count).length ≤ d.length := by
          rw [List.length_take]
          omega
        have hlen := length_overlay hfits
        obtain ⟨n, hn, hcounted⟩ : ∃ n, toInt32 count = n ∧ n ≤ count :=
          ⟨_, rfl, toInt32_le (Int.natCast_nonneg count)⟩
        rw [readLoop, if_neg hrem]
        dsimp only
        rw [if_neg hin, hcount, hn, storeDst, storeAt_eq_some hfits]
        dsimp only [Option.map_some]
        rw [← hlen]
        clear hn
        -- a count that an `int` holds wrongly moves `start` by less than what was stored
        split_ifs
        · exact ih _ (by omega)
        -- negative, with a real error in `errno`: the read ends there
        · exact .inr ⟨false, _, _, rfl, rfl⟩
        · exact ih _ (by omega)

namespace SocketSidebandData

theorem run_readFromSocket (h : SocketSidebandData) (dst : Option Bytes) (n : ℤ) :
    (readFromSocket dst n).run h =
      (readLoop h.connection dst 0 n h.connection.recvs).map fun r =>
        (r.1, h.withConnection r.2) := rfl

/-- A call that returns is the loop, with what it leaves of the connection. -/
theorem readFromSocket_eq_ok {h h' : SocketSidebandData} {dst : Option Bytes} {n : ℤ}
    {r : Bool × Option Bytes} (hrun : (readFromSocket dst n).run h = .ok (r, h')) :
    ∃ c, readLoop h.connection dst 0 n h.connection.recvs = .ok (r, c) ∧
      h' = h.withConnection c := by
  rw [run_readFromSocket] at hrun
  cases hloop : readLoop h.connection dst 0 n h.connection.recvs with
  | error e =>
    rw [hloop] at hrun
    cases hrun
  | ok res =>
    rw [hloop] at hrun
    cases hrun
    exact ⟨res.2, rfl, rfl⟩

theorem readFromSocket_inBounds (h : SocketSidebandData) {d : Bytes} {n : ℤ}
    (hn : n.toNat ≤ d.length) :
    (readFromSocket (some d) n).run h = .error .blocked ∨
      ∃ result d' h', (readFromSocket (some d) n).run h = .ok ((result, some d'), h') ∧
        d'.length = d.length := by
  rcases readLoop_inBounds h.connection.recvs h.connection
    (show 0 + n.toNat ≤ d.length by omega) with
    hblocked | ⟨result, d', c', hok, hlen⟩
  · rw [run_readFromSocket, hblocked]
    exact .inl rfl
  · rw [run_readFromSocket, hok]
    exact .inr ⟨result, d', _, rfl, hlen⟩

/-- A read changes nothing but the connection. -/
theorem readFromSocket_frame {h h' : SocketSidebandData} {dst : Option Bytes} {n : ℤ}
    {r : Bool × Option Bytes} (hrun : (readFromSocket dst n).run h = .ok (r, h')) :
    h' = h.withConnection h'.connection := by
  obtain ⟨c, -, rfl⟩ := readFromSocket_eq_ok hrun
  rfl

/-- On a kernel that does not fail, a read that returns has succeeded. -/
theorem readFromSocket_eq_of_ok {h h' : SocketSidebandData} {d : Bytes} {n : ℕ}
    {r : Bool × Option Bytes} (hsteady : ∀ e ∈ h.connection.recvs, e.fails = false)
    (hsize : n < 2 ^ 31) (hdst : n ≤ d.length)
    (hrun : (readFromSocket (some d) n).run h = .ok (r, h')) :
    n ≤ h.connection.incoming.length ∧
      r = (true, some (overlay 0 (h.connection.incoming.take n) d)) ∧
      h'.connection.incoming = h.connection.incoming.drop n ∧
      ∀ e ∈ h'.connection.recvs, e.fails = false := by
  obtain ⟨c, hloop, rfl⟩ := readFromSocket_eq_ok hrun
  exact readLoop_eq_of_ok hsteady hsize (by omega) hloop

/-- `Read` leaves what `ReadFromSocket` left, whether it succeeded or not. -/
theorem read_of_readFromSocket {h h' : SocketSidebandData} {dst buffer : Option Bytes} {n : ℤ}
    {result : Bool} (hrun : (readFromSocket dst n).run h = .ok ((result, buffer), h')) :
    ∃ r : ReadResult, (read dst n).run h = .ok (r, h') ∧ r.bytes = buffer := by
  rw [read, Exec.run_bind_ok hrun]
  cases result with
  | true => exact ⟨_, rfl, rfl⟩
  | false => exact ⟨_, rfl, rfl⟩

/-- On a kernel that does not fail, a prefix that was read is the one at the front of the stream. -/
theorem readLengthPrefix_eq_of_ok {h h' : SocketSidebandData} {p : ℤ}
    (hsteady : ∀ e ∈ h.connection.recvs, e.fails = false)
    (hrun : readLengthPrefix.run h = .ok (p, h')) :
    sizeofInt64 ≤ h.connection.incoming.length ∧
      p = int64OfLe (h.connection.incoming.take sizeofInt64) ∧
      h'.connection.incoming = h.connection.incoming.drop sizeofInt64 ∧
      ∀ e ∈ h'.connection.recvs, e.fails = false := by
  rw [readLengthPrefix, Exec.run_bind_eq_ok_iff] at hrun
  obtain ⟨⟨b, buffer⟩, h₁, hread, hlength⟩ := hrun
  have hzero : (le64 0).length = sizeofInt64 := length_le64_eq_sizeof 0
  obtain ⟨hle, hbuffer, hrest, hsteady'⟩ :=
    readFromSocket_eq_of_ok hsteady (by decide) hzero.ge hread
  cases hbuffer
  rw [Exec.run_pure] at hlength
  obtain ⟨rfl, rfl⟩ := Prod.mk.inj (Except.ok.inj hlength)
  refine ⟨hle, ?_, hrest, hsteady'⟩
  rw [Option.getD_some, overlay_full (by rw [List.length_take, hzero]; omega)]

/-- On a kernel that does not fail, bytes that were read are those at the front of the stream. -/
theorem read_eq_of_ok {h h' : SocketSidebandData} {d : Bytes} {n : ℕ} {r : ReadResult}
    (hsteady : ∀ e ∈ h.connection.recvs, e.fails = false) (hsize : n < 2 ^ 31)
    (hdst : n ≤ d.length) (hrun : (read (some d) n).run h = .ok (r, h')) :
    r.bytes = some (overlay 0 (h.connection.incoming.take n) d) ∧
      h'.connection.incoming = h.connection.incoming.drop n := by
  rw [read, Exec.run_bind_eq_ok_iff] at hrun
  obtain ⟨⟨b, buffer⟩, h₁, hread, hreturn⟩ := hrun
  obtain ⟨-, hbuffer, hrest, -⟩ := readFromSocket_eq_of_ok hsteady hsize hdst hread
  cases hbuffer
  cases hreturn
  exact ⟨rfl, hrest⟩

/-- A read of `n` bytes into a buffer of `n` bytes fills it with the next `n` bytes of the
stream. -/
theorem readFromSocket_ok (h : SocketSidebandData) {d : Bytes} {n m : ℕ}
    (hsize : n < 2 ^ 31) (hr : Delivering h.connection.recvs (n + m))
    (hin : n ≤ h.connection.incoming.length) (hdst : d.length = n) :
    ∃ recvs' errno', Delivering recvs' m ∧
      (readFromSocket (some d) n).run h =
        .ok ((true, some (h.connection.incoming.take n)), h.withConnection
          { h.connection with
            incoming := h.connection.incoming.drop n, recvs := recvs', errno := errno' }) := by
  obtain ⟨recvs', errno', hdel, hrun⟩ :=
    readLoop_ok (d := d) (i := 0) h.connection hsize hr hin (by omega)
  refine ⟨recvs', errno', hdel, ?_⟩
  rw [run_readFromSocket, hrun, overlay_full (by rw [List.length_take]; omega)]
  rfl

end SocketSidebandData

end Sideband
