import Sideband.Sockets.Loops

/-!
# Reading from a peer that closes

After the peer has closed the connection every `recv` returns `0`. `Returns` says that a call comes
to an end after finitely many of them. The receive loop does not look at the `0`, so it ends only
if the results before it end it: if the bytes asked for have arrived, or `recv` has failed
(`Completed`).

* `readLoop_completed` and `readLoop_starved`: the loop returns the right answer, or goes round for
  ever.
* `endsWithPeer_iff`: when `ReadFromSocket` and the calls that are made of it end.
-/

namespace Sideband

open Foundation

namespace RecvEvent

/-- The bytes of a `recv` result. -/
def count : RecvEvent → ℕ
  | .deliver k => k
  | _ => 0

end RecvEvent

/-- Results of `recv`: positive counts that are an `int`, of bytes that are there. A would-block
or another failure may come between any two of them. -/
structure Script (recvs : List RecvEvent) (available : ℕ) : Prop where
  positive : ∀ k, .deliver k ∈ recvs → 0 < k ∧ k < 2 ^ 31
  available : (recvs.map RecvEvent.count).sum ≤ available

/-- The bytes that arrive before `recv` fails. A would-block is no failure: the loop calls `recv`
again. -/
def arrives : List RecvEvent → ℕ
  | [] => 0
  | e :: recvs => if e.fails then 0 else e.count + arrives recvs

/-- The results end a read of `numBytes`: they bring the bytes, or a failure. A `0` is neither. -/
def Completed (recvs : List RecvEvent) (numBytes : ℤ) : Prop :=
  numBytes ≤ arrives recvs ∨ ∃ e ∈ recvs, e.fails = true

theorem Script.tail {e : RecvEvent} {recvs : List RecvEvent} {available rest : ℕ}
    (h : Script (e :: recvs) available) (hrest : available ≤ e.count + rest) :
    Script recvs rest := by
  refine ⟨fun k hk => h.positive k (List.mem_cons_of_mem _ hk), ?_⟩
  have hsum := h.available
  rw [List.map_cons, List.sum_cons] at hsum
  omega

/-- Past a result that is no failure, what is missing is less by its bytes. -/
theorem completed_cons {e : RecvEvent} {recvs : List RecvEvent} {n : ℤ} (h : e.fails = false) :
    Completed (e :: recvs) n ↔ Completed recvs (n - e.count) := by
  simp only [Completed, arrives, h, Bool.false_eq_true, if_false, List.mem_cons,
    exists_eq_or_imp, false_or, Nat.cast_add]
  exact or_congr_left (by omega)

/-! ### The loop -/

theorem readLoop_closed (c : Connection) (dst : Option Bytes) (start : ℕ) {remainingBytes : ℤ}
    (recvs : List RecvEvent) (h : 0 < remainingBytes) :
    readLoop c dst start remainingBytes (.closed :: recvs) =
      readLoop c dst start remainingBytes recvs := by
  rw [readLoop, if_neg (by omega)]

/-- The loop goes round and round on a closed connection. -/
theorem readLoop_replicate_closed (c : Connection) (dst : Option Bytes) (start : ℕ)
    {remainingBytes : ℤ} (n : ℕ) (h : 0 < remainingBytes) :
    readLoop c dst start remainingBytes (List.replicate n .closed) = .error .blocked := by
  induction n with
  | zero => rw [List.replicate_zero, readLoop, if_neg (by omega)]
  | succ n ih => rw [List.replicate_succ, readLoop_closed _ _ _ _ h, ih]

/-- One result that is no failure: the loop is where it was, or past `count` bytes. -/
theorem readLoop_cons {e : RecvEvent} {recvs : List RecvEvent} (rest : List RecvEvent)
    {c : Connection} {d : Bytes} {start : ℕ} {remainingBytes : ℤ} (h : 0 < remainingBytes)
    (hscript : Script (e :: recvs) c.incoming.length) (hdst : start + remainingBytes ≤ d.length)
    (hfails : e.fails = false) :
    ∃ (c' : Connection) (d' : Bytes) (count : ℕ), count = min e.count remainingBytes.toNat ∧
      d'.length = d.length ∧ c.incoming.length = count + c'.incoming.length ∧
      readLoop c (some d) start remainingBytes (e :: rest) =
        readLoop c' (some d') (start + count) (remainingBytes - count) rest := by
  cases e with
  | fail errno =>
    have hblock : errno.wouldBlock = true := by simpa [RecvEvent.fails] using hfails
    refine ⟨{ c with errno }, d, 0, by simp [RecvEvent.count], rfl, (Nat.zero_add _).symm, ?_⟩
    rw [readLoop_wouldBlock c _ _ _ h hblock, Nat.add_zero, Nat.cast_zero, sub_zero]
  -- a close is a piece of no bytes
  | closed =>
    refine ⟨c, d, 0, by simp [RecvEvent.count], rfl, (Nat.zero_add _).symm, ?_⟩
    rw [readLoop_closed _ _ _ _ h, Nat.add_zero, Nat.cast_zero, sub_zero]
  | deliver k =>
    obtain ⟨hpos, hint⟩ := hscript.positive k List.mem_cons_self
    have havailable : k ≤ c.incoming.length := by
      have hsum := hscript.available
      rw [List.map_cons, List.sum_cons] at hsum
      exact (Nat.le_add_right _ _).trans hsum
    have hcount : transferCount k (min remainingBytes.toNat c.incoming.length) =
        min k remainingBytes.toNat := by
      rw [transferCount]
      omega
    have hne : c.incoming ≠ [] := fun hnil => by
      rw [hnil, List.length_nil] at havailable
      omega
    have hfits : start + (c.incoming.take (min k remainingBytes.toNat)).length ≤ d.length := by
      rw [List.length_take]
      omega
    refine ⟨_, _, min k remainingBytes.toNat, rfl, length_overlay hfits, ?_,
      readLoop_piece c start rest h hne hcount (by omega) hdst⟩
    rw [List.length_drop]
    omega

/-- Results that complete the read end the loop, with the right answer. -/
theorem readLoop_completed {recvs : List RecvEvent} {c : Connection} {d : Bytes} {start : ℕ}
    {remainingBytes : ℤ} (hscript : Script recvs c.incoming.length)
    (hdst : start + remainingBytes ≤ d.length) (h : Completed recvs remainingBytes)
    (rest : List RecvEvent) :
    ∃ d' c', readLoop c (some d) start remainingBytes (recvs ++ rest) =
      .ok ((decide (remainingBytes ≤ arrives recvs), some d'), c') := by
  induction recvs generalizing c d start remainingBytes with
  | nil =>
    have hdone : remainingBytes ≤ 0 := by simpa [Completed, arrives] using h
    refine ⟨d, { c with recvs := rest }, ?_⟩
    rw [List.nil_append, readLoop_done _ _ _ _ hdone, decide_eq_true (by exact_mod_cast hdone)]
  | cons e recvs ih =>
    by_cases hdone : remainingBytes ≤ 0
    · refine ⟨d, { c with recvs := e :: recvs ++ rest }, ?_⟩
      rw [readLoop_done _ _ _ _ hdone, decide_eq_true (by omega)]
    -- more bytes are missing, and the first result is a failure, which ends the loop, or none
    · by_cases hfails : e.fails = true
      · cases e with
        | fail errno =>
          have hhard : errno.wouldBlock = false := by simpa [RecvEvent.fails] using hfails
          refine ⟨d, { c with recvs := recvs ++ rest, errno }, ?_⟩
          rw [List.cons_append, readLoop_fail _ _ _ _ (by omega) hhard, arrives, if_pos hfails,
            decide_eq_false (by omega)]
        | closed => cases hfails
        | deliver k => cases hfails
      · -- past the first result, the rest completes what is still missing
        have hfails := Bool.eq_false_iff.mpr hfails
        obtain ⟨c', d', count, hcount, hd, hincoming, hstep⟩ :=
          readLoop_cons (recvs ++ rest) (by omega) hscript hdst hfails
        have hrest : Completed recvs (remainingBytes - count) := by
          rcases (completed_cons hfails).mp h with hle | hfailure
          · exact .inl (by omega)
          · exact .inr hfailure
        have htail : Script recvs c'.incoming.length := hscript.tail (by omega)
        have hdst' : ((start + count : ℕ) : ℤ) + (remainingBytes - count) ≤ d'.length := by omega
        obtain ⟨d'', c'', hrun⟩ := ih htail hdst' hrest
        refine ⟨d'', c'', ?_⟩
        rw [List.cons_append, hstep, hrun]
        congr 3
        rw [decide_eq_decide, arrives, if_neg (by simp [hfails])]
        omega

/-- Results that do not complete the read leave the loop going round on the closed connection. -/
theorem readLoop_starved {recvs : List RecvEvent} {c : Connection} {d : Bytes} {start : ℕ}
    {remainingBytes : ℤ} (hscript : Script recvs c.incoming.length)
    (hdst : start + remainingBytes ≤ d.length) (h : ¬ Completed recvs remainingBytes) (n : ℕ) :
    readLoop c (some d) start remainingBytes (recvs ++ List.replicate n .closed) =
      .error .blocked := by
  induction recvs generalizing c d start remainingBytes with
  | nil =>
    have hmissing : 0 < remainingBytes := by simpa [Completed, arrives] using h
    rw [List.nil_append, readLoop_replicate_closed _ _ _ _ hmissing]
  | cons e recvs ih =>
    have hmissing : 0 < remainingBytes := by
      by_contra hdone
      exact h (.inl (by omega))
    have hfails : e.fails = false :=
      Bool.eq_false_iff.mpr fun hfails => h (.inr ⟨e, List.mem_cons_self, hfails⟩)
    obtain ⟨c', d', count, hcount, hd, hincoming, hstep⟩ :=
      readLoop_cons (recvs ++ List.replicate n .closed) hmissing hscript hdst hfails
    rw [completed_cons hfails] at h
    -- the first result does not end the read, so all its bytes are taken
    have hshort : count = e.count := by
      by_contra hne
      exact h (.inl (by omega))
    have htail : Script recvs c'.incoming.length := hscript.tail (by omega)
    have hdst' : ((start + count : ℕ) : ℤ) + (remainingBytes - count) ≤ d'.length := by omega
    rw [List.cons_append, hstep]
    refine ih htail hdst' ?_
    rwa [hshort]

/-! ### The calls -/

namespace SocketSidebandData

variable {α : Type}

/-- The `recv` results to come are `recvs`, and after them `n` that tell of the peer's close. A
connection that is closed gives them for ever, of which any finite number is a script. -/
def closing (h : SocketSidebandData) (recvs : List RecvEvent) (n : ℕ) : SocketSidebandData :=
  { h with connection := { h.connection with recvs := recvs ++ List.replicate n .closed } }

/-- The call comes to an end, after finitely many `recv`s: with some number of closed results it
returns, and does not go round any longer. -/
def Returns (h : SocketSidebandData) (recvs : List RecvEvent) (x : Exec SocketSidebandData α) :
    Prop :=
  ∃ n r h', x.run (h.closing recvs n) = .ok (r, h')

/-- `ReadFromSocket` comes to an end, with `true` exactly if the bytes have arrived. The end is
reached after finitely many of the results with `0` that follow the close. -/
def ReadEnds (h : SocketSidebandData) (recvs : List RecvEvent) (d : Bytes) (numBytes : ℤ) : Prop :=
  ∃ n result dst h',
    (readFromSocket (some d) numBytes).run (h.closing recvs n) = .ok ((result, dst), h') ∧
      (result = true ↔ numBytes ≤ arrives recvs)

variable {h : SocketSidebandData} {recvs : List RecvEvent} {d : Bytes} {numBytes : ℤ}

theorem readFromSocket_completed (hscript : Script recvs h.connection.incoming.length)
    (hd : numBytes ≤ d.length) (hdone : Completed recvs numBytes) (n : ℕ) :
    ∃ d' h', (readFromSocket (some d) numBytes).run (h.closing recvs n) =
      .ok ((decide (numBytes ≤ arrives recvs), some d'), h') := by
  have hdst : ((0 : ℕ) : ℤ) + numBytes ≤ d.length := by omega
  obtain ⟨d', c', hrun⟩ := readLoop_completed (c := (h.closing recvs n).connection) hscript hdst
    hdone (List.replicate n .closed)
  refine ⟨d', { h.closing recvs n with connection := c' }, ?_⟩
  have hrecvs : (h.closing recvs n).connection.recvs = recvs ++ List.replicate n .closed := rfl
  rw [run_readFromSocket, hrecvs, hrun]
  rfl

theorem readFromSocket_starved (hscript : Script recvs h.connection.incoming.length)
    (hd : numBytes ≤ d.length) (hstarved : ¬ Completed recvs numBytes) (n : ℕ) :
    (readFromSocket (some d) numBytes).run (h.closing recvs n) = .error .blocked := by
  have hdst : ((0 : ℕ) : ℤ) + numBytes ≤ d.length := by omega
  have hrecvs : (h.closing recvs n).connection.recvs = recvs ++ List.replicate n .closed := rfl
  rw [run_readFromSocket, hrecvs,
    readLoop_starved (c := (h.closing recvs n).connection) hscript hdst hstarved]
  rfl

/-- A call that starts with a read ends when the read does. -/
theorem returns_bind_iff {f : Bool × Option Bytes → Exec SocketSidebandData α}
    (hscript : Script recvs h.connection.incoming.length) (hd : numBytes ≤ d.length)
    (hf : ∀ r t, ∃ a t', (f r).run t = .ok (a, t')) :
    h.Returns recvs (readFromSocket (some d) numBytes >>= f) ↔ Completed recvs numBytes := by
  constructor
  · rintro ⟨n, r, h', hrun⟩
    by_contra hstarved
    rw [Exec.run_bind_error (readFromSocket_starved hscript hd hstarved n)] at hrun
    cases hrun
  · intro hdone
    obtain ⟨d', h', hrun⟩ := readFromSocket_completed hscript hd hdone 0
    obtain ⟨a, t', hthen⟩ := hf (decide (numBytes ≤ arrives recvs), some d') h'
    exact ⟨0, a, t', by rw [Exec.run_bind_ok hrun, hthen]⟩

theorem readEnds_iff (hscript : Script recvs h.connection.incoming.length)
    (hd : numBytes ≤ d.length) : h.ReadEnds recvs d numBytes ↔ Completed recvs numBytes := by
  constructor
  · rintro ⟨n, result, dst, h', hrun, -⟩
    by_contra hstarved
    rw [readFromSocket_starved hscript hd hstarved] at hrun
    cases hrun
  · intro hdone
    obtain ⟨d', h', hrun⟩ := readFromSocket_completed hscript hd hdone 0
    exact ⟨0, _, _, h', hrun, decide_eq_true_iff⟩

/-- `ReadFromSocket` ends with the right answer exactly when the results before the peer's close
bring the bytes or a failure, and so do its three callers. After the close every `recv` returns
`0`, which the loop takes for a reason to go on. -/
theorem endsWithPeer_iff (h : SocketSidebandData) {recvs : List RecvEvent}
    (hscript : Script recvs h.connection.incoming.length) :
    (∀ (d : Bytes) (numBytes : ℤ), numBytes ≤ d.length →
      (h.ReadEnds recvs d numBytes ↔ Completed recvs numBytes)) ∧
    (h.Returns recvs readConnectionId ↔ Completed recvs connectIdLength) ∧
    (h.Returns recvs readLengthPrefix ↔ Completed recvs sizeofInt64) ∧
    (∀ (d : Bytes) (bufferSize : ℤ), bufferSize ≤ d.length →
      (h.Returns recvs (read (some d) bufferSize) ↔ Completed recvs bufferSize)) := by
  refine ⟨fun d numBytes hd => readEnds_iff hscript hd, ?_, ?_, ?_⟩
  · refine returns_bind_iff hscript (by rw [List.length_replicate]) fun r t => ?_
    exact ⟨_, _, Exec.run_modify _ _⟩
  · refine returns_bind_iff hscript (by rw [length_le64]; rfl) fun r t => ?_
    exact ⟨_, _, Exec.run_pure _ _⟩
  · intro d bufferSize hd
    refine returns_bind_iff hscript hd fun r t => ?_
    obtain ⟨result, bytes⟩ := r
    cases result
    · exact ⟨_, _, Exec.run_pure _ _⟩
    · exact ⟨_, _, Exec.run_pure _ _⟩

/-- Two bytes on the way, one for each `recv`, with a would-block failure in between. -/
def twoBytes : SocketSidebandData :=
  { socket := 3, lowLatency := false, connection := { incoming := [1, 2] } }

def twoRecvs : List RecvEvent := [.deliver 1, .fail .EAGAIN, .deliver 1]

theorem script_twoRecvs : Script twoRecvs twoBytes.connection.incoming.length := by
  refine ⟨fun k hk => ?_, by decide⟩
  simp only [twoRecvs, List.mem_cons, RecvEvent.deliver.injEq, reduceCtorEq, List.not_mem_nil,
    or_false, false_or, or_self] at hk
  omega

/-- They end a read of two bytes, and not one of an id. -/
theorem endsWithPeer_twoBytes :
    twoBytes.ReadEnds twoRecvs [0, 0] 2 ∧ ¬ twoBytes.Returns twoRecvs readConnectionId := by
  have hends := endsWithPeer_iff twoBytes script_twoRecvs
  refine ⟨(hends.1 [0, 0] 2 (by decide)).mpr (.inl (by decide)), fun hreturns => ?_⟩
  rcases hends.2.1.mp hreturns with harrives | ⟨e, he, hfails⟩
  · exact absurd harrives (by decide)
  · simp only [twoRecvs, List.mem_cons, List.not_mem_nil, or_false] at he
    rcases he with rfl | rfl | rfl <;> cases hfails

/-- A connection that the peer closes before the first byte. -/
def closedAtOnce : SocketSidebandData := { socket := 3, lowLatency := false, connection := {} }

/-- Nothing that reads from it comes to an end. -/
theorem not_endsWithPeer_closed :
    Script [] closedAtOnce.connection.incoming.length ∧ ¬ closedAtOnce.ReadEnds [] [0] 1 ∧
      ¬ closedAtOnce.Returns [] readConnectionId := by
  have hscript : Script [] closedAtOnce.connection.incoming.length :=
    ⟨fun k hk => absurd hk List.not_mem_nil, Nat.zero_le _⟩
  have hstarved {numBytes : ℤ} (h : 0 < numBytes) : ¬ Completed [] numBytes := by
    simpa [Completed, arrives] using h
  refine ⟨hscript, ?_, ?_⟩
  · rw [readEnds_iff hscript (by decide)]
    exact hstarved Int.one_pos
  · rintro ⟨n, r, h', hrun⟩
    have hblocked := readFromSocket_starved (d := List.replicate connectIdLength 0) hscript
      (by rw [List.length_replicate]) (hstarved (by decide)) n
    rw [readConnectionId, Exec.run_bind_error hblocked] at hrun
    cases hrun

end SocketSidebandData

end Sideband
