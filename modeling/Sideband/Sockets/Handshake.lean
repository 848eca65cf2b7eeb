import Sideband.Sockets.RoundTrip

/-!
# Ids that fit the handshake

A client sends its connection id and a server reads `ConnectIdLength()` bytes for it, the length of
the first id of the process. `idAfter n` is the id of the call of `NextConnectionId` that `n` calls
come before, the one for `_zeroId` included; `_nextId` is atomic, so calls of several threads come
one after the other.

* `idAfter_ne`: within `2 ^ 32` calls, no id is returned twice.
* `length_connectionId_eq_iff`: `%10d` has ten columns as long as the sign leaves room for the
  digits, and eleven from `-1000000000` down.
* `length_of_sessionRoundTrips`: an id of another length does not make it through the handshake.
* `fitsHandshake_iff`: so the ids fit except for those calls of each `2 ^ 32` whose counter has
  passed the sign change and not come back above `-1000000000`.
-/

namespace Sideband

open Foundation

/-! ### The counter -/

/-- `_nextId` after `n` calls, from `0` on and round at the sign change, since it is an
`atomic_int`. The first of the calls is the one for `_zeroId`. -/
def nextIdAfter : ℕ → ℤ
  | 0 => 0
  | n + 1 => (nextConnectionId (nextIdAfter n)).2

/-- What `NextConnectionId` returns after `n` calls. -/
def idAfter (n : ℕ) : Bytes := (nextConnectionId (nextIdAfter n)).1

theorem idAfter_zero : idAfter 0 = zeroId := rfl

theorem nextIdAfter_eq (n : ℕ) : nextIdAfter n = toInt32 n := by
  induction n with
  | zero => rfl
  | succ n ih =>
    rw [nextIdAfter, nextConnectionId, ih]
    dsimp only
    unfold toInt32
    rw [Int.bmod_add_bmod]
    push_cast
    rfl

theorem idAfter_eq (n : ℕ) : idAfter n = connectionId (toInt32 (n + 1 : ℕ)) := by
  rw [← nextIdAfter_eq]
  rfl

/-- Ids differ as long as the counter has not come round. -/
theorem idAfter_ne {m n : ℕ} (hmn : m < n) (hn : n < 2 ^ 32) : idAfter m ≠ idAfter n := by
  intro hsame
  rw [idAfter_eq, idAfter_eq] at hsame
  have hcounter := connectionId_injective hsame
  rw [toInt32_eq, toInt32_eq] at hcounter
  split_ifs at hcounter <;> omega

/-! ### The columns -/

theorem length_decimal_negSucc_le_iff (n : ℕ) :
    (decimal (.negSucc n)).length ≤ 10 ↔ n + 1 < 10 ^ 9 := by
  rw [decimal, List.length_cons, Nat.add_le_add_iff_right (k := 9) (n := 1),
    Nat.length_toDigits_le_iff (by norm_num) (by norm_num)]

/-- An id has the length of the first one unless its number takes eleven columns. -/
theorem length_connectionId_eq_iff {id : ℤ} (hlt : id < 2 ^ 31) :
    (connectionId id).length = connectIdLength ↔ -10 ^ 9 < id := by
  cases id with
  | ofNat n =>
    have hnonneg : 0 ≤ Int.ofNat n := Int.natCast_nonneg n
    exact iff_of_true (length_connectionId hnonneg hlt) (by omega)
  | negSucc n =>
    have hlength : (connectionId (.negSucc n)).length =
        3 + (10 - (decimal (.negSucc n)).length + (decimal (.negSucc n)).length) := by
      rw [connectionId, ascii, List.length_map, List.length_append, decimal10, List.length_append,
        List.length_replicate]
      rfl
    have hcolumns := length_decimal_negSucc_le_iff n
    rw [hlength, connectIdLength_eq]
    omega

/-! ### The handshake -/

/-- `ReadConnectionId` keeps as many bytes as it asks for. -/
theorem SocketSidebandData.length_id_of_readConnectionId {h h' : SocketSidebandData}
    (hrun : readConnectionId.run h = .ok (⟨⟩, h')) : h'.id.length = connectIdLength := by
  obtain ⟨⟨result, buffer⟩, h₁, hread, hmodify⟩ := Exec.run_bind_eq_ok_iff.mp hrun
  cases hmodify
  rcases readFromSocket_inBounds h (d := List.replicate connectIdLength 0)
    (n := connectIdLength) (by simp) with hblocked | ⟨result', d', h₂, hok, hlength⟩
  · cases hread.symm.trans hblocked
  · cases hread.symm.trans hok
    exact hlength.trans List.length_replicate

/-- An id that reaches the server has the length that is read. -/
theorem SocketSidebandData.length_of_sessionRoundTrips {id : Bytes}
    (hsession : SessionRoundTrips id []) : id.length = connectIdLength := by
  have haccepting : Accepting (List.replicate id.length (.accept 1)) (sessionStream id []).length :=
    ⟨fun e he => ⟨1, List.eq_of_mem_replicate he⟩, by simp [sessionStream]⟩
  have hdelivering :
      Delivering (List.replicate id.length (.deliver 1)) (sessionStream id []).length :=
    ⟨fun e he => .inl ⟨1, List.eq_of_mem_replicate he⟩, by
      simp [sessionStream, List.countP_replicate, RecvEvent.delivers]⟩
  obtain ⟨client', server', -, hserver, hid, -⟩ := hsession
    ⟨[], 0, false, { sends := List.replicate id.length (.accept 1) }⟩
    ⟨[], 0, false, { recvs := List.replicate id.length (.deliver 1) }⟩ rfl haccepting hdelivering
  obtain ⟨_, h₁, hconnect, hpairs⟩ := Exec.run_bind_eq_ok_iff.mp hserver
  cases hpairs
  rw [← hid]
  exact length_id_of_readConnectionId hconnect

/-- The id of a call fits the handshake and is a new one: it has the length that is read, a
session with it round-trips, and no earlier call of the last `2 ^ 32` has returned it. -/
structure FitsHandshake (n : ℕ) : Prop where
  length : (idAfter n).length = connectIdLength
  /-- `ReadConnectionId` reads what `ConnectToSocket` sent, and what is sent next comes next. -/
  handshake : ∀ payloads : List Bytes, (∀ p ∈ payloads, p.length < 2 ^ 31) →
    SocketSidebandData.SessionRoundTrips (idAfter n) payloads
  fresh : n < 2 ^ 32 → ∀ m < n, idAfter m ≠ idAfter n

/-- **Connection ids.** The id of every call fits the handshake and is new exactly when the
counter of the call is not negative, or above `-1000000000`. The counter starts at zero and wraps
around, as an `atomic_int` does; the others of its ids have fourteen characters. -/
theorem fitsHandshake_iff (n : ℕ) : FitsHandshake n ↔
    (n + 1) % 2 ^ 32 < 2 ^ 31 ∨ 2 ^ 32 - 10 ^ 9 < (n + 1) % 2 ^ 32 := by
  have hlength : (idAfter n).length = connectIdLength ↔
      (n + 1) % 2 ^ 32 < 2 ^ 31 ∨ 2 ^ 32 - 10 ^ 9 < (n + 1) % 2 ^ 32 := by
    rw [idAfter_eq, length_connectionId_eq_iff (toInt32_lt _), toInt32_eq]
    split_ifs <;> omega
  rw [← hlength]
  constructor
  · intro hfits
    exact hfits.length
  · intro hid
    exact ⟨hid, fun payloads hshort => SocketSidebandData.sessionRoundTrips_of_short hid hshort,
      fun hn m hmn => idAfter_ne hmn hn⟩

/-- The call that draws `-2 ^ 31`. -/
theorem not_fitsHandshake_sign_change : ¬ ∀ n, FitsHandshake n := by
  intro hall
  have hlength := (hall (2 ^ 31 - 1)).length
  rw [idAfter_eq, length_connectionId_eq_iff (toInt32_lt _)] at hlength
  revert hlength
  decide

end Sideband
