import Sideband.Foundation.Progress
import Sideband.Sockets.Session

/-!
# Sessions that make progress

Every `send`, every `recv` that returns bytes and every arrival brings a byte closer to the party
that will read it. `SocketSession.rank` counts how far all bytes still have to go, so a session in
which no message is begun comes to rest: there are only so many steps until each party waits.
-/

namespace Sideband

open Foundation

/-- How much is left of a call: one that has begun to write can still end, and one that has ended
can be followed by a read. -/
def MessageCall.rank : MessageCall → ℕ
  | .idle => 1
  | .sendPrefix _ _ => 2
  | .sendPayload _ _ => 2
  | .recvPrefix _ _ => 0
  | .recvPayload _ _ => 0

/-- A byte to send has three steps to go, one on the way two, and one that has arrived one. Each
counts twice, to leave room for the steps of a call that move no byte. -/
def SocketParty.rank (p : SocketParty) : ℕ :=
  6 * p.unsent.length + 4 * p.connection.outgoing.length + 2 * p.connection.incoming.length +
    p.call.rank

/-- The steps that the bytes of both directions still have to go, at most, while no message is
begun. -/
def SocketSession.rank (s : SocketSession) : ℕ := (s.party .owner).rank + (s.party .client).rank

section Ranks

variable {size count : ℕ} {p p' : SocketParty} {payload rest : Bytes}

theorem length_drop_transferCount_lt (count : ℕ) {rest : Bytes} (h : rest ≠ []) (n : ℕ) :
    (rest.drop (transferCount count n)).length < rest.length := by
  have hpos := transferCount_pos count n
  have hlength := List.length_pos_iff.mpr h
  rw [List.length_drop]
  omega

theorem SocketParty.rank_sendRest_le (p : SocketParty) (payload rest : Bytes) :
    (p.sendRest payload rest).rank ≤ 6 * rest.length + 4 * p.connection.outgoing.length +
      2 * p.connection.incoming.length + 2 := by
  rw [SocketParty.sendRest]
  split_ifs
  · change 6 * 0 + 4 * p.connection.outgoing.length + 2 * p.connection.incoming.length + 1 ≤ _
    omega
  · exact le_rfl

/-- A `send` takes bytes to the stream. -/
theorem SocketParty.rank_send (hp : p.Wellformed size) (h : p.send count = some p') :
    p'.rank < p.rank := by
  have hat := hp.callAt
  have hround : ∀ rest : Bytes, rest ≠ [] →
      ((p.sendRound count rest).connection.outgoing.length +
        (rest.drop (transferCount count rest.length)).length =
          p.connection.outgoing.length + rest.length) := by
    intro rest _
    rw [← List.length_append, p.outgoing_sendRound, List.length_append]
  rw [SocketParty.send] at h
  cases hcall : p.call with
  | sendPrefix payload rest =>
    rw [hcall] at h hat
    have hless := length_drop_transferCount_lt count hat.1 rest.length
    have hsum := hround rest hat.1
    have hrank : p.rank = 6 * (rest.length + payload.length) +
        4 * p.connection.outgoing.length + 2 * p.connection.incoming.length + 2 := by
      rw [SocketParty.rank, SocketParty.unsent, hcall, List.length_append]
      rfl
    dsimp only at h
    split_ifs at h with hleft
    · obtain rfl := Option.some.inj h
      have hle := (p.sendRound count rest).rank_sendRest_le payload
        (slice 0 payload.length p.handle.serializeBuffer)
      rw [hat.2] at hle
      rw [hat.2, hrank]
      change _ ≤ 6 * payload.length + _ + 2 * p.connection.incoming.length + 2 at hle
      omega
    · obtain rfl := Option.some.inj h
      rw [hrank, SocketParty.rank, SocketParty.unsent]
      dsimp only
      rw [List.length_append]
      change 6 * (_ + _) + 4 * (p.sendRound count rest).connection.outgoing.length +
        2 * p.connection.incoming.length + 2 < _
      omega
  | sendPayload payload rest =>
    rw [hcall] at h hat
    obtain rfl := Option.some.inj h
    have hless := length_drop_transferCount_lt count hat rest.length
    have hsum := hround rest hat
    have hle := (p.sendRound count rest).rank_sendRest_le payload
      (rest.drop (transferCount count rest.length))
    change _ ≤ _ + _ + 2 * p.connection.incoming.length + 2 at hle
    rw [show p.rank = 6 * rest.length + 4 * p.connection.outgoing.length +
      2 * p.connection.incoming.length + 2 by rw [SocketParty.rank, SocketParty.unsent, hcall]; rfl]
    omega
  | _ => simp [hcall] at h

theorem SocketParty.rank_recvRest_le {bufferSize : ℤ} {start : ℕ}
    (h : p.recvRest bufferSize start = some p') :
    p'.rank ≤ 4 * p.connection.outgoing.length + 2 * p.connection.incoming.length + 1 := by
  rw [SocketParty.recvRest] at h
  split_ifs at h
  · obtain ⟨payload, -, rfl⟩ := Option.map_eq_some_iff.mp h
    change 6 * 0 + 4 * p.connection.outgoing.length + 2 * p.connection.incoming.length + 1 ≤ _
    omega
  · obtain rfl := Option.some.inj h
    change 6 * 0 + 4 * p.connection.outgoing.length + 2 * p.connection.incoming.length + 0 ≤ _
    omega

/-- A `recv` that returns bytes takes them from the stream. -/
theorem SocketParty.rank_recvSome (h : p.recvSome count = some p') : p'.rank < p.rank := by
  rw [SocketParty.recvSome] at h
  split_ifs at h with hin
  have hround : ∀ n, (p.recvRound count n).connection.incoming.length <
      p.connection.incoming.length := fun n => length_drop_transferCount_lt count hin _
  have hreceives : p.call.receives → p.rank =
      4 * p.connection.outgoing.length + 2 * p.connection.incoming.length := by
    intro hreceives
    have hcall : p.call.rank = 0 := by
      cases hcall : p.call <;> simp [hcall, MessageCall.receives] at hreceives ⊢ <;> rfl
    rw [SocketParty.rank, (SocketParty.of_receives hreceives).2, hcall, List.length_nil]
    omega
  cases hcall : p.call with
  | recvPrefix bufferSize start =>
    rw [hcall] at h hreceives
    obtain ⟨header, -, hrest⟩ := Option.bind_eq_some_iff.mp h
    have hless := hround (sizeofInt64 - start)
    rw [hreceives rfl]
    dsimp only at hrest
    split_ifs at hrest
    · have hle := SocketParty.rank_recvRest_le hrest
      change _ ≤ 4 * p.connection.outgoing.length +
        2 * (p.recvRound count (sizeofInt64 - start)).connection.incoming.length + 1 at hle
      omega
    · obtain rfl := Option.some.inj hrest
      change 6 * 0 + 4 * p.connection.outgoing.length +
        2 * (p.recvRound count (sizeofInt64 - start)).connection.incoming.length + 0 < _
      omega
  | recvPayload bufferSize start =>
    rw [hcall] at h hreceives
    obtain ⟨buffer, -, hrest⟩ := Option.bind_eq_some_iff.mp h
    have hless := hround (bufferSize.toNat - start)
    have hle := SocketParty.rank_recvRest_le hrest
    change _ ≤ 4 * p.connection.outgoing.length +
      2 * (p.recvRound count (bufferSize.toNat - start)).connection.incoming.length + 1 at hle
    rw [hreceives rfl]
    omega
  | _ => simp [hcall] at h

theorem SocketParty.rank_beginRead (h : p.beginRead = some p') : p'.rank < p.rank := by
  rw [SocketParty.beginRead] at h
  cases hcall : p.call with
  | idle =>
    rw [hcall] at h
    obtain rfl := Option.some.inj h
    rw [SocketParty.rank, SocketParty.rank, hcall, SocketParty.unsent, SocketParty.unsent, hcall]
    exact Nat.lt_succ_self _
  | _ => simp [hcall] at h

/-- A message that is begun has its frame to go. -/
theorem SocketParty.rank_beginWrite (h : p.beginWrite payload = some p') :
    p'.rank = p.rank + 6 * (8 + payload.length) + 1 := by
  rw [SocketParty.beginWrite] at h
  cases hcall : p.call with
  | idle =>
    rw [hcall] at h
    dsimp only at h
    split_ifs at h
    obtain ⟨buffer, -, rfl⟩ := Option.map_eq_some_iff.mp h
    rw [SocketParty.rank, SocketParty.rank, hcall, SocketParty.unsent, SocketParty.unsent, hcall]
    dsimp only
    rw [List.length_append, length_le64, List.length_nil]
    change _ + 4 * p.connection.outgoing.length + 2 * p.connection.incoming.length + 2 =
      _ + 4 * p.connection.outgoing.length + 2 * p.connection.incoming.length + 1 + _ + 1
    omega
  | _ => simp [hcall] at h

namespace SocketSession

variable {s s' : SocketSession} {side : Side}

theorem rank_eq (s : SocketSession) (side : Side) :
    s.rank = (s.party side).rank + (s.party side.peer).rank := by
  cases side
  · rfl
  · exact Nat.add_comm _ _

theorem rank_set (s : SocketSession) (side : Side) (p : SocketParty) :
    (s.set side p).rank = p.rank + (s.party side.peer).rank := by
  rw [rank_eq _ side, party_set_self, party_set_peer]

theorem rank_set_lt (h : p.rank < (s.party side).rank) : (s.set side p).rank < s.rank := by
  rw [rank_set, rank_eq s side]
  omega

/-- Bytes that arrive have one step less to go. -/
theorem rank_deliver (h : s.deliver side count = some s') : s'.rank < s.rank := by
  rw [deliver] at h
  dsimp only at h
  split_ifs at h with hout
  obtain rfl := Option.some.inj h
  rw [rank_eq _ side, party_set_peer_self, party_set_self, party_set_self, rank_eq s side]
  obtain ⟨n, hn⟩ : ∃ n, transferCount count (s.party side).connection.outgoing.length = n :=
    ⟨_, rfl⟩
  have hless := length_drop_transferCount_lt count hout (s.party side).connection.outgoing.length
  have hsum := congrArg List.length
    (List.take_append_drop n (s.party side).connection.outgoing)
  rw [List.length_append] at hsum
  rw [hn] at hless ⊢
  change 6 * _ + 4 * ((s.party side).connection.outgoing.drop n).length +
      2 * (s.party side).connection.incoming.length + (s.party side).call.rank +
    (6 * _ + 4 * (s.party side.peer).connection.outgoing.length +
      2 * ((s.party side.peer).connection.incoming ++
        (s.party side).connection.outgoing.take n).length + (s.party side.peer).call.rank) < _
  rw [List.length_append, SocketParty.rank, SocketParty.rank]
  change 6 * (s.party side).unsent.length + _ + _ + _ +
    (6 * (s.party side.peer).unsent.length + _ + _ + _) < _
  omega

end SocketSession

end Ranks

end Sideband
