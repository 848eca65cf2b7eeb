import Sideband.SharedMemory.Messages
import Sideband.SharedMemory.Switching

/-!
# Length-prefixed payloads over shared memory

One party calls `WriteLengthPrefixed`, the other reads what was written, by `ReadLengthPrefix` and
`ReadFromLengthPrefixed` or by a direct read. A reader takes the first eight bytes of the memory for
the length and what follows them for the payload, so an exchange is as good as the frame that the
write leaves.

`SharedMemorySidebandData` stores the frame. `DoubleBufferedSharedMemorySidebandData` makes two
plain writes of it, and both go to the start of the buffer: the payload is laid over its own prefix
(`overprinted`). What remains begins with the frame only if the payload and the bytes behind it
repeat the prefix over and over (`Repeats`, `take_overprinted`).

* `RoundTrips`: along a sequence of exchanges every reader obtains the payload and its length, and
  both parties end up on one buffer.
* `roundTrips_iff`: over the single buffer this is always so; over the double buffer it is so
  exactly when each payload, in turn, repeats its prefix into the buffer it goes to.
-/

namespace Sideband

open Foundation
open SidebandData (call)
open Parties (on)

/-! ### Exchanges -/

/-- How a payload is read: by `ReadLengthPrefix` and `ReadFromLengthPrefixed`, or by a direct
read. -/
inductive ReadRoute
  | copy
  | direct
  deriving DecidableEq, Repr

section Exchanges

variable {δ η : Type}

/-- Read a payload: its length and its bytes. The copying reader's buffer has the size that
`ReadLengthPrefix` returned; the direct reader reads the bytes between the begin and the finish. -/
def readPrefixed (vt : SidebandMethods δ) : ReadRoute → Exec δ (ℤ × Bytes)
  | .copy => do
    let length ← vt.readLengthPrefix
    let r ← vt.readFromLengthPrefixed (some (List.replicate length.toNat 0)) length
    return (length, r.bytes.getD [])
  | .direct => do
    let begun ← vt.beginDirectReadLengthPrefixed
    let bytes ← vt.load begun.1 (begun.2.getD 0).toNat
    let _ ← vt.finishDirectRead
    return (begun.2.getD 0, bytes)

/-- One party writes a payload and the other reads one, right after it, by one of the two routes. -/
def exchangePrefixed (vt : SidebandMethods (WithShm η)) (writer : Side) (payload : Bytes)
    (route : ReadRoute) : Exec (Parties η) (ℤ × Bytes) := do
  let _ ← on writer (call (vt.writeLengthPrefixed payload))
  on writer.peer (call (readPrefixed vt route))

/-- An exchange: who writes, what, and how the other reads it. -/
structure Exchange where
  writer : Side
  payload : Bytes
  route : ReadRoute

/-- Every reader obtains the payload just written and its length, and after each exchange both
parties work on the object of one name. The writers and the routes may change from one exchange
to the next. -/
def RoundTrips (vt : SidebandMethods (WithShm η)) (working : η → Bytes) :
    Parties η → List Exchange → Prop
  | _, [] => True
  | s, x :: xs => ∃ s',
    (exchangePrefixed vt x.writer x.payload x.route).run s =
        .ok ((x.payload.length, x.payload), s') ∧
      working (s'.world .owner).handle = working (s'.world .client).handle ∧
      RoundTrips vt working s' xs

/-- A condition on each payload and the buffer it is stored to, buffer after buffer in turn. A
payload meets what the earlier ones have left there. -/
def InTurn (store : Bytes → Bytes → Bytes) (ok : Bytes → Bytes → Prop) :
    List Bytes → List Bytes → Prop
  | _, [] => True
  | [], _ :: _ => False
  | mem :: mems, payload :: payloads =>
    ok payload mem ∧ InTurn store ok (mems ++ [store payload mem]) payloads

/-- The memory starts with the frame of the payload once it is stored, which is all that a reader
asks of it. -/
def LeavesFrame (store : Bytes → Bytes → Bytes) (payload mem : Bytes) : Prop :=
  (store payload mem).take (frame payload).length = frame payload

variable {vt : SidebandMethods (WithShm η)} {size : ℕ} {At : ℕ → η → Shm → Prop} {slot : ℕ → Bytes}
  {store : Bytes → Bytes → Bytes} {working : η → Bytes}

/-- The two handles of a stream walk the same buffers, and `store` is what a length-prefixed
write makes of a buffer. A read that finds a frame gets its payload, and one that gets a payload
has found its frame. -/
structure PrefixWalks (vt : SidebandMethods (WithShm η)) (size : ℕ) (At : ℕ → η → Shm → Prop)
    (slot : ℕ → Bytes) (store : Bytes → Bytes → Bytes) (working : η → Bytes) : Prop where
  update : ∀ {k h shm shm' name mem}, At k h shm → Shm.Update name mem shm shm' →
    mem.length = size → At k h shm'
  length_store : ∀ {payload mem}, payload.length + sizeofInt64 ≤ mem.length →
    (store payload mem).length = mem.length
  working : ∀ {k h shm}, At k h shm → working h = slot k
  write : ∀ {k w payload}, At k w.handle w.shm → w.shm.calls = [] →
    payload.length + sizeofInt64 ≤ size →
    ∃ w', (vt.writeLengthPrefixed payload).run w = .ok (true, w') ∧ At (k + 1) w'.handle w'.shm ∧
      Shm.Update (slot k) (store payload (w.shm.view (slot k) size)) w.shm w'.shm
  read : ∀ {k w payload} route, At k w.handle w.shm → w.shm.calls = [] →
    (w.shm.view (slot k) size).take (frame payload).length = frame payload →
    ∃ w', (readPrefixed vt route).run w = .ok (((payload.length : ℤ), payload), w') ∧
      At (k + 1) w'.handle w'.shm ∧ Shm.Update (slot k) (w.shm.view (slot k) size) w.shm w'.shm
  sound : ∀ {k w payload route w'}, At k w.handle w.shm → w.shm.calls = [] → sizeofInt64 ≤ size →
    (readPrefixed vt route).run w = .ok (((payload.length : ℤ), payload), w') →
    (w.shm.view (slot k) size).take (frame payload).length = frame payload

/-- An exchange comes through if the write leaves the frame. -/
theorem PrefixWalks.exchange_ok (h : PrefixWalks vt size At slot store working) {k : ℕ}
    {s : Parties η} (hs : Synced At k s) (x : Exchange)
    (hx : x.payload.length + sizeofInt64 ≤ size)
    (hframes : LeavesFrame store x.payload (s.shm.view (slot k) size)) :
    ∃ s', (exchangePrefixed vt x.writer x.payload x.route).run s =
        .ok ((x.payload.length, x.payload), s') ∧ Synced At (k + 1) s' ∧
      Shm.Update (slot k) (store x.payload (s.shm.view (slot k) size)) s.shm s'.shm := by
  have hlen : (store x.payload (s.shm.view (slot k) size)).length = size := by
    rw [h.length_store (by rw [Shm.length_view]; exact hx), Shm.length_view]
  obtain ⟨w₁, hwrite, hat₁, hu₁⟩ := h.write (w := s.world x.writer) (hs.party x.writer) hs.calls hx
  have hpeer := h.update (hs.party x.writer.peer) hu₁ hlen
  have hview : w₁.shm.view (slot k) size = store x.payload (s.shm.view (slot k) size) :=
    hu₁.view_same hlen
  rw [LeavesFrame, ← hview] at hframes
  obtain ⟨w₂, hread, hat₂, hu₂⟩ := h.read (w := ⟨(s.world x.writer.peer).handle, w₁.shm⟩) x.route
    hpeer hu₁.calls hframes
  rw [hview] at hu₂
  exact synced_exchanged At h.update hlen x.writer hwrite hat₁ hu₁ hread hat₂ hu₂

/-- An exchange that comes through has left the frame. -/
theorem PrefixWalks.frames_of_exchange (h : PrefixWalks vt size At slot store working) {k : ℕ}
    {s s' : Parties η} (hs : Synced At k s) (x : Exchange)
    (hx : x.payload.length + sizeofInt64 ≤ size)
    (hrun : (exchangePrefixed vt x.writer x.payload x.route).run s =
      .ok ((x.payload.length, x.payload), s')) :
    LeavesFrame store x.payload (s.shm.view (slot k) size) := by
  have hlen : (store x.payload (s.shm.view (slot k) size)).length = size := by
    rw [h.length_store (by rw [Shm.length_view]; exact hx), Shm.length_view]
  obtain ⟨w₁, hwrite, hat₁, hu₁⟩ := h.write (w := s.world x.writer) (hs.party x.writer) hs.calls hx
  have hpeer := h.update (hs.party x.writer.peer) hu₁ hlen
  rw [exchangePrefixed, Exec.run_bind_ok (Parties.run_on_call_ok hwrite)] at hrun
  cases hread : (readPrefixed vt x.route).run ((s.step x.writer w₁).world x.writer.peer) with
  | error e =>
    rw [Parties.run_on_call_error hread] at hrun
    cases hrun
  | ok r =>
    rw [Parties.run_on_call_ok hread] at hrun
    simp only [Except.ok.injEq, Prod.mk.injEq] at hrun
    rw [Parties.world_step_peer] at hread
    have hview : w₁.shm.view (slot k) size = store x.payload (s.shm.view (slot k) size) :=
      hu₁.view_same hlen
    rw [LeavesFrame, ← hview]
    have hread' : (readPrefixed vt x.route).run ⟨(s.world x.writer.peer).handle, w₁.shm⟩ =
        .ok (((x.payload.length : ℤ), x.payload), r.2) := by rw [hread, ← hrun.1]
    exact h.sound (w := ⟨(s.world x.writer.peer).handle, w₁.shm⟩) hpeer hu₁.calls (by omega) hread'

/-- **Exchanges over a walk.** They all come through exactly when each write, in turn, leaves its
frame in the buffer ahead. -/
theorem PrefixWalks.roundTrips_iff_frames (h : PrefixWalks vt size At slot store working) {n k : ℕ}
    (hn : 0 < n) (hperiod : ∀ k, slot (k + n) = slot k)
    (hslot : ∀ k i, 0 < i → i < n → slot (k + i) ≠ slot k) {s : Parties η} (hs : Synced At k s)
    {xs : List Exchange} (hxs : ∀ x ∈ xs, x.payload.length + sizeofInt64 ≤ size) :
    RoundTrips vt working s xs ↔
      InTurn store (LeavesFrame store) (ahead slot size n k s.shm) (xs.map Exchange.payload) := by
  induction xs generalizing k s with
  | nil => simp only [RoundTrips, List.map_nil, InTurn]
  | cons x xs ih =>
    have hx := hxs x List.mem_cons_self
    have htail := fun y hy => hxs y (List.mem_cons_of_mem _ hy)
    have hfront : ahead slot size n k s.shm =
        s.shm.view (slot k) size :: (ahead slot size n k s.shm).tail := by
      obtain ⟨p, rfl⟩ : ∃ p, n = p + 1 := ⟨n - 1, by omega⟩
      rw [ahead, List.range_succ_eq_map, List.map_cons, List.tail_cons, Nat.add_zero]
    have hlen : (store x.payload (s.shm.view (slot k) size)).length = size := by
      rw [h.length_store (by rw [Shm.length_view]; exact hx), Shm.length_view]
    rw [hfront, List.map_cons, InTurn, RoundTrips]
    constructor
    · rintro ⟨s', hrun, -, hrest⟩
      have hframes := h.frames_of_exchange hs x hx hrun
      obtain ⟨s₁, hrun₁, hs₁, hu⟩ := h.exchange_ok hs x hx hframes
      obtain rfl : s' = s₁ := by
        rw [hrun] at hrun₁
        simp only [Except.ok.injEq, Prod.mk.injEq, true_and] at hrun₁
        exact hrun₁
      rw [ih hs₁ htail, ahead_update hn hperiod hslot hu hlen] at hrest
      exact ⟨hframes, hrest⟩
    · rintro ⟨hframes, hrest⟩
      obtain ⟨s₁, hrun₁, hs₁, hu⟩ := h.exchange_ok hs x hx hframes
      refine ⟨s₁, hrun₁, ?_, ?_⟩
      · rw [h.working (hs₁.party .owner), h.working (hs₁.party .client)]
      · rwa [ih hs₁ htail, ahead_update hn hperiod hslot hu hlen]

end Exchanges

/-! ### One buffer -/

namespace SharedMemorySidebandData

variable {size n offset k : ℕ} {w w₁ : WithShm SharedMemorySidebandData} {payload mem bytes : Bytes}

/-- A store through the pointer of an access. -/
theorem Access.store (hacc : Access mem w w₁) (hm : Mapped size n w₁.handle w₁.shm)
    (hlen : mem.length = size) (h : offset + bytes.length ≤ size) :
    ∃ w₂, (store (.into (.segment n) offset) bytes).run w₁ = .ok (⟨⟩, w₂) ∧
      Mapped size n w₂.handle w₂.shm ∧ Access (overlay offset bytes mem) w w₂ := by
  obtain ⟨w₂, hrun, hm₂, hacc₂⟩ := store_ok hm hacc.update.calls h
  rw [hacc.name, hacc.view hlen] at hacc₂
  exact ⟨w₂, hrun, hm₂, hacc.trans hacc₂⟩

/-- A load through the pointer of an access. -/
theorem Access.load (hacc : Access mem w w₁) (hm : Mapped size n w₁.handle w₁.shm)
    (hlen : mem.length = size) (h : offset + k ≤ size) :
    (load (.into (.segment n) offset) k).run w₁ = .ok (slice offset k mem, w₁) := by
  rw [load_ok hm h, hacc.name, hacc.view hlen]

/-- `WriteLengthPrefixed` stores the frame at the start of the memory. -/
theorem writeLengthPrefixed_ok (ha : Attached size w.handle w.shm) (hcalls : w.shm.calls = [])
    (hp : payload.length + sizeofInt64 ≤ size) :
    ∃ w', (writeLengthPrefixed payload).run w = .ok (true, w') ∧
      Access (overlay 0 (frame payload) (w.shm.view w.handle.name size)) w w' := by
  obtain ⟨n, w₁, hget, hm, hacc⟩ := getBuffer_ok ha hcalls
  obtain ⟨mem, hmem⟩ : ∃ mem, w.shm.view w.handle.name size = mem := ⟨_, rfl⟩
  have hlen : mem.length = size := by rw [← hmem, Shm.length_view]
  have hheader : (le64 payload.length).length = sizeofInt64 := length_le64_eq_sizeof _
  rw [hmem] at hacc ⊢
  obtain ⟨w₂, hstore, hm₂, hacc₂⟩ := hacc.store hm hlen
    (show 0 + (le64 payload.length).length ≤ size by omega)
  have hlen₂ : (overlay 0 (le64 payload.length) mem).length = size := by
    rw [length_overlay (by omega), hlen]
  obtain ⟨w₃, hstore', -, hacc₃⟩ := hacc₂.store hm₂ hlen₂
    (show sizeofInt64 + payload.length ≤ size by omega)
  refine ⟨w₃, ?_, ?_⟩
  · rw [writeLengthPrefixed, Exec.run_bind_ok hget, if_pos (by simp), Exec.run_bind_ok hstore,
      Pointer.add, Nat.zero_add, Exec.run_bind_ok hstore', Exec.run_pure]
  · have hmerge : overlay (0 + (le64 payload.length).length) payload
        (overlay 0 (le64 payload.length) mem) = overlay 0 (frame payload) mem :=
      overlay_append (by omega)
    rw [Nat.zero_add, hheader] at hmerge
    rwa [hmerge] at hacc₃

/-- The first call of either route returns the length that the memory's first eight bytes spell. -/
theorem prefix_ok (ha : Attached size w.handle w.shm) (hcalls : w.shm.calls = [])
    (hsize : sizeofInt64 ≤ size) {length : ℤ}
    (hlength : int64OfLe ((w.shm.view w.handle.name size).take sizeofInt64) = length) :
    ∃ n w₁, methods.readLengthPrefix.run w = .ok (length, w₁) ∧
      methods.beginDirectReadLengthPrefixed.run w =
        .ok ((.into (.segment n) sizeofInt64, some length), w₁) ∧
      Mapped size n w₁.handle w₁.shm ∧ Access (w.shm.view w.handle.name size) w w₁ := by
  obtain ⟨n, w₁, hget, hm, hacc⟩ := getBuffer_ok ha hcalls
  have hheader : (load (.into (.segment n) 0) sizeofInt64).run w₁ =
      .ok ((w.shm.view w.handle.name size).take sizeofInt64, w₁) := by
    rw [hacc.load hm (Shm.length_view _ _ _) (by omega), slice, List.drop_zero]
  refine ⟨n, w₁, ?_, ?_, hm, hacc⟩
  · change readLengthPrefix.run w = _
    rw [readLengthPrefix, Exec.run_bind_ok hget, Exec.run_bind_ok hheader, hlength, Exec.run_pure]
  · change beginDirectReadLengthPrefixed.run w = _
    rw [beginDirectReadLengthPrefixed, Exec.run_bind_ok hget, if_pos (by simp),
      Exec.run_bind_ok hheader, hlength, Exec.run_pure, Pointer.add, Nat.zero_add]

/-- What follows the prefix, copied to a buffer of its size. -/
theorem readFromLengthPrefixed_mapped (hacc : Access mem w w₁)
    (hm : Mapped size n w₁.handle w₁.shm) (hlen : mem.length = size) (h : sizeofInt64 + k ≤ size) :
    (readFromLengthPrefixed (some (List.replicate k 0)) k).run w₁ =
      .ok (⟨true, some (slice sizeofInt64 k mem), none⟩, w₁) := by
  have hslice : (slice sizeofInt64 k mem).length = k := length_slice (by omega)
  have hcopy : (copyOut (some (List.replicate k 0)) (.into (.segment n) sizeofInt64) k).run w₁ =
      .ok (some (slice sizeofInt64 k mem), w₁) := by
    rw [copyOut, if_neg (by omega), Int.toNat_natCast, Exec.run_bind_ok (hacc.load hm hlen h),
      storeDst, storeAt_eq_some (by rw [List.length_replicate]; omega),
      overlay_full (by rw [List.length_replicate, hslice]), Option.map_some, Exec.run_checked_some]
  rw [readFromLengthPrefixed, Exec.run_bind_ok (getBuffer_mapped hm.buffer _)]
  dsimp only [Pointer.add]
  rw [Nat.zero_add, if_pos (by simp), Exec.run_bind_ok hcopy, Exec.run_pure]

/-- Either route reads the length that the memory's first eight bytes spell, and as many bytes
behind it. -/
theorem readPrefixed_ok (ha : Attached size w.handle w.shm) (hcalls : w.shm.calls = [])
    (route : ReadRoute) {k : ℕ}
    (hk : int64OfLe ((w.shm.view w.handle.name size).take sizeofInt64) = k)
    (hfits : sizeofInt64 + k ≤ size) :
    ∃ w', (readPrefixed methods route).run w =
        .ok ((k, slice sizeofInt64 k (w.shm.view w.handle.name size)), w') ∧
      Access (w.shm.view w.handle.name size) w w' := by
  obtain ⟨n, w₁, hlength, hbegin, hm, hacc⟩ := prefix_ok ha hcalls (by omega) hk
  have hlen := Shm.length_view w.shm w.handle.name size
  refine ⟨w₁, ?_, hacc⟩
  cases route with
  | copy =>
    have hread : (methods.readFromLengthPrefixed (some (List.replicate k 0)) k).run w₁ = _ :=
      readFromLengthPrefixed_mapped hacc hm hlen hfits
    rw [readPrefixed, Exec.run_bind_ok hlength, Int.toNat_natCast, Exec.run_bind_ok hread,
      Exec.run_pure, Option.getD_some]
  | direct =>
    have hload : (methods.load (.into (.segment n) sizeofInt64) k).run w₁ = _ :=
      hacc.load hm hlen hfits
    rw [readPrefixed, Exec.run_bind_ok hbegin, Option.getD_some, Int.toNat_natCast,
      Exec.run_bind_ok hload]
    rfl

/-- A prefix that leads out of the memory stops either route. -/
theorem readPrefixed_outOfBounds (ha : Attached size w.handle w.shm) (hcalls : w.shm.calls = [])
    (hsize : sizeofInt64 ≤ size) (route : ReadRoute) {k : ℕ}
    (hk : int64OfLe ((w.shm.view w.handle.name size).take sizeofInt64) = k)
    (hout : size < sizeofInt64 + k) : (readPrefixed methods route).run w = .error .outOfBounds := by
  obtain ⟨n, w₁, hlength, hbegin, hm, hacc⟩ := prefix_ok ha hcalls hsize hk
  have hload := load_outOfBounds hm (show k ≠ 0 by omega) hout
  cases route with
  | copy =>
    have hcopy : (copyOut (some (List.replicate k 0)) (.into (.segment n) sizeofInt64) k).run w₁ =
        .error .outOfBounds := by
      rw [copyOut, if_neg (by omega), Int.toNat_natCast, Exec.run_bind_error hload]
    have hread : (methods.readFromLengthPrefixed (some (List.replicate k 0)) k).run w₁ =
        .error .outOfBounds := by
      change (readFromLengthPrefixed _ _).run w₁ = _
      rw [readFromLengthPrefixed, Exec.run_bind_ok (getBuffer_mapped hm.buffer _)]
      dsimp only [Pointer.add]
      rw [Nat.zero_add, if_pos (by simp), Exec.run_bind_error hcopy]
    rw [readPrefixed, Exec.run_bind_ok hlength, Int.toNat_natCast, Exec.run_bind_error hread]
  | direct =>
    rw [readPrefixed, Exec.run_bind_ok hbegin, Option.getD_some, Int.toNat_natCast]
    exact Exec.run_bind_error hload

/-- Either route returns the length it finds. -/
theorem length_of_readPrefixed (ha : Attached size w.handle w.shm) (hcalls : w.shm.calls = [])
    (hsize : sizeofInt64 ≤ size) {route : ReadRoute} {length : ℤ} {w' : WithShm _}
    (h : (readPrefixed methods route).run w = .ok ((length, bytes), w')) :
    int64OfLe ((w.shm.view w.handle.name size).take sizeofInt64) = length := by
  obtain ⟨found, hfound⟩ : ∃ found,
    int64OfLe ((w.shm.view w.handle.name size).take sizeofInt64) = found := ⟨_, rfl⟩
  rw [hfound]
  obtain ⟨n, w₁, hlength, hbegin, -, -⟩ := prefix_ok ha hcalls hsize hfound
  cases route with
  | copy =>
    rw [readPrefixed, Exec.run_bind_ok hlength] at h
    obtain ⟨_, _, -, hpure⟩ := Exec.run_bind_eq_ok_iff.mp h
    cases hpure
    rfl
  | direct =>
    rw [readPrefixed, Exec.run_bind_ok hbegin, Option.getD_some] at h
    obtain ⟨_, _, -, h⟩ := Exec.run_bind_eq_ok_iff.mp h
    obtain ⟨_, _, -, hpure⟩ := Exec.run_bind_eq_ok_iff.mp h
    cases hpure
    rfl

/-- A reader that obtains a payload and its length has read the payload's frame. -/
theorem frame_of_readPrefixed (ha : Attached size w.handle w.shm) (hcalls : w.shm.calls = [])
    (hsize : sizeofInt64 ≤ size) {route : ReadRoute} {w' : WithShm SharedMemorySidebandData}
    (h : (readPrefixed methods route).run w = .ok (((payload.length : ℤ), payload), w')) :
    (w.shm.view w.handle.name size).take (frame payload).length = frame payload := by
  have hlength := length_of_readPrefixed ha hcalls hsize h
  obtain ⟨mem, hmem⟩ : ∃ mem, w.shm.view w.handle.name size = mem := ⟨_, rfl⟩
  have hlen : mem.length = size := by rw [← hmem, Shm.length_view]
  by_cases hfits : sizeofInt64 + payload.length ≤ size
  · obtain ⟨w₁, hrun, -⟩ := readPrefixed_ok ha hcalls route hlength hfits
    rw [h, hmem] at hrun
    simp only [Except.ok.injEq, Prod.mk.injEq, true_and] at hrun
    have hheader : (mem.take sizeofInt64).length = 8 := by
      rw [List.length_take, hlen]
      exact Nat.min_eq_left hsize
    rw [hmem] at hlength ⊢
    rw [length_frame, List.take_add, frame, ← hlength, le64_int64OfLe hheader]
    exact congrArg (mem.take sizeofInt64 ++ ·) hrun.1.symm
  · rw [readPrefixed_outOfBounds ha hcalls hsize route hlength (by omega)] at h
    cases h

/-- Memory that starts with a payload's frame is read as the payload, by either route. -/
theorem readPrefixed_frame (hsize : size < 2 ^ 63) (ha : Attached size w.handle w.shm)
    (hcalls : w.shm.calls = []) (route : ReadRoute)
    (hframe : (w.shm.view w.handle.name size).take (frame payload).length = frame payload) :
    ∃ w', (readPrefixed methods route).run w = .ok (((payload.length : ℤ), payload), w') ∧
      Access (w.shm.view w.handle.name size) w w' := by
  obtain ⟨hfits, hheader, hbytes⟩ := of_take_frame hframe
  rw [Shm.length_view] at hfits
  have hlength : int64OfLe ((w.shm.view w.handle.name size).take sizeofInt64) =
      (payload.length : ℤ) := by
    rw [hheader, int64OfLe_le64_natCast (by omega)]
  obtain ⟨w', hrun, hacc⟩ := readPrefixed_ok ha hcalls route hlength hfits
  rw [hbytes] at hrun
  exact ⟨w', hrun, hacc⟩

/-- The single buffer is the same in every exchange. -/
theorem prefixWalks (hsize : size < 2 ^ 63) (name : Bytes) :
    PrefixWalks methods size (fun _ h shm => h.Attached size shm ∧ h.name = name) (fun _ => name)
      (fun payload mem => overlay 0 (frame payload) mem) SharedMemorySidebandData.name where
  update hat hu hsize := ⟨hat.1.update hu hsize, hat.2⟩
  length_store {payload mem} h := length_overlay (by
    rw [length_frame]
    have : sizeofInt64 = 8 := rfl
    omega)
  working hat := hat.2
  write {k w payload} hat hcalls hp := by
    obtain ⟨w', hrun, hacc⟩ := writeLengthPrefixed_ok hat.1 hcalls hp
    have hlen : (overlay 0 (frame payload) (w.shm.view w.handle.name size)).length = size := by
      refine Shm.length_overlay_view _ _ ?_
      rw [length_frame]
      have : sizeofInt64 = 8 := rfl
      omega
    rw [hat.2] at hacc hlen
    exact ⟨w', hrun, ⟨hacc.attached hlen, hacc.name.trans hat.2⟩, hat.2 ▸ hacc.update⟩
  read {k w payload} route hat hcalls hframe := by
    obtain ⟨w', hrun, hacc⟩ := readPrefixed_frame hsize hat.1 hcalls route (hat.2.symm ▸ hframe)
    exact ⟨w', hrun, ⟨hacc.attached (Shm.length_view _ _ _), hacc.name.trans hat.2⟩,
      hat.2 ▸ hacc.update⟩
  sound hat hcalls hsize h := hat.2 ▸ frame_of_readPrefixed hat.1 hcalls hsize h

end SharedMemorySidebandData

/-! ### A payload over its prefix -/

/-- What the double buffer's `WriteLengthPrefixed` leaves: the payload over its own prefix, since
both of its writes go to the start of the buffer. -/
def overprinted (payload mem : Bytes) : Bytes :=
  overlay 0 payload (overlay 0 (le64 payload.length) mem)

theorem length_overprinted {payload mem : Bytes} (h : payload.length + sizeofInt64 ≤ mem.length) :
    (overprinted payload mem).length = mem.length := by
  have hheader : (le64 payload.length).length = sizeofInt64 := length_le64_eq_sizeof _
  have hfirst : (overlay 0 (le64 payload.length) mem).length = mem.length :=
    length_overlay (by omega)
  rw [overprinted, length_overlay (by omega), hfirst]

/-- The payload repeats the eight bytes of its length, and the older content behind it goes on with
them up to the length of the frame. -/
def Repeats (payload mem : Bytes) : Prop :=
  (∀ i < payload.length, payload[i]? = (le64 payload.length)[i % 8]?) ∧
    ∀ i < payload.length + 8, payload.length ≤ i → 8 ≤ i →
      mem[i]? = (le64 payload.length)[i % 8]?

theorem getElem?_overlay_zero (new mem : Bytes) (i : ℕ) :
    (overlay 0 new mem)[i]? = if i < new.length then new[i]? else mem[i]? := by
  rw [overlay, List.take_zero, List.nil_append, Nat.zero_add]
  split_ifs with hi
  · rw [List.getElem?_append_left hi]
  · rw [List.getElem?_append_right (by omega), List.getElem?_drop]
    congr 1
    omega

/-- The payload comes first, then what it leaves of its prefix, then the older content. -/
theorem getElem?_overprinted (payload mem : Bytes) (i : ℕ) : (overprinted payload mem)[i]? =
    if i < payload.length then payload[i]? else if i < 8 then (le64 payload.length)[i]? else
      mem[i]? := by
  rw [overprinted, getElem?_overlay_zero, getElem?_overlay_zero, length_le64]

theorem getElem?_frame (payload : Bytes) (i : ℕ) : (frame payload)[i]? =
    if i < 8 then (le64 payload.length)[i]? else payload[i - 8]? := by
  have hheader := length_le64 payload.length
  rw [frame]
  split_ifs with hi
  · rw [List.getElem?_append_left (by omega)]
  · rw [List.getElem?_append_right (by omega), hheader]

/-- The memory starts with a frame as soon as it agrees with it everywhere. -/
theorem take_overprinted_iff {payload mem : Bytes} (h : payload.length + sizeofInt64 ≤ mem.length) :
    LeavesFrame overprinted payload mem ↔ ∀ i < payload.length + 8,
      (overprinted payload mem)[i]? = (frame payload)[i]? := by
  have hlen := length_overprinted h
  rw [LeavesFrame, length_frame]
  constructor
  · intro htake i hi
    rw [← htake, List.getElem?_take, if_pos (by omega)]
  · intro hall
    refine List.ext_getElem? fun i => ?_
    rw [List.getElem?_take]
    split_ifs with hi
    · exact hall i (by omega)
    · rw [List.getElem?_eq_none (by rw [length_frame]; omega)]

/-- **A payload over its prefix.** What the write leaves starts with the frame exactly when payload
and older content repeat the prefix. -/
theorem take_overprinted {payload mem : Bytes} (h : payload.length + sizeofInt64 ≤ mem.length) :
    LeavesFrame overprinted payload mem ↔ Repeats payload mem := by
  rw [take_overprinted_iff h]
  constructor
  · intro hframe
    -- each byte of the frame is the one eight places before it, down to the prefix
    have hcycle : ∀ i < payload.length + 8,
        (overprinted payload mem)[i]? = (le64 payload.length)[i % 8]? := by
      intro i
      induction i using Nat.strong_induction_on with
      | _ i ih =>
        intro hi
        rw [hframe i hi, getElem?_frame]
        split_ifs with hlt
        · rw [Nat.mod_eq_of_lt hlt]
        · have hback := ih (i - 8) (by omega) (by omega)
          rw [getElem?_overprinted, if_pos (by omega)] at hback
          rw [hback]
          congr 1
          omega
    refine ⟨fun i hi => ?_, fun i hi hpayload hheader => ?_⟩
    · rw [← hcycle i (by omega), getElem?_overprinted, if_pos hi]
    · rw [← hcycle i hi, getElem?_overprinted, if_neg (by omega), if_neg (by omega)]
  · rintro ⟨hpayload, hmem⟩ i hi
    have hcycle : (overprinted payload mem)[i]? = (le64 payload.length)[i % 8]? := by
      rw [getElem?_overprinted]
      split_ifs with hin hlt
      · exact hpayload i hin
      · rw [Nat.mod_eq_of_lt hlt]
      · exact hmem i hi (by omega) (by omega)
    rw [hcycle, getElem?_frame]
    split_ifs with hlt
    · rw [Nat.mod_eq_of_lt hlt]
    · rw [hpayload (i - 8) (by omega)]
      congr 1
      omega

/-! ### Two buffers -/

namespace DoubleBufferedSharedMemorySidebandData

variable {size k : ℕ} {id payload : Bytes} {w : WithShm DoubleBufferedSharedMemorySidebandData}

/-- `WriteLengthPrefixed` lays the payload over its own prefix, then switches. -/
theorem writeLengthPrefixed_ok (hat : At size id k w.handle w.shm) (hcalls : w.shm.calls = [])
    (hp : payload.length + sizeofInt64 ≤ size) :
    ∃ w', (writeLengthPrefixed payload).run w = .ok (true, w') ∧
      At size id (k + 1) w'.handle w'.shm ∧ Shm.Update (slotName id (currentAt k))
        (overprinted payload (w.shm.view (slotName id (currentAt k)) size)) w.shm w'.shm := by
  have hheader : (le64 payload.length).length = sizeofInt64 := length_le64_eq_sizeof _
  obtain ⟨inner, hinner, hacc⟩ := SharedMemorySidebandData.write_ok
    (w := currentBuffer w) (hat.attached.buffer _) hcalls
    (show (le64 payload.length).length ≤ size by omega)
  rw [currentBuffer, hat.view_current] at hacc
  have hlen := Shm.length_overlay_view w.shm (slotName id (currentAt k))
    (show (le64 payload.length).length ≤ size by omega)
  obtain ⟨w₁, hrun, hacc₁, -, -⟩ := run_onCurrent_ok hat.attached hinner hacc hlen
  have hat₁ := hat.access hacc₁ hlen
  have hu₁ := hacc₁.update
  rw [hat.id, hat.current] at hu₁
  obtain ⟨inner', hinner', hacc'⟩ := SharedMemorySidebandData.write_ok
    (w := currentBuffer w₁) (hat₁.attached.buffer _) hu₁.calls
    (show payload.length ≤ size by omega)
  rw [currentBuffer, hat₁.view_current, hu₁.view_same hlen] at hacc'
  have hlen' :
      (overprinted payload (w.shm.view (slotName id (currentAt k)) size)).length = size := by
    rw [length_overprinted (by rw [Shm.length_view]; exact hp), Shm.length_view]
  obtain ⟨w₂, hrun', hacc₂, -, -⟩ := run_onCurrent_ok hat₁.attached hinner' hacc' hlen'
  have hu₂ := hacc₂.update
  rw [hat₁.id, hat₁.current] at hu₂
  refine ⟨switched w₂, ?_, (hat₁.access hacc₂ hlen').switched, hu₁.trans hu₂⟩
  rw [writeLengthPrefixed, Exec.run_bind_ok hrun, if_pos rfl, Exec.run_bind_ok hrun', if_pos rfl,
    Exec.run_bind_ok (run_switch w₂), Exec.run_pure]

/-- Either route reads from the current buffer, then switches. -/
theorem readPrefixed_eq (route : ReadRoute) : readPrefixed methods route =
    thenSwitch (readPrefixed SharedMemorySidebandData.methods route) := by
  cases route with
  | copy =>
    have hlength : methods.readLengthPrefix =
        onCurrent SharedMemorySidebandData.methods.readLengthPrefix := rfl
    have hread (bytes : Option Bytes) (n : ℤ) : methods.readFromLengthPrefixed bytes n =
        thenSwitch (SharedMemorySidebandData.methods.readFromLengthPrefixed bytes n) := rfl
    simp only [readPrefixed, hlength, hread, thenSwitch, onCurrent_bind, onCurrent_pure,
      bind_assoc, pure_bind]
  | direct =>
    have hbegin : methods.beginDirectReadLengthPrefixed =
        onCurrent SharedMemorySidebandData.methods.beginDirectReadLengthPrefixed := rfl
    have hload (p : Pointer) (n : ℕ) : methods.load p n =
        onCurrent (SharedMemorySidebandData.methods.load p n) := rfl
    have hinner : SharedMemorySidebandData.methods.finishDirectRead = pure true := rfl
    have houter : methods.finishDirectRead = (do switch; return true) := rfl
    simp only [readPrefixed, hbegin, hload, hinner, houter, thenSwitch, onCurrent_bind,
      onCurrent_pure, bind_assoc, pure_bind]

/-- The double buffer alternates between its two buffers. -/
theorem prefixWalks (hsize : size < 2 ^ 63) (id : Bytes) :
    PrefixWalks methods size (At size id) (fun k => slotName id (currentAt k)) overprinted
      (fun h => (h.buffer h.current).name) where
  update hat hu hsize := hat.update hu hsize
  length_store h := length_overprinted h
  working hat := by rw [hat.attached.name, hat.id, hat.current]
  write hat hcalls hp := writeLengthPrefixed_ok hat hcalls hp
  read {k w payload} route hat hcalls hframe := by
    rw [readPrefixed_eq]
    refine operation_ok hat (Shm.length_view _ _ _) ?_
    rw [← hat.view_current] at hframe ⊢
    exact SharedMemorySidebandData.readPrefixed_frame hsize (hat.attached.buffer _) hcalls route
      hframe
  sound {k w payload route w'} hat hcalls hsize h := by
    rw [readPrefixed_eq] at h
    obtain ⟨⟨inner, hinner⟩, -⟩ := of_run_thenSwitch h
    rw [← hat.view_current]
    exact SharedMemorySidebandData.frame_of_readPrefixed (hat.attached.buffer _) hcalls hsize hinner

end DoubleBufferedSharedMemorySidebandData

/-! ### Both strategies -/

section Strategies

variable {size : ℕ} {store : Bytes → Bytes → Bytes} {mems payloads : List Bytes}

theorem inTurn_trivial (hmems : mems ≠ []) : InTurn store (fun _ _ => True) mems payloads := by
  induction payloads generalizing mems with
  | nil => simp only [InTurn]
  | cons payload payloads ih =>
    cases mems with
    | nil => exact absurd rfl hmems
    | cons mem mems => exact ⟨trivial, ih (by simp)⟩

/-- Conditions that agree on buffers of one size agree in turn. -/
theorem inTurn_congr (size : ℕ) {ok : Bytes → Bytes → Prop} (ok' : Bytes → Bytes → Prop)
    (hok : ∀ payload ∈ payloads, ∀ mem, mem.length = size → (ok payload mem ↔ ok' payload mem))
    (hstore : ∀ payload ∈ payloads, ∀ mem, mem.length = size → (store payload mem).length = size)
    (hsize : ∀ mem ∈ mems, mem.length = size) :
    InTurn store ok mems payloads ↔ InTurn store ok' mems payloads := by
  induction payloads generalizing mems with
  | nil => simp only [InTurn]
  | cons payload payloads ih =>
    cases mems with
    | nil => simp only [InTurn]
    | cons mem mems =>
      have hmem := hsize mem List.mem_cons_self
      have hlater : ∀ m ∈ mems ++ [store payload mem], m.length = size := by
        intro m hm
        rcases List.mem_append.mp hm with hm | hm
        · exact hsize m (List.mem_cons_of_mem _ hm)
        · rw [List.mem_singleton.mp hm]
          exact hstore payload List.mem_cons_self mem hmem
      have hrest := ih (fun p hp => hok p (List.mem_cons_of_mem _ hp))
        (fun p hp => hstore p (List.mem_cons_of_mem _ hp)) hlater
      rw [InTurn, InTurn, hok payload List.mem_cons_self mem hmem, hrest]

theorem length_of_mem_ahead {slot : ℕ → Bytes} {n k : ℕ} {shm : Shm} {mem : Bytes}
    (h : mem ∈ ahead slot size n k shm) : mem.length = size := by
  obtain ⟨i, -, rfl⟩ := List.mem_map.mp h
  exact Shm.length_view _ _ _

variable {xs : List Exchange}

/-- The payloads of a sequence of exchanges fit. -/
theorem payload_fits (hxs : ∀ x ∈ xs, x.payload.length + sizeofInt64 ≤ size) {payload : Bytes}
    (h : payload ∈ xs.map Exchange.payload) : payload.length + sizeofInt64 ≤ size := by
  obtain ⟨x, hx, rfl⟩ := List.mem_map.mp h
  exact hxs x hx

theorem roundTrips_single (hsize : size < 2 ^ 63)
    (hxs : ∀ x ∈ xs, x.payload.length + sizeofInt64 ≤ size) {name : Bytes} {k : ℕ}
    {s : Parties SharedMemorySidebandData}
    (hs : Synced (fun _ h shm => h.Attached size shm ∧ h.name = name) k s) :
    RoundTrips SharedMemorySidebandData.methods SharedMemorySidebandData.name s xs := by
  have hwalk := SharedMemorySidebandData.prefixWalks hsize name
  rw [hwalk.roundTrips_iff_frames (n := 1) Nat.one_pos (fun _ => rfl)
    (fun _ i h₁ h₂ => by omega) hs hxs]
  refine (inTurn_congr size (fun _ _ => True) ?_ ?_ ?_).mpr
    (inTurn_trivial (by simp [ahead]))
  · intro payload _ mem _
    simp [LeavesFrame, overlay]
  · intro payload hp mem hmem
    exact (hwalk.length_store (hmem ▸ payload_fits hxs hp)).trans hmem
  · exact fun mem hmem => length_of_mem_ahead hmem

theorem roundTrips_double (hsize : size < 2 ^ 63)
    (hxs : ∀ x ∈ xs, x.payload.length + sizeofInt64 ≤ size) {id : Bytes} {k : ℕ}
    {s : Parties DoubleBufferedSharedMemorySidebandData}
    (hs : Synced (DoubleBufferedSharedMemorySidebandData.At size id) k s) :
    RoundTrips DoubleBufferedSharedMemorySidebandData.methods
        (fun h => (h.buffer h.current).name) s xs ↔
      InTurn overprinted Repeats
        [s.shm.view (DoubleBufferedSharedMemorySidebandData.slotName id
            (DoubleBufferedSharedMemorySidebandData.currentAt k)) size,
          s.shm.view (DoubleBufferedSharedMemorySidebandData.slotName id
            (DoubleBufferedSharedMemorySidebandData.currentAt (k + 1))) size]
        (xs.map Exchange.payload) := by
  have hwalk := DoubleBufferedSharedMemorySidebandData.prefixWalks hsize id
  rw [hwalk.roundTrips_iff_frames (n := 2) Nat.two_pos
    (DoubleBufferedSharedMemorySidebandData.slot_period id)
    (DoubleBufferedSharedMemorySidebandData.slot_ne id) hs hxs]
  refine inTurn_congr size Repeats ?_ ?_ fun mem hmem => length_of_mem_ahead hmem
  · intro payload hp mem hmem
    exact take_overprinted (hmem ▸ payload_fits hxs hp)
  · intro payload hp mem hmem
    exact (hwalk.length_store (hmem ▸ payload_fits hxs hp)).trans hmem

/-- **Length-prefixed payloads over shared memory.** Over the single buffer every sequence of
exchanges comes through. Over the double buffer one does exactly when each payload repeats its
prefix into the buffer it goes to. -/
theorem roundTrips_iff (hsize : size < 2 ^ 63)
    (hxs : ∀ x ∈ xs, x.payload.length + sizeofInt64 ≤ size) :
    (∀ (name : Bytes) (k : ℕ) (s : Parties SharedMemorySidebandData),
      Synced (fun _ h shm => h.Attached size shm ∧ h.name = name) k s →
      RoundTrips SharedMemorySidebandData.methods SharedMemorySidebandData.name s xs) ∧
    ∀ (id : Bytes) (k : ℕ) (s : Parties DoubleBufferedSharedMemorySidebandData),
      Synced (DoubleBufferedSharedMemorySidebandData.At size id) k s →
      (RoundTrips DoubleBufferedSharedMemorySidebandData.methods
          (fun h => (h.buffer h.current).name) s xs ↔
        InTurn overprinted Repeats
          [s.shm.view (DoubleBufferedSharedMemorySidebandData.slotName id
              (DoubleBufferedSharedMemorySidebandData.currentAt k)) size,
            s.shm.view (DoubleBufferedSharedMemorySidebandData.slotName id
              (DoubleBufferedSharedMemorySidebandData.currentAt (k + 1))) size]
          (xs.map Exchange.payload)) :=
  ⟨fun _ _ _ hs => roundTrips_single hsize hxs hs, fun _ _ _ hs => roundTrips_double hsize hxs hs⟩

end Strategies

/-- Payloads of several lengths come through the single buffer, and the payload `1` through double
buffers that go on with its prefix. -/
theorem roundTrips_iff_spelledSegments :
    RoundTrips SharedMemorySidebandData.methods SharedMemorySidebandData.name
      (.opened (.new [] 16) 16 spelledSegments)
      [⟨.owner, [7], .copy⟩, ⟨.client, [8, 9], .direct⟩, ⟨.owner, [], .copy⟩] ∧
    RoundTrips DoubleBufferedSharedMemorySidebandData.methods
      (fun h => (h.buffer h.current).name) (.opened (.new [] 16) 16 spelledSegments)
      [⟨.owner, [1], .copy⟩, ⟨.client, [1], .direct⟩, ⟨.owner, [1], .direct⟩] := by
  have hsize : 16 < 2 ^ 63 := by decide
  refine ⟨(roundTrips_iff hsize (by decide)).1 (SharedMemorySidebandData.new [] 16).name 0 _
      ⟨rfl, fun side => ?_⟩,
    ((roundTrips_iff hsize (by decide)).2 [] 0 _ ⟨rfl, fun side => ?_⟩).mpr ?_⟩
  · cases side <;> exact ⟨SharedMemorySidebandData.attached_new [] 16 _, rfl⟩
  · cases side <;> exact DoubleBufferedSharedMemorySidebandData.at_new [] 16 _
  · refine ⟨⟨?_, ?_⟩, ⟨?_, ?_⟩, ⟨?_, ?_⟩, trivial⟩ <;> decide +kernel

/-- Two parties with new double buffers of sixteen bytes. -/
def newDoubleBuffers : Parties DoubleBufferedSharedMemorySidebandData :=
  .opened (.new [] 16) 16 (.scripted [])

theorem synced_newDoubleBuffers :
    Synced (DoubleBufferedSharedMemorySidebandData.At 16 []) 0 newDoubleBuffers := by
  refine ⟨rfl, fun side => ?_⟩
  cases side <;> exact DoubleBufferedSharedMemorySidebandData.at_new [] 16 (.scripted [])

/-- The payload `7` does not come through fresh double buffers. -/
theorem not_roundTrips_oneByte : ¬ RoundTrips DoubleBufferedSharedMemorySidebandData.methods
    (fun h => (h.buffer h.current).name) newDoubleBuffers [⟨.owner, [7], .copy⟩] := by
  rw [roundTrips_double (by decide) (by decide) synced_newDoubleBuffers]
  rintro ⟨⟨hpayload, -⟩, -⟩
  have hfirst := hpayload 0 (by decide)
  revert hfirst
  decide

end Sideband
