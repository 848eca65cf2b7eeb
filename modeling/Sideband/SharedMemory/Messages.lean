import Sideband.SharedMemory.Attached

/-!
# Messages over shared memory

One party of a stream writes a message, the other reads one, in strict alternation.
`WriteSidebandMessage` stores the message at the start of the memory and no length prefix;
`ReadSidebandMessage` takes the first eight bytes for the length of what follows them. What a
reader gets is therefore what the memory happens to spell (`spelled`) once the message has
been laid over its older content.

* `exchange_single`, `exchange_double`: one exchange over either strategy.
* `messagesRoundTrip_iff`: a sequence of messages round-trips exactly when, in each exchange,
  the message laid over the older content of its buffer spells that message again
  (`SpelledInTurn`).
-/

namespace Sideband

open Foundation

/-! ### The parties of a stream -/

/-- The two parties of a stream: the one whose process created it, and the one that connected to
it. -/
inductive Side
  | owner
  | client
  deriving DecidableEq, Repr

def Side.peer : Side → Side
  | .owner => .client
  | .client => .owner

theorem Side.eq_or_eq_peer (a b : Side) : b = a ∨ b = a.peer := by
  cases a <;> cases b <;> simp [Side.peer]

/-- The handles of the two parties and the kernel they share. Each handle has its own serialize
buffer and its own mapping. -/
structure Parties (η : Type) where
  owner : SidebandData η
  client : SidebandData η
  shm : Shm

namespace Parties

variable {η α : Type}

def party (s : Parties η) : Side → SidebandData η
  | .owner => s.owner
  | .client => s.client

/-- What a party's calls run on. -/
def world (s : Parties η) (side : Side) : WithShm η := ⟨(s.party side).derived, s.shm⟩

/-- The stream after calls of a party. -/
def put (side : Side) (o : SidebandData (WithShm η)) (s : Parties η) : Parties η :=
  match side with
  | .owner => { s with owner := { o with derived := o.derived.handle }, shm := o.derived.shm }
  | .client => { s with client := { o with derived := o.derived.handle }, shm := o.derived.shm }

/-- Run a call of one party. The other party's handle stays as it is; the kernel is common to
both. -/
def on (side : Side) (x : Exec (SidebandData (WithShm η)) α) : Exec (Parties η) α :=
  Exec.zoom (fun s => { s.party side with derived := s.world side }) (put side) x

/-- A party's handle changes, and the kernel with it. -/
def step (side : Side) (w : WithShm η) (s : Parties η) : Parties η :=
  put side { s.party side with derived := w } s

@[simp]
theorem world_step_same (side : Side) (w : WithShm η) (s : Parties η) :
    (s.step side w).world side = w := by
  cases side <;> rfl

@[simp]
theorem world_step_peer (side : Side) (w : WithShm η) (s : Parties η) :
    (s.step side w).world side.peer = ⟨(s.world side.peer).handle, w.shm⟩ := by
  cases side <;> rfl

@[simp]
theorem shm_step (side : Side) (w : WithShm η) (s : Parties η) : (s.step side w).shm = w.shm := by
  cases side <;> rfl

/-- A step of a party that leaves its world is none. -/
theorem step_world (side : Side) (s : Parties η) : s.step side (s.world side) = s := by
  cases side <;> rfl

@[simp]
theorem peer_peer (side : Side) : side.peer.peer = side := by cases side <;> rfl

theorem run_on_call_ok {side : Side} {x : Exec (WithShm η) α} {s : Parties η} {a : α}
    {w : WithShm η} (h : x.run (s.world side) = .ok (a, w)) :
    (on side (SidebandData.call x)).run s = .ok (a, s.step side w) :=
  Exec.run_zoom_ok (SidebandData.run_call_ok h)

theorem run_on_call_error {side : Side} {x : Exec (WithShm η) α} {s : Parties η} {e : Stop}
    (h : x.run (s.world side) = .error e) :
    (on side (SidebandData.call x)).run s = .error e :=
  Exec.run_zoom_error (SidebandData.run_call_error h)

end Parties

open Parties (on)

/-! ### Exchanges -/

section Exchanges

variable {η M : Type} (codec : MessageLite M) (vt : SidebandMethods (WithShm η))

/-- One party writes a message and the other reads one, right after it. The results of neither
call are looked at, but the message that was read. -/
def exchange (writer : Side) (m : M) : Exec (Parties η) (Option M) := do
  let _ ← on writer (writeSidebandMessage codec vt m)
  on writer.peer (readSidebandMessage codec vt)

/-- Exchanges one after the other: what each read returned. -/
def exchanges : List (Side × M) → Exec (Parties η) (List (Option M))
  | [] => return []
  | (writer, m) :: msgs => do
    let read ← exchange codec vt writer m
    let reads ← exchanges msgs
    return read :: reads

/-- Every read returns the message just written, and no call stops. -/
def MessagesRoundTrip (s : Parties η) (msgs : List (Side × M)) : Prop :=
  ∃ s', (exchanges codec vt msgs).run s = .ok (msgs.map fun msg => some msg.2, s')

/-- What memory spells when its first eight bytes are taken for the length of a message that
follows them: the parsed message, `none` when the length leads out of the memory. The length is
narrowed to an `int`, as the parser's argument is. -/
def spelled (mem : Bytes) : Option (Option M) :=
  let size := toInt32 (int64OfLe (mem.take sizeofInt64))
  if size < 0 then none else (loadAt sizeofInt64 size.toNat mem).map codec.parse

/-- Laid over the buffers in turn, each message leaves bytes that spell it again. The list has
one memory for each buffer, the one that comes next in front. -/
def SpelledInTurn : List Bytes → List M → Prop
  | _, [] => True
  | [], _ :: _ => False
  | mem :: mems, m :: ms =>
    spelled codec (overlay 0 (codec.serialize m) mem) = some (some m) ∧
      SpelledInTurn (mems ++ [overlay 0 (codec.serialize m) mem]) ms

variable {codec vt}

/-- The two handles of a stream walk the same buffers: `At k` is a handle that has completed `k`
operations, `slot k` the name of the memory its next operation works on. Both strategies are
instances, with one buffer and with two. -/
structure Walks (codec : MessageLite M) (vt : SidebandMethods (WithShm η)) (size : ℕ)
    (At : ℕ → η → Shm → Prop) (slot : ℕ → Bytes) : Prop where
  direct : vt.supportsDirectReadWrite = true
  update : ∀ {k h shm shm' name mem}, At k h shm → Shm.Update name mem shm shm' →
    mem.length = size → At k h shm'
  write : ∀ {k w m}, At k w.handle w.shm → w.shm.calls = [] → (codec.serialize m).length ≤ size →
    ∃ w', (directWrite codec vt m).run w = .ok (byteSizeLong codec m, w') ∧
      At (k + 1) w'.handle w'.shm ∧
      Shm.Update (slot k) (overlay 0 (codec.serialize m) (w.shm.view (slot k) size)) w.shm w'.shm
  read : ∀ {k w r}, At k w.handle w.shm → w.shm.calls = [] → sizeofInt64 ≤ size →
    spelled codec (w.shm.view (slot k) size) = some r →
    ∃ w', (directRead codec vt).run w = .ok (r, w') ∧ At (k + 1) w'.handle w'.shm ∧
      Shm.Update (slot k) (w.shm.view (slot k) size) w.shm w'.shm
  fault : ∀ {k w}, At k w.handle w.shm → w.shm.calls = [] → sizeofInt64 ≤ size →
    spelled codec (w.shm.view (slot k) size) = none →
    (directRead codec vt).run w = .error .outOfBounds

/-- Both parties have completed `k` operations, and so are on the same segment. -/
structure Synced (At : ℕ → η → Shm → Prop) (k : ℕ) (s : Parties η) : Prop where
  calls : s.shm.calls = []
  party : ∀ side, At k (s.world side).handle s.shm

section Walk

variable {size : ℕ} {At : ℕ → η → Shm → Prop} {slot : ℕ → Bytes}

/-- Writing a message lays it over the memory at the common position; the other party is still
to read there. -/
theorem Walks.write_ok (h : Walks codec vt size At slot) {k : ℕ} {s : Parties η}
    (hs : Synced At k s) (writer : Side) {m : M} (hm : (codec.serialize m).length ≤ size) :
    ∃ s₁, (on writer (writeSidebandMessage codec vt m)).run s = .ok (byteSizeLong codec m, s₁) ∧
      At (k + 1) (s₁.world writer).handle s₁.shm ∧ At k (s₁.world writer.peer).handle s₁.shm ∧
      Shm.Update (slot k) (overlay 0 (codec.serialize m) (s.shm.view (slot k) size))
        s.shm s₁.shm := by
  obtain ⟨w₁, hwrite, hat₁, hu₁⟩ := h.write (w := s.world writer) (hs.party writer) hs.calls hm
  refine ⟨s.step writer w₁, ?_, ?_, ?_, ?_⟩
  · rw [writeSidebandMessage_direct h.direct]
    exact Parties.run_on_call_ok hwrite
  · rwa [Parties.world_step_same, Parties.shm_step]
  · rw [Parties.world_step_peer, Parties.shm_step]
    refine h.update (hs.party writer.peer) hu₁ ?_
    exact Shm.length_overlay_view _ _ hm
  · rwa [Parties.shm_step]

variable (At) in
/-- One party calls `x` and its peer then calls `y`, both at the common position, which leaves
`mem` there. -/
theorem synced_exchanged {α β : Type} {k : ℕ} {s : Parties η} {mem : Bytes}
    (hupdate : ∀ {k h shm shm' name mem}, At k h shm → Shm.Update name mem shm shm' →
      mem.length = size → At k h shm') (hmem : mem.length = size) (writer : Side)
    {x : Exec (WithShm η) α} {y : Exec (WithShm η) β} {a : α} {b : β} {w₁ w₂ : WithShm η}
    (hx : x.run (s.world writer) = .ok (a, w₁)) (hat₁ : At (k + 1) w₁.handle w₁.shm)
    (hu₁ : Shm.Update (slot k) mem s.shm w₁.shm)
    (hy : y.run ⟨(s.world writer.peer).handle, w₁.shm⟩ = .ok (b, w₂))
    (hat₂ : At (k + 1) w₂.handle w₂.shm) (hu₂ : Shm.Update (slot k) mem w₁.shm w₂.shm) :
    ∃ s', (do
        let _ ← on writer (SidebandData.call x)
        on writer.peer (SidebandData.call y)).run s = .ok (b, s') ∧
      Synced At (k + 1) s' ∧ Shm.Update (slot k) mem s.shm s'.shm := by
  have hy' : y.run ((s.step writer w₁).world writer.peer) = .ok (b, w₂) := by
    rwa [Parties.world_step_peer]
  refine ⟨(s.step writer w₁).step writer.peer w₂, ?_, ⟨?_, ?_⟩, ?_⟩
  · rw [Exec.run_bind_ok (Parties.run_on_call_ok hx)]
    exact Parties.run_on_call_ok hy'
  · rw [Parties.shm_step]
    exact hu₂.calls
  · intro side
    rcases Side.eq_or_eq_peer writer side with rfl | rfl
    · have hworld := Parties.world_step_peer side.peer w₂ (s.step side w₁)
      rw [Parties.peer_peer] at hworld
      rw [hworld, Parties.shm_step, Parties.world_step_same]
      exact hupdate hat₁ hu₂ hmem
    · rwa [Parties.world_step_same, Parties.shm_step]
  · rw [Parties.shm_step]
    exact hu₁.trans hu₂

/-- One exchange reads what the memory at the common position spells once the message has
been laid over it. -/
theorem Walks.exchange_ok (h : Walks codec vt size At slot) {k : ℕ} {s : Parties η}
    (hs : Synced At k s) (writer : Side) {m : M}
    (hm : (codec.serialize m).length + sizeofInt64 ≤ size) {r : Option M}
    (hr : spelled codec (overlay 0 (codec.serialize m) (s.shm.view (slot k) size)) = some r) :
    ∃ s', (exchange codec vt writer m).run s = .ok (r, s') ∧ Synced At (k + 1) s' ∧
      Shm.Update (slot k) (overlay 0 (codec.serialize m) (s.shm.view (slot k) size))
        s.shm s'.shm := by
  have hlen : (overlay 0 (codec.serialize m) (s.shm.view (slot k) size)).length = size :=
    Shm.length_overlay_view _ _ (by omega)
  obtain ⟨w₁, hwrite, hat₁, hu₁⟩ := h.write (w := s.world writer) (hs.party writer) hs.calls
    (show (codec.serialize m).length ≤ size by omega)
  have hpeer : At k (s.world writer.peer).handle w₁.shm := h.update (hs.party writer.peer) hu₁ hlen
  have hview : w₁.shm.view (slot k) size =
      overlay 0 (codec.serialize m) (s.shm.view (slot k) size) := hu₁.view_same hlen
  rw [← hview] at hr
  obtain ⟨w₂, hread, hat₂, hu₂⟩ := h.read (w := ⟨(s.world writer.peer).handle, w₁.shm⟩) hpeer
    hu₁.calls (by omega) hr
  rw [hview] at hu₂
  rw [exchange, writeSidebandMessage_direct h.direct, readSidebandMessage_direct h.direct]
  exact synced_exchanged At h.update hlen writer hwrite hat₁ hu₁ hread hat₂ hu₂

theorem Walks.exchange_fault (h : Walks codec vt size At slot) {k : ℕ} {s : Parties η}
    (hs : Synced At k s) (writer : Side) {m : M}
    (hm : (codec.serialize m).length + sizeofInt64 ≤ size)
    (hr : spelled codec (overlay 0 (codec.serialize m) (s.shm.view (slot k) size)) = none) :
    (exchange codec vt writer m).run s = .error .outOfBounds := by
  have hlen : (overlay 0 (codec.serialize m) (s.shm.view (slot k) size)).length = size :=
    Shm.length_overlay_view _ _ (by omega)
  obtain ⟨s₁, hwrite, -, hpeer, hu₁⟩ := h.write_ok hs writer (m := m) (by omega)
  rw [← hu₁.view_same hlen] at hr
  rw [exchange, Exec.run_bind_ok hwrite, readSidebandMessage_direct h.direct]
  exact Parties.run_on_call_error
    (h.fault (w := s₁.world writer.peer) hpeer hu₁.calls (by omega) hr)

/-- The memory at the next `n` positions: what the segments hold that the coming operations will
work on. -/
def ahead (slot : ℕ → Bytes) (size n k : ℕ) (shm : Shm) : List Bytes :=
  (List.range n).map fun i => shm.view (slot (k + i)) size

/-- When `n` positions lead to `n` different names and the next one to the first of them again,
a change at the current position moves it to the back. -/
theorem ahead_update {n k : ℕ} {mem : Bytes} {shm shm' : Shm} (hn : 0 < n)
    (hperiod : ∀ k, slot (k + n) = slot k)
    (hslot : ∀ k i, 0 < i → i < n → slot (k + i) ≠ slot k)
    (hu : Shm.Update (slot k) mem shm shm') (hsize : mem.length = size) :
    ahead slot size n (k + 1) shm' = (ahead slot size n k shm).tail ++ [mem] := by
  obtain ⟨p, rfl⟩ : ∃ p, n = p + 1 := ⟨n - 1, by omega⟩
  have hlast : slot (k + 1 + p) = slot k := by rw [Nat.add_assoc, Nat.add_comm 1, hperiod]
  rw [ahead, ahead, List.range_succ, List.map_append, List.map_singleton, hlast,
    hu.view_same hsize, ← List.range_succ, List.range_succ_eq_map, List.map_cons, List.tail_cons,
    List.map_map]
  congr 1
  refine List.map_congr_left fun i hi => ?_
  have hlt : i < p := List.mem_range.mp hi
  rw [Function.comp, Nat.add_assoc, Nat.add_comm 1]
  exact hu.view_other (hslot k (i + 1) (by omega) (by omega)) size

/-- A sequence of exchanges round-trips exactly when each message is spelled in turn by the
buffers ahead. -/
theorem Walks.messagesRoundTrip_iff_spelled (h : Walks codec vt size At slot) {n k : ℕ} (hn : 0 < n)
    (hperiod : ∀ k, slot (k + n) = slot k)
    (hslot : ∀ k i, 0 < i → i < n → slot (k + i) ≠ slot k) {s : Parties η} (hs : Synced At k s)
    {msgs : List (Side × M)}
    (hmsgs : ∀ msg ∈ msgs, (codec.serialize msg.2).length + sizeofInt64 ≤ size) :
    MessagesRoundTrip codec vt s msgs ↔
      SpelledInTurn codec (ahead slot size n k s.shm) (msgs.map Prod.snd) := by
  induction msgs generalizing k s with
  | nil =>
    simp only [List.map_nil, SpelledInTurn, iff_true]
    exact ⟨s, rfl⟩
  | cons msg msgs ih =>
    obtain ⟨writer, m⟩ := msg
    have hm := hmsgs _ List.mem_cons_self
    have htail := fun msg hmem => hmsgs msg (List.mem_cons_of_mem _ hmem)
    -- the message goes into the buffer at the front, which the next round finds at the back
    have hfront : ahead slot size n k s.shm =
        s.shm.view (slot k) size :: (ahead slot size n k s.shm).tail := by
      obtain ⟨p, rfl⟩ : ∃ p, n = p + 1 := ⟨n - 1, by omega⟩
      rw [ahead, List.range_succ_eq_map, List.map_cons, List.tail_cons, Nat.add_zero]
    rw [hfront, List.map_cons, SpelledInTurn]
    cases hspelled : spelled codec (overlay 0 (codec.serialize m) (s.shm.view (slot k) size)) with
    | none =>
      refine iff_of_false ?_ (by simp)
      rintro ⟨s', hrun⟩
      rw [exchanges, Exec.run_bind_error (h.exchange_fault hs writer hm hspelled)] at hrun
      cases hrun
    | some r =>
      obtain ⟨s₁, hfirst, hs₁, hu⟩ := h.exchange_ok hs writer hm hspelled
      have hahead := ahead_update hn hperiod hslot hu
        (Shm.length_overlay_view _ _ (by omega))
      rw [Option.some.injEq, ← hahead, ← ih hs₁ htail]
      constructor
      · rintro ⟨s', hrun⟩
        rw [exchanges, Exec.run_bind_ok hfirst, Exec.run_bind_eq_ok_iff] at hrun
        obtain ⟨reads, s₂, hrest, hrun⟩ := hrun
        rw [Exec.run_pure, List.map_cons] at hrun
        simp only [Except.ok.injEq, Prod.mk.injEq, List.cons.injEq] at hrun
        obtain ⟨⟨rfl, rfl⟩, rfl⟩ := hrun
        exact ⟨rfl, s₂, hrest⟩
      · rintro ⟨rfl, s', hrest⟩
        exact ⟨s', by rw [exchanges, Exec.run_bind_ok hfirst, Exec.run_bind_ok hrest,
          Exec.run_pure, List.map_cons]⟩

end Walk

end Exchanges

/-! ### One buffer -/

namespace SharedMemorySidebandData

variable {M : Type} {codec : MessageLite M} {size : ℕ} {w : WithShm SharedMemorySidebandData}

/-- Writing a message stores it at the start of the memory. -/
theorem directWrite_ok (ha : Attached size w.handle w.shm) (hcalls : w.shm.calls = []) {m : M}
    (hm : (codec.serialize m).length ≤ size) :
    ∃ w', (directWrite codec methods m).run w = .ok (byteSizeLong codec m, w') ∧
      Access (overlay 0 (codec.serialize m) (w.shm.view w.handle.name size)) w w' := by
  obtain ⟨n, w₁, hget, hmapped, hacc⟩ := getBuffer_ok ha hcalls
  obtain ⟨w₂, hstore, -, hacc₂⟩ := store_ok hmapped hacc.update.calls
    (show 0 + (codec.serialize m).length ≤ size by omega)
  rw [hacc.name, hacc.view (Shm.length_view _ _ _)] at hacc₂
  refine ⟨w₂, ?_, hacc.trans hacc₂⟩
  change (do
    let buffer ← getBuffer
    store buffer (codec.serialize m)
    let _ ← finishDirectWrite (byteSizeLong codec m)
    return byteSizeLong codec m : Exec _ ℤ).run w = _
  rw [Exec.run_bind_ok hget, Exec.run_bind_ok hstore]
  rfl

/-- The first calls of a read, up to the length prefix. -/
theorem beginDirectReadLengthPrefixed_ok (ha : Attached size w.handle w.shm)
    (hcalls : w.shm.calls = []) (hsize : sizeofInt64 ≤ size) :
    ∃ n w', methods.beginDirectReadLengthPrefixed.run w = .ok ((.into (.segment n) sizeofInt64,
        some (int64OfLe ((w.shm.view w.handle.name size).take sizeofInt64))), w') ∧
      Mapped size n w'.handle w'.shm ∧ Access (w.shm.view w.handle.name size) w w' := by
  obtain ⟨n, w₁, hget, hmapped, hacc⟩ := getBuffer_ok ha hcalls
  have hheader := load_ok hmapped (show 0 + sizeofInt64 ≤ size by omega)
  rw [hacc.name, hacc.view (Shm.length_view _ _ _), slice, List.drop_zero] at hheader
  refine ⟨n, w₁, ?_, hmapped, hacc⟩
  change beginDirectReadLengthPrefixed.run w = _
  rw [beginDirectReadLengthPrefixed, Exec.run_bind_ok hget, if_pos (by simp),
    Exec.run_bind_ok hheader, Exec.run_pure, Pointer.add, Nat.zero_add]

/-- Reading a message returns what the memory spells. -/
theorem directRead_ok (ha : Attached size w.handle w.shm) (hcalls : w.shm.calls = [])
    (hsize : sizeofInt64 ≤ size) {r : Option M}
    (hr : spelled codec (w.shm.view w.handle.name size) = some r) :
    ∃ w', (directRead codec methods).run w = .ok (r, w') ∧
      Access (w.shm.view w.handle.name size) w w' := by
  obtain ⟨n, w₁, hbegin, hmapped, hacc⟩ := beginDirectReadLengthPrefixed_ok ha hcalls hsize
  have hview := hacc.view (Shm.length_view w.shm w.handle.name size)
  refine ⟨w₁, ?_, hacc⟩
  obtain ⟨mem, hmem⟩ : ∃ mem, w.shm.view w.handle.name size = mem := ⟨_, rfl⟩
  have hlen : mem.length = size := by rw [← hmem, Shm.length_view]
  obtain ⟨len, hlenEq⟩ : ∃ len, int64OfLe (mem.take sizeofInt64) = len := ⟨_, rfl⟩
  rw [hmem, hlenEq] at hbegin
  rw [hmem, spelled, hlenEq] at hr
  rw [directRead, Exec.run_bind_ok hbegin]
  by_cases hneg : toInt32 len < 0
  · simp [hneg] at hr
  · by_cases hfits : sizeofInt64 + (toInt32 len).toNat ≤ size
    · simp only [hneg, if_false, loadAt_eq_some (hlen ▸ hfits), Option.map_some,
        Option.some.injEq] at hr
      have hload : (methods.load (.into (.segment n) sizeofInt64) (toInt32 len).toNat).run w₁ =
          .ok (slice sizeofInt64 (toInt32 len).toNat mem, w₁) := by
        rw [← hmem, ← hview, ← hacc.name]
        exact load_ok hmapped hfits
      simp only [Option.getD_some]
      rw [Exec.run_bind_ok (run_parseFromArray_ok (not_lt.mp hneg) hload), ← hr]
      rfl
    · have hout : loadAt sizeofInt64 (toInt32 len).toNat mem = none := loadAt_eq_none (by omega)
      simp [hneg, hout] at hr

/-- A length that leads out of the memory makes the read leave it. -/
theorem directRead_fault (ha : Attached size w.handle w.shm) (hcalls : w.shm.calls = [])
    (hsize : sizeofInt64 ≤ size) (hr : spelled codec (w.shm.view w.handle.name size) = none) :
    (directRead codec methods).run w = .error .outOfBounds := by
  obtain ⟨n, w₁, hbegin, hmapped, hacc⟩ := beginDirectReadLengthPrefixed_ok ha hcalls hsize
  obtain ⟨mem, hmem⟩ : ∃ mem, w.shm.view w.handle.name size = mem := ⟨_, rfl⟩
  have hlen : mem.length = size := by rw [← hmem, Shm.length_view]
  obtain ⟨len, hlenEq⟩ : ∃ len, int64OfLe (mem.take sizeofInt64) = len := ⟨_, rfl⟩
  rw [hmem, hlenEq] at hbegin
  rw [hmem, spelled, hlenEq] at hr
  rw [directRead, Exec.run_bind_ok hbegin]
  simp only [Option.getD_some]
  by_cases hneg : toInt32 len < 0
  · rw [Exec.run_bind_error (run_parseFromArray_neg hneg w₁)]
  · by_cases hfits : sizeofInt64 + (toInt32 len).toNat ≤ size
    · have hin := loadAt_eq_some (show sizeofInt64 + (toInt32 len).toNat ≤ mem.length by omega)
      simp [hneg, hin] at hr
    · have hload : (methods.load (.into (.segment n) sizeofInt64) (toInt32 len).toNat).run w₁ =
          .error .outOfBounds := load_outOfBounds hmapped (by omega) (by omega)
      rw [Exec.run_bind_error (run_parseFromArray_error (not_lt.mp hneg) hload)]

/-- The single buffer is the same at every position. -/
theorem walks (codec : MessageLite M) (size : ℕ) (name : Bytes) :
    Walks codec methods size (fun _ h shm => h.Attached size shm ∧ h.name = name)
      (fun _ => name) where
  direct := rfl
  update hat hu hsize := ⟨hat.1.update hu hsize, hat.2⟩
  write {k w m} hat hcalls hm := by
    obtain ⟨w', hrun, hacc⟩ := directWrite_ok hat.1 hcalls hm
    rw [hat.2] at hacc
    exact ⟨w', hrun, ⟨hacc.attached (Shm.length_overlay_view _ _ hm),
      hacc.name.trans hat.2⟩, hat.2 ▸ hacc.update⟩
  read {k w r} hat hcalls hsize hr := by
    obtain ⟨w', hrun, hacc⟩ := directRead_ok hat.1 hcalls hsize (hat.2.symm ▸ hr)
    exact ⟨w', hrun, ⟨hacc.attached (Shm.length_view _ _ _), hacc.name.trans hat.2⟩,
      hat.2 ▸ hacc.update⟩
  fault {k w} hat hcalls hsize hr := directRead_fault hat.1 hcalls hsize (hat.2.symm ▸ hr)

end SharedMemorySidebandData

/-! ### Two buffers -/

namespace DoubleBufferedSharedMemorySidebandData

variable {M : Type} {codec : MessageLite M} {size : ℕ}
  {w : WithShm DoubleBufferedSharedMemorySidebandData}

/-- Parsing reads the current buffer. -/
theorem parseFromArray_eq (codec : MessageLite M) (buffer : Pointer) (n : ℤ) :
    parseFromArray codec methods buffer n =
      onCurrent (parseFromArray codec SharedMemorySidebandData.methods buffer n) := by
  by_cases hsize : toInt32 n < 0
  · simp only [parseFromArray, hsize, if_true]
    rfl
  · simp only [parseFromArray, hsize, if_false, onCurrent_bind, onCurrent_pure]
    rfl

/-- Writing a message writes it to the current buffer, then switches. -/
theorem directWrite_eq (codec : MessageLite M) (m : M) :
    directWrite codec methods m = do
      let byteSize ← onCurrent (directWrite codec SharedMemorySidebandData.methods m)
      switch
      return byteSize := by
  have hinner (n : ℤ) : SharedMemorySidebandData.methods.finishDirectWrite n = pure true := rfl
  have houter (n : ℤ) : methods.finishDirectWrite n = (do switch; return true) := rfl
  simp only [directWrite, hinner, houter, onCurrent_bind, onCurrent_pure, bind_assoc, pure_bind]
  rfl

/-- Reading a message reads it from the current buffer, then switches. -/
theorem directRead_eq (codec : MessageLite M) :
    directRead codec methods = do
      let success ← onCurrent (directRead codec SharedMemorySidebandData.methods)
      switch
      return success := by
  have hinner : SharedMemorySidebandData.methods.finishDirectRead = pure true := rfl
  have houter : methods.finishDirectRead = (do switch; return true) := rfl
  simp only [directRead, hinner, houter, parseFromArray_eq, onCurrent_bind, onCurrent_pure,
    bind_assoc, pure_bind]
  rfl

/-- Every other position leads to the same name. -/
theorem slot_period (id : Bytes) (k : ℕ) :
    slotName id (currentAt (k + 2)) = slotName id (currentAt k) := by
  simp [currentAt]

/-- Two positions in a row lead to different names. -/
theorem slot_ne (id : Bytes) (k i : ℕ) (h₁ : 0 < i) (h₂ : i < 2) :
    slotName id (currentAt (k + i)) ≠ slotName id (currentAt k) := by
  intro heq
  obtain rfl : i = 1 := by omega
  have hcurrent := slotName_injective id heq
  rw [← other_currentAt] at hcurrent
  revert hcurrent
  cases currentAt k <;> decide

/-- The double buffer alternates between its two buffers. -/
theorem walks (codec : MessageLite M) (size : ℕ) (id : Bytes) :
    Walks codec methods size (At size id) (fun k => slotName id (currentAt k)) where
  direct := rfl
  update hat hu hsize := hat.update hu hsize
  write {k w m} hat hcalls hm := by
    rw [directWrite_eq]
    refine operation_ok hat (Shm.length_overlay_view _ _ hm) ?_
    rw [← hat.view_current]
    exact SharedMemorySidebandData.directWrite_ok (hat.attached.buffer _) hcalls hm
  read {k w r} hat hcalls hsize hr := by
    rw [directRead_eq]
    refine operation_ok hat (Shm.length_view _ _ _) ?_
    rw [← hat.view_current] at hr ⊢
    exact SharedMemorySidebandData.directRead_ok (hat.attached.buffer _) hcalls hsize hr
  fault {k w} hat hcalls hsize hr := by
    rw [← hat.view_current] at hr
    have hrun : (directRead codec SharedMemorySidebandData.methods).run
        ⟨w.handle.buffer w.handle.current, w.shm⟩ = .error .outOfBounds :=
      SharedMemorySidebandData.directRead_fault (hat.attached.buffer _) hcalls hsize hr
    rw [directRead_eq, Exec.run_bind_error (run_onCurrent_error hrun)]

end DoubleBufferedSharedMemorySidebandData

/-! ### Both strategies -/

/-- The two parties of a stream before their first operation, each with a new handle. The
segments may exist already, with any content. -/
def Parties.opened {η : Type} (handle : η) (size : ℕ) (shm : Shm) : Parties η where
  owner := .new size handle
  client := .new size handle
  shm := shm

section Strategies

variable {M : Type} (codec : MessageLite M) (id : Bytes) (size : ℕ) {shm : Shm}

theorem messagesRoundTrip_single (hcalls : shm.calls = []) {msgs : List (Side × M)}
    (hmsgs : ∀ msg ∈ msgs, (codec.serialize msg.2).length + sizeofInt64 ≤ size) :
    MessagesRoundTrip codec SharedMemorySidebandData.methods
        (.opened (.new id size) size shm) msgs ↔
      SpelledInTurn codec [shm.view (SharedMemorySidebandData.new id size).name size]
        (msgs.map Prod.snd) := by
  refine (SharedMemorySidebandData.walks codec size
    (SharedMemorySidebandData.new id size).name).messagesRoundTrip_iff_spelled (n := 1) (k := 0)
    Nat.one_pos (fun _ => rfl) (fun _ i h₁ h₂ => by omega) ⟨hcalls, fun side => ?_⟩ hmsgs
  cases side <;> exact ⟨SharedMemorySidebandData.attached_new id size shm, rfl⟩

theorem messagesRoundTrip_double (hcalls : shm.calls = []) {msgs : List (Side × M)}
    (hmsgs : ∀ msg ∈ msgs, (codec.serialize msg.2).length + sizeofInt64 ≤ size) :
    MessagesRoundTrip codec DoubleBufferedSharedMemorySidebandData.methods
        (.opened (.new id size) size shm) msgs ↔
      SpelledInTurn codec
        [shm.view (DoubleBufferedSharedMemorySidebandData.slotName id .bufferA) size,
          shm.view (DoubleBufferedSharedMemorySidebandData.slotName id .bufferB) size]
        (msgs.map Prod.snd) := by
  refine (DoubleBufferedSharedMemorySidebandData.walks codec size id).messagesRoundTrip_iff_spelled
    (n := 2) (k := 0) Nat.two_pos (DoubleBufferedSharedMemorySidebandData.slot_period id)
    (DoubleBufferedSharedMemorySidebandData.slot_ne id) ⟨hcalls, fun side => ?_⟩ hmsgs
  cases side <;> exact DoubleBufferedSharedMemorySidebandData.at_new id size shm

/-- **Message round trip over shared memory.** Over either strategy, a sequence of messages
that fit the memory round-trips exactly when each message, laid over the older content of its
buffer, is spelled by it. -/
theorem messagesRoundTrip_iff (hcalls : shm.calls = []) {msgs : List (Side × M)}
    (hmsgs : ∀ msg ∈ msgs, (codec.serialize msg.2).length + sizeofInt64 ≤ size) :
    (MessagesRoundTrip codec SharedMemorySidebandData.methods
        (.opened (.new id size) size shm) msgs ↔
      SpelledInTurn codec [shm.view (SharedMemorySidebandData.new id size).name size]
        (msgs.map Prod.snd)) ∧
    (MessagesRoundTrip codec DoubleBufferedSharedMemorySidebandData.methods
        (.opened (.new id size) size shm) msgs ↔
      SpelledInTurn codec
        [shm.view (DoubleBufferedSharedMemorySidebandData.slotName id .bufferA) size,
          shm.view (DoubleBufferedSharedMemorySidebandData.slotName id .bufferB) size]
        (msgs.map Prod.snd)) :=
  ⟨messagesRoundTrip_single codec id size hcalls hmsgs,
    messagesRoundTrip_double codec id size hcalls hmsgs⟩

end Strategies

/-- A message of one byte. -/
def oneByte : { b : Bytes // b.length < 2 ^ 31 } := ⟨[1], by decide⟩

/-- Laid over zeros, the message `1` spells the message `0`. -/
theorem not_spelled_oneByte :
    spelled rawMessage (overlay 0 (rawMessage.serialize oneByte) (List.replicate 16 0)) ≠
      some (some oneByte) := by
  decide +kernel

/-- An object for each of the names, all with the same content. -/
def Shm.holding (mem : Bytes) (names : List Bytes) : Shm :=
  names.foldl (fun shm name => (shm.create name).setObject shm.objects.length mem) {}

/-- Sixteen bytes of a segment that a message `1` spells itself over: an older message has left
the `1` behind the first eight. -/
def spelledMemory : Bytes := le64 0 ++ le64 1

/-- A machine with the segments of either strategy. -/
def spelledSegments : Shm :=
  .holding spelledMemory [(SharedMemorySidebandData.new [] 16).name,
    DoubleBufferedSharedMemorySidebandData.slotName [] .bufferA,
    DoubleBufferedSharedMemorySidebandData.slotName [] .bufferB]

/-- Three messages to and fro over both strategies. -/
theorem messagesRoundTrip_iff_spelledSegments :
    MessagesRoundTrip rawMessage SharedMemorySidebandData.methods
      (.opened (.new [] 16) 16 spelledSegments)
      [(.owner, oneByte), (.client, oneByte), (.owner, oneByte)] ∧
    MessagesRoundTrip rawMessage DoubleBufferedSharedMemorySidebandData.methods
      (.opened (.new [] 16) 16 spelledSegments)
      [(.owner, oneByte), (.client, oneByte), (.owner, oneByte)] := by
  refine ⟨(messagesRoundTrip_iff rawMessage [] 16 rfl (by decide)).1.mpr ?_,
    (messagesRoundTrip_iff rawMessage [] 16 rfl (by decide)).2.mpr ?_⟩
  · refine ⟨?_, ?_, ?_, trivial⟩ <;> decide +kernel
  · refine ⟨?_, ?_, ?_, trivial⟩ <;> decide +kernel

/-- The first message over fresh memory does not come through, over either strategy. -/
theorem not_messagesRoundTrip_oneByte :
    ¬ MessagesRoundTrip rawMessage SharedMemorySidebandData.methods
        (.opened (.new [] 16) 16 {}) [(.owner, oneByte)] ∧
    ¬ MessagesRoundTrip rawMessage DoubleBufferedSharedMemorySidebandData.methods
        (.opened (.new [] 16) 16 {}) [(.owner, oneByte)] := by
  have hfresh (name : Bytes) : ({} : Shm).view name 16 = List.replicate 16 0 := rfl
  constructor
  · intro h
    have h' := (messagesRoundTrip_single rawMessage [] 16 rfl (by decide)).mp h
    exact not_spelled_oneByte h'.1
  · intro h
    have h' := (messagesRoundTrip_double rawMessage [] 16 rfl (by decide)).mp h
    exact not_spelled_oneByte h'.1

end Sideband
