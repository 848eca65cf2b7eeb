import Sideband.SharedMemory.Messages
import Sideband.SharedMemory.Operations

/-!
# The calls of a message, one by one

Over shared memory `ReadSidebandMessage` and `WriteSidebandMessage` are three calls each: one that
hands out a pointer into the segment, the protobuf call that reads or stores through it, and one
that ends the operation. No call keeps the other party out of the segment until the next one.

A `SharedStream` is either of the two strategies, and `SharedStream.Calls` says what each of the
calls does to the memory behind the names, whoever calls what in between (`calls_sharedMemory`,
`calls_doubleBuffered`). It is about runs in which no system call fails; a call that is asked for
more than the segment holds leaves it.
-/

namespace Sideband

open Foundation

/-! ### The object behind a name -/

namespace Shm

/-- Object `n` is the one behind a name, and has `size` bytes, so a pointer into it leads to
memory that the name's other users see. -/
structure Behind (size n : ℕ) (name : Bytes) (shm : Shm) : Prop where
  lookup : shm.names.lookup name = some n
  length : (shm.object n).length = size

variable {size n : ℕ} {name other mem bytes : Bytes} {shm shm' : Shm}

theorem Behind.view (h : Behind size n name shm) : shm.view name size = shm.object n := by
  rw [view_of_lookup h.lookup, resize_of_length h.length]

/-- Whatever becomes of the memory behind the names, the object stays. -/
theorem Behind.update (h : Behind size n name shm) (hu : Update other mem shm shm')
    (hsize : mem.length = size) : Behind size n name shm' := by
  have hlookup := hu.lookup _ n h.lookup
  refine ⟨hlookup, ?_⟩
  by_cases hname : name = other
  · obtain ⟨k, hk, hmem⟩ := hu.content
    have hkn : k = n := Option.some.inj (hk.symm.trans (hname ▸ hlookup))
    rw [← hkn, hmem, hsize]
  · rw [(hu.other _ hname).2 n h.lookup, h.length]

/-- Memory that becomes what it was is unchanged, as all other memory is. -/
theorem Update.view_eq (hu : Update other (shm.view other size) shm shm') :
    shm'.view name size = shm.view name size := by
  by_cases hname : name = other
  · rw [hname, hu.view_same (length_view _ _ _)]
  · exact hu.view_other hname size

/-- A load changes nothing. -/
theorem run_load_eq_ok {length : ℤ} {p : Pointer} {k : ℕ}
    (h : (load length p k).run shm = .ok (bytes, shm')) : shm' = shm := by
  unfold load at h
  split_ifs at h
  · cases h
    rfl
  · split at h
    · split_ifs at h
      · rw [Exec.run_bind_ok (Exec.run_get shm)] at h
        obtain ⟨-, rfl⟩ := Exec.run_checked_eq_ok_iff.mp h
        rfl
      · cases h
    · cases h

end Shm

theorem SharedMemorySidebandData.Mapped.behind {size n : ℕ} {h : SharedMemorySidebandData}
    {shm : Shm} {name : Bytes} (hm : h.Mapped size n shm) (hname : h.name = name) :
    shm.Behind size n name :=
  ⟨hname ▸ hm.lookup, hm.length⟩

/-! ### Streams -/

/-- A strategy that keeps the messages in segments of shared memory: its methods, the handles it
starts with, and the segment that a handle works on next. Both strategies have direct access, and
both parties start with equal handles of one id and size. -/
structure SharedStream (η : Type) where
  methods : SidebandMethods (WithShm η)
  direct : methods.supportsDirectReadWrite = true
  /-- The handle of each party, before its first operation. -/
  handle : η
  size : ℕ
  /-- The name of the segment that a handle works on. -/
  slot : η → Bytes
  /-- The names of all segments. -/
  names : List Bytes

namespace SharedStream

/-- `SHARED_MEMORY`: both parties work on one segment, and a message overwrites the one before
it. -/
def sharedMemory (id : Bytes) (size : ℕ) : SharedStream SharedMemorySidebandData where
  methods := SharedMemorySidebandData.methods
  direct := rfl
  handle := .new id size
  size := size
  slot := SharedMemorySidebandData.name
  names := [(SharedMemorySidebandData.new id size).name]

/-- `DOUBLE_BUFFERED_SHARED_MEMORY`: each operation works on the segment that the one before it
did not. -/
def doubleBuffered (id : Bytes) (size : ℕ) :
    SharedStream DoubleBufferedSharedMemorySidebandData where
  methods := DoubleBufferedSharedMemorySidebandData.methods
  direct := rfl
  handle := .new id size
  size := size
  slot h := (h.buffer h.current).name
  names := [DoubleBufferedSharedMemorySidebandData.slotName id .bufferA,
    DoubleBufferedSharedMemorySidebandData.slotName id .bufferB]

variable {η : Type} (stream : SharedStream η)

/-- What a handle finds in the segment that it works on, or would find if its first use came now. -/
def memory (w : WithShm η) : Bytes := w.shm.view (stream.slot w.handle) stream.size

/-- The handle works on the same segment as before, and no memory has changed. A first use may
have mapped the segment in between. -/
structure Stays (At : η → Shm → Prop) (w w' : WithShm η) : Prop where
  attached : At w'.handle w'.shm
  slot : stream.slot w'.handle = stream.slot w.handle
  update : Shm.Update (stream.slot w.handle) (stream.memory w) w.shm w'.shm

variable {stream} in
theorem Stays.memory {At : η → Shm → Prop} {w w' : WithShm η} (h : stream.Stays At w w') :
    stream.memory w' = stream.memory w := by
  rw [SharedStream.memory, h.slot]
  exact h.update.view_eq

/-- What other handles may rely on while one of them makes its calls: they stay attached, and no
name leads elsewhere. What the memory holds they cannot rely on. -/
structure Evolves (At : η → Shm → Prop) (shm shm' : Shm) : Prop where
  calls : shm'.calls = []
  attached : ∀ h, At h shm → At h shm'
  behind : ∀ n name, shm.Behind stream.size n name → shm'.Behind stream.size n name

/-- What the calls do. `At` says that a handle is attached to its memory, which it stays whatever
another handle stores. The fields go through the calls of a message one by one, so they hold with
any calls of the other party in between. -/
structure Calls (At : η → Shm → Prop) : Prop where
  new : ∀ shm, At stream.handle shm
  update : ∀ {h shm shm' name mem}, At h shm → Shm.Update name mem shm shm' →
    mem.length = stream.size → At h shm'
  /-- A read begins with the first eight bytes of the segment, if it has as many. -/
  beginRead : ∀ {w}, At w.handle w.shm → w.shm.calls = [] → sizeofInt64 ≤ stream.size →
    ∃ n w', stream.methods.beginDirectReadLengthPrefixed.run w =
        .ok ((.into (.segment n) sizeofInt64,
          some (int64OfLe ((stream.memory w).take sizeofInt64))), w') ∧
      w'.shm.Behind stream.size n (stream.slot w.handle) ∧ stream.Stays At w w'
  beginRead_outOfBounds : ∀ {w}, At w.handle w.shm → w.shm.calls = [] →
    stream.size < sizeofInt64 →
    stream.methods.beginDirectReadLengthPrefixed.run w = .error .outOfBounds
  load : ∀ {w n name offset k}, At w.handle w.shm → w.shm.Behind stream.size n name →
    offset + k ≤ stream.size → (stream.methods.load (.into (.segment n) offset) k).run w =
      .ok (slice offset k (w.shm.view name stream.size), w)
  load_eq : ∀ {w w' p k bytes}, (stream.methods.load p k).run w = .ok (bytes, w') → w' = w
  finishRead : ∀ {w}, At w.handle w.shm → ∃ h, stream.methods.finishDirectRead.run w =
    .ok (true, { w with handle := h }) ∧ At h w.shm
  beginWrite : ∀ {w}, At w.handle w.shm → w.shm.calls = [] →
    ∃ n w', stream.methods.beginDirectWrite.run w = .ok (.into (.segment n) 0, w') ∧
      w'.shm.Behind stream.size n (stream.slot w.handle) ∧ stream.Stays At w w'
  store : ∀ {w n name bytes}, At w.handle w.shm → w.shm.calls = [] →
    w.shm.Behind stream.size n name → bytes.length ≤ stream.size →
    ∃ shm, (stream.methods.store (.into (.segment n) 0) bytes).run w = .ok (⟨⟩, { w with shm }) ∧
      Shm.Update name (overlay 0 bytes (w.shm.view name stream.size)) w.shm shm
  store_outOfBounds : ∀ {w n bytes}, At w.handle w.shm → stream.size < bytes.length →
    (stream.methods.store (.into (.segment n) 0) bytes).run w = .error .outOfBounds
  finishWrite : ∀ {w} byteCount, At w.handle w.shm →
    ∃ h, (stream.methods.finishDirectWrite byteCount).run w = .ok (true, { w with handle := h }) ∧
      At h w.shm
  /-- `Write` is one call. -/
  write : ∀ {w bytes}, At w.handle w.shm → w.shm.calls = [] → bytes.length ≤ stream.size →
    ∃ w', (stream.methods.write bytes).run w = .ok (true, w') ∧ At w'.handle w'.shm ∧
      Shm.Update (stream.slot w.handle) (overlay 0 bytes (stream.memory w)) w.shm w'.shm

variable {stream} in
theorem Evolves.refl {At : η → Shm → Prop} {shm : Shm} (hcalls : shm.calls = []) :
    stream.Evolves At shm shm :=
  ⟨hcalls, fun _ hat => hat, fun _ _ hbehind => hbehind⟩

namespace Calls

variable {stream} {At : η → Shm → Prop} {w w' : WithShm η} {M : Type} {codec : MessageLite M}

theorem evolves (h : stream.Calls At) {name mem : Bytes} {shm shm' : Shm}
    (hu : Shm.Update name mem shm shm') (hsize : mem.length = stream.size) :
    stream.Evolves At shm shm' where
  calls := hu.calls
  attached _ hat := h.update hat hu hsize
  behind _ _ hbehind := hbehind.update hu hsize

theorem evolves_of_stays (h : stream.Calls At) (hstays : stream.Stays At w w') :
    stream.Evolves At w.shm w'.shm :=
  h.evolves hstays.update (Shm.length_view _ _ _)

/-- Between its begin and its finish, a read parses what the segment spells. -/
theorem parse (h : stream.Calls At) (hat : At w.handle w.shm) {n : ℕ}
    (hbehind : w.shm.Behind stream.size n (stream.slot w.handle)) {r : Option M}
    (hspelled : spelled codec (stream.memory w) = some r) :
    (parseFromArray codec stream.methods (.into (.segment n) sizeofInt64)
      (int64OfLe ((stream.memory w).take sizeofInt64))).run w = .ok (r, w) := by
  obtain ⟨mem, hmem⟩ : ∃ mem, stream.memory w = mem := ⟨_, rfl⟩
  have hlength : mem.length = stream.size := by rw [← hmem, SharedStream.memory, Shm.length_view]
  rw [hmem] at hspelled ⊢
  obtain ⟨len, hlen⟩ : ∃ len, int64OfLe (mem.take sizeofInt64) = len := ⟨_, rfl⟩
  rw [spelled, hlen] at hspelled
  rw [hlen]
  by_cases hneg : toInt32 len < 0
  · simp [hneg] at hspelled
  · by_cases hfits : sizeofInt64 + (toInt32 len).toNat ≤ stream.size
    · simp only [hneg, if_false, loadAt_eq_some (hlength ▸ hfits), Option.map_some,
        Option.some.injEq] at hspelled
      have hload := h.load hat hbehind hfits
      rw [show w.shm.view (stream.slot w.handle) stream.size = mem from hmem] at hload
      rw [run_parseFromArray_ok (not_lt.mp hneg) hload, ← hspelled]
    · have hout : loadAt sizeofInt64 (toInt32 len).toNat mem = none := loadAt_eq_none (by omega)
      simp [hneg, hout] at hspelled

/-- Parsing changes nothing. -/
theorem parse_eq (h : stream.Calls At) {p : Pointer} {size : ℤ} {r : Option M}
    (hrun : (parseFromArray codec stream.methods p size).run w = .ok (r, w')) : w' = w := by
  by_cases hneg : toInt32 size < 0
  · rw [run_parseFromArray_neg hneg] at hrun
    cases hrun
  · cases hload : (stream.methods.load p (toInt32 size).toNat).run w with
    | error e =>
      rw [run_parseFromArray_error (not_lt.mp hneg) hload] at hrun
      cases hrun
    | ok loaded =>
      obtain ⟨bytes, w₁⟩ := loaded
      rw [run_parseFromArray_ok (not_lt.mp hneg) hload] at hrun
      cases hrun
      exact h.load_eq hload

end Calls

end SharedStream

/-! ### One buffer -/

namespace SharedMemorySidebandData

variable {size : ℕ} {w w' : WithShm SharedMemorySidebandData}

/-- An access that leaves the memory as it was. -/
theorem Access.stays {id : Bytes} (hname : w.handle.name = (new id size).name)
    (h : Access (w.shm.view w.handle.name size) w w') :
    (SharedStream.sharedMemory id size).Stays
      (fun h shm => h.Attached size shm ∧ h.name = (new id size).name) w w' where
  attached := ⟨h.attached (Shm.length_view _ _ _), h.name.trans hname⟩
  slot := h.name
  update := h.update

theorem store_beyond (hsize : w.handle.bufferSize = size) {n : ℕ} {bytes : Bytes}
    (h : size < bytes.length) :
    (store (.into (.segment n) 0) bytes).run w = .error .outOfBounds := by
  have hbytes : bytes ≠ [] := by
    rintro rfl
    exact absurd h (Nat.not_lt_zero _)
  rw [store, Exec.run_bind_ok (Exec.run_get w), hsize]
  exact WithShm.run_kernel_error (Shm.run_store_outOfBounds hbytes (by omega))

theorem store_behind (hsize : w.handle.bufferSize = size) (hcalls : w.shm.calls = []) {n : ℕ}
    {name bytes : Bytes} (hbehind : w.shm.Behind size n name) (h : bytes.length ≤ size) :
    ∃ shm, (store (.into (.segment n) 0) bytes).run w = .ok (⟨⟩, { w with shm }) ∧
      Shm.Update name (overlay 0 bytes (w.shm.view name size)) w.shm shm := by
  obtain ⟨shm, hrun, hu⟩ := Shm.store_ok hcalls hbehind.lookup hbehind.length
    (show 0 + bytes.length ≤ size by omega)
  refine ⟨shm, ?_, hbehind.view ▸ hu⟩
  rw [store, Exec.run_bind_ok (Exec.run_get w), hsize]
  exact WithShm.run_kernel_ok hrun

theorem load_eq {p : Pointer} {k : ℕ} {bytes : Bytes} (h : (load p k).run w = .ok (bytes, w')) :
    w' = w := by
  rw [load, Exec.run_bind_ok (Exec.run_get w), WithShm.run_kernel_eq_ok_iff] at h
  obtain ⟨shm, hrun, rfl⟩ := h
  obtain rfl := Shm.run_load_eq_ok hrun
  rfl

/-- A segment of fewer than eight bytes has no length to read. -/
theorem beginDirectReadLengthPrefixed_outOfBounds (ha : Attached size w.handle w.shm)
    (hcalls : w.shm.calls = []) (hsize : size < sizeofInt64) :
    beginDirectReadLengthPrefixed.run w = .error .outOfBounds := by
  obtain ⟨n, w₁, hget, hmapped, -⟩ := getBuffer_ok ha hcalls
  have hload := load_outOfBounds hmapped (show sizeofInt64 ≠ 0 by decide)
    (show size < 0 + sizeofInt64 by omega)
  rw [beginDirectReadLengthPrefixed, Exec.run_bind_ok hget, if_pos (by simp),
    Exec.run_bind_error hload]

theorem calls_sharedMemory (id : Bytes) (size : ℕ) : (SharedStream.sharedMemory id size).Calls
    fun h shm => h.Attached size shm ∧ h.name = (new id size).name where
  new shm := ⟨attached_new id size shm, rfl⟩
  update hat hu hsize := ⟨hat.1.update hu hsize, hat.2⟩
  beginRead {w} hat hcalls hsize := by
    obtain ⟨n, w', hrun, hmapped, hacc⟩ := beginDirectReadLengthPrefixed_ok hat.1 hcalls hsize
    exact ⟨n, w', hrun, hmapped.behind hacc.name, hacc.stays hat.2⟩
  beginRead_outOfBounds hat hcalls hsize :=
    beginDirectReadLengthPrefixed_outOfBounds hat.1 hcalls hsize
  load hat hbehind h := by
    rw [hbehind.view]
    exact run_load_ok hat.1.bufferSize hbehind.length h
  load_eq := load_eq
  finishRead hat := ⟨_, rfl, hat⟩
  beginWrite {w} hat hcalls := by
    obtain ⟨n, w', hrun, hmapped, hacc⟩ := getBuffer_ok hat.1 hcalls
    exact ⟨n, w', hrun, hmapped.behind hacc.name, hacc.stays hat.2⟩
  store hat hcalls hbehind h := store_behind hat.1.bufferSize hcalls hbehind h
  store_outOfBounds hat h := store_beyond hat.1.bufferSize h
  finishWrite _ hat := ⟨_, rfl, hat⟩
  write hat hcalls h := by
    obtain ⟨w', hrun, hacc⟩ := write_ok hat.1 hcalls h
    exact ⟨w', hrun, ⟨hacc.attached (Shm.length_overlay_view _ _ h), hacc.name.trans hat.2⟩,
      hacc.update⟩

end SharedMemorySidebandData

/-! ### Two buffers -/

namespace DoubleBufferedSharedMemorySidebandData

variable {size : ℕ} {id : Bytes} {w : WithShm DoubleBufferedSharedMemorySidebandData} {α : Type}

/-- The handle is attached to the two segments of the stream. -/
def AttachedTo (id : Bytes) (size : ℕ) (h : DoubleBufferedSharedMemorySidebandData) (shm : Shm) :
    Prop :=
  h.Attached size shm ∧ h.id = id

/-- A handle is attached when it has completed as many operations as its current buffer says. -/
theorem AttachedTo.at {h : DoubleBufferedSharedMemorySidebandData} {shm : Shm}
    (hat : AttachedTo id size h shm) : ∃ k, At size id k h shm := by
  cases hcurrent : h.current with
  | bufferA => exact ⟨0, hat.1, hat.2, hcurrent⟩
  | bufferB => exact ⟨1, hat.1, hat.2, hcurrent⟩

/-- A call that leaves the handle of the current buffer leaves that of the pair. -/
theorem run_onCurrent_same {x : Exec (WithShm SharedMemorySidebandData) α} {a : α} {shm : Shm}
    (hx : x.run ⟨w.handle.buffer w.handle.current, w.shm⟩ =
      .ok (a, ⟨w.handle.buffer w.handle.current, shm⟩)) :
    (onCurrent x).run w = .ok (a, { w with shm }) := by
  rw [onCurrent, Exec.run_zoom_ok (s := w) hx, setBuffer_buffer]

/-- A begin on the current buffer is one of the pair. -/
theorem begin_ok {x : Exec (WithShm SharedMemorySidebandData) α} {a : α} {n : ℕ}
    (hat : AttachedTo id size w.handle w.shm) {inner : WithShm SharedMemorySidebandData}
    (hx : x.run ⟨w.handle.buffer w.handle.current, w.shm⟩ = .ok (a, inner))
    (hmapped : inner.handle.Mapped size n inner.shm)
    (hacc : SharedMemorySidebandData.Access
      (w.shm.view (w.handle.buffer w.handle.current).name size)
      ⟨w.handle.buffer w.handle.current, w.shm⟩ inner) :
    ∃ w', (onCurrent x).run w = .ok (a, w') ∧
      w'.shm.Behind size n ((SharedStream.doubleBuffered id size).slot w.handle) ∧
      (SharedStream.doubleBuffered id size).Stays (AttachedTo id size) w w' := by
  obtain ⟨w', hrun, hacc', hbuffer, hshm⟩ :=
    run_onCurrent_ok hat.1 hx hacc (Shm.length_view _ _ _)
  have hname := hat.1.name w.handle.current
  refine ⟨w', hrun, ?_, ⟨?_, hacc'.id.trans hat.2⟩, ?_, ?_⟩
  · rw [hshm]
    exact hmapped.behind hacc.name
  · have hattached := hacc'.attached
    rwa [Shm.length_view] at hattached
  · change (w'.handle.buffer w'.handle.current).name = (w.handle.buffer w.handle.current).name
    rw [hacc'.current, hbuffer, hacc.name]
  · have hu := hacc'.update
    rwa [← hname] at hu

theorem calls_doubleBuffered (id : Bytes) (size : ℕ) :
    (SharedStream.doubleBuffered id size).Calls (AttachedTo id size) where
  new shm := ⟨attached_new id size shm, rfl⟩
  update hat hu hsize := ⟨hat.1.update hu hsize, hat.2⟩
  beginRead {w} hat hcalls hsize := by
    obtain ⟨n, inner, hrun, hmapped, hacc⟩ :=
      SharedMemorySidebandData.beginDirectReadLengthPrefixed_ok
        (w := ⟨w.handle.buffer w.handle.current, w.shm⟩) (hat.1.buffer _) hcalls hsize
    obtain ⟨w', hrun', hbehind, hstays⟩ := begin_ok hat hrun hmapped hacc
    exact ⟨n, w', hrun', hbehind, hstays⟩
  beginRead_outOfBounds {w} hat hcalls hsize :=
    run_onCurrent_error (SharedMemorySidebandData.beginDirectReadLengthPrefixed_outOfBounds
      (w := ⟨w.handle.buffer w.handle.current, w.shm⟩) (hat.1.buffer _) hcalls hsize)
  load {w n name offset k} hat hbehind h := by
    have hload := SharedMemorySidebandData.run_load_ok
      (w := ⟨w.handle.buffer w.handle.current, w.shm⟩) (hat.1.buffer _).bufferSize
      hbehind.length h
    rw [hbehind.view]
    exact run_onCurrent_same hload
  load_eq {w w' p k bytes} h := by
    obtain ⟨inner, hrun, rfl⟩ := Exec.run_zoom_eq_ok_iff.mp h
    obtain rfl := SharedMemorySidebandData.load_eq hrun
    rw [setBuffer_buffer]
  finishRead {w} hat := by
    obtain ⟨k, hat⟩ := hat.at
    exact ⟨_, rfl, hat.switched.attached, hat.switched.id⟩
  beginWrite {w} hat hcalls := by
    obtain ⟨n, inner, hrun, hmapped, hacc⟩ := SharedMemorySidebandData.getBuffer_ok
      (w := ⟨w.handle.buffer w.handle.current, w.shm⟩) (hat.1.buffer _) hcalls
    obtain ⟨w', hrun', hbehind, hstays⟩ := begin_ok hat hrun hmapped hacc
    exact ⟨n, w', hrun', hbehind, hstays⟩
  store {w n name bytes} hat hcalls hbehind h := by
    obtain ⟨shm, hrun, hu⟩ := SharedMemorySidebandData.store_behind
      (w := ⟨w.handle.buffer w.handle.current, w.shm⟩) (hat.1.buffer _).bufferSize hcalls
      hbehind h
    exact ⟨shm, run_onCurrent_same hrun, hu⟩
  store_outOfBounds {w n bytes} hat h :=
    run_onCurrent_error (SharedMemorySidebandData.store_beyond
      (w := ⟨w.handle.buffer w.handle.current, w.shm⟩) (hat.1.buffer _).bufferSize h)
  finishWrite {w} _ hat := by
    obtain ⟨k, hat⟩ := hat.at
    exact ⟨_, rfl, hat.switched.attached, hat.switched.id⟩
  write {w bytes} hat hcalls h := by
    obtain ⟨k, hat⟩ := hat.at
    obtain ⟨w', hrun, hat', hu⟩ := write_ok hat hcalls h
    refine ⟨w', hrun, ⟨hat'.attached, hat'.id⟩, ?_⟩
    have hname : (SharedStream.doubleBuffered id size).slot w.handle =
        slotName id (currentAt k) := by
      change (w.handle.buffer w.handle.current).name = _
      rw [hat.attached.name, hat.id, hat.current]
    rw [SharedStream.memory, hname]
    exact hu

end DoubleBufferedSharedMemorySidebandData

end Sideband
