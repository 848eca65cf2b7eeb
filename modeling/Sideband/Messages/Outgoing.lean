import Sideband.Messages.Transport
import Sideband.Rdma.Sending
import Sideband.SharedMemory.Switching
import Sideband.Sockets.Tearing

/-!
# The size of a message on its way out

`WriteSidebandMessage` has the size of the message, and gets a pointer to a buffer; nobody compares
the size with that of the buffer.

* `writeEncoded`: the call by the bytes of the message, of any number; what protobuf can serialize
  is `writeSidebandMessage` (`writeSidebandMessage_eq`).
* `Transport.room`: how many of its bytes the buffer of a transport has for a message.
* `staysInside_iff`: the call stays in the buffer, and refuses a message that does not fit, exactly
  when the message fits.
* `writeEncoded_outOfBounds`: the other messages below 2 GiB are stored beyond the end.
-/

namespace Sideband

open Foundation
open SidebandData (call serializeBufferPtr setSerializeBuffer)

/-! ### Messages of any size -/

/-- What `SerializeToArray` stores: protobuf serializes nothing of 2 GiB or more, and says so in
a result that nothing looks at. -/
def serializedBytes (bytes : Bytes) : Bytes := if bytes.length < 2 ^ 31 then bytes else []

section Encoded

variable {δ M : Type} (vt : SidebandMethods δ) (bytes : Bytes)

/-- `WriteSidebandMessage`, by the encoding of the message. Taking the bytes for the message lets
it be one that protobuf refuses to serialize, of which only the size is left. -/
def writeEncoded : Exec (SidebandData δ) ℤ := do
  if sidebandDataSupportsDirectReadWrite vt = 1 then
    let (_, buffer) ← sidebandDataBeginDirectWrite vt
    call (vt.store buffer (serializedBytes bytes))
    let _ ← sidebandDataFinishDirectWrite vt bytes.length
  else
    let buffer ← serializeBufferPtr
    let buffer ← Exec.checked (storeAt 0 (serializedBytes bytes) buffer)
    setSerializeBuffer buffer
    -- `WriteLengthPrefixed` takes as many bytes from the buffer as the message has
    let payload ← Exec.checked (loadAt 0 bytes.length buffer)
    let _ ← sidebandDataWriteLengthPrefixed vt payload
  return bytes.length

/-- The calls `writeEncoded` makes on a transport with direct access. -/
def directWriteEncoded : Exec δ ℤ := do
  let buffer ← vt.beginDirectWrite
  vt.store buffer (serializedBytes bytes)
  let _ ← vt.finishDirectWrite bytes.length
  return bytes.length

variable {vt bytes}

theorem serializedBytes_eq (h : bytes.length < 2 ^ 31) : serializedBytes bytes = bytes := if_pos h

theorem length_serializedBytes_le (bytes : Bytes) :
    (serializedBytes bytes).length ≤ bytes.length := by
  rw [serializedBytes]
  split_ifs <;> simp

/-- `WriteSidebandMessage` is `writeEncoded` on what the message serializes to. -/
theorem writeSidebandMessage_eq (codec : MessageLite M) (vt : SidebandMethods δ) (m : M) :
    writeSidebandMessage codec vt m = writeEncoded vt (codec.serialize m) := by
  have hbytes := serializedBytes_eq (codec.size_lt m)
  by_cases h : sidebandDataSupportsDirectReadWrite vt = 1
  · simp only [writeSidebandMessage, writeEncoded, h, if_true, hbytes, serializeToArray,
      byteSizeLong]
  · simp only [writeSidebandMessage, writeEncoded, h, if_false, hbytes, byteSizeLong,
      Int.toNat_natCast]
    refine bind_congr fun buffer => ?_
    cases hstore : storeAt 0 (codec.serialize m) buffer with
    | none => rfl
    | some mem =>
      have hload : loadAt 0 (codec.serialize m).length mem =
          some (slice 0 (codec.serialize m).length mem) :=
        loadAt_eq_some (length_le_of_storeAt hstore)
      have hmem : Exec.checked (some mem) = (pure mem : Exec (SidebandData δ) Bytes) := rfl
      rw [hmem, pure_bind, pure_bind, hload]
      rfl

/-- It returns the size of the message, whatever the transport did. -/
theorem yields_writeEncoded :
    Exec.Yields (· = (bytes.length : ℤ)) (writeEncoded vt bytes) := by
  have hpure : Exec.Yields (· = (bytes.length : ℤ))
      (pure (bytes.length : ℤ) : Exec (SidebandData δ) ℤ) := Exec.yields_pure rfl
  rw [writeEncoded]
  split_ifs
  · exact .bind (fun begun => .bind (fun _ => .bind (fun _ => hpure) _) _) _
  · exact .bind (fun buffer => .bind (fun stored => .bind (fun _ => .bind (fun payload =>
      .bind (fun _ => hpure) _) _) _) _) _

theorem writeEncoded_direct (h : vt.supportsDirectReadWrite = true) :
    writeEncoded vt bytes = call (directWriteEncoded vt bytes) := by
  rw [← supportsDirectReadWrite_eq_one] at h
  simp only [writeEncoded, h, if_true, directWriteEncoded,
    sidebandDataBeginDirectWrite, sidebandDataFinishDirectWrite, bind_assoc, pure_bind,
    SidebandData.call_bind, SidebandData.call_pure]

theorem run_writeEncoded_direct (h : vt.supportsDirectReadWrite = true) {o : SidebandData δ} {v : ℤ}
    {d : δ} (hrun : (directWriteEncoded vt bytes).run o.derived = .ok (v, d)) :
    (writeEncoded vt bytes).run o = .ok (v, { o with derived := d }) := by
  rw [writeEncoded_direct h]
  exact SidebandData.run_call_ok hrun

/-- A message that fits the serialize buffer is handed to `WriteLengthPrefixed` from there. -/
theorem run_writeEncoded_copy (h : vt.supportsDirectReadWrite = false) {o : SidebandData δ}
    (hfits : bytes.length ≤ o.allocated.length) :
    ∃ buffer payload : Bytes, payload.length = bytes.length ∧
      (bytes.length < 2 ^ 31 → payload = bytes) ∧
      (writeEncoded vt bytes).run o = ((vt.writeLengthPrefixed payload).run o.derived).map
        fun r => ((bytes.length : ℤ), { o with serializeBuffer := buffer, derived := r.2 }) := by
  have hsupports : sidebandDataSupportsDirectReadWrite vt ≠ 1 := by
    rw [Ne, supportsDirectReadWrite_eq_one, h]
    decide
  obtain ⟨buffer, hbuffer⟩ : ∃ buffer, overlay 0 (serializedBytes bytes) o.allocated = buffer :=
    ⟨_, rfl⟩
  have hle := length_serializedBytes_le bytes
  have hlength : buffer.length = o.allocated.length := by
    rw [← hbuffer, length_overlay (by omega)]
  have hstore : storeAt 0 (serializedBytes bytes) o.allocated = some buffer := by
    rw [storeAt_eq_some (by omega), hbuffer]
  have hload : loadAt 0 bytes.length buffer = some (slice 0 bytes.length buffer) :=
    loadAt_eq_some (by omega)
  refine ⟨buffer, slice 0 bytes.length buffer, length_slice (by omega), fun hsmall => ?_, ?_⟩
  · rw [← hbuffer, serializedBytes_eq hsmall, slice_overlay (Nat.zero_le _)]
  · simp only [writeEncoded, hsupports, if_false, sidebandDataWriteLengthPrefixed, bind_assoc,
      pure_bind]
    rw [Exec.run_bind_ok (SidebandData.run_serializeBufferPtr o), hstore,
      Exec.run_bind_ok (Exec.run_checked_some _ _),
      Exec.run_bind_ok (SidebandData.run_setSerializeBuffer _ _), hload,
      Exec.run_bind_ok (Exec.run_checked_some _ _)]
    cases hcall : (vt.writeLengthPrefixed (slice 0 bytes.length buffer)).run o.derived with
    | error e => exact Exec.run_bind_error (SidebandData.run_call_error hcall)
    | ok r => exact Exec.run_bind_ok (SidebandData.run_call_ok hcall)

/-- Any other message does not fit it. -/
theorem run_writeEncoded_copy_outOfBounds (h : vt.supportsDirectReadWrite = false)
    {o : SidebandData δ} (hlong : o.allocated.length < bytes.length) :
    (writeEncoded vt bytes).run o = .error .outOfBounds := by
  have hsupports : sidebandDataSupportsDirectReadWrite vt ≠ 1 := by
    rw [Ne, supportsDirectReadWrite_eq_one, h]
    decide
  simp only [writeEncoded, hsupports, if_false]
  rw [Exec.run_bind_ok (SidebandData.run_serializeBufferPtr o)]
  by_cases hserialized : (serializedBytes bytes).length ≤ o.allocated.length
  · have hlength : (overlay 0 (serializedBytes bytes) o.allocated).length = o.allocated.length :=
      length_overlay (by omega)
    rw [storeAt_eq_some (by omega), Exec.run_bind_ok (Exec.run_checked_some _ _),
      Exec.run_bind_ok (SidebandData.run_setSerializeBuffer _ _), loadAt_eq_none (by omega)]
    rfl
  · rw [storeAt_eq_none (by omega)]
    rfl

end Encoded

/-! ### One buffer -/

namespace SharedMemorySidebandData

variable {size : ℕ} {w w' : WithShm SharedMemorySidebandData} {bytes : Bytes}

/-- The handle is one of `size` bytes, and so is the segment it has mapped. Another process may
have cut the segment since; that is a matter of the windows, and excluded here. -/
structure OfSize (size : ℕ) (w : WithShm SharedMemorySidebandData) : Prop where
  bufferSize : w.handle.bufferSize = size
  segment : ∀ region offset, w.handle.buffer = .into region offset →
    ∃ n, region = .segment n ∧ offset = 0 ∧ (w.shm.object n).length = size

/-- The segment is mapped, or the first use maps it: `shm_open`, `ftruncate` and `mmap` will
succeed. -/
def HasSegment (w : WithShm SharedMemorySidebandData) : Prop :=
  (∃ n, w.handle.buffer = .into (.segment n) 0) ∨
    w.handle.buffer = .null ∧ (w.shm.opens && w.shm.truncates w.handle.bufferSize) = true ∧
      w.shm.maps = true

/-- The segment starts with the bytes. -/
def Holds (bytes : Bytes) (w : WithShm SharedMemorySidebandData) : Prop :=
  ∃ n, w.handle.buffer = .into (.segment n) 0 ∧ (w.shm.object n).take bytes.length = bytes

/-- What the next use of the handle finds in its segment: what the segment holds, or what the
first use maps: the object behind the name, cut off or filled up to the size, or a new one of
zeros. -/
def Finds (mem : Bytes) (w : WithShm SharedMemorySidebandData) : Prop :=
  (∃ n, w.handle.buffer = .into (.segment n) 0 ∧ w.shm.object n = mem) ∨
    w.handle.buffer = .null ∧ (w.shm.opens && w.shm.truncates w.handle.bufferSize) = true ∧
      w.shm.maps = true ∧ w.shm.view w.handle.name w.handle.bufferSize.toNat = mem

theorem hasSegment_iff_finds : HasSegment w ↔ ∃ mem, Finds mem w := by
  constructor
  · rintro (⟨n, hbuffer⟩ | ⟨hnull, hopens, hmaps⟩)
    · exact ⟨_, .inl ⟨n, hbuffer, rfl⟩⟩
    · exact ⟨_, .inr ⟨hnull, hopens, hmaps, rfl⟩⟩
  · rintro ⟨mem, ⟨n, hbuffer, -⟩ | ⟨hnull, hopens, hmaps, -⟩⟩
    · exact .inl ⟨n, hbuffer⟩
    · exact .inr ⟨hnull, hopens, hmaps⟩

/-- `GetBuffer` returns a segment that holds what the handle finds. -/
theorem finds_iff_of_getBuffer {w₁ : WithShm SharedMemorySidebandData} {p : Pointer} {mem : Bytes}
    (hget : getBuffer.run w = .ok (p, w₁)) :
    Finds mem w ↔ ∃ n, w₁.handle.buffer = .into (.segment n) 0 ∧ w₁.shm.object n = mem := by
  obtain ⟨w₂, hget₂, hcases⟩ := run_getBuffer w
  obtain ⟨-, rfl⟩ := Prod.mk.inj (Except.ok.inj (hget.symm.trans hget₂))
  rcases hcases with ⟨hset, rfl⟩ | ⟨hnull, hinit⟩
  · simp only [Finds, hset, false_and, or_false]
  · cases hinit with
    | mapped n opens truncates maps handle opened calls =>
      have hbuffer : w₁.handle.buffer = .into (.segment n) 0 := by rw [handle, mappedTo]
      have hobject : w₁.shm.object n = w.shm.view w.handle.name w.handle.bufferSize.toNat := by
        rw [opened.object, if_pos rfl, opened.view]
      constructor
      · rintro (⟨m, hm, -⟩ | ⟨-, -, -, rfl⟩)
        · cases hnull.symm.trans hm
        · exact ⟨n, hbuffer, hobject⟩
      · rintro ⟨m, hm, rfl⟩
        obtain ⟨hsame, -⟩ := Pointer.into.inj (hbuffer.symm.trans hm)
        cases hsame
        exact .inr ⟨hnull, by rw [opens, truncates]; rfl, maps, hobject.symm⟩
    | mapFailed n opens truncates maps handle =>
      have hbuffer : w₁.handle.buffer = .invalid := by rw [handle]
      simp [Finds, hnull, maps, hbuffer]
    | refused mapFD refused handle =>
      have hbuffer : w₁.handle.buffer = .null := by rw [handle, hnull]
      simp [Finds, hnull, refused, hbuffer]

/-- `GetBuffer` returns the segment exactly when there is one. -/
theorem getBuffer_ofSize (hw : OfSize size w) :
    ∃ w₁, getBuffer.run w = .ok (w₁.handle.buffer, w₁) ∧ OfSize size w₁ ∧
      (HasSegment w ↔ ∃ n, w₁.handle.buffer = .into (.segment n) 0) := by
  obtain ⟨w₁, hget, ⟨hset, rfl⟩ | ⟨hnull, hinit⟩⟩ := run_getBuffer w
  · refine ⟨w₁, hget, hw, ?_⟩
    simp only [HasSegment, hset, false_and, or_false]
  · refine ⟨w₁, hget, ?_⟩
    cases hinit with
    | mapped n opens truncates maps handle opened calls =>
      have hbuffer : w₁.handle.buffer = .into (.segment n) 0 := by rw [handle, mappedTo]
      refine ⟨⟨by rw [handle]; exact hw.bufferSize, fun region offset hregion => ?_⟩, ?_⟩
      · rw [hbuffer] at hregion
        cases hregion
        refine ⟨n, rfl, rfl, ?_⟩
        rw [opened.object, if_pos rfl, length_resize, hw.bufferSize, Int.toNat_natCast]
      · exact iff_of_true (.inr ⟨hnull, by rw [opens, truncates]; rfl, maps⟩) ⟨n, hbuffer⟩
    | mapFailed n opens truncates maps handle =>
      have hbuffer : w₁.handle.buffer = .invalid := by rw [handle]
      refine ⟨⟨by rw [handle]; exact hw.bufferSize, fun region offset hregion => ?_⟩, ?_⟩
      · rw [hbuffer] at hregion
        cases hregion
      · refine iff_of_false ?_ ?_
        · simp [HasSegment, hnull, maps]
        · simp [hbuffer]
    | refused mapFD refused handle =>
      have hbuffer : w₁.handle.buffer = .null := by rw [handle, hnull]
      refine ⟨⟨by rw [handle]; exact hw.bufferSize, fun region offset hregion => ?_⟩, ?_⟩
      · rw [hbuffer] at hregion
        cases hregion
      · refine iff_of_false ?_ ?_
        · simp [HasSegment, hnull, refused]
        · simp [hbuffer]

theorem run_store_ok {shm : Shm} {p : Pointer}
    (h : (Shm.store w.handle.bufferSize p bytes).run w.shm = .ok (⟨⟩, shm)) :
    (store p bytes).run w = .ok (⟨⟩, { w with shm }) := by
  rw [store, Exec.run_bind_ok (Exec.run_get w)]
  exact WithShm.run_kernel_ok h

theorem run_store_error {p : Pointer} {e : Stop}
    (h : (Shm.store w.handle.bufferSize p bytes).run w.shm = .error e) :
    (store p bytes).run w = .error e := by
  rw [store, Exec.run_bind_ok (Exec.run_get w)]
  exact WithShm.run_kernel_error h

/-- Bytes that fit are stored in the segment. -/
theorem store_overlays (hw : OfSize size w) {n : ℕ}
    (hbuffer : w.handle.buffer = .into (.segment n) 0) (hfits : bytes.length ≤ size) :
    ∃ w', (store w.handle.buffer bytes).run w = .ok (⟨⟩, w') ∧
      w'.handle.buffer = .into (.segment n) 0 ∧
      w'.shm.object n = overlay 0 bytes (w.shm.object n) := by
  obtain ⟨m, hm, -, hobject⟩ := hw.segment _ _ hbuffer
  cases hm
  have hlength : ((0 : ℕ) + bytes.length : ℤ) ≤ w.handle.bufferSize := by
    rw [hw.bufferSize]
    omega
  obtain ⟨shm, hstore⟩ : ∃ shm, (Shm.store w.handle.bufferSize (.into (.segment n) 0) bytes).run
      w.shm = .ok (⟨⟩, shm) := Shm.run_store_segment hlength (by omega)
  have hoverlay := (Shm.object_of_run_store_segment hstore).2
  rw [hbuffer]
  exact ⟨_, run_store_ok hstore, hbuffer, hoverlay⟩

/-- Other bytes, and all that come without a segment, leave it. -/
theorem store_outOfBounds (hw : OfSize size w) (hbytes : bytes ≠ [])
    (hno : ¬ ((∃ n, w.handle.buffer = .into (.segment n) 0) ∧ bytes.length ≤ size)) :
    (store w.handle.buffer bytes).run w = .error .outOfBounds := by
  refine run_store_error ?_
  by_cases hbuffer : ∃ n, w.handle.buffer = .into (.segment n) 0
  · have hlong : ¬ bytes.length ≤ size := fun hfits => hno ⟨hbuffer, hfits⟩
    obtain ⟨n, hbuffer⟩ := hbuffer
    rw [hbuffer]
    refine Shm.run_store_outOfBounds hbytes ?_
    rw [hw.bufferSize]
    omega
  · refine Shm.run_store_unmapped (fun m offset hregion => hbuffer ?_) hbytes
    obtain ⟨n, hn, rfl, -⟩ := hw.segment _ _ hregion
    exact ⟨n, by rw [hregion, hn]⟩

/-- What the direct path does after `GetBuffer`. -/
theorem run_directWriteEncoded {w₁ : WithShm SharedMemorySidebandData} {p : Pointer}
    (hget : getBuffer.run w = .ok (p, w₁)) :
    (directWriteEncoded methods bytes).run w =
      ((fun _ => (bytes.length : ℤ)) <$> store p (serializedBytes bytes)).run w₁ := by
  change (do
    let buffer ← getBuffer
    store buffer (serializedBytes bytes)
    let _ ← finishDirectWrite bytes.length
    return (bytes.length : ℤ) : Exec _ ℤ).run w = _
  rw [Exec.run_bind_ok hget, map_eq_pure_bind]
  rfl

/-- The direct path returns when there is nothing to store, or when there is a segment and the bytes
fit. -/
theorem directWriteEncoded_returns (hw : OfSize size w) (h : serializedBytes bytes = [] ∨
    HasSegment w ∧ (serializedBytes bytes).length ≤ size) :
    ∃ w', (directWriteEncoded methods bytes).run w = .ok ((bytes.length : ℤ), w') := by
  obtain ⟨w₁, hget, hw₁, hsegment⟩ := getBuffer_ofSize hw
  rw [run_directWriteEncoded hget]
  rcases h with hnil | ⟨hhas, hfits⟩
  · rw [hnil, Exec.run_map_ok _ (run_store_ok rfl)]
    exact ⟨_, rfl⟩
  · obtain ⟨n, hbuffer⟩ := hsegment.mp hhas
    obtain ⟨w', hstore, -⟩ := store_overlays hw₁ hbuffer hfits
    rw [Exec.run_map_ok _ hstore]
    exact ⟨w', rfl⟩

/-- Otherwise it leaves its memory. -/
theorem directWriteEncoded_inBounds_iff (hw : OfSize size w) :
    (directWriteEncoded methods bytes).run w ≠ .error .outOfBounds ↔
      serializedBytes bytes = [] ∨ HasSegment w ∧ (serializedBytes bytes).length ≤ size := by
  constructor
  · intro hne
    by_contra hno
    obtain ⟨hbytes, hno⟩ := not_or.mp hno
    obtain ⟨w₁, hget, hw₁, hsegment⟩ := getBuffer_ofSize hw
    rw [run_directWriteEncoded hget] at hne
    rw [hsegment] at hno
    exact hne (Exec.run_map_error _ (store_outOfBounds hw₁ hbytes hno))
  · intro h
    obtain ⟨w', hrun⟩ := directWriteEncoded_returns hw h
    rw [hrun]
    simp

/-- A call that returns leaves the frame in the segment exactly when the message, laid over what
the segment holds, spells it: nothing stores a prefix. -/
theorem directWriteEncoded_frame_iff (hw : OfSize size w) (hsmall : bytes.length < 2 ^ 31) {v : ℤ}
    (hrun : (directWriteEncoded methods bytes).run w = .ok (v, w')) :
    Holds (frame bytes) w' ↔ ∃ mem, Finds mem w ∧ frame bytes <+: overlay 0 bytes mem := by
  have hreturned : (directWriteEncoded methods bytes).run w ≠ .error .outOfBounds := by
    rw [hrun]
    simp
  have hin := (directWriteEncoded_inBounds_iff hw).mp hreturned
  obtain ⟨w₁, hget, hw₁, hsegment⟩ := getBuffer_ofSize hw
  have hfinds (mem : Bytes) : Finds mem w ↔ _ := finds_iff_of_getBuffer hget
  rw [run_directWriteEncoded hget, serializedBytes_eq hsmall] at hrun
  rw [serializedBytes_eq hsmall] at hin
  by_cases hhas : HasSegment w
  · obtain ⟨n, hbuffer⟩ := hsegment.mp hhas
    have hfits : bytes.length ≤ size := by
      rcases hin with rfl | ⟨-, hfits⟩
      · exact Nat.zero_le _
      · exact hfits
    obtain ⟨w₂, hstore, hbuffer₂, hoverlay⟩ := store_overlays hw₁ hbuffer hfits
    rw [Exec.run_map_ok _ hstore] at hrun
    cases hrun
    constructor
    · rintro ⟨m, hm, htake⟩
      obtain ⟨hsame, -⟩ := Pointer.into.inj (hbuffer₂.symm.trans hm)
      cases hsame
      refine ⟨_, (hfinds _).mpr ⟨n, hbuffer, rfl⟩, ?_⟩
      rw [List.prefix_iff_eq_take, ← hoverlay, htake]
    · rintro ⟨mem, hmem, hprefix⟩
      obtain ⟨m, hm, rfl⟩ := (hfinds mem).mp hmem
      obtain ⟨hsame, -⟩ := Pointer.into.inj (hbuffer.symm.trans hm)
      cases hsame
      refine ⟨n, hbuffer₂, ?_⟩
      rw [hoverlay, ← List.prefix_iff_eq_take.mp hprefix]
  · obtain rfl : bytes = [] := hin.resolve_right fun h => hhas h.1
    rw [Exec.run_map_ok _ (run_store_ok rfl)] at hrun
    cases hrun
    refine iff_of_false ?_ ?_
    · rintro ⟨n, hbuffer, -⟩
      exact hhas (hsegment.mpr ⟨n, hbuffer⟩)
    · rintro ⟨mem, hmem, -⟩
      exact hhas (hasSegment_iff_finds.mpr ⟨mem, hmem⟩)

/-- A message that is longer than the segment leaves it. -/
theorem not_inBounds_of_long (hsized : OfSize size w) (hsmall : bytes.length < 2 ^ 31)
    (hlong : size < bytes.length) :
    ¬ (directWriteEncoded methods bytes).run w ≠ .error .outOfBounds := by
  rw [directWriteEncoded_inBounds_iff hsized, serializedBytes_eq hsmall]
  rintro (hnil | ⟨-, hfits⟩)
  · rw [hnil, List.length_nil] at hlong
    exact absurd hlong (Nat.not_lt_zero _)
  · exact absurd hfits (not_le.mpr hlong)

end SharedMemorySidebandData

/-! ### Two buffers -/

namespace DoubleBufferedSharedMemorySidebandData

variable {w w' : WithShm DoubleBufferedSharedMemorySidebandData} {bytes : Bytes} {α : Type}

theorem directWriteEncoded_eq (bytes : Bytes) : directWriteEncoded methods bytes =
    thenSwitch (directWriteEncoded SharedMemorySidebandData.methods bytes) := by
  have hinner (n : ℤ) : SharedMemorySidebandData.methods.finishDirectWrite n = pure true := rfl
  have houter (n : ℤ) : methods.finishDirectWrite n = (do switch; return true) := rfl
  simp only [directWriteEncoded, thenSwitch, hinner, houter, onCurrent_bind, onCurrent_pure,
    bind_assoc, pure_bind]
  rfl

theorem thenSwitch_inBounds_iff {x : Exec (WithShm SharedMemorySidebandData) α} :
    (thenSwitch x).run w ≠ .error .outOfBounds ↔ x.run (currentBuffer w) ≠ .error .outOfBounds := by
  cases hx : x.run (currentBuffer w) with
  | error e =>
    rw [thenSwitch, Exec.run_bind_error (run_onCurrent_error hx)]
    simp
  | ok r =>
    rw [thenSwitch, Exec.run_bind_ok (run_onCurrent hx), Exec.run_bind_ok (run_switch _)]
    simp

theorem thenSwitch_returns {x : Exec (WithShm SharedMemorySidebandData) α} {a : α}
    {inner : WithShm SharedMemorySidebandData} (h : x.run (currentBuffer w) = .ok (a, inner)) :
    ∃ w', (thenSwitch x).run w = .ok (a, w') := by
  rw [thenSwitch, Exec.run_bind_ok (run_onCurrent h), Exec.run_bind_ok (run_switch _)]
  exact ⟨_, rfl⟩

theorem directWriteEncoded_inBounds_iff :
    (directWriteEncoded methods bytes).run w ≠ .error .outOfBounds ↔
      (directWriteEncoded SharedMemorySidebandData.methods bytes).run (currentBuffer w) ≠
        .error .outOfBounds := by
  rw [directWriteEncoded_eq, thenSwitch_inBounds_iff]

/-- The buffer that is current before a call, in the state after it. -/
def bufferAfter (w w' : WithShm DoubleBufferedSharedMemorySidebandData) :
    WithShm SharedMemorySidebandData := ⟨w'.handle.buffer w.handle.current, w'.shm⟩

theorem of_run_thenSwitch_inner {x : Exec (WithShm SharedMemorySidebandData) α} {a : α}
    (h : (thenSwitch x).run w = .ok (a, w')) :
    x.run (currentBuffer w) = .ok (a, bufferAfter w w') := by
  obtain ⟨b, t, hcall, hrest⟩ := Exec.run_bind_eq_ok_iff.mp h
  obtain ⟨inner, hx, rfl⟩ := run_onCurrent_eq_ok_iff.mp hcall
  rw [Exec.run_bind_ok (run_switch _)] at hrest
  cases hrest
  have hbuffer : (w.handle.setBuffer w.handle.current inner.handle).buffer w.handle.current =
      inner.handle := buffer_setBuffer_same _ _ _
  change _ = Except.ok (a, (⟨(w.handle.setBuffer w.handle.current inner.handle).buffer
    w.handle.current, inner.shm⟩ : WithShm SharedMemorySidebandData))
  rw [hbuffer, hx]

end DoubleBufferedSharedMemorySidebandData

/-! ### RDMA -/

namespace RdmaSidebandDataImp

variable {size : ℕ} {h h' h₀ : RdmaSidebandDataImp size} {r : Fin 2} {bytes : Bytes}

/-- `_writeBuffer` is a send region, if it is a region at all. An acquire that fails leaves the
region of the last write there, or the null pointer of a new handle. -/
def Placed (h : RdmaSidebandDataImp size) : Prop :=
  ∀ region offset, h.writeBuffer.buffer = .into region offset →
    ∃ r, region = .sendRegion r ∧ offset = 0

/-- `_writeBuffer` is a send region. -/
def Targets (h : RdmaSidebandDataImp size) : Prop :=
  ∃ r, h.writeBuffer.buffer = .into (.sendRegion r) 0

/-- The next acquire yields a region, or fails and leaves the one of an earlier message, into
which the message is then written all the same. -/
def HasRegion (h : RdmaSidebandDataImp size) : Prop :=
  (∃ r, h.Acquires r) ∨ h.connectedWriteSession.answer ≠ .success ∧ h.Targets

/-- An acquire that returns: which region the handle is left with, in terms of the handle before.
A failed one leaves what was there. -/
structure Acquired (h h₀ : RdmaSidebandDataImp size) : Prop where
  placed : h₀.Placed
  targets : h₀.Targets ↔ h.HasRegion
  owns : h₀.OwnsWriteBuffer ↔
    (∃ r, h.Acquires r) ∨ h.connectedWriteSession.answer ≠ .success ∧ h.OwnsWriteBuffer
  queue : h₀.connectedWriteSession.queue = h.connectedWriteSession.queue
  answer : h₀.connectedWriteSession.answer = h.connectedWriteSession.answered.answer

theorem acquired_of_acquires (hr : h.Acquires r) : Acquired h (h.answered.began r) where
  placed region offset hregion := by
    cases hregion
    exact ⟨r, rfl, rfl⟩
  targets := iff_of_true ⟨r, rfl⟩ (.inl ⟨r, hr⟩)
  owns := by
    refine iff_of_true ⟨r, ?_, rfl⟩ (.inl ⟨r, hr⟩)
    rw [acquired_began hr]
    exact List.mem_cons_self
  queue := SendSession.queue_acquire
  answer := congrArg (List.headD · _) SendSession.results_acquire

theorem not_acquires (hfail : h.connectedWriteSession.answer ≠ .success) :
    ¬ ∃ r, h.Acquires r := by
  rintro ⟨r, hr⟩
  exact hfail hr.1

theorem acquired_of_failed (hplaced : h.Placed)
    (hfail : h.connectedWriteSession.answer ≠ .success) : Acquired h h.answered where
  placed := hplaced
  targets := by
    have hno := not_acquires hfail
    simp only [HasRegion, hno, hfail, ne_eq, not_false_eq_true, true_and, false_or]
    exact Iff.rfl
  owns := by
    have hno := not_acquires hfail
    simp only [hno, hfail, ne_eq, not_false_eq_true, true_and, false_or]
    exact Iff.rfl
  queue := rfl
  answer := rfl

/-- An acquire waits or returns. -/
theorem acquire_placed (hplaced : h.Placed) : h.Waits ∨ ¬ h.Waits ∧
    ∃ result h₀, acquireSendRegion.run h = .ok (result, h₀) ∧ Acquired h h₀ := by
  rcases acquire_cases h with hw | ⟨r, hr⟩ | hfail
  · exact .inl hw
  · refine .inr ⟨fun hw => ?_, _, _, run_acquireSendRegion_ok hr, acquired_of_acquires hr⟩
    have hpick := hw.2
    rw [hr.2] at hpick
    cases hpick
  · exact .inr ⟨fun hw => hfail hw.1, _, _, run_acquireSendRegion_failed hfail,
      acquired_of_failed hplaced hfail⟩

/-- A store beyond a send region. -/
theorem store_outOfBounds {p : Pointer} (hbytes : bytes ≠ [])
    (hno : ¬ ∃ r offset, p = .into (.sendRegion r) offset ∧ offset + bytes.length ≤ size) :
    (store p bytes).run h = .error .outOfBounds := by
  unfold store
  rw [if_neg hbytes]
  cases p with
  | null => rfl
  | invalid => rfl
  | into region offset =>
    cases region with
    | segment n => rfl
    | receiveRegion r => rfl
    | sendRegion r =>
      have hlong : ¬ offset + bytes.length ≤ size := fun hfits => hno ⟨r, offset, rfl, hfits⟩
      have hlength := h.connectedWriteSession.length_memory r
      dsimp only
      rw [Exec.run_bind_ok (Exec.run_get h), storeAt_eq_none (by omega)]
      rfl

/-- What the direct path does after its acquire, with the bytes in the region. -/
theorem run_directWriteEncoded {result : EasyRdmaResult}
    (hacquire : acquireSendRegion.run h = .ok (result, h₀)) :
    (directWriteEncoded methods bytes).run h =
      (store (h₀.writeBuffer.buffer.add sizeofInt64) (serializedBytes bytes) >>= fun _ =>
        (fun _ => (bytes.length : ℤ)) <$> finishDirectWrite bytes.length).run h₀ := by
  have hbegin : methods.beginDirectWrite.run h =
      .ok (h₀.writeBuffer.buffer.add sizeofInt64, h₀) := by
    change beginDirectWrite.run h = _
    rw [beginDirectWrite, Exec.run_bind_ok hacquire]
    rfl
  rw [directWriteEncoded, Exec.run_bind_ok hbegin]
  simp only [map_eq_pure_bind]
  rfl

theorem run_directWriteEncoded_waits (hw : h.Waits) :
    (directWriteEncoded methods bytes).run h = .error .blocked := by
  have hbegin : methods.beginDirectWrite.run h = .error .blocked := by
    change beginDirectWrite.run h = _
    rw [beginDirectWrite, Exec.run_bind_error (run_acquireSendRegion_waits hw)]
  rw [directWriteEncoded, Exec.run_bind_error hbegin]

/-- What `easyrdma_QueueBufferRegion` adds to what is in flight. -/
theorem run_queueBufferRegion_queue (s : SendSession size) (r : Fin 2) (n : ℕ) :
    ∃ result s', (SendSession.queueBufferRegion ⟨.into (.sendRegion r) 0, n⟩).run s =
        .ok (result, s') ∧
      s'.queue = if r ∈ s.acquired ∧ s.answer = .success ∧ n ≤ size then
        s.queue ++ [⟨r, (s.memory r).take n⟩] else s.queue := by
  by_cases hr : r ∈ s.acquired
  · obtain ⟨result, s', hrun, hsubmitted⟩ := SendSession.run_queueBufferRegion_eq (n := n) hr
    refine ⟨result, s', hrun, ?_⟩
    simp only [hr, true_and, ← hsubmitted.success]
    exact hsubmitted.queue
  · have hno : ¬ (r ∈ s.acquired ∧ s.answer = .success ∧ n ≤ size) := fun h => hr h.1
    have hno' : ¬ (r ∈ s.answered.acquired ∧ n ≤ size) := fun h => hr h.1
    rw [if_neg hno, SendSession.queueBufferRegion, Exec.run_bind_ok (s.run_nextResult_eq)]
    cases hanswer : s.answer with
    | success =>
      simp only
      rw [Exec.run_bind_ok (Exec.run_get _), if_neg hno']
      exact ⟨_, _, rfl, rfl⟩
    | timeout => exact ⟨_, _, rfl, rfl⟩
    | failure => exact ⟨_, _, rfl, rfl⟩

/-- `FinishDirectWrite` on a send region. -/
theorem run_finishDirectWrite (hsize : sizeofInt64 ≤ size) (x : ℤ)
    (hbuffer : h.writeBuffer.buffer = .into (.sendRegion r) 0) {used : ℕ}
    (hused : ((x + sizeofInt64) % 2 ^ 64).toNat = used) :
    ∃ success h', (finishDirectWrite x).run h = .ok (success, h') ∧
      h'.connectedWriteSession.queue =
        if r ∈ h.connectedWriteSession.acquired ∧ h.connectedWriteSession.answer = .success ∧
          used ≤ size then h.connectedWriteSession.queue ++
            [⟨r, (overlay 0 (le64 x) (h.connectedWriteSession.memory r)).take used⟩]
        else h.connectedWriteSession.queue := by
  have hheader : (le64 x).length = sizeofInt64 := length_le64_eq_sizeof x
  have hfits : 0 + (le64 x).length ≤ size := by omega
  obtain ⟨h₁, hh₁⟩ : ∃ h₁, ({ h.stored r 0 (le64 x) with writeBuffer.usedSize := used } :
      RdmaSidebandDataImp size) = h₁ := ⟨_, rfl⟩
  have hregion : h₁.writeBuffer = ⟨.into (.sendRegion r) 0, used⟩ := by
    rw [← hh₁, ← hbuffer]
    rfl
  have hsession : h₁.connectedWriteSession = (h.stored r 0 (le64 x)).connectedWriteSession := by
    rw [← hh₁]
  obtain ⟨result, t, hrun, hqueue⟩ := run_queueBufferRegion_queue h₁.connectedWriteSession r used
  rw [← hregion] at hrun
  refine ⟨result = .success, { h₁ with connectedWriteSession := t }, ?_, ?_⟩
  · have hcall : queueBufferRegion.run h₁ =
        .ok (result, { h₁ with connectedWriteSession := t }) := by
      rw [queueBufferRegion, Exec.run_bind_ok (Exec.run_get _)]
      exact Exec.run_zoom_ok hrun
    rw [finishDirectWrite, Exec.run_bind_ok (Exec.run_get h), hbuffer,
      Exec.run_bind_ok (store_ok hfits), Exec.run_bind_ok (Exec.run_modify _ _), hused]
    rw [hh₁, Exec.run_bind_ok hcall]
    rfl
  · have hstored : (h.stored r 0 (le64 x)).connectedWriteSession.queue =
        h.connectedWriteSession.queue := SendSession.queue_setMemory
    dsimp only
    rw [hqueue, hsession, acquired_stored, answer_stored, memory_stored hfits, hstored]

/-- Behind the prefix the pointer leads into the same region. -/
theorem of_add_into (hplaced : h.Placed) {offset : ℕ}
    (hadd : h.writeBuffer.buffer.add sizeofInt64 = .into (.sendRegion r) offset) :
    h.Targets ∧ offset = sizeofInt64 := by
  cases hbuffer : h.writeBuffer.buffer with
  | null =>
    rw [hbuffer] at hadd
    cases hadd
  | invalid =>
    rw [hbuffer] at hadd
    cases hadd
  | into region k =>
    obtain ⟨r', rfl, rfl⟩ := hplaced _ _ hbuffer
    rw [hbuffer, Pointer.add, Nat.zero_add] at hadd
    cases hadd
    exact ⟨⟨r, hbuffer⟩, rfl⟩

/-- Without a send region, a store of the prefix leaves what there is. -/
theorem run_finishDirectWrite_outOfBounds (hplaced : h.Placed) (hno : ¬ h.Targets) (x : ℤ) :
    (finishDirectWrite x).run h = .error .outOfBounds := by
  have hheader : (le64 x).length = sizeofInt64 := length_le64_eq_sizeof x
  have hstore : (store h.writeBuffer.buffer (le64 x)).run h = .error .outOfBounds := by
    refine store_outOfBounds ?_ ?_
    · rw [← List.length_pos_iff, hheader, sizeofInt64]
      omega
    · rintro ⟨r, offset, hbuffer, -⟩
      obtain ⟨r', hr', rfl⟩ := hplaced _ _ hbuffer
      exact hno ⟨r, hbuffer⟩
  rw [finishDirectWrite, Exec.run_bind_ok (Exec.run_get h), Exec.run_bind_error hstore]

/-- The direct path with the message in a region: it queues the frame, or nothing. -/
theorem run_directWriteEncoded_fits {result : EasyRdmaResult}
    (hacquire : acquireSendRegion.run h = .ok (result, h₀))
    (hbuffer : h₀.writeBuffer.buffer = .into (.sendRegion r) 0)
    (hfits : sizeofInt64 + (serializedBytes bytes).length ≤ size) :
    ∃ h', (directWriteEncoded methods bytes).run h = .ok ((bytes.length : ℤ), h') ∧
      (bytes.length < 2 ^ 31 → h'.connectedWriteSession.queue =
        if r ∈ h₀.connectedWriteSession.acquired ∧ h₀.connectedWriteSession.answer = .success then
          h₀.connectedWriteSession.queue ++ [⟨r, frame bytes⟩]
        else h₀.connectedWriteSession.queue) := by
  have hbuffer' : (h₀.stored r sizeofInt64 (serializedBytes bytes)).writeBuffer.buffer =
      .into (.sendRegion r) 0 := hbuffer
  obtain ⟨success, h', hfinish, hqueue⟩ :=
    run_finishDirectWrite (by omega) bytes.length hbuffer' rfl
  refine ⟨h', ?_, fun hsmall => ?_⟩
  · rw [run_directWriteEncoded hacquire, hbuffer, Pointer.add, Nat.zero_add,
      Exec.run_bind_ok (store_ok hfits), Exec.run_map_ok _ hfinish]
  · have hused : (((bytes.length : ℤ) + sizeofInt64) % 2 ^ 64).toNat =
        sizeofInt64 + bytes.length := by
      rw [sizeofInt64, Int.emod_eq_of_lt (by omega) (by omega)]
      omega
    have hheader : (le64 bytes.length).length = sizeofInt64 := length_le64_eq_sizeof _
    have hlength := h₀.connectedWriteSession.length_memory r
    have hstored : (h₀.stored r sizeofInt64 bytes).connectedWriteSession.queue =
        h₀.connectedWriteSession.queue := SendSession.queue_setMemory
    rw [serializedBytes_eq hsmall] at hfits hqueue
    rw [hused, acquired_stored, answer_stored, hstored, memory_stored hfits] at hqueue
    have htake := take_overlay bytes.length (le64 bytes.length)
      (overlay sizeofInt64 bytes (h₀.connectedWriteSession.memory r))
    rw [hheader, slice_overlay (by omega), ← frame] at htake
    rw [hqueue, htake]
    simp only [hfits, and_true]

/-- The direct path stays in a send region exactly when it has one and the frame fits, or waits for
one. -/
theorem directWriteEncoded_inBounds_iff (hplaced : h.Placed) (hsize : sizeofInt64 ≤ size) :
    (directWriteEncoded methods bytes).run h ≠ .error .outOfBounds ↔
      h.Waits ∨ h.HasRegion ∧ sizeofInt64 + (serializedBytes bytes).length ≤ size := by
  rcases acquire_placed hplaced with hw | ⟨hw, result, h₀, hacquire, hacquired⟩
  · rw [run_directWriteEncoded_waits hw]
    simp [hw]
  · rw [← hacquired.targets]
    simp only [hw, false_or]
    constructor
    · intro hne
      by_contra hno
      refine hne ?_
      rw [run_directWriteEncoded hacquire]
      by_cases hbytes : serializedBytes bytes = []
      · have hnone : ¬ h₀.Targets := fun htargets => hno ⟨htargets, by rw [hbytes]; exact hsize⟩
        have hfinish := run_finishDirectWrite_outOfBounds hacquired.placed hnone bytes.length
        have hstore : (store (h₀.writeBuffer.buffer.add sizeofInt64) []).run h₀ =
            .ok (⟨⟩, h₀) := rfl
        rw [hbytes, Exec.run_bind_ok hstore, Exec.run_map_error _ hfinish]
      · refine Exec.run_bind_error (store_outOfBounds hbytes ?_)
        rintro ⟨r, offset, hadd, hfits⟩
        obtain ⟨htargets, rfl⟩ := of_add_into hacquired.placed hadd
        exact hno ⟨htargets, hfits⟩
    · rintro ⟨⟨r, hbuffer⟩, hfits⟩
      obtain ⟨h', hrun, -⟩ := run_directWriteEncoded_fits hacquire hbuffer hfits
      rw [hrun]
      simp

/-- A call that returns has queued the frame exactly when the program has the region and
easyrdma takes it. -/
theorem directWriteEncoded_queued_iff (hplaced : h.Placed) (hsize : sizeofInt64 ≤ size)
    (hsmall : bytes.length < 2 ^ 31) {v : ℤ}
    (hrun : (directWriteEncoded methods bytes).run h = .ok (v, h')) :
    (∃ r, h'.connectedWriteSession.queue = h.connectedWriteSession.queue ++ [⟨r, frame bytes⟩]) ↔
      ((∃ r, h.Acquires r) ∨ h.connectedWriteSession.answer ≠ .success ∧ h.OwnsWriteBuffer) ∧
        h.connectedWriteSession.answered.answer = .success := by
  have hreturned : (directWriteEncoded methods bytes).run h ≠ .error .outOfBounds := by
    rw [hrun]
    simp
  have hin := (directWriteEncoded_inBounds_iff hplaced hsize).mp hreturned
  rcases acquire_placed hplaced with hw | ⟨hw, result, h₀, hacquire, hacquired⟩
  · rw [run_directWriteEncoded_waits hw] at hrun
    cases hrun
  · obtain ⟨htargets, hfits⟩ := hin.resolve_left hw
    obtain ⟨r, hbuffer⟩ := hacquired.targets.mpr htargets
    obtain ⟨h₁, hrun₁, hqueue⟩ := run_directWriteEncoded_fits hacquire hbuffer hfits
    rw [hrun] at hrun₁
    cases hrun₁
    have howns : h₀.OwnsWriteBuffer ↔ r ∈ h₀.connectedWriteSession.acquired := by
      constructor
      · rintro ⟨r', hr', hbuffer'⟩
        rw [hbuffer] at hbuffer'
        cases hbuffer'
        exact hr'
      · intro hr
        exact ⟨r, hr, hbuffer⟩
    rw [← hacquired.owns, howns, ← hacquired.answer, hqueue hsmall, hacquired.queue]
    split_ifs with htaken
    · exact iff_of_true ⟨r, rfl⟩ htaken
    · refine iff_of_false ?_ htaken
      rintro ⟨r', hsame⟩
      simp at hsame

end RdmaSidebandDataImp

/-! ### The four transports -/

namespace Transport

/-- The bytes of a message that the buffer of a transport has room for. Over shared memory
`WriteSidebandMessage` stores no prefix, so the message may take the whole segment. -/
def room (size : ℕ) : Transport → ℕ
  | rdma => size - sizeofInt64
  | _ => size

/-- The buffers of the transport, as far as it has them yet, are of `size` bytes. For the double
buffer only the current one is looked at. -/
def Sized (size : ℕ) : (T : Transport) → T.Derived size → Prop
  | sharedMemory, w => SharedMemorySidebandData.OfSize size w
  | doubleBufferedSharedMemory, w =>
    SharedMemorySidebandData.OfSize size (DoubleBufferedSharedMemorySidebandData.currentBuffer w)
  | sockets, _ => True
  | rdma, h => RdmaSidebandDataImp.Placed h

/-- The transport waits before it has a buffer for a message. Only RDMA does: its acquire waits
until a region is free. -/
def Waits (size : ℕ) : (T : Transport) → T.Derived size → Prop
  | rdma, h => RdmaSidebandDataImp.Waits h
  | _, _ => False

/-- The transport has a buffer for a message, or needs none: the sockets use the serialize
buffer, and where nothing is stored no pointer is looked at. -/
def Gives (size : ℕ) (bytes : Bytes) : (T : Transport) → T.Derived size → Prop
  | sharedMemory, w => serializedBytes bytes = [] ∨ SharedMemorySidebandData.HasSegment w
  | doubleBufferedSharedMemory, w => serializedBytes bytes = [] ∨
    SharedMemorySidebandData.HasSegment (DoubleBufferedSharedMemorySidebandData.currentBuffer w)
  | sockets, _ => True
  | rdma, h => RdmaSidebandDataImp.Waits h ∨ RdmaSidebandDataImp.HasRegion h

end Transport

/-- A call that writes a message stays in its buffer, and refuses what does not fit. Refusing is
to return `0` with the transport as it was. -/
structure StaysInside (size : ℕ) (T : Transport) (bytes : Bytes)
    (o : SidebandData (T.Derived size)) : Prop where
  /-- No byte is stored outside the buffer. -/
  inBounds : (writeEncoded (T.methods size) bytes).run o ≠ .error .outOfBounds
  /-- A message that does not fit is reported, and nothing has happened to the transport. -/
  refused : T.room size < bytes.length →
    ∃ o', (writeEncoded (T.methods size) bytes).run o = .ok (0, o') ∧ o'.derived = o.derived

section Transports

variable {size : ℕ} {T : Transport} {bytes : Bytes} {o : SidebandData (T.Derived size)}

theorem call_inBounds_iff {δ α : Type} {x : Exec δ α} {o : SidebandData δ} :
    (call x).run o ≠ .error .outOfBounds ↔ x.run o.derived ≠ .error .outOfBounds := by
  cases hx : x.run o.derived with
  | error e =>
    rw [SidebandData.run_call_error hx]
    simp
  | ok r =>
    rw [SidebandData.run_call_ok hx]
    simp

theorem SocketSidebandData.supportsDirectReadWrite_methods :
    methods.supportsDirectReadWrite = false := rfl

/-- `WriteLengthPrefixed` of a socket stores nothing. -/
theorem SocketSidebandData.writeLengthPrefixed_inBounds (h : SocketSidebandData) (p : Bytes) :
    (writeLengthPrefixed p).run h ≠ .error .outOfBounds := by
  by_cases hwaits : sendFrame p h.connection.sends = .waits
  · rw [writeLengthPrefixed_blocked hwaits]
    simp
  · obtain ⟨result, h', hrun⟩ := writeLengthPrefixed_returns hwaits
    rw [hrun]
    simp

/-- A socket's message stays in the serialize buffer exactly when it fits. -/
theorem sockets_inBounds_iff {o : SidebandData SocketSidebandData} (hready : Ready size o) :
    (writeEncoded SocketSidebandData.methods bytes).run o ≠ .error .outOfBounds ↔
      bytes.length ≤ size := by
  have hlength := hready.length_allocated
  constructor
  · intro hne
    by_contra hlong
    exact hne (run_writeEncoded_copy_outOfBounds rfl (by omega))
  · intro hfits
    have hcopy : bytes.length ≤ o.allocated.length := by omega
    obtain ⟨buffer, payload, -, -, hrun⟩ :=
      run_writeEncoded_copy (o := o) SocketSidebandData.supportsDirectReadWrite_methods hcopy
    have hpayload := o.derived.writeLengthPrefixed_inBounds payload
    rw [hrun]
    cases hcall : (SocketSidebandData.methods.writeLengthPrefixed payload).run o.derived with
    | error e =>
      rintro ⟨⟩
      exact hpayload hcall
    | ok r => simp [Except.map]

/-- A message that fits stays in its buffer exactly when the transport has one to give. -/
theorem writeEncoded_inBounds_iff (hsize : sizeofInt64 ≤ size) (hready : Ready size o)
    (hsized : T.Sized size o.derived) (hfits : bytes.length ≤ T.room size) :
    (writeEncoded (T.methods size) bytes).run o ≠ .error .outOfBounds ↔
      T.Gives size bytes o.derived := by
  have hle := length_serializedBytes_le bytes
  cases T with
  | sockets => exact iff_of_true ((sockets_inBounds_iff hready).mpr hfits) trivial
  | sharedMemory =>
    have hfits : bytes.length ≤ size := hfits
    rw [writeEncoded_direct rfl, call_inBounds_iff]
    refine (SharedMemorySidebandData.directWriteEncoded_inBounds_iff hsized).trans ?_
    simp only [Transport.Gives, hle.trans hfits, and_true]
  | doubleBufferedSharedMemory =>
    have hfits : bytes.length ≤ size := hfits
    rw [writeEncoded_direct rfl, call_inBounds_iff]
    refine DoubleBufferedSharedMemorySidebandData.directWriteEncoded_inBounds_iff.trans ?_
    refine (SharedMemorySidebandData.directWriteEncoded_inBounds_iff hsized).trans ?_
    simp only [Transport.Gives, hle.trans hfits, and_true]
  | rdma =>
    have hfits : bytes.length ≤ size - sizeofInt64 := hfits
    rw [writeEncoded_direct rfl, call_inBounds_iff]
    refine (RdmaSidebandDataImp.directWriteEncoded_inBounds_iff hsized hsize).trans ?_
    have hfits' : sizeofInt64 + (serializedBytes bytes).length ≤ size := by omega
    simp only [Transport.Gives, hfits', and_true]

/-- Any other message below 2 GiB leaves its buffer, unless the transport waits. -/
theorem writeEncoded_inBounds_iff_waits (hsize : sizeofInt64 ≤ size) (hready : Ready size o)
    (hsized : T.Sized size o.derived) (hsmall : bytes.length < 2 ^ 31)
    (hlong : T.room size < bytes.length) :
    (writeEncoded (T.methods size) bytes).run o ≠ .error .outOfBounds ↔
      T.Waits size o.derived := by
  cases T with
  | sockets =>
    have hlong : size < bytes.length := hlong
    refine (sockets_inBounds_iff hready).trans (iff_of_false ?_ id)
    omega
  | sharedMemory =>
    rw [writeEncoded_direct rfl, call_inBounds_iff]
    exact iff_of_false (SharedMemorySidebandData.not_inBounds_of_long hsized hsmall hlong) id
  | doubleBufferedSharedMemory =>
    rw [writeEncoded_direct rfl, call_inBounds_iff]
    refine DoubleBufferedSharedMemorySidebandData.directWriteEncoded_inBounds_iff.trans ?_
    exact iff_of_false (SharedMemorySidebandData.not_inBounds_of_long hsized hsmall hlong) id
  | rdma =>
    have hlong : size - sizeofInt64 < bytes.length := hlong
    rw [writeEncoded_direct rfl, call_inBounds_iff]
    refine (RdmaSidebandDataImp.directWriteEncoded_inBounds_iff hsized hsize).trans ?_
    have hno : ¬ sizeofInt64 + bytes.length ≤ size := by omega
    simp only [Transport.Waits, serializedBytes_eq hsmall, hno, and_false, or_false]

/-- **Outgoing messages.** A call stays in its buffer and refuses what does not fit there,
exactly when the message fits and the transport has a buffer to give. Nothing compares the sizes,
so no message is refused. -/
theorem staysInside_iff (hsize : sizeofInt64 ≤ size) (hready : Ready size o)
    (hsized : T.Sized size o.derived) : StaysInside size T bytes o ↔
      bytes.length ≤ T.room size ∧ T.Gives size bytes o.derived := by
  constructor
  · rintro ⟨hin, hrefused⟩
    have hfits : bytes.length ≤ T.room size := by
      by_contra hlong
      obtain ⟨o', hrun, -⟩ := hrefused (not_le.mp hlong)
      -- the call returns the size of the message, whatever happens to it
      have hzero := yields_writeEncoded o 0 o' hrun
      omega
    exact ⟨hfits, (writeEncoded_inBounds_iff hsize hready hsized hfits).mp hin⟩
  · rintro ⟨hfits, hgives⟩
    exact ⟨(writeEncoded_inBounds_iff hsize hready hsized hfits).mpr hgives,
      fun hlong => absurd hfits (not_le.mpr hlong)⟩

end Transports

/-- A new RDMA handle with two free send regions of sixteen bytes, whose calls of easyrdma have
these results. -/
def newRdma (results : List EasyRdmaResult) : SidebandData (Transport.rdma.Derived 16) :=
  SidebandData.new 16 (RdmaSidebandDataImp.connected results).handle

theorem ready_newRdma (results : List EasyRdmaResult) : Ready 16 (newRdma results) :=
  ⟨rfl, .inl rfl⟩

theorem sized_newRdma (results : List EasyRdmaResult) :
    Transport.rdma.Sized 16 (newRdma results).derived := by
  intro region offset h
  cases h

/-- Eight bytes are the most that a region of sixteen holds. -/
theorem staysInside_iff_eight : StaysInside 16 .rdma (List.replicate 8 0) (newRdma []) := by
  refine (staysInside_iff (by decide) (ready_newRdma _) (sized_newRdma _)).mpr
    ⟨by decide, .inr (.inl ?_)⟩
  exact ⟨0, rfl, rfl⟩

/-- Nine bytes are stored behind the prefix all the same. -/
theorem not_staysInside_nine : ¬ StaysInside 16 .rdma (List.replicate 9 0) (newRdma []) := by
  rintro ⟨hin, -⟩
  have hwaits := (writeEncoded_inBounds_iff_waits (by decide) (ready_newRdma _)
    (sized_newRdma _) (by decide) (by decide)).mp hin
  cases hwaits.2

end Sideband
