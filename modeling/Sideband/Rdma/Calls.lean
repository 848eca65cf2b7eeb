import Sideband.Rdma.Assumptions
import Sideband.Rdma.Rdma

/-!
# The RDMA calls while easyrdma does not fail

Each call is a change of the region that is passed on between the calls: acquired (`began`),
filled (`stored`), in flight (`queued`); delivered and held (`received`), free again
(`released`).
-/

namespace Sideband

open Foundation

/-! ### The writer's calls -/

namespace RdmaSidebandDataImp

variable {size : ℕ} {M : Type} {codec : MessageLite M} {h : RdmaSidebandDataImp size} {r : Fin 2}

/-- The handle after a send region was acquired, with `_writeBuffer` on it and nothing stored
yet. -/
def began (r : Fin 2) (h : RdmaSidebandDataImp size) : RdmaSidebandDataImp size :=
  { h with
    connectedWriteSession := h.connectedWriteSession.acquire r
    writeBuffer := { buffer := .into (.sendRegion r) 0 } }

/-- The handle after bytes were stored in a send region. -/
def stored (r : Fin 2) (offset : ℕ) (bytes : Bytes) (h : RdmaSidebandDataImp size) :
    RdmaSidebandDataImp size :=
  { h with
    connectedWriteSession := h.connectedWriteSession.setMemory r
      (overlay offset bytes (h.connectedWriteSession.memory r)) }

/-- The handle after the first `n` bytes of a send region were queued. `_writeBuffer` still
points to the region. -/
def queued (r : Fin 2) (n : ℕ) (h : RdmaSidebandDataImp size) : RdmaSidebandDataImp size :=
  { h with
    connectedWriteSession := h.connectedWriteSession.enqueue r n
    writeBuffer := ⟨.into (.sendRegion r) 0, n⟩ }

/-- `BeginDirectWrite` acquires a region and points behind the prefix. -/
theorem beginDirectWrite_ok (hresults : h.connectedWriteSession.results = [])
    (hpick : h.connectedWriteSession.pick = some r) :
    beginDirectWrite.run h = .ok (.into (.sendRegion r) sizeofInt64, h.began r) := by
  have hacquire : (onWriteSession SendSession.acquireSendRegion).run h =
      .ok ((.success, some { buffer := .into (.sendRegion r) 0 }),
        { h with connectedWriteSession := h.connectedWriteSession.acquire r }) :=
    Exec.run_zoom_ok (SendSession.run_acquireSendRegion hresults hpick)
  have hregion : acquireSendRegion.run h = .ok (.success, h.began r) := by
    rw [acquireSendRegion, Exec.run_bind_ok hacquire]
    rfl
  rw [beginDirectWrite, Exec.run_bind_ok hregion]
  rfl

/-- With both regions in use, `BeginDirectWrite` waits. -/
theorem beginDirectWrite_blocked (hresults : h.connectedWriteSession.results = [])
    (hpick : h.connectedWriteSession.pick = none) :
    beginDirectWrite.run h = .error .blocked := by
  have hacquire : (onWriteSession SendSession.acquireSendRegion).run h = .error .blocked :=
    Exec.run_zoom_error (SendSession.run_acquireSendRegion_blocked hresults hpick)
  have hregion : acquireSendRegion.run h = .error .blocked := by
    rw [acquireSendRegion, Exec.run_bind_error hacquire]
  rw [beginDirectWrite, Exec.run_bind_error hregion]

/-- A store inside a send region. -/
theorem store_ok {offset : ℕ} {bytes : Bytes} (hfits : offset + bytes.length ≤ size) :
    (store (.into (.sendRegion r) offset) bytes).run h = .ok (⟨⟩, h.stored r offset bytes) := by
  by_cases hbytes : bytes = []
  · subst hbytes
    rw [stored, overlay_nil, SendSession.setMemory_self]
    rfl
  · have hstore : storeAt offset bytes (h.connectedWriteSession.memory r) =
        some (overlay offset bytes (h.connectedWriteSession.memory r)) :=
      storeAt_eq_some (hfits.trans_eq (h.connectedWriteSession.length_memory r).symm)
    rw [store, if_neg hbytes, Exec.run_bind_ok (Exec.run_get h), hstore,
      Exec.run_bind_ok (Exec.run_checked_some _ h)]
    rfl

/-- `FinishDirectWrite` puts the prefix in front and the region in flight. -/
theorem finishDirectWrite_ok {n : ℕ} (hresults : h.connectedWriteSession.results = [])
    (hbuffer : h.writeBuffer.buffer = .into (.sendRegion r) 0)
    (hacquired : r ∈ h.connectedWriteSession.acquired) (hn : n + sizeofInt64 ≤ size)
    (hlt : n + sizeofInt64 < 2 ^ 64) :
    (finishDirectWrite n).run h =
      .ok (true, (h.stored r 0 (le64 n)).queued r (n + sizeofInt64)) := by
  have hused : (((n : ℤ) + sizeofInt64) % 2 ^ 64).toNat = n + sizeofInt64 := by
    rw [Int.emod_eq_of_lt (by omega) (by omega)]
    omega
  have hheader : (le64 n).length = sizeofInt64 := length_le64_eq_sizeof n
  have hstore := store_ok (h := h) (r := r) (show 0 + (le64 n).length ≤ size by omega)
  have hzoom : queueBufferRegion.run { h.stored r 0 (le64 n) with
      writeBuffer := ⟨.into (.sendRegion r) 0, n + sizeofInt64⟩ } =
      .ok (.success, (h.stored r 0 (le64 n)).queued r (n + sizeofInt64)) := by
    rw [queueBufferRegion, Exec.run_bind_ok (Exec.run_get _)]
    refine Exec.run_zoom_ok (SendSession.run_queueBufferRegion ?_ ?_ hn)
    · exact SendSession.results_setMemory.trans hresults
    · rw [stored, SendSession.acquired_setMemory]
      exact hacquired
  rw [finishDirectWrite, Exec.run_bind_ok (Exec.run_get h), hbuffer, Exec.run_bind_ok hstore,
    Exec.run_bind_ok (Exec.run_modify _ _), hused]
  have hsame : { h.stored r 0 (le64 n) with
      writeBuffer.usedSize := n + sizeofInt64 } = { h.stored r 0 (le64 n) with
      writeBuffer := ⟨.into (.sendRegion r) 0, n + sizeofInt64⟩ } := by
    rw [← hbuffer]
    rfl
  rw [hsame, Exec.run_bind_ok hzoom]
  rfl

/-! ### The reader's calls -/

section Reader

variable {e : Filled} {rest : List Filled}

/-- The handle after a received region was acquired. -/
def received (e : Filled) (h : RdmaSidebandDataImp size) : RdmaSidebandDataImp size :=
  { h with
    connectedReadSession := h.connectedReadSession.acquire
    readBuffer := ⟨.into (.receiveRegion e.region) 0, e.bytes.length⟩ }

/-- The loop of `Read` takes the oldest delivered region. -/
theorem acquireLoop_ok (hresults : h.connectedReadSession.results = [])
    (hdelivered : h.connectedReadSession.delivered = e :: rest) :
    (acquireLoop h.connectedReadSession.results).run { h with readBuffer := {} } =
      .ok (.success, h.received e) := by
  have hcall : (onReadSession ReceiveSession.acquireReceivedRegion).run
      { h with readBuffer := {} } =
      .ok ((.success, some ⟨.into (.receiveRegion e.region) 0, e.bytes.length⟩),
        { h with connectedReadSession := h.connectedReadSession.acquire, readBuffer := {} }) :=
    Exec.run_zoom_ok (ReceiveSession.run_acquireReceivedRegion hresults hdelivered)
  have hacquire : acquireReceivedRegion.run { h with readBuffer := {} } =
      .ok (.success, h.received e) := by
    rw [acquireReceivedRegion, Exec.run_bind_ok hcall]
    rfl
  rw [hresults]
  exact hacquire

/-- A read without a buffer acquires the oldest delivered region and holds it. -/
theorem read_none_ok (hresults : h.connectedReadSession.results = [])
    (hdelivered : h.connectedReadSession.delivered = e :: rest) :
    (read none 0).run h = .ok (⟨true, none, none⟩, h.received e) := by
  rw [read, Exec.run_bind_ok (Exec.run_modify _ h), Exec.run_bind_ok (Exec.run_get _),
    Exec.run_bind_ok (acquireLoop_ok hresults hdelivered)]
  rfl

/-- With nothing delivered, a read waits. -/
theorem beginDirectReadLengthPrefixed_blocked (hresults : h.connectedReadSession.results = [])
    (hdelivered : h.connectedReadSession.delivered = []) :
    beginDirectReadLengthPrefixed.run h = .error .blocked := by
  have hcall : (onReadSession ReceiveSession.acquireReceivedRegion).run
      { h with readBuffer := {} } = .error .blocked :=
    Exec.run_zoom_error (ReceiveSession.run_acquireReceivedRegion_blocked hresults hdelivered)
  have hloop : (acquireLoop h.connectedReadSession.results).run { h with readBuffer := {} } =
      .error .blocked := by
    rw [hresults]
    change acquireReceivedRegion.run _ = _
    rw [acquireReceivedRegion, Exec.run_bind_error hcall]
  have hread : (read none 0).run h = .error .blocked := by
    rw [read, Exec.run_bind_ok (Exec.run_modify _ h), Exec.run_bind_ok (Exec.run_get _),
      Exec.run_bind_error hloop]
  rw [beginDirectReadLengthPrefixed, Exec.run_bind_error hread]

/-- A load inside a received region. -/
theorem load_ok {offset n : ℕ} (hfits : offset + n ≤ size) :
    (load (.into (.receiveRegion r) offset) n).run h =
      .ok (slice offset n (h.connectedReadSession.memory r), h) := by
  by_cases hn : n = 0
  · subst hn
    rw [slice_zero]
    rfl
  · have hload : loadAt offset n (h.connectedReadSession.memory r) =
        some (slice offset n (h.connectedReadSession.memory r)) :=
      loadAt_eq_some (hfits.trans_eq (h.connectedReadSession.length_memory r).symm)
    rw [load, if_neg hn, Exec.run_bind_ok (Exec.run_get h), hload, Exec.run_checked_some]

theorem load_outOfBounds {offset n : ℕ} (hn : n ≠ 0) (h' : size < offset + n) :
    (load (.into (.receiveRegion r) offset) n).run h = .error .outOfBounds := by
  have hload : loadAt offset n (h.connectedReadSession.memory r) = none :=
    loadAt_eq_none ((h.connectedReadSession.length_memory r).trans_lt h')
  rw [load, if_neg hn, Exec.run_bind_ok (Exec.run_get h), hload]
  rfl

/-- `BeginDirectReadLengthPrefixed` holds the oldest delivered region, takes its first eight
bytes for the length and points behind them. -/
theorem beginDirectReadLengthPrefixed_ok (hresults : h.connectedReadSession.results = [])
    (hdelivered : h.connectedReadSession.delivered = e :: rest) (hsize : sizeofInt64 ≤ size) :
    beginDirectReadLengthPrefixed.run h = .ok ((.into (.receiveRegion e.region) sizeofInt64,
      some (int64OfLe ((h.connectedReadSession.memory e.region).take sizeofInt64))),
      h.received e) := by
  have hload := load_ok (h := h.received e) (r := e.region) (show 0 + sizeofInt64 ≤ size by omega)
  rw [beginDirectReadLengthPrefixed, Exec.run_bind_ok (read_none_ok hresults hdelivered),
    if_pos rfl, Exec.run_bind_ok (Exec.run_get _)]
  have hmemory : (h.received e).connectedReadSession.memory = h.connectedReadSession.memory :=
    ReceiveSession.memory_acquire
  rw [hmemory, slice, List.drop_zero] at hload
  refine (Exec.run_bind_ok hload).trans ?_
  rw [Exec.run_pure, received, Pointer.add, Nat.zero_add]

/-- The handle after a received region was released. `_readBuffer` still points to it, until the
next read. -/
def released (r : Fin 2) (h : RdmaSidebandDataImp size) : RdmaSidebandDataImp size :=
  { h with connectedReadSession := h.connectedReadSession.release r }

/-- A release returns whatever easyrdma says. -/
theorem releaseReceivedBufferRegion_total (h : RdmaSidebandDataImp size) :
    ∃ result h', releaseReceivedBufferRegion.run h = .ok (result, h') := by
  obtain ⟨result, t, hrelease⟩ :
      ∃ result t, (ReceiveSession.releaseReceivedBufferRegion h.readBuffer).run
        h.connectedReadSession = .ok (result, t) :=
    ReceiveSession.releaseReceivedBufferRegion_total h.readBuffer _
  refine ⟨result, { h with connectedReadSession := t }, ?_⟩
  rw [releaseReceivedBufferRegion, Exec.run_bind_ok (Exec.run_get h)]
  exact Exec.run_zoom_ok hrelease

/-- `FinishDirectRead` returns whatever easyrdma says. -/
theorem finishDirectRead_total (h : RdmaSidebandDataImp size) :
    ∃ h', finishDirectRead.run h = .ok (true, h') := by
  obtain ⟨result, t, hrelease⟩ := releaseReceivedBufferRegion_total h
  exact ⟨t, by rw [finishDirectRead, Exec.run_bind_ok hrelease, Exec.run_pure]⟩

/-- `FinishDirectRead` releases the held region. -/
theorem finishDirectRead_ok (hresults : h.connectedReadSession.results = [])
    (hbuffer : h.readBuffer.buffer = .into (.receiveRegion r) 0)
    (hheld : r ∈ h.connectedReadSession.held.map Filled.region) :
    finishDirectRead.run h = .ok (true, h.released r) := by
  have hrelease : releaseReceivedBufferRegion.run h = .ok (.success, h.released r) := by
    rw [releaseReceivedBufferRegion, Exec.run_bind_ok (Exec.run_get h)]
    refine Exec.run_zoom_ok ?_
    obtain ⟨usedSize, hregion⟩ : ∃ n, h.readBuffer = ⟨.into (.receiveRegion r) 0, n⟩ :=
      ⟨h.readBuffer.usedSize, by rw [← hbuffer]⟩
    rw [hregion]
    exact ReceiveSession.run_releaseReceivedBufferRegion hresults hheld usedSize
  rw [finishDirectRead, Exec.run_bind_ok hrelease, Exec.run_pure]

/-- The handle with the results of the coming calls on its read session. -/
def withResults (results : List EasyRdmaResult) (h : RdmaSidebandDataImp size) :
    RdmaSidebandDataImp size :=
  { h with connectedReadSession.results := results }

/-- A timeout goes round the loop of `Read` and changes nothing. -/
theorem acquireLoop_timeouts (k : ℕ) (results : List EasyRdmaResult)
    (h : RdmaSidebandDataImp size) :
    (acquireLoop (List.replicate k .timeout ++ results)).run
        (h.withResults (List.replicate k .timeout ++ results)) =
      (acquireLoop results).run (h.withResults results) := by
  induction k with
  | zero => rfl
  | succ k ih =>
    rw [List.replicate_succ, List.cons_append, acquireLoop]
    refine Eq.trans ?_ ih
    have hacquire : acquireReceivedRegion.run
        (h.withResults (.timeout :: (List.replicate k .timeout ++ results))) =
        .ok (.timeout, h.withResults (List.replicate k .timeout ++ results)) := rfl
    rw [Exec.run_bind_ok hacquire]

/-- So a read that meets timeouts goes on as if it had not. -/
theorem read_none_timeouts (k : ℕ) (results : List EasyRdmaResult) (h : RdmaSidebandDataImp size) :
    (read none 0).run (h.withResults (List.replicate k .timeout ++ results)) =
      (read none 0).run (h.withResults results) := by
  obtain ⟨h', hh'⟩ : ∃ h' : RdmaSidebandDataImp size, { h with readBuffer := {} } = h' := ⟨_, rfl⟩
  have hloop := acquireLoop_timeouts k results h'
  rw [read, Exec.run_bind_ok (Exec.run_modify _ _), Exec.run_bind_ok (Exec.run_get _),
    Exec.run_bind_ok (Exec.run_modify _ _), Exec.run_bind_ok (Exec.run_get _)]
  rw [← hh'] at hloop
  rw [StateT.run_bind, StateT.run_bind]
  exact congrArg (· >>= _) hloop

/-- So does a whole read of a message. -/
theorem directRead_timeouts {M : Type} (codec : MessageLite M) (k : ℕ)
    (results : List EasyRdmaResult) (h : RdmaSidebandDataImp size) :
    (directRead codec methods).run (h.withResults (List.replicate k .timeout ++ results)) =
      (directRead codec methods).run (h.withResults results) := by
  have hread := read_none_timeouts k results h
  have hbegin : beginDirectReadLengthPrefixed.run
      (h.withResults (List.replicate k .timeout ++ results)) =
        beginDirectReadLengthPrefixed.run (h.withResults results) := by
    rw [beginDirectReadLengthPrefixed, StateT.run_bind, StateT.run_bind, hread]
  change (beginDirectReadLengthPrefixed >>= _).run _ = (beginDirectReadLengthPrefixed >>= _).run _
  rw [StateT.run_bind, StateT.run_bind, hbegin]

/-- A read of a message takes the frame in the oldest delivered region and frees the region. -/
theorem directRead_ok {M : Type} (codec : MessageLite M) {body : Bytes}
    (hresults : h.connectedReadSession.results = [])
    (hdelivered : h.connectedReadSession.delivered = e :: rest)
    (hframe : (h.connectedReadSession.memory e.region).take (frame body).length = frame body)
    (hbody : body.length < 2 ^ 31) :
    (directRead codec methods).run h =
      .ok (codec.parse body, (h.received e).released e.region) := by
  obtain ⟨hle, hheader, hpayload⟩ := of_take_frame hframe
  rw [ReceiveSession.length_memory] at hle
  have hbegin := beginDirectReadLengthPrefixed_ok hresults hdelivered (by omega)
  rw [hheader, int64OfLe_le64_natCast (by omega)] at hbegin
  obtain ⟨n, hn⟩ : ∃ n : ℤ, (body.length : ℤ) = n := ⟨_, rfl⟩
  have hexact : toInt32 n = body.length := by
    rw [← hn]
    exact toInt32_of_range (by omega) (by omega)
  have hload : (methods.load (.into (.receiveRegion e.region) sizeofInt64) (toInt32 n).toNat).run
      (h.received e) = .ok (body, h.received e) := by
    rw [hexact, Int.toNat_natCast]
    refine (load_ok hle).trans ?_
    have hmemory : (h.received e).connectedReadSession.memory = h.connectedReadSession.memory :=
      ReceiveSession.memory_acquire
    rw [hmemory, hpayload]
  have hparse : (parseFromArray codec methods (.into (.receiveRegion e.region) sizeofInt64) n).run
      (h.received e) = .ok (codec.parse body, h.received e) :=
    run_parseFromArray_ok (by rw [hexact]; omega) hload
  have hheld : e.region ∈ (h.received e).connectedReadSession.held.map Filled.region := by
    have hacquire := ReceiveSession.held_acquire hdelivered
    refine List.mem_map_of_mem (f := Filled.region) ?_
    exact hacquire ▸ List.mem_append_right _ (List.mem_singleton_self e)
  have hfinish : finishDirectRead.run (h.received e) =
      .ok (true, (h.received e).released e.region) :=
    finishDirectRead_ok (ReceiveSession.results_acquire.trans hresults) rfl hheld
  rw [hn] at hbegin
  change (beginDirectReadLengthPrefixed >>= _).run h = _
  rw [Exec.run_bind_ok hbegin]
  dsimp only [Option.getD_some]
  rw [Exec.run_bind_ok hparse]
  refine (Exec.run_bind_ok hfinish).trans ?_
  rw [Exec.run_pure]

/-- The session after a whole read. -/
theorem released_received (hheld : h.connectedReadSession.held = [])
    (hdelivered : h.connectedReadSession.delivered = e :: rest) :
    ((h.received e).released e.region).connectedReadSession.held = [] ∧
      ((h.received e).released e.region).connectedReadSession.delivered = rest ∧
      ((h.received e).released e.region).connectedReadSession.memory =
        h.connectedReadSession.memory ∧
      ((h.received e).released e.region).connectedReadSession.results =
        h.connectedReadSession.results := by
  refine ⟨?_, ReceiveSession.delivered_acquire hdelivered, ReceiveSession.memory_acquire,
    ReceiveSession.results_acquire⟩
  have hacquire := ReceiveSession.held_acquire hdelivered
  have hfilter : h.connectedReadSession.acquire.held.filter (fun e' => e'.region ≠ e.region) =
      [] := by
    rw [hacquire, hheld, List.nil_append]
    simp
  exact hfilter

/-- With nothing delivered, it waits. -/
theorem directRead_blocked {M : Type} (codec : MessageLite M)
    (hresults : h.connectedReadSession.results = [])
    (hdelivered : h.connectedReadSession.delivered = []) :
    (directRead codec methods).run h = .error .blocked :=
  Exec.run_bind_error (beginDirectReadLengthPrefixed_blocked hresults hdelivered)

end Reader

end RdmaSidebandDataImp

end Sideband
