import Sideband.Foundation.Machine
import Sideband.Rdma.Ownership

/-!
# The send side of an RDMA handle while easyrdma fails

* `disciplined_iff`: a call keeps the discipline of the send side exactly when it meets the
  condition `Sound`, one lemma for each call.
* `steps_owning`: a call that touches only the regions the program has leaves those in flight.
* `disciplined_of_reachable`: so in the runs of the handle (`sendingHandle`) what is in flight stays
  as it was queued.
-/

namespace Sideband

open Foundation

namespace RdmaSidebandDataImp

variable {size : ℕ} {h h' : RdmaSidebandDataImp size} {r : Fin 2} {op : SendOperation}

/-! ### One call -/

theorem acquired_stored {offset : ℕ} {bytes : Bytes} :
    (h.stored r offset bytes).connectedWriteSession.acquired = h.connectedWriteSession.acquired :=
  SendSession.acquired_setMemory

theorem answer_stored {offset : ℕ} {bytes : Bytes} :
    (h.stored r offset bytes).connectedWriteSession.answer = h.connectedWriteSession.answer :=
  congrArg (List.headD · _) SendSession.results_setMemory

theorem memory_stored {offset : ℕ} {bytes : Bytes} (hfits : offset + bytes.length ≤ size) :
    (h.stored r offset bytes).connectedWriteSession.memory r =
      overlay offset bytes (h.connectedWriteSession.memory r) := by
  refine SendSession.memory_setMemory ?_
  rw [length_overlay (by rw [SendSession.length_memory]; exact hfits), SendSession.length_memory]

/-- What a write comes to: a submit of a region that was filled. It is where the three calls that
queue a region meet. -/
structure Fills (h h₁ : RdmaSidebandDataImp size) (op : SendOperation) (r : Fin 2) (n : ℕ) :
    Prop where
  run : (through owning op).run h = (owning.submit n).run h₁
  acquired : r ∈ h₁.connectedWriteSession.acquired
  buffer : h₁.writeBuffer.buffer = .into (.sendRegion r) 0
  queue : h₁.connectedWriteSession.queue = h.connectedWriteSession.queue
  frame : h₁.Queues n → (h₁.connectedWriteSession.memory r).take n = frameIn h r op

/-- A call that is a submit of its frame keeps the discipline. -/
theorem Fills.disciplined {h₁ : RdmaSidebandDataImp size} {n : ℕ} (hfills : Fills h h₁ op r n) :
    Disciplined h op := by
  obtain ⟨success, h₂, hsubmit, hsuccess, hqueue⟩ := run_submit (n := n) hfills.acquired
    hfills.buffer
  have howning : (through owning op).run h = .ok (.result success, h₂) :=
    hfills.run.trans hsubmit
  have hne : (through owning op).run h ≠ .error .outOfBounds := by
    rw [howning]
    simp
  have hperform := (checks_through op).run_eq hne
  rw [howning] at hperform
  refine ⟨hne, ?_, ?_⟩
  · intro p h' hrun
    rw [hperform] at hrun
    cases hrun
  · intro h' hrun
    rw [hperform] at hrun
    cases hrun
    refine ⟨r, ?_⟩
    rw [hqueue rfl, hfills.queue, hfills.frame (hsuccess.mp rfl)]

/-- A call that neither yields a pointer nor reports success keeps the discipline if it touches
what it may. -/
theorem disciplined_of_quiet (hne : (through owning op).run h ≠ .error .outOfBounds)
    (hpointer : ∀ p h', (through owning op).run h ≠ .ok (.pointer p, h'))
    (hsuccess : ∀ h', (through owning op).run h ≠ .ok (.result true, h')) : Disciplined h op := by
  have hperform := (checks_through op).run_eq hne
  refine ⟨hne, ?_, ?_⟩
  · intro p h' hrun
    exact absurd (hperform.symm.trans hrun) (hpointer p h')
  · intro h' hrun
    exact absurd (hperform.symm.trans hrun) (hsuccess h')

theorem disciplined_of_blocked (hblocked : (through owning op).run h = .error .blocked) :
    Disciplined h op := by
  refine disciplined_of_quiet ?_ ?_ ?_
  · rw [hblocked]
    simp
  · rw [hblocked]
    simp
  · rw [hblocked]
    simp

/-- `Write` into the region it acquired. -/
theorem fills_write {bytes : Bytes} (hr : h.Acquires r) (hfits : bytes.length ≤ size) :
    Fills h ((h.answered.began r).stored r 0 bytes) (.write bytes) r bytes.length := by
  have hacquired : r ∈ (h.answered.began r).connectedWriteSession.acquired :=
    acquired_began hr ▸ List.mem_cons_self
  have hfits' : 0 + bytes.length ≤ size := by omega
  refine ⟨?_, ?_, rfl, ?_, ?_⟩
  · rw [through, Exec.run_bind_ok (run_acquireSendRegion_ok hr), if_pos rfl,
      Exec.run_bind_ok (Exec.run_get _)]
    exact Exec.run_bind_ok (owning_store_ok hacquired hfits')
  · rw [acquired_stored]
    exact hacquired
  · exact SendSession.queue_setMemory.trans SendSession.queue_acquire
  · intro _
    have htake := take_overlay 0 bytes (h.connectedWriteSession.memory r)
    rw [slice_zero, List.append_nil, Nat.add_zero] at htake
    have hmemory : (h.answered.began r).connectedWriteSession.memory =
        h.connectedWriteSession.memory := SendSession.memory_acquire
    rw [memory_stored hfits', hmemory, htake, frameIn]

/-- `WriteLengthPrefixed` into the region that `_writeBuffer` is after its acquire. -/
theorem fills_writeLengthPrefixed {bytes : Bytes} {result : EasyRdmaResult}
    {h₀ : RdmaSidebandDataImp size} (hrun : acquireSendRegion.run h = .ok (result, h₀))
    (hr : r ∈ h₀.connectedWriteSession.acquired)
    (hbuffer : h₀.writeBuffer.buffer = .into (.sendRegion r) 0)
    (hqueue : h₀.connectedWriteSession.queue = h.connectedWriteSession.queue)
    (hfits : sizeofInt64 + bytes.length ≤ size) :
    Fills h ((h₀.stored r 0 (le64 bytes.length)).stored r sizeofInt64 bytes)
      (.writeLengthPrefixed bytes) r (bytes.length + sizeofInt64) := by
  have hheader : (le64 bytes.length).length = sizeofInt64 := length_le64_eq_sizeof _
  have hfits' : 0 + (le64 bytes.length).length ≤ size := by omega
  have hr' : r ∈ (h₀.stored r 0 (le64 bytes.length)).connectedWriteSession.acquired := by
    rw [acquired_stored]
    exact hr
  refine ⟨?_, ?_, hbuffer, ?_, ?_⟩
  · rw [through, Exec.run_bind_ok hrun, Exec.run_bind_ok (Exec.run_get _), hbuffer,
      Exec.run_bind_ok (owning_store_ok hr hfits'), Pointer.add, Nat.zero_add,
      Exec.run_bind_ok (owning_store_ok hr' hfits)]
  · rw [acquired_stored]
    exact hr'
  · exact SendSession.queue_setMemory.trans (SendSession.queue_setMemory.trans hqueue)
  · intro _
    have hmemory : (h₀.connectedWriteSession.memory r).length = size :=
      h₀.connectedWriteSession.length_memory r
    rw [memory_stored hfits, memory_stored hfits']
    have happend : overlay (0 + (le64 bytes.length).length) bytes
        (overlay 0 (le64 bytes.length) (h₀.connectedWriteSession.memory r)) =
          overlay 0 (frame bytes) (h₀.connectedWriteSession.memory r) :=
      overlay_append (by omega)
    have htake := take_overlay 0 (frame bytes) (h₀.connectedWriteSession.memory r)
    rw [Nat.zero_add, hheader] at happend
    rw [slice_zero, List.append_nil, Nat.add_zero, length_frame, Nat.add_comm] at htake
    rw [happend]
    exact htake

/-- `FinishDirectWrite` of the region that `_writeBuffer` is. -/
theorem fills_finishDirectWrite {byteCount : Int64} (hr : r ∈ h.connectedWriteSession.acquired)
    (hbuffer : h.writeBuffer.buffer = .into (.sendRegion r) 0) (hsize : sizeofInt64 ≤ size)
    (hcount : 0 ≤ byteCount.toInt ∨ ¬ h.Queues (usedSize byteCount)) :
    Fills h (h.stored r 0 (le64 byteCount.toInt)) (.finishDirectWrite byteCount) r
      (usedSize byteCount) := by
  have hheader : (le64 byteCount.toInt).length = sizeofInt64 := length_le64_eq_sizeof _
  have hfits : 0 + (le64 byteCount.toInt).length ≤ size := by omega
  refine ⟨?_, ?_, hbuffer, SendSession.queue_setMemory, ?_⟩
  · rw [through, Exec.run_bind_ok (Exec.run_get _), hbuffer,
      Exec.run_bind_ok (owning_store_ok hr hfits)]
    rfl
  · rw [acquired_stored]
    exact hr
  · rintro ⟨hanswer, hle⟩
    rw [answer_stored] at hanswer
    have hnonneg : 0 ≤ byteCount.toInt := hcount.resolve_right fun hno => hno ⟨hanswer, hle⟩
    obtain ⟨n, hn⟩ := Int.eq_ofNat_of_zero_le hnonneg
    have hlt : byteCount.toInt < 2 ^ 63 := byteCount.toInt_lt
    have hused : usedSize byteCount = sizeofInt64 + n := by
      rw [usedSize, hn, Int.emod_eq_of_lt (by omega) (by rw [sizeofInt64]; omega)]
      omega
    have hpayload : (slice sizeofInt64 n (h.connectedWriteSession.memory r)).length = n := by
      refine length_slice ?_
      rw [SendSession.length_memory, ← hused]
      exact hle
    have htake := take_overlay n (le64 byteCount.toInt) (h.connectedWriteSession.memory r)
    rw [hheader] at htake
    rw [memory_stored hfits, hused, htake, frameIn, frame, hn, Int.toNat_natCast, hpayload]

theorem disciplined_write {bytes : Bytes} :
    Disciplined h (.write bytes) ↔ ((∃ r, h.Acquires r) → bytes.length ≤ size) := by
  constructor
  · rintro hdisciplined ⟨r, hr⟩
    by_contra hlong
    have hbytes : bytes ≠ [] := by
      rintro rfl
      exact hlong (Nat.zero_le _)
    have hstore := owning_store_outOfBounds (h := h.answered.began r) hbytes
      (p := .into (.sendRegion r) 0) (fun howns => hlong (by have := howns.2; omega))
    refine hdisciplined.owned ?_
    rw [through, Exec.run_bind_ok (run_acquireSendRegion_ok hr), if_pos rfl,
      Exec.run_bind_ok (Exec.run_get _)]
    exact Exec.run_bind_error hstore
  · intro hfits
    rcases acquire_cases h with hw | ⟨r, hr⟩ | hfail
    · refine disciplined_of_blocked ?_
      rw [through, Exec.run_bind_error (run_acquireSendRegion_waits hw)]
    · exact (fills_write hr (hfits ⟨r, hr⟩)).disciplined
    · have hrun : (through owning (.write bytes)).run h = .ok (.result false, h.answered) := by
        rw [through, Exec.run_bind_ok (run_acquireSendRegion_failed hfail), if_neg hfail,
          Exec.run_pure]
      refine disciplined_of_quiet ?_ ?_ ?_
      · rw [hrun]
        simp
      · rw [hrun]
        simp
      · rw [hrun]
        simp

theorem disciplined_beginDirectWrite :
    Disciplined h .beginDirectWrite ↔ h.connectedWriteSession.answer = .success := by
  constructor
  · intro hdisciplined
    by_contra hfail
    have hrun : (perform .beginDirectWrite).run h =
        .ok (.pointer (h.writeBuffer.buffer.add sizeofInt64), h.answered) := by
      rw [← through_transport, through, Exec.run_bind_ok (run_acquireSendRegion_failed hfail)]
      rfl
    have hset : h.writeBuffer.buffer.add sizeofInt64 ≠ .null := by
      cases h.writeBuffer.buffer <;> simp [Pointer.add]
    obtain ⟨r, -, -, hacquired⟩ := hdisciplined.acquires _ _ hrun hset
    exact List.cons_ne_self r _ hacquired.symm
  · intro hanswer
    rcases acquire_cases h with hw | ⟨r, hr⟩ | hfail
    · refine disciplined_of_blocked ?_
      rw [through, Exec.run_bind_error (run_acquireSendRegion_waits hw)]
    · have hrun (access : SendAccess size) : (through access .beginDirectWrite).run h =
          .ok (.pointer (.into (.sendRegion r) sizeofInt64), h.answered.began r) := by
        rw [through, Exec.run_bind_ok (run_acquireSendRegion_ok hr)]
        rfl
      refine ⟨?_, ?_, ?_⟩
      · rw [hrun]
        simp
      · intro p h' hp _
        rw [← through_transport, hrun] at hp
        cases hp
        exact ⟨r, rfl, (SendSession.free_of_pick hr.2).1, acquired_began hr⟩
      · intro h' hp
        rw [← through_transport, hrun] at hp
        cases hp
    · exact absurd hanswer hfail

/-- A store cannot make `_writeBuffer` a region the program has. -/
theorem store_then {p : Pointer} {bytes : Bytes} {x : Exec (RdmaSidebandDataImp size) SendAnswer}
    (hx : ∀ h : RdmaSidebandDataImp size, ¬ h.OwnsWriteBuffer → x.run h = .error .outOfBounds)
    (hno : ¬ h.OwnsWriteBuffer) :
    (owning.store p bytes >>= fun _ => x).run h = .error .outOfBounds := by
  by_cases hbytes : bytes = []
  · subst hbytes
    rw [Exec.run_bind_ok (run_owning_store_nil p h)]
    exact hx h hno
  · by_cases howns : h.Owns bytes.length p
    · obtain ⟨r, offset, rfl, hr, hfits⟩ := owns_iff.mp howns
      rw [Exec.run_bind_ok (owning_store_ok hr hfits)]
      refine hx _ fun howns' => hno ?_
      obtain ⟨r', hr', hbuffer⟩ := howns'
      rw [acquired_stored] at hr'
      exact ⟨r', hr', hbuffer⟩
    · exact Exec.run_bind_error (owning_store_outOfBounds hbytes howns)

/-- The prefix does not fit. -/
theorem store_prefix_outOfBounds {x : ℤ} (hbuffer : h.writeBuffer.buffer = .into (.sendRegion r) 0)
    (hsize : size < sizeofInt64) :
    (owning.store h.writeBuffer.buffer (le64 x)).run h = .error .outOfBounds := by
  have hheader : (le64 x).length = sizeofInt64 := length_le64_eq_sizeof x
  rw [hbuffer]
  refine owning_store_outOfBounds ?_ fun howns => ?_
  · rw [← List.length_pos_iff, hheader, sizeofInt64]
    omega
  · have hfits := howns.2
    omega

/-- `WriteLengthPrefixed` of a region the program does not have. -/
theorem writeLengthPrefixed_outOfBounds {bytes : Bytes} {result : EasyRdmaResult}
    {h₀ : RdmaSidebandDataImp size} (hrun : acquireSendRegion.run h = .ok (result, h₀))
    (hno : ¬ (h₀.OwnsWriteBuffer ∧ sizeofInt64 + bytes.length ≤ size)) :
    (through owning (.writeLengthPrefixed bytes)).run h = .error .outOfBounds := by
  rw [through, Exec.run_bind_ok hrun, Exec.run_bind_ok (Exec.run_get _)]
  by_cases howns : h₀.OwnsWriteBuffer
  · obtain ⟨r, hr, hbuffer⟩ := howns
    have hlong : ¬ sizeofInt64 + bytes.length ≤ size := fun hfits => hno ⟨⟨r, hr, hbuffer⟩, hfits⟩
    by_cases hsize : size < sizeofInt64
    · exact Exec.run_bind_error (store_prefix_outOfBounds hbuffer hsize)
    · have hheader : (le64 bytes.length).length = sizeofInt64 := length_le64_eq_sizeof _
      have hbytes : bytes ≠ [] := by
        rintro rfl
        exact hlong (not_lt.mp hsize)
      have hstore := owning_store_outOfBounds (h := h₀.stored r 0 (le64 bytes.length)) hbytes
        (p := .into (.sendRegion r) sizeofInt64) fun howns => hlong howns.2
      rw [hbuffer, Exec.run_bind_ok (owning_store_ok hr (by omega)), Pointer.add, Nat.zero_add]
      exact Exec.run_bind_error hstore
  · refine store_then (fun h₁ hno₁ => ?_) howns
    exact store_then (fun h₂ hno₂ => submit_outOfBounds hno₂) hno₁

theorem disciplined_writeLengthPrefixed {bytes : Bytes} :
    Disciplined h (.writeLengthPrefixed bytes) ↔ h.Waits ∨
      ((∃ r, h.Acquires r) ∨ h.OwnsWriteBuffer) ∧ sizeofInt64 + bytes.length ≤ size := by
  rcases acquire_cases h with hw | ⟨r, hr⟩ | hfail
  · refine iff_of_true (disciplined_of_blocked ?_) (.inl hw)
    rw [through, Exec.run_bind_error (run_acquireSendRegion_waits hw)]
  · have hacquired : r ∈ (h.answered.began r).connectedWriteSession.acquired :=
      acquired_began hr ▸ List.mem_cons_self
    have hrun := run_acquireSendRegion_ok hr
    constructor
    · intro hdisciplined
      refine .inr ⟨.inl ⟨r, hr⟩, ?_⟩
      by_contra hlong
      exact hdisciplined.owned (writeLengthPrefixed_outOfBounds hrun fun hsound => hlong hsound.2)
    · rintro (hw | ⟨-, hfits⟩)
      · exact absurd (hw.2.symm.trans hr.2) (by simp)
      · exact (fills_writeLengthPrefixed hrun hacquired rfl SendSession.queue_acquire
          hfits).disciplined
  · have hrun := run_acquireSendRegion_failed hfail
    constructor
    · intro hdisciplined
      refine .inr ?_
      by_contra hno
      refine hdisciplined.owned (writeLengthPrefixed_outOfBounds hrun fun hsound => hno ?_)
      exact ⟨.inr hsound.1, hsound.2⟩
    · rintro (hw | ⟨⟨r, hr⟩ | ⟨r, hr, hbuffer⟩, hfits⟩)
      · exact absurd hw.1 hfail
      · exact absurd hr.1 hfail
      · exact (fills_writeLengthPrefixed hrun hr hbuffer rfl hfits).disciplined

/-- A negative byte count makes no frame. -/
theorem not_disciplined_of_neg {byteCount : Int64} (hr : r ∈ h.connectedWriteSession.acquired)
    (hbuffer : h.writeBuffer.buffer = .into (.sendRegion r) 0) (hsize : sizeofInt64 ≤ size)
    (hneg : byteCount.toInt < 0) (hqueues : h.Queues (usedSize byteCount)) :
    ¬ Disciplined h (.finishDirectWrite byteCount) := by
  intro hdisciplined
  have hheader : (le64 byteCount.toInt).length = sizeofInt64 := length_le64_eq_sizeof _
  have hfits : 0 + (le64 byteCount.toInt).length ≤ size := by omega
  have hstore := owning_store_ok hr hfits
  obtain ⟨success, h', hsubmit, hsuccess, hqueue⟩ :=
    run_submit (h := h.stored r 0 (le64 byteCount.toInt)) (n := usedSize byteCount)
      (by rw [acquired_stored]; exact hr) hbuffer
  have hqueues' : (h.stored r 0 (le64 byteCount.toInt)).Queues (usedSize byteCount) :=
    ⟨answer_stored.trans hqueues.1, hqueues.2⟩
  obtain rfl := hsuccess.mpr hqueues'
  have hrun : (through owning (.finishDirectWrite byteCount)).run h = .ok (.result true, h') := by
    rw [through, Exec.run_bind_ok (Exec.run_get _), hbuffer, Exec.run_bind_ok hstore]
    exact hsubmit
  have hperform := (checks_through _).run_eq hdisciplined.owned
  obtain ⟨r', hframe⟩ := hdisciplined.reports h' (hperform.trans hrun)
  have hsame : (h.stored r 0 (le64 byteCount.toInt)).connectedWriteSession.queue =
      h.connectedWriteSession.queue := SendSession.queue_setMemory
  rw [hqueue rfl, hsame] at hframe
  -- The queued bytes are as many as `usedSize`, the frame has no payload.
  have hbytes := congrArg (List.length ∘ Filled.bytes)
    (List.singleton_inj.mp (List.append_cancel_left hframe))
  have hzero : byteCount.toInt.toNat = 0 := Int.toNat_of_nonpos hneg.le
  have hle : -2 ^ 63 ≤ byteCount.toInt := byteCount.le_toInt
  simp only [Function.comp, List.length_take, SendSession.length_memory, frameIn, length_frame,
    hzero, slice_zero, List.length_nil] at hbytes
  rw [min_eq_left hqueues.2, usedSize, sizeofInt64] at hbytes
  omega

theorem disciplined_finishDirectWrite {byteCount : Int64} :
    Disciplined h (.finishDirectWrite byteCount) ↔ h.OwnsWriteBuffer ∧ sizeofInt64 ≤ size ∧
      (0 ≤ byteCount.toInt ∨ ¬ h.Queues (usedSize byteCount)) := by
  by_cases howns : h.OwnsWriteBuffer
  · obtain ⟨r, hr, hbuffer⟩ := howns
    by_cases hsize : sizeofInt64 ≤ size
    · by_cases hcount : 0 ≤ byteCount.toInt ∨ ¬ h.Queues (usedSize byteCount)
      · exact iff_of_true (fills_finishDirectWrite hr hbuffer hsize hcount).disciplined
          ⟨⟨r, hr, hbuffer⟩, hsize, hcount⟩
      · obtain ⟨hneg, hqueues⟩ := not_or.mp hcount
        exact iff_of_false (not_disciplined_of_neg hr hbuffer hsize (not_le.mp hneg)
          (not_not.mp hqueues)) fun hsound => hcount hsound.2.2
    · refine iff_of_false (fun hdisciplined => hdisciplined.owned ?_) fun hsound => hsize hsound.2.1
      rw [through, Exec.run_bind_ok (Exec.run_get _)]
      exact Exec.run_bind_error (store_prefix_outOfBounds hbuffer (not_le.mp hsize))
  · refine iff_of_false (fun hdisciplined => hdisciplined.owned ?_) fun hsound => howns hsound.1
    rw [through, Exec.run_bind_ok (Exec.run_get _)]
    exact store_then (fun h₁ hno₁ => submit_outOfBounds hno₁) howns

/-- **One call.** A call keeps the discipline exactly when it meets the condition. -/
theorem disciplined_iff (h : RdmaSidebandDataImp size) (op : SendOperation) :
    Disciplined h op ↔ h.Sound op := by
  cases op with
  | write bytes => exact disciplined_write
  | writeLengthPrefixed bytes => exact disciplined_writeLengthPrefixed
  | beginDirectWrite => exact disciplined_beginDirectWrite
  | finishDirectWrite byteCount => exact disciplined_finishDirectWrite

/-! ### What is in flight -/

/-- A step that leaves the regions in flight as they are. -/
def KeepsInFlight (h h' : RdmaSidebandDataImp size) : Prop :=
  Intact h.connectedWriteSession.memory h.connectedWriteSession.queue →
    Intact h'.connectedWriteSession.memory h'.connectedWriteSession.queue

instance : Std.Refl (KeepsInFlight : RdmaSidebandDataImp size → _) := ⟨fun _ => id⟩

instance : IsTrans (RdmaSidebandDataImp size) KeepsInFlight := ⟨fun _ _ _ h h' => h' ∘ h⟩

theorem steps_get : Exec.Steps KeepsInFlight (get : Exec (RdmaSidebandDataImp size) _) := by
  intro h a h' hrun
  cases hrun
  exact id

theorem steps_acquireSendRegion :
    Exec.Steps KeepsInFlight (acquireSendRegion : Exec (RdmaSidebandDataImp size) _) := by
  intro h result h' hrun
  rcases acquire_cases h with hw | ⟨r, hr⟩ | hfail
  · rw [run_acquireSendRegion_waits hw] at hrun
    cases hrun
  · rw [run_acquireSendRegion_ok hr] at hrun
    cases hrun
    have hmemory : (h.answered.began r).connectedWriteSession.memory =
        h.connectedWriteSession.memory := SendSession.memory_acquire
    have hqueue : (h.answered.began r).connectedWriteSession.queue =
        h.connectedWriteSession.queue := SendSession.queue_acquire
    rw [KeepsInFlight, hmemory, hqueue]
    exact id
  · rw [run_acquireSendRegion_failed hfail] at hrun
    cases hrun
    exact id

/-- A store into a region the program has does not reach those in flight. -/
theorem keepsInFlight_stored {offset : ℕ} {bytes : Bytes}
    (hr : r ∈ h.connectedWriteSession.acquired) : KeepsInFlight h (h.stored r offset bytes) := by
  intro hintact e he
  have he' : e ∈ h.connectedWriteSession.queue := by
    rw [stored, SendSession.queue_setMemory] at he
    exact he
  have hne : e.region ≠ r := (SendSession.sendEnd size).region_ne hr he'
  rw [stored, SendSession.memory_setMemory_ne hne]
  exact hintact e he'

theorem steps_owning_store (p : Pointer) (bytes : Bytes) :
    Exec.Steps KeepsInFlight ((owning : SendAccess size).store p bytes) := by
  intro h _ h' hrun
  by_cases hbytes : bytes = []
  · subst hbytes
    rw [run_owning_store_nil] at hrun
    cases hrun
    exact id
  · by_cases howns : h.Owns bytes.length p
    · obtain ⟨r, offset, rfl, hr, hfits⟩ := owns_iff.mp howns
      rw [owning_store_ok hr hfits] at hrun
      cases hrun
      exact keepsInFlight_stored hr
    · rw [owning_store_outOfBounds hbytes howns] at hrun
      cases hrun

/-- A region goes in flight with the bytes it holds. -/
theorem steps_owning_queueBufferRegion :
    Exec.Steps KeepsInFlight (owning : SendAccess size).queueBufferRegion := by
  intro h result h' hrun
  by_cases howns : h.OwnsWriteBuffer
  · obtain ⟨r, hr, hbuffer⟩ := howns
    obtain ⟨result', t, hcall, hsubmitted⟩ :=
      run_owning_queueBufferRegion (n := h.writeBuffer.usedSize) hr (by rw [← hbuffer])
    rw [hcall] at hrun
    cases hrun
    intro hintact e he
    dsimp only at he ⊢
    rw [hsubmitted.memory]
    rw [hsubmitted.queue] at he
    split_ifs at he
    · rcases List.mem_append.mp he with he | he
      · exact hintact e he
      · obtain rfl := List.mem_singleton.mp he
        rw [List.length_take, List.take_eq_take_iff]
        exact min_assoc _ _ _ |>.trans (congrArg _ (min_self _))
    · exact hintact e he
  · have hstop : (owning.queueBufferRegion).run h = .error .outOfBounds := by
      rw [owning, Exec.run_bind_ok (Exec.run_get h), if_neg howns]
      rfl
    rw [hstop] at hrun
    cases hrun

theorem steps_owning_submit (n : ℕ) :
    Exec.Steps KeepsInFlight ((owning : SendAccess size).submit n) := by
  have hmodify : Exec.Steps KeepsInFlight
      (modify fun h : RdmaSidebandDataImp size => { h with writeBuffer.usedSize := n }) := by
    intro h _ h' hrun
    cases hrun
    exact id
  exact hmodify.bind fun _ => steps_owning_queueBufferRegion.bind fun _ => Exec.steps_pure _

/-- **Ownership.** A call that touches only the regions the program has leaves those in flight. -/
theorem steps_owning (op : SendOperation) :
    Exec.Steps KeepsInFlight (through (owning : SendAccess size) op) := by
  cases op with
  | write bytes =>
    refine steps_acquireSendRegion.bind fun result => ?_
    split_ifs
    · exact steps_get.bind fun h => (steps_owning_store _ _).bind fun _ => steps_owning_submit _
    · exact Exec.steps_pure _
  | writeLengthPrefixed bytes =>
    exact steps_acquireSendRegion.bind fun _ => steps_get.bind fun _ =>
      (steps_owning_store _ _).bind fun _ => (steps_owning_store _ _).bind fun _ =>
        steps_owning_submit _
  | beginDirectWrite =>
    exact steps_acquireSendRegion.bind fun _ => steps_get.bind fun _ => Exec.steps_pure _
  | finishDirectWrite byteCount =>
    exact steps_get.bind fun _ => (steps_owning_store _ _).bind fun _ => steps_owning_submit _

/-! ### Runs -/

/-- A handle in use, with the pointer of the direct write that is not finished. The pointer is
all that the caller has got from the handle. -/
structure Sending (size : ℕ) where
  handle : RdmaSidebandDataImp size
  begun : Option Pointer

/-- A call, a store of the caller through its pointer, or something that easyrdma does between
the calls. -/
inductive SendingStep
  | call (op : SendOperation)
  /-- The caller stores its payload through the pointer. -/
  | fill (bytes : Bytes)
  /-- A region in flight has arrived. -/
  | transmit
  /-- The region easyrdma picks when both are free. -/
  | prefer (r : Fin 2)

/-- The pointer a call leaves the caller with: that of a begin, until the finish that goes with
it. -/
def SendAnswer.begun (begun : Option Pointer) : SendOperation → SendAnswer → Option Pointer
  | .finishDirectWrite _, _ => none
  | _, .pointer buffer => some buffer
  | _, .result _ => begun

/-- The runs of the send side of a handle, whatever easyrdma answers. Calls come in any order, a
finish without its begin included, and a region in flight may stay there for ever. Until the
first acquire `_writeBuffer` is anything. -/
def sendingHandle (size : ℕ) : Machine (Sending size) SendingStep where
  init s := s.handle.connectedWriteSession.acquired = [] ∧
    s.handle.connectedWriteSession.queue = [] ∧ s.begun = none
  next s
    | .call op => ((perform op).returned s.handle).map fun r =>
      { handle := r.2, begun := SendAnswer.begun s.begun op r.1 }
    | .fill bytes => s.begun.bind fun p =>
      ((methods.store p bytes).returned s.handle).map fun r => { s with handle := r.2 }
    | .transmit => s.handle.connectedWriteSession.transmitted.map fun t =>
      { s with handle.connectedWriteSession := t }
    | .prefer r => some { s with handle.connectedWriteSession.prefer := r }

/-- A call keeps the discipline, and a fill stays in the regions the program has. Of what
easyrdma does nothing is asked. -/
def StepDisciplined (s : Sending size) : SendingStep → Prop
  | .call op => Disciplined s.handle op
  | .fill bytes => ∀ p ∈ s.begun, (owning.store p bytes).run s.handle ≠ .error .outOfBounds
  | .transmit => True
  | .prefer _ => True

/-- The steps that go right: sound calls, and fills of no more than the region that the pointer
leads to. -/
def StepSound (s : Sending size) : SendingStep → Prop
  | .call op => s.handle.Sound op
  | .fill bytes => ∀ p ∈ s.begun, bytes = [] ∨ s.handle.Owns bytes.length p
  | .transmit => True
  | .prefer _ => True

instance (s : Sending size) : DecidablePred (StepSound s)
  | .call op => inferInstanceAs (Decidable (s.handle.Sound op))
  | .fill _ => inferInstanceAs (Decidable (∀ _ ∈ _, _ ∨ _))
  | .transmit => .isTrue trivial
  | .prefer _ => .isTrue trivial

/-- The regions in flight hold the bytes that were queued, so what will arrive is what was
written. -/
def InFlight (s : Sending size) : Prop :=
  Intact s.handle.connectedWriteSession.memory s.handle.connectedWriteSession.queue

/-- **One step.** A step keeps the discipline exactly when it meets the condition. -/
theorem stepDisciplined_iff (s : Sending size) (a : SendingStep) :
    StepDisciplined s a ↔ StepSound s a := by
  cases a with
  | call op => exact disciplined_iff s.handle op
  | fill bytes =>
    exact forall₂_congr fun p _ => owning_store_iff
  | transmit => exact Iff.rfl
  | prefer r => exact Iff.rfl

theorem InFlight.step {s s' : Sending size} {a : SendingStep} (hs : InFlight s)
    (ha : StepDisciplined s a) (h : (sendingHandle size).next s a = some s') : InFlight s' := by
  cases a with
  | call op =>
    obtain ⟨r, hr, rfl⟩ := Option.map_eq_some_iff.mp h
    have hrun := Exec.returned_eq_some_iff.mp hr
    rw [(checks_through op).run_eq ha.owned] at hrun
    exact steps_owning op _ _ _ hrun hs
  | fill bytes =>
    obtain ⟨p, hp, h⟩ := Option.bind_eq_some_iff.mp h
    obtain ⟨r, hr, rfl⟩ := Option.map_eq_some_iff.mp h
    have hrun := Exec.returned_eq_some_iff.mp hr
    change (store p bytes).run s.handle = _ at hrun
    rw [(checks_store p bytes).run_eq (ha p hp)] at hrun
    exact steps_owning_store p bytes _ _ _ hrun hs
  | transmit =>
    obtain ⟨t, ht, rfl⟩ := Option.map_eq_some_iff.mp h
    obtain ⟨e, hqueue, hmemory⟩ := SendSession.of_transmitted ht
    intro e' he'
    dsimp only at he' ⊢
    rw [hmemory]
    exact hs e' (hqueue ▸ List.mem_cons_of_mem e he')
  | prefer r =>
    cases h
    exact hs

/-- **The discipline of the send side.** In every run whose steps all meet the condition, every
step keeps the discipline and what is in flight stays as it was queued; and the condition is
exact: a step that does not meet it breaks the discipline. -/
theorem disciplined_of_reachable {s : Sending size}
    (hs : (sendingHandle size).Reachable StepSound s) :
    InFlight s ∧ ∀ a, StepDisciplined s a ↔ StepSound s a := by
  refine ⟨hs.invariant ?_ ?_, stepDisciplined_iff s⟩
  · rintro s ⟨-, hqueue, -⟩ e he
    rw [hqueue] at he
    cases he
  · exact fun s a s' hin hok h => hin.step ((stepDisciplined_iff s a).mpr hok) h

/-- A new handle with two free regions of sixteen bytes. -/
def connected (results : List EasyRdmaResult) : Sending 16 where
  handle :=
    { connectedWriteSession := { SendSession.configured 16 with results := results }
      connectedReadSession := ReceiveSession.configured 16
      writeBuffer := {}
      readBuffer := {} }
  begun := none

theorem reachable_connected {ok : Sending 16 → SendingStep → Prop} (results : List EasyRdmaResult) :
    (sendingHandle 16).Reachable ok (connected results) := .init ⟨rfl, rfl, rfl⟩

/-- A `Write` whose acquire fails, and a direct write of one byte after it. Easyrdma then fails the
acquire of the next direct write, which would return a pointer all the same. -/
theorem disciplined_of_reachable_run : ∃ s,
    (sendingHandle 16).exec (connected [.failure, .success, .success, .failure])
      [.call (.write [5]), .call .beginDirectWrite, .fill [7], .call (.finishDirectWrite 1)] =
        some s ∧
      s.handle.connectedWriteSession.queue = [⟨0, frame [7]⟩] ∧ InFlight s ∧
      ¬ StepDisciplined s (.call .beginDirectWrite) := by
  have hexec : (sendingHandle 16).execWhile (fun s a => decide (StepSound s a))
      (connected [.failure, .success, .success, .failure])
      [.call (.write [5]), .call .beginDirectWrite, .fill [7], .call (.finishDirectWrite 1)] =
        some _ := rfl
  have hs : (sendingHandle 16).Reachable StepSound _ :=
    (reachable_connected _).execWhile (fun _ _ _ => of_decide_eq_true) hexec
  refine ⟨_, rfl, rfl, (disciplined_of_reachable hs).1, ?_⟩
  rw [(disciplined_of_reachable hs).2]
  intro hsound
  cases hsound

/-- After an acquire that fails, `WriteLengthPrefixed` fills a region that is in flight. -/
theorem not_disciplined_failed : ∃ s s',
    (sendingHandle 16).Reachable Anything s ∧ InFlight s ∧
      (sendingHandle 16).next s (.call (.writeLengthPrefixed [2])) = some s' ∧ ¬ InFlight s' ∧
      ¬ StepDisciplined s (.call (.writeLengthPrefixed [2])) := by
  have hs : (sendingHandle 16).Reachable Anything _ :=
    .step (reachable_connected [.success, .success, .failure])
      (a := .call (.writeLengthPrefixed [1])) trivial rfl
  refine ⟨_, _, hs, ?_, rfl, ?_, ?_⟩
  · intro e he
    obtain rfl := List.mem_singleton.mp he
    decide
  · intro hin
    have hfront := hin _ (List.mem_singleton_self _)
    revert hfront
    decide
  · rw [stepDisciplined_iff]
    rintro (⟨hanswer, -⟩ | ⟨⟨r, hanswer, -⟩ | ⟨r, hr, -⟩, -⟩)
    · cases hanswer
    · cases hanswer
    · cases hr

end RdmaSidebandDataImp

end Sideband
