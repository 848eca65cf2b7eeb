import Mathlib.Data.Fintype.Basic
import Sideband.Rdma.Calls

/-!
# The calls on the send side of an RDMA handle and the regions they reach

A send region belongs to the program from `easyrdma_AcquireSendRegion` to
`easyrdma_QueueBufferRegion`; the region a call works on is kept in `_writeBuffer`, which keeps its
old value when an acquire fails. `SendOperation.through` is a call over a way of reaching the
regions: with `transport` it is the method itself (`through_transport`), with `owning` it stops at
the first byte that goes elsewhere than into a region the program has, and at a
`QueueBufferRegion` of any other region (`checks_through`).

`Disciplined h op` says that the call keeps to the regions the program has, that the pointer of
`BeginDirectWrite` is null unless it acquired a region, and that success means that the frame was
queued. `Write` looks at the result of its acquire; `WriteLengthPrefixed` and `BeginDirectWrite` do
not. `Sound` excludes the calls that this lets go wrong.
-/

namespace Sideband

open Foundation

/-- The calls on the send side of a handle. The `byteCount` of `FinishDirectWrite` is any value
of its type; what the caller stores before it is a step of its own. -/
inductive SendOperation
  | write (bytes : Bytes)
  | writeLengthPrefixed (bytes : Bytes)
  | beginDirectWrite
  | finishDirectWrite (byteCount : Int64)

/-- What a call returns. -/
inductive SendAnswer
  | result (success : Bool)
  | pointer (buffer : Pointer)
  deriving DecidableEq, Repr

namespace SendSession

variable {size : ℕ}

theorem distinct_tail {s : SendSession size} {e : Filled} {rest : List Filled}
    (h : s.queue = e :: rest) : (s.acquired ++ rest.map Filled.region).Nodup := by
  refine s.distinct.sublist ?_
  rw [h, List.map_cons]
  exact (List.sublist_cons_self _ _).append_left _

/-- The oldest region in flight has arrived, and is free again. What the peer does with it is not
modelled here. -/
def transmitted (s : SendSession size) : Option (SendSession size) :=
  match h : s.queue with
  | [] => none
  | _ :: rest => some { s with queue := rest, distinct := distinct_tail h }

theorem of_transmitted {s t : SendSession size} (ht : s.transmitted = some t) :
    ∃ e, s.queue = e :: t.queue ∧ t.memory = s.memory := by
  rw [transmitted] at ht
  split at ht
  · cases ht
  · next e rest hqueue =>
    cases ht
    exact ⟨e, hqueue, rfl⟩

/-- What `easyrdma_QueueBufferRegion` does with an acquired region: it refuses more bytes than
the region has, and the region stays acquired then. -/
structure Submitted (s s' : SendSession size) (r : Fin 2) (n : ℕ) (result : EasyRdmaResult) :
    Prop where
  success : result = .success ↔ s.answer = .success ∧ n ≤ size
  queue : s'.queue =
    if result = .success then s.queue ++ [⟨r, (s.memory r).take n⟩] else s.queue
  memory : s'.memory = s.memory

/-- An acquired region is queued, or the call fails. -/
theorem run_queueBufferRegion_eq {s : SendSession size} {r : Fin 2} {n : ℕ}
    (hr : r ∈ s.acquired) :
    ∃ result s', (queueBufferRegion ⟨.into (.sendRegion r) 0, n⟩).run s = .ok (result, s') ∧
      Submitted s s' r n result := by
  rw [queueBufferRegion, Exec.run_bind_ok (run_nextResult_eq s)]
  cases hanswer : s.answer with
  | success =>
    simp only
    rw [Exec.run_bind_ok (Exec.run_get _)]
    by_cases hn : n ≤ size
    · rw [if_pos ⟨hr, hn⟩]
      refine ⟨.success, _, rfl, by simp [hanswer, hn], ?_, memory_enqueue⟩
      rw [if_pos rfl]
      exact queue_enqueue (s := s.answered) hr
    · rw [if_neg (by simp [hn])]
      exact ⟨.failure, _, rfl, by simp [hn], rfl, rfl⟩
  | timeout => exact ⟨.timeout, _, rfl, by simp [hanswer], rfl, rfl⟩
  | failure => exact ⟨.failure, _, rfl, by simp [hanswer], rfl, rfl⟩

end SendSession

namespace RdmaSidebandDataImp

variable {size : ℕ} {h : RdmaSidebandDataImp size} {r : Fin 2}

/-! ### The calls and the regions they reach -/

/-- The method of the handle. -/
def perform : SendOperation → Exec (RdmaSidebandDataImp size) SendAnswer
  | .write bytes => .result <$> methods.write bytes
  | .writeLengthPrefixed bytes => .result <$> methods.writeLengthPrefixed bytes
  | .beginDirectWrite => .pointer <$> methods.beginDirectWrite
  | .finishDirectWrite byteCount => .result <$> methods.finishDirectWrite byteCount.toInt

/-- How a call reaches the send regions: its two ways out of the handle, which are the stores and
the queueing. -/
structure SendAccess (size : ℕ) where
  store : Pointer → Bytes → Exec (RdmaSidebandDataImp size) Unit
  queueBufferRegion : Exec (RdmaSidebandDataImp size) EasyRdmaResult

/-- Set `_writeBuffer.usedSize` and queue the region: the end of the three writes. -/
def SendAccess.submit (access : SendAccess size) (usedSize : ℕ) :
    Exec (RdmaSidebandDataImp size) SendAnswer := do
  modify fun h => { h with writeBuffer.usedSize := usedSize }
  return .result ((← access.queueBufferRegion) = .success)

/-- The bodies of the methods, over a way of reaching the regions. With `transport` for it they
are the methods (`through_transport`). -/
def through (access : SendAccess size) :
    SendOperation → Exec (RdmaSidebandDataImp size) SendAnswer
  | .write bytes => do
    if (← acquireSendRegion) = .success then
      access.store (← get).writeBuffer.buffer bytes
      access.submit bytes.length
    else
      return .result false
  | .writeLengthPrefixed bytes => do
    let _ ← acquireSendRegion
    let buffer := (← get).writeBuffer.buffer
    access.store buffer (le64 bytes.length)
    access.store (buffer.add sizeofInt64) bytes
    access.submit (bytes.length + sizeofInt64)
  | .beginDirectWrite => do
    let _ ← acquireSendRegion
    return .pointer ((← get).writeBuffer.buffer.add sizeofInt64)
  | .finishDirectWrite byteCount => do
    access.store (← get).writeBuffer.buffer (le64 byteCount.toInt)
    access.submit ((byteCount.toInt + sizeofInt64) % 2 ^ 64).toNat

/-- The transport's own way. -/
def transport : SendAccess size := ⟨store, queueBufferRegion⟩

/-- The pointer leads to `n` bytes of a region that was acquired and is not queued. Only such
bytes are the program's to store to. -/
def Owns (h : RdmaSidebandDataImp size) (n : ℕ) : Pointer → Prop
  | .into (.sendRegion r) offset => r ∈ h.connectedWriteSession.acquired ∧ offset + n ≤ size
  | _ => False

instance (n : ℕ) : DecidablePred (h.Owns n)
  | .into (.sendRegion _) _ => inferInstanceAs (Decidable (_ ∧ _))
  | .into (.segment _) _ => .isFalse id
  | .into (.receiveRegion _) _ => .isFalse id
  | .null => .isFalse id
  | .invalid => .isFalse id

theorem owns_iff {n : ℕ} {p : Pointer} : h.Owns n p ↔ ∃ r offset, p = .into (.sendRegion r) offset ∧
    r ∈ h.connectedWriteSession.acquired ∧ offset + n ≤ size := by
  constructor
  · intro hp
    match p, hp with
    | .into (.sendRegion r) offset, hr => exact ⟨r, offset, rfl, hr⟩
  · rintro ⟨r, offset, rfl, hr⟩
    exact hr

/-- `_writeBuffer` is a region that was acquired and is not queued, so what is stored and queued
through it is the program's own. -/
def OwnsWriteBuffer (h : RdmaSidebandDataImp size) : Prop :=
  ∃ r ∈ h.connectedWriteSession.acquired, h.writeBuffer.buffer = .into (.sendRegion r) 0

instance : Decidable h.OwnsWriteBuffer := inferInstanceAs (Decidable (∃ _ ∈ _, _ = _))

/-- Only regions that were acquired and are not queued are filled and queued. A call that would
do anything else stops, which the method itself does not. -/
def owning : SendAccess size where
  store p bytes := do
    if bytes = [] ∨ (← get).Owns bytes.length p then store p bytes else throw .outOfBounds
  queueBufferRegion := do
    if (← get).OwnsWriteBuffer then queueBufferRegion else throw .outOfBounds

theorem through_transport (op : SendOperation) :
    through (transport : SendAccess size) op = perform op := by
  cases op with
  | write bytes =>
    change _ = SendAnswer.result <$> write bytes
    simp only [through, write, transport, SendAccess.submit, map_bind, apply_ite, map_pure]
  | writeLengthPrefixed bytes =>
    change _ = SendAnswer.result <$> writeLengthPrefixed bytes
    simp only [through, writeLengthPrefixed, transport, SendAccess.submit, map_bind, map_pure]
  | beginDirectWrite =>
    change _ = SendAnswer.pointer <$> beginDirectWrite
    simp only [through, beginDirectWrite, map_bind, map_pure]
  | finishDirectWrite byteCount =>
    change _ = SendAnswer.result <$> finishDirectWrite byteCount.toInt
    simp only [through, finishDirectWrite, transport, SendAccess.submit, map_bind, map_pure]

theorem checks_store (p : Pointer) (bytes : Bytes) :
    Exec.Checks (store p bytes) ((owning : SendAccess size).store p bytes) :=
  Exec.checks_test (fun h : RdmaSidebandDataImp size => bytes = [] ∨ h.Owns bytes.length p) _

/-- A call that touches only the regions the program has is the method. -/
theorem checks_through (op : SendOperation) :
    Exec.Checks (perform op) (through (owning : SendAccess size) op) := by
  have hsubmit (n : ℕ) :
      Exec.Checks (transport.submit n) ((owning : SendAccess size).submit n) :=
    (Exec.checks_refl _).bind fun _ => (Exec.checks_test OwnsWriteBuffer _).bind fun _ =>
      Exec.checks_refl _
  rw [← through_transport]
  cases op with
  | write bytes =>
    refine (Exec.checks_refl _).bind fun result => ?_
    split_ifs
    · exact (Exec.checks_refl _).bind fun h => (checks_store _ _).bind fun _ => hsubmit _
    · exact Exec.checks_refl _
  | writeLengthPrefixed bytes =>
    exact (Exec.checks_refl _).bind fun _ => (Exec.checks_refl _).bind fun _ =>
      (checks_store _ _).bind fun _ => (checks_store _ _).bind fun _ => hsubmit _
  | beginDirectWrite => exact Exec.checks_refl _
  | finishDirectWrite byteCount =>
    exact (Exec.checks_refl _).bind fun _ => (checks_store _ _).bind fun _ => hsubmit _

/-! ### The discipline -/

/-- The frame of a call that queues `r`: `FinishDirectWrite` finds the payload in the region,
where the caller has stored it or not. -/
def frameIn (h : RdmaSidebandDataImp size) (r : Fin 2) : SendOperation → Bytes
  | .write bytes => bytes
  | .writeLengthPrefixed bytes => frame bytes
  | .beginDirectWrite => []
  | .finishDirectWrite byteCount =>
    frame (slice sizeofInt64 byteCount.toInt.toNat (h.connectedWriteSession.memory r))

/-- What a call on the send side promises, by what it does and what it returns. Calls that wait
or fail promise to leave other regions alone. -/
structure Disciplined (h : RdmaSidebandDataImp size) (op : SendOperation) : Prop where
  /-- Every byte goes into a region that was acquired and is not queued, and only such a region is
  queued. -/
  owned : (through owning op).run h ≠ .error .outOfBounds
  /-- A pointer that is not null leads into a region that was acquired for it. -/
  acquires : ∀ p h', (perform op).run h = .ok (.pointer p, h') → p ≠ .null →
    ∃ r, p = .into (.sendRegion r) sizeofInt64 ∧ r ∉ h.connectedWriteSession.acquired ∧
      h'.connectedWriteSession.acquired = r :: h.connectedWriteSession.acquired
  /-- Success means that exactly one region, with exactly the frame, was queued. -/
  reports : ∀ h', (perform op).run h = .ok (.result true, h') →
    ∃ r, h'.connectedWriteSession.queue = h.connectedWriteSession.queue ++ [⟨r, frameIn h r op⟩]

/-- The next acquire yields the region. -/
def Acquires (h : RdmaSidebandDataImp size) (r : Fin 2) : Prop :=
  h.connectedWriteSession.answer = .success ∧ h.connectedWriteSession.pick = some r

/-- The next acquire waits. -/
def Waits (h : RdmaSidebandDataImp size) : Prop :=
  h.connectedWriteSession.answer = .success ∧ h.connectedWriteSession.pick = none

/-- The next call queues an acquired region with so many bytes: it does not fail, and the region
has room for them. -/
def Queues (h : RdmaSidebandDataImp size) (n : ℕ) : Prop :=
  h.connectedWriteSession.answer = .success ∧ n ≤ size

/-- `FinishDirectWrite` sets `usedSize`, a `size_t`, from a signed count: one below `-8` wraps
around to a huge size. -/
def usedSize (byteCount : Int64) : ℕ := ((byteCount.toInt + sizeofInt64) % 2 ^ 64).toNat

/-- The calls that go right, by the handle before the call and the results to come. After an
acquire that fails, `WriteLengthPrefixed` and `BeginDirectWrite` go on with the region of an
earlier call, if the program still has it. -/
def Sound (h : RdmaSidebandDataImp size) : SendOperation → Prop
  | .write bytes => (∃ r, h.Acquires r) → bytes.length ≤ size
  | .writeLengthPrefixed bytes =>
    h.Waits ∨ ((∃ r, h.Acquires r) ∨ h.OwnsWriteBuffer) ∧ sizeofInt64 + bytes.length ≤ size
  | .beginDirectWrite => h.connectedWriteSession.answer = .success
  | .finishDirectWrite byteCount =>
    h.OwnsWriteBuffer ∧ sizeofInt64 ≤ size ∧
      (0 ≤ byteCount.toInt ∨ ¬ h.Queues (usedSize byteCount))

instance : Decidable (h.Acquires r) := inferInstanceAs (Decidable (_ ∧ _))

instance : Decidable h.Waits := inferInstanceAs (Decidable (_ ∧ _))

instance (n : ℕ) : Decidable (h.Queues n) := inferInstanceAs (Decidable (_ ∧ _))

instance : DecidablePred h.Sound
  | .write _ => inferInstanceAs (Decidable ((∃ _, _) → _))
  | .writeLengthPrefixed _ => inferInstanceAs (Decidable (_ ∨ (_ ∨ _) ∧ _))
  | .beginDirectWrite => inferInstanceAs (Decidable (_ = _))
  | .finishDirectWrite _ => inferInstanceAs (Decidable (_ ∧ _ ∧ (_ ∨ ¬ _)))

/-! ### The calls of easyrdma -/

/-- The handle after a call of easyrdma on its send session. -/
def answered (h : RdmaSidebandDataImp size) : RdmaSidebandDataImp size :=
  { h with connectedWriteSession := h.connectedWriteSession.answered }

theorem run_acquireSendRegion_waits (hw : h.Waits) :
    acquireSendRegion.run h = .error .blocked := by
  have hcall : (onWriteSession SendSession.acquireSendRegion).run h = .error .blocked := by
    refine Exec.run_zoom_error ?_
    rw [SendSession.acquireSendRegion, Exec.run_bind_ok (SendSession.run_nextResult_eq _), hw.1]
    simp only
    rw [Exec.run_bind_ok (Exec.run_get _), SendSession.pick_answered, hw.2]
    rfl
  rw [acquireSendRegion, Exec.run_bind_error hcall]

theorem run_acquireSendRegion_ok (hr : h.Acquires r) :
    acquireSendRegion.run h = .ok (.success, h.answered.began r) := by
  have hcall : (onWriteSession SendSession.acquireSendRegion).run h =
      .ok ((.success, some { buffer := .into (.sendRegion r) 0 }),
        { h with connectedWriteSession := h.connectedWriteSession.answered.acquire r }) := by
    refine Exec.run_zoom_ok ?_
    rw [SendSession.acquireSendRegion, Exec.run_bind_ok (SendSession.run_nextResult_eq _), hr.1]
    simp only
    rw [Exec.run_bind_ok (Exec.run_get _), SendSession.pick_answered, hr.2]
    rfl
  rw [acquireSendRegion, Exec.run_bind_ok hcall]
  rfl

/-- An acquire that fails leaves `_writeBuffer` as it was. -/
theorem run_acquireSendRegion_failed (hfail : h.connectedWriteSession.answer ≠ .success) :
    acquireSendRegion.run h = .ok (h.connectedWriteSession.answer, h.answered) := by
  have hcall : (onWriteSession SendSession.acquireSendRegion).run h =
      .ok ((h.connectedWriteSession.answer, none), h.answered) := by
    refine Exec.run_zoom_ok ?_
    rw [SendSession.acquireSendRegion, Exec.run_bind_ok (SendSession.run_nextResult_eq _)]
    split
    · next heq => exact absurd heq hfail
    · rfl
  rw [acquireSendRegion, Exec.run_bind_ok hcall]
  rfl

/-- An acquire waits, yields a region or fails. -/
theorem acquire_cases (h : RdmaSidebandDataImp size) :
    h.Waits ∨ (∃ r, h.Acquires r) ∨ h.connectedWriteSession.answer ≠ .success := by
  by_cases hanswer : h.connectedWriteSession.answer = .success
  · cases hpick : h.connectedWriteSession.pick with
    | none => exact .inl ⟨hanswer, hpick⟩
    | some r => exact .inr (.inl ⟨r, hanswer, hpick⟩)
  · exact .inr (.inr hanswer)

theorem acquired_began (hr : h.Acquires r) :
    (h.answered.began r).connectedWriteSession.acquired =
      r :: h.connectedWriteSession.acquired :=
  SendSession.acquired_acquire (SendSession.free_of_pick (s := h.connectedWriteSession) hr.2)

/-! ### Stores and submits -/

/-- A store into a region the program has. -/
theorem owning_store_ok {offset : ℕ} {bytes : Bytes} (hr : r ∈ h.connectedWriteSession.acquired)
    (hfits : offset + bytes.length ≤ size) :
    (owning.store (.into (.sendRegion r) offset) bytes).run h =
      .ok (⟨⟩, h.stored r offset bytes) := by
  rw [owning, Exec.run_bind_ok (Exec.run_get h), if_pos (.inr ⟨hr, hfits⟩)]
  exact store_ok hfits

/-- A store of nothing goes through any pointer. -/
theorem run_owning_store_nil (p : Pointer) (h : RdmaSidebandDataImp size) :
    (owning.store p []).run h = .ok (⟨⟩, h) := by
  rw [owning, Exec.run_bind_ok (Exec.run_get h), if_pos (.inl rfl)]
  rfl

/-- Any other store leaves the regions the program has. -/
theorem owning_store_outOfBounds {p : Pointer} {bytes : Bytes} (hbytes : bytes ≠ [])
    (hp : ¬ h.Owns bytes.length p) : (owning.store p bytes).run h = .error .outOfBounds := by
  rw [owning, Exec.run_bind_ok (Exec.run_get h), if_neg (by simp [hbytes, hp])]
  rfl

theorem owning_store_iff {p : Pointer} {bytes : Bytes} :
    (owning.store p bytes).run h ≠ .error .outOfBounds ↔ bytes = [] ∨ h.Owns bytes.length p := by
  constructor
  · intro hne
    by_contra hno
    obtain ⟨hbytes, hp⟩ := not_or.mp hno
    exact hne (owning_store_outOfBounds hbytes hp)
  · rintro (rfl | hp)
    · rw [run_owning_store_nil]
      simp
    · obtain ⟨r, offset, rfl, hr, hfits⟩ := owns_iff.mp hp
      rw [owning_store_ok hr hfits]
      simp

/-- `easyrdma_QueueBufferRegion` on a region the program has. -/
theorem run_owning_queueBufferRegion {n : ℕ} (hr : r ∈ h.connectedWriteSession.acquired)
    (hregion : h.writeBuffer = ⟨.into (.sendRegion r) 0, n⟩) :
    ∃ result t, (owning.queueBufferRegion).run h =
        .ok (result, { h with connectedWriteSession := t }) ∧
      SendSession.Submitted h.connectedWriteSession t r n result := by
  obtain ⟨result, t, hqueue, hsubmitted⟩ := SendSession.run_queueBufferRegion_eq (n := n) hr
  have howns : h.OwnsWriteBuffer := ⟨r, hr, by rw [hregion]⟩
  refine ⟨result, t, ?_, hsubmitted⟩
  rw [owning, Exec.run_bind_ok (Exec.run_get h), if_pos howns, queueBufferRegion,
    Exec.run_bind_ok (Exec.run_get h)]
  refine Exec.run_zoom_ok ?_
  rw [hregion]
  exact hqueue

/-- A submit of a region the program has queues its first bytes, or fails. -/
theorem run_submit {n : ℕ} (hr : r ∈ h.connectedWriteSession.acquired)
    (hbuffer : h.writeBuffer.buffer = .into (.sendRegion r) 0) :
    ∃ success h', (owning.submit n).run h = .ok (.result success, h') ∧
      (success = true ↔ h.Queues n) ∧
      (success = true → h'.connectedWriteSession.queue = h.connectedWriteSession.queue ++
        [⟨r, (h.connectedWriteSession.memory r).take n⟩]) := by
  have hregion : ({ h with writeBuffer.usedSize := n } : RdmaSidebandDataImp size).writeBuffer =
      ⟨.into (.sendRegion r) 0, n⟩ := by rw [← hbuffer]
  obtain ⟨result, t, hcall, hsubmitted⟩ := run_owning_queueBufferRegion
    (h := { h with writeBuffer.usedSize := n }) hr hregion
  refine ⟨result = .success, { h with connectedWriteSession := t, writeBuffer.usedSize := n }, ?_,
    ?_, fun hsuccess => ?_⟩
  · rw [SendAccess.submit, Exec.run_bind_ok (Exec.run_modify _ h), Exec.run_bind_ok hcall]
    rfl
  · rw [decide_eq_true_iff]
    exact hsubmitted.success
  · have hqueue := hsubmitted.queue
    rw [if_pos (of_decide_eq_true hsuccess)] at hqueue
    exact hqueue

/-- A submit of any other region is a misuse of easyrdma. -/
theorem submit_outOfBounds {n : ℕ} (hno : ¬ h.OwnsWriteBuffer) :
    (owning.submit n).run h = .error .outOfBounds := by
  have hno' : ¬ ({ h with writeBuffer.usedSize := n } : RdmaSidebandDataImp size).OwnsWriteBuffer :=
    hno
  have hcall : (owning.queueBufferRegion).run { h with writeBuffer.usedSize := n } =
      .error .outOfBounds := by
    rw [owning, Exec.run_bind_ok (Exec.run_get _), if_neg hno']
    rfl
  rw [SendAccess.submit, Exec.run_bind_ok (Exec.run_modify _ h), Exec.run_bind_error hcall]

end RdmaSidebandDataImp

end Sideband
