import Sideband.SharedMemory.Attached

/-!
# What a shared memory operation does to its handle

The operations of a handle under any script of system call outcomes.

* `Operation` lists the calls a handle takes, `Operation.perform` runs one and returns whether
  it reported success.
* `Initialised w w'` is what `Init` may leave behind: a mapping, `MAP_FAILED`, or the pointer
  as it was. `run_getBuffer` says that `GetBuffer` returns the pointer the handle holds after it.
* `Touched w w'`: what a call leaves that reads and stores through pointers only. It keeps the
  handle, the names and the size of every object. An operation is `GetBuffer` and then such a call
  (`perform_eq`).
-/

namespace Sideband

open Foundation

/-! ### Operations -/

/-- The calls of a handle that use its memory. The finish of a direct access is none of them: it
only moves the double buffer on. -/
inductive Operation
  | write (bytes : Bytes)
  | read (bytes : Option Bytes) (bufferSize : ℤ)
  | writeLengthPrefixed (bytes : Bytes)
  | readFromLengthPrefixed (bytes : Option Bytes) (bufferSize : ℤ)
  | readLengthPrefix
  | beginDirectRead (byteCount : ℤ)
  | beginDirectReadLengthPrefixed
  | beginDirectWrite
  deriving DecidableEq, Repr

/-- Perform an operation: whether it returned true or a pointer that is not null. A length, once
`ReadLengthPrefix` returns it, has been read. What else a call returns is left out. -/
def Operation.perform {δ : Type} (vt : SidebandMethods δ) : Operation → Exec δ Bool
  | .write bytes => vt.write bytes
  | .read bytes bufferSize => ReadResult.result <$> vt.read bytes bufferSize
  | .writeLengthPrefixed bytes => vt.writeLengthPrefixed bytes
  | .readFromLengthPrefixed bytes bufferSize =>
    ReadResult.result <$> vt.readFromLengthPrefixed bytes bufferSize
  | .readLengthPrefix => (fun _ => true) <$> vt.readLengthPrefix
  | .beginDirectRead byteCount => Pointer.isSet <$> vt.beginDirectRead byteCount
  | .beginDirectReadLengthPrefixed =>
    (fun r => r.1.isSet) <$> vt.beginDirectReadLengthPrefixed
  | .beginDirectWrite => Pointer.isSet <$> vt.beginDirectWrite

/-- The operation returns a failure if the pointer `GetBuffer` returned is null.
`ReadFromLengthPrefixed` compares the pointer behind the prefix, and `ReadLengthPrefix` none. -/
def Operation.testsPointer : Operation → Bool
  | .readFromLengthPrefixed _ _ => false
  | .readLengthPrefix => false
  | _ => true

/-! ### Scripted system calls -/

namespace Shm

theorem inRange_empty : ∀ name n, (∅ : AList fun _ : Bytes => ℕ).lookup name = some n →
    n < ([] : List Bytes).length := by
  intro name n h
  rw [AList.lookup_empty] at h
  cases h

/-- A kernel without objects, with the outcomes of the coming calls. -/
def scripted (calls : List Bool) : Shm where
  calls := calls
  inRange := inRange_empty
  distinct := distinct_empty

/-- The outcome of the coming `shm_open`. -/
def opens (shm : Shm) : Bool := shm.calls.headD true

/-- The outcome of the `ftruncate` to `size` bytes after it, which refuses a negative size
whatever else happens. -/
def truncates (size : ℤ) (shm : Shm) : Bool := shm.calls.tail.headD true && decide (0 ≤ size)

/-- The outcome of the `mmap` after both. -/
def maps (shm : Shm) : Bool := shm.calls.tail.tail.headD true

/-- The kernel with one outcome used up. -/
def answered (shm : Shm) : Shm := { shm with calls := shm.calls.tail }

/-- Object `n`, the one behind `name` or a new one, has been opened, and holds `mem` now. Other
names lead where they did, and other objects hold what they held. -/
structure Opened (name : Bytes) (n : ℕ) (mem : Bytes) (shm shm' : Shm) : Prop where
  found : shm.names.lookup name = some n ∨
    shm.names.lookup name = none ∧ n = shm.objects.length
  lookup : ∀ other, shm'.names.lookup other = if other = name then some n else
    shm.names.lookup other
  object : ∀ k, shm'.object k = if k = n then mem else shm.object k
  length : shm.objects.length ≤ shm'.objects.length

/-- Bytes have been stored to objects. No name and no size has changed, so that what is mapped
stays mapped. -/
structure Stored (shm shm' : Shm) : Prop where
  names : shm'.names = shm.names
  calls : shm'.calls = shm.calls
  objects : shm'.objects.length = shm.objects.length
  length : ∀ k, (shm'.object k).length = (shm.object k).length

variable {shm shm' shm'' : Shm} {name mem : Bytes} {n : ℕ} {size : ℤ}

theorem Stored.refl (shm : Shm) : Stored shm shm := ⟨rfl, rfl, rfl, fun _ => rfl⟩

theorem Stored.trans (h : Stored shm shm') (h' : Stored shm' shm'') : Stored shm shm'' where
  names := h'.names.trans h.names
  calls := h'.calls.trans h.calls
  objects := h'.objects.trans h.objects
  length k := (h'.length k).trans (h.length k)

theorem Stored.setObject (h : mem.length = (shm.object n).length) :
    Stored shm (shm.setObject n mem) where
  names := rfl
  calls := rfl
  objects := List.length_set
  length k := by
    by_cases hk : n = k
    · subst hk
      by_cases hn : n < shm.objects.length
      · rw [object_setObject mem hn, h]
      · simp [object, Shm.setObject, hn]
    · rw [object_setObject_ne mem hk]

theorem Opened.inRange (h : Opened name n mem shm shm') : n < shm'.objects.length :=
  shm'.inRange name n (by rw [h.lookup, if_pos rfl])

theorem run_systemCall_eq (shm : Shm) :
    systemCall.run shm = .ok (shm.calls.headD true, shm.answered) := rfl

@[simp]
theorem answered_names (shm : Shm) : shm.answered.names = shm.names := rfl

@[simp]
theorem answered_objects (shm : Shm) : shm.answered.objects = shm.objects := rfl

@[simp]
theorem answered_calls (shm : Shm) : shm.answered.calls = shm.calls.tail := rfl

@[simp]
theorem answered_object (shm : Shm) (k : ℕ) : shm.answered.object k = shm.object k := rfl

/-- An object that does not exist yet holds nothing. -/
theorem object_length (shm : Shm) : shm.object shm.objects.length = [] := by simp [object]

theorem shmOpen_refused (h : shm.opens = false) (name : Bytes) :
    (shmOpen name).run shm = .ok (none, shm.answered) := by
  rw [opens] at h
  rw [shmOpen, Exec.run_bind_ok (run_systemCall_eq shm), h]
  rfl

theorem shmOpen_opened (h : shm.opens = true) (name : Bytes) :
    ∃ n shm', (shmOpen name).run shm = .ok (some n, shm') ∧
      Opened name n (shm.object n) shm shm' ∧ shm'.calls = shm.calls.tail := by
  rw [opens] at h
  cases hn : shm.names.lookup name with
  | some n =>
    refine ⟨n, shm.answered, ?_, ⟨.inl hn, ?_, ?_, le_rfl⟩, rfl⟩
    · rw [shmOpen, Exec.run_bind_ok (run_systemCall_eq shm), if_pos h, Exec.run_bind_ok
        (Exec.run_get _)]
      simp [hn]
    · intro other
      by_cases hother : other = name
      · rw [if_pos hother, answered_names, hother, hn]
      · rw [if_neg hother, answered_names]
    · intro k
      by_cases hk : k = n
      · rw [if_pos hk, hk, answered_object]
      · rw [if_neg hk, answered_object]
  | none =>
    refine ⟨shm.objects.length, shm.answered.create name, ?_, ⟨.inr ⟨hn, rfl⟩, ?_, ?_, ?_⟩, rfl⟩
    · rw [shmOpen, Exec.run_bind_ok (run_systemCall_eq shm), if_pos h, Exec.run_bind_ok
        (Exec.run_get _)]
      simp only [answered_names, hn]
      rw [Exec.run_bind_ok (Exec.run_set _ _), Exec.run_pure, answered_objects]
    · intro other
      by_cases hother : other = name
      · rw [if_pos hother, hother]
        exact AList.lookup_insert _
      · rw [if_neg hother]
        exact AList.lookup_insert_ne hother
    · intro k
      rcases lt_trichotomy k shm.objects.length with hk | hk | hk
      · rw [if_neg (by omega)]
        exact (object_create name hk : (shm.answered.create name).object k = shm.answered.object k)
      · rw [if_pos hk, hk, object_length]
        exact object_create_new shm.answered name
      · rw [if_neg (by omega)]
        simp [object, create, hk.le, List.getElem?_append_right, show k - shm.objects.length ≠ 0
          by omega]
    · simp [create]

theorem ftruncate_refused (h : (shm.calls.headD true && decide (0 ≤ size)) = false) (n : ℕ) :
    (ftruncate n size).run shm = .ok (false, shm.answered) := by
  rw [ftruncate, Exec.run_bind_ok (run_systemCall_eq shm)]
  cases hcall : shm.calls.headD true with
  | false => rfl
  | true =>
    rw [hcall, Bool.true_and, decide_eq_false_iff_not] at h
    rw [if_pos rfl, if_pos (by omega)]
    rfl

theorem ftruncate_done (h : (shm.calls.headD true && decide (0 ≤ size)) = true) (n : ℕ) :
    (ftruncate n size).run shm =
      .ok (true, shm.answered.setObject n (resize size.toNat 0 (shm.object n))) := by
  rw [Bool.and_eq_true, decide_eq_true_eq] at h
  rw [ftruncate, Exec.run_bind_ok (run_systemCall_eq shm), if_pos h.1, if_neg (by omega)]
  rfl

/-- An object that is opened is brought to a new size. -/
theorem Opened.resized (h : Opened name n mem shm shm') (mem' : Bytes) :
    Opened name n mem' shm (shm'.answered.setObject n mem') where
  found := h.found
  lookup := h.lookup
  object k := by
    by_cases hk : k = n
    · rw [if_pos hk, hk]
      exact (object_setObject mem' h.inRange : (shm'.answered.setObject n mem').object n = mem')
    · rw [if_neg hk, object_setObject_ne mem' (Ne.symm hk), answered_object, h.object, if_neg hk]
  length := by
    rw [Shm.setObject, List.length_set]
    exact h.length

theorem run_mmap (shm : Shm) (n : ℕ) : (mmap n).run shm =
    .ok (if shm.calls.headD true then .into (.segment n) 0 else .invalid, shm.answered) := by
  rw [mmap, Exec.run_bind_ok (run_systemCall_eq shm)]
  split_ifs <;> rfl

/-- Nothing is read through a pointer that leads to no segment. -/
theorem run_load_unmapped {length : ℤ} {p : Pointer} {k : ℕ}
    (hp : ∀ m offset, p ≠ .into (.segment m) offset) (hk : k ≠ 0) :
    (load length p k).run shm = .error .outOfBounds := by
  unfold load
  rw [if_neg hk]
  split
  · rename_i m offset
    exact absurd rfl (hp m offset)
  · rfl

/-- Nothing is stored through a pointer that leads to no segment. -/
theorem run_store_unmapped {length : ℤ} {p : Pointer} {bytes : Bytes}
    (hp : ∀ m offset, p ≠ .into (.segment m) offset) (hbytes : bytes ≠ []) :
    (store length p bytes).run shm = .error .outOfBounds := by
  unfold store
  rw [if_neg hbytes]
  split
  · rename_i m offset
    exact absurd rfl (hp m offset)
  · rfl

/-- A read leaves the kernel as it is. -/
theorem of_run_load {length : ℤ} {p : Pointer} {k : ℕ} {bytes : Bytes}
    (h : (load length p k).run shm = .ok (bytes, shm')) : shm' = shm := by
  by_cases hk : k = 0
  · unfold load at h
    rw [if_pos hk] at h
    cases h
    rfl
  · by_cases hp : ∀ m offset, p ≠ .into (.segment m) offset
    · rw [run_load_unmapped hp hk] at h
      cases h
    · push Not at hp
      obtain ⟨m, offset, rfl⟩ := hp
      unfold load at h
      rw [if_neg hk] at h
      dsimp only at h
      split_ifs at h
      · rw [Exec.run_bind_ok (Exec.run_get shm)] at h
        cases hload : loadAt offset k (shm.object m) <;> rw [hload] at h <;> cases h
        rfl
      · cases h

/-- A store leaves the names and the sizes of all objects. -/
theorem of_run_store {length : ℤ} {p : Pointer} {bytes : Bytes}
    (h : (store length p bytes).run shm = .ok (⟨⟩, shm')) : Stored shm shm' := by
  by_cases hbytes : bytes = []
  · unfold store at h
    rw [if_pos hbytes] at h
    cases h
    exact .refl shm
  · by_cases hp : ∀ m offset, p ≠ .into (.segment m) offset
    · rw [run_store_unmapped hp hbytes] at h
      cases h
    · push Not at hp
      obtain ⟨m, offset, rfl⟩ := hp
      unfold store at h
      rw [if_neg hbytes] at h
      dsimp only at h
      split_ifs at h
      · rw [Exec.run_bind_ok (Exec.run_get shm)] at h
        by_cases hfits : offset + bytes.length ≤ (shm.object m).length
        · rw [storeAt_eq_some hfits, Exec.run_bind_ok (Exec.run_checked_some _ _)] at h
          cases h
          exact .setObject (length_overlay hfits)
        · rw [storeAt_eq_none (by omega)] at h
          cases h
      · cases h

/-- A window that is inside the mapping and inside the object can be read. -/
theorem run_load_segment {length : ℤ} {offset k : ℕ} (hlength : (offset + k : ℤ) ≤ length)
    (hobject : offset + k ≤ (shm.object n).length) :
    (load length (.into (.segment n) offset) k).run shm =
      .ok (slice offset k (shm.object n), shm) := by
  unfold load
  by_cases hk : k = 0
  · rw [if_pos hk, hk, slice_zero, Exec.run_pure]
  · rw [if_neg hk]
    dsimp only
    rw [if_pos hlength, Exec.run_bind_ok (Exec.run_get shm), loadAt_eq_some hobject,
      Exec.run_checked_some]

/-- Bytes that are inside the mapping and inside the object can be stored. -/
theorem run_store_segment {length : ℤ} {offset : ℕ} {bytes : Bytes}
    (hlength : (offset + bytes.length : ℤ) ≤ length)
    (hobject : offset + bytes.length ≤ (shm.object n).length) :
    ∃ shm', (store length (.into (.segment n) offset) bytes).run shm = .ok (⟨⟩, shm') := by
  unfold store
  by_cases hbytes : bytes = []
  · rw [if_pos hbytes]
    exact ⟨shm, rfl⟩
  · rw [if_neg hbytes]
    dsimp only
    rw [if_pos hlength, Exec.run_bind_ok (Exec.run_get shm), storeAt_eq_some hobject,
      Exec.run_bind_ok (Exec.run_checked_some _ _)]
    exact ⟨_, rfl⟩

/-- Bytes that lead out of the mapping cannot. -/
theorem run_store_outOfBounds {length : ℤ} {offset : ℕ} {bytes : Bytes} (hbytes : bytes ≠ [])
    (hlength : length < offset + bytes.length) :
    (store length (.into (.segment n) offset) bytes).run shm = .error .outOfBounds := by
  unfold store
  rw [if_neg hbytes]
  dsimp only
  rw [if_neg (not_le.mpr hlength)]
  rfl

/-- A store to the start of a segment lays the bytes over it. -/
theorem object_of_run_store_segment {length : ℤ} {bytes : Bytes}
    (h : (store length (.into (.segment n) 0) bytes).run shm = .ok (⟨⟩, shm')) :
    0 + bytes.length ≤ (shm.object n).length ∧
      shm'.object n = overlay 0 bytes (shm.object n) := by
  unfold store at h
  split_ifs at h with hbytes
  · cases h
    rw [hbytes, overlay_nil]
    exact ⟨Nat.zero_le _, rfl⟩
  · dsimp only at h
    split_ifs at h with hlength
    · rw [Exec.run_bind_ok (Exec.run_get shm)] at h
      by_cases hfits : 0 + bytes.length ≤ (shm.object n).length
      · rw [storeAt_eq_some hfits, Exec.run_bind_ok (Exec.run_checked_some _ _)] at h
        cases h
        have hn : n < shm.objects.length := by
          by_contra hn
          have hnil : shm.object n = [] := by simp [object, Nat.not_lt.mp hn]
          rw [hnil, List.length_nil, Nat.zero_add, Nat.le_zero, List.length_eq_zero_iff] at hfits
          exact hbytes hfits
        exact ⟨hfits, object_setObject _ hn⟩
      · rw [storeAt_eq_none (by omega)] at h
        cases h
    · cases h

/-- The bytes are there. -/
theorem of_run_store_segment {length : ℤ} {bytes : Bytes}
    (h : (store length (.into (.segment n) 0) bytes).run shm = .ok (⟨⟩, shm')) :
    bytes.length ≤ (shm'.object n).length ∧ (shm'.object n).take bytes.length = bytes := by
  obtain ⟨hfits, hobject⟩ := object_of_run_store_segment h
  rw [hobject, length_overlay hfits]
  exact ⟨by omega, by simp [overlay]⟩

/-- An object that is opened has been found under its name, or is a new one. -/
theorem Opened.view (h : Opened name n mem shm shm') (size : ℕ) :
    shm.view name size = resize size 0 (shm.object n) := by
  rcases h.found with hfound | ⟨hnone, rfl⟩
  · exact view_of_lookup hfound
  · simp [Shm.view, hnone, object_length, resize]

end Shm

namespace SharedMemorySidebandData

/-! ### First use -/

/-- What `Init` may leave behind, by the outcomes of its system calls: a mapping, `MAP_FAILED`,
or the null pointer that was there before. -/
inductive Initialised (w w' : WithShm SharedMemorySidebandData) : Prop
  | mapped (n : ℕ) (opens : w.shm.opens = true)
      (truncates : w.shm.truncates w.handle.bufferSize = true) (maps : w.shm.maps = true)
      (handle : w'.handle = w.handle.mappedTo n)
      (opened : Shm.Opened w.handle.name n
        (resize w.handle.bufferSize.toNat 0 (w.shm.object n)) w.shm w'.shm)
      (calls : w'.shm.calls = w.shm.calls.tail.tail.tail)
  | mapFailed (n : ℕ) (opens : w.shm.opens = true)
      (truncates : w.shm.truncates w.handle.bufferSize = true) (maps : w.shm.maps = false)
      (handle : w'.handle = { w.handle with
        fileName := w.handle.name, mapFD := some n, buffer := .invalid })
  | refused (mapFD : Option ℕ)
      (refused : (w.shm.opens && w.shm.truncates w.handle.bufferSize) = false)
      (handle : w'.handle = { w.handle with fileName := w.handle.name, mapFD })
      (object : ∀ k, w'.shm.object k = w.shm.object k)
      (calls : w.shm.calls = [] → w'.shm.calls = [])

variable {w w' : WithShm SharedMemorySidebandData}

theorem run_modifyHandle (f : SharedMemorySidebandData → SharedMemorySidebandData)
    (w : WithShm SharedMemorySidebandData) :
    (modifyHandle f).run w = .ok (⟨⟩, { w with handle := f w.handle }) := rfl

theorem run_init (w : WithShm SharedMemorySidebandData) :
    ∃ w', init.run w = .ok (⟨⟩, w') ∧ Initialised w w' := by
  obtain ⟨h, shm⟩ := w
  rw [init, Exec.run_bind_ok (run_modifyHandle _ _), Exec.run_bind_ok (Exec.run_get _)]
  dsimp only
  have hname : ({ h with fileName := h.name } : SharedMemorySidebandData).fileName = h.name := rfl
  cases hopens : shm.opens with
  | false =>
    have hopen := WithShm.run_kernel_ok (w := ⟨{ h with fileName := h.name }, shm⟩)
      (Shm.shmOpen_refused hopens h.name)
    rw [Exec.run_bind_ok hopen, Exec.run_bind_ok (run_modifyHandle _ _)]
    refine ⟨_, rfl, .refused none (by rw [hopens]; rfl) rfl (fun _ => rfl) fun hnone => ?_⟩
    exact congrArg List.tail hnone
  | true =>
    obtain ⟨n, shm₁, hrun, hopened, hcalls⟩ := Shm.shmOpen_opened hopens h.name
    have hopen := WithShm.run_kernel_ok (w := ⟨{ h with fileName := h.name }, shm⟩) hrun
    rw [Exec.run_bind_ok hopen, Exec.run_bind_ok (run_modifyHandle _ _)]
    dsimp only
    cases htruncates : shm.truncates h.bufferSize with
    | false =>
      have htrunc := WithShm.run_kernel_ok
        (w := ⟨{ h with fileName := h.name, mapFD := some n }, shm₁⟩)
        (Shm.ftruncate_refused (by rw [hcalls]; exact htruncates) n)
      rw [Exec.run_bind_ok htrunc]
      refine ⟨_, rfl, .refused (some n) (by rw [htruncates, Bool.and_false]) rfl (fun k => ?_)
        fun hnone => ?_⟩
      · refine (hopened.object k).trans ?_
        split_ifs with hk
        · rw [hk]
        · rfl
      · exact congrArg List.tail (hcalls.trans (congrArg List.tail hnone))
    | true =>
      have htrunc := WithShm.run_kernel_ok
        (w := ⟨{ h with fileName := h.name, mapFD := some n }, shm₁⟩)
        (Shm.ftruncate_done (by rw [hcalls]; exact htruncates) n)
      have hobject : shm₁.object n = shm.object n := by rw [hopened.object, if_pos rfl]
      have hresized := hopened.resized (resize h.bufferSize.toNat 0 (shm.object n))
      rw [Exec.run_bind_ok htrunc, if_pos rfl, hobject]
      obtain ⟨shm₂, hshm₂⟩ : ∃ shm₂,
        shm₁.answered.setObject n (resize h.bufferSize.toNat 0 (shm.object n)) = shm₂ := ⟨_, rfl⟩
      have hcalls₂ : shm₂.calls = shm.calls.tail.tail := by
        rw [← hshm₂, Shm.setObject, Shm.answered_calls, hcalls]
      rw [hshm₂] at hresized ⊢
      have hmap := WithShm.run_kernel_ok
        (w := ⟨{ h with fileName := h.name, mapFD := some n }, shm₂⟩) (Shm.run_mmap shm₂ n)
      rw [Exec.run_bind_ok hmap, Exec.run_bind_ok (run_modifyHandle _ _), hcalls₂]
      cases hmaps : shm.maps with
      | false =>
        rw [Shm.maps] at hmaps
        rw [hmaps]
        exact ⟨_, rfl, .mapFailed n hopens htruncates hmaps rfl⟩
      | true =>
        rw [Shm.maps] at hmaps
        rw [hmaps]
        refine ⟨_, rfl, .mapped n hopens htruncates hmaps rfl ?_ ?_⟩
        · exact ⟨hresized.found, hresized.lookup, hresized.object, hresized.length⟩
        · rw [Shm.answered_calls, hcalls₂]

/-- `GetBuffer` returns the pointer the handle holds afterwards. -/
theorem run_getBuffer (w : WithShm SharedMemorySidebandData) :
    ∃ w', getBuffer.run w = .ok (w'.handle.buffer, w') ∧
      (w.handle.buffer ≠ .null ∧ w' = w ∨ w.handle.buffer = .null ∧ Initialised w w') := by
  by_cases hnull : w.handle.buffer = .null
  · obtain ⟨w', hrun, hinit⟩ := run_init w
    refine ⟨w', ?_, .inr ⟨hnull, hinit⟩⟩
    rw [getBuffer, Exec.run_bind_ok (Exec.run_get w), hnull, if_neg (by simp),
      Exec.run_bind_ok hrun, Exec.run_bind_ok (Exec.run_get _), Exec.run_pure]
  · refine ⟨w, ?_, .inl ⟨hnull, rfl⟩⟩
    rw [getBuffer, Exec.run_bind_ok (Exec.run_get w), if_pos (by simpa [Pointer.isSet] using hnull),
      Exec.run_bind_ok (Exec.run_get w), Exec.run_pure]

theorem getBuffer_mapped {n : ℕ} {h : SharedMemorySidebandData}
    (hbuffer : h.buffer = .into (.segment n) 0) (shm : Shm) :
    getBuffer.run ⟨h, shm⟩ = .ok (.into (.segment n) 0, ⟨h, shm⟩) := by
  rw [getBuffer, Exec.run_bind_ok (Exec.run_get _), hbuffer, if_pos (by simp),
    Exec.run_bind_ok (Exec.run_get _), hbuffer, Exec.run_pure]

/-! ### Memory accesses -/

variable {α β : Type}

/-- Memory has been used through pointers only, so the handle is as it was, and so are the names
and the sizes of all objects. -/
structure Touched (w w' : WithShm SharedMemorySidebandData) : Prop where
  handle : w'.handle = w.handle
  stored : Shm.Stored w.shm w'.shm

instance : Std.Refl Touched := ⟨fun w => ⟨rfl, .refl w.shm⟩⟩

instance : IsTrans (WithShm SharedMemorySidebandData) Touched :=
  ⟨fun _ _ _ h h' => ⟨h'.handle.trans h.handle, h.stored.trans h'.stored⟩⟩

theorem Touched.symm {w w' : WithShm SharedMemorySidebandData} (h : Touched w w') :
    Touched w' w where
  handle := h.handle.symm
  stored := ⟨h.stored.names.symm, h.stored.calls.symm, h.stored.objects.symm,
    fun k => (h.stored.length k).symm⟩

theorem touches_load (p : Pointer) (k : ℕ) : Exec.Steps Touched (load p k) := by
  intro w bytes w' h
  rw [load, Exec.run_bind_ok (Exec.run_get w)] at h
  obtain ⟨shm, hload, rfl⟩ := WithShm.run_kernel_eq_ok_iff.mp h
  obtain rfl := Shm.of_run_load hload
  exact ⟨rfl, .refl w.shm⟩

theorem touches_store (p : Pointer) (bytes : Bytes) : Exec.Steps Touched (store p bytes) := by
  intro w _ w' h
  rw [store, Exec.run_bind_ok (Exec.run_get w)] at h
  obtain ⟨shm, hstore, rfl⟩ := WithShm.run_kernel_eq_ok_iff.mp h
  exact ⟨rfl, Shm.of_run_store hstore⟩

theorem touches_copyOut (bytes : Option Bytes) (p : Pointer) (k : ℤ) :
    Exec.Steps Touched (copyOut bytes p k) := by
  rw [copyOut]
  split_ifs
  · intro w _ w' h
    cases h
  · refine (touches_load p _).bind fun copied => ?_
    intro w a w' h
    cases hstore : storeDst 0 copied bytes <;> rw [hstore] at h <;> cases h
    exact ⟨rfl, .refl _⟩

/-- What an operation does with the pointer `GetBuffer` returned: whether it looks at a null
pointer at all, and what it answers then. -/
structure Follows (op : Operation) (f : Pointer → Exec (WithShm SharedMemorySidebandData) Bool) :
    Prop where
  touches : ∀ p, Exec.Steps Touched (f p)
  tested : op.testsPointer = true → f .null = pure false
  untested : op.testsPointer = false → Exec.Yields (· = true) (f .null)
  set : ∀ p, p.isSet = true → Exec.Yields (· = true) (f p)

/-- **Shape of an operation.** It gets the buffer, and then works through the pointer only. -/
theorem perform_eq (op : Operation) :
    ∃ f, op.perform methods = getBuffer >>= f ∧ Follows op f := by
  cases op with
  | write bytes =>
    refine ⟨_, rfl, fun p => ?_, fun _ => rfl, nofun, fun p hp => ?_⟩
    · split_ifs
      · exact (touches_store p bytes).bind fun _ => Exec.steps_pure true
      · exact Exec.steps_pure false
    · rw [if_pos hp]
      refine .bind (fun _ => Exec.yields_pure ?_) _
      rfl
  | read bytes bufferSize =>
    refine ⟨_, map_bind ReadResult.result getBuffer _, fun p => ?_, fun _ => rfl, nofun,
      fun p hp => ?_⟩
    · split_ifs
      · exact ((touches_copyOut bytes p bufferSize).bind fun _ => Exec.steps_pure _).map _
      · exact (Exec.steps_pure _).map _
    · rw [if_pos hp]
      refine .map (.bind (fun _ => Exec.yields_pure ?_) _)
      rfl
  | writeLengthPrefixed bytes =>
    refine ⟨_, rfl, fun p => ?_, fun _ => rfl, nofun, fun p hp => ?_⟩
    · split_ifs
      · exact (touches_store p _).bind fun _ => (touches_store _ bytes).bind fun _ =>
          Exec.steps_pure true
      · exact Exec.steps_pure false
    · rw [if_pos hp]
      refine .bind (fun _ => .bind (fun _ => Exec.yields_pure ?_) _) _
      rfl
  | readFromLengthPrefixed bytes bufferSize =>
    have hset (p : Pointer) : (p.add sizeofInt64).isSet = true := by cases p <;> simp [Pointer.add]
    have hyields (p : Pointer) : Exec.Yields (· = true)
        (ReadResult.result <$> if (p.add sizeofInt64).isSet = true then do
            let bytes ← copyOut bytes (p.add sizeofInt64) bufferSize
            return ⟨true, bytes, none⟩
          else return ⟨false, bytes, none⟩) := by
      rw [if_pos (hset p)]
      refine .map (.bind (fun _ => Exec.yields_pure ?_) _)
      rfl
    refine ⟨_, map_bind ReadResult.result getBuffer _, fun p => ?_, nofun, fun _ => hyields _,
      fun p _ => hyields p⟩
    dsimp only
    split_ifs
    · exact ((touches_copyOut bytes _ bufferSize).bind fun _ => Exec.steps_pure _).map _
    · exact (Exec.steps_pure _).map _
  | readLengthPrefix =>
    have hyields (p : Pointer) : Exec.Yields (· = true)
        ((fun _ => true) <$> do return int64OfLe (← load p sizeofInt64)) := by
      refine .map (.bind (fun _ => Exec.yields_pure ?_) _)
      rfl
    refine ⟨_, map_bind (fun _ => true) getBuffer _, fun p => ?_, nofun, fun _ => hyields _,
      fun p _ => hyields p⟩
    exact ((touches_load p sizeofInt64).bind fun _ => Exec.steps_pure _).map _
  | beginDirectRead byteCount =>
    exact ⟨fun p => pure p.isSet, map_eq_pure_bind _ _, fun p => Exec.steps_pure _, fun _ => rfl,
      nofun, fun p hp => Exec.yields_pure hp⟩
  | beginDirectReadLengthPrefixed =>
    refine ⟨_, map_bind (fun r : Pointer × Option ℤ => r.1.isSet) getBuffer _, fun p => ?_,
      fun _ => rfl, nofun, fun p hp => ?_⟩
    · split_ifs
      · exact ((touches_load p sizeofInt64).bind fun _ => Exec.steps_pure _).map _
      · exact (Exec.steps_pure _).map _
    · rw [if_pos hp]
      refine .map (.bind (fun _ => Exec.yields_pure ?_) _)
      cases p <;> simp [Pointer.add]
  | beginDirectWrite =>
    exact ⟨fun p => pure p.isSet, map_eq_pure_bind _ _, fun p => Exec.steps_pure _, fun _ => rfl,
      nofun, fun p hp => Exec.yields_pure hp⟩

/-- **Frame of an operation.** It leaves the handle as `GetBuffer` does, and stores bytes. -/
theorem perform_frame {op : Operation} {w w₁ w' : WithShm SharedMemorySidebandData} {p : Pointer}
    {success : Bool} (hget : getBuffer.run w = .ok (p, w₁))
    (h : (op.perform methods).run w = .ok (success, w')) :
    Touched w₁ w' := by
  obtain ⟨f, hf, hfollows⟩ := perform_eq op
  rw [hf, Exec.run_bind_ok hget] at h
  exact hfollows.touches p w₁ success w' h

/-- An operation that tests the pointer returns a failure at once if it is null. -/
theorem perform_null {op : Operation} {w w₁ : WithShm SharedMemorySidebandData}
    (htests : op.testsPointer = true) (hget : getBuffer.run w = .ok (.null, w₁)) :
    (op.perform methods).run w = .ok (false, w₁) := by
  obtain ⟨f, hf, hfollows⟩ := perform_eq op
  rw [hf, Exec.run_bind_ok hget, hfollows.tested htests, Exec.run_pure]

/-- An operation that tests the pointer reports whether it is set. -/
theorem perform_tested {op : Operation} {w w₁ w' : WithShm SharedMemorySidebandData} {p : Pointer}
    {success : Bool} (htests : op.testsPointer = true) (hget : getBuffer.run w = .ok (p, w₁))
    (h : (op.perform methods).run w = .ok (success, w')) : success = p.isSet := by
  by_cases hp : p.isSet = true
  · obtain ⟨f, hf, hfollows⟩ := perform_eq op
    rw [hf, Exec.run_bind_ok hget] at h
    rw [hp]
    exact hfollows.set p hp w₁ success w' h
  · obtain rfl : p = .null := by simpa [Pointer.isSet] using hp
    rw [perform_null htests hget] at h
    cases h
    rfl

/-- An operation that does not test the pointer reports no failure. -/
theorem perform_untested {op : Operation} {w w' : WithShm SharedMemorySidebandData}
    {success : Bool} (htests : op.testsPointer = false)
    (h : (op.perform methods).run w = .ok (success, w')) : success = true := by
  obtain ⟨f, hf, hfollows⟩ := perform_eq op
  obtain ⟨w₁, hget, -⟩ := run_getBuffer w
  rw [hf, Exec.run_bind_ok hget] at h
  by_cases hp : w₁.handle.buffer.isSet = true
  · exact hfollows.set _ hp w₁ success w' h
  · have hnull : w₁.handle.buffer = .null := by simpa [Pointer.isSet] using hp
    rw [hnull] at h
    exact hfollows.untested htests w₁ success w' h

/-- `GetBuffer` returns a pointer that is set if there is one, or if `Init` gets to `mmap`. -/
theorem getBuffer_isSet {w w₁ : WithShm SharedMemorySidebandData} {p : Pointer}
    (hget : getBuffer.run w = .ok (p, w₁)) : p.isSet = true ↔
      w.handle.buffer ≠ .null ∨ (w.shm.opens && w.shm.truncates w.handle.bufferSize) = true := by
  obtain ⟨w', hget', hcases⟩ := run_getBuffer w
  obtain ⟨rfl, rfl⟩ : w'.handle.buffer = p ∧ w' = w₁ := by
    rw [hget] at hget'
    cases hget'
    exact ⟨rfl, rfl⟩
  rcases hcases with ⟨hset, rfl⟩ | ⟨hnull, hinit⟩
  · exact iff_of_true (by simpa [Pointer.isSet] using hset) (.inl hset)
  · cases hinit with
    | mapped n opens truncates maps handle opened calls =>
      exact iff_of_true (by simp [handle, mappedTo]) (.inr (by rw [opens, truncates]; rfl))
    | mapFailed n opens truncates maps handle =>
      exact iff_of_true (by simp [handle]) (.inr (by rw [opens, truncates]; rfl))
    | refused mapFD refused handle =>
      exact iff_of_false (by simp [handle, hnull]) (by simp [hnull, refused])

/-- With calls that succeed, the first use maps the object behind the name, or a new one. -/
theorem getBuffer_maps {w : WithShm SharedMemorySidebandData} (hcalls : w.shm.calls = [])
    (hsize : 0 ≤ w.handle.bufferSize) (hnull : w.handle.buffer = .null) :
    ∃ n w₁, getBuffer.run w = .ok (.into (.segment n) 0, w₁) ∧
      w₁.handle = w.handle.mappedTo n ∧ Shm.Opened w.handle.name n
        (resize w.handle.bufferSize.toNat 0 (w.shm.object n)) w.shm w₁.shm ∧
      w₁.shm.calls = [] := by
  obtain ⟨w₁, hget, ⟨hset, -⟩ | ⟨-, hinit⟩⟩ := run_getBuffer w
  · exact absurd hnull hset
  · cases hinit with
    | mapped n opens truncates maps handle opened calls =>
      refine ⟨n, w₁, ?_, handle, opened, by rw [calls, hcalls]; rfl⟩
      rw [hget, handle]
      rfl
    | mapFailed n opens truncates maps handle => simp [Shm.maps, hcalls] at maps
    | refused mapFD refused handle =>
      simp [Shm.opens, Shm.truncates, hcalls] at refused
      omega

end SharedMemorySidebandData

end Sideband
