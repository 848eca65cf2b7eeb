import Sideband.SharedMemory.SharedMemory

/-!
# Handles attached to their memory

What the operations of the shared memory transports do while no system call fails.

* `Attached size h shm`: the handle has mapped `size` bytes of the object behind its name, or
  will on first use. Both parties of a stream are attached to the same names, and an update of
  a name by one leaves the other attached (`Attached.update`).
* `Access mem w w'`: a step of a handle that turned the memory behind its name into `mem`.
  Each operation of `SharedMemorySidebandData` has one lemma that says which access it is.
* The double buffer's operations are those of its current buffer, then a switch: `onCurrent`
  turns an access of the current buffer into one of the pair (`run_onCurrent_ok`).
-/

namespace Sideband

open Foundation
open WithShm (kernel)

namespace SharedMemorySidebandData

/-! ### One buffer -/

/-- The handle has mapped `size` bytes of object `n`, the one behind its name. The object is as
long as the mapping, so no access below the size leaves it. -/
structure Mapped (size n : ℕ) (h : SharedMemorySidebandData) (shm : Shm) : Prop where
  bufferSize : h.bufferSize = size
  buffer : h.buffer = .into (.segment n) 0
  lookup : shm.names.lookup h.name = some n
  length : (shm.object n).length = size

/-- The handle after a successful `Init` that mapped object `n`. It has all of what `Init` sets. -/
def mappedTo (n : ℕ) (h : SharedMemorySidebandData) : SharedMemorySidebandData :=
  { h with fileName := h.name, mapFD := some n, buffer := .into (.segment n) 0 }

/-- The handle has mapped `size` bytes of the object behind its name, or will on first use. This
is all that one party knows of the other's handle. -/
structure Attached (size : ℕ) (h : SharedMemorySidebandData) (shm : Shm) : Prop where
  bufferSize : h.bufferSize = size
  mapped : h.buffer = .null ∨ ∃ n, Mapped size n h shm

/-- The handle has turned the memory behind its name into `mem`. A read is an access too, to the
memory as it was; the first use leaves what `Shm.view` says. -/
structure Access (mem : Bytes) (w w' : WithShm SharedMemorySidebandData) : Prop where
  name : w'.handle.name = w.handle.name
  mapped : ∃ n, Mapped mem.length n w'.handle w'.shm
  update : Shm.Update w.handle.name mem w.shm w'.shm

variable {size n : ℕ} {h : SharedMemorySidebandData} {shm shm' : Shm} {name mem mem' : Bytes}
  {w w' w'' : WithShm SharedMemorySidebandData}

theorem attached_new (id : Bytes) (size : ℕ) (shm : Shm) : Attached size (.new id size) shm :=
  ⟨rfl, .inl rfl⟩

theorem Mapped.attached (hm : Mapped size n h shm) : Attached size h shm :=
  ⟨hm.bufferSize, .inr ⟨n, hm⟩⟩

theorem Mapped.view (hm : Mapped size n h shm) : shm.view h.name size = shm.object n := by
  rw [Shm.view_of_lookup hm.lookup, resize_of_length hm.length]

/-- A mapping stays when the memory behind any name changes. -/
theorem Mapped.update (hm : Mapped size n h shm) (hu : Shm.Update name mem shm shm')
    (hsize : mem.length = size) : Mapped size n h shm' := by
  have hlookup := hu.lookup _ n hm.lookup
  refine ⟨hm.bufferSize, hm.buffer, hlookup, ?_⟩
  by_cases hname : h.name = name
  · obtain ⟨k, hk, hmem⟩ := hu.content
    have hkn : k = n := Option.some.inj (hk.symm.trans (hname ▸ hlookup))
    rw [← hkn, hmem, hsize]
  · rw [(hu.other _ hname).2 n hm.lookup, hm.length]

/-- A handle stays attached when the memory behind any name changes. -/
theorem Attached.update (ha : Attached size h shm) (hu : Shm.Update name mem shm shm')
    (hsize : mem.length = size) : Attached size h shm' := by
  refine ⟨ha.bufferSize, ha.mapped.imp_right ?_⟩
  rintro ⟨n, hm⟩
  exact ⟨n, hm.update hu hsize⟩

theorem Access.trans (h : Access mem w w') (h' : Access mem' w' w'') : Access mem' w w'' where
  name := h'.name.trans h.name
  mapped := h'.mapped
  update := h.update.trans (h.name ▸ h'.update)

theorem Access.attached (h : Access mem w w') (hsize : mem.length = size) :
    Attached size w'.handle w'.shm := by
  obtain ⟨n, hm⟩ := h.mapped
  exact hsize ▸ hm.attached

theorem Access.view (h : Access mem w w') (hsize : mem.length = size) :
    w'.shm.view w.handle.name size = mem := h.update.view_same hsize

/-- The first use maps the object behind the name; later ones find it mapped. -/
theorem getBuffer_ok (ha : Attached size w.handle w.shm) (hcalls : w.shm.calls = []) :
    ∃ n w', getBuffer.run w = .ok (.into (.segment n) 0, w') ∧
      Mapped size n w'.handle w'.shm ∧ Access (w.shm.view w.handle.name size) w w' := by
  rcases ha.mapped with hnull | ⟨n, hm⟩
  · -- the object is opened, brought to the handle's size, and mapped
    obtain ⟨n, shm₁, hopen, hn, hu, hresize⟩ := Shm.shmOpen_ok hcalls w.handle.name
    obtain ⟨shm₂, hshm₂⟩ : ∃ shm₂, shm₁.setObject n (w.shm.view w.handle.name size) = shm₂ :=
      ⟨_, rfl⟩
    have hu₂ : Shm.Update w.handle.name (w.shm.view w.handle.name size) w.shm shm₂ :=
      hshm₂ ▸ hu.trans (.setObject hu.calls hn _)
    have htrunc : (Shm.ftruncate n w.handle.bufferSize).run shm₁ = .ok (true, shm₂) := by
      rw [ha.bufferSize, Shm.ftruncate_ok hu.calls, hresize, hshm₂]
    have hinit : init.run w = .ok (⟨⟩, ⟨w.handle.mappedTo n, shm₂⟩) := by
      obtain ⟨named, hnamed⟩ : ∃ named, { w.handle with fileName := w.handle.name } = named :=
        ⟨_, rfl⟩
      have hopen' := WithShm.run_kernel_ok (w := ⟨named, w.shm⟩) hopen
      have htrunc' := WithShm.run_kernel_ok (w := ⟨{ named with mapFD := some n }, shm₁⟩) htrunc
      have hmap' := WithShm.run_kernel_ok (w := ⟨{ named with mapFD := some n }, shm₂⟩)
        (Shm.mmap_ok hu₂.calls n)
      rw [init, modifyHandle, Exec.run_bind_ok (Exec.run_modify _ _),
        Exec.run_bind_ok (Exec.run_get _)]
      dsimp only
      rw [hnamed, Exec.run_bind_ok hopen', modifyHandle, Exec.run_bind_ok (Exec.run_modify _ _)]
      dsimp only
      rw [Exec.run_bind_ok htrunc', if_pos rfl, Exec.run_bind_ok hmap', modifyHandle,
        Exec.run_bind_ok (Exec.run_modify _ _), if_neg (by simp), ← hnamed]
      rfl
    have hm : Mapped size n (w.handle.mappedTo n) shm₂ := by
      have hlookup : shm₂.names.lookup w.handle.name = some n := hshm₂ ▸ hn
      refine ⟨ha.bufferSize, rfl, hlookup, ?_⟩
      rw [← hshm₂, Shm.object_setObject _ (shm₁.inRange _ n hn), Shm.length_view]
    refine ⟨n, ⟨w.handle.mappedTo n, shm₂⟩, ?_, hm, rfl, ⟨n, by rwa [Shm.length_view]⟩, hu₂⟩
    rw [getBuffer, Exec.run_bind_ok (Exec.run_get w), hnull, if_neg (by simp),
      Exec.run_bind_ok hinit, Exec.run_bind_ok (Exec.run_get _), Exec.run_pure]
    rfl
  · refine ⟨n, w, ?_, hm, rfl, ⟨n, by rwa [Shm.length_view]⟩, ?_⟩
    · rw [getBuffer, Exec.run_bind_ok (Exec.run_get w), hm.buffer, if_pos (by simp),
        Exec.run_bind_ok (Exec.run_get w), hm.buffer, Exec.run_pure]
    · rw [hm.view]
      exact .refl hcalls hm.lookup

/-- A load goes to the object in the pointer, whatever the handle has mapped. -/
theorem run_load_ok (hsize : w.handle.bufferSize = size) (hlen : (w.shm.object n).length = size)
    {offset k : ℕ} (h : offset + k ≤ size) :
    (load (.into (.segment n) offset) k).run w = .ok (slice offset k (w.shm.object n), w) := by
  rw [load, Exec.run_bind_ok (Exec.run_get w), hsize,
    WithShm.run_kernel_ok (Shm.load_ok hlen h)]

theorem run_load_outOfBounds (hsize : w.handle.bufferSize = size) {offset k : ℕ} (hk : k ≠ 0)
    (h : size < offset + k) :
    (load (.into (.segment n) offset) k).run w = .error .outOfBounds := by
  rw [load, Exec.run_bind_ok (Exec.run_get w), hsize,
    WithShm.run_kernel_error (Shm.load_outOfBounds hk h)]

theorem load_ok (hm : Mapped size n w.handle w.shm) {offset k : ℕ} (h : offset + k ≤ size) :
    (load (.into (.segment n) offset) k).run w =
      .ok (slice offset k (w.shm.view w.handle.name size), w) := by
  rw [run_load_ok hm.bufferSize hm.length h, hm.view]

theorem load_outOfBounds (hm : Mapped size n w.handle w.shm) {offset k : ℕ} (hk : k ≠ 0)
    (h : size < offset + k) :
    (load (.into (.segment n) offset) k).run w = .error .outOfBounds :=
  run_load_outOfBounds hm.bufferSize hk h

theorem store_ok (hm : Mapped size n w.handle w.shm) (hcalls : w.shm.calls = []) {offset : ℕ}
    {bytes : Bytes} (h : offset + bytes.length ≤ size) :
    ∃ w', (store (.into (.segment n) offset) bytes).run w = .ok (⟨⟩, w') ∧
      Mapped size n w'.handle w'.shm ∧
      Access (overlay offset bytes (w.shm.view w.handle.name size)) w w' := by
  obtain ⟨shm', hrun, hu⟩ := Shm.store_ok hcalls hm.lookup hm.length h
  have hlen : (overlay offset bytes (w.shm.object n)).length = size := by
    rw [length_overlay (by rw [hm.length]; exact h), hm.length]
  have hm' : Mapped size n w.handle shm' := hm.update hu hlen
  refine ⟨⟨w.handle, shm'⟩, ?_, hm', ?_⟩
  · rw [store, Exec.run_bind_ok (Exec.run_get w), hm.bufferSize, WithShm.run_kernel_ok hrun]
  · rw [hm.view]
    exact ⟨rfl, ⟨n, by rwa [hlen]⟩, hu⟩

/-- `Write` stores at the start of the memory. -/
theorem write_ok (ha : Attached size w.handle w.shm) (hcalls : w.shm.calls = []) {bytes : Bytes}
    (h : bytes.length ≤ size) :
    ∃ w', (write bytes).run w = .ok (true, w') ∧
      Access (overlay 0 bytes (w.shm.view w.handle.name size)) w w' := by
  obtain ⟨n, w₁, hget, hm, hacc⟩ := getBuffer_ok ha hcalls
  obtain ⟨w₂, hstore, -, hacc₂⟩ := store_ok hm hacc.update.calls
    (show 0 + bytes.length ≤ size by omega)
  rw [hacc.name, hacc.view (Shm.length_view _ _ _)] at hacc₂
  refine ⟨w₂, ?_, hacc.trans hacc₂⟩
  rw [write, Exec.run_bind_ok hget, if_pos (by simp), Exec.run_bind_ok hstore, Exec.run_pure]

/-- `Read` copies from the start of the memory. -/
theorem read_ok (ha : Attached size w.handle w.shm) (hcalls : w.shm.calls = []) {dst : Bytes}
    {r : ℕ} (hr : r ≤ size) (hdst : r ≤ dst.length) :
    ∃ w', (read (some dst) r).run w =
        .ok (⟨true, some (overlay 0 ((w.shm.view w.handle.name size).take r) dst), none⟩, w') ∧
      Access (w.shm.view w.handle.name size) w w' := by
  obtain ⟨n, w₁, hget, hm, hacc⟩ := getBuffer_ok ha hcalls
  have hload := load_ok hm (show 0 + r ≤ size by omega)
  rw [hacc.name, hacc.view (Shm.length_view _ _ _)] at hload
  refine ⟨w₁, ?_, hacc⟩
  have hlen : ((w.shm.view w.handle.name size).take r).length = r := by
    rw [List.length_take, Shm.length_view]
    omega
  rw [read, Exec.run_bind_ok hget, if_pos (by simp), copyOut, if_neg (by omega), Int.toNat_natCast]
  have hcopy : (do
      let copied ← load (.into (.segment n) 0) r
      Exec.checked (storeDst 0 copied (some dst))).run w₁ =
      .ok (some (overlay 0 ((w.shm.view w.handle.name size).take r) dst), w₁) := by
    rw [Exec.run_bind_ok hload, slice, List.drop_zero, storeDst, storeAt_eq_some (by omega),
      Option.map_some, Exec.run_checked_some]
  rw [Exec.run_bind_ok hcopy, Exec.run_pure]

/-- A `Read` of more than the memory holds leaves it. -/
theorem read_outOfBounds (ha : Attached size w.handle w.shm) (hcalls : w.shm.calls = [])
    (dst : Option Bytes) {r : ℕ} (hr : size < r) :
    (read dst r).run w = .error .outOfBounds := by
  obtain ⟨n, w₁, hget, hm, -⟩ := getBuffer_ok ha hcalls
  have hload := load_outOfBounds hm (show r ≠ 0 by omega) (show size < 0 + r by omega)
  rw [read, Exec.run_bind_ok hget, if_pos (by simp), copyOut, if_neg (by omega), Int.toNat_natCast,
    bind_assoc, Exec.run_bind_error hload]

end SharedMemorySidebandData

/-! ### Two buffers -/

namespace DoubleBufferedSharedMemorySidebandData

/-- The current buffer of a handle that has completed `k` operations. The two parties of a stream
agree on it as long as they have completed as many. -/
def currentAt (k : ℕ) : Current := if k % 2 = 0 then .bufferA else .bufferB

@[simp]
theorem other_currentAt (k : ℕ) : (currentAt k).other = currentAt (k + 1) := by
  rcases Nat.mod_two_eq_zero_or_one k with h | h
  · simp [currentAt, h, Nat.add_mod, Current.other]
  · simp [currentAt, h, Nat.add_mod, Current.other]

/-- The name of the object behind one of the two buffers. -/
def slotName (id : Bytes) (c : Current) : Bytes := ((new id 0).buffer c).name

/-- The two buffers have different names. -/
theorem slotName_injective (id : Bytes) : Function.Injective (slotName id) := by
  intro c c' h
  have hne : ascii "_A".toList ≠ ascii "_B".toList := by decide
  cases c <;> cases c' <;>
    simp_all [slotName, buffer, new, SharedMemorySidebandData.new, SharedMemorySidebandData.name]

/-- Both buffers are attached to their names. -/
structure Attached (size : ℕ) (h : DoubleBufferedSharedMemorySidebandData) (shm : Shm) : Prop where
  name : ∀ c, (h.buffer c).name = slotName h.id c
  buffer : ∀ c, (h.buffer c).Attached size shm

/-- The handle of a stream after `k` operations: attached to both segments, with the current
buffer that the parity of `k` says. -/
structure At (size : ℕ) (id : Bytes) (k : ℕ) (h : DoubleBufferedSharedMemorySidebandData)
    (shm : Shm) : Prop where
  attached : Attached size h shm
  id : h.id = id
  current : h.current = currentAt k

/-- The handle has turned the memory behind its current buffer into `mem`. -/
structure Access (mem : Bytes) (w w' : WithShm DoubleBufferedSharedMemorySidebandData) : Prop where
  id : w'.handle.id = w.handle.id
  current : w'.handle.current = w.handle.current
  attached : Attached mem.length w'.handle w'.shm
  update : Shm.Update (slotName w.handle.id w.handle.current) mem w.shm w'.shm

variable {size : ℕ} {h : DoubleBufferedSharedMemorySidebandData} {shm shm' : Shm}
  {name mem : Bytes} {w w' : WithShm DoubleBufferedSharedMemorySidebandData} {α β : Type}

theorem attached_new (id : Bytes) (size : ℕ) (shm : Shm) : Attached size (.new id size) shm where
  name c := by cases c <;> rfl
  buffer c := by cases c <;> exact SharedMemorySidebandData.attached_new _ size shm

theorem Attached.update (ha : Attached size h shm) (hu : Shm.Update name mem shm shm')
    (hsize : mem.length = size) : Attached size h shm' :=
  ⟨ha.name, fun c => (ha.buffer c).update hu hsize⟩

@[simp]
theorem buffer_setBuffer_same (c : Current) (b : SharedMemorySidebandData)
    (h : DoubleBufferedSharedMemorySidebandData) : (h.setBuffer c b).buffer c = b := by
  cases c <;> rfl

theorem buffer_setBuffer_ne {c c' : Current} (b : SharedMemorySidebandData)
    (h : DoubleBufferedSharedMemorySidebandData) (hc : c' ≠ c) :
    (h.setBuffer c b).buffer c' = h.buffer c' := by
  cases c <;> cases c' <;> first | rfl | exact absurd rfl hc

@[simp]
theorem current_setBuffer (c : Current) (b : SharedMemorySidebandData)
    (h : DoubleBufferedSharedMemorySidebandData) : (h.setBuffer c b).current = h.current := by
  cases c <;> rfl

@[simp]
theorem id_setBuffer (c : Current) (b : SharedMemorySidebandData)
    (h : DoubleBufferedSharedMemorySidebandData) : (h.setBuffer c b).id = h.id := by
  cases c <;> rfl

@[simp]
theorem setBuffer_setBuffer (c : Current) (b b' : SharedMemorySidebandData)
    (h : DoubleBufferedSharedMemorySidebandData) :
    (h.setBuffer c b).setBuffer c b' = h.setBuffer c b' := by
  cases c <;> rfl

theorem setBuffer_buffer (c : Current) (h : DoubleBufferedSharedMemorySidebandData) :
    h.setBuffer c (h.buffer c) = h := by
  cases c <;> rfl

@[simp]
theorem buffer_switch (c c' : Current) (h : DoubleBufferedSharedMemorySidebandData) :
    ({ h with current := c } : DoubleBufferedSharedMemorySidebandData).buffer c' = h.buffer c' := by
  cases c' <;> rfl

/-- A method of the current buffer that accesses its memory accesses that of the pair. -/
theorem run_onCurrent_ok {x : Exec (WithShm SharedMemorySidebandData) α}
    {inner : WithShm SharedMemorySidebandData} {a : α} (ha : Attached size w.handle w.shm)
    (hx : x.run ⟨w.handle.buffer w.handle.current, w.shm⟩ = .ok (a, inner))
    (hacc : SharedMemorySidebandData.Access mem
      ⟨w.handle.buffer w.handle.current, w.shm⟩ inner) (hsize : mem.length = size) :
    ∃ w', (onCurrent x).run w = .ok (a, w') ∧ Access mem w w' ∧
      w'.handle.buffer w.handle.current = inner.handle ∧ w'.shm = inner.shm := by
  have hname := ha.name w.handle.current
  refine ⟨⟨w.handle.setBuffer w.handle.current inner.handle, inner.shm⟩, Exec.run_zoom_ok hx,
    ⟨id_setBuffer _ _ _, current_setBuffer _ _ _, ⟨?_, ?_⟩, ?_⟩, buffer_setBuffer_same _ _ _, rfl⟩
  · intro c
    by_cases hc : c = w.handle.current
    · rw [hc, buffer_setBuffer_same, hacc.name, hname, id_setBuffer]
    · rw [buffer_setBuffer_ne _ _ hc, ha.name, id_setBuffer]
  · intro c
    by_cases hc : c = w.handle.current
    · rw [hc, buffer_setBuffer_same]
      exact hacc.attached rfl
    · rw [buffer_setBuffer_ne _ _ hc, hsize]
      exact (ha.buffer c).update hacc.update hsize
  · exact hname ▸ hacc.update

theorem run_onCurrent_error {x : Exec (WithShm SharedMemorySidebandData) α} {e : Stop}
    (hx : x.run ⟨w.handle.buffer w.handle.current, w.shm⟩ = .error e) :
    (onCurrent x).run w = .error e :=
  Exec.run_zoom_error hx

theorem onCurrent_pure (a : α) : onCurrent (pure a) = pure a :=
  Exec.zoom_pure (fun w => by rw [setBuffer_buffer]) a

theorem onCurrent_bind (x : Exec (WithShm SharedMemorySidebandData) α)
    (f : α → Exec (WithShm SharedMemorySidebandData) β) :
    onCurrent (x >>= f) = onCurrent x >>= fun a => onCurrent (f a) := by
  refine Exec.zoom_bind ?_ ?_ x f
  · intro t w
    simp
  · intro t t' w
    simp

/-- The handle with its current buffer switched. -/
def switched (w : WithShm DoubleBufferedSharedMemorySidebandData) :
    WithShm DoubleBufferedSharedMemorySidebandData :=
  { w with handle := { w.handle with current := w.handle.current.other } }

theorem run_switch (w : WithShm DoubleBufferedSharedMemorySidebandData) :
    switch.run w = .ok (⟨⟩, switched w) := rfl

theorem at_new (id : Bytes) (size : ℕ) (shm : Shm) : At size id 0 (.new id size) shm :=
  ⟨attached_new id size shm, rfl, rfl⟩

theorem At.update {id : Bytes} {k : ℕ} (hat : At size id k h shm)
    (hu : Shm.Update name mem shm shm') (hsize : mem.length = size) : At size id k h shm' :=
  ⟨hat.attached.update hu hsize, hat.id, hat.current⟩

theorem At.access {id : Bytes} {k : ℕ} (hat : At size id k w.handle w.shm) (hacc : Access mem w w')
    (hsize : mem.length = size) : At size id k w'.handle w'.shm :=
  ⟨hsize ▸ hacc.attached, hacc.id.trans hat.id, hacc.current.trans hat.current⟩

/-- A switch ends the operation. -/
theorem At.switched {id : Bytes} {k : ℕ} (hat : At size id k w.handle w.shm) :
    At size id (k + 1) (switched w).handle w.shm where
  attached := by
    constructor
    · intro c
      simpa [DoubleBufferedSharedMemorySidebandData.switched] using hat.attached.name c
    · intro c
      simpa [DoubleBufferedSharedMemorySidebandData.switched] using hat.attached.buffer c
  id := hat.id
  current := by
    rw [← other_currentAt, ← hat.current]
    rfl

/-- An operation of the current buffer that accesses its memory, then a switch. -/
theorem operation_ok {id : Bytes} {k : ℕ} {x : Exec (WithShm SharedMemorySidebandData) α}
    {mem : Bytes} {a : α} (hat : At size id k w.handle w.shm) (hsize : mem.length = size)
    (hx : ∃ inner, x.run ⟨w.handle.buffer w.handle.current, w.shm⟩ = .ok (a, inner) ∧
      SharedMemorySidebandData.Access mem ⟨w.handle.buffer w.handle.current, w.shm⟩ inner) :
    ∃ w', (do
        let result ← onCurrent x
        switch
        return result).run w = .ok (a, w') ∧
      At size id (k + 1) w'.handle w'.shm ∧
      Shm.Update (slotName id (currentAt k)) mem w.shm w'.shm := by
  obtain ⟨inner, hrun, hacc⟩ := hx
  obtain ⟨w₁, hrun₁, hacc₁, -, -⟩ := run_onCurrent_ok hat.attached hrun hacc hsize
  refine ⟨DoubleBufferedSharedMemorySidebandData.switched w₁, ?_,
    (hat.access hacc₁ hsize).switched, ?_⟩
  · rw [Exec.run_bind_ok hrun₁, Exec.run_bind_ok (run_switch w₁), Exec.run_pure]
  · have hu := hacc₁.update
    rwa [hat.id, hat.current] at hu

/-- What the current buffer's memory holds. -/
theorem At.view_current {id : Bytes} {k : ℕ} (hat : At size id k w.handle w.shm) :
    w.shm.view (w.handle.buffer w.handle.current).name size =
      w.shm.view (slotName id (currentAt k)) size := by
  rw [hat.attached.name, hat.id, hat.current]

/-- `Write` stores at the start of the current buffer's memory, then switches. -/
theorem write_ok {id : Bytes} {k : ℕ} (hat : At size id k w.handle w.shm)
    (hcalls : w.shm.calls = []) {bytes : Bytes} (hbytes : bytes.length ≤ size) :
    ∃ w', (write bytes).run w = .ok (true, w') ∧ At size id (k + 1) w'.handle w'.shm ∧
      Shm.Update (slotName id (currentAt k))
        (overlay 0 bytes (w.shm.view (slotName id (currentAt k)) size)) w.shm w'.shm := by
  refine operation_ok hat (Shm.length_overlay_view _ _ hbytes) ?_
  rw [← hat.view_current]
  exact SharedMemorySidebandData.write_ok (hat.attached.buffer _) hcalls hbytes

/-- `Read` copies from the start of the current buffer's memory, then switches. -/
theorem read_ok {id : Bytes} {k : ℕ} (hat : At size id k w.handle w.shm)
    (hcalls : w.shm.calls = []) {dst : Bytes} {r : ℕ} (hr : r ≤ size) (hdst : r ≤ dst.length) :
    ∃ w', (read (some dst) r).run w = .ok (⟨true, some (overlay 0
          ((w.shm.view (slotName id (currentAt k)) size).take r) dst), none⟩, w') ∧
      At size id (k + 1) w'.handle w'.shm ∧
      Shm.Update (slotName id (currentAt k)) (w.shm.view (slotName id (currentAt k)) size)
        w.shm w'.shm := by
  refine operation_ok hat (Shm.length_view _ _ _) ?_
  rw [← hat.view_current]
  exact SharedMemorySidebandData.read_ok (hat.attached.buffer _) hcalls hr hdst

/-- A `Read` of more than the memory holds leaves it. -/
theorem read_outOfBounds {id : Bytes} {k : ℕ} (hat : At size id k w.handle w.shm)
    (hcalls : w.shm.calls = []) (dst : Option Bytes) {r : ℕ} (hr : size < r) :
    (read dst r).run w = .error .outOfBounds := by
  have hinner := SharedMemorySidebandData.read_outOfBounds
    (w := ⟨w.handle.buffer w.handle.current, w.shm⟩) (hat.attached.buffer _) hcalls dst hr
  rw [read, Exec.run_bind_error (run_onCurrent_error hinner)]

/-- `BeginDirectRead` hands out the start of the current buffer's memory. -/
theorem beginDirectRead_ok {id : Bytes} {k : ℕ} (hat : At size id k w.handle w.shm)
    (hcalls : w.shm.calls = []) (byteCount : ℤ) :
    ∃ n w', (beginDirectRead byteCount).run w = .ok (.into (.segment n) 0, w') ∧
      (w'.handle.buffer w'.handle.current).Mapped size n w'.shm ∧
      At size id k w'.handle w'.shm ∧
      Shm.Update (slotName id (currentAt k)) (w.shm.view (slotName id (currentAt k)) size)
        w.shm w'.shm := by
  obtain ⟨n, inner, hrun, hm, hacc⟩ := SharedMemorySidebandData.getBuffer_ok
    (w := ⟨w.handle.buffer w.handle.current, w.shm⟩) (hat.attached.buffer _) hcalls
  obtain ⟨w₁, hrun₁, hacc₁, hbuffer, hshm⟩ := run_onCurrent_ok hat.attached hrun hacc
    (Shm.length_view _ _ _)
  refine ⟨n, w₁, hrun₁, ?_, hat.access hacc₁ (Shm.length_view _ _ _), ?_⟩
  · rwa [hacc₁.current, hbuffer, hshm]
  · have hu := hacc₁.update
    rwa [hat.view_current, hat.id, hat.current] at hu

end DoubleBufferedSharedMemorySidebandData

end Sideband
