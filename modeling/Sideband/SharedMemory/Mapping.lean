import Sideband.Foundation.Machine
import Sideband.SharedMemory.Operations

/-!
# Operations on a segment that may not be mapped

A handle maps its segment on first use, and the first use may fail at `shm_open`, at `ftruncate`
or at `mmap`. `ActsOnMapped op w` says that operation `op` of handle `w` works on a mapped
segment, or reports failure and leaves the handle for the next operation to try again.

`shm_open` and `ftruncate` leave `_buffer` null when they fail, and the operations that test the
pointer `GetBuffer` returns act on mapped segments only. A failed `mmap` leaves `MAP_FAILED`, which
is not null and passes every test from then on; `ReadFromLengthPrefixed` tests the pointer after it
has moved it past the prefix, and `ReadLengthPrefix` does not test it. `Guarded` is the condition
that remains, and `actsOnMapped_iff` says that it is the exact one along every run that keeps it.
-/

namespace Sideband

open Foundation

namespace SharedMemorySidebandData

/-- The handle has mapped the object its descriptor is open on, and the object exists. It need
not be the one that the name leads to now. -/
def IsMapped (w : WithShm SharedMemorySidebandData) : Prop :=
  ∃ n, w.handle.mapFD = some n ∧ w.handle.buffer = .into (.segment n) 0 ∧ n < w.shm.objects.length

/-- The handle is as it was, but for the descriptor and the file name, which the next `Init` sets
before it reads them: `GetBuffer`, with which every operation starts, cannot tell. -/
def AsBefore (h h' : SharedMemorySidebandData) : Prop :=
  h' = { h with mapFD := h'.mapFD, fileName := h'.fileName } ∧
    ∀ shm, getBuffer.run ⟨h', shm⟩ = getBuffer.run ⟨h, shm⟩

/-- The operation returns success only with the segment mapped, and otherwise it reports failure
and leaves the handle as it was. If it goes outside its memory, it does so from a mapped segment;
whether it may go there at all is not the matter here. -/
def ActsOnMapped (op : Operation) (w : WithShm SharedMemorySidebandData) : Prop :=
  match (op.perform methods).run w with
  | .ok (success, w') => IsMapped w' ∨ success = false ∧ AsBefore w.handle w'.handle
  | .error _ => ∃ p w', getBuffer.run w = .ok (p, w') ∧ IsMapped w'

/-- The runs of one handle from its construction on, whatever the system calls return. Operations
that leave their memory have no step. -/
def sharedMemoryHandle : Machine (WithShm SharedMemorySidebandData) Operation where
  init w := ∃ id bufferSize, w.handle = .new id bufferSize
  next w op := ((op.perform methods).returned w).map Prod.snd

/-- The segment is mapped, or this use maps it, or this use fails before `mmap` in an operation
that tests the pointer. It is decided by the handle, the coming outcomes and the operation,
before the step. -/
def Guarded (w : WithShm SharedMemorySidebandData) (op : Operation) : Prop :=
  w.handle.buffer ≠ .null ∨
    (w.shm.opens && w.shm.truncates w.handle.bufferSize) = true ∧ w.shm.maps = true ∨
    (w.shm.opens && w.shm.truncates w.handle.bufferSize) = false ∧ op.testsPointer = true

/-- The handle has not mapped anything yet, or its segment. What breaks this is a failed `mmap`,
whose result is no null pointer. -/
def Consistent (w : WithShm SharedMemorySidebandData) : Prop :=
  w.handle.buffer = .null ∨ IsMapped w

variable {w w' w₁ : WithShm SharedMemorySidebandData} {op : Operation} {p : Pointer}

/-! ### The handle after a first use -/

theorem Initialised.isMapped {n : ℕ} (handle : w'.handle = w.handle.mappedTo n)
    {mem : Bytes} (opened : Shm.Opened w.handle.name n mem w.shm w'.shm) : IsMapped w' :=
  ⟨n, by rw [handle, mappedTo], by rw [handle, mappedTo], opened.inRange⟩

theorem not_isMapped_of_null (h : w.handle.buffer = .null) : ¬ IsMapped w := by
  rintro ⟨n, -, hbuffer, -⟩
  rw [h] at hbuffer
  cases hbuffer

theorem not_isMapped_of_invalid (h : w.handle.buffer = .invalid) : ¬ IsMapped w := by
  rintro ⟨n, -, hbuffer, -⟩
  rw [h] at hbuffer
  cases hbuffer

/-- What goes to memory through pointers only leaves the handle mapped. -/
theorem IsMapped.touched (h : IsMapped w) (ht : Touched w w') : IsMapped w' := by
  obtain ⟨n, hfd, hbuffer, hn⟩ := h
  exact ⟨n, by rw [ht.handle, hfd], by rw [ht.handle, hbuffer], by rwa [ht.stored.objects]⟩

/-- A first use sets the descriptor and the file name before it reads them. -/
theorem run_init_congr (h : SharedMemorySidebandData) (mapFD : Option ℕ) (fileName : Bytes)
    (shm : Shm) : init.run ⟨{ h with mapFD, fileName }, shm⟩ = init.run ⟨h, shm⟩ := by
  have hname : ({ h with mapFD, fileName } : SharedMemorySidebandData).name = h.name := rfl
  rw [init, Exec.run_bind_ok (run_modifyHandle _ _), Exec.run_bind_ok (run_modifyHandle _ _),
    Exec.run_bind_ok (Exec.run_get _), Exec.run_bind_ok (Exec.run_get _)]
  dsimp only
  rw [hname]
  cases hopen : (Shm.shmOpen h.name).run shm with
  | error e =>
    rw [Exec.run_bind_error (WithShm.run_kernel_error hopen),
      Exec.run_bind_error (WithShm.run_kernel_error hopen)]
  | ok r =>
    rw [Exec.run_bind_ok (WithShm.run_kernel_ok hopen),
      Exec.run_bind_ok (WithShm.run_kernel_ok hopen), Exec.run_bind_ok (run_modifyHandle _ _),
      Exec.run_bind_ok (run_modifyHandle _ _)]

/-- A first use that fails before `mmap` leaves the handle for the next one to try again. -/
theorem asBefore_of_refused {mapFD : Option ℕ} (hnull : w.handle.buffer = .null)
    (handle : w'.handle = { w.handle with fileName := w.handle.name, mapFD }) :
    AsBefore w.handle w'.handle := by
  refine ⟨by rw [handle], fun shm => ?_⟩
  have hnull' : w'.handle.buffer = .null := by rw [handle, hnull]
  rw [getBuffer, Exec.run_bind_ok (Exec.run_get _), Exec.run_bind_ok (Exec.run_get _), hnull,
    hnull', if_neg (by simp), handle]
  have hinit := run_init_congr w.handle mapFD w.handle.name shm
  obtain ⟨t, hrun, -⟩ := run_init ⟨w.handle, shm⟩
  rw [Exec.run_bind_ok hrun, Exec.run_bind_ok (hinit.trans hrun)]

/-! ### One operation -/

/-- An operation that finds its segment mapped, or maps it, acts on it. -/
theorem actsOnMapped_of_isMapped (hget : getBuffer.run w = .ok (p, w₁)) (h : IsMapped w₁) :
    ActsOnMapped op w := by
  rw [ActsOnMapped]
  cases hrun : (op.perform methods).run w with
  | error e => exact ⟨p, w₁, hget, h⟩
  | ok r => exact .inl (h.touched (perform_frame hget hrun))

/-- An operation that goes on without a segment reports success or leaves its memory. -/
theorem not_actsOnMapped {f : Pointer → Exec (WithShm SharedMemorySidebandData) Bool}
    (hf : op.perform methods = getBuffer >>= f) (hfollows : Follows op f)
    (hget : getBuffer.run w = .ok (p, w₁)) (h : ¬ IsMapped w₁)
    (hyields : Exec.Yields (· = true) (f p)) : ¬ ActsOnMapped op w := by
  rw [ActsOnMapped, hf, Exec.run_bind_ok hget]
  cases hrun : (f p).run w₁ with
  | error e =>
    rintro ⟨q, w', hget', hmapped⟩
    rw [hget] at hget'
    cases hget'
    exact h hmapped
  | ok r =>
    have htouched := hfollows.touches p w₁ r.1 r.2 hrun
    rintro (hmapped | ⟨hfalse, -⟩)
    · exact h (hmapped.touched htouched.symm)
    · rw [hyields w₁ r.1 r.2 hrun] at hfalse
      cases hfalse

/-- **One operation.** With the segment mapped or nothing mapped yet, the condition is exact. -/
theorem Consistent.acts_iff (hw : Consistent w) (op : Operation) :
    ActsOnMapped op w ↔ Guarded w op := by
  obtain ⟨w₁, hget, ⟨hset, rfl⟩ | ⟨hnull, hinit⟩⟩ := run_getBuffer w
  · have hmapped : IsMapped w₁ := hw.resolve_left hset
    exact iff_of_true (actsOnMapped_of_isMapped hget hmapped) (.inl hset)
  · obtain ⟨f, hf, hfollows⟩ := perform_eq op
    cases hinit with
    | mapped n opens truncates maps handle opened calls =>
      refine iff_of_true (actsOnMapped_of_isMapped hget (Initialised.isMapped handle opened)) ?_
      exact .inr (.inl ⟨by rw [opens, truncates]; rfl, maps⟩)
    | mapFailed n opens truncates maps handle =>
      have hinvalid : w₁.handle.buffer = .invalid := by rw [handle]
      refine iff_of_false (not_actsOnMapped hf hfollows hget (not_isMapped_of_invalid hinvalid)
        (hfollows.set _ (by simp [hinvalid]))) ?_
      simp [Guarded, hnull, opens, truncates, maps]
    | refused mapFD refused handle =>
      have hnull₁ : w₁.handle.buffer = .null := by rw [handle, hnull]
      cases htests : op.testsPointer with
      | true =>
        refine iff_of_true ?_ (.inr (.inr ⟨refused, htests⟩))
        rw [ActsOnMapped, perform_null htests (hnull₁ ▸ hget)]
        exact .inr ⟨rfl, asBefore_of_refused hnull handle⟩
      | false =>
        refine iff_of_false (not_actsOnMapped hf hfollows hget (not_isMapped_of_null hnull₁)
          (hnull₁ ▸ hfollows.untested htests)) ?_
        simp [Guarded, hnull, refused, htests]

/-! ### Runs -/

/-- An operation under the condition leaves the segment mapped or nothing mapped. -/
theorem Consistent.step (hw : Consistent w) (hok : Guarded w op)
    (h : sharedMemoryHandle.next w op = some w') : Consistent w' := by
  obtain ⟨r, hr, rfl⟩ := Option.map_eq_some_iff.mp h
  have hrun := Exec.returned_eq_some_iff.mp (show _ = some (r.1, r.2) from hr)
  obtain ⟨w₁, hget, hcases⟩ := run_getBuffer w
  have htouched := perform_frame hget hrun
  have hkept : IsMapped w₁ → Consistent r.2 := fun h => .inr (h.touched htouched)
  rcases hcases with ⟨hset, rfl⟩ | ⟨hnull, hinit⟩
  · exact hkept (hw.resolve_left hset)
  · cases hinit with
    | mapped n _ _ _ handle opened _ => exact hkept (Initialised.isMapped handle opened)
    | mapFailed n opens truncates maps _ => simp [Guarded, hnull, opens, truncates, maps] at hok
    | refused mapFD _ handle => exact .inl (by rw [htouched.handle, handle, hnull])

theorem consistent_of_reachable (hw : sharedMemoryHandle.Reachable Guarded w) : Consistent w := by
  refine hw.invariant ?_ fun _ _ _ hw hok h => hw.step hok h
  rintro w ⟨id, bufferSize, hnew⟩
  exact .inl (by rw [hnew, new])

/-- **Operations act on mapped segments.** Along every run whose operations meet the condition, an
operation acts on a mapped segment exactly when it meets the condition too. -/
theorem actsOnMapped_iff (hw : sharedMemoryHandle.Reachable Guarded w) (op : Operation) :
    ActsOnMapped op w ↔ Guarded w op :=
  (consistent_of_reachable hw).acts_iff op

/-- A new handle of eight bytes on a kernel without objects. -/
def fresh (calls : List Bool) : WithShm SharedMemorySidebandData :=
  ⟨initNew 8, .scripted calls⟩

theorem reachable_fresh {ok : WithShm SharedMemorySidebandData → Operation → Prop}
    (calls : List Bool) : sharedMemoryHandle.Reachable ok (fresh calls) :=
  .init ⟨_, _, rfl⟩

/-- After a refused `shm_open` the next operation maps the segment and acts on it. -/
theorem actsOnMapped_iff_retry : ∃ w,
    sharedMemoryHandle.next (fresh [false]) (.write [1]) = some w ∧
      ActsOnMapped .readLengthPrefix w := by
  have hok : Guarded (fresh [false]) (.write [1]) := .inr (.inr ⟨rfl, rfl⟩)
  refine ⟨_, rfl, (actsOnMapped_iff (.step (reachable_fresh [false]) hok rfl) _).mpr ?_⟩
  exact .inr (.inl ⟨rfl, rfl⟩)

/-- With a refused `mmap` a `Write` goes to `MAP_FAILED`, and with a refused `shm_open`
`ReadLengthPrefix` goes to null. -/
theorem not_actsOnMapped_refused :
    (sharedMemoryHandle.Reachable Anything (fresh [true, true, false]) ∧
      ¬ ActsOnMapped (.write [1]) (fresh [true, true, false])) ∧
    sharedMemoryHandle.Reachable Anything (fresh [false]) ∧
      ¬ ActsOnMapped .readLengthPrefix (fresh [false]) := by
  refine ⟨⟨reachable_fresh _, ?_⟩, reachable_fresh _, ?_⟩
  · rw [Consistent.acts_iff (.inl rfl)]
    simp [Guarded, fresh, initNew, new, Shm.scripted, Shm.opens, Shm.truncates, Shm.maps]
  · rw [Consistent.acts_iff (.inl rfl)]
    simp [Guarded, fresh, initNew, new, Shm.scripted, Shm.opens, Operation.testsPointer]

end SharedMemorySidebandData

end Sideband
