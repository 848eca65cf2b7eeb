import Sideband.Foundation.Queue
import Sideband.SharedMemory.Attached

/-!
# The double buffer as a two-slot queue

A writer handle and a reader handle of one double buffer (`doubleBuffer`). The writer calls
`Write`; the reader calls `Read`, or `BeginDirectRead` and later `FinishDirectRead` with other
steps in between. Nothing in the code keeps the two apart; `window` is the number of writes
without a finished read at which the writer waits.

* `doubleBuffer_refines`: with a window of two, the pair is a queue of two entries, the
  memory of the two buffers being its slots.
* `doubleBuffer_isTwoSlotQueue`: so the reads deliver the writes in order, memory that was
  handed out does not change, and the current buffers are the parities of the completed
  operations. With a window of three, a third write destroys the first one.
-/

namespace Sideband

open Foundation DoubleBufferedSharedMemorySidebandData

/-! ### The machine -/

/-- The memory behind a pointer. -/
def memoryAt (shm : Shm) : Pointer → Bytes
  | .into (.segment n) offset => (shm.object n).drop offset
  | _ => []

/-- A direct read that has begun and not finished, with the pointer that the reader was given and
what the memory behind it was at that time. -/
structure OpenRead where
  byteCount : ℕ
  buffer : Pointer
  /-- The memory behind the pointer when it was handed out. -/
  memory : Bytes

/-- The two handles, and a record of the completed operations. A direct read is completed when it
is finished; what it delivers is what its memory holds then. -/
structure DoubleBuffer where
  writer : DoubleBufferedSharedMemorySidebandData
  reader : DoubleBufferedSharedMemorySidebandData
  shm : Shm
  openRead : Option OpenRead := none
  writes : List Bytes := []
  /-- The requested size and the delivered bytes of each read. -/
  reads : List (ℕ × Bytes) := []

/-- The calls of the writer and of the reader. A direct read begins and finishes in two steps,
with writes in between or not. -/
inductive DoubleBufferStep
  | write (bytes : Bytes)
  /-- `Read` into the caller's buffer, for as many bytes as it has. -/
  | read (bytes : Bytes)
  | beginDirectRead (byteCount : ℕ)
  | finishDirectRead

namespace DoubleBuffer

/-- The state after a call of the writer that returned. -/
def wrote (bytes : Bytes) (s : DoubleBuffer) :
    WithShm DoubleBufferedSharedMemorySidebandData → DoubleBuffer :=
  fun w => { s with writer := w.handle, shm := w.shm, writes := s.writes ++ [bytes] }

/-- The state after a `Read` that returned. -/
def hasRead (requested : ℕ) (delivered : Bytes) (s : DoubleBuffer) :
    WithShm DoubleBufferedSharedMemorySidebandData → DoubleBuffer :=
  fun w => { s with
    reader := w.handle
    shm := w.shm
    openRead := none
    reads := s.reads ++ [(requested, delivered)] }

/-- The state after a `BeginDirectRead` that handed out `buffer`. -/
def began (byteCount : ℕ) (buffer : Pointer) (s : DoubleBuffer) :
    WithShm DoubleBufferedSharedMemorySidebandData → DoubleBuffer :=
  fun w => { s with
    reader := w.handle
    shm := w.shm
    openRead := some ⟨byteCount, buffer, memoryAt w.shm buffer⟩ }

end DoubleBuffer

/-- A writer and a reader of the double buffer `id`; the writer starts a write of at most `size`
bytes while fewer than `window` writes have no finished read, the reader a read while some write
has none. Nothing in the source does this waiting. A step is one call, and is taken if the call
returns; no system call fails. -/
def doubleBuffer (id : Bytes) (size window : ℕ) : Machine DoubleBuffer DoubleBufferStep where
  init s := ∃ shm : Shm, shm.calls = [] ∧ s = ⟨.new id size, .new id size, shm, none, [], []⟩
  next s
    | .write bytes =>
      if bytes.length ≤ size ∧ s.writes.length < s.reads.length + window then
        match (write bytes).run ⟨s.writer, s.shm⟩ with
        | .ok (_, w) => some (s.wrote bytes w)
        | .error _ => none
      else none
    | .read bytes =>
      if s.openRead.isNone ∧ s.reads.length < s.writes.length then
        match (read (some bytes) bytes.length).run ⟨s.reader, s.shm⟩ with
        | .ok (r, w) => some (s.hasRead bytes.length (r.bytes.getD []) w)
        | .error _ => none
      else none
    | .beginDirectRead byteCount =>
      if s.openRead.isNone ∧ s.reads.length < s.writes.length then
        match (beginDirectRead byteCount).run ⟨s.reader, s.shm⟩ with
        | .ok (buffer, w) => some (s.began byteCount buffer w)
        | .error _ => none
      else none
    | .finishDirectRead =>
      match s.openRead with
      | some d =>
        match finishDirectRead.run ⟨s.reader, s.shm⟩ with
        | .ok (_, w) =>
          some (s.hasRead d.byteCount ((memoryAt s.shm d.buffer).take d.byteCount) w)
        | .error _ => none
      | none => none

/-- A read of `requested` bytes that got `got` delivers the bytes of `written`, as far as they
were asked for. What the read returns beyond the written bytes is older content. -/
def Delivers (written : Bytes) (read : ℕ × Bytes) : Prop :=
  read.2.take written.length = written.take read.1

/-! ### One step -/

section Steps

variable {id : Bytes} {size : ℕ} (window : ℕ) {s s' : DoubleBuffer}

/-- The buffer that operation number `k` works on holds `mem`. -/
def slotMemory (id : Bytes) (size : ℕ) (shm : Shm) (k : ℕ) : Bytes :=
  shm.view (slotName id (currentAt k)) size

/-- What every state has: no call is scripted to fail, each handle has completed its recorded
operations, and an open read has the memory of the reader's buffer. It needs no window. -/
structure Running (id : Bytes) (size : ℕ) (s : DoubleBuffer) : Prop where
  calls : s.shm.calls = []
  writer : At size id s.writes.length s.writer s.shm
  reader : At size id s.reads.length s.reader s.shm
  le : s.reads.length ≤ s.writes.length
  openRead : ∀ d, s.openRead = some d → s.reads.length < s.writes.length ∧
    ∃ n, (s.reader.buffer s.reader.current).Mapped size n s.shm ∧
      d.buffer = .into (.segment n) 0

theorem Running.init {shm : Shm} (h : shm.calls = []) :
    Running id size ⟨.new id size, .new id size, shm, none, [], []⟩ where
  calls := h
  writer := at_new id size shm
  reader := at_new id size shm
  le := le_rfl
  openRead _ hd := nomatch hd

/-- The memory that an open read was handed out is that of the reader's buffer. -/
theorem Running.memoryAt_openRead (hr : Running id size s) {d : OpenRead}
    (hd : s.openRead = some d) :
    memoryAt s.shm d.buffer = slotMemory id size s.shm s.reads.length := by
  obtain ⟨-, n, hm, hbuffer⟩ := hr.openRead d hd
  rw [hbuffer, memoryAt, List.drop_zero, ← hm.view, hr.reader.attached.name, hr.reader.id,
    hr.reader.current, slotMemory]

/-- A write stores at the start of the writer's buffer. -/
theorem next_write (hr : Running id size s) {bytes : Bytes} (hbytes : bytes.length ≤ size)
    (hwindow : s.writes.length < s.reads.length + window) :
    ∃ w, (doubleBuffer id size window).next s (.write bytes) = some (s.wrote bytes w) ∧
      Running id size (s.wrote bytes w) ∧
      Shm.Update (slotName id (currentAt s.writes.length))
        (overlay 0 bytes (slotMemory id size s.shm s.writes.length)) s.shm w.shm := by
  obtain ⟨w, hrun, hat, hu⟩ := write_ok (w := ⟨s.writer, s.shm⟩) hr.writer hr.calls hbytes
  have hlen : (overlay 0 bytes (slotMemory id size s.shm s.writes.length)).length = size :=
    Shm.length_overlay_view _ _ hbytes
  refine ⟨w, ?_, ⟨hu.calls, ?_, hr.reader.update hu hlen, ?_, ?_⟩, hu⟩
  · simp only [doubleBuffer, hbytes, hwindow, and_self, if_true, hrun]
  · simpa [DoubleBuffer.wrote] using hat
  · have := hr.le
    simp only [DoubleBuffer.wrote, List.length_append, List.length_singleton]
    omega
  · intro d hd
    obtain ⟨hlt, n, hm, hbuffer⟩ := hr.openRead d hd
    refine ⟨?_, n, hm.update hu hlen, hbuffer⟩
    simp only [DoubleBuffer.wrote, List.length_append, List.length_singleton]
    omega

/-- The state after a read that changed no memory. -/
private theorem Running.hasRead (hr : Running id size s) (hlt : s.reads.length < s.writes.length)
    {w : WithShm DoubleBufferedSharedMemorySidebandData} {mem : Bytes} {name : Bytes}
    (hat : At size id (s.reads.length + 1) w.handle w.shm) (hu : Shm.Update name mem s.shm w.shm)
    (hsize : mem.length = size) (requested : ℕ) (delivered : Bytes) :
    Running id size (s.hasRead requested delivered w) where
  calls := hu.calls
  writer := hr.writer.update hu hsize
  reader := by simpa [DoubleBuffer.hasRead] using hat
  le := by
    simp only [DoubleBuffer.hasRead, List.length_append, List.length_singleton]
    omega
  openRead _ hd := nomatch hd

/-- A `Read` delivers the start of the reader's buffer. -/
theorem next_read (hr : Running id size s) (hopen : s.openRead = none)
    (hlt : s.reads.length < s.writes.length) {bytes : Bytes} (hbytes : bytes.length ≤ size) :
    ∃ w, (doubleBuffer id size window).next s (.read bytes) = some (s.hasRead bytes.length
        ((slotMemory id size s.shm s.reads.length).take bytes.length) w) ∧
      Running id size (s.hasRead bytes.length
        ((slotMemory id size s.shm s.reads.length).take bytes.length) w) ∧
      Shm.Update (slotName id (currentAt s.reads.length))
        (slotMemory id size s.shm s.reads.length) s.shm w.shm := by
  obtain ⟨w, hrun, hat, hu⟩ := read_ok (w := ⟨s.reader, s.shm⟩) hr.reader hr.calls hbytes le_rfl
  refine ⟨w, ?_, hr.hasRead hlt hat hu (Shm.length_view _ _ _) _ _, hu⟩
  have hfull : overlay 0 ((slotMemory id size s.shm s.reads.length).take bytes.length) bytes =
      (slotMemory id size s.shm s.reads.length).take bytes.length := by
    refine overlay_full ?_
    rw [List.length_take, slotMemory, Shm.length_view]
    omega
  rw [slotMemory] at hfull ⊢
  simp only [doubleBuffer, hopen, hlt, Option.isNone_none, and_self, if_true, hrun, hfull,
    Option.getD_some]

/-- A `Read` of more than the buffer holds does not return. -/
theorem next_read_outOfBounds (hr : Running id size s) {bytes : Bytes}
    (hbytes : size < bytes.length) : (doubleBuffer id size window).next s (.read bytes) = none := by
  have hrun := read_outOfBounds (w := ⟨s.reader, s.shm⟩) hr.reader hr.calls (some bytes) hbytes
  simp only [doubleBuffer, hrun, ite_self]

/-- `BeginDirectRead` hands out the reader's buffer. -/
theorem next_beginDirectRead (hr : Running id size s) (hopen : s.openRead = none)
    (hlt : s.reads.length < s.writes.length) (byteCount : ℕ) :
    ∃ buffer w, (doubleBuffer id size window).next s (.beginDirectRead byteCount) =
        some (s.began byteCount buffer w) ∧
      Running id size (s.began byteCount buffer w) ∧
      Shm.Update (slotName id (currentAt s.reads.length))
        (slotMemory id size s.shm s.reads.length) s.shm w.shm := by
  obtain ⟨n, w, hrun, hm, hat, hu⟩ := beginDirectRead_ok (w := ⟨s.reader, s.shm⟩) hr.reader
    hr.calls byteCount
  refine ⟨.into (.segment n) 0, w, ?_, ⟨hu.calls, hr.writer.update hu (Shm.length_view _ _ _), hat,
    hr.le, ?_⟩, hu⟩
  · simp only [doubleBuffer, hopen, hlt, Option.isNone_none, and_self, if_true, hrun]
  · intro d hd
    cases hd
    exact ⟨hlt, n, hm, rfl⟩

/-- `FinishDirectRead` ends an open read, whose memory is that of the reader's buffer. -/
theorem next_finishDirectRead (hr : Running id size s) {d : OpenRead} (hd : s.openRead = some d) :
    (doubleBuffer id size window).next s .finishDirectRead = some (s.hasRead d.byteCount
        ((slotMemory id size s.shm s.reads.length).take d.byteCount)
        (switched ⟨s.reader, s.shm⟩)) ∧
      Running id size (s.hasRead d.byteCount
        ((slotMemory id size s.shm s.reads.length).take d.byteCount)
        (switched ⟨s.reader, s.shm⟩)) := by
  have hlt := (hr.openRead d hd).1
  constructor
  · simp only [doubleBuffer, hd, hr.memoryAt_openRead hd]
    rfl
  · refine ⟨hr.calls, hr.writer, ?_, ?_, fun _ hd => nomatch hd⟩
    · have hat : At size id (s.reads.length + 1) (switched ⟨s.reader, s.shm⟩).handle
          (switched ⟨s.reader, s.shm⟩).shm := At.switched (w := ⟨s.reader, s.shm⟩) hr.reader
      simpa [DoubleBuffer.hasRead] using hat
    · simp only [DoubleBuffer.hasRead, List.length_append, List.length_singleton]
      omega

end Steps

/-! ### The queue -/

section Queue

variable {id : Bytes} {size : ℕ} {s s' : DoubleBuffer} {t : Fifo Bytes}

/-- The abstract queue of two entries: it takes a write while it has fewer, and gives them out in
order. -/
def twoSlotQueue : Machine (Fifo Bytes) (FifoStep Bytes) := fifo fun n => n < 2

/-- The buffer of operation number `k` begins with `written`. What is behind it is of earlier
writes. -/
def SlotHolds (id : Bytes) (size : ℕ) (shm : Shm) (k : ℕ) (written : Bytes) : Prop :=
  (slotMemory id size shm k).take written.length = written

/-- The pair of handles as a queue: its slots are the memory of the two buffers, and its entries
the writes that no finished read has got yet. An open read has the front entry. -/
structure IsQueue (id : Bytes) (size : ℕ) (s : DoubleBuffer) (t : Fifo Bytes) : Prop where
  running : Running id size s
  sent : t.sent = s.writes
  queue : t.queue = s.writes.drop s.reads.length
  received : List.Forall₂ Delivers t.received s.reads
  slots : InSlots 2 (SlotHolds id size s.shm) s.reads.length t.queue
  openRead : ∀ d, s.openRead = some d → d.memory = slotMemory id size s.shm s.reads.length

theorem currentAt_mod (k : ℕ) : currentAt (k % 2) = currentAt k := by
  simp [currentAt]

theorem slotMemory_mod (shm : Shm) (k : ℕ) :
    slotMemory id size shm (k % 2) = slotMemory id size shm k := by
  rw [slotMemory, currentAt_mod, slotMemory]

theorem currentAt_injOn {i j : ℕ} (h : i % 2 ≠ j % 2) : currentAt i ≠ currentAt j := by
  rcases Nat.mod_two_eq_zero_or_one i with hi | hi <;>
    rcases Nat.mod_two_eq_zero_or_one j with hj | hj <;> simp_all [currentAt]

/-- An operation that leaves the memory as it is leaves every buffer as it is. -/
theorem slotMemory_unchanged {shm shm' : Shm} {k : ℕ} (j : ℕ)
    (hu : Shm.Update (slotName id (currentAt k)) (slotMemory id size shm k) shm shm') :
    slotMemory id size shm' j = slotMemory id size shm j := by
  by_cases hj : currentAt j = currentAt k
  · rw [slotMemory, hj, hu.view_same (Shm.length_view _ _ _), slotMemory, slotMemory, hj]
  · exact hu.view_other (fun h => hj (slotName_injective id h)) size

theorem slotMemory_other {shm shm' : Shm} {mem : Bytes} {j k : ℕ}
    (hu : Shm.Update (slotName id (currentAt k)) mem shm shm') (hj : j % 2 ≠ k % 2) :
    slotMemory id size shm' j = slotMemory id size shm j :=
  hu.view_other (fun h => currentAt_injOn hj (slotName_injective id h)) size

/-- A buffer that was just written begins with what was written. -/
theorem slotHolds_update {shm shm' : Shm} {k : ℕ} {bytes : Bytes} (hbytes : bytes.length ≤ size)
    (hu : Shm.Update (slotName id (currentAt k)) (overlay 0 bytes (slotMemory id size shm k))
      shm shm') : SlotHolds id size shm' k bytes := by
  rw [SlotHolds, slotMemory, hu.view_same (Shm.length_overlay_view _ _ hbytes), slotMemory]
  simp [overlay]

theorem delivers_take {mem written : Bytes} (h : mem.take written.length = written) (n : ℕ) :
    Delivers written (n, mem.take n) := by
  rw [Delivers, List.take_take, Nat.min_comm, ← List.take_take, h]

/-- A write pushes its bytes: the buffer it overwrites holds no unread write. -/
theorem IsQueue.write (h : IsQueue id size s t) {bytes : Bytes} (hbytes : bytes.length ≤ size)
    (hwindow : s.writes.length < s.reads.length + 2)
    {w : WithShm DoubleBufferedSharedMemorySidebandData}
    (hr : Running id size (s.wrote bytes w))
    (hu : Shm.Update (slotName id (currentAt s.writes.length))
      (overlay 0 bytes (slotMemory id size s.shm s.writes.length)) s.shm w.shm) :
    ∃ t', twoSlotQueue.next t (.push bytes) = some t' ∧ IsQueue id size (s.wrote bytes w) t' := by
  have hle := h.running.le
  have hlength : t.queue.length = s.writes.length - s.reads.length := by
    rw [h.queue, List.length_drop]
  have hback : s.reads.length + t.queue.length = s.writes.length := by omega
  refine ⟨_, fifo_push (by simpa using (by omega : t.queue.length < 2)), hr, ?_, ?_, h.received,
    ?_, ?_⟩
  · rw [h.sent]
    rfl
  · rw [h.queue, DoubleBuffer.wrote, List.drop_append_of_le_length hle]
  · refine h.slots.push (by omega) ?_ ?_
    · rw [SlotHolds, slotMemory_mod, hback]
      exact slotHolds_update hbytes hu
    · intro k hk written hne hholds
      rw [hback, ← Nat.mod_eq_of_lt hk] at hne
      exact (congrArg (List.take written.length) (slotMemory_other hu hne)).trans hholds
  · -- the open read keeps the front of a queue of one: the write goes to the other buffer
    intro d hd
    have hlt := (h.running.openRead d hd).1
    have hne : s.reads.length % 2 ≠ s.writes.length % 2 :=
      InSlots.slot_ne hlt (by omega)
    exact (h.openRead d hd).trans (slotMemory_other hu hne).symm

/-- A finished read pops the write it delivers. -/
theorem IsQueue.read (h : IsQueue id size s t) (hlt : s.reads.length < s.writes.length)
    {w : WithShm DoubleBufferedSharedMemorySidebandData} {n : ℕ}
    (hr : Running id size
      (s.hasRead n ((slotMemory id size s.shm s.reads.length).take n) w))
    (hmem : ∀ k, slotMemory id size w.shm k = slotMemory id size s.shm k) :
    ∃ t', twoSlotQueue.next t .pop = some t' ∧ IsQueue id size
      (s.hasRead n ((slotMemory id size s.shm s.reads.length).take n) w) t' := by
  obtain ⟨written, rest, hqueue⟩ : ∃ written rest, t.queue = written :: rest := by
    refine List.exists_cons_of_ne_nil fun hnil => ?_
    have hlength := congrArg List.length (h.queue.symm.trans hnil)
    rw [List.length_drop, List.length_nil] at hlength
    omega
  have hslots := h.slots
  rw [hqueue] at hslots
  obtain ⟨hfront, hrest⟩ := hslots.pop
  rw [SlotHolds, slotMemory_mod] at hfront
  refine ⟨_, fifo_pop hqueue, hr, h.sent, ?_, ?_, ?_, fun _ hd => nomatch hd⟩
  · have htail := congrArg List.tail (hqueue.symm.trans h.queue)
    rw [List.tail_cons, List.tail_drop] at htail
    rw [htail, DoubleBuffer.hasRead, List.length_append, List.length_singleton]
  · exact List.rel_append h.received (.cons (delivers_take hfront n) .nil)
  · rw [DoubleBuffer.hasRead, List.length_append, List.length_singleton]
    exact hrest.mono fun k u hk => (congrArg (List.take u.length) (hmem k)).trans hk

/-- Handing out the reader's buffer leaves the queue. -/
theorem IsQueue.began (h : IsQueue id size s t) {buffer : Pointer} {byteCount : ℕ}
    {w : WithShm DoubleBufferedSharedMemorySidebandData}
    (hr : Running id size (s.began byteCount buffer w))
    (hu : Shm.Update (slotName id (currentAt s.reads.length))
      (slotMemory id size s.shm s.reads.length) s.shm w.shm) :
    IsQueue id size (s.began byteCount buffer w) t where
  running := hr
  sent := h.sent
  queue := h.queue
  received := h.received
  slots := h.slots.mono fun k u hk =>
    (congrArg (List.take u.length) (slotMemory_unchanged k hu)).trans hk
  openRead d hd := by
    have hmem := hr.memoryAt_openRead hd
    cases hd
    exact hmem

/-- **Refinement.** With a window of two, the pair of handles is a queue of two entries. The step
that the window rules out is the one that stores over an entry that is not read. -/
theorem doubleBuffer_refines (id : Bytes) (size : ℕ) :
    Machine.Refinement (doubleBuffer id size 2) Anything twoSlotQueue (IsQueue id size) where
  init := by
    rintro s ⟨shm, hcalls, rfl⟩
    exact ⟨{}, rfl, .init hcalls, rfl, rfl, .nil, .nil _ _ _, fun d hd => nomatch hd⟩
  step := by
    rintro s t a s' h - hnext
    have hr := h.running
    cases a with
    | write bytes =>
      -- a write is a push
      have hguard : bytes.length ≤ size ∧ s.writes.length < s.reads.length + 2 := by
        by_contra hno
        simp [doubleBuffer, hno] at hnext
      obtain ⟨w, hw, hr', hu⟩ := next_write 2 hr hguard.1 hguard.2
      cases hnext.symm.trans hw
      exact .inr ⟨_, h.write hguard.1 hguard.2 hr' hu⟩
    | read bytes =>
      -- a `Read` is a pop, and asks for no more than the buffer, or it would have stopped
      have hguard : s.openRead = none ∧ s.reads.length < s.writes.length := by
        by_contra hno
        simp [doubleBuffer, hno] at hnext
      have hbytes : bytes.length ≤ size := by
        by_contra hlong
        rw [next_read_outOfBounds 2 hr (not_le.mp hlong)] at hnext
        cases hnext
      obtain ⟨w, hw, hr', hu⟩ := next_read 2 hr hguard.1 hguard.2 hbytes
      cases hnext.symm.trans hw
      exact .inr ⟨_, h.read hguard.2 hr' fun k => slotMemory_unchanged k hu⟩
    | beginDirectRead byteCount =>
      -- a direct read takes its message only when it finishes
      have hguard : s.openRead = none ∧ s.reads.length < s.writes.length := by
        by_contra hno
        simp [doubleBuffer, hno] at hnext
      obtain ⟨buffer, w, hw, hr', hu⟩ := next_beginDirectRead 2 hr hguard.1 hguard.2 byteCount
      cases hnext.symm.trans hw
      exact .inl (h.began hr' hu)
    | finishDirectRead =>
      cases hd : s.openRead with
      | none => simp [doubleBuffer, hd] at hnext
      | some d =>
        obtain ⟨hw, hr'⟩ := next_finishDirectRead 2 hr hd
        cases hnext.symm.trans hw
        exact .inr ⟨_, h.read (hr.openRead d hd).1 hr' fun _ => rfl⟩

end Queue

/-! ### The window -/

section Window

variable {id : Bytes} {size : ℕ} {s : DoubleBuffer}

/-- What the double buffer promises in a state: the reads got the writes in order, what was
handed out has not changed, the current buffers are the parities of the completed operations, and
no call that may start fails to return. -/
structure IsTwoSlotQueue (id : Bytes) (size : ℕ) (s : DoubleBuffer) : Prop where
  /-- The `k`-th read delivers the `k`-th write. -/
  delivers : ∀ (k : ℕ) (read : ℕ × Bytes), s.reads[k]? = some read →
    ∃ written, s.writes[k]? = some written ∧ Delivers written read
  /-- Memory that was handed out does not change. -/
  stable : ∀ d, s.openRead = some d → memoryAt s.shm d.buffer = d.memory
  writer : s.writer.current = currentAt s.writes.length
  reader : s.reader.current = currentAt s.reads.length
  /-- Every write that may start returns. -/
  write : ∀ bytes, bytes.length ≤ size → s.writes.length < s.reads.length + 2 →
    ((doubleBuffer id size 2).next s (.write bytes)).isSome
  /-- Every read that may start returns, a `Read` if it asks for no more than the buffer. -/
  read : s.openRead = none → s.reads.length < s.writes.length →
    (∀ bytes, ((doubleBuffer id size 2).next s (.read bytes)).isSome ↔ bytes.length ≤ size) ∧
      ∀ byteCount, ((doubleBuffer id size 2).next s (.beginDirectRead byteCount)).isSome
  finish : s.openRead.isSome → ((doubleBuffer id size 2).next s .finishDirectRead).isSome

theorem IsQueue.isTwoSlotQueue {t : Fifo Bytes} (h : IsQueue id size s t)
    (ht : twoSlotQueue.Reachable Anything t) : IsTwoSlotQueue id size s where
  delivers k read hk := by
    have hreads := (List.getElem?_eq_some_iff.mp hk).1
    have hlength := h.received.length_eq
    have hsent := fifo_sent_eq ht
    rw [h.sent] at hsent
    refine ⟨t.received[k], ?_, ?_⟩
    -- what was received is the front of what was sent
    · rw [hsent, List.getElem?_append_left (by omega), List.getElem?_eq_getElem]
    · have hget := h.received.get (i := k) (by omega) hreads
      rw [List.get_eq_getElem, List.get_eq_getElem] at hget
      rwa [← (List.getElem?_eq_some_iff.mp hk).2]
  stable d hd := (h.running.memoryAt_openRead hd).trans (h.openRead d hd).symm
  writer := h.running.writer.current
  reader := h.running.reader.current
  write bytes hbytes hwindow := by
    obtain ⟨w, hw, -⟩ := next_write 2 h.running hbytes hwindow
    rw [hw, Option.isSome_some]
  read hopen hlt := by
    refine ⟨fun bytes => ⟨?_, ?_⟩, ?_⟩
    · intro hsome
      by_contra hlong
      rw [next_read_outOfBounds 2 h.running (not_le.mp hlong)] at hsome
      cases hsome
    · intro hbytes
      obtain ⟨w, hw, -⟩ := next_read 2 h.running hopen hlt hbytes
      rw [hw, Option.isSome_some]
    · intro byteCount
      obtain ⟨buffer, w, hw, -⟩ := next_beginDirectRead 2 h.running hopen hlt byteCount
      rw [hw, Option.isSome_some]
  finish hsome := by
    obtain ⟨d, hd⟩ := Option.isSome_iff_exists.mp hsome
    rw [(next_finishDirectRead 2 h.running hd).1, Option.isSome_some]

/-- A third write before the first read: the first message is lost. -/
theorem exists_lost_write (id : Bytes) (hsize : 0 < size) :
    ∃ s, (doubleBuffer id size 3).Reachable Anything s ∧ s.writes = [[1], [2], [3]] ∧
      s.reads = [(1, [3])] := by
  have hinit : (doubleBuffer id size 3).init ⟨.new id size, .new id size, {}, none, [], []⟩ :=
    ⟨{}, rfl, rfl⟩
  have hfits (b : UInt8) : [b].length ≤ size := hsize
  have hr₀ : Running id size ⟨.new id size, .new id size, {}, none, [], []⟩ := .init rfl
  obtain ⟨w₁, hw₁, hr₁, -⟩ := next_write 3 hr₀ (hfits 1) (by simp)
  obtain ⟨w₂, hw₂, hr₂, -⟩ := next_write 3 hr₁ (hfits 2) (by simp [DoubleBuffer.wrote])
  obtain ⟨w₃, hw₃, hr₃, hu⟩ := next_write 3 hr₂ (hfits 3) (by simp [DoubleBuffer.wrote])
  obtain ⟨w₄, hw₄, hr₄, -⟩ := next_read 3 hr₃ rfl (by simp [DoubleBuffer.wrote]) (hfits 0)
  refine ⟨_, .step (.step (.step (.step (.init hinit) trivial hw₁) trivial hw₂) trivial hw₃)
    trivial hw₄, rfl, ?_⟩
  -- the third write is operation number 2, which works on the buffer of operation number 0
  have hthird : (slotMemory id size w₃.shm 2).take 1 = [3] := slotHolds_update (hfits 3) hu
  rw [← slotMemory_mod] at hthird
  exact congrArg (fun got => [(1, got)]) hthird

/-- **The double buffer is a two-slot queue**, and two is the largest window for which it is:
over every interleaving of a writer and a reader that keep within the window, each read takes the
oldest message that is not read. -/
theorem doubleBuffer_isTwoSlotQueue (h : (doubleBuffer id size 2).Reachable Anything s) :
    IsTwoSlotQueue id size s ∧
      (0 < size → ∃ s, (doubleBuffer id size 3).Reachable Anything s ∧
        ∃ written read, s.writes[0]? = some written ∧ s.reads[0]? = some read ∧
          ¬ Delivers written read) := by
  obtain ⟨t, ht, hqueue⟩ := (doubleBuffer_refines id size).reachable h
  refine ⟨hqueue.isTwoSlotQueue ht, fun hsize => ?_⟩
  obtain ⟨lost, hlost, hwrites, hreads⟩ := exists_lost_write id hsize
  refine ⟨lost, hlost, [1], (1, [3]), by rw [hwrites]; rfl, by rw [hreads]; rfl, ?_⟩
  simp [Delivers]

/-- Two writes, the first of them read directly. -/
theorem doubleBuffer_isTwoSlotQueue_run :
    0 < 1 ∧ ∃ s, (doubleBuffer [] 1 2).Reachable Anything s ∧ s.reads = [(1, [7])] ∧
      IsTwoSlotQueue [] 1 s ∧ ∃ s, (doubleBuffer [] 1 3).Reachable Anything s ∧
        ∃ written read, s.writes[0]? = some written ∧ s.reads[0]? = some read ∧
          ¬ Delivers written read := by
  have hexec : (doubleBuffer [] 1 2).exec ⟨.new [] 1, .new [] 1, {}, none, [], []⟩
      [.write [7], .beginDirectRead 1, .write [8], .finishDirectRead] = some _ := rfl
  have hinit : (doubleBuffer [] 1 2).init ⟨.new [] 1, .new [] 1, {}, none, [], []⟩ :=
    ⟨{}, rfl, rfl⟩
  have hrun := Machine.exec_reachable hinit hexec
  exact ⟨Nat.one_pos, _, hrun, rfl, (doubleBuffer_isTwoSlotQueue hrun).1,
    (doubleBuffer_isTwoSlotQueue hrun).2 Nat.one_pos⟩

end Window

end Sideband
