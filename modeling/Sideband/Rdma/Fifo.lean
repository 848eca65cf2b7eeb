import Sideband.Foundation.Queue
import Sideband.Rdma.Calls

/-!
# RDMA messages come out in order

A writer that runs `WriteSidebandMessage` and a reader that runs `ReadSidebandMessage`, each in
three steps (`rdmaLink`): begin, fill or parse, finish. Between them the network delivers what
is in flight. The steps of the two and of the network come in any order.

* `writeSidebandMessage_of_steps`, `readSidebandMessage_of_steps`: the steps are those of the
  two calls.
* `rdmaLink_refines`: the link is a queue of messages, spread over the region that the reader
  holds, the delivered regions and the regions in flight.
* `rdmaLink_isMessageQueue`: so reads return the messages in order, and a region keeps its
  bytes while it is in flight or with the reader.
-/

namespace Sideband

open Foundation

/-! ### The machine -/

open RdmaSidebandDataImp (methods)

/-- How far the writer is in `WriteSidebandMessage`: before its begin, with the pointer that the
begin returned, or with the message stored behind it. -/
inductive Writing (M : Type)
  | idle
  | begun (m : M) (buffer : Pointer)
  | filled (m : M)

/-- How far the reader is in `ReadSidebandMessage`: before its begin, with what the begin
returned, or with the message parsed and its region still held. -/
inductive Reading (M : Type)
  | idle
  | begun (buffer : Pointer) (bufferSize : ℤ)
  | parsed (success : Option M)

/-- A writer and a reader at the two ends of a connection, and a record of the messages written
and of what the reads returned. Of each handle only the session of this direction is used. -/
structure RdmaLink (M : Type) (size : ℕ) where
  writer : RdmaSidebandDataImp size
  reader : RdmaSidebandDataImp size
  writing : Writing M := .idle
  reading : Reading M := .idle
  written : List M := []
  reads : List (Option M) := []

inductive RdmaLinkStep (M : Type)
  /-- `prefer` is the region easyrdma picks when both are free. -/
  | beginWrite (m : M) (prefer : Fin 2)
  | fill
  | finishWrite
  | deliver (r : Fin 2)
  | beginRead
  | parse
  | finishRead

section Link

variable {size : ℕ} {M : Type} (codec : MessageLite M)

/-- The writer's handle with easyrdma's next choice of a region. -/
def RdmaSidebandDataImp.withPrefer (prefer : Fin 2) (h : RdmaSidebandDataImp size) :
    RdmaSidebandDataImp size :=
  { h with connectedWriteSession.prefer := prefer }

/-- One direction of a connection: the steps of `directWrite`, of the network and of
`directRead`, in any order, with one thread that writes and one that reads. Which region an
acquire or a delivery takes is open, and any number of messages may be on the way. Left out are
messages that fit no region, calls of easyrdma that fail or time out, and a connection that
closes. -/
def rdmaLink (size : ℕ) : Machine (RdmaLink M size) (RdmaLinkStep M) where
  init s :=
    s.writer.connectedWriteSession.acquired = [] ∧ s.writer.connectedWriteSession.queue = [] ∧
    s.writer.connectedWriteSession.results = [] ∧
    s.reader.connectedReadSession.delivered = [] ∧ s.reader.connectedReadSession.held = [] ∧
    s.reader.connectedReadSession.results = [] ∧
    s.writing = .idle ∧ s.reading = .idle ∧ s.written = [] ∧ s.reads = []
  next s
    | .beginWrite m prefer =>
      match s.writing with
      | .idle =>
        if (codec.serialize m).length + sizeofInt64 ≤ size then
          match methods.beginDirectWrite.run (s.writer.withPrefer prefer) with
          | .ok (buffer, writer) => some { s with writer, writing := .begun m buffer }
          | .error _ => none
        else none
      | _ => none
    | .fill =>
      match s.writing with
      | .begun m buffer =>
        match (serializeToArray codec methods m buffer).run s.writer with
        | .ok (_, writer) => some { s with writer, writing := .filled m }
        | .error _ => none
      | _ => none
    | .finishWrite =>
      match s.writing with
      | .filled m =>
        match (methods.finishDirectWrite (byteSizeLong codec m)).run s.writer with
        | .ok (_, writer) =>
          some { s with writer, writing := .idle, written := s.written ++ [m] }
        | .error _ => none
      | _ => none
    | .deliver r =>
      (deliver r s.writer.connectedWriteSession s.reader.connectedReadSession).map fun p =>
        { s with
          writer.connectedWriteSession := p.1
          reader.connectedReadSession := p.2 }
    | .beginRead =>
      match s.reading with
      | .idle =>
        match methods.beginDirectReadLengthPrefixed.run s.reader with
        | .ok ((buffer, bufferSize), reader) =>
          some { s with reader, reading := .begun buffer (bufferSize.getD 0) }
        | .error _ => none
      | _ => none
    | .parse =>
      match s.reading with
      | .begun buffer bufferSize =>
        match (parseFromArray codec methods buffer bufferSize).run s.reader with
        | .ok (success, reader) => some { s with reader, reading := .parsed success }
        | .error _ => none
      | _ => none
    | .finishRead =>
      match s.reading with
      | .parsed success =>
        match methods.finishDirectRead.run s.reader with
        | .ok (_, reader) =>
          some { s with reader, reading := .idle, reads := s.reads ++ [success] }
        | .error _ => none
      | _ => none

/-! ### The steps of a call -/

variable {codec} {s s₁ s₂ s₃ : RdmaLink M size}

/-- The writer's three steps, one after the other, are a call of `WriteSidebandMessage`. -/
theorem writeSidebandMessage_of_steps {m : M} {prefer : Fin 2}
    (h₁ : (rdmaLink codec size).next s (.beginWrite m prefer) = some s₁)
    (h₂ : (rdmaLink codec size).next s₁ .fill = some s₂)
    (h₃ : (rdmaLink codec size).next s₂ .finishWrite = some s₃)
    {o : SidebandData (RdmaSidebandDataImp size)} (ho : o.derived = s.writer.withPrefer prefer) :
    (writeSidebandMessage codec methods m).run o =
      .ok (byteSizeLong codec m, { o with derived := s₃.writer }) := by
  simp only [rdmaLink] at h₁
  split at h₁
  on_goal 2 => cases h₁
  split_ifs at h₁
  split at h₁
  on_goal 2 => cases h₁
  next buffer writer₁ hbegin =>
    cases h₁
    simp only [rdmaLink] at h₂
    split at h₂
    on_goal 2 => cases h₂
    next writer₂ hfill =>
      cases h₂
      simp only [rdmaLink] at h₃
      split at h₃
      on_goal 2 => cases h₃
      next result writer₃ hfinish =>
        cases h₃
        rw [writeSidebandMessage_direct rfl]
        refine SidebandData.run_call_ok ?_
        rw [ho, directWrite, Exec.run_bind_ok hbegin, Exec.run_bind_ok hfill,
          Exec.run_bind_ok hfinish, Exec.run_pure]

/-- The reader's three steps, one after the other, are a call of `ReadSidebandMessage`. -/
theorem readSidebandMessage_of_steps
    (h₁ : (rdmaLink codec size).next s .beginRead = some s₁)
    (h₂ : (rdmaLink codec size).next s₁ .parse = some s₂)
    (h₃ : (rdmaLink codec size).next s₂ .finishRead = some s₃)
    {o : SidebandData (RdmaSidebandDataImp size)} (ho : o.derived = s.reader) :
    ∃ success, s₃.reads = s.reads ++ [success] ∧
      (readSidebandMessage codec methods).run o =
        .ok (success, { o with derived := s₃.reader }) := by
  simp only [rdmaLink] at h₁
  split at h₁
  on_goal 2 => cases h₁
  split at h₁
  on_goal 2 => cases h₁
  next buffer bufferSize reader₁ hbegin =>
    cases h₁
    simp only [rdmaLink] at h₂
    split at h₂
    on_goal 2 => cases h₂
    next success reader₂ hparse =>
      cases h₂
      simp only [rdmaLink] at h₃
      split at h₃
      on_goal 2 => cases h₃
      next result reader₃ hfinish =>
        cases h₃
        refine ⟨success, rfl, ?_⟩
        rw [readSidebandMessage_direct rfl]
        refine SidebandData.run_call_ok ?_
        rw [ho, directRead, Exec.run_bind_ok hbegin, Exec.run_bind_ok hparse,
          Exec.run_bind_ok hfinish, Exec.run_pure]

/-! ### The queue of messages -/

/-- What the writer's phase says about its session: it has a region exactly from its begin to its
finish, and that is `_writeBuffer`. -/
def WriterAt (codec : MessageLite M) (s : RdmaLink M size) : Prop :=
  match s.writing with
  | .idle => s.writer.connectedWriteSession.acquired = []
  | .begun m buffer => ∃ r, s.writer.connectedWriteSession.acquired = [r] ∧
      s.writer.writeBuffer.buffer = .into (.sendRegion r) 0 ∧
      buffer = .into (.sendRegion r) sizeofInt64 ∧
      (codec.serialize m).length + sizeofInt64 ≤ size
  | .filled m => ∃ r, s.writer.connectedWriteSession.acquired = [r] ∧
      s.writer.writeBuffer.buffer = .into (.sendRegion r) 0 ∧
      (codec.serialize m).length + sizeofInt64 ≤ size ∧
      slice sizeofInt64 (codec.serialize m).length (s.writer.connectedWriteSession.memory r) =
        codec.serialize m

/-- What the reader's phase says about its session: the region it holds has the message at the
front of the queue. Between two reads it holds none. -/
def ReaderAt (codec : MessageLite M) (s : RdmaLink M size) (queue : List M) : Prop :=
  match s.reading with
  | .idle => s.reader.connectedReadSession.held = []
  | .begun buffer bufferSize => ∃ e m rest, s.reader.connectedReadSession.held = [e] ∧
      queue = m :: rest ∧ s.reader.readBuffer.buffer = .into (.receiveRegion e.region) 0 ∧
      buffer = .into (.receiveRegion e.region) sizeofInt64 ∧
      bufferSize = (codec.serialize m).length
  | .parsed success => ∃ e m rest, s.reader.connectedReadSession.held = [e] ∧
      queue = m :: rest ∧ s.reader.readBuffer.buffer = .into (.receiveRegion e.region) 0 ∧
      success = some m

/-- The link as a queue of messages: those that were written and not read are in the region that
the reader holds, in those delivered and in those in flight, in this order, and all of these
still hold them. -/
structure IsLink (codec : MessageLite M) (s : RdmaLink M size) (t : Fifo M) : Prop where
  sendResults : s.writer.connectedWriteSession.results = []
  receiveResults : s.reader.connectedReadSession.results = []
  writer : WriterAt codec s
  reader : ReaderAt codec s t.queue
  inFlight : Intact s.writer.connectedWriteSession.memory s.writer.connectedWriteSession.queue
  arrived : Intact s.reader.connectedReadSession.memory
    (s.reader.connectedReadSession.held ++ s.reader.connectedReadSession.delivered)
  queue : t.queue.map (fun m => frame (codec.serialize m)) =
    (s.reader.connectedReadSession.held ++ s.reader.connectedReadSession.delivered ++
      s.writer.connectedWriteSession.queue).map Filled.bytes
  sent : t.sent = s.written
  received : s.reads = t.received.map some

variable {s' : RdmaLink M size} {t : Fifo M}

/-- No region that is in flight or at the reader was rewritten. It is asked of every step that
the link can take. -/
structure Keeps (s s' : RdmaLink M size) : Prop where
  inFlight : ∀ e ∈ s.writer.connectedWriteSession.queue,
    s'.writer.connectedWriteSession.memory e.region = s.writer.connectedWriteSession.memory e.region
  arrived : ∀ e ∈ s.reader.connectedReadSession.held ++ s.reader.connectedReadSession.delivered,
    s'.reader.connectedReadSession.memory e.region = s.reader.connectedReadSession.memory e.region

/-- The abstract queue of messages, which always has room: a writer that waits has simply not
written yet. -/
def messageQueue (M : Type) : Machine (Fifo M) (FifoStep M) := fifo fun _ => true

/-! ### The writer's steps -/

/-- A step of the writer that leaves what is in flight leaves the queue. -/
theorem IsLink.writerStep (h : IsLink codec s t) (writer : RdmaSidebandDataImp size)
    (writing : Writing M) (hresults : writer.connectedWriteSession.results = [])
    (hqueue : writer.connectedWriteSession.queue = s.writer.connectedWriteSession.queue)
    (hmemory : ∀ e ∈ s.writer.connectedWriteSession.queue,
      writer.connectedWriteSession.memory e.region =
        s.writer.connectedWriteSession.memory e.region)
    (hat : WriterAt codec { s with writer, writing }) :
    IsLink codec { s with writer, writing } t ∧ Keeps s { s with writer, writing } := by
  constructor
  · exact
      { sendResults := hresults
        receiveResults := h.receiveResults
        writer := hat
        reader := h.reader
        inFlight := by
          intro e he
          rw [hqueue] at he
          rw [hmemory e he]
          exact h.inFlight e he
        arrived := h.arrived
        queue := by
          rw [hqueue]
          exact h.queue
        sent := h.sent
        received := h.received }
  · exact ⟨hmemory, fun _ _ => rfl⟩

/-- A write begins with some free region. -/
theorem next_beginWrite (h : IsLink codec s t) (hidle : s.writing = .idle) {m : M}
    (hm : (codec.serialize m).length + sizeofInt64 ≤ size) (prefer : Fin 2)
    (hfree : ∃ r, s.writer.connectedWriteSession.Free r) :
    ∃ s', (rdmaLink codec size).next s (.beginWrite m prefer) = some s' ∧
      IsLink codec s' t ∧ Keeps s s' := by
  have hsome : (s.writer.withPrefer prefer).connectedWriteSession.pick.isSome :=
    SendSession.pick_isSome_iff.mpr hfree
  obtain ⟨r, hr⟩ := Option.isSome_iff_exists.mp hsome
  have hrun : methods.beginDirectWrite.run (s.writer.withPrefer prefer) =
      .ok (.into (.sendRegion r) sizeofInt64, (s.writer.withPrefer prefer).began r) :=
    RdmaSidebandDataImp.beginDirectWrite_ok h.sendResults hr
  have hacquired : ((s.writer.withPrefer prefer).began r).connectedWriteSession.acquired = [r] := by
    have hidle' := h.writer
    rw [WriterAt, hidle] at hidle'
    exact (SendSession.acquired_acquire (SendSession.free_of_pick hr)).trans
      (congrArg (r :: ·) hidle')
  refine ⟨{ s with
    writer := (s.writer.withPrefer prefer).began r
    writing := .begun m (.into (.sendRegion r) sizeofInt64) }, ?_, ?_⟩
  · simp only [rdmaLink, hidle, hm, if_true, hrun]
  · exact h.writerStep _ _ (SendSession.results_acquire.trans h.sendResults)
      SendSession.queue_acquire (fun e _ => congrFun SendSession.memory_acquire e.region)
      ⟨r, hacquired, rfl, rfl, hm⟩

/-- While both regions are in use, a write waits. -/
theorem next_beginWrite_blocked (h : IsLink codec s t) {m : M} {prefer : Fin 2}
    (hfree : ¬ ∃ r, s.writer.connectedWriteSession.Free r) :
    (rdmaLink codec size).next s (.beginWrite m prefer) = none := by
  have hpick : (s.writer.withPrefer prefer).connectedWriteSession.pick = none := by
    refine Option.not_isSome_iff_eq_none.mp fun hsome => hfree ?_
    obtain ⟨r, hr⟩ := SendSession.pick_isSome_iff.mp hsome
    exact ⟨r, hr⟩
  have hrun : methods.beginDirectWrite.run (s.writer.withPrefer prefer) = .error .blocked :=
    RdmaSidebandDataImp.beginDirectWrite_blocked h.sendResults hpick
  simp only [rdmaLink, hrun, ite_self]
  split <;> rfl

/-- Filling stores the message behind the prefix of the acquired region. -/
theorem next_fill (h : IsLink codec s t) {m : M} {buffer : Pointer}
    (hbegun : s.writing = .begun m buffer) :
    ∃ s', (rdmaLink codec size).next s .fill = some s' ∧
      IsLink codec s' t ∧ Keeps s s' := by
  have hat := h.writer
  rw [WriterAt, hbegun] at hat
  obtain ⟨r, hacquired, hbuffer, rfl, hm⟩ := hat
  have hfits : sizeofInt64 + (codec.serialize m).length ≤
      (s.writer.connectedWriteSession.memory r).length := by
    rw [SendSession.length_memory]
    omega
  have hrun : (serializeToArray codec methods m (.into (.sendRegion r) sizeofInt64)).run s.writer =
      .ok (⟨⟩, s.writer.stored r sizeofInt64 (codec.serialize m)) :=
    RdmaSidebandDataImp.store_ok (hfits.trans_eq (SendSession.length_memory _ r))
  have hmemory :
      (s.writer.stored r sizeofInt64 (codec.serialize m)).connectedWriteSession.memory r =
        overlay sizeofInt64 (codec.serialize m) (s.writer.connectedWriteSession.memory r) := by
    refine SendSession.memory_setMemory ?_
    rw [length_overlay hfits, SendSession.length_memory]
  refine ⟨{ s with
    writer := s.writer.stored r sizeofInt64 (codec.serialize m)
    writing := .filled m }, ?_, ?_⟩
  · simp only [rdmaLink, hbegun, hrun]
  · refine h.writerStep _ _ (SendSession.results_setMemory.trans h.sendResults)
      SendSession.queue_setMemory (fun e he => SendSession.memory_setMemory_ne ?_)
      ⟨r, SendSession.acquired_setMemory.trans hacquired, hbuffer, hm, ?_⟩
    · have hmem : r ∈ s.writer.connectedWriteSession.acquired :=
        hacquired ▸ List.mem_singleton_self r
      exact (SendSession.sendEnd size).region_ne hmem he
    · rw [hmemory]
      exact slice_overlay ((Nat.le_add_right _ _).trans hfits)

/-- What `FinishDirectWrite` queues is the message's frame. -/
theorem take_overlay_le64 {mem p : Bytes} (hp : slice sizeofInt64 p.length mem = p) :
    (overlay 0 (le64 p.length) mem).take (p.length + sizeofInt64) = frame p := by
  have hheader : (le64 p.length).length = sizeofInt64 := length_le64_eq_sizeof _
  have hsplit : p.length + sizeofInt64 = (le64 p.length).length + p.length := by omega
  rw [overlay, List.take_zero, List.nil_append, Nat.zero_add, hsplit, List.take_length_add_append,
    hheader]
  rw [slice] at hp
  rw [hp, frame]

/-- A message behind the front one changes nothing for the reader. -/
theorem ReaderAt.push {queue : List M} (h : ReaderAt codec s queue) (m : M) :
    ReaderAt codec s (queue ++ [m]) := by
  rw [ReaderAt] at h ⊢
  split at h
  · exact h
  · obtain ⟨e, m', rest, hheld, rfl, hrest⟩ := h
    exact ⟨e, m', rest ++ [m], hheld, rfl, hrest⟩
  · obtain ⟨e, m', rest, hheld, rfl, hrest⟩ := h
    exact ⟨e, m', rest ++ [m], hheld, rfl, hrest⟩

/-- `FinishDirectWrite` of a filled region queues the frame of what was filled in, and leaves the
other regions. -/
theorem finishDirectWrite_filled {w : RdmaSidebandDataImp size} {r : Fin 2} {p : Bytes}
    (hresults : w.connectedWriteSession.results = [])
    (hacquired : w.connectedWriteSession.acquired = [r])
    (hbuffer : w.writeBuffer.buffer = .into (.sendRegion r) 0)
    (hp : p.length + sizeofInt64 ≤ size) (hlt : p.length + sizeofInt64 < 2 ^ 64)
    (hslice : slice sizeofInt64 p.length (w.connectedWriteSession.memory r) = p) :
    ∃ w', (methods.finishDirectWrite p.length).run w = .ok (true, w') ∧
      w'.connectedWriteSession.results = [] ∧ w'.connectedWriteSession.acquired = [] ∧
      w'.connectedWriteSession.queue = w.connectedWriteSession.queue ++ [⟨r, frame p⟩] ∧
      (w'.connectedWriteSession.memory r).take (frame p).length = frame p ∧
      ∀ r' ≠ r, w'.connectedWriteSession.memory r' = w.connectedWriteSession.memory r' := by
  have hmem : r ∈ w.connectedWriteSession.acquired := hacquired ▸ List.mem_singleton_self r
  have hlen : (le64 p.length).length = sizeofInt64 := length_le64_eq_sizeof _
  have hframe : (frame p).length = p.length + sizeofInt64 := by
    rw [length_frame, Nat.add_comm, sizeofInt64]
  -- the prefix is stored first, into the region that is still acquired
  have hmemory : (w.stored r 0 (le64 p.length)).connectedWriteSession.memory r =
      overlay 0 (le64 p.length) (w.connectedWriteSession.memory r) := by
    refine SendSession.memory_setMemory ?_
    rw [length_overlay (by rw [SendSession.length_memory]; omega), SendSession.length_memory]
  have hstored : (w.stored r 0 (le64 p.length)).connectedWriteSession.acquired = [r] :=
    SendSession.acquired_setMemory.trans hacquired
  have hmem' : r ∈ (w.stored r 0 (le64 p.length)).connectedWriteSession.acquired :=
    hstored ▸ List.mem_singleton_self r
  have hkept (r' : Fin 2) : ((w.stored r 0 (le64 p.length)).queued r
      (p.length + sizeofInt64)).connectedWriteSession.memory r' =
        (w.stored r 0 (le64 p.length)).connectedWriteSession.memory r' :=
    congrFun SendSession.memory_enqueue r'
  refine ⟨_, RdmaSidebandDataImp.finishDirectWrite_ok hresults hbuffer hmem hp hlt,
    SendSession.results_enqueue.trans (SendSession.results_setMemory.trans hresults), ?_, ?_, ?_,
    ?_⟩
  · refine (SendSession.acquired_enqueue hmem').trans ?_
    rw [hstored, List.erase_cons_head]
  · refine (SendSession.queue_enqueue hmem').trans ?_
    rw [hmemory, take_overlay_le64 hslice]
    exact congrArg (· ++ _) SendSession.queue_setMemory
  · rw [hkept, hmemory, hframe, take_overlay_le64 hslice]
  · intro r' hr'
    rw [hkept]
    exact SendSession.memory_setMemory_ne hr'

/-- Finishing a write pushes the message. -/
theorem next_finishWrite (h : IsLink codec s t) {m : M} (hfilled : s.writing = .filled m) :
    ∃ s' t', (rdmaLink codec size).next s .finishWrite = some s' ∧
      (messageQueue M).next t (.push m) = some t' ∧ IsLink codec s' t' ∧ Keeps s s' := by
  have hat := h.writer
  rw [WriterAt, hfilled] at hat
  obtain ⟨r, hacquired, hbuffer, hm, hslice⟩ := hat
  have hsize := codec.size_lt m
  obtain ⟨writer, hrun, hresults, hnone, hqueue, hframe, hother⟩ :=
    finishDirectWrite_filled h.sendResults hacquired hbuffer hm (by rw [sizeofInt64]; omega) hslice
  -- what is in flight lies in other regions than the acquired one
  have hmemory : ∀ e ∈ s.writer.connectedWriteSession.queue,
      writer.connectedWriteSession.memory e.region =
        s.writer.connectedWriteSession.memory e.region := by
    intro e he
    have hmem : r ∈ s.writer.connectedWriteSession.acquired :=
      hacquired ▸ List.mem_singleton_self r
    exact hother _ ((SendSession.sendEnd size).region_ne hmem he)
  refine ⟨{ s with writer, writing := .idle, written := s.written ++ [m] }, _, ?_, fifo_push rfl,
    { sendResults := hresults, receiveResults := h.receiveResults, writer := hnone, reader := ?_,
      inFlight := ?_, arrived := h.arrived, queue := ?_, sent := ?_, received := h.received },
    ⟨hmemory, fun _ _ => rfl⟩⟩
  · simp only [rdmaLink, hfilled, byteSizeLong, hrun]
  · exact h.reader.push m
  · intro e he
    rw [hqueue, List.mem_append, List.mem_singleton] at he
    rcases he with he | rfl
    · rw [hmemory e he]
      exact h.inFlight e he
    · exact hframe
  · rw [hqueue, List.map_append, h.queue, ← List.append_assoc, List.map_append, List.map_append,
      List.map_append, List.map_append, List.append_assoc]
    simp
  · exact congrArg (· ++ [m]) h.sent

/-! ### The network's step -/

/-- The front of what is in flight goes to a free region of the reader. -/
theorem next_deliver (h : IsLink codec s t) {r : Fin 2} {e : Filled} {rest : List Filled}
    (hflight : s.writer.connectedWriteSession.queue = e :: rest)
    (hfree : s.reader.connectedReadSession.Free r) :
    ∃ s', (rdmaLink codec size).next s (.deliver r) = some s' ∧
      IsLink codec s' t ∧ Keeps s s' := by
  have hbytes : (s.writer.connectedWriteSession.memory e.region).take e.bytes.length = e.bytes :=
    h.inFlight e (hflight ▸ List.mem_cons_self)
  -- the bytes fit the reader's region, as they came out of one of the writer's
  have hle : e.bytes.length ≤ size := by
    have hlength := congrArg List.length hbytes
    rw [List.length_take, SendSession.length_memory] at hlength
    omega
  obtain ⟨send, hdeliver, hqueue, hmemory, hacquired, hresults⟩ := deliver_eq hflight hfree
  rw [hbytes] at hdeliver
  obtain ⟨-, hdelivered, hheld, hresults'⟩ := ReceiveSession.arrive_eq hfree hle
  obtain ⟨receive, hreceive⟩ : ∃ receive,
    s.reader.connectedReadSession.arrive r e.bytes = receive := ⟨_, rfl⟩
  rw [hreceive] at hdeliver hdelivered hheld hresults'
  have hkept : ∀ e' ∈ s.reader.connectedReadSession.held ++ s.reader.connectedReadSession.delivered,
      receive.memory e'.region = s.reader.connectedReadSession.memory e'.region := by
    rw [← hreceive]
    exact fun e' he' => ReceiveSession.memory_arrive_of_mem hfree hle he'
  refine ⟨{ s with
    writer.connectedWriteSession := send
    reader.connectedReadSession := receive }, ?_,
    { sendResults := hresults.trans h.sendResults
      receiveResults := hresults'.trans h.receiveResults
      writer := ?_, reader := ?_, inFlight := ?_, arrived := ?_, queue := ?_
      sent := h.sent, received := h.received },
    ⟨fun e' _ => congrFun hmemory e'.region, hkept⟩⟩
  · simp only [rdmaLink, hdeliver, Option.map_some]
  · -- the writer holds the region it held, with the same bytes
    have hat := h.writer
    simp only [WriterAt] at hat ⊢
    rw [hmemory, hacquired]
    exact hat
  · have hat := h.reader
    simp only [ReaderAt] at hat ⊢
    rw [hheld]
    exact hat
  · intro e' he'
    simp only [hqueue, hmemory] at he' ⊢
    exact h.inFlight e' (hflight ▸ List.mem_cons_of_mem e he')
  · rw [← hreceive]
    exact ReceiveSession.intact_arrive hfree hle h.arrived
  · -- the front goes from the end of one list to the front of the other: the bytes in their order
    simp only [hheld, hdelivered, hqueue]
    rw [h.queue, hflight]
    simp

/-! ### The reader's steps -/

/-- The oldest region at the reader has the front message. -/
theorem IsLink.front (h : IsLink codec s t) {e : Filled} {rest : List Filled}
    (harrived : s.reader.connectedReadSession.held ++ s.reader.connectedReadSession.delivered =
      e :: rest) :
    ∃ m ms, t.queue = m :: ms ∧ sizeofInt64 + (codec.serialize m).length ≤ size ∧
      (s.reader.connectedReadSession.memory e.region).take sizeofInt64 =
        le64 (codec.serialize m).length ∧
      slice sizeofInt64 (codec.serialize m).length (s.reader.connectedReadSession.memory e.region) =
        codec.serialize m := by
  -- the frames at the reader are those of the queue, in its order, so the first has the front
  have hqueue := h.queue
  rw [harrived, List.cons_append, List.map_cons] at hqueue
  obtain ⟨m, ms, hms, hm, -⟩ := List.map_eq_cons_iff.mp hqueue
  have hbytes := h.arrived e (harrived ▸ List.mem_cons_self)
  rw [← hm] at hbytes
  obtain ⟨hle, hheader, hpayload⟩ := of_take_frame hbytes
  rw [ReceiveSession.length_memory] at hle
  exact ⟨m, ms, hms, hle, hheader, hpayload⟩

/-- A read begins with the oldest delivered region, and knows the length of the front
message. -/
theorem next_beginRead (h : IsLink codec s t) (hidle : s.reading = .idle)
    (hdelivered : s.reader.connectedReadSession.delivered ≠ []) :
    ∃ s', (rdmaLink codec size).next s .beginRead = some s' ∧
      IsLink codec s' t ∧ Keeps s s' := by
  obtain ⟨e, rest, hcons⟩ := List.exists_cons_of_ne_nil hdelivered
  have hheld := h.reader
  rw [ReaderAt, hidle] at hheld
  have harrived : s.reader.connectedReadSession.held ++ s.reader.connectedReadSession.delivered =
      e :: rest := by
    rw [hheld, hcons, List.nil_append]
  obtain ⟨m, ms, hqueue, hle, hheader, -⟩ := h.front harrived
  have hlength : int64OfLe ((s.reader.connectedReadSession.memory e.region).take sizeofInt64) =
      (codec.serialize m).length := by
    rw [hheader]
    have := codec.size_lt m
    exact int64OfLe_le64_natCast (by omega)
  have hrun : methods.beginDirectReadLengthPrefixed.run s.reader =
      .ok ((.into (.receiveRegion e.region) sizeofInt64, some ((codec.serialize m).length : ℤ)),
        s.reader.received e) := by
    rw [← hlength]
    exact RdmaSidebandDataImp.beginDirectReadLengthPrefixed_ok h.receiveResults hcons (by omega)
  have hheld' : (s.reader.received e).connectedReadSession.held = [e] := by
    refine (ReceiveSession.held_acquire hcons).trans ?_
    rw [hheld, List.nil_append]
  have hdelivered' : (s.reader.received e).connectedReadSession.delivered = rest :=
    ReceiveSession.delivered_acquire hcons
  refine ⟨{ s with
    reader := s.reader.received e
    reading := .begun (.into (.receiveRegion e.region) sizeofInt64) (codec.serialize m).length },
    ?_, { h with
      receiveResults := ReceiveSession.results_acquire.trans h.receiveResults
      reader := ⟨e, m, ms, hheld', hqueue, rfl, rfl, rfl⟩
      arrived := ?_
      queue := ?_ },
    ⟨fun _ _ => rfl, fun e' _ => congrFun ReceiveSession.memory_acquire e'.region⟩⟩
  · simp only [rdmaLink, hidle, hrun, Option.getD_some]
  · intro e' he'
    rw [hheld', hdelivered', List.singleton_append, ← harrived] at he'
    exact (congrArg (List.take _) (congrFun ReceiveSession.memory_acquire _)).trans
      (h.arrived e' he')
  · rw [hheld', hdelivered', List.singleton_append, ← harrived]
    exact h.queue

/-- With nothing delivered, a read waits. -/
theorem next_beginRead_blocked (h : IsLink codec s t)
    (hdelivered : s.reader.connectedReadSession.delivered = []) :
    (rdmaLink codec size).next s .beginRead = none := by
  have hrun : methods.beginDirectReadLengthPrefixed.run s.reader = .error .blocked :=
    RdmaSidebandDataImp.beginDirectReadLengthPrefixed_blocked h.receiveResults hdelivered
  simp only [rdmaLink, hrun]
  split <;> rfl

/-- Parsing yields the front message. -/
theorem next_parse (h : IsLink codec s t) {buffer : Pointer} {bufferSize : ℤ}
    (hbegun : s.reading = .begun buffer bufferSize) :
    ∃ s', (rdmaLink codec size).next s .parse = some s' ∧
      IsLink codec s' t ∧ Keeps s s' := by
  have hat := h.reader
  rw [ReaderAt, hbegun] at hat
  obtain ⟨e, m, rest, hheld, hqueue, hbuffer, rfl, hbufferSize⟩ := hat
  have harrived : s.reader.connectedReadSession.held ++ s.reader.connectedReadSession.delivered =
      e :: s.reader.connectedReadSession.delivered := by
    rw [hheld, List.singleton_append]
  obtain ⟨m', ms, hqueue', hle, -, hpayload⟩ := h.front harrived
  obtain ⟨rfl, rfl⟩ := List.cons.inj (hqueue.symm.trans hqueue')
  have hsize : toInt32 bufferSize = (codec.serialize m).length := by
    have := codec.size_lt m
    rw [hbufferSize]
    exact toInt32_of_range (by omega) (by omega)
  have hload : (methods.load (.into (.receiveRegion e.region) sizeofInt64)
      (toInt32 bufferSize).toNat).run s.reader = .ok (codec.serialize m, s.reader) := by
    rw [hsize, Int.toNat_natCast]
    refine (RdmaSidebandDataImp.load_ok hle).trans ?_
    rw [hpayload]
  have hrun : (parseFromArray codec methods (.into (.receiveRegion e.region) sizeofInt64)
      bufferSize).run s.reader = .ok (some m, s.reader) := by
    rw [← codec.parse_serialize m]
    exact run_parseFromArray_ok (by rw [hsize]; omega) hload
  refine ⟨{ s with reading := .parsed (some m) }, ?_,
    { h with reader := ⟨e, m, rest, hheld, hqueue, hbuffer, rfl⟩ },
    ⟨fun _ _ => rfl, fun _ _ => rfl⟩⟩
  simp only [rdmaLink, hbegun, hrun]

/-- Finishing a read pops the front message. -/
theorem next_finishRead (h : IsLink codec s t) {success : Option M}
    (hparsed : s.reading = .parsed success) :
    ∃ s' t', (rdmaLink codec size).next s .finishRead = some s' ∧
      (messageQueue M).next t .pop = some t' ∧ IsLink codec s' t' ∧ Keeps s s' := by
  have hat := h.reader
  rw [ReaderAt, hparsed] at hat
  obtain ⟨e, m, rest, hheld, hqueue, hbuffer, rfl⟩ := hat
  have hmem : e.region ∈ s.reader.connectedReadSession.held.map Filled.region := by
    rw [hheld]
    exact List.mem_singleton_self _
  have hrun : methods.finishDirectRead.run s.reader = .ok (true, s.reader.released e.region) :=
    RdmaSidebandDataImp.finishDirectRead_ok h.receiveResults hbuffer hmem
  -- the region that was held goes back to the session, and no other one was held
  have hheld' : (s.reader.released e.region).connectedReadSession.held = [] := by
    have hfilter : s.reader.connectedReadSession.held.filter (fun e' => e'.region ≠ e.region) =
        [] := by
      rw [hheld]
      simp
    exact hfilter
  refine ⟨{ s with
    reader := s.reader.released e.region, reading := .idle, reads := s.reads ++ [some m] },
    _, ?_, fifo_pop hqueue, { h with reader := hheld', arrived := ?_, queue := ?_, received := ?_ },
    ⟨fun _ _ => rfl, fun _ _ => rfl⟩⟩
  · simp only [rdmaLink, hparsed, hrun]
  · intro e' he'
    rw [hheld', List.nil_append] at he'
    exact h.arrived e' (List.mem_append_right _ he')
  · -- the region that is released had the front message
    have hall := h.queue
    rw [hqueue, hheld, List.map_cons, List.append_assoc, List.singleton_append, List.map_cons,
      List.cons.injEq] at hall
    rw [hheld', List.nil_append]
    exact hall.2
  · rw [h.received, List.map_append, List.map_singleton]

/-! ### The refinement -/

variable (codec size) in
/-- The two ends of a fresh connection are an empty queue. -/
theorem isLink_init (h : (rdmaLink codec size).init s) : IsLink codec s {} := by
  obtain ⟨hacquired, hqueue, hresults, hdelivered, hheld, hresults', hwriting, hreading, hwritten,
    hreads⟩ := h
  refine ⟨hresults, hresults', ?_, ?_, ?_, ?_, ?_, hwritten.symm, hreads⟩
  · rw [WriterAt, hwriting]
    exact hacquired
  · rw [ReaderAt, hreading]
    exact hheld
  · rw [hqueue]
    exact fun e he => absurd he List.not_mem_nil
  · rw [hheld, hdelivered]
    exact fun e he => absurd he List.not_mem_nil
  · rw [hheld, hdelivered, hqueue]
    rfl

/-- Every step of the link is a step of the queue or leaves it, and rewrites no region in
use. -/
theorem IsLink.step (h : IsLink codec s t) {a : RdmaLinkStep M}
    (hnext : (rdmaLink codec size).next s a = some s') :
    Keeps s s' ∧ (IsLink codec s' t ∨
      ∃ b t', (messageQueue M).next t b = some t' ∧ IsLink codec s' t') := by
  -- one case per step: either it is not enabled, or its lemma says where it leads
  cases a with
  | beginWrite m prefer =>
    by_cases hfree : ∃ r, s.writer.connectedWriteSession.Free r
    · have hguard : s.writing = .idle ∧ (codec.serialize m).length + sizeofInt64 ≤ size := by
        simp only [rdmaLink] at hnext
        split at hnext
        · next hidle =>
          split_ifs at hnext with hm
          exact ⟨hidle, hm⟩
        · cases hnext
      obtain ⟨w, hw, hlink, hkeeps⟩ := next_beginWrite h hguard.1 hguard.2 prefer hfree
      cases hnext.symm.trans hw
      exact ⟨hkeeps, .inl hlink⟩
    · rw [next_beginWrite_blocked h hfree] at hnext
      cases hnext
  | fill =>
    cases hwriting : s.writing with
    | begun m buffer =>
      obtain ⟨w, hw, hlink, hkeeps⟩ := next_fill h hwriting
      cases hnext.symm.trans hw
      exact ⟨hkeeps, .inl hlink⟩
    | _ => simp [rdmaLink, hwriting] at hnext
  | finishWrite =>
    cases hwriting : s.writing with
    | filled m =>
      obtain ⟨w, t', hw, ht, hlink, hkeeps⟩ := next_finishWrite h hwriting
      cases hnext.symm.trans hw
      exact ⟨hkeeps, .inr ⟨_, t', ht, hlink⟩⟩
    | _ => simp [rdmaLink, hwriting] at hnext
  | deliver r =>
    have hsome :
        (deliver r s.writer.connectedWriteSession s.reader.connectedReadSession).isSome := by
      rw [← Option.isSome_map]
      exact Option.isSome_iff_exists.mpr ⟨s', hnext⟩
    obtain ⟨hne, hfree⟩ := ((easyRdma size).deliver_isSome_iff _ _ _).mp hsome
    obtain ⟨e, rest, hflight⟩ := List.exists_cons_of_ne_nil hne
    obtain ⟨w, hw, hlink, hkeeps⟩ := next_deliver h hflight hfree
    cases hnext.symm.trans hw
    exact ⟨hkeeps, .inl hlink⟩
  | beginRead =>
    by_cases hdelivered : s.reader.connectedReadSession.delivered = []
    · rw [next_beginRead_blocked h hdelivered] at hnext
      cases hnext
    · have hidle : s.reading = .idle := by
        simp only [rdmaLink] at hnext
        split at hnext
        · next hidle => exact hidle
        · cases hnext
      obtain ⟨w, hw, hlink, hkeeps⟩ := next_beginRead h hidle hdelivered
      cases hnext.symm.trans hw
      exact ⟨hkeeps, .inl hlink⟩
  | parse =>
    cases hreading : s.reading with
    | begun buffer bufferSize =>
      obtain ⟨w, hw, hlink, hkeeps⟩ := next_parse h hreading
      cases hnext.symm.trans hw
      exact ⟨hkeeps, .inl hlink⟩
    | _ => simp [rdmaLink, hreading] at hnext
  | finishRead =>
    cases hreading : s.reading with
    | parsed success =>
      obtain ⟨w, t', hw, ht, hlink, hkeeps⟩ := next_finishRead h hreading
      cases hnext.symm.trans hw
      exact ⟨hkeeps, .inr ⟨_, t', ht, hlink⟩⟩
    | _ => simp [rdmaLink, hreading] at hnext

variable (codec size) in
/-- **The link refines the queue of messages.** A message is pushed when its write is finished
and popped when its read is; the steps in between move it from region to region. -/
theorem rdmaLink_refines :
    Machine.Refinement (rdmaLink codec size) Anything (messageQueue M) (IsLink codec) where
  init _ h := ⟨{}, rfl, isLink_init size codec h⟩
  step _ _ _ _ h _ hnext := (h.step hnext).2

/-- What the connection promises in a state: reads return the messages in the order of the
writing, each once; regions are left alone while a message is in them; and whoever waits does so
for a region or for a message. -/
structure IsMessageQueue (codec : MessageLite M) (s : RdmaLink M size) : Prop where
  /-- The `k`-th read returns the `k`-th message. -/
  delivers : ∀ (k : ℕ) (read : Option M), s.reads[k]? = some read →
    ∃ m, read = some m ∧ s.written[k]? = some m
  keeps : ∀ a s', (rdmaLink codec size).next s a = some s' → Keeps s s'
  /-- Between messages neither side holds a region. -/
  writer : s.writing = .idle → s.writer.connectedWriteSession.acquired = []
  reader : s.reading = .idle → s.reader.connectedReadSession.held = []
  /-- A write waits for a free region only, and a read for a delivered message. -/
  beginWrite : s.writing = .idle → ∀ m prefer, (codec.serialize m).length + sizeofInt64 ≤ size →
    (((rdmaLink codec size).next s (.beginWrite m prefer)).isSome ↔
      ∃ r, s.writer.connectedWriteSession.Free r)
  fill : ∀ m buffer, s.writing = .begun m buffer → ((rdmaLink codec size).next s .fill).isSome
  finishWrite : ∀ m, s.writing = .filled m → ((rdmaLink codec size).next s .finishWrite).isSome
  beginRead : s.reading = .idle →
    (((rdmaLink codec size).next s .beginRead).isSome ↔
      s.reader.connectedReadSession.delivered ≠ [])
  parse : ∀ buffer bufferSize, s.reading = .begun buffer bufferSize →
    ((rdmaLink codec size).next s .parse).isSome
  finishRead : ∀ success, s.reading = .parsed success →
    ((rdmaLink codec size).next s .finishRead).isSome

theorem IsLink.isMessageQueue (h : IsLink codec s t)
    (ht : (messageQueue M).Reachable Anything t) : IsMessageQueue codec s where
  delivers k read hk := by
    have hsent := fifo_sent_eq ht
    rw [h.sent] at hsent
    rw [h.received, List.getElem?_map] at hk
    obtain ⟨m, hm, rfl⟩ := Option.map_eq_some_iff.mp hk
    refine ⟨m, rfl, ?_⟩
    rw [hsent, List.getElem?_append_left (List.getElem?_eq_some_iff.mp hm).1, hm]
  keeps a s' hnext := (h.step hnext).1
  writer hidle := by
    have hat := h.writer
    rwa [WriterAt, hidle] at hat
  reader hidle := by
    have hat := h.reader
    rwa [ReaderAt, hidle] at hat
  beginWrite hidle m prefer hm := by
    constructor
    · intro hsome
      by_contra hfree
      rw [next_beginWrite_blocked h hfree] at hsome
      cases hsome
    · intro hfree
      obtain ⟨w, hw, -⟩ := next_beginWrite h hidle hm prefer hfree
      rw [hw, Option.isSome_some]
  fill m buffer hbegun := by
    obtain ⟨w, hw, -⟩ := next_fill h hbegun
    rw [hw, Option.isSome_some]
  finishWrite m hfilled := by
    obtain ⟨w, t', hw, -⟩ := next_finishWrite h hfilled
    rw [hw, Option.isSome_some]
  beginRead hidle := by
    constructor
    · intro hsome hdelivered
      rw [next_beginRead_blocked h hdelivered] at hsome
      cases hsome
    · intro hdelivered
      obtain ⟨w, hw, -⟩ := next_beginRead h hidle hdelivered
      rw [hw, Option.isSome_some]
  parse buffer bufferSize hbegun := by
    obtain ⟨w, hw, -⟩ := next_parse h hbegun
    rw [hw, Option.isSome_some]
  finishRead success hparsed := by
    obtain ⟨w, t', hw, -⟩ := next_finishRead h hparsed
    rw [hw, Option.isSome_some]

/-- **RDMA messages come out in order**, whatever the order of the steps, as long as no call of
easyrdma fails. -/
theorem rdmaLink_isMessageQueue (h : (rdmaLink codec size).Reachable Anything s) :
    IsMessageQueue codec s := by
  obtain ⟨t, ht, hlink⟩ := (rdmaLink_refines size codec).reachable h
  exact hlink.isMessageQueue ht

/-- Two messages written before the first is read, their steps mixed with the network's. -/
theorem rdmaLink_isMessageQueue_run : ∃ s : RdmaLink _ 9,
    (rdmaLink rawMessage 9).Reachable Anything s ∧
      s.reads = [some ⟨[1], by decide⟩] ∧ IsMessageQueue rawMessage s := by
  have hexec : ((rdmaLink rawMessage 9).exec
      ⟨⟨.configured 9, .configured 9, {}, {}⟩, ⟨.configured 9, .configured 9, {}, {}⟩, .idle, .idle,
        [], []⟩
      [.beginWrite ⟨[1], by decide⟩ 0, .fill, .finishWrite, .deliver 1, .beginRead,
        .beginWrite ⟨[2], by decide⟩ 1, .parse, .fill, .finishRead, .finishWrite]).map
          RdmaLink.reads = some [some ⟨[1], by decide⟩] := by decide +kernel
  obtain ⟨s, hs, hreads⟩ := Option.map_eq_some_iff.mp hexec
  have hrun := Machine.exec_reachable
    (by exact ⟨rfl, rfl, rfl, rfl, rfl, rfl, rfl, rfl, rfl, rfl⟩) hs
  exact ⟨s, hrun, hreads, rdmaLink_isMessageQueue hrun⟩

end Link

end Sideband
