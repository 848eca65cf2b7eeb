import Sideband.Foundation.Machine
import Sideband.Messages.Transport
import Sideband.Rdma.Receives
import Sideband.SharedMemory.Switching

/-!
# The states a handle gets into

A handle is constructed and its methods are called in any order, while the operations underneath
have any outcomes and the other parties do what they like: other processes change the shared
memory, the peer sends, messages arrive.

* `Transport.handleRuns` are the runs of a handle; a reachable state is one that some run ends in.
* `Transport.Kept` is what all of them have in common (`kept_of_reachable`): over shared memory the
  size the handle was constructed with; over RDMA the region of the last read is a receive region,
  and the regions hold the messages that arrived in them.
-/

namespace Sideband

open Foundation

/-! ### Shared memory -/

namespace SharedMemorySidebandData

/-- The size of the handle stays. -/
def SameSize (w w' : WithShm SharedMemorySidebandData) : Prop :=
  w'.handle.bufferSize = w.handle.bufferSize

instance : Std.Refl SameSize := ⟨fun _ => rfl⟩

instance : IsTrans (WithShm SharedMemorySidebandData) SameSize := ⟨fun _ _ _ h h' => h'.trans h⟩

theorem sameSize_getBuffer : Exec.Steps SameSize getBuffer := by
  intro w p w' hrun
  obtain ⟨w₁, hget, hcases⟩ := run_getBuffer w
  rw [hget] at hrun
  cases hrun
  rcases hcases with ⟨-, rfl⟩ | ⟨-, hinit⟩
  · exact refl_of SameSize _
  · have hhandle : ∃ mapFD fileName buffer,
        w'.handle = { w.handle with mapFD, fileName, buffer } := by
      cases hinit with
      | mapped n _ _ _ handle => exact ⟨_, _, _, handle⟩
      | mapFailed n _ _ _ handle => exact ⟨_, _, _, handle⟩
      | refused mapFD _ handle => exact ⟨_, _, _, handle⟩
    obtain ⟨mapFD, fileName, buffer, hhandle⟩ := hhandle
    rw [SameSize, hhandle]

theorem sameSize_perform (op : Operation) : Exec.Steps SameSize (op.perform methods) := by
  obtain ⟨f, hf, hfollows⟩ := perform_eq op
  rw [hf]
  refine sameSize_getBuffer.bind fun p => ?_
  intro w success w' hrun
  exact congrArg bufferSize (hfollows.touches p w success w' hrun).handle

theorem sameSize_store (p : Pointer) (bytes : Bytes) : Exec.Steps SameSize (store p bytes) :=
  fun w a w' hrun => congrArg bufferSize (touches_store p bytes w a w' hrun).handle

end SharedMemorySidebandData

namespace DoubleBufferedSharedMemorySidebandData

variable {α : Type}

/-- The sizes of both buffers stay. -/
def SameSizes (w w' : WithShm DoubleBufferedSharedMemorySidebandData) : Prop :=
  ∀ c, (w'.handle.buffer c).bufferSize = (w.handle.buffer c).bufferSize

instance : Std.Refl SameSizes := ⟨fun _ _ => rfl⟩

instance : IsTrans (WithShm DoubleBufferedSharedMemorySidebandData) SameSizes :=
  ⟨fun _ _ _ h h' c => (h' c).trans (h c)⟩

theorem sameSizes_onCurrent {x : Exec (WithShm SharedMemorySidebandData) α}
    (hx : Exec.Steps SharedMemorySidebandData.SameSize x) : Exec.Steps SameSizes (onCurrent x) := by
  refine Exec.steps_zoom hx fun w inner hinner c => ?_
  by_cases hc : c = w.handle.current
  · rw [hc]
    exact (congrArg SharedMemorySidebandData.bufferSize (buffer_setBuffer_same _ _ _)).trans hinner
  · exact congrArg SharedMemorySidebandData.bufferSize (buffer_setBuffer_ne _ _ hc)

theorem sameSizes_switch : Exec.Steps SameSizes switch :=
  Exec.steps_modify fun w c =>
    congrArg SharedMemorySidebandData.bufferSize (buffer_switch w.handle.current.other c w.handle)

theorem sameSizes_thenSwitch {x : Exec (WithShm SharedMemorySidebandData) α}
    (hx : Exec.Steps SharedMemorySidebandData.SameSize x) : Exec.Steps SameSizes (thenSwitch x) :=
  (sameSizes_onCurrent hx).bind fun a => sameSizes_switch.bind fun _ => Exec.steps_pure a

theorem sameSizes_perform (op : Operation) : Exec.Steps SameSizes (op.perform methods) := by
  by_cases hop : ∃ bytes, op = .writeLengthPrefixed bytes
  · obtain ⟨bytes, rfl⟩ := hop
    change Exec.Steps SameSizes (writeLengthPrefixed bytes)
    rw [writeLengthPrefixed]
    have hwrite (bytes : Bytes) :
        Exec.Steps SameSizes (onCurrent (SharedMemorySidebandData.write bytes)) :=
      sameSizes_onCurrent (SharedMemorySidebandData.sameSize_perform (.write bytes))
    refine (hwrite _).bind fun first => ?_
    split_ifs
    · refine (hwrite bytes).bind fun second => ?_
      split_ifs
      · exact sameSizes_switch.bind fun _ => Exec.steps_pure true
      · exact Exec.steps_pure false
    · exact Exec.steps_pure false
  · cases hswitches : op.switches with
    | true =>
      rw [perform_eq_thenSwitch hswitches fun bytes h => hop ⟨bytes, h⟩]
      exact sameSizes_thenSwitch (SharedMemorySidebandData.sameSize_perform op)
    | false =>
      rw [perform_eq_onCurrent hswitches]
      exact sameSizes_onCurrent (SharedMemorySidebandData.sameSize_perform op)

end DoubleBufferedSharedMemorySidebandData

/-! ### RDMA -/

namespace RdmaSidebandDataImp

variable {size : ℕ} {α : Type} {h h' : RdmaSidebandDataImp size}

/-- The region of the last read is a receive region, and the receive regions hold what they are
recorded with. Before the first read the handle has no region. -/
structure ReadsRegions (h : RdmaSidebandDataImp size) : Prop where
  readBuffer : h.readBuffer.buffer = .null ∨
    ∃ r, h.readBuffer.buffer = .into (.receiveRegion r) 0
  intact : Intact h.connectedReadSession.memory
    (h.connectedReadSession.held ++ h.connectedReadSession.delivered)

variable (size) in
/-- `ReadsRegions` stays. -/
def KeepsRegions (h h' : RdmaSidebandDataImp size) : Prop := h.ReadsRegions → h'.ReadsRegions

instance : Std.Refl (KeepsRegions size) := ⟨fun _ => id⟩

instance : IsTrans (RdmaSidebandDataImp size) (KeepsRegions size) :=
  ⟨fun _ _ _ h h' hs => h' (h hs)⟩

theorem keepsRegions_onWriteSession (x : Exec (SendSession size) α) :
    Exec.Steps (KeepsRegions size) (onWriteSession x) :=
  Exec.steps_zoom (Q := fun _ _ => True) (fun _ _ _ _ => trivial)
    fun _ _ _ hs => ⟨hs.readBuffer, hs.intact⟩

theorem ReadsRegions.withResults (hs : h.ReadsRegions) (results : List EasyRdmaResult) :
    (h.withResults results).ReadsRegions :=
  ⟨hs.readBuffer, hs.intact⟩

theorem keepsRegions_acquireReceivedRegion :
    Exec.Steps (KeepsRegions size) acquireReceivedRegion := by
  intro h result h' hrun hs
  obtain ⟨⟨answer, region⟩, t, hcall, hrest⟩ := Exec.run_bind_eq_ok_iff.mp hrun
  obtain ⟨session, hsession, rfl⟩ := Exec.run_zoom_eq_ok_iff.mp hcall
  cases hrest
  refine ⟨?_, (ReceiveSession.receiveEnd size).intact_acquire hsession hs.intact⟩
  by_cases hsuccess : result = .success
  · subst hsuccess
    obtain ⟨e, rest, -, rfl, -⟩ :=
      (ReceiveSession.receiveEnd size).acquire_success _ _ _ hsession
    exact .inr ⟨e.region, rfl⟩
  · obtain ⟨rfl, -⟩ :=
      (ReceiveSession.receiveEnd size).acquire_other _ _ _ _ hsession hsuccess
    exact hs.readBuffer

theorem keepsRegions_acquireLoop (results : List EasyRdmaResult) :
    Exec.Steps (KeepsRegions size) (acquireLoop results) := by
  induction results with
  | nil => exact keepsRegions_acquireReceivedRegion
  | cons result results ih =>
    cases result with
    | timeout => exact keepsRegions_acquireReceivedRegion.bind fun _ => ih
    | success => exact keepsRegions_acquireReceivedRegion
    | failure => exact keepsRegions_acquireReceivedRegion

theorem keepsRegions_releaseReceivedBufferRegion :
    Exec.Steps (KeepsRegions size) releaseReceivedBufferRegion := by
  refine Exec.steps_get.bind fun h => Exec.steps_zoom
    (Q := fun s t => ((ReceiveSession.receiveEnd size).view s).Intact →
      ((ReceiveSession.receiveEnd size).view t).Intact)
    (fun s result t hrun => (ReceiveSession.receiveEnd size).intact_release hrun) ?_
  exact fun h t hkeeps hs => ⟨hs.readBuffer, hkeeps hs.intact⟩

theorem keepsRegions_load (p : Pointer) (n : ℕ) :
    Exec.Steps (KeepsRegions size) (load p n) := by
  intro h bytes h' hrun
  rw [load_state hrun]
  exact id

theorem keepsRegions_store (p : Pointer) (bytes : Bytes) :
    Exec.Steps (KeepsRegions size) (store p bytes) := by
  unfold store
  split_ifs
  · exact Exec.steps_pure _
  · split
    · exact Exec.steps_get.bind fun h => (Exec.steps_checked _).bind fun mem =>
        keepsRegions_onWriteSession _
    · exact Exec.steps_throw _

theorem keepsRegions_acquireSendRegion :
    Exec.Steps (KeepsRegions size) acquireSendRegion := by
  refine (keepsRegions_onWriteSession _).bind fun answer => ?_
  exact (Exec.steps_modify fun h hs => ⟨hs.readBuffer, hs.intact⟩).bind fun _ => Exec.steps_pure _

theorem keepsRegions_queueBufferRegion :
    Exec.Steps (KeepsRegions size) queueBufferRegion :=
  Exec.steps_get.bind fun _ => keepsRegions_onWriteSession _

theorem keepsRegions_read (bytes : Option Bytes) (bufferSize : ℤ) :
    Exec.Steps (KeepsRegions size) (read bytes bufferSize) := by
  unfold read
  refine (Exec.steps_modify fun h hs => ⟨.inl rfl, hs.intact⟩).bind fun _ => ?_
  refine Exec.steps_get.bind fun h => (keepsRegions_acquireLoop _).bind fun result => ?_
  split_ifs
  · cases bytes with
    | none => exact Exec.steps_pure _
    | some dst =>
      refine Exec.steps_get.bind fun h => ?_
      dsimp only
      split_ifs
      · exact (keepsRegions_load _ _).bind fun copied => (Exec.steps_checked _).bind fun stored =>
          keepsRegions_releaseReceivedBufferRegion.bind fun _ => Exec.steps_pure _
      · exact keepsRegions_releaseReceivedBufferRegion.bind fun _ => Exec.steps_pure _
  · exact Exec.steps_pure _

theorem keepsRegions_perform (op : Operation) :
    Exec.Steps (KeepsRegions size) (op.perform methods) := by
  have hqueue : Exec.Steps (KeepsRegions size)
      (do return (← queueBufferRegion) = .success : Exec _ Bool) :=
    keepsRegions_queueBufferRegion.bind fun _ => Exec.steps_pure _
  cases op with
  | write bytes =>
    change Exec.Steps (KeepsRegions size) (write bytes)
    rw [write]
    refine keepsRegions_acquireSendRegion.bind fun result => ?_
    split_ifs
    · exact Exec.steps_get.bind fun h => (keepsRegions_store _ _).bind fun _ =>
        (Exec.steps_modify fun _ hs => ⟨hs.readBuffer, hs.intact⟩).bind fun _ => hqueue
    · exact Exec.steps_pure _
  | read bytes bufferSize => exact (keepsRegions_read bytes bufferSize).map _
  | writeLengthPrefixed bytes =>
    change Exec.Steps (KeepsRegions size) (writeLengthPrefixed bytes)
    rw [writeLengthPrefixed]
    exact keepsRegions_acquireSendRegion.bind fun result => Exec.steps_get.bind fun h =>
      (keepsRegions_store _ _).bind fun _ => (keepsRegions_store _ _).bind fun _ =>
        (Exec.steps_modify fun _ hs => ⟨hs.readBuffer, hs.intact⟩).bind fun _ => hqueue
  | readFromLengthPrefixed bytes bufferSize =>
    refine Exec.Steps.map ?_ _
    change Exec.Steps (KeepsRegions size) (readFromLengthPrefixed bytes bufferSize)
    intro h result h' hrun
    rw [readFromLengthPrefixed_state hrun]
    exact id
  | readLengthPrefix =>
    refine Exec.Steps.map ((keepsRegions_read none 0).bind fun result => ?_) _
    split_ifs
    · exact Exec.steps_get.bind fun h => (keepsRegions_load _ _).bind fun _ => Exec.steps_pure _
    · exact Exec.steps_pure _
  | beginDirectRead byteCount =>
    refine Exec.Steps.map ((keepsRegions_read none 0).bind fun result => ?_) _
    split_ifs
    · exact Exec.steps_get.bind fun h => Exec.steps_pure _
    · exact Exec.steps_pure _
  | beginDirectReadLengthPrefixed =>
    refine Exec.Steps.map ((keepsRegions_read none 0).bind fun result => ?_) _
    split_ifs
    · exact Exec.steps_get.bind fun h => (keepsRegions_load _ _).bind fun _ => Exec.steps_pure _
    · exact Exec.steps_pure _
  | beginDirectWrite =>
    refine Exec.Steps.map (keepsRegions_acquireSendRegion.bind fun _ => ?_) _
    exact Exec.steps_get.bind fun h => Exec.steps_pure _

theorem keepsRegions_finish (direct : Direct) (byteCount : ℤ) :
    Exec.Steps (KeepsRegions size) (direct.finish methods byteCount) := by
  cases direct with
  | read => exact keepsRegions_releaseReceivedBufferRegion.bind fun _ => Exec.steps_pure _
  | write =>
    exact Exec.steps_get.bind fun h => (keepsRegions_store _ _).bind fun _ =>
      (Exec.steps_modify fun _ hs => ⟨hs.readBuffer, hs.intact⟩).bind fun _ =>
        keepsRegions_queueBufferRegion.bind fun _ => Exec.steps_pure _

end RdmaSidebandDataImp

/-! ### The four transports -/

/-- What happens around an RDMA handle: messages arrive, sent ones leave, and the coming results
are decided. -/
inductive RdmaEvent (size : ℕ)
  /-- A message arrives in a free region. -/
  | arrives (r : Fin 2) (bytes : Bytes)
  /-- The results of the coming calls on the read session. -/
  | answers (results : List EasyRdmaResult)
  /-- Whatever becomes of the write session. -/
  | sends (session : SendSession size)

namespace Transport

variable (size : ℕ)

/-- What happens around a handle: the shared memory changes, bytes come and go. Nothing is
assumed of the other parties but that they do not touch the handle itself. -/
def Event : Transport → Type
  | sharedMemory => Shm
  | doubleBufferedSharedMemory => Shm
  | sockets => Connection
  | rdma => RdmaEvent size

def happens : (T : Transport) → T.Event size → T.Derived size → Option (T.Derived size)
  | sharedMemory, (shm : Shm), (w : WithShm SharedMemorySidebandData) => some { w with shm }
  | doubleBufferedSharedMemory, (shm : Shm), (w : WithShm DoubleBufferedSharedMemorySidebandData) =>
    some { w with shm }
  | sockets, (connection : Connection), (h : SocketSidebandData) => some { h with connection }
  | rdma, (e : RdmaEvent size), (h : RdmaSidebandDataImp size) =>
    match e with
    | .arrives r bytes =>
      if h.connectedReadSession.Free r ∧ bytes.length ≤ size then
        some { h with connectedReadSession := h.connectedReadSession.arrive r bytes }
      else none
    | .answers results => some (h.withResults results)
    | .sends session => some { h with connectedWriteSession := session }

/-- A handle of `size` bytes as its constructor leaves it. Over shared memory the kernel may be
in any state. -/
def Constructed : (T : Transport) → T.Derived size → Prop
  | sharedMemory, (w : WithShm SharedMemorySidebandData) => ∃ id, w.handle = .new id size
  | doubleBufferedSharedMemory, (w : WithShm DoubleBufferedSharedMemorySidebandData) =>
    ∃ id, w.handle = .new id size
  | sockets, _ => True
  | rdma, (h : RdmaSidebandDataImp size) => h.connectedReadSession.delivered = [] ∧
    h.connectedReadSession.held = [] ∧ h.readBuffer = {}

/-- A call on a handle, or something that happens around it: another process changes the shared
objects, a message arrives, or the kernel's next answers become known. -/
inductive HandleStep (T : Transport)
  | call (op : Operation)
  | finish (direct : Direct) (byteCount : ℤ)
  /-- A store through a pointer the handle has returned. -/
  | store (p : Pointer) (bytes : Bytes)
  | event (e : T.Event size)

/-- The runs of a handle from its construction on: its methods in any order and with any
arguments, and anything around it in between. A call that does not return has no step. -/
def handleRuns (T : Transport) : Machine (T.Derived size) (HandleStep size T) where
  init := T.Constructed size
  next d
    | .call op => ((op.perform (T.methods size)).returned d).map Prod.snd
    | .finish direct byteCount =>
      ((direct.finish (T.methods size) byteCount).returned d).map Prod.snd
    | .store p bytes => (((T.methods size).store p bytes).returned d).map Prod.snd
    | .event e => T.happens size e d

/-- What all states of a handle have in common, by transport. For the sockets there is nothing to
say. -/
def Kept : (T : Transport) → T.Derived size → Prop
  | sharedMemory, (w : WithShm SharedMemorySidebandData) => w.handle.bufferSize = size
  | doubleBufferedSharedMemory, (w : WithShm DoubleBufferedSharedMemorySidebandData) =>
    ∀ c, (w.handle.buffer c).bufferSize = size
  | sockets, _ => True
  | rdma, (h : RdmaSidebandDataImp size) => h.ReadsRegions

variable {size} {T : Transport} {d d' : T.Derived size}

theorem kept_of_constructed (h : T.Constructed size d) : T.Kept size d := by
  cases T with
  | sharedMemory =>
    obtain ⟨id, h⟩ := h
    exact congrArg SharedMemorySidebandData.bufferSize h
  | doubleBufferedSharedMemory =>
    obtain ⟨id, h⟩ := h
    intro c
    refine (congrArg (fun h => (DoubleBufferedSharedMemorySidebandData.buffer h c).bufferSize)
      h).trans ?_
    cases c <;> rfl
  | sockets => trivial
  | rdma =>
    obtain ⟨hdelivered, hheld, hbuffer⟩ := h
    refine ⟨.inl (congrArg BufferRegion.buffer hbuffer), fun e he => ?_⟩
    rw [hheld, hdelivered] at he
    cases he

theorem kept_perform (op : Operation) :
    Exec.Steps (fun d d' => T.Kept size d → T.Kept size d') (op.perform (T.methods size)) := by
  intro d success d' hrun hkept
  cases T with
  | sharedMemory => exact (SharedMemorySidebandData.sameSize_perform op _ _ _ hrun).trans hkept
  | doubleBufferedSharedMemory =>
    have hsame := DoubleBufferedSharedMemorySidebandData.sameSizes_perform op _ _ _ hrun
    exact fun c => (hsame c).trans (hkept c)
  | sockets => trivial
  | rdma => exact RdmaSidebandDataImp.keepsRegions_perform op _ _ _ hrun hkept

theorem kept_finish (direct : Direct) (byteCount : ℤ) :
    Exec.Steps (fun d d' => T.Kept size d → T.Kept size d')
      (direct.finish (T.methods size) byteCount) := by
  intro d success d' hrun hkept
  cases T with
  | sharedMemory =>
    cases direct <;> cases hrun <;> exact hkept
  | doubleBufferedSharedMemory =>
    have hsteps : Exec.Steps DoubleBufferedSharedMemorySidebandData.SameSizes
        (direct.finish DoubleBufferedSharedMemorySidebandData.methods byteCount) := by
      cases direct <;> exact DoubleBufferedSharedMemorySidebandData.sameSizes_switch.bind
        fun _ => Exec.steps_pure _
    exact fun c => (hsteps _ _ _ hrun c).trans (hkept c)
  | sockets => trivial
  | rdma => exact RdmaSidebandDataImp.keepsRegions_finish direct byteCount _ _ _ hrun hkept

theorem kept_store (p : Pointer) (bytes : Bytes) :
    Exec.Steps (fun d d' => T.Kept size d → T.Kept size d') ((T.methods size).store p bytes) := by
  intro d success d' hrun hkept
  cases T with
  | sharedMemory => exact (SharedMemorySidebandData.sameSize_store p bytes _ _ _ hrun).trans hkept
  | doubleBufferedSharedMemory =>
    have hsame := DoubleBufferedSharedMemorySidebandData.sameSizes_onCurrent
      (SharedMemorySidebandData.sameSize_store p bytes) _ _ _ hrun
    exact fun c => (hsame c).trans (hkept c)
  | sockets => trivial
  | rdma => exact RdmaSidebandDataImp.keepsRegions_store p bytes _ _ _ hrun hkept

theorem kept_happens {e : T.Event size} (hkept : T.Kept size d)
    (hevent : T.happens size e d = some d') : T.Kept size d' := by
  cases T with
  | sharedMemory =>
    cases hevent
    exact hkept
  | doubleBufferedSharedMemory =>
    cases hevent
    exact hkept
  | sockets => trivial
  | rdma =>
    cases e with
    | arrives r bytes =>
      simp only [happens] at hevent
      split_ifs at hevent with hfree
      cases hevent
      exact ⟨hkept.readBuffer, ReceiveSession.intact_arrive hfree.1 hfree.2 hkept.intact⟩
    | answers results =>
      cases hevent
      exact hkept.withResults results
    | sends session =>
      cases hevent
      exact ⟨hkept.readBuffer, hkept.intact⟩

/-- Every reachable state has it: each call, each store of the caller and each thing that happens
around the handle preserves it. -/
theorem kept_of_reachable (h : (handleRuns size T).Reachable Anything d) : T.Kept size d := by
  refine h.invariant (fun _ => kept_of_constructed) fun d a d' hkept _ hstep => ?_
  have hreturned {α : Type} {x : Exec (T.Derived size) α}
      (hsteps : Exec.Steps (fun d d' => T.Kept size d → T.Kept size d') x)
      (h : (x.returned d).map Prod.snd = some d') : T.Kept size d' := by
    obtain ⟨⟨a, t⟩, hx, rfl⟩ := Option.map_eq_some_iff.mp h
    exact hsteps _ _ _ (Exec.returned_eq_some_iff.mp hx) hkept
  cases a with
  | call op => exact hreturned (kept_perform op) hstep
  | finish direct byteCount => exact hreturned (kept_finish direct byteCount) hstep
  | store p bytes => exact hreturned (kept_store p bytes) hstep
  | event e => exact kept_happens hkept hstep

end Transport

end Sideband
