import Sideband.Registry.Handles
import Sideband.SharedMemory.Messages
import Sideband.SharedMemory.Switching

/-!
# Windows and the segment behind them

The owner of a shared memory stream and its client map one segment with a `_bufferSize` each. The
owner's is the 64-bit size `InitOwnerSidebandData` was given; the client's is the `buffer_size` of
the response, which `InitClientSidebandData` takes as an `int`. Each first use resizes the segment
to the size of the handle that makes it.

* `Backed s`: every window that the owner or the client has mapped is backed by its segment, and
  where both have mapped a name, it is one segment. A window without bytes is none.
* Sizes below 2 GiB are the same on both sides, and the segment never changes its size
  (`Attached`). From there up to 4 GiB the client's size is negative: its `ftruncate` is refused,
  and it maps nothing.
* From 4 GiB on the low 32 bits may spell a smaller size, zero included, to which the client cuts
  the segment under the owner's window (`not_backed_of_narrowed`). `windowsBacked_iff` says that
  these sizes are the only ones.

What all operations keep, of all handles at once, is a parameter of the lemmas about them
(`Keeps P`): that a handle is attached (`Attached size`), or that its window is backed
(`Fits size`).
-/

namespace Sideband

open Foundation

namespace SharedMemorySidebandData

/-! ### What operations keep -/

variable {P : SharedMemorySidebandData → Shm → Prop} {size n : ℕ} {h : SharedMemorySidebandData}
  {shm shm' : Shm} {w w' : WithShm SharedMemorySidebandData}

/-- What holds of handles goes on holding of them, and no call is scripted to fail. The property
is one of a handle and the kernel, and the handle may be anybody's. -/
structure Kept (P : SharedMemorySidebandData → Shm → Prop) (shm shm' : Shm) : Prop where
  calls : shm'.calls = []
  holds : ∀ h, P h shm → P h shm'

/-- The handle keeps its size. What held of it before holds after, and goes on holding of the
others. -/
structure Keeps (P : SharedMemorySidebandData → Shm → Prop)
    (w w' : WithShm SharedMemorySidebandData) : Prop where
  bufferSize : w'.handle.bufferSize = w.handle.bufferSize
  holds : w.shm.calls = [] → P w.handle w.shm → P w'.handle w'.shm ∧ Kept P w.shm w'.shm

theorem Kept.refl (hcalls : shm.calls = []) : Kept P shm shm := ⟨hcalls, fun _ h => h⟩

theorem Kept.trans {shm'' : Shm} (h : Kept P shm shm') (h' : Kept P shm' shm'') :
    Kept P shm shm'' :=
  ⟨h'.calls, fun g hg => h'.holds g (h.holds g hg)⟩

/-- `Init` leaves the size. -/
theorem Initialised.bufferSize (hinit : Initialised w w') :
    w'.handle.bufferSize = w.handle.bufferSize := by
  cases hinit with
  | mapped n opens truncates maps handle opened calls => rw [handle, mappedTo]
  | mapFailed n opens truncates maps handle => rw [handle]
  | refused mapFD refused handle => rw [handle]

/-- An operation leaves the size. -/
theorem perform_bufferSize {op : Operation} {success : Bool}
    (hrun : (op.perform methods).run w = .ok (success, w')) :
    w'.handle.bufferSize = w.handle.bufferSize := by
  obtain ⟨w₁, hget, hcases⟩ := run_getBuffer w
  rw [(perform_frame hget hrun).handle]
  rcases hcases with ⟨-, rfl⟩ | ⟨-, hinit⟩
  · rfl
  · exact hinit.bufferSize

/-! ### Handles of one size -/

/-- A handle stays attached while bytes are stored. -/
theorem Attached.stored (ha : Attached size h shm) (hstored : Shm.Stored shm shm') :
    Attached size h shm' := by
  refine ⟨ha.bufferSize, ha.mapped.imp_right ?_⟩
  rintro ⟨n, hm⟩
  refine ⟨n, hm.bufferSize, hm.buffer, ?_, ?_⟩
  · rw [hstored.names, hm.lookup]
  · rw [hstored.length, hm.length]

/-- **Handles of one size stay attached.** -/
theorem keeps_attached (size : ℕ) (op : Operation) :
    Exec.Steps (Keeps (Attached size)) (op.perform methods) := by
  intro w success w' hrun
  refine ⟨perform_bufferSize hrun, fun hcalls ha => ?_⟩
  obtain ⟨n, w₁, hget, hm, hacc⟩ := getBuffer_ok ha hcalls
  have htouched := perform_frame hget hrun
  refine ⟨?_, ?_, fun g hg => ?_⟩
  · rw [htouched.handle]
    exact hm.attached.stored htouched.stored
  · rw [htouched.stored.calls, hacc.update.calls]
  · exact (hg.update hacc.update (Shm.length_view _ _ _)).stored htouched.stored

/-! ### Windows of one size, and handles that get none -/

/-- A handle of `size` bytes whose window, if it is mapped, is backed, or one of a negative size,
which is never mapped. -/
structure Fits (size : ℕ) (h : SharedMemorySidebandData) (shm : Shm) : Prop where
  bufferSize : h.bufferSize = size ∨ h.bufferSize < 0
  mapped : h.buffer = .null ∨ h.bufferSize = size ∧
    ∃ n, h.buffer = .into (.segment n) 0 ∧ size ≤ (shm.object n).length

/-- A window that is backed stays so while no object gets shorter. -/
theorem Fits.of_le (hf : Fits size h shm)
    (hle : ∀ n, size ≤ (shm.object n).length → size ≤ (shm'.object n).length) :
    Fits size h shm' := by
  refine ⟨hf.bufferSize, hf.mapped.imp_right ?_⟩
  rintro ⟨hsize, n, hbuffer, hlength⟩
  exact ⟨hsize, n, hbuffer, hle n hlength⟩

theorem Fits.stored (hf : Fits size h shm) (hstored : Shm.Stored shm shm') : Fits size h shm' :=
  hf.of_le fun n hle => by rwa [hstored.length]

/-- A first use maps a window of `size` bytes, or none, and cuts no segment below that. -/
theorem Initialised.fits (hinit : Initialised w w') (hcalls : w.shm.calls = [])
    (hnull : w.handle.buffer = .null) (hf : Fits size w.handle w.shm) :
    Fits size w'.handle w'.shm ∧ Kept (Fits size) w.shm w'.shm := by
  cases hinit with
  | mapped n opens truncates maps handle opened calls =>
    obtain ⟨-, hpos⟩ := Bool.and_eq_true_iff.mp truncates
    have hsize : w.handle.bufferSize = size :=
      hf.bufferSize.resolve_right (not_lt.mpr (of_decide_eq_true hpos))
    have hobject (k : ℕ) : w'.shm.object k =
        if k = n then resize size 0 (w.shm.object n) else w.shm.object k := by
      rw [opened.object k, hsize, Int.toNat_natCast]
    refine ⟨?_, ?_, fun g hg => hg.of_le fun k hk => ?_⟩
    · rw [handle]
      refine ⟨.inl hsize, .inr ⟨hsize, n, rfl, ?_⟩⟩
      rw [hobject, if_pos rfl, length_resize]
    · rw [calls, hcalls]
      rfl
    · rw [hobject]
      split_ifs
      · rw [length_resize]
      · exact hk
  | mapFailed n opens truncates maps handle => simp [Shm.maps, hcalls] at maps
  | refused mapFD refused handle object calls =>
    have hle (k : ℕ) (hk : size ≤ (w.shm.object k).length) : size ≤ (w'.shm.object k).length := by
      rwa [object]
    refine ⟨?_, calls hcalls, fun g hg => hg.of_le hle⟩
    rw [handle]
    exact ⟨hf.bufferSize, .inl hnull⟩

/-- **Windows stay backed** by operations of handles that have the same size or get no window. -/
theorem keeps_fits (size : ℕ) (op : Operation) :
    Exec.Steps (Keeps (Fits size)) (op.perform methods) := by
  intro w success w' hrun
  refine ⟨perform_bufferSize hrun, fun hcalls hf => ?_⟩
  obtain ⟨w₁, hget, hcases⟩ := run_getBuffer w
  have htouched := perform_frame hget hrun
  obtain ⟨hf₁, hkept⟩ : Fits size w₁.handle w₁.shm ∧ Kept (Fits size) w.shm w₁.shm := by
    rcases hcases with ⟨-, rfl⟩ | ⟨hnull, hinit⟩
    · exact ⟨hf, .refl hcalls⟩
    · exact hinit.fits hcalls hnull hf
  refine ⟨?_, ?_, fun g hg => (hkept.holds g hg).stored htouched.stored⟩
  · rw [htouched.handle]
    exact hf₁.stored htouched.stored
  · rw [htouched.stored.calls, hkept.calls]

end SharedMemorySidebandData

namespace DoubleBufferedSharedMemorySidebandData

open SharedMemorySidebandData (Kept)

variable {P : SharedMemorySidebandData → Shm → Prop} {α : Type}

/-- The same of the two handles of a double buffer. -/
structure Keeps (P : SharedMemorySidebandData → Shm → Prop)
    (w w' : WithShm DoubleBufferedSharedMemorySidebandData) : Prop where
  bufferSize : ∀ c, (w'.handle.buffer c).bufferSize = (w.handle.buffer c).bufferSize
  holds : w.shm.calls = [] → (∀ c, P (w.handle.buffer c) w.shm) →
    (∀ c, P (w'.handle.buffer c) w'.shm) ∧ Kept P w.shm w'.shm

instance : Std.Refl (Keeps P) := ⟨fun _ => ⟨fun _ => rfl, fun hcalls hp => ⟨hp, .refl hcalls⟩⟩⟩

instance : IsTrans (WithShm DoubleBufferedSharedMemorySidebandData) (Keeps P) where
  trans _ _ _ h h' := by
    refine ⟨fun c => (h'.bufferSize c).trans (h.bufferSize c), fun hcalls hp => ?_⟩
    obtain ⟨hp₁, hkept⟩ := h.holds hcalls hp
    obtain ⟨hp₂, hkept'⟩ := h'.holds hkept.calls hp₁
    exact ⟨hp₂, hkept.trans hkept'⟩

theorem steps_switch : Exec.Steps (Keeps P) switch := by
  intro w _ w' hrun
  cases hrun
  refine ⟨fun c => ?_, fun hcalls hp => ⟨fun c => ?_, .refl hcalls⟩⟩
  · dsimp only
    rw [buffer_switch]
  · dsimp only
    rw [buffer_switch]
    exact hp c

/-- A call of the current buffer leaves the other one. -/
theorem steps_onCurrent {x : Exec (WithShm SharedMemorySidebandData) α}
    (hx : Exec.Steps (SharedMemorySidebandData.Keeps P) x) :
    Exec.Steps (Keeps P) (onCurrent x) := by
  refine Exec.steps_zoom hx fun w inner hkeeps => ?_
  constructor
  · intro c
    dsimp only
    by_cases hc : c = w.handle.current
    · rw [hc, buffer_setBuffer_same]
      exact hkeeps.bufferSize
    · rw [buffer_setBuffer_ne _ _ hc]
  · intro hcalls hp
    obtain ⟨hp', hkept⟩ := hkeeps.holds hcalls (hp w.handle.current)
    refine ⟨fun c => ?_, hkept⟩
    dsimp only
    by_cases hc : c = w.handle.current
    · rw [hc, buffer_setBuffer_same]
      exact hp'
    · rw [buffer_setBuffer_ne _ _ hc]
      exact hkept.holds _ (hp c)

theorem steps_writeLengthPrefixed
    (hinner : ∀ op : Operation, Exec.Steps (SharedMemorySidebandData.Keeps P)
      (op.perform SharedMemorySidebandData.methods)) (bytes : Bytes) :
    Exec.Steps (Keeps P) (writeLengthPrefixed bytes) := by
  have hwrite (bytes : Bytes) : Exec.Steps (Keeps P)
      (onCurrent (SharedMemorySidebandData.write bytes)) :=
    steps_onCurrent (hinner (.write bytes))
  refine (hwrite _).bind fun first => ?_
  split_ifs
  · refine (hwrite _).bind fun second => ?_
    split_ifs
    · exact steps_switch.bind fun _ => Exec.steps_pure true
    · exact Exec.steps_pure false
  · exact Exec.steps_pure false

/-- **What the operations of a buffer keep, those of the pair keep.** -/
theorem steps_keeps (hinner : ∀ op : Operation, Exec.Steps (SharedMemorySidebandData.Keeps P)
      (op.perform SharedMemorySidebandData.methods)) (op : Operation) :
    Exec.Steps (Keeps P) (op.perform methods) := by
  by_cases hop : ∃ bytes, op = .writeLengthPrefixed bytes
  · obtain ⟨bytes, rfl⟩ := hop
    exact steps_writeLengthPrefixed hinner bytes
  · push Not at hop
    cases hswitches : op.switches with
    | true =>
      rw [perform_eq_thenSwitch hswitches hop]
      exact (steps_onCurrent (hinner op)).bind fun a =>
        steps_switch.bind fun _ => Exec.steps_pure a
    | false =>
      rw [perform_eq_onCurrent hswitches]
      exact steps_onCurrent (hinner op)

end DoubleBufferedSharedMemorySidebandData

/-! ### Objects of either class -/

namespace SidebandObject

/-- The handles that map a segment each: one, or the two buffers. Objects of the other transports
map nothing. -/
def windows : SidebandObject → List SharedMemorySidebandData
  | .sharedMemory h => [h]
  | .doubleBuffered h => [h.bufferA, h.bufferB]
  | _ => []

/-- Call a method of a shared memory object; `none` if the call stops. The class decides which
method it is. -/
def onShm (x : ∀ {δ : Type}, SidebandMethods δ → Exec δ Bool) (shm : Shm) :
    SidebandObject → Option (SidebandObject × Shm)
  | .sharedMemory h => ((x SharedMemorySidebandData.methods).returned ⟨h, shm⟩).map
      fun r => (.sharedMemory r.2.handle, r.2.shm)
  | .doubleBuffered h => ((x DoubleBufferedSharedMemorySidebandData.methods).returned ⟨h, shm⟩).map
      fun r => (.doubleBuffered r.2.handle, r.2.shm)
  | _ => none

/-- The object keeps its sizes. What held of all its handles before holds of them after, and goes
on holding of others. -/
structure Keeps (P : SharedMemorySidebandData → Shm → Prop) (o : SidebandObject) (shm : Shm)
    (o' : SidebandObject) (shm' : Shm) : Prop where
  bufferSize : o'.windows.map SharedMemorySidebandData.bufferSize =
    o.windows.map SharedMemorySidebandData.bufferSize
  holds : shm.calls = [] → (∀ h ∈ o.windows, P h shm) →
    (∀ h ∈ o'.windows, P h shm') ∧ SharedMemorySidebandData.Kept P shm shm'

variable {P : SharedMemorySidebandData → Shm → Prop} {o o' : SidebandObject} {shm shm' : Shm}
  {x : ∀ {δ : Type}, SidebandMethods δ → Exec δ Bool}

/-- What a method of both classes keeps, it keeps of any object. -/
theorem keeps_onShm
    (hsingle : Exec.Steps (SharedMemorySidebandData.Keeps P) (x SharedMemorySidebandData.methods))
    (hdouble : Exec.Steps (DoubleBufferedSharedMemorySidebandData.Keeps P)
      (x DoubleBufferedSharedMemorySidebandData.methods))
    (h : o.onShm x shm = some (o', shm')) : Keeps P o shm o' shm' := by
  cases o with
  | sharedMemory g =>
    obtain ⟨r, hr, heq⟩ := Option.map_eq_some_iff.mp h
    cases heq
    have hkeeps := hsingle _ _ _ (Exec.returned_eq_some_iff.mp hr)
    refine ⟨by simp [windows, hkeeps.bufferSize], fun hcalls hp => ?_⟩
    obtain ⟨hp', hkept⟩ := hkeeps.holds hcalls (hp g (by simp [windows]))
    exact ⟨by simpa [windows] using hp', hkept⟩
  | doubleBuffered g =>
    obtain ⟨r, hr, heq⟩ := Option.map_eq_some_iff.mp h
    cases heq
    have hkeeps := hdouble _ _ _ (Exec.returned_eq_some_iff.mp hr)
    have hsizeA := hkeeps.bufferSize .bufferA
    have hsizeB := hkeeps.bufferSize .bufferB
    refine ⟨?_, fun hcalls hp => ?_⟩
    · simp only [windows, List.map_cons, List.map_nil]
      exact congrArg₂ (fun a b => [a, b]) hsizeA hsizeB
    · obtain ⟨hp', hkept⟩ := hkeeps.holds hcalls fun c => by
        cases c
        · exact hp g.bufferA (by simp [windows])
        · exact hp g.bufferB (by simp [windows])
      refine ⟨?_, hkept⟩
      simp only [windows, List.mem_cons, List.not_mem_nil, or_false]
      rintro h (rfl | rfl)
      · exact hp' .bufferA
      · exact hp' .bufferB
  | sockets g => cases h
  | rdma g => cases h

end SidebandObject

/-! ### Owner and client -/

/-- The objects of the two parties of a stream, and the kernel they share. What else is on the
machine is part of the kernel, and can be anything at the start. -/
structure Windows where
  owner : SidebandObject
  client : SidebandObject
  shm : Shm

/-- A call of a party, a finish of a direct access included: it moves the double buffer to its
other window. -/
inductive WindowsCall
  | perform (op : Operation)
  | finish (direct : Direct) (byteCount : ℤ)

/-- The call, on either class. -/
def WindowsCall.run (call : WindowsCall) {δ : Type} (vt : SidebandMethods δ) : Exec δ Bool :=
  match call with
  | .perform op => op.perform vt
  | .finish direct byteCount => direct.finish vt byteCount

/-- The owner's object, and the client's from the `buffer_size` of the response, used in any
order. The owner's size is the 64-bit one of the call, the client's what an `int` keeps of it; no
system call fails but the ones with a negative size. -/
def windowUses (strategy : SidebandStrategy) (bufferSize : ℤ) :
    Machine Windows (Side × WindowsCall) where
  init s := ownerObject strategy bufferSize = some s.owner ∧
    (∃ c, clientObject strategy (cString s.owner.usageId) (toInt32 bufferSize) c =
      some s.client) ∧ s.shm.calls = []
  next s
    | (.owner, call) => (s.owner.onShm call.run s.shm).map fun r =>
      { s with owner := r.1, shm := r.2 }
    | (.client, call) => (s.client.onShm call.run s.shm).map fun r =>
      { s with client := r.1, shm := r.2 }

/-- The handle has mapped segment `n`. A window without bytes is no mapping: `mmap` refuses a
length of `0`, and no access falls into it. -/
def MapsWindow (h : SharedMemorySidebandData) (n : ℕ) : Prop :=
  h.buffer = .into (.segment n) 0 ∧ 0 < h.bufferSize

/-- What the size of a stream promises in a state. Every window is looked at by itself, also
while the other party has not mapped anything. -/
structure Backed (s : Windows) : Prop where
  /-- No access below the `_bufferSize` of a mapped handle falls outside its segment. -/
  backed : ∀ h ∈ s.owner.windows ++ s.client.windows, ∀ n, MapsWindow h n →
    h.bufferSize ≤ (s.shm.object n).length
  /-- Where owner and client have both mapped a name, they have mapped one segment. -/
  shared : ∀ h ∈ s.owner.windows, ∀ g ∈ s.client.windows, h.name = g.name →
    ∀ n m, MapsWindow h n → MapsWindow g m → n = m

namespace Windows

open SharedMemorySidebandData (Attached Fits Mapped)

variable {P : SharedMemorySidebandData → Shm → Prop} {size : ℕ} {strategy : SidebandStrategy}
  {bufferSize : ℤ} {s s' : Windows} {a : Side × WindowsCall}

/-- What the operations of a buffer keep, a call of a party keeps, of the handles of both. -/
theorem keeps_call (hinner : ∀ op : Operation, Exec.Steps (SharedMemorySidebandData.Keeps P)
      (op.perform SharedMemorySidebandData.methods)) (call : WindowsCall) {o o' : SidebandObject}
    {shm shm' : Shm} (h : o.onShm call.run shm = some (o', shm')) : o.Keeps P shm o' shm' := by
  refine SidebandObject.keeps_onShm ?_ ?_ h
  · cases call with
    | perform op => exact hinner op
    | finish direct byteCount =>
      intro w _ w' hrun
      cases direct <;> cases hrun <;>
        exact ⟨rfl, fun hcalls hp => ⟨hp, .refl hcalls⟩⟩
  · cases call with
    | perform op => exact DoubleBufferedSharedMemorySidebandData.steps_keeps hinner op
    | finish direct byteCount =>
      cases direct <;> exact DoubleBufferedSharedMemorySidebandData.steps_switch.bind
        fun _ => Exec.steps_pure true

/-- One of the parties makes the call. -/
theorem next_cases (h : (windowUses strategy bufferSize).next s a = some s') :
    (∃ call o shm, s.owner.onShm (WindowsCall.run call) s.shm = some (o, shm) ∧
      s' = { s with owner := o, shm := shm }) ∨
    ∃ call o shm, s.client.onShm (WindowsCall.run call) s.shm = some (o, shm) ∧
      s' = { s with client := o, shm := shm } := by
  obtain ⟨side, call⟩ := a
  cases side with
  | owner =>
    obtain ⟨r, hr, rfl⟩ := Option.map_eq_some_iff.mp h
    exact .inl ⟨call, r.1, r.2, hr, rfl⟩
  | client =>
    obtain ⟨r, hr, rfl⟩ := Option.map_eq_some_iff.mp h
    exact .inr ⟨call, r.1, r.2, hr, rfl⟩

/-! ### Sizes -/

/-- Each party's handles have the size it was given: the owner's the one that was asked for, the
client's what the `int` has kept of it. -/
structure HasSizes (bufferSize : ℤ) (s : Windows) : Prop where
  owner : ∀ h ∈ s.owner.windows, h.bufferSize = bufferSize
  client : ∀ g ∈ s.client.windows, g.bufferSize = toInt32 bufferSize

theorem mem_bufferSize {o o' : SidebandObject} {shm shm' : Shm} (h : o.Keeps P shm o' shm')
    {n : ℤ} (ho : ∀ h ∈ o.windows, h.bufferSize = n) : ∀ h ∈ o'.windows, h.bufferSize = n := by
  intro g hg
  have hmem : g.bufferSize ∈ o'.windows.map SharedMemorySidebandData.bufferSize :=
    List.mem_map_of_mem hg
  rw [h.bufferSize] at hmem
  obtain ⟨k, hk, heq⟩ := List.mem_map.mp hmem
  rw [← heq]
  exact ho k hk

theorem owner_windows {o : SidebandObject} (h : ownerObject strategy bufferSize = some o) :
    ∀ g ∈ o.windows, g.bufferSize = bufferSize ∧ g.buffer = .null := by
  cases strategy <;> cases h <;>
    simp [SidebandObject.windows, DoubleBufferedSharedMemorySidebandData.initNew,
      DoubleBufferedSharedMemorySidebandData.new, SharedMemorySidebandData.initNew,
      SharedMemorySidebandData.new]

theorem client_windows {usageId : Bytes} {c : Connected} {o : SidebandObject}
    (h : clientObject strategy usageId bufferSize c = some o) :
    ∀ g ∈ o.windows, g.bufferSize = bufferSize ∧ g.buffer = .null := by
  cases strategy <;> cases h <;>
    simp [SidebandObject.windows, DoubleBufferedSharedMemorySidebandData.new,
      SharedMemorySidebandData.new]

theorem hasSizes_of_init (h : (windowUses strategy bufferSize).init s) : HasSizes bufferSize s := by
  obtain ⟨howner, ⟨c, hclient⟩, -⟩ := h
  exact ⟨fun h hh => (owner_windows howner h hh).1, fun g hg => (client_windows hclient g hg).1⟩

theorem HasSizes.next (hs : HasSizes bufferSize s)
    (h : (windowUses strategy bufferSize).next s a = some s') : HasSizes bufferSize s' := by
  rcases next_cases h with ⟨call, o, shm, hcall, rfl⟩ | ⟨call, o, shm, hcall, rfl⟩
  · have hkeeps := keeps_call (SharedMemorySidebandData.keeps_fits 0) call hcall
    exact ⟨mem_bufferSize hkeeps hs.owner, hs.client⟩
  · have hkeeps := keeps_call (SharedMemorySidebandData.keeps_fits 0) call hcall
    exact ⟨hs.owner, mem_bufferSize hkeeps hs.client⟩

/-- It holds of the handles of both parties, and no call is scripted to fail. -/
structure All (P : SharedMemorySidebandData → Shm → Prop) (s : Windows) : Prop where
  calls : s.shm.calls = []
  owner : ∀ h ∈ s.owner.windows, P h s.shm
  client : ∀ g ∈ s.client.windows, P g s.shm

/-- **What every operation keeps holds in every state**, if it holds of handles that have mapped
nothing. -/
theorem all_of_reachable
    (hinner : ∀ op : Operation, Exec.Steps (SharedMemorySidebandData.Keeps P)
      (op.perform SharedMemorySidebandData.methods))
    (hnew : ∀ h shm, h.buffer = .null → h.bufferSize = bufferSize ∨
      h.bufferSize = toInt32 bufferSize → P h shm)
    (hs : (windowUses strategy bufferSize).Reachable Anything s) : All P s := by
  refine hs.invariant (fun s hinit => ?_) fun s a s' h _ hstep => ?_
  · obtain ⟨howner, ⟨c, hclient⟩, hcalls⟩ := hinit
    refine ⟨hcalls, fun h hh => ?_, fun g hg => ?_⟩
    · obtain ⟨hbytes, hnull⟩ := owner_windows howner h hh
      exact hnew h _ hnull (.inl hbytes)
    · obtain ⟨hbytes, hnull⟩ := client_windows hclient g hg
      exact hnew g _ hnull (.inr hbytes)
  · rcases next_cases hstep with ⟨call, o, shm, hcall, rfl⟩ | ⟨call, o, shm, hcall, rfl⟩
    · obtain ⟨ho, hkept⟩ := (keeps_call hinner call hcall).holds h.calls h.owner
      exact ⟨hkept.calls, ho, fun g hg => hkept.holds g (h.client g hg)⟩
    · obtain ⟨ho, hkept⟩ := (keeps_call hinner call hcall).holds h.calls h.client
      exact ⟨hkept.calls, fun g hg => hkept.holds g (h.owner g hg), ho⟩

/-- A window that fits is backed. -/
theorem All.backed (hs : All (Fits size) s) :
    ∀ h ∈ s.owner.windows ++ s.client.windows, ∀ n, MapsWindow h n →
      h.bufferSize ≤ (s.shm.object n).length := by
  intro h hh n hn
  have hfits : Fits size h s.shm := (List.mem_append.mp hh).elim (hs.owner h) (hs.client h)
  rcases hfits.mapped with hnull | ⟨hsize, k, hbuffer, hlength⟩
  · rw [hn.1] at hnull
    cases hnull
  · obtain rfl : n = k := by
      rw [hn.1] at hbuffer
      cases hbuffer
      rfl
    rw [hsize]
    exact Int.ofNat_le.mpr hlength

/-- Attached handles of one name have mapped one segment. -/
theorem All.shared (hs : All (Attached size) s) : ∀ h ∈ s.owner.windows, ∀ g ∈ s.client.windows,
    h.name = g.name → ∀ n m, MapsWindow h n → MapsWindow g m → n = m := by
  have hmapped {h : SharedMemorySidebandData} {n : ℕ} (ha : Attached size h s.shm)
      (hn : MapsWindow h n) : Mapped size n h s.shm := by
    rcases ha.mapped with hnull | ⟨k, hk⟩
    · rw [hn.1] at hnull
      cases hnull
    · have hbuffer := hk.buffer
      rw [hn.1] at hbuffer
      cases hbuffer
      exact hk
  intro h hh g hg hname n m hn hm
  have hown := hmapped (hs.owner h hh) hn
  have hcli := hmapped (hs.client g hg) hm
  exact Option.some.inj (hown.lookup.symm.trans (hname ▸ hcli.lookup))

/-- Of the two sizes one is that of all windows there can be, and the other one the same or
negative. -/
theorem sizes_of_not_narrowed (hsize : ¬ (2 ^ 32 ≤ bufferSize ∧ 0 ≤ toInt32 bufferSize)) :
    ∃ size : ℕ, (bufferSize = size ∨ bufferSize < 0) ∧
      (toInt32 bufferSize = size ∨ toInt32 bufferSize < 0) := by
  refine ⟨(max bufferSize (toInt32 bufferSize)).toNat, ?_⟩
  unfold toInt32 Int.bmod at *
  dsimp only at *
  split_ifs at * <;> omega

/-- **Sizes that keep the windows backed.** Below 4 GiB the client's size is the owner's or
negative, and otherwise a negative one. -/
theorem backed_of_reachable (hsize : ¬ (2 ^ 32 ≤ bufferSize ∧ 0 ≤ toInt32 bufferSize))
    (hs : (windowUses strategy bufferSize).Reachable Anything s) : Backed s := by
  obtain ⟨size, howner, hclient⟩ := sizes_of_not_narrowed hsize
  have hfits : All (Fits size) s := by
    refine all_of_reachable (SharedMemorySidebandData.keeps_fits size) (fun h shm hnull hh => ?_) hs
    rcases hh with hh | hh
    · exact ⟨hh ▸ howner, .inl hnull⟩
    · exact ⟨hh ▸ hclient, .inl hnull⟩
  refine ⟨hfits.backed, ?_⟩
  by_cases hboth : 0 < bufferSize ∧ 0 < toInt32 bufferSize
  · -- both windows have bytes, so the sizes are one
    have hattached : All (Attached size) s := by
      refine all_of_reachable (SharedMemorySidebandData.keeps_attached size)
        (fun h shm hnull hh => ?_) hs
      exact ⟨by rcases hh with hh | hh <;> omega, .inl hnull⟩
    exact hattached.shared
  · have hsizes : HasSizes bufferSize s := hs.invariant (fun _ => hasSizes_of_init)
      fun _ _ _ hs _ h => hs.next h
    intro h hh g hg _ n m hn hm
    have hown := hn.2
    have hcli := hm.2
    rw [hsizes.owner h hh] at hown
    rw [hsizes.client g hg] at hcli
    exact absurd ⟨hown, hcli⟩ hboth

/-! ### A window cut short -/

/-- The first use of a smaller handle cuts the segment that a larger one has mapped. -/
theorem shrunk {h g : SharedMemorySidebandData} {shm : Shm} (hcalls : shm.calls = [])
    (hname : h.name = g.name) (hh : h.buffer = .null) (hg : g.buffer = .null)
    (hsize : 0 ≤ h.bufferSize) (gsize : 0 ≤ g.bufferSize) :
    ∃ n w₁ w₂, (SharedMemorySidebandData.getBuffer).run ⟨h, shm⟩ =
        .ok (.into (.segment n) 0, w₁) ∧
      (SharedMemorySidebandData.getBuffer).run ⟨g, w₁.shm⟩ = .ok (.into (.segment n) 0, w₂) ∧
      w₁.handle = h.mappedTo n ∧
      (w₂.shm.object n).length = g.bufferSize.toNat := by
  obtain ⟨n, w₁, hget, hhandle, hopened, hcalls₁⟩ := SharedMemorySidebandData.getBuffer_maps
    (w := ⟨h, shm⟩) hcalls hsize hh
  obtain ⟨m, w₂, hget', -, hopened', -⟩ := SharedMemorySidebandData.getBuffer_maps
    (w := ⟨g, w₁.shm⟩) hcalls₁ gsize hg
  have hlookup : w₁.shm.names.lookup g.name = some n := by
    rw [hopened.lookup, if_pos hname.symm]
  obtain rfl : m = n := by
    rcases hopened'.found with hfound | ⟨hnone, -⟩
    · exact Option.some.inj (hfound.symm.trans hlookup)
    · rw [hlookup] at hnone
      cases hnone
  refine ⟨m, w₁, w₂, hget, hget', hhandle, ?_⟩
  rw [hopened'.object, if_pos rfl, length_resize]

/-- The object maps its first window with its next operation. -/
inductive StartsWith (h : SharedMemorySidebandData) : SidebandObject → Prop
  | single : StartsWith h (.sharedMemory h)
  | double (g : DoubleBufferedSharedMemorySidebandData) (hcurrent : g.current = .bufferA)
      (hbuffer : g.bufferA = h) : StartsWith h (.doubleBuffered g)

/-- A begin of a direct read gets the buffer, and so maps it if it was not mapped yet. -/
def firstUse : WindowsCall := .perform (.beginDirectRead 0)

theorem StartsWith.onShm_firstUse {h : SharedMemorySidebandData} {o : SidebandObject}
    (ho : StartsWith h o) {shm : Shm} {p : Pointer} {w : WithShm SharedMemorySidebandData}
    (hget : (SharedMemorySidebandData.getBuffer).run ⟨h, shm⟩ = .ok (p, w)) :
    ∃ o', o.onShm firstUse.run shm = some (o', w.shm) ∧ w.handle ∈ o'.windows := by
  have hinner : ((Operation.beginDirectRead 0).perform SharedMemorySidebandData.methods).run
      ⟨h, shm⟩ = .ok (p.isSet, w) := Exec.run_map_ok _ hget
  cases ho with
  | single =>
    refine ⟨.sharedMemory w.handle, ?_, List.mem_singleton_self _⟩
    rw [SidebandObject.onShm]
    exact Option.map_eq_some_iff.mpr ⟨_, Exec.returned_eq_some_iff.mpr hinner, rfl⟩
  | double g hcurrent hbuffer =>
    have hrun : ((Operation.beginDirectRead 0).perform
        DoubleBufferedSharedMemorySidebandData.methods).run ⟨g, shm⟩ =
        .ok (p.isSet, ⟨g.setBuffer g.current w.handle, w.shm⟩) := by
      have hcurrentBuffer : DoubleBufferedSharedMemorySidebandData.currentBuffer ⟨g, shm⟩ =
          ⟨h, shm⟩ := by
        rw [DoubleBufferedSharedMemorySidebandData.currentBuffer, hcurrent, ← hbuffer]
        rfl
      rw [DoubleBufferedSharedMemorySidebandData.perform_eq_onCurrent rfl]
      exact DoubleBufferedSharedMemorySidebandData.run_onCurrent (hcurrentBuffer ▸ hinner)
    refine ⟨.doubleBuffered (g.setBuffer g.current w.handle), ?_, ?_⟩
    · rw [SidebandObject.onShm]
      exact Option.map_eq_some_iff.mpr ⟨_, Exec.returned_eq_some_iff.mpr hrun, rfl⟩
    · rw [hcurrent]
      exact List.mem_cons_self

/-- The parties of a stream, before their first use. -/
theorem exists_init (hstrategy : strategy = .sharedMemory ∨ strategy = .doubleBufferedSharedMemory)
    (bufferSize : ℤ) : ∃ s h g, (windowUses strategy bufferSize).init s ∧ StartsWith h s.owner ∧
      StartsWith g s.client ∧ h ∈ s.owner.windows ∧ g ∈ s.client.windows ∧ h.name = g.name := by
  have hid : cString (ascii "TestBuffer".toList) = ascii "TestBuffer".toList := by decide
  have hnew : Nonempty Connected := ⟨⟨0, {}, 0, 0⟩⟩
  obtain ⟨c⟩ := hnew
  rcases hstrategy with rfl | rfl
  · refine ⟨⟨.sharedMemory (.initNew bufferSize), .sharedMemory (.new (ascii "TestBuffer".toList)
      (toInt32 bufferSize)), .scripted []⟩, _, _, ⟨rfl, ⟨c, ?_⟩, rfl⟩, .single, .single,
      List.mem_singleton_self _, List.mem_singleton_self _, rfl⟩
    dsimp only [clientObject, SidebandObject.usageId, SharedMemorySidebandData.initNew,
      SharedMemorySidebandData.new]
    rw [hid]
  · refine ⟨⟨.doubleBuffered (.initNew bufferSize), .doubleBuffered
      (.new (ascii "TestBuffer".toList) (toInt32 bufferSize)), .scripted []⟩, _, _,
      ⟨rfl, ⟨c, ?_⟩, rfl⟩, .double _ rfl rfl, .double _ rfl rfl, List.mem_cons_self,
      List.mem_cons_self, rfl⟩
    dsimp only [clientObject, SidebandObject.usageId,
      DoubleBufferedSharedMemorySidebandData.initNew, DoubleBufferedSharedMemorySidebandData.new]
    rw [hid]

/-- **Sizes that do not.** The client cuts the segment that the owner has mapped, and the owner's
next access beyond the cut is to memory that is gone. -/
theorem not_backed_of_narrowed
    (hstrategy : strategy = .sharedMemory ∨ strategy = .doubleBufferedSharedMemory)
    (hsize : 2 ^ 32 ≤ bufferSize) (hnarrow : 0 ≤ toInt32 bufferSize) :
    ∃ s, (windowUses strategy bufferSize).Reachable Anything s ∧ ¬ Backed s := by
  obtain ⟨s, h, g, hinit, howner, hclient, hh, hg, hname⟩ := exists_init hstrategy bufferSize
  have hsizes := hasSizes_of_init hinit
  have hcalls : s.shm.calls = [] := hinit.2.2
  have hnulls : h.buffer = .null ∧ g.buffer = .null :=
    ⟨(owner_windows hinit.1 h hh).2, (client_windows hinit.2.1.choose_spec g hg).2⟩
  obtain ⟨n, w₁, w₂, hget, hget', hhandle, hlength⟩ := shrunk hcalls hname hnulls.1
    hnulls.2 (by rw [hsizes.owner h hh]; omega) (by rw [hsizes.client g hg]; omega)
  obtain ⟨o, hfirst, ho⟩ := howner.onShm_firstUse hget
  obtain ⟨o', hsecond, -⟩ := hclient.onShm_firstUse hget'
  have hrun : (windowUses strategy bufferSize).exec s [(.owner, firstUse), (.client, firstUse)] =
      some ⟨o, o', w₂.shm⟩ := by
    simp only [Machine.exec, windowUses, hfirst, hsecond, Option.map_some, Option.bind_some]
  refine ⟨⟨o, o', w₂.shm⟩, Machine.exec_reachable hinit hrun, fun hbacked => ?_⟩
  have howned : MapsWindow w₁.handle n := by
    refine ⟨by rw [hhandle]; rfl, ?_⟩
    rw [hhandle, SharedMemorySidebandData.mappedTo, hsizes.owner h hh]
    omega
  have hfits := hbacked.backed w₁.handle (List.mem_append_left _ ho) n howned
  dsimp only at hfits
  rw [hlength, hsizes.client g hg, hhandle, SharedMemorySidebandData.mappedTo,
    hsizes.owner h hh] at hfits
  have hlt := toInt32_lt bufferSize
  omega

end Windows

/-- **Windows stay backed.** For a stream over shared memory, every run keeps all mapped windows
backed exactly if the size is below 4 GiB or its low 32 bits spell a negative `int`. System calls
succeed whenever their arguments allow it: `ftruncate` refuses a negative length, and `mmap` a
length of zero. -/
theorem windowsBacked_iff {strategy : SidebandStrategy}
    (hstrategy : strategy = .sharedMemory ∨ strategy = .doubleBufferedSharedMemory)
    (bufferSize : ℤ) :
    (∀ s, (windowUses strategy bufferSize).Reachable Anything s → Backed s) ↔
      ¬ (2 ^ 32 ≤ bufferSize ∧ 0 ≤ toInt32 bufferSize) := by
  constructor
  · rintro hbacked ⟨hsize, hnarrow⟩
    obtain ⟨s, hs, hno⟩ := Windows.not_backed_of_narrowed hstrategy hsize hnarrow
    exact hno (hbacked s hs)
  · exact fun hsize s hs => Windows.backed_of_reachable hsize hs

/-- One megabyte is backed, over either strategy. -/
theorem windowsBacked_iff_megabyte :
    (∀ s, (windowUses .sharedMemory (2 ^ 20)).Reachable Anything s → Backed s) ∧
      ∀ s, (windowUses .doubleBufferedSharedMemory (2 ^ 20)).Reachable Anything s → Backed s :=
  ⟨(windowsBacked_iff (.inl rfl) _).mpr (by decide),
    (windowsBacked_iff (.inr rfl) _).mpr (by decide)⟩

/-- Of 4 GiB and one byte the client keeps one byte, and cuts the segment to it. -/
theorem not_windowsBacked_four_gib : ¬ ∀ strategy bufferSize,
    strategy = .sharedMemory ∨ strategy = .doubleBufferedSharedMemory →
      ∀ s, (windowUses strategy bufferSize).Reachable Anything s → Backed s := by
  intro h
  obtain ⟨s, hs, hno⟩ := Windows.not_backed_of_narrowed (.inl rfl)
    (show 2 ^ 32 ≤ (2 ^ 32 + 1 : ℤ) by decide) (by decide)
  exact hno (h .sharedMemory _ (.inl rfl) s hs)

end Sideband
