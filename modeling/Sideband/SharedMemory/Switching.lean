import Sideband.Foundation.Machine
import Sideband.SharedMemory.Operations

/-!
# The double buffer under failing system calls

A double-buffered handle moves to its other buffer at the end of each operation, and its peer
does the same, so the two stay in step as long as `_current` moves with the operations that
succeed and with no others. A run counts the operations that reported success
(`Switching.succeeded`); a direct read or write is one operation, from its begin to its finish, and
reports what its begin returned. `InStep s` says that the count determines the current buffer.

`WriteLengthPrefixed` returns before it moves when the write fails. `Write` and `Read` move whatever
they return, and so does a finish after a begin that returned null. `SwitchesOnSuccess` excludes
those, and `keepsStep_iff` says that it excludes nothing else.
-/

namespace Sideband

open Foundation

/-- The operation ends by moving to the other buffer, if it reports success. A `Write` and a
`Read` move in any case; the direct ones move in their finish. -/
def Operation.switches : Operation → Bool
  | .write _ => true
  | .read _ _ => true
  | .writeLengthPrefixed _ => true
  | .readFromLengthPrefixed _ _ => true
  | _ => false

/-- The two kinds of direct access. -/
inductive Direct
  | read
  | write
  deriving DecidableEq, Repr

/-- The direct access an operation begins. -/
def Operation.begins : Operation → Option Direct
  | .beginDirectRead _ => some .read
  | .beginDirectReadLengthPrefixed => some .read
  | .beginDirectWrite => some .write
  | _ => none

/-- `FinishDirectRead` and `FinishDirectWrite`. -/
def Direct.finish {δ : Type} (vt : SidebandMethods δ) (byteCount : ℤ) : Direct → Exec δ Bool
  | .read => vt.finishDirectRead
  | .write => vt.finishDirectWrite byteCount

namespace DoubleBufferedSharedMemorySidebandData

/-! ### Runs -/

/-- A handle in use. What its user knows of it is counted here: the direct access that is under
way, and the operations that reported success. -/
structure Switching where
  world : WithShm DoubleBufferedSharedMemorySidebandData
  /-- The direct access begun last, if it is not finished, and whether its pointer was set. -/
  begun : Option (Direct × Bool)
  /-- The operations that reported success. -/
  succeeded : ℕ

/-- `_current`. -/
def Switching.current (s : Switching) : Current := s.world.handle.current

/-- The call of a user of the handle. A finish is called for the direct access that was begun
last, and once. -/
inductive SwitchingStep
  | call (op : Operation)
  | finish (direct : Direct) (byteCount : ℤ)

/-- The runs of a handle from its construction on, whatever the system calls return. A finish
comes only after its begin, also after one that returned null; a call that leaves its memory has
no step. -/
def doubleBufferHandle : Machine Switching SwitchingStep where
  init s := (∃ id bufferSize, s.world.handle = .new id bufferSize) ∧ s.begun = none ∧
    s.succeeded = 0
  next s
    | .call op => ((op.perform methods).returned s.world).map fun r =>
      { world := r.2
        begun := (op.begins.map fun direct => (direct, r.1)).or s.begun
        succeeded := s.succeeded + (op.switches && r.1).toNat }
    | .finish direct byteCount =>
      match s.begun with
      | some (begun, isSet) =>
        if begun = direct then
          ((direct.finish methods byteCount).returned s.world).map fun r =>
            { world := r.2, begun := none, succeeded := s.succeeded + isSet.toNat }
        else none
      | none => none

/-- The current buffer is determined by the number of operations that succeeded, and so it is the
peer's too, whose operations succeed as often. -/
def InStep (s : Switching) : Prop := s.current = currentAt s.succeeded

/-- The step leaves `_current` unless an operation succeeds with it, and keeps the handle in
step. It says nothing of a call that does not return. -/
def KeepsStep (s : Switching) (a : SwitchingStep) : Prop :=
  ∀ s', doubleBufferHandle.next s a = some s' →
    (s'.succeeded = s.succeeded → s'.current = s.current) ∧ InStep s'

/-- The current buffer is mapped, or its first use gets to `mmap`. A failed `mmap` counts as
opened: its pointer passes the tests of the source. -/
def Opens (s : Switching) : Prop :=
  (s.world.handle.buffer s.current).buffer ≠ .null ∨
    (s.world.shm.opens &&
      s.world.shm.truncates (s.world.handle.buffer s.current).bufferSize) = true

/-- A `Write` or a `Read` finds its buffer or opens it, and a finish follows a begin that
returned a pointer. Of the other calls nothing is asked. -/
def SwitchesOnSuccess (s : Switching) : SwitchingStep → Prop
  | .call (.write _) => Opens s
  | .call (.read _ _) => Opens s
  | .call _ => True
  | .finish direct _ => s.begun ≠ some (direct, false)

variable {w w' : WithShm DoubleBufferedSharedMemorySidebandData} {op : Operation} {success : Bool}
  {α : Type}

/-! ### Operations of the current buffer -/

/-- The current buffer with the kernel. -/
def currentBuffer (w : WithShm DoubleBufferedSharedMemorySidebandData) :
    WithShm SharedMemorySidebandData := ⟨w.handle.buffer w.handle.current, w.shm⟩

theorem run_onCurrent {x : Exec (WithShm SharedMemorySidebandData) α} {a : α}
    {inner : WithShm SharedMemorySidebandData} (h : x.run (currentBuffer w) = .ok (a, inner)) :
    (onCurrent x).run w =
      .ok (a, ⟨w.handle.setBuffer w.handle.current inner.handle, inner.shm⟩) :=
  Exec.run_zoom_ok h

theorem run_onCurrent_eq_ok_iff {x : Exec (WithShm SharedMemorySidebandData) α} {a : α} :
    (onCurrent x).run w = .ok (a, w') ↔ ∃ inner, x.run (currentBuffer w) = .ok (a, inner) ∧
      w' = ⟨w.handle.setBuffer w.handle.current inner.handle, inner.shm⟩ :=
  Exec.run_zoom_eq_ok_iff

/-- A call of the current buffer does not move. -/
theorem of_run_onCurrent {x : Exec (WithShm SharedMemorySidebandData) α} {a : α}
    (h : (onCurrent x).run w = .ok (a, w')) :
    (∃ inner, x.run (currentBuffer w) = .ok (a, inner)) ∧
      w'.handle.current = w.handle.current := by
  obtain ⟨inner, hx, rfl⟩ := run_onCurrent_eq_ok_iff.mp h
  exact ⟨⟨inner, hx⟩, current_setBuffer _ _ _⟩

/-- A call of the current buffer and then a move, whatever the call has returned. -/
def thenSwitch (x : Exec (WithShm SharedMemorySidebandData) α) :
    Exec (WithShm DoubleBufferedSharedMemorySidebandData) α := do
  let result ← onCurrent x
  switch
  return result

theorem of_run_thenSwitch {x : Exec (WithShm SharedMemorySidebandData) α} {a : α}
    (h : (thenSwitch x).run w = .ok (a, w')) :
    (∃ inner, x.run (currentBuffer w) = .ok (a, inner)) ∧
      w'.handle.current = w.handle.current.other := by
  obtain ⟨b, t, hrun, hrest⟩ := Exec.run_bind_eq_ok_iff.mp h
  obtain ⟨hinner, hcurrent⟩ := of_run_onCurrent hrun
  rw [Exec.run_bind_ok (run_switch t)] at hrest
  cases hrest
  exact ⟨hinner, congrArg Current.other hcurrent⟩

theorem onCurrent_map {β : Type} (f : α → β) (x : Exec (WithShm SharedMemorySidebandData) α) :
    f <$> onCurrent x = onCurrent (f <$> x) := by
  rw [map_eq_pure_bind, map_eq_pure_bind, onCurrent_bind]
  simp only [onCurrent_pure]

/-- `Write`, `Read` and `ReadFromLengthPrefixed` move whatever the current buffer returns. -/
theorem perform_eq_thenSwitch (h : op.switches = true)
    (hop : ∀ bytes, op ≠ .writeLengthPrefixed bytes) :
    op.perform methods = thenSwitch (op.perform SharedMemorySidebandData.methods) := by
  cases op with
  | write bytes => rfl
  | read bytes bufferSize =>
    change ReadResult.result <$> thenSwitch _ = thenSwitch (ReadResult.result <$> _)
    simp only [thenSwitch, ← onCurrent_map, map_bind, bind_map_left, map_pure]
    rfl
  | readFromLengthPrefixed bytes bufferSize =>
    change ReadResult.result <$> thenSwitch _ = thenSwitch (ReadResult.result <$> _)
    simp only [thenSwitch, ← onCurrent_map, map_bind, bind_map_left, map_pure]
    rfl
  | writeLengthPrefixed bytes => exact absurd rfl (hop bytes)
  | readLengthPrefix => cases h
  | beginDirectRead byteCount => cases h
  | beginDirectReadLengthPrefixed => cases h
  | beginDirectWrite => cases h

/-- The other operations are those of the current buffer. -/
theorem perform_eq_onCurrent (h : op.switches = false) :
    op.perform methods = onCurrent (op.perform SharedMemorySidebandData.methods) := by
  cases op with
  | write bytes => cases h
  | read bytes bufferSize => cases h
  | writeLengthPrefixed bytes => cases h
  | readFromLengthPrefixed bytes bufferSize => cases h
  | readLengthPrefix => exact onCurrent_map _ _
  | beginDirectRead byteCount => exact onCurrent_map _ _
  | beginDirectReadLengthPrefixed => exact onCurrent_map _ _
  | beginDirectWrite => exact onCurrent_map _ _

/-- `WriteLengthPrefixed` moves exactly when it returns true. -/
theorem current_writeLengthPrefixed {bytes : Bytes}
    (h : (writeLengthPrefixed bytes).run w = .ok (success, w')) :
    w'.handle.current = if success then w.handle.current.other else w.handle.current := by
  obtain ⟨first, t, hfirst, h⟩ := Exec.run_bind_eq_ok_iff.mp h
  have hcurrent := (of_run_onCurrent hfirst).2
  cases first with
  | false =>
    cases h
    exact hcurrent
  | true =>
    obtain ⟨second, t', hsecond, h⟩ := Exec.run_bind_eq_ok_iff.mp h
    have hcurrent' := (of_run_onCurrent hsecond).2.trans hcurrent
    cases second with
    | false =>
      cases h
      exact hcurrent'
    | true =>
      rw [if_pos rfl, Exec.run_bind_ok (run_switch t')] at h
      cases h
      exact congrArg Current.other hcurrent'

/-- `Write` and `Read` report whether the current buffer has a pointer after `GetBuffer`. -/
theorem success_iff {s : Switching} (htests : op.testsPointer = true)
    {inner : WithShm SharedMemorySidebandData}
    (h : (op.perform SharedMemorySidebandData.methods).run (currentBuffer s.world) =
      .ok (success, inner)) : success = true ↔ Opens s := by
  obtain ⟨w₁, hget, -⟩ := SharedMemorySidebandData.run_getBuffer (currentBuffer s.world)
  rw [SharedMemorySidebandData.perform_tested htests hget h]
  exact SharedMemorySidebandData.getBuffer_isSet hget

/-! ### One step -/

theorem other_ne (c : Current) : c.other ≠ c := by cases c <;> decide

/-- A step that moves exactly when an operation succeeds with it keeps the handle in step. -/
theorem InStep.moved {s s' : Switching} (hs : InStep s) (success : Bool)
    (hsucceeded : s'.succeeded = s.succeeded + success.toNat)
    (hcurrent : s'.current = if success then s.current.other else s.current) :
    (s'.succeeded = s.succeeded → s'.current = s.current) ∧ InStep s' := by
  cases success with
  | false => exact ⟨fun _ => hcurrent, by rw [InStep, hcurrent, hsucceeded]; exact hs⟩
  | true =>
    refine ⟨fun h => ?_, ?_⟩
    · rw [hsucceeded, Bool.toNat_true] at h
      omega
    · rw [InStep, hcurrent, hsucceeded, if_pos rfl, hs, other_currentAt, Bool.toNat_true]

/-- A step that moves though no operation succeeds does not. -/
theorem not_of_moved {s s' : Switching} (hsucceeded : s'.succeeded = s.succeeded)
    (hcurrent : s'.current = s.current.other) :
    ¬ ((s'.succeeded = s.succeeded → s'.current = s.current) ∧ InStep s') := by
  rintro ⟨hsame, -⟩
  rw [hcurrent] at hsame
  exact other_ne _ (hsame hsucceeded)

/-- What a call that reports success or failure leaves. -/
theorem next_call_eq_some_iff {s s' : Switching} : doubleBufferHandle.next s (.call op) = some s' ↔
    ∃ success world, (op.perform methods).run s.world = .ok (success, world) ∧ s' =
      { world, begun := (op.begins.map fun direct => (direct, success)).or s.begun,
        succeeded := s.succeeded + (op.switches && success).toNat } := by
  constructor
  · intro h
    obtain ⟨r, hr, rfl⟩ := Option.map_eq_some_iff.mp h
    exact ⟨r.1, r.2, Exec.returned_eq_some_iff.mp hr, rfl⟩
  · rintro ⟨success, world, hrun, rfl⟩
    exact Option.map_eq_some_iff.mpr ⟨(success, world), Exec.returned_eq_some_iff.mpr hrun, rfl⟩

/-- An operation that moves whatever it returns keeps the handle in step if it succeeds. -/
theorem keepsStep_thenSwitch {s : Switching} (hs : InStep s) (hswitches : op.switches = true)
    (hop : ∀ bytes, op ≠ .writeLengthPrefixed bytes) (hsuccess : ∀ success inner,
      (op.perform SharedMemorySidebandData.methods).run (currentBuffer s.world) =
        .ok (success, inner) → success = true) : KeepsStep s (.call op) := by
  intro s' h
  obtain ⟨success, world, hrun, rfl⟩ := next_call_eq_some_iff.mp h
  rw [perform_eq_thenSwitch hswitches hop] at hrun
  obtain ⟨⟨inner, hinner⟩, hcurrent⟩ := of_run_thenSwitch hrun
  obtain rfl := hsuccess success inner hinner
  refine hs.moved true ?_ hcurrent
  rw [hswitches, Bool.and_self]

/-- A `Write` or a `Read` keeps the handle in step exactly when it finds or opens its buffer. -/
theorem keepsStep_tested {s : Switching} (hs : InStep s) (hswitches : op.switches = true)
    (hop : ∀ bytes, op ≠ .writeLengthPrefixed bytes) (htests : op.testsPointer = true) :
    KeepsStep s (.call op) ↔ Opens s := by
  refine ⟨fun hkeeps => ?_, fun hopens => keepsStep_thenSwitch hs hswitches hop
    fun success inner h => (success_iff htests h).mpr hopens⟩
  by_contra hno
  obtain ⟨inner, hget, -⟩ := SharedMemorySidebandData.run_getBuffer (currentBuffer s.world)
  have hnull : inner.handle.buffer = .null := by
    have hset := (SharedMemorySidebandData.getBuffer_isSet hget).not.mpr hno
    simpa [Pointer.isSet] using hset
  have hinner := SharedMemorySidebandData.perform_null htests (hnull ▸ hget)
  obtain ⟨world, hrun⟩ : ∃ world, (op.perform methods).run s.world = .ok (false, world) := by
    rw [perform_eq_thenSwitch hswitches hop, thenSwitch]
    rw [Exec.run_bind_ok (run_onCurrent hinner), Exec.run_bind_ok (run_switch _)]
    exact ⟨_, rfl⟩
  have hnext := next_call_eq_some_iff.mpr ⟨false, world, hrun, rfl⟩
  refine not_of_moved ?_ ?_ (hkeeps _ hnext)
  · dsimp only
    rw [Bool.and_false]
    rfl
  · rw [perform_eq_thenSwitch hswitches hop] at hrun
    exact (of_run_thenSwitch hrun).2

/-- `WriteLengthPrefixed` keeps the handle in step. -/
theorem keepsStep_writeLengthPrefixed {s : Switching} (hs : InStep s) (bytes : Bytes) :
    KeepsStep s (.call (.writeLengthPrefixed bytes)) := by
  intro s' h
  obtain ⟨success, world, hrun, rfl⟩ := next_call_eq_some_iff.mp h
  exact hs.moved success rfl (current_writeLengthPrefixed hrun)

/-- The begin of a direct access and `ReadLengthPrefix` do not move. -/
theorem keepsStep_onCurrent {s : Switching} (hs : InStep s) (hswitches : op.switches = false) :
    KeepsStep s (.call op) := by
  intro s' h
  obtain ⟨success, world, hrun, rfl⟩ := next_call_eq_some_iff.mp h
  rw [perform_eq_onCurrent hswitches] at hrun
  refine hs.moved false ?_ (of_run_onCurrent hrun).2
  rw [hswitches]
  rfl

theorem run_finish (byteCount : ℤ) (direct : Direct)
    (w : WithShm DoubleBufferedSharedMemorySidebandData) :
    (direct.finish methods byteCount).run w = .ok (true, switched w) := by
  cases direct <;> rfl

theorem next_finish {s : Switching} {direct : Direct} {isSet : Bool}
    (h : s.begun = some (direct, isSet)) (byteCount : ℤ) :
    doubleBufferHandle.next s (.finish direct byteCount) = some
      { world := switched s.world, begun := none, succeeded := s.succeeded + isSet.toNat } := by
  have hreturned := Exec.returned_eq_some_iff.mpr (run_finish byteCount direct s.world)
  simp only [doubleBufferHandle, h, if_true, hreturned, Option.map_some]

/-- A finish keeps the handle in step exactly when its begin returned a pointer. -/
theorem keepsStep_finish {s : Switching} (hs : InStep s) (direct : Direct) (byteCount : ℤ) :
    KeepsStep s (.finish direct byteCount) ↔ s.begun ≠ some (direct, false) := by
  constructor
  · intro hkeeps hbegun
    refine not_of_moved ?_ ?_ (hkeeps _ (next_finish hbegun byteCount))
    · rfl
    · rfl
  · intro hbegun s' h
    obtain ⟨isSet, hisSet⟩ : ∃ isSet, s.begun = some (direct, isSet) := by
      simp only [doubleBufferHandle] at h
      split at h
      · rename_i begun isSet heq
        split_ifs at h with hdirect
        exact ⟨isSet, by rw [heq, hdirect]⟩
      · cases h
    rw [next_finish hisSet] at h
    cases h
    have hset : isSet = true := by
      cases isSet with
      | false => exact absurd hisSet hbegun
      | true => rfl
    rw [hset]
    exact hs.moved true rfl rfl

/-- **One step.** A handle in step stays so exactly when the step meets the condition. -/
theorem InStep.keepsStep (s : Switching) (hs : InStep s) (a : SwitchingStep) :
    KeepsStep s a ↔ SwitchesOnSuccess s a := by
  cases a with
  | finish direct byteCount => exact keepsStep_finish hs direct byteCount
  | call op =>
    cases op with
    | write bytes => exact keepsStep_tested hs rfl (by simp) rfl
    | read bytes bufferSize => exact keepsStep_tested hs rfl (by simp) rfl
    | writeLengthPrefixed bytes =>
      exact iff_of_true (keepsStep_writeLengthPrefixed hs bytes) trivial
    | readFromLengthPrefixed bytes bufferSize =>
      refine iff_of_true (keepsStep_thenSwitch hs rfl (by simp) ?_) trivial
      exact fun success inner h => SharedMemorySidebandData.perform_untested rfl h
    | readLengthPrefix => exact iff_of_true (keepsStep_onCurrent hs rfl) trivial
    | beginDirectRead byteCount => exact iff_of_true (keepsStep_onCurrent hs rfl) trivial
    | beginDirectReadLengthPrefixed => exact iff_of_true (keepsStep_onCurrent hs rfl) trivial
    | beginDirectWrite => exact iff_of_true (keepsStep_onCurrent hs rfl) trivial

/-! ### Runs in step -/

theorem inStep_of_init {s : Switching} (h : doubleBufferHandle.init s) : InStep s := by
  obtain ⟨⟨id, bufferSize, hnew⟩, -, hsucceeded⟩ := h
  rw [InStep, Switching.current, hnew, hsucceeded]
  rfl

/-- **The double buffer in step.** In every run whose steps meet the condition, the current buffer
is determined by the number of operations that succeeded; and the condition is exact: a step keeps
the handle in step if and only if it meets it. -/
theorem inStep_of_reachable {s : Switching}
    (hs : doubleBufferHandle.Reachable SwitchesOnSuccess s) :
    InStep s ∧ ∀ a, KeepsStep s a ↔ SwitchesOnSuccess s a := by
  have hin : InStep s := hs.invariant (fun _ => inStep_of_init)
    fun s a s' hin hok h => (((hin.keepsStep s a).mpr hok) s' h).2
  exact ⟨hin, hin.keepsStep s⟩

/-- A new handle of eight bytes on a kernel without objects. -/
def opened (calls : List Bool) : Switching := ⟨⟨initNew 8, .scripted calls⟩, none, 0⟩

theorem reachable_opened {ok : Switching → SwitchingStep → Prop} (calls : List Bool) :
    doubleBufferHandle.Reachable ok (opened calls) :=
  .init ⟨⟨_, _, rfl⟩, rfl, rfl⟩

/-- A direct read whose begin fails, and a `Write` that succeeds after it, leave the handle in
step; the finish of the read would not have. -/
theorem inStep_of_reachable_run : ∃ s t,
    doubleBufferHandle.next (opened [false]) (.call (.beginDirectRead 8)) = some s ∧
      ¬ KeepsStep s (.finish .read 8) ∧
      doubleBufferHandle.next s (.call (.write [1])) = some t ∧
      t.succeeded = 1 ∧ InStep t := by
  have hs : doubleBufferHandle.Reachable SwitchesOnSuccess _ :=
    .step (reachable_opened [false]) (a := .call (.beginDirectRead 8)) trivial rfl
  refine ⟨_, _, rfl, ?_, rfl, rfl, ?_⟩
  · rw [(inStep_of_reachable hs).2]
    exact fun h => h rfl
  · exact (inStep_of_reachable (.step hs (a := .call (.write [1])) (.inr rfl) rfl)).1

/-- A `Write` that fails to open its buffer moves to the other one. -/
theorem not_inStep_refused : ¬ ∀ s, doubleBufferHandle.Reachable Anything s → InStep s := by
  intro h
  have hstep : doubleBufferHandle.exec (opened [false]) [.call (.write [1])] = some _ := rfl
  have hin : Current.bufferB = Current.bufferA := h _ ((reachable_opened [false]).exec hstep)
  cases hin

end DoubleBufferedSharedMemorySidebandData

end Sideband
