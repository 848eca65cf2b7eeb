import Sideband.Messages.Outgoing
import Sideband.Moniker.SharedLoops

/-!
# What the writer of a message is told

`WriteSidebandMessage` returns the size of the message, whatever the transport did with it, and its
callers take a zero for a failure.

* `Truthful`: the call returns a value other than zero exactly when the frame is with the transport
  (`Transport.Handed`).
* `Sends` is an iteration of `RunSidebandReadWriteLoop` that has come to its response. From there on
  it is `respond`, the call and the test of its result, and then `afterResponse`
  (`Sends.run_round`). `LeftWhenFailed` says that, and that it is left at the test exactly when the
  transport failed.
* `reports_iff`: both hold when the transport takes the frames of the messages that have bytes, and
  of no others.

Nothing here says what the peer makes of a frame, and the endpoints are any functions.
-/

namespace Sideband

open Foundation
open SidebandData (call)

namespace Transport

/-- The complete frame of a message, the eight bytes of its length and then its own, has been handed
to the transport by a call between the two states: it has been sent behind what was sent before,
queued as the next buffer region, or it is what the segment that the call worked on starts with.
This is read off the states, not off any return code. -/
def Handed (size : ℕ) (bytes : Bytes) : (T : Transport) → T.Derived size → T.Derived size → Prop
  | sharedMemory, _, w' => SharedMemorySidebandData.Holds (frame bytes) w'
  | doubleBufferedSharedMemory, w, w' => SharedMemorySidebandData.Holds (frame bytes)
    (DoubleBufferedSharedMemorySidebandData.bufferAfter w w')
  | sockets, (h : SocketSidebandData), (h' : SocketSidebandData) =>
    h'.connection.outgoing = h.connection.outgoing ++ frame bytes
  | rdma, (h : RdmaSidebandDataImp size), (h' : RdmaSidebandDataImp size) =>
    ∃ r, h'.connectedWriteSession.queue = h.connectedWriteSession.queue ++ [⟨r, frame bytes⟩]

/-- The transport takes the frame of a message that fits, by the state before the call. Over shared
memory the call lays the message alone over the segment, so that the frame is there only if it comes
out of the message and what the segment held. -/
def Takes (size : ℕ) (bytes : Bytes) : (T : Transport) → T.Derived size → Prop
  | sharedMemory, w =>
    ∃ mem, SharedMemorySidebandData.Finds mem w ∧ frame bytes <+: overlay 0 bytes mem
  | doubleBufferedSharedMemory, w =>
    ∃ mem, SharedMemorySidebandData.Finds mem
        (DoubleBufferedSharedMemorySidebandData.currentBuffer w) ∧
      frame bytes <+: overlay 0 bytes mem
  | sockets, (h : SocketSidebandData) =>
    ∃ sends, sendFrame bytes h.connection.sends = .whole sends
  | rdma, (h : RdmaSidebandDataImp size) =>
    ((∃ r, h.Acquires r) ∨ h.connectedWriteSession.answer ≠ .success ∧ h.OwnsWriteBuffer) ∧
      h.connectedWriteSession.answered.answer = .success

/-- The transport waits for ever with the message: a `send` of the frame that has no outcome, or
an acquire while no region is free. -/
def Stalls (size : ℕ) (bytes : Bytes) : (T : Transport) → T.Derived size → Prop
  | sockets, (h : SocketSidebandData) => sendFrame bytes h.connection.sends = .waits
  | rdma, h => RdmaSidebandDataImp.Waits h
  | _, _ => False

/-- The message is stored in a buffer that holds it, or the transport waits before it has one. In
every other case the store goes beyond the buffer, or to a pointer that leads nowhere. -/
def Lands (size : ℕ) (bytes : Bytes) (T : Transport) (d : T.Derived size) : Prop :=
  bytes.length ≤ T.room size ∧ T.Gives size bytes d ∨
    T.room size < bytes.length ∧ T.Waits size d

end Transport

/-! ### One message -/

section Messages

variable {size : ℕ} {T : Transport} {bytes : Bytes} {o : SidebandData (T.Derived size)} {M : Type}

/-- `WriteSidebandMessage` returns something other than zero exactly when the frame of the
message is with the transport. This is asked of the calls that return; what the peer makes of the
frame is left out. -/
structure Truthful (size : ℕ) (T : Transport) (codec : MessageLite M) (m : M)
    (o : SidebandData (T.Derived size)) : Prop where
  inBounds : (writeSidebandMessage codec (T.methods size) m).run o ≠ .error .outOfBounds
  reports : ∀ v o', (writeSidebandMessage codec (T.methods size) m).run o = .ok (v, o') →
    (v ≠ 0 ↔ T.Handed size (codec.serialize m) o.derived o'.derived)

theorem writeEncoded_lands_iff (hsize : sizeofInt64 ≤ size) (hready : Ready size o)
    (hsized : T.Sized size o.derived) (hsmall : bytes.length < 2 ^ 31) :
    (writeEncoded (T.methods size) bytes).run o ≠ .error .outOfBounds ↔
      T.Lands size bytes o.derived := by
  rw [Transport.Lands]
  by_cases hfits : bytes.length ≤ T.room size
  · rw [writeEncoded_inBounds_iff hsize hready hsized hfits]
    simp only [hfits, not_lt.mpr hfits, true_and, false_and, or_false]
  · rw [writeEncoded_inBounds_iff_waits hsize hready hsized hsmall (not_le.mp hfits)]
    simp only [hfits, not_le.mp hfits, true_and, false_and, false_or]

/-- The call waits for ever, or it returns and the frame is with the transport exactly when the
transport takes it. -/
def Told (size : ℕ) (T : Transport) (bytes : Bytes) (o : SidebandData (T.Derived size)) : Prop :=
  T.Stalls size bytes o.derived ∧
      (writeEncoded (T.methods size) bytes).run o = .error .blocked ∨
    ¬ T.Stalls size bytes o.derived ∧ ∃ o',
      (writeEncoded (T.methods size) bytes).run o = .ok ((bytes.length : ℤ), o') ∧
        (T.Handed size bytes o.derived o'.derived ↔ T.Takes size bytes o.derived)

theorem told_sockets {o : SidebandData SocketSidebandData} (hready : Ready size o)
    (hsmall : bytes.length < 2 ^ 31) (hfits : bytes.length ≤ size) :
    Told size .sockets bytes o := by
  have hlength := hready.length_allocated
  have hcopy : bytes.length ≤ o.allocated.length := by omega
  obtain ⟨buffer, payload, -, hpayload, hrun⟩ :=
    run_writeEncoded_copy (o := o) SocketSidebandData.supportsDirectReadWrite_methods hcopy
  obtain rfl := hpayload hsmall
  by_cases hwaits : sendFrame payload o.derived.connection.sends = .waits
  · have hcall := SocketSidebandData.writeLengthPrefixed_blocked hwaits
    exact .inl ⟨hwaits, hrun.trans (congrArg (Except.map _) hcall)⟩
  · obtain ⟨result, h', hcall⟩ := SocketSidebandData.writeLengthPrefixed_returns hwaits
    refine .inr ⟨hwaits, ?_⟩
    exact ⟨_, hrun.trans (congrArg (Except.map _) hcall),
      SocketSidebandData.writeLengthPrefixed_handed_iff hsmall hcall⟩

theorem told_sharedMemory {o : SidebandData (WithShm SharedMemorySidebandData)}
    (hsized : SharedMemorySidebandData.OfSize size o.derived) (hsmall : bytes.length < 2 ^ 31)
    (hin : serializedBytes bytes = [] ∨ SharedMemorySidebandData.HasSegment o.derived ∧
      (serializedBytes bytes).length ≤ size) : Told size .sharedMemory bytes o := by
  obtain ⟨w', hrun⟩ := SharedMemorySidebandData.directWriteEncoded_returns hsized hin
  have hholds := SharedMemorySidebandData.directWriteEncoded_frame_iff hsized hsmall hrun
  exact .inr ⟨id, { o with derived := w' }, run_writeEncoded_direct rfl hrun, hholds⟩

theorem told_doubleBuffered {o : SidebandData (WithShm DoubleBufferedSharedMemorySidebandData)}
    (hsized : SharedMemorySidebandData.OfSize size
      (DoubleBufferedSharedMemorySidebandData.currentBuffer o.derived))
    (hsmall : bytes.length < 2 ^ 31)
    (hin : (writeEncoded DoubleBufferedSharedMemorySidebandData.methods bytes).run o ≠
      .error .outOfBounds) : Told size .doubleBufferedSharedMemory bytes o := by
  rw [writeEncoded_direct rfl, call_inBounds_iff,
    DoubleBufferedSharedMemorySidebandData.directWriteEncoded_inBounds_iff,
    SharedMemorySidebandData.directWriteEncoded_inBounds_iff hsized] at hin
  obtain ⟨inner, hinner⟩ := SharedMemorySidebandData.directWriteEncoded_returns hsized hin
  obtain ⟨w', hrun⟩ := DoubleBufferedSharedMemorySidebandData.thenSwitch_returns hinner
  have hafter := DoubleBufferedSharedMemorySidebandData.of_run_thenSwitch_inner hrun
  rw [← DoubleBufferedSharedMemorySidebandData.directWriteEncoded_eq] at hrun
  have hholds := SharedMemorySidebandData.directWriteEncoded_frame_iff hsized hsmall hafter
  exact .inr ⟨id, { o with derived := w' }, run_writeEncoded_direct rfl hrun, hholds⟩

theorem told_rdma {o : SidebandData (RdmaSidebandDataImp size)}
    (hplaced : o.derived.Placed) (hsize : sizeofInt64 ≤ size) (hsmall : bytes.length < 2 ^ 31)
    (hin : (writeEncoded RdmaSidebandDataImp.methods bytes).run o ≠ .error .outOfBounds) :
    Told size .rdma bytes o := by
  rw [writeEncoded_direct rfl, call_inBounds_iff,
    RdmaSidebandDataImp.directWriteEncoded_inBounds_iff hplaced hsize] at hin
  rcases RdmaSidebandDataImp.acquire_placed hplaced with hw | ⟨hw, result, h₀, hacquire, hacquired⟩
  · have hwaits : (directWriteEncoded RdmaSidebandDataImp.methods bytes).run o.derived =
        .error .blocked := RdmaSidebandDataImp.run_directWriteEncoded_waits hw
    have hrun := SidebandData.run_call_error hwaits
    rw [← writeEncoded_direct rfl] at hrun
    exact .inl ⟨hw, hrun⟩
  · obtain ⟨htargets, hfits⟩ := hin.resolve_left hw
    obtain ⟨r, hbuffer⟩ := hacquired.targets.mpr htargets
    obtain ⟨h', hrun, -⟩ := RdmaSidebandDataImp.run_directWriteEncoded_fits hacquire hbuffer hfits
    have hqueued := RdmaSidebandDataImp.directWriteEncoded_queued_iff hplaced hsize hsmall hrun
    exact .inr ⟨hw, { o with derived := h' }, run_writeEncoded_direct rfl hrun, hqueued⟩

theorem told (hsize : sizeofInt64 ≤ size) (hready : Ready size o)
    (hsized : T.Sized size o.derived) (hsmall : bytes.length < 2 ^ 31)
    (hin : (writeEncoded (T.methods size) bytes).run o ≠ .error .outOfBounds) :
    Told size T bytes o := by
  cases T with
  | sockets => exact told_sockets hready hsmall ((sockets_inBounds_iff hready).mp hin)
  | sharedMemory =>
    rw [writeEncoded_direct rfl, call_inBounds_iff] at hin
    exact told_sharedMemory hsized hsmall
      ((SharedMemorySidebandData.directWriteEncoded_inBounds_iff hsized).mp hin)
  | doubleBufferedSharedMemory => exact told_doubleBuffered hsized hsmall hin
  | rdma => exact told_rdma hsized hsize hsmall hin

/-- The return value is right for a message below 2 GiB exactly when the message lands in its buffer
and the transport takes it if it has bytes, and refuses it if it has none. -/
theorem reports_iff_takes (hsize : sizeofInt64 ≤ size) (hready : Ready size o)
    (hsized : T.Sized size o.derived) (hsmall : bytes.length < 2 ^ 31) :
    ((writeEncoded (T.methods size) bytes).run o ≠ .error .outOfBounds ∧
      ∀ v o', (writeEncoded (T.methods size) bytes).run o = .ok (v, o') →
        (v ≠ 0 ↔ T.Handed size bytes o.derived o'.derived)) ↔
      T.Lands size bytes o.derived ∧
        (T.Stalls size bytes o.derived ∨ (bytes ≠ [] ↔ T.Takes size bytes o.derived)) := by
  have hzero : ((bytes.length : ℤ) ≠ 0) ↔ bytes ≠ [] := by simp
  rw [← writeEncoded_lands_iff hsize hready hsized hsmall]
  refine and_congr_right fun hin => ?_
  rcases told hsize hready hsized hsmall hin with ⟨hstalls, hrun⟩ | ⟨hstalls, o', hrun, hhanded⟩
  · refine iff_of_true ?_ (.inl hstalls)
    intro v o' hreturned
    cases hrun.symm.trans hreturned
  · simp only [hstalls, false_or, ← hhanded, ← hzero]
    constructor
    · intro hall
      exact hall _ _ hrun
    · intro htruth v o'' hreturned
      cases hrun.symm.trans hreturned
      exact htruth

theorem truthful_iff (hsize : sizeofInt64 ≤ size) (hready : Ready size o)
    (hsized : T.Sized size o.derived) (codec : MessageLite M) (m : M) :
    Truthful size T codec m o ↔ T.Lands size (codec.serialize m) o.derived ∧
      (T.Stalls size (codec.serialize m) o.derived ∨
        (codec.serialize m ≠ [] ↔ T.Takes size (codec.serialize m) o.derived)) := by
  rw [← reports_iff_takes hsize hready hsized (codec.size_lt m), ← writeSidebandMessage_eq]
  exact ⟨fun h => ⟨h.inBounds, h.reports⟩, fun h => ⟨h.1, h.2⟩⟩

end Messages

/-! ### One iteration -/

section Iterations

variable {σ ε V τ : Type} [Inhabited V] (behave : ε → ℤ → V → σ → V × σ)

/-- An iteration of one of the two loops of `RunSidebandReadWriteLoop`, by the flag that says
which. `none` is an iteration that was left by `break`. -/
def sidebandRound (T : MessageChannel τ V) (readers writers : EndpointList ε)
    (initialClientWrite : Bool) : Exec (MonikerState σ ε V τ) (Option Unit) :=
  if initialClientWrite then sidebandClientFirst behave T readers writers ()
  else sidebandServerFirst behave T readers writers ()

omit [Inhabited V] in
/-- Both loops send the response, and break if they are told that it failed: `none` if the iteration
is left there. -/
def respond (T : MessageChannel τ V) (response : SidebandReadResponse V) :
    Exec (MonikerState σ ε V τ) (Option Unit) := do
  let byteSize ← writeSidebandResponse T response
  return if byteSize = 0 then none else some ()

omit [Inhabited V] in
/-- What the server-first loop does after its response: with a writer it reads a request and
handles it, and leaves the iteration if the read fails or the request cancels the stream. -/
def readRequest (T : MessageChannel τ V) (writers : EndpointList ε) :
    Exec (MonikerState σ ε V τ) (Option Unit) := do
  if writers.length > 0 then
    match ← onTransport T.read with
    | none => return none
    | some writeRequest =>
      if writeRequest.cancel then return none
      else
        let _ ← callIndexed behave writers 0 writeRequest.values
        return some ()
  else return some ()

omit [Inhabited V] in
/-- What is left of an iteration that is not left at its response: nothing in the client-first
loop. -/
def afterResponse (T : MessageChannel τ V) (writers : EndpointList ε) (initialClientWrite : Bool) :
    Exec (MonikerState σ ε V τ) (Option Unit) :=
  if initialClientWrite then return some () else readRequest behave T writers

omit [Inhabited V] in
/-- An iteration from its response on. The response is written, the result of the call is tested
as the source tests it, and the rest is what the branch of the loop does after a response. -/
def respondThen (T : MessageChannel τ V) (writers : EndpointList ε) (initialClientWrite : Bool)
    (response : SidebandReadResponse V) : Exec (MonikerState σ ε V τ) (Option Unit) := do
  match ← respond T response with
  | none => return none
  | some _ => afterResponse behave T writers initialClientWrite

/-- The loop is made of these iterations. -/
theorem runSidebandReadWriteLoop_eq (T : MessageChannel τ V) (readers writers : EndpointList ε)
    (initialClientWrite : Bool) (rounds : ℕ) :
    runSidebandReadWriteLoop behave T readers writers initialClientWrite rounds = do
      let running ← Exec.loop
        (fun _ => sidebandRound behave T readers writers initialClientWrite) rounds ()
      if running.isSome then return false
      else
        modify fun s => { s with events := s.events ++ [.close] }
        return true := by
  cases initialClientWrite <;> rfl

/-- An iteration that starts in `s` has come to the point where it sends its response: in the
client-first loop a request was read that does not cancel, and there are readers; the
server-first loop begins with its response. -/
inductive Sends (T : MessageChannel τ V) (readers writers : EndpointList ε)
    (s : MonikerState σ ε V τ) : Bool → SidebandReadResponse V → MonikerState σ ε V τ → Prop
  | clientFirst {request : SidebandWriteRequest V} {values : List V}
      {response : SidebandReadResponse V} {s₁ s₂ s₃ : MonikerState σ ε V τ}
      (read : (onTransport T.read).run s = .ok (some request, s₁))
      (cancel : request.cancel = false)
      (written : (callIndexed behave writers 0 request.values).run s₁ = .ok (values, s₂))
      (asks : readers ≠ [])
      (built : (sidebandClientFirstResponse behave readers).run s₂ = .ok (response, s₃)) :
      Sends T readers writers s true response s₃
  | serverFirst {response : SidebandReadResponse V} {s₁ : MonikerState σ ε V τ}
      (built : (sidebandServerFirstResponse behave readers).run s = .ok (response, s₁)) :
      Sends T readers writers s false response s₁

variable {behave} {T : MessageChannel τ V} {readers writers : EndpointList ε}
  {s s₁ : MonikerState σ ε V τ} {initialClientWrite : Bool} {response : SidebandReadResponse V}

/-- From there on the iteration is the call that sends the response, the test of its result, and the
rest. -/
theorem Sends.run_round (h : Sends behave T readers writers s initialClientWrite response s₁) :
    (sidebandRound behave T readers writers initialClientWrite).run s =
      (respondThen behave T writers initialClientWrite response).run s₁ := by
  cases h with
  | clientFirst read cancel written asks built =>
    have hlength : readers.length > 0 := List.length_pos_iff.mpr asks
    rw [sidebandRound, if_pos rfl, sidebandClientFirst, Exec.run_bind_ok read]
    dsimp only
    rw [cancel, if_neg Bool.false_ne_true, Exec.run_bind_ok written, if_pos hlength,
      Exec.run_bind_ok built, respondThen, respond, bind_assoc]
    refine congrArg (fun x => StateT.run x _) (bind_congr fun byteSize => ?_)
    rw [pure_bind]
    by_cases hzero : byteSize = 0
    · rw [if_pos hzero]
    · rw [if_neg hzero]
      rfl
  | serverFirst built =>
    rw [sidebandRound, if_neg Bool.false_ne_true, sidebandServerFirst, Exec.run_bind_ok built,
      respondThen, respond, bind_assoc]
    refine congrArg (fun x => StateT.run x _) (bind_congr fun byteSize => ?_)
    rw [pure_bind]
    by_cases hzero : byteSize = 0
    · rw [if_pos hzero, if_pos hzero]
    · rw [if_neg hzero, if_neg hzero]
      rfl

/-- The response asks for values exactly when there are readers. -/
theorem Sends.asked (h : Sends behave T readers writers s initialClientWrite response s₁) :
    response ≠ {} ↔ readers ≠ [] := by
  obtain ⟨values, rfl⟩ : ∃ values, response = { values? := Sideband.asked readers values } := by
    cases h with
    | clientFirst _ _ _ _ built =>
      obtain ⟨values, t, -, hpure⟩ := Exec.run_bind_eq_ok_iff.mp built
      cases hpure
      exact ⟨values, rfl⟩
    | serverFirst built =>
      obtain ⟨values, t, -, hpure⟩ := Exec.run_bind_eq_ok_iff.mp built
      cases hpure
      exact ⟨values, rfl⟩
  by_cases hreaders : readers = []
  · simp [Sideband.asked, hreaders]
  · simp [Sideband.asked, hreaders]

end Iterations

/-! ### The loops over the transports -/

section Loops

variable {σ ε V : Type} (size : ℕ) (T : Transport)
  (requestFormat : WireFormat ({} : SidebandWriteRequest V))
  (responseFormat : WireFormat ({} : SidebandReadResponse V))

/-- The message functions on a handle of the transport. A response that protobuf does not
serialize is too long for every buffer, and the call leaves its memory. -/
def Transport.channel : MessageChannel (SidebandData (T.Derived size)) V where
  read := do
    let request ← readSidebandMessage requestFormat.messageLite (T.methods size)
    return request.map Subtype.val
  write response := do
    let response ← responseFormat.sendable response
    writeSidebandMessage responseFormat.messageLite (T.methods size) response

/-- From its response on the iteration from `s` is the call that sends the response, in the state
`s₁`, the test of its result and the rest of the loop's body. It is left at the test exactly when
the frame of the response is not with the transport. A call that never returns leaves nothing. -/
structure LeftWhenFailed [Inhabited V] (behave : ε → ℤ → V → σ → V × σ)
    (readers writers : EndpointList ε) (initialClientWrite : Bool)
    (response : SidebandReadResponse V)
    (s s₁ : MonikerState σ ε V (SidebandData (T.Derived size))) : Prop where
  iteration : (sidebandRound behave (T.channel size requestFormat responseFormat) readers writers
      initialClientWrite).run s =
    (respondThen behave (T.channel size requestFormat responseFormat) writers initialClientWrite
      response).run s₁
  inBounds : (respond (T.channel size requestFormat responseFormat) response).run s₁ ≠
    .error .outOfBounds
  left : ∀ goesOn s₂, (respond (T.channel size requestFormat responseFormat) response).run s₁ =
    .ok (goesOn, s₂) → (goesOn = none ↔ ¬ T.Handed size (responseFormat.serialize response)
      s₁.transport.derived s₂.transport.derived)

variable {size T} {requestFormat} {responseFormat} [Inhabited V] {behave : ε → ℤ → V → σ → V × σ}
  {readers writers : EndpointList ε} {initialClientWrite : Bool} {response : SidebandReadResponse V}
  {s s₁ s₂ : MonikerState σ ε V (SidebandData (T.Derived size))} {goesOn : Option Unit}

/-- The whole iteration ends at the response if the frame is not with the transport. -/
theorem LeftWhenFailed.ends (h : LeftWhenFailed size T requestFormat responseFormat behave readers
      writers initialClientWrite response s s₁)
    (hsent : (respond (T.channel size requestFormat responseFormat) response).run s₁ =
      .ok (goesOn, s₂))
    (hfailed : ¬ T.Handed size (responseFormat.serialize response) s₁.transport.derived
      s₂.transport.derived) :
    (sidebandRound behave (T.channel size requestFormat responseFormat) readers writers
      initialClientWrite).run s = .ok (none, s₂) := by
  obtain rfl := (h.left goesOn s₂ hsent).mpr hfailed
  rw [h.iteration, respondThen, Exec.run_bind_ok hsent]
  rfl

/-- It does what comes after the response if the frame is with the transport. -/
theorem LeftWhenFailed.continues (h : LeftWhenFailed size T requestFormat responseFormat behave
      readers writers initialClientWrite response s s₁)
    (hsent : (respond (T.channel size requestFormat responseFormat) response).run s₁ =
      .ok (goesOn, s₂))
    (hhanded : T.Handed size (responseFormat.serialize response) s₁.transport.derived
      s₂.transport.derived) :
    (sidebandRound behave (T.channel size requestFormat responseFormat) readers writers
      initialClientWrite).run s =
      (afterResponse behave (T.channel size requestFormat responseFormat) writers
        initialClientWrite).run s₂ := by
  have hgoes : goesOn ≠ none := fun hnone => (h.left goesOn s₂ hsent).mp hnone hhanded
  obtain ⟨u, rfl⟩ := Option.ne_none_iff_exists'.mp hgoes
  rw [h.iteration, respondThen, Exec.run_bind_ok hsent]

omit [Inhabited V] in
theorem run_respond_small (hsmall : (responseFormat.serialize response).length < 2 ^ 31) :
    (respond (T.channel size requestFormat responseFormat) response).run s =
      ((writeEncoded (T.methods size) (responseFormat.serialize response)).run s.transport).map
        fun r => (if r.1 = 0 then none else some (), { s with
          transport := r.2, events := s.events ++ [.respond response.values] }) := by
  have hwrite : (T.channel size requestFormat responseFormat).write response =
      writeEncoded (T.methods size) (responseFormat.serialize response) := by
    simp only [Transport.channel, WireFormat.sendable, dif_pos hsmall, pure_bind,
      writeSidebandMessage_eq]
    rfl
  rw [respond, writeSidebandResponse, hwrite]
  cases hrun : (writeEncoded (T.methods size) (responseFormat.serialize response)).run
      s.transport with
  | error e => exact Exec.run_bind_error (Exec.run_bind_error (Exec.run_zoom_error hrun))
  | ok r => exact Exec.run_bind_ok (Exec.run_bind_ok (Exec.run_zoom_ok hrun))

omit [Inhabited V] in
/-- Protobuf serializes no response of 2 GiB. -/
theorem run_respond_large (hlarge : ¬ (responseFormat.serialize response).length < 2 ^ 31) :
    (respond (T.channel size requestFormat responseFormat) response).run s =
      .error .outOfBounds := by
  simp only [respond, writeSidebandResponse, Transport.channel, WireFormat.sendable,
    dif_neg hlarge]
  rfl

omit [Inhabited V] in
/-- The test after the call is right exactly when what the call returns is. -/
theorem respond_iff (hsize : sizeofInt64 ≤ size) (hready : Ready size s.transport)
    (hsized : T.Sized size s.transport.derived) {bytes : Bytes}
    (hbytes : responseFormat.serialize response = bytes) :
    ((respond (T.channel size requestFormat responseFormat) response).run s ≠
        .error .outOfBounds ∧
      ∀ goesOn s', (respond (T.channel size requestFormat responseFormat) response).run s =
        .ok (goesOn, s') →
          (goesOn = none ↔ ¬ T.Handed size bytes s.transport.derived s'.transport.derived)) ↔
      bytes.length < 2 ^ 31 ∧ T.Lands size bytes s.transport.derived ∧
        (T.Stalls size bytes s.transport.derived ∨
          (bytes ≠ [] ↔ T.Takes size bytes s.transport.derived)) := by
  subst hbytes
  by_cases hsmall : (responseFormat.serialize response).length < 2 ^ 31
  · simp only [hsmall, true_and]
    rw [← reports_iff_takes hsize hready hsized hsmall]
    have hrespond : (respond (T.channel size requestFormat responseFormat) response).run s = _ :=
      run_respond_small hsmall
    cases hrun : (writeEncoded (T.methods size) (responseFormat.serialize response)).run
        s.transport with
    | error e =>
      rw [hrun] at hrespond
      constructor
      · rintro ⟨hin, -⟩
        refine ⟨fun herror => hin ?_, fun v o' hreturned => ?_⟩
        · cases herror
          exact hrespond
        · cases hreturned
      · rintro ⟨hin, -⟩
        refine ⟨fun herror => hin ?_, fun goesOn s' hreturned => ?_⟩
        · cases hrespond.symm.trans herror
          rfl
        · cases hrespond.symm.trans hreturned
    | ok r =>
      rw [hrun] at hrespond
      have htest : (if r.1 = 0 then none else some ()) = none ↔ ¬ r.1 ≠ 0 := by
        simp
      constructor
      · rintro ⟨-, hleft⟩
        refine ⟨by simp, fun v o' hreturned => ?_⟩
        cases hreturned
        exact not_iff_not.mp (htest.symm.trans (hleft _ _ hrespond))
      · rintro ⟨-, hreports⟩
        refine ⟨by rw [hrespond]; simp [Except.map], fun goesOn s' hreturned => ?_⟩
        cases hrespond.symm.trans hreturned
        exact htest.trans (not_congr (hreports _ _ rfl))
  · refine iff_of_false (fun h => h.1 (run_respond_large hsmall)) ?_
    exact fun h => hsmall h.1

theorem leftWhenFailed_iff
    (hsends : Sends behave (T.channel size requestFormat responseFormat) readers writers s
      initialClientWrite response s₁)
    (hsize : sizeofInt64 ≤ size) (hready : Ready size s₁.transport)
    (hsized : T.Sized size s₁.transport.derived) :
    LeftWhenFailed size T requestFormat responseFormat behave readers writers initialClientWrite
        response s s₁ ↔
      (responseFormat.serialize response).length < 2 ^ 31 ∧
      T.Lands size (responseFormat.serialize response) s₁.transport.derived ∧
      (T.Stalls size (responseFormat.serialize response) s₁.transport.derived ∨
        (readers ≠ [] ↔
          T.Takes size (responseFormat.serialize response) s₁.transport.derived)) := by
  have hbytes : responseFormat.serialize response ≠ [] ↔ readers ≠ [] := by
    rw [← hsends.asked]
    constructor
    · rintro hne rfl
      exact hne responseFormat.serialize_empty
    · exact responseFormat.serialize_ne_nil
  rw [← hbytes, ← respond_iff hsize hready hsized rfl]
  exact ⟨fun h => ⟨h.inBounds, h.left⟩, fun h => ⟨hsends.run_round, h.1, h.2⟩⟩

/-- **What the callers are told.** For every message, `WriteSidebandMessage` returns something
other than zero exactly when the frame is with the transport, and every iteration of either loop is
left at its response exactly when it is not, if and only if the message lands in its buffer and the
transport takes it when it has bytes, and refuses it when it has none. -/
theorem reports_iff {size : ℕ} (hsize : sizeofInt64 ≤ size) (T : Transport) :
    (∀ {M : Type} (codec : MessageLite M) (m : M) (o : SidebandData (T.Derived size)),
      Ready size o → T.Sized size o.derived →
        (Truthful size T codec m o ↔ T.Lands size (codec.serialize m) o.derived ∧
          (T.Stalls size (codec.serialize m) o.derived ∨
            (codec.serialize m ≠ [] ↔ T.Takes size (codec.serialize m) o.derived)))) ∧
    ∀ {σ ε V : Type} [Inhabited V] (behave : ε → ℤ → V → σ → V × σ)
      (requestFormat : WireFormat ({} : SidebandWriteRequest V))
      (responseFormat : WireFormat ({} : SidebandReadResponse V)) (readers writers : EndpointList ε)
      (initialClientWrite : Bool) (response : SidebandReadResponse V)
      (s s₁ : MonikerState σ ε V (SidebandData (T.Derived size))),
      Sends behave (T.channel size requestFormat responseFormat) readers writers s
        initialClientWrite response s₁ →
      Ready size s₁.transport → T.Sized size s₁.transport.derived →
        (LeftWhenFailed size T requestFormat responseFormat behave readers writers
            initialClientWrite response s s₁ ↔
          (responseFormat.serialize response).length < 2 ^ 31 ∧
          T.Lands size (responseFormat.serialize response) s₁.transport.derived ∧
          (T.Stalls size (responseFormat.serialize response) s₁.transport.derived ∨
            (readers ≠ [] ↔
              T.Takes size (responseFormat.serialize response) s₁.transport.derived))) := by
  refine ⟨fun codec m o hready hsized => truthful_iff hsize hready hsized codec m, ?_⟩
  intro σ ε V _ behave requestFormat responseFormat readers writers initialClientWrite response s s₁
    hsends hready hsized
  exact leftWhenFailed_iff hsends hsize hready hsized

end Loops

/-- A stream over RDMA without endpoints. -/
def idleStream (results : List EasyRdmaResult) :
    MonikerState Unit Unit Any (SidebandData (Transport.rdma.Derived 16)) where
  shared := ()
  transport := newRdma results

/-- No endpoint does anything. -/
def doNothing : Unit → ℤ → Any → Unit → Any × Unit := fun _ _ value shared => (value, shared)

theorem sends_idleStream (results : List EasyRdmaResult) :
    Sends doNothing
      (Transport.rdma.channel 16 sidebandWriteRequestFormat sidebandReadResponseFormat) [] []
      (idleStream results) false {} (idleStream results) := .serverFirst rfl

/-- A message of one byte that is queued is reported, and a server without readers leaves its loop
when its empty response is not queued. -/
theorem reports_iff_rdma : Truthful 16 .rdma rawMessage ⟨[1], by decide⟩ (newRdma []) ∧
    LeftWhenFailed 16 .rdma sidebandWriteRequestFormat sidebandReadResponseFormat doNothing [] []
      false {} (idleStream [.success, .failure]) (idleStream [.success, .failure]) := by
  constructor
  · refine ((reports_iff (by decide) .rdma).1 rawMessage _ _ (ready_newRdma _)
      (sized_newRdma _)).mpr ⟨.inl ⟨by decide, .inr (.inl ⟨0, rfl, rfl⟩)⟩, .inr ?_⟩
    exact iff_of_true (by decide) ⟨.inl ⟨0, rfl, rfl⟩, rfl⟩
  · refine (((reports_iff (by decide) .rdma).2 doNothing _ _ _ _ _ _ _ _ (sends_idleStream _)
      (ready_newRdma _) (sized_newRdma _))).mpr
        ⟨by decide, .inl ⟨by decide, .inr (.inl ⟨0, rfl, rfl⟩)⟩, .inr ?_⟩
    refine iff_of_false (by simp) ?_
    rintro ⟨-, hanswer⟩
    cases hanswer

/-- An empty message that is queued is reported as a failure, and a server without readers leaves
its loop though its response was queued. -/
theorem not_truthful_empty : ¬ Truthful 16 .rdma rawMessage ⟨[], by decide⟩ (newRdma []) ∧
    ¬ LeftWhenFailed 16 .rdma sidebandWriteRequestFormat sidebandReadResponseFormat doNothing [] []
      false {} (idleStream []) (idleStream []) := by
  have htakes : Transport.rdma.Takes 16 [] (newRdma []).derived := ⟨.inl ⟨0, rfl, rfl⟩, rfl⟩
  have hstalls : ¬ Transport.rdma.Stalls 16 [] (newRdma []).derived := by
    rintro ⟨-, hpick⟩
    cases hpick
  constructor
  · rw [truthful_iff (by decide) (ready_newRdma _) (sized_newRdma _)]
    rintro ⟨-, hstalls' | hne⟩
    · exact hstalls hstalls'
    · exact hne.mpr htakes rfl
  · rw [leftWhenFailed_iff (sends_idleStream _) (by decide) (ready_newRdma _) (sized_newRdma _)]
    rintro ⟨-, -, hstalls' | hne⟩
    · exact hstalls hstalls'
    · exact hne.mpr htakes rfl

end Sideband
