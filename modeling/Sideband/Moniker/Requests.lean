import Sideband.Moniker.Calls

/-!
# Client-first streams

What the service does with the requests of a client that writes first, as a function of the values
they carry (`requestEffect`, `requestsEffect`): each request calls the write endpoints in list order
on its values, then the read endpoints, and is answered with the values these have left.

* `handlesInOrder`: over a channel that delivers frames in order, `RunSidebandReadWriteLoop` does
  exactly that, and closes the stream when it is cancelled.
* `sideband_eq_stream`: with a read moniker, `StreamReadWrite` does the same on the same values.
-/

namespace Sideband

open Foundation

/-! ### Frames in order -/

/-- A transport that delivers frames in order and loses none: the frames to come and the frames
sent. -/
structure Frames where
  incoming : List Bytes
  outgoing : List Bytes := []
  deriving DecidableEq, Repr

section Requests

variable {σ ε V : Type} (behave : ε → ℤ → V → σ → V × σ)
  (requestFormat : WireFormat ({} : SidebandWriteRequest V))
  (responseFormat : WireFormat ({} : SidebandReadResponse V))

/-- The two message functions over such a transport. A read with no frame to come waits, and one
of a frame that does not parse returns false. -/
def Frames.channel : MessageChannel Frames V where
  read := do
    let frames ← get
    match frames.incoming with
    | [] => throw .blocked
    | frame :: incoming =>
      set { frames with incoming }
      return requestFormat.parse frame
  write response := do
    let frame := responseFormat.serialize response
    modify fun frames => { frames with outgoing := frames.outgoing ++ [frame] }
    return frame.length

/-- The request of a sideband client that carries `values`. -/
def SidebandWriteRequest.ofValues (values : List V) : SidebandWriteRequest V :=
  { values? := some values }

/-- The request that ends a sideband stream. -/
def SidebandWriteRequest.cancelling : SidebandWriteRequest V := { cancel := true }

/-- The data message of a gRPC client that carries `values`. -/
def MonikerWriteRequest.ofValues (values : List V) : MonikerWriteRequest V :=
  ⟨some (.data values)⟩

theorem SidebandWriteRequest.map_values_ofValues (requests : List (List V)) :
    (requests.map ofValues).map values = requests := by
  rw [List.map_map]
  exact List.map_id requests

theorem MonikerWriteRequest.map_values_ofValues (requests : List (List V)) :
    (requests.map ofValues).map values = requests := by
  rw [List.map_map]
  exact List.map_id requests

/-! ### What requests do -/

/-- What is seen of a handler, and the state of the endpoints afterwards. It is what a stream
comes to, whatever its transport. -/
structure Effect (σ ε V : Type) where
  events : List (MonikerEvent ε V)
  shared : σ

/-- The effect of a request that carries `values`: the write endpoints in list order, then the
read endpoints, and a response with what these have left, if there are any. It takes a value for
each writer; more are ignored. -/
def requestEffect [Inhabited V] (readers writers : List (ε × ℤ)) (values : List V) (shared : σ) :
    Effect σ ε V :=
  let calls := writeCalls writers values
  let written := (callAll behave calls shared).2
  if readers = [] then ⟨callEvents calls, written⟩
  else
    let (left, read) := callAll behave (readCalls readers) written
    ⟨callEvents calls ++ callEvents (readCalls readers) ++ [.respond left], read⟩

/-- The effect of a data message on a gRPC stream, which is answered also when nothing is read. -/
def streamEffect [Inhabited V] (readers writers : List (ε × ℤ)) (values : List V) (shared : σ) :
    Effect σ ε V :=
  let calls := writeCalls writers values
  let (left, read) := callAll behave (readCalls readers) (callAll behave calls shared).2
  ⟨callEvents calls ++ callEvents (readCalls readers) ++ [.respond left], read⟩

/-- The effect of requests one after the other, each on the state that the one before has left.
No transport and no loop is part of it. -/
def requestsEffect [Inhabited V] (readers writers : List (ε × ℤ)) :
    List (List V) → σ → Effect σ ε V
  | [], shared => ⟨[], shared⟩
  | values :: requests, shared =>
    let first := requestEffect behave readers writers values shared
    let rest := requestsEffect readers writers requests first.shared
    ⟨first.events ++ rest.events, rest.shared⟩

/-- The values of a response in the record. -/
def MonikerEvent.response? : MonikerEvent ε V → Option (List V)
  | .respond values => some values
  | _ => none

/-- The frames of the responses. -/
def responseFrames (events : List (MonikerEvent ε V)) : List Bytes :=
  (events.filterMap MonikerEvent.response?).map fun values =>
    responseFormat.serialize { values? := some values }

/-- The endpoints that a moniker list names, where they are registered; a name that is not is
left out. -/
def found (endpoints : Endpoints ε) (monikers : List Moniker) : List (ε × ℤ) :=
  monikers.filterMap fun moniker =>
    (endpoints moniker.dataSource).map fun endpoint => (endpoint, moniker.dataInstance)

/-- Every data source of the list is registered, so that no pointer of the handler is null. -/
def AllRegistered (endpoints : Endpoints ε) (monikers : List Moniker) : Prop :=
  ∀ moniker ∈ monikers, (endpoints moniker.dataSource).isSome

instance (endpoints : Endpoints ε) (monikers : List Moniker) :
    Decidable (AllRegistered endpoints monikers) :=
  inferInstanceAs (Decidable (∀ moniker ∈ monikers, (endpoints moniker.dataSource).isSome))

theorem resolve_eq_pointers {endpoints : Endpoints ε} {monikers : List Moniker}
    (h : AllRegistered endpoints monikers) :
    resolve endpoints monikers = pointers (found endpoints monikers) := by
  induction monikers with
  | nil => rfl
  | cons moniker monikers ih =>
    obtain ⟨endpoint, hendpoint⟩ := Option.isSome_iff_exists.mp (h moniker List.mem_cons_self)
    have hrest := ih fun m hm => h m (List.mem_cons_of_mem moniker hm)
    simp only [resolve, List.map_cons, found, List.filterMap_cons, hendpoint, Option.map_some,
      pointers]
    exact congrArg (_ :: ·) hrest

theorem length_found {endpoints : Endpoints ε} {monikers : List Moniker}
    (h : AllRegistered endpoints monikers) :
    (found endpoints monikers).length = monikers.length := by
  have hlength := congrArg List.length (resolve_eq_pointers h)
  rw [resolve, pointers, List.length_map, List.length_map] at hlength
  exact hlength.symm

@[simp]
theorem resolve_eq_nil_iff {endpoints : Endpoints ε} {monikers : List Moniker} :
    resolve endpoints monikers = [] ↔ monikers = [] :=
  List.map_eq_nil_iff

theorem allRegistered_nil (endpoints : Endpoints ε) : AllRegistered endpoints [] := by
  rintro moniker ⟨⟩

/-! ### A round of the sideband loop -/

variable {readers writers : List (ε × ℤ)} {s : MonikerState σ ε V Frames}

theorem asked_pointers (h : readers ≠ []) (values : List V) :
    asked (pointers readers) values = some values :=
  if_neg (mt pointers_eq_nil_iff.mp h)

theorem filterMap_callEvents (calls : List (EndpointCall ε V)) :
    (callEvents calls).filterMap MonikerEvent.response? = [] := by
  refine List.filterMap_eq_nil_iff.mpr ?_
  intro event hevent
  obtain ⟨call, -, rfl⟩ := List.mem_map.mp hevent
  rfl

theorem run_read_frame {request : SidebandWriteRequest V} {incoming outgoing : List Bytes}
    (h : s.transport = ⟨requestFormat.serialize request :: incoming, outgoing⟩) :
    (onTransport (Frames.channel requestFormat responseFormat).read).run s =
      .ok (some request, { s with transport := ⟨incoming, outgoing⟩ }) := by
  refine Exec.run_zoom_ok ?_
  rw [h, ← requestFormat.parse_serialize request]
  rfl

/-- A response is one frame, which is never empty. -/
theorem run_writeSidebandResponse (values : List V) (s : MonikerState σ ε V Frames) :
    ∃ byteSize, byteSize ≠ 0 ∧
      (writeSidebandResponse (Frames.channel requestFormat responseFormat)
        { values? := some values }).run s = .ok (byteSize,
          { s with
            events := s.events ++ [.respond values]
            transport := { s.transport with outgoing := s.transport.outgoing ++
              [responseFormat.serialize { values? := some values }] } }) := by
  have hne : responseFormat.serialize { values? := some values } ≠ [] := by
    refine responseFormat.serialize_ne_nil fun h => ?_
    exact Option.some_ne_none values (congrArg SidebandReadResponse.values? h)
  exact ⟨_, Int.natCast_ne_zero.mpr (List.length_pos_iff.mpr hne).ne', rfl⟩

theorem responseFrames_append (events events' : List (MonikerEvent ε V)) :
    responseFrames responseFormat (events ++ events') =
      responseFrames responseFormat events ++ responseFrames responseFormat events' := by
  rw [responseFrames, List.filterMap_append, List.map_append]
  rfl

/-- The state after the calls and responses of an effect. -/
def MonikerState.after {τ : Type} (s : MonikerState σ ε V τ) (effect : Effect σ ε V)
    (transport : τ) : MonikerState σ ε V τ :=
  ⟨effect.shared, s.events ++ effect.events, transport⟩

variable [Inhabited V]

theorem requestEffect_of_ne_nil (h : readers ≠ []) (values : List V) (shared : σ) :
    requestEffect behave readers writers values shared =
      streamEffect behave readers writers values shared := if_neg h

theorem getD_asked (readers : List (ε × ℤ)) (shared : σ) :
    (asked (pointers readers) (callAll behave (readCalls readers) shared).1).getD [] =
      (callAll behave (readCalls readers) shared).1 := by
  rcases eq_or_ne readers [] with rfl | hreaders
  · rfl
  · rw [asked_pointers hreaders, Option.getD_some]

/-- The response of the client-first branch holds what the read endpoints left. -/
theorem run_sidebandClientFirstResponse {τ : Type} (h : readers ≠ [])
    (s : MonikerState σ ε V τ) :
    (sidebandClientFirstResponse behave (pointers readers)).run s =
      .ok ({ values? := some (callAll behave (readCalls readers) s.shared).1 },
        s.called behave (readCalls readers)) := by
  have hadd := run_callAdding behave readers [] s
  rw [List.nil_append] at hadd
  rw [sidebandClientFirstResponse, Exec.run_bind_ok hadd, asked_pointers h]
  rfl

/-- A request with a value for each writer is handled, and the loop goes on. -/
theorem run_sidebandClientFirst_request (readers : List (ε × ℤ)) {request : SidebandWriteRequest V}
    {incoming outgoing : List Bytes} (hcancel : request.cancel = false)
    (hvalues : writers.length ≤ request.values.length)
    (h : s.transport = ⟨requestFormat.serialize request :: incoming, outgoing⟩) :
    (sidebandClientFirst behave (Frames.channel requestFormat responseFormat) (pointers readers)
      (pointers writers) ()).run s =
        .ok (some (), s.after (requestEffect behave readers writers request.values s.shared)
          ⟨incoming, outgoing ++ responseFrames responseFormat
            (requestEffect behave readers writers request.values s.shared).events⟩) := by
  have hread := run_read_frame requestFormat responseFormat h
  obtain ⟨t, ht⟩ : ∃ t, { s with transport := (⟨incoming, outgoing⟩ : Frames) } = t := ⟨_, rfl⟩
  rw [ht] at hread
  obtain ⟨values', hwrite⟩ := run_callIndexed_zero behave t hvalues
  rw [sidebandClientFirst, Exec.run_bind_ok hread]
  dsimp only
  rw [hcancel, if_neg Bool.false_ne_true, Exec.run_bind_ok hwrite]
  -- without readers no response is written
  rcases eq_or_ne readers [] with rfl | hreaders
  · have hnone : ¬ (pointers ([] : List (ε × ℤ))).length > 0 := Nat.lt_irrefl 0
    subst ht
    rw [if_neg hnone]
    simp [requestEffect, MonikerState.after, MonikerState.called, responseFrames,
      filterMap_callEvents]
  · have hsome : (pointers readers).length > 0 := by
      rw [pointers, List.length_map]
      exact List.length_pos_iff.mpr hreaders
    have hresponse := run_sidebandClientFirstResponse behave hreaders
      (t.called behave (writeCalls writers request.values))
    obtain ⟨byteSize, hne, hsend⟩ := run_writeSidebandResponse requestFormat responseFormat
      (callAll behave (readCalls readers)
        (t.called behave (writeCalls writers request.values)).shared).1
      ((t.called behave (writeCalls writers request.values)).called behave (readCalls readers))
    rw [if_pos hsome, Exec.run_bind_ok hresponse, Exec.run_bind_ok hsend, if_neg hne,
      requestEffect_of_ne_nil behave hreaders]
    subst ht
    simp [MonikerState.after, MonikerState.called, streamEffect, responseFrames,
      filterMap_callEvents, MonikerEvent.response?]

/-- A cancel ends the loop. -/
theorem run_sidebandClientFirst_cancel {request : SidebandWriteRequest V}
    {incoming outgoing : List Bytes} (hcancel : request.cancel = true)
    (h : s.transport = ⟨requestFormat.serialize request :: incoming, outgoing⟩)
    (endpoints endpoints' : EndpointList ε) :
    (sidebandClientFirst behave (Frames.channel requestFormat responseFormat) endpoints endpoints'
      ()).run s = .ok (none, { s with transport := ⟨incoming, outgoing⟩ }) := by
  rw [sidebandClientFirst, Exec.run_bind_ok (run_read_frame requestFormat responseFormat h)]
  dsimp only
  rw [hcancel, if_pos rfl]
  rfl

/-! ### The sideband loop -/

/-- The loop handles the requests up to the cancel, and ends. -/
theorem run_loop_sidebandClientFirst {requests : List (SidebandWriteRequest V)}
    {last : SidebandWriteRequest V} {rest outgoing : List Bytes} {rounds : ℕ}
    (hrequests : ∀ r ∈ requests, r.cancel = false ∧ writers.length ≤ r.values.length)
    (hlast : last.cancel = true) (hrounds : requests.length < rounds)
    (h : s.transport = ⟨(requests ++ [last]).map requestFormat.serialize ++ rest, outgoing⟩) :
    (Exec.loop (sidebandClientFirst behave (Frames.channel requestFormat responseFormat)
      (pointers readers) (pointers writers)) rounds ()).run s =
        .ok (none, s.after (requestsEffect behave readers writers
          (requests.map SidebandWriteRequest.values) s.shared) ⟨rest, outgoing ++
            responseFrames responseFormat (requestsEffect behave readers writers
              (requests.map SidebandWriteRequest.values) s.shared).events⟩) := by
  induction requests generalizing s outgoing rounds with
  | nil =>
    obtain ⟨rounds, rfl⟩ := Nat.exists_eq_add_of_lt hrounds
    have hround := run_sidebandClientFirst_cancel behave requestFormat responseFormat hlast h
    rw [Exec.loop_ends (hround _ _)]
    simp [MonikerState.after, requestsEffect, responseFrames]
  | cons request requests ih =>
    obtain ⟨rounds, rfl⟩ := Nat.exists_eq_add_of_lt hrounds
    obtain ⟨hcancel, hvalues⟩ := hrequests request List.mem_cons_self
    have hrest := fun r hr => hrequests r (List.mem_cons_of_mem request hr)
    have hround := run_sidebandClientFirst_request behave requestFormat responseFormat readers
      hcancel hvalues h
    rw [List.length_cons, Nat.add_right_comm _ 1, Nat.add_right_comm _ 1, Exec.loop_goesOn hround]
    rw [ih hrest (by omega) rfl]
    simp [MonikerState.after, requestsEffect, responseFrames_append, List.append_assoc]

theorem run_sideband_clientFirst (readers : List (ε × ℤ)) {requests : List (SidebandWriteRequest V)}
    {last : SidebandWriteRequest V} {rest outgoing : List Bytes} {rounds : ℕ}
    (hrequests : ∀ r ∈ requests, r.cancel = false ∧ writers.length ≤ r.values.length)
    (hlast : last.cancel = true) (hrounds : requests.length < rounds)
    (h : s.transport = ⟨(requests ++ [last]).map requestFormat.serialize ++ rest, outgoing⟩) :
    (runSidebandReadWriteLoop behave (Frames.channel requestFormat responseFormat)
      (pointers readers) (pointers writers) true rounds).run s =
        .ok (true,
          let effect := requestsEffect behave readers writers
            (requests.map SidebandWriteRequest.values) s.shared
          ⟨effect.shared, s.events ++ effect.events ++ [.close],
            ⟨rest, outgoing ++ responseFrames responseFormat effect.events⟩⟩) := by
  rw [runSidebandReadWriteLoop, if_pos rfl, Exec.run_bind_ok
    (run_loop_sidebandClientFirst behave requestFormat responseFormat hrequests hlast hrounds h)]
  rfl

/-- `RunSidebandReadWriteLoop` handles each request of a client that writes first once, in order,
and closes the stream when the client cancels. All monikers are registered, every request has a
value for each writer, and what is behind the cancelling request stays unread. -/
theorem handlesInOrder (endpoints : Endpoints ε) (monikers : MonikerList)
    (hread : AllRegistered endpoints monikers.readMonikers)
    (hwrite : AllRegistered endpoints monikers.writeMonikers)
    {requests : List (SidebandWriteRequest V)} {last : SidebandWriteRequest V}
    (hrequests : ∀ r ∈ requests,
      r.cancel = false ∧ monikers.writeMonikers.length ≤ r.values.length)
    (hlast : last.cancel = true) {rest outgoing : List Bytes} {rounds : ℕ}
    (hrounds : requests.length < rounds)
    (h : s.transport = ⟨(requests ++ [last]).map requestFormat.serialize ++ rest, outgoing⟩) :
    let (readers, writers) := initiateMonikerList endpoints monikers
    let effect := requestsEffect behave (found endpoints monikers.readMonikers)
      (found endpoints monikers.writeMonikers) (requests.map SidebandWriteRequest.values) s.shared
    (runSidebandReadWriteLoop behave (Frames.channel requestFormat responseFormat) readers writers
      true rounds).run s =
        .ok (true, ⟨effect.shared, s.events ++ effect.events ++ [.close],
          ⟨rest, outgoing ++ responseFrames responseFormat effect.events⟩⟩) := by
  rw [← length_found hwrite] at hrequests
  dsimp only [initiateMonikerList]
  rw [resolve_eq_pointers hread, resolve_eq_pointers hwrite]
  exact run_sideband_clientFirst behave requestFormat responseFormat _ hrequests hlast hrounds h

/-! ### The gRPC stream -/

section Stream

variable {t : MonikerState σ ε V (GrpcStream V)} {incoming : List (MonikerWriteRequest V)}
  {uncancelled : ℕ}

/-- What the client-first branch of `StreamReadWrite` does with a message. -/
def handleData (readers writers : EndpointList ε) (writeRequest : MonikerWriteRequest V) :
    Exec (MonikerState σ ε V (GrpcStream V)) (Option Unit) := do
  let _ ← callIndexed behave writers 0 writeRequest.values
  let readResult ← streamClientFirstResponse behave readers
  responded readResult.values
  return some ()

theorem streamClientFirst_eq (readers writers : EndpointList ε) :
    streamClientFirst behave readers writers () = reading (handleData behave readers writers) := rfl

/-- A data message with a value for each writer is handled. -/
theorem run_handleData {request : MonikerWriteRequest V} (readers : List (ε × ℤ))
    (hvalues : writers.length ≤ request.values.length) (t : MonikerState σ ε V (GrpcStream V)) :
    (handleData behave (pointers readers) (pointers writers) request).run t =
      .ok (some (), t.after (streamEffect behave readers writers request.values t.shared)
        t.transport) := by
  obtain ⟨values', hwrite⟩ := run_callIndexed_zero behave t hvalues
  have hresponse (t : MonikerState σ ε V (GrpcStream V)) :
      (streamClientFirstResponse behave (pointers readers)).run t =
        .ok ({ data? := asked (pointers readers) (callAll behave (readCalls readers) t.shared).1 },
          t.called behave (readCalls readers)) :=
    Exec.run_bind_ok (run_callAdding behave readers [] t)
  rw [handleData, Exec.run_bind_ok hwrite, Exec.run_bind_ok (hresponse _),
    MonikerReadResult.values, getD_asked]
  simp [responded, MonikerState.after, MonikerState.called, streamEffect]

theorem run_streamClientFirst_data {request : MonikerWriteRequest V} (readers : List (ε × ℤ))
    (hvalues : writers.length ≤ request.values.length)
    (h : t.transport = ⟨request :: incoming, uncancelled + 1⟩) :
    (streamClientFirst behave (pointers readers) (pointers writers) ()).run t =
      .ok (some (), t.after (streamEffect behave readers writers request.values t.shared)
        ⟨incoming, uncancelled⟩) := by
  rw [streamClientFirst_eq, run_reading _ h, run_handleData behave readers hvalues]
  rfl

/-- The loop handles the data messages up to the end of the stream. -/
theorem run_loop_streamClientFirst {requests : List (MonikerWriteRequest V)} {rounds : ℕ}
    (hreaders : readers ≠ []) (hrequests : ∀ r ∈ requests, writers.length ≤ r.values.length)
    (huncancelled : requests.length ≤ uncancelled) (hrounds : requests.length < rounds)
    (h : t.transport = ⟨requests, uncancelled⟩) :
    ∃ stream, (Exec.loop (streamClientFirst behave (pointers readers) (pointers writers)) rounds
      ()).run t = .ok (none, t.after (requestsEffect behave readers writers
        (requests.map MonikerWriteRequest.values) t.shared) stream) := by
  -- one round for each message, and one more that finds the end of the stream
  induction requests generalizing t uncancelled rounds with
  | nil =>
    obtain ⟨rounds, rfl⟩ := Nat.exists_eq_add_of_lt hrounds
    obtain ⟨stream, hend⟩ := run_reading_ends
      (handleData behave (pointers readers) (pointers writers)) h List.take_nil
    refine ⟨stream, ?_⟩
    rw [Exec.loop_ends ((congrArg (·.run t) (streamClientFirst_eq behave _ _)).trans hend)]
    simp [MonikerState.after, requestsEffect]
  | cons request requests ih =>
    obtain ⟨rounds, rfl⟩ := Nat.exists_eq_add_of_lt hrounds
    obtain ⟨uncancelled, rfl⟩ := Nat.exists_eq_add_of_lt huncancelled
    have hrest := fun r hr => hrequests r (List.mem_cons_of_mem request hr)
    have hround := run_streamClientFirst_data behave readers
      (hrequests request List.mem_cons_self) h
    rw [← requestEffect_of_ne_nil behave hreaders] at hround
    have hrounds' : requests.length < requests.length + rounds + 1 := by omega
    obtain ⟨stream, hloop⟩ := ih
      (t := t.after (requestEffect behave readers writers request.values t.shared)
        ⟨requests, requests.length + uncancelled⟩)
      hrest (Nat.le_add_right _ uncancelled) hrounds' rfl
    refine ⟨stream, ?_⟩
    rw [List.length_cons, Nat.add_right_comm _ 1, Nat.add_right_comm _ 1, Exec.loop_goesOn hround,
      hloop]
    simp [MonikerState.after, requestsEffect, List.append_assoc]

/-- `StreamReadWrite`, on a moniker list with `is_initial_write` and then data messages. -/
theorem run_streamReadWrite_clientFirst (endpoints : Endpoints ε) (monikers : MonikerList)
    (hread : AllRegistered endpoints monikers.readMonikers)
    (hwrite : AllRegistered endpoints monikers.writeMonikers) (hne : monikers.readMonikers ≠ [])
    (hinitial : monikers.isInitialWrite = true) {requests : List (MonikerWriteRequest V)}
    {rounds : ℕ} (hrequests : ∀ r ∈ requests, monikers.writeMonikers.length ≤ r.values.length)
    (huncancelled : requests.length ≤ uncancelled) (hrounds : requests.length < rounds)
    (h : t.transport = ⟨⟨some (.monikers monikers)⟩ :: requests, uncancelled⟩) :
    ∃ stream, (streamReadWrite behave endpoints rounds).run t =
      .ok (true, t.after (requestsEffect behave (found endpoints monikers.readMonikers)
        (found endpoints monikers.writeMonikers) (requests.map MonikerWriteRequest.values)
        t.shared) stream) := by
  have hreaders : found endpoints monikers.readMonikers ≠ [] := by
    intro hnil
    have hlength := length_found hread
    rw [hnil, List.length_nil] at hlength
    exact hne (List.eq_nil_of_length_eq_zero hlength.symm)
  rw [← length_found hwrite] at hrequests
  obtain ⟨stream, hloop⟩ := run_loop_streamClientFirst behave
    (t := { t with transport := ⟨requests, uncancelled⟩ }) hreaders hrequests huncancelled hrounds
    rfl
  refine ⟨stream, ?_⟩
  rw [run_streamReadWrite behave endpoints rounds rfl h, List.head?_cons, Option.getD_some,
    MonikerWriteRequest.monikers, if_pos hinitial, resolve_eq_pointers hread,
    resolve_eq_pointers hwrite]
  exact Exec.run_map_ok Option.isNone hloop

/-- Fed the same values, the sideband and the gRPC stream make the same calls and the same
responses, and leave the endpoints in the same state. The stream of the sideband is cancelled by
a request, the gRPC stream by its end; only the sideband has a handle to close. -/
theorem sideband_eq_stream (endpoints : Endpoints ε) (monikers : MonikerList)
    (hread : AllRegistered endpoints monikers.readMonikers)
    (hwrite : AllRegistered endpoints monikers.writeMonikers) (hne : monikers.readMonikers ≠ [])
    {requests : List (List V)} {rest outgoing : List Bytes} {rounds : ℕ}
    (hrequests : ∀ values ∈ requests, monikers.writeMonikers.length ≤ values.length)
    (huncancelled : requests.length ≤ uncancelled) (hrounds : requests.length < rounds)
    (hshared : s.shared = t.shared) (hevents : s.events = t.events)
    (hs : s.transport = ⟨(requests.map SidebandWriteRequest.ofValues ++
      [SidebandWriteRequest.cancelling]).map requestFormat.serialize ++ rest, outgoing⟩)
    (ht : t.transport = ⟨⟨some (.monikers { monikers with isInitialWrite := true })⟩ ::
      requests.map MonikerWriteRequest.ofValues, uncancelled⟩) :
    let (readers, writers) := initiateMonikerList endpoints monikers
    ∃ s' t', (runSidebandReadWriteLoop behave (Frames.channel requestFormat responseFormat) readers
        writers true rounds).run s = .ok (true, s') ∧
      (streamReadWrite behave endpoints rounds).run t = .ok (true, t') ∧
      s'.events = t'.events ++ [.close] ∧ s'.shared = t'.shared := by
  have hlength : (requests.map SidebandWriteRequest.ofValues).length < rounds := by
    rwa [List.length_map]
  have hvalues : ∀ r ∈ requests.map SidebandWriteRequest.ofValues, r.cancel = false ∧
      (found endpoints monikers.writeMonikers).length ≤ r.values.length := by
    rw [length_found hwrite]
    intro r hr
    obtain ⟨values, hmem, rfl⟩ := List.mem_map.mp hr
    exact ⟨rfl, hrequests values hmem⟩
  have hsideband := run_sideband_clientFirst behave requestFormat responseFormat
    (found endpoints monikers.readMonikers) hvalues rfl hlength hs
  have hmessages : ∀ r ∈ requests.map MonikerWriteRequest.ofValues,
      monikers.writeMonikers.length ≤ r.values.length := by
    intro r hr
    obtain ⟨values, hmem, rfl⟩ := List.mem_map.mp hr
    exact hrequests values hmem
  obtain ⟨stream, hstream⟩ := run_streamReadWrite_clientFirst behave endpoints
    { monikers with isInitialWrite := true } hread hwrite hne rfl hmessages
    (by rwa [List.length_map]) (by rwa [List.length_map]) ht
  -- both runs have the effect of `requests`, from the same state of the endpoints
  rw [SidebandWriteRequest.map_values_ofValues] at hsideband
  rw [MonikerWriteRequest.map_values_ofValues, ← hshared] at hstream
  dsimp only [initiateMonikerList]
  rw [resolve_eq_pointers hread, resolve_eq_pointers hwrite]
  exact ⟨_, _, hsideband, hstream, by rw [hevents]; rfl, rfl⟩

end Stream

end Requests

/-! ### A store -/

section Store

/-- An endpoint that stores its value (`true`), and one that loads what is stored. The witnesses
run on these two. -/
def storeLoad (store : Bool) (_ : ℤ) (value stored : Any) : Any × Any :=
  if store then (value, value) else (stored, stored)

def storeEndpoints : Endpoints Bool := registerAll [([0x53], true), ([0x4C], false)]

def storeMonikers : MonikerList where
  readMonikers := [⟨[0x4C], 1⟩]
  writeMonikers := [⟨[0x53], 2⟩]

def storeRequests : List (List Any) := [[{ value := [7] }], [{ value := [8] }]]

/-- The sideband stream of a client that stores two values. -/
def storeStream : MonikerState Any Bool Any Frames where
  shared := {}
  transport := ⟨(storeRequests.map SidebandWriteRequest.ofValues ++
    [SidebandWriteRequest.cancelling]).map sidebandWriteRequestFormat.serialize ++ [], []⟩

def storeGrpcStream : MonikerState Any Bool Any (GrpcStream Any) where
  shared := {}
  transport := ⟨⟨some (.monikers { storeMonikers with isInitialWrite := true })⟩ ::
    storeRequests.map MonikerWriteRequest.ofValues, 2⟩

/-- A store is written and read twice, and the stream cancelled. -/
theorem handlesInOrder_store :
    ∃ t, (runSidebandReadWriteLoop storeLoad
        (Frames.channel sidebandWriteRequestFormat sidebandReadResponseFormat)
        (resolve storeEndpoints storeMonikers.readMonikers)
        (resolve storeEndpoints storeMonikers.writeMonikers) true 3).run storeStream =
          .ok (true, t) ∧
      t.events = [.call true 2 { value := [7] }, .call false 1 {}, .respond [{ value := [7] }],
        .call true 2 { value := [8] }, .call false 1 {}, .respond [{ value := [8] }], .close] := by
  have hread : AllRegistered storeEndpoints storeMonikers.readMonikers := by decide
  have hwrite : AllRegistered storeEndpoints storeMonikers.writeMonikers := by decide
  exact ⟨_, handlesInOrder storeLoad sidebandWriteRequestFormat sidebandReadResponseFormat
    storeEndpoints storeMonikers hread hwrite (by decide) rfl (by decide) rfl, by decide⟩

/-- The store of the sideband, over a gRPC stream. -/
theorem sideband_eq_stream_store :
    ∃ s' t', (runSidebandReadWriteLoop storeLoad
        (Frames.channel sidebandWriteRequestFormat sidebandReadResponseFormat)
        (resolve storeEndpoints storeMonikers.readMonikers)
        (resolve storeEndpoints storeMonikers.writeMonikers) true 3).run storeStream =
          .ok (true, s') ∧
      (streamReadWrite storeLoad storeEndpoints 3).run storeGrpcStream = .ok (true, t') ∧
      s'.events = t'.events ++ [.close] ∧ s'.shared = t'.shared :=
  sideband_eq_stream storeLoad sidebandWriteRequestFormat sidebandReadResponseFormat storeEndpoints
    storeMonikers (by decide) (by decide) (by decide) (by decide) (by decide) (by decide) rfl rfl
    rfl rfl

end Store

end Sideband
