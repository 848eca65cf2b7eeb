import Sideband.Moniker.Streams

/-!
# Handlers that stay in bounds

What a client's moniker list and requests do to the memory of the handlers. A result is `InBounds`
when the handler has only called endpoints that were registered, and has taken no value and called
no pointer that is not there.

The handlers check neither the pointers that `InitiateMonikerList` stores nor the number of values
in a request, so each of them stays in bounds exactly if every request that it takes `ValuesFit` the
moniker list (`sideband_keepsInBounds_iff`, `stream_keepsInBounds_iff`, `write_keepsInBounds_iff`).
The server-first branches get past their response only if nothing is to be read.
-/

namespace Sideband

open Foundation

section Safety

variable {σ ε V τ α β : Type}

/-! ### Registered endpoints -/

/-- The calls are calls of registered endpoints. -/
def Registered (registrations : List (Bytes × ε)) (calls : List (EndpointCall ε V)) : Prop :=
  ∀ call ∈ calls, ∃ endpointName, (endpointName, call.1) ∈ registrations

theorem Registered.nil (registrations : List (Bytes × ε)) :
    Registered registrations ([] : List (EndpointCall ε V)) := by
  rintro call ⟨⟩

/-- A registration adds its endpoint, or keeps the one that is there. -/
theorem registerMonikerEndpoint_eq_some {endpoints : Endpoints ε} {endpointName name : Bytes}
    {endpoint e : ε} (h : registerMonikerEndpoint endpointName endpoint endpoints name = some e) :
    endpoints name = some e ∨ (name, e) = (endpointName, endpoint) := by
  rw [registerMonikerEndpoint] at h
  rcases eq_or_ne name endpointName with rfl | hname
  · rw [Function.update_self] at h
    rcases hold : endpoints name with - | old
    · rw [hold, Option.getD_none] at h
      exact .inr (Prod.ext rfl (Option.some.inj h).symm)
    · rw [hold, Option.getD_some] at h
      exact .inl h
  · rw [Function.update_of_ne hname] at h
    exact .inl h

/-- An endpoint that is found was registered under its name. -/
theorem mem_of_registerAll {registrations : List (Bytes × ε)} {name : Bytes} {e : ε}
    (h : registerAll registrations name = some e) : (name, e) ∈ registrations := by
  obtain ⟨endpoints, hnone, hfold⟩ : ∃ endpoints : Endpoints ε, endpoints name ≠ some e ∧
      registrations.foldl (fun endpoints r => registerMonikerEndpoint r.1 r.2 endpoints) endpoints
        name = some e := ⟨fun _ => none, Option.some_ne_none e ∘ Eq.symm, h⟩
  clear h
  induction registrations generalizing endpoints with
  | nil => exact absurd hfold hnone
  | cons r registrations ih =>
    by_cases hfirst : registerMonikerEndpoint r.1 r.2 endpoints name = some e
    · rcases registerMonikerEndpoint_eq_some hfirst with hold | hnew
      · exact absurd hold hnone
      · rw [hnew]
        exact List.mem_cons_self
    · exact List.mem_cons_of_mem r (ih _ hfirst hfold)

theorem exists_of_mem_found {registrations : List (Bytes × ε)} {monikers : List Moniker}
    {e : ε × ℤ} (h : e ∈ found (registerAll registrations) monikers) :
    ∃ endpointName, (endpointName, e.1) ∈ registrations := by
  obtain ⟨moniker, -, hmoniker⟩ := List.mem_filterMap.mp h
  obtain ⟨endpoint, hendpoint, rfl⟩ := Option.map_eq_some_iff.mp hmoniker
  exact ⟨moniker.dataSource, mem_of_registerAll hendpoint⟩

theorem registered_writeCalls (registrations : List (Bytes × ε)) (monikers : List Moniker)
    (values : List V) :
    Registered registrations (writeCalls (found (registerAll registrations) monikers) values) := by
  intro call hcall
  rw [writeCalls, ← List.map_uncurry_zip_eq_zipWith] at hcall
  obtain ⟨⟨e, value⟩, hmem, rfl⟩ := List.mem_map.mp hcall
  exact exists_of_mem_found (List.of_mem_zip hmem).1

theorem registered_readCalls [Inhabited V] (registrations : List (Bytes × ε))
    (monikers : List Moniker) :
    Registered registrations
      (readCalls (V := V) (found (registerAll registrations) monikers)) := by
  intro call hcall
  obtain ⟨e, hmem, rfl⟩ := List.mem_map.mp hcall
  exact exists_of_mem_found hmem

theorem Registered.append {registrations : List (Bytes × ε)}
    {calls calls' : List (EndpointCall ε V)}
    (h : Registered registrations calls) (h' : Registered registrations calls') :
    Registered registrations (calls ++ calls') := by
  intro call hcall
  rcases List.mem_append.mp hcall with hcall | hcall
  · exact h call hcall
  · exact h' call hcall

/-! ### Results in bounds -/

/-- A handler has stayed in its memory, and has called registered endpoints only. One that waits
has done so too. -/
def InBounds (registrations : List (Bytes × ε)) :
    Except Stop (α × MonikerState σ ε V τ) → Prop
  | .ok (_, s) => Registered registrations s.calls
  | .error stop => stop ≠ .outOfBounds

/-- However many rounds its loop makes, the handler stays in bounds. In C++ leaving them is
undefined behaviour, and the model stops there. -/
def KeepsInBounds (registrations : List (Bytes × ε))
    (handler : ℕ → Exec (MonikerState σ ε V τ) α) (s : MonikerState σ ε V τ) : Prop :=
  ∀ rounds, InBounds registrations ((handler rounds).run s)

/-- Something that makes no call changes nothing. -/
theorem inBounds_bind_iff (registrations : List (Bytes × ε)) {x : Exec (MonikerState σ ε V τ) α}
    {f : α → Exec (MonikerState σ ε V τ) β}
    (hf : ∀ a t, ∃ b t', (f a).run t = .ok (b, t') ∧ t'.calls = t.calls)
    (s : MonikerState σ ε V τ) :
    InBounds registrations ((x >>= f).run s) ↔ InBounds registrations (x.run s) := by
  cases hx : x.run s with
  | error stop => rw [Exec.run_bind_error hx, InBounds, InBounds]
  | ok r =>
    obtain ⟨a, t⟩ := r
    obtain ⟨b, t', hrun, hcalls⟩ := hf a t
    rw [Exec.run_bind_ok hx, hrun, InBounds, InBounds, hcalls]

theorem inBounds_map_iff (registrations : List (Bytes × ε)) (x : Exec (MonikerState σ ε V τ) α)
    (f : α → β) (s : MonikerState σ ε V τ) :
    InBounds registrations ((f <$> x).run s) ↔ InBounds registrations (x.run s) := by
  rw [← bind_pure_comp]
  exact inBounds_bind_iff registrations (fun a t => ⟨f a, t, rfl, rfl⟩) s

/-! ### Requests that fit -/

/-- A request with these values can be handled: the names are registered, and there is a value
for each writer. -/
structure ValuesFit (endpoints : Endpoints ε) (readMonikers writeMonikers : List Moniker)
    (values : List V) : Prop where
  read : AllRegistered endpoints readMonikers
  write : AllRegistered endpoints writeMonikers
  enough : writeMonikers.length ≤ values.length

/-- Values that can be written and do not fit miss a read endpoint. -/
theorem ValuesFit.not_read {endpoints : Endpoints ε} {readMonikers writeMonikers : List Moniker}
    {values : List V} (h : ¬ ValuesFit endpoints readMonikers writeMonikers values)
    (hwrite : AllRegistered endpoints writeMonikers ∧ writeMonikers.length ≤ values.length) :
    ¬ AllRegistered endpoints readMonikers := by
  intro hread
  exact h ⟨hread, hwrite.1, hwrite.2⟩

theorem callable_resolve_iff {endpoints : Endpoints ε} {monikers : List Moniker} :
    Callable (resolve endpoints monikers) ↔ AllRegistered endpoints monikers :=
  List.forall_mem_map

variable (behave : ε → ℤ → V → σ → V × σ)

/-- Writing a request that fits calls the endpoints that were found. -/
theorem run_callIndexed_fit {endpoints : Endpoints ε} {monikers : List Moniker} {values : List V}
    (h : AllRegistered endpoints monikers ∧ monikers.length ≤ values.length)
    (s : MonikerState σ ε V τ) :
    ∃ values', (callIndexed behave (resolve endpoints monikers) 0 values).run s =
      .ok (values', s.called behave (writeCalls (found endpoints monikers) values)) := by
  rw [resolve_eq_pointers h.1]
  exact run_callIndexed_zero behave s ((length_found h.1).trans_le h.2)

/-- Writing a request that does not fit leaves the memory. -/
theorem run_callIndexed_unfit {endpoints : Endpoints ε} {monikers : List Moniker} {values : List V}
    (h : ¬ (AllRegistered endpoints monikers ∧ monikers.length ≤ values.length))
    (s : MonikerState σ ε V τ) :
    (callIndexed behave (resolve endpoints monikers) 0 values).run s = .error .outOfBounds := by
  refine run_callIndexed_outOfBounds behave ?_ (Nat.zero_le _) s
  rwa [callable_resolve_iff, resolve, List.length_map, Nat.zero_add]

theorem run_callAdding_unfit [Inhabited V] {endpoints : Endpoints ε} {monikers : List Moniker}
    (h : ¬ AllRegistered endpoints monikers) (values : List V) (s : MonikerState σ ε V τ) :
    (callAdding behave (resolve endpoints monikers) values).run s = .error .outOfBounds :=
  run_callAdding_outOfBounds behave (mt callable_resolve_iff.mp h) values s

variable {registrations : List (Bytes × ε)} {readMonikers writeMonikers : List Moniker}

/-! ### The sideband loop -/

section Sideband

variable {requestFormat : WireFormat ({} : SidebandWriteRequest V)}
  (responseFormat : WireFormat ({} : SidebandReadResponse V)) {s : MonikerState σ ε V Frames}

/-- The client-first branch has made calls in bounds, and `handled` are the requests that it will
handle. -/
def SidebandWaits (requestFormat : WireFormat ({} : SidebandWriteRequest V))
    (registrations : List (Bytes × ε)) (handled : List (SidebandWriteRequest V))
    (s : MonikerState σ ε V Frames) : Prop :=
  Registered registrations s.calls ∧
    ∃ (requests : List (SidebandWriteRequest V)) (outgoing : List Bytes),
      s.transport = ⟨requests.map requestFormat.serialize, outgoing⟩ ∧
        requests.takeWhile (fun request => !request.cancel) = handled

theorem SidebandWaits.cons {request : SidebandWriteRequest V}
    {handled : List (SidebandWriteRequest V)}
    (h : SidebandWaits requestFormat registrations (request :: handled) s) :
    request.cancel = false ∧ ∃ (requests : List (SidebandWriteRequest V)) (outgoing : List Bytes),
      s.transport = ⟨requestFormat.serialize request :: requests.map requestFormat.serialize,
        outgoing⟩ ∧ requests.takeWhile (fun request => !request.cancel) = handled := by
  obtain ⟨-, requests, outgoing, ht, hhandled⟩ := h
  rcases requests with - | ⟨first, requests⟩
  · cases hhandled
  · rw [List.takeWhile_cons] at hhandled
    rcases hfirst : first.cancel with - | -
    · rw [hfirst] at hhandled
      obtain ⟨rfl, rfl⟩ := List.cons.inj hhandled
      exact ⟨hfirst, requests, outgoing, ht, rfl⟩
    · rw [hfirst] at hhandled
      cases hhandled

/-- Without a read endpoint, the server-first branch sends no bytes and ends. -/
theorem run_sidebandServerFirst_idle (requestFormat : WireFormat ({} : SidebandWriteRequest V))
    (writers : EndpointList ε) (s : MonikerState σ ε V Frames) :
    ∃ transport, (sidebandServerFirst behave (Frames.channel requestFormat responseFormat) []
      writers ()).run s = .ok (none, ⟨s.shared, s.events ++ [.respond []], transport⟩) := by
  refine ⟨⟨s.transport.incoming, s.transport.outgoing ++ [responseFormat.serialize {}]⟩, ?_⟩
  have hsend : (writeSidebandResponse (Frames.channel requestFormat responseFormat) {}).run s =
      .ok (((responseFormat.serialize {}).length : ℤ), ⟨s.shared, s.events ++ [.respond []],
        ⟨s.transport.incoming, s.transport.outgoing ++ [responseFormat.serialize {}]⟩⟩) := rfl
  have hbuild : (sidebandServerFirstResponse behave []).run s = .ok ({}, s) := rfl
  have hzero : ((responseFormat.serialize {}).length : ℤ) = 0 :=
    congrArg (fun bytes => (List.length bytes : ℤ)) responseFormat.serialize_empty
  rw [sidebandServerFirst, Exec.run_bind_ok hbuild, Exec.run_bind_ok hsend, if_pos hzero]
  rfl

theorem loop_sidebandServerFirst_inBounds_iff
    (requestFormat : WireFormat ({} : SidebandWriteRequest V)) (endpoints : Endpoints ε)
    (writers : EndpointList ε) (hcalls : Registered registrations s.calls) :
    KeepsInBounds registrations (fun rounds => Exec.loop (sidebandServerFirst behave
      (Frames.channel requestFormat responseFormat) (resolve endpoints readMonikers) writers)
      rounds ()) s ↔ readMonikers = [] := by
  constructor
  · intro h
    by_contra hne
    have hreaders : resolve endpoints readMonikers ≠ [] := mt resolve_eq_nil_iff.mp hne
    have hone := h 1
    rw [Exec.loop_fails (run_sidebandServerFirst_outOfBounds behave hreaders _ writers s)] at hone
    exact hone rfl
  · rintro rfl rounds
    rcases rounds with - | rounds
    · exact hcalls
    · obtain ⟨transport, hround⟩ := run_sidebandServerFirst_idle behave responseFormat
        requestFormat writers s
      change InBounds registrations ((Exec.loop (sidebandServerFirst behave
        (Frames.channel requestFormat responseFormat) [] writers) (rounds + 1) ()).run s)
      rw [Exec.loop_ends hround, InBounds, MonikerState.calls, List.filterMap_append]
      exact hcalls.append (Registered.nil registrations)

variable [Inhabited V]

theorem run_sidebandClientFirst_unfit {request : SidebandWriteRequest V}
    {incoming outgoing : List Bytes} (hcancel : request.cancel = false)
    (hfit : ¬ ValuesFit (registerAll registrations) readMonikers writeMonikers request.values)
    (h : s.transport = ⟨requestFormat.serialize request :: incoming, outgoing⟩) :
    (sidebandClientFirst behave (Frames.channel requestFormat responseFormat)
      (resolve (registerAll registrations) readMonikers)
      (resolve (registerAll registrations) writeMonikers) ()).run s = .error .outOfBounds := by
  rw [sidebandClientFirst, Exec.run_bind_ok (run_read_frame _ responseFormat h)]
  dsimp only
  rw [hcancel, if_neg Bool.false_ne_true]
  by_cases hwrite : AllRegistered (registerAll registrations) writeMonikers ∧
      writeMonikers.length ≤ request.values.length
  · -- the values are written, so a read endpoint is missing: there is one to call
    have hread := ValuesFit.not_read hfit hwrite
    have hpos : (resolve (registerAll registrations) readMonikers).length > 0 := by
      rw [gt_iff_lt, List.length_pos_iff, Ne, resolve_eq_nil_iff]
      rintro rfl
      exact hread (allRegistered_nil _)
    obtain ⟨values', hrun⟩ := run_callIndexed_fit behave hwrite
      { s with transport := (⟨incoming, outgoing⟩ : Frames) }
    rw [Exec.run_bind_ok hrun, if_pos hpos, Exec.run_bind_error]
    rw [sidebandClientFirstResponse, Exec.run_bind_error (run_callAdding_unfit behave hread [] _)]
  · rw [Exec.run_bind_error (run_callIndexed_unfit behave hwrite _)]

theorem calls_after_requestEffect {τ : Type} (readers writers : List (ε × ℤ)) (values : List V)
    (s : MonikerState σ ε V τ) (transport : τ) :
    (s.after (requestEffect behave readers writers values s.shared) transport).calls =
      s.calls ++ (writeCalls writers values ++ readCalls readers) := by
  rcases eq_or_ne readers [] with rfl | hreaders
  · rw [MonikerState.calls, MonikerState.after, List.filterMap_append]
    refine congrArg (s.calls ++ ·) ((filterMap_call_callEvents _).trans ?_)
    exact (List.append_nil _).symm
  · rw [requestEffect_of_ne_nil behave hreaders, calls_after_streamEffect]

theorem loop_sidebandClientFirst_inBounds_iff {handled : List (SidebandWriteRequest V)}
    (h : SidebandWaits requestFormat registrations handled s) :
    (KeepsInBounds registrations (fun rounds => Exec.loop (sidebandClientFirst behave
      (Frames.channel requestFormat responseFormat)
      (resolve (registerAll registrations) readMonikers)
      (resolve (registerAll registrations) writeMonikers)) rounds ()) s) ↔
      ∀ request ∈ handled, ValuesFit (registerAll registrations) readMonikers writeMonikers
        request.values := by
  refine Exec.forall_loop_iff (fun handled _ => SidebandWaits requestFormat registrations handled)
    (fun request => ValuesFit (registerAll registrations) readMonikers writeMonikers request.values)
    (InBounds registrations) ?_ ?_ ?_ ?_ h
  · intro handled _ s h
    exact h.1
  · rintro - s ⟨hcalls, requests, outgoing, ht, hnone⟩ n
    rcases requests with - | ⟨request, requests⟩
    · -- the client sends nothing more
      have hblocked : (onTransport (Frames.channel requestFormat responseFormat).read).run s =
          .error .blocked := by
        refine Exec.run_zoom_error ?_
        rw [ht]
        rfl
      rw [Exec.loop_fails (Exec.run_bind_error hblocked)]
      exact Stop.noConfusion
    · have hcancel : request.cancel = true := by
        by_contra hgo
        rw [List.takeWhile_cons, Bool.eq_false_of_not_eq_true hgo] at hnone
        exact List.cons_ne_nil _ _ hnone
      rw [Exec.loop_ends (run_sidebandClientFirst_cancel behave requestFormat responseFormat hcancel
        ht _ _)]
      exact hcalls
  -- a request that fits is handled, and its calls are of registered endpoints
  · rintro request handled - s h hfit
    obtain ⟨hcancel, requests, outgoing, ht, hhandled⟩ := h.cons
    have hlength := (length_found hfit.write).trans_le hfit.enough
    have hround := run_sidebandClientFirst_request behave requestFormat responseFormat
      (found (registerAll registrations) readMonikers) hcancel hlength ht
    rw [resolve_eq_pointers hfit.read, resolve_eq_pointers hfit.write]
    refine ⟨(), _, hround, ?_, requests, _, rfl, hhandled⟩
    rw [calls_after_requestEffect]
    exact h.1.append ((registered_writeCalls _ _ _).append (registered_readCalls _ _))
  · rintro request handled - s h hfit
    obtain ⟨hcancel, requests, outgoing, ht, -⟩ := h.cons
    refine ⟨.outOfBounds, ?_, fun hin => hin rfl⟩
    exact run_sidebandClientFirst_unfit behave responseFormat hcancel hfit ht

/-- The requests of a sideband stream with which `RunSidebandReadWriteLoop` stays in bounds.
Requests behind the first cancel are not read. -/
def SidebandFits (endpoints : Endpoints ε) (monikers : MonikerList)
    (requests : List (SidebandWriteRequest V)) : Prop :=
  if monikers.isInitialWrite then
    ∀ request ∈ requests.takeWhile (fun request => !request.cancel),
      ValuesFit endpoints monikers.readMonikers monikers.writeMonikers request.values
  else monikers.readMonikers = []

/-- `RunSidebandReadWriteLoop` stays in bounds exactly on requests that fit. -/
theorem sideband_keepsInBounds_iff (requestFormat : WireFormat ({} : SidebandWriteRequest V))
    (registrations : List (Bytes × ε)) (monikers : MonikerList)
    (requests : List (SidebandWriteRequest V)) (shared : σ) :
    KeepsInBounds registrations (runSidebandReadWriteLoop behave
        (Frames.channel requestFormat responseFormat)
        (initiateMonikerList (registerAll registrations) monikers).1
        (initiateMonikerList (registerAll registrations) monikers).2 monikers.isInitialWrite)
        ⟨shared, [], ⟨requests.map requestFormat.serialize, []⟩⟩ ↔
      SidebandFits (registerAll registrations) monikers requests := by
  have hstart : Registered registrations
      (MonikerState.calls (⟨shared, [], ⟨requests.map requestFormat.serialize, []⟩⟩ :
        MonikerState σ ε V Frames)) := Registered.nil registrations
  -- closing the handle after the loop calls no endpoint
  have hclose (running : Option Unit) (t : MonikerState σ ε V Frames) :
      ∃ returned t', (if running.isSome then pure false else do
        modify fun s => { s with events := s.events ++ [.close] }
        pure true : Exec (MonikerState σ ε V Frames) Bool).run t = .ok (returned, t') ∧
          t'.calls = t.calls := by
    rcases running with - | -
    · refine ⟨true, { t with events := t.events ++ [.close] }, rfl, ?_⟩
      rw [MonikerState.calls, List.filterMap_append]
      exact List.append_nil _
    · exact ⟨false, t, rfl, rfl⟩
  rw [SidebandFits]
  by_cases hinitial : monikers.isInitialWrite = true
  · rw [if_pos hinitial, hinitial, ← loop_sidebandClientFirst_inBounds_iff behave responseFormat
      ⟨hstart, requests, [], rfl, rfl⟩]
    exact forall_congr' fun rounds => inBounds_bind_iff registrations hclose _
  · rw [if_neg hinitial, Bool.eq_false_of_not_eq_true hinitial,
      ← loop_sidebandServerFirst_inBounds_iff behave responseFormat requestFormat
        (registerAll registrations)
        (resolve (registerAll registrations) monikers.writeMonikers) hstart]
    exact forall_congr' fun rounds => inBounds_bind_iff registrations hclose _

end Sideband

/-! ### The gRPC streams -/

section Stream

variable {t : MonikerState σ ε V (GrpcStream V)} {incoming : List (MonikerWriteRequest V)}
  {uncancelled : ℕ}

private theorem exists_of_take_eq_cons {a : α} {as bs : List α} {n : ℕ}
    (h : as.take n = a :: bs) :
    ∃ as' n', as = a :: as' ∧ n = n' + 1 ∧ as'.take n' = bs := by
  rcases as with - | ⟨a', as⟩
  · cases List.take_nil.symm.trans h
  · rcases n with - | n
    · cases h
    · rw [List.take_succ_cons] at h
      obtain ⟨rfl, hrest⟩ := List.cons.inj h
      exact ⟨as, n, rfl, rfl, hrest⟩

/-- A loop of rounds that begin by reading stays in bounds exactly if it can handle every message up
to the cancelling. -/
theorem loop_reading_inBounds_iff
    (handle : MonikerWriteRequest V → Exec (MonikerState σ ε V (GrpcStream V)) (Option Unit))
    (P : MonikerWriteRequest V → Prop)
    (hfit : ∀ request t, P request → Registered registrations t.calls →
      ∃ t', (handle request).run t = .ok (some (), t') ∧ t'.transport = t.transport ∧
        Registered registrations t'.calls)
    (hunfit : ∀ request t, ¬ P request → (handle request).run t = .error .outOfBounds)
    (hcalls : Registered registrations t.calls) (h : t.transport = ⟨incoming, uncancelled⟩) :
    KeepsInBounds registrations (fun rounds => Exec.loop (fun _ => reading handle) rounds ()) t ↔
      ∀ request ∈ incoming.take uncancelled, P request := by
  refine Exec.forall_loop_iff (fun handled _ t => Registered registrations t.calls ∧
      ∃ incoming uncancelled, t.transport = ⟨incoming, uncancelled⟩ ∧
        incoming.take uncancelled = handled) P (InBounds registrations) ?_ ?_ ?_ ?_
    ⟨hcalls, incoming, uncancelled, h, rfl⟩
  · rintro handled - t ⟨hcalls, -⟩
    exact hcalls
  · rintro - t ⟨hcalls, incoming, uncancelled, h, hnone⟩ n
    obtain ⟨transport, hend⟩ := run_reading_ends handle h hnone
    rw [Exec.loop_ends hend]
    exact hcalls
  · rintro request handled - t ⟨hcalls, incoming, uncancelled, h, hhandled⟩ hP
    obtain ⟨incoming, uncancelled, rfl, rfl, hrest⟩ := exists_of_take_eq_cons hhandled
    obtain ⟨t', hrun, htransport, hcalls'⟩ := hfit request
      { t with transport := ⟨incoming, uncancelled⟩ } hP hcalls
    exact ⟨(), t', (run_reading handle h).trans hrun, hcalls', incoming, uncancelled, htransport,
      hrest⟩
  · rintro request handled - t ⟨-, incoming, uncancelled, h, hhandled⟩ hP
    obtain ⟨incoming, uncancelled, rfl, rfl, -⟩ := exists_of_take_eq_cons hhandled
    exact ⟨.outOfBounds, (run_reading handle h).trans (hunfit request _ hP), fun hin => hin rfl⟩

/-- What `StreamWrite` does with a message. -/
def handleWrite (writers : EndpointList ε) (writeRequest : MonikerWriteRequest V) :
    Exec (MonikerState σ ε V (GrpcStream V)) (Option Unit) := do
  let _ ← callIndexed behave writers 0 writeRequest.values
  return some ()

theorem streamWriteRound_eq (writers : EndpointList ε) :
    streamWriteRound behave writers = fun _ => reading (handleWrite behave writers) := rfl

theorem loop_streamWriteRound_inBounds_iff (hcalls : Registered registrations t.calls)
    (h : t.transport = ⟨incoming, uncancelled⟩) :
    KeepsInBounds registrations (fun rounds => Exec.loop (streamWriteRound behave
      (resolve (registerAll registrations) writeMonikers)) rounds ()) t ↔
      ∀ request ∈ incoming.take uncancelled, ValuesFit (registerAll registrations) []
        writeMonikers request.values := by
  simp only [streamWriteRound_eq]
  refine loop_reading_inBounds_iff _ _ ?_ ?_ hcalls h
  · intro request t hfit hcalls
    obtain ⟨values', hrun⟩ := run_callIndexed_fit behave ⟨hfit.write, hfit.enough⟩ t
    rw [handleWrite, Exec.run_bind_ok hrun]
    refine ⟨_, rfl, rfl, ?_⟩
    rw [calls_called]
    exact hcalls.append (registered_writeCalls _ _ _)
  · intro request t hfit
    have hwrite : ¬ (AllRegistered (registerAll registrations) writeMonikers ∧
        writeMonikers.length ≤ request.values.length) :=
      fun hwrite => ValuesFit.not_read hfit hwrite (allRegistered_nil _)
    rw [handleWrite, Exec.run_bind_error (run_callIndexed_unfit behave hwrite t)]

/-- The server-first branch takes the values of the first message, so it stays in bounds only if it
has nothing to do or does nothing. -/
theorem loop_streamServerFirst_inBounds_iff (endpoints : Endpoints ε)
    {request : MonikerWriteRequest V} (hcalls : Registered registrations t.calls)
    (h : t.transport = ⟨incoming, uncancelled⟩) :
    KeepsInBounds registrations (fun rounds => Exec.loop (streamServerFirst behave
      (resolve endpoints request.monikers.readMonikers)
      (resolve endpoints request.monikers.writeMonikers)) rounds request) t ↔
      uncancelled = 0 ∨
        (request.monikers.readMonikers = [] ∧ request.monikers.writeMonikers = []) := by
  constructor
  · intro h'
    by_contra hcondition
    rw [not_or, not_and] at hcondition
    obtain ⟨hpos, hidle⟩ := hcondition
    obtain ⟨uncancelled, rfl⟩ := Nat.exists_eq_succ_of_ne_zero hpos
    -- already the first round that is not cancelled leaves the message
    have hround : (streamServerFirst behave (resolve endpoints request.monikers.readMonikers)
        (resolve endpoints request.monikers.writeMonikers) request).run t =
          .error .outOfBounds := by
      by_cases hread : request.monikers.readMonikers = []
      · -- the request has monikers, hence no values
        have hvalues : request.values = [] := by
          have hwrite := hidle hread
          rcases request with ⟨- | monikers | values⟩
          · rfl
          · rfl
          · exact absurd rfl hwrite
        rw [hread]
        exact run_streamServerFirst_noValues behave
          (mt resolve_eq_nil_iff.mp (hidle hread)) hvalues h
      · exact run_streamServerFirst_outOfBounds behave (mt resolve_eq_nil_iff.mp hread) _ request h
    have hone := h' 1
    rw [Exec.loop_fails hround] at hone
    exact hone rfl
  · rintro (rfl | ⟨hread, hwrite⟩) rounds
    · obtain ⟨running, hloop⟩ := loop_streamServerFirst_cancelled behave
        (resolve endpoints request.monikers.readMonikers)
        (resolve endpoints request.monikers.writeMonikers) rounds request h
      rw [hloop]
      exact hcalls
    · obtain ⟨running, t', hloop, hcalls'⟩ := loop_streamServerFirst_idle behave rounds request h
      rw [hread, hwrite]
      change InBounds registrations
        ((Exec.loop (streamServerFirst behave [] []) rounds request).run t)
      rw [hloop, InBounds, hcalls']
      exact hcalls

/-- `StreamWrite` stays in bounds exactly on messages that fit. -/
theorem write_keepsInBounds_iff (registrations : List (Bytes × ε))
    (incoming : List (MonikerWriteRequest V)) (uncancelled : ℕ) (shared : σ) :
    KeepsInBounds registrations (streamWrite behave (registerAll registrations))
        ⟨shared, [], ⟨incoming, uncancelled⟩⟩ ↔
      ∀ request ∈ incoming.tail.take uncancelled, ValuesFit (registerAll registrations) []
        (incoming.head?.getD {}).monikers.writeMonikers request.values := by
  have hrun (rounds : ℕ) := run_streamWrite behave (registerAll registrations) rounds rfl
    (show (⟨shared, [], ⟨incoming, uncancelled⟩⟩ : MonikerState σ ε V _).transport = _ from rfl)
  rw [KeepsInBounds]
  simp only [hrun, inBounds_map_iff]
  exact loop_streamWriteRound_inBounds_iff behave (Registered.nil registrations) rfl

variable [Inhabited V]

theorem run_handleData_unfit {request : MonikerWriteRequest V}
    (hfit : ¬ ValuesFit (registerAll registrations) readMonikers writeMonikers request.values)
    (t : MonikerState σ ε V (GrpcStream V)) :
    (handleData behave (resolve (registerAll registrations) readMonikers)
      (resolve (registerAll registrations) writeMonikers) request).run t = .error .outOfBounds := by
  rw [handleData]
  by_cases hwrite : AllRegistered (registerAll registrations) writeMonikers ∧
      writeMonikers.length ≤ request.values.length
  · have hread := ValuesFit.not_read hfit hwrite
    obtain ⟨values', hrun⟩ := run_callIndexed_fit behave hwrite t
    rw [Exec.run_bind_ok hrun, Exec.run_bind_error]
    rw [streamClientFirstResponse, Exec.run_bind_error (run_callAdding_unfit behave hread [] _)]
  · rw [Exec.run_bind_error (run_callIndexed_unfit behave hwrite t)]

theorem loop_streamClientFirst_inBounds_iff (hcalls : Registered registrations t.calls)
    (h : t.transport = ⟨incoming, uncancelled⟩) :
    KeepsInBounds registrations (fun rounds => Exec.loop (streamClientFirst behave
      (resolve (registerAll registrations) readMonikers)
      (resolve (registerAll registrations) writeMonikers)) rounds ()) t ↔
      ∀ request ∈ incoming.take uncancelled, ValuesFit (registerAll registrations) readMonikers
        writeMonikers request.values := by
  refine loop_reading_inBounds_iff (handleData behave _ _) _ ?_
    (fun _ t hfit => run_handleData_unfit behave hfit t) hcalls h
  intro request t hfit hcalls
  have hlength := (length_found hfit.write).trans_le hfit.enough
  rw [resolve_eq_pointers hfit.read, resolve_eq_pointers hfit.write]
  refine ⟨_, run_handleData behave _ hlength t, rfl, ?_⟩
  rw [calls_after_streamEffect]
  exact hcalls.append ((registered_writeCalls _ _ _).append (registered_readCalls _ _))

/-- The messages of a gRPC stream, after the first one, with which `StreamReadWrite` stays in
bounds. Messages that come after the context was cancelled are not handled. -/
def StreamFits (endpoints : Endpoints ε) (monikers : MonikerList)
    (requests : List (MonikerWriteRequest V)) (uncancelled : ℕ) : Prop :=
  if monikers.isInitialWrite then
    ∀ request ∈ requests.take uncancelled,
      ValuesFit endpoints monikers.readMonikers monikers.writeMonikers request.values
  else uncancelled = 0 ∨ (monikers.readMonikers = [] ∧ monikers.writeMonikers = [])

/-- `StreamReadWrite` stays in bounds exactly on messages that fit. -/
theorem stream_keepsInBounds_iff (registrations : List (Bytes × ε))
    (incoming : List (MonikerWriteRequest V)) (uncancelled : ℕ) (shared : σ) :
    KeepsInBounds registrations (streamReadWrite behave (registerAll registrations))
        ⟨shared, [], ⟨incoming, uncancelled⟩⟩ ↔
      StreamFits (registerAll registrations) (incoming.head?.getD {}).monikers incoming.tail
        uncancelled := by
  have hstart (transport : GrpcStream V) : Registered registrations
      (MonikerState.calls (⟨shared, [], transport⟩ : MonikerState σ ε V (GrpcStream V))) :=
    Registered.nil registrations
  obtain ⟨request, hrequest⟩ : ∃ request, incoming.head?.getD {} = request := ⟨_, rfl⟩
  have hrun (rounds : ℕ) := run_streamReadWrite behave (registerAll registrations) rounds hrequest
    (show (⟨shared, [], ⟨incoming, uncancelled⟩⟩ : MonikerState σ ε V _).transport = _ from rfl)
  rw [StreamFits, hrequest, KeepsInBounds]
  simp only [hrun]
  by_cases hinitial : request.monikers.isInitialWrite = true
  · simp only [if_pos hinitial, inBounds_map_iff]
    exact loop_streamClientFirst_inBounds_iff behave (hstart _) rfl
  · simp only [if_neg hinitial, inBounds_map_iff]
    exact loop_streamServerFirst_inBounds_iff behave (registerAll registrations) (hstart _) rfl

end Stream

/-! ### The handlers together -/

/-- The handlers stay in bounds, for every moniker list and every sequence of requests, exactly
where the requests fit the list. A name that is not registered resolves to an endpoint that is
null, and a request with too few values is read behind its end; nothing checks either. -/
theorem inBounds_iff [Inhabited V] (requestFormat : WireFormat ({} : SidebandWriteRequest V))
    (responseFormat : WireFormat ({} : SidebandReadResponse V))
    (registrations : List (Bytes × ε)) (shared : σ) :
    (∀ (monikers : MonikerList) (requests : List (SidebandWriteRequest V)),
      KeepsInBounds registrations (runSidebandReadWriteLoop behave
          (Frames.channel requestFormat responseFormat)
          (initiateMonikerList (registerAll registrations) monikers).1
          (initiateMonikerList (registerAll registrations) monikers).2 monikers.isInitialWrite)
          ⟨shared, [], ⟨requests.map requestFormat.serialize, []⟩⟩ ↔
        SidebandFits (registerAll registrations) monikers requests) ∧
    (∀ (incoming : List (MonikerWriteRequest V)) (uncancelled : ℕ),
      KeepsInBounds registrations (streamReadWrite behave (registerAll registrations))
          ⟨shared, [], ⟨incoming, uncancelled⟩⟩ ↔
        StreamFits (registerAll registrations) (incoming.head?.getD {}).monikers incoming.tail
          uncancelled) ∧
    ∀ (incoming : List (MonikerWriteRequest V)) (uncancelled : ℕ),
      KeepsInBounds registrations (streamWrite behave (registerAll registrations))
          ⟨shared, [], ⟨incoming, uncancelled⟩⟩ ↔
        ∀ request ∈ incoming.tail.take uncancelled, ValuesFit (registerAll registrations) []
          (incoming.head?.getD {}).monikers.writeMonikers request.values :=
  ⟨fun monikers requests => sideband_keepsInBounds_iff behave responseFormat requestFormat
      registrations monikers requests shared,
    fun incoming uncancelled => stream_keepsInBounds_iff behave registrations incoming uncancelled
      shared,
    fun incoming uncancelled => write_keepsInBounds_iff behave registrations incoming uncancelled
      shared⟩

/-- A store, written to under a name that is not registered, and under its own name but without a
value. -/
theorem not_keepsInBounds_store :
    ¬ KeepsInBounds [([0x53], true), ([0x4C], false)] (runSidebandReadWriteLoop storeLoad
        (Frames.channel sidebandWriteRequestFormat sidebandReadResponseFormat)
        (initiateMonikerList storeEndpoints ⟨true, [], [⟨[0x58], 2⟩]⟩).1
        (initiateMonikerList storeEndpoints ⟨true, [], [⟨[0x58], 2⟩]⟩).2 true) storeStream ∧
      ¬ KeepsInBounds [([0x53], true), ([0x4C], false)] (streamWrite storeLoad storeEndpoints)
        ⟨{}, [], ⟨[⟨some (.monikers ⟨true, [], [⟨[0x53], 2⟩]⟩)⟩, ⟨none⟩], 1⟩⟩ := by
  constructor
  · intro h
    exact h 1 rfl
  · intro h
    exact h 1 rfl

end Safety

end Sideband
