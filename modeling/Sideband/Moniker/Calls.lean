import Sideband.Moniker.Service

/-!
# Runs of the endpoint loops

What a handler does to its endpoints, without indices and pointers: `callAll` calls endpoints one
after the other, and `MonikerState.called` is the state afterwards. On endpoints that are there, and
with a value for each, the two loops of the service are `callAll` (`run_callIndexed`,
`run_callAdding`); otherwise they leave their memory (`run_callIndexed_outOfBounds`,
`run_callAdding_outOfBounds`).
-/

namespace Sideband

open Foundation

/-! ### Calls one after the other -/

/-- A call of an endpoint: the endpoint, the instance and the value. The value that the endpoint
leaves is not part of it. -/
abbrev EndpointCall (ε V : Type) := ε × ℤ × V

section Calls

variable {σ ε V τ α : Type} (behave : ε → ℤ → V → σ → V × σ)

/-- The values that calls leave, and the state they leave behind. Each call finds what the one
before has left. -/
def callAll : List (EndpointCall ε V) → σ → List V × σ
  | [], shared => ([], shared)
  | (endpoint, dataInstance, value) :: calls, shared =>
    let (left, shared) := behave endpoint dataInstance value shared
    let (rest, shared) := callAll calls shared
    (left :: rest, shared)

/-- The calls in the record. -/
def callEvents (calls : List (EndpointCall ε V)) : List (MonikerEvent ε V) :=
  calls.map fun call => .call call.1 call.2.1 call.2.2

/-- The state after calls. -/
def MonikerState.called (s : MonikerState σ ε V τ) (calls : List (EndpointCall ε V)) :
    MonikerState σ ε V τ :=
  { s with shared := (callAll behave calls s.shared).2, events := s.events ++ callEvents calls }

theorem MonikerState.called_nil (s : MonikerState σ ε V τ) : s.called behave [] = s := by
  simp [called, callAll, callEvents]

theorem MonikerState.called_cons (s : MonikerState σ ε V τ) (call : EndpointCall ε V)
    (calls : List (EndpointCall ε V)) :
    s.called behave (call :: calls) = (s.called behave [call]).called behave calls := by
  simp [called, callAll, callEvents, List.append_assoc]

/-- Endpoints that were found, as pointers. None of them is null. -/
def pointers (found : List (ε × ℤ)) : EndpointList ε := found.map fun e => (some e.1, e.2)

@[simp]
theorem pointers_eq_nil_iff {found : List (ε × ℤ)} : pointers found = [] ↔ found = [] :=
  List.map_eq_nil_iff

/-- Each writer gets the value with its index. Values beyond the writers are ignored. -/
def writeCalls (writers : List (ε × ℤ)) (values : List V) : List (EndpointCall ε V) :=
  List.zipWith (fun e value => (e.1, e.2, value)) writers values

theorem writeCalls_cons (e : ε × ℤ) (writers : List (ε × ℤ)) (value : V) (values : List V) :
    writeCalls (e :: writers) (value :: values) = (e.1, e.2, value) :: writeCalls writers values :=
  rfl

/-- Each reader gets a new value, which it may fill in. -/
def readCalls [Inhabited V] (readers : List (ε × ℤ)) : List (EndpointCall ε V) :=
  readers.map fun e => (e.1, e.2, default)

/-! ### The loops -/

theorem run_callEndpoint (endpoint : ε) (dataInstance : ℤ) (value : V)
    (s : MonikerState σ ε V τ) :
    (callEndpoint behave (some endpoint, dataInstance) value).run s =
      .ok ((behave endpoint dataInstance value s.shared).1,
        s.called behave [(endpoint, dataInstance, value)]) := rfl

theorem run_callEndpoint_null (dataInstance : ℤ) (value : V) (s : MonikerState σ ε V τ) :
    (callEndpoint behave (none, dataInstance) value).run s = .error .outOfBounds := rfl

/-- With a value for each endpoint from index `x` on, the values are handed out in order. -/
theorem run_callIndexed {endpoints : List (ε × ℤ)} {x : ℕ} {values : List V}
    (s : MonikerState σ ε V τ) (h : x + endpoints.length ≤ values.length) :
    ∃ values', (callIndexed behave (pointers endpoints) x values).run s =
      .ok (values', s.called behave (writeCalls endpoints (values.drop x))) := by
  induction endpoints generalizing x values s with
  | nil =>
    refine ⟨values, ?_⟩
    rw [writeCalls, List.zipWith_nil_left, MonikerState.called_nil]
    rfl
  | cons e endpoints ih =>
    rw [List.length_cons] at h
    have hx : x < values.length := by omega
    have hrest (left : V) : (values.set x left).drop (x + 1) = values.drop (x + 1) :=
      List.drop_set_of_lt (Nat.lt_succ_self x)
    have hle : x + 1 + endpoints.length ≤
        (values.set x (behave e.1 e.2 values[x] s.shared).1).length := by
      rw [List.length_set]
      omega
    obtain ⟨values', hrun⟩ := ih (s.called behave [(e.1, e.2, values[x])]) hle
    refine ⟨values', ?_⟩
    change (callIndexed behave ((some e.1, e.2) :: pointers endpoints) x values).run s = _
    rw [callIndexed, List.getElem?_eq_getElem hx, Exec.run_bind_ok (Exec.run_checked_some _ s),
      Exec.run_bind_ok (run_callEndpoint behave _ _ _ s), hrun, hrest, List.drop_eq_getElem_cons hx,
      writeCalls_cons]
    exact congrArg (fun t => Except.ok (values', t)) (s.called_cons behave _ _).symm

/-- From the first value on, the values are handed out as they are. -/
theorem run_callIndexed_zero {endpoints : List (ε × ℤ)} {values : List V}
    (s : MonikerState σ ε V τ) (h : endpoints.length ≤ values.length) :
    ∃ values', (callIndexed behave (pointers endpoints) 0 values).run s =
      .ok (values', s.called behave (writeCalls endpoints values)) :=
  run_callIndexed behave s ((Nat.zero_add _).trans_le h)

/-- The values that were added are the ones that the endpoints left. -/
theorem run_callAdding [Inhabited V] (endpoints : List (ε × ℤ)) (values : List V)
    (s : MonikerState σ ε V τ) :
    (callAdding behave (pointers endpoints) values).run s =
      .ok (values ++ (callAll behave (readCalls endpoints) s.shared).1,
        s.called behave (readCalls endpoints)) := by
  induction endpoints generalizing values s with
  | nil =>
    change Except.ok (values, s) = Except.ok (values ++ [], s.called behave [])
    rw [List.append_nil, MonikerState.called_nil]
  | cons e endpoints ih =>
    change (callAdding behave ((some e.1, e.2) :: pointers endpoints) values).run s = _
    rw [callAdding, Exec.run_bind_ok (run_callEndpoint behave _ _ _ s), ih, List.append_assoc]
    refine congrArg Except.ok (Prod.ext rfl ?_)
    exact (s.called_cons behave _ _).symm

/-! ### Loops that leave their memory -/

/-- No pointer of the list is null, so every call of it is one of an endpoint. -/
def Callable (endpoints : EndpointList ε) : Prop := ∀ e ∈ endpoints, e.1.isSome

theorem callable_nil : Callable ([] : EndpointList ε) := by
  rintro e ⟨⟩

theorem callable_some_cons {endpoint : ε} {dataInstance : ℤ} {endpoints : EndpointList ε} :
    Callable ((some endpoint, dataInstance) :: endpoints) ↔ Callable endpoints :=
  List.forall_mem_cons.trans (and_iff_right rfl)

/-- A null pointer or a missing value stops the loop, however far it gets. -/
theorem run_callIndexed_outOfBounds {endpoints : EndpointList ε} {x : ℕ} {values : List V}
    (h : ¬ (Callable endpoints ∧ x + endpoints.length ≤ values.length))
    (hx : x ≤ values.length) (s : MonikerState σ ε V τ) :
    (callIndexed behave endpoints x values).run s = .error .outOfBounds := by
  induction endpoints generalizing x values s with
  | nil => exact absurd ⟨callable_nil, hx⟩ h
  | cons e endpoints ih =>
    rw [callIndexed]
    by_cases hvalue : x < values.length
    · rw [List.getElem?_eq_getElem hvalue, Exec.run_bind_ok (Exec.run_checked_some _ s)]
      obtain ⟨pointer, dataInstance⟩ := e
      rcases pointer with - | endpoint
      · rw [Exec.run_bind_error (run_callEndpoint_null behave _ _ s)]
      · rw [Exec.run_bind_ok (run_callEndpoint behave _ _ _ s)]
        refine ih ?_ ?_ _
        · rintro ⟨hcallable, hle⟩
          rw [List.length_set] at hle
          refine h ⟨callable_some_cons.mpr hcallable, ?_⟩
          rw [List.length_cons]
          omega
        · rw [List.length_set]
          omega
    · rw [List.getElem?_eq_none (by omega), Exec.run_bind_error (Exec.run_checked_none s)]

theorem run_callAdding_outOfBounds [Inhabited V] {endpoints : EndpointList ε}
    (h : ¬ Callable endpoints) (values : List V) (s : MonikerState σ ε V τ) :
    (callAdding behave endpoints values).run s = .error .outOfBounds := by
  induction endpoints generalizing values s with
  | nil => exact absurd callable_nil h
  | cons e endpoints ih =>
    rw [callAdding]
    obtain ⟨pointer, dataInstance⟩ := e
    rcases pointer with - | endpoint
    · rw [Exec.run_bind_error (run_callEndpoint_null behave _ _ s)]
    · rw [Exec.run_bind_ok (run_callEndpoint behave _ _ _ s)]
      exact ih (mt callable_some_cons.mpr h) _ _

/-! ### The gRPC stream -/

variable {t : MonikerState σ ε V (GrpcStream V)} {incoming : List (MonikerWriteRequest V)}
  {uncancelled : ℕ}

theorem run_stream_read {request : MonikerWriteRequest V}
    (h : t.transport = ⟨request :: incoming, uncancelled⟩) :
    (onTransport GrpcStream.read).run t =
      .ok (some request, { t with transport := ⟨incoming, uncancelled⟩ }) := by
  refine Exec.run_zoom_ok ?_
  rw [h]
  rfl

theorem run_stream_read_end (h : t.transport = ⟨[], uncancelled⟩) :
    (onTransport GrpcStream.read).run t = .ok (none, t) := by
  have hread : GrpcStream.read.run t.transport = .ok (none, t.transport) := by
    rw [h]
    rfl
  exact Exec.run_zoom_ok hread

theorem run_isCancelled (h : t.transport = ⟨incoming, uncancelled + 1⟩) :
    (onTransport GrpcStream.isCancelled).run t =
      .ok (false, { t with transport := ⟨incoming, uncancelled⟩ }) := by
  refine Exec.run_zoom_ok ?_
  rw [h]
  rfl

theorem run_isCancelled_cancelled (h : t.transport = ⟨incoming, 0⟩) :
    (onTransport GrpcStream.isCancelled).run t = .ok (true, t) := by
  have hcancelled : GrpcStream.isCancelled.run t.transport = .ok (true, t.transport) := by
    rw [h]
    rfl
  exact Exec.run_zoom_ok hcancelled

/-- A round that reads a message and looks at the context before it handles the message. -/
def reading
    (handle : MonikerWriteRequest V → Exec (MonikerState σ ε V (GrpcStream V)) (Option Unit)) :
    Exec (MonikerState σ ε V (GrpcStream V)) (Option Unit) := do
  match ← onTransport GrpcStream.read with
  | none => return none
  | some writeRequest =>
    if ← onTransport GrpcStream.isCancelled then return none
    else handle writeRequest

section Reading

variable (handle : MonikerWriteRequest V → Exec (MonikerState σ ε V (GrpcStream V)) (Option Unit))

theorem run_reading {request : MonikerWriteRequest V}
    (h : t.transport = ⟨request :: incoming, uncancelled + 1⟩) :
    (reading handle).run t =
      (handle request).run { t with transport := ⟨incoming, uncancelled⟩ } := by
  rw [reading, Exec.run_bind_ok (run_stream_read h)]
  dsimp only
  rw [Exec.run_bind_ok (run_isCancelled rfl), if_neg Bool.false_ne_true]

/-- The end of the stream and a cancelled context end the round; a message that was read before the
context was found cancelled is not handled. -/
theorem run_reading_ends (h : t.transport = ⟨incoming, uncancelled⟩)
    (hnone : incoming.take uncancelled = []) :
    ∃ transport, (reading handle).run t = .ok (none, { t with transport }) := by
  rcases incoming with - | ⟨request, incoming⟩
  · refine ⟨t.transport, ?_⟩
    rw [reading, Exec.run_bind_ok (run_stream_read_end h)]
    rfl
  · rcases uncancelled with - | uncancelled
    · refine ⟨⟨incoming, 0⟩, ?_⟩
      rw [reading, Exec.run_bind_ok (run_stream_read h)]
      dsimp only
      rw [Exec.run_bind_ok (run_isCancelled_cancelled rfl), if_pos rfl]
      rfl
    · cases hnone

end Reading

/-- `stream->Read`, whether or not there is a message. -/
theorem run_stream_read_head (h : t.transport = ⟨incoming, uncancelled⟩) :
    (onTransport GrpcStream.read).run t =
      .ok (incoming.head?, { t with transport := ⟨incoming.tail, uncancelled⟩ }) := by
  rcases incoming with - | ⟨request, incoming⟩
  · rw [run_stream_read_end h]
    exact congrArg (fun stream => Except.ok (none, { t with transport := stream })) h
  · exact run_stream_read h

/-- `StreamReadWrite` takes the endpoints and the branch from the first message, if there is one. -/
theorem run_streamReadWrite [Inhabited V] (endpoints : Endpoints ε) (rounds : ℕ)
    {request : MonikerWriteRequest V} (hrequest : incoming.head?.getD {} = request)
    (h : t.transport = ⟨incoming, uncancelled⟩) :
    (streamReadWrite behave endpoints rounds).run t =
      (if request.monikers.isInitialWrite then
        Option.isNone <$> Exec.loop (streamClientFirst behave
          (resolve endpoints request.monikers.readMonikers)
          (resolve endpoints request.monikers.writeMonikers)) rounds ()
      else
        Option.isNone <$> Exec.loop (streamServerFirst behave
          (resolve endpoints request.monikers.readMonikers)
          (resolve endpoints request.monikers.writeMonikers)) rounds request).run
        { t with transport := ⟨incoming.tail, uncancelled⟩ } := by
  rw [streamReadWrite, Exec.run_bind_ok (run_stream_read_head h), ← hrequest]
  rfl

/-- `StreamWrite` takes the endpoints from the first message, if there is one. -/
theorem run_streamWrite (endpoints : Endpoints ε) (rounds : ℕ)
    {request : MonikerWriteRequest V} (hrequest : incoming.head?.getD {} = request)
    (h : t.transport = ⟨incoming, uncancelled⟩) :
    (streamWrite behave endpoints rounds).run t =
      (Option.isNone <$> Exec.loop (streamWriteRound behave
        (resolve endpoints request.monikers.writeMonikers)) rounds ()).run
        { t with transport := ⟨incoming.tail, uncancelled⟩ } := by
  rw [streamWrite, Exec.run_bind_ok (run_stream_read_head h), ← hrequest]
  rfl

end Calls

end Sideband
