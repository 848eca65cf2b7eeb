import Sideband.Moniker.Concurrent
import Sideband.Moniker.Safety

/-!
# The handlers alone

What each handler does when no other stream is served, on requests with a value for each writer: the
rounds of its loop, one after the other (`roundsEffect`).

* `handlesAlone`: the four handlers of `monikerThreads`.
* `streamReadWrite_halves`: a stream of both directions is a write stream and a read stream in turn.
* `runsAlone_of_reachable`: among any other streams a handler does what it does alone, as long as
  its part of the endpoints' state is its own.
-/

namespace Sideband

open Foundation

section Handlers

variable {σ ε V : Type} [Inhabited V] (behave : ε → ℤ → V → σ → V × σ)
  {readers writers : List (ε × ℤ)} {t : MonikerState σ ε V (GrpcStream V)}
  {requests : List (List V)} {uncancelled rounds : ℕ}

/-! ### A round -/

theorem rest_write_zero (values : List V) (shared : σ) :
    HandlerPhase.rest behave readers writers true (.write values 0) shared =
      streamEffect behave readers writers values shared := rfl

/-- A round without readers and without a response. -/
theorem rest_write_zero_nil (values : List V) (shared : σ) :
    HandlerPhase.rest behave [] writers false (.write values 0) shared =
      ⟨callEvents (writeCalls writers values), (callAll behave (writeCalls writers values)
        shared).2⟩ := by
  simp [HandlerPhase.rest, readCalls, callAll, callEvents]

/-- After one round come the others. -/
theorem MonikerState.after_roundsEffect_cons {τ : Type} (s : MonikerState σ ε V τ)
    (responds : Bool) (values : List V) (transport transport' : τ) :
    (s.after (HandlerPhase.rest behave readers writers responds (.write values 0) s.shared)
        transport).after (roundsEffect behave readers writers responds requests
          (HandlerPhase.rest behave readers writers responds (.write values 0) s.shared).shared)
        transport' =
      s.after (roundsEffect behave readers writers responds (values :: requests) s.shared)
        transport' := by
  simp only [MonikerState.after, roundsEffect, List.append_assoc]

theorem MonikerState.after_roundsEffect_nil {τ : Type} (s : MonikerState σ ε V τ) (responds : Bool)
    (transport : τ) :
    s.after (roundsEffect behave readers writers responds [] s.shared) transport =
      { s with transport } := by
  simp only [MonikerState.after, roundsEffect, List.append_nil]

/-! ### Loops that read -/

/-- A loop over requests each of which is handled as a round. -/
theorem run_loop_reading (responds : Bool)
    (handle : MonikerWriteRequest V → Exec (MonikerState σ ε V (GrpcStream V)) (Option Unit))
    (hround : ∀ values ∈ requests, ∀ t, (handle (.ofValues values)).run t = .ok (some (),
      t.after (HandlerPhase.rest behave readers writers responds (.write values 0) t.shared)
        t.transport))
    (huncancelled : requests.length ≤ uncancelled) (hrounds : requests.length < rounds)
    (h : t.transport = ⟨requests.map .ofValues, uncancelled⟩) :
    ∃ stream, (Exec.loop (fun _ => reading handle) rounds ()).run t = .ok (none,
      t.after (roundsEffect behave readers writers responds requests t.shared) stream) := by
  induction requests generalizing t uncancelled rounds with
  | nil =>
    obtain ⟨rounds, rfl⟩ := Nat.exists_eq_add_of_lt hrounds
    obtain ⟨stream, hend⟩ := run_reading_ends handle h List.take_nil
    refine ⟨stream, ?_⟩
    rw [Exec.loop_ends hend, MonikerState.after_roundsEffect_nil]
  | cons values requests ih =>
    obtain ⟨rounds, rfl⟩ := Nat.exists_eq_add_of_lt hrounds
    obtain ⟨uncancelled, rfl⟩ := Nat.exists_eq_add_of_lt huncancelled
    have hfirst := (run_reading handle h).trans (hround values List.mem_cons_self _)
    obtain ⟨stream, hloop⟩ := ih
      (t := t.after (HandlerPhase.rest behave readers writers responds (.write values 0) t.shared)
        ⟨requests.map .ofValues, requests.length + uncancelled⟩)
      (fun values' hmem => hround values' (List.mem_cons_of_mem values hmem))
      (Nat.le_add_right _ uncancelled)
      (show requests.length < requests.length + rounds + 1 by omega) rfl
    refine ⟨stream, ?_⟩
    rw [List.length_cons, Nat.add_right_comm _ 1, Exec.loop_goesOn hfirst]
    refine hloop.trans ?_
    rw [← MonikerState.after_roundsEffect_cons behave t responds values
      ⟨requests.map .ofValues, requests.length + uncancelled⟩ stream]
    rfl

/-- `StreamWrite` calls the writers on the values of a message. -/
theorem run_handleWrite {values : List V} (hvalues : writers.length ≤ values.length)
    (t : MonikerState σ ε V (GrpcStream V)) :
    (handleWrite behave (pointers writers) (.ofValues values)).run t = .ok (some (),
      t.after (HandlerPhase.rest behave [] writers false (.write values 0) t.shared)
        t.transport) := by
  obtain ⟨values', hwrite⟩ := run_callIndexed_zero behave t hvalues
  refine (Exec.run_bind_ok hwrite).trans ?_
  rw [rest_write_zero_nil]
  rfl

/-- `StreamRead` calls the readers until the context is cancelled. -/
theorem run_loop_streamRead (readers : List (ε × ℤ)) {incoming : List (MonikerWriteRequest V)}
    (hrounds : requests.length < rounds) (h : t.transport = ⟨incoming, requests.length⟩) :
    (Exec.loop (streamReadRound behave (pointers readers)) rounds ()).run t = .ok (none,
      t.after (roundsEffect behave readers [] true requests t.shared) ⟨incoming, 0⟩) := by
  induction requests generalizing t rounds with
  | nil =>
    obtain ⟨rounds, rfl⟩ := Nat.exists_eq_add_of_lt hrounds
    have hround : (streamReadRound behave (pointers readers) ()).run t = .ok (none, t) := by
      rw [streamReadRound, Exec.run_bind_ok (run_isCancelled_cancelled h)]
      rfl
    rw [Exec.loop_ends hround, MonikerState.after_roundsEffect_nil,
      ← show t.transport = ⟨incoming, 0⟩ from h]
  | cons values requests ih =>
    obtain ⟨rounds, rfl⟩ := Nat.exists_eq_add_of_lt hrounds
    obtain ⟨response, hrun, hvalues⟩ := (clientFirst_responds behave readers
      ({ t with transport := ⟨incoming, requests.length⟩ } :
        MonikerState σ ε V (GrpcStream V))).2.2
    have hround : (streamReadRound behave (pointers readers) ()).run t = .ok (some (),
        t.after (HandlerPhase.rest behave readers [] true (.write values 0) t.shared)
          ⟨incoming, requests.length⟩) := by
      rw [streamReadRound, Exec.run_bind_ok (run_isCancelled h), if_neg Bool.false_ne_true,
        Exec.run_bind_ok hrun, hvalues]
      have hnone : writeCalls ([] : List (ε × ℤ)) values = [] := rfl
      simp [rest_write_zero, streamEffect, hnone, callAll, callEvents, responded,
        MonikerState.after, MonikerState.called]
    rw [List.length_cons, Nat.add_right_comm _ 1, Exec.loop_goesOn hround, ih (by omega) rfl]
    exact congrArg (fun s => Except.ok (none, s))
      (MonikerState.after_roundsEffect_cons behave t true values _ _)

/-! ### A handler -/

/-- The handler, when it is the only one and its client sends requests with these values, has the
effect. A sideband client cancels in the end, a gRPC client ends its stream; for `StreamRead` the
context is cancelled after as many rounds. -/
def HandlesAlone (endpoints : Endpoints ε) (monikers : MonikerList)
    (requests : List (List V)) (initial : σ) (effect : Effect σ ε V) : MonikerHandler → Prop
  | .runSidebandReadWriteLoop => ∀ (requestFormat : WireFormat ({} : SidebandWriteRequest V))
      (responseFormat : WireFormat ({} : SidebandReadResponse V)) (rounds : ℕ),
    requests.length < rounds → ∃ frames,
      (runSidebandReadWriteLoop behave (Frames.channel requestFormat responseFormat)
        (initiateMonikerList endpoints monikers).1 (initiateMonikerList endpoints monikers).2
        monikers.isInitialWrite rounds).run ⟨initial, [], ⟨
          (requests.map SidebandWriteRequest.ofValues ++ [SidebandWriteRequest.cancelling]).map
            requestFormat.serialize, []⟩⟩ =
        .ok (true, ⟨effect.shared, effect.events ++ [.close], frames⟩)
  | .streamReadWrite => ∀ rounds, requests.length < rounds → ∃ stream,
    (streamReadWrite behave endpoints rounds).run
        (streamCall monikers requests requests.length initial) =
      .ok (true, ⟨effect.shared, effect.events, stream⟩)
  | .streamRead => ∀ rounds, requests.length < rounds → ∃ stream,
    (streamRead behave endpoints monikers rounds).run ⟨initial, [], ⟨[], requests.length⟩⟩ =
      .ok (true, ⟨effect.shared, effect.events, stream⟩)
  | .streamWrite => ∀ rounds, requests.length < rounds → ∃ stream,
    (streamWrite behave endpoints rounds).run
        (streamCall monikers requests requests.length initial) =
      .ok (true, ⟨effect.shared, effect.events, stream⟩)

variable {endpoints : Endpoints ε} {monikers : MonikerList} {initial : σ}

/-- `RunSidebandReadWriteLoop` on its own. -/
theorem runSidebandReadWriteLoop_alone
    (hreaders : resolve endpoints monikers.readMonikers = pointers readers)
    (hwriters : resolve endpoints monikers.writeMonikers = pointers writers)
    (hinitial : monikers.isInitialWrite = true)
    (hvalues : ∀ values ∈ requests, writers.length ≤ values.length) :
    HandlesAlone behave endpoints monikers requests initial
      (roundsEffect behave readers writers (!readers.isEmpty) requests initial)
      .runSidebandReadWriteLoop := by
  intro requestFormat responseFormat rounds hrounds
  have hrequests : ∀ r ∈ requests.map SidebandWriteRequest.ofValues, r.cancel = false ∧
      writers.length ≤ r.values.length := by
    intro r hr
    obtain ⟨values, hmem, rfl⟩ := List.mem_map.mp hr
    exact ⟨rfl, hvalues values hmem⟩
  obtain ⟨frames, hframes⟩ : ∃ frames, (requests.map SidebandWriteRequest.ofValues ++
      [SidebandWriteRequest.cancelling]).map requestFormat.serialize = frames := ⟨_, rfl⟩
  have htransport : (⟨initial, [], ⟨frames, []⟩⟩ : MonikerState σ ε V Frames).transport =
      ⟨(requests.map SidebandWriteRequest.ofValues ++ [SidebandWriteRequest.cancelling]).map
        requestFormat.serialize ++ [], []⟩ := by
    rw [hframes, List.append_nil]
  have hrun := run_sideband_clientFirst behave requestFormat responseFormat readers hrequests rfl
    (by rwa [List.length_map]) htransport
  rw [SidebandWriteRequest.map_values_ofValues] at hrun
  rw [roundsEffect_eq_requestsEffect, initiateMonikerList, hreaders, hwriters, hinitial, hframes]
  exact ⟨_, hrun⟩

/-- `StreamReadWrite` on its own. -/
theorem streamReadWrite_alone
    (hreaders : resolve endpoints monikers.readMonikers = pointers readers)
    (hwriters : resolve endpoints monikers.writeMonikers = pointers writers)
    (hinitial : monikers.isInitialWrite = true)
    (hvalues : ∀ values ∈ requests, writers.length ≤ values.length) :
    HandlesAlone behave endpoints monikers requests initial
      (roundsEffect behave readers writers true requests initial) .streamReadWrite := by
  intro rounds hrounds
  obtain ⟨stream, hloop⟩ := run_loop_reading behave true
    (handleData behave (pointers readers) (pointers writers))
    (t := ⟨initial, [], ⟨requests.map .ofValues, requests.length⟩⟩)
    (fun values hmem t => run_handleData behave readers (hvalues values hmem) t) le_rfl hrounds rfl
  refine ⟨stream, ?_⟩
  rw [run_streamReadWrite behave endpoints rounds rfl (show (streamCall monikers requests
    requests.length initial : MonikerState σ ε V _).transport =
      ⟨⟨some (.monikers monikers)⟩ :: requests.map .ofValues, requests.length⟩ from rfl),
    List.head?_cons, Option.getD_some,
    MonikerWriteRequest.monikers, if_pos hinitial, hreaders, hwriters]
  exact Exec.run_map_ok Option.isNone hloop

/-- `StreamRead` on its own. -/
theorem streamRead_alone
    (hreaders : resolve endpoints monikers.readMonikers = pointers readers) :
    HandlesAlone behave endpoints monikers requests initial
      (roundsEffect behave readers [] true requests initial) .streamRead := by
  intro rounds hrounds
  have hloop := run_loop_streamRead behave readers hrounds
    (t := ⟨initial, [], ⟨[], requests.length⟩⟩) rfl
  refine ⟨⟨[], 0⟩, ?_⟩
  rw [streamRead, initiateMonikerList, hreaders]
  exact Exec.run_map_ok Option.isNone hloop

/-- `StreamWrite` on its own. -/
theorem streamWrite_alone
    (hwriters : resolve endpoints monikers.writeMonikers = pointers writers)
    (hvalues : ∀ values ∈ requests, writers.length ≤ values.length) :
    HandlesAlone behave endpoints monikers requests initial
      (roundsEffect behave [] writers false requests initial) .streamWrite := by
  intro rounds hrounds
  obtain ⟨stream, hloop⟩ := run_loop_reading behave false (handleWrite behave (pointers writers))
    (t := ⟨initial, [], ⟨requests.map .ofValues, requests.length⟩⟩)
    (fun values hmem t => run_handleWrite behave (hvalues values hmem) t) le_rfl hrounds rfl
  refine ⟨stream, ?_⟩
  rw [run_streamWrite behave endpoints rounds rfl (show (streamCall monikers requests
    requests.length initial : MonikerState σ ε V _).transport =
      ⟨⟨some (.monikers monikers)⟩ :: requests.map .ofValues, requests.length⟩ from rfl),
    List.head?_cons, Option.getD_some,
    MonikerWriteRequest.monikers, hwriters]
  exact Exec.run_map_ok Option.isNone hloop

/-- Each handler does on its own what the rounds of its thread do. -/
theorem handlesAlone (handler : MonikerHandler)
    (hreaders : (HandlerThread.start handler monikers endpoints : HandlerThread ε V).readers =
      pointers readers)
    (hwriters : (HandlerThread.start handler monikers endpoints : HandlerThread ε V).writers =
      pointers writers)
    (hbranch : handler.clientFirst monikers)
    (hvalues : ∀ values ∈ requests, writers.length ≤ values.length) :
    HandlesAlone behave endpoints monikers requests initial (roundsEffect behave readers writers
      (handler.alwaysResponds || !readers.isEmpty) requests initial) handler := by
  cases handler with
  | runSidebandReadWriteLoop =>
    exact runSidebandReadWriteLoop_alone behave hreaders hwriters hbranch hvalues
  | streamReadWrite => exact streamReadWrite_alone behave hreaders hwriters hbranch hvalues
  | streamRead =>
    obtain rfl := pointers_eq_nil_iff.mp hwriters.symm
    exact streamRead_alone behave hreaders
  | streamWrite =>
    obtain rfl := pointers_eq_nil_iff.mp hreaders.symm
    exact streamWrite_alone behave hwriters hvalues

/-! ### The two halves of a stream -/

variable (endpoints monikers) in
/-- Each request is sent to `StreamWrite`, as its only one, and then one response is taken from
`StreamRead`. -/
inductive Halves : List (List V) → σ → Effect σ ε V → Prop
  | nil (initial : σ) : Halves [] initial ⟨[], initial⟩
  | cons {values : List V} {requests : List (List V)} {initial : σ}
      {written response rest : Effect σ ε V}
      (hwrite : HandlesAlone behave endpoints monikers [values] initial written .streamWrite)
      (hread : HandlesAlone behave endpoints monikers [[]] written.shared response .streamRead)
      (hrest : Halves requests response.shared rest) :
      Halves (values :: requests) initial
        ⟨written.events ++ response.events ++ rest.events, rest.shared⟩

theorem roundsEffect_singleton (responds : Bool) (values : List V) (shared : σ) :
    roundsEffect behave readers writers responds [values] shared =
      HandlerPhase.rest behave readers writers responds (.write values 0) shared := by
  simp [roundsEffect]

/-- A round calls the writers, and then it calls the readers and responds. -/
theorem rest_write_halves (values : List V) (shared : σ) :
    HandlerPhase.rest behave readers writers true (.write values 0) shared =
      let written := HandlerPhase.rest behave [] writers false (.write values 0) shared
      let response := HandlerPhase.rest behave readers [] true (.write [] 0) written.shared
      ⟨written.events ++ response.events, response.shared⟩ := by
  have hnone : writeCalls ([] : List (ε × ℤ)) ([] : List V) = [] := rfl
  simp [rest_write_zero, rest_write_zero_nil, streamEffect, hnone, callAll, callEvents]

/-- The halves of the rounds of a stream. -/
theorem halves_roundsEffect
    (hreaders : resolve endpoints monikers.readMonikers = pointers readers)
    (hwriters : resolve endpoints monikers.writeMonikers = pointers writers)
    (hvalues : ∀ values ∈ requests, writers.length ≤ values.length) (initial : σ) :
    Halves behave endpoints monikers requests initial
      (roundsEffect behave readers writers true requests initial) := by
  induction requests generalizing initial with
  | nil => exact .nil initial
  | cons values requests ih =>
    have hone : ∀ v ∈ [values], writers.length ≤ v.length := by
      intro v hv
      rw [List.mem_singleton.mp hv]
      exact hvalues values List.mem_cons_self
    have hwritten : HandlesAlone behave endpoints monikers [values] initial _ .streamWrite :=
      streamWrite_alone behave hwriters hone
    rw [roundsEffect_singleton] at hwritten
    have hresponse : HandlesAlone behave endpoints monikers [[]]
        (HandlerPhase.rest behave [] writers false (.write values 0) initial).shared _
        .streamRead := streamRead_alone behave hreaders
    rw [roundsEffect_singleton] at hresponse
    have hrest := ih (fun v hv => hvalues v (List.mem_cons_of_mem values hv))
      (HandlerPhase.rest behave readers writers true (.write values 0) initial).shared
    rw [roundsEffect]
    rw [rest_write_halves] at hrest ⊢
    exact .cons hwritten hresponse hrest

/-- **`StreamReadWrite` is `StreamWrite` and `StreamRead` in turn**, a message and a response at
a time: the same calls in the same order, the same responses and the same state of the endpoints,
when all monikers are registered. -/
theorem streamReadWrite_halves (hread : AllRegistered endpoints monikers.readMonikers)
    (hwrite : AllRegistered endpoints monikers.writeMonikers)
    (hinitial : monikers.isInitialWrite = true)
    (hvalues : ∀ values ∈ requests, monikers.writeMonikers.length ≤ values.length)
    (initial : σ) :
    ∃ effect, HandlesAlone behave endpoints monikers requests initial effect .streamReadWrite ∧
      Halves behave endpoints monikers requests initial effect := by
  have hreaders := resolve_eq_pointers hread
  have hwriters := resolve_eq_pointers hwrite
  rw [← length_found hwrite] at hvalues
  exact ⟨_, streamReadWrite_alone behave hreaders hwriters hinitial hvalues,
    halves_roundsEffect behave hreaders hwriters hvalues initial⟩

/-- Two values are stored in one stream, or in two streams by turns. -/
theorem streamReadWrite_halves_store : ∃ effect : Effect Any Bool Any,
    HandlesAlone storeLoad storeEndpoints { storeMonikers with isInitialWrite := true }
      storeRequests {} effect .streamReadWrite ∧
    Halves storeLoad storeEndpoints { storeMonikers with isInitialWrite := true } storeRequests {}
      effect :=
  streamReadWrite_halves storeLoad (by decide) (by decide) rfl (by decide) {}

/-! ### Every interleaving -/

section Threads

variable {behave} {ι : Type} [DecidableEq ι] {τ : Type} {own : ε × ℤ → Prop} {i : ι}
  {s : MonikerThreads ι σ ε V} {thread : HandlerThread ε V}

/-- The thread does what its handler does alone, on the part of the endpoints' state that is its
own: at any time the first of the calls and responses, and between two rounds all of them. -/
structure RunsAlone (view : EndpointView behave own τ) (i : ι) (initial : σ)
    (s : MonikerThreads ι σ ε V) (thread : HandlerThread ε V) : Prop where
  /-- Its calls and responses are the first of those of the handler, on the endpoints that its names
  have. Between two rounds they are all of them, and the view is as the handler leaves it. -/
  alone : ∃ effect, HandlesAlone view.behaveOn s.endpoints thread.monikers thread.requests
    (view.view initial) effect thread.handler ∧ thread.events <+: effect.events ∧
      (thread.phase = .next ∨ thread.phase = .returned →
        effect = ⟨thread.events, view.view s.shared⟩)
  /-- It waits for nothing but its client. -/
  goesOn : thread.phase ≠ .returned → ∃ a ∈ [MonikerThreadsStep.next i none, .call i, .goOn i,
    .respond i true], ((monikerThreads behave initial).next s a).isSome

/-- **A stream whose part of the endpoints' state is its own runs as if it were alone**, in every
interleaving with other streams and with registrations. The streams write first, their monikers
are registered when they begin, and their requests have the values that the writers take. -/
theorem runsAlone_of_reachable (view : EndpointView behave own τ)
    (h : (monikerThreads behave initial).Reachable (KeepsOwn own i) s)
    (hthread : s.thread i = some thread) (hreaders : thread.readers = pointers readers)
    (hwriters : thread.writers = pointers writers)
    (hvalues : ∀ values ∈ thread.requests, writers.length ≤ values.length) :
    RunsAlone view i initial s thread := by
  have hfollows := (keepsApart_of_reachable view h).follows thread readers writers hthread hreaders
    hwriters
  have hbegan := began_of_reachable h hthread
  have hstart := (hbegan.readers (hreaders ▸ callable_pointers readers)).trans hreaders
  have hstart' := (hbegan.writers (hwriters ▸ callable_pointers writers)).trans hwriters
  have halone : HandlesAlone view.behaveOn s.endpoints thread.monikers thread.requests
      (view.view initial) _ thread.handler :=
    handlesAlone view.behaveOn thread.handler hstart hstart' hbegan.clientFirst hvalues
  have hresponds : thread.responds = (thread.handler.alwaysResponds || !readers.isEmpty) := by
    rw [HandlerThread.responds, hreaders, pointers, List.isEmpty_map]
  rw [← hresponds] at halone
  refine ⟨⟨_, halone, ⟨_, hfollows.events⟩, fun hphase => ?_⟩,
    hfollows.goesOn hthread hreaders hwriters hvalues⟩
  have hevents := hfollows.events
  have hshared := hfollows.shared
  rcases hphase with hphase | hphase
  · rw [hphase] at hevents hshared
    exact (congrArg₂ Effect.mk ((List.append_nil _).symm.trans hevents) hshared).symm
  · rw [hphase] at hevents hshared
    exact (congrArg₂ Effect.mk ((List.append_nil _).symm.trans hevents) hshared).symm

end Threads

end Handlers

/-! ### Two cells -/

section Cells

/-- A store for each of two instances. -/
def storeCells (store : Bool) (cell : ℤ) (value : Any) (cells : Any × Any) : Any × (Any × Any) :=
  if cell = 1 then
    ((storeLoad store cell value cells.1).1, (storeLoad store cell value cells.1).2, cells.2)
  else ((storeLoad store cell value cells.2).1, cells.1, (storeLoad store cell value cells.2).2)

/-- The first one. -/
def firstCell : EndpointView storeCells (fun e => e.2 = 1) Any where
  view := Prod.fst
  behaveOn := storeLoad
  own_eq e value cells h := by
    rw [storeCells, if_pos h]
  other_eq e value cells h := by
    rw [storeCells, if_neg h]

/-- Only the stream `false` uses the first cell. -/
def keepsFirstCell (s : MonikerThreads Bool (Any × Any) Bool Any) :
    MonikerThreadsStep Bool Bool Any → Bool
  | .begin j handler monikers =>
    let thread : HandlerThread Bool Any := .start handler monikers s.endpoints
    (thread.readers ++ thread.writers).all fun e => decide (e.2 = 1 ↔ j = false)
  | _ => true

theorem keepsOwn_of_keepsFirstCell {s : MonikerThreads Bool (Any × Any) Bool Any}
    {a : MonikerThreadsStep Bool Bool Any} (h : keepsFirstCell s a = true) :
    KeepsOwn (fun e => e.2 = 1) false s a := by
  cases a with
  | begin j handler monikers =>
    intro e he
    exact of_decide_eq_true (List.all_eq_true.mp h _ he)
  | _ => trivial

/-- A sideband stream stores a value in the first cell and reads it, while a gRPC stream writes
to the second one. -/
theorem runsAlone_of_reachable_cells : ∃ (s : MonikerThreads Bool (Any × Any) Bool Any)
    (thread : HandlerThread Bool Any), s.thread false = some thread ∧ thread.phase = .next ∧
      thread.events = [.call true 1 { value := [7] }, .call false 1 {},
        .respond [{ value := [7] }]] ∧ RunsAlone firstCell false ({}, {}) s thread := by
  have hexec : ((monikerThreads storeCells ({}, {})).execWhile keepsFirstCell
      ⟨storeEndpoints, ({}, {}), fun _ => none⟩
      [.begin false .runSidebandReadWriteLoop ⟨true, [⟨[0x4C], 1⟩], [⟨[0x53], 1⟩]⟩,
        .begin true .streamWrite ⟨false, [], [⟨[0x53], 2⟩]⟩, .next false (some [{ value := [7] }]),
        .next true (some [{ value := [8] }]), .call false, .register [0x4C] true, .call true,
        .goOn false, .goOn true, .goOn true, .call false, .next true (some [{ value := [9] }]),
        .goOn false, .call true, .respond false true]).bind (fun s => (s.thread false).map
          fun thread => (thread.readers, thread.writers, thread.requests, thread.phase,
            thread.events)) = some (pointers [(false, 1)], pointers [(true, 1)],
              [[{ value := [7] }]], .next, [.call true 1 { value := [7] }, .call false 1 {},
                .respond [{ value := [7] }]]) := rfl
  obtain ⟨s, hs, hmap⟩ := Option.bind_eq_some_iff.mp hexec
  obtain ⟨thread, hthread, hrecords⟩ := Option.map_eq_some_iff.mp hmap
  simp only [Prod.mk.injEq] at hrecords
  obtain ⟨hreaders, hwriters, hrequests, hphase, hevents⟩ := hrecords
  have hreachable := Machine.Reachable.execWhile
    (fun _ _ _ h => keepsOwn_of_keepsFirstCell h) (.init (by exact ⟨rfl, rfl⟩)) hs
  refine ⟨s, thread, hthread, hphase, hevents, runsAlone_of_reachable firstCell hreachable hthread
    hreaders hwriters ?_⟩
  rw [hrequests]
  decide

end Cells

end Sideband
