import Sideband.Moniker.Responses

/-!
# Data messages on a gRPC stream

What `StreamReadWrite` makes of the data messages that a client streams behind its moniker list,
when nothing is read. `AppliesOnce` says that the write endpoints are called on the values of the
first messages, in order and once each, and on nothing else, however far the handler gets: on one
message an iteration, for as long as the client has sent one and the context is not cancelled.

The client-first branch does that (`loop_streamClientFirst_applies`). The server-first branch never
reads a second message: it takes its values from the moniker list, which has none.
-/

namespace Sideband

open Foundation

section Streams

variable {σ ε V : Type} (behave : ε → ℤ → V → σ → V × σ)

/-- A call in the record. -/
def MonikerEvent.call? : MonikerEvent ε V → Option (EndpointCall ε V)
  | .call endpoint dataInstance value => some (endpoint, dataInstance, value)
  | _ => none

/-- The calls in the record. -/
def MonikerState.calls {τ : Type} (s : MonikerState σ ε V τ) : List (EndpointCall ε V) :=
  s.events.filterMap MonikerEvent.call?

theorem filterMap_call_callEvents (calls : List (EndpointCall ε V)) :
    (callEvents calls).filterMap MonikerEvent.call? = calls := by
  rw [callEvents, List.filterMap_map]
  exact List.filterMap_some

theorem calls_called {τ : Type} (s : MonikerState σ ε V τ) (calls : List (EndpointCall ε V)) :
    (s.called behave calls).calls = s.calls ++ calls := by
  rw [MonikerState.calls, MonikerState.called, List.filterMap_append, filterMap_call_callEvents]
  rfl

/-- The calls that data messages ask for, message by message, the writers of each in their order. -/
def applied (writers : List (ε × ℤ)) (requests : List (List V)) : List (EndpointCall ε V) :=
  requests.flatMap (writeCalls writers)

/-- A call of `StreamReadWrite`, as the client's messages and its cancelling make it: the moniker
list, the data messages, and how many looks at the context find it not cancelled. -/
def streamCall (monikers : MonikerList) (requests : List (List V)) (uncancelled : ℕ) (shared : σ) :
    MonikerState σ ε V (GrpcStream V) where
  shared
  transport := ⟨⟨some (.monikers monikers)⟩ :: requests.map .ofValues, uncancelled⟩

/-- How many data messages the handler has applied when it is through with its rounds: it takes the
next one in each of them, until the messages end or the context is cancelled. -/
def appliedCount (requests : List (List V)) (uncancelled rounds : ℕ) : ℕ :=
  min rounds (min requests.length uncancelled)

/-- After any number of rounds, the calls are those for as many of the first data messages as the
rounds, the messages and the context allow: none is left out, and none is applied twice. -/
def AppliesOnce [Inhabited V] (endpoints : Endpoints ε) (monikers : MonikerList)
    (requests : List (List V)) (uncancelled : ℕ) (shared : σ) : Prop :=
  ∀ rounds, ∃ returned s,
    (streamReadWrite behave endpoints rounds).run
      (streamCall monikers requests uncancelled shared) = .ok (returned, s) ∧
    s.calls = applied (found endpoints monikers.writeMonikers)
      (requests.take (appliedCount requests uncancelled rounds))

/-- Nothing is applied before the first round, without a message, and once cancelled. -/
theorem appliedCount_eq_zero {requests : List (List V)} {uncancelled rounds : ℕ}
    (h : rounds = 0 ∨ uncancelled = 0 ∨ requests = []) :
    appliedCount requests uncancelled rounds = 0 := by
  rcases h with rfl | rfl | rfl <;> simp [appliedCount]

theorem appliedCount_succ (values : List V) (requests : List (List V)) (uncancelled rounds : ℕ) :
    appliedCount (values :: requests) (uncancelled + 1) (rounds + 1) =
      appliedCount requests uncancelled rounds + 1 := by
  rw [appliedCount, appliedCount, List.length_cons, Nat.add_min_add_right, Nat.add_min_add_right]

/-- Without write endpoints there is nothing to call. -/
theorem applied_nil (requests : List (List V)) : applied ([] : List (ε × ℤ)) requests = [] :=
  List.flatMap_eq_nil_iff.mpr fun _ _ => rfl

variable {t : MonikerState σ ε V (GrpcStream V)} {writers : List (ε × ℤ)} {uncancelled : ℕ}

/-! ### The server-first branch -/

/-- Without endpoints, the server-first branch sends empty responses until it is cancelled. -/
theorem run_streamServerFirst_idle {incoming : List (MonikerWriteRequest V)}
    (request : MonikerWriteRequest V) (h : t.transport = ⟨incoming, uncancelled + 1⟩) :
    (streamServerFirst behave [] [] request).run t =
      .ok (some (request.setValues request.values), { t with
        events := t.events ++ [.respond []]
        transport := ⟨incoming, uncancelled⟩ }) := by
  rw [streamServerFirst, Exec.run_bind_ok (run_isCancelled h)]
  rfl

theorem run_streamServerFirst_cancelled {incoming : List (MonikerWriteRequest V)}
    (readers writers : EndpointList ε) (request : MonikerWriteRequest V)
    (h : t.transport = ⟨incoming, 0⟩) :
    (streamServerFirst behave readers writers request).run t = .ok (none, t) := by
  rw [streamServerFirst, Exec.run_bind_ok (run_isCancelled_cancelled h)]
  rfl

theorem loop_streamServerFirst_cancelled {incoming : List (MonikerWriteRequest V)}
    (readers writers : EndpointList ε) (rounds : ℕ) (request : MonikerWriteRequest V)
    (h : t.transport = ⟨incoming, 0⟩) :
    ∃ running, (Exec.loop (streamServerFirst behave readers writers) rounds request).run t =
      .ok (running, t) := by
  rcases rounds with - | rounds
  · exact ⟨some request, Exec.loop_zero _ _ _⟩
  · have hround := run_streamServerFirst_cancelled behave readers writers request h
    exact ⟨none, Exec.loop_ends hround rounds⟩

theorem loop_streamServerFirst_idle {incoming : List (MonikerWriteRequest V)} (rounds : ℕ)
    (request : MonikerWriteRequest V) (h : t.transport = ⟨incoming, uncancelled⟩) :
    ∃ running t', (Exec.loop (streamServerFirst behave [] []) rounds request).run t =
      .ok (running, t') ∧ t'.calls = t.calls := by
  induction rounds generalizing t request uncancelled with
  | zero => exact ⟨_, t, Exec.loop_zero _ _ _, rfl⟩
  | succ rounds ih =>
    rcases uncancelled with - | uncancelled
    · have hround := run_streamServerFirst_cancelled behave [] [] request h
      exact ⟨none, t, Exec.loop_ends hround rounds, rfl⟩
    · have hround := run_streamServerFirst_idle behave request h
      obtain ⟨running, t', hrun, hcalls⟩ := ih (t := { t with
        events := t.events ++ [.respond []]
        transport := ⟨incoming, uncancelled⟩ }) (request.setValues request.values) rfl
      refine ⟨running, t', (Exec.loop_goesOn hround rounds).trans hrun, hcalls.trans ?_⟩
      simp [MonikerState.calls, MonikerEvent.call?]

/-- With a write endpoint, a round takes a value, and a moniker list has none. -/
theorem run_streamServerFirst_noValues {incoming : List (MonikerWriteRequest V)}
    {writers : EndpointList ε} (hwriters : writers ≠ []) {request : MonikerWriteRequest V}
    (hvalues : request.values = []) (h : t.transport = ⟨incoming, uncancelled + 1⟩) :
    (streamServerFirst behave [] writers request).run t = .error .outOfBounds := by
  have hbuild (t : MonikerState σ ε V (GrpcStream V)) :
      (streamServerFirstResponse behave []).run t = .ok ({}, t) := rfl
  rw [streamServerFirst, Exec.run_bind_ok (run_isCancelled h), if_neg Bool.false_ne_true,
    Exec.run_bind_ok (hbuild _), responded, Exec.run_bind_ok (Exec.run_modify _ _), hvalues,
    Exec.run_bind_error (run_callIndexed_new behave hwriters _)]

/-! ### The client-first branch -/

variable [Inhabited V]

/-- A data message calls the write endpoints on its values, and then the read endpoints. -/
theorem calls_after_streamEffect {τ : Type} (readers writers : List (ε × ℤ)) (values : List V)
    (t : MonikerState σ ε V τ) (transport : τ) :
    (t.after (streamEffect behave readers writers values t.shared) transport).calls =
      t.calls ++ (writeCalls writers values ++ readCalls readers) := by
  have hevents : (streamEffect behave readers writers values t.shared).events =
      callEvents (writeCalls writers values ++ readCalls readers) ++
        [.respond (callAll behave (readCalls readers)
          (callAll behave (writeCalls writers values) t.shared).2).1] := by
    rw [callEvents, List.map_append]
    rfl
  rw [MonikerState.calls, MonikerState.after, hevents, List.filterMap_append, List.filterMap_append,
    filterMap_call_callEvents]
  exact congrArg (t.calls ++ ·) (List.append_nil _)

/-- Each round applies the next message, until the stream ends or the context is cancelled. -/
theorem loop_streamClientFirst_applies {requests : List (List V)}
    (hvalues : ∀ values ∈ requests, writers.length ≤ values.length) (rounds : ℕ)
    (h : t.transport = ⟨requests.map .ofValues, uncancelled⟩) :
    ∃ running t', (Exec.loop (streamClientFirst behave [] (pointers writers)) rounds ()).run t =
      .ok (running, t') ∧ t'.calls = t.calls ++
        applied writers (requests.take (appliedCount requests uncancelled rounds)) := by
  induction rounds generalizing t requests uncancelled with
  | zero =>
    refine ⟨_, t, Exec.loop_zero _ _ _, ?_⟩
    rw [appliedCount_eq_zero (.inl rfl)]
    exact (List.append_nil _).symm
  | succ rounds ih =>
    by_cases hnone : (requests.map MonikerWriteRequest.ofValues).take uncancelled = []
    · obtain ⟨stream, hend⟩ := run_reading_ends (handleData behave [] (pointers writers)) h hnone
      refine ⟨none, { t with transport := stream }, Exec.loop_ends hend rounds, ?_⟩
      rw [List.take_eq_nil_iff, List.map_eq_nil_iff] at hnone
      rw [appliedCount_eq_zero (.inr hnone)]
      exact (List.append_nil _).symm
    · rw [List.take_eq_nil_iff, not_or, List.map_eq_nil_iff] at hnone
      obtain ⟨uncancelled, rfl⟩ := Nat.exists_eq_succ_of_ne_zero hnone.1
      obtain ⟨values, requests, rfl⟩ := List.exists_cons_of_ne_nil hnone.2
      have hround := run_streamClientFirst_data behave [] (hvalues values List.mem_cons_self) h
      obtain ⟨running, t', hrun, hcalls⟩ := ih (t := t.after (streamEffect behave [] writers
        values t.shared) ⟨requests.map .ofValues, uncancelled⟩)
        (fun v hv => hvalues v (List.mem_cons_of_mem values hv)) rfl
      refine ⟨running, t', (Exec.loop_goesOn hround rounds).trans hrun, ?_⟩
      have hread : (readCalls [] : List (EndpointCall ε V)) = [] := rfl
      rw [hcalls, calls_after_streamEffect, hread, List.append_nil, List.append_assoc,
        appliedCount_succ, List.take_succ_cons]
      rfl

/-! ### The handler -/

/-- The handler applies the data messages in order and once each exactly if it is told that the
client writes first, has nothing to write to, or is cancelled before it starts. There are no
readers, the writers are registered, and each message has one value for each of them. -/
theorem appliesOnce_iff (endpoints : Endpoints ε) (monikers : MonikerList)
    (hread : monikers.readMonikers = []) (hwrite : AllRegistered endpoints monikers.writeMonikers)
    {requests : List (List V)}
    (hvalues : ∀ values ∈ requests, values.length = monikers.writeMonikers.length)
    (uncancelled : ℕ) (shared : σ) :
    AppliesOnce behave endpoints monikers requests uncancelled shared ↔
      monikers.isInitialWrite = true ∨ monikers.writeMonikers = [] ∨ uncancelled = 0 := by
  have hrun (rounds : ℕ) := run_streamReadWrite behave endpoints rounds rfl
    (show (streamCall monikers requests uncancelled shared : MonikerState σ ε V _).transport =
      ⟨⟨some (.monikers monikers)⟩ :: requests.map .ofValues, uncancelled⟩ from rfl)
  have hresolve : resolve endpoints monikers.readMonikers = [] := resolve_eq_nil_iff.mpr hread
  simp only [List.head?_cons, Option.getD_some, List.tail_cons, MonikerWriteRequest.monikers,
    hresolve, resolve_eq_pointers hwrite] at hrun
  constructor
  · intro h
    by_contra hbranch
    rw [not_or, not_or] at hbranch
    obtain ⟨hserver, hne, hpos⟩ := hbranch
    obtain ⟨uncancelled, rfl⟩ := Nat.exists_eq_succ_of_ne_zero hpos
    have hwriters : pointers (found endpoints monikers.writeMonikers) ≠ [] := by
      rw [← resolve_eq_pointers hwrite, Ne, resolve_eq_nil_iff]
      exact hne
    -- already the first round leaves the message
    obtain ⟨returned, s, hreturned, -⟩ := h 1
    rw [hrun, if_neg hserver, Exec.run_map_error _ (Exec.loop_fails
      (run_streamServerFirst_noValues behave hwriters rfl rfl) 0)] at hreturned
    cases hreturned
  · intro hbranch rounds
    rw [hrun]
    -- the client-first branch reads in each round, the other one has nothing to do
    by_cases hinitial : monikers.isInitialWrite = true
    · have henough : ∀ values ∈ requests,
          (found endpoints monikers.writeMonikers).length ≤ values.length := by
        intro values hmem
        exact (length_found hwrite).trans_le (hvalues values hmem).ge
      obtain ⟨running, s, hloop, hcalls⟩ := loop_streamClientFirst_applies behave
        (t := ⟨shared, [], ⟨requests.map .ofValues, uncancelled⟩⟩) henough rounds rfl
      rw [if_pos hinitial]
      exact ⟨_, s, Exec.run_map_ok _ hloop, hcalls⟩
    · rw [if_neg hinitial]
      rcases hbranch with hyes | hnone | rfl
      · exact absurd hyes hinitial
      · obtain ⟨running, s, hloop, hcalls⟩ := loop_streamServerFirst_idle behave
          (t := ⟨shared, [], ⟨requests.map .ofValues, uncancelled⟩⟩) rounds
          ⟨some (.monikers monikers)⟩ rfl
        rw [hnone]
        refine ⟨_, s, Exec.run_map_ok _ hloop, hcalls.trans ?_⟩
        exact (applied_nil _).symm
      · obtain ⟨running, hloop⟩ := loop_streamServerFirst_cancelled behave
          (t := ⟨shared, [], ⟨requests.map .ofValues, 0⟩⟩) []
          (pointers (found endpoints monikers.writeMonikers)) rounds ⟨some (.monikers monikers)⟩ rfl
        refine ⟨_, _, Exec.run_map_ok _ hloop, ?_⟩
        rw [appliedCount_eq_zero (.inr (.inl rfl))]
        rfl

/-- A store that is told that its client writes first. -/
theorem appliesOnce_iff_store :
    AppliesOnce storeLoad storeEndpoints ⟨true, [], [⟨[0x53], 2⟩]⟩ storeRequests 2 {} :=
  (appliesOnce_iff storeLoad storeEndpoints ⟨true, [], [⟨[0x53], 2⟩]⟩ rfl (by decide) (by decide) 2
    {}).mpr (.inl rfl)

/-- A store that is not: the first round takes the value from the moniker list. -/
theorem not_appliesOnce_store :
    ¬ AppliesOnce storeLoad storeEndpoints ⟨false, [], [⟨[0x53], 2⟩]⟩ storeRequests 1 {} := by
  intro h
  obtain ⟨returned, s, hrun, -⟩ := h 1
  cases hrun

end Streams

end Sideband
