import Sideband.Foundation.Machine
import Sideband.Moniker.Requests

/-!
# Streams at the same time

Each stream of the service has a thread that runs its handler, and the threads call endpoints that
share their state. In `monikerThreads` a step is one call of an endpoint, or what a handler does
between two calls, so a run is an interleaving of any number of streams, with registrations in
between. An endpoint call and a lookup of a moniker list happen at once.

The handlers are those that wait for no value of a new message: the client-first branches, and
`StreamRead` and `StreamWrite`.

* `EndpointView` is the part of the endpoints' state that is only a stream's own.
* `keepsApart_of_reachable`: such a stream does what its rounds do one after the other
  (`roundsEffect`), whatever the other streams do.
* `began_of_reachable`: a name that had an endpoint when a stream began keeps it.
-/

namespace Sideband

open Foundation

/-! ### Handlers -/

/-- The handlers that a thread of the service runs. `RunSidebandReadWriteLoop` is that of a
thread of its own, which `BeginSidebandStream` starts. -/
inductive MonikerHandler
  /-- `RunSidebandReadWriteLoop`, when the client writes first. -/
  | runSidebandReadWriteLoop
  /-- `StreamReadWrite`, when the client writes first. -/
  | streamReadWrite
  | streamRead
  | streamWrite
  deriving DecidableEq, Repr

namespace MonikerHandler

/-- Each round begins with a request of the client. -/
def reads : MonikerHandler → Bool
  | .streamRead => false
  | _ => true

/-- Each round ends with a response, also without a read endpoint. -/
def alwaysResponds : MonikerHandler → Bool
  | .streamReadWrite => true
  | .streamRead => true
  | _ => false

/-- A response that cannot be sent ends the loop. -/
def endsUnsent : MonikerHandler → Bool
  | .runSidebandReadWriteLoop => true
  | _ => false

/-- The client writes first, where the handler has two branches. Only such streams begin in the
machine below. -/
def clientFirst (monikers : MonikerList) : MonikerHandler → Bool
  | .runSidebandReadWriteLoop => monikers.isInitialWrite
  | .streamReadWrite => monikers.isInitialWrite
  | _ => true

end MonikerHandler

/-- Where a handler is in its loop, between two calls of endpoints. Reading a request is part of
the step at `next`, and sending a response that of `respond`. -/
inductive HandlerPhase (V : Type)
  /-- At the condition of the loop. -/
  | next
  /-- In the loop over the writers, at index `x`. -/
  | write (values : List V) (x : ℕ)
  /-- In the loop over the readers, with the values that the response has. -/
  | read (left : List V)
  | respond (left : List V)
  /-- The loop is over. -/
  | returned
  deriving DecidableEq, Repr

/-- A handler's thread, with a record of the requests that it has begun to handle. Its endpoints
were looked up when it began, and stay what they were. -/
structure HandlerThread (ε V : Type) where
  handler : MonikerHandler
  monikers : MonikerList
  readers : EndpointList ε
  writers : EndpointList ε
  phase : HandlerPhase V := .next
  requests : List (List V) := []
  events : List (MonikerEvent ε V) := []

/-- The endpoints and their state, and the threads of the streams. The map of the endpoints grows
only: nothing unregisters one. -/
structure MonikerThreads (ι σ ε V : Type) where
  endpoints : Endpoints ε
  shared : σ
  thread : ι → Option (HandlerThread ε V)

/-- What happens next: a registration, a stream that begins, or a step of a thread. The requests
come from outside, and so does whether a response could be sent. -/
inductive MonikerThreadsStep (ι ε V : Type)
  /-- `RegisterMonikerEndpoint`. -/
  | register (endpointName : Bytes) (endpoint : ε)
  /-- A stream begins: `InitiateMonikerList`. -/
  | begin (i : ι) (handler : MonikerHandler) (monikers : MonikerList)
  /-- The condition of the loop holds on a request with these values, or it does not. -/
  | next (i : ι) (request : Option (List V))
  | call (i : ι)
  /-- The loop over the writers or over the readers is done. -/
  | goOn (i : ι)
  | respond (i : ι) (sent : Bool)
  deriving DecidableEq, Repr

section Concurrent

variable {ι σ ε V τ : Type} (behave : ε → ℤ → V → σ → V × σ)

namespace HandlerThread

variable (thread : HandlerThread ε V)

/-- The thread of a stream that begins: its monikers are resolved to the endpoints that are
registered now, and never again. -/
def start (handler : MonikerHandler) (monikers : MonikerList) (endpoints : Endpoints ε) :
    HandlerThread ε V :=
  let (readers, writers) := initiateMonikerList endpoints monikers
  { handler, monikers
    -- `StreamRead` does not look at the writers, nor `StreamWrite` at the readers
    readers := if handler = .streamWrite then [] else readers
    writers := if handler = .streamRead then [] else writers }

def next (request : Option (List V)) : Option (HandlerThread ε V) :=
  match thread.phase with
  | .next =>
    match request with
    | none => some { thread with phase := .returned }
    | some values =>
      let values := if thread.handler.reads then values else []
      some { thread with phase := .write values 0, requests := thread.requests ++ [values] }
  | _ => none

/-- Call an endpoint: the value it leaves, and the state afterwards. A null pointer, or a value
that is not there, is no call. -/
def callEndpoint (e : Option (EndpointInstance ε)) (value : Option V) (shared : σ) :
    Option (V × MonikerState σ ε V Unit) :=
  match e, value with
  | some e, some value =>
    match (Sideband.callEndpoint behave e value).run ⟨shared, thread.events, ()⟩ with
    | .ok (left, s) => some (left, s)
    | .error _ => none
  | _, _ => none

def call [Inhabited V] (shared : σ) : Option (HandlerThread ε V × σ) :=
  match thread.phase with
  | .write values x =>
    (thread.callEndpoint behave thread.writers[x]? values[x]? shared).map fun (left, s) =>
      ({ thread with phase := .write (values.set x left) (x + 1), events := s.events }, s.shared)
  | .read left =>
    (thread.callEndpoint behave thread.readers[left.length]? (some default) shared).map
      fun (value, s) =>
        ({ thread with phase := .read (left ++ [value]), events := s.events }, s.shared)
  | _ => none

/-- A round of the thread ends with a response. -/
def responds : Bool := thread.handler.alwaysResponds || !thread.readers.isEmpty

def goOn : Option (HandlerThread ε V) :=
  match thread.phase with
  | .write _ x =>
    if thread.writers.length ≤ x then some { thread with phase := .read [] } else none
  | .read left =>
    if thread.readers.length ≤ left.length then
      some { thread with phase := if thread.responds then .respond left else .next }
    else none
  | _ => none

def respond (sent : Bool) : Option (HandlerThread ε V) :=
  match thread.phase with
  | .respond left => some { thread with
      phase := if thread.handler.endsUnsent && !sent then .returned else .next
      events := thread.events ++ [.respond left] }
  | _ => none

end HandlerThread

namespace MonikerThreads

variable [DecidableEq ι] (s : MonikerThreads ι σ ε V)

/-- A thread takes a step. -/
def update (i : ι) (step : HandlerThread ε V → Option (HandlerThread ε V)) :
    Option (MonikerThreads ι σ ε V) :=
  ((s.thread i).bind step).map fun thread =>
    { s with thread := Function.update s.thread i (some thread) }

end MonikerThreads

/-- The threads of any number of streams, each with one of the four handlers, those with two
branches in client-first mode. A step is one call of an endpoint or what a handler does between
two calls; a call and a lookup happen at once. Requests may come at any time and have any values.
A call that the source makes on a null pointer or with a value that is not there is undefined,
and has no step; the transports are left out. -/
def monikerThreads [DecidableEq ι] [Inhabited V] (initial : σ) :
    Machine (MonikerThreads ι σ ε V) (MonikerThreadsStep ι ε V) where
  init s := s.shared = initial ∧ s.thread = fun _ => none
  next s
    | .register endpointName endpoint =>
      some { s with endpoints := registerMonikerEndpoint endpointName endpoint s.endpoints }
    | .begin i handler monikers =>
      if s.thread i = none ∧ handler.clientFirst monikers then
        some { s with
          thread := Function.update s.thread i (some (.start handler monikers s.endpoints)) }
      else none
    | .next i request => s.update i fun thread => thread.next request
    | .call i =>
      ((s.thread i).bind fun thread => thread.call behave s.shared).map fun (thread, shared) =>
        { s with shared, thread := Function.update s.thread i (some thread) }
    | .goOn i => s.update i HandlerThread.goOn
    | .respond i sent => s.update i fun thread => thread.respond sent

/-! ### A stream alone -/

section Alone

variable [Inhabited V] (readers writers : List (ε × ℤ)) (responds : Bool)

/-- What a round does from a place on: the calls that are left, and the response. It is what ties
a place to the round as a whole. -/
def HandlerPhase.rest : HandlerPhase V → σ → Effect σ ε V
  | .next, shared => ⟨[], shared⟩
  | .write values x, shared =>
    let calls := writeCalls (writers.drop x) (values.drop x)
    let (left, shared) := callAll behave (readCalls readers) (callAll behave calls shared).2
    ⟨callEvents calls ++ callEvents (readCalls readers) ++
      (if responds then [.respond left] else []), shared⟩
  | .read left, shared =>
    let calls := readCalls (readers.drop left.length)
    let (more, shared) := callAll behave calls shared
    ⟨callEvents calls ++ (if responds then [.respond (left ++ more)] else []), shared⟩
  | .respond left, shared => ⟨[.respond left], shared⟩
  | .returned, shared => ⟨[], shared⟩

/-- What rounds do, one after the other, on the requests with these values, when no other thread
comes in between. -/
def roundsEffect : List (List V) → σ → Effect σ ε V
  | [], shared => ⟨[], shared⟩
  | values :: requests, shared =>
    let first := HandlerPhase.rest behave readers writers responds (.write values 0) shared
    let rest := roundsEffect requests first.shared
    ⟨first.events ++ rest.events, rest.shared⟩

theorem roundsEffect_concat (requests : List (List V)) (values : List V) (shared : σ) :
    roundsEffect behave readers writers responds (requests ++ [values]) shared =
      let first := roundsEffect behave readers writers responds requests shared
      let last := HandlerPhase.rest behave readers writers responds (.write values 0) first.shared
      ⟨first.events ++ last.events, last.shared⟩ := by
  induction requests generalizing shared with
  | nil => simp [roundsEffect]
  | cons first requests ih =>
    rw [List.cons_append, roundsEffect, ih]
    simp only [roundsEffect, List.append_assoc]

/-- A handler that responds to what it reads does what the client-first sideband loop does. -/
theorem roundsEffect_eq_requestsEffect (requests : List (List V)) (shared : σ) :
    roundsEffect behave readers writers (!readers.isEmpty) requests shared =
      requestsEffect behave readers writers requests shared := by
  induction requests generalizing shared with
  | nil => rfl
  | cons values requests ih =>
    have hround : HandlerPhase.rest behave readers writers (!readers.isEmpty) (.write values 0)
        shared = requestEffect behave readers writers values shared := by
      rw [requestEffect]
      cases readers with
      | nil => simp [HandlerPhase.rest, readCalls, callAll, callEvents]
      | cons e readers => simp [HandlerPhase.rest]
    rw [roundsEffect, requestsEffect, hround, ih]

/-! ### The rest of a round -/

variable {behave readers writers responds}

/-- A call of a writer is the first of the calls that are left. -/
theorem HandlerPhase.rest_write {values : List V} {x : ℕ} {e : ε × ℤ} {value : V}
    (hwriter : writers[x]? = some e) (hvalue : values[x]? = some value) (shared : σ) :
    HandlerPhase.rest behave readers writers responds (.write values x) shared =
      let called := behave e.1 e.2 value shared
      let rest := HandlerPhase.rest behave readers writers responds
        (.write (values.set x called.1) (x + 1)) called.2
      ⟨.call e.1 e.2 value :: rest.events, rest.shared⟩ := by
  obtain ⟨hx, rfl⟩ := List.getElem?_eq_some_iff.mp hwriter
  obtain ⟨hx', rfl⟩ := List.getElem?_eq_some_iff.mp hvalue
  have hrest (left : V) : (values.set x left).drop (x + 1) = values.drop (x + 1) :=
    List.drop_set_of_lt (Nat.lt_succ_self x)
  simp only [HandlerPhase.rest, hrest]
  rw [List.drop_eq_getElem_cons hx, List.drop_eq_getElem_cons hx', writeCalls_cons]
  rfl

/-- So is a call of a reader. -/
theorem HandlerPhase.rest_read {left : List V} {e : ε × ℤ}
    (hreader : readers[left.length]? = some e) (shared : σ) :
    HandlerPhase.rest behave readers writers responds (.read left) shared =
      let called := behave e.1 e.2 default shared
      let rest := HandlerPhase.rest behave readers writers responds
        (.read (left ++ [called.1])) called.2
      ⟨.call e.1 e.2 default :: rest.events, rest.shared⟩ := by
  obtain ⟨hx, rfl⟩ := List.getElem?_eq_some_iff.mp hreader
  have hcons (left : V) (more : List V) (before : List V) :
      before ++ [left] ++ more = before ++ (left :: more) := by simp
  simp only [HandlerPhase.rest, List.length_append, List.length_singleton, hcons]
  rw [List.drop_eq_getElem_cons hx]
  rfl

/-- After the last writer the readers are called, -/
theorem HandlerPhase.rest_write_end {values : List V} {x : ℕ} (h : writers.length ≤ x)
    (shared : σ) : HandlerPhase.rest behave readers writers responds (.write values x) shared =
      HandlerPhase.rest behave readers writers responds (.read []) shared := by
  have hnone : writeCalls ([] : List (ε × ℤ)) (values.drop x) = [] := rfl
  simp only [HandlerPhase.rest, List.drop_eq_nil_of_le h, hnone]
  rfl

/-- and after the last reader the response is due. -/
theorem HandlerPhase.rest_read_end {left : List V} (h : readers.length ≤ left.length)
    (shared : σ) : HandlerPhase.rest behave readers writers responds (.read left) shared =
      HandlerPhase.rest behave readers writers responds
        (if responds then .respond left else .next) shared := by
  have hnone : (readCalls [] : List (EndpointCall ε V)) = [] := rfl
  simp only [HandlerPhase.rest, List.drop_eq_nil_of_le h, hnone, callAll, List.append_nil]
  cases responds <;> rfl

end Alone

/-! ### The steps of a thread -/

section Threads

variable [Inhabited V] {behave} {thread thread' : HandlerThread ε V} {shared shared' : σ}
  {readers writers : List (ε × ℤ)}

variable (behave) in
/-- What a call of a thread does. -/
inductive HandlerThread.Called (thread : HandlerThread ε V) (shared : σ) :
    HandlerThread ε V → σ → Prop
  | write {values : List V} {x : ℕ} {endpoint : ε} {dataInstance : ℤ} {value : V}
      (hphase : thread.phase = .write values x)
      (hwriter : thread.writers[x]? = some (some endpoint, dataInstance))
      (hvalue : values[x]? = some value) :
      Called thread shared { thread with
        phase := .write (values.set x (behave endpoint dataInstance value shared).1) (x + 1)
        events := thread.events ++ [.call endpoint dataInstance value] }
        (behave endpoint dataInstance value shared).2
  | read {left : List V} {endpoint : ε} {dataInstance : ℤ} (hphase : thread.phase = .read left)
      (hreader : thread.readers[left.length]? = some (some endpoint, dataInstance)) :
      Called thread shared { thread with
        phase := .read (left ++ [(behave endpoint dataInstance default shared).1])
        events := thread.events ++ [.call endpoint dataInstance default] }
        (behave endpoint dataInstance default shared).2

omit [Inhabited V] in
theorem HandlerThread.callEndpoint_eq_some {e : Option (EndpointInstance ε)} {value : Option V}
    {left : V} {s : MonikerState σ ε V Unit}
    (h : thread.callEndpoint behave e value shared = some (left, s)) :
    ∃ endpoint dataInstance v, e = some (some endpoint, dataInstance) ∧ value = some v ∧
      left = (behave endpoint dataInstance v shared).1 ∧
      s.shared = (behave endpoint dataInstance v shared).2 ∧
      s.events = thread.events ++ [.call endpoint dataInstance v] := by
  cases e with
  | none => cases h
  | some e =>
    obtain ⟨pointer, dataInstance⟩ := e
    cases value with
    | none => cases h
    | some v =>
      -- a null pointer is called
      cases pointer with
      | none => cases h
      | some endpoint =>
        cases h
        exact ⟨endpoint, dataInstance, v, rfl, rfl, rfl, rfl, rfl⟩

theorem HandlerThread.called_of_eq_some (h : thread.call behave shared = some (thread', shared')) :
    thread.Called behave shared thread' shared' := by
  rw [call] at h
  cases hphase : thread.phase with
  | write values x =>
    rw [hphase] at h
    obtain ⟨⟨left, s⟩, hcall, heq⟩ := Option.map_eq_some_iff.mp h
    obtain ⟨endpoint, dataInstance, v, hwriter, hvalue, rfl, hshared, hevents⟩ :=
      HandlerThread.callEndpoint_eq_some hcall
    dsimp only at heq
    rw [hshared, hevents] at heq
    cases heq
    exact .write hphase hwriter hvalue
  | read left =>
    rw [hphase] at h
    obtain ⟨⟨value, s⟩, hcall, heq⟩ := Option.map_eq_some_iff.mp h
    obtain ⟨endpoint, dataInstance, v, hreader, hvalue, rfl, hshared, hevents⟩ :=
      HandlerThread.callEndpoint_eq_some hcall
    dsimp only at heq
    rw [hshared, hevents] at heq
    obtain rfl := Option.some.inj hvalue
    cases heq
    exact .read hphase hreader
  | _ => simp [hphase] at h

variable (behave) in
/-- A step of a thread. -/
inductive HandlerThread.Steps (thread : HandlerThread ε V) (shared : σ) :
    HandlerThread ε V → σ → Prop
  | next {request : Option (List V)} {thread' : HandlerThread ε V}
      (h : thread.next request = some thread') : Steps thread shared thread' shared
  | call {thread' : HandlerThread ε V} {shared' : σ}
      (h : thread.Called behave shared thread' shared') : Steps thread shared thread' shared'
  | goOn {thread' : HandlerThread ε V} (h : thread.goOn = some thread') :
      Steps thread shared thread' shared
  | respond {sent : Bool} {thread' : HandlerThread ε V} (h : thread.respond sent = some thread') :
      Steps thread shared thread' shared

/-- The thread still runs the handler, with the endpoints that it began with. -/
structure HandlerThread.SameHandler (thread thread' : HandlerThread ε V) : Prop where
  handler : thread'.handler = thread.handler
  monikers : thread'.monikers = thread.monikers
  readers : thread'.readers = thread.readers
  writers : thread'.writers = thread.writers

theorem HandlerThread.Steps.sameHandler (h : thread.Steps behave shared thread' shared') :
    thread.SameHandler thread' := by
  cases h with
  | next h =>
    unfold HandlerThread.next at h
    split at h
    · split at h <;> (obtain rfl := Option.some.inj h; exact ⟨rfl, rfl, rfl, rfl⟩)
    · cases h
  | call h => cases h <;> exact ⟨rfl, rfl, rfl, rfl⟩
  | goOn h =>
    unfold HandlerThread.goOn at h
    split at h
    · split_ifs at h
      obtain rfl := Option.some.inj h
      exact ⟨rfl, rfl, rfl, rfl⟩
    · split_ifs at h <;> (obtain rfl := Option.some.inj h; exact ⟨rfl, rfl, rfl, rfl⟩)
    · cases h
  | respond h =>
    unfold HandlerThread.respond at h
    split at h
    · obtain rfl := Option.some.inj h
      exact ⟨rfl, rfl, rfl, rfl⟩
    · cases h

variable [DecidableEq ι] {s s' : MonikerThreads ι σ ε V} {initial : σ}

variable (behave) in
/-- What a step does: a registration, a stream that begins, or a step of a thread. -/
inductive ThreadsMove (s : MonikerThreads ι σ ε V) :
    MonikerThreadsStep ι ε V → MonikerThreads ι σ ε V → Prop
  | register {endpointName : Bytes} {endpoint : ε} : ThreadsMove s (.register endpointName endpoint)
      { s with endpoints := registerMonikerEndpoint endpointName endpoint s.endpoints }
  | begin {i : ι} {handler : MonikerHandler} {monikers : MonikerList} (h : s.thread i = none)
      (hbranch : handler.clientFirst monikers) : ThreadsMove s (.begin i handler monikers)
        { s with
          thread := Function.update s.thread i (some (.start handler monikers s.endpoints)) }
  | thread {a : MonikerThreadsStep ι ε V} {i : ι} {thread thread' : HandlerThread ε V} {shared : σ}
      (hthread : s.thread i = some thread) (h : thread.Steps behave s.shared thread' shared) :
      ThreadsMove s a { s with shared, thread := Function.update s.thread i (some thread') }

omit [Inhabited V] in
theorem MonikerThreads.update_eq_some {i : ι}
    {step : HandlerThread ε V → Option (HandlerThread ε V)} (h : s.update i step = some s') :
    ∃ thread thread', s.thread i = some thread ∧
      step thread = some thread' ∧
      s' = { s with thread := Function.update s.thread i (some thread') } := by
  obtain ⟨thread', hstep, rfl⟩ := Option.map_eq_some_iff.mp h
  obtain ⟨thread, hthread, hthread'⟩ := Option.bind_eq_some_iff.mp hstep
  exact ⟨thread, thread', hthread, hthread', rfl⟩

theorem threadsMove_of_next {a : MonikerThreadsStep ι ε V}
    (h : (monikerThreads behave initial).next s a = some s') : ThreadsMove behave s a s' := by
  cases a with
  | register endpointName endpoint =>
    obtain rfl := Option.some.inj h
    exact .register
  | begin i handler monikers =>
    rw [monikerThreads] at h
    dsimp only at h
    split_ifs at h with hbegins
    obtain rfl := Option.some.inj h
    exact .begin hbegins.1 hbegins.2
  | next i request =>
    obtain ⟨thread, thread', hthread, hstep, rfl⟩ := MonikerThreads.update_eq_some h
    exact .thread hthread (.next hstep)
  | call i =>
    obtain ⟨⟨thread', shared⟩, hstep, rfl⟩ := Option.map_eq_some_iff.mp h
    obtain ⟨thread, hthread, hcall⟩ := Option.bind_eq_some_iff.mp hstep
    exact .thread hthread (.call (HandlerThread.called_of_eq_some hcall))
  | goOn i =>
    obtain ⟨thread, thread', hthread, hstep, rfl⟩ := MonikerThreads.update_eq_some h
    exact .thread hthread (.goOn hstep)
  | respond i sent =>
    obtain ⟨thread, thread', hthread, hstep, rfl⟩ := MonikerThreads.update_eq_some h
    exact .thread hthread (.respond hstep)

end Threads

/-! ### What is a stream's own -/

/-- A part of the endpoints' state: the calls of the endpoints that are `own` look at nothing
else, and the calls of the others leave it. Instances of one endpoint can be told apart by it, as
the pair is of an endpoint and an instance. -/
structure EndpointView (behave : ε → ℤ → V → σ → V × σ) (own : ε × ℤ → Prop) (τ : Type) where
  view : σ → τ
  behaveOn : ε → ℤ → V → τ → V × τ
  own_eq : ∀ e value shared, own e → behaveOn e.1 e.2 value (view shared) =
    ((behave e.1 e.2 value shared).1, view (behave e.1 e.2 value shared).2)
  other_eq : ∀ e value shared, ¬ own e → view (behave e.1 e.2 value shared).2 = view shared

/-- The thread may call the endpoint. -/
def HandlerThread.MayCall (thread : HandlerThread ε V) (e : ε × ℤ) : Prop :=
  (some e.1, e.2) ∈ thread.readers ++ thread.writers

/-- A stream that begins calls endpoints that are `own` if it is the stream `i`, and others if it
is not. Nothing is asked of the order of the steps. -/
def KeepsOwn (own : ε × ℤ → Prop) (i : ι) (s : MonikerThreads ι σ ε V) :
    MonikerThreadsStep ι ε V → Prop
  | .begin j handler monikers => ∀ e,
    (HandlerThread.start handler monikers s.endpoints : HandlerThread ε V).MayCall e →
      (own e ↔ j = i)
  | _ => True

section Apart

variable [DecidableEq ι] [Inhabited V] {behave} {own : ε × ℤ → Prop} {i j : ι}
  {s s' : MonikerThreads ι σ ε V} {thread thread' : HandlerThread ε V} {shared shared' initial : σ}
  {readers writers : List (ε × ℤ)}

/-- With what it has still to do, the thread has done what it does alone from `initial` on. This
is the simulation's relation. -/
structure HandlerThread.Follows (behave : ε → ℤ → V → τ → V × τ) (readers writers : List (ε × ℤ))
    (thread : HandlerThread ε V) (seen initial : τ) : Prop where
  events : thread.events ++
      (thread.phase.rest behave readers writers thread.responds seen).events =
    (roundsEffect behave readers writers thread.responds thread.requests initial).events
  shared : (thread.phase.rest behave readers writers thread.responds seen).shared =
    (roundsEffect behave readers writers thread.responds thread.requests initial).shared
  /-- There are as many values as in the request. -/
  values : ∀ values x, thread.phase = .write values x →
    ∃ request ∈ thread.requests, request.length = values.length

/-- A thread that has begun nothing. -/
theorem HandlerThread.follows_start (behave : ε → ℤ → V → τ → V × τ)
    (handler : MonikerHandler) (monikers : MonikerList) (endpoints : Endpoints ε) (initial : τ) :
    (HandlerThread.start handler monikers endpoints : HandlerThread ε V).Follows behave readers
      writers initial initial :=
  ⟨rfl, rfl, fun _ _ hphase => (by cases hphase)⟩

/-- A step that does nothing that is seen. -/
theorem HandlerThread.Follows.silent {behave : ε → ℤ → V → τ → V × τ} {seen initial : τ}
    (h : thread.Follows behave readers writers seen initial) (phase : HandlerPhase V)
    (hrest : phase.rest behave readers writers thread.responds seen =
      thread.phase.rest behave readers writers thread.responds seen)
    (hvalues : ∀ values x, phase ≠ .write values x) :
    { thread with phase }.Follows behave readers writers seen initial := by
  have hevents := h.events
  have hshared := h.shared
  rw [← hrest] at hevents hshared
  exact ⟨hevents, hshared, fun values x hphase => absurd hphase (hvalues values x)⟩

theorem HandlerThread.Follows.next {behave : ε → ℤ → V → τ → V × τ} {seen initial : τ}
    (h : thread.Follows behave readers writers seen initial) {request : Option (List V)}
    (hstep : thread.next request = some thread') :
    thread'.Follows behave readers writers seen initial := by
  unfold HandlerThread.next at hstep
  cases hphase : thread.phase with
  | next =>
    rw [hphase] at hstep
    cases request with
    | none =>
      obtain rfl := Option.some.inj hstep
      exact h.silent .returned (by rw [hphase]; rfl) (fun _ _ => by simp)
    | some values =>
      obtain rfl := Option.some.inj hstep
      have hevents := h.events
      have hshared := h.shared
      rw [hphase] at hevents hshared
      replace hevents : thread.events = _ := (List.append_nil _).symm.trans hevents
      replace hshared : seen = _ := hshared
      refine ⟨?_, ?_, fun values x hwrite => ?_⟩
      · change thread.events ++ _ = (roundsEffect behave readers writers thread.responds
          (thread.requests ++ [_]) initial).events
        rw [roundsEffect_concat]
        dsimp only
        rw [← hshared, ← hevents]
        rfl
      · change _ = (roundsEffect behave readers writers thread.responds
          (thread.requests ++ [_]) initial).shared
        rw [roundsEffect_concat]
        dsimp only
        rw [← hshared]
        rfl
      · cases hwrite
        exact ⟨_, List.mem_append_right _ List.mem_cons_self, rfl⟩
  | _ => simp [hphase] at hstep

/-- The threads of the other streams leave the view. -/
theorem HandlerThread.Called.other (view : EndpointView behave own τ)
    (h : thread.Called behave shared thread' shared')
    (hother : ∀ e, thread.MayCall e → ¬ own e) : view.view shared' = view.view shared := by
  cases h with
  | write hphase hwriter hvalue =>
    exact view.other_eq (_, _) _ shared
      (hother _ (List.mem_append_right _ (List.mem_of_getElem? hwriter)))
  | read hphase hreader =>
    exact view.other_eq (_, _) _ shared
      (hother _ (List.mem_append_left _ (List.mem_of_getElem? hreader)))

omit [Inhabited V] in
theorem getElem?_of_pointers {found : List (ε × ℤ)} {x : ℕ} {endpoint : ε} {dataInstance : ℤ}
    (h : (pointers found)[x]? = some (some endpoint, dataInstance)) :
    found[x]? = some (endpoint, dataInstance) := by
  rw [pointers, List.getElem?_map] at h
  obtain ⟨e, he, heq⟩ := Option.map_eq_some_iff.mp h
  obtain ⟨hendpoint, hinstance⟩ := Prod.mk.inj heq
  rw [he, ← Option.some.inj hendpoint, ← hinstance]

/-- A call of the stream's own thread is the one that comes next. -/
theorem HandlerThread.Follows.called (view : EndpointView behave own τ) {start : τ}
    (h : thread.Follows view.behaveOn readers writers (view.view shared) start)
    (hreaders : thread.readers = pointers readers) (hwriters : thread.writers = pointers writers)
    (hown : ∀ e, thread.MayCall e → own e) (hstep : thread.Called behave shared thread' shared') :
    thread'.Follows view.behaveOn readers writers (view.view shared') start := by
  have hevents := h.events
  have hshared := h.shared
  cases hstep with
  | @write values x endpoint dataInstance value hphase hwriter hvalue =>
    have howned := view.own_eq (endpoint, dataInstance) value shared
      (hown _ (List.mem_append_right _ (List.mem_of_getElem? hwriter)))
    rw [hwriters] at hwriter
    rw [hphase, HandlerPhase.rest_write (getElem?_of_pointers hwriter) hvalue, howned] at hevents
    rw [hphase, HandlerPhase.rest_write (getElem?_of_pointers hwriter) hvalue, howned] at hshared
    refine ⟨?_, hshared, fun values' x' hwrite => ?_⟩
    · refine Eq.trans ?_ hevents
      exact List.append_assoc _ [_] _
    · cases hwrite
      obtain ⟨request, hrequest, hlength⟩ := h.values _ _ hphase
      exact ⟨request, hrequest, hlength.trans (List.length_set ..).symm⟩
  | @read left endpoint dataInstance hphase hreader =>
    have howned := view.own_eq (endpoint, dataInstance) default shared
      (hown _ (List.mem_append_left _ (List.mem_of_getElem? hreader)))
    rw [hreaders] at hreader
    rw [hphase, HandlerPhase.rest_read (getElem?_of_pointers hreader), howned] at hevents
    rw [hphase, HandlerPhase.rest_read (getElem?_of_pointers hreader), howned] at hshared
    refine ⟨?_, hshared, fun values' x' hwrite => (by cases hwrite)⟩
    refine Eq.trans ?_ hevents
    exact List.append_assoc _ [_] _

theorem HandlerThread.Follows.goOn {behave : ε → ℤ → V → τ → V × τ} {seen start : τ}
    (h : thread.Follows behave readers writers seen start)
    (hreaders : thread.readers = pointers readers) (hwriters : thread.writers = pointers writers)
    (hstep : thread.goOn = some thread') :
    thread'.Follows behave readers writers seen start := by
  rw [HandlerThread.goOn] at hstep
  cases hphase : thread.phase with
  | write values x =>
    rw [hphase] at hstep
    dsimp only at hstep
    split_ifs at hstep with hend
    obtain rfl := Option.some.inj hstep
    rw [hwriters, pointers, List.length_map] at hend
    exact h.silent (.read []) (by rw [hphase, HandlerPhase.rest_write_end hend])
      (fun _ _ => by simp)
  | read left =>
    rw [hphase] at hstep
    dsimp only at hstep
    by_cases hend : thread.readers.length ≤ left.length
    · rw [if_pos hend] at hstep
      obtain rfl := Option.some.inj hstep
      rw [hreaders, pointers, List.length_map] at hend
      refine h.silent _ (by rw [hphase, HandlerPhase.rest_read_end hend]) (fun _ _ => ?_)
      cases thread.responds <;> simp
    · rw [if_neg hend] at hstep
      cases hstep
  | _ => simp [hphase] at hstep

theorem HandlerThread.Follows.respond {behave : ε → ℤ → V → τ → V × τ} {seen start : τ}
    (h : thread.Follows behave readers writers seen start) {sent : Bool}
    (hstep : thread.respond sent = some thread') :
    thread'.Follows behave readers writers seen start := by
  rw [HandlerThread.respond] at hstep
  cases hphase : thread.phase with
  | respond left =>
    rw [hphase] at hstep
    obtain rfl := Option.some.inj hstep
    have hevents := h.events
    have hshared := h.shared
    rw [hphase] at hevents hshared
    obtain ⟨phase, hafter, hnext⟩ : ∃ phase : HandlerPhase V,
        (if thread.handler.endsUnsent && !sent then .returned else .next) = phase ∧
          (phase = .returned ∨ phase = .next) := by
      refine ⟨_, rfl, ?_⟩
      split_ifs
      · exact .inl rfl
      · exact .inr rfl
    rw [hafter]
    rcases hnext with rfl | rfl
    · exact ⟨(List.append_nil _).trans hevents, hshared, fun _ _ hwrite => (by cases hwrite)⟩
    · exact ⟨(List.append_nil _).trans hevents, hshared, fun _ _ hwrite => (by cases hwrite)⟩
  | _ => simp [hphase] at hstep

/-- A step of the stream's own thread. -/
theorem HandlerThread.Follows.steps (view : EndpointView behave own τ) {start : τ}
    (h : thread.Follows view.behaveOn readers writers (view.view shared) start)
    (hreaders : thread.readers = pointers readers) (hwriters : thread.writers = pointers writers)
    (hown : ∀ e, thread.MayCall e → own e) (hstep : thread.Steps behave shared thread' shared') :
    thread'.Follows view.behaveOn readers writers (view.view shared') start := by
  cases hstep with
  | next hstep => exact h.next hstep
  | call hstep => exact h.called view hreaders hwriters hown hstep
  | goOn hstep => exact h.goOn hreaders hwriters hstep
  | respond hstep => exact h.respond hstep

/-- A step of another thread leaves the view. -/
theorem HandlerThread.Steps.other (view : EndpointView behave own τ)
    (h : thread.Steps behave shared thread' shared')
    (hother : ∀ e, thread.MayCall e → ¬ own e) : view.view shared' = view.view shared := by
  cases h with
  | call h => exact h.other view hother
  | _ => rfl

/-- The endpoints that are `own` are those of the stream `i`, which has done what it does alone.
It is the invariant of the runs that keep to `KeepsOwn`. -/
structure KeepsApart (view : EndpointView behave own τ) (i : ι) (initial : σ)
    (s : MonikerThreads ι σ ε V) : Prop where
  owned : ∀ j thread, s.thread j = some thread → ∀ e, thread.MayCall e → (own e ↔ j = i)
  unbegun : s.thread i = none → view.view s.shared = view.view initial
  follows : ∀ thread readers writers, s.thread i = some thread →
    thread.readers = pointers readers → thread.writers = pointers writers →
      thread.Follows view.behaveOn readers writers (view.view s.shared) (view.view initial)

theorem KeepsApart.move (view : EndpointView behave own τ) {a : MonikerThreadsStep ι ε V}
    (h : KeepsApart view i initial s) (hok : KeepsOwn own i s a)
    (hmove : ThreadsMove behave s a s') : KeepsApart view i initial s' := by
  cases hmove with
  | register => exact ⟨h.owned, h.unbegun, h.follows⟩
  | @begin j handler monikers hnone hbranch =>
    refine ⟨fun k thread hthread e he => ?_, fun hunbegun => ?_,
      fun thread readers writers hthread hreaders hwriters => ?_⟩
    · rcases update_some_eq_some_iff.mp hthread with ⟨rfl, rfl⟩ | ⟨-, hold⟩
      · exact hok e he
      · exact h.owned k thread hold e he
    · refine h.unbegun ?_
      by_cases hi : i = j
      · rw [hi]
        exact hnone
      · exact (Function.update_of_ne hi _ _).symm.trans hunbegun
    · rcases update_some_eq_some_iff.mp hthread with ⟨rfl, rfl⟩ | ⟨-, hold⟩
      · change HandlerThread.Follows _ _ _ _ (view.view s.shared) _
        rw [h.unbegun hnone]
        exact HandlerThread.follows_start view.behaveOn handler monikers s.endpoints _
      · exact h.follows thread readers writers hold hreaders hwriters
  | @thread _ j thread thread' shared hthread hstep =>
    have hsame := hstep.sameHandler
    have hcalls : ∀ e, thread'.MayCall e → thread.MayCall e := by
      intro e he
      rw [HandlerThread.MayCall, hsame.readers, hsame.writers] at he
      exact he
    refine ⟨fun k u hu e he => ?_, fun hunbegun => ?_,
      fun u readers writers hu hreaders hwriters => ?_⟩
    · rcases update_some_eq_some_iff.mp hu with ⟨rfl, rfl⟩ | ⟨-, hold⟩
      · exact h.owned k thread hthread e (hcalls e he)
      · exact h.owned k u hold e he
    · change Function.update s.thread j (some thread') i = none at hunbegun
      have hi : i ≠ j := by
        rintro rfl
        rw [Function.update_self] at hunbegun
        cases hunbegun
      rw [Function.update_of_ne hi] at hunbegun
      rw [← h.unbegun hunbegun]
      exact hstep.other view fun e he => (h.owned j thread hthread e he).not.mpr (Ne.symm hi)
    · rcases update_some_eq_some_iff.mp hu with ⟨rfl, rfl⟩ | ⟨hi, hold⟩
      · rw [hsame.readers] at hreaders
        rw [hsame.writers] at hwriters
        exact (h.follows thread readers writers hthread hreaders hwriters).steps view hreaders
          hwriters (fun e he => (h.owned i thread hthread e he).mpr rfl) hstep
      · change HandlerThread.Follows _ _ _ _ (view.view shared) _
        rw [hstep.other view fun e he => (h.owned j thread hthread e he).not.mpr (Ne.symm hi)]
        exact h.follows u readers writers hold hreaders hwriters

theorem keepsApart_of_reachable (view : EndpointView behave own τ)
    (h : (monikerThreads behave initial).Reachable (KeepsOwn own i) s) :
    KeepsApart view i initial s := by
  refine h.invariant (fun s hs => ?_) fun s a s' hs hok hnext =>
    hs.move view hok (threadsMove_of_next hnext)
  obtain ⟨hshared, hnone⟩ := hs
  refine ⟨fun j thread hthread => ?_, fun _ => congrArg view.view hshared,
    fun thread _ _ hthread => ?_⟩
  · rw [hnone] at hthread
    cases hthread
  · rw [hnone] at hthread
    cases hthread

/-! ### Names -/

omit [DecidableEq ι] [Inhabited V] in
/-- A name that has an endpoint keeps it. -/
theorem resolve_register {endpoints : Endpoints ε} {monikers : List Moniker} (endpointName : Bytes)
    (endpoint : ε) (h : Callable (resolve endpoints monikers)) :
    resolve (registerMonikerEndpoint endpointName endpoint endpoints) monikers =
      resolve endpoints monikers := by
  refine List.map_congr_left fun moniker hmoniker => ?_
  obtain ⟨old, hold⟩ := Option.isSome_iff_exists.mp (h _ (List.mem_map_of_mem hmoniker))
  refine Prod.ext ?_ rfl
  dsimp only at hold ⊢
  rw [registerMonikerEndpoint]
  by_cases hname : moniker.dataSource = endpointName
  · rw [← hname, Function.update_self, hold]
    rfl
  · rw [Function.update_of_ne hname]

/-- The thread began on its monikers: looked up again, they give the same endpoints. -/
structure HandlerThread.Began (endpoints : Endpoints ε) (thread : HandlerThread ε V) : Prop where
  clientFirst : thread.handler.clientFirst thread.monikers
  readers : Callable thread.readers →
    (start thread.handler thread.monikers endpoints : HandlerThread ε V).readers = thread.readers
  writers : Callable thread.writers →
    (start thread.handler thread.monikers endpoints : HandlerThread ε V).writers = thread.writers

omit [Inhabited V] in
theorem HandlerThread.Began.register {endpoints : Endpoints ε} (h : thread.Began endpoints)
    (endpointName : Bytes) (endpoint : ε) :
    thread.Began (registerMonikerEndpoint endpointName endpoint endpoints) := by
  refine ⟨h.clientFirst, fun hcallable => ?_, fun hcallable => ?_⟩
  · have hreaders := h.readers hcallable
    rw [← hreaders] at hcallable ⊢
    simp only [start, initiateMonikerList] at hcallable ⊢
    split_ifs at hcallable ⊢
    · rfl
    · exact resolve_register endpointName endpoint hcallable
  · have hwriters := h.writers hcallable
    rw [← hwriters] at hcallable ⊢
    simp only [start, initiateMonikerList] at hcallable ⊢
    split_ifs at hcallable ⊢
    · rfl
    · exact resolve_register endpointName endpoint hcallable

theorem began_of_reachable {ok : MonikerThreads ι σ ε V → MonikerThreadsStep ι ε V → Prop}
    (h : (monikerThreads behave initial).Reachable ok s) (hthread : s.thread i = some thread) :
    thread.Began s.endpoints := by
  refine h.invariant (I := fun s => ∀ i thread, s.thread i = some thread →
    thread.Began s.endpoints) (fun s hs i thread hthread => ?_)
    (fun s a s' hs _ hnext i thread hthread => ?_) i thread hthread
  · rw [hs.2] at hthread
    cases hthread
  · cases threadsMove_of_next hnext with
    | register => exact (hs i thread hthread).register _ _
    | begin hnone hbranch =>
      rcases update_some_eq_some_iff.mp hthread with ⟨rfl, rfl⟩ | ⟨-, hold⟩
      · exact ⟨hbranch, fun _ => rfl, fun _ => rfl⟩
      · exact hs i thread hold
    | thread hbefore hstep =>
      rcases update_some_eq_some_iff.mp hthread with ⟨rfl, rfl⟩ | ⟨-, hold⟩
      · have hsame := hstep.sameHandler
        have hbegan := hs _ _ hbefore
        refine ⟨?_, fun hcallable => ?_, fun hcallable => ?_⟩
        · rw [hsame.handler, hsame.monikers]
          exact hbegan.clientFirst
        · rw [hsame.readers] at hcallable ⊢
          rw [hsame.handler, hsame.monikers]
          exact hbegan.readers hcallable
        · rw [hsame.writers] at hcallable ⊢
          rw [hsame.handler, hsame.monikers]
          exact hbegan.writers hcallable
      · exact hs i thread hold

/-! ### What a thread waits for -/

omit [DecidableEq ι] [Inhabited V] in
theorem callable_pointers (found : List (ε × ℤ)) : Callable (pointers found) := by
  intro e he
  obtain ⟨e', -, rfl⟩ := List.mem_map.mp he
  rfl

/-- A thread that calls endpoints has one to call, or goes on. -/
theorem HandlerThread.isSome_call_or_goOn (behave : ε → ℤ → V → σ → V × σ)
    (hreaders : thread.readers = pointers readers) (hwriters : thread.writers = pointers writers)
    (hphase : (∃ values x, thread.phase = .write values x ∧ writers.length ≤ values.length) ∨
      ∃ left, thread.phase = .read left) :
    (thread.call behave shared).isSome ∨ thread.goOn.isSome := by
  rcases hphase with ⟨values, x, hphase, hvalues⟩ | ⟨left, hphase⟩
  · by_cases hend : thread.writers.length ≤ x
    · refine .inr ?_
      rw [goOn, hphase]
      dsimp only
      rw [if_pos hend]
      rfl
    · refine .inl ?_
      rw [hwriters, pointers, List.length_map, not_le] at hend
      rw [call, hphase]
      dsimp only
      rw [hwriters, pointers, List.getElem?_map, List.getElem?_eq_getElem hend,
        List.getElem?_eq_getElem (hend.trans_le hvalues)]
      rfl
  · by_cases hend : thread.readers.length ≤ left.length
    · refine .inr ?_
      rw [goOn, hphase]
      dsimp only
      rw [if_pos hend]
      rfl
    · refine .inl ?_
      rw [hreaders, pointers, List.length_map, not_le] at hend
      rw [call, hphase]
      dsimp only
      rw [hreaders, pointers, List.getElem?_map, List.getElem?_eq_getElem hend]
      rfl

/-- With a value for each writer, a thread waits for nothing but its client. -/
theorem HandlerThread.Follows.goesOn {behave' : ε → ℤ → V → τ → V × τ} {seen start : τ}
    (h : thread.Follows behave' readers writers seen start) (hthread : s.thread i = some thread)
    (hreaders : thread.readers = pointers readers) (hwriters : thread.writers = pointers writers)
    (hvalues : ∀ values ∈ thread.requests, writers.length ≤ values.length)
    (hreturned : thread.phase ≠ .returned) :
    ∃ a ∈ [MonikerThreadsStep.next i none, .call i, .goOn i, .respond i true],
      ((monikerThreads behave initial).next s a).isSome := by
  have hupdate : ∀ step : HandlerThread ε V → Option (HandlerThread ε V),
      (step thread).isSome → (s.update i step).isSome := by
    intro step hstep
    obtain ⟨thread', hthread'⟩ := Option.isSome_iff_exists.mp hstep
    rw [MonikerThreads.update, hthread, Option.bind_some, hthread']
    rfl
  have hcalls : (thread.call behave s.shared).isSome ∨ thread.goOn.isSome →
      ∃ a ∈ [MonikerThreadsStep.next i none, .call i, .goOn i, .respond i true],
        ((monikerThreads behave initial).next s a).isSome := by
    rintro (hcall | hgoOn)
    · obtain ⟨⟨thread', shared⟩, hcalled⟩ := Option.isSome_iff_exists.mp hcall
      refine ⟨.call i, by simp, ?_⟩
      rw [monikerThreads]
      dsimp only
      rw [hthread, Option.bind_some, hcalled]
      rfl
    · exact ⟨.goOn i, by simp, hupdate _ hgoOn⟩
  cases hphase : thread.phase with
  | next =>
    refine ⟨.next i none, by simp, hupdate _ ?_⟩
    unfold HandlerThread.next
    rw [hphase]
    rfl
  | write values x =>
    obtain ⟨request, hrequest, hlength⟩ := h.values values x hphase
    exact hcalls (HandlerThread.isSome_call_or_goOn behave hreaders hwriters
      (.inl ⟨values, x, hphase, (hvalues request hrequest).trans_eq hlength⟩))
  | read left =>
    exact hcalls (HandlerThread.isSome_call_or_goOn behave hreaders hwriters (.inr ⟨left, hphase⟩))
  | respond left =>
    refine ⟨.respond i true, by simp, hupdate _ ?_⟩
    rw [HandlerThread.respond, hphase]
    rfl
  | returned => exact absurd hphase hreturned

end Apart

end Concurrent

end Sideband
