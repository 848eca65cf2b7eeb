import Sideband.Foundation.Loop
import Sideband.Moniker.Messages
import Mathlib.Logic.Function.Basic

/-!
# The moniker service

`MonikerServiceImpl`: the registered endpoints, the lookup of a moniker list, and the handlers that
call the endpoints, over the sideband (`runSidebandReadWriteLoop`) and over a gRPC stream
(`streamReadWrite`, `streamRead`, `streamWrite`).

An endpoint is a function of the instance, the value and a state `σ` that all endpoints share; it
leaves the value it was given as it wants it, and its `Status` is not looked at. `MonikerState`
records the calls and the responses in the order in which they happen. Calling a null pointer and
taking a value that is not there stop a handler with `Stop.outOfBounds`.

The handlers run for as long as their client wants them to, so each loop has a bound on its rounds;
the result says whether the handler has returned.
-/

namespace Sideband

open Foundation

/-! ### Endpoints -/

/-- An `EndpointInstance`: the pointer to the endpoint, which may be null, and the instance. The
pointer is that of the lookup, and is not looked at before the call. -/
abbrev EndpointInstance (ε : Type) := Option ε × ℤ

abbrev EndpointList (ε : Type) := List (EndpointInstance ε)

/-- `_endpoints`, the map from names to endpoints. Nothing is ever taken out of it. -/
abbrev Endpoints (ε : Type) := Bytes → Option ε

section Registration

variable {ε : Type}

/-- `RegisterMonikerEndpoint`: `emplace` keeps the endpoint that a name has. -/
def registerMonikerEndpoint (endpointName : Bytes) (endpoint : ε) (endpoints : Endpoints ε) :
    Endpoints ε :=
  Function.update endpoints endpointName (some ((endpoints endpointName).getD endpoint))

/-- The endpoints after registrations one after the other. -/
def registerAll (registrations : List (Bytes × ε)) : Endpoints ε :=
  registrations.foldl (fun endpoints r => registerMonikerEndpoint r.1 r.2 endpoints) fun _ => none

/-- One of the two loops of `InitiateMonikerList`. A name that is not registered gives a null
pointer. -/
def resolve (endpoints : Endpoints ε) (monikers : List Moniker) : EndpointList ε :=
  monikers.map fun moniker => (endpoints moniker.dataSource, moniker.dataInstance)

/-- `InitiateMonikerList`: the readers and the writers. A name that is not registered gives a
null pointer in its place. -/
def initiateMonikerList (endpoints : Endpoints ε) (monikers : MonikerList) :
    EndpointList ε × EndpointList ε :=
  (resolve endpoints monikers.readMonikers, resolve endpoints monikers.writeMonikers)

end Registration

/-! ### Calling endpoints -/

/-- What can be seen of a handler: the calls that it makes on endpoints, and the responses that
it sends. -/
inductive MonikerEvent (ε V : Type)
  | call (endpoint : ε) (dataInstance : ℤ) (value : V)
  | respond (values : List V)
  /-- `CloseSidebandData`. -/
  | close
  deriving DecidableEq, Repr

/-- What a handler runs on: the state of the endpoints, what has happened, and its transport. The
record is looked at by nobody. -/
structure MonikerState (σ ε V τ : Type) where
  shared : σ
  events : List (MonikerEvent ε V) := []
  transport : τ
  deriving DecidableEq, Repr

section Handlers

variable {σ ε V τ α : Type} (behave : ε → ℤ → V → σ → V × σ)

/-- Call the endpoint on a value: the value it leaves. An endpoint returns, and its calls do not
interfere with each other; what threads do to each other between two calls is the matter of
`monikerThreads`. -/
def callEndpoint (e : EndpointInstance ε) (value : V) : Exec (MonikerState σ ε V τ) V :=
  match e with
  -- the lookup of the moniker's name gave a null pointer, which is called
  | (none, _) => throw .outOfBounds
  | (some endpoint, dataInstance) => do
    let (left, shared) := behave endpoint dataInstance value (← get).shared
    modify fun s => { s with shared, events := s.events ++ [.call endpoint dataInstance value] }
    return left

/-- A loop that calls the endpoints on the values from index `x` on. What an endpoint leaves is
written back, through the `const_cast` of the source where the values are those of a request. -/
def callIndexed : EndpointList ε → ℕ → List V → Exec (MonikerState σ ε V τ) (List V)
  | [], _, values => return values
  | e :: endpoints, x, values => do
    -- `values(x)` and `mutable_values(x)` do not check the index
    let value ← Exec.checked values[x]?
    let left ← callEndpoint behave e value
    callIndexed endpoints (x + 1) (values.set x left)

/-- A loop that adds a value to the message for each endpoint, and calls the endpoint on it. A
null pointer ends it out of bounds. -/
def callAdding [Inhabited V] : EndpointList ε → List V → Exec (MonikerState σ ε V τ) (List V)
  | [], values => return values
  | e :: endpoints, values => do
    let left ← callEndpoint behave e default
    callAdding endpoints (values ++ [left])

/-- The submessage of a response is there once a loop has asked for it. Without an endpoint
nothing asks, and the response stays empty. -/
def asked (readers : EndpointList ε) (values : List V) : Option (List V) :=
  if readers = [] then none else some values

/-- Run a call of the transport. -/
def onTransport (x : Exec τ α) : Exec (MonikerState σ ε V τ) α :=
  Exec.zoom MonikerState.transport (fun t s => { s with transport := t }) x

/-- Record a response. It is recorded when the handler has handed it to the transport, whatever
comes of it. -/
def responded (values : List V) : Exec (MonikerState σ ε V τ) Unit :=
  modify fun s => { s with events := s.events ++ [.respond values] }

/-! ### Over the sideband -/

/-- The messages of a sideband stream, by its token: `ReadSidebandMessage`, with the message if
it returned true, and `WriteSidebandMessage`. Each transport is one, and a queue of frames is
another. -/
structure MessageChannel (τ V : Type) where
  read : Exec τ (Option (SidebandWriteRequest V))
  write : SidebandReadResponse V → Exec τ ℤ

variable (T : MessageChannel τ V)

/-- The response of the client-first branch. -/
def sidebandClientFirstResponse [Inhabited V] (readers : EndpointList ε) :
    Exec (MonikerState σ ε V τ) (SidebandReadResponse V) := do
  return { values? := asked readers (← callAdding behave readers []) }

/-- The response of the server-first branch: `mutable_values(x++)` on a new message, which has no
values yet. -/
def sidebandServerFirstResponse (readers : EndpointList ε) :
    Exec (MonikerState σ ε V τ) (SidebandReadResponse V) := do
  return { values? := asked readers (← callIndexed behave readers 0 []) }

/-- Send a response: `WriteSidebandMessage` returns the number of its bytes, and the loop takes
`0` for a failure. -/
def writeSidebandResponse (response : SidebandReadResponse V) :
    Exec (MonikerState σ ε V τ) ℤ := do
  let byteSize ← onTransport (T.write response)
  responded response.values
  return byteSize

/-- A round of the client-first branch: read a request, call the writers, and answer if there is
a reader. It leaves the loop at a failed read and at a request that cancels. -/
def sidebandClientFirst [Inhabited V] (readers writers : EndpointList ε) (_ : Unit) :
    Exec (MonikerState σ ε V τ) (Option Unit) := do
  match ← onTransport T.read with
  | none => return none
  | some writeRequest =>
    if writeRequest.cancel then return none
    else
      let _ ← callIndexed behave writers 0 writeRequest.values
      if readers.length > 0 then
        let readResult ← sidebandClientFirstResponse behave readers
        let byteSize ← writeSidebandResponse T readResult
        return if byteSize = 0 then none else some ()
      else return some ()

/-- A round of the server-first branch: answer, and then read a request for the writers, if there
are any. -/
def sidebandServerFirst (readers writers : EndpointList ε) (_ : Unit) :
    Exec (MonikerState σ ε V τ) (Option Unit) := do
  let readResult ← sidebandServerFirstResponse behave readers
  let byteSize ← writeSidebandResponse T readResult
  if byteSize = 0 then return none
  else if writers.length > 0 then
    match ← onTransport T.read with
    | none => return none
    | some writeRequest =>
      if writeRequest.cancel then return none
      else
        let _ ← callIndexed behave writers 0 writeRequest.values
        return some ()
  else return some ()

/-- `RunSidebandReadWriteLoop`, after `GetOwnerSidebandDataToken`: at most `rounds` rounds of the
loop, and whether it has ended. Only then is the handle closed. -/
def runSidebandReadWriteLoop [Inhabited V] (readers writers : EndpointList ε)
    (initialClientWrite : Bool) (rounds : ℕ) : Exec (MonikerState σ ε V τ) Bool := do
  let running ←
    if initialClientWrite then Exec.loop (sidebandClientFirst behave T readers writers) rounds ()
    else Exec.loop (sidebandServerFirst behave T readers writers) rounds ()
  if running.isSome then return false
  else
    modify fun s => { s with events := s.events ++ [.close] }
    return true

/-! ### Over a gRPC stream -/

/-- A gRPC call as its handler sees it: the messages until the stream ends, and how often
`IsCancelled` will say that the context is not cancelled. What is written to the stream is
recorded by the handler; whether the client gets it is left out. -/
structure GrpcStream (V : Type) where
  incoming : List (MonikerWriteRequest V)
  uncancelled : ℕ
  deriving DecidableEq, Repr

/-- `stream->Read(&request)`: the message if it returned true. -/
def GrpcStream.read : Exec (GrpcStream V) (Option (MonikerWriteRequest V)) := do
  let stream ← get
  match stream.incoming with
  | [] => return none
  | request :: incoming =>
    set { stream with incoming }
    return some request

/-- `context->IsCancelled()`, which is false `uncancelled` times, and true from then on. -/
def GrpcStream.isCancelled : Exec (GrpcStream V) Bool := do
  let stream ← get
  match stream.uncancelled with
  | 0 => return true
  | uncancelled + 1 =>
    set { stream with uncancelled }
    return false

variable [Inhabited V]

/-- The response of the client-first branch of `StreamReadWrite`. -/
def streamClientFirstResponse (readers : EndpointList ε) :
    Exec (MonikerState σ ε V τ) (MonikerReadResult V) := do
  return { data? := asked readers (← callAdding behave readers []) }

/-- The response of the server-first branch of `StreamReadWrite`: `mutable_values(x++)` on a new
message. -/
def streamServerFirstResponse (readers : EndpointList ε) :
    Exec (MonikerState σ ε V τ) (MonikerReadResult V) := do
  return { data? := asked readers (← callIndexed behave readers 0 []) }

/-- The response of `StreamRead`. -/
def streamReadResponse (readers : EndpointList ε) :
    Exec (MonikerState σ ε V τ) (MonikerReadResult V) := do
  return { data? := asked readers (← callAdding behave readers []) }

/-- A round of the client-first branch of `StreamReadWrite`: read a data message, call the
writers, and answer, also without a reader. -/
def streamClientFirst (readers writers : EndpointList ε) (_ : Unit) :
    Exec (MonikerState σ ε V (GrpcStream V)) (Option Unit) := do
  match ← onTransport GrpcStream.read with
  | none => return none
  | some writeRequest =>
    if ← onTransport GrpcStream.isCancelled then return none
    else
      let _ ← callIndexed behave writers 0 writeRequest.values
      let readResult ← streamClientFirstResponse behave readers
      responded readResult.values
      return some ()

/-- A round of the server-first branch of `StreamReadWrite`, on the request that was read last: the
branch reads no other. -/
def streamServerFirst (readers writers : EndpointList ε) (writeRequest : MonikerWriteRequest V) :
    Exec (MonikerState σ ε V (GrpcStream V)) (Option (MonikerWriteRequest V)) := do
  if ← onTransport GrpcStream.isCancelled then return none
  else
    let readResult ← streamServerFirstResponse behave readers
    responded readResult.values
    -- the request is still the one that opened the stream
    let values ← callIndexed behave writers 0 writeRequest.values
    return some (writeRequest.setValues values)

/-- `StreamReadWrite`: the first message has the moniker list, and the loop takes the others. A
request that could not be read has no field set. -/
def streamReadWrite (endpoints : Endpoints ε) (rounds : ℕ) :
    Exec (MonikerState σ ε V (GrpcStream V)) Bool := do
  let writeRequest := (← onTransport GrpcStream.read).getD {}
  let (readers, writers) := initiateMonikerList endpoints writeRequest.monikers
  if writeRequest.monikers.isInitialWrite then
    return (← Exec.loop (streamClientFirst behave readers writers) rounds ()).isNone
  else
    return (← Exec.loop (streamServerFirst behave readers writers) rounds writeRequest).isNone

/-- A round of `StreamRead`: answer, and go on until the stream is cancelled. It reads no message
after the first. -/
def streamReadRound (readers : EndpointList ε) (_ : Unit) :
    Exec (MonikerState σ ε V (GrpcStream V)) (Option Unit) := do
  if ← onTransport GrpcStream.isCancelled then return none
  else
    let readResult ← streamReadResponse behave readers
    responded readResult.values
    return some ()

/-- `StreamRead`: it reads for as long as the context is not cancelled, and nothing that the
client sends stops it. -/
def streamRead (endpoints : Endpoints ε) (request : MonikerList) (rounds : ℕ) :
    Exec (MonikerState σ ε V (GrpcStream V)) Bool := do
  let (readers, _) := initiateMonikerList endpoints request
  return (← Exec.loop (streamReadRound behave readers) rounds ()).isNone

omit [Inhabited V] in
/-- A round of `StreamWrite`: read a data message and call the writers. It sends nothing. -/
def streamWriteRound (writers : EndpointList ε) (_ : Unit) :
    Exec (MonikerState σ ε V (GrpcStream V)) (Option Unit) := do
  match ← onTransport GrpcStream.read with
  | none => return none
  | some writeRequest =>
    if ← onTransport GrpcStream.isCancelled then return none
    else
      let _ ← callIndexed behave writers 0 writeRequest.values
      return some ()

/-- `StreamWrite`: the first message has the moniker list, and every other one is written until the
stream ends or the context is cancelled. -/
def streamWrite (endpoints : Endpoints ε) (rounds : ℕ) :
    Exec (MonikerState σ ε V (GrpcStream V)) Bool := do
  let writeRequest := (← onTransport GrpcStream.read).getD {}
  let (_, writers) := initiateMonikerList endpoints writeRequest.monikers
  return (← Exec.loop (streamWriteRound behave writers) rounds ()).isNone

end Handlers

end Sideband
