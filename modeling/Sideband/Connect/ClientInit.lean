import Sideband.Connect.Address
import Sideband.Registry.Handles
import Sideband.Sockets.Tearing

/-!
# A client's connection that fails

`Registry.initClientSidebandData` takes what connecting yields as an argument. Here `Network` says
what `getaddrinfo`, `socket`, `connect`, `send` and easyrdma answer, and
`Registry.initClientSidebandDataOn` goes the way of the source to the return code. Nothing on that
way tells the caller of a failure: `ConnectToSocket` returns nothing, and the results of easyrdma
are printed.

* `CompleteOrNot`: the call has created a handle whose peer was reached, or has failed and changed
  nothing.
* `completeOrNot_iff`: it is so where the strategy is handled, its connection is made and takes the
  whole id, and the id is new; and where a `send` waits for ever.
* `initClientSidebandDataOn_eq`: with its object, the call goes on as one that has connected.
-/

namespace Sideband

open Foundation

/-! ### What the network answers -/

/-- `INVALID_SOCKET`, where the system does not define it. The system's own error value is `-1`,
and `0` is a descriptor. -/
def invalidSocket : ℤ := 0

/-- One address that `getaddrinfo` finds, with what becomes of it if it is tried. Names that
resolve to the same peer are candidates of their own. -/
structure Candidate where
  /-- What `socket` returns for it. -/
  socket : ℤ
  /-- Whether `connect` to it succeeds. -/
  connects : Bool
  /-- The connection that `connect` makes. -/
  connection : Connection
  /-- No connection is made with the error code of `socket`. -/
  isSocket : connects = true → 0 ≤ socket
  /-- Nothing has been sent. -/
  unsent : connection.outgoing = []
  /-- One `send` accepts less than 2 GiB. -/
  counts : ∀ k, SendEvent.accept k ∈ connection.sends → k < 2 ^ 31

/-- What the calls of a client answer. The answers are functions of what is asked, and any are
possible. -/
structure Network where
  /-- For an address and a port; `none` where it fails. -/
  getaddrinfo : List Char → List Char → Option (List Candidate)
  /-- `easyrdma_CreateConnectorSession`; `none` where it leaves `easyrdma_InvalidSession`. -/
  createConnectorSession : Direction → Option ℕ
  /-- Whether `easyrdma_Connect` succeeds for the session of the direction. -/
  connect : Direction → List Char → ℕ → Bool

/-- Why a call did not return. -/
inductive InitFailure
  | stopped (e : Stop)
  /-- `std::stoi` has thrown. -/
  | thrown
  deriving DecidableEq, Repr

/-- The value of an enumerator, as the client of the C interface passes it. Other integers are no
strategy, and the `switch` falls to its default. -/
def SidebandStrategy.ofValue : ℤ → Option SidebandStrategy
  | 0 => some .unknown
  | 1 => some .grpc
  | 2 => some .sharedMemory
  | 3 => some .doubleBufferedSharedMemory
  | 4 => some .sockets
  | 5 => some .socketsLowLatency
  | 6 => some .hypervisorSockets
  | 7 => some .rdma
  | 8 => some .rdmaLowLatency
  | _ => none

/-! ### The calls -/

/-- `tokens[i]`, which the source does not check against the number of tokens. -/
def urlToken (tokens : List (List Char)) (i : ℕ) : Except InitFailure (List Char) :=
  tokens[i]?.getDM (throw (.stopped .outOfBounds))

namespace SocketSidebandData

/-- The loop of `ConnectToSocket`. Where `socket` returns `INVALID_SOCKET` the call is over, as it
is after the loop with that value in `_socket`. -/
def connectToCandidates : List Candidate → SocketSidebandData → SocketSidebandData
  | [], h => h
  | current :: candidates, h =>
    let h := { h with socket := current.socket }
    if h.socket = invalidSocket then h
    else if current.connects then { h with connection := current.connection }
    else connectToCandidates candidates { h with socket := invalidSocket }

/-- `ConnectToSocket`. The result of `setsockopt` is not looked at, and whichever way it ends the
function returns nothing. -/
def connectToSocket (net : Network) (address port : List Char) (usageId : Bytes) :
    Exec SocketSidebandData Unit := do
  match net.getaddrinfo address port with
  | none => return
  | some candidates =>
    modify (connectToCandidates candidates)
    if (← get).socket = invalidSocket then
      return
    sendUsageId usageId

/-- `SocketSidebandData::ClientInit`. The handle is returned whether or not its socket was
connected. -/
def clientInit (net : Network) (sidebandServiceUrl : List Char) (usageId : Bytes) (bufferSize : ℤ)
    (lowLatency : Bool) : Except InitFailure (SidebandData SocketSidebandData) := do
  let tokens := splitUrlString sidebandServiceUrl
  let sidebandData : SocketSidebandData :=
    { id := usageId, socket := invalidSocket, lowLatency, connection := {} }
  let address ← urlToken tokens 0
  let port ← urlToken tokens 1
  match (connectToSocket net address port usageId).run sidebandData with
  | .ok (_, sidebandData) => return .new bufferSize.toNat sidebandData
  | .error e => throw (.stopped e)

end SocketSidebandData

/-- `RdmaSidebandData::ClientInit`, up to `ClientInitFromConnection`. What `easyrdma_Connect`
returns is printed, and the object is made of the sessions as they are. -/
def rdmaClientObject (net : Network) (sidebandServiceUrl : List Char) (lowLatency : Bool)
    (usageId : Bytes) (bufferSize : ℤ) : Except InitFailure RdmaHandle := do
  let tokens := splitUrlString sidebandServiceUrl
  let clientReadSession := net.createConnectorSession .receive
  let address ← urlToken tokens 0
  let port ← (stoi (← urlToken tokens 1)).getDM (throw .thrown)
  let _ := net.connect .receive address (toPort port)
  let clientWriteSession := net.createConnectorSession .send
  let _ := net.connect .send address (toPort (port + 1))
  return ⟨usageId, clientWriteSession, clientReadSession, lowLatency, bufferSize.toNat⟩

/-- The `switch` of `InitClientSidebandData`: `sidebandData`, null where no case handles the
strategy, and `insert`. -/
def constructClient (net : Network) (sidebandServiceUrl : List Char) (strategy : ℤ)
    (usageId : Bytes) (bufferSize : ℤ) : Except InitFailure (Option SidebandObject × Bool) := do
  match SidebandStrategy.ofValue strategy with
  | some .sharedMemory => return (some (.sharedMemory (.new usageId bufferSize)), true)
  | some .doubleBufferedSharedMemory =>
    return (some (.doubleBuffered (.new usageId bufferSize)), true)
  | some .sockets =>
    let o ← SocketSidebandData.clientInit net sidebandServiceUrl usageId bufferSize false
    return (some (.sockets o), true)
  | some .socketsLowLatency =>
    let o ← SocketSidebandData.clientInit net sidebandServiceUrl usageId bufferSize true
    return (some (.sockets o), true)
  | some .rdma =>
    let o ← rdmaClientObject net sidebandServiceUrl false usageId bufferSize
    return (some (.rdma o), false)
  | some .rdmaLowLatency =>
    let o ← rdmaClientObject net sidebandServiceUrl true usageId bufferSize
    return (some (.rdma o), false)
  | _ => return (none, true)

namespace Registry

/-- `InitClientSidebandData`: the return code, and `out_tokenId` if it was set. It has one return
statement, so every call that gets there returns `0`. -/
def initClientSidebandDataOn (net : Network) (sidebandServiceUrl : List Char) (strategy : ℤ)
    (usageId : Bytes) (bufferSize : ℤ) (r : Registry) :
    Except InitFailure ((ℤ × Option ℕ) × Registry) := do
  let usageId := cString usageId
  let (sidebandData, insert) ← constructClient net sidebandServiceUrl strategy usageId bufferSize
  match sidebandData with
  | none => return ((0, some 0), if insert then r.emplace usageId 0 else r)
  | some o =>
    let token := r.nextToken
    let r := r.create o
    -- where the object is not inserted here, `ClientInitFromConnection` has registered it
    let r := if insert then r.emplace usageId token else r.registerSidebandData token o
    return ((0, some token), r)

/-- What is gained with a handle, and that nothing else changes: the object, and its entry under
an id that was not in the map. -/
structure Gains (r r' : Registry) (usageId : Bytes) (token : ℕ) (o : SidebandObject) : Prop where
  objects : r'.objects = Function.update r.objects token (some o)
  missing : r.buffers.lookup usageId = none
  lookup : r'.buffers.lookup usageId = some token
  others : ∀ other, other ≠ usageId → r'.buffers.lookup other = r.buffers.lookup other
  nextId : r'.nextId = r.nextId

end Registry

/-! ### What is asked of it -/

/-- The candidates are those that the host and the port of the url lead to, in the order in which
`getaddrinfo` lists them. -/
def Network.Finds (net : Network) (sidebandServiceUrl : List Char) (candidates : List Candidate) :
    Prop :=
  ∃ address port rest, splitUrlString sidebandServiceUrl = address :: port :: rest ∧
    net.getaddrinfo address port = some candidates

/-- Both RDMA sessions are made and connected. -/
def Network.ConnectsRdma (net : Network) (sidebandServiceUrl : List Char)
    (writeSession readSession : ℕ) : Prop :=
  ∃ address service rest port, splitUrlString sidebandServiceUrl = address :: service :: rest ∧
    stoi service = some port ∧ net.createConnectorSession .receive = some readSession ∧
    net.connect .receive address (toPort port) = true ∧
    net.createConnectorSession .send = some writeSession ∧
    net.connect .send address (toPort (port + 1)) = true

/-- The socket is that of a connection to one of the candidates, and the whole usage id is on it. -/
def Network.ReachesSocket (net : Network) (sidebandServiceUrl : List Char) (usageId : Bytes)
    (socket : ℤ) (connection : Connection) : Prop :=
  ∃ candidates candidate, net.Finds sidebandServiceUrl candidates ∧ candidate ∈ candidates ∧
    candidate.connects = true ∧ socket = candidate.socket ∧ 0 < socket ∧
    connection.outgoing = usageId

/-- The peer of the connection was reached, and was told the whole usage id where the connection
is what tells it. Shared memory has no peer, and no id is sent to the one of RDMA. Whether the
peer accepts is left out. -/
def Network.Reaches (net : Network) (sidebandServiceUrl : List Char) (usageId : Bytes)
    (c : Connected) : SidebandStrategy → Prop
  | .sharedMemory | .doubleBufferedSharedMemory => True
  | .sockets | .socketsLowLatency =>
    net.ReachesSocket sidebandServiceUrl usageId c.socket c.connection
  | .rdma | .rdmaLowLatency => net.ConnectsRdma sidebandServiceUrl c.writeSession c.readSession
  | _ => False

/-- The call has created a handle: the strategy is one that is handled, the peer was reached, and
the registry gains the handle under the token that was given out. -/
def Creates (net : Network) (sidebandServiceUrl : List Char) (strategy : ℤ) (usageId : Bytes)
    (bufferSize : ℤ) (r : Registry) (outTokenId : Option ℕ) (r' : Registry) : Prop :=
  ∃ s c o token, SidebandStrategy.ofValue strategy = some s ∧ outTokenId = some token ∧
    net.Reaches sidebandServiceUrl usageId c s ∧ clientObject s usageId bufferSize c = some o ∧
    r.Gains r' usageId token o

/-- A call that returns has created a handle and returns `0`, or returns another code, gives out
no token and leaves the registry as it was. Of a call that waits nothing is asked; one that
throws or leaves its memory does not meet it. -/
def CompleteOrNot (net : Network) (sidebandServiceUrl : List Char) (strategy : ℤ)
    (usageId : Bytes) (bufferSize : ℤ) (r : Registry) : Prop :=
  match r.initClientSidebandDataOn net sidebandServiceUrl strategy usageId bufferSize with
  | .ok ((code, outTokenId), r') =>
    (code = 0 ∧
      Creates net sidebandServiceUrl strategy (cString usageId) bufferSize r outTokenId r') ∨
    (code ≠ 0 ∧ outTokenId = none ∧ r' = r)
  | .error (.stopped .blocked) => True
  | .error _ => False

/-! ### When it is so -/

/-- The candidate that `ConnectToSocket` connects to: those before it refuse, and `socket` returns
no `INVALID_SOCKET` for them or for it. -/
def FirstToConnect (candidates : List Candidate) (candidate : Candidate) : Prop :=
  ∃ before after, candidates = before ++ candidate :: after ∧
    (∀ c ∈ before, c.socket ≠ invalidSocket ∧ c.connects = false) ∧
    candidate.socket ≠ invalidSocket ∧ candidate.connects = true

/-- The url leads to a candidate that is connected to. -/
def Network.Peer (net : Network) (sidebandServiceUrl : List Char) (candidate : Candidate) : Prop :=
  ∃ candidates, net.Finds sidebandServiceUrl candidates ∧ FirstToConnect candidates candidate

/-- The outcomes of `send` take the whole id, in however many pieces. -/
def Network.AcceptsSocket (net : Network) (sidebandServiceUrl : List Char) (usageId : Bytes) :
    Prop :=
  ∃ candidate, net.Peer sidebandServiceUrl candidate ∧
    ∃ sends, sendAll usageId.length candidate.connection.sends = .whole sends

/-- A `send` of the id waits. -/
def Network.StallsSocket (net : Network) (sidebandServiceUrl : List Char) (usageId : Bytes) :
    Prop :=
  ∃ candidate, net.Peer sidebandServiceUrl candidate ∧
    sendAll usageId.length candidate.connection.sends = .waits

/-- The connection of the strategy is made, and takes the whole id. Shared memory has no
connection to make. -/
def Network.Accepts (net : Network) (sidebandServiceUrl : List Char) (usageId : Bytes) :
    SidebandStrategy → Prop
  | .sharedMemory | .doubleBufferedSharedMemory => True
  | .sockets | .socketsLowLatency => net.AcceptsSocket sidebandServiceUrl usageId
  | .rdma | .rdmaLowLatency =>
    ∃ writeSession readSession, net.ConnectsRdma sidebandServiceUrl writeSession readSession
  | _ => False

/-- The call does not return, because a `send` of the id has no outcome. -/
def Network.Stalls (net : Network) (sidebandServiceUrl : List Char) (usageId : Bytes) :
    SidebandStrategy → Prop
  | .sockets | .socketsLowLatency => net.StallsSocket sidebandServiceUrl usageId
  | _ => False

/-! ### The loop over the candidates -/

section Candidates

variable {candidates : List Candidate} {candidate : Candidate} {h : SocketSidebandData}

namespace FirstToConnect

theorem mem (hfirst : FirstToConnect candidates candidate) : candidate ∈ candidates := by
  obtain ⟨before, after, rfl, -⟩ := hfirst
  simp

theorem connects (hfirst : FirstToConnect candidates candidate) : candidate.connects = true := by
  obtain ⟨-, -, -, -, -, hconnects⟩ := hfirst
  exact hconnects

theorem socket_pos (hfirst : FirstToConnect candidates candidate) : 0 < candidate.socket := by
  obtain ⟨-, -, -, -, hsocket, hconnects⟩ := hfirst
  exact lt_of_le_of_ne (candidate.isSocket hconnects) (Ne.symm hsocket)

/-- The first to connect behind one that refuses. -/
theorem cons {current : Candidate} (hsocket : current.socket ≠ invalidSocket)
    (hrefuses : current.connects = false) (hfirst : FirstToConnect candidates candidate) :
    FirstToConnect (current :: candidates) candidate := by
  obtain ⟨before, after, rfl, hbefore, hcandidate⟩ := hfirst
  refine ⟨current :: before, after, rfl, ?_, hcandidate⟩
  rw [List.forall_mem_cons]
  exact ⟨⟨hsocket, hrefuses⟩, hbefore⟩

end FirstToConnect

namespace SocketSidebandData

/-- The loop ends with the first candidate that connects. -/
theorem connectToCandidates_of_first (hfirst : FirstToConnect candidates candidate) :
    connectToCandidates candidates h =
      { h with socket := candidate.socket, connection := candidate.connection } := by
  obtain ⟨before, after, rfl, hbefore, hsocket, hconnects⟩ := hfirst
  induction before generalizing h with
  | nil =>
    rw [List.nil_append, connectToCandidates]
    dsimp only
    rw [if_neg hsocket, if_pos hconnects]
  | cons current before ih =>
    rw [List.forall_mem_cons] at hbefore
    obtain ⟨⟨hcurrent, hrefuses⟩, hbefore⟩ := hbefore
    rw [List.cons_append, connectToCandidates]
    dsimp only
    rw [if_neg hcurrent, if_neg (by simp [hrefuses]), ih hbefore]

/-- Where none connects, the handle is as it was. -/
theorem connectToCandidates_of_none (hnone : ∀ candidate, ¬ FirstToConnect candidates candidate)
    (hsocket : h.socket = invalidSocket) : connectToCandidates candidates h = h := by
  have hsame : { h with socket := invalidSocket } = h := by rw [← hsocket]
  induction candidates with
  | nil => rfl
  | cons current candidates ih =>
    rw [connectToCandidates]
    dsimp only
    by_cases hcurrent : current.socket = invalidSocket
    · rw [if_pos hcurrent, hcurrent, hsame]
    rw [if_neg hcurrent]
    cases hconnects : current.connects with
    | true => exact absurd ⟨[], candidates, rfl, by simp, hcurrent, hconnects⟩ (hnone current)
    | false =>
      rw [if_neg Bool.false_ne_true, hsame]
      exact ih fun candidate hfirst => hnone candidate (hfirst.cons hcurrent hconnects)

end SocketSidebandData

end Candidates

/-! ### The client's socket -/

namespace SocketSidebandData

section ClientInit

variable {net : Network} {sidebandServiceUrl address port : List Char} {usageId : Bytes}
  {bufferSize : ℤ} {lowLatency : Bool} {candidates : List Candidate} {candidate : Candidate}
  {h : SocketSidebandData}

/-- With a connection, what is left to do is to send the id. -/
theorem run_connectToSocket_of_first (hfound : net.getaddrinfo address port = some candidates)
    (hfirst : FirstToConnect candidates candidate) :
    (connectToSocket net address port usageId).run h =
      (writeLoop candidate.connection usageId candidate.connection.sends).map fun r =>
        (⟨⟩, { h with socket := candidate.socket, connection := r.2 }) := by
  have hloop := connectToCandidates_of_first (h := h) hfirst
  have hsocket : candidate.socket ≠ invalidSocket := hfirst.socket_pos.ne'
  rw [connectToSocket, hfound]
  dsimp only
  rw [Exec.run_bind_ok (Exec.run_modify _ _), Exec.run_bind_ok (Exec.run_get _), hloop,
    if_neg hsocket, sendUsageId]
  cases hwrite : writeLoop candidate.connection usageId candidate.connection.sends with
  | ok r =>
    have hsend : (writeToSocket usageId).run
        { h with socket := candidate.socket, connection := candidate.connection } =
        .ok (r.1, { h with socket := candidate.socket, connection := r.2 }) := by
      rw [run_writeToSocket, hwrite]
      rfl
    rw [Exec.run_bind_ok hsend]
    rfl
  | error e =>
    refine Exec.run_bind_error ?_
    rw [run_writeToSocket, hwrite]
    rfl

/-- Without one, the call returns all the same. -/
theorem run_connectToSocket_of_none (hnone : ∀ candidates candidate,
    net.getaddrinfo address port = some candidates → ¬ FirstToConnect candidates candidate)
    (hsocket : h.socket = invalidSocket) :
    (connectToSocket net address port usageId).run h = .ok (⟨⟩, h) := by
  rw [connectToSocket]
  cases hfound : net.getaddrinfo address port with
  | none => rfl
  | some candidates =>
    have hloop := connectToCandidates_of_none (hnone candidates · hfound) hsocket
    dsimp only
    rw [Exec.run_bind_ok (Exec.run_modify _ _), Exec.run_bind_ok (Exec.run_get _), hloop,
      if_pos hsocket]
    rfl

/-- A url with a host and a port is what the connection is made with. -/
theorem clientInit_of_split {rest : List (List Char)}
    (hsplit : splitUrlString sidebandServiceUrl = address :: port :: rest) :
    clientInit net sidebandServiceUrl usageId bufferSize lowLatency =
      match (connectToSocket net address port usageId).run
        { id := usageId, socket := invalidSocket, lowLatency, connection := {} } with
      | .ok (_, h) => .ok (.new bufferSize.toNat h)
      | .error e => .error (.stopped e) := by
  rw [clientInit, hsplit]
  rfl

theorem clientInit_of_peer (hpeer : net.Peer sidebandServiceUrl candidate) :
    clientInit net sidebandServiceUrl usageId bufferSize lowLatency =
      match writeLoop candidate.connection usageId candidate.connection.sends with
      | .ok (_, connection) => .ok (.new bufferSize.toNat
          { id := usageId, socket := candidate.socket, lowLatency, connection })
      | .error e => .error (.stopped e) := by
  obtain ⟨candidates, ⟨address, port, rest, hsplit, hfound⟩, hfirst⟩ := hpeer
  rw [clientInit_of_split hsplit, run_connectToSocket_of_first hfound hfirst]
  cases writeLoop candidate.connection usageId candidate.connection.sends <;> rfl

/-- A call that reaches no one leaves the url, or returns a handle all the same. -/
theorem clientInit_of_no_peer (hnone : ∀ candidate, ¬ net.Peer sidebandServiceUrl candidate) :
    clientInit net sidebandServiceUrl usageId bufferSize lowLatency =
        .error (.stopped .outOfBounds) ∨
      clientInit net sidebandServiceUrl usageId bufferSize lowLatency =
        .ok (.new bufferSize.toNat
          { id := usageId, socket := invalidSocket, lowLatency, connection := {} }) := by
  match hsplit : splitUrlString sidebandServiceUrl with
  | [] => exact .inl (by rw [clientInit, hsplit]; rfl)
  | [address] => exact .inl (by rw [clientInit, hsplit]; rfl)
  | address :: port :: rest =>
    have hrefused (candidates : List Candidate) (candidate : Candidate)
        (hfound : net.getaddrinfo address port = some candidates) :
        ¬ FirstToConnect candidates candidate := fun hfirst =>
      hnone candidate ⟨candidates, ⟨address, port, rest, hsplit, hfound⟩, hfirst⟩
    refine .inr ?_
    rw [clientInit_of_split hsplit, run_connectToSocket_of_none hrefused rfl]

end ClientInit

end SocketSidebandData

/-! ### The whole call -/

section Call

variable {net : Network} {sidebandServiceUrl : List Char} {strategy : ℤ} {s : SidebandStrategy}
  {usageId : Bytes} {bufferSize : ℤ} {r : Registry} {o : SidebandObject} {insert : Bool}
  {lowLatency : Bool}

theorem initClientSidebandDataOn_of_error {e : InitFailure}
    (hconstruct : constructClient net sidebandServiceUrl strategy (cString usageId) bufferSize =
      .error e) :
    r.initClientSidebandDataOn net sidebandServiceUrl strategy usageId bufferSize = .error e := by
  rw [Registry.initClientSidebandDataOn]
  dsimp only
  rw [hconstruct]
  rfl

/-- Once there is an object, the call returns `0`, whatever the object is worth. -/
theorem initClientSidebandDataOn_of_object (hid : o.usageId = cString usageId)
    (hconstruct : constructClient net sidebandServiceUrl strategy (cString usageId) bufferSize =
      .ok (some o, insert)) :
    r.initClientSidebandDataOn net sidebandServiceUrl strategy usageId bufferSize =
      .ok ((0, some r.nextToken), (r.create o).emplace (cString usageId) r.nextToken) := by
  rw [Registry.initClientSidebandDataOn]
  dsimp only
  rw [hconstruct]
  cases insert with
  | true => rfl
  | false =>
    rw [← hid]
    rfl

/-- A call that has its object goes on as one whose connection has succeeded. -/
theorem initClientSidebandDataOn_eq {c : Connected}
    (hobject : clientObject s (cString usageId) bufferSize c = some o)
    (hconstruct : constructClient net sidebandServiceUrl strategy (cString usageId) bufferSize =
      .ok (some o, insert)) :
    r.initClientSidebandDataOn net sidebandServiceUrl strategy usageId bufferSize =
      .ok ((0, some (r.initClientSidebandData s usageId bufferSize c).1),
        (r.initClientSidebandData s usageId bufferSize c).2) := by
  have hid := usageId_of_clientObject hobject
  rw [initClientSidebandDataOn_of_object hid hconstruct, Registry.initClientSidebandData, hobject]
  cases o with
  | rdma o =>
    rw [← hid]
    rfl
  | sharedMemory h => rfl
  | doubleBuffered h => rfl
  | sockets o => rfl

theorem completeOrNot_of_blocked
    (hconstruct : constructClient net sidebandServiceUrl strategy (cString usageId) bufferSize =
      .error (.stopped .blocked)) :
    CompleteOrNot net sidebandServiceUrl strategy usageId bufferSize r := by
  rw [CompleteOrNot, initClientSidebandDataOn_of_error hconstruct]
  trivial

theorem not_completeOrNot_of_error {e : InitFailure} (hne : e ≠ .stopped .blocked)
    (hconstruct : constructClient net sidebandServiceUrl strategy (cString usageId) bufferSize =
      .error e) : ¬ CompleteOrNot net sidebandServiceUrl strategy usageId bufferSize r := by
  rw [CompleteOrNot, initClientSidebandDataOn_of_error hconstruct]
  split
  · next heq => cases heq
  · next heq =>
    cases heq
    exact absurd rfl hne
  · exact not_false

/-- A strategy that no case handles gives out the null pointer for a token. -/
theorem not_completeOrNot_of_null
    (hconstruct : constructClient net sidebandServiceUrl strategy (cString usageId) bufferSize =
      .ok (none, insert))
    (hunhandled : ∀ s c, SidebandStrategy.ofValue strategy = some s →
      ¬ net.Reaches sidebandServiceUrl (cString usageId) c s) :
    ¬ CompleteOrNot net sidebandServiceUrl strategy usageId bufferSize r := by
  have hrun : r.initClientSidebandDataOn net sidebandServiceUrl strategy usageId bufferSize =
      .ok ((0, some 0), if insert then r.emplace (cString usageId) 0 else r) := by
    rw [Registry.initClientSidebandDataOn]
    dsimp only
    rw [hconstruct]
    rfl
  rw [CompleteOrNot, hrun]
  rintro (⟨-, s, c, o, token, hs, -, hreaches, -⟩ | ⟨hcode, -⟩)
  · exact hunhandled s c hs hreaches
  · exact absurd rfl hcode

/-- With an object, the call has created a handle exactly when the object is one whose peer was
reached, and the usage id is new. -/
theorem completeOrNot_of_object (hs : SidebandStrategy.ofValue strategy = some s)
    (hid : o.usageId = cString usageId)
    (hconstruct : constructClient net sidebandServiceUrl strategy (cString usageId) bufferSize =
      .ok (some o, insert)) :
    CompleteOrNot net sidebandServiceUrl strategy usageId bufferSize r ↔
      (∃ c, net.Reaches sidebandServiceUrl (cString usageId) c s ∧
        clientObject s (cString usageId) bufferSize c = some o) ∧
      r.buffers.lookup (cString usageId) = none := by
  rw [CompleteOrNot, initClientSidebandDataOn_of_object hid hconstruct]
  constructor
  · rintro (⟨-, s', c, o', token, hs', htoken, hreaches, hobject, hgains⟩ | ⟨hcode, -⟩)
    · cases htoken
      cases hs.symm.trans hs'
      have hobjects := congrFun hgains.objects r.nextToken
      rw [Function.update_self] at hobjects
      have hstored : (r.create o).objects r.nextToken = some o := Function.update_self _ _ _
      have hsame : some o = some o' := hstored.symm.trans hobjects
      exact ⟨⟨c, hreaches, hobject.trans hsame.symm⟩, hgains.missing⟩
    · exact absurd rfl hcode
  · rintro ⟨⟨c, hreaches, hobject⟩, hmissing⟩
    refine .inl ⟨rfl, s, c, o, r.nextToken, hs, rfl, hreaches, hobject, rfl, hmissing, ?_, ?_, rfl⟩
    · exact Buffers.lookup_emplace_of_none hmissing
    · exact fun other hother => Buffers.lookup_emplace_ne hother

/-- The socket of a handle that no peer is behind is none. -/
theorem not_reachesSocket {connection : Connection} :
    ¬ net.ReachesSocket sidebandServiceUrl usageId invalidSocket connection := by
  rintro ⟨-, -, -, -, -, -, hpos, -⟩
  exact lt_irrefl _ hpos

/-- What is on the socket of the peer that the call has connected to. -/
theorem reachesSocket_iff {candidate : Candidate} {connection : Connection} {result : Bool}
    (hpeer : net.Peer sidebandServiceUrl candidate)
    (hwrite : writeLoop candidate.connection usageId candidate.connection.sends =
      .ok (result, connection)) :
    net.ReachesSocket sidebandServiceUrl usageId candidate.socket connection ↔
      ∃ sends, sendAll usageId.length candidate.connection.sends = .whole sends := by
  obtain ⟨candidates, hfinds, hfirst⟩ := hpeer
  have hcounts (k : ℕ) (hk : SendEvent.accept k ∈ candidate.connection.sends) :
      transferCount k usageId.length < 2 ^ 31 := by
    have hcount := candidate.counts k hk
    rw [transferCount]
    omega
  have hwhole := outgoing_eq_iff_whole hcounts hwrite
  rw [candidate.unsent, List.nil_append] at hwhole
  rw [← hwhole]
  constructor
  · rintro ⟨-, -, -, -, -, -, -, houtgoing⟩
    exact houtgoing
  · intro houtgoing
    exact ⟨candidates, candidate, hfinds, hfirst.mem, hfirst.connects, rfl, hfirst.socket_pos,
      houtgoing⟩

/-- What the two strategies of the sockets have in common. -/
structure OverSockets (s : SidebandStrategy) (lowLatency : Bool) : Prop where
  construct : ∀ {net sidebandServiceUrl strategy usageId bufferSize},
    SidebandStrategy.ofValue strategy = some s →
      constructClient net sidebandServiceUrl strategy usageId bufferSize =
        (SocketSidebandData.clientInit net sidebandServiceUrl usageId bufferSize lowLatency).map
          fun o => (some (.sockets o), true)
  object : ∀ usageId bufferSize c, clientObject s usageId bufferSize c =
    some (.sockets (.new bufferSize.toNat
      { id := usageId, socket := c.socket, lowLatency, connection := c.connection }))
  reaches : ∀ (net : Network) sidebandServiceUrl usageId c,
    net.Reaches sidebandServiceUrl usageId c s =
      net.ReachesSocket sidebandServiceUrl usageId c.socket c.connection

theorem overSockets_sockets : OverSockets .sockets false where
  construct hs := by
    rw [constructClient, hs]
    rfl
  object _ _ _ := rfl
  reaches _ _ _ _ := rfl

theorem overSockets_socketsLowLatency : OverSockets .socketsLowLatency true where
  construct hs := by
    rw [constructClient, hs]
    rfl
  object _ _ _ := rfl
  reaches _ _ _ _ := rfl

namespace OverSockets

/-- A handle over a socket is the one that was to be created if the peer was reached with it. -/
theorem exists_connected_iff (hover : OverSockets s lowLatency) {socket : ℤ}
    {connection : Connection} :
    (∃ c, net.Reaches sidebandServiceUrl usageId c s ∧
      clientObject s usageId bufferSize c = some (.sockets (.new bufferSize.toNat
        { id := usageId, socket, lowLatency, connection }))) ↔
      net.ReachesSocket sidebandServiceUrl usageId socket connection := by
  constructor
  · rintro ⟨c, hreaches, hobject⟩
    rw [hover.reaches] at hreaches
    rw [hover.object] at hobject
    cases c
    cases hobject
    exact hreaches
  · intro hreaches
    refine ⟨⟨socket, connection, 0, 0⟩, ?_, hover.object _ _ _⟩
    rw [hover.reaches]
    exact hreaches

theorem completeOrNot_of_clientInit (hover : OverSockets s lowLatency)
    (hs : SidebandStrategy.ofValue strategy = some s) {socket : ℤ} {connection : Connection}
    (hinit : SocketSidebandData.clientInit net sidebandServiceUrl (cString usageId) bufferSize
      lowLatency = .ok (.new bufferSize.toNat
        { id := cString usageId, socket, lowLatency, connection })) :
    CompleteOrNot net sidebandServiceUrl strategy usageId bufferSize r ↔
      net.ReachesSocket sidebandServiceUrl (cString usageId) socket connection ∧
      r.buffers.lookup (cString usageId) = none := by
  have hconstruct : constructClient net sidebandServiceUrl strategy (cString usageId) bufferSize =
      .ok (some (.sockets (.new bufferSize.toNat
        { id := cString usageId, socket, lowLatency, connection })), true) := by
    rw [hover.construct hs, hinit]
    rfl
  rw [completeOrNot_of_object hs rfl hconstruct, hover.exists_connected_iff]

/-- A peer that has answered, and a write that has returned. -/
theorem completeOrNot_of_write (hover : OverSockets s lowLatency)
    (hs : SidebandStrategy.ofValue strategy = some s) {candidate : Candidate} {result : Bool}
    {connection : Connection} (hpeer : net.Peer sidebandServiceUrl candidate)
    (hwrite : writeLoop candidate.connection (cString usageId) candidate.connection.sends =
      .ok (result, connection)) :
    CompleteOrNot net sidebandServiceUrl strategy usageId bufferSize r ↔
      (∃ sends, sendAll (cString usageId).length candidate.connection.sends = .whole sends) ∧
      r.buffers.lookup (cString usageId) = none := by
  rw [← reachesSocket_iff hpeer hwrite]
  refine hover.completeOrNot_of_clientInit hs ?_
  rw [SocketSidebandData.clientInit_of_peer hpeer, hwrite]

theorem completeOrNot_of_waits (hover : OverSockets s lowLatency)
    (hs : SidebandStrategy.ofValue strategy = some s) {candidate : Candidate}
    (hpeer : net.Peer sidebandServiceUrl candidate)
    (hsent : sendAll (cString usageId).length candidate.connection.sends = .waits) :
    CompleteOrNot net sidebandServiceUrl strategy usageId bufferSize r := by
  have hwrite := describes_writeLoop candidate.connection.sends candidate.connection
    (cString usageId)
  rw [hsent, Sent.Describes] at hwrite
  refine completeOrNot_of_blocked ?_
  rw [hover.construct hs, SocketSidebandData.clientInit_of_peer hpeer, hwrite]
  rfl

/-- With no peer there is a handle all the same, or the url has no port. -/
theorem not_completeOrNot_of_no_peer (hover : OverSockets s lowLatency)
    (hs : SidebandStrategy.ofValue strategy = some s)
    (hnone : ∀ candidate, ¬ net.Peer sidebandServiceUrl candidate) :
    ¬ CompleteOrNot net sidebandServiceUrl strategy usageId bufferSize r := by
  rcases SocketSidebandData.clientInit_of_no_peer hnone with hinit | hinit
  · refine not_completeOrNot_of_error (e := .stopped .outOfBounds) (by simp) ?_
    rw [hover.construct hs, hinit]
    rfl
  · rw [hover.completeOrNot_of_clientInit hs hinit]
    rintro ⟨hreaches, -⟩
    exact not_reachesSocket hreaches

theorem completeOrNot_iff_accepts (hover : OverSockets s lowLatency)
    (hs : SidebandStrategy.ofValue strategy = some s) :
    CompleteOrNot net sidebandServiceUrl strategy usageId bufferSize r ↔
      net.StallsSocket sidebandServiceUrl (cString usageId) ∨
      net.AcceptsSocket sidebandServiceUrl (cString usageId) ∧
        r.buffers.lookup (cString usageId) = none := by
  constructor
  · intro hcomplete
    by_cases hpeer : ∃ candidate, net.Peer sidebandServiceUrl candidate
    · obtain ⟨candidate, hpeer⟩ := hpeer
      cases hwrite : writeLoop candidate.connection (cString usageId)
          candidate.connection.sends with
      | ok r =>
        obtain ⟨hwhole, hmissing⟩ := (hover.completeOrNot_of_write hs hpeer hwrite).mp hcomplete
        exact .inr ⟨⟨candidate, hpeer, hwhole⟩, hmissing⟩
      | error e => exact .inl ⟨candidate, hpeer, sendAll_eq_waits_of_error hwrite⟩
    · exact absurd hcomplete (hover.not_completeOrNot_of_no_peer hs (not_exists.mp hpeer))
  · rintro (⟨candidate, hpeer, hsent⟩ | ⟨⟨candidate, hpeer, sends, hsent⟩, hmissing⟩)
    · exact hover.completeOrNot_of_waits hs hpeer hsent
    · have hwrite := describes_writeLoop candidate.connection.sends candidate.connection
        (cString usageId)
      rw [hsent, Sent.Describes] at hwrite
      exact (hover.completeOrNot_of_write hs hpeer hwrite).mpr ⟨⟨sends, hsent⟩, hmissing⟩

end OverSockets

/-- What the two strategies of RDMA have in common. -/
structure OverSessions (s : SidebandStrategy) (lowLatency : Bool) : Prop where
  construct : ∀ {net sidebandServiceUrl strategy usageId bufferSize},
    SidebandStrategy.ofValue strategy = some s →
      constructClient net sidebandServiceUrl strategy usageId bufferSize =
        (rdmaClientObject net sidebandServiceUrl lowLatency usageId bufferSize).map
          fun o => (some (.rdma o), false)
  object : ∀ usageId bufferSize c, clientObject s usageId bufferSize c =
    some (.rdma ⟨usageId, some c.writeSession, some c.readSession, lowLatency, bufferSize.toNat⟩)
  reaches : ∀ (net : Network) sidebandServiceUrl usageId c,
    net.Reaches sidebandServiceUrl usageId c s =
      net.ConnectsRdma sidebandServiceUrl c.writeSession c.readSession

theorem overSessions_rdma : OverSessions .rdma false where
  construct hs := by
    rw [constructClient, hs]
    rfl
  object _ _ _ := rfl
  reaches _ _ _ _ := rfl

theorem overSessions_rdmaLowLatency : OverSessions .rdmaLowLatency true where
  construct hs := by
    rw [constructClient, hs]
    rfl
  object _ _ _ := rfl
  reaches _ _ _ _ := rfl

/-- A url with a host and a number makes a handle, whatever becomes of the sessions. -/
theorem rdmaClientObject_of_split {address service : List Char} {rest : List (List Char)} {port : ℤ}
    (hsplit : splitUrlString sidebandServiceUrl = address :: service :: rest)
    (hport : stoi service = some port) :
    rdmaClientObject net sidebandServiceUrl lowLatency usageId bufferSize =
      .ok ⟨usageId, net.createConnectorSession .send, net.createConnectorSession .receive,
        lowLatency, bufferSize.toNat⟩ := by
  simp only [rdmaClientObject, hsplit, urlToken, List.getElem?_cons_zero, List.getElem?_cons_succ,
    Option.getDM_some, pure_bind, hport]
  rfl

/-- Another url makes none. -/
theorem rdmaClientObject_of_no_port (hnone : ∀ address service rest port,
    splitUrlString sidebandServiceUrl = address :: service :: rest → stoi service ≠ some port) :
    ∃ e, e ≠ .stopped .blocked ∧
      rdmaClientObject net sidebandServiceUrl lowLatency usageId bufferSize = .error e := by
  match hsplit : splitUrlString sidebandServiceUrl with
  | [] => exact ⟨.stopped .outOfBounds, by simp, by rw [rdmaClientObject, hsplit]; rfl⟩
  | [address] => exact ⟨.stopped .outOfBounds, by simp, by rw [rdmaClientObject, hsplit]; rfl⟩
  | address :: service :: rest =>
    have hthrows : stoi service = none :=
      Option.eq_none_iff_forall_ne_some.mpr (hnone address service rest · hsplit)
    refine ⟨.thrown, by simp, ?_⟩
    simp only [rdmaClientObject, hsplit, urlToken, List.getElem?_cons_zero,
      List.getElem?_cons_succ, Option.getDM_some, pure_bind, hthrows, Option.getDM_none]
    rfl

theorem OverSessions.completeOrNot_iff_connects (hover : OverSessions s lowLatency)
    (hs : SidebandStrategy.ofValue strategy = some s) :
    CompleteOrNot net sidebandServiceUrl strategy usageId bufferSize r ↔
      (∃ writeSession readSession,
        net.ConnectsRdma sidebandServiceUrl writeSession readSession) ∧
      r.buffers.lookup (cString usageId) = none := by
  by_cases hport : ∃ address service rest port,
      splitUrlString sidebandServiceUrl = address :: service :: rest ∧ stoi service = some port
  · obtain ⟨address, service, rest, port, hsplit, hport⟩ := hport
    have hconstruct : constructClient net sidebandServiceUrl strategy (cString usageId)
        bufferSize = .ok (some (.rdma ⟨cString usageId, net.createConnectorSession .send,
          net.createConnectorSession .receive, lowLatency, bufferSize.toNat⟩), false) := by
      rw [hover.construct hs, rdmaClientObject_of_split hsplit hport]
      rfl
    rw [completeOrNot_of_object hs rfl hconstruct]
    refine and_congr_left fun _ => ?_
    constructor
    · rintro ⟨c, hreaches, -⟩
      rw [hover.reaches] at hreaches
      exact ⟨_, _, hreaches⟩
    · rintro ⟨writeSession, readSession, hconnects⟩
      refine ⟨⟨0, {}, writeSession, readSession⟩, ?_, ?_⟩
      · rw [hover.reaches]
        exact hconnects
      · obtain ⟨-, -, -, -, -, -, hread, -, hwrite, -⟩ := hconnects
        rw [hover.object, hread, hwrite]
  · have hfails : ∃ e, e ≠ .stopped .blocked ∧ rdmaClientObject net sidebandServiceUrl lowLatency
        (cString usageId) bufferSize = .error e :=
      rdmaClientObject_of_no_port fun address service rest port hsplit hstoi =>
        hport ⟨address, service, rest, port, hsplit, hstoi⟩
    obtain ⟨e, hne, hfails⟩ := hfails
    refine iff_of_false (not_completeOrNot_of_error hne ?_) ?_
    · rw [hover.construct hs, hfails]
      rfl
    · rintro ⟨⟨-, -, address, service, rest, port, hsplit, hstoi, -⟩, -⟩
      exact hport ⟨address, service, rest, port, hsplit, hstoi⟩

/-- The strategies of shared memory connect to no one. -/
theorem completeOrNot_sharedMemory_iff (hs : SidebandStrategy.ofValue strategy = some s)
    (hshared : s = .sharedMemory ∨ s = .doubleBufferedSharedMemory) :
    CompleteOrNot net sidebandServiceUrl strategy usageId bufferSize r ↔
      r.buffers.lookup (cString usageId) = none := by
  obtain ⟨o, hid, hobject, hconstruct⟩ : ∃ o : SidebandObject, o.usageId = cString usageId ∧
      (∃ c, net.Reaches sidebandServiceUrl (cString usageId) c s ∧
        clientObject s (cString usageId) bufferSize c = some o) ∧
      constructClient net sidebandServiceUrl strategy (cString usageId) bufferSize =
        .ok (some o, true) := by
    rw [constructClient, hs]
    rcases hshared with rfl | rfl
    · exact ⟨_, rfl, ⟨⟨0, {}, 0, 0⟩, trivial, rfl⟩, rfl⟩
    · exact ⟨_, rfl, ⟨⟨0, {}, 0, 0⟩, trivial, rfl⟩, rfl⟩
  rw [completeOrNot_of_object hs hid hconstruct]
  exact and_iff_right hobject

/-- The strategies that the `switch` passes by. -/
theorem not_completeOrNot_of_unhandled (hunhandled : ∀ s, SidebandStrategy.ofValue strategy =
    some s → s = .unknown ∨ s = .grpc ∨ s = .hypervisorSockets) :
    ¬ CompleteOrNot net sidebandServiceUrl strategy usageId bufferSize r := by
  have hconstruct : constructClient net sidebandServiceUrl strategy (cString usageId) bufferSize =
      .ok (none, true) := by
    rw [constructClient]
    cases hs : SidebandStrategy.ofValue strategy with
    | none => rfl
    | some s => rcases hunhandled s hs with rfl | rfl | rfl <;> rfl
  refine not_completeOrNot_of_null hconstruct fun s c hs hreaches => ?_
  rcases hunhandled s hs with rfl | rfl | rfl <;> exact hreaches

/-- **A client handle completely or not at all.** For every network, url, strategy value, usage id
and registry, a call that returns has created the handle, or fails and changes nothing, exactly when
the strategy is handled and its connection is made and takes the whole id, under which no handle is
registered. A call over a socket that waits for ever does not return. -/
theorem completeOrNot_iff (net : Network) (sidebandServiceUrl : List Char) (strategy : ℤ)
    (usageId : Bytes) (bufferSize : ℤ) (r : Registry) :
    CompleteOrNot net sidebandServiceUrl strategy usageId bufferSize r ↔
      ∃ s, SidebandStrategy.ofValue strategy = some s ∧
        (net.Stalls sidebandServiceUrl (cString usageId) s ∨
          net.Accepts sidebandServiceUrl (cString usageId) s ∧
            r.buffers.lookup (cString usageId) = none) := by
  cases hs : SidebandStrategy.ofValue strategy with
  | none => exact iff_of_false (not_completeOrNot_of_unhandled (by simp [hs])) (by simp)
  | some s =>
    simp only [Option.some.injEq, exists_eq_left']
    cases s with
    | unknown | grpc | hypervisorSockets =>
      refine iff_of_false (not_completeOrNot_of_unhandled (by simp [hs])) ?_
      rintro (hstalls | ⟨haccepts, -⟩)
      · exact hstalls
      · exact haccepts
    | sharedMemory =>
      rw [completeOrNot_sharedMemory_iff hs (.inl rfl)]
      simp [Network.Stalls, Network.Accepts]
    | doubleBufferedSharedMemory =>
      rw [completeOrNot_sharedMemory_iff hs (.inr rfl)]
      simp [Network.Stalls, Network.Accepts]
    | sockets => exact overSockets_sockets.completeOrNot_iff_accepts hs
    | socketsLowLatency => exact overSockets_socketsLowLatency.completeOrNot_iff_accepts hs
    | rdma =>
      rw [overSessions_rdma.completeOrNot_iff_connects hs]
      simp [Network.Stalls, Network.Accepts]
    | rdmaLowLatency =>
      rw [overSessions_rdmaLowLatency.completeOrNot_iff_connects hs]
      simp [Network.Stalls, Network.Accepts]

end Call

/-- A network in which no name is resolved. -/
def Network.unresolved : Network := ⟨fun _ _ => none, fun _ => none, fun _ _ _ => false⟩

/-- A host that is not found: the call returns `0` and registers a handle without a connection. -/
theorem not_completeOrNot_unresolved :
    ¬ ∀ (net : Network) (sidebandServiceUrl : List Char) (strategy : ℤ) (usageId : Bytes)
      (bufferSize : ℤ) (r : Registry),
      CompleteOrNot net sidebandServiceUrl strategy usageId bufferSize r := by
  intro hall
  rcases hall .unresolved "localhost:50055".toList 4 (connectionId 1) 8 {} with
    ⟨-, s, c, -, -, hs, -, hreaches, -⟩ | ⟨hcode, -⟩
  · cases hs
    obtain ⟨candidates, -, ⟨address, port, -, -, hfound⟩, -⟩ := hreaches
    cases hfound
  · exact absurd rfl hcode

end Sideband
