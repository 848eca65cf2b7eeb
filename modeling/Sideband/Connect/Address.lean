import Sideband.Connect.RdmaQueue
import Sideband.ConnectionId
import Mathlib.Data.List.TakeWhile

/-!
# The connection address

`GetConnectionAddress` publishes a url, `InitClientSidebandData` splits it and connects, and the
accept loops listen. The three never call each other; `LeadsToListener` says that they agree: every
endpoint the client connects to is one the server listens on, from the other side.

The url is that of the sockets whatever the strategy, so the client of an RDMA stream looks for the
RDMA listeners at the address and the port of the sockets. `leadsToListener_iff` says when they
are there.
-/

namespace Sideband

open Foundation

/-- What one side of a connection is bound to. A stream socket goes both ways and has no
direction. -/
structure Endpoint where
  address : List Char
  port : ℕ
  direction : Option Direction
  deriving DecidableEq, Repr

/-- The side that fits the endpoint. -/
def Endpoint.complement (e : Endpoint) : Endpoint := { e with direction := e.direction.map .other }

/-- A port number has 16 bits: `htons`, `getaddrinfo` and easyrdma keep those of what they get. -/
def toPort (port : ℤ) : ℕ := (port % 2 ^ 16).toNat

/-! ### The server -/

/-- What the server's process has been given: its configuration, the interfaces of the host and
the port that the kernel has free. None of it changes while the process runs. -/
structure ServerAddresses where
  /-- `s_SidebandSocketsAddress`. -/
  socketsAddress : List Char
  /-- `s_SidebandSocketsPort`. -/
  socketsPort : ℤ
  /-- The addresses that `easyrdma_Enumerate` finds. -/
  interfaces : List (List Char)
  /-- The port the kernel takes where it is asked for port `0`. -/
  freePort : ℕ

namespace ServerAddresses

/-- `GetRdmaAddress`: the first interface that easyrdma reports, or nothing if it reports none. -/
def getRdmaAddress (s : ServerAddresses) : List Char := s.interfaces.headD []

/-- `GetSocketsAddress`: the address that the listener was given, or else that of the first RDMA
interface, or else the loopback name. -/
def getSocketsAddress (s : ServerAddresses) : List Char :=
  if 0 < s.socketsAddress.length then s.socketsAddress
  else if 0 < s.getRdmaAddress.length then s.getRdmaAddress
  else "localhost".toList

/-- The number that `GetSocketsPort` writes out. A port that is not positive counts as none. -/
def publishedPort (s : ServerAddresses) : ℤ := if 0 < s.socketsPort then s.socketsPort else 50055

/-- `GetSocketsPort`. -/
def getSocketsPort (s : ServerAddresses) : List Char :=
  if 0 < s.socketsPort then decimal s.socketsPort else "50055".toList

/-- `GetConnectionAddress` with `ENABLE_RDMA_SIDEBAND`. The block that sets the url of the
sockets is no `else` branch: it comes after the block for RDMA and sets the url again, so the
strategy makes no difference. -/
def getConnectionAddress (s : ServerAddresses) (strategy : SidebandStrategy) :
    List Char := Id.run do
  let mut address := []
  if strategy = .rdma ∨ strategy = .rdmaLowLatency then
    address := s.getRdmaAddress ++ ":50060".toList
  address := s.getSocketsAddress ++ ":".toList ++ s.getSocketsPort
  return address

/-- `RunSidebandSocketsAccept` listens on every address of the host, of which `address` is one. -/
def runSidebandSocketsAccept (s : ServerAddresses) : List Endpoint :=
  let port := toPort s.socketsPort
  [⟨s.socketsAddress, if port = 0 then s.freePort else port, none⟩]

/-- `AcceptSidebandRdmaRequests`: one listener on the first interface, and none on a host without
one. -/
def acceptSidebandRdmaRequests (s : ServerAddresses) (direction : Direction) (port : ℤ) :
    List Endpoint :=
  if s.getRdmaAddress.length = 0 then [] else [⟨s.getRdmaAddress, toPort port, some direction⟩]

/-- `AcceptSidebandRdmaSendRequests`, whose port is fixed. No function of the source publishes
it. -/
def acceptSidebandRdmaSendRequests (s : ServerAddresses) : List Endpoint :=
  s.acceptSidebandRdmaRequests .send 50060

/-- `AcceptSidebandRdmaReceiveRequests`, whose port is fixed. No function of the source publishes
it. -/
def acceptSidebandRdmaReceiveRequests (s : ServerAddresses) : List Endpoint :=
  s.acceptSidebandRdmaRequests .receive 50061

/-- Where the accept loops for a strategy listen, once they have been started. The other
strategies have no listener, and need none. -/
def listeners (s : ServerAddresses) : SidebandStrategy → List Endpoint
  | .sockets | .socketsLowLatency => s.runSidebandSocketsAccept
  | .rdma | .rdmaLowLatency =>
    s.acceptSidebandRdmaSendRequests ++ s.acceptSidebandRdmaReceiveRequests
  | _ => []

end ServerAddresses

/-! ### The client -/

/-- `SplitUrlString`. `std::getline` takes the delimiter off, and finds no line at the end of the
text. -/
def splitUrlString : List Char → List (List Char)
  | [] => []
  | c :: s =>
    if c = ':' then [] :: splitUrlString s
    else match splitUrlString s with
      | [] => [[c]]
      | token :: tokens => (c :: token) :: tokens

/-- `std::stoi`: blanks, a sign and digits; it throws where there are no digits or the number is
no `int`. -/
def stoi (s : List Char) : Option ℤ :=
  let s := s.dropWhile Char.isWhitespace
  let negative := s.head? = some '-'
  let digits := (if negative ∨ s.head? = some '+' then s.tail else s).takeWhile Char.isDigit
  let n : ℤ := if negative then -Nat.ofDigitChars 10 digits 0 else Nat.ofDigitChars 10 digits 0
  if digits = [] ∨ n < -2 ^ 31 ∨ 2 ^ 31 ≤ n then none else some n

/-- The port that `getaddrinfo` makes of a service that is a number. Names of services are left
out: no url has one. -/
def servicePort (service : List Char) : Option ℕ :=
  if service.all Char.isDigit then some (toPort (Nat.ofDigitChars 10 service 0)) else none

/-- `SocketSidebandData::ClientInit` and `ConnectToSocket`. -/
def socketClientInit (sidebandServiceUrl : List Char) : Option (List Endpoint) := do
  let tokens := splitUrlString sidebandServiceUrl
  let address ← tokens[0]?
  let port ← servicePort (← tokens[1]?)
  return [⟨address, port, none⟩]

/-- `RdmaSidebandData::ClientInit`: the read session, then the write session. -/
def rdmaClientInit (sidebandServiceUrl : List Char) : Option (List Endpoint) := do
  let tokens := splitUrlString sidebandServiceUrl
  let address ← tokens[0]?
  let port ← stoi (← tokens[1]?)
  return [⟨address, toPort port, some .receive⟩, ⟨address, toPort (port + 1), some .send⟩]

/-- The endpoints that `InitClientSidebandData` connects to. For a strategy without a connection
there are none. -/
def initClientEndpoints (sidebandServiceUrl : List Char) : SidebandStrategy → Option (List Endpoint)
  | .sockets | .socketsLowLatency => socketClientInit sidebandServiceUrl
  | .rdma | .rdmaLowLatency => rdmaClientInit sidebandServiceUrl
  | _ => some []

/-- A client that is given the published url connects to listeners of the strategy. Shared memory
connects to nobody, and so it always does. -/
def ServerAddresses.LeadsToListener (s : ServerAddresses) (strategy : SidebandStrategy) : Prop :=
  ∃ endpoints, initClientEndpoints (s.getConnectionAddress strategy) strategy = some endpoints ∧
    ∀ e ∈ endpoints, e.complement ∈ s.listeners strategy

/-! ### Reading the url -/

theorem splitUrlString_of_notMem {token : List Char} (h : ':' ∉ token) (hne : token ≠ []) :
    splitUrlString token = [token] := by
  induction token with
  | nil => exact absurd rfl hne
  | cons c token ih =>
    rw [List.mem_cons, not_or] at h
    rw [splitUrlString, if_neg (Ne.symm h.1)]
    rcases eq_or_ne token [] with rfl | htoken
    · rfl
    · rw [ih h.2 htoken]

theorem splitUrlString_append {token : List Char} (h : ':' ∉ token) (rest : List Char) :
    splitUrlString (token ++ ':' :: rest) = token :: splitUrlString rest := by
  induction token with
  | nil => rw [List.nil_append, splitUrlString, if_pos rfl]
  | cons c token ih =>
    rw [List.mem_cons, not_or] at h
    rw [List.cons_append, splitUrlString, if_neg (Ne.symm h.1), ih h.2]

theorem isDigit_of_mem_toDigits {n : ℕ} : ∀ c ∈ Nat.toDigits 10 n, c.isDigit = true :=
  fun _ hc => Nat.isDigit_of_mem_toDigits (by norm_num) le_rfl hc

theorem servicePort_toDigits (n : ℕ) : servicePort (Nat.toDigits 10 n) = some (toPort n) := by
  rw [servicePort, if_pos (List.all_eq_true.mpr isDigit_of_mem_toDigits),
    Nat.ofDigitChars_ten_toDigits]

theorem stoi_toDigits {n : ℕ} (h : n < 2 ^ 31) : stoi (Nat.toDigits 10 n) = some (n : ℤ) := by
  have hdigits := isDigit_of_mem_toDigits (n := n)
  obtain ⟨c, cs, hcons⟩ := List.exists_cons_of_ne_nil (Nat.toDigits_ne_nil (n := n) (b := 10))
  have hc : c.isDigit = true := hdigits c (hcons ▸ List.mem_cons_self)
  -- the first digit is no blank and no sign
  have hne {d : Char} (hd : d.isDigit = false) : c ≠ d := fun hcd => by
    rw [hcd, hd] at hc
    cases hc
  have hblank : c.isWhitespace = false := by
    rw [Char.isWhitespace, decide_eq_false (hne rfl), decide_eq_false (hne rfl),
      decide_eq_false (hne rfl), decide_eq_false (hne rfl)]
    rfl
  have hskip : (Nat.toDigits 10 n).dropWhile Char.isWhitespace = Nat.toDigits 10 n := by
    rw [hcons, List.dropWhile_cons_of_neg (by rw [hblank]; exact Bool.false_ne_true)]
  have hsign {d : Char} (hd : d.isDigit = false) : (Nat.toDigits 10 n).head? ≠ some d := by
    rw [hcons, List.head?_cons]
    exact fun hcd => hne hd (Option.some.inj hcd)
  have htake : (Nat.toDigits 10 n).takeWhile Char.isDigit = Nat.toDigits 10 n :=
    List.takeWhile_eq_self_iff.mpr hdigits
  simp only [stoi, hskip, hsign (d := '-') rfl, hsign (d := '+') rfl, or_self, if_false, htake,
    Nat.ofDigitChars_ten_toDigits]
  rw [if_neg]
  rintro (hnil | hlow | hhigh)
  · exact Nat.toDigits_ne_nil hnil
  · omega
  · omega

/-! ### Who meets -/

namespace ServerAddresses

variable {s : ServerAddresses}

theorem publishedPort_pos (s : ServerAddresses) : 0 < s.publishedPort := by
  rw [publishedPort]
  split_ifs with h
  · exact h
  · norm_num

theorem getSocketsPort_eq (s : ServerAddresses) :
    s.getSocketsPort = Nat.toDigits 10 s.publishedPort.toNat := by
  rw [getSocketsPort, publishedPort]
  split_ifs with h
  · obtain ⟨n, hn⟩ := Int.eq_ofNat_of_zero_le h.le
    rw [hn]
    rfl
  · decide

theorem getConnectionAddress_eq (h : s.socketsAddress ≠ []) (strategy : SidebandStrategy) :
    s.getConnectionAddress strategy =
      s.socketsAddress ++ ':' :: Nat.toDigits 10 s.publishedPort.toNat := by
  have haddress : s.getSocketsAddress = s.socketsAddress :=
    if_pos (List.length_pos_iff.mpr h)
  have hlast : s.getConnectionAddress strategy =
      s.getSocketsAddress ++ ":".toList ++ s.getSocketsPort := by
    rw [getConnectionAddress]
    split_ifs <;> rfl
  rw [hlast, haddress, getSocketsPort_eq, List.append_assoc]
  rfl

/-- The published url is split into the address and the port of the sockets. -/
theorem splitUrlString_getConnectionAddress (h : s.socketsAddress ≠ [])
    (hcolon : ':' ∉ s.socketsAddress) (strategy : SidebandStrategy) :
    splitUrlString (s.getConnectionAddress strategy) =
      [s.socketsAddress, Nat.toDigits 10 s.publishedPort.toNat] := by
  have hport : ':' ∉ Nat.toDigits 10 s.publishedPort.toNat := fun hmem =>
    absurd (isDigit_of_mem_toDigits _ hmem) (by decide)
  rw [getConnectionAddress_eq h, splitUrlString_append hcolon,
    splitUrlString_of_notMem hport Nat.toDigits_ne_nil]

theorem socketClientInit_getConnectionAddress (h : s.socketsAddress ≠ [])
    (hcolon : ':' ∉ s.socketsAddress) (strategy : SidebandStrategy) :
    socketClientInit (s.getConnectionAddress strategy) =
      some [⟨s.socketsAddress, toPort s.publishedPort, none⟩] := by
  have hport : ((s.publishedPort.toNat : ℕ) : ℤ) = s.publishedPort :=
    Int.toNat_of_nonneg s.publishedPort_pos.le
  simp [socketClientInit, splitUrlString_getConnectionAddress h hcolon, servicePort_toDigits, hport]

theorem rdmaClientInit_getConnectionAddress (h : s.socketsAddress ≠ [])
    (hcolon : ':' ∉ s.socketsAddress) (hint : s.socketsPort < 2 ^ 31)
    (strategy : SidebandStrategy) :
    rdmaClientInit (s.getConnectionAddress strategy) =
      some [⟨s.socketsAddress, toPort s.publishedPort, some .receive⟩,
        ⟨s.socketsAddress, toPort (s.publishedPort + 1), some .send⟩] := by
  have hport : ((s.publishedPort.toNat : ℕ) : ℤ) = s.publishedPort :=
    Int.toNat_of_nonneg s.publishedPort_pos.le
  have hlt : s.publishedPort.toNat < 2 ^ 31 := by
    rw [publishedPort]
    split_ifs <;> omega
  simp [rdmaClientInit, splitUrlString_getConnectionAddress h hcolon, stoi_toDigits hlt, hport]

/-- The addresses agree: the port of the sockets is the one that is bound, and for RDMA the sockets
are configured with the address of the RDMA interface and the port of its send listener. -/
def Agree (s : ServerAddresses) : SidebandStrategy → Prop
  | .sockets | .socketsLowLatency =>
    toPort s.publishedPort = if toPort s.socketsPort = 0 then s.freePort else toPort s.socketsPort
  | .rdma | .rdmaLowLatency =>
    s.socketsAddress = s.getRdmaAddress ∧ toPort s.publishedPort = 50060
  | _ => True

/-- A positive port number is published as it is bound. -/
theorem agree_sockets (hpos : 0 < s.socketsPort) (hlt : s.socketsPort < 2 ^ 16) :
    s.Agree .sockets := by
  have hport : toPort s.socketsPort ≠ 0 := by
    rw [toPort]
    omega
  change toPort s.publishedPort = if toPort s.socketsPort = 0 then _ else toPort s.socketsPort
  rw [if_neg hport, publishedPort, if_pos hpos]

theorem leadsToListener_of_url {endpoints : List Endpoint} {strategy : SidebandStrategy}
    (hurl : initClientEndpoints (s.getConnectionAddress strategy) strategy = some endpoints) :
    s.LeadsToListener strategy ↔ ∀ e ∈ endpoints, e.complement ∈ s.listeners strategy := by
  constructor
  · rintro ⟨endpoints', hendpoints, hlisten⟩
    rw [hurl] at hendpoints
    cases hendpoints
    exact hlisten
  · intro hlisten
    exact ⟨endpoints, hurl, hlisten⟩

/-- An RDMA listener is on the one interface, with the port of its direction. -/
theorem mem_rdmaListeners {e : Endpoint} :
    e ∈ s.acceptSidebandRdmaSendRequests ++ s.acceptSidebandRdmaReceiveRequests ↔
      s.getRdmaAddress ≠ [] ∧ (e = ⟨s.getRdmaAddress, 50060, some .send⟩ ∨
        e = ⟨s.getRdmaAddress, 50061, some .receive⟩) := by
  rw [List.mem_append, acceptSidebandRdmaSendRequests, acceptSidebandRdmaReceiveRequests,
    acceptSidebandRdmaRequests, acceptSidebandRdmaRequests]
  rcases eq_or_ne s.getRdmaAddress [] with haddress | haddress
  · simp [haddress]
  · have hlength : s.getRdmaAddress.length ≠ 0 := fun h =>
      haddress (List.eq_nil_of_length_eq_zero h)
    rw [if_neg hlength, if_neg hlength, List.mem_singleton, List.mem_singleton]
    exact (and_iff_right haddress).symm

theorem agree_rdma_iff (h : s.socketsAddress ≠ []) :
    (∀ e ∈ [(⟨s.socketsAddress, toPort s.publishedPort, some .receive⟩ : Endpoint),
        ⟨s.socketsAddress, toPort (s.publishedPort + 1), some .send⟩],
      e.complement ∈ s.acceptSidebandRdmaSendRequests ++ s.acceptSidebandRdmaReceiveRequests) ↔
      s.socketsAddress = s.getRdmaAddress ∧ toPort s.publishedPort = 50060 := by
  simp only [List.forall_mem_cons, List.not_mem_nil, false_implies, implies_true, and_true,
    mem_rdmaListeners, Endpoint.complement, Option.map_some, Direction.other, Endpoint.mk.injEq,
    Option.some.injEq, reduceCtorEq, and_false, or_false, false_or]
  constructor
  · rintro ⟨⟨-, haddress, hport⟩, -⟩
    exact ⟨haddress, hport⟩
  · rintro ⟨haddress, hport⟩
    have hnext : toPort (s.publishedPort + 1) = 50061 := by
      unfold toPort at *
      omega
    exact ⟨⟨haddress ▸ h, haddress, hport⟩, haddress ▸ h, haddress, hnext⟩

/-- A client that is given the published url finds the listeners of its strategy exactly when the
addresses agree, for every strategy and whatever the process has been given. -/
theorem leadsToListener_iff (s : ServerAddresses) (hne : s.socketsAddress ≠ [])
    (hcolon : ':' ∉ s.socketsAddress) (hint : s.socketsPort < 2 ^ 31)
    (strategy : SidebandStrategy) : s.LeadsToListener strategy ↔ s.Agree strategy := by
  have hsockets := socketClientInit_getConnectionAddress hne hcolon
  have hrdma := rdmaClientInit_getConnectionAddress hne hcolon hint
  have hnone {strategy : SidebandStrategy}
      (hurl : initClientEndpoints (s.getConnectionAddress strategy) strategy = some []) :
      s.LeadsToListener strategy :=
    (leadsToListener_of_url hurl).mpr fun e he => absurd he List.not_mem_nil
  cases strategy with
  | sockets | socketsLowLatency =>
    refine Iff.trans (leadsToListener_of_url (hsockets _)) ?_
    rw [List.forall_mem_singleton]
    change _ ∈ s.runSidebandSocketsAccept ↔ _
    rw [runSidebandSocketsAccept, List.mem_singleton, Endpoint.complement, Endpoint.mk.injEq]
    exact ⟨fun h => h.2.1, fun h => ⟨rfl, h, rfl⟩⟩
  | rdma | rdmaLowLatency =>
    exact Iff.trans (leadsToListener_of_url (hrdma _)) (agree_rdma_iff hne)
  | unknown | grpc | sharedMemory | doubleBufferedSharedMemory | hypervisorSockets =>
    exact iff_of_true (hnone rfl) trivial

/-- The sockets configured as the service is started. -/
def localServer : ServerAddresses :=
  { socketsAddress := "localhost".toList, socketsPort := 50055,
    interfaces := ["10.0.0.1".toList], freePort := 40000 }

/-- The sockets at the address of the RDMA interface and the port of its listener. -/
def rdmaServer : ServerAddresses :=
  { socketsAddress := "10.0.0.1".toList, socketsPort := 50060,
    interfaces := ["10.0.0.1".toList], freePort := 40000 }

/-- Clients of the sockets find `localServer`, and clients of RDMA find `rdmaServer`, whose
published url is that of the RDMA listeners. -/
theorem leadsToListener_servers :
    localServer.LeadsToListener .sockets ∧ rdmaServer.LeadsToListener .rdma :=
  ⟨(leadsToListener_iff localServer (by decide) (by decide) (by decide) .sockets).mpr
      (agree_sockets (by decide) (by decide)),
    (leadsToListener_iff rdmaServer (by decide) (by decide) (by decide) .rdma).mpr
      ⟨by decide, by decide⟩⟩

/-- The client of an RDMA stream looks for the RDMA listeners at the sockets' address. -/
theorem not_leadsToListener_rdma : ¬ localServer.LeadsToListener .rdma := by
  have hurl : initClientEndpoints (localServer.getConnectionAddress .rdma) .rdma = some _ :=
    rdmaClientInit_getConnectionAddress (by decide) (by decide) (by decide) .rdma
  intro h
  have hread := (leadsToListener_of_url hurl).mp h _ List.mem_cons_self
  exact absurd hread (by decide)

end ServerAddresses

end Sideband
