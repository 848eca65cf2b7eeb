import Sideband.Connect.RdmaQueue
import Sideband.Foundation.Machine
import Sideband.SharedMemory.SharedMemory
import Sideband.Sockets.Socket

/-!
# The registry of handles

The functions of the C interface that make handles, find them and delete them, in the build with
RDMA. A token is the address of an object. No address is used twice here, so that a token keeps
denoting the object it was handed out for. What connecting yields (a socket, two sessions) is an
argument.

* `Registry.Exact` is what the registry promises: it maps exactly the usage ids of the open
  handles, each to its own handle.
* `exact_of_reachable`: it does, as long as no new handle has the usage id of an open one
  (`FreshUsageId`, what the asserts check).
-/

namespace Sideband

open Foundation

/-- What the callee sees of a `const char*`: everything up to the first zero byte. -/
def cString (s : Bytes) : Bytes := s.takeWhile (· ≠ 0)

/-! ### Objects -/

/-- An object of one of the four classes. No method changes what is used here: the class, the
usage id and the buffer size. The memory and the connections behind the object are left out. -/
inductive SidebandObject
  | sharedMemory (h : SharedMemorySidebandData)
  | doubleBuffered (h : DoubleBufferedSharedMemorySidebandData)
  | sockets (o : SidebandData SocketSidebandData)
  | rdma (o : RdmaHandle)

/-- `UsageId()`, by which a handle is taken out of the map again. -/
def SidebandObject.usageId : SidebandObject → Bytes
  | .sharedMemory h => h.usageId
  | .doubleBuffered h => h.id
  | .sockets o => o.derived.id
  | .rdma o => o.id

/-- The object that `InitOwnerSidebandData` constructs for a strategy. Where a connection is
awaited, it constructs none. -/
def ownerObject (strategy : SidebandStrategy) (bufferSize : ℤ) : Option SidebandObject :=
  match strategy with
  | .doubleBufferedSharedMemory => some (.doubleBuffered (.initNew bufferSize))
  | .sharedMemory => some (.sharedMemory (.initNew bufferSize))
  | _ => none

/-- What a client's connection yields, of which a strategy takes what it needs. -/
structure Connected where
  socket : ℤ
  connection : Connection
  writeSession : ℕ
  readSession : ℕ

/-- The object that `InitClientSidebandData` constructs for a strategy, when the connection that
it needs has been made. -/
def clientObject (strategy : SidebandStrategy) (usageId : Bytes) (bufferSize : ℤ)
    (c : Connected) : Option SidebandObject :=
  let socketObject (lowLatency : Bool) : SidebandObject :=
    .sockets (.new bufferSize.toNat
      { id := usageId, socket := c.socket, lowLatency, connection := c.connection })
  let rdmaObject (lowLatency : Bool) : SidebandObject :=
    .rdma ⟨usageId, some c.writeSession, some c.readSession, lowLatency, bufferSize.toNat⟩
  match strategy with
  | .sharedMemory => some (.sharedMemory (.new usageId bufferSize))
  | .doubleBufferedSharedMemory => some (.doubleBuffered (.new usageId bufferSize))
  | .sockets => some (socketObject false)
  | .socketsLowLatency => some (socketObject true)
  | .rdma => some (rdmaObject false)
  | .rdmaLowLatency => some (rdmaObject true)
  | _ => none

/-- The strategies whose id is drawn, for a connection to send. -/
def SidebandStrategy.connects : SidebandStrategy → Bool
  | .sockets | .socketsLowLatency | .rdma | .rdmaLowLatency => true
  | _ => false

/-- Whoever constructs an object keeps the usage id it was given. -/
theorem usageId_of_clientObject {strategy : SidebandStrategy} {usageId : Bytes} {bufferSize : ℤ}
    {c : Connected} {o : SidebandObject}
    (h : clientObject strategy usageId bufferSize c = some o) : o.usageId = usageId := by
  cases strategy <;> cases h <;> rfl

/-! ### Operations -/

/-- The map, the objects behind the tokens, and the counter of the connection ids. A deleted
object leaves no trace but the entries of the map that still point to it. -/
structure Registry where
  buffers : Buffers ℕ := ∅
  objects : ℕ → Option SidebandObject := fun _ => none
  /-- The address of the next object; `0` is the null pointer. -/
  nextToken : ℕ := 1
  /-- `_nextId`; `_zeroId` was drawn while the process started. -/
  nextId : ℤ := 1

namespace Registry

/-- `new`. -/
def create (o : SidebandObject) (r : Registry) : Registry :=
  { r with objects := Function.update r.objects r.nextToken (some o), nextToken := r.nextToken + 1 }

/-- `_buffers.emplace`. -/
def emplace (usageId : Bytes) (token : ℕ) (r : Registry) : Registry :=
  { r with buffers := r.buffers.emplace usageId token }

/-- `InitOwnerSidebandData`: the return code, and `out_sideband_id` if it was set. -/
def initOwnerSidebandData (strategy : SidebandStrategy) (bufferSize : ℤ) (r : Registry) :
    (ℤ × Option Bytes) × Registry :=
  match ownerObject strategy bufferSize with
  | some o => ((0, some (cString o.usageId)), (r.create o).emplace o.usageId r.nextToken)
  | none =>
    if strategy.connects then
      ((0, some (cString (nextConnectionId r.nextId).1)),
        { r with nextId := (nextConnectionId r.nextId).2 })
    else ((-1, none), r)

/-- `_buffers[usageId]`: a key that is missing gets a null pointer, which stays in the map. -/
def subscript (usageId : Bytes) (r : Registry) : ℕ × Registry :=
  match r.buffers.lookup usageId with
  | some token => (token, r)
  | none => (0, { r with buffers := r.buffers.insert usageId 0 })

/-- `GetOwnerSidebandDataToken`: `none` while it waits. It returns what the map has under the id,
also a null pointer. -/
def getOwnerSidebandDataToken (usageId : Bytes) (r : Registry) : Option (ℕ × Registry) :=
  if (r.buffers.lookup (cString usageId)).isSome then some (r.subscript (cString usageId))
  else none

/-- `RegisterSidebandData`. -/
def registerSidebandData (token : ℕ) (o : SidebandObject) (r : Registry) : Registry :=
  r.emplace o.usageId token

/-- `InitClientSidebandData`, whose connection succeeds. With RDMA it is `ClientInit` that
registers the object; a strategy it does not handle inserts a null pointer. -/
def initClientSidebandData (strategy : SidebandStrategy) (usageId : Bytes) (bufferSize : ℤ)
    (c : Connected) (r : Registry) : ℕ × Registry :=
  match clientObject strategy (cString usageId) bufferSize c with
  | some (.rdma o) => (r.nextToken, (r.create (.rdma o)).registerSidebandData r.nextToken (.rdma o))
  | some o => (r.nextToken, (r.create o).emplace (cString usageId) r.nextToken)
  | none => (0, r.emplace (cString usageId) 0)

/-- An accept thread's `InitFromConnection`, once it has the object. -/
def initFromConnection (o : SidebandObject) (r : Registry) : Registry :=
  (r.create o).registerSidebandData r.nextToken o

/-- `CloseSidebandData`: `none` if the token denotes no object, which is then used after it was
deleted. -/
def closeSidebandData (token : ℕ) (r : Registry) : Option Registry :=
  match r.objects token with
  | some o => some { r with
      buffers := r.buffers.erase o.usageId
      objects := Function.update r.objects token none }
  | none => none

/-- The usage id is that of an open handle. -/
def Open (r : Registry) (usageId : Bytes) : Prop :=
  ∃ token o, r.objects token = some o ∧ o.usageId = usageId

end Registry

inductive RegistryStep
  | initOwner (strategy : SidebandStrategy) (bufferSize : ℤ)
  | initClient (strategy : SidebandStrategy) (usageId : Bytes) (bufferSize : ℤ) (c : Connected)
  | initFromConnection (o : SidebandObject)
  | getToken (usageId : Bytes)
  | close (token : ℕ)

/-- Calls one after the other, in any order and with any arguments. Each holds the lock of the
map from start to end; a `GetOwnerSidebandDataToken` that would wait is no step, and neither is
closing a token that denotes no object. -/
def registry : Machine Registry RegistryStep where
  init r := r = {}
  next r
    | .initOwner strategy bufferSize => some (r.initOwnerSidebandData strategy bufferSize).2
    | .initClient strategy usageId bufferSize c =>
      some (r.initClientSidebandData strategy usageId bufferSize c).2
    | .initFromConnection o => some (r.initFromConnection o)
    | .getToken usageId => (r.getOwnerSidebandDataToken usageId).map Prod.snd
    | .close token => r.closeSidebandData token

/-- The strategies are handled, no new handle has the usage id of an open one, and a token that
is closed is that of an open handle. The callers have to see to all three: in a build with
`NDEBUG` nothing checks them. -/
def FreshUsageId (r : Registry) : RegistryStep → Prop
  | .initOwner strategy bufferSize => match ownerObject strategy bufferSize with
    | some o => ¬ r.Open o.usageId
    | none => strategy.connects = true
  | .initClient strategy usageId bufferSize c =>
    (clientObject strategy (cString usageId) bufferSize c).isSome ∧ ¬ r.Open (cString usageId)
  | .initFromConnection o => ¬ r.Open o.usageId
  | .getToken _ => True
  | .close token => (r.objects token).isSome

namespace Registry

/-! ### Exactness -/

/-- What the registry promises in a state: it has the open handles and nothing else, finds each
of them under its id, and forgets one without touching another. -/
structure Exact (r : Registry) : Prop where
  lookup : ∀ usageId token, r.buffers.lookup usageId = some token ↔
    ∃ o, r.objects token = some o ∧ o.usageId = usageId
  /-- `GetOwnerSidebandDataToken` finds every open handle and changes nothing. -/
  getToken : ∀ usageId token o, r.objects token = some o → o.usageId = cString usageId →
    r.getOwnerSidebandDataToken usageId = some (token, r)
  /-- `CloseSidebandData` removes the handle's entry and no other. -/
  close : ∀ token o, r.objects token = some o → ∃ r', r.closeSidebandData token = some r' ∧
    r'.buffers.lookup o.usageId = none ∧
    ∀ usageId, usageId ≠ o.usageId → r'.buffers.lookup usageId = r.buffers.lookup usageId

/-- The map and the objects agree, and addresses that are to come are free. This is the invariant
of the runs in which usage ids are fresh. -/
structure Agrees (r : Registry) : Prop where
  lookup : ∀ usageId token, r.buffers.lookup usageId = some token ↔
    ∃ o, r.objects token = some o ∧ o.usageId = usageId
  fresh : ∀ token, r.nextToken ≤ token → r.objects token = none

namespace Agrees

variable {r r' : Registry} {usageId : Bytes} {token : ℕ} {o : SidebandObject}

/-- An open handle is found under its usage id. -/
theorem lookup_usageId (h : r.Agrees) (ho : r.objects token = some o) :
    r.buffers.lookup o.usageId = some token :=
  (h.lookup _ _).mpr ⟨o, ho, rfl⟩

theorem getToken (h : r.Agrees) (ho : r.objects token = some o)
    (hid : o.usageId = cString usageId) :
    r.getOwnerSidebandDataToken usageId = some (token, r) := by
  have hlookup := h.lookup_usageId ho
  rw [hid] at hlookup
  rw [getOwnerSidebandDataToken, hlookup, Option.isSome_some, if_pos rfl, subscript, hlookup]

/-- Asking for a token never changes the registry. -/
theorem eq_of_getToken {result : ℕ × Registry}
    (h : r.getOwnerSidebandDataToken usageId = some result) :
    r.buffers.lookup (cString usageId) = some result.1 ∧ result.2 = r := by
  rw [getOwnerSidebandDataToken] at h
  split_ifs at h with hsome
  obtain ⟨token, htoken⟩ := Option.isSome_iff_exists.mp hsome
  rw [subscript, htoken] at h
  cases h
  exact ⟨htoken, rfl⟩

theorem exact (h : r.Agrees) : r.Exact := by
  refine ⟨h.lookup, fun usageId token o ho hid => h.getToken ho hid, fun token o ho => ?_⟩
  refine ⟨_, by rw [closeSidebandData, ho], AList.lookup_erase _ _, fun usageId hne => ?_⟩
  exact AList.lookup_erase_ne hne

/-- A new handle under its own usage id, which no open handle has. -/
theorem create (h : r.Agrees) (hfresh : ¬ r.Open o.usageId) :
    ((r.create o).emplace o.usageId r.nextToken).Agrees := by
  have hnone : r.buffers.lookup o.usageId = none := by
    rw [Option.eq_none_iff_forall_ne_some]
    intro token htoken
    obtain ⟨o', ho', hid⟩ := (h.lookup _ _).mp htoken
    exact hfresh ⟨token, o', ho', hid⟩
  refine ⟨fun usageId token => ⟨?_, ?_⟩, ?_⟩
  · intro hlookup
    rcases Buffers.lookup_emplace_cases hlookup with hold | ⟨rfl, rfl⟩
    · obtain ⟨o', ho', hid⟩ := (h.lookup _ _).mp hold
      refine ⟨o', update_some_eq_some_iff.mpr (.inr ⟨?_, ho'⟩), hid⟩
      rintro rfl
      simp [h.fresh _ le_rfl] at ho'
    · exact ⟨o, Function.update_self _ _ _, rfl⟩
  · rintro ⟨o', ho', rfl⟩
    rcases update_some_eq_some_iff.mp ho' with ⟨rfl, rfl⟩ | ⟨-, hold⟩
    · exact Buffers.lookup_emplace_of_none hnone
    · exact Buffers.lookup_emplace_mono (h.lookup_usageId hold)
  · intro token htoken
    have hlt : r.nextToken + 1 ≤ token := htoken
    exact (Function.update_of_ne (by omega) _ _).trans (h.fresh token (by omega))

theorem close (h : r.Agrees) (hstep : r.closeSidebandData token = some r') : r'.Agrees := by
  rw [closeSidebandData] at hstep
  split at hstep
  · next o ho =>
    cases hstep
    refine ⟨fun usageId t => ⟨?_, ?_⟩, ?_⟩
    · intro hlookup
      have hne : usageId ≠ o.usageId := by
        rintro rfl
        rw [AList.lookup_erase] at hlookup
        cases hlookup
      rw [AList.lookup_erase_ne hne] at hlookup
      obtain ⟨o', ho', hid⟩ := (h.lookup _ _).mp hlookup
      refine ⟨o', update_none_eq_some_iff.mpr ⟨?_, ho'⟩, hid⟩
      rintro rfl
      exact hne (hid.symm.trans (congrArg _ (Option.some.inj (ho'.symm.trans ho))))
    · rintro ⟨o', ho', rfl⟩
      obtain ⟨htoken, hold⟩ := update_none_eq_some_iff.mp ho'
      have hlookup := h.lookup_usageId hold
      refine (AList.lookup_erase_ne fun hid => htoken ?_).trans hlookup
      exact Option.some.inj (hlookup.symm.trans (hid ▸ h.lookup_usageId ho))
    · intro t ht
      by_cases htoken : t = token
      · subst htoken
        exact Function.update_self _ _ _
      · exact (Function.update_of_ne htoken _ _).trans (h.fresh t ht)
  · cases hstep

/-- Every step that meets the condition keeps the map and the objects in agreement. -/
theorem next (h : r.Agrees) {a : RegistryStep} (hok : FreshUsageId r a)
    (hstep : registry.next r a = some r') : r'.Agrees := by
  cases a with
  | initOwner strategy bufferSize =>
    cases hstep
    simp only [FreshUsageId, initOwnerSidebandData] at hok ⊢
    split at hok
    · exact h.create hok
    · rw [if_pos hok]
      exact ⟨h.lookup, h.fresh⟩
  | initClient strategy usageId bufferSize c =>
    cases hstep
    obtain ⟨hsome, hfresh⟩ := hok
    obtain ⟨o, ho⟩ := Option.isSome_iff_exists.mp hsome
    have hid := usageId_of_clientObject ho
    rw [← hid] at hfresh
    have hcreate := h.create hfresh
    simp only [initClientSidebandData, ho]
    split
    · next o' heq =>
      cases heq
      exact hcreate
    · next o' _ heq =>
      cases heq
      rwa [← hid]
    · next heq => cases heq
  | initFromConnection o =>
    cases hstep
    exact h.create hok
  | getToken usageId =>
    obtain ⟨result, hresult, rfl⟩ := Option.map_eq_some_iff.mp hstep
    rw [(eq_of_getToken hresult).2]
    exact h
  | close token => exact h.close hstep

end Agrees

end Registry

theorem agrees_of_reachable {r : Registry} (hr : registry.Reachable FreshUsageId r) :
    r.Agrees := by
  refine hr.invariant (fun r hinit => ?_) fun r a r' h hok hstep => h.next hok hstep
  obtain rfl : r = {} := hinit
  refine ⟨fun usageId token => ?_, fun _ _ => rfl⟩
  simp

/-- **Registry exactness**, over every run in which usage ids are fresh, that is, in which no
handle is registered under an id that is in the map. The operations may come in any order, and
may fail. -/
theorem exact_of_reachable {r : Registry} (hr : registry.Reachable FreshUsageId r) : r.Exact :=
  (agrees_of_reachable hr).exact

/-- An owner's and a client's handles, one of them closed. -/
theorem exact_of_reachable_run : ∃ r : Registry, registry.Reachable FreshUsageId r ∧
    r.buffers.keys.length = 2 ∧ r.Exact := by
  have hexec : (registry.execWhile (fun r => fun
        | .initOwner strategy bufferSize => match ownerObject strategy bufferSize with
          | some o => (r.buffers.lookup o.usageId).isNone
          | none => strategy.connects
        | .initClient strategy usageId bufferSize c =>
          (clientObject strategy (cString usageId) bufferSize c).isSome &&
            (r.buffers.lookup (cString usageId)).isNone
        | .initFromConnection o => (r.buffers.lookup o.usageId).isNone
        | .getToken _ => true
        | .close token => (r.objects token).isSome) {}
      [.initOwner .sharedMemory 8, .initOwner .sockets 8,
        .initFromConnection (.sockets (.new 8 ⟨connectionId 2, 5, false, {}⟩)),
        .getToken (connectionId 2), .close 1, .initOwner .doubleBufferedSharedMemory 16,
        .initClient .rdma (connectionId 3) 8 ⟨0, {}, 1, 2⟩, .close 2]).map
      (fun r => r.buffers.keys.length) = some 2 := by
    decide +kernel
  obtain ⟨r, hexec, hlength⟩ := Option.map_eq_some_iff.mp hexec
  have hr : registry.Reachable FreshUsageId r := by
    refine (Machine.Reachable.init rfl).execWhile ?_ hexec
    intro r a hr hp
    have hopen {usageId : Bytes} (h : (r.buffers.lookup usageId).isNone = true) :
        ¬ r.Open usageId := by
      rintro ⟨token, o, ho, rfl⟩
      simp [(agrees_of_reachable hr).lookup_usageId ho] at h
    cases a with
    | initOwner strategy bufferSize =>
      rw [FreshUsageId]
      dsimp only at hp ⊢
      split at hp
      · exact hopen hp
      · exact hp
    | initClient strategy usageId bufferSize c =>
      obtain ⟨hsome, hnone⟩ := Bool.and_eq_true_iff.mp hp
      exact ⟨hsome, hopen hnone⟩
    | initFromConnection o => exact hopen hp
    | getToken usageId => exact trivial
    | close token => exact hp
  exact ⟨r, hr, hlength, exact_of_reachable hr⟩

end Sideband
