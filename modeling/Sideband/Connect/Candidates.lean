import Sideband.Connect.ClientInit

/-!
# The loop over the addresses

The loop of `ConnectToSocket` once more, with the descriptors it opens and closes. `_socket` is an
unsigned 64-bit field, `INVALID_SOCKET` is `0`, and what `socket` returns is a descriptor from `0`
up, or `-1`.

* `connectLoop_cons`: `-1` fails in `connect` and is given up like any address that refuses; `0`
  ends the loop, open as it is.
* `picksFirst_iff`: so the loop does what it is for exactly when no address it comes to gets the
  descriptor `0`.
* `socket_connectToCandidates`: the loop leaves `_socket` as the client's model of it does.
-/

namespace Sideband

open Foundation

/-- Conversion to an unsigned 64-bit integer, the type that this file gives a socket on every
system. -/
def toUInt64 (x : ℤ) : ℤ := x % 2 ^ 64

/-- What `socket` and `connect` answer for an address that was resolved. A descriptor is an `int`
from `0` up, or `-1`, and no connection is made with a negative one. -/
structure AddrInfo where
  descriptor : ℤ
  /-- Whether `connect` succeeds for a descriptor. -/
  connects : ℤ → Bool
  descriptor_ge : -1 ≤ descriptor
  descriptor_lt : descriptor < 2 ^ 31
  connects_neg : ∀ d < 0, connects d = false

/-- Both calls succeed: a socket that is not negative is made, and it connects. -/
def AddrInfo.Reachable (a : AddrInfo) : Prop := a.connects a.descriptor = true

instance : DecidablePred AddrInfo.Reachable := fun a =>
  inferInstanceAs (Decidable (a.connects a.descriptor = true))

/-- `_socket`, and those of the descriptors opened in the loop that are open. Descriptors that
were open before are left out. -/
structure ConnectLoop where
  socket : ℤ := invalidSocket
  opened : List ℤ := []
  deriving DecidableEq, Repr

namespace ConnectLoop

/-- `_socket = socket(..)`. A negative result becomes a huge unsigned number, and no descriptor
is open for it. -/
def openSocket (descriptor : ℤ) (s : ConnectLoop) : ConnectLoop where
  socket := toUInt64 descriptor
  opened := if descriptor < 0 then s.opened else descriptor :: s.opened

/-- `close(_socket)` and `_socket = INVALID_SOCKET`; what is no open descriptor cannot be closed. -/
def closeSocket (s : ConnectLoop) : ConnectLoop where
  socket := invalidSocket
  opened := s.opened.erase (toInt32 s.socket)

end ConnectLoop

/-- The loop of `ConnectToSocket`. The function returns at an `INVALID_SOCKET`, before the call
of `connect`, whatever addresses are left. -/
def connectLoop : List AddrInfo → ConnectLoop → ConnectLoop
  | [], s => s
  | current :: candidates, s =>
    let s := s.openSocket current.descriptor
    if s.socket = invalidSocket then s
    else if current.connects (toInt32 s.socket) then s
    else connectLoop candidates s.closeSocket

/-- The address is the first one for which both calls succeed. -/
def FirstReachable (candidates : List AddrInfo) (a : AddrInfo) : Prop :=
  ∃ before after, candidates = before ++ a :: after ∧ (∀ b ∈ before, ¬ b.Reachable) ∧ a.Reachable

/-- The loop ends with the descriptor of the first address that can be reached, and with nothing
else that it has opened, or with none if there is no such address. What is sent then is left out. -/
structure PicksFirst (candidates : List AddrInfo) : Prop where
  first : ∀ a, FirstReachable candidates a → (connectLoop candidates {}).socket = a.descriptor ∧
    (connectLoop candidates {}).opened = [a.descriptor]
  unreachable : (∀ a ∈ candidates, ¬ a.Reachable) → (connectLoop candidates {}).opened = []
  unconnected : (connectLoop candidates {}).socket = invalidSocket ↔
    ∀ a ∈ candidates, ¬ a.Reachable

/-- No address that is tried, that is, before which none can be reached, gets the descriptor `0`.
The system gives it out when standard input is closed. -/
def NoneIsZero (candidates : List AddrInfo) : Prop :=
  ∀ before a after, candidates = before ++ a :: after → (∀ b ∈ before, ¬ b.Reachable) →
    a.descriptor ≠ 0

/-! ### One address -/

namespace AddrInfo

variable {a : AddrInfo}

theorem descriptor_nonneg (h : a.Reachable) : 0 ≤ a.descriptor := by
  by_contra hneg
  rw [Reachable, a.connects_neg _ (not_le.mp hneg)] at h
  cases h

/-- The field holds no `INVALID_SOCKET` unless `socket` has returned it. -/
theorem toUInt64_descriptor_eq_zero_iff : toUInt64 a.descriptor = invalidSocket ↔
    a.descriptor = 0 := by
  have hge := a.descriptor_ge
  have hlt := a.descriptor_lt
  rw [toUInt64, invalidSocket]
  omega

/-- The calls get back from the field what `socket` has returned. -/
theorem toInt32_toUInt64_descriptor : toInt32 (toUInt64 a.descriptor) = a.descriptor := by
  have hge := a.descriptor_ge
  have hlt := a.descriptor_lt
  rw [toInt32_eq, toUInt64]
  split_ifs <;> omega

/-- A descriptor that was given up leaves nothing open. -/
theorem closeSocket_openSocket (a : AddrInfo) :
    (({} : ConnectLoop).openSocket a.descriptor).closeSocket = {} := by
  rw [ConnectLoop.closeSocket, ConnectLoop.openSocket]
  dsimp only
  rw [toInt32_toUInt64_descriptor]
  split_ifs <;> simp

theorem openSocket_of_reachable (h : a.Reachable) :
    ({} : ConnectLoop).openSocket a.descriptor = ⟨a.descriptor, [a.descriptor]⟩ := by
  have hnonneg := descriptor_nonneg h
  have hlt := a.descriptor_lt
  rw [ConnectLoop.openSocket, if_neg (not_lt.mpr hnonneg), toUInt64,
    Int.emod_eq_of_lt hnonneg (by omega)]

end AddrInfo

theorem connectLoop_cons (a : AddrInfo) (candidates : List AddrInfo) :
    connectLoop (a :: candidates) {} =
      if a.descriptor = 0 then ⟨0, [0]⟩
      else if a.Reachable then ⟨a.descriptor, [a.descriptor]⟩
      else connectLoop candidates {} := by
  have hsocket : (({} : ConnectLoop).openSocket a.descriptor).socket = toUInt64 a.descriptor := rfl
  rw [connectLoop]
  simp only [hsocket, AddrInfo.toUInt64_descriptor_eq_zero_iff,
    AddrInfo.toInt32_toUInt64_descriptor, a.closeSocket_openSocket]
  by_cases hzero : a.descriptor = 0
  · rw [if_pos hzero, if_pos hzero, hzero]
    rfl
  rw [if_neg hzero, if_neg hzero]
  by_cases hreachable : a.Reachable
  · have hconnects : a.connects a.descriptor = true := hreachable
    rw [if_pos hconnects, if_pos hreachable, AddrInfo.openSocket_of_reachable hreachable]
  · have hrefuses : ¬ a.connects a.descriptor = true := hreachable
    rw [if_neg hrefuses, if_neg hreachable]

/-! ### The loop -/

section Loop

variable {candidates before after : List AddrInfo} {a : AddrInfo}

/-- Addresses that cannot be reached and get no `0` are passed by. -/
theorem connectLoop_append (hbefore : ∀ b ∈ before, ¬ b.Reachable ∧ b.descriptor ≠ 0) :
    connectLoop (before ++ candidates) {} = connectLoop candidates {} := by
  induction before with
  | nil => rfl
  | cons b before ih =>
    rw [List.forall_mem_cons] at hbefore
    obtain ⟨⟨hunreachable, hzero⟩, hbefore⟩ := hbefore
    rw [List.cons_append, connectLoop_cons, if_neg hzero, if_neg hunreachable, ih hbefore]

/-- Of addresses that cannot be reached, either one gets the `0`, or all are passed by. -/
theorem connectLoop_append_cases (hbefore : ∀ b ∈ before, ¬ b.Reachable) :
    (∀ b ∈ before, b.descriptor ≠ 0) ∨ connectLoop (before ++ candidates) {} = ⟨0, [0]⟩ := by
  induction before with
  | nil => exact .inl (by simp)
  | cons b before ih =>
    rw [List.forall_mem_cons] at hbefore
    rw [List.cons_append, connectLoop_cons, if_neg hbefore.1, List.forall_mem_cons]
    by_cases hzero : b.descriptor = 0
    · exact .inr (if_pos hzero)
    · rw [if_neg hzero]
      exact (ih hbefore.2).imp_left fun hne => ⟨hzero, hne⟩

/-- A `0` that the loop comes to ends it. -/
theorem connectLoop_of_zero (hzero : ¬ NoneIsZero candidates) :
    connectLoop candidates {} = ⟨0, [0]⟩ := by
  simp only [NoneIsZero, not_forall, not_not] at hzero
  obtain ⟨before, a, after, rfl, hbefore, hdescriptor⟩ := hzero
  have hcases : (∀ b ∈ before, b.descriptor ≠ 0) ∨
      connectLoop (before ++ a :: after) {} = ⟨0, [0]⟩ := connectLoop_append_cases hbefore
  rcases hcases with hne | hends
  · rw [connectLoop_append fun b hb => ⟨hbefore b hb, hne b hb⟩, connectLoop_cons,
      if_pos hdescriptor]
  · exact hends

/-- Before the first address that can be reached, none gets a `0`. -/
theorem NoneIsZero.passed (h : NoneIsZero (before ++ candidates))
    (hbefore : ∀ b ∈ before, ¬ b.Reachable) : ∀ b ∈ before, ¬ b.Reachable ∧ b.descriptor ≠ 0 := by
  intro b hb
  obtain ⟨left, right, rfl⟩ := List.append_of_mem hb
  refine ⟨hbefore b hb, h left b (right ++ candidates) (by simp) fun c hc => ?_⟩
  exact hbefore c (List.mem_append_left _ hc)

theorem NoneIsZero.connectLoop_of_first (h : NoneIsZero candidates)
    (hfirst : FirstReachable candidates a) :
    connectLoop candidates {} = ⟨a.descriptor, [a.descriptor]⟩ ∧ a.descriptor ≠ 0 := by
  obtain ⟨before, after, rfl, hbefore, hreachable⟩ := hfirst
  have hne := h before a after rfl hbefore
  rw [connectLoop_append (h.passed hbefore), connectLoop_cons, if_neg hne, if_pos hreachable]
  exact ⟨rfl, hne⟩

theorem NoneIsZero.connectLoop_of_unreachable (h : NoneIsZero candidates)
    (hnone : ∀ b ∈ candidates, ¬ b.Reachable) : connectLoop candidates {} = {} := by
  have hall : NoneIsZero (candidates ++ []) := by rwa [List.append_nil]
  have hloop : connectLoop (candidates ++ []) {} = connectLoop [] {} :=
    connectLoop_append (hall.passed hnone)
  rwa [List.append_nil] at hloop

theorem exists_firstReachable (h : ∃ a ∈ candidates, a.Reachable) :
    ∃ a, FirstReachable candidates a := by
  induction candidates with
  | nil => simp at h
  | cons b candidates ih =>
    by_cases hreachable : b.Reachable
    · exact ⟨b, [], candidates, rfl, by simp, hreachable⟩
    · obtain ⟨a, ha, hareachable⟩ := h
      have htail : ∃ a ∈ candidates, a.Reachable := by
        rcases List.mem_cons.mp ha with rfl | ha
        · exact absurd hareachable hreachable
        · exact ⟨a, ha, hareachable⟩
      obtain ⟨a, before, after, rfl, hbefore, hfirst⟩ := ih htail
      refine ⟨a, b :: before, after, rfl, ?_, hfirst⟩
      rw [List.forall_mem_cons]
      exact ⟨hreachable, hbefore⟩

end Loop

/-- **The connect loop.** For every list of addresses and every answer of `socket` and `connect`,
the loop ends with the descriptor of the first address that can be reached, the others closed, and
with `INVALID_SOCKET` exactly where there is none, if and only if no address it comes to gets the
descriptor `0`. -/
theorem picksFirst_iff (candidates : List AddrInfo) :
    PicksFirst candidates ↔ NoneIsZero candidates := by
  constructor
  · intro hpicks
    by_contra hzero
    have hloop := connectLoop_of_zero hzero
    -- the loop looks unconnected, and has left `0` open
    have hnone := hpicks.unconnected.mp (by rw [hloop]; rfl)
    have hopened := hpicks.unreachable hnone
    rw [hloop] at hopened
    cases hopened
  · intro hzero
    refine ⟨fun a hfirst => ?_, fun hnone => ?_, ?_, fun hnone => ?_⟩
    · rw [(hzero.connectLoop_of_first hfirst).1]
      exact ⟨rfl, rfl⟩
    · rw [hzero.connectLoop_of_unreachable hnone]
    · intro hinvalid a ha hreachable
      obtain ⟨first, hfirst⟩ := exists_firstReachable ⟨a, ha, hreachable⟩
      obtain ⟨hloop, hne⟩ := hzero.connectLoop_of_first hfirst
      rw [hloop] at hinvalid
      exact hne hinvalid
    · rw [hzero.connectLoop_of_unreachable hnone]

/-- An address that is the first to be reached, with standard input closed. -/
def zeroDescriptor : AddrInfo where
  descriptor := 0
  connects d := 0 ≤ d
  descriptor_ge := by decide
  descriptor_lt := by decide
  connects_neg d hd := decide_eq_false (not_le.mpr hd)

/-- The descriptor `0` is taken for no socket. -/
theorem not_picksFirst_zero : ¬ ∀ candidates, PicksFirst candidates := by
  intro hall
  have hnone := (hall [zeroDescriptor]).unconnected.mp rfl
  exact hnone zeroDescriptor List.mem_cons_self rfl

/-! ### The client's model of the loop -/

/-- The address as a candidate. -/
def AddrInfo.candidate (a : AddrInfo) : Candidate where
  socket := a.descriptor
  connects := a.connects a.descriptor
  connection := {}
  isSocket := descriptor_nonneg
  unsent := rfl
  counts := by simp

/-- The loop leaves `_socket` as the client's model of it does. -/
theorem socket_connectToCandidates {candidates : List AddrInfo} {h : SocketSidebandData}
    (hsocket : h.socket = invalidSocket) :
    (SocketSidebandData.connectToCandidates (candidates.map AddrInfo.candidate) h).socket =
      (connectLoop candidates {}).socket := by
  induction candidates generalizing h with
  | nil => exact hsocket
  | cons a candidates ih =>
    rw [List.map_cons, SocketSidebandData.connectToCandidates, connectLoop_cons]
    by_cases hzero : a.descriptor = 0
    · rw [if_pos hzero, if_pos (show a.candidate.socket = invalidSocket from hzero)]
      exact hzero
    rw [if_neg hzero, if_neg (show ¬ a.candidate.socket = invalidSocket from hzero)]
    by_cases hreachable : a.Reachable
    · rw [if_pos hreachable, if_pos (show a.candidate.connects = true from hreachable)]
      rfl
    · rw [if_neg hreachable, if_neg (show ¬ a.candidate.connects = true from hreachable)]
      exact ih rfl

end Sideband
