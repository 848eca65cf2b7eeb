import Sideband.Connect.Address

/-!
# The url of the sockets, taken apart again

In a build without RDMA, what `RunSidebandSocketsAccept` is given becomes the url that
`GetSidebandConnectionAddress` writes and that `ClientInit` splits. On the way the url is the format
of a `sprintf` without arguments, and the colon is put behind an address that may hold others.

* `sprintf_eq_self_iff`: a format comes out as it is exactly when it has no `%`.
* `notMem_of_mem_splitUrlString`: no token has a colon.
* `takenApart_iff`: so a client gets the address and the port back exactly when the address has
  neither character.
-/

namespace Sideband

/-! ### Without RDMA -/

namespace WithoutRdma

/-- `GetSocketsAddress` of a build without RDMA, which has no interfaces to ask for. -/
def getSocketsAddress (s : ServerAddresses) : List Char :=
  if 0 < s.socketsAddress.length then s.socketsAddress else "localhost".toList

/-- `GetConnectionAddress`: address and port with a colon in between. The strategy makes no
difference. -/
def getConnectionAddress (s : ServerAddresses) (_strategy : SidebandStrategy) : List Char :=
  getSocketsAddress s ++ ":".toList ++ s.getSocketsPort

/-- `sprintf` without arguments. A conversion, which then has none, is undefined, and the format
ends at a null character. `%%` is the one conversion that takes none. -/
def sprintf : List Char → Option (List Char)
  | [] => some []
  | '%' :: '%' :: s => (sprintf s).map ('%' :: ·)
  | c :: s =>
    if c = Char.ofNat 0 then some []
    else if c = '%' then none
    else (sprintf s).map (c :: ·)

/-- `GetSidebandConnectionAddress`: the text that is written to `address`, an array of 1024
characters, the last one for the null character. -/
def getSidebandConnectionAddress (s : ServerAddresses) (strategy : SidebandStrategy) :
    Option (List Char) := do
  let address ← sprintf (getConnectionAddress s strategy)
  if address.length < 1024 then some address else none

/-- What `RunSidebandSocketsAccept` sets before anything else. -/
def runSidebandSocketsAccept (address : List Char) (port : ℤ) (s : ServerAddresses) :
    ServerAddresses :=
  { s with socketsAddress := address, socketsPort := port }

end WithoutRdma

/-! ### The two ends -/

/-- An address and a port that `RunSidebandSocketsAccept` is given: a text that a C string can
hold, short enough for the buffer, and a port that the kernel binds as it is. -/
structure PublishedEndpoint where
  address : List Char
  port : ℤ
  nonempty : address ≠ []
  /-- A `const char*` ends at the first null character. -/
  terminated : Char.ofNat 0 ∉ address
  short : address.length ≤ 1000
  port_pos : 1 ≤ port
  port_le : port ≤ 65535

open WithoutRdma

/-- The text that is written is the address, a colon and the port, and the two tokens a client
connects with are the address and the port. -/
def TakenApart (e : PublishedEndpoint) (s : ServerAddresses) (strategy : SidebandStrategy) : Prop :=
  ∃ text,
    getSidebandConnectionAddress (runSidebandSocketsAccept e.address e.port s) strategy =
      some text ∧
    text = e.address ++ ':' :: decimal e.port ∧
    (splitUrlString text).take 2 = [e.address, decimal e.port]

/-! ### `sprintf` -/

section Sprintf

variable {c : Char} {s t : List Char}

theorem sprintf_cons (hc : c ≠ '%') :
    sprintf (c :: s) = if c = Char.ofNat 0 then some [] else (sprintf s).map (c :: ·) := by
  rw [sprintf]
  · rw [if_neg hc]
  · rintro s' rfl
    exact absurd rfl hc

theorem sprintf_of_notMem (hpercent : '%' ∉ s) (hterminated : Char.ofNat 0 ∉ s) :
    sprintf s = some s := by
  induction s with
  | nil => rfl
  | cons c s ih =>
    rw [List.mem_cons, not_or] at hpercent hterminated
    rw [sprintf_cons (Ne.symm hpercent.1), if_neg (Ne.symm hterminated.1),
      ih hpercent.2 hterminated.2]
    rfl

/-- The output is no longer than the format, and shorter where the format has a `%`. -/
theorem length_of_sprintf (h : sprintf s = some t) :
    t.length ≤ s.length ∧ ('%' ∈ s → t.length < s.length) := by
  induction s using sprintf.induct generalizing t with
  | case1 =>
    cases h
    simp
  | case2 s ih =>
    rw [sprintf] at h
    obtain ⟨t', ht', rfl⟩ := Option.map_eq_some_iff.mp h
    obtain ⟨hle, -⟩ := ih ht'
    simp only [List.length_cons]
    omega
  | case3 s hpairs =>
    rw [sprintf] at h
    · rw [if_pos rfl] at h
      cases h
      simp
    · exact hpairs
  | case4 s hpairs hterminated =>
    rw [sprintf] at h
    · rw [if_neg hterminated, if_pos rfl] at h
      cases h
    · exact hpairs
  | case5 c s hpairs hterminated hpercent ih =>
    rw [sprintf_cons hpercent, if_neg hterminated] at h
    obtain ⟨t', ht', rfl⟩ := Option.map_eq_some_iff.mp h
    obtain ⟨hle, hlt⟩ := ih ht'
    simp only [List.length_cons, List.mem_cons, Ne.symm hpercent, false_or]
    exact ⟨Nat.succ_le_succ hle, fun hmem => Nat.succ_lt_succ (hlt hmem)⟩

/-- A format comes out as it is exactly when there is no `%` in it. -/
theorem sprintf_eq_self_iff (hterminated : Char.ofNat 0 ∉ s) : sprintf s = some s ↔ '%' ∉ s := by
  constructor
  · intro hsame hpercent
    exact lt_irrefl _ ((length_of_sprintf hsame).2 hpercent)
  · intro hpercent
    exact sprintf_of_notMem hpercent hterminated

end Sprintf

/-! ### The tokens -/

/-- The delimiter is in no token. -/
theorem notMem_of_mem_splitUrlString {s token : List Char} (h : token ∈ splitUrlString s) :
    ':' ∉ token := by
  induction s generalizing token with
  | nil => cases h
  | cons c s ih =>
    rw [splitUrlString] at h
    split_ifs at h with hc
    · rcases List.mem_cons.mp h with rfl | h
      · exact List.not_mem_nil
      · exact ih h
    · cases hsplit : splitUrlString s with
      | nil =>
        rw [hsplit] at h
        obtain rfl := List.mem_singleton.mp h
        exact fun hmem => hc (List.mem_singleton.mp hmem).symm
      | cons first tokens =>
        rw [hsplit] at h ih
        rcases List.mem_cons.mp h with rfl | h
        · rw [List.mem_cons, not_or]
          exact ⟨Ne.symm hc, ih List.mem_cons_self⟩
        · exact ih (List.mem_cons_of_mem _ h)

/-! ### The round trip -/

section RoundTrip

variable {e : PublishedEndpoint} {s : ServerAddresses} {strategy : SidebandStrategy}

theorem getConnectionAddress_runSidebandSocketsAccept (e : PublishedEndpoint) (s : ServerAddresses)
    (strategy : SidebandStrategy) :
    WithoutRdma.getConnectionAddress (runSidebandSocketsAccept e.address e.port s) strategy =
      e.address ++ ':' :: decimal e.port := by
  have hpos : 0 < e.port := e.port_pos
  have haddress : WithoutRdma.getSocketsAddress (runSidebandSocketsAccept e.address e.port s) =
      e.address := if_pos (List.length_pos_iff.mpr e.nonempty)
  have hport : (runSidebandSocketsAccept e.address e.port s).getSocketsPort = decimal e.port :=
    if_pos hpos
  rw [WithoutRdma.getConnectionAddress, haddress, hport, List.append_assoc]
  rfl

/-- A port has digits only. -/
theorem decimal_port (e : PublishedEndpoint) : decimal e.port = Nat.toDigits 10 e.port.toNat := by
  have hpos := e.port_pos
  obtain ⟨n, hn⟩ := Int.eq_ofNat_of_zero_le (show 0 ≤ e.port by omega)
  rw [hn]
  rfl

theorem notMem_decimal_port {c : Char} (hc : c.isDigit = false) : c ∉ decimal e.port := by
  intro hmem
  rw [decimal_port] at hmem
  rw [isDigit_of_mem_toDigits c hmem] at hc
  cases hc

theorem length_decimal_port_le (e : PublishedEndpoint) : (decimal e.port).length ≤ 5 := by
  have hle := e.port_le
  rw [decimal_port]
  exact (Nat.length_toDigits_le_iff (by norm_num) (by norm_num)).mpr (by omega)

theorem notMem_url_iff {c : Char} (hdigit : c.isDigit = false) (hcolon : c ≠ ':') :
    c ∉ e.address ++ ':' :: decimal e.port ↔ c ∉ e.address := by
  have hport : c ∉ decimal e.port := notMem_decimal_port hdigit
  simp [hport, hcolon]

/-- What is written, if it is written at all, is the url exactly when the address has no `%`. -/
theorem getSidebandConnectionAddress_eq_iff :
    getSidebandConnectionAddress (runSidebandSocketsAccept e.address e.port s) strategy =
      some (e.address ++ ':' :: decimal e.port) ↔ '%' ∉ e.address := by
  have hterminated : Char.ofNat 0 ∉ e.address ++ ':' :: decimal e.port :=
    (notMem_url_iff (by decide) (by decide)).mpr e.terminated
  have hlength : (e.address ++ ':' :: decimal e.port).length < 1024 := by
    have haddress := e.short
    have hport := length_decimal_port_le e
    rw [List.length_append, List.length_cons]
    omega
  rw [getSidebandConnectionAddress, getConnectionAddress_runSidebandSocketsAccept,
    ← notMem_url_iff (e := e) (c := '%') (by decide) (by decide),
    ← sprintf_eq_self_iff hterminated, Option.bind_eq_bind, Option.bind_eq_some_iff]
  constructor
  · rintro ⟨text, htext, hwritten⟩
    split_ifs at hwritten
    rw [htext, hwritten]
  · intro htext
    exact ⟨_, htext, if_pos hlength⟩

/-- Of the url, the tokens a client uses are the address and the port exactly when the address has
no colon. -/
theorem take_splitUrlString_eq_iff :
    (splitUrlString (e.address ++ ':' :: decimal e.port)).take 2 = [e.address, decimal e.port] ↔
      ':' ∉ e.address := by
  constructor
  · intro htokens
    have hmem : e.address ∈ (splitUrlString (e.address ++ ':' :: decimal e.port)).take 2 := by
      rw [htokens]
      exact List.mem_cons_self
    exact notMem_of_mem_splitUrlString (List.mem_of_mem_take hmem)
  · intro hcolon
    have hport : ':' ∉ decimal e.port := notMem_decimal_port (by decide)
    have hne : decimal e.port ≠ [] := by
      rw [decimal_port]
      exact Nat.toDigits_ne_nil
    rw [splitUrlString_append hcolon, splitUrlString_of_notMem hport hne]
    rfl

/-- **The url of the sockets.** For every address and port, whatever was set before, the url is
written and taken apart again exactly when the address has neither a `%` nor a colon. -/
theorem takenApart_iff (e : PublishedEndpoint) (s : ServerAddresses)
    (strategy : SidebandStrategy) :
    TakenApart e s strategy ↔ '%' ∉ e.address ∧ ':' ∉ e.address := by
  have hwrites : getSidebandConnectionAddress (runSidebandSocketsAccept e.address e.port s)
      strategy = some (e.address ++ ':' :: decimal e.port) ↔ '%' ∉ e.address :=
    getSidebandConnectionAddress_eq_iff
  rw [← hwrites, ← take_splitUrlString_eq_iff]
  constructor
  · rintro ⟨text, hwritten, rfl, htokens⟩
    exact ⟨hwritten, htokens⟩
  · rintro ⟨hwritten, htokens⟩
    exact ⟨_, hwritten, rfl, htokens⟩

end RoundTrip

/-- The loopback address of IPv6. -/
def loopback6 : PublishedEndpoint where
  address := "::1".toList
  port := 50055
  nonempty := by decide
  terminated := by decide
  short := by decide
  port_pos := by decide
  port_le := by decide

/-- The first token of its url is empty. -/
theorem not_takenApart_loopback6 : ¬ ∀ (e : PublishedEndpoint) (s : ServerAddresses),
    TakenApart e s .sockets := by
  intro hall
  obtain ⟨text, -, rfl, htokens⟩ := hall loopback6 ⟨[], 0, [], 0⟩
  revert htokens
  decide

end Sideband
