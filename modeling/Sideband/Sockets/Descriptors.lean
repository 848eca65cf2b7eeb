import Sideband.Connect.Candidates
import Sideband.Foundation.Ledger
import Sideband.Foundation.Machine

/-!
# Descriptors

The descriptors of a process that listens for sideband connections with `RunSidebandSocketsAccept`,
connects to others with `ClientInit` and deletes its handles, among the descriptors that it has for
other things. The calls of the kernel answer with any descriptor that is not open.

A descriptor is accounted for if it has one owner: the accept loop, a handle, or the rest of the
process (`Accounted`). Two things lose count of them. `RunSidebandSocketsAccept` returns at an error
without closing its socket, and `INVALID_SOCKET` is the descriptor `0`, so the destructor of a
handle that never connected closes that. There is nothing else: `accounted_iff`.
-/

namespace Sideband

open Foundation

/-! ### Handles and the accept loop -/

/-- `_socket`, and the descriptor that was opened for the handle. They differ for a handle that
has none: its `_socket` is `INVALID_SOCKET`, and that is the descriptor `0`. -/
structure SocketHandle where
  socket : ℤ
  descriptor : Option ℤ
  agrees : socket = descriptor.getD invalidSocket
  isInt : ∀ d ∈ descriptor, 0 ≤ d ∧ d < 2 ^ 31

/-- How far `RunSidebandSocketsAccept` is: the call that it makes next. What it does with the
connections, beyond making a handle of each, is left out. -/
inductive AcceptLoop
  | starting
  | unbound (sockfd : ℤ)
  /-- At the test of the stop flag. -/
  | testing (sockfd : ℤ)
  | selecting (sockfd : ℤ)
  | accepting (sockfd : ℤ)
  | closing (sockfd : ℤ)
  | returned (result : ℤ)
  deriving DecidableEq, Repr

/-- The socket that the loop listens on, from the moment that `socket` returns it to the `close`
at the end. -/
def AcceptLoop.sockfd : AcceptLoop → Option ℤ
  | .starting => none
  | .unbound sockfd => some sockfd
  | .testing sockfd => some sockfd
  | .selecting sockfd => some sockfd
  | .accepting sockfd => some sockfd
  | .closing sockfd => some sockfd
  | .returned _ => none

/-- The open descriptors of a process, those that are none of the transport's, the accept loop
and the handles. `foreign` is what other code has opened and will close itself, standard input
for one. -/
structure Descriptors (ι : Type) where
  opened : Finset ℤ
  foreign : Finset ℤ
  acceptLoop : AcceptLoop := .starting
  handles : ι → Option SocketHandle := fun _ => none

/-- A call with the kernel's answer to it. New handles get an index that is not in use, and new
descriptors a number that is not open. -/
inductive DescriptorStep (ι : Type)
  | openForeign (d : ℤ)
  | closeForeign (d : ℤ)
  /-- The results of the calls of `RunSidebandSocketsAccept`. -/
  | socket (sockfd : ℤ)
  | bind (result : ℤ)
  | loadStopFlag (stop : Bool)
  | select (activity : ℤ) (isSet : Bool)
  | accept (i : ι) (newsockfd : ℤ)
  | close
  | clientInit (i : ι) (candidates : List AddrInfo)
  | delete (i : ι)

/-- What the loop over the addresses leaves open is what it leaves in the field. -/
theorem connectLoop_cases (candidates : List AddrInfo) : connectLoop candidates {} = {} ∨
    ∃ a ∈ candidates, 0 ≤ a.descriptor ∧
      connectLoop candidates {} = ⟨a.descriptor, [a.descriptor]⟩ := by
  induction candidates with
  | nil => exact .inl rfl
  | cons a candidates ih =>
    rw [connectLoop_cons]
    by_cases hzero : a.descriptor = 0
    · rw [if_pos hzero]
      exact .inr ⟨a, List.mem_cons_self, hzero.ge, by rw [hzero]⟩
    rw [if_neg hzero]
    by_cases hreachable : a.Reachable
    · rw [if_pos hreachable]
      exact .inr ⟨a, List.mem_cons_self, AddrInfo.descriptor_nonneg hreachable, rfl⟩
    · rw [if_neg hreachable]
      exact ih.imp_right fun ⟨b, hb, hrest⟩ => ⟨b, List.mem_cons_of_mem a hb, hrest⟩

/-- `new SocketSidebandData(usageId, ..)` and `ConnectToSocket`, with the kernel's answers for
each address. The handle has the descriptor that the loop has left open, if there is one. -/
def SocketHandle.clientInit (candidates : List AddrInfo) : SocketHandle where
  socket := (connectLoop candidates {}).socket
  descriptor := (connectLoop candidates {}).opened.head?
  agrees := by
    rcases connectLoop_cases candidates with hloop | ⟨a, -, -, hloop⟩
    · rw [hloop]
      rfl
    · rw [hloop]
      rfl
  isInt d hd := by
    rcases connectLoop_cases candidates with hloop | ⟨a, -, hnonneg, hloop⟩
    · rw [hloop] at hd
      cases hd
    · rw [hloop] at hd
      obtain rfl := Option.some.inj hd
      exact ⟨hnonneg, a.descriptor_lt⟩

/-- `new SocketSidebandData(socket, ..)` in `InitFromConnection`, for the socket that `accept`
has returned. It is not negative: the loop looks at the result. -/
def SocketHandle.initFromConnection (socket : ℤ) (h : 0 ≤ socket ∧ socket < 2 ^ 31) :
    SocketHandle where
  socket := toUInt64 socket
  descriptor := some socket
  agrees := Int.emod_eq_of_lt h.1 (by omega)
  isInt d hd := Option.some.inj hd ▸ h

/-! ### The process -/

/-- The calls of the kernel and the transport's steps, in any order. The kernel answers with any
descriptor that is not open, and nobody closes a descriptor of another owner knowingly. There is
one accept loop, which runs once. -/
def descriptors (ι : Type) [DecidableEq ι] : Machine (Descriptors ι) (DescriptorStep ι) where
  init s := s = { opened := s.foreign, foreign := s.foreign }
  next s
    | .openForeign d =>
      if d ∈ s.opened then none
      else some { s with opened := insert d s.opened, foreign := insert d s.foreign }
    | .closeForeign d =>
      if d ∈ s.foreign then
        some { s with opened := s.opened.erase d, foreign := s.foreign.erase d }
      else none
    | .socket sockfd =>
      match s.acceptLoop with
      | .starting =>
        if sockfd < 0 then some { s with acceptLoop := .returned (-1) }
        else if sockfd ∈ s.opened then none
        else some { s with opened := insert sockfd s.opened, acceptLoop := .unbound sockfd }
      | _ => none
    | .bind result =>
      match s.acceptLoop with
      | .unbound sockfd =>
        some { s with acceptLoop := if result < 0 then .returned (-1) else .testing sockfd }
      | _ => none
    | .loadStopFlag stop =>
      match s.acceptLoop with
      | .testing sockfd =>
        some { s with acceptLoop := if stop then .closing sockfd else .selecting sockfd }
      | _ => none
    | .select activity isSet =>
      match s.acceptLoop with
      | .selecting sockfd => some { s with
          acceptLoop :=
            if activity < 0 then .returned (-1)
            else if activity = 0 then .testing sockfd
            else if isSet then .accepting sockfd else .testing sockfd }
      | _ => none
    | .accept i newsockfd =>
      match s.acceptLoop with
      | .accepting sockfd =>
        if hneg : newsockfd < 0 then some { s with acceptLoop := .returned (-1) }
        else if hlt : newsockfd < 2 ^ 31 ∧ newsockfd ∉ s.opened ∧ (s.handles i).isNone then
          some { s with
            opened := insert newsockfd s.opened
            acceptLoop := .testing sockfd
            handles := Function.update s.handles i
              (some (.initFromConnection newsockfd ⟨not_lt.mp hneg, hlt.1⟩)) }
        else none
      | _ => none
    | .close =>
      match s.acceptLoop with
      | .closing sockfd =>
        some { s with opened := s.opened.erase sockfd, acceptLoop := .returned 0 }
      | _ => none
    | .clientInit i candidates =>
      if (s.handles i).isNone ∧ ∀ a ∈ candidates, a.descriptor ∉ s.opened then
        some { s with
          opened := (connectLoop candidates {}).opened.foldr insert s.opened
          handles := Function.update s.handles i (some (.clientInit candidates)) }
      else none
    -- `CloseSidebandData` and the destructor
    | .delete i => (s.handles i).map fun h => { s with
        opened := s.opened.erase (toInt32 h.socket)
        handles := Function.update s.handles i none }

/-! ### Owners -/

/-- Who has to close a descriptor. A descriptor of the process that the sideband has not opened,
such as its standard input, is foreign. -/
inductive Owner (ι : Type)
  | foreign
  | acceptLoop
  | handle (i : ι)

variable {ι : Type} {s s' : Descriptors ι} {i : ι} {d : ℤ}

/-- What an owner has to close. A handle holds what its destructor closes, if it was ever
connected. -/
def Descriptors.Holds (s : Descriptors ι) : Owner ι → ℤ → Prop
  | .foreign, d => d ∈ s.foreign
  | .acceptLoop, d => s.acceptLoop.sockfd = some d
  | .handle i, d => (s.handles i).bind SocketHandle.descriptor = some d

/-- Every open descriptor has one owner, and is open for it: none is leaked, and none is closed
under its owner. -/
def Accounted (s : Descriptors ι) : Prop := Ledger s.opened s.Holds

/-- Neither `bind` nor `select` nor `accept` fails, and no handle that has no descriptor is
deleted while `0` is open. A failing `socket` is harmless: the loop has nothing yet that it could
lose. -/
def Harmless (s : Descriptors ι) : DescriptorStep ι → Prop
  | .bind result => 0 ≤ result
  | .select activity _ => 0 ≤ activity
  | .accept _ newsockfd => 0 ≤ newsockfd
  | .delete i => (s.handles i).bind SocketHandle.descriptor = none → 0 ∉ s.opened
  | _ => True

/-- The loop goes on with its socket. -/
theorem Accounted.goesOn (h : Accounted s) {acceptLoop : AcceptLoop}
    (hsame : acceptLoop.sockfd = s.acceptLoop.sockfd) : Accounted { s with acceptLoop } := by
  refine Ledger.congr h fun o d => ?_
  cases o with
  | acceptLoop => exact iff_of_eq (congrArg (· = some d) hsame)
  | _ => exact Iff.rfl

/-- The loop returns and leaves its socket. -/
theorem Accounted.not_abandoned (h : Accounted s) {result : ℤ}
    (hsome : s.acceptLoop.sockfd.isSome) :
    ¬ Accounted { s with acceptLoop := .returned result } := by
  obtain ⟨sockfd, hsockfd⟩ := Option.isSome_iff_exists.mp hsome
  refine Ledger.not_of_lost h (o := .acceptLoop) hsockfd fun o ho => ?_
  cases o with
  | acceptLoop => cases ho
  | foreign => exact ⟨fun hne => (by cases hne), ho⟩
  | handle i => exact ⟨fun hne => (by cases hne), ho⟩

variable [DecidableEq ι]

/-- A handle comes with a descriptor of its own. -/
theorem Accounted.insert_handle (h : Accounted s) {handle : SocketHandle}
    {acceptLoop : AcceptLoop} (hsame : acceptLoop.sockfd = s.acceptLoop.sockfd)
    (hnone : (s.handles i).isNone) (hd : handle.descriptor = some d) (hnew : d ∉ s.opened) :
    Accounted { s with
      opened := insert d s.opened, acceptLoop
      handles := Function.update s.handles i (some handle) } := by
  refine Ledger.acquire h (o := .handle i) hnew fun o e => ?_
  cases o with
  | foreign => simp [Descriptors.Holds]
  | acceptLoop => simp [Descriptors.Holds, hsame]
  | handle j =>
    by_cases hj : j = i
    · subst hj
      have hnothing : (s.handles j).bind SocketHandle.descriptor = none := by
        rw [Option.isNone_iff_eq_none.mp hnone]
        rfl
      simp [Descriptors.Holds, hnothing, hd, eq_comm]
    · simp [Descriptors.Holds, hj]

/-- A handle comes without one. -/
theorem Accounted.insert_unconnected (h : Accounted s) {handle : SocketHandle}
    (hnone : (s.handles i).isNone) (hd : handle.descriptor = none) :
    Accounted { s with handles := Function.update s.handles i (some handle) } := by
  refine Ledger.congr h fun o e => ?_
  cases o with
  | handle j =>
    by_cases hj : j = i
    · subst hj
      simp [Descriptors.Holds, Option.isNone_iff_eq_none.mp hnone, hd]
    · simp [Descriptors.Holds, Function.update_of_ne hj]
  | _ => exact Iff.rfl

theorem Accounted.clientInit (h : Accounted s) {candidates : List AddrInfo}
    (hnone : (s.handles i).isNone) (hnew : ∀ a ∈ candidates, a.descriptor ∉ s.opened) :
    Accounted { s with
      opened := (connectLoop candidates {}).opened.foldr insert s.opened
      handles := Function.update s.handles i (some (.clientInit candidates)) } := by
  rcases connectLoop_cases candidates with hloop | ⟨a, ha, -, hloop⟩
  · rw [hloop]
    exact h.insert_unconnected hnone (by rw [SocketHandle.clientInit]; simp [hloop])
  · rw [hloop]
    exact h.insert_handle rfl hnone (by rw [SocketHandle.clientInit]; simp [hloop]) (hnew a ha)

/-- The destructor closes the descriptor of a handle. -/
theorem Accounted.delete_connected (h : Accounted s)
    (hd : (s.handles i).bind SocketHandle.descriptor = some d) :
    Accounted { s with
      opened := s.opened.erase d, handles := Function.update s.handles i none } := by
  have hholds : s.Holds (.handle i) d := hd
  refine Ledger.release h hholds fun o e => ?_
  cases o with
  | foreign => simp [Descriptors.Holds]
  | acceptLoop => simp [Descriptors.Holds]
  | handle j =>
    by_cases hj : j = i
    · subst hj
      simp [Descriptors.Holds, hd, eq_comm]
    · simp [Descriptors.Holds, hj]

omit [DecidableEq ι] in
theorem Descriptors.holds_opened (opened : Finset ℤ) (o : Owner ι) :
    ({ s with opened }).Holds o d ↔ s.Holds o d := by
  cases o <;> exact Iff.rfl

/-- A handle without a descriptor leaves nothing. -/
theorem Descriptors.holds_delete_unconnected
    (hd : (s.handles i).bind SocketHandle.descriptor = none) (o : Owner ι) :
    ({ s with handles := Function.update s.handles i none }).Holds o d ↔ s.Holds o d := by
  cases o with
  | handle j =>
    by_cases hj : j = i
    · subst hj
      simp [Descriptors.Holds, hd]
    · simp [Descriptors.Holds, Function.update_of_ne hj]
  | _ => exact Iff.rfl

/-- The destructor closes `0` for a handle that has no descriptor. -/
theorem Accounted.delete_unconnected_iff (h : Accounted s)
    (hd : (s.handles i).bind SocketHandle.descriptor = none) :
    Accounted { s with
      opened := s.opened.erase 0, handles := Function.update s.handles i none } ↔
        0 ∉ s.opened := by
  have hdeleted : Accounted { s with handles := Function.update s.handles i none } :=
    Ledger.congr h fun o e => Descriptors.holds_delete_unconnected hd o
  constructor
  · exact fun hafter hzero => Ledger.not_of_taken hdeleted hzero
      (fun o ho => (Descriptors.holds_opened _ o).mpr ho) hafter
  · intro hzero
    rwa [Finset.erase_eq_of_notMem hzero]

theorem Accounted.delete_iff (h : Accounted s) {handle : SocketHandle}
    (hhandle : s.handles i = some handle) :
    Accounted { s with
      opened := s.opened.erase (toInt32 handle.socket)
      handles := Function.update s.handles i none } ↔ Harmless s (.delete i) := by
  have hbind : (s.handles i).bind SocketHandle.descriptor = handle.descriptor := by
    rw [hhandle]
    rfl
  rw [Harmless, handle.agrees]
  cases hd : handle.descriptor with
  | some d =>
    obtain ⟨hnonneg, hlt⟩ := handle.isInt d hd
    rw [Option.getD_some, toInt32_of_range (by omega) hlt, hbind, hd]
    exact iff_of_true (h.delete_connected (hbind.trans hd)) fun hnone => (by cases hnone)
  | none =>
    rw [hbind, hd]
    exact (h.delete_unconnected_iff (hbind.trans hd)).trans ⟨fun hzero _ => hzero,
      fun hzero => hzero rfl⟩

/-! ### Steps -/

/-- A step keeps the account exactly if it is harmless. In one direction it is the invariant's
step, in the other each harmful step has a descriptor that is lost, or closed while its owner
still has it. -/
theorem Accounted.next_iff (h : Accounted s) {a : DescriptorStep ι}
    (hnext : (descriptors ι).next s a = some s') : Accounted s' ↔ Harmless s a := by
  cases a with
  | openForeign d =>
    simp only [descriptors] at hnext
    split_ifs at hnext with hnew
    obtain rfl := Option.some.inj hnext
    refine iff_of_true (Ledger.acquire h (o := .foreign) hnew fun o e => ?_) trivial
    cases o <;> simp [Descriptors.Holds, or_comm]
  | closeForeign d =>
    simp only [descriptors] at hnext
    split_ifs at hnext with hforeign
    obtain rfl := Option.some.inj hnext
    have hholds : s.Holds .foreign d := hforeign
    refine iff_of_true (Ledger.release h hholds fun o e => ?_) trivial
    cases o <;> simp [Descriptors.Holds, and_comm]
  | socket sockfd =>
    simp only [descriptors] at hnext
    split at hnext
    · next hstarting =>
      split_ifs at hnext with hneg hopened
      · obtain rfl := Option.some.inj hnext
        exact iff_of_true (h.goesOn (by rw [hstarting]; rfl)) trivial
      · obtain rfl := Option.some.inj hnext
        refine iff_of_true (Ledger.acquire h (o := .acceptLoop) hopened fun o e => ?_) trivial
        cases o with
        | acceptLoop => simp [Descriptors.Holds, hstarting, AcceptLoop.sockfd, eq_comm]
        | _ => simp [Descriptors.Holds]
    · cases hnext
  | bind result =>
    simp only [descriptors] at hnext
    split at hnext
    · next sockfd hunbound =>
      obtain rfl := Option.some.inj hnext
      by_cases hneg : result < 0
      · rw [if_pos hneg]
        exact iff_of_false (h.not_abandoned (by rw [hunbound]; rfl))
          (not_le.mpr hneg)
      · rw [if_neg hneg]
        exact iff_of_true (h.goesOn (by rw [hunbound]; rfl)) (not_lt.mp hneg)
    · cases hnext
  | loadStopFlag stop =>
    simp only [descriptors] at hnext
    split at hnext
    · next sockfd htesting =>
      obtain rfl := Option.some.inj hnext
      exact iff_of_true (h.goesOn (by rw [htesting]; cases stop <;> rfl)) trivial
    · cases hnext
  | select activity isSet =>
    simp only [descriptors] at hnext
    split at hnext
    · next sockfd hselecting =>
      obtain rfl := Option.some.inj hnext
      by_cases hneg : activity < 0
      · rw [if_pos hneg]
        exact iff_of_false (h.not_abandoned (by rw [hselecting]; rfl))
          (not_le.mpr hneg)
      · rw [if_neg hneg]
        refine iff_of_true (h.goesOn ?_) (not_lt.mp hneg)
        rw [hselecting]
        split_ifs <;> rfl
    · cases hnext
  | accept i newsockfd =>
    simp only [descriptors] at hnext
    split at hnext
    · next sockfd haccepting =>
      split_ifs at hnext with hneg hall
      · obtain rfl := Option.some.inj hnext
        exact iff_of_false (h.not_abandoned (by rw [haccepting]; rfl))
          (not_le.mpr hneg)
      · obtain rfl := Option.some.inj hnext
        exact iff_of_true (h.insert_handle (by rw [haccepting]; rfl) hall.2.2 rfl hall.2.1)
          (not_lt.mp hneg)
    · cases hnext
  | close =>
    simp only [descriptors] at hnext
    split at hnext
    · next sockfd hclosing =>
      obtain rfl := Option.some.inj hnext
      have hholds : s.Holds .acceptLoop sockfd := by
        rw [Descriptors.Holds, hclosing]
        rfl
      refine iff_of_true (Ledger.release h hholds fun o e => ?_) trivial
      cases o with
      | acceptLoop => simp [Descriptors.Holds, hclosing, AcceptLoop.sockfd, eq_comm]
      | _ => simp [Descriptors.Holds]
    · cases hnext
  | clientInit i candidates =>
    simp only [descriptors] at hnext
    split_ifs at hnext with hall
    obtain rfl := Option.some.inj hnext
    exact iff_of_true (h.clientInit hall.1 hall.2) trivial
  | delete i =>
    obtain ⟨handle, hhandle, rfl⟩ := Option.map_eq_some_iff.mp hnext
    exact h.delete_iff hhandle

omit [DecidableEq ι] in
theorem accounted_init (hs : s = { opened := s.foreign, foreign := s.foreign }) : Accounted s := by
  rw [hs]
  refine ⟨fun d => ⟨fun hd => ⟨.foreign, hd⟩, ?_⟩, ?_⟩
  · rintro ⟨o, ho⟩
    cases o with
    | foreign => exact ho
    | acceptLoop => cases ho
    | handle i => cases ho
  · intro o o' d ho ho'
    cases o with
    | foreign =>
      cases o' with
      | foreign => rfl
      | acceptLoop => cases ho'
      | handle i => cases ho'
    | acceptLoop => cases ho
    | handle i => cases ho

/-- **Every descriptor is accounted for** throughout a run if and only if all of its steps are
harmless. The steps are those of the accept loop, of clients that connect and of handles that are
closed, in any order and with any outcome of the system calls. -/
theorem accounted_iff (hs : (descriptors ι).init s) (as : List (DescriptorStep ι)) :
    (descriptors ι).Throughout Accounted s as ↔ (descriptors ι).Meets Harmless s as :=
  Machine.throughout_iff_meets (fun _ _ _ h hnext => h.next_iff hnext) (accounted_init hs)

/-- An address that refuses. -/
def refusing : AddrInfo where
  descriptor := 3
  connects _ := false
  descriptor_ge := by decide
  descriptor_lt := by decide
  connects_neg _ _ := rfl

/-- A process that is started and stopped closes what it has opened, and the destructor of a handle
that was refused closes its standard input. -/
theorem accounted_iff_standardInput :
    (descriptors Unit).Throughout Accounted { opened := {0, 1, 2}, foreign := {0, 1, 2} }
      [.socket 3, .bind 0, .loadStopFlag true, .close] ∧
    ¬ (descriptors Unit).Throughout Accounted { opened := {0, 1, 2}, foreign := {0, 1, 2} }
      [.clientInit () [refusing], .delete ()] := by
  have hinit : (descriptors Unit).init { opened := {0, 1, 2}, foreign := {0, 1, 2} } := rfl
  constructor
  · rw [accounted_iff hinit]
    intro s₁ h₁
    obtain rfl := Option.some.inj h₁
    refine ⟨trivial, fun s₂ h₂ => ?_⟩
    obtain rfl := Option.some.inj h₂
    refine ⟨le_refl (0 : ℤ), fun s₃ h₃ => ?_⟩
    obtain rfl := Option.some.inj h₃
    exact ⟨trivial, fun _ _ => ⟨trivial, trivial⟩⟩
  · rw [accounted_iff hinit]
    intro h
    obtain ⟨-, hrest⟩ := h _ rfl
    obtain ⟨hdelete, -⟩ := hrest _ rfl
    exact hdelete rfl (by decide)

end Sideband
