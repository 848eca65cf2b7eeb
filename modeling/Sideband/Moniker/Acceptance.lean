import Sideband.Foundation.Mailbox
import Sideband.Moniker.SharedLoops

/-!
# Requests that the server accepts

Which requests the server's loop gets over shared memory, in every interleaving with a client.

Nothing in the code makes the loop wait for a request, or the client for the loop: a read of a
segment returns at once, and takes what is there. `WaitsForTurn` is the schedule under which the
loop gets what the client sent. A read begins only where a request is ready, the last thing that was
stored in the segment and by a write that is finished, and the client stores nothing there until the
read has parsed. The direct write stores no length, so the segment has to spell the request as well.

* `sharedLoops_refines`: on that schedule the loops are a mailbox whose boxes are the segments. What
  the parse returns comes out of the bytes in the segment, not out of the record.
* `appliesOnlySent_of_reachable`: the requests that the loop gets are then requests that the client
  has finished writing, each at most once.
* `not_appliesOnlySent_zeros`: without it the loop gets a request before any is written.

The theorem is about the requests that `ReadSidebandMessage` returns to the loop, a cancel among
them; what the endpoints make of them and what the client reads is left open.
-/

namespace Sideband

open Foundation

section Acceptance

variable {σ ε V η Q P : Type}

/-- The requests that the server's loop has got are requests that the client has finished writing,
each of them at most once, and so no more of them. -/
structure SharedLoops.AppliesOnlySent (s : SharedLoops σ ε V η Q P) : Prop where
  sent : s.accepted.Subperm s.sent
  length_le : s.accepted.length ≤ s.sent.length

variable (stream : SharedStream η) {requestFormat : WireFormat ({} : SidebandWriteRequest V)}
  {responseFormat : WireFormat ({} : SidebandReadResponse V)}

/-- The condition on the steps. The server begins a read only in a segment where a request is
ready, and which spells it; the client stores nothing where the server has begun to read. It is
one on the schedule and on what the memory holds before the step; nothing in the source sees to
it. -/
def WaitsForTurn (s : StreamLoops σ ε V η requestFormat responseFormat) :
    LoopStep requestFormat.Message → Prop
  | .server =>
    match s.server with
    | .beginRead => ∃ request, s.turn (s.slot stream .owner) = .ready request ∧
        spelled requestFormat.messageLite (stream.memory (s.service.transport.world .owner)) =
          some (some request)
    | _ => True
  | .client =>
    match s.client with
    | .serialize _ _ => ∀ request, s.turn (s.slot stream .client) ≠ .begun request
    | _ => True
  | _ => True

/-! ### Phases -/

/-- The client has stored its request, and not finished the write. -/
def ClientPhase.stored : ClientPhase Q → Bool
  | .finishWrite _ => true
  | _ => false

/-- The request that was parsed, while the read is not finished. -/
def ServerPhase.pending : ServerPhase Q P → List Q
  | .finishRead success => success.toList
  | _ => []

/-- Neither a read nor a write of the server is under way. -/
def ServerPhase.atRest : ServerPhase Q P → Bool
  | .beginRead | .handle _ | .beginWrite _ | .returned => true
  | _ => false

/-- No pointer is handed out: none that is still to be used. -/
def ServerPhase.pointless : ServerPhase Q P → Bool
  | .parse _ _ | .serialize _ _ => false
  | _ => true

theorem ServerPhase.pointless_of_atRest {phase : ServerPhase Q P} (h : phase.atRest = true) :
    phase.pointless = true := by
  cases phase <;> first | rfl | cases h

theorem ServerPhase.pending_of_atRest {phase : ServerPhase Q P} (h : phase.atRest = true) :
    phase.pending = [] := by
  cases phase <;> first | rfl | cases h

theorem ServerPhase.atRest_afterRead (requestFormat : WireFormat ({} : SidebandWriteRequest V))
    (success : Option requestFormat.Message) :
    (ServerPhase.afterRead requestFormat success : ServerPhase requestFormat.Message P).atRest =
      true := by
  rcases success with - | writeRequest
  · rfl
  · rw [afterRead]
    split_ifs
    · rfl
    · rfl

theorem ServerPhase.atRest_afterHandle (readResult : Option P) :
    (ServerPhase.afterHandle readResult : ServerPhase Q P).atRest = true := by
  cases readResult <;> rfl

theorem ServerPhase.atRest_afterWrite (byteSize : ℤ) :
    (ServerPhase.afterWrite byteSize : ServerPhase Q P).atRest = true := by
  rw [afterWrite]
  split_ifs
  · rfl
  · rfl

/-! ### Pointers -/

/-- The pointer leads into the segment that the handle works on, at the offset. It keeps doing so
while the peer stores there. -/
def PointsTo (buffer : Pointer) (offset : ℕ) (w : WithShm η) : Prop :=
  ∃ n, buffer = .into (.segment n) offset ∧ w.shm.Behind stream.size n (stream.slot w.handle)

/-- The handle has begun to read a request that the segment spells. Nobody stores there before
the parse, so that the request is what comes out of it. -/
structure ReadsRequest (buffer : Pointer) (bufferSize : Option ℤ)
    (turn : Bytes → Turn requestFormat.Message) (w : WithShm η) : Prop where
  buffer : PointsTo stream buffer sizeofInt64 w
  bufferSize : bufferSize = some (int64OfLe ((stream.memory w).take sizeofInt64))
  spells : ∃ request, turn (stream.slot w.handle) = .begun request ∧
    spelled requestFormat.messageLite (stream.memory w) = some (some request)

/-- What the handles, the memory and the calls that have begun are like on that schedule:
pointers lead to segments that are there, and what a read has begun on is still spelled. -/
structure Underway (At : η → Shm → Prop) (s : StreamLoops σ ε V η requestFormat responseFormat) :
    Prop where
  calls : s.service.transport.shm.calls = []
  attached : ∀ side, At (s.service.transport.world side).handle s.service.transport.shm
  reading : ∀ buffer bufferSize, s.server = .parse buffer bufferSize →
    ReadsRequest stream buffer bufferSize s.turn (s.service.transport.world .owner)
  responding : ∀ readResult buffer, s.server = .serialize readResult buffer →
    PointsTo stream buffer 0 (s.service.transport.world .owner)
  writing : ∀ request buffer, s.client = .serialize request buffer →
    PointsTo stream buffer 0 (s.service.transport.world .client)

variable {stream}

theorem PointsTo.evolves {At : η → Shm → Prop} {buffer : Pointer} {offset : ℕ} {w : WithShm η}
    {shm : Shm} (h : PointsTo stream buffer offset w) (hevolves : stream.Evolves At w.shm shm) :
    PointsTo stream buffer offset { w with shm } := by
  obtain ⟨n, hbuffer, hbehind⟩ := h
  exact ⟨n, hbuffer, hevolves.behind _ _ hbehind⟩

/-- A read goes on as it began when the segment and its turn are as they were. -/
theorem ReadsRequest.evolves {At : η → Shm → Prop} {buffer : Pointer} {bufferSize : Option ℤ}
    {turn turn' : Bytes → Turn requestFormat.Message} {w : WithShm η} {shm : Shm}
    (h : ReadsRequest stream buffer bufferSize turn w) (hevolves : stream.Evolves At w.shm shm)
    (hturn : turn' (stream.slot w.handle) = turn (stream.slot w.handle))
    (hmemory : stream.memory { w with shm } = stream.memory w) :
    ReadsRequest stream buffer bufferSize turn' { w with shm } where
  buffer := h.buffer.evolves hevolves
  bufferSize := by rw [hmemory, ← h.bufferSize]
  spells := by
    obtain ⟨request, hbegun, hspelled⟩ := h.spells
    exact ⟨request, hturn.trans hbegun, by rw [hmemory, hspelled]⟩

/-- The parse returns that request. -/
theorem ReadsRequest.parse {At : η → Shm → Prop} {buffer : Pointer} {bufferSize : Option ℤ}
    {turn : Bytes → Turn requestFormat.Message} {w w' : WithShm η}
    {success : Option requestFormat.Message} (h : ReadsRequest stream buffer bufferSize turn w)
    (hcalls : stream.Calls At) (hat : At w.handle w.shm)
    (hrun : (parseFromArray requestFormat.messageLite stream.methods buffer
      (bufferSize.getD 0)).run w = .ok (success, w')) :
    ∃ request, turn (stream.slot w.handle) = .begun request ∧ success = some request ∧ w' = w := by
  obtain ⟨n, rfl, hbehind⟩ := h.buffer
  obtain ⟨request, hbegun, hspelled⟩ := h.spells
  have hparse := hcalls.parse hat hbehind hspelled
  rw [h.bufferSize, Option.getD_some, hparse] at hrun
  cases hrun
  exact ⟨request, hbegun, rfl, rfl⟩

namespace Underway

variable {At : η → Shm → Prop} {s s' : StreamLoops σ ε V η requestFormat responseFormat}
  {w : WithShm η}

/-- A call of the client leaves a read of the server as it is, unless it stores where the server is
reading. -/
theorem client (h : Underway stream At s) (hat : At w.handle w.shm)
    (hevolves : stream.Evolves At s.service.transport.shm w.shm)
    (htransport : s'.service.transport = s.service.transport.step .client w)
    (hserver : s'.server = s.server)
    (hread : ∀ buffer bufferSize, s.server = .parse buffer bufferSize →
      s'.turn (s.slot stream .owner) = s.turn (s.slot stream .owner) ∧
      w.shm.view (s.slot stream .owner) stream.size =
        stream.memory (s.service.transport.world .owner))
    (hwriting : ∀ request buffer, s'.client = .serialize request buffer →
      PointsTo stream buffer 0 w) :
    Underway stream At s' := by
  have hshm : s'.service.transport.shm = w.shm := by rw [htransport, Parties.shm_step]
  have howner : s'.service.transport.world .owner =
      ⟨(s.service.transport.world .owner).handle, w.shm⟩ := by
    rw [htransport]
    exact Parties.world_step_peer .client w _
  have hclient : s'.service.transport.world .client = w := by
    rw [htransport, Parties.world_step_same]
  refine ⟨hshm ▸ hevolves.calls, fun side => ?_, fun buffer bufferSize hphase => ?_,
    fun readResult buffer hphase => ?_, fun request buffer hphase => ?_⟩
  · rw [hshm]
    cases side with
    | owner =>
      rw [howner]
      exact hevolves.attached _ (h.attached .owner)
    | client => rwa [hclient]
  · rw [hserver] at hphase
    obtain ⟨hturn, hview⟩ := hread _ _ hphase
    rw [howner]
    exact (h.reading _ _ hphase).evolves hevolves hturn hview
  · rw [hserver] at hphase
    rw [howner]
    exact (h.responding _ _ hphase).evolves hevolves
  · rw [hclient]
    exact hwriting _ _ hphase

/-- A call of the server leaves a write of the client as it is. -/
theorem server (h : Underway stream At s) (hat : At w.handle w.shm)
    (hevolves : stream.Evolves At s.service.transport.shm w.shm)
    (htransport : s'.service.transport = s.service.transport.step .owner w)
    (hclient : s'.client = s.client)
    (hreading : ∀ buffer bufferSize, s'.server = .parse buffer bufferSize →
      ReadsRequest stream buffer bufferSize s'.turn w)
    (hresponding : ∀ readResult buffer, s'.server = .serialize readResult buffer →
      PointsTo stream buffer 0 w) :
    Underway stream At s' := by
  have hshm : s'.service.transport.shm = w.shm := by rw [htransport, Parties.shm_step]
  have hpeer : s'.service.transport.world .client =
      ⟨(s.service.transport.world .client).handle, w.shm⟩ := by
    rw [htransport]
    exact Parties.world_step_peer .owner w _
  have howner : s'.service.transport.world .owner = w := by
    rw [htransport, Parties.world_step_same]
  refine ⟨hshm ▸ hevolves.calls, fun side => ?_, fun buffer bufferSize hphase => ?_,
    fun readResult buffer hphase => ?_, fun request buffer hphase => ?_⟩
  · rw [hshm]
    cases side with
    | owner => rwa [howner]
    | client =>
      rw [hpeer]
      exact hevolves.attached _ (h.attached .client)
  · rw [howner]
    exact hreading _ _ hphase
  · rw [howner]
    exact hresponding _ _ hphase
  · rw [hclient] at hphase
    rw [hpeer]
    exact (h.writing _ _ hphase).evolves hevolves

/-- A call of the server after which it holds no pointer. -/
theorem server_pointless (h : Underway stream At s) (hat : At w.handle w.shm)
    (hevolves : stream.Evolves At s.service.transport.shm w.shm)
    (htransport : s'.service.transport = s.service.transport.step .owner w)
    (hclient : s'.client = s.client) (hpointless : s'.server.pointless = true) :
    Underway stream At s' := by
  refine h.server hat hevolves htransport hclient ?_ ?_
  · intro buffer bufferSize hphase
    rw [hphase] at hpointless
    cases hpointless
  · intro readResult buffer hphase
    rw [hphase] at hpointless
    cases hpointless

end Underway

/-! ### The mailbox -/

/-- The loops as a mailbox: its boxes are the segments, and the letters in them the requests that
have not been parsed. A letter is thrown away when a response is laid over it. -/
structure IsMailbox (stream : SharedStream η) (s : SharedLoops σ ε V η Q P) (m : Mailbox Bytes) :
    Prop where
  finished : m.finished = s.sent.length
  writing : m.writing = s.client.stored
  free : ∀ name, s.turn name = .free → m.boxes name = none
  written : ∀ name request, s.turn name = .written request →
    m.boxes name = some m.finished ∧ name = s.slot stream .client ∧ s.client = .finishWrite request
  sent : ∀ name request, s.turn name = .ready request ∨ s.turn name = .begun request →
    ∃ n, m.boxes name = some n ∧ s.sent[n]? = some request
  accepted : List.Forall₂ (fun request n => s.sent[n]? = some request)
    (s.accepted ++ s.server.pending) m.taken

namespace IsMailbox

variable {s s' : SharedLoops σ ε V η Q P} {m : Mailbox Bytes}

/-- A step of the server that neither stores nor parses leaves the mailbox. -/
theorem server (h : IsMailbox stream s m) (hsent : s'.sent = s.sent)
    (hclient : s'.client = s.client) (hslot : s'.slot stream .client = s.slot stream .client)
    (hturn : s'.turn = s.turn)
    (haccepted : s'.accepted ++ s'.server.pending = s.accepted ++ s.server.pending) :
    IsMailbox stream s' m where
  finished := by rw [hsent, h.finished]
  writing := by rw [hclient, h.writing]
  free name hname := h.free name (hturn ▸ hname)
  written name request hname := by
    rw [hslot, hclient]
    exact h.written name request (hturn ▸ hname)
  sent name request hname := by
    rw [hsent]
    exact h.sent name request (hturn ▸ hname)
  accepted := by
    rw [hsent, haccepted]
    exact h.accepted

/-- So does one of the client that neither stores nor finishes a write. -/
theorem client (h : IsMailbox stream s m) (hsent : s'.sent = s.sent)
    (hstored : s.client.stored = false) (hstored' : s'.client.stored = false)
    (hturn : s'.turn = s.turn)
    (haccepted : s'.accepted ++ s'.server.pending = s.accepted ++ s.server.pending) :
    IsMailbox stream s' m where
  finished := by rw [hsent, h.finished]
  writing := by rw [hstored', h.writing, hstored]
  free name hname := h.free name (hturn ▸ hname)
  written name request hname := by
    obtain ⟨-, -, hphase⟩ := h.written name request (hturn ▸ hname)
    rw [hphase] at hstored
    cases hstored
  sent name request hname := by
    rw [hsent]
    exact h.sent name request (hturn ▸ hname)
  accepted := by
    rw [hsent, haccepted]
    exact h.accepted

/-- Where the server begins to read, the letter stays. -/
theorem beginRead (h : IsMailbox stream s m) (hsent : s'.sent = s.sent)
    (hclient : s'.client = s.client) (hslot : s'.slot stream .client = s.slot stream .client)
    {name : Bytes} {request : Q} (hready : s.turn name = .ready request)
    (hturn : s'.turn = Function.update s.turn name (.begun request))
    (haccepted : s'.accepted ++ s'.server.pending = s.accepted ++ s.server.pending) :
    IsMailbox stream s' m := by
  have hother : ∀ {other}, other ≠ name → s'.turn other = s.turn other := by
    intro other hne
    rw [hturn, Function.update_of_ne hne]
  have hname : s'.turn name = .begun request := by rw [hturn, Function.update_self]
  refine ⟨by rw [hsent, h.finished], by rw [hclient, h.writing], fun other hfree => ?_,
    fun other request' hwritten => ?_, fun other request' hsent' => ?_, ?_⟩
  · by_cases hne : other = name
    · rw [hne, hname] at hfree
      cases hfree
    · exact h.free other (hother hne ▸ hfree)
  · by_cases hne : other = name
    · rw [hne, hname] at hwritten
      cases hwritten
    · rw [hslot, hclient]
      exact h.written other request' (hother hne ▸ hwritten)
  · rw [hsent]
    by_cases hne : other = name
    · rw [hne] at hsent' ⊢
      obtain rfl : request' = request := by
        rw [hname] at hsent'
        rcases hsent' with hno | hbegun
        · cases hno
        · exact (Turn.begun.inj hbegun).symm
      exact h.sent name request' (.inl hready)
    · exact h.sent other request' (hother hne ▸ hsent')
  · rw [hsent, haccepted]
    exact h.accepted

/-- The turn of one segment becomes free, and its box empty. -/
private theorem emptied (h : IsMailbox stream s m) {name : Bytes}
    (hturn : s'.turn = Function.update s.turn name .free) :
    (∀ other, s'.turn other = .free → Function.update m.boxes name none other = none) ∧
      ∀ other, s'.turn other ≠ .free →
        s'.turn other = s.turn other ∧ Function.update m.boxes name none other = m.boxes other := by
  constructor
  · intro other hfree
    by_cases hne : other = name
    · rw [hne, Function.update_self]
    · rw [Function.update_of_ne hne]
      rw [hturn, Function.update_of_ne hne] at hfree
      exact h.free other hfree
  · intro other hfull
    have hne : other ≠ name := by
      rintro rfl
      rw [hturn, Function.update_self] at hfull
      exact hfull rfl
    exact ⟨by rw [hturn, Function.update_of_ne hne], Function.update_of_ne hne _ _⟩

/-- Over whatever a segment holds, the server stores its response. -/
theorem throwAway (h : IsMailbox stream s m) (hsent : s'.sent = s.sent)
    (hclient : s'.client = s.client) (hslot : s'.slot stream .client = s.slot stream .client)
    {name : Bytes} (hturn : s'.turn = Function.update s.turn name .free)
    (haccepted : s'.accepted ++ s'.server.pending = s.accepted ++ s.server.pending) :
    IsMailbox stream s' { m with boxes := Function.update m.boxes name none } := by
  obtain ⟨hfree, hfull⟩ := h.emptied hturn
  refine ⟨by rw [hsent, h.finished], by rw [hclient, h.writing], hfree,
    fun other request hwritten => ?_, fun other request hsent' => ?_, ?_⟩
  · obtain ⟨hsame, hbox⟩ := hfull other (by simp [hwritten])
    dsimp only
    rw [hslot, hclient, hbox]
    exact h.written other request (hsame ▸ hwritten)
  · obtain ⟨hsame, hbox⟩ := hfull other (by rcases hsent' with hq | hq <;> simp [hq])
    dsimp only
    rw [hsent, hbox]
    exact h.sent other request (hsame ▸ hsent')
  · rw [hsent, haccepted]
    exact h.accepted

/-- A parse takes the letter that the read has begun on. -/
theorem take (h : IsMailbox stream s m) (hsent : s'.sent = s.sent)
    (hclient : s'.client = s.client) (hslot : s'.slot stream .client = s.slot stream .client)
    {name : Bytes} {request : Q} (hbegun : s.turn name = .begun request)
    (hturn : s'.turn = Function.update s.turn name .free)
    (haccepted : s'.accepted ++ s'.server.pending =
      s.accepted ++ s.server.pending ++ [request]) :
    ∃ m', mailbox.next m (.take name) = some m' ∧ IsMailbox stream s' m' := by
  obtain ⟨n, hbox, hrequest⟩ := h.sent name request (.inr hbegun)
  have hn : n < m.finished := by
    rw [h.finished]
    exact (List.getElem?_eq_some_iff.mp hrequest).1
  obtain ⟨hfree, hfull⟩ := h.emptied hturn
  refine ⟨_, mailbox_take hbox hn, by rw [hsent, h.finished], by rw [hclient, h.writing], hfree,
    fun other request' hwritten => ?_, fun other request' hsent' => ?_, ?_⟩
  · obtain ⟨hsame, hbox⟩ := hfull other (by simp [hwritten])
    dsimp only
    rw [hslot, hclient, hbox]
    exact h.written other request' (hsame ▸ hwritten)
  · obtain ⟨hsame, hbox⟩ := hfull other (by rcases hsent' with hq | hq <;> simp [hq])
    dsimp only
    rw [hsent, hbox]
    exact h.sent other request' (hsame ▸ hsent')
  · rw [hsent, haccepted]
    exact List.rel_append h.accepted (.cons hrequest .nil)

/-- The client puts a letter when it stores a request. -/
theorem put (h : IsMailbox stream s m) (hsent : s'.sent = s.sent)
    (hstored : s.client.stored = false) {name : Bytes} {request : Q}
    (hslot : name = s'.slot stream .client) (hclient : s'.client = .finishWrite request)
    (hturn : s'.turn = Function.update s.turn name (.written request))
    (haccepted : s'.accepted ++ s'.server.pending = s.accepted ++ s.server.pending) :
    ∃ m', mailbox.next m (.put name) = some m' ∧ IsMailbox stream s' m' := by
  have hother : ∀ {other}, other ≠ name → s'.turn other = s.turn other := by
    intro other hne
    rw [hturn, Function.update_of_ne hne]
  have hname : s'.turn name = .written request := by rw [hturn, Function.update_self]
  refine ⟨_, mailbox_put (h.writing.trans hstored), by rw [hsent, h.finished], by rw [hclient]; rfl,
    fun other hfree => ?_, fun other request' hwritten => ?_, fun other request' hsent' => ?_, ?_⟩
  · by_cases hne : other = name
    · rw [hne, hname] at hfree
      cases hfree
    · exact (Function.update_of_ne hne _ _).trans (h.free other (hother hne ▸ hfree))
  · by_cases hne : other = name
    · rw [hne, hname] at hwritten
      cases hwritten
      exact ⟨hne ▸ Function.update_self _ _ _, hne.trans hslot, hclient⟩
    · -- there was no other write that was not finished
      obtain ⟨-, -, hphase⟩ := h.written other request' (hother hne ▸ hwritten)
      rw [hphase] at hstored
      cases hstored
  · by_cases hne : other = name
    · rw [hne, hname] at hsent'
      rcases hsent' with hno | hno <;> cases hno
    · dsimp only
      rw [hsent, Function.update_of_ne hne]
      exact h.sent other request' (hother hne ▸ hsent')
  · rw [hsent, haccepted]
    exact h.accepted

/-- With the write the letter is finished, if no response lies over it. -/
theorem finish (h : IsMailbox stream s m) {request : Q} (hclient : s.client = .finishWrite request)
    (hsent : s'.sent = s.sent ++ [request]) (hstored : s'.client.stored = false)
    (hturn : s'.turn = Function.update s.turn (s.slot stream .client)
      (s.turn (s.slot stream .client)).finishWrite)
    (haccepted : s'.accepted ++ s'.server.pending = s.accepted ++ s.server.pending) :
    ∃ m', mailbox.next m .finish = some m' ∧ IsMailbox stream s' m' := by
  have hwriting : m.writing = true := by rw [h.writing, hclient]; rfl
  have hmono : ∀ {n : ℕ} {q : Q}, s.sent[n]? = some q → s'.sent[n]? = some q := by
    intro n q hq
    rw [hsent, List.getElem?_append_left (List.getElem?_eq_some_iff.mp hq).1, hq]
  -- the turns are as before, except that what was written is ready
  have hcases : ∀ other, s'.turn other = s.turn other ∧ (∀ q, s.turn other ≠ .written q) ∨
      ∃ q, s.turn other = .written q ∧ s'.turn other = .ready q := by
    intro other
    by_cases hne : other = s.slot stream .client
    · rw [hturn, hne, Function.update_self]
      cases hother : s.turn (s.slot stream .client) with
      | written q => exact .inr ⟨q, rfl, rfl⟩
      | free => exact .inl ⟨rfl, by simp⟩
      | ready q => exact .inl ⟨rfl, by simp⟩
      | begun q => exact .inl ⟨rfl, by simp⟩
    · rw [hturn, Function.update_of_ne hne]
      exact .inl ⟨rfl, fun q hq => hne (h.written other q hq).2.1⟩
  refine ⟨_, mailbox_finish hwriting, by rw [hsent, List.length_append, h.finished]; rfl,
    hstored.symm, fun other hfree => ?_, fun other q hq => ?_, fun other q hq => ?_, ?_⟩
  · rcases hcases other with ⟨hsame, -⟩ | ⟨q, -, hready⟩
    · exact h.free other (hsame ▸ hfree)
    · rw [hready] at hfree
      cases hfree
  · rcases hcases other with ⟨hsame, hno⟩ | ⟨q', -, hready⟩
    · exact absurd (hsame ▸ hq) (hno q)
    · rw [hready] at hq
      cases hq
  · rcases hcases other with ⟨hsame, -⟩ | ⟨q', hwritten, hready⟩
    · obtain ⟨n, hbox, hn⟩ := h.sent other q (hsame ▸ hq)
      exact ⟨n, hbox, hmono hn⟩
    · obtain ⟨hbox, -, hphase⟩ := h.written other q' hwritten
      obtain rfl : q' = q := by
        rw [hready] at hq
        rcases hq with hq | hno
        · exact Turn.ready.inj hq
        · cases hno
      obtain rfl : request = q' := ClientPhase.finishWrite.inj (hclient.symm.trans hphase)
      refine ⟨_, hbox, ?_⟩
      rw [hsent, h.finished, List.getElem?_concat_length]
  · rw [haccepted]
    exact h.accepted.imp fun _ _ hn => hmono hn

end IsMailbox

/-! ### Steps -/

section Steps

variable {behave : ε → ℤ → V → σ → V × σ} {At : η → Shm → Prop}
  {s s' : StreamLoops σ ε V η requestFormat responseFormat} {m : Mailbox Bytes}

/-- What the server does between its reads and its writes leaves the transport. -/
def KeepsTransport {τ : Type} (t t' : MonikerState σ ε V τ) : Prop := t'.transport = t.transport

instance {τ : Type} : Std.Refl (@KeepsTransport σ ε V τ) := ⟨fun _ => rfl⟩

instance {τ : Type} :
    IsTrans (MonikerState σ ε V τ) KeepsTransport := ⟨fun _ _ _ h h' => h'.trans h⟩

theorem keepsTransport_callEndpoint {τ : Type} (e : EndpointInstance ε) (value : V) :
    Exec.Steps KeepsTransport
      (callEndpoint behave e value : Exec (MonikerState σ ε V τ) V) := by
  obtain ⟨endpoint, dataInstance⟩ := e
  cases endpoint with
  | none => exact Exec.steps_throw _
  | some endpoint =>
    refine Exec.steps_get.bind fun t => Exec.Steps.bind ?_ fun _ => Exec.steps_pure _
    exact Exec.steps_modify fun _ => rfl

theorem keepsTransport_callIndexed {τ : Type} (endpoints : EndpointList ε) (x : ℕ)
    (values : List V) : Exec.Steps KeepsTransport
      (callIndexed behave endpoints x values : Exec (MonikerState σ ε V τ) (List V)) := by
  induction endpoints generalizing x values with
  | nil => exact Exec.steps_pure _
  | cons e endpoints ih =>
    refine (Exec.steps_checked _).bind fun value => ?_
    exact (keepsTransport_callEndpoint e value).bind fun left => ih _ _

theorem keepsTransport_callAdding [Inhabited V] {τ : Type} (endpoints : EndpointList ε)
    (values : List V) : Exec.Steps KeepsTransport
      (callAdding behave endpoints values : Exec (MonikerState σ ε V τ) (List V)) := by
  induction endpoints generalizing values with
  | nil => exact Exec.steps_pure _
  | cons e endpoints ih => exact (keepsTransport_callEndpoint e default).bind fun left => ih _

theorem keepsTransport_handle [Inhabited V] {τ : Type} (readers writers : EndpointList ε)
    (writeRequest : SidebandWriteRequest V) :
    Exec.Steps KeepsTransport (do
      match ← handleRequest behave readers writers writeRequest with
      | none => return none
      | some readResult => return some (← responseFormat.sendable readResult) :
        Exec (MonikerState σ ε V τ) (Option responseFormat.Message)) := by
  have hhandle : Exec.Steps KeepsTransport
      (handleRequest behave readers writers writeRequest : Exec (MonikerState σ ε V τ) _) := by
    refine (keepsTransport_callIndexed _ _ _).bind fun _ => ?_
    split_ifs
    · refine Exec.Steps.bind ?_ fun readResult => Exec.steps_pure _
      exact (keepsTransport_callAdding _ _).bind fun _ => Exec.steps_pure _
    · exact Exec.steps_pure _
  refine hhandle.bind fun readResult => ?_
  cases readResult with
  | none => exact Exec.steps_pure _
  | some readResult =>
    refine Exec.Steps.bind ?_ fun _ => Exec.steps_pure _
    rw [WireFormat.sendable]
    split_ifs
    · exact Exec.steps_pure _
    · exact Exec.steps_throw _

/-- The loops as a mailbox, with what its steps rely on. The letters of the mailbox are the
requests, its boxes the segments. -/
structure Refines (stream : SharedStream η) (At : η → Shm → Prop)
    (s : StreamLoops σ ε V η requestFormat responseFormat) (m : Mailbox Bytes) : Prop where
  underway : Underway stream At s
  mailbox : IsMailbox stream s m

/-- What a step of the loops is for the mailbox: nothing, or a step of its own with the same
record. -/
def StepRefines (stream : SharedStream η) (At : η → Shm → Prop) (m : Mailbox Bytes)
    (s' : StreamLoops σ ε V η requestFormat responseFormat) : Prop :=
  Refines stream At s' m ∨ ∃ a m', mailbox.next m a = some m' ∧ Refines stream At s' m'

theorem StepRefines.of_next (hunderway : Underway stream At s') {a : MailboxStep Bytes}
    (h : ∃ m', mailbox.next m a = some m' ∧ IsMailbox stream s' m') :
    StepRefines stream At m s' := by
  obtain ⟨m', hm', hmailbox⟩ := h
  exact .inr ⟨a, m', hm', hunderway, hmailbox⟩

variable [Inhabited V] {readers writers : EndpointList ε}

omit [Inhabited V] in
/-- The client's handle stays as it is in a call of the server. -/
theorem slot_client_step {w : WithShm η}
    (htransport : s'.service.transport = s.service.transport.step .owner w) :
    s'.slot stream .client = s.slot stream .client := by
  have hpeer : s'.service.transport.world .client =
      ⟨(s.service.transport.world .client).handle, w.shm⟩ := by
    rw [htransport]
    exact Parties.world_step_peer .owner w _
  exact congrArg (fun w : WithShm η => stream.slot w.handle) hpeer

/-- A read begins on the request that is ready. -/
theorem serverStep_beginRead (hcalls : stream.Calls At) (h : Refines stream At s m)
    (hok : WaitsForTurn stream s .server) (hserver : s.server = .beginRead)
    (hnext : serverStep behave stream requestFormat responseFormat readers writers s = some s') :
    Refines stream At s' m := by
  simp only [WaitsForTurn, hserver] at hok
  obtain ⟨request, hready, hspelled⟩ := hok
  simp only [serverStep, hserver] at hnext
  obtain ⟨result, w, hrun, rfl⟩ := SharedLoops.perform_partyCall hnext
  have hat := h.underway.attached .owner
  have hsize : sizeofInt64 ≤ stream.size := by
    by_contra hsmall
    rw [hcalls.beginRead_outOfBounds hat h.underway.calls (not_le.mp hsmall)] at hrun
    cases hrun
  obtain ⟨n, w', hbegin, hbehind, hstays⟩ := hcalls.beginRead
    (w := s.service.transport.world .owner) hat h.underway.calls hsize
  cases hbegin.symm.trans hrun
  have hturn : Function.update s.turn (s.slot stream .owner)
      (s.turn (s.slot stream .owner)).beginRead =
        Function.update s.turn (s.slot stream .owner) (.begun request) := by
    rw [hready]
    rfl
  constructor
  · refine h.underway.server hstays.attached (hcalls.evolves_of_stays hstays) rfl rfl ?_ ?_
    · intro buffer bufferSize hphase
      cases hphase
      refine ⟨⟨n, rfl, ?_⟩, ?_, request, ?_, ?_⟩
      · rw [hstays.slot]
        exact hbehind
      · rw [hstays.memory]
      · rw [hstays.slot]
        exact (congrFun hturn _).trans (Function.update_self _ _ _)
      · rw [hstays.memory, hspelled]
    · intro readResult buffer hphase
      cases hphase
  · refine h.mailbox.beginRead rfl rfl (slot_client_step rfl) hready hturn ?_
    rw [hserver]
    rfl

/-- A parse returns the request that the read has begun on. -/
theorem serverStep_parse (hcalls : stream.Calls At) (h : Refines stream At s m)
    {buffer : Pointer} {bufferSize : Option ℤ} (hserver : s.server = .parse buffer bufferSize)
    (hnext : serverStep behave stream requestFormat responseFormat readers writers s = some s') :
    StepRefines stream At m s' := by
  have hreading := h.underway.reading _ _ hserver
  simp only [serverStep, hserver] at hnext
  obtain ⟨success, w, hrun, hs'⟩ := SharedLoops.perform_partyCall hnext
  have hat := h.underway.attached .owner
  obtain ⟨request, hbegun, rfl, rfl⟩ := hreading.parse hcalls hat hrun
  have htransport : s'.service.transport =
      s.service.transport.step .owner (s.service.transport.world .owner) := by rw [← hs']
  have hclient : s'.client = s.client := by rw [← hs']
  have hphase : s'.server = .finishRead (some request) := by rw [← hs']
  have hturn : s'.turn = Function.update s.turn (s.slot stream .owner) .free := by rw [← hs']
  have haccepted : s'.accepted = s.accepted := by rw [← hs']
  have hpending : s.server.pending = [] := by
    rw [hserver]
    rfl
  refine .of_next (h.underway.server_pointless hat (.refl h.underway.calls) htransport hclient ?_)
    (h.mailbox.take ?_ hclient (slot_client_step htransport) hbegun hturn ?_)
  · rw [hphase]
    rfl
  · rw [← hs']
  · rw [hphase, haccepted, hpending, List.append_nil]
    rfl

/-- What was parsed is accepted. -/
theorem serverStep_finishRead (hcalls : stream.Calls At) (h : Refines stream At s m)
    {success : Option requestFormat.Message} (hserver : s.server = .finishRead success)
    (hnext : serverStep behave stream requestFormat responseFormat readers writers s = some s') :
    Refines stream At s' m := by
  simp only [serverStep, hserver] at hnext
  obtain ⟨finished, w, hrun, rfl⟩ := SharedLoops.perform_partyCall hnext
  obtain ⟨handle, hfinish, hat⟩ := hcalls.finishRead
    (w := s.service.transport.world .owner) (h.underway.attached .owner)
  cases hfinish.symm.trans hrun
  have hrest := ServerPhase.atRest_afterRead (P := responseFormat.Message) requestFormat success
  constructor
  · exact h.underway.server_pointless hat (.refl h.underway.calls) rfl rfl
      (ServerPhase.pointless_of_atRest hrest)
  · refine h.mailbox.server rfl rfl (slot_client_step rfl) rfl ?_
    rw [hserver, ServerPhase.pending_of_atRest hrest, List.append_nil]
    rfl

theorem serverStep_handle (h : Refines stream At s m) {writeRequest : requestFormat.Message}
    (hserver : s.server = .handle writeRequest)
    (hnext : serverStep behave stream requestFormat responseFormat readers writers s = some s') :
    Refines stream At s' m := by
  simp only [serverStep, hserver] at hnext
  obtain ⟨readResult, service, hrun, rfl⟩ := SharedLoops.perform_eq_some hnext
  have hkeeps : service.transport = s.service.transport :=
    keepsTransport_handle readers writers writeRequest.val _ _ _ hrun
  have htransport : service.transport =
      s.service.transport.step .owner (s.service.transport.world .owner) :=
    hkeeps.trans (Parties.step_world _ _).symm
  have hrest := ServerPhase.atRest_afterHandle (Q := requestFormat.Message) readResult
  constructor
  · exact h.underway.server_pointless (h.underway.attached .owner) (.refl h.underway.calls)
      htransport rfl (ServerPhase.pointless_of_atRest hrest)
  · refine h.mailbox.server rfl rfl (slot_client_step htransport) rfl ?_
    rw [hserver, ServerPhase.pending_of_atRest hrest]
    rfl

theorem serverStep_beginWrite (hcalls : stream.Calls At) (h : Refines stream At s m)
    {readResult : responseFormat.Message} (hserver : s.server = .beginWrite readResult)
    (hnext : serverStep behave stream requestFormat responseFormat readers writers s = some s') :
    Refines stream At s' m := by
  simp only [serverStep, hserver] at hnext
  obtain ⟨buffer, w, hrun, rfl⟩ := SharedLoops.perform_partyCall hnext
  obtain ⟨n, w', hbegin, hbehind, hstays⟩ := hcalls.beginWrite
    (w := s.service.transport.world .owner) (h.underway.attached .owner) h.underway.calls
  cases hbegin.symm.trans hrun
  constructor
  · refine h.underway.server hstays.attached (hcalls.evolves_of_stays hstays) rfl rfl ?_ ?_
    · intro buffer bufferSize hphase
      cases hphase
    · intro readResult buffer hphase
      cases hphase
      exact ⟨n, rfl, by rw [hstays.slot]; exact hbehind⟩
  · refine h.mailbox.server rfl rfl (slot_client_step rfl) rfl ?_
    rw [hserver]
    rfl

omit [Inhabited V] in
/-- A store of either party turns the memory behind one name into what it was with bytes laid over
its start. -/
theorem of_run_store (hcalls : stream.Calls At) (h : Underway stream At s) (side : Side)
    {buffer : Pointer} (hbuffer : PointsTo stream buffer 0 (s.service.transport.world side))
    {M : Type} {codec : MessageLite M} {message : M} {u : Unit} {w : WithShm η}
    (hrun : (serializeToArray codec stream.methods message buffer).run
      (s.service.transport.world side) = .ok (u, w)) :
    w.handle = (s.service.transport.world side).handle ∧
      At w.handle w.shm ∧ stream.Evolves At s.service.transport.shm w.shm ∧
      Shm.Update (s.slot stream side) (overlay 0 (codec.serialize message)
        (stream.memory (s.service.transport.world side))) s.service.transport.shm w.shm := by
  obtain ⟨n, rfl, hbehind⟩ := hbuffer
  have hat := h.attached side
  rw [serializeToArray] at hrun
  by_cases hfits : (codec.serialize message).length ≤ stream.size
  · obtain ⟨shm, hstore, hu⟩ := hcalls.store (w := s.service.transport.world side) hat h.calls
      hbehind hfits
    cases hstore.symm.trans hrun
    have hlength := Shm.length_overlay_view s.service.transport.shm (s.slot stream side) hfits
    exact ⟨rfl, hcalls.update hat hu hlength, hcalls.evolves hu hlength, hu⟩
  · rw [hcalls.store_outOfBounds (w := s.service.transport.world side) hat (not_le.mp hfits)]
      at hrun
    cases hrun

/-- The response overwrites whatever the segment holds. -/
theorem serverStep_serialize (hcalls : stream.Calls At) (h : Refines stream At s m)
    {readResult : responseFormat.Message} {buffer : Pointer}
    (hserver : s.server = .serialize readResult buffer)
    (hnext : serverStep behave stream requestFormat responseFormat readers writers s = some s') :
    StepRefines stream At m s' := by
  have hbuffer := h.underway.responding _ _ hserver
  simp only [serverStep, hserver] at hnext
  obtain ⟨stored, w, hrun, hs'⟩ := SharedLoops.perform_partyCall hnext
  obtain ⟨-, hat, hevolves, -⟩ := of_run_store hcalls h.underway .owner hbuffer hrun
  have htransport : s'.service.transport = s.service.transport.step .owner w := by rw [← hs']
  have hclient : s'.client = s.client := by rw [← hs']
  have hturn : s'.turn = Function.update s.turn (s.slot stream .owner) .free := by rw [← hs']
  refine .of_next (a := .throwAway (s.slot stream .owner))
    (h.underway.server_pointless hat hevolves htransport hclient ?_)
    ⟨_, rfl, h.mailbox.throwAway ?_ hclient (slot_client_step htransport) hturn ?_⟩
  · rw [← hs']
    rfl
  · rw [← hs']
  · rw [← hs', hserver]
    rfl

theorem serverStep_finishWrite (hcalls : stream.Calls At) (h : Refines stream At s m)
    {readResult : responseFormat.Message} (hserver : s.server = .finishWrite readResult)
    (hnext : serverStep behave stream requestFormat responseFormat readers writers s = some s') :
    Refines stream At s' m := by
  simp only [serverStep, hserver] at hnext
  obtain ⟨u, service, hrun, rfl⟩ := SharedLoops.perform_eq_some hnext
  obtain ⟨finished, service₁, hfinish, hresponded⟩ := Exec.run_bind_eq_ok_iff.mp hrun
  cases hresponded
  obtain ⟨w, hcall, rfl⟩ := of_run_partyCall hfinish
  obtain ⟨handle, hreturned, hat⟩ := hcalls.finishWrite
    (w := s.service.transport.world .owner) (byteSizeLong responseFormat.messageLite readResult)
    (h.underway.attached .owner)
  cases hreturned.symm.trans hcall
  have hrest := ServerPhase.atRest_afterWrite (Q := requestFormat.Message)
    (P := responseFormat.Message) (byteSizeLong responseFormat.messageLite readResult)
  constructor
  · exact h.underway.server_pointless hat (.refl h.underway.calls) rfl rfl
      (ServerPhase.pointless_of_atRest hrest)
  · refine h.mailbox.server rfl rfl (slot_client_step rfl) rfl ?_
    rw [hserver, ServerPhase.pending_of_atRest hrest]
    rfl

/-- One case per call of the server. Its parse takes a letter, and its store of a response throws
away what lies in the box; the other calls leave the mailbox as it is. -/
theorem serverStep_refines (hcalls : stream.Calls At) (h : Refines stream At s m)
    (hok : WaitsForTurn stream s .server)
    (hnext : serverStep behave stream requestFormat responseFormat readers writers s = some s') :
    StepRefines stream At m s' := by
  cases hserver : s.server with
  | beginRead => exact .inl (serverStep_beginRead hcalls h hok hserver hnext)
  | parse buffer bufferSize => exact serverStep_parse hcalls h hserver hnext
  | finishRead success => exact .inl (serverStep_finishRead hcalls h hserver hnext)
  | handle writeRequest => exact .inl (serverStep_handle h hserver hnext)
  | beginWrite readResult => exact .inl (serverStep_beginWrite hcalls h hserver hnext)
  | serialize readResult buffer => exact serverStep_serialize hcalls h hserver hnext
  | finishWrite readResult => exact .inl (serverStep_finishWrite hcalls h hserver hnext)
  | returned =>
    simp only [serverStep, hserver] at hnext
    cases hnext

omit [Inhabited V] in
/-- Where the client stores, the server is not reading. -/
theorem clientStep_serialize (hcalls : stream.Calls At) (h : Refines stream At s m)
    (hok : WaitsForTurn stream s .client) {request : requestFormat.Message} {buffer : Pointer}
    (hclient : s.client = .serialize request buffer)
    (hnext : clientStep stream requestFormat responseFormat s = some s') :
    StepRefines stream At m s' := by
  simp only [WaitsForTurn, hclient] at hok
  have hbuffer := h.underway.writing _ _ hclient
  simp only [clientStep, hclient] at hnext
  obtain ⟨stored, w, hrun, hs'⟩ := SharedLoops.perform_partyCall hnext
  obtain ⟨hhandle, hat, hevolves, hu⟩ := of_run_store hcalls h.underway .client hbuffer hrun
  have htransport : s'.service.transport = s.service.transport.step .client w := by rw [← hs']
  have hserver : s'.server = s.server := by rw [← hs']
  have hphase : s'.client = .finishWrite request := by rw [← hs']
  have hturn : s'.turn = Function.update s.turn (s.slot stream .client) (.written request) := by
    rw [← hs']
  have hslot : s.slot stream .client = s'.slot stream .client := by
    have hworld : s'.service.transport.world .client = w := by
      rw [htransport, Parties.world_step_same]
    have hsame : s'.slot stream .client = stream.slot w.handle :=
      congrArg (fun w : WithShm η => stream.slot w.handle) hworld
    rw [hsame, hhandle]
    rfl
  refine .of_next (h.underway.client hat hevolves htransport hserver ?_ ?_)
    (h.mailbox.put ?_ (by rw [hclient]; rfl) hslot hphase hturn ?_)
  · intro buffer bufferSize hread
    obtain ⟨-, -, request', hbegun, -⟩ := h.underway.reading _ _ hread
    have hne : s.slot stream .owner ≠ s.slot stream .client := by
      intro heq
      exact hok request' (heq ▸ hbegun)
    exact ⟨by rw [hturn, Function.update_of_ne hne], hu.view_other hne stream.size⟩
  · intro request' buffer hserialize
    rw [hphase] at hserialize
    cases hserialize
  · rw [← hs']
  · rw [← hs']

omit [Inhabited V] in
theorem clientStep_finishWrite (hcalls : stream.Calls At) (h : Refines stream At s m)
    {request : requestFormat.Message} (hclient : s.client = .finishWrite request)
    (hnext : clientStep stream requestFormat responseFormat s = some s') :
    StepRefines stream At m s' := by
  simp only [clientStep, hclient] at hnext
  obtain ⟨finished, w, hrun, hs'⟩ := SharedLoops.perform_partyCall hnext
  obtain ⟨handle, hfinish, hat⟩ := hcalls.finishWrite (w := s.service.transport.world .client)
    (byteSizeLong requestFormat.messageLite request) (h.underway.attached .client)
  cases hfinish.symm.trans hrun
  have htransport : s'.service.transport = s.service.transport.step .client
      { s.service.transport.world .client with handle } := by rw [← hs']
  have hserver : s'.server = s.server := by rw [← hs']
  have hphase : s'.client = .idle := by rw [← hs']
  have hturn : s'.turn = Function.update s.turn (s.slot stream .client)
      (s.turn (s.slot stream .client)).finishWrite := by rw [← hs']
  refine .of_next (h.underway.client hat (.refl h.underway.calls) htransport hserver ?_ ?_)
    (h.mailbox.finish hclient ?_ (by rw [hphase]; rfl) hturn ?_)
  · intro buffer bufferSize hread
    obtain ⟨-, -, request', hbegun, -⟩ := h.underway.reading _ _ hread
    refine ⟨?_, rfl⟩
    rw [hturn]
    by_cases heq : s.slot stream .owner = s.slot stream .client
    · have hbegun' : s.turn (s.slot stream .client) = .begun request' := heq ▸ hbegun
      rw [heq, Function.update_self, hbegun']
      rfl
    · rw [Function.update_of_ne heq]
  · intro request' buffer hserialize
    rw [hphase] at hserialize
    cases hserialize
  · rw [← hs']
  · rw [← hs']

omit [Inhabited V] in
/-- A call of the client that stores nothing and finishes no write. -/
theorem client_call (h : Refines stream At s m) {w : WithShm η} (hat : At w.handle w.shm)
    (hevolves : stream.Evolves At s.service.transport.shm w.shm)
    (hview : w.shm.view (s.slot stream .owner) stream.size =
      stream.memory (s.service.transport.world .owner))
    (hs' : s' = { s with
      service.transport := s.service.transport.step .client w
      client := s'.client })
    (hstored : s.client.stored = false) (hstored' : s'.client.stored = false)
    (hwriting : ∀ request buffer, s'.client = .serialize request buffer →
      PointsTo stream buffer 0 w) : Refines stream At s' m := by
  have hturn : s'.turn = s.turn := by rw [hs']
  refine ⟨h.underway.client hat hevolves (by rw [hs']) (by rw [hs']) ?_ hwriting,
    h.mailbox.client (by rw [hs']) hstored hstored' hturn (by rw [hs'])⟩
  exact fun _ _ _ => ⟨by rw [hturn], hview⟩

omit [Inhabited V] in
/-- One case per call of the client after the first. The store puts a letter in a box, and the
finish of the write makes it one that may be taken. -/
theorem clientStep_refines (hcalls : stream.Calls At) (h : Refines stream At s m)
    (hok : WaitsForTurn stream s .client)
    (hnext : clientStep stream requestFormat responseFormat s = some s') :
    StepRefines stream At m s' := by
  have hat := h.underway.attached .client
  have hevolves : stream.Evolves At s.service.transport.shm s.service.transport.shm :=
    .refl h.underway.calls
  cases hclient : s.client with
  | idle =>
    simp only [clientStep, hclient] at hnext
    cases hnext
  | serialize request buffer => exact clientStep_serialize hcalls h hok hclient hnext
  | finishWrite request => exact clientStep_finishWrite hcalls h hclient hnext
  | parse buffer bufferSize =>
    simp only [clientStep, hclient] at hnext
    obtain ⟨success, w, hrun, rfl⟩ := SharedLoops.perform_partyCall hnext
    obtain rfl := hcalls.parse_eq hrun
    refine .inl (client_call h hat hevolves rfl rfl (by rw [hclient]; rfl) rfl ?_)
    intro request buffer hphase
    cases hphase
  | finishRead =>
    simp only [clientStep, hclient] at hnext
    obtain ⟨finished, w, hrun, rfl⟩ := SharedLoops.perform_partyCall hnext
    obtain ⟨handle, hfinish, hat'⟩ := hcalls.finishRead hat
    cases hfinish.symm.trans hrun
    refine .inl (client_call (w := { s.service.transport.world .client with handle }) h hat'
      hevolves rfl rfl (by rw [hclient]; rfl) rfl ?_)
    intro request buffer hphase
    cases hphase

/-- **Refinement.** While the parties wait for their turns, the loops are a mailbox. What the
bytes of the segments say is used here, and nowhere above. -/
theorem sharedLoops_refines (hcalls : stream.Calls At) :
    Machine.Refinement (sharedLoops behave stream requestFormat responseFormat readers writers)
      (WaitsForTurn stream) mailbox (Refines stream At) where
  init := by
    rintro s ⟨shm, shared, hshm, -, rfl⟩
    refine ⟨{}, rfl, ⟨hshm, fun side => ?_, ?_, ?_, ?_⟩, ⟨rfl, rfl, fun _ _ => rfl, ?_, ?_, .nil⟩⟩
    · cases side <;> exact hcalls.new shm
    · exact fun _ _ hphase => (nomatch hphase)
    · exact fun _ _ hphase => (nomatch hphase)
    · exact fun _ _ hphase => (nomatch hphase)
    · exact fun _ _ hturn => (nomatch hturn)
    · rintro name request (hturn | hturn) <;> cases hturn
  step := by
    intro s m a s' h hok hnext
    have hat := h.underway.attached .client
    cases a with
    | server => exact serverStep_refines hcalls h hok hnext
    | client => exact clientStep_refines hcalls h hok hnext
    | write request =>
      simp only [sharedLoops] at hnext
      split at hnext
      · next hclient =>
        obtain ⟨buffer, w, hrun, rfl⟩ := SharedLoops.perform_partyCall hnext
        obtain ⟨n, w', hbegin, hbehind, hstays⟩ := hcalls.beginWrite
          (w := s.service.transport.world .client) hat h.underway.calls
        cases hbegin.symm.trans hrun
        -- that a write begins is not seen in the mailbox
        refine .inl (client_call h hstays.attached (hcalls.evolves_of_stays hstays)
          hstays.update.view_eq rfl (by rw [hclient]; rfl) rfl ?_)
        intro request' buffer hphase
        cases hphase
        exact ⟨n, rfl, by rw [hstays.slot]; exact hbehind⟩
      · cases hnext
    | read =>
      simp only [sharedLoops] at hnext
      split at hnext
      · next hclient =>
        obtain ⟨result, w, hrun, rfl⟩ := SharedLoops.perform_partyCall hnext
        have hsize : sizeofInt64 ≤ stream.size := by
          by_contra hsmall
          rw [hcalls.beginRead_outOfBounds hat h.underway.calls (not_le.mp hsmall)] at hrun
          cases hrun
        obtain ⟨n, w', hbegin, -, hstays⟩ := hcalls.beginRead
          (w := s.service.transport.world .client) hat h.underway.calls hsize
        cases hbegin.symm.trans hrun
        refine .inl (client_call h hstays.attached (hcalls.evolves_of_stays hstays)
          hstays.update.view_eq rfl (by rw [hclient]; rfl) rfl ?_)
        intro request' buffer hphase
        cases hphase
      · cases hnext

end Steps

/-! ### Every interleaving -/

section Interleavings

variable {behave : ε → ℤ → V → σ → V × σ} {At : η → Shm → Prop} [Inhabited V]
  {readers writers : EndpointList ε}

/-- What the mailbox promises. -/
theorem appliesOnlySent_of_sharedLoops (hcalls : stream.Calls At)
    {s : StreamLoops σ ε V η requestFormat responseFormat}
    (h : (sharedLoops behave stream requestFormat responseFormat readers writers).Reachable
      (WaitsForTurn stream) s) : s.AppliesOnlySent := by
  obtain ⟨m, hm, hrefines⟩ := (sharedLoops_refines hcalls).reachable h
  have hread : (s.accepted ++ s.server.pending).Subperm s.sent :=
    mailbox_subperm hm hrefines.mailbox.finished hrefines.mailbox.accepted
  have hsent := (List.sublist_append_left s.accepted s.server.pending).subperm.trans hread
  exact ⟨hsent, hsent.length_le⟩

end Interleavings

/-- **No request is applied that the client did not send**, and none twice, in every interleaving
of the two loops in which the parties wait for their turns, over either strategy. -/
theorem appliesOnlySent_of_reachable [Inhabited V] (behave : ε → ℤ → V → σ → V × σ)
    (requestFormat : WireFormat ({} : SidebandWriteRequest V))
    (responseFormat : WireFormat ({} : SidebandReadResponse V)) (readers writers : EndpointList ε)
    (id : Bytes) (size : ℕ) :
    (∀ s, (sharedLoops behave (.sharedMemory id size) requestFormat responseFormat readers
        writers).Reachable (WaitsForTurn (.sharedMemory id size)) s → s.AppliesOnlySent) ∧
      ∀ s, (sharedLoops behave (.doubleBuffered id size) requestFormat responseFormat readers
        writers).Reachable (WaitsForTurn (.doubleBuffered id size)) s → s.AppliesOnlySent := by
  constructor
  · intro s h
    exact appliesOnlySent_of_sharedLoops
      (SharedMemorySidebandData.calls_sharedMemory id size) h
  · intro s h
    exact appliesOnlySent_of_sharedLoops
      (DoubleBufferedSharedMemorySidebandData.calls_doubleBuffered id size) h

/-- The loops before their first step, over segments that nothing was stored in. -/
def SharedStream.fresh {η : Type} (stream : SharedStream η) [Inhabited σ]
    (requestFormat : WireFormat ({} : SidebandWriteRequest V))
    (responseFormat : WireFormat ({} : SidebandReadResponse V)) :
    StreamLoops σ ε V η requestFormat responseFormat :=
  { service := ⟨default, [], .opened stream.handle stream.size (.scripted [])⟩ }

theorem init_fresh {η : Type} (stream : SharedStream η) [Inhabited σ] [Inhabited V]
    (behave : ε → ℤ → V → σ → V × σ) (requestFormat : WireFormat ({} : SidebandWriteRequest V))
    (responseFormat : WireFormat ({} : SidebandReadResponse V)) (readers writers : EndpointList ε) :
    (sharedLoops behave stream requestFormat responseFormat readers writers).init
      (stream.fresh requestFormat responseFormat) :=
  ⟨.scripted [], default, rfl, fun _ _ => rfl, rfl⟩

/-! ### A request that comes through -/

/-- `WaitsForTurn`, to be computed on the runs of the witness. -/
def waitsForTurn [DecidableEq V] (stream : SharedStream η)
    (s : StreamLoops σ ε V η requestFormat responseFormat) :
    LoopStep requestFormat.Message → Bool
  | .server =>
    match s.server with
    | .beginRead =>
      match s.turn (s.slot stream .owner) with
      | .ready request => spelled requestFormat.messageLite
          (stream.memory (s.service.transport.world .owner)) = some (some request)
      | _ => false
    | _ => true
  | .client =>
    match s.client with
    | .serialize _ _ =>
      match s.turn (s.slot stream .client) with
      | .begun _ => false
      | _ => true
    | _ => true
  | _ => true

theorem waitsForTurn_of_eq_true [DecidableEq V] {stream : SharedStream η}
    {s : StreamLoops σ ε V η requestFormat responseFormat} {a : LoopStep requestFormat.Message}
    (h : waitsForTurn stream s a = true) : WaitsForTurn stream s a := by
  cases a with
  | server =>
    rw [waitsForTurn] at h
    rw [WaitsForTurn]
    cases hserver : s.server with
    | beginRead =>
      rw [hserver] at h
      dsimp only at h ⊢
      cases hturn : s.turn (s.slot stream .owner) with
      | ready request =>
        rw [hturn] at h
        exact ⟨request, rfl, of_decide_eq_true h⟩
      | _ =>
        rw [hturn] at h
        cases h
    | _ => exact trivial
  | client =>
    rw [waitsForTurn] at h
    rw [WaitsForTurn]
    cases hclient : s.client with
    | serialize request buffer =>
      rw [hclient] at h
      dsimp only at h ⊢
      rintro request' hturn
      rw [hturn] at h
      cases h
    | _ => exact trivial
  | _ => exact trivial

/-- An encoding of requests with byte values: the values behind a byte that tells whether the cancel
and the values are set. Nothing has no bytes. -/
def byteRequestFormat : WireFormat ({} : SidebandWriteRequest UInt8) where
  serialize
    | ⟨false, none⟩ => []
    | ⟨false, some values⟩ => 8 :: values
    | ⟨true, none⟩ => [1]
    | ⟨true, some values⟩ => 9 :: values
  parse
    | [] => some {}
    | tag :: values =>
      if tag = 8 then some { values? := some values }
      else if tag = 9 then some { cancel := true, values? := some values }
      else if tag = 1 ∧ values = [] then some { cancel := true }
      else none
  parse_serialize m := by
    obtain ⟨cancel, values⟩ := m
    cases cancel <;> cases values <;> rfl
  serialize_empty := rfl

def byteResponseFormat : WireFormat ({} : SidebandReadResponse UInt8) where
  serialize m := byteRequestFormat.serialize ⟨m.cancel, m.values?⟩
  parse bytes := (byteRequestFormat.parse bytes).map fun m => ⟨m.cancel, m.values?⟩
  parse_serialize m := by rw [byteRequestFormat.parse_serialize, Option.map_some]
  serialize_empty := rfl

/-- A request that the bytes behind its own length spell. -/
def spelledRequest : byteRequestFormat.Message :=
  ⟨{ values? := some [0, 0, 0, 1, 2, 3, 4] }, by decide⟩

/-- A request that leaves those bytes in the segment. -/
def layingRequest : byteRequestFormat.Message :=
  ⟨{ values? := some [0, 0, 0, 0, 0, 0, 0, 8, 0, 0, 0, 1, 2, 3, 4] }, by decide⟩

/-- No endpoint does anything with a byte. -/
def leaveByte : Unit → ℤ → UInt8 → Unit → UInt8 × Unit := fun _ _ value shared => (value, shared)

/-- A request with seven values is accepted after it was written, and the one that it was written
over is not. With two buffers there are two requests in the first segment as well. -/
theorem appliesOnlySent_of_reachable_store :
    (∃ s, (sharedLoops leaveByte (.sharedMemory [] 16) byteRequestFormat byteResponseFormat []
        []).Reachable (WaitsForTurn (.sharedMemory [] 16)) s ∧
      s.sent = [layingRequest, spelledRequest] ∧ s.accepted = [spelledRequest] ∧
      s.AppliesOnlySent) ∧
    ∃ s, (sharedLoops leaveByte (.doubleBuffered [] 16) byteRequestFormat byteResponseFormat []
        []).Reachable (WaitsForTurn (.doubleBuffered [] 16)) s ∧
      s.sent = [layingRequest, spelledRequest, spelledRequest] ∧ s.accepted = [spelledRequest] ∧
      s.AppliesOnlySent := by
  have hsingle : ((sharedLoops leaveByte (.sharedMemory [] 16) byteRequestFormat
      byteResponseFormat [] []).execWhile (waitsForTurn (.sharedMemory [] 16))
      (SharedStream.fresh (.sharedMemory [] 16) byteRequestFormat byteResponseFormat)
      [.write layingRequest, .client, .client, .write spelledRequest, .client, .client,
        .server, .server, .server, .server]).map (fun s => (s.sent, s.accepted)) =
        some ([layingRequest, spelledRequest], [spelledRequest]) := by
    decide +kernel
  have hdouble : ((sharedLoops leaveByte (.doubleBuffered [] 16) byteRequestFormat
      byteResponseFormat [] []).execWhile (waitsForTurn (.doubleBuffered [] 16))
      (SharedStream.fresh (.doubleBuffered [] 16) byteRequestFormat byteResponseFormat)
      [.write layingRequest, .client, .client, .write spelledRequest, .client, .client,
        .write spelledRequest, .client, .client, .server, .server, .server, .server]).map
        (fun s => (s.sent, s.accepted)) =
        some ([layingRequest, spelledRequest, spelledRequest], [spelledRequest]) := by
    decide +kernel
  have hall := appliesOnlySent_of_reachable leaveByte byteRequestFormat byteResponseFormat [] [] []
    16
  constructor
  · obtain ⟨s, hs, hrecord⟩ := Option.map_eq_some_iff.mp hsingle
    obtain ⟨hsent, haccepted⟩ := Prod.mk.inj hrecord
    have hrun := (Machine.Reachable.init
      (init_fresh (.sharedMemory [] 16) leaveByte _ _ [] [])).execWhile
      (fun _ _ _ h => waitsForTurn_of_eq_true h) hs
    exact ⟨s, hrun, hsent, haccepted, hall.1 s hrun⟩
  · obtain ⟨s, hs, hrecord⟩ := Option.map_eq_some_iff.mp hdouble
    obtain ⟨hsent, haccepted⟩ := Prod.mk.inj hrecord
    have hrun := (Machine.Reachable.init
      (init_fresh (.doubleBuffered [] 16) leaveByte _ _ [] [])).execWhile
      (fun _ _ _ h => waitsForTurn_of_eq_true h) hs
    exact ⟨s, hrun, hsent, haccepted, hall.2 s hrun⟩

/-- The first read of the loop returns at once: the zeros in the segment spell an empty request,
which is accepted before the client has written any. -/
theorem not_appliesOnlySent_zeros :
    (¬ ∀ s, (sharedLoops storeLoad (.sharedMemory [] 16) sidebandWriteRequestFormat
        sidebandReadResponseFormat [] []).Reachable Anything s → s.AppliesOnlySent) ∧
      ¬ ∀ s, (sharedLoops storeLoad (.doubleBuffered [] 16) sidebandWriteRequestFormat
        sidebandReadResponseFormat [] []).Reachable Anything s → s.AppliesOnlySent := by
  have hsingle : ((sharedLoops storeLoad (.sharedMemory [] 16) sidebandWriteRequestFormat
      sidebandReadResponseFormat [] []).exec
      (SharedStream.fresh (.sharedMemory [] 16) sidebandWriteRequestFormat
        sidebandReadResponseFormat) [.server, .server, .server]).map
        (fun s => (s.accepted.length, s.sent.length)) = some (1, 0) := by
    decide +kernel
  have hdouble : ((sharedLoops storeLoad (.doubleBuffered [] 16) sidebandWriteRequestFormat
      sidebandReadResponseFormat [] []).exec
      (SharedStream.fresh (.doubleBuffered [] 16) sidebandWriteRequestFormat
        sidebandReadResponseFormat) [.server, .server, .server]).map
        (fun s => (s.accepted.length, s.sent.length)) = some (1, 0) := by
    decide +kernel
  constructor
  · intro h
    obtain ⟨s, hs, hcounts⟩ := Option.map_eq_some_iff.mp hsingle
    obtain ⟨haccepted, hsent⟩ := Prod.mk.inj hcounts
    have hle := (h s (Machine.exec_reachable (init_fresh _ _ _ _ _ _) hs)).length_le
    omega
  · intro h
    obtain ⟨s, hs, hcounts⟩ := Option.map_eq_some_iff.mp hdouble
    obtain ⟨haccepted, hsent⟩ := Prod.mk.inj hcounts
    have hle := (h s (Machine.exec_reachable (init_fresh _ _ _ _ _ _) hs)).length_le
    omega

end Acceptance

end Sideband
