import Sideband.Moniker.Exchanges
import Sideband.Moniker.RdmaLoops

/-!
# Which programs of a client complete over RDMA

A client may write several requests before it reads a response, but not any number. Four requests
fit into the two regions at either end of their link, four responses into those of the other, and
the server has one in hand: a client is at most nine requests ahead of the responses that it has
read (`counts_of_reachable`).

So the loops always come to rest, and the client's program has returned exactly if it never reads a
response without a request and never gets more than nine requests ahead (`completes_iff`): it may
write nine requests before it reads the first response, and not ten (`inWindow_writesThenReads`). If
it also reads a response for each request, it has them all (`program_completes`).
-/

namespace Sideband

open Foundation

/-! ### Links -/

section Link

variable {size : ℕ} {M : Type} {codec : MessageLite M} {link link' : RdmaLink M size} {t : Fifo M}

/-- A write that is begun holds one region. -/
theorem IsLink.length_acquired (h : IsLink codec link t) :
    link.writer.connectedWriteSession.acquired.length = link.writing.message.length := by
  have hat := h.writer
  rw [WriterAt] at hat
  cases hwriting : link.writing with
  | idle =>
    rw [hwriting] at hat
    rw [hat]
    rfl
  | begun m buffer =>
    rw [hwriting] at hat
    obtain ⟨r, hacquired, -⟩ := hat
    rw [hacquired]
    rfl
  | filled m =>
    rw [hwriting] at hat
    obtain ⟨r, hacquired, -⟩ := hat
    rw [hacquired]
    rfl

theorem SendSession.length_acquired_le (session : SendSession size) :
    session.acquired.length + session.queue.length ≤ 2 := by
  have hle := session.distinct.length_le_card
  rwa [List.length_append, List.length_map, Fintype.card_fin] at hle

/-- The messages written, counting one that is being written, are at most four ahead of those read;
and the messages read, counting one that is being read, have been written. -/
theorem IsLink.counts (h : IsLink codec link t) (ht : (messageQueue M).Reachable Anything t) :
    link.written.length + link.writing.message.length ≤ link.reads.length + 4 ∧
      link.reads.length + link.reading.regions ≤ link.written.length := by
  have hwritten := h.length_written ht
  have hplaces := h.length_queue
  have hsend := SendSession.length_acquired_le link.writer.connectedWriteSession
  have hreceive := ReceiveSession.length_delivered_le link.reader.connectedReadSession
  rw [h.length_acquired] at hsend
  rw [h.length_held] at hreceive
  omega

/-- A message that is begun has six steps to go. -/
theorem IsLink.rank_beginWrite (h : IsLink codec link t) {m : M} {prefer : Fin 2}
    (hnext : (rdmaLink codec size).next link (.beginWrite m prefer) = some link') :
    link'.rank = link.rank + 6 := by
  have hplaces := h.length_queue
  cases linkMoves_of_next hnext with
  | beginWrite before after reader reading written reads =>
    obtain ⟨hidle, hm, hfree⟩ := (h.isSome_next_iff _).mp (Option.isSome_of_eq_some hnext)
    obtain ⟨w, hw, hlink, -⟩ := next_beginWrite h hidle hm prefer hfree
    obtain rfl := Option.some.inj (hw.symm.trans hnext)
    have hplaces' := hlink.length_queue
    rw [reading, reader] at hplaces'
    rw [RdmaLink.rank, RdmaLink.rank, before, after, reading, reader, Writing.rank, Writing.rank]
    omega

theorem IsLink.next_ne_none (h : IsLink codec link t) {a : RdmaLinkStep M}
    (ha : Enabled codec link a) : (rdmaLink codec size).next link a ≠ none :=
  Option.isSome_iff_ne_none.mp ((h.isSome_next_iff a).mpr ha)

/-- A reader that waits while the network can deliver nothing has read everything. -/
theorem IsLink.read_all (h : IsLink codec link t) (ht : (messageQueue M).Reachable Anything t)
    (hreading : link.reading = .idle) (hnone : (rdmaLink codec size).next link .beginRead = none)
    (hdeliver : ∀ r, (rdmaLink codec size).next link (.deliver r) = none) :
    link.writer.connectedWriteSession.queue = [] ∧ link.written.length = link.reads.length := by
  have hdelivered : link.reader.connectedReadSession.delivered = [] := by
    by_contra hne
    exact h.next_ne_none (a := .beginRead) ⟨hreading, hne⟩ hnone
  have hqueue : link.writer.connectedWriteSession.queue = [] := by
    by_contra hne
    have harrived := h.length_arrived_of_waits hne hdeliver
    rw [hreading, hdelivered, Reading.regions, List.length_nil] at harrived
    omega
  have hplaces := h.length_queue
  rw [hreading, hdelivered, hqueue, Reading.regions, List.length_nil] at hplaces
  have hwritten := h.length_written ht
  exact ⟨hqueue, by omega⟩

/-- A writer that waits while the network can deliver nothing is four messages ahead, and there is
one to be read. -/
theorem IsLink.four_ahead (h : IsLink codec link t) (ht : (messageQueue M).Reachable Anything t)
    {m : M} {prefer : Fin 2} (hwriting : link.writing = .idle) (hreading : link.reading = .idle)
    (hm : (codec.serialize m).length + sizeofInt64 ≤ size)
    (hnone : (rdmaLink codec size).next link (.beginWrite m prefer) = none)
    (hdeliver : ∀ r, (rdmaLink codec size).next link (.deliver r) = none) :
    link.written.length = link.reads.length + 4 ∧
      (rdmaLink codec size).next link .beginRead ≠ none := by
  refine ⟨(h.window ht).full m prefer hwriting hm hnone hdeliver, ?_⟩
  have hqueue := h.length_queue_of_waits hwriting hm hnone
  have harrived := h.length_arrived_of_waits (List.ne_nil_of_length_pos (by omega)) hdeliver
  rw [hreading, Reading.regions] at harrived
  exact h.next_ne_none (a := .beginRead) ⟨hreading, List.ne_nil_of_length_pos (by omega)⟩

/-- The other direction leaves what a link has to go. -/
theorem SameLink.rank_eq (h : SameLink link link') : link'.rank = link.rank := by
  rw [RdmaLink.rank, RdmaLink.rank, h.writing, h.reading, h.writer.session, h.reader.session]

end Link

section Loops

variable {σ ε V : Type} {size : ℕ} {behave : ε → ℤ → V → σ → V × σ}
  {requestFormat : WireFormat ({} : SidebandWriteRequest V)}
  {responseFormat : WireFormat ({} : SidebandReadResponse V)}

/-! ### The rank -/

/-- What a call of the client has to go: a request is written in one step and has six more on its
link, and its response has as many and four of the server. -/
def ClientCall.rank {Q : Type} : ClientCall Q → ℕ
  | .write _ => 17
  | .read => 0

/-- What the server has to do with the request that it has read, down to `0` where it asks for
the next one. -/
def LoopPhase.rdmaRank {Q P : Type} (reading : Reading Q) : LoopPhase Q P → ℕ
  | .beginRead => 0
  | .reading => if reading.regions = 0 then 10 else 0
  | .handle _ => 9
  | .beginWrite _ => 8
  | .writing _ => 1
  | .returned => 0

/-- The requests that the server has still to read, those of its own read and of the client's
write included. -/
def RdmaLink.unread {M : Type} (link : RdmaLink M size) : ℕ :=
  link.written.length + link.writing.message.length - link.reads.length

/-- The steps that the loops have before them, at most, with those of the calls that the client
has not begun. -/
def rdmaLoopsRank (s : RdmaStreamLoops σ ε V requestFormat responseFormat size) : ℕ :=
  (s.calls.map ClientCall.rank).sum + s.session.requests.rank + 10 * s.session.requests.unread +
    s.server.rdmaRank s.session.owner.reading + s.session.responses.rank

variable [Inhabited V] {readers writers : List (ε × ℤ)} {initial : σ}
  {program : List (ClientCall requestFormat.Message)}
  {s s' : RdmaStreamLoops σ ε V requestFormat responseFormat size}

omit [Inhabited V] in
theorem LoopPhase.rdmaRank_afterRead_le (reading : Reading requestFormat.Message)
    (success : Option requestFormat.Message) :
    (LoopPhase.afterRead requestFormat success :
      LoopPhase requestFormat.Message responseFormat.Message).rdmaRank reading ≤ 9 := by
  cases success with
  | none => exact Nat.zero_le _
  | some writeRequest =>
    rw [LoopPhase.afterRead]
    split_ifs
    · exact Nat.zero_le _
    · exact le_rfl

omit [Inhabited V] in
/-- A step on the link of the requests leaves what the other one has to go. -/
theorem rdmaLoopsRank_setRequests {a : RdmaLinkStep requestFormat.Message}
    {link : RdmaLink requestFormat.Message size}
    {phase : LoopPhase requestFormat.Message responseFormat.Message}
    {calls : List (ClientCall requestFormat.Message)}
    (hlink : (rdmaLink requestFormat.messageLite size).next s.session.requests a = some link) :
    rdmaLoopsRank { s with session := s.session.setRequests link, server := phase, calls } =
      (calls.map ClientCall.rank).sum + link.rank + 10 * link.unread +
        phase.rdmaRank link.reading + s.session.responses.rank := by
  rw [← (RdmaSession.sameResponses hlink).rank_eq]
  rfl

omit [Inhabited V] in
theorem rdmaLoopsRank_setResponses {a : RdmaLinkStep responseFormat.Message}
    {link : RdmaLink responseFormat.Message size}
    {phase : LoopPhase requestFormat.Message responseFormat.Message}
    {calls : List (ClientCall requestFormat.Message)}
    (hlink : (rdmaLink responseFormat.messageLite size).next s.session.responses a = some link) :
    rdmaLoopsRank { s with session := s.session.setResponses link, server := phase, calls } =
      (calls.map ClientCall.rank).sum + s.session.requests.rank +
        10 * s.session.requests.unread + phase.rdmaRank s.session.owner.reading + link.rank := by
  rw [← (RdmaSession.sameRequests hlink).rank_eq]
  rfl

omit [Inhabited V] in
/-- A step on the link of the requests that leaves as many to be read brings the loops on. -/
theorem rank_requests_lt {a : RdmaLinkStep requestFormat.Message}
    {link : RdmaLink requestFormat.Message size}
    {phase : LoopPhase requestFormat.Message responseFormat.Message}
    (hduplex : IsDuplex requestFormat.messageLite responseFormat.messageLite s.session)
    (ha : Draining a)
    (hlink : (rdmaLink requestFormat.messageLite size).next s.session.requests a = some link)
    (hphase : phase.rdmaRank link.reading ≤ s.server.rdmaRank s.session.owner.reading)
    (hunread : link.unread = s.session.requests.unread) :
    rdmaLoopsRank { s with session := s.session.setRequests link, server := phase } <
      rdmaLoopsRank s := by
  obtain ⟨⟨t, ht, hrequests⟩, -⟩ := hduplex
  have hrank := hrequests.rank_next ha hlink
  rw [rdmaLoopsRank_setRequests hlink, rdmaLoopsRank, hunread]
  omega

omit [Inhabited V] in
/-- So does one on the link of the responses. -/
theorem rank_responses_lt {a : RdmaLinkStep responseFormat.Message}
    {link : RdmaLink responseFormat.Message size} {calls : List (ClientCall requestFormat.Message)}
    (hduplex : IsDuplex requestFormat.messageLite responseFormat.messageLite s.session)
    (ha : Draining a)
    (hlink : (rdmaLink responseFormat.messageLite size).next s.session.responses a = some link)
    (hcalls : (calls.map ClientCall.rank).sum = (s.calls.map ClientCall.rank).sum) :
    rdmaLoopsRank { s with session := s.session.setResponses link, calls } < rdmaLoopsRank s := by
  obtain ⟨-, u, hu, hresponses⟩ := hduplex
  have hrank := hresponses.rank_next ha hlink
  rw [rdmaLoopsRank_setResponses hlink, rdmaLoopsRank, hcalls]
  omega

/-- A step of the server's loop brings it on. -/
theorem RdmaServerStep.rank_lt {phase : LoopPhase requestFormat.Message responseFormat.Message}
    (h : RdmaServerStep behave (pointers readers) (pointers writers) s phase s')
    (hphase : s.server = phase)
    (hduplex : IsDuplex requestFormat.messageLite responseFormat.messageLite s.session) :
    rdmaLoopsRank s' < rdmaLoopsRank s := by
  cases h with
  | beginRead hlink =>
    cases linkMoves_of_next hlink with
    | beginRead before after _ writing written reads =>
      refine rank_requests_lt (a := .beginRead) hduplex trivial hlink ?_ ?_
      · rw [after]
        exact Nat.zero_le _
      · rw [RdmaLink.unread, RdmaLink.unread, writing, written, reads]
  | parse hlink =>
    cases linkMoves_of_next hlink with
    | parse before after _ writing written reads =>
      refine rank_requests_lt (a := .parse) hduplex trivial hlink ?_ ?_
      · rw [after, hphase]
        exact Nat.zero_le _
      · rw [RdmaLink.unread, RdmaLink.unread, writing, written, reads]
  | @finishRead link hlink =>
    -- the request is the server's now
    obtain ⟨⟨t, ht, hrequests⟩, -⟩ := hduplex
    have hrank := hrequests.rank_next (a := .finishRead) trivial hlink
    obtain ⟨t', ht', hrequests'⟩ := hrequests.exists_next ht hlink
    have hle := (hrequests'.counts ht').2
    cases linkMoves_of_next hlink with
    | @finishRead success before after _ writing written reads =>
      change s.session.owner.reading = _ at before
      rw [written, reads, List.length_append, List.length_singleton] at hle
      rw [rdmaLoopsRank_setRequests hlink, rdmaLoopsRank, RdmaLink.unread, RdmaLink.unread, writing,
        written, reads, after, hphase, before, List.length_append, List.length_singleton]
      simp only [LoopPhase.rdmaRank, Reading.regions, one_ne_zero, if_false, if_true]
      omega
  | @read success hidle hlast =>
    have hle : (LoopPhase.afterRead requestFormat success : LoopPhase requestFormat.Message
        responseFormat.Message).rdmaRank s.session.owner.reading ≤ 9 :=
      LoopPhase.rdmaRank_afterRead_le _ _
    rw [rdmaLoopsRank, rdmaLoopsRank, hphase]
    refine Nat.add_lt_add_right (Nat.add_lt_add_left (hle.trans_lt ?_) _) _
    rw [hidle]
    exact Nat.lt_succ_self 9
  | @handle writeRequest readResult service hrun =>
    rw [rdmaLoopsRank, rdmaLoopsRank, hphase]
    refine Nat.add_lt_add_right (Nat.add_lt_add_left ?_ _) _
    cases readResult with
    | none => exact Nat.succ_pos 8
    | some readResult => exact Nat.lt_succ_self 8
  | @beginWrite readResult prefer link hlink =>
    obtain ⟨-, u, hu, hresponses⟩ := hduplex
    have hrank := hresponses.rank_beginWrite hlink
    rw [rdmaLoopsRank_setResponses hlink, rdmaLoopsRank, hphase, LoopPhase.rdmaRank,
      LoopPhase.rdmaRank]
    omega
  | fill hlink => exact rank_responses_lt (a := .fill) hduplex trivial hlink rfl
  | finishWrite hlink => exact rank_responses_lt (a := .finishWrite) hduplex trivial hlink rfl
  | written hidle =>
    rw [rdmaLoopsRank, rdmaLoopsRank, hphase]
    refine Nat.add_lt_add_right (Nat.add_lt_add_left ?_ _) _
    rw [LoopPhase.afterWrite]
    split_ifs <;> exact Nat.one_pos

omit [Inhabited V] in
/-- So does one of the client. -/
theorem RdmaClientStep.rank_lt (h : RdmaClientStep s s')
    (hduplex : IsDuplex requestFormat.messageLite responseFormat.messageLite s.session) :
    rdmaLoopsRank s' < rdmaLoopsRank s := by
  cases h with
  | @write request calls prefer link hreading hcalls hlink =>
    obtain ⟨⟨t, ht, hrequests⟩, -⟩ := hduplex
    have hrank := hrequests.rank_beginWrite hlink
    have hle := (hrequests.counts ht).2
    cases linkMoves_of_next hlink with
    | beginWrite before after _ reading written reads =>
      rw [rdmaLoopsRank_setRequests hlink, rdmaLoopsRank, hcalls, List.map_cons, List.sum_cons,
        show link.reading = s.session.owner.reading from reading, RdmaLink.unread,
        RdmaLink.unread, written, reads, before, after, ClientCall.rank]
      simp only [Writing.message, List.length_nil, List.length_singleton]
      omega
  | fill hlink =>
    cases linkMoves_of_next hlink with
    | fill before after _ reading written reads =>
      refine rank_requests_lt (a := .fill) hduplex trivial hlink (by rw [reading]; rfl) ?_
      rw [RdmaLink.unread, RdmaLink.unread, written, reads, before, after]
      rfl
  | finishWrite hlink =>
    cases linkMoves_of_next hlink with
    | finishWrite before after _ reading written reads =>
      refine rank_requests_lt (a := .finishWrite) hduplex trivial hlink (by rw [reading]; rfl) ?_
      rw [RdmaLink.unread, RdmaLink.unread, written, reads, before, after, List.length_append]
      rfl
  | read hwriting hcalls hlink =>
    refine rank_responses_lt (a := .beginRead) hduplex trivial hlink ?_
    rw [hcalls, List.map_cons, List.sum_cons, ClientCall.rank, Nat.zero_add]
  | parse hlink => exact rank_responses_lt (a := .parse) hduplex trivial hlink rfl
  | finishRead hlink => exact rank_responses_lt (a := .finishRead) hduplex trivial hlink rfl

variable (behave requestFormat responseFormat readers writers size initial program) in
/-- Every step brings the loops on: the client's program gets shorter, a message goes its way, or
the server comes nearer to its next read. -/
theorem rdmaLoops_ranked :
    (rdmaLoops behave requestFormat responseFormat (pointers readers) (pointers writers) size
      initial program).Ranked Anything
        ((rdmaLoops behave requestFormat responseFormat (pointers readers) (pointers writers) size
          initial program).Reachable Anything) rdmaLoopsRank where
  keeps _ _ _ hs _ hnext := .step hs trivial hnext
  lt s a s' hs _ hnext := by
    have hduplex := session_isDuplex hs
    cases a with
    | server prefer => exact (rdmaServerStep_of_eq_some hnext).rank_lt rfl hduplex
    | client prefer => exact (rdmaClientStep_of_eq_some hnext).rank_lt hduplex
    | deliver side r =>
      cases side with
      | client =>
        obtain ⟨link, hlink, rfl⟩ := onRequests_eq_some hnext
        cases linkMoves_of_next hlink with
        | deliver writing reading _ written reads =>
          refine rank_requests_lt (a := .deliver r) hduplex trivial hlink (by rw [reading]; rfl) ?_
          rw [RdmaLink.unread, RdmaLink.unread, written, reads, writing]
      | owner =>
        obtain ⟨link, hlink, rfl⟩ := onResponses_eq_some hnext
        exact rank_responses_lt (a := .deliver r) hduplex trivial hlink rfl

/-! ### The client's place in its program -/

section Program

variable {Q : Type}

/-- The request that the call writes. -/
def ClientCall.request? : ClientCall Q → Option Q
  | .write request => some request
  | .read => none

/-- The responses that the call reads. -/
def ClientCall.reads : ClientCall Q → ℕ
  | .write _ => 0
  | .read => 1

def requestsOf (calls : List (ClientCall Q)) : List Q := calls.filterMap ClientCall.request?

def readsOf (calls : List (ClientCall Q)) : ℕ := (calls.map ClientCall.reads).sum

/-- There is a request for each response that is read, and at most nine are ahead: four in the
regions of their link, four responses in those of the other, and one with the server. -/
def Ahead (calls : List (ClientCall Q)) : Prop :=
  readsOf calls ≤ (requestsOf calls).length ∧ (requestsOf calls).length ≤ readsOf calls + 9

instance (calls : List (ClientCall Q)) : Decidable (Ahead calls) :=
  inferInstanceAs (Decidable (_ ∧ _))

/-- So it is wherever the program has come to. It is a condition on the program alone, and not on
what the network does. -/
def InWindow (program : List (ClientCall Q)) : Prop := ∀ calls ∈ program.inits, Ahead calls

instance (program : List (ClientCall Q)) : Decidable (InWindow program) :=
  inferInstanceAs (Decidable (∀ calls ∈ program.inits, Ahead calls))

theorem readsOf_concat (calls : List (ClientCall Q)) (call : ClientCall Q) :
    readsOf (calls ++ [call]) = readsOf calls + call.reads := by
  rw [readsOf, List.map_append, List.sum_append, List.map_singleton, List.sum_singleton]
  rfl

theorem requestsOf_concat (calls : List (ClientCall Q)) (call : ClientCall Q) :
    requestsOf (calls ++ [call]) = requestsOf calls ++ call.request?.toList := by
  rw [requestsOf, List.filterMap_append]
  cases call <;> rfl

theorem inWindow_iff {program : List (ClientCall Q)} :
    InWindow program ↔ ∀ calls, calls <+: program → Ahead calls :=
  forall_congr' fun calls => imp_congr_left (List.mem_inits calls program)

theorem InWindow.ahead {program calls : List (ClientCall Q)} (h : InWindow program)
    (hcalls : calls <+: program) : Ahead calls :=
  inWindow_iff.mp h calls hcalls

theorem InWindow.concat {calls : List (ClientCall Q)} {call : ClientCall Q} (h : InWindow calls)
    (hahead : Ahead (calls ++ [call])) : InWindow (calls ++ [call]) := by
  refine inWindow_iff.mpr fun start hstart => ?_
  rcases List.prefix_concat_iff.mp hstart with rfl | hstart
  · exact hahead
  · exact h.ahead hstart

/-- A client that writes `n` requests before it reads the responses. It is in the window for `n`
up to nine. -/
def writesThenReads (request : Q) (n : ℕ) : List (ClientCall Q) :=
  List.replicate n (.write request) ++ List.replicate n .read

theorem requestsOf_append (calls calls' : List (ClientCall Q)) :
    requestsOf (calls ++ calls') = requestsOf calls ++ requestsOf calls' :=
  List.filterMap_append

theorem requestsOf_replicate_write (request : Q) (n : ℕ) :
    requestsOf (List.replicate n (.write request)) = List.replicate n request := by
  rw [requestsOf, List.filterMap_replicate]
  rfl

theorem requestsOf_replicate_read (n : ℕ) :
    requestsOf (List.replicate n (.read : ClientCall Q)) = [] := by
  rw [requestsOf, List.filterMap_replicate]
  rfl

theorem readsOf_replicate (call : ClientCall Q) (n : ℕ) :
    readsOf (List.replicate n call) = n * call.reads := by
  rw [readsOf, List.map_replicate, List.sum_replicate_nat]

theorem requestsOf_writesThenReads (request : Q) (n : ℕ) :
    requestsOf (writesThenReads request n) = List.replicate n request := by
  rw [writesThenReads, requestsOf_append, requestsOf_replicate_write, requestsOf_replicate_read,
    List.append_nil]

/-- Such a client is in the window with nine requests, and not with ten. -/
theorem inWindow_writesThenReads (request : Q) (n : ℕ) :
    InWindow (writesThenReads request n) ↔ n ≤ 9 := by
  rw [inWindow_iff, writesThenReads]
  constructor
  · intro h
    obtain ⟨-, hahead⟩ := h (List.replicate n (.write request)) (List.prefix_append _ _)
    rwa [requestsOf_replicate_write, readsOf_replicate, List.length_replicate] at hahead
  · intro hn calls hcalls
    rw [List.prefix_iff_eq_take, List.take_append, List.take_replicate, List.take_replicate,
      List.length_replicate] at hcalls
    obtain ⟨w, r, hw, hr, hcalls⟩ : ∃ w r, w ≤ n ∧ (r = 0 ∨ w = n ∧ r ≤ n) ∧
        calls = List.replicate w (.write request) ++ List.replicate r .read :=
      ⟨_, _, Nat.min_le_right _ _, by omega, hcalls⟩
    rw [Ahead, hcalls, requestsOf_append, readsOf, List.map_append, List.sum_append, ← readsOf,
      ← readsOf, requestsOf_replicate_write, requestsOf_replicate_read, readsOf_replicate,
      readsOf_replicate, List.append_nil, List.length_replicate, ClientCall.reads, ClientCall.reads]
    omega

end Program

/-- The client has begun the calls `begun` of its program. What it has written and read, and the
call that it is in, are those of these calls. -/
structure HasCalled (program begun : List (ClientCall requestFormat.Message))
    (s : RdmaStreamLoops σ ε V requestFormat responseFormat size) : Prop where
  program : program = begun ++ s.calls
  requests : requestsOf begun = s.session.client.written ++ s.session.client.writing.message
  reads : readsOf begun = s.session.client.reads.length + s.session.client.reading.regions

variable {begun : List (ClientCall requestFormat.Message)}

omit [Inhabited V] in
theorem HasCalled.stays (h : HasCalled program begun s) (hcalls : s'.calls = s.calls)
    (hrequests : s'.session.client.written ++ s'.session.client.writing.message =
      s.session.client.written ++ s.session.client.writing.message)
    (hreads : s'.session.client.reads.length + s'.session.client.reading.regions =
      s.session.client.reads.length + s.session.client.reading.regions) :
    HasCalled program begun s' where
  program := by
    rw [hcalls]
    exact h.program
  requests := h.requests.trans hrequests.symm
  reads := h.reads.trans hreads.symm

omit [Inhabited V] in
/-- What the owner and the network do on the one link leaves it. -/
theorem HasCalled.setRequests (h : HasCalled program begun s)
    {link : RdmaLink requestFormat.Message size}
    {phase : LoopPhase requestFormat.Message responseFormat.Message}
    (hwriting : link.writing = s.session.client.writing)
    (hwritten : link.written = s.session.client.written) :
    HasCalled program begun
      { s with session := s.session.setRequests link, server := phase } := by
  refine h.stays rfl ?_ rfl
  change link.written ++ link.writing.message = _
  rw [hwritten, hwriting]

omit [Inhabited V] in
/-- So does what they do on the other. -/
theorem HasCalled.setResponses (h : HasCalled program begun s)
    {link : RdmaLink responseFormat.Message size}
    {phase : LoopPhase requestFormat.Message responseFormat.Message}
    (hreading : link.reading = s.session.client.reading)
    (hreads : link.reads = s.session.client.reads) :
    HasCalled program begun
      { s with session := s.session.setResponses link, server := phase } := by
  refine h.stays rfl rfl ?_
  change link.reads.length + link.reading.regions = _
  rw [hreads, hreading]

theorem HasCalled.server (h : HasCalled program begun s) {prefer : Fin 2}
    (hnext : rdmaServerStep behave requestFormat responseFormat (pointers readers)
      (pointers writers) prefer s = some s') : HasCalled program begun s' := by
  have hserver := rdmaServerStep_of_eq_some hnext
  generalize s.server = phase at hserver
  cases hserver with
  | beginRead hlink =>
    cases linkMoves_of_next hlink with
    | beginRead _ _ _ writing written _ => exact h.setRequests writing written
  | parse hlink =>
    cases linkMoves_of_next hlink with
    | parse _ _ _ writing written _ => exact h.setRequests writing written
  | finishRead hlink =>
    cases linkMoves_of_next hlink with
    | finishRead _ _ _ writing written _ => exact h.setRequests writing written
  | read hidle hlast => exact h.stays rfl rfl rfl
  | handle hrun => exact h.stays rfl rfl rfl
  | beginWrite hlink =>
    cases linkMoves_of_next hlink with
    | beginWrite _ _ _ reading _ reads => exact h.setResponses reading reads
  | fill hlink =>
    cases linkMoves_of_next hlink with
    | fill _ _ _ reading _ reads => exact h.setResponses reading reads
  | finishWrite hlink =>
    cases linkMoves_of_next hlink with
    | finishWrite _ _ _ reading _ reads => exact h.setResponses reading reads
  | written hidle => exact h.stays rfl rfl rfl

omit [Inhabited V] in
/-- The client goes on with its call, or begins the next one. -/
theorem HasCalled.client (h : HasCalled program begun s) (hstep : RdmaClientStep s s') :
    HasCalled program begun s' ∨ ∃ call, HasCalled program (begun ++ [call]) s' := by
  cases hstep with
  | @write request calls prefer link hreading hcalls hlink =>
    cases linkMoves_of_next hlink with
    | beginWrite before after _ _ written _ =>
      refine .inr ⟨.write request, ?_, ?_, ?_⟩
      · rw [h.program, hcalls, List.append_assoc]
        rfl
      · change s.session.client.writing = .idle at before
        change _ = link.written ++ link.writing.message
        rw [requestsOf_concat, h.requests, before, written, after, Writing.message,
          List.append_nil]
        rfl
      · rw [readsOf_concat, h.reads]
        rfl
  | @fill link hlink =>
    cases linkMoves_of_next hlink with
    | fill before after _ _ written _ =>
      refine .inl (h.stays rfl ?_ rfl)
      change s.session.client.writing = _ at before
      change link.written ++ link.writing.message = _
      rw [written, after, before]
      rfl
  | @finishWrite link hlink =>
    cases linkMoves_of_next hlink with
    | finishWrite before after _ _ written _ =>
      refine .inl (h.stays rfl ?_ rfl)
      change s.session.client.writing = _ at before
      change link.written ++ link.writing.message = _
      rw [written, after, before, Writing.message, List.append_nil]
      rfl
  | @read calls link hwriting hcalls hlink =>
    cases linkMoves_of_next hlink with
    | beginRead before after _ _ _ reads =>
      refine .inr ⟨.read, ?_, ?_, ?_⟩
      · rw [h.program, hcalls, List.append_assoc]
        rfl
      · rw [requestsOf_concat, h.requests]
        exact List.append_nil _
      · change s.session.client.reading = .idle at before
        change _ = link.reads.length + link.reading.regions
        rw [readsOf_concat, h.reads, before, reads, after]
        rfl
  | @parse link hlink =>
    cases linkMoves_of_next hlink with
    | parse before after _ _ _ reads =>
      refine .inl (h.stays rfl rfl ?_)
      change s.session.client.reading = _ at before
      change link.reads.length + link.reading.regions = _
      rw [reads, after, before]
      rfl
  | @finishRead link hlink =>
    cases linkMoves_of_next hlink with
    | finishRead before after _ _ _ reads =>
      refine .inl (h.stays rfl rfl ?_)
      change s.session.client.reading = _ at before
      change link.reads.length + link.reading.regions = _
      rw [reads, after, before, List.length_append]
      rfl

theorem HasCalled.step (h : HasCalled program begun s) {a : RdmaLoopStep}
    (hnext : (rdmaLoops behave requestFormat responseFormat (pointers readers) (pointers writers)
      size initial program).next s a = some s') :
    HasCalled program begun s' ∨ ∃ call, HasCalled program (begun ++ [call]) s' := by
  cases a with
  | server prefer => exact .inl (h.server hnext)
  | client prefer => exact h.client (rdmaClientStep_of_eq_some hnext)
  | deliver side r =>
    cases side with
    | client =>
      obtain ⟨link, hlink, rfl⟩ := onRequests_eq_some hnext
      cases linkMoves_of_next hlink with
      | deliver writing _ _ written _ => exact .inl (h.setRequests writing written)
    | owner =>
      obtain ⟨link, hlink, rfl⟩ := onResponses_eq_some hnext
      cases linkMoves_of_next hlink with
      | deliver _ reading _ _ reads => exact .inl (h.setResponses reading reads)

theorem hasCalled_init (h : (rdmaLoops behave requestFormat responseFormat (pointers readers)
    (pointers writers) size initial program).init s) : HasCalled program [] s := by
  obtain ⟨session, ⟨hrequests, hresponses⟩, rfl⟩ := h
  obtain ⟨-, -, -, -, -, -, hwriting, -, hwritten, -⟩ := hrequests
  obtain ⟨-, -, -, -, -, -, -, hreading, -, hreads⟩ := hresponses
  change session.client.writing = .idle at hwriting
  change session.client.written = [] at hwritten
  change session.client.reading = .idle at hreading
  change session.client.reads = [] at hreads
  refine ⟨rfl, ?_, ?_⟩
  · rw [hwritten, hwriting]
    rfl
  · rw [hreads, hreading]
    rfl

theorem hasCalled_of_reachable (h : (rdmaLoops behave requestFormat responseFormat
    (pointers readers) (pointers writers) size initial program).Reachable Anything s) :
    ∃ begun, HasCalled program begun s := by
  induction h with
  | init h => exact ⟨[], hasCalled_init h⟩
  | step _ _ hnext ih =>
    obtain ⟨begun, hcalled⟩ := ih
    rcases hcalled.step hnext with hstays | ⟨call, hnew⟩
    · exact ⟨begun, hstays⟩
    · exact ⟨_, hnew⟩

/-- What the owner reads are the first requests of the program. -/
theorem reads_of_reachable (h : (rdmaLoops behave requestFormat responseFormat (pointers readers)
    (pointers writers) size initial program).Reachable Anything s) :
    ∃ read, s.session.owner.reads = read.map some ∧ read <+: requestsOf program := by
  obtain ⟨⟨t, ht, hrequests⟩, -⟩ := session_isDuplex h
  obtain ⟨read, hreads, hread⟩ := hrequests.reads_eq ht
  change s.session.owner.reads = _ at hreads
  change read <+: s.session.client.written at hread
  obtain ⟨begun, hcalled⟩ := hasCalled_of_reachable h
  refine ⟨read, hreads, hread.trans ?_⟩
  rw [hcalled.program, requestsOf_append, hcalled.requests, List.append_assoc]
  exact List.prefix_append _ _

theorem request_of_read (h : (rdmaLoops behave requestFormat responseFormat (pointers readers)
    (pointers writers) size initial program).Reachable Anything s)
    {success : Option requestFormat.Message} (hmem : success ∈ s.session.owner.reads) :
    ∃ request ∈ requestsOf program, success = some request := by
  obtain ⟨read, hreads, hread⟩ := reads_of_reachable h
  rw [hreads] at hmem
  obtain ⟨request, hrequest, rfl⟩ := List.mem_map.mp hmem
  exact ⟨request, hread.subset hrequest, rfl⟩

/-- Requests that the owner has read, to begin with, are the first ones of the program. -/
theorem prefix_program (h : (rdmaLoops behave requestFormat responseFormat (pointers readers)
    (pointers writers) size initial program).Reachable Anything s)
    {handled : List requestFormat.Message} (hhandled : handled.map some <+: s.session.owner.reads) :
    handled <+: requestsOf program := by
  obtain ⟨read, hreads, hread⟩ := reads_of_reachable h
  rw [hreads] at hhandled
  exact ((List.prefix_map_iff_of_injective (Option.some_injective _)).mp hhandled).trans hread

/-! ### How far the client is ahead -/

variable {bound : ℕ} {handled : List requestFormat.Message}
  {responses : List responseFormat.Message}

/-- The server's loop does not end: no request cancels it, and no response is empty. -/
theorem running_of_rdmaServer (hreaders : readers ≠ [])
    (hprogram : ∀ request ∈ requestsOf program, Handleable writers bound request)
    (h : (rdmaLoops behave requestFormat responseFormat (pointers readers) (pointers writers) size
      initial program).Reachable Anything s) {prefer : Fin 2}
    (hnext : rdmaServerStep behave requestFormat responseFormat (pointers readers)
      (pointers writers) prefer s = some s') (hrunning : s.server ≠ .returned) :
    s'.server ≠ .returned := by
  obtain ⟨handled, responses, hserves⟩ := servesOverRdma_of_reachable h
  have howner := hserves.ownerAt
  have hserver := rdmaServerStep_of_eq_some hnext
  generalize hphase : s.server = phase at hserver howner
  cases hserver with
  | beginRead hlink => exact fun hreturned => (by cases hreturned)
  | parse hlink => exact hrunning
  | finishRead hlink => exact hrunning
  | @read success hidle hlast =>
    obtain ⟨request, hrequest, rfl⟩ := request_of_read h (List.mem_of_getLast? hlast)
    have hcancel : ¬ request.val.cancel = true := by
      rw [(hprogram request hrequest).goesOn]
      exact Bool.false_ne_true
    rw [LoopPhase.afterRead, if_neg hcancel]
    exact fun hreturned => (by cases hreturned)
  | @handle writeRequest readResult service hrun =>
    cases readResult <;> exact fun hreturned => (by cases hreturned)
  | beginWrite hlink => exact fun hreturned => (by cases hreturned)
  | fill hlink => exact hrunning
  | finishWrite hlink => exact hrunning
  | @written readResult hidle =>
    obtain ⟨-, -, -, hmem⟩ := howner
    obtain ⟨values, hframe⟩ := (effectOf_responses hreaders handled).2
      (responseFormat.serialize readResult.val) (by
        rw [← hserves.frames]
        exact List.mem_map_of_mem hmem)
    have hne : responseFormat.serialize readResult.val ≠ [] := by
      rw [hframe]
      exact responseFormat.serialize_ne_nil fun hempty =>
        Option.some_ne_none _ (congrArg SidebandReadResponse.values? hempty)
    have hsize : byteSizeLong responseFormat.messageLite readResult ≠ 0 :=
      Int.natCast_ne_zero.mpr (List.length_pos_iff.mpr hne).ne'
    rw [LoopPhase.afterWrite, if_neg hsize]
    exact fun hreturned => (by cases hreturned)

theorem running_of_reachable (hreaders : readers ≠ [])
    (hprogram : ∀ request ∈ requestsOf program, Handleable writers bound request)
    (h : (rdmaLoops behave requestFormat responseFormat (pointers readers) (pointers writers) size
      initial program).Reachable Anything s) : s.server ≠ .returned := by
  induction h with
  | init h =>
    obtain ⟨session, -, rfl⟩ := h
    exact fun hreturned => (by cases hreturned)
  | @step s s' a hs _ hnext ih =>
    cases a with
    | server prefer => exact running_of_rdmaServer hreaders hprogram hs hnext ih
    | client prefer =>
      cases rdmaClientStep_of_eq_some hnext <;> exact ih
    | deliver side r =>
      cases side with
      | client =>
        obtain ⟨link, -, rfl⟩ := onRequests_eq_some hnext
        exact ih
      | owner =>
        obtain ⟨link, -, rfl⟩ := onResponses_eq_some hnext
        exact ih

/-- Each request that was handled has its response. -/
theorem ServesOverRdma.length_eq
    (h : ServesOverRdma behave readers writers initial s handled responses)
    (hreaders : readers ≠ []) : responses.length = handled.length := by
  obtain ⟨hlength, -⟩ : (responseFrames responseFormat (effectOf behave requestFormat readers
      writers initial handled).events).length = handled.length ∧ _ :=
    effectOf_responses hreaders handled
  rw [← hlength, ← h.frames, List.length_map]

/-- The server has one request in hand, at most. -/
theorem ServesOverRdma.inHand
    (h : ServesOverRdma behave readers writers initial s handled responses)
    (hreaders : readers ≠ []) (hrunning : s.server ≠ .returned) :
    s.session.owner.written.length ≤ s.session.owner.reads.length ∧
      s.session.owner.reads.length ≤ s.session.owner.written.length + 1 := by
  have hlength := h.length_eq hreaders
  have howner := h.ownerAt
  cases hphase : s.server with
  | beginRead =>
    rw [hphase] at howner
    obtain ⟨-, -, hreads, hwritten⟩ := howner
    rw [hreads, hwritten, List.length_map]
    omega
  | reading =>
    rw [hphase] at howner
    obtain ⟨-, hwritten, ⟨-, hreads⟩ | ⟨-, success, hreads⟩⟩ := howner
    · rw [hreads, hwritten, List.length_map]
      omega
    · rw [hreads, hwritten, List.length_append, List.length_map, List.length_singleton]
      omega
  | handle writeRequest =>
    rw [hphase] at howner
    obtain ⟨-, -, hreads, -, hwritten⟩ := howner
    rw [hreads, hwritten, List.length_append, List.length_map, List.length_singleton]
    omega
  | beginWrite readResult =>
    rw [hphase] at howner
    obtain ⟨-, -, hreads, hwritten⟩ := howner
    rw [← hwritten, List.length_append, List.length_singleton] at hlength
    rw [hreads, List.length_map]
    omega
  | writing readResult =>
    rw [hphase] at howner
    obtain ⟨-, hreads, hwritten, -⟩ := howner
    have hone : s.session.owner.writing.message.length ≤ 1 := by
      cases s.session.owner.writing <;> simp [Writing.message]
    rw [← hwritten, List.length_append] at hlength
    rw [hreads, List.length_map]
    omega
  | returned => exact absurd hphase hrunning

/-- The client is at most nine requests ahead of the responses that it has read: four are in the
regions of either link, and the server has one in hand. -/
theorem counts_of_reachable (hreaders : readers ≠ [])
    (hprogram : ∀ request ∈ requestsOf program, Handleable writers bound request)
    (h : (rdmaLoops behave requestFormat responseFormat (pointers readers) (pointers writers) size
      initial program).Reachable Anything s) :
    s.session.client.reads.length + s.session.client.reading.regions ≤
        s.session.client.written.length ∧
      s.session.client.written.length + s.session.client.writing.message.length ≤
        s.session.client.reads.length + 9 := by
  obtain ⟨⟨t, ht, hrequests⟩, u, hu, hresponses⟩ := session_isDuplex h
  obtain ⟨handled, responses, hserves⟩ := servesOverRdma_of_reachable h
  have hhand := hserves.inHand hreaders (running_of_reachable hreaders hprogram h)
  have hahead := hrequests.counts ht
  have hbehind := hresponses.counts hu
  change s.session.client.written.length + s.session.client.writing.message.length ≤
    s.session.owner.reads.length + 4 ∧ s.session.owner.reads.length +
      s.session.owner.reading.regions ≤ s.session.client.written.length at hahead
  change s.session.owner.written.length + s.session.owner.writing.message.length ≤
    s.session.client.reads.length + 4 ∧ s.session.client.reads.length +
      s.session.client.reading.regions ≤ s.session.owner.written.length at hbehind
  omega

theorem HasCalled.ahead (h : HasCalled program begun s) (hreaders : readers ≠ [])
    (hprogram : ∀ request ∈ requestsOf program, Handleable writers bound request)
    (hs : (rdmaLoops behave requestFormat responseFormat (pointers readers) (pointers writers) size
      initial program).Reachable Anything s) : Ahead begun := by
  have hcounts := counts_of_reachable hreaders hprogram hs
  rw [Ahead, h.requests, h.reads, List.length_append]
  omega

/-- What the client has begun is in the window. -/
theorem inWindow_of_reachable (hreaders : readers ≠ [])
    (hprogram : ∀ request ∈ requestsOf program, Handleable writers bound request)
    (h : (rdmaLoops behave requestFormat responseFormat (pointers readers) (pointers writers) size
      initial program).Reachable Anything s) :
    ∃ begun, HasCalled program begun s ∧ InWindow begun := by
  induction h with
  | init h =>
    refine ⟨[], hasCalled_init h, inWindow_iff.mpr fun calls hcalls => ?_⟩
    obtain rfl := List.prefix_nil.mp hcalls
    exact ⟨Nat.zero_le _, Nat.zero_le _⟩
  | step hs hok hnext ih =>
    obtain ⟨begun, hcalled, hwindow⟩ := ih
    rcases hcalled.step hnext with hstays | ⟨call, hnew⟩
    · exact ⟨begun, hstays, hwindow⟩
    · exact ⟨_, hnew, hwindow.concat (hnew.ahead hreaders hprogram (.step hs hok hnext))⟩

/-! ### Where the loops get stuck -/

/-- The client's program has returned, and with it every call that it makes. The server may still
be at work. -/
structure ProgramReturned (s : RdmaStreamLoops σ ε V requestFormat responseFormat size) : Prop where
  calls : s.calls = []
  writing : s.session.client.writing = .idle
  reading : s.session.client.reading = .idle

/-- In a stuck state the client is between two calls. -/
theorem client_idle_of_stuck
    (h : (rdmaLoops behave requestFormat responseFormat (pointers readers) (pointers writers) size
      initial program).Reachable Anything s)
    (hstuck : rdmaClientStep requestFormat responseFormat 0 s = none) :
    s.session.client.writing = .idle ∧ s.session.client.reading = .idle := by
  obtain ⟨⟨t, ht, hrequests⟩, u, hu, hresponses⟩ := session_isDuplex h
  rw [rdmaClientStep] at hstuck
  have hwriting : s.session.client.writing = .idle := by
    cases hwriting : s.session.client.writing with
    | idle => rfl
    | begun m buffer =>
      rw [hwriting] at hstuck
      exact absurd (Option.map_eq_none_iff.mp hstuck)
        (hrequests.next_ne_none (a := .fill) ⟨m, buffer, hwriting⟩)
    | filled m =>
      rw [hwriting] at hstuck
      exact absurd (Option.map_eq_none_iff.mp hstuck)
        (hrequests.next_ne_none (a := .finishWrite) ⟨m, hwriting⟩)
  refine ⟨hwriting, ?_⟩
  rw [hwriting] at hstuck
  cases hreading : s.session.client.reading with
  | idle => rfl
  | begun buffer bufferSize =>
    rw [hreading] at hstuck
    exact absurd (Option.map_eq_none_iff.mp hstuck)
      (hresponses.next_ne_none (a := .parse) ⟨buffer, bufferSize, hreading⟩)
  | parsed success =>
    rw [hreading] at hstuck
    exact absurd (Option.map_eq_none_iff.mp hstuck)
      (hresponses.next_ne_none (a := .finishRead) ⟨success, hreading⟩)

/-- What a stuck server waits for: a request, or a region for a response. It never waits for
both, and the endpoints do not make it wait. -/
inductive ServerWaits (s : RdmaStreamLoops σ ε V requestFormat responseFormat size) : Prop
  | request (hreading : s.session.owner.reading = .idle)
      (hnone : (rdmaLink requestFormat.messageLite size).next s.session.requests .beginRead = none)
      (heq : s.session.owner.reads.length = s.session.owner.written.length)
  | region (readResult : responseFormat.Message) (hreading : s.session.owner.reading = .idle)
      (hwriting : s.session.owner.writing = .idle)
      (hfits : (responseFormat.messageLite.serialize readResult).length + sizeofInt64 ≤ size)
      (hnone : (rdmaLink responseFormat.messageLite size).next s.session.responses
        (.beginWrite readResult 0) = none)
      (heq : s.session.owner.reads.length = s.session.owner.written.length + 1)

theorem serverWaits_of_stuck (hreaders : readers ≠ []) (hsize : bound < 2 ^ 31)
    (hbound : bound + sizeofInt64 ≤ size)
    (hprogram : ∀ request ∈ requestsOf program, Handleable writers bound request)
    (hfit : ResponsesFit behave requestFormat responseFormat readers writers initial bound
      (requestsOf program))
    (h : (rdmaLoops behave requestFormat responseFormat (pointers readers) (pointers writers) size
      initial program).Reachable Anything s)
    (hstuck : rdmaServerStep behave requestFormat responseFormat (pointers readers)
      (pointers writers) 0 s = none) : ServerWaits s := by
  obtain ⟨⟨t, ht, hrequests⟩, u, hu, hresponses⟩ := session_isDuplex h
  obtain ⟨handled, responses, hserves⟩ := servesOverRdma_of_reachable h
  have hlength := hserves.length_eq hreaders
  have howner := hserves.ownerAt
  have hhandled := prefix_program h howner.read_prefix
  rw [rdmaServerStep] at hstuck
  cases hphase : s.server with
  | beginRead =>
    rw [hphase] at hstuck howner
    obtain ⟨-, hreading, hreads, hwritten⟩ := howner
    refine .request hreading
      (Option.map_eq_none_iff.mp (Option.map_eq_none_iff.mp hstuck)) ?_
    rw [hreads, hwritten, hlength, List.length_map]
  | reading =>
    rw [hphase] at hstuck howner
    dsimp only at hstuck
    exfalso
    cases hreading : s.session.owner.reading with
    | idle =>
      obtain ⟨-, -, ⟨hbusy, -⟩ | ⟨-, success, hreads⟩⟩ := howner
      · exact hbusy hreading
      · rw [hreading, hreads, List.getLast?_concat] at hstuck
        cases hstuck
    | begun buffer bufferSize =>
      rw [hreading] at hstuck
      exact absurd (Option.map_eq_none_iff.mp hstuck)
        (hrequests.next_ne_none (a := .parse) ⟨buffer, bufferSize, hreading⟩)
    | parsed success =>
      rw [hreading] at hstuck
      exact absurd (Option.map_eq_none_iff.mp hstuck)
        (hrequests.next_ne_none (a := .finishRead) ⟨success, hreading⟩)
  | handle writeRequest =>
    rw [hphase] at hstuck howner
    exfalso
    obtain ⟨-, -, hreads, -⟩ := howner
    have hboth : handled ++ [writeRequest] <+: requestsOf program := by
      refine prefix_program h ?_
      rw [hreads, List.map_append, List.map_singleton]
    have hnew : Handleable writers bound writeRequest :=
      hprogram writeRequest (hboth.subset (List.mem_append_right _ List.mem_cons_self))
    have hframes : ∀ frame ∈ responseFrames responseFormat (requestEffect behave readers writers
        writeRequest.val.values s.service.shared).events, frame.length < 2 ^ 31 := by
      rw [hserves.shared]
      exact fun frame hframe => ((hfit.of_prefix hboth).requestEffect frame hframe).trans_lt hsize
    obtain ⟨r, hrun⟩ := run_sendableResponse s.service hreaders hnew.enough hframes
    dsimp only at hstuck
    rw [hrun] at hstuck
    cases hstuck
  | beginWrite readResult =>
    rw [hphase] at hstuck howner
    obtain ⟨hwriting, hreading, hreads, hwritten⟩ := howner
    have hle : (responseFormat.serialize readResult.val).length ≤ bound := by
      refine hfit.of_prefix hhandled _ ?_
      rw [← hserves.frames, ← hwritten]
      exact List.mem_map_of_mem (List.mem_append_right _ List.mem_cons_self)
    refine .region readResult hreading hwriting ((Nat.add_le_add_right hle _).trans hbound)
      (Option.map_eq_none_iff.mp (Option.map_eq_none_iff.mp hstuck)) ?_
    rw [← hwritten, List.length_append, List.length_singleton] at hlength
    rw [hreads, List.length_map, hlength]
  | writing readResult =>
    rw [hphase] at hstuck howner
    dsimp only at hstuck
    exfalso
    cases hwriting : s.session.owner.writing with
    | idle =>
      rw [hwriting] at hstuck
      cases hstuck
    | begun m buffer =>
      rw [hwriting] at hstuck
      exact absurd (Option.map_eq_none_iff.mp hstuck)
        (hresponses.next_ne_none (a := .fill) ⟨m, buffer, hwriting⟩)
    | filled m =>
      rw [hwriting] at hstuck
      exact absurd (Option.map_eq_none_iff.mp hstuck)
        (hresponses.next_ne_none (a := .finishWrite) ⟨m, hwriting⟩)
  | returned => exact absurd hphase (running_of_reachable hreaders hprogram h)

/-- A stuck client has returned, or its next call would leave the window. -/
theorem returned_of_stuck (hreaders : readers ≠ []) (hsize : bound < 2 ^ 31)
    (hbound : bound + sizeofInt64 ≤ size)
    (hprogram : ∀ request ∈ requestsOf program, Handleable writers bound request)
    (hfit : ResponsesFit behave requestFormat responseFormat readers writers initial bound
      (requestsOf program))
    (h : (rdmaLoops behave requestFormat responseFormat (pointers readers) (pointers writers) size
      initial program).Reachable Anything s)
    (hstuck : (rdmaLoops behave requestFormat responseFormat (pointers readers) (pointers writers)
      size initial program).Stuck Anything s) (hwindow : InWindow program) :
    ProgramReturned s := by
  have hclient := hstuck (.client 0) trivial
  have hdeliverRequests : ∀ r, (rdmaLink requestFormat.messageLite size).next s.session.requests
      (.deliver r) = none := fun r =>
    Option.map_eq_none_iff.mp (hstuck (.deliver .client r) trivial)
  have hdeliverResponses : ∀ r, (rdmaLink responseFormat.messageLite size).next
      s.session.responses (.deliver r) = none := fun r =>
    Option.map_eq_none_iff.mp (hstuck (.deliver .owner r) trivial)
  obtain ⟨hwriting, hreading⟩ := client_idle_of_stuck h hclient
  obtain ⟨⟨t, ht, hrequests⟩, u, hu, hresponses⟩ := session_isDuplex h
  obtain ⟨begun, hcalled⟩ := hasCalled_of_reachable h
  have hbegunRequests := congrArg List.length hcalled.requests
  have hbegunReads := hcalled.reads
  rw [hwriting, List.length_append, Writing.message, List.length_nil] at hbegunRequests
  rw [hreading, Reading.regions] at hbegunReads
  refine ⟨?_, hwriting, hreading⟩
  change rdmaClientStep requestFormat responseFormat 0 s = none at hclient
  rw [rdmaClientStep, hwriting, hreading] at hclient
  dsimp only at hclient
  cases hcalls : s.calls with
  | nil => rfl
  | cons call calls =>
    exfalso
    -- the program is in the window with the call that is next
    have hprefix : begun ++ [call] <+: program := by
      rw [hcalled.program, hcalls]
      exact ⟨calls, by rw [List.append_assoc]; rfl⟩
    obtain ⟨hbehind, hahead⟩ := hwindow.ahead hprefix
    rw [readsOf_concat, requestsOf_concat, List.length_append] at hbehind hahead
    have hrequest : ∀ request, call = .write request →
        (requestFormat.messageLite.serialize request).length + sizeofInt64 ≤ size := by
      rintro request rfl
      have hmem : request ∈ requestsOf program := List.mem_filterMap.mpr ⟨.write request,
        hprefix.subset (List.mem_append_right _ List.mem_cons_self), rfl⟩
      exact (Nat.add_le_add_right (hprogram request hmem).length_le _).trans hbound
    rw [hcalls] at hclient
    cases serverWaits_of_stuck hreaders hsize hbound hprogram hfit h
        (hstuck (.server 0) trivial) with
    | request hidle hnone heq =>
      obtain ⟨hqueue, hall⟩ := hrequests.read_all ht hidle hnone hdeliverRequests
      change s.session.client.written.length = s.session.owner.reads.length at hall
      cases call with
      | write request =>
        have hfull := hrequests.length_queue_of_waits hwriting
          (hrequest request rfl)
          (Option.map_eq_none_iff.mp (Option.map_eq_none_iff.mp hclient))
        rw [hqueue] at hfull
        cases hfull
      | read =>
        obtain ⟨-, hanswered⟩ := hresponses.read_all hu hreading
          (Option.map_eq_none_iff.mp (Option.map_eq_none_iff.mp hclient)) hdeliverResponses
        change s.session.owner.written.length = s.session.client.reads.length at hanswered
        rw [ClientCall.reads, ClientCall.request?, Option.toList_none, List.length_nil] at hbehind
        omega
    | region readResult hidle hownerWriting hfits hnone heq =>
      obtain ⟨hfour, hnext⟩ := hresponses.four_ahead hu hownerWriting hreading hfits hnone
        hdeliverResponses
      change s.session.owner.written.length = s.session.client.reads.length + 4 at hfour
      cases call with
      | write request =>
        obtain ⟨hmore, -⟩ := hrequests.four_ahead ht hwriting hidle
          (hrequest request rfl)
          (Option.map_eq_none_iff.mp (Option.map_eq_none_iff.mp hclient)) hdeliverRequests
        change s.session.client.written.length = s.session.owner.reads.length + 4 at hmore
        rw [ClientCall.reads, ClientCall.request?, Option.toList_some, List.length_singleton]
          at hahead
        omega
      | read =>
        exact hnext (Option.map_eq_none_iff.mp (Option.map_eq_none_iff.mp hclient))

/-- **Which programs of a client complete**: the loops come to rest whatever their order, and the
client's program has returned then exactly if it is in the window. The messages fit their
regions, no request cancels, and there is a reader, so that each request has its response. -/
theorem completes_iff (hreaders : readers ≠ []) (hsize : bound < 2 ^ 31)
    (hbound : bound + sizeofInt64 ≤ size)
    (hprogram : ∀ request ∈ requestsOf program, Handleable writers bound request)
    (hfit : ResponsesFit behave requestFormat responseFormat readers writers initial bound
      (requestsOf program))
    (h : (rdmaLoops behave requestFormat responseFormat (pointers readers) (pointers writers) size
      initial program).Reachable Anything s) :
    let loops := rdmaLoops behave requestFormat responseFormat (pointers readers)
      (pointers writers) size initial program
    (∀ as s', loops.Run Anything s as s' → as.length ≤ rdmaLoopsRank s ∧
      (loops.Stuck Anything s' → (ProgramReturned s' ↔ InWindow program))) ∧
      ∃ as s', loops.Run Anything s as s' ∧ loops.Stuck Anything s' := by
  intro loops
  have hranked := rdmaLoops_ranked size behave requestFormat responseFormat readers writers initial
    program
  refine ⟨fun as s' hrun => ⟨(Nat.le_add_right _ _).trans (hranked.length_le h hrun),
    fun hstuck => ?_⟩, hranked.exists_stuck h⟩
  have hs' := hrun.reachable (fun _ _ _ => trivial) h
  constructor
  · intro hreturned
    obtain ⟨begun, hcalled, hwindow⟩ := inWindow_of_reachable hreaders hprogram hs'
    rw [hcalled.program, hreturned.calls, List.append_nil]
    exact hwindow
  · exact returned_of_stuck hreaders hsize hbound hprogram hfit hs' hstuck

variable (behave readers writers initial program) in
/-- The client has the response to each request of its program, and each has had its effect: the
endpoints were called on it once, in order, as the record of the calls says. -/
structure CompletedProgram (s : RdmaStreamLoops σ ε V requestFormat responseFormat size) : Prop
    where
  returned : ProgramReturned s
  requests : s.session.client.written = requestsOf program
  responses : ∃ read : List responseFormat.Message, s.session.client.reads = read.map some ∧
    read.map (fun readResult => responseFormat.serialize readResult.val) = responseFrames
      responseFormat (effectOf behave requestFormat readers writers initial
        (requestsOf program)).events
  shared : s.service.shared =
    (effectOf behave requestFormat readers writers initial (requestsOf program)).shared
  /-- The endpoints have been called on each request once, in order. -/
  events : s.service.events ++ s.server.unanswered =
    (effectOf behave requestFormat readers writers initial (requestsOf program)).events

/-- A client that has returned and has read as many responses as it wrote requests has them all. -/
theorem ProgramReturned.completed (hreturned : ProgramReturned s) (hreaders : readers ≠ [])
    (hreads : readsOf program = (requestsOf program).length)
    (h : (rdmaLoops behave requestFormat responseFormat (pointers readers) (pointers writers) size
      initial program).Reachable Anything s) :
    CompletedProgram behave readers writers initial program s := by
  obtain ⟨begun, hcalled⟩ := hasCalled_of_reachable h
  have hprogram := hcalled.program
  rw [hreturned.calls, List.append_nil] at hprogram
  subst hprogram
  have hwritten := hcalled.requests
  have hlength := hcalled.reads
  rw [hreturned.writing, Writing.message, List.append_nil] at hwritten
  rw [hreturned.reading, Reading.regions, Nat.add_zero, hreads] at hlength
  obtain ⟨handled, responses, hserves⟩ := servesOverRdma_of_reachable h
  obtain ⟨hrequests, -, hshared, hevents, read, hread, hprefix⟩ :=
    hserves.answers (session_isDuplex h)
  rw [← hwritten] at hrequests
  rw [hread, List.length_map] at hlength
  -- the responses are no more than the requests that were handled
  have hle := hprefix.length_le
  rw [← hserves.frames, List.length_map, List.length_map, hserves.length_eq hreaders] at hle
  obtain rfl : handled = requestsOf program :=
    hrequests.eq_of_length (le_antisymm hrequests.length_le (hlength.trans_le hle))
  refine ⟨hreturned, hwritten.symm, ⟨read, hread, hprefix.eq_of_length ?_⟩, hshared, hevents⟩
  rw [← hserves.frames, List.length_map, List.length_map, hserves.length_eq hreaders, hlength]

/-- **A client in the window that reads each response gets them all**, in whatever order the steps
are taken. -/
theorem program_completes (hreaders : readers ≠ []) (hsize : bound < 2 ^ 31)
    (hbound : bound + sizeofInt64 ≤ size)
    (hprogram : ∀ request ∈ requestsOf program, Handleable writers bound request)
    (hfit : ResponsesFit behave requestFormat responseFormat readers writers initial bound
      (requestsOf program))
    (hwindow : InWindow program) (hreads : readsOf program = (requestsOf program).length)
    (h : (rdmaLoops behave requestFormat responseFormat (pointers readers) (pointers writers) size
      initial program).Reachable Anything s) :
    let loops := rdmaLoops behave requestFormat responseFormat (pointers readers)
      (pointers writers) size initial program
    (∀ as s', loops.Run Anything s as s' → as.length ≤ rdmaLoopsRank s ∧
      (loops.Stuck Anything s' →
        CompletedProgram behave readers writers initial program s')) ∧
      ∃ as s', loops.Run Anything s as s' ∧
        CompletedProgram behave readers writers initial program s' := by
  intro loops
  have hranked := rdmaLoops_ranked size behave requestFormat responseFormat readers writers initial
    program
  have hcompleted : ∀ as s', loops.Run Anything s as s' → loops.Stuck Anything s' →
      CompletedProgram behave readers writers initial program s' := by
    intro as s' hrun hstuck
    have hs' := hrun.reachable (fun _ _ _ => trivial) h
    exact (returned_of_stuck hreaders hsize hbound hprogram hfit hs' hstuck hwindow).completed
      hreaders hreads hs'
  refine ⟨fun as s' hrun => ⟨(Nat.le_add_right _ _).trans (hranked.length_le h hrun),
    hcompleted as s' hrun⟩, ?_⟩
  obtain ⟨as, s', hrun, hstuck⟩ := hranked.exists_stuck h
  exact ⟨as, s', hrun, hcompleted as s' hrun hstuck⟩

/-- Every response of an endpoint that returns the default value is the same. -/
theorem responseFrames_default (requests : List (List Any)) (initial : Unit) :
    ∀ frame ∈ responseFrames sidebandReadResponseFormat (requestsEffect
      (fun (_ : Bool) _ _ shared => (default, shared)) [(false, 1)] [] requests initial).events,
      frame = sidebandReadResponseFormat.serialize { values? := some [default] } := by
  induction requests generalizing initial with
  | nil => exact fun frame hframe => (by cases hframe)
  | cons values requests ih =>
    intro frame hframe
    rw [requestsEffect] at hframe
    dsimp only at hframe
    rw [responseFrames_append, responseFrames_requestEffect (List.cons_ne_nil _ _)] at hframe
    rcases List.mem_append.mp hframe with hframe | hframe
    · exact List.mem_singleton.mp hframe
    · exact ih _ frame hframe

theorem responsesFit_default (requests : List sidebandWriteRequestFormat.Message) :
    ResponsesFit (fun (_ : Bool) _ _ shared => ((default : Any), shared))
      sidebandWriteRequestFormat sidebandReadResponseFormat [(false, 1)] [] () 64 requests := by
  intro frame hframe
  rw [responseFrames_default _ _ frame hframe]
  decide

/-- One endpoint, which returns the default value, and a client that writes `n` requests first. -/
def pipelinedLoops (n : ℕ) : Machine (RdmaStreamLoops Unit Bool Any sidebandWriteRequestFormat
    sidebandReadResponseFormat 72) RdmaLoopStep :=
  rdmaLoops (fun (_ : Bool) _ _ shared => (default, shared)) sidebandWriteRequestFormat
    sidebandReadResponseFormat (pointers [(false, 1)]) (pointers []) 72 ()
    (writesThenReads ⟨.ofValues [], by decide⟩ n)

theorem exists_init_pipelinedLoops (n : ℕ) : ∃ s, (pipelinedLoops n).init s :=
  ⟨⟨⟨⟨⟨.configured 72, .configured 72, {}, {}⟩, .idle, .idle, [], []⟩,
      ⟨⟨.configured 72, .configured 72, {}, {}⟩, .idle, .idle, [], []⟩⟩, ⟨(), [], ()⟩, .beginRead,
    _⟩, _, ⟨⟨rfl, rfl, rfl, rfl, rfl, rfl, rfl, rfl, rfl, rfl⟩,
      ⟨rfl, rfl, rfl, rfl, rfl, rfl, rfl, rfl, rfl, rfl⟩⟩, rfl⟩

theorem handleable_writesThenReads (n : ℕ) : ∀ request ∈ requestsOf (writesThenReads
    (⟨.ofValues [], by decide⟩ : sidebandWriteRequestFormat.Message) n),
      Handleable ([] : List (Bool × ℤ)) 64 request := by
  intro request hrequest
  rw [requestsOf_writesThenReads] at hrequest
  rw [List.eq_of_mem_replicate hrequest]
  exact ⟨by decide, rfl, Nat.zero_le _⟩

/-- Nine requests before the first response complete, and ten do not. -/
theorem completes_iff_nine :
    (∃ s as s', (pipelinedLoops 9).init s ∧ (pipelinedLoops 9).Run Anything s as s' ∧
      ProgramReturned s') ∧
    ∃ s as s', (pipelinedLoops 10).init s ∧ (pipelinedLoops 10).Run Anything s as s' ∧
      (pipelinedLoops 10).Stuck Anything s' ∧ ¬ ProgramReturned s' := by
  have hends : ∀ n, ∃ s as s', (pipelinedLoops n).init s ∧
      (pipelinedLoops n).Run Anything s as s' ∧ (pipelinedLoops n).Stuck Anything s' ∧
        (ProgramReturned s' ↔ n ≤ 9) := by
    intro n
    obtain ⟨s, hinit⟩ := exists_init_pipelinedLoops n
    obtain ⟨hruns, as, s', hrun, hstuck⟩ := completes_iff (List.cons_ne_nil _ _)
      (by decide : 64 < 2 ^ 31) (by decide) (handleable_writesThenReads n) (responsesFit_default _)
      (.init hinit)
    exact ⟨s, as, s', hinit, hrun, hstuck,
      ((hruns as s' hrun).2 hstuck).trans (inWindow_writesThenReads _ n)⟩
  obtain ⟨s, as, s', hinit, hrun, -, hiff⟩ := hends 9
  obtain ⟨t, bs, t', htinit, htrun, hstuck, htiff⟩ := hends 10
  exact ⟨⟨s, as, s', hinit, hrun, hiff.mpr (le_refl 9)⟩,
    t, bs, t', htinit, htrun, hstuck, fun hreturned => absurd (htiff.mp hreturned) (by decide)⟩

/-- The client has the responses to its nine requests. -/
theorem program_completes_nine :
    ∃ s as s', (pipelinedLoops 9).init s ∧ (pipelinedLoops 9).Run Anything s as s' ∧
      CompletedProgram (fun (_ : Bool) _ _ shared => (default, shared)) [(false, 1)] [] ()
        (writesThenReads ⟨.ofValues [], by decide⟩ 9) s' := by
  obtain ⟨s, hinit⟩ := exists_init_pipelinedLoops 9
  obtain ⟨-, as, s', hrun, hcompleted⟩ := program_completes (List.cons_ne_nil _ _)
    (by decide : 64 < 2 ^ 31) (by decide) (handleable_writesThenReads 9) (responsesFit_default _)
    ((inWindow_writesThenReads _ 9).mpr le_rfl) rfl (.init hinit)
  exact ⟨s, as, s', hinit, hrun, hcompleted⟩

end Loops

end Sideband
