import Sideband.Moniker.SocketLoops
import Sideband.Sockets.Progress

/-!
# Exchanges that complete

The loops of a socket stream come to rest: until the client begins another request there are only so
many steps (`working_length_le`), whatever the client does.

A client that reads the response to each request before it writes the next one is never stuck before
it has that response, however few bytes the kernel keeps for a connection. So an exchange that has
begun completes in every order of the steps (`exchanges_complete`).
-/

namespace Sideband

open Foundation

section Loops

variable {σ ε V : Type} {behave : ε → ℤ → V → σ → V × σ}
  {requestFormat : WireFormat ({} : SidebandWriteRequest V)}
  {responseFormat : WireFormat ({} : SidebandReadResponse V)}

/-! ### The rank -/

/-- A step that is no new request, and no `recv` without bytes, which is a wait. The client may
still begin to read. -/
def Working {Q : Type} : SocketLoopStep Q → Prop
  | .write _ => False
  | .recv _ (.deliver _) => True
  | .recv _ _ => False
  | _ => True

/-- An upper bound for the rank of one request: six for each byte that a response may have, and
the calls around them. -/
def requestRank (size : ℕ) : ℕ := 6 * size + 53

/-- What the server's loop has to do with the request that it has read. -/
def LoopPhase.rank {Q P : Type} (size : ℕ) (owner : MessageCall) : LoopPhase Q P → ℕ
  | .beginRead => 0
  | .reading => if owner = .idle then requestRank size + 1 else 0
  | .handle _ => requestRank size
  | .beginWrite _ => requestRank size - 1
  | .writing _ => 2
  | .returned => 0

variable (size : ℕ)

/-- The bytes on their way, the requests that the server has not read, and the one that it has. A
request counts for all that it can still lead to. -/
def loopsRank (s : SocketStreamLoops σ ε V requestFormat responseFormat) : ℕ :=
  s.session.rank +
    (requestRank size + 2) * (s.requests.length - (s.party .owner).read.length) +
    s.server.rank size (s.party .owner).call

theorem LoopPhase.rank_le {Q P : Type} (owner : MessageCall) (phase : LoopPhase Q P) :
    phase.rank size owner ≤ requestRank size + 1 := by
  cases phase with
  | reading =>
    rw [LoopPhase.rank]
    split_ifs
    · exact le_rfl
    · exact Nat.zero_le _
  | _ => simp [LoopPhase.rank, requestRank]

theorem LoopPhase.rank_afterRead_le (owner : MessageCall) (success : Option requestFormat.Message) :
    (LoopPhase.afterRead requestFormat success :
      LoopPhase requestFormat.Message responseFormat.Message).rank size owner ≤
        requestRank size := by
  cases success with
  | none => exact Nat.zero_le _
  | some writeRequest =>
    rw [LoopPhase.afterRead]
    split_ifs
    · exact Nat.zero_le _
    · exact le_rfl

variable {size} [Inhabited V] {readers writers : List (ε × ℤ)} {initial : σ}
  {s s' : SocketStreamLoops σ ε V requestFormat responseFormat}

theorem length_read_le (h : (socketLoops behave requestFormat responseFormat (pointers readers)
    (pointers writers) size initial).Reachable Anything s) :
    (s.party .owner).read.length ≤ s.requests.length := by
  have hsession := session_carriesMessages h
  obtain ⟨hwrites, -⟩ := serves_of_reachable h
  have hle := (hsession.inOrder .client).length_le
  have hbegun := congrArg List.length hwrites
  rw [SocketParty.begun, List.length_append, List.length_map] at hbegun
  exact hle.trans ((Nat.le_add_right _ _).trans hbegun.le)

/-- A step of the server's loop brings it on. -/
theorem ServerStep.rank_lt {phase : LoopPhase requestFormat.Message responseFormat.Message}
    (h : ServerStep behave (pointers readers) (pointers writers) s phase s')
    (hphase : s.server = phase) (hwell : (s.party .owner).Wellformed size) :
    loopsRank size s' < loopsRank size s := by
  rw [loopsRank, loopsRank, hphase]
  cases h with
  | @beginRead p hp =>
    have hrank := SocketSession.rank_set_lt (s := s.session) (SocketParty.rank_beginRead hp)
    obtain ⟨-, hreceives, hread, -⟩ := SocketParty.beginRead_records hp
    change (s.session.set .owner p).rank + _ * (s.requests.length - (SocketLoops.party
      (s.setParty .owner p) .owner).read.length) + LoopPhase.rank size
        (SocketLoops.party (s.setParty .owner p) .owner).call .reading < _
    have hidle : p.call ≠ .idle := by
      intro hidle
      rw [hidle] at hreceives
      cases hreceives
    rw [SocketLoops.party_setParty_self, hread, show LoopPhase.rank size p.call
      (.reading : LoopPhase requestFormat.Message responseFormat.Message) = 0 from if_neg hidle]
    exact Nat.add_lt_add_right (Nat.add_lt_add_right hrank _) _
  | @reading payload hidle hlast =>
    refine Nat.add_lt_add_left ?_ _
    rw [show LoopPhase.rank size (s.party .owner).call
      (.reading : LoopPhase requestFormat.Message responseFormat.Message) =
        requestRank size + 1 from if_pos hidle]
    exact Nat.lt_succ_of_le (LoopPhase.rank_afterRead_le size _ _)
  | @handle writeRequest readResult service hrun =>
    refine Nat.add_lt_add_left ?_ _
    rw [LoopPhase.rank]
    cases readResult with
    | none => exact Nat.succ_pos _
    | some readResult => exact Nat.lt_succ_self _
  | @beginWrite readResult p hp =>
    obtain ⟨-, hle, -⟩ := SocketParty.beginWrite_eq_some hp hwell
    obtain ⟨-, -, hread, -⟩ := SocketParty.beginWrite_records hp
    have hrank := SocketParty.rank_beginWrite hp
    change (s.session.set .owner p).rank + _ * (s.requests.length - (SocketLoops.party
      (s.setParty .owner p) .owner).read.length) + 2 < _
    rw [SocketLoops.party_setParty_self, hread, SocketSession.rank_set, hrank,
      SocketSession.rank_eq s.session .owner, LoopPhase.rank, requestRank]
    change (s.session.party .owner).rank + _ + _ + _ + _ + _ < _
    omega
  | writing hidle =>
    refine Nat.add_lt_add_left ?_ _
    rw [LoopPhase.afterWrite]
    split_ifs <;> exact Nat.two_pos

/-- The handles are well formed in every state. -/
theorem wellformed_of_reachable (h : (socketLoops behave requestFormat responseFormat
    (pointers readers) (pointers writers) size initial).Reachable Anything s) (side : Side) :
    (s.party side).Wellformed size := by
  obtain ⟨t, -, hsession⟩ := isSession_of_reachable h
  exact hsession.wellformed side

omit [Inhabited V] in
/-- A party's step that moves bytes brings the loops on, if the server has not read a request. -/
theorem loopsRank_setParty_lt {side : Side} {p : SocketParty}
    (hrank : p.rank < (s.party side).rank)
    (hread : ((s.setParty side p).party .owner).read = (s.party .owner).read)
    (hserver : s.server.rank size ((s.setParty side p).party .owner).call ≤
      s.server.rank size (s.party .owner).call) :
    loopsRank size (s.setParty side p) < loopsRank size s := by
  have hsession : (s.setParty side p).session.rank < s.session.rank :=
    SocketSession.rank_set_lt hrank
  rw [loopsRank, loopsRank, hread]
  change _ + (requestRank size + 2) * (s.requests.length - _) + s.server.rank size _ < _
  omega

theorem rank_lt_of_send (h : (socketLoops behave requestFormat responseFormat (pointers readers)
    (pointers writers) size initial).Reachable Anything s) {side : Side} {count : ℕ}
    {p : SocketParty} (hp : (s.party side).send count = some p) :
    loopsRank size (s.setParty side p) < loopsRank size s := by
  have hrank := SocketParty.rank_send (wellformed_of_reachable h side) hp
  cases side with
  | client => exact loopsRank_setParty_lt hrank rfl le_rfl
  | owner =>
    obtain ⟨-, handled, hserves⟩ := serves_of_reachable h
    obtain ⟨hread, payload, hsending, -⟩ := SocketParty.send_records hp
    refine loopsRank_setParty_lt hrank ?_ ?_
    · rw [SocketLoops.party_setParty_self, hread]
    · -- the server is not in a read
      have hloop := hserves.loopAt
      cases hphase : s.server with
      | reading =>
        rw [hphase] at hloop
        obtain ⟨-, ⟨hreceives, -⟩ | ⟨hidle, -⟩⟩ := hloop
        · rw [(SocketParty.of_receives hreceives).1] at hsending
          cases hsending
        · rw [SocketParty.sending_eq_nil hidle] at hsending
          cases hsending
      | _ => exact le_rfl

/-- The last bytes of a request leave the server one request less to read. -/
theorem rank_lt_of_recv (h : (socketLoops behave requestFormat responseFormat (pointers readers)
    (pointers writers) size initial).Reachable Anything s) {side : Side} {count : ℕ}
    {p : SocketParty} (hp : (s.party side).recv (.deliver count) = some p) :
    loopsRank size (s.setParty side p) < loopsRank size s := by
  have hrank := SocketParty.rank_recvSome hp
  cases side with
  | client => exact loopsRank_setParty_lt hrank rfl le_rfl
  | owner =>
    obtain ⟨-, handled, hserves⟩ := serves_of_reachable h
    obtain ⟨hreceives, -, ⟨hagain, hread⟩ | ⟨hidle, payload, hread⟩⟩ :=
      SocketParty.recv_records hp
    · refine loopsRank_setParty_lt hrank ?_ ?_
      · rw [SocketLoops.party_setParty_self, hread]
      · rw [SocketLoops.party_setParty_self]
        have hbusy : p.call ≠ .idle := by
          intro hidle
          rw [hidle] at hagain
          cases hagain
        cases s.server with
        | reading =>
          rw [LoopPhase.rank, if_neg hbusy]
          exact Nat.zero_le _
        | _ => exact le_rfl
    · have hstep : (socketLoops behave requestFormat responseFormat (pointers readers)
          (pointers writers) size initial).next s (.recv .owner (.deliver count)) =
            some (s.setParty .owner p) := congrArg (Option.map _) hp
      have hle := length_read_le (.step h trivial hstep)
      have hsession : (s.setParty .owner p).session.rank < s.session.rank :=
        SocketSession.rank_set_lt hrank
      rw [SocketLoops.party_setParty_self, hread, List.length_append, List.length_singleton] at hle
      change _ ≤ s.requests.length at hle
      have hserver := s.server.rank_le size p.call
      rw [loopsRank, loopsRank, SocketLoops.party_setParty_self, hread, List.length_append,
        List.length_singleton]
      change _ + (requestRank size + 2) * (s.requests.length - _) + s.server.rank size _ < _
      obtain ⟨n, hn⟩ : ∃ n, s.requests.length - ((s.party .owner).read.length + 1) = n := ⟨_, rfl⟩
      rw [hn, show s.requests.length - (s.party .owner).read.length = n + 1 by omega, Nat.mul_succ]
      omega

variable (behave requestFormat responseFormat readers writers size initial) in
/-- Without a new request, every step brings the loops on, whichever party takes it and however
few bytes it moves. -/
theorem socketLoops_ranked :
    (socketLoops behave requestFormat responseFormat (pointers readers) (pointers writers) size
      initial).Ranked (fun _ => Working)
        ((socketLoops behave requestFormat responseFormat (pointers readers) (pointers writers) size
          initial).Reachable Anything) (loopsRank size) where
  keeps _ _ _ hs _ hnext := .step hs trivial hnext
  lt s a s' hs hok hnext := by
    cases a with
    | server =>
      exact (serverStep_of_eq_some hnext).rank_lt rfl (wellformed_of_reachable hs .owner)
    | write request => exact absurd hok id
    | read =>
      obtain ⟨p, hp, rfl⟩ := Option.map_eq_some_iff.mp hnext
      exact loopsRank_setParty_lt (SocketParty.rank_beginRead hp) rfl le_rfl
    | send side count =>
      obtain ⟨p, hp, rfl⟩ := Option.map_eq_some_iff.mp hnext
      exact rank_lt_of_send hs hp
    | recv side e =>
      obtain ⟨p, hp, rfl⟩ := Option.map_eq_some_iff.mp hnext
      cases e with
      | deliver count => exact rank_lt_of_recv hs hp
      | _ => exact absurd hok id
    | deliver side count =>
      obtain ⟨session, hdeliver, rfl⟩ := Option.map_eq_some_iff.mp hnext
      have hframe := SocketSession.deliver_frame hdeliver .owner
      have hrank := SocketSession.rank_deliver hdeliver
      rw [loopsRank, loopsRank]
      change session.rank + _ * (s.requests.length - (session.party .owner).read.length) +
        s.server.rank size (session.party .owner).call < _
      rw [hframe.read, hframe.call]
      exact Nat.add_lt_add_right (Nat.add_lt_add_right hrank _) _

/-- **The loops come to rest**: without a new request there are only so many steps, from every
state that is reached, whether or not the client takes its responses. -/
theorem working_length_le (h : (socketLoops behave requestFormat responseFormat (pointers readers)
    (pointers writers) size initial).Reachable Anything s)
    {as : List (SocketLoopStep requestFormat.Message)}
    (hrun : (socketLoops behave requestFormat responseFormat (pointers readers) (pointers writers)
      size initial).Run (fun _ => Working) s as s') : as.length ≤ loopsRank size s :=
  (Nat.le_add_right _ _).trans
    ((socketLoops_ranked behave requestFormat responseFormat size readers writers
      initial).length_le h hrun)

/-- Only a new request adds to the requests. -/
theorem requests_eq_of_run {ok : SocketStreamLoops σ ε V requestFormat responseFormat →
      SocketLoopStep requestFormat.Message → Prop} (hok : ∀ s a, ok s a → Working a)
    {as : List (SocketLoopStep requestFormat.Message)}
    (hrun : (socketLoops behave requestFormat responseFormat (pointers readers) (pointers writers)
      size initial).Run ok s as s') : s'.requests = s.requests := by
  refine hrun.keeps (f := fun s => s.requests) fun s a s' ha hnext => ?_
  cases a with
  | server => exact (serverStep_of_eq_some hnext).frame.2
  | write request => exact absurd (hok _ _ ha) id
  | _ =>
    obtain ⟨_, -, rfl⟩ := Option.map_eq_some_iff.mp hnext
    rfl

/-- The server reads a request while the client has begun the next one. -/
theorem working_length_le_store :
    ∃ s s' : SocketStreamLoops Any Bool Any sidebandWriteRequestFormat sidebandReadResponseFormat,
      s'.requests.length = 2 ∧ (s'.party .owner).read.length = 1 ∧ 4 ≤ loopsRank 64 s := by
  let loops := socketLoops storeLoad sidebandWriteRequestFormat sidebandReadResponseFormat
    (pointers [(false, 1)]) (pointers [(true, 2)]) 64 {}
  let reading : List (SocketLoopStep sidebandWriteRequestFormat.Message) :=
    [.server, .deliver .client 15, .recv .owner (.deliver 8), .recv .owner (.deliver 7)]
  have hexec : ((loops.exec
      ⟨⟨fun _ => { handle := .new 64 ⟨[], 5, true, {}⟩ }⟩, ⟨{}, [], ()⟩, .beginRead, []⟩
      [.write ⟨.ofValues [{ value := [7] }], by decide⟩, .send .client 8, .send .client 7,
        .write ⟨.ofValues [{ value := [8] }], by decide⟩]).bind (fun s => (loops.exec s reading).map
          fun s' => (s'.requests.length, (s'.party .owner).read.length))) = some (2, 1) := by
    decide +kernel
  obtain ⟨s, hs, hmore⟩ := Option.bind_eq_some_iff.mp hexec
  obtain ⟨s', hs', hend⟩ := Option.map_eq_some_iff.mp hmore
  have hreachable := Machine.exec_reachable
    (by exact ⟨_, fun _ => ⟨⟨[], 5, true, {}⟩, rfl, rfl, rfl⟩, rfl⟩) hs
  have hworking : ∀ a ∈ reading, Working a := by
    intro a ha
    simp only [reading, List.mem_cons, List.not_mem_nil, or_false] at ha
    rcases ha with rfl | rfl | rfl | rfl <;> trivial
  exact ⟨s, s', congrArg Prod.fst hend, congrArg Prod.snd hend,
    working_length_le hreachable (Machine.run_of_exec hs' fun _ => hworking)⟩

/-! ### A client that waits for its responses -/

/-- The request can be sent, does not cancel the stream and has a value for each write endpoint.
It is what the source leaves to the client. -/
structure Handleable (writers : List (ε × ℤ)) (size : ℕ) (request : requestFormat.Message) :
    Prop where
  length_le : (requestFormat.serialize request.val).length ≤ size
  goesOn : request.val.cancel = false
  enough : writers.length ≤ request.val.values.length

/-- The client writes a request that can be handled once it has read the response to every
earlier one, and it reads when a response is due. The kernel keeps at most `capacity` bytes that
have been sent in one direction and not received. Of the server nothing is asked. -/
def Polite (writers : List (ε × ℤ)) (size capacity : ℕ)
    (s : SocketStreamLoops σ ε V requestFormat responseFormat) :
    SocketLoopStep requestFormat.Message → Prop
  | .write request => (s.party .client).read.length = s.requests.length ∧
      Handleable writers size request
  | .read => (s.party .client).read.length < s.requests.length
  | .send side count => (s.party side).connection.outgoing.length +
      (s.party side.peer).connection.incoming.length + max 1 count ≤ capacity
  | _ => True

/-- What a polite client and the server have done so far. At most one request is on its way, and
its response comes back before the next. -/
structure Exchanging (writers : List (ε × ℤ)) (size : ℕ)
    (s : SocketStreamLoops σ ε V requestFormat responseFormat) : Prop where
  handleable : ∀ request ∈ s.requests, Handleable writers size request
  /-- At most one response is due, and one is while the client is in a call. -/
  due_le : s.requests.length ≤ (s.party .client).read.length + 1
  due : (s.party .client).call ≠ .idle → (s.party .client).read.length < s.requests.length
  running : s.server ≠ .returned

variable (behave readers initial) in
/-- The client has the response to each of its requests, and each has had its effect, once and in
the order of the writing. -/
structure CompletedExchange (writers : List (ε × ℤ))
    (s : SocketStreamLoops σ ε V requestFormat responseFormat) : Prop where
  idle : (s.party .client).call = .idle
  read : (s.party .client).read = responseFrames responseFormat
    (effectOf behave requestFormat readers writers initial s.requests).events
  shared : s.service.shared =
    (effectOf behave requestFormat readers writers initial s.requests).shared
  /-- The endpoints have been called on each of them once, in order. -/
  events : s.service.events ++ s.server.unanswered =
    (effectOf behave requestFormat readers writers initial s.requests).events

section Polite

variable {capacity : ℕ}

/-- A request has one response. -/
theorem responseFrames_requestEffect (hreaders : readers ≠ []) (values : List V) (shared : σ) :
    responseFrames responseFormat (requestEffect behave readers writers values shared).events =
      [responseFormat.serialize { values? := some (callAll behave (readCalls readers)
        (callAll behave (writeCalls writers values) shared).2).1 }] := by
  rw [requestEffect_of_ne_nil behave hreaders, streamEffect]
  dsimp only
  rw [responseFrames_append, responseFrames_append, responseFrames, filterMap_callEvents,
    responseFrames, filterMap_callEvents]
  rfl

theorem requestsEffect_responses (hreaders : readers ≠ []) (requests : List (List V)) (shared : σ) :
    (responseFrames responseFormat
      (requestsEffect behave readers writers requests shared).events).length = requests.length ∧
    ∀ frame ∈ responseFrames responseFormat
        (requestsEffect behave readers writers requests shared).events,
      ∃ values, frame = responseFormat.serialize { values? := some values } := by
  induction requests generalizing shared with
  | nil => exact ⟨rfl, fun frame hframe => (by cases hframe)⟩
  | cons values requests ih =>
    obtain ⟨hlength, hframes⟩ := ih (requestEffect behave readers writers values shared).shared
    rw [requestsEffect]
    dsimp only
    rw [responseFrames_append, responseFrames_requestEffect hreaders, List.length_append, hlength]
    refine ⟨Nat.add_comm _ _, fun frame hframe => ?_⟩
    rcases List.mem_append.mp hframe with hframe | hframe
    · exact ⟨_, List.mem_singleton.mp hframe⟩
    · exact hframes frame hframe

theorem effectOf_responses (hreaders : readers ≠ []) (handled : List requestFormat.Message) :
    (responseFrames responseFormat
      (effectOf behave requestFormat readers writers initial handled).events).length =
        handled.length ∧
    ∀ frame ∈ responseFrames responseFormat
        (effectOf behave requestFormat readers writers initial handled).events,
      ∃ values, frame = responseFormat.serialize { values? := some values } := by
  rw [effectOf, ← List.length_map (f := fun request : requestFormat.Message => request.val.values)]
  exact requestsEffect_responses hreaders _ initial

omit [Inhabited V] in
/-- The client's party goes on. -/
theorem Exchanging.setParty (h : Exchanging writers size s) {p : SocketParty}
    (hle : s.requests.length ≤ p.read.length + 1)
    (hdue : p.call ≠ .idle → p.read.length < s.requests.length) :
    Exchanging writers size (s.setParty .client p) where
  handleable := h.handleable
  due_le := by
    rw [SocketLoops.party_setParty_self]
    exact hle
  due := by
    rw [SocketLoops.party_setParty_self]
    exact hdue
  running := h.running

/-- The server's loop does not end: no request cancels it, and no response is empty. -/
theorem Exchanging.running_of_server (h : Exchanging writers size s) (hreaders : readers ≠ [])
    (hs : (socketLoops behave requestFormat responseFormat (pointers readers) (pointers writers)
      size initial).Reachable Anything s)
    (hnext : socketServerStep behave requestFormat responseFormat (pointers readers)
      (pointers writers) s = some s') : s'.server ≠ .returned := by
  obtain ⟨hwrites, handled, hserves⟩ := serves_of_reachable hs
  have hsession := session_carriesMessages hs
  have hloop := hserves.loopAt
  have hserver := serverStep_of_eq_some hnext
  generalize hphase : s.server = phase at hserver hloop
  cases hserver with
  | beginRead hp => exact fun hreturned => (by cases hreturned)
  | @reading payload hidle hlast =>
    obtain ⟨-, ⟨hreceives, -⟩ | ⟨-, payload', hmore⟩⟩ := hloop
    · rw [hidle] at hreceives
      cases hreceives
    rw [hmore, List.getLast?_concat] at hlast
    obtain rfl := Option.some.inj hlast
    obtain ⟨request, hrequest, rfl⟩ := hwrites.exists_request hsession hmore
    have hparse : requestFormat.messageLite.parse (requestFormat.serialize request.val) =
        some request := requestFormat.messageLite.parse_serialize request
    have hcancel : ¬ request.val.cancel = true := by
      rw [(h.handleable request hrequest).goesOn]
      exact Bool.false_ne_true
    rw [hparse, LoopPhase.afterRead, if_neg hcancel]
    exact fun hreturned => (by cases hreturned)
  | @handle writeRequest readResult service hrun =>
    cases readResult <;> exact fun hreturned => (by cases hreturned)
  | beginWrite hp => exact fun hreturned => (by cases hreturned)
  | @writing readResult hidle =>
    obtain ⟨-, earlier, hframes, -⟩ := hloop
    obtain ⟨values, hframe⟩ := (effectOf_responses hreaders handled).2
      (responseFormat.serialize readResult.val) (by rw [hframes]; simp)
    have hne : responseFormat.serialize readResult.val ≠ [] := by
      rw [hframe]
      exact responseFormat.serialize_ne_nil fun hempty =>
        Option.some_ne_none _ (congrArg SidebandReadResponse.values? hempty)
    have hsize : byteSizeLong responseFormat.messageLite readResult ≠ 0 :=
      Int.natCast_ne_zero.mpr (List.length_pos_iff.mpr hne).ne'
    rw [LoopPhase.afterWrite, if_neg hsize]
    exact fun hreturned => (by cases hreturned)

theorem exchanging_of_reachable (hreaders : readers ≠ [])
    (h : (socketLoops behave requestFormat responseFormat (pointers readers) (pointers writers) size
      initial).Reachable (Polite writers size capacity) s) : Exchanging writers size s := by
  induction h with
  | init h =>
    obtain ⟨session, hsession, rfl⟩ := h
    obtain ⟨o, ho, -⟩ := hsession .client
    have hidle : (session.party .client).call = .idle := by rw [ho]
    exact ⟨fun request hrequest => (by cases hrequest), Nat.zero_le _,
      fun hcall => absurd hidle hcall, fun hserver => (by cases hserver)⟩
  | @step s s' a hs hpolite hnext ih =>
    have hs' := hs.mono fun _ _ _ => trivial
    cases a with
    | server =>
      obtain ⟨hclient, hrequests⟩ := (serverStep_of_eq_some hnext).frame
      refine ⟨hrequests ▸ ih.handleable, ?_, ?_, ?_⟩
      · rw [hclient, hrequests]
        exact ih.due_le
      · rw [hclient, hrequests]
        exact ih.due
      · exact ih.running_of_server hreaders hs' hnext
    | write request =>
      obtain ⟨p, hp, rfl⟩ := Option.map_eq_some_iff.mp hnext
      obtain ⟨-, -, hread, -⟩ := SocketParty.beginWrite_records hp
      obtain ⟨hall, hrequest⟩ := hpolite
      have hlength : (s.requests ++ [request]).length = p.read.length + 1 := by
        rw [hread, List.length_append, List.length_singleton, hall]
      refine ⟨fun q hq => ?_, ?_, fun _ => ?_, ih.running⟩
      · rcases List.mem_append.mp hq with hold | hnew
        · exact ih.handleable q hold
        · rwa [List.mem_singleton.mp hnew]
      · change _ ≤ ((s.setParty .client p).party .client).read.length + 1
        rw [SocketLoops.party_setParty_self]
        exact hlength.le
      · change ((s.setParty .client p).party .client).read.length < (s.requests ++ [request]).length
        rw [SocketLoops.party_setParty_self, hlength]
        exact Nat.lt_succ_self _
    | read =>
      obtain ⟨p, hp, rfl⟩ := Option.map_eq_some_iff.mp hnext
      obtain ⟨-, -, hread, -⟩ := SocketParty.beginRead_records hp
      exact ih.setParty (hread ▸ ih.due_le) fun _ => hread ▸ hpolite
    | send side count =>
      obtain ⟨p, hp, rfl⟩ := Option.map_eq_some_iff.mp hnext
      obtain ⟨hread, payload, hsending, -⟩ := SocketParty.send_records hp
      cases side with
      | owner => exact ⟨ih.handleable, ih.due_le, ih.due, ih.running⟩
      | client =>
        refine ih.setParty (hread ▸ ih.due_le) fun _ => hread ▸ ih.due fun hidle => ?_
        rw [SocketParty.sending_eq_nil hidle] at hsending
        cases hsending
    | recv side e =>
      obtain ⟨p, hp, rfl⟩ := Option.map_eq_some_iff.mp hnext
      cases side with
      | owner => exact ⟨ih.handleable, ih.due_le, ih.due, ih.running⟩
      | client =>
        obtain ⟨hreceives, -, ⟨-, hread⟩ | ⟨hidle, payload, hread⟩⟩ := SocketParty.recv_records hp
        · refine ih.setParty (hread ▸ ih.due_le) fun _ => hread ▸ ih.due fun hidle => ?_
          rw [hidle] at hreceives
          cases hreceives
        · refine ih.setParty ?_ fun hbusy => absurd hidle hbusy
          rw [hread, List.length_append]
          exact ih.due_le.trans (Nat.le_succ _)
    | deliver side count =>
      obtain ⟨session, hdeliver, rfl⟩ := Option.map_eq_some_iff.mp hnext
      have hframe := SocketSession.deliver_frame hdeliver .client
      refine ⟨ih.handleable, ?_, ?_, ih.running⟩
      · change s.requests.length ≤ (session.party .client).read.length + 1
        rw [hframe.read]
        exact ih.due_le
      · change (session.party .client).call ≠ .idle → (session.party .client).read.length < _
        rw [hframe.read, hframe.call]
        exact ih.due

/-! ### Where the loops get stuck -/

/-- The steps of a polite client, the server and the network between two requests. A client that
begins a request takes a step of another kind. -/
def PoliteWork (writers : List (ε × ℤ)) (size capacity : ℕ)
    (s : SocketStreamLoops σ ε V requestFormat responseFormat)
    (a : SocketLoopStep requestFormat.Message) : Prop :=
  Polite writers size capacity s a ∧ Working a

/-- Nothing of a stuck session is on the way: a reader has nothing to receive, and a writer finds
its peer's end full. Two writers that face each other are one way to get there. -/
structure Blocked (s : SocketSession) : Prop where
  outgoing : ∀ side, (s.party side).connection.outgoing = []
  receives : ∀ side, (s.party side).call.receives → (s.party side).connection.incoming = []
  sends : ∀ side, (s.party side).sending ≠ [] →
    (s.party side.peer).connection.incoming ≠ []

theorem blocked_of_stuck (hcapacity : 0 < capacity)
    (h : (socketLoops behave requestFormat responseFormat (pointers readers) (pointers writers) size
      initial).Reachable Anything s)
    (hstuck : (socketLoops behave requestFormat responseFormat (pointers readers)
      (pointers writers) size initial).Stuck (PoliteWork writers size capacity) s) :
    Blocked s.session := by
  have hsession := session_carriesMessages h
  have houtgoing : ∀ side, (s.party side).connection.outgoing = [] := by
    intro side
    by_contra hout
    have hnone := hstuck (.deliver side 0) ⟨trivial, trivial⟩
    have hsome : s.session.deliver side 0 = none := Option.map_eq_none_iff.mp hnone
    rw [SocketSession.deliver] at hsome
    dsimp only at hsome
    rw [if_neg hout] at hsome
    cases hsome
  refine ⟨houtgoing, fun side hreceives => ?_, fun side hsending hin => ?_⟩
  · by_contra hin
    have hnone := hstuck (.recv side (.deliver 0)) ⟨trivial, trivial⟩
    have hsome := (hsession.recv side 0 hreceives).mpr hin
    rw [show (socketSession size).next s.session (.party side (.recv (.deliver 0))) = none from
      Option.map_eq_none_iff.mpr (Option.map_eq_none_iff.mp hnone)] at hsome
    cases hsome
  · have hroom : Polite writers size capacity s (.send side 0) := by
      change (s.party side).connection.outgoing.length +
        (s.party side.peer).connection.incoming.length + 1 ≤ capacity
      rw [houtgoing side, hin, List.length_nil]
      omega
    have hnone := hstuck (.send side 0) ⟨hroom, trivial⟩
    have hsome := hsession.send side 0 hsending
    rw [show (socketSession size).next s.session (.party side (.send 0)) = none from
      Option.map_eq_none_iff.mpr (Option.map_eq_none_iff.mp hnone)] at hsome
    cases hsome

/-- A request that can be handled has a response that can be sent. -/
theorem run_sendableResponse {τ : Type} (service : MonikerState σ ε V τ)
    {writeRequest : SidebandWriteRequest V} (hreaders : readers ≠ [])
    (hvalues : writers.length ≤ writeRequest.values.length)
    (hfits : ∀ frame ∈ responseFrames responseFormat
      (requestEffect behave readers writers writeRequest.values service.shared).events,
        frame.length < 2 ^ 31) :
    ∃ r, (sendableResponse behave responseFormat (pointers readers) (pointers writers)
      writeRequest).run service = .ok r := by
  obtain ⟨values', hwrite⟩ := run_callIndexed_zero behave service hvalues
  have hsome : (pointers readers).length > 0 := by
    rw [pointers, List.length_map]
    exact List.length_pos_iff.mpr hreaders
  obtain ⟨response, hresponse⟩ : ∃ response : SidebandReadResponse V,
      { values? := some (callAll behave (readCalls readers) (callAll behave
        (writeCalls writers writeRequest.values) service.shared).2).1 } = response := ⟨_, rfl⟩
  have hsize : (responseFormat.serialize response).length < 2 ^ 31 := by
    refine hfits _ ?_
    rw [responseFrames_requestEffect hreaders, hresponse]
    exact List.mem_cons_self
  obtain ⟨written, hwritten⟩ : ∃ written,
      service.called behave (writeCalls writers writeRequest.values) = written := ⟨_, rfl⟩
  rw [hwritten] at hwrite
  have hhandle : (handleRequest behave (pointers readers) (pointers writers) writeRequest).run
      service = .ok (some response, written.called behave (readCalls readers)) := by
    rw [handleRequest, Exec.run_bind_ok hwrite, if_pos hsome,
      Exec.run_bind_ok (run_sidebandClientFirstResponse behave hreaders _), ← hresponse, ← hwritten]
    rfl
  refine ⟨(some ⟨response, hsize⟩, written.called behave (readCalls readers)), ?_⟩
  rw [sendableResponse, Exec.run_bind_ok hhandle]
  simp only [WireFormat.sendable, dif_pos hsize, pure_bind]
  rfl

variable (behave requestFormat responseFormat readers writers initial) in
/-- The responses to the requests fit the owner's buffer. The requests are given ones, and they
are handled from the first on, so that what an endpoint leaves may depend on those before. -/
def ResponsesFit (size : ℕ) (requests : List requestFormat.Message) : Prop :=
  ∀ frame ∈ responseFrames responseFormat
    (effectOf behave requestFormat readers writers initial requests).events, frame.length ≤ size

/-- Then so do the responses to the first ones. -/
theorem ResponsesFit.of_prefix {requests handled : List requestFormat.Message}
    (h : ResponsesFit behave requestFormat responseFormat readers writers initial size requests)
    (hhandled : handled <+: requests) :
    ResponsesFit behave requestFormat responseFormat readers writers initial size handled := by
  obtain ⟨later, rfl⟩ := hhandled
  intro frame hframe
  refine h frame ?_
  rw [effectOf, List.map_append, requestsEffect_append]
  dsimp only
  rw [responseFrames_append]
  exact List.mem_append_left _ hframe

/-- The response to the request after those that were handled. -/
theorem ResponsesFit.requestEffect {handled : List requestFormat.Message}
    {request : requestFormat.Message} (h : ResponsesFit behave requestFormat responseFormat readers
      writers initial size (handled ++ [request])) :
    ∀ frame ∈ responseFrames responseFormat (requestEffect behave readers writers request.val.values
      (effectOf behave requestFormat readers writers initial handled).shared).events,
      frame.length ≤ size := by
  intro frame hframe
  refine h frame ?_
  rw [effectOf_concat]
  dsimp only
  rw [responseFrames_append]
  exact List.mem_append_right _ hframe

/-- A server that is stuck is in one of its two calls. -/
theorem Exchanging.server_calls (h : Exchanging writers size s) (hreaders : readers ≠ [])
    (hsize : size < 2 ^ 31) (hfit : ResponsesFit behave requestFormat responseFormat readers writers
      initial size s.requests)
    (hs : (socketLoops behave requestFormat responseFormat (pointers readers) (pointers writers)
      size initial).Reachable Anything s) {handled : List requestFormat.Message}
    (hserves : ServesRequests behave readers writers initial s handled)
    (hnone : socketServerStep behave requestFormat responseFormat (pointers readers)
      (pointers writers) s = none) :
    ((s.party .owner).call.receives ∧ (s.party .owner).read.length = handled.length ∧
        (s.party .owner).written.length = handled.length) ∨
      ((s.party .owner).sending ≠ [] ∧ (s.party .owner).written.length + 1 = handled.length) := by
  obtain ⟨hwrites, -⟩ := serves_of_reachable hs
  have hsession := session_carriesMessages hs
  have hhandled := hserves.prefix_requests hwrites hsession
  obtain ⟨hlength, -⟩ : (responseFrames responseFormat (effectOf behave requestFormat readers
      writers initial handled).events).length = handled.length ∧ _ :=
    effectOf_responses hreaders handled
  have hloop := hserves.loopAt
  rw [socketServerStep] at hnone
  dsimp only at hnone
  cases hphase : s.server with
  | beginRead =>
    rw [hphase] at hnone hloop
    rw [SocketParty.beginRead, hloop.1] at hnone
    cases hnone
  | reading =>
    rw [hphase] at hnone hloop
    obtain ⟨hwritten, ⟨hreceives, hread⟩ | ⟨hidle, payload, hread⟩⟩ := hloop
    · refine .inl ⟨hreceives, ?_, ?_⟩
      · rw [hread, List.length_map]
      · rw [hwritten, hlength]
    · dsimp only at hnone
      rw [if_pos hidle, hread, List.getLast?_concat] at hnone
      cases hnone
  | handle writeRequest =>
    rw [hphase] at hnone hloop
    obtain ⟨-, hread, -⟩ := hloop
    obtain ⟨request, hrequest, hsame⟩ := hwrites.exists_request hsession hread
    obtain rfl := serialize_message_injective requestFormat hsame
    have hboth : handled ++ [writeRequest] <+: s.requests := by
      refine (List.prefix_map_iff_of_injective (serialize_message_injective requestFormat)).mp ?_
      rw [← hwrites, List.map_append]
      exact (hread ▸ hsession.inOrder .client).trans (List.prefix_append _ _)
    have hframes : ∀ frame ∈ responseFrames responseFormat (requestEffect behave readers writers
        writeRequest.val.values s.service.shared).events, frame.length < 2 ^ 31 := by
      rw [hserves.shared]
      exact fun frame hframe => ((hfit.of_prefix hboth).requestEffect frame hframe).trans_lt hsize
    obtain ⟨r, hrun⟩ := run_sendableResponse s.service hreaders (h.handleable _ hrequest).enough
      hframes
    dsimp only at hnone
    rw [hrun] at hnone
    cases hnone
  | beginWrite readResult =>
    rw [hphase] at hnone hloop
    obtain ⟨hidle, -, hwritten⟩ := hloop
    have hle := hfit.of_prefix hhandled (responseFormat.serialize readResult.val)
      (by rw [← hwritten]; exact List.mem_append_right _ List.mem_cons_self)
    have hsome := hsession.beginWrite .owner (responseFormat.serialize readResult.val) hidle hle
      readResult.property
    rw [show (socketSession size).next s.session
      (.party .owner (.beginWrite (responseFormat.serialize readResult.val))) = none from
        Option.map_eq_none_iff.mpr (Option.map_eq_none_iff.mp hnone)] at hsome
    cases hsome
  | writing readResult =>
    rw [hphase] at hnone hloop
    obtain ⟨-, earlier, hearlier, ⟨hsending, hwritten⟩ | ⟨hidle, -⟩⟩ := hloop
    · refine .inr ⟨by rw [hsending]; exact List.cons_ne_nil _ _, ?_⟩
      rw [← hlength, hearlier, hwritten, List.length_append, List.length_singleton]
    · dsimp only at hnone
      rw [if_pos hidle] at hnone
      cases hnone
  | returned => exact absurd hphase h.running

/-- The loops are stuck only when the client has all of its responses. -/
theorem length_read_eq_of_stuck (hreaders : readers ≠ []) (hcapacity : 0 < capacity)
    (hsize : size < 2 ^ 31) (hfit : ResponsesFit behave requestFormat responseFormat readers writers
      initial size s.requests)
    (h : (socketLoops behave requestFormat responseFormat (pointers readers) (pointers writers) size
      initial).Reachable (Polite writers size capacity) s)
    (hstuck : (socketLoops behave requestFormat responseFormat (pointers readers)
      (pointers writers) size initial).Stuck (PoliteWork writers size capacity) s) :
    (s.party .client).call = .idle ∧ (s.party .client).read.length = s.requests.length := by
  have hs := h.mono fun _ _ _ => trivial
  have hexchanging := exchanging_of_reachable hreaders h
  have hblocked := blocked_of_stuck hcapacity hs hstuck
  have hsession := session_carriesMessages hs
  obtain ⟨hwrites, handled, hserves⟩ := serves_of_reachable hs
  have hserver := hexchanging.server_calls hreaders hsize hfit hs hserves
    (hstuck .server ⟨trivial, trivial⟩)
  -- what has been read has been written, and what has been written was begun
  have hresponses := (hsession.inOrder .owner).length_le
  have hrequests := (hsession.inOrder .client).length_le
  have hhandled := hserves.loopAt.read_prefix.length_le
  rw [List.length_map] at hhandled
  have hbegun := congrArg List.length hwrites
  rw [SocketParty.begun, List.length_append, List.length_map] at hbegun
  change (s.party .client).read.length ≤ (s.party .owner).written.length at hresponses
  change (s.party .owner).read.length ≤ (s.party .client).written.length at hrequests
  have hdue := hexchanging.due_le
  rcases (s.party .client).call_cases with hidle | hsending | hreceives
  · refine ⟨hidle, ?_⟩
    by_contra hne
    have hless : (s.party .client).read.length < s.requests.length := by
      rcases hserver with ⟨-, -, hwritten⟩ | ⟨-, hwritten⟩ <;> omega
    have hnone := hstuck .read ⟨hless, trivial⟩
    have hbegin : (s.party .client).beginRead = none := Option.map_eq_none_iff.mp hnone
    rw [SocketParty.beginRead, hidle] at hbegin
    cases hbegin
  · -- the request is still being written, so the server waits for it
    exfalso
    rcases hserver with ⟨hreads, -⟩ | ⟨-, hwritten⟩
    · exact hblocked.sends .client hsending (hblocked.receives .owner hreads)
    · have hone := SocketParty.length_sending hsending
      omega
  · exfalso
    obtain ⟨hnothing, -⟩ := SocketParty.of_receives hreceives
    have hless := hexchanging.due fun hidle => by
      rw [hidle] at hreceives
      cases hreceives
    rcases hserver with ⟨hreads, hread, hwritten⟩ | ⟨hsending, -⟩
    · -- both wait, and nothing is on the way
      have hserved := hsession.complete .client hnothing (hblocked.outgoing .client)
        (hblocked.receives .owner hreads)
      have hanswered := hsession.complete .owner (SocketParty.of_receives hreads).1
        (hblocked.outgoing .owner) (hblocked.receives .client hreceives)
      change (s.party .owner).read = (s.party .client).written at hserved
      change (s.party .client).read = (s.party .owner).written at hanswered
      rw [hnothing, ← hserved, hread, List.length_nil] at hbegun
      rw [hanswered, hwritten] at hless
      omega
    · exact hblocked.sends .owner hsending (hblocked.receives .client hreceives)

theorem completed_of_stuck (hreaders : readers ≠ []) (hcapacity : 0 < capacity)
    (hsize : size < 2 ^ 31) (hfit : ResponsesFit behave requestFormat responseFormat readers writers
      initial size s.requests)
    (h : (socketLoops behave requestFormat responseFormat (pointers readers) (pointers writers) size
      initial).Reachable (Polite writers size capacity) s)
    (hstuck : (socketLoops behave requestFormat responseFormat (pointers readers)
      (pointers writers) size initial).Stuck (PoliteWork writers size capacity) s) :
    CompletedExchange behave readers initial writers s := by
  obtain ⟨hidle, hlength⟩ :=
    length_read_eq_of_stuck hreaders hcapacity hsize hfit h hstuck
  obtain ⟨hwrites, handled, hserves⟩ := serves_of_reachable (h.mono fun _ _ _ => trivial)
  have hsession := session_carriesMessages (h.mono fun _ _ _ => trivial)
  obtain ⟨hframes, -⟩ : (responseFrames responseFormat (effectOf behave requestFormat readers
      writers initial handled).events).length = handled.length ∧ _ :=
    effectOf_responses hreaders handled
  -- the responses that the client has read are all that there are
  have hread := (hsession.inOrder .owner).trans hserves.loopAt.written_prefix
  have hwritten := hserves.prefix_requests hwrites hsession
  change (s.party .client).read <+: _ at hread
  have hle := hread.length_le
  have hle' := hwritten.length_le
  obtain rfl : handled = s.requests := hwritten.eq_of_length (by omega)
  exact ⟨hidle, hread.eq_of_length (by omega), hserves.shared, hserves.events⟩

/-- **A client that waits for its responses gets them.** Until it begins another request there
are only so many steps, whatever their order, and when no more are possible it has the response
to each of its requests. Without a reader, or after a request that cancels, there is no response
to wait for. -/
theorem exchanges_complete (hreaders : readers ≠ []) (hcapacity : 0 < capacity)
    (hsize : size < 2 ^ 31) (hfit : ResponsesFit behave requestFormat responseFormat readers writers
      initial size s.requests)
    (h : (socketLoops behave requestFormat responseFormat (pointers readers) (pointers writers) size
      initial).Reachable (Polite writers size capacity) s) :
    let loops := socketLoops behave requestFormat responseFormat (pointers readers)
      (pointers writers) size initial
    (∀ as s', loops.Run (PoliteWork writers size capacity) s as s' → as.length ≤ loopsRank size s ∧
      (loops.Stuck (PoliteWork writers size capacity) s' →
        CompletedExchange behave readers initial writers s')) ∧
      ∃ as s', loops.Run (PoliteWork writers size capacity) s as s' ∧
        CompletedExchange behave readers initial writers s' := by
  intro loops
  have hranked : loops.Ranked (PoliteWork writers size capacity) (loops.Reachable Anything)
      (loopsRank size) := (socketLoops_ranked behave requestFormat responseFormat size readers
        writers initial).mono fun _ _ hwork => hwork.2
  have hs := h.mono fun _ _ _ => trivial
  have hcomplete : ∀ as s', loops.Run (PoliteWork writers size capacity) s as s' →
      loops.Stuck (PoliteWork writers size capacity) s' →
        CompletedExchange behave readers initial writers s' := fun as s' hrun =>
    completed_of_stuck hreaders hcapacity hsize
      ((requests_eq_of_run (fun _ _ hwork => hwork.2) hrun).symm ▸ hfit)
      (hrun.reachable (fun _ _ hwork => hwork.1) h)
  refine ⟨fun as s' hrun => ⟨?_, hcomplete as s' hrun⟩, ?_⟩
  · exact (Nat.le_add_right _ _).trans (hranked.length_le hs hrun)
  · obtain ⟨as, s', hrun, hstuck⟩ := hranked.exists_stuck hs
    exact ⟨as, s', hrun, hcomplete as s' hrun hstuck⟩

/-- The client writes the value `7` and reads it back, over a kernel that keeps one byte. -/
theorem exchanges_complete_store :
    ∃ (s : SocketStreamLoops Any Bool Any sidebandWriteRequestFormat sidebandReadResponseFormat)
      (as : List (SocketLoopStep sidebandWriteRequestFormat.Message))
      (s' : SocketStreamLoops Any Bool Any sidebandWriteRequestFormat sidebandReadResponseFormat),
      (socketLoops storeLoad sidebandWriteRequestFormat sidebandReadResponseFormat
        (pointers [(false, 1)]) (pointers [(true, 2)]) 64 {}).Run
          (PoliteWork [(true, 2)] 64 1) s as s' ∧
      CompletedExchange storeLoad [(false, 1)] {} [(true, 2)] s' ∧
      (s'.party .client).read = [[0x12, 0x05, 0x0A, 0x03, 0x12, 0x01, 0x07]] := by
  let loops := socketLoops storeLoad sidebandWriteRequestFormat sidebandReadResponseFormat
    (pointers [(false, 1)]) (pointers [(true, 2)]) 64 {}
  let request : sidebandWriteRequestFormat.Message := ⟨.ofValues [{ value := [7] }], by decide⟩
  let fresh : SocketStreamLoops Any Bool Any sidebandWriteRequestFormat
      sidebandReadResponseFormat :=
    ⟨⟨fun _ => { handle := .new 64 ⟨[], 5, true, {}⟩ }⟩, ⟨{}, [], ()⟩, .beginRead, []⟩
  have hinit : loops.Reachable (Polite [(true, 2)] 64 1) fresh :=
    .init ⟨_, fun _ => ⟨⟨[], 5, true, {}⟩, rfl, rfl, rfl⟩, rfl⟩
  obtain ⟨s, hs, hrequests⟩ : ∃ s, loops.next fresh (.write request) = some s ∧
      s.requests = [request] := ⟨_, rfl, rfl⟩
  have hreachable : loops.Reachable (Polite [(true, 2)] 64 1) s :=
    .step (a := .write request) hinit ⟨rfl, by decide, rfl, by decide⟩ hs
  have hframes : responseFrames sidebandReadResponseFormat (effectOf storeLoad
      sidebandWriteRequestFormat [(false, 1)] [(true, 2)] {} [request]).events =
        [[0x12, 0x05, 0x0A, 0x03, 0x12, 0x01, 0x07]] := by decide +kernel
  have hfit : ResponsesFit storeLoad sidebandWriteRequestFormat sidebandReadResponseFormat
      [(false, 1)] [(true, 2)] {} 64 s.requests := by
    intro frame hframe
    rw [hrequests, hframes, List.mem_singleton] at hframe
    rw [hframe]
    decide
  obtain ⟨-, as, s', hrun, hcomplete⟩ :=
    exchanges_complete (List.cons_ne_nil _ _) Nat.one_pos (by decide) hfit hreachable
  refine ⟨s, as, s', hrun, hcomplete, ?_⟩
  rw [hcomplete.read, requests_eq_of_run (fun _ _ hwork => hwork.2) hrun, hrequests, hframes]

end Polite

end Loops

end Sideband
