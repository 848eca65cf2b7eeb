import Sideband.Connect.Strays

/-!
# Queued parameters and their connection

With clients that connect once, after their stream was queued, and send its id, the parameters
in the static variables and the connection at the accept thread always belong together.

* `IsPaired` is what the connect queue promises: the handle of an id has the parameters that were
  queued for the id and the socket of its client, tokens denote it, and the semaphore and the
  pending streams add up to one.
* `Phase` says how far the pending stream is: being queued, connected, or served by the accept
  thread. Each step goes from phase to phase.
* `isPaired_of_reachable`: with ids of `ConnectIdLength` characters it is so in every state the
  threads can reach.
* `not_isPaired_wrapped`: `NextConnectionId` does not stop at such ids. Its counter is a signed
  32-bit integer, and the id it gives after the greatest one is a character longer than the
  accept thread reads.
-/

namespace Sideband

open Foundation

variable {ι : Type} {streams : ι → Stream} {s s' : SocketQueue ι} {i j : ι}

/-- Clients connect once, after the call for their stream has returned, and begin with its id; no
`recv` fails. What follows the id is anything, and of the server's threads nothing is asked. -/
def WellBehaved (streams : ι → Stream) (s : SocketQueue ι) : SocketQueueStep ι → Prop
  | .connect client sent => ∃ i, client = some i ∧ s.thread i = .returned ∧
      s.clientSocket i = none ∧ (streams i).id <+: sent
  | .readConnectionId recvs => ∀ e ∈ recvs, e.fails = false
  | _ => True

/-- A handle with what was queued for the stream and the socket of its client. What is on the
connection is not part of it. -/
structure Serves (stream : Stream) (clientSocket : Option ℤ)
    (o : SidebandData SocketSidebandData) : Prop where
  bufferSize : o.bufferSize = stream.bufferSize
  lowLatency : o.derived.lowLatency = stream.lowLatency
  socket : clientSocket = some o.derived.socket

/-- What the connect queue promises in a state: a handle goes with the id, the parameters and the
client of one stream, and one stream at most is between its wait and its notification. -/
structure IsPaired (streams : ι → Stream) (s : SocketQueue ι) : Prop where
  registered : ∀ usageId o, s.buffers.lookup usageId = some o →
    ∃ i, (streams i).id = usageId ∧ o.derived.id = usageId ∧
      Serves (streams i) (s.clientSocket i) o
  /-- A stream that has completed finds its handle. -/
  completed : ∀ i, s.completed i = true → (s.buffers.lookup (streams i).id).isSome
  /-- `GetOwnerSidebandDataToken` has returned the registered handle. -/
  tokens : ∀ p ∈ s.tokens, s.buffers.lookup p.1 = some p.2
  semaphore : (s.connectQueue.count : ℕ∞) + {i | s.Pending i}.encard = 1

/-! ### Phases -/

/-- The static variables hold what the stream's call has assigned so far. `_nextConnectionId` is
left out, since nothing reads it. -/
structure Assigned (stream : Stream) (call : QueueCall) (nextConnectLowLatency : Bool)
    (nextConnectBufferSize : ℕ) : Prop where
  lowLatency : call ≠ .waited → nextConnectLowLatency = stream.lowLatency
  bufferSize : call ≠ .waited → call ≠ .lowLatencySet → nextConnectBufferSize = stream.bufferSize

/-- The connection of the stream's client, on which its id is the first thing that was sent. -/
structure Comes (stream : Stream) (clientSocket : Option ℤ) (c : Incoming) : Prop where
  socket : clientSocket = some c.socket
  sent : stream.id <+: c.connection.incoming

/-- The accept thread is at work for the stream: what it has read of the static variables, of the
connection and of the map is the stream's. -/
def AtWork (stream : Stream) (clientSocket : Option ℤ)
    (buffers : Buffers (SidebandData SocketSidebandData)) : AcceptThread → Prop
  | .idle => False
  | .entered c => Comes stream clientSocket c
  | .noDelaySet c => Comes stream clientSocket c
  | .sized c bufferSize => Comes stream clientSocket c ∧ bufferSize = stream.bufferSize
  | .constructed o => Serves stream clientSocket o ∧ stream.id <+: o.derived.connection.incoming
  | .identified o => Serves stream clientSocket o ∧ o.derived.id = stream.id
  | .registered o => Serves stream clientSocket o ∧ o.derived.id = stream.id ∧
      buffers.lookup stream.id = some o

theorem AtWork.clientSocket_ne_none {stream : Stream} {clientSocket : Option ℤ}
    {buffers : Buffers (SidebandData SocketSidebandData)} {a : AcceptThread}
    (h : AtWork stream clientSocket buffers a) : clientSocket ≠ none := by
  cases a with
  | idle => exact h.elim
  | entered c => simp [Comes.socket h]
  | noDelaySet c => simp [Comes.socket h]
  | sized c bufferSize => simp [h.1.socket]
  | constructed o => simp [h.1.socket]
  | identified o => simp [h.1.socket]
  | registered o => simp [h.1.socket]

/-- How far the pending stream is. A step of a thread leads from a phase to the next one or stays
in it, which is what makes the semaphore's count tell. -/
inductive Phase (streams : ι → Stream) (s : SocketQueue ι) : Prop
  | free (hpending : ∀ i, ¬ s.Pending i) (haccepting : s.accepting = .idle)
      (hbacklog : s.backlog = [])
  | queueing (i : ι) (hpending : s.Pending i)
      (hassigned : Assigned (streams i) (s.thread i) s.nextConnectLowLatency
        s.nextConnectBufferSize)
      (haccepting : s.accepting = .idle) (hbacklog : s.backlog = [])
  | connected (i : ι) (c : Incoming) (hpending : s.Pending i) (hthread : s.thread i = .returned)
      (hassigned : Assigned (streams i) .returned s.nextConnectLowLatency s.nextConnectBufferSize)
      (haccepting : s.accepting = .idle) (hbacklog : s.backlog = [c])
      (hcomes : Comes (streams i) (s.clientSocket i) c)
  | served (i : ι) (hpending : s.Pending i) (hthread : s.thread i = .returned)
      (hassigned : Assigned (streams i) .returned s.nextConnectLowLatency s.nextConnectBufferSize)
      (hbacklog : s.backlog = [])
      (hwork : AtWork (streams i) (s.clientSocket i) s.buffers s.accepting)

/-- The phase of the pending stream and what the earlier ones have left. This is the invariant,
and `IsPaired` is what it says to the callers. -/
structure Paired (streams : ι → Stream) (s : SocketQueue ι) : Prop where
  ordered : Ordered streams s
  phase : Phase streams s
  unconnected : ∀ i, s.thread i ≠ .returned → s.clientSocket i = none
  completed : ∀ i, s.completed i = true →
    s.thread i = .returned ∧ (s.buffers.lookup (streams i).id).isSome
  registered : ∀ i o, s.buffers.lookup (streams i).id = some o →
    Serves (streams i) (s.clientSocket i) o ∧ o.derived.id = (streams i).id ∧
      (s.completed i = true ∨ s.accepting = .registered o)
  tokens : ∀ p ∈ s.tokens, s.buffers.lookup p.1 = some p.2

namespace Paired

theorem isPaired (h : Paired streams s) : IsPaired streams s := by
  refine ⟨fun usageId o ho => ?_, fun i hi => (h.completed i hi).2, h.tokens,
    h.ordered.permit.count_add_encard⟩
  obtain ⟨⟨i, -, rfl⟩, -⟩ := h.ordered.registered usageId o ho
  obtain ⟨hserves, hid, -⟩ := h.registered i o ho
  exact ⟨i, rfl, hid, hserves⟩

/-- A thread between the wait and the return is the pending stream's, whose client is not
connected. -/
theorem queueing (h : Paired streams s) (hidle : s.thread i ≠ .idle)
    (hreturned : s.thread i ≠ .returned) : s.Pending i ∧
      Assigned (streams i) (s.thread i) s.nextConnectLowLatency s.nextConnectBufferSize ∧
      s.accepting = .idle ∧ s.backlog = [] := by
  have hpending : s.Pending i :=
    ⟨hidle, Bool.eq_false_iff.mpr fun hcompleted => hreturned (h.completed i hcompleted).1⟩
  cases h.phase with
  | free hnone => exact absurd hpending (hnone i)
  | queueing j hj hassigned haccepting hbacklog =>
    obtain rfl := h.ordered.permit.eq hpending hj
    exact ⟨hpending, hassigned, haccepting, hbacklog⟩
  | connected j c hj hthread =>
    obtain rfl := h.ordered.permit.eq hpending hj
    exact absurd hthread hreturned
  | served j hj hthread =>
    obtain rfl := h.ordered.permit.eq hpending hj
    exact absurd hthread hreturned

/-- An accept thread that is not idle serves the pending stream, whose parameters are all in the
static variables. -/
theorem served (h : Paired streams s) (haccepting : s.accepting ≠ .idle) :
    ∃ i, s.Pending i ∧ s.thread i = .returned ∧
      Assigned (streams i) .returned s.nextConnectLowLatency s.nextConnectBufferSize ∧
      s.backlog = [] ∧ AtWork (streams i) (s.clientSocket i) s.buffers s.accepting := by
  cases h.phase with
  | free _ hidle => exact absurd hidle haccepting
  | queueing _ _ _ hidle => exact absurd hidle haccepting
  | connected _ _ _ _ _ hidle => exact absurd hidle haccepting
  | served i hpending hthread hassigned hbacklog hwork =>
    exact ⟨i, hpending, hthread, hassigned, hbacklog, hwork⟩

/-- The accept thread reads the id of the pending stream. -/
theorem sendsPendingId (h : Paired streams s)
    (hlength : ∀ i, (streams i).id.length = connectIdLength) {a : SocketQueueStep ι}
    (hok : WellBehaved streams s a) : SendsPendingId streams s a := by
  cases a with
  | readConnectionId recvs =>
    intro o ho
    obtain ⟨i, hpending, -, -, -, hwork⟩ := h.served (by simp [ho])
    rw [ho] at hwork
    refine ⟨hok, i, hpending, ?_⟩
    rw [← hlength i, ← List.prefix_iff_eq_take.mp hwork.2]
  | _ => exact trivial

/-- A step that leaves the streams, the map and a registered handle leaves what the earlier
streams have left. -/
theorem frame (h : Paired streams s) (hordered : Ordered streams s') (hphase : Phase streams s')
    (hthread : s'.thread = s.thread) (hclient : s'.clientSocket = s.clientSocket)
    (hcompleted : s'.completed = s.completed) (hbuffers : s'.buffers = s.buffers)
    (hregistered : ∀ o, s.accepting = .registered o → s'.accepting = .registered o)
    (htokens : ∀ p ∈ s'.tokens, s.buffers.lookup p.1 = some p.2) : Paired streams s' := by
  refine ⟨hordered, hphase, ?_, ?_, ?_, ?_⟩
  · rw [hthread, hclient]
    exact h.unconnected
  · rw [hcompleted, hthread, hbuffers]
    exact h.completed
  · intro i o ho
    rw [hbuffers] at ho
    obtain ⟨hserves, hid, hdone⟩ := h.registered i o ho
    rw [hclient, hcompleted]
    exact ⟨hserves, hid, hdone.imp id (hregistered o)⟩
  · rw [hbuffers]
    exact htokens

theorem accept (h : Paired streams s) {k : ℕ} (hstep : s.accept k = some s')
    (hordered : Ordered streams s') : Paired streams s' := by
  obtain ⟨hidle, c, hc, rfl⟩ := SocketQueue.accept_eq_some hstep
  have hphase : Phase streams
      { s with accepting := .entered c, backlog := s.backlog.eraseIdx k } := by
    cases h.phase with
    | free _ _ hbacklog => simp [hbacklog] at hc
    | queueing _ _ _ _ hbacklog => simp [hbacklog] at hc
    | connected i c' hpending hthread hassigned _ hbacklog hcomes =>
      rw [hbacklog, List.getElem?_singleton] at hc
      split_ifs at hc with hk
      cases hc
      refine .served i hpending hthread hassigned ?_ hcomes
      rw [hbacklog, hk, List.eraseIdx_cons_zero]
    | served i _ _ _ hbacklog => simp [hbacklog] at hc
  refine h.frame hordered hphase rfl rfl rfl rfl (fun o ho => ?_) h.tokens
  rw [hidle] at ho
  cases ho

/-- The accept thread goes on to the next stage of the same connection. -/
theorem goOn (h : Paired streams s) {a : AcceptThread} {noDelay : List ℤ} {received : List Bytes}
    (hordered : Ordered streams { s with accepting := a, noDelay, received })
    (hnot : ∀ o, s.accepting ≠ .registered o)
    (hwork : ∀ i,
      Assigned (streams i) .returned s.nextConnectLowLatency s.nextConnectBufferSize →
      AtWork (streams i) (s.clientSocket i) s.buffers s.accepting →
      AtWork (streams i) (s.clientSocket i) s.buffers a)
    (haccepting : s.accepting ≠ .idle) :
    Paired streams { s with accepting := a, noDelay, received } := by
  obtain ⟨i, hpending, hthread, hassigned, hbacklog, hold⟩ := h.served haccepting
  refine h.frame hordered ?_ rfl rfl rfl rfl (fun o ho => absurd ho (hnot o)) h.tokens
  exact .served i hpending hthread hassigned hbacklog
    (hwork i hassigned hold)

theorem setNoDelay (h : Paired streams s) (hstep : s.setNoDelay = some s')
    (hordered : Ordered streams s') : Paired streams s' := by
  obtain ⟨c, noDelay, hc, rfl⟩ := SocketQueue.setNoDelay_eq_some hstep
  refine h.goOn hordered ?_ ?_ ?_
  · simp [hc]
  · intro i _ hwork
    rw [hc] at hwork
    exact hwork
  · simp [hc]

theorem readBufferSize (h : Paired streams s) (hstep : s.readBufferSize = some s')
    (hordered : Ordered streams s') : Paired streams s' := by
  obtain ⟨c, hc, rfl⟩ := SocketQueue.readBufferSize_eq_some hstep
  refine h.goOn hordered ?_ ?_ ?_
  · simp [hc]
  · intro i hassigned hwork
    rw [hc] at hwork
    exact ⟨hwork, hassigned.bufferSize (by decide) (by decide)⟩
  · simp [hc]

theorem construct (h : Paired streams s) (hstep : s.construct = some s')
    (hordered : Ordered streams s') : Paired streams s' := by
  obtain ⟨c, bufferSize, hc, rfl⟩ := SocketQueue.construct_eq_some hstep
  refine h.goOn hordered ?_ ?_ ?_
  · simp [hc]
  · intro i hassigned hwork
    rw [hc] at hwork
    obtain ⟨hcomes, hsize⟩ := hwork
    exact ⟨⟨hsize, hassigned.lowLatency (by decide), hcomes.socket⟩, hcomes.sent⟩
  · simp [hc]

/-- The bytes that are read are the stream's id. -/
theorem readConnectionId (hlength : ∀ i, (streams i).id.length = connectIdLength)
    (h : Paired streams s) {recvs : List RecvEvent} (hsteady : ∀ e ∈ recvs, e.fails = false)
    (hstep : s.readConnectionId recvs = some s') (hordered : Ordered streams s') :
    Paired streams s' := by
  obtain ⟨o, ho⟩ := SocketQueue.constructed_of_readConnectionId hstep
  obtain ⟨derived, hread, hsocket, hlow, rfl⟩ :=
    SocketQueue.readConnectionId_eq_some hstep ho hsteady
  refine h.goOn hordered ?_ ?_ ?_
  · simp [ho]
  · intro i _ hwork
    rw [ho] at hwork
    obtain ⟨hserves, hsent⟩ := hwork
    refine ⟨⟨hserves.bufferSize, hlow.trans hserves.lowLatency, ?_⟩, ?_⟩
    · rw [hserves.socket, hsocket]
    · rw [hread, ← hlength i, ← List.prefix_iff_eq_take.mp hsent]
  · simp [ho]

/-- The first handle of the pending stream's id is registered. -/
theorem register (hids : Function.Injective fun i => (streams i).id) (h : Paired streams s)
    (hstep : s.register = some s') (hordered : Ordered streams s') : Paired streams s' := by
  obtain ⟨o, ho, rfl⟩ := SocketQueue.register_eq_some hstep
  obtain ⟨i, hpending, hthread, hassigned, hbacklog, hwork⟩ :=
    h.served (by simp [ho])
  rw [ho] at hwork
  obtain ⟨hserves, hid⟩ := hwork
  -- the stream is not completed, so nothing is registered under its id yet
  have hnew : s.buffers.lookup o.derived.id = none := by
    rw [hid, Option.eq_none_iff_forall_ne_some]
    intro o' ho'
    rcases (h.registered i o' ho').2.2 with hcompleted | hregistered
    · exact absurd hpending.2 (by simp [hcompleted])
    · simp [ho] at hregistered
  have hold {usageId : Bytes} {o' : SidebandData SocketSidebandData}
      (ho' : s.buffers.lookup usageId = some o') :
      (s.buffers.emplace o.derived.id o).lookup usageId = some o' :=
    Buffers.lookup_emplace_mono ho'
  refine ⟨hordered, ?_, h.unconnected, ?_, ?_, ?_⟩
  · refine .served i hpending hthread hassigned hbacklog ?_
    refine ⟨hserves, hid, ?_⟩
    rw [← hid]
    exact Buffers.lookup_emplace_of_none hnew
  · intro j hj
    obtain ⟨hreturned, hsome⟩ := h.completed j hj
    obtain ⟨o', ho'⟩ := Option.isSome_iff_exists.mp hsome
    exact ⟨hreturned, Option.isSome_iff_exists.mpr ⟨o', hold ho'⟩⟩
  · intro j o' ho'
    rcases Buffers.lookup_emplace_cases ho' with ho' | ⟨hj, rfl⟩
    · obtain ⟨hserves', hid', hdone⟩ := h.registered j o' ho'
      refine ⟨hserves', hid', .inl (hdone.resolve_right ?_)⟩
      simp [ho]
    · obtain rfl : j = i := hids (hj.trans hid)
      exact ⟨hserves, hid, .inr rfl⟩
  · intro p hp
    exact hold (h.tokens p hp)

/-- The pending stream is completed. -/
theorem notify (hids : Function.Injective fun i => (streams i).id) (h : Paired streams s)
    (hstep : s.notify streams = some s') (hordered : Ordered streams s') : Paired streams s' := by
  obtain ⟨o, ho, rfl⟩ := SocketQueue.notify_eq_some hstep
  obtain ⟨i, hpending, hthread, -, hbacklog, hwork⟩ := h.served (by simp [ho])
  rw [ho] at hwork
  obtain ⟨hserves, hid, hlookup⟩ := hwork
  refine ⟨hordered, ?_, h.unconnected, ?_, ?_, h.tokens⟩
  · exact .free (hordered.permit.not_holds (Nat.succ_pos _)) rfl hbacklog
  · intro j hj
    rcases Bool.or_eq_true_iff.mp hj with hj | hj
    · exact h.completed j hj
    · obtain ⟨-, hj⟩ := Bool.and_eq_true_iff.mp hj
      obtain rfl : j = i := hids ((of_decide_eq_true hj).trans hid)
      exact ⟨hthread, Option.isSome_iff_exists.mpr ⟨o, hlookup⟩⟩
  -- what was registered and not completed is the handle that is completed now
  · intro j o' ho'
    obtain ⟨hserves', hid', hdone⟩ := h.registered j o' ho'
    refine ⟨hserves', hid', .inl ?_⟩
    rcases hdone with hcompleted | hregistered
    · simp [hcompleted]
    · obtain rfl : o = o' := by
        rw [ho] at hregistered
        cases hregistered
        rfl
      obtain rfl : j = i := hids (hid'.symm.trans hid)
      simp [hpending.1, hid]

/-- What is returned is registered. -/
theorem getToken (h : Paired streams s) {usageId : Bytes} (hstep : s.getToken usageId = some s')
    (hordered : Ordered streams s') : Paired streams s' := by
  obtain ⟨o, ho, rfl⟩ := SocketQueue.getToken_eq_some hstep
  refine h.frame hordered ?_ rfl rfl rfl rfl (fun _ ho => ho) ?_
  · cases h.phase with
    | free hpending haccepting hbacklog => exact .free hpending haccepting hbacklog
    | queueing i hpending hassigned haccepting hbacklog =>
      exact .queueing i hpending hassigned haccepting hbacklog
    | connected i c hpending hthread hassigned haccepting hbacklog hcomes =>
      exact .connected i c hpending hthread hassigned haccepting hbacklog hcomes
    | served i hpending hthread hassigned hbacklog hwork =>
      exact .served i hpending hthread hassigned hbacklog hwork
  · intro p hp
    rcases List.mem_append.mp hp with hp | hp
    · exact h.tokens p hp
    · rw [List.mem_singleton.mp hp]
      exact ho

variable [DecidableEq ι]

/-- The client of the pending stream connects. -/
theorem connect (h : Paired streams s) {client : Option ι} {sent : Bytes}
    (hok : WellBehaved streams s (.connect client sent))
    (hordered : Ordered streams (s.connect client sent)) :
    Paired streams (s.connect client sent) := by
  obtain ⟨i, rfl, hthread, hnone, hsent⟩ := hok
  -- a completed stream has its handle, hence its client has a socket
  have hpending : s.Pending i := by
    refine ⟨by simp [hthread], Bool.eq_false_iff.mpr fun hcompleted => ?_⟩
    obtain ⟨o, ho⟩ := Option.isSome_iff_exists.mp (h.completed i hcompleted).2
    simp [(h.registered i o ho).1.socket] at hnone
  have hself : (s.connect (some i) sent).clientSocket i = some s.nextSocket := if_pos rfl
  have hother {j : ι} (hj : i ≠ j) :
      (s.connect (some i) sent).clientSocket j = s.clientSocket j :=
    if_neg fun heq => hj (Option.some.inj heq)
  refine ⟨hordered, ?_, ?_, h.completed, ?_, h.tokens⟩
  -- the stream is the pending one, and no connection is on the way
  · cases h.phase with
    | free hpendings => exact absurd hpending (hpendings i)
    | queueing j hj hassigned haccepting hbacklog =>
      obtain rfl := h.ordered.permit.eq hpending hj
      rw [hthread] at hassigned
      refine .connected i ⟨s.nextSocket, { incoming := sent }⟩ hpending hthread
        hassigned haccepting ?_ ⟨hself, hsent⟩
      change s.backlog ++ _ = _
      rw [hbacklog, List.nil_append]
    | connected j c hj _ _ _ _ hcomes =>
      obtain rfl := h.ordered.permit.eq hpending hj
      simp [hcomes.socket] at hnone
    | served j hj _ _ _ hwork =>
      obtain rfl := h.ordered.permit.eq hpending hj
      exact absurd hnone hwork.clientSocket_ne_none
  · intro j hj
    have hne : i ≠ j := by
      rintro rfl
      exact hj hthread
    rw [hother hne]
    exact h.unconnected j hj
  · intro j o ho
    obtain ⟨hserves, hid, hdone⟩ := h.registered j o ho
    have hne : i ≠ j := by
      rintro rfl
      simp [hserves.socket] at hnone
    rw [hother hne]
    exact ⟨hserves, hid, hdone⟩

/-- A call that moves on before its return, with any change to the semaphore and to the static
variables. -/
theorem advance (h : Paired streams s) {call : QueueCall} {connectQueue : Semaphore}
    {nextConnectLowLatency : Bool} {nextConnectBufferSize : ℕ} {nextConnectionId : Bytes}
    (hreturned : s.thread i ≠ .returned)
    (hordered : Ordered streams (({ s with
      connectQueue, nextConnectLowLatency, nextConnectBufferSize, nextConnectionId }).advance i
        call))
    (hphase : Phase streams (({ s with
      connectQueue, nextConnectLowLatency, nextConnectBufferSize, nextConnectionId }).advance i
        call)) :
    Paired streams (({ s with
      connectQueue, nextConnectLowLatency, nextConnectBufferSize, nextConnectionId }).advance i
        call) := by
  refine ⟨hordered, hphase, ?_, ?_, h.registered, h.tokens⟩
  · intro j hj
    by_cases hji : j = i
    · subst hji
      exact h.unconnected j hreturned
    · rw [SocketQueue.thread_advance_ne _ _ hji] at hj
      exact h.unconnected j hj
  · intro j hj
    obtain ⟨hthread, hsome⟩ := h.completed j hj
    have hji : j ≠ i := by
      rintro rfl
      exact hreturned hthread
    rw [SocketQueue.thread_advance_ne _ _ hji]
    exact ⟨hthread, hsome⟩

theorem wait (h : Paired streams s) (hstep : s.wait i = some s') (hordered : Ordered streams s') :
    Paired streams s' := by
  obtain ⟨hidle, hpos, q, -, rfl⟩ := SocketQueue.wait_eq_some hstep
  have hnone := h.ordered.permit.not_holds hpos
  refine h.advance (by simp [hidle]) hordered ?_
  have hpending : (({ s with connectQueue := q }).advance i .waited).Pending i :=
    ⟨by simp, h.ordered.fresh i hidle⟩
  cases h.phase with
  | free _ haccepting hbacklog =>
    refine .queueing i hpending ?_ haccepting hbacklog
    rw [SocketQueue.thread_advance_self]
    exact ⟨fun hne => absurd rfl hne, fun hne => absurd rfl hne⟩
  | queueing j hj => exact absurd hj (hnone j)
  | connected j _ hj => exact absurd hj (hnone j)
  | served j hj => exact absurd hj (hnone j)

/-- One assignment of the call. -/
theorem assign (h : Paired streams s) {call call' : QueueCall} {nextConnectLowLatency : Bool}
    {nextConnectBufferSize : ℕ} {nextConnectionId : Bytes} (hthread : s.thread i = call)
    (hidle : call ≠ .idle) (hreturned : call ≠ .returned) (hidle' : call' ≠ .idle)
    (hordered : Ordered streams (({ s with
      nextConnectLowLatency, nextConnectBufferSize, nextConnectionId }).advance i call'))
    (hassigned :
      Assigned (streams i) call s.nextConnectLowLatency s.nextConnectBufferSize →
        Assigned (streams i) call' nextConnectLowLatency nextConnectBufferSize) :
    Paired streams (({ s with
      nextConnectLowLatency, nextConnectBufferSize, nextConnectionId }).advance i call') := by
  subst hthread
  obtain ⟨hpending, hold, haccepting, hbacklog⟩ := h.queueing hidle hreturned
  refine h.advance hreturned hordered ?_
  refine .queueing i ⟨?_, hpending.2⟩ ?_ haccepting hbacklog
  · rwa [SocketQueue.thread_advance_self]
  · rw [SocketQueue.thread_advance_self]
    exact hassigned hold

/-- Every step of well-behaved clients keeps the pairing. -/
theorem next (hids : Function.Injective fun i => (streams i).id)
    (hlength : ∀ i, (streams i).id.length = connectIdLength) (h : Paired streams s)
    {a : SocketQueueStep ι} (hok : WellBehaved streams s a)
    (hstep : (socketQueue streams).next s a = some s') : Paired streams s' := by
  have hordered : Ordered streams s' := h.ordered.next (h.sendsPendingId hlength hok) hstep
  cases a with
  | wait i => exact h.wait hstep hordered
  | setLowLatency i =>
    obtain ⟨hthread, rfl⟩ := SocketQueue.setLowLatency_eq_some hstep
    refine h.assign hthread (by decide) (by decide) (by decide) hordered fun _ => ?_
    exact ⟨fun _ => rfl, fun _ hne => absurd rfl hne⟩
  | setBufferSize i =>
    obtain ⟨hthread, rfl⟩ := SocketQueue.setBufferSize_eq_some hstep
    refine h.assign hthread (by decide) (by decide) (by decide) hordered fun hassigned => ?_
    exact ⟨fun _ => hassigned.lowLatency (by decide), fun _ _ => rfl⟩
  | setConnectionId i =>
    obtain ⟨hthread, rfl⟩ := SocketQueue.setConnectionId_eq_some hstep
    refine h.assign hthread (by decide) (by decide) (by decide) hordered fun hassigned => ?_
    exact ⟨fun _ => hassigned.lowLatency (by decide),
      fun _ _ => hassigned.bufferSize (by decide) (by decide)⟩
  | connect client sent =>
    cases hstep
    exact h.connect hok hordered
  | accept k => exact h.accept hstep hordered
  | setNoDelay => exact h.setNoDelay hstep hordered
  | readBufferSize => exact h.readBufferSize hstep hordered
  | construct => exact h.construct hstep hordered
  | readConnectionId recvs => exact h.readConnectionId hlength hok hstep hordered
  | register => exact h.register hids hstep hordered
  | notify => exact h.notify hids hstep hordered
  | getToken usageId => exact h.getToken hstep hordered

end Paired

variable [DecidableEq ι]

/-- **The connect queue pairs** every id with the parameters queued for it and the connection of
its client, whatever the order of the threads' steps, when every id has the length that the accept
thread reads. `NextConnectionId` gives such ids while its counter is not negative
(`length_connectionId`); the first id after it has wrapped is longer (`not_isPaired_wrapped`). -/
theorem isPaired_of_reachable (hids : Function.Injective fun i => (streams i).id)
    (hlength : ∀ i, (streams i).id.length = connectIdLength)
    (hs : (socketQueue streams).Reachable (WellBehaved streams) s) : IsPaired streams s := by
  have hpaired : Paired streams s := by
    refine hs.invariant (fun s hinit => ?_) fun s a s' h hok hstep => h.next hids hlength hok hstep
    obtain rfl : s = {} := hinit
    have hordered : Ordered streams ({} : SocketQueue ι) :=
      ⟨.free fun i hi => hi.1 rfl, fun _ _ => rfl, fun o ho => by simp at ho,
        fun usageId o ho => by simp at ho⟩
    refine ⟨hordered, .free (fun i hi => hi.1 rfl) rfl rfl, fun _ _ => rfl, ?_, ?_, ?_⟩
    · intro i hi
      cases hi
    · intro i o ho
      simp at ho
    · intro p hp
      simp at hp
  exact hpaired.isPaired

/-- `WellBehaved` as a test, for the runs of the witnesses. -/
def behavesWell (streams : ι → Stream) (s : SocketQueue ι) : SocketQueueStep ι → Bool
  | .connect client sent => client.any fun i => decide (s.thread i = .returned ∧
      s.clientSocket i = none ∧ (streams i).id <+: sent)
  | .readConnectionId recvs => recvs.all fun e => !e.fails
  | _ => true

omit [DecidableEq ι] in
theorem wellBehaved_of_behavesWell {a : SocketQueueStep ι}
    (h : behavesWell streams s a = true) : WellBehaved streams s a := by
  cases a with
  | connect client sent =>
    obtain ⟨i, rfl, hi⟩ := (Option.any_eq_true _ _).mp h
    exact ⟨i, rfl, of_decide_eq_true hi⟩
  | readConnectionId recvs =>
    intro e he
    simpa using List.all_eq_true.mp h e he
  | _ => exact trivial

/-- A stream with low latency and one without, queued and connected one after the other. -/
def twoStreams (i : Bool) : Stream where
  strategy := if i then .socketsLowLatency else .sockets
  id := connectionId (if i then 1 else 2)
  bufferSize := if i then 8 else 16

/-- The second stream is queued while the first one is served. -/
theorem isPaired_of_reachable_twoStreams : ∃ s : SocketQueue Bool,
    (socketQueue twoStreams).Reachable (WellBehaved twoStreams) s ∧
    (∀ i, s.completed i = true) ∧ IsPaired twoStreams s := by
  have hexec : ((socketQueue twoStreams).execWhile (behavesWell twoStreams) {}
      [.wait true, .setLowLatency true, .setBufferSize true, .setConnectionId true,
        .connect (some true) (connectionId 1), .accept 0, .setNoDelay, .readBufferSize,
        .construct, .readConnectionId [.deliver 13], .register, .getToken (connectionId 1),
        .notify, .wait false, .setLowLatency false, .setBufferSize false,
        .setConnectionId false, .connect (some false) (connectionId 2 ++ [1]), .accept 0,
        .setNoDelay, .readBufferSize, .construct, .readConnectionId [.deliver 5, .deliver 13],
        .register, .notify, .getToken (connectionId 2)]).map
      (fun s => decide (∀ i, s.completed i = true)) = some true := by
    decide +kernel
  obtain ⟨s, hs, hcompleted⟩ := Option.map_eq_some_iff.mp hexec
  have hrun : (socketQueue twoStreams).Reachable (WellBehaved twoStreams) s :=
    (Machine.Reachable.init rfl).execWhile (fun s a _ => wellBehaved_of_behavesWell) hs
  refine ⟨s, hrun, of_decide_eq_true hcompleted, isPaired_of_reachable ?_ ?_ hrun⟩
  · rw [Function.Injective]
    decide
  · decide

/-- The stream whose id is the first one that `NextConnectionId` draws after the greatest counter
value. -/
def wrappedStream : Stream := ⟨.sockets, (nextConnectionId (2 ^ 31 - 1)).1, 8⟩

/-- The client of `wrappedStream` sends its id, of which the accept thread reads all characters
but the last. The handle is registered under what was read, and `notify` completes no stream. -/
theorem not_isPaired_wrapped : ¬ ∀ streams : Unit → Stream,
    (Function.Injective fun i => (streams i).id) → ∀ s : SocketQueue Unit,
      (socketQueue streams).Reachable (WellBehaved streams) s → IsPaired streams s := by
  intro h
  have hexec : ((socketQueue fun _ : Unit => wrappedStream).execWhile
      (behavesWell fun _ => wrappedStream) {}
      [.wait (), .setLowLatency (), .setBufferSize (), .setConnectionId (),
        .connect (some ()) wrappedStream.id, .accept 0, .setNoDelay, .readBufferSize,
        .construct, .readConnectionId [.deliver 13], .register, .notify]).map
      (fun s => (s.buffers.lookup (wrappedStream.id.take 13)).isSome) = some true := by
    decide +kernel
  obtain ⟨s, hs, hregistered⟩ := Option.map_eq_some_iff.mp hexec
  have hrun : (socketQueue fun _ : Unit => wrappedStream).Reachable
      (WellBehaved fun _ => wrappedStream) s :=
    (Machine.Reachable.init rfl).execWhile (fun s a _ => wellBehaved_of_behavesWell) hs
  have hpaired := h (fun _ => wrappedStream) (fun _ _ _ => rfl) s hrun
  obtain ⟨o, ho⟩ := Option.isSome_iff_exists.mp hregistered
  obtain ⟨-, hid, -⟩ := hpaired.registered _ o ho
  exact absurd hid (by decide)

end Sideband
