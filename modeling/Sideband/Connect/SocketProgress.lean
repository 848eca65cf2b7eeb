import Sideband.Connect.Pairing
import Sideband.Foundation.Progress
import Sideband.Sockets.RoundTrip

/-!
# Streams that connect

The connect queue never gets stuck on the way: the clients of the queued streams connect, and the
accept thread serves them. A stream takes twelve steps (`SocketQueue.rank`), and a queue that can go
no further has served every stream (`socketQueue_connects`).
-/

namespace Sideband

open Foundation

variable {ι : Type} {streams : ι → Stream} {s s' : SocketQueue ι} {i : ι}

/-! ### The rank -/

/-- The steps that a server thread has before it. -/
def QueueCall.rank : QueueCall → ℕ
  | .idle => 4
  | .waited => 3
  | .lowLatencySet => 2
  | .bufferSizeSet => 1
  | .returned => 0

/-- The steps that `InitFromConnection` has before it. -/
def AcceptThread.rank : AcceptThread → ℕ
  | .idle => 0
  | .entered _ => 6
  | .noDelaySet _ => 5
  | .sized _ _ => 4
  | .constructed _ => 3
  | .identified _ => 2
  | .registered _ => 1

/-- The steps of a stream's thread and its client, and of the accept thread for it: four, one and
seven. -/
def SocketQueue.streamRank (s : SocketQueue ι) (i : ι) : ℕ :=
  (s.thread i).rank + if s.clientSocket i = none then 8 else 0

/-- The steps that the streams have before them, with those of the connections that are waiting
and of the accept thread. -/
def SocketQueue.rank [Fintype ι] (s : SocketQueue ι) : ℕ :=
  ∑ i, s.streamRank i + 7 * s.backlog.length + s.accepting.rank

/-- A step of well-behaved clients and of the threads that serve them.
`GetOwnerSidebandDataToken` is no step on the way: it may be called any number of times. -/
def Connecting (streams : ι → Stream) (s : SocketQueue ι) : SocketQueueStep ι → Prop
  | .getToken _ => False
  | a => WellBehaved streams s a

theorem Connecting.wellBehaved {a : SocketQueueStep ι} (h : Connecting streams s a) :
    WellBehaved streams s a := by
  cases a with
  | getToken usageId => exact trivial
  | _ => exact h

/-- A connection that has come in is in the backlog, at the accept thread, or was served. None is
lost. -/
def Arrived (s : SocketQueue ι) : Prop :=
  ∀ i, s.clientSocket i ≠ none → s.completed i = true ∨ s.backlog ≠ [] ∨ s.accepting ≠ .idle

variable [DecidableEq ι]

theorem Arrived.next (h : Arrived s) (hpaired : Paired streams s) {a : SocketQueueStep ι}
    (hstep : (socketQueue streams).next s a = some s') : Arrived s' := by
  cases a with
  | wait i =>
    obtain ⟨-, -, q, -, rfl⟩ := SocketQueue.wait_eq_some hstep
    exact h
  | setLowLatency i =>
    obtain ⟨-, rfl⟩ := SocketQueue.setLowLatency_eq_some hstep
    exact h
  | setBufferSize i =>
    obtain ⟨-, rfl⟩ := SocketQueue.setBufferSize_eq_some hstep
    exact h
  | setConnectionId i =>
    obtain ⟨-, rfl⟩ := SocketQueue.setConnectionId_eq_some hstep
    exact h
  | connect client sent =>
    obtain rfl := Option.some.inj hstep
    exact fun i _ => .inr (.inl (List.append_ne_nil_of_right_ne_nil _ (List.cons_ne_nil _ _)))
  | accept k =>
    obtain ⟨-, c, -, rfl⟩ := SocketQueue.accept_eq_some hstep
    exact fun i _ => .inr (.inr (by simp))
  | setNoDelay =>
    obtain ⟨c, noDelay, -, rfl⟩ := SocketQueue.setNoDelay_eq_some hstep
    exact fun i _ => .inr (.inr (by simp))
  | readBufferSize =>
    obtain ⟨c, -, rfl⟩ := SocketQueue.readBufferSize_eq_some hstep
    exact fun i _ => .inr (.inr (by simp))
  | construct =>
    obtain ⟨c, bufferSize, -, rfl⟩ := SocketQueue.construct_eq_some hstep
    exact fun i _ => .inr (.inr (by simp))
  | readConnectionId recvs =>
    obtain ⟨o, ho⟩ := SocketQueue.constructed_of_readConnectionId hstep
    refine fun i _ => .inr (.inr ?_)
    change s.readConnectionId recvs = some s' at hstep
    simp only [SocketQueue.readConnectionId, ho] at hstep
    split at hstep
    · obtain rfl := Option.some.inj hstep
      simp
    · cases hstep
  | register =>
    obtain ⟨o, -, rfl⟩ := SocketQueue.register_eq_some hstep
    exact fun i _ => .inr (.inr (by simp))
  | notify =>
    obtain ⟨o, ho, rfl⟩ := SocketQueue.notify_eq_some hstep
    obtain ⟨i, hpending, hthread, -, -, hwork⟩ := hpaired.served (by simp [ho])
    rw [ho] at hwork
    -- the stream that is served is the only one that is not completed
    intro j hj
    refine .inl ?_
    have hreturned : s.thread j = .returned := by
      by_contra hne
      exact hj (hpaired.unconnected j hne)
    cases hcompleted : s.completed j with
    | true => simp [hcompleted]
    | false =>
      obtain rfl := hpaired.ordered.permit.eq hpending ⟨by simp [hreturned], hcompleted⟩
      simp [hpending.1, hwork.2.1]
  | getToken usageId =>
    obtain ⟨o, -, rfl⟩ := SocketQueue.getToken_eq_some hstep
    exact h

/-! ### Reachable states -/

theorem paired_of_reachable (hids : Function.Injective fun i => (streams i).id)
    (hlength : ∀ i, (streams i).id.length = connectIdLength)
    (hs : (socketQueue streams).Reachable (WellBehaved streams) s) :
    Paired streams s ∧ Arrived s := by
  refine hs.invariant (I := fun s => Paired streams s ∧ Arrived s) (fun s hinit => ?_)
    fun s a s' h hok hstep => ⟨h.1.next hids hlength hok hstep, h.2.next h.1 hstep⟩
  obtain rfl : s = {} := hinit
  have hnone : ∀ usageId, ({} : SocketQueue ι).buffers.lookup usageId = none :=
    fun usageId => AList.lookup_empty usageId
  have hpending : ∀ i, ¬ ({} : SocketQueue ι).Pending i := fun i hi => hi.1 rfl
  refine ⟨⟨⟨.free hpending, fun _ _ => rfl, fun o ho => by simp at ho, fun usageId o ho => ?_⟩,
    .free hpending rfl rfl, fun _ _ => rfl, fun i hi => absurd hi Bool.false_ne_true,
    fun i o ho => ?_, fun p hp => absurd hp List.not_mem_nil⟩, fun i hi => absurd rfl hi⟩
  · rw [hnone] at ho
    cases ho
  · rw [hnone] at ho
    cases ho

/-! ### One step -/

variable [Fintype ι]

/-- A server thread moves on. -/
theorem SocketQueue.rank_advance {call call' : QueueCall} (hthread : s.thread i = call)
    (hcall : call'.rank + 1 = call.rank) {connectQueue : Semaphore} {nextConnectLowLatency : Bool}
    {nextConnectBufferSize : ℕ} {nextConnectionId : Bytes} :
    (({ s with
      connectQueue, nextConnectLowLatency, nextConnectBufferSize, nextConnectionId }).advance i
        call').rank + 1 = s.rank := by
  obtain ⟨t, ht⟩ : ∃ t, ({ s with
    connectQueue, nextConnectLowLatency, nextConnectBufferSize, nextConnectionId }).advance i
      call' = t := ⟨_, rfl⟩
  have hsum : ∑ j, t.streamRank j + 1 = ∑ j, s.streamRank j := by
    refine sum_add_of_update (i := i) ?_ fun j hj => ?_
    · rw [SocketQueue.streamRank, SocketQueue.streamRank, ← ht, SocketQueue.thread_advance_self,
        hthread, ← hcall]
      exact Nat.add_right_comm _ _ _
    · rw [SocketQueue.streamRank, SocketQueue.streamRank, ← ht,
        SocketQueue.thread_advance_ne _ _ hj]
      rfl
  have hbacklog : t.backlog = s.backlog := ht ▸ rfl
  have haccepting : t.accepting = s.accepting := ht ▸ rfl
  rw [ht, SocketQueue.rank, SocketQueue.rank, hbacklog, haccepting]
  omega

omit [DecidableEq ι] in
/-- The accept thread moves on. -/
theorem SocketQueue.rank_accepting {a : AcceptThread} {noDelay : List ℤ} {received : List Bytes}
    {buffers : Buffers (SidebandData SocketSidebandData)} {connectQueue : Semaphore}
    {completed : ι → Bool} (ha : a.rank + 1 = s.accepting.rank) :
    ({ s with accepting := a, noDelay, received, buffers, connectQueue, completed }).rank + 1 =
      s.rank := by
  rw [SocketQueue.rank, SocketQueue.rank, ← ha]
  exact rfl

/-- The client of a stream connects. -/
theorem SocketQueue.rank_connect (hnone : s.clientSocket i = none) (sent : Bytes) :
    (s.connect (some i) sent).rank + 1 = s.rank := by
  obtain ⟨t, ht⟩ : ∃ t, s.connect (some i) sent = t := ⟨_, rfl⟩
  have hsum : ∑ j, t.streamRank j + 8 = ∑ j, s.streamRank j := by
    refine sum_add_of_update (i := i) ?_ fun j hj => ?_
    · have hsome : t.clientSocket i = some (s.nextSocket : ℤ) := ht ▸ if_pos rfl
      have hthread : t.thread = s.thread := ht ▸ rfl
      rw [SocketQueue.streamRank, SocketQueue.streamRank, hsome, hnone, hthread, if_pos rfl,
        if_neg (by simp)]
    · have hsame : t.clientSocket j = s.clientSocket j :=
        ht ▸ if_neg fun heq => hj (Option.some.inj heq).symm
      have hthread : t.thread = s.thread := ht ▸ rfl
      rw [SocketQueue.streamRank, SocketQueue.streamRank, hsame, hthread]
  have hbacklog : t.backlog.length = s.backlog.length + 1 := by
    rw [← ht, SocketQueue.connect]
    simp
  have haccepting : t.accepting = s.accepting := ht ▸ rfl
  rw [ht, SocketQueue.rank, SocketQueue.rank, hbacklog, haccepting]
  omega

/-- Each step brings one stream one step on: the server thread's, its client's, and the accept
thread's for it. There is nobody else whose step could go back. -/
theorem SocketQueue.rank_next {a : SocketQueueStep ι} (hok : Connecting streams s a)
    (hstep : (socketQueue streams).next s a = some s') : s'.rank + 1 = s.rank := by
  cases a with
  | wait i =>
    obtain ⟨hthread, -, q, -, rfl⟩ := SocketQueue.wait_eq_some hstep
    exact SocketQueue.rank_advance hthread rfl
  | setLowLatency i =>
    obtain ⟨hthread, rfl⟩ := SocketQueue.setLowLatency_eq_some hstep
    exact SocketQueue.rank_advance hthread rfl
  | setBufferSize i =>
    obtain ⟨hthread, rfl⟩ := SocketQueue.setBufferSize_eq_some hstep
    exact SocketQueue.rank_advance hthread rfl
  | setConnectionId i =>
    obtain ⟨hthread, rfl⟩ := SocketQueue.setConnectionId_eq_some hstep
    exact SocketQueue.rank_advance hthread rfl
  | connect client sent =>
    obtain ⟨i, rfl, -, hnone, -⟩ := hok
    obtain rfl := Option.some.inj hstep
    exact SocketQueue.rank_connect hnone sent
  | accept k =>
    obtain ⟨hidle, c, hc, rfl⟩ := SocketQueue.accept_eq_some hstep
    have hlt := (List.getElem?_eq_some_iff.mp hc).1
    have hlength := List.length_eraseIdx_of_lt hlt
    rw [SocketQueue.rank, SocketQueue.rank, hidle, AcceptThread.rank, AcceptThread.rank, hlength]
    change ∑ j, s.streamRank j + _ + _ + _ = _
    omega
  | setNoDelay =>
    obtain ⟨c, noDelay, hc, rfl⟩ := SocketQueue.setNoDelay_eq_some hstep
    exact SocketQueue.rank_accepting (hc ▸ rfl)
  | readBufferSize =>
    obtain ⟨c, hc, rfl⟩ := SocketQueue.readBufferSize_eq_some hstep
    exact SocketQueue.rank_accepting (hc ▸ rfl)
  | construct =>
    obtain ⟨c, bufferSize, hc, rfl⟩ := SocketQueue.construct_eq_some hstep
    exact SocketQueue.rank_accepting (hc ▸ rfl)
  | readConnectionId recvs =>
    obtain ⟨o, ho⟩ := SocketQueue.constructed_of_readConnectionId hstep
    obtain ⟨derived, -, -, -, rfl⟩ := SocketQueue.readConnectionId_eq_some hstep ho hok
    exact SocketQueue.rank_accepting (ho ▸ rfl)
  | register =>
    obtain ⟨o, ho, rfl⟩ := SocketQueue.register_eq_some hstep
    exact SocketQueue.rank_accepting (ho ▸ rfl)
  | notify =>
    obtain ⟨o, ho, rfl⟩ := SocketQueue.notify_eq_some hstep
    exact SocketQueue.rank_accepting (ho ▸ rfl)
  | getToken usageId => exact absurd hok id

/-! ### Where the queue gets stuck -/

/-- Every stream has been served, and the queue is as it was before the first one, so that more
streams can be queued. -/
structure AllConnected (streams : ι → Stream) (s : SocketQueue ι) : Prop where
  completed : ∀ i, s.completed i = true
  handles : ∀ i, ∃ o, s.buffers.lookup (streams i).id = some o ∧ o.derived.id = (streams i).id ∧
    Serves (streams i) (s.clientSocket i) o
  count : s.connectQueue.count = 1
  accepting : s.accepting = .idle
  backlog : s.backlog = []

/-- Some step is possible. -/
def GoesOn (streams : ι → Stream) (s : SocketQueue ι) : Prop :=
  ∃ a, Connecting streams s a ∧ ((socketQueue streams).next s a).isSome

omit [Fintype ι] in
/-- An accept thread at work can go on. -/
theorem Paired.goesOn_of_accepting (h : Paired streams s)
    (hlength : ∀ i, (streams i).id.length = connectIdLength) (haccepting : s.accepting ≠ .idle) :
    GoesOn streams s := by
  cases hphase : s.accepting with
  | idle => exact absurd hphase haccepting
  | entered c =>
    exact ⟨.setNoDelay, trivial, by simp [socketQueue, SocketQueue.setNoDelay, hphase]⟩
  | noDelaySet c =>
    exact ⟨.readBufferSize, trivial, by simp [socketQueue, SocketQueue.readBufferSize, hphase]⟩
  | sized c bufferSize =>
    exact ⟨.construct, trivial, by simp [socketQueue, SocketQueue.construct, hphase]⟩
  | constructed o =>
    obtain ⟨i, -, -, -, -, hwork⟩ := h.served haccepting
    rw [hphase] at hwork
    obtain ⟨rest, hrest⟩ := hwork.2
    -- the id is there, and a `recv` for each byte of it suffices
    obtain ⟨recvs, hall⟩ : ∃ recvs, List.replicate connectIdLength (RecvEvent.deliver 1) = recvs :=
      ⟨_, rfl⟩
    have hmem : ∀ e ∈ recvs, e = .deliver 1 :=
      fun e he => List.eq_of_mem_replicate (hall ▸ he)
    have hrecvs : Delivering recvs ((streams i).id.length + 0) := by
      refine ⟨fun e he => .inl ⟨1, hmem e he⟩, ?_⟩
      rw [← hall, List.countP_replicate, hlength i]
      exact le_rfl
    obtain ⟨recvs', errno', -, hrun⟩ := SocketSidebandData.readConnectionId_ok
      { o.derived with connection.recvs := recvs } (hlength i) hrest.symm hrecvs
    refine ⟨.readConnectionId recvs, fun e he => ?_, ?_⟩
    · rw [hmem e he]
      rfl
    · simp only [socketQueue, SocketQueue.readConnectionId, hphase, hrun]
      rfl
  | identified o =>
    exact ⟨.register, trivial, by simp [socketQueue, SocketQueue.register, hphase]⟩
  | registered o =>
    exact ⟨.notify, trivial, by simp [socketQueue, SocketQueue.notify, hphase]⟩

omit [Fintype ι] in
/-- A thread that is in its call can go on, and after it the client can connect. -/
theorem Arrived.goesOn_of_pending (h : Arrived s) (hpending : s.Pending i)
    (haccepting : s.accepting = .idle) (hbacklog : s.backlog = []) : GoesOn streams s := by
  cases hthread : s.thread i with
  | idle => exact absurd hthread hpending.1
  | waited =>
    exact ⟨.setLowLatency i, trivial, by simp [socketQueue, SocketQueue.setLowLatency, hthread]⟩
  | lowLatencySet =>
    exact ⟨.setBufferSize i, trivial, by simp [socketQueue, SocketQueue.setBufferSize, hthread]⟩
  | bufferSizeSet =>
    exact ⟨.setConnectionId i, trivial,
      by simp [socketQueue, SocketQueue.setConnectionId, hthread]⟩
  | returned =>
    have hnone : s.clientSocket i = none := by
      by_contra hne
      rcases h i hne with hcompleted | hmore | hmore
      · exact absurd hcompleted (by simp [hpending.2])
      · exact hmore hbacklog
      · exact hmore haccepting
    exact ⟨.connect (some i) (streams i).id, ⟨i, rfl, hthread, hnone, List.prefix_rfl⟩, rfl⟩

/-- The queue is stuck when every stream has been served: as long as one has not been, the
semaphore, the backlog or the accept thread has a step to offer. -/
theorem Paired.stuck_iff (h : Paired streams s) (harrived : Arrived s)
    (hlength : ∀ i, (streams i).id.length = connectIdLength) :
    (socketQueue streams).Stuck (Connecting streams) s ↔ AllConnected streams s := by
  constructor
  · intro hstuck
    have hno : ¬ GoesOn streams s := by
      rintro ⟨a, hok, hsome⟩
      rw [hstuck a hok] at hsome
      cases hsome
    cases h.phase with
    | free hpending haccepting hbacklog =>
      have hcount := h.ordered.permit.count_eq_one hpending
      have hcompleted : ∀ i, s.completed i = true := by
        intro i
        by_contra hnot
        have hidle : s.thread i = .idle := by
          by_contra hne
          exact hpending i ⟨hne, Bool.eq_false_of_not_eq_true hnot⟩
        exact hno ⟨.wait i, trivial,
          by simp [socketQueue, SocketQueue.wait, hidle, Semaphore.wait, hcount]⟩
      refine ⟨hcompleted, fun i => ?_, hcount, haccepting, hbacklog⟩
      obtain ⟨o, ho⟩ := Option.isSome_iff_exists.mp (h.completed i (hcompleted i)).2
      obtain ⟨hserves, hid, -⟩ := h.registered i o ho
      exact ⟨o, ho, hid, hserves⟩
    | queueing i hpending _ haccepting hbacklog =>
      exact absurd (harrived.goesOn_of_pending hpending haccepting hbacklog) hno
    | connected i c _ _ _ haccepting hbacklog =>
      exact absurd ⟨.accept 0, trivial,
        by simp [socketQueue, SocketQueue.accept, haccepting, hbacklog]⟩ hno
    | served i _ _ _ _ hwork =>
      refine absurd (h.goesOn_of_accepting hlength fun hidle => ?_) hno
      rw [hidle] at hwork
      exact hwork
  · intro hall a hok
    -- every stream has taken its twelve steps
    by_contra hne
    obtain ⟨s', hnext⟩ := Option.ne_none_iff_exists'.mp hne
    have hsum : ∑ i, s.streamRank i = 0 := by
      refine Finset.sum_eq_zero fun i _ => ?_
      obtain ⟨o, -, -, hserves⟩ := hall.handles i
      rw [SocketQueue.streamRank, (h.completed i (hall.completed i)).1, hserves.socket]
      rfl
    have hzero : s.rank = 0 := by
      rw [SocketQueue.rank, hsum, hall.backlog, hall.accepting]
      rfl
    exact Nat.succ_ne_zero _ ((SocketQueue.rank_next hok hnext).trans hzero)

/-- **Every stream connects**: in whatever order the threads and the clients take their steps,
there are as many as the streams have before them, and a queue that is stuck has served every
stream. It takes streams with ids of their own, each as long as the accept thread reads. -/
theorem socketQueue_connects (hids : Function.Injective fun i => (streams i).id)
    (hlength : ∀ i, (streams i).id.length = connectIdLength)
    (hs : (socketQueue streams).Reachable (WellBehaved streams) s) :
    (∀ as s', (socketQueue streams).Run (Connecting streams) s as s' →
      as.length + s'.rank = s.rank ∧
        ((socketQueue streams).Stuck (Connecting streams) s' ↔ AllConnected streams s')) ∧
      ∃ as s', (socketQueue streams).Run (Connecting streams) s as s' ∧
        AllConnected streams s' := by
  have hkeeps : ∀ s a s', (socketQueue streams).Reachable (WellBehaved streams) s →
      Connecting streams s a → (socketQueue streams).next s a = some s' →
        (socketQueue streams).Reachable (WellBehaved streams) s' ∧ s'.rank + 1 = s.rank :=
    fun s a s' hs hok hnext => ⟨.step hs hok.wellBehaved hnext, SocketQueue.rank_next hok hnext⟩
  have hranked : (socketQueue streams).Ranked (Connecting streams)
      ((socketQueue streams).Reachable (WellBehaved streams)) SocketQueue.rank :=
    .of_eq hkeeps
  have hstuck : ∀ s', (socketQueue streams).Reachable (WellBehaved streams) s' →
      ((socketQueue streams).Stuck (Connecting streams) s' ↔ AllConnected streams s') := by
    intro s' hs'
    obtain ⟨hpaired, harrived⟩ := paired_of_reachable hids hlength hs'
    exact hpaired.stuck_iff harrived hlength
  have hreachable : ∀ {as s'}, (socketQueue streams).Run (Connecting streams) s as s' →
      (socketQueue streams).Reachable (WellBehaved streams) s' :=
    fun hrun => hrun.reachable (fun _ _ => Connecting.wellBehaved) hs
  refine ⟨fun as s' hrun => ⟨hrun.length_eq hkeeps hs, hstuck s' (hreachable hrun)⟩, ?_⟩
  obtain ⟨as, s', hrun, hend⟩ := hranked.exists_stuck hs
  exact ⟨as, s', hrun, (hstuck s' (hreachable hrun)).mp hend⟩

/-- Two streams connect in 24 steps. -/
theorem socketQueue_connects_twoStreams : ({} : SocketQueue Bool).rank = 24 ∧
    ∃ as s', (socketQueue twoStreams).Run (Connecting twoStreams) {} as s' ∧
      AllConnected twoStreams s' :=
  ⟨by decide, (socketQueue_connects (by rw [Function.Injective]; decide) (by decide)
    (.init rfl)).2⟩

end Sideband
