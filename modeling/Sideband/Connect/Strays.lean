import Sideband.Connect.SocketQueue
import Sideband.Foundation.Permit

/-!
# Connections nobody queued

What becomes of the connect queue depends on the ids that connections send.

* `Survives`: the semaphore is a permit that the pending stream holds, and only ids that were
  queued and read completely are registered.
* `survives_of_reachable`: it stays so as long as every id that is read is that of a pending
  stream and is read without a failure (`SendsPendingId`).
* `not_survives_stray`: one connection with no stream pending gives the semaphore a second
  permit.
-/

namespace Sideband

open Foundation

variable {ι : Type} {streams : ι → Stream} {s s' : SocketQueue ι}

/-- The id that is read next is that of a pending stream, and no `recv` fails. Who has sent it,
and over how many connections, is left open. -/
def SendsPendingId (streams : ι → Stream) (s : SocketQueue ι) : SocketQueueStep ι → Prop
  | .readConnectionId recvs => ∀ o, s.accepting = .constructed o →
      (∀ e ∈ recvs, e.fails = false) ∧
        ∃ i, s.Pending i ∧ o.derived.connection.incoming.take connectIdLength = (streams i).id
  | _ => True

/-- What the connect queue promises in a state, whoever connects. That the handle of an id has
the right parameters is another matter (`IsPaired`). -/
structure Survives (streams : ι → Stream) (s : SocketQueue ι) : Prop where
  /-- No second `QueueSidebandConnection` gets past the wait while a stream is pending. -/
  semaphore : (s.connectQueue.count : ℕ∞) + {i | s.Pending i}.encard ≤ 1
  /-- What is registered was queued and read completely. -/
  registered : ∀ usageId o, s.buffers.lookup usageId = some o →
    (∃ i, s.thread i ≠ .idle ∧ (streams i).id = usageId) ∧ usageId ∈ s.received

/-- The semaphore is the pending stream's permit, and the accept thread ends with its id, so that
its notification gives the permit back. -/
structure Ordered (streams : ι → Stream) (s : SocketQueue ι) : Prop where
  permit : Permit s.connectQueue.count s.Pending
  fresh : ∀ i, s.thread i = .idle → s.completed i = false
  own : ∀ o, s.accepting = .identified o ∨ s.accepting = .registered o →
    (∃ i, s.Pending i ∧ (streams i).id = o.derived.id) ∧ o.derived.id ∈ s.received
  registered : ∀ usageId o, s.buffers.lookup usageId = some o →
    (∃ i, s.thread i ≠ .idle ∧ (streams i).id = usageId) ∧ usageId ∈ s.received

namespace Ordered

theorem survives (h : Ordered streams s) : Survives streams s :=
  ⟨h.permit.count_add_encard.le, h.registered⟩

/-- A step that leaves the semaphore, the streams behind the wait, the map and the last part of
`InitFromConnection` leaves the order. -/
theorem frame (h : Ordered streams s) (hcount : s'.connectQueue = s.connectQueue)
    (hthread : ∀ i, s'.thread i ≠ .idle ↔ s.thread i ≠ .idle)
    (hcompleted : s'.completed = s.completed) (hbuffers : s'.buffers = s.buffers)
    (hreceived : s'.received = s.received)
    (haccepting : ∀ o, s'.accepting = .identified o ∨ s'.accepting = .registered o →
      s.accepting = .identified o ∨ s.accepting = .registered o) : Ordered streams s' := by
  have hpending (i : ι) : s'.Pending i ↔ s.Pending i := by
    rw [SocketQueue.Pending, SocketQueue.Pending, hthread, hcompleted]
  refine ⟨?_, ?_, ?_, ?_⟩
  · rw [hcount]
    exact h.permit.congr hpending
  · intro i hi
    rw [hcompleted]
    exact h.fresh i (not_not.mp (mt (hthread i).mpr (not_not.mpr hi)))
  · intro o ho
    obtain ⟨⟨i, hi, hid⟩, hmem⟩ := h.own o (haccepting o ho)
    exact ⟨⟨i, (hpending i).mpr hi, hid⟩, hreceived ▸ hmem⟩
  · intro usageId o ho
    rw [hbuffers] at ho
    obtain ⟨⟨i, hi, hid⟩, hmem⟩ := h.registered usageId o ho
    exact ⟨⟨i, (hthread i).mpr hi, hid⟩, hreceived ▸ hmem⟩

theorem readConnectionId (h : Ordered streams s) {recvs : List RecvEvent}
    (hok : SendsPendingId streams s (.readConnectionId recvs))
    (hstep : s.readConnectionId recvs = some s') : Ordered streams s' := by
  obtain ⟨o, ho⟩ := SocketQueue.constructed_of_readConnectionId hstep
  obtain ⟨hsteady, i, hi, hid⟩ := hok o ho
  obtain ⟨derived, hread, -, -, rfl⟩ := SocketQueue.readConnectionId_eq_some hstep ho hsteady
  refine ⟨h.permit, h.fresh, ?_, ?_⟩
  · intro o' ho'
    obtain rfl : o' = { o with derived } := by
      rcases ho' with ho' | ho'
      · cases ho'
        rfl
      · cases ho'
    exact ⟨⟨i, hi, hid.symm.trans hread.symm⟩, List.mem_cons_self⟩
  · intro usageId o' ho'
    obtain ⟨hqueued, hmem⟩ := h.registered usageId o' ho'
    exact ⟨hqueued, List.mem_cons_of_mem _ hmem⟩

theorem register (h : Ordered streams s) (hstep : s.register = some s') : Ordered streams s' := by
  obtain ⟨o, ho, rfl⟩ := SocketQueue.register_eq_some hstep
  obtain ⟨⟨i, hi, hid⟩, hmem⟩ := h.own o (.inl ho)
  refine ⟨h.permit, h.fresh, ?_, ?_⟩
  · intro o' ho'
    obtain rfl : o' = o := by
      rcases ho' with ho' | ho'
      · cases ho'
      · cases ho'
        rfl
    exact ⟨⟨i, hi, hid⟩, hmem⟩
  · intro usageId o' ho'
    rcases Buffers.lookup_emplace_cases ho' with hold | ⟨rfl, rfl⟩
    · exact h.registered usageId o' hold
    · exact ⟨⟨i, hi.1, hid⟩, hmem⟩

theorem notify (h : Ordered streams s) (hstep : s.notify streams = some s') :
    Ordered streams s' := by
  obtain ⟨o, ho, rfl⟩ := SocketQueue.notify_eq_some hstep
  obtain ⟨⟨i, hi, hid⟩, -⟩ := h.own o (.inr ho)
  refine ⟨h.permit.give hi ?_, ?_, ?_, h.registered⟩
  · -- the pending stream is the one that is completed
    intro j
    refine .inl ?_
    rintro ⟨hj, hcompleted⟩
    obtain ⟨hnot, hother⟩ := Bool.or_eq_false_iff.mp hcompleted
    obtain rfl := h.permit.eq hi ⟨hj, hnot⟩
    have hthread : s.thread i ≠ .idle := hj
    simp [hthread, hid] at hother
  · intro j hj
    have hthread : s.thread j = .idle := hj
    simp [hthread, h.fresh j hthread]
  · intro o' ho'
    rcases ho' with ho' | ho'
    · cases ho'
    · cases ho'

variable [DecidableEq ι]

/-- A thread that moves on behind the wait leaves the order. -/
theorem advance (h : Ordered streams s) {i : ι} {call call' : QueueCall}
    (hthread : s.thread i = call) (hbefore : call ≠ .idle) (hafter : call' ≠ .idle) :
    Ordered streams (s.advance i call') :=
  h.frame rfl (fun _ => SocketQueue.thread_advance_ne_idle (hthread ▸ hbefore) hafter) rfl rfl rfl
    fun _ ho => ho

theorem wait (h : Ordered streams s) {i : ι} (hstep : s.wait i = some s') :
    Ordered streams s' := by
  obtain ⟨hidle, hpos, q, hq, rfl⟩ := SocketQueue.wait_eq_some hstep
  -- the call that returns is the only one that changes, and it takes the permit
  have hthread (j : ι) : ((({ s with connectQueue := q }).advance i .waited).thread j ≠ .idle) ↔
      s.thread j ≠ .idle ∨ j = i := by
    by_cases hj : j = i
    · subst hj
      rw [SocketQueue.thread_advance_self]
      simp
    · rw [SocketQueue.thread_advance_ne _ _ hj]
      simp [hj]
  refine ⟨?_, ?_, ?_, ?_⟩
  · change Permit q.count _
    rw [hq]
    refine h.permit.take (i := i) hpos fun j => ?_
    rw [SocketQueue.Pending, hthread, SocketQueue.Pending]
    constructor
    · rintro ⟨hj | hj, hcompleted⟩
      · exact .inl ⟨hj, hcompleted⟩
      · exact .inr hj
    · rintro (⟨hj, hcompleted⟩ | rfl)
      · exact ⟨.inl hj, hcompleted⟩
      · exact ⟨.inr rfl, h.fresh j hidle⟩
  · intro j hj
    exact h.fresh j (not_not.mp fun hne => (hthread j).mpr (.inl hne) hj)
  -- no handle is being made while the permit is free
  · intro o ho
    obtain ⟨⟨j, hj, -⟩, -⟩ := h.own o ho
    exact absurd hj (h.permit.not_holds hpos j)
  · intro usageId o ho
    obtain ⟨⟨j, hj, hid⟩, hmem⟩ := h.registered usageId o ho
    exact ⟨⟨j, (hthread j).mpr (.inl hj), hid⟩, hmem⟩

/-- Every step that meets the condition keeps the order. -/
theorem next (h : Ordered streams s) {a : SocketQueueStep ι} (hok : SendsPendingId streams s a)
    (hstep : (socketQueue streams).next s a = some s') : Ordered streams s' := by
  cases a with
  | wait i => exact h.wait hstep
  | setLowLatency i =>
    obtain ⟨hthread, rfl⟩ := SocketQueue.setLowLatency_eq_some hstep
    have hset : Ordered streams { s with nextConnectLowLatency := (streams i).lowLatency } :=
      h.frame rfl (fun _ => Iff.rfl) rfl rfl rfl fun _ ho => ho
    exact hset.advance hthread (by decide) (by decide)
  | setBufferSize i =>
    obtain ⟨hthread, rfl⟩ := SocketQueue.setBufferSize_eq_some hstep
    have hset : Ordered streams { s with nextConnectBufferSize := (streams i).bufferSize } :=
      h.frame rfl (fun _ => Iff.rfl) rfl rfl rfl fun _ ho => ho
    exact hset.advance hthread (by decide) (by decide)
  | setConnectionId i =>
    obtain ⟨hthread, rfl⟩ := SocketQueue.setConnectionId_eq_some hstep
    have hset : Ordered streams { s with nextConnectionId := (streams i).id } :=
      h.frame rfl (fun _ => Iff.rfl) rfl rfl rfl fun _ ho => ho
    exact hset.advance hthread (by decide) (by decide)
  | connect client sent =>
    cases hstep
    exact h.frame rfl (fun _ => Iff.rfl) rfl rfl rfl fun _ ho => ho
  | accept k =>
    obtain ⟨-, c, -, rfl⟩ := SocketQueue.accept_eq_some hstep
    exact h.frame rfl (fun _ => Iff.rfl) rfl rfl rfl fun _ ho => by simp at ho
  | setNoDelay =>
    obtain ⟨c, noDelay, -, rfl⟩ := SocketQueue.setNoDelay_eq_some hstep
    exact h.frame rfl (fun _ => Iff.rfl) rfl rfl rfl fun _ ho => by simp at ho
  | readBufferSize =>
    obtain ⟨c, -, rfl⟩ := SocketQueue.readBufferSize_eq_some hstep
    exact h.frame rfl (fun _ => Iff.rfl) rfl rfl rfl fun _ ho => by simp at ho
  | construct =>
    obtain ⟨c, bufferSize, -, rfl⟩ := SocketQueue.construct_eq_some hstep
    exact h.frame rfl (fun _ => Iff.rfl) rfl rfl rfl fun _ ho => by simp at ho
  | readConnectionId recvs => exact h.readConnectionId hok hstep
  | register => exact h.register hstep
  | notify => exact h.notify hstep
  | getToken usageId =>
    obtain ⟨o, -, rfl⟩ := SocketQueue.getToken_eq_some hstep
    exact h.frame rfl (fun _ => Iff.rfl) rfl rfl rfl fun _ ho => ho

end Ordered

/-- **The connect queue survives** every run that reads the ids of pending streams only. Clients
may connect at any time and in any order, and send what they like behind the id. A connection
that fails before its id is complete, or that sends another id, is outside the condition. -/
theorem survives_of_reachable [DecidableEq ι]
    (hs : (socketQueue streams).Reachable (SendsPendingId streams) s) :
    Survives streams s := by
  have hordered : Ordered streams s := by
    refine hs.invariant (fun s hinit => ?_) fun s a s' h hok hstep => h.next hok hstep
    obtain rfl : s = {} := hinit
    refine ⟨.free fun i hi => hi.1 rfl, fun _ _ => rfl, ?_, ?_⟩
    · intro o ho
      simp at ho
    · intro usageId o ho
      simp at ho
  exact hordered.survives

/-- The handle that the accept thread has constructed last, and not yet given an id. -/
def AcceptThread.constructed? : AcceptThread → Option (SidebandData SocketSidebandData)
  | .constructed o => some o
  | _ => none

/-- One stream, and a client that sends its id in two pieces. -/
theorem survives_of_reachable_run : ∃ s : SocketQueue Unit,
    (socketQueue fun _ => ⟨.sockets, connectionId 1, 8⟩).Reachable
      (SendsPendingId fun _ => ⟨.sockets, connectionId 1, 8⟩) s ∧
    (s.buffers.lookup (connectionId 1)).isSome ∧
    Survives (fun _ => ⟨.sockets, connectionId 1, 8⟩) s := by
  have hexec : ((socketQueue fun _ : Unit => ⟨.sockets, connectionId 1, 8⟩).execWhile
      (fun s => fun
        | .readConnectionId recvs => s.accepting.constructed?.all fun o =>
            recvs.all (fun e => !RecvEvent.fails e) &&
              decide (s.thread () ≠ .idle ∧ s.completed () = false ∧
                o.derived.connection.incoming.take connectIdLength = connectionId 1)
        | _ => true) {}
      [.wait (), .connect none (connectionId 1), .accept 0, .setLowLatency (), .setNoDelay,
        .setBufferSize (), .readBufferSize, .construct, .setConnectionId (),
        .readConnectionId [.deliver 5, .deliver 13], .register, .notify]).map
      (fun s => (s.buffers.lookup (connectionId 1)).isSome) = some true := by
    decide +kernel
  obtain ⟨s, hs, hregistered⟩ := Option.map_eq_some_iff.mp hexec
  have hrun : (socketQueue fun _ : Unit => ⟨.sockets, connectionId 1, 8⟩).Reachable
      (SendsPendingId fun _ => ⟨.sockets, connectionId 1, 8⟩) s := by
    refine (Machine.Reachable.init rfl).execWhile ?_ hs
    intro s a _ hp
    cases a with
    | readConnectionId recvs =>
      intro o ho
      simp only [ho, AcceptThread.constructed?, Option.all_some, Bool.and_eq_true,
        decide_eq_true_eq] at hp
      obtain ⟨hrecvs, hwaited, hcompleted, hid⟩ := hp
      exact ⟨fun e he => by simpa using List.all_eq_true.mp hrecvs e he,
        (), ⟨hwaited, hcompleted⟩, hid⟩
    | _ => exact trivial
  exact ⟨s, hrun, hregistered, survives_of_reachable hrun⟩

/-- A connection that fails before any stream is queued lets two streams pass the wait. -/
theorem not_survives_stray : ¬ ∀ s : SocketQueue Bool,
    (socketQueue fun i => ⟨.sockets, connectionId i.toNat, 8⟩).Reachable Anything s →
      Survives (fun i => ⟨.sockets, connectionId i.toNat, 8⟩) s := by
  intro h
  have hexec : ((socketQueue fun i : Bool => ⟨.sockets, connectionId i.toNat, 8⟩).exec {}
      [.connect none [], .accept 0, .setNoDelay, .readBufferSize, .construct,
        .readConnectionId [.fail .other], .register, .notify, .wait false, .wait true]).map
      (fun s => decide (∀ i, s.thread i ≠ .idle ∧ s.completed i = false)) = some true := by
    decide +kernel
  obtain ⟨s, hs, hpending⟩ := Option.map_eq_some_iff.mp hexec
  have hboth : ∀ i, s.thread i ≠ .idle ∧ s.completed i = false := of_decide_eq_true hpending
  have hcount := (h s (Machine.exec_reachable rfl hs)).semaphore
  have hone : {i | s.Pending i}.encard ≤ 1 := le_trans le_add_self hcount
  exact absurd (Set.encard_le_one_iff.mp hone false true (hboth false) (hboth true)) (by decide)

end Sideband
