import Sideband.Connect.RdmaQueue
import Sideband.ConnectionId

/-!
# Sessions and the queue call they are for

* `PairsSessions` is what the queue promises: every handle that is registered has the parameters
  of one call and both sessions of its client, and each call leads to one registration and one
  notification.
* `StoresInTurn` is the condition on the schedule and the flags: no session is stored while the
  other accept thread is between its store and its test, and a session that the call does not wait
  for is stored before the other one.
* `SessionsPaired` is the invariant of the runs in which a test passes only with both sessions, and
  once for a call (`CompletesWithBoth`). `TakesTurns` adds what stores in turn give: a thread that
  has stored will test for a call that has led to no registration, and passes with both sessions.
* `pairsSessions_of_reachable`: with `StoresInTurn`, the promise holds in every state reached. A
  store out of turn can always be followed by tests that break it (`breaks_of_not_storesInTurn`).
* `not_pairsSessions_overlap`: two accept threads that both store before they test register the
  same two sessions twice.
-/

namespace Sideband

open Foundation

variable {ι : Type} {streams : ι → RdmaStream} {s s' : RdmaQueue ι} {i j : ι} {d e : Direction}
  {n m : ℕ}

/-- A session is stored while the other accept thread is not between its store and its test, and
either the call waits for the other session too or that one is there already. With both flags set,
as `BeginSidebandStream` sets them, only the first half says anything. -/
def StoresInTurn (s : RdmaQueue ι) : RdmaQueueStep ι → Prop
  | .store d => (∀ n, s.accepting d.other ≠ .stored n) ∧
      (s.waitForConnection d.other = true ∨ (s.pendingSession d.other).isSome)
  | _ => True

/-- A test that passes finds both sessions and a call that has led to no registration. It is what
a step lemma asks for, and storing in turn leads to it. -/
def CompletesWithBoth (s : RdmaQueue ι) : RdmaQueueStep ι → Prop
  | .test _ => s.complete = true → (∀ d, (s.pendingSession d).isSome) ∧
      ∃ i, s.current = some i ∧ s.thread i = .returned
  | _ => True

/-- What the queue promises in a state: each registered handle has the parameters of one call and
both sessions of its client, no session is in two of them, and a call whose sessions were
processed has led to one registration and one notification. -/
structure PairsSessions (streams : ι → RdmaStream) (s : RdmaQueue ι) : Prop where
  owns : ∀ o ∈ s.registered, ∃ i, (∀ d, (s.session i d).isSome) ∧ o = s.handle streams i
  /-- No session is owned by two handles. -/
  disjoint : ∀ o ∈ s.registered, ∀ o' ∈ s.registered, ∀ d e,
    o.connected d = o'.connected e → o = o' ∧ d = e
  atMostOnce : ∀ i, s.registered.count (s.handle streams i) ≤ 1 ∧
    s.notified.count (s.handle streams i) ≤ 1
  once : ∀ i, s.Processed i → s.registered.count (s.handle streams i) = 1 ∧
    s.notified.count (s.handle streams i) = 1

namespace RdmaQueue

@[simp]
theorem connected_handle (d : Direction) :
    (s.handle streams i).connected d = s.session i d := by
  cases d <;> rfl

/-- A handle depends on the sessions of its own stream only. -/
theorem handle_congr (h : s'.session i = s.session i) :
    s'.handle streams i = s.handle streams i := by
  rw [handle, handle, h]

end RdmaQueue

/-! ### Phases -/

/-- What the call has assigned so far. The sessions of the call before it are cleared one after
the other. -/
def SessionsAssigned (stream : RdmaStream) (s : RdmaQueue ι) : RdmaQueueCall → Prop
  | .idle | .waited => True
  | .writeCleared => s.pendingSession .send = none
  | .readCleared => ∀ d, s.pendingSession d = none
  | .lowLatencySet => (∀ d, s.pendingSession d = none) ∧ s.nextConnectLowLatency = stream.lowLatency
  | .bufferSizeSet | .waitForReaderSet | .waitForWriterSet => (∀ d, s.pendingSession d = none) ∧
      s.nextConnectLowLatency = stream.lowLatency ∧ s.nextConnectBufferSize = stream.bufferSize
  | .returned => (∀ d, s.pendingSession d = none) ∧
      s.nextConnectLowLatency = stream.lowLatency ∧ s.nextConnectBufferSize = stream.bufferSize ∧
      s.nextConnectionId = stream.id

theorem SessionsAssigned.congr {stream : RdmaStream} {call : RdmaQueueCall}
    (h : SessionsAssigned stream s call) (hpending : s'.pendingSession = s.pendingSession)
    (hlowLatency : s'.nextConnectLowLatency = s.nextConnectLowLatency)
    (hbufferSize : s'.nextConnectBufferSize = s.nextConnectBufferSize)
    (hid : s'.nextConnectionId = s.nextConnectionId) : SessionsAssigned stream s' call := by
  unfold SessionsAssigned at h ⊢
  rw [hpending, hlowLatency, hbufferSize, hid]
  exact h

/-- One assignment of the call, which changes nothing else. -/
theorem RdmaQueue.assign_eq_some [DecidableEq ι] (h : s.assign streams i = some s') :
    s.thread i ≠ .idle ∧ s.thread i ≠ .returned ∧
      ∃ call pendingSession nextConnectLowLatency nextConnectBufferSize waitForConnection
        nextConnectionId, call ≠ .idle ∧ s' = ({ s with
          pendingSession, nextConnectLowLatency, nextConnectBufferSize, waitForConnection,
          nextConnectionId }).advance i call ∧
        (SessionsAssigned (streams i) s (s.thread i) → SessionsAssigned (streams i) s' call) := by
  -- one case per assignment, in the order of `QueueSidebandConnection`
  rw [assign] at h
  split at h
  · next hthread =>
    cases h
    rw [hthread]
    refine ⟨by decide, by decide, .writeCleared, _, _, _, _, _, by decide, rfl, fun _ => ?_⟩
    change Function.update s.pendingSession .send none .send = none
    exact Function.update_self _ _ _
  · next hthread =>
    cases h
    rw [hthread]
    refine ⟨by decide, by decide, .readCleared, _, _, _, _, _, by decide, rfl,
      fun hassigned d => ?_⟩
    change Function.update s.pendingSession .receive none d = none
    cases d with
    | receive => exact Function.update_self _ _ _
    | send => rwa [Function.update_of_ne (by decide)]
  · next hthread =>
    cases h
    rw [hthread]
    exact ⟨by decide, by decide, .lowLatencySet, _, _, _, _, _, by decide, rfl,
      fun hassigned => ⟨hassigned, rfl⟩⟩
  · next hthread =>
    cases h
    rw [hthread]
    exact ⟨by decide, by decide, .bufferSizeSet, _, _, _, _, _, by decide, rfl,
      fun hassigned => ⟨hassigned.1, hassigned.2, rfl⟩⟩
  · next hthread =>
    cases h
    rw [hthread]
    exact ⟨by decide, by decide, .waitForReaderSet, _, _, _, _, _, by decide, rfl,
      fun hassigned => hassigned⟩
  · next hthread =>
    cases h
    rw [hthread]
    exact ⟨by decide, by decide, .waitForWriterSet, _, _, _, _, _, by decide, rfl,
      fun hassigned => hassigned⟩
  · next hthread =>
    cases h
    rw [hthread]
    exact ⟨by decide, by decide, .returned, _, _, _, _, _, by decide, rfl,
      fun hassigned => ⟨hassigned.1, hassigned.2.1, hassigned.2.2, rfl⟩⟩
  · cases h
  · cases h

/-- An accept thread with no session, or one that is stored. -/
def RdmaAcceptThread.Rests (a : RdmaAcceptThread) : Prop := a = .idle ∨ ∃ n, a = .stored n

namespace RdmaAcceptThread.Rests

variable {a : RdmaAcceptThread} {o : RdmaHandle}

theorem ne_accepted (h : a.Rests) : a ≠ .accepted n := by
  rintro rfl
  simp [RdmaAcceptThread.Rests] at h

theorem ne_registered (h : a.Rests) : a ≠ .registered n o := by
  rintro rfl
  simp [RdmaAcceptThread.Rests] at h

/-- A thread that becomes idle rests. -/
theorem update {accepting : Direction → RdmaAcceptThread} (h : (accepting e).Rests) :
    (Function.update accepting d .idle e).Rests := by
  by_cases hed : e = d
  · subst hed
    rw [Function.update_self]
    exact .inl rfl
  · rw [Function.update_of_ne hed]
    exact h

end RdmaAcceptThread.Rests

/-- How far the session of a direction is: not opened, in the backlog, with the accept thread,
stored and untested, or tested. -/
inductive SessionSide (session slot : Option ℕ) (backlog : List ℕ)
    (accepting : RdmaAcceptThread) : Prop
  | unopened (hsession : session = none) (hslot : slot = none) (hbacklog : backlog = [])
      (haccepting : accepting.Rests)
  | opened (n : ℕ) (hsession : session = some n) (hslot : slot = none) (hbacklog : backlog = [n])
      (haccepting : accepting.Rests)
  | accepted (n : ℕ) (hsession : session = some n) (hslot : slot = none) (hbacklog : backlog = [])
      (haccepting : accepting = .accepted n)
  | stored (n : ℕ) (hsession : session = some n) (hslot : slot = some n) (hbacklog : backlog = [])
      (haccepting : accepting = .stored n)
  | tested (n : ℕ) (hsession : session = some n) (hslot : slot = some n) (hbacklog : backlog = [])
      (haccepting : accepting = .idle)

namespace SessionSide

variable {session slot : Option ℕ} {backlog : List ℕ} {accepting : RdmaAcceptThread}
  {o : RdmaHandle}

/-- While a call is current, no accept thread is at its notification. -/
theorem ne_registered (h : SessionSide session slot backlog accepting) :
    accepting ≠ .registered n o := by
  cases h with
  | unopened _ _ _ haccepting => exact haccepting.ne_registered
  | opened _ _ _ _ haccepting => exact haccepting.ne_registered
  | accepted _ _ _ _ haccepting => simp [haccepting]
  | stored _ _ _ _ haccepting => simp [haccepting]
  | tested _ _ _ _ haccepting => simp [haccepting]

/-- Before the client opens the session, there is nothing of it. -/
theorem of_unopened (h : SessionSide none slot backlog accepting) :
    slot = none ∧ backlog = [] ∧ accepting.Rests := by
  cases h with
  | unopened _ hslot hbacklog haccepting => exact ⟨hslot, hbacklog, haccepting⟩
  | opened _ hsession => cases hsession
  | accepted _ hsession => cases hsession
  | stored _ hsession => cases hsession
  | tested _ hsession => cases hsession

/-- A session that waits in the backlog is the only one there. -/
theorem of_backlog {k : ℕ} (h : SessionSide session slot backlog accepting)
    (hn : backlog[k]? = some n) : session = some n ∧ slot = none ∧ backlog.eraseIdx k = [] := by
  cases h with
  | unopened _ _ hbacklog => simp [hbacklog] at hn
  | opened m hsession hslot hbacklog =>
    rw [hbacklog, List.getElem?_singleton] at hn
    split_ifs at hn with hk
    cases hn
    refine ⟨hsession, hslot, ?_⟩
    rw [hbacklog, hk, List.eraseIdx_cons_zero]
  | accepted _ _ _ hbacklog => simp [hbacklog] at hn
  | stored _ _ _ hbacklog => simp [hbacklog] at hn
  | tested _ _ _ hbacklog => simp [hbacklog] at hn

/-- A session that an accept thread has in its hands is that of the direction. -/
theorem of_accepted (h : SessionSide session slot backlog (.accepted n)) :
    session = some n ∧ backlog = [] := by
  cases h with
  | unopened _ _ _ haccepting => exact absurd rfl haccepting.ne_accepted
  | opened _ _ _ _ haccepting => exact absurd rfl haccepting.ne_accepted
  | accepted m hsession _ hbacklog haccepting =>
    cases haccepting
    exact ⟨hsession, hbacklog⟩
  | stored _ _ _ _ haccepting => cases haccepting
  | tested _ _ _ _ haccepting => cases haccepting

/-- A thread that has stored becomes idle: its session, if it is one of this call, is tested. -/
theorem of_stored (h : SessionSide session slot backlog (.stored n)) :
    SessionSide session slot backlog .idle := by
  cases h with
  | unopened hsession hslot hbacklog => exact .unopened hsession hslot hbacklog (.inl rfl)
  | opened m hsession hslot hbacklog => exact .opened m hsession hslot hbacklog (.inl rfl)
  | accepted _ _ _ _ haccepting => cases haccepting
  | stored m hsession hslot hbacklog => exact .tested m hsession hslot hbacklog rfl
  | tested _ _ _ _ haccepting => cases haccepting

/-- A slot holds the session of its direction, and a thread that has stored has stored it. -/
theorem of_slot (h : SessionSide session slot backlog accepting) (hslot : slot.isSome) :
    session = slot ∧ backlog = [] ∧ accepting.Rests ∧
      ∀ n, accepting = .stored n → session = some n := by
  cases h with
  | unopened _ hnone => simp [hnone] at hslot
  | opened _ _ hnone => simp [hnone] at hslot
  | accepted _ _ hnone => simp [hnone] at hslot
  | stored m hsession hfull hbacklog haccepting =>
    refine ⟨hsession.trans hfull.symm, hbacklog, .inr ⟨m, haccepting⟩, fun n hn => ?_⟩
    obtain rfl := RdmaAcceptThread.stored.inj (haccepting.symm.trans hn)
    exact hsession
  | tested m hsession hfull hbacklog haccepting =>
    refine ⟨hsession.trans hfull.symm, hbacklog, .inl haccepting, fun n hn => ?_⟩
    cases haccepting.symm.trans hn

end SessionSide

/-- Whose turn it is: nobody's, that of a server thread, of a client and the accept threads, or
of the accept thread that has registered. A thread of an earlier call may still be at its test in
any of them. -/
inductive RdmaPhase (streams : ι → RdmaStream) (s : RdmaQueue ι) : Prop
  | free (hcount : s.rdmaConnectQueue.count = 1) (hcurrent : s.current = none)
      (hnotified : s.registered = s.notified)
      (hrests : ∀ d, s.backlog d = [] ∧ (s.accepting d).Rests)
  | queueing (i : ι) (hcount : s.rdmaConnectQueue.count = 0) (hcurrent : s.current = some i)
      (hnotified : s.registered = s.notified)
      (hrests : ∀ d, s.backlog d = [] ∧ (s.accepting d).Rests)
      (hidle : s.thread i ≠ .idle) (hreturned : s.thread i ≠ .returned)
      (hassigned : SessionsAssigned (streams i) s (s.thread i))
  | called (i : ι) (hcount : s.rdmaConnectQueue.count = 0) (hcurrent : s.current = some i)
      (hnotified : s.registered = s.notified) (hthread : s.thread i = .returned)
      (hlowLatency : s.nextConnectLowLatency = (streams i).lowLatency)
      (hbufferSize : s.nextConnectBufferSize = (streams i).bufferSize)
      (hid : s.nextConnectionId = (streams i).id)
      (hside : ∀ d, SessionSide (s.session i d) (s.pendingSession d) (s.backlog d) (s.accepting d))
      (huntested : (∀ d, (s.pendingSession d).isSome) →
        ∃ d n, s.session i d = some n ∧ s.accepting d = .stored n)
  | registering (i : ι) (d : Direction) (n : ℕ) (hcount : s.rdmaConnectQueue.count = 0)
      (hcurrent : s.current = none)
      (hnotified : s.registered = s.handle streams i :: s.notified)
      (hsession : s.session i d = some n)
      (haccepting : s.accepting d = .registered n (s.handle streams i))
      (hbacklog : s.backlog d = [])
      (hrests : s.backlog d.other = [] ∧ (s.accepting d.other).Rests)

/-- The phase, and what the calls that are over have left. It is an invariant of the runs whose
tests pass with both sessions only. -/
structure SessionsPaired (streams : ι → RdmaStream) (s : RdmaQueue ι) : Prop where
  phase : RdmaPhase streams s
  session_lt : ∀ i d n, s.session i d = some n → n < s.nextSession
  injective : ∀ i j d e n, s.session i d = some n → s.session j e = some n → i = j ∧ d = e
  connected : ∀ i d, (s.session i d).isSome → s.thread i = .returned
  past : ∀ i, s.thread i ≠ .idle → s.current ≠ some i →
    s.thread i = .returned ∧ (∀ d, (s.session i d).isSome) ∧ s.handle streams i ∈ s.registered
  owns : ∀ o ∈ s.registered, ∃ i, s.current ≠ some i ∧ (∀ d, (s.session i d).isSome) ∧
    o = s.handle streams i
  nodup : s.registered.Nodup

namespace SessionsPaired

/-- Handles of two streams that have sessions differ. -/
theorem eq_of_handle (h : SessionsPaired streams s) (hsome : ∀ d, (s.session i d).isSome)
    (heq : s.handle streams i = s.handle streams j) : i = j := by
  obtain ⟨n, hn⟩ := Option.isSome_iff_exists.mp (hsome .send)
  have hsend : s.session i .send = s.session j .send :=
    congrArg RdmaHandle.connectedWriteSession heq
  exact (h.injective i j .send .send n hn (hsend.symm.trans hn)).1

/-- A stream both of whose sessions are processed is not the current one. -/
theorem current_ne (h : SessionsPaired streams s) (hprocessed : s.Processed i) :
    s.current ≠ some i := by
  intro hcurrent
  have hthread : s.thread i = .returned := by
    obtain ⟨n, hn, -⟩ := hprocessed .send
    exact h.connected i .send (by simp [hn])
  cases h.phase with
  | free _ hnone => simp [hnone] at hcurrent
  | queueing j _ hj _ _ _ hreturned =>
    obtain rfl : i = j := Option.some.inj (hcurrent.symm.trans hj)
    exact hreturned hthread
  | called j _ hj _ _ _ _ _ hside huntested =>
    obtain rfl : i = j := Option.some.inj (hcurrent.symm.trans hj)
    -- a session that is out of the threads' hands has been tested, so it is in its slot
    have hslot : ∀ d, (s.pendingSession d).isSome := by
      intro d
      obtain ⟨n, hn, hhand⟩ := hprocessed d
      cases hside d with
      | unopened hsession => simp [hn] at hsession
      | opened m hsession _ hbacklog =>
        obtain rfl : n = m := Option.some.inj (hn.symm.trans hsession)
        simp [RdmaQueue.inHand, hbacklog] at hhand
      | accepted m hsession _ _ haccepting =>
        obtain rfl : n = m := Option.some.inj (hn.symm.trans hsession)
        simp [RdmaQueue.inHand, haccepting, RdmaAcceptThread.session] at hhand
      | stored m _ hslot => simp [hslot]
      | tested m _ hslot => simp [hslot]
    -- but then a thread still has to test
    obtain ⟨d, n, hn, haccepting⟩ := huntested hslot
    obtain ⟨m, hm, hhand⟩ := hprocessed d
    obtain rfl : n = m := Option.some.inj (hn.symm.trans hm)
    simp [RdmaQueue.inHand, haccepting, RdmaAcceptThread.session] at hhand
  | registering _ _ _ _ hnone => simp [hnone] at hcurrent

theorem nodup_notified (h : SessionsPaired streams s) : s.notified.Nodup := by
  cases h.phase with
  | free _ _ hnotified => exact hnotified ▸ h.nodup
  | queueing _ _ _ hnotified => exact hnotified ▸ h.nodup
  | called _ _ _ hnotified => exact hnotified ▸ h.nodup
  | registering _ _ _ _ _ hnotified => exact (List.nodup_cons.mp (hnotified ▸ h.nodup)).2

/-- The handle of a stream that is processed has been registered, and its thread has notified. -/
theorem mem_notified (h : SessionsPaired streams s) (hprocessed : s.Processed i) :
    s.handle streams i ∈ s.registered ∧ s.handle streams i ∈ s.notified := by
  have hsome : ∀ d, (s.session i d).isSome := by
    intro d
    obtain ⟨n, hn, -⟩ := hprocessed d
    simp [hn]
  have hthread : s.thread i ≠ .idle := by
    rw [h.connected i .send (hsome .send)]
    decide
  have hregistered := (h.past i hthread (h.current_ne hprocessed)).2.2
  refine ⟨hregistered, ?_⟩
  cases h.phase with
  | free _ _ hnotified => exact hnotified ▸ hregistered
  | queueing _ _ _ hnotified => exact hnotified ▸ hregistered
  | called _ _ _ hnotified => exact hnotified ▸ hregistered
  | registering j d n _ _ hnotified hsession haccepting =>
    rcases List.mem_cons.mp (hnotified ▸ hregistered) with heq | hmem
    · obtain rfl := h.eq_of_handle hsome heq
      obtain ⟨m, hm, hhand⟩ := hprocessed d
      obtain rfl : n = m := Option.some.inj (hsession.symm.trans hm)
      simp [RdmaQueue.inHand, haccepting, RdmaAcceptThread.session] at hhand
    · exact hmem

/-- A step that leaves the sessions, the calls and the registrations leaves what is over. -/
theorem frame (h : SessionsPaired streams s) (hphase : RdmaPhase streams s')
    (hsession : s'.session = s.session) (hnext : s'.nextSession = s.nextSession)
    (hthread : s'.thread = s.thread) (hcurrent : s'.current = s.current)
    (hregistered : s'.registered = s.registered) : SessionsPaired streams s' := by
  have hhandle (i : ι) : s'.handle streams i = s.handle streams i :=
    RdmaQueue.handle_congr (congrFun hsession i)
  refine ⟨hphase, ?_, ?_, ?_, ?_, ?_, ?_⟩
  · rw [hsession, hnext]
    exact h.session_lt
  · rw [hsession]
    exact h.injective
  · rw [hsession, hthread]
    exact h.connected
  · intro i
    rw [hthread, hcurrent, hsession, hhandle, hregistered]
    exact h.past i
  · rw [hregistered, hcurrent, hsession]
    simp only [hhandle]
    exact h.owns
  · rw [hregistered]
    exact h.nodup

theorem accept (h : SessionsPaired streams s) {k : ℕ} (hstep : s.accept d k = some s') :
    SessionsPaired streams s' := by
  obtain ⟨hidle, n, hn, rfl⟩ := RdmaQueue.accept_eq_some hstep
  refine h.frame ?_ rfl rfl rfl rfl rfl
  cases h.phase with
  | free _ _ _ hrests => simp [(hrests d).1] at hn
  | queueing _ _ _ _ hrests => simp [(hrests d).1] at hn
  | called i hcount hcurrent hnotified hthread hlowLatency hbufferSize hid hside huntested =>
    obtain ⟨hsession, hslot, hbacklog⟩ := (hside d).of_backlog hn
    refine .called i hcount hcurrent hnotified hthread hlowLatency hbufferSize hid ?_ ?_
    · intro e
      by_cases hed : e = d
      · subst hed
        simp only [Function.update_self]
        exact .accepted n hsession hslot hbacklog rfl
      · simpa only [Function.update_of_ne hed] using hside e
    · intro hslot
      obtain ⟨e, m, hm, haccepting⟩ := huntested hslot
      have hed : e ≠ d := by
        rintro rfl
        simp [hidle] at haccepting
      refine ⟨e, m, hm, ?_⟩
      simpa only [Function.update_of_ne hed] using haccepting
  | registering i e m _ _ _ _ haccepting _ hrests =>
    rcases e.eq_or_eq_other d with rfl | rfl
    · simp [hidle] at haccepting
    · simp [hrests.1] at hn

theorem store (h : SessionsPaired streams s) (hstep : s.store d = some s') :
    SessionsPaired streams s' := by
  obtain ⟨n, hn, rfl⟩ := RdmaQueue.store_eq_some hstep
  refine h.frame ?_ rfl rfl rfl rfl rfl
  cases h.phase with
  | free _ _ _ hrests => exact absurd hn (hrests d).2.ne_accepted
  | queueing _ _ _ _ hrests => exact absurd hn (hrests d).2.ne_accepted
  | called i hcount hcurrent hnotified hthread hlowLatency hbufferSize hid hside =>
    obtain ⟨hsession, hbacklog⟩ := (hn ▸ hside d).of_accepted
    refine .called i hcount hcurrent hnotified hthread hlowLatency hbufferSize hid ?_ fun _ =>
      ⟨d, n, hsession, ?_⟩
    · intro e
      by_cases hed : e = d
      · subst hed
        simp only [Function.update_self]
        exact .stored n hsession rfl hbacklog rfl
      · simpa only [Function.update_of_ne hed] using hside e
    · simp only [Function.update_self]
  | registering i e m _ _ _ _ haccepting _ hrests =>
    rcases e.eq_or_eq_other d with rfl | rfl
    · simp [hn] at haccepting
    · exact absurd hn hrests.2.ne_accepted

/-- A test that fails: the other session is still to come. -/
theorem test_incomplete (h : SessionsPaired streams s) (hn : s.accepting d = .stored n)
    (hincomplete : s.complete = false) :
    SessionsPaired streams { s with accepting := Function.update s.accepting d .idle } := by
  refine h.frame ?_ rfl rfl rfl rfl rfl
  cases h.phase with
  | free hcount hcurrent hnotified hrests =>
    exact .free hcount hcurrent hnotified fun e => ⟨(hrests e).1, (hrests e).2.update⟩
  | queueing i hcount hcurrent hnotified hrests hidle hreturned hassigned =>
    exact .queueing i hcount hcurrent hnotified (fun e => ⟨(hrests e).1, (hrests e).2.update⟩)
      hidle hreturned (hassigned.congr rfl rfl rfl rfl)
  | called i hcount hcurrent hnotified hthread hlowLatency hbufferSize hid hside =>
    refine .called i hcount hcurrent hnotified hthread hlowLatency hbufferSize hid ?_ ?_
    · intro e
      by_cases hed : e = d
      · subst hed
        simp only [Function.update_self]
        exact (hn ▸ hside e).of_stored
      · simpa only [Function.update_of_ne hed] using hside e
    · -- with both slots filled, the test would have passed
      intro hslot
      have hcomplete : s.complete = true := RdmaQueue.complete_of_pending hslot
      simp [hincomplete] at hcomplete
  | registering i e m hcount hcurrent hnotified hsession haccepting hbacklog hrests =>
    have hed : e ≠ d := by
      rintro rfl
      simp [hn] at haccepting
    refine .registering i e m hcount hcurrent hnotified hsession ?_ hbacklog
      ⟨hrests.1, hrests.2.update⟩
    exact (Function.update_of_ne hed _ _).trans haccepting

/-- A test that passes registers the handle of the current stream. -/
theorem test_complete (h : SessionsPaired streams s) (hn : s.accepting d = .stored n)
    (hslot : ∀ d, (s.pendingSession d).isSome) (hi : s.current = some i)
    (hthread : s.thread i = .returned) (useRxPolling : List ℕ) :
    SessionsPaired streams { s with
      useRxPolling
      accepting := Function.update s.accepting d (.registered n s.pendingHandle)
      current := none
      registered := s.pendingHandle :: s.registered } := by
  cases h.phase with
  | free _ hnone => simp [hnone] at hi
  | queueing j _ hj _ _ _ hreturned =>
    obtain rfl := Option.some.inj (hi.symm.trans hj)
    exact absurd hthread hreturned
  | registering _ _ _ _ hnone => simp [hnone] at hi
  | called j hcount hj hnotified _ hlowLatency hbufferSize hid hside =>
    obtain rfl := Option.some.inj (hi.symm.trans hj)
    -- both sessions are the stream's, so the pending handle is the stream's handle
    have hsides (e : Direction) := (hside e).of_slot (hslot e)
    have hhandle : s.pendingHandle = s.handle streams i := by
      rw [RdmaQueue.pendingHandle, RdmaQueue.handle, hid, hlowLatency, hbufferSize,
        (hsides .send).1, (hsides .receive).1]
    have hsome (e : Direction) : (s.session i e).isSome := (hsides e).1 ▸ hslot e
    obtain ⟨-, hbacklog, -, hstored⟩ := hsides d
    obtain ⟨-, hbacklogOther, hrestsOther, -⟩ := hsides d.other
    rw [hhandle]
    refine ⟨?_, h.session_lt, h.injective, h.connected, ?_, ?_, ?_⟩
    · refine .registering i d n hcount rfl ?_ (hstored n hn) ?_ hbacklog ⟨hbacklogOther, ?_⟩
      · exact congrArg _ hnotified
      · simp only [Function.update_self]
        rfl
      · simpa only [Function.update_of_ne d.other_ne] using hrestsOther
    · intro k hk _
      by_cases hki : i = k
      · subst hki
        exact ⟨hthread, hsome, List.mem_cons_self⟩
      · have hne : s.current ≠ some k := fun hcurrent =>
          hki (Option.some.inj (hi.symm.trans hcurrent))
        obtain ⟨hreturned, hsome, hmem⟩ := h.past k hk hne
        exact ⟨hreturned, hsome, List.mem_cons_of_mem _ hmem⟩
    · intro o ho
      rcases List.mem_cons.mp ho with rfl | ho
      · exact ⟨i, by simp, hsome, rfl⟩
      · obtain ⟨k, -, hsome, rfl⟩ := h.owns o ho
        exact ⟨k, by simp, hsome, rfl⟩
    · refine List.nodup_cons.mpr ⟨fun hmem => ?_, h.nodup⟩
      obtain ⟨k, hk, -, heq⟩ := h.owns _ hmem
      obtain rfl := h.eq_of_handle hsome heq
      exact hk hi

theorem notify (h : SessionsPaired streams s) (hstep : s.notify d = some s') :
    SessionsPaired streams s' := by
  obtain ⟨n, o, ho, rfl⟩ := RdmaQueue.notify_eq_some hstep
  refine h.frame ?_ rfl rfl rfl rfl rfl
  cases h.phase with
  | free _ _ _ hrests => exact absurd ho (hrests d).2.ne_registered
  | queueing _ _ _ _ hrests => exact absurd ho (hrests d).2.ne_registered
  | called _ _ _ _ _ _ _ _ hside => exact absurd ho (hside d).ne_registered
  | registering i e m hcount hcurrent hnotified _ haccepting hbacklog hrests =>
    -- only the accept thread that registered is at its notification
    rcases e.eq_or_eq_other d with rfl | rfl
    · obtain rfl : o = s.handle streams i := by
        rw [ho] at haccepting
        cases haccepting
        rfl
      refine .free ?_ hcurrent hnotified ?_
      · change s.rdmaConnectQueue.count + 1 = 1
        rw [hcount]
      · intro f
        rcases d.eq_or_eq_other f with rfl | rfl
        · refine ⟨hbacklog, ?_⟩
          simp only [Function.update_self]
          exact .inl rfl
        · exact ⟨hrests.1, hrests.2.update⟩
    · exact absurd ho hrests.2.ne_registered

/-- While the semaphore is up, every call that has passed it has led to a registration. -/
theorem current_eq_none (h : SessionsPaired streams s) (hpos : 0 < s.rdmaConnectQueue.count) :
    s.current = none := by
  cases h.phase with
  | free _ hcurrent => exact hcurrent
  | queueing _ hcount => simp [hcount] at hpos
  | called _ hcount => simp [hcount] at hpos
  | registering _ _ _ hcount => simp [hcount] at hpos

/-- An accept thread that has a session in its hands has it for the call that has returned. -/
theorem called_of_accepted (h : SessionsPaired streams s) (hn : s.accepting d = .accepted n) :
    ∃ i, s.current = some i ∧ s.thread i = .returned := by
  cases h.phase with
  | free _ _ _ hrests => exact absurd hn (hrests d).2.ne_accepted
  | queueing _ _ _ _ hrests => exact absurd hn (hrests d).2.ne_accepted
  | called i _ hcurrent _ hthread => exact ⟨i, hcurrent, hthread⟩
  | registering i e m _ _ _ _ haccepting _ hrests =>
    rcases e.eq_or_eq_other d with rfl | rfl
    · simp [hn] at haccepting
    · exact absurd hn hrests.2.ne_accepted

/-- When an accept thread is at its notification, its call is not current any more. -/
theorem current_eq_none_of_registered (h : SessionsPaired streams s) {o : RdmaHandle}
    (ho : s.accepting d = .registered n o) : s.current = none := by
  cases h.phase with
  | free _ hcurrent => exact hcurrent
  | queueing _ _ _ _ hrests => exact absurd ho (hrests d).2.ne_registered
  | called _ _ _ _ _ _ _ _ hside => exact absurd ho (hside d).ne_registered
  | registering _ _ _ _ hcurrent => exact hcurrent

section Threads

variable [DecidableEq ι]

theorem wait (h : SessionsPaired streams s) (hstep : s.wait i = some s') :
    SessionsPaired streams s' := by
  obtain ⟨hidle, hpos, q, hq, rfl⟩ := RdmaQueue.wait_eq_some hstep
  -- a thread that is past its call has not moved
  have hother {j : ι} (hj : s.thread j ≠ .idle) :
      (s.advance i .waited).thread j = s.thread j ∧ i ≠ j := by
    have hne : j ≠ i := by
      rintro rfl
      exact hj hidle
    exact ⟨RdmaQueue.thread_advance_ne _ _ hne, hne.symm⟩
  have hreturned {j : ι} (hsome : ∀ d, (s.session j d).isSome) : s.thread j ≠ .idle := by
    rw [h.connected j .send (hsome .send)]
    decide
  cases h.phase with
  | free hcount hcurrent hnotified hrests =>
    refine ⟨?_, h.session_lt, h.injective, ?_, ?_, ?_, h.nodup⟩
    · refine .queueing i ?_ rfl hnotified hrests ?_ ?_ ?_
      · change q.count = 0
        rw [hq, hcount]
      · rw [RdmaQueue.thread_advance_self]
        decide
      · rw [RdmaQueue.thread_advance_self]
        decide
      · rw [RdmaQueue.thread_advance_self]
        exact trivial
    · intro j d hsome
      have hthread := h.connected j d hsome
      exact (hother (by simp [hthread])).1.trans hthread
    · intro j hj hne
      have hne' : j ≠ i := fun hji => hne (congrArg some hji.symm)
      have hsame : (s.advance i .waited).thread j = s.thread j :=
        RdmaQueue.thread_advance_ne _ _ hne'
      obtain ⟨hthread, hpast⟩ := h.past j (hsame ▸ hj) (by simp [hcurrent])
      exact ⟨hsame.trans hthread, hpast⟩
    · intro o ho
      obtain ⟨j, -, hsome, rfl⟩ := h.owns o ho
      exact ⟨j, fun hij => (hother (hreturned hsome)).2 (Option.some.inj hij), hsome, rfl⟩
  -- in the other phases the semaphore is at zero, and the call does not return
  | queueing _ hcount => simp [hcount] at hpos
  | called _ hcount => simp [hcount] at hpos
  | registering _ _ _ hcount => simp [hcount] at hpos

/-- A thread in the middle of its call is that of the current stream. -/
theorem queueing (h : SessionsPaired streams s) (hidle : s.thread i ≠ .idle)
    (hreturned : s.thread i ≠ .returned) : s.rdmaConnectQueue.count = 0 ∧ s.current = some i ∧
      s.registered = s.notified ∧ (∀ d, s.backlog d = [] ∧ (s.accepting d).Rests) ∧
      SessionsAssigned (streams i) s (s.thread i) := by
  have hcurrent : s.current = some i := by
    by_contra hne
    exact hreturned (h.past i hidle hne).1
  cases h.phase with
  | free _ hnone => simp [hnone] at hcurrent
  | queueing j hcount hj hnotified hrests _ _ hassigned =>
    obtain rfl := Option.some.inj (hcurrent.symm.trans hj)
    exact ⟨hcount, hcurrent, hnotified, hrests, hassigned⟩
  | called j _ hj _ hthread =>
    obtain rfl := Option.some.inj (hcurrent.symm.trans hj)
    exact absurd hthread hreturned
  | registering _ _ _ _ hnone => simp [hnone] at hcurrent

theorem assign (h : SessionsPaired streams s) (hstep : s.assign streams i = some s') :
    SessionsPaired streams s' := by
  obtain ⟨hidle, hreturned, call, pendingSession, nextConnectLowLatency, nextConnectBufferSize,
    waitForConnection, nextConnectionId, hcall, rfl, hassign⟩ := RdmaQueue.assign_eq_some hstep
  obtain ⟨hcount, hcurrent, hnotified, hrests, hold⟩ := h.queueing hidle hreturned
  have hassigned := hassign hold
  -- no client has connected yet, as the id is only sent when the call has returned
  have hunopened (d : Direction) : s.session i d = none := by
    by_contra hsome
    exact hreturned (h.connected i d (Option.isSome_iff_ne_none.mpr hsome))
  refine ⟨?_, h.session_lt, h.injective, ?_, ?_, h.owns, h.nodup⟩
  -- the last assignment ends the call, the others leave the thread queueing
  · by_cases hlast : call = .returned
    · subst hlast
      obtain ⟨hpending, hlowLatency, hbufferSize, hid⟩ := hassigned
      refine .called i hcount hcurrent hnotified ?_ hlowLatency hbufferSize hid ?_ ?_
      · exact RdmaQueue.thread_advance_self _ _
      · intro d
        exact .unopened (hunopened d) (hpending d) (hrests d).1 (hrests d).2
      · intro hslot
        have hsome := hslot .send
        rw [hpending .send] at hsome
        cases hsome
    · refine .queueing i hcount hcurrent hnotified hrests ?_ ?_ ?_
      · rwa [RdmaQueue.thread_advance_self]
      · rwa [RdmaQueue.thread_advance_self]
      · rwa [RdmaQueue.thread_advance_self]
  · intro j d hsome
    have hji : j ≠ i := by
      rintro rfl
      have hnone : (s.session j d).isSome = true := hsome
      rw [hunopened d] at hnone
      cases hnone
    exact (RdmaQueue.thread_advance_ne _ _ hji).trans (h.connected j d hsome)
  · intro j hj hne
    have hji : j ≠ i := fun hji => hne (hji ▸ hcurrent)
    rw [RdmaQueue.thread_advance_ne _ _ hji] at hj
    obtain ⟨hthread, hpast⟩ := h.past j hj hne
    exact ⟨(RdmaQueue.thread_advance_ne _ _ hji).trans hthread, hpast⟩

theorem connect (h : SessionsPaired streams s) (hstep : s.connect i d = some s') :
    SessionsPaired streams s' := by
  obtain ⟨hthread, hnone, rfl⟩ := RdmaQueue.connect_eq_some hstep
  -- a stream that is not current has both sessions already
  have hcurrent : s.current = some i := by
    by_contra hne
    have hsome := (h.past i (by simp [hthread]) hne).2.1 d
    simp [hnone] at hsome
  have hother {j : ι} (hji : j ≠ i) : Function.update s.session i
      (Function.update (s.session i) d (some s.nextSession)) j = s.session j :=
    Function.update_of_ne hji _ _
  have hself (e : Direction) : Function.update s.session i
      (Function.update (s.session i) d (some s.nextSession)) i e =
        Function.update (s.session i) d (some s.nextSession) e :=
    congrFun (Function.update_self _ _ _) e
  -- a session is the new one, or it was open before
  have hcases {j : ι} {e : Direction} {n : ℕ} (hn : Function.update s.session i
      (Function.update (s.session i) d (some s.nextSession)) j e = some n) :
      (j = i ∧ e = d ∧ n = s.nextSession) ∨ s.session j e = some n := by
    by_cases hji : j = i
    · subst hji
      rw [hself] at hn
      rcases update_some_eq_some_iff.mp hn with ⟨rfl, rfl⟩ | ⟨-, hold⟩
      · exact .inl ⟨rfl, rfl, rfl⟩
      · exact .inr hold
    · rw [hother hji] at hn
      exact .inr hn
  refine ⟨?_, ?_, ?_, ?_, ?_, ?_, h.nodup⟩
  · cases h.phase with
    | free _ hfree => simp [hfree] at hcurrent
    | queueing j _ hj _ _ _ hreturned =>
      obtain rfl := Option.some.inj (hcurrent.symm.trans hj)
      exact absurd hthread hreturned
    | registering _ _ _ _ hfree => simp [hfree] at hcurrent
    | called j hcount hj hnotified _ hlowLatency hbufferSize hid hside huntested =>
      obtain rfl := Option.some.inj (hcurrent.symm.trans hj)
      obtain ⟨hslot, hbacklog, hrests⟩ := (hnone ▸ hside d).of_unopened
      refine .called i hcount hcurrent hnotified hthread hlowLatency hbufferSize hid ?_ ?_
      · intro e
        by_cases hed : e = d
        · subst hed
          refine .opened s.nextSession ?_ hslot ?_ hrests
          · exact (hself e).trans (Function.update_self _ _ _)
          · simp only [Function.update_self, hbacklog, List.nil_append]
        · have hsession := (hself e).trans (Function.update_of_ne hed _ _)
          have hqueue := Function.update_of_ne hed (s.backlog d ++ [s.nextSession]) s.backlog
          dsimp only
          rw [hsession, hqueue]
          exact hside e
      · intro hfull
        have hempty := hfull d
        rw [hslot] at hempty
        cases hempty
  · intro j e n hn
    rcases hcases hn with ⟨-, -, rfl⟩ | hn
    · exact Nat.lt_succ_self _
    · exact Nat.lt_succ_of_lt (h.session_lt j e n hn)
  -- the new session is different from all that were open
  · intro j k e f n hn hm
    rcases hcases hn with ⟨rfl, rfl, rfl⟩ | hold
    · rcases hcases hm with ⟨rfl, rfl, -⟩ | hold
      · exact ⟨rfl, rfl⟩
      · exact absurd (h.session_lt k f _ hold) (Nat.lt_irrefl _)
    · rcases hcases hm with ⟨rfl, rfl, rfl⟩ | hold'
      · exact absurd (h.session_lt j e _ hold) (Nat.lt_irrefl _)
      · exact h.injective j k e f n hold hold'
  · intro j e hsome
    obtain ⟨n, hn⟩ := Option.isSome_iff_exists.mp hsome
    rcases hcases hn with ⟨rfl, -, -⟩ | hn
    · exact hthread
    · exact h.connected j e (by simp [hn])
  · intro j hj hne
    have hji : j ≠ i := fun hji => hne (hji ▸ hcurrent)
    obtain ⟨hreturned, hsome, hmem⟩ := h.past j hj hne
    refine ⟨hreturned, ?_, ?_⟩
    · intro e
      dsimp only
      rw [hother hji]
      exact hsome e
    · rw [RdmaQueue.handle_congr (hother hji)]
      exact hmem
  · intro o ho
    obtain ⟨j, hne, hsome, rfl⟩ := h.owns o ho
    have hji : j ≠ i := fun hji => hne (hji ▸ hcurrent)
    refine ⟨j, hne, fun e => ?_, (RdmaQueue.handle_congr (hother hji)).symm⟩
    dsimp only
    rw [hother hji]
    exact hsome e

/-- Every step that meets the condition keeps the sessions with their call. -/
theorem next (h : SessionsPaired streams s) {a : RdmaQueueStep ι} (hok : CompletesWithBoth s a)
    (hstep : (rdmaQueue streams).next s a = some s') : SessionsPaired streams s' := by
  cases a with
  | wait i => exact h.wait hstep
  | assign i => exact h.assign hstep
  | connect i d => exact h.connect hstep
  | accept d k => exact h.accept hstep
  | store d => exact h.store hstep
  | test d =>
    obtain ⟨n, hn, ⟨hincomplete, rfl⟩ | ⟨hcomplete, useRxPolling, rfl⟩⟩ :=
      RdmaQueue.test_eq_some hstep
    · exact h.test_incomplete hn hincomplete
    · obtain ⟨hslot, i, hi, hthread⟩ := hok hcomplete
      exact h.test_complete hn hslot hi hthread useRxPolling
  | notify d => exact h.notify hstep

/-- A test that passes otherwise breaks the promise at once. -/
theorem completesWithBoth_of_pairsSessions (h : SessionsPaired streams s) {a : RdmaQueueStep ι}
    (hstep : (rdmaQueue streams).next s a = some s') (hpairs : PairsSessions streams s') :
    CompletesWithBoth s a := by
  cases a with
  | test d =>
    intro hcomplete
    obtain ⟨n, hn, ⟨hincomplete, -⟩ | ⟨-, useRxPolling, rfl⟩⟩ := RdmaQueue.test_eq_some hstep
    · simp [hcomplete] at hincomplete
    · obtain ⟨j, hsome, heq⟩ := hpairs.owns _ List.mem_cons_self
      have heq : s.pendingHandle = s.handle streams j := heq
      have hslot (e : Direction) : s.pendingSession e = s.session j e := by
        cases e with
        | receive => exact congrArg RdmaHandle.connectedReadSession heq
        | send => exact congrArg RdmaHandle.connectedWriteSession heq
      have hthread := h.connected j .send (hsome .send)
      refine ⟨fun e => hslot e ▸ hsome e, j, ?_, hthread⟩
      by_contra hne
      have hmem := (h.past j (by simp [hthread]) hne).2.2
      have honce : (s.pendingHandle :: s.registered).count (s.handle streams j) ≤ 1 :=
        (hpairs.atMostOnce j).1
      have hpos := List.count_pos_iff.mpr hmem
      rw [heq, List.count_cons_self] at honce
      omega
  | _ => exact trivial

end Threads

theorem pairsSessions (h : SessionsPaired streams s) : PairsSessions streams s := by
  refine ⟨?_, ?_, fun i => ⟨?_, ?_⟩, ?_⟩
  · intro o ho
    obtain ⟨i, -, hsome, rfl⟩ := h.owns o ho
    exact ⟨i, hsome, rfl⟩
  · intro o ho o' ho' d e heq
    obtain ⟨i, -, hsome, rfl⟩ := h.owns o ho
    obtain ⟨j, -, -, rfl⟩ := h.owns o' ho'
    rw [RdmaQueue.connected_handle, RdmaQueue.connected_handle] at heq
    obtain ⟨n, hn⟩ := Option.isSome_iff_exists.mp (hsome d)
    obtain ⟨rfl, rfl⟩ := h.injective i j d e n hn (heq.symm.trans hn)
    exact ⟨rfl, rfl⟩
  · exact List.nodup_iff_count_le_one.mp h.nodup _
  · exact List.nodup_iff_count_le_one.mp h.nodup_notified _
  · intro i hi
    obtain ⟨hregistered, hnotified⟩ := h.mem_notified hi
    exact ⟨List.count_eq_one_of_mem h.nodup hregistered,
      List.count_eq_one_of_mem h.nodup_notified hnotified⟩

end SessionsPaired

/-! ### Stores in turn -/

/-- What an accept thread finds that has stored its session and not tested: the other thread is not
at that point, the call has led to no registration, and a test passes with both sessions only. -/
structure StoredInTurn (s : RdmaQueue ι) (d : Direction) : Prop where
  other : ∀ n, s.accepting d.other ≠ .stored n
  call : ∃ i, s.current = some i ∧ s.thread i = .returned
  slot : (s.pendingSession d).isSome
  waits : s.waitForConnection d.other = true ∨ (s.pendingSession d.other).isSome

/-- The sessions are paired, and whoever has stored has done so in turn. It is an invariant of
the runs in which sessions are stored in turn. -/
structure TakesTurns (streams : ι → RdmaStream) (s : RdmaQueue ι) : Prop
    extends SessionsPaired streams s where
  stored : ∀ d n, s.accepting d = .stored n → StoredInTurn s d

namespace TakesTurns

/-- Nobody has stored while no call is current that has returned. -/
theorem not_stored (h : TakesTurns streams s)
    (hcurrent : ∀ i, s.current = some i → s.thread i ≠ .returned) :
    s.accepting d ≠ .stored n := by
  intro hn
  obtain ⟨i, hi, hthread⟩ := (h.stored d n hn).call
  exact hcurrent i hi hthread

/-- A thread that goes on from its test leaves nobody behind that has stored. -/
theorem not_stored_update (h : TakesTurns streams s) (hn : s.accepting d = .stored n)
    {a : RdmaAcceptThread} (ha : ∀ m, a ≠ .stored m) :
    Function.update s.accepting d a e ≠ .stored m := by
  rcases d.eq_or_eq_other e with rfl | rfl
  · rw [Function.update_self]
    exact ha m
  · rw [Function.update_of_ne d.other_ne]
    exact (h.stored d n hn).other m

/-- A step after which only threads have stored that had before, with the same call, slots and
flags. -/
theorem frame (h : TakesTurns streams s) (hpaired : SessionsPaired streams s')
    (haccepting : ∀ d n, s'.accepting d = .stored n → s.accepting d = .stored n)
    (hcurrent : s'.current = s.current) (hthread : s'.thread = s.thread)
    (hpending : s'.pendingSession = s.pendingSession)
    (hwait : s'.waitForConnection = s.waitForConnection) : TakesTurns streams s' := by
  refine ⟨hpaired, fun d n hn => ?_⟩
  obtain ⟨hother, hcall, hslot, hwaits⟩ := h.stored d n (haccepting d n hn)
  refine ⟨fun m hm => hother m (haccepting _ m hm), ?_, ?_, ?_⟩
  · rwa [hcurrent, hthread]
  · rwa [hpending]
  · rwa [hwait, hpending]

theorem store (h : TakesTurns streams s) (hpaired : SessionsPaired streams s')
    (hturn : (∀ n, s.accepting d.other ≠ .stored n) ∧
      (s.waitForConnection d.other = true ∨ (s.pendingSession d.other).isSome))
    (hstep : s.store d = some s') : TakesTurns streams s' := by
  obtain ⟨n, hn, rfl⟩ := RdmaQueue.store_eq_some hstep
  refine ⟨hpaired, fun e m hm => ?_⟩
  rcases d.eq_or_eq_other e with rfl | rfl
  · refine ⟨fun k hk => ?_, h.called_of_accepted hn, ?_, ?_⟩
    · exact hturn.1 k ((Function.update_of_ne e.other_ne _ _).symm.trans hk)
    · simp only [Function.update_self, Option.isSome_some]
    · simpa only [Function.update_of_ne e.other_ne] using hturn.2
  · exact absurd ((Function.update_of_ne d.other_ne _ _).symm.trans hm) (hturn.1 m)

variable [DecidableEq ι]

/-- A test that passes finds both sessions, for a call that has led to no registration. -/
theorem completesWithBoth (h : TakesTurns streams s) {a : RdmaQueueStep ι}
    (hstep : (rdmaQueue streams).next s a = some s') : CompletesWithBoth s a := by
  cases a with
  | test d =>
    intro hcomplete
    obtain ⟨n, hn, -⟩ := RdmaQueue.test_eq_some hstep
    obtain ⟨-, hcall, hslot, hwaits⟩ := h.stored d n hn
    have hother := RdmaQueue.complete_iff.mp hcomplete d.other
    refine ⟨fun e => ?_, hcall⟩
    rcases d.eq_or_eq_other e with rfl | rfl
    · exact hslot
    · rcases hwaits with hwaits | hsome
      · exact hother.resolve_right (by simp [hwaits])
      · exact hsome
  | _ => exact trivial

/-- Every store in turn, and every other step, keeps the threads taking turns. -/
theorem next (h : TakesTurns streams s) {a : RdmaQueueStep ι} (hok : StoresInTurn s a)
    (hstep : (rdmaQueue streams).next s a = some s') : TakesTurns streams s' := by
  have hpaired : SessionsPaired streams s' :=
    h.toSessionsPaired.next (h.completesWithBoth hstep) hstep
  cases a with
  | wait i =>
    obtain ⟨-, hpos, q, -, rfl⟩ := RdmaQueue.wait_eq_some hstep
    have hnone := h.current_eq_none hpos
    exact ⟨hpaired, fun d n hn => absurd hn (h.not_stored (by simp [hnone]))⟩
  | assign i =>
    obtain ⟨hidle, hreturned, call, _, _, _, _, _, -, rfl, -⟩ := RdmaQueue.assign_eq_some hstep
    obtain ⟨-, hcurrent, -⟩ := h.queueing hidle hreturned
    refine ⟨hpaired, fun d n hn => absurd hn (h.not_stored fun j hj => ?_)⟩
    obtain rfl : i = j := Option.some.inj (hcurrent.symm.trans hj)
    exact hreturned
  | connect i d =>
    obtain ⟨-, -, rfl⟩ := RdmaQueue.connect_eq_some hstep
    exact h.frame hpaired (fun _ _ hn => hn) rfl rfl rfl rfl
  | accept d k =>
    obtain ⟨hidle, m, -, rfl⟩ := RdmaQueue.accept_eq_some hstep
    refine h.frame hpaired (fun e n hn => ?_) rfl rfl rfl rfl
    have hed : e ≠ d := by
      rintro rfl
      simp at hn
    exact (Function.update_of_ne hed _ _).symm.trans hn
  | store d => exact h.store hpaired hok hstep
  | test d =>
    obtain ⟨n, hn, ⟨-, rfl⟩ | ⟨-, _, rfl⟩⟩ := RdmaQueue.test_eq_some hstep
    · exact ⟨hpaired, fun e m hm => absurd hm (h.not_stored_update hn (by simp))⟩
    · exact ⟨hpaired, fun e m hm => absurd hm (h.not_stored_update hn (by simp))⟩
  | notify d =>
    obtain ⟨n, o, ho, rfl⟩ := RdmaQueue.notify_eq_some hstep
    have hnone := h.current_eq_none_of_registered ho
    refine ⟨hpaired, fun e m hm => ?_⟩
    have hed : e ≠ d := by
      rintro rfl
      simp at hm
    exact absurd ((Function.update_of_ne hed _ _).symm.trans hm) (h.not_stored (by simp [hnone]))

end TakesTurns

/-! ### Runs -/

section Runs

variable [DecidableEq ι]

theorem takesTurns_of_reachable (hs : (rdmaQueue streams).Reachable StoresInTurn s) :
    TakesTurns streams s := by
  refine hs.invariant (fun s hinit => ?_) fun s a s' h hok hstep => h.next hok hstep
  obtain rfl : s = {} := hinit
  refine ⟨⟨.free rfl rfl rfl fun d => ⟨rfl, .inl rfl⟩, ?_, ?_, ?_, fun i hi => absurd rfl hi, ?_,
    List.nodup_nil⟩, ?_⟩
  · intro i d n hn
    cases hn
  · intro i j d e n hn
    cases hn
  · intro i d hsome
    cases hsome
  · intro o ho
    cases ho
  · intro d n hn
    cases hn

/-- **RDMA session pairing**, in every run that stores the sessions in turn. Nothing is asked of
the tests: that they pass with both sessions is what storing in turn leads to. -/
theorem pairsSessions_of_reachable (hs : (rdmaQueue streams).Reachable StoresInTurn s) :
    PairsSessions streams s :=
  (takesTurns_of_reachable hs).pairsSessions

/-- A test that passes with one session only, or for a call that has led to a registration. -/
theorem SessionsPaired.breaks_of_test (h : SessionsPaired streams s)
    (hn : s.accepting d = .stored n) (hcomplete : s.complete = true)
    (hnot : (∃ e, s.pendingSession e = none) ∨ s.current = none) :
    ∃ t, (rdmaQueue streams).exec s [.test d] = some t ∧ ¬ PairsSessions streams t := by
  obtain ⟨t, ht, -⟩ := RdmaQueue.test_of_stored hn hcomplete
  have hstep : (rdmaQueue streams).next s (.test d) = some t := ht
  refine ⟨t, ?_, fun hpairs => ?_⟩
  · rw [Machine.exec, hstep]
    rfl
  · obtain ⟨hslot, i, hi, -⟩ := h.completesWithBoth_of_pairsSessions hstep hpairs hcomplete
    rcases hnot with ⟨e, he⟩ | hnone
    · simpa [he] using hslot e
    · simp [hnone] at hi

/-- Two threads that have both stored: both tests pass, for one call. -/
theorem SessionsPaired.breaks_of_stored (h : SessionsPaired streams s)
    (hn : s.accepting d = .stored n) (hm : s.accepting d.other = .stored m)
    (hslot : ∀ e, (s.pendingSession e).isSome)
    (hcall : ∃ i, s.current = some i ∧ s.thread i = .returned) :
    ∃ as t, (rdmaQueue streams).exec s as = some t ∧ ¬ PairsSessions streams t := by
  obtain ⟨s', htest, hcurrent, hpending, haccepting⟩ :=
    RdmaQueue.test_of_stored hm (RdmaQueue.complete_of_pending hslot)
  have hstep : (rdmaQueue streams).next s (.test d.other) = some s' := htest
  have h' : SessionsPaired streams s' := h.next (a := .test d.other) (fun _ => ⟨hslot, hcall⟩) hstep
  have hn' : s'.accepting d = .stored n := (haccepting d d.other_ne.symm).trans hn
  have hslot' : ∀ e, (s'.pendingSession e).isSome := by rwa [hpending]
  obtain ⟨t, ht, hbreaks⟩ :=
    h'.breaks_of_test hn' (RdmaQueue.complete_of_pending hslot') (.inr hcurrent)
  refine ⟨[.test d.other, .test d], t, ?_, hbreaks⟩
  rw [Machine.exec, hstep]
  exact ht

/-- **No store out of turn is harmless**: after it, the tests alone can break the promise. -/
theorem breaks_of_not_storesInTurn (hs : (rdmaQueue streams).Reachable StoresInTurn s)
    {a : RdmaQueueStep ι} (hok : ¬ StoresInTurn s a)
    (hstep : (rdmaQueue streams).next s a = some s') :
    ∃ as t, (rdmaQueue streams).exec s' as = some t ∧ ¬ PairsSessions streams t := by
  have h := takesTurns_of_reachable hs
  cases a with
  | store d =>
    have h' : SessionsPaired streams s' := h.toSessionsPaired.store hstep
    obtain ⟨n, hn, rfl⟩ := RdmaQueue.store_eq_some hstep
    have hstored : Function.update s.accepting d (.stored n) d = .stored n :=
      Function.update_self _ _ _
    have hother : Function.update s.accepting d (.stored n) d.other = s.accepting d.other :=
      Function.update_of_ne d.other_ne _ _
    have hpending : Function.update s.pendingSession d (some n) d.other =
        s.pendingSession d.other := Function.update_of_ne d.other_ne _ _
    by_cases hm : ∃ m, s.accepting d.other = .stored m
    · obtain ⟨m, hm⟩ := hm
      refine h'.breaks_of_stored hstored (hother.trans hm) (fun e => ?_) (h.called_of_accepted hn)
      rcases d.eq_or_eq_other e with rfl | rfl
      · simp only [Function.update_self, Option.isSome_some]
      · dsimp only
        rw [hpending]
        exact (h.stored d.other m hm).slot
    -- the call does not wait for the other session, which is not there
    · have hout : ¬ (s.waitForConnection d.other = true ∨ (s.pendingSession d.other).isSome) :=
        fun hturn => hok ⟨fun m => not_exists.mp hm m, hturn⟩
      rw [not_or, Bool.not_eq_true, Option.not_isSome_iff_eq_none] at hout
      refine ⟨[.test d], h'.breaks_of_test hstored (RdmaQueue.complete_iff.mpr fun e => ?_)
        (.inl ⟨d.other, hpending.trans hout.2⟩)⟩
      rcases d.eq_or_eq_other e with rfl | rfl
      · simp only [Function.update_self, Option.isSome_some, true_or]
      · exact .inr hout.1
  | _ => exact absurd trivial hok

end Runs

/-- The two streams of the runs below, as `BeginSidebandStream` queues them. -/
def twoRdmaStreams (i : Bool) : RdmaStream where
  strategy := if i then .rdmaLowLatency else .rdma
  id := connectionId (if i then 1 else 2)
  waitFor _ := true
  bufferSize := 8

/-- The session that an accept thread has stored and not tested. -/
def RdmaAcceptThread.stored? : RdmaAcceptThread → Option ℕ
  | .stored n => some n
  | _ => none

/-- A queue call from the wait to the return. -/
def queueCall (i : Bool) : List (RdmaQueueStep Bool) := .wait i :: List.replicate 7 (.assign i)

/-- Two streams, the sessions of each arriving one after the other. -/
theorem pairsSessions_of_reachable_twoRdmaStreams : ∃ s : RdmaQueue Bool,
    (rdmaQueue twoRdmaStreams).Reachable StoresInTurn s ∧ s.registered.length = 2 ∧
    PairsSessions twoRdmaStreams s := by
  have hexec : ((rdmaQueue twoRdmaStreams).execWhile
      (fun s => fun
        | .store d => (s.accepting d.other).stored?.isNone && (s.waitForConnection d.other ||
            (s.pendingSession d.other).isSome)
        | _ => true) {}
      (queueCall true ++ [.connect true .send, .connect true .receive, .accept .receive 0,
        .store .receive, .test .receive, .accept .send 0, .store .send, .test .send,
        .notify .send] ++ queueCall false ++ [.connect false .send, .accept .send 0,
        .store .send, .connect false .receive, .accept .receive 0, .test .send, .store .receive,
        .test .receive, .notify .receive])).map (fun s => s.registered.length) = some 2 := by
    decide +kernel
  obtain ⟨s, hs, hlength⟩ := Option.map_eq_some_iff.mp hexec
  have hrun : (rdmaQueue twoRdmaStreams).Reachable StoresInTurn s := by
    refine (Machine.Reachable.init rfl).execWhile ?_ hs
    intro s a _ hp
    cases a with
    | store d =>
      obtain ⟨hother, hwaits⟩ := Bool.and_eq_true_iff.mp hp
      refine ⟨fun n hn => ?_, Bool.or_eq_true_iff.mp hwaits⟩
      simp [hn, RdmaAcceptThread.stored?] at hother
    | _ => exact trivial
  exact ⟨s, hrun, hlength, pairsSessions_of_reachable hrun⟩

/-- Both accept threads store before either tests: the handle is registered twice. -/
theorem not_pairsSessions_overlap : ¬ ∀ s : RdmaQueue Bool,
    (rdmaQueue twoRdmaStreams).Reachable Anything s → PairsSessions twoRdmaStreams s := by
  intro h
  have hexec : ((rdmaQueue twoRdmaStreams).exec {}
      (queueCall true ++ [.connect true .send, .connect true .receive, .accept .receive 0,
        .accept .send 0, .store .receive, .store .send, .test .receive, .test .send])).map
      (fun s => s.registered.count (s.handle twoRdmaStreams true)) = some 2 := by
    decide +kernel
  obtain ⟨s, hs, hcount⟩ := Option.map_eq_some_iff.mp hexec
  have honce := ((h s (Machine.exec_reachable rfl hs)).atMostOnce true).1
  rw [hcount] at honce
  exact absurd honce (by decide)

end Sideband
