import Mathlib.Data.Fintype.Card
import Sideband.Foundation.Machine
import Sideband.Rdma.Calls

/-!
# Receive regions across complete receives

A message is received by `Read` with a buffer, by `ReadLengthPrefix` and `ReadFromLengthPrefixed`,
or by one of the two `BeginDirectRead`s and `FinishDirectRead`. Each of these acquires the region of
the oldest message; all but the second release it.

* `givenBack_iff`: over a run of complete receives in which every easyrdma call succeeds, each
  region is released exactly once and none is held in between, exactly when no receive of the run is
  by `ReadLengthPrefix`.
* `ReceiveCounts`: what any run does to the session. The handle keeps one region for each receive by
  `ReadLengthPrefix`, so there are two of these at most (`kept_le_two`).
-/

namespace Sideband

open Foundation

/-- A message received from start to end, by one of the four ways in which the methods can be
called. Whether the caller's buffer is large enough is open. -/
inductive RdmaReceive
  /-- `Read` with a buffer. -/
  | read (bytes : Bytes) (bufferSize : ℤ)
  /-- `ReadLengthPrefix`, and `ReadFromLengthPrefixed`. -/
  | lengthPrefixed (bytes : Bytes) (bufferSize : ℤ)
  /-- `BeginDirectRead`, and `FinishDirectRead`. -/
  | direct (byteCount : ℤ)
  /-- `BeginDirectReadLengthPrefixed`, and `FinishDirectRead`. -/
  | directLengthPrefixed
  deriving DecidableEq

/-- The region stays held. -/
def RdmaReceive.keeps : RdmaReceive → Bool
  | .lengthPrefixed _ _ => true
  | _ => false

namespace ReceiveSession

variable {size : ℕ} {s : ReceiveSession size} {e : Filled} {rest : List Filled} {r : Fin 2}

/-- Every call on the session succeeds: no result that is scripted is a failure or a timeout. -/
def Succeeds (s : ReceiveSession size) : Prop := ∀ result ∈ s.results, result = .success

theorem Succeeds.answered (h : s.Succeeds) : s.answered.Succeeds :=
  fun result hresult => h result (List.mem_of_mem_tail hresult)

theorem Succeeds.headD (h : s.Succeeds) : s.results.headD .success = .success := by
  cases hresults : s.results with
  | nil => rfl
  | cons result results => exact h result (hresults ▸ List.mem_cons_self)

theorem Succeeds.run_nextResult (h : s.Succeeds) :
    nextResult.run s = .ok (.success, s.answered) := by
  change Except.ok (s.results.headD .success, s.answered) = _
  rw [h.headD]

theorem Succeeds.run_releaseReceivedBufferRegion (h : s.Succeeds)
    (hr : r ∈ s.held.map Filled.region) (n : ℕ) :
    (releaseReceivedBufferRegion ⟨.into (.receiveRegion r) 0, n⟩).run s =
      .ok (.success, s.answered.release r) := by
  rw [releaseReceivedBufferRegion, Exec.run_bind_ok h.run_nextResult]
  simp only
  rw [Exec.run_bind_ok (Exec.run_get s.answered)]
  exact (congrArg (StateT.run · s.answered) (if_pos hr)).trans rfl

/-- Releasing the region that was acquired last leaves the others held. -/
theorem held_release_acquire (h : s.delivered = e :: rest) :
    (s.acquire.release e.region).held = s.held := by
  have hdistinct := s.distinct
  rw [h, List.map_append, List.map_cons] at hdistinct
  have hother : ∀ e' ∈ s.held, e'.region ≠ e.region := by
    intro e' he' heq
    have hdisjoint := List.disjoint_of_nodup_append hdistinct
    exact hdisjoint (List.mem_map_of_mem he') (heq ▸ List.mem_cons_self)
  change s.acquire.held.filter (fun e' => e'.region ≠ e.region) = s.held
  rw [held_acquire h, List.filter_append, List.filter_eq_self.mpr fun e' he' =>
    decide_eq_true (hother e' he')]
  simp

end ReceiveSession

namespace RdmaSidebandDataImp

variable {size : ℕ} {h h' : RdmaSidebandDataImp size} {e : Filled} {rest : List Filled} {r : Fin 2}

/-- Receive a message, by one of the four ways that the interface has. The caller's reads through
a pointer in between change nothing. -/
def receive : RdmaReceive → Exec (RdmaSidebandDataImp size) Unit
  | .read bytes bufferSize => do
    let _ ← read (some bytes) bufferSize
  | .lengthPrefixed bytes bufferSize => do
    let _ ← readLengthPrefix
    let _ ← readFromLengthPrefixed (some bytes) bufferSize
  | .direct byteCount => do
    let _ ← beginDirectRead byteCount
    let _ ← finishDirectRead
  | .directLengthPrefixed => do
    let _ ← beginDirectReadLengthPrefixed
    let _ ← finishDirectRead

/-- The handle after the result of a call on its read session is known. -/
def readAnswered (h : RdmaSidebandDataImp size) : RdmaSidebandDataImp size :=
  { h with connectedReadSession := h.connectedReadSession.answered }

/-- The handle after it acquired the region of the oldest message. -/
def taken (e : Filled) (h : RdmaSidebandDataImp size) : RdmaSidebandDataImp size :=
  h.readAnswered.received e

/-- The handle after it acquired and released the region of the oldest message. -/
def gaveBack (e : Filled) (h : RdmaSidebandDataImp size) : RdmaSidebandDataImp size :=
  (h.taken e).readAnswered.released e.region

theorem session_taken (hdelivered : h.connectedReadSession.delivered = e :: rest) :
    (h.taken e).connectedReadSession.delivered = rest ∧
      (h.taken e).connectedReadSession.held = h.connectedReadSession.held ++ [e] ∧
      (h.taken e).connectedReadSession.results = h.connectedReadSession.results.drop 1 := by
  have hdelivered' : h.connectedReadSession.answered.delivered = e :: rest := hdelivered
  exact ⟨ReceiveSession.delivered_acquire hdelivered', ReceiveSession.held_acquire hdelivered',
    ReceiveSession.results_acquire.trans List.drop_one.symm⟩

theorem session_gaveBack (hdelivered : h.connectedReadSession.delivered = e :: rest) :
    (h.gaveBack e).connectedReadSession.delivered = rest ∧
      (h.gaveBack e).connectedReadSession.held = h.connectedReadSession.held ∧
      (h.gaveBack e).connectedReadSession.results = h.connectedReadSession.results.drop 2 := by
  have hdelivered' : h.connectedReadSession.answered.delivered = e :: rest := hdelivered
  obtain ⟨hrest, -, hresults⟩ := session_taken hdelivered
  refine ⟨hrest, ReceiveSession.held_release_acquire hdelivered', ?_⟩
  change (h.taken e).connectedReadSession.results.tail = _
  rw [hresults, List.tail_drop]

/-- A load changes nothing. -/
theorem load_state {p : Pointer} {n : ℕ} {bytes : Bytes}
    (hrun : (load p n).run h = .ok (bytes, h')) : h' = h := by
  by_cases hn : n = 0
  · subst hn
    cases hrun
    rfl
  · match p with
    | .into (.sendRegion r) offset =>
      rw [load, if_neg hn, Exec.run_bind_ok (Exec.run_get h)] at hrun
      exact (Exec.run_checked_eq_ok_iff.mp hrun).2
    | .into (.receiveRegion r) offset =>
      rw [load, if_neg hn, Exec.run_bind_ok (Exec.run_get h)] at hrun
      exact (Exec.run_checked_eq_ok_iff.mp hrun).2
    | .null | .invalid | .into (.segment _) _ =>
      simp only [load, if_neg hn] at hrun
      cases hrun

/-- An acquire that returns has not succeeded, or it has taken the oldest message. -/
theorem acquireReceivedRegion_cases {result : EasyRdmaResult}
    (hrun : acquireReceivedRegion.run h = .ok (result, h')) :
    result = h.connectedReadSession.results.headD .success ∧
      (result ≠ .success ∧ h' = h.readAnswered ∨
        result = .success ∧ ∃ e rest, h.connectedReadSession.delivered = e :: rest ∧
          h' = h.taken e) := by
  obtain ⟨⟨result', region⟩, t, hcall, hrest⟩ := Exec.run_bind_eq_ok_iff.mp hrun
  obtain ⟨session, hsession, rfl⟩ := Exec.run_zoom_eq_ok_iff.mp hcall
  obtain ⟨hhead, hcases⟩ := ReceiveSession.of_run_acquireReceivedRegion hsession
  rcases hcases with ⟨hne, hnone, rfl⟩ | ⟨e, rest, hdelivered, rfl, hanswer⟩
  · obtain rfl : region = none := hnone
    cases hrest
    exact ⟨hhead, .inl ⟨hne, rfl⟩⟩
  · cases hanswer
    cases hrest
    exact ⟨hhead, .inr ⟨rfl, e, rest, hdelivered, rfl⟩⟩

/-- The loop of `Read` takes the region of the oldest message, or waits for one. -/
theorem acquireLoop_eq_ok {h₀ : RdmaSidebandDataImp size} {result : EasyRdmaResult}
    (hsuccess : h.connectedReadSession.Succeeds) (hh₀ : h₀ = { h with readBuffer := {} })
    (hrun : (acquireLoop h₀.connectedReadSession.results).run h₀ = .ok (result, h')) :
    ∃ e rest, h.connectedReadSession.delivered = e :: rest ∧ result = .success ∧
      h' = h.taken e := by
  subst hh₀
  have hhead : h.connectedReadSession.results.headD .success = .success := hsuccess.headD
  have hloop : (acquireLoop h.connectedReadSession.results :
      Exec (RdmaSidebandDataImp size) EasyRdmaResult) = acquireReceivedRegion := by
    cases hresults : h.connectedReadSession.results with
    | nil => rfl
    | cons result results =>
      rw [hresults, List.headD_cons] at hhead
      rw [hhead]
      rfl
  rw [hloop] at hrun
  obtain ⟨hresult, ⟨hne, -⟩ | ⟨rfl, e, rest, hdelivered, rfl⟩⟩ := acquireReceivedRegion_cases hrun
  · exact absurd (hresult.trans hhead) hne
  · exact ⟨e, rest, hdelivered, rfl, rfl⟩

/-- Without a buffer, `Read` holds the region it took. -/
theorem read_none_eq_ok {result : ReadResult} (hsuccess : h.connectedReadSession.Succeeds)
    (hrun : (read none 0).run h = .ok (result, h')) :
    ∃ e rest, h.connectedReadSession.delivered = e :: rest ∧ h' = h.taken e := by
  rw [read, Exec.run_bind_ok (Exec.run_modify _ h), Exec.run_bind_ok (Exec.run_get _)] at hrun
  obtain ⟨acquired, t, hloop, hrest⟩ := Exec.run_bind_eq_ok_iff.mp hrun
  obtain ⟨e, rest, hdelivered, rfl, rfl⟩ := acquireLoop_eq_ok hsuccess rfl hloop
  cases hrest
  exact ⟨e, rest, hdelivered, rfl⟩

/-- The region that was taken is released. -/
theorem releaseReceivedBufferRegion_taken (hsuccess : h.connectedReadSession.Succeeds)
    (hdelivered : h.connectedReadSession.delivered = e :: rest) :
    releaseReceivedBufferRegion.run (h.taken e) = .ok (.success, h.gaveBack e) := by
  have hdelivered' : h.connectedReadSession.answered.delivered = e :: rest := hdelivered
  have hheld : e.region ∈ h.connectedReadSession.answered.acquire.held.map Filled.region := by
    rw [ReceiveSession.held_acquire hdelivered', List.map_append]
    exact List.mem_append_right _ (List.mem_singleton_self _)
  have htaken : h.connectedReadSession.answered.acquire.Succeeds := by
    intro result hresult
    rw [ReceiveSession.results_acquire] at hresult
    exact hsuccess.answered result hresult
  rw [releaseReceivedBufferRegion, Exec.run_bind_ok (Exec.run_get _)]
  exact Exec.run_zoom_ok (htaken.run_releaseReceivedBufferRegion hheld _)

/-- With a buffer, `Read` releases the region it took, also when the message does not fit. -/
theorem read_some_eq_ok {bytes : Bytes} {bufferSize : ℤ} {result : ReadResult}
    (hsuccess : h.connectedReadSession.Succeeds)
    (hrun : (read (some bytes) bufferSize).run h = .ok (result, h')) :
    ∃ e rest, h.connectedReadSession.delivered = e :: rest ∧ h' = h.gaveBack e := by
  rw [read, Exec.run_bind_ok (Exec.run_modify _ h), Exec.run_bind_ok (Exec.run_get _)] at hrun
  obtain ⟨acquired, t, hloop, hrest⟩ := Exec.run_bind_eq_ok_iff.mp hrun
  obtain ⟨e, rest, hdelivered, rfl, rfl⟩ := acquireLoop_eq_ok hsuccess rfl hloop
  have hrelease := releaseReceivedBufferRegion_taken hsuccess hdelivered
  refine ⟨e, rest, hdelivered, ?_⟩
  rw [if_pos rfl] at hrest
  simp only [Exec.run_bind_ok (Exec.run_get _)] at hrest
  split_ifs at hrest
  · obtain ⟨copied, t, hload, hrest⟩ := Exec.run_bind_eq_ok_iff.mp hrest
    rw [load_state hload] at hrest
    obtain ⟨stored, t', hstore, hrest⟩ := Exec.run_bind_eq_ok_iff.mp hrest
    obtain ⟨-, rfl⟩ := Exec.run_checked_eq_ok_iff.mp hstore
    rw [Exec.run_bind_ok hrelease] at hrest
    cases hrest
    rfl
  · rw [Exec.run_bind_ok hrelease] at hrest
    cases hrest
    rfl

/-- `FinishDirectRead` releases the region that was taken. -/
theorem finishDirectRead_taken {result : Bool} (hsuccess : h.connectedReadSession.Succeeds)
    (hdelivered : h.connectedReadSession.delivered = e :: rest)
    (hrun : finishDirectRead.run (h.taken e) = .ok (result, h')) : h' = h.gaveBack e := by
  rw [finishDirectRead, Exec.run_bind_ok (releaseReceivedBufferRegion_taken hsuccess hdelivered)]
    at hrun
  cases hrun
  rfl

/-- The three calls that begin with a `Read` without a buffer hold the region it took. -/
theorem of_read_none_bind {α : Type} {f : ReadResult → Exec (RdmaSidebandDataImp size) α} {a : α}
    (hf : ∀ result t t' a, (f result).run t = .ok (a, t') → t' = t)
    (hsuccess : h.connectedReadSession.Succeeds) (hrun : (read none 0 >>= f).run h = .ok (a, h')) :
    ∃ e rest, h.connectedReadSession.delivered = e :: rest ∧ h' = h.taken e := by
  obtain ⟨result, t, hread, hrest⟩ := Exec.run_bind_eq_ok_iff.mp hrun
  obtain ⟨e, rest, hdelivered, rfl⟩ := read_none_eq_ok hsuccess hread
  exact ⟨e, rest, hdelivered, hf _ _ _ _ hrest⟩

theorem readLengthPrefix_eq_ok {length : ℤ} (hsuccess : h.connectedReadSession.Succeeds)
    (hrun : readLengthPrefix.run h = .ok (length, h')) :
    ∃ e rest, h.connectedReadSession.delivered = e :: rest ∧ h' = h.taken e := by
  refine of_read_none_bind (fun result t t' a hrest => ?_) hsuccess hrun
  split_ifs at hrest
  · rw [Exec.run_bind_ok (Exec.run_get t)] at hrest
    obtain ⟨bytes, t'', hload, hpure⟩ := Exec.run_bind_eq_ok_iff.mp hrest
    rw [← (Prod.mk.inj (Except.ok.inj hpure)).2]
    exact load_state hload
  · cases hrest
    rfl

theorem beginDirectRead_eq_ok {byteCount : ℤ} {buffer : Pointer}
    (hsuccess : h.connectedReadSession.Succeeds)
    (hrun : (beginDirectRead byteCount).run h = .ok (buffer, h')) :
    ∃ e rest, h.connectedReadSession.delivered = e :: rest ∧ h' = h.taken e := by
  refine of_read_none_bind (fun result t t' a hrest => ?_) hsuccess hrun
  split_ifs at hrest <;> cases hrest <;> rfl

theorem beginDirectReadLengthPrefixed_eq_ok {answer : Pointer × Option ℤ}
    (hsuccess : h.connectedReadSession.Succeeds)
    (hrun : beginDirectReadLengthPrefixed.run h = .ok (answer, h')) :
    ∃ e rest, h.connectedReadSession.delivered = e :: rest ∧ h' = h.taken e := by
  refine of_read_none_bind (fun result t t' a hrest => ?_) hsuccess hrun
  split_ifs at hrest
  · rw [Exec.run_bind_ok (Exec.run_get t)] at hrest
    obtain ⟨bytes, t'', hload, hpure⟩ := Exec.run_bind_eq_ok_iff.mp hrest
    rw [← (Prod.mk.inj (Except.ok.inj hpure)).2]
    exact load_state hload
  · cases hrest
    rfl

/-- `ReadFromLengthPrefixed` makes no call to easyrdma. -/
theorem readFromLengthPrefixed_state {bytes : Option Bytes} {bufferSize : ℤ} {result : ReadResult}
    (hrun : (readFromLengthPrefixed bytes bufferSize).run h = .ok (result, h')) : h' = h := by
  rw [readFromLengthPrefixed] at hrun
  split_ifs at hrun
  · cases hrun
  · simp only [Exec.run_bind_ok (Exec.run_get h)] at hrun
    obtain ⟨copied, t, hload, hrest⟩ := Exec.run_bind_eq_ok_iff.mp hrun
    obtain rfl := load_state hload
    cases hdst : storeDst 0 copied bytes <;> rw [hdst] at hrest <;> cases hrest
    rfl

/-- A receive takes the oldest message, and gives its region back unless it keeps it. -/
theorem receive_eq_ok {route : RdmaReceive} (hsuccess : h.connectedReadSession.Succeeds)
    (hrun : (receive route).run h = .ok ((), h')) :
    ∃ e rest, h.connectedReadSession.delivered = e :: rest ∧
      h' = if route.keeps then h.taken e else h.gaveBack e := by
  cases route with
  | read bytes bufferSize =>
    obtain ⟨result, t, hread, hpure⟩ := Exec.run_bind_eq_ok_iff.mp hrun
    cases hpure
    exact read_some_eq_ok hsuccess hread
  | lengthPrefixed bytes bufferSize =>
    obtain ⟨length, t, hread, hrest⟩ := Exec.run_bind_eq_ok_iff.mp hrun
    obtain ⟨result, t', hcopy, hpure⟩ := Exec.run_bind_eq_ok_iff.mp hrest
    cases hpure
    rw [readFromLengthPrefixed_state hcopy]
    exact readLengthPrefix_eq_ok hsuccess hread
  | direct byteCount =>
    obtain ⟨buffer, t, hbegin, hrest⟩ := Exec.run_bind_eq_ok_iff.mp hrun
    obtain ⟨result, t', hfinish, hpure⟩ := Exec.run_bind_eq_ok_iff.mp hrest
    cases hpure
    obtain ⟨e, rest, hdelivered, rfl⟩ := beginDirectRead_eq_ok hsuccess hbegin
    exact ⟨e, rest, hdelivered, finishDirectRead_taken hsuccess hdelivered hfinish⟩
  | directLengthPrefixed =>
    obtain ⟨answer, t, hbegin, hrest⟩ := Exec.run_bind_eq_ok_iff.mp hrun
    obtain ⟨result, t', hfinish, hpure⟩ := Exec.run_bind_eq_ok_iff.mp hrest
    cases hpure
    obtain ⟨e, rest, hdelivered, rfl⟩ := beginDirectReadLengthPrefixed_eq_ok hsuccess hbegin
    exact ⟨e, rest, hdelivered, finishDirectRead_taken hsuccess hdelivered hfinish⟩

end RdmaSidebandDataImp

/-! ### Runs of receives -/

inductive ReceivingStep
  /-- The next message arrives in a free region. -/
  | arrive (r : Fin 2) (bytes : Bytes)
  | receive (route : RdmaReceive)

namespace ReceivingStep

def isArrive : ReceivingStep → Bool
  | .arrive _ _ => true
  | .receive _ => false

def isReceive : ReceivingStep → Bool
  | .arrive _ _ => false
  | .receive _ => true

/-- A receive after which the region stays held. -/
def isKeep : ReceivingStep → Bool
  | .arrive _ _ => false
  | .receive route => route.keeps

end ReceivingStep

/-- A handle on which messages arrive and are received, in any order and mixture of ways. A
receive that waits, or that goes out of bounds, is not complete and no step; no call of easyrdma
fails. -/
def receiving (size : ℕ) : Machine (RdmaSidebandDataImp size) ReceivingStep where
  init h := h.connectedReadSession.held = [] ∧ h.connectedReadSession.delivered = [] ∧
    h.connectedReadSession.Succeeds
  next h
    | .arrive r bytes =>
      if h.connectedReadSession.Free r ∧ bytes.length ≤ size then
        some { h with connectedReadSession := h.connectedReadSession.arrive r bytes }
      else none
    | .receive route => ((RdmaSidebandDataImp.receive route).returned h).map Prod.snd

variable {size : ℕ} {h h' h'' : RdmaSidebandDataImp size} {as : List ReceivingStep}
  {a : ReceivingStep}

/-- What a run does to the read session: each receive takes one of the messages that arrived, and
makes two calls or keeps the region. It holds of every run, whichever ways it uses. -/
structure ReceiveCounts (h : RdmaSidebandDataImp size) (as : List ReceivingStep)
    (h' : RdmaSidebandDataImp size) : Prop where
  delivered : h'.connectedReadSession.delivered.length + as.countP ReceivingStep.isReceive =
    h.connectedReadSession.delivered.length + as.countP ReceivingStep.isArrive
  held : h'.connectedReadSession.held.length =
    h.connectedReadSession.held.length + as.countP ReceivingStep.isKeep
  results : h'.connectedReadSession.results = h.connectedReadSession.results.drop
    (2 * as.countP ReceivingStep.isReceive - as.countP ReceivingStep.isKeep)

namespace ReceiveCounts

theorem refl (h : RdmaSidebandDataImp size) : ReceiveCounts h [] h := ⟨rfl, rfl, rfl⟩

theorem countP_isKeep_le (as : List ReceivingStep) :
    as.countP ReceivingStep.isKeep ≤ as.countP ReceivingStep.isReceive := by
  refine List.countP_mono_left fun a _ hkeep => ?_
  cases a with
  | arrive r bytes => cases hkeep
  | receive route => rfl

theorem trans {bs : List ReceivingStep} (h₁ : ReceiveCounts h as h')
    (h₂ : ReceiveCounts h' bs h'') : ReceiveCounts h (as ++ bs) h'' := by
  have hle₁ := countP_isKeep_le as
  have hle₂ := countP_isKeep_le bs
  refine ⟨?_, ?_, ?_⟩
  · have hdelivered₁ := h₁.delivered
    have hdelivered₂ := h₂.delivered
    rw [List.countP_append, List.countP_append]
    omega
  · have hheld₁ := h₁.held
    have hheld₂ := h₂.held
    rw [List.countP_append]
    omega
  · rw [h₂.results, h₁.results, List.drop_drop, List.countP_append, List.countP_append]
    congr 1
    omega

theorem succeeds (hcounts : ReceiveCounts h as h') (hsuccess : h.connectedReadSession.Succeeds) :
    h'.connectedReadSession.Succeeds := by
  intro result hresult
  rw [hcounts.results] at hresult
  exact hsuccess result (List.mem_of_mem_drop hresult)

theorem arrive {r : Fin 2} {bytes : Bytes}
    (hfree : h.connectedReadSession.Free r ∧ bytes.length ≤ size) :
    ReceiveCounts h [.arrive r bytes]
      { h with connectedReadSession := h.connectedReadSession.arrive r bytes } := by
  obtain ⟨-, hdelivered, hheld, hresults⟩ := ReceiveSession.arrive_eq hfree.1 hfree.2
  refine ⟨?_, ?_, hresults⟩
  · change (h.connectedReadSession.arrive r bytes).delivered.length + 0 = _
    rw [hdelivered, List.length_append]
    rfl
  · change (h.connectedReadSession.arrive r bytes).held.length = _
    rw [hheld]
    rfl

theorem receive {route : RdmaReceive} (hsuccess : h.connectedReadSession.Succeeds)
    (hrun : (RdmaSidebandDataImp.receive route).run h = .ok ((), h')) :
    ReceiveCounts h [.receive route] h' := by
  obtain ⟨e, rest, hdelivered, rfl⟩ := RdmaSidebandDataImp.receive_eq_ok hsuccess hrun
  have hlength : rest.length + 1 = h.connectedReadSession.delivered.length := by
    rw [hdelivered, List.length_cons]
  cases hkeeps : route.keeps with
  | true =>
    obtain ⟨hrest, hheld, hresults⟩ := RdmaSidebandDataImp.session_taken hdelivered
    have hkeep : [ReceivingStep.receive route].countP ReceivingStep.isKeep = 1 := by
      simp [ReceivingStep.isKeep, hkeeps]
    refine ⟨(congrArg (List.length · + 1) hrest).trans hlength, ?_, ?_⟩
    · rw [hkeep, if_pos rfl, hheld, List.length_append, List.length_singleton]
    · rw [hkeep, if_pos rfl, hresults]
      rfl
  | false =>
    obtain ⟨hrest, hheld, hresults⟩ := RdmaSidebandDataImp.session_gaveBack hdelivered
    have hkeep : [ReceivingStep.receive route].countP ReceivingStep.isKeep = 0 := by
      simp [ReceivingStep.isKeep, hkeeps]
    refine ⟨(congrArg (List.length · + 1) hrest).trans hlength, ?_, ?_⟩
    · rw [hkeep, if_neg Bool.false_ne_true, hheld, Nat.add_zero]
    · rw [hkeep, if_neg Bool.false_ne_true, hresults]
      rfl

theorem step (hsuccess : h.connectedReadSession.Succeeds)
    (hstep : (receiving size).next h a = some h') : ReceiveCounts h [a] h' := by
  cases a with
  | arrive r bytes =>
    simp only [receiving] at hstep
    split_ifs at hstep with hfree
    cases hstep
    exact arrive hfree
  | receive route =>
    obtain ⟨⟨_, t⟩, hreturned, rfl⟩ := Option.map_eq_some_iff.mp hstep
    exact receive hsuccess (Exec.returned_eq_some_iff.mp hreturned)

theorem run (hsuccess : h.connectedReadSession.Succeeds)
    (hrun : (receiving size).exec h as = some h') : ReceiveCounts h as h' := by
  induction as generalizing h with
  | nil =>
    cases hrun
    exact refl _
  | cons a as ih =>
    obtain ⟨t, hstep, hrest⟩ := Option.bind_eq_some_iff.mp hrun
    have hfirst := step hsuccess hstep
    exact hfirst.trans (ih (hfirst.succeeds hsuccess) hrest)

end ReceiveCounts

/-- The regions of all messages received in the run have been given back, each by the receive
that took it. -/
structure GivenBack (h : RdmaSidebandDataImp size) (as : List ReceivingStep)
    (h' : RdmaSidebandDataImp size) : Prop where
  held : h'.connectedReadSession.held = []
  /-- Each receive took the region of one of the messages that arrived. -/
  received : h'.connectedReadSession.delivered.length + as.countP ReceivingStep.isReceive =
    as.countP ReceivingStep.isArrive
  /-- Each receive made two calls: one for its region, one to release it. -/
  calls : h'.connectedReadSession.results =
    h.connectedReadSession.results.drop (2 * as.countP ReceivingStep.isReceive)
  /-- With no message waiting, both regions are free for the next. -/
  free : h'.connectedReadSession.delivered = [] → ∀ r, h'.connectedReadSession.Free r

/-- At every point of the run, and not only at its end: a region that is held for a while may
hold up the network. -/
def AllGivenBack (h : RdmaSidebandDataImp size) (as : List ReceivingStep) : Prop :=
  ∀ bs h', bs <+: as → (receiving size).exec h bs = some h' → GivenBack h bs h'

theorem countP_isKeep_eq_zero_iff : as.countP ReceivingStep.isKeep = 0 ↔
    ∀ bytes bufferSize, ReceivingStep.receive (.lengthPrefixed bytes bufferSize) ∉ as := by
  rw [List.countP_eq_zero]
  constructor
  · intro hnone bytes bufferSize hmem
    exact hnone _ hmem rfl
  · intro hnone a hmem hkeep
    match a with
    | .receive (.lengthPrefixed bytes bufferSize) => exact hnone bytes bufferSize hmem

/-- **The regions are given back exactly when no receive is by `ReadLengthPrefix`**, over runs of
any length that receive by any of the four ways while messages arrive. No call of easyrdma fails. -/
theorem givenBack_iff (hinit : (receiving size).init h)
    (hrun : (receiving size).exec h as = some h') : AllGivenBack h as ↔
      ∀ bytes bufferSize, ReceivingStep.receive (.lengthPrefixed bytes bufferSize) ∉ as := by
  obtain ⟨hheld, hdelivered, hsuccess⟩ := hinit
  constructor
  · intro hback
    have hnone := (hback as h' List.prefix_rfl hrun).held
    have hcount := (ReceiveCounts.run hsuccess hrun).held
    rw [hnone, hheld, List.length_nil, Nat.zero_add] at hcount
    exact countP_isKeep_eq_zero_iff.mp hcount.symm
  · intro hnokeep bs t hbs hrunbs
    have hcounts := ReceiveCounts.run hsuccess hrunbs
    have hkeep : bs.countP ReceivingStep.isKeep = 0 :=
      countP_isKeep_eq_zero_iff.mpr fun bytes bufferSize hmem =>
        hnokeep bytes bufferSize (hbs.subset hmem)
    have hnone : t.connectedReadSession.held = [] := by
      have hlength := hcounts.held
      rw [hheld, hkeep] at hlength
      exact List.eq_nil_of_length_eq_zero hlength
    refine ⟨hnone, ?_, ?_, fun hempty r => ?_⟩
    · have hlength := hcounts.delivered
      rw [hdelivered, List.length_nil, Nat.zero_add] at hlength
      exact hlength
    · rw [hcounts.results, hkeep, Nat.sub_zero]
    · rw [ReceiveSession.Free, hnone, hempty]
      exact List.not_mem_nil

/-- A run has two receives by `ReadLengthPrefix` at most: each keeps a region. -/
theorem kept_le_two (hinit : (receiving size).init h)
    (hrun : (receiving size).exec h as = some h') : as.countP ReceivingStep.isKeep ≤ 2 := by
  obtain ⟨hheld, -, hsuccess⟩ := hinit
  have hcount := (ReceiveCounts.run hsuccess hrun).held
  have hdistinct := h'.connectedReadSession.distinct
  rw [List.map_append] at hdistinct
  have hle := hdistinct.of_append_left.length_le_card
  rw [List.length_map, Fintype.card_fin] at hle
  rw [hheld, List.length_nil, Nat.zero_add] at hcount
  omega

/-- A handle after its constructor. -/
def connectedHandle (size : ℕ) : RdmaSidebandDataImp size where
  connectedWriteSession := .configured size
  connectedReadSession := .configured size
  writeBuffer := {}
  readBuffer := {}

theorem receiving_init_connectedHandle (size : ℕ) : (receiving size).init (connectedHandle size) :=
  ⟨rfl, rfl, fun _ hresult => absurd hresult List.not_mem_nil⟩

/-- Three messages, and the three ways that give back. -/
theorem givenBack_three : AllGivenBack (connectedHandle 16)
    [.arrive 0 (frame [7]), .receive (.read (List.replicate 9 0) 9), .arrive 0 (frame [8]),
      .arrive 1 (frame [9]), .receive (.direct 9), .receive .directLengthPrefixed] := by
  obtain ⟨h', hrun⟩ : ∃ h', (receiving 16).exec (connectedHandle 16)
      [.arrive 0 (frame [7]), .receive (.read (List.replicate 9 0) 9), .arrive 0 (frame [8]),
        .arrive 1 (frame [9]), .receive (.direct 9), .receive .directLengthPrefixed] = some h' :=
    Option.isSome_iff_exists.mp rfl
  exact (givenBack_iff (receiving_init_connectedHandle 16) hrun).mpr (by simp)

/-- After two messages received by `ReadLengthPrefix` and `ReadFromLengthPrefixed`, both regions
are held. -/
theorem not_givenBack_lengthPrefixed : ¬ ∀ (h : RdmaSidebandDataImp 16) (as : List ReceivingStep),
    (receiving 16).init h → ((receiving 16).exec h as).isSome → AllGivenBack h as := by
  intro hall
  have hrun : ((receiving 16).exec (connectedHandle 16)
      [.arrive 0 (frame [7]), .receive (.lengthPrefixed [0] 1), .arrive 1 (frame [8]),
        .receive (.lengthPrefixed [0] 1)]).map (fun h => h.connectedReadSession.held.length) =
      some 2 := rfl
  obtain ⟨h', hexec, hheld⟩ := Option.map_eq_some_iff.mp hrun
  have hback := hall _ _ (receiving_init_connectedHandle 16) (Option.isSome_of_eq_some hexec)
  have hnone := (hback _ _ List.prefix_rfl hexec).held
  rw [hnone] at hheld
  cases hheld

end Sideband
