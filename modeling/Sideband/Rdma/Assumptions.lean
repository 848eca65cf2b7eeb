import Sideband.Rdma.EasyRdma

/-!
# What is assumed of easyrdma

Easyrdma is not part of the source, so what the transport relies on is stated here, of any sessions:
the view that a program has of either end (`SendView`, `ReceiveView`), and what the calls and the
network do to it (`SendEnd`, `ReceiveEnd`, `EasyRdma`). A failed call and a timeout change nothing,
a call waits only for a region, and the network takes the oldest region in flight to a free one.
Which free region a call or a delivery takes, and when a call fails, is left open.

`easyRdma` says that the sessions of `SendSession` and `ReceiveSession` keep these promises. What is
not assumed: that a connection comes about, that it stays, or that anything arrives in bounded time.
-/

namespace Sideband

open Foundation

/-! ### The sending end -/

/-- The regions of a session connected for sending: those that the program has, those in flight
with the bytes that were queued, and what the memory of each holds. The others are free. -/
structure SendView where
  acquired : List (Fin 2)
  queue : List Filled
  memory : Fin 2 → Bytes

namespace SendView

def Free (v : SendView) (r : Fin 2) : Prop := r ∉ v.acquired ∧ r ∉ v.queue.map Filled.region

end SendView

/-- The calls on a session connected for sending, with two regions of `size` bytes. Each call
succeeds as documented or changes nothing that the program can see; only an acquire waits, and
only while no region is free. -/
structure SendEnd (S : Type) (size : ℕ) where
  view : S → SendView
  acquireSendRegion : Exec S (EasyRdmaResult × Option BufferRegion)
  queueBufferRegion : BufferRegion → Exec S EasyRdmaResult
  /-- A region is in one place at a time. -/
  distinct : ∀ s, ((view s).acquired ++ (view s).queue.map Filled.region).Nodup
  length_memory : ∀ s r, ((view s).memory r).length = size
  /-- A free region is acquired. -/
  acquire_success : ∀ s region s', acquireSendRegion.run s = .ok ((.success, region), s') →
    ∃ r, (view s).Free r ∧ region = some { buffer := .into (.sendRegion r) 0 } ∧
      view s' = { view s with acquired := r :: (view s).acquired }
  acquire_other : ∀ s result region s', acquireSendRegion.run s = .ok ((result, region), s') →
    result ≠ .success → region = none ∧ view s' = view s
  acquire_waits : ∀ s e, acquireSendRegion.run s = .error e →
    e = .blocked ∧ ∀ r, ¬ (view s).Free r
  /-- The first bytes of an acquired region are in flight. -/
  queue_success : ∀ s region s', (queueBufferRegion region).run s = .ok (.success, s') →
    ∃ r ∈ (view s).acquired, region.buffer = .into (.sendRegion r) 0 ∧ region.usedSize ≤ size ∧
      view s' = { view s with
        acquired := (view s).acquired.erase r
        queue := (view s).queue ++ [⟨r, ((view s).memory r).take region.usedSize⟩] }
  queue_other : ∀ s region result s', (queueBufferRegion region).run s = .ok (result, s') →
    result ≠ .success → view s' = view s
  queue_returns : ∀ s region, ∃ result s', (queueBufferRegion region).run s = .ok (result, s')

/-- An acquired region is not in flight. -/
theorem SendEnd.region_ne {S : Type} {size : ℕ} (E : SendEnd S size) {s : S} {r : Fin 2}
    (h : r ∈ (E.view s).acquired) {e : Filled} (he : e ∈ (E.view s).queue) : e.region ≠ r := by
  rintro rfl
  exact List.disjoint_of_nodup_append (E.distinct s) h (List.mem_map_of_mem he)

/-! ### The receiving end -/

/-- The regions of a session connected for receiving: those that the program has, and those with
messages that it has not asked for yet. The others are free. -/
structure ReceiveView where
  held : List Filled
  delivered : List Filled
  memory : Fin 2 → Bytes

namespace ReceiveView

def Free (v : ReceiveView) (r : Fin 2) : Prop := r ∉ (v.held ++ v.delivered).map Filled.region

/-- The regions that are not free hold what they are recorded with. -/
def Intact (v : ReceiveView) : Prop := Sideband.Intact v.memory (v.held ++ v.delivered)

end ReceiveView

/-- The calls on a session connected for receiving. An acquire yields the oldest message or waits
for one, and a region that the program holds is its own until it is released. -/
structure ReceiveEnd (R : Type) (size : ℕ) where
  view : R → ReceiveView
  acquireReceivedRegion : Exec R (EasyRdmaResult × Option BufferRegion)
  releaseReceivedBufferRegion : BufferRegion → Exec R EasyRdmaResult
  distinct : ∀ s, (((view s).held ++ (view s).delivered).map Filled.region).Nodup
  length_memory : ∀ s r, ((view s).memory r).length = size
  /-- The oldest region is acquired, and held from then on. -/
  acquire_success : ∀ s region s', acquireReceivedRegion.run s = .ok ((.success, region), s') →
    ∃ e rest, (view s).delivered = e :: rest ∧
      region = some ⟨.into (.receiveRegion e.region) 0, e.bytes.length⟩ ∧
      view s' = { view s with held := (view s).held ++ [e], delivered := rest }
  acquire_other : ∀ s result region s', acquireReceivedRegion.run s = .ok ((result, region), s') →
    result ≠ .success → region = none ∧ view s' = view s
  acquire_waits : ∀ s e, acquireReceivedRegion.run s = .error e →
    e = .blocked ∧ (view s).delivered = []
  /-- A held region is free again. -/
  release_success : ∀ s region s',
    (releaseReceivedBufferRegion region).run s = .ok (.success, s') →
    ∃ r ∈ (view s).held.map Filled.region, region.buffer = .into (.receiveRegion r) 0 ∧
      view s' = { view s with held := (view s).held.filter fun e => e.region ≠ r }
  release_other : ∀ s region result s',
    (releaseReceivedBufferRegion region).run s = .ok (result, s') → result ≠ .success →
    view s' = view s
  release_returns : ∀ s region,
    ∃ result s', (releaseReceivedBufferRegion region).run s = .ok (result, s')

namespace ReceiveEnd

variable {R : Type} {size : ℕ} (E : ReceiveEnd R size) {s s' : R}

theorem intact_acquire {answer : EasyRdmaResult × Option BufferRegion}
    (h : E.acquireReceivedRegion.run s = .ok (answer, s')) (hs : (E.view s).Intact) :
    (E.view s').Intact := by
  obtain ⟨result, region⟩ := answer
  by_cases hsuccess : result = .success
  · subst hsuccess
    obtain ⟨e, rest, hdelivered, -, hview⟩ := E.acquire_success s region s' h
    rw [hview, ReceiveView.Intact]
    dsimp only
    rw [List.append_assoc, List.singleton_append, ← hdelivered]
    exact hs
  · rw [(E.acquire_other s result region s' h hsuccess).2]
    exact hs

theorem intact_release {region : BufferRegion} {result : EasyRdmaResult}
    (h : (E.releaseReceivedBufferRegion region).run s = .ok (result, s'))
    (hs : (E.view s).Intact) : (E.view s').Intact := by
  by_cases hsuccess : result = .success
  · subst hsuccess
    obtain ⟨r, -, -, hview⟩ := E.release_success s region s' h
    rw [hview]
    exact fun e he => hs e ((List.filter_sublist.append_right _).subset he)
  · rw [E.release_other s region result s' h hsuccess]
    exact hs

end ReceiveEnd

/-! ### A connection -/

/-- Both ends of a connection, and the network between them, which delivers messages whole, once
and in order. That it does so at all is not assumed: a message may be in flight for ever. -/
structure EasyRdma (S R : Type) (size : ℕ) where
  send : SendEnd S size
  receive : ReceiveEnd R size
  /-- What arrives in region `r` of the receiving end. -/
  deliver : Fin 2 → S → R → Option (S × R)
  /-- The network can deliver whenever something is in flight and the region is free. -/
  deliver_isSome_iff : ∀ r s t, (deliver r s t).isSome ↔
    (send.view s).queue ≠ [] ∧ (receive.view t).Free r
  /-- The bytes of the oldest region in flight arrive, as that region holds them now. -/
  deliver_some : ∀ r s t s' t', deliver r s t = some (s', t') →
    ∃ e rest, (send.view s).queue = e :: rest ∧ send.view s' = { send.view s with queue := rest } ∧
      let bytes := ((send.view s).memory e.region).take e.bytes.length
      receive.view t' = { receive.view t with
        delivered := (receive.view t).delivered ++ [⟨r, bytes⟩]
        memory := Function.update (receive.view t).memory r
          (overlay 0 bytes ((receive.view t).memory r)) }

/-! ### The sessions -/

/-- The sessions of the model keep what is assumed of the sending end. Their choice of a free
region is a field, and so is the result of each call. -/
def SendSession.sendEnd (size : ℕ) : SendEnd (SendSession size) size where
  view s := ⟨s.acquired, s.queue, s.memory⟩
  acquireSendRegion := acquireSendRegion
  queueBufferRegion := queueBufferRegion
  distinct s := s.distinct
  length_memory s := s.length_memory
  acquire_success s region s' hrun := by
    rcases of_run_acquireSendRegion hrun with ⟨hne, -⟩ | ⟨r, hfree, rfl, hanswer⟩
    · exact absurd rfl hne
    · refine ⟨r, hfree, congrArg Prod.snd hanswer, ?_⟩
      rw [acquired_acquire (s := s.answered) hfree, queue_acquire, memory_acquire]
      rfl
  acquire_other s result region s' hrun hne := by
    rcases of_run_acquireSendRegion hrun with ⟨-, hnone, rfl⟩ | ⟨r, -, -, hanswer⟩
    · exact ⟨hnone, rfl⟩
    · exact absurd (congrArg Prod.fst hanswer) hne
  acquire_waits s e hrun := by
    obtain ⟨rfl, hpick⟩ := of_run_acquireSendRegion_error hrun
    refine ⟨rfl, fun r hfree => ?_⟩
    have hsome := pick_isSome_iff.mpr ⟨r, hfree⟩
    rw [hpick] at hsome
    cases hsome
  queue_success s region s' hrun := by
    rcases of_run_queueBufferRegion hrun with ⟨hne, -⟩ | ⟨-, r, hr, hbuffer, hle, rfl⟩
    · exact absurd rfl hne
    · refine ⟨r, hr, hbuffer, hle, ?_⟩
      rw [acquired_enqueue (s := s.answered) hr, queue_enqueue (s := s.answered) hr, memory_enqueue]
      rfl
  queue_other s region result s' hrun hne := by
    rcases of_run_queueBufferRegion hrun with ⟨-, rfl⟩ | ⟨hsuccess, -⟩
    · rfl
    · exact absurd hsuccess hne
  queue_returns s region := queueBufferRegion_total region s

/-- The sessions of the model keep what is assumed of the receiving end. The result of each call
is a field of theirs. -/
def ReceiveSession.receiveEnd (size : ℕ) : ReceiveEnd (ReceiveSession size) size where
  view s := ⟨s.held, s.delivered, s.memory⟩
  acquireReceivedRegion := acquireReceivedRegion
  releaseReceivedBufferRegion := releaseReceivedBufferRegion
  distinct s := s.distinct
  length_memory s := s.length_memory
  acquire_success s region s' hrun := by
    rcases (of_run_acquireReceivedRegion hrun).2 with ⟨hne, -⟩ | ⟨e, rest, he, rfl, hanswer⟩
    · exact absurd rfl hne
    · refine ⟨e, rest, he, congrArg Prod.snd hanswer, ?_⟩
      rw [held_acquire (s := s.answered) he, delivered_acquire (s := s.answered) he, memory_acquire]
      rfl
  acquire_other s result region s' hrun hne := by
    rcases (of_run_acquireReceivedRegion hrun).2 with ⟨-, hnone, rfl⟩ | ⟨e, rest, -, -, hanswer⟩
    · exact ⟨hnone, rfl⟩
    · exact absurd (congrArg Prod.fst hanswer) hne
  acquire_waits s e hrun := of_run_acquireReceivedRegion_error hrun
  release_success s region s' hrun := by
    rcases of_run_releaseReceivedBufferRegion hrun with ⟨hne, -⟩ | ⟨-, r, hr, hbuffer, rfl⟩
    · exact absurd rfl hne
    · exact ⟨r, hr, hbuffer, rfl⟩
  release_other s region result s' hrun hne := by
    rcases of_run_releaseReceivedBufferRegion hrun with ⟨-, rfl⟩ | ⟨hsuccess, -⟩
    · rfl
    · exact absurd hsuccess hne
  release_returns s region := releaseReceivedBufferRegion_total region s

/-- The network of the model keeps what is assumed of the one between the ends: it takes the
oldest region in flight to any region that is free. -/
def easyRdma (size : ℕ) : EasyRdma (SendSession size) (ReceiveSession size) size where
  send := SendSession.sendEnd size
  receive := ReceiveSession.receiveEnd size
  deliver := deliver
  deliver_isSome_iff _ _ _ := deliver_isSome_iff
  deliver_some r s t s' t' hdeliver := by
    obtain ⟨hne, hfree⟩ := deliver_isSome_iff.mp (Option.isSome_of_eq_some hdeliver)
    obtain ⟨e, rest, hqueue⟩ := List.exists_cons_of_ne_nil hne
    obtain ⟨send, hsend, hrest, hmemory, hacquired, -⟩ := deliver_eq hqueue hfree
    have hle : ((s.memory e.region).take e.bytes.length).length ≤ size :=
      (List.length_take_le' _ _).trans (s.length_memory e.region).le
    obtain ⟨hmemory', hdelivered, hheld, -⟩ := ReceiveSession.arrive_eq hfree hle
    cases hsend.symm.trans hdeliver
    refine ⟨e, rest, hqueue, ?_, ?_⟩
    · simp only [SendSession.sendEnd, hrest, hmemory, hacquired]
    · simp only [SendSession.sendEnd, ReceiveSession.receiveEnd, hmemory', hdelivered, hheld]

end Sideband
