import Mathlib.Data.Fintype.Card
import Sideband.Foundation.Progress
import Sideband.Rdma.Fifo

/-!
# The window of an RDMA connection

Each end of a connection has two regions, so a writer is at most four messages ahead of its reader
(`rdmaLink_window`), and it waits only for those.

What has been written is read: without new messages a link takes exactly the steps that its messages
still have to go (`RdmaLink.rank`), in whatever order, and then every message has been read and
every region is free (`rdmaLink_drains`).
-/

namespace Sideband

open Foundation

section Window

variable {size : ℕ} {M : Type} {codec : MessageLite M} {s s' : RdmaLink M size} {t : Fifo M}

/-! ### Where the messages are -/

/-- What a step of the link leaves as it is, where it leads the call that it belongs to, and what
it adds to the records. It is all that the counting needs to know of a step. -/
inductive LinkMoves (s s' : RdmaLink M size) : RdmaLinkStep M → Prop
  | beginWrite {m : M} {prefer : Fin 2} {buffer : Pointer} (before : s.writing = .idle)
      (after : s'.writing = .begun m buffer) (reader : s'.reader = s.reader)
      (reading : s'.reading = s.reading) (written : s'.written = s.written)
      (reads : s'.reads = s.reads) : LinkMoves s s' (.beginWrite m prefer)
  | fill {m : M} {buffer : Pointer} (before : s.writing = .begun m buffer)
      (after : s'.writing = .filled m) (reader : s'.reader = s.reader)
      (reading : s'.reading = s.reading) (written : s'.written = s.written)
      (reads : s'.reads = s.reads) : LinkMoves s s' .fill
  | finishWrite {m : M} (before : s.writing = .filled m) (after : s'.writing = .idle)
      (reader : s'.reader = s.reader) (reading : s'.reading = s.reading)
      (written : s'.written = s.written ++ [m]) (reads : s'.reads = s.reads) :
      LinkMoves s s' .finishWrite
  | deliver {r : Fin 2} (writing : s'.writing = s.writing) (reading : s'.reading = s.reading)
      (delivers : deliver r s.writer.connectedWriteSession s.reader.connectedReadSession =
        some (s'.writer.connectedWriteSession, s'.reader.connectedReadSession))
      (written : s'.written = s.written) (reads : s'.reads = s.reads) :
      LinkMoves s s' (.deliver r)
  | beginRead {buffer : Pointer} {bufferSize : ℤ} (before : s.reading = .idle)
      (after : s'.reading = .begun buffer bufferSize) (writer : s'.writer = s.writer)
      (writing : s'.writing = s.writing) (written : s'.written = s.written)
      (reads : s'.reads = s.reads) : LinkMoves s s' .beginRead
  | parse {buffer : Pointer} {bufferSize : ℤ} {success : Option M}
      (before : s.reading = .begun buffer bufferSize) (after : s'.reading = .parsed success)
      (writer : s'.writer = s.writer) (writing : s'.writing = s.writing)
      (written : s'.written = s.written) (reads : s'.reads = s.reads) : LinkMoves s s' .parse
  | finishRead {success : Option M} (before : s.reading = .parsed success)
      (after : s'.reading = .idle) (writer : s'.writer = s.writer)
      (writing : s'.writing = s.writing) (written : s'.written = s.written)
      (reads : s'.reads = s.reads ++ [success]) : LinkMoves s s' .finishRead

theorem linkMoves_of_next {a : RdmaLinkStep M} (h : (rdmaLink codec size).next s a = some s') :
    LinkMoves s s' a := by
  cases a with
  | beginWrite m prefer =>
    simp only [rdmaLink] at h
    split at h
    · next hidle =>
      split_ifs at h
      split at h
      · obtain rfl := Option.some.inj h
        exact .beginWrite hidle rfl rfl rfl rfl rfl
      · cases h
    · cases h
  | fill =>
    simp only [rdmaLink] at h
    split at h
    · next m buffer hwriting =>
      split at h
      · obtain rfl := Option.some.inj h
        exact .fill hwriting rfl rfl rfl rfl rfl
      · cases h
    · cases h
  | finishWrite =>
    simp only [rdmaLink] at h
    split at h
    · next m hwriting =>
      split at h
      · obtain rfl := Option.some.inj h
        exact .finishWrite hwriting rfl rfl rfl rfl rfl
      · cases h
    · cases h
  | deliver r =>
    obtain ⟨sessions, hdeliver, rfl⟩ := Option.map_eq_some_iff.mp h
    exact .deliver rfl rfl hdeliver rfl rfl
  | beginRead =>
    simp only [rdmaLink] at h
    split at h
    · next hreading =>
      split at h
      · obtain rfl := Option.some.inj h
        exact .beginRead hreading rfl rfl rfl rfl rfl
      · cases h
    · cases h
  | parse =>
    simp only [rdmaLink] at h
    split at h
    · next buffer bufferSize hreading =>
      split at h
      · obtain rfl := Option.some.inj h
        exact .parse hreading rfl rfl rfl rfl rfl
      · cases h
    · cases h
  | finishRead =>
    simp only [rdmaLink] at h
    split at h
    · next success hreading =>
      split at h
      · obtain rfl := Option.some.inj h
        exact .finishRead hreading rfl rfl rfl rfl rfl
      · cases h
    · cases h

/-- The number of regions that a read holds. -/
def Reading.regions : Reading M → ℕ
  | .idle => 0
  | .begun _ _ => 1
  | .parsed _ => 1

theorem IsLink.length_held (h : IsLink codec s t) :
    s.reader.connectedReadSession.held.length = s.reading.regions := by
  have hat := h.reader
  rw [ReaderAt] at hat
  cases hreading : s.reading with
  | idle =>
    rw [hreading] at hat
    rw [hat]
    rfl
  | begun buffer bufferSize =>
    rw [hreading] at hat
    obtain ⟨e, m, rest, hheld, -⟩ := hat
    rw [hheld]
    rfl
  | parsed success =>
    rw [hreading] at hat
    obtain ⟨e, m, rest, hheld, -⟩ := hat
    rw [hheld]
    rfl

/-- Every message that has not been read is in one place. -/
theorem IsLink.length_queue (h : IsLink codec s t) :
    t.queue.length = s.reading.regions + s.reader.connectedReadSession.delivered.length +
      s.writer.connectedWriteSession.queue.length := by
  have hqueue := congrArg List.length h.queue
  rwa [List.length_map, List.length_map, List.length_append, List.length_append,
    h.length_held] at hqueue

theorem IsLink.length_written (h : IsLink codec s t) (ht : (messageQueue M).Reachable Anything t) :
    s.written.length = s.reads.length + t.queue.length := by
  have hsent := congrArg List.length (fifo_sent_eq ht)
  rw [h.sent, List.length_append] at hsent
  rw [hsent, h.received, List.length_map]

/-! ### The window -/

theorem SendSession.length_queue_le (session : SendSession size) : session.queue.length ≤ 2 := by
  have hnodup := (List.nodup_append.mp session.distinct).2.1
  have hle := hnodup.length_le_card
  rwa [List.length_map, Fintype.card_fin] at hle

theorem ReceiveSession.length_delivered_le (session : ReceiveSession size) :
    session.held.length + session.delivered.length ≤ 2 := by
  have hle := session.distinct.length_le_card
  rwa [List.length_map, List.length_append, Fintype.card_fin] at hle

/-- Regions without a free one are both of them. -/
theorem length_of_forall_mem {regions : List (Fin 2)} (h : ∀ r, r ∈ regions) :
    2 ≤ regions.length := by
  have hcard : (Finset.univ : Finset (Fin 2)).card ≤ regions.toFinset.card :=
    Finset.card_le_card fun r _ => List.mem_toFinset.mpr (h r)
  rw [Finset.card_univ, Fintype.card_fin] at hcard
  exact hcard.trans regions.toFinset_card_le

/-- What the two regions of each end allow: how far the writer may get ahead of the reader, and
how far it has got when it has to wait. The message that is being read counts as unread. -/
structure Window (codec : MessageLite M) (s : RdmaLink M size) : Prop where
  unread : s.written.length ≤ s.reads.length + 4
  /-- A writer that waits is two messages ahead. -/
  waits : ∀ m prefer, s.writing = .idle → (codec.serialize m).length + sizeofInt64 ≤ size →
    (rdmaLink codec size).next s (.beginWrite m prefer) = none →
      s.reads.length + 2 ≤ s.written.length
  /-- It is four messages ahead if the network cannot deliver any of them. -/
  full : ∀ m prefer, s.writing = .idle → (codec.serialize m).length + sizeofInt64 ≤ size →
    (rdmaLink codec size).next s (.beginWrite m prefer) = none →
      (∀ r, (rdmaLink codec size).next s (.deliver r) = none) →
        s.written.length = s.reads.length + 4

/-- A writer waits when both of its regions are in flight. -/
theorem IsLink.length_queue_of_waits (h : IsLink codec s t) {m : M} {prefer : Fin 2}
    (hidle : s.writing = .idle) (hm : (codec.serialize m).length + sizeofInt64 ≤ size)
    (hnone : (rdmaLink codec size).next s (.beginWrite m prefer) = none) :
    s.writer.connectedWriteSession.queue.length = 2 := by
  have hacquired := h.writer
  rw [WriterAt, hidle] at hacquired
  refine le_antisymm (SendSession.length_queue_le _) ?_
  rw [← List.length_map (f := Filled.region)]
  refine length_of_forall_mem fun r => ?_
  by_contra hr
  obtain ⟨w, hw, -⟩ := next_beginWrite h hidle hm prefer
    ⟨r, by rw [hacquired]; exact List.not_mem_nil, hr⟩
  rw [hnone] at hw
  cases hw

/-- The network waits when both regions of the reader are in use. -/
theorem IsLink.length_arrived_of_waits (h : IsLink codec s t)
    (hqueue : s.writer.connectedWriteSession.queue ≠ [])
    (hnone : ∀ r, (rdmaLink codec size).next s (.deliver r) = none) :
    s.reading.regions + s.reader.connectedReadSession.delivered.length = 2 := by
  obtain ⟨e, rest, hflight⟩ := List.exists_cons_of_ne_nil hqueue
  have hle := ReceiveSession.length_delivered_le s.reader.connectedReadSession
  rw [h.length_held] at hle
  refine le_antisymm hle ?_
  rw [← h.length_held, ← List.length_append, ← List.length_map (f := Filled.region)]
  refine length_of_forall_mem fun r => ?_
  by_contra hr
  obtain ⟨w, hw, -⟩ := next_deliver h hflight hr
  rw [hnone r] at hw
  cases hw

theorem IsLink.window (h : IsLink codec s t) (ht : (messageQueue M).Reachable Anything t) :
    Window codec s := by
  have hwritten := h.length_written ht
  have hplaces := h.length_queue
  constructor
  · have hqueue := SendSession.length_queue_le s.writer.connectedWriteSession
    have harrived := ReceiveSession.length_delivered_le s.reader.connectedReadSession
    rw [h.length_held] at harrived
    omega
  · intro m prefer hidle hm hnone
    have hqueue := h.length_queue_of_waits hidle hm hnone
    omega
  · intro m prefer hidle hm hnone hdeliver
    have hqueue := h.length_queue_of_waits hidle hm hnone
    have harrived := h.length_arrived_of_waits
      (List.ne_nil_of_length_pos (by omega)) hdeliver
    omega

/-- **A writer is at most four messages ahead of its reader**, whatever the order of the steps:
two regions are at the writer's end and two at the reader's. -/
theorem rdmaLink_window (h : (rdmaLink codec size).Reachable Anything s) : Window codec s := by
  obtain ⟨t, ht, hlink⟩ := (rdmaLink_refines size codec).reachable h
  exact hlink.window ht

/-- Four messages have been written and none has been read. -/
theorem rdmaLink_window_full : ∃ s : RdmaLink _ 9, s.reads.length + 4 = s.written.length ∧
    Window rawMessage s := by
  have hexec : ((rdmaLink rawMessage 9).exec
      ⟨⟨.configured 9, .configured 9, {}, {}⟩, ⟨.configured 9, .configured 9, {}, {}⟩, .idle, .idle,
        [], []⟩
      [.beginWrite ⟨[1], by decide⟩ 0, .fill, .finishWrite, .deliver 1,
        .beginWrite ⟨[2], by decide⟩ 1, .fill, .finishWrite, .deliver 0,
        .beginWrite ⟨[3], by decide⟩ 1, .fill, .finishWrite,
        .beginWrite ⟨[4], by decide⟩ 1, .fill, .finishWrite, .beginRead]).map
          (fun s => (s.reads.length, s.written.length)) = some (0, 4) := by decide +kernel
  obtain ⟨s, hs, hlengths⟩ := Option.map_eq_some_iff.mp hexec
  have hrun := Machine.exec_reachable
    (by exact ⟨rfl, rfl, rfl, rfl, rfl, rfl, rfl, rfl, rfl, rfl⟩) hs
  have hreads := congrArg Prod.fst hlengths
  have hwritten := congrArg Prod.snd hlengths
  exact ⟨s, by dsimp only at hreads hwritten; omega, rdmaLink_window hrun⟩

/-! ### Draining -/

/-- A step that begins no message. Whatever was begun may be finished, and everything that is on
the way may arrive and be read. -/
def Draining : RdmaLinkStep M → Prop
  | .beginWrite _ _ => False
  | _ => True

/-- The steps that the message of a write still has to go, those of its delivery and of its read
included. -/
def Writing.rank : Writing M → ℕ
  | .idle => 0
  | .begun _ _ => 6
  | .filled _ => 5

def Reading.rank : Reading M → ℕ
  | .idle => 0
  | .begun _ _ => 2
  | .parsed _ => 1

/-- The steps that the messages of a link still have to go: a message in flight is delivered, and
then it is read in three steps. Each step takes one of them away. -/
def RdmaLink.rank (s : RdmaLink M size) : ℕ :=
  s.writing.rank + 4 * s.writer.connectedWriteSession.queue.length +
    3 * s.reader.connectedReadSession.delivered.length + s.reading.rank

/-- Every message has been read, and every region is free, as before the first message. -/
structure Drained (s : RdmaLink M size) : Prop where
  writing : s.writing = .idle
  reading : s.reading = .idle
  reads : s.reads = s.written.map some
  acquired : s.writer.connectedWriteSession.acquired = []
  queue : s.writer.connectedWriteSession.queue = []
  held : s.reader.connectedReadSession.held = []
  delivered : s.reader.connectedReadSession.delivered = []

/-- Each step brings one message one step on, towards its reader or through the calls at either
end. -/
theorem IsLink.rank_next (h : IsLink codec s t) {a : RdmaLinkStep M} (ha : Draining a)
    (hnext : (rdmaLink codec size).next s a = some s') : s'.rank + 1 = s.rank := by
  have hplaces := h.length_queue
  rw [RdmaLink.rank, RdmaLink.rank]
  cases linkMoves_of_next hnext with
  | beginWrite => exact absurd ha id
  | @fill m buffer before after reader reading =>
    obtain ⟨w, hw, hlink, -⟩ := next_fill h before
    obtain rfl := Option.some.inj (hw.symm.trans hnext)
    have hplaces' := hlink.length_queue
    rw [reading, reader] at hplaces' ⊢
    rw [before, after, Writing.rank, Writing.rank]
    omega
  | @finishWrite m before after reader reading =>
    obtain ⟨w, t', hw, ht, hlink, -⟩ := next_finishWrite h before
    obtain rfl := Option.some.inj (hw.symm.trans hnext)
    obtain rfl := Option.some.inj ((fifo_push rfl).symm.trans ht)
    have hplaces' := hlink.length_queue
    rw [List.length_append, List.length_singleton, reading, reader] at hplaces'
    rw [reading, reader, before, after, Writing.rank, Writing.rank]
    omega
  | @deliver r writing reading delivers =>
    obtain ⟨-, hfree⟩ := ((easyRdma size).deliver_isSome_iff _ _ _).mp
      (Option.isSome_of_eq_some delivers)
    obtain ⟨e, rest, hflight, hview, -⟩ := (easyRdma size).deliver_some _ _ _ _ _ delivers
    change s.writer.connectedWriteSession.queue = e :: rest at hflight
    have hqueue : s'.writer.connectedWriteSession.queue = rest := congrArg SendView.queue hview
    obtain ⟨w', hw, hlink, -⟩ := next_deliver h hflight hfree
    obtain rfl := Option.some.inj (hw.symm.trans hnext)
    have hplaces' := hlink.length_queue
    rw [hqueue, reading] at hplaces'
    rw [hqueue, writing, reading, hflight, List.length_cons]
    rw [hflight, List.length_cons] at hplaces
    omega
  | @beginRead buffer bufferSize before after writer writing =>
    have hne : s.reader.connectedReadSession.delivered ≠ [] := by
      intro hdelivered
      rw [next_beginRead_blocked h hdelivered] at hnext
      cases hnext
    obtain ⟨w, hw, hlink, -⟩ := next_beginRead h before hne
    obtain rfl := Option.some.inj (hw.symm.trans hnext)
    have hplaces' := hlink.length_queue
    rw [after, writer, Reading.regions] at hplaces'
    rw [before, Reading.regions] at hplaces
    rw [before, after, writer, writing, Reading.rank, Reading.rank]
    omega
  | @parse buffer bufferSize success before after writer writing =>
    obtain ⟨w, hw, hlink, -⟩ := next_parse h before
    obtain rfl := Option.some.inj (hw.symm.trans hnext)
    have hplaces' := hlink.length_queue
    rw [after, writer, Reading.regions] at hplaces'
    rw [before, Reading.regions] at hplaces
    rw [before, after, writer, writing, Reading.rank, Reading.rank]
    omega
  | @finishRead success before after writer writing =>
    obtain ⟨w, t', hw, ht, hlink, -⟩ := next_finishRead h before
    obtain rfl := Option.some.inj (hw.symm.trans hnext)
    have hne : t.queue ≠ [] := by
      intro hempty
      rw [hempty, before, Reading.regions, List.length_nil] at hplaces
      omega
    obtain ⟨m, rest, hqueue⟩ := List.exists_cons_of_ne_nil hne
    obtain rfl := Option.some.inj ((fifo_pop hqueue).symm.trans ht)
    have hplaces' := hlink.length_queue
    rw [after, writer, Reading.regions] at hplaces'
    rw [before, hqueue, List.length_cons, Reading.regions] at hplaces
    rw [before, after, writer, writing, Reading.rank, Reading.rank]
    dsimp only at hplaces'
    omega

/-- A link is stuck when it has drained. -/
theorem IsLink.stuck_iff (h : IsLink codec s t) (ht : (messageQueue M).Reachable Anything t) :
    (rdmaLink codec size).Stuck (fun _ => Draining) s ↔ Drained s := by
  constructor
  · intro hstuck
    have hwriting : s.writing = .idle := by
      cases hwriting : s.writing with
      | idle => rfl
      | begun m buffer =>
        obtain ⟨w, hw, -⟩ := next_fill h hwriting
        rw [hstuck .fill trivial] at hw
        cases hw
      | filled m =>
        obtain ⟨w, t', hw, -⟩ := next_finishWrite h hwriting
        rw [hstuck .finishWrite trivial] at hw
        cases hw
    have hreading : s.reading = .idle := by
      cases hreading : s.reading with
      | idle => rfl
      | begun buffer bufferSize =>
        obtain ⟨w, hw, -⟩ := next_parse h hreading
        rw [hstuck .parse trivial] at hw
        cases hw
      | parsed success =>
        obtain ⟨w, t', hw, -⟩ := next_finishRead h hreading
        rw [hstuck .finishRead trivial] at hw
        cases hw
    have hdelivered : s.reader.connectedReadSession.delivered = [] := by
      by_contra hne
      obtain ⟨w, hw, -⟩ := next_beginRead h hreading hne
      rw [hstuck .beginRead trivial] at hw
      cases hw
    have hqueue : s.writer.connectedWriteSession.queue = [] := by
      by_contra hne
      have harrived := h.length_arrived_of_waits hne fun r => hstuck (.deliver r) trivial
      rw [hreading, hdelivered, Reading.regions, List.length_nil] at harrived
      omega
    have hacquired := h.writer
    rw [WriterAt, hwriting] at hacquired
    have hheld := h.reader
    rw [ReaderAt, hreading] at hheld
    have hplaces := h.length_queue
    rw [hreading, hdelivered, hqueue, Reading.regions, List.length_nil] at hplaces
    have hsent := fifo_sent_eq ht
    rw [List.eq_nil_of_length_eq_zero hplaces, List.append_nil, h.sent] at hsent
    exact ⟨hwriting, hreading, by rw [hsent, h.received], hacquired, hqueue, hheld, hdelivered⟩
  · intro hdrained a ha
    -- a step would make the rank smaller
    by_contra hne
    obtain ⟨s', hnext⟩ := Option.ne_none_iff_exists'.mp hne
    have hzero : s.rank = 0 := by
      rw [RdmaLink.rank, hdrained.writing, hdrained.reading, hdrained.queue, hdrained.delivered]
      rfl
    exact Nat.succ_ne_zero _ ((h.rank_next ha hnext).trans hzero)

/-- **What has been written is read**: without new messages the steps of a link are as many as its
messages have to go, in whatever order, and it is stuck when every message has been read. -/
theorem rdmaLink_drains (h : (rdmaLink codec size).Reachable Anything s) :
    (∀ as s', (rdmaLink codec size).Run (fun _ => Draining) s as s' →
      as.length + s'.rank = s.rank ∧
        ((rdmaLink codec size).Stuck (fun _ => Draining) s' ↔ Drained s')) ∧
      ∃ as s', (rdmaLink codec size).Run (fun _ => Draining) s as s' ∧ Drained s' := by
  have hkeeps : ∀ s a s', (rdmaLink codec size).Reachable Anything s → Draining a →
      (rdmaLink codec size).next s a = some s' →
        (rdmaLink codec size).Reachable Anything s' ∧ s'.rank + 1 = s.rank := by
    intro s a s' hs ha hnext
    obtain ⟨t, -, hlink⟩ := (rdmaLink_refines size codec).reachable hs
    exact ⟨.step hs trivial hnext, hlink.rank_next ha hnext⟩
  have hranked : (rdmaLink codec size).Ranked (fun _ => Draining)
      ((rdmaLink codec size).Reachable Anything) RdmaLink.rank := .of_eq hkeeps
  have hstuck : ∀ s', (rdmaLink codec size).Reachable Anything s' →
      ((rdmaLink codec size).Stuck (fun _ => Draining) s' ↔ Drained s') := by
    intro s' hs'
    obtain ⟨t, ht, hlink⟩ := (rdmaLink_refines size codec).reachable hs'
    exact hlink.stuck_iff ht
  refine ⟨fun as s' hrun => ⟨hrun.length_eq hkeeps h,
    hstuck s' (hrun.reachable (fun _ _ _ => trivial) h)⟩, ?_⟩
  obtain ⟨as, s', hrun, hend⟩ := hranked.exists_stuck h
  exact ⟨as, s', hrun, (hstuck s' (hrun.reachable (fun _ _ _ => trivial) h)).mp hend⟩

/-- A message that is being read and one that is being written. -/
theorem rdmaLink_drains_run : ∃ s : RdmaLink _ 9, s.rank = 8 ∧
    ∃ as s', (rdmaLink rawMessage 9).Run (fun _ => Draining) s as s' ∧ Drained s' := by
  have hexec : ((rdmaLink rawMessage 9).exec
      ⟨⟨.configured 9, .configured 9, {}, {}⟩, ⟨.configured 9, .configured 9, {}, {}⟩, .idle, .idle,
        [], []⟩
      [.beginWrite ⟨[1], by decide⟩ 0, .fill, .finishWrite, .deliver 1, .beginRead,
        .beginWrite ⟨[2], by decide⟩ 1]).map RdmaLink.rank = some 8 := by decide +kernel
  obtain ⟨s, hs, hrank⟩ := Option.map_eq_some_iff.mp hexec
  have hrun := Machine.exec_reachable
    (by exact ⟨rfl, rfl, rfl, rfl, rfl, rfl, rfl, rfl, rfl, rfl⟩) hs
  exact ⟨s, hrank, (rdmaLink_drains hrun).2⟩

end Window

end Sideband
