import Sideband.Messages.HandleRuns
import Sideband.Messages.Outgoing
import Sideband.Sockets.Counting

/-!
# What a read reports

`Read` and `ReadFromLengthPrefixed` return whether they succeeded, store bytes in the caller's
buffer and set `*numBytesRead`. Each transport takes the count from elsewhere.

* `FaithfulRead`: for any outcomes of the operations underneath and any buffer of `bufferSize` bytes
  at least, a read that returns true has set the count to the number of bytes it stored, that is at
  most `bufferSize`, and these are the next bytes of the message or the stream. A read that copies
  from beyond its mapping or region is not faithful: the `memcpy` goes on, and what the read then
  reports is not what it delivered. A negative size is left out there, since no `memcpy` of as many
  bytes comes back.
* `faithfulRead_iff`: when that is so, for every reachable state of a handle over each transport
  (`Transport.FitsRead`). Over shared memory the count is never set (the bytes are stored,
  `stored_of_run_call`), so no size that a buffer can have will do; over RDMA a message that does
  not fit is dropped, and what is behind a message is copied.
-/

namespace Sideband

open Foundation

/-! ### The two reads -/

/-- The methods that read into a buffer: `Read` takes a message from its start,
`ReadFromLengthPrefixed` what is behind the prefix that `ReadLengthPrefix` has read. -/
inductive ReadMethod
  | read
  | readFromLengthPrefixed
  deriving DecidableEq, Repr

namespace ReadMethod

def call {δ : Type} (vt : SidebandMethods δ) : ReadMethod → Option Bytes → ℤ → Exec δ ReadResult
  | read => vt.read
  | readFromLengthPrefixed => vt.readFromLengthPrefixed

/-- Where the bytes start in a message. -/
def offset : ReadMethod → ℕ
  | read => 0
  | readFromLengthPrefixed => sizeofInt64

end ReadMethod

/-- What is left of the message that `ReadLengthPrefix` found, behind its prefix. Nothing is left
when no region is held. -/
def RdmaSidebandDataImp.unread {size : ℕ} (h : RdmaSidebandDataImp size) : Bytes :=
  match h.connectedReadSession.held.find? fun e =>
    h.readBuffer.buffer = .into (.receiveRegion e.region) 0 with
  | some e => e.bytes.drop sizeofInt64
  | none => []

namespace SharedMemorySidebandData

/-- The bytes are in the segment that is mapped, at an offset. -/
def HasBytes (offset : ℕ) (bytes : Bytes) (w : WithShm SharedMemorySidebandData) : Prop :=
  ∃ k start, w.handle.buffer = .into (.segment k) start ∧
    slice (start + offset) bytes.length (w.shm.object k) = bytes

end SharedMemorySidebandData

namespace Transport

variable (size : ℕ)

/-- The outcomes of the operations underneath a read: of the system calls of the kernel, of
`recv`, or of easyrdma. They are decided for a read before it starts, and any are possible. -/
def Outcomes : Transport → Type
  | sharedMemory => List Bool
  | doubleBufferedSharedMemory => List Bool
  | sockets => List RecvEvent
  | rdma => List EasyRdmaResult

/-- A handle that is about to meet them. -/
def meets : (T : Transport) → T.Outcomes → T.Derived size → T.Derived size
  | sharedMemory, (calls : List Bool), (w : WithShm SharedMemorySidebandData) =>
    { w with shm.calls := calls }
  | doubleBufferedSharedMemory, (calls : List Bool),
      (w : WithShm DoubleBufferedSharedMemorySidebandData) => { w with shm.calls := calls }
  | sockets, (recvs : List RecvEvent), (h : SocketSidebandData) =>
    { h with connection.recvs := recvs }
  | rdma, (results : List EasyRdmaResult), (h : RdmaSidebandDataImp size) => h.withResults results

/-- The next bytes of the message or the stream, for a read between the two states: those of the
segment, of the incoming stream, or of the message that the region holds. -/
def Next (m : ReadMethod) : (T : Transport) → T.Derived size → T.Derived size → Bytes → Prop
  | sharedMemory, _, w', bytes => SharedMemorySidebandData.HasBytes m.offset bytes w'
  | doubleBufferedSharedMemory, w, w', bytes => SharedMemorySidebandData.HasBytes m.offset bytes
    (DoubleBufferedSharedMemorySidebandData.bufferAfter w w')
  | sockets, (h : SocketSidebandData), (h' : SocketSidebandData), bytes =>
    h.connection.incoming = bytes ++ h'.connection.incoming
  | rdma, (h : RdmaSidebandDataImp size), _, bytes =>
    match m with
    | .read => h.connectedReadSession.delivered.head?.map Filled.bytes = some bytes
    | .readFromLengthPrefixed => bytes <+: h.unread

/-- The condition of each transport. Over sockets the size asked for is an `int` that is not
negative, or the kernel never hands over 2 GiB at once; over RDMA the message is one that fits.
Over shared memory no read of a size that a buffer can have meets it. -/
def FitsRead (m : ReadMethod) : (T : Transport) → T.Derived size → ℤ → Prop
  | sharedMemory, _, n => n < 0
  | doubleBufferedSharedMemory, _, n => n < 0
  | sockets, (h : SocketSidebandData), n =>
    0 ≤ n ∧ (n < 2 ^ 31 ∨ (h.connection.incoming.length : ℤ) < n + 2 ^ 31)
  | rdma, (h : RdmaSidebandDataImp size), n =>
    match m with
    | .read => ∀ e ∈ h.connectedReadSession.delivered.head?, (e.bytes.length : ℤ) ≤ n
    | .readFromLengthPrefixed => n ≤ h.unread.length

end Transport

/-- A read reports what it stored, and stores what comes next: the count is set, no byte beyond
it was stored, and those before it are the next ones. -/
structure Delivered (size : ℕ) (m : ReadMethod) (T : Transport) (d d' : T.Derived size)
    (bufferSize : ℤ) (buffer bytes : Bytes) (r : ReadResult) : Prop where
  numBytesRead : r.numBytesRead = some (bytes.length : ℤ)
  le : bytes.length ≤ bufferSize
  stored : r.bytes = some (overlay 0 bytes buffer)
  next : T.Next size m d d' bytes

/-- What a read of `bufferSize` bytes into any buffer of that size promises, whatever the
operations underneath do: with a size that is not negative it stays in its memory, and if it
returns true it has delivered. Where it returns false or waits nothing else is asked. -/
structure FaithfulRead (size : ℕ) (m : ReadMethod) (T : Transport) (d : T.Derived size)
    (bufferSize : ℤ) : Prop where
  /-- It copies from memory that is there. -/
  inBounds : 0 ≤ bufferSize → ∀ outcomes (buffer : Bytes), bufferSize ≤ buffer.length →
    (m.call (T.methods size) (some buffer) bufferSize).run (T.meets size outcomes d) ≠
      .error .outOfBounds
  /-- Returning true, it reports what it delivered. -/
  delivered : ∀ outcomes (buffer : Bytes) r d', bufferSize ≤ buffer.length →
    (m.call (T.methods size) (some buffer) bufferSize).run (T.meets size outcomes d) = .ok (r, d') →
    r.result = true → ∃ bytes, Delivered size m T d d' bufferSize buffer bytes r

/-- A buffer of the size a read is called with. -/
theorem le_length_zeros (n : ℤ) : n ≤ (List.replicate n.toNat (0 : UInt8)).length := by
  rw [List.length_replicate]
  exact n.self_le_toNat

/-! ### Shared memory -/

namespace SharedMemorySidebandData

variable {w w' : WithShm SharedMemorySidebandData} {size : ℕ}

/-- The pointer leads to `n` bytes of a segment that is mapped. Of no bytes it need not lead
anywhere. -/
def Leads (p : Pointer) (n : ℕ) (w : WithShm SharedMemorySidebandData) : Prop :=
  n = 0 ∨ ∃ k start, p = .into (.segment k) start ∧ (start + n : ℤ) ≤ w.handle.bufferSize ∧
    start + n ≤ (w.shm.object k).length

theorem run_load_eq (p : Pointer) (n : ℕ) : (load p n).run w =
    (WithShm.kernel (Shm.load w.handle.bufferSize p n)).run w := by
  rw [load, Exec.run_bind_ok (Exec.run_get w)]

theorem Leads.run_load {p : Pointer} {n : ℕ} (h : Leads p n w) :
    ∃ bytes : Bytes, bytes.length = n ∧ (load p n).run w = .ok (bytes, w) := by
  rw [run_load_eq]
  rcases h with rfl | ⟨k, start, rfl, hlength, hobject⟩
  · exact ⟨[], rfl, WithShm.run_kernel_ok rfl⟩
  · exact ⟨_, length_slice hobject, WithShm.run_kernel_ok (Shm.run_load_segment hlength hobject)⟩

/-- Nothing else can be loaded. -/
theorem run_load_of_not_leads {p : Pointer} {n : ℕ} (h : ¬ Leads p n w) :
    (load p n).run w = .error .outOfBounds := by
  obtain ⟨hn, hno⟩ := not_or.mp h
  rw [run_load_eq]
  refine WithShm.run_kernel_error ?_
  by_cases hp : ∃ k start, p = .into (.segment k) start
  · obtain ⟨k, start, rfl⟩ := hp
    unfold Shm.load
    rw [if_neg hn]
    dsimp only
    split_ifs with hlength
    · rw [Exec.run_bind_ok (Exec.run_get _), loadAt_eq_none, Exec.run_checked_none]
      by_contra hobject
      exact hno ⟨k, start, rfl, hlength, not_lt.mp hobject⟩
    · rfl
  · exact Shm.run_load_unmapped (fun k start heq => hp ⟨k, start, heq⟩) hn

theorem leads_of_run_load {p : Pointer} {n : ℕ} {bytes : Bytes}
    (hrun : (load p n).run w = .ok (bytes, w')) : Leads p n w := by
  by_contra hno
  rw [run_load_of_not_leads hno] at hrun
  cases hrun

/-- A copy to a buffer that has room returns, or leaves the memory it copies from. -/
theorem run_copyOut_cases {n : ℤ} {buffer : Bytes} (hnonneg : 0 ≤ n) (hroom : n ≤ buffer.length)
    (p : Pointer) : (∃ bytes, (copyOut (some buffer) p n).run w = .ok (bytes, w)) ∨
      (copyOut (some buffer) p n).run w = .error .outOfBounds := by
  rw [copyOut, if_neg (not_lt.mpr hnonneg)]
  by_cases hleads : Leads p n.toNat w
  · obtain ⟨copied, hlength, hload⟩ := hleads.run_load
    refine .inl ⟨some (overlay 0 copied buffer), (Exec.run_bind_ok hload).trans ?_⟩
    rw [storeDst, storeAt_eq_some (by omega)]
    rfl
  · exact .inr (Exec.run_bind_error (run_load_of_not_leads hleads))

/-- A copy that returns has loaded its bytes, and stored them at the start of the buffer. -/
theorem of_run_copyOut {p : Pointer} {n : ℤ} {buffer bytes : Option Bytes}
    (hrun : (copyOut buffer p n).run w = .ok (bytes, w')) : 0 ≤ n ∧ ∃ copied,
      (load p n.toNat).run w = .ok (copied, w') ∧ storeDst 0 copied buffer = some bytes := by
  rw [copyOut] at hrun
  split_ifs at hrun with hneg
  · cases hrun
  · obtain ⟨copied, t, hload, hrest⟩ := Exec.run_bind_eq_ok_iff.mp hrun
    obtain ⟨hstore, rfl⟩ := Exec.run_checked_eq_ok_iff.mp hrest
    exact ⟨not_lt.mp hneg, copied, hload, hstore⟩

/-- The pointer a read copies from. -/
def source (m : ReadMethod) (p : Pointer) : Pointer :=
  match m with
  | .read => p
  | .readFromLengthPrefixed => p.add sizeofInt64

/-- Both reads copy from behind the pointer that `GetBuffer` returns, and set no count. -/
theorem call_eq (m : ReadMethod) (bytes : Option Bytes) (n : ℤ) : m.call methods bytes n = (do
    let p ← getBuffer
    if (source m p).isSet then
      let bytes ← copyOut bytes (source m p) n
      return ⟨true, bytes, none⟩
    else
      return ⟨false, bytes, none⟩) := by
  cases m <;> rfl

theorem source_segment {m : ReadMethod} {p : Pointer} {k start : ℕ}
    (h : source m p = .into (.segment k) start) :
    ∃ start', p = .into (.segment k) start' ∧ start = start' + m.offset := by
  cases m with
  | read => exact ⟨start, h, rfl⟩
  | readFromLengthPrefixed =>
    cases p with
    | null => cases h
    | invalid => cases h
    | into region start' =>
      obtain ⟨rfl, rfl⟩ := Pointer.into.inj h
      exact ⟨start', rfl, rfl⟩

theorem isSet_source {m : ReadMethod} {p : Pointer} (h : p.isSet = true) :
    (source m p).isSet = true := by
  cases m with
  | read => exact h
  | readFromLengthPrefixed => cases p <;> rfl

/-- No read sets the count, and none of a negative size returns true. -/
theorem of_run_call {m : ReadMethod} {bytes : Option Bytes} {n : ℤ} {r : ReadResult}
    (hrun : (m.call methods bytes n).run w = .ok (r, w')) : r.numBytesRead = none ∧
      (r.result = true → 0 ≤ n) := by
  rw [call_eq] at hrun
  obtain ⟨p, w₁, hget, hrest⟩ := Exec.run_bind_eq_ok_iff.mp hrun
  split_ifs at hrest
  · obtain ⟨copied, t, hcopy, hpure⟩ := Exec.run_bind_eq_ok_iff.mp hrest
    cases hpure
    exact ⟨rfl, fun _ => (of_run_copyOut hcopy).1⟩
  · cases hrest
    exact ⟨rfl, fun hresult => absurd hresult Bool.false_ne_true⟩

/-- What is missing is the count: the bytes that were stored are those of the segment. -/
theorem stored_of_run_call {m : ReadMethod} {buffer : Bytes} {n : ℤ} {r : ReadResult} (hn : 0 < n)
    (hrun : (m.call methods (some buffer) n).run w = .ok (r, w')) (hresult : r.result = true) :
    ∃ bytes : Bytes, (bytes.length : ℤ) = n ∧ r.bytes = some (overlay 0 bytes buffer) ∧
      HasBytes m.offset bytes w' := by
  rw [call_eq] at hrun
  obtain ⟨p, w₁, hget, hrest⟩ := Exec.run_bind_eq_ok_iff.mp hrun
  obtain ⟨w₂, hget₂, -⟩ := run_getBuffer w
  obtain ⟨rfl, rfl⟩ := Prod.mk.inj (Except.ok.inj (hget.symm.trans hget₂))
  split_ifs at hrest
  · obtain ⟨stored, t, hcopy, hpure⟩ := Exec.run_bind_eq_ok_iff.mp hrest
    cases hpure
    obtain ⟨-, copied, hload, hstore⟩ := of_run_copyOut hcopy
    obtain ⟨k, start, hsource, hlength, hobject⟩ := (leads_of_run_load hload).resolve_left
      (by omega)
    obtain ⟨start', hbuffer, rfl⟩ := source_segment hsource
    rw [run_load_eq, hsource,
      WithShm.run_kernel_ok (Shm.run_load_segment hlength hobject)] at hload
    obtain ⟨rfl, rfl⟩ := Prod.mk.inj (Except.ok.inj hload)
    have hcopied := length_slice hobject
    exact ⟨_, by rw [hcopied]; omega, of_storeDst hstore, k, start', hbuffer, by rw [hcopied]⟩
  · cases hrest
    cases hresult

/-- While no system call fails, a read returns true or leaves the memory it copies from. -/
theorem run_call_cases {m : ReadMethod} {n : ℤ} {buffer : Bytes} (hnonneg : 0 ≤ n)
    (hsize : w.handle.bufferSize = size) (hcalls : w.shm.calls = [])
    (hroom : n ≤ buffer.length) :
    (∃ r w', (m.call methods (some buffer) n).run w = .ok (r, w') ∧ r.result = true) ∨
      (m.call methods (some buffer) n).run w = .error .outOfBounds := by
  obtain ⟨w₁, hget, -⟩ := run_getBuffer w
  have hset : w₁.handle.buffer.isSet = true := by
    refine (getBuffer_isSet hget).mpr (.inr ?_)
    rw [Shm.opens, Shm.truncates, hcalls, hsize]
    simp
  rw [call_eq, Exec.run_bind_ok hget, if_pos (isSet_source hset)]
  rcases run_copyOut_cases (w := w₁) hnonneg hroom (source m w₁.handle.buffer) with
    ⟨copied, hcopy⟩ | hout
  · exact .inl ⟨⟨true, copied, none⟩, w₁, Exec.run_bind_ok hcopy, rfl⟩
  · exact .inr (Exec.run_bind_error hout)

/-- Over shared memory no read that returns true reports what it delivered. -/
theorem faithfulRead_iff_fits {m : ReadMethod} {n : ℤ} (hsize : w.handle.bufferSize = size) :
    FaithfulRead size m .sharedMemory w n ↔ Transport.FitsRead size m .sharedMemory w n := by
  constructor
  · intro hfaithful
    by_contra hneg
    have hnonneg : 0 ≤ n := not_lt.mp hneg
    have hroom := le_length_zeros n
    rcases run_call_cases (m := m) (w := Transport.meets size .sharedMemory ([] : List Bool) w)
      hnonneg hsize rfl hroom with ⟨r, w', hrun, hresult⟩ | hout
    · obtain ⟨bytes, hdelivered⟩ := hfaithful.delivered ([] : List Bool) _ r w' hroom hrun hresult
      have hcount := hdelivered.numBytesRead
      rw [(of_run_call hrun).1] at hcount
      cases hcount
    · exact hfaithful.inBounds hnonneg ([] : List Bool) _ hroom hout
  · intro hneg
    refine ⟨fun hnonneg => absurd hneg (not_lt.mpr hnonneg), ?_⟩
    intro calls buffer r w' _ hrun hresult
    exact absurd hneg (not_lt.mpr ((of_run_call hrun).2 hresult))

end SharedMemorySidebandData

/-! ### Two buffers -/

namespace DoubleBufferedSharedMemorySidebandData

variable {w w' : WithShm DoubleBufferedSharedMemorySidebandData} {size : ℕ} {m : ReadMethod} {n : ℤ}

/-- A read is that of the current buffer, and a move. -/
theorem call_eq (m : ReadMethod) (bytes : Option Bytes) (n : ℤ) :
    m.call methods bytes n = thenSwitch (m.call SharedMemorySidebandData.methods bytes n) := by
  cases m <;> rfl

theorem faithfulRead_iff_fits (hsize : (currentBuffer w).handle.bufferSize = size) :
    FaithfulRead size m .doubleBufferedSharedMemory w n ↔
      Transport.FitsRead size m .doubleBufferedSharedMemory w n := by
  constructor
  · intro hfaithful
    by_contra hneg
    have hnonneg : 0 ≤ n := not_lt.mp hneg
    have hroom := le_length_zeros n
    rcases SharedMemorySidebandData.run_call_cases (m := m) (w := Transport.meets size
      .sharedMemory ([] : List Bool) (currentBuffer w)) hnonneg hsize rfl hroom with
      ⟨r, inner, hinner, hresult⟩ | hout
    · obtain ⟨w', hrun⟩ := thenSwitch_returns (w := Transport.meets size
        .doubleBufferedSharedMemory ([] : List Bool) w) hinner
      rw [← call_eq] at hrun
      obtain ⟨bytes, hdelivered⟩ := hfaithful.delivered ([] : List Bool) _ r w' hroom hrun hresult
      have hcount := hdelivered.numBytesRead
      rw [(SharedMemorySidebandData.of_run_call hinner).1] at hcount
      cases hcount
    · have hin := hfaithful.inBounds hnonneg ([] : List Bool) _ hroom
      have hin : (m.call methods (some (List.replicate n.toNat 0)) n).run (Transport.meets size
        .doubleBufferedSharedMemory ([] : List Bool) w) ≠ .error .outOfBounds := hin
      rw [call_eq] at hin
      exact thenSwitch_inBounds_iff.mp hin hout
  · intro hneg
    refine ⟨fun hnonneg => absurd hneg (not_lt.mpr hnonneg), ?_⟩
    intro calls buffer r w' _ hrun hresult
    have hrun' : (m.call methods (some buffer) n).run (Transport.meets size
      .doubleBufferedSharedMemory calls w) = .ok (r, w') := hrun
    rw [call_eq] at hrun'
    have hinner := SharedMemorySidebandData.of_run_call (of_run_thenSwitch_inner hrun')
    exact absurd hneg (not_lt.mpr (hinner.2 hresult))

end DoubleBufferedSharedMemorySidebandData

/-! ### Sockets -/

namespace SocketSidebandData

variable {h : SocketSidebandData} {size : ℕ} {m : ReadMethod} {n : ℤ}

theorem call_eq (m : ReadMethod) (bytes : Option Bytes) (n : ℤ) :
    m.call methods bytes n = read bytes n := by
  cases m <;> rfl

/-- A read whose loop returns true sets the count to what it was asked for. -/
theorem run_call_of_loop {dst buffer : Option Bytes} {c : Connection}
    (hloop : readLoop h.connection dst 0 n h.connection.recvs = .ok ((true, buffer), c)) :
    (m.call methods dst n).run h = .ok (⟨true, buffer, some n⟩, h.withConnection c) := by
  have hread : (readFromSocket dst n).run h = .ok ((true, buffer), h.withConnection c) := by
    rw [run_readFromSocket, hloop]
    rfl
  rw [call_eq, read, Exec.run_bind_ok hread]
  rfl

theorem of_run_call {dst : Option Bytes} {r : ReadResult} {h' : SocketSidebandData}
    (hrun : (m.call methods dst n).run h = .ok (r, h')) (hresult : r.result = true) :
    readLoop h.connection dst 0 n h.connection.recvs = .ok ((true, r.bytes), h'.connection) ∧
      r.numBytesRead = some n := by
  rw [call_eq, read] at hrun
  obtain ⟨⟨result, buffer⟩, t, hread, hrest⟩ := Exec.run_bind_eq_ok_iff.mp hrun
  obtain ⟨c, hloop, rfl⟩ := readFromSocket_eq_ok hread
  cases result with
  | true =>
    cases hrest
    exact ⟨hloop, rfl⟩
  | false =>
    cases hrest
    cases hresult

/-- What is taken from the stream is stored in the buffer. -/
theorem run_call_inBounds {buffer : Bytes} (hroom : n ≤ buffer.length) :
    (m.call methods (some buffer) n).run h ≠ .error .outOfBounds := by
  rw [call_eq]
  rcases readFromSocket_inBounds h (d := buffer) (n := n) (by omega) with
    hblocked | ⟨result, buffer', h', hread, -⟩
  · rw [read, Exec.run_bind_error hblocked]
    simp
  · obtain ⟨r, hr, -⟩ := read_of_readFromSocket hread
    rw [hr]
    simp

/-- A read of no bytes or of a negative number of them returns true at once. -/
theorem run_call_done (hn : n ≤ 0) (buffer : Bytes) : ∃ h',
    (m.call methods (some buffer) n).run h = .ok (⟨true, some buffer, some n⟩, h') :=
  ⟨_, run_call_of_loop (readLoop_done _ _ _ _ hn)⟩

theorem faithfulRead_iff_fits :
    FaithfulRead size m .sockets h n ↔ Transport.FitsRead size m .sockets h n := by
  constructor
  · intro hfaithful
    have hnonneg : 0 ≤ n := by
      by_contra hneg
      have hn : n ≤ 0 := (not_le.mp hneg).le
      obtain ⟨h', hrun⟩ := run_call_done (m := m) (h := Transport.meets size .sockets
        ([] : List RecvEvent) h) hn []
      obtain ⟨bytes, hdelivered⟩ :=
        hfaithful.delivered ([] : List RecvEvent) [] _ h' hn hrun rfl
      have hcount := Option.some.inj hdelivered.numBytesRead
      omega
    refine ⟨hnonneg, ?_⟩
    by_contra hover
    obtain ⟨k, rfl⟩ := Int.eq_ofNat_of_zero_le hnonneg
    have hroom : k ≤ (List.replicate k (0 : UInt8)).length := by rw [List.length_replicate]
    obtain ⟨dst', c', hloop, hincoming⟩ := readLoop_overrun
      (c := { h.connection with recvs := overrun k }) (by omega)
      (show k + 2 ^ 31 ≤ h.connection.incoming.length by omega) hroom
    obtain ⟨bytes, hdelivered⟩ := hfaithful.delivered (overrun k) _ _ _
      (by exact_mod_cast hroom) (run_call_of_loop hloop) rfl
    have hcount := Option.some.inj hdelivered.numBytesRead
    have hnext : h.connection.incoming = bytes ++ c'.incoming := hdelivered.next
    have hrest : c'.incoming = h.connection.incoming.drop (2 ^ 31 + k) := hincoming
    have hlength := congrArg List.length hnext
    rw [hrest, List.length_append, List.length_drop] at hlength
    omega
  · rintro ⟨hnonneg, hfits⟩
    refine ⟨fun _ recvs buffer hroom => run_call_inBounds hroom, ?_⟩
    intro recvs buffer r h' hroom hrun hresult
    obtain ⟨k, rfl⟩ := Int.eq_ofNat_of_zero_le hnonneg
    obtain ⟨hloop, hcount⟩ := of_run_call hrun hresult
    obtain ⟨hin, hbytes, hincoming⟩ := readLoop_exact (c := (Transport.meets size .sockets recvs h :
      SocketSidebandData).connection) (show k < 2 ^ 31 ∨ h.connection.incoming.length < k + 2 ^ 31
        by omega) (show 0 + k ≤ buffer.length by omega) hloop
    have htake : (h.connection.incoming.take k).length = k := by
      rw [List.length_take]
      exact min_eq_left hin
    refine ⟨h.connection.incoming.take k, ?_, ?_, hbytes, ?_⟩
    · rw [hcount, htake]
    · rw [htake]
    · change h.connection.incoming = _ ++ h'.connection.incoming
      rw [hincoming]
      exact (List.take_append_drop k _).symm

end SocketSidebandData

/-! ### RDMA -/

namespace RdmaSidebandDataImp

variable {size : ℕ} {h h' : RdmaSidebandDataImp size} {n : ℤ} {dst : Bytes} {r : ReadResult}
  {e : Filled} {rest : List Filled}

/-- However often the loop of `Read` goes round, it succeeds with the oldest message only. -/
theorem of_run_acquireLoop {results : List EasyRdmaResult} {result : EasyRdmaResult}
    (hsync : h.connectedReadSession.results = results)
    (hrun : (acquireLoop results).run h = .ok (result, h')) (hsuccess : result = .success) :
    ∃ e rest, h.connectedReadSession.delivered = e :: rest ∧
      h'.readBuffer = ⟨.into (.receiveRegion e.region) 0, e.bytes.length⟩ ∧
      h'.connectedReadSession.memory = h.connectedReadSession.memory := by
  have hacquire {h₀ h₁ : RdmaSidebandDataImp size} {result₀ : EasyRdmaResult}
      (hrun₀ : acquireReceivedRegion.run h₀ = .ok (result₀, h₁)) (hsuccess₀ : result₀ = .success) :
      ∃ e rest, h₀.connectedReadSession.delivered = e :: rest ∧
        h₁.readBuffer = ⟨.into (.receiveRegion e.region) 0, e.bytes.length⟩ ∧
        h₁.connectedReadSession.memory = h₀.connectedReadSession.memory := by
    obtain ⟨-, ⟨hne, -⟩ | ⟨-, e, rest, hdelivered, rfl⟩⟩ := acquireReceivedRegion_cases hrun₀
    · exact absurd hsuccess₀ hne
    · exact ⟨e, rest, hdelivered, rfl, ReceiveSession.memory_acquire⟩
  induction results generalizing h with
  | nil => exact hacquire hrun hsuccess
  | cons first results ih =>
    cases first with
    | success => exact hacquire hrun hsuccess
    | failure => exact hacquire hrun hsuccess
    | timeout =>
      obtain ⟨answer, t, hfirst, hrest⟩ := Exec.run_bind_eq_ok_iff.mp hrun
      obtain ⟨hanswer, ⟨-, rfl⟩ | ⟨hsucceeded, -⟩⟩ := acquireReceivedRegion_cases hfirst
      · exact ih (h := h.readAnswered) (congrArg List.tail hsync) hrest
      · rw [hsync, List.headD_cons] at hanswer
        cases hanswer.symm.trans hsucceeded

/-- A message that arrived is in its region. -/
theorem ReadsRegions.take_of_mem (hs : h.ReadsRegions)
    (he : e ∈ h.connectedReadSession.held ++ h.connectedReadSession.delivered) :
    e.bytes.length ≤ size ∧ (h.connectedReadSession.memory e.region).take e.bytes.length =
      e.bytes := by
  have hintact := hs.intact e he
  have hlength := congrArg List.length hintact
  rw [List.length_take, h.connectedReadSession.length_memory] at hlength
  exact ⟨by omega, hintact⟩

theorem ReadsRegions.take_of_delivered (hs : h.ReadsRegions)
    (hdelivered : h.connectedReadSession.delivered = e :: rest) : e.bytes.length ≤ size ∧
      (h.connectedReadSession.memory e.region).take e.bytes.length = e.bytes := by
  refine hs.take_of_mem (List.mem_append_right _ ?_)
  rw [hdelivered]
  exact List.mem_cons_self

/-- A `Read` that returns true sets the count to the length of the oldest message, and copies the
message if the comparison says that it fits. -/
theorem of_run_read (hs : h.ReadsRegions) (hrun : (read (some dst) n).run h = .ok (r, h'))
    (hresult : r.result = true) : ∃ e rest, h.connectedReadSession.delivered = e :: rest ∧
      r.numBytesRead = some (e.bytes.length : ℤ) ∧
      ((e.bytes.length : ℤ) ≤ n % 2 ^ 64 → r.bytes = some (overlay 0 e.bytes dst)) := by
  rw [read, Exec.run_bind_ok (Exec.run_modify _ h), Exec.run_bind_ok (Exec.run_get _)] at hrun
  obtain ⟨acquired, t, hloop, hrest⟩ := Exec.run_bind_eq_ok_iff.mp hrun
  split_ifs at hrest with hsuccess
  · obtain ⟨e, rest, hdelivered, hbuffer, hmemory⟩ := of_run_acquireLoop rfl hloop hsuccess
    obtain ⟨hsize, hintact⟩ := hs.take_of_delivered hdelivered
    refine ⟨e, rest, hdelivered, ?_⟩
    simp only [Exec.run_bind_ok (Exec.run_get _), hbuffer] at hrest
    have hload := load_ok (h := t) (r := e.region) (show 0 + e.bytes.length ≤ size by omega)
    rw [hmemory, slice, List.drop_zero, hintact] at hload
    split_ifs at hrest with hfits
    · rw [Exec.run_bind_ok hload] at hrest
      obtain ⟨stored, t', hstore, hrest⟩ := Exec.run_bind_eq_ok_iff.mp hrest
      obtain ⟨hdst, -⟩ := Exec.run_checked_eq_ok_iff.mp hstore
      obtain ⟨released, t'', -, hpure⟩ := Exec.run_bind_eq_ok_iff.mp hrest
      cases hpure
      exact ⟨rfl, fun _ => of_storeDst hdst⟩
    · obtain ⟨released, t', -, hpure⟩ := Exec.run_bind_eq_ok_iff.mp hrest
      cases hpure
      exact ⟨rfl, fun hfits' => absurd hfits' hfits⟩
  · cases hrest
    cases hresult

/-- With a message waiting, a `Read` that meets no failure returns true. -/
theorem run_read_of_delivered (hs : h.ReadsRegions) (hresults : h.connectedReadSession.results = [])
    (hdelivered : h.connectedReadSession.delivered = e :: rest)
    (hroom : e.bytes.length ≤ dst.length) :
    ∃ r h', (read (some dst) n).run h = .ok (r, h') ∧ r.result = true := by
  obtain ⟨hsize, hintact⟩ := hs.take_of_delivered hdelivered
  have hload := load_ok (h := h.received e) (r := e.region)
    (show 0 + e.bytes.length ≤ size by omega)
  have hmemory : (h.received e).connectedReadSession.memory = h.connectedReadSession.memory :=
    ReceiveSession.memory_acquire
  rw [hmemory, slice, List.drop_zero, hintact] at hload
  obtain ⟨released, t, hrelease⟩ := releaseReceivedBufferRegion_total (h.received e)
  rw [read, Exec.run_bind_ok (Exec.run_modify _ h), Exec.run_bind_ok (Exec.run_get _),
    Exec.run_bind_ok (acquireLoop_ok hresults hdelivered), if_pos rfl]
  simp only [Exec.run_bind_ok (Exec.run_get _)]
  split_ifs
  · refine ⟨⟨true, some (overlay 0 e.bytes dst), some e.bytes.length⟩, t,
      (Exec.run_bind_ok hload).trans ?_, rfl⟩
    rw [storeDst, storeAt_eq_some (show 0 + e.bytes.length ≤ dst.length by omega), Option.map_some,
      Exec.run_bind_ok (Exec.run_checked_some _ _), Exec.run_bind_ok hrelease]
    rfl
  · exact ⟨⟨true, some dst, some e.bytes.length⟩, t, (Exec.run_bind_ok hrelease).trans rfl, rfl⟩

/-- An acquire returns, or waits for a message. -/
theorem acquireReceivedRegion_returns (h : RdmaSidebandDataImp size) :
    acquireReceivedRegion.run h = .error .blocked ∨
      ∃ result h', acquireReceivedRegion.run h = .ok (result, h') := by
  rcases h.connectedReadSession.acquireReceivedRegion_returns with hblocked | ⟨answer, s, hrun⟩
  · exact .inl (Exec.run_bind_error (Exec.run_zoom_error hblocked))
  · exact .inr ⟨_, _, Exec.run_bind_ok (Exec.run_zoom_ok hrun)⟩

theorem acquireLoop_returns (results : List EasyRdmaResult) (h : RdmaSidebandDataImp size) :
    (acquireLoop results).run h = .error .blocked ∨
      ∃ result h', (acquireLoop results).run h = .ok (result, h') := by
  induction results generalizing h with
  | nil => exact acquireReceivedRegion_returns h
  | cons first results ih =>
    cases first with
    | success => exact acquireReceivedRegion_returns h
    | failure => exact acquireReceivedRegion_returns h
    | timeout =>
      rcases acquireReceivedRegion_returns h with hblocked | ⟨answer, t, hfirst⟩
      · exact .inl (Exec.run_bind_error hblocked)
      · rw [acquireLoop, Exec.run_bind_ok hfirst]
        exact ih t

/-- A `Read` into a buffer that has room for the oldest message stores inside it. -/
theorem read_inBounds (hs : h.ReadsRegions)
    (hroom : ∀ e ∈ h.connectedReadSession.delivered.head?, e.bytes.length ≤ dst.length) :
    (read (some dst) n).run h ≠ .error .outOfBounds := by
  rw [read, Exec.run_bind_ok (Exec.run_modify _ h), Exec.run_bind_ok (Exec.run_get _)]
  rcases acquireLoop_returns h.connectedReadSession.results { h with readBuffer := {} } with
    hblocked | ⟨result, t, hloop⟩
  · rw [Exec.run_bind_error hblocked]
    simp
  · rw [Exec.run_bind_ok hloop]
    split_ifs with hsuccess
    · obtain ⟨e, rest, hdelivered, hbuffer, hmemory⟩ :=
        of_run_acquireLoop (h := { h with readBuffer := {} }) rfl hloop hsuccess
      obtain ⟨hsize, hintact⟩ := hs.take_of_delivered hdelivered
      have hhead : e.bytes.length ≤ dst.length := hroom e (congrArg List.head? hdelivered)
      obtain ⟨released, t', hrelease⟩ := releaseReceivedBufferRegion_total t
      simp only [Exec.run_bind_ok (Exec.run_get _), hbuffer]
      have hload := load_ok (h := t) (r := e.region) (show 0 + e.bytes.length ≤ size by omega)
      rw [hmemory, slice, List.drop_zero, hintact] at hload
      split_ifs
      · rw [Exec.run_bind_ok hload, storeDst,
          storeAt_eq_some (show 0 + e.bytes.length ≤ dst.length by omega), Option.map_some,
          Exec.run_bind_ok (Exec.run_checked_some _ _), Exec.run_bind_ok hrelease]
        simp
      · rw [Exec.run_bind_ok hrelease]
        simp
    · simp

theorem faithfulRead_read_iff_fits (hs : h.ReadsRegions) (hn : n < 2 ^ 63) :
    FaithfulRead size .read .rdma h n ↔ Transport.FitsRead size .read .rdma h n := by
  constructor
  · intro hfaithful e he
    obtain ⟨rest, hdelivered⟩ := List.head?_eq_some_iff.mp he
    have hroom : max n.toNat e.bytes.length ≤
        (List.replicate (max n.toNat e.bytes.length) (0 : UInt8)).length := by
      rw [List.length_replicate]
    have hs₀ := hs.withResults []
    obtain ⟨r, h', hrun, hresult⟩ := run_read_of_delivered (n := n) hs₀ rfl hdelivered
      ((le_max_right _ _).trans hroom)
    obtain ⟨e', rest', hdelivered', hcount, -⟩ := of_run_read hs₀ hrun hresult
    obtain ⟨bytes, hbytes⟩ :=
      hfaithful.delivered ([] : List EasyRdmaResult) _ r h' (by omega) hrun hresult
    obtain ⟨rfl, -⟩ := List.cons.inj (hdelivered'.symm.trans hdelivered)
    have hsame := Option.some.inj (hcount.symm.trans hbytes.numBytesRead)
    rw [hsame]
    exact hbytes.le
  · intro hfits
    refine ⟨fun _ results buffer hroom => read_inBounds (hs.withResults results) fun e he => ?_, ?_⟩
    · have hle := hfits e he
      omega
    intro results buffer r h' _ hrun hresult
    have hs₀ := hs.withResults results
    obtain ⟨e, rest, hdelivered, hcount, hbytes⟩ := of_run_read hs₀ hrun hresult
    have hhead : h.connectedReadSession.delivered.head? = some e :=
      congrArg List.head? hdelivered
    have hle := hfits e hhead
    rw [Int.emod_eq_of_lt (by omega) (by omega)] at hbytes
    exact ⟨e.bytes, hcount, hle, hbytes hle, congrArg (Option.map Filled.bytes) hhead⟩

/-- What `ReadFromLengthPrefixed` returns is a copy out of the region of the last read. -/
theorem of_run_readFromLengthPrefixed
    (hrun : (readFromLengthPrefixed (some dst) n).run h = .ok (r, h')) : 0 ≤ n ∧
      r.numBytesRead = some n ∧ ∃ copied,
        (load (h.readBuffer.buffer.add sizeofInt64) n.toNat).run h = .ok (copied, h) ∧
        r.bytes = some (overlay 0 copied dst) := by
  rw [readFromLengthPrefixed] at hrun
  split_ifs at hrun with hneg
  · cases hrun
  · simp only [Exec.run_bind_ok (Exec.run_get _)] at hrun
    obtain ⟨copied, t, hload, hrest⟩ := Exec.run_bind_eq_ok_iff.mp hrun
    obtain rfl := load_state hload
    obtain ⟨stored, t', hstore, hpure⟩ := Exec.run_bind_eq_ok_iff.mp hrest
    obtain ⟨hdst, -⟩ := Exec.run_checked_eq_ok_iff.mp hstore
    cases hpure
    exact ⟨not_lt.mp hneg, rfl, copied, hload, of_storeDst hdst⟩

/-- With a region of the last read, `n` bytes behind the prefix are copied whatever they are. -/
theorem run_readFromLengthPrefixed_of_region {region : Fin 2}
    (hbuffer : h.readBuffer.buffer = .into (.receiveRegion region) 0) (hnonneg : 0 ≤ n)
    (hfits : sizeofInt64 + n ≤ size) (hroom : n ≤ dst.length) :
    ∃ r, (readFromLengthPrefixed (some dst) n).run h = .ok (r, h) ∧ r.result = true := by
  have hinside : 0 + sizeofInt64 + n.toNat ≤ size := by omega
  have hload := load_ok (h := h) (r := region) hinside
  have hlength : (slice (0 + sizeofInt64) n.toNat (h.connectedReadSession.memory region)).length =
      n.toNat := length_slice (hinside.trans_eq (h.connectedReadSession.length_memory region).symm)
  rw [readFromLengthPrefixed, if_neg (not_lt.mpr hnonneg), Exec.run_bind_ok (Exec.run_get h),
    hbuffer]
  refine ⟨⟨true, some (overlay 0 (slice (0 + sizeofInt64) n.toNat
    (h.connectedReadSession.memory region)) dst), some n⟩, (Exec.run_bind_ok hload).trans ?_, rfl⟩
  rw [storeDst, storeAt_eq_some (by omega)]
  rfl

/-- The bytes left of a message are in its region, behind the prefix. -/
theorem ReadsRegions.unread_eq (hs : h.ReadsRegions) (hunread : 0 < h.unread.length) :
    ∃ region, h.readBuffer.buffer = .into (.receiveRegion region) 0 ∧
      sizeofInt64 + h.unread.length ≤ size ∧ h.unread =
        slice sizeofInt64 h.unread.length (h.connectedReadSession.memory region) := by
  unfold unread at hunread ⊢
  cases hfind : h.connectedReadSession.held.find? fun e =>
      h.readBuffer.buffer = .into (.receiveRegion e.region) 0 with
  | none =>
    rw [hfind] at hunread
    exact absurd hunread (lt_irrefl _)
  | some e =>
    rw [hfind] at hunread
    dsimp only at hunread ⊢
    rw [List.length_drop] at hunread
    have hheld := List.mem_of_find?_eq_some hfind
    obtain ⟨hsize, htake⟩ := hs.take_of_mem (List.mem_append_left _ hheld)
    refine ⟨e.region, by simpa using List.find?_some hfind, ?_, ?_⟩
    · rw [List.length_drop]
      omega
    · conv_lhs => rw [← htake]
      rw [List.drop_take, List.length_drop, slice]

/-- Bytes behind the prefix can be loaded from the region of the last read only. -/
theorem ReadsRegions.of_run_load {k : ℕ} {copied : Bytes} (hs : h.ReadsRegions) (hk : 0 < k)
    (hload : (load (h.readBuffer.buffer.add sizeofInt64) k).run h = .ok (copied, h')) :
    ∃ region, h.readBuffer.buffer = .into (.receiveRegion region) 0 ∧ sizeofInt64 + k ≤ size ∧
      copied = slice sizeofInt64 k (h.connectedReadSession.memory region) := by
  rcases hs.readBuffer with hnull | ⟨region, hbuffer⟩
  · rw [hnull, Pointer.add] at hload
    unfold load at hload
    rw [if_neg (by omega)] at hload
    cases hload
  · refine ⟨region, hbuffer, ?_⟩
    rw [hbuffer, Pointer.add, Nat.zero_add] at hload
    have hinside : sizeofInt64 + k ≤ size := by
      by_contra hout
      rw [load_outOfBounds (by omega) (by omega)] at hload
      cases hload
    rw [load_ok hinside] at hload
    obtain ⟨hcopied, -⟩ := Prod.mk.inj (Except.ok.inj hload)
    exact ⟨hinside, hcopied.symm⟩

/-- Without a region of the last read, or beyond its end, the copy leaves its memory. -/
theorem readFromLengthPrefixed_outOfBounds (hn : 0 < n)
    (hout : h.readBuffer.buffer = .null ∨ ∃ region : Fin 2,
      h.readBuffer.buffer = .into (.receiveRegion region) 0 ∧ (size : ℤ) < sizeofInt64 + n) :
    (readFromLengthPrefixed (some dst) n).run h = .error .outOfBounds := by
  rw [readFromLengthPrefixed, if_neg (by omega), Exec.run_bind_ok (Exec.run_get h)]
  rcases hout with hnull | ⟨region, hbuffer, hlong⟩
  · have hload : (load (.invalid : Pointer) n.toNat).run h = .error .outOfBounds := by
      unfold load
      rw [if_neg (by omega)]
      rfl
    rw [hnull]
    exact Exec.run_bind_error hload
  · rw [hbuffer]
    exact Exec.run_bind_error (load_outOfBounds (by omega) (by omega))

/-- What is left of the message is copied from inside the region. -/
theorem readFromLengthPrefixed_inBounds (hs : h.ReadsRegions) (hnonneg : 0 ≤ n)
    (hlong : n ≤ h.unread.length) (hroom : n ≤ dst.length) :
    (readFromLengthPrefixed (some dst) n).run h ≠ .error .outOfBounds := by
  rcases hnonneg.eq_or_lt with rfl | hpos
  · rw [readFromLengthPrefixed, if_neg (by omega), Exec.run_bind_ok (Exec.run_get h)]
    have hload (p : Pointer) : (load p (0 : ℤ).toNat).run h = .ok ([], h) := rfl
    rw [Exec.run_bind_ok (hload _), storeDst, storeAt_eq_some (Nat.zero_le _)]
    simp
  · obtain ⟨region, hbuffer, hsize, -⟩ := hs.unread_eq (by omega)
    obtain ⟨r, hrun, -⟩ := run_readFromLengthPrefixed_of_region hbuffer hnonneg (by omega) hroom
    rw [hrun]
    simp

theorem faithfulRead_readFromLengthPrefixed_iff_fits (hs : h.ReadsRegions) :
    FaithfulRead size .readFromLengthPrefixed .rdma h n ↔
      Transport.FitsRead size .readFromLengthPrefixed .rdma h n := by
  constructor
  · intro hfaithful
    by_contra hlong
    have hroom := le_length_zeros n
    have hpos : 0 < n := (Int.natCast_nonneg _).trans_lt (not_le.mp hlong)
    have hin : (readFromLengthPrefixed (some (List.replicate n.toNat 0)) n).run
        (h.withResults []) ≠ .error .outOfBounds :=
      hfaithful.inBounds hpos.le ([] : List EasyRdmaResult) _ hroom
    rcases hs.readBuffer with hnull | ⟨region, hbuffer⟩
    · exact hin (readFromLengthPrefixed_outOfBounds hpos (.inl hnull))
    by_cases hinside : sizeofInt64 + n ≤ size
    -- what is copied is longer than what is left of the message
    · obtain ⟨r, hrun, hresult⟩ := run_readFromLengthPrefixed_of_region (h := h.withResults [])
        (n := n) hbuffer hpos.le hinside hroom
      obtain ⟨bytes, hbytes⟩ :=
        hfaithful.delivered ([] : List EasyRdmaResult) _ r _ hroom hrun hresult
      obtain ⟨-, hcount, -⟩ := of_run_readFromLengthPrefixed hrun
      have hsame := Option.some.inj (hcount.symm.trans hbytes.numBytesRead)
      have hnext : bytes <+: h.unread := hbytes.next
      rw [hsame] at hlong
      exact hlong (Int.ofNat_le.mpr hnext.length_le)
    · exact hin (readFromLengthPrefixed_outOfBounds hpos
        (.inr ⟨region, hbuffer, not_le.mp hinside⟩))
  · intro hfits
    have hfits : n ≤ h.unread.length := hfits
    refine ⟨fun hnonneg results buffer hroom =>
      readFromLengthPrefixed_inBounds (hs.withResults results) hnonneg hfits hroom, ?_⟩
    intro results buffer r h' _ hrun hresult
    obtain ⟨hnonneg, hcount, copied, hload, hbytes⟩ := of_run_readFromLengthPrefixed hrun
    obtain ⟨k, rfl⟩ := Int.eq_ofNat_of_zero_le hnonneg
    rcases Nat.eq_zero_or_pos k with rfl | hk
    · cases hload
      exact ⟨[], hcount, le_rfl, hbytes, List.nil_prefix⟩
    have hs₀ := hs.withResults results
    obtain ⟨region, hbuffer, hinside, rfl⟩ := hs₀.of_run_load (show 0 < k from hk) hload
    have hlong : k ≤ h.unread.length := Int.ofNat_le.mp hfits
    obtain ⟨region', hbuffer', -, hunread⟩ := hs.unread_eq (by omega)
    have hlength : (slice sizeofInt64 k (h.connectedReadSession.memory region)).length = k :=
      length_slice (hinside.trans_eq (h.connectedReadSession.length_memory region).symm)
    refine ⟨_, ?_, ?_, hbytes, ?_⟩
    · rw [hcount]
      exact congrArg (fun l : ℕ => some (l : ℤ)) hlength.symm
    · exact_mod_cast hlength.le
    · obtain ⟨hregion, -⟩ := Pointer.into.inj (hbuffer.symm.trans hbuffer')
      cases hregion
      change slice sizeofInt64 k (h.connectedReadSession.memory region) <+: h.unread
      rw [hunread, slice, slice]
      exact List.take_prefix_take_left hlong

end RdmaSidebandDataImp

/-! ### Every reachable handle -/

/-- **What a successful read reports is what it delivered, exactly under the condition**: for
every transport, both methods, every state that a handle gets into and every size. -/
theorem faithfulRead_iff {size : ℕ} {T : Transport} {d : T.Derived size}
    (hd : (T.handleRuns size).Reachable Anything d) (m : ReadMethod) (bufferSize : Int64) :
    FaithfulRead size m T d bufferSize.toInt ↔ T.FitsRead size m d bufferSize.toInt := by
  have hkept := Transport.kept_of_reachable hd
  cases T with
  | sharedMemory => exact SharedMemorySidebandData.faithfulRead_iff_fits hkept
  | doubleBufferedSharedMemory =>
    exact DoubleBufferedSharedMemorySidebandData.faithfulRead_iff_fits (hkept _)
  | sockets => exact SocketSidebandData.faithfulRead_iff_fits
  | rdma =>
    cases m with
    | read => exact RdmaSidebandDataImp.faithfulRead_read_iff_fits hkept bufferSize.toInt_lt
    | readFromLengthPrefixed =>
      exact RdmaSidebandDataImp.faithfulRead_readFromLengthPrefixed_iff_fits hkept

/-- A new handle with a message that has arrived. -/
def arrived (r : Fin 2) (bytes : Bytes) : RdmaSidebandDataImp 16 :=
  { connectedHandle 16 with
    connectedReadSession := (connectedHandle 16).connectedReadSession.arrive r bytes }

theorem reachable_arrived {r : Fin 2} {bytes : Bytes} (hbytes : bytes.length ≤ 16) :
    (Transport.handleRuns 16 .rdma).Reachable Anything (arrived r bytes) := by
  have hnew : (Transport.handleRuns 16 .rdma).Reachable Anything (connectedHandle 16) :=
    .init ⟨rfl, rfl, rfl⟩
  have harrives : Transport.happens 16 .rdma (.arrives r bytes) (connectedHandle 16) =
      some (arrived r bytes) := by
    simp only [Transport.happens]
    exact if_pos ⟨List.not_mem_nil, hbytes⟩
  exact hnew.step (a := .event (.arrives r bytes)) trivial harrives

/-- A message of three bytes fits in a buffer of four. -/
theorem faithfulRead_four :
    FaithfulRead 16 .read .rdma (arrived 0 [1, 2, 3]) (4 : Int64).toInt := by
  refine (faithfulRead_iff (reachable_arrived (by decide)) .read 4).mpr fun e he => ?_
  obtain rfl := Option.some.inj he
  decide

/-- Read into a buffer of two, it is dropped, and the read returns true. -/
theorem not_faithfulRead_dropped : ¬ ∀ (size : ℕ) (T : Transport) (d : T.Derived size),
    (T.handleRuns size).Reachable Anything d → ∀ m (bufferSize : Int64),
      FaithfulRead size m T d bufferSize.toInt := by
  intro hall
  have hrun : ((RdmaSidebandDataImp.read (some [0, 0]) 2).returned
      (arrived 0 [1, 2, 3])).map (fun r =>
      (r.1, r.2.connectedReadSession.held.length)) = some (⟨true, some [0, 0], some 3⟩, 0) := rfl
  obtain ⟨⟨r, h'⟩, hreturned, heq⟩ := Option.map_eq_some_iff.mp hrun
  obtain ⟨rfl, -⟩ := Prod.mk.inj heq
  have hreachable : (Transport.handleRuns 16 .rdma).Reachable Anything (arrived 0 [1, 2, 3]) :=
    reachable_arrived (by decide)
  obtain ⟨bytes, hbytes⟩ := (hall 16 .rdma _ hreachable .read 2).delivered
    ([] : List EasyRdmaResult) [0, 0] _ h' le_rfl (Exec.returned_eq_some_iff.mp hreturned) rfl
  have hsame := Option.some.inj hbytes.numBytesRead
  have hle := hbytes.le
  rw [← hsame] at hle
  exact absurd hle (by decide)

end Sideband
