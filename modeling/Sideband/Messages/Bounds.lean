import Sideband.Messages.Transport
import Sideband.Rdma.Calls
import Sideband.SharedMemory.Attached
import Sideband.Sockets.Loops

/-!
# The length prefix of a received message

`ReadSidebandMessage` passes the received prefix on, from one layer to the next, and no layer
compares it with the size of the buffer.

* `Transport.Received size p T`: the next message on a handle of transport `T` has prefix `p`.
* `PrefixSafe T size p`: whatever else the peer and the kernel do, the call stays in its
  memory, and refuses a prefix beyond the capacity.
* `prefixSafe_iff`: that holds exactly of the prefixes that fit (`Fits`).
-/

namespace Sideband

open Foundation

/-! ### Prefixes -/

/-- The memory starts with the prefix `p`, as far as the memory goes: of a buffer shorter than
eight bytes only what it has is compared. -/
def StartsWith (mem : Bytes) (p : ℤ) : Prop := mem.take sizeofInt64 <+: le64 p

theorem StartsWith.int64OfLe_eq {mem : Bytes} {p : ℤ} (h : StartsWith mem p)
    (hlen : sizeofInt64 ≤ mem.length) (h₁ : -2 ^ 63 ≤ p) (h₂ : p < 2 ^ 63) :
    int64OfLe (mem.take sizeofInt64) = p := by
  have heq : mem.take sizeofInt64 = le64 p := by
    refine h.eq_of_length ?_
    rw [List.length_take, length_le64_eq_sizeof]
    omega
  rw [heq, int64OfLe_le64 h₁ h₂]

/-- Memory of `size` bytes that starts with the prefix `p`. -/
def memoryWith (size : ℕ) (p : ℤ) : Bytes := (le64 p ++ List.replicate size 0).take size

theorem length_memoryWith (size : ℕ) (p : ℤ) : (memoryWith size p).length = size := by
  simp [memoryWith]

theorem startsWith_memoryWith (size : ℕ) (p : ℤ) : StartsWith (memoryWith size p) p := by
  have hheader : (le64 p).length = sizeofInt64 := length_le64_eq_sizeof p
  rw [StartsWith, memoryWith, List.take_take, List.take_append_of_le_length (by omega)]
  exact List.take_prefix _ _

namespace Transport

/-- The next message has prefix `p`: the socket's `ReadLengthPrefix` yields it, or it is in front
of the memory that the read is handed. What follows the prefix is anything, also less than it
says. -/
def Received (size : ℕ) (p : ℤ) : (T : Transport) → T.Derived size → Prop
  | sharedMemory, w => ∃ n w',
      SharedMemorySidebandData.getBuffer.run w = .ok (.into (.segment n) 0, w') ∧
      w'.handle.bufferSize = size ∧ (w'.shm.object n).length = size ∧
      StartsWith (w'.shm.object n) p
  | doubleBufferedSharedMemory, w => ∃ n inner,
      SharedMemorySidebandData.getBuffer.run ⟨w.handle.buffer w.handle.current, w.shm⟩ =
        .ok (.into (.segment n) 0, inner) ∧
      inner.handle.bufferSize = size ∧ (inner.shm.object n).length = size ∧
      StartsWith (inner.shm.object n) p
  | sockets, h => ∃ h', SocketSidebandData.readLengthPrefix.run h = .ok (p, h')
  | rdma, h => ∃ r h', (RdmaSidebandDataImp.read none 0).run h = .ok (⟨true, none, none⟩, h') ∧
      h'.readBuffer.buffer = .into (.receiveRegion r) 0 ∧
      StartsWith (h'.connectedReadSession.memory r) p

end Transport

/-- A `ReadSidebandMessage` that receives the prefix `p` stays in its memory, and returns `false`
if the prefix does not fit the capacity. Staying in memory is asked of every message type and
every handle; whether the call returns at all is asked only of a prefix to be refused. -/
structure PrefixSafe (T : Transport) (size : ℕ) (p : ℤ) : Prop where
  inBounds : ∀ {M : Type} (codec : MessageLite M) (o : SidebandData (T.Derived size)),
    Ready size o → T.Received size p o.derived →
      (readSidebandMessage codec (T.methods size)).run o ≠ .error .outOfBounds
  refused : ¬ (0 ≤ p ∧ p ≤ T.capacity size) →
    ∀ {M : Type} (codec : MessageLite M) (o : SidebandData (T.Derived size)),
      Ready size o → T.Received size p o.derived →
        ∃ o', (readSidebandMessage codec (T.methods size)).run o = .ok (none, o')

/-- The prefix fits the capacity, and is no negative number as an `int`: a buffer of 2 GiB or
more has room for prefixes that the parser is called with as negative sizes. -/
def Fits (T : Transport) (size : ℕ) (p : ℤ) : Prop :=
  0 ≤ p ∧ p ≤ T.capacity size ∧ 0 ≤ toInt32 p

instance (T : Transport) (size : ℕ) (p : ℤ) : Decidable (Fits T size p) :=
  inferInstanceAs (Decidable (_ ∧ _ ∧ _))

/-! ### The direct path -/

/-- `BeginDirectReadLengthPrefixed` hands out what is behind the prefix `p`, in memory of `size`
bytes. This is what the three transports with direct access have in common, as far as a read
asks. -/
structure Presents {δ : Type} (vt : SidebandMethods δ) (size : ℕ) (p : ℤ) (d : δ) : Prop where
  direct : vt.supportsDirectReadWrite = true
  short : size < sizeofInt64 → vt.beginDirectReadLengthPrefixed.run d = .error .outOfBounds
  begins : sizeofInt64 ≤ size → ∃ buffer d',
    vt.beginDirectReadLengthPrefixed.run d = .ok ((buffer, some p), d') ∧
    (∀ n, sizeofInt64 + n ≤ size → ∃ bytes : Bytes, bytes.length = n ∧
      (vt.load buffer n).run d' = .ok (bytes, d')) ∧
    (∀ n, size < sizeofInt64 + n → (vt.load buffer n).run d' = .error .outOfBounds) ∧
    ∃ result d'', vt.finishDirectRead.run d' = .ok (result, d'')

section Direct

variable {δ M : Type} {codec : MessageLite M} {vt : SidebandMethods δ} {size : ℕ} {p : ℤ}
  {o : SidebandData δ}

/-- The call parses as many bytes as the prefix says as an `int`, if they are there. -/
theorem Presents.run_ok (codec : MessageLite M) (h : Presents vt size p o.derived)
    (hp : 0 ≤ toInt32 p) (hle : sizeofInt64 + (toInt32 p).toNat ≤ size) :
    ∃ (bytes : Bytes) (o' : SidebandData δ), bytes.length = (toInt32 p).toNat ∧
      (readSidebandMessage codec vt).run o = .ok (codec.parse bytes, o') := by
  obtain ⟨buffer, d', hbegin, hload, -, result, d'', hfinish⟩ := h.begins (by omega)
  obtain ⟨bytes, hlen, hbytes⟩ := hload _ hle
  have hparse : (parseFromArray codec vt buffer p).run d' = .ok (codec.parse bytes, d') :=
    run_parseFromArray_ok hp hbytes
  have hrun : (directRead codec vt).run o.derived = .ok (codec.parse bytes, d'') := by
    rw [directRead, Exec.run_bind_ok hbegin]
    dsimp only [Option.getD_some]
    rw [Exec.run_bind_ok hparse, Exec.run_bind_ok hfinish, Exec.run_pure]
  refine ⟨bytes, { o with derived := d'' }, hlen, ?_⟩
  rw [readSidebandMessage_direct h.direct]
  exact SidebandData.run_call_ok hrun

/-- Any other prefix leads out of the memory. -/
theorem Presents.run_outOfBounds (h : Presents vt size p o.derived)
    (hp : toInt32 p < 0 ∨ size < sizeofInt64 + (toInt32 p).toNat) :
    (readSidebandMessage codec vt).run o = .error .outOfBounds := by
  have hrun : (directRead codec vt).run o.derived = .error .outOfBounds := by
    by_cases hsize : size < sizeofInt64
    · rw [directRead, Exec.run_bind_error (h.short hsize)]
    · obtain ⟨buffer, d', hbegin, -, hload, -⟩ := h.begins (by omega)
      have hparse : (parseFromArray codec vt buffer p).run d' = .error .outOfBounds := by
        by_cases hneg : toInt32 p < 0
        · exact run_parseFromArray_neg hneg d'
        · exact run_parseFromArray_error (by omega) (hload _ (by omega))
      rw [directRead, Exec.run_bind_ok hbegin]
      dsimp only [Option.getD_some]
      rw [Exec.run_bind_error hparse]
  rw [readSidebandMessage_direct h.direct]
  exact SidebandData.run_call_error hrun

/-- A codec that refuses nothing up to 2 GiB reads a message. -/
theorem rawMessage_parse (bytes : Bytes) (h : bytes.length = (toInt32 p).toNat) :
    ∃ m, rawMessage.parse bytes = some m := by
  have := toInt32_lt p
  exact ⟨_, dif_pos (show bytes.length < 2 ^ 31 by omega)⟩

end Direct

/-- On the direct path, exactly the prefixes that fit are safe. -/
theorem prefixSafe_iff_of_presents {T : Transport} {size : ℕ} {p : ℤ}
    (hcapacity : T.capacity size = size - sizeofInt64)
    (hpresents : ∀ d, T.Received size p d → Presents (T.methods size) size p d)
    (hexists : ∃ d, T.Received size p d) : PrefixSafe T size p ↔ Fits T size p := by
  constructor
  · intro h
    obtain ⟨d, hd⟩ := hexists
    have hready : Ready size (SidebandData.new size d) := ⟨rfl, .inl rfl⟩
    -- a codec that accepts everything shows that the load is in bounds and not refused
    have hbounds : 0 ≤ toInt32 p ∧ sizeofInt64 + (toInt32 p).toNat ≤ size := by
      by_contra hout
      exact h.inBounds rawMessage (SidebandData.new size d) hready hd
        ((hpresents d hd).run_outOfBounds (by omega))
    refine and_assoc.mp ⟨?_, hbounds.1⟩
    by_contra hno
    have hpresented : Presents (T.methods size) size p (SidebandData.new size d).derived :=
      hpresents d hd
    obtain ⟨bytes, o', hlen, hok⟩ := hpresented.run_ok rawMessage hbounds.1 hbounds.2
    obtain ⟨m, hm⟩ := rawMessage_parse bytes hlen
    obtain ⟨o'', hrefused⟩ := h.refused hno rawMessage (SidebandData.new size d) hready hd
    rw [hok, hm] at hrefused
    cases hrefused
  -- conversely a prefix that fits is read as it is, and nothing has to be refused
  · rintro ⟨h₀, hle, hint⟩
    have hsmall := toInt32_le h₀
    rw [hcapacity] at hle
    constructor
    · intro M codec o hready hd hout
      obtain ⟨bytes, o', -, hok⟩ := (hpresents o.derived hd).run_ok codec hint (by omega)
      rw [hok] at hout
      cases hout
    · intro hno
      exact absurd ⟨h₀, by rwa [hcapacity]⟩ hno

/-! ### The direct transports -/

section Transports

variable {size : ℕ} {p : ℤ}

namespace SharedMemorySidebandData

variable {n : ℕ} {w w' : WithShm SharedMemorySidebandData}

/-- A handle whose memory starts with the prefix presents it. -/
theorem presents (hget : getBuffer.run w = .ok (.into (.segment n) 0, w'))
    (hsize : w'.handle.bufferSize = size) (hlen : (w'.shm.object n).length = size)
    (hstart : StartsWith (w'.shm.object n) p) (h₁ : -2 ^ 63 ≤ p) (h₂ : p < 2 ^ 63) :
    Presents methods size p w where
  direct := rfl
  short hshort := by
    have hload : (load (.into (.segment n) 0) sizeofInt64).run w' = .error .outOfBounds :=
      run_load_outOfBounds hsize (by decide) (by omega)
    change beginDirectReadLengthPrefixed.run w = _
    rw [beginDirectReadLengthPrefixed, Exec.run_bind_ok hget, if_pos (by simp),
      Exec.run_bind_error hload]
  begins hlong := by
    have hload := run_load_ok hsize hlen (show 0 + sizeofInt64 ≤ size by omega)
    refine ⟨.into (.segment n) sizeofInt64, w', ?_, ?_, ?_, true, w', rfl⟩
    · change beginDirectReadLengthPrefixed.run w = _
      rw [beginDirectReadLengthPrefixed, Exec.run_bind_ok hget, if_pos (by simp),
        Exec.run_bind_ok hload, Exec.run_pure, slice, List.drop_zero,
        hstart.int64OfLe_eq (by omega) h₁ h₂, Pointer.add, Nat.zero_add]
    · intro k hk
      exact ⟨_, length_slice (by omega), run_load_ok hsize hlen hk⟩
    · intro k hk
      exact run_load_outOfBounds hsize (by omega) hk

end SharedMemorySidebandData

/-- The pair presents what its current buffer presents. -/
theorem DoubleBufferedSharedMemorySidebandData.presents
    {w : WithShm DoubleBufferedSharedMemorySidebandData}
    (h : Presents SharedMemorySidebandData.methods size p
      ⟨w.handle.buffer w.handle.current, w.shm⟩) : Presents methods size p w where
  direct := rfl
  short hshort := run_onCurrent_error (h.short hshort)
  begins hlong := by
    obtain ⟨buffer, inner, hbegin, hload, hout, -⟩ := h.begins hlong
    obtain ⟨w₁, hw₁⟩ : ∃ w₁ : WithShm DoubleBufferedSharedMemorySidebandData,
      ⟨w.handle.setBuffer w.handle.current inner.handle, inner.shm⟩ = w₁ := ⟨_, rfl⟩
    have hinner : (⟨w₁.handle.buffer w₁.handle.current, w₁.shm⟩ : WithShm _) = inner := by
      simp [← hw₁]
    have hput : (⟨w₁.handle.setBuffer w₁.handle.current inner.handle, inner.shm⟩ : WithShm _) =
        w₁ := by
      simp [← hw₁]
    refine ⟨buffer, w₁, ?_, ?_, ?_, true, _, rfl⟩
    · rw [← hw₁]
      exact Exec.run_zoom_ok hbegin
    · intro k hk
      obtain ⟨bytes, hlen, hrun⟩ := hload k hk
      refine ⟨bytes, hlen, ?_⟩
      have hzoom : (onCurrent (SharedMemorySidebandData.load buffer k)).run w₁ = .ok (bytes,
          ⟨w₁.handle.setBuffer w₁.handle.current inner.handle, inner.shm⟩) :=
        Exec.run_zoom_ok (by rw [hinner]; exact hrun)
      rw [hput] at hzoom
      exact hzoom
    · intro k hk
      have hrun := hout k hk
      rw [← hinner] at hrun
      exact run_onCurrent_error hrun

namespace RdmaSidebandDataImp

variable {r : Fin 2} {h h' : RdmaSidebandDataImp size}

/-- A handle whose oldest delivered region starts with the prefix presents it. -/
theorem presents (hread : (read none 0).run h = .ok (⟨true, none, none⟩, h'))
    (hbuffer : h'.readBuffer.buffer = .into (.receiveRegion r) 0)
    (hstart : StartsWith (h'.connectedReadSession.memory r) p)
    (h₁ : -2 ^ 63 ≤ p) (h₂ : p < 2 ^ 63) : Presents methods size p h where
  direct := rfl
  short hshort := by
    have hload : (load (.into (.receiveRegion r) 0) sizeofInt64).run h' = .error .outOfBounds :=
      load_outOfBounds (by decide) (by omega)
    change beginDirectReadLengthPrefixed.run h = _
    rw [beginDirectReadLengthPrefixed, Exec.run_bind_ok hread, if_pos rfl,
      Exec.run_bind_ok (Exec.run_get h'), hbuffer, Exec.run_bind_error hload]
  begins hlong := by
    have hload := load_ok (h := h') (r := r) (show 0 + sizeofInt64 ≤ size by omega)
    have hmem := h'.connectedReadSession.length_memory r
    refine ⟨.into (.receiveRegion r) sizeofInt64, h', ?_, ?_, ?_, true, finishDirectRead_total h'⟩
    · change beginDirectReadLengthPrefixed.run h = _
      rw [beginDirectReadLengthPrefixed, Exec.run_bind_ok hread, if_pos rfl,
        Exec.run_bind_ok (Exec.run_get h'), hbuffer, Exec.run_bind_ok hload, Exec.run_pure, slice,
        List.drop_zero, hstart.int64OfLe_eq (by omega) h₁ h₂, Pointer.add, Nat.zero_add]
    · intro k hk
      exact ⟨_, length_slice (by omega), load_ok hk⟩
    · intro k hk
      exact load_outOfBounds (by omega) hk

end RdmaSidebandDataImp

/-! ### Messages with any prefix -/

/-- A kernel with one object. -/
def Shm.single (mem : Bytes) : Shm where
  objects := [mem]
  distinct := distinct_empty

/-- A handle that has mapped the first object. -/
def SharedMemorySidebandData.onFirst (size : ℕ) : SharedMemorySidebandData :=
  { SharedMemorySidebandData.new [] size with buffer := .into (.segment 0) 0 }

/-- A session with a delivered region of this content. -/
def ReceiveSession.delivering {size : ℕ} (mem : Bytes) (h : mem.length = size) :
    ReceiveSession size where
  memory _ := mem
  delivered := [⟨⟨0, Nat.two_pos⟩, mem⟩]
  length_memory _ := h

/-- A peer can send any prefix. -/
theorem exists_received_direct {T : Transport} (hT : T ≠ .sockets) (size : ℕ) (p : ℤ) :
    ∃ d, T.Received size p d := by
  have hlen := length_memoryWith size p
  have hstart := startsWith_memoryWith size p
  cases T with
  | sharedMemory =>
    exact ⟨⟨.onFirst size, .single (memoryWith size p)⟩, 0, _, rfl, rfl, hlen, hstart⟩
  | doubleBufferedSharedMemory =>
    exact ⟨⟨⟨[], .bufferA, .onFirst size, .onFirst size⟩, .single (memoryWith size p)⟩, 0, _, rfl,
      rfl, hlen, hstart⟩
  | sockets => exact absurd rfl hT
  | rdma =>
    refine ⟨⟨.configured size, .delivering (memoryWith size p) hlen, {}, {}⟩, 0, _,
      RdmaSidebandDataImp.read_none_ok rfl rfl, rfl, ?_⟩
    have hmemory := ReceiveSession.memory_acquire (s := .delivering (memoryWith size p) hlen)
    exact (congrArg (StartsWith · p) (congrFun hmemory 0)).mpr hstart

theorem prefixSafe_iff_direct {T : Transport} (hT : T ≠ .sockets) (size : ℕ) {p : ℤ}
    (h₁ : -2 ^ 63 ≤ p) (h₂ : p < 2 ^ 63) : PrefixSafe T size p ↔ Fits T size p := by
  refine prefixSafe_iff_of_presents ?_ ?_ (exists_received_direct hT size p)
  · cases T with
    | sockets => exact absurd rfl hT
    | _ => rfl
  · intro d hd
    cases T with
    | sharedMemory =>
      obtain ⟨n, w', hget, hsize, hlen, hstart⟩ := hd
      exact SharedMemorySidebandData.presents hget hsize hlen hstart h₁ h₂
    | doubleBufferedSharedMemory =>
      obtain ⟨n, inner, hget, hsize, hlen, hstart⟩ := hd
      exact DoubleBufferedSharedMemorySidebandData.presents
        (SharedMemorySidebandData.presents hget hsize hlen hstart h₁ h₂)
    | sockets => exact absurd rfl hT
    | rdma =>
      obtain ⟨r, h', hread, hbuffer, hstart⟩ := hd
      exact RdmaSidebandDataImp.presents hread hbuffer hstart h₁ h₂

/-! ### The copying transport -/

namespace SocketSidebandData

variable {M : Type} {codec : MessageLite M} {o : SidebandData SocketSidebandData}
  {d : SocketSidebandData}

/-- A prefix that fits is read, and as many bytes behind it, into the buffer, and parsed there;
or the call waits. -/
theorem readSidebandMessage_inBounds (hready : Ready size o)
    (hreceived : readLengthPrefix.run o.derived = .ok (p, d)) (h₀ : 0 ≤ p) (hle : p ≤ size)
    (hint : 0 ≤ toInt32 p) :
    (readSidebandMessage codec methods).run o ≠ .error .outOfBounds := by
  have hallocated := hready.length_allocated
  have hsmall := toInt32_le h₀
  intro hout
  rcases readFromSocket_inBounds d (d := o.allocated) (n := p) (by omega) with
    hblocked | ⟨result, buffer, d', hread, hlen⟩
  · have hread : (methods.readFromLengthPrefixed (some o.allocated) p).run d =
        .error .blocked := by
      change (read (some o.allocated) p).run d = _
      rw [read, Exec.run_bind_error hblocked]
    rw [run_readSidebandMessage_copy_error rfl hreceived hread] at hout
    cases hout
  · -- whether it succeeded or not, the read left a buffer of the same size to parse in
    obtain ⟨r, hr, hbytes⟩ := read_of_readFromSocket hread
    rw [run_readSidebandMessage_copy rfl hreceived hr, hbytes,
      run_parseFromSerializeBuffer_ok hint (by dsimp only [Option.getD_some]; omega)] at hout
    cases hout

/-- A handle whose connection has a prefix, then a body. The prefix arrives in one piece; how the
body is cut is open. -/
def withPrefix (p : ℤ) (body : Bytes) (recvs : List RecvEvent) : SocketSidebandData where
  socket := 0
  lowLatency := false
  connection := { incoming := le64 p ++ body, recvs := .deliver sizeofInt64 :: recvs }

theorem run_readLengthPrefix_withPrefix (h₁ : -2 ^ 63 ≤ p) (h₂ : p < 2 ^ 63) (body : Bytes)
    (recvs : List RecvEvent) : readLengthPrefix.run (withPrefix p body recvs) = .ok (p,
      (withPrefix p body recvs).withConnection { incoming := body, recvs }) := by
  have hheader : (le64 p).length = sizeofInt64 := length_le64_eq_sizeof p
  have hne : le64 p ++ body ≠ [] := by
    intro hnil
    rw [(List.append_eq_nil_iff.mp hnil).1] at hheader
    cases hheader
  have hcount : transferCount sizeofInt64 (min (sizeofInt64 : ℤ).toNat (le64 p ++ body).length) =
      sizeofInt64 := by
    rw [List.length_append, hheader, transferCount, sizeofInt64]
    omega
  have htake : (le64 p ++ body).take sizeofInt64 = le64 p := by rw [← hheader, List.take_left]
  have hdrop : (withPrefix p body recvs).connection.incoming.drop sizeofInt64 = body := by
    change (le64 p ++ body).drop sizeofInt64 = body
    rw [← hheader, List.drop_left]
  have hstore : storeDst 0 ((le64 p ++ body).take sizeofInt64) (some (le64 0)) =
      some (some (le64 p)) := by
    have hlen : (le64 p).length = (le64 0).length := by rw [length_le64, length_le64]
    rw [htake, storeDst, storeAt_eq_some (by omega), overlay_full hlen, Option.map_some]
  have hloop := readLoop_deliver (withPrefix p body recvs).connection (some (le64 0)) 0 recvs
    (show (0 : ℤ) < sizeofInt64 by decide) hne hcount rfl hstore
  rw [readLoop_done _ _ _ _ (show (sizeofInt64 : ℤ) - sizeofInt64 ≤ 0 by omega)] at hloop
  have hread : (readFromSocket (some (le64 0)) sizeofInt64).run (withPrefix p body recvs) =
      .ok ((true, some (le64 p)),
        (withPrefix p body recvs).withConnection { incoming := body, recvs }) := by
    have hrecvs : (withPrefix p body recvs).connection.recvs = .deliver sizeofInt64 :: recvs :=
      rfl
    rw [run_readFromSocket, hrecvs, hloop, hdrop]
    rfl
  rw [readLengthPrefix, Exec.run_bind_ok hread, Exec.run_pure, Option.getD_some,
    int64OfLe_le64 h₁ h₂]

/-- A body longer than the buffer is stored beyond its end. -/
theorem readFromSocket_overrun {h : SocketSidebandData} {buffer : Bytes} (hlt : buffer.length < p)
    (hin : h.connection.incoming.length = buffer.length + 1)
    (hrecvs : h.connection.recvs = [.deliver (buffer.length + 1)]) :
    (readFromSocket (some buffer) p).run h = .error .outOfBounds := by
  have hne : h.connection.incoming ≠ [] := by
    intro hnil
    rw [hnil] at hin
    cases hin
  have hcount : transferCount (buffer.length + 1)
      (min p.toNat h.connection.incoming.length) = buffer.length + 1 := by
    rw [hin, transferCount]
    omega
  have hstore : storeDst 0 (h.connection.incoming.take (buffer.length + 1)) (some buffer) =
      none := by
    rw [storeDst, storeAt_eq_none, Option.map_none]
    rw [List.length_take, hin]
    omega
  rw [run_readFromSocket, hrecvs, readLoop, if_neg (by omega)]
  dsimp only
  rw [if_neg hne, hcount, hstore]
  rfl

/-- With no body to come, the read leaves the buffer. -/
theorem readFromSocket_fails {h : SocketSidebandData} (buffer : Bytes) (p : ℤ)
    (hrecvs : h.connection.recvs = [.fail .other]) :
    ∃ result h', (readFromSocket (some buffer) p).run h = .ok ((result, some buffer), h') := by
  rw [run_readFromSocket, hrecvs]
  by_cases hp : p ≤ 0
  · rw [readLoop_done _ _ _ _ hp]
    exact ⟨_, _, rfl⟩
  · rw [readLoop_fail _ _ _ _ (by omega) rfl]
    exact ⟨_, _, rfl⟩

/-- A prefix that does not fit breaks the promise. -/
theorem not_prefixSafe (h₁ : -2 ^ 63 ≤ p) (h₂ : p < 2 ^ 63) (hno : ¬ Fits .sockets size p) :
    ¬ PrefixSafe .sockets size p := by
  intro hsafe
  obtain ⟨buffer, hbuffer⟩ : ∃ buffer : Bytes, List.replicate size 0 = buffer := ⟨_, rfl⟩
  have hlen : buffer.length = size := by rw [← hbuffer, List.length_replicate]
  have hready (d : SocketSidebandData) : Ready size (SidebandData.new size d) := ⟨rfl, .inl rfl⟩
  have hallocated (d : SocketSidebandData) : (SidebandData.new size d).allocated = buffer := hbuffer
  by_cases hlarge : (size : ℤ) < p
  · -- the peer sends one byte more than the buffer holds
    obtain ⟨d, hd⟩ : ∃ d, withPrefix p (List.replicate (size + 1) 0) [.deliver (size + 1)] = d :=
      ⟨_, rfl⟩
    have hreceived := run_readLengthPrefix_withPrefix h₁ h₂ (List.replicate (size + 1) 0)
      [.deliver (size + 1)]
    rw [hd] at hreceived
    refine hsafe.inBounds rawMessage (SidebandData.new size d) (hready d) ⟨_, hreceived⟩ ?_
    refine run_readSidebandMessage_copy_error rfl hreceived ?_
    change (read (some (SidebandData.new size d).allocated) p).run _ = _
    rw [hallocated, read]
    refine Exec.run_bind_error (readFromSocket_overrun (by omega) ?_ ?_)
    · rw [hlen]
      exact List.length_replicate
    · rw [hlen]
  · -- the connection breaks before a body byte arrives
    obtain ⟨d, hd⟩ : ∃ d, withPrefix p [] [.fail .other] = d := ⟨_, rfl⟩
    have hreceived := run_readLengthPrefix_withPrefix h₁ h₂ [] [.fail .other]
    rw [hd] at hreceived
    obtain ⟨result, d', hread⟩ := readFromSocket_fails buffer p
      (h := d.withConnection { incoming := [], recvs := [.fail .other] }) rfl
    rw [← hallocated d] at hread
    obtain ⟨r, hr, hbytes⟩ := read_of_readFromSocket hread
    rw [hallocated] at hbytes
    have hrun : (readSidebandMessage rawMessage methods).run (SidebandData.new size d) = _ :=
      run_readSidebandMessage_copy rfl hreceived hr
    rw [hbytes, Option.getD_some] at hrun
    -- the parser gets the old bytes of the buffer, or more than there are
    by_cases hbounds : 0 ≤ toInt32 p ∧ (toInt32 p).toNat ≤ buffer.length
    · rw [run_parseFromSerializeBuffer_ok hbounds.1 hbounds.2] at hrun
      have hneg : ¬ (0 ≤ p ∧ p ≤ Transport.capacity size .sockets) :=
        fun h => hno ⟨h.1, h.2, hbounds.1⟩
      obtain ⟨o', hrefused⟩ := hsafe.refused hneg rawMessage (SidebandData.new size d) (hready d)
        ⟨_, hreceived⟩
      obtain ⟨m, hm⟩ := rawMessage_parse (buffer.take (toInt32 p).toNat) (p := p) (by
        rw [List.length_take]
        omega)
      dsimp only at hrun
      rw [hm] at hrun
      cases hrun.symm.trans hrefused
    · rw [run_parseFromSerializeBuffer_outOfBounds (by dsimp only; omega)] at hrun
      exact hsafe.inBounds rawMessage (SidebandData.new size d) (hready d) ⟨_, hreceived⟩ hrun

end SocketSidebandData

/-- **The received prefix is safe exactly when it fits**, on every transport and for every 64-bit
prefix. No layer checks it, so nothing refuses the others. -/
theorem prefixSafe_iff (T : Transport) (size : ℕ) {p : ℤ} (h₁ : -2 ^ 63 ≤ p) (h₂ : p < 2 ^ 63) :
    PrefixSafe T size p ↔ Fits T size p := by
  by_cases hT : T = .sockets
  · subst hT
    constructor
    · intro hsafe
      by_contra hno
      exact SocketSidebandData.not_prefixSafe h₁ h₂ hno hsafe
    · rintro ⟨h₀, hle, hint⟩
      refine ⟨fun codec o hready hreceived => ?_, fun hno => absurd ⟨h₀, hle⟩ hno⟩
      obtain ⟨d, hd⟩ := hreceived
      exact SocketSidebandData.readSidebandMessage_inBounds hready hd h₀ hle hint
  · exact prefixSafe_iff_direct hT size h₁ h₂

/-- A prefix of `4` fits the four bytes of a socket handle, and no other handle of that size. -/
theorem prefixSafe_iff_four : PrefixSafe .sockets 4 4 ∧ ¬ PrefixSafe .rdma 4 4 := by
  have hfits : Fits .sockets 4 4 ∧ ¬ Fits .rdma 4 4 := by decide
  refine ⟨(prefixSafe_iff .sockets 4 (by decide) (by decide)).mpr hfits.1, fun h => hfits.2 ?_⟩
  exact (prefixSafe_iff .rdma 4 (by decide) (by decide)).mp h

/-- A prefix of `5` is not safe on a socket handle of four bytes. -/
theorem not_prefixSafe_five : ¬ ∀ (T : Transport) (size : ℕ) (p : ℤ), -2 ^ 63 ≤ p → p < 2 ^ 63 →
    PrefixSafe T size p := by
  intro h
  have hno : ¬ Fits .sockets 4 5 := by decide
  exact SocketSidebandData.not_prefixSafe (by decide) (by decide) hno
    (h .sockets 4 5 (by decide) (by decide))

end Transports

end Sideband
