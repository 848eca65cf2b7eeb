import Sideband.Rdma.Rdma
import Sideband.SharedMemory.SharedMemory
import Sideband.Sockets.Socket

/-!
# The four transports

`ReadSidebandMessage` takes one of two paths, as `SidebandData_SupportsDirectReadWrite` says:
the socket transport copies through the serialize buffer, the others hand out a pointer. The
low latency strategies share the methods of the plain ones.
-/

namespace Sideband

open Foundation
open SidebandData (call serializeBufferPtr setSerializeBuffer)

/-- The classes derived from `SidebandData`. A strategy with low latency has the class of the
plain one, and differs in the socket's options and in how its reads wait. -/
inductive Transport
  | sharedMemory
  | doubleBufferedSharedMemory
  | sockets
  | rdma
  deriving DecidableEq, Repr

namespace Transport

/-- What the methods of a transport with buffers of `size` bytes work on: the derived object, and
the kernel's segments, the connection or the sessions behind it. The size is a parameter because
it is that of the RDMA regions. -/
def Derived (size : ℕ) : Transport → Type
  | sharedMemory => WithShm SharedMemorySidebandData
  | doubleBufferedSharedMemory => WithShm DoubleBufferedSharedMemorySidebandData
  | sockets => SocketSidebandData
  | rdma => RdmaSidebandDataImp size

def methods (size : ℕ) : (T : Transport) → SidebandMethods (T.Derived size)
  | sharedMemory => SharedMemorySidebandData.methods
  | doubleBufferedSharedMemory => DoubleBufferedSharedMemorySidebandData.methods
  | sockets => SocketSidebandData.methods
  | rdma => RdmaSidebandDataImp.methods

/-- The bytes of the buffer that are there for a message: on the direct path the prefix takes
some of them, so over a smaller buffer the capacity is negative. -/
def capacity (size : ℕ) : Transport → ℤ
  | sockets => size
  | _ => size - sizeofInt64

end Transport

/-! ### The copying path -/

/-- The handle's serialize buffer is as `SerializeBuffer` leaves it: not allocated yet, or of the
size of the handle. -/
structure Ready {δ : Type} (size : ℕ) (o : SidebandData δ) : Prop where
  bufferSize : o.bufferSize = size
  serializeBuffer : o.serializeBuffer.length = 0 ∨ o.serializeBuffer.length = size

theorem Ready.length_allocated {δ : Type} {size : ℕ} {o : SidebandData δ} (h : Ready size o) :
    o.allocated.length = size := by
  rw [SidebandData.allocated]
  split_ifs with hzero
  · rw [List.length_replicate, h.bufferSize]
  · exact h.serializeBuffer.resolve_left hzero

section Copy

variable {δ M : Type} {codec : MessageLite M} {vt : SidebandMethods δ} {o : SidebandData δ} {p : ℤ}
  {d d' : δ} {r : ReadResult}

/-- On a transport without direct access, reading a message is two calls of the derived object
around the serialize buffer, and a parse. -/
theorem readSidebandMessage_copy (h : vt.supportsDirectReadWrite = false) :
    readSidebandMessage codec vt = (do
      let p ← call vt.readLengthPrefix
      let buffer ← serializeBufferPtr
      let r ← call (vt.readFromLengthPrefixed (some buffer) p)
      setSerializeBuffer (r.bytes.getD [])
      parseFromSerializeBuffer codec p) := by
  have hsupports : sidebandDataSupportsDirectReadWrite vt ≠ 1 := by
    rw [Ne, supportsDirectReadWrite_eq_one, h]
    decide
  simp only [readSidebandMessage, hsupports, if_false, sidebandDataReadLengthPrefix,
    sidebandDataReadFromLengthPrefixed, bind_assoc, pure_bind]

/-- It parses what the two reads left in the serialize buffer, whatever they returned. -/
theorem run_readSidebandMessage_copy (h : vt.supportsDirectReadWrite = false)
    (hheader : vt.readLengthPrefix.run o.derived = .ok (p, d))
    (hread : (vt.readFromLengthPrefixed (some o.allocated) p).run d = .ok (r, d')) :
    (readSidebandMessage codec vt).run o = (parseFromSerializeBuffer codec p).run
      { o with serializeBuffer := r.bytes.getD [], derived := d' } := by
  rw [readSidebandMessage_copy h, Exec.run_bind_ok (SidebandData.run_call_ok hheader),
    Exec.run_bind_ok (SidebandData.run_serializeBufferPtr _)]
  refine (Exec.run_bind_ok (SidebandData.run_call_ok hread)).trans ?_
  rw [Exec.run_bind_ok (SidebandData.run_setSerializeBuffer _ _)]

theorem run_readSidebandMessage_copy_error (h : vt.supportsDirectReadWrite = false) {e : Stop}
    (hheader : vt.readLengthPrefix.run o.derived = .ok (p, d))
    (hread : (vt.readFromLengthPrefixed (some o.allocated) p).run d = .error e) :
    (readSidebandMessage codec vt).run o = .error e := by
  rw [readSidebandMessage_copy h, Exec.run_bind_ok (SidebandData.run_call_ok hheader),
    Exec.run_bind_ok (SidebandData.run_serializeBufferPtr _)]
  exact Exec.run_bind_error (SidebandData.run_call_error hread)

/-- A call that returned has gone through both reads and the parse. -/
theorem readSidebandMessage_copy_of_ok (h : vt.supportsDirectReadWrite = false)
    {result : Option M} {o' : SidebandData δ}
    (hrun : (readSidebandMessage codec vt).run o = .ok (result, o')) :
    ∃ p d r d', vt.readLengthPrefix.run o.derived = .ok (p, d) ∧
      (vt.readFromLengthPrefixed (some o.allocated) p).run d = .ok (r, d') ∧
      (parseFromSerializeBuffer codec p).run
        { o with serializeBuffer := r.bytes.getD [], derived := d' } = .ok (result, o') := by
  rw [readSidebandMessage_copy h] at hrun
  obtain ⟨p, o₁, hcall, hrest⟩ := Exec.run_bind_eq_ok_iff.mp hrun
  obtain ⟨d, hheader, rfl⟩ := SidebandData.run_call_eq_ok_iff.mp hcall
  rw [Exec.run_bind_ok (SidebandData.run_serializeBufferPtr _)] at hrest
  obtain ⟨r, o₂, hcall', hparse⟩ := Exec.run_bind_eq_ok_iff.mp hrest
  obtain ⟨d', hread, rfl⟩ := SidebandData.run_call_eq_ok_iff.mp hcall'
  rw [Exec.run_bind_ok (SidebandData.run_setSerializeBuffer _ _)] at hparse
  exact ⟨p, d, r, d', hheader, hread, hparse⟩

/-- The parse of the copying path stays in the buffer. -/
theorem run_parseFromSerializeBuffer_ok {o : SidebandData δ} (h : 0 ≤ toInt32 p)
    (hle : (toInt32 p).toNat ≤ o.serializeBuffer.length) :
    (parseFromSerializeBuffer codec p).run o =
      .ok (codec.parse (o.serializeBuffer.take (toInt32 p).toNat), o) := by
  rw [parseFromSerializeBuffer]
  simp only [not_lt.mpr h, if_false]
  rw [Exec.run_bind_ok (Exec.run_get o), loadAt_eq_some (by omega),
    Exec.run_bind_ok (Exec.run_checked_some _ _), Exec.run_pure, slice, List.drop_zero]

theorem run_parseFromSerializeBuffer_outOfBounds {o : SidebandData δ}
    (h : toInt32 p < 0 ∨ o.serializeBuffer.length < (toInt32 p).toNat) :
    (parseFromSerializeBuffer codec p).run o = .error .outOfBounds := by
  rw [parseFromSerializeBuffer]
  by_cases hneg : toInt32 p < 0
  · simp only [hneg, if_true]
    rfl
  · simp only [hneg, if_false]
    rw [Exec.run_bind_ok (Exec.run_get o), loadAt_eq_none (by omega)]
    rfl

end Copy

end Sideband
