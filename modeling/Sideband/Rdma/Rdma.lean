import Sideband.Rdma.EasyRdma

/-!
# The RDMA transport

`RdmaSidebandDataImp`, the object that `RdmaSidebandData` forwards every method to, with the
two sessions it is connected to. The region a call works on is kept in `_writeBuffer` or
`_readBuffer` between calls.
-/

namespace Sideband

open Foundation

/-- `RdmaSidebandDataImp`, with the sessions behind `_connectedWriteSession` and
`_connectedReadSession`. An object with a session for one direction only is left out: the other
member is null then. -/
structure RdmaSidebandDataImp (size : ℕ) where
  connectedWriteSession : SendSession size
  connectedReadSession : ReceiveSession size
  writeBuffer : BufferRegion
  readBuffer : BufferRegion

namespace RdmaSidebandDataImp

variable {size : ℕ} {α : Type}

/-- Call easyrdma on the write session. -/
def onWriteSession (x : Exec (SendSession size) α) : Exec (RdmaSidebandDataImp size) α :=
  Exec.zoom connectedWriteSession (fun t h => { h with connectedWriteSession := t }) x

/-- Call easyrdma on the read session. -/
def onReadSession (x : Exec (ReceiveSession size) α) : Exec (RdmaSidebandDataImp size) α :=
  Exec.zoom connectedReadSession (fun t h => { h with connectedReadSession := t }) x

/-- `easyrdma_AcquireSendRegion(_connectedWriteSession, timeoutMs, &_writeBuffer)`. A call that
fails leaves `_writeBuffer` as it was, which is what the writes then go on with. -/
def acquireSendRegion : Exec (RdmaSidebandDataImp size) EasyRdmaResult := do
  let (result, region) ← onWriteSession SendSession.acquireSendRegion
  modify fun h => { h with writeBuffer := region.getD h.writeBuffer }
  return result

/-- `easyrdma_QueueBufferRegion(_connectedWriteSession, &_writeBuffer, nullptr)`. -/
def queueBufferRegion : Exec (RdmaSidebandDataImp size) EasyRdmaResult := do
  onWriteSession (SendSession.queueBufferRegion (← get).writeBuffer)

/-- `easyrdma_AcquireReceivedRegion(_connectedReadSession, timeoutMs, &_readBuffer)`. Without a
region `_readBuffer` stays what it was. -/
def acquireReceivedRegion : Exec (RdmaSidebandDataImp size) EasyRdmaResult := do
  let (result, region) ← onReadSession ReceiveSession.acquireReceivedRegion
  modify fun h => { h with readBuffer := region.getD h.readBuffer }
  return result

/-- `easyrdma_ReleaseReceivedBufferRegion(_connectedReadSession, &_readBuffer)`, of whatever
region is there. -/
def releaseReceivedBufferRegion : Exec (RdmaSidebandDataImp size) EasyRdmaResult := do
  onReadSession (ReceiveSession.releaseReceivedBufferRegion (← get).readBuffer)

/-- Read `n` bytes through a pointer into a region, whoever has the region. That the region may
be the network's does not make the access one out of bounds. -/
def load (p : Pointer) (n : ℕ) : Exec (RdmaSidebandDataImp size) Bytes := do
  if n = 0 then
    return []
  match p with
  | .into (.sendRegion r) offset =>
    Exec.checked (loadAt offset n ((← get).connectedWriteSession.memory r))
  | .into (.receiveRegion r) offset =>
    Exec.checked (loadAt offset n ((← get).connectedReadSession.memory r))
  | _ => throw .outOfBounds

/-- Store bytes through a pointer into a send region. Nothing keeps the program from storing into
one that is in flight. -/
def store (p : Pointer) (bytes : Bytes) : Exec (RdmaSidebandDataImp size) Unit := do
  if bytes = [] then
    return ()
  match p with
  | .into (.sendRegion r) offset =>
    let mem ← Exec.checked (storeAt offset bytes ((← get).connectedWriteSession.memory r))
    onWriteSession (modify (SendSession.setMemory r mem))
  | _ => throw .outOfBounds

def write (bytes : Bytes) : Exec (RdmaSidebandDataImp size) Bool := do
  if (← acquireSendRegion) = .success then
    store (← get).writeBuffer.buffer bytes
    modify fun h => { h with writeBuffer.usedSize := bytes.length }
    return (← queueBufferRegion) = .success
  else
    return false

/-- The loop of `Read`: a timeout goes round. It is recursive in the results to come, which a
timeout uses up one of. -/
def acquireLoop : List EasyRdmaResult → Exec (RdmaSidebandDataImp size) EasyRdmaResult
  | .timeout :: results => do
    let _ ← acquireReceivedRegion
    acquireLoop results
  | _ => acquireReceivedRegion

/-- `Read`. The comparison of `bufferSize` with the `size_t` is unsigned. Without a buffer the
region stays held. -/
def read (bytes : Option Bytes) (bufferSize : ℤ) : Exec (RdmaSidebandDataImp size) ReadResult := do
  modify fun h => { h with readBuffer := {} }
  if (← acquireLoop (← get).connectedReadSession.results) = .success then
    match bytes with
    | some dst =>
      let region := (← get).readBuffer
      if (region.usedSize : ℤ) ≤ bufferSize % 2 ^ 64 then
        let copied ← load region.buffer region.usedSize
        let bytes ← Exec.checked (storeDst 0 copied (some dst))
        let _ ← releaseReceivedBufferRegion
        return ⟨true, bytes, some region.usedSize⟩
      else
        let _ ← releaseReceivedBufferRegion
        return ⟨true, some dst, some region.usedSize⟩
    | none => return ⟨true, none, none⟩
  else
    return ⟨false, bytes, none⟩

/-- `WriteLengthPrefixed`: the result of the acquire is not looked at, so that after a failure it
fills the region of the last write, or stores through a null pointer. -/
def writeLengthPrefixed (bytes : Bytes) : Exec (RdmaSidebandDataImp size) Bool := do
  let _ ← acquireSendRegion
  let buffer := (← get).writeBuffer.buffer
  store buffer (le64 bytes.length)
  store (buffer.add sizeofInt64) bytes
  modify fun h => { h with writeBuffer.usedSize := bytes.length + sizeofInt64 }
  return (← queueBufferRegion) = .success

/-- `ReadFromLengthPrefixed`: a copy out of the region that `ReadLengthPrefix` left held. Neither
its used size nor the size of the region is compared with the count. -/
def readFromLengthPrefixed (bytes : Option Bytes) (bufferSize : ℤ) :
    Exec (RdmaSidebandDataImp size) ReadResult := do
  if bufferSize < 0 then
    throw .outOfBounds
  let copied ← load ((← get).readBuffer.buffer.add sizeofInt64) bufferSize.toNat
  let bytes ← Exec.checked (storeDst 0 copied bytes)
  return ⟨true, bytes, some bufferSize⟩

/-- `ReadLengthPrefix`: a failed read returns `false`, that is, a length of `0`. The region of a
read that succeeds stays held. -/
def readLengthPrefix : Exec (RdmaSidebandDataImp size) ℤ := do
  if (← read none 0).result then
    return int64OfLe (← load (← get).readBuffer.buffer sizeofInt64)
  else
    return 0

def beginDirectRead (_byteCount : ℤ) : Exec (RdmaSidebandDataImp size) Pointer := do
  if (← read none 0).result then
    return (← get).readBuffer.buffer
  else
    return .null

def beginDirectReadLengthPrefixed : Exec (RdmaSidebandDataImp size) (Pointer × Option ℤ) := do
  if (← read none 0).result then
    let buffer := (← get).readBuffer.buffer
    let bufferSize := int64OfLe (← load buffer sizeofInt64)
    return (buffer.add sizeofInt64, some bufferSize)
  else
    return (.null, none)

/-- `FinishDirectRead`: the result of the release is not looked at, and the call always succeeds. -/
def finishDirectRead : Exec (RdmaSidebandDataImp size) Bool := do
  let _ ← releaseReceivedBufferRegion
  return true

/-- `BeginDirectWrite`: the result of the acquire is not looked at, so that a failure looks like
a region to its caller. -/
def beginDirectWrite : Exec (RdmaSidebandDataImp size) Pointer := do
  let _ ← acquireSendRegion
  return (← get).writeBuffer.buffer.add sizeofInt64

def finishDirectWrite (byteCount : ℤ) : Exec (RdmaSidebandDataImp size) Bool := do
  store (← get).writeBuffer.buffer (le64 byteCount)
  modify fun h => { h with
    writeBuffer.usedSize := ((byteCount + sizeofInt64) % 2 ^ 64).toNat }
  return (← queueBufferRegion) = .success

/-- The methods of `RdmaSidebandData`. -/
def methods : SidebandMethods (RdmaSidebandDataImp size) where
  write := write
  read := read
  writeLengthPrefixed := writeLengthPrefixed
  readFromLengthPrefixed := readFromLengthPrefixed
  readLengthPrefix := readLengthPrefix
  supportsDirectReadWrite := true
  beginDirectRead := beginDirectRead
  beginDirectReadLengthPrefixed := beginDirectReadLengthPrefixed
  finishDirectRead := finishDirectRead
  beginDirectWrite := beginDirectWrite
  finishDirectWrite := finishDirectWrite
  load := load
  store := store

end RdmaSidebandDataImp

end Sideband
