import Sideband.ConnectionId
import Sideband.SharedMemory.Kernel

/-!
# The shared memory transports

`SharedMemorySidebandData` maps one named object on first use; all its methods copy to or from
that mapping. `DoubleBufferedSharedMemorySidebandData` holds two of them and moves to the other
one at the end of each operation. The handle is one party's; the kernel's objects are shared
(`WithShm`). The Linux build is modelled.

Nothing in the code checks a count against the size of the mapping, so `memcpy` and a load or
store through a pointer are checked accesses of the model that stop with `outOfBounds`.
-/

namespace Sideband

open Foundation

/-- A handle and the kernel it runs on. The kernel is shared: other handles change it between two
calls of this one. -/
structure WithShm (η : Type) where
  handle : η
  shm : Shm
  deriving DecidableEq

namespace WithShm

variable {η α : Type}

/-- Call the kernel. -/
def kernel (x : Exec Shm α) : Exec (WithShm η) α :=
  Exec.zoom WithShm.shm (fun shm w => { w with shm }) x

theorem run_kernel_ok {x : Exec Shm α} {w : WithShm η} {a : α} {shm : Shm}
    (h : x.run w.shm = .ok (a, shm)) : (kernel x).run w = .ok (a, { w with shm }) :=
  Exec.run_zoom_ok h

theorem run_kernel_error {x : Exec Shm α} {w : WithShm η} {e : Stop}
    (h : x.run w.shm = .error e) : (kernel x).run w = .error e :=
  Exec.run_zoom_error h

theorem run_kernel_eq_ok_iff {x : Exec Shm α} {w w' : WithShm η} {a : α} :
    (kernel x).run w = .ok (a, w') ↔ ∃ shm, x.run w.shm = .ok (a, shm) ∧ w' = { w with shm } :=
  Exec.run_zoom_eq_ok_iff

end WithShm

open WithShm (kernel)

/-! ### One buffer -/

/-- `SharedMemorySidebandData`, as its constructor's parameters and its members have it.
`_usageId` is the id that was passed, `_id` the one with the prefix `TESTBUFFER_`. -/
structure SharedMemorySidebandData where
  mapFD : Option ℕ := none
  fileName : Bytes := []
  buffer : Pointer := .null
  usageId : Bytes
  id : Bytes
  bufferSize : ℤ
  deriving DecidableEq

namespace SharedMemorySidebandData

/-- The constructor. Nothing is mapped before the first operation. -/
def new (id : Bytes) (bufferSize : ℤ) : SharedMemorySidebandData :=
  { usageId := id, id := ascii "TESTBUFFER_".toList ++ id, bufferSize }

/-- `SharedMemorySidebandData::InitNew`, which passes the same usage id for every handle. -/
def initNew (bufferSize : ℤ) : SharedMemorySidebandData :=
  new (ascii "TestBuffer".toList) bufferSize

/-- The name of the object the handle works on: `"/" + _id`. -/
def name (h : SharedMemorySidebandData) : Bytes := ascii "/".toList ++ h.id

/-- The destructor. It unlinks the name if something is mapped, whoever else has mapped it.
`munmap` is left out: nobody uses the handle's mapping any more. -/
def delete : Exec (WithShm SharedMemorySidebandData) Unit := do
  let h := (← get).handle
  if h.buffer.isSet then
    kernel (Shm.shmUnlink h.fileName)

def modifyHandle (f : SharedMemorySidebandData → SharedMemorySidebandData) :
    Exec (WithShm SharedMemorySidebandData) Unit :=
  modify fun w => { w with handle := f w.handle }

/-- `Init`: open the object, truncate it to the handle's size, map it. A failed `mmap` leaves
`MAP_FAILED` in `_buffer`, and the other failures a null pointer; nothing is returned to the
caller. -/
def init : Exec (WithShm SharedMemorySidebandData) Unit := do
  modifyHandle fun h => { h with fileName := h.name }
  let h := (← get).handle
  let mapFD ← kernel (Shm.shmOpen h.fileName)
  modifyHandle fun h => { h with mapFD }
  match mapFD with
  | none => return ()
  | some fd =>
    if ← kernel (Shm.ftruncate fd h.bufferSize) then
      let buffer ← kernel (Shm.mmap fd)
      modifyHandle fun h => { h with buffer }
      if buffer = .invalid then
        kernel (Shm.shmUnlink h.fileName)
    else
      kernel (Shm.shmUnlink h.fileName)

/-- `GetBuffer`: the mapping, made on first use. After a failure that left a null pointer the
next call tries again. -/
def getBuffer : Exec (WithShm SharedMemorySidebandData) Pointer := do
  if (← get).handle.buffer.isSet then
    return (← get).handle.buffer
  else
    init
    return (← get).handle.buffer

/-- Read `n` bytes through a pointer into the handle's mapping, of which the handle knows only
the size that it was given. -/
def load (p : Pointer) (n : ℕ) : Exec (WithShm SharedMemorySidebandData) Bytes := do
  kernel (Shm.load (← get).handle.bufferSize p n)

/-- Store bytes through a pointer into the handle's mapping. That no count is compared with its
size is what makes it a checked access. -/
def store (p : Pointer) (bytes : Bytes) : Exec (WithShm SharedMemorySidebandData) Unit := do
  kernel (Shm.store (← get).handle.bufferSize p bytes)

/-- `memcpy(bytes, p, n)` to the caller's buffer; a negative `n` is a huge count. -/
def copyOut (bytes : Option Bytes) (p : Pointer) (n : ℤ) :
    Exec (WithShm SharedMemorySidebandData) (Option Bytes) := do
  if n < 0 then
    throw .outOfBounds
  let copied ← load p n.toNat
  Exec.checked (storeDst 0 copied bytes)

def write (bytes : Bytes) : Exec (WithShm SharedMemorySidebandData) Bool := do
  let ptr ← getBuffer
  if ptr.isSet then
    store ptr bytes
    return true
  else
    return false

/-- `Read`: `*numBytesRead` is not set, whatever was copied, and as many bytes are copied as the
caller's buffer has. -/
def read (bytes : Option Bytes) (bufferSize : ℤ) :
    Exec (WithShm SharedMemorySidebandData) ReadResult := do
  let ptr ← getBuffer
  if ptr.isSet then
    let bytes ← copyOut bytes ptr bufferSize
    return ⟨true, bytes, none⟩
  else
    return ⟨false, bytes, none⟩

def writeLengthPrefixed (bytes : Bytes) : Exec (WithShm SharedMemorySidebandData) Bool := do
  let ptr ← getBuffer
  if ptr.isSet then
    store ptr (le64 bytes.length)
    store (ptr.add sizeofInt64) bytes
    return true
  else
    return false

/-- `ReadFromLengthPrefixed`: the test for null comes after the addition. -/
def readFromLengthPrefixed (bytes : Option Bytes) (bufferSize : ℤ) :
    Exec (WithShm SharedMemorySidebandData) ReadResult := do
  let ptr := (← getBuffer).add sizeofInt64
  if ptr.isSet then
    let bytes ← copyOut bytes ptr bufferSize
    return ⟨true, bytes, none⟩
  else
    return ⟨false, bytes, none⟩

def readLengthPrefix : Exec (WithShm SharedMemorySidebandData) ℤ := do
  let ptr ← getBuffer
  return int64OfLe (← load ptr sizeofInt64)

def beginDirectRead (_byteCount : ℤ) : Exec (WithShm SharedMemorySidebandData) Pointer := getBuffer

def beginDirectReadLengthPrefixed :
    Exec (WithShm SharedMemorySidebandData) (Pointer × Option ℤ) := do
  let ptr ← getBuffer
  if ptr.isSet then
    let bufferSize := int64OfLe (← load ptr sizeofInt64)
    return (ptr.add sizeofInt64, some bufferSize)
  else
    return (.null, none)

def finishDirectRead : Exec (WithShm SharedMemorySidebandData) Bool := return true

def beginDirectWrite : Exec (WithShm SharedMemorySidebandData) Pointer := getBuffer

def finishDirectWrite (_byteCount : ℤ) : Exec (WithShm SharedMemorySidebandData) Bool :=
  return true

/-- The methods of `SharedMemorySidebandData`. -/
def methods : SidebandMethods (WithShm SharedMemorySidebandData) where
  write := write
  read := read
  writeLengthPrefixed := writeLengthPrefixed
  readFromLengthPrefixed := readFromLengthPrefixed
  readLengthPrefix := readLengthPrefix
  supportsDirectReadWrite := true
  beginDirectRead := beginDirectRead
  beginDirectReadLengthPrefixed := beginDirectReadLengthPrefixed
  finishDirectRead := finishDirectRead
  beginDirectWrite := beginDirectWrite
  finishDirectWrite := finishDirectWrite
  load := load
  store := store

end SharedMemorySidebandData

/-! ### Two buffers -/

/-- Which of the two buffers `_current` points to. -/
inductive Current
  | bufferA
  | bufferB
  deriving DecidableEq, Repr

/-- `_current == &_bufferA ? &_bufferB : &_bufferA`. -/
def Current.other : Current → Current
  | .bufferA => .bufferB
  | .bufferB => .bufferA

/-- `DoubleBufferedSharedMemorySidebandData`. Each party has its own `_current`; what keeps the
two in step is that both make as many operations. -/
structure DoubleBufferedSharedMemorySidebandData where
  id : Bytes
  current : Current := .bufferA
  bufferA : SharedMemorySidebandData
  bufferB : SharedMemorySidebandData
  deriving DecidableEq

namespace DoubleBufferedSharedMemorySidebandData

variable {α : Type}

/-- The constructor. The two inner handles have the id with a suffix, and so segments of their
own. -/
def new (id : Bytes) (bufferSize : ℤ) : DoubleBufferedSharedMemorySidebandData where
  id := id
  bufferA := .new (id ++ ascii "_A".toList) bufferSize
  bufferB := .new (id ++ ascii "_B".toList) bufferSize

/-- `DoubleBufferedSharedMemorySidebandData::InitNew`. -/
def initNew (bufferSize : ℤ) : DoubleBufferedSharedMemorySidebandData :=
  new (ascii "TestBuffer".toList) bufferSize

/-- The inner handle a pointer to a buffer denotes. -/
def buffer (h : DoubleBufferedSharedMemorySidebandData) : Current → SharedMemorySidebandData
  | .bufferA => h.bufferA
  | .bufferB => h.bufferB

/-- The handle with one of its inner handles changed. -/
def setBuffer (c : Current) (b : SharedMemorySidebandData)
    (h : DoubleBufferedSharedMemorySidebandData) : DoubleBufferedSharedMemorySidebandData :=
  match c with
  | .bufferA => { h with bufferA := b }
  | .bufferB => { h with bufferB := b }

/-- Call a method of `*_current`: the inner handle and the kernel change, the other buffer stays. -/
def onCurrent (x : Exec (WithShm SharedMemorySidebandData) α) :
    Exec (WithShm DoubleBufferedSharedMemorySidebandData) α :=
  Exec.zoom (fun w => ⟨w.handle.buffer w.handle.current, w.shm⟩)
    (fun inner w => ⟨w.handle.setBuffer w.handle.current inner.handle, inner.shm⟩) x

/-- Move to the other buffer. Neither the segments nor the inner handles change. -/
def switch : Exec (WithShm DoubleBufferedSharedMemorySidebandData) Unit :=
  modify fun w => { w with handle := { w.handle with current := w.handle.current.other } }

def write (bytes : Bytes) : Exec (WithShm DoubleBufferedSharedMemorySidebandData) Bool := do
  let result ← onCurrent (SharedMemorySidebandData.write bytes)
  switch
  return result

def read (bytes : Option Bytes) (bufferSize : ℤ) :
    Exec (WithShm DoubleBufferedSharedMemorySidebandData) ReadResult := do
  let result ← onCurrent (SharedMemorySidebandData.read bytes bufferSize)
  switch
  return result

/-- `WriteLengthPrefixed`: both writes go to the start of the buffer, and so the payload over its
prefix. -/
def writeLengthPrefixed (bytes : Bytes) :
    Exec (WithShm DoubleBufferedSharedMemorySidebandData) Bool := do
  if ← onCurrent (SharedMemorySidebandData.write (le64 bytes.length)) then
    if ← onCurrent (SharedMemorySidebandData.write bytes) then
      switch
      return true
    else
      return false
  else
    return false

def readFromLengthPrefixed (bytes : Option Bytes) (bufferSize : ℤ) :
    Exec (WithShm DoubleBufferedSharedMemorySidebandData) ReadResult := do
  let result ← onCurrent (SharedMemorySidebandData.readFromLengthPrefixed bytes bufferSize)
  switch
  return result

def readLengthPrefix : Exec (WithShm DoubleBufferedSharedMemorySidebandData) ℤ :=
  onCurrent SharedMemorySidebandData.readLengthPrefix

def beginDirectRead (byteCount : ℤ) :
    Exec (WithShm DoubleBufferedSharedMemorySidebandData) Pointer :=
  onCurrent (SharedMemorySidebandData.beginDirectRead byteCount)

def beginDirectReadLengthPrefixed :
    Exec (WithShm DoubleBufferedSharedMemorySidebandData) (Pointer × Option ℤ) :=
  onCurrent SharedMemorySidebandData.beginDirectReadLengthPrefixed

def finishDirectRead : Exec (WithShm DoubleBufferedSharedMemorySidebandData) Bool := do
  switch
  return true

def beginDirectWrite : Exec (WithShm DoubleBufferedSharedMemorySidebandData) Pointer :=
  onCurrent SharedMemorySidebandData.beginDirectWrite

def finishDirectWrite (_byteCount : ℤ) :
    Exec (WithShm DoubleBufferedSharedMemorySidebandData) Bool := do
  switch
  return true

/-- The methods of `DoubleBufferedSharedMemorySidebandData`. Pointers are used between a begin
and its finish, while the mapping they lead to is that of the current buffer; the finish then
moves on. -/
def methods : SidebandMethods (WithShm DoubleBufferedSharedMemorySidebandData) where
  write := write
  read := read
  writeLengthPrefixed := writeLengthPrefixed
  readFromLengthPrefixed := readFromLengthPrefixed
  readLengthPrefix := readLengthPrefix
  supportsDirectReadWrite := true
  beginDirectRead := beginDirectRead
  beginDirectReadLengthPrefixed := beginDirectReadLengthPrefixed
  finishDirectRead := finishDirectRead
  beginDirectWrite := beginDirectWrite
  finishDirectWrite := finishDirectWrite
  load p n := onCurrent (SharedMemorySidebandData.load p n)
  store p bytes := onCurrent (SharedMemorySidebandData.store p bytes)

end DoubleBufferedSharedMemorySidebandData

end Sideband
