import Sideband.Foundation.Bytes
import Sideband.Foundation.Exec

/-!
# Sideband handles and sideband messages

`SidebandMethods δ` is the virtual interface of `SidebandData`, for a transport whose own
state (the derived object together with the memory and the connection it works on) is `δ`;
`SidebandData δ` is the whole object, with the base class's private serialize buffer. The
`sidebandData…` functions are the C entry points, which turn a method's `bool` into `0` or
`-1`, and `readSidebandMessage`/`writeSidebandMessage` are the two inline functions that move
one protobuf message.

Protobuf is a parameter (`MessageLite`): what it promises is that parsing inverts
serializing and that no message serializes to 2 GiB or more. A build with `NDEBUG` is
modelled: a failed `assert` does not stop a call.
-/

namespace Sideband

open Foundation

/-! ### Pointers -/

/-- The regions of memory a transport can hand out a pointer to. Each RDMA session is configured
with two; there are as many segments as shared memory objects. -/
inductive Region
  /-- A shared memory segment. -/
  | segment (n : ℕ)
  /-- A send region of an RDMA session. -/
  | sendRegion (r : Fin 2)
  /-- A receive region of an RDMA session. -/
  | receiveRegion (r : Fin 2)
  deriving DecidableEq, Repr

/-- A `uint8_t*`: null, an address outside every region (`MAP_FAILED`, a pointer that was never
set, arithmetic on null), or an offset into a region. Distinct regions never overlap. -/
inductive Pointer
  | null
  | invalid
  | into (region : Region) (offset : ℕ)
  deriving DecidableEq, Repr

namespace Pointer

/-- Pointer arithmetic, by a positive number of bytes. What comes of a null pointer is not null,
and no access through it is good. -/
def add : Pointer → ℕ → Pointer
  | .null, _ => .invalid
  | .invalid, _ => .invalid
  | .into region offset, n => .into region (offset + n)

/-- The value of `ptr != nullptr`, which is all that the callers look at. -/
def isSet (p : Pointer) : Bool := p ≠ .null

@[simp]
theorem isSet_null : Pointer.null.isSet = false := rfl

@[simp]
theorem isSet_invalid : Pointer.invalid.isSet = true := by simp [isSet]

@[simp]
theorem isSet_into (region : Region) (offset : ℕ) : (Pointer.into region offset).isSet = true := by
  simp [isSet]

end Pointer

/-- `sizeof(int64_t)`. -/
def sizeofInt64 : ℕ := 8

theorem length_le64_eq_sizeof (x : ℤ) : (le64 x).length = sizeofInt64 := length_le64 x

/-- A payload with its eight-byte length prefix, as `WriteLengthPrefixed` puts it on its way and
`ReadLengthPrefix` takes it apart. -/
def frame (payload : Bytes) : Bytes := le64 payload.length ++ payload

@[simp]
theorem length_frame (payload : Bytes) : (frame payload).length = 8 + payload.length := by
  simp [frame]

/-- What memory that starts with a frame holds. -/
theorem of_take_frame {mem p : Bytes} (h : mem.take (frame p).length = frame p) :
    sizeofInt64 + p.length ≤ mem.length ∧ mem.take sizeofInt64 = le64 p.length ∧
      slice sizeofInt64 p.length mem = p := by
  obtain ⟨tail, htail⟩ : ∃ tail, mem = frame p ++ tail :=
    ⟨mem.drop (frame p).length, (List.take_append_drop _ mem).symm.trans (congrArg (· ++ _) h)⟩
  have hheader : (le64 p.length).length = sizeofInt64 := length_le64_eq_sizeof _
  refine ⟨?_, ?_, ?_⟩
  · rw [htail, List.length_append, length_frame, sizeofInt64]
    omega
  · rw [htail, frame, List.append_assoc, ← hheader, List.take_left]
  · rw [slice, htail, frame, List.append_assoc, ← hheader, List.drop_left, List.take_left]

/-! ### The virtual interface -/

/-- Store at an offset of a destination buffer that may be a null pointer. Nothing can be stored
there, and storing no bytes is no store. -/
def storeDst (start : ℕ) (bytes : Bytes) : Option Bytes → Option (Option Bytes)
  | none => if bytes = [] then some none else none
  | some dst => (storeAt start bytes dst).map some

/-- What was stored in a buffer that is there. -/
theorem of_storeDst {start : ℕ} {bytes dst : Bytes} {dst' : Option Bytes}
    (h : storeDst start bytes (some dst) = some dst') : dst' = some (overlay start bytes dst) := by
  rw [storeDst, storeAt] at h
  split_ifs at h
  · exact (Option.some.inj h).symm
  · cases h

/-- What a read leaves behind: its result, the destination buffer (`none` for a null pointer) and
the value of `*numBytesRead` if it was set. A count that was not set is whatever the caller had
there. -/
structure ReadResult where
  result : Bool
  bytes : Option Bytes
  numBytesRead : Option ℤ
  deriving DecidableEq, Repr

/-- The virtual methods of `SidebandData`, on a transport with state `δ`, and the memory its
pointers lead to. A `bytes, byteCount` argument pair is one list of bytes; a destination `bytes,
bufferSize` is the buffer's content and the requested size. `UsageId` and the id that a
connection was made with are no part of it. -/
structure SidebandMethods (δ : Type) where
  write : Bytes → Exec δ Bool
  read : Option Bytes → ℤ → Exec δ ReadResult
  writeLengthPrefixed : Bytes → Exec δ Bool
  readFromLengthPrefixed : Option Bytes → ℤ → Exec δ ReadResult
  readLengthPrefix : Exec δ ℤ
  supportsDirectReadWrite : Bool
  beginDirectRead : ℤ → Exec δ Pointer
  /-- The pointer, and `*bufferSize` if it was set. -/
  beginDirectReadLengthPrefixed : Exec δ (Pointer × Option ℤ)
  finishDirectRead : Exec δ Bool
  beginDirectWrite : Exec δ Pointer
  finishDirectWrite : ℤ → Exec δ Bool
  /-- Read `n` bytes through a pointer. -/
  load : Pointer → ℕ → Exec δ Bytes
  /-- Store bytes through a pointer. -/
  store : Pointer → Bytes → Exec δ Unit

/-- A handle: the base class part and the derived part with what it works on. `bufferSize` is
what the object was constructed with; an empty `serializeBuffer` is one that is not allocated
yet. -/
structure SidebandData (δ : Type) where
  bufferSize : ℕ
  serializeBuffer : Bytes
  derived : δ
  deriving DecidableEq, Repr

namespace SidebandData

variable {δ α : Type}

/-- A handle as its constructor leaves it: the serialize buffer is allocated on first use, and
then has the size of the handle. -/
def new (bufferSize : ℕ) (derived : δ) : SidebandData δ := ⟨bufferSize, [], derived⟩

/-- Call a method of the derived object. What the method does to it stays when the call is over;
the members of the base class it does not see. -/
def call (x : Exec δ α) : Exec (SidebandData δ) α :=
  Exec.zoom SidebandData.derived (fun d o => { o with derived := d }) x

/-- The serialize buffer, allocated if it has no size yet. -/
def allocated (o : SidebandData δ) : Bytes :=
  if o.serializeBuffer.length = 0 then List.replicate o.bufferSize 0 else o.serializeBuffer

/-- `SidebandData::SerializeBuffer`: the bytes the returned pointer leads to. The buffer is
resized on the first call, and never again. -/
def serializeBufferPtr : Exec (SidebandData δ) Bytes := do
  modify fun o => { o with serializeBuffer := o.allocated }
  return (← get).serializeBuffer

/-- Store the bytes that went to the serialize buffer. -/
def setSerializeBuffer (bytes : Bytes) : Exec (SidebandData δ) Unit :=
  modify fun o => { o with serializeBuffer := bytes }

theorem run_call_ok {x : Exec δ α} {o : SidebandData δ} {a : α} {d : δ}
    (h : x.run o.derived = .ok (a, d)) : (call x).run o = .ok (a, { o with derived := d }) :=
  Exec.run_zoom_ok h

theorem run_call_error {x : Exec δ α} {o : SidebandData δ} {e : Stop}
    (h : x.run o.derived = .error e) : (call x).run o = .error e :=
  Exec.run_zoom_error h

theorem run_call_eq_ok_iff {x : Exec δ α} {o o' : SidebandData δ} {a : α} :
    (call x).run o = .ok (a, o') ↔
      ∃ d, x.run o.derived = .ok (a, d) ∧ o' = { o with derived := d } :=
  Exec.run_zoom_eq_ok_iff

theorem call_pure (a : α) : (call (pure a) : Exec (SidebandData δ) α) = pure a :=
  Exec.zoom_pure (fun _ => rfl) a

theorem call_bind {β : Type} (x : Exec δ α) (f : α → Exec δ β) :
    call (x >>= f) = call x >>= fun a => call (f a) := by
  refine Exec.zoom_bind ?_ ?_ x f
  · exact fun _ _ => rfl
  · exact fun _ _ _ => rfl

@[simp]
theorem run_serializeBufferPtr (o : SidebandData δ) :
    serializeBufferPtr.run o = .ok (o.allocated, { o with serializeBuffer := o.allocated }) := rfl

@[simp]
theorem run_setSerializeBuffer (bytes : Bytes) (o : SidebandData δ) :
    (setSerializeBuffer bytes).run o = .ok (⟨⟩, { o with serializeBuffer := bytes }) := rfl

end SidebandData

open SidebandData (call serializeBufferPtr setSerializeBuffer)

/-! ### The C entry points -/

section EntryPoints

variable {δ : Type} (vt : SidebandMethods δ)

/-- The return code of an entry point: `0` for success and `-1` for failure. -/
def returnCode (result : Bool) : ℤ := if result then 0 else -1

/-- `SidebandData_Write`. -/
def sidebandDataWrite (bytes : Bytes) : Exec (SidebandData δ) ℤ := do
  return returnCode (← call (vt.write bytes))

def sidebandDataWriteLengthPrefixed (bytes : Bytes) : Exec (SidebandData δ) ℤ := do
  return returnCode (← call (vt.writeLengthPrefixed bytes))

def sidebandDataReadFromLengthPrefixed (bytes : Option Bytes) (bufferSize : ℤ) :
    Exec (SidebandData δ) (ℤ × ReadResult) := do
  let r ← call (vt.readFromLengthPrefixed bytes bufferSize)
  return (returnCode r.result, r)

/-- `SidebandData_ReadLengthPrefix`: the return code is always `0`, so a caller cannot tell a
failure from an empty message. -/
def sidebandDataReadLengthPrefix : Exec (SidebandData δ) (ℤ × ℤ) := do
  return (0, ← call vt.readLengthPrefix)

def sidebandDataSupportsDirectReadWrite : ℤ := if vt.supportsDirectReadWrite then 1 else 0

/-- `SidebandData_BeginDirectReadLengthPrefixed`, with `*bufferSize` as the caller set it before
the call: a method that fails need not set it. -/
def sidebandDataBeginDirectReadLengthPrefixed (bufferSize : ℤ) :
    Exec (SidebandData δ) (ℤ × ℤ × Pointer) := do
  let (buffer, size) ← call vt.beginDirectReadLengthPrefixed
  return (returnCode buffer.isSet, size.getD bufferSize, buffer)

def sidebandDataFinishDirectRead : Exec (SidebandData δ) ℤ := do
  return returnCode (← call vt.finishDirectRead)

def sidebandDataBeginDirectWrite : Exec (SidebandData δ) (ℤ × Pointer) := do
  let buffer ← call vt.beginDirectWrite
  return (returnCode buffer.isSet, buffer)

def sidebandDataFinishDirectWrite (byteCount : ℤ) : Exec (SidebandData δ) ℤ := do
  return returnCode (← call (vt.finishDirectWrite byteCount))

end EntryPoints

/-! ### Messages -/

/-- A protobuf message type: its wire encoding, and what the library promises about it. Nothing
is said about which other bytes `parse` accepts; both functions are taken to return. -/
structure MessageLite (M : Type) where
  serialize : M → Bytes
  parse : Bytes → Option M
  parse_serialize : ∀ m, parse (serialize m) = some m
  /-- Protobuf refuses to serialize a message of 2 GiB or more. -/
  size_lt : ∀ m, (serialize m).length < 2 ^ 31

/-- A message type whose encoding is its content. It refuses no bytes below 2 GiB, and so it
shows what the transport alone lets through. -/
def rawMessage : MessageLite { b : Bytes // b.length < 2 ^ 31 } where
  serialize m := m.val
  parse b := if h : b.length < 2 ^ 31 then some ⟨b, h⟩ else none
  parse_serialize m := dif_pos m.property
  size_lt m := m.property

section Messages

variable {δ M : Type} (codec : MessageLite M) (vt : SidebandMethods δ)

/-- `MessageLite::ByteSizeLong`. -/
def byteSizeLong (m : M) : ℤ := (codec.serialize m).length

/-- `MessageLite::ParseFromArray` on bytes behind a pointer; `size` is an `int`, to which the
prefix is narrowed. The message if it returned true. A negative size addresses no array. -/
def parseFromArray (buffer : Pointer) (size : ℤ) : Exec δ (Option M) := do
  let size := toInt32 size
  if size < 0 then
    throw .outOfBounds
  return codec.parse (← vt.load buffer size.toNat)

/-- `MessageLite::ParseFromArray` on the front of the serialize buffer. The size is an `int`, and
one that is negative, or beyond the buffer, is an access out of bounds. -/
def parseFromSerializeBuffer (size : ℤ) : Exec (SidebandData δ) (Option M) := do
  let size := toInt32 size
  if size < 0 then
    throw .outOfBounds
  return codec.parse (← Exec.checked (loadAt 0 size.toNat (← get).serializeBuffer))

/-- `ReadSidebandMessage`: the message if it returned true. On either path the results of the
calls around the parse are dropped, as the source drops them. -/
def readSidebandMessage : Exec (SidebandData δ) (Option M) := do
  if sidebandDataSupportsDirectReadWrite vt = 1 then
    let (_, bufferSize, buffer) ← sidebandDataBeginDirectReadLengthPrefixed vt 0
    let success ← call (parseFromArray codec vt buffer bufferSize)
    let _ ← sidebandDataFinishDirectRead vt
    return success
  else
    let (_, bufferSize) ← sidebandDataReadLengthPrefix vt
    let buffer ← serializeBufferPtr
    let (_, r) ← sidebandDataReadFromLengthPrefixed vt (some buffer) bufferSize
    setSerializeBuffer (r.bytes.getD [])
    parseFromSerializeBuffer codec bufferSize

/-- `MessageLite::SerializeToArray` to memory behind a pointer. The library takes the size from
the caller, who passes that of the message. -/
def serializeToArray (m : M) (buffer : Pointer) : Exec δ Unit :=
  vt.store buffer (codec.serialize m)

/-- `WriteSidebandMessage`. It returns the size of the message whatever the transport did with
it: the results of its calls are dropped. -/
def writeSidebandMessage (m : M) : Exec (SidebandData δ) ℤ := do
  let byteSize := byteSizeLong codec m
  if sidebandDataSupportsDirectReadWrite vt = 1 then
    let (_, buffer) ← sidebandDataBeginDirectWrite vt
    call (serializeToArray codec vt m buffer)
    let _ ← sidebandDataFinishDirectWrite vt byteSize
  else
    let buffer ← serializeBufferPtr
    let buffer ← Exec.checked (storeAt 0 (codec.serialize m) buffer)
    setSerializeBuffer buffer
    let _ ← sidebandDataWriteLengthPrefixed vt (slice 0 byteSize.toNat buffer)
  return byteSize

/-! ### The direct path -/

/-- The calls `ReadSidebandMessage` makes on a transport with direct access: begin, parse,
finish. The machines of the transports take them one at a time. -/
def directRead : Exec δ (Option M) := do
  let (buffer, bufferSize) ← vt.beginDirectReadLengthPrefixed
  let success ← parseFromArray codec vt buffer (bufferSize.getD 0)
  let _ ← vt.finishDirectRead
  return success

/-- The calls `WriteSidebandMessage` makes on a transport with direct access: begin, store,
finish. The message is stored behind the pointer with nothing compared. -/
def directWrite (m : M) : Exec δ ℤ := do
  let buffer ← vt.beginDirectWrite
  serializeToArray codec vt m buffer
  let _ ← vt.finishDirectWrite (byteSizeLong codec m)
  return byteSizeLong codec m

variable {codec vt}

theorem supportsDirectReadWrite_eq_one :
    sidebandDataSupportsDirectReadWrite vt = 1 ↔ vt.supportsDirectReadWrite = true := by
  rw [sidebandDataSupportsDirectReadWrite]
  split_ifs with h <;> simp [h]

/-- On a transport with direct access, reading a message is a call of the derived object. -/
theorem readSidebandMessage_direct (h : vt.supportsDirectReadWrite = true) :
    readSidebandMessage codec vt = call (directRead codec vt) := by
  rw [← supportsDirectReadWrite_eq_one] at h
  simp only [readSidebandMessage, h, if_true, directRead,
    sidebandDataBeginDirectReadLengthPrefixed, sidebandDataFinishDirectRead, bind_assoc, pure_bind,
    SidebandData.call_bind, SidebandData.call_pure]

/-- On a transport with direct access, writing a message is a call of the derived object. -/
theorem writeSidebandMessage_direct (h : vt.supportsDirectReadWrite = true) (m : M) :
    writeSidebandMessage codec vt m = call (directWrite codec vt m) := by
  rw [← supportsDirectReadWrite_eq_one] at h
  simp only [writeSidebandMessage, h, if_true, directWrite,
    sidebandDataBeginDirectWrite, sidebandDataFinishDirectWrite, bind_assoc, pure_bind,
    SidebandData.call_bind, SidebandData.call_pure]

/-- A size that is no `int` array size addresses no memory. -/
theorem run_parseFromArray_neg {buffer : Pointer} {size : ℤ} (h : toInt32 size < 0) (d : δ) :
    (parseFromArray codec vt buffer size).run d = .error .outOfBounds := by
  simp only [parseFromArray, h, if_true]
  rfl

theorem run_parseFromArray_ok {buffer : Pointer} {size : ℤ} {d d' : δ} {bytes : Bytes}
    (h : 0 ≤ toInt32 size) (hload : (vt.load buffer (toInt32 size).toNat).run d = .ok (bytes, d')) :
    (parseFromArray codec vt buffer size).run d = .ok (codec.parse bytes, d') := by
  simp only [parseFromArray, not_lt.mpr h, if_false]
  rw [Exec.run_bind_ok hload, Exec.run_pure]

theorem run_parseFromArray_error {buffer : Pointer} {size : ℤ} {d : δ} {e : Stop}
    (h : 0 ≤ toInt32 size) (hload : (vt.load buffer (toInt32 size).toNat).run d = .error e) :
    (parseFromArray codec vt buffer size).run d = .error e := by
  simp only [parseFromArray, not_lt.mpr h, if_false]
  rw [Exec.run_bind_error hload]

end Messages

end Sideband
