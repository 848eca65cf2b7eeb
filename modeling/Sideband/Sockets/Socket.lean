import Sideband.Handle
import Sideband.ConnectionId

/-!
# The socket transport

`Connection` is one end of a connected stream socket: the bytes the peer has sent, the bytes
accepted for it, and the outcomes the kernel will give to the coming `recv` and `send` calls.
A successful call transfers any number of bytes from one up to what is asked for (and, for
`recv`, available), so a list of outcomes is one way of cutting the stream into pieces; a
call that finds no outcome left does not return.

The two loops, `WriteToSocket` and `ReadFromSocket`, follow the source: the count that
`send` and `recv` return is stored in an `int`.
-/

namespace Sideband

open Foundation

/-! ### The kernel's side -/

/-- The values of `errno` the code tells apart. Every other error of `send` and `recv` is handled
alike. -/
inductive Errno
  | EAGAIN
  | EWOULDBLOCK
  | other
  deriving DecidableEq, Repr

/-- `errno == EAGAIN || errno == EWOULDBLOCK`. -/
def Errno.wouldBlock : Errno → Bool
  | .EAGAIN => true
  | .EWOULDBLOCK => true
  | .other => false

/-- The outcome of a `recv`. A count that is larger than what is there, or than what is asked
for, stands for as many bytes as there are. -/
inductive RecvEvent
  /-- Available bytes: at least one, at most `count`. -/
  | deliver (count : ℕ)
  /-- The peer has closed the connection: `0` bytes. -/
  | closed
  | fail (errno : Errno)
  deriving DecidableEq, Repr

/-- The outcome of a `send`. A call that waits until the kernel has room is one that has no
outcome yet. -/
inductive SendEvent
  /-- Bytes are accepted: at least one, at most `count`. -/
  | accept (count : ℕ)
  | fail (errno : Errno)
  deriving DecidableEq, Repr

/-- The number of bytes a call for `n` bytes transfers, when the kernel would transfer `count`:
one at least, and no more than asked for. -/
def transferCount (count n : ℕ) : ℕ := max 1 (min count n)

/-- One end of a connected socket. Its outcomes are decided before the calls are made, so every
way of cutting the stream is some connection; what the peer does with the bytes is no part of it. -/
structure Connection where
  /-- Bytes the peer has sent and this end has not received. -/
  incoming : Bytes := []
  /-- Bytes accepted for sending. -/
  outgoing : Bytes := []
  recvs : List RecvEvent := []
  sends : List SendEvent := []
  errno : Errno := .other
  deriving DecidableEq, Repr

/-! ### The two loops -/

/-- The loop of `WriteToSocket`: `rest` is what `start` points to, `remainingBytes` its length.
Any failure ends it, also one of a `send` that only would have blocked. -/
def writeLoop (c : Connection) (rest : Bytes) :
    List SendEvent → Except Stop (Bool × Connection)
  | [] => if rest = [] then .ok (true, { c with sends := [] }) else .error .blocked
  | e :: sends =>
    if rest = [] then .ok (true, { c with sends := e :: sends })
    else match e with
      | .fail errno => .ok (false, { c with sends, errno })
      | .accept k =>
        let count := transferCount k rest.length
        let c := { c with outgoing := c.outgoing ++ rest.take count }
        -- `send` returns the count, which is kept in an `int`
        let written := toInt32 count
        if written < 0 then .ok (false, { c with sends })
        else writeLoop c (rest.drop written.toNat) sends

/-- The loops of `ReadFromSocket`, with `start` the offset reached in the buffer. A
would-block failure goes round the inner loop, which changes nothing; `errno` keeps its value
when `recv` succeeds. -/
def readLoop (c : Connection) (dst : Option Bytes) (start : ℕ) (remainingBytes : ℤ) :
    List RecvEvent → Except Stop ((Bool × Option Bytes) × Connection)
  | [] =>
    if remainingBytes ≤ 0 then .ok ((true, dst), { c with recvs := [] }) else .error .blocked
  | e :: recvs =>
    if remainingBytes ≤ 0 then .ok ((true, dst), { c with recvs := e :: recvs })
    else match e with
      | .fail errno =>
        if errno.wouldBlock then readLoop { c with errno } dst start remainingBytes recvs
        else .ok ((false, dst), { c with recvs, errno })
      -- `recv` returned 0, which is neither below 0 nor progress
      | .closed => readLoop c dst start remainingBytes recvs
      | .deliver k =>
        if c.incoming = [] then .error .blocked
        else
          let count := transferCount k (min remainingBytes.toNat c.incoming.length)
          match storeDst start (c.incoming.take count) dst with
          | none => .error .outOfBounds
          | some dst =>
            let c := { c with incoming := c.incoming.drop count }
            -- the bytes are stored before the count is narrowed to an `int`
            let n := toInt32 count
            if n < 0 then
              if c.errno.wouldBlock then readLoop c dst start remainingBytes recvs
              else .ok ((false, dst), { c with recvs })
            else readLoop c dst (start + n.toNat) (remainingBytes - n) recvs

/-! ### The class -/

/-- `SocketSidebandData`, with the connection behind `_socket`. The methods look at the
connection only; what becomes of the descriptor is the matter of `Descriptors`. -/
structure SocketSidebandData where
  id : Bytes := []
  socket : ℤ
  lowLatency : Bool
  connection : Connection
  deriving DecidableEq, Repr

namespace SocketSidebandData

/-- `WriteToSocket`. It consumes the outcomes that the loop has looked at, so the next call finds
the rest. -/
def writeToSocket (bytes : Bytes) : Exec SocketSidebandData Bool := fun h =>
  (writeLoop h.connection bytes h.connection.sends).map fun (result, c) =>
    (result, { h with connection := c })

/-- `ReadFromSocket`. The bytes that it has stored stay in the buffer when it fails, and the
caller is told only that it did. -/
def readFromSocket (dst : Option Bytes) (numBytes : ℤ) :
    Exec SocketSidebandData (Bool × Option Bytes) := fun h =>
  (readLoop h.connection dst 0 numBytes h.connection.recvs).map fun (r, c) =>
    (r, { h with connection := c })

/-- The end of `ConnectToSocket`: tell the server which stream the connection is for. The
result of the write is not looked at. -/
def sendUsageId (usageId : Bytes) : Exec SocketSidebandData Unit := do
  let _ ← writeToSocket usageId

/-- `ReadConnectionId`: the result of the read is not looked at, so that after a failure the id
is whatever bytes had arrived, in front of zeros. -/
def readConnectionId : Exec SocketSidebandData Unit := do
  let (_, buffer) ← readFromSocket (some (List.replicate connectIdLength 0)) connectIdLength
  modify fun h => { h with id := buffer.getD [] }

def write (bytes : Bytes) : Exec SocketSidebandData Bool := writeToSocket bytes

def read (bytes : Option Bytes) (bufferSize : ℤ) : Exec SocketSidebandData ReadResult := do
  let (result, bytes) ← readFromSocket bytes bufferSize
  if result then
    return ⟨true, bytes, some bufferSize⟩
  return ⟨false, bytes, none⟩

def writeLengthPrefixed (bytes : Bytes) : Exec SocketSidebandData Bool := do
  let result ← writeToSocket (le64 bytes.length)
  if result then
    writeToSocket bytes
  else
    return result

def readFromLengthPrefixed (bytes : Option Bytes) (bufferSize : ℤ) :
    Exec SocketSidebandData ReadResult := read bytes bufferSize

/-- `ReadLengthPrefix`: `bufferSize` starts as `0`, and the result of the read is not looked
at. -/
def readLengthPrefix : Exec SocketSidebandData ℤ := do
  let (_, bufferSize) ← readFromSocket (some (le64 0)) sizeofInt64
  return int64OfLe (bufferSize.getD [])

/-- The methods of `SocketSidebandData`. It supports no direct access, so the direct ones are
those of the base class, which do nothing. -/
def methods : SidebandMethods SocketSidebandData where
  write := write
  read := read
  writeLengthPrefixed := writeLengthPrefixed
  readFromLengthPrefixed := readFromLengthPrefixed
  readLengthPrefix := readLengthPrefix
  supportsDirectReadWrite := false
  beginDirectRead _ := pure .null
  beginDirectReadLengthPrefixed := pure (.null, none)
  finishDirectRead := pure false
  beginDirectWrite := pure .null
  finishDirectWrite _ := pure false
  load _ n := if n = 0 then pure [] else throw .outOfBounds
  store _ bytes := if bytes = [] then pure () else throw .outOfBounds

end SocketSidebandData

end Sideband
