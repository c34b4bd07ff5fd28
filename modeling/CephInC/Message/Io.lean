/-
`message/io.c`: integers, strings and blocks of data over a socket.

A receiver runs on an `Inbox`: what the coming `recv` calls on its
descriptor find, in order, and the outcomes of the coming `malloc`
calls. An `Arrival` is a chunk of the peer's bytes, which one call may
take whole or in part, or a failed call; when none is left the peer has
closed. Every way to cut a byte stream into calls, with any failures
between them, is one list of arrivals. `delivered` is the part of the
stream that comes before the descriptor breaks: all a receiver's result
depends on.

A sender runs on an `Outbox`: the bytes the socket has accepted, and
the outcomes of the coming `send` calls.

Integers travel as they lie in memory, least significant byte first.

Of the LOG lines only those of `cceph_send_string` print a name, and only
they are modelled.
-/
import CephInC.Common.Errno
import CephInC.Common.Ints
import CephInC.Common.Log
import Mathlib.Data.List.TakeWhile

namespace CephInC

open Lib

def EAGAIN : Int32 := 11
def EFAULT : Int32 := 14

/-- A block of `char` with a terminator in it. -/
structure CharBlock where
  bytes : List UInt8
  terminated : (0 : UInt8) ∈ bytes
  deriving DecidableEq

namespace CharBlock

/-- The string a pointer to the block is. -/
def str (b : CharBlock) : CString where
  bytes := b.bytes.takeWhile (· ≠ 0)
  noNul h := by
    have := List.mem_takeWhile_imp h
    simp at this

/-- The block of `n` characters and a terminator behind them. -/
def close (bytes : List UInt8) : CharBlock := ⟨bytes ++ [0], by simp⟩

end CharBlock

-- ========================================================== receiving

/-- Bytes that one `recv` call can return: at least one, and fewer than
an `int` counts. -/
structure Chunk where
  bytes : List UInt8
  nonempty : bytes ≠ []
  fits : bytes.length < 2 ^ 31

/-- The chunk after a call that took `n` bytes of it. -/
def Chunk.drop (chunk : Chunk) (n : Nat) (h : n < chunk.bytes.length) :
    Chunk where
  bytes := chunk.bytes.drop n
  nonempty h0 := by
    have := congrArg List.length h0
    simp at this
    omega
  fits := by
    have := chunk.fits
    simp only [List.length_drop]
    omega

/-- What the next `recv` call finds. -/
inductive Arrival where
  | bytes (chunk : Chunk)
  | failed (errno : Int32)

/-- What a receiver runs on. -/
structure Inbox where
  arrivals : List Arrival
  allocs : Allocs

/-- The bytes that come before the descriptor breaks or the peer closes
it. -/
def deliveredBytes : List Arrival → List UInt8
  | [] => []
  | .bytes chunk :: rest => chunk.bytes ++ deliveredBytes rest
  | .failed errno :: rest => if errno = EAGAIN then deliveredBytes rest else []

def Inbox.delivered (inbox : Inbox) : List UInt8 := deliveredBytes inbox.arrivals

/-- What one `recv` call leaves: its result, `errno`, and the bytes it
stored. -/
structure Recvd where
  count : Int32
  errno : Int32
  bytes : List UInt8

/-- `recv(data_fd, buf, size, 0)`, where `room` bytes of the block are
left at `buf`; none stands for NULL. The range handed over must lie in
the block. -/
def recv (room : Option Nat) (size : Nat) : Prog Inbox Recvd := fun inbox =>
  if room.any (· < size) then .error .outOfBounds
  else match inbox.arrivals with
    | [] => .ok (⟨0, 0, []⟩, inbox)
    | .failed errno :: rest =>
        .ok (⟨-1, errno, []⟩, { inbox with arrivals := rest })
    | .bytes chunk :: rest =>
        if room.isNone then .ok (⟨-1, EFAULT, []⟩, inbox)
        else if h : size < chunk.bytes.length then
          .ok (⟨Int32.ofNat size, 0, chunk.bytes.take size⟩,
            { inbox with arrivals := .bytes (chunk.drop size h) :: rest })
        else
          .ok (⟨Int32.ofNat chunk.bytes.length, 0, chunk.bytes⟩,
            { inbox with arrivals := rest })

/-- The loop of `cceph_recv_from_conn`, `buf` being what is stored so far.
Every iteration but the last two uses an arrival up, so `fuel` bounds
them. -/
def recvLoop (room : Option Nat) :
    Nat → Nat → Int32 → List UInt8 → Prog Inbox (Int × List UInt8)
  | 0, _, _, _ => fault .blocked
  | fuel + 1, size, total, buf =>
      if size > 0 then do
        let got ← recv (room.map (· - buf.length)) size
        if got.count = -1 ∧ got.errno ≠ EAGAIN then
          return (CCEPH_ERR_CONN_CLOSED, buf)
        else if got.count = -1 ∧ got.errno = EAGAIN ∧ size > 0 then
          recvLoop room fuel size total buf
        else if got.count = 0 then
          return (CCEPH_ERR_CONN_CLOSED, buf)
        else
          recvLoop room fuel (size - got.count.toInt.toNat) (total + got.count)
            (buf ++ got.bytes)
      else return (total.toInt, buf)

/-- `cceph_recv_from_conn`: the return code and the bytes stored. -/
def recvFromConn (room : Option Nat) (size : Nat) :
    Prog Inbox (Int × List UInt8) := fun inbox =>
  recvLoop room (inbox.arrivals.length + 2) size 0 [] inbox

/-- `malloc` while a message is read. -/
def recvMalloc (size : Nat) : Prog Inbox Bool := fun inbox =>
  match malloc size inbox.allocs with
  | .ok (granted, allocs) => .ok (granted, { inbox with allocs := allocs })
  | .error e => .error e

/-- `cceph_recv_int8` and its kin, on a variable that holds `value`: the
return code, and what the variable holds after. -/
def recvInt {α : Type} (c : Codec α) (value : α) : Prog Inbox (Int × α) := do
  let (ret, buf) ← recvFromConn (some c.size) c.size
  return (if ret = c.size then 0 else if ret < 0 then ret else -1,
    c.overwrite value buf)

def recvInt8 : Int8 → Prog Inbox (Int × Int8) := recvInt int8Codec
def recvInt16 : Int16 → Prog Inbox (Int × Int16) := recvInt int16Codec
def recvInt32 : Int32 → Prog Inbox (Int × Int32) := recvInt int32Codec
def recvInt64 : Int64 → Prog Inbox (Int × Int64) := recvInt int64Codec

/-- The part of `cceph_recv_string` after `*size` is in. -/
def recvStringBlock (size : Int16) : Prog Inbox (Int × Int16 × Option CharBlock) := do
  let room := sizeT (size.toInt + 1)
  if !(← recvMalloc room) then fault .nullDeref
  -- `(*string)[*size] = '\0'`
  else if ¬(0 ≤ size.toInt ∧ size.toInt < room) then fault .outOfBounds
  else
    let (ret, buf) ← recvFromConn (some room) (sizeT size.toInt)
    return (if ret = size.toInt then 0 else if ret < 0 then ret else -1, size,
      if ret < 0 ∨ ret ≠ size.toInt then none else some (.close buf))

/-- `cceph_recv_string`: the return code, `*size` and `*string`. -/
def recvString (size : Int16) (string : Option CharBlock) :
    Prog Inbox (Int × Int16 × Option CharBlock) := do
  let (ret, buf) ← recvFromConn (some int16Codec.size) int16Codec.size
  let size := int16Codec.overwrite size buf
  if ret ≠ int16Codec.size then
    return (if ret < 0 then ret else -1, size, string)
  recvStringBlock size

/-- The part of `cceph_recv_data` after `*size` is in. -/
def recvDataBlock (size : Int64) : Prog Inbox (Int × Int64 × Option (List UInt8)) := do
  let granted ← recvMalloc (sizeT size.toInt)
  let room := if granted then some (sizeT size.toInt) else none
  let (ret, buf) ← recvFromConn room (sizeT size.toInt)
  return (if ret = size.toInt then 0 else if ret < 0 then ret else -1, size,
    if ret < 0 ∨ ret ≠ size.toInt then none else room.map fun _ => buf)

/-- `cceph_recv_data`: the return code, `*size` and `*data`. -/
def recvData (size : Int64) (data : Option (List UInt8)) :
    Prog Inbox (Int × Int64 × Option (List UInt8)) := do
  let (ret, buf) ← recvFromConn (some int64Codec.size) int64Codec.size
  let size := int64Codec.overwrite size buf
  if ret ≠ int64Codec.size then
    return (if ret < 0 then ret else -1, size, data)
  recvDataBlock size

-- ============================================================ sending

/-- What the next `send` call does: fail, or accept `count` bytes, or as
many as it is given if these are fewer. A short count says nothing about
`errno`. -/
inductive SendOutcome where
  | failed (errno : Int32)
  | accepted (count : Nat) (errno : Int32)
  deriving DecidableEq

/-- What a sender runs on. Calls after the last of `coming` accept
everything. -/
structure Outbox where
  sent : List UInt8
  coming : List SendOutcome
  deriving DecidableEq

/-- The outcome of the next call, which is given `size` bytes. -/
def Outbox.next (out : Outbox) (size : Nat) : SendOutcome :=
  out.coming.headD (.accepted size 0)

/-- `send(fd, buf, size, 0)`: its result and `errno`. -/
def send (buf : List UInt8) (size : Nat) : Prog Outbox (Int × Int32) := fun out =>
  match out.next size with
  | .failed errno => .ok ((-1, errno), { out with coming := out.coming.tail })
  | .accepted count errno =>
      let taken : Nat := min count size
      if taken ≤ buf.length then
        .ok ((taken, errno), ⟨out.sent ++ buf.take taken, out.coming.tail⟩)
      else .error .outOfBounds

/-- `int ret = send(…)`. -/
def sendRet (buf : List UInt8) (size : Nat) : Prog Outbox (Int × Int32) := do
  let (count, errno) ← send buf size
  return ((Int32.ofInt count).toInt, errno)

/-- `cceph_send_int8`. -/
def sendInt8 (value : Int8) : Prog Outbox Int := do
  let (ret, errno) ← sendRet (int8Codec.bytes value) int8Codec.size
  if ret ≠ int8Codec.size then
    let errNo := if ret < 0 then ret else errno.toInt
    return (if errNo ≥ 0 then -1 else errNo)
  return 0

/-- `cceph_send_int16` and its kin. -/
def sendInt {α : Type} (c : Codec α) (value : α) : Prog Outbox Int := do
  let (ret, errno) ← sendRet (c.bytes value) c.size
  if ret ≠ c.size then
    return (if ret < 0 then ret else errno.toInt)
  return 0

def sendInt16 : Int16 → Prog Outbox Int := sendInt int16Codec
def sendInt32 : Int32 → Prog Outbox Int := sendInt int32Codec
def sendInt64 : Int64 → Prog Outbox Int := sendInt int64Codec

/-- What `cceph_send_string` says of a failure, at this line. -/
def sendStringLine (logId : Int64) (line : Nat) (string : CString) (errNo : Int) : LogLine :=
  ⟨logId, "message/io.c", line,
    ascii "send string " ++ string.bytes ++ ascii " error: " ++ decimal errNo⟩

/-- `cceph_send_string`. -/
def sendString (logId : Int64) (string : CharBlock) : Prog Outbox Int := do
  let size := Int16.ofNat (strlen string.str)
  let (ret, errno) ← sendRet (int16Codec.bytes size) int16Codec.size
  if ret ≠ int16Codec.size then
    let errNo := if ret < 0 then ret else errno.toInt
    lift (log (sendStringLine logId 57 string.str errNo))
    return (if errNo < 0 then errNo else -1)
  let (ret, errno) ← sendRet string.bytes (sizeT size.toInt)
  if ret ≠ size.toInt then
    let errNo := if ret < 0 then ret else errno.toInt
    lift (log (sendStringLine logId 63 string.str errNo))
    return (if errNo < 0 then errNo else -1)
  return 0

/-- `cceph_send_data`. -/
def sendData (length : Int64) (data : List UInt8) : Prog Outbox Int := do
  let (ret, errno) ← sendRet (int64Codec.bytes length) int64Codec.size
  if ret ≠ int64Codec.size then
    let errNo := if ret < 0 then ret else errno.toInt
    return (if errNo < 0 then errNo else -1)
  let (ret, errno) ← sendRet data (sizeT length.toInt)
  if ret ≠ length.toInt then
    let errNo := if ret < 0 then ret else errno.toInt
    return (if errNo < 0 then errNo else -1)
  return 0

end CephInC
