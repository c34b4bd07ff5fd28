/-
`cceph_recv_string` and `cceph_recv_data` over any allocator.

With `recvMalloc` for the allocator they are the functions themselves,
by definition; `recvGranted` is one that never refuses, not even a size
that no block can have. A store outside its block is a fault, so that
the stores of a run stay in their blocks if it does not end in that one.
-/
import CephInC.Message.Io

namespace CephInC

open Lib

section
variable (alloc : Nat → Prog Inbox Bool)

/-- The part of `cceph_recv_string` after `*size` is in. -/
def recvStringBlockWith (size : Int16) : Prog Inbox (Int × Int16 × Option CharBlock) := do
  let room := sizeT (size.toInt + 1)
  if !(← alloc room) then fault .nullDeref
  else if ¬(0 ≤ size.toInt ∧ size.toInt < room) then fault .outOfBounds
  else
    let (ret, buf) ← recvFromConn (some room) (sizeT size.toInt)
    return (if ret = size.toInt then 0 else if ret < 0 then ret else -1, size,
      if ret < 0 ∨ ret ≠ size.toInt then none else some (.close buf))

def recvStringWith (size : Int16) (string : Option CharBlock) :
    Prog Inbox (Int × Int16 × Option CharBlock) := do
  let (ret, buf) ← recvFromConn (some int16Codec.size) int16Codec.size
  let size := int16Codec.overwrite size buf
  if ret ≠ int16Codec.size then
    return (if ret < 0 then ret else -1, size, string)
  recvStringBlockWith alloc size

/-- The part of `cceph_recv_data` after `*size` is in. -/
def recvDataBlockWith (size : Int64) : Prog Inbox (Int × Int64 × Option (List UInt8)) := do
  let granted ← alloc (sizeT size.toInt)
  let room := if granted then some (sizeT size.toInt) else none
  let (ret, buf) ← recvFromConn room (sizeT size.toInt)
  return (if ret = size.toInt then 0 else if ret < 0 then ret else -1, size,
    if ret < 0 ∨ ret ≠ size.toInt then none else room.map fun _ => buf)

def recvDataWith (size : Int64) (data : Option (List UInt8)) :
    Prog Inbox (Int × Int64 × Option (List UInt8)) := do
  let (ret, buf) ← recvFromConn (some int64Codec.size) int64Codec.size
  let size := int64Codec.overwrite size buf
  if ret ≠ int64Codec.size then
    return (if ret < 0 then ret else -1, size, data)
  recvDataBlockWith alloc size

end

theorem recvString_with : recvString = recvStringWith recvMalloc := rfl

theorem recvData_with : recvData = recvDataWith recvMalloc := rfl

/-- The allocation succeeds for the size requested, whatever that is. -/
def recvGranted (_size : Nat) : Prog Inbox Bool := pure true

/-- Every store is in its block. -/
def Inside {α : Type} (x : Except Fault α) : Prop := x ≠ .error .outOfBounds

/-- The stores of both functions on this stream, for any old content of
their out parameters. -/
structure StoresInside (inbox : Inbox) : Prop where
  string : ∀ size string, Inside (recvStringWith recvGranted size string inbox)
  data : ∀ size data, Inside (recvDataWith recvGranted size data inbox)

end CephInC
