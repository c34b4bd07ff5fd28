/-
Callers of a buffer: blocks appended one after the other and read back,
and a run in which appends and reads of one reader take turns.

`BufferRun` keeps, beside the buffer and its reader, the bytes appended
and how many of them reads have given out; `ReadLaw` says by these what a
read is to answer.
-/
import CephInC.Common.Buffer
import CephInC.Lib.Run

namespace CephInC

open Lib

/-- The appends of a list of blocks: their codes and the buffer. -/
def bufferAppendAll : Buffer → List (List UInt8) → Prog Allocs (List Int × Buffer)
  | buffer, [] => return ([], buffer)
  | buffer, block :: rest => do
      let (ret, buffer) ← bufferAppend buffer block (Int32.ofNat block.length)
      let (rets, buffer) ← bufferAppendAll buffer rest
      return (ret :: rets, buffer)

/-- A new buffer with the blocks appended. -/
def bufferBuild (blocks : List (List UInt8)) : Prog Allocs (List Int × Buffer) := do
  let (_, buffer) ← bufferNew
  let buffer ← deref buffer
  bufferAppendAll buffer blocks

/-- Reads of the given sizes: their codes, and what they put out together. -/
def bufferReadAll (buffer : Buffer) : BufferReader → List Int32 →
    Prog Allocs (List Int × List UInt8)
  | _, [] => return ([], [])
  | reader, size :: sizes => do
      let (ret, data, reader) ← bufferReaderRead buffer reader size
      let (rets, rest) ← bufferReadAll buffer reader sizes
      return (ret :: rets, data ++ rest)

/-- The reads of a reader made for them. -/
def bufferReadBack (buffer : Buffer) (sizes : List Int32) :
    Prog Allocs (List Int × List UInt8) := do
  let (_, reader) ← bufferReaderNew buffer
  let reader ← deref reader
  bufferReadAll buffer reader sizes

/-- The sum of the sizes read. -/
def totalSize : List Int32 → Nat
  | [] => 0
  | size :: sizes => size.toInt.toNat + totalSize sizes

/-- The shape of a buffer that holds `bytes`. -/
structure BufferShape (buffer : Buffer) (bytes : List UInt8) : Prop where
  full : ∀ node ∈ buffer.nodes.dropLast, (node.ptr : Int) = node.length.toInt
  offset : buffer.offset.toInt = bytes.length
  length : buffer.length.toInt = CCEPH_BUFFER_NODE_LENGTH * buffer.nodes.length

-- ==================================================================== runs

structure BufferRun where
  buffer : Buffer
  reader : Option BufferReader
  appended : List UInt8
  taken : Nat

/-- What no read has given out yet. -/
def BufferRun.unread (s : BufferRun) : List UInt8 := s.appended.drop s.taken

inductive BufferCall where
  | append (data : List UInt8) (allocs : Allocs)
  | readerNew (allocs : Allocs)
  | read (length : Int32)

/-- The part of the data an append that returned `ret` put into the
buffer. -/
def appendedPart (buffer buffer' : Buffer) (ret : Int) (data : List UInt8) : List UInt8 :=
  if ret = CCEPH_OK then data
  else data.take (buffer'.offset.toInt - buffer.offset.toInt).toNat

/-- A call that returns. -/
def bufferStep (s : BufferRun) : BufferCall → Option BufferRun
  | .append data allocs =>
      match bufferAppend s.buffer data (Int32.ofNat data.length) allocs with
      | .ok ((ret, buffer), _) => some { s with
          buffer, appended := s.appended ++ appendedPart s.buffer buffer ret data }
      | .error _ => none
  | .readerNew allocs =>
      match s.reader, bufferReaderNew s.buffer allocs with
      | none, .ok ((_, reader), _) => some { s with reader }
      | _, _ => none
  | .read length =>
      match s.reader with
      | none => none
      | some reader =>
          match bufferReaderRead s.buffer reader length .plenty with
          | .ok ((_, data, reader), _) =>
              some { s with reader := some reader, taken := s.taken + data.length }
          | .error _ => none

/-- A new buffer, without a reader yet. -/
def bufferSystem : System BufferRun BufferCall where
  init s := ∃ buffer allocs allocs',
    bufferNew allocs = .ok ((CCEPH_OK, some buffer), allocs') ∧ s = ⟨buffer, none, [], 0⟩
  step := bufferStep

/-- What a read of `length` bytes is to answer. -/
def ReadLaw (s : BufferRun) (reader : BufferReader) (length : Int32) : Prop :=
  if length.toInt ≤ s.unread.length then
    ∃ reader', bufferReaderRead s.buffer reader length .plenty
      = .ok ((CCEPH_OK, s.unread.take length.toInt.toNat, reader'), .plenty)
  else
    ∃ data reader', bufferReaderRead s.buffer reader length .plenty
      = .ok ((CCEPH_ERR_BUFFER_END, data, reader'), .plenty)

/-- Something was appended, and a reader that has come to the end is not
asked for what came later. -/
def ReadFits (s : BufferRun) (reader : BufferReader) (length : Int32) : Prop :=
  s.appended ≠ [] ∧ (reader.ptr = none → s.unread.length < length.toInt)

/-- What an `int32_t` can count: the last full block ends below 2^31. -/
def bufferLimit : Nat := 2 ^ 31 - CCEPH_BUFFER_NODE_LENGTH

/-- How many blocks hold `n` bytes; there is always one. -/
def blocksFor (n : Nat) : Nat := (n - 1) / CCEPH_BUFFER_NODE_LENGTH + 1

/-- How many more it takes for `n` bytes behind `content` bytes. -/
def newBlocks (content n : Nat) : Nat := blocksFor (content + n) - blocksFor content

/-- Appends of at least a byte, while the counts of the buffer can follow. -/
def AppendFits (s : BufferRun) : BufferCall → Prop
  | .append data _ => data ≠ [] ∧ s.appended.length + data.length ≤ bufferLimit
  | .readerNew _ | .read _ => True

end CephInC
