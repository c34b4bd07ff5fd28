/-
`common/encode.c`: integers and strings appended to a buffer, and read
back.

A value goes into a buffer as it lies in memory. It is read into a
variable, and where the buffer ends first, the variable is left with the
bytes that were there. A string goes behind its length, without its
terminator, and is read into a block of that length.
-/
import CephInC.Common.Buffer
import CephInC.Common.Ints

namespace CephInC

open Lib

-- =================================================== the two macro bodies

/-- `cceph_encode_##type` of `CCEPH_ENCODE_BASIC_TYPE`. -/
def encodeBasicType {α : Type} (c : Codec α) (buffer : Buffer) (value : α) :
    Prog Allocs (Int × Buffer) :=
  bufferAppend buffer (c.bytes value) (Int32.ofNat c.size)

/-- `cceph_decode_##type` on a variable that holds `value`: the return code,
what the variable holds after, and the reader. -/
def decodeBasicType {α : Type} (c : Codec α) (buffer : Buffer) (reader : BufferReader)
    (value : α) : Prog Allocs (Int × α × BufferReader) := do
  let (ret, data, reader) ← bufferReaderRead buffer reader (Int32.ofNat c.size)
  return (ret, c.overwrite value data, reader)

-- ============================================================== the types

def encodeInt : Buffer → Int32 → Prog Allocs (Int × Buffer) := encodeBasicType int32Codec
def encodeInt8 : Buffer → Int8 → Prog Allocs (Int × Buffer) := encodeBasicType int8Codec
def encodeInt32 : Buffer → Int32 → Prog Allocs (Int × Buffer) := encodeBasicType int32Codec

def decodeInt : Buffer → BufferReader → Int32 → Prog Allocs (Int × Int32 × BufferReader) :=
  decodeBasicType int32Codec
def decodeInt8 : Buffer → BufferReader → Int8 → Prog Allocs (Int × Int8 × BufferReader) :=
  decodeBasicType int8Codec
def decodeInt32 : Buffer → BufferReader → Int32 → Prog Allocs (Int × Int32 × BufferReader) :=
  decodeBasicType int32Codec

/-- `cceph_encode_version`. -/
def encodeVersion : Buffer → Int8 → Prog Allocs (Int × Buffer) := encodeInt8

/-- `cceph_decode_version`. -/
def decodeVersion : Buffer → BufferReader → Int8 → Prog Allocs (Int × Int8 × BufferReader) :=
  decodeInt8

/-- `cceph_encode_epoch`. -/
def encodeEpoch : Buffer → Int32 → Prog Allocs (Int × Buffer) := encodeInt32

/-- `cceph_decode_epoch`. -/
def decodeEpoch : Buffer → BufferReader → Int32 → Prog Allocs (Int × Int32 × BufferReader) :=
  decodeInt32

-- =============================================================== strings

/-- `cceph_encode_string`. -/
def encodeString (buffer : Buffer) (value : CString) : Prog Allocs (Int × Buffer) := do
  let length := Int32.ofNat (strlen value)
  let (ret, buffer) ← bufferAppend buffer (int32Codec.bytes length)
    (Int32.ofNat int32Codec.size)
  if ret ≠ CCEPH_OK then
    return (ret, buffer)
  bufferAppend buffer value.bytes length

/-- `cceph_decode_string` on a pointer that is `value`: the return code, the
block it points at after, and the reader. What `malloc` leaves in a block
is `fresh`. -/
def decodeString (buffer : Buffer) (fresh : Nat → UInt8) (reader : BufferReader)
    (value : Option (List UInt8)) :
    Prog Allocs (Int × Option (List UInt8) × BufferReader) := do
  assert value.isNone
  let (ret, data, reader) ← bufferReaderRead buffer reader (Int32.ofNat int32Codec.size)
  let length := int32Codec.overwrite 0 data
  if ret ≠ CCEPH_OK then
    return (ret, value, reader)
  if !(← malloc (sizeT length.toInt)) then
    return (CCEPH_ERR_NO_ENOUGH_MEM, none, reader)
  let block := (List.range length.toInt.toNat).map fresh
  let (ret, data, reader) ← bufferReaderRead buffer reader length
  return (ret, some (data ++ block.drop data.length), reader)

/-- Read as a C string, the block is this one; its terminator lies in the
block. -/
def ReadsAs (block : List UInt8) (s : CString) : Prop := ∃ rest, block = s.bytes ++ 0 :: rest

end CephInC
