/-
`common/osdmap.c`: a map of the object servers in a buffer.

Of an entity only its id is persisted, and nothing else of it is kept
here. The codes of the functions that encode or decode the fields are
dropped, so that a variable may keep what it held before: the caller's
`cceph_osdmap`, or the block that `malloc` returned, whose contents are
`fresh`.
-/
import CephInC.Common.Encode

namespace CephInC

open Lib

/-- `cceph_osd_entity`, as far as it is persisted. -/
structure OsdRecord where
  id : Int32
  deriving DecidableEq

/-- `cceph_osdmap`, as far as it is persisted; `osds` may be NULL. -/
structure OsdmapRecord where
  epoch : Int32
  pgCount : Int32
  osdCount : Int32
  osds : Option (List OsdRecord)
  deriving DecidableEq

def sizeofOsdEntity : Nat := 24

-- ============================================================== encoding

/-- `cceph_encode_osd_entity`. -/
def encodeOsdEntity (buffer : Buffer) (osdEntity : OsdRecord) :
    Prog Allocs (Int × Buffer) := do
  let (_, buffer) ← encodeVersion buffer 1
  let (_, buffer) ← encodeInt32 buffer osdEntity.id
  return (CCEPH_OK, buffer)

/-- The loop of `cceph_encode_osdmap`, over what is left of the block. -/
def encodeOsdsLoop : (left : Nat) → List OsdRecord → Buffer → Prog Allocs Buffer
  | 0, _, buffer => return buffer
  | _ + 1, [], _ => fault .outOfBounds
  | left + 1, osd :: osds, buffer => do
      let (_, buffer) ← encodeOsdEntity buffer osd
      encodeOsdsLoop left osds buffer

/-- `cceph_encode_osdmap`. -/
def encodeOsdmap (buffer : Buffer) (osdmap : OsdmapRecord) : Prog Allocs (Int × Buffer) := do
  let (_, buffer) ← encodeVersion buffer 1
  let (_, buffer) ← encodeEpoch buffer osdmap.epoch
  let (_, buffer) ← encodeInt buffer osdmap.pgCount
  let (_, buffer) ← encodeInt buffer osdmap.osdCount
  if osdmap.osdCount > 0 then
    let osds ← deref osdmap.osds
    let buffer ← encodeOsdsLoop osdmap.osdCount.toInt.toNat osds buffer
    return (CCEPH_OK, buffer)
  else
    return (CCEPH_OK, buffer)

-- ============================================================== decoding

section
variable (buffer : Buffer)

/-- `cceph_decode_osd_entity`: the return code, the entity, and the
reader. -/
def decodeOsdEntity (reader : BufferReader) (osdEntity : OsdRecord) :
    Prog Allocs (Int × OsdRecord × BufferReader) := do
  let (_, v, reader) ← decodeVersion buffer reader 0
  assert (v = 1)
  let (_, id, reader) ← decodeInt32 buffer reader osdEntity.id
  return (CCEPH_OK, { osdEntity with id }, reader)

/-- The loop of `cceph_decode_osdmap`, over what is left of the block. -/
def decodeOsdsLoop : BufferReader → List OsdRecord →
    Prog Allocs (List OsdRecord × BufferReader)
  | reader, [] => return ([], reader)
  | reader, osd :: osds => do
      let (_, osd, reader) ← decodeOsdEntity buffer reader osd
      let (osds, reader) ← decodeOsdsLoop reader osds
      return (osd :: osds, reader)

/-- `cceph_decode_osdmap` on a structure that holds `osdmap`: the return
code, the structure, and the reader. -/
def decodeOsdmap (fresh : Nat → OsdRecord) (reader : BufferReader) (osdmap : OsdmapRecord) :
    Prog Allocs (Int × OsdmapRecord × BufferReader) := do
  let (_, v, reader) ← decodeVersion buffer reader 0
  assert (v = 1)
  let (_, epoch, reader) ← decodeEpoch buffer reader osdmap.epoch
  let (_, pgCount, reader) ← decodeInt buffer reader osdmap.pgCount
  let (_, osdCount, reader) ← decodeInt buffer reader osdmap.osdCount
  let osdmap := { osdmap with epoch, pgCount, osdCount }
  if !(← malloc (sizeT (sizeofOsdEntity * osdCount.toInt))) then
    return (CCEPH_ERR_NO_ENOUGH_MEM, { osdmap with osds := none }, reader)
  let block := (List.range osdCount.toInt.toNat).map fresh
  let (osds, reader) ← decodeOsdsLoop buffer reader block
  return (CCEPH_OK, { osdmap with osds := some osds }, reader)

end

-- ====================================================== one after another

/-- Each map is encoded behind the one before. -/
def encodeOsdmaps : Buffer → List OsdmapRecord → Prog Allocs (List Int × Buffer)
  | buffer, [] => return ([], buffer)
  | buffer, osdmap :: osdmaps => do
      let (ret, buffer) ← encodeOsdmap buffer osdmap
      let (rets, buffer) ← encodeOsdmaps buffer osdmaps
      return (ret :: rets, buffer)

/-- Where a map is decoded into: the structure as it was, and what `malloc`
leaves in the block for its entities. -/
structure OsdmapRoom where
  osdmap : OsdmapRecord
  fresh : Nat → OsdRecord

/-- One map after the other is decoded: what each call returns. -/
def decodeOsdmaps (buffer : Buffer) : BufferReader → List OsdmapRoom →
    Prog Allocs (List (Int × OsdmapRecord × BufferReader))
  | _, [] => return []
  | reader, room :: rooms => do
      let (ret, osdmap, reader) ← decodeOsdmap buffer room.fresh reader room.osdmap
      let rest ← decodeOsdmaps buffer reader rooms
      return (ret, osdmap, reader) :: rest

-- ================================================== what is in the buffer

/-- The entities of a map. -/
def OsdmapRecord.entities (osdmap : OsdmapRecord) : List OsdRecord :=
  (osdmap.osds.getD []).take osdmap.osdCount.toInt.toNat

/-- There are as many entities as the map says. -/
structure OsdmapRecord.Sound (osdmap : OsdmapRecord) : Prop where
  count : osdmap.osdCount ≥ 0
  entities : osdmap.osdCount.toInt ≤ (osdmap.osds.getD []).length

def osdEntityBytes (osdEntity : OsdRecord) : List UInt8 :=
  int8Codec.bytes 1 ++ int32Codec.bytes osdEntity.id

/-- The encoding of a map. -/
def osdmapBytes (osdmap : OsdmapRecord) : List UInt8 :=
  int8Codec.bytes 1 ++ int32Codec.bytes osdmap.epoch ++ int32Codec.bytes osdmap.pgCount
    ++ int32Codec.bytes osdmap.osdCount ++ osdmap.entities.flatMap osdEntityBytes

/-- A reader at the byte `p`. -/
def readerOn (p : Nat) : BufferReader :=
  ⟨some (p / CCEPH_BUFFER_NODE_LENGTH), some (p % CCEPH_BUFFER_NODE_LENGTH)⟩

/-- The bytes start with the encoding of a map. -/
def StartsWithOsdmap (bytes : List UInt8) : Prop :=
  ∃ osdmap rest, osdmap.Sound ∧ bytes = osdmapBytes osdmap ++ rest

/-- A decoder that stands before `bytes` delivers the map they start with, and
says so if there is none. -/
structure DecodesExactly (buffer : Buffer) (reader : BufferReader) (bytes : List UInt8)
    (room : OsdmapRoom) : Prop where
  delivers : ∀ osdmap rest, osdmap.Sound → bytes = osdmapBytes osdmap ++ rest →
    ∃ reader', decodeOsdmap buffer room.fresh reader room.osdmap .plenty
      = .ok ((CCEPH_OK, { osdmap with osds := some osdmap.entities }, reader'), .plenty)
  refuses : ¬StartsWithOsdmap bytes → ∃ ret osdmap reader' s, ret ≠ CCEPH_OK
    ∧ decodeOsdmap buffer room.fresh reader room.osdmap .plenty
      = .ok ((ret, osdmap, reader'), s)

end CephInC
