/-
What a read of an object asks for: the bytes from an offset up to an end
that two clamps choose.

The content, its length, the offset and the length asked for are numbers
here, without a width. `narrow` is the one conversion the code makes on
the way: its read length is an `int`.
-/
import CephInC.Os.Proofs.Reads

namespace CephInC

open Lib

/-- A number kept in an `int`. -/
def narrow (n : Int) : Int := (Int32.ofInt n).toInt

/-- Where a read ends: at the end of the content, unless fewer bytes were
asked for. -/
def readEnd (total offset length : Int) : Int :=
  if length ≤ 0 ∨ total - offset ≤ length then total else offset + length

/-- The bytes of a read. -/
def window (content : List UInt8) (offset length : Int) : List UInt8 :=
  (content.drop offset.toNat).take
    (readEnd content.length offset length - offset).toNat

/-- The answer of a read is the bytes from its offset to its end. A read
from behind the end has none. -/
structure ReadRight (content : List UInt8) (offset length : Int)
    (answer : Int × Option Int64 × Option (List UInt8)) : Prop where
  ret : answer.1 = CCEPH_OK
  count : answer.2.1.map Int64.toInt
    = some (max 0 (readEnd content.length offset length - offset))
  bytes : answer.2.2.getD [] = window content offset length

/-- `read_obj` answers with the bytes of the window. -/
def ReadsWindow (store : MemStore) (cid : OsCollId) (oid : CString)
    (content : List UInt8) (offset length : Int64) : Prop :=
  ∃ ret resultLength resultData store' s,
    memStoreReadObj store cid oid offset length .plenty
        = .ok ((ret, resultLength, resultData, store'), s)
      ∧ ReadRight content offset.toInt length.toInt (ret, resultLength, resultData)

/-- The bytes of the window have a number an `int` can hold, and the
lengths, taken as `int`, do not ask for fewer. -/
def WindowFits (total offset length : Int) : Prop :=
  total ≤ offset
    ∨ (if 0 < length ∧ length < total - offset then length < 2 ^ 31
      else total - offset ≤ if 0 < narrow length then narrow length else narrow total)

instance (total offset length : Int) : Decidable (WindowFits total offset length) := by
  unfold WindowFits
  infer_instance

end CephInC
