/-
The writes of one object, from its creation on.

An object is what its writes left, one over the other (`Lib.Patch`): a
write is a patch of its bytes at its offset, a touch a patch of none. The
ops of an object come among ops on others; those that do not remove it or
its collection leave its content alone.
-/
import CephInC.Lib.Patches
import CephInC.Os.Logged
import CephInC.Os.Window

namespace CephInC

open Lib

namespace OsTranOp

/-- The op writes or touches this object. -/
def isPut (op : OsTranOp) (cid : OsCollId) (oid : CString) : Bool :=
  (op.op = .objWrite ∨ op.op = .objTouch) ∧ op.cid = cid ∧ op.oid = some oid

/-- The op removes it, or its collection. -/
def isEnd (op : OsTranOp) (cid : OsCollId) (oid : CString) : Bool :=
  op.cid = cid ∧ (op.op = .collRemove ∨ op.op = .objRemove ∧ op.oid = some oid)

/-- The offset and the length are not negative, the end is below 2^31, and
the data has that many bytes. A touch has no length and no data. -/
structure InRange (op : OsTranOp) : Prop where
  offset : 0 ≤ op.offset.toInt
  length : op.op = .objWrite → 0 ≤ op.length.toInt
  stop : op.op = .objWrite → op.offset.toInt + op.length.toInt < 2 ^ 31
  data : op.op = .objWrite → op.length.toInt ≤ (op.data.getD []).length

/-- What the op puts into the object. -/
def put (op : OsTranOp) : Patch UInt8 where
  offset := op.offset.toInt.toNat
  bytes := if op.op = .objWrite then (op.data.getD []).take op.length.toInt.toNat else []

end OsTranOp

/-- The writes and touches of an object, in order. -/
def putsOf (cid : OsCollId) (oid : CString) (ops : List OsTranOp) : List (Patch UInt8) :=
  (ops.filter fun op => op.isPut cid oid).map OsTranOp.put

/-- Op after op, each with the log id of its call, whatever each of them
returns. -/
def memStoreExec : List (Int64 × OsTranOp) → BinTree MemStoreCollNode →
    Prog Allocs (BinTree MemStoreCollNode)
  | [], colls => return colls
  | (logId, op) :: calls, colls => do
      let (_, colls) ← memStoreDoOpLogged log logId colls (some op)
      memStoreExec calls colls

-- ================================================================ the law

/-- What these writes leave: at each place up to the furthest end the byte
of the last write over it, and zeros where there is none. -/
def written (ps : List (Patch UInt8)) : List UInt8 :=
  (List.range (extent ps)).map (lastByte 0 ps)

/-- The object has the length and the bytes its writes leave. -/
def HoldsWritten (colls : BinTree MemStoreCollNode) (cid : OsCollId) (oid : CString)
    (ps : List (Patch UInt8)) : Prop :=
  ∃ cnode onode, mapGet MemStoreCollNode.cid colls cid = some cnode
    ∧ mapGet MemStoreObjectNode.oid cnode.objects oid = some onode
    ∧ onode.length.toInt = extent ps ∧ onode.content = written ps

/-- One more write of no bytes, if its line fits, changes nothing. -/
def IdleUnseen (colls : BinTree MemStoreCollNode) (cid : OsCollId) (oid : CString) : Prop :=
  ∀ logId op, op.isPut cid oid = true → op.InRange → op.put.bytes = [] →
    (∀ l ∈ op.line logId, l.Fits) →
    ∃ colls', memStoreDoOpLogged log logId colls (some op) .plenty
        = .ok ((CCEPH_OK, colls'), .plenty)
      ∧ collsView colls' = collsView colls

/-- A read from the start, of a length that is not positive, returns all
of them. -/
def ReadsWritten (store : MemStore) (logId : Int64) (cid : OsCollId) (oid : CString)
    (length : Int64) (ps : List (Patch UInt8)) : Prop :=
  ∃ resultLength resultData store' s,
    memStoreReadObjLogged log logId store cid oid 0 length .plenty
        = .ok ((CCEPH_OK, some resultLength, resultData, store'), s)
      ∧ resultLength.toInt = extent ps ∧ resultData.getD [] = written ps

/-- The object is its writes, for those who look into the store and for
those who read it with this length. -/
structure OverlayLaw (store : MemStore) (logId : Int64) (cid : OsCollId) (oid : CString)
    (length : Int64) (ps : List (Patch UInt8)) : Prop where
  holds : HoldsWritten store.colls cid oid ps
  idle : IdleUnseen store.colls cid oid
  reads : ReadsWritten store logId cid oid length ps

end CephInC
