/-
`os/transaction.c`: a transaction is a block of op slots, of which the
first `op_buffer_index` are filled.

A builder takes the next slot of a `malloc`ed block and assigns only the
fields its kind of op uses; the other fields keep whatever the block
held. So a builder is a function of the slot it was handed, and
`OsTranOp.Built` collects what builders can leave in a slot, over every
earlier content of it.
-/
import CephInC.Os.Types

namespace CephInC

open Lib

/-- `cceph_os_tran_op`. -/
structure OsTranOp where
  logId : Int64
  op : OsOp
  cid : OsCollId
  oid : Option CString
  offset : Int64
  length : Int64
  data : Option (List UInt8)
  map : Option (BinTree OsMapNode)
  deriving DecidableEq

/-- `cceph_os_tran`. -/
structure OsTran where
  opBuffer : List OsTranOp
  opBufferLength : Int32
  opBufferIndex : Int32

/-- `cceph_os_tran_get_op_count`. -/
def osTranGetOpCount (tran : OsTran) : Int32 := tran.opBufferIndex

/-- `cceph_os_tran_get_op`: NULL past the filled slots. A slot past the
block is read outside it. -/
def osTranGetOp (tran : OsTran) (index : Nat) :
    Except Fault (Option OsTranOp) :=
  if (index : Int) ≥ tran.opBufferIndex.toInt then .ok none
  else
    match tran.opBuffer[index]? with
    | some op => .ok (some op)
    | none => .error .outOfBounds

/-- A transaction of one op; the unused slots of its block are left out. -/
def oneOp (op : OsTranOp) : OsTran := ⟨[op], 8, 1⟩

section
variable (slot : OsTranOp) (cid : OsCollId) (logId : Int64)

/-- What `cceph_os_tran_coll_create` leaves in its slot. -/
def osTranCollCreate : OsTranOp :=
  { slot with op := .collCreate, cid, logId }

/-- What `cceph_os_tran_coll_remove` leaves in its slot. -/
def osTranCollRemove : OsTranOp :=
  { slot with op := .collRemove, cid, logId }

/-- What `cceph_os_tran_coll_map` leaves in its slot. -/
def osTranCollMap (map : BinTree OsMapNode) : OsTranOp :=
  { slot with op := .collMap, cid, map := some map, logId }

/-- What `cceph_os_tran_obj_touch` leaves in its slot. -/
def osTranObjTouch (oid : CString) : OsTranOp :=
  { slot with op := .objTouch, cid, oid := some oid, logId }

/-- What `cceph_os_tran_obj_write` leaves in its slot. -/
def osTranObjWrite (oid : CString) (offset length : Int64)
    (data : Option (List UInt8)) : OsTranOp :=
  { slot with op := .objWrite, cid, oid := some oid, offset, length, data,
              logId }

/-- What `cceph_os_tran_obj_map` leaves in its slot. -/
def osTranObjMap (oid : CString) (map : BinTree OsMapNode) : OsTranOp :=
  { slot with op := .objMap, cid, oid := some oid, map := some map, logId }

/-- What `cceph_os_tran_obj_remove` leaves in its slot. -/
def osTranObjRemove (oid : CString) : OsTranOp :=
  { slot with op := .objRemove, cid, oid := some oid, logId }

end

end CephInC
