/-
`os/transaction.c`: the builders, with the block of slots they fill.

`malloc` returns a block with anything in it. `Junk` is what the blocks
of a run hold at first; a transaction never asks twice for a block of
one length, so that the length and the slot name a content.
-/
import CephInC.Os.MemStore

namespace CephInC

open Lib

/-- What a block of so many slots holds in each of them at first. -/
abbrev Junk := Int32 → Nat → OsTranOp

def CCEPH_OS_TRAN_OP_LIST_SIZE : Int32 := 8

def sizeofOsTran : Nat := 16
def sizeofOsTranOp : Nat := 56

section
variable (junk : Junk)

/-- A block of `length` slots as `malloc` returns it. -/
def osTranOpBlock (length : Int32) : List OsTranOp :=
  (List.range length.toInt.toNat).map (junk length)

/-- `cceph_os_tran_new`: the return code and `*tran`. -/
def osTranNew : Prog Allocs (Int × Option OsTran) := do
  if !(← malloc sizeofOsTran) then
    return (CCEPH_ERR_NO_ENOUGH_MEM, none)
  if !(← malloc (sizeT (sizeofOsTranOp * CCEPH_OS_TRAN_OP_LIST_SIZE.toInt))) then
    return (CCEPH_ERR_NO_ENOUGH_MEM, none)
  return (CCEPH_OK, some ⟨osTranOpBlock junk CCEPH_OS_TRAN_OP_LIST_SIZE,
    CCEPH_OS_TRAN_OP_LIST_SIZE, 0⟩)

/-- `cceph_os_tran_check_op_buffer_size`. The new length stays even if
there is no block of that length. -/
def osTranCheckOpBufferSize (tran : OsTran) : Prog Allocs (Int × OsTran) := do
  assert (tran.opBufferIndex ≤ tran.opBufferLength)
  if tran.opBufferIndex < tran.opBufferLength then
    return (CCEPH_OK, tran)
  assert (tran.opBufferIndex = tran.opBufferLength)
  let oldLength := tran.opBufferLength
  let length := oldLength + CCEPH_OS_TRAN_OP_LIST_SIZE
  if !(← malloc (sizeT (sizeofOsTranOp * length.toInt))) then
    return (CCEPH_ERR_NO_ENOUGH_MEM, { tran with opBufferLength := length })
  if tran.opBuffer.length < oldLength.toInt.toNat then
    fault .outOfBounds
  return (CCEPH_OK, { tran with
    opBufferLength := length
    opBuffer := tran.opBuffer.take oldLength.toInt.toNat
      ++ (osTranOpBlock junk length).drop oldLength.toInt.toNat })

/-- `cceph_os_tran_new_op`, and what its caller then assigns in the slot. -/
def osTranNewOp (tran : OsTran) (fill : OsTranOp → OsTranOp) :
    Prog Allocs (Int × OsTran) := do
  let (ret, tran) ← osTranCheckOpBufferSize junk tran
  if ret ≠ CCEPH_OK then
    return (ret, tran)
  let index := tran.opBufferIndex.toInt.toNat
  match tran.opBuffer[index]? with
  | none => fault .outOfBounds
  | some slot => return (CCEPH_OK, { tran with
      opBuffer := tran.opBuffer.set index (fill slot)
      opBufferIndex := tran.opBufferIndex + 1 })

end

/-- A call of one of the builders, with its arguments. -/
inductive TranCall where
  | collCreate (cid : OsCollId) (logId : Int64)
  | collRemove (cid : OsCollId) (logId : Int64)
  | collMap (cid : OsCollId) (map : Option (BinTree OsMapNode)) (logId : Int64)
  | objTouch (cid : OsCollId) (oid : Option CString) (logId : Int64)
  | objWrite (cid : OsCollId) (oid : Option CString) (offset length : Int64)
      (data : Option (List UInt8)) (logId : Int64)
  | objMap (cid : OsCollId) (oid : Option CString) (map : Option (BinTree OsMapNode))
      (logId : Int64)
  | objRemove (cid : OsCollId) (oid : Option CString) (logId : Int64)

/-- What the builder's assertions ask of its arguments. -/
def TranCall.accepted : TranCall → Bool
  | .collCreate cid _ | .collRemove cid _ => cid ≥ 0
  | .collMap _ map _ => map.isSome
  | .objTouch _ oid _ | .objRemove _ oid _ => oid.isSome
  | .objWrite _ oid offset length data _ =>
      oid.isSome ∧ offset ≥ 0 ∧ length ≥ 0 ∧ (length > 0 → data.isSome)
  | .objMap _ oid map _ => oid.isSome ∧ map.isSome

/-- What the builder leaves in its slot; the pointers are not NULL. -/
def TranCall.fill (slot : OsTranOp) : TranCall → OsTranOp
  | .collCreate cid logId => osTranCollCreate slot cid logId
  | .collRemove cid logId => osTranCollRemove slot cid logId
  | .collMap cid map logId => osTranCollMap slot cid logId (map.getD .nil)
  | .objTouch cid oid logId => osTranObjTouch slot cid logId (oid.getD ⟨[], noNul_nil⟩)
  | .objWrite cid oid offset length data logId =>
      osTranObjWrite slot cid logId (oid.getD ⟨[], noNul_nil⟩) offset length data
  | .objMap cid oid map logId =>
      osTranObjMap slot cid logId (oid.getD ⟨[], noNul_nil⟩) (map.getD .nil)
  | .objRemove cid oid logId => osTranObjRemove slot cid logId (oid.getD ⟨[], noNul_nil⟩)

section
variable (junk : Junk)

/-- A builder. -/
def osTranCall (tran : OsTran) (call : TranCall) : Prog Allocs (Int × OsTran) := do
  assert call.accepted
  osTranNewOp junk tran fun slot => call.fill slot

/-- Builder after builder: the return codes, and the transaction. -/
def osTranCalls : OsTran → List TranCall → Prog Allocs (List Int × OsTran)
  | tran, [] => return ([], tran)
  | tran, call :: calls => do
      let (ret, tran) ← osTranCall junk tran call
      let (rets, tran) ← osTranCalls tran calls
      return (ret :: rets, tran)

/-- A new transaction after these calls. -/
def osTranBuild (calls : List TranCall) : Prog Allocs (List Int × OsTran) := do
  let (_, tran) ← osTranNew junk
  -- every builder asserts that there is a transaction
  assert tran.isSome
  let tran ← deref tran
  osTranCalls junk tran calls

end

/-- Blocks of zeros. -/
def junkZero : Junk := fun _ _ => ⟨0, .noop, 0, none, 0, 0, none, none⟩

end CephInC
