/-
What the block of slots of a transaction should be, call after call.

`TranOk` is what the three fields of a transaction promise each other.
`TranCall.HeldBy` says that a slot holds a call, field by field, and
`TranIsCalls` that a transaction is the list of its calls for those who
look at it: the count, the slots, and the submission, which
`memStoreRunOps` tells without a block.
-/
import CephInC.Os.Builders

namespace CephInC

open Lib

/-- `op_buffer_length` slots are in the block, and `op_buffer_index` of
them are filled. -/
structure TranOk (tran : OsTran) : Prop where
  length : tran.opBufferLength.toInt = tran.opBuffer.length
  nonneg : 0 ≤ tran.opBufferIndex.toInt
  inside : tran.opBufferIndex.toInt ≤ tran.opBufferLength.toInt

/-- After as many of the calls as one likes the block is in order, and no
slot outside it is handed out. -/
def BlockKept (junk : Junk) (tran : OsTran) (calls : List TranCall) (s : Allocs) : Prop :=
  ∀ done, done <+: calls →
    match osTranCalls junk tran done s with
    | .ok ((_, tran'), _) => TranOk tran'
    | .error e => e ≠ .outOfBounds

/-- Where `n` slots are filled one after the other, `blocks` times eight of
them are there: each further block of eight is granted, and its end has an
`int32_t`. -/
def GrowthGranted (n blocks : Nat) (s : Allocs) : Prop :=
  ∀ k, 8 * (blocks + k) < n → s.grant k = true ∧ 8 * (blocks + k + 1) < 2 ^ 31

/-- The calls up to the first that fails an assertion of its builder. -/
def acceptedCalls (calls : List TranCall) : List TranCall :=
  calls.takeWhile TranCall.accepted

-- ============================================================== the calls

/-- The slot holds the kind, the collection, the `log_id` and the
arguments of the call. -/
def TranCall.HeldBy (op : OsTranOp) : TranCall → Prop
  | .collCreate cid logId => op.op = .collCreate ∧ op.cid = cid ∧ op.logId = logId
  | .collRemove cid logId => op.op = .collRemove ∧ op.cid = cid ∧ op.logId = logId
  | .collMap cid map logId =>
      op.op = .collMap ∧ op.cid = cid ∧ op.logId = logId ∧ op.map = map
  | .objTouch cid oid logId =>
      op.op = .objTouch ∧ op.cid = cid ∧ op.logId = logId ∧ op.oid = oid
  | .objWrite cid oid offset length data logId =>
      op.op = .objWrite ∧ op.cid = cid ∧ op.logId = logId ∧ op.oid = oid
        ∧ op.offset = offset ∧ op.length = length ∧ op.data = data
  | .objMap cid oid map logId =>
      op.op = .objMap ∧ op.cid = cid ∧ op.logId = logId ∧ op.oid = oid ∧ op.map = map
  | .objRemove cid oid logId =>
      op.op = .objRemove ∧ op.cid = cid ∧ op.logId = logId ∧ op.oid = oid

/-- Op after op, up to the first that fails. -/
def memStoreRunOps : List OsTranOp → BinTree MemStoreCollNode →
    Prog Allocs (Int × BinTree MemStoreCollNode)
  | [], colls => return (CCEPH_OK, colls)
  | op :: ops, colls => do
      let (ret, colls) ← memStoreDoOp colls (some op)
      if ret ≠ CCEPH_OK then
        return (ret, colls)
      memStoreRunOps ops colls

/-- The transaction is the list of these calls: they are counted, each is
in its slot and none behind them, and a submission executes them in order,
with the lock held. -/
structure TranIsCalls (tran : OsTran) (calls : List TranCall) (ops : List OsTranOp) : Prop where
  count : (osTranGetOpCount tran).toInt = calls.length
  held : List.Forall₂ (fun call op => TranCall.HeldBy op call) calls ops
  slots : ∀ i, osTranGetOp tran i = .ok ops[i]?
  submit : ∀ store : MemStore, memStoreSubmitTran store tran = do
    let store ← pthreadMutexLock store
    let (ret, colls) ← memStoreRunOps ops store.colls
    let store ← pthreadMutexUnlock { store with colls }
    return (ret, store)

end CephInC
