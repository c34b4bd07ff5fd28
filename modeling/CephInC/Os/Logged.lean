/-
`os/mem_store.c` with the LOG lines that print a name.

`MemStore.lean` has its functions without LOG. Here are those whose lines
print the name of an object or a key, with these lines, `say` being what
becomes of a line: `log` makes of them the functions of the source, and
`silent` those of `MemStore.lean`, line by line.

An op prints its own log id, at the head of the line stands that of the
call. The line for a search of `cceph_mem_store_do_op_obj_write` that
fails with any other code is never reached.
-/
import CephInC.Common.Log
import CephInC.Os.MemStore

namespace CephInC

open Lib

/-- No LOG. -/
def silent : LogLine → Except Fault Unit := fun _ => .ok ()

-- ============================================================== the lines

section
variable (logId : Int64)

def storeLine (line : Nat) (text : List UInt8) : LogLine :=
  ⟨logId, "os/mem_store.c", line, text⟩

/-- What stands before the name and behind it, as an op or a read logs
itself. -/
def objectText (what : String) (cid : OsCollId) (oid : CString) : List UInt8 :=
  ascii what ++ ascii ", cid " ++ decimal cid.toInt ++ ascii ", oid " ++ oid.bytes

/-- Where the bytes are. -/
def rangeText (offset length : Int64) : List UInt8 :=
  ascii ", offset " ++ decimal offset.toInt ++ ascii ", length " ++ decimal length.toInt

def logIdText (id : Int64) : List UInt8 := ascii ", log_id " ++ decimal id.toInt ++ ascii "."

/-- A search that fails. -/
def failedText (what : String) (name : CString) (how : String) (ret : Int) : List UInt8 :=
  ascii what ++ name.bytes ++ ascii how ++ ascii ", errno " ++ decimal ret ++ ascii "("
    ++ ascii (errnoStr ret) ++ ascii ")."

/-- The name of an op that has one. -/
def OsTranOp.shown (op : OsTranOp) : CString := op.oid.getD ⟨[], noNul_nil⟩

def objWriteLine (op : OsTranOp) : LogLine :=
  storeLine logId 298 (objectText "Execute write op" op.cid op.shown
    ++ rangeText op.offset op.length ++ logIdText op.logId)

def objRemoveLine (op : OsTranOp) : LogLine :=
  storeLine logId 376 (objectText "Execute remove op" op.cid op.shown ++ logIdText op.logId)

def objMapLine (op : OsTranOp) : LogLine :=
  storeLine logId 413 (objectText "Execute ObjectMap op" op.cid op.shown ++ logIdText op.logId)

/-- The line with a name that an op says before it does anything. -/
def OsTranOp.line (op : OsTranOp) : Option LogLine :=
  match op.op with
  | .objTouch => some (objWriteLine logId { op with length := 0 })
  | .objWrite => some (objWriteLine logId op)
  | .objRemove => some (objRemoveLine logId op)
  | .objMap => some (objMapLine logId op)
  | _ => none

def readObjLine (cid : OsCollId) (oid : CString) (offset length : Int64) : LogLine :=
  storeLine logId 546 (objectText "Execute read op" cid oid ++ rangeText offset length
    ++ logIdText logId)

def readObjFailedLine (oid : CString) (ret : Int) : LogLine :=
  storeLine logId 561 (failedText "Execute read op failed, search oid " oid " failed" ret)

def readCollMapKeyFailedLine (key : CString) (ret : Int) : LogLine :=
  storeLine logId 727 (failedText "Execute ReadCollectionMapKey failed, key " key " not found"
    ret)

def readObjMapLine (cid : OsCollId) (oid : CString) : LogLine :=
  storeLine logId 763 (objectText "Execute ReadObjectMap op" cid oid ++ logIdText logId)

def readObjMapFailedLine (oid : CString) (ret : Int) : LogLine :=
  storeLine logId 778 (failedText "Execute ReadObjectMap failed, search oid " oid " failed" ret)

def readObjMapKeyLine (cid : OsCollId) (oid : CString) : LogLine :=
  storeLine logId 809 (objectText "Execute ReadObjectMapKey op" cid oid ++ logIdText logId)

def readObjMapKeyFailedLine (oid : CString) (ret : Int) : LogLine :=
  storeLine logId 824 (failedText "Execute ReadObjectMapKey failed, search oid " oid " failed"
    ret)

def readObjMapKeyNotFoundLine (key : CString) (ret : Int) : LogLine :=
  storeLine logId 833 (failedText "Execute ReadObjectMapKey failed, key " key " not found" ret)

end

-- ================================================================ the ops

section
variable (say : LogLine → Except Fault Unit) (logId : Int64)

/-- `cceph_mem_store_do_op_obj_write`. -/
def memStoreDoOpObjWriteLogged (colls : BinTree MemStoreCollNode) (op : OsTranOp) :
    Prog Allocs (Int × BinTree MemStoreCollNode) := do
  assert (op.cid ≥ 0)
  assert (op.oid.isSome)
  assert (op.offset ≥ 0)
  assert (op.length ≥ 0)
  if op.length > 0 then assert (op.data.isSome)
  lift (say (objWriteLine logId op))
  memStoreObjWriteBody colls op

/-- `cceph_mem_store_do_op_obj_remove`. -/
def memStoreDoOpObjRemoveLogged (colls : BinTree MemStoreCollNode) (op : OsTranOp) :
    Prog Allocs (Int × BinTree MemStoreCollNode) := do
  assert (op.cid ≥ 0)
  assert (op.oid.isSome)
  lift (say (objRemoveLine logId op))
  let oid ← deref op.oid
  let (ret, cnode) := memStoreCollNodeMapSearch colls op.cid
  if ret ≠ CCEPH_OK then
    return (CCEPH_ERR_COLL_NOT_EXIST, colls)
  let cnode ← deref cnode
  let (ret, onode) := memStoreObjectNodeMapSearch cnode.data.objects oid
  if ret ≠ CCEPH_OK then
    return (CCEPH_ERR_OBJECT_NOT_EXIST, colls)
  let onode ← deref onode
  let (_, objects) ← lift (memStoreObjectNodeMapRemove onode)
  return (CCEPH_OK, setObjects cnode objects)

/-- `cceph_mem_store_do_op_obj_map`. -/
def memStoreDoOpObjMapLogged (colls : BinTree MemStoreCollNode) (op : OsTranOp) :
    Prog Allocs (Int × BinTree MemStoreCollNode) := do
  assert (op.cid ≥ 0)
  assert (op.oid.isSome)
  assert (op.map.isSome)
  lift (say (objMapLine logId op))
  let oid ← deref op.oid
  let map ← deref op.map
  let (ret, cnode) := memStoreCollNodeMapSearch colls op.cid
  if ret ≠ CCEPH_OK then
    return (ret, colls)
  let cnode ← deref cnode
  let (ret, onode) := memStoreObjectNodeMapSearch cnode.data.objects oid
  if ret ≠ CCEPH_OK then
    return (ret, colls)
  let onode ← deref onode
  let (ret, map) ← osMapUpdate onode.data.map map
  return (ret, setObjects cnode (onode.setData { onode.data with map }).root)

/-- `cceph_mem_store_do_op`. -/
def memStoreDoOpLogged (colls : BinTree MemStoreCollNode) (op : Option OsTranOp) :
    Prog Allocs (Int × BinTree MemStoreCollNode) := do
  assert (op.isSome)
  let op ← deref op
  match op.op with
  | .noop => return (CCEPH_OK, colls)
  | .collCreate => memStoreDoOpCollCreate colls op
  | .collRemove => memStoreDoOpCollRemove colls op
  | .collMap => memStoreDoOpCollMap colls op
  | .objTouch => memStoreDoOpObjWriteLogged say logId colls { op with length := 0 }
  | .objWrite => memStoreDoOpObjWriteLogged say logId colls op
  | .objRemove => memStoreDoOpObjRemoveLogged say logId colls op
  | .objMap => memStoreDoOpObjMapLogged say logId colls op
  | .unknown => return (CCEPH_ERR_UNKNOWN_OS_OP, colls)

/-- The loop of `cceph_mem_store_submit_tran`. -/
def memStoreSubmitTranLoopLogged (tran : OsTran) :
    (left i : Nat) → MemStore → Prog Allocs (Int × MemStore)
  | 0, _, store => return (CCEPH_OK, store)
  | left + 1, i, store => do
      let op ← lift (osTranGetOp tran i)
      let colls ← memStoreColls store
      let (ret, colls) ← memStoreDoOpLogged say logId colls op
      let store := { store with colls }
      if ret ≠ CCEPH_OK then
        return (ret, store)
      memStoreSubmitTranLoopLogged tran left (i + 1) store

/-- `cceph_mem_store_submit_tran`. -/
def memStoreSubmitTranLogged (store : MemStore) (tran : OsTran) :
    Prog Allocs (Int × MemStore) := do
  let opCount := osTranGetOpCount tran
  let store ← pthreadMutexLock store
  let (ret, store) ← memStoreSubmitTranLoopLogged say logId tran opCount.toInt.toNat 0 store
  let store ← pthreadMutexUnlock store
  return (ret, store)

/-- The lines of the ops that a transaction hands out fit. -/
def OsTran.LinesFit (logId : Int64) (tran : OsTran) : Prop :=
  ∀ i op, osTranGetOp tran i = .ok (some op) → ∀ l ∈ op.line logId, l.Fits

-- ============================================================== the reads

/-- `cceph_mem_store_read_obj`. -/
def memStoreReadObjLogged (store : MemStore) (cid : OsCollId) (oid : CString)
    (offset length : Int64) :
    Prog Allocs (Int × Option Int64 × Option (List UInt8) × MemStore) := do
  assert (offset ≥ 0)
  let store ← pthreadMutexLock store
  lift (say (readObjLine logId cid oid offset length))
  let colls ← memStoreColls store
  let (ret, cnode) := memStoreCollNodeMapSearch colls cid
  if ret ≠ CCEPH_OK then
    return (CCEPH_ERR_COLL_NOT_EXIST, none, none, ← pthreadMutexUnlock store)
  let cnode ← deref cnode
  let (ret, onode) := memStoreObjectNodeMapSearch cnode.data.objects oid
  if ret ≠ CCEPH_OK then
    lift (say (readObjFailedLine logId oid ret))
    return (CCEPH_ERR_OBJECT_NOT_EXIST, none, none,
      ← pthreadMutexUnlock store)
  let onode ← deref onode
  if onode.data.length = 0 ∨ onode.data.length ≤ offset then
    return (CCEPH_OK, some 0, none, ← pthreadMutexUnlock store)
  let readLength := memStoreReadLength onode.data.length offset length
  let size := sizeT readLength.toInt
  if !(← malloc size) then
    return (CCEPH_ERR_NO_ENOUGH_MEM, none, none, ← pthreadMutexUnlock store)
  let source := onode.data.data.map (List.drop (sizeT offset.toInt))
  let block ← memcpy (List.replicate size 0) 0 source size
  return (CCEPH_OK, some readLength.toInt64, some block,
    ← pthreadMutexUnlock store)

/-- `cceph_mem_store_read_coll_map_key`. -/
def memStoreReadCollMapKeyLogged (store : MemStore) (cid : OsCollId) (key : CString) :
    Prog Allocs (Int × Option Int32 × Option (List UInt8) × MemStore) := do
  let store ← pthreadMutexLock store
  let colls ← memStoreColls store
  let (ret, cnode) := memStoreCollNodeMapSearch colls cid
  if ret ≠ CCEPH_OK then
    return (CCEPH_ERR_COLL_NOT_EXIST, none, none, ← pthreadMutexUnlock store)
  let cnode ← deref cnode
  let (ret, mapNode) := osMapNodeSearch cnode.data.map key
  if ret ≠ CCEPH_OK then
    lift (say (readCollMapKeyFailedLine logId key ret))
    return (ret, none, none, ← pthreadMutexUnlock store)
  let mapNode ← deref mapNode
  let (ret, length, value) ← memStoreCopyValue mapNode.data
  return (ret, length, value, ← pthreadMutexUnlock store)

/-- `cceph_mem_store_read_obj_map`. -/
def memStoreReadObjMapLogged (store : MemStore) (cid : OsCollId) (oid : CString)
    (map : BinTree OsMapNode) :
    Prog Allocs (Int × BinTree OsMapNode × MemStore) := do
  let store ← pthreadMutexLock store
  lift (say (readObjMapLine logId cid oid))
  let colls ← memStoreColls store
  let (ret, cnode) := memStoreCollNodeMapSearch colls cid
  if ret ≠ CCEPH_OK then
    return (ret, map, ← pthreadMutexUnlock store)
  let cnode ← deref cnode
  let (ret, onode) := memStoreObjectNodeMapSearch cnode.data.objects oid
  if ret ≠ CCEPH_OK then
    lift (say (readObjMapFailedLine logId oid ret))
    return (ret, map, ← pthreadMutexUnlock store)
  let onode ← deref onode
  let (ret, map) ← osMapUpdate map onode.data.map
  assert (ret = CCEPH_OK)
  return (ret, map, ← pthreadMutexUnlock store)

/-- `cceph_mem_store_read_obj_map_key`. -/
def memStoreReadObjMapKeyLogged (store : MemStore) (cid : OsCollId) (oid key : CString) :
    Prog Allocs (Int × Option Int32 × Option (List UInt8) × MemStore) := do
  let store ← pthreadMutexLock store
  lift (say (readObjMapKeyLine logId cid oid))
  let colls ← memStoreColls store
  let (ret, cnode) := memStoreCollNodeMapSearch colls cid
  if ret ≠ CCEPH_OK then
    return (CCEPH_ERR_COLL_NOT_EXIST, none, none, ← pthreadMutexUnlock store)
  let cnode ← deref cnode
  let (ret, onode) := memStoreObjectNodeMapSearch cnode.data.objects oid
  if ret ≠ CCEPH_OK then
    lift (say (readObjMapKeyFailedLine logId oid ret))
    return (ret, none, none, ← pthreadMutexUnlock store)
  let onode ← deref onode
  let (ret, mapNode) := osMapNodeSearch onode.data.map key
  if ret ≠ CCEPH_OK then
    lift (say (readObjMapKeyNotFoundLine logId key ret))
    return (ret, none, none, ← pthreadMutexUnlock store)
  let mapNode ← deref mapNode
  let (ret, length, value) ← memStoreCopyValue mapNode.data
  return (ret, length, value, ← pthreadMutexUnlock store)

end

-- ============================================================ without LOG

section
variable (logId : Int64) (store : MemStore) (cid : OsCollId) (oid key : CString)

theorem memStoreDoOpLogged_silent (colls : BinTree MemStoreCollNode) (op : Option OsTranOp) :
    memStoreDoOpLogged silent logId colls op = memStoreDoOp colls op := rfl

theorem memStoreSubmitTranLoopLogged_silent (tran : OsTran) (left : Nat) :
    ∀ (i : Nat) (store : MemStore), memStoreSubmitTranLoopLogged silent logId tran left i store
      = memStoreSubmitTranLoop tran left i store := by
  induction left with
  | zero => exact fun i store => rfl
  | succ left ih =>
      intro i store
      unfold memStoreSubmitTranLoopLogged memStoreSubmitTranLoop
      simp only [memStoreDoOpLogged_silent, ih]

theorem memStoreSubmitTranLogged_silent (tran : OsTran) :
    memStoreSubmitTranLogged silent logId store tran = memStoreSubmitTran store tran := by
  unfold memStoreSubmitTranLogged memStoreSubmitTran
  simp only [memStoreSubmitTranLoopLogged_silent]

theorem memStoreReadObjLogged_silent (offset length : Int64) :
    memStoreReadObjLogged silent logId store cid oid offset length
      = memStoreReadObj store cid oid offset length := rfl

theorem memStoreReadCollMapKeyLogged_silent :
    memStoreReadCollMapKeyLogged silent logId store cid key
      = memStoreReadCollMapKey store cid key := rfl

theorem memStoreReadObjMapLogged_silent (map : BinTree OsMapNode) :
    memStoreReadObjMapLogged silent logId store cid oid map
      = memStoreReadObjMap store cid oid map := rfl

theorem memStoreReadObjMapKeyLogged_silent :
    memStoreReadObjMapKeyLogged silent logId store cid oid key
      = memStoreReadObjMapKey store cid oid key := rfl

end

end CephInC
