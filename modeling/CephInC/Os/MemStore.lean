/-
`os/mem_store.c`: collections of objects in nested trees, behind one
lock.

A function of the file that takes the lock is a `Prog Allocs` from the
store to a return code, its out parameters and the store it leaves.
Pointers its entry assertions require to be non-NULL, and whose targets
only the caller supplies, are plain values. `do_op` and its seven cases
run while `submit_tran` holds the lock and touch `os->colls` only, so
they are functions of that tree.

A node found by a search is a position in its tree; writing a field
through the pointer is `Loc.setData`. Freed blocks leave the model with
the last value that names them.
-/
import CephInC.Os.Transaction

namespace CephInC

open Lib

/-- `cceph_mem_store_object_node`. -/
structure MemStoreObjectNode where
  oid : CString
  data : Option (List UInt8)
  length : Int64
  map : BinTree OsMapNode
  deriving DecidableEq

/-- `cceph_mem_store_coll_node`. -/
structure MemStoreCollNode where
  cid : OsCollId
  objects : BinTree MemStoreObjectNode
  map : BinTree OsMapNode
  deriving DecidableEq

/-- `pthread_mutex_t`, with how often it was taken and given back. -/
structure Mutex where
  held : Bool
  acquired : Nat
  released : Nat
  deriving DecidableEq

/-- `cceph_mem_store`. -/
structure MemStore where
  colls : BinTree MemStoreCollNode
  lock : Mutex
  deriving DecidableEq

/-- Sizes of the structures and entries the store allocates. -/
def sizeofMemStoreCollNode : Nat := 48
def sizeofMemStoreObjectNode : Nat := 56
def sizeofMemStore : Nat := 48
def sizeofOsCollId : Nat := 4

/-- `pthread_mutex_init`. -/
def pthreadMutexInit : Mutex := ⟨false, 0, 0⟩

section
variable {σ : Type}

/-- `pthread_mutex_lock(&mem_store->lock)`. -/
def pthreadMutexLock (store : MemStore) : Prog σ MemStore :=
  if store.lock.held then fault .lockMisuse
  else pure { store with
    lock := ⟨true, store.lock.acquired + 1, store.lock.released⟩ }

/-- `pthread_mutex_unlock(&mem_store->lock)`. -/
def pthreadMutexUnlock (store : MemStore) : Prog σ MemStore :=
  if store.lock.held then pure { store with
    lock := ⟨false, store.lock.acquired, store.lock.released + 1⟩ }
  else fault .lockMisuse

/-- `&mem_store->colls`, which the lock guards. -/
def memStoreColls (store : MemStore) : Prog σ (BinTree MemStoreCollNode) :=
  if store.lock.held then pure store.colls else fault .lockMisuse

end

/-- `cceph_mem_store_new`: the return code and `*store`. -/
def memStoreNew : Prog Allocs (Int × Option MemStore) := do
  if !(← malloc sizeofMemStore) then
    return (CCEPH_ERR_NO_ENOUGH_MEM, none)
  return (CCEPH_OK, some ⟨.nil, pthreadMutexInit⟩)

-- ========================================================= the two maps

/-- `cceph_mem_store_coll_node_new`. -/
def memStoreCollNodeNew (cid : OsCollId) :
    Prog Allocs (Int × Option MemStoreCollNode) := do
  assert (cid ≥ 0)
  if !(← malloc sizeofMemStoreCollNode) then
    return (CCEPH_ERR_NO_ENOUGH_MEM, none)
  return (CCEPH_OK, some ⟨cid, .nil, .nil⟩)

/-- `cceph_mem_store_object_node_new`. -/
def memStoreObjectNodeNew (oid : CString) :
    Prog Allocs (Int × Option MemStoreObjectNode) := do
  if !(← malloc sizeofMemStoreObjectNode) then
    return (CCEPH_ERR_NO_ENOUGH_MEM, none)
  match ← copyString oid with
  | none => return (CCEPH_ERR_NO_ENOUGH_MEM, none)
  | some oid => return (CCEPH_OK, some ⟨oid, none, 0, .nil⟩)

/-- `CCEPH_IMPL_MAP(mem_store_coll_node, …, cid, cceph_os_coll_id_cmp)`. -/
def memStoreCollNodeMapSearch (root : BinTree MemStoreCollNode) (cid : OsCollId) :
    Int × Option (Loc MemStoreCollNode) :=
  implMapSearch osCollIdCmp MemStoreCollNode.cid root cid

def memStoreCollNodeMapInsert (root : BinTree MemStoreCollNode)
    (node : MemStoreCollNode) : Except Fault (Int × BinTree MemStoreCollNode) :=
  implMapInsert osCollIdCmp MemStoreCollNode.cid root node

def memStoreCollNodeMapRemove (node : Loc MemStoreCollNode) :
    Except Fault (Int × BinTree MemStoreCollNode) :=
  implMapRemove node

/-- `CCEPH_IMPL_MAP(mem_store_object_node, const char*, oid, strcmp)`. -/
def memStoreObjectNodeMapSearch (root : BinTree MemStoreObjectNode)
    (oid : CString) : Int × Option (Loc MemStoreObjectNode) :=
  implMapSearch strcmp MemStoreObjectNode.oid root oid

def memStoreObjectNodeMapInsert (root : BinTree MemStoreObjectNode)
    (node : MemStoreObjectNode) :
    Except Fault (Int × BinTree MemStoreObjectNode) :=
  implMapInsert strcmp MemStoreObjectNode.oid root node

def memStoreObjectNodeMapRemove (node : Loc MemStoreObjectNode) :
    Except Fault (Int × BinTree MemStoreObjectNode) :=
  implMapRemove node

/-- The collections after `cnode->objects` was changed. -/
def setObjects (cnode : Loc MemStoreCollNode)
    (objects : BinTree MemStoreObjectNode) : BinTree MemStoreCollNode :=
  (cnode.setData { cnode.data with objects }).root

/-- The collections after `cnode->map` was changed. -/
def setCollMap (cnode : Loc MemStoreCollNode) (map : BinTree OsMapNode) :
    BinTree MemStoreCollNode :=
  (cnode.setData { cnode.data with map }).root

-- ============================================================== the ops

/-- `LOG(…, "… errno %d(%s).", op->cid, ret, cceph_errno_str(ret))`: one
argument too many for the format, so that `%s` reads the code in `ret` as
a pointer. -/
def logCodeAsString {σ α : Type} : Prog σ α := fault .outOfBounds

/-- `cceph_mem_store_do_op_coll_create`. -/
def memStoreDoOpCollCreate (colls : BinTree MemStoreCollNode) (op : OsTranOp) :
    Prog Allocs (Int × BinTree MemStoreCollNode) := do
  assert (op.cid ≥ 0)
  let (ret, cnode) := memStoreCollNodeMapSearch colls op.cid
  if ret = CCEPH_OK then
    return (CCEPH_ERR_COLL_ALREADY_EXIST, colls)
  assert (cnode.isNone)
  let (ret, cnode) ← memStoreCollNodeNew op.cid
  if ret ≠ CCEPH_OK then
    return ← logCodeAsString
  let cnode ← deref cnode
  let (ret, colls) ← lift (memStoreCollNodeMapInsert colls cnode)
  if ret ≠ CCEPH_OK then
    return ← logCodeAsString
  return (CCEPH_OK, colls)

/-- `cceph_mem_store_do_op_coll_remove`. -/
def memStoreDoOpCollRemove (colls : BinTree MemStoreCollNode) (op : OsTranOp) :
    Prog Allocs (Int × BinTree MemStoreCollNode) := do
  assert (op.cid ≥ 0)
  let (ret, cnode) := memStoreCollNodeMapSearch colls op.cid
  if ret ≠ CCEPH_OK then
    return (CCEPH_ERR_COLL_NOT_EXIST, colls)
  let cnode ← deref cnode
  let (ret, colls) ← lift (memStoreCollNodeMapRemove cnode)
  if ret ≠ CCEPH_OK then
    return ← logCodeAsString
  return (CCEPH_OK, colls)

/-- `cceph_mem_store_do_op_coll_map`. -/
def memStoreDoOpCollMap (colls : BinTree MemStoreCollNode) (op : OsTranOp) :
    Prog Allocs (Int × BinTree MemStoreCollNode) := do
  assert (op.cid ≥ 0)
  assert (op.map.isSome)
  let map ← deref op.map
  let (ret, cnode) := memStoreCollNodeMapSearch colls op.cid
  if ret ≠ CCEPH_OK then
    return (ret, colls)
  let cnode ← deref cnode
  let (ret, map) ← osMapUpdate cnode.data.map map
  return (ret, setCollMap cnode map)

/-- The growth of `cceph_mem_store_do_op_obj_write`: where the object is
shorter than the end of the write, a zeroed block of the new length with
the old data at its start. -/
def memStoreObjectExpand (onode : MemStoreObjectNode) (newLength : Int64) :
    Prog Allocs (Int × MemStoreObjectNode) := do
  if onode.length < newLength then
    let size := sizeT newLength.toInt
    if !(← malloc size) then
      return (CCEPH_ERR_NO_ENOUGH_MEM, onode)
    let newData ← memcpy (List.replicate size 0) 0 onode.data
      (sizeT onode.length.toInt)
    return (CCEPH_OK,
      { onode with data := some newData, length := newLength })
  else
    return (CCEPH_OK, onode)

/-- The end of `cceph_mem_store_do_op_obj_write`, where `onode` is the
object: its data grows if it must, then takes the bytes. -/
def memStoreObjectWrite (onode : MemStoreObjectNode) (oid : CString)
    (op : OsTranOp) : Prog Allocs (Int × MemStoreObjectNode) := do
  -- is it a touch?
  if op.length = 0 then
    return (CCEPH_OK, onode)
  assert (strcmp oid onode.oid = 0)
  let (ret, onode) ← memStoreObjectExpand onode (op.offset + op.length)
  if ret ≠ CCEPH_OK then
    return (ret, onode)
  -- NULL has no byte to write to
  let data ← memcpy (onode.data.getD []) (sizeT op.offset.toInt) op.data
    (sizeT op.length.toInt)
  return (CCEPH_OK, { onode with data := some data })

/-- The middle of `cceph_mem_store_do_op_obj_write`: search the object,
create it if it is not there. The return code, the objects, and the
object's place among them. -/
def memStoreObjectOpen (objects : BinTree MemStoreObjectNode) (oid : CString) :
    Prog Allocs
      (Int × BinTree MemStoreObjectNode × Option (Loc MemStoreObjectNode)) := do
  let (ret, onode) := memStoreObjectNodeMapSearch objects oid
  if ret = CCEPH_ERR_MAP_NODE_NOT_EXIST then
    let (ret, onode) ← memStoreObjectNodeNew oid
    if ret ≠ CCEPH_OK then
      return (ret, objects, none)
    let onode ← deref onode
    let (ret, objects) ← lift (memStoreObjectNodeMapInsert objects onode)
    if ret ≠ CCEPH_OK then
      return (ret, objects, none)
    -- the pointer is the inserted node, wherever the tree now holds it
    return (CCEPH_OK, objects, (memStoreObjectNodeMapSearch objects oid).2)
  else
    return (ret, objects, onode)

/-- `cceph_mem_store_do_op_obj_write` past its assertions. -/
def memStoreObjWriteBody (colls : BinTree MemStoreCollNode) (op : OsTranOp) :
    Prog Allocs (Int × BinTree MemStoreCollNode) := do
  let oid ← deref op.oid
  let (ret, cnode) := memStoreCollNodeMapSearch colls op.cid
  if ret ≠ CCEPH_OK then
    return (CCEPH_ERR_COLL_NOT_EXIST, colls)
  let cnode ← deref cnode
  let (ret, objects, onode) ← memStoreObjectOpen cnode.data.objects oid
  if ret ≠ CCEPH_OK then
    return (ret, setObjects cnode objects)
  let onode ← deref onode
  let (ret, object) ← memStoreObjectWrite onode.data oid op
  return (ret, setObjects cnode (onode.setData object).root)

/-- `cceph_mem_store_do_op_obj_write`. -/
def memStoreDoOpObjWrite (colls : BinTree MemStoreCollNode) (op : OsTranOp) :
    Prog Allocs (Int × BinTree MemStoreCollNode) := do
  assert (op.cid ≥ 0)
  assert (op.oid.isSome)
  assert (op.offset ≥ 0)
  assert (op.length ≥ 0)
  -- a touch may come without data
  if op.length > 0 then assert (op.data.isSome)
  memStoreObjWriteBody colls op

/-- `cceph_mem_store_do_op_obj_remove`. -/
def memStoreDoOpObjRemove (colls : BinTree MemStoreCollNode) (op : OsTranOp) :
    Prog Allocs (Int × BinTree MemStoreCollNode) := do
  assert (op.cid ≥ 0)
  assert (op.oid.isSome)
  let oid ← deref op.oid
  let (ret, cnode) := memStoreCollNodeMapSearch colls op.cid
  if ret ≠ CCEPH_OK then
    return (CCEPH_ERR_COLL_NOT_EXIST, colls)
  let cnode ← deref cnode
  let (ret, onode) := memStoreObjectNodeMapSearch cnode.data.objects oid
  if ret ≠ CCEPH_OK then
    return (CCEPH_ERR_OBJECT_NOT_EXIST, colls)
  let onode ← deref onode
  -- the code of the removal is not looked at
  let (_, objects) ← lift (memStoreObjectNodeMapRemove onode)
  return (CCEPH_OK, setObjects cnode objects)

/-- `cceph_mem_store_do_op_obj_map`. -/
def memStoreDoOpObjMap (colls : BinTree MemStoreCollNode) (op : OsTranOp) :
    Prog Allocs (Int × BinTree MemStoreCollNode) := do
  assert (op.cid ≥ 0)
  assert (op.oid.isSome)
  assert (op.map.isSome)
  let oid ← deref op.oid
  let map ← deref op.map
  let (ret, cnode) := memStoreCollNodeMapSearch colls op.cid
  if ret ≠ CCEPH_OK then
    return (ret, colls)
  let cnode ← deref cnode
  let (ret, onode) := memStoreObjectNodeMapSearch cnode.data.objects oid
  if ret ≠ CCEPH_OK then
    return (ret, colls)
  let onode ← deref onode
  let (ret, map) ← osMapUpdate onode.data.map map
  return (ret, setObjects cnode (onode.setData { onode.data with map }).root)

/-- `cceph_mem_store_do_op`. -/
def memStoreDoOp (colls : BinTree MemStoreCollNode) (op : Option OsTranOp) :
    Prog Allocs (Int × BinTree MemStoreCollNode) := do
  assert (op.isSome)
  let op ← deref op
  match op.op with
  | .noop => return (CCEPH_OK, colls)
  | .collCreate => memStoreDoOpCollCreate colls op
  | .collRemove => memStoreDoOpCollRemove colls op
  | .collMap => memStoreDoOpCollMap colls op
  -- length 0 means touch
  | .objTouch => memStoreDoOpObjWrite colls { op with length := 0 }
  | .objWrite => memStoreDoOpObjWrite colls op
  | .objRemove => memStoreDoOpObjRemove colls op
  | .objMap => memStoreDoOpObjMap colls op
  | .unknown => return (CCEPH_ERR_UNKNOWN_OS_OP, colls)

/-- The loop of `cceph_mem_store_submit_tran` from op `i`, `left` ops
before its end. -/
def memStoreSubmitTranLoop (tran : OsTran) :
    (left i : Nat) → MemStore → Prog Allocs (Int × MemStore)
  | 0, _, store => return (CCEPH_OK, store)
  | left + 1, i, store => do
      let op ← lift (osTranGetOp tran i)
      let colls ← memStoreColls store
      let (ret, colls) ← memStoreDoOp colls op
      let store := { store with colls }
      if ret ≠ CCEPH_OK then
        return (ret, store)
      memStoreSubmitTranLoop tran left (i + 1) store

/-- `cceph_mem_store_submit_tran`. -/
def memStoreSubmitTran (store : MemStore) (tran : OsTran) :
    Prog Allocs (Int × MemStore) := do
  let opCount := osTranGetOpCount tran
  let store ← pthreadMutexLock store
  let (ret, store) ← memStoreSubmitTranLoop tran opCount.toInt.toNat 0 store
  let store ← pthreadMutexUnlock store
  return (ret, store)

-- ============================================================ the reads

/-- The `int read_length` of `cceph_mem_store_read_obj`, for an object of
`total` bytes. -/
def memStoreReadLength (total offset length : Int64) : Int32 :=
  let readLength := length.toInt32
  let readLength := if readLength ≤ 0 then total.toInt32 else readLength
  if readLength.toInt64 > total - offset then (total - offset).toInt32
  else readLength

/-- `cceph_mem_store_read_obj`: the return code, `*result_length` and
`*result_data` where they are assigned, and the store. -/
def memStoreReadObj (store : MemStore) (cid : OsCollId) (oid : CString)
    (offset length : Int64) :
    Prog Allocs (Int × Option Int64 × Option (List UInt8) × MemStore) := do
  assert (offset ≥ 0)
  let store ← pthreadMutexLock store
  let colls ← memStoreColls store
  let (ret, cnode) := memStoreCollNodeMapSearch colls cid
  if ret ≠ CCEPH_OK then
    return (CCEPH_ERR_COLL_NOT_EXIST, none, none, ← pthreadMutexUnlock store)
  let cnode ← deref cnode
  let (ret, onode) := memStoreObjectNodeMapSearch cnode.data.objects oid
  if ret ≠ CCEPH_OK then
    return (CCEPH_ERR_OBJECT_NOT_EXIST, none, none,
      ← pthreadMutexUnlock store)
  let onode ← deref onode
  if onode.data.length = 0 ∨ onode.data.length ≤ offset then
    return (CCEPH_OK, some 0, none, ← pthreadMutexUnlock store)
  let readLength := memStoreReadLength onode.data.length offset length
  let size := sizeT readLength.toInt
  if !(← malloc size) then
    return (CCEPH_ERR_NO_ENOUGH_MEM, none, none, ← pthreadMutexUnlock store)
  let source := onode.data.data.map (List.drop (sizeT offset.toInt))
  let block ← memcpy (List.replicate size 0) 0 source size
  return (CCEPH_OK, some readLength.toInt64, some block,
    ← pthreadMutexUnlock store)

/-- `cceph_mem_store_list_coll`: the return code, `*coll_id_list_length`
and `*coll_id_list`, and the store. -/
def memStoreListColl (store : MemStore) :
    Prog Allocs (Int × Option Int32 × Option (List OsCollId) × MemStore) := do
  let store ← pthreadMutexLock store
  let colls ← memStoreColls store
  let collCount : Int32 := Int32.ofNat (rbWalk colls).length
  let size := sizeT (sizeofOsCollId * collCount.toInt)
  if !(← malloc size) then
    return (CCEPH_ERR_NO_ENOUGH_MEM, none, none, ← pthreadMutexUnlock store)
  let list := (rbWalk colls).map MemStoreCollNode.cid
  -- one entry is written for each node of the second walk
  if size < sizeofOsCollId * list.length then
    fault .outOfBounds
  return (CCEPH_OK, some collCount, some list, ← pthreadMutexUnlock store)

/-- `cceph_mem_store_exist_coll`: the return code, `*is_existed`, and the
store. -/
def memStoreExistColl (store : MemStore) (cid : OsCollId) :
    Prog Allocs (Int × Int × MemStore) := do
  let store ← pthreadMutexLock store
  let colls ← memStoreColls store
  let (_, cnode) := memStoreCollNodeMapSearch colls cid
  let store ← pthreadMutexUnlock store
  return (CCEPH_OK, if cnode.isNone then 0 else 1, store)

/-- `cceph_mem_store_read_coll_map`: the return code, the caller's tree,
and the store. -/
def memStoreReadCollMap (store : MemStore) (cid : OsCollId)
    (map : BinTree OsMapNode) :
    Prog Allocs (Int × BinTree OsMapNode × MemStore) := do
  let store ← pthreadMutexLock store
  let colls ← memStoreColls store
  let (ret, cnode) := memStoreCollNodeMapSearch colls cid
  if ret ≠ CCEPH_OK then
    return (CCEPH_ERR_COLL_NOT_EXIST, map, ← pthreadMutexUnlock store)
  let cnode ← deref cnode
  let (ret, map) ← osMapUpdate map cnode.data.map
  assert (ret = CCEPH_OK)
  return (ret, map, ← pthreadMutexUnlock store)

/-- The end of both key readers: a copy of the node's value. -/
def memStoreCopyValue (mapNode : OsMapNode) :
    Prog Allocs (Int × Option Int32 × Option (List UInt8)) := do
  let size := sizeT mapNode.valueLength.toInt
  if !(← malloc size) then
    return (CCEPH_ERR_NO_ENOUGH_MEM, none, none)
  let block ← memcpy (List.replicate size 0) 0 mapNode.value size
  return (CCEPH_OK, some mapNode.valueLength, some block)

/-- `cceph_mem_store_read_coll_map_key`: the return code,
`*result_value_length` and `*result_value`, and the store. -/
def memStoreReadCollMapKey (store : MemStore) (cid : OsCollId)
    (key : CString) :
    Prog Allocs (Int × Option Int32 × Option (List UInt8) × MemStore) := do
  let store ← pthreadMutexLock store
  let colls ← memStoreColls store
  let (ret, cnode) := memStoreCollNodeMapSearch colls cid
  if ret ≠ CCEPH_OK then
    return (CCEPH_ERR_COLL_NOT_EXIST, none, none, ← pthreadMutexUnlock store)
  let cnode ← deref cnode
  let (ret, mapNode) := osMapNodeSearch cnode.data.map key
  if ret ≠ CCEPH_OK then
    return (ret, none, none, ← pthreadMutexUnlock store)
  let mapNode ← deref mapNode
  let (ret, length, value) ← memStoreCopyValue mapNode.data
  return (ret, length, value, ← pthreadMutexUnlock store)

/-- `cceph_mem_store_read_obj_map`: the return code, the caller's tree,
and the store. A missing collection or object is reported as the search
reports it. -/
def memStoreReadObjMap (store : MemStore) (cid : OsCollId) (oid : CString)
    (map : BinTree OsMapNode) :
    Prog Allocs (Int × BinTree OsMapNode × MemStore) := do
  let store ← pthreadMutexLock store
  let colls ← memStoreColls store
  let (ret, cnode) := memStoreCollNodeMapSearch colls cid
  if ret ≠ CCEPH_OK then
    return (ret, map, ← pthreadMutexUnlock store)
  let cnode ← deref cnode
  let (ret, onode) := memStoreObjectNodeMapSearch cnode.data.objects oid
  if ret ≠ CCEPH_OK then
    return (ret, map, ← pthreadMutexUnlock store)
  let onode ← deref onode
  let (ret, map) ← osMapUpdate map onode.data.map
  assert (ret = CCEPH_OK)
  return (ret, map, ← pthreadMutexUnlock store)

/-- `cceph_mem_store_read_obj_map_key`: as for the collection, but a
missing object is reported as the search reports it. -/
def memStoreReadObjMapKey (store : MemStore) (cid : OsCollId) (oid : CString)
    (key : CString) :
    Prog Allocs (Int × Option Int32 × Option (List UInt8) × MemStore) := do
  let store ← pthreadMutexLock store
  let colls ← memStoreColls store
  let (ret, cnode) := memStoreCollNodeMapSearch colls cid
  if ret ≠ CCEPH_OK then
    return (CCEPH_ERR_COLL_NOT_EXIST, none, none, ← pthreadMutexUnlock store)
  let cnode ← deref cnode
  let (ret, onode) := memStoreObjectNodeMapSearch cnode.data.objects oid
  if ret ≠ CCEPH_OK then
    return (ret, none, none, ← pthreadMutexUnlock store)
  let onode ← deref onode
  let (ret, mapNode) := osMapNodeSearch onode.data.map key
  if ret ≠ CCEPH_OK then
    return (ret, none, none, ← pthreadMutexUnlock store)
  let mapNode ← deref mapNode
  let (ret, length, value) ← memStoreCopyValue mapNode.data
  return (ret, length, value, ← pthreadMutexUnlock store)

end CephInC
