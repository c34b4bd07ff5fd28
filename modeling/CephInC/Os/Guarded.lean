/-
The eight calls of `os/mem_store.c` that take the store lock, with every
access they make to the store's trees marked.

`touch` is called at each of them: a search, a read of a field of a node
it found, a walk, an op of a transaction. With `untouched` the calls are
the functions themselves; with `guarded` an access made while the lock is
not held ends the run, so that the accesses of a call all lie between its
lock and its unlock if the two agree.
-/
import CephInC.Os.MemStore

namespace CephInC

open Lib

section
variable (touch : MemStore → Prog Allocs Unit)

-- ======================================================= the transaction

def memStoreSubmitTranLoopWith (tran : OsTran) :
    (left i : Nat) → MemStore → Prog Allocs (Int × MemStore)
  | 0, _, store => return (CCEPH_OK, store)
  | left + 1, i, store => do
      let op ← lift (osTranGetOp tran i)
      let colls ← memStoreColls store
      touch store
      let (ret, colls) ← memStoreDoOp colls op
      let store := { store with colls }
      if ret ≠ CCEPH_OK then
        return (ret, store)
      memStoreSubmitTranLoopWith tran left (i + 1) store

def memStoreSubmitTranWith (store : MemStore) (tran : OsTran) :
    Prog Allocs (Int × MemStore) := do
  let opCount := osTranGetOpCount tran
  let store ← pthreadMutexLock store
  let (ret, store) ← memStoreSubmitTranLoopWith touch tran opCount.toInt.toNat 0 store
  let store ← pthreadMutexUnlock store
  return (ret, store)

-- ============================================================ the reads

def memStoreReadObjWith (store : MemStore) (cid : OsCollId) (oid : CString)
    (offset length : Int64) :
    Prog Allocs (Int × Option Int64 × Option (List UInt8) × MemStore) := do
  assert (offset ≥ 0)
  let store ← pthreadMutexLock store
  let colls ← memStoreColls store
  touch store
  let (ret, cnode) := memStoreCollNodeMapSearch colls cid
  if ret ≠ CCEPH_OK then
    return (CCEPH_ERR_COLL_NOT_EXIST, none, none, ← pthreadMutexUnlock store)
  let cnode ← deref cnode
  touch store
  let (ret, onode) := memStoreObjectNodeMapSearch cnode.data.objects oid
  if ret ≠ CCEPH_OK then
    return (CCEPH_ERR_OBJECT_NOT_EXIST, none, none,
      ← pthreadMutexUnlock store)
  let onode ← deref onode
  touch store
  if onode.data.length = 0 ∨ onode.data.length ≤ offset then
    return (CCEPH_OK, some 0, none, ← pthreadMutexUnlock store)
  touch store
  let readLength := memStoreReadLength onode.data.length offset length
  let size := sizeT readLength.toInt
  if !(← malloc size) then
    return (CCEPH_ERR_NO_ENOUGH_MEM, none, none, ← pthreadMutexUnlock store)
  touch store
  let source := onode.data.data.map (List.drop (sizeT offset.toInt))
  let block ← memcpy (List.replicate size 0) 0 source size
  return (CCEPH_OK, some readLength.toInt64, some block,
    ← pthreadMutexUnlock store)

def memStoreListCollWith (store : MemStore) :
    Prog Allocs (Int × Option Int32 × Option (List OsCollId) × MemStore) := do
  let store ← pthreadMutexLock store
  let colls ← memStoreColls store
  touch store
  let collCount : Int32 := Int32.ofNat (rbWalk colls).length
  let size := sizeT (sizeofOsCollId * collCount.toInt)
  if !(← malloc size) then
    return (CCEPH_ERR_NO_ENOUGH_MEM, none, none, ← pthreadMutexUnlock store)
  touch store
  let list := (rbWalk colls).map MemStoreCollNode.cid
  if size < sizeofOsCollId * list.length then
    fault .outOfBounds
  return (CCEPH_OK, some collCount, some list, ← pthreadMutexUnlock store)

def memStoreExistCollWith (store : MemStore) (cid : OsCollId) :
    Prog Allocs (Int × Int × MemStore) := do
  let store ← pthreadMutexLock store
  let colls ← memStoreColls store
  touch store
  let (_, cnode) := memStoreCollNodeMapSearch colls cid
  let store ← pthreadMutexUnlock store
  -- the pointer is compared with NULL here, not followed
  return (CCEPH_OK, if cnode.isNone then 0 else 1, store)

def memStoreReadCollMapWith (store : MemStore) (cid : OsCollId)
    (map : BinTree OsMapNode) :
    Prog Allocs (Int × BinTree OsMapNode × MemStore) := do
  let store ← pthreadMutexLock store
  let colls ← memStoreColls store
  touch store
  let (ret, cnode) := memStoreCollNodeMapSearch colls cid
  if ret ≠ CCEPH_OK then
    return (CCEPH_ERR_COLL_NOT_EXIST, map, ← pthreadMutexUnlock store)
  let cnode ← deref cnode
  touch store
  let (ret, map) ← osMapUpdate map cnode.data.map
  assert (ret = CCEPH_OK)
  return (ret, map, ← pthreadMutexUnlock store)

/-- The value is read twice: its length, then its bytes. -/
def memStoreCopyValueWith (store : MemStore) (mapNode : OsMapNode) :
    Prog Allocs (Int × Option Int32 × Option (List UInt8)) := do
  touch store
  let size := sizeT mapNode.valueLength.toInt
  if !(← malloc size) then
    return (CCEPH_ERR_NO_ENOUGH_MEM, none, none)
  touch store
  let block ← memcpy (List.replicate size 0) 0 mapNode.value size
  return (CCEPH_OK, some mapNode.valueLength, some block)

def memStoreReadCollMapKeyWith (store : MemStore) (cid : OsCollId)
    (key : CString) :
    Prog Allocs (Int × Option Int32 × Option (List UInt8) × MemStore) := do
  let store ← pthreadMutexLock store
  let colls ← memStoreColls store
  touch store
  let (ret, cnode) := memStoreCollNodeMapSearch colls cid
  if ret ≠ CCEPH_OK then
    return (CCEPH_ERR_COLL_NOT_EXIST, none, none, ← pthreadMutexUnlock store)
  let cnode ← deref cnode
  touch store
  let (ret, mapNode) := osMapNodeSearch cnode.data.map key
  if ret ≠ CCEPH_OK then
    return (ret, none, none, ← pthreadMutexUnlock store)
  let mapNode ← deref mapNode
  let (ret, length, value) ← memStoreCopyValueWith touch store mapNode.data
  return (ret, length, value, ← pthreadMutexUnlock store)

def memStoreReadObjMapWith (store : MemStore) (cid : OsCollId) (oid : CString)
    (map : BinTree OsMapNode) :
    Prog Allocs (Int × BinTree OsMapNode × MemStore) := do
  let store ← pthreadMutexLock store
  let colls ← memStoreColls store
  touch store
  let (ret, cnode) := memStoreCollNodeMapSearch colls cid
  if ret ≠ CCEPH_OK then
    return (ret, map, ← pthreadMutexUnlock store)
  let cnode ← deref cnode
  touch store
  let (ret, onode) := memStoreObjectNodeMapSearch cnode.data.objects oid
  if ret ≠ CCEPH_OK then
    return (ret, map, ← pthreadMutexUnlock store)
  let onode ← deref onode
  touch store
  let (ret, map) ← osMapUpdate map onode.data.map
  assert (ret = CCEPH_OK)
  return (ret, map, ← pthreadMutexUnlock store)

def memStoreReadObjMapKeyWith (store : MemStore) (cid : OsCollId) (oid : CString)
    (key : CString) :
    Prog Allocs (Int × Option Int32 × Option (List UInt8) × MemStore) := do
  let store ← pthreadMutexLock store
  let colls ← memStoreColls store
  touch store
  let (ret, cnode) := memStoreCollNodeMapSearch colls cid
  if ret ≠ CCEPH_OK then
    return (CCEPH_ERR_COLL_NOT_EXIST, none, none, ← pthreadMutexUnlock store)
  let cnode ← deref cnode
  touch store
  let (ret, onode) := memStoreObjectNodeMapSearch cnode.data.objects oid
  if ret ≠ CCEPH_OK then
    return (ret, none, none, ← pthreadMutexUnlock store)
  let onode ← deref onode
  touch store
  let (ret, mapNode) := osMapNodeSearch onode.data.map key
  if ret ≠ CCEPH_OK then
    return (ret, none, none, ← pthreadMutexUnlock store)
  let mapNode ← deref mapNode
  let (ret, length, value) ← memStoreCopyValueWith touch store mapNode.data
  return (ret, length, value, ← pthreadMutexUnlock store)

end

-- ========================================================== the accesses

/-- An access nobody looks at. -/
def untouched (_store : MemStore) : Prog Allocs Unit := pure ()

/-- An access that only the holder of the lock may make. -/
def guarded (store : MemStore) : Prog Allocs Unit :=
  if store.lock.held then pure () else fault .lockMisuse

-- ============================================================ the balance

/-- The lock after one lock and one unlock. -/
def Mutex.turned (lock : Mutex) : Mutex := ⟨false, lock.acquired + 1, lock.released + 1⟩

/-- A call on `store` whose result holds the store it leaves. If it
returns, it took the lock once and gave it back once; it never takes a
lock it holds, nor gives back one it does not hold; and it does the same
with every access guarded, so that it makes none outside the lock. -/
structure Balanced {α : Type} (store : MemStore) (left : α → MemStore)
    (call : Prog Allocs α) (marked : (MemStore → Prog Allocs Unit) → Prog Allocs α) :
    Prop where
  turned : ∀ r s s', call s = .ok (r, s') → (left r).lock = store.lock.turned
  misuse : store.lock.held = false → ∀ s, call s ≠ .error .lockMisuse
  unmarked : marked untouched = call
  guarded : marked guarded = call

/-- The eight calls, with all their arguments. -/
structure LockBalanced (store : MemStore) : Prop where
  submitTran : ∀ tran, Balanced store (fun r => r.2) (memStoreSubmitTran store tran)
    fun touch => memStoreSubmitTranWith touch store tran
  readObj : ∀ cid oid offset length, Balanced store (fun r => r.2.2.2)
    (memStoreReadObj store cid oid offset length)
    fun touch => memStoreReadObjWith touch store cid oid offset length
  listColl : Balanced store (fun r => r.2.2.2) (memStoreListColl store)
    fun touch => memStoreListCollWith touch store
  existColl : ∀ cid, Balanced store (fun r => r.2.2) (memStoreExistColl store cid)
    fun touch => memStoreExistCollWith touch store cid
  readCollMap : ∀ cid map, Balanced store (fun r => r.2.2) (memStoreReadCollMap store cid map)
    fun touch => memStoreReadCollMapWith touch store cid map
  readCollMapKey : ∀ cid key, Balanced store (fun r => r.2.2.2)
    (memStoreReadCollMapKey store cid key)
    fun touch => memStoreReadCollMapKeyWith touch store cid key
  readObjMap : ∀ cid oid map, Balanced store (fun r => r.2.2)
    (memStoreReadObjMap store cid oid map)
    fun touch => memStoreReadObjMapWith touch store cid oid map
  readObjMapKey : ∀ cid oid key, Balanced store (fun r => r.2.2.2)
    (memStoreReadObjMapKey store cid oid key)
    fun touch => memStoreReadObjMapKeyWith touch store cid oid key

end CephInC
