/-
The eight calls of `os/mem_store.c` that take the store lock, one after
the other, and by any number of threads at once.

A `MemStoreCall` is a call with its arguments, a `StoreAnswer` what it
returns and what it puts through the pointers it was given; a pointer it
does not assign is none. `storeCalls` makes calls in a row.

`storeTask` is the same code as a task: another thread can come in
before the lock, after it is given back, and between any two accesses to
the store. Every access looks whether the lock is held, and ends the
process if it is not; and a node that an earlier access found is looked
up in the trees of its own moment, where one that was freed since is
missing.

The calls that print a name take the log id they print it with.
-/
import CephInC.Lib.InTurn
import CephInC.Lib.Linearize
import CephInC.Os.ObjectStore

namespace CephInC

open Lib

inductive MemStoreCall where
  | submitTran (tran : OsTran) (logId : Int64)
  | readObj (cid : OsCollId) (oid : CString) (offset length logId : Int64)
  | listColl
  | existColl (cid : OsCollId)
  | readCollMap (cid : OsCollId) (map : BinTree OsMapNode)
  | readCollMapKey (cid : OsCollId) (key : CString) (logId : Int64)
  | readObjMap (cid : OsCollId) (oid : CString) (map : BinTree OsMapNode) (logId : Int64)
  | readObjMapKey (cid : OsCollId) (oid key : CString) (logId : Int64)

inductive StoreAnswer where
  | code (ret : Int)
  | data (ret : Int) (length : Option Int64) (bytes : Option (List UInt8))
  | colls (ret : Int) (length : Option Int32) (list : Option (List OsCollId))
  | existed (ret isExisted : Int)
  | attrs (ret : Int) (map : BinTree OsMapNode)
  | value (ret : Int) (length : Option Int32) (bytes : Option (List UInt8))

-- ============================================================ one by one

/-- `cceph_os_funcs`, all of it. -/
structure StoreFuncs (σ : Type) extends OsFuncs σ where
  mount : σ → Prog Allocs (Int × σ)
  listColl : σ → Prog Allocs (Int × Option Int32 × Option (List OsCollId) × σ)
  existColl : σ → OsCollId → Prog Allocs (Int × Int × σ)
  readCollMap : σ → OsCollId → BinTree OsMapNode → Prog Allocs (Int × BinTree OsMapNode × σ)
  readCollMapKey : σ → OsCollId → CString → Int64 →
    Prog Allocs (Int × Option Int32 × Option (List UInt8) × σ)
  readObj : σ → OsCollId → CString → Int64 → Int64 → Int64 →
    Prog Allocs (Int × Option Int64 × Option (List UInt8) × σ)
  readObjMap : σ → OsCollId → CString → BinTree OsMapNode → Int64 →
    Prog Allocs (Int × BinTree OsMapNode × σ)
  readObjMapKey : σ → OsCollId → CString → CString → Int64 →
    Prog Allocs (Int × Option Int32 × Option (List UInt8) × σ)

/-- A call through the table. -/
def StoreFuncs.call {σ : Type} (osFuncs : StoreFuncs σ) (os : σ) :
    MemStoreCall → Prog Allocs (StoreAnswer × σ)
  | .submitTran tran logId => do
      let (ret, os) ← osFuncs.submitTran os tran logId
      return (.code ret, os)
  | .readObj cid oid offset length logId => do
      let (ret, resultLength, resultData, os) ← osFuncs.readObj os cid oid offset length logId
      return (.data ret resultLength resultData, os)
  | .listColl => do
      let (ret, collIdListLength, collIdList, os) ← osFuncs.listColl os
      return (.colls ret collIdListLength collIdList, os)
  | .existColl cid => do
      let (ret, isExisted, os) ← osFuncs.existColl os cid
      return (.existed ret isExisted, os)
  | .readCollMap cid map => do
      let (ret, map, os) ← osFuncs.readCollMap os cid map
      return (.attrs ret map, os)
  | .readCollMapKey cid key logId => do
      let (ret, length, value, os) ← osFuncs.readCollMapKey os cid key logId
      return (.value ret length value, os)
  | .readObjMap cid oid map logId => do
      let (ret, map, os) ← osFuncs.readObjMap os cid oid map logId
      return (.attrs ret map, os)
  | .readObjMapKey cid oid key logId => do
      let (ret, length, value, os) ← osFuncs.readObjMapKey os cid oid key logId
      return (.value ret length value, os)

/-- `cceph_mem_store_mount`. -/
def memStoreMount (store : MemStore) : Prog Allocs (Int × MemStore) := return (CCEPH_OK, store)

/-- `cceph_mem_store_get_funcs`, all of its table. -/
def memStoreFuncs : StoreFuncs MemStore where
  toOsFuncs := memStoreGetFuncs
  mount := memStoreMount
  listColl := memStoreListColl
  existColl := memStoreExistColl
  readCollMap := memStoreReadCollMap
  readCollMapKey store cid key logId := memStoreReadCollMapKeyLogged log logId store cid key
  readObj store cid oid offset length logId :=
    memStoreReadObjLogged log logId store cid oid offset length
  readObjMap store cid oid map logId := memStoreReadObjMapLogged log logId store cid oid map
  readObjMapKey store cid oid key logId := memStoreReadObjMapKeyLogged log logId store cid oid key

def storeCall (store : MemStore) (call : MemStoreCall) : Prog Allocs (StoreAnswer × MemStore) :=
  memStoreFuncs.call store call

def storeCalls (calls : List MemStoreCall) (store : MemStore) :
    Prog Allocs (List StoreAnswer × MemStore) :=
  callsInTurn storeCall calls store

-- =============================================================== as tasks

/-- `pthread_mutex_lock` and `pthread_mutex_unlock`. The threads share
the store and the allocator. -/
def storeLock : Lock (MemStore × Allocs) Fault where
  free s := !s.1.lock.held
  take s := pthreadMutexLock s.1 s.2
  give s := pthreadMutexUnlock s.1 s.2
  take_free s h := by
    have hheld : s.1.lock.held = false := by
      rw [← Bool.not_not s.1.lock.held, h]
      rfl
    unfold pthreadMutexLock
    rw [hheld]
    exact ⟨_, rfl, rfl⟩
  give_held s h := by
    have hheld : s.1.lock.held = true := by
      rw [← Bool.not_not s.1.lock.held, h]
      rfl
    unfold pthreadMutexUnlock
    rw [hheld]
    exact ⟨_, rfl, rfl⟩

abbrev StoreTask := Task (MemStore × Allocs) Fault

/-- An access that reads. -/
def storeLook {α : Type} (p : BinTree MemStoreCollNode → Prog Allocs α) : StoreTask α :=
  Task.look fun s => ((memStoreColls s.1 >>= p) s.2).map fun r => (r.1, s.1, r.2)

/-- An access that changes what the lock guards. -/
def storeChange (p : BinTree MemStoreCollNode → Prog Allocs (Int × BinTree MemStoreCollNode)) :
    StoreTask Int :=
  Task.look fun s => ((memStoreColls s.1 >>= p) s.2).map fun r =>
    (r.1.1, { s.1 with colls := r.1.2 }, r.2)

/-- An allocation, which is no access to the store. -/
def storeMalloc (size : Nat) : StoreTask Bool := Task.own (malloc size)

/-- A LOG line, no access either. -/
def storeSay (l : LogLine) : StoreTask Unit := Task.own (lift (log l))

/-- Give the lock back, and return. -/
def storeReturn (answer : StoreAnswer) : StoreTask StoreAnswer := do
  Task.give
  return answer

-- ================================================================= places

section
variable (colls : BinTree MemStoreCollNode) (cid : OsCollId) (oid key : CString)

/-- What a pointer to the node of a collection points to. -/
def cnodeAt : Prog Allocs (Loc MemStoreCollNode) := deref (memStoreCollNodeMapSearch colls cid).2

/-- One to the node of an object of it. -/
def onodeAt : Prog Allocs (Loc MemStoreObjectNode) := do
  let cnode ← cnodeAt colls cid
  deref (memStoreObjectNodeMapSearch cnode.data.objects oid).2

/-- One to the node of a key of the collection. -/
def collKeyAt : Prog Allocs OsMapNode := do
  let cnode ← cnodeAt colls cid
  let mapNode ← deref (osMapNodeSearch cnode.data.map key).2
  return mapNode.data

/-- One to the node of a key of the object. -/
def objKeyAt : Prog Allocs OsMapNode := do
  let onode ← onodeAt colls cid oid
  let mapNode ← deref (osMapNodeSearch onode.data.map key).2
  return mapNode.data

end

-- =============================================================== the calls

/-- The loop of `cceph_mem_store_submit_tran`, an access for each op. -/
def submitTranTask (tran : OsTran) (logId : Int64) : (left i : Nat) → StoreTask StoreAnswer
  | 0, _ => storeReturn (.code CCEPH_OK)
  | left + 1, i => do
      let ret ← storeChange fun colls => do
        let op ← lift (osTranGetOp tran i)
        memStoreDoOpLogged log logId colls op
      if ret ≠ CCEPH_OK then
        storeReturn (.code ret)
      else
        submitTranTask tran logId left (i + 1)

def readObjTask (cid : OsCollId) (oid : CString) (offset length logId : Int64) :
    StoreTask StoreAnswer := do
  storeSay (readObjLine logId cid oid offset length)
  let ret ← storeLook fun colls => return (memStoreCollNodeMapSearch colls cid).1
  if ret ≠ CCEPH_OK then
    storeReturn (.data CCEPH_ERR_COLL_NOT_EXIST none none)
  else
  let ret ← storeLook fun colls => do
    let cnode ← cnodeAt colls cid
    return (memStoreObjectNodeMapSearch cnode.data.objects oid).1
  if ret ≠ CCEPH_OK then
    storeSay (readObjFailedLine logId oid ret)
    storeReturn (.data CCEPH_ERR_OBJECT_NOT_EXIST none none)
  else
  let total ← storeLook fun colls => do
    let onode ← onodeAt colls cid oid
    return onode.data.length
  if total = 0 ∨ total ≤ offset then
    storeReturn (.data CCEPH_OK (some 0) none)
  else
  let readLength := memStoreReadLength total offset length
  let size := sizeT readLength.toInt
  if !(← storeMalloc size) then
    storeReturn (.data CCEPH_ERR_NO_ENOUGH_MEM none none)
  else
  let block ← storeLook fun colls => do
    let onode ← onodeAt colls cid oid
    memcpy (List.replicate size 0) 0 (onode.data.data.map (List.drop (sizeT offset.toInt))) size
  storeReturn (.data CCEPH_OK (some readLength.toInt64) (some block))

/-- The second walk of the tree is an access of its own. -/
def listCollTask : StoreTask StoreAnswer := do
  let collCount ← storeLook fun colls => return Int32.ofNat (rbWalk colls).length
  let size := sizeT (sizeofOsCollId * collCount.toInt)
  if !(← storeMalloc size) then
    storeReturn (.colls CCEPH_ERR_NO_ENOUGH_MEM none none)
  else
  let list ← storeLook fun colls => do
    let list := (rbWalk colls).map MemStoreCollNode.cid
    if size < sizeofOsCollId * list.length then
      fault .outOfBounds
    return list
  storeReturn (.colls CCEPH_OK (some collCount) (some list))

/-- The pointer is only compared. -/
def existCollTask (cid : OsCollId) : StoreTask StoreAnswer := do
  let isNull ← storeLook fun colls => return (memStoreCollNodeMapSearch colls cid).2.isNone
  storeReturn (.existed CCEPH_OK (if isNull then 0 else 1))

/-- The end of both whole-map readers, `stored` being where the map is. -/
def updateMapTask (map : BinTree OsMapNode)
    (stored : BinTree MemStoreCollNode → Prog Allocs (BinTree OsMapNode)) :
    StoreTask StoreAnswer := do
  let (ret, map) ← storeLook fun colls => do
    let (ret, map) ← osMapUpdate map (← stored colls)
    assert (ret = CCEPH_OK)
    return (ret, map)
  storeReturn (.attrs ret map)

def readCollMapTask (cid : OsCollId) (map : BinTree OsMapNode) : StoreTask StoreAnswer := do
  let ret ← storeLook fun colls => return (memStoreCollNodeMapSearch colls cid).1
  if ret ≠ CCEPH_OK then
    storeReturn (.attrs CCEPH_ERR_COLL_NOT_EXIST map)
  else
  updateMapTask map fun colls => do
    let cnode ← cnodeAt colls cid
    return cnode.data.map

/-- The end of both key readers, `stored` being where the node is: the
length of the value, then its bytes. -/
def copyValueTask (stored : BinTree MemStoreCollNode → Prog Allocs OsMapNode) :
    StoreTask StoreAnswer := do
  let valueLength ← storeLook fun colls => return (← stored colls).valueLength
  let size := sizeT valueLength.toInt
  if !(← storeMalloc size) then
    storeReturn (.value CCEPH_ERR_NO_ENOUGH_MEM none none)
  else
  let block ← storeLook fun colls => do
    let mapNode ← stored colls
    memcpy (List.replicate size 0) 0 mapNode.value size
  storeReturn (.value CCEPH_OK (some valueLength) (some block))

def readCollMapKeyTask (cid : OsCollId) (key : CString) (logId : Int64) :
    StoreTask StoreAnswer := do
  let ret ← storeLook fun colls => return (memStoreCollNodeMapSearch colls cid).1
  if ret ≠ CCEPH_OK then
    storeReturn (.value CCEPH_ERR_COLL_NOT_EXIST none none)
  else
  let ret ← storeLook fun colls => do
    let cnode ← cnodeAt colls cid
    return (osMapNodeSearch cnode.data.map key).1
  if ret ≠ CCEPH_OK then
    storeSay (readCollMapKeyFailedLine logId key ret)
    storeReturn (.value ret none none)
  else
  copyValueTask fun colls => collKeyAt colls cid key

def readObjMapTask (cid : OsCollId) (oid : CString) (map : BinTree OsMapNode) (logId : Int64) :
    StoreTask StoreAnswer := do
  storeSay (readObjMapLine logId cid oid)
  let ret ← storeLook fun colls => return (memStoreCollNodeMapSearch colls cid).1
  if ret ≠ CCEPH_OK then
    storeReturn (.attrs ret map)
  else
  let ret ← storeLook fun colls => do
    let cnode ← cnodeAt colls cid
    return (memStoreObjectNodeMapSearch cnode.data.objects oid).1
  if ret ≠ CCEPH_OK then
    storeSay (readObjMapFailedLine logId oid ret)
    storeReturn (.attrs ret map)
  else
  updateMapTask map fun colls => do
    let onode ← onodeAt colls cid oid
    return onode.data.map

def readObjMapKeyTask (cid : OsCollId) (oid key : CString) (logId : Int64) :
    StoreTask StoreAnswer := do
  storeSay (readObjMapKeyLine logId cid oid)
  let ret ← storeLook fun colls => return (memStoreCollNodeMapSearch colls cid).1
  if ret ≠ CCEPH_OK then
    storeReturn (.value CCEPH_ERR_COLL_NOT_EXIST none none)
  else
  let ret ← storeLook fun colls => do
    let cnode ← cnodeAt colls cid
    return (memStoreObjectNodeMapSearch cnode.data.objects oid).1
  if ret ≠ CCEPH_OK then
    storeSay (readObjMapKeyFailedLine logId oid ret)
    storeReturn (.value ret none none)
  else
  let ret ← storeLook fun colls => do
    let onode ← onodeAt colls cid oid
    return (osMapNodeSearch onode.data.map key).1
  if ret ≠ CCEPH_OK then
    storeSay (readObjMapKeyNotFoundLine logId key ret)
    storeReturn (.value ret none none)
  else
  copyValueTask fun colls => objKeyAt colls cid oid key

/-- The section of a call under the lock. -/
def sectionTask : MemStoreCall → StoreTask StoreAnswer
  | .submitTran tran logId => submitTranTask tran logId (osTranGetOpCount tran).toInt.toNat 0
  | .readObj cid oid offset length logId => readObjTask cid oid offset length logId
  | .listColl => listCollTask
  | .existColl cid => existCollTask cid
  | .readCollMap cid map => readCollMapTask cid map
  | .readCollMapKey cid key logId => readCollMapKeyTask cid key logId
  | .readObjMap cid oid map logId => readObjMapTask cid oid map logId
  | .readObjMapKey cid oid key logId => readObjMapKeyTask cid oid key logId

/-- What a call asserts before it takes the lock. -/
def MemStoreCall.Asserts : MemStoreCall → Prop
  | .readObj _ _ offset _ _ => offset ≥ 0
  | _ => True

instance : DecidablePred MemStoreCall.Asserts
  | .submitTran _ _ => .isTrue trivial
  | .readObj _ _ offset _ _ => inferInstanceAs (Decidable (offset ≥ 0))
  | .listColl => .isTrue trivial
  | .existColl _ => .isTrue trivial
  | .readCollMap _ _ => .isTrue trivial
  | .readCollMapKey _ _ _ => .isTrue trivial
  | .readObjMap _ _ _ _ => .isTrue trivial
  | .readObjMapKey _ _ _ _ => .isTrue trivial

def storeTask (call : MemStoreCall) : StoreTask StoreAnswer := do
  Task.check call.Asserts .assertFail
  Task.take
  sectionTask call

/-- Threads of one process around one store. -/
def storeThreads {τ : Type} [DecidableEq τ] (store : MemStore) (s : Allocs) :
    System (Threads τ MemStoreCall StoreAnswer (MemStore × Allocs) Fault)
      (ThreadAct τ MemStoreCall) :=
  threads storeLock storeTask (store, s)

end CephInC
