/-
Every call of the store that returns took the store lock once and gave it
back once, whatever the trees are and whatever the allocator refuses; and
it touches the trees in between only.

What runs under the lock never comes to it (`LockFree`): of a tree's own
code `Common/Proofs/Faults.lean` says so for any tree. That leaves the
return paths of each call, which are walked one by one: each ends in the
unlock of the store it locked. An access is guarded by a lock that is
held wherever one is marked, so the guard is never noticed.
-/
import CephInC.Common.Proofs.Faults
import CephInC.Os.Guarded
import CephInC.Os.Proofs.Keyed
import CephInC.Os.Proofs.Submit

namespace CephInC

open Lib

-- ============================================================ the rules

section
variable {σ α β : Type} {P : α → Prop}

/-- Code that never misuses the lock, whatever it returns. -/
abbrev LockFree (x : Prog σ α) : Prop := Ends Fault.lockMisuse (fun _ => True) x

theorem lockFree_pure (a : α) : LockFree (pure a : Prog σ α) := Ends.pure trivial

theorem lockFree_bind {x : Prog σ β} {f : β → Prog σ α} (hx : LockFree x)
    (hf : ∀ b, Ends Fault.lockMisuse P (f b)) : Ends Fault.lockMisuse P (x >>= f) :=
  hx.bind fun b _ => hf b

theorem lockFree_fault {e : Fault} (h : e ≠ .lockMisuse) :
    Ends Fault.lockMisuse P (fault e : Prog σ α) := Ends.throw h

theorem lockFree_assert (p : Prop) [Decidable p] : LockFree (assert p : Prog σ Unit) := by
  unfold assert
  apply Ends.ite (lockFree_pure ())
  apply lockFree_fault
  intro h
  cases h

theorem lockFree_assertIf (p q : Prop) [Decidable p] [Decidable q]
    {x : Prog σ α} (hx : Ends Fault.lockMisuse P x) :
    Ends Fault.lockMisuse P (if p then assert q >>= fun _ => x else x) :=
  Ends.ite (lockFree_bind (lockFree_assert q) fun _ => hx) hx

theorem lockFree_deref (o : Option α) : LockFree (deref o : Prog σ α) := by
  cases o with
  | some a => exact lockFree_pure a
  | none =>
      apply lockFree_fault
      intro h
      cases h

theorem lockFree_lift {x : Except Fault α} (hx : x ≠ .error .lockMisuse) :
    LockFree (lift x : Prog σ α) := by
  cases x with
  | ok a => exact lockFree_pure a
  | error e =>
      apply lockFree_fault
      intro h
      rw [h] at hx
      exact hx rfl

end

-- ======================================================== the attributes

theorem lockMisuse_ne_nullDeref : Fault.lockMisuse ≠ .nullDeref := by
  intro h
  cases h

theorem malloc_lockFree (size : Nat) : LockFree (malloc size) := by
  constructor
  · intro s h
    cases h
  · exact Ensures.trivial _

theorem memcpy_lockFree {σ : Type} (dst : List UInt8) (off : Nat) (src : Option (List UInt8))
    (n : Nat) : LockFree (memcpy dst off src n : Prog σ _) := by
  unfold memcpy
  apply Ends.ite (lockFree_pure _)
  cases src with
  | none =>
      apply lockFree_fault
      intro h
      cases h
  | some bytes =>
      apply Ends.ite (lockFree_pure _)
      apply lockFree_fault
      intro h
      cases h

theorem copyString_lockFree (str : CString) : LockFree (copyString str) := by
  unfold copyString
  apply lockFree_bind (malloc_lockFree _) fun granted => ?_
  apply Ends.ite ?_ (lockFree_pure _)
  apply Ends.ite (lockFree_pure _)
  apply lockFree_fault
  intro h
  cases h

theorem osMapNodeNew_lockFree (key : CString) (value : Option (List UInt8))
    (valueLength : Int32) : LockFree (osMapNodeNew key value valueLength) := by
  unfold osMapNodeNew
  apply lockFree_assertIf
  apply lockFree_bind (malloc_lockFree _) fun granted => ?_
  apply Ends.ite (lockFree_pure _)
  apply lockFree_bind (copyString_lockFree key) fun copy => ?_
  cases copy with
  | none => exact lockFree_pure _
  | some key =>
      apply Ends.ite ?_ (lockFree_pure _)
      apply lockFree_bind (malloc_lockFree _) fun granted => ?_
      apply Ends.ite (lockFree_pure _)
      exact lockFree_bind (memcpy_lockFree _ _ _ _) fun block => lockFree_pure _

theorem osMapUpdateAdd_lockFree (t : BinTree OsMapNode) (node : OsMapNode) :
    LockFree (osMapUpdateAdd t node) := by
  unfold osMapUpdateAdd
  apply lockFree_bind (osMapNodeNew_lockFree _ _ _) fun made => ?_
  apply Ends.ite (lockFree_pure _)
  apply lockFree_bind (lockFree_deref _) fun node => ?_
  apply lockFree_bind (lockFree_lift (implMapInsert_null lockMisuse_ne_nullDeref _ _ _ _))
    fun inserted => ?_
  exact Ends.ite (lockFree_pure _) (lockFree_pure _)

theorem osMapUpdateBody_lockFree (t : BinTree OsMapNode) (node : OsMapNode) :
    LockFree (osMapUpdateBody t node) := by
  unfold osMapUpdateBody
  apply lockFree_assertIf
  generalize osMapNodeSearch t node.key = found
  obtain ⟨ret, old⟩ := found
  cases old with
  | none => exact Ends.ite (osMapUpdateAdd_lockFree _ _) (lockFree_pure _)
  | some old =>
      apply lockFree_bind (lockFree_lift (implMapRemove_null lockMisuse_ne_nullDeref _))
        fun removed => ?_
      apply Ends.ite (lockFree_pure _)
      exact Ends.ite (osMapUpdateAdd_lockFree _ _) (lockFree_pure _)

theorem osMapUpdateLoop_lockFree : ∀ (t : BinTree OsMapNode) (ret : Int)
    (nodes : List OsMapNode), LockFree (osMapUpdateLoop t ret nodes)
  | _, _, [] => lockFree_pure _
  | t, _, node :: rest => by
      apply lockFree_bind (osMapUpdateBody_lockFree t node) fun turn => ?_
      obtain ⟨step, ret, t'⟩ := turn
      cases step with
      | labelRet => exact lockFree_pure _
      | next => exact osMapUpdateLoop_lockFree t' ret rest

theorem osMapUpdate_lockFree (t input : BinTree OsMapNode) : LockFree (osMapUpdate t input) :=
  lockFree_bind (osMapUpdateLoop_lockFree _ _ _) fun _ => lockFree_pure _

-- ============================================================== the ops

theorem memStoreCollNodeNew_lockFree (cid : OsCollId) : LockFree (memStoreCollNodeNew cid) := by
  unfold memStoreCollNodeNew
  apply lockFree_bind (lockFree_assert _) fun _ => ?_
  apply lockFree_bind (malloc_lockFree _) fun granted => ?_
  exact Ends.ite (lockFree_pure _) (lockFree_pure _)

theorem memStoreObjectNodeNew_lockFree (oid : CString) : LockFree (memStoreObjectNodeNew oid) := by
  unfold memStoreObjectNodeNew
  apply lockFree_bind (malloc_lockFree _) fun granted => ?_
  apply Ends.ite (lockFree_pure _)
  apply lockFree_bind (copyString_lockFree oid) fun copy => ?_
  cases copy with
  | none => exact lockFree_pure _
  | some oid => exact lockFree_pure _

theorem logCodeAsString_lockFree {σ α : Type} {P : α → Prop} :
    Ends Fault.lockMisuse P (logCodeAsString : Prog σ α) := by
  apply lockFree_fault
  decide

theorem memStoreDoOpCollCreate_lockFree (colls : BinTree MemStoreCollNode) (op : OsTranOp) :
    LockFree (memStoreDoOpCollCreate colls op) := by
  unfold memStoreDoOpCollCreate
  apply lockFree_bind (lockFree_assert _) fun _ => ?_
  apply Ends.ite (lockFree_pure _)
  apply lockFree_bind (lockFree_assert _) fun _ => ?_
  apply lockFree_bind (memStoreCollNodeNew_lockFree _) fun made => ?_
  apply Ends.ite logCodeAsString_lockFree
  apply lockFree_bind (lockFree_deref _) fun cnode => ?_
  apply lockFree_bind (lockFree_lift (implMapInsert_null lockMisuse_ne_nullDeref _ _ _ _))
    fun inserted => ?_
  exact Ends.ite logCodeAsString_lockFree (lockFree_pure _)

theorem memStoreDoOpCollRemove_lockFree (colls : BinTree MemStoreCollNode) (op : OsTranOp) :
    LockFree (memStoreDoOpCollRemove colls op) := by
  unfold memStoreDoOpCollRemove
  apply lockFree_bind (lockFree_assert _) fun _ => ?_
  apply Ends.ite (lockFree_pure _)
  apply lockFree_bind (lockFree_deref _) fun cnode => ?_
  apply lockFree_bind (lockFree_lift (implMapRemove_null lockMisuse_ne_nullDeref _))
    fun removed => ?_
  exact Ends.ite logCodeAsString_lockFree (lockFree_pure _)

theorem memStoreDoOpCollMap_lockFree (colls : BinTree MemStoreCollNode) (op : OsTranOp) :
    LockFree (memStoreDoOpCollMap colls op) := by
  unfold memStoreDoOpCollMap
  apply lockFree_bind (lockFree_assert _) fun _ => ?_
  apply lockFree_bind (lockFree_assert _) fun _ => ?_
  apply lockFree_bind (lockFree_deref _) fun map => ?_
  apply Ends.ite (lockFree_pure _)
  apply lockFree_bind (lockFree_deref _) fun cnode => ?_
  exact lockFree_bind (osMapUpdate_lockFree _ _) fun updated => lockFree_pure _

theorem memStoreObjectExpand_lockFree (onode : MemStoreObjectNode) (newLength : Int64) :
    LockFree (memStoreObjectExpand onode newLength) := by
  unfold memStoreObjectExpand
  apply Ends.ite ?_ (lockFree_pure _)
  apply lockFree_bind (malloc_lockFree _) fun granted => ?_
  apply Ends.ite (lockFree_pure _)
  exact lockFree_bind (memcpy_lockFree _ _ _ _) fun newData => lockFree_pure _

theorem memStoreObjectWrite_lockFree (onode : MemStoreObjectNode) (oid : CString)
    (op : OsTranOp) : LockFree (memStoreObjectWrite onode oid op) := by
  unfold memStoreObjectWrite
  apply Ends.ite (lockFree_pure _)
  apply lockFree_bind (lockFree_assert _) fun _ => ?_
  apply lockFree_bind (memStoreObjectExpand_lockFree _ _) fun expanded => ?_
  apply Ends.ite (lockFree_pure _)
  exact lockFree_bind (memcpy_lockFree _ _ _ _) fun data => lockFree_pure _

theorem memStoreObjectOpen_lockFree (objects : BinTree MemStoreObjectNode) (oid : CString) :
    LockFree (memStoreObjectOpen objects oid) := by
  unfold memStoreObjectOpen
  apply Ends.ite ?_ (lockFree_pure _)
  apply lockFree_bind (memStoreObjectNodeNew_lockFree oid) fun made => ?_
  apply Ends.ite (lockFree_pure _)
  apply lockFree_bind (lockFree_deref _) fun onode => ?_
  apply lockFree_bind (lockFree_lift (implMapInsert_null lockMisuse_ne_nullDeref _ _ _ _))
    fun inserted => ?_
  exact Ends.ite (lockFree_pure _) (lockFree_pure _)

theorem memStoreObjWriteBody_lockFree (colls : BinTree MemStoreCollNode) (op : OsTranOp) :
    LockFree (memStoreObjWriteBody colls op) := by
  unfold memStoreObjWriteBody
  apply lockFree_bind (lockFree_deref _) fun oid => ?_
  apply Ends.ite (lockFree_pure _)
  apply lockFree_bind (lockFree_deref _) fun cnode => ?_
  apply lockFree_bind (memStoreObjectOpen_lockFree _ _) fun opened => ?_
  apply Ends.ite (lockFree_pure _)
  apply lockFree_bind (lockFree_deref _) fun onode => ?_
  exact lockFree_bind (memStoreObjectWrite_lockFree _ _ _) fun written => lockFree_pure _

theorem memStoreDoOpObjWrite_lockFree (colls : BinTree MemStoreCollNode) (op : OsTranOp) :
    LockFree (memStoreDoOpObjWrite colls op) := by
  unfold memStoreDoOpObjWrite
  apply lockFree_bind (lockFree_assert _) fun _ => ?_
  apply lockFree_bind (lockFree_assert _) fun _ => ?_
  apply lockFree_bind (lockFree_assert _) fun _ => ?_
  apply lockFree_bind (lockFree_assert _) fun _ => ?_
  exact lockFree_assertIf _ _ (memStoreObjWriteBody_lockFree colls op)

theorem memStoreDoOpObjRemove_lockFree (colls : BinTree MemStoreCollNode) (op : OsTranOp) :
    LockFree (memStoreDoOpObjRemove colls op) := by
  unfold memStoreDoOpObjRemove
  apply lockFree_bind (lockFree_assert _) fun _ => ?_
  apply lockFree_bind (lockFree_assert _) fun _ => ?_
  apply lockFree_bind (lockFree_deref _) fun oid => ?_
  apply Ends.ite (lockFree_pure _)
  apply lockFree_bind (lockFree_deref _) fun cnode => ?_
  apply Ends.ite (lockFree_pure _)
  apply lockFree_bind (lockFree_deref _) fun onode => ?_
  exact lockFree_bind (lockFree_lift (implMapRemove_null lockMisuse_ne_nullDeref _))
    fun removed => lockFree_pure _

theorem memStoreDoOpObjMap_lockFree (colls : BinTree MemStoreCollNode) (op : OsTranOp) :
    LockFree (memStoreDoOpObjMap colls op) := by
  unfold memStoreDoOpObjMap
  apply lockFree_bind (lockFree_assert _) fun _ => ?_
  apply lockFree_bind (lockFree_assert _) fun _ => ?_
  apply lockFree_bind (lockFree_assert _) fun _ => ?_
  apply lockFree_bind (lockFree_deref _) fun oid => ?_
  apply lockFree_bind (lockFree_deref _) fun map => ?_
  apply Ends.ite (lockFree_pure _)
  apply lockFree_bind (lockFree_deref _) fun cnode => ?_
  apply Ends.ite (lockFree_pure _)
  apply lockFree_bind (lockFree_deref _) fun onode => ?_
  exact lockFree_bind (osMapUpdate_lockFree _ _) fun updated => lockFree_pure _

theorem memStoreDoOp_lockFree (colls : BinTree MemStoreCollNode) (op : Option OsTranOp) :
    LockFree (memStoreDoOp colls op) := by
  unfold memStoreDoOp
  apply lockFree_bind (lockFree_assert _) fun _ => ?_
  apply lockFree_bind (lockFree_deref _) fun op => ?_
  cases op.op with
  | noop => exact lockFree_pure _
  | collCreate => exact memStoreDoOpCollCreate_lockFree colls op
  | collRemove => exact memStoreDoOpCollRemove_lockFree colls op
  | collMap => exact memStoreDoOpCollMap_lockFree colls op
  | objTouch => exact memStoreDoOpObjWrite_lockFree colls { op with length := 0 }
  | objWrite => exact memStoreDoOpObjWrite_lockFree colls op
  | objRemove => exact memStoreDoOpObjRemove_lockFree colls op
  | objMap => exact memStoreDoOpObjMap_lockFree colls op
  | unknown => exact lockFree_pure _

theorem osTranGetOp_lockFree (tran : OsTran) (index : Nat) :
    osTranGetOp tran index ≠ .error .lockMisuse := by
  unfold osTranGetOp
  split
  · exact ok_ne_error _
  · split
    · exact ok_ne_error _
    · intro h
      cases h

-- =========================================================== the accesses

section
variable {touch : MemStore → Prog Allocs Unit} {store : MemStore}

/-- The holder of the lock does not notice these accesses. -/
def Unnoticed (touch : MemStore → Prog Allocs Unit) : Prop :=
  ∀ store : MemStore, store.lock.held = true → touch store = pure ()

theorem untouched_unnoticed : Unnoticed untouched := fun _ _ => rfl

theorem guarded_unnoticed : Unnoticed guarded := by
  intro store h
  unfold guarded
  rw [if_pos h]

theorem pthreadMutexLock_held {σ : Type} (h : store.lock.held = true) :
    (pthreadMutexLock store : Prog σ MemStore) = fault .lockMisuse := by
  unfold pthreadMutexLock
  rw [if_pos h]

/-- Under the lock an op leaves it as it is, so the next access finds it
held too. -/
theorem memStoreSubmitTranLoop_with (h : Unnoticed touch) (tran : OsTran) :
    ∀ (left i : Nat) (store : MemStore), store.lock.held = true →
      memStoreSubmitTranLoopWith touch tran left i store
        = memStoreSubmitTranLoop tran left i store
  | 0, _, _, _ => rfl
  | left + 1, i, store, hheld => by
      unfold memStoreSubmitTranLoopWith memStoreSubmitTranLoop
      simp only [memStoreColls_run hheld, h store hheld, pure_bind]
      have hrest : ∀ colls, memStoreSubmitTranLoopWith touch tran left (i + 1)
          { store with colls } = memStoreSubmitTranLoop tran left (i + 1) { store with colls } :=
        fun colls => memStoreSubmitTranLoop_with h tran left (i + 1) { store with colls } hheld
      simp only [hrest]

theorem memStoreSubmitTran_with (h : Unnoticed touch) (tran : OsTran) :
    memStoreSubmitTranWith touch store tran = memStoreSubmitTran store tran := by
  unfold memStoreSubmitTranWith memStoreSubmitTran
  cases hheld : store.lock.held with
  | true => simp only [pthreadMutexLock_held hheld, fault_bind]
  | false =>
      simp only [pthreadMutexLock_run hheld, pure_bind,
        memStoreSubmitTranLoop_with h tran _ _ store.locked rfl]

theorem memStoreReadObj_with (h : Unnoticed touch) (cid : OsCollId) (oid : CString)
    (offset length : Int64) :
    memStoreReadObjWith touch store cid oid offset length
      = memStoreReadObj store cid oid offset length := by
  unfold memStoreReadObjWith memStoreReadObj
  cases hheld : store.lock.held with
  | true => simp only [pthreadMutexLock_held hheld, fault_bind]
  | false => simp only [lockColls_run hheld, h store.locked rfl, pure_bind]

theorem memStoreListColl_with (h : Unnoticed touch) :
    memStoreListCollWith touch store = memStoreListColl store := by
  unfold memStoreListCollWith memStoreListColl
  cases hheld : store.lock.held with
  | true => simp only [pthreadMutexLock_held hheld, fault_bind]
  | false => simp only [lockColls_run hheld, h store.locked rfl, pure_bind]

theorem memStoreExistColl_with (h : Unnoticed touch) (cid : OsCollId) :
    memStoreExistCollWith touch store cid = memStoreExistColl store cid := by
  unfold memStoreExistCollWith memStoreExistColl
  cases hheld : store.lock.held with
  | true => simp only [pthreadMutexLock_held hheld, fault_bind]
  | false => simp only [lockColls_run hheld, h store.locked rfl, pure_bind]

theorem memStoreReadCollMap_with (h : Unnoticed touch) (cid : OsCollId)
    (map : BinTree OsMapNode) :
    memStoreReadCollMapWith touch store cid map = memStoreReadCollMap store cid map := by
  unfold memStoreReadCollMapWith memStoreReadCollMap
  cases hheld : store.lock.held with
  | true => simp only [pthreadMutexLock_held hheld, fault_bind]
  | false => simp only [lockColls_run hheld, h store.locked rfl, pure_bind]

theorem memStoreCopyValue_with (h : Unnoticed touch) (mapNode : OsMapNode) :
    memStoreCopyValueWith touch store.locked mapNode = memStoreCopyValue mapNode := by
  unfold memStoreCopyValueWith memStoreCopyValue
  simp only [h store.locked rfl, pure_bind]

theorem memStoreReadCollMapKey_with (h : Unnoticed touch) (cid : OsCollId) (key : CString) :
    memStoreReadCollMapKeyWith touch store cid key = memStoreReadCollMapKey store cid key := by
  unfold memStoreReadCollMapKeyWith memStoreReadCollMapKey
  cases hheld : store.lock.held with
  | true => simp only [pthreadMutexLock_held hheld, fault_bind]
  | false =>
      simp only [lockColls_run hheld, h store.locked rfl, memStoreCopyValue_with h, pure_bind]

theorem memStoreReadObjMap_with (h : Unnoticed touch) (cid : OsCollId) (oid : CString)
    (map : BinTree OsMapNode) :
    memStoreReadObjMapWith touch store cid oid map = memStoreReadObjMap store cid oid map := by
  unfold memStoreReadObjMapWith memStoreReadObjMap
  cases hheld : store.lock.held with
  | true => simp only [pthreadMutexLock_held hheld, fault_bind]
  | false => simp only [lockColls_run hheld, h store.locked rfl, pure_bind]

theorem memStoreReadObjMapKey_with (h : Unnoticed touch) (cid : OsCollId) (oid key : CString) :
    memStoreReadObjMapKeyWith touch store cid oid key
      = memStoreReadObjMapKey store cid oid key := by
  unfold memStoreReadObjMapKeyWith memStoreReadObjMapKey
  cases hheld : store.lock.held with
  | true => simp only [pthreadMutexLock_held hheld, fault_bind]
  | false =>
      simp only [lockColls_run hheld, h store.locked rfl, memStoreCopyValue_with h, pure_bind]

end

-- ======================================================= the return paths

section
variable {store : MemStore}

/-- What a call under a free lock comes to. -/
abbrev Turns {α : Type} (store : MemStore) (left : α → MemStore) (call : Prog Allocs α) :
    Prop := Ends Fault.lockMisuse (fun r => (left r).lock = store.lock.turned) call

/-- Each op runs under the lock, and the last one leaves it held. -/
theorem memStoreSubmitTranLoop_ends (tran : OsTran) : ∀ (left i : Nat) (store : MemStore),
    store.lock.held = true → Ends Fault.lockMisuse (fun r => r.2.lock = store.lock)
      (memStoreSubmitTranLoop tran left i store)
  | 0, _, _, _ => Ends.pure rfl
  | left + 1, i, store, hheld => by
      unfold memStoreSubmitTranLoop
      apply lockFree_bind (lockFree_lift (osTranGetOp_lockFree tran i)) fun op => ?_
      rw [memStoreColls_run hheld, pure_bind]
      apply lockFree_bind (memStoreDoOp_lockFree _ _) fun done => ?_
      obtain ⟨ret, colls⟩ := done
      refine Ends.ite (Ends.pure rfl) ?_
      exact memStoreSubmitTranLoop_ends tran left (i + 1) { store with colls } hheld

theorem memStoreSubmitTran_turns (h : store.lock.held = false) (tran : OsTran) :
    Turns store (fun r => r.2) (memStoreSubmitTran store tran) := by
  unfold memStoreSubmitTran
  simp only [pthreadMutexLock_run h, pure_bind]
  apply Ends.bind (memStoreSubmitTranLoop_ends tran _ 0 store.locked rfl) fun done hlock => ?_
  have hheld : done.2.lock.held = true := by rw [hlock]; rfl
  rw [pthreadMutexUnlock_run hheld, pure_bind]
  apply Ends.pure
  show Mutex.mk false done.2.lock.acquired (done.2.lock.released + 1) = store.lock.turned
  rw [hlock]
  rfl

theorem memStoreReadObj_turns (h : store.lock.held = false) (cid : OsCollId) (oid : CString)
    (offset length : Int64) :
    Turns store (fun r => r.2.2.2) (memStoreReadObj store cid oid offset length) := by
  unfold memStoreReadObj
  apply lockFree_bind (lockFree_assert _) fun _ => ?_
  simp only [lockColls_run h, pthreadMutexUnlock_locked, pure_bind]
  -- no collection
  refine Ends.ite (Ends.pure rfl) ?_
  apply lockFree_bind (lockFree_deref _) fun cnode => ?_
  -- no object
  refine Ends.ite (Ends.pure rfl) ?_
  apply lockFree_bind (lockFree_deref _) fun onode => ?_
  -- nothing to read
  refine Ends.ite (Ends.pure rfl) ?_
  apply lockFree_bind (malloc_lockFree _) fun granted => ?_
  -- no memory
  refine Ends.ite (Ends.pure rfl) ?_
  exact lockFree_bind (memcpy_lockFree _ _ _ _) fun block => Ends.pure rfl

theorem memStoreListColl_turns (h : store.lock.held = false) :
    Turns store (fun r => r.2.2.2) (memStoreListColl store) := by
  unfold memStoreListColl
  simp only [lockColls_run h, pthreadMutexUnlock_locked, pure_bind]
  apply lockFree_bind (malloc_lockFree _) fun granted => ?_
  -- no memory
  refine Ends.ite (Ends.pure rfl) ?_
  refine Ends.ite ?_ (Ends.pure rfl)
  rw [fault_bind]
  exact lockFree_fault (by decide)

theorem memStoreExistColl_turns (h : store.lock.held = false) (cid : OsCollId) :
    Turns store (fun r => r.2.2) (memStoreExistColl store cid) := by
  unfold memStoreExistColl
  simp only [lockColls_run h, pthreadMutexUnlock_locked, pure_bind]
  exact Ends.pure rfl

theorem memStoreReadCollMap_turns (h : store.lock.held = false) (cid : OsCollId)
    (map : BinTree OsMapNode) :
    Turns store (fun r => r.2.2) (memStoreReadCollMap store cid map) := by
  unfold memStoreReadCollMap
  simp only [lockColls_run h, pthreadMutexUnlock_locked, pure_bind]
  -- no collection
  refine Ends.ite (Ends.pure rfl) ?_
  apply lockFree_bind (lockFree_deref _) fun cnode => ?_
  apply lockFree_bind (osMapUpdate_lockFree _ _) fun updated => ?_
  exact lockFree_bind (lockFree_assert _) fun _ => Ends.pure rfl

theorem memStoreCopyValue_lockFree (mapNode : OsMapNode) :
    LockFree (memStoreCopyValue mapNode) := by
  unfold memStoreCopyValue
  apply lockFree_bind (malloc_lockFree _) fun granted => ?_
  apply Ends.ite (lockFree_pure _)
  exact lockFree_bind (memcpy_lockFree _ _ _ _) fun block => lockFree_pure _

theorem memStoreReadCollMapKey_turns (h : store.lock.held = false) (cid : OsCollId)
    (key : CString) :
    Turns store (fun r => r.2.2.2) (memStoreReadCollMapKey store cid key) := by
  unfold memStoreReadCollMapKey
  simp only [lockColls_run h, pthreadMutexUnlock_locked, pure_bind]
  -- no collection
  refine Ends.ite (Ends.pure rfl) ?_
  apply lockFree_bind (lockFree_deref _) fun cnode => ?_
  -- no key
  refine Ends.ite (Ends.pure rfl) ?_
  apply lockFree_bind (lockFree_deref _) fun mapNode => ?_
  exact lockFree_bind (memStoreCopyValue_lockFree _) fun copied => Ends.pure rfl

theorem memStoreReadObjMap_turns (h : store.lock.held = false) (cid : OsCollId)
    (oid : CString) (map : BinTree OsMapNode) :
    Turns store (fun r => r.2.2) (memStoreReadObjMap store cid oid map) := by
  unfold memStoreReadObjMap
  simp only [lockColls_run h, pthreadMutexUnlock_locked, pure_bind]
  -- no collection
  refine Ends.ite (Ends.pure rfl) ?_
  apply lockFree_bind (lockFree_deref _) fun cnode => ?_
  -- no object
  refine Ends.ite (Ends.pure rfl) ?_
  apply lockFree_bind (lockFree_deref _) fun onode => ?_
  apply lockFree_bind (osMapUpdate_lockFree _ _) fun updated => ?_
  exact lockFree_bind (lockFree_assert _) fun _ => Ends.pure rfl

theorem memStoreReadObjMapKey_turns (h : store.lock.held = false) (cid : OsCollId)
    (oid key : CString) :
    Turns store (fun r => r.2.2.2) (memStoreReadObjMapKey store cid oid key) := by
  unfold memStoreReadObjMapKey
  simp only [lockColls_run h, pthreadMutexUnlock_locked, pure_bind]
  -- no collection
  refine Ends.ite (Ends.pure rfl) ?_
  apply lockFree_bind (lockFree_deref _) fun cnode => ?_
  -- no object
  refine Ends.ite (Ends.pure rfl) ?_
  apply lockFree_bind (lockFree_deref _) fun onode => ?_
  -- no key
  refine Ends.ite (Ends.pure rfl) ?_
  apply lockFree_bind (lockFree_deref _) fun mapNode => ?_
  exact lockFree_bind (memStoreCopyValue_lockFree _) fun copied => Ends.pure rfl

-- ============================================================ the balance

/-- Under a lock that is held already a call does not return. -/
theorem lockHeld_ensures {α : Type} {P : α → Prop} (h : store.lock.held = true)
    (rest : MemStore → Prog Allocs α) : Ensures (pthreadMutexLock store >>= rest) P := by
  rw [pthreadMutexLock_held h, fault_bind]
  exact ensures_fault _

theorem Balanced.of {α : Type} {left : α → MemStore} {call : Prog Allocs α}
    {marked : (MemStore → Prog Allocs Unit) → Prog Allocs α}
    (hheld : store.lock.held = true → Ensures call fun _ => False)
    (hfree : store.lock.held = false → Turns store left call)
    (hmarked : ∀ touch, Unnoticed touch → marked touch = call) :
    Balanced store left call marked where
  turned := by
    intro r s s' hrun
    cases h : store.lock.held with
    | true => exact (hheld h s r s' hrun).elim
    | false => exact (hfree h).ensures s r s' hrun
  misuse := fun h => (hfree h).avoids
  unmarked := hmarked untouched untouched_unnoticed
  guarded := hmarked CephInC.guarded guarded_unnoticed

/-- All eight calls keep the lock balanced, on every store. -/
theorem store_lockBalanced (store : MemStore) : LockBalanced store where
  submitTran tran := .of (fun h => lockHeld_ensures h _)
    (fun h => memStoreSubmitTran_turns h tran) (fun _ ht => memStoreSubmitTran_with ht tran)
  readObj cid oid offset length := .of
    (fun h => ensures_assert fun _ => lockHeld_ensures h _)
    (fun h => memStoreReadObj_turns h cid oid offset length)
    (fun _ ht => memStoreReadObj_with ht cid oid offset length)
  listColl := .of (fun h => lockHeld_ensures h _) memStoreListColl_turns
    (fun _ ht => memStoreListColl_with ht)
  existColl cid := .of (fun h => lockHeld_ensures h _)
    (fun h => memStoreExistColl_turns h cid) (fun _ ht => memStoreExistColl_with ht cid)
  readCollMap cid map := .of (fun h => lockHeld_ensures h _)
    (fun h => memStoreReadCollMap_turns h cid map)
    (fun _ ht => memStoreReadCollMap_with ht cid map)
  readCollMapKey cid key := .of (fun h => lockHeld_ensures h _)
    (fun h => memStoreReadCollMapKey_turns h cid key)
    (fun _ ht => memStoreReadCollMapKey_with ht cid key)
  readObjMap cid oid map := .of (fun h => lockHeld_ensures h _)
    (fun h => memStoreReadObjMap_turns h cid oid map)
    (fun _ ht => memStoreReadObjMap_with ht cid oid map)
  readObjMapKey cid oid key := .of (fun h => lockHeld_ensures h _)
    (fun h => memStoreReadObjMapKey_turns h cid oid key)
    (fun _ ht => memStoreReadObjMapKey_with ht cid oid key)

end

end CephInC
