/-
The memory store is linearizable.

Left alone, a task does what the function does (`storeTask_run`); and it
is one section under the lock (`storeTask_guarded`). The general theorem
then orders the calls of any number of threads
(`memStore_linearizable`).
-/
import CephInC.Os.Proofs.Submit
import CephInC.Os.StoreCalls

namespace CephInC

open Lib

-- ====================================================== a task, left alone

/-- A task as a function on the store. -/
def taskProg {α : Type} (t : StoreTask α) (store : MemStore) : Prog Allocs (α × MemStore) :=
  t.prog storeLock store

section
variable {α β γ : Type} {store : MemStore}

theorem taskProg_bind (t : StoreTask α) (k : α → StoreTask β) :
    taskProg (t >>= k) store = taskProg t store >>= fun r => taskProg (k r.1) r.2 :=
  Task.prog_bind t k store

theorem taskProg_malloc (size : Nat) :
    taskProg (storeMalloc size) store = malloc size >>= fun a => pure (a, store) :=
  Task.prog_own (malloc size) store

theorem taskProg_say (l : LogLine) :
    taskProg (storeSay l) store = lift (log l) >>= fun a => pure (a, store) :=
  Task.prog_own (lift (log l)) store

theorem taskProg_look (h : store.lock.held = true) (p : BinTree MemStoreCollNode → Prog Allocs α) :
    taskProg (storeLook p) store = p store.colls >>= fun a => pure (a, store) := by
  funext s
  rw [bind_run]
  unfold taskProg Task.prog storeLook
  rw [Task.run_look, memStoreColls_run h, pure_bind]
  cases p store.colls s with
  | error e => rfl
  | ok r => rfl

theorem taskProg_change (h : store.lock.held = true)
    (p : BinTree MemStoreCollNode → Prog Allocs (Int × BinTree MemStoreCollNode)) :
    taskProg (storeChange p) store
      = p store.colls >>= fun r => pure (r.1, { store with colls := r.2 }) := by
  funext s
  rw [bind_run]
  unfold taskProg Task.prog storeChange
  rw [Task.run_look, memStoreColls_run h, pure_bind]
  cases p store.colls s with
  | error e => rfl
  | ok r => rfl

theorem taskProg_return (h : store.lock.held = true) (answer : StoreAnswer) :
    taskProg (storeReturn answer) store = pure (answer, store.unlocked) := by
  funext s
  show Except.map _ ((pthreadMutexUnlock store s).bind _) = _
  rw [pthreadMutexUnlock_run h]
  rfl

/-- The rest of the task, under the lock, is the rest of the function,
whose result `f` turns into an answer. -/
def RestOf (store : MemStore) (f : γ → StoreAnswer × MemStore) (t : StoreTask StoreAnswer)
    (x : Prog Allocs γ) : Prop :=
  taskProg t store.locked = x >>= fun r => pure (f r)

namespace RestOf

variable {f : γ → StoreAnswer × MemStore}

theorem look {p : BinTree MemStoreCollNode → Prog Allocs α} {x : Prog Allocs α}
    {k : α → StoreTask StoreAnswer} {k' : α → Prog Allocs γ} (hp : p store.colls = x)
    (h : ∀ a, RestOf store f (k a) (k' a)) : RestOf store f (storeLook p >>= k) (x >>= k') := by
  subst hp
  unfold RestOf
  rw [taskProg_bind, taskProg_look rfl, bind_assoc, bind_assoc]
  exact bind_congr fun a => h a

/-- What is read is there. -/
theorem look_ok {p : BinTree MemStoreCollNode → Prog Allocs α} {a : α}
    {k : α → StoreTask StoreAnswer} {x : Prog Allocs γ} (hp : p store.colls = pure a)
    (h : RestOf store f (k a) x) : RestOf store f (storeLook p >>= k) x := by
  unfold RestOf
  rw [taskProg_bind, taskProg_look rfl, show p store.locked.colls = pure a from hp, pure_bind,
    pure_bind]
  exact h

/-- What is read is not there. -/
theorem look_none {p : BinTree MemStoreCollNode → Prog Allocs α} {e : Fault}
    {k : α → StoreTask StoreAnswer} (hp : p store.colls = fault e) :
    RestOf store f (storeLook p >>= k) (fault e) := by
  unfold RestOf
  rw [taskProg_bind, taskProg_look rfl, show p store.locked.colls = fault e from hp]
  simp only [fault_bind]

theorem peek {g : BinTree MemStoreCollNode → α} {k : α → StoreTask StoreAnswer} {x : Prog Allocs γ}
    (h : RestOf store f (k (g store.colls)) x) :
    RestOf store f (storeLook (fun colls => pure (g colls)) >>= k) x := look_ok rfl h

/-- A read that may leave its block. -/
theorem look_unless {p : BinTree MemStoreCollNode → Prop} [DecidablePred p]
    {g : BinTree MemStoreCollNode → α} {e : Fault} {k : α → StoreTask StoreAnswer}
    {k' : Unit → Prog Allocs γ} (h : RestOf store f (k (g store.colls)) (k' ())) :
    RestOf store f
      (storeLook (fun colls => if p colls then fault e >>= fun _ : Unit => pure (g colls)
        else pure (g colls)) >>= k)
      (if p store.colls then fault e >>= k' else k' ()) := by
  unfold RestOf
  rw [taskProg_bind, taskProg_look rfl]
  by_cases hp : p store.colls
  · rw [if_pos (show p store.locked.colls from hp), if_pos hp]
    simp only [fault_bind]
  · rw [if_neg (show ¬p store.locked.colls from hp), if_neg hp]
    exact h

theorem malloc {size : Nat} {k : Bool → StoreTask StoreAnswer} {k' : Bool → Prog Allocs γ}
    (h : ∀ a, RestOf store f (k a) (k' a)) :
    RestOf store f (storeMalloc size >>= k) (CephInC.malloc size >>= k') := by
  unfold RestOf
  rw [taskProg_bind, taskProg_malloc, bind_assoc, bind_assoc]
  exact bind_congr fun a => h a

theorem say {l : LogLine} {k : Unit → StoreTask StoreAnswer} {k' : Unit → Prog Allocs γ}
    (h : RestOf store f (k ()) (k' ())) :
    RestOf store f (storeSay l >>= k) (lift (log l) >>= k') := by
  unfold RestOf
  rw [taskProg_bind, taskProg_say, bind_assoc, bind_assoc]
  exact bind_congr fun _ => h

theorem ite {p : Prop} [Decidable p] {t t' : StoreTask StoreAnswer} {x x' : Prog Allocs γ}
    (h : RestOf store f t x) (h' : RestOf store f t' x') :
    RestOf store f (if p then t else t') (if p then x else x') := by
  by_cases hp : p
  · rw [if_pos hp, if_pos hp]
    exact h
  · rw [if_neg hp, if_neg hp]
    exact h'

theorem ends {answer : StoreAnswer} {r : γ} (h : f r = (answer, store.locked.unlocked)) :
    RestOf store f (storeReturn answer) (pure r) := by
  unfold RestOf
  rw [taskProg_return rfl, pure_bind, h]

end RestOf

end

-- ================================================================= places

section
variable {colls : BinTree MemStoreCollNode} {cid : OsCollId} {oid key : CString}

theorem cnodeAt_eq {ret : Int} {found : Option (Loc MemStoreCollNode)}
    (h : memStoreCollNodeMapSearch colls cid = (ret, found)) :
    cnodeAt colls cid = deref found := by
  unfold cnodeAt
  rw [h]

theorem onodeAt_eq {cnode : Loc MemStoreCollNode} {ret : Int}
    {found : Option (Loc MemStoreObjectNode)} (hc : cnodeAt colls cid = pure cnode)
    (h : memStoreObjectNodeMapSearch cnode.data.objects oid = (ret, found)) :
    onodeAt colls cid oid = deref found := by
  unfold onodeAt
  rw [hc, pure_bind, h]

theorem collKeyAt_eq {cnode : Loc MemStoreCollNode} {mapNode : Loc OsMapNode} {ret : Int}
    (hc : cnodeAt colls cid = pure cnode)
    (h : osMapNodeSearch cnode.data.map key = (ret, some mapNode)) :
    collKeyAt colls cid key = pure mapNode.data := by
  unfold collKeyAt
  rw [hc, pure_bind, h, deref_some, pure_bind]

theorem objKeyAt_eq {onode : Loc MemStoreObjectNode} {mapNode : Loc OsMapNode} {ret : Int}
    (ho : onodeAt colls cid oid = pure onode)
    (h : osMapNodeSearch onode.data.map key = (ret, some mapNode)) :
    objKeyAt colls cid oid key = pure mapNode.data := by
  unfold objKeyAt
  rw [ho, pure_bind, h, deref_some, pure_bind]

end

-- ============================================================ the readers

/-- The trees, where the lock was taken before. -/
theorem lockedColls_run {α : Type} (store : MemStore)
    (rest : BinTree MemStoreCollNode → Prog Allocs α) :
    memStoreColls store.locked >>= rest = rest store.colls := rfl

section
variable {store : MemStore} (h : store.lock.held = false)
include h

theorem readObjTask_run (cid : OsCollId) (oid : CString) (offset length logId : Int64) :
    (assert (offset ≥ 0) >>= fun _ =>
      taskProg (readObjTask cid oid offset length logId) store.locked)
      = storeCall store (.readObj cid oid offset length logId) := by
  show _ = memStoreReadObjLogged log logId store cid oid offset length >>= fun r =>
    pure (_, r.2.2.2)
  unfold memStoreReadObjLogged
  rw [bind_assoc]
  refine bind_congr fun _ => ?_
  rw [pthreadMutexLock_run h, pure_bind]
  refine RestOf.say ?_
  rw [lockedColls_run]
  refine RestOf.peek ?_
  generalize hc : memStoreCollNodeMapSearch store.colls cid = found
  obtain ⟨ret, cnode⟩ := found
  refine .ite (.ends rfl) ?_
  cases cnode with
  | none => exact .look_none (by rw [cnodeAt_eq hc, deref_none, fault_bind])
  | some cnode =>
      have hcnode := cnodeAt_eq hc
      rw [deref_some] at hcnode
      refine .look_ok (by rw [hcnode, pure_bind]) ?_
      rw [deref_some, pure_bind]
      generalize ho : memStoreObjectNodeMapSearch cnode.data.objects oid = found
      obtain ⟨ret, onode⟩ := found
      refine .ite (.say (.ends rfl)) ?_
      cases onode with
      | none => exact .look_none (by rw [onodeAt_eq hcnode ho, deref_none, fault_bind])
      | some onode =>
          have honode := onodeAt_eq hcnode ho
          rw [deref_some] at honode
          refine .look_ok (by rw [honode, pure_bind]) ?_
          rw [deref_some, pure_bind]
          refine .ite (.ends rfl) (.malloc fun ok => .ite (.ends rfl) ?_)
          exact .look (by rw [honode, pure_bind]) fun block => .ends rfl

theorem listCollTask_run :
    taskProg listCollTask store.locked = storeCall store .listColl := by
  show _ = memStoreListColl store >>= fun r => pure (_, r.2.2.2)
  unfold memStoreListColl
  rw [lockColls_run h]
  refine RestOf.peek (.malloc fun ok => .ite (.ends rfl) ?_)
  -- the second walk, which writes the block
  refine .look_unless ?_
  exact .ends rfl

theorem existCollTask_run (cid : OsCollId) :
    taskProg (existCollTask cid) store.locked = storeCall store (.existColl cid) := by
  show _ = memStoreExistColl store cid >>= fun r => pure (_, r.2.2)
  unfold memStoreExistColl
  rw [lockColls_run h]
  refine RestOf.peek ?_
  obtain ⟨ret, cnode⟩ := memStoreCollNodeMapSearch store.colls cid
  exact .ends rfl

omit h in
theorem updateMapTask_rest (map : BinTree OsMapNode) {found : BinTree OsMapNode}
    {stored : BinTree MemStoreCollNode → Prog Allocs (BinTree OsMapNode)}
    (hstored : stored store.colls = pure found) :
    RestOf store (fun r => (.attrs r.1 r.2.1, r.2.2)) (updateMapTask map stored) (do
      let (ret, map) ← osMapUpdate map found
      assert (ret = CCEPH_OK)
      return (ret, map, ← pthreadMutexUnlock store.locked)) := by
  unfold RestOf updateMapTask
  rw [taskProg_bind, taskProg_look rfl, show stored store.locked.colls = pure found from hstored,
    pure_bind, bind_assoc, bind_assoc, bind_assoc]
  refine bind_congr fun r => ?_
  obtain ⟨ret, map⟩ := r
  show (assert (ret = CCEPH_OK) >>= fun _ => pure (ret, map)) >>= _
    = (assert (ret = CCEPH_OK) >>= _) >>= _
  rw [bind_assoc, bind_assoc]
  refine bind_congr fun _ => ?_
  have hheld : store.locked.lock.held = true := rfl
  exact taskProg_return hheld _

omit h in
theorem updateMapTask_none {γ : Type} {f : γ → StoreAnswer × MemStore} (map : BinTree OsMapNode)
    {stored : BinTree MemStoreCollNode → Prog Allocs (BinTree OsMapNode)} {e : Fault}
    (hstored : stored store.colls = fault e) :
    RestOf store f (updateMapTask map stored) (fault e) :=
  RestOf.look_none (by rw [hstored, fault_bind])

theorem readCollMapTask_run (cid : OsCollId) (map : BinTree OsMapNode) :
    taskProg (readCollMapTask cid map) store.locked = storeCall store (.readCollMap cid map) := by
  show _ = memStoreReadCollMap store cid map >>= fun r => pure (_, r.2.2)
  unfold memStoreReadCollMap
  rw [lockColls_run h]
  refine RestOf.peek ?_
  generalize hc : memStoreCollNodeMapSearch store.colls cid = found
  obtain ⟨ret, cnode⟩ := found
  refine .ite (.ends rfl) ?_
  cases cnode with
  | none => exact updateMapTask_none map (by rw [cnodeAt_eq hc, deref_none, fault_bind])
  | some cnode =>
      rw [deref_some, pure_bind]
      exact updateMapTask_rest map (by rw [cnodeAt_eq hc, deref_some, pure_bind])

omit h in
theorem copyValueTask_rest {mapNode : OsMapNode}
    {stored : BinTree MemStoreCollNode → Prog Allocs OsMapNode}
    (hstored : stored store.colls = pure mapNode) :
    RestOf store (fun r => (.value r.1 r.2.1 r.2.2.1, r.2.2.2)) (copyValueTask stored) (do
      let (ret, length, value) ← memStoreCopyValue mapNode
      return (ret, length, value, ← pthreadMutexUnlock store.locked)) := by
  unfold copyValueTask memStoreCopyValue
  refine RestOf.look_ok (by rw [hstored, pure_bind]) ?_
  show RestOf store _ _ ((malloc _ >>= _) >>= _)
  rw [bind_assoc]
  refine .malloc fun ok => ?_
  cases ok with
  | false => exact .ends rfl
  | true =>
      show RestOf store _ _ ((memcpy _ _ _ _ >>= _) >>= _)
      rw [bind_assoc]
      exact .look (by rw [hstored, pure_bind]) fun block => .ends rfl

omit h in
theorem copyValueTask_none {γ : Type} {f : γ → StoreAnswer × MemStore}
    {stored : BinTree MemStoreCollNode → Prog Allocs OsMapNode} {e : Fault}
    (hstored : stored store.colls = fault e) :
    RestOf store f (copyValueTask stored) (fault e) :=
  RestOf.look_none (by rw [hstored, fault_bind])

theorem readCollMapKeyTask_run (cid : OsCollId) (key : CString) (logId : Int64) :
    taskProg (readCollMapKeyTask cid key logId) store.locked
      = storeCall store (.readCollMapKey cid key logId) := by
  show _ = memStoreReadCollMapKeyLogged log logId store cid key >>= fun r => pure (_, r.2.2.2)
  unfold memStoreReadCollMapKeyLogged
  rw [lockColls_run h]
  refine RestOf.peek ?_
  generalize hc : memStoreCollNodeMapSearch store.colls cid = found
  obtain ⟨ret, cnode⟩ := found
  refine .ite (.ends rfl) ?_
  cases cnode with
  | none => exact .look_none (by rw [cnodeAt_eq hc, deref_none, fault_bind])
  | some cnode =>
      have hcnode := cnodeAt_eq hc
      rw [deref_some] at hcnode
      refine .look_ok (by rw [hcnode, pure_bind]) ?_
      rw [deref_some, pure_bind]
      generalize hk : osMapNodeSearch cnode.data.map key = found
      obtain ⟨ret, mapNode⟩ := found
      refine .ite (.say (.ends rfl)) ?_
      cases mapNode with
      | none =>
          have hnone : collKeyAt store.colls cid key = fault .nullDeref := by
            unfold collKeyAt
            rw [hcnode, pure_bind, hk, deref_none, fault_bind]
          exact copyValueTask_none hnone
      | some mapNode =>
          rw [deref_some, pure_bind]
          exact copyValueTask_rest (collKeyAt_eq hcnode hk)

theorem readObjMapTask_run (cid : OsCollId) (oid : CString) (map : BinTree OsMapNode)
    (logId : Int64) :
    taskProg (readObjMapTask cid oid map logId) store.locked
      = storeCall store (.readObjMap cid oid map logId) := by
  show _ = memStoreReadObjMapLogged log logId store cid oid map >>= fun r => pure (_, r.2.2)
  unfold memStoreReadObjMapLogged
  rw [pthreadMutexLock_run h, pure_bind]
  refine RestOf.say ?_
  rw [lockedColls_run]
  refine RestOf.peek ?_
  generalize hc : memStoreCollNodeMapSearch store.colls cid = found
  obtain ⟨ret, cnode⟩ := found
  refine .ite (.ends rfl) ?_
  cases cnode with
  | none => exact .look_none (by rw [cnodeAt_eq hc, deref_none, fault_bind])
  | some cnode =>
      have hcnode := cnodeAt_eq hc
      rw [deref_some] at hcnode
      refine .look_ok (by rw [hcnode, pure_bind]) ?_
      rw [deref_some, pure_bind]
      generalize ho : memStoreObjectNodeMapSearch cnode.data.objects oid = found
      obtain ⟨ret, onode⟩ := found
      refine .ite (.say (.ends rfl)) ?_
      cases onode with
      | none =>
          exact updateMapTask_none map (by rw [onodeAt_eq hcnode ho, deref_none, fault_bind])
      | some onode =>
          rw [deref_some, pure_bind]
          exact updateMapTask_rest map (by rw [onodeAt_eq hcnode ho, deref_some, pure_bind])

theorem readObjMapKeyTask_run (cid : OsCollId) (oid key : CString) (logId : Int64) :
    taskProg (readObjMapKeyTask cid oid key logId) store.locked
      = storeCall store (.readObjMapKey cid oid key logId) := by
  show _ = memStoreReadObjMapKeyLogged log logId store cid oid key >>= fun r => pure (_, r.2.2.2)
  unfold memStoreReadObjMapKeyLogged
  rw [pthreadMutexLock_run h, pure_bind]
  refine RestOf.say ?_
  rw [lockedColls_run]
  refine RestOf.peek ?_
  generalize hc : memStoreCollNodeMapSearch store.colls cid = found
  obtain ⟨ret, cnode⟩ := found
  refine .ite (.ends rfl) ?_
  cases cnode with
  | none => exact .look_none (by rw [cnodeAt_eq hc, deref_none, fault_bind])
  | some cnode =>
      have hcnode := cnodeAt_eq hc
      rw [deref_some] at hcnode
      refine .look_ok (by rw [hcnode, pure_bind]) ?_
      rw [deref_some, pure_bind]
      generalize ho : memStoreObjectNodeMapSearch cnode.data.objects oid = found
      obtain ⟨ret, onode⟩ := found
      refine .ite (.say (.ends rfl)) ?_
      cases onode with
      | none => exact .look_none (by rw [onodeAt_eq hcnode ho, deref_none, fault_bind])
      | some onode =>
          have honode := onodeAt_eq hcnode ho
          rw [deref_some] at honode
          refine .look_ok (by rw [honode, pure_bind]) ?_
          rw [deref_some, pure_bind]
          generalize hk : osMapNodeSearch onode.data.map key = found
          obtain ⟨ret, mapNode⟩ := found
          refine .ite (.say (.ends rfl)) ?_
          cases mapNode with
          | none =>
              have hnone : objKeyAt store.colls cid oid key = fault .nullDeref := by
                unfold objKeyAt
                rw [honode, pure_bind, hk, deref_none, fault_bind]
              exact copyValueTask_none hnone
          | some mapNode =>
              rw [deref_some, pure_bind]
              exact copyValueTask_rest (objKeyAt_eq honode hk)

end

-- ======================================================== the transaction

theorem submitTranTask_run (tran : OsTran) (logId : Int64) : ∀ (left i : Nat) {store : MemStore},
    store.lock.held = true →
    taskProg (submitTranTask tran logId left i) store
      = memStoreSubmitTranLoopLogged log logId tran left i store >>= fun r =>
          pthreadMutexUnlock r.2 >>= fun store => pure (.code r.1, store)
  | 0, _, store, h => by
      unfold submitTranTask memStoreSubmitTranLoopLogged
      rw [taskProg_return h, pure_bind, pthreadMutexUnlock_run h, pure_bind]
  | left + 1, i, store, h => by
      unfold submitTranTask memStoreSubmitTranLoopLogged
      rw [taskProg_bind, taskProg_change h, bind_assoc, bind_assoc, bind_assoc]
      refine bind_congr fun op => ?_
      rw [memStoreColls_run h, pure_bind, bind_assoc]
      refine bind_congr fun r => ?_
      obtain ⟨ret, colls⟩ := r
      rw [pure_bind]
      have hheld : ({ store with colls } : MemStore).lock.held = true := h
      by_cases hret : ret ≠ CCEPH_OK
      · simp only [if_pos hret]
        rw [taskProg_return hheld, pure_bind, pthreadMutexUnlock_run hheld, pure_bind]
      · simp only [if_neg hret]
        exact submitTranTask_run tran logId left (i + 1) hheld

-- ============================================================== all eight

/-- A task left alone does what the function does. -/
theorem storeTask_run {store : MemStore} (h : store.lock.held = false) (call : MemStoreCall) :
    taskProg (storeTask call) store = storeCall store call := by
  have htake : taskProg Task.take store = pure ((), store.locked) := by
    funext s
    show Except.map _ ((pthreadMutexLock store s).bind _) = _
    rw [pthreadMutexLock_run h]
    rfl
  have hcheck : taskProg (storeTask call) store
      = assert call.Asserts >>= fun _ => taskProg (sectionTask call) store.locked := by
    unfold storeTask Task.check
    by_cases hp : call.Asserts
    · rw [if_pos hp, assert_pos hp, pure_bind]
      show taskProg (Task.take >>= _) store = _
      rw [taskProg_bind, htake, pure_bind]
    · rw [if_neg hp, assert_neg hp, fault_bind]
      rfl
  have hnothing : ∀ {call : MemStoreCall}, call.Asserts →
      taskProg (sectionTask call) store.locked = storeCall store call →
      (assert call.Asserts >>= fun _ => taskProg (sectionTask call) store.locked)
        = storeCall store call := by
    intro call ha hrun
    rw [assert_pos ha, pure_bind, hrun]
  rw [hcheck]
  cases call with
  | submitTran tran logId =>
      refine hnothing trivial ?_
      show _ = memStoreSubmitTranLogged log logId store tran >>= fun r => pure (_, r.2)
      unfold memStoreSubmitTranLogged
      rw [pthreadMutexLock_run h, pure_bind, bind_assoc]
      refine (submitTranTask_run tran logId _ _ rfl).trans (bind_congr fun r => ?_)
      obtain ⟨ret, store'⟩ := r
      show _ = (pthreadMutexUnlock store' >>= _) >>= _
      rw [bind_assoc]
      rfl
  | readObj cid oid offset length logId => exact readObjTask_run h cid oid offset length logId
  | listColl => exact hnothing trivial (listCollTask_run h)
  | existColl cid => exact hnothing trivial (existCollTask_run h cid)
  | readCollMap cid map => exact hnothing trivial (readCollMapTask_run h cid map)
  | readCollMapKey cid key logId => exact hnothing trivial (readCollMapKeyTask_run h cid key logId)
  | readObjMap cid oid map logId => exact hnothing trivial (readObjMapTask_run h cid oid map logId)
  | readObjMapKey cid oid key logId =>
      exact hnothing trivial (readObjMapKeyTask_run h cid oid key logId)

-- ============================================================ one section

section
variable {α : Type} {k : α → StoreTask StoreAnswer}

theorem inside_look {p : BinTree MemStoreCollNode → Prog Allocs α}
    (hk : ∀ a, (k a).Inside storeLock False) : (storeLook p >>= k).Inside storeLock False := by
  refine .look (fun s a s' hheld hrun => ?_) hk
  cases hp : (memStoreColls s.1 >>= p) s.2 with
  | error e =>
      rw [hp] at hrun
      cases hrun
  | ok r =>
      rw [hp] at hrun
      cases hrun
      exact hheld

theorem inside_change {k : Int → StoreTask StoreAnswer}
    {p : BinTree MemStoreCollNode → Prog Allocs (Int × BinTree MemStoreCollNode)}
    (hk : ∀ a, (k a).Inside storeLock False) : (storeChange p >>= k).Inside storeLock False := by
  refine .look (fun s a s' hheld hrun => ?_) hk
  cases hp : (memStoreColls s.1 >>= p) s.2 with
  | error e =>
      rw [hp] at hrun
      cases hrun
  | ok r =>
      rw [hp] at hrun
      cases hrun
      exact hheld

theorem inside_malloc {size : Nat} {k : Bool → StoreTask StoreAnswer}
    (hk : ∀ a, (k a).Inside storeLock False) :
    (storeMalloc size >>= k).Inside storeLock False :=
  .own (fun _ _ _ => rfl) hk

theorem inside_say {l : LogLine} {k : Unit → StoreTask StoreAnswer}
    (hk : (k ()).Inside storeLock False) : (storeSay l >>= k).Inside storeLock False :=
  .own (fun _ _ _ => rfl) fun _ => hk

theorem inside_return (answer : StoreAnswer) : (storeReturn answer).Inside storeLock False :=
  .give answer

/-- A line said, and the end. -/
theorem inside_told (l : LogLine) (answer : StoreAnswer) :
    (storeSay l >>= fun _ => storeReturn answer).Inside storeLock False :=
  inside_say (inside_return answer)

end

theorem submitTranTask_inside (tran : OsTran) (logId : Int64) : ∀ left i : Nat,
    (submitTranTask tran logId left i).Inside storeLock False
  | 0, _ => inside_return _
  | left + 1, i => inside_change fun _ => .ite (inside_return _)
      (submitTranTask_inside tran logId left (i + 1))

theorem updateMapTask_inside (map : BinTree OsMapNode)
    (stored : BinTree MemStoreCollNode → Prog Allocs (BinTree OsMapNode)) :
    (updateMapTask map stored).Inside storeLock False :=
  inside_look fun _ => inside_return _

theorem copyValueTask_inside (stored : BinTree MemStoreCollNode → Prog Allocs OsMapNode) :
    (copyValueTask stored).Inside storeLock False :=
  inside_look fun _ => inside_malloc fun _ => .ite (inside_return _)
    (inside_look fun _ => inside_return _)

theorem sectionTask_inside (call : MemStoreCall) : (sectionTask call).Inside storeLock False := by
  cases call with
  | submitTran tran logId => exact submitTranTask_inside tran logId _ _
  | readObj cid oid offset length logId =>
      refine inside_say (inside_look fun ret => .ite (inside_return _) ?_)
      refine inside_look fun ret => .ite (inside_told _ _) ?_
      refine inside_look fun total => .ite (inside_return _) ?_
      exact inside_malloc fun _ => .ite (inside_return _)
        (inside_look fun _ => inside_return _)
  | listColl =>
      exact inside_look fun _ => inside_malloc fun _ => .ite (inside_return _)
        (inside_look fun _ => inside_return _)
  | existColl cid => exact inside_look fun _ => inside_return _
  | readCollMap cid map =>
      refine inside_look fun ret => .ite (inside_return _) ?_
      exact updateMapTask_inside _ _
  | readCollMapKey cid key logId =>
      refine inside_look fun ret => .ite (inside_return _) ?_
      refine inside_look fun ret => .ite (inside_told _ _) ?_
      exact copyValueTask_inside _
  | readObjMap cid oid map logId =>
      refine inside_say (inside_look fun ret => .ite (inside_return _) ?_)
      refine inside_look fun ret => .ite (inside_told _ _) ?_
      exact updateMapTask_inside _ _
  | readObjMapKey cid oid key logId =>
      refine inside_say (inside_look fun ret => .ite (inside_return _) ?_)
      refine inside_look fun ret => .ite (inside_told _ _) ?_
      refine inside_look fun ret => .ite (inside_told _ _) ?_
      exact copyValueTask_inside _

theorem storeTask_guarded (call : MemStoreCall) : (storeTask call).Guarded storeLock False :=
  .check (.take (sectionTask_inside call))

-- ============================================================ one by one

/-- Tasks left alone, one after the other, are the functions called one
after the other. -/
theorem runs_storeCalls : ∀ (calls : List MemStoreCall) {store : MemStore} (s : Allocs),
    store.lock.held = false →
    Task.runs storeLock storeTask calls (store, s)
      = (storeCalls calls store s).map fun r => (r.1.1, r.1.2, r.2)
  | [], store, s, _ => rfl
  | call :: calls, store, s, h => by
      have hrun : ((storeTask call).run storeLock (store, s)).map
          (fun r => ((r.1, r.2.1), r.2.2)) = storeCall store call s :=
        congrFun (storeTask_run h call) s
      have hfree : storeLock.free (store, s) = true := by
        show (!store.lock.held) = true
        rw [h]
        rfl
      unfold Task.runs storeCalls callsInTurn
      rw [bind_run, ← hrun]
      cases hx : (storeTask call).run storeLock (store, s) with
      | error e => rfl
      | ok r =>
          obtain ⟨answer, store', s'⟩ := r
          have hfree' := (storeTask_guarded call).run_free not_false hfree hx
          have hheld : store'.lock.held = false := by
            rw [← Bool.not_not store'.lock.held]
            exact congrArg not hfree'
          show (Task.runs storeLock storeTask calls (store', s')).bind _
            = Except.map _ ((storeCalls calls store' >>= _) s')
          rw [runs_storeCalls calls s' hheld, bind_run]
          cases storeCalls calls store' s' with
          | error e => rfl
          | ok rest => rfl

-- ======================================================= the main result

/-- What the threads showed, and where they left the store, is what the
calls of the list show when made one after the other. -/
structure OneByOne {τ : Type} [DecidableEq τ] (store : MemStore) (s : Allocs)
    (m : Threads τ MemStoreCall StoreAnswer (MemStore × Allocs) Fault)
    (spans : List (CallSpan τ MemStoreCall StoreAnswer)) : Prop where
  lin : Linearizes m.history spans
  runs : ∃ left : MemStore × Allocs,
    storeCalls (spans.map CallSpan.call) store s
      = .ok ((spans.map CallSpan.answer, left.1), left.2)
    ∧ (m.object.1.lock.held = false → m.object = left)
  /-- A thread that ends the process is in a call that ends it when made
  after these. -/
  fails : ∀ t e, m.Fails storeLock t e → ∃ i c, Pending m.history t i c
    ∧ (∀ o ∈ spans, o.invoked ≠ i)
    ∧ storeCalls (spans.map CallSpan.call ++ [c]) store s = .error e
  /-- While a call is under way some thread can go on. -/
  goes : ∀ t, m.running t ≠ none → ∃ t', (∃ e, m.Fails storeLock t' e)
    ∨ (∃ m', m.step storeLock storeTask (.turn t') = some m')
    ∨ ∃ m', m.step storeLock storeTask (.ret t') = some m'

theorem storeThreads_free {τ : Type} [DecidableEq τ] {store : MemStore} {s : Allocs}
    {m : Threads τ MemStoreCall StoreAnswer (MemStore × Allocs) Fault}
    (h : (storeThreads store s).Reachable m) : store.lock.held = false := by
  induction h with
  | start hinit =>
      have hfree : (!store.lock.held) = true := hinit.2
      rw [← Bool.not_not store.lock.held, hfree]
      rfl
  | next _ _ _ ih => exact ih

theorem memStore_oneByOne {τ : Type} [DecidableEq τ] {store : MemStore} {s : Allocs}
    {m : Threads τ MemStoreCall StoreAnswer (MemStore × Allocs) Fault}
    (h : (storeThreads store s).Reachable m) : ∃ spans, OneByOne store s m spans := by
  obtain ⟨spans, last, hm⟩ := linearized storeTask_guarded h
  have hruns : ∀ calls, Task.runs storeLock storeTask calls (store, s)
      = (storeCalls calls store s).map fun r => (r.1.1, r.1.2, r.2) := fun calls =>
    runs_storeCalls calls s (storeThreads_free h)
  refine ⟨spans, hm.lin, ⟨last, ?_, fun hheld => hm.left ?_⟩, fun t e hfails => ?_,
    fun t ht => some_turn storeTask_guarded not_false h ht⟩
  · have hlegal := hm.legal
    rw [hruns] at hlegal
    cases hx : storeCalls (spans.map CallSpan.call) store s with
    | error e =>
        rw [hx] at hlegal
        cases hlegal
    | ok r =>
        rw [hx] at hlegal
        obtain ⟨hanswers, hleft⟩ := Prod.mk.inj (Except.ok.inj hlegal)
        rw [← hanswers, ← hleft]
  · show (!m.object.1.lock.held) = true
    rw [hheld]
    rfl
  · obtain ⟨i, c, hp, hnew, hends, -⟩ := hm.fails t e hfails
    refine ⟨i, c, hp, hnew, ?_⟩
    rw [hruns] at hends
    cases hx : storeCalls (spans.map CallSpan.call ++ [c]) store s with
    | error e' =>
        rw [hx] at hends
        cases hends
        rfl
    | ok r =>
        rw [hx] at hends
        cases hends

/-- Whatever the threads, their calls, the interleaving and the outcomes
of the allocations. -/
theorem memStore_linearizable {τ : Type} [DecidableEq τ] {store : MemStore} {s : Allocs}
    {m : Threads τ MemStoreCall StoreAnswer (MemStore × Allocs) Fault}
    (h : (storeThreads store s).Reachable m) : ∃ spans, OneByOne store s m spans :=
  memStore_oneByOne h

/-- A thread asks for a collection while another creates it, and gets
the lock first. -/
def askWhileCreating : List (ThreadAct Bool MemStoreCall) :=
  [.call true (.submitTran (.mk [⟨1, .collCreate, 1, none, 0, 0, none, none⟩] 1 1) 1),
    .call false (.existColl 1), .turn false, .turn false, .turn false, .turn true, .turn true,
    .ret false, .turn true, .ret true]

theorem memStore_linearizable_two :
    ∃ (m : Threads Bool MemStoreCall StoreAnswer (MemStore × Allocs) Fault)
      (spans : List (CallSpan Bool MemStoreCall StoreAnswer)),
      (storeThreads .fresh .plenty).exec ⟨(.fresh, .plenty), fun _ => none, []⟩ askWhileCreating
        = some m
      ∧ m.history.length = 4 ∧ OneByOne .fresh .plenty m spans := by
  have hstart : (storeThreads .fresh .plenty).Reachable
      (⟨(.fresh, .plenty), fun _ => none, []⟩ : Threads Bool MemStoreCall StoreAnswer _ _) :=
    .start ⟨rfl, rfl⟩
  have hrun : ∃ m, (storeThreads .fresh .plenty).exec ⟨(.fresh, .plenty), fun _ => none, []⟩
      askWhileCreating = some m ∧ m.history.length = 4 := ⟨_, rfl, rfl⟩
  obtain ⟨m, hexec, hlen⟩ := hrun
  have hm := System.Reached.exec askWhileCreating (fun _ _ _ => trivial) hstart hexec
  obtain ⟨spans, hspans⟩ := memStore_linearizable hm
  exact ⟨m, spans, hexec, hlen, hspans⟩

end CephInC
