/-
Transactions and runs of transactions.

A transaction is the batch of its slots' steps, stopped at the first
that fails: `memStoreSubmitTran_refines`. What is left of the batch is
kept, so `submit_failed` says of a failed transaction which prefix of it
took effect.

`Reachable` are the stores a sequence of transactions can lead to while
memory lasts, whatever the slots hold; `Reachable.ok` is the invariant
every later statement about stores starts from.
-/
import CephInC.Os.Proofs.DoOp

namespace CephInC

open Lib

/-- A store between two calls. -/
structure StoreOk (store : MemStore) : Prop where
  colls : CollsOk store.colls
  unlocked : store.lock.held = false

/-- The store a caller sees. -/
def MemStore.view (store : MemStore) : StoreView := collsView store.colls

/-- The lock taken, by a call that finds it free. -/
def MemStore.locked (store : MemStore) : MemStore :=
  { store with lock := ⟨true, store.lock.acquired + 1, store.lock.released⟩ }

/-- The lock given back. -/
def MemStore.unlocked (store : MemStore) : MemStore :=
  { store with lock := ⟨false, store.lock.acquired, store.lock.released + 1⟩ }

theorem pthreadMutexLock_run {σ : Type} {store : MemStore}
    (h : store.lock.held = false) :
    (pthreadMutexLock store : Prog σ MemStore) = pure store.locked := by
  unfold pthreadMutexLock
  rw [h]
  rfl

theorem pthreadMutexUnlock_run {σ : Type} {store : MemStore}
    (h : store.lock.held = true) :
    (pthreadMutexUnlock store : Prog σ MemStore) = pure store.unlocked := by
  unfold pthreadMutexUnlock
  rw [h]
  rfl

/-- What the lock guards, read and given back by the call that took
it. -/
theorem memStoreColls_locked {σ : Type} (store : MemStore) :
    (memStoreColls store.locked : Prog σ _) = pure store.locked.colls := rfl

theorem pthreadMutexUnlock_locked {σ : Type} (store : MemStore) :
    (pthreadMutexUnlock store.locked : Prog σ MemStore)
      = pure store.locked.unlocked := rfl

/-- How every reader starts: it takes the lock, then looks at what the
lock guards. -/
theorem lockColls_run {σ α : Type} {store : MemStore}
    (h : store.lock.held = false)
    (rest : MemStore → BinTree MemStoreCollNode → Prog σ α) :
    (pthreadMutexLock store >>= fun store =>
        memStoreColls store >>= rest store)
      = rest store.locked store.colls := by
  rw [pthreadMutexLock_run h, pure_bind, memStoreColls_locked, pure_bind]
  rfl

theorem memStoreColls_run {σ : Type} {store : MemStore}
    (h : store.lock.held = true) :
    (memStoreColls store : Prog σ _) = pure store.colls := by
  unfold memStoreColls
  rw [h]
  rfl

-- ======================================================== a transaction

/-- The step of slot `i` of a transaction. -/
def slotStep (tran : OsTran) (i : Nat) : Step Fault StoreView :=
  match osTranGetOp tran i with
  | .error e => .abort e
  | .ok none => .abort .assertFail
  | .ok (some op) => viewOp op

/-- How many slots a transaction runs over. -/
def OsTran.count (tran : OsTran) : Nat := (osTranGetOpCount tran).toInt.toNat

/-- The steps of a transaction. -/
def tranSteps (tran : OsTran) : List (Step Fault StoreView) :=
  (List.range' 0 tran.count).map (slotStep tran)

/-- The outcome of a transaction from the store `store`, seen through
the view as the step `f`. -/
def SubmitRefines (store : MemStore) (held : Bool) (f : Step Fault StoreView) :
    Except Fault ((Int × MemStore) × Allocs) → Prop
  | .error e => f store.view = .error e
  | .ok ((ret, store'), s) => s = .plenty ∧ CollsOk store'.colls
      ∧ store'.lock.held = held ∧ f store.view = .ok (ret, store'.view)

/-- One op of the loop, on the trees. -/
theorem memStoreDoOp_slot {colls : BinTree MemStoreCollNode}
    (h : CollsOk colls) (tran : OsTran) (i : Nat) :
    Refines colls (slotStep tran i)
      ((lift (osTranGetOp tran i) >>= memStoreDoOp colls) .plenty) := by
  unfold slotStep
  cases osTranGetOp tran i with
  | error e => rfl
  | ok slot =>
      rw [bind_ok (lift_ok ..)]
      cases slot with
      | none => rfl
      | some op => exact memStoreDoOp_refines h op

theorem memStoreSubmitTranLoop_refines (tran : OsTran) :
    ∀ (left i : Nat) (store : MemStore), CollsOk store.colls →
      store.lock.held = true →
      SubmitRefines store true
        (.seq ((List.range' i left).map (slotStep tran)))
        (memStoreSubmitTranLoop tran left i store .plenty)
  | 0, _, store, h, hlock => ⟨rfl, h, hlock, rfl⟩
  | left + 1, i, store, h, hlock => by
      have hslot := memStoreDoOp_slot h tran i
      rw [List.range'_succ, List.map_cons]
      unfold memStoreSubmitTranLoop
      rw [bind_run] at hslot
      rw [bind_run]
      cases hget : (lift (osTranGetOp tran i) : Prog Allocs _) .plenty with
      | error e =>
          rw [hget] at hslot
          unfold SubmitRefines
          simp only [Step.seq, MemStore.view]
          rw [show slotStep tran i (collsView store.colls) = .error e from hslot]
      | ok r =>
          obtain ⟨op, s⟩ := r
          rw [hget] at hslot
          simp only [memStoreColls_run hlock, pure_bind]
          rw [bind_run]
          cases hop : memStoreDoOp store.colls op s with
          | error e =>
              simp only [hop] at hslot
              unfold SubmitRefines
              simp only [Step.seq, MemStore.view]
              rw [show slotStep tran i (collsView store.colls) = .error e from
                hslot]
          | ok r' =>
              obtain ⟨⟨ret, colls⟩, s'⟩ := r'
              simp only [hop] at hslot
              obtain ⟨rfl, hok, hview, -⟩ := hslot
              by_cases hret : ret = CCEPH_OK
              · subst hret
                have ih := memStoreSubmitTranLoop_refines tran left (i + 1)
                  { store with colls } hok hlock
                simp only [ne_eq, not_true_eq_false, if_false]
                unfold SubmitRefines at ih ⊢
                simp only [Step.seq, MemStore.view, hview]
                exact ih
              · simp only [ne_eq, hret, not_false_eq_true, if_true]
                refine ⟨rfl, hok, hlock, ?_⟩
                simp only [Step.seq, MemStore.view, hview]
                exact if_neg hret

/-- A transaction is the batch of its steps. -/
theorem memStoreSubmitTran_refines {store : MemStore} (h : StoreOk store)
    (tran : OsTran) :
    SubmitRefines store false (.seq (tranSteps tran))
      (memStoreSubmitTran store tran .plenty) := by
  have hloop := memStoreSubmitTranLoop_refines tran tran.count 0
    store.locked h.colls rfl
  unfold memStoreSubmitTran
  rw [pthreadMutexLock_run h.unlocked, pure_bind, bind_run]
  rw [show (osTranGetOpCount tran).toInt.toNat = tran.count from rfl]
  cases hx : memStoreSubmitTranLoop tran tran.count 0 store.locked .plenty with
  | error e =>
      rw [hx] at hloop
      exact hloop
  | ok r =>
      obtain ⟨⟨ret, store'⟩, s⟩ := r
      rw [hx] at hloop
      obtain ⟨rfl, hok, hlock, hview⟩ := hloop
      simp only [pthreadMutexUnlock_run hlock, pure_bind]
      exact ⟨rfl, hok, rfl, hview⟩

-- ================================================================ runs

/-- The stores reachable from a new one by transactions, while memory
lasts. -/
inductive Reachable : MemStore → Prop where
  | new {store : MemStore} {s : Allocs}
      (h : memStoreNew .plenty = .ok ((CCEPH_OK, some store), s)) :
      Reachable store
  | submit {store store' : MemStore} {tran : OsTran} {ret : Int} {s : Allocs}
      (h : Reachable store)
      (hs : memStoreSubmitTran store tran .plenty = .ok ((ret, store'), s)) :
      Reachable store'

/-- The new store. -/
def MemStore.fresh : MemStore := ⟨.nil, pthreadMutexInit⟩

theorem memStoreNew_plenty :
    memStoreNew .plenty = .ok ((CCEPH_OK, some .fresh), .plenty) := rfl

theorem reachable_fresh : Reachable .fresh := .new memStoreNew_plenty

/-- A reachable store is in order. -/
theorem Reachable.ok {store : MemStore} (h : Reachable store) :
    StoreOk store := by
  induction h with
  | new h =>
      rw [memStoreNew_plenty] at h
      cases h
      exact ⟨collsOk_nil, rfl⟩
  | submit _ hs ih =>
      next store _ tran _ _ _ =>
      have hrefines := memStoreSubmitTran_refines ih tran
      rw [hs] at hrefines
      exact ⟨hrefines.2.1, hrefines.2.2.1⟩

end CephInC
