/-
What a failed transaction leaves.

`cceph_mem_store_submit_tran` stops at the first op that fails and undoes
nothing: its log line counts the ops done. So the store a failed
transaction leaves is the one its first ops leave, those before the op
that failed; that op itself changed nothing. Only a transaction whose
first op fails leaves the store as it was.
-/
import CephInC.Os.Proofs.Submit

namespace CephInC

open Lib

/-- The transaction of the first `k` ops. -/
def OsTran.take (tran : OsTran) (k : Nat) : OsTran :=
  { tran with opBufferIndex := Int32.ofNat k }

theorem osTranGetOp_take {tran : OsTran} {k i : Nat} (hk : k < 2 ^ 31)
    (hkc : (k : Int) ≤ tran.opBufferIndex.toInt) (hi : i < k) :
    osTranGetOp (tran.take k) i = osTranGetOp tran i := by
  have hindex : (tran.take k).opBufferIndex.toInt = k :=
    Int32.toInt_ofNat_of_lt hk
  unfold osTranGetOp
  rw [hindex, if_neg (by omega), if_neg (by omega)]
  rfl

theorem count_take {tran : OsTran} {k : Nat} (hk : k < 2 ^ 31) :
    (tran.take k).count = k := by
  show (Int32.ofNat k).toInt.toNat = k
  rw [Int32.toInt_ofNat_of_lt hk]
  rfl

/-- Over the first ops, the loop does not see how many more there are. -/
theorem memStoreSubmitTranLoop_take {tran : OsTran} {k : Nat}
    (hk : k < 2 ^ 31) (hkc : (k : Int) ≤ tran.opBufferIndex.toInt) :
    ∀ (left i : Nat) (store : MemStore), i + left ≤ k →
      memStoreSubmitTranLoop (tran.take k) left i store
        = memStoreSubmitTranLoop tran left i store
  | 0, _, _, _ => rfl
  | left + 1, i, store, hle => by
      unfold memStoreSubmitTranLoop
      rw [osTranGetOp_take hk hkc (by omega)]
      simp only [memStoreSubmitTranLoop_take hk hkc left (i + 1) _
        (show i + 1 + left ≤ k by omega)]

/-- The op that ended a loop, and the loop up to it. -/
theorem memStoreSubmitTranLoop_failed (tran : OsTran) :
    ∀ (left i : Nat) (store : MemStore) {store' : MemStore} {ret : Int}
      {s : Allocs}, CollsOk store.colls → store.lock.held = true →
      memStoreSubmitTranLoop tran left i store .plenty
        = .ok ((ret, store'), s) →
      ret ≠ CCEPH_OK →
      ∃ done op, done < left
        ∧ osTranGetOp tran (i + done) = .ok (some op)
        ∧ memStoreSubmitTranLoop tran done i store .plenty
            = .ok ((CCEPH_OK, store'), .plenty)
        ∧ memStoreDoOp store'.colls (some op) .plenty
            = .ok ((ret, store'.colls), .plenty)
  | 0, _, _, _, _, _, _, _, hrun, hret => by
      unfold memStoreSubmitTranLoop at hrun
      cases hrun
      exact absurd rfl hret
  | left + 1, i, store, store', ret, s, h, hlock, hrun, hret => by
      unfold memStoreSubmitTranLoop at hrun
      obtain ⟨slot, s₁, hget, hrun⟩ := bind_eq_ok hrun
      rw [memStoreColls_run hlock, pure_bind] at hrun
      obtain ⟨⟨ret₁, colls₁⟩, s₂, hop, hrun⟩ := bind_eq_ok hrun
      -- the slot is filled, and reading it asks for no memory
      cases hslot : osTranGetOp tran i with
      | error e =>
          rw [hslot] at hget
          cases hget
      | ok slot' =>
          rw [hslot] at hget
          cases hget
          cases slot with
          | none => cases hop
          | some op =>
              have hrefines := memStoreDoOp_refines h op
              rw [hop] at hrefines
              obtain ⟨rfl, hok, -, hsame⟩ := hrefines
              by_cases hret₁ : ret₁ = CCEPH_OK
              · subst hret₁
                simp only [ne_eq, not_true_eq_false, if_false] at hrun
                obtain ⟨done, op', hlt, hget', hloop, hfail⟩ :=
                  memStoreSubmitTranLoop_failed tran left (i + 1)
                    { store with colls := colls₁ } hok hlock hrun hret
                refine ⟨done + 1, op', by omega, ?_, ?_, hfail⟩
                · rw [show i + (done + 1) = i + 1 + done by omega]
                  exact hget'
                · unfold memStoreSubmitTranLoop
                  rw [hslot, bind_ok (lift_ok ..), memStoreColls_run hlock,
                    pure_bind, bind_ok hop]
                  exact hloop
              · simp only [ne_eq, hret₁, not_false_eq_true, if_true] at hrun
                cases hrun
                have hcolls := hsame hret
                subst hcolls
                exact ⟨0, op, by omega, hslot, rfl, hop⟩

/-- A transaction that fails leaves the store its first `k` ops leave,
each of which succeeded; op `k` failed and changed nothing. -/
theorem memStoreSubmitTran_failed {store store' : MemStore} {tran : OsTran}
    {ret : Int} {s : Allocs} (h : Reachable store)
    (hrun : memStoreSubmitTran store tran .plenty = .ok ((ret, store'), s))
    (hret : ret ≠ CCEPH_OK) :
    ∃ (k : Nat) (op : OsTranOp), (k : Int) < tran.opBufferIndex.toInt
      ∧ osTranGetOp tran k = .ok (some op)
      ∧ memStoreSubmitTran store (tran.take k) .plenty
          = .ok ((CCEPH_OK, store'), .plenty)
      ∧ memStoreDoOp store'.colls (some op) .plenty
          = .ok ((ret, store'.colls), .plenty)
      ∧ (k = 0 → store'.colls = store.colls) := by
  have hok := h.ok
  unfold memStoreSubmitTran at hrun
  rw [pthreadMutexLock_run hok.unlocked, pure_bind] at hrun
  obtain ⟨⟨ret₁, store₁⟩, s₁, hloop, hrun⟩ := bind_eq_ok hrun
  have hrefines := memStoreSubmitTranLoop_refines tran tran.count 0
    store.locked hok.colls rfl
  have hheld : store₁.lock.held = true := by
    rw [show memStoreSubmitTranLoop tran tran.count 0 store.locked .plenty
      = _ from hloop] at hrefines
    exact hrefines.2.2.1
  simp only [pthreadMutexUnlock_run hheld, pure_bind] at hrun
  cases hrun
  obtain ⟨k, op, hlt, hget, hdone, hfail⟩ :=
    memStoreSubmitTranLoop_failed tran _ 0 store.locked hok.colls rfl hloop
      hret
  rw [Nat.zero_add] at hget
  have hb := int32_bounds tran.opBufferIndex
  have hcount : (k : Int) < tran.opBufferIndex.toInt := by
    have : k < tran.opBufferIndex.toInt.toNat := hlt
    omega
  refine ⟨k, op, hcount, hget, ?_, hfail, ?_⟩
  · unfold memStoreSubmitTran
    rw [pthreadMutexLock_run hok.unlocked, pure_bind,
      show (osTranGetOpCount (tran.take k)).toInt.toNat = k from
        count_take (by omega),
      memStoreSubmitTranLoop_take (by omega) (by omega) k 0 _ (by omega),
      bind_ok hdone]
    simp only [pthreadMutexUnlock_run hheld, pure_bind]
    rfl
  · intro hk
    subst hk
    unfold memStoreSubmitTranLoop at hdone
    cases hdone
    rfl

/-- An op slot as `calloc` would give it. -/
def zeroSlot : OsTranOp := ⟨0, .noop, 0, none, 0, 0, none, none⟩

/-- The object id of the runs of the witnesses. -/
def nameA : CString := ⟨[97], by decide⟩

/-- An op that creates collection 1. -/
def createOne : OsTranOp := osTranCollCreate zeroSlot 1 0

/-- The transaction that creates it twice. -/
def createTwice : OsTran := ⟨[createOne, createOne], 8, 2⟩

/-- The trees that hold it and nothing else. -/
def onlyOne : BinTree MemStoreCollNode :=
  .node .black .nil ⟨1, .nil, .nil⟩ .nil

/-- The store of these. -/
def storeOne : MemStore := ⟨onlyOne, ⟨false, 1, 1⟩⟩

theorem memStoreSubmitTran_createTwice :
    memStoreSubmitTran .fresh createTwice .plenty
      = .ok ((CCEPH_ERR_COLL_ALREADY_EXIST, ⟨onlyOne, ⟨false, 1, 1⟩⟩),
          .plenty) := rfl

/-- Creating a collection twice in one transaction fails, and leaves it
created. -/
theorem memStoreSubmitTran_not_atomic :
    ¬∀ (store store' : MemStore) (tran : OsTran) (ret : Int) (s : Allocs),
      Reachable store →
      memStoreSubmitTran store tran .plenty = .ok ((ret, store'), s) →
      ret ≠ CCEPH_OK → store'.view = store.view := by
  intro h
  have hview := h _ _ createTwice _ _ reachable_fresh
    memStoreSubmitTran_createTwice (by decide)
  have hone := congrFun hview 1
  cases hone

/-- What the failed transaction leaves. -/
theorem memStoreSubmitTran_failed_twice :
    ∃ (k : Nat) (op : OsTranOp), (k : Int) < createTwice.opBufferIndex.toInt
      ∧ osTranGetOp createTwice k = .ok (some op)
      ∧ memStoreSubmitTran .fresh (createTwice.take k) .plenty
          = .ok ((CCEPH_OK, ⟨onlyOne, ⟨false, 1, 1⟩⟩), .plenty)
      ∧ memStoreDoOp onlyOne (some op) .plenty
          = .ok ((CCEPH_ERR_COLL_ALREADY_EXIST, onlyOne), .plenty)
      ∧ (k = 0 → onlyOne = .nil) :=
  memStoreSubmitTran_failed reachable_fresh memStoreSubmitTran_createTwice
    (by decide)

end CephInC
