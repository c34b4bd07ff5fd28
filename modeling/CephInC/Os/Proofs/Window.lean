/-
When `cceph_mem_store_read_obj` returns the bytes it was asked for.

The code clamps an `int`: a length that is no `int` is taken modulo
2^32, and one that then is not positive stands for the length of the
object, taken modulo 2^32 as well (`memStoreReadLength_toInt`). What
comes out is at most the rest of the object, so the answer falls short
exactly where the number of bytes wanted is more than the clamps leave
(`contentRead_right_iff`).
-/
import CephInC.Os.Proofs.Partial
import CephInC.Os.Proofs.Run
import CephInC.Os.Window

namespace CephInC

open Lib

theorem narrow_toInt (n : Int64) : n.toInt32.toInt = narrow n.toInt := by
  unfold narrow
  rw [Int64.toInt_toInt32, Int32.toInt_ofInt]

theorem narrow_bounds (n : Int) : -2 ^ 31 ≤ narrow n ∧ narrow n < 2 ^ 31 :=
  int32_bounds (Int32.ofInt n)

theorem narrow_of_lt {n : Int} (h : -2 ^ 31 ≤ n) (h' : n < 2 ^ 31) : narrow n = n := by
  unfold narrow
  exact Int32.toInt_ofInt_of_le h h'

/-- What is left of the lengths after the first clamp. -/
def askedLength (total length : Int) : Int :=
  if 0 < narrow length then narrow length else narrow total

/-- The read length, without widths: what was asked for, unless the rest
of the object is shorter. -/
theorem memStoreReadLength_toInt {total offset : Int64} (length : Int64)
    (h0 : 0 ≤ offset.toInt) (hlt : offset.toInt < total.toInt) :
    (memStoreReadLength total offset length).toInt
      = min (askedLength total.toInt length.toInt) (total.toInt - offset.toInt) := by
  have hbt := int64_bounds total
  have hsub : (total - offset).toInt = total.toInt - offset.toInt := by
    rw [Int64.toInt_sub, Int.bmod_def]
    split <;> omega
  have hasked : (if length.toInt32 ≤ 0 then total.toInt32 else length.toInt32).toInt
      = askedLength total.toInt length.toInt := by
    unfold askedLength
    rw [← narrow_toInt length, ← narrow_toInt total]
    by_cases hl : length.toInt32 ≤ 0
    · have hle : ¬0 < length.toInt32.toInt := Int.not_lt.mpr (Int32.le_iff_toInt_le.mp hl)
      rw [if_pos hl, if_neg hle]
    · have hpos : 0 < length.toInt32.toInt :=
        Int.not_le.mp fun h => hl (Int32.le_iff_toInt_le.mpr h)
      rw [if_neg hl, if_pos hpos]
  unfold memStoreReadLength
  simp only
  rw [← hasked]
  generalize (if length.toInt32 ≤ 0 then total.toInt32 else length.toInt32) = asked
  have hb := int32_bounds asked
  by_cases hgt : asked.toInt64 > total - offset
  · have hgt' := Int64.lt_iff_toInt_lt.mp hgt
    rw [Int32.toInt_toInt64, hsub] at hgt'
    rw [if_pos hgt, narrow_toInt, hsub, narrow_of_lt (by omega) (by omega)]
    omega
  · have hle : ¬(total - offset).toInt < asked.toInt64.toInt :=
      fun h => hgt (Int64.lt_iff_toInt_lt.mpr h)
    rw [Int32.toInt_toInt64, hsub] at hle
    rw [if_neg hgt]
    omega

/-- The clamps leave the number of bytes wanted. -/
theorem readFits_iff {total offset length : Int} (hlt : offset < total) :
    WindowFits total offset length
      ↔ min (askedLength total length) (total - offset)
        = readEnd total offset length - offset := by
  have hbl := narrow_bounds length
  have hbt := narrow_bounds total
  unfold WindowFits readEnd askedLength
  by_cases hin : 0 < length ∧ length < total - offset
  · have hend : ¬(length ≤ 0 ∨ total - offset ≤ length) := by omega
    rw [if_pos hin, if_neg hend]
    by_cases hfits : length < 2 ^ 31
    · have hsame := narrow_of_lt (n := length) (by omega) hfits
      rw [if_pos (by omega), hsame]
      omega
    · -- no clamp leaves so many bytes
      split <;> omega
  · have hend : length ≤ 0 ∨ total - offset ≤ length := by omega
    rw [if_neg hin, if_pos hend]
    omega

/-- What is returned of a content is the window exactly where it fits. -/
theorem contentRead_right_iff {content : List UInt8} {offset : Int64} (length : Int64)
    (h0 : 0 ≤ offset.toInt) (hlen : content.length < 2 ^ 63) :
    ReadRight content offset.toInt length.toInt (contentRead content offset length)
      ↔ WindowFits content.length offset.toInt length.toInt := by
  have htotal : (Int64.ofNat content.length).toInt = content.length :=
    Int64.toInt_ofNat_of_lt hlen
  unfold contentRead
  simp only
  by_cases hend : (content.length : Int) ≤ offset.toInt
  · -- nothing is left behind the offset, and nothing is returned
    have hnone : Int64.ofNat content.length = 0 ∨ Int64.ofNat content.length ≤ offset := by
      right
      rw [Int64.le_iff_toInt_le, htotal]
      exact hend
    have hempty : readEnd content.length offset.toInt length.toInt - offset.toInt ≤ 0 := by
      unfold readEnd
      split <;> omega
    rw [if_pos hnone]
    refine ⟨fun _ => .inl hend, fun _ => ⟨rfl, ?_, ?_⟩⟩
    · rw [Int.max_eq_left hempty]
      rfl
    · unfold window
      rw [Int.toNat_of_nonpos hempty]
      rfl
  · have hlt : offset.toInt < content.length := Int.not_le.mp hend
    have hsome : ¬(Int64.ofNat content.length = 0 ∨ Int64.ofNat content.length ≤ offset) := by
      rw [← Int64.toInt_inj, Int64.le_iff_toInt_le, htotal]
      have : ¬(content.length : Int) = 0 := by omega
      exact not_or.mpr ⟨this, hend⟩
    have hread := @memStoreReadLength_toInt (Int64.ofNat content.length) offset length h0
      (by rw [htotal]; exact hlt)
    rw [htotal] at hread
    rw [if_neg hsome, readFits_iff hlt, ← hread]
    generalize memStoreReadLength (Int64.ofNat content.length) offset length = r at hread ⊢
    have hwanted : 0 < readEnd content.length offset.toInt length.toInt - offset.toInt := by
      unfold readEnd
      split <;> omega
    by_cases hneg : r < 0
    · rw [if_pos hneg]
      have hneg' := Int32.lt_iff_toInt_lt.mp hneg
      constructor
      · intro h
        cases h.ret
      · intro h
        have hzero : (0 : Int32).toInt = 0 := rfl
        omega
    · rw [if_neg hneg]
      constructor
      · intro h
        have hcount := Option.some.inj h.count
        rw [Int32.toInt_toInt64] at hcount
        omega
      · intro h
        refine ⟨rfl, ?_, ?_⟩
        · show some r.toInt64.toInt = _
          rw [Int32.toInt_toInt64]
          congr 1
          omega
        · unfold window
          rw [← h]
          rfl

/-- A read of an object in a store in order. -/
theorem StoreOk.readsWindow_iff {store : MemStore} (h : StoreOk store) {cid : OsCollId}
    {oid : CString} {coll : CollView} {object : ObjectView} (hcoll : store.view cid = some coll)
    (hobject : coll.objects oid = some object) {offset : Int64} (hoff : offset ≥ 0)
    (length : Int64) :
    ReadsWindow store cid oid object.content offset length
      ↔ WindowFits object.content.length offset.toInt length.toInt := by
  have h0 : 0 ≤ offset.toInt := Int64.le_iff_toInt_le.mp hoff
  have hlen := h.content_length hcoll hobject
  have hspec := memStoreReadObj_spec h cid oid hoff length
  have hread : objRead store.view cid oid offset length
      = contentRead object.content offset length := by
    unfold objRead
    simp only [hcoll, hobject]
  rw [hread] at hspec
  rw [← contentRead_right_iff length h0 hlen]
  unfold ReadsWindow
  constructor
  · intro hright
    obtain ⟨ret, resultLength, resultData, store', s, hrun, hright⟩ := hright
    rw [hspec] at hrun
    cases hrun
    exact hright
  · exact fun hright => ⟨_, _, _, _, _, hspec, hright⟩

-- ======================================================= the main result

/-- Collection 1, and in it this object and nothing else. -/
def oneObject (onode : MemStoreObjectNode) : MemStoreCollNode :=
  ⟨1, .node .black .nil onode .nil, .nil⟩

theorem reachable_storeOne : Reachable storeOne := by
  have hcreate : memStoreSubmitTran .fresh (oneOp createOne) .plenty
      = .ok ((CCEPH_OK, storeOne), .plenty) := rfl
  exact reachable_fresh.submit hcreate

end CephInC
