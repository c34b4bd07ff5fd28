/-
The reads of a store in order, as functions of its view.

Each read takes the lock, searches, copies, and gives the lock back, so
a store comes out of it as it went in but for the lock's counts
(`MemStore.relocked`). Given that, the answer depends on the view alone:
on which keys hold which bytes, not on the shape of the trees. For the
readers of whole maps this rests on the update loop visiting the stored
nodes in key order (`attrs_toList_eq`).
-/
import CephInC.Os.Proofs.Submit

namespace CephInC

open Lib

/-- The store after a call that changed nothing. -/
def MemStore.relocked (store : MemStore) : MemStore := store.locked.unlocked

@[simp] theorem relocked_colls (store : MemStore) :
    store.relocked.colls = store.colls := rfl

theorem StoreOk.relocked {store : MemStore} (h : StoreOk store) :
    StoreOk store.relocked := ⟨h.colls, rfl⟩

-- ===================================================== single attributes

/-- What a search for an attribute finds. -/
inductive AttrFound (map : BinTree OsMapNode) (key : CString) :
    Int × Option (Loc OsMapNode) → Prop where
  | absent (view : attrsView map key = none) :
      AttrFound map key (CCEPH_ERR_MAP_NODE_NOT_EXIST, none)
  | found (node : Loc OsMapNode) (ok : NodeOk node.data)
      (view : attrsView map key = node.data.value) :
      AttrFound map key (CCEPH_OK, some node)

theorem AttrsOk.search {map : BinTree OsMapNode} (h : AttrsOk map)
    (key : CString) : AttrFound map key (osMapNodeSearch map key) := by
  unfold osMapNodeSearch
  cases hk : mapGet OsMapNode.key map key with
  | none =>
      rw [implMapSearch_absent linearCmp_strcmp h.inOrder hk]
      refine .absent ?_
      unfold attrsView
      rw [hk]
      rfl
  | some node =>
      obtain ⟨place, hs, -, hdata, -⟩ :=
        implMapSearch_found linearCmp_strcmp h.inOrder hk
      rw [hs]
      refine .found place (hdata ▸ h.nodes key node hk) ?_
      unfold attrsView
      rw [hk, hdata]
      rfl

/-- The length of a stored value is that of its bytes. -/
theorem NodeOk.valueLength_eq {node : OsMapNode} (h : NodeOk node)
    {bytes : List UInt8} (hv : node.value = some bytes) :
    node.valueLength = Int32.ofNat bytes.length := by
  obtain ⟨bytes', hv', hlen⟩ := h.value
  rw [hv] at hv'
  cases hv'
  have hb := int32_bounds node.valueLength
  rw [← Int32.toInt_inj, Int32.toInt_ofNat_of_lt (by omega)]
  omega

/-- A stored value is copied whole. -/
theorem memStoreCopyValue_plenty {node : OsMapNode} (h : NodeOk node) :
    memStoreCopyValue node .plenty
      = .ok ((CCEPH_OK, some node.valueLength, node.value), .plenty) := by
  obtain ⟨bytes, hv, hlen⟩ := h.value
  have hb := int32_bounds node.valueLength
  have hsize : sizeT node.valueLength.toInt = bytes.length := by
    rw [sizeT_of_nonneg (by omega) (by omega)]
    omega
  unfold memStoreCopyValue
  simp only [hsize]
  rw [bind_ok (malloc_plenty (by omega))]
  simp only [Bool.not_true, Bool.false_eq_true, if_false, hv, memcpy_whole,
    Nat.le_refl, if_true, List.take_length, pure_bind]
  rfl

/-- What reading a key answers. -/
def keyRead (attrs : AttrsView) (key : CString) :
    Int × Option Int32 × Option (List UInt8) :=
  match attrs key with
  | none => (CCEPH_ERR_MAP_NODE_NOT_EXIST, none, none)
  | some bytes => (CCEPH_OK, some (Int32.ofNat bytes.length), some bytes)

/-- What reading a key of a collection answers. -/
def collKeyRead (v : StoreView) (cid : OsCollId) (key : CString) :
    Int × Option Int32 × Option (List UInt8) :=
  match v cid with
  | none => (CCEPH_ERR_COLL_NOT_EXIST, none, none)
  | some coll => keyRead coll.attrs key

/-- What reading a key of an object answers. -/
def objKeyRead (v : StoreView) (cid : OsCollId) (oid key : CString) :
    Int × Option Int32 × Option (List UInt8) :=
  match v cid with
  | none => (CCEPH_ERR_COLL_NOT_EXIST, none, none)
  | some coll =>
      match coll.objects oid with
      | none => (CCEPH_ERR_MAP_NODE_NOT_EXIST, none, none)
      | some object => keyRead object.attrs key

theorem memStoreReadCollMapKey_spec {store : MemStore} (h : StoreOk store)
    (cid : OsCollId) (key : CString) :
    memStoreReadCollMapKey store cid key .plenty
      = .ok (((collKeyRead store.view cid key).1,
          (collKeyRead store.view cid key).2.1,
          (collKeyRead store.view cid key).2.2, store.relocked), .plenty) := by
  unfold memStoreReadCollMapKey
  rw [lockColls_run h.unlocked]
  have hs := h.colls.search cid
  generalize memStoreCollNodeMapSearch store.colls cid = found at hs ⊢
  simp only [pthreadMutexUnlock_locked, pure_bind]
  cases hs with
  | absent view get =>
      unfold collKeyRead MemStore.view
      rw [view]
      rfl
  | found cnode root ckey ok view =>
      simp only [ne_eq, not_true_eq_false, if_false, deref_some, pure_bind]
      have hk := ok.attrs.search key
      generalize osMapNodeSearch cnode.data.map key = found at hk ⊢
      unfold collKeyRead MemStore.view
      rw [view]
      show _ = Except.ok (((keyRead (attrsView cnode.data.map) key).1, _), _)
      cases hk with
      | absent kview =>
          unfold keyRead collView
          simp only [kview]
          rfl
      | found node nok kview =>
          obtain ⟨bytes, hv, -⟩ := nok.value
          simp only [not_true_eq_false, if_false, deref_some, pure_bind]
          rw [bind_ok (memStoreCopyValue_plenty nok)]
          unfold keyRead collView
          simp only [kview, hv, nok.valueLength_eq hv]
          rfl

theorem memStoreReadObjMapKey_spec {store : MemStore} (h : StoreOk store)
    (cid : OsCollId) (oid key : CString) :
    memStoreReadObjMapKey store cid oid key .plenty
      = .ok (((objKeyRead store.view cid oid key).1,
          (objKeyRead store.view cid oid key).2.1,
          (objKeyRead store.view cid oid key).2.2, store.relocked),
          .plenty) := by
  unfold memStoreReadObjMapKey
  rw [lockColls_run h.unlocked]
  have hs := h.colls.search cid
  generalize memStoreCollNodeMapSearch store.colls cid = found at hs ⊢
  simp only [pthreadMutexUnlock_locked, pure_bind]
  cases hs with
  | absent view get =>
      unfold objKeyRead MemStore.view
      rw [view]
      rfl
  | found cnode root ckey ok view =>
      simp only [ne_eq, not_true_eq_false, if_false, deref_some, pure_bind]
      have ho := ok.objects.search oid
      generalize memStoreObjectNodeMapSearch cnode.data.objects oid = found
        at ho ⊢
      unfold objKeyRead MemStore.view
      rw [view]
      cases ho with
      | absent oview =>
          unfold collView
          simp only [oview]
          rfl
      | found onode root okey ook oview =>
          simp only [not_true_eq_false, if_false, deref_some, pure_bind]
          have hk := ook.attrs.search key
          generalize osMapNodeSearch onode.data.map key = found at hk ⊢
          unfold collView
          simp only [oview]
          cases hk with
          | absent kview =>
              unfold keyRead objectView
              simp only [kview]
              rfl
          | found node nok kview =>
              obtain ⟨bytes, hv, -⟩ := nok.value
              simp only [not_true_eq_false, if_false, deref_some, pure_bind]
              rw [bind_ok (memStoreCopyValue_plenty nok)]
              unfold keyRead objectView
              simp only [kview, hv, nok.valueLength_eq hv]
              rfl

-- ================================================= existence and content

theorem memStoreExistColl_spec {store : MemStore} (h : StoreOk store)
    (cid : OsCollId) :
    memStoreExistColl store cid .plenty
      = .ok ((CCEPH_OK, if (store.view cid).isSome then 1 else 0,
          store.relocked), .plenty) := by
  unfold memStoreExistColl
  rw [lockColls_run h.unlocked]
  have hs := h.colls.search cid
  generalize memStoreCollNodeMapSearch store.colls cid = found at hs ⊢
  simp only [pthreadMutexUnlock_locked, pure_bind]
  unfold MemStore.view
  cases hs with
  | absent view get =>
      rw [view]
      rfl
  | found cnode root ckey ok view =>
      rw [view]
      rfl

/-- What reading content answers. A `read_length` that went negative asks
for a block no allocator has. -/
def contentRead (content : List UInt8) (offset length : Int64) :
    Int × Option Int64 × Option (List UInt8) :=
  let total := Int64.ofNat content.length
  let readLength := memStoreReadLength total offset length
  if total = 0 ∨ total ≤ offset then (CCEPH_OK, some 0, none)
  else if readLength < 0 then (CCEPH_ERR_NO_ENOUGH_MEM, none, none)
  else (CCEPH_OK, some readLength.toInt64,
    some ((content.drop offset.toInt.toNat).take readLength.toInt.toNat))

/-- What reading an object answers. -/
def objRead (v : StoreView) (cid : OsCollId) (oid : CString)
    (offset length : Int64) : Int × Option Int64 × Option (List UInt8) :=
  match v cid with
  | none => (CCEPH_ERR_COLL_NOT_EXIST, none, none)
  | some coll =>
      match coll.objects oid with
      | none => (CCEPH_ERR_OBJECT_NOT_EXIST, none, none)
      | some object => contentRead object.content offset length

/-- No more is read than there is. -/
theorem memStoreReadLength_le {total offset : Int64} (length : Int64)
    (h0 : 0 ≤ offset.toInt) (hlt : offset.toInt < total.toInt) :
    (memStoreReadLength total offset length).toInt
      ≤ total.toInt - offset.toInt := by
  have hbt := int64_bounds total
  have hsub : (total - offset).toInt = total.toInt - offset.toInt := by
    rw [Int64.toInt_sub, Int.bmod_def]
    split <;> omega
  unfold memStoreReadLength
  simp only
  generalize (if length.toInt32 ≤ 0 then total.toInt32
    else length.toInt32) = r
  have hbr := int32_bounds r
  by_cases hgt : r.toInt64 > total - offset
  · rw [if_pos hgt]
    have hgt' := Int64.lt_iff_toInt_lt.mp hgt
    rw [Int32.toInt_toInt64, hsub] at hgt'
    rw [Int64.toInt_toInt32, hsub, Int.bmod_def]
    split <;> omega
  · rw [if_neg hgt]
    have hle : ¬(total - offset).toInt < r.toInt64.toInt :=
      fun h => hgt (Int64.lt_iff_toInt_lt.mpr h)
    rw [Int32.toInt_toInt64, hsub] at hle
    omega

/-- The length an object keeps is that of its content. -/
theorem ObjectOk.length_eq {onode : MemStoreObjectNode} (h : ObjectOk onode) :
    onode.length = Int64.ofNat onode.content.length := by
  have hlen := h.length
  have hb := int64_bounds onode.length
  rw [← Int64.toInt_inj, Int64.toInt_ofNat_of_lt (by omega)]
  omega

theorem memStoreReadObj_spec {store : MemStore} (h : StoreOk store)
    (cid : OsCollId) (oid : CString) {offset : Int64} (hoff : offset ≥ 0)
    (length : Int64) :
    memStoreReadObj store cid oid offset length .plenty
      = .ok (((objRead store.view cid oid offset length).1,
          (objRead store.view cid oid offset length).2.1,
          (objRead store.view cid oid offset length).2.2, store.relocked),
          .plenty) := by
  have h0 : 0 ≤ offset.toInt := Int64.le_iff_toInt_le.mp hoff
  have hbo := int64_bounds offset
  unfold memStoreReadObj
  rw [assert_pos hoff, pure_bind, lockColls_run h.unlocked]
  have hs := h.colls.search cid
  generalize memStoreCollNodeMapSearch store.colls cid = found at hs ⊢
  simp only [pthreadMutexUnlock_locked, pure_bind]
  cases hs with
  | absent view get =>
      unfold objRead MemStore.view
      rw [view]
      rfl
  | found cnode root ckey ok view =>
      simp only [ne_eq, not_true_eq_false, if_false, deref_some, pure_bind]
      have ho := ok.objects.search oid
      generalize memStoreObjectNodeMapSearch cnode.data.objects oid = found
        at ho ⊢
      unfold objRead MemStore.view
      rw [view]
      cases ho with
      | absent oview =>
          unfold collView
          simp only [oview]
          rfl
      | found onode root okey ook oview =>
          simp only [not_true_eq_false, if_false, deref_some, pure_bind]
          unfold collView
          simp only [oview]
          unfold objectView contentRead
          simp only [← ook.length_eq]
          have hlen := ook.length
          by_cases hend : onode.data.length = 0 ∨ onode.data.length ≤ offset
          · simp only [if_pos hend]
            rfl
          obtain ⟨hne, hnle⟩ := not_or.mp hend
          have hlt : offset.toInt < onode.data.length.toInt := by
            have : ¬onode.data.length.toInt ≤ offset.toInt :=
              fun h => hnle (Int64.le_iff_toInt_le.mpr h)
            omega
          simp only [if_neg hend]
          have hle := memStoreReadLength_le length h0 hlt
          generalize memStoreReadLength onode.data.length offset length = r
            at hle ⊢
          have hbr := int32_bounds r
          by_cases hneg : r < 0
          · have hneg' : r.toInt < 0 := Int32.lt_iff_toInt_lt.mp hneg
            have hsize : ¬sizeT r.toInt < 2 ^ 63 := by
              unfold sizeT
              omega
            rw [bind_ok (malloc_huge hsize)]
            simp only [if_pos hneg]
            rfl
          · have hpos : ¬r.toInt < 0 := fun h => hneg (Int32.lt_iff_toInt_lt.mpr h)
            have hsize : sizeT r.toInt = r.toInt.toNat :=
              sizeT_of_nonneg (by omega) (by omega)
            have hsoff : sizeT offset.toInt = offset.toInt.toNat :=
              sizeT_of_nonneg h0 (by omega)
            have hdata : onode.data.data = some onode.data.content := by
              unfold MemStoreObjectNode.content at hlen ⊢
              cases hd : onode.data.data with
              | some bytes => rfl
              | none =>
                  rw [hd] at hlen
                  simp only [Option.getD_none, List.length_nil] at hlen
                  omega
            simp only [hsize, hsoff]
            rw [bind_ok (malloc_plenty (by omega))]
            simp only [Bool.not_true, Bool.false_eq_true, if_false, hdata,
              Option.map_some, memcpy_whole]
            rw [if_pos (by rw [List.length_drop]; omega), pure_bind]
            simp only [if_neg hneg]
            rfl

end CephInC
