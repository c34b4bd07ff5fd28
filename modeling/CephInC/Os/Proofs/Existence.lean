/-
Which level is missing, told by the code returned.

Once the trees are in key order (`CollsKeyed`), a search finds what is
there, so each call either meets the first level that is missing and
returns at it, or finds all it names (`StoreCall.code_missing`,
`StoreCall.code_finished`). The codes then tell the level, except where
a search's own code is passed on.
-/
import CephInC.Os.Proofs.Keyed
import CephInC.Os.Proofs.Submit

namespace CephInC

open Lib

-- ============================================================ collections

structure CollKeyed (cnode : MemStoreCollNode) : Prop where
  objects : ObjectsKeyed cnode.objects
  attrs : AttrsKeyed cnode.map

/-- The trees of a store, in key order. -/
structure CollsKeyed (colls : BinTree MemStoreCollNode) : Prop where
  inOrder : MapOk osCollIdCmp MemStoreCollNode.cid colls
  nodes : ∀ cid cnode, mapGet MemStoreCollNode.cid colls cid = some cnode → CollKeyed cnode

theorem collsKeyed_nil : CollsKeyed .nil where
  inOrder := mapOk_nil
  nodes := by
    intro cid cnode h
    rw [mapGet_nil] at h
    cases h

/-- Writing through a collection pointer. -/
theorem CollsKeyed.setData {cnode : Loc MemStoreCollNode} (h : CollsKeyed cnode.root)
    {coll : MemStoreCollNode} (hok : CollKeyed coll) (hcid : coll.cid = cnode.data.cid) :
    CollsKeyed (cnode.setData coll).root where
  inOrder := setData_mapOk h.inOrder hcid
  nodes := by
    refine mapGet_all (setData_mapGet linearCmp_osCollIdCmp h.inOrder hcid) h.nodes ?_
    intro a ha
    cases ha
    exact hok

/-- A search for a collection. -/
inductive CollAt (colls : BinTree MemStoreCollNode) (cid : OsCollId) :
    Int × Option (Loc MemStoreCollNode) → Prop where
  | absent (get : mapGet MemStoreCollNode.cid colls cid = none) :
      CollAt colls cid (CCEPH_ERR_MAP_NODE_NOT_EXIST, none)
  | found (cnode : Loc MemStoreCollNode) (keyed : CollsKeyed cnode.root)
      (ok : CollKeyed cnode.data)
      (get : mapGet MemStoreCollNode.cid colls cid = some cnode.data) :
      CollAt colls cid (CCEPH_OK, some cnode)

theorem CollsKeyed.search {colls : BinTree MemStoreCollNode} (h : CollsKeyed colls)
    (cid : OsCollId) : CollAt colls cid (memStoreCollNodeMapSearch colls cid) := by
  unfold memStoreCollNodeMapSearch
  cases hk : mapGet MemStoreCollNode.cid colls cid with
  | none =>
      rw [implMapSearch_absent linearCmp_osCollIdCmp h.inOrder hk]
      exact .absent hk
  | some cnode =>
      obtain ⟨place, hs, hroot, hdata, -⟩ :=
        implMapSearch_found linearCmp_osCollIdCmp h.inOrder hk
      rw [hs]
      exact .found place (hroot ▸ h) (hdata ▸ h.nodes cid cnode hk) (hdata ▸ hk)

/-- A search for an object. -/
inductive ObjectAt (objects : BinTree MemStoreObjectNode) (oid : CString) :
    Int × Option (Loc MemStoreObjectNode) → Prop where
  | absent (get : mapGet MemStoreObjectNode.oid objects oid = none) :
      ObjectAt objects oid (CCEPH_ERR_MAP_NODE_NOT_EXIST, none)
  | found (onode : Loc MemStoreObjectNode) (keyed : ObjectsKeyed onode.root)
      (get : mapGet MemStoreObjectNode.oid objects oid = some onode.data) :
      ObjectAt objects oid (CCEPH_OK, some onode)

theorem ObjectsKeyed.search {objects : BinTree MemStoreObjectNode} (h : ObjectsKeyed objects)
    (oid : CString) : ObjectAt objects oid (memStoreObjectNodeMapSearch objects oid) := by
  unfold memStoreObjectNodeMapSearch
  cases hk : mapGet MemStoreObjectNode.oid objects oid with
  | none =>
      rw [implMapSearch_absent linearCmp_strcmp h.inOrder hk]
      exact .absent hk
  | some onode =>
      obtain ⟨place, hs, hroot, hdata, -⟩ :=
        implMapSearch_found linearCmp_strcmp h.inOrder hk
      rw [hs]
      exact .found place (hroot ▸ h) (hdata ▸ hk)

theorem setObjects_keyed {cnode : Loc MemStoreCollNode} (h : CollsKeyed cnode.root)
    (hc : CollKeyed cnode.data) {objects : BinTree MemStoreObjectNode}
    (ho : ObjectsKeyed objects) : CollsKeyed (setObjects cnode objects) :=
  h.setData ⟨ho, hc.attrs⟩ rfl

-- ==================================================================== ops

section
variable {colls : BinTree MemStoreCollNode}

theorem logCodeAsString_ensures {α : Type} {P : α → Prop} :
    Ensures (logCodeAsString : Prog Allocs α) P :=
  Ensures.throw _

theorem memStoreCollNodeNew_ensures (cid : OsCollId) :
    Ensures (memStoreCollNodeNew cid) fun r => ∀ cnode, r.2 = some cnode → CollKeyed cnode := by
  unfold memStoreCollNodeNew
  refine ensures_assert fun _ => (Ensures.trivial _).bind fun granted _ => ?_
  split
  · exact .pure nofun
  · refine .pure fun cnode h => ?_
    cases h
    exact ⟨objectsKeyed_nil, mapOk_nil⟩

theorem memStoreCollNodeMapInsert_keyed (h : CollsKeyed colls) {cnode : MemStoreCollNode}
    (hc : CollKeyed cnode) {r : Int × BinTree MemStoreCollNode}
    (hr : memStoreCollNodeMapInsert colls cnode = .ok r) : CollsKeyed r.2 := by
  cases hk : mapGet MemStoreCollNode.cid colls cnode.cid with
  | none =>
      obtain ⟨t', ht', hok, hget⟩ := implMapInsert_fresh linearCmp_osCollIdCmp h.inOrder hk
      rw [show memStoreCollNodeMapInsert colls cnode = _ from ht'] at hr
      cases hr
      refine ⟨hok, mapGet_all hget h.nodes ?_⟩
      intro a ha
      cases ha
      exact hc
  | some old =>
      have hexists := implMapInsert_exists linearCmp_osCollIdCmp h.inOrder (a := cnode)
        (by rw [hk]; nofun)
      rw [show memStoreCollNodeMapInsert colls cnode = _ from hexists] at hr
      cases hr
      exact h

theorem memStoreDoOpCollCreate_keyed (h : CollsKeyed colls) (op : OsTranOp) :
    Ensures (memStoreDoOpCollCreate colls op) fun r => CollsKeyed r.2 := by
  unfold memStoreDoOpCollCreate
  refine ensures_assert fun _ => ?_
  have hs := h.search op.cid
  generalize memStoreCollNodeMapSearch colls op.cid = found at hs ⊢
  cases hs with
  | found cnode keyed ok get => exact .pure h
  | absent get =>
      refine ensures_assert fun _ => (memStoreCollNodeNew_ensures op.cid).bind fun r hr => ?_
      obtain ⟨ret, cnode⟩ := r
      simp only
      split
      · exact logCodeAsString_ensures
      · refine ensures_deref fun cnode hcnode => ensures_lift fun r hins => ?_
        have hkeyed := memStoreCollNodeMapInsert_keyed h (hr cnode hcnode) hins
        obtain ⟨ret', colls'⟩ := r
        simp only
        split
        · exact logCodeAsString_ensures
        · exact .pure hkeyed

/-- What an op keeps, and how it ends once `there` holds of what it names. -/
def OpEnds (there : Prop) (x : Prog Allocs (Int × BinTree MemStoreCollNode)) : Prop :=
  Ensures x fun r => CollsKeyed r.2 ∧ (there → Finished r.1)

/-- The collection an op names is there. -/
def CollThere (colls : BinTree MemStoreCollNode) (op : OsTranOp) : Prop :=
  mapGet MemStoreCollNode.cid colls op.cid ≠ none

/-- The object it names too. -/
def ObjectThere (colls : BinTree MemStoreCollNode) (op : OsTranOp) : Prop :=
  ∃ cnode oid, mapGet MemStoreCollNode.cid colls op.cid = some cnode ∧ op.oid = some oid
    ∧ mapGet MemStoreObjectNode.oid cnode.objects oid ≠ none

theorem ObjectThere.coll {op : OsTranOp} (h : ObjectThere colls op) : CollThere colls op := by
  obtain ⟨cnode, -, hcnode, -⟩ := h
  intro get
  rw [get] at hcnode
  cases hcnode

theorem ObjectThere.object {op : OsTranOp} (h : ObjectThere colls op)
    {cnode : MemStoreCollNode} (get : mapGet MemStoreCollNode.cid colls op.cid = some cnode)
    {oid : CString} (hoid : op.oid = some oid) :
    mapGet MemStoreObjectNode.oid cnode.objects oid ≠ none := by
  obtain ⟨cnode', oid', hcnode, hoid', hthere⟩ := h
  rw [get] at hcnode
  rw [hoid] at hoid'
  cases hcnode
  cases hoid'
  exact hthere

theorem memStoreDoOpCollRemove_ends (h : CollsKeyed colls) (op : OsTranOp) :
    OpEnds (CollThere colls op) (memStoreDoOpCollRemove colls op) := by
  unfold memStoreDoOpCollRemove
  refine ensures_assert fun _ => ?_
  have hs := h.search op.cid
  generalize memStoreCollNodeMapSearch colls op.cid = found at hs ⊢
  cases hs with
  | absent get => exact .pure ⟨h, fun there => absurd get there⟩
  | found cnode keyed ok get =>
      obtain ⟨t, ht, hok, hget⟩ := implMapRemove_spec linearCmp_osCollIdCmp keyed.inOrder
      simp only [ne_eq, not_true_eq_false, if_false, deref_some, pure_bind,
        show memStoreCollNodeMapRemove cnode = _ from ht]
      refine .pure ⟨⟨hok, mapGet_all hget keyed.nodes ?_⟩, fun _ => .inl rfl⟩
      intro a ha
      cases ha

theorem memStoreDoOpCollMap_ends (h : CollsKeyed colls) (op : OsTranOp) :
    OpEnds (CollThere colls op) (memStoreDoOpCollMap colls op) := by
  unfold memStoreDoOpCollMap
  refine ensures_assert fun _ => ensures_assert fun _ => ensures_deref fun map _ => ?_
  have hs := h.search op.cid
  generalize memStoreCollNodeMapSearch colls op.cid = found at hs ⊢
  cases hs with
  | absent get => exact .pure ⟨h, fun there => absurd get there⟩
  | found cnode keyed ok get =>
      simp only [ne_eq, not_true_eq_false, if_false, deref_some, pure_bind]
      refine (osMapUpdate_keyed ok.attrs map).bind fun r hr => ?_
      exact .pure ⟨keyed.setData ⟨ok.objects, hr.2⟩ rfl, fun _ => .inl hr.1⟩

theorem memStoreObjWriteBody_ends (h : CollsKeyed colls) (op : OsTranOp) :
    OpEnds (CollThere colls op) (memStoreObjWriteBody colls op) := by
  unfold memStoreObjWriteBody
  refine ensures_deref fun oid _ => ?_
  have hs := h.search op.cid
  generalize memStoreCollNodeMapSearch colls op.cid = found at hs ⊢
  cases hs with
  | absent get => exact .pure ⟨h, fun there => absurd get there⟩
  | found cnode keyed ok get =>
      simp only [ne_eq, not_true_eq_false, if_false, deref_some, pure_bind]
      refine (memStoreObjectOpen_keyed ok.objects oid).bind fun r hr => ?_
      obtain ⟨ret, objects, onode⟩ := r
      obtain ⟨hret, hobjects, hroot⟩ := hr
      simp only
      split
      · exact .pure ⟨setObjects_keyed keyed ok hobjects, fun _ => hret⟩
      · refine ensures_deref fun onode honode => ?_
        have honode : ObjectsKeyed onode.root := (hroot onode honode) ▸ hobjects
        refine (memStoreObjectWrite_keyed honode.data oid op).bind fun r hr => ?_
        obtain ⟨hret, hoid, hobject⟩ := hr
        exact .pure ⟨setObjects_keyed keyed ok (honode.setData hobject hoid), fun _ => hret⟩

theorem memStoreDoOpObjWrite_ends (h : CollsKeyed colls) (op : OsTranOp) :
    OpEnds (CollThere colls op) (memStoreDoOpObjWrite colls op) := by
  have hbody := memStoreObjWriteBody_ends h op
  unfold memStoreDoOpObjWrite
  refine ensures_assert fun _ => ensures_assert fun _ => ensures_assert fun _ =>
    ensures_assert fun _ => ?_
  by_cases hpos : op.length > 0
  · simp only [if_pos hpos]
    exact ensures_assert fun _ => hbody
  · simp only [if_neg hpos]
    exact hbody

theorem memStoreDoOpObjRemove_ends (h : CollsKeyed colls) (op : OsTranOp) :
    OpEnds (ObjectThere colls op) (memStoreDoOpObjRemove colls op) := by
  unfold memStoreDoOpObjRemove
  refine ensures_assert fun _ => ensures_assert fun _ => ensures_deref fun oid hoid => ?_
  have hs := h.search op.cid
  generalize memStoreCollNodeMapSearch colls op.cid = found at hs ⊢
  cases hs with
  | absent get => exact .pure ⟨h, fun there => absurd get there.coll⟩
  | found cnode keyed ok get =>
      simp only [ne_eq, not_true_eq_false, if_false, deref_some, pure_bind]
      have ho := ok.objects.search oid
      generalize memStoreObjectNodeMapSearch cnode.data.objects oid = found at ho ⊢
      cases ho with
      | absent oget => exact .pure ⟨h, fun there => absurd oget (there.object get hoid)⟩
      | found onode okeyed oget =>
          obtain ⟨t, ht, hok, hget⟩ := implMapRemove_spec linearCmp_strcmp okeyed.inOrder
          simp only [not_true_eq_false, if_false, deref_some, pure_bind,
            show memStoreObjectNodeMapRemove onode = _ from ht]
          have hobjects : ObjectsKeyed t := by
            refine ⟨hok, mapGet_all hget okeyed.nodes ?_⟩
            intro a ha
            cases ha
          exact .pure ⟨setObjects_keyed keyed ok hobjects, fun _ => .inl rfl⟩

theorem memStoreDoOpObjMap_ends (h : CollsKeyed colls) (op : OsTranOp) :
    OpEnds (ObjectThere colls op) (memStoreDoOpObjMap colls op) := by
  unfold memStoreDoOpObjMap
  refine ensures_assert fun _ => ensures_assert fun _ => ensures_assert fun _ =>
    ensures_deref fun oid hoid => ensures_deref fun map _ => ?_
  have hs := h.search op.cid
  generalize memStoreCollNodeMapSearch colls op.cid = found at hs ⊢
  cases hs with
  | absent get => exact .pure ⟨h, fun there => absurd get there.coll⟩
  | found cnode keyed ok get =>
      simp only [ne_eq, not_true_eq_false, if_false, deref_some, pure_bind]
      have ho := ok.objects.search oid
      generalize memStoreObjectNodeMapSearch cnode.data.objects oid = found at ho ⊢
      cases ho with
      | absent oget => exact .pure ⟨h, fun there => absurd oget (there.object get hoid)⟩
      | found onode okeyed oget =>
          simp only [not_true_eq_false, if_false, deref_some, pure_bind]
          refine (osMapUpdate_keyed okeyed.data.attrs map).bind fun r hr => ?_
          have hobject : ObjectKeyed { onode.data with map := r.2 } := ⟨hr.2, okeyed.data.sized⟩
          exact .pure ⟨setObjects_keyed keyed ok (okeyed.setData hobject rfl), fun _ => .inl hr.1⟩

/-- Any op at all keeps the trees in order. -/
theorem memStoreDoOp_keyed (h : CollsKeyed colls) (op : Option OsTranOp) :
    Ensures (memStoreDoOp colls op) fun r => CollsKeyed r.2 := by
  unfold memStoreDoOp
  refine ensures_assert fun _ => ensures_deref fun op _ => ?_
  cases op.op with
  | noop => exact .pure h
  | collCreate => exact memStoreDoOpCollCreate_keyed h op
  | collRemove => exact (memStoreDoOpCollRemove_ends h op).mono fun _ hr => hr.1
  | collMap => exact (memStoreDoOpCollMap_ends h op).mono fun _ hr => hr.1
  | objTouch => exact (memStoreDoOpObjWrite_ends h { op with length := 0 }).mono fun _ hr => hr.1
  | objWrite => exact (memStoreDoOpObjWrite_ends h op).mono fun _ hr => hr.1
  | objRemove => exact (memStoreDoOpObjRemove_ends h op).mono fun _ hr => hr.1
  | objMap => exact (memStoreDoOpObjMap_ends h op).mono fun _ hr => hr.1
  | unknown => exact .pure h

end

-- ==================================================================== runs

/-- A store no call is in. -/
structure StoreKeyed (store : MemStore) : Prop where
  colls : CollsKeyed store.colls
  unlocked : store.lock.held = false

theorem memStoreSubmitTranLoop_keyed (tran : OsTran) : ∀ (left i : Nat) {store : MemStore},
    CollsKeyed store.colls → store.lock.held = true →
    Ensures (memStoreSubmitTranLoop tran left i store) fun r =>
      CollsKeyed r.2.colls ∧ r.2.lock.held = true
  | 0, _, _, h, hlock => .pure ⟨h, hlock⟩
  | left + 1, i, store, h, hlock => by
      unfold memStoreSubmitTranLoop
      refine ensures_lift fun op _ => ?_
      rw [memStoreColls_run hlock, pure_bind]
      refine (memStoreDoOp_keyed h op).bind fun r hr => ?_
      obtain ⟨ret, colls⟩ := r
      simp only
      split
      · exact .pure ⟨hr, hlock⟩
      · exact memStoreSubmitTranLoop_keyed tran left (i + 1) hr hlock

theorem memStoreSubmitTran_keyed {store : MemStore} (h : StoreKeyed store) (tran : OsTran) :
    Ensures (memStoreSubmitTran store tran) fun r => StoreKeyed r.2 := by
  unfold memStoreSubmitTran
  have hcolls : CollsKeyed store.locked.colls := h.colls
  simp only [pthreadMutexLock_run h.unlocked, pure_bind]
  refine (memStoreSubmitTranLoop_keyed tran _ 0 hcolls rfl).bind fun r hr => ?_
  obtain ⟨ret, store'⟩ := r
  simp only [pthreadMutexUnlock_run hr.2, pure_bind]
  exact .pure ⟨hr.1, rfl⟩

/-- Whatever is reached is in order. -/
theorem ReachableAny.keyed {store : MemStore} (h : ReachableAny store) : StoreKeyed store := by
  induction h with
  | @new store s s' h =>
      have hnew : Ensures memStoreNew fun r => ∀ store, r.2 = some store → StoreKeyed store := by
        unfold memStoreNew
        refine (Ensures.trivial _).bind fun granted _ => ?_
        split
        · exact .pure nofun
        · refine .pure fun store h => ?_
          cases h
          exact ⟨collsKeyed_nil, rfl⟩
      exact hnew _ _ _ h store rfl
  | submit _ hs ih => exact memStoreSubmitTran_keyed ih _ _ _ _ hs

-- ============================================================ the codes

/-- The code a call returns for a level that is missing. -/
def StoreCall.reported (call : StoreCall) (level : Level) : Int :=
  if call.untranslated level then CCEPH_ERR_MAP_NODE_NOT_EXIST else level.code

/-- A call returns at the first level that is missing, or finds all it
names. -/
def Reports {β : Type} (x : Prog Allocs β) (ret : β → Int) (code : Level → Int) :
    Option Level → Prop
  | some level => ∃ r, x = pure r ∧ ret r = code level
  | none => Ensures x fun r => Finished (ret r)

theorem memStoreCollNodeMapSearch_absent {colls : BinTree MemStoreCollNode}
    (h : CollsKeyed colls) {cid : OsCollId}
    (hk : mapGet MemStoreCollNode.cid colls cid = none) :
    memStoreCollNodeMapSearch colls cid = (CCEPH_ERR_MAP_NODE_NOT_EXIST, none) :=
  implMapSearch_absent linearCmp_osCollIdCmp h.inOrder hk

theorem memStoreObjectNodeMapSearch_absent {objects : BinTree MemStoreObjectNode}
    (h : ObjectsKeyed objects) {oid : CString}
    (hk : mapGet MemStoreObjectNode.oid objects oid = none) :
    memStoreObjectNodeMapSearch objects oid = (CCEPH_ERR_MAP_NODE_NOT_EXIST, none) :=
  implMapSearch_absent linearCmp_strcmp h.inOrder hk

section
variable {store : MemStore} {op : OsTranOp}

/-- An op whose collection is missing. -/
theorem memStoreDoOp_coll (h : CollsKeyed store.colls) (ha : op.Asserted)
    (hk : mapGet MemStoreCollNode.cid store.colls op.cid = none) :
    memStoreDoOp store.colls (some op)
      = pure ((StoreCall.op op).reported .coll, store.colls) := by
  have hs := memStoreCollNodeMapSearch_absent h hk
  obtain ⟨hcid, hargs⟩ := ha
  obtain ⟨logId, kind, cid, oid, offset, length, data, map⟩ := op
  cases kind with
  | noop | collCreate | unknown => exact hargs.elim
  | collRemove =>
      show memStoreDoOpCollRemove _ _ = _
      unfold memStoreDoOpCollRemove
      rw [assert_pos hcid, pure_bind, hs]
      rfl
  | collMap =>
      obtain ⟨map, rfl⟩ := Option.isSome_iff_exists.mp hargs
      show memStoreDoOpCollMap _ _ = _
      unfold memStoreDoOpCollMap
      rw [assert_pos hcid, pure_bind, assert_pos hargs, pure_bind, deref_some, pure_bind, hs]
      rfl
  | objTouch =>
      obtain ⟨hoid, hoffset⟩ := hargs
      obtain ⟨oid, rfl⟩ := Option.isSome_iff_exists.mp hoid
      show memStoreDoOpObjWrite _ _ = _
      unfold memStoreDoOpObjWrite memStoreObjWriteBody
      rw [assert_pos hcid, pure_bind, assert_pos hoid, pure_bind, assert_pos hoffset, pure_bind,
        hs]
      rfl
  | objWrite =>
      obtain ⟨hoid, hoffset, hlength, hdata⟩ := hargs
      obtain ⟨oid, rfl⟩ := Option.isSome_iff_exists.mp hoid
      show memStoreDoOpObjWrite _ _ = _
      unfold memStoreDoOpObjWrite memStoreObjWriteBody
      rw [assert_pos hcid, pure_bind, assert_pos hoid, pure_bind, assert_pos hoffset, pure_bind,
        assert_pos hlength, pure_bind, hs]
      by_cases hpos : length > 0
      · simp only [if_pos hpos]
        rw [assert_pos (hdata hpos)]
        rfl
      · simp only [if_neg hpos]
        rfl
  | objRemove =>
      obtain ⟨oid, rfl⟩ := Option.isSome_iff_exists.mp hargs
      show memStoreDoOpObjRemove _ _ = _
      unfold memStoreDoOpObjRemove
      rw [assert_pos hcid, pure_bind, assert_pos hargs, pure_bind, deref_some, pure_bind, hs]
      rfl
  | objMap =>
      obtain ⟨hoid, hmap⟩ := hargs
      obtain ⟨oid, rfl⟩ := Option.isSome_iff_exists.mp hoid
      obtain ⟨map, rfl⟩ := Option.isSome_iff_exists.mp hmap
      show memStoreDoOpObjMap _ _ = _
      unfold memStoreDoOpObjMap
      rw [assert_pos hcid, pure_bind, assert_pos hoid, pure_bind, assert_pos hmap, pure_bind,
        deref_some, pure_bind, deref_some, pure_bind, hs]
      rfl

/-- An op whose object is missing. -/
theorem memStoreDoOp_object (h : CollsKeyed store.colls) (ha : op.Asserted)
    {cnode : MemStoreCollNode}
    (hk : mapGet MemStoreCollNode.cid store.colls op.cid = some cnode) {oid : CString}
    (hoid : (StoreCall.op op).oid = some oid)
    (ho : mapGet MemStoreObjectNode.oid cnode.objects oid = none) :
    memStoreDoOp store.colls (some op)
      = pure ((StoreCall.op op).reported .object, store.colls) := by
  obtain ⟨place, hs, -, hdata, -⟩ := implMapSearch_found linearCmp_osCollIdCmp h.inOrder hk
  have hs : memStoreCollNodeMapSearch store.colls op.cid = (CCEPH_OK, some place) := hs
  have hsearch : memStoreObjectNodeMapSearch place.data.objects oid = _ :=
    memStoreObjectNodeMapSearch_absent (hdata ▸ (h.nodes _ _ hk).objects) (hdata ▸ ho)
  obtain ⟨hcid, hargs⟩ := ha
  obtain ⟨logId, kind, cid, oid', offset, length, data, map⟩ := op
  cases kind with
  | objRemove =>
      cases hoid
      show memStoreDoOpObjRemove _ _ = _
      unfold memStoreDoOpObjRemove
      rw [assert_pos hcid, pure_bind, assert_pos hargs, pure_bind, deref_some, pure_bind, hs]
      simp only [ne_eq, not_true_eq_false, if_false, deref_some, pure_bind, hsearch]
      rfl
  | objMap =>
      cases hoid
      obtain ⟨hoid, hmap⟩ := hargs
      obtain ⟨map, rfl⟩ := Option.isSome_iff_exists.mp hmap
      show memStoreDoOpObjMap _ _ = _
      unfold memStoreDoOpObjMap
      rw [assert_pos hcid, pure_bind, assert_pos hoid, pure_bind, assert_pos hmap, pure_bind,
        deref_some, pure_bind, deref_some, pure_bind, hs]
      simp only [ne_eq, not_true_eq_false, if_false, deref_some, pure_bind, hsearch]
      rfl
  | noop | collCreate | collRemove | collMap | objTouch | objWrite | unknown => cases hoid

/-- An op that finds all it names. -/
theorem memStoreDoOp_finished (h : CollsKeyed store.colls) (ha : op.Asserted)
    (hcoll : CollThere store.colls op)
    (hobject : (StoreCall.op op).oid ≠ none → ObjectThere store.colls op) :
    Ensures (memStoreDoOp store.colls (some op)) fun r => Finished r.1 := by
  obtain ⟨hcid, hargs⟩ := ha
  obtain ⟨logId, kind, cid, oid, offset, length, data, map⟩ := op
  cases kind with
  | noop | collCreate | unknown => exact hargs.elim
  | collRemove => exact (memStoreDoOpCollRemove_ends h _).mono fun r hr => hr.2 hcoll
  | collMap => exact (memStoreDoOpCollMap_ends h _).mono fun r hr => hr.2 hcoll
  | objTouch => exact (memStoreDoOpObjWrite_ends h _).mono fun r hr => hr.2 hcoll
  | objWrite => exact (memStoreDoOpObjWrite_ends h _).mono fun r hr => hr.2 hcoll
  | objRemove =>
      have hoid : oid ≠ none := Option.isSome_iff_ne_none.mp hargs
      exact (memStoreDoOpObjRemove_ends h _).mono fun r hr => hr.2 (hobject hoid)
  | objMap =>
      have hoid : oid ≠ none := Option.isSome_iff_ne_none.mp hargs.1
      exact (memStoreDoOpObjMap_ends h _).mono fun r hr => hr.2 (hobject hoid)

theorem StoreCall.oid_op {oid : CString} (h : (StoreCall.op op).oid = some oid) :
    op.oid = some oid := by
  unfold StoreCall.oid at h
  simp only at h
  split at h
  · exact h
  · exact h
  · cases h

theorem memStoreDoOp_reports (h : CollsKeyed store.colls) (ha : op.Asserted) :
    Reports (memStoreDoOp store.colls (some op)) (fun r => r.1) (StoreCall.op op).reported
      ((StoreCall.op op).missing store) := by
  unfold StoreCall.missing
  cases hk : mapGet MemStoreCollNode.cid store.colls (StoreCall.op op).cid with
  | none => exact ⟨_, memStoreDoOp_coll h ha hk, rfl⟩
  | some cnode =>
      have hcoll : CollThere store.colls op := fun hnone => (by
        rw [show mapGet MemStoreCollNode.cid store.colls op.cid = _ from hk] at hnone
        cases hnone)
      cases hoid : (StoreCall.op op).oid with
      | none =>
          exact memStoreDoOp_finished h ha hcoll fun hne => absurd hoid hne
      | some oid =>
          simp only
          cases ho : mapGet MemStoreObjectNode.oid cnode.objects oid with
          | none => exact ⟨_, memStoreDoOp_object h ha hk hoid ho, rfl⟩
          | some onode =>
              apply memStoreDoOp_finished h ha hcoll
              intro _
              refine ⟨cnode, oid, hk, StoreCall.oid_op hoid, ?_⟩
              rw [ho]
              nofun

end

-- ================================================================ reads

section
variable {store : MemStore}

theorem memStoreCopyValue_finished (node : OsMapNode) :
    Ensures (memStoreCopyValue node) fun r => Finished r.1 := by
  unfold memStoreCopyValue
  refine (Ensures.trivial _).bind fun granted _ => ?_
  split
  · exact .pure (.inr rfl)
  · exact (Ensures.trivial _).bind fun block _ => .pure (.inl rfl)

/-- A search for an attribute. -/
inductive AttrAt (map : BinTree OsMapNode) (key : CString) :
    Int × Option (Loc OsMapNode) → Prop where
  | absent (get : keyMissing map (some key) = some .key) :
      AttrAt map key (CCEPH_ERR_MAP_NODE_NOT_EXIST, none)
  | found (node : Loc OsMapNode) (get : keyMissing map (some key) = none) :
      AttrAt map key (CCEPH_OK, some node)

theorem osMapNodeSearch_at {map : BinTree OsMapNode} (h : AttrsKeyed map) (key : CString) :
    AttrAt map key (osMapNodeSearch map key) := by
  unfold osMapNodeSearch
  cases hk : mapGet OsMapNode.key map key with
  | none =>
      rw [implMapSearch_absent linearCmp_strcmp h hk]
      apply AttrAt.absent
      unfold keyMissing
      simp only [hk]
      rfl
  | some node =>
      obtain ⟨place, hs, -, -, -⟩ := implMapSearch_found linearCmp_strcmp h hk
      rw [hs]
      apply AttrAt.found
      unfold keyMissing
      simp only [hk]
      rfl

theorem memStoreReadCollMapKey_reports (h : StoreKeyed store) (cid : OsCollId) (key : CString) :
    Reports (memStoreReadCollMapKey store cid key) (fun r => r.1)
      (StoreCall.readCollMapKey cid key).reported
      ((StoreCall.readCollMapKey cid key).missing store) := by
  unfold memStoreReadCollMapKey
  rw [lockColls_run h.unlocked]
  have hs := h.colls.search cid
  generalize memStoreCollNodeMapSearch store.colls cid = found at hs ⊢
  simp only [pthreadMutexUnlock_locked, pure_bind]
  unfold StoreCall.missing StoreCall.cid StoreCall.oid StoreCall.key
  cases hs with
  | absent get =>
      simp only [get]
      exact ⟨_, rfl, rfl⟩
  | found cnode keyed ok get =>
      simp only [get, ne_eq, not_true_eq_false, if_false, deref_some, pure_bind]
      have hk := osMapNodeSearch_at ok.attrs key
      generalize osMapNodeSearch cnode.data.map key = found at hk ⊢
      cases hk with
      | absent kget =>
          rw [kget]
          exact ⟨_, rfl, rfl⟩
      | found node kget =>
          rw [kget]
          simp only [not_true_eq_false, if_false, deref_some, pure_bind]
          exact (memStoreCopyValue_finished node.data).bind fun r hr => .pure hr

theorem memStoreReadObjMapKey_reports (h : StoreKeyed store) (cid : OsCollId)
    (oid key : CString) :
    Reports (memStoreReadObjMapKey store cid oid key) (fun r => r.1)
      (StoreCall.readObjMapKey cid oid key).reported
      ((StoreCall.readObjMapKey cid oid key).missing store) := by
  unfold memStoreReadObjMapKey
  rw [lockColls_run h.unlocked]
  have hs := h.colls.search cid
  generalize memStoreCollNodeMapSearch store.colls cid = found at hs ⊢
  simp only [pthreadMutexUnlock_locked, pure_bind]
  unfold StoreCall.missing StoreCall.cid StoreCall.oid StoreCall.key
  cases hs with
  | absent get =>
      simp only [get]
      exact ⟨_, rfl, rfl⟩
  | found cnode keyed ok get =>
      simp only [get, ne_eq, not_true_eq_false, if_false, deref_some, pure_bind]
      have ho := ok.objects.search oid
      generalize memStoreObjectNodeMapSearch cnode.data.objects oid = found at ho ⊢
      cases ho with
      | absent oget =>
          simp only [oget]
          exact ⟨_, rfl, rfl⟩
      | found onode okeyed oget =>
          simp only [oget, not_true_eq_false, if_false, deref_some, pure_bind]
          have hk := osMapNodeSearch_at okeyed.data.attrs key
          generalize osMapNodeSearch onode.data.map key = found at hk ⊢
          cases hk with
          | absent kget =>
              rw [kget]
              exact ⟨_, rfl, rfl⟩
          | found node kget =>
              rw [kget]
              simp only [not_true_eq_false, if_false, deref_some, pure_bind]
              exact (memStoreCopyValue_finished node.data).bind fun r hr => .pure hr

/-- The end of a whole-map reader. -/
theorem osMapUpdate_finished (map stored : BinTree OsMapNode) (store : MemStore) :
    Ensures (osMapUpdate map stored >>= fun r => assert (r.1 = CCEPH_OK) >>= fun _ =>
        (pure (r.1, r.2, store) : Prog Allocs (Int × BinTree OsMapNode × MemStore)))
      fun r => Finished r.1 :=
  (Ensures.trivial _).bind fun _ _ => ensures_assert fun hret => .pure (.inl hret)

theorem memStoreReadCollMap_reports (h : StoreKeyed store) (cid : OsCollId)
    (map : BinTree OsMapNode) :
    Reports (memStoreReadCollMap store cid map) (fun r => r.1)
      (StoreCall.readCollMap cid map).reported
      ((StoreCall.readCollMap cid map).missing store) := by
  unfold memStoreReadCollMap
  rw [lockColls_run h.unlocked]
  have hs := h.colls.search cid
  generalize memStoreCollNodeMapSearch store.colls cid = found at hs ⊢
  simp only [pthreadMutexUnlock_locked, pure_bind]
  unfold StoreCall.missing StoreCall.cid StoreCall.oid StoreCall.key
  cases hs with
  | absent get =>
      simp only [get]
      exact ⟨_, rfl, rfl⟩
  | found cnode keyed ok get =>
      simp only [get, ne_eq, not_true_eq_false, if_false, deref_some, pure_bind]
      exact osMapUpdate_finished map cnode.data.map _

theorem memStoreReadObjMap_reports (h : StoreKeyed store) (cid : OsCollId) (oid : CString)
    (map : BinTree OsMapNode) :
    Reports (memStoreReadObjMap store cid oid map) (fun r => r.1)
      (StoreCall.readObjMap cid oid map).reported
      ((StoreCall.readObjMap cid oid map).missing store) := by
  unfold memStoreReadObjMap
  rw [lockColls_run h.unlocked]
  have hs := h.colls.search cid
  generalize memStoreCollNodeMapSearch store.colls cid = found at hs ⊢
  simp only [pthreadMutexUnlock_locked, pure_bind]
  unfold StoreCall.missing StoreCall.cid StoreCall.oid StoreCall.key
  cases hs with
  | absent get =>
      simp only [get]
      exact ⟨_, rfl, rfl⟩
  | found cnode keyed ok get =>
      simp only [get, ne_eq, not_true_eq_false, if_false, deref_some, pure_bind]
      have ho := ok.objects.search oid
      generalize memStoreObjectNodeMapSearch cnode.data.objects oid = found at ho ⊢
      cases ho with
      | absent oget =>
          simp only [oget]
          exact ⟨_, rfl, rfl⟩
      | found onode okeyed oget =>
          simp only [oget, not_true_eq_false, if_false, deref_some, pure_bind]
          exact osMapUpdate_finished map onode.data.map _

theorem memStoreReadObj_reports (h : StoreKeyed store) (cid : OsCollId) (oid : CString)
    {offset : Int64} (hoff : offset ≥ 0) (length : Int64) :
    Reports (memStoreReadObj store cid oid offset length) (fun r => r.1)
      (StoreCall.readObj cid oid offset length).reported
      ((StoreCall.readObj cid oid offset length).missing store) := by
  unfold memStoreReadObj
  rw [assert_pos hoff, pure_bind, lockColls_run h.unlocked]
  have hs := h.colls.search cid
  generalize memStoreCollNodeMapSearch store.colls cid = found at hs ⊢
  simp only [pthreadMutexUnlock_locked, pure_bind]
  unfold StoreCall.missing StoreCall.cid StoreCall.oid StoreCall.key
  cases hs with
  | absent get =>
      simp only [get]
      exact ⟨_, rfl, rfl⟩
  | found cnode keyed ok get =>
      simp only [get, ne_eq, not_true_eq_false, if_false, deref_some, pure_bind]
      have ho := ok.objects.search oid
      generalize memStoreObjectNodeMapSearch cnode.data.objects oid = found at ho ⊢
      cases ho with
      | absent oget =>
          simp only [oget]
          exact ⟨_, rfl, rfl⟩
      | found onode okeyed oget =>
          simp only [oget, not_true_eq_false, if_false, deref_some, pure_bind]
          show Ensures _ fun r : Int × Option Int64 × Option (List UInt8) × MemStore =>
            Finished r.1
          split
          · exact .pure (.inl rfl)
          · refine (Ensures.trivial _).bind fun granted _ => ?_
            split
            · exact .pure (.inr rfl)
            · exact (Ensures.trivial _).bind fun block _ => .pure (.inl rfl)

end

-- ============================================================== the level

/-- The code of a call that met the level `level`, or found all it names. -/
inductive CodeAt (reported : Level → Int) : Option Level → Except Fault Int → Prop where
  | missing (level : Level) : CodeAt reported (some level) (.ok (reported level))
  | finished {c : Int} (h : Finished c) : CodeAt reported none (.ok c)
  | fault (e : Fault) : CodeAt reported none (.error e)

theorem Reports.code {β : Type} {x : Prog Allocs β} {ret : β → Int} {reported : Level → Int}
    {missing : Option Level} (h : Reports x ret reported missing) (s : Allocs) :
    CodeAt reported missing ((x s).map fun r => ret r.1) := by
  cases missing with
  | some level =>
      obtain ⟨r, rfl, hr⟩ := h
      show CodeAt reported _ (.ok (ret r))
      rw [hr]
      exact .missing level
  | none =>
      cases hx : x s with
      | error e => exact .fault e
      | ok r => exact .finished (h s r.1 r.2 hx)

/-- Every call, over every store in order. -/
theorem StoreCall.code_at {store : MemStore} (h : StoreKeyed store) (s : Allocs)
    {call : StoreCall} (ha : call.Asserted) :
    CodeAt call.reported (call.missing store) (call.silentCode store s) := by
  cases call with
  | op op => exact (memStoreDoOp_reports h.colls ha).code s
  | readObj cid oid offset length => exact (memStoreReadObj_reports h cid oid ha length).code s
  | readCollMap cid map => exact (memStoreReadCollMap_reports h cid map).code s
  | readCollMapKey cid key => exact (memStoreReadCollMapKey_reports h cid key).code s
  | readObjMap cid oid map => exact (memStoreReadObjMap_reports h cid oid map).code s
  | readObjMapKey cid oid key => exact (memStoreReadObjMapKey_reports h cid oid key).code s

end CephInC
