/-
The readers of whole maps, and their agreement with the key readers.

A whole-map reader updates the caller's tree by the stored one, and
`cceph_os_map_update` drops empty values; a key reader looks into the
stored tree. They agree because no stored node is empty and no key is
stored twice (`AttrsOk`): an update of an empty tree by a stored one then
copies every node (`attrsUpdate_stored`).
-/
import CephInC.Os.Proofs.Reads

namespace CephInC

open Lib

-- ======================================================= stored trees

/-- Applying stored nodes: each key they hold gets their value. -/
theorem attrsUpdate_nodes :
    ∀ {nodes : List OsMapNode} (attrs : AttrsView),
      InOrder strcmp OsMapNode.key nodes → (∀ n ∈ nodes, NodeOk n) →
      attrsUpdate nodes attrs = .ok fun key =>
        match lookup OsMapNode.key key nodes with
        | some node => node.value
        | none => attrs key
  | [], _, _, _ => rfl
  | node :: rest, attrs, hord, hok => by
      have hnode := hok node (List.mem_cons_self ..)
      obtain ⟨bytes, hv, hlen⟩ := hnode.value
      have hle : ¬node.valueLength ≤ 0 := by
        intro h
        have := Int32.le_iff_toInt_le.mp h
        have hpos := hnode.positive
        exact absurd this (Int.not_le.mpr hpos)
      have hfull : bytes.take node.valueLength.toInt.toNat = bytes := by
        rw [← hlen, Int.toNat_natCast, List.take_length]
      unfold attrsUpdate
      simp only [if_neg hle, hv, hnode.copies]
      rw [if_pos (by omega), hfull, attrsUpdate_nodes _
        (List.pairwise_cons.mp hord).2
        fun n hn => hok n (List.mem_cons_of_mem _ hn)]
      congr 1
      funext key
      have hself := InOrder.lookup_rest (l := []) linearCmp_strcmp hord
      rw [lookup_cons]
      by_cases hk : node.key = key
      · subst hk
        rw [show lookup OsMapNode.key node.key rest = none from hself]
        rw [if_pos rfl]
        simp only [hv, Function.update_self]
      · rw [if_neg hk]
        cases lookup OsMapNode.key key rest with
        | some n => rfl
        | none =>
            show Function.update attrs node.key (some bytes) key = attrs key
            rw [Function.update_of_ne (Ne.symm hk)]

/-- The nodes of a stored tree are in order and none is empty. -/
theorem AttrsOk.mem {map : BinTree OsMapNode} (h : AttrsOk map) :
    ∀ n ∈ map.toList, NodeOk n := by
  intro n hn
  exact h.nodes n.key n (h.inOrder.inOrder.lookup_of_mem linearCmp_strcmp hn)

/-- Stored trees that hold the same values hold the same nodes. -/
theorem attrs_toList_eq {map map' : BinTree OsMapNode} (h : AttrsOk map)
    (h' : AttrsOk map') (hv : attrsView map = attrsView map') :
    map.toList = map'.toList := by
  refine eq_of_lookup linearCmp_strcmp h.inOrder.inOrder h'.inOrder.inOrder ?_
  intro key
  show mapGet OsMapNode.key map key = mapGet OsMapNode.key map' key
  have hkey := congrFun hv key
  unfold attrsView at hkey
  cases hn : mapGet OsMapNode.key map key with
  | none =>
      cases hn' : mapGet OsMapNode.key map' key with
      | none => rfl
      | some node' =>
          obtain ⟨bytes, hb, -⟩ := (h'.nodes key node' hn').value
          rw [hn, hn', Option.bind_some, hb] at hkey
          cases hkey
  | some node =>
      have hok := h.nodes key node hn
      obtain ⟨bytes, hb, -⟩ := hok.value
      cases hn' : mapGet OsMapNode.key map' key with
      | none =>
          rw [hn, hn', Option.bind_some, hb] at hkey
          cases hkey
      | some node' =>
          have hok' := h'.nodes key node' hn'
          obtain ⟨bytes', hb', -⟩ := hok'.value
          rw [hn, hn', Option.bind_some, Option.bind_some, hb, hb'] at hkey
          cases hkey
          have hk := key_of_mapGet hn
          have hk' := key_of_mapGet hn'
          have hl := hok.valueLength_eq hb
          have hl' := hok'.valueLength_eq hb'
          obtain ⟨k, v, l⟩ := node
          obtain ⟨k', v', l'⟩ := node'
          simp only at hk hk' hb hb' hl hl'
          rw [hk, hk', hb, hb', hl, hl']

-- ================================================== readers of whole maps

/-- The end of a whole-map reader: the caller's tree updated by the
stored one. -/
def mapRead (store : MemStore) (map stored : BinTree OsMapNode) :
    Except Fault ((Int × BinTree OsMapNode × MemStore) × Allocs) :=
  match osMapUpdate map stored .plenty with
  | .error e => .error e
  | .ok ((_, map), s) => .ok ((CCEPH_OK, map, store.relocked), s)

/-- What a whole-map reader did: it found no map and returned a code, or
it found the stored tree. -/
inductive MapReadOk (store : MemStore) (map : BinTree OsMapNode)
    (attrs : Int ⊕ AttrsView) :
    Except Fault ((Int × BinTree OsMapNode × MemStore) × Allocs) → Prop where
  | absent {ret : Int} (h : attrs = .inl ret) (hne : ret ≠ CCEPH_OK) :
      MapReadOk store map attrs (.ok ((ret, map, store.relocked), .plenty))
  | found {stored : BinTree OsMapNode} (ok : AttrsOk stored)
      (h : attrs = .inr (attrsView stored)) :
      MapReadOk store map attrs (mapRead store map stored)

/-- The attributes of a collection, or why there are none. -/
def collAttrs (v : StoreView) (cid : OsCollId) : Int ⊕ AttrsView :=
  match v cid with
  | none => .inl CCEPH_ERR_COLL_NOT_EXIST
  | some coll => .inr coll.attrs

/-- The attributes of an object, or why there are none. -/
def objAttrs (v : StoreView) (cid : OsCollId) (oid : CString) :
    Int ⊕ AttrsView :=
  match v cid with
  | none => .inl CCEPH_ERR_MAP_NODE_NOT_EXIST
  | some coll =>
      match coll.objects oid with
      | none => .inl CCEPH_ERR_MAP_NODE_NOT_EXIST
      | some object => .inr object.attrs

/-- The update at the end of a whole-map reader, and the unlocking. -/
private theorem mapRead_run {store : MemStore} {map stored : BinTree OsMapNode} :
    ((osMapUpdate map stored >>= fun r => assert (r.1 = CCEPH_OK) >>= fun _ =>
        (pure (r.1, r.2, store.locked.unlocked)
          : Prog Allocs (Int × BinTree OsMapNode × MemStore))) .plenty)
      = mapRead store map stored := by
  rw [bind_run]
  unfold mapRead
  cases hx : osMapUpdate map stored .plenty with
  | error e => rfl
  | ok r =>
      obtain ⟨⟨ret, map'⟩, s⟩ := r
      cases osMapUpdate_ret hx
      rfl

theorem memStoreReadCollMap_spec {store : MemStore} (h : StoreOk store)
    (cid : OsCollId) (map : BinTree OsMapNode) :
    MapReadOk store map (collAttrs store.view cid)
      (memStoreReadCollMap store cid map .plenty) := by
  unfold memStoreReadCollMap
  rw [lockColls_run h.unlocked]
  have hs := h.colls.search cid
  generalize memStoreCollNodeMapSearch store.colls cid = found at hs ⊢
  simp only [pthreadMutexUnlock_locked, pure_bind]
  unfold collAttrs MemStore.view
  cases hs with
  | absent view get =>
      rw [view]
      exact .absent rfl (by decide)
  | found cnode root ckey ok view =>
      simp only [ne_eq, not_true_eq_false, if_false, deref_some, pure_bind]
      rw [view, mapRead_run]
      exact .found ok.attrs rfl

theorem memStoreReadObjMap_spec {store : MemStore} (h : StoreOk store)
    (cid : OsCollId) (oid : CString) (map : BinTree OsMapNode) :
    MapReadOk store map (objAttrs store.view cid oid)
      (memStoreReadObjMap store cid oid map .plenty) := by
  unfold memStoreReadObjMap
  rw [lockColls_run h.unlocked]
  have hs := h.colls.search cid
  generalize memStoreCollNodeMapSearch store.colls cid = found at hs ⊢
  simp only [pthreadMutexUnlock_locked, pure_bind]
  unfold objAttrs MemStore.view
  cases hs with
  | absent view get =>
      rw [view]
      exact .absent rfl (by decide)
  | found cnode root ckey ok view =>
      simp only [ne_eq, not_true_eq_false, if_false, deref_some, pure_bind]
      have ho := ok.objects.search oid
      generalize memStoreObjectNodeMapSearch cnode.data.objects oid = found
        at ho ⊢
      rw [view]
      unfold collView
      cases ho with
      | absent oview =>
          simp only [oview]
          exact .absent rfl (by decide)
      | found onode root okey ook oview =>
          simp only [not_true_eq_false, if_false, deref_some, pure_bind, oview]
          rw [mapRead_run]
          exact .found ook.attrs rfl

-- ========================================================== the list read

/-- What listing answers, for the ids a walk of the store visits. -/
def listRead (store : MemStore) (cids : List OsCollId) :
    Except Fault
      ((Int × Option Int32 × Option (List OsCollId) × MemStore) × Allocs) :=
  let count := Int32.ofNat cids.length
  let size := sizeT (sizeofOsCollId * count.toInt)
  if size < 2 ^ 63 then
    if size < sizeofOsCollId * cids.length then .error .outOfBounds
    else .ok ((CCEPH_OK, some count, some cids, store.relocked), .plenty)
  else .ok ((CCEPH_ERR_NO_ENOUGH_MEM, none, none, store.relocked), .plenty)

theorem memStoreListColl_spec {store : MemStore} (h : StoreOk store) :
    memStoreListColl store .plenty
      = listRead store (store.colls.toList.map MemStoreCollNode.cid) := by
  unfold memStoreListColl listRead
  rw [lockColls_run h.unlocked, rbWalk_eq]
  simp only [pthreadMutexUnlock_locked, pure_bind, List.length_map]
  generalize sizeT (sizeofOsCollId
    * (Int32.ofNat store.colls.toList.length).toInt) = size
  by_cases hsize : size < 2 ^ 63
  · rw [bind_ok (malloc_plenty hsize)]
    simp only [Bool.not_true, Bool.false_eq_true, if_false, if_pos hsize]
    by_cases hfit : size < sizeofOsCollId * store.colls.toList.length
    · simp only [if_pos hfit, fault_bind]
      rfl
    · simp only [if_neg hfit]
      rfl
  · rw [bind_ok (malloc_huge hsize)]
    simp only [if_neg hsize]
    rfl

/-- Stores with the same view hold the same collection ids. -/
theorem colls_cids_eq {colls colls' : BinTree MemStoreCollNode}
    (h : CollsOk colls) (h' : CollsOk colls')
    (hv : collsView colls = collsView colls') :
    colls.toList.map MemStoreCollNode.cid
      = colls'.toList.map MemStoreCollNode.cid := by
  refine keys_eq_of_lookup linearCmp_osCollIdCmp h.inOrder.inOrder
    h'.inOrder.inOrder ?_
  intro cid
  have hcid := congrArg Option.isSome (congrFun hv cid)
  unfold collsView at hcid
  rw [Option.isSome_map, Option.isSome_map] at hcid
  exact hcid

end CephInC
