/-
`cceph_mem_store_do_op` refines `viewOp`.

`CollsOk` is the invariant of the store's trees. `Refines` relates an
outcome of an op on the trees to the step it is on the view: it aborts
exactly where the step does, returns the step's code, keeps the
invariant, leaves the view the step leaves, and leaves the trees
themselves untouched when the code is not `CCEPH_OK`. The last part is
stronger than the view can say, and is what a failing op promises.

Each op searches its collection first, so each proof starts with
`CollsOk.search` and ends with `colls_setData`.
-/
import CephInC.Os.Proofs.Objects

namespace CephInC

open Lib

/-- `cceph_os_coll_id_cmp` orders collection ids linearly. -/
theorem linearCmp_osCollIdCmp : LinearCmp osCollIdCmp where
  eq_zero := by
    intro a b
    unfold osCollIdCmp
    rw [← Int32.toInt_inj]
    simp only [gt_iff_lt, Int32.lt_iff_toInt_lt]
    split
    · constructor <;> intro h <;> omega
    · split
      · constructor <;> intro h <;> omega
      · constructor <;> intro h <;> omega
  swap := by
    intro a b
    unfold osCollIdCmp
    simp only [gt_iff_lt, Int32.lt_iff_toInt_lt]
    split <;> split <;> omega
  trans := by
    intro a b c
    unfold osCollIdCmp
    simp only [gt_iff_lt, Int32.lt_iff_toInt_lt]
    intro h h'
    split at h
    · omega
    · split at h
      · split at h'
        · omega
        · split at h'
          · rw [if_neg (by omega), if_pos (by omega)]
            omega
          · omega
      · omega

/-- A stored collection. -/
structure CollOk (cnode : MemStoreCollNode) : Prop where
  cid : cnode.cid ≥ 0
  objects : ObjectsOk cnode.objects
  attrs : AttrsOk cnode.map

/-- The collections of a store. -/
structure CollsOk (colls : BinTree MemStoreCollNode) : Prop where
  inOrder : MapOk osCollIdCmp MemStoreCollNode.cid colls
  nodes : ∀ cid cnode,
    mapGet MemStoreCollNode.cid colls cid = some cnode → CollOk cnode

theorem collsOk_nil : CollsOk .nil where
  inOrder := mapOk_nil
  nodes := by
    intro cid cnode h
    rw [mapGet_nil] at h
    cases h

/-- What an op did to the trees, seen through the view as the step `f`. -/
def Refines (colls : BinTree MemStoreCollNode) (f : Step Fault StoreView) :
    Except Fault ((Int × BinTree MemStoreCollNode) × Allocs) → Prop
  | .error e => f (collsView colls) = .error e
  | .ok ((ret, colls'), s) => s = .plenty ∧ CollsOk colls'
      ∧ f (collsView colls) = .ok (ret, collsView colls')
      ∧ (ret ≠ CCEPH_OK → colls' = colls)

/-- What a search for a collection finds. -/
inductive CollFound (colls : BinTree MemStoreCollNode) (cid : OsCollId) :
    Int × Option (Loc MemStoreCollNode) → Prop where
  | absent (view : collsView colls cid = none)
      (get : mapGet MemStoreCollNode.cid colls cid = none) :
      CollFound colls cid (CCEPH_ERR_MAP_NODE_NOT_EXIST, none)
  | found (cnode : Loc MemStoreCollNode) (root : cnode.root = colls)
      (key : cnode.data.cid = cid) (ok : CollOk cnode.data)
      (view : collsView colls cid = some (collView cnode.data)) :
      CollFound colls cid (CCEPH_OK, some cnode)

theorem CollsOk.search {colls : BinTree MemStoreCollNode} (h : CollsOk colls)
    (cid : OsCollId) :
    CollFound colls cid (memStoreCollNodeMapSearch colls cid) := by
  unfold memStoreCollNodeMapSearch
  cases hk : mapGet MemStoreCollNode.cid colls cid with
  | none =>
      rw [implMapSearch_absent linearCmp_osCollIdCmp h.inOrder hk]
      refine .absent ?_ hk
      unfold collsView
      rw [hk]
      rfl
  | some cnode =>
      obtain ⟨place, hs, hroot, hdata, hkey⟩ :=
        implMapSearch_found linearCmp_osCollIdCmp h.inOrder hk
      rw [hs]
      refine .found place hroot (hdata ▸ hkey) (hdata ▸ h.nodes cid cnode hk)
        ?_
      unfold collsView
      rw [hk, hdata]
      rfl

/-- What a search for an object finds. -/
inductive ObjectFound (objects : BinTree MemStoreObjectNode) (oid : CString) :
    Int × Option (Loc MemStoreObjectNode) → Prop where
  | absent (view : objectsView objects oid = none) :
      ObjectFound objects oid (CCEPH_ERR_MAP_NODE_NOT_EXIST, none)
  | found (onode : Loc MemStoreObjectNode) (root : onode.root = objects)
      (key : onode.data.oid = oid) (ok : ObjectOk onode.data)
      (view : objectsView objects oid = some (objectView onode.data)) :
      ObjectFound objects oid (CCEPH_OK, some onode)

theorem ObjectsOk.search {objects : BinTree MemStoreObjectNode}
    (h : ObjectsOk objects) (oid : CString) :
    ObjectFound objects oid (memStoreObjectNodeMapSearch objects oid) := by
  unfold memStoreObjectNodeMapSearch
  cases hk : mapGet MemStoreObjectNode.oid objects oid with
  | none =>
      rw [implMapSearch_absent linearCmp_strcmp h.inOrder hk]
      refine .absent ?_
      unfold objectsView
      rw [hk]
      rfl
  | some onode =>
      obtain ⟨place, hs, hroot, hdata, hkey⟩ :=
        implMapSearch_found linearCmp_strcmp h.inOrder hk
      rw [hs]
      refine .found place hroot (hdata ▸ hkey) (hdata ▸ h.nodes oid onode hk)
        ?_
      unfold objectsView
      rw [hk, hdata]
      rfl

/-- Writing through a collection pointer. -/
theorem colls_setData {cnode : Loc MemStoreCollNode} (h : CollsOk cnode.root)
    {coll : MemStoreCollNode} (hok : CollOk coll)
    (hcid : coll.cid = cnode.data.cid) :
    CollsOk (cnode.setData coll).root
      ∧ collsView (cnode.setData coll).root
        = Function.update (collsView cnode.root) cnode.data.cid
            (some (collView coll)) := by
  have hget := setData_mapGet linearCmp_osCollIdCmp h.inOrder hcid
  refine ⟨⟨setData_mapOk h.inOrder hcid, ?_⟩, ?_⟩
  · refine mapGet_all hget h.nodes ?_
    intro a ha
    cases ha
    exact hok
  · exact mapGet_view hget fun x => x.map collView

theorem setObjects_self (cnode : Loc MemStoreCollNode) :
    setObjects cnode cnode.data.objects = cnode.root := rfl

/-- What a step returns at a collection id, it returns over the store. -/
theorem over_at {f : Step Fault (Option CollView)} {v : StoreView}
    {cid : OsCollId} {c : Int} {w : Option CollView}
    (h : f (v cid) = .ok (c, w)) :
    Step.over (.at cid) f v = .ok (c, Function.update v cid w) := by
  unfold Step.over
  rw [show (Lens.at cid).get v = v cid from rfl, h]
  rfl

theorem over_at_error {f : Step Fault (Option CollView)} {v : StoreView}
    {cid : OsCollId} {e : Fault} (h : f (v cid) = .error e) :
    Step.over (.at cid) f v = .error e := by
  unfold Step.over
  rw [show (Lens.at cid).get v = v cid from rfl, h]

/-- A step that returns at a collection id what it found there. -/
theorem over_at_same {f : Step Fault (Option CollView)} {v : StoreView}
    {cid : OsCollId} {c : Int} (h : f (v cid) = .ok (c, v cid)) :
    Step.over (.at cid) f v = .ok (c, v) := by
  rw [over_at h, Function.update_eq_self]

-- ========================================================== assertions

/-- An assertion is a guard. -/
theorem refines_assert {colls : BinTree MemStoreCollNode}
    {f : Step Fault StoreView} {p : Prop} [Decidable p]
    {x : Prog Allocs (Int × BinTree MemStoreCollNode)}
    (h : p → Refines colls f (x .plenty)) :
    Refines colls (.guard p .assertFail f)
      ((assert p >>= fun _ => x) .plenty) := by
  unfold Step.guard
  by_cases hp : p
  · rw [if_pos hp, assert_pos hp, pure_bind]
    exact h hp
  · rw [if_neg hp, assert_neg hp, fault_bind]
    rfl

/-- The pointer an assertion found to be non-NULL. -/
theorem deref_of_isSome {σ α : Type} {x : Option α} (h : x.isSome) (d : α) :
    (deref x : Prog σ α) = pure (x.getD d) := by
  obtain ⟨a, rfl⟩ := Option.isSome_iff_exists.mp h
  rfl

-- ================================================ ops on collections

theorem memStoreDoOpCollCreate_refines {colls : BinTree MemStoreCollNode}
    (h : CollsOk colls) (op : OsTranOp) :
    Refines colls (.guard (op.cid ≥ 0) .assertFail
        (.over (.at op.cid) collCreate))
      (memStoreDoOpCollCreate colls op .plenty) := by
  refine refines_assert fun hcid => ?_
  have hs := h.search op.cid
  generalize memStoreCollNodeMapSearch colls op.cid = found at hs ⊢
  cases hs with
  | found cnode root key ok view =>
      refine ⟨rfl, h, over_at_same ?_, fun _ => rfl⟩
      rw [view]
      rfl
  | absent view get =>
      obtain ⟨colls', hins, hok, hget⟩ := implMapInsert_fresh
        linearCmp_osCollIdCmp h.inOrder (a := ⟨op.cid, .nil, .nil⟩) get
      have hins' : memStoreCollNodeMapInsert colls ⟨op.cid, .nil, .nil⟩
        = .ok (CCEPH_OK, colls') := hins
      simp only [show ¬CCEPH_ERR_MAP_NODE_NOT_EXIST = CCEPH_OK by decide,
        if_false, assert_pos (show (none : Option
          (Loc MemStoreCollNode)).isNone = true from rfl), pure_bind]
      unfold memStoreCollNodeNew
      rw [assert_pos hcid, pure_bind, bind_run,
        bind_ok (malloc_plenty (show sizeofMemStoreCollNode < 2 ^ 63 by
          decide))]
      simp only [Bool.not_true, Bool.false_eq_true, if_false, pure_run,
        ne_eq, not_true_eq_false, deref_some, pure_bind, hins']
      refine ⟨rfl, ⟨hok, ?_⟩, ?_, fun hne => absurd rfl hne⟩
      · refine mapGet_all hget h.nodes ?_
        intro a ha
        cases ha
        exact ⟨hcid, objectsOk_nil, attrsOk_nil⟩
      · have hview : collsView colls'
            = Function.update (collsView colls) op.cid (some .empty) :=
          mapGet_view hget fun x => x.map collView
        rw [hview]
        refine over_at ?_
        rw [view]
        rfl

theorem memStoreDoOpCollRemove_refines {colls : BinTree MemStoreCollNode}
    (h : CollsOk colls) (op : OsTranOp) :
    Refines colls (.guard (op.cid ≥ 0) .assertFail
        (.over (.at op.cid) collRemove))
      (memStoreDoOpCollRemove colls op .plenty) := by
  refine refines_assert fun _ => ?_
  have hs := h.search op.cid
  generalize memStoreCollNodeMapSearch colls op.cid = found at hs ⊢
  cases hs with
  | absent view get =>
      refine ⟨rfl, h, over_at_same ?_, fun _ => rfl⟩
      rw [view]
      rfl
  | found cnode root key ok view =>
      subst root
      obtain ⟨colls', hrem, hok, hget⟩ := implMapRemove_spec
        linearCmp_osCollIdCmp h.inOrder
      rw [key] at hget
      have hrem' : memStoreCollNodeMapRemove cnode
        = .ok (CCEPH_OK, colls') := hrem
      simp only [ne_eq, not_true_eq_false, if_false, deref_some, pure_bind,
        hrem']
      refine ⟨rfl, ⟨hok, ?_⟩, ?_, fun hne => absurd rfl hne⟩
      · refine mapGet_all hget h.nodes ?_
        intro a ha
        cases ha
      · have hview : collsView colls'
            = Function.update (collsView cnode.root) op.cid none :=
          mapGet_view hget fun x => x.map collView
        rw [hview]
        refine over_at ?_
        rw [view]
        rfl

theorem memStoreDoOpCollMap_refines {colls : BinTree MemStoreCollNode}
    (h : CollsOk colls) (op : OsTranOp) :
    Refines colls (.guard (op.cid ≥ 0) .assertFail
        (.guard op.map.isSome .assertFail
          (.over (.at op.cid) (collMap op.nodes))))
      (memStoreDoOpCollMap colls op .plenty) := by
  refine refines_assert fun _ => refines_assert fun hm => ?_
  rw [deref_of_isSome hm .nil, pure_bind]
  have hs := h.search op.cid
  generalize memStoreCollNodeMapSearch colls op.cid = found at hs ⊢
  cases hs with
  | absent view get =>
      refine ⟨rfl, h, over_at_same ?_, fun _ => rfl⟩
      rw [view]
      rfl
  | found cnode root key ok view =>
      subst root
      have hup := osMapUpdate_spec ok.attrs (op.map.getD .nil)
      simp only [ne_eq, not_true_eq_false, if_false, deref_some, pure_bind]
      rw [bind_run]
      cases hx : osMapUpdate cnode.data.map (op.map.getD .nil) .plenty with
      | error e =>
          rw [hx] at hup
          refine over_at_error ?_
          rw [view]
          show Step.onSome _ _ (some _) = _
          unfold UpdateOk at hup
          simp only [Step.onSome, Step.over, attrsStep, CollView.attrsLens,
            collView, OsTranOp.nodes, hup]
      | ok r =>
          obtain ⟨⟨ret, map⟩, s⟩ := r
          rw [hx] at hup
          have hr := osMapUpdate_ret hx
          subst hr
          obtain ⟨rfl, hok, hview⟩ := hup
          have hcoll : CollOk { cnode.data with map } :=
            ⟨ok.cid, ok.objects, hok⟩
          obtain ⟨hcolls, hcview⟩ := colls_setData h hcoll rfl
          refine ⟨rfl, hcolls, ?_, fun hne => absurd rfl hne⟩
          unfold setCollMap
          rw [hcview, key]
          refine over_at ?_
          rw [view]
          show Step.onSome _ _ (some _) = _
          simp only [Step.onSome, Step.over, attrsStep, CollView.attrsLens,
            collView, OsTranOp.nodes, hview]

-- ==================================================== ops on objects

theorem colls_setObjects {cnode : Loc MemStoreCollNode}
    (h : CollsOk cnode.root) (hok : CollOk cnode.data)
    {objects : BinTree MemStoreObjectNode} (ho : ObjectsOk objects) :
    CollsOk (setObjects cnode objects)
      ∧ collsView (setObjects cnode objects)
        = Function.update (collsView cnode.root) cnode.data.cid
            (some ⟨objectsView objects, attrsView cnode.data.map⟩) :=
  colls_setData h ⟨hok.cid, ho, hok.attrs⟩ rfl

/-- A step on an object that returns, lifted to the store. -/
theorem refines_object {cnode : Loc MemStoreCollNode} {cid : OsCollId}
    (h : CollsOk cnode.root) (key : cnode.data.cid = cid)
    (ok : CollOk cnode.data)
    (view : collsView cnode.root cid = some (collView cnode.data))
    {f : Step Fault (Option ObjectView)} {oid : CString} {c d : Int}
    {w : Option ObjectView} {objects : BinTree MemStoreObjectNode}
    (hf : f (objectsView cnode.data.objects oid) = .ok (d, w))
    (ho : ObjectsOk objects)
    (hw : objectsView objects
      = Function.update (objectsView cnode.data.objects) oid w)
    (hd : d ≠ CCEPH_OK → objects = cnode.data.objects) :
    Refines cnode.root (.over (.at cid) (inColl c oid f))
      (.ok ((d, setObjects cnode objects), .plenty)) := by
  obtain ⟨hcolls, hcview⟩ := colls_setObjects h ok ho
  refine ⟨rfl, hcolls, ?_, ?_⟩
  · rw [hcview, key]
    refine over_at ?_
    rw [view]
    show Step.onSome _ _ (some _) = _
    simp only [Step.onSome, Step.over, CollView.objectLens, collView, hf, hw]
  · intro hne
    rw [hd hne, setObjects_self]

/-- A step on an object that aborts, lifted to the store. -/
theorem refines_object_error {cnode : Loc MemStoreCollNode} {cid : OsCollId}
    (view : collsView cnode.root cid = some (collView cnode.data))
    {f : Step Fault (Option ObjectView)} {oid : CString} {c : Int} {e : Fault}
    (hf : f (objectsView cnode.data.objects oid) = .error e) :
    Refines cnode.root (.over (.at cid) (inColl c oid f)) (.error e) := by
  refine over_at_error ?_
  rw [view]
  show Step.onSome _ _ (some _) = _
  simp only [Step.onSome, Step.over, CollView.objectLens, collView, hf]

/-- The write past its assertions. -/
theorem memStoreObjWriteBody_refines {colls : BinTree MemStoreCollNode}
    (h : CollsOk colls) {op : OsTranOp} (hoid : op.oid.isSome)
    (hoff : op.offset ≥ 0) (hlen : op.length ≥ 0)
    (hdata : op.length > 0 → op.data.isSome) :
    Refines colls (.over (.at op.cid) (inColl CCEPH_ERR_COLL_NOT_EXIST op.name
        (objectWrite op.name op.offset op.length (op.data.getD []))))
      (memStoreObjWriteBody colls op .plenty) := by
  unfold memStoreObjWriteBody
  rw [deref_of_isSome hoid ⟨[], List.not_mem_nil⟩, pure_bind]
  have hs := h.search op.cid
  generalize memStoreCollNodeMapSearch colls op.cid = found at hs ⊢
  cases hs with
  | absent view get =>
      refine ⟨rfl, h, over_at_same ?_, fun _ => rfl⟩
      rw [view]
      rfl
  | found cnode root key ok view =>
      subst root
      have hopen := memStoreObjectOpen_spec ok.objects op.name
      simp only [ne_eq, not_true_eq_false, if_false, deref_some, pure_bind]
      rw [bind_run, show op.oid.getD ⟨[], List.not_mem_nil⟩ = op.name from rfl]
      cases hx : memStoreObjectOpen cnode.data.objects op.name .plenty with
      | error e =>
          rw [hx] at hopen
          unfold OpenOk at hopen
          refine refines_object_error view ?_
          simp only [objectWrite, hopen]
      | ok r =>
          obtain ⟨⟨ret, objects, place⟩, s⟩ := r
          rw [hx] at hopen
          cases place with
          | none =>
              obtain ⟨rfl, hne, rfl, hopen, hnone⟩ := hopen
              simp only [if_pos hne]
              refine refines_object h key ok view (w := none) ?_ ok.objects ?_
                (fun _ => rfl)
              · simp only [objectWrite, hopen]
              · rw [← hnone, Function.update_eq_self]
          | some onode =>
              obtain ⟨rfl, rfl, hobjs, hroot, hname, hopen, hview⟩ := hopen
              subst hroot
              have hwrite := memStoreObjectWrite_spec (objectOk_of_root hobjs)
                hname hoff hlen hdata
              simp only [not_true_eq_false, if_false, deref_some, pure_bind]
              rw [bind_run]
              cases hy : memStoreObjectWrite onode.data op.name op .plenty with
              | error e =>
                  rw [hy] at hwrite
                  unfold ContentOk at hwrite
                  refine refines_object_error view ?_
                  simp only [objectWrite, hopen, objectView, hwrite]
              | ok r =>
                  obtain ⟨⟨ret, object⟩, s⟩ := r
                  rw [hy] at hwrite
                  obtain ⟨rfl, rfl, hok, hcontent⟩ := hwrite
                  obtain ⟨hobjs', hview'⟩ := objects_setData hobjs hok.ok hok.oid
                  refine refines_object h key ok view
                    (w := some (objectView object)) ?_ hobjs' ?_
                    (fun hne => absurd rfl hne)
                  · simp only [objectWrite, hopen, objectView, hcontent,
                      hok.map]
                  · rw [hview', hview, hname, Function.update_idem]

theorem memStoreDoOpObjWrite_refines {colls : BinTree MemStoreCollNode}
    (h : CollsOk colls) (op : OsTranOp) :
    Refines colls (viewWrite op) (memStoreDoOpObjWrite colls op .plenty) := by
  refine refines_assert fun _ => refines_assert fun hoid =>
    refines_assert fun hoff => refines_assert fun hlen => ?_
  by_cases hd : op.length > 0 → op.data.isSome
  · have hbody := memStoreObjWriteBody_refines h hoid hoff hlen hd
    unfold Step.guard
    rw [if_pos hd]
    by_cases hpos : op.length > 0
    · simp only [if_pos hpos, assert_pos (hd hpos), pure_bind]
      exact hbody
    · simp only [if_neg hpos]
      exact hbody
  · obtain ⟨hpos, hnone⟩ := Classical.not_imp.mp hd
    unfold Step.guard
    rw [if_neg hd]
    simp only [if_pos hpos, assert_neg hnone, fault_bind]
    rfl

theorem memStoreDoOpObjRemove_refines {colls : BinTree MemStoreCollNode}
    (h : CollsOk colls) (op : OsTranOp) :
    Refines colls (.guard (op.cid ≥ 0) .assertFail
        (.guard op.oid.isSome .assertFail
          (.over (.at op.cid) (inColl CCEPH_ERR_COLL_NOT_EXIST op.name
            objectRemove))))
      (memStoreDoOpObjRemove colls op .plenty) := by
  refine refines_assert fun _ => refines_assert fun hoid => ?_
  rw [deref_of_isSome hoid ⟨[], List.not_mem_nil⟩, pure_bind]
  have hs := h.search op.cid
  generalize memStoreCollNodeMapSearch colls op.cid = found at hs ⊢
  cases hs with
  | absent view get =>
      refine ⟨rfl, h, over_at_same ?_, fun _ => rfl⟩
      rw [view]
      rfl
  | found cnode root key ok view =>
      subst root
      simp only [ne_eq, not_true_eq_false, if_false, deref_some, pure_bind]
      rw [show op.oid.getD ⟨[], List.not_mem_nil⟩ = op.name from rfl]
      have ho := ok.objects.search op.name
      generalize memStoreObjectNodeMapSearch cnode.data.objects op.name
        = found at ho ⊢
      cases ho with
      | absent oview =>
          refine ⟨rfl, h, over_at_same ?_, fun _ => rfl⟩
          rw [view]
          show Step.onSome _ _ (some _) = _
          simp only [Step.onSome, Step.over, CollView.objectLens, collView,
            oview, objectRemove]
          rw [← oview, Function.update_eq_self]
      | found onode root okey ook oview =>
          have hroot : MapOk strcmp MemStoreObjectNode.oid onode.root := by
            rw [root]
            exact ok.objects.inOrder
          obtain ⟨objects, hrem, hok, hget⟩ :=
            implMapRemove_spec linearCmp_strcmp hroot
          rw [okey, root] at hget
          have hrem' : memStoreObjectNodeMapRemove onode
            = .ok (CCEPH_OK, objects) := hrem
          simp only [not_true_eq_false, if_false, deref_some, pure_bind,
            hrem']
          refine refines_object h key ok view (w := none) ?_ ⟨hok, ?_⟩ ?_
            (fun hne => absurd rfl hne)
          · rw [oview]
            rfl
          · refine mapGet_all hget ok.objects.nodes ?_
            intro a ha
            cases ha
          · exact mapGet_view hget fun x => x.map objectView

theorem memStoreDoOpObjMap_refines {colls : BinTree MemStoreCollNode}
    (h : CollsOk colls) (op : OsTranOp) :
    Refines colls (.guard (op.cid ≥ 0) .assertFail
        (.guard op.oid.isSome .assertFail
          (.guard op.map.isSome .assertFail
            (.over (.at op.cid) (inColl CCEPH_ERR_MAP_NODE_NOT_EXIST op.name
              (objectMap op.nodes))))))
      (memStoreDoOpObjMap colls op .plenty) := by
  refine refines_assert fun _ => refines_assert fun hoid =>
    refines_assert fun hm => ?_
  rw [deref_of_isSome hoid ⟨[], List.not_mem_nil⟩, pure_bind,
    deref_of_isSome hm .nil, pure_bind]
  have hs := h.search op.cid
  generalize memStoreCollNodeMapSearch colls op.cid = found at hs ⊢
  cases hs with
  | absent view get =>
      refine ⟨rfl, h, over_at_same ?_, fun _ => rfl⟩
      rw [view]
      rfl
  | found cnode root key ok view =>
      subst root
      simp only [ne_eq, not_true_eq_false, if_false, deref_some, pure_bind]
      rw [show op.oid.getD ⟨[], List.not_mem_nil⟩ = op.name from rfl]
      have ho := ok.objects.search op.name
      generalize memStoreObjectNodeMapSearch cnode.data.objects op.name
        = found at ho ⊢
      cases ho with
      | absent oview =>
          refine ⟨rfl, h, over_at_same ?_, fun _ => rfl⟩
          rw [view]
          show Step.onSome _ _ (some _) = _
          simp only [Step.onSome, Step.over, CollView.objectLens, collView,
            oview, objectMap]
          rw [← oview, Function.update_eq_self]
      | found onode root okey ook oview =>
          have hup := osMapUpdate_spec ook.attrs (op.map.getD .nil)
          simp only [not_true_eq_false, if_false, deref_some, pure_bind]
          rw [bind_run]
          cases hx : osMapUpdate onode.data.map (op.map.getD .nil) .plenty with
          | error e =>
              rw [hx] at hup
              unfold UpdateOk at hup
              refine refines_object_error view ?_
              rw [oview]
              simp only [objectMap, Step.onSome, Step.over, attrsStep,
                ObjectView.attrsLens, objectView, OsTranOp.nodes, hup]
          | ok r =>
              obtain ⟨⟨ret, map⟩, s⟩ := r
              rw [hx] at hup
              have hr := osMapUpdate_ret hx
              subst hr
              obtain ⟨rfl, hok, hview⟩ := hup
              have hobjs : ObjectsOk onode.root := by
                rw [root]
                exact ok.objects
              have hobject : ObjectOk { onode.data with map } :=
                ⟨hok, ook.length⟩
              obtain ⟨hobjs', hview'⟩ := objects_setData hobjs hobject rfl
              refine refines_object h key ok view
                (w := some ⟨onode.data.content, attrsView map⟩) ?_ hobjs' ?_
                (fun hne => absurd rfl hne)
              · rw [oview]
                simp only [objectMap, Step.onSome, Step.over, attrsStep,
                  ObjectView.attrsLens, objectView, OsTranOp.nodes, hview]
              · rw [hview', root, okey]
                rfl

-- ============================================================ any op

/-- `cceph_mem_store_do_op` on an op. -/
theorem memStoreDoOp_refines {colls : BinTree MemStoreCollNode}
    (h : CollsOk colls) (op : OsTranOp) :
    Refines colls (viewOp op) (memStoreDoOp colls (some op) .plenty) := by
  unfold memStoreDoOp viewOp
  rw [assert_pos (show (some op).isSome = true from rfl), pure_bind,
    deref_some, pure_bind]
  cases op.op with
  | noop => exact ⟨rfl, h, rfl, fun _ => rfl⟩
  | unknown => exact ⟨rfl, h, rfl, fun _ => rfl⟩
  | collCreate => exact memStoreDoOpCollCreate_refines h op
  | collRemove => exact memStoreDoOpCollRemove_refines h op
  | collMap => exact memStoreDoOpCollMap_refines h op
  | objTouch => exact memStoreDoOpObjWrite_refines h _
  | objWrite => exact memStoreDoOpObjWrite_refines h op
  | objRemove => exact memStoreDoOpObjRemove_refines h op
  | objMap => exact memStoreDoOpObjMap_refines h op

end CephInC
