/-
The memory store is linearizable as a plain map.

One call from a store in order comes out as the map says
(`storeCall_view`), so calls in a row do (`storeCalls_view`). With the
order that `memStore_linearizable` finds, any number of threads see the
map.
-/
import CephInC.Os.Proofs.Logged
import CephInC.Os.Proofs.StoreCalls
import CephInC.Os.StoreSpec

namespace CephInC

open Lib

-- ============================================================== the readers

/-- Copying a stored tree over the caller's. -/
theorem osMapUpdate_merge {map stored : BinTree OsMapNode} (h : AttrsOk map)
    (hs : AttrsOk stored) :
    ∃ map', osMapUpdate map stored .plenty = .ok ((CCEPH_OK, map'), .plenty)
      ∧ attrsView map' = mergeAttrs (attrsView stored) (attrsView map) := by
  have hnodes : attrsUpdate stored.toList (attrsView map)
      = .ok (mergeAttrs (attrsView stored) (attrsView map)) := by
    rw [attrsUpdate_nodes _ hs.inOrder.inOrder hs.mem]
    congr 1
    funext key
    unfold mergeAttrs
    show _ = ((lookup OsMapNode.key key stored.toList).bind OsMapNode.value).or (attrsView map key)
    cases hkey : lookup OsMapNode.key key stored.toList with
    | none => rfl
    | some node =>
        obtain ⟨bytes, hv, -⟩ := (hs.nodes key node hkey).value
        show node.value = node.value.or _
        rw [hv]
        rfl
  have hup := osMapUpdate_spec h stored
  cases hx : osMapUpdate map stored .plenty with
  | error e =>
      rw [hx] at hup
      unfold UpdateOk at hup
      rw [hnodes] at hup
      cases hup
  | ok r =>
      obtain ⟨⟨ret, map'⟩, s⟩ := r
      rw [hx] at hup
      obtain ⟨rfl, hok, hview⟩ := hup
      rw [hnodes] at hview
      cases osMapUpdate_ret hx
      exact ⟨map', rfl, (Except.ok.inj hview).symm⟩

/-- How a whole-map reader came out. -/
theorem MapReadOk.outcome {store : MemStore} {map : BinTree OsMapNode} {found : Int ⊕ AttrsView}
    {x : Except Fault ((Int × BinTree OsMapNode × MemStore) × Allocs)}
    (h : MapReadOk store map found x) (hmap : AttrsOk map) :
    ∃ ret map', x = .ok ((ret, map', store.relocked), .plenty)
      ∧ SeenAnswer.attrs ret (attrsView map') = mapAnswer found (attrsView map) := by
  cases h with
  | absent hfound _ =>
      subst hfound
      exact ⟨_, map, rfl, rfl⟩
  | found hok hfound =>
      subst hfound
      obtain ⟨map', hrun, hview⟩ := osMapUpdate_merge hmap hok
      refine ⟨CCEPH_OK, map', ?_, ?_⟩
      · unfold mapRead
        rw [hrun]
      · rw [hview]
        rfl

theorem osCollIdCmp_neg {cid cid' : OsCollId} (h : osCollIdCmp cid cid' < 0) :
    cid.toInt < cid'.toInt := by
  unfold osCollIdCmp at h
  by_cases hgt : cid > cid'
  · rw [if_pos hgt] at h
    omega
  · rw [if_neg hgt] at h
    by_cases hlt : cid < cid'
    · exact Int32.lt_iff_toInt_lt.mp hlt
    · rw [if_neg hlt] at h
      omega

/-- The ids of the nodes are the ids in use. -/
theorem CollsOk.isIdList {colls : BinTree MemStoreCollNode} (h : CollsOk colls) :
    IsIdList (collsView colls) (colls.toList.map MemStoreCollNode.cid) where
  ascending := List.pairwise_map.mpr (h.inOrder.inOrder.imp fun hlt => osCollIdCmp_neg hlt)
  mem cid := by
    unfold collsView
    rw [Option.isSome_map]
    show _ ↔ (lookup MemStoreCollNode.cid cid colls.toList).isSome = true
    constructor
    · intro hmem
      obtain ⟨cnode, hcnode, rfl⟩ := List.mem_map.mp hmem
      rw [h.inOrder.inOrder.lookup_of_mem linearCmp_osCollIdCmp hcnode]
      rfl
    · intro hsome
      obtain ⟨cnode, hcnode⟩ := Option.isSome_iff_exists.mp hsome
      exact List.mem_map.mpr ⟨cnode, lookup_mem hcnode⟩

-- ================================================================ one call

section
variable {store : MemStore}

/-- A transaction is the steps of its ops. -/
theorem submitTran_view (h : StoreOk store) {tran : OsTran} {logId : Int64}
    (hlines : tran.LinesFit logId) :
    Seen (ViewCall store.view (.submitTran tran logId)) StoreHolds StoreAnswer.seen .plenty
      (storeCall store (.submitTran tran logId) .plenty) := by
  have hsubmit := memStoreSubmitTran_refines h tran
  show Seen _ _ _ _ ((memStoreSubmitTranLogged log logId store tran >>= fun r =>
    pure (StoreAnswer.code r.1, r.2)) .plenty)
  rw [memStoreSubmitTranLogged_fits hlines, bind_run]
  cases hx : memStoreSubmitTran store tran .plenty with
  | error e =>
      rw [hx] at hsubmit
      show Except.error e = (Step.seq (tranSteps tran) store.view).map _
      rw [show Step.seq (tranSteps tran) store.view = .error e from hsubmit]
      rfl
  | ok r =>
      obtain ⟨⟨ret, store'⟩, s⟩ := r
      rw [hx] at hsubmit
      obtain ⟨rfl, hok, hfree, hview⟩ := hsubmit
      refine ⟨rfl, store'.view, ?_, ⟨hok, hfree⟩, rfl⟩
      show _ = (Step.seq (tranSteps tran) store.view).map _
      rw [hview]
      rfl

theorem readObj_view (h : StoreOk store) (cid : OsCollId) (oid : CString) (offset length : Int64)
    {logId : Int64} (hlines : (MemStoreCall.readObj cid oid offset length logId).LinesFit) :
    Seen (ViewCall store.view (.readObj cid oid offset length logId)) StoreHolds
      StoreAnswer.seen .plenty
      (storeCall store (.readObj cid oid offset length logId) .plenty) := by
  show Seen _ _ _ _ ((memStoreReadObjLogged log logId store cid oid offset length >>= fun r =>
    pure (StoreAnswer.data r.1 r.2.1 r.2.2.1, r.2.2.2)) .plenty)
  by_cases hoff : offset ≥ 0
  · rw [(memStoreReadObjLogged_lines h.keyed logId cid oid hoff length).fits (hlines _),
      bind_ok (memStoreReadObj_spec h cid oid hoff length)]
    refine ⟨rfl, store.view, ?_, h.relocked, rfl⟩
    show if offset ≥ 0 then _ else _
    rw [if_pos hoff]
    rfl
  · have hassert : memStoreReadObjLogged log logId store cid oid offset length .plenty
        = .error .assertFail := by
      unfold memStoreReadObjLogged
      rw [assert_neg hoff, fault_bind]
      rfl
    rw [bind_error hassert]
    show if offset ≥ 0 then _ else _
    rw [if_neg hoff]

/-- The block is as long as an `int` says, and holds the ids in use. -/
theorem listColl_view (h : StoreOk store) :
    Seen (ViewCall store.view .listColl) StoreHolds StoreAnswer.seen .plenty
      (storeCall store .listColl .plenty) := by
  show Seen _ _ _ _ ((memStoreListColl store >>= fun r =>
    pure (StoreAnswer.colls r.1 r.2.1 r.2.2.1, r.2.2.2)) .plenty)
  rw [bind_run, memStoreListColl_spec h]
  have hids := h.colls.isIdList
  generalize store.colls.toList.map MemStoreCollNode.cid = cids at hids
  have hanswer : ∀ a, listAnswer cids = .ok a →
      ViewCall store.view .listColl (.ok (a, store.view)) := by
    intro a ha
    refine ⟨cids, hids, ?_⟩
    rw [ha]
    rfl
  unfold listAnswer at hanswer
  unfold listRead
  by_cases hsize : sizeT (sizeofOsCollId * (Int32.ofNat cids.length).toInt) < 2 ^ 63
  · simp only [if_pos hsize] at hanswer ⊢
    by_cases hfit : sizeT (sizeofOsCollId * (Int32.ofNat cids.length).toInt)
        < sizeofOsCollId * cids.length
    · simp only [if_pos hfit]
      refine ⟨cids, hids, ?_⟩
      unfold listAnswer
      simp only [if_pos hsize, if_pos hfit]
      rfl
    · simp only [if_neg hfit] at hanswer ⊢
      exact ⟨rfl, store.view, hanswer _ rfl, h.relocked, rfl⟩
  · simp only [if_neg hsize] at hanswer ⊢
    exact ⟨rfl, store.view, hanswer _ rfl, h.relocked, rfl⟩

end

/-- What a call does to a store in order is what it does to the map. -/
theorem storeCall_view {store : MemStore} (h : StoreOk store) {call : MemStoreCall}
    (hcall : call.Ok) :
    Seen (ViewCall store.view call) StoreHolds StoreAnswer.seen .plenty
      (storeCall store call .plenty) := by
  have hmaps := hcall.maps
  have hlines := hcall.lines
  cases call with
  | submitTran tran logId => exact submitTran_view h hlines
  | readObj cid oid offset length logId => exact readObj_view h cid oid offset length hlines
  | listColl => exact listColl_view h
  | existColl cid =>
      show Seen _ _ _ _ ((memStoreExistColl store cid >>= fun r =>
        pure (StoreAnswer.existed r.1 r.2.1, r.2.2)) .plenty)
      rw [bind_ok (memStoreExistColl_spec h cid)]
      exact ⟨rfl, store.view, rfl, h.relocked, rfl⟩
  | readCollMap cid map =>
      obtain ⟨ret, map', hrun, hseen⟩ := (memStoreReadCollMap_spec h cid map).outcome hmaps
      show Seen _ _ _ _ ((memStoreReadCollMap store cid map >>= fun r =>
        pure (StoreAnswer.attrs r.1 r.2.1, r.2.2)) .plenty)
      rw [bind_ok hrun]
      refine ⟨rfl, store.view, ?_, h.relocked, rfl⟩
      show Except.ok (SeenAnswer.attrs ret (attrsView map'), store.view) = _
      rw [hseen]
  | readCollMapKey cid key logId =>
      show Seen _ _ _ _ ((memStoreReadCollMapKeyLogged log logId store cid key >>= fun r =>
        pure (StoreAnswer.value r.1 r.2.1 r.2.2.1, r.2.2.2)) .plenty)
      rw [(memStoreReadCollMapKeyLogged_lines h.keyed logId cid key).fits (hlines _),
        bind_ok (memStoreReadCollMapKey_spec h cid key)]
      exact ⟨rfl, store.view, rfl, h.relocked, rfl⟩
  | readObjMap cid oid map logId =>
      obtain ⟨ret, map', hrun, hseen⟩ := (memStoreReadObjMap_spec h cid oid map).outcome hmaps
      show Seen _ _ _ _ ((memStoreReadObjMapLogged log logId store cid oid map >>= fun r =>
        pure (StoreAnswer.attrs r.1 r.2.1, r.2.2)) .plenty)
      rw [(memStoreReadObjMapLogged_lines h.keyed logId cid oid map).fits (hlines _), bind_ok hrun]
      refine ⟨rfl, store.view, ?_, h.relocked, rfl⟩
      show Except.ok (SeenAnswer.attrs ret (attrsView map'), store.view) = _
      rw [hseen]
  | readObjMapKey cid oid key logId =>
      show Seen _ _ _ _ ((memStoreReadObjMapKeyLogged log logId store cid oid key >>= fun r =>
        pure (StoreAnswer.value r.1 r.2.1 r.2.2.1, r.2.2.2)) .plenty)
      rw [(memStoreReadObjMapKeyLogged_lines h.keyed logId cid oid key).fits (hlines _),
        bind_ok (memStoreReadObjMapKey_spec h cid oid key)]
      exact ⟨rfl, store.view, rfl, h.relocked, rfl⟩

-- ============================================================== calls in a row

theorem memStoreFuncs_servesMap : ServesMap memStoreFuncs MemStoreCall.Ok StoreHolds := by
  rintro store v call ⟨hok, rfl⟩ hcall
  exact storeCall_view hok hcall

theorem storeCalls_view (calls : List MemStoreCall) {store : MemStore} (h : StoreOk store)
    (hcalls : ∀ c ∈ calls, c.Ok) :
    Seen (ViewCalls store.view calls) StoreHolds (List.map StoreAnswer.seen) .plenty
      (storeCalls calls store .plenty) :=
  callsInTurn_seen memStoreFuncs_servesMap calls ⟨h, rfl⟩ hcalls

-- ======================================================= the main result

/-- The calls of the threads bring trees that the map functions build, and
names that LOG has room for. -/
def CallOkAct {τ : Type} (_m : Threads τ MemStoreCall StoreAnswer (MemStore × Allocs) Fault) :
    ThreadAct τ MemStoreCall → Prop
  | .call _ c => c.Ok
  | _ => True

/-- What the threads showed is what the calls of the list show on the map,
and where they left the store is where these leave the map. -/
structure OnMap {τ : Type} [DecidableEq τ]
    (m : Threads τ MemStoreCall StoreAnswer (MemStore × Allocs) Fault)
    (spans : List (CallSpan τ MemStoreCall StoreAnswer)) : Prop where
  lin : Linearizes m.history spans
  runs : ∃ v, ViewCalls (fun _ => none) (spans.map CallSpan.call)
      (.ok (spans.map fun o => o.answer.seen, v))
    ∧ (m.object.1.lock.held = false → m.object.1.view = v)
  fails : ∀ t e, m.Fails storeLock t e → ∃ i c, Pending m.history t i c
    ∧ ViewCalls (fun _ => none) (spans.map CallSpan.call ++ [c]) (.error e)

/-- Threads on a new store, while memory lasts. -/
theorem memStore_onMap {τ : Type} [DecidableEq τ]
    {m : Threads τ MemStoreCall StoreAnswer (MemStore × Allocs) Fault}
    (h : (storeThreads .fresh .plenty).Reached CallOkAct m) : ∃ spans, OnMap m spans := by
  obtain ⟨spans, hm⟩ := memStore_oneByOne (h.mono fun _ _ _ => trivial)
  have hhistory : ∀ t c, CallEvent.call t c ∈ m.history → c.Ok :=
    calls_of_reached (fun _ _ _ hc => hc) h
  have hcalls : ∀ c ∈ spans.map CallSpan.call, c.Ok := by
    refine List.forall_mem_map.mpr fun o ho => hhistory o.thread o.call ?_
    exact List.mem_of_getElem? (hm.lin.invoked o ho)
  have hview := fun calls => storeCalls_view calls reachable_fresh.ok
  refine ⟨spans, hm.lin, ?_, fun t e hfails => ?_⟩
  · obtain ⟨left, hruns, hleft⟩ := hm.runs
    have hall := hview _ hcalls
    rw [hruns] at hall
    obtain ⟨-, v, hshown, -, hv⟩ := hall
    rw [List.map_map] at hshown
    exact ⟨v, hshown, fun hheld => by rw [hleft hheld, hv]⟩
  · obtain ⟨i, c, hp, -, hends⟩ := hm.fails t e hfails
    have hc : c.Ok := hhistory t c (List.mem_of_getElem? hp.1)
    have hall := hview (spans.map CallSpan.call ++ [c])
      (List.forall_mem_append.mpr ⟨hcalls, List.forall_mem_singleton.mpr hc⟩)
    rw [hends] at hall
    exact ⟨i, c, hp, hall⟩

/-- Two threads, one of which asks for the collection the other
creates. -/
theorem memStore_onMap_two :
    ∃ (m : Threads Bool MemStoreCall StoreAnswer (MemStore × Allocs) Fault)
      (spans : List (CallSpan Bool MemStoreCall StoreAnswer)),
      (storeThreads .fresh .plenty).exec ⟨(.fresh, .plenty), fun _ => none, []⟩ askWhileCreating
        = some m
      ∧ m.history.length = 4 ∧ OnMap m spans := by
  have hstart : (storeThreads .fresh .plenty).Reached CallOkAct
      (⟨(.fresh, .plenty), fun _ => none, []⟩ : Threads Bool MemStoreCall StoreAnswer _ _) :=
    .start ⟨rfl, rfl⟩
  have hrun : ∃ m, (storeThreads .fresh .plenty).exec ⟨(.fresh, .plenty), fun _ => none, []⟩
      askWhileCreating = some m ∧ m.history.length = 4 := ⟨_, rfl, rfl⟩
  obtain ⟨m, hexec, hlen⟩ := hrun
  have hacts : ∀ act ∈ askWhileCreating, ∀ m : Threads Bool MemStoreCall StoreAnswer _ _,
      CallOkAct m act := by
    have hcreate : (MemStoreCall.submitTran
        (.mk [⟨1, .collCreate, 1, none, 0, 0, none, none⟩] 1 1) 1).Ok := by
      refine ⟨trivial, fun i op hop l hl => ?_⟩
      have hmem := List.mem_of_getElem? (osTranGetOp_some hop).2
      rw [List.mem_singleton.mp hmem] at hl
      cases hl
    have hask : (MemStoreCall.existColl 1).Ok := ⟨trivial, trivial⟩
    unfold askWhileCreating
    simp [CallOkAct, hcreate, hask]
  have hm := System.Reached.exec askWhileCreating hacts hstart hexec
  obtain ⟨spans, hspans⟩ := memStore_onMap hm
  exact ⟨m, spans, hexec, hlen, hspans⟩

end CephInC
