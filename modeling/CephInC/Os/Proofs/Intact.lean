/-
What an op that fails leaves of a store, whatever `malloc` refuses.

Most ops allocate before they touch a tree, or report success whatever
happened below them, so a failure has changed nothing. A write links its
new object first and asks for the block of its bytes afterwards; if that
is refused the empty object stays (`memStoreObjWriteBody_end`).
-/
import CephInC.Os.Proofs.Existence
import CephInC.Os.Proofs.Partial
import CephInC.Os.Refused

namespace CephInC

open Lib

/-- An insertion that fails has changed nothing. -/
theorem implMapInsert_intact {α κ : Type} [DecidableEq κ] {cmp : κ → κ → Int} {key : α → κ}
    (hc : LinearCmp cmp) {t : BinTree α} (h : MapOk cmp key t) {a : α} {r : Int × BinTree α}
    (hr : implMapInsert cmp key t a = .ok r) (hret : r.1 ≠ CCEPH_OK) : r.2 = t := by
  cases hk : mapGet key t (key a) with
  | none =>
      obtain ⟨t', ht', -, -⟩ := implMapInsert_fresh hc h hk
      rw [ht'] at hr
      cases hr
      exact absurd rfl hret
  | some old =>
      rw [implMapInsert_exists hc h (by rw [hk]; exact Option.some_ne_none old)] at hr
      cases hr
      rfl

/-- A failure of this computation leaves the trees as they were. -/
def Intact (colls : BinTree MemStoreCollNode) (x : Prog Allocs (Int × BinTree MemStoreCollNode)) :
    Prop :=
  Ensures x fun r => r.1 ≠ CCEPH_OK → r.2 = colls

section
variable {colls : BinTree MemStoreCollNode}

theorem intact_same (ret : Int) : Intact colls (pure (ret, colls)) := .pure fun _ => rfl

theorem intact_ok (colls' : BinTree MemStoreCollNode) : Intact colls (pure (CCEPH_OK, colls')) :=
  .pure fun hret => absurd rfl hret

-- ================================================================ the ops

theorem memStoreDoOpCollCreate_intact (h : CollsKeyed colls) (op : OsTranOp) :
    Intact colls (memStoreDoOpCollCreate colls op) := by
  unfold memStoreDoOpCollCreate
  refine ensures_assert fun _ => ?_
  have hs := h.search op.cid
  generalize memStoreCollNodeMapSearch colls op.cid = found at hs ⊢
  cases hs with
  | found cnode keyed ok get => exact intact_same _
  | absent get =>
      refine ensures_assert fun _ => (Ensures.trivial _).bind fun r _ => ?_
      obtain ⟨ret, cnode⟩ := r
      simp only
      split
      · exact logCodeAsString_ensures
      · refine ensures_deref fun cnode _ => (Ensures.trivial _).bind fun r _ => ?_
        obtain ⟨ret', colls'⟩ := r
        simp only
        split
        · exact logCodeAsString_ensures
        · exact intact_ok _

theorem memStoreDoOpCollRemove_intact (h : CollsKeyed colls) (op : OsTranOp) :
    Intact colls (memStoreDoOpCollRemove colls op) := by
  unfold memStoreDoOpCollRemove
  refine ensures_assert fun _ => ?_
  have hs := h.search op.cid
  generalize memStoreCollNodeMapSearch colls op.cid = found at hs ⊢
  cases hs with
  | absent get => exact intact_same _
  | found cnode keyed ok get =>
      obtain ⟨t, ht, -, -⟩ := implMapRemove_spec linearCmp_osCollIdCmp keyed.inOrder
      simp only [ne_eq, not_true_eq_false, if_false, deref_some, pure_bind,
        show memStoreCollNodeMapRemove cnode = _ from ht]
      exact intact_ok t

theorem memStoreDoOpCollMap_intact (h : CollsKeyed colls) (op : OsTranOp) :
    Intact colls (memStoreDoOpCollMap colls op) := by
  unfold memStoreDoOpCollMap
  refine ensures_assert fun _ => ensures_assert fun _ => ensures_deref fun map _ => ?_
  have hs := h.search op.cid
  generalize memStoreCollNodeMapSearch colls op.cid = found at hs ⊢
  cases hs with
  | absent get => exact intact_same _
  | found cnode keyed ok get =>
      simp only [ne_eq, not_true_eq_false, if_false, deref_some, pure_bind]
      refine (osMapUpdate_keyed ok.attrs map).bind fun r hr => ?_
      exact .pure fun hret => absurd hr.1 hret

theorem memStoreDoOpObjRemove_intact (h : CollsKeyed colls) (op : OsTranOp) :
    Intact colls (memStoreDoOpObjRemove colls op) := by
  unfold memStoreDoOpObjRemove
  refine ensures_assert fun _ => ensures_assert fun _ => ensures_deref fun oid _ => ?_
  have hs := h.search op.cid
  generalize memStoreCollNodeMapSearch colls op.cid = found at hs ⊢
  cases hs with
  | absent get => exact intact_same _
  | found cnode keyed ok get =>
      simp only [ne_eq, not_true_eq_false, if_false, deref_some, pure_bind]
      have ho := ok.objects.search oid
      generalize memStoreObjectNodeMapSearch cnode.data.objects oid = found at ho ⊢
      cases ho with
      | absent oget => exact intact_same _
      | found onode okeyed oget =>
          simp only [not_true_eq_false, if_false, deref_some, pure_bind]
          exact ensures_lift fun r _ => intact_ok _

theorem memStoreDoOpObjMap_intact (h : CollsKeyed colls) (op : OsTranOp) :
    Intact colls (memStoreDoOpObjMap colls op) := by
  unfold memStoreDoOpObjMap
  refine ensures_assert fun _ => ensures_assert fun _ => ensures_assert fun _ =>
    ensures_deref fun oid _ => ensures_deref fun map _ => ?_
  have hs := h.search op.cid
  generalize memStoreCollNodeMapSearch colls op.cid = found at hs ⊢
  cases hs with
  | absent get => exact intact_same _
  | found cnode keyed ok get =>
      simp only [ne_eq, not_true_eq_false, if_false, deref_some, pure_bind]
      have ho := ok.objects.search oid
      generalize memStoreObjectNodeMapSearch cnode.data.objects oid = found at ho ⊢
      cases ho with
      | absent oget => exact intact_same _
      | found onode okeyed oget =>
          simp only [not_true_eq_false, if_false, deref_some, pure_bind]
          refine (osMapUpdate_keyed okeyed.data.attrs map).bind fun r hr => ?_
          exact .pure fun hret => absurd hr.1 hret

end

-- ============================================================== the write

section
variable {colls : BinTree MemStoreCollNode} {op : OsTranOp} {s : Allocs}

/-- What a write comes to, as far as failures go. -/
inductive WriteEnd (colls : BinTree MemStoreCollNode) (op : OsTranOp) (s : Allocs) :
    Except Fault ((Int × BinTree MemStoreCollNode) × Allocs) → Prop
  | same (ret s') (hnot : ¬WriteTorn colls op s) : WriteEnd colls op s (.ok ((ret, colls), s'))
  | done (colls' s') (hnot : ¬WriteTorn colls op s) :
      WriteEnd colls op s (.ok ((CCEPH_OK, colls'), s'))
  | fault (e) (hnot : ¬WriteTorn colls op s) : WriteEnd colls op s (.error e)
  | torn (colls' s') (htorn : WriteTorn colls op s) (hne : colls' ≠ colls) :
      WriteEnd colls op s (.ok ((CCEPH_ERR_NO_ENOUGH_MEM, colls'), s'))

/-- The new object is there. -/
theorem setObjects_created (h : CollsKeyed colls) {cnode : Loc MemStoreCollNode}
    (hroot : cnode.root = colls)
    (hcoll : mapGet MemStoreCollNode.cid colls op.cid = some cnode.data)
    {objects : BinTree MemStoreObjectNode} {oid : CString}
    (habsent : mapGet MemStoreObjectNode.oid cnode.data.objects oid = none)
    (hthere : mapGet MemStoreObjectNode.oid objects oid ≠ none) :
    setObjects cnode objects ≠ colls := by
  intro heq
  have hcid : cnode.data.cid = op.cid := key_of_mapGet hcoll
  subst hroot
  have hget := setData_mapGet linearCmp_osCollIdCmp h.inOrder
    (a := { cnode.data with objects }) rfl op.cid
  rw [show (cnode.setData { cnode.data with objects }).root = cnode.root from heq, hcoll,
    if_pos hcid.symm] at hget
  have hobjects := congrArg MemStoreCollNode.objects (Option.some.inj hget)
  rw [show cnode.data.objects = objects from hobjects] at habsent
  exact hthere habsent

/-- The end of a write to an object that was there. -/
theorem writeEnd_there {cnode : Loc MemStoreCollNode} {onode : Loc MemStoreObjectNode}
    {oid : CString} (hoff : op.offset ≥ 0) (hlen : op.length ≥ 0)
    (hdata : op.length > 0 → op.data.isSome) (hsized : onode.data.Sized)
    (hoid : onode.data.oid = oid) (hsame : setObjects cnode onode.root = colls)
    (hnot : ¬WriteTorn colls op s) :
    WriteEnd colls op s ((memStoreObjectWrite onode.data oid op >>= fun r =>
      pure (r.1, setObjects cnode (onode.setData r.2).root)) s) := by
  have hdone := memStoreObjectWrite_done hsized hoid hoff hlen hdata s
  rw [bind_run]
  generalize memStoreObjectWrite onode.data oid op s = written at hdone
  cases hdone with
  | touch _ => exact .done _ _ hnot
  | refused _ _ _ _ =>
      show WriteEnd colls op s (.ok ((_, setObjects cnode onode.root), s.tail))
      rw [hsame]
      exact .same _ _ hnot
  | written _ _ _ _ _ _ _ _ _ _ _ => exact .done _ _ hnot
  | outside _ _ _ => exact .fault _ hnot

/-- The end of a write to an object that has just been created; this is where
the third allocation counts. -/
theorem writeEnd_new {cnode : Loc MemStoreCollNode} {onode : Loc MemStoreObjectNode}
    {oid : CString} (hoff : op.offset ≥ 0) (hlen : op.length ≥ 0)
    (hdata : op.length > 0 → op.data.isSome) (hnew : onode.data = ⟨oid, none, 0, .nil⟩)
    (hchanged : setObjects cnode onode.root ≠ colls)
    (htorn : 0 < op.length.toInt → op.offset.toInt + op.length.toInt < 2 ^ 63 →
      s.tail.tail.head = false → WriteTorn colls op s) :
    WriteEnd colls op s ((memStoreObjectWrite onode.data oid op >>= fun r =>
      pure (r.1, setObjects cnode (onode.setData r.2).root)) s.tail.tail) := by
  have hoid : onode.data.oid = oid := by rw [hnew]
  have hlength : onode.data.length = 0 := by rw [hnew]
  have hsized : onode.data.Sized := by
    rw [hnew]
    exact (objectKeyed_new oid).sized
  have hgrows : WriteTorn colls op s → onode.data.length < op.offset + op.length := by
    intro h
    have hbytes := h.bytes
    have ho : 0 ≤ op.offset.toInt := Int64.le_iff_toInt_le.mp hoff
    have hsum := offset_add_length ho (Int.le_of_lt hbytes)
    rw [if_pos h.fits] at hsum
    rw [hlength, Int64.lt_iff_toInt_lt, hsum]
    show 0 < op.offset.toInt + op.length.toInt
    omega
  have hdone := memStoreObjectWrite_done hsized hoid hoff hlen hdata s.tail.tail
  rw [bind_run]
  generalize memStoreObjectWrite onode.data oid op s.tail.tail = written at hdone
  cases hdone with
  | touch h0 =>
      refine .done _ _ fun h => ?_
      have hbytes := h.bytes
      rw [h0] at hbytes
      cases hbytes
  | refused h0 hend _ hno =>
      show WriteEnd colls op s (.ok ((_, setObjects cnode onode.root), _))
      have hl : 0 ≤ op.length.toInt := Int64.le_iff_toInt_le.mp hlen
      have hl0 : op.length.toInt ≠ 0 := fun h => h0 (Int64.toInt_inj.mp h)
      exact .torn _ _ (htorn (by omega) hend hno) hchanged
  | written _ _ _ _ _ _ hgrant _ _ _ _ =>
      refine .done _ _ fun h => ?_
      have hrefused := h.data
      rw [hgrant (hgrows h)] at hrefused
      cases hrefused
  | outside _ hgrant _ =>
      refine .fault _ fun h => ?_
      have hrefused := h.data
      rw [hgrant h.fits (hgrows h)] at hrefused
      cases hrefused

theorem memStoreObjWriteBody_end (h : CollsKeyed colls) {oid : CString} (hoid : op.oid = some oid)
    (hoff : op.offset ≥ 0) (hlen : op.length ≥ 0) (hdata : op.length > 0 → op.data.isSome) :
    WriteEnd colls op s (memStoreObjWriteBody colls op s) := by
  have hname : op.name = oid := by
    unfold OsTranOp.name
    rw [hoid]
    rfl
  have hroot : ∀ cnode, (memStoreCollNodeMapSearch colls op.cid).2 = some cnode →
      cnode.root = colls := fun _ => implMapSearch_root linearCmp_osCollIdCmp h.inOrder
  unfold memStoreObjWriteBody
  rw [hoid, deref_some, pure_bind]
  have hs := h.search op.cid
  generalize memStoreCollNodeMapSearch colls op.cid = found at hs hroot ⊢
  cases hs with
  | absent get =>
      refine .same _ s fun htorn => ?_
      obtain ⟨cnode, hcoll, -⟩ := htorn.absent
      rw [get] at hcoll
      cases hcoll
  | found cnode keyed ok get =>
      replace hroot := hroot cnode rfl
      have habsent : WriteTorn colls op s →
          mapGet MemStoreObjectNode.oid cnode.data.objects oid = none := by
        intro htorn
        obtain ⟨cnode', hcoll, hobject⟩ := htorn.absent
        rw [get] at hcoll
        cases hcoll
        rw [hname] at hobject
        exact hobject
      have hself : setObjects cnode cnode.data.objects = colls := hroot
      simp only [ne_eq, not_true_eq_false, if_false, deref_some, pure_bind]
      have hopen := memStoreObjectOpen_done ok.objects.inOrder oid s
      rw [bind_run]
      generalize memStoreObjectOpen cnode.data.objects oid s = opened at hopen
      cases hopen with
      | overrun hget hcopy hnode hcopied =>
          refine .fault _ fun htorn => ?_
          have hfits := htorn.name
          rw [hname, hcopy] at hfits
          cases hfits
      | refused s' hs' hget hno =>
          show WriteEnd colls op s (.ok ((_, setObjects cnode cnode.data.objects), s'))
          rw [hself]
          refine .same _ s' fun htorn => ?_
          have hfits := htorn.name
          rw [hname, hno htorn.node htorn.copy] at hfits
          cases hfits
      | found onode hobjects hoid' hget =>
          have hthere : ¬WriteTorn colls op s := by
            intro htorn
            rw [habsent htorn] at hget
            cases hget
          simp only [not_true_eq_false, if_false, deref_some, pure_bind]
          refine writeEnd_there hoff hlen hdata (ok.objects.nodes oid _ hget).sized hoid' ?_ hthere
          rw [hobjects]
          exact hself
      | created objects' onode hget hcopy hnode hcopied hobjects hnew hok hget' =>
          simp only [not_true_eq_false, if_false, deref_some, pure_bind]
          refine writeEnd_new hoff hlen hdata hnew ?_ fun hbytes hfits hno => ?_
          · apply setObjects_created h hroot get hget
            rw [hobjects, hget', if_pos rfl]
            exact Option.some_ne_none _
          · rw [← hname] at hget hcopy
            exact ⟨hbytes, hfits, ⟨cnode.data, get, hget⟩, hcopy, hnode, hcopied, hno⟩

theorem objWriteBody_intact_iff (h : CollsKeyed colls) {oid : CString} (hoid : op.oid = some oid)
    (hoff : op.offset ≥ 0) (hlen : op.length ≥ 0) (hdata : op.length > 0 → op.data.isSome) :
    (∀ ret colls' s', memStoreObjWriteBody colls op s = .ok ((ret, colls'), s') →
        ret ≠ CCEPH_OK → colls' = colls)
      ↔ ¬WriteTorn colls op s := by
  have hend := memStoreObjWriteBody_end (s := s) h hoid hoff hlen hdata
  generalize memStoreObjWriteBody colls op s = x at hend
  cases hend with
  | same ret s' hnot =>
      refine ⟨fun _ => hnot, fun _ ret' colls' s'' hrun _ => ?_⟩
      cases hrun
      rfl
  | done colls' s' hnot =>
      refine ⟨fun _ => hnot, fun _ ret' colls'' s'' hrun hret => ?_⟩
      cases hrun
      exact absurd rfl hret
  | fault e hnot =>
      refine ⟨fun _ => hnot, fun _ ret' colls'' s'' hrun _ => ?_⟩
      cases hrun
  | torn colls' s' htorn hne =>
      constructor
      · exact fun hall => absurd (hall _ _ _ rfl (by decide)) hne
      · exact fun hnot => absurd htorn hnot

theorem memStoreDoOpObjTouch_intact (h : CollsKeyed colls) (hzero : op.length = 0) :
    Intact colls (memStoreDoOpObjWrite colls op) := by
  have hnpos : ¬op.length > 0 := by
    rw [hzero]
    exact Int64.lt_irrefl
  unfold memStoreDoOpObjWrite
  refine ensures_assert fun _ => ensures_assert fun hsome => ensures_assert fun hoff =>
    ensures_assert fun hlen => ?_
  obtain ⟨oid, hoid⟩ := Option.isSome_iff_exists.mp hsome
  simp only [if_neg hnpos]
  intro s r s' hrun
  refine (objWriteBody_intact_iff h hoid hoff hlen fun hpos => absurd hpos hnpos).mpr ?_
    r.1 r.2 s' hrun
  intro htorn
  have hbytes := htorn.bytes
  rw [hzero] at hbytes
  cases hbytes

theorem memStoreDoOpObjWrite_intact_iff (h : CollsKeyed colls) (hsome : op.oid.isSome)
    (hoff : op.offset ≥ 0) (hlen : op.length ≥ 0) (hdata : op.length > 0 → op.data.isSome) :
    (∀ ret colls' s', memStoreDoOpObjWrite colls op s = .ok ((ret, colls'), s') →
        ret ≠ CCEPH_OK → colls' = colls)
      ↔ ¬(op.cid ≥ 0 ∧ WriteTorn colls op s) := by
  obtain ⟨oid, hoid⟩ := Option.isSome_iff_exists.mp hsome
  unfold memStoreDoOpObjWrite
  by_cases hcid : op.cid ≥ 0
  · rw [assert_pos hcid, pure_bind, assert_pos hsome, pure_bind, assert_pos hoff, pure_bind,
      assert_pos hlen, pure_bind, and_iff_right hcid,
      ← objWriteBody_intact_iff h hoid hoff hlen hdata]
    by_cases hpos : op.length > 0
    · simp only [if_pos hpos, assert_pos (hdata hpos), pure_bind]
    · simp only [if_neg hpos]
  · rw [assert_neg hcid, fault_bind]
    refine ⟨fun _ hand => hcid hand.1, fun _ ret colls' s' hrun => ?_⟩
    cases hrun

end

-- ======================================================= the main result

/-- An op that is no write and leaves the store intact if it fails. -/
theorem intact_iff_of_intact {colls : BinTree MemStoreCollNode} {op : OsTranOp} (s : Allocs)
    (h : Intact colls (memStoreDoOp colls (some op))) (hkind : op.op ≠ .objWrite) :
    FailsIntact colls op s ↔ ¬CreatesOnly colls op s := by
  refine ⟨fun _ hcreates => hkind hcreates.kind, fun _ ret colls' s' hrun => ?_⟩
  exact h s (ret, colls') s' hrun

/-- An op of the builders that fails leaves the store intact, unless it is
a write that found memory for its object and none for its bytes. -/
theorem op_intact_iff {store : MemStore} (h : ReachableAny store) {call : TranCall}
    (haccepted : call.accepted = true) (slot : OsTranOp) (s : Allocs) :
    FailsIntact store.colls (call.fill slot) s ↔ ¬CreatesOnly store.colls (call.fill slot) s := by
  have hcolls := h.keyed.colls
  cases call with
  | collCreate cid logId =>
      refine intact_iff_of_intact s (memStoreDoOpCollCreate_intact hcolls _) fun hkind => ?_
      cases hkind
  | collRemove cid logId =>
      refine intact_iff_of_intact s (memStoreDoOpCollRemove_intact hcolls _) fun hkind => ?_
      cases hkind
  | collMap cid map logId =>
      refine intact_iff_of_intact s (memStoreDoOpCollMap_intact hcolls _) fun hkind => ?_
      cases hkind
  | objTouch cid oid logId =>
      refine intact_iff_of_intact s (memStoreDoOpObjTouch_intact hcolls rfl) fun hkind => ?_
      cases hkind
  | objRemove cid oid logId =>
      refine intact_iff_of_intact s (memStoreDoOpObjRemove_intact hcolls _) fun hkind => ?_
      cases hkind
  | objMap cid oid map logId =>
      refine intact_iff_of_intact s (memStoreDoOpObjMap_intact hcolls _) fun hkind => ?_
      cases hkind
  | objWrite cid oid offset length data logId =>
      obtain ⟨-, hoff, hlen, hdata⟩ := of_decide_eq_true haccepted
      refine Iff.trans (memStoreDoOpObjWrite_intact_iff hcolls rfl hoff hlen hdata) ?_
      exact not_congr ⟨fun hand => ⟨rfl, hand.1, hand.2⟩, fun hc => ⟨hc.cid, hc.torn⟩⟩

theorem reachableAny_storeOne : ReachableAny storeOne := by
  have hcreate : memStoreSubmitTran .fresh (oneOp createOne) .plenty
      = .ok ((CCEPH_OK, storeOne), .plenty) := rfl
  exact .submit (.new memStoreNew_plenty) hcreate

/-- One byte is written to an object `t` of it. -/
def writeT : TranCall := .objWrite 1 (some ⟨[116], noNul_t⟩) 0 1 (some [5]) 7

/-- All but the `n`-th of the coming `malloc` calls are granted. -/
def refuseOnly (n : Nat) : Allocs := ⟨fun k => k ≠ n⟩

theorem op_intact_iff_name :
    FailsIntact storeOne.colls (writeT.fill (junkZero 0 0)) (refuseOnly 1) := by
  refine (op_intact_iff reachableAny_storeOne rfl (junkZero 0 0) (refuseOnly 1)).mpr fun hc => ?_
  cases hc.torn.copy

/-- The third `malloc`, for the byte, is refused: the write fails, and the
object is there. -/
theorem op_not_intact :
    ¬∀ (store : MemStore) (call : TranCall) (slot : OsTranOp) (s : Allocs), ReachableAny store →
      call.accepted = true → FailsIntact store.colls (call.fill slot) s := by
  intro h
  have hintact := h storeOne writeT (junkZero 0 0) (refuseOnly 2) reachableAny_storeOne rfl
  have hrun : memStoreDoOp storeOne.colls (some (writeT.fill (junkZero 0 0))) (refuseOnly 2)
      = .ok ((CCEPH_ERR_NO_ENOUGH_MEM,
          .node .black .nil
            ⟨1, .node .black .nil ⟨⟨[116], noNul_t⟩, none, 0, .nil⟩ .nil, .nil⟩ .nil),
        (refuseOnly 2).tail.tail.tail) := rfl
  cases hintact _ _ _ hrun (by decide)

end CephInC
