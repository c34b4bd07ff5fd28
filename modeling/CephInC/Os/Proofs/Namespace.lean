/-
The store refines the plain map of live collections and objects.

`nsOf` forgets of a view all but liveness. One safe op of a builder does
on the view what `nsOp` does on the map, and its code is `CCEPH_OK`
exactly if `nsOp` does not fail (`viewOp_ns`); so does a transaction
(`tranSteps_ns`), and so does a run, which never ends in a fault
(`memStoreRun_ns`).
-/
import CephInC.Os.Namespace
import CephInC.Os.Proofs.Partial
import CephInC.Os.Proofs.Reads

namespace CephInC

open Lib

/-- The namespace of a view. -/
def nsOf (v : StoreView) : Namespace := fun cid =>
  (v cid).map fun coll oid => (coll.objects oid).isSome

theorem nsOf_update (v : StoreView) (cid : OsCollId) (c : Option CollView) :
    nsOf (Function.update v cid c)
      = Function.update (nsOf v) cid
          (c.map fun coll oid => (coll.objects oid).isSome) := by
  funext cid'
  unfold nsOf
  by_cases h : cid' = cid
  · subst h
    rw [Function.update_self, Function.update_self]
  · rw [Function.update_of_ne h, Function.update_of_ne h]

/-- Liveness of the objects of a collection after one was replaced. -/
theorem isSome_update (objects : CString → Option ObjectView) (oid : CString)
    (o : Option ObjectView) :
    (fun oid' => (Function.update objects oid o oid').isSome)
      = Function.update (fun oid' => (objects oid').isSome) oid o.isSome := by
  funext oid'
  by_cases h : oid' = oid
  · subst h
    rw [Function.update_self, Function.update_self]
  · rw [Function.update_of_ne h, Function.update_of_ne h]

-- ================================================================ one op

/-- An op did on the view what it did on the map. -/
def NsStep (op : OsTranOp) (v : StoreView)
    (x : Except Fault (Int × StoreView)) : Prop :=
  ∃ ret v', x = .ok (ret, v') ∧ match nsOp op (nsOf v) with
    | none => ret ≠ CCEPH_OK ∧ nsOf v' = nsOf v
    | some n => ret = CCEPH_OK ∧ nsOf v' = n

/-- Sound nodes with safe keys update without a fault. -/
theorem attrsUpdate_ok :
    ∀ {nodes : List OsMapNode} (attrs : AttrsView),
      (∀ node ∈ nodes, node.valueLength > 0 → ∃ bytes,
        node.value = some bytes ∧ node.valueLength.toInt ≤ bytes.length) →
      KeysSafe nodes → ∃ attrs', attrsUpdate nodes attrs = .ok attrs'
  | [], attrs, _, _ => ⟨attrs, rfl⟩
  | node :: rest, attrs, hnodes, hkeys => by
      have hrest := fun n hn => hnodes n (List.mem_cons_of_mem _ hn)
      unfold attrsUpdate
      unfold KeysSafe at hkeys
      by_cases hle : node.valueLength ≤ 0
      · rw [if_pos hle] at hkeys ⊢
        exact attrsUpdate_ok _ hrest hkeys
      · rw [if_neg hle] at hkeys ⊢
        have hpos : node.valueLength > 0 := by
          refine Int32.lt_iff_toInt_lt.mpr ?_
          have := fun h => hle (Int32.le_iff_toInt_le.mpr h)
          exact Int.not_le.mp this
        obtain ⟨bytes, hv, hlen⟩ := hnodes node (List.mem_cons_self ..) hpos
        simp only [hv]
        cases hc : copyOutcome node.key with
        | overrun =>
            rw [hc] at hkeys
            exact absurd hkeys id
        | refused => exact ⟨_, rfl⟩
        | copied =>
            rw [hc] at hkeys
            simp only [if_pos hlen]
            exact attrsUpdate_ok _ hrest hkeys

/-- A step on an object of a collection that is there. -/
theorem inColl_some {c d : Int} {oid : CString} {cid : OsCollId}
    {f : Step Fault (Option ObjectView)} {v : StoreView} {coll : CollView}
    {w : Option ObjectView} (hv : v cid = some coll)
    (hf : f (coll.objects oid) = .ok (d, w)) :
    Step.over (.at cid) (inColl c oid f) v
      = .ok (d, Function.update v cid
          (some ⟨Function.update coll.objects oid w, coll.attrs⟩)) := by
  refine over_at ?_
  rw [hv]
  show Step.onSome _ _ (some _) = _
  simp only [Step.onSome, Step.over, CollView.objectLens, hf]

theorem inColl_none {c : Int} {oid : CString} {cid : OsCollId}
    {f : Step Fault (Option ObjectView)} {v : StoreView}
    (hv : v cid = none) :
    Step.over (.at cid) (inColl c oid f) v = .ok (c, v) := by
  refine over_at_same ?_
  rw [hv]
  rfl

theorem nsOf_none {v : StoreView} {cid : OsCollId} (hv : v cid = none) :
    nsOf v cid = none := by
  unfold nsOf
  rw [hv]
  rfl

theorem nsOf_some {v : StoreView} {cid : OsCollId} {coll : CollView}
    (hv : v cid = some coll) :
    nsOf v cid = some fun oid => (coll.objects oid).isSome := by
  unfold nsOf
  rw [hv]
  rfl

theorem live_some {v : StoreView} {cid : OsCollId} {coll : CollView}
    (hv : v cid = some coll) (oid : CString) :
    (nsOf v).live cid oid = (coll.objects oid).isSome := by
  unfold Namespace.live
  rw [nsOf_some hv]

/-- The namespace after an object of a collection was replaced. -/
theorem nsOf_object {v : StoreView} {cid : OsCollId} (coll : CollView)
    (oid : CString) (w : Option ObjectView) :
    nsOf (Function.update v cid
        (some ⟨Function.update coll.objects oid w, coll.attrs⟩))
      = Function.update (nsOf v) cid
          (some (Function.update (fun oid => (coll.objects oid).isSome) oid
            w.isSome)) := by
  rw [nsOf_update]
  simp only [Option.map_some, isSome_update]

/-- Replacing a live object by a live one, or none by none. -/
theorem nsOf_object_same {v : StoreView} {cid : OsCollId} {coll : CollView}
    (hv : v cid = some coll) {oid : CString} {w : Option ObjectView}
    (hw : w.isSome = (coll.objects oid).isSome) :
    nsOf (Function.update v cid
        (some ⟨Function.update coll.objects oid w, coll.attrs⟩)) = nsOf v := by
  rw [nsOf_object, hw, Function.update_eq_self, ← nsOf_some hv,
    Function.update_eq_self]

/-- A write that copies its name and ends inside `int64_t` returns an
object. -/
theorem objectWrite_ok {oid : CString} {offset length : Int64}
    {data : List UInt8} {o : Option ObjectView}
    (hname : o.isSome = false → copyOutcome oid = .copied)
    (hend : length ≠ 0 → offset.toInt + length.toInt < 2 ^ 63
      ∧ length.toInt ≤ data.length) :
    ∃ w, objectWrite oid offset length data o = .ok (CCEPH_OK, some w) := by
  have hopen : ∃ w, objectOpen oid o = .ok (CCEPH_OK, some w) := by
    cases o with
    | some w => exact ⟨w, rfl⟩
    | none =>
        refine ⟨.empty, ?_⟩
        simp only [objectOpen, hname rfl]
  obtain ⟨w, hopen⟩ := hopen
  unfold objectWrite
  simp only [hopen]
  by_cases h0 : length = 0
  · subst h0
    exact ⟨_, rfl⟩
  · unfold contentWrite
    simp only [if_neg h0, if_pos (hend h0)]
    exact ⟨_, rfl⟩

/-- The write step of a builder's op, on the map. -/
theorem viewWrite_ns {op : OsTranOp} {v : StoreView} (hcid : op.cid ≥ 0)
    (hoid : op.oid.isSome) (hoff : op.offset ≥ 0) (hlen : op.length ≥ 0)
    (hdata : op.length > 0 → ∃ bytes, op.data = some bytes
      ∧ op.length.toInt ≤ bytes.length)
    (hname : (nsOf v op.cid).isSome → (nsOf v).live op.cid op.name = false →
      copyOutcome op.name = .copied)
    (hend : (nsOf v op.cid).isSome → op.length > 0 →
      op.offset.toInt + op.length.toInt < 2 ^ 63) :
    (v op.cid = none ∧ viewWrite op v = .ok (CCEPH_ERR_COLL_NOT_EXIST, v))
      ∨ ∃ coll w, v op.cid = some coll
        ∧ viewWrite op v = .ok (CCEPH_OK, Function.update v op.cid
          (some ⟨Function.update coll.objects op.name (some w),
            coll.attrs⟩)) := by
  unfold viewWrite Step.guard
  have hsome : op.length > 0 → op.data.isSome := by
    intro hpos
    obtain ⟨bytes, hd, -⟩ := hdata hpos
    rw [hd]
    rfl
  rw [if_pos hcid, if_pos hoid, if_pos hoff, if_pos hlen, if_pos hsome]
  cases hv : v op.cid with
  | none => exact .inl ⟨rfl, inColl_none hv⟩
  | some coll =>
      right
      rw [live_some hv, nsOf_some hv] at hname
      rw [nsOf_some hv] at hend
      have hl : 0 ≤ op.length.toInt := Int64.le_iff_toInt_le.mp hlen
      have hfits : op.length ≠ 0 →
          op.offset.toInt + op.length.toInt < 2 ^ 63
            ∧ op.length.toInt ≤ (op.data.getD []).length := by
        intro hne
        have hne' : op.length.toInt ≠ 0 := fun h => hne (Int64.toInt_inj.mp h)
        have hpos : op.length > 0 := by
          refine Int64.lt_iff_toInt_lt.mpr ?_
          show 0 < op.length.toInt
          omega
        obtain ⟨bytes, hd, hle⟩ := hdata hpos
        rw [hd]
        exact ⟨hend rfl hpos, hle⟩
      obtain ⟨w, hw⟩ := objectWrite_ok (hname rfl) hfits
      exact ⟨coll, w, rfl, inColl_some hv hw⟩

/-- An op that fails on both. -/
theorem nsStep_fails {op : OsTranOp} {v v' : StoreView} {x : Except Fault (Int × StoreView)}
    {ret : Int} (hns : nsOp op (nsOf v) = none) (hx : x = .ok (ret, v')) (hret : ret ≠ CCEPH_OK)
    (hsame : nsOf v' = nsOf v) : NsStep op v x := by
  refine ⟨ret, v', hx, ?_⟩
  rw [hns]
  exact ⟨hret, hsame⟩

/-- An op that is done on both. -/
theorem nsStep_done {op : OsTranOp} {v v' : StoreView} {x : Except Fault (Int × StoreView)}
    {n : Namespace} (hns : nsOp op (nsOf v) = some n) (hx : x = .ok (CCEPH_OK, v'))
    (hafter : nsOf v' = n) : NsStep op v x := by
  refine ⟨CCEPH_OK, v', hx, ?_⟩
  rw [hns]
  exact ⟨rfl, hafter⟩

/-- What a write step is on the map. -/
private theorem nsStep_of_write {op : OsTranOp} (op' : OsTranOp) {v : StoreView}
    {x : Except Fault (Int × StoreView)}
    (hns : nsOp op (nsOf v) = match nsOf v op'.cid with
      | none => none
      | some objects => some (Function.update (nsOf v) op'.cid
          (some (Function.update objects op'.name true))))
    (h : (v op'.cid = none ∧ x = .ok (CCEPH_ERR_COLL_NOT_EXIST, v))
      ∨ ∃ coll w, v op'.cid = some coll
        ∧ x = .ok (CCEPH_OK, Function.update v op'.cid
          (some ⟨Function.update coll.objects op'.name (some w),
            coll.attrs⟩))) :
    NsStep op v x := by
  rcases h with ⟨hv, hx⟩ | ⟨coll, w, hv, hx⟩
  · rw [nsOf_none hv] at hns
    exact nsStep_fails hns hx (by decide) rfl
  · rw [nsOf_some hv] at hns
    exact nsStep_done hns hx (nsOf_object coll op'.name (some w))

/-- The step of a map op on its target. -/
private theorem attrsStep_ok {nodes : List OsMapNode} (attrs : AttrsView)
    (hnodes : ∀ node ∈ nodes, node.valueLength > 0 → ∃ bytes,
      node.value = some bytes ∧ node.valueLength.toInt ≤ bytes.length)
    (hkeys : KeysSafe nodes) :
    ∃ attrs', attrsStep nodes attrs = .ok (CCEPH_OK, attrs') := by
  obtain ⟨attrs', h⟩ := attrsUpdate_ok attrs hnodes hkeys
  refine ⟨attrs', ?_⟩
  unfold attrsStep
  simp only [h]

section
variable {v : StoreView} {slot : OsTranOp} {cid : OsCollId} {logId : Int64} {oid : CString}

theorem viewCollCreate_ns (hcid : cid ≥ 0) :
    NsStep (osTranCollCreate slot cid logId) v (viewOp (osTranCollCreate slot cid logId) v) := by
  show NsStep _ v (Step.guard (cid ≥ 0) _ (.over (.at cid) collCreate) v)
  rw [Step.guard_pos hcid]
  cases hv : v cid with
  | none =>
      refine nsStep_done ?_ (over_at (w := some .empty) (by rw [hv]; rfl)) (nsOf_update ..)
      simp only [nsOp, osTranCollCreate, nsOf_none hv]
      rfl
  | some coll =>
      refine nsStep_fails ?_ (over_at_same (by rw [hv]; rfl)) (by decide) rfl
      simp only [nsOp, osTranCollCreate, nsOf_some hv]

theorem viewCollRemove_ns (hcid : cid ≥ 0) :
    NsStep (osTranCollRemove slot cid logId) v (viewOp (osTranCollRemove slot cid logId) v) := by
  show NsStep _ v (Step.guard (cid ≥ 0) _ (.over (.at cid) collRemove) v)
  rw [Step.guard_pos hcid]
  cases hv : v cid with
  | none =>
      refine nsStep_fails ?_ (over_at_same (by rw [hv]; rfl)) (by decide) rfl
      simp only [nsOp, osTranCollRemove, nsOf_none hv]
  | some coll =>
      refine nsStep_done ?_ (over_at (w := none) (by rw [hv]; rfl)) (nsOf_update ..)
      simp only [nsOp, osTranCollRemove, nsOf_some hv]
      rfl

theorem viewCollMap_ns {map : BinTree OsMapNode} (hcid : cid ≥ 0) (hmap : NodesBuilt map)
    (hs : OpSafe (nsOf v) (osTranCollMap slot cid logId map)) :
    NsStep (osTranCollMap slot cid logId map) v
      (viewOp (osTranCollMap slot cid logId map) v) := by
  show NsStep _ v (Step.guard (cid ≥ 0) _ (.guard (some map).isSome _
    (.over (.at cid) (collMap map.toList))) v)
  rw [Step.guard_pos hcid, Step.guard_pos (show (some map).isSome from rfl)]
  cases hv : v cid with
  | none =>
      refine nsStep_fails ?_ (over_at_same (by rw [hv]; rfl)) (by decide) rfl
      simp only [nsOp, osTranCollMap, nsOf_none hv]
  | some coll =>
      have hkeys : KeysSafe map.toList := by
        refine hs ?_
        show (nsOf v cid).isSome
        rw [nsOf_some hv]
        rfl
      obtain ⟨attrs, hattrs⟩ := attrsStep_ok coll.attrs hmap hkeys
      have hns : nsOp (osTranCollMap slot cid logId map) (nsOf v) = some (nsOf v) := by
        simp only [nsOp, osTranCollMap, nsOf_some hv]
      refine nsStep_done hns (over_at (w := some { coll with attrs }) ?_) ?_
      · rw [hv]
        show Step.onSome _ _ (some _) = _
        simp only [Step.onSome, Step.over, CollView.attrsLens, hattrs]
      · rw [nsOf_update, Option.map_some, ← nsOf_some hv, Function.update_eq_self]

theorem viewObjMap_ns {map : BinTree OsMapNode} (hcid : cid ≥ 0) (hmap : NodesBuilt map)
    (hs : OpSafe (nsOf v) (osTranObjMap slot cid logId oid map)) :
    NsStep (osTranObjMap slot cid logId oid map) v
      (viewOp (osTranObjMap slot cid logId oid map) v) := by
  show NsStep _ v (Step.guard (cid ≥ 0) _ (.guard (some oid).isSome _
    (.guard (some map).isSome _ (.over (.at cid)
      (inColl CCEPH_ERR_MAP_NODE_NOT_EXIST oid (objectMap map.toList))))) v)
  rw [Step.guard_pos hcid, Step.guard_pos (show (some oid).isSome from rfl),
    Step.guard_pos (show (some map).isSome from rfl)]
  cases hv : v cid with
  | none =>
      refine nsStep_fails ?_ (inColl_none hv) (by decide) rfl
      simp only [nsOp, osTranObjMap, nsOf_none hv]
  | some coll =>
      have hns : nsOp (osTranObjMap slot cid logId oid map) (nsOf v)
          = if (coll.objects oid).isSome then some (nsOf v) else none := by
        show (match nsOf v cid with
          | none => none
          | some objects => if objects oid then some (nsOf v) else none) = _
        rw [nsOf_some hv]
      cases ho : coll.objects oid with
      | none =>
          rw [ho] at hns
          refine nsStep_fails hns (inColl_some hv (w := none) (by rw [ho]; rfl)) (by decide)
            (nsOf_object_same hv ?_)
          rw [ho]
      | some o =>
          rw [ho] at hns
          have hkeys : KeysSafe map.toList := by
            refine hs ?_
            show (nsOf v).live cid oid = true
            rw [live_some hv, ho]
            rfl
          obtain ⟨attrs, hattrs⟩ := attrsStep_ok o.attrs hmap hkeys
          refine nsStep_done hns (inColl_some hv (w := some { o with attrs }) ?_)
            (nsOf_object_same hv ?_)
          · rw [ho]
            show Step.onSome _ _ (some _) = _
            simp only [Step.onSome, Step.over, ObjectView.attrsLens, hattrs]
          · rw [ho]
            rfl

theorem viewObjRemove_ns (hcid : cid ≥ 0) :
    NsStep (osTranObjRemove slot cid logId oid) v
      (viewOp (osTranObjRemove slot cid logId oid) v) := by
  show NsStep _ v (Step.guard (cid ≥ 0) _ (.guard (some oid).isSome _
    (.over (.at cid) (inColl CCEPH_ERR_COLL_NOT_EXIST oid objectRemove))) v)
  rw [Step.guard_pos hcid, Step.guard_pos (show (some oid).isSome from rfl)]
  cases hv : v cid with
  | none =>
      refine nsStep_fails ?_ (inColl_none hv) (by decide) rfl
      simp only [nsOp, osTranObjRemove, nsOf_none hv]
  | some coll =>
      have hns : nsOp (osTranObjRemove slot cid logId oid) (nsOf v)
          = if (coll.objects oid).isSome then
              some (Function.update (nsOf v) cid (some (Function.update
                (fun oid => (coll.objects oid).isSome) oid false)))
            else none := by
        show (match nsOf v cid with
          | none => none
          | some objects => if objects oid then _ else none) = _
        rw [nsOf_some hv]
        rfl
      cases ho : coll.objects oid with
      | none =>
          rw [ho] at hns
          refine nsStep_fails hns (inColl_some hv (w := none) (by rw [ho]; rfl)) (by decide)
            (nsOf_object_same hv ?_)
          rw [ho]
      | some o =>
          rw [ho] at hns
          exact nsStep_done hns (inColl_some hv (w := none) (by rw [ho]; rfl))
            (nsOf_object coll oid none)

end

/-- A safe op of a builder does on the view what it does on the map. -/
theorem viewOp_ns {op : OsTranOp} (hb : OpBuilt op) {v : StoreView}
    (hs : OpSafe (nsOf v) op) : NsStep op v (viewOp op v) := by
  cases hb with
  | collCreate slot cid logId hcid => exact viewCollCreate_ns hcid
  | collRemove slot cid logId hcid => exact viewCollRemove_ns hcid
  | collMap slot cid logId map hcid hmap => exact viewCollMap_ns hcid hmap hs
  | objTouch slot cid logId oid hcid =>
      refine nsStep_of_write
        { osTranObjTouch slot cid logId oid with length := 0 } rfl ?_
      obtain ⟨hoff, hname⟩ := hs
      exact viewWrite_ns hcid rfl hoff (Int64.le_refl _)
        (fun h => (Int64.lt_irrefl h).elim) hname
        (fun _ h => (Int64.lt_irrefl h).elim)
  | objWrite slot cid logId oid offset length data hcid hoff hlen hdata =>
      refine nsStep_of_write
        (osTranObjWrite slot cid logId oid offset length data) rfl ?_
      exact viewWrite_ns hcid rfl hoff hlen hdata (fun h => (hs h).1)
        (fun h => (hs h).2)
  | objMap slot cid logId oid map hcid hmap => exact viewObjMap_ns hcid hmap hs
  | objRemove slot cid logId oid hcid => exact viewObjRemove_ns hcid

end CephInC
