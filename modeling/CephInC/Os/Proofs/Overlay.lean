/-
An object is the overlay of its writes.

A write patches the content of its object (`viewOp_put`), and an op that
is no write of it and does not remove it leaves the content alone
(`viewOp_elsewhere`). So after any run the content is that of the patches
in order (`memStoreExec_content`), and a read returns it if the length
asked for, as an `int`, does not fall short of it. Every call prints the
name; the run ends at the first line of them that does not fit.
-/
import CephInC.Os.Overlay
import CephInC.Os.Proofs.Logged
import CephInC.Os.Proofs.Window

namespace CephInC

open Lib

/-- The content of an object, if its collection and it are there. -/
def contentAt (v : StoreView) (cid : OsCollId) (oid : CString) : Option (Option (List UInt8)) :=
  (v cid).map fun coll => (coll.objects oid).map ObjectView.content

-- ================================================================= a write

theorem contentWrite_patch {content data : List UInt8} {offset length : Int64}
    (hl : 0 ≤ length.toInt)
    (hstop : offset.toInt + length.toInt < 2 ^ 63) (hdata : length.toInt ≤ data.length) :
    contentWrite content offset length data
      = .ok (patch 0 content ⟨offset.toInt.toNat, data.take length.toInt.toNat⟩) := by
  unfold contentWrite patch
  by_cases h0 : length = 0
  · subst h0
    rfl
  · have hne : length.toInt ≠ 0 := fun h => h0 (Int64.toInt_inj.mp h)
    have hbytes : (data.take length.toInt.toNat).isEmpty = false := by
      rw [List.isEmpty_eq_false_iff_exists_mem, ← List.length_pos_iff_exists_mem, List.length_take]
      omega
    rw [if_neg h0, if_pos ⟨hstop, hdata⟩]
    simp only [hbytes, Bool.false_eq_true, if_false]
    rfl

/-- The object after a put, which may have created it. -/
structure PutOk (old : Option ObjectView) (p : Patch UInt8) (new : ObjectView) : Prop where
  content : new.content = patch 0 ((old.map ObjectView.content).getD []) p
  idle : p.bytes = [] → ∀ object, old = some object → new = object

theorem objectWrite_put {oid : CString} {offset length : Int64} {data : List UInt8}
    (hname : copyOutcome oid = .copied) (hl : 0 ≤ length.toInt)
    (hstop : offset.toInt + length.toInt < 2 ^ 63) (hdata : length.toInt ≤ data.length)
    (old : Option ObjectView) :
    ∃ new, objectWrite oid offset length data old = .ok (CCEPH_OK, some new)
      ∧ PutOk old ⟨offset.toInt.toNat, data.take length.toInt.toNat⟩ new := by
  have hopen : objectOpen oid old = .ok (CCEPH_OK, some (old.getD .empty)) := by
    cases old with
    | some object => rfl
    | none => simp only [objectOpen, hname, Option.getD_none]
  have hcontent : (old.getD .empty).content = (old.map ObjectView.content).getD [] := by
    cases old <;> rfl
  unfold objectWrite
  simp only [hopen, contentWrite_patch hl hstop hdata, hcontent]
  refine ⟨_, rfl, rfl, fun hempty object hold => ?_⟩
  subst hold
  unfold patch
  rw [if_pos (List.isEmpty_iff.mpr hempty)]
  rfl

section
variable {v : StoreView} {coll : CollView} {cid : OsCollId} {oid : CString} {op : OsTranOp}

theorem viewWrite_put (hcoll : v cid = some coll) (hcid : cid ≥ 0)
    (hname : copyOutcome oid = .copied) (hop : op.cid = cid) (hoid : op.oid = some oid)
    (ho : 0 ≤ op.offset.toInt) (hl : 0 ≤ op.length.toInt)
    (hstop : op.offset.toInt + op.length.toInt < 2 ^ 63)
    (hdata : op.length.toInt ≤ (op.data.getD []).length) :
    ∃ new, viewWrite op v = .ok (CCEPH_OK, Function.update v cid (some { coll with
        objects := Function.update coll.objects oid (some new) }))
      ∧ PutOk (coll.objects oid)
        ⟨op.offset.toInt.toNat, (op.data.getD []).take op.length.toInt.toNat⟩ new := by
  have hcid' : op.cid ≥ 0 := hop ▸ hcid
  have hsome : op.oid.isSome := by
    rw [hoid]
    rfl
  have hoff : op.offset ≥ 0 := Int64.le_iff_toInt_le.mpr ho
  have hlen : op.length ≥ 0 := Int64.le_iff_toInt_le.mpr hl
  have hbytes : op.length > 0 → op.data.isSome := by
    intro hpos
    have hpos' : 0 < op.length.toInt := Int64.lt_iff_toInt_lt.mp hpos
    cases hd : op.data with
    | some data => rfl
    | none =>
        rw [hd, Option.getD_none, List.length_nil] at hdata
        omega
  have hopname : op.name = oid := by
    unfold OsTranOp.name
    rw [hoid]
    rfl
  obtain ⟨new, hwrite, hok⟩ := objectWrite_put hname hl hstop hdata (coll.objects oid)
  refine ⟨new, ?_, hok⟩
  unfold viewWrite
  rw [Step.guard_pos hcid', Step.guard_pos hsome, Step.guard_pos hoff, Step.guard_pos hlen,
    Step.guard_pos hbytes, hop, hopname]
  exact inColl_some hcoll hwrite

/-- A write or a touch of the object patches it. -/
theorem viewOp_put (hcoll : v cid = some coll) (hcid : cid ≥ 0)
    (hname : copyOutcome oid = .copied) (hput : op.isPut cid oid = true) (hrange : op.InRange) :
    ∃ new, viewOp op v = .ok (CCEPH_OK, Function.update v cid (some { coll with
        objects := Function.update coll.objects oid (some new) }))
      ∧ PutOk (coll.objects oid) op.put new := by
  obtain ⟨hkind, hop, hoid⟩ := of_decide_eq_true hput
  cases hkind with
  | inl hwrite =>
      have hstop := hrange.stop hwrite
      have hview : viewOp op = viewWrite op := by
        unfold viewOp
        rw [hwrite]
      have hpatch : op.put = ⟨op.offset.toInt.toNat,
          (op.data.getD []).take op.length.toInt.toNat⟩ := by
        unfold OsTranOp.put
        rw [if_pos hwrite]
      rw [hview, hpatch]
      exact viewWrite_put hcoll hcid hname hop hoid hrange.offset (hrange.length hwrite)
        (by omega) (hrange.data hwrite)
  | inr htouch =>
      have hview : viewOp op = viewWrite { op with length := 0 } := by
        unfold viewOp
        rw [htouch]
      have hpatch : op.put = ⟨op.offset.toInt.toNat, (op.data.getD []).take 0⟩ := by
        unfold OsTranOp.put
        rw [htouch]
        rfl
      have hbound := int64_bounds op.offset
      have hzero : (0 : Int64).toInt = 0 := rfl
      rw [hview, hpatch]
      have hnone := @viewWrite_put v coll cid oid { op with length := 0 } hcoll hcid hname hop hoid
        hrange.offset (Int.le_refl 0) (by simp only [hzero]; omega) (Int.natCast_nonneg _)
      exact hnone

end

-- ========================================================== any other op

section
variable {v v' : StoreView} {cid k : OsCollId} {oid : CString} {c : Int}

/-- An op on one collection leaves the contents in the others alone. -/
theorem contentAt_over {f : Step Fault (Option CollView)}
    (hsame : k = cid → ∀ d w, f (v k) = .ok (d, w) →
      (w.map fun coll => (coll.objects oid).map ObjectView.content)
        = (v k).map fun coll => (coll.objects oid).map ObjectView.content)
    (h : Step.over (.at k) f v = .ok (c, v')) : contentAt v' cid oid = contentAt v cid oid := by
  obtain ⟨w, hf, hv⟩ := Step.over_ok h
  have hv' : v' = Function.update v k w := hv
  rw [hv']
  unfold contentAt
  by_cases hk : cid = k
  · subst hk
    rw [Function.update_self]
    exact hsame rfl c w hf
  · rw [Function.update_of_ne hk]

/-- One on an object of it, unless it is that object and its content
changes. -/
theorem contentAt_inColl {e : Int} {name : CString} {f : Step Fault (Option ObjectView)}
    (hsame : k = cid → name = oid → ∀ o d w, f o = .ok (d, w) →
      w.map ObjectView.content = o.map ObjectView.content)
    (h : Step.over (.at k) (inColl e name f) v = .ok (c, v')) :
    contentAt v' cid oid = contentAt v cid oid := by
  refine contentAt_over (fun hk d w hf => ?_) h
  rcases Step.onSome_ok hf with ⟨hnone, hw⟩ | ⟨coll, coll', hsome, hw, hf⟩
  · rw [hnone, hw]
  · obtain ⟨o, hf, hcoll'⟩ := Step.over_ok hf
    have hobjects : coll'.objects = Function.update coll.objects name o := by
      rw [hcoll']
      rfl
    rw [hsome, hw, Option.map_some, Option.map_some, hobjects]
    congr 1
    by_cases hname : oid = name
    · subst hname
      rw [Function.update_self]
      exact hsame hk rfl _ d o hf
    · rw [Function.update_of_ne hname]

/-- New attributes leave the objects of a collection as they are. -/
theorem collMap_content {map : List OsMapNode} {o w : Option CollView}
    (h : collMap map o = .ok (c, w)) :
    (w.map fun coll => (coll.objects oid).map ObjectView.content)
      = o.map fun coll => (coll.objects oid).map ObjectView.content := by
  rcases Step.onSome_ok h with ⟨hnone, hw⟩ | ⟨coll, coll', hsome, hw, hf⟩
  · rw [hnone, hw]
  · obtain ⟨attrs, -, hcoll'⟩ := Step.over_ok hf
    rw [hsome, hw, hcoll']
    rfl

/-- And the content of an object. -/
theorem objectMap_content {map : List OsMapNode} {o w : Option ObjectView}
    (h : objectMap map o = .ok (c, w)) : w.map ObjectView.content = o.map ObjectView.content := by
  rcases Step.onSome_ok h with ⟨hnone, hw⟩ | ⟨object, object', hsome, hw, hf⟩
  · rw [hnone, hw]
  · obtain ⟨attrs, -, hobject'⟩ := Step.over_ok hf
    rw [hsome, hw, hobject']
    rfl

/-- The object an op names, where it has to name one. -/
theorem OsTranOp.name_eq {op : OsTranOp} (h : op.oid.isSome) : op.oid = some op.name := by
  obtain ⟨name, hname⟩ := Option.isSome_iff_exists.mp h
  unfold OsTranOp.name
  rw [hname]
  rfl

theorem viewWrite_elsewhere {op : OsTranOp} (hput : ¬(op.cid = cid ∧ op.oid = some oid))
    (h : viewWrite op v = .ok (c, v')) : contentAt v' cid oid = contentAt v cid oid := by
  obtain ⟨-, h⟩ := Step.guard_ok h
  obtain ⟨hoid, h⟩ := Step.guard_ok h
  obtain ⟨-, h⟩ := Step.guard_ok h
  obtain ⟨-, h⟩ := Step.guard_ok h
  obtain ⟨-, h⟩ := Step.guard_ok h
  refine contentAt_inColl (fun hk hname => ?_) h
  rw [OsTranOp.name_eq hoid, hname] at hput
  exact absurd ⟨hk, rfl⟩ hput

/-- An op that is no write of the object and does not remove it leaves its
content as it was. -/
theorem viewOp_elsewhere {op : OsTranOp} (hcoll : (v cid).isSome)
    (hput : op.isPut cid oid = false) (hend : op.isEnd cid oid = false)
    (h : viewOp op v = .ok (c, v')) : contentAt v' cid oid = contentAt v cid oid := by
  have hput' := of_decide_eq_false hput
  have hend' := of_decide_eq_false hend
  unfold viewOp at h
  cases hop : op.op with
  | noop =>
      rw [hop] at h
      cases h
      rfl
  | unknown =>
      rw [hop] at h
      cases h
      rfl
  | collCreate =>
      rw [hop] at h
      obtain ⟨-, h⟩ := Step.guard_ok h
      refine contentAt_over (fun hk d w hf => ?_) h
      obtain ⟨coll, hsome⟩ := Option.isSome_iff_exists.mp hcoll
      rw [hk, hsome] at hf ⊢
      cases hf
      rfl
  | collRemove =>
      rw [hop] at h
      obtain ⟨-, h⟩ := Step.guard_ok h
      refine contentAt_over (fun hk => ?_) h
      exact absurd ⟨hk, .inl hop⟩ hend'
  | collMap =>
      rw [hop] at h
      obtain ⟨-, h⟩ := Step.guard_ok h
      obtain ⟨-, h⟩ := Step.guard_ok h
      exact contentAt_over (fun _ d w hf => collMap_content hf) h
  | objTouch =>
      rw [hop] at h
      have hother : ¬(op.cid = cid ∧ op.oid = some oid) := fun hsame => hput' ⟨.inr hop, hsame⟩
      exact @viewWrite_elsewhere v v' cid oid c { op with length := 0 } hother h
  | objWrite =>
      rw [hop] at h
      have hother : ¬(op.cid = cid ∧ op.oid = some oid) := fun hsame => hput' ⟨.inl hop, hsame⟩
      exact viewWrite_elsewhere hother h
  | objRemove =>
      rw [hop] at h
      obtain ⟨-, h⟩ := Step.guard_ok h
      obtain ⟨hoid, h⟩ := Step.guard_ok h
      refine contentAt_inColl (fun hk hname => ?_) h
      rw [OsTranOp.name_eq hoid, hname] at hend'
      exact absurd ⟨hk, .inr ⟨hop, rfl⟩⟩ hend'
  | objMap =>
      rw [hop] at h
      obtain ⟨-, h⟩ := Step.guard_ok h
      obtain ⟨-, h⟩ := Step.guard_ok h
      obtain ⟨-, h⟩ := Step.guard_ok h
      exact contentAt_inColl (fun _ _ o d w hf => objectMap_content hf) h

end

-- ================================================================== runs

/-- The content these writes leave, once there is one of them. -/
def contentOf (ps : List (Patch UInt8)) : Option (List UInt8) :=
  if ps.isEmpty then none else some (patchAll 0 ps)

theorem contentOf_getD (ps : List (Patch UInt8)) : (contentOf ps).getD [] = patchAll 0 ps := by
  unfold contentOf
  cases ps <;> rfl

theorem contentOf_concat (ps : List (Patch UInt8)) (p : Patch UInt8) :
    contentOf (ps ++ [p]) = some (patch 0 (patchAll 0 ps) p) := by
  have hsome : (ps ++ [p]).isEmpty = false := by
    rw [List.isEmpty_eq_false_iff]
    exact List.concat_ne_nil p ps
  unfold contentOf
  rw [patchAll_concat, hsome]
  rfl

theorem contentOf_written {ps : List (Patch UInt8)} (h : ps ≠ []) :
    contentOf ps = some (written ps) := by
  have hsome : ps.isEmpty = false := by
    rw [List.isEmpty_eq_false_iff]
    exact h
  unfold contentOf written
  rw [hsome, patchAll_eq]
  rfl

theorem putsOf_concat (cid : OsCollId) (oid : CString) (ops : List OsTranOp) (op : OsTranOp) :
    putsOf cid oid (ops ++ [op])
      = if op.isPut cid oid then putsOf cid oid ops ++ [op.put] else putsOf cid oid ops := by
  unfold putsOf
  rw [List.filter_append, List.map_append, List.filter_singleton]
  cases op.isPut cid oid with
  | true => rfl
  | false => exact List.append_nil _

section
variable {colls colls' : BinTree MemStoreCollNode} {cid : OsCollId} {oid : CString}
  {op : OsTranOp} {ops done : List OsTranOp}

/-- Only ids that are not negative are stored. -/
theorem CollsOk.cid_nonneg (h : CollsOk colls) {coll : CollView}
    (hcoll : collsView colls cid = some coll) : cid ≥ 0 := by
  have hs := h.search cid
  generalize memStoreCollNodeMapSearch colls cid = found at hs
  cases hs with
  | absent view get =>
      rw [view] at hcoll
      cases hcoll
  | found cnode root key ok view => exact key ▸ ok.cid

/-- What the object is after these ops. -/
structure ContentIs (colls : BinTree MemStoreCollNode) (cid : OsCollId) (oid : CString)
    (done : List OsTranOp) : Prop where
  trees : CollsOk colls
  content : contentAt (collsView colls) cid oid = some (contentOf (putsOf cid oid done))

/-- A write of the object returns. -/
theorem memStoreDoOp_put (h : ContentIs colls cid oid done) (hname : copyOutcome oid = .copied)
    (hput : op.isPut cid oid = true) (hrange : op.InRange) :
    ∃ colls', memStoreDoOp colls (some op) .plenty = .ok ((CCEPH_OK, colls'), .plenty)
      ∧ ContentIs colls' cid oid (done ++ [op])
      ∧ (op.put.bytes = [] → contentOf (putsOf cid oid done) ≠ none →
        collsView colls' = collsView colls) := by
  have hcontent := h.content
  unfold contentAt at hcontent
  obtain ⟨coll, hcoll, hold⟩ := Option.map_eq_some_iff.mp hcontent
  obtain ⟨new, hview, hok⟩ := viewOp_put hcoll (h.trees.cid_nonneg hcoll) hname hput hrange
  have hrefines := memStoreDoOp_refines h.trees op
  cases hx : memStoreDoOp colls (some op) .plenty with
  | error e =>
      rw [hx] at hrefines
      unfold Refines at hrefines
      rw [hview] at hrefines
      cases hrefines
  | ok r =>
      obtain ⟨⟨ret, colls'⟩, s⟩ := r
      rw [hx] at hrefines
      obtain ⟨rfl, hcolls', hstep, -⟩ := hrefines
      rw [hview, Except.ok.injEq, Prod.mk.injEq] at hstep
      obtain ⟨rfl, hnext⟩ := hstep
      refine ⟨colls', rfl, ⟨hcolls', ?_⟩, fun hempty hlive => ?_⟩
      · have hnew : contentAt (collsView colls') cid oid = some (some new.content) := by
          unfold contentAt
          rw [← hnext, Function.update_self]
          show some ((Function.update coll.objects oid (some new) oid).map _) = _
          rw [Function.update_self]
          rfl
        rw [hnew, hok.content, hold, contentOf_getD, putsOf_concat, if_pos hput, contentOf_concat]
      · cases hobject : coll.objects oid with
        | none =>
            rw [hobject] at hold
            exact absurd hold.symm hlive
        | some object =>
            have hsame : Function.update coll.objects oid (some new) = coll.objects := by
              rw [hok.idle hempty object hobject, ← hobject, Function.update_eq_self]
            rw [← hnext, hsame, Function.update_eq_self_iff]
            exact hcoll.symm

/-- One op, if it returns, keeps the content that of the writes. -/
theorem memStoreDoOp_content (h : ContentIs colls cid oid done)
    (hname : copyOutcome oid = .copied) (hrange : op.isPut cid oid = true → op.InRange)
    (hend : op.isEnd cid oid = false) {ret : Int} {s : Allocs}
    (hrun : memStoreDoOp colls (some op) .plenty = .ok ((ret, colls'), s)) :
    s = .plenty ∧ ContentIs colls' cid oid (done ++ [op]) := by
  cases hput : op.isPut cid oid with
  | true =>
      obtain ⟨colls'', hput', hcontent, -⟩ := memStoreDoOp_put h hname hput (hrange hput)
      rw [hput'] at hrun
      cases hrun
      exact ⟨rfl, hcontent⟩
  | false =>
      have hrefines := memStoreDoOp_refines h.trees op
      rw [hrun] at hrefines
      obtain ⟨hs, hcolls', hstep, -⟩ := hrefines
      have hthere : (collsView colls cid).isSome := by
        have hcontent := h.content
        unfold contentAt at hcontent
        obtain ⟨coll, hcoll, -⟩ := Option.map_eq_some_iff.mp hcontent
        rw [hcoll]
        rfl
      refine ⟨hs, hcolls', ?_⟩
      rw [viewOp_elsewhere hthere hput hend hstep, putsOf_concat, hput]
      exact h.content

theorem memStoreExec_content (hname : copyOutcome oid = .copied) :
    ∀ {calls : List (Int64 × OsTranOp)} {done : List OsTranOp}
      {colls colls' : BinTree MemStoreCollNode} {s : Allocs},
      ContentIs colls cid oid done →
      (∀ call ∈ calls, call.2.isPut cid oid = true → call.2.InRange) →
      (∀ call ∈ calls, call.2.isEnd cid oid = false) →
      memStoreExec calls colls .plenty = .ok (colls', s) →
      ContentIs colls' cid oid (done ++ calls.map Prod.snd)
  | [], done, colls, colls', s, h, _, _, hrun => by
      cases hrun
      rw [List.map_nil, List.append_nil]
      exact h
  | (logId, op) :: calls, done, colls, colls', s, h, hrange, hend, hrun => by
      unfold memStoreExec at hrun
      obtain ⟨⟨ret, mid⟩, s', hop, hrest⟩ := bind_eq_ok hrun
      obtain ⟨rfl, hmid⟩ := memStoreDoOp_content h hname (hrange (logId, op) List.mem_cons_self)
        (hend (logId, op) List.mem_cons_self) (memStoreDoOpLogged_returns hop).2
      have hlast := memStoreExec_content hname hmid
        (fun call hcall => hrange call (List.mem_cons_of_mem _ hcall))
        (fun call hcall => hend call (List.mem_cons_of_mem _ hcall)) hrest
      rw [List.append_assoc, List.singleton_append] at hlast
      exact hlast

/-- A run that returns has said every line, and keeps the trees sorted. -/
theorem memStoreExec_returns :
    ∀ {calls : List (Int64 × OsTranOp)} {colls colls' : BinTree MemStoreCollNode} {s s' : Allocs},
      CollsKeyed colls → memStoreExec calls colls s = .ok (colls', s') →
      (∀ call ∈ calls, ∀ l ∈ call.2.line call.1, l.Fits) ∧ CollsKeyed colls'
  | [], colls, colls', s, s', h, hrun => by
      cases hrun
      exact ⟨List.forall_mem_nil _, h⟩
  | (logId, op) :: calls, colls, colls', s, s', h, hrun => by
      unfold memStoreExec at hrun
      obtain ⟨⟨ret, mid⟩, s'', hop, hrest⟩ := bind_eq_ok hrun
      obtain ⟨hfits, hop⟩ := memStoreDoOpLogged_returns hop
      have hmid := memStoreDoOp_keyed h (some op) _ _ _ hop
      obtain ⟨hrestFits, hlast⟩ := memStoreExec_returns hmid hrest
      exact ⟨List.forall_mem_cons.mpr ⟨hfits, hrestFits⟩, hlast⟩

/-- Writes of the object alone all return if their lines fit. -/
theorem memStoreExec_puts (hname : copyOutcome oid = .copied) :
    ∀ {calls : List (Int64 × OsTranOp)} {done : List OsTranOp} {colls : BinTree MemStoreCollNode},
      ContentIs colls cid oid done → (∀ call ∈ calls, call.2.isPut cid oid = true) →
      (∀ call ∈ calls, call.2.isPut cid oid = true → call.2.InRange) →
      (∀ call ∈ calls, ∀ l ∈ call.2.line call.1, l.Fits) →
      ∃ colls', memStoreExec calls colls .plenty = .ok (colls', .plenty)
  | [], done, colls, _, _, _, _ => ⟨colls, rfl⟩
  | (logId, op) :: calls, done, colls, h, hputs, hrange, hfits => by
      have hput := hputs (logId, op) List.mem_cons_self
      obtain ⟨mid, hop, hmid, -⟩ := memStoreDoOp_put h hname hput
        (hrange (logId, op) List.mem_cons_self hput)
      obtain ⟨colls', hrest⟩ := memStoreExec_puts hname hmid
        (fun call hcall => hputs call (List.mem_cons_of_mem _ hcall))
        (fun call hcall => hrange call (List.mem_cons_of_mem _ hcall))
        (fun call hcall => hfits call (List.mem_cons_of_mem _ hcall))
      refine ⟨colls', ?_⟩
      unfold memStoreExec
      rw [memStoreDoOpLogged_fits logId colls op (hfits (logId, op) List.mem_cons_self),
        bind_ok hop]
      exact hrest

end

-- =========================================================== what is read

/-- The bytes of the window of a whole content are all of it. -/
theorem readRight_whole {content : List UInt8} {length : Int} (h : length ≤ 0)
    (answer : Int × Option Int64 × Option (List UInt8)) :
    ReadRight content 0 length answer
      ↔ answer.1 = CCEPH_OK ∧ answer.2.1.map Int64.toInt = some (content.length : Int)
        ∧ answer.2.2.getD [] = content := by
  have hend : readEnd content.length 0 length = content.length := if_pos (.inl h)
  have hcount : max 0 ((content.length : Int) - 0) = content.length := by omega
  have hwindow : window content 0 length = content := by
    unfold window
    rw [hend, Int.sub_zero, Int.toNat_natCast]
    exact List.take_length
  constructor
  · intro hright
    have hlength := hright.count
    have hbytes := hright.bytes
    rw [hend, hcount] at hlength
    rw [hwindow] at hbytes
    exact ⟨hright.ret, hlength, hbytes⟩
  · rintro ⟨hret, hlength, hbytes⟩
    refine ⟨hret, ?_, ?_⟩
    · rw [hend, hcount]
      exact hlength
    · rw [hwindow]
      exact hbytes

/-- An object shorter than 2^31 fits if the length is taken for the whole
or is not short of it. -/
theorem readFits_whole {total length : Int} (h0 : 0 ≤ total) (hlt : total < 2 ^ 31)
    (h : length ≤ 0) :
    WindowFits total 0 length ↔ narrow length ≤ 0 ∨ total ≤ narrow length := by
  have htotal := narrow_of_lt (n := total) (by omega) hlt
  have hnot : ¬(0 < length ∧ length < total - 0) := by omega
  unfold WindowFits
  rw [if_neg hnot, htotal]
  by_cases hpos : 0 < narrow length
  · rw [if_pos hpos]
    omega
  · rw [if_neg hpos]
    omega

section
variable {store : MemStore} {cid : OsCollId} {oid : CString} {ops : List OsTranOp}

/-- The furthest end of these writes is the length of what they leave. -/
theorem length_written (ps : List (Patch UInt8)) : (written ps).length = extent ps := by
  unfold written
  rw [List.length_map, List.length_range]

theorem put_stop {op : OsTranOp} (h : op.InRange) (hbytes : op.put.bytes.isEmpty = false) :
    op.put.stop < 2 ^ 31 := by
  unfold OsTranOp.put at hbytes
  by_cases hwrite : op.op = .objWrite
  · have ho := h.offset
    have hl := h.length hwrite
    have hstop := h.stop hwrite
    have hdata := h.data hwrite
    unfold OsTranOp.put Patch.stop
    rw [if_pos hwrite]
    simp only [List.length_take]
    omega
  · rw [if_neg hwrite] at hbytes
    cases hbytes

theorem extent_putsOf (h : ∀ op ∈ ops, op.isPut cid oid = true → op.InRange) :
    extent (putsOf cid oid ops) < 2 ^ 31 := by
  refine extent_lt (by decide) fun p hp hbytes => ?_
  obtain ⟨op, hop, rfl⟩ := List.mem_map.mp hp
  obtain ⟨hmem, hput⟩ := List.mem_filter.mp hop
  exact put_stop (h op hmem hput) hbytes

/-- The view of an object that is its writes. -/
theorem ContentIs.written {colls : BinTree MemStoreCollNode}
    (h : ContentIs colls cid oid ops) (hsome : putsOf cid oid ops ≠ []) :
    ∃ coll object, collsView colls cid = some coll ∧ coll.objects oid = some object
      ∧ object.content = CephInC.written (putsOf cid oid ops) := by
  have hcontent := h.content
  rw [contentOf_written hsome] at hcontent
  unfold contentAt at hcontent
  obtain ⟨coll, hcoll, hobject⟩ := Option.map_eq_some_iff.mp hcontent
  obtain ⟨object, hget, hbytes⟩ := Option.map_eq_some_iff.mp hobject
  exact ⟨coll, object, hcoll, hget, hbytes⟩

theorem ContentIs.holdsWritten {colls : BinTree MemStoreCollNode}
    (h : ContentIs colls cid oid ops) (hsome : putsOf cid oid ops ≠ []) :
    HoldsWritten colls cid oid (putsOf cid oid ops) := by
  obtain ⟨coll, object, hcoll, hobject, hbytes⟩ := h.written hsome
  unfold collsView at hcoll
  obtain ⟨cnode, hcnode, hcoll⟩ := Option.map_eq_some_iff.mp hcoll
  subst hcoll
  replace hobject : objectsView cnode.objects oid = some object := hobject
  unfold objectsView at hobject
  obtain ⟨onode, honode, hobject⟩ := Option.map_eq_some_iff.mp hobject
  subst hobject
  replace hbytes : onode.content = CephInC.written (putsOf cid oid ops) := hbytes
  have hlength := (((h.trees.nodes cid cnode hcnode).objects).nodes oid onode honode).length
  refine ⟨cnode, onode, hcnode, honode, ?_, hbytes⟩
  rw [← hlength, hbytes, length_written]

theorem ContentIs.idleUnseen {colls : BinTree MemStoreCollNode}
    (h : ContentIs colls cid oid ops) (hname : copyOutcome oid = .copied)
    (hsome : putsOf cid oid ops ≠ []) : IdleUnseen colls cid oid := by
  intro logId op hput hrange hbytes hfits
  obtain ⟨colls', hrun, -, hsame⟩ := memStoreDoOp_put h hname hput hrange
  rw [memStoreDoOpLogged_fits logId colls op hfits]
  refine ⟨colls', hrun, hsame hbytes ?_⟩
  rw [contentOf_written hsome]
  exact Option.some_ne_none _

/-- An object that is there can be read, so its read says one line. -/
theorem ContentIs.readObj_lines (h : ContentIs store.colls cid oid ops)
    (hsome : putsOf cid oid ops ≠ []) (logId : Int64) (offset length : Int64) :
    (StoreCall.readObj cid oid offset length).LinesFit logId store
      ↔ (readObjLine logId cid oid offset length).Fits := by
  obtain ⟨cnode, onode, hcnode, honode, -, -⟩ := h.holdsWritten hsome
  have hmissing : (StoreCall.readObj cid oid offset length).missing store = none := by
    unfold StoreCall.missing StoreCall.cid StoreCall.oid StoreCall.key
    simp only [hcnode, honode]
    rfl
  unfold StoreCall.LinesFit
  rw [hmissing]
  exact List.forall_mem_singleton

/-- A read of all of it returns all of it exactly if the length asked for,
as an `int`, is not positive or long enough. LOG is left out. -/
theorem ContentIs.readObj_iff (h : ContentIs store.colls cid oid ops)
    (hunlocked : store.lock.held = false) (hsome : putsOf cid oid ops ≠ [])
    (hrange : ∀ op ∈ ops, op.isPut cid oid = true → op.InRange) {length : Int64}
    (hlength : length ≤ 0) :
    (∃ resultLength resultData store' s, memStoreReadObj store cid oid 0 length .plenty
        = .ok ((CCEPH_OK, some resultLength, resultData, store'), s)
      ∧ resultLength.toInt = extent (putsOf cid oid ops)
      ∧ resultData.getD [] = CephInC.written (putsOf cid oid ops))
      ↔ narrow length.toInt ≤ 0 ∨ extent (putsOf cid oid ops) ≤ narrow length.toInt := by
  obtain ⟨coll, object, hcoll, hobject, hbytes⟩ := h.written hsome
  have hle : length.toInt ≤ 0 := Int64.le_iff_toInt_le.mp hlength
  have hlt := extent_putsOf hrange
  have hwindow := StoreOk.readsWindow_iff ⟨h.trees, hunlocked⟩ hcoll hobject
    (show (0 : Int64) ≥ 0 by decide) length
  rw [hbytes, length_written, show (0 : Int64).toInt = 0 from rfl,
    readFits_whole (Int.natCast_nonneg _) (by omega) hle] at hwindow
  rw [← hwindow]
  unfold ReadsWindow
  constructor
  · rintro ⟨resultLength, resultData, store', s, hrun, hcount, hdata⟩
    refine ⟨CCEPH_OK, some resultLength, resultData, store', s, hrun, ?_⟩
    refine (readRight_whole hle _).mpr ⟨rfl, ?_, hdata⟩
    rw [length_written]
    exact congrArg some hcount
  · rintro ⟨ret, resultLength, resultData, store', s, hrun, hright⟩
    obtain ⟨hret, hcount, hdata⟩ := (readRight_whole hle _).mp hright
    obtain ⟨n, rfl, hn⟩ := Option.map_eq_some_iff.mp hcount
    replace hret : ret = CCEPH_OK := hret
    subst hret
    rw [length_written] at hn
    exact ⟨n, resultData, store', s, hrun, hn, hdata⟩

/-- With LOG, its line has to fit too. -/
theorem ContentIs.readsWritten_iff (h : ContentIs store.colls cid oid ops)
    (hkeyed : StoreKeyed store) (hsome : putsOf cid oid ops ≠ [])
    (hrange : ∀ op ∈ ops, op.isPut cid oid = true → op.InRange) {length : Int64}
    (hlength : length ≤ 0) (logId : Int64) :
    ReadsWritten store logId cid oid length (putsOf cid oid ops)
      ↔ (readObjLine logId cid oid 0 length).Fits
        ∧ (narrow length.toInt ≤ 0 ∨ extent (putsOf cid oid ops) ≤ narrow length.toInt) := by
  have hlogged := memStoreReadObjLogged_lines hkeyed logId cid oid (Int64.le_refl 0) length
  have hsilent := h.readObj_iff hkeyed.unlocked hsome hrange hlength
  have hlines := h.readObj_lines hsome logId 0 length
  unfold ReadsWritten
  by_cases hfits : (readObjLine logId cid oid 0 length).Fits
  · rw [hlogged.fits (hlines.mpr hfits), and_iff_right hfits]
    exact hsilent
  · rw [hlogged.dies fun hall => hfits (hlines.mp hall)]
    refine iff_of_false ?_ fun hboth => hfits hboth.1
    rintro ⟨_, _, _, _, hrun, -⟩
    cases hrun

end

-- ======================================================= the main result

theorem objectNodeNew_copied {oid : CString} {ret : Int} {onode : MemStoreObjectNode} {s : Allocs}
    (h : memStoreObjectNodeNew oid .plenty = .ok ((ret, some onode), s)) :
    copyOutcome oid = .copied := by
  unfold memStoreObjectNodeNew at h
  rw [bind_ok (malloc_plenty (by decide)), if_neg (by decide)] at h
  obtain ⟨copied, s', hcopy, h⟩ := bind_eq_ok h
  rw [copyString_plenty] at hcopy
  cases hout : copyOutcome oid with
  | copied => rfl
  | refused =>
      rw [hout] at hcopy
      cases hcopy
      cases h
  | overrun =>
      rw [hout] at hcopy
      cases hcopy

/-- After any ops among which are writes of a new object, and none that
removes it, the object is the overlay of those writes; a read of the whole
returns it exactly if its line fits and the length it is given, as an
`int`, is not positive or long enough. If all ops are such writes, they
return exactly if their lines fit. -/
theorem overlay_law_iff {store : MemStore} (h : Reachable store) {cid : OsCollId} {oid : CString}
    {coll : CollView} (hcoll : store.view cid = some coll) (hfresh : coll.objects oid = none)
    {onode : MemStoreObjectNode} {s : Allocs}
    (hnew : memStoreObjectNodeNew oid .plenty = .ok ((CCEPH_OK, some onode), s))
    {calls : List (Int64 × OsTranOp)}
    (hrange : ∀ call ∈ calls, call.2.isPut cid oid = true → call.2.InRange)
    (hends : ∀ call ∈ calls, call.2.isEnd cid oid = false) (logId : Int64) {length : Int64}
    (hlength : length ≤ 0) :
    ((∀ call ∈ calls, call.2.isPut cid oid = true) →
      ((∃ colls, memStoreExec calls store.colls .plenty = .ok (colls, .plenty))
        ↔ ∀ call ∈ calls, ∀ l ∈ call.2.line call.1, l.Fits))
    ∧ ∀ colls s, memStoreExec calls store.colls .plenty = .ok (colls, s) →
      (∃ call ∈ calls, call.2.isPut cid oid = true) →
      HoldsWritten colls cid oid (putsOf cid oid (calls.map Prod.snd)) ∧ IdleUnseen colls cid oid
      ∧ (OverlayLaw { store with colls } logId cid oid length
          (putsOf cid oid (calls.map Prod.snd))
        ↔ (readObjLine logId cid oid 0 length).Fits ∧ (narrow length.toInt ≤ 0
          ∨ extent (putsOf cid oid (calls.map Prod.snd)) ≤ narrow length.toInt)) := by
  have hname := objectNodeNew_copied hnew
  have hkeyed := h.keyed
  have hstart : ContentIs store.colls cid oid [] := by
    refine ⟨h.ok.colls, ?_⟩
    unfold contentAt
    rw [show collsView store.colls cid = some coll from hcoll, Option.map_some, hfresh]
    rfl
  refine ⟨fun hputs => ⟨fun hruns => ?_, memStoreExec_puts hname hstart hputs hrange⟩, ?_⟩
  · obtain ⟨colls, hrun⟩ := hruns
    exact (memStoreExec_returns hkeyed.colls hrun).1
  intro colls s hrun hput
  have hlast := memStoreExec_content hname hstart hrange hends hrun
  rw [List.nil_append] at hlast
  have hsome : putsOf cid oid (calls.map Prod.snd) ≠ [] := by
    obtain ⟨call, hcall, hput⟩ := hput
    exact List.ne_nil_of_mem (List.mem_map_of_mem
      (List.mem_filter.mpr ⟨List.mem_map_of_mem hcall, hput⟩))
  have hholds := hlast.holdsWritten hsome
  have hidle := hlast.idleUnseen hname hsome
  have hafter : StoreKeyed { store with colls } :=
    ⟨(memStoreExec_returns hkeyed.colls hrun).2, hkeyed.unlocked⟩
  have hranges : ∀ op ∈ calls.map Prod.snd, op.isPut cid oid = true → op.InRange := by
    intro op hop
    obtain ⟨call, hcall, rfl⟩ := List.mem_map.mp hop
    exact hrange call hcall
  refine ⟨hholds, hidle, ?_⟩
  rw [← @ContentIs.readsWritten_iff { store with colls } cid oid _ hlast hafter hsome
    hranges length hlength logId]
  exact ⟨OverlayLaw.reads, fun hreads => ⟨hholds, hidle, hreads⟩⟩

/-- One byte behind a gap, then two at the start. -/
def twoWrites : List (Int64 × OsTranOp) :=
  [(1, osTranObjWrite zeroSlot 1 0 nameA 3 1 (some [9])),
    (2, osTranObjWrite zeroSlot 1 0 nameA 0 2 (some [5, 6]))]

theorem new_nameA :
    memStoreObjectNodeNew nameA .plenty = .ok ((CCEPH_OK, some ⟨nameA, none, 0, .nil⟩), .plenty) :=
  rfl

theorem inRange_twoWrites :
    ∀ call ∈ twoWrites, call.2.isPut 1 nameA = true → call.2.InRange := by
  intro call hcall _
  unfold twoWrites at hcall
  simp only [List.mem_cons, List.not_mem_nil, or_false] at hcall
  rcases hcall with rfl | rfl
  · exact ⟨by decide, fun _ => by decide, fun _ => by decide, fun _ => by decide⟩
  · exact ⟨by decide, fun _ => by decide, fun _ => by decide, fun _ => by decide⟩

/-- What they leave: the gap reads as zero. -/
def storeTwo : BinTree MemStoreCollNode :=
  .node .black .nil (oneObject ⟨nameA, some [5, 6, 0, 9], 4, .nil⟩) .nil

set_option maxRecDepth 2000 in
theorem exec_twoWrites :
    memStoreExec twoWrites storeOne.colls .plenty = .ok (storeTwo, .plenty) := rfl

theorem overlay_law_two :
    OverlayLaw { storeOne with colls := storeTwo } 3 1 nameA 0
      (putsOf 1 nameA (twoWrites.map Prod.snd)) := by
  have hends : ∀ call ∈ twoWrites, call.2.isEnd 1 nameA = false := by decide
  have hputs : ∃ call ∈ twoWrites, call.2.isPut 1 nameA = true := by decide
  have hlaw := (overlay_law_iff reachable_storeOne (show storeOne.view 1 = some _ from rfl) rfl
    new_nameA inRange_twoWrites hends 3 (Int64.le_refl 0)).2 storeTwo .plenty exec_twoWrites hputs
  exact hlaw.2.2.mpr ⟨by decide, .inl (by decide)⟩

set_option maxRecDepth 2000 in
/-- A read of the whole with a length of `1 - 2^32` gives one byte. -/
theorem not_overlay_law :
    ¬∀ (store : MemStore) (logId : Int64) (cid : OsCollId) (oid : CString) (coll : CollView)
      (calls : List (Int64 × OsTranOp)) (length : Int64) (colls : BinTree MemStoreCollNode),
      Reachable store → store.view cid = some coll → coll.objects oid = none →
      (∀ call ∈ calls, call.2.isPut cid oid = true ∧ call.2.InRange) → calls ≠ [] → length ≤ 0 →
      memStoreExec calls store.colls .plenty = .ok (colls, .plenty) →
      OverlayLaw { store with colls } logId cid oid length
        (putsOf cid oid (calls.map Prod.snd)) := by
  intro h
  have hputs : ∀ call ∈ twoWrites, call.2.isPut 1 nameA = true := by decide
  have hlaw := h storeOne 3 1 nameA _ twoWrites (-4294967295) storeTwo reachable_storeOne rfl rfl
    (fun call hcall => ⟨hputs call hcall, inRange_twoWrites call hcall (hputs call hcall)⟩)
    (by decide) (by decide) exec_twoWrites
  obtain ⟨resultLength, resultData, store', s, hrun, hcount, hbytes⟩ := hlaw.reads
  have hread : memStoreReadObjLogged log 3 { storeOne with colls := storeTwo } 1 nameA 0
        (-4294967295) .plenty
      = .ok ((CCEPH_OK, some 1, some [5],
          MemStore.relocked { storeOne with colls := storeTwo }), .plenty) := rfl
  rw [hread] at hrun
  cases hrun
  cases hbytes

end CephInC
