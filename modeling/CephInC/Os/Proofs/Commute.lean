/-
Independent transactions commute.

An op works on one part of the view: a collection as a whole, the
attributes of a collection, or one object (`viewOp_shape`). Ops whose
parts do not meet are steps over independent parts, so they commute
(`OpsIndependent.commutes`); transactions of such ops are batches that
commute wherever each of them stops. The trees the two orders leave may
differ in shape; their views do not, and reads answer from the view
(`sameReads_of_view`).
-/
import CephInC.Os.Proofs.Partial
import CephInC.Os.Proofs.ReadMaps

namespace CephInC

open Lib

-- ========================================================= what ops name

/-- The collection an op names. -/
def OsTranOp.coll (op : OsTranOp) : Option OsCollId :=
  match op.op with
  | .noop | .unknown => none
  | _ => some op.cid

/-- The collection an op creates or removes. -/
def OsTranOp.lifetime (op : OsTranOp) : Option OsCollId :=
  match op.op with
  | .collCreate | .collRemove => some op.cid
  | _ => none

/-- The object an op names. -/
def OsTranOp.object (op : OsTranOp) : Option (OsCollId × CString) :=
  match op.op with
  | .objTouch | .objWrite | .objRemove | .objMap =>
      op.oid.map fun oid => (op.cid, oid)
  | _ => none

/-- The collection whose attributes an op updates. -/
def OsTranOp.attrs (op : OsTranOp) : Option OsCollId :=
  match op.op with
  | .collMap => some op.cid
  | _ => none

/-- Neither op creates or removes a collection the other names, they name
no object in common, and update the attributes of no collection in
common. -/
structure OpsIndependent (a b : OsTranOp) : Prop where
  left : ∀ cid, a.lifetime = some cid → b.coll ≠ some cid
  right : ∀ cid, b.lifetime = some cid → a.coll ≠ some cid
  objects : ∀ o, a.object = some o → b.object ≠ some o
  attrs : ∀ cid, a.attrs = some cid → b.attrs ≠ some cid

/-- Every op of one transaction is independent of every op of the
other. -/
def TransIndependent (t t' : OsTran) : Prop :=
  ∀ i j a b, osTranGetOp t i = .ok (some a) → osTranGetOp t' j = .ok (some b) →
    OpsIndependent a b

-- ================================================== what ops work on

/-- The part of the view a step works on. -/
inductive Shape (op : OsTranOp) : Step Fault StoreView → Prop where
  | code (c : Int) : Shape op (.code c)
  | abort (e : Fault) : Shape op (.abort e)
  | coll (f : Step Fault (Option CollView)) (hc : op.coll = some op.cid)
      (hl : op.lifetime = some op.cid) : Shape op (.over (.at op.cid) f)
  | attrs (c : Int) (f : Step Fault AttrsView) (hc : op.coll = some op.cid)
      (ha : op.attrs = some op.cid) :
      Shape op (.over (.at op.cid) (.onSome c (.over CollView.attrsLens f)))
  | object (c : Int) (oid : CString) (f : Step Fault (Option ObjectView))
      (hc : op.coll = some op.cid) (ho : op.object = some (op.cid, oid)) :
      Shape op (.over (.at op.cid) (inColl c oid f))

theorem shape_guard {op : OsTranOp} {f : Step Fault StoreView} {p : Prop}
    [Decidable p] {e : Fault} (h : p → Shape op f) :
    Shape op (.guard p e f) := by
  unfold Step.guard
  by_cases hp : p
  · rw [if_pos hp]
    exact h hp
  · rw [if_neg hp]
    exact .abort e

theorem object_eq {op : OsTranOp} (hoid : op.oid.isSome) :
    (op.oid.map fun oid => (op.cid, oid)) = some (op.cid, op.name) := by
  obtain ⟨oid, h⟩ := Option.isSome_iff_exists.mp hoid
  unfold OsTranOp.name
  rw [h]
  rfl

theorem viewOp_shape (op : OsTranOp) : Shape op (viewOp op) := by
  unfold viewOp
  cases hop : op.op with
  | noop => exact .code _
  | unknown => exact .code _
  | collCreate =>
      refine shape_guard fun _ => .coll _ ?_ ?_
      · simp only [OsTranOp.coll, hop]
      · simp only [OsTranOp.lifetime, hop]
  | collRemove =>
      refine shape_guard fun _ => .coll _ ?_ ?_
      · simp only [OsTranOp.coll, hop]
      · simp only [OsTranOp.lifetime, hop]
  | collMap =>
      refine shape_guard fun _ => shape_guard fun _ => .attrs _ _ ?_ ?_
      · simp only [OsTranOp.coll, hop]
      · simp only [OsTranOp.attrs, hop]
  | objTouch =>
      refine shape_guard fun _ => shape_guard fun hoid => shape_guard fun _ =>
        shape_guard fun _ => shape_guard fun _ => .object _ _ _ ?_ ?_
      · simp only [OsTranOp.coll, hop]
      · simp only [OsTranOp.object, hop]
        exact object_eq hoid
  | objWrite =>
      refine shape_guard fun _ => shape_guard fun hoid => shape_guard fun _ =>
        shape_guard fun _ => shape_guard fun _ => .object _ _ _ ?_ ?_
      · simp only [OsTranOp.coll, hop]
      · simp only [OsTranOp.object, hop]
        exact object_eq hoid
  | objRemove =>
      refine shape_guard fun _ => shape_guard fun hoid => .object _ _ _ ?_ ?_
      · simp only [OsTranOp.coll, hop]
      · simp only [OsTranOp.object, hop]
        exact object_eq hoid
  | objMap =>
      refine shape_guard fun _ => shape_guard fun hoid => shape_guard fun _ =>
        .object _ _ _ ?_ ?_
      · simp only [OsTranOp.coll, hop]
      · simp only [OsTranOp.object, hop]
        exact object_eq hoid

-- ========================================================== commuting

theorem OpsIndependent.symm {a b : OsTranOp} (h : OpsIndependent a b) :
    OpsIndependent b a where
  left := h.right
  right := h.left
  objects o hb ha := h.objects o ha hb
  attrs cid hb ha := h.attrs cid ha hb

/-- Steps on parts of one collection commute over the store as they do
on the collection; steps on different collections do anyway. -/
private theorem commutes_at {cid cid' : OsCollId}
    {f g : Step Fault (Option CollView)} (h : cid = cid' → Commutes f g) :
    Commutes (.over (.at cid) f) (.over (.at cid') g) := by
  by_cases hcid : cid = cid'
  · subst hcid
    exact (h rfl).over (.at cid)
  · exact commutes_over (independent_at hcid) f g

/-- Ops on parts that do not meet commute. -/
theorem OpsIndependent.commutes {a b : OsTranOp} (h : OpsIndependent a b) :
    Commutes (viewOp a) (viewOp b) := by
  have hb := viewOp_shape b
  generalize viewOp b = g at hb
  have ha := viewOp_shape a
  generalize viewOp a = f at ha
  cases ha with
  | code c => exact commutes_code c g
  | abort e => exact commutes_abort e g
  | coll f hc hl =>
      cases hb with
      | code c => exact (commutes_code c _).symm
      | abort e => exact (commutes_abort e _).symm
      | coll g hc' hl' =>
          exact commutes_at fun heq => absurd (heq ▸ hc') (h.left _ hl)
      | attrs c g hc' ha' =>
          exact commutes_at fun heq => absurd (heq ▸ hc') (h.left _ hl)
      | object c oid g hc' ho' =>
          exact commutes_at fun heq => absurd (heq ▸ hc') (h.left _ hl)
  | attrs c f hc ha =>
      cases hb with
      | code c => exact (commutes_code c _).symm
      | abort e => exact (commutes_abort e _).symm
      | coll g hc' hl' =>
          exact commutes_at fun heq => absurd (heq ▸ hc) (h.right _ hl')
      | attrs c' g hc' ha' =>
          exact commutes_at fun heq => absurd (heq ▸ ha') (h.attrs _ ha)
      | object c' oid g hc' ho' =>
          refine commutes_at fun _ => Commutes.onSome ?_ c c'
          exact (commutes_over (independent_object_attrs oid) g f).symm
  | object c oid f hc ho =>
      cases hb with
      | code c => exact (commutes_code c _).symm
      | abort e => exact (commutes_abort e _).symm
      | coll g hc' hl' =>
          exact commutes_at fun heq => absurd (heq ▸ hc) (h.right _ hl')
      | attrs c' g hc' ha' =>
          refine commutes_at fun _ => Commutes.onSome ?_ c c'
          exact commutes_over (independent_object_attrs oid) f g
      | object c' oid' g hc' ho' =>
          refine commutes_at fun heq => Commutes.onSome ?_ c c'
          have hne : oid ≠ oid' := by
            intro hoid
            rw [← heq, ← hoid] at ho'
            exact h.objects _ ho ho'
          exact commutes_over (independent_objects hne) f g

/-- Slots of independent transactions commute, filled or not. -/
theorem TransIndependent.commutes {t t' : OsTran} (h : TransIndependent t t') :
    Commutes (.seq (tranSteps t)) (.seq (tranSteps t')) := by
  refine Commutes.seq fun f hf g hg => ?_
  obtain ⟨i, -, rfl⟩ := List.mem_map.mp hf
  obtain ⟨j, -, rfl⟩ := List.mem_map.mp hg
  have hij := h i j
  unfold slotStep
  cases hi : osTranGetOp t i with
  | error e => exact commutes_abort e _
  | ok slot =>
      cases slot with
      | none => exact commutes_abort _ _
      | some a =>
          cases hj : osTranGetOp t' j with
          | error e => exact (commutes_abort e _).symm
          | ok slot' =>
              cases slot' with
              | none => exact (commutes_abort _ _).symm
              | some b => exact (hij a b hi hj).commutes

-- ============================================================ equal reads

/-- What a call answers, the store and the allocator left aside. -/
def answer {α β : Type} (out : α → β) (x : Except Fault (α × Allocs)) :
    Except Fault β :=
  x.map fun r => out r.1

/-- Every read answers the same on both stores. -/
structure SameReads (store store' : MemStore) : Prop where
  readObj : ∀ cid oid offset length,
    answer (fun r => (r.1, r.2.1, r.2.2.1))
        (memStoreReadObj store cid oid offset length .plenty)
      = answer (fun r => (r.1, r.2.1, r.2.2.1))
        (memStoreReadObj store' cid oid offset length .plenty)
  listColl :
    answer (fun r => (r.1, r.2.1, r.2.2.1)) (memStoreListColl store .plenty)
      = answer (fun r => (r.1, r.2.1, r.2.2.1))
        (memStoreListColl store' .plenty)
  existColl : ∀ cid,
    answer (fun r => (r.1, r.2.1)) (memStoreExistColl store cid .plenty)
      = answer (fun r => (r.1, r.2.1)) (memStoreExistColl store' cid .plenty)
  readCollMap : ∀ cid map,
    answer (fun r => (r.1, r.2.1)) (memStoreReadCollMap store cid map .plenty)
      = answer (fun r => (r.1, r.2.1))
        (memStoreReadCollMap store' cid map .plenty)
  readCollMapKey : ∀ cid key,
    answer (fun r => (r.1, r.2.1, r.2.2.1))
        (memStoreReadCollMapKey store cid key .plenty)
      = answer (fun r => (r.1, r.2.1, r.2.2.1))
        (memStoreReadCollMapKey store' cid key .plenty)
  readObjMap : ∀ cid oid map,
    answer (fun r => (r.1, r.2.1))
        (memStoreReadObjMap store cid oid map .plenty)
      = answer (fun r => (r.1, r.2.1))
        (memStoreReadObjMap store' cid oid map .plenty)
  readObjMapKey : ∀ cid oid key,
    answer (fun r => (r.1, r.2.1, r.2.2.1))
        (memStoreReadObjMapKey store cid oid key .plenty)
      = answer (fun r => (r.1, r.2.1, r.2.2.1))
        (memStoreReadObjMapKey store' cid oid key .plenty)

/-- Two whole-map readers that found the same attributes answer the
same: the update walks the same nodes. -/
theorem MapReadOk.answer_eq {store store' : MemStore} {map : BinTree OsMapNode}
    {attrs : Int ⊕ AttrsView}
    {x y : Except Fault ((Int × BinTree OsMapNode × MemStore) × Allocs)}
    (hx : MapReadOk store map attrs x) (hy : MapReadOk store' map attrs y) :
    answer (fun r => (r.1, r.2.1)) x = answer (fun r => (r.1, r.2.1)) y := by
  cases hx with
  | absent h hne =>
      cases hy with
      | absent h' hne' =>
          rw [h] at h'
          cases h'
          rfl
      | found ok' h' =>
          rw [h] at h'
          cases h'
  | found ok h =>
      cases hy with
      | absent h' hne' =>
          rw [h] at h'
          cases h'
      | found ok' h' =>
          rw [h] at h'
          have hlist := attrs_toList_eq ok ok' (Sum.inr.inj h')
          unfold mapRead
          rw [osMapUpdate_congr hlist]
          cases osMapUpdate map _ .plenty with
          | error e => rfl
          | ok r => rfl

/-- Reads answer from the view. -/
theorem sameReads_of_view {store store' : MemStore} (h : StoreOk store)
    (h' : StoreOk store') (hv : store.view = store'.view) :
    SameReads store store' where
  readObj := by
    intro cid oid offset length
    by_cases hoff : offset ≥ 0
    · rw [memStoreReadObj_spec h cid oid hoff length,
        memStoreReadObj_spec h' cid oid hoff length, hv]
      rfl
    · unfold memStoreReadObj
      rw [assert_neg hoff, fault_bind, fault_bind]
  listColl := by
    rw [memStoreListColl_spec h, memStoreListColl_spec h',
      colls_cids_eq h.colls h'.colls hv]
    unfold listRead
    simp only
    split
    · split
      · rfl
      · rfl
    · rfl
  existColl := by
    intro cid
    rw [memStoreExistColl_spec h, memStoreExistColl_spec h', hv]
    rfl
  readCollMap := by
    intro cid map
    have hs := memStoreReadCollMap_spec h cid map
    rw [hv] at hs
    exact hs.answer_eq (memStoreReadCollMap_spec h' cid map)
  readCollMapKey := by
    intro cid key
    rw [memStoreReadCollMapKey_spec h, memStoreReadCollMapKey_spec h', hv]
    rfl
  readObjMap := by
    intro cid oid map
    have hs := memStoreReadObjMap_spec h cid oid map
    rw [hv] at hs
    exact hs.answer_eq (memStoreReadObjMap_spec h' cid oid map)
  readObjMapKey := by
    intro cid oid key
    rw [memStoreReadObjMapKey_spec h, memStoreReadObjMapKey_spec h', hv]
    rfl

-- ============================================================ two orders

/-- Submit one transaction, then another: both codes and the store. -/
def submitTwo (store : MemStore) (first second : OsTran) :
    Prog Allocs (Int × Int × MemStore) := do
  let (a, store) ← memStoreSubmitTran store first
  let (b, store) ← memStoreSubmitTran store second
  return (a, b, store)

/-- The outcome of two transactions, seen through the view. -/
theorem submitTwo_refines {store : MemStore} (h : StoreOk store)
    (first second : OsTran) :
    match submitTwo store first second .plenty with
    | .error _ => Aborts
        ((Step.seq (tranSteps first)).both (.seq (tranSteps second)) store.view)
    | .ok ((a, b, store'), s) => s = .plenty ∧ StoreOk store'
        ∧ (Step.seq (tranSteps first)).both (.seq (tranSteps second))
            store.view = .ok (a, b, store'.view) := by
  have hfirst := memStoreSubmitTran_refines h first
  unfold submitTwo
  rw [bind_run]
  cases hx : memStoreSubmitTran store first .plenty with
  | error e =>
      rw [hx] at hfirst
      exact aborts_both.mpr (.inl ⟨e, hfirst⟩)
  | ok r =>
      obtain ⟨⟨a, store₁⟩, s⟩ := r
      rw [hx] at hfirst
      obtain ⟨rfl, hok, hlock, hview⟩ := hfirst
      have hsecond := memStoreSubmitTran_refines ⟨hok, hlock⟩ second
      simp only
      rw [bind_run]
      cases hy : memStoreSubmitTran store₁ second .plenty with
      | error e =>
          rw [hy] at hsecond
          exact aborts_both.mpr (.inr ⟨a, _, hview, e, hsecond⟩)
      | ok r =>
          obtain ⟨⟨b, store₂⟩, s⟩ := r
          rw [hy] at hsecond
          obtain ⟨rfl, hok', hlock', hview'⟩ := hsecond
          refine ⟨rfl, ⟨hok', hlock'⟩, ?_⟩
          unfold Step.both
          rw [hview]
          simp only [hview']

/-- The two orders give each transaction the same code and leave stores
that read alike, or end the process both. -/
def OrderIrrelevant (store : MemStore) (t t' : OsTran) : Prop :=
  (∃ a b store₁ store₂,
      submitTwo store t t' .plenty = .ok ((a, b, store₁), .plenty)
      ∧ submitTwo store t' t .plenty = .ok ((b, a, store₂), .plenty)
      ∧ SameReads store₁ store₂)
    ∨ ∃ e e', submitTwo store t t' .plenty = .error e
      ∧ submitTwo store t' t .plenty = .error e'

/-- Independent transactions commute on every reachable store. -/
theorem memStoreSubmitTran_commute {store : MemStore} (h : Reachable store)
    {t t' : OsTran} (hi : TransIndependent t t') :
    OrderIrrelevant store t t' := by
  have h12 := submitTwo_refines h.ok t t'
  have h21 := submitTwo_refines h.ok t' t
  unfold OrderIrrelevant
  cases hx : submitTwo store t t' .plenty with
  | error e =>
      rw [hx] at h12
      cases hy : submitTwo store t' t .plenty with
      | error e' => exact .inr ⟨e, e', rfl, rfl⟩
      | ok r =>
          obtain ⟨⟨b, a, store₂⟩, s⟩ := r
          rw [hy] at h21
          obtain ⟨-, -, hview⟩ := h21
          rcases hi.commutes store.view with hswap | ⟨-, e', he'⟩
          · obtain ⟨a', b', v, hb, -⟩ := hswap.both_eq
            obtain ⟨e', he'⟩ := h12
            rw [hb] at he'
            cases he'
          · rw [hview] at he'
            cases he'
  | ok r =>
      obtain ⟨⟨a, b, store₁⟩, s⟩ := r
      rw [hx] at h12
      obtain ⟨rfl, hok₁, hview₁⟩ := h12
      rcases hi.commutes store.view with hswap | ⟨⟨e, he⟩, -⟩
      · obtain ⟨a', b', v, hb, hb'⟩ := hswap.both_eq
        rw [hview₁] at hb
        cases hb
        cases hy : submitTwo store t' t .plenty with
        | error e' =>
            rw [hy] at h21
            obtain ⟨e', he'⟩ := h21
            rw [hb'] at he'
            cases he'
        | ok r =>
            obtain ⟨⟨b₂, a₂, store₂⟩, s⟩ := r
            rw [hy] at h21
            obtain ⟨rfl, hok₂, hview₂⟩ := h21
            rw [hb'] at hview₂
            simp only [Except.ok.injEq, Prod.mk.injEq] at hview₂
            obtain ⟨rfl, rfl, hv⟩ := hview₂
            exact .inl ⟨a, b, store₁, store₂, rfl, rfl,
              sameReads_of_view hok₁ hok₂ hv⟩
      · rw [hview₁] at he
        cases he

/-- An op that touches an object of collection 1. -/
def touchInOne (oid : CString) : OsTranOp :=
  osTranObjTouch ⟨0, .noop, 0, none, 0, 0, none, none⟩ 1 0 oid

theorem osTranGetOp_oneOp {op a : OsTranOp} {i : Nat}
    (h : osTranGetOp (oneOp op) i = .ok (some a)) : a = op := by
  unfold osTranGetOp oneOp at h
  cases i with
  | zero =>
      cases h
      rfl
  | succ i =>
      rw [if_pos (show ((i + 1 : Nat) : Int) ≥ (1 : Int32).toInt by
        show ((i + 1 : Nat) : Int) ≥ 1
        omega)] at h
      cases h

/-- Two objects of one collection, touched in either order. -/
theorem memStoreSubmitTran_commute_touch :
    OrderIrrelevant ⟨onlyOne, ⟨false, 1, 1⟩⟩
      (oneOp (touchInOne ⟨[97], by decide⟩))
      (oneOp (touchInOne ⟨[98], by decide⟩)) := by
  refine memStoreSubmitTran_commute
    (.submit reachable_fresh memStoreSubmitTran_createTwice) ?_
  intro i j a b ha hb
  cases osTranGetOp_oneOp ha
  cases osTranGetOp_oneOp hb
  refine ⟨?_, ?_, ?_, ?_⟩
  · intro cid h
    cases h
  · intro cid h
    cases h
  · intro o h h'
    cases h
    cases h'
  · intro cid h
    cases h

end CephInC
