/-
When a creation is all or nothing.

Nineteen blocks make an object server: three for the collection and eight
for each attribute. A refusal of one of the first two leaves the store as
it was; one of the third, the node of the collection, ends the process.
Any later one leaves the collection behind, and the caller is told of it
only if it was not the update of a map that met it (`osdCreate_done`).
-/
import CephInC.Os.Proofs.ObjectStore
import CephInC.Os.Proofs.Reads
import CephInC.Osd.Create
import CephInC.Osd.Proofs.Dispatch

namespace CephInC

open Lib

-- ============================================================== the reads

section
variable {store : MemStore} {cid : OsCollId} {attrs : CString → Option OsMapNode}

/-- A whole value is copied, if it gets its block. -/
theorem memStoreCopyValue_whole {node : OsMapNode} {bytes : List UInt8}
    (h : NodeWhole node bytes) {s : Allocs} (hhead : s.head = true) :
    memStoreCopyValue node s
      = .ok ((CCEPH_OK, some (Int32.ofNat bytes.length), some bytes), s.tail) := by
  have hb := int32_bounds node.valueLength
  have hlen := h.length
  have hsize : sizeT node.valueLength.toInt = bytes.length := by
    rw [sizeT_of_nonneg (by omega) (by omega)]
    omega
  have hlength : node.valueLength = Int32.ofNat bytes.length := by
    rw [← Int32.toInt_inj, Int32.toInt_ofNat_of_lt (by omega)]
    exact hlen
  unfold memStoreCopyValue
  simp only [hsize]
  rw [bind_ok (malloc_run (by omega) s), hhead]
  simp only [Bool.not_true, Bool.false_eq_true, if_false, h.value, memcpy_whole, Nat.le_refl,
    if_true, List.take_length, pure_bind, hlength]
  rfl

/-- A read is a search in the attributes, and a copy of what it finds. -/
theorem memStoreReadCollMapKey_holds (h : StoreKeyed store) (hattrs : HoldsAttrs store cid attrs)
    (key : CString) :
    memStoreReadCollMapKey store cid key
      = match attrs key with
        | none => pure (CCEPH_ERR_MAP_NODE_NOT_EXIST, none, none, store.relocked)
        | some node => do
            let (ret, length, value) ← memStoreCopyValue node
            return (ret, length, value, store.relocked) := by
  obtain ⟨coll, hget, hkeys⟩ := hattrs
  obtain ⟨cnode, hs, hroot, hdata, -⟩ :=
    implMapSearch_found linearCmp_osCollIdCmp h.colls.inOrder hget
  have hsearch : memStoreCollNodeMapSearch store.colls cid = (CCEPH_OK, some cnode) := hs
  have hkeyed : AttrsKeyed cnode.data.map := hdata ▸ (h.colls.nodes cid coll hget).attrs
  unfold memStoreReadCollMapKey
  rw [lockColls_run h.unlocked]
  simp only [hsearch, pthreadMutexUnlock_locked, pure_bind, ne_eq, not_true_eq_false, if_false,
    deref_some]
  rw [← hkeys key, ← hdata]
  cases hk : mapGet OsMapNode.key cnode.data.map key with
  | none =>
      rw [show osMapNodeSearch cnode.data.map key = _ from
        implMapSearch_absent linearCmp_strcmp hkeyed hk]
      rfl
  | some node =>
      obtain ⟨place, hplace, -, hnode, -⟩ := implMapSearch_found linearCmp_strcmp hkeyed hk
      rw [show osMapNodeSearch cnode.data.map key = _ from hplace]
      simp only [not_true_eq_false, if_false, deref_some, pure_bind, hnode]
      rfl

theorem readsBack_of_holds (h : StoreKeyed store) (hattrs : HoldsAttrs store cid attrs)
    {key : CString} {node : OsMapNode} {bytes : List UInt8} (hget : attrs key = some node)
    (hnode : NodeWhole node bytes) : ReadsBack store cid key bytes := by
  intro s hs
  refine ⟨store.relocked, s.tail, ?_⟩
  rw [memStoreReadCollMapKey_holds h hattrs, hget]
  simp only
  rw [bind_ok (memStoreCopyValue_whole hnode (Allocs.grants_one.mp hs))]
  rfl

/-- An attribute that is not there is not read back. -/
theorem not_readsBack_of_missing (h : StoreKeyed store) (hattrs : HoldsAttrs store cid attrs)
    {key : CString} (hget : attrs key = none) (bytes : List UInt8) :
    ¬ReadsBack store cid key bytes := by
  intro hreads
  obtain ⟨store', s', hrun⟩ := hreads .plenty (Allocs.plenty_grants 1)
  rw [memStoreReadCollMapKey_holds h hattrs, hget] at hrun
  cases hrun

end

-- =========================================================== the creation

/-- The two attributes. -/
def osdIdNode (osd : Osd) : OsMapNode :=
  ⟨CCEPH_OSD_META_ATTR_OSD_ID, some (int32Codec.bytes osd.osdId), Int32.ofNat int32Codec.size⟩

def maxEpochNode : OsMapNode :=
  ⟨CCEPH_OSD_META_ATTR_OSDMAP_MAX_EPOCH, some (int32Codec.bytes 0),
    Int32.ofNat int32Codec.size⟩

theorem osdIdKey_copied : copyOutcome CCEPH_OSD_META_ATTR_OSD_ID = .copied := by decide

theorem maxEpochKey_copied : copyOutcome CCEPH_OSD_META_ATTR_OSDMAP_MAX_EPOCH = .copied := by
  decide

theorem nodeWhole_int32 {key : CString} (h : copyOutcome key = .copied) (x : Int32) :
    NodeWhole ⟨key, some (int32Codec.bytes x), Int32.ofNat int32Codec.size⟩
      (int32Codec.bytes x) where
  key := h
  pos := show (4 : Int32) > 0 by decide
  value := rfl
  length := by
    rw [int32Codec.bytes_length]
    rfl

theorem osdIdNode_whole (osd : Osd) : NodeWhole (osdIdNode osd) (int32Codec.bytes osd.osdId) :=
  nodeWhole_int32 osdIdKey_copied osd.osdId

theorem maxEpochNode_whole : NodeWhole maxEpochNode (int32Codec.bytes 0) :=
  nodeWhole_int32 maxEpochKey_copied 0

/-- The attributes of an object server that is there. -/
def metaAttrs (osd : Osd) : CString → Option OsMapNode :=
  Function.update (Function.update (fun _ => none) (osdIdNode osd).key (some (osdIdNode osd)))
    maxEpochNode.key (some maxEpochNode)

theorem metaAttr_ne : CCEPH_OSD_META_ATTR_OSD_ID ≠ CCEPH_OSD_META_ATTR_OSDMAP_MAX_EPOCH := by
  decide

theorem metaAttrs_osdId (osd : Osd) :
    metaAttrs osd CCEPH_OSD_META_ATTR_OSD_ID = some (osdIdNode osd) :=
  (Function.update_of_ne metaAttr_ne _ _).trans (Function.update_self ..)

theorem metaAttrs_maxEpoch (osd : Osd) :
    metaAttrs osd CCEPH_OSD_META_ATTR_OSDMAP_MAX_EPOCH = some maxEpochNode :=
  Function.update_self ..

/-- Setting the second attribute does not bring the first one back. -/
theorem osdId_lost (node : Option OsMapNode) :
    Function.update (Function.update (fun _ => none) CCEPH_OSD_META_ATTR_OSD_ID none)
      CCEPH_OSD_META_ATTR_OSDMAP_MAX_EPOCH node CCEPH_OSD_META_ATTR_OSD_ID = none :=
  (Function.update_of_ne metaAttr_ne _ _).trans (Function.update_self ..)

theorem noColl_not_holds {store : MemStore} {cid : OsCollId}
    {attrs : CString → Option OsMapNode} (h : HoldsAttrs store cid attrs) :
    ¬NoColl store cid := by
  intro hno
  obtain ⟨cnode, hget, -⟩ := h
  rw [hno] at hget
  cases hget

theorem osSetMetaKey_done (junk : Junk) {store : MemStore} (h : StoreKeyed store)
    {attrs : CString → Option OsMapNode} (hattrs : HoldsAttrs store CCEPH_OSD_META_COLL_ID attrs)
    {key : CString} (hkey : copyOutcome key = .copied) (x : Int32) (logId : Int64) (s : Allocs) :
    KeyDone CCEPH_OSD_META_COLL_ID store attrs
      ⟨key, some (int32Codec.bytes x), Int32.ofNat int32Codec.size⟩ s
      (osSetCollMapKey junk memStoreGetFuncs store CCEPH_OSD_META_COLL_ID key
        (some (int32Codec.bytes x)) (Int32.ofNat int32Codec.size) logId s) :=
  osSetCollMapKey_done junk h (by decide) hattrs (nodeWhole_int32 hkey x) logId s

/-- What a creation comes to where there is no meta collection: `partly`
and `unsaid` are the ways in which something of it is left. -/
inductive CreateDone (store : MemStore) (osd : Osd) (s : Allocs) :
    Except Fault ((Int × MemStore) × Allocs) → Prop
  | untouched (s') (hno : ¬s.Grants 2) :
      CreateDone store osd s (.ok ((CCEPH_ERR_NO_ENOUGH_MEM, store), s'))
  | crashed (htwo : s.Grants 2) (hno : ¬s.Grants 3) : CreateDone store osd s (.error .outOfBounds)
  | partly (store' s') (hthree : s.Grants 3) (hno : ¬s.Grants 19)
      (there : ¬NoColl store' CCEPH_OSD_META_COLL_ID) :
      CreateDone store osd s (.ok ((CCEPH_ERR_NO_ENOUGH_MEM, store'), s'))
  | unsaid (store' s') (attrs) (hthree : s.Grants 3) (hno : ¬s.Grants 19)
      (keyed : StoreKeyed store') (holds : HoldsAttrs store' CCEPH_OSD_META_COLL_ID attrs)
      (missing : attrs CCEPH_OSD_META_ATTR_OSD_ID = none
        ∨ attrs CCEPH_OSD_META_ATTR_OSDMAP_MAX_EPOCH = none) :
      CreateDone store osd s (.ok ((CCEPH_OK, store'), s'))
  | whole (store') (hall : s.Grants 19) (keyed : StoreKeyed store')
      (holds : HoldsAttrs store' CCEPH_OSD_META_COLL_ID (metaAttrs osd)) :
      CreateDone store osd s (.ok ((CCEPH_OK, store'), s.drop 19))

/-- Three blocks for the collection, eight for each attribute. -/
theorem nineteen_grants {s : Allocs} :
    s.Grants 19 ↔ s.Grants 3 ∧ (s.drop 3).Grants 8 ∧ (s.drop 11).Grants 8 := by
  rw [show 19 = 3 + (8 + 8) from rfl, Allocs.grants_add, Allocs.grants_add]
  rfl

section
variable {first store : MemStore} {osd : Osd} {s : Allocs}
  {out : Except Fault ((Int × MemStore) × Allocs)}

/-- The second attribute, where the first one was lost. -/
theorem KeyDone.create_lost {s₂ : Allocs} (hthree : s.Grants 3) (hno : ¬(s.drop 3).Grants 8)
    (holds : HoldsAttrs store CCEPH_OSD_META_COLL_ID
      (Function.update (fun _ => none) CCEPH_OSD_META_ATTR_OSD_ID none))
    (h : KeyDone CCEPH_OSD_META_COLL_ID store
      (Function.update (fun _ => none) CCEPH_OSD_META_ATTR_OSD_ID none) maxEpochNode s₂ out) :
    CreateDone first osd s out := by
  have hno : ¬s.Grants 19 := fun hall => hno (nineteen_grants.mp hall).2.1
  cases h with
  | refused s' _ => exact .partly store s' hthree hno (noColl_not_holds holds)
  | lost store' s' _ keyed holds' =>
      exact .unsaid store' s' _ hthree hno keyed holds' (.inl (osdId_lost none))
  | stored store' _ keyed holds' =>
      exact .unsaid store' _ _ hthree hno keyed holds' (.inl (osdId_lost maxEpochNode))

/-- The second attribute, where the first one is there. -/
theorem KeyDone.create_stored (hthree : s.Grants 3) (height : (s.drop 3).Grants 8)
    (holds : HoldsAttrs store CCEPH_OSD_META_COLL_ID
      (Function.update (fun _ => none) (osdIdNode osd).key (some (osdIdNode osd))))
    (h : KeyDone CCEPH_OSD_META_COLL_ID store
      (Function.update (fun _ => none) (osdIdNode osd).key (some (osdIdNode osd))) maxEpochNode
      (s.drop 11) out) : CreateDone first osd s out := by
  cases h with
  | refused s' hno =>
      exact .partly store s' hthree (fun hall => hno (nineteen_grants.mp hall).2.2)
        (noColl_not_holds holds)
  | lost store' s' hno keyed holds' =>
      refine .unsaid store' s' _ hthree (fun hall => hno (nineteen_grants.mp hall).2.2) keyed
        holds' (.inr ?_)
      exact Function.update_self ..
  | stored store' hlast keyed holds' =>
      exact .whole store' (nineteen_grants.mpr ⟨hthree, height, hlast⟩) keyed holds'

end

theorem osdCreate_done (junk : Nat → Junk) {store : MemStore} (h : StoreKeyed store)
    (habsent : NoColl store CCEPH_OSD_META_COLL_ID) (osd : Osd) (logId : Int64) (s : Allocs) :
    CreateDone store osd s (osdCreate junk memStoreGetFuncs store (some osd) logId s) := by
  unfold osdCreate
  simp only [Option.isSome_some, assert_pos, deref_some, pure_bind]
  have hcoll := osCreateColl_done (junk 0) h (show CCEPH_OSD_META_COLL_ID ≥ 0 by decide) habsent
    logId s
  rw [bind_run]
  generalize osCreateColl (junk 0) memStoreGetFuncs store CCEPH_OSD_META_COLL_ID logId s = made
    at hcoll
  cases hcoll with
  | refused s' hno => exact .untouched s' hno
  | crashed htwo hno => exact .crashed htwo hno
  | created store₁ hthree keyed₁ holds₁ =>
      simp only [ne_eq, not_true_eq_false, if_false]
      have hfirst := osSetMetaKey_done (junk 1) keyed₁ holds₁ osdIdKey_copied osd.osdId logId
        (s.drop 3)
      rw [bind_run]
      generalize osSetCollMapKey (junk 1) memStoreGetFuncs store₁ CCEPH_OSD_META_COLL_ID
        CCEPH_OSD_META_ATTR_OSD_ID (some (int32Codec.bytes osd.osdId))
        (Int32.ofNat int32Codec.size) logId (s.drop 3) = first at hfirst
      cases hfirst with
      | refused s' hno =>
          exact .partly store₁ s' hthree (fun hall => hno (nineteen_grants.mp hall).2.1)
            (noColl_not_holds holds₁)
      | lost store₂ s₂ hno keyed₂ holds₂ =>
          simp only [not_true_eq_false, if_false]
          show CreateDone store osd s
            ((osSetCollMapKey (junk 2) memStoreGetFuncs store₂ _ _ _ _ logId >>= returnCode) s₂)
          rw [bind_returnCode]
          exact (osSetMetaKey_done (junk 2) keyed₂ holds₂ maxEpochKey_copied 0 logId
            s₂).create_lost hthree hno holds₂
      | stored store₂ height keyed₂ holds₂ =>
          simp only [not_true_eq_false, if_false]
          show CreateDone store osd s
            ((osSetCollMapKey (junk 2) memStoreGetFuncs store₂ _ _ _ _ logId >>= returnCode)
              (s.drop 11))
          rw [bind_returnCode]
          exact (osSetMetaKey_done (junk 2) keyed₂ holds₂ maxEpochKey_copied 0 logId
            (s.drop 11)).create_stored hthree height holds₂

-- ======================================================= the main result

/-- With all nineteen blocks a creation returns `CCEPH_OK`. -/
theorem osdCreate_plenty (junk : Nat → Junk) {store : MemStore} (h : StoreKeyed store)
    (habsent : NoColl store CCEPH_OSD_META_COLL_ID) (osd : Osd) (logId : Int64) :
    ∃ store' s', osdCreate junk memStoreGetFuncs store (some osd) logId .plenty
      = .ok ((CCEPH_OK, store'), s') := by
  have hdone := osdCreate_done junk h habsent osd logId .plenty
  generalize osdCreate junk memStoreGetFuncs store (some osd) logId .plenty = done at hdone ⊢
  cases hdone with
  | untouched _ hno => exact absurd (Allocs.plenty_grants 2) hno
  | crashed _ hno => exact absurd (Allocs.plenty_grants 3) hno
  | partly _ _ _ hno => exact absurd (Allocs.plenty_grants 19) hno
  | unsaid _ _ _ _ hno => exact absurd (Allocs.plenty_grants 19) hno
  | whole store' => exact ⟨store', _, rfl⟩

section
variable (junk : Nat → Junk) {store : MemStore} (osd : Osd) (logId : Int64) {s : Allocs}

/-- Past the second block a refusal ends the process, or leaves something
behind, said or not. -/
theorem osdCreate_leaves (h : StoreKeyed store) (habsent : NoColl store CCEPH_OSD_META_COLL_ID)
    (htwo : s.Grants 2) (hno : ¬s.Grants 19) : ¬AllOrNothing junk store osd logId s := by
  intro hall
  have hdone := osdCreate_done junk h habsent osd logId s
  generalize hrun : osdCreate junk memStoreGetFuncs store (some osd) logId s = done at hdone
  cases hdone with
  | untouched _ hnone => exact absurd htwo hnone
  | crashed =>
      obtain ⟨r, hr⟩ := hall.returns
      rw [hrun] at hr
      cases hr
  | whole _ hwhole => exact absurd hwhole hno
  | partly _ _ _ _ there => exact absurd (hall.nothing _ _ _ hrun (by decide)).1 there
  | unsaid _ _ _ _ _ keyed holds missing =>
      obtain ⟨hid, hepoch⟩ := hall.all _ _ hrun
      rcases missing with hlost | hlost
      · exact absurd hid (not_readsBack_of_missing keyed holds hlost _)
      · exact absurd hepoch (not_readsBack_of_missing keyed holds hlost _)

/-- A store that is as it was can be tried again. -/
theorem osdCreate_nothing (h : StoreKeyed store) (habsent : NoColl store CCEPH_OSD_META_COLL_ID)
    (hno : ¬s.Grants 2) : AllOrNothing junk store osd logId s := by
  have hdone := osdCreate_done junk h habsent osd logId s
  generalize hrun : osdCreate junk memStoreGetFuncs store (some osd) logId s = done at hdone
  cases hdone with
  | crashed htwo => exact absurd htwo hno
  | partly _ _ hthree => exact absurd (Allocs.grants_add (n := 1) |>.mp hthree).1 hno
  | unsaid _ _ _ hthree => exact absurd (Allocs.grants_add (n := 1) |>.mp hthree).1 hno
  | whole _ hall => exact absurd (Allocs.grants_add (n := 17) |>.mp hall).1 hno
  | untouched s' _ =>
      refine ⟨⟨_, hrun⟩, ?_, ?_⟩
      · intro store₁ s₁ hok
        rw [hrun] at hok
        cases hok
      · intro ret store₁ s₁ hret _
        rw [hrun] at hret
        cases hret
        exact ⟨habsent, osdCreate_plenty junk h habsent osd logId⟩

/-- With every block both attributes are there. -/
theorem osdCreate_all (h : StoreKeyed store) (habsent : NoColl store CCEPH_OSD_META_COLL_ID)
    (hall : s.Grants 19) : AllOrNothing junk store osd logId s := by
  have hdone := osdCreate_done junk h habsent osd logId s
  generalize hrun : osdCreate junk memStoreGetFuncs store (some osd) logId s = done at hdone
  cases hdone with
  | untouched _ hno => exact absurd (Allocs.grants_add (n := 17) |>.mp hall).1 hno
  | crashed _ hno => exact absurd (Allocs.grants_add (n := 16) |>.mp hall).1 hno
  | partly _ _ _ hno => exact absurd hall hno
  | unsaid _ _ _ _ hno => exact absurd hall hno
  | whole store' _ keyed holds =>
      refine ⟨⟨_, hrun⟩, ?_, ?_⟩
      · intro store₁ s₁ hok
        rw [hrun] at hok
        cases hok
        exact ⟨readsBack_of_holds keyed holds (metaAttrs_osdId osd) (osdIdNode_whole osd),
          readsBack_of_holds keyed holds (metaAttrs_maxEpoch osd) maxEpochNode_whole⟩
      · intro ret store₁ s₁ hret hne
        rw [hrun] at hret
        cases hret
        exact absurd rfl hne

end

/-- A creation is all or nothing exactly if none of its nineteen blocks is
refused, or already one of the first two. -/
theorem osdCreate_allOrNothing_iff (junk : Nat → Junk) {store : MemStore}
    (h : ReachableAny store) (habsent : NoColl store CCEPH_OSD_META_COLL_ID) (osd : Osd)
    (logId : Int64) (s : Allocs) :
    AllOrNothing junk store osd logId s ↔ s.Grants 19 ∨ ¬s.Grants 2 := by
  constructor
  · intro hall
    by_cases htwo : s.Grants 2
    · by_cases hwhole : s.Grants 19
      · exact .inl hwhole
      · exact absurd hall (osdCreate_leaves junk osd logId h.keyed habsent htwo hwhole)
    · exact .inr htwo
  · rintro (hwhole | hnone)
    · exact osdCreate_all junk osd logId h.keyed habsent hwhole
    · exact osdCreate_nothing junk osd logId h.keyed habsent hnone

theorem reachableAny_fresh : ReachableAny .fresh := .new memStoreNew_plenty

/-- The first block is refused. -/
theorem osdCreate_allOrNothing_none :
    AllOrNothing (fun _ => junkZero) .fresh firstOsd 7 ⟨fun n => n ≠ 0⟩ := by
  have hno : ¬Allocs.Grants ⟨fun n => n ≠ 0⟩ 2 := by
    intro hall
    have hhead := hall 0 (by decide)
    cases hhead
  exact (osdCreate_allOrNothing_iff (fun _ => junkZero) reachableAny_fresh rfl firstOsd 7 _).mpr
    (.inr hno)

/-- The update of the map is refused the node of `osd_id`: the creation
says `CCEPH_OK`, and there is no `osd_id`. -/
theorem osdCreate_not_allOrNothing :
    ¬∀ (junk : Nat → Junk) (store : MemStore) (osd : Osd) (logId : Int64) (s : Allocs),
      ReachableAny store → NoColl store CCEPH_OSD_META_COLL_ID →
      AllOrNothing junk store osd logId s := by
  intro h
  have htwo : Allocs.Grants ⟨fun n => n ≠ 8⟩ 2 :=
    fun k hk => decide_eq_true (show k ≠ 8 by omega)
  have hno : ¬Allocs.Grants ⟨fun n => n ≠ 8⟩ 19 := by
    intro hall
    have hnode := hall 8 (by decide)
    cases hnode
  exact osdCreate_leaves (fun _ => junkZero) firstOsd 7 reachableAny_fresh.keyed rfl htwo hno
    (h (fun _ => junkZero) .fresh firstOsd 7 ⟨fun n => n ≠ 8⟩ reachableAny_fresh rfl)

end CephInC
