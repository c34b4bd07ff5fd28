/-
The one-op calls of `os/object_store.c` on a store of this repository,
whatever `malloc` refuses.

Past the two blocks of its transaction a call is the op itself on the
store's trees (`osSubmitOne_run`). A new collection takes three blocks
then (`osCreateColl_done`), and a key of a collection eight
(`osSetCollMapKey_done`). The last three of these are asked for by the
update of the map, which keeps it to itself when one is refused: the
caller is told `CCEPH_OK`, and the key is gone.
-/
import CephInC.Os.ObjectStore
import CephInC.Os.Proofs.Calls
import CephInC.Os.Proofs.Logged
import Mathlib.Logic.Function.Basic

namespace CephInC

open Lib

-- ============================================================ allocations

section
variable {s : Allocs}

theorem grants_two : s.Grants 2 ↔ s.head = true ∧ s.tail.head = true := by
  rw [show 2 = 1 + 1 from rfl, Allocs.grants_add, Allocs.grants_one, Allocs.grants_one]
  rfl

theorem grants_three :
    s.Grants 3 ↔ s.head = true ∧ s.tail.head = true ∧ s.tail.tail.head = true := by
  rw [show 3 = 1 + 2 from rfl, Allocs.grants_add, Allocs.grants_one, grants_two]
  rfl

/-- A key that has room in its block is copied once the node, the key and
the value have theirs. -/
theorem nodeCopy_grants {key : CString} (h : copyOutcome key = .copied) :
    nodeCopy key s = .copied ∧ s.Grants 3 ∨ nodeCopy key s = .refused ∧ ¬s.Grants 3 := by
  rw [grants_three]
  unfold nodeCopy
  cases s.head with
  | false => exact .inr ⟨rfl, fun hall => Bool.false_ne_true hall.1⟩
  | true =>
      cases s.tail.head with
      | false => exact .inr ⟨rfl, fun hall => Bool.false_ne_true hall.2.1⟩
      | true =>
          simp only [h, Bool.and_self, if_true]
          cases s.tail.tail.head with
          | false => exact .inr ⟨rfl, fun hall => Bool.false_ne_true hall.2.2⟩
          | true => exact .inl ⟨rfl, trivial, trivial, rfl⟩

theorem grants_of_copied {key : CString} (h : copyOutcome key = .copied)
    (hcopy : nodeCopy key s = .copied) : s.Grants 3 := by
  rcases nodeCopy_grants h (s := s) with ⟨-, hall⟩ | ⟨hrefused, -⟩
  · exact hall
  · rw [hcopy] at hrefused
    cases hrefused

theorem not_grants_of_refused {key : CString} (h : copyOutcome key = .copied)
    (hcopy : nodeCopy key s = .refused) : ¬s.Grants 3 := by
  rcases nodeCopy_grants h (s := s) with ⟨hcopied, -⟩ | ⟨-, hno⟩
  · rw [hcopy] at hcopied
    cases hcopied
  · exact hno

theorem nodeCopy_ne_overrun {key : CString} (h : copyOutcome key = .copied) :
    nodeCopy key s ≠ .overrun := by
  intro hcopy
  rcases nodeCopy_grants h (s := s) with ⟨hother, -⟩ | ⟨hother, -⟩
  · rw [hcopy] at hother
    cases hother
  · rw [hcopy] at hother
    cases hother

end

-- ================================================================= one op

/-- The store a call leaves behind, with these trees. -/
def MemStore.withColls (store : MemStore) (colls : BinTree MemStoreCollNode) : MemStore :=
  { store.locked.unlocked with colls }

theorem MemStore.withColls_keyed {store : MemStore} {colls : BinTree MemStoreCollNode}
    (h : CollsKeyed colls) : StoreKeyed (store.withColls colls) := ⟨h, rfl⟩

section
variable {store : MemStore} {call : TranCall}

/-- What a new transaction comes to. -/
inductive TranNew (junk : Junk) (s : Allocs) :
    Except Fault ((Int × Option OsTran) × Allocs) → Prop
  | refused (s') (hno : ¬s.Grants 2) : TranNew junk s (.ok ((CCEPH_ERR_NO_ENOUGH_MEM, none), s'))
  | made (tran) (hall : s.Grants 2) (holds : TranHolds (fun _ => True) tran [] 1) :
      TranNew junk s (.ok ((CCEPH_OK, some tran), s.drop 2))

theorem osTranNew_new (junk : Junk) (s : Allocs) : TranNew junk s (osTranNew junk s) := by
  have hholds := fun ret tran s' => @osTranNew_holds (fun _ => True) tran junk
    (fun _ _ => trivial) ret s s'
  unfold osTranNew at hholds ⊢
  rw [bind_ok (malloc_run (by decide) s)] at hholds ⊢
  cases hhead : s.head with
  | false => exact .refused _ fun hall => by rw [grants_two, hhead] at hall; cases hall.1
  | true =>
      rw [hhead] at hholds
      simp only [Bool.not_true, Bool.false_eq_true, if_false] at hholds ⊢
      rw [bind_ok (malloc_run (by decide) s.tail)] at hholds ⊢
      cases htail : s.tail.head with
      | false => exact .refused _ fun hall => by rw [grants_two, htail] at hall; cases hall.2
      | true =>
          rw [htail] at hholds
          exact .made _ (grants_two.mpr ⟨hhead, htail⟩) (hholds _ _ _ rfl).2.2

/-- What a call of one op comes to. -/
inductive OneDone (store : MemStore) (call : TranCall) (s : Allocs) :
    Except Fault ((Int × MemStore) × Allocs) → Prop
  | refused (s') (hno : ¬s.Grants 2) :
      OneDone store call s (.ok ((CCEPH_ERR_NO_ENOUGH_MEM, store), s'))
  | run (op) (hall : s.Grants 2) (held : call.HeldBy op) : OneDone store call s
      ((do
        let (ret, colls) ← memStoreDoOp store.colls (some op)
        return (ret, store.withColls colls)) (s.drop 2))

/-- A transaction of one op is the op, with the lock held. -/
theorem memStoreSubmitTran_one {tran : OsTran} {op : OsTranOp} (h : store.lock.held = false)
    (hcalls : TranIsCalls tran [call] [op]) :
    memStoreSubmitTran store tran = do
      let (ret, colls) ← memStoreDoOp store.colls (some op)
      return (ret, store.withColls colls) := by
  rw [hcalls.submit, pthreadMutexLock_run h, pure_bind, memStoreRunOps, bind_assoc]
  apply congrArg
  funext done
  obtain ⟨ret, colls⟩ := done
  by_cases hret : ret = CCEPH_OK
  · rw [hret]
    rfl
  · simp only [if_pos (show ret ≠ CCEPH_OK from hret), pure_bind]
    rfl

/-- `if (ret != CCEPH_OK) return ret; return CCEPH_OK`. -/
def returnCode {τ : Type} (done : Int × τ) : Prog Allocs (Int × τ) :=
  if done.1 ≠ CCEPH_OK then pure (done.1, done.2) else pure (CCEPH_OK, done.2)

theorem bind_returnCode {τ : Type} (x : Prog Allocs (Int × τ)) : x >>= returnCode = x := by
  have hreturn : returnCode (τ := τ) = pure := by
    funext done
    unfold returnCode
    by_cases hret : done.1 = CCEPH_OK
    · rw [if_neg (not_not_intro hret), ← hret]
    · rw [if_pos hret]
  rw [hreturn, bind_pure]

theorem osSubmitOne_run (junk : Junk) (h : store.lock.held = false) (hcall : call.accepted = true)
    {logId : Int64} (hquiet : ∀ op, call.HeldBy op → op.line logId = none) (s : Allocs) :
    OneDone store call s (osSubmitOne junk memStoreGetFuncs store call logId s) := by
  have hnew := osTranNew_new junk s
  unfold osSubmitOne
  rw [bind_run]
  generalize osTranNew junk s = made at hnew
  cases hnew with
  | refused s' hno => exact .refused s' hno
  | made tran hall holds =>
      simp only [ne_eq, not_true_eq_false, if_false, Option.isSome_some, deref_some, pure_bind,
        assert_pos]
      have hdone := @osTranCall_done (fun _ => True) junk tran [] 1 (fun _ _ => trivial) holds call
        (s.drop 2)
      rw [bind_run]
      generalize osTranCall junk tran call (s.drop 2) = built at hdone
      cases hdone with
      | refusedArgs hargs =>
          rw [hcall] at hargs
          cases hargs
      | grown _ _ _ hfull => exact absurd hfull (by decide)
      | refused _ _ hfull => exact absurd hfull (by decide)
      | room slot tran' _ _ hslot hfilled =>
          have hcalls : TranIsCalls tran' [call] [call.fill slot] :=
            hfilled.isCalls (.cons ⟨hcall, slot, trivial, rfl⟩ .nil)
          have hheld := call.fill_heldBy hcall slot
          have hlines : tran'.LinesFit logId := by
            intro i op hop
            rw [hcalls.slots, Except.ok.injEq] at hop
            rw [List.mem_singleton.mp (List.mem_of_getElem? hop), hquiet _ hheld]
            exact LogLine.fits_of_mem_none
          simp only [not_true_eq_false, if_false]
          show OneDone store call s
            ((memStoreSubmitTranLogged log logId store tran' >>= returnCode) (s.drop 2))
          rw [bind_returnCode, memStoreSubmitTranLogged_fits hlines,
            memStoreSubmitTran_one h hcalls]
          exact .run _ hall hheld

end

-- ======================================================= a new collection

section
variable {store : MemStore} {cid : OsCollId}

/-- The collection is there, and holds under each key what `attrs` says. -/
def HoldsAttrs (store : MemStore) (cid : OsCollId) (attrs : CString → Option OsMapNode) : Prop :=
  ∃ cnode, mapGet MemStoreCollNode.cid store.colls cid = some cnode
    ∧ ∀ key, mapGet OsMapNode.key cnode.map key = attrs key

/-- What creating a collection that is not there comes to. -/
inductive CollDone (store : MemStore) (cid : OsCollId) (s : Allocs) :
    Except Fault ((Int × MemStore) × Allocs) → Prop
  | refused (s') (hno : ¬s.Grants 2) :
      CollDone store cid s (.ok ((CCEPH_ERR_NO_ENOUGH_MEM, store), s'))
  | crashed (htwo : s.Grants 2) (hno : ¬s.Grants 3) : CollDone store cid s (.error .outOfBounds)
  | created (store') (hall : s.Grants 3) (keyed : StoreKeyed store')
      (holds : HoldsAttrs store' cid fun _ => none) :
      CollDone store cid s (.ok ((CCEPH_OK, store'), s.drop 3))

/-- The op creates the collection if it gets its node, and else ends the
process. -/
theorem memStoreDoOp_created {colls : BinTree MemStoreCollNode} (h : CollsKeyed colls)
    (hcid : cid ≥ 0) (hno : mapGet MemStoreCollNode.cid colls cid = none) {op : OsTranOp}
    (hop : op.op = .collCreate) (hcidop : op.cid = cid) (s : Allocs) :
    ∃ colls', CollsKeyed colls' ∧ mapGet MemStoreCollNode.cid colls' cid = some ⟨cid, .nil, .nil⟩
      ∧ memStoreDoOp colls (some op) s
        = if s.head then .ok ((CCEPH_OK, colls'), s.tail) else .error .outOfBounds := by
  obtain ⟨colls', hins, hok, hget⟩ := implMapInsert_fresh linearCmp_osCollIdCmp h.inOrder
    (a := ⟨cid, .nil, .nil⟩) hno
  have hinsert : memStoreCollNodeMapInsert colls ⟨cid, .nil, .nil⟩ = .ok (CCEPH_OK, colls') :=
    hins
  refine ⟨colls', ⟨hok, mapGet_all hget h.nodes ?_⟩, ?_, ?_⟩
  · intro cnode hcnode
    cases hcnode
    exact ⟨objectsKeyed_nil, mapOk_nil⟩
  · rw [hget, if_pos rfl]
  · have hrun : memStoreDoOp colls (some op) s = memStoreDoOpCollCreate colls op s := by
      unfold memStoreDoOp
      simp only [Option.isSome_some, assert_pos, pure_bind, deref_some, hop]
    rw [hrun]
    unfold memStoreDoOpCollCreate memStoreCollNodeNew
    rw [hcidop, assert_pos hcid, pure_bind, memStoreCollNodeMapSearch_absent h hno]
    simp only [show ¬CCEPH_ERR_MAP_NODE_NOT_EXIST = CCEPH_OK by decide, if_false,
      Option.isNone_none, assert_pos, pure_bind, bind_assoc]
    rw [bind_ok (malloc_run (by decide) s)]
    cases s.head with
    | false => rfl
    | true =>
        simp only [Bool.not_true, Bool.false_eq_true, if_false, pure_bind, ne_eq,
          not_true_eq_false, deref_some, hinsert]
        rfl

theorem osCreateColl_done (junk : Junk) (h : StoreKeyed store) (hcid : cid ≥ 0)
    (hno : mapGet MemStoreCollNode.cid store.colls cid = none) (logId : Int64) (s : Allocs) :
    CollDone store cid s (osCreateColl junk memStoreGetFuncs store cid logId s) := by
  have hgrants : s.Grants 3 ↔ s.Grants 2 ∧ (s.drop 2).head = true := by
    rw [show 3 = 2 + 1 from rfl, Allocs.grants_add, Allocs.grants_one]
  have hquiet : ∀ op, (TranCall.collCreate cid logId).HeldBy op → op.line logId = none := by
    intro op held
    unfold OsTranOp.line
    rw [held.1]
  have hdone := osSubmitOne_run junk h.unlocked
    (show (TranCall.collCreate cid logId).accepted = true from decide_eq_true hcid) hquiet s
  unfold osCreateColl
  generalize osSubmitOne junk memStoreGetFuncs store (.collCreate cid logId) logId s = done
    at hdone
  cases hdone with
  | refused s' hnone => exact .refused s' hnone
  | run op htwo held =>
      obtain ⟨hop, hcidop, -⟩ := held
      obtain ⟨colls', hkeyed, hget, hrun⟩ :=
        memStoreDoOp_created h.colls hcid hno hop hcidop (s.drop 2)
      cases hhead : (s.drop 2).head with
      | false =>
          rw [hhead] at hrun
          rw [bind_error hrun]
          refine .crashed htwo fun hall => ?_
          rw [(hgrants.mp hall).2] at hhead
          cases hhead
      | true =>
          rw [hhead] at hrun
          rw [bind_ok hrun]
          exact .created (store.withColls colls') (hgrants.mpr ⟨htwo, hhead⟩)
            (MemStore.withColls_keyed hkeyed) ⟨_, hget, fun key => mapGet_nil key⟩

end

-- =================================================== a key of a collection

/-- A node whose value is all of a block, under a key that can be copied. -/
structure NodeWhole (node : OsMapNode) (bytes : List UInt8) : Prop where
  key : copyOutcome node.key = .copied
  pos : node.valueLength > 0
  value : node.value = some bytes
  length : node.valueLength.toInt = bytes.length

theorem NodeWhole.copy_eq {node : OsMapNode} {bytes : List UInt8} (h : NodeWhole node bytes) :
    (⟨node.key, some (bytes.take node.valueLength.toInt.toNat), node.valueLength⟩ : OsMapNode)
      = node := by
  rw [h.length, Int.toNat_natCast, List.take_length, ← h.value]

/-- The tree of one node. -/
def oneNode (node : OsMapNode) : BinTree OsMapNode := .node .black .nil node .nil

/-- What an update with one node comes to. -/
inductive UpdatedOne (t : BinTree OsMapNode) (node : OsMapNode) (s : Allocs) :
    Except Fault ((Int × BinTree OsMapNode) × Allocs) → Prop
  | stored (t') (hall : s.Grants 3) (hput : Put t t' node.key (some node)) :
      UpdatedOne t node s (.ok ((CCEPH_OK, t'), s.drop 3))
  | lost (t' s') (hno : ¬s.Grants 3) (hput : Put t t' node.key none) :
      UpdatedOne t node s (.ok ((CCEPH_OK, t'), s'))

theorem osMapUpdate_one {t : BinTree OsMapNode} (h : AttrsKeyed t) {node : OsMapNode}
    {bytes : List UInt8} (hnode : NodeWhole node bytes) (s : Allocs) :
    UpdatedOne t node s (osMapUpdate t (oneNode node) s) := by
  have hwalk : rbWalk (oneNode node) = [node] := rbWalk_eq (oneNode node)
  have hturn := osMapUpdateBody_turn h node s
  unfold osMapUpdate
  rw [hwalk, osMapUpdateLoop, bind_assoc, bind_run]
  generalize osMapUpdateBody t node s = turned at hturn
  cases hturn with
  | drop _ _ hpos => exact absurd hnode.pos hpos
  | noValue _ hv =>
      rw [hnode.value] at hv
      cases hv
  | overrun _ _ _ hcopy => exact absurd hcopy (nodeCopy_ne_overrun hnode.key)
  | short _ _ hv _ hlen =>
      rw [hnode.value] at hv
      cases hv
      exact absurd (Int.le_of_eq hnode.length) hlen
  | lose _ t' s' _ _ hcopy _ hput =>
      exact .lost t' s' (not_grants_of_refused hnode.key hcopy) hput
  | store _ t' _ hv hcopy _ hput =>
      rw [hnode.value] at hv
      cases hv
      rw [hnode.copy_eq] at hput
      exact .stored t' (grants_of_copied hnode.key hcopy) hput

section
variable {store : MemStore} {cid : OsCollId} {attrs : CString → Option OsMapNode} {s : Allocs}

/-- What setting a key of a collection that is there comes to. -/
inductive KeyDone (cid : OsCollId) (store : MemStore) (attrs : CString → Option OsMapNode)
    (node : OsMapNode) (s : Allocs) : Except Fault ((Int × MemStore) × Allocs) → Prop
  | refused (s') (hno : ¬s.Grants 8) :
      KeyDone cid store attrs node s (.ok ((CCEPH_ERR_NO_ENOUGH_MEM, store), s'))
  | lost (store' s') (hno : ¬s.Grants 8) (keyed : StoreKeyed store')
      (holds : HoldsAttrs store' cid (Function.update attrs node.key none)) :
      KeyDone cid store attrs node s (.ok ((CCEPH_OK, store'), s'))
  | stored (store') (hall : s.Grants 8) (keyed : StoreKeyed store')
      (holds : HoldsAttrs store' cid (Function.update attrs node.key (some node))) :
      KeyDone cid store attrs node s (.ok ((CCEPH_OK, store'), s.drop 8))

/-- The map of the collection after one key of it was put. -/
theorem setCollMap_holds {cnode : Loc MemStoreCollNode} (h : CollsKeyed cnode.root)
    (hc : CollKeyed cnode.data) (hcid : cnode.data.cid = cid)
    (hattrs : ∀ key, mapGet OsMapNode.key cnode.data.map key = attrs key)
    {map : BinTree OsMapNode} {key : CString} {node : Option OsMapNode}
    (hput : Put cnode.data.map map key node) :
    StoreKeyed (store.withColls (setCollMap cnode map))
      ∧ HoldsAttrs (store.withColls (setCollMap cnode map)) cid
        (Function.update attrs key node) := by
  refine ⟨MemStore.withColls_keyed (h.setData ⟨hc.objects, hput.inOrder⟩ rfl),
    { cnode.data with map }, ?_, ?_⟩
  · have hget := setData_mapGet linearCmp_osCollIdCmp h.inOrder
      (a := { cnode.data with map }) rfl cid
    rw [if_pos hcid.symm] at hget
    exact hget
  · intro k
    rw [hput.get, Function.update_apply, hattrs]

/-- The op on a collection that is found. -/
theorem memStoreDoOp_collMap {colls : BinTree MemStoreCollNode} {cnode : Loc MemStoreCollNode}
    (hcid : cid ≥ 0) (hsearch : memStoreCollNodeMapSearch colls cid = (CCEPH_OK, some cnode))
    {op : OsTranOp} (hop : op.op = .collMap) (hcidop : op.cid = cid)
    {input : BinTree OsMapNode} (hmap : op.map = some input) :
    memStoreDoOp colls (some op) = do
      let (ret, map) ← osMapUpdate cnode.data.map input
      return (ret, setCollMap cnode map) := by
  unfold memStoreDoOp
  simp only [Option.isSome_some, assert_pos, pure_bind, deref_some, hop]
  unfold memStoreDoOpCollMap
  simp only [hcidop, hcid, hmap, Option.isSome_some, assert_pos, pure_bind, deref_some, hsearch,
    ne_eq, not_true_eq_false, if_false]

/-- Of the eight blocks the node has its three, the transaction asks for
two and the update for three. -/
theorem eight_grants : s.Grants 8 ↔ s.Grants 3 ∧ (s.drop 3).Grants 2 ∧ (s.drop 5).Grants 3 := by
  rw [show 8 = 3 + (2 + 3) from rfl, Allocs.grants_add, Allocs.grants_add]
  rfl

/-- The transaction, once the node is there. -/
theorem osSubmitKey_done (junk : Junk) (h : StoreKeyed store) (hcid : cid ≥ 0)
    (hattrs : HoldsAttrs store cid attrs) {node : OsMapNode} {bytes : List UInt8}
    (hnode : NodeWhole node bytes) (logId : Int64) (hthree : s.Grants 3) :
    KeyDone cid store attrs node s
      (osSubmitOne junk memStoreGetFuncs store (.collMap cid (some (oneNode node)) logId) logId
        (s.drop 3)) := by
  have hquiet : ∀ op, (TranCall.collMap cid (some (oneNode node)) logId).HeldBy op →
      op.line logId = none := by
    intro op held
    unfold OsTranOp.line
    rw [held.1]
  have hdone := osSubmitOne_run junk h.unlocked
    (show (TranCall.collMap cid (some (oneNode node)) logId).accepted = true from rfl) hquiet
    (s.drop 3)
  generalize osSubmitOne junk memStoreGetFuncs store
    (.collMap cid (some (oneNode node)) logId) logId (s.drop 3) = done at hdone
  cases hdone with
  | refused s' hno => exact .refused s' fun hall => hno (eight_grants.mp hall).2.1
  | run op htwo held =>
      obtain ⟨hop, hcidop, -, hmap⟩ := held
      obtain ⟨coll, hget, hattrs⟩ := hattrs
      have hsearch := h.colls.search cid
      generalize hfound : memStoreCollNodeMapSearch store.colls cid = found at hsearch
      cases hsearch with
      | absent hnone =>
          rw [hget] at hnone
          cases hnone
      | found cnode keyed ok hdata =>
          rw [hget] at hdata
          cases hdata
          have hkey : cnode.data.cid = cid := key_of_mapGet hget
          rw [memStoreDoOp_collMap hcid hfound hop hcidop hmap, bind_assoc, bind_run]
          have hone := osMapUpdate_one ok.attrs hnode ((s.drop 3).drop 2)
          generalize osMapUpdate cnode.data.map (oneNode node) ((s.drop 3).drop 2) = updated
            at hone
          cases hone with
          | stored map hall hput =>
              obtain ⟨hkeyed, hholds⟩ := setCollMap_holds keyed ok hkey hattrs hput
              exact .stored _ (eight_grants.mpr ⟨hthree, htwo, hall⟩) hkeyed hholds
          | lost map s' hno hput =>
              obtain ⟨hkeyed, hholds⟩ := setCollMap_holds keyed ok hkey hattrs hput
              exact .lost _ s' (fun hall => hno (eight_grants.mp hall).2.2) hkeyed hholds

theorem osSetCollMapKey_done (junk : Junk) (h : StoreKeyed store) (hcid : cid ≥ 0)
    (hattrs : HoldsAttrs store cid attrs) {node : OsMapNode} {bytes : List UInt8}
    (hnode : NodeWhole node bytes) (logId : Int64) (s : Allocs) :
    KeyDone cid store attrs node s
      (osSetCollMapKey junk memStoreGetFuncs store cid node.key (some bytes) node.valueLength
        logId s) := by
  have hmade := osMapNodeNew_made node.key bytes node.valueLength hnode.pos s
  unfold osSetCollMapKey
  rw [bind_run]
  generalize osMapNodeNew node.key (some bytes) node.valueLength s = made at hmade
  cases hmade with
  | overrun hcopy => exact absurd hcopy (nodeCopy_ne_overrun hnode.key)
  | short _ hlen => exact absurd (Int.le_of_eq hnode.length) hlen
  | refused s' hcopy _ =>
      have hno := not_grants_of_refused hnode.key hcopy
      exact .refused s' fun hall => hno (eight_grants.mp hall).1
  | copied hcopy _ =>
      rw [hnode.copy_eq]
      have hinsert : osMapNodeInsert .nil node = .ok (CCEPH_OK, oneNode node) := rfl
      simp only [ne_eq, not_true_eq_false, if_false, deref_some, pure_bind, hinsert]
      exact osSubmitKey_done junk h hcid hattrs hnode logId (grants_of_copied hnode.key hcopy)

end

end CephInC
