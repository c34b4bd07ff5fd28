/-
The calls of `os/object_store.c` are calls on the plain map, whatever the
store.

A transaction of one op is submitted as the one step of that op
(`osSubmitOne_seen`), so each call that changes the store comes out as
`ObjectStoreCall.step` says (`objectStoreCall_seen`). Nothing is asked of
the store but that its table serves the map, which that of the memory
store does (`memStoreFuncs_servesMap`).
-/
import CephInC.Os.ObjectCalls
import CephInC.Os.Proofs.ObjectStore
import CephInC.Os.Proofs.StoreView

namespace CephInC

open Lib

-- ========================================================== the transaction

section
variable (junk : Junk)

theorem osTranNew_plenty : osTranNew junk .plenty
    = .ok ((CCEPH_OK, some ⟨osTranOpBlock junk CCEPH_OS_TRAN_OP_LIST_SIZE,
      CCEPH_OS_TRAN_OP_LIST_SIZE, 0⟩), .plenty) := rfl

theorem osTranCall_plenty {call : TranCall} (h : call.accepted = true) :
    osTranCall junk ⟨osTranOpBlock junk CCEPH_OS_TRAN_OP_LIST_SIZE,
        CCEPH_OS_TRAN_OP_LIST_SIZE, 0⟩ call .plenty
      = .ok ((CCEPH_OK, tranOfCall junk call), .plenty) := by
  unfold osTranCall
  rw [assert_pos h, pure_bind]
  rfl

theorem tranOfOne_steps (op : OsTranOp) : tranSteps (tranOfOne junk op) = [viewOp op] := rfl

end

section
variable {σ : Type} {osFuncs : StoreFuncs σ} {ok : MemStoreCall → Prop}
  {holds : σ → StoreView → Prop} {os : σ} {v : StoreView}

variable (holds v) in
/-- The call came out as the step says. -/
def Steps (f : Step Fault StoreView) : Except Fault ((StoreAnswer × σ) × Allocs) → Prop :=
  Seen (fun x => x = (f v).map fun r => (.code r.1, r.2)) holds StoreAnswer.seen .plenty

/-- A call that returns at once. -/
theorem Steps.code (hos : holds os v) (ret : Int) :
    Steps holds v (.code ret) (.ok ((.code ret, os), .plenty)) := ⟨rfl, v, rfl, hos⟩

theorem submit_seen (hserve : ServesMap osFuncs ok holds) (hos : holds os v) {tran : OsTran}
    {logId : Int64} (hok : ok (.submitTran tran logId)) :
    Steps holds v (.seq (tranSteps tran)) (returns (osFuncs.submitTran os tran logId) .plenty) :=
  hserve os v (.submitTran tran logId) hos hok

theorem osSubmitOne_seen (hserve : ServesMap osFuncs ok holds) (hos : holds os v) {junk : Junk}
    {call : TranCall} {logId : Int64} (hok : ok (.submitTran (tranOfCall junk call) logId)) :
    Steps holds v (.guard (call.accepted = true) .assertFail
        (viewOp (call.fill (junk CCEPH_OS_TRAN_OP_LIST_SIZE 0))))
      (returns (osSubmitOne junk osFuncs.toOsFuncs os call logId) .plenty) := by
  unfold returns osSubmitOne
  rw [bind_assoc, bind_ok (osTranNew_plenty junk)]
  simp only [ne_eq, not_true_eq_false, if_false, Option.isSome_some, assert_pos, pure_bind,
    deref_some]
  rw [bind_assoc]
  cases hcall : call.accepted with
  | false =>
      unfold osTranCall
      rw [hcall, assert_neg Bool.false_ne_true, fault_bind, fault_bind]
      rfl
  | true =>
      rw [bind_ok (osTranCall_plenty junk hcall), Step.guard_pos rfl]
      simp only [not_true_eq_false, if_false]
      have hone := submit_seen hserve hos hok
      rw [tranOfCall, tranOfOne_steps, Step.seq_one] at hone
      show Steps _ _ _ (((osFuncs.submitTran os _ logId >>= returnCode) >>= fun done =>
        pure (StoreAnswer.code done.1, done.2)) .plenty)
      rw [bind_returnCode]
      exact hone

end

-- ================================================================= one key

/-- What the node of a key comes to. -/
inductive KeyMade (key : CString) (found : Except Fault (Int ⊕ Option (List UInt8))) :
    Except Fault ((Int × Option OsMapNode) × Allocs) → Prop
  | fault {e : Fault} (h : found = .error e) : KeyMade key found (.error e)
  | refused (h : found = .ok (.inl CCEPH_ERR_NO_ENOUGH_MEM)) :
      KeyMade key found (.ok ((CCEPH_ERR_NO_ENOUGH_MEM, none), .plenty))
  | made {node : OsMapNode} {bytes : Option (List UInt8)} (h : found = .ok (.inr bytes))
      (hsets : attrsStep [node] = setKey key bytes) :
      KeyMade key found (.ok ((CCEPH_OK, some node), .plenty))

theorem osMapNodeNew_value (key : CString) (bytes : List UInt8) {valueLength : Int32}
    (hpos : valueLength > 0) :
    KeyMade key (keyValue key (some bytes) valueLength)
      (osMapNodeNew key (some bytes) valueLength .plenty) := by
  have hmade := osMapNodeNew_made key bytes valueLength hpos .plenty
  have hfound : keyValue key (some bytes) valueLength = _ :=
    if_neg (fun h => Bool.false_ne_true h.2)
  simp only [if_pos hpos, Option.getD_some] at hfound
  generalize osMapNodeNew key (some bytes) valueLength .plenty = x at hmade
  cases hmade with
  | copied hcopy hlen =>
      rw [nodeCopy_plenty] at hcopy
      rw [hcopy, if_pos hlen] at hfound
      refine .made hfound (funext fun attrs => ?_)
      have hnle : ¬valueLength ≤ 0 := Int32.not_le.mpr hpos
      have htaken : valueLength.toInt
          ≤ ((bytes.take valueLength.toInt.toNat).length : Int) := by
        rw [List.length_take]
        omega
      simp only [attrsStep, attrsUpdate, if_neg hnle, hcopy, if_pos htaken, List.take_take,
        Nat.min_self]
      rfl
  | short hcopy hlen =>
      rw [nodeCopy_plenty] at hcopy
      rw [hcopy, if_neg hlen] at hfound
      exact .fault hfound
  | refused s' hcopy hs =>
      rw [nodeCopy_plenty] at hcopy
      rw [hcopy] at hfound
      simp only [Allocs.plenty_tail, List.mem_cons, List.not_mem_nil, or_false, or_self] at hs
      rw [hs]
      exact .refused hfound
  | overrun hcopy =>
      rw [nodeCopy_plenty] at hcopy
      rw [hcopy] at hfound
      exact .fault hfound

/-- An empty value is a node that drops its key. -/
theorem osMapNodeNew_empty (key : CString) (value : Option (List UInt8)) {valueLength : Int32}
    (hpos : ¬valueLength > 0) :
    KeyMade key (keyValue key value valueLength) (osMapNodeNew key value valueLength .plenty) := by
  have hfound : keyValue key value valueLength = _ := if_neg (fun h => hpos h.1)
  simp only [if_neg hpos] at hfound
  unfold osMapNodeNew
  simp only [if_neg hpos]
  rw [bind_ok (malloc_run (show sizeofOsMapNode < 2 ^ 63 by decide) .plenty)]
  simp only [Allocs.plenty_head, Bool.not_true, Bool.false_eq_true, if_false]
  rw [bind_run, copyString_run]
  cases hcopy : copyOutcome key with
  | copied =>
      rw [hcopy] at hfound
      exact .made hfound (funext fun attrs => rfl)
  | refused =>
      rw [hcopy] at hfound
      exact .refused hfound
  | overrun =>
      rw [hcopy] at hfound
      exact .fault hfound

theorem osMapNodeNew_made_key (key : CString) (value : Option (List UInt8)) (valueLength : Int32) :
    KeyMade key (keyValue key value valueLength) (osMapNodeNew key value valueLength .plenty) := by
  by_cases hpos : valueLength > 0
  · cases value with
    | none =>
        unfold osMapNodeNew
        simp only [if_pos hpos, ne_eq, not_true_eq_false, assert_neg, not_false_eq_true, fault_bind]
        exact .fault (if_pos ⟨hpos, rfl⟩)
    | some bytes => exact osMapNodeNew_value key bytes hpos
  · exact osMapNodeNew_empty key value hpos

section
variable {σ : Type} {holds : σ → StoreView → Prop} {os : σ} {v : StoreView} {key : CString}
  {found : Except Fault (Int ⊕ Option (List UInt8))}
  {f : Option (List UInt8) → Step Fault StoreView}

/-- A call that makes a node, and goes on with the tree of it. -/
theorem keyStep_seen (hos : holds os v) {made : Prog Allocs (Int × Option OsMapNode)}
    (hmade : KeyMade key found (made .plenty)) (rest : BinTree OsMapNode → Prog Allocs (Int × σ))
    (hrest : ∀ node bytes, attrsStep [node] = setKey key bytes →
      Steps holds v (f bytes) (returns (rest (oneNode node)) .plenty)) :
    Steps holds v (keyStep found f) (returns (do
      let (ret, node) ← made
      if ret ≠ CCEPH_OK then
        return (ret, os)
      let node ← deref node
      let (ret, map) ← lift (osMapNodeInsert .nil node)
      if ret ≠ CCEPH_OK then
        return (ret, os)
      rest map) .plenty) := by
  unfold returns
  rw [bind_assoc, bind_run]
  generalize made .plenty = x at hmade
  cases hmade with
  | fault h =>
      rw [h]
      rfl
  | refused h =>
      rw [h]
      exact .code hos _
  | @made node bytes h hsets =>
      have hinsert : osMapNodeInsert .nil node = .ok (CCEPH_OK, oneNode node) := rfl
      rw [h]
      simp only [ne_eq, not_true_eq_false, if_false, deref_some, pure_bind, hinsert]
      exact hrest node bytes hsets

end

-- ================================================================ one call

/-- A write of no bytes opens the object. -/
theorem objectWrite_none (oid : CString) (offset : Int64) (data : List UInt8) :
    objectWrite oid offset 0 data = objectOpen oid := by
  funext o
  unfold objectWrite
  cases objectOpen oid o with
  | error e => rfl
  | ok r =>
      obtain ⟨c, o'⟩ := r
      cases o' with
      | none => rfl
      | some object => rfl

section
variable {op : OsTranOp}

/-- A write whose arguments pass. -/
theorem viewWrite_passes (hoid : op.oid.isSome) (hoffset : op.offset ≥ 0)
    (hlength : op.length ≥ 0) (hdata : op.length > 0 → op.data.isSome) :
    viewWrite op = onColl op.cid (inColl CCEPH_ERR_COLL_NOT_EXIST op.name
      (objectWrite op.name op.offset op.length (op.data.getD []))) := by
  unfold viewWrite
  rw [Step.guard_pos hoid, Step.guard_pos hoffset, Step.guard_pos hlength, Step.guard_pos hdata]
  rfl

theorem viewWrite_behind (hoffset : ¬op.offset ≥ 0) : viewWrite op = .abort .assertFail := by
  unfold viewWrite
  rw [Step.guard_neg hoffset, Step.guard_abort, Step.guard_abort]

end

/-- What a builder and the store make of its one op. -/
abbrev opStep (slot : OsTranOp) (call : TranCall) : Step Fault StoreView :=
  .guard (call.accepted = true) .assertFail (viewOp (call.fill slot))

section
variable (slot : OsTranOp) (cid : OsCollId) (logId : Int64)

theorem opStep_collCreate : opStep slot (.collCreate cid logId) = onColl cid collCreate :=
  Step.guard_again decide_eq_true

theorem opStep_collRemove : opStep slot (.collRemove cid logId) = onColl cid collRemove :=
  Step.guard_again decide_eq_true

theorem opStep_collMap (node : OsMapNode) :
    opStep slot (.collMap cid (some (oneNode node)) logId)
      = onColl cid (collMap [node]) := rfl

theorem opStep_objRemove (oid : Option CString) : opStep slot (.objRemove cid oid logId)
    = onObject CCEPH_ERR_COLL_NOT_EXIST cid oid fun _ => objectRemove := by
  cases oid with
  | none => rfl
  | some oid => rfl

theorem opStep_objMap (oid : Option CString) (node : OsMapNode) :
    opStep slot (.objMap cid oid (some (oneNode node)) logId)
      = onObject CCEPH_ERR_MAP_NODE_NOT_EXIST cid oid fun _ => objectMap [node] := by
  cases oid with
  | none => rfl
  | some oid => rfl

theorem opStep_objTouch (oid : Option CString) : opStep slot (.objTouch cid oid logId)
    = .guard (slot.offset ≥ 0) .assertFail
        (onObject CCEPH_ERR_COLL_NOT_EXIST cid oid objectOpen) := by
  cases oid with
  | none => exact (Step.guard_abort ..).symm
  | some oid =>
      have hview : viewOp ((TranCall.objTouch cid (some oid) logId).fill slot)
          = viewWrite { osTranObjTouch slot cid logId oid with length := 0 } := rfl
      have haccepted : (TranCall.objTouch cid (some oid) logId).accepted = true := rfl
      rw [opStep, Step.guard_pos haccepted, hview]
      by_cases hoffset : slot.offset ≥ 0
      · have hpasses := @viewWrite_passes { osTranObjTouch slot cid logId oid with length := 0 }
          rfl hoffset (Int64.le_refl 0) fun h => absurd h Int64.lt_irrefl
        rw [Step.guard_pos hoffset, hpasses, objectWrite_none]
        rfl
      · rw [Step.guard_neg hoffset]
        exact viewWrite_behind hoffset

theorem opStep_objWrite (oid : Option CString) (offset length : Int64)
    (data : Option (List UInt8)) :
    opStep slot (.objWrite cid oid offset length data logId)
      = .guard (offset ≥ 0 ∧ length ≥ 0 ∧ (length > 0 → data.isSome)) .assertFail
          (onObject CCEPH_ERR_COLL_NOT_EXIST cid oid fun oid =>
            objectWrite oid offset length (data.getD [])) := by
  have haccepted : (TranCall.objWrite cid oid offset length data logId).accepted = true
      ↔ oid.isSome ∧ offset ≥ 0 ∧ length ≥ 0 ∧ (length > 0 → data.isSome) :=
    decide_eq_true_iff
  cases oid with
  | none =>
      rw [show onObject CCEPH_ERR_COLL_NOT_EXIST cid none _ = .abort .assertFail from rfl,
        Step.guard_abort]
      exact Step.guard_neg (fun h => Bool.false_ne_true (haccepted.mp h).1) ..
  | some oid =>
      by_cases hargs : offset ≥ 0 ∧ length ≥ 0 ∧ (length > 0 → data.isSome)
      · obtain ⟨hoffset, hlength, hdata⟩ := hargs
        rw [Step.guard_pos ⟨hoffset, hlength, hdata⟩, opStep,
          Step.guard_pos (haccepted.mpr ⟨rfl, hoffset, hlength, hdata⟩)]
        exact viewWrite_passes rfl hoffset hlength hdata
      · rw [Step.guard_neg hargs]
        exact Step.guard_neg (fun h => hargs (haccepted.mp h).2) ..

end

section
variable {σ : Type} {osFuncs : StoreFuncs σ} {ok : MemStoreCall → Prop}
  {holds : σ → StoreView → Prop} {os : σ} {v : StoreView}

/-- One call, on any store that serves the map. -/
theorem objectStoreCall_seen (hserve : ServesMap osFuncs ok holds) (hos : holds os v)
    {call : Junk × ObjectStoreCall} (hcall : call.2.Ok ok call.1) :
    Seen (ObjectViewCall v call) holds StoreAnswer.seen .plenty
      (objectStoreCall osFuncs os call .plenty) := by
  obtain ⟨junk, call⟩ := call
  have hone : ∀ {f : Step Fault StoreView} {c : TranCall} {logId : Int64},
      opStep (junk CCEPH_OS_TRAN_OP_LIST_SIZE 0) c = f →
      ok (.submitTran (tranOfCall junk c) logId) →
      Steps holds v f (returns (osSubmitOne junk osFuncs.toOsFuncs os c logId) .plenty) := by
    rintro f c logId rfl hok
    exact osSubmitOne_seen hserve hos hok
  cases call with
  | createColl cid logId => exact hone (opStep_collCreate ..) hcall
  | removeColl cid logId => exact hone (opStep_collRemove ..) hcall
  | setCollMapKey cid key value valueLength logId =>
      refine keyStep_seen hos (osMapNodeNew_made_key key value valueLength)
        (fun map => osSubmitOne junk osFuncs.toOsFuncs os (.collMap cid (some map) logId) logId)
        fun node bytes hsets => hone ?_ (hcall _)
      rw [opStep_collMap, collMap, hsets]
  | touchObj cid oid logId => exact hone (opStep_objTouch ..) hcall
  | writeObj cid oid offset length data logId => exact hone (opStep_objWrite ..) hcall
  | removeObj cid oid logId => exact hone (opStep_objRemove ..) hcall
  | setObjMapKey cid oid key value valueLength logId =>
      refine keyStep_seen hos (osMapNodeNew_made_key key value valueLength)
        (fun map => osSubmitOne junk osFuncs.toOsFuncs os (.objMap cid oid (some map) logId) logId)
        fun node bytes hsets => hone ?_ (hcall _)
      rw [opStep_objMap, objectMap, hsets]
  | funcs call => exact hserve os v call hos hcall

-- ========================================================= the main result

/-- Any run of calls, on any store that serves the map for them. -/
theorem objectStoreCalls_onMap (hserve : ServesMap osFuncs ok holds) (hos : holds os v)
    (calls : List (Junk × ObjectStoreCall)) (hcalls : ∀ call ∈ calls, call.2.Ok ok call.1) :
    Seen (InTurn ObjectViewCall v calls) holds (List.map StoreAnswer.seen) .plenty
      (objectStoreCalls osFuncs calls os .plenty) :=
  callsInTurn_seen (fun _ _ _ hos hcall => objectStoreCall_seen hserve hos hcall) calls hos hcalls

end

/-- The one op of a transaction is the one whose line has to fit. -/
theorem linesFit_tranOfCall {junk : Junk} {call : TranCall} {logId : Int64}
    (h : ∀ l ∈ (call.fill (junk CCEPH_OS_TRAN_OP_LIST_SIZE 0)).line logId, l.Fits) :
    (tranOfCall junk call).LinesFit logId := by
  intro i op hop
  obtain ⟨hfilled, hget⟩ := osTranGetOp_some hop
  obtain rfl : i = 0 := by
    have hone : (tranOfCall junk call).opBufferIndex.toInt = 1 := rfl
    omega
  cases hget
  exact h

/-- A byte is written behind a gap, the object is read, and its
collection removed. -/
def writeAndRead : List (Junk × ObjectStoreCall) :=
  [(junkZero, .createColl 1 0),
    (junkZero, .writeObj 1 (some ⟨[97], noNul_a⟩) 1 1 (some [7]) 0),
    (junkZero, .funcs (.readObj 1 ⟨[97], noNul_a⟩ 0 0 0)),
    (junkZero, .removeColl 1 0),
    (junkZero, .funcs (.existColl 1))]

set_option maxRecDepth 4000 in
/-- These calls on a new memory store. -/
theorem objectStoreCalls_onMap_five : ∃ store v,
    objectStoreCalls memStoreFuncs writeAndRead .fresh .plenty
      = .ok (([.code CCEPH_OK, .code CCEPH_OK, .data CCEPH_OK (some 2) (some [0, 7]),
          .code CCEPH_OK, .existed CCEPH_OK 0], store), .plenty)
    ∧ InTurn ObjectViewCall (fun _ => none) writeAndRead
        (.ok ([.code CCEPH_OK, .code CCEPH_OK, .data CCEPH_OK (some 2) (some [0, 7]),
          .code CCEPH_OK, .existed CCEPH_OK 0], v))
    ∧ StoreHolds store v := by
  have hcalls : ∀ call ∈ writeAndRead, call.2.Ok MemStoreCall.Ok call.1 := by
    intro call hcall
    simp only [writeAndRead, List.mem_cons, List.not_mem_nil, or_false] at hcall
    rcases hcall with rfl | rfl | rfl | rfl | rfl
    · exact ⟨trivial, linesFit_tranOfCall LogLine.fits_of_mem_none⟩
    · exact ⟨trivial, linesFit_tranOfCall (by decide)⟩
    · exact ⟨trivial, fun level => by rcases level with _ | _ | _ | _ <;> decide⟩
    · exact ⟨trivial, linesFit_tranOfCall LogLine.fits_of_mem_none⟩
    · exact ⟨trivial, trivial⟩
  have hfresh : StoreHolds .fresh fun _ => none := ⟨reachable_fresh.ok, rfl⟩
  have hall := objectStoreCalls_onMap memStoreFuncs_servesMap hfresh writeAndRead hcalls
  have hrun : ∃ store, objectStoreCalls memStoreFuncs writeAndRead .fresh .plenty
      = .ok (([.code CCEPH_OK, .code CCEPH_OK, .data CCEPH_OK (some 2) (some [0, 7]),
          .code CCEPH_OK, .existed CCEPH_OK 0], store), .plenty) := ⟨_, rfl⟩
  obtain ⟨store, hrun⟩ := hrun
  rw [hrun] at hall
  obtain ⟨-, v, hview, hstore⟩ := hall
  exact ⟨store, v, hrun, hview, hstore⟩

end CephInC
