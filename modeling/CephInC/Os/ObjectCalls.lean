/-
Runs of the calls of `os/object_store.c`, on any store, and what they do
to the plain map.

A caller knows a store by its table of functions. It makes calls that
change it, each with a transaction of one op, and calls of the table.
`ObjectStoreCall.step` tells the former on the `StoreView`: creating,
removing, touching and writing do to the one place they name what their
name says, and setting a key puts or, for an empty value, drops it.
-/
import CephInC.Os.StoreSpec

namespace CephInC

open Lib

inductive ObjectStoreCall where
  | createColl (cid : OsCollId) (logId : Int64)
  | removeColl (cid : OsCollId) (logId : Int64)
  | setCollMapKey (cid : OsCollId) (key : CString) (value : Option (List UInt8))
      (valueLength : Int32) (logId : Int64)
  | touchObj (cid : OsCollId) (oid : Option CString) (logId : Int64)
  | writeObj (cid : OsCollId) (oid : Option CString) (offset length : Int64)
      (data : Option (List UInt8)) (logId : Int64)
  | removeObj (cid : OsCollId) (oid : Option CString) (logId : Int64)
  | setObjMapKey (cid : OsCollId) (oid : Option CString) (key : CString)
      (value : Option (List UInt8)) (valueLength : Int32) (logId : Int64)
  | funcs (call : MemStoreCall)

section
variable {σ : Type} (osFuncs : StoreFuncs σ)

/-- A call that hands its return code on. -/
def returns (done : Prog Allocs (Int × σ)) : Prog Allocs (StoreAnswer × σ) := do
  let (ret, os) ← done
  return (.code ret, os)

/-- One call. `junk` is what the blocks of its transaction hold at first. -/
def objectStoreCall (os : σ) : Junk × ObjectStoreCall → Prog Allocs (StoreAnswer × σ)
  | (junk, .createColl cid logId) => returns (osCreateColl junk osFuncs.toOsFuncs os cid logId)
  | (junk, .removeColl cid logId) => returns (osRemoveColl junk osFuncs.toOsFuncs os cid logId)
  | (junk, .setCollMapKey cid key value valueLength logId) =>
      returns (osSetCollMapKey junk osFuncs.toOsFuncs os cid key value valueLength logId)
  | (junk, .touchObj cid oid logId) => returns (osTouchObj junk osFuncs.toOsFuncs os cid oid logId)
  | (junk, .writeObj cid oid offset length data logId) =>
      returns (osWriteObj junk osFuncs.toOsFuncs os cid oid offset length data logId)
  | (junk, .removeObj cid oid logId) =>
      returns (osRemoveObj junk osFuncs.toOsFuncs os cid oid logId)
  | (junk, .setObjMapKey cid oid key value valueLength logId) =>
      returns (osSetObjMapKey junk osFuncs.toOsFuncs os cid oid key value valueLength logId)
  | (_, .funcs call) => osFuncs.call os call

def objectStoreCalls (calls : List (Junk × ObjectStoreCall)) (os : σ) :
    Prog Allocs (List StoreAnswer × σ) :=
  callsInTurn (objectStoreCall osFuncs) calls os

end

-- ============================================================ on the map

/-- What a key is to be set to; none drops it. It may come to an error
code instead, if its length has no `int`. -/
def keyValue (key : CString) (value : Option (List UInt8)) (valueLength : Int32) :
    Except Fault (Int ⊕ Option (List UInt8)) :=
  if valueLength > 0 ∧ value.isNone then .error .assertFail
  else
    match copyOutcome key with
    | .overrun => .error .outOfBounds
    | .refused => .ok (.inl CCEPH_ERR_NO_ENOUGH_MEM)
    | .copied =>
        if valueLength > 0 then
          let bytes := value.getD []
          if valueLength.toInt ≤ bytes.length then
            .ok (.inr (some (bytes.take valueLength.toInt.toNat)))
          else .error .outOfBounds
        else .ok (.inr none)

def setKey (key : CString) (bytes : Option (List UInt8)) : Step Fault AttrsView := fun attrs =>
  .ok (CCEPH_OK, Function.update attrs key bytes)

/-- A step that sets a key, where that can be done. -/
def keyStep (found : Except Fault (Int ⊕ Option (List UInt8)))
    (f : Option (List UInt8) → Step Fault StoreView) : Step Fault StoreView :=
  match found with
  | .error e => .abort e
  | .ok (.inl ret) => .code ret
  | .ok (.inr bytes) => f bytes

/-- A step on the collection `cid`, which no call takes a negative id
for. -/
def onColl (cid : OsCollId) (f : Step Fault (Option CollView)) : Step Fault StoreView :=
  .guard (cid ≥ 0) .assertFail (.over (.at cid) f)

/-- A step on the object `oid` of the collection `cid`, or `ret` if there
is no such collection. -/
def onObject (ret : Int) (cid : OsCollId) (oid : Option CString)
    (f : CString → Step Fault (Option ObjectView)) : Step Fault StoreView :=
  match oid with
  | none => .abort .assertFail
  | some oid => onColl cid (inColl ret oid (f oid))

/-- What a call that changes the store does. A touch leaves the offset of
its op to the block it stands in, where the store finds it. -/
def ObjectStoreCall.step (junk : Junk) : ObjectStoreCall → Step Fault StoreView
  | .createColl cid _ => onColl cid collCreate
  | .removeColl cid _ => onColl cid collRemove
  | .setCollMapKey cid key value valueLength _ =>
      keyStep (keyValue key value valueLength) fun bytes =>
        onColl cid (.onSome CCEPH_ERR_MAP_NODE_NOT_EXIST
          (.over CollView.attrsLens (setKey key bytes)))
  | .touchObj cid oid _ =>
      .guard ((junk CCEPH_OS_TRAN_OP_LIST_SIZE 0).offset ≥ 0) .assertFail <|
      onObject CCEPH_ERR_COLL_NOT_EXIST cid oid objectOpen
  | .writeObj cid oid offset length data _ =>
      .guard (offset ≥ 0 ∧ length ≥ 0 ∧ (length > 0 → data.isSome)) .assertFail <|
      onObject CCEPH_ERR_COLL_NOT_EXIST cid oid fun oid =>
        objectWrite oid offset length (data.getD [])
  | .removeObj cid oid _ => onObject CCEPH_ERR_COLL_NOT_EXIST cid oid fun _ => objectRemove
  | .setObjMapKey cid oid key value valueLength _ =>
      keyStep (keyValue key value valueLength) fun bytes =>
        onObject CCEPH_ERR_MAP_NODE_NOT_EXIST cid oid fun _ =>
          .onSome CCEPH_ERR_MAP_NODE_NOT_EXIST (.over ObjectView.attrsLens (setKey key bytes))
  | .funcs _ => .code CCEPH_OK

/-- How a call can come out from the map `v`. -/
def ObjectViewCall (v : StoreView) (call : Junk × ObjectStoreCall)
    (x : Except Fault (SeenAnswer × StoreView)) : Prop :=
  match call.2 with
  | .funcs c => ViewCall v c x
  | c => x = (c.step call.1 v).map fun r => (.code r.1, r.2)

/-- A new transaction with `op` in its first slot. -/
def tranOfOne (junk : Junk) (op : OsTranOp) : OsTran :=
  ⟨(osTranOpBlock junk CCEPH_OS_TRAN_OP_LIST_SIZE).set 0 op, CCEPH_OS_TRAN_OP_LIST_SIZE, 1⟩

/-- The transaction of these arguments. -/
def tranOfCall (junk : Junk) (call : TranCall) : OsTran :=
  tranOfOne junk (call.fill (junk CCEPH_OS_TRAN_OP_LIST_SIZE 0))

/-- What a call asks of the table is `ok`, whatever tree the node of a key
is in. -/
def ObjectStoreCall.Ok (ok : MemStoreCall → Prop) (junk : Junk) : ObjectStoreCall → Prop
  | .createColl cid logId => ok (.submitTran (tranOfCall junk (.collCreate cid logId)) logId)
  | .removeColl cid logId => ok (.submitTran (tranOfCall junk (.collRemove cid logId)) logId)
  | .setCollMapKey cid _ _ _ logId =>
      ∀ map, ok (.submitTran (tranOfCall junk (.collMap cid (some map) logId)) logId)
  | .touchObj cid oid logId =>
      ok (.submitTran (tranOfCall junk (.objTouch cid oid logId)) logId)
  | .writeObj cid oid offset length data logId =>
      ok (.submitTran (tranOfCall junk (.objWrite cid oid offset length data logId)) logId)
  | .removeObj cid oid logId =>
      ok (.submitTran (tranOfCall junk (.objRemove cid oid logId)) logId)
  | .setObjMapKey cid oid _ _ _ logId =>
      ∀ map, ok (.submitTran (tranOfCall junk (.objMap cid oid (some map) logId)) logId)
  | .funcs call => ok call

end CephInC
