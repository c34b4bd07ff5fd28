/-
Which level is missing: the codes of the ops and reads that name a
collection, an object or an attribute.

`StoreCall` is one such call, `StoreCall.missing` the first level it
names that a store does not hold, read off the trees, and
`TellsLevel` what a caller wants of the code returned. Four searches
pass their own code on instead (`StoreCall.untranslated`).
-/
import CephInC.Common.Proofs.Map
import CephInC.Os.Logged

namespace CephInC

open Lib

/-- The stores reachable from a new one by transactions, whatever `malloc`
refuses. -/
inductive ReachableAny : MemStore → Prop where
  | new {store : MemStore} {s s' : Allocs}
      (h : memStoreNew s = .ok ((CCEPH_OK, some store), s')) : ReachableAny store
  | submit {store store' : MemStore} {tran : OsTran} {ret : Int} {s s' : Allocs}
      (h : ReachableAny store)
      (hs : memStoreSubmitTran store tran s = .ok ((ret, store'), s')) :
      ReachableAny store'

/-- A call that names a collection, an object or an attribute. -/
inductive StoreCall where
  | op (slot : OsTranOp)
  | readObj (cid : OsCollId) (oid : CString) (offset length : Int64)
  | readCollMap (cid : OsCollId) (map : BinTree OsMapNode)
  | readCollMapKey (cid : OsCollId) (key : CString)
  | readObjMap (cid : OsCollId) (oid : CString) (map : BinTree OsMapNode)
  | readObjMapKey (cid : OsCollId) (oid key : CString)

/-- What an op asserts of its arguments, if it names anything that has to
be there. -/
def OsTranOp.Asserted (op : OsTranOp) : Prop :=
  op.cid ≥ 0 ∧ match op.op with
    | .collRemove => True
    | .collMap => op.map.isSome
    | .objTouch => op.oid.isSome ∧ op.offset ≥ 0
    | .objWrite => op.oid.isSome ∧ op.offset ≥ 0 ∧ op.length ≥ 0
        ∧ (op.length > 0 → op.data.isSome)
    | .objRemove => op.oid.isSome
    | .objMap => op.oid.isSome ∧ op.map.isSome
    | .noop | .collCreate | .unknown => False

def StoreCall.Asserted : StoreCall → Prop
  | .op slot => slot.Asserted
  | .readObj _ _ offset _ => offset ≥ 0
  | _ => True

/-- The code a call returns. -/
def StoreCall.code (logId : Int64) (store : MemStore) (s : Allocs) :
    StoreCall → Except Fault Int
  | .op slot => (memStoreDoOpLogged log logId store.colls (some slot) s).map fun r => r.1.1
  | .readObj cid oid offset length =>
      (memStoreReadObjLogged log logId store cid oid offset length s).map fun r => r.1.1
  | .readCollMap cid map => (memStoreReadCollMap store cid map s).map fun r => r.1.1
  | .readCollMapKey cid key =>
      (memStoreReadCollMapKeyLogged log logId store cid key s).map fun r => r.1.1
  | .readObjMap cid oid map =>
      (memStoreReadObjMapLogged log logId store cid oid map s).map fun r => r.1.1
  | .readObjMapKey cid oid key =>
      (memStoreReadObjMapKeyLogged log logId store cid oid key s).map fun r => r.1.1

/-- The same, were there no LOG. -/
def StoreCall.silentCode (store : MemStore) (s : Allocs) : StoreCall → Except Fault Int
  | .op slot => (memStoreDoOp store.colls (some slot) s).map fun r => r.1.1
  | .readObj cid oid offset length =>
      (memStoreReadObj store cid oid offset length s).map fun r => r.1.1
  | .readCollMap cid map => (memStoreReadCollMap store cid map s).map fun r => r.1.1
  | .readCollMapKey cid key => (memStoreReadCollMapKey store cid key s).map fun r => r.1.1
  | .readObjMap cid oid map => (memStoreReadObjMap store cid oid map s).map fun r => r.1.1
  | .readObjMapKey cid oid key =>
      (memStoreReadObjMapKey store cid oid key s).map fun r => r.1.1

-- ============================================================== levels

inductive Level where
  | coll
  | object
  | key
  deriving DecidableEq

/-- The code that names a level. -/
def Level.code : Level → Int
  | .coll => CCEPH_ERR_COLL_NOT_EXIST
  | .object => CCEPH_ERR_OBJECT_NOT_EXIST
  | .key => CCEPH_ERR_MAP_NODE_NOT_EXIST

def StoreCall.cid : StoreCall → OsCollId
  | .op slot => slot.cid
  | .readObj cid _ _ _ | .readCollMap cid _ | .readCollMapKey cid _
  | .readObjMap cid _ _ | .readObjMapKey cid _ _ => cid

/-- The object a call names and does not create. -/
def StoreCall.oid : StoreCall → Option CString
  | .op slot =>
      match slot.op with
      | .objRemove | .objMap => slot.oid
      | _ => none
  | .readObj _ oid _ _ | .readObjMap _ oid _ | .readObjMapKey _ oid _ => some oid
  | .readCollMap _ _ | .readCollMapKey _ _ => none

def StoreCall.key : StoreCall → Option CString
  | .readCollMapKey _ key | .readObjMapKey _ _ key => some key
  | _ => none

def keyMissing (map : BinTree OsMapNode) : Option CString → Option Level
  | none => none
  | some key => if (mapGet OsMapNode.key map key).isSome then none else some .key

/-- The first level a call names that is not there. -/
def StoreCall.missing (store : MemStore) (call : StoreCall) : Option Level :=
  match mapGet MemStoreCollNode.cid store.colls call.cid with
  | none => some .coll
  | some cnode =>
      match call.oid with
      | none => keyMissing cnode.map call.key
      | some oid =>
          match mapGet MemStoreObjectNode.oid cnode.objects oid with
          | none => some .object
          | some onode => keyMissing onode.map call.key

/-- The code tells which level is missing, and there is one. -/
structure TellsLevel (code : Except Fault Int) (missing : Option Level) : Prop where
  returns : missing.isSome → ∃ c, code = .ok c
  coll : code = .ok CCEPH_ERR_COLL_NOT_EXIST ↔ missing = some .coll
  object : code = .ok CCEPH_ERR_OBJECT_NOT_EXIST ↔ missing = some .object
  key : code = .ok CCEPH_ERR_MAP_NODE_NOT_EXIST → missing = some .key

/-- The lines with a name that a call says, `level` being the first that is
missing. -/
def StoreCall.lines (logId : Int64) (level : Option Level) : StoreCall → List LogLine
  | .op slot => (slot.line logId).toList
  | .readObj cid oid offset length => readObjLine logId cid oid offset length ::
      if level = some .object then
        [readObjFailedLine logId oid CCEPH_ERR_MAP_NODE_NOT_EXIST]
      else []
  | .readCollMap _ _ => []
  | .readCollMapKey _ key =>
      if level = some .key then
        [readCollMapKeyFailedLine logId key CCEPH_ERR_MAP_NODE_NOT_EXIST]
      else []
  | .readObjMap cid oid _ => readObjMapLine logId cid oid ::
      if level = some .object then
        [readObjMapFailedLine logId oid CCEPH_ERR_MAP_NODE_NOT_EXIST]
      else []
  | .readObjMapKey cid oid key => readObjMapKeyLine logId cid oid ::
      if level = some .object then
        [readObjMapKeyFailedLine logId oid CCEPH_ERR_MAP_NODE_NOT_EXIST]
      else if level = some .key then
        [readObjMapKeyNotFoundLine logId key CCEPH_ERR_MAP_NODE_NOT_EXIST]
      else []

/-- The level whose search code the call returns as it is. -/
def StoreCall.untranslated : StoreCall → Level → Bool
  | .op slot, .coll => slot.op = .collMap ∨ slot.op = .objMap
  | .op slot, .object => slot.op = .objMap
  | .readObjMap _ _ _, .coll | .readObjMap _ _ _, .object => true
  | .readObjMapKey _ _ _, .object => true
  | _, _ => false

end CephInC
