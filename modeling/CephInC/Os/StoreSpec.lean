/-
What the calls on a store answer, told by the plain map.

While memory lasts, a call is a step on the `StoreView`: a transaction
runs its ops (`tranSteps`), a reader leaves the map as it is. What a
whole-map reader puts into the caller's tree is told by the value each
key has in it (`SeenAnswer`), and a listing by the one strictly
ascending list of the ids in use. A fault is an outcome like any other.

LOG is not on the map: of a call it is asked that the names it prints
fit (`MemStoreCall.LinesFit`).
-/
import CephInC.Os.Existence
import CephInC.Os.Proofs.ReadMaps
import CephInC.Os.StoreCalls

namespace CephInC

open Lib

/-- A `StoreAnswer`, a tree seen through the values it gives. -/
inductive SeenAnswer where
  | code (ret : Int)
  | data (ret : Int) (length : Option Int64) (bytes : Option (List UInt8))
  | colls (ret : Int) (length : Option Int32) (list : Option (List OsCollId))
  | existed (ret isExisted : Int)
  | attrs (ret : Int) (map : AttrsView)
  | value (ret : Int) (length : Option Int32) (bytes : Option (List UInt8))

def StoreAnswer.seen : StoreAnswer → SeenAnswer
  | .code ret => .code ret
  | .data ret length bytes => .data ret length bytes
  | .colls ret length list => .colls ret length list
  | .existed ret isExisted => .existed ret isExisted
  | .attrs ret map => .attrs ret (attrsView map)
  | .value ret length bytes => .value ret length bytes

/-- The ids in use, in ascending order. -/
structure IsIdList (v : StoreView) (cids : List OsCollId) : Prop where
  ascending : cids.Pairwise fun cid cid' => cid.toInt < cid'.toInt
  mem : ∀ cid, cid ∈ cids ↔ (v cid).isSome

/-- The `int` count and the block of a listing. -/
def listAnswer (cids : List OsCollId) : Except Fault SeenAnswer :=
  let count := Int32.ofNat cids.length
  let size := sizeT (sizeofOsCollId * count.toInt)
  if size < 2 ^ 63 then
    if size < sizeofOsCollId * cids.length then .error .outOfBounds
    else .ok (.colls CCEPH_OK (some count) (some cids))
  else .ok (.colls CCEPH_ERR_NO_ENOUGH_MEM none none)

/-- What is found goes over what the caller has. -/
def mergeAttrs (stored callers : AttrsView) : AttrsView := fun key =>
  (stored key).or (callers key)

def mapAnswer (found : Int ⊕ AttrsView) (callers : AttrsView) : SeenAnswer :=
  match found with
  | .inl ret => .attrs ret callers
  | .inr stored => .attrs CCEPH_OK (mergeAttrs stored callers)

/-- How a call can come out from the map `v`. -/
def ViewCall (v : StoreView) (call : MemStoreCall) (x : Except Fault (SeenAnswer × StoreView)) :
    Prop :=
  match call with
  | .submitTran tran _ => x = (Step.seq (tranSteps tran) v).map fun r => (.code r.1, r.2)
  | .readObj cid oid offset length _ =>
      if offset ≥ 0 then
        let r := objRead v cid oid offset length
        x = .ok (.data r.1 r.2.1 r.2.2, v)
      else x = .error .assertFail
  | .listColl => ∃ cids, IsIdList v cids ∧ x = (listAnswer cids).map fun a => (a, v)
  | .existColl cid => x = .ok (.existed CCEPH_OK (if (v cid).isSome then 1 else 0), v)
  | .readCollMap cid map => x = .ok (mapAnswer (collAttrs v cid) (attrsView map), v)
  | .readCollMapKey cid key _ =>
      let r := collKeyRead v cid key
      x = .ok (.value r.1 r.2.1 r.2.2, v)
  | .readObjMap cid oid map _ => x = .ok (mapAnswer (objAttrs v cid oid) (attrsView map), v)
  | .readObjMapKey cid oid key _ =>
      let r := objKeyRead v cid oid key
      x = .ok (.value r.1 r.2.1 r.2.2, v)

/-- Calls in a row, up to the first that does not return. -/
abbrev ViewCalls : StoreView → List MemStoreCall → Except Fault (List SeenAnswer × StoreView) →
    Prop := InTurn ViewCall

/-- A tree a caller passes is one that the map functions build. -/
def MemStoreCall.MapsOk : MemStoreCall → Prop
  | .readCollMap _ map => AttrsOk map
  | .readObjMap _ _ map _ => AttrsOk map
  | _ => True

/-- The names a call prints fit, whatever it finds. -/
def MemStoreCall.LinesFit : MemStoreCall → Prop
  | .submitTran tran logId => tran.LinesFit logId
  | .readObj cid oid offset length logId =>
      ∀ level, ∀ l ∈ (StoreCall.readObj cid oid offset length).lines logId level, l.Fits
  | .readCollMapKey cid key logId =>
      ∀ level, ∀ l ∈ (StoreCall.readCollMapKey cid key).lines logId level, l.Fits
  | .readObjMap cid oid map logId =>
      ∀ level, ∀ l ∈ (StoreCall.readObjMap cid oid map).lines logId level, l.Fits
  | .readObjMapKey cid oid key logId =>
      ∀ level, ∀ l ∈ (StoreCall.readObjMapKey cid oid key).lines logId level, l.Fits
  | .listColl | .existColl _ | .readCollMap _ _ => True

/-- A call as the memory store takes it. -/
structure MemStoreCall.Ok (call : MemStoreCall) : Prop where
  maps : call.MapsOk
  lines : call.LinesFit

/-- The functions of the table do to the map a store holds what the calls
do to it, while memory lasts, for calls that are `ok`. -/
def ServesMap {σ : Type} (osFuncs : StoreFuncs σ) (ok : MemStoreCall → Prop)
    (holds : σ → StoreView → Prop) : Prop :=
  ∀ (os : σ) (v : StoreView) (call : MemStoreCall), holds os v → ok call →
    Seen (ViewCall v call) holds StoreAnswer.seen .plenty (osFuncs.call os call .plenty)

/-- The store is in order, and holds the map. -/
def StoreHolds (store : MemStore) (v : StoreView) : Prop := StoreOk store ∧ store.view = v

end CephInC
