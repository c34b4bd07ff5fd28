/-
`os/object_store.c`: a transaction of one op, built and submitted, over
any store that has the functions of a `cceph_os_funcs`.

The calls differ in the builder they use; `osSubmitOne` is what they have
in common. The transaction and the node of a key are freed on each path
out, and so leave the model with it.
-/
import CephInC.Os.Builders
import CephInC.Os.Logged

namespace CephInC

open Lib

/-- `cceph_os_funcs`, as far as these calls go. -/
structure OsFuncs (σ : Type) where
  submitTran : σ → OsTran → Int64 → Prog Allocs (Int × σ)

/-- `cceph_mem_store_get_funcs`. -/
def memStoreGetFuncs : OsFuncs MemStore :=
  ⟨fun store tran logId => memStoreSubmitTranLogged log logId store tran⟩

section
variable {σ : Type} (junk : Junk) (osFuncs : OsFuncs σ) (os : σ)

/-- `cceph_os_tran_new`, one builder, `submit_tran`. -/
def osSubmitOne (call : TranCall) (logId : Int64) : Prog Allocs (Int × σ) := do
  let (ret, tran) ← osTranNew junk
  if ret ≠ CCEPH_OK then
    return (ret, os)
  -- every builder asserts that there is a transaction
  assert (tran.isSome)
  let tran ← deref tran
  let (ret, tran) ← osTranCall junk tran call
  if ret ≠ CCEPH_OK then
    return (ret, os)
  let (ret, os) ← osFuncs.submitTran os tran logId
  if ret ≠ CCEPH_OK then
    return (ret, os)
  return (CCEPH_OK, os)

/-- `cceph_os_create_coll`: the return code and the store. -/
def osCreateColl (cid : OsCollId) (logId : Int64) : Prog Allocs (Int × σ) :=
  osSubmitOne junk osFuncs os (.collCreate cid logId) logId

/-- `cceph_os_set_coll_map_key`: the return code and the store. -/
def osSetCollMapKey (cid : OsCollId) (key : CString) (value : Option (List UInt8))
    (valueLength : Int32) (logId : Int64) : Prog Allocs (Int × σ) := do
  let (ret, node) ← osMapNodeNew key value valueLength
  if ret ≠ CCEPH_OK then
    return (ret, os)
  let node ← deref node
  let (ret, map) ← lift (osMapNodeInsert .nil node)
  if ret ≠ CCEPH_OK then
    return (ret, os)
  osSubmitOne junk osFuncs os (.collMap cid (some map) logId) logId

/-- `cceph_os_remove_coll`. -/
def osRemoveColl (cid : OsCollId) (logId : Int64) : Prog Allocs (Int × σ) :=
  osSubmitOne junk osFuncs os (.collRemove cid logId) logId

/-- `cceph_os_touch_obj`. -/
def osTouchObj (cid : OsCollId) (oid : Option CString) (logId : Int64) : Prog Allocs (Int × σ) :=
  osSubmitOne junk osFuncs os (.objTouch cid oid logId) logId

/-- `cceph_os_write_obj`. -/
def osWriteObj (cid : OsCollId) (oid : Option CString) (offset length : Int64)
    (data : Option (List UInt8)) (logId : Int64) : Prog Allocs (Int × σ) :=
  osSubmitOne junk osFuncs os (.objWrite cid oid offset length data logId) logId

/-- `cceph_os_remove_obj`. -/
def osRemoveObj (cid : OsCollId) (oid : Option CString) (logId : Int64) :
    Prog Allocs (Int × σ) :=
  osSubmitOne junk osFuncs os (.objRemove cid oid logId) logId

/-- `cceph_os_set_obj_map_key`. -/
def osSetObjMapKey (cid : OsCollId) (oid : Option CString) (key : CString)
    (value : Option (List UInt8)) (valueLength : Int32) (logId : Int64) :
    Prog Allocs (Int × σ) := do
  let (ret, node) ← osMapNodeNew key value valueLength
  if ret ≠ CCEPH_OK then
    return (ret, os)
  let node ← deref node
  let (ret, map) ← lift (osMapNodeInsert .nil node)
  if ret ≠ CCEPH_OK then
    return (ret, os)
  osSubmitOne junk osFuncs os (.objMap cid oid (some map) logId) logId

end

end CephInC
