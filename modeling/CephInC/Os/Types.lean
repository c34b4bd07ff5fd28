/-
`os/types.c`: collection ids, attribute nodes and `cceph_os_map_update`.

An attribute node holds its key, its value block (or NULL) and
`value_length`; a tree of them is a collection's or an object's
attribute map, and also the argument of a map operation.

The update loop walks the input tree while it changes the result tree,
two separate trees; so it runs over the nodes a walk of the input tree
visits.
-/
import CephInC.Common.CString
import CephInC.Common.Walk

namespace CephInC

open Lib

/-- `cceph_os_coll_id_t`. -/
abbrev OsCollId := Int32

/-- `cceph_os_coll_id_cmp`. -/
def osCollIdCmp (cid_a cid_b : OsCollId) : Int :=
  if cid_a > cid_b then 1
  else if cid_a < cid_b then -1
  else 0

/-- `cceph_os_op_t`: the `CCEPH_OS_OP_*` values, and any other. -/
inductive OsOp where
  | noop
  | collCreate
  | collRemove
  | collMap
  | objTouch
  | objWrite
  | objMap
  | objRemove
  | unknown
  deriving DecidableEq

/-- `cceph_os_map_node`. -/
structure OsMapNode where
  key : CString
  value : Option (List UInt8)
  valueLength : Int32
  deriving DecidableEq

/-- Sizes of the structures the store allocates. -/
def sizeofOsMapNode : Nat := 48

/-- `cceph_os_map_node_new`: the return code and `*node`. -/
def osMapNodeNew (key : CString) (value : Option (List UInt8))
    (valueLength : Int32) : Prog Allocs (Int × Option OsMapNode) := do
  if valueLength > 0 then assert (value ≠ none)
  if !(← malloc sizeofOsMapNode) then
    return (CCEPH_ERR_NO_ENOUGH_MEM, none)
  match ← copyString key with
  | none => return (CCEPH_ERR_NO_ENOUGH_MEM, none)
  | some key =>
      if valueLength > 0 then
        let size := sizeT valueLength.toInt
        if !(← malloc size) then
          return (CCEPH_ERR_NO_ENOUGH_MEM, none)
        let block ← memcpy (List.replicate size 0) 0 value size
        return (CCEPH_OK, some ⟨key, some block, valueLength⟩)
      else
        return (CCEPH_OK, some ⟨key, none, 0⟩)

/-- `cceph_os_map_node_insert`: the map macro's insertion, written out. -/
def osMapNodeInsert (root : BinTree OsMapNode) (node : OsMapNode) :
    Except Fault (Int × BinTree OsMapNode) :=
  implMapInsert strcmp OsMapNode.key root node

/-- `cceph_os_map_node_remove`. -/
def osMapNodeRemove (node : Loc OsMapNode) :
    Except Fault (Int × BinTree OsMapNode) :=
  implMapRemove node

/-- `cceph_os_map_node_search`. -/
def osMapNodeSearch (root : BinTree OsMapNode) (key : CString) :
    Int × Option (Loc OsMapNode) :=
  implMapSearch strcmp OsMapNode.key root key

/-- Where one turn of the update loop leads. -/
inductive UpdateStep where
  /-- `goto label_ret` -/
  | labelRet
  /-- on to `cceph_rb_next` -/
  | next
  deriving DecidableEq

/-- `cceph_os_map_node_new` then `cceph_os_map_node_insert`, each with
its `goto label_ret`. -/
def osMapUpdateAdd (resultTree : BinTree OsMapNode) (inputNode : OsMapNode) :
    Prog Allocs (UpdateStep × Int × BinTree OsMapNode) := do
  let (ret, resultNode) ← osMapNodeNew inputNode.key inputNode.value
    inputNode.valueLength
  if ret ≠ CCEPH_OK then
    return (.labelRet, ret, resultTree)
  let resultNode ← deref resultNode
  let (ret, resultTree) ← lift (osMapNodeInsert resultTree resultNode)
  if ret ≠ CCEPH_OK then
    return (.labelRet, ret, resultTree)
  return (.next, ret, resultTree)

/-- The body of the loop of `cceph_os_map_update` for one input node:
where it goes, `ret`, and the result tree. -/
def osMapUpdateBody (resultTree : BinTree OsMapNode) (inputNode : OsMapNode) :
    Prog Allocs (UpdateStep × Int × BinTree OsMapNode) := do
  if inputNode.valueLength > 0 then assert (inputNode.value ≠ none)
  let (ret, resultNode) := osMapNodeSearch resultTree inputNode.key
  match resultNode with
  | none =>
      if inputNode.valueLength > 0 then
        osMapUpdateAdd resultTree inputNode
      else
        return (.next, ret, resultTree)
  | some resultNode =>
      -- remove the old node; what is left to fail is adding the new one
      let (ret, resultTree) ← lift (osMapNodeRemove resultNode)
      if ret ≠ CCEPH_OK then
        return (.labelRet, ret, resultTree)
      if inputNode.valueLength > 0 then
        osMapUpdateAdd resultTree inputNode
      else
        return (.next, CCEPH_OK, resultTree)

/-- The loop of `cceph_os_map_update` over the input nodes it visits;
`ret` is what the last turn left. -/
def osMapUpdateLoop : BinTree OsMapNode → Int → List OsMapNode →
    Prog Allocs (Int × BinTree OsMapNode)
  | resultTree, ret, [] => return (ret, resultTree)
  | resultTree, _, inputNode :: rest => do
      match ← osMapUpdateBody resultTree inputNode with
      | (.labelRet, ret, resultTree) => return (ret, resultTree)
      | (.next, ret, resultTree) => osMapUpdateLoop resultTree ret rest

/-- `cceph_os_map_update`: the return code and the result tree. Whatever
`ret` the loop ended with goes to the log only. -/
def osMapUpdate (resultTree inputTree : BinTree OsMapNode) :
    Prog Allocs (Int × BinTree OsMapNode) := do
  let (_, resultTree) ← osMapUpdateLoop resultTree CCEPH_OK (rbWalk inputTree)
  return (CCEPH_OK, resultTree)

end CephInC
