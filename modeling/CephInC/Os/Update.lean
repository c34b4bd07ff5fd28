/-
What `cceph_os_map_update` should leave, and when memory does not let it.

`updatedNode` is the purpose of an update, said by lookups in the two
trees. `Refuses` looks at the input nodes and at the outcomes of the
coming `malloc` calls only: does one come to be refused, before a key
runs off its block?
-/
import CephInC.Os.Spec

namespace CephInC

open Lib

/-- The copy `cceph_os_map_node_new` makes of a node with a value; none if
there is no value to keep. -/
def OsMapNode.stored (node : OsMapNode) : Option OsMapNode :=
  if node.valueLength > 0 then
    some { node with value := node.value.map fun bytes => bytes.take node.valueLength.toInt.toNat }
  else none

/-- What an update that succeeds in full leaves under a key. -/
def updatedNode (resultTree inputTree : BinTree OsMapNode) (key : CString) : Option OsMapNode :=
  match mapGet OsMapNode.key inputTree key with
  | some node => node.stored
  | none => mapGet OsMapNode.key resultTree key

/-- What becomes of the copy of a node with a value, for these outcomes of
the `malloc` calls: of the node, of its key, of its value. -/
def nodeCopy (key : CString) (s : Allocs) : CopyOutcome :=
  if s.head && s.tail.head then
    match copyOutcome key with
    | .copied => if s.tail.tail.head then .copied else .refused
    | outcome => outcome
  else .refused

/-- An allocation is refused for one of the nodes. -/
def Refuses : List OsMapNode → Allocs → Prop
  | [], _ => False
  | node :: rest, s =>
      if node.valueLength > 0 then
        match nodeCopy node.key s with
        | .overrun => False
        | .refused => True
        | .copied => Refuses rest s.tail.tail.tail
      else Refuses rest s

/-- An update that says it succeeded did. -/
def TellsLoss (resultTree inputTree : BinTree OsMapNode) (s : Allocs) : Prop :=
  ∀ ret tree s', osMapUpdate resultTree inputTree s = .ok ((ret, tree), s') →
    ret = CCEPH_OK → ∀ key, mapGet OsMapNode.key tree key = updatedNode resultTree inputTree key

-- ============================================================ the two trees

/-- A node as `cceph_os_map_node_new` makes them. -/
structure OsMapNode.Made (node : OsMapNode) : Prop where
  key : copyOutcome node.key = .copied
  value : node.valueLength > 0 →
    ∃ bytes, node.value = some bytes ∧ node.valueLength.toInt ≤ bytes.length

/-- An attribute tree: its keys ascend, and so none is there twice. -/
structure MapWellFormed (tree : BinTree OsMapNode) : Prop where
  redBlack : tree.RedBlack
  inOrder : InOrder strcmp OsMapNode.key tree.toList
  made : ∀ node ∈ tree.toList, node.Made

/-- Every value has a byte. -/
def NoEmptyValue (tree : BinTree OsMapNode) : Prop :=
  ∀ node ∈ tree.toList, node.valueLength > 0

/-- The node a search for a key gives. -/
def osMapNodeFound (tree : BinTree OsMapNode) (key : CString) : Option OsMapNode :=
  (osMapNodeSearch tree key).2.map Loc.data

/-- The tree after an update of the result tree with the input tree. -/
structure Updated (resultTree inputTree tree : BinTree OsMapNode) : Prop where
  wellFormed : MapWellFormed tree
  set : ∀ key node, osMapNodeFound inputTree key = some node → node.valueLength > 0 →
    osMapNodeFound tree key = some { node with
      value := node.value.map fun bytes => bytes.take node.valueLength.toInt.toNat }
  unset : ∀ key node, osMapNodeFound inputTree key = some node → node.valueLength ≤ 0 →
    osMapNodeFound tree key = none
  kept : ∀ key, osMapNodeFound inputTree key = none →
    osMapNodeFound tree key = osMapNodeFound resultTree key
  noEmptyValue : NoEmptyValue resultTree → NoEmptyValue tree

end CephInC
