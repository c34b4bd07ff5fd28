/-
What `cceph_mem_store_coll_node_free` frees: the nodes of a collection,
as the blocks they are.

A node stands at an address and points at its strings; what is in them
does not matter here. The run writes down which node is unlinked and
which block is freed, and goes wrong where it touches a block it has
freed before: a freed block has no bytes, so that it is
`Fault.outOfBounds` to read, write or free it. `cceph_rb_first` and
`cceph_rb_erase` are taken to touch every node of their tree, which is
more than they do.

Each loop is bounded by `turns`; one that needs more is `Fault.blocked`.
-/
import CephInC.Os.MemStore

namespace CephInC

open Lib

inductive HeapEvent where
  /-- `cceph_rb_erase` of the node at this address. -/
  | unlink (addr : Nat)
  /-- `free` of the block at this address. -/
  | free (addr : Nat)
  deriving DecidableEq

/-- What was done so far, oldest first. -/
abbrev HeapLog := List HeapEvent

/-- The blocks freed. -/
def frees (log : HeapLog) : List Nat :=
  log.filterMap fun
    | .free addr => some addr
    | .unlink _ => none

/-- The nodes unlinked. -/
def unlinks (log : HeapLog) : List Nat :=
  log.filterMap fun
    | .unlink addr => some addr
    | .free _ => none

/-- Read or write the block at this address. -/
def touch (addr : Nat) : Prog HeapLog Unit := fun log =>
  if addr ∈ frees log then .error .outOfBounds else .ok ((), log)

/-- `free`. -/
def heapFree (addr : Nat) : Prog HeapLog Unit := do
  touch addr
  fun log => .ok ((), log ++ [.free addr])

/-- `if (ptr != NULL) free(ptr)`. -/
def heapFreeSome : Option Nat → Prog HeapLog Unit
  | some addr => heapFree addr
  | none => pure ()

section
variable {α : Type} (addr : α → Nat)

/-- Read or write every node of a tree. -/
def touchTree (tree : BinTree α) : Prog HeapLog Unit := fun log =>
  if ∀ node ∈ tree.toList, addr node ∉ frees log then .ok ((), log) else .error .outOfBounds

/-- `cceph_rb_first` on a root in the block `holder`. -/
def heapFirst (holder : Nat) (tree : BinTree α) : Prog HeapLog (Option (Loc α)) := do
  touch holder
  touchTree addr tree
  return rbFirst tree

/-- `cceph_rb_erase` on a root in the block `holder`. -/
def heapErase (holder : Nat) (rbNode : Loc α) : Prog HeapLog (BinTree α) := do
  touch holder
  touchTree addr rbNode.root
  let tree ← lift (rbErase rbNode)
  fun log => .ok (tree, log ++ [.unlink (addr rbNode.data)])

/-- The loop of `cceph_os_map_node_free_tree` and of
`cceph_mem_store_object_node_free_tree`: the return code and the tree. -/
def freeTreeLoop (nodeFree : Option α → Prog HeapLog (Int × Option α)) (holder : Nat) :
    (turns : Nat) → BinTree α → Prog HeapLog (Int × BinTree α)
  | 0, _ => fault .blocked
  | turns + 1, tree => do
      match ← heapFirst addr holder tree with
      | none => return (CCEPH_OK, tree)
      | some rbNode =>
          let tree ← heapErase addr holder rbNode
          -- neither the code nor the NULL it leaves is looked at
          let _ ← nodeFree (some rbNode.data)
          freeTreeLoop nodeFree holder turns tree

end

-- ============================================================= the nodes

/-- A `cceph_os_map_node`. -/
structure HeapMapNode where
  addr : Nat
  key : Option Nat
  value : Option Nat

/-- A `cceph_mem_store_object_node`. -/
structure HeapObjectNode where
  addr : Nat
  oid : Option Nat
  data : Option Nat
  map : BinTree HeapMapNode

/-- A `cceph_mem_store_coll_node`. -/
structure HeapCollNode where
  addr : Nat
  objects : BinTree HeapObjectNode
  map : BinTree HeapMapNode

/-- `cceph_os_map_node_free`: the return code and `*node`. -/
def osMapNodeFree (node : Option HeapMapNode) : Prog HeapLog (Int × Option HeapMapNode) := do
  assert (node.isSome)
  let mapNode ← deref node
  touch mapNode.addr
  heapFreeSome mapNode.key
  touch mapNode.addr
  heapFreeSome mapNode.value
  heapFree mapNode.addr
  return (CCEPH_OK, none)

/-- `cceph_os_map_node_free_tree`, on a root in the block `holder`. -/
def osMapNodeFreeTree (turns holder : Nat) (tree : BinTree HeapMapNode) :
    Prog HeapLog (Int × BinTree HeapMapNode) :=
  freeTreeLoop HeapMapNode.addr osMapNodeFree holder turns tree

/-- `cceph_mem_store_object_node_free`: the return code and `*node`. -/
def memStoreObjectNodeFree (turns : Nat) (node : Option HeapObjectNode) :
    Prog HeapLog (Int × Option HeapObjectNode) := do
  assert (node.isSome)
  let onode ← deref node
  touch onode.addr
  heapFreeSome onode.oid
  touch onode.addr
  heapFreeSome onode.data
  let (ret, _) ← osMapNodeFreeTree turns onode.addr onode.map
  assert (ret = CCEPH_OK)
  heapFree onode.addr
  return (CCEPH_OK, none)

/-- `cceph_mem_store_object_node_free_tree`, on a root in the block
`holder`. -/
def memStoreObjectNodeFreeTree (turns holder : Nat) (tree : BinTree HeapObjectNode) :
    Prog HeapLog (Int × BinTree HeapObjectNode) :=
  freeTreeLoop HeapObjectNode.addr (memStoreObjectNodeFree turns) holder turns tree

/-- `cceph_mem_store_coll_node_free`: the return code and `*node`. -/
def memStoreCollNodeFree (turns : Nat) (node : Option HeapCollNode) :
    Prog HeapLog (Int × Option HeapCollNode) := do
  assert (node.isSome)
  let cnode ← deref node
  let (ret, _) ← memStoreObjectNodeFreeTree turns cnode.addr cnode.objects
  assert (ret = CCEPH_OK)
  let (ret, _) ← osMapNodeFreeTree turns cnode.addr cnode.map
  assert (ret = CCEPH_OK)
  heapFree cnode.addr
  return (CCEPH_OK, none)

-- ============================================================ the purpose

/-- The blocks of an attribute node. -/
def HeapMapNode.blocks (node : HeapMapNode) : List Nat :=
  node.key.toList ++ node.value.toList ++ [node.addr]

/-- The blocks of an object, its attributes' among them. -/
def HeapObjectNode.blocks (node : HeapObjectNode) : List Nat :=
  node.oid.toList ++ node.data.toList ++ node.map.toList.flatMap HeapMapNode.blocks
    ++ [node.addr]

def HeapCollNode.blocks (node : HeapCollNode) : List Nat :=
  node.objects.toList.flatMap HeapObjectNode.blocks ++ node.map.toList.flatMap HeapMapNode.blocks
    ++ [node.addr]

/-- The object nodes and the attribute nodes in the trees of a
collection. -/
def HeapCollNode.nodes (node : HeapCollNode) : List Nat :=
  node.objects.toList.flatMap (fun object => object.addr :: object.map.toList.map HeapMapNode.addr)
    ++ node.map.toList.map HeapMapNode.addr

/-- The trees of a collection are red-black, and no two blocks of it stand
at one address. -/
structure HeapCollNode.WellFormed (node : HeapCollNode) : Prop where
  objects : node.objects.RedBlack
  objectMaps : ∀ object ∈ node.objects.toList, object.map.RedBlack
  map : node.map.RedBlack
  apart : node.blocks.Nodup

/-- Every node of the trees was unlinked once, and every block freed
once. -/
structure FreedOnce (node : HeapCollNode) (log : HeapLog) : Prop where
  unlinked : ∀ addr ∈ node.nodes, log.count (.unlink addr) = 1
  freed : ∀ addr ∈ node.nodes, log.count (.free addr) = 1
  blocks : ∀ addr ∈ node.blocks, log.count (.free addr) = 1

end CephInC
