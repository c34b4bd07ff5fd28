/-
`common/rbtree.c` and the map macro of `common/rbtree.h`.

A `cceph_rb_node *` into a tree is a `Loc`: the node with its ancestors,
so `cceph_rb_parent` is the head of the path and climbing a parent link
drops one frame. The loops below are the source's, branch by branch;
each mirrored pair of branches of the source stays a pair here. A NULL
that the source would dereference ends in `Fault.nullDeref`, which the
balance invariant excludes (`Common/Proofs/Rbtree.lean`).

`CCEPH_IMPL_MAP(type, key_type, key_name, cmp_method)` is the `implMap`
family over a key projection and a comparison; the instances apply it to
their own two.
-/
import CephInC.Lib.Tree
import CephInC.Common.Machine
import CephInC.Common.Errno

namespace CephInC

open Lib

variable {α κ : Type}

-- ============================================== colours and rotations

/-- `cceph_rb_is_red(r)` of a node known to be there. -/
def rbIsRed : BinTree α → Except Fault Bool
  | .nil => .error .nullDeref
  | .node c _ _ _ => .ok (c = .red)

/-- `r && cceph_rb_is_red(r)`: NULL counts as black. -/
def rbIsRedNode : BinTree α → Bool
  | .nil => false
  | .node c _ _ _ => c = .red

/-- `cceph_rb_set_color`, `cceph_rb_set_black`, `cceph_rb_set_red`. -/
def rbSetColor (c : Color) : BinTree α → Except Fault (BinTree α)
  | .nil => .error .nullDeref
  | .node _ l a r => .ok (.node c l a r)

/-- `__cceph_rb_rotate_left` on the subtree of the node it is given. -/
def rbRotateLeft : BinTree α → Except Fault (BinTree α)
  | .node c l a (.node rc rl ra rr) => .ok (.node rc (.node c l a rl) ra rr)
  | _ => .error .nullDeref

/-- `__cceph_rb_rotate_right` on the subtree of the node it is given. -/
def rbRotateRight : BinTree α → Except Fault (BinTree α)
  | .node c (.node lc ll la lr) a r => .ok (.node lc ll la (.node c lr a r))
  | _ => .error .nullDeref

-- ============================================================ insertion

/-- The loop of `cceph_rb_insert_color`: `node` is red, `path` leads up
from it. The result is the whole tree, its root not yet blackened. -/
def rbInsertColorLoop : BinTree α → Path α → Except Fault (BinTree α)
  | node, [] => .ok node
  | node, [parent] =>
      match parent.color with
      | .black => .ok (plug node [parent])
      -- a red root has no gparent to look at
      | .red => .error .nullDeref
  | node, parent :: gparent :: path =>
      match parent.color with
      | .black => .ok (plug node (parent :: gparent :: path))
      | .red =>
          match gparent.side with
          | .left => do
              let uncle := gparent.sibling
              if rbIsRedNode uncle then
                let uncle ← rbSetColor .black uncle
                let parent ← rbSetColor .black (parent.join node)
                rbInsertColorLoop
                  (.node .red parent gparent.data uncle) path
              else
                -- after the rotation parent and node have swapped names
                let parent ← match parent.side with
                  | .right => rbRotateLeft (parent.join node)
                  | .left => .ok (parent.join node)
                let parent ← rbSetColor .black parent
                let top ← rbRotateRight
                  (.node .red parent gparent.data uncle)
                -- parent is black now, so the loop ends
                .ok (plug top path)
          | .right => do
              let uncle := gparent.sibling
              if rbIsRedNode uncle then
                let uncle ← rbSetColor .black uncle
                let parent ← rbSetColor .black (parent.join node)
                rbInsertColorLoop
                  (.node .red uncle gparent.data parent) path
              else
                let parent ← match parent.side with
                  | .left => rbRotateRight (parent.join node)
                  | .right => .ok (parent.join node)
                let parent ← rbSetColor .black parent
                let top ← rbRotateLeft
                  (.node .red uncle gparent.data parent)
                .ok (plug top path)

/-- `cceph_rb_link_node` then `cceph_rb_insert_color`: hang a red leaf
into the hole the insertion search ended at, and rebalance. -/
def rbInsertColor (a : α) (path : Path α) : Except Fault (BinTree α) := do
  let tree ← rbInsertColorLoop (.node .red .nil a .nil) path
  rbSetColor .black tree

-- ============================================================== erasure

/-- `if (node) cceph_rb_set_black(node)`. -/
def rbSetBlackNode : BinTree α → BinTree α
  | .nil => .nil
  | .node _ l a r => .node .black l a r

/-- What `cceph_rb_erase_color` does once `other`, the sibling of
`node`, is black. `Sum.inl` is the case that climbs: `node` is the new
subtree at `parent`. `Sum.inr` is the case that breaks out: the
subtree at `parent` after the final rotation. -/
def rbEraseBlackOther (parent : Frame α) (node other : BinTree α) :
    Except Fault (BinTree α ⊕ BinTree α) :=
  match other with
  | .nil => .error .nullDeref
  | .node _ ol od or =>
      match parent.side with
      | .left =>
          if !rbIsRedNode ol && !rbIsRedNode or then do
            let other ← rbSetColor .red other
            .ok (.inl (.node parent.color node parent.data other))
          else do
            let other ←
              if !rbIsRedNode or then do
                let ol ← rbSetColor .black ol
                rbRotateRight (.node .red ol od or)
              else .ok other
            let other ← rbSetColor parent.color other
            match other with
            | .nil => .error .nullDeref
            | .node oc ol od or => do
                let or ← rbSetColor .black or
                let top ← rbRotateLeft (.node .black node parent.data
                  (.node oc ol od or))
                .ok (.inr top)
      | .right =>
          if !rbIsRedNode ol && !rbIsRedNode or then do
            let other ← rbSetColor .red other
            .ok (.inl (.node parent.color other parent.data node))
          else do
            let other ←
              if !rbIsRedNode ol then do
                let or ← rbSetColor .black or
                rbRotateLeft (.node .red ol od or)
              else .ok other
            let other ← rbSetColor parent.color other
            match other with
            | .nil => .error .nullDeref
            | .node oc ol od or => do
                let ol ← rbSetColor .black ol
                let top ← rbRotateRight (.node .black
                  (.node oc ol od or) parent.data node)
                .ok (.inr top)

/-- `__cceph_rb_erase_color`: `node` stands where a black node was lost;
its parent heads `path`. The result is the whole tree. -/
def rbEraseColor : BinTree α → Path α → Except Fault (BinTree α)
  | node, [] => .ok (rbSetBlackNode node)
  | node, parent :: path =>
      if rbIsRedNode node then
        .ok (plug (rbSetBlackNode node) (parent :: path))
      else do
        if ← rbIsRed parent.sibling then
          -- rotate the red sibling above the parent, which turns red
          match parent.sibling with
          | .nil => .error .nullDeref
          | .node _ ol od or =>
              let inner := match parent.side with
                | .left => ol
                | .right => or
              let outer : Frame α := match parent.side with
                | .left => ⟨.left, .black, od, or⟩
                | .right => ⟨.right, .black, od, ol⟩
              match ← rbEraseBlackOther { parent with color := .red }
                  node inner with
              -- node is now the red parent, which ends the loop
              | .inl node => .ok (plug (rbSetBlackNode node) (outer :: path))
              | .inr top => .ok (rbSetBlackNode (plug top (outer :: path)))
        else
          match ← rbEraseBlackOther parent node parent.sibling with
          | .inl node => rbEraseColor node path
          | .inr top => .ok (rbSetBlackNode (plug top path))

/-- The walk to the leftmost node of a subtree: `while (node->rb_left)`.
The path below is prepended to the path above. -/
def rbLeftmost (c : Color) (l : BinTree α) (a : α) (r : BinTree α)
    (path : Path α) : Loc α :=
  match l with
  | .nil => ⟨c, .nil, a, r, path⟩
  | .node lc ll la lr => rbLeftmost lc ll la lr (⟨.left, c, a, r⟩ :: path)

/-- `cceph_rb_erase`. -/
def rbErase (node : Loc α) : Except Fault (BinTree α) :=
  match node.left, node.right with
  | .nil, child =>
      match node.color with
      | .black => rbEraseColor child node.path
      | .red => .ok (plug child node.path)
  | child, .nil =>
      match node.color with
      | .black => rbEraseColor child node.path
      | .red => .ok (plug child node.path)
  | left, .node rc rl ra rr =>
      -- the successor takes the place, the colour and the left subtree
      let succ := rbLeftmost rc rl ra rr []
      let path := succ.path
        ++ ⟨.right, node.color, succ.data, left⟩ :: node.path
      match succ.color with
      | .black => rbEraseColor succ.right path
      | .red => .ok (plug succ.right path)

-- ============================================================ traversal

/-- `cceph_rb_first`. -/
def rbFirst : BinTree α → Option (Loc α)
  | .nil => none
  | .node c l a r => some (rbLeftmost c l a r [])

/-- The climb of `cceph_rb_next`: up while the node is a right child. -/
def rbNextUp : BinTree α → Path α → Option (Loc α)
  | _, [] => none
  | node, parent :: path =>
      match parent.side with
      | .right => rbNextUp (parent.join node) path
      | .left => some ⟨parent.color, node, parent.data, parent.sibling, path⟩

/-- `cceph_rb_next`. -/
def rbNext (node : Loc α) : Option (Loc α) :=
  match node.right with
  | .node c l a r =>
      some (rbLeftmost c l a r
        (⟨.right, node.color, node.data, node.left⟩ :: node.path))
  | .nil => rbNextUp node.subtree node.path

-- ======================================================= the map macro

/-- The search loop of `cceph_##type##_map_search`. -/
def implMapSearchLoop (cmp : κ → κ → Int) (key : α → κ) (k : κ) :
    BinTree α → Path α → Option (Loc α)
  | .nil, _ => none
  | .node c l a r, path =>
      let ret := cmp k (key a)
      if ret < 0 then
        implMapSearchLoop cmp key k l (⟨.left, c, a, r⟩ :: path)
      else if ret > 0 then
        implMapSearchLoop cmp key k r (⟨.right, c, a, l⟩ :: path)
      else some ⟨c, l, a, r, path⟩

/-- `cceph_##type##_map_search`: the return code and `*result`. -/
def implMapSearch (cmp : κ → κ → Int) (key : α → κ) (root : BinTree α)
    (k : κ) : Int × Option (Loc α) :=
  match implMapSearchLoop cmp key k root [] with
  | some node => (CCEPH_OK, some node)
  | none => (CCEPH_ERR_MAP_NODE_NOT_EXIST, none)

/-- The descent of `cceph_##type##_map_insert` to the link the new node
hangs on; none when an equal key is met. -/
def implMapInsertLoop (cmp : κ → κ → Int) (key : α → κ) (k : κ) :
    BinTree α → Path α → Option (Path α)
  | .nil, path => some path
  | .node c l a r, path =>
      let result := cmp k (key a)
      if result < 0 then
        implMapInsertLoop cmp key k l (⟨.left, c, a, r⟩ :: path)
      else if result > 0 then
        implMapInsertLoop cmp key k r (⟨.right, c, a, l⟩ :: path)
      else none

/-- `cceph_##type##_map_insert`: the return code and the tree. -/
def implMapInsert (cmp : κ → κ → Int) (key : α → κ) (root : BinTree α)
    (a : α) : Except Fault (Int × BinTree α) :=
  match implMapInsertLoop cmp key (key a) root [] with
  | none => .ok (CCEPH_ERR_MAP_NODE_ALREADY_EXIST, root)
  | some path => do
      let root ← rbInsertColor a path
      .ok (CCEPH_OK, root)

/-- `cceph_##type##_map_remove`: the return code and the tree. -/
def implMapRemove (node : Loc α) : Except Fault (Int × BinTree α) := do
  let root ← rbErase node
  .ok (CCEPH_OK, root)

end CephInC
