/-
`common/rbtree.c` as it is in memory: nodes at addresses, each with the
word `rb_parent_color` that packs its parent and its colour.

`Common/Rbtree.lean` reads the same functions over trees. Here nothing is
left out: parents are pointers, a rotation is its writes, and a NULL or a
dangling pointer ends the run. Nodes are aligned, so that the two lowest
bits of an address are free for the colour.

The C loops get a number of turns, and `Fault.blocked` when they run out.
What several functions write out, the link of the parent that has to
point elsewhere, is `relinkLeft` and `relinkRight`: they differ in the
side that is looked at first.
-/
import CephInC.Common.Errno
import CephInC.Common.Machine
import CephInC.Lib.Tree
import Mathlib.Logic.Function.Basic

namespace CephInC

open Lib

abbrev NodePtr := BitVec 64

def CCEPH_RB_RED : BitVec 64 := 0
def CCEPH_RB_BLACK : BitVec 64 := 1

/-- `cceph_rb_node`. -/
structure RbNode where
  rbParentColor : BitVec 64
  rbRight : NodePtr
  rbLeft : NodePtr
  deriving DecidableEq

namespace RbNode

/-- `cceph_rb_parent(r)`. -/
def parent (n : RbNode) : NodePtr := n.rbParentColor &&& ~~~3#64

/-- `cceph_rb_color(r)`. -/
def color (n : RbNode) : BitVec 64 := n.rbParentColor &&& 1#64

/-- `cceph_rb_is_red(r)`. -/
def isRed (n : RbNode) : Bool := n.color = CCEPH_RB_RED

/-- What `cceph_rb_set_parent(rb, p)` makes of the node. -/
def withParent (n : RbNode) (p : NodePtr) : RbNode :=
  { n with rbParentColor := (n.rbParentColor &&& 3#64) ||| p }

/-- `cceph_rb_set_color(rb, color)`. -/
def withColor (n : RbNode) (color : BitVec 64) : RbNode :=
  { n with rbParentColor := (n.rbParentColor &&& ~~~1#64) ||| color }

/-- `cceph_rb_set_red(r)`. -/
def withRed (n : RbNode) : RbNode := { n with rbParentColor := n.rbParentColor &&& ~~~1#64 }

/-- `cceph_rb_set_black(r)`. -/
def withBlack (n : RbNode) : RbNode := { n with rbParentColor := n.rbParentColor ||| 1#64 }

end RbNode

/-- The nodes there are, and `root->rb_node`. -/
structure RbMem where
  nodes : NodePtr → Option RbNode
  rbNode : NodePtr

namespace RbHeap

-- ============================================================ accesses

/-- The node at `p`. -/
def get (p : NodePtr) : Prog RbMem RbNode := fun m =>
  match m.nodes p with
  | some n => .ok (n, m)
  | none => .error (if p = 0 then .nullDeref else .outOfBounds)

/-- Write to the node at `p`. -/
def modify (p : NodePtr) (f : RbNode → RbNode) : Prog RbMem Unit := fun m =>
  match m.nodes p with
  | some n => .ok ((), { m with nodes := Function.update m.nodes p (some (f n)) })
  | none => .error (if p = 0 then .nullDeref else .outOfBounds)

def getRoot : Prog RbMem NodePtr := fun m => .ok (m.rbNode, m)

def setRoot (p : NodePtr) : Prog RbMem Unit := fun m => .ok ((), { m with rbNode := p })

def setLeft (p q : NodePtr) : Prog RbMem Unit := modify p fun n => { n with rbLeft := q }

def setRight (p q : NodePtr) : Prog RbMem Unit := modify p fun n => { n with rbRight := q }

def setParent (p q : NodePtr) : Prog RbMem Unit := modify p fun n => n.withParent q

def setColor (p : NodePtr) (color : BitVec 64) : Prog RbMem Unit :=
  modify p fun n => n.withColor color

def setRed (p : NodePtr) : Prog RbMem Unit := modify p RbNode.withRed

def setBlack (p : NodePtr) : Prog RbMem Unit := modify p RbNode.withBlack

/-- `p && cceph_rb_is_red(p)`. -/
def isRedNode (p : NodePtr) : Prog RbMem Bool :=
  if p = 0 then return false
  else do
    let n ← get p
    return n.isRed

/-- Where `node` hangs, hang `child`; the left link is looked at first. -/
def relinkLeft (parent node child : NodePtr) : Prog RbMem Unit :=
  if parent = 0 then setRoot child
  else do
    let p ← get parent
    if p.rbLeft = node then setLeft parent child else setRight parent child

/-- Where `node` hangs, hang `child`; the right link is looked at first. -/
def relinkRight (parent node child : NodePtr) : Prog RbMem Unit :=
  if parent = 0 then setRoot child
  else do
    let p ← get parent
    if p.rbRight = node then setRight parent child else setLeft parent child

-- =========================================================== rotations

/-- `__cceph_rb_rotate_left`. -/
def rotateLeft (node : NodePtr) : Prog RbMem Unit := do
  let n ← get node
  let right := n.rbRight
  let r ← get right
  setRight node r.rbLeft
  (if r.rbLeft = 0 then return () else setParent r.rbLeft node)
  setLeft right node
  setParent right n.parent
  relinkLeft n.parent node right
  setParent node right

/-- `__cceph_rb_rotate_right`. -/
def rotateRight (node : NodePtr) : Prog RbMem Unit := do
  let n ← get node
  let left := n.rbLeft
  let l ← get left
  setLeft node l.rbRight
  (if l.rbRight = 0 then return () else setParent l.rbRight node)
  setRight left node
  setParent left n.parent
  relinkRight n.parent node left
  setParent node left

-- =========================================================== insertion

/-- The red uncle: both go black, and the trouble moves to `gparent`. -/
def recolor (uncle parent gparent : NodePtr) : Prog RbMem Unit := do
  setBlack uncle
  setBlack parent
  setRed gparent

/-- The rotations where `parent` is a left child; `parent` and `node` swap
names when `node` is an inner child. The loop goes on at the result. -/
def insertEndLeft (node parent gparent : NodePtr) : Prog RbMem NodePtr := do
  let p ← get parent
  if p.rbRight = node then do
    rotateLeft parent
    setBlack node
    setRed gparent
    rotateRight gparent
    return parent
  else do
    setBlack parent
    setRed gparent
    rotateRight gparent
    return node

/-- The rotations where `parent` is a right child. -/
def insertEndRight (node parent gparent : NodePtr) : Prog RbMem NodePtr := do
  let p ← get parent
  if p.rbLeft = node then do
    rotateRight parent
    setBlack node
    setRed gparent
    rotateLeft gparent
    return parent
  else do
    setBlack parent
    setRed gparent
    rotateLeft gparent
    return node

/-- The loop of `cceph_rb_insert_color`. -/
def insertColorLoop : Nat → NodePtr → Prog RbMem Unit
  | 0, _ => fault .blocked
  | turns + 1, node => do
      let n ← get node
      let parent := n.parent
      if !(← isRedNode parent) then return ()
      else do
        let p ← get parent
        let gparent := p.parent
        let g ← get gparent
        if parent = g.rbLeft then
          if ← isRedNode g.rbRight then do
            recolor g.rbRight parent gparent
            insertColorLoop turns gparent
          else do
            let node ← insertEndLeft node parent gparent
            insertColorLoop turns node
        else
          if ← isRedNode g.rbLeft then do
            recolor g.rbLeft parent gparent
            insertColorLoop turns gparent
          else do
            let node ← insertEndRight node parent gparent
            insertColorLoop turns node

/-- `cceph_rb_insert_color`. -/
def insertColor (turns : Nat) (node : NodePtr) : Prog RbMem Unit := do
  insertColorLoop turns node
  let root ← getRoot
  setBlack root

/-- A `cceph_rb_node **`: the link a new node is hung on. -/
inductive Link where
  | root
  | left (parent : NodePtr)
  | right (parent : NodePtr)

/-- `*link`. -/
def Link.read : Link → Prog RbMem NodePtr
  | .root => getRoot
  | .left parent => do
      let p ← get parent
      return p.rbLeft
  | .right parent => do
      let p ← get parent
      return p.rbRight

/-- `*link = node`. -/
def Link.write (node : NodePtr) : Link → Prog RbMem Unit
  | .root => setRoot node
  | .left parent => setLeft parent node
  | .right parent => setRight parent node

/-- `cceph_rb_link_node`. -/
def linkNode (node parent : NodePtr) (link : Link) : Prog RbMem Unit := do
  modify node fun _ => ⟨parent, 0, 0⟩
  link.write node

-- ============================================================= erasure

/-- The sibling of the left child of `parent`, which is made black. -/
def blackOtherRight (parent : NodePtr) : Prog RbMem NodePtr := do
  let p ← get parent
  let other := p.rbRight
  let o ← get other
  if o.isRed then do
    setBlack other
    setRed parent
    rotateLeft parent
    let p ← get parent
    return p.rbRight
  else return other

/-- The sibling of the right child of `parent`, which is made black. -/
def blackOtherLeft (parent : NodePtr) : Prog RbMem NodePtr := do
  let p ← get parent
  let other := p.rbLeft
  let o ← get other
  if o.isRed then do
    setBlack other
    setRed parent
    rotateRight parent
    let p ← get parent
    return p.rbLeft
  else return other

/-- Does the node have a red child? -/
def hasRedChild (p : NodePtr) : Prog RbMem Bool := do
  let n ← get p
  if ← isRedNode n.rbLeft then return true else isRedNode n.rbRight

/-- The last case on the left side: `other` has a red child. -/
def endLeft (parent other : NodePtr) : Prog RbMem Unit := do
  let o ← get other
  let red ← isRedNode o.rbRight
  let other ← (if red then return other
    else do
      let o ← get other
      setBlack o.rbLeft
      setRed other
      rotateRight other
      let p ← get parent
      return p.rbRight)
  let p ← get parent
  setColor other p.color
  setBlack parent
  let o ← get other
  setBlack o.rbRight
  rotateLeft parent

/-- The last case on the right side. -/
def endRight (parent other : NodePtr) : Prog RbMem Unit := do
  let o ← get other
  let red ← isRedNode o.rbLeft
  let other ← (if red then return other
    else do
      let o ← get other
      setBlack o.rbRight
      setRed other
      rotateLeft other
      let p ← get parent
      return p.rbLeft)
  let p ← get parent
  setColor other p.color
  setBlack parent
  let o ← get other
  setBlack o.rbLeft
  rotateRight parent

/-- The loop of `__cceph_rb_erase_color`: where `node` is at its end. -/
def eraseColorLoop : Nat → NodePtr → NodePtr → Prog RbMem NodePtr
  | 0, _, _ => fault .blocked
  | turns + 1, node, parent => do
      if ← isRedNode node then return node
      else do
        let root ← getRoot
        if node = root then return node
        else do
          let p ← get parent
          if p.rbLeft = node then do
            let other ← blackOtherRight parent
            if ← hasRedChild other then do
              endLeft parent other
              getRoot
            else do
              setRed other
              let p ← get parent
              eraseColorLoop turns parent p.parent
          else do
            let other ← blackOtherLeft parent
            if ← hasRedChild other then do
              endRight parent other
              getRoot
            else do
              setRed other
              let p ← get parent
              eraseColorLoop turns parent p.parent

/-- `if (node) cceph_rb_set_black(node)`. -/
def setBlackNode (node : NodePtr) : Prog RbMem Unit :=
  if node = 0 then return () else setBlack node

/-- `__cceph_rb_erase_color`. -/
def eraseColor (turns : Nat) (node parent : NodePtr) : Prog RbMem Unit := do
  let node ← eraseColorLoop turns node parent
  setBlackNode node

/-- `while (node->rb_left) node = node->rb_left`. -/
def leftmost : Nat → NodePtr → Prog RbMem NodePtr
  | 0, _ => fault .blocked
  | turns + 1, node => do
      let n ← get node
      if n.rbLeft = 0 then return node else leftmost turns n.rbLeft

/-- `while (node->rb_right) node = node->rb_right`. -/
def rightmost : Nat → NodePtr → Prog RbMem NodePtr
  | 0, _ => fault .blocked
  | turns + 1, node => do
      let n ← get node
      if n.rbRight = 0 then return node else rightmost turns n.rbRight

/-- `cceph_rb_erase` of a node with one child at most. -/
def eraseOne (turns : Nat) (node child : NodePtr) : Prog RbMem Unit := do
  let n ← get node
  (if child = 0 then return () else setParent child n.parent)
  relinkLeft n.parent node child
  if n.color = CCEPH_RB_BLACK then eraseColor turns child n.parent else return ()

/-- In `cceph_rb_erase`: `child` hangs where `node` did, and `node` gets the
right subtree of `old`. -/
def leavePlace (old node parent child : NodePtr) : Prog RbMem Unit := do
  (if child = 0 then return () else setParent child parent)
  setLeft parent child
  let o ← get old
  setRight node o.rbRight
  setParent o.rbRight node

/-- `node` gets the word and the left subtree of `old`. -/
def takeFields (old node : NodePtr) : Prog RbMem Unit := do
  let o ← get old
  modify node fun n => { n with rbParentColor := o.rbParentColor, rbLeft := o.rbLeft }
  setParent o.rbLeft node

/-- `node` leaves its place for the one of `old`. What it leaves: its
child, where that hangs, and its colour. -/
def takePlace (old node : NodePtr) : Prog RbMem (NodePtr × NodePtr × BitVec 64) := do
  let o ← get old
  relinkLeft o.parent old node
  let n ← get node
  let child := n.rbRight
  let parent ← (if n.parent = old then return node
    else do
      leavePlace old node n.parent child
      return n.parent)
  takeFields old node
  return (child, parent, n.color)

/-- `cceph_rb_erase` of a node with two children: its successor takes its
place. -/
def eraseTwo (turns : Nat) (old : NodePtr) : Prog RbMem Unit := do
  let o ← get old
  let node ← leftmost turns o.rbRight
  let (child, parent, color) ← takePlace old node
  if color = CCEPH_RB_BLACK then eraseColor turns child parent else return ()

/-- `cceph_rb_erase`. -/
def erase (turns : Nat) (node : NodePtr) : Prog RbMem Unit := do
  let n ← get node
  if n.rbLeft = 0 then eraseOne turns node n.rbRight
  else if n.rbRight = 0 then eraseOne turns node n.rbLeft
  else eraseTwo turns node

-- =========================================================== traversal

/-- `cceph_rb_first`. -/
def first (turns : Nat) : Prog RbMem NodePtr := do
  let n ← getRoot
  if n = 0 then return 0 else leftmost turns n

/-- `cceph_rb_last`. -/
def last (turns : Nat) : Prog RbMem NodePtr := do
  let n ← getRoot
  if n = 0 then return 0 else rightmost turns n

/-- The climb of `cceph_rb_next`. -/
def nextUp : Nat → NodePtr → Prog RbMem NodePtr
  | 0, _ => fault .blocked
  | turns + 1, node => do
      let n ← get node
      let parent := n.parent
      if parent = 0 then return 0
      else do
        let p ← get parent
        if node = p.rbRight then nextUp turns parent else return parent

/-- The climb of `cceph_rb_prev`. -/
def prevUp : Nat → NodePtr → Prog RbMem NodePtr
  | 0, _ => fault .blocked
  | turns + 1, node => do
      let n ← get node
      let parent := n.parent
      if parent = 0 then return 0
      else do
        let p ← get parent
        if node = p.rbLeft then prevUp turns parent else return parent

/-- `cceph_rb_next`. -/
def next (turns : Nat) (node : NodePtr) : Prog RbMem NodePtr := do
  let n ← get node
  if n.parent = node then return 0
  else if n.rbRight = 0 then nextUp turns node
  else leftmost turns n.rbRight

/-- `cceph_rb_prev`. -/
def prev (turns : Nat) (node : NodePtr) : Prog RbMem NodePtr := do
  let n ← get node
  if n.parent = node then return 0
  else if n.rbLeft = 0 then prevUp turns node
  else rightmost turns n.rbLeft

/-- `cceph_rb_replace_node`. -/
def replaceNode (victim newNode : NodePtr) : Prog RbMem Unit := do
  let v ← get victim
  relinkLeft v.parent victim newNode
  (if v.rbLeft = 0 then return () else setParent v.rbLeft newNode)
  (if v.rbRight = 0 then return () else setParent v.rbRight newNode)
  let v ← get victim
  modify newNode fun _ => v

-- ======================================================= the map macro

section
variable {κ : Type}

/-- The descent of `cceph_##type##_map_insert`: the parent and the link
the new node is hung on, or none when an equal key is met. -/
def insertDescent (cmp : κ → κ → Int) (key : NodePtr → κ) (k : κ) :
    Nat → NodePtr → Link → Prog RbMem (Option (NodePtr × Link))
  | 0, _, _ => fault .blocked
  | turns + 1, parent, link => do
      let this ← link.read
      if this = 0 then return some (parent, link)
      else
        let result := cmp k (key this)
        if result < 0 then insertDescent cmp key k turns this (.left this)
        else if result > 0 then insertDescent cmp key k turns this (.right this)
        else return none

/-- `cceph_##type##_map_insert`. -/
def mapInsert (cmp : κ → κ → Int) (key : NodePtr → κ) (turns : Nat) (node : NodePtr) :
    Prog RbMem Int := do
  match ← insertDescent cmp key (key node) turns 0 .root with
  | none => return CCEPH_ERR_MAP_NODE_ALREADY_EXIST
  | some place =>
      linkNode node place.1 place.2
      insertColor turns node
      return CCEPH_OK

/-- `cceph_##type##_map_remove`. -/
def mapRemove (turns : Nat) (node : NodePtr) : Prog RbMem Int := do
  erase turns node
  return CCEPH_OK

/-- The loop of `cceph_##type##_map_search`. -/
def searchLoop (cmp : κ → κ → Int) (key : NodePtr → κ) (k : κ) :
    Nat → NodePtr → Prog RbMem (Option NodePtr)
  | 0, _ => fault .blocked
  | turns + 1, node =>
      if node = 0 then return none
      else do
        let n ← get node
        let ret := cmp k (key node)
        if ret < 0 then searchLoop cmp key k turns n.rbLeft
        else if ret > 0 then searchLoop cmp key k turns n.rbRight
        else return some node

/-- `cceph_##type##_map_search`: the return code and `*result`. -/
def mapSearch (cmp : κ → κ → Int) (key : NodePtr → κ) (turns : Nat) (k : κ) :
    Prog RbMem (Int × Option NodePtr) := do
  let root ← getRoot
  let result ← searchLoop cmp key k turns root
  return (match result with
    | some node => (CCEPH_OK, some node)
    | none => (CCEPH_ERR_MAP_NODE_NOT_EXIST, none))

end

end RbHeap

end CephInC
