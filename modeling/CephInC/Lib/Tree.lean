/-
Coloured binary trees with a marked position, for red-black algorithms
that climb parent links.

# Positions instead of parent pointers

An imperative tree whose nodes know their parent is read here as a
subtree together with the way back to the root: a `Path` lists, from
the hole outwards, each ancestor's side, colour, data and the sibling
it keeps on the other side. Climbing one parent link is dropping one
frame, and `plug` rebuilds the whole tree. A `Loc` is a non-null node
pointer: the node it points at, and the path above it.

# What the file proves

- in-order contents split at a position (`plug_toList`), so an
  algorithm that only rearranges the neighbourhood of a position is
  judged by the list it leaves;
- balance splits at a position (`Hole.plug`, `exists_hole`): `Hole p c n`
  says that a subtree of colour `c` and black height `n` fits under `p`.
-/
import Mathlib.Data.List.Basic

namespace CephInC.Lib

/-- The two node colours. -/
inductive Color where
  | red
  | black
  deriving DecidableEq, Repr

/-- Which child of its parent a subtree is. -/
inductive Side where
  | left
  | right
  deriving DecidableEq, Repr

/-- Binary trees with a colour and a datum at every node. -/
inductive BinTree (α : Type) where
  | nil
  | node (color : Color) (left : BinTree α) (data : α) (right : BinTree α)
  deriving DecidableEq, Repr

/-- One ancestor on the way to the root: the side the hole hangs on,
and everything of the ancestor that is not below the hole. -/
structure Frame (α : Type) where
  side : Side
  color : Color
  data : α
  sibling : BinTree α
  deriving DecidableEq, Repr

/-- The ancestors of a hole, nearest first. -/
abbrev Path (α : Type) := List (Frame α)

/-- A position holding a node: the node's own fields and its ancestors. -/
structure Loc (α : Type) where
  color : Color
  left : BinTree α
  data : α
  right : BinTree α
  path : Path α
  deriving DecidableEq, Repr

variable {α : Type}

/-- Put a subtree back under its parent. -/
def Frame.join (f : Frame α) (t : BinTree α) : BinTree α :=
  match f.side with
  | .left => .node f.color t f.data f.sibling
  | .right => .node f.color f.sibling f.data t

/-- Put a subtree back under all its ancestors. -/
def plug : BinTree α → Path α → BinTree α
  | t, [] => t
  | t, f :: p => plug (f.join t) p

/-- The subtree rooted at a position. -/
def Loc.subtree (l : Loc α) : BinTree α := .node l.color l.left l.data l.right

/-- The whole tree a position belongs to. -/
def Loc.root (l : Loc α) : BinTree α := plug l.subtree l.path

/-- The same position with other data in its node. -/
def Loc.setData (l : Loc α) (a : α) : Loc α := { l with data := a }

-- ============================================================= contents

/-- In-order contents. -/
def BinTree.toList : BinTree α → List α
  | .nil => []
  | .node _ l a r => l.toList ++ a :: r.toList

/-- The contents in order before the hole. -/
def Path.before : Path α → List α
  | [] => []
  | f :: p =>
      match f.side with
      | .left => Path.before p
      | .right => Path.before p ++ f.sibling.toList ++ [f.data]

/-- The contents in order after the hole. -/
def Path.after : Path α → List α
  | [] => []
  | f :: p =>
      match f.side with
      | .left => f.data :: f.sibling.toList ++ Path.after p
      | .right => Path.after p

/-- The contents in order before a node. -/
def Loc.before (l : Loc α) : List α := Path.before l.path ++ l.left.toList

/-- The contents in order after a node. -/
def Loc.after (l : Loc α) : List α := l.right.toList ++ Path.after l.path

@[simp] theorem toList_nil : (BinTree.nil : BinTree α).toList = [] := rfl

@[simp] theorem toList_node (c : Color) (l : BinTree α) (a : α) (r : BinTree α) :
    (BinTree.node c l a r).toList = l.toList ++ a :: r.toList := rfl

@[simp] theorem before_nil : Path.before ([] : Path α) = [] := rfl

@[simp] theorem after_nil : Path.after ([] : Path α) = [] := rfl

@[simp] theorem before_left (c : Color) (a : α) (s : BinTree α) (p : Path α) :
    Path.before (⟨.left, c, a, s⟩ :: p) = Path.before p := rfl

@[simp] theorem before_right (c : Color) (a : α) (s : BinTree α) (p : Path α) :
    Path.before (⟨.right, c, a, s⟩ :: p)
      = Path.before p ++ s.toList ++ [a] := rfl

@[simp] theorem after_left (c : Color) (a : α) (s : BinTree α) (p : Path α) :
    Path.after (⟨.left, c, a, s⟩ :: p) = a :: s.toList ++ Path.after p := rfl

@[simp] theorem after_right (c : Color) (a : α) (s : BinTree α) (p : Path α) :
    Path.after (⟨.right, c, a, s⟩ :: p) = Path.after p := rfl

/-- Contents split at a hole. -/
theorem plug_toList (t : BinTree α) (p : Path α) :
    (plug t p).toList = Path.before p ++ t.toList ++ Path.after p := by
  induction p generalizing t with
  | nil => simp [plug]
  | cons f p ih =>
      obtain ⟨side, c, a, s⟩ := f
      cases side
      · simp [plug, ih, Frame.join, Path.before, Path.after]
      · simp [plug, ih, Frame.join, Path.before, Path.after]

/-- Contents split at a node. -/
theorem Loc.root_toList (l : Loc α) :
    l.root.toList = l.before ++ l.data :: l.after := by
  simp [Loc.root, Loc.subtree, plug_toList, Loc.before, Loc.after]

@[simp] theorem Loc.setData_before (l : Loc α) (a : α) :
    (l.setData a).before = l.before := rfl

@[simp] theorem Loc.setData_after (l : Loc α) (a : α) :
    (l.setData a).after = l.after := rfl

@[simp] theorem Loc.setData_data (l : Loc α) (a : α) :
    (l.setData a).data = a := rfl

-- ============================================================== balance

/-- `t.Balanced c n`: the root of `t` counts as colour `c`, every path
below it meets `n` black nodes, and no red node has a red child. -/
inductive BinTree.Balanced : BinTree α → Color → Nat → Prop where
  | nil : Balanced .nil .black 0
  | red {l r : BinTree α} {a : α} {n : Nat} :
      Balanced l .black n → Balanced r .black n →
      Balanced (.node .red l a r) .red n
  | black {l r : BinTree α} {a : α} {c₁ c₂ : Color} {n : Nat} :
      Balanced l c₁ n → Balanced r c₂ n →
      Balanced (.node .black l a r) .black (n + 1)

/-- A whole tree is balanced when its root is black. -/
def BinTree.RedBlack (t : BinTree α) : Prop := ∃ n, t.Balanced .black n

/-- `Hole p c n`: filling `p` with a tree of colour `c` and black height
`n` gives a red-black tree. -/
inductive Hole : Path α → Color → Nat → Prop where
  | root {n : Nat} : Hole [] .black n
  | red {side : Side} {a : α} {s : BinTree α} {p : Path α} {n : Nat} :
      s.Balanced .black n → Hole p .red n →
      Hole (⟨side, .red, a, s⟩ :: p) .black n
  | black {side : Side} {a : α} {s : BinTree α} {p : Path α} {c c' : Color}
      {n : Nat} :
      s.Balanced c' n → Hole p .black (n + 1) →
      Hole (⟨side, .black, a, s⟩ :: p) c n

/-- A hole that takes a red subtree also takes a black one. -/
theorem Hole.to_black {p : Path α} {c : Color} {n : Nat} (h : Hole p c n) :
    Hole p .black n := by
  cases h with
  | root => exact .root
  | red hs hp => exact .red hs hp
  | black hs hp => exact .black hs hp

theorem Hole.join {f : Frame α} {p : Path α} {c : Color} {n : Nat}
    {t : BinTree α} (h : Hole (f :: p) c n) (ht : t.Balanced c n) :
    ∃ c' n', Hole p c' n' ∧ (f.join t).Balanced c' n' := by
  cases h with
  | @red side _ _ _ _ hs hp =>
      refine ⟨_, _, hp, ?_⟩
      cases side
      · exact .red ht hs
      · exact .red hs ht
  | @black side _ _ _ _ _ _ hs hp =>
      refine ⟨_, _, hp, ?_⟩
      cases side
      · exact .black ht hs
      · exact .black hs ht

/-- Filling a hole with a subtree that fits gives a red-black tree. -/
theorem Hole.plug {p : Path α} {c : Color} {n : Nat} {t : BinTree α}
    (h : Hole p c n) (ht : t.Balanced c n) : (Lib.plug t p).RedBlack := by
  induction p generalizing t c n with
  | nil =>
      cases h
      exact ⟨n, ht⟩
  | cons f p ih =>
      obtain ⟨c', n', hp, hj⟩ := h.join ht
      exact ih hp hj

/-- Every position of a red-black tree is a hole its subtree fits. -/
theorem exists_hole {t : BinTree α} {p : Path α}
    (h : (Lib.plug t p).RedBlack) : ∃ c n, Hole p c n ∧ t.Balanced c n := by
  induction p generalizing t with
  | nil =>
      obtain ⟨n, hn⟩ := h
      exact ⟨_, _, .root, hn⟩
  | cons f p ih =>
      obtain ⟨c, n, hp, hj⟩ := ih h
      obtain ⟨side, col, a, s⟩ := f
      cases side with
      | left =>
          cases hj with
          | red hl hr => exact ⟨_, _, .red hr hp, hl⟩
          | black hl hr => exact ⟨_, _, .black hr hp, hl⟩
      | right =>
          cases hj with
          | red hl hr => exact ⟨_, _, .red hl hp, hr⟩
          | black hl hr => exact ⟨_, _, .black hl hp, hr⟩

/-- Changing the data of one node keeps the tree red-black. -/
theorem Loc.setData_redBlack {l : Loc α} (a : α) (h : l.root.RedBlack) :
    (l.setData a).root.RedBlack := by
  obtain ⟨col, left, data, right, path⟩ := l
  obtain ⟨c, n, hp, ht⟩ := exists_hole h
  refine hp.plug ?_
  simp only [Loc.subtree, Loc.setData] at ht ⊢
  cases ht with
  | red hl hr => exact .red hl hr
  | black hl hr => exact .black hl hr

end CephInC.Lib
