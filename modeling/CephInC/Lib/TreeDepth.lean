/-
How deep coloured trees are: no path is longer than the height, and a
red-black tree of `n` nodes has a height of at most `2 log₂ (n + 1)`.

And where the contents are: each of them has a position.
-/
import CephInC.Lib.Tree
import Mathlib.Algebra.Group.Nat.Defs
import Mathlib.Data.Nat.Log

namespace CephInC.Lib

variable {α : Type}

/-- The longest way down. -/
def BinTree.height : BinTree α → Nat
  | .nil => 0
  | .node _ l _ r => max l.height r.height + 1

@[simp] theorem height_nil : (BinTree.nil : BinTree α).height = 0 := rfl

@[simp] theorem height_node (c : Color) (l : BinTree α) (a : α) (r : BinTree α) :
    (BinTree.node c l a r).height = max l.height r.height + 1 := rfl

theorem height_join (f : Frame α) (t : BinTree α) : t.height + 1 ≤ (f.join t).height := by
  obtain ⟨side, c, a, s⟩ := f
  cases side with
  | left => exact Nat.succ_le_succ (Nat.le_max_left _ _)
  | right => exact Nat.succ_le_succ (Nat.le_max_right _ _)

/-- A position is no deeper than the tree. -/
theorem height_plug (p : Path α) : ∀ t : BinTree α, p.length + t.height ≤ (plug t p).height := by
  induction p with
  | nil =>
      intro t
      rw [List.length_nil, Nat.zero_add]
      exact Nat.le_refl _
  | cons f p ih =>
      intro t
      have hjoin := height_join f t
      have hrest := ih (f.join t)
      rw [List.length_cons]
      calc p.length + 1 + t.height = p.length + (t.height + 1) := by omega
        _ ≤ p.length + (f.join t).height := Nat.add_le_add_left hjoin _
        _ ≤ (plug (f.join t) p).height := hrest

/-- What a black height bounds: twice as many levels, and the nodes of a
full tree of black nodes at the least. -/
theorem BinTree.Balanced.bounds {t : BinTree α} {c : Color} {n : Nat} (h : t.Balanced c n) :
    t.height ≤ 2 * n + (if c = .red then 1 else 0) ∧ 2 ^ n ≤ t.toList.length + 1 := by
  induction h with
  | nil => exact ⟨Nat.le_refl 0, Nat.le_refl 1⟩
  | @red l r a n hl hr ihl ihr =>
      obtain ⟨hhl, hsl⟩ := ihl
      obtain ⟨hhr, hsr⟩ := ihr
      rw [if_neg (by decide)] at hhl hhr
      refine ⟨?_, ?_⟩
      · rw [height_node, if_pos rfl]
        exact Nat.succ_le_succ (Nat.max_le.mpr ⟨hhl, hhr⟩)
      · rw [toList_node, List.length_append, List.length_cons]
        omega
  | @black l r a c₁ c₂ n hl hr ihl ihr =>
      obtain ⟨hhl, hsl⟩ := ihl
      obtain ⟨hhr, hsr⟩ := ihr
      refine ⟨?_, ?_⟩
      · rw [height_node, if_neg (by decide)]
        have hle : ∀ c : Color, (if c = .red then 1 else 0) ≤ 1 := by
          intro c
          cases c <;> decide
        have hl1 := hle c₁
        have hr1 := hle c₂
        have hmax : max l.height r.height ≤ 2 * n + 1 := Nat.max_le.mpr ⟨by omega, by omega⟩
        omega
      · rw [toList_node, List.length_append, List.length_cons, Nat.pow_succ]
        omega

theorem BinTree.RedBlack.height_le {t : BinTree α} (h : t.RedBlack) :
    t.height ≤ 2 * Nat.log 2 (t.toList.length + 1) := by
  obtain ⟨n, hn⟩ := h
  obtain ⟨hheight, hsize⟩ := hn.bounds
  rw [if_neg (by decide)] at hheight
  have hlog : n ≤ Nat.log 2 (t.toList.length + 1) :=
    (Nat.le_log_iff_pow_le (by decide) (Nat.succ_ne_zero _)).mpr hsize
  omega

/-- Whatever a tree has, it has at a position. -/
theorem exists_loc {a : α} (p : Path α) : ∀ {t : BinTree α}, a ∈ t.toList →
    ∃ node : Loc α, node.root = plug t p ∧ node.data = a := by
  intro t
  induction t generalizing p with
  | nil => exact fun h => by cases h
  | node c l b r ihl ihr =>
      intro h
      rw [toList_node, List.mem_append, List.mem_cons] at h
      rcases h with h | rfl | h
      · exact ihl (⟨.left, c, b, r⟩ :: p) h
      · exact ⟨⟨c, l, a, r, p⟩, rfl, rfl⟩
      · exact ihr (⟨.right, c, b, l⟩ :: p) h

end CephInC.Lib
