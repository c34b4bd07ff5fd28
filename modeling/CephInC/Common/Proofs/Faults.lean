/-
What the red-black tree can fail with: a NULL that is followed, and
nothing else, whatever the tree.

In order, a tree never comes to that (`Common/Proofs/Rbtree.lean`). Here
nothing is asked of it: a caller that holds a lock over any tree at all
still learns that no other error comes out of the tree's own code.
-/
import CephInC.Common.Rbtree
import CephInC.Lib.Ensures

namespace CephInC

open Lib

variable {α κ : Type} {e : Fault}

theorem ok_ne_error (a : α) : (.ok a : Except Fault α) ≠ .error e := by
  intro h
  cases h

variable (he : e ≠ .nullDeref)

include he

theorem nullDeref_ne_error : (.error .nullDeref : Except Fault α) ≠ .error e := by
  intro h
  cases h
  exact he rfl

-- ============================================== colours and rotations

theorem rbIsRed_null (t : BinTree α) : rbIsRed t ≠ .error e := by
  cases t with
  | nil => exact nullDeref_ne_error he
  | node _ _ _ _ => exact ok_ne_error _

theorem rbSetColor_null (c : Color) (t : BinTree α) : rbSetColor c t ≠ .error e := by
  cases t with
  | nil => exact nullDeref_ne_error he
  | node _ _ _ _ => exact ok_ne_error _

theorem rbRotateLeft_null (t : BinTree α) : rbRotateLeft t ≠ .error e := by
  unfold rbRotateLeft
  split
  · exact ok_ne_error _
  · exact nullDeref_ne_error he

theorem rbRotateRight_null (t : BinTree α) : rbRotateRight t ≠ .error e := by
  unfold rbRotateRight
  split
  · exact ok_ne_error _
  · exact nullDeref_ne_error he

-- ============================================================ insertion

theorem rbInsertColorLoop_null (node : BinTree α) (path : Path α) :
    rbInsertColorLoop node path ≠ .error e := by
  fun_induction rbInsertColorLoop node path with
  | case1 node => exact ok_ne_error _
  | case2 => exact ok_ne_error _
  | case3 => exact nullDeref_ne_error he
  | case4 => exact ok_ne_error _
  | case5 _ _ _ _ _ _ _ _ ih =>
      apply bind_ne_error (rbSetColor_null he _ _) fun uncle => ?_
      exact bind_ne_error (rbSetColor_null he _ _) fun parent => ih uncle parent
  | case6 =>
      apply bind_ne_error (rbRotateLeft_null he _) fun parent => ?_
      apply bind_ne_error (rbSetColor_null he _ _) fun parent => ?_
      exact bind_ne_error (rbRotateRight_null he _) fun top => ok_ne_error _
  | case7 =>
      apply bind_ne_error (ok_ne_error _) fun parent => ?_
      apply bind_ne_error (rbSetColor_null he _ _) fun parent => ?_
      exact bind_ne_error (rbRotateRight_null he _) fun top => ok_ne_error _
  | case8 _ _ _ _ _ _ _ _ ih =>
      apply bind_ne_error (rbSetColor_null he _ _) fun uncle => ?_
      exact bind_ne_error (rbSetColor_null he _ _) fun parent => ih uncle parent
  | case9 =>
      apply bind_ne_error (rbRotateRight_null he _) fun parent => ?_
      apply bind_ne_error (rbSetColor_null he _ _) fun parent => ?_
      exact bind_ne_error (rbRotateLeft_null he _) fun top => ok_ne_error _
  | case10 =>
      apply bind_ne_error (ok_ne_error _) fun parent => ?_
      apply bind_ne_error (rbSetColor_null he _ _) fun parent => ?_
      exact bind_ne_error (rbRotateLeft_null he _) fun top => ok_ne_error _

theorem rbInsertColor_null (a : α) (path : Path α) : rbInsertColor a path ≠ .error e :=
  bind_ne_error (rbInsertColorLoop_null he _ _) fun _ => rbSetColor_null he _ _

-- ============================================================== erasure

/-- What is done with the other child, once it has its parent's colour. -/
theorem bind_setColor_ne_error {γ : Type} {k : BinTree α → Except Fault γ} (color : Color)
    (other : BinTree α) (hnil : k .nil ≠ .error e)
    (hnode : ∀ c l a r, k (.node c l a r) ≠ .error e) :
    rbSetColor color other >>= k ≠ .error e := by
  apply bind_ne_error (rbSetColor_null he _ _) fun other => ?_
  cases other with
  | nil => exact hnil
  | node c l a r => exact hnode c l a r

theorem lastRotateLeft_null (child : BinTree α) (top : BinTree α → BinTree α) :
    (do
      let child ← rbSetColor .black child
      let top ← rbRotateLeft (top child)
      .ok (.inr top) : Except Fault (BinTree α ⊕ BinTree α)) ≠ .error e := by
  apply bind_ne_error (rbSetColor_null he _ _) fun _ => ?_
  exact bind_ne_error (rbRotateLeft_null he _) fun _ => ok_ne_error _

theorem lastRotateRight_null (child : BinTree α) (top : BinTree α → BinTree α) :
    (do
      let child ← rbSetColor .black child
      let top ← rbRotateRight (top child)
      .ok (.inr top) : Except Fault (BinTree α ⊕ BinTree α)) ≠ .error e := by
  apply bind_ne_error (rbSetColor_null he _ _) fun _ => ?_
  exact bind_ne_error (rbRotateRight_null he _) fun _ => ok_ne_error _

theorem rbEraseBlackOther_null (parent : Frame α) (node other : BinTree α) :
    rbEraseBlackOther parent node other ≠ .error e := by
  have hnil : (.error .nullDeref : Except Fault (BinTree α ⊕ BinTree α)) ≠ .error e :=
    nullDeref_ne_error he
  cases other with
  | nil => exact hnil
  | node oc ol od or =>
      unfold rbEraseBlackOther
      dsimp only
      split
      · split
        · exact bind_ne_error (rbSetColor_null he _ _) fun _ => ok_ne_error _
        · split
          · apply bind_ne_error (rbSetColor_null he _ _) fun _ => ?_
            apply bind_ne_error (rbRotateRight_null he _) fun other => ?_
            apply bind_setColor_ne_error he _ other hnil
            intro _ _ _ _
            exact lastRotateLeft_null he _ _
          · exact lastRotateLeft_null he _ _
      · split
        · exact bind_ne_error (rbSetColor_null he _ _) fun _ => ok_ne_error _
        · split
          · apply bind_ne_error (rbSetColor_null he _ _) fun _ => ?_
            apply bind_ne_error (rbRotateLeft_null he _) fun other => ?_
            apply bind_setColor_ne_error he _ other hnil
            intro _ _ _ _
            exact lastRotateRight_null he _ _
          · exact lastRotateRight_null he _ _

theorem rbEraseColor_null (node : BinTree α) (path : Path α) :
    rbEraseColor node path ≠ .error e := by
  fun_induction rbEraseColor node path with
  | case1 node => exact ok_ne_error _
  | case2 => exact ok_ne_error _
  | case3 node parent path _ ih =>
      apply bind_ne_error (rbIsRed_null he _) fun red => ?_
      cases red with
      | true =>
          rw [if_pos rfl]
          cases parent.sibling with
          | nil => exact nullDeref_ne_error he
          | node _ ol od or =>
              apply bind_ne_error (rbEraseBlackOther_null he _ _ _) fun ended => ?_
              cases ended with
              | inl node => exact ok_ne_error _
              | inr top => exact ok_ne_error _
      | false =>
          apply bind_ne_error (rbEraseBlackOther_null he _ _ _) fun ended => ?_
          cases ended with
          | inl node => exact ih node
          | inr top => exact ok_ne_error _

theorem rbErase_null (node : Loc α) : rbErase node ≠ .error e := by
  unfold rbErase
  split
  · split
    · exact rbEraseColor_null he _ _
    · exact ok_ne_error _
  · split
    · exact rbEraseColor_null he _ _
    · exact ok_ne_error _
  · dsimp only
    split
    · exact rbEraseColor_null he _ _
    · exact ok_ne_error _

-- ======================================================= the map macro

theorem implMapInsert_null (cmp : κ → κ → Int) (key : α → κ) (root : BinTree α) (a : α) :
    implMapInsert cmp key root a ≠ .error e := by
  unfold implMapInsert
  split
  · exact ok_ne_error _
  · exact bind_ne_error (rbInsertColor_null he _ _) fun _ => ok_ne_error _

theorem implMapRemove_null (node : Loc α) : implMapRemove node ≠ .error e :=
  bind_ne_error (rbErase_null he _) fun _ => ok_ne_error _

end CephInC
