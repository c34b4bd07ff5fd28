/-
`cceph_rb_insert_color` in memory rebalances as it does over trees.

The loop of the source goes round once more after its rotations, finds
the new parent black and ends; the tree of `Common/Rbtree.lean` ends at
once.
-/
import CephInC.Common.Proofs.RbHeap

namespace CephInC

open Lib

namespace RbHeap

variable {l r : BinTree NodePtr} {a : NodePtr} {c : Color} {p : Path NodePtr}

/-- At the root, or under a black parent, the loop ends. -/
theorem insertColorLoop_root {turns : Nat} :
    Turns (insertColorLoop (turns + 1) a) (plug (.node c l a r) []) ()
      (plug (.node c l a r) []) := by
  unfold insertColorLoop
  refine Turns.getNode fun n _ hp _ _ => ?_
  rw [hp]
  exact Turns.bind (Turns.pure false _) (Turns.pure () _)

theorem insertColorLoop_black {turns : Nat} {f : Frame NodePtr} (hf : f.color = .black) :
    Turns (insertColorLoop (turns + 1) a) (plug (.node c l a r) (f :: p)) ()
      (plug (.node c l a r) (f :: p)) := by
  unfold insertColorLoop
  refine Turns.getNode fun n _ hp _ _ => ?_
  rw [hp]
  refine Turns.bind (isRedNode_frame f) ?_
  rw [hf]
  exact Turns.pure () _

section
variable {uncle parent : BinTree NodePtr} {gdata pdata udata : NodePtr} {gc uc pc : Color}
  {ul ur pl pr : BinTree NodePtr}

/-- A red uncle on the right. -/
theorem recolor_right :
    Turns (recolor udata pdata gdata)
      (plug (.node gc (.node pc pl pdata pr) gdata (.node uc ul udata ur)) p) ()
      (plug (.node .red (.node .black pl pdata pr) gdata (.node .black ul udata ur)) p) := by
  have huncle : Turns (setBlack udata)
      (plug (.node gc (.node pc pl pdata pr) gdata (.node uc ul udata ur)) p) ()
      (plug (.node gc (.node pc pl pdata pr) gdata (.node .black ul udata ur)) p) :=
    setBlack_turns (p := ⟨.right, gc, gdata, .node pc pl pdata pr⟩ :: p)
  have hparent : Turns (setBlack pdata)
      (plug (.node gc (.node pc pl pdata pr) gdata (.node .black ul udata ur)) p) ()
      (plug (.node gc (.node .black pl pdata pr) gdata (.node .black ul udata ur)) p) :=
    setBlack_turns (p := ⟨.left, gc, gdata, .node .black ul udata ur⟩ :: p)
  exact huncle.bind (hparent.bind setRed_turns)

/-- A red uncle on the left. -/
theorem recolor_left :
    Turns (recolor udata pdata gdata)
      (plug (.node gc (.node uc ul udata ur) gdata (.node pc pl pdata pr)) p) ()
      (plug (.node .red (.node .black ul udata ur) gdata (.node .black pl pdata pr)) p) := by
  have huncle : Turns (setBlack udata)
      (plug (.node gc (.node uc ul udata ur) gdata (.node pc pl pdata pr)) p) ()
      (plug (.node gc (.node .black ul udata ur) gdata (.node pc pl pdata pr)) p) :=
    setBlack_turns (p := ⟨.left, gc, gdata, .node pc pl pdata pr⟩ :: p)
  have hparent : Turns (setBlack pdata)
      (plug (.node gc (.node .black ul udata ur) gdata (.node pc pl pdata pr)) p) ()
      (plug (.node gc (.node .black ul udata ur) gdata (.node .black pl pdata pr)) p) :=
    setBlack_turns (p := ⟨.right, gc, gdata, .node .black ul udata ur⟩ :: p)
  exact huncle.bind (hparent.bind setRed_turns)

end

section
variable {uncle ps : BinTree NodePtr} {gd pd : NodePtr} {gc : Color}

/-- On the left side, `node` an outer child. -/
theorem straight_left :
    Turns (do
        setBlack pd
        setRed gd
        rotateRight gd
        return a)
      (plug (.node gc (.node .red (.node .red l a r) pd ps) gd uncle) p) a
      (plug (.node .black (.node .red l a r) pd (.node .red ps gd uncle)) p) := by
  have hparent : Turns (setBlack pd)
      (plug (.node gc (.node .red (.node .red l a r) pd ps) gd uncle) p) ()
      (plug (.node gc (.node .black (.node .red l a r) pd ps) gd uncle) p) :=
    setBlack_turns (p := ⟨.left, gc, gd, uncle⟩ :: p)
  exact hparent.bind (setRed_turns.bind (rotateRight_turns.bind (Turns.pure a _)))

theorem insertEndLeft_outer :
    Turns (insertEndLeft a pd gd)
      (plug (.node gc (.node .red (.node .red l a r) pd ps) gd uncle) p) a
      (plug (.node .black (.node .red l a r) pd (.node .red ps gd uncle)) p) := by
  refine Turns.besides (f := ⟨.left, .red, pd, ps⟩) (p := ⟨.left, gc, gd, uncle⟩ :: p)
    (.inl (node_mem .red l r a)) fun hne => ?_
  refine Turns.getNode (p := ⟨.left, gc, gd, uncle⟩ :: p) fun pn _ _ _ hpr => ?_
  rw [if_neg fun heq => hne (heq.symm.trans hpr)]
  exact straight_left

/-- `node` an inner child: the first rotation makes `parent` an outer one. -/
theorem insertEndLeft_inner :
    Turns (insertEndLeft a pd gd)
      (plug (.node gc (.node .red ps pd (.node .red l a r)) gd uncle) p) pd
      (plug (.node .black (.node .red ps pd l) a (.node .red r gd uncle)) p) := by
  refine Turns.getNode (p := ⟨.left, gc, gd, uncle⟩ :: p) fun pn _ _ _ hpr => ?_
  rw [if_pos (show pn.rbRight = a from hpr)]
  have hturn : Turns (rotateLeft pd)
      (plug (.node gc (.node .red ps pd (.node .red l a r)) gd uncle) p) ()
      (plug (.node gc (.node .red (.node .red ps pd l) a r) gd uncle) p) :=
    rotateLeft_turns (p := ⟨.left, gc, gd, uncle⟩ :: p)
  exact hturn.bind straight_left

/-- On the right side, `node` an outer child. -/
theorem straight_right :
    Turns (do
        setBlack pd
        setRed gd
        rotateLeft gd
        return a)
      (plug (.node gc uncle gd (.node .red ps pd (.node .red l a r))) p) a
      (plug (.node .black (.node .red uncle gd ps) pd (.node .red l a r)) p) := by
  have hparent : Turns (setBlack pd)
      (plug (.node gc uncle gd (.node .red ps pd (.node .red l a r))) p) ()
      (plug (.node gc uncle gd (.node .black ps pd (.node .red l a r))) p) :=
    setBlack_turns (p := ⟨.right, gc, gd, uncle⟩ :: p)
  exact hparent.bind (setRed_turns.bind (rotateLeft_turns.bind (Turns.pure a _)))

theorem insertEndRight_outer :
    Turns (insertEndRight a pd gd)
      (plug (.node gc uncle gd (.node .red ps pd (.node .red l a r))) p) a
      (plug (.node .black (.node .red uncle gd ps) pd (.node .red l a r)) p) := by
  refine Turns.besides (f := ⟨.right, .red, pd, ps⟩) (p := ⟨.right, gc, gd, uncle⟩ :: p)
    (.inl (node_mem .red l r a)) fun hne => ?_
  refine Turns.getNode (p := ⟨.right, gc, gd, uncle⟩ :: p) fun pn _ _ hpl _ => ?_
  rw [if_neg fun heq => hne (heq.symm.trans hpl)]
  exact straight_right

/-- `node` an inner child. -/
theorem insertEndRight_inner :
    Turns (insertEndRight a pd gd)
      (plug (.node gc uncle gd (.node .red (.node .red l a r) pd ps)) p) pd
      (plug (.node .black (.node .red uncle gd l) a (.node .red r pd ps)) p) := by
  refine Turns.getNode (p := ⟨.right, gc, gd, uncle⟩ :: p) fun pn _ _ hpl _ => ?_
  rw [if_pos (show pn.rbLeft = a from hpl)]
  have hturn : Turns (rotateRight pd)
      (plug (.node gc uncle gd (.node .red (.node .red l a r) pd ps)) p) ()
      (plug (.node gc uncle gd (.node .red l a (.node .red r pd ps))) p) :=
    rotateRight_turns (p := ⟨.right, gc, gd, uncle⟩ :: p)
  exact hturn.bind straight_right

end

section
variable {uncle ps t : BinTree NodePtr} {gd pd : NodePtr} {gc : Color} {pside : Side}
  {turns : Nat}

/-- What the loop in memory does from a position, as the loop over trees. -/
def LoopTurns (turns : Nat) (p : Path NodePtr) : Prop :=
  ∀ l r a t, rbInsertColorLoop (.node .red l a r) p = .ok t →
    Turns (insertColorLoop turns a) (plug (.node .red l a r) p) () t

/-- A red parent on the left. -/
theorem redParent_left (ih : LoopTurns (turns + 1) p)
    (h : rbInsertColorLoop (.node .red l a r)
      (⟨pside, .red, pd, ps⟩ :: ⟨.left, gc, gd, uncle⟩ :: p) = .ok t) :
    Turns (do
        if ← isRedNode (addr uncle) then do
          recolor (addr uncle) pd gd
          insertColorLoop (turns + 1) gd
        else do
          let node ← insertEndLeft a pd gd
          insertColorLoop (turns + 1) node)
      (plug (.node .red l a r) (⟨pside, .red, pd, ps⟩ :: ⟨.left, gc, gd, uncle⟩ :: p)) () t := by
  unfold rbInsertColorLoop at h
  refine Turns.bind (isRedNode_turns (p := ⟨.right, gc, gd, _⟩ :: p)) ?_
  cases hred : rbIsRedNode uncle with
  | false =>
      rw [if_neg (by decide)]
      simp only [hred] at h
      cases pside with
      | left =>
          cases h
          exact insertEndLeft_outer.bind (insertColorLoop_black (f := ⟨.left, _, _, _⟩) rfl)
      | right =>
          cases h
          exact insertEndLeft_inner.bind (insertColorLoop_black (f := ⟨.left, _, _, _⟩) rfl)
  | true =>
      rw [if_pos rfl]
      cases uncle with
      | nil => cases hred
      | node uc ul ud ur =>
      simp only [hred] at h
      cases pside with
      | left => exact recolor_right.bind (ih _ _ _ _ h)
      | right => exact recolor_right.bind (ih _ _ _ _ h)

/-- A red parent on the right. -/
theorem redParent_right (ih : LoopTurns (turns + 1) p)
    (h : rbInsertColorLoop (.node .red l a r)
      (⟨pside, .red, pd, ps⟩ :: ⟨.right, gc, gd, uncle⟩ :: p) = .ok t) :
    Turns (do
        if ← isRedNode (addr uncle) then do
          recolor (addr uncle) pd gd
          insertColorLoop (turns + 1) gd
        else do
          let node ← insertEndRight a pd gd
          insertColorLoop (turns + 1) node)
      (plug (.node .red l a r) (⟨pside, .red, pd, ps⟩ :: ⟨.right, gc, gd, uncle⟩ :: p)) () t := by
  unfold rbInsertColorLoop at h
  refine Turns.bind (isRedNode_turns (p := ⟨.left, gc, gd, _⟩ :: p)) ?_
  cases hred : rbIsRedNode uncle with
  | false =>
      rw [if_neg (by decide)]
      simp only [hred] at h
      cases pside with
      | left =>
          cases h
          exact insertEndRight_inner.bind (insertColorLoop_black (f := ⟨.right, _, _, _⟩) rfl)
      | right =>
          cases h
          exact insertEndRight_outer.bind (insertColorLoop_black (f := ⟨.right, _, _, _⟩) rfl)
  | true =>
      rw [if_pos rfl]
      cases uncle with
      | nil => cases hred
      | node uc ul ud ur =>
      simp only [hred] at h
      cases pside with
      | left => exact recolor_left.bind (ih _ _ _ _ h)
      | right => exact recolor_left.bind (ih _ _ _ _ h)

end

/-- The loop in memory ends where the loop over trees does. -/
theorem insertColorLoop_turns : ∀ (path : Path NodePtr) {turns : Nat}, path.length + 2 ≤ turns →
    LoopTurns turns path
  | _, 0, hturns => by omega
  | _, 1, hturns => by omega
  | [], turns + 2, _ => by
      intro l r a t h
      cases h
      exact insertColorLoop_root
  | [parent], turns + 2, _ => by
      intro l r a t h
      unfold rbInsertColorLoop at h
      cases hc : parent.color with
      | black =>
          rw [hc] at h
          cases h
          exact insertColorLoop_black hc
      | red =>
          rw [hc] at h
          cases h
  | parent :: gparent :: path, turns + 2, hturns => by
      intro l r a t h
      cases hc : parent.color with
      | black =>
          unfold rbInsertColorLoop at h
          rw [hc] at h
          cases h
          exact insertColorLoop_black hc
      | red =>
          have ih : LoopTurns (turns + 1) path := insertColorLoop_turns path (by
            have hle : path.length + 1 + 1 + 2 ≤ turns + 2 := hturns
            omega)
          unfold insertColorLoop
          refine Turns.getNode fun n _ hp _ _ => ?_
          rw [hp, parentAddr_cons]
          refine Turns.bind (isRedNode_frame parent) ?_
          rw [hc]
          refine Turns.getFrame fun pn _ hpp _ _ => ?_
          rw [hpp, parentAddr_cons]
          obtain ⟨pside, pc, pd, ps⟩ := parent
          obtain ⟨gside, gc, gd, uncle⟩ := gparent
          cases hc
          cases gside with
          | left =>
              refine Turns.getFrame (f := ⟨.left, gc, gd, uncle⟩)
                (s := Frame.join ⟨pside, .red, pd, ps⟩ (.node .red l a r)) fun gn _ _ hx hy => ?_
              have hleft : pd = gn.rbLeft := ((hx : gn.rbLeft = _).trans (addr_join _ _)).symm
              have hright : gn.rbRight = addr uncle := hy
              rw [if_pos hleft, hright]
              exact redParent_left ih h
          | right =>
              refine Turns.besides (f := ⟨.right, gc, gd, uncle⟩) (.inl (join_mem _ _))
                fun hne => ?_
              refine Turns.getFrame (f := ⟨.right, gc, gd, uncle⟩)
                (s := Frame.join ⟨pside, .red, pd, ps⟩ (.node .red l a r)) fun gn _ _ hx hy => ?_
              have hleft : gn.rbLeft = addr uncle := hy
              rw [hleft, if_neg fun heq => hne ((addr_join _ _).trans heq)]
              exact redParent_right ih h

/-- The insertion at a leaf in memory is the one over trees. -/
theorem insertColor_turns {t : BinTree NodePtr} {turns : Nat} (h : rbInsertColor a p = .ok t)
    (hturns : p.length + 2 ≤ turns) :
    Turns (insertColor turns a) (plug (.node .red .nil a .nil) p) () t := by
  unfold rbInsertColor at h
  cases hloop : rbInsertColorLoop (.node .red .nil a .nil) p with
  | error e =>
      rw [hloop] at h
      cases h
  | ok t' =>
      rw [hloop] at h
      refine Turns.bind (insertColorLoop_turns p hturns _ _ _ _ hloop) ?_
      refine Turns.bind (Turns.getRoot t') ?_
      cases t' with
      | nil => cases h
      | node c l b r =>
          cases h
          exact setBlack_turns (p := [])

end RbHeap

end CephInC
