/-
`cceph_rb_erase` in memory takes out the node it takes out over trees.

The rebalancing first: one turn of the loop of `__cceph_rb_erase_color`
on each side, and the turns together. Then the unlinking, which passes
through memories that hold no tree.
-/
import CephInC.Common.Proofs.RbHeap

namespace CephInC

open Lib

namespace RbHeap

variable {node ol or l r : BinTree NodePtr} {pd od : NodePtr} {pc oc : Color}
  {p : Path NodePtr} {turns : Nat}

-- =========================================================== the sibling

theorem setBlackNode_turns {t : BinTree NodePtr} :
    Turns (setBlackNode (addr t)) (plug t p) () (plug (rbSetBlackNode t) p) := by
  cases t with
  | nil => exact Turns.pure () _
  | node c l a r =>
      refine Turns.notNull fun hne => ?_
      show Turns (setBlackNode a) _ () _
      unfold setBlackNode
      rw [if_neg hne]
      exact setBlack_turns

/-- A black sibling is left where it is. -/
theorem blackOtherRight_black :
    Turns (blackOtherRight pd) (plug node (⟨.left, pc, pd, .node .black ol od or⟩ :: p)) od
      (plug node (⟨.left, pc, pd, .node .black ol od or⟩ :: p)) := by
  refine Turns.getNode (p := p) (l := node) fun pn _ _ _ hpr => ?_
  rw [show pn.rbRight = od from hpr]
  refine Turns.getNode (p := ⟨.right, pc, pd, node⟩ :: p) fun on hoc _ _ _ => ?_
  rw [isRed_of_color hoc]
  exact Turns.pure _ _

/-- A red one goes above the parent, which turns red. -/
theorem blackOtherRight_red :
    Turns (blackOtherRight pd) (plug node (⟨.left, pc, pd, .node .red ol od or⟩ :: p)) (addr ol)
      (plug node (⟨.left, .red, pd, ol⟩ :: ⟨.left, .black, od, or⟩ :: p)) := by
  refine Turns.getNode (p := p) (l := node) fun pn _ _ _ hpr => ?_
  rw [show pn.rbRight = od from hpr]
  refine Turns.getNode (p := ⟨.right, pc, pd, node⟩ :: p) fun on hoc _ _ _ => ?_
  rw [isRed_of_color hoc]
  refine Turns.bind (setBlack_turns (p := ⟨.right, pc, pd, node⟩ :: p)) ?_
  refine Turns.bind (setRed_turns (p := p)) (Turns.bind (rotateLeft_turns (p := p)) ?_)
  refine Turns.getNode (p := ⟨.left, .black, od, or⟩ :: p) fun pn' _ _ _ hpr' => ?_
  rw [hpr']
  exact Turns.pure _ _

theorem blackOtherLeft_black :
    Turns (blackOtherLeft pd) (plug node (⟨.right, pc, pd, .node .black ol od or⟩ :: p)) od
      (plug node (⟨.right, pc, pd, .node .black ol od or⟩ :: p)) := by
  refine Turns.getNode (p := p) (r := node) fun pn _ _ hpl _ => ?_
  rw [show pn.rbLeft = od from hpl]
  refine Turns.getNode (p := ⟨.left, pc, pd, node⟩ :: p) fun on hoc _ _ _ => ?_
  rw [isRed_of_color hoc]
  exact Turns.pure _ _

theorem blackOtherLeft_red :
    Turns (blackOtherLeft pd) (plug node (⟨.right, pc, pd, .node .red ol od or⟩ :: p)) (addr or)
      (plug node (⟨.right, .red, pd, or⟩ :: ⟨.right, .black, od, ol⟩ :: p)) := by
  refine Turns.getNode (p := p) (r := node) fun pn _ _ hpl _ => ?_
  rw [show pn.rbLeft = od from hpl]
  refine Turns.getNode (p := ⟨.left, pc, pd, node⟩ :: p) fun on hoc _ _ _ => ?_
  rw [isRed_of_color hoc]
  refine Turns.bind (setBlack_turns (p := ⟨.left, pc, pd, node⟩ :: p)) ?_
  refine Turns.bind (setRed_turns (p := p)) (Turns.bind (rotateRight_turns (p := p)) ?_)
  refine Turns.getNode (p := ⟨.right, .black, od, ol⟩ :: p) fun pn' _ _ hpl' _ => ?_
  rw [hpl']
  exact Turns.pure _ _

theorem hasRedChild_turns :
    Turns (hasRedChild od) (plug (.node oc ol od or) p) (rbIsRedNode ol || rbIsRedNode or)
      (plug (.node oc ol od or) p) := by
  refine Turns.getNode fun on _ _ hl hr => ?_
  rw [hl, hr]
  refine Turns.bind (isRedNode_turns (p := ⟨.left, oc, od, or⟩ :: p)) ?_
  cases rbIsRedNode ol with
  | true => exact Turns.pure true _
  | false => exact isRedNode_turns (p := ⟨.right, oc, od, ol⟩ :: p)

-- ========================================================= the last turn

section
variable {xl xr : BinTree NodePtr} {xd : NodePtr} {xc : Color}

/-- The end on the left side, the outer child of `other` red. -/
theorem endLeft_outer :
    Turns (endLeft pd od)
      (plug (.node pc node pd (.node oc ol od (.node .red xl xd xr))) p) ()
      (plug (.node pc (.node .black node pd ol) od (.node .black xl xd xr)) p) := by
  refine Turns.getNode (p := ⟨.right, pc, pd, node⟩ :: p) fun on _ _ _ hor => ?_
  rw [hor]
  refine Turns.bind (isRedNode_turns (p := ⟨.right, oc, od, ol⟩ :: ⟨.right, pc, pd, node⟩ :: p)) ?_
  refine Turns.bind (Turns.pure od _) (Turns.getNode (p := p) fun pn hpc _ _ _ => ?_)
  rw [hpc]
  refine Turns.bind (setColor_turns (p := ⟨.right, pc, pd, node⟩ :: p) pc) ?_
  refine Turns.bind (setBlack_turns (p := p)) ?_
  refine Turns.getNode (p := ⟨.right, .black, pd, node⟩ :: p) fun on' _ _ _ hor' => ?_
  rw [show on'.rbRight = xd from hor']
  refine Turns.bind
    (setBlack_turns (p := ⟨.right, pc, od, ol⟩ :: ⟨.right, .black, pd, node⟩ :: p)) ?_
  exact rotateLeft_turns

/-- The inner child red: it goes above `other` first. -/
theorem endLeft_inner (hor : rbIsRedNode or = false) :
    Turns (endLeft pd od)
      (plug (.node pc node pd (.node oc (.node xc xl xd xr) od or)) p) ()
      (plug (.node pc (.node .black node pd xl) xd (.node .black xr od or)) p) := by
  refine Turns.getNode (p := ⟨.right, pc, pd, node⟩ :: p) fun on _ _ _ hon => ?_
  rw [hon]
  refine Turns.bind (isRedNode_turns
    (p := ⟨.right, oc, od, .node xc xl xd xr⟩ :: ⟨.right, pc, pd, node⟩ :: p)) ?_
  rw [hor]
  have hturn : Turns (do
        let o ← get od
        setBlack o.rbLeft
        setRed od
        rotateRight od
        let p ← get pd
        return p.rbRight)
      (plug (.node pc node pd (.node oc (.node xc xl xd xr) od or)) p) xd
      (plug (.node pc node pd (.node .black xl xd (.node .red xr od or))) p) := by
    refine Turns.getNode (p := ⟨.right, pc, pd, node⟩ :: p) fun on' _ _ hl _ => ?_
    rw [show on'.rbLeft = xd from hl]
    refine Turns.bind
      (setBlack_turns (p := ⟨.left, oc, od, or⟩ :: ⟨.right, pc, pd, node⟩ :: p)) ?_
    refine Turns.bind (setRed_turns (p := ⟨.right, pc, pd, node⟩ :: p)) ?_
    refine Turns.bind (rotateRight_turns (p := ⟨.right, pc, pd, node⟩ :: p)) ?_
    refine Turns.getNode (p := p) fun pn _ _ _ hpr => ?_
    rw [hpr]
    exact Turns.pure _ _
  refine Turns.bind hturn (Turns.getNode (p := p) fun pn hpc _ _ _ => ?_)
  rw [hpc]
  refine Turns.bind (setColor_turns (p := ⟨.right, pc, pd, node⟩ :: p) pc) ?_
  refine Turns.bind (setBlack_turns (p := p)) ?_
  refine Turns.getNode (p := ⟨.right, .black, pd, node⟩ :: p) fun xn _ _ _ hxr => ?_
  rw [show xn.rbRight = od from hxr]
  refine Turns.bind
    (setBlack_turns (p := ⟨.right, pc, xd, xl⟩ :: ⟨.right, .black, pd, node⟩ :: p)) ?_
  exact rotateLeft_turns

/-- The end on the right side, the outer child of `other` red. -/
theorem endRight_outer :
    Turns (endRight pd od)
      (plug (.node pc (.node oc (.node .red xl xd xr) od or) pd node) p) ()
      (plug (.node pc (.node .black xl xd xr) od (.node .black or pd node)) p) := by
  refine Turns.getNode (p := ⟨.left, pc, pd, node⟩ :: p) fun on _ _ hol _ => ?_
  rw [hol]
  refine Turns.bind (isRedNode_turns (p := ⟨.left, oc, od, or⟩ :: ⟨.left, pc, pd, node⟩ :: p)) ?_
  refine Turns.bind (Turns.pure od _) (Turns.getNode (p := p) fun pn hpc _ _ _ => ?_)
  rw [hpc]
  refine Turns.bind (setColor_turns (p := ⟨.left, pc, pd, node⟩ :: p) pc) ?_
  refine Turns.bind (setBlack_turns (p := p)) ?_
  refine Turns.getNode (p := ⟨.left, .black, pd, node⟩ :: p) fun on' _ _ hol' _ => ?_
  rw [show on'.rbLeft = xd from hol']
  refine Turns.bind
    (setBlack_turns (p := ⟨.left, pc, od, or⟩ :: ⟨.left, .black, pd, node⟩ :: p)) ?_
  exact rotateRight_turns

/-- The inner child red. -/
theorem endRight_inner (hol : rbIsRedNode ol = false) :
    Turns (endRight pd od)
      (plug (.node pc (.node oc ol od (.node xc xl xd xr)) pd node) p) ()
      (plug (.node pc (.node .black ol od xl) xd (.node .black xr pd node)) p) := by
  refine Turns.getNode (p := ⟨.left, pc, pd, node⟩ :: p) fun on _ _ hon _ => ?_
  rw [hon]
  refine Turns.bind (isRedNode_turns
    (p := ⟨.left, oc, od, .node xc xl xd xr⟩ :: ⟨.left, pc, pd, node⟩ :: p)) ?_
  rw [hol]
  have hturn : Turns (do
        let o ← get od
        setBlack o.rbRight
        setRed od
        rotateLeft od
        let p ← get pd
        return p.rbLeft)
      (plug (.node pc (.node oc ol od (.node xc xl xd xr)) pd node) p) xd
      (plug (.node pc (.node .black (.node .red ol od xl) xd xr) pd node) p) := by
    refine Turns.getNode (p := ⟨.left, pc, pd, node⟩ :: p) fun on' _ _ _ hr => ?_
    rw [show on'.rbRight = xd from hr]
    refine Turns.bind
      (setBlack_turns (p := ⟨.right, oc, od, ol⟩ :: ⟨.left, pc, pd, node⟩ :: p)) ?_
    refine Turns.bind (setRed_turns (p := ⟨.left, pc, pd, node⟩ :: p)) ?_
    refine Turns.bind (rotateLeft_turns (p := ⟨.left, pc, pd, node⟩ :: p)) ?_
    refine Turns.getNode (p := p) fun pn _ _ hpl _ => ?_
    rw [hpl]
    exact Turns.pure _ _
  refine Turns.bind hturn (Turns.getNode (p := p) fun pn hpc _ _ _ => ?_)
  rw [hpc]
  refine Turns.bind (setColor_turns (p := ⟨.left, pc, pd, node⟩ :: p) pc) ?_
  refine Turns.bind (setBlack_turns (p := p)) ?_
  refine Turns.getNode (p := ⟨.left, .black, pd, node⟩ :: p) fun xn _ _ hxl _ => ?_
  rw [show xn.rbLeft = od from hxl]
  refine Turns.bind
    (setBlack_turns (p := ⟨.left, pc, xd, xr⟩ :: ⟨.left, .black, pd, node⟩ :: p)) ?_
  exact rotateRight_turns

end

-- =============================================================== the loop

section
variable {f : Frame NodePtr} {s top node' t : BinTree NodePtr} {last : NodePtr}
  {finish : NodePtr → NodePtr → Prog RbMem Unit} {res : BinTree NodePtr ⊕ BinTree NodePtr}

/-- A turn of the loop once the sibling is black; `finish` is its end on a side. -/
def afterOther (finish : NodePtr → NodePtr → Prog RbMem Unit) (turns : Nat)
    (parent other : NodePtr) : Prog RbMem NodePtr := do
  if ← hasRedChild other then do
    finish parent other
    getRoot
  else do
    setRed other
    let p ← get parent
    eraseColorLoop turns parent p.parent

/-- The same tree, looked at from the sibling. -/
theorem plug_sibling (f : Frame NodePtr) (node : BinTree NodePtr) (p : Path NodePtr) :
    plug node (f :: p) = plug f.sibling (⟨RbHeap.other f.side, f.color, f.data, node⟩ :: p) := by
  obtain ⟨side, c, a, s⟩ := f
  cases side <;> rfl

theorem afterOther_end (hs : f.sibling = .node oc ol od or)
    (hred : (rbIsRedNode ol || rbIsRedNode or) = true)
    (hfin : Turns (finish f.data od) (plug node (f :: p)) () (plug top p)) :
    Turns (afterOther finish turns f.data od) (plug node (f :: p)) (addr (plug top p))
      (plug top p) := by
  have hhas : Turns (hasRedChild od) (plug node (f :: p)) true (plug node (f :: p)) := by
    rw [plug_sibling, hs, ← hred]
    exact hasRedChild_turns
  exact hhas.bind (hfin.bind (Turns.getRoot _))

theorem afterOther_climb (hs : f.sibling = .node oc ol od or)
    (hred : (rbIsRedNode ol || rbIsRedNode or) = false)
    (hloop : Turns (eraseColorLoop turns f.data (parentAddr p))
      (plug (Frame.join ⟨f.side, f.color, f.data, .node .red ol od or⟩ node) p) last t) :
    Turns (afterOther finish turns f.data od) (plug node (f :: p)) last t := by
  have hhas : Turns (hasRedChild od) (plug node (f :: p)) false (plug node (f :: p)) := by
    rw [plug_sibling, hs, ← hred]
    exact hasRedChild_turns
  have hset : Turns (setRed od) (plug node (f :: p)) ()
      (plug node (⟨f.side, f.color, f.data, .node .red ol od or⟩ :: p)) := by
    rw [plug_sibling f, plug_sibling ⟨f.side, f.color, f.data, .node .red ol od or⟩, hs]
    exact setRed_turns
  refine hhas.bind (hset.bind (Turns.getFrame fun pn _ hpp _ _ => ?_))
  rw [hpp]
  exact hloop

/-- What the loop does after a turn whose result over trees is `res`. -/
def Continues (turns : Nat) (p : Path NodePtr) (last : NodePtr) (t : BinTree NodePtr) :
    BinTree NodePtr ⊕ BinTree NodePtr → Prop
  | .inl node => Turns (eraseColorLoop turns (addr node) (parentAddr p)) (plug node p) last t
  | .inr top => last = addr (plug top p) ∧ t = plug top p

theorem exists_of_isRed (h : rbIsRedNode t = true) : ∃ xl xd xr, t = .node .red xl xd xr := by
  rcases t with _ | ⟨_ | _, xl, xd, xr⟩
  · cases h
  · exact ⟨xl, xd, xr, rfl⟩
  · cases h

theorem afterOther_left (hside : f.side = .left)
    (h : rbEraseBlackOther f node f.sibling = .ok res) (hc : Continues turns p last t res) :
    Turns (afterOther endLeft turns f.data (addr f.sibling)) (plug node (f :: p)) last t := by
  obtain ⟨side, pc, pd, s⟩ := f
  cases hside
  unfold rbEraseBlackOther at h
  cases s with
  | nil => cases h
  | node oc ol od or =>
      cases hr : rbIsRedNode or with
      | true =>
          obtain ⟨xl, xd, xr, rfl⟩ := exists_of_isRed hr
          simp only [hr, Bool.not_true, Bool.and_false] at h
          cases h
          obtain ⟨rfl, rfl⟩ := hc
          exact afterOther_end rfl (Bool.or_true _) endLeft_outer
      | false =>
          cases hl : rbIsRedNode ol with
          | true =>
              obtain ⟨xl, xd, xr, rfl⟩ := exists_of_isRed hl
              simp only [hl, hr, Bool.not_true, Bool.false_and] at h
              cases h
              obtain ⟨rfl, rfl⟩ := hc
              exact afterOther_end rfl (Bool.true_or _) (endLeft_inner hr)
          | false =>
              simp only [hl, hr, Bool.not_false, Bool.and_self] at h
              cases h
              exact afterOther_climb rfl (by rw [hl, hr]; rfl) hc

theorem afterOther_right (hside : f.side = .right)
    (h : rbEraseBlackOther f node f.sibling = .ok res) (hc : Continues turns p last t res) :
    Turns (afterOther endRight turns f.data (addr f.sibling)) (plug node (f :: p)) last t := by
  obtain ⟨side, pc, pd, s⟩ := f
  cases hside
  unfold rbEraseBlackOther at h
  cases s with
  | nil => cases h
  | node oc ol od or =>
      cases hl : rbIsRedNode ol with
      | true =>
          obtain ⟨xl, xd, xr, rfl⟩ := exists_of_isRed hl
          simp only [hl, Bool.not_true, Bool.false_and] at h
          cases h
          obtain ⟨rfl, rfl⟩ := hc
          exact afterOther_end rfl (Bool.true_or _) endRight_outer
      | false =>
          cases hr : rbIsRedNode or with
          | true =>
              obtain ⟨xl, xd, xr, rfl⟩ := exists_of_isRed hr
              simp only [hl, hr, Bool.not_true, Bool.and_false] at h
              cases h
              obtain ⟨rfl, rfl⟩ := hc
              exact afterOther_end rfl (Bool.or_true _) (endRight_inner hl)
          | false =>
              simp only [hl, hr, Bool.not_false, Bool.and_self] at h
              cases h
              exact afterOther_climb rfl (by rw [hl, hr]; rfl) hc

/-- The loop ends at the root, and at a red node. -/
theorem eraseColorLoop_root : Turns (eraseColorLoop (turns + 1) (addr node) 0) (plug node [])
    (addr node) (plug node []) := by
  refine Turns.bind (isRedNode_turns (p := [])) ?_
  cases rbIsRedNode node with
  | true => exact Turns.pure _ _
  | false =>
      refine Turns.bind (Turns.getRoot node) ?_
      rw [if_pos rfl]
      exact Turns.pure _ _

theorem eraseColorLoop_red {parent : NodePtr} (hred : rbIsRedNode node = true) :
    Turns (eraseColorLoop (turns + 1) (addr node) parent) (plug node p) (addr node)
      (plug node p) := by
  refine Turns.bind isRedNode_turns ?_
  rw [hred]
  exact Turns.pure _ _

/-- A turn on the left side. -/
theorem eraseColorLoop_left (hred : rbIsRedNode node = false) (hside : f.side = .left)
    (h : Turns (blackOtherRight f.data >>= afterOther endLeft turns f.data)
      (plug node (f :: p)) last t) :
    Turns (eraseColorLoop (turns + 1) (addr node) f.data) (plug node (f :: p)) last t := by
  refine Turns.bind isRedNode_turns ?_
  rw [hred]
  refine Turns.belowRoot fun hroot => Turns.bind (Turns.getRoot _) ?_
  rw [if_neg hroot]
  refine Turns.getFrame fun pn _ _ hpx _ => ?_
  rw [hside] at hpx
  rw [show pn.rbLeft = addr node from hpx, if_pos rfl]
  exact h

/-- A turn on the right side. -/
theorem eraseColorLoop_right (hred : rbIsRedNode node = false) (hside : f.side = .right)
    (hs : f.sibling = .node oc ol od or)
    (h : Turns (blackOtherLeft f.data >>= afterOther endRight turns f.data)
      (plug node (f :: p)) last t) :
    Turns (eraseColorLoop (turns + 1) (addr node) f.data) (plug node (f :: p)) last t := by
  refine Turns.bind isRedNode_turns ?_
  rw [hred]
  refine Turns.belowRoot fun hroot => Turns.bind (Turns.getRoot _) ?_
  rw [if_neg hroot]
  refine Turns.besides (.inr (by rw [hs]; exact node_mem _ _ _ _)) fun hne => ?_
  refine Turns.getFrame fun pn _ _ _ hpy => ?_
  rw [hside] at hpy
  rw [show pn.rbLeft = addr f.sibling from hpy, if_neg hne.symm]
  exact h

/-- The loop in memory ends at a node whose blackening gives the tree. -/
def LoopErases (turns : Nat) (p : Path NodePtr) : Prop :=
  ∀ node t, rbEraseColor node p = .ok t →
    ∃ last t', Turns (eraseColorLoop turns (addr node) (parentAddr p)) (plug node p) last t'
      ∧ Turns (setBlackNode last) t' () t

/-- A turn at a black sibling. -/
theorem blackSibling_turns {side : Side} (ih : LoopErases turns p)
    (hred : rbIsRedNode node = false)
    (h : rbEraseColor node (⟨side, pc, pd, .node .black ol od or⟩ :: p) = .ok t) :
    ∃ last t', Turns (eraseColorLoop (turns + 1) (addr node) pd)
        (plug node (⟨side, pc, pd, .node .black ol od or⟩ :: p)) last t'
      ∧ Turns (setBlackNode last) t' () t := by
  unfold rbEraseColor at h
  rw [hred] at h
  cases hres : rbEraseBlackOther ⟨side, pc, pd, .node .black ol od or⟩ node
      (.node .black ol od or) with
  | error e =>
      simp only [hres, rbIsRed, bind, Except.bind] at h
      cases h
  | ok res =>
      simp only [hres, rbIsRed, bind, Except.bind] at h
      obtain ⟨last, t', hc, hend⟩ : ∃ last t', Continues turns p last t' res
          ∧ Turns (setBlackNode last) t' () t := by
        cases res with
        | inl n => exact ih n t h
        | inr top =>
            cases h
            exact ⟨_, _, ⟨rfl, rfl⟩, setBlackNode_turns (p := [])⟩
      refine ⟨last, t', ?_, hend⟩
      cases side with
      | left =>
          exact eraseColorLoop_left hred rfl
            (blackOtherRight_black.bind (afterOther_left rfl hres hc))
      | right =>
          exact eraseColorLoop_right hred rfl rfl
            (blackOtherLeft_black.bind (afterOther_right rfl hres hc))

/-- The subtree that climbs has the parent's colour. -/
theorem climb_isRed {other n : BinTree NodePtr}
    (h : rbEraseBlackOther f node other = .ok (.inl n)) :
    rbIsRedNode n = decide (f.color = .red) := by
  unfold rbEraseBlackOther at h
  cases other with
  | nil => cases h
  | node oc ol od or =>
      -- the last turn of the loop, with its rotations, gives `.inr`
      obtain ⟨side, c, a, s⟩ := f
      cases side <;> rcases ol with _ | ⟨_ | _, _, _, _⟩ <;>
        rcases or with _ | ⟨_ | _, _, _, _⟩ <;> cases h <;> rfl

/-- A turn at a red sibling on the right: the next one is the last. -/
theorem redSibling_left (hred : rbIsRedNode node = false)
    (h : rbEraseColor node (⟨.left, pc, pd, .node .red ol od or⟩ :: p) = .ok t) :
    ∃ last t', Turns (eraseColorLoop (turns + 2) (addr node) pd)
        (plug node (⟨.left, pc, pd, .node .red ol od or⟩ :: p)) last t'
      ∧ Turns (setBlackNode last) t' () t := by
  unfold rbEraseColor at h
  rw [hred] at h
  cases hres : rbEraseBlackOther ⟨.left, .red, pd, .node .red ol od or⟩ node ol with
  | error e =>
      simp only [hres, rbIsRed, bind, Except.bind] at h
      cases h
  | ok res =>
      simp only [hres, rbIsRed, bind, Except.bind] at h
      obtain ⟨last, t', hc, hend⟩ : ∃ last t',
          Continues (turns + 1) (⟨.left, .black, od, or⟩ :: p) last t' res
          ∧ Turns (setBlackNode last) t' () t := by
        cases res with
        | inl n =>
            cases h
            exact ⟨_, _, eraseColorLoop_red (climb_isRed hres), setBlackNode_turns⟩
        | inr top =>
            cases h
            exact ⟨_, _, ⟨rfl, rfl⟩, setBlackNode_turns (p := [])⟩
      exact ⟨last, t', eraseColorLoop_left hred rfl (blackOtherRight_red.bind
        (afterOther_left (f := ⟨.left, .red, pd, ol⟩) rfl hres hc)), hend⟩

/-- A turn at a red sibling on the left: the next one is the last. -/
theorem redSibling_right (hred : rbIsRedNode node = false)
    (h : rbEraseColor node (⟨.right, pc, pd, .node .red ol od or⟩ :: p) = .ok t) :
    ∃ last t', Turns (eraseColorLoop (turns + 2) (addr node) pd)
        (plug node (⟨.right, pc, pd, .node .red ol od or⟩ :: p)) last t'
      ∧ Turns (setBlackNode last) t' () t := by
  unfold rbEraseColor at h
  rw [hred] at h
  cases hres : rbEraseBlackOther ⟨.right, .red, pd, .node .red ol od or⟩ node or with
  | error e =>
      simp only [hres, rbIsRed, bind, Except.bind] at h
      cases h
  | ok res =>
      simp only [hres, rbIsRed, bind, Except.bind] at h
      obtain ⟨last, t', hc, hend⟩ : ∃ last t',
          Continues (turns + 1) (⟨.right, .black, od, ol⟩ :: p) last t' res
          ∧ Turns (setBlackNode last) t' () t := by
        cases res with
        | inl n =>
            cases h
            exact ⟨_, _, eraseColorLoop_red (climb_isRed hres), setBlackNode_turns⟩
        | inr top =>
            cases h
            exact ⟨_, _, ⟨rfl, rfl⟩, setBlackNode_turns (p := [])⟩
      exact ⟨last, t', eraseColorLoop_right hred rfl rfl (blackOtherLeft_red.bind
        (afterOther_right (f := ⟨.right, .red, pd, or⟩) rfl hres hc)), hend⟩

/-- The loop in memory erases as the loop over trees. -/
theorem eraseColorLoop_turns : ∀ (p : Path NodePtr) {turns : Nat}, p.length + 2 ≤ turns →
    LoopErases turns p
  | _, 0, hturns => by omega
  | _, 1, hturns => by omega
  | [], turns + 2, _ => by
      intro node t h
      cases h
      exact ⟨_, _, eraseColorLoop_root, setBlackNode_turns (p := [])⟩
  | f :: p, turns + 2, hturns => by
      intro node t h
      have ih : LoopErases (turns + 1) p := eraseColorLoop_turns p (by
        have hle : p.length + 1 + 2 ≤ turns + 2 := hturns
        omega)
      cases hred : rbIsRedNode node with
      | true =>
          unfold rbEraseColor at h
          rw [hred] at h
          cases h
          exact ⟨_, _, eraseColorLoop_red hred, setBlackNode_turns⟩
      | false =>
          obtain ⟨side, pc, pd, s⟩ := f
          rcases s with _ | ⟨_ | _, ol, od, or⟩
          · unfold rbEraseColor at h
            rw [hred] at h
            cases h
          · cases side with
            | left => exact redSibling_left hred h
            | right => exact redSibling_right hred h
          · exact blackSibling_turns ih hred h

theorem eraseColor_turns (h : rbEraseColor node p = .ok t) (hturns : p.length + 2 ≤ turns) :
    Turns (eraseColor turns (addr node) (parentAddr p)) (plug node p) () t := by
  obtain ⟨last, t', hloop, hend⟩ := eraseColorLoop_turns p hturns node t h
  exact hloop.bind hend

end

end RbHeap

end CephInC
