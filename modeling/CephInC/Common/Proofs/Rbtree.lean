/-
The red-black algorithms of `rbtree.c` never dereference NULL on a
red-black tree, leave a red-black tree, and change the in-order contents
by exactly the node inserted or erased.

Each loop has one invariant, stated at its position:

- insertion climbs with a red node whose two subtrees are black of
  height `n`, under a hole that takes a black subtree of height `n`;
- erasure climbs with a subtree one black node short of its hole
  (`Short`): either black of height `n`, or red over height `n` and
  repaired by blackening it.
-/
import CephInC.Common.Rbtree

namespace CephInC

open Lib

variable {α : Type}

-- ========================================================= small steps

@[simp] theorem rbSetColor_node (c c' : Color) (l : BinTree α) (a : α)
    (r : BinTree α) : rbSetColor c (.node c' l a r) = .ok (.node c l a r) := rfl

@[simp] theorem rbIsRedNode_nil : rbIsRedNode (.nil : BinTree α) = false := rfl

@[simp] theorem rbIsRedNode_node (c : Color) (l : BinTree α) (a : α)
    (r : BinTree α) : rbIsRedNode (.node c l a r) = decide (c = .red) := rfl

@[simp] theorem rbSetBlackNode_toList (t : BinTree α) :
    (rbSetBlackNode t).toList = t.toList := by
  cases t <;> rfl

/-- A black subtree is no red node. -/
theorem rbIsRedNode_of_black {t : BinTree α} {n : Nat} (h : t.Balanced .black n) :
    rbIsRedNode t = false := by
  cases h <;> rfl

/-- Blackening the root of a red-black tree changes nothing. -/
theorem rbSetBlackNode_of_redBlack {t : BinTree α} (h : t.RedBlack) :
    rbSetBlackNode t = t := by
  obtain ⟨n, hn⟩ := h
  cases hn <;> rfl

theorem rbSetColor_of_redBlack {t : BinTree α} (h : t.RedBlack)
    (hne : t.toList ≠ []) : rbSetColor .black t = .ok t := by
  obtain ⟨n, hn⟩ := h
  cases hn with
  | nil => exact absurd rfl hne
  | black hl hr => rfl

-- =========================================================== insertion

/-- Subtrees with equal contents leave equal contents under a path. -/
theorem plug_toList_congr {t t' : BinTree α} (p : Path α)
    (h : t.toList = t'.toList) : (plug t p).toList = (plug t' p).toList := by
  rw [plug_toList, plug_toList, h]

/-- The final blackening of an insertion that ended on a red-black tree. -/
private theorem blacken_root {node t : BinTree α} {path : Path α}
    (h : t.RedBlack) (hlist : t.toList = (plug node path).toList)
    (hne : node.toList ≠ []) :
    ∃ t', rbSetColor .black t = .ok t' ∧ t'.RedBlack
      ∧ t'.toList = (plug node path).toList := by
  refine ⟨t, rbSetColor_of_redBlack h ?_, h, hlist⟩
  rw [hlist, plug_toList]
  simp [hne]

/-- Blackening a red parent over a red node of height `n`. -/
private theorem blacken_parent (side : Side) {a : α} {s node : BinTree α}
    {n : Nat} (hs : s.Balanced .black n) (hn : node.Balanced .red n) :
    ∃ t, rbSetColor .black (Frame.join ⟨side, .red, a, s⟩ node) = .ok t
      ∧ t.Balanced .black (n + 1)
      ∧ t.toList = (Frame.join ⟨side, .red, a, s⟩ node).toList := by
  cases side
  · exact ⟨_, rfl, .black hn hs, rfl⟩
  · exact ⟨_, rfl, .black hs hn, rfl⟩

/-- The insertion loop from a red node over two black subtrees of height
`n`, in a hole that takes black subtrees of height `n`. -/
theorem rbInsertColorLoop_spec :
    ∀ (path : Path α) (n : Nat) (node : BinTree α),
      Hole path .black n → node.Balanced .red n →
      ∃ t, rbInsertColorLoop node path = .ok t
        ∧ ∃ t', rbSetColor .black t = .ok t' ∧ t'.RedBlack
          ∧ t'.toList = (plug node path).toList
  | [], n, node, _, hn => by
      cases hn with
      | red hl hr => exact ⟨_, rfl, _, rfl, ⟨_, .black hl hr⟩, rfl⟩
  | [parent], n, node, hp, hn => by
      have hne : node.toList ≠ [] := by cases hn; simp
      cases hp with
      | red hs hroot => cases hroot
      | black hs hroot =>
          exact ⟨_, rfl, blacken_root (Hole.plug (.black hs hroot) hn) rfl hne⟩
  | parent :: gparent :: path, n, node, hp, hn => by
      have hne : node.toList ≠ [] := by cases hn; simp
      cases hp with
      | black hs hrest =>
          exact ⟨_, rfl, blacken_root (Hole.plug (.black hs hrest) hn) rfl hne⟩
      | @red pside pd ps _ _ hs hg =>
        -- a red parent sits under a black gparent
        cases hg with
        | @black gside gd uncle _ _ c' _ hu hrest =>
          cases hred : rbIsRedNode uncle with
          | true =>
              -- red uncle: recolour and climb two levels
              cases hu with
              | nil => cases hred
              | black _ _ => cases hred
              | @red ul ur ud _ hul hur =>
                  obtain ⟨P, hP, hPb, hPl⟩ := blacken_parent pside
                    (a := pd) hs hn
                  cases gside with
                  | left =>
                      obtain ⟨t, h1, t', h2, h3, h4⟩ :=
                        rbInsertColorLoop_spec path (n + 1) _ hrest
                          (.red (a := gd) hPb (.black (a := ud) hul hur))
                      refine ⟨t, ?_, t', h2, h3, ?_⟩
                      · simpa [rbInsertColorLoop, hP, bind, Except.bind]
                          using h1
                      · rw [h4]
                        exact plug_toList_congr path
                          (by simp [hPl, Frame.join])
                  | right =>
                      obtain ⟨t, h1, t', h2, h3, h4⟩ :=
                        rbInsertColorLoop_spec path (n + 1) _ hrest
                          (.red (a := gd) (.black (a := ud) hul hur) hPb)
                      refine ⟨t, ?_, t', h2, h3, ?_⟩
                      · simpa [rbInsertColorLoop, hP, bind, Except.bind]
                          using h1
                      · rw [h4]
                        exact plug_toList_congr path
                          (by simp [hPl, Frame.join])
          | false =>
              have hub : uncle.Balanced .black n := by
                cases hu with
                | nil => exact .nil
                | black hl hr => exact .black hl hr
                | red _ _ => cases hred
              -- black uncle: one or two rotations, and the loop ends
              obtain ⟨l, a, r, rfl, hl, hr⟩ : ∃ l a r,
                  node = .node .red l a r ∧ l.Balanced .black n
                    ∧ r.Balanced .black n := by
                cases hn with
                | red hl hr => exact ⟨_, _, _, rfl, hl, hr⟩
              cases gside with
              | left =>
                  cases pside with
                  | left =>
                      refine ⟨plug (.node .black (.node .red l a r) pd
                        (.node .red ps gd uncle)) path, ?_,
                        blacken_root (hrest.plug ?_) ?_ hne⟩
                      · simp [rbInsertColorLoop, hred, Frame.join,
                          rbRotateRight, bind, Except.bind]
                      · exact .black (.red hl hr) (.red hs hub)
                      · exact plug_toList_congr path (by simp [Frame.join])
                  | right =>
                      refine ⟨plug (.node .black (.node .red ps pd l) a
                        (.node .red r gd uncle)) path, ?_,
                        blacken_root (hrest.plug ?_) ?_ hne⟩
                      · simp [rbInsertColorLoop, hred, Frame.join,
                          rbRotateRight, rbRotateLeft, bind, Except.bind]
                      · exact .black (.red hs hl) (.red hr hub)
                      · exact plug_toList_congr path (by simp [Frame.join])
              | right =>
                  cases pside with
                  | left =>
                      refine ⟨plug (.node .black (.node .red uncle gd l) a
                        (.node .red r pd ps)) path, ?_,
                        blacken_root (hrest.plug ?_) ?_ hne⟩
                      · simp [rbInsertColorLoop, hred, Frame.join,
                          rbRotateRight, rbRotateLeft, bind, Except.bind]
                      · exact .black (.red hub hl) (.red hr hs)
                      · exact plug_toList_congr path (by simp [Frame.join])
                  | right =>
                      refine ⟨plug (.node .black (.node .red uncle gd ps) pd
                        (.node .red l a r)) path, ?_,
                        blacken_root (hrest.plug ?_) ?_ hne⟩
                      · simp [rbInsertColorLoop, hred, Frame.join,
                          rbRotateLeft, bind, Except.bind]
                      · exact .black (.red hub hs) (.red hl hr)
                      · exact plug_toList_congr path (by simp [Frame.join])

/-- Hanging a new node into an empty link of a red-black tree. -/
theorem rbInsertColor_spec (a : α) {path : Path α}
    (h : (plug .nil path).RedBlack) :
    ∃ t, rbInsertColor a path = .ok t ∧ t.RedBlack
      ∧ t.toList = Path.before path ++ a :: Path.after path := by
  obtain ⟨c, n, hp, hnil⟩ := exists_hole h
  cases hnil
  obtain ⟨t, h1, t', h2, h3, h4⟩ :=
    rbInsertColorLoop_spec path 0 _ hp (.red (a := a) .nil .nil)
  refine ⟨t', ?_, h3, ?_⟩
  · simp [rbInsertColor, h1, h2, bind, Except.bind]
  · rw [h4, plug_toList]
    simp

-- ============================================================= erasure

/-- A red root over subtrees of height `n`, whatever their colours. -/
def RedOver (t : BinTree α) (n : Nat) : Prop :=
  ∃ l a r c₁ c₂, t = .node .red l a r ∧ l.Balanced c₁ n ∧ r.Balanced c₂ n

/-- One black node short of a hole that takes black height `n + 1`. -/
def Short (t : BinTree α) (n : Nat) : Prop := t.Balanced .black n ∨ RedOver t n

theorem RedOver.isRed {t : BinTree α} {n : Nat} (h : RedOver t n) :
    rbIsRedNode t = true := by
  obtain ⟨l, a, r, c₁, c₂, rfl, -, -⟩ := h
  rfl

theorem RedOver.blacken {t : BinTree α} {n : Nat} (h : RedOver t n) :
    (rbSetBlackNode t).Balanced .black (n + 1) := by
  obtain ⟨l, a, r, c₁, c₂, rfl, hl, hr⟩ := h
  exact .black hl hr

theorem short_of_balanced {t : BinTree α} {c : Color} {n : Nat}
    (h : t.Balanced c n) : Short t n := by
  cases h with
  | nil => exact .inl .nil
  | red hl hr => exact .inr ⟨_, _, _, _, _, rfl, hl, hr⟩
  | black hl hr => exact .inl (.black hl hr)

/-- What the repair at a black sibling leaves at the parent: contents as
before, and either a subtree still one short or a final one. -/
def EraseStep (parent : Frame α) (node other : BinTree α) (n : Nat) :
    BinTree α ⊕ BinTree α → Prop
  | .inl t =>
      t.toList = (({ parent with sibling := other } : Frame α).join node).toList
        ∧ (parent.color = .red → RedOver t n)
        ∧ (parent.color = .black → t.Balanced .black (n + 1))
  | .inr t =>
      t.toList = (({ parent with sibling := other } : Frame α).join node).toList
        ∧ (parent.color = .red → t.Balanced .red (n + 1))
        ∧ (parent.color = .black → t.Balanced .black (n + 2))

/-- A red node is not NULL. -/
private theorem red_node {t : BinTree α} {c : Color} {n : Nat}
    (ht : t.Balanced c n) (h : rbIsRedNode t = true) :
    ∃ l a r, t = .node .red l a r ∧ l.Balanced .black n
      ∧ r.Balanced .black n := by
  cases ht with
  | nil => cases h
  | black _ _ => cases h
  | red hl hr => exact ⟨_, _, _, rfl, hl, hr⟩

/-- A node that is not red is black. -/
private theorem not_red {t : BinTree α} {c : Color} {n : Nat}
    (ht : t.Balanced c n) (h : rbIsRedNode t = false) :
    t.Balanced .black n := by
  cases ht with
  | nil => exact .nil
  | black hl hr => exact .black hl hr
  | red _ _ => cases h

/-- The subtree the final rotation leaves, under the parent's colour. -/
private theorem recolour {l r : BinTree α} {a : α} {n : Nat} {pc : Color}
    (hl : l.Balanced .black (n + 1)) (hr : r.Balanced .black (n + 1)) :
    (pc = .red → (BinTree.node pc l a r).Balanced .red (n + 1))
      ∧ (pc = .black → (BinTree.node pc l a r).Balanced .black (n + 2)) := by
  constructor
  · rintro rfl
    exact .red hl hr
  · rintro rfl
    exact .black hl hr

/-- The subtree left at the parent when the sibling turns red. -/
private theorem sink {l r : BinTree α} {a : α} {n : Nat} {pc c c' : Color}
    (hl : l.Balanced c n) (hr : r.Balanced c' n) :
    (pc = .red → RedOver (BinTree.node pc l a r) n)
      ∧ (pc = .black → (BinTree.node pc l a r).Balanced .black (n + 1)) := by
  constructor
  · rintro rfl
    exact ⟨_, _, _, _, _, rfl, hl, hr⟩
  · rintro rfl
    exact .black hl hr

theorem rbEraseBlackOther_spec (parent : Frame α) {node other : BinTree α}
    {n : Nat} (hn : node.Balanced .black n)
    (ho : other.Balanced .black (n + 1)) :
    ∃ res, rbEraseBlackOther parent node other = .ok res
      ∧ EraseStep parent node other n res := by
  obtain ⟨side, pc, pd, s⟩ := parent
  cases ho with
  | @black ol or od c₁ c₂ _ hol hor =>
    cases side with
    | left =>
        cases hor' : rbIsRedNode or with
        | false =>
            cases hol' : rbIsRedNode ol with
            | false =>
                refine ⟨.inl (.node pc node pd (.node .red ol od or)), ?_, ?_⟩
                · simp [rbEraseBlackOther, hol', hor', bind, Except.bind]
                · exact ⟨rfl, sink hn (.red (not_red hol hol')
                    (not_red hor hor'))⟩
            | true =>
                obtain ⟨l, a, r, rfl, hl, hr⟩ := red_node hol hol'
                refine ⟨.inr (.node pc (.node .black node pd l) a
                  (.node .black r od or)), ?_, ?_⟩
                · simp [rbEraseBlackOther, hor', rbRotateRight, rbRotateLeft,
                    bind, Except.bind]
                · exact ⟨by simp [Frame.join],
                    recolour (.black hn hl) (.black hr hor)⟩
        | true =>
            obtain ⟨l, a, r, rfl, hl, hr⟩ := red_node hor hor'
            refine ⟨.inr (.node pc (.node .black node pd ol) od
              (.node .black l a r)), ?_, ?_⟩
            · simp [rbEraseBlackOther, rbRotateLeft, bind, Except.bind]
            · exact ⟨by simp [Frame.join],
                recolour (.black hn hol) (.black hl hr)⟩
    | right =>
        cases hol' : rbIsRedNode ol with
        | false =>
            cases hor' : rbIsRedNode or with
            | false =>
                refine ⟨.inl (.node pc (.node .red ol od or) pd node), ?_, ?_⟩
                · simp [rbEraseBlackOther, hol', hor', bind, Except.bind]
                · exact ⟨rfl, sink (.red (not_red hol hol')
                    (not_red hor hor')) hn⟩
            | true =>
                obtain ⟨l, a, r, rfl, hl, hr⟩ := red_node hor hor'
                refine ⟨.inr (.node pc (.node .black ol od l) a
                  (.node .black r pd node)), ?_, ?_⟩
                · simp [rbEraseBlackOther, hol', rbRotateRight, rbRotateLeft,
                    bind, Except.bind]
                · exact ⟨by simp [Frame.join],
                    recolour (.black hol hl) (.black hr hn)⟩
        | true =>
            obtain ⟨l, a, r, rfl, hl, hr⟩ := red_node hol hol'
            refine ⟨.inr (.node pc (.node .black l a r) od
              (.node .black or pd node)), ?_, ?_⟩
            · simp [rbEraseBlackOther, rbRotateRight, bind, Except.bind]
            · exact ⟨by simp [Frame.join],
                recolour (.black hl hr) (.black hor hn)⟩

/-- The erasure loop meets a black sibling: one repair, then either the
climb goes on from a shorter path or the tree is whole. -/
private theorem erase_black_sibling {parent : Frame α} {path : Path α}
    {node t : BinTree α} {n : Nat} {res : BinTree α ⊕ BinTree α}
    (hstep : EraseStep parent node parent.sibling n res)
    (hred : parent.color = .red → Hole path .red (n + 1))
    (hblack : parent.color = .black → Hole path .black (n + 2))
    (ht : res = .inr t) :
    (rbSetBlackNode (plug t path)).RedBlack
      ∧ (rbSetBlackNode (plug t path)).toList
        = (plug node (parent :: path)).toList := by
  subst ht
  obtain ⟨hl, hr, hb⟩ := hstep
  have hrb : (plug t path).RedBlack := by
    cases hc : parent.color with
    | red => exact (hred hc).plug (hr hc)
    | black => exact (hblack hc).plug (hb hc)
  rw [rbSetBlackNode_of_redBlack hrb]
  exact ⟨hrb, plug_toList_congr path hl⟩

/-- The erasure loop from a subtree one short of its hole. -/
theorem rbEraseColor_spec :
    ∀ (path : Path α) (n : Nat) (node : BinTree α),
      Hole path .black (n + 1) → Short node n →
      ∃ t, rbEraseColor node path = .ok t ∧ t.RedBlack
        ∧ t.toList = (plug node path).toList
  | [], n, node, _, hn => by
      refine ⟨rbSetBlackNode node, rfl, ?_, by simp [plug]⟩
      rcases hn with hn | hn
      · rw [rbSetBlackNode_of_redBlack ⟨n, hn⟩]
        exact ⟨n, hn⟩
      · exact ⟨_, hn.blacken⟩
  | parent :: path, n, node, hp, .inr hn => by
      -- a red node takes the missing black itself
      refine ⟨plug (rbSetBlackNode node) (parent :: path), ?_, ?_, ?_⟩
      · simp [rbEraseColor, hn.isRed]
      · exact hp.plug hn.blacken
      · exact plug_toList_congr _ (by simp)
  | parent :: path, n, node, hp, .inl hn => by
      have hnr : rbIsRedNode node = false := rbIsRedNode_of_black hn
      obtain ⟨side, pc, pd, s⟩ := parent
      cases hs' : rbIsRedNode s with
      | false =>
          -- black sibling: repair here, or climb
          obtain ⟨hsb, hred, hblack⟩ : s.Balanced .black (n + 1)
              ∧ (pc = .red → Hole path .red (n + 1))
              ∧ (pc = .black → Hole path .black (n + 2)) := by
            cases hp with
            | red hs hrest => exact ⟨hs, fun _ => hrest, fun h => (by cases h)⟩
            | black hs hrest => exact ⟨not_red hs hs', fun h => (by cases h), fun _ => hrest⟩
          have hsr : rbIsRed s = .ok false := by
            cases hsb
            rfl
          obtain ⟨res, hres, hstep⟩ :=
            rbEraseBlackOther_spec ⟨side, pc, pd, s⟩ hn hsb
          cases res with
          | inr t =>
              obtain ⟨hrb, hlist⟩ :=
                erase_black_sibling hstep hred hblack rfl
              refine ⟨_, ?_, hrb, hlist⟩
              simp [rbEraseColor, hnr, hsr, hres, bind, Except.bind]
          | inl t =>
              obtain ⟨hlist, hr, hb⟩ := hstep
              obtain ⟨m, hole, hshort⟩ :
                  ∃ m, Hole path .black (m + 1) ∧ Short t m := by
                cases pc with
                | red => exact ⟨n, (hred rfl).to_black, .inr (hr rfl)⟩
                | black => exact ⟨n + 1, hblack rfl, .inl (hb rfl)⟩
              obtain ⟨t', ht', hrb, hl'⟩ :=
                rbEraseColor_spec path m t hole hshort
              refine ⟨t', ?_, hrb, ?_⟩
              · simpa [rbEraseColor, hnr, hsr, hres, bind, Except.bind]
                  using ht'
              · rw [hl']
                exact plug_toList_congr path hlist
      | true =>
          -- red sibling: it rises above the parent, which turns red
          cases hp with
          | red hs hrest =>
              rw [rbIsRedNode_of_black hs] at hs'
              cases hs'
          | black hs hrest =>
              obtain ⟨ol, od, or, rfl, hol, hor⟩ := red_node hs hs'
              cases side with
              | left =>
                  have houter : Hole (⟨.left, .black, od, or⟩ :: path)
                      .red (n + 1) := .black hor hrest
                  obtain ⟨res, hres, hstep⟩ := rbEraseBlackOther_spec
                    ⟨.left, .red, pd, .node .red ol od or⟩ hn hol
                  cases res with
                  | inl t =>
                      obtain ⟨hlist, hr, -⟩ := hstep
                      refine ⟨_, ?_,
                        houter.to_black.plug (hr rfl).blacken, ?_⟩
                      · simp [rbEraseColor, hnr, hres, rbIsRed, bind,
                          Except.bind]
                      · rw [plug_toList, plug_toList]
                        simp [hlist, Frame.join]
                  | inr t =>
                      obtain ⟨hlist, hr, -⟩ := hstep
                      have hrb := houter.plug (hr rfl)
                      refine ⟨_, ?_, hrb, ?_⟩
                      · simp [rbEraseColor, hnr, hres, rbIsRed, bind,
                          Except.bind, rbSetBlackNode_of_redBlack hrb]
                      · rw [plug_toList, plug_toList]
                        simp [hlist, Frame.join]
              | right =>
                  have houter : Hole (⟨.right, .black, od, ol⟩ :: path)
                      .red (n + 1) := .black hol hrest
                  obtain ⟨res, hres, hstep⟩ := rbEraseBlackOther_spec
                    ⟨.right, .red, pd, .node .red ol od or⟩ hn hor
                  cases res with
                  | inl t =>
                      obtain ⟨hlist, hr, -⟩ := hstep
                      refine ⟨_, ?_,
                        houter.to_black.plug (hr rfl).blacken, ?_⟩
                      · simp [rbEraseColor, hnr, hres, rbIsRed, bind,
                          Except.bind]
                      · rw [plug_toList, plug_toList]
                        simp [hlist, Frame.join]
                  | inr t =>
                      obtain ⟨hlist, hr, -⟩ := hstep
                      have hrb := houter.plug (hr rfl)
                      refine ⟨_, ?_, hrb, ?_⟩
                      · simp [rbEraseColor, hnr, hres, rbIsRed, bind,
                          Except.bind, rbSetBlackNode_of_redBlack hrb]
                      · rw [plug_toList, plug_toList]
                        simp [hlist, Frame.join]

-- ==================================================== leftmost, erase

/-- The walk to the left stays in the same tree. -/
theorem rbLeftmost_root (c : Color) (l : BinTree α) (a : α) (r : BinTree α)
    (path : Path α) :
    (rbLeftmost c l a r path).root = plug (.node c l a r) path := by
  induction l generalizing c a r path with
  | nil => rfl
  | node lc ll la lr ih _ =>
      rw [rbLeftmost, ih]
      rfl

theorem rbLeftmost_left (c : Color) (l : BinTree α) (a : α) (r : BinTree α)
    (path : Path α) : (rbLeftmost c l a r path).left = .nil := by
  induction l generalizing c a r path with
  | nil => rfl
  | node lc ll la lr ih _ =>
      rw [rbLeftmost]
      exact ih ..

/-- The frames the walk adds lie below the frames it started under. -/
theorem rbLeftmost_path_append (c : Color) (l : BinTree α) (a : α)
    (r : BinTree α) (p q : Path α) :
    rbLeftmost c l a r (p ++ q)
      = { rbLeftmost c l a r p with
          path := (rbLeftmost c l a r p).path ++ q } := by
  induction l generalizing c a r p with
  | nil => rfl
  | node lc ll la lr ih _ =>
      rw [rbLeftmost, rbLeftmost, ← List.cons_append, ih]

/-- Nothing of the tree comes before its leftmost node. -/
theorem rbLeftmost_before (c : Color) (l : BinTree α) (a : α) (r : BinTree α)
    (path : Path α) :
    (rbLeftmost c l a r path).before = Path.before path := by
  induction l generalizing c a r path with
  | nil => simp [rbLeftmost, Loc.before]
  | node lc ll la lr ih _ =>
      rw [rbLeftmost, ih]
      rfl

/-- The leftmost node of a subtree, seen under any path `p`: the same
tree, no left child, and the subtree's contents begin with its data. -/
theorem rbLeftmost_split (c : Color) (l : BinTree α) (a : α) (r : BinTree α)
    (p : Path α) {s : Loc α} (hs : rbLeftmost c l a r [] = s) :
    plug (.node s.color s.left s.data s.right) (s.path ++ p)
        = plug (.node c l a r) p
      ∧ s.left = .nil
      ∧ Path.before (s.path ++ p) = Path.before p
      ∧ s.data :: s.right.toList ++ Path.after (s.path ++ p)
        = l.toList ++ a :: r.toList ++ Path.after p := by
  have hmost := rbLeftmost_path_append c l a r [] p
  rw [List.nil_append, hs] at hmost
  have hroot := rbLeftmost_root c l a r p
  have hleft := rbLeftmost_left c l a r p
  have hbef := rbLeftmost_before c l a r p
  rw [hmost] at hroot hleft hbef
  simp only [Loc.root, Loc.subtree, Loc.before] at hroot hleft hbef
  rw [hleft, toList_nil, List.append_nil] at hbef
  refine ⟨hroot, hleft, hbef, ?_⟩
  have hlist := congrArg BinTree.toList hroot
  rw [plug_toList, plug_toList, hbef, hleft] at hlist
  simpa using hlist

/-- Unlinking a node with at most one child: the child moves up, and a
lost black node is repaired. -/
private theorem unlink_spec {c : Color} {l r child : BinTree α} {a : α}
    {path : Path α} (h : (plug (.node c l a r) path).RedBlack)
    (hc : (l = .nil ∧ child = r) ∨ (r = .nil ∧ child = l)) :
    ∃ t, (match c with
        | .black => rbEraseColor child path
        | .red => .ok (plug child path)) = .ok t
      ∧ t.RedBlack ∧ t.toList = (plug child path).toList := by
  obtain ⟨c', n, hole, hb⟩ := exists_hole h
  cases hb with
  | red hl hr =>
      refine ⟨_, rfl, hole.to_black.plug (n := n) ?_, rfl⟩
      rcases hc with ⟨-, rfl⟩ | ⟨-, rfl⟩
      · exact hr
      · exact hl
  | black hl hr =>
      refine rbEraseColor_spec path _ child hole ?_
      rcases hc with ⟨-, rfl⟩ | ⟨-, rfl⟩
      · exact short_of_balanced hr
      · exact short_of_balanced hl

/-- Erasing a node of a red-black tree drops exactly that node. -/
theorem rbErase_spec {node : Loc α} (h : node.root.RedBlack) :
    ∃ t, rbErase node = .ok t ∧ t.RedBlack
      ∧ t.toList = node.before ++ node.after := by
  obtain ⟨c, l, a, r, path⟩ := node
  cases l with
  | nil =>
      obtain ⟨t, ht, hrb, hl⟩ := unlink_spec h (.inl ⟨rfl, rfl⟩)
      refine ⟨t, ?_, hrb, ?_⟩
      · cases r <;> exact ht
      · rw [hl, plug_toList]
        simp [Loc.before, Loc.after]
  | node lc ll la lr =>
      cases r with
      | nil =>
          obtain ⟨t, ht, hrb, hl⟩ := unlink_spec h (.inr ⟨rfl, rfl⟩)
          refine ⟨t, ht, hrb, ?_⟩
          rw [hl, plug_toList]
          simp [Loc.before, Loc.after]
      | node rc rl ra rr =>
          cases hs : rbLeftmost rc rl ra rr ([] : Path α) with
          | mk sc sl sa sr sp =>
          -- the successor, seen under the frame that already holds its data
          obtain ⟨hroot, hleft, hbef, haft⟩ := rbLeftmost_split rc rl ra rr
            (⟨.right, c, sa, .node lc ll la lr⟩ :: path) hs
          have hrb' : (plug (.node sc sl sa sr)
              (sp ++ ⟨.right, c, sa, .node lc ll la lr⟩ :: path)).RedBlack := by
            rw [hroot]
            exact Loc.setData_redBlack sa h
          obtain ⟨t, ht, hrb, hl⟩ := unlink_spec hrb' (.inl ⟨hleft, rfl⟩)
          refine ⟨t, ?_, hrb, ?_⟩
          · simp only [rbErase, hs]
            exact ht
          · rw [hl, plug_toList, hbef]
            simp only [Loc.before, Loc.after, before_right, after_right,
              toList_node] at haft ⊢
            rw [← haft]
            simp

-- ============================================================ traversal

/-- `cceph_rb_first` points at the first of the contents. -/
theorem rbFirst_spec (t : BinTree α) :
    match rbFirst t with
    | none => t.toList = []
    | some node => node.root = t ∧ node.before = [] := by
  cases t with
  | nil => rfl
  | node c l a r => exact ⟨rbLeftmost_root .., rbLeftmost_before ..⟩

theorem rbNextUp_spec (t : BinTree α) (path : Path α) :
    match rbNextUp t path with
    | none => Path.after path = []
    | some node => node.root = plug t path
        ∧ Path.after path = node.data :: node.after
        ∧ node.before = Path.before path ++ t.toList := by
  induction path generalizing t with
  | nil => rfl
  | cons f path ih =>
      obtain ⟨side, c, a, s⟩ := f
      cases side with
      | left => exact ⟨rfl, rfl, rfl⟩
      | right =>
          have h := ih (Frame.join ⟨.right, c, a, s⟩ t)
          simp only [rbNextUp]
          revert h
          cases rbNextUp (Frame.join ⟨.right, c, a, s⟩ t) path with
          | none => exact id
          | some node =>
              rintro ⟨h1, h2, h3⟩
              refine ⟨h1, h2, ?_⟩
              rw [h3]
              simp [Frame.join]

/-- `cceph_rb_next` moves to the next of the contents, and is NULL at
the last. -/
theorem rbNext_spec (node : Loc α) :
    match rbNext node with
    | none => node.after = []
    | some next => next.root = node.root
        ∧ node.after = next.data :: next.after
        ∧ next.before = node.before ++ [node.data] := by
  obtain ⟨c, l, a, r, path⟩ := node
  cases r with
  | nil =>
      have h := rbNextUp_spec (.node c l a .nil) path
      simp only [rbNext, Loc.subtree]
      revert h
      cases rbNextUp (.node c l a .nil) path with
      | none => exact id
      | some next =>
          rintro ⟨h1, h2, h3⟩
          refine ⟨h1, h2, ?_⟩
          rw [h3]
          simp [Loc.before]
  | node rc rl ra rr =>
      have hroot := rbLeftmost_root rc rl ra rr (⟨.right, c, a, l⟩ :: path)
      have hbef := rbLeftmost_before rc rl ra rr (⟨.right, c, a, l⟩ :: path)
      refine ⟨hroot, ?_, ?_⟩
      · have hlist := congrArg BinTree.toList hroot
        rw [Loc.root_toList, hbef, plug_toList] at hlist
        simpa [Loc.after] using hlist.symm
      · rw [hbef]
        simp [Loc.before]

end CephInC
