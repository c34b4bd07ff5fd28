/-
Trees in memory, and what the accesses of `rbtree.c` do to them.

`Sub nodes t parent` says that the tree `t` of addresses lies in memory
under `parent`, and `Above m p child` that the path `p` does, with
`child` where its hole is. A tree is cut at a position into these two
(`holds_plug`), and every write touches one node, so it leaves alone
whatever does not have that address.
-/
import CephInC.Common.Proofs.Rbtree
import CephInC.Common.RbHeap
import Mathlib.Data.List.Nodup

namespace CephInC

open Lib

namespace RbHeap

-- ====================================================== the packed word

/-- The bit of a colour. -/
def colorBit : Color → BitVec 64
  | .red => CCEPH_RB_RED
  | .black => CCEPH_RB_BLACK

/-- The two lowest bits are free. -/
def Aligned (p : NodePtr) : Prop := p &&& 3#64 = 0#64

theorem aligned_zero : Aligned 0 := rfl

theorem aligned_parent {p : NodePtr} (h : Aligned p) : p &&& ~~~3#64 = p := by
  have hsplit : p &&& (3#64 ||| ~~~3#64) = p := by
    rw [show (3#64 ||| ~~~3#64) = BitVec.allOnes 64 by decide, BitVec.and_allOnes]
  rw [BitVec.and_or_distrib_left, h, BitVec.zero_or] at hsplit
  exact hsplit

theorem aligned_color {p : NodePtr} (h : Aligned p) : p &&& 1#64 = 0#64 := by
  rw [show (1#64) = 3#64 &&& 1#64 by decide, ← BitVec.and_assoc, h, BitVec.zero_and]

variable {n : RbNode} {p : NodePtr}

theorem parent_withParent (h : Aligned p) : (n.withParent p).parent = p := by
  show ((n.rbParentColor &&& 3#64) ||| p) &&& ~~~3#64 = p
  rw [BitVec.and_or_distrib_right, BitVec.and_assoc, show (3#64 &&& ~~~3#64) = 0#64 by decide,
    BitVec.and_zero, BitVec.zero_or, aligned_parent h]

theorem color_withParent (h : Aligned p) : (n.withParent p).color = n.color := by
  show ((n.rbParentColor &&& 3#64) ||| p) &&& 1#64 = n.rbParentColor &&& 1#64
  rw [BitVec.and_or_distrib_right, BitVec.and_assoc, aligned_color h, BitVec.or_zero,
    show (3#64 &&& 1#64) = 1#64 by decide]

theorem parent_withColor (c : Color) : (n.withColor (colorBit c)).parent = n.parent := by
  show ((n.rbParentColor &&& ~~~1#64) ||| colorBit c) &&& ~~~3#64 = n.rbParentColor &&& ~~~3#64
  rw [BitVec.and_or_distrib_right, BitVec.and_assoc, show (~~~1#64 &&& ~~~3#64) = ~~~3#64 by decide,
    show colorBit c &&& ~~~3#64 = 0#64 by cases c <;> decide, BitVec.or_zero]

theorem color_withColor (c : Color) : (n.withColor (colorBit c)).color = colorBit c := by
  show ((n.rbParentColor &&& ~~~1#64) ||| colorBit c) &&& 1#64 = colorBit c
  rw [BitVec.and_or_distrib_right, BitVec.and_assoc, show (~~~1#64 &&& 1#64) = 0#64 by decide,
    BitVec.and_zero, BitVec.zero_or]
  cases c <;> decide

theorem withRed_eq (n : RbNode) : n.withRed = n.withColor (colorBit .red) := by
  unfold RbNode.withRed RbNode.withColor
  rw [show colorBit .red = 0#64 from rfl, BitVec.or_zero]

theorem or_cleared (x b : BitVec 64) : (x &&& ~~~b) ||| b = x ||| b := by
  refine BitVec.eq_of_getElem_eq fun i hi => ?_
  rw [BitVec.getElem_or, BitVec.getElem_or, BitVec.getElem_and, BitVec.getElem_not]
  cases x[i] <;> cases b[i] <;> rfl

theorem withBlack_eq (n : RbNode) : n.withBlack = n.withColor (colorBit .black) := by
  unfold RbNode.withBlack RbNode.withColor
  rw [show colorBit .black = 1#64 from rfl, or_cleared]

theorem isRed_of_color {c : Color} (h : n.color = colorBit c) : n.isRed = decide (c = .red) := by
  unfold RbNode.isRed
  rw [h]
  cases c <;> decide

-- ================================================================= sides

/-- The other side. -/
def other : Side → Side
  | .left => .right
  | .right => .left

/-- The child on a side. -/
def child (s : Side) (n : RbNode) : NodePtr :=
  match s with
  | .left => n.rbLeft
  | .right => n.rbRight

/-- The node with another child on a side. -/
def withChild (s : Side) (n : RbNode) (q : NodePtr) : RbNode :=
  match s with
  | .left => { n with rbLeft := q }
  | .right => { n with rbRight := q }

@[simp] theorem other_other (s : Side) : other (other s) = s := by cases s <;> rfl

@[simp] theorem child_withChild (s : Side) (n : RbNode) (q : NodePtr) :
    child s (withChild s n q) = q := by cases s <;> rfl

@[simp] theorem child_other_withChild (s : Side) (n : RbNode) (q : NodePtr) :
    child (other s) (withChild s n q) = child (other s) n := by cases s <;> rfl

@[simp] theorem child_withParent (s : Side) (n : RbNode) (q : NodePtr) :
    child s (n.withParent q) = child s n := by cases s <;> rfl

@[simp] theorem child_withColor (s : Side) (n : RbNode) (q : BitVec 64) :
    child s (n.withColor q) = child s n := by cases s <;> rfl

@[simp] theorem color_withChild (s : Side) (n : RbNode) (q : NodePtr) :
    (withChild s n q).color = n.color := by cases s <;> rfl

@[simp] theorem parent_withChild (s : Side) (n : RbNode) (q : NodePtr) :
    (withChild s n q).parent = n.parent := by cases s <;> rfl

-- ====================================================== trees in memory

/-- The address of a tree's root, NULL for the empty tree. -/
def addr : BinTree NodePtr → NodePtr
  | .nil => 0
  | .node _ _ a _ => a

@[simp] theorem addr_join (f : Frame NodePtr) (t : BinTree NodePtr) :
    addr (f.join t) = f.data := by
  unfold Frame.join
  cases f.side <;> rfl

theorem node_mem (c : Color) (l r : BinTree NodePtr) (a : NodePtr) :
    a ∈ (BinTree.node c l a r).toList := List.mem_append_right _ List.mem_cons_self

theorem join_mem (f : Frame NodePtr) (s : BinTree NodePtr) :
    addr (f.join s) ∈ (f.join s).toList := by
  unfold Frame.join
  cases f.side with
  | left => exact node_mem _ _ _ _
  | right => exact node_mem _ _ _ _

/-- An address that a tree does not have is not its root's. -/
theorem ne_addr {t : BinTree NodePtr} {a : NodePtr} (hnull : a ≠ 0) (h : a ∉ t.toList) :
    a ≠ addr t := by
  cases t with
  | nil => exact hnull
  | node c l b r =>
      rintro rfl
      exact h (List.mem_append_right _ List.mem_cons_self)

/-- The fields of the node at `a`; `x` is its child on the side `s`, and
`y` the other one. -/
def NodeIs (nodes : NodePtr → Option RbNode) (a : NodePtr) (c : Color) (parent : NodePtr)
    (s : Side) (x y : NodePtr) : Prop :=
  ∃ n, nodes a = some n ∧ n.color = colorBit c ∧ n.parent = parent ∧ child s n = x
    ∧ child (other s) n = y

/-- The tree lies in memory under `parent`. -/
def Sub (nodes : NodePtr → Option RbNode) : BinTree NodePtr → NodePtr → Prop
  | .nil, _ => True
  | .node c l a r, parent =>
      NodeIs nodes a c parent .left (addr l) (addr r) ∧ Sub nodes l a ∧ Sub nodes r a

/-- The address of the nearest ancestor, NULL above the root. -/
def parentAddr : Path NodePtr → NodePtr
  | [] => 0
  | f :: _ => f.data

@[simp] theorem parentAddr_cons (f : Frame NodePtr) (p : Path NodePtr) :
    parentAddr (f :: p) = f.data := rfl

/-- The path lies in memory, with `child` where its hole is. -/
def Above (m : RbMem) : Path NodePtr → NodePtr → Prop
  | [], child => m.rbNode = child
  | f :: p, child =>
      NodeIs m.nodes f.data f.color (parentAddr p) f.side child (addr f.sibling)
        ∧ Sub m.nodes f.sibling f.data ∧ Above m p f.data

/-- The nodes of a path: the ancestors, and what hangs beside them. -/
def pathAddrs : Path NodePtr → List NodePtr
  | [] => []
  | f :: p => f.data :: (f.sibling.toList ++ pathAddrs p)

/-- The tree is in memory, at aligned addresses. -/
structure Holds (m : RbMem) (t : BinTree NodePtr) : Prop where
  root : m.rbNode = addr t
  sub : Sub m.nodes t 0
  distinct : t.toList.Nodup
  addrs : ∀ a ∈ t.toList, a ≠ 0 ∧ Aligned a

variable {nodes nodes' : NodePtr → Option RbNode} {m m' : RbMem}

theorem NodeIs.flip {a parent x y : NodePtr} {c : Color} {s : Side}
    (h : NodeIs nodes a c parent s x y) : NodeIs nodes a c parent (other s) y x := by
  obtain ⟨n, hn, hc, hp, hx, hy⟩ := h
  exact ⟨n, hn, hc, hp, hy, by rw [other_other]; exact hx⟩

theorem Sub.congr {t : BinTree NodePtr} : ∀ {parent : NodePtr}, Sub nodes t parent →
    (∀ a ∈ t.toList, nodes' a = nodes a) → Sub nodes' t parent := by
  induction t with
  | nil => exact fun _ _ => trivial
  | node c l a r ihl ihr =>
      intro parent ⟨⟨n, hn, hfields⟩, hl, hr⟩ hsame
      rw [toList_node] at hsame
      refine ⟨⟨n, ?_, hfields⟩, ihl hl fun b hb => hsame b (List.mem_append_left _ hb),
        ihr hr fun b hb =>
          hsame b (List.mem_append_right _ (List.mem_cons_of_mem a hb))⟩
      rw [hsame a (List.mem_append_right _ List.mem_cons_self), hn]

theorem Above.congr {p : Path NodePtr} : ∀ {child : NodePtr}, Above m p child →
    m'.rbNode = m.rbNode → (∀ a ∈ pathAddrs p, m'.nodes a = m.nodes a) → Above m' p child := by
  induction p with
  | nil => exact fun h hroot _ => hroot.trans h
  | cons f p ih =>
      intro child ⟨hf, hsib, hrest⟩ hroot hsame
      have hdata : m'.nodes f.data = m.nodes f.data := hsame _ List.mem_cons_self
      refine ⟨?_, hsib.congr fun a ha =>
        hsame a (List.mem_cons_of_mem _ (List.mem_append_left _ ha)), ih hrest hroot fun a ha =>
        hsame a (List.mem_cons_of_mem _ (List.mem_append_right _ ha))⟩
      unfold NodeIs at hf ⊢
      rw [hdata]
      exact hf

/-- A tree in memory is a subtree in memory and the path above it. -/
theorem holds_plug (p : Path NodePtr) : ∀ t : BinTree NodePtr,
    (m.rbNode = addr (plug t p) ∧ Sub m.nodes (plug t p) 0)
      ↔ Above m p (addr t) ∧ Sub m.nodes t (parentAddr p) := by
  induction p with
  | nil => exact fun t => Iff.rfl
  | cons f p ih =>
      intro t
      rw [plug, ih]
      obtain ⟨side, c, a, s⟩ := f
      cases side with
      | left =>
          constructor
          · rintro ⟨habove, hnode, hl, hr⟩
            exact ⟨⟨hnode, hr, habove⟩, hl⟩
          · rintro ⟨⟨hnode, hr, habove⟩, hl⟩
            exact ⟨habove, hnode, hl, hr⟩
      | right =>
          constructor
          · rintro ⟨habove, hnode, hl, hr⟩
            exact ⟨⟨hnode.flip, hl, habove⟩, hr⟩
          · rintro ⟨⟨hnode, hl, habove⟩, hr⟩
            exact ⟨habove, hnode.flip, hl, hr⟩

/-- The nodes of a tree are those of a subtree and of the path above it. -/
theorem plug_perm (p : Path NodePtr) : ∀ t : BinTree NodePtr,
    (plug t p).toList.Perm (t.toList ++ pathAddrs p) := by
  induction p with
  | nil =>
      intro t
      rw [pathAddrs, List.append_nil]
      exact List.Perm.refl _
  | cons f p ih =>
      intro t
      refine (ih (f.join t)).trans ?_
      obtain ⟨side, c, a, s⟩ := f
      show (_ ++ pathAddrs p).Perm (t.toList ++ (a :: (s.toList ++ pathAddrs p)))
      cases side with
      | left =>
          show ((t.toList ++ a :: s.toList) ++ pathAddrs p).Perm _
          rw [List.append_assoc, List.cons_append]
      | right =>
          show ((s.toList ++ a :: t.toList) ++ pathAddrs p).Perm _
          rw [← List.cons_append, ← List.append_assoc]
          refine List.Perm.append_right _ ?_
          refine List.Perm.trans ?_ List.perm_middle.symm
          exact List.perm_middle.trans (List.Perm.cons a List.perm_append_comm)

/-- What `Holds` says at a position. -/
structure Cut (m : RbMem) (t : BinTree NodePtr) (p : Path NodePtr) : Prop where
  above : Above m p (addr t)
  sub : Sub m.nodes t (parentAddr p)
  distinct : (t.toList ++ pathAddrs p).Nodup
  addrs : ∀ a ∈ t.toList ++ pathAddrs p, a ≠ 0 ∧ Aligned a

theorem holds_cut {t : BinTree NodePtr} {p : Path NodePtr} : Holds m (plug t p) ↔ Cut m t p := by
  have hperm := plug_perm p t
  constructor
  · intro h
    obtain ⟨habove, hsub⟩ := (holds_plug p t).mp ⟨h.root, h.sub⟩
    exact ⟨habove, hsub, hperm.nodup_iff.mp h.distinct,
      fun a ha => h.addrs a (hperm.mem_iff.mpr ha)⟩
  · intro h
    obtain ⟨hroot, hsub⟩ := (holds_plug p t).mpr ⟨h.above, h.sub⟩
    exact ⟨hroot, hsub, hperm.nodup_iff.mpr h.distinct,
      fun a ha => h.addrs a (hperm.mem_iff.mp ha)⟩

theorem Sub.there {t : BinTree NodePtr} : ∀ {parent : NodePtr}, Sub nodes t parent →
    ∀ a ∈ t.toList, (nodes a).isSome = true := by
  induction t with
  | nil => exact fun _ _ ha => by cases ha
  | node c l a r ihl ihr =>
      intro parent ⟨⟨n, hn, _⟩, hl, hr⟩ b hb
      rw [toList_node, List.mem_append, List.mem_cons] at hb
      rcases hb with hb | rfl | hb
      · exact ihl hl b hb
      · rw [hn]
        rfl
      · exact ihr hr b hb

/-- Only nodes of `t` change, and none comes or goes. -/
structure Confined (t : BinTree NodePtr) (m m' : RbMem) : Prop where
  same : ∀ b, b ∉ t.toList → m'.nodes b = m.nodes b
  there : ∀ b, (m'.nodes b).isSome = (m.nodes b).isSome

/-- A change that only the tree it leads to can see. -/
theorem Holds.confined {t t' : BinTree NodePtr} (h : Holds m t) (h' : Holds m' t')
    (hsub : t'.toList ⊆ t.toList) (hsame : ∀ b, b ∉ t'.toList → m'.nodes b = m.nodes b) :
    Confined t m m' where
  same b hb := hsame b fun hin => hb (hsub hin)
  there b := by
    by_cases hb : b ∈ t'.toList
    · rw [h'.sub.there b hb, h.sub.there b (hsub hb)]
    · rw [hsame b hb]

theorem parentAddr_aligned {t : BinTree NodePtr} {p : Path NodePtr} (h : Cut m t p) :
    Aligned (parentAddr p) := by
  cases p with
  | nil => exact aligned_zero
  | cons f p => exact (h.addrs f.data (List.mem_append_right _ List.mem_cons_self)).2

-- ============================================================ accesses

/-- The memory after a write to the node at `a`. -/
def write (nodes : NodePtr → Option RbNode) (a : NodePtr) (f : RbNode → RbNode) :
    NodePtr → Option RbNode :=
  Function.update nodes a ((nodes a).map f)

theorem write_ne {a b : NodePtr} {f : RbNode → RbNode} (h : b ≠ a) : write nodes a f b = nodes b :=
  Function.update_of_ne h _ _

theorem write_some {a : NodePtr} {f : RbNode → RbNode} (h : nodes a = some n) :
    write nodes a f a = some (f n) := by
  rw [write, Function.update_self, h]
  rfl

theorem get_run {a : NodePtr} (h : m.nodes a = some n) : get a m = .ok (n, m) := by
  unfold get
  rw [h]

theorem modify_run {a : NodePtr} {f : RbNode → RbNode} (h : m.nodes a = some n) :
    modify a f m = .ok ((), { m with nodes := write m.nodes a f }) := by
  unfold modify write
  rw [h]
  rfl

section
variable {a b parent x y q : NodePtr} {c : Color} {s : Side} {f : RbNode → RbNode}

theorem NodeIs.run (h : NodeIs m.nodes a c parent s x y) :
    modify a f m = .ok ((), { m with nodes := write m.nodes a f }) := by
  obtain ⟨n, hn, -⟩ := h
  exact modify_run hn

theorem NodeIs.congr (h : NodeIs nodes a c parent s x y) (hsame : nodes' a = nodes a) :
    NodeIs nodes' a c parent s x y := by
  obtain ⟨n, hn, hfields⟩ := h
  exact ⟨n, hsame.trans hn, hfields⟩

theorem NodeIs.setChild (h : NodeIs nodes a c parent s x y) :
    NodeIs (write nodes a fun n => withChild s n q) a c parent s q y := by
  obtain ⟨n, hn, hc, hp, -, hy⟩ := h
  exact ⟨_, write_some hn, by rw [color_withChild, hc], by rw [parent_withChild, hp],
    child_withChild s n q, by rw [child_other_withChild, hy]⟩

theorem NodeIs.setParent (h : NodeIs nodes a c parent s x y) (hq : Aligned q) :
    NodeIs (write nodes a fun n => n.withParent q) a c q s x y := by
  obtain ⟨n, hn, hc, -, hx, hy⟩ := h
  exact ⟨_, write_some hn, (color_withParent hq).trans hc, parent_withParent hq,
    by rw [child_withParent, hx], by rw [child_withParent, hy]⟩

theorem NodeIs.setColor (h : NodeIs nodes a c parent s x y) (c' : Color) :
    NodeIs (write nodes a fun n => n.withColor (colorBit c')) a c' parent s x y := by
  obtain ⟨n, hn, -, hp, hx, hy⟩ := h
  exact ⟨_, write_some hn, color_withColor c', (parent_withColor c').trans hp,
    by rw [child_withColor, hx], by rw [child_withColor, hy]⟩

end

-- =================================================== pieces of a rotation

/-- `setLeft` and `setRight`. -/
def setChild (s : Side) (p q : NodePtr) : Prog RbMem Unit := modify p fun n => withChild s n q

/-- `relinkLeft` and `relinkRight`. -/
def relink (s : Side) (parent node child' : NodePtr) : Prog RbMem Unit :=
  if parent = 0 then setRoot child'
  else do
    let p ← get parent
    if child s p = node then setChild s parent child' else setChild (other s) parent child'

/-- `if (t) cceph_rb_set_parent(t, q)`. -/
def reparent (t q : NodePtr) : Prog RbMem Unit := if t = 0 then return () else setParent t q

/-- Both rotations: `s` is the side the node goes down on. -/
def rotate (s : Side) (node : NodePtr) : Prog RbMem Unit := do
  let n ← get node
  let up := child (other s) n
  let u ← get up
  setChild (other s) node (child s u)
  reparent (child s u) node
  setChild s up node
  setParent up n.parent
  relink s n.parent node up
  setParent node up

theorem relinkLeft_eq (parent node child' : NodePtr) :
    relinkLeft parent node child' = relink .left parent node child' := rfl

/-- A subtree under another parent. -/
theorem reparent_run {t : BinTree NodePtr} {parent q : NodePtr} (h : Sub m.nodes t parent)
    (hdist : t.toList.Nodup) (hnull : ∀ a ∈ t.toList, a ≠ 0) (hq : Aligned q) :
    ∃ m', reparent (addr t) q m = .ok ((), m') ∧ Sub m'.nodes t q ∧ m'.rbNode = m.rbNode
      ∧ ∀ b, b ∉ t.toList → m'.nodes b = m.nodes b := by
  cases t with
  | nil => exact ⟨m, rfl, trivial, rfl, fun _ _ => rfl⟩
  | node c l a r =>
      obtain ⟨hnode, hl, hr⟩ := h
      have hmem : a ∈ (BinTree.node c l a r).toList := List.mem_append_right _ List.mem_cons_self
      rw [toList_node, List.nodup_middle, List.nodup_cons] at hdist
      have hla : a ∉ l.toList := fun h => hdist.1 (List.mem_append_left _ h)
      have hra : a ∉ r.toList := fun h => hdist.1 (List.mem_append_right _ h)
      have hrun : reparent a q m
          = .ok ((), { m with nodes := write m.nodes a fun n => n.withParent q }) := by
        unfold reparent
        rw [if_neg (hnull a hmem)]
        exact hnode.run
      refine ⟨_, hrun, ⟨hnode.setParent hq, ?_, ?_⟩, rfl, ?_⟩
      · exact hl.congr fun b hb => write_ne fun heq => hla (heq ▸ hb)
      · exact hr.congr fun b hb => write_ne fun heq => hra (heq ▸ hb)
      · exact fun b hb => write_ne fun heq => hb (heq ▸ hmem)

/-- Another child where the path ends. -/
theorem relink_run {p : Path NodePtr} {node node' : NodePtr} (s : Side) (h : Above m p node)
    (hnode : node ≠ 0 ∧ node ∉ pathAddrs p) (hdist : (pathAddrs p).Nodup)
    (hnull : ∀ a ∈ pathAddrs p, a ≠ 0) :
    ∃ m', relink s (parentAddr p) node node' m = .ok ((), m') ∧ Above m' p node'
      ∧ ∀ b, b ∉ pathAddrs p → m'.nodes b = m.nodes b := by
  cases p with
  | nil => exact ⟨_, rfl, rfl, fun _ _ => rfl⟩
  | cons f p =>
      obtain ⟨hf, hsib, hrest⟩ := h
      obtain ⟨hfout, hpdist⟩ := List.nodup_cons.mp hdist
      have hwrite : ∃ m', relink s f.data node node' m = .ok ((), m')
          ∧ m' = { m with nodes := write m.nodes f.data fun n => withChild f.side n node' } := by
        obtain ⟨n, hn, hc, hp, hx, hy⟩ := hf
        refine ⟨_, ?_, rfl⟩
        unfold relink
        rw [if_neg (hnull f.data List.mem_cons_self), bind_ok (get_run hn)]
        by_cases hs : s = f.side
        · rw [hs, if_pos hx]
          exact modify_run hn
        · have hside : other s = f.side := by
            cases s <;> cases hfs : f.side <;> simp_all [other]
          have hother : s = other f.side := by rw [← hside, other_other]
          have hne : child s n ≠ node := by
            rw [hother, hy]
            refine (ne_addr hnode.1 fun hin => hnode.2 ?_).symm
            exact List.mem_cons_of_mem _ (List.mem_append_left _ hin)
          rw [if_neg hne, hside]
          exact modify_run hn
      obtain ⟨m', hrun, rfl⟩ := hwrite
      refine ⟨_, hrun, ⟨hf.setChild, ?_, ?_⟩, ?_⟩
      · refine hsib.congr fun b hb => write_ne fun heq => hfout ?_
        exact heq ▸ List.mem_append_left _ hb
      · refine hrest.congr rfl fun b hb => write_ne fun heq => hfout ?_
        exact heq ▸ List.mem_append_right _ hb
      · exact fun b hb => write_ne fun heq => hb (heq ▸ List.mem_cons_self)

-- ============================================================ rotations

/-- The pieces around a rotation have no node in common. -/
theorem rotate_apart {t us ns ps : List NodePtr} {up node : NodePtr}
    (h : (t ++ (up :: (us ++ (node :: (ns ++ ps))))).Nodup) :
    node ≠ up ∧ (node ∉ t ∧ node ∉ us ∧ node ∉ ns ∧ node ∉ ps)
      ∧ (up ∉ t ∧ up ∉ us ∧ up ∉ ns ∧ up ∉ ps)
      ∧ (∀ b ∈ t, b ∉ us ∧ b ∉ ns ∧ b ∉ ps) ∧ (∀ b ∈ us, b ∉ ps) ∧ ∀ b ∈ ns, b ∉ ps := by
  simp only [List.nodup_append, List.nodup_cons, List.mem_append, List.mem_cons] at h
  grind

theorem rotate_perm (t us ns ps : List NodePtr) (up node : NodePtr) :
    (t ++ (node :: (ns ++ (up :: (us ++ ps))))).Perm
      (t ++ (up :: (us ++ (node :: (ns ++ ps))))) := by
  rw [List.perm_iff_count]
  intro b
  simp only [List.count_append, List.count_cons]
  omega

/-- A write to one child of a node. -/
theorem setChild_run {a c' parent x y q : NodePtr} {c : Color} {s : Side} (hc' : c' = q)
    (h : NodeIs m.nodes a c parent s x y) :
    ∃ m', setChild s a q m = .ok ((), m') ∧ NodeIs m'.nodes a c parent s c' y
      ∧ m'.rbNode = m.rbNode ∧ ∀ b, b ≠ a → m'.nodes b = m.nodes b :=
  ⟨_, h.run, hc' ▸ h.setChild, rfl, fun _ hb => write_ne hb⟩

theorem setParent_run {a parent x y q : NodePtr} {c : Color} {s : Side} (hq : Aligned q)
    (h : NodeIs m.nodes a c parent s x y) :
    ∃ m', setParent a q m = .ok ((), m') ∧ NodeIs m'.nodes a c q s x y
      ∧ m'.rbNode = m.rbNode ∧ ∀ b, b ≠ a → m'.nodes b = m.nodes b :=
  ⟨_, h.run, h.setParent hq, rfl, fun _ hb => write_ne hb⟩

/-- A subtree under two ancestors on different sides: their order is what
a rotation changes. -/
theorem rotate_cut {t : BinTree NodePtr} {up node : Frame NodePtr} {p : Path NodePtr}
    (h : Cut m t (up :: node :: p)) (hside : node.side = other up.side) :
    ∃ m', rotate up.side node.data m = .ok ((), m') ∧ Cut m' t (node :: up :: p)
      ∧ ∀ b, b ∉ t.toList ++ pathAddrs (up :: node :: p) → m'.nodes b = m.nodes b := by
  obtain ⟨⟨hup, hus, hnode, hns, habove⟩, hsub, hdist, haddrs⟩ := h
  obtain ⟨hne, ⟨hnt, hnus, hnns, hnp⟩, ⟨hut, huus, huns, hup'⟩, htout, husout, hnsout⟩ :=
    rotate_apart hdist
  have hin : ∀ b, b ∈ t.toList ∨ b = up.data ∨ b ∈ up.sibling.toList ∨ b = node.data
      ∨ b ∈ node.sibling.toList ∨ b ∈ pathAddrs p →
      b ∈ t.toList ++ pathAddrs (up :: node :: p) := by
    intro b hb
    simp only [pathAddrs, List.mem_append, List.mem_cons]
    exact hb
  have haup := haddrs up.data (hin _ (.inr (.inl rfl)))
  have hanode := haddrs node.data (hin _ (.inr (.inr (.inr (.inl rfl)))))
  have hap : ∀ b ∈ pathAddrs p, b ≠ 0 ∧ Aligned b := fun b hb =>
    haddrs b (hin _ (.inr (.inr (.inr (.inr (.inr hb))))))
  have hpa : Aligned (parentAddr p) := by
    cases p with
    | nil => exact aligned_zero
    | cons f p => exact (hap f.data List.mem_cons_self).2
  have htdist : t.toList.Nodup := (List.nodup_append.mp hdist).1
  have hpdist : (pathAddrs p).Nodup := by
    refine (List.nodup_append.mp hdist).2.1.sublist ?_
    exact ((List.sublist_append_right _ _).trans (List.sublist_cons_self _ _)).trans
      ((List.sublist_append_right _ _).trans (List.sublist_cons_self _ _))
  obtain ⟨nn, hnn, -, hnparent, hnup, -⟩ := id hnode
  obtain ⟨un, hun, -, -, hut', -⟩ := id hup
  -- the subtree changes hands
  rw [hside] at hnode hnup
  obtain ⟨m₁, hrun₁, hnode₁, hroot₁, hsame₁⟩ := setChild_run rfl hnode
  have hsub₁ : Sub m₁.nodes t up.data := hsub.congr fun b hb => hsame₁ b fun heq => hnt (heq ▸ hb)
  obtain ⟨m₂, hrun₂, hsub₂, hroot₂, hsame₂⟩ := reparent_run hsub₁ htdist
    (fun a ha => (haddrs a (hin _ (.inl ha))).1) hanode.2
  -- the lower ancestor goes up
  have hup₂ : NodeIs m₂.nodes up.data up.color node.data up.side (addr t) (addr up.sibling) :=
    hup.congr ((hsame₂ _ hut).trans (hsame₁ _ hne.symm))
  obtain ⟨m₃, hrun₃, hup₃, hroot₃, hsame₃⟩ := setChild_run rfl hup₂
  obtain ⟨m₄, hrun₄, hup₄, hroot₄, hsame₄⟩ := setParent_run hpa hup₃
  have hsame : ∀ b, b ≠ node.data → b ≠ up.data → b ∉ t.toList → m₄.nodes b = m.nodes b := by
    intro b hbn hbu hbt
    exact (hsame₄ b hbu).trans ((hsame₃ b hbu).trans ((hsame₂ b hbt).trans (hsame₁ b hbn)))
  have habove₄ : Above m₄ p node.data := by
    refine habove.congr ?_ fun b hb => hsame b ?_ ?_ ?_
    · rw [hroot₄, hroot₃, hroot₂, hroot₁]
    · exact fun heq => hnp (heq ▸ hb)
    · exact fun heq => hup' (heq ▸ hb)
    · exact fun hbt => (htout b hbt).2.2 hb
  obtain ⟨m₅, hrun₅, habove₅, hsame₅⟩ := relink_run up.side habove₄ ⟨hanode.1, hnp⟩ hpdist
    fun b hb => (hap b hb).1
  -- and the upper one under it
  have hnode₅ : NodeIs m₅.nodes node.data node.color (parentAddr p) (other up.side) (addr t)
      (addr node.sibling) := by
    refine hnode₁.congr ((hsame₅ _ hnp).trans ?_)
    exact (hsame₄ _ hne).trans ((hsame₃ _ hne).trans (hsame₂ _ hnt))
  obtain ⟨m₆, hrun₆, hnode₆, hroot₆, hsame₆⟩ := setParent_run haup.2 hnode₅
  have hlast : ∀ b, b ≠ node.data → b ≠ up.data → b ∉ t.toList → b ∉ pathAddrs p →
      m₆.nodes b = m.nodes b := fun b hbn hbu hbt hbp =>
    (hsame₆ b hbn).trans ((hsame₅ b hbp).trans (hsame b hbn hbu hbt))
  refine ⟨m₆, ?_, ⟨⟨hside ▸ hnode₆, ?_, ?_, ?_, ?_⟩, ?_, ?_, ?_⟩, ?_⟩
  · unfold rotate
    rw [bind_ok (get_run hnn), hnup, bind_ok (get_run hun), hut', bind_ok hrun₁, bind_ok hrun₂,
      bind_ok hrun₃, hnparent, bind_ok hrun₄, bind_ok hrun₅]
    exact hrun₆
  · refine hns.congr fun b hb => hlast b ?_ ?_ ?_ (hnsout b hb)
    · exact fun heq => hnns (heq ▸ hb)
    · exact fun heq => huns (heq ▸ hb)
    · exact fun hbt => (htout b hbt).2.1 hb
  · exact hup₄.congr ((hsame₆ _ hne.symm).trans (hsame₅ _ hup'))
  · refine hus.congr fun b hb => hlast b ?_ ?_ ?_ (husout b hb)
    · exact fun heq => hnus (heq ▸ hb)
    · exact fun heq => huus (heq ▸ hb)
    · exact fun hbt => (htout b hbt).1 hb
  · exact habove₅.congr hroot₆ fun b hb => hsame₆ b fun heq => hnp (heq ▸ hb)
  · refine hsub₂.congr fun b hb => ?_
    have hbu : b ≠ up.data := fun heq => hut (heq ▸ hb)
    have hbn : b ≠ node.data := fun heq => hnt (heq ▸ hb)
    exact (hsame₆ b hbn).trans ((hsame₅ b (htout b hb).2.2).trans
      ((hsame₄ b hbu).trans (hsame₃ b hbu)))
  · exact (rotate_perm _ _ _ _ _ _).nodup_iff.mpr hdist
  · exact fun b hb => haddrs b ((rotate_perm _ _ _ _ _ _).mem_iff.mp hb)
  · intro b hb
    refine hlast b ?_ ?_ ?_ ?_
    · exact fun heq => hb (hin b (.inr (.inr (.inr (.inl heq)))))
    · exact fun heq => hb (hin b (.inr (.inl heq)))
    · exact fun hbt => hb (hin b (.inl hbt))
    · exact fun hbp => hb (hin b (.inr (.inr (.inr (.inr (.inr hbp))))))

-- ======================================================= trees to trees

section
variable {α β : Type}

/-- From a memory that holds `t`, `x` returns `a` in a memory that holds
`t'`, which has no other nodes; what is outside `t` stays as it is. -/
def Turns (x : Prog RbMem α) (t : BinTree NodePtr) (a : α) (t' : BinTree NodePtr) : Prop :=
  ∀ m, Holds m t → ∃ m', x m = .ok (a, m') ∧ Holds m' t' ∧ t'.toList ⊆ t.toList ∧ Confined t m m'

variable {x : Prog RbMem α} {f : α → Prog RbMem β} {a : α} {b : β} {t t' t'' : BinTree NodePtr}

theorem Turns.pure (a : α) (t : BinTree NodePtr) : Turns (Pure.pure a) t a t :=
  fun m hm => ⟨m, rfl, hm, List.Subset.refl _, fun _ _ => rfl, fun _ => rfl⟩

theorem Turns.bind (hx : Turns x t a t') (hf : Turns (f a) t' b t'') :
    Turns (x >>= f) t b t'' := by
  intro m hm
  obtain ⟨m', hrun, hm', hsub, hsame⟩ := hx m hm
  obtain ⟨m'', hrun', hm'', hsub', hsame'⟩ := hf m' hm'
  refine ⟨m'', (bind_ok hrun).trans hrun', hm'', fun c hc => hsub (hsub' hc), fun c hc => ?_,
    fun c => (hsame'.there c).trans (hsame.there c)⟩
  exact (hsame'.same c fun hin => hc (hsub hin)).trans (hsame.same c hc)

theorem Turns.getRoot (t : BinTree NodePtr) : Turns getRoot t (addr t) t := by
  intro m hm
  refine ⟨m, ?_, hm, List.Subset.refl _, fun _ _ => rfl, fun _ => rfl⟩
  rw [← hm.root]
  rfl

/-- A node is not at NULL. -/
theorem Turns.notNull {c : Color} {l r : BinTree NodePtr} {at' : NodePtr} {p : Path NodePtr}
    (h : at' ≠ 0 → Turns x (plug (.node c l at' r) p) a t') :
    Turns x (plug (.node c l at' r) p) a t' := fun m hm =>
  h ((holds_cut.mp hm).addrs at' (List.mem_append_left _ (node_mem c l r at'))).1 m hm

/-- A node is not its sibling. -/
theorem Turns.besides {s : BinTree NodePtr} {f : Frame NodePtr} {p : Path NodePtr}
    (hs : addr s ∈ s.toList ∨ addr f.sibling ∈ f.sibling.toList)
    (h : addr s ≠ addr f.sibling → Turns x (plug s (f :: p)) a t') :
    Turns x (plug s (f :: p)) a t' := by
  intro m hm
  obtain ⟨-, -, hdist, haddrs⟩ := holds_cut.mp hm
  have happ := (List.nodup_append.mp hdist).2.2
  have hsib : ∀ b ∈ f.sibling.toList, b ∈ pathAddrs (f :: p) := fun b hb =>
    List.mem_cons_of_mem _ (List.mem_append_left _ hb)
  refine h ?_ m hm
  rcases hs with hs | hs
  · exact ne_addr (haddrs _ (List.mem_append_left _ hs)).1 fun hin => happ _ hs _ (hsib _ hin) rfl
  · exact (ne_addr (haddrs _ (List.mem_append_right _ (hsib _ hs))).1
      fun hin => happ _ hin _ (hsib _ hs) rfl).symm

/-- The root of a tree is not below it. -/
theorem root_mem (p : Path NodePtr) : ∀ (f : Frame NodePtr) (s : BinTree NodePtr),
    addr (plug s (f :: p)) ∈ pathAddrs (f :: p) := by
  induction p with
  | nil =>
      intro f s
      rw [plug, plug, addr_join]
      exact List.mem_cons_self
  | cons g p ih =>
      intro f s
      exact List.mem_cons_of_mem _ (List.mem_append_right _ (ih g (f.join s)))

/-- Whatever hangs below, the root is the same. -/
theorem addr_plug (p : Path NodePtr) : ∀ (f : Frame NodePtr) (s s' : BinTree NodePtr),
    addr (plug s (f :: p)) = addr (plug s' (f :: p)) := by
  induction p with
  | nil =>
      intro f s s'
      rw [plug, plug, plug, plug, addr_join, addr_join]
  | cons g p ih => exact fun f s s' => ih g (f.join s) (f.join s')

theorem Turns.belowRoot {s : BinTree NodePtr} {f : Frame NodePtr} {p : Path NodePtr}
    (h : addr s ≠ addr (plug s (f :: p)) → Turns x (plug s (f :: p)) a t') :
    Turns x (plug s (f :: p)) a t' := by
  intro m hm
  obtain ⟨-, -, hdist, haddrs⟩ := holds_cut.mp hm
  have hroot := root_mem p f s
  refine h (ne_addr (haddrs _ (List.mem_append_right _ hroot)).1 fun hin => ?_).symm m hm
  exact (List.nodup_append.mp hdist).2.2 _ hin _ hroot rfl

/-- A read of the node at a position. -/
theorem Turns.getNode {g : RbNode → Prog RbMem β} {c : Color} {l r : BinTree NodePtr}
    {at' : NodePtr} {p : Path NodePtr}
    (hg : ∀ n : RbNode, n.color = colorBit c → n.parent = parentAddr p → n.rbLeft = addr l →
      n.rbRight = addr r → Turns (g n) (plug (.node c l at' r) p) b t') :
    Turns (get at' >>= g) (plug (.node c l at' r) p) b t' := by
  intro m hm
  obtain ⟨⟨n, hn, hc, hp, hl, hr⟩, -, -⟩ := (holds_cut.mp hm).sub
  obtain ⟨m', hrun, hrest⟩ := hg n hc hp hl hr m hm
  exact ⟨m', (bind_ok (get_run hn)).trans hrun, hrest⟩

/-- A read of the nearest ancestor of a position. -/
theorem Turns.getFrame {g : RbNode → Prog RbMem β} {s : BinTree NodePtr} {f : Frame NodePtr}
    {p : Path NodePtr}
    (hg : ∀ n : RbNode, n.color = colorBit f.color → n.parent = parentAddr p →
      child f.side n = addr s → child (other f.side) n = addr f.sibling →
      Turns (g n) (plug s (f :: p)) b t') :
    Turns (get f.data >>= g) (plug s (f :: p)) b t' := by
  intro m hm
  obtain ⟨⟨n, hn, hc, hp, hx, hy⟩, -, -⟩ := (holds_cut.mp hm).above
  obtain ⟨m', hrun, hrest⟩ := hg n hc hp hx hy m hm
  exact ⟨m', (bind_ok (get_run hn)).trans hrun, hrest⟩

end

section
variable {p : Path NodePtr} {t l r : BinTree NodePtr} {a : NodePtr} {c : Color}

theorem isRedNode_turns : Turns (isRedNode (addr t)) (plug t p) (rbIsRedNode t) (plug t p) := by
  cases t with
  | nil => exact Turns.pure false _
  | node c l a r =>
      refine Turns.notNull fun hne => ?_
      show Turns (isRedNode a) _ (rbIsRedNode (.node c l a r)) _
      unfold isRedNode
      rw [if_neg hne]
      refine Turns.getNode fun n hc _ _ _ => ?_
      rw [isRed_of_color hc]
      exact Turns.pure _ _

@[simp] theorem isRed_join (f : Frame NodePtr) (t : BinTree NodePtr) :
    rbIsRedNode (f.join t) = decide (f.color = .red) := by
  unfold Frame.join
  cases f.side <;> rfl

theorem isRedNode_frame (f : Frame NodePtr) :
    Turns (isRedNode f.data) (plug t (f :: p)) (decide (f.color = .red)) (plug t (f :: p)) := by
  have h := isRedNode_turns (t := f.join t) (p := p)
  rw [addr_join, isRed_join] at h
  exact h

theorem setColor_turns (c' : Color) :
    Turns (setColor a (colorBit c')) (plug (.node c l a r) p) () (plug (.node c' l a r) p) := by
  intro m hm
  obtain ⟨habove, ⟨hnode, hl, hr⟩, hdist, haddrs⟩ := holds_cut.mp hm
  have happ := List.nodup_append.mp hdist
  have hin := node_mem c l r a
  have hout : a ∉ pathAddrs p := fun hmem => happ.2.2 a hin a hmem rfl
  have hmid := happ.1
  rw [toList_node, List.nodup_middle, List.nodup_cons] at hmid
  have hcut : Cut { m with nodes := write m.nodes a fun n => n.withColor (colorBit c') }
      (.node c' l a r) p := by
    refine ⟨habove.congr rfl fun b hb => write_ne fun heq => hout (heq ▸ hb),
      ⟨hnode.setColor c', ?_, ?_⟩, hdist, haddrs⟩
    · exact hl.congr fun b hb => write_ne fun heq =>
        hmid.1 (List.mem_append_left _ (heq ▸ hb))
    · exact hr.congr fun b hb => write_ne fun heq =>
        hmid.1 (List.mem_append_right _ (heq ▸ hb))
  have hlist : (plug (.node c' l a r) p).toList = (plug (.node c l a r) p).toList := by
    rw [plug_toList, plug_toList]
    rfl
  have hat : a ∈ (plug (.node c' l a r) p).toList :=
    (plug_perm p _).mem_iff.mpr (List.mem_append_left _ hin)
  have hsub : (plug (.node c' l a r) p).toList ⊆ (plug (.node c l a r) p).toList := by
    rw [hlist]
    exact List.Subset.refl _
  have hm' := holds_cut.mpr hcut
  exact ⟨_, hnode.run, hm', hsub, hm.confined hm' hsub fun b hb =>
    write_ne fun heq => hb (heq ▸ hat)⟩

theorem setBlack_turns :
    Turns (setBlack a) (plug (.node c l a r) p) () (plug (.node .black l a r) p) := by
  have heq : setBlack a = setColor a (colorBit .black) :=
    congrArg (modify a) (funext withBlack_eq)
  rw [heq]
  exact setColor_turns .black

theorem setRed_turns :
    Turns (setRed a) (plug (.node c l a r) p) () (plug (.node .red l a r) p) := by
  have heq : setRed a = setColor a (colorBit .red) := congrArg (modify a) (funext withRed_eq)
  rw [heq]
  exact setColor_turns .red

theorem rotate_turns {up node : Frame NodePtr} (hside : node.side = other up.side) :
    Turns (rotate up.side node.data) (plug t (up :: node :: p)) () (plug t (node :: up :: p)) := by
  intro m hm
  obtain ⟨m', hrun, hcut, hsame⟩ := rotate_cut (holds_cut.mp hm) hside
  have hmem : ∀ b q, b ∈ (plug t q).toList ↔ b ∈ t.toList ++ pathAddrs q :=
    fun b q => (plug_perm q t).mem_iff
  have hperm : ∀ b, b ∈ (plug t (node :: up :: p)).toList ↔ b ∈ (plug t (up :: node :: p)).toList :=
    fun b => (hmem b _).trans ((rotate_perm _ _ _ _ _ _).mem_iff.trans
      (hmem b (up :: node :: p)).symm)
  have hm' := holds_cut.mpr hcut
  exact ⟨m', hrun, hm', fun b => (hperm b).mp, hm.confined hm' (fun b => (hperm b).mp)
    fun b hb => hsame b fun hin => hb ((hperm b).mpr ((hmem b _).mpr hin))⟩

variable {rc : Color} {rl rr : BinTree NodePtr} {ra : NodePtr}

theorem rotateLeft_turns :
    Turns (rotateLeft a) (plug (.node c l a (.node rc rl ra rr)) p) ()
      (plug (.node rc (.node c l a rl) ra rr) p) := by
  have h : Turns (rotate .left a) (plug rl (⟨.left, rc, ra, rr⟩ :: ⟨.right, c, a, l⟩ :: p)) ()
      (plug rl (⟨.right, c, a, l⟩ :: ⟨.left, rc, ra, rr⟩ :: p)) := rotate_turns rfl
  exact h

theorem rotateRight_turns :
    Turns (rotateRight a) (plug (.node c (.node rc rl ra rr) a r) p) ()
      (plug (.node rc rl ra (.node c rr a r)) p) := by
  have h : Turns (rotate .right a) (plug rr (⟨.right, rc, ra, rl⟩ :: ⟨.left, c, a, r⟩ :: p)) ()
      (plug rr (⟨.left, c, a, r⟩ :: ⟨.right, rc, ra, rl⟩ :: p)) := rotate_turns rfl
  exact h

end

end RbHeap

end CephInC
