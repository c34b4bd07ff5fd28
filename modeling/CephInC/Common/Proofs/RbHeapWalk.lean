/-
The walks of `rbtree.c` in memory go by the order of the contents:
`cceph_rb_first` and `cceph_rb_last` end at its ends, `cceph_rb_next` and
`cceph_rb_prev` one further, and at NULL where there is none.

And `cceph_rb_replace_node`: another node in the same place.
-/
import CephInC.Common.Proofs.RbHeapUnlink
import CephInC.Common.RbHeapRuns

namespace CephInC

open Lib

namespace RbHeap

variable {c : Color} {l r t : BinTree NodePtr} {a x : NodePtr} {p : Path NodePtr} {turns : Nat}

-- ============================================================= the ends

/-- The walk to the left ends at the first node. -/
theorem leftmost_first (hturns : (BinTree.node c l a r).height ≤ turns) :
    Turns (leftmost turns a) (plug (.node c l a r) p) (orNull (l.toList ++ a :: r.toList).head?)
      (plug (.node c l a r) p) := by
  cases hs : rbLeftmost c l a r ([] : Path NodePtr) with
  | mk sc sl sa sr sp =>
  obtain ⟨-, -, -, hlist⟩ := rbLeftmost_split c l a r ([] : Path NodePtr) hs
  rw [after_nil, List.append_nil (l.toList ++ a :: r.toList)] at hlist
  rw [← hlist, List.cons_append, List.head?_cons]
  have hturn := leftmost_turns (p := p) [] hturns
  rw [hs] at hturn
  exact hturn

/-- The walk to the right ends at the last. -/
theorem rightmost_last : ∀ (turns : Nat) {c : Color} {l r : BinTree NodePtr} {a : NodePtr}
    {p : Path NodePtr}, (BinTree.node c l a r).height ≤ turns →
    Turns (rightmost turns a) (plug (.node c l a r) p)
      (orNull (l.toList ++ a :: r.toList).getLast?) (plug (.node c l a r) p)
  | 0, _, _, _, _, _, hturns => by
      rw [height_node] at hturns
      omega
  | turns + 1, c, l, r, a, p, hturns => by
      refine Turns.getNode fun n _ _ _ hr => ?_
      rw [hr]
      cases r with
      | nil =>
          rw [toList_nil, List.getLast?_concat]
          exact Turns.pure a _
      | node rc rl ra rr =>
          refine Turns.notNull (p := ⟨.right, c, a, l⟩ :: p) fun hra => ?_
          rw [if_neg (show addr (.node rc rl ra rr) ≠ 0 from hra)]
          have hheight : (BinTree.node rc rl ra rr).height ≤ turns := by
            rw [height_node] at hturns
            omega
          have hlast : (l.toList ++ a :: (BinTree.node rc rl ra rr).toList).getLast?
              = (BinTree.node rc rl ra rr).toList.getLast? := by
            rw [List.append_cons,
              List.getLast?_append_of_ne_nil _ (List.ne_nil_of_mem (node_mem rc rl rr ra))]
          rw [hlast]
          exact rightmost_last turns (p := ⟨.right, c, a, l⟩ :: p) hheight

-- ============================================================ the climbs

/-- A node is not its own parent. -/
theorem Turns.notParent {α : Type} {y : Prog RbMem α} {b : α}
    (h : parentAddr p ≠ a → Turns y (plug (.node c l a r) p) b t) :
    Turns y (plug (.node c l a r) p) b t := by
  intro m hm
  obtain ⟨-, -, hdist, haddrs⟩ := holds_cut.mp hm
  have ha := node_mem c l r a
  refine h ?_ m hm
  cases p with
  | nil => exact (haddrs a (List.mem_append_left _ ha)).1.symm
  | cons f p =>
      intro heq
      exact (List.nodup_append.mp hdist).2.2 a ha f.data List.mem_cons_self heq.symm

theorem Turns.frameNotNull {α : Type} {y : Prog RbMem α} {b : α} {f : Frame NodePtr}
    {u : BinTree NodePtr} (h : f.data ≠ 0 → Turns y (plug u (f :: p)) b t) :
    Turns y (plug u (f :: p)) b t := fun m hm =>
  h ((holds_cut.mp hm).addrs f.data (List.mem_append_right _ List.mem_cons_self)).1 m hm

/-- Up to the first ancestor that the node is to the left of. -/
theorem nextUp_turns : ∀ (p : Path NodePtr) {t : BinTree NodePtr} {turns : Nat},
    addr t ∈ t.toList → p.length < turns →
    Turns (nextUp turns (addr t)) (plug t p) (orNull (Path.after p).head?) (plug t p)
  | _, .nil, _, hmem, _ => by cases hmem
  | _, _, 0, _, hturns => by omega
  | [], .node c l a r, turns + 1, _, _ => by
      refine Turns.getNode (p := []) fun n _ hp _ _ => ?_
      rw [hp]
      exact Turns.pure _ _
  | f :: p, .node c l a r, turns + 1, hmem, hturns => by
      show Turns (nextUp (turns + 1) a) (plug (.node c l a r) (f :: p)) _ _
      refine Turns.getNode fun n _ hp _ _ => ?_
      rw [hp, parentAddr_cons]
      refine Turns.frameNotNull fun hf => ?_
      rw [if_neg hf]
      refine Turns.besides (.inl hmem) fun hne => Turns.getFrame fun pn _ _ hx hy => ?_
      have ih := nextUp_turns p (join_mem f (.node c l a r)) (Nat.lt_of_succ_lt_succ hturns)
      rw [addr_join] at ih
      obtain ⟨side, fc, fd, fs⟩ := f
      cases side with
      | left =>
          rw [if_neg fun heq => hne (heq.trans hy)]
          exact Turns.pure _ _
      | right =>
          rw [if_pos (show a = pn.rbRight from hx.symm)]
          exact ih

/-- Up to the first ancestor that the node is to the right of. -/
theorem prevUp_turns : ∀ (p : Path NodePtr) {t : BinTree NodePtr} {turns : Nat},
    addr t ∈ t.toList → p.length < turns →
    Turns (prevUp turns (addr t)) (plug t p) (orNull (Path.before p).getLast?) (plug t p)
  | _, .nil, _, hmem, _ => by cases hmem
  | _, _, 0, _, hturns => by omega
  | [], .node c l a r, turns + 1, _, _ => by
      refine Turns.getNode (p := []) fun n _ hp _ _ => ?_
      rw [hp]
      exact Turns.pure _ _
  | f :: p, .node c l a r, turns + 1, hmem, hturns => by
      show Turns (prevUp (turns + 1) a) (plug (.node c l a r) (f :: p)) _ _
      refine Turns.getNode fun n _ hp _ _ => ?_
      rw [hp, parentAddr_cons]
      refine Turns.frameNotNull fun hf => ?_
      rw [if_neg hf]
      refine Turns.besides (.inl hmem) fun hne => Turns.getFrame fun pn _ _ hx hy => ?_
      have ih := prevUp_turns p (join_mem f (.node c l a r)) (Nat.lt_of_succ_lt_succ hturns)
      rw [addr_join] at ih
      obtain ⟨side, fc, fd, fs⟩ := f
      cases side with
      | left =>
          rw [if_pos (show a = pn.rbLeft from hx.symm)]
          exact ih
      | right =>
          rw [if_neg fun heq => hne (heq.trans hy), before_right, List.getLast?_concat]
          exact Turns.pure _ _

-- ============================================================= the walks

theorem first_turns (hturns : t.height ≤ turns) :
    Turns (first turns) t (orNull t.toList.head?) t := by
  refine Turns.bind (Turns.getRoot t) ?_
  cases t with
  | nil => exact Turns.pure _ _
  | node c l a r =>
      refine Turns.notNull (p := []) fun hne => ?_
      rw [if_neg (show addr (.node c l a r) ≠ 0 from hne)]
      exact leftmost_first (p := []) hturns

theorem last_turns (hturns : t.height ≤ turns) :
    Turns (last turns) t (orNull t.toList.getLast?) t := by
  refine Turns.bind (Turns.getRoot t) ?_
  cases t with
  | nil => exact Turns.pure _ _
  | node c l a r =>
      refine Turns.notNull (p := []) fun hne => ?_
      rw [if_neg (show addr (.node c l a r) ≠ 0 from hne)]
      exact rightmost_last turns (p := []) hturns

theorem next_turns {node : Loc NodePtr} (hturns : node.root.height ≤ turns) :
    Turns (next turns node.data) node.root (orNull node.after.head?) node.root := by
  obtain ⟨c, l, a, r, p⟩ := node
  have hdeep := height_plug p (.node c l a r)
  rw [height_node] at hdeep
  have hturns' : (plug (.node c l a r) p).height ≤ turns := hturns
  show Turns (next turns a) (plug (.node c l a r) p) _ (plug (.node c l a r) p)
  refine Turns.notParent fun hparent => Turns.getNode fun n _ hp _ hr => ?_
  rw [hp, if_neg hparent, hr]
  cases r with
  | nil => exact nextUp_turns p (node_mem _ _ _ _) (by omega)
  | node rc rl ra rr =>
      refine Turns.notNull (p := ⟨.right, c, a, l⟩ :: p) fun hra => ?_
      rw [if_neg (show addr (.node rc rl ra rr) ≠ 0 from hra)]
      have hfirst : (Loc.after ⟨c, l, a, .node rc rl ra rr, p⟩).head?
          = (rl.toList ++ ra :: rr.toList).head? :=
        List.head?_append_of_ne_nil _ (List.ne_nil_of_mem (node_mem rc rl rr ra))
      have hheight : (BinTree.node rc rl ra rr).height ≤ turns := by omega
      rw [hfirst]
      exact leftmost_first (p := ⟨.right, c, a, l⟩ :: p) hheight

theorem prev_turns {node : Loc NodePtr} (hturns : node.root.height ≤ turns) :
    Turns (prev turns node.data) node.root (orNull node.before.getLast?) node.root := by
  obtain ⟨c, l, a, r, p⟩ := node
  have hdeep := height_plug p (.node c l a r)
  rw [height_node] at hdeep
  have hturns' : (plug (.node c l a r) p).height ≤ turns := hturns
  show Turns (prev turns a) (plug (.node c l a r) p) _ (plug (.node c l a r) p)
  refine Turns.notParent fun hparent => Turns.getNode fun n _ hp hl _ => ?_
  rw [hp, if_neg hparent, hl]
  cases l with
  | nil =>
      have hlast : Loc.before ⟨c, .nil, a, r, p⟩ = Path.before p := List.append_nil _
      rw [hlast]
      exact prevUp_turns p (node_mem _ _ _ _) (by omega)
  | node lc ll la lr =>
      refine Turns.notNull (p := ⟨.left, c, a, r⟩ :: p) fun hla => ?_
      rw [if_neg (show addr (.node lc ll la lr) ≠ 0 from hla)]
      have hlast : (Loc.before ⟨c, .node lc ll la lr, a, r, p⟩).getLast?
          = (ll.toList ++ la :: lr.toList).getLast? :=
        List.getLast?_append_of_ne_nil _ (List.ne_nil_of_mem (node_mem lc ll lr la))
      have hheight : (BinTree.node lc ll la lr).height ≤ turns := by omega
      rw [hlast]
      exact rightmost_last turns (p := ⟨.left, c, a, r⟩ :: p) hheight

-- ====================================================== another node

/-- `new` in the place of `victim`. -/
theorem replaceNode_run {m : RbMem} {victim new : NodePtr} {sn : RbNode}
    (hcut : Cut m (.node c l victim r) p)
    (hnew : new ∉ (BinTree.node c l victim r).toList ++ pathAddrs p)
    (hsn : m.nodes new = some sn) (haddr : new ≠ 0 ∧ Aligned new) :
    ∃ m', replaceNode victim new m = .ok ((), m') ∧ Cut m' (.node c l new r) p
      ∧ ∀ b, b ∉ (BinTree.node c l new r).toList ++ pathAddrs p → m'.nodes b = m.nodes b := by
  obtain ⟨habove, ⟨hnode, hl, hr⟩, hdist, haddrs⟩ := id hcut
  rw [toList_node] at hdist haddrs hnew
  obtain ⟨⟨hvl, hvr, hvp⟩, hlout, hrout, hldist, hrdist, hpdist⟩ := around hdist
  have hin : ∀ b, b ∈ l.toList ∨ b = victim ∨ b ∈ r.toList ∨ b ∈ pathAddrs p →
      b ∈ l.toList ++ victim :: r.toList ++ pathAddrs p := by
    intro b hb
    simp only [List.mem_append, List.mem_cons]
    tauto
  obtain ⟨v, hv, hvc, hvparent, hvleft, hvright⟩ := id hnode
  obtain ⟨m₁, hrun₁, habove₁, hsame₁⟩ :
      ∃ m', relink .left (parentAddr p) victim new m = .ok ((), m') ∧ Above m' p new
        ∧ ∀ b, b ∉ pathAddrs p → m'.nodes b = m.nodes b :=
    relink_run .left habove ⟨(haddrs _ (hin victim (.inr (.inl rfl)))).1, hvp⟩ hpdist
      fun b hb => (haddrs b (hin b (.inr (.inr (.inr hb))))).1
  obtain ⟨m₂, hrun₂, hl₂, hroot₂, hsame₂⟩ := reparent_run
    (hl.congr fun b hb => hsame₁ b (hlout b hb).2) hldist
    (fun b hb => (haddrs b (hin b (.inl hb))).1) haddr.2
  obtain ⟨m₃, hrun₃, hr₃, hroot₃, hsame₃⟩ := reparent_run
    (hr.congr fun b hb => (hsame₂ b fun hbl => (hlout b hbl).1 hb).trans (hsame₁ b (hrout b hb)))
    hrdist (fun b hb => (haddrs b (hin b (.inr (.inr (.inl hb))))).1) haddr.2
  have hsame : ∀ b, b ∉ l.toList → b ∉ r.toList → b ∉ pathAddrs p → m₃.nodes b = m.nodes b :=
    fun b hbl hbr hbp => (hsame₃ b hbr).trans ((hsame₂ b hbl).trans (hsame₁ b hbp))
  have hv₃ := (hsame victim hvl hvr hvp).trans hv
  have hnl : new ∉ l.toList := fun h => hnew (hin new (.inl h))
  have hnr : new ∉ r.toList := fun h => hnew (hin new (.inr (.inr (.inl h))))
  have hnp : new ∉ pathAddrs p := fun h => hnew (hin new (.inr (.inr (.inr h))))
  have hsn₃ := (hsame new hnl hnr hnp).trans hsn
  have hmod := modify_run (f := fun _ => v) hsn₃
  refine ⟨{ m₃ with nodes := write m₃.nodes new fun _ => v }, ?_,
    ⟨?_, ⟨⟨v, write_some hsn₃, hvc, hvparent, hvleft, hvright⟩, ?_, ?_⟩, ?_, ?_⟩, ?_⟩
  · unfold replaceNode
    rw [bind_ok (get_run hv), hvparent, relinkLeft_eq, bind_ok hrun₁,
      show v.rbLeft = addr l from hvleft, show v.rbRight = addr r from hvright]
    exact (bind_ok hrun₂).trans ((bind_ok hrun₃).trans ((bind_ok (get_run hv₃)).trans hmod))
  · refine habove₁.congr (hroot₃.trans hroot₂) fun b hb => ?_
    have hbn : b ≠ new := fun heq => hnp (heq ▸ hb)
    refine (write_ne hbn).trans ((hsame₃ b fun hbr => ?_).trans (hsame₂ b fun hbl => ?_))
    · exact hrout b hbr hb
    · exact (hlout b hbl).2 hb
  · refine hl₂.congr fun b hb => ?_
    have hbn : b ≠ new := fun heq => hnl (heq ▸ hb)
    exact (write_ne hbn).trans (hsame₃ b (hlout b hb).1)
  · exact hr₃.congr fun b hb => write_ne fun heq => hnr (heq ▸ hb)
  · rw [toList_node, List.append_assoc, List.cons_append, List.nodup_middle, ← List.append_assoc]
    rw [List.append_assoc, List.cons_append, List.nodup_middle, ← List.append_assoc] at hdist
    exact List.nodup_cons.mpr ⟨fun h => hnew (by
      simp only [List.mem_append, List.mem_cons] at h ⊢
      tauto), (List.nodup_cons.mp hdist).2⟩
  · intro b hb
    by_cases hbn : b = new
    · exact hbn ▸ haddr
    · refine haddrs b ?_
      simp only [toList_node, List.mem_append, List.mem_cons] at hb ⊢
      tauto
  · intro b hb
    simp only [toList_node, List.mem_append, List.mem_cons, not_or] at hb
    exact (write_ne hb.1.2.1).trans (hsame b hb.1.1 hb.1.2.2 hb.2)

end RbHeap

end CephInC
