/-
`cceph_rb_erase` in memory: the unlinking of a node, and with it the
whole function.

A node with one child at most is passed by. One with two children gives
its place to its successor, which first leaves its own; in between the
memory holds no tree, so these writes are followed one by one.
-/
import CephInC.Common.Proofs.RbHeapErase
import CephInC.Lib.TreeDepth

namespace CephInC

open Lib

namespace RbHeap

section
variable {nodes nodes' : NodePtr → Option RbNode} {m : RbMem} {t t' : BinTree NodePtr}

/-- Another subtree with the same root, in a memory where the path above it is the same. -/
theorem Sub.replace (q : Path NodePtr) : ∀ {t t' : BinTree NodePtr} {parent : NodePtr},
    Sub nodes (plug t q) parent → addr t' = addr t →
    (∀ up, Sub nodes t up → Sub nodes' t' up) → (∀ b ∈ pathAddrs q, nodes' b = nodes b) →
    Sub nodes' (plug t' q) parent := by
  induction q with
  | nil => exact fun h _ hsub _ => hsub _ h
  | cons f q ih =>
      intro t t' parent h haddr hsub hsame
      refine ih h ((addr_join f t').trans (addr_join f t).symm) (fun up hup => ?_)
        fun b hb => hsame b (List.mem_cons_of_mem _ (List.mem_append_right _ hb))
      have hdata : nodes' f.data = nodes f.data := hsame _ List.mem_cons_self
      have hsib : ∀ b ∈ f.sibling.toList, nodes' b = nodes b := fun b hb =>
        hsame b (List.mem_cons_of_mem _ (List.mem_append_left _ hb))
      obtain ⟨side, c, a, s⟩ := f
      cases side with
      | left =>
          obtain ⟨hnode, hl, hr⟩ := hup
          exact ⟨haddr ▸ hnode.congr hdata, hsub _ hl, hr.congr hsib⟩
      | right =>
          obtain ⟨hnode, hl, hr⟩ := hup
          exact ⟨haddr ▸ hnode.congr hdata, hl.congr hsib, hsub _ hr⟩

/-- A subtree lies in memory where the tree does. -/
theorem Sub.inside (q : Path NodePtr) : ∀ {t : BinTree NodePtr} {up : NodePtr},
    Sub nodes (plug t q) up → ∃ up', Sub nodes t up' := by
  induction q with
  | nil => exact fun {_ up} h => ⟨up, h⟩
  | cons f q ih =>
      intro t up h
      obtain ⟨up', hjoin⟩ := ih h
      obtain ⟨side, c, a, s⟩ := f
      cases side with
      | left => exact ⟨a, hjoin.2.1⟩
      | right => exact ⟨a, hjoin.2.2⟩

/-- The walk to the left ends at the leftmost node. -/
theorem leftmost_run (q : Path NodePtr) : ∀ (turns : Nat) {c : Color} {l r : BinTree NodePtr}
    {a parent : NodePtr}, Sub m.nodes (.node c l a r) parent →
    (∀ b ∈ (BinTree.node c l a r).toList, b ≠ 0) → (BinTree.node c l a r).height ≤ turns →
    leftmost turns a m = .ok ((rbLeftmost c l a r q).data, m)
  | 0, _, _, _, _, _, _, _, hturns => by
      rw [height_node] at hturns
      omega
  | turns + 1, c, l, r, a, parent, h, hnull, hturns => by
      obtain ⟨⟨n, hn, -, -, hl, -⟩, hsub, -⟩ := h
      unfold leftmost
      rw [bind_ok (get_run hn), show n.rbLeft = addr l from hl]
      cases l with
      | nil => rfl
      | node lc ll la lr =>
          have hla : la ≠ 0 := hnull la (List.mem_append_left _ (node_mem lc ll lr la))
          have hheight : (BinTree.node lc ll la lr).height ≤ turns := by
            rw [height_node] at hturns
            omega
          rw [if_neg (show addr (.node lc ll la lr) ≠ 0 from hla)]
          exact leftmost_run (⟨.left, c, a, r⟩ :: q) turns hsub
            (fun b hb => hnull b (List.mem_append_left _ hb)) hheight

end

-- =================================================== one child at most

section
variable {c : Color} {l r child t : BinTree NodePtr} {a : NodePtr} {p : Path NodePtr}
  {turns : Nat}

/-- The child of a node that has one at most. -/
def OnlyChild (l r child : BinTree NodePtr) : Prop :=
  (l = .nil ∧ child = r) ∨ (r = .nil ∧ child = l)

theorem OnlyChild.lies (hc : OnlyChild l r child) {nodes : NodePtr → Option RbNode}
    (hl : Sub nodes l a) (hr : Sub nodes r a) :
    Sub nodes child a ∧ (BinTree.node c l a r).toList.Perm (a :: child.toList) := by
  rcases hc with ⟨rfl, rfl⟩ | ⟨rfl, rfl⟩
  · exact ⟨hr, List.Perm.refl _⟩
  · exact ⟨hl, List.perm_append_singleton a _⟩

/-- A node with one child at most is passed by. -/
theorem pass_by (hc : OnlyChild l r child) :
    Turns (do
        reparent (addr child) (parentAddr p)
        relinkLeft (parentAddr p) a (addr child))
      (plug (.node c l a r) p) () (plug child p) := by
  intro m hm
  have hcut := holds_cut.mp hm
  obtain ⟨habove, ⟨-, hl, hr⟩, hdist, haddrs⟩ := id hcut
  obtain ⟨hsub, hperm⟩ := hc.lies (c := c) hl hr
  have hall := hperm.append_right (pathAddrs p)
  have hdist' : (a :: (child.toList ++ pathAddrs p)).Nodup := hall.nodup_iff.mp hdist
  have haddrs' : ∀ b ∈ a :: (child.toList ++ pathAddrs p), b ≠ 0 ∧ Aligned b :=
    fun b hb => haddrs b (hall.mem_iff.mpr hb)
  obtain ⟨hout, hrest⟩ := List.nodup_cons.mp hdist'
  obtain ⟨hcdist, hpdist, happ⟩ := List.nodup_append.mp hrest
  obtain ⟨m₁, hrun₁, hsub₁, hroot₁, hsame₁⟩ := reparent_run hsub hcdist
    (fun b hb => (haddrs' b (List.mem_cons_of_mem _ (List.mem_append_left _ hb))).1)
    (parentAddr_aligned hcut)
  have habove₁ : Above m₁ p a := habove.congr hroot₁ fun b hb =>
    hsame₁ b fun hin => happ b hin b hb rfl
  obtain ⟨m₂, hrun₂, habove₂, hsame₂⟩ := relink_run .left habove₁
    ⟨(haddrs' a List.mem_cons_self).1, fun hin => hout (List.mem_append_right _ hin)⟩ hpdist
    fun b hb => (haddrs' b (List.mem_cons_of_mem _ (List.mem_append_right _ hb))).1
  have hcut₂ : Cut m₂ child p := by
    refine ⟨habove₂, hsub₁.congr fun b hb => hsame₂ b fun hin => happ b hb b hin rfl, hrest, ?_⟩
    exact fun b hb => haddrs' b (List.mem_cons_of_mem _ hb)
  have hmem : ∀ b, b ∈ (plug (.node c l a r) p).toList ↔ b ∈ a :: (child.toList ++ pathAddrs p) :=
    fun b => (plug_perm p _).mem_iff.trans hall.mem_iff
  have hm₂ := holds_cut.mpr hcut₂
  have hmem' : ∀ b, b ∈ (plug child p).toList ↔ b ∈ child.toList ++ pathAddrs p :=
    fun b => (plug_perm p _).mem_iff
  have hsub : (plug child p).toList ⊆ (plug (.node c l a r) p).toList := fun b hb =>
    (hmem b).mpr (List.mem_cons_of_mem _ ((hmem' b).mp hb))
  refine ⟨m₂, (bind_ok hrun₁).trans hrun₂, hm₂, hsub, hm.confined hm₂ hsub fun b hb => ?_⟩
  have hb' : b ∉ child.toList ++ pathAddrs p := fun hin => hb ((hmem' b).mpr hin)
  exact (hsame₂ b fun hin => hb' (List.mem_append_right _ hin)).trans
    (hsame₁ b fun hin => hb' (List.mem_append_left _ hin))

/-- What the unlinking of a node of colour `c` leaves to be done over trees. -/
def rbUnlinked (c : Color) (child : BinTree NodePtr) (p : Path NodePtr) :
    Except Fault (BinTree NodePtr) :=
  match c with
  | .black => rbEraseColor child p
  | .red => .ok (plug child p)

theorem repair_turns (h : rbUnlinked c child p = .ok t) (hturns : p.length + 2 ≤ turns) :
    Turns (if colorBit c = CCEPH_RB_BLACK then eraseColor turns (addr child) (parentAddr p)
      else return ()) (plug child p) () t := by
  cases c with
  | red =>
      cases h
      exact Turns.pure () _
  | black => exact eraseColor_turns h hturns

theorem eraseOne_turns (hc : OnlyChild l r child) (h : rbUnlinked c child p = .ok t)
    (hturns : p.length + 2 ≤ turns) :
    Turns (eraseOne turns a (addr child)) (plug (.node c l a r) p) () t := by
  refine Turns.getNode fun n hcolor hparent _ _ => ?_
  rw [hcolor, hparent]
  have hpass := Turns.bind (pass_by (c := c) (a := a) (p := p) hc)
    (f := fun _ => if colorBit c = CCEPH_RB_BLACK
      then eraseColor turns (addr child) (parentAddr p) else return ()) (repair_turns h hturns)
  rw [bind_assoc] at hpass
  exact hpass

end

-- ========================================================= two children

section
variable {m : RbMem} {c sc : Color} {left right sr t : BinTree NodePtr} {old sa x : NodePtr}
  {p q : Path NodePtr}

/-- The end of `takePlace`: the word and the left subtree of `old`. -/
theorem takeFields_run {parent : NodePtr} {sn : RbNode}
    (hold : NodeIs m.nodes old c parent .left (addr left) x) (hsn : m.nodes sa = some sn)
    (hleft : Sub m.nodes left old) (hl : addr left ∈ left.toList) (hdist : left.toList.Nodup)
    (hnull : ∀ b ∈ left.toList, b ≠ 0) (hsa : sa ∉ left.toList) (haligned : Aligned sa) :
    ∃ m', takeFields old sa m = .ok ((), m')
      ∧ NodeIs m'.nodes sa c parent .left (addr left) sn.rbRight ∧ Sub m'.nodes left sa
      ∧ m'.rbNode = m.rbNode ∧ ∀ b, b ≠ sa → b ∉ left.toList → m'.nodes b = m.nodes b := by
  obtain ⟨o, ho, hc, hp, hx, -⟩ := hold
  have hmod := modify_run
    (f := fun n => { n with rbParentColor := o.rbParentColor, rbLeft := o.rbLeft }) hsn
  have hsub : Sub (write m.nodes sa fun n =>
      { n with rbParentColor := o.rbParentColor, rbLeft := o.rbLeft }) left old :=
    hleft.congr fun b hb => write_ne fun heq => hsa (heq ▸ hb)
  obtain ⟨m', hrun, hsub', hroot, hsame⟩ := reparent_run
    (m := { m with nodes := write m.nodes sa fun n =>
      { n with rbParentColor := o.rbParentColor, rbLeft := o.rbLeft } }) hsub hdist hnull haligned
  rw [reparent, if_neg (hnull _ hl), ← show o.rbLeft = addr left from hx] at hrun
  refine ⟨m', ?_, ⟨_, (hsame sa hsa).trans (write_some hsn), hc, hp, hx, rfl⟩, hsub', hroot,
    fun b hb hbl => (hsame b hbl).trans (write_ne hb)⟩
  unfold takeFields
  rw [bind_ok (get_run ho), bind_ok hmod]
  exact hrun

/-- The addresses of a leftmost node and of what is around it are apart. -/
theorem leave_apart {s f q : List NodePtr} {b d : NodePtr}
    (h : ((b :: s) ++ (d :: (f ++ q))).Nodup) :
    (b ≠ d ∧ b ∉ s ∧ b ∉ f ∧ b ∉ q) ∧ (d ∉ s ∧ d ∉ f ∧ d ∉ q) ∧ (∀ e ∈ s, e ∉ f ∧ e ∉ q)
      ∧ s.Nodup := by
  simp only [List.nodup_append, List.nodup_cons, List.mem_append, List.mem_cons] at h
  grind

/-- The leftmost node leaves its place to its child. -/
theorem leave_run {fc : Color} {fd up : NodePtr} {fs : BinTree NodePtr}
    (h : Sub m.nodes (plug (.node sc .nil sa sr) (⟨.left, fc, fd, fs⟩ :: q)) up)
    (hdist : (plug (.node sc .nil sa sr) (⟨.left, fc, fd, fs⟩ :: q)).toList.Nodup)
    (haddrs : ∀ b ∈ (plug (.node sc .nil sa sr) (⟨.left, fc, fd, fs⟩ :: q)).toList,
      b ≠ 0 ∧ Aligned b) :
    ∃ m', (do
        reparent (addr sr) fd
        setLeft fd (addr sr)) m = .ok ((), m')
      ∧ Sub m'.nodes (plug sr (⟨.left, fc, fd, fs⟩ :: q)) up ∧ m'.rbNode = m.rbNode
      ∧ ∀ b, b ∉ sr.toList → b ≠ fd → m'.nodes b = m.nodes b := by
  have hperm := plug_perm (⟨.left, fc, fd, fs⟩ :: q) (.node sc .nil sa sr)
  obtain ⟨⟨hsafd, hsasr, hsafs, hsaq⟩, ⟨hfdsr, hfdfs, hfdq⟩, hsrout, hsrdist⟩ :=
    leave_apart (hperm.nodup_iff.mp hdist)
  have hmem : ∀ b ∈ sr.toList, b ≠ 0 := fun b hb =>
    (haddrs b (hperm.mem_iff.mpr (List.mem_append_left _ (List.mem_cons_of_mem _ hb)))).1
  have hfd := haddrs fd (hperm.mem_iff.mpr (List.mem_append_right _ List.mem_cons_self))
  obtain ⟨up', hfdnode, ⟨-, -, hsr⟩, hfs⟩ :=
    Sub.inside q (t := .node fc (.node sc .nil sa sr) fd fs) h
  obtain ⟨m₁, hrun₁, hsr₁, hroot₁, hsame₁⟩ := reparent_run hsr hsrdist hmem hfd.2
  have hfdnode₁ := hfdnode.congr (hsame₁ fd hfdsr)
  refine ⟨_, (bind_ok hrun₁).trans hfdnode₁.run, ?_, hroot₁, fun b hb hbf =>
    (write_ne hbf).trans (hsame₁ b hb)⟩
  have hsame : ∀ b ∈ fs.toList ++ pathAddrs q,
      write m₁.nodes fd (fun n => withChild .left n (addr sr)) b = m.nodes b := by
    intro b hb
    refine (write_ne fun heq => ?_).trans (hsame₁ b fun hin => ?_)
    · rcases List.mem_append.mp hb with hb | hb
      · exact hfdfs (heq ▸ hb)
      · exact hfdq (heq ▸ hb)
    · rcases List.mem_append.mp hb with hb | hb
      · exact (hsrout b hin).1 hb
      · exact (hsrout b hin).2 hb
  refine Sub.replace q (t := .node fc (.node sc .nil sa sr) fd fs) h rfl (fun up'' hup => ?_)
    fun b hb => hsame b (List.mem_append_right _ hb)
  refine ⟨(hup.1.congr (hsame₁ fd hfdsr)).setChild, ?_, ?_⟩
  · exact hsr₁.congr fun b hb => write_ne fun heq => hfdsr (heq ▸ hb)
  · exact hfs.congr fun b hb => hsame b (List.mem_append_left _ hb)

/-- Then it gets the right subtree of `old`, without itself. -/
theorem leavePlace_run {fc : Color} {fd y : NodePtr} {fs : BinTree NodePtr} {parent : NodePtr}
    {sn : RbNode} (hsn : m.nodes sa = some sn)
    (h : Sub m.nodes (plug (.node sc .nil sa sr) (⟨.left, fc, fd, fs⟩ :: q)) old)
    (hdist : (plug (.node sc .nil sa sr) (⟨.left, fc, fd, fs⟩ :: q)).toList.Nodup)
    (haddrs : ∀ b ∈ (plug (.node sc .nil sa sr) (⟨.left, fc, fd, fs⟩ :: q)).toList,
      b ≠ 0 ∧ Aligned b)
    (hold : NodeIs m.nodes old c parent .left y
      (addr (plug (.node sc .nil sa sr) (⟨.left, fc, fd, fs⟩ :: q))))
    (hout : old ∉ (plug (.node sc .nil sa sr) (⟨.left, fc, fd, fs⟩ :: q)).toList) :
    ∃ m' sn', leavePlace old sa fd (addr sr) m = .ok ((), m') ∧ m'.nodes sa = some sn'
      ∧ sn'.rbRight = addr (plug sr (⟨.left, fc, fd, fs⟩ :: q))
      ∧ Sub m'.nodes (plug sr (⟨.left, fc, fd, fs⟩ :: q)) sa ∧ m'.rbNode = m.rbNode
      ∧ ∀ b, b ∉ (plug (.node sc .nil sa sr) (⟨.left, fc, fd, fs⟩ :: q)).toList →
        m'.nodes b = m.nodes b := by
  obtain ⟨o, ho, -, -, -, hor⟩ := hold
  have hperm : (plug (.node sc .nil sa sr) (⟨.left, fc, fd, fs⟩ :: q)).toList.Perm
      (sa :: (plug sr (⟨.left, fc, fd, fs⟩ :: q)).toList) :=
    (plug_perm _ _).trans ((plug_perm _ _).symm.cons sa)
  obtain ⟨hsaout, hdist'⟩ := List.nodup_cons.mp (hperm.nodup_iff.mp hdist)
  have hmem : ∀ b ∈ (plug sr (⟨.left, fc, fd, fs⟩ :: q)).toList,
      b ∈ (plug (.node sc .nil sa sr) (⟨.left, fc, fd, fs⟩ :: q)).toList := fun b hb =>
    hperm.mem_iff.mpr (List.mem_cons_of_mem _ hb)
  have hsa := hperm.mem_iff.mpr (List.mem_cons_self (a := sa))
  have hin : ∀ b, b ∈ sr.toList ∨ b = fd → b ∈ (plug sr (⟨.left, fc, fd, fs⟩ :: q)).toList := by
    intro b hb
    refine (plug_perm _ _).mem_iff.mpr (List.mem_append.mpr ?_)
    rcases hb with hb | rfl
    · exact .inl hb
    · exact .inr List.mem_cons_self
  obtain ⟨m₁, hrun₁, hsub₁, hroot₁, hsame₁⟩ := leave_run h hdist haddrs
  have hsame : ∀ b, b ∉ (plug sr (⟨.left, fc, fd, fs⟩ :: q)).toList → m₁.nodes b = m.nodes b :=
    fun b hb => hsame₁ b (fun hbs => hb (hin b (.inl hbs))) fun hbf => hb (hin b (.inr hbf))
  have ho₁ := (hsame old fun hold => hout (hmem old hold)).trans ho
  have hsn₁ := (hsame sa hsaout).trans hsn
  have hset := modify_run (f := fun n => { n with rbRight := o.rbRight }) hsn₁
  have hsub₂ : Sub (write m₁.nodes sa fun n => { n with rbRight := o.rbRight })
      (plug sr (⟨.left, fc, fd, fs⟩ :: q)) old :=
    hsub₁.congr fun b hb => write_ne fun heq => hsaout (heq ▸ hb)
  obtain ⟨m₃, hrun₃, hsub₃, hroot₃, hsame₃⟩ := reparent_run
    (m := { m₁ with nodes := write m₁.nodes sa fun n => { n with rbRight := o.rbRight } }) hsub₂
    hdist' (fun b hb => (haddrs b (hmem b hb)).1) (haddrs sa hsa).2
  have hroot : addr (plug sr (⟨.left, fc, fd, fs⟩ :: q)) = o.rbRight :=
    (addr_plug q _ _ _).trans hor.symm
  have hnull : o.rbRight ≠ 0 := by
    rw [← hroot]
    exact (haddrs _ (hmem _ ((plug_perm _ _).mem_iff.mpr
      (List.mem_append_right _ (root_mem q _ sr))))).1
  rw [hroot, reparent, if_neg hnull] at hrun₃
  refine ⟨m₃, { sn with rbRight := o.rbRight }, ?_, (hsame₃ sa hsaout).trans (write_some hsn₁),
    hroot.symm, hsub₃, hroot₃.trans hroot₁, fun b hb => ?_⟩
  · have hleave := bind_ok hrun₁ (f := fun _ => (do
        let o ← get old
        setRight sa o.rbRight
        setParent o.rbRight sa))
    rw [bind_assoc] at hleave
    refine hleave.trans ?_
    rw [bind_ok (get_run ho₁)]
    exact (bind_ok hset).trans hrun₃
  · have hb' : b ∉ (plug sr (⟨.left, fc, fd, fs⟩ :: q)).toList := fun hin => hb (hmem b hin)
    have hbsa : b ≠ sa := fun heq => hb (heq ▸ hsa)
    exact (hsame₃ b hb').trans ((write_ne hbsa).trans (hsame b hb'))

/-- What there is around a node with two subtrees. -/
theorem around {ls rs ps : List NodePtr} {b : NodePtr} (h : (ls ++ b :: rs ++ ps).Nodup) :
    (b ∉ ls ∧ b ∉ rs ∧ b ∉ ps) ∧ (∀ e ∈ ls, e ∉ rs ∧ e ∉ ps) ∧ (∀ e ∈ rs, e ∉ ps)
      ∧ ls.Nodup ∧ rs.Nodup ∧ ps.Nodup := by
  simp only [List.nodup_append, List.nodup_cons, List.mem_append, List.mem_cons] at h
  grind

/-- The middle of `takePlace`: the successor leaves its place, unless it hangs on `old`. -/
theorem leavePlace_cases {y parent : NodePtr} {sp : Path NodePtr} {sn : RbNode}
    (hsn : m.nodes sa = some sn) (hright : Sub m.nodes (plug (.node sc .nil sa sr) sp) old)
    (hdist : (plug (.node sc .nil sa sr) sp).toList.Nodup)
    (haddrs : ∀ b ∈ (plug (.node sc .nil sa sr) sp).toList, b ≠ 0 ∧ Aligned b)
    (hold : NodeIs m.nodes old c parent .left y (addr (plug (.node sc .nil sa sr) sp)))
    (hout : old ∉ (plug (.node sc .nil sa sr) sp).toList) (hsp : ∀ f ∈ sp, f.side = .left) :
    ∃ m' sn', (if sn.parent = old then return sa
        else do
          leavePlace old sa sn.parent sn.rbRight
          return sn.parent : Prog RbMem NodePtr) m
          = .ok (parentAddr (sp ++ [⟨.right, c, sa, left⟩]), m')
      ∧ m'.nodes sa = some sn' ∧ sn'.rbRight = addr (plug sr sp) ∧ Sub m'.nodes (plug sr sp) sa
      ∧ sn.color = colorBit sc ∧ sn.rbRight = addr sr ∧ m'.rbNode = m.rbNode
      ∧ ∀ b, b ∉ (plug (.node sc .nil sa sr) sp).toList → m'.nodes b = m.nodes b := by
  cases sp with
  | nil =>
      obtain ⟨⟨n, hn, hc, hp, -, hr⟩, -, hsr⟩ := hright
      cases hsn.symm.trans hn
      refine ⟨m, sn, ?_, hsn, hr, hsr, hc, hr, rfl, fun _ _ => rfl⟩
      rw [if_pos hp]
      rfl
  | cons f q =>
      obtain ⟨side, fc, fd, fs⟩ := f
      cases hsp _ List.mem_cons_self
      obtain ⟨up, hfd, ⟨⟨n, hn, hc, hp, -, hr⟩, -, -⟩, -⟩ :=
        Sub.inside q (t := .node fc (.node sc .nil sa sr) fd fs) hright
      cases hsn.symm.trans hn
      have hfold : fd ≠ old := by
        rintro rfl
        exact hout ((plug_perm _ _).mem_iff.mpr (List.mem_append_right _ List.mem_cons_self))
      obtain ⟨m', sn', hrun, hsn', hr', hsub, hroot, hsame⟩ :=
        leavePlace_run hsn hright hdist haddrs hold hout
      refine ⟨m', sn', ?_, hsn', hr', hsub, hc, hr, hroot, hsame⟩
      rw [hp, if_neg hfold, show sn.rbRight = addr sr from hr, bind_ok hrun]
      rfl

/-- The leftmost node of the right subtree takes the place of `old`. -/
theorem takePlace_run {sp : Path NodePtr}
    (hcut : Cut m (.node c left old (plug (.node sc .nil sa sr) sp)) p)
    (hl : addr left ∈ left.toList) (hsp : ∀ f ∈ sp, f.side = .left) :
    ∃ m', takePlace old sa m
        = .ok ((addr sr, parentAddr (sp ++ [⟨.right, c, sa, left⟩]), colorBit sc), m')
      ∧ Cut m' (.node c left sa (plug sr sp)) p
      ∧ ∀ b, b ∉ (BinTree.node c left sa (plug sr sp)).toList ++ pathAddrs p →
        m'.nodes b = m.nodes b := by
  obtain ⟨habove, ⟨hold, hleft, hright⟩, hdist, haddrs⟩ := id hcut
  rw [toList_node] at hdist haddrs
  obtain ⟨⟨holdl, holdr, holdp⟩, hlout, hrout, hldist, hrdist, hpdist⟩ := around hdist
  have hin : ∀ b, b ∈ left.toList ∨ b = old ∨ b ∈ (plug (.node sc .nil sa sr) sp).toList
      ∨ b ∈ pathAddrs p → b ≠ 0 ∧ Aligned b := by
    intro b hb
    refine haddrs b ?_
    simp only [List.mem_append, List.mem_cons]
    tauto
  have hperm : (plug (.node sc .nil sa sr) sp).toList.Perm (sa :: (plug sr sp).toList) :=
    (plug_perm _ _).trans ((plug_perm _ _).symm.cons sa)
  have hsa := hperm.mem_iff.mpr (List.mem_cons_self (a := sa))
  obtain ⟨hsaout, -⟩ := List.nodup_cons.mp (hperm.nodup_iff.mp hrdist)
  obtain ⟨o, ho, -, hop, -, -⟩ := id hold
  -- the parent of `old` first
  obtain ⟨m₁, hrun₁, habove₁, hsame₁⟩ := relink_run (p := p) .left
    (show Above m p old from habove) ⟨(hin old (.inr (.inl rfl))).1, holdp⟩ hpdist
    fun b hb => (hin b (.inr (.inr (.inr hb)))).1
  have hright₁ := hright.congr fun b hb => hsame₁ b (hrout b hb)
  obtain ⟨up, ⟨sn, hsn, -⟩, -, -⟩ := Sub.inside sp hright₁
  -- then the place that `sa` leaves
  obtain ⟨m₂, sn₂, hrun₂, hsn₂, hr₂, hsub₂, hsc, hsr, hroot₂, hsame₂⟩ := leavePlace_cases
    hsn hright₁ hrdist (fun b hb => hin b (.inr (.inr (.inl hb)))) (hold.congr (hsame₁ _ holdp))
    holdr hsp
  have hleft₂ : Sub m₂.nodes left old := hleft.congr fun b hb =>
    (hsame₂ b (hlout b hb).1).trans (hsame₁ b (hlout b hb).2)
  -- and the fields of `old`
  obtain ⟨m₃, hrun₃, hnode₃, hleft₃, hroot₃, hsame₃⟩ := takeFields_run
    (hold.congr ((hsame₂ old holdr).trans (hsame₁ old holdp))) hsn₂ hleft₂ hl hldist
    (fun b hb => (hin b (.inl hb)).1) (fun h => (hlout sa h).1 hsa)
    (hin sa (.inr (.inr (.inl hsa)))).2
  have hall : (left.toList ++ old :: (plug (.node sc .nil sa sr) sp).toList ++ pathAddrs p).Perm
      (old :: ((left.toList ++ sa :: (plug sr sp).toList) ++ pathAddrs p)) := by
    rw [List.perm_iff_count]
    intro b
    have hcount := hperm.count_eq b
    simp only [List.count_append, List.count_cons] at hcount ⊢
    omega
  have hsame : ∀ b, b ∉ left.toList → b ∉ (plug (.node sc .nil sa sr) sp).toList →
      m₃.nodes b = m₁.nodes b := fun b hbl hbr =>
    (hsame₃ b (fun heq => hbr (heq ▸ hsa)) hbl).trans (hsame₂ b hbr)
  refine ⟨m₃, ?_, ⟨?_, ⟨hr₂ ▸ hnode₃, hleft₃, ?_⟩, (List.nodup_cons.mp (hall.nodup_iff.mp hdist)).2,
    fun b hb => haddrs b (hall.mem_iff.mpr (List.mem_cons_of_mem _ hb))⟩, fun b hb => ?_⟩
  · unfold takePlace
    rw [bind_ok (get_run ho), hop, relinkLeft_eq, bind_ok hrun₁, bind_ok (get_run hsn),
      bind_ok hrun₂, bind_ok hrun₃, hsc, hsr]
    rfl
  · exact habove₁.congr (hroot₃.trans hroot₂) fun b hb =>
      hsame b (fun hbl => (hlout b hbl).2 hb) fun hbr => hrout b hbr hb
  · refine hsub₂.congr fun b hb => hsame₃ b (fun heq => hsaout (heq ▸ hb)) fun hbl => ?_
    exact (hlout b hbl).1 (hperm.mem_iff.mpr (List.mem_cons_of_mem _ hb))
  · simp only [toList_node, List.mem_append, List.mem_cons, not_or] at hb
    have hbr : b ∉ (plug (.node sc .nil sa sr) sp).toList := fun hin =>
      (List.mem_cons.mp (hperm.mem_iff.mp hin)).elim hb.1.2.1 hb.1.2.2
    exact (hsame b hb.1.1 hbr).trans (hsame₁ b hb.2)

/-- The walk to the left is by left links. -/
theorem rbLeftmost_sides (c : Color) (l : BinTree NodePtr) (a : NodePtr) (r : BinTree NodePtr)
    (q : Path NodePtr) (hq : ∀ f ∈ q, f.side = .left) :
    ∀ f ∈ (rbLeftmost c l a r q).path, f.side = .left := by
  induction l generalizing c a r q with
  | nil => exact hq
  | node lc ll la lr ih _ =>
      refine ih lc la lr (⟨.left, c, a, r⟩ :: q) fun f hf => ?_
      rcases List.mem_cons.mp hf with rfl | hf
      · rfl
      · exact hq f hf

theorem plug_append (u : BinTree NodePtr) (p q : Path NodePtr) :
    plug u (p ++ q) = plug (plug u p) q := by
  induction p generalizing u with
  | nil => rfl
  | cons f p ih => exact ih (f.join u)

theorem takePlace_turns {sp : Path NodePtr} (hl : addr left ∈ left.toList)
    (hsp : ∀ f ∈ sp, f.side = .left) :
    Turns (takePlace old sa) (plug (.node sc .nil sa sr) (sp ++ ⟨.right, c, old, left⟩ :: p))
      (addr sr, parentAddr (sp ++ ⟨.right, c, sa, left⟩ :: p), colorBit sc)
      (plug sr (sp ++ ⟨.right, c, sa, left⟩ :: p)) := by
  rw [plug_append, plug_append]
  intro m hm
  have hcut : Cut m (.node c left old (plug (.node sc .nil sa sr) sp)) p := holds_cut.mp hm
  obtain ⟨m', hrun, hcut', hsame⟩ := takePlace_run hcut hl hsp
  have hparent : parentAddr (sp ++ [⟨.right, c, sa, left⟩])
      = parentAddr (sp ++ ⟨.right, c, sa, left⟩ :: p) := by
    cases sp with
    | nil => rfl
    | cons f q => rfl
  have hm' : Holds m' (plug (.node c left sa (plug sr sp)) p) := holds_cut.mpr hcut'
  have hmem' : ∀ b, b ∈ (plug (.node c left sa (plug sr sp)) p).toList
      ↔ b ∈ (BinTree.node c left sa (plug sr sp)).toList ++ pathAddrs p :=
    fun b => (plug_perm p _).mem_iff
  have hsub : (plug (.node c left sa (plug sr sp)) p).toList
      ⊆ (plug (.node c left old (plug (.node sc .nil sa sr) sp)) p).toList := by
    intro b hb
    have hb' := (hmem' b).mp hb
    have hperm : (plug (.node sc .nil sa sr) sp).toList.Perm (sa :: (plug sr sp).toList) :=
      (plug_perm _ _).trans ((plug_perm _ _).symm.cons sa)
    refine (plug_perm p _).mem_iff.mpr ?_
    simp only [toList_node, List.mem_append, List.mem_cons, hperm.mem_iff] at hb' ⊢
    tauto
  rw [hparent] at hrun
  exact ⟨m', hrun, hm', hsub, hm.confined hm' hsub fun b hb =>
    hsame b fun hin => hb ((hmem' b).mpr hin)⟩

variable {turns : Nat}

/-- The walk of `cceph_rb_erase` to the successor. -/
theorem leftmost_turns {l r : BinTree NodePtr} {a : NodePtr} (q : Path NodePtr)
    (hturns : (BinTree.node c l a r).height ≤ turns) :
    Turns (leftmost turns a) (plug (.node c l a r) p) (rbLeftmost c l a r q).data
      (plug (.node c l a r) p) := by
  intro m hm
  obtain ⟨-, hsub, -, haddrs⟩ := holds_cut.mp hm
  refine ⟨m, leftmost_run q turns hsub (fun b hb => ?_) hturns, hm, List.Subset.refl _,
    fun _ _ => rfl, fun _ => rfl⟩
  exact (haddrs b (List.mem_append_left _ hb)).1

/-- A node with two children. -/
theorem eraseTwo_turns {lc rc : Color} {ll lr rl rr : BinTree NodePtr} {la ra : NodePtr}
    (h : rbErase ⟨c, .node lc ll la lr, old, .node rc rl ra rr, p⟩ = .ok t)
    (hturns : (plug (.node c (.node lc ll la lr) old (.node rc rl ra rr)) p).height + 2 ≤ turns) :
    Turns (eraseTwo turns old) (plug (.node c (.node lc ll la lr) old (.node rc rl ra rr)) p) ()
      t := by
  cases hs : rbLeftmost rc rl ra rr ([] : Path NodePtr) with
  | mk sc sl sa sr sp =>
  obtain ⟨hroot, hsl, -, -⟩ := rbLeftmost_split rc rl ra rr ([] : Path NodePtr) hs
  have hsides := rbLeftmost_sides rc rl ra rr [] (fun _ hf => by cases hf)
  rw [hs] at hsides
  rw [List.append_nil] at hroot
  cases hsl
  have hwhole : plug (.node c (.node lc ll la lr) old (.node rc rl ra rr)) p
      = plug (.node sc .nil sa sr) (sp ++ ⟨.right, c, old, .node lc ll la lr⟩ :: p) := by
    rw [plug_append]
    exact congrArg (fun u => plug (.node c (.node lc ll la lr) old u) p) hroot.symm
  have hunlinked : rbUnlinked sc sr (sp ++ ⟨.right, c, sa, .node lc ll la lr⟩ :: p) = .ok t := by
    simp only [rbErase, hs] at h
    exact h
  refine Turns.getNode fun o _ _ _ hor => ?_
  rw [show o.rbRight = ra from hor]
  refine Turns.bind (leftmost_turns (p := ⟨.right, c, old, .node lc ll la lr⟩ :: p) [] ?_) ?_
  · have hdeep := height_plug (⟨.right, c, old, .node lc ll la lr⟩ :: p) (.node rc rl ra rr)
    rw [List.length_cons] at hdeep
    exact Nat.le_trans (Nat.le_trans (Nat.le_add_left _ _) hdeep)
      (Nat.le_trans (Nat.le_add_right _ 2) hturns)
  · show Turns _ (plug (.node c (.node lc ll la lr) old (.node rc rl ra rr)) p) () t
    rw [hs, hwhole]
    refine Turns.bind (takePlace_turns (node_mem _ _ _ _) hsides) ?_
    refine repair_turns hunlinked ?_
    have hdeep := height_plug (sp ++ ⟨.right, c, old, .node lc ll la lr⟩ :: p)
      (.node sc .nil sa sr)
    rw [← hwhole, List.length_append, List.length_cons] at hdeep
    rw [List.length_append, List.length_cons]
    omega

/-- `cceph_rb_erase` in memory is the one over trees. -/
theorem erase_turns {node : Loc NodePtr} (h : rbErase node = .ok t)
    (hturns : node.root.height + 2 ≤ turns) : Turns (erase turns node.data) node.root () t := by
  obtain ⟨c, l, a, r, p⟩ := node
  have hdeep := height_plug p (.node c l a r)
  have hlen : p.length + 2 ≤ turns := by
    have hle : (plug (.node c l a r) p).height + 2 ≤ turns := hturns
    omega
  show Turns (erase turns a) (plug (.node c l a r) p) () t
  refine Turns.getNode fun n _ _ hl hr => ?_
  rw [hl, hr]
  cases l with
  | nil =>
      have hone : OnlyChild .nil r r := .inl ⟨rfl, rfl⟩
      refine eraseOne_turns hone ?_ hlen
      cases r <;> exact h
  | node lc ll la lr =>
      refine Turns.notNull (p := ⟨.left, c, a, r⟩ :: p) fun hla => ?_
      rw [if_neg (show addr (.node lc ll la lr) ≠ 0 from hla)]
      cases r with
      | nil => exact eraseOne_turns (.inr ⟨rfl, rfl⟩) h hlen
      | node rc rl ra rr =>
          refine Turns.notNull (p := ⟨.right, c, a, .node lc ll la lr⟩ :: p) fun hra => ?_
          rw [if_neg (show addr (.node rc rl ra rr) ≠ 0 from hra)]
          exact eraseTwo_turns h hturns

end

end RbHeap

end CephInC
