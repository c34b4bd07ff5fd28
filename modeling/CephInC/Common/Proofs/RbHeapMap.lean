/-
The functions of the map macro in memory: the descent to a link, the node
hung there, the search, and what they leave in memory.
-/
import CephInC.Common.Proofs.Map
import CephInC.Common.Proofs.RbHeapInsert
import CephInC.Common.Proofs.RbHeapWalk

namespace CephInC

open Lib

namespace RbHeap

variable {p : Path NodePtr} {m : RbMem} {a : NodePtr}

-- ============================================================== the link

/-- The link at the end of a path. -/
def linkOf : Path NodePtr → Link
  | [] => .root
  | ⟨.left, _, a, _⟩ :: _ => .left a
  | ⟨.right, _, a, _⟩ :: _ => .right a

theorem readLink_turns {t : BinTree NodePtr} :
    Turns (linkOf p).read (plug t p) (addr t) (plug t p) := by
  cases p with
  | nil => exact Turns.getRoot t
  | cons f p =>
      obtain ⟨side, c, b, s⟩ := f
      cases side with
      | left =>
          refine Turns.getFrame (f := ⟨.left, c, b, s⟩) fun n _ _ hx _ => ?_
          rw [← show n.rbLeft = addr t from hx]
          exact Turns.pure _ _
      | right =>
          refine Turns.getFrame (f := ⟨.right, c, b, s⟩) fun n _ _ hx _ => ?_
          rw [← show n.rbRight = addr t from hx]
          exact Turns.pure _ _

theorem writeLink_run {child : NodePtr} (h : Above m p child) (hdist : (pathAddrs p).Nodup) :
    ∃ m', Link.write a (linkOf p) m = .ok ((), m') ∧ Above m' p a
      ∧ ∀ b, b ∉ pathAddrs p → m'.nodes b = m.nodes b := by
  cases p with
  | nil => exact ⟨_, rfl, rfl, fun _ _ => rfl⟩
  | cons f p =>
      obtain ⟨hf, hsib, hrest⟩ := h
      obtain ⟨hfout, hpdist⟩ := List.nodup_cons.mp hdist
      have hset : ∃ m', Link.write a (linkOf (f :: p)) m = .ok ((), m')
          ∧ m' = { m with nodes := write m.nodes f.data fun n => withChild f.side n a } := by
        obtain ⟨side, c, b, s⟩ := f
        cases side with
        | left => exact ⟨_, hf.run, rfl⟩
        | right => exact ⟨_, hf.run, rfl⟩
      obtain ⟨m', hrun, rfl⟩ := hset
      refine ⟨_, hrun, ⟨hf.setChild, ?_, ?_⟩, fun b hb => write_ne fun heq => ?_⟩
      · exact hsib.congr fun b hb => write_ne fun heq =>
          hfout (heq ▸ List.mem_append_left _ hb)
      · exact hrest.congr rfl fun b hb => write_ne fun heq =>
          hfout (heq ▸ List.mem_append_right _ hb)
      · exact hb (heq ▸ List.mem_cons_self)

/-- A new node is hung where the path ends, red and without children. -/
theorem linkNode_run {n : RbNode} (h : Cut m .nil p) (hn : m.nodes a = some n) (ha : a ≠ 0)
    (haligned : Aligned a) (hout : a ∉ pathAddrs p) :
    ∃ m', linkNode a (parentAddr p) (linkOf p) m = .ok ((), m')
      ∧ Cut m' (.node .red .nil a .nil) p
      ∧ ∀ b, b ∉ pathAddrs p → b ≠ a → m'.nodes b = m.nodes b := by
  have hparent := parentAddr_aligned h
  obtain ⟨habove, -, hdist, haddrs⟩ := h
  have hmod := modify_run (f := fun _ => ⟨parentAddr p, 0, 0⟩) hn
  have habove₁ : Above { m with nodes := write m.nodes a fun _ => ⟨parentAddr p, 0, 0⟩ } p 0 :=
    habove.congr rfl fun b hb => write_ne fun heq => hout (heq ▸ hb)
  obtain ⟨m', hrun, habove', hsame⟩ := writeLink_run (a := a) habove₁ hdist
  refine ⟨m', (bind_ok hmod).trans hrun, ⟨habove', ⟨⟨_, (hsame a hout).trans (write_some hn),
    aligned_color hparent, aligned_parent hparent, rfl, rfl⟩, trivial, trivial⟩, ?_, ?_⟩, ?_⟩
  · exact List.nodup_cons.mpr ⟨hout, hdist⟩
  · intro b hb
    rcases List.mem_cons.mp hb with rfl | hb
    · exact ⟨ha, haligned⟩
    · exact haddrs b hb
  · exact fun b hb hba => (hsame b hb).trans (write_ne hba)

-- ========================================================== the descents

section
variable {κ : Type} {cmp : κ → κ → Int} {key : NodePtr → κ} {k : κ}

theorem insertDescent_turns : ∀ (turns : Nat) (t : BinTree NodePtr) (p : Path NodePtr),
    t.height < turns →
    Turns (insertDescent cmp key k turns (parentAddr p) (linkOf p)) (plug t p)
      ((implMapInsertLoop cmp key k t p).map fun q => (parentAddr q, linkOf q)) (plug t p)
  | 0, _, _, hturns => by omega
  | turns + 1, .nil, p, _ => by
      refine Turns.bind readLink_turns ?_
      exact Turns.pure _ _
  | turns + 1, .node c l b r, p, hturns => by
      rw [height_node] at hturns
      have hread : Turns (linkOf p).read (plug (.node c l b r) p) b (plug (.node c l b r) p) :=
        readLink_turns
      refine Turns.bind hread (Turns.notNull fun hb => ?_)
      rw [if_neg hb]
      unfold implMapInsertLoop
      by_cases hlt : cmp k (key b) < 0
      · rw [if_pos hlt, if_pos hlt]
        exact insertDescent_turns turns l (⟨.left, c, b, r⟩ :: p) (by omega)
      · rw [if_neg hlt, if_neg hlt]
        by_cases hgt : cmp k (key b) > 0
        · rw [if_pos hgt, if_pos hgt]
          exact insertDescent_turns turns r (⟨.right, c, b, l⟩ :: p) (by omega)
        · rw [if_neg hgt, if_neg hgt]
          exact Turns.pure _ _

theorem searchLoop_turns : ∀ (turns : Nat) (t : BinTree NodePtr) (p : Path NodePtr),
    t.height < turns →
    Turns (searchLoop cmp key k turns (addr t)) (plug t p)
      ((implMapSearchLoop cmp key k t p).map Loc.data) (plug t p)
  | 0, _, _, hturns => by omega
  | turns + 1, .nil, p, _ => Turns.pure _ _
  | turns + 1, .node c l b r, p, hturns => by
      rw [height_node] at hturns
      refine Turns.notNull fun hb => ?_
      show Turns (searchLoop cmp key k (turns + 1) b) _ _ _
      unfold searchLoop
      rw [if_neg hb]
      refine Turns.getNode fun n _ _ hl hr => ?_
      rw [hl, hr]
      unfold implMapSearchLoop
      by_cases hlt : cmp k (key b) < 0
      · rw [if_pos hlt, if_pos hlt]
        exact searchLoop_turns turns l (⟨.left, c, b, r⟩ :: p) (by omega)
      · rw [if_neg hlt, if_neg hlt]
        by_cases hgt : cmp k (key b) > 0
        · rw [if_pos hgt, if_pos hgt]
          exact searchLoop_turns turns r (⟨.right, c, b, l⟩ :: p) (by omega)
        · rw [if_neg hgt, if_neg hgt]
          exact Turns.pure _ _

end

-- ======================================================= the functions

section
variable {κ : Type} [DecidableEq κ] {cmp : κ → κ → Int} {key : NodePtr → κ} {t : BinTree NodePtr}
  {turns : Nat}

theorem mapSearch_turns (hc : LinearCmp cmp) (h : MapOk cmp key t) (k : κ)
    (hturns : t.height < turns) :
    Turns (mapSearch cmp key turns k) t
      (match lookup key k t.toList with
        | some e => (CCEPH_OK, some e)
        | none => (CCEPH_ERR_MAP_NODE_NOT_EXIST, none)) t := by
  refine Turns.bind (Turns.getRoot t) (Turns.bind (searchLoop_turns turns t [] hturns) ?_)
  have hs := implMapSearchLoop_spec hc k t [] h.inOrder
  cases hloop : implMapSearchLoop cmp key k t [] with
  | none =>
      rw [hloop] at hs
      rw [hs]
      exact Turns.pure _ _
  | some node =>
      rw [hloop] at hs
      obtain ⟨hroot, rfl⟩ := hs
      have hroot' : node.root = t := hroot
      have hnode : MapOk cmp key node.root := hroot'.symm ▸ h
      have hget := mapGet_root hc hnode
      rw [hroot', mapGet] at hget
      rw [hget]
      exact Turns.pure _ _

omit [DecidableEq κ] in
theorem orderedInsert_split {xs ys : List NodePtr} (hb : ∀ b ∈ xs, cmp (key b) (key a) < 0)
    (ha : ∀ b ∈ ys, cmp (key a) (key b) < 0) (hc : LinearCmp cmp) :
    (xs ++ ys).orderedInsert (fun e e' => cmp (key e) (key e') < 0) a = xs ++ a :: ys := by
  induction xs with
  | nil =>
      cases ys with
      | nil => rfl
      | cons y ys =>
          rw [List.nil_append, List.orderedInsert_cons, if_pos (ha y List.mem_cons_self)]
          rfl
  | cons x xs ih =>
      have hx : ¬cmp (key a) (key x) < 0 := fun h =>
        hc.irrefl _ (hc.trans h (hb x List.mem_cons_self))
      rw [List.cons_append, List.orderedInsert_cons, if_neg hx,
        ih fun b hb' => hb b (List.mem_cons_of_mem _ hb')]
      rfl

/-- An entry under a key that is there is turned away. -/
theorem mapInsert_exists (hc : LinearCmp cmp) (h : MapOk cmp key t)
    (hkey : lookup key (key a) t.toList ≠ none) (hturns : t.height < turns) :
    Turns (mapInsert cmp key turns a) t CCEPH_ERR_MAP_NODE_ALREADY_EXIST t := by
  have hs := implMapInsertLoop_spec hc (key a) t [] h.inOrder (fun _ hb => by cases hb)
    fun _ hb => by cases hb
  have hdescent : Turns (insertDescent cmp key (key a) turns 0 .root) t
      ((implMapInsertLoop cmp key (key a) t []).map fun q => (parentAddr q, linkOf q)) t :=
    insertDescent_turns turns t [] hturns
  refine Turns.bind hdescent ?_
  cases hloop : implMapInsertLoop cmp key (key a) t [] with
  | none => exact Turns.pure _ _
  | some q =>
      rw [hloop] at hs
      obtain ⟨hroot, hbef, haft⟩ := hs
      refine absurd (lookup_eq_none.mpr fun b hb => ?_) hkey
      rw [← show plug .nil q = t from hroot, plug_toList, toList_nil, List.append_nil] at hb
      rcases List.mem_append.mp hb with hb | hb
      · exact hc.ne (hbef b hb)
      · exact (hc.ne (haft b hb)).symm

/-- An entry under another key is put where it belongs. -/
theorem mapInsert_fresh {n : RbNode} (hc : LinearCmp cmp) (hm : Holds m t) (h : MapOk cmp key t)
    (hkey : lookup key (key a) t.toList = none) (hn : m.nodes a = some n) (ha : a ≠ 0)
    (haligned : Aligned a) (hturns : t.height + 2 ≤ turns) :
    ∃ m' t', mapInsert cmp key turns a m = .ok (CCEPH_OK, m') ∧ Holds m' t' ∧ MapOk cmp key t'
      ∧ t'.toList = t.toList.orderedInsert (fun e e' => cmp (key e) (key e') < 0) a
      ∧ ∀ b, (m'.nodes b).isSome = (m.nodes b).isSome := by
  have hs := implMapInsertLoop_spec hc (key a) t [] h.inOrder (fun _ hb => by cases hb)
    fun _ hb => by cases hb
  have hdescent : Turns (insertDescent cmp key (key a) turns 0 .root) t
      ((implMapInsertLoop cmp key (key a) t []).map fun q => (parentAddr q, linkOf q)) t :=
    insertDescent_turns turns t [] (by omega)
  obtain ⟨m₁, hrun₁, hm₁, -, hconf₁⟩ := hdescent m hm
  cases hloop : implMapInsertLoop cmp key (key a) t [] with
  | none =>
      rw [hloop] at hs
      obtain ⟨b, hb, hbk⟩ := hs
      exact absurd hbk (lookup_eq_none.mp hkey b hb)
  | some q =>
      rw [hloop] at hs hrun₁
      obtain ⟨hroot, hbef, haft⟩ := hs
      have hroot' : plug .nil q = t := hroot
      have hlist : Path.before q ++ Path.after q = t.toList := by
        rw [← hroot', plug_toList, toList_nil, List.append_nil]
      have hpath : ∀ b ∈ pathAddrs q, b ∈ t.toList := by
        intro b hb
        rw [← hroot']
        exact (plug_perm q .nil).mem_iff.mpr hb
      have hta : a ∉ t.toList := fun hin => lookup_eq_none.mp hkey a hin rfl
      have hcut₁ : Cut m₁ .nil q := holds_cut.mp (hroot'.symm ▸ hm₁)
      obtain ⟨m₂, hrun₂, hcut₂, hsame₂⟩ := linkNode_run hcut₁ ((hconf₁.same a hta).trans hn) ha
        haligned fun hin => hta (hpath a hin)
      obtain ⟨t', ht', hrb', hlist'⟩ := rbInsertColor_spec a (hroot'.symm ▸ h.redBlack)
      have hdeep := height_plug q .nil
      rw [hroot', height_nil] at hdeep
      have hlen : q.length + 2 ≤ turns := by omega
      obtain ⟨m₃, hrun₃, hm₃, -, hconf₃⟩ := insertColor_turns ht' hlen m₂ (holds_cut.mpr hcut₂)
      have hord : InOrder cmp key (Path.before q ++ Path.after q) := hlist.symm ▸ h.inOrder
      refine ⟨m₃, t', ?_, hm₃, ⟨hrb', hlist' ▸ hord.insert hbef haft⟩, ?_, fun b => ?_⟩
      · exact (bind_ok hrun₁).trans ((bind_ok hrun₂).trans (bind_ok hrun₃))
      · rw [hlist', ← hlist, orderedInsert_split hbef haft hc]
      · refine (hconf₃.there b).trans (Eq.trans ?_ (hconf₁.there b))
        by_cases hb : b ∈ pathAddrs q ∨ b = a
        · have hnew : b ∈ (plug (.node .red .nil a .nil) q).toList :=
            (plug_perm q _).mem_iff.mpr (List.mem_cons.mpr hb.symm)
          rw [(holds_cut.mpr hcut₂).sub.there b hnew]
          rcases hb with hb | rfl
          · rw [hm₁.sub.there b (hpath b hb)]
          · rw [hconf₁.there b, hn]
            rfl
        · rw [hsame₂ b (fun hin => hb (.inl hin)) fun heq => hb (.inr heq)]

end

end RbHeap

end CephInC
