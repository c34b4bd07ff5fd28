/-
Any run of calls on a map in memory that fits: no call faults, none of
its loops takes more than `2 log₂ (n + 1) + 2` turns on a map of `n`
entries, and every answer is the one that the entries in order give.
-/
import CephInC.Common.Proofs.RbHeapMap

namespace CephInC

open Lib

variable {κ : Type} [DecidableEq κ] {cmp : κ → κ → Int} {turns : Nat} {s : MapNodes κ}
  {h : EntryMem κ}

/-- The memory has the entries, and the tree has those of the map. -/
structure MapNodes.Holds (cmp : κ → κ → Int) (s : MapNodes κ) (h : EntryMem κ) : Prop where
  keys : h.keys = s.keys
  there : ∀ a, (h.mem.nodes a).isSome = s.nodes a
  addrs : ∀ a, s.nodes a = true → a ≠ 0 ∧ RbHeap.Aligned a
  tree : ∃ t, RbHeap.Holds h.mem t ∧ MapOk cmp s.keys t ∧ t.toList = s.entries

namespace MapNodes

-- ========================================================== at a position

/-- An entry of the map is a node of the tree. -/
theorem node_of_entry {t : BinTree NodePtr} {a : NodePtr} (ha : a ∈ t.toList)
    (hdist : t.toList.Nodup) :
    ∃ node : Loc NodePtr, node.root = t ∧ node.data = a ∧ t.toList = node.before ++ a :: node.after
      ∧ a ∉ node.before ∧ a ∉ node.after := by
  obtain ⟨node, hroot, rfl⟩ := exists_loc [] ha
  have hroot' : node.root = t := hroot
  have hlist := node.root_toList
  rw [hroot'] at hlist
  refine ⟨node, hroot', rfl, hlist, ?_⟩
  rw [hlist, List.nodup_middle, List.nodup_cons, List.mem_append, not_or] at hdist
  exact hdist.1

theorem dropWhile_split {xs : List NodePtr} {a : NodePtr} (h : a ∉ xs) (ys : List NodePtr) :
    ((xs ++ a :: ys).dropWhile fun e => e ≠ a).tail = ys := by
  have hxs : ∀ e ∈ xs, (decide (e ≠ a)) = true := fun e he =>
    decide_eq_true fun heq => h (heq ▸ he)
  rw [List.dropWhile_append_of_pos hxs, List.dropWhile_cons_of_neg (by simp)]
  rfl

theorem takeWhile_split {xs : List NodePtr} {a : NodePtr} (h : a ∉ xs) (ys : List NodePtr) :
    ((xs ++ a :: ys).takeWhile fun e => e ≠ a) = xs := by
  have hxs : ∀ e ∈ xs, (decide (e ≠ a)) = true := fun e he =>
    decide_eq_true fun heq => h (heq ▸ he)
  rw [List.takeWhile_append_of_pos hxs, List.takeWhile_cons_of_neg (by simp), List.append_nil]

theorem map_split {xs ys : List NodePtr} {a b : NodePtr} (hx : a ∉ xs) (hy : a ∉ ys) :
    (xs ++ a :: ys).map (fun e => if e = a then b else e) = xs ++ b :: ys := by
  have hsame : ∀ zs : List NodePtr, a ∉ zs → zs.map (fun e => if e = a then b else e) = zs := by
    intro zs hz
    have hid : ∀ e ∈ zs, (if e = a then b else e) = id e := fun e he =>
      if_neg fun heq : e = a => hz (heq ▸ he)
    rw [List.map_congr_left hid, List.map_id]
  rw [List.map_append, List.map_cons, hsame xs hx, hsame ys hy, if_pos rfl]

-- ============================================================== one call

section
variable {α : Type}

omit [DecidableEq κ] in
theorem onEntries_run {x : (NodePtr → κ) → Prog RbMem α} {f : α → RbAnswer} {a : α} {mem : RbMem}
    (hx : x h.keys h.mem = .ok (a, mem)) :
    onEntries (fun key => do
        let r ← x key
        return f r) h = .ok (f a, { h with mem := mem }) := by
  have hbind : (do
      let r ← x h.keys
      return f r : Prog RbMem RbAnswer) h.mem = .ok (f a, mem) := bind_ok hx
  unfold onEntries
  simp only [hbind]

omit [DecidableEq κ] in
/-- A call that only looks at the tree. -/
theorem Holds.look {x : (NodePtr → κ) → Prog RbMem α} {f : α → RbAnswer} {a : α}
    {t : BinTree NodePtr} (hs : s.Holds cmp h) (ht : RbHeap.Holds h.mem t)
    (hok : MapOk cmp s.keys t) (hlist : t.toList = s.entries)
    (hx : RbHeap.Turns (x s.keys) t a t) :
    ∃ h', onEntries (fun key => do
        let r ← x key
        return f r) h = .ok (f a, h') ∧ s.Holds cmp h' := by
  obtain ⟨mem, hrun, ht', -, hconf⟩ := hx h.mem ht
  exact ⟨{ h with mem := mem }, onEntries_run (hs.keys ▸ hrun), hs.keys,
    fun b => (hconf.there b).trans (hs.there b), hs.addrs, t, ht', hok, hlist⟩

end

omit [DecidableEq κ] in
/-- The tree of a map, no deeper than the loops have turns for. -/
theorem Holds.shape (hs : s.Holds cmp h) (hturns : rbTurns s.entries.length ≤ turns) :
    ∃ t, RbHeap.Holds h.mem t ∧ MapOk cmp s.keys t ∧ t.toList = s.entries
      ∧ t.height + 2 ≤ turns := by
  obtain ⟨t, ht, hok, hlist⟩ := hs.tree
  have hdeep := hok.redBlack.height_le
  rw [hlist] at hdeep
  exact ⟨t, ht, hok, hlist, Nat.le_trans (Nat.add_le_add_right hdeep 2) hturns⟩

theorem Holds.alloc {a : NodePtr} {links : RbNode} {k : κ} (hs : s.Holds cmp h)
    (hnew : s.nodes a = false) (haddr : a ≠ 0 ∧ RbHeap.Aligned a) :
    (s.apply cmp (.alloc a links k)).1.Holds cmp
      ⟨{ h.mem with nodes := Function.update h.mem.nodes a (some links) },
        Function.update h.keys a k⟩ := by
  obtain ⟨t, ht, hok, hlist⟩ := hs.tree
  have hta : a ∉ t.toList := fun hin => by
    have hthere := ht.sub.there a hin
    rw [hs.there, hnew] at hthere
    cases hthere
  have hne : ∀ e ∈ t.toList, e ≠ a := fun e he heq => hta (heq ▸ he)
  have hkeys : ∀ e ∈ t.toList, Function.update s.keys a k e = s.keys e := fun e he =>
    Function.update_of_ne (hne e he) _ _
  refine ⟨congrArg (fun f => Function.update f a k) hs.keys, fun b => ?_, fun b hb => ?_, t,
    ⟨ht.root, ?_, ht.distinct, ht.addrs⟩, ⟨hok.redBlack, ?_⟩, hlist⟩
  · show (Function.update h.mem.nodes a (some links) b).isSome = Function.update s.nodes a true b
    by_cases hb : b = a
    · rw [hb, Function.update_self, Function.update_self]
      rfl
    · rw [Function.update_of_ne hb, Function.update_of_ne hb, hs.there]
  · by_cases hba : b = a
    · exact hba ▸ haddr
    · have hb' : Function.update s.nodes a true b = true := hb
      rw [Function.update_of_ne hba] at hb'
      exact hs.addrs b hb'
  · exact ht.sub.congr fun b hb => Function.update_of_ne (hne b hb) _ _
  · refine hok.inOrder.imp_of_mem fun hx hy hlt => ?_
    show cmp (Function.update s.keys a k _) (Function.update s.keys a k _) < 0
    rw [hkeys _ hx, hkeys _ hy]
    exact hlt

theorem Holds.free {a : NodePtr} (hs : s.Holds cmp h) (hfit : a ∉ s.entries) :
    (s.apply cmp (.free a)).1.Holds cmp
      { h with mem := { h.mem with nodes := Function.update h.mem.nodes a none } } := by
  obtain ⟨t, ht, hok, hlist⟩ := hs.tree
  have hne : ∀ e ∈ t.toList, e ≠ a := fun e he heq => hfit (heq ▸ hlist ▸ he)
  refine ⟨hs.keys, fun b => ?_, fun b hb => ?_, t, ⟨ht.root, ?_, ht.distinct, ht.addrs⟩, hok, hlist⟩
  · show (Function.update h.mem.nodes a none b).isSome = Function.update s.nodes a false b
    by_cases hb : b = a
    · rw [hb, Function.update_self, Function.update_self]
      rfl
    · rw [Function.update_of_ne hb, Function.update_of_ne hb, hs.there]
  · have hb' : Function.update s.nodes a false b = true := hb
    by_cases hba : b = a
    · rw [hba, Function.update_self] at hb'
      cases hb'
    · rw [Function.update_of_ne hba] at hb'
      exact hs.addrs b hb'
  · exact ht.sub.congr fun b hb => Function.update_of_ne (hne b hb) _ _

theorem Holds.insert (hc : LinearCmp cmp) (hs : s.Holds cmp h) {node : NodePtr}
    (hnode : s.nodes node = true) (hturns : rbTurns s.entries.length ≤ turns) :
    ∃ h', rbCall cmp turns (.insert node) h = .ok ((s.putNew cmp node).2, h')
      ∧ (s.putNew cmp node).1.Holds cmp h' := by
  obtain ⟨t, ht, hok, hlist, hheight⟩ := hs.shape hturns
  have hfind : s.find (s.keys node) = lookup s.keys (s.keys node) t.toList := by rw [hlist, find]
  unfold putNew
  cases hkey : lookup s.keys (s.keys node) t.toList with
  | some e =>
      rw [hfind, hkey]
      have hsome : lookup s.keys (s.keys node) t.toList ≠ none := by
        rw [hkey]
        nofun
      have hlt : t.height < turns := by omega
      exact hs.look (x := fun key => RbHeap.mapInsert cmp key turns node) (f := .code) ht hok hlist
        (RbHeap.mapInsert_exists hc hok hsome hlt)
  | none =>
      rw [hfind, hkey]
      obtain ⟨n, hn⟩ := Option.isSome_iff_exists.mp ((hs.there node).trans hnode)
      obtain ⟨mem, t', hrun, ht', hok', hlist', hthere⟩ := RbHeap.mapInsert_fresh hc ht hok hkey hn
        (hs.addrs node hnode).1 (hs.addrs node hnode).2 hheight
      exact ⟨{ h with mem := mem },
        onEntries_run (x := fun key => RbHeap.mapInsert cmp key turns node) (hs.keys ▸ hrun),
        hs.keys, fun b => (hthere b).trans (hs.there b), hs.addrs, t', ht', hok', hlist ▸ hlist'⟩

theorem Holds.remove (hs : s.Holds cmp h) {node : NodePtr} (hnode : node ∈ s.entries)
    (hturns : rbTurns s.entries.length ≤ turns) :
    ∃ h', rbCall cmp turns (.remove node) h = .ok ((s.apply cmp (.remove node)).2, h')
      ∧ (s.apply cmp (.remove node)).1.Holds cmp h' := by
  obtain ⟨t, ht, hok, hlist, hheight⟩ := hs.shape hturns
  obtain ⟨loc, rfl, rfl, hsplit, hbefore, -⟩ := node_of_entry (hlist ▸ hnode) ht.distinct
  obtain ⟨t', hrun', hrb', hlist'⟩ := rbErase_spec hok.redBlack
  obtain ⟨mem, hrun, ht', -, hconf⟩ := RbHeap.erase_turns hrun' hheight h.mem ht
  have hord := hok.inOrder
  rw [hsplit] at hord
  have herase : s.entries.erase loc.data = loc.before ++ loc.after := by
    rw [← hlist, hsplit, List.erase_append_right _ hbefore, List.erase_cons_head]
  exact ⟨{ h with mem := mem },
    onEntries_run (x := fun _ => RbHeap.mapRemove turns loc.data) (bind_ok hrun), hs.keys,
    fun b => (hconf.there b).trans (hs.there b), hs.addrs, t', ht',
    ⟨hrb', hlist' ▸ hord.split.1⟩, hlist'.trans herase.symm⟩

theorem Holds.replace (hs : s.Holds cmp h) {victim newNode : NodePtr}
    (hfit : RbCall.Fits s (.replace victim newNode)) :
    ∃ h', rbCall cmp turns (.replace victim newNode) h
        = .ok ((s.apply cmp (.replace victim newNode)).2, h')
      ∧ (s.apply cmp (.replace victim newNode)).1.Holds cmp h' := by
  obtain ⟨hvictim, hnode, hnew, hkey⟩ := hfit
  obtain ⟨t, ht, hok, hlist⟩ := hs.tree
  obtain ⟨loc, rfl, rfl, hsplit, hbefore, hafter⟩ := node_of_entry (hlist ▸ hvictim) ht.distinct
  obtain ⟨n, hn⟩ := Option.isSome_iff_exists.mp ((hs.there newNode).trans hnode)
  have hmem : ∀ b, b ∈ loc.root.toList
      ↔ b ∈ (BinTree.node loc.color loc.left loc.data loc.right).toList
        ++ RbHeap.pathAddrs loc.path := fun b => (RbHeap.plug_perm _ _).mem_iff
  obtain ⟨mem, hrun, hcut, hsame⟩ := RbHeap.replaceNode_run (RbHeap.holds_cut.mp ht)
    (fun hin => hnew (hlist ▸ (hmem newNode).mpr hin)) hn (hs.addrs newNode hnode)
  have ht' : RbHeap.Holds mem (loc.setData newNode).root := RbHeap.holds_cut.mpr hcut
  have hmem' : ∀ b, b ∈ (loc.setData newNode).root.toList
      ↔ b ∈ (BinTree.node loc.color loc.left newNode loc.right).toList
        ++ RbHeap.pathAddrs loc.path := fun b => (RbHeap.plug_perm _ _).mem_iff
  have hlist' : (loc.setData newNode).root.toList
      = s.entries.map fun e => if e = loc.data then newNode else e := by
    rw [Loc.root_toList, ← hlist, hsplit, map_split hbefore hafter]
    rfl
  refine ⟨{ h with mem := mem }, ?_, hs.keys, fun b => ?_, hs.addrs, _, ht',
    setData_mapOk hok hkey, hlist'⟩
  · unfold rbCall onEntries
    simp only [bind_ok hrun]
    rfl
  · refine Eq.trans ?_ (hs.there b)
    by_cases hb : b ∈ (loc.setData newNode).root.toList
    · rw [ht'.sub.there b hb]
      rw [Loc.root_toList] at hb
      by_cases hbn : b = newNode
      · rw [hbn, hn]
        rfl
      · refine (ht.sub.there b ?_).symm
        rw [hsplit]
        simp only [List.mem_append, List.mem_cons] at hb ⊢
        exact hb.imp_right fun hb => .inr (hb.resolve_left hbn)
    · exact congrArg Option.isSome (hsame b fun hin => hb ((hmem' b).mpr hin))

theorem Holds.step (hc : LinearCmp cmp) (hs : s.Holds cmp h) {call : RbCall κ}
    (hfit : call.Fits s) (hturns : rbTurns s.entries.length ≤ turns) :
    ∃ h', rbCall cmp turns call h = .ok ((s.apply cmp call).2, h')
      ∧ (s.apply cmp call).1.Holds cmp h' := by
  obtain ⟨t, ht, hok, hlist, hheight⟩ := hs.shape hturns
  have hle : t.height ≤ turns := by omega
  cases call with
  | alloc a links k => exact ⟨_, rfl, hs.alloc hfit.1 hfit.2⟩
  | free a => exact ⟨_, rfl, hs.free hfit.2⟩
  | insert node => exact hs.insert hc hfit.1 hturns
  | remove node => exact hs.remove hfit hturns
  | search k =>
      have hx := RbHeap.mapSearch_turns hc hok k (show t.height < turns by omega)
      rw [hlist] at hx
      obtain ⟨h', hrun, hs'⟩ := hs.look (x := fun key => RbHeap.mapSearch cmp key turns k)
        (f := fun ret => .found ret.1 ret.2) ht hok hlist hx
      refine ⟨h', hrun.trans ?_, hs'⟩
      show _ = Except.ok (searched (lookup s.keys k s.entries), h')
      cases lookup s.keys k s.entries with
      | none => rfl
      | some e => rfl
  | first =>
      have hx := RbHeap.first_turns (t := t) hle
      rw [hlist] at hx
      exact hs.look (x := fun _ => RbHeap.first turns) ht hok hlist hx
  | last =>
      have hx := RbHeap.last_turns (t := t) hle
      rw [hlist] at hx
      exact hs.look (x := fun _ => RbHeap.last turns) ht hok hlist hx
  | next node =>
      have hnode : node ∈ t.toList := hlist ▸ (hfit : node ∈ s.entries)
      obtain ⟨loc, rfl, rfl, hsplit, hbefore, -⟩ := node_of_entry hnode ht.distinct
      have hx := RbHeap.next_turns hle
      rw [← dropWhile_split hbefore loc.after, ← hsplit, hlist] at hx
      exact hs.look (x := fun _ => RbHeap.next turns loc.data) ht hok hlist hx
  | prev node =>
      have hnode : node ∈ t.toList := hlist ▸ (hfit : node ∈ s.entries)
      obtain ⟨loc, rfl, rfl, hsplit, hbefore, -⟩ := node_of_entry hnode ht.distinct
      have hx := RbHeap.prev_turns hle
      rw [← takeWhile_split hbefore loc.after, ← hsplit, hlist] at hx
      exact hs.look (x := fun _ => RbHeap.prev turns loc.data) ht hok hlist hx
  | replace victim newNode => exact hs.replace hfit

-- ============================================================= any run

theorem Holds.run (hc : LinearCmp cmp) : ∀ (calls : List (RbCall κ)) {s : MapNodes κ}
    {h : EntryMem κ}, s.Holds cmp h → RbCallsFit cmp turns s calls →
    ∃ h', rbCalls cmp turns calls h = .ok ((s.run cmp calls).2, h')
      ∧ (s.run cmp calls).1.Holds cmp h'
  | [], _, h, hs, _ => ⟨h, rfl, hs⟩
  | call :: calls, s, h, hs, hfit => by
      obtain ⟨hcall, hturns, hcalls⟩ := hfit
      obtain ⟨h₁, hrun₁, hs₁⟩ := hs.step hc hcall hturns
      obtain ⟨h₂, hrun₂, hs₂⟩ := Holds.run hc calls hs₁ hcalls
      refine ⟨h₂, ?_, hs₂⟩
      unfold rbCalls
      rw [bind_ok hrun₁, bind_ok hrun₂]
      rfl

end MapNodes

/-- No entry yet, and a root initialised to `CCEPH_RB_ROOT`. -/
def noEntries (keys : NodePtr → κ) : MapNodes κ := ⟨fun _ => false, keys, []⟩

omit [DecidableEq κ] in
theorem noEntries_holds (keys : NodePtr → κ) :
    (noEntries keys).Holds cmp ⟨⟨fun _ => none, 0⟩, keys⟩ where
  keys := rfl
  there _ := rfl
  addrs _ h := by cases h
  tree := ⟨.nil, ⟨rfl, trivial, List.nodup_nil, fun _ h => by cases h⟩, mapOk_nil, rfl⟩

/-- Any run of calls on a map in memory. -/
theorem rbCalls_law (hc : LinearCmp cmp) (keys : NodePtr → κ) {calls : List (RbCall κ)}
    (hfit : RbCallsFit cmp turns (noEntries keys) calls) :
    ∃ h, rbCalls cmp turns calls ⟨⟨fun _ => none, 0⟩, keys⟩
        = .ok (((noEntries keys).run cmp calls).2, h)
      ∧ ((noEntries keys).run cmp calls).1.Holds cmp h :=
  MapNodes.Holds.run hc calls (noEntries_holds keys) hfit

/-- Two entries come, the larger one goes, and the walk goes on. -/
theorem rbCalls_law_two : ∃ h, rbCalls (fun a b : Int => a - b) 6
      [.alloc 8 ⟨3, 5, 7⟩ 20, .insert 8, .alloc 16 ⟨0, 0, 0⟩ 10, .insert 16, .search 20, .next 16,
        .remove 8, .last] ⟨⟨fun _ => none, 0⟩, fun _ => 0⟩
      = .ok ([.nothing, .code CCEPH_OK, .nothing, .code CCEPH_OK, .found CCEPH_OK (some 8),
        .pointer 8, .code CCEPH_OK, .pointer 16], h) := by
  have hc : LinearCmp fun a b : Int => a - b :=
    ⟨fun {a b} => by omega, fun {a b} => by omega, fun {a b c} => by omega⟩
  have hfit : RbCallsFit (fun a b : Int => a - b) 6 (noEntries fun _ => 0)
      [.alloc 8 ⟨3, 5, 7⟩ 20, .insert 8, .alloc 16 ⟨0, 0, 0⟩ 10, .insert 16, .search 20, .next 16,
        .remove 8, .last] := by
    decide
  obtain ⟨h, hrun, -⟩ := rbCalls_law hc (fun _ => 0) hfit
  exact ⟨h, hrun.trans rfl⟩

end CephInC
