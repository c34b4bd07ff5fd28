/-
Freeing a collection frees each of its blocks once and touches none of
them afterwards.

The loop over a tree is proved for any nodes that can be freed one by one
(`Freeable`): the node it takes is the first of the contents, and what
`cceph_rb_erase` leaves is the rest (`rbErase_spec`), so the contents
shrink by one a turn, whatever the rotations do. An attribute node is
freeable as it is, an object because the loop over its attributes is.

The log of a run is then known to the last event (`collEvents`), and the
counts are read off it.
-/
import CephInC.Os.Free
import Mathlib.Data.List.Flatten
import Mathlib.Data.List.Nodup
import Mathlib.Data.List.Perm.Lattice
import Mathlib.Data.List.Perm.Subperm

namespace CephInC

open Lib

-- ================================================================ the log

theorem frees_append (log log' : HeapLog) : frees (log ++ log') = frees log ++ frees log' :=
  List.filterMap_append

theorem unlinks_append (log log' : HeapLog) :
    unlinks (log ++ log') = unlinks log ++ unlinks log' := List.filterMap_append

theorem frees_unlink (log : HeapLog) (addr : Nat) : frees (log ++ [.unlink addr]) = frees log := by
  rw [frees_append]
  exact List.append_nil _

/-- An event of a block is one of the blocks freed. -/
theorem count_free (log : HeapLog) (addr : Nat) :
    log.count (.free addr) = (frees log).count addr := by
  induction log with
  | nil => rfl
  | cons event log ih =>
      cases event with
      | unlink other =>
          rw [List.count_cons_of_ne (by intro h; cases h), ih]
          rfl
      | free other =>
          rw [List.count_cons, ih]
          show _ = (other :: frees log).count addr
          rw [List.count_cons]
          simp

theorem count_unlink (log : HeapLog) (addr : Nat) :
    log.count (.unlink addr) = (unlinks log).count addr := by
  induction log with
  | nil => rfl
  | cons event log ih =>
      cases event with
      | free other =>
          rw [List.count_cons_of_ne (by intro h; cases h), ih]
          rfl
      | unlink other =>
          rw [List.count_cons, ih]
          show _ = (other :: unlinks log).count addr
          rw [List.count_cons]
          simp

/-- Blocks that stand at different addresses, none of them freed. -/
structure Live (log : HeapLog) (blocks : List Nat) : Prop where
  apart : blocks.Nodup
  live : ∀ b ∈ blocks, b ∉ frees log

section
variable {log events : HeapLog} {now later blocks : List Nat}

theorem Live.sublist (h : Live log blocks) (hsub : now.Sublist blocks) : Live log now :=
  ⟨h.apart.sublist hsub, fun b hb => h.live b (hsub.subset hb)⟩

theorem Live.left (h : Live log (now ++ later)) : Live log now :=
  h.sublist (List.sublist_append_left now later)

theorem Live.right (h : Live log (now ++ later)) : Live log later :=
  h.sublist (List.sublist_append_right now later)

/-- To free some blocks leaves the others as they were. -/
theorem Live.after (h : Live log (now ++ later)) (hevents : frees events = now) :
    Live (log ++ events) later := by
  apply Live.mk h.right.apart
  intro b hb
  rw [frees_append, hevents, List.mem_append]
  rintro (hgone | hnow)
  · exact h.live b (List.mem_append_right now hb) hgone
  · exact (List.nodup_append.mp h.apart).2.2 b hnow b hb rfl

/-- To unlink a node frees nothing. -/
theorem Live.unlink (h : Live log blocks) (addr : Nat) : Live (log ++ [.unlink addr]) blocks :=
  ⟨h.apart, by rw [frees_unlink]; exact h.live⟩

end

section
variable {log : HeapLog} {addr : Nat}

theorem touch_run (h : addr ∉ frees log) : touch addr log = .ok ((), log) := if_neg h

theorem heapFree_run (h : addr ∉ frees log) :
    heapFree addr log = .ok ((), log ++ [.free addr]) := by
  unfold heapFree
  rw [bind_ok (touch_run h)]

theorem heapFreeSome_run {ptr : Option Nat} (h : ∀ addr ∈ ptr.toList, addr ∉ frees log) :
    heapFreeSome ptr log = .ok ((), log ++ ptr.toList.map .free) := by
  cases ptr with
  | none =>
      rw [show (none : Option Nat).toList.map HeapEvent.free = [] from rfl, List.append_nil]
      rfl
  | some addr => exact heapFree_run (h addr List.mem_cons_self)

end

-- =============================================================== the loop

section
variable {α : Type}

/-- A node that `nodeFree` frees with all its blocks, once they are
allocated. -/
structure Freeable (addr : α → Nat) (blocks : α → List Nat) (events : α → HeapLog)
    (nodeFree : Option α → Prog HeapLog (Int × Option α)) (node : α) : Prop where
  run : ∀ log : HeapLog, Live log (blocks node) →
    nodeFree (some node) log = .ok ((CCEPH_OK, none), log ++ events node)
  frees_eq : frees (events node) = blocks node
  own : addr node ∈ blocks node

/-- What the loop writes down for the nodes of a tree. -/
def treeEvents (addr : α → Nat) (events : α → HeapLog) (nodes : List α) : HeapLog :=
  nodes.flatMap fun node => .unlink (addr node) :: events node

variable {addr : α → Nat} {blocks : α → List Nat} {events : α → HeapLog}
  {nodeFree : Option α → Prog HeapLog (Int × Option α)} {holder : Nat}

theorem frees_treeEvents {nodes : List α} (h : ∀ node ∈ nodes, frees (events node) = blocks node) :
    frees (treeEvents addr events nodes) = nodes.flatMap blocks := by
  induction nodes with
  | nil => rfl
  | cons node nodes ih =>
      show frees ((.unlink (addr node) :: events node) ++ treeEvents addr events nodes) = _
      rw [frees_append, ih fun n hn => h n (List.mem_cons_of_mem node hn), List.flatMap_cons,
        ← h node List.mem_cons_self]
      rfl

theorem unlinks_treeEvents {nodes : List α} :
    unlinks (treeEvents addr events nodes)
      = nodes.flatMap fun node => addr node :: unlinks (events node) := by
  induction nodes with
  | nil => rfl
  | cons node nodes ih =>
      show unlinks ((.unlink (addr node) :: events node) ++ treeEvents addr events nodes) = _
      rw [unlinks_append, ih, List.flatMap_cons]
      rfl

theorem heapFirst_run {tree : BinTree α} {log : HeapLog} (hholder : holder ∉ frees log)
    (hlive : ∀ node ∈ tree.toList, addr node ∉ frees log) :
    heapFirst addr holder tree log = .ok (rbFirst tree, log) := by
  unfold heapFirst
  rw [bind_ok (touch_run hholder)]
  have htree : touchTree addr tree log = .ok ((), log) := if_pos hlive
  rw [bind_ok htree]
  rfl

theorem heapErase_run {rbNode : Loc α} {tree : BinTree α} {log : HeapLog}
    (hholder : holder ∉ frees log)
    (hlive : ∀ node ∈ rbNode.root.toList, addr node ∉ frees log)
    (herase : rbErase rbNode = .ok tree) :
    heapErase addr holder rbNode log = .ok (tree, log ++ [.unlink (addr rbNode.data)]) := by
  unfold heapErase
  rw [bind_ok (touch_run hholder)]
  have htree : touchTree addr rbNode.root log = .ok ((), log) := if_pos hlive
  rw [bind_ok htree, herase]
  rfl

/-- The loop takes a turn for each node, and one to see that the tree is
empty. -/
theorem freeTreeLoop_run : ∀ (turns : Nat) {tree : BinTree α} {log : HeapLog}, tree.RedBlack →
    (∀ node ∈ tree.toList, Freeable addr blocks events nodeFree node) →
    Live log (tree.toList.flatMap blocks ++ [holder]) → tree.toList.length < turns →
    freeTreeLoop addr nodeFree holder turns tree log
      = .ok ((CCEPH_OK, .nil), log ++ treeEvents addr events tree.toList)
  | 0, _, _, _, _, _, hturns => absurd hturns (Nat.not_lt_zero _)
  | turns + 1, tree, log, hrb, hnodes, hlive, hturns => by
      have hholder : holder ∉ frees log := hlive.right.live holder List.mem_cons_self
      have hown : ∀ node ∈ tree.toList, addr node ∉ frees log := by
        intro node hnode
        apply hlive.left.live
        exact List.mem_flatMap.mpr ⟨node, hnode, (hnodes node hnode).own⟩
      have hfirst := rbFirst_spec tree
      unfold freeTreeLoop
      rw [bind_ok (heapFirst_run hholder hown)]
      cases hloc : rbFirst tree with
      | none =>
          rw [hloc] at hfirst
          cases tree with
          | nil =>
              rw [show treeEvents addr events (BinTree.nil : BinTree α).toList = [] from rfl,
                List.append_nil]
              rfl
          | node _ _ _ _ => cases hloc
      | some rbNode =>
          rw [hloc] at hfirst
          obtain ⟨hroot, hbefore⟩ := hfirst
          rw [← hroot] at hrb hown
          obtain ⟨rest, herase, hrest, hlist⟩ := rbErase_spec hrb
          have hcons : tree.toList = rbNode.data :: rest.toList := by
            rw [← hroot, Loc.root_toList, hlist, hbefore]
            rfl
          rw [hcons, List.flatMap_cons, List.append_assoc] at hlive
          rw [hcons] at hnodes hturns
          have hnode := hnodes rbNode.data List.mem_cons_self
          -- the node goes with its blocks, and the rest is as it was
          have hunlinked := hlive.unlink (addr rbNode.data)
          have hfree := hnode.run _ hunlinked.left
          have hloop := freeTreeLoop_run turns hrest
            (fun node hmem => hnodes node (List.mem_cons_of_mem _ hmem))
            (hunlinked.after hnode.frees_eq) (Nat.lt_of_succ_lt_succ hturns)
          simp only
          rw [bind_ok (heapErase_run hholder hown herase), bind_ok hfree, hloop, hcons,
            List.append_assoc, List.append_assoc]
          rfl

end

-- ====================================================== an attribute node

/-- What `cceph_os_map_node_free` writes down. -/
def HeapMapNode.events (node : HeapMapNode) : HeapLog :=
  node.key.toList.map .free ++ node.value.toList.map .free ++ [.free node.addr]

theorem frees_map_free (addrs : List Nat) : frees (addrs.map .free) = addrs := by
  induction addrs with
  | nil => rfl
  | cons addr addrs ih => exact congrArg (addr :: ·) ih

theorem unlinks_map_free (addrs : List Nat) : unlinks (addrs.map .free) = [] := by
  induction addrs with
  | nil => rfl
  | cons addr addrs ih => exact ih

theorem HeapMapNode.frees_events (node : HeapMapNode) : frees node.events = node.blocks := by
  unfold HeapMapNode.events HeapMapNode.blocks
  rw [frees_append, frees_append, frees_map_free, frees_map_free]
  rfl

theorem HeapMapNode.unlinks_events (node : HeapMapNode) : unlinks node.events = [] := by
  unfold HeapMapNode.events
  rw [unlinks_append, unlinks_append, unlinks_map_free, unlinks_map_free]
  rfl

theorem osMapNodeFree_freeable (node : HeapMapNode) :
    Freeable HeapMapNode.addr HeapMapNode.blocks HeapMapNode.events osMapNodeFree node where
  run := by
    intro log hlive
    unfold HeapMapNode.blocks at hlive
    rw [List.append_assoc] at hlive
    have hvalue := hlive.after (frees_map_free node.key.toList)
    have haddr := hvalue.after (frees_map_free node.value.toList)
    unfold osMapNodeFree HeapMapNode.events
    rw [assert_pos (p := (some node).isSome) rfl, pure_bind, deref_some, pure_bind,
      bind_ok (touch_run (hlive.right.right.live _ List.mem_cons_self)),
      bind_ok (heapFreeSome_run hlive.left.live),
      bind_ok (touch_run (hvalue.right.live _ List.mem_cons_self)),
      bind_ok (heapFreeSome_run hvalue.left.live),
      bind_ok (heapFree_run (haddr.live _ List.mem_cons_self)), List.append_assoc,
      List.append_assoc, List.append_assoc]
    rfl
  frees_eq := node.frees_events
  own := List.mem_append_right _ List.mem_cons_self

/-- What `cceph_os_map_node_free_tree` writes down. -/
def mapTreeEvents (map : BinTree HeapMapNode) : HeapLog :=
  treeEvents HeapMapNode.addr HeapMapNode.events map.toList

theorem osMapNodeFreeTree_run {turns holder : Nat} {map : BinTree HeapMapNode} {log : HeapLog}
    (hrb : map.RedBlack) (hturns : map.toList.length < turns)
    (hlive : Live log (map.toList.flatMap HeapMapNode.blocks ++ [holder])) :
    osMapNodeFreeTree turns holder map log = .ok ((CCEPH_OK, .nil), log ++ mapTreeEvents map) :=
  freeTreeLoop_run turns hrb (fun node _ => osMapNodeFree_freeable node) hlive hturns

theorem frees_mapTreeEvents (map : BinTree HeapMapNode) :
    frees (mapTreeEvents map) = map.toList.flatMap HeapMapNode.blocks :=
  frees_treeEvents fun node _ => node.frees_events

theorem unlinks_mapTreeEvents (map : BinTree HeapMapNode) :
    unlinks (mapTreeEvents map) = map.toList.map HeapMapNode.addr := by
  unfold mapTreeEvents
  rw [unlinks_treeEvents, List.map_eq_flatMap]
  apply List.flatMap_congr
  intro node _
  rw [node.unlinks_events]

-- ================================================ an object, a collection

/-- What `cceph_mem_store_object_node_free` writes down. -/
def HeapObjectNode.events (node : HeapObjectNode) : HeapLog :=
  node.oid.toList.map .free ++ node.data.toList.map .free ++ mapTreeEvents node.map
    ++ [.free node.addr]

theorem HeapObjectNode.frees_events (node : HeapObjectNode) :
    frees node.events = node.blocks := by
  unfold HeapObjectNode.events HeapObjectNode.blocks
  rw [frees_append, frees_append, frees_append, frees_map_free, frees_map_free,
    frees_mapTreeEvents]
  rfl

theorem HeapObjectNode.unlinks_events (node : HeapObjectNode) :
    unlinks node.events = node.map.toList.map HeapMapNode.addr := by
  unfold HeapObjectNode.events
  rw [unlinks_append, unlinks_append, unlinks_append, unlinks_map_free, unlinks_map_free,
    unlinks_mapTreeEvents]
  exact List.append_nil _

theorem memStoreObjectNodeFree_freeable {turns : Nat} {node : HeapObjectNode}
    (hrb : node.map.RedBlack) (hturns : node.map.toList.length < turns) :
    Freeable HeapObjectNode.addr HeapObjectNode.blocks HeapObjectNode.events
      (memStoreObjectNodeFree turns) node where
  run := by
    intro log hlive
    unfold HeapObjectNode.blocks at hlive
    rw [List.append_assoc, List.append_assoc] at hlive
    have hdata := hlive.after (frees_map_free node.oid.toList)
    have hmap := hdata.after (frees_map_free node.data.toList)
    have haddr := hmap.after (frees_mapTreeEvents node.map)
    unfold memStoreObjectNodeFree HeapObjectNode.events
    rw [assert_pos (p := (some node).isSome) rfl, pure_bind, deref_some, pure_bind,
      bind_ok (touch_run (hlive.right.right.right.live _ List.mem_cons_self)),
      bind_ok (heapFreeSome_run hlive.left.live),
      bind_ok (touch_run (hdata.right.right.live _ List.mem_cons_self)),
      bind_ok (heapFreeSome_run hdata.left.live),
      bind_ok (osMapNodeFreeTree_run hrb hturns hmap)]
    simp only
    rw [assert_pos (p := CCEPH_OK = CCEPH_OK) rfl, pure_bind,
      bind_ok (heapFree_run (haddr.live _ List.mem_cons_self)), List.append_assoc,
      List.append_assoc, List.append_assoc, List.append_assoc, List.append_assoc]
    rfl
  frees_eq := node.frees_events
  own := List.mem_append_right _ List.mem_cons_self

/-- What `cceph_mem_store_coll_node_free` writes down. -/
def HeapCollNode.events (node : HeapCollNode) : HeapLog :=
  treeEvents HeapObjectNode.addr HeapObjectNode.events node.objects.toList
    ++ mapTreeEvents node.map ++ [.free node.addr]

theorem frees_objectsEvents (objects : List HeapObjectNode) :
    frees (treeEvents HeapObjectNode.addr HeapObjectNode.events objects)
      = objects.flatMap HeapObjectNode.blocks :=
  frees_treeEvents fun node _ => node.frees_events

theorem HeapCollNode.frees_events (node : HeapCollNode) : frees node.events = node.blocks := by
  unfold HeapCollNode.events HeapCollNode.blocks
  rw [frees_append, frees_append, frees_objectsEvents, frees_mapTreeEvents]
  rfl

theorem HeapCollNode.unlinks_events (node : HeapCollNode) : unlinks node.events = node.nodes := by
  unfold HeapCollNode.events HeapCollNode.nodes
  rw [unlinks_append, unlinks_append, unlinks_treeEvents, unlinks_mapTreeEvents]
  have hobjects := List.flatMap_congr fun object (_ : object ∈ node.objects.toList) =>
    congrArg (object.addr :: ·) object.unlinks_events
  rw [hobjects]
  exact List.append_nil _

-- =============================================================== the counts

theorem HeapMapNode.addrs_sublist (nodes : List HeapMapNode) :
    (nodes.map HeapMapNode.addr).Sublist (nodes.flatMap HeapMapNode.blocks) := by
  rw [List.map_eq_flatMap]
  apply List.Sublist.flatMap_right
  intro node _
  exact List.sublist_append_right _ _

/-- The nodes are among the blocks, though an object stands before its
attributes in the one list and after them in the other. -/
theorem HeapCollNode.nodes_subperm (node : HeapCollNode) : node.nodes.Subperm node.blocks := by
  refine ⟨node.objects.toList.flatMap (fun object =>
    object.map.toList.map HeapMapNode.addr ++ [object.addr]) ++ node.map.toList.map
      HeapMapNode.addr, ?_, ?_⟩
  · apply List.Perm.append_right
    apply List.Perm.flatMap_left
    intro object _
    exact List.perm_append_singleton _ _
  · refine List.Sublist.trans ?_ (List.sublist_append_left _ _)
    refine List.Sublist.append ?_ (HeapMapNode.addrs_sublist _)
    apply List.Sublist.flatMap_right
    intro object _
    refine List.Sublist.append ?_ (List.Sublist.refl _)
    exact (HeapMapNode.addrs_sublist _).trans (List.sublist_append_right _ _)

/-- Where no two blocks stand at one address, each is freed once and each
node unlinked once. -/
theorem HeapCollNode.events_freedOnce {node : HeapCollNode} (hapart : node.blocks.Nodup) :
    FreedOnce node node.events := by
  have hfree : ∀ addr ∈ node.blocks, node.events.count (.free addr) = 1 := by
    intro addr hmem
    rw [count_free, node.frees_events]
    exact List.count_eq_one_of_mem hapart hmem
  have hsub := node.nodes_subperm
  refine ⟨?_, fun addr hmem => hfree addr (hsub.subset hmem), hfree⟩
  intro addr hmem
  rw [count_unlink, node.unlinks_events]
  have hle : node.nodes.count addr ≤ 1 :=
    Nat.le_trans (hsub.count_le addr) (List.nodup_iff_count_le_one.mp hapart addr)
  exact Nat.le_antisymm hle (List.one_le_count_iff.mpr hmem)

/-- No tree of a collection holds more nodes than the collection. -/
theorem HeapCollNode.objects_length_le (node : HeapCollNode) :
    node.objects.toList.length ≤ node.nodes.length := by
  have hsub : (node.objects.toList.map HeapObjectNode.addr).Sublist node.nodes := by
    rw [List.map_eq_flatMap]
    refine List.Sublist.trans ?_ (List.sublist_append_left _ _)
    apply List.Sublist.flatMap_right
    intro object _
    exact List.Sublist.cons_cons object.addr (List.nil_sublist _)
  rw [← List.length_map HeapObjectNode.addr]
  exact hsub.length_le

theorem HeapCollNode.objectMap_length_le {node : HeapCollNode} {object : HeapObjectNode}
    (hmem : object ∈ node.objects.toList) :
    object.map.toList.length ≤ node.nodes.length := by
  have hsub : (object.addr :: object.map.toList.map HeapMapNode.addr).Sublist node.nodes := by
    refine List.Sublist.trans ?_ (List.sublist_append_left _ _)
    rw [List.flatMap_def]
    exact List.sublist_flatten_of_mem (List.mem_map_of_mem hmem)
  rw [← List.length_map HeapMapNode.addr]
  exact Nat.le_trans (Nat.le_succ _) hsub.length_le

theorem HeapCollNode.map_length_le (node : HeapCollNode) :
    node.map.toList.length ≤ node.nodes.length := by
  rw [← List.length_map HeapMapNode.addr]
  exact (List.sublist_append_right _ _).length_le

-- ========================================================= the whole collection

theorem memStoreObjectNodeFreeTree_run {turns holder : Nat} {tree : BinTree HeapObjectNode}
    {log : HeapLog} (hrb : tree.RedBlack) (hmaps : ∀ object ∈ tree.toList, object.map.RedBlack)
    (hturns : tree.toList.length < turns)
    (hmapTurns : ∀ object ∈ tree.toList, object.map.toList.length < turns)
    (hlive : Live log (tree.toList.flatMap HeapObjectNode.blocks ++ [holder])) :
    memStoreObjectNodeFreeTree turns holder tree log = .ok ((CCEPH_OK, .nil),
      log ++ treeEvents HeapObjectNode.addr HeapObjectNode.events tree.toList) := by
  apply freeTreeLoop_run turns hrb _ hlive hturns
  intro object hmem
  exact memStoreObjectNodeFree_freeable (hmaps object hmem) (hmapTurns object hmem)

theorem memStoreCollNodeFree_run {turns : Nat} {node : HeapCollNode} {log : HeapLog}
    (hwf : node.WellFormed) (hturns : node.nodes.length < turns) (hlive : Live log node.blocks) :
    memStoreCollNodeFree turns (some node) log = .ok ((CCEPH_OK, none), log ++ node.events) := by
  unfold HeapCollNode.blocks at hlive
  rw [List.append_assoc] at hlive
  have hmap := hlive.after (frees_objectsEvents node.objects.toList)
  have haddr := hmap.after (frees_mapTreeEvents node.map)
  have hobjects := memStoreObjectNodeFreeTree_run hwf.objects hwf.objectMaps
    (Nat.lt_of_le_of_lt node.objects_length_le hturns)
    (fun _ hmem => Nat.lt_of_le_of_lt (HeapCollNode.objectMap_length_le hmem) hturns)
    (hlive.sublist (List.Sublist.append_left (List.sublist_append_right _ _) _))
  have hmapRun := osMapNodeFreeTree_run hwf.map
    (Nat.lt_of_le_of_lt node.map_length_le hturns) hmap
  unfold memStoreCollNodeFree HeapCollNode.events
  rw [assert_pos (p := (some node).isSome) rfl, pure_bind, deref_some, pure_bind,
    bind_ok hobjects]
  simp only
  rw [assert_pos (p := CCEPH_OK = CCEPH_OK) rfl, pure_bind,
    bind_ok hmapRun]
  simp only
  rw [assert_pos (p := CCEPH_OK = CCEPH_OK) rfl, pure_bind,
    bind_ok (heapFree_run (haddr.live _ List.mem_cons_self)), List.append_assoc,
    List.append_assoc, List.append_assoc]
  rfl

/-- A collection whose trees are red-black, with none of its blocks freed
yet, is freed: the run ends, and between its start and its end each node
was unlinked and freed once, each string freed once, and nothing read
that was free. -/
theorem memStoreCollNodeFree_freedOnce (node : HeapCollNode) (hwf : node.WellFormed)
    (log : HeapLog) (hlive : ∀ b ∈ node.blocks, b ∉ frees log) :
    ∃ events, FreedOnce node events ∧ ∀ turns > node.nodes.length,
      memStoreCollNodeFree turns (some node) log
        = .ok ((CCEPH_OK, none), log ++ events) := by
  refine ⟨node.events, HeapCollNode.events_freedOnce hwf.apart, ?_⟩
  intro turns hturns
  exact memStoreCollNodeFree_run hwf hturns ⟨hwf.apart, hlive⟩

/-- Two objects, with an attribute on the first and one on the
collection. -/
def twoObjects : HeapCollNode where
  addr := 0
  objects := .node .black .nil ⟨1, some 2, some 3, .node .black .nil ⟨4, some 5, some 6⟩ .nil⟩
    (.node .red .nil ⟨7, some 8, none, .nil⟩ .nil)
  map := .node .black .nil ⟨9, some 10, none⟩ .nil

theorem twoObjects_wellFormed : twoObjects.WellFormed where
  objects := ⟨1, .black .nil (.red .nil .nil)⟩
  objectMaps := by
    intro object hmem
    rcases List.mem_cons.mp hmem with rfl | hmem
    · exact ⟨1, .black .nil .nil⟩
    · rw [List.mem_singleton.mp hmem]
      exact ⟨0, .nil⟩
  map := ⟨1, .black .nil .nil⟩
  apart := by decide

theorem memStoreCollNodeFree_twoObjects :
    ∃ events, FreedOnce twoObjects events ∧ ∀ turns > 4,
      memStoreCollNodeFree turns (some twoObjects) []
        = .ok ((CCEPH_OK, none), [] ++ events) :=
  memStoreCollNodeFree_freedOnce twoObjects twoObjects_wellFormed [] (by
    intro b _
    exact List.not_mem_nil)

end CephInC
