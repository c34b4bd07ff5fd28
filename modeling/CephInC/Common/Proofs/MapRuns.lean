/-
Runs of one map: insertions, removals and searches from an empty root.

A `MapImpl` is the three functions that `CCEPH_IMPL_MAP` makes for a
type. Beside the tree a run keeps `present`, the nodes a caller has
inserted and not removed; `MapLaw` says that the functions answer by it
in every state reached. The tree is never looked at for that.
-/
import CephInC.Common.Walk
import CephInC.Common.Proofs.Map
import CephInC.Lib.Run

namespace CephInC

open Lib

/-- `cceph_##type##_map_insert`, `_remove` and `_search`, with the key and
the comparison they are made of. -/
structure MapImpl (α κ : Type) where
  cmp : κ → κ → Int
  key : α → κ
  insert : BinTree α → α → Except Fault (Int × BinTree α)
  remove : Loc α → Except Fault (Int × BinTree α)
  search : BinTree α → κ → Int × Option (Loc α)

structure MapRun (α κ : Type) where
  tree : BinTree α
  present : κ → Option α

inductive MapCall (α κ : Type) where
  | insert (a : α)
  /-- A node of the tree is removed. -/
  | remove (node : Loc α)
  | search (k : κ)

section
variable {α κ : Type} [DecidableEq κ] [DecidableEq α]

def mapStep (impl : MapImpl α κ) (s : MapRun α κ) : MapCall α κ → Option (MapRun α κ)
  | .insert a =>
      match impl.insert s.tree a with
      | .ok (_, tree) => some ⟨tree, if (s.present (impl.key a)).isSome then s.present
          else Function.update s.present (impl.key a) (some a)⟩
      | .error _ => none
  | .remove node =>
      if node.root = s.tree then
        match impl.remove node with
        | .ok (_, tree) => some ⟨tree, Function.update s.present (impl.key node.data) none⟩
        | .error _ => none
      else none
  | .search _ => some s

/-- A root, initialised to `CCEPH_RB_ROOT`. -/
def mapSystem (impl : MapImpl α κ) : System (MapRun α κ) (MapCall α κ) where
  init s := s = ⟨.nil, fun _ => none⟩
  step := mapStep impl

/-- The functions answer by the nodes that are present. -/
structure MapLaw (impl : MapImpl α κ) (s : MapRun α κ) : Prop where
  found : ∀ k a, s.present k = some a → ∃ node,
    impl.search s.tree k = (CCEPH_OK, some node) ∧ node.root = s.tree ∧ node.data = a
  absent : ∀ k, s.present k = none →
    impl.search s.tree k = (CCEPH_ERR_MAP_NODE_NOT_EXIST, none)
  insertFresh : ∀ a, s.present (impl.key a) = none →
    ∃ tree, impl.insert s.tree a = .ok (CCEPH_OK, tree)
  insertExists : ∀ a, s.present (impl.key a) ≠ none →
    impl.insert s.tree a = .ok (CCEPH_ERR_MAP_NODE_ALREADY_EXIST, s.tree)
  remove : ∀ node : Loc α, node.root = s.tree → s.present (impl.key node.data) = some node.data
    ∧ ∃ tree, impl.remove node = .ok (CCEPH_OK, tree)
  walkOrder : (rbWalk s.tree).Pairwise fun a b => impl.cmp (impl.key a) (impl.key b) < 0
  walkMem : ∀ a, a ∈ rbWalk s.tree ↔ s.present (impl.key a) = some a

end

section
variable {α κ : Type} [DecidableEq κ] {cmp : κ → κ → Int} {key : α → κ}

/-- The macro's functions for a key and a comparison. -/
def implMap (cmp : κ → κ → Int) (key : α → κ) : MapImpl α κ :=
  ⟨cmp, key, implMapInsert cmp key, implMapRemove, implMapSearch cmp key⟩

structure MapRunOk (cmp : κ → κ → Int) (key : α → κ) (s : MapRun α κ) : Prop where
  tree : MapOk cmp key s.tree
  present : ∀ k, mapGet key s.tree k = s.present k

/-- What a tree in key order stores is what its nodes are. -/
theorem mapGet_mem (hc : LinearCmp cmp) {t : BinTree α} (h : MapOk cmp key t) (a : α) :
    mapGet key t (key a) = some a ↔ a ∈ t.toList := by
  constructor
  · exact fun hget => (lookup_mem hget).1
  · exact fun hmem => h.inOrder.lookup_of_mem hc hmem

theorem MapRunOk.law [DecidableEq α] (hc : LinearCmp cmp) {s : MapRun α κ}
    (h : MapRunOk cmp key s) : MapLaw (implMap cmp key) s where
  found k a hk := by
    rw [← h.present] at hk
    obtain ⟨node, hsearch, hroot, hdata, -⟩ := implMapSearch_found hc h.tree hk
    exact ⟨node, hsearch, hroot, hdata⟩
  absent k hk := by
    rw [← h.present] at hk
    exact implMapSearch_absent hc h.tree hk
  insertFresh a ha := by
    rw [← h.present] at ha
    obtain ⟨tree, hinsert, -, -⟩ := implMapInsert_fresh hc h.tree ha
    exact ⟨tree, hinsert⟩
  insertExists a ha := by
    rw [← h.present] at ha
    exact implMapInsert_exists hc h.tree ha
  remove node hroot := by
    have htree : MapOk cmp key node.root := by
      rw [hroot]
      exact h.tree
    obtain ⟨tree, hremove, -, -⟩ := implMapRemove_spec hc htree
    refine ⟨?_, tree, hremove⟩
    rw [← h.present, ← hroot]
    apply (mapGet_mem hc htree node.data).mpr
    rw [Loc.root_toList]
    exact List.mem_append_right _ List.mem_cons_self
  walkOrder := by
    rw [rbWalk_eq]
    exact h.tree.inOrder
  walkMem a := by
    rw [rbWalk_eq, ← h.present]
    exact (mapGet_mem hc h.tree a).symm

theorem MapRunOk.step [DecidableEq α] (hc : LinearCmp cmp) {s s' : MapRun α κ}
    (h : MapRunOk cmp key s) {call : MapCall α κ}
    (hstep : mapStep (implMap cmp key) s call = some s') : MapRunOk cmp key s' := by
  cases call with
  | insert a =>
      have hkey : mapGet key s.tree (key a) = s.present (key a) := h.present (key a)
      cases ha : s.present (key a) with
      | none =>
          rw [ha] at hkey
          obtain ⟨tree, hinsert, hok, hget⟩ := implMapInsert_fresh hc h.tree hkey
          have hinsert : (implMap cmp key).insert s.tree a = .ok (CCEPH_OK, tree) := hinsert
          have ha' : s.present ((implMap cmp key).key a) = none := ha
          simp only [mapStep, hinsert, ha'] at hstep
          cases hstep
          refine ⟨hok, fun k => ?_⟩
          rw [hget, h.present]
          exact (Function.update_apply s.present (key a) (some a) k).symm
      | some b =>
          have hsome : mapGet key s.tree (key a) ≠ none := by
            rw [hkey, ha]
            nofun
          have hinsert : (implMap cmp key).insert s.tree a
              = .ok (CCEPH_ERR_MAP_NODE_ALREADY_EXIST, s.tree) :=
            implMapInsert_exists hc h.tree hsome
          have ha' : s.present ((implMap cmp key).key a) = some b := ha
          simp only [mapStep, hinsert, ha'] at hstep
          cases hstep
          exact h
  | remove node =>
      simp only [mapStep] at hstep
      split_ifs at hstep with hroot
      have htree : MapOk cmp key node.root := by
        rw [hroot]
        exact h.tree
      obtain ⟨tree, hremove, hok, hget⟩ := implMapRemove_spec hc htree
      have hremove : (implMap cmp key).remove node = .ok (CCEPH_OK, tree) := hremove
      simp only [hremove] at hstep
      cases hstep
      refine ⟨hok, fun k => ?_⟩
      rw [hget, hroot, h.present]
      exact (Function.update_apply s.present (key node.data) none k).symm
  | search k =>
      cases hstep
      exact h

/-- Every run of the macro's functions over a linear comparison. -/
theorem implMap_law [DecidableEq α] (hc : LinearCmp cmp) {s : MapRun α κ}
    (h : (mapSystem (implMap cmp key)).Reachable s) : MapLaw (implMap cmp key) s := by
  have hok : MapRunOk cmp key s := by
    apply System.Reached.invariant _ _ h
    · intro s hs
      cases hs
      exact ⟨mapOk_nil, fun k => rfl⟩
    · exact fun s call s' hs _ hstep => hs.step hc hstep
  exact hok.law hc

end

end CephInC
