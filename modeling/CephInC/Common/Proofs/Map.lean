/-
The map layer: over a red-black tree in key order, `implMapSearch`,
`implMapInsert` and `implMapRemove` are lookup, insertion and removal of
a finite map.

`MapOk` is the invariant every tree of the repository keeps, `mapGet`
what such a tree means: the node stored under a key. Everything above
this file sees trees through these two.
-/
import CephInC.Common.Proofs.Rbtree
import CephInC.Lib.Keyed
import Mathlib.Logic.Function.Basic

namespace CephInC

open Lib

variable {α κ : Type} [DecidableEq κ] {cmp : κ → κ → Int} {key : α → κ}

/-- A red-black tree in strict key order. -/
structure MapOk (cmp : κ → κ → Int) (key : α → κ) (t : BinTree α) : Prop where
  redBlack : t.RedBlack
  inOrder : InOrder cmp key t.toList

/-- The node a tree stores under a key. -/
def mapGet (key : α → κ) (t : BinTree α) (k : κ) : Option α :=
  lookup key k t.toList

omit [DecidableEq κ] in
theorem mapOk_nil : MapOk cmp key (.nil : BinTree α) :=
  ⟨⟨0, .nil⟩, List.Pairwise.nil⟩

@[simp] theorem mapGet_nil (k : κ) : mapGet key (.nil : BinTree α) k = none := rfl

/-- What a key holds was stored under that key. -/
theorem key_of_mapGet {t : BinTree α} {k : κ} {a : α}
    (h : mapGet key t k = some a) : key a = k :=
  (lookup_mem h).2

/-- The node a pointer points at is stored. -/
theorem mapGet_root (hc : LinearCmp cmp) {node : Loc α} (h : MapOk cmp key node.root) :
    mapGet key node.root (key node.data) = some node.data := by
  have hord := h.inOrder
  rw [Loc.root_toList] at hord
  rw [mapGet, Loc.root_toList, hord.lookup_at hc, if_pos rfl]

-- ========================================================= one key changed

section
variable {t t' : BinTree α} {k : κ} {x : Option α}

/-- A view of the stored nodes changes where the map does. -/
theorem mapGet_view {V : Type}
    (h : ∀ k', mapGet key t' k' = if k' = k then x else mapGet key t k')
    (view : Option α → V) :
    (fun k' => view (mapGet key t' k'))
      = Function.update (fun k' => view (mapGet key t k')) k (view x) := by
  funext k'
  rw [h, Function.update_apply]
  by_cases hk : k' = k
  · rw [if_pos hk, if_pos hk]
  · rw [if_neg hk, if_neg hk]

/-- What all stored nodes satisfy stays true if the new one does. -/
theorem mapGet_all {P : α → Prop}
    (h : ∀ k', mapGet key t' k' = if k' = k then x else mapGet key t k')
    (hall : ∀ k' a, mapGet key t k' = some a → P a)
    (hx : ∀ a, x = some a → P a) :
    ∀ k' a, mapGet key t' k' = some a → P a := by
  intro k' a ha
  rw [h] at ha
  by_cases hk : k' = k
  · rw [if_pos hk] at ha
    exact hx a ha
  · rw [if_neg hk] at ha
    exact hall k' a ha

end

-- =========================================================== searching

omit [DecidableEq κ] in
/-- Below a node, everything to the right of a left turn is larger, and
everything to the left of a right turn is smaller. -/
private theorem turn_bounds (hc : LinearCmp cmp) {l r : BinTree α} {a : α}
    (h : InOrder cmp key (l.toList ++ a :: r.toList)) {k : κ} :
    (cmp k (key a) < 0 → ∀ b ∈ a :: r.toList, cmp k (key b) < 0)
      ∧ (0 < cmp k (key a) → ∀ b ∈ l.toList ++ [a], cmp (key b) k < 0) := by
  obtain ⟨-, hl, hr⟩ := h.split
  constructor
  · intro hk b hb
    rcases List.mem_cons.mp hb with rfl | hb
    · exact hk
    · exact hc.trans hk (hr b hb)
  · intro hk b hb
    have hk' : cmp (key a) k < 0 := hc.swap.mpr hk
    rcases List.mem_append.mp hb with hb | hb
    · exact hc.trans (hl b hb) hk'
    · rw [List.mem_singleton.mp hb]
      exact hk'

/-- The search loop finds the node of the key, at its place in the tree,
or there is none. -/
theorem implMapSearchLoop_spec (hc : LinearCmp cmp) (k : κ) :
    ∀ (t : BinTree α) (path : Path α), InOrder cmp key t.toList →
      match implMapSearchLoop cmp key k t path with
      | some node => node.root = plug t path ∧ key node.data = k
      | none => lookup key k t.toList = none
  | .nil, _, _ => rfl
  | .node c l a r, path, h => by
      have hsub : InOrder cmp key l.toList ∧ InOrder cmp key r.toList := by
        unfold InOrder at h ⊢
        rw [toList_node, List.pairwise_append, List.pairwise_cons] at h
        exact ⟨h.1, h.2.1.2⟩
      obtain ⟨hlt, hgt⟩ := turn_bounds hc h (k := k)
      simp only [implMapSearchLoop]
      by_cases h1 : cmp k (key a) < 0
      · rw [if_pos h1]
        have ih := implMapSearchLoop_spec hc k l (⟨.left, c, a, r⟩ :: path)
          hsub.1
        revert ih
        cases implMapSearchLoop cmp key k l (⟨.left, c, a, r⟩ :: path) with
        | some node => exact id
        | none =>
            intro ih
            show lookup key k (l.toList ++ a :: r.toList) = none
            rw [lookup_append, ih, Option.none_or, lookup_eq_none]
            exact fun b hb => (hc.ne (hlt h1 b hb)).symm
      · rw [if_neg h1]
        by_cases h2 : cmp k (key a) > 0
        · rw [if_pos h2]
          have ih := implMapSearchLoop_spec hc k r
            (⟨.right, c, a, l⟩ :: path) hsub.2
          revert ih
          cases implMapSearchLoop cmp key k r (⟨.right, c, a, l⟩ :: path) with
          | some node => exact id
          | none =>
              intro ih
              show lookup key k (l.toList ++ a :: r.toList) = none
              have hl : lookup key k (l.toList ++ [a]) = none :=
                lookup_eq_none.mpr fun b hb => hc.ne (hgt h2 b hb)
              rw [show l.toList ++ a :: r.toList
                = (l.toList ++ [a]) ++ r.toList by simp, lookup_append, hl, ih]
              rfl
        · rw [if_neg h2]
          have h0 : cmp k (key a) = 0 := by omega
          exact ⟨rfl, (hc.eq_zero.mp h0).symm⟩

/-- A search that finds: the node, at its place in the tree. -/
theorem implMapSearch_found (hc : LinearCmp cmp) {t : BinTree α}
    (h : MapOk cmp key t) {k : κ} {a : α} (hk : mapGet key t k = some a) :
    ∃ node, implMapSearch cmp key t k = (CCEPH_OK, some node)
      ∧ node.root = t ∧ node.data = a ∧ key a = k := by
  have hs := implMapSearchLoop_spec hc k t [] h.inOrder
  unfold implMapSearch
  cases hr : implMapSearchLoop cmp key k t [] with
  | none =>
      rw [hr] at hs
      rw [mapGet, hs] at hk
      cases hk
  | some node =>
      rw [hr] at hs
      obtain ⟨hroot, hkey⟩ := hs
      have hord := h.inOrder
      rw [mapGet, ← show node.root = t from hroot, Loc.root_toList] at hk
      rw [← show node.root = t from hroot, Loc.root_toList] at hord
      rw [hord.lookup_at hc, if_pos hkey.symm] at hk
      cases hk
      exact ⟨node, rfl, hroot, rfl, hkey⟩

/-- A search that fails. -/
theorem implMapSearch_absent (hc : LinearCmp cmp) {t : BinTree α}
    (h : MapOk cmp key t) {k : κ} (hk : mapGet key t k = none) :
    implMapSearch cmp key t k = (CCEPH_ERR_MAP_NODE_NOT_EXIST, none) := by
  have hs := implMapSearchLoop_spec hc k t [] h.inOrder
  unfold implMapSearch
  cases hr : implMapSearchLoop cmp key k t [] with
  | none => rfl
  | some node =>
      rw [hr] at hs
      obtain ⟨hroot, hkey⟩ := hs
      rw [mapGet, lookup_eq_none] at hk
      refine absurd hkey (hk node.data ?_)
      rw [← show node.root = t from hroot, Loc.root_toList]
      simp

-- =========================================================== inserting

omit [DecidableEq κ] in
/-- The insertion descent ends at the empty link between the smaller and
the larger keys, or meets the key itself. -/
theorem implMapInsertLoop_spec (hc : LinearCmp cmp) (k : κ) :
    ∀ (t : BinTree α) (path : Path α), InOrder cmp key t.toList →
      (∀ b ∈ Path.before path, cmp (key b) k < 0) →
      (∀ b ∈ Path.after path, cmp k (key b) < 0) →
      match implMapInsertLoop cmp key k t path with
      | some p => plug .nil p = plug t path
          ∧ (∀ b ∈ Path.before p, cmp (key b) k < 0)
          ∧ (∀ b ∈ Path.after p, cmp k (key b) < 0)
      | none => ∃ a ∈ t.toList, key a = k
  | .nil, _, _, hb, ha => ⟨rfl, hb, ha⟩
  | .node c l a r, path, h, hb, ha => by
      have hsub : InOrder cmp key l.toList ∧ InOrder cmp key r.toList := by
        unfold InOrder at h ⊢
        rw [toList_node, List.pairwise_append, List.pairwise_cons] at h
        exact ⟨h.1, h.2.1.2⟩
      obtain ⟨hlt, hgt⟩ := turn_bounds hc h (k := k)
      simp only [implMapInsertLoop]
      by_cases h1 : cmp k (key a) < 0
      · rw [if_pos h1]
        have ih := implMapInsertLoop_spec hc k l (⟨.left, c, a, r⟩ :: path)
          hsub.1 hb (by
            intro b hb'
            rcases List.mem_append.mp hb' with hb' | hb'
            · exact hlt h1 b hb'
            · exact ha b hb')
        revert ih
        cases implMapInsertLoop cmp key k l (⟨.left, c, a, r⟩ :: path) with
        | some p => exact id
        | none =>
            rintro ⟨b, hb', hk⟩
            exact ⟨b, by simp [hb'], hk⟩
      · rw [if_neg h1]
        by_cases h2 : cmp k (key a) > 0
        · rw [if_pos h2]
          have ih := implMapInsertLoop_spec hc k r
            (⟨.right, c, a, l⟩ :: path) hsub.2 (by
              intro b hb'
              rw [before_right, List.append_assoc] at hb'
              rcases List.mem_append.mp hb' with hb' | hb'
              · exact hb b hb'
              · exact hgt h2 b hb') ha
          revert ih
          cases implMapInsertLoop cmp key k r (⟨.right, c, a, l⟩ :: path) with
          | some p => exact id
          | none =>
              rintro ⟨b, hb', hk⟩
              exact ⟨b, by simp [hb'], hk⟩
        · rw [if_neg h2]
          have h0 : cmp k (key a) = 0 := by omega
          exact ⟨a, by simp, (hc.eq_zero.mp h0).symm⟩

/-- Inserting under a fresh key. -/
theorem implMapInsert_fresh (hc : LinearCmp cmp) {t : BinTree α}
    (h : MapOk cmp key t) {a : α} (hk : mapGet key t (key a) = none) :
    ∃ t', implMapInsert cmp key t a = .ok (CCEPH_OK, t')
      ∧ MapOk cmp key t'
      ∧ ∀ k, mapGet key t' k = if k = key a then some a else mapGet key t k := by
  have hs := implMapInsertLoop_spec hc (key a) t [] h.inOrder
    (fun b hb => absurd hb List.not_mem_nil)
    (fun b hb => absurd hb List.not_mem_nil)
  unfold implMapInsert
  cases hr : implMapInsertLoop cmp key (key a) t [] with
  | none =>
      rw [hr] at hs
      obtain ⟨b, hb, hbk⟩ := hs
      exact absurd hbk (lookup_eq_none.mp hk b hb)
  | some p =>
      rw [hr] at hs
      obtain ⟨hroot, hbef, haft⟩ := hs
      have hlist := congrArg BinTree.toList hroot
      rw [plug_toList, toList_nil, List.append_nil] at hlist
      have hrb : (plug .nil p : BinTree α).RedBlack := by
        rw [hroot]
        exact h.redBlack
      obtain ⟨t', ht', hrb', hl'⟩ := rbInsertColor_spec a hrb
      have hord : InOrder cmp key (Path.before p ++ Path.after p) := by
        rw [hlist]
        exact h.inOrder
      have hord' := hord.insert hbef haft
      refine ⟨t', ?_, ⟨hrb', hl' ▸ hord'⟩, fun k => ?_⟩
      · simp [ht', bind, Except.bind]
      · rw [mapGet, hl', hord'.lookup_at hc, hlist]
        rfl

/-- Inserting under a key that is there. -/
theorem implMapInsert_exists (hc : LinearCmp cmp) {t : BinTree α}
    (h : MapOk cmp key t) {a : α} (hk : mapGet key t (key a) ≠ none) :
    implMapInsert cmp key t a = .ok (CCEPH_ERR_MAP_NODE_ALREADY_EXIST, t) := by
  have hs := implMapInsertLoop_spec hc (key a) t [] h.inOrder
    (fun b hb => absurd hb List.not_mem_nil)
    (fun b hb => absurd hb List.not_mem_nil)
  unfold implMapInsert
  cases hr : implMapInsertLoop cmp key (key a) t [] with
  | none => rfl
  | some p =>
      rw [hr] at hs
      obtain ⟨hroot, hbef, haft⟩ := hs
      refine absurd (lookup_eq_none.mpr fun b hb => ?_) hk
      have hlist := congrArg BinTree.toList hroot
      rw [plug_toList, toList_nil, List.append_nil] at hlist
      rw [← show Path.before p ++ Path.after p = t.toList from hlist] at hb
      rcases List.mem_append.mp hb with hb | hb
      · exact hc.ne (hbef b hb)
      · exact (hc.ne (haft b hb)).symm

-- =============================================== removing and updating

/-- Removing a node of the tree. -/
theorem implMapRemove_spec (hc : LinearCmp cmp) {node : Loc α}
    (h : MapOk cmp key node.root) :
    ∃ t, implMapRemove node = .ok (CCEPH_OK, t) ∧ MapOk cmp key t
      ∧ ∀ k, mapGet key t k
          = if k = key node.data then none else mapGet key node.root k := by
  obtain ⟨t, ht, hrb, hl⟩ := rbErase_spec h.redBlack
  have hord := h.inOrder
  rw [Loc.root_toList] at hord
  refine ⟨t, ?_, ⟨hrb, hl ▸ hord.split.1⟩, fun k => ?_⟩
  · simp [implMapRemove, ht, bind, Except.bind]
  · rw [mapGet, hl, hord.lookup_erase hc, mapGet, Loc.root_toList]

omit [DecidableEq κ] in
/-- Writing through a node pointer, the key kept. -/
theorem setData_mapOk {node : Loc α} {a : α} (h : MapOk cmp key node.root)
    (hk : key a = key node.data) : MapOk cmp key (node.setData a).root := by
  refine ⟨Loc.setData_redBlack a h.redBlack, ?_⟩
  have hord := h.inOrder
  rw [Loc.root_toList] at hord ⊢
  exact hord.replace hk

theorem setData_mapGet (hc : LinearCmp cmp) {node : Loc α} {a : α}
    (h : MapOk cmp key node.root) (hk : key a = key node.data) (k : κ) :
    mapGet key (node.setData a).root k
      = if k = key node.data then some a else mapGet key node.root k := by
  have hord := h.inOrder
  rw [Loc.root_toList] at hord
  rw [mapGet, Loc.root_toList, mapGet, Loc.root_toList]
  exact hord.lookup_replace hc hk k

end CephInC
