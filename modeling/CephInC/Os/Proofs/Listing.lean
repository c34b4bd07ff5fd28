/-
The list of collections, against the one question of `exist_coll`.

Both go by the same tree, the one along its order and the other down from
its root. So the list is what it should be as long as an `int` counts the
collections (`listsColls_iff`). There are as many ids as an `int` has
values that are not negative, so that one store is left over, the one
that holds them all; and creating them leads to it (`allColls_reached`).
-/
import CephInC.Os.Builders
import CephInC.Os.Proofs.ReadMaps
import CephInC.Os.Proofs.Run
import Mathlib.Data.List.Perm.Subperm

namespace CephInC

open Lib

/-- `exist_coll` says 1. -/
def ExistsColl (store : MemStore) (cid : OsCollId) : Prop :=
  ∃ store', memStoreExistColl store cid .plenty = .ok ((CCEPH_OK, 1, store'), .plenty)

/-- `list_coll` gives these ids, in increasing order, and says how many they
are. -/
def ListsColls (store : MemStore) : Prop :=
  ∃ count cids store', memStoreListColl store .plenty
      = .ok ((CCEPH_OK, some count, some cids, store'), .plenty)
    ∧ cids.Pairwise (fun a b => a < b)
    ∧ (∀ cid, cid ∈ cids ↔ ExistsColl store cid)
    ∧ count.toInt = cids.length

/-- The number of collections. -/
def collCount (store : MemStore) : Nat := store.colls.toList.length

variable {store : MemStore}

-- ============================================================ both answers

theorem existsColl_iff (h : StoreOk store) (cid : OsCollId) :
    ExistsColl store cid ↔ (store.view cid).isSome = true := by
  unfold ExistsColl
  rw [memStoreExistColl_spec h]
  cases hview : (store.view cid).isSome with
  | false =>
      refine iff_of_false ?_ Bool.false_ne_true
      rintro ⟨store', hrun⟩
      cases hrun
  | true => exact iff_of_true ⟨store.relocked, rfl⟩ rfl

/-- The ids along the tree are those a search finds. -/
theorem mem_cids (store : MemStore) (cid : OsCollId) :
    cid ∈ store.colls.toList.map MemStoreCollNode.cid ↔ (store.view cid).isSome = true := by
  unfold MemStore.view collsView mapGet
  rw [Option.isSome_map, List.mem_map]
  constructor
  · rintro ⟨cnode, hmem, hcid⟩
    cases hfound : lookup MemStoreCollNode.cid cid store.colls.toList with
    | none => exact absurd hcid (lookup_eq_none.mp hfound cnode hmem)
    | some _ => rfl
  · intro hsome
    obtain ⟨cnode, hfound⟩ := Option.isSome_iff_exists.mp hsome
    obtain ⟨hmem, hcid⟩ := lookup_mem hfound
    exact ⟨cnode, hmem, hcid⟩

/-- In order they are increasing. -/
theorem cids_increasing (h : CollsOk store.colls) :
    (store.colls.toList.map MemStoreCollNode.cid).Pairwise (fun a b => a < b) := by
  rw [List.pairwise_map]
  refine h.inOrder.inOrder.imp fun {a b} hcmp => ?_
  unfold osCollIdCmp at hcmp
  by_cases hgt : a.cid > b.cid
  · rw [if_pos hgt] at hcmp
    exact absurd hcmp (by decide)
  · rw [if_neg hgt] at hcmp
    by_cases hlt : a.cid < b.cid
    · exact hlt
    · rw [if_neg hlt] at hcmp
      exact absurd hcmp (by decide)

-- ================================================================ the count

/-- As long as an `int` counts them, all are listed. -/
theorem listsColls_of_count (h : StoreOk store) (hcount : collCount store < 2 ^ 31) :
    ListsColls store := by
  have hlist := memStoreListColl_spec h
  have hlength : (store.colls.toList.map MemStoreCollNode.cid).length = collCount store :=
    List.length_map _
  have hint := Int32.toInt_ofNat_of_lt hcount
  have hsize : sizeT (sizeofOsCollId * (Int32.ofNat (collCount store)).toInt)
      = sizeofOsCollId * collCount store := by
    unfold sizeofOsCollId
    rw [hint, sizeT_of_nonneg (by omega) (by omega)]
    omega
  unfold listRead at hlist
  simp only [hlength, hsize] at hlist
  rw [if_pos (by unfold sizeofOsCollId; omega), if_neg (Nat.lt_irrefl _)] at hlist
  refine ⟨_, _, _, hlist, cids_increasing h.colls, fun cid => ?_, ?_⟩
  · rw [mem_cids, existsColl_iff h]
  · rw [hint, hlength]

/-- And only then does the count say how many they are. -/
theorem ListsColls.count (h : StoreOk store) (hlists : ListsColls store) :
    collCount store < 2 ^ 31 := by
  obtain ⟨count, cids, store', hrun, -, -, hcount⟩ := hlists
  rw [memStoreListColl_spec h] at hrun
  unfold listRead at hrun
  simp only at hrun
  split at hrun
  · split at hrun
    · cases hrun
    · cases hrun
      have hb := int32_bounds (Int32.ofNat (store.colls.toList.map MemStoreCollNode.cid).length)
      rw [hcount, List.length_map] at hb
      unfold collCount
      omega
  · cases hrun

-- ======================================================= the main result

/-- Of any store that transactions lead to, the list is right exactly if an
`int` counts the collections. -/
theorem listsColls_iff (h : Reachable store) : ListsColls store ↔ collCount store < 2 ^ 31 :=
  ⟨fun hlists => hlists.count h.ok, listsColls_of_count h.ok⟩

/-- The transaction that creates three collections. -/
def threeColls : OsTran :=
  ⟨[osTranCollCreate (junkZero 0 0) 7 0, osTranCollCreate (junkZero 0 0) 9 0,
    osTranCollCreate (junkZero 0 0) 4 0], 3, 3⟩

theorem listsColls_three : ∃ store, Reachable store
    ∧ store.colls.toList.map MemStoreCollNode.cid = [4, 7, 9] ∧ ListsColls store := by
  obtain ⟨ret, store, s, hrun, hcids⟩ : ∃ ret store s,
      memStoreSubmitTran .fresh threeColls .plenty = .ok ((ret, store), s)
        ∧ store.colls.toList.map MemStoreCollNode.cid = [4, 7, 9] := ⟨_, _, _, rfl, rfl⟩
  have hreach := reachable_fresh.submit hrun
  have hcount : collCount store = 3 := by
    unfold collCount
    rw [← List.length_map MemStoreCollNode.cid, hcids]
    rfl
  exact ⟨store, hreach, hcids, (listsColls_iff hreach).2 (by rw [hcount]; decide)⟩

-- ==================================================== all ids at once

/-- The transaction that creates one collection. -/
def createTran (cid : OsCollId) : OsTran := ⟨[osTranCollCreate (junkZero 0 0) cid 0], 1, 1⟩

theorem createTran_built {cid : OsCollId} (hcid : cid ≥ 0) : TranBuilt (createTran cid) where
  inside := Int.le_refl 1
  built := by
    intro op hop
    rw [List.mem_singleton.mp hop]
    exact .collCreate _ _ _ hcid

/-- It leaves its collection and those that were there. -/
theorem createTran_leaves (cid : OsCollId) (n : Namespace) :
    (((nsTran (createTran cid).ops n).2) cid).isSome = true
      ∧ ∀ cid', (n cid').isSome = true →
        ((nsTran (createTran cid).ops n).2 cid').isSome = true := by
  have hops : (createTran cid).ops = [osTranCollCreate (junkZero 0 0) cid 0] := rfl
  rw [hops]
  cases hcid : n cid with
  | none =>
      have hstep : (nsTran [osTranCollCreate (junkZero 0 0) cid 0] n).2
          = Function.update n cid (some fun _ => false) := by
        unfold nsTran nsOp
        simp only [osTranCollCreate, hcid]
        rfl
      rw [hstep]
      refine ⟨by rw [Function.update_self]; rfl, fun cid' hthere => ?_⟩
      by_cases heq : cid' = cid
      · rw [heq, Function.update_self]
        rfl
      · rw [Function.update_of_ne heq]
        exact hthere
  | some objects =>
      have hstep : (nsTran [osTranCollCreate (junkZero 0 0) cid 0] n).2 = n := by
        unfold nsTran nsOp
        simp only [osTranCollCreate, hcid]
      rw [hstep, hcid]
      exact ⟨rfl, fun _ hthere => hthere⟩

theorem isSome_nsOf (v : StoreView) (cid : OsCollId) :
    (nsOf v cid).isSome = (v cid).isSome := Option.isSome_map

/-- Creating one after the other leads to a store with the first `n` ids. -/
theorem colls_reached : ∀ n : Nat, n ≤ 2 ^ 31 →
    ∃ store, Reachable store ∧ ∀ i < n, (store.view (Int32.ofNat i)).isSome = true
  | 0, _ => ⟨.fresh, reachable_fresh, fun _ hi => absurd hi (Nat.not_lt_zero _)⟩
  | n + 1, hn => by
      obtain ⟨store, hreach, hall⟩ := colls_reached n (by omega)
      have hcid : Int32.ofNat n ≥ 0 := by
        rw [ge_iff_le, Int32.le_iff_toInt_le, Int32.toInt_ofNat_of_lt (by omega)]
        exact Int.natCast_nonneg n
      have hsafe : TranSafe 0 (createTran (Int32.ofNat n)).ops (nsOf store.view) :=
        ⟨trivial, nofun, fun _ _ => trivial⟩
      obtain ⟨ret, store', hrun, -, -, hview⟩ := memStoreSubmitTran_ns hreach.ok
        (createTran_built hcid) hsafe
      obtain ⟨hnew, hold⟩ := createTran_leaves (Int32.ofNat n) (nsOf store.view)
      rw [hview] at hnew hold
      refine ⟨store', hreach.submit hrun, fun i hi => ?_⟩
      rw [← isSome_nsOf]
      by_cases heq : i = n
      · rw [heq]
        exact hnew
      · refine hold _ ?_
        rw [isSome_nsOf]
        exact hall i (by omega)

/-- There is a store with a collection for every id. -/
theorem allColls_reached : ∃ store, Reachable store ∧ 2 ^ 31 ≤ collCount store := by
  obtain ⟨store, hreach, hall⟩ := colls_reached (2 ^ 31) (Nat.le_refl _)
  refine ⟨store, hreach, ?_⟩
  have hids : ((List.range (2 ^ 31)).map Int32.ofNat).Nodup := by
    rw [List.nodup_iff_pairwise_ne, List.pairwise_map]
    refine (List.nodup_iff_pairwise_ne.mp List.nodup_range).imp_of_mem fun {a b} ha hb hne heq => ?_
    have hint := congrArg Int32.toInt heq
    rw [Int32.toInt_ofNat_of_lt (List.mem_range.mp ha),
      Int32.toInt_ofNat_of_lt (List.mem_range.mp hb)] at hint
    exact hne (Int.ofNat_inj.mp hint)
  have hsubset : (List.range (2 ^ 31)).map Int32.ofNat
      ⊆ store.colls.toList.map MemStoreCollNode.cid := by
    intro cid hcid
    obtain ⟨i, hi, rfl⟩ := List.mem_map.mp hcid
    rw [mem_cids]
    exact hall i (List.mem_range.mp hi)
  have hle := (List.subperm_of_subset hids hsubset).length_le
  rw [List.length_map, List.length_map, List.length_range] at hle
  exact hle

/-- Its list is one that no `int` counts. -/
theorem not_listsColls : ¬∀ store, Reachable store → ListsColls store := by
  intro hall
  obtain ⟨store, hreach, hcount⟩ := allColls_reached
  exact absurd ((hall store hreach).count hreach.ok) (Nat.not_lt.mpr hcount)

end CephInC
