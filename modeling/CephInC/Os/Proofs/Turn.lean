/-
One turn of the loop of `cceph_os_map_update`, whatever the outcomes of
its `malloc` calls.

The old node of the key goes first (`Put _ _ key none`), and then the
copy of the input node goes in, if it could be made: `Turn` has a case
for each way this can end, and `osMapUpdateBody_turn` is the only proof
that looks into the body of the loop.
-/
import CephInC.Os.Update

namespace CephInC

open Lib

-- ========================================================= copying blocks

/-- Copying a string asks for one block. -/
theorem copyString_run (key : CString) (s : Allocs) :
    copyString key s = if s.head then
      match copyOutcome key with
      | .copied => .ok (some key, s.tail)
      | .refused => .ok (none, s.tail)
      | .overrun => .error .outOfBounds
      else .ok (none, s.tail) := by
  unfold copyString copyOutcome
  have hb := int32_bounds (Int32.ofInt (strlen key + 1))
  generalize (Int32.ofInt (strlen key + 1)).toInt = n at hb ⊢
  obtain ⟨hlow, hhigh⟩ := hb
  by_cases hneg : n < 0
  · -- a negative size, as a size_t, is refused
    simp only [if_pos hneg]
    rw [bind_ok (malloc_refused (sizeT_of_neg hneg (by omega)) s)]
    cases s.head <;> rfl
  · have hsize : sizeT n = n.toNat := sizeT_of_nonneg (by omega) (by omega)
    simp only [if_neg hneg]
    rw [bind_ok (malloc_run (show sizeT n < 2 ^ 63 by omega) s)]
    cases s.head with
    | false => rfl
    | true =>
        by_cases hle : (strlen key : Int) + 1 ≤ n
        · have : strlen key + 1 ≤ sizeT n := by omega
          simp only [if_pos hle, if_pos this]
          rfl
        · have : ¬strlen key + 1 ≤ sizeT n := by omega
          simp only [if_neg hle, if_neg this]
          rfl

section
variable (key : CString) (bytes : List UInt8) (valueLength : Int32)

/-- What `cceph_os_map_node_new` makes of a value. -/
inductive NodeMade (s : Allocs) :
    Except Fault ((Int × Option OsMapNode) × Allocs) → Prop
  | copied (hcopy : nodeCopy key s = .copied) (hlen : valueLength.toInt ≤ bytes.length) :
      NodeMade s (.ok ((CCEPH_OK, some ⟨key, some (bytes.take valueLength.toInt.toNat),
        valueLength⟩), s.tail.tail.tail))
  | short (hcopy : nodeCopy key s = .copied) (hlen : ¬valueLength.toInt ≤ bytes.length) :
      NodeMade s (.error .outOfBounds)
  | refused (s' : Allocs) (hcopy : nodeCopy key s = .refused)
      (hs : s' ∈ [s.tail, s.tail.tail, s.tail.tail.tail]) :
      NodeMade s (.ok ((CCEPH_ERR_NO_ENOUGH_MEM, none), s'))
  | overrun (hcopy : nodeCopy key s = .overrun) : NodeMade s (.error .outOfBounds)

theorem osMapNodeNew_made (hpos : valueLength > 0) (s : Allocs) :
    NodeMade key bytes valueLength s (osMapNodeNew key (some bytes) valueLength s) := by
  have hb := int32_bounds valueLength
  have h0 : 0 < valueLength.toInt := Int32.lt_iff_toInt_lt.mp hpos
  have hsize : sizeT valueLength.toInt = valueLength.toInt.toNat :=
    sizeT_of_nonneg (by omega) (by omega)
  unfold osMapNodeNew
  simp only [if_pos hpos, assert_pos (Option.some_ne_none bytes), pure_bind]
  rw [bind_ok (malloc_run (show sizeofOsMapNode < 2 ^ 63 by decide) s)]
  cases hnode : s.head with
  | false => exact .refused _ (by simp only [nodeCopy, hnode]; rfl) List.mem_cons_self
  | true =>
      simp only [Bool.not_true, Bool.false_eq_true, if_false]
      rw [bind_run, copyString_run]
      cases hkey : s.tail.head with
      | false => exact .refused _ (by simp only [nodeCopy, hnode, hkey]; rfl) (by simp)
      | true =>
          rw [if_pos rfl]
          cases hout : copyOutcome key with
          | overrun => exact .overrun (by simp only [nodeCopy, hnode, hkey, hout]; rfl)
          | refused => exact .refused _ (by simp only [nodeCopy, hnode, hkey, hout]; rfl) (by simp)
          | copied =>
              have hcopy : nodeCopy key s = if s.tail.tail.head then .copied else .refused := by
                simp only [nodeCopy, hnode, hkey, hout]
                rfl
              simp only
              rw [bind_ok (malloc_run (show sizeT valueLength.toInt < 2 ^ 63 by omega) _)]
              cases hvalue : s.tail.tail.head with
              | false => exact .refused _ (by rw [hcopy, hvalue]; rfl) (by simp)
              | true =>
                  rw [hvalue] at hcopy
                  simp only [Bool.not_true, Bool.false_eq_true, if_false, hsize, memcpy_whole]
                  by_cases hle : valueLength.toInt ≤ bytes.length
                  · have hfits : valueLength.toInt.toNat ≤ bytes.length := by omega
                    rw [if_pos hfits]
                    exact .copied hcopy hle
                  · have hover : ¬valueLength.toInt.toNat ≤ bytes.length := by omega
                    rw [if_neg hover]
                    exact .short hcopy hle

end

-- =============================================================== one turn

/-- The tree with this node under the key, or with none. -/
structure Put (t t' : BinTree OsMapNode) (key : CString) (node : Option OsMapNode) : Prop where
  inOrder : MapOk strcmp OsMapNode.key t'
  get : ∀ k, mapGet OsMapNode.key t' k = if k = key then node else mapGet OsMapNode.key t k

/-- What one turn of the update loop comes to, from the tree `t` at the
node `node`. -/
inductive Turn (t : BinTree OsMapNode) (node : OsMapNode) (s : Allocs) :
    Except Fault ((UpdateStep × Int × BinTree OsMapNode) × Allocs) → Prop
  | drop (ret t') (hpos : ¬node.valueLength > 0) (hput : Put t t' node.key none) :
      Turn t node s (.ok ((.next, ret, t'), s))
  | store (bytes t') (hpos : node.valueLength > 0) (hv : node.value = some bytes)
      (hcopy : nodeCopy node.key s = .copied) (hlen : node.valueLength.toInt ≤ bytes.length)
      (hput : Put t t' node.key (some ⟨node.key,
        some (bytes.take node.valueLength.toInt.toNat), node.valueLength⟩)) :
      Turn t node s (.ok ((.next, CCEPH_OK, t'), s.tail.tail.tail))
  | lose (bytes t' s') (hpos : node.valueLength > 0) (hv : node.value = some bytes)
      (hcopy : nodeCopy node.key s = .refused)
      (hs : s' ∈ [s.tail, s.tail.tail, s.tail.tail.tail]) (hput : Put t t' node.key none) :
      Turn t node s (.ok ((.labelRet, CCEPH_ERR_NO_ENOUGH_MEM, t'), s'))
  | overrun (bytes) (hpos : node.valueLength > 0) (hv : node.value = some bytes)
      (hcopy : nodeCopy node.key s = .overrun) : Turn t node s (.error .outOfBounds)
  | short (bytes) (hpos : node.valueLength > 0) (hv : node.value = some bytes)
      (hcopy : nodeCopy node.key s = .copied)
      (hlen : ¬node.valueLength.toInt ≤ bytes.length) : Turn t node s (.error .outOfBounds)
  | noValue (hpos : node.valueLength > 0) (hv : node.value = none) :
      Turn t node s (.error .assertFail)

section
variable {t t₁ : BinTree OsMapNode} {key : CString}

theorem put_of_absent (h : MapOk strcmp OsMapNode.key t)
    (hk : mapGet OsMapNode.key t key = none) : Put t t key none where
  inOrder := h
  get k := by
    by_cases hkey : k = key
    · rw [if_pos hkey, hkey, hk]
    · rw [if_neg hkey]

theorem put_of_remove {node : Loc OsMapNode} (h : MapOk strcmp OsMapNode.key t)
    (hroot : node.root = t) :
    ∃ t', osMapNodeRemove node = .ok (CCEPH_OK, t') ∧ Put t t' node.data.key none := by
  subst hroot
  obtain ⟨t', ht', hok, hget⟩ := implMapRemove_spec linearCmp_strcmp h
  exact ⟨t', ht', hok, hget⟩

/-- Adding the copy under a key that is not there. -/
theorem osMapUpdateAdd_turn {node : OsMapNode} {bytes : List UInt8}
    (h : Put t t₁ node.key none) (hpos : node.valueLength > 0) (hv : node.value = some bytes)
    (s : Allocs) : Turn t node s (osMapUpdateAdd t₁ node s) := by
  have hmade := osMapNodeNew_made node.key bytes node.valueLength hpos s
  unfold osMapUpdateAdd
  rw [hv, bind_run]
  generalize osMapNodeNew node.key (some bytes) node.valueLength s = made at hmade
  cases hmade with
  | overrun hcopy => exact .overrun bytes hpos hv hcopy
  | short hcopy hlen => exact .short bytes hpos hv hcopy hlen
  | refused s' hcopy hs => exact .lose bytes t₁ s' hpos hv hcopy hs h
  | copied hcopy hlen =>
      have habsent : mapGet OsMapNode.key t₁ node.key = none := by
        rw [h.get, if_pos rfl]
      obtain ⟨t', ht', hok, hget⟩ := implMapInsert_fresh linearCmp_strcmp h.inOrder
        (a := ⟨node.key, some (bytes.take node.valueLength.toInt.toNat), node.valueLength⟩)
        habsent
      have hins : osMapNodeInsert t₁ ⟨node.key,
          some (bytes.take node.valueLength.toInt.toNat), node.valueLength⟩
            = .ok (CCEPH_OK, t') := ht'
      simp only [ne_eq, not_true_eq_false, if_false, deref_some, pure_bind, hins]
      refine .store bytes t' hpos hv hcopy hlen ⟨hok, fun k => ?_⟩
      rw [hget, h.get]
      by_cases hkey : k = node.key
      · rw [if_pos hkey, if_pos hkey]
      · rw [if_neg hkey, if_neg hkey, if_neg hkey]

/-- One turn of the loop. -/
theorem osMapUpdateBody_turn (h : MapOk strcmp OsMapNode.key t) (node : OsMapNode)
    (s : Allocs) : Turn t node s (osMapUpdateBody t node s) := by
  unfold osMapUpdateBody
  by_cases hpos : node.valueLength > 0
  · cases hv : node.value with
    | none =>
        simp only [if_pos hpos, assert_neg (not_not_intro rfl), fault_bind]
        exact .noValue hpos hv
    | some bytes =>
        simp only [if_pos hpos, assert_pos (Option.some_ne_none bytes), pure_bind]
        cases hk : mapGet OsMapNode.key t node.key with
        | none =>
            rw [show osMapNodeSearch t node.key = _ from
              implMapSearch_absent linearCmp_strcmp h hk]
            exact osMapUpdateAdd_turn (put_of_absent h hk) hpos hv s
        | some old =>
            obtain ⟨place, hs, hroot, hdata, hkey⟩ := implMapSearch_found linearCmp_strcmp h hk
            obtain ⟨t₁, hrem, hput⟩ := put_of_remove h hroot
            rw [hdata, hkey] at hput
            rw [show osMapNodeSearch t node.key = _ from hs]
            simp only [hrem]
            exact osMapUpdateAdd_turn hput hpos hv s
  · simp only [if_neg hpos]
    cases hk : mapGet OsMapNode.key t node.key with
    | none =>
        rw [show osMapNodeSearch t node.key = _ from
          implMapSearch_absent linearCmp_strcmp h hk]
        exact .drop _ t hpos (put_of_absent h hk)
    | some old =>
        obtain ⟨place, hs, hroot, hdata, hkey⟩ := implMapSearch_found linearCmp_strcmp h hk
        obtain ⟨t₁, hrem, hput⟩ := put_of_remove h hroot
        rw [hdata, hkey] at hput
        rw [show osMapNodeSearch t node.key = _ from hs]
        simp only [hrem]
        exact .drop _ t₁ hpos hput

end

end CephInC
