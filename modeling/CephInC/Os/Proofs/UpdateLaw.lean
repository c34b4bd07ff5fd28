/-
`cceph_os_map_update` while memory lasts: the lookups it leaves.

The loop puts one input node after the other into the result tree
(`osMapUpdateLoop_updated`), through whatever the removals and insertions
do to its shape. The keys of the input are distinct, so that what is left
under a key is `updatedNode`; all else that is said of the tree is read
off its lookups, since in a tree in key order a node is found under its
key (`mem_iff_mapGet`). The input tree is read only: the call gets it by
value here, and assigns nothing in it.
-/
import CephInC.Os.Proofs.Update

namespace CephInC

open Lib

-- ============================================================== lookups

/-- The nodes of a tree in order are those its keys find. -/
theorem mem_iff_mapGet {tree : BinTree OsMapNode} (h : AttrsKeyed tree) {node : OsMapNode} :
    node ∈ tree.toList ↔ mapGet OsMapNode.key tree node.key = some node := by
  constructor
  · exact fun hmem => h.inOrder.lookup_of_mem linearCmp_strcmp hmem
  · exact fun hget => (lookup_mem hget).1

theorem osMapNodeFound_eq {tree : BinTree OsMapNode} (h : AttrsKeyed tree) (key : CString) :
    osMapNodeFound tree key = mapGet OsMapNode.key tree key := by
  unfold osMapNodeFound osMapNodeSearch
  cases hget : mapGet OsMapNode.key tree key with
  | none =>
      rw [implMapSearch_absent linearCmp_strcmp h hget]
      rfl
  | some node =>
      obtain ⟨place, hsearch, -, hdata, -⟩ := implMapSearch_found linearCmp_strcmp h hget
      rw [hsearch, ← hdata]
      rfl

theorem nodeCopy_copied {key : CString} {s : Allocs} (h : nodeCopy key s = .copied) :
    copyOutcome key = .copied := by
  unfold nodeCopy at h
  split at h
  · cases hout : copyOutcome key with
    | copied => rfl
    | refused =>
        rw [hout] at h
        cases h
    | overrun =>
        rw [hout] at h
        cases h
  · cases h

/-- What `cceph_os_map_node_new` hands out is made as it says. -/
theorem osMapNodeNew_isMade {key : CString} {value : Option (List UInt8)} {valueLength : Int32}
    {ret : Int} {node : OsMapNode} {s s' : Allocs}
    (h : osMapNodeNew key value valueLength s = .ok ((ret, some node), s')) : node.Made := by
  by_cases hpos : valueLength > 0
  · cases value with
    | none =>
        unfold osMapNodeNew at h
        simp only [if_pos hpos, ne_eq, not_true_eq_false, assert_neg, not_false_eq_true,
          fault_bind] at h
        cases h
    | some bytes =>
        have hmade := osMapNodeNew_made key bytes valueLength hpos s
        rw [h] at hmade
        cases hmade with
        | copied hcopy hlen =>
            have h0 : 0 < valueLength.toInt := Int32.lt_iff_toInt_lt.mp hpos
            refine ⟨nodeCopy_copied hcopy, fun _ => ⟨_, rfl, ?_⟩⟩
            show valueLength.toInt ≤ ((bytes.take valueLength.toInt.toNat).length : Int)
            rw [List.length_take]
            omega
  · unfold osMapNodeNew at h
    simp only [if_neg hpos] at h
    obtain ⟨granted, s₁, -, h⟩ := bind_eq_ok h
    cases granted with
    | false => cases h
    | true =>
        simp only [Bool.not_true, Bool.false_eq_true, if_false] at h
        obtain ⟨copy, s₂, hcopy, h⟩ := bind_eq_ok h
        rw [copyString_run] at hcopy
        cases hhead : s₁.head with
        | false =>
            rw [hhead] at hcopy
            cases hcopy
            cases h
        | true =>
            rw [hhead, if_pos rfl] at hcopy
            cases hout : copyOutcome key with
            | overrun =>
                rw [hout] at hcopy
                cases hcopy
            | refused =>
                rw [hout] at hcopy
                cases hcopy
                cases h
            | copied =>
                rw [hout] at hcopy
                cases hcopy
                cases h
                exact ⟨hout, fun hlt => absurd hlt Int32.lt_irrefl⟩

section
variable {resultTree inputTree : BinTree OsMapNode}

theorem MapWellFormed.keyed {tree : BinTree OsMapNode} (h : MapWellFormed tree) :
    AttrsKeyed tree := ⟨h.redBlack, h.inOrder⟩

-- ============================================================== the loop

/-- While memory lasts every node with a value is copied. -/
theorem osMapUpdateLoop_updated {input : List OsMapNode} : ∀ {t : BinTree OsMapNode} (ret : Int),
    AttrsKeyed t → (∀ node ∈ input, node.Made) →
    ∃ ret' t', osMapUpdateLoop t ret input .plenty = .ok ((ret', t'), .plenty)
      ∧ AttrsKeyed t'
      ∧ mapGet OsMapNode.key t' = updatedFrom input (mapGet OsMapNode.key t) := by
  induction input with
  | nil => exact fun {t} ret h _ => ⟨ret, t, rfl, h, rfl⟩
  | cons node rest ih =>
      intro t ret h hmade
      have hnode := hmade node List.mem_cons_self
      have hrest := fun n hn => hmade n (List.mem_cons_of_mem _ hn)
      have hturn := osMapUpdateBody_turn h node .plenty
      unfold osMapUpdateLoop
      rw [bind_run]
      generalize osMapUpdateBody t node .plenty = x at hturn
      cases hturn with
      | drop ret' t' hpos hput =>
          obtain ⟨ret'', t'', hrun, hok, hget⟩ := ih ret' hput.inOrder hrest
          refine ⟨ret'', t'', hrun, hok, ?_⟩
          rw [hget, hput.update, ← stored_none hpos]
          rfl
      | store bytes t' hpos hv hcopy hlen hput =>
          obtain ⟨ret'', t'', hrun, hok, hget⟩ := ih CCEPH_OK hput.inOrder hrest
          refine ⟨ret'', t'', hrun, hok, ?_⟩
          rw [hget, hput.update, ← stored_some hpos hv]
          rfl
      | lose bytes t' s' hpos hv hcopy hs hput =>
          rw [nodeCopy_plenty, hnode.key] at hcopy
          cases hcopy
      | overrun bytes hpos hv hcopy =>
          rw [nodeCopy_plenty, hnode.key] at hcopy
          cases hcopy
      | short bytes hpos hv hcopy hlen =>
          obtain ⟨bytes', hv', hlen'⟩ := hnode.value hpos
          rw [hv] at hv'
          cases hv'
          exact absurd hlen' hlen
      | noValue hpos hv =>
          obtain ⟨bytes', hv', -⟩ := hnode.value hpos
          rw [hv] at hv'
          cases hv'

-- ====================================================== the updated tree

/-- A copy is made as its original, and has a byte. -/
theorem stored_made {node node' : OsMapNode} (h : node.Made) (hs : node.stored = some node') :
    node'.Made ∧ node'.valueLength > 0 := by
  by_cases hpos : node.valueLength > 0
  · obtain ⟨bytes, hv, hlen⟩ := h.value hpos
    have h0 : 0 < node.valueLength.toInt := Int32.lt_iff_toInt_lt.mp hpos
    rw [stored_some hpos hv] at hs
    cases hs
    refine ⟨⟨h.key, fun _ => ⟨_, rfl, ?_⟩⟩, hpos⟩
    show node.valueLength.toInt ≤ ((bytes.take node.valueLength.toInt.toNat).length : Int)
    rw [List.length_take]
    omega
  · rw [stored_none hpos] at hs
    cases hs

/-- A node of the updated tree is a copy of an input node, or was in the
result tree before. -/
theorem updatedNode_from {key : CString} {node : OsMapNode}
    (h : updatedNode resultTree inputTree key = some node) :
    (∃ old ∈ inputTree.toList, old.stored = some node) ∨ node ∈ resultTree.toList := by
  unfold updatedNode at h
  cases hget : mapGet OsMapNode.key inputTree key with
  | some old =>
      rw [hget] at h
      exact .inl ⟨old, (lookup_mem hget).1, h⟩
  | none =>
      rw [hget] at h
      exact .inr (lookup_mem h).1

theorem updated_of_get (hresult : MapWellFormed resultTree) (hinput : MapWellFormed inputTree)
    {tree : BinTree OsMapNode} (h : AttrsKeyed tree)
    (hget : ∀ key, mapGet OsMapNode.key tree key = updatedNode resultTree inputTree key) :
    Updated resultTree inputTree tree := by
  have hfrom : ∀ node ∈ tree.toList,
      (∃ old ∈ inputTree.toList, old.stored = some node) ∨ node ∈ resultTree.toList := by
    intro node hnode
    have hfound := (mem_iff_mapGet h).mp hnode
    rw [hget] at hfound
    exact updatedNode_from hfound
  have hfound : ∀ key, osMapNodeFound tree key = updatedNode resultTree inputTree key := by
    intro key
    rw [osMapNodeFound_eq h, hget]
  constructor
  · refine ⟨h.redBlack, h.inOrder, fun node hnode => ?_⟩
    cases hfrom node hnode with
    | inl hcopy =>
        obtain ⟨old, hold, hs⟩ := hcopy
        exact (stored_made (hinput.made old hold) hs).1
    | inr hold => exact hresult.made node hold
  · intro key node hnode hpos
    rw [osMapNodeFound_eq hinput.keyed] at hnode
    rw [hfound, updatedNode, hnode]
    exact if_pos hpos
  · intro key node hnode hle
    rw [osMapNodeFound_eq hinput.keyed] at hnode
    rw [hfound, updatedNode, hnode]
    exact stored_none (Int32.not_lt.mpr hle)
  · intro key hnone
    rw [osMapNodeFound_eq hinput.keyed] at hnone
    rw [hfound, updatedNode, hnone, osMapNodeFound_eq hresult.keyed]
  · intro hall node hnode
    cases hfrom node hnode with
    | inl hcopy =>
        obtain ⟨old, hold, hs⟩ := hcopy
        exact (stored_made (hinput.made old hold) hs).2
    | inr hold => exact hall node hold

-- ======================================================= the main result

/-- An update succeeds, and its lookups are those of the input first. -/
theorem osMapUpdate_updated (hresult : MapWellFormed resultTree)
    (hinput : MapWellFormed inputTree) :
    ∃ tree, osMapUpdate resultTree inputTree .plenty = .ok ((CCEPH_OK, tree), .plenty)
      ∧ Updated resultTree inputTree tree := by
  obtain ⟨ret, tree, hloop, hkeyed, hget⟩ :=
    osMapUpdateLoop_updated CCEPH_OK hresult.keyed hinput.made
  refine ⟨tree, ?_, updated_of_get hresult hinput hkeyed fun key => ?_⟩
  · unfold osMapUpdate
    rw [rbWalk_eq, bind_ok hloop]
    rfl
  · rw [hget, updatedNode_eq hinput.keyed]

end

theorem noNul_b : (0 : UInt8) ∉ [(98 : UInt8)] := by decide

theorem noNul_c : (0 : UInt8) ∉ [(99 : UInt8)] := by decide

/-- An attribute with a value of one byte. -/
def byteAttr (key : CString) (byte : UInt8) : OsMapNode := ⟨key, some [byte], 1⟩

theorem byteAttr_made {key : CString} (h : copyOutcome key = .copied) (byte : UInt8) :
    (byteAttr key byte).Made :=
  ⟨h, fun _ => ⟨[byte], rfl, Int.le_refl 1⟩⟩

/-- Attributes `a`, `b` and `c`. -/
def threeAttrs : BinTree OsMapNode :=
  .node .black (.node .red .nil (byteAttr ⟨[97], noNul_a⟩ 1) .nil) (byteAttr ⟨[98], noNul_b⟩ 1)
    (.node .red .nil (byteAttr ⟨[99], noNul_c⟩ 1) .nil)

/-- A value for `b`, and none for `c`. -/
def setAndUnset : BinTree OsMapNode :=
  .node .black .nil (byteAttr ⟨[98], noNul_b⟩ 2)
    (.node .red .nil ⟨⟨[99], noNul_c⟩, none, 0⟩ .nil)

theorem threeAttrs_wellFormed : MapWellFormed threeAttrs where
  redBlack := ⟨_, .black (.red .nil .nil) (.red .nil .nil)⟩
  inOrder := by
    unfold InOrder
    decide
  made := by
    intro node hnode
    simp only [show threeAttrs.toList = [_, _, _] from rfl, List.mem_cons, List.not_mem_nil,
      or_false] at hnode
    rcases hnode with rfl | rfl | rfl
    · exact byteAttr_made rfl _
    · exact byteAttr_made rfl _
    · exact byteAttr_made rfl _

theorem setAndUnset_wellFormed : MapWellFormed setAndUnset where
  redBlack := ⟨_, .black .nil (.red .nil .nil)⟩
  inOrder := by
    unfold InOrder
    decide
  made := by
    intro node hnode
    simp only [show setAndUnset.toList = [_, _] from rfl, List.mem_cons, List.not_mem_nil,
      or_false] at hnode
    rcases hnode with rfl | rfl
    · exact byteAttr_made rfl _
    · exact ⟨rfl, fun hpos => absurd hpos (by decide)⟩

/-- `a` is kept, `b` set and `c` unset. -/
theorem osMapUpdate_updated_three : ∃ tree,
    osMapUpdate threeAttrs setAndUnset .plenty = .ok ((CCEPH_OK, tree), .plenty)
    ∧ Updated threeAttrs setAndUnset tree
    ∧ osMapNodeFound tree ⟨[97], noNul_a⟩ = some (byteAttr ⟨[97], noNul_a⟩ 1)
    ∧ osMapNodeFound tree ⟨[98], noNul_b⟩ = some (byteAttr ⟨[98], noNul_b⟩ 2)
    ∧ osMapNodeFound tree ⟨[99], noNul_c⟩ = none := by
  obtain ⟨tree, hrun, hupdated⟩ := osMapUpdate_updated threeAttrs_wellFormed setAndUnset_wellFormed
  refine ⟨tree, hrun, hupdated, hupdated.kept _ rfl, ?_, ?_⟩
  · exact hupdated.set _ (byteAttr ⟨[98], noNul_b⟩ 2) rfl (by decide)
  · exact hupdated.unset _ ⟨⟨[99], noNul_c⟩, none, 0⟩ rfl (by decide)

end CephInC
