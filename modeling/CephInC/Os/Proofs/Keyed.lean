/-
The trees of a store stay in key order, whatever `malloc` refuses.

`CollsKeyed` is what a search and a write need, and no more: nothing is
said of values, which an op cut short by the allocator leaves as they may
be. Each op keeps it, and once the levels it names are there it ends with
`CCEPH_OK` or `CCEPH_ERR_NO_ENOUGH_MEM` if it returns.
-/
import CephInC.Lib.Ensures
import CephInC.Os.Existence
import CephInC.Os.Proofs.DoOp

namespace CephInC

open Lib

-- ============================================================ the rules

section
variable {σ α β : Type} {P : α → Prop}

theorem ensures_fault (e : Fault) : Ensures (fault e : Prog σ α) P := Ensures.throw e

theorem ensures_assert {p : Prop} [Decidable p] {x : Prog σ α} (h : p → Ensures x P) :
    Ensures (assert p >>= fun _ => x) P := by
  by_cases hp : p
  · rw [assert_pos hp, pure_bind]
    exact h hp
  · rw [assert_neg hp, fault_bind]
    exact ensures_fault _

theorem ensures_deref {o : Option β} {f : β → Prog σ α} (h : ∀ b, o = some b → Ensures (f b) P) :
    Ensures (deref o >>= f) P := by
  cases o with
  | none =>
      rw [deref_none, fault_bind]
      exact ensures_fault _
  | some b =>
      rw [deref_some, pure_bind]
      exact h b rfl

theorem ensures_lift {x : Except Fault β} {f : β → Prog σ α}
    (h : ∀ b, x = .ok b → Ensures (f b) P) : Ensures (lift x >>= f) P := by
  refine Ensures.bind (Q := fun b => x = .ok b) ?_ h
  · intro s b s' hrun
    cases x with
    | error e => cases hrun
    | ok b' =>
        cases hrun
        rfl

end

-- ======================================================= maps in order

section
variable {α κ : Type} [DecidableEq κ] {cmp : κ → κ → Int} {key : α → κ}

/-- What a search gives is in the tree. -/
theorem implMapSearch_root (hc : LinearCmp cmp) {t : BinTree α} (h : MapOk cmp key t)
    {k : κ} {node : Loc α} (hs : (implMapSearch cmp key t k).2 = some node) :
    node.root = t := by
  cases hk : mapGet key t k with
  | none =>
      rw [implMapSearch_absent hc h hk] at hs
      cases hs
  | some a =>
      obtain ⟨place, hplace, hroot, -, -⟩ := implMapSearch_found hc h hk
      rw [hplace] at hs
      cases hs
      exact hroot

end

/-- What a call that found all it names returns. -/
def Finished (ret : Int) : Prop := ret = CCEPH_OK ∨ ret = CCEPH_ERR_NO_ENOUGH_MEM

/-- Attributes in key order. -/
abbrev AttrsKeyed (map : BinTree OsMapNode) : Prop := MapOk strcmp OsMapNode.key map

theorem osMapUpdateBody_keyed {t : BinTree OsMapNode} (h : AttrsKeyed t) (node : OsMapNode) :
    Ensures (osMapUpdateBody t node) fun r => AttrsKeyed r.2.2 := by
  intro s r s' hrun
  have hturn := osMapUpdateBody_turn h node s
  rw [hrun] at hturn
  cases hturn with
  | drop ret t' hpos hput => exact hput.inOrder
  | store bytes t' hpos hv hcopy hlen hput => exact hput.inOrder
  | lose bytes t' s' hpos hv hcopy hs hput => exact hput.inOrder

theorem osMapUpdateLoop_keyed : ∀ {t : BinTree OsMapNode} (ret : Int)
    (input : List OsMapNode), AttrsKeyed t →
    Ensures (osMapUpdateLoop t ret input) fun r => AttrsKeyed r.2
  | _, _, [], h => .pure h
  | _, _, node :: rest, h => by
      unfold osMapUpdateLoop
      refine (osMapUpdateBody_keyed h node).bind fun r hr => ?_
      obtain ⟨step, ret', t'⟩ := r
      cases step with
      | labelRet => exact .pure hr
      | next => exact osMapUpdateLoop_keyed ret' rest hr

theorem osMapUpdate_keyed {t : BinTree OsMapNode} (h : AttrsKeyed t)
    (input : BinTree OsMapNode) :
    Ensures (osMapUpdate t input) fun r => r.1 = CCEPH_OK ∧ AttrsKeyed r.2 := by
  unfold osMapUpdate
  refine (osMapUpdateLoop_keyed CCEPH_OK _ h).bind fun r hr => ?_
  exact .pure ⟨rfl, hr⟩

-- ================================================================ objects

/-- An object: its attributes in key order, its block as long as it says. -/
structure ObjectKeyed (onode : MemStoreObjectNode) : Prop where
  attrs : AttrsKeyed onode.map
  sized : onode.Sized

/-- A new object is empty. -/
theorem objectKeyed_new (oid : CString) : ObjectKeyed ⟨oid, none, 0, .nil⟩ where
  attrs := mapOk_nil
  sized := rfl

/-- Objects in key order. -/
structure ObjectsKeyed (objects : BinTree MemStoreObjectNode) : Prop where
  inOrder : MapOk strcmp MemStoreObjectNode.oid objects
  nodes : ∀ oid onode, mapGet MemStoreObjectNode.oid objects oid = some onode →
    ObjectKeyed onode

theorem objectsKeyed_nil : ObjectsKeyed .nil where
  inOrder := mapOk_nil
  nodes := by
    intro oid onode h
    rw [mapGet_nil] at h
    cases h

/-- Writing through an object pointer. -/
theorem ObjectsKeyed.setData {onode : Loc MemStoreObjectNode} (h : ObjectsKeyed onode.root)
    {object : MemStoreObjectNode} (hok : ObjectKeyed object)
    (hoid : object.oid = onode.data.oid) : ObjectsKeyed (onode.setData object).root where
  inOrder := setData_mapOk h.inOrder hoid
  nodes := by
    refine mapGet_all (setData_mapGet linearCmp_strcmp h.inOrder hoid) h.nodes ?_
    intro a ha
    cases ha
    exact hok

theorem ObjectsKeyed.data {onode : Loc MemStoreObjectNode} (h : ObjectsKeyed onode.root) :
    ObjectKeyed onode.data :=
  h.nodes _ _ (mapGet_root linearCmp_strcmp h.inOrder)

theorem copyString_ensures (s : CString) :
    Ensures (copyString s) fun r => ∀ s', r = some s' → s' = s := by
  unfold copyString
  refine (Ensures.trivial _).bind fun granted _ => ?_
  split
  · split
    · refine .pure fun s' h => ?_
      cases h
      rfl
    · exact ensures_fault _
  · exact .pure nofun

theorem memStoreObjectNodeNew_ensures (oid : CString) :
    Ensures (memStoreObjectNodeNew oid) fun r => Finished r.1
      ∧ ∀ onode, r.2 = some onode → onode = ⟨oid, none, 0, .nil⟩ := by
  unfold memStoreObjectNodeNew
  refine (Ensures.trivial _).bind fun granted _ => ?_
  split
  · exact .pure ⟨.inr rfl, nofun⟩
  · refine (copyString_ensures oid).bind fun copied hcopied => ?_
    cases copied with
    | none => exact .pure ⟨.inr rfl, nofun⟩
    | some oid' =>
        refine .pure ⟨.inl rfl, fun onode h => ?_⟩
        cases h
        rw [hcopied oid' rfl]

theorem memStoreObjectOpen_keyed {objects : BinTree MemStoreObjectNode}
    (h : ObjectsKeyed objects) (oid : CString) :
    Ensures (memStoreObjectOpen objects oid) fun r => Finished r.1 ∧ ObjectsKeyed r.2.1
      ∧ ∀ onode, r.2.2 = some onode → onode.root = r.2.1 := by
  intro s r s' hrun
  have hdone := memStoreObjectOpen_done h.inOrder oid s
  rw [hrun] at hdone
  cases hdone with
  | found onode hroot hoid hget =>
      refine ⟨.inl rfl, h, fun onode' hsome => ?_⟩
      cases hsome
      exact hroot
  | refused hs hget hno => exact ⟨.inr rfl, h, nofun⟩
  | created objects' onode hget hcopy hnode hname hroot hdata hok hget' =>
      refine ⟨.inl rfl, ⟨hok, mapGet_all hget' h.nodes ?_⟩, fun onode' hsome => ?_⟩
      · intro a ha
        cases ha
        exact objectKeyed_new oid
      · cases hsome
        exact hroot

/-- A copy into a block leaves it as long as it was. -/
theorem memcpy_ensures {σ : Type} (dst : List UInt8) (off : Nat) (src : Option (List UInt8))
    (n : Nat) :
    Ensures (memcpy dst off src n : Prog σ (List UInt8)) fun r => r.length = dst.length := by
  unfold memcpy
  split
  · exact .pure rfl
  · split
    · exact ensures_fault _
    · split
      · next hfit =>
          refine .pure ?_
          simp only [List.length_append, List.length_take, List.length_drop]
          omega
      · exact ensures_fault _

/-- A write changes neither name nor attributes, and the block it grows is
as long as it says. -/
theorem memStoreObjectWrite_keyed {onode : MemStoreObjectNode} (h : ObjectKeyed onode)
    (oid : CString) (op : OsTranOp) :
    Ensures (memStoreObjectWrite onode oid op) fun r => Finished r.1
      ∧ r.2.oid = onode.oid ∧ ObjectKeyed r.2 := by
  have hexpand : ∀ newLength, Ensures (memStoreObjectExpand onode newLength) fun r =>
      Finished r.1 ∧ r.2.oid = onode.oid ∧ ObjectKeyed r.2 := by
    intro newLength s r s' hrun
    by_cases hlt : onode.length < newLength
    · rw [memStoreObjectExpand_run h.sized hlt] at hrun
      cases hhead : s.head with
      | false =>
          rw [hhead] at hrun
          cases hrun
          exact ⟨.inr rfl, rfl, h⟩
      | true =>
          rw [hhead] at hrun
          cases hrun
          exact ⟨.inl rfl, rfl, h.attrs, grown_sized h.sized hlt⟩
    · rw [memStoreObjectExpand_of_le hlt] at hrun
      cases hrun
      exact ⟨.inl rfl, rfl, h⟩
  unfold memStoreObjectWrite
  split
  · exact .pure ⟨.inl rfl, rfl, h⟩
  · refine ensures_assert fun _ => (hexpand _).bind fun r hr => ?_
    obtain ⟨ret, onode'⟩ := r
    obtain ⟨hret, hoid, hkeyed⟩ := hr
    simp only
    split
    · exact .pure ⟨hret, hoid, hkeyed⟩
    · refine (memcpy_ensures _ _ _ _).bind fun data hdata => ?_
      refine .pure ⟨.inl rfl, hoid, hkeyed.attrs, ?_⟩
      show (data.length : Int) = onode'.length.toInt
      rw [hdata]
      exact hkeyed.sized

end CephInC
