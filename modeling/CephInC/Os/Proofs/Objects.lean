/-
The object half of the ops against their view: searching, creating,
writing, removing an object among the objects of a collection.

`ObjectOk` ties an object's `length` to the block it owns. A write keeps
it because it either grows the block to the end of the write or finds
the end inside the block; where the end has no `int64_t` the code takes
the second branch, and the copy leaves the block (`WriteDone`).
-/
import CephInC.Lib.Patches
import CephInC.Os.Proofs.Attrs

namespace CephInC

open Lib

/-- The block of an object has its length. -/
def MemStoreObjectNode.Sized (onode : MemStoreObjectNode) : Prop :=
  (onode.content.length : Int) = onode.length.toInt

/-- A stored object: its block has its length. -/
structure ObjectOk (onode : MemStoreObjectNode) : Prop where
  attrs : AttrsOk onode.map
  length : (onode.content.length : Int) = onode.length.toInt

/-- The objects of a collection. -/
structure ObjectsOk (objects : BinTree MemStoreObjectNode) : Prop where
  inOrder : MapOk strcmp MemStoreObjectNode.oid objects
  nodes : ∀ oid onode,
    mapGet MemStoreObjectNode.oid objects oid = some onode → ObjectOk onode

theorem objectsOk_nil : ObjectsOk .nil where
  inOrder := mapOk_nil
  nodes := by
    intro oid onode h
    rw [mapGet_nil] at h
    cases h

/-- A new object is empty. -/
theorem objectOk_new (oid : CString) : ObjectOk ⟨oid, none, 0, .nil⟩ where
  attrs := attrsOk_nil
  length := rfl

-- ============================================================== content

/-- An object grown to a new length: it keeps its bytes, and zeros follow. -/
def MemStoreObjectNode.grown (onode : MemStoreObjectNode) (newLength : Int64) :
    MemStoreObjectNode :=
  { onode with
    data := some (onode.content ++ List.replicate
      (newLength.toInt.toNat - onode.content.length) 0)
    length := newLength }

/-- Growing asks for one block; without it the object stays as it is. -/
theorem memStoreObjectExpand_run {onode : MemStoreObjectNode} (hlen : onode.Sized)
    {newLength : Int64} (hlt : onode.length < newLength) (s : Allocs) :
    memStoreObjectExpand onode newLength s
      = .ok (if s.head then (CCEPH_OK, onode.grown newLength)
          else (CCEPH_ERR_NO_ENOUGH_MEM, onode), s.tail) := by
  unfold MemStoreObjectNode.Sized at hlen
  have hb := int64_bounds newLength
  have hlt' := Int64.lt_iff_toInt_lt.mp hlt
  have hsize : sizeT newLength.toInt = newLength.toInt.toNat :=
    sizeT_of_nonneg (by omega) (by omega)
  have hold : sizeT onode.length.toInt = onode.content.length := by
    rw [sizeT_of_nonneg (by omega) (by omega)]
    omega
  unfold memStoreObjectExpand
  simp only [if_pos hlt, hsize, hold]
  rw [bind_ok (malloc_run (by omega) s)]
  cases s.head with
  | false => rfl
  | true =>
      simp only [Bool.not_true, Bool.false_eq_true, if_false]
      have hcopy : (memcpy (List.replicate newLength.toInt.toNat 0) 0 onode.data
          onode.content.length : Prog Allocs (List UInt8))
            = pure (onode.content ++ List.replicate
                (newLength.toInt.toNat - onode.content.length) 0) := by
        unfold memcpy
        by_cases h0 : onode.content.length = 0
        · rw [if_pos h0, h0, List.eq_nil_of_length_eq_zero h0]
          rfl
        · rw [if_neg h0]
          cases hd : onode.data with
          | none =>
              have : onode.content = [] := by
                unfold MemStoreObjectNode.content
                rw [hd]
                rfl
              rw [this] at h0
              exact absurd rfl h0
          | some bytes =>
              have hc : onode.content = bytes := by
                unfold MemStoreObjectNode.content
                rw [hd]
                rfl
              rw [hc] at hlen ⊢
              have hfit : 0 + bytes.length
                    ≤ (List.replicate newLength.toInt.toNat (0 : UInt8)).length
                  ∧ bytes.length ≤ bytes.length := by
                rw [List.length_replicate]
                omega
              simp only [if_pos hfit]
              simp
      rw [hcopy, pure_bind]
      rfl

theorem grown_sized {onode : MemStoreObjectNode} (h : onode.Sized) {newLength : Int64}
    (hlt : onode.length < newLength) : (onode.grown newLength).Sized := by
  unfold MemStoreObjectNode.Sized at h
  have hlt' := Int64.lt_iff_toInt_lt.mp hlt
  show ((onode.content ++ List.replicate
    (newLength.toInt.toNat - onode.content.length) 0).length : Int) = newLength.toInt
  rw [List.length_append, List.length_replicate]
  omega

/-- No growth where the object is long enough. -/
theorem memStoreObjectExpand_of_le {onode : MemStoreObjectNode}
    {newLength : Int64} (h : ¬onode.length < newLength) (s : Allocs) :
    memStoreObjectExpand onode newLength s = .ok ((CCEPH_OK, onode), s) := by
  unfold memStoreObjectExpand
  rw [if_neg h]
  rfl

/-- What the end of a write leaves of an object. -/
structure WriteOk (onode onode' : MemStoreObjectNode) : Prop where
  ok : ObjectOk onode'
  oid : onode'.oid = onode.oid
  map : onode'.map = onode.map

/-- The outcome of the end of a write, seen through the content. -/
def ContentOk (onode : MemStoreObjectNode) (op : OsTranOp) :
    Except Fault ((Int × MemStoreObjectNode) × Allocs) → Prop
  | .error e => contentWrite onode.content op.offset op.length
      (op.data.getD []) = .error e
  | .ok ((ret, onode'), s) => s = .plenty ∧ ret = CCEPH_OK
      ∧ WriteOk onode onode'
      ∧ contentWrite onode.content op.offset op.length (op.data.getD [])
          = .ok onode'.content

theorem length_overlay (content bytes : List UInt8) (offset : Nat) :
    (overlay content offset bytes).length
      = max content.length (offset + bytes.length) :=
  length_splice (z := 0)

/-- The final copy, into a block that reaches the end of the write. -/
theorem memcpy_overlay {σ : Type} {content block : List UInt8}
    {offset n : Nat} (data : List UInt8) (hn : n ≠ 0)
    (hblock : block = content
      ++ List.replicate (offset + n - content.length) 0) :
    (memcpy block offset (some data) n : Prog σ (List UInt8))
      = if n ≤ data.length then pure (overlay content offset (data.take n))
        else fault .outOfBounds := by
  unfold memcpy
  rw [if_neg hn]
  have hreach : offset + n ≤ block.length := by
    rw [hblock, List.length_append, List.length_replicate]
    omega
  by_cases hd : n ≤ data.length
  · have htake : (data.take n).length = n := by
      rw [List.length_take]
      omega
    simp only [if_pos (show offset + n ≤ block.length ∧ n ≤ data.length from
      ⟨hreach, hd⟩), if_pos hd]
    unfold overlay
    rw [htake, ← hblock]
  · have hfit : ¬(offset + n ≤ block.length ∧ n ≤ data.length) := by
      intro h
      exact hd h.2
    simp only [if_neg hfit, if_neg hd]

/-- The sum the code compares, when it is an `int64_t` and when not. -/
theorem offset_add_length {offset length : Int64} (ho : 0 ≤ offset.toInt)
    (hl : 0 ≤ length.toInt) :
    (offset + length).toInt
      = if offset.toInt + length.toInt < 2 ^ 63
        then offset.toInt + length.toInt
        else offset.toInt + length.toInt - 2 ^ 64 := by
  have hbo := int64_bounds offset
  have hbl := int64_bounds length
  rw [Int64.toInt_add, Int.bmod_def]
  split <;> split <;> omega

/-- What the end of a write comes to, from an object `onode`. -/
inductive WriteDone (onode : MemStoreObjectNode) (op : OsTranOp) (s : Allocs) :
    Except Fault ((Int × MemStoreObjectNode) × Allocs) → Prop
  | touch (h0 : op.length = 0) : WriteDone onode op s (.ok ((CCEPH_OK, onode), s))
  | refused (h0 : op.length ≠ 0) (hend : op.offset.toInt + op.length.toInt < 2 ^ 63)
      (hlt : onode.length.toInt < op.offset.toInt + op.length.toInt) (hno : s.head = false) :
      WriteDone onode op s (.ok ((CCEPH_ERR_NO_ENOUGH_MEM, onode), s.tail))
  | written (onode' s') (h0 : op.length ≠ 0)
      (hend : op.offset.toInt + op.length.toInt < 2 ^ 63)
      (hdata : op.length.toInt ≤ (op.data.getD []).length)
      (hs : s' = if onode.length < op.offset + op.length then s.tail else s)
      (hgrant : onode.length < op.offset + op.length → s.head = true)
      (hoid : onode'.oid = onode.oid) (hmap : onode'.map = onode.map) (hsized : onode'.Sized)
      (hcontent : onode'.content = overlay onode.content op.offset.toInt.toNat
        ((op.data.getD []).take op.length.toInt.toNat)) :
      WriteDone onode op s (.ok ((CCEPH_OK, onode'), s'))
  | outside (h0 : op.length ≠ 0)
      (hgrant : op.offset.toInt + op.length.toInt < 2 ^ 63 →
        onode.length < op.offset + op.length → s.head = true)
      (hout : ¬(op.offset.toInt + op.length.toInt < 2 ^ 63
        ∧ op.length.toInt ≤ (op.data.getD []).length)) :
      WriteDone onode op s (.error .outOfBounds)

section
variable {onode : MemStoreObjectNode} {op : OsTranOp}

/-- The final copy, into a block that holds the content and reaches the end
of the write. -/
theorem finalCopy_done {grown : MemStoreObjectNode} {s s' : Allocs} (h0 : op.length ≠ 0)
    (hl : 0 ≤ op.length.toInt) (hend : op.offset.toInt + op.length.toInt < 2 ^ 63)
    (hsome : op.data.isSome)
    (hs : s' = if onode.length < op.offset + op.length then s.tail else s)
    (hgrant : onode.length < op.offset + op.length → s.head = true)
    (hoid : grown.oid = onode.oid) (hmap : grown.map = onode.map) (hsized : grown.Sized)
    (hgrown : grown.content = onode.content ++ List.replicate
      (op.offset.toInt.toNat + op.length.toInt.toNat - onode.content.length) 0) :
    WriteDone onode op s ((do
      let data ← memcpy (grown.data.getD []) op.offset.toInt.toNat op.data op.length.toInt.toNat
      return (CCEPH_OK, { grown with data := some data }) :
        Prog Allocs (Int × MemStoreObjectNode)) s') := by
  obtain ⟨data, hd⟩ := Option.isSome_iff_exists.mp hsome
  have hl0 : op.length.toInt ≠ 0 := fun h => h0 (Int64.toInt_inj.mp h)
  have hn : op.length.toInt.toNat ≠ 0 := by omega
  have hcopy := memcpy_overlay (σ := Allocs) data hn hgrown
  have hgetD : op.data.getD [] = data := by
    rw [hd]
    rfl
  unfold MemStoreObjectNode.content at hcopy
  rw [hd, hcopy]
  by_cases hfit : op.length.toInt.toNat ≤ data.length
  · rw [if_pos hfit, pure_bind]
    refine .written _ _ h0 hend ?_ hs hgrant hoid hmap ?_ ?_
    · rw [hgetD]
      omega
    · -- the copy stays inside, so the length is that of the block
      show ((overlay onode.content op.offset.toInt.toNat
        (data.take op.length.toInt.toNat)).length : Int) = grown.length.toInt
      rw [← hsized, hgrown, length_overlay, List.length_take, List.length_append,
        List.length_replicate]
      omega
    · rw [hgetD]
      rfl
  · rw [if_neg hfit, fault_bind]
    refine .outside h0 (fun _ => hgrant) fun hand => hfit ?_
    have := hand.2
    rw [hgetD] at this
    omega

/-- The end of a write. -/
theorem memStoreObjectWrite_done (h : onode.Sized) {oid : CString} (hoid : onode.oid = oid)
    (hoff : op.offset ≥ 0) (hlen : op.length ≥ 0) (hdata : op.length > 0 → op.data.isSome)
    (s : Allocs) : WriteDone onode op s (memStoreObjectWrite onode oid op s) := by
  unfold memStoreObjectWrite
  by_cases h0 : op.length = 0
  · simp only [if_pos h0]
    exact .touch h0
  have hlength := h
  unfold MemStoreObjectNode.Sized at hlength
  have ho : 0 ≤ op.offset.toInt := Int64.le_iff_toInt_le.mp hoff
  have hl : 0 ≤ op.length.toInt := Int64.le_iff_toInt_le.mp hlen
  have hl0 : op.length.toInt ≠ 0 := fun h => h0 (Int64.toInt_inj.mp h)
  have hpos : op.length > 0 := by
    refine Int64.lt_iff_toInt_lt.mpr ?_
    show 0 < op.length.toInt
    omega
  have hbo := int64_bounds op.offset
  have hbl := int64_bounds op.length
  have hbn := int64_bounds onode.length
  have hso : sizeT op.offset.toInt = op.offset.toInt.toNat :=
    sizeT_of_nonneg ho (by omega)
  have hsl : sizeT op.length.toInt = op.length.toInt.toNat :=
    sizeT_of_nonneg hl (by omega)
  have heq : strcmp oid onode.oid = 0 := linearCmp_strcmp.eq_zero.mpr hoid.symm
  have hsum := offset_add_length ho hl
  simp only [if_neg h0, assert_pos heq, pure_bind, hso, hsl]
  by_cases hend : op.offset.toInt + op.length.toInt < 2 ^ 63
  · rw [if_pos hend] at hsum
    by_cases hlt : onode.length < op.offset + op.length
    · have hlt' := Int64.lt_iff_toInt_lt.mp hlt
      rw [hsum] at hlt'
      rw [bind_ok (memStoreObjectExpand_run h hlt s)]
      cases hhead : s.head with
      | false => exact .refused h0 hend hlt' hhead
      | true =>
          refine finalCopy_done h0 hl hend (hdata hpos) (if_pos hlt).symm (fun _ => hhead)
            rfl rfl (grown_sized h hlt) ?_
          show onode.content ++ List.replicate
            ((op.offset + op.length).toInt.toNat - onode.content.length) 0 = _
          congr 2
          omega
    · have hge : ¬onode.length.toInt < (op.offset + op.length).toInt :=
        fun h => hlt (Int64.lt_iff_toInt_lt.mpr h)
      have hgap : op.offset.toInt.toNat + op.length.toInt.toNat - onode.content.length = 0 := by
        omega
      rw [bind_ok (memStoreObjectExpand_of_le hlt s)]
      refine finalCopy_done h0 hl hend (hdata hpos) (if_neg hlt).symm
        (fun hlt' => absurd hlt' hlt) rfl rfl h ?_
      rw [hgap, List.replicate_zero, List.append_nil]
  · -- the sum wrapped: no growth, and the copy leaves the block
    rw [if_neg hend] at hsum
    have hlt : ¬onode.length < op.offset + op.length := by
      intro hlt
      have hlt' := Int64.lt_iff_toInt_lt.mp hlt
      omega
    obtain ⟨data, hd⟩ := Option.isSome_iff_exists.mp (hdata hpos)
    have hfit : ¬(op.offset.toInt.toNat + op.length.toInt.toNat
          ≤ (onode.data.getD []).length
        ∧ op.length.toInt.toNat ≤ data.length) := by
      have hblock : ((onode.data.getD []).length : Int) = onode.length.toInt := h
      omega
    have hn : op.length.toInt.toNat ≠ 0 := by omega
    rw [bind_ok (memStoreObjectExpand_of_le hlt s)]
    simp only [ne_eq, not_true_eq_false, if_false, memcpy, if_neg hn, hd, if_neg hfit,
      fault_bind]
    exact .outside h0 (fun hend' => absurd hend' hend) fun hand => hend hand.1

/-- The end of a write of bytes. -/
theorem memStoreObjectWrite_spec (h : ObjectOk onode) {oid : CString} (hoid : onode.oid = oid)
    (hoff : op.offset ≥ 0) (hlen : op.length ≥ 0) (hdata : op.length > 0 → op.data.isSome) :
    ContentOk onode op (memStoreObjectWrite onode oid op .plenty) := by
  have hdone := memStoreObjectWrite_done h.length hoid hoff hlen hdata .plenty
  generalize memStoreObjectWrite onode oid op .plenty = x at hdone
  cases hdone with
  | touch h0 => exact ⟨rfl, rfl, ⟨h, rfl, rfl⟩, if_pos h0⟩
  | refused h0 hend hlt hno => cases hno
  | written onode' s' h0 hend hdata hs hgrant hoid hmap hsized hcontent =>
      refine ⟨?_, rfl, ⟨⟨hmap ▸ h.attrs, hsized⟩, hoid, hmap⟩, ?_⟩
      · rw [hs, Allocs.plenty_tail, ite_self]
      · rw [contentWrite, if_neg h0, if_pos ⟨hend, hdata⟩, hcontent]
  | outside h0 hgrant hout =>
      show contentWrite _ _ _ _ = _
      rw [contentWrite, if_neg h0, if_neg hout]

end

-- ================================================ an object among others

/-- Writing through an object pointer. -/
theorem objects_setData {onode : Loc MemStoreObjectNode}
    (h : ObjectsOk onode.root) {object : MemStoreObjectNode}
    (hok : ObjectOk object) (hoid : object.oid = onode.data.oid) :
    ObjectsOk (onode.setData object).root
      ∧ objectsView (onode.setData object).root
        = Function.update (objectsView onode.root) onode.data.oid
            (some (objectView object)) := by
  have hget := setData_mapGet linearCmp_strcmp h.inOrder hoid
  refine ⟨⟨setData_mapOk h.inOrder hoid, ?_⟩, ?_⟩
  · refine mapGet_all hget h.nodes ?_
    intro a ha
    cases ha
    exact hok
  · exact mapGet_view hget fun x => x.map objectView

/-- A stored object, through the pointer a search gives. -/
theorem objectOk_of_root {onode : Loc MemStoreObjectNode}
    (h : ObjectsOk onode.root) : ObjectOk onode.data := by
  exact h.nodes onode.data.oid onode.data (mapGet_root linearCmp_strcmp h.inOrder)

/-- What opening an object did, seen through the view. -/
def OpenOk (objects : BinTree MemStoreObjectNode) (oid : CString) :
    Except Fault ((Int × BinTree MemStoreObjectNode
      × Option (Loc MemStoreObjectNode)) × Allocs) → Prop
  | .error e => objectOpen oid (objectsView objects oid) = .error e
  | .ok ((ret, objects', none), s) => s = .plenty ∧ ret ≠ CCEPH_OK
      ∧ objects' = objects
      ∧ objectOpen oid (objectsView objects oid) = .ok (ret, none)
      ∧ objectsView objects oid = none
  | .ok ((ret, objects', some onode), s) => s = .plenty ∧ ret = CCEPH_OK
      ∧ ObjectsOk objects' ∧ onode.root = objects' ∧ onode.data.oid = oid
      ∧ objectOpen oid (objectsView objects oid)
          = .ok (CCEPH_OK, some (objectView onode.data))
      ∧ objectsView objects' = Function.update (objectsView objects) oid
          (some (objectView onode.data))

/-- What opening an object comes to, for these outcomes of the `malloc`
calls: of the node, of its name. -/
inductive OpenDone (objects : BinTree MemStoreObjectNode) (oid : CString) (s : Allocs) :
    Except Fault ((Int × BinTree MemStoreObjectNode × Option (Loc MemStoreObjectNode))
      × Allocs) → Prop
  | found (onode : Loc MemStoreObjectNode) (hroot : onode.root = objects)
      (hoid : onode.data.oid = oid)
      (hget : mapGet MemStoreObjectNode.oid objects oid = some onode.data) :
      OpenDone objects oid s (.ok ((CCEPH_OK, objects, some onode), s))
  | refused (s') (hs : s' ∈ [s.tail, s.tail.tail])
      (hget : mapGet MemStoreObjectNode.oid objects oid = none)
      (hno : s.head = true → s.tail.head = true → copyOutcome oid = .refused) :
      OpenDone objects oid s (.ok ((CCEPH_ERR_NO_ENOUGH_MEM, objects, none), s'))
  | created (objects') (onode : Loc MemStoreObjectNode)
      (hget : mapGet MemStoreObjectNode.oid objects oid = none)
      (hcopy : copyOutcome oid = .copied) (hnode : s.head = true) (hname : s.tail.head = true)
      (hroot : onode.root = objects') (hdata : onode.data = ⟨oid, none, 0, .nil⟩)
      (hok : MapOk strcmp MemStoreObjectNode.oid objects')
      (hget' : ∀ k, mapGet MemStoreObjectNode.oid objects' k
        = if k = oid then some ⟨oid, none, 0, .nil⟩
          else mapGet MemStoreObjectNode.oid objects k) :
      OpenDone objects oid s (.ok ((CCEPH_OK, objects', some onode), s.tail.tail))
  | overrun (hget : mapGet MemStoreObjectNode.oid objects oid = none)
      (hcopy : copyOutcome oid = .overrun) (hnode : s.head = true) (hname : s.tail.head = true) :
      OpenDone objects oid s (.error .outOfBounds)

theorem memStoreObjectOpen_done {objects : BinTree MemStoreObjectNode}
    (h : MapOk strcmp MemStoreObjectNode.oid objects) (oid : CString) (s : Allocs) :
    OpenDone objects oid s (memStoreObjectOpen objects oid s) := by
  unfold memStoreObjectOpen
  cases hk : mapGet MemStoreObjectNode.oid objects oid with
  | some onode =>
      obtain ⟨place, hs, hroot, hdata, hkey⟩ := implMapSearch_found linearCmp_strcmp h hk
      rw [show memStoreObjectNodeMapSearch objects oid = _ from hs]
      exact .found place hroot (hdata ▸ hkey) (hdata ▸ hk)
  | none =>
      rw [show memStoreObjectNodeMapSearch objects oid = _ from
        implMapSearch_absent linearCmp_strcmp h hk]
      simp only [if_true]
      unfold memStoreObjectNodeNew
      rw [bind_run, bind_ok (malloc_run (show sizeofMemStoreObjectNode < 2 ^ 63 by decide) s)]
      cases hnode : s.head with
      | false =>
          refine .refused _ List.mem_cons_self hk fun htrue => ?_
          rw [hnode] at htrue
          cases htrue
      | true =>
          simp only [Bool.not_true, Bool.false_eq_true, if_false]
          rw [bind_run, copyString_run]
          cases hname : s.tail.head with
          | false =>
              refine .refused _ (by simp) hk fun _ htrue => ?_
              rw [hname] at htrue
              cases htrue
          | true =>
              rw [if_pos rfl]
              cases hc : copyOutcome oid with
              | overrun => exact .overrun hk hc hnode hname
              | refused => exact .refused _ (by simp) hk fun _ _ => hc
              | copied =>
                  obtain ⟨objects', hins, hok, hget⟩ := implMapInsert_fresh
                    linearCmp_strcmp h (a := ⟨oid, none, 0, .nil⟩) hk
                  have hins' : memStoreObjectNodeMapInsert objects ⟨oid, none, 0, .nil⟩
                    = .ok (CCEPH_OK, objects') := hins
                  have hself : mapGet MemStoreObjectNode.oid objects' oid
                      = some ⟨oid, none, 0, .nil⟩ := by
                    rw [hget, if_pos rfl]
                  obtain ⟨place, hs, hroot, hdata, -⟩ :=
                    implMapSearch_found linearCmp_strcmp hok hself
                  simp only [pure_run, ne_eq, not_true_eq_false, if_false, deref_some,
                    pure_bind, hins']
                  rw [bind_ok (lift_ok ..)]
                  simp only [not_true_eq_false, if_false]
                  rw [show memStoreObjectNodeMapSearch objects' oid = _ from hs]
                  exact .created objects' place hk hc hnode hname hroot hdata hok hget

theorem memStoreObjectOpen_spec {objects : BinTree MemStoreObjectNode}
    (h : ObjectsOk objects) (oid : CString) :
    OpenOk objects oid (memStoreObjectOpen objects oid .plenty) := by
  have habsent : mapGet MemStoreObjectNode.oid objects oid = none →
      objectsView objects oid = none := by
    intro hget
    unfold objectsView
    rw [hget]
    rfl
  have hdone := memStoreObjectOpen_done h.inOrder oid .plenty
  generalize memStoreObjectOpen objects oid .plenty = x at hdone
  cases hdone with
  | found onode hroot hoid hget =>
      have hview : objectsView objects oid = some (objectView onode.data) := by
        unfold objectsView
        rw [hget]
        rfl
      refine ⟨rfl, rfl, h, hroot, hoid, ?_, ?_⟩
      · rw [hview]
        rfl
      · rw [← hview, Function.update_eq_self]
  | refused s' hs hget hno =>
      refine ⟨by simpa using hs, by decide, rfl, ?_, habsent hget⟩
      rw [habsent hget]
      simp only [objectOpen, hno rfl rfl]
  | overrun hget hcopy hnode hname =>
      show objectOpen oid _ = _
      rw [habsent hget]
      simp only [objectOpen, hcopy]
  | created objects' onode hget hcopy hnode hname hroot hdata hok hget' =>
      refine ⟨rfl, rfl, ⟨hok, ?_⟩, hroot, by rw [hdata], ?_, ?_⟩
      · refine mapGet_all hget' h.nodes ?_
        intro a ha
        cases ha
        exact objectOk_new oid
      · rw [habsent hget, hdata]
        simp only [objectOpen, hcopy]
        rfl
      · rw [hdata]
        exact mapGet_view hget' fun x => x.map objectView

end CephInC
