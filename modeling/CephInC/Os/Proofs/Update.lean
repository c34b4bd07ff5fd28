/-
Does `cceph_os_map_update` tell of a lost update?

It returns `CCEPH_OK` whatever happened (`osMapUpdate_ret`), so it does
exactly if no update is lost. The loop ends at the first node whose copy
cannot be made, with the old value of that key gone already; no node
further on has the key, so what `updatedNode` wants under it is not there
(`osMapUpdateLoop_told`).
-/
import CephInC.Os.Namespace
import CephInC.Os.Proofs.Keyed

namespace CephInC

open Lib

section
variable {node : OsMapNode}

theorem stored_none (h : ¬node.valueLength > 0) : node.stored = none := if_neg h

theorem stored_some (h : node.valueLength > 0) {bytes : List UInt8}
    (hv : node.value = some bytes) :
    node.stored = some ⟨node.key, some (bytes.take node.valueLength.toInt.toNat),
      node.valueLength⟩ := by
  unfold OsMapNode.stored
  rw [if_pos h, hv]
  rfl

end

-- ============================================================== the nodes

/-- What is under a key after the nodes went in, one after the other. -/
def updatedFrom : List OsMapNode → (CString → Option OsMapNode) → CString → Option OsMapNode
  | [], old => old
  | node :: rest, old => updatedFrom rest (Function.update old node.key node.stored)

/-- Keys that are not in the input keep their nodes. -/
theorem updatedFrom_other {input : List OsMapNode} : ∀ (old : CString → Option OsMapNode)
    {key : CString}, (∀ node ∈ input, node.key ≠ key) → updatedFrom input old key = old key := by
  induction input with
  | nil => exact fun _ _ _ => rfl
  | cons node rest ih =>
      intro old key h
      unfold updatedFrom
      rw [ih _ fun n hn => h n (List.mem_cons_of_mem _ hn)]
      exact Function.update_of_ne (h node List.mem_cons_self).symm _ _

/-- The keys being distinct, each node has the last word on its own. -/
theorem updatedFrom_eq {input : List OsMapNode} : ∀ old : CString → Option OsMapNode,
    InOrder strcmp OsMapNode.key input → ∀ key,
    updatedFrom input old key = match lookup OsMapNode.key key input with
      | some node => node.stored
      | none => old key := by
  induction input with
  | nil => exact fun _ _ _ => rfl
  | cons node rest ih =>
      intro old hord key
      have habsent : lookup OsMapNode.key node.key rest = none :=
        InOrder.lookup_rest (l := []) linearCmp_strcmp hord
      unfold updatedFrom
      rw [lookup_cons, ih _ (List.pairwise_cons.mp hord).2]
      by_cases hkey : node.key = key
      · subst hkey
        rw [if_pos rfl, habsent]
        exact Function.update_self _ _ _
      · rw [if_neg hkey, Function.update_of_ne (Ne.symm hkey)]

theorem updatedNode_eq {resultTree inputTree : BinTree OsMapNode}
    (h : AttrsKeyed inputTree) (key : CString) :
    updatedNode resultTree inputTree key
      = updatedFrom inputTree.toList (mapGet OsMapNode.key resultTree) key := by
  rw [updatedFrom_eq _ h.inOrder]
  rfl

theorem Put.update {t t' : BinTree OsMapNode} {key : CString} {new : Option OsMapNode}
    (h : Put t t' key new) :
    mapGet OsMapNode.key t' = Function.update (mapGet OsMapNode.key t) key new :=
  mapGet_view h.get id

section
variable {node : OsMapNode} {rest : List OsMapNode} {s : Allocs}

theorem refuses_drop (hpos : ¬node.valueLength > 0) :
    Refuses (node :: rest) s ↔ Refuses rest s := by
  rw [Refuses, if_neg hpos]

theorem refuses_copy (hpos : node.valueLength > 0) :
    Refuses (node :: rest) s ↔ match nodeCopy node.key s with
      | .overrun => False
      | .refused => True
      | .copied => Refuses rest s.tail.tail.tail :=
  iff_of_eq (if_pos hpos)

end

-- =============================================================== the loop

/-- The tree of a returning loop is as wanted exactly if no allocation was
refused. -/
def LoopTold (t : BinTree OsMapNode) (input : List OsMapNode) (s : Allocs) :
    Except Fault ((Int × BinTree OsMapNode) × Allocs) → Prop
  | .error _ => ¬Refuses input s
  | .ok ((_, t'), _) =>
      (∀ key, mapGet OsMapNode.key t' key = updatedFrom input (mapGet OsMapNode.key t) key)
        ↔ ¬Refuses input s

/-- A turn that did its part. -/
theorem LoopTold.cons {t t' : BinTree OsMapNode} {node : OsMapNode} {rest : List OsMapNode}
    {s s' : Allocs} {x : Except Fault ((Int × BinTree OsMapNode) × Allocs)}
    (hput : Put t t' node.key node.stored)
    (hrefuses : Refuses (node :: rest) s ↔ Refuses rest s') (h : LoopTold t' rest s' x) :
    LoopTold t (node :: rest) s x := by
  cases x with
  | error e => exact mt hrefuses.mp h
  | ok r =>
      unfold LoopTold at h ⊢
      rw [hrefuses, updatedFrom, ← hput.update]
      exact h

theorem osMapUpdateLoop_told {input : List OsMapNode} : ∀ {t : BinTree OsMapNode} (ret : Int)
    (s : Allocs), AttrsKeyed t → InOrder strcmp OsMapNode.key input →
    (∀ node ∈ input, node.valueLength > 0 →
      ∃ bytes, node.value = some bytes ∧ node.valueLength.toInt ≤ bytes.length) →
    LoopTold t input s (osMapUpdateLoop t ret input s) := by
  induction input with
  | nil => exact fun _ _ _ _ _ => ⟨fun _ => not_false, fun _ _ => rfl⟩
  | cons node rest ih =>
      intro t ret s ht hord hbuilt
      have hrest := (List.pairwise_cons.mp hord).2
      have hbuilt' := fun n hn => hbuilt n (List.mem_cons_of_mem _ hn)
      have hturn := osMapUpdateBody_turn ht node s
      unfold osMapUpdateLoop
      rw [bind_run]
      generalize osMapUpdateBody t node s = x at hturn
      cases hturn with
      | drop ret' t' hpos hput =>
          rw [← stored_none hpos] at hput
          exact .cons hput (refuses_drop hpos) (ih ret' s hput.inOrder hrest hbuilt')
      | store bytes t' hpos hv hcopy hlen hput =>
          rw [← stored_some hpos hv] at hput
          refine .cons hput ?_ (ih CCEPH_OK s.tail.tail.tail hput.inOrder hrest hbuilt')
          rw [refuses_copy hpos, hcopy]
      | lose bytes t' s' hpos hv hcopy hs hput =>
          have hrefuses : Refuses (node :: rest) s := by
            rw [refuses_copy hpos, hcopy]
            trivial
          refine ⟨fun hall => ?_, fun hnot => absurd hrefuses hnot⟩
          -- the node is wanted under its key, where there is none
          have hkey := hall node.key
          have habsent : lookup OsMapNode.key node.key rest = none :=
            InOrder.lookup_rest (l := []) linearCmp_strcmp hord
          rw [hput.get, if_pos rfl, updatedFrom, updatedFrom_other _ (lookup_eq_none.mp habsent),
            Function.update_self, stored_some hpos hv] at hkey
          cases hkey
      | overrun bytes hpos hv hcopy =>
          show ¬Refuses (node :: rest) s
          rw [refuses_copy hpos, hcopy]
          exact not_false
      | short bytes hpos hv hcopy hlen =>
          obtain ⟨bytes', hv', hlen'⟩ := hbuilt node List.mem_cons_self hpos
          rw [hv] at hv'
          cases hv'
          exact absurd hlen' hlen
      | noValue hpos hv =>
          obtain ⟨bytes', hv', -⟩ := hbuilt node List.mem_cons_self hpos
          rw [hv] at hv'
          cases hv'

-- ======================================================= the main result

/-- An update tells of what it lost exactly if no allocation is refused,
and there is nothing to tell. -/
theorem osMapUpdate_tells {resultTree inputTree : BinTree OsMapNode}
    (hresult : AttrsKeyed resultTree) (hinput : AttrsKeyed inputTree)
    (hbuilt : NodesBuilt inputTree) (s : Allocs) :
    TellsLoss resultTree inputTree s ↔ ¬Refuses inputTree.toList s := by
  have hloop := osMapUpdateLoop_told CCEPH_OK s hresult hinput.inOrder hbuilt
  have hupdate : osMapUpdate resultTree inputTree s
      = match osMapUpdateLoop resultTree CCEPH_OK inputTree.toList s with
        | .ok ((_, tree), s') => .ok ((CCEPH_OK, tree), s')
        | .error e => .error e := by
    unfold osMapUpdate
    rw [bind_run, rbWalk_eq]
    cases osMapUpdateLoop resultTree CCEPH_OK inputTree.toList s <;> rfl
  unfold TellsLoss
  rw [hupdate]
  cases hrun : osMapUpdateLoop resultTree CCEPH_OK inputTree.toList s with
  | error e =>
      rw [hrun] at hloop
      exact ⟨fun _ => hloop, fun _ => nofun⟩
  | ok r =>
      obtain ⟨⟨ret, tree⟩, s'⟩ := r
      rw [hrun] at hloop
      refine Iff.trans ?_ hloop
      constructor
      · intro htells key
        rw [← updatedNode_eq hinput]
        exact htells CCEPH_OK tree s' rfl rfl key
      · intro hall ret' tree' s'' heq _ key
        cases heq
        rw [updatedNode_eq hinput]
        exact hall key

/-- One attribute `a`, of one byte. -/
def oneAttr (byte : UInt8) : BinTree OsMapNode :=
  .node .black .nil ⟨⟨[97], noNul_a⟩, some [byte], 1⟩ .nil

theorem oneAttr_keyed (byte : UInt8) : AttrsKeyed (oneAttr byte) where
  redBlack := ⟨_, .black .nil .nil⟩
  inOrder := List.pairwise_singleton _ _

theorem osMapUpdate_tells_plenty : TellsLoss (oneAttr 1) (oneAttr 2) .plenty := by
  refine (osMapUpdate_tells (oneAttr_keyed 1) (oneAttr_keyed 2) ?_ .plenty).mpr not_false
  intro node hnode _
  rw [show (oneAttr 2).toList = [_] from rfl, List.mem_singleton] at hnode
  subst hnode
  exact ⟨[2], rfl, Int.le_refl 1⟩

/-- No memory for the new value of `a`: the old one is gone, and the code is
`CCEPH_OK`. -/
theorem osMapUpdate_hides_loss :
    (∃ s, osMapUpdate (oneAttr 1) (oneAttr 2) ⟨fun _ => false⟩ = .ok ((CCEPH_OK, .nil), s))
      ∧ ¬TellsLoss (oneAttr 1) (oneAttr 2) ⟨fun _ => false⟩ := by
  have hrun : ∃ s, osMapUpdate (oneAttr 1) (oneAttr 2) ⟨fun _ => false⟩
      = .ok ((CCEPH_OK, .nil), s) := by
    unfold osMapUpdate
    rw [rbWalk_eq]
    exact ⟨_, rfl⟩
  refine ⟨hrun, fun h => ?_⟩
  obtain ⟨s, hrun⟩ := hrun
  have hkey := h CCEPH_OK .nil s hrun rfl ⟨[97], noNul_a⟩
  cases hkey

end CephInC
