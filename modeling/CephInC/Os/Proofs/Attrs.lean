/-
`cceph_os_map_update` against its view: the tree it leaves has the
values `attrsUpdate` says, and keeps the invariant of stored attributes.

`AttrsOk` is that invariant: a red-black tree in key order, and no node
in it is empty. It is what makes the readers of whole maps and of single
keys agree later on.
-/
import CephInC.Os.Proofs.Turn

namespace CephInC

open Lib

/-- A stored attribute node: a value of its length, not empty, under a
key that can be copied again. -/
structure NodeOk (node : OsMapNode) : Prop where
  value : ∃ bytes, node.value = some bytes
    ∧ (bytes.length : Int) = node.valueLength.toInt
  positive : 0 < node.valueLength.toInt
  copies : copyOutcome node.key = .copied

/-- A stored attribute tree. -/
structure AttrsOk (map : BinTree OsMapNode) : Prop where
  inOrder : MapOk strcmp OsMapNode.key map
  nodes : ∀ key node, mapGet OsMapNode.key map key = some node → NodeOk node

theorem attrsOk_nil : AttrsOk .nil where
  inOrder := mapOk_nil
  nodes := by
    intro key node h
    rw [mapGet_nil] at h
    cases h

@[simp] theorem attrsView_nil : attrsView .nil = fun _ => none := rfl

-- ====================================================== memory to spare

/-- `copyString` while memory lasts. -/
theorem copyString_plenty (s : CString) :
    copyString s .plenty = match copyOutcome s with
      | .copied => .ok (some s, .plenty)
      | .refused => .ok (none, .plenty)
      | .overrun => .error .outOfBounds :=
  copyString_run s .plenty

theorem nodeCopy_plenty (key : CString) : nodeCopy key .plenty = copyOutcome key := by
  unfold nodeCopy
  cases copyOutcome key <;> rfl

-- =============================================================== one turn

/-- What one turn of the update loop did, seen through the view: `x` is
its outcome from the tree `t` at the node `node`. -/
def TurnOk (t : BinTree OsMapNode) (node : OsMapNode) :
    Except Fault ((UpdateStep × Int × BinTree OsMapNode) × Allocs) → Prop
  | .error e => ∀ rest, attrsUpdate (node :: rest) (attrsView t) = .error e
  | .ok ((.labelRet, _, t'), s) => s = .plenty ∧ AttrsOk t'
      ∧ ∀ rest, attrsUpdate (node :: rest) (attrsView t) = .ok (attrsView t')
  | .ok ((.next, _, t'), s) => s = .plenty ∧ AttrsOk t'
      ∧ ∀ rest, attrsUpdate (node :: rest) (attrsView t)
          = attrsUpdate rest (attrsView t')

section
variable {t t' : BinTree OsMapNode} {key : CString} {new : Option OsMapNode}

theorem Put.view (h : Put t t' key new) :
    attrsView t' = Function.update (attrsView t) key (new.bind OsMapNode.value) :=
  mapGet_view h.get fun x => x.bind OsMapNode.value

theorem Put.attrsOk (h : Put t t' key new) (hok : AttrsOk t)
    (hnew : ∀ node, new = some node → NodeOk node) : AttrsOk t' where
  inOrder := h.inOrder
  nodes := mapGet_all h.get hok.nodes hnew

end

/-- One turn of the loop. -/
theorem osMapUpdateBody_spec {t : BinTree OsMapNode} (h : AttrsOk t)
    (node : OsMapNode) : TurnOk t node (osMapUpdateBody t node .plenty) := by
  have hle : ∀ _ : node.valueLength > 0, ¬node.valueLength ≤ 0 :=
    fun hpos => Int32.not_le.mpr hpos
  have hturn := osMapUpdateBody_turn h.inOrder node .plenty
  generalize osMapUpdateBody t node .plenty = x at hturn
  cases hturn with
  | drop ret t' hpos hput =>
      refine ⟨rfl, hput.attrsOk h nofun, fun rest => ?_⟩
      simp only [attrsUpdate, if_pos (Int32.not_lt.mp hpos), hput.view]
      rfl
  | store bytes t' hpos hv hcopy hlen hput =>
      rw [nodeCopy_plenty] at hcopy
      refine ⟨rfl, hput.attrsOk h ?_, fun rest => ?_⟩
      · intro node' hnode'
        cases hnode'
        have h0 : 0 < node.valueLength.toInt := Int32.lt_iff_toInt_lt.mp hpos
        refine ⟨⟨_, rfl, ?_⟩, h0, hcopy⟩
        show ((bytes.take node.valueLength.toInt.toNat).length : Int)
          = node.valueLength.toInt
        rw [List.length_take]
        omega
      · simp only [attrsUpdate, if_neg (hle hpos), hv, hcopy, if_pos hlen, hput.view]
        rfl
  | lose bytes t' s' hpos hv hcopy hs hput =>
      rw [nodeCopy_plenty] at hcopy
      refine ⟨by simpa using hs, hput.attrsOk h nofun, fun rest => ?_⟩
      simp only [attrsUpdate, if_neg (hle hpos), hv, hcopy, hput.view]
      rfl
  | overrun bytes hpos hv hcopy =>
      rw [nodeCopy_plenty] at hcopy
      intro rest
      simp only [attrsUpdate, if_neg (hle hpos), hv, hcopy]
  | short bytes hpos hv hcopy hlen =>
      rw [nodeCopy_plenty] at hcopy
      intro rest
      simp only [attrsUpdate, if_neg (hle hpos), hv, hcopy, if_neg hlen]
  | noValue hpos hv =>
      intro rest
      simp only [attrsUpdate, if_neg (hle hpos), hv]

-- ============================================================= the loop

/-- The outcome of an update of `t` by the nodes `input`, seen through
the view. -/
def UpdateOk (t : BinTree OsMapNode) (input : List OsMapNode) :
    Except Fault ((Int × BinTree OsMapNode) × Allocs) → Prop
  | .error e => attrsUpdate input (attrsView t) = .error e
  | .ok ((_, t'), s) => s = .plenty ∧ AttrsOk t'
      ∧ attrsUpdate input (attrsView t) = .ok (attrsView t')

theorem osMapUpdateLoop_spec :
    ∀ {t : BinTree OsMapNode} (input : List OsMapNode) (ret : Int), AttrsOk t →
      UpdateOk t input (osMapUpdateLoop t ret input .plenty)
  | t, [], ret, h => ⟨rfl, h, rfl⟩
  | t, node :: rest, ret, h => by
      have hturn := osMapUpdateBody_spec h node
      unfold osMapUpdateLoop
      rw [bind_run]
      cases hb : osMapUpdateBody t node .plenty with
      | error e =>
          rw [hb] at hturn
          exact hturn rest
      | ok r =>
          obtain ⟨⟨step, ret', t'⟩, s⟩ := r
          rw [hb] at hturn
          cases step with
          | labelRet =>
              obtain ⟨rfl, hok, hview⟩ := hturn
              exact ⟨rfl, hok, hview rest⟩
          | next =>
              obtain ⟨rfl, hok, hview⟩ := hturn
              have ih := osMapUpdateLoop_spec rest ret' hok
              unfold UpdateOk at ih ⊢
              rw [hview rest]
              exact ih

/-- `cceph_os_map_update` returns `CCEPH_OK`, whatever its loop met. -/
theorem osMapUpdate_ret {t t' input : BinTree OsMapNode} {ret : Int}
    {s s' : Allocs} (h : osMapUpdate t input s = .ok ((ret, t'), s')) :
    ret = CCEPH_OK := by
  unfold osMapUpdate at h
  obtain ⟨⟨ret', t''⟩, s'', -, h⟩ := bind_eq_ok h
  cases h
  rfl

theorem osMapUpdate_spec {t : BinTree OsMapNode} (h : AttrsOk t)
    (input : BinTree OsMapNode) :
    UpdateOk t input.toList (osMapUpdate t input .plenty) := by
  have hloop := osMapUpdateLoop_spec input.toList CCEPH_OK h
  unfold osMapUpdate
  rw [bind_run, rbWalk_eq]
  cases hl : osMapUpdateLoop t CCEPH_OK input.toList .plenty with
  | error e =>
      rw [hl] at hloop
      exact hloop
  | ok r =>
      rw [hl] at hloop
      exact hloop

/-- An update sees of its input tree what a walk visits. -/
theorem osMapUpdate_congr {t input input' : BinTree OsMapNode}
    (h : input.toList = input'.toList) :
    osMapUpdate t input = osMapUpdate t input' := by
  unfold osMapUpdate
  rw [rbWalk_eq, rbWalk_eq, h]

end CephInC
