/-
Which transactions fail an assertion of an executor.

With the slots zeroed at first, a builder's op passes every assertion
but the one on its collection id (`viewOp_noAssert`), and that one exactly
if the id is not negative (`viewOp_negative`). So a transaction fails an
assertion if it comes to an op for a negative id (`seq_fails_iff`); the
store's own invariant keeps the others.
-/
import CephInC.Os.Accepted
import CephInC.Os.Proofs.Calls
import CephInC.Os.Proofs.Run

namespace CephInC

open Lib

-- ============================================================== one op

/-- No assertion fails in the step. -/
def NoAssert {S : Type} (f : Step Fault S) : Prop := ∀ s, f s ≠ .error .assertFail

section
variable {S V : Type}

theorem noAssert_over {l : Lens S V} {f : Step Fault V} (h : NoAssert f) :
    NoAssert (.over l f) := by
  intro s hs
  simp only [Step.over] at hs
  cases hf : f (l.get s) with
  | error e =>
      rw [hf] at hs
      cases hs
      exact h _ hf
  | ok r =>
      rw [hf] at hs
      cases hs

theorem noAssert_onSome {c : Int} {f : Step Fault V} (h : NoAssert f) :
    NoAssert (.onSome c f) := by
  intro o ho
  cases o with
  | none => cases ho
  | some v =>
      simp only [Step.onSome] at ho
      cases hf : f v with
      | error e =>
          rw [hf] at ho
          cases ho
          exact h _ hf
      | ok r =>
          rw [hf] at ho
          cases ho

end

theorem attrsUpdate_noAssert {nodes : List OsMapNode} : ∀ attrs : AttrsView,
    (∀ node ∈ nodes, node.valueLength > 0 → node.value ≠ none) →
    attrsUpdate nodes attrs ≠ .error .assertFail := by
  induction nodes with
  | nil =>
      intro attrs _ herror
      cases herror
  | cons node rest ih =>
      intro attrs h
      have hrest : ∀ node ∈ rest, node.valueLength > 0 → node.value ≠ none :=
        fun n hn => h n (List.mem_cons_of_mem _ hn)
      unfold attrsUpdate
      split
      · exact ih _ hrest
      · rename_i hlength
        split
        · rename_i hnone
          exact absurd hnone (h node List.mem_cons_self (Int32.not_le.mp hlength))
        · split
          · intro h
            cases h
          · intro h
            cases h
          · split
            · exact ih _ hrest
            · intro h
              cases h

theorem attrsStep_noAssert {map : BinTree OsMapNode} (h : NodesBuilt map) :
    NoAssert (attrsStep map.toList) := by
  intro attrs hfails
  unfold attrsStep at hfails
  cases hupdate : attrsUpdate map.toList attrs with
  | error e =>
      rw [hupdate] at hfails
      cases hfails
      refine attrsUpdate_noAssert attrs (fun node hnode hlength => ?_) hupdate
      obtain ⟨bytes, hvalue, -⟩ := h node hnode hlength
      rw [hvalue]
      exact Option.some_ne_none bytes
  | ok attrs' =>
      rw [hupdate] at hfails
      cases hfails

theorem objectOpen_noAssert (oid : CString) : NoAssert (objectOpen oid) := by
  intro o ho
  cases o with
  | some v => cases ho
  | none =>
      simp only [objectOpen] at ho
      split at ho <;> cases ho

theorem objectWrite_noAssert (oid : CString) (offset length : Int64) (data : List UInt8) :
    NoAssert (objectWrite oid offset length data) := by
  intro o ho
  unfold objectWrite at ho
  cases hopen : objectOpen oid o with
  | error e =>
      rw [hopen] at ho
      cases ho
      exact objectOpen_noAssert oid o hopen
  | ok r =>
      obtain ⟨c, o'⟩ := r
      rw [hopen] at ho
      cases o' with
      | none => cases ho
      | some v =>
          simp only [contentWrite] at ho
          split at ho
          · cases ho
            rename_i hwrite
            split at hwrite
            · cases hwrite
            · split at hwrite <;> cases hwrite
          · cases ho

/-- The assertion on the id is the first. -/
theorem viewOp_negative {call : TranCall} (h : call.cid < 0) (v : StoreView) :
    viewOp call.op v = .error .assertFail := by
  have hnot : ¬call.cid ≥ 0 := Int32.not_le.mpr h
  cases call <;> exact congrFun (if_neg hnot) v

theorem viewOp_noAssert {call : TranCall} (haccepted : call.accepted = true)
    (hmap : call.MapBuilt) (h : ¬call.cid < 0) : NoAssert (viewOp call.op) := by
  have hcid : call.cid ≥ 0 := Int32.not_lt.mp h
  have hzero : (0 : Int64) ≥ 0 := Int64.le_refl 0
  cases call with
  | collCreate cid logId =>
      have hstep : viewOp (TranCall.collCreate cid logId).op = .over (.at cid) collCreate :=
        if_pos hcid
      rw [hstep]
      refine noAssert_over fun o ho => ?_
      cases o <;> cases ho
  | collRemove cid logId =>
      have hstep : viewOp (TranCall.collRemove cid logId).op = .over (.at cid) collRemove :=
        if_pos hcid
      rw [hstep]
      refine noAssert_over fun o ho => ?_
      cases o <;> cases ho
  | collMap cid map logId =>
      obtain ⟨nodes, rfl⟩ := Option.isSome_iff_exists.mp haccepted
      have hstep : viewOp (TranCall.collMap cid (some nodes) logId).op
          = .over (.at cid) (collMap nodes.toList) :=
        (if_pos hcid).trans (if_pos rfl)
      rw [hstep]
      exact noAssert_over (noAssert_onSome (noAssert_over (attrsStep_noAssert (hmap nodes rfl))))
  | objTouch cid oid logId =>
      have hstep : viewOp (TranCall.objTouch cid oid logId).op
          = .over (.at cid) (inColl CCEPH_ERR_COLL_NOT_EXIST _ (objectWrite _ 0 0 [])) :=
        (if_pos hcid).trans ((if_pos rfl).trans ((if_pos hzero).trans ((if_pos hzero).trans
          (if_pos fun hlt => absurd hlt Int64.lt_irrefl))))
      rw [hstep]
      exact noAssert_over (noAssert_onSome (noAssert_over (objectWrite_noAssert _ _ _ _)))
  | objWrite cid oid offset length data logId =>
      obtain ⟨-, hoffset, hlength, hdata⟩ := of_decide_eq_true haccepted
      have hstep : viewOp (TranCall.objWrite cid oid offset length data logId).op
          = .over (.at cid) (inColl CCEPH_ERR_COLL_NOT_EXIST _
              (objectWrite _ offset length (data.getD []))) :=
        (if_pos hcid).trans ((if_pos rfl).trans ((if_pos hoffset).trans ((if_pos hlength).trans
          (if_pos hdata))))
      rw [hstep]
      exact noAssert_over (noAssert_onSome (noAssert_over (objectWrite_noAssert _ _ _ _)))
  | objMap cid oid map logId =>
      obtain ⟨-, hsome⟩ := of_decide_eq_true haccepted
      obtain ⟨nodes, rfl⟩ := Option.isSome_iff_exists.mp hsome
      have hstep : viewOp (TranCall.objMap cid oid (some nodes) logId).op
          = .over (.at cid) (inColl CCEPH_ERR_MAP_NODE_NOT_EXIST _ (objectMap nodes.toList)) :=
        (if_pos hcid).trans ((if_pos rfl).trans (if_pos rfl))
      rw [hstep]
      exact noAssert_over (noAssert_onSome (noAssert_over (noAssert_onSome (noAssert_over
        (attrsStep_noAssert (hmap nodes rfl))))))
  | objRemove cid oid logId =>
      have hstep : viewOp (TranCall.objRemove cid oid logId).op
          = .over (.at cid) (inColl CCEPH_ERR_COLL_NOT_EXIST _ objectRemove) :=
        (if_pos hcid).trans (if_pos rfl)
      rw [hstep]
      refine noAssert_over (noAssert_onSome (noAssert_over fun o ho => ?_))
      cases o <;> cases ho

-- ========================================================== op after op

theorem seq_fails_iff {calls : List TranCall} : ∀ {v : StoreView},
    (∀ call ∈ calls, call.accepted = true) → (∀ call ∈ calls, call.MapBuilt) →
    (Step.seq (calls.map fun call => viewOp call.op) v = .error .assertFail
      ↔ RunsNegative calls v) := by
  induction calls with
  | nil =>
      intro v _ _
      constructor
      · intro h
        cases h
      · exact False.elim
  | cons call calls ih =>
      intro v haccepted hmaps
      have ih : ∀ v', Step.seq (calls.map fun call => viewOp call.op) v' = .error .assertFail
          ↔ RunsNegative calls v' :=
        fun v' => ih (fun c hc => haccepted c (List.mem_cons_of_mem _ hc))
          fun c hc => hmaps c (List.mem_cons_of_mem _ hc)
      rw [List.map_cons]
      by_cases hcid : call.cid < 0
      · simp only [Step.seq, viewOp_negative hcid v]
        exact ⟨fun _ => .inl hcid, fun _ => trivial⟩
      · have hquiet := viewOp_noAssert (haccepted call List.mem_cons_self)
          (hmaps call List.mem_cons_self) hcid v
        simp only [RunsNegative, hcid, false_or]
        cases hrun : viewOp call.op v with
        | error e =>
            simp only [Step.seq, hrun]
            constructor
            · intro he
              cases he
              exact absurd hrun hquiet
            · intro hnext
              obtain ⟨v', hv', -⟩ := hnext
              cases hv'
        | ok r =>
            obtain ⟨c, v'⟩ := r
            simp only [Step.seq, hrun]
            by_cases hc : c = 0
            · rw [if_pos hc, ih v', hc]
              constructor
              · exact fun hnext => ⟨v', rfl, hnext⟩
              · intro hnext
                obtain ⟨v'', hv'', hnext⟩ := hnext
                cases hv''
                exact hnext
            · rw [if_neg hc]
              constructor
              · intro h
                cases h
              · intro hnext
                obtain ⟨v'', hv'', -⟩ := hnext
                cases hv''
                exact absurd rfl hc

-- ============================================================ the block

/-- The ops are in the first slots of the block, and there are `left` slots
of zeros behind them. -/
structure TranFilled (tran : OsTran) (ops : List OsTranOp) (left : Nat) : Prop where
  buffer : tran.opBuffer = ops ++ List.replicate left (junkZero 0 0)
  index : tran.opBufferIndex.toInt = ops.length
  length : tran.opBufferLength.toInt = ops.length + left

section
variable {tran : OsTran} {ops : List OsTranOp} {left : Nat}

theorem TranFilled.inside (h : TranFilled tran ops left) :
    tran.opBufferIndex.toInt ≤ tran.opBuffer.length := by
  rw [h.buffer, h.index, List.length_append]
  omega

theorem TranFilled.ops_eq (h : TranFilled tran ops left) : tran.ops = ops := by
  have hindex : tran.opBufferIndex.toInt.toNat = ops.length := by
    rw [h.index]
    exact Int.toNat_natCast _
  unfold OsTran.ops
  rw [h.buffer, hindex, List.take_left]

end

/-- Builders on blocks of zeros leave zeros behind their ops. -/
theorem TranHolds.zeros {tran : OsTran} {ops : List OsTranOp} {blocks : Nat}
    (h : TranHolds (· = junkZero 0 0) tran ops blocks) : ∃ left, TranFilled tran ops left := by
  obtain ⟨free, hbuffer, hzero⟩ := h.filled
  have hsize := h.size
  rw [hbuffer, List.length_append] at hsize
  refine ⟨free.length, ?_, h.index, ?_⟩
  · rw [hbuffer, ← List.eq_replicate_of_mem hzero]
  · rw [h.length]
    omega

theorem ops_of_filledBy {calls : List TranCall} {ops : List OsTranOp}
    (h : List.Forall₂ (FilledBy (· = junkZero 0 0)) calls ops) :
    (∀ call ∈ calls, call.accepted = true) ∧ ops = calls.map TranCall.op := by
  induction h with
  | nil => exact ⟨fun call hcall => absurd hcall List.not_mem_nil, rfl⟩
  | cons hfilled _ ih =>
      obtain ⟨haccepted, slot, rfl, rfl⟩ := hfilled
      exact ⟨List.forall_mem_cons.mpr ⟨haccepted, ih.1⟩, congrArg _ ih.2⟩

theorem osTranBuild_filled {calls : List TranCall} {rets : List Int} {tran : OsTran} {s : Allocs}
    (hrun : osTranBuild junkZero calls .plenty = .ok ((rets, tran), s))
    (hrets : ∀ ret ∈ rets, ret = CCEPH_OK) :
    (∀ call ∈ calls, call.accepted = true)
      ∧ ∃ left, TranFilled tran (calls.map TranCall.op) left := by
  have hzero : ∀ n i, junkZero n i = junkZero 0 0 := fun _ _ => rfl
  obtain ⟨ops, blocks, hholds, hcalls⟩ :=
    osTranBuild_holds (P := fun slot => slot = junkZero 0 0) hzero hrun hrets
  obtain ⟨haccepted, rfl⟩ := ops_of_filledBy hcalls
  exact ⟨haccepted, hholds.zeros⟩

/-- A built transaction fails an assertion where its ops do on the view. -/
theorem memStoreSubmitTran_fails_iff {store : MemStore} (h : StoreOk store)
    {calls : List TranCall} {rets : List Int} {tran : OsTran} {s : Allocs}
    (hbuild : osTranBuild junkZero calls .plenty = .ok ((rets, tran), s))
    (hrets : ∀ ret ∈ rets, ret = CCEPH_OK) :
    memStoreSubmitTran store tran .plenty = .error .assertFail
      ↔ Step.seq (calls.map fun call => viewOp call.op) store.view = .error .assertFail := by
  obtain ⟨-, left, hfilled⟩ := osTranBuild_filled hbuild hrets
  have hrefines := memStoreSubmitTran_refines h tran
  rw [tranSteps_ops hfilled.inside, hfilled.ops_eq, List.map_map] at hrefines
  cases hx : memStoreSubmitTran store tran .plenty with
  | error e =>
      rw [hx] at hrefines
      unfold SubmitRefines at hrefines
      have hrun : Step.seq (calls.map fun call => viewOp call.op) store.view = .error e :=
        hrefines
      rw [hrun]
      constructor <;> exact fun he => congrArg _ (Except.error.inj he)
  | ok r =>
      obtain ⟨⟨ret, store'⟩, s'⟩ := r
      rw [hx] at hrefines
      obtain ⟨-, -, -, hrun⟩ := hrefines
      have hrun : Step.seq (calls.map fun call => viewOp call.op) store.view
          = .ok (ret, store'.view) := hrun
      rw [hrun]
      constructor <;> exact fun he => by cases he

-- ======================================================= the main result

/-- What the builders accepted fails an assertion of an executor exactly if
an op for a negative id comes to be executed. -/
theorem builders_accepted {store : MemStore} (h : Reachable store) {calls : List TranCall}
    (hmaps : ∀ call ∈ calls, call.MapBuilt) {rets : List Int} {tran : OsTran} {s : Allocs}
    (hbuild : osTranBuild junkZero calls .plenty = .ok ((rets, tran), s))
    (hrets : ∀ ret ∈ rets, ret = CCEPH_OK) :
    memStoreSubmitTran store tran .plenty ≠ .error .assertFail
      ↔ ¬RunsNegative calls store.view := by
  have haccepted := (osTranBuild_filled hbuild hrets).1
  exact not_congr ((memStoreSubmitTran_fails_iff h.ok hbuild hrets).trans
    (seq_fails_iff haccepted hmaps))

/-- Collection 1 is created, and the object `t` written in it. -/
def createWriteCalls : List TranCall :=
  [.collCreate 1 7, .objWrite 1 (some ⟨[116], noNul_t⟩) 2 1 (some [5]) 7]

theorem builders_accepted_write :
    ∃ rets tran s, osTranBuild junkZero createWriteCalls .plenty = .ok ((rets, tran), s)
      ∧ memStoreSubmitTran .fresh tran .plenty ≠ .error .assertFail := by
  have hmaps : ∀ call ∈ createWriteCalls, call.MapBuilt := by
    simp [createWriteCalls, TranCall.MapBuilt]
  refine ⟨_, _, _, rfl, (builders_accepted reachable_fresh hmaps rfl ?_).mpr ?_⟩
  · decide
  · simp [createWriteCalls, RunsNegative, TranCall.cid]

/-- Object `t` is touched in collection -1: the builder takes the call, and
the executor aborts. -/
theorem builders_accepted_touch_fails :
    ∃ rets tran s, osTranBuild junkZero [.objTouch (-1) (some ⟨[116], noNul_t⟩) 7] .plenty
        = .ok ((rets, tran), s)
      ∧ (∀ ret ∈ rets, ret = CCEPH_OK)
      ∧ memStoreSubmitTran .fresh tran .plenty = .error .assertFail :=
  ⟨_, _, _, rfl, by decide, rfl⟩

end CephInC
