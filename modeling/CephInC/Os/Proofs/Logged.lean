/-
Which level is missing, told by the code returned, LOG included.

A call that says a line with a name first takes that line (`say_line`).
So an op does what it does without LOG if its line fits, and ends the
process if not (`memStoreDoOpLogged_fits`, `…_over`); a read does so for the lines that
its searches lead to (`StoreCall.code_eq`). The codes tell the level where
all these fit, except where a search's own code is passed on.
-/
import CephInC.Os.Proofs.Existence

namespace CephInC

open Lib

/-- A line, and what comes behind it. -/
theorem say_line {σ α : Type} (l : LogLine) (rest : Prog σ α) :
    (lift (log l) >>= fun _ => rest) = if l.Fits then rest else fault .outOfBounds := by
  by_cases h : l.Fits
  · rw [log_fits h, if_pos h]
    rfl
  · rw [log_over h, if_neg h]
    rfl

/-- `x` does what `y` does if the lines fit, and ends the process if not. -/
structure Logged {σ α : Type} (fit : Prop) (x y : Prog σ α) : Prop where
  fits : fit → x = y
  dies : ¬fit → x = fault .outOfBounds

theorem Logged.none {σ α : Type} {fit : Prop} (h : fit) (x : Prog σ α) : Logged fit x x :=
  ⟨fun _ => rfl, fun hnot => absurd h hnot⟩

/-- One more line, in front. -/
theorem Logged.line {σ α : Type} {fit : Prop} {l : LogLine} {x y : Prog σ α}
    (h : Logged fit x y) : Logged (l.Fits ∧ fit) (lift (log l) >>= fun _ => x) y := by
  rw [say_line]
  constructor
  · rintro ⟨hline, hfit⟩
    rw [if_pos hline]
    exact h.fits hfit
  · intro hnot
    by_cases hline : l.Fits
    · rw [if_pos hline]
      exact h.dies fun hfit => hnot ⟨hline, hfit⟩
    · exact if_neg hline

-- ================================================================ the ops

section
variable (logId : Int64) (colls : BinTree MemStoreCollNode) (op : OsTranOp)

theorem memStoreDoOpObjWriteLogged_fits (h : (objWriteLine logId op).Fits) :
    memStoreDoOpObjWriteLogged log logId colls op = memStoreDoOpObjWrite colls op := by
  unfold memStoreDoOpObjWriteLogged memStoreDoOpObjWrite
  simp only [say_line, if_pos h]

/-- An op whose line fits does what it does without LOG. -/
theorem memStoreDoOpLogged_fits (h : ∀ l ∈ op.line logId, l.Fits) :
    memStoreDoOpLogged log logId colls (some op) = memStoreDoOp colls (some op) := by
  have hsome : (some op).isSome := rfl
  unfold memStoreDoOpLogged memStoreDoOp
  rw [assert_pos hsome, pure_bind, pure_bind, deref_some, pure_bind, pure_bind]
  cases hop : op.op with
  | objTouch =>
      have hline : (objWriteLine logId { op with length := 0 }).Fits := by
        apply h
        unfold OsTranOp.line
        rw [hop]
        rfl
      exact memStoreDoOpObjWriteLogged_fits logId colls _ hline
  | objWrite =>
      have hline : (objWriteLine logId op).Fits := by
        apply h
        unfold OsTranOp.line
        rw [hop]
        rfl
      exact memStoreDoOpObjWriteLogged_fits logId colls op hline
  | objRemove =>
      have hline : (objRemoveLine logId op).Fits := by
        apply h
        unfold OsTranOp.line
        rw [hop]
        rfl
      show memStoreDoOpObjRemoveLogged log logId colls op = memStoreDoOpObjRemove colls op
      unfold memStoreDoOpObjRemoveLogged memStoreDoOpObjRemove
      simp only [say_line, if_pos hline]
  | objMap =>
      have hline : (objMapLine logId op).Fits := by
        apply h
        unfold OsTranOp.line
        rw [hop]
        rfl
      show memStoreDoOpObjMapLogged log logId colls op = memStoreDoOpObjMap colls op
      unfold memStoreDoOpObjMapLogged memStoreDoOpObjMap
      simp only [say_line, if_pos hline]
  | _ => rfl

theorem memStoreDoOpObjWriteLogged_over (h : ¬(objWriteLine logId op).Fits) (hcid : op.cid ≥ 0)
    (hoid : op.oid.isSome) (hoff : op.offset ≥ 0) (hlen : op.length ≥ 0)
    (hdata : op.length > 0 → op.data.isSome) :
    memStoreDoOpObjWriteLogged log logId colls op = fault .outOfBounds := by
  unfold memStoreDoOpObjWriteLogged
  rw [assert_pos hcid, assert_pos hoid, assert_pos hoff, assert_pos hlen]
  simp only [pure_bind, say_line, if_neg h]
  by_cases hpos : op.length > 0
  · simp only [if_pos hpos, assert_pos (hdata hpos), pure_bind]
  · simp only [if_neg hpos]

/-- One that passes its assertions ends the process if its line does not
fit. -/
theorem memStoreDoOpLogged_over (ha : op.Asserted) (h : ¬∀ l ∈ op.line logId, l.Fits) :
    memStoreDoOpLogged log logId colls (some op) = fault .outOfBounds := by
  have hsome : (some op).isSome := rfl
  obtain ⟨hcid, ha⟩ := ha
  unfold memStoreDoOpLogged
  rw [assert_pos hsome, pure_bind, deref_some, pure_bind]
  unfold OsTranOp.line at h
  cases hop : op.op <;> rw [hop] at h ha
  case objTouch =>
    exact memStoreDoOpObjWriteLogged_over logId colls _ (by simpa using h) hcid ha.1 ha.2
      (Int64.le_refl 0) fun hpos => absurd hpos Int64.lt_irrefl
  case objWrite =>
    exact memStoreDoOpObjWriteLogged_over logId colls op (by simpa using h) hcid ha.1 ha.2.1
      ha.2.2.1 ha.2.2.2
  case objRemove =>
    have hline : ¬(objRemoveLine logId op).Fits := by simpa using h
    show memStoreDoOpObjRemoveLogged log logId colls op = _
    unfold memStoreDoOpObjRemoveLogged
    rw [assert_pos hcid, assert_pos ha, pure_bind, pure_bind, say_line, if_neg hline]
  case objMap =>
    have hline : ¬(objMapLine logId op).Fits := by simpa using h
    show memStoreDoOpObjMapLogged log logId colls op = _
    unfold memStoreDoOpObjMapLogged
    rw [assert_pos hcid, assert_pos ha.1, assert_pos ha.2, pure_bind, pure_bind, pure_bind,
      say_line, if_neg hline]
  all_goals exact absurd (fun l hl => by cases hl) h

/-- What is handed out is a filled slot. -/
theorem osTranGetOp_some {tran : OsTran} {i : Nat} {op : OsTranOp}
    (h : osTranGetOp tran i = .ok (some op)) :
    (i : Int) < tran.opBufferIndex.toInt ∧ tran.opBuffer[i]? = some op := by
  unfold osTranGetOp at h
  by_cases hpast : (i : Int) ≥ tran.opBufferIndex.toInt
  · rw [if_pos hpast] at h
    cases h
  · rw [if_neg hpast] at h
    refine ⟨by omega, ?_⟩
    cases hget : tran.opBuffer[i]? with
    | none =>
        rw [hget] at h
        cases h
    | some op' =>
        rw [hget] at h
        cases h
        rfl

/-- A transaction whose lines fit does what it does without LOG. -/
theorem memStoreSubmitTranLoopLogged_fits {logId : Int64} {tran : OsTran}
    (h : tran.LinesFit logId) : ∀ (left i : Nat) (store : MemStore),
    memStoreSubmitTranLoopLogged log logId tran left i store
      = memStoreSubmitTranLoop tran left i store
  | 0, _, _ => rfl
  | left + 1, i, store => by
      unfold memStoreSubmitTranLoopLogged memStoreSubmitTranLoop
      cases hget : osTranGetOp tran i with
      | error e =>
          have hend : (lift (.error e) : Prog Allocs (Option OsTranOp)) = fault e := rfl
          rw [hend, fault_bind, fault_bind]
      | ok slot =>
          have hsame : ∀ colls : BinTree MemStoreCollNode,
              memStoreDoOpLogged log logId colls slot = memStoreDoOp colls slot := by
            intro colls
            cases slot with
            | none =>
                have hnone : ¬(none : Option OsTranOp).isSome := Bool.false_ne_true
                unfold memStoreDoOpLogged memStoreDoOp
                rw [assert_neg hnone, fault_bind, fault_bind]
            | some op => exact memStoreDoOpLogged_fits logId colls op (h i op hget)
          have hend : (lift (.ok slot) : Prog Allocs (Option OsTranOp)) = pure slot := rfl
          rw [hend, pure_bind, pure_bind]
          simp only [hsame, memStoreSubmitTranLoopLogged_fits h left]

theorem memStoreSubmitTranLogged_fits {logId : Int64} {tran : OsTran} (h : tran.LinesFit logId)
    {store : MemStore} :
    memStoreSubmitTranLogged log logId store tran = memStoreSubmitTran store tran := by
  unfold memStoreSubmitTranLogged memStoreSubmitTran
  simp only [memStoreSubmitTranLoopLogged_fits h]

variable {logId colls op}

theorem say_line_ok {σ α : Type} {l : LogLine} {rest : Prog σ α} {s : σ} {r : α × σ}
    (h : (lift (log l) >>= fun _ => rest) s = .ok r) : l.Fits := by
  by_contra hnot
  rw [say_line, if_neg hnot] at h
  cases h

theorem memStoreDoOpObjWriteLogged_returns {s : Allocs}
    {r : (Int × BinTree MemStoreCollNode) × Allocs}
    (h : memStoreDoOpObjWriteLogged log logId colls op s = .ok r) :
    (objWriteLine logId op).Fits := by
  unfold memStoreDoOpObjWriteLogged at h
  obtain ⟨-, h⟩ := assert_bind_eq_ok h
  obtain ⟨-, h⟩ := assert_bind_eq_ok h
  obtain ⟨-, h⟩ := assert_bind_eq_ok h
  obtain ⟨-, h⟩ := assert_bind_eq_ok h
  by_cases hpos : op.length > 0
  · simp only [if_pos hpos] at h
    obtain ⟨-, h⟩ := assert_bind_eq_ok h
    exact say_line_ok h
  · simp only [if_neg hpos] at h
    exact say_line_ok h

/-- The line of an op that returns has fit, and the op has done what it does
without LOG. -/
theorem memStoreDoOpLogged_returns {s : Allocs} {r : (Int × BinTree MemStoreCollNode) × Allocs}
    (h : memStoreDoOpLogged log logId colls (some op) s = .ok r) :
    (∀ l ∈ op.line logId, l.Fits) ∧ memStoreDoOp colls (some op) s = .ok r := by
  have hfits : ∀ l ∈ op.line logId, l.Fits := by
    have hrun := h
    have hsome : (some op).isSome := rfl
    unfold memStoreDoOpLogged at hrun
    rw [assert_pos hsome, pure_bind, deref_some, pure_bind] at hrun
    unfold OsTranOp.line
    cases hop : op.op <;> rw [hop] at hrun
    case objTouch =>
      intro l hl
      cases hl
      exact memStoreDoOpObjWriteLogged_returns hrun
    case objWrite =>
      intro l hl
      cases hl
      exact memStoreDoOpObjWriteLogged_returns hrun
    case objRemove =>
      intro l hl
      cases hl
      have hrun : memStoreDoOpObjRemoveLogged log logId colls op s = .ok r := hrun
      unfold memStoreDoOpObjRemoveLogged at hrun
      obtain ⟨-, hrun⟩ := assert_bind_eq_ok hrun
      obtain ⟨-, hrun⟩ := assert_bind_eq_ok hrun
      exact say_line_ok hrun
    case objMap =>
      intro l hl
      cases hl
      have hrun : memStoreDoOpObjMapLogged log logId colls op s = .ok r := hrun
      unfold memStoreDoOpObjMapLogged at hrun
      obtain ⟨-, hrun⟩ := assert_bind_eq_ok hrun
      obtain ⟨-, hrun⟩ := assert_bind_eq_ok hrun
      obtain ⟨-, hrun⟩ := assert_bind_eq_ok hrun
      exact say_line_ok hrun
    all_goals
      intro l hl
      cases hl
  rw [memStoreDoOpLogged_fits logId colls op hfits] at h
  exact ⟨hfits, h⟩

end

-- ============================================================== the reads

/-- The lines that the call says on this store fit. -/
def StoreCall.LinesFit (logId : Int64) (store : MemStore) (call : StoreCall) : Prop :=
  ∀ l ∈ call.lines logId (call.missing store), l.Fits

/-- What a search returns that finds nothing. -/
theorem not_exist_ne_ok : CCEPH_ERR_MAP_NODE_NOT_EXIST ≠ CCEPH_OK := by decide

section
variable {store : MemStore} (h : StoreKeyed store) (logId : Int64) (cid : OsCollId)
  (oid key : CString)
include h

theorem memStoreReadObjLogged_lines {offset : Int64} (hoff : offset ≥ 0) (length : Int64) :
    Logged ((StoreCall.readObj cid oid offset length).LinesFit logId store)
      (memStoreReadObjLogged log logId store cid oid offset length)
      (memStoreReadObj store cid oid offset length) := by
  unfold memStoreReadObjLogged memStoreReadObj StoreCall.LinesFit StoreCall.lines
  rw [assert_pos hoff, pure_bind, pure_bind, lockColls_run h.unlocked,
    pthreadMutexLock_run h.unlocked, pure_bind, memStoreColls_locked, List.forall_mem_cons]
  refine Logged.line ?_
  rw [pure_bind]
  unfold StoreCall.missing StoreCall.cid StoreCall.oid StoreCall.key
  have hs := h.colls.search cid
  simp only [show store.locked.colls = store.colls from rfl]
  generalize memStoreCollNodeMapSearch store.colls cid = found at hs ⊢
  cases hs with
  | absent get =>
      simp only [get, if_pos not_exist_ne_ok, Option.some.injEq, reduceCtorEq, if_false]
      exact .none (List.forall_mem_nil _) _
  | found cnode keyed ok get =>
      simp only [get, ne_eq, not_true_eq_false, if_false, deref_some, pure_bind]
      have ho := ok.objects.search oid
      generalize memStoreObjectNodeMapSearch cnode.data.objects oid = found at ho ⊢
      cases ho with
      | absent oget =>
          simp only [oget, if_pos not_exist_ne_ok, if_true, List.forall_mem_cons]
          exact .line (.none (List.forall_mem_nil _) _)
      | found onode okeyed oget =>
          simp only [oget, not_true_eq_false, if_false, deref_some, pure_bind]
          exact .none (List.forall_mem_nil _) _

theorem memStoreReadObjMapLogged_lines (map : BinTree OsMapNode) :
    Logged ((StoreCall.readObjMap cid oid map).LinesFit logId store)
      (memStoreReadObjMapLogged log logId store cid oid map)
      (memStoreReadObjMap store cid oid map) := by
  unfold memStoreReadObjMapLogged memStoreReadObjMap StoreCall.LinesFit StoreCall.lines
  rw [lockColls_run h.unlocked, pthreadMutexLock_run h.unlocked, pure_bind,
    memStoreColls_locked, List.forall_mem_cons]
  refine Logged.line ?_
  rw [pure_bind]
  unfold StoreCall.missing StoreCall.cid StoreCall.oid StoreCall.key
  have hs := h.colls.search cid
  simp only [show store.locked.colls = store.colls from rfl]
  generalize memStoreCollNodeMapSearch store.colls cid = found at hs ⊢
  cases hs with
  | absent get =>
      simp only [get, if_pos not_exist_ne_ok, Option.some.injEq, reduceCtorEq, if_false]
      exact .none (List.forall_mem_nil _) _
  | found cnode keyed ok get =>
      simp only [get, ne_eq, not_true_eq_false, if_false, deref_some, pure_bind]
      have ho := ok.objects.search oid
      generalize memStoreObjectNodeMapSearch cnode.data.objects oid = found at ho ⊢
      cases ho with
      | absent oget =>
          simp only [oget, if_pos not_exist_ne_ok, if_true, List.forall_mem_cons]
          exact .line (.none (List.forall_mem_nil _) _)
      | found onode okeyed oget =>
          simp only [oget, not_true_eq_false, if_false, deref_some, pure_bind]
          exact .none (List.forall_mem_nil _) _

theorem memStoreReadCollMapKeyLogged_lines :
    Logged ((StoreCall.readCollMapKey cid key).LinesFit logId store)
      (memStoreReadCollMapKeyLogged log logId store cid key)
      (memStoreReadCollMapKey store cid key) := by
  unfold memStoreReadCollMapKeyLogged memStoreReadCollMapKey StoreCall.LinesFit StoreCall.lines
  rw [lockColls_run h.unlocked, lockColls_run h.unlocked]
  unfold StoreCall.missing StoreCall.cid StoreCall.oid StoreCall.key
  have hs := h.colls.search cid
  generalize memStoreCollNodeMapSearch store.colls cid = found at hs ⊢
  cases hs with
  | absent get =>
      simp only [get, if_pos not_exist_ne_ok, Option.some.injEq, reduceCtorEq, if_false]
      exact .none (List.forall_mem_nil _) _
  | found cnode keyed ok get =>
      simp only [get, ne_eq, not_true_eq_false, if_false, deref_some, pure_bind]
      have ha := osMapNodeSearch_at ok.attrs key
      generalize osMapNodeSearch cnode.data.map key = found at ha ⊢
      cases ha with
      | absent aget =>
          simp only [aget, if_pos not_exist_ne_ok, if_true, List.forall_mem_cons]
          exact .line (.none (List.forall_mem_nil _) _)
      | found place aget =>
          simp only [aget, not_true_eq_false, reduceCtorEq, if_false, deref_some, pure_bind]
          exact .none (List.forall_mem_nil _) _

theorem memStoreReadObjMapKeyLogged_lines :
    Logged ((StoreCall.readObjMapKey cid oid key).LinesFit logId store)
      (memStoreReadObjMapKeyLogged log logId store cid oid key)
      (memStoreReadObjMapKey store cid oid key) := by
  unfold memStoreReadObjMapKeyLogged memStoreReadObjMapKey StoreCall.LinesFit StoreCall.lines
  rw [lockColls_run h.unlocked, pthreadMutexLock_run h.unlocked, pure_bind,
    memStoreColls_locked, List.forall_mem_cons]
  refine Logged.line ?_
  rw [pure_bind]
  unfold StoreCall.missing StoreCall.cid StoreCall.oid StoreCall.key
  have hs := h.colls.search cid
  simp only [show store.locked.colls = store.colls from rfl]
  generalize memStoreCollNodeMapSearch store.colls cid = found at hs ⊢
  cases hs with
  | absent get =>
      simp only [get, if_pos not_exist_ne_ok, Option.some.injEq, reduceCtorEq, if_false]
      exact .none (List.forall_mem_nil _) _
  | found cnode keyed ok get =>
      simp only [get, ne_eq, not_true_eq_false, if_false, deref_some, pure_bind]
      have ho := ok.objects.search oid
      generalize memStoreObjectNodeMapSearch cnode.data.objects oid = found at ho ⊢
      cases ho with
      | absent oget =>
          simp only [oget, if_pos not_exist_ne_ok, if_true, List.forall_mem_cons]
          exact .line (.none (List.forall_mem_nil _) _)
      | found onode okeyed oget =>
          simp only [oget, not_true_eq_false, if_false, deref_some, pure_bind]
          have ha := osMapNodeSearch_at okeyed.data.attrs key
          generalize osMapNodeSearch onode.data.map key = found at ha ⊢
          cases ha with
          | absent aget =>
              simp only [aget, if_pos not_exist_ne_ok, Option.some.injEq, reduceCtorEq, if_true,
                if_false, List.forall_mem_cons]
              exact .line (.none (List.forall_mem_nil _) _)
          | found place aget =>
              simp only [aget, not_true_eq_false, reduceCtorEq, if_false, deref_some, pure_bind]
              exact .none (List.forall_mem_nil _) _

end

/-- A store in order is sorted at every level. -/
theorem StoreOk.keyed {store : MemStore} (h : StoreOk store) : StoreKeyed store where
  colls := by
    refine ⟨h.colls.inOrder, fun cid cnode hcnode => ?_⟩
    have hcoll := h.colls.nodes cid cnode hcnode
    refine ⟨⟨hcoll.objects.inOrder, fun oid onode honode => ?_⟩, hcoll.attrs.inOrder⟩
    have hobject := hcoll.objects.nodes oid onode honode
    exact ⟨hobject.attrs.inOrder, hobject.length⟩
  unlocked := h.unlocked

theorem Reachable.keyed {store : MemStore} (h : Reachable store) : StoreKeyed store := h.ok.keyed

-- ============================================================== the level

/-- A call answers as it would without LOG if its lines fit, and ends the
process if not. -/
theorem StoreCall.code_lines {store : MemStore} (h : StoreKeyed store) (logId : Int64)
    (s : Allocs) {call : StoreCall} (ha : call.Asserted) :
    (call.LinesFit logId store → call.code logId store s = call.silentCode store s)
      ∧ (¬call.LinesFit logId store → call.code logId store s = .error .outOfBounds) := by
  have hmap : ∀ {α : Type} {fit : Prop} {x y : Prog Allocs α} (ret : α → Int), Logged fit x y →
      (fit → (x s).map (fun r => ret r.1) = (y s).map fun r => ret r.1)
        ∧ (¬fit → (x s).map (fun r => ret r.1) = .error .outOfBounds) := by
    intro α fit x y ret hlogged
    constructor
    · intro hfit
      rw [hlogged.fits hfit]
    · intro hnot
      rw [hlogged.dies hnot]
      rfl
  cases call with
  | op op =>
      refine hmap Prod.fst ⟨fun hfits => memStoreDoOpLogged_fits logId store.colls op ?_,
        fun hnot => memStoreDoOpLogged_over logId store.colls op ha ?_⟩
      · exact fun l hl => hfits l (Option.mem_toList.mpr hl)
      · exact fun hall => hnot fun l hl => hall l (Option.mem_toList.mp hl)
  | readObj cid oid offset length =>
      exact hmap Prod.fst (memStoreReadObjLogged_lines h logId cid oid ha length)
  | readCollMap cid map => exact ⟨fun _ => rfl, fun hnot => absurd (List.forall_mem_nil _) hnot⟩
  | readCollMapKey cid key =>
      exact hmap Prod.fst (memStoreReadCollMapKeyLogged_lines h logId cid key)
  | readObjMap cid oid map =>
      exact hmap Prod.fst (memStoreReadObjMapLogged_lines h logId cid oid map)
  | readObjMapKey cid oid key =>
      exact hmap Prod.fst (memStoreReadObjMapKeyLogged_lines h logId cid oid key)

theorem Finished.ne_code {c : Int} (h : Finished c) (level : Level) : c ≠ level.code := by
  obtain rfl | rfl := h
  · cases level <;> decide
  · cases level <;> decide

/-- Each level has a code of its own. -/
theorem Level.code_injective {level level' : Level} (h : level.code = level'.code) :
    level = level' := by
  cases level with
  | coll => cases level' <;> first | rfl | exact absurd h (by decide)
  | object => cases level' <;> first | rfl | exact absurd h (by decide)
  | key => cases level' <;> first | rfl | exact absurd h (by decide)

/-- A key that is missing is always told. -/
theorem StoreCall.untranslated_key (call : StoreCall) : call.untranslated .key = false := by
  cases call <;> rfl

theorem tellsLevel_code (level : Level) : TellsLevel (.ok level.code) (some level) := by
  have hiff : ∀ level' : Level,
      (.ok level.code : Except Fault Int) = .ok level'.code ↔ some level = some level' := by
    intro level'
    constructor
    · intro h
      rw [Except.ok.injEq] at h
      rw [Level.code_injective h]
    · intro h
      cases h
      rfl
  exact ⟨fun _ => ⟨_, rfl⟩, hiff .coll, hiff .object, (hiff .key).mp⟩

theorem tellsLevel_none {code : Except Fault Int} (h : ∀ level : Level, code ≠ .ok level.code) :
    TellsLevel code none where
  returns hm := by cases hm
  coll := ⟨fun hc => absurd hc (h .coll), fun hm => (by cases hm)⟩
  object := ⟨fun hc => absurd hc (h .object), fun hm => (by cases hm)⟩
  key hc := absurd hc (h .key)

/-- Without LOG. -/
theorem StoreCall.tellsLevel_silent {store : MemStore} (h : StoreKeyed store) (s : Allocs)
    {call : StoreCall} (ha : call.Asserted) :
    TellsLevel (call.silentCode store s) (call.missing store)
      ↔ ∀ level, call.missing store = some level → call.untranslated level = false := by
  have hcode := StoreCall.code_at h s ha
  generalize call.missing store = missing at hcode ⊢
  generalize call.silentCode store s = code at hcode ⊢
  cases hcode with
  | missing level =>
      unfold StoreCall.reported
      constructor
      · intro htells level' hlevel
        cases hlevel
        by_contra hu
        rw [if_pos (by simpa using hu)] at htells
        -- a search's code means a key to the caller
        cases htells.key rfl
        exact hu call.untranslated_key
      · intro hall
        rw [hall level rfl]
        exact tellsLevel_code level
  | finished hc =>
      refine ⟨fun _ level hlevel => (by cases hlevel), fun _ => tellsLevel_none ?_⟩
      intro level h
      rw [Except.ok.injEq] at h
      exact hc.ne_code level h
  | fault e => exact ⟨fun _ level hlevel => (by cases hlevel), fun _ => tellsLevel_none nofun⟩

/-- The code tells the level that is missing, if what is said of it fits,
and unless a search's own code is passed on for it. -/
theorem storeCall_tellsLevel {store : MemStore} (h : ReachableAny store) (logId : Int64)
    (s : Allocs) {call : StoreCall} (ha : call.Asserted) :
    TellsLevel (call.code logId store s) (call.missing store)
      ↔ ∀ level, call.missing store = some level →
        call.untranslated level = false ∧ call.LinesFit logId store := by
  obtain ⟨hfits, hover⟩ := StoreCall.code_lines h.keyed logId s ha
  by_cases hlines : call.LinesFit logId store
  · rw [hfits hlines, StoreCall.tellsLevel_silent h.keyed s ha]
    simp only [and_iff_left hlines]
  · rw [hover hlines]
    cases hmissing : call.missing store with
    | none => exact iff_of_true (tellsLevel_none fun level => nofun) nofun
    | some level =>
        refine iff_of_false (fun htells => ?_) fun hall => hlines (hall level rfl).2
        cases level with
        | coll => cases htells.coll.mpr rfl
        | object => cases htells.object.mpr rfl
        | key =>
            obtain ⟨c, hc⟩ := htells.returns rfl
            cases hc

/-- Setting an attribute of a collection that is not there. -/
def mapNoColl : StoreCall := .op ⟨0, .collMap, 1, none, 0, 0, none, some .nil⟩

/-- Removing an object of it. -/
def removeNoObject : StoreCall := .op ⟨7, .objRemove, 1, some ⟨[97], noNul_a⟩, 0, 0, none, none⟩

/-- Setting an attribute of a missing collection is answered as if an
attribute were missing. -/
theorem mapNoColl_not_tells :
    ¬∀ (store : MemStore) (logId : Int64) (s : Allocs) (call : StoreCall), ReachableAny store →
      call.Asserted → TellsLevel (call.code logId store s) (call.missing store) := by
  intro h
  have htells := h .fresh 0 .plenty mapNoColl (.new memStoreNew_plenty) ⟨by decide, rfl⟩
  cases htells.key rfl

/-- Removing an object there is answered as it should be. -/
theorem removeNoObject_tells :
    TellsLevel (removeNoObject.code 7 .fresh .plenty) (removeNoObject.missing .fresh) := by
  have ha : removeNoObject.Asserted := ⟨by decide, rfl⟩
  refine (storeCall_tellsLevel (.new memStoreNew_plenty) 7 .plenty ha).mpr ?_
  intro level hlevel
  cases hlevel
  refine ⟨rfl, fun l hl => ?_⟩
  rw [show l = objRemoveLine 7 ⟨7, .objRemove, 1, some ⟨[97], noNul_a⟩, 0, 0, none, none⟩ from
    List.mem_singleton.mp hl]
  decide

end CephInC
