/-
Runs of transactions from a new store, against the plain map.

`memStoreRun_ns` lifts the one-op refinement to runs. What a caller sees
of the map it reaches is `ShowsNs`: `exist_coll`, and the code of
`read_obj`. What a creation leaves is `CreatesFresh`: nothing of any
earlier collection or object of that name. The latter is about every op
of a run, since the store before op `k` of a transaction is the one that
its first `k` ops, a transaction of their own, lead to.

The refinement needs `RunSafe`; `memStoreRun_overflow` is a run of
builder ops without it, whose write has no end in `int64_t`: it skips
the growth and the copy leaves the block.
-/
import CephInC.Os.Proofs.Logged
import CephInC.Os.Proofs.Namespace

namespace CephInC

open Lib

-- ======================================================= a transaction

/-- The steps of a transaction whose filled slots lie in its block are those
of its ops. -/
theorem tranSteps_ops {tran : OsTran}
    (hinside : tran.opBufferIndex.toInt ≤ tran.opBuffer.length) :
    tranSteps tran = tran.ops.map viewOp := by
  have hcount : tran.count = tran.opBufferIndex.toInt.toNat := rfl
  unfold tranSteps OsTran.ops
  refine List.ext_getElem ?_ fun i hi hi' => ?_
  · rw [List.length_map, List.length_map, List.length_range',
      List.length_take, hcount]
    omega
  · rw [List.length_map, List.length_range', hcount] at hi
    rw [List.getElem_map, List.getElem_map, List.getElem_range',
      List.getElem_take]
    have hlt : i < tran.opBuffer.length := by omega
    unfold slotStep osTranGetOp
    rw [if_neg (by omega), show 0 + 1 * i = i by omega,
      List.getElem?_eq_getElem hlt]

/-- The ops of a transaction do on the view what they do on the map. -/
theorem seq_ns {logId : Int64} :
    ∀ {ops : List OsTranOp} {v : StoreView}, (∀ op ∈ ops, OpBuilt op) →
      TranSafe logId ops (nsOf v) →
      ∃ ret v', Step.seq (ops.map viewOp) v = .ok (ret, v')
        ∧ (nsTran ops (nsOf v)).1 = decide (ret ≠ CCEPH_OK)
        ∧ (nsTran ops (nsOf v)).2 = nsOf v'
  | [], v, _, _ => ⟨CCEPH_OK, v, rfl, rfl, rfl⟩
  | op :: rest, v, hb, hs => by
      obtain ⟨hop, -, hrest⟩ := hs
      obtain ⟨ret, v', hx, hns⟩ := viewOp_ns (hb op (List.mem_cons_self ..)) hop
      unfold nsTran
      cases hn : nsOp op (nsOf v) with
      | none =>
          rw [hn] at hns
          obtain ⟨hne, hsame⟩ := hns
          refine ⟨ret, v', ?_, ?_, hsame.symm⟩
          · rw [List.map_cons]
            simp only [Step.seq, hx]
            exact if_neg hne
          · simp only [hne, ne_eq, not_false_eq_true, decide_true]
      | some n =>
          rw [hn] at hns
          obtain ⟨rfl, rfl⟩ := hns
          obtain ⟨ret', v'', hx', hfail, hview⟩ := seq_ns
            (fun op' hmem => hb op' (List.mem_cons_of_mem _ hmem))
            (hrest _ hn)
          refine ⟨ret', v'', ?_, hfail, hview⟩
          rw [List.map_cons]
          simp only [Step.seq, hx]
          exact hx'

/-- A safe transaction of builders' ops returns, with `CCEPH_OK` exactly
if no op of it fails on the map. -/
theorem memStoreSubmitTran_ns {store : MemStore} (h : StoreOk store)
    {logId : Int64} {tran : OsTran} (hb : TranBuilt tran)
    (hs : TranSafe logId tran.ops (nsOf store.view)) :
    ∃ ret store', memStoreSubmitTran store tran .plenty
        = .ok ((ret, store'), .plenty)
      ∧ StoreOk store'
      ∧ (nsTran tran.ops (nsOf store.view)).1 = decide (ret ≠ CCEPH_OK)
      ∧ (nsTran tran.ops (nsOf store.view)).2 = nsOf store'.view := by
  obtain ⟨ret, v, hseq, hfail, hview⟩ := seq_ns hb.built hs
  have hrefines := memStoreSubmitTran_refines h tran
  rw [tranSteps_ops hb.inside] at hrefines
  cases hx : memStoreSubmitTran store tran .plenty with
  | error e =>
      rw [hx] at hrefines
      unfold SubmitRefines at hrefines
      rw [hseq] at hrefines
      cases hrefines
  | ok r =>
      obtain ⟨⟨ret', store'⟩, s⟩ := r
      rw [hx] at hrefines
      obtain ⟨rfl, hok, hlock, hsub⟩ := hrefines
      rw [hseq] at hsub
      simp only [Except.ok.injEq, Prod.mk.injEq] at hsub
      obtain ⟨rfl, rfl⟩ := hsub
      exact ⟨ret, store', rfl, ⟨hok, hlock⟩, hfail, hview⟩

/-- Its lines fit, so that LOG is out of the way. -/
theorem memStoreSubmitTranLoopLogged_safe {logId : Int64} {tran : OsTran} (hb : TranBuilt tran) :
    ∀ (left i : Nat) {store : MemStore}, i + left = tran.ops.length → CollsOk store.colls →
      store.lock.held = true →
      TranSafe logId (tran.ops.drop i) (nsOf (collsView store.colls)) →
      memStoreSubmitTranLoopLogged log logId tran left i store .plenty
        = memStoreSubmitTranLoop tran left i store .plenty
  | 0, i, store, _, _, _, _ => rfl
  | left + 1, i, store, hi, hok, hheld, hs => by
      have hlt : i < tran.ops.length := by omega
      have hget : osTranGetOp tran i = .ok (some tran.ops[i]) := by
        have hcount : tran.ops.length ≤ tran.opBufferIndex.toInt.toNat := List.length_take_le _ _
        have hslot : i < tran.opBuffer.length := by
          have hle : tran.ops.length ≤ tran.opBuffer.length := List.length_take_le' _ _
          omega
        unfold osTranGetOp
        rw [if_neg (by omega), List.getElem?_eq_getElem hslot]
        simp only [OsTran.ops, List.getElem_take]
      have hbuilt : OpBuilt tran.ops[i] := hb.built _ (List.getElem_mem hlt)
      rw [List.drop_eq_getElem_cons hlt] at hs
      obtain ⟨hsafe, hfits, hrest⟩ := hs
      have hslot : (lift (.ok (some tran.ops[i])) : Prog Allocs (Option OsTranOp))
          = pure (some tran.ops[i]) := rfl
      unfold memStoreSubmitTranLoopLogged memStoreSubmitTranLoop
      simp only [hget, hslot, pure_bind, memStoreColls_run hheld,
        memStoreDoOpLogged_fits logId store.colls _ hfits]
      have hrefines := memStoreDoOp_refines hok tran.ops[i]
      cases hop : memStoreDoOp store.colls (some tran.ops[i]) .plenty with
      | error e => rw [bind_error hop, bind_error hop]
      | ok r =>
          obtain ⟨⟨ret, colls⟩, s⟩ := r
          rw [hop] at hrefines
          obtain ⟨rfl, hok', hview, -⟩ := hrefines
          rw [bind_ok hop, bind_ok hop]
          by_cases hret : ret = CCEPH_OK
          · subst hret
            simp only [ne_eq, not_true_eq_false, if_false]
            have hstep : i + 1 + left = tran.ops.length := by omega
            refine @memStoreSubmitTranLoopLogged_safe logId tran hb left (i + 1)
              { store with colls } hstep hok' hheld (hrest _ ?_)
            obtain ⟨ret', v', hx, hns⟩ := viewOp_ns hbuilt hsafe
            rw [hview] at hx
            cases hx
            cases hn : nsOp tran.ops[i] (nsOf (collsView store.colls)) with
            | none =>
                rw [hn] at hns
                exact absurd rfl hns.1
            | some n =>
                rw [hn] at hns
                rw [hns.2]
          · simp only [ne_eq, hret, not_false_eq_true, if_true]

theorem memStoreSubmitTranLogged_ns {store : MemStore} (h : StoreOk store) {logId : Int64}
    {tran : OsTran} (hb : TranBuilt tran) (hs : TranSafe logId tran.ops (nsOf store.view)) :
    memStoreSubmitTranLogged log logId store tran .plenty
      = memStoreSubmitTran store tran .plenty := by
  have hcount : 0 + (osTranGetOpCount tran).toInt.toNat = tran.ops.length := by
    have hinside := hb.inside
    unfold osTranGetOpCount OsTran.ops
    rw [List.length_take]
    omega
  have hloop := @memStoreSubmitTranLoopLogged_safe logId tran hb
    (osTranGetOpCount tran).toInt.toNat 0 store.locked hcount h.colls rfl hs
  unfold memStoreSubmitTranLogged memStoreSubmitTran
  rw [pthreadMutexLock_run h.unlocked, pure_bind, pure_bind, bind_run, bind_run, hloop]

-- ================================================================ a run

/-- Transaction after transaction, each with the log id it is submitted
with: the codes, and the store. -/
def memStoreRun : MemStore → List (Int64 × OsTran) → Prog Allocs (List Int × MemStore)
  | store, [] => return ([], store)
  | store, (logId, tran) :: rest => do
      let (ret, store) ← memStoreSubmitTranLogged log logId store tran
      let (rets, store) ← memStoreRun store rest
      return (ret :: rets, store)

/-- Which transactions of a run failed. -/
def failures (rets : List Int) : List Bool :=
  rets.map fun ret => decide (ret ≠ CCEPH_OK)

theorem memStoreRun_ns :
    ∀ {trans : List (Int64 × OsTran)} {store : MemStore}, Reachable store →
      (∀ call ∈ trans, TranBuilt call.2) → RunSafe trans (nsOf store.view) →
      ∃ rets store', memStoreRun store trans .plenty
          = .ok ((rets, store'), .plenty)
        ∧ Reachable store'
        ∧ failures rets = (nsRun (trans.map Prod.snd) (nsOf store.view)).1
        ∧ nsOf store'.view = (nsRun (trans.map Prod.snd) (nsOf store.view)).2
  | [], store, h, _, _ => ⟨[], store, rfl, h, rfl, rfl⟩
  | (logId, tran) :: rest, store, h, hb, hs => by
      obtain ⟨htran, hrest⟩ := hs
      have hbuilt : TranBuilt tran := hb (logId, tran) (List.mem_cons_self ..)
      obtain ⟨ret, store₁, hx, hok, hfail, hview⟩ :=
        memStoreSubmitTran_ns h.ok hbuilt htran
      have hlogged := (memStoreSubmitTranLogged_ns h.ok hbuilt htran).trans hx
      rw [hview] at hrest
      obtain ⟨rets, store₂, hy, hreach, hfails, hview'⟩ := memStoreRun_ns
        (h.submit hx) (fun t ht => hb t (List.mem_cons_of_mem _ ht)) hrest
      refine ⟨ret :: rets, store₂, ?_, hreach, ?_, ?_⟩
      · unfold memStoreRun
        rw [bind_ok hlogged]
        simp only
        rw [bind_ok hy]
        rfl
      · rw [List.map_cons]
        unfold nsRun
        simp only [hfail, hview, ← hfails]
        rfl
      · rw [List.map_cons]
        unfold nsRun
        simp only [hview, hview']

-- ======================================================== what is shown

/-- The code of `read_obj` for a name. -/
def readCode (n : Namespace) (cid : OsCollId) (oid : CString) : Int :=
  if (n cid).isNone then CCEPH_ERR_COLL_NOT_EXIST
  else if n.live cid oid then CCEPH_OK
  else CCEPH_ERR_OBJECT_NOT_EXIST

/-- Reading does not take the length of a content as a negative `int`:
it would at an offset inside it, with no length of its own that is a
positive `int`. -/
def ReadSafe (v : StoreView) (cid : OsCollId) (oid : CString)
    (offset length : Int64) : Prop :=
  ∀ coll object, v cid = some coll → coll.objects oid = some object →
    ¬(offset.toInt < object.content.length ∧ length.toInt32 ≤ 0
      ∧ (Int64.ofNat object.content.length).toInt32 < 0)

/-- The lines of a read fit. -/
def ReadSays (logId : Int64) (store : MemStore) (cid : OsCollId) (oid : CString)
    (offset length : Int64) : Prop :=
  (StoreCall.readObj cid oid offset length).LinesFit logId store

/-- A caller sees the map: by `exist_coll`, and, exactly where reading is
safe and LOG has room for the name, by the code of `read_obj`. -/
structure ShowsNs (store : MemStore) (n : Namespace) : Prop where
  exist : ∀ cid, ∃ store', memStoreExistColl store cid .plenty
    = .ok ((CCEPH_OK, if (n cid).isSome then 1 else 0, store'), .plenty)
  read : ∀ logId cid oid offset length, offset ≥ 0 →
    ((∃ resultLength resultData store',
      memStoreReadObjLogged log logId store cid oid offset length .plenty
        = .ok ((readCode n cid oid, resultLength, resultData, store'), .plenty))
      ↔ ReadSafe store.view cid oid offset length
        ∧ ReadSays logId store cid oid offset length)

/-- The bytes an op writes into the object it creates. -/
def OsTranOp.written (op : OsTranOp) : List UInt8 :=
  if op.op = .objTouch ∨ op.length = 0 then []
  else overlay [] op.offset.toInt.toNat
    ((op.data.getD []).take op.length.toInt.toNat)

/-- A successful op on this store that creates a collection leaves no
object and no attribute in it; one that creates an object leaves no byte
but those it writes, and no attribute. So say the reads whose lines fit. -/
structure CreatesFresh (store : MemStore) : Prop where
  coll : ∀ logId op colls, op.op = .collCreate →
    memStoreDoOpLogged log logId store.colls (some op) .plenty
      = .ok ((CCEPH_OK, colls), .plenty) →
    (∀ logId oid offset length, offset ≥ 0 →
        ReadSays logId { store with colls } op.cid oid offset length → ∃ store',
        memStoreReadObjLogged log logId { store with colls } op.cid oid offset length .plenty
          = .ok ((CCEPH_ERR_OBJECT_NOT_EXIST, none, none, store'), .plenty))
      ∧ ∀ logId key,
        (StoreCall.readCollMapKey op.cid key).LinesFit logId { store with colls } → ∃ store',
        memStoreReadCollMapKeyLogged log logId { store with colls } op.cid key .plenty
          = .ok ((CCEPH_ERR_MAP_NODE_NOT_EXIST, none, none, store'), .plenty)
  object : ∀ logId op colls, op.op = .objTouch ∨ op.op = .objWrite →
    (nsOf store.view).live op.cid op.name = false →
    memStoreDoOpLogged log logId store.colls (some op) .plenty
      = .ok ((CCEPH_OK, colls), .plenty) →
    (∀ logId offset length, offset ≥ 0 →
        ReadSays logId { store with colls } op.cid op.name offset length → ∃ store',
        memStoreReadObjLogged log logId { store with colls } op.cid op.name offset length
            .plenty
          = .ok (((contentRead op.written offset length).1,
              (contentRead op.written offset length).2.1,
              (contentRead op.written offset length).2.2, store'), .plenty))
      ∧ ∀ logId key,
        (StoreCall.readObjMapKey op.cid op.name key).LinesFit logId { store with colls } →
        ∃ store',
        memStoreReadObjMapKeyLogged log logId { store with colls } op.cid op.name key .plenty
          = .ok ((CCEPH_ERR_MAP_NODE_NOT_EXIST, none, none, store'), .plenty)

-- ================================================================ reading

/-- When the length to read comes out negative. -/
theorem memStoreReadLength_neg {total offset : Int64} (length : Int64)
    (h0 : 0 ≤ offset.toInt) (hlt : offset.toInt < total.toInt) :
    memStoreReadLength total offset length < 0
      ↔ length.toInt32 ≤ 0 ∧ total.toInt32 < 0 := by
  have hbt := int64_bounds total
  have hsub : (total - offset).toInt = total.toInt - offset.toInt := by
    rw [Int64.toInt_sub, Int.bmod_def]
    split <;> omega
  have hpick : (if length.toInt32 ≤ 0 then total.toInt32
      else length.toInt32) < 0 ↔ length.toInt32 ≤ 0 ∧ total.toInt32 < 0 := by
    by_cases hl : length.toInt32 ≤ 0
    · rw [if_pos hl]
      exact ⟨fun h => ⟨hl, h⟩, fun h => h.2⟩
    · rw [if_neg hl]
      constructor
      · intro h
        have h1 := Int32.lt_iff_toInt_lt.mp h
        have h2 := fun h => hl (Int32.le_iff_toInt_le.mpr h)
        exact absurd (Int.le_of_lt h1) h2
      · intro h
        exact absurd h.1 hl
  rw [← hpick]
  unfold memStoreReadLength
  simp only
  generalize (if length.toInt32 ≤ 0 then total.toInt32
    else length.toInt32) = r
  have hbr := int32_bounds r
  by_cases hgt : r.toInt64 > total - offset
  · rw [if_pos hgt]
    have hgt' := Int64.lt_iff_toInt_lt.mp hgt
    rw [Int32.toInt_toInt64, hsub] at hgt'
    constructor
    · intro h
      have h1 := Int32.lt_iff_toInt_lt.mp h
      rw [Int64.toInt_toInt32, hsub, Int.bmod_def,
        show (0 : Int32).toInt = 0 from rfl] at h1
      split at h1 <;> omega
    · intro h
      have h1 := Int32.lt_iff_toInt_lt.mp h
      rw [show (0 : Int32).toInt = 0 from rfl] at h1
      omega
  · rw [if_neg hgt]

/-- What reading a stored content returns. -/
theorem contentRead_code {content : List UInt8} {offset : Int64}
    (length : Int64) (hoff : offset ≥ 0) (hlen : content.length < 2 ^ 63) :
    (contentRead content offset length).1 = CCEPH_OK
      ↔ ¬(offset.toInt < content.length ∧ length.toInt32 ≤ 0
        ∧ (Int64.ofNat content.length).toInt32 < 0) := by
  have h0 : 0 ≤ offset.toInt := Int64.le_iff_toInt_le.mp hoff
  have htotal : (Int64.ofNat content.length).toInt = content.length :=
    Int64.toInt_ofNat_of_lt hlen
  unfold contentRead
  simp only
  by_cases hend : Int64.ofNat content.length = 0
      ∨ Int64.ofNat content.length ≤ offset
  · rw [if_pos hend]
    refine ⟨fun _ h => ?_, fun _ => rfl⟩
    rcases hend with hz | hle
    · rw [← Int64.toInt_inj, htotal] at hz
      have := h.1
      rw [hz] at this
      exact absurd h0 (Int.not_le.mpr this)
    · have hle' := Int64.le_iff_toInt_le.mp hle
      rw [htotal] at hle'
      exact absurd h.1 (Int.not_lt.mpr hle')
  · rw [if_neg hend]
    obtain ⟨-, hnle⟩ := not_or.mp hend
    have hlt : offset.toInt < (Int64.ofNat content.length).toInt := by
      have := fun h => hnle (Int64.le_iff_toInt_le.mpr h)
      exact Int.not_le.mp this
    have hneg := memStoreReadLength_neg length h0 hlt
    rw [htotal] at hlt
    by_cases hr : memStoreReadLength (Int64.ofNat content.length) offset
        length < 0
    · rw [if_pos hr]
      have hbad := hneg.mp hr
      constructor
      · intro h
        cases h
      · intro h
        exact absurd ⟨hlt, hbad⟩ h
    · rw [if_neg hr]
      refine ⟨fun _ h => hr (hneg.mpr h.2), fun _ => rfl⟩

/-- A store in order has contents an `int64_t` can measure. -/
theorem StoreOk.content_length {store : MemStore} (h : StoreOk store)
    {cid : OsCollId} {oid : CString} {coll : CollView} {object : ObjectView}
    (hc : store.view cid = some coll) (ho : coll.objects oid = some object) :
    object.content.length < 2 ^ 63 := by
  have hs := h.colls.search cid
  generalize memStoreCollNodeMapSearch store.colls cid = found at hs
  unfold MemStore.view at hc
  cases hs with
  | absent view get =>
      rw [view] at hc
      cases hc
  | found cnode root key ok view =>
      rw [view] at hc
      cases hc
      have hso := ok.objects.search oid
      generalize memStoreObjectNodeMapSearch cnode.data.objects oid = found
        at hso
      replace ho : objectsView cnode.data.objects oid = some object := ho
      cases hso with
      | absent oview =>
          rw [oview] at ho
          cases ho
      | found onode oroot okey ook oview =>
          rw [oview] at ho
          cases ho
          have hlen := ook.length
          have hb := int64_bounds onode.data.length
          show onode.data.content.length < 2 ^ 63
          omega

/-- Without LOG. -/
theorem StoreOk.read_silent {store : MemStore} (h : StoreOk store) (cid : OsCollId)
    (oid : CString) {offset : Int64} (hoff : offset ≥ 0) (length : Int64) :
    ∃ ret resultLength resultData store',
      memStoreReadObj store cid oid offset length .plenty
        = .ok ((ret, resultLength, resultData, store'), .plenty)
      ∧ (ret = readCode (nsOf store.view) cid oid
          ↔ ReadSafe store.view cid oid offset length) := by
    refine ⟨_, _, _, _, memStoreReadObj_spec h cid oid hoff length, ?_⟩
    unfold readCode ReadSafe objRead
    cases hv : store.view cid with
    | none =>
        rw [nsOf_none hv]
        refine ⟨fun _ coll object hc => ?_, fun _ => rfl⟩
        cases hc
    | some coll =>
        rw [nsOf_some hv, live_some hv]
        simp only [Option.isNone_some, Bool.false_eq_true, if_false]
        cases ho : coll.objects oid with
        | none =>
            refine ⟨fun _ coll' object hc ho' => ?_, fun _ => rfl⟩
            cases hc
            rw [ho] at ho'
            cases ho'
        | some object =>
            simp only [Option.isSome_some, if_true]
            rw [contentRead_code length hoff (h.content_length hv ho)]
            constructor
            · intro hsafe coll' object' hc ho'
              cases hc
              rw [ho] at ho'
              cases ho'
              exact hsafe
            · intro hsafe
              exact hsafe coll object rfl ho

theorem StoreOk.showsNs {store : MemStore} (h : StoreOk store) (hkeyed : StoreKeyed store) :
    ShowsNs store (nsOf store.view) where
  exist := by
    intro cid
    refine ⟨store.relocked, ?_⟩
    rw [memStoreExistColl_spec h]
    unfold nsOf
    rw [Option.isSome_map]
  read := by
    intro logId cid oid offset length hoff
    have hlogged := memStoreReadObjLogged_lines hkeyed logId cid oid hoff length
    obtain ⟨ret, resultLength, resultData, store', hread, hret⟩ :=
      h.read_silent cid oid hoff length
    by_cases hsays : ReadSays logId store cid oid offset length
    · rw [and_iff_left hsays, ← hret, hlogged.fits hsays, hread]
      constructor
      · rintro ⟨resultLength', resultData', store'', heq⟩
        cases heq
        rfl
      · intro hcode
        rw [hcode]
        exact ⟨_, _, _, rfl⟩
    · refine iff_of_false ?_ fun hboth => hsays hboth.2
      rintro ⟨resultLength', resultData', store'', heq⟩
      rw [hlogged.dies hsays] at heq
      cases heq

-- ============================================================== creation

/-- A successful creation of a collection leaves it empty. -/
theorem viewOp_collCreate {op : OsTranOp} (hop : op.op = .collCreate)
    {v v' : StoreView} (h : viewOp op v = .ok (CCEPH_OK, v')) :
    v' op.cid = some .empty := by
  unfold viewOp at h
  rw [hop] at h
  obtain ⟨-, h⟩ := Step.guard_ok h
  cases hv : v op.cid with
  | none =>
      rw [over_at (w := some .empty) (c := CCEPH_OK) (by rw [hv]; rfl)] at h
      cases h
      exact Function.update_self ..
  | some coll =>
      rw [over_at_same (c := CCEPH_ERR_COLL_ALREADY_EXIST)
        (by rw [hv]; rfl)] at h
      cases h

/-- A successful write that creates its object leaves what it wrote. -/
theorem viewWrite_creates {op : OsTranOp} {v v' : StoreView}
    (h : viewWrite op v = .ok (CCEPH_OK, v'))
    (hlive : (nsOf v).live op.cid op.name = false) :
    ∃ coll, v' op.cid = some coll ∧ coll.objects op.name
      = some ⟨if op.length = 0 then []
          else overlay [] op.offset.toInt.toNat
            ((op.data.getD []).take op.length.toInt.toNat), fun _ => none⟩ := by
  obtain ⟨-, h⟩ := Step.guard_ok h
  obtain ⟨-, h⟩ := Step.guard_ok h
  obtain ⟨-, h⟩ := Step.guard_ok h
  obtain ⟨-, h⟩ := Step.guard_ok h
  obtain ⟨-, h⟩ := Step.guard_ok h
  cases hv : v op.cid with
  | none =>
      rw [inColl_none hv] at h
      cases h
  | some coll =>
      rw [live_some hv] at hlive
      have hnone : coll.objects op.name = none := by
        cases ho : coll.objects op.name with
        | none => rfl
        | some o =>
            rw [ho] at hlive
            cases hlive
      cases hw : objectWrite op.name op.offset op.length (op.data.getD [])
          (coll.objects op.name) with
      | error e =>
          rw [over_at_error (e := e)] at h
          · cases h
          · rw [hv]
            show Step.onSome _ _ (some _) = _
            simp only [Step.onSome, Step.over, CollView.objectLens, hw]
      | ok r =>
          obtain ⟨d, w⟩ := r
          rw [inColl_some hv hw] at h
          cases h
          refine ⟨_, Function.update_self .., ?_⟩
          show Function.update coll.objects op.name w op.name = _
          rw [Function.update_self]
          rw [hnone] at hw
          unfold objectWrite objectOpen contentWrite at hw
          cases hc : copyOutcome op.name with
          | overrun =>
              rw [hc] at hw
              cases hw
          | refused =>
              rw [hc] at hw
              cases hw
          | copied =>
              rw [hc] at hw
              by_cases h0 : op.length = 0
              · simp only [if_pos h0] at hw ⊢
                cases hw
                rfl
              · simp only [if_neg h0] at hw ⊢
                split at hw
                · cases hw
                · next heq =>
                    split at heq
                    · cases heq
                      cases hw
                      rfl
                    · cases heq

theorem StoreOk.createsFresh {store : MemStore} (h : StoreOk store) (hkeyed : StoreKeyed store) :
    CreatesFresh store where
  coll := by
    intro logId op colls hop hx
    have hx := (memStoreDoOpLogged_returns hx).2
    have hrefines := memStoreDoOp_refines h.colls op
    have hafter : StoreKeyed { store with colls } :=
      ⟨memStoreDoOp_keyed hkeyed.colls (some op) _ _ _ hx, hkeyed.unlocked⟩
    rw [hx] at hrefines
    obtain ⟨-, hok, hview, -⟩ := hrefines
    have hnew := viewOp_collCreate hop hview
    have hstore : StoreOk { store with colls } := ⟨hok, h.unlocked⟩
    constructor
    · intro logId oid offset length hoff hsays
      refine ⟨MemStore.relocked { store with colls }, ?_⟩
      rw [(memStoreReadObjLogged_lines hafter logId op.cid oid hoff length).fits hsays,
        memStoreReadObj_spec hstore _ _ hoff]
      unfold objRead
      rw [show MemStore.view { store with colls } op.cid = some .empty from hnew]
      rfl
    · intro logId key hsays
      refine ⟨MemStore.relocked { store with colls }, ?_⟩
      rw [(memStoreReadCollMapKeyLogged_lines hafter logId op.cid key).fits hsays,
        memStoreReadCollMapKey_spec hstore]
      unfold collKeyRead
      rw [show MemStore.view { store with colls } op.cid = some .empty from hnew]
      rfl
  object := by
    intro logId op colls hop hlive hx
    have hx := (memStoreDoOpLogged_returns hx).2
    have hrefines := memStoreDoOp_refines h.colls op
    have hafter : StoreKeyed { store with colls } :=
      ⟨memStoreDoOp_keyed hkeyed.colls (some op) _ _ _ hx, hkeyed.unlocked⟩
    rw [hx] at hrefines
    obtain ⟨-, hok, hview, -⟩ := hrefines
    have hnew : ∃ coll, collsView colls op.cid = some coll
        ∧ coll.objects op.name = some ⟨op.written, fun _ => none⟩ := by
      unfold viewOp at hview
      unfold OsTranOp.written
      rcases hop with hop | hop
      · rw [hop] at hview
        obtain ⟨coll, hc, ho⟩ := viewWrite_creates hview hlive
        refine ⟨coll, hc, ?_⟩
        rw [if_pos (.inl hop)]
        exact ho
      · rw [hop] at hview
        obtain ⟨coll, hc, ho⟩ := viewWrite_creates hview hlive
        refine ⟨coll, hc, ?_⟩
        rw [ho, hop]
        simp only [reduceCtorEq, false_or]
    obtain ⟨coll, hc, ho⟩ := hnew
    have hstore : StoreOk { store with colls } := ⟨hok, h.unlocked⟩
    constructor
    · intro logId offset length hoff hsays
      refine ⟨MemStore.relocked { store with colls }, ?_⟩
      rw [(memStoreReadObjLogged_lines hafter logId op.cid op.name hoff length).fits hsays,
        memStoreReadObj_spec hstore _ _ hoff]
      unfold objRead
      rw [show MemStore.view { store with colls } op.cid = some coll from hc]
      simp only [ho]
    · intro logId key hsays
      refine ⟨MemStore.relocked { store with colls }, ?_⟩
      rw [(memStoreReadObjMapKeyLogged_lines hafter logId op.cid op.name key).fits hsays,
        memStoreReadObjMapKey_spec hstore]
      unfold objKeyRead
      rw [show MemStore.view { store with colls } op.cid = some coll from hc]
      simp only [ho]
      rfl

-- ======================================================== the refinement

/-- The run refines the plain map: every transaction returns, and fails
exactly where the map does; the store then shows the map's liveness, and
what it creates next is fresh. -/
def NsRefined (trans : List (Int64 × OsTran)) : Prop :=
  ∃ rets store, memStoreRun .fresh trans .plenty = .ok ((rets, store), .plenty)
    ∧ failures rets = (nsRun (trans.map Prod.snd) .empty).1
    ∧ ShowsNs store (nsRun (trans.map Prod.snd) .empty).2
    ∧ CreatesFresh store

/-- Every safe run of builders' transactions from a new store refines
the plain map. -/
theorem memStore_refines_namespace {trans : List (Int64 × OsTran)}
    (hb : ∀ call ∈ trans, TranBuilt call.2) (hs : RunSafe trans .empty) :
    NsRefined trans := by
  have hempty : nsOf MemStore.fresh.view = Namespace.empty := rfl
  rw [← hempty] at hs
  obtain ⟨rets, store, hx, hreach, hfail, hview⟩ :=
    memStoreRun_ns reachable_fresh hb hs
  rw [hempty] at hfail hview
  refine ⟨rets, store, hx, hfail, ?_, hreach.ok.createsFresh hreach.keyed⟩
  rw [← hview]
  exact hreach.ok.showsNs hreach.keyed

/-- Collection 1 is created, an object of it written, removed, and
touched again in a slot whose offset is zero. -/
def createAgain : List (Int64 × OsTran) :=
  [(1, oneOp (osTranCollCreate zeroSlot 1 0)),
    (2, oneOp (osTranObjWrite zeroSlot 1 0 nameA 2 1 (some [7]))),
    (3, oneOp (osTranObjRemove zeroSlot 1 0 nameA)),
    (4, oneOp (osTranObjTouch zeroSlot 1 0 nameA))]

theorem tranBuilt_oneOp {op : OsTranOp} (h : OpBuilt op) :
    TranBuilt (oneOp op) where
  inside := Int.le_refl 1
  built := by
    intro op' hop'
    rw [show (oneOp op).ops = [op] from rfl, List.mem_singleton] at hop'
    rw [hop']
    exact h

theorem memStore_refines_namespace_again : NsRefined createAgain := by
  refine memStore_refines_namespace ?_ ?_
  · intro tran htran
    simp only [createAgain, List.mem_cons, List.not_mem_nil, or_false] at htran
    rcases htran with rfl | rfl | rfl | rfl
    · exact tranBuilt_oneOp (.collCreate _ _ _ (by decide))
    · exact tranBuilt_oneOp (.objWrite _ _ _ _ _ _ _ (by decide) (by decide)
        (by decide) fun _ => ⟨[7], rfl, by decide⟩)
    · exact tranBuilt_oneOp (.objRemove _ _ _ _ (by decide))
    · exact tranBuilt_oneOp (.objTouch _ _ _ _ (by decide))
  · refine ⟨⟨trivial, by decide, fun _ _ => trivial⟩, ⟨?_, by decide, fun _ _ => trivial⟩,
      ⟨trivial, by decide, fun _ _ => trivial⟩, ⟨?_, by decide, fun _ _ => trivial⟩, trivial⟩
    · exact fun _ => ⟨fun _ => by decide, fun _ => by decide⟩
    · exact ⟨by decide, fun _ _ => by decide⟩

/-- Collection 1 is created, then one byte is written at the last offset
an `int64_t` has. -/
def overflowRun : List (Int64 × OsTran) :=
  [(1, oneOp (osTranCollCreate zeroSlot 1 0)),
    (2, oneOp (osTranObjWrite zeroSlot 1 0 nameA 9223372036854775807 1 (some [7])))]

theorem overflowRun_built : ∀ call ∈ overflowRun, TranBuilt call.2 := by
  intro call hcall
  simp only [overflowRun, List.mem_cons, List.not_mem_nil, or_false] at hcall
  rcases hcall with rfl | rfl
  · exact tranBuilt_oneOp (.collCreate _ _ _ (by decide))
  · exact tranBuilt_oneOp (.objWrite _ _ _ _ _ _ _ (by decide) (by decide)
      (by decide) fun _ => ⟨[7], rfl, by decide⟩)

set_option maxRecDepth 8000 in
theorem memStoreRun_overflow :
    memStoreRun .fresh overflowRun .plenty = .error .outOfBounds := rfl

/-- No op of that run fails on the plain map, yet the run does not
return. -/
theorem memStore_not_refines_namespace :
    ¬∀ trans : List (Int64 × OsTran), (∀ call ∈ trans, TranBuilt call.2) →
      ∃ rets store,
        memStoreRun .fresh trans .plenty = .ok ((rets, store), .plenty)
        ∧ failures rets = (nsRun (trans.map Prod.snd) .empty).1 := by
  intro h
  obtain ⟨rets, store, hx, -⟩ := h overflowRun overflowRun_built
  rw [memStoreRun_overflow] at hx
  cases hx

end CephInC
