/-
A transaction is the list of its builder calls.

As long as every builder returns `CCEPH_OK`, the block holds one op for
each call (`osTranCalls_holds`), whatever was in the slots before and
through every growth. The count, the slots and the submission are then
read off the block: the loop of `submit_tran` takes one op of the list
after the other (`memStoreSubmitTranLoop_ops`).
-/
import CephInC.Os.Proofs.Slots
import Mathlib.Data.List.Forall2

namespace CephInC

open Lib

-- ============================================================== the slots

/-- The op is what the builder leaves in a slot with the property `P`. -/
def FilledBy (P : OsTranOp → Prop) (call : TranCall) (op : OsTranOp) : Prop :=
  call.accepted = true ∧ ∃ slot, P slot ∧ op = call.fill slot

/-- A builder assigns the kind, the collection, the `log_id` and its
arguments, and its pointers are not NULL. -/
theorem TranCall.fill_heldBy {call : TranCall} (h : call.accepted = true) (slot : OsTranOp) :
    call.HeldBy (call.fill slot) := by
  cases call with
  | collCreate cid logId => exact ⟨rfl, rfl, rfl⟩
  | collRemove cid logId => exact ⟨rfl, rfl, rfl⟩
  | collMap cid map logId =>
      obtain ⟨nodes, rfl⟩ := Option.isSome_iff_exists.mp h
      exact ⟨rfl, rfl, rfl, rfl⟩
  | objTouch cid oid logId =>
      obtain ⟨name, rfl⟩ := Option.isSome_iff_exists.mp h
      exact ⟨rfl, rfl, rfl, rfl⟩
  | objWrite cid oid offset length data logId =>
      obtain ⟨hoid, -⟩ := of_decide_eq_true h
      obtain ⟨name, rfl⟩ := Option.isSome_iff_exists.mp hoid
      exact ⟨rfl, rfl, rfl, rfl, rfl, rfl, rfl⟩
  | objMap cid oid map logId =>
      obtain ⟨hoid, hmap⟩ := of_decide_eq_true h
      obtain ⟨name, rfl⟩ := Option.isSome_iff_exists.mp hoid
      obtain ⟨nodes, rfl⟩ := Option.isSome_iff_exists.mp hmap
      exact ⟨rfl, rfl, rfl, rfl, rfl⟩
  | objRemove cid oid logId =>
      obtain ⟨name, rfl⟩ := Option.isSome_iff_exists.mp h
      exact ⟨rfl, rfl, rfl, rfl⟩

section
variable {P : OsTranOp → Prop} {junk : Junk} (hjunk : ∀ n i, P (junk n i))
include hjunk

/-- Builders that return `CCEPH_OK` fill one slot each. -/
theorem osTranCalls_holds {calls : List TranCall} : ∀ {tran tran' : OsTran}
    {ops : List OsTranOp} {blocks : Nat} {rets : List Int} {s s' : Allocs},
    TranHolds P tran ops blocks →
    osTranCalls junk tran calls s = .ok ((rets, tran'), s') →
    (∀ ret ∈ rets, ret = CCEPH_OK) →
    ∃ ops' blocks', TranHolds P tran' (ops ++ ops') blocks'
      ∧ List.Forall₂ (FilledBy P) calls ops' := by
  induction calls with
  | nil =>
      intro tran tran' ops blocks rets s s' h hrun _
      cases hrun
      refine ⟨[], blocks, ?_, .nil⟩
      rw [List.append_nil]
      exact h
  | cons call calls ih =>
      intro tran tran' ops blocks rets s s' h hrun hrets
      unfold osTranCalls at hrun
      obtain ⟨⟨ret, mid⟩, s₁, hcall, hrun⟩ := bind_eq_ok hrun
      obtain ⟨⟨rets', tran''⟩, s₂, hcalls, hrun⟩ := bind_eq_ok hrun
      cases hrun
      obtain rfl := hrets ret List.mem_cons_self
      have hrest := fun r hr => hrets r (List.mem_cons_of_mem _ hr)
      have hdone := osTranCall_done hjunk h call s
      rw [hcall] at hdone
      have hnext : ∀ {slot blocks₁}, call.accepted = true → P slot →
          TranHolds P mid (ops ++ [call.fill slot]) blocks₁ →
          ∃ ops' blocks', TranHolds P tran' (ops ++ ops') blocks'
            ∧ List.Forall₂ (FilledBy P) (call :: calls) ops' := by
        intro slot blocks₁ haccepted hslot hmid
        obtain ⟨ops', blocks', hholds, hall⟩ := ih hmid hcalls hrest
        refine ⟨call.fill slot :: ops', blocks', ?_, .cons ⟨haccepted, slot, hslot, rfl⟩ hall⟩
        rw [List.append_assoc] at hholds
        exact hholds
      cases hdone with
      | room slot _ haccepted _ hslot hmid => exact hnext haccepted hslot hmid
      | grown slot _ haccepted _ _ _ hslot hmid => exact hnext haccepted hslot hmid

theorem osTranBuild_holds {calls : List TranCall} {tran : OsTran} {rets : List Int}
    {s s' : Allocs} (hrun : osTranBuild junk calls s = .ok ((rets, tran), s'))
    (hrets : ∀ ret ∈ rets, ret = CCEPH_OK) :
    ∃ ops blocks, TranHolds P tran ops blocks ∧ List.Forall₂ (FilledBy P) calls ops := by
  unfold osTranBuild at hrun
  obtain ⟨⟨ret, new⟩, s₁, hnew, hrun⟩ := bind_eq_ok hrun
  obtain ⟨hsome, hrun⟩ := assert_bind_eq_ok hrun
  obtain ⟨tran₀, rfl⟩ := Option.isSome_iff_exists.mp hsome
  rw [deref_some, pure_bind] at hrun
  obtain ⟨-, -, hempty⟩ := osTranNew_holds hjunk hnew
  exact osTranCalls_holds hjunk hempty hrun hrets

end

-- ============================================================= submission

section
variable {P : OsTranOp → Prop} {tran : OsTran} {ops : List OsTranOp} {blocks : Nat}

theorem TranHolds.getOp (h : TranHolds P tran ops blocks) (i : Nat) :
    osTranGetOp tran i = .ok ops[i]? := by
  obtain ⟨free, hfree, -⟩ := h.filled
  have hindex := h.index
  unfold osTranGetOp
  by_cases hi : i < ops.length
  · have hlt : ¬(i : Int) ≥ tran.opBufferIndex.toInt := by omega
    rw [if_neg hlt, hfree, List.getElem?_append_left hi, List.getElem?_eq_getElem hi]
  · have hge : (i : Int) ≥ tran.opBufferIndex.toInt := by omega
    rw [if_pos hge, List.getElem?_eq_none (Nat.le_of_not_lt hi)]

/-- The rest of the loop is the rest of the ops. -/
theorem memStoreSubmitTranLoop_ops (h : ∀ i, osTranGetOp tran i = .ok ops[i]?)
    {rest : List OsTranOp} : ∀ {done : List OsTranOp} {store : MemStore}, ops = done ++ rest →
    store.lock.held = true →
    memStoreSubmitTranLoop tran rest.length done.length store = do
      let r ← memStoreRunOps rest store.colls
      return (r.1, { store with colls := r.2 }) := by
  induction rest with
  | nil =>
      intro done store _ _
      rfl
  | cons op rest ih =>
      intro done store hops hheld
      have hop : osTranGetOp tran done.length = .ok (some op) := by
        rw [h, hops, List.getElem?_append_right (Nat.le_refl _), Nat.sub_self]
        rfl
      have hnext : ∀ colls, memStoreSubmitTranLoop tran rest.length (done.length + 1)
            { store with colls }
          = (do
              let r ← memStoreRunOps rest colls
              return (r.1, { store with colls := r.2 })) := by
        intro colls
        have hsplit : ops = (done ++ [op]) ++ rest := by
          rw [hops, List.append_assoc]
          rfl
        have hrest := @ih (done ++ [op]) { store with colls } hsplit hheld
        rw [List.length_append] at hrest
        exact hrest
      rw [List.length_cons, memStoreSubmitTranLoop_turn hop _ hheld, memStoreRunOps]
      simp only [hnext, bind_assoc]
      congr 1
      funext r
      by_cases hret : r.1 ≠ CCEPH_OK
      · simp only [if_pos hret, pure_bind]
      · simp only [if_neg hret]

theorem TranHolds.isCalls (h : TranHolds P tran ops blocks) {calls : List TranCall}
    (hcalls : List.Forall₂ (FilledBy P) calls ops) : TranIsCalls tran calls ops where
  count := by
    show tran.opBufferIndex.toInt = _
    rw [h.index, hcalls.length_eq]
  held := hcalls.imp fun call op hfilled => by
    obtain ⟨haccepted, slot, -, rfl⟩ := hfilled
    exact call.fill_heldBy haccepted slot
  slots := h.getOp
  submit := by
    intro store
    have hcount : (osTranGetOpCount tran).toInt.toNat = ops.length := by
      show tran.opBufferIndex.toInt.toNat = _
      rw [h.index]
      exact Int.toNat_natCast _
    have hrest : ∀ held : MemStore, held.lock.held = true →
        memStoreSubmitTranLoop tran (osTranGetOpCount tran).toInt.toNat 0 held
          = (do
              let r ← memStoreRunOps ops held.colls
              return (r.1, { held with colls := r.2 })) := by
      intro held hheld
      rw [hcount]
      exact memStoreSubmitTranLoop_ops h.getOp (List.nil_append ops).symm hheld
    unfold memStoreSubmitTran pthreadMutexLock
    by_cases hheld : store.lock.held = true
    · simp only [if_pos hheld, fault_bind]
    · simp only [if_neg hheld, pure_bind]
      rw [hrest _ rfl, bind_assoc]
      rfl

end

-- ========================================================= enough memory

/-- While memory lasts the builders return `CCEPH_OK`, up to the last block
of slots whose length is an `int32_t`. -/
theorem osTranCalls_returns (junk : Junk) {calls : List TranCall} : ∀ {tran : OsTran}
    {ops : List OsTranOp} {blocks : Nat}, TranHolds (fun _ => True) tran ops blocks →
    (∀ call ∈ calls, call.accepted = true) → ops.length + calls.length ≤ 2 ^ 31 - 8 →
    ∃ rets tran', osTranCalls junk tran calls .plenty = .ok ((rets, tran'), .plenty)
      ∧ ∀ ret ∈ rets, ret = CCEPH_OK := by
  induction calls with
  | nil =>
      intro tran ops blocks h _ _
      exact ⟨[], tran, rfl, fun ret hret => absurd hret List.not_mem_nil⟩
  | cons call calls ih =>
      intro tran ops blocks h haccepted hfew
      rw [List.length_cons] at hfew
      have hdone : CallDone _ tran ops blocks call .plenty (osTranCall junk tran call .plenty) :=
        osTranCall_done (fun _ _ => trivial) h call .plenty
      have hnext : ∀ {slot mid blocks'}, osTranCall junk tran call .plenty
            = .ok ((CCEPH_OK, mid), .plenty) →
          TranHolds (fun _ => True) mid (ops ++ [call.fill slot]) blocks' →
          ∃ rets tran', osTranCalls junk tran (call :: calls) .plenty
              = .ok ((rets, tran'), .plenty)
            ∧ ∀ ret ∈ rets, ret = CCEPH_OK := by
        intro slot mid blocks' hrun hmid
        have hcount : (ops ++ [call.fill slot]).length + calls.length ≤ 2 ^ 31 - 8 := by
          rw [List.length_append, List.length_singleton]
          omega
        obtain ⟨rets, tran', hcalls, hrets⟩ :=
          ih hmid (fun c hc => haccepted c (List.mem_cons_of_mem _ hc)) hcount
        refine ⟨CCEPH_OK :: rets, tran', ?_, List.forall_mem_cons.mpr ⟨rfl, hrets⟩⟩
        rw [osTranCalls, bind_ok hrun]
        simp only
        rw [bind_ok hcalls]
        rfl
      cases hrun : osTranCall junk tran call .plenty with
      | error e =>
          rw [hrun] at hdone
          cases hdone with
          | refusedArgs hcall =>
              rw [haccepted call List.mem_cons_self] at hcall
              cases hcall
      | ok r =>
          rw [hrun] at hdone
          cases hdone with
          | room slot mid _ _ _ hmid => exact hnext hrun hmid
          | grown slot mid _ _ _ _ _ hmid => exact hnext hrun hmid
          | refused mid _ hfull hno _ => exact absurd ⟨rfl, by omega⟩ hno

theorem osTranBuild_returns (junk : Junk) {calls : List TranCall}
    (haccepted : ∀ call ∈ calls, call.accepted = true) (hfew : calls.length ≤ 2 ^ 31 - 8) :
    ∃ rets tran, osTranBuild junk calls .plenty = .ok ((rets, tran), .plenty)
      ∧ ∀ ret ∈ rets, ret = CCEPH_OK := by
  have hnew : osTranNew junk .plenty = .ok ((CCEPH_OK, some ⟨osTranOpBlock junk
      CCEPH_OS_TRAN_OP_LIST_SIZE, CCEPH_OS_TRAN_OP_LIST_SIZE, 0⟩), .plenty) := rfl
  obtain ⟨-, -, hempty⟩ := osTranNew_holds (P := fun _ => True) (fun _ _ => trivial) hnew
  unfold osTranBuild
  rw [bind_ok hnew]
  exact osTranCalls_returns junk hempty haccepted
    (by rw [List.length_nil, Nat.zero_add]; exact hfew)

-- ======================================================= the main result

/-- What builders that all return `CCEPH_OK` leave is the list of their
calls; and they all do while memory lasts and an `int32_t` counts the
slots. -/
theorem tran_isCalls (junk : Junk) (calls : List TranCall) :
    (∀ rets tran s s', osTranBuild junk calls s = .ok ((rets, tran), s') →
        (∀ ret ∈ rets, ret = CCEPH_OK) → ∃ ops, TranIsCalls tran calls ops)
      ∧ ((∀ call ∈ calls, call.accepted = true) → calls.length ≤ 2 ^ 31 - 8 →
        ∃ rets tran, osTranBuild junk calls .plenty = .ok ((rets, tran), .plenty)
          ∧ ∀ ret ∈ rets, ret = CCEPH_OK) := by
  refine ⟨fun rets tran s s' hrun hrets => ?_, osTranBuild_returns junk⟩
  obtain ⟨ops, blocks, hholds, hcalls⟩ :=
    osTranBuild_holds (P := fun _ => True) (fun _ _ => trivial) hrun hrets
  exact ⟨ops, hholds.isCalls hcalls⟩

/-- Nine calls, the last of them in the second block. -/
def createNine : List TranCall := List.replicate 9 (.collCreate 1 7)

theorem tran_isCalls_nine :
    ∃ rets tran s ops, osTranBuild junkZero createNine .plenty = .ok ((rets, tran), s)
      ∧ TranIsCalls tran createNine ops := by
  have hlaw := tran_isCalls junkZero createNine
  have haccepted : ∀ call ∈ createNine, call.accepted = true := by
    intro call hcall
    rw [List.eq_of_mem_replicate hcall]
    rfl
  obtain ⟨rets, tran, hrun, hrets⟩ := hlaw.2 haccepted (by decide)
  obtain ⟨ops, hcalls⟩ := hlaw.1 rets tran _ _ hrun hrets
  exact ⟨rets, tran, _, ops, hrun, hcalls⟩

end CephInC
