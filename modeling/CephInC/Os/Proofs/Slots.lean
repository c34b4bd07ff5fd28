/-
The block of slots, call after call.

`TranHolds` follows the block: the ops in its first slots, in the other
slots what `malloc` left there, eight slots to a block. A builder does one
of four things to it (`CallDone`), and `osTranCall_done` is the only proof
that looks into the builders; it asks nothing of the allocator.

A growth that is refused leaves the new length over the old block. So the
block is kept in order exactly if every growth is granted
(`blockKept_iff`), and the next call after a refused one takes a slot
behind the end.
-/
import CephInC.Os.Proofs.Junk
import CephInC.Os.Slots

namespace CephInC

open Lib

/-- The ops are in the first slots, what is behind them has the property
`P`, and there are `blocks` times eight slots. -/
structure TranHolds (P : OsTranOp → Prop) (tran : OsTran) (ops : List OsTranOp)
    (blocks : Nat) : Prop where
  length : tran.opBufferLength.toInt = 8 * blocks
  size : tran.opBuffer.length = 8 * blocks
  index : tran.opBufferIndex.toInt = ops.length
  filled : ∃ free, tran.opBuffer = ops ++ free ∧ ∀ slot ∈ free, P slot

section
variable {P : OsTranOp → Prop} {tran : OsTran} {ops : List OsTranOp} {blocks : Nat}

theorem TranHolds.le (h : TranHolds P tran ops blocks) : ops.length ≤ 8 * blocks := by
  obtain ⟨free, hfree, -⟩ := h.filled
  rw [← h.size, hfree, List.length_append]
  exact Nat.le_add_right _ _

theorem TranHolds.ok (h : TranHolds P tran ops blocks) : TranOk tran where
  length := by
    rw [h.length, h.size]
    rfl
  nonneg := by
    rw [h.index]
    exact Int.natCast_nonneg _
  inside := by
    have := h.le
    rw [h.index, h.length]
    omega

/-- The next slot is filled. -/
theorem TranHolds.fill (h : TranHolds P tran ops blocks) (hroom : ops.length < 8 * blocks)
    (call : TranCall) :
    ∃ slot, P slot ∧ tran.opBuffer[ops.length]? = some slot
      ∧ TranHolds P { tran with
          opBuffer := tran.opBuffer.set ops.length (call.fill slot)
          opBufferIndex := tran.opBufferIndex + 1 } (ops ++ [call.fill slot]) blocks := by
  obtain ⟨free, hfree, hall⟩ := h.filled
  have hsize := h.size
  have hindex := h.index
  have hlength := h.length
  have hbound := int32_bounds tran.opBufferLength
  cases free with
  | nil =>
      rw [hfree, List.append_nil] at hsize
      omega
  | cons slot rest =>
      refine ⟨slot, hall slot List.mem_cons_self, ?_, hlength, ?_, ?_, rest, ?_, ?_⟩
      · rw [hfree, List.getElem?_append_right (Nat.le_refl _), Nat.sub_self]
        rfl
      · rw [List.length_set]
        exact hsize
      · have hone : (1 : Int32).toInt = 1 := rfl
        rw [int32_toInt_add (by omega) (by omega), List.length_append, hindex, hone]
        rfl
      · show tran.opBuffer.set ops.length (call.fill slot) = _
        rw [hfree, List.set_append_right _ _ (Nat.le_refl _), Nat.sub_self, List.append_assoc]
        rfl
      · exact fun s hs => hall s (List.mem_cons_of_mem _ hs)

variable {junk : Junk} (hjunk : ∀ n i, P (junk n i))
include hjunk

/-- Another block of eight slots. -/
theorem TranHolds.grow (h : TranHolds P tran ops blocks) (hfull : ops.length = 8 * blocks)
    {length : Int32} (hlength : length.toInt = 8 * (blocks + 1)) :
    TranHolds P { tran with
      opBufferLength := length
      opBuffer := tran.opBuffer.take (8 * blocks)
        ++ (osTranOpBlock junk length).drop (8 * blocks) } ops (blocks + 1) := by
  obtain ⟨free, hfree, -⟩ := h.filled
  have hsize := h.size
  have hnat : length.toInt.toNat = 8 * (blocks + 1) := by omega
  have hold : tran.opBuffer.take (8 * blocks) = ops := by
    rw [hfree, ← hfull, List.take_left]
  refine ⟨?_, ?_, h.index, _, by rw [hold], ?_⟩
  · rw [hlength]
    rfl
  · rw [hold, List.length_append, List.length_drop, osTranOpBlock_length, hnat]
    omega
  · intro slot hslot
    obtain ⟨i, -, rfl⟩ := List.mem_map.mp (List.mem_of_mem_drop hslot)
    exact hjunk length i

/-- A new transaction has one block of eight slots. -/
theorem osTranNew_holds {ret : Int} {s s' : Allocs}
    (h : osTranNew junk s = .ok ((ret, some tran), s')) :
    ret = CCEPH_OK ∧ s' = s.tail.tail ∧ TranHolds P tran [] 1 := by
  unfold osTranNew at h
  obtain ⟨granted, s₁, hm₁, h⟩ := bind_eq_ok h
  cases hm₁
  split at h
  · cases h
  obtain ⟨granted', s₂, hm₂, h⟩ := bind_eq_ok h
  cases hm₂
  split at h
  · cases h
  cases h
  refine ⟨rfl, rfl, rfl, ?_, rfl, _, rfl, ?_⟩
  · rw [osTranOpBlock_length]
    rfl
  · intro slot hslot
    have hmem : slot ∈ osTranOpBlock junk CCEPH_OS_TRAN_OP_LIST_SIZE := hslot
    obtain ⟨i, -, rfl⟩ := List.mem_map.mp hmem
    exact hjunk _ i

end

-- =============================================================== one call

/-- What looking for room comes to, where `ops` are filled of `blocks`
times eight slots. -/
inductive CheckDone (P : OsTranOp → Prop) (tran : OsTran) (ops : List OsTranOp) (blocks : Nat)
    (s : Allocs) : Except Fault ((Int × OsTran) × Allocs) → Prop
  | room (hroom : ops.length < 8 * blocks) :
      CheckDone P tran ops blocks s (.ok ((CCEPH_OK, tran), s))
  | grown (tran') (hfull : ops.length = 8 * blocks) (hgrant : s.head = true)
      (hfits : 8 * (blocks + 1) < 2 ^ 31) (h : TranHolds P tran' ops (blocks + 1)) :
      CheckDone P tran ops blocks s (.ok ((CCEPH_OK, tran'), s.tail))
  | refused (tran') (hfull : ops.length = 8 * blocks)
      (hno : ¬(s.head = true ∧ 8 * (blocks + 1) < 2 ^ 31)) (hbroken : ¬TranOk tran') :
      CheckDone P tran ops blocks s (.ok ((CCEPH_ERR_NO_ENOUGH_MEM, tran'), s.tail))

/-- What a builder comes to, where `ops` are filled of `blocks` times
eight slots. -/
inductive CallDone (P : OsTranOp → Prop) (tran : OsTran) (ops : List OsTranOp) (blocks : Nat)
    (call : TranCall) (s : Allocs) : Except Fault ((Int × OsTran) × Allocs) → Prop
  | refusedArgs (hcall : call.accepted = false) :
      CallDone P tran ops blocks call s (.error .assertFail)
  | room (slot tran') (hcall : call.accepted = true) (hroom : ops.length < 8 * blocks)
      (hslot : P slot) (h : TranHolds P tran' (ops ++ [call.fill slot]) blocks) :
      CallDone P tran ops blocks call s (.ok ((CCEPH_OK, tran'), s))
  | grown (slot tran') (hcall : call.accepted = true) (hfull : ops.length = 8 * blocks)
      (hgrant : s.head = true) (hfits : 8 * (blocks + 1) < 2 ^ 31) (hslot : P slot)
      (h : TranHolds P tran' (ops ++ [call.fill slot]) (blocks + 1)) :
      CallDone P tran ops blocks call s (.ok ((CCEPH_OK, tran'), s.tail))
  | refused (tran') (hcall : call.accepted = true) (hfull : ops.length = 8 * blocks)
      (hno : ¬(s.head = true ∧ 8 * (blocks + 1) < 2 ^ 31)) (hbroken : ¬TranOk tran') :
      CallDone P tran ops blocks call s (.ok ((CCEPH_ERR_NO_ENOUGH_MEM, tran'), s.tail))

section
variable {P : OsTranOp → Prop} {junk : Junk} {tran : OsTran} {ops : List OsTranOp}
variable {blocks : Nat} (hjunk : ∀ n i, P (junk n i))
include hjunk

theorem osTranCheckOpBufferSize_done (h : TranHolds P tran ops blocks) (s : Allocs) :
    CheckDone P tran ops blocks s (osTranCheckOpBufferSize junk tran s) := by
  have hle := h.le
  have hlength := h.length
  have hindex := h.index
  have hsize := h.size
  have hbound := int32_bounds tran.opBufferLength
  have height : CCEPH_OS_TRAN_OP_LIST_SIZE.toInt = 8 := rfl
  have hinside : tran.opBufferIndex ≤ tran.opBufferLength := by
    rw [Int32.le_iff_toInt_le]
    omega
  unfold osTranCheckOpBufferSize
  rw [assert_pos hinside, pure_bind]
  by_cases hroom : ops.length < 8 * blocks
  · have hlt : tran.opBufferIndex < tran.opBufferLength := by
      rw [Int32.lt_iff_toInt_lt]
      omega
    simp only [if_pos hlt]
    exact .room hroom
  have hfull : ops.length = 8 * blocks := by omega
  have hnlt : ¬tran.opBufferIndex < tran.opBufferLength := by
    rw [Int32.lt_iff_toInt_lt]
    omega
  have heq : tran.opBufferIndex = tran.opBufferLength := by
    rw [← Int32.toInt_inj]
    omega
  have hold : tran.opBufferLength.toInt.toNat = 8 * blocks := by omega
  simp only [if_neg hnlt, assert_pos heq, pure_bind]
  by_cases hfits : 8 * (blocks + 1) < 2 ^ 31
  · have hnext : (tran.opBufferLength + CCEPH_OS_TRAN_OP_LIST_SIZE).toInt
        = 8 * (blocks + 1) := by
      rw [int32_toInt_add (by omega) (by omega), height]
      omega
    have hbytes : sizeT (sizeofOsTranOp
        * (tran.opBufferLength + CCEPH_OS_TRAN_OP_LIST_SIZE).toInt) < 2 ^ 63 := by
      unfold sizeofOsTranOp
      rw [hnext, sizeT_of_nonneg (by omega) (by omega)]
      omega
    rw [bind_ok (malloc_run hbytes s)]
    cases hgrant : s.head with
    | false =>
        refine .refused _ hfull (by simp [hgrant]) fun hok => ?_
        have := hok.length
        simp only [hnext, hsize] at this
        omega
    | true =>
        have hnshort : ¬tran.opBuffer.length < 8 * blocks := by omega
        simp only [Bool.not_true, Bool.false_eq_true, if_false, hold, if_neg hnshort]
        exact .grown _ hfull hgrant hfits (h.grow hjunk hfull hnext)
  · -- the sum of the lengths wraps, and no block is so long
    have hnext : (tran.opBufferLength + CCEPH_OS_TRAN_OP_LIST_SIZE).toInt
        = tran.opBufferLength.toInt + 8 - 2 ^ 32 := by
      rw [Int32.toInt_add, height, Int.bmod_def]
      split <;> omega
    have hbytes : ¬sizeT (sizeofOsTranOp
        * (tran.opBufferLength + CCEPH_OS_TRAN_OP_LIST_SIZE).toInt) < 2 ^ 63 := by
      unfold sizeofOsTranOp
      rw [hnext]
      exact sizeT_of_neg (by omega) (by omega)
    rw [bind_ok (malloc_refused hbytes s)]
    refine .refused _ hfull (fun hand => hfits hand.2) fun hok => ?_
    have := hok.length
    simp only [hnext] at this
    omega

theorem osTranCall_done (h : TranHolds P tran ops blocks) (call : TranCall) (s : Allocs) :
    CallDone P tran ops blocks call s (osTranCall junk tran call s) := by
  have hfill : ∀ {tran' : OsTran} {blocks' : Nat}, TranHolds P tran' ops blocks' →
      tran'.opBufferIndex.toInt.toNat = ops.length := by
    intro tran' blocks' h'
    rw [h'.index]
    exact Int.toNat_natCast _
  unfold osTranCall
  cases hcall : call.accepted with
  | false =>
      rw [assert_neg Bool.false_ne_true, fault_bind]
      exact .refusedArgs hcall
  | true =>
      rw [assert_pos rfl, pure_bind]
      have hcheck := osTranCheckOpBufferSize_done hjunk h s
      unfold osTranNewOp
      rw [bind_run]
      generalize osTranCheckOpBufferSize junk tran s = x at hcheck
      cases hcheck with
      | room hroom =>
          obtain ⟨slot, hslot, hget, hfilled⟩ := h.fill hroom call
          simp only [ne_eq, not_true_eq_false, if_false, hfill h, hget]
          exact .room slot _ hcall hroom hslot hfilled
      | grown tran' hfull hgrant hfits h' =>
          obtain ⟨slot, hslot, hget, hfilled⟩ := h'.fill (by omega) call
          simp only [ne_eq, not_true_eq_false, if_false, hfill h', hget]
          exact .grown slot _ hcall hfull hgrant hfits hslot hfilled
      | refused tran' hfull hno hbroken => exact .refused tran' hcall hfull hno hbroken

end

-- ========================================================== call after call

section
variable {junk : Junk} {tran : OsTran} {call : TranCall} {calls : List TranCall} {s : Allocs}

theorem BlockKept.start (h : BlockKept junk tran calls s) : TranOk tran :=
  h [] (List.nil_prefix ..)

theorem blockKept_nil (h : TranOk tran) : BlockKept junk tran [] s := by
  intro done hdone
  rw [List.prefix_nil.mp hdone]
  exact h

/-- The first call leaves the block, or aborts; the others start there. -/
theorem blockKept_error {e : Fault} (hrun : osTranCall junk tran call s = .error e)
    (h : TranOk tran) (he : e ≠ .outOfBounds) : BlockKept junk tran (call :: calls) s := by
  intro done hdone
  cases List.prefix_cons_iff.mp hdone with
  | inl hnil =>
      rw [hnil]
      exact h
  | inr hcons =>
      obtain ⟨rest, rfl, -⟩ := hcons
      rw [osTranCalls, bind_error hrun]
      exact he

theorem blockKept_cons {ret : Int} {tran' : OsTran} {s' : Allocs}
    (hrun : osTranCall junk tran call s = .ok ((ret, tran'), s')) :
    BlockKept junk tran (call :: calls) s ↔ TranOk tran ∧ BlockKept junk tran' calls s' := by
  have hcalls : ∀ rest, osTranCalls junk tran (call :: rest) s
      = (osTranCalls junk tran' rest s').map fun r => ((ret :: r.1.1, r.1.2), r.2) := by
    intro rest
    rw [osTranCalls, bind_ok hrun]
    simp only
    rw [bind_run]
    cases osTranCalls junk tran' rest s' <;> rfl
  constructor
  · refine fun h => ⟨h.start, fun rest hrest => ?_⟩
    have hkept := h (call :: rest) (List.cons_prefix_cons.mpr ⟨rfl, hrest⟩)
    rw [hcalls] at hkept
    cases hx : osTranCalls junk tran' rest s' with
    | error e =>
        rw [hx] at hkept
        exact hkept
    | ok r =>
        rw [hx] at hkept
        exact hkept
  · intro h done hdone
    cases List.prefix_cons_iff.mp hdone with
    | inl hnil =>
        rw [hnil]
        exact h.1
    | inr hcons =>
        obtain ⟨rest, rfl, hrest⟩ := hcons
        have hkept := h.2 rest hrest
        rw [hcalls]
        cases hx : osTranCalls junk tran' rest s' with
        | error e =>
            rw [hx] at hkept
            exact hkept
        | ok r =>
            rw [hx] at hkept
            exact hkept

end

section
variable {n blocks : Nat} {s : Allocs}

theorem growthGranted_full (h : n ≤ 8 * blocks) : GrowthGranted n blocks s := by
  intro k hk
  omega

/-- The next growth, and those after it. -/
theorem growthGranted_next (h : 8 * blocks < n) :
    GrowthGranted n blocks s
      ↔ (s.head = true ∧ 8 * (blocks + 1) < 2 ^ 31) ∧ GrowthGranted n (blocks + 1) s.tail := by
  constructor
  · refine fun hall => ⟨hall 0 h, fun k hk => ?_⟩
    have := hall (k + 1) (by omega)
    rw [show blocks + 1 + k = blocks + (k + 1) by omega]
    exact this
  · intro hall k hk
    cases k with
    | zero => exact hall.1
    | succ k =>
        have := hall.2 k (by omega)
        rw [show blocks + 1 + k = blocks + (k + 1) by omega] at this
        exact this

end

theorem calls_kept_iff {P : OsTranOp → Prop} {junk : Junk} (hjunk : ∀ n i, P (junk n i))
    {calls : List TranCall} : ∀ {tran : OsTran} {ops : List OsTranOp} {blocks : Nat} {s : Allocs},
    TranHolds P tran ops blocks →
    (BlockKept junk tran calls s
      ↔ GrowthGranted (ops.length + (acceptedCalls calls).length) blocks s) := by
  induction calls with
  | nil =>
      intro tran ops blocks s h
      exact ⟨fun _ => growthGranted_full h.le, fun _ => blockKept_nil h.ok⟩
  | cons call calls ih =>
      intro tran ops blocks s h
      have hdone := osTranCall_done hjunk h call s
      have haccepted : call.accepted = true →
          (acceptedCalls (call :: calls)).length = (acceptedCalls calls).length + 1 := by
        intro hcall
        unfold acceptedCalls
        rw [List.takeWhile_cons_of_pos hcall]
        rfl
      have hnext : ∀ slot, (ops ++ [call.fill slot]).length + (acceptedCalls calls).length
          = ops.length + ((acceptedCalls calls).length + 1) := by
        intro slot
        rw [List.length_append, List.length_singleton]
        omega
      cases hrun : osTranCall junk tran call s with
      | error e =>
          rw [hrun] at hdone
          cases hdone with
          | refusedArgs hcall =>
              have hnone : acceptedCalls (call :: calls) = [] := by
                unfold acceptedCalls
                rw [List.takeWhile_cons_of_neg (by rw [hcall]; exact Bool.false_ne_true)]
              rw [hnone]
              exact ⟨fun _ => growthGranted_full h.le,
                fun _ => blockKept_error hrun h.ok (by decide)⟩
      | ok r =>
          obtain ⟨⟨ret, tran'⟩, s'⟩ := r
          rw [hrun] at hdone
          rw [blockKept_cons hrun]
          cases hdone with
          | room slot _ hcall hroom hslot h' =>
              rw [ih h', hnext, haccepted hcall]
              exact and_iff_right h.ok
          | grown slot _ hcall hfull hgrant hfits hslot h' =>
              have hmore : 8 * blocks < ops.length + ((acceptedCalls calls).length + 1) := by
                omega
              rw [ih h', hnext, haccepted hcall, growthGranted_next hmore]
              exact ⟨fun hkept => ⟨⟨hgrant, hfits⟩, hkept.2⟩, fun hall => ⟨h.ok, hall.2⟩⟩
          | refused _ hcall hfull hno hbroken =>
              have hmore : 8 * blocks < ops.length + ((acceptedCalls calls).length + 1) := by
                omega
              rw [haccepted hcall, growthGranted_next hmore]
              exact ⟨fun hkept => absurd hkept.2.start hbroken, fun hall => absurd hall.1 hno⟩

-- ======================================================= the main result

/-- The block is kept in order, whatever is called, exactly if each growth
it comes to is granted. -/
theorem blockKept_iff {junk : Junk} {tran : OsTran} {s₀ s : Allocs}
    (hnew : osTranNew junk s₀ = .ok ((CCEPH_OK, some tran), s)) (calls : List TranCall) :
    BlockKept junk tran calls s ↔ GrowthGranted (acceptedCalls calls).length 1 s := by
  obtain ⟨-, -, h⟩ := osTranNew_holds (P := fun _ => True) (fun _ _ => trivial) hnew
  rw [calls_kept_iff (fun _ _ => trivial) h, List.length_nil, Nat.zero_add]

/-- A new transaction, in blocks of zeros. -/
def tranEmpty : OsTran := ⟨osTranOpBlock junkZero CCEPH_OS_TRAN_OP_LIST_SIZE, 8, 0⟩

/-- Ten times collection 1 is created. -/
def createTen : List TranCall := List.replicate 10 (.collCreate 1 7)

theorem osTranNew_empty (s : Allocs) (h : s.head = true) (h' : s.tail.head = true) :
    osTranNew junkZero s = .ok ((CCEPH_OK, some tranEmpty), s.tail.tail) := by
  unfold osTranNew
  rw [bind_ok (malloc_run (by decide) s), h]
  simp only [Bool.not_true, Bool.false_eq_true, if_false]
  rw [bind_ok (malloc_run (by decide) s.tail), h']
  rfl

theorem blockKept_iff_ten : BlockKept junkZero tranEmpty createTen .plenty := by
  refine (blockKept_iff (osTranNew_empty .plenty rfl rfl) createTen).mpr fun k hk => ?_
  have hlength : (acceptedCalls createTen).length = 10 := rfl
  exact ⟨rfl, by omega⟩

/-- The growth for the ninth op is refused. The tenth call then fills a
slot behind the end of the block. -/
theorem block_not_kept :
    ¬∀ (junk : Junk) (tran : OsTran) (s₀ s : Allocs) (calls : List TranCall),
      osTranNew junk s₀ = .ok ((CCEPH_OK, some tran), s) → BlockKept junk tran calls s := by
  intro h
  have hkept := h junkZero tranEmpty ⟨fun n => n ≠ 2⟩ _ createTen (osTranNew_empty _ rfl rfl)
    createTen List.prefix_rfl
  have hrun : osTranCalls junkZero tranEmpty createTen (Allocs.tail (Allocs.tail ⟨fun n => n ≠ 2⟩))
      = .error .outOfBounds := rfl
  rw [hrun] at hkept
  exact hkept rfl

end CephInC
