/-
An append that is refused a block on the way.

What it has copied by then stays, and so do the blocks it was granted.
So the buffer is as before only if the very first byte takes a block and
is refused it, or nothing is refused at all
(`bufferAppend_kept_iff`).
-/
import CephInC.Common.Proofs.Encode

namespace CephInC

open Lib

/-- The offset, `cceph_buffer_flat` and a new reader do not tell the one buffer
from the other. -/
structure SeenSame (buffer buffer' : Buffer) : Prop where
  offset : buffer'.offset = buffer.offset
  flat : ∀ s, bufferFlat buffer' s = bufferFlat buffer s
  read : ∀ sizes s, bufferReadBack buffer' sizes s = bufferReadBack buffer sizes s

/-- If the append fails, the buffer is as before. -/
def KeptIfFailed (buffer : Buffer) (data : List UInt8) (s : Allocs) : Prop :=
  ∀ ret buffer' s', bufferAppend buffer data (Int32.ofNat data.length) s
      = .ok ((ret, buffer'), s') → ret ≠ CCEPH_OK → SeenSame buffer buffer'

/-- Of the blocks that `n` bytes behind `content` take, none is refused, or
already the one that the first byte takes. -/
def RefusedFirst (content n : Nat) (s : Allocs) : Prop :=
  s.Grants (newBlocks content n) ∨ newBlocks content 1 = 1 ∧ s.head = false

theorem seenSame_refl (buffer : Buffer) : SeenSame buffer buffer :=
  ⟨rfl, fun _ => rfl, fun _ _ => rfl⟩

section
variable {buffer : Buffer} {full : List BufferNode} {last : BufferNode}
variable {data : List UInt8} {length : Int32} {s : Allocs}

-- ===================================================== refused at the start

/-- The first byte takes a block if the last one is full. -/
theorem BufferOk.newBlocks_one (h : BufferOk buffer full last) :
    newBlocks buffer.content.length 1 = 1 ↔ last.ptr = CCEPH_BUFFER_NODE_LENGTH := by
  have hlength := h.content_length
  have hblocks := h.blocks
  have hptr := h.lastOk.ptr
  unfold newBlocks blocksFor CCEPH_BUFFER_NODE_LENGTH at *
  omega

/-- Refused that one, the append has not done anything. -/
theorem bufferAppend_refused (h : BufferOk buffer full last) (hpos : 0 < length.toInt)
    (hfull : last.ptr = CCEPH_BUFFER_NODE_LENGTH) (hs : s.head = false) :
    bufferAppend buffer data length s = .ok ((CCEPH_ERR_NO_ENOUGH_MEM, buffer), s.tail) := by
  obtain ⟨turns, hturns⟩ : ∃ turns, length.toInt.toNat = turns + 1 :=
    ⟨length.toInt.toNat - 1, by omega⟩
  have hroom := bufferRoom_done h.toChainOk s
  unfold bufferAppend
  rw [assert_pos (int32_pos_iff.mpr hpos), pure_bind, hturns]
  unfold bufferAppendLoop
  rw [if_pos (int32_pos_iff.mpr hpos)]
  simp only
  rw [bind_run]
  generalize bufferRoom buffer s = out at hroom
  cases hroom with
  | space hspace => omega
  | refused _ _ => rfl
  | grown _ hgranted =>
      rw [hs] at hgranted
      cases hgranted

-- ====================================================== nothing is refused

/-- The current node of a buffer whose counts may be anything. -/
structure AtNode (buffer : Buffer) (last : BufferNode) : Prop where
  node : buffer.nodes[buffer.current]? = some last
  ok : BlockOk last

/-- How many blocks `n` bytes take behind a node with `ptr` bytes in it. -/
def blocksBehind (ptr n : Nat) : Nat := (ptr + n - 1) / CCEPH_BUFFER_NODE_LENGTH

theorem AtNode.node_current (h : AtNode buffer last) :
    buffer.node buffer.current = pure last := by
  unfold Buffer.node
  rw [h.node]
  rfl

/-- Room is made without a failure, if a block that this takes is granted. -/
theorem AtNode.room (h : AtNode buffer last) {n : Nat} (hn : 0 < n)
    (hgrants : s.Grants (blocksBehind last.ptr n)) :
    ∃ buffer' last' s', bufferRoom buffer s = .ok ((CCEPH_OK, buffer'), s')
      ∧ AtNode buffer' last' ∧ last'.ptr < CCEPH_BUFFER_NODE_LENGTH
      ∧ s'.Grants (blocksBehind last'.ptr n) := by
  have hptr := h.ok.ptr
  have hempty := h.ok.emptySize
  unfold bufferRoom
  rw [h.node_current, pure_bind]
  by_cases hzero : last.emptySize = 0
  · have hfull : last.ptr = CCEPH_BUFFER_NODE_LENGTH := by
      rw [hzero] at hempty
      have : (0 : Int32).toInt = 0 := rfl
      omega
    have hblocks : blocksBehind last.ptr n = 1 + blocksBehind emptyNode.ptr n := by
      have hnone : emptyNode.ptr = 0 := rfl
      unfold blocksBehind CCEPH_BUFFER_NODE_LENGTH at *
      omega
    rw [hblocks, Allocs.grants_add, Allocs.grants_one] at hgrants
    have hnew : bufferNodeNew s = .ok ((CCEPH_OK, some emptyNode), s.tail) := by
      rw [bufferNodeNew_run, if_pos hgrants.1]
    rw [if_pos hzero]
    unfold bufferGrow
    rw [bind_ok hnew]
    simp only [ne_eq, not_true_eq_false, if_false, deref_some, pure_bind, h.node_current]
    refine ⟨_, emptyNode, s.tail, rfl, ⟨?_, emptyNode_ok⟩, Nat.two_pow_pos 12, hgrants.2⟩
    have hlength : (buffer.setNode buffer.current
        { last with next := some buffer.nodes.length }).nodes.length = buffer.nodes.length :=
      List.length_set
    have hplace := List.getElem?_concat_length (l := (buffer.setNode buffer.current
      { last with next := some buffer.nodes.length }).nodes) (a := emptyNode)
    rw [hlength] at hplace
    exact hplace
  · have hspace : last.ptr ≠ CCEPH_BUFFER_NODE_LENGTH := by
      intro hfull
      apply hzero
      rw [← Int32.toInt_inj, hempty, hfull]
      exact Int.sub_self _
    rw [if_neg hzero]
    exact ⟨buffer, last, s, rfl, h, by omega, hgrants⟩

/-- A copy that returns has filled the node as far as it goes. -/
theorem AtNode.fill (h : AtNode buffer last) (hspace : last.ptr < CCEPH_BUFFER_NODE_LENGTH)
    (hpos : 0 < length.toInt) (hdata : length.toInt ≤ data.length) {r : Buffer × Int32}
    {s' : Allocs} (hrun : bufferFill buffer data length s = .ok (r, s')) :
    ∃ n : Nat, r.2 = Int32.ofNat n ∧ n ≤ length.toInt ∧ n < 2 ^ 31
      ∧ last.ptr + n ≤ CCEPH_BUFFER_NODE_LENGTH
      ∧ (n < length.toInt → last.ptr + n = CCEPH_BUFFER_NODE_LENGTH)
      ∧ AtNode r.1 (last.filled data n) ∧ s' = s := by
  have hempty := h.ok.emptySize
  have hbl := int32_bounds length
  unfold bufferFill at hrun
  simp only [h.node_current, pure_bind] at hrun
  have hmin := int32_toInt_min length last.emptySize
  generalize (if length < last.emptySize then length else last.emptySize) = copy at hmin hrun
  have hsize : (sizeT copy.toInt : Int) = copy.toInt := by
    rw [sizeT_of_nonneg (by omega) (by omega)]
    omega
  generalize sizeT copy.toInt = n at hsize hrun
  have hcopy : copy = Int32.ofNat n := by
    rw [← Int32.toInt_inj, Int32.toInt_ofNat_of_lt (by omega), hsize]
  have hfit : n ≤ data.length := by omega
  have hmemcpy : (memcpy last.data last.ptr (some data) n : Prog Allocs (List UInt8))
      = pure (last.filled data n).data := by
    have hd := h.ok.data
    unfold memcpy
    rw [if_neg (by omega)]
    exact if_pos ⟨by omega, by omega⟩
  simp only [hmemcpy, pure_bind] at hrun
  obtain ⟨-, hrun⟩ := assert_bind_eq_ok hrun
  obtain ⟨-, hrun⟩ := assert_bind_eq_ok hrun
  cases hrun
  obtain ⟨hlt, -⟩ := List.getElem?_eq_some_iff.mp h.node
  exact ⟨n, hcopy, by omega, by omega, by omega, by omega,
    ⟨List.getElem?_set_self hlt, (h.ok.filled hfit (by omega)).1⟩, rfl⟩

/-- As long as no block is refused, the loop does not fail; whatever the
counts are, it asks for blocks by what is in the last one. -/
theorem bufferAppendLoop_granted : ∀ (turns : Nat) {buffer : Buffer} {last : BufferNode}
    {data : List UInt8} {length : Int32} {s s' : Allocs} {ret : Int} {buffer' : Buffer},
    AtNode buffer last → length.toInt ≤ data.length →
    s.Grants (blocksBehind last.ptr length.toInt.toNat) →
    bufferAppendLoop turns buffer data length s = .ok ((ret, buffer'), s') → ret = CCEPH_OK
  | turns, buffer, last, data, length, s, s', ret, buffer', h, hdata, hgrants, hrun => by
      unfold bufferAppendLoop at hrun
      by_cases hpos : length > 0
      · have hpos' := int32_pos_iff.mp hpos
        rw [if_pos hpos] at hrun
        cases turns with
        | zero => cases hrun
        | succ turns =>
            obtain ⟨buffer₁, last₁, s₁, hroom, h₁, hspace, hgrants₁⟩ :=
              h.room (n := length.toInt.toNat) (by omega) hgrants
            simp only at hrun
            rw [bind_ok hroom] at hrun
            simp only [ne_eq, not_true_eq_false, if_false] at hrun
            obtain ⟨⟨buffer₂, copy⟩, s₂, hfill, hrun⟩ := bind_eq_ok hrun
            obtain ⟨n, hcopy, hle, hlt, hfit, hfull, h₂, rfl⟩ :=
              h₁.fill hspace hpos' hdata hfill
            simp only at hcopy hrun h₂
            subst hcopy
            have hleft := int32_toInt_sub_ofNat hle
            have hptr : (last₁.filled data n).ptr = last₁.ptr + n := rfl
            have hblocks : blocksBehind (last₁.ptr + n) (length.toInt - n).toNat
                = blocksBehind last₁.ptr length.toInt.toNat := by
              unfold blocksBehind
              congr 1
              omega
            rw [sizeT_int32_ofNat hlt] at hrun
            refine bufferAppendLoop_granted turns h₂ ?_ ?_ hrun
            · rw [hleft, List.length_drop]
              omega
            · rw [hleft, hptr, hblocks]
              exact hgrants₁
      · rw [if_neg hpos] at hrun
        cases hrun
        rfl

/-- So does the append. -/
theorem bufferAppend_granted (h : BufferOk buffer full last) (hpos : 0 < length.toInt)
    (hdata : length.toInt ≤ data.length)
    (hgrants : s.Grants (newBlocks buffer.content.length length.toInt.toNat)) {ret : Int}
    {buffer' : Buffer} {s' : Allocs}
    (hrun : bufferAppend buffer data length s = .ok ((ret, buffer'), s')) : ret = CCEPH_OK := by
  have hnode : buffer.nodes[buffer.current]? = some last := by
    rw [h.nodes, h.current]
    exact List.getElem?_concat_length
  have hblocks : blocksBehind last.ptr length.toInt.toNat
      = newBlocks buffer.content.length length.toInt.toNat := by
    have hlength := h.content_length
    have hfor := h.blocks
    unfold newBlocks
    rw [hfor]
    unfold blocksBehind blocksFor CCEPH_BUFFER_NODE_LENGTH at *
    omega
  unfold bufferAppend at hrun
  rw [assert_pos (int32_pos_iff.mpr hpos), pure_bind] at hrun
  rw [← hblocks] at hgrants
  exact bufferAppendLoop_granted _ ⟨hnode, h.lastOk⟩ hdata hgrants hrun

-- =================================================== refused on the way

/-- Whatever an append comes to, what was there before is there after. -/
theorem AppendDone.holds {content : List UInt8} {ret : Int} {buffer' : Buffer} {s' : Allocs}
    (h : AppendDone content data s (.ok ((ret, buffer'), s'))) :
    ∃ rest, buffer'.Holds (content ++ rest) := by
  cases h with
  | whole _ _ _ hholds => exact ⟨data, hholds⟩
  | torn n _ _ _ _ hholds => exact ⟨data.take n, hholds⟩

/-- Once there is room, there is no way back. -/
theorem bufferAppendTurn_grows {turns : Nat} (h : ChainOk buffer full last)
    (hspace : last.ptr < CCEPH_BUFFER_NODE_LENGTH) (hpos : 0 < length.toInt)
    (hdata : length.toInt ≤ data.length) (hturns : length.toInt ≤ turns + 1)
    (hlimit : buffer.content.length + length.toInt ≤ bufferLimit) {ret : Int}
    {buffer' : Buffer} {s' : Allocs}
    (hrun : (bufferFill buffer data length >>= fun r => bufferAppendLoop turns r.1
      (data.drop (sizeT r.2.toInt)) (length - r.2)) s = .ok ((ret, buffer'), s')) :
    ∃ rest, rest ≠ [] ∧ buffer'.Holds (buffer.content ++ rest) := by
  obtain ⟨buffer₂, n, hfill, hn, hle, hlt, hok, hcontent⟩ :=
    bufferFill_spec h hpos hdata hspace s
  have hsize := sizeT_int32_ofNat hlt
  have hleft := int32_toInt_sub_ofNat hle
  have hfirst : (data.take n).length = n := by
    rw [List.length_take]
    omega
  have hlength : buffer₂.content.length = buffer.content.length + n := by
    rw [hcontent, List.length_append, hfirst]
  have hdrop : (data.drop n).length = data.length - n := List.length_drop
  rw [bind_ok hfill] at hrun
  simp only [hsize] at hrun
  have hloop := bufferAppendLoop_done turns (data.drop n) (length - Int32.ofNat n) hok (by omega)
    (by omega) (by omega) (.inl (by omega)) s
  rw [hrun] at hloop
  obtain ⟨rest, hholds⟩ := hloop.holds
  refine ⟨data.take n ++ rest, ?_, ?_⟩
  · intro hnil
    have hempty := congrArg List.length hnil
    rw [List.length_append, hfirst, List.length_nil] at hempty
    omega
  · rw [hcontent, List.append_assoc] at hholds
    exact hholds

/-- An append that is not refused its first byte has copied some. -/
theorem bufferAppend_grows (h : BufferOk buffer full last) (hpos : 0 < length.toInt)
    (hdata : length.toInt ≤ data.length)
    (hlimit : buffer.content.length + length.toInt ≤ bufferLimit)
    (hnot : ¬(last.ptr = CCEPH_BUFFER_NODE_LENGTH ∧ s.head = false)) {ret : Int}
    {buffer' : Buffer} {s' : Allocs}
    (hrun : bufferAppend buffer data length s = .ok ((ret, buffer'), s')) :
    ∃ rest, rest ≠ [] ∧ buffer'.Holds (buffer.content ++ rest) := by
  obtain ⟨turns, hturns⟩ : ∃ turns, length.toInt.toNat = turns + 1 :=
    ⟨length.toInt.toNat - 1, by omega⟩
  have hroom := bufferRoom_done h.toChainOk s
  unfold bufferAppend at hrun
  rw [assert_pos (int32_pos_iff.mpr hpos), pure_bind, hturns] at hrun
  unfold bufferAppendLoop at hrun
  rw [if_pos (int32_pos_iff.mpr hpos)] at hrun
  simp only at hrun
  rw [bind_run] at hrun
  generalize bufferRoom buffer s = out at hroom hrun
  cases hroom with
  | space hspace =>
      exact bufferAppendTurn_grows h.toChainOk hspace hpos hdata (by omega) hlimit hrun
  | refused hfull hs => exact absurd ⟨hfull, hs⟩ hnot
  | grown hfull hs =>
      have hlength := h.content_length
      have hblocks : CCEPH_BUFFER_NODE_LENGTH * (full.length + 2) < 2 ^ 31 := by
        unfold bufferLimit CCEPH_BUFFER_NODE_LENGTH at *
        omega
      obtain ⟨hchain, hcontent⟩ := h.toChainOk.grown hfull hblocks
      have hspace : emptyNode.ptr < CCEPH_BUFFER_NODE_LENGTH := Nat.two_pow_pos 12
      rw [← hcontent] at hlimit ⊢
      exact bufferAppendTurn_grows hchain hspace hpos hdata (by omega) hlimit hrun

/-- What is longer by a byte is seen to be. -/
theorem not_seenSame (h : BufferOk buffer full last) {rest : List UInt8} (hrest : rest ≠ [])
    {buffer' : Buffer} (h' : buffer'.Holds (buffer.content ++ rest)) :
    ¬SeenSame buffer buffer' := by
  intro hsame
  obtain ⟨⟨full', last', hok'⟩, hcontent⟩ := h'
  have hoffset := hok'.offset_eq
  rw [hsame.offset, h.offset_eq, hcontent, List.length_append] at hoffset
  have hpos := List.length_pos_iff.mpr hrest
  omega

/-- An append that fails and leaves no trace is refused its first byte. -/
theorem refusedFirst_of_kept (h : BufferOk buffer full last) (hne : data ≠ [])
    (hlimit : buffer.content.length + data.length ≤ bufferLimit)
    (hkept : KeptIfFailed buffer data s) :
    RefusedFirst buffer.content.length data.length s := by
  have hshort : data.length < 2 ^ 31 := by
    unfold bufferLimit CCEPH_BUFFER_NODE_LENGTH at hlimit
    omega
  obtain ⟨hlength, hpos⟩ := block_length hshort hne
  have hdone := bufferAppend_done h hpos (Int.le_of_eq hlength) (.inl (by omega)) s
  rw [List.take_of_length_le (by omega)] at hdone
  generalize hrun : bufferAppend buffer data (Int32.ofNat data.length) s = out at hdone
  cases hdone with
  | whole _ hgrants _ _ => exact .inl hgrants
  | uncounted hover => omega
  | torn n buffer' s' _ _ _ =>
      by_contra hnot
      obtain ⟨rest, hrest, hholds⟩ := bufferAppend_grows h hpos (Int.le_of_eq hlength)
        (by omega) (fun hfirst => hnot (.inr ⟨h.newBlocks_one.mpr hfirst.1, hfirst.2⟩)) hrun
      exact not_seenSame h hrest hholds (hkept _ _ _ hrun (by decide))

end

-- ======================================================= the main result

/-- A failed append leaves the buffer as it was if what is refused is the
block of the first byte; and, where an `int32_t` counts its bytes, only
then. -/
theorem bufferAppend_kept_iff {run : BufferRun} (h : bufferSystem.Reached AppendFits run)
    {data : List UInt8} (hne : data ≠ []) (hshort : data.length < 2 ^ 31) (s : Allocs) :
    (RefusedFirst run.appended.length data.length s → KeptIfFailed run.buffer data s)
    ∧ (run.appended.length + data.length ≤ bufferLimit →
      (KeptIfFailed run.buffer data s ↔ RefusedFirst run.appended.length data.length s)) := by
  obtain ⟨⟨full, last, hok⟩, hcontent⟩ := holds_of_reached h
  obtain ⟨hlength, hpos⟩ := block_length hshort hne
  have hbytes : (Int32.ofNat data.length).toInt.toNat = data.length := by omega
  rw [← hcontent]
  have henough : RefusedFirst run.buffer.content.length data.length s →
      KeptIfFailed run.buffer data s := by
    intro hfirst ret buffer' s' hrun hret
    cases hfirst with
    | inl hgrants =>
        rw [← hbytes] at hgrants
        exact absurd (bufferAppend_granted hok hpos (Int.le_of_eq hlength) hgrants hrun) hret
    | inr hrefused =>
        rw [bufferAppend_refused hok hpos (hok.newBlocks_one.mp hrefused.1) hrefused.2] at hrun
        cases hrun
        exact seenSame_refl _
  exact ⟨henough, fun hlimit => ⟨refusedFirst_of_kept hok hne hlimit, henough⟩⟩

/-- A byte for a buffer of one full block, and no second block. -/
theorem bufferAppend_kept_full : ∃ run, bufferSystem.Reached AppendFits run
    ∧ run.appended.length = CCEPH_BUFFER_NODE_LENGTH
    ∧ (∃ s', bufferAppend run.buffer [106] 1 ⟨fun _ => false⟩
      = .ok ((CCEPH_ERR_NO_ENOUGH_MEM, run.buffer), s'))
    ∧ KeptIfFailed run.buffer [106] ⟨fun _ => false⟩ := by
  obtain ⟨zeros, hzeros⟩ : ∃ zeros : List UInt8, zeros.length = CCEPH_BUFFER_NODE_LENGTH :=
    ⟨List.replicate CCEPH_BUFFER_NODE_LENGTH 0, List.length_replicate⟩
  obtain ⟨run, hreached, rfl⟩ := appended_reached
    (List.ne_nil_of_length_pos (by rw [hzeros]; decide)) (by rw [hzeros]; decide)
  have hone : newBlocks run.appended.length 1 = 1 := by
    rw [hzeros]
    rfl
  have hkept : KeptIfFailed run.buffer [106] ⟨fun _ => false⟩ :=
    (bufferAppend_kept_iff hreached (by decide) (by decide) _).1 (.inr ⟨hone, rfl⟩)
  obtain ⟨⟨full, last, hok⟩, hcontent⟩ := holds_of_reached hreached
  rw [← hcontent] at hone
  exact ⟨run, hreached, hzeros, ⟨_, bufferAppend_refused hok (by decide)
    (hok.newBlocks_one.mp hone) rfl⟩, hkept⟩

/-- Of 4097 bytes for a new buffer the last one takes a block. The others
stay if it is refused. -/
theorem bufferAppend_not_kept :
    ¬∀ (run : BufferRun) (data : List UInt8) (s : Allocs), bufferSystem.Reached AppendFits run →
      data ≠ [] → run.appended.length + data.length ≤ bufferLimit →
      KeptIfFailed run.buffer data s := by
  intro hall
  obtain ⟨zeros, hzeros⟩ : ∃ zeros : List UInt8, zeros.length = 4097 :=
    ⟨List.replicate 4097 0, List.length_replicate⟩
  have hne : zeros ≠ [] := List.ne_nil_of_length_pos (by omega)
  have hlimit : ([] : List UInt8).length + zeros.length ≤ bufferLimit := by
    rw [hzeros]
    decide
  have hreached : bufferSystem.Reached AppendFits freshRun := freshRun_reached trivial
  have hfirst := refusedFirst_of_kept freshBuffer_ok hne hlimit
    (hall freshRun zeros ⟨fun _ => false⟩ hreached hne hlimit)
  rw [show freshBuffer.content.length = 0 from rfl, hzeros] at hfirst
  cases hfirst with
  | inl hgrants => cases Allocs.grants_one.mp hgrants
  | inr hrefused => exact absurd hrefused.1 (by decide)

end CephInC
