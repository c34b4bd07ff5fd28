/-
What a reader sees of a buffer.

A reader that has read `p` bytes stands in block `p / 4096` at the offset
`p % 4096`, as long as there is a byte ahead (`readerAt`); once it has
read the last one it points nowhere, and stays so. Where it stands
depends on the content alone, so an append leaves a reader with a byte
ahead where it is.
-/
import CephInC.Common.Proofs.Buffer

namespace CephInC

open Lib

/-- A reader `p` bytes into the content of its buffer. -/
def readerAt (content : List UInt8) (p : Nat) : BufferReader :=
  if p < content.length then
    ⟨some (p / CCEPH_BUFFER_NODE_LENGTH), some (p % CCEPH_BUFFER_NODE_LENGTH)⟩
  else ⟨none, none⟩

/-- A reader that has come to the end. -/
def readerEnd : BufferReader := ⟨none, none⟩

section
variable {buffer : Buffer} {full : List BufferNode} {last : BufferNode}

/-- The node a position is in. -/
structure NodeAt (buffer : Buffer) (p : Nat) (node : BufferNode) : Prop where
  get : buffer.nodes[p / CCEPH_BUFFER_NODE_LENGTH]? = some node
  ok : BlockOk node
  ahead : p % CCEPH_BUFFER_NODE_LENGTH < node.ptr
  bytes : ∀ k, p % CCEPH_BUFFER_NODE_LENGTH + k ≤ node.ptr →
    (node.data.drop (p % CCEPH_BUFFER_NODE_LENGTH)).take k = (buffer.content.drop p).take k
  next : (node.ptr = CCEPH_BUFFER_NODE_LENGTH
      ∧ node.next = some (p / CCEPH_BUFFER_NODE_LENGTH + 1)
      ∧ CCEPH_BUFFER_NODE_LENGTH * (p / CCEPH_BUFFER_NODE_LENGTH) + node.ptr
        < buffer.content.length)
    ∨ (node.next = none
      ∧ CCEPH_BUFFER_NODE_LENGTH * (p / CCEPH_BUFFER_NODE_LENGTH) + node.ptr
        = buffer.content.length)

/-- What is behind a place of a node. -/
theorem ChainOk.drop_content (h : ChainOk buffer full last) {i o k : Nat} {node : BufferNode}
    (hi : i ≤ full.length) (hget : buffer.nodes[i]? = some node) (hok : BlockOk node)
    (hk : o + k ≤ node.ptr) :
    (node.data.drop o).take k
      = (buffer.content.drop (CCEPH_BUFFER_NODE_LENGTH * i + o)).take k := by
  have hlen := hok.content_length
  have hblock : (buffer.nodes.map BufferNode.content)[i]? = some node.content := by
    rw [List.getElem?_map, hget]
    rfl
  have hbefore : ∀ b ∈ (buffer.nodes.map BufferNode.content).take i,
      b.length = CCEPH_BUFFER_NODE_LENGTH := by
    intro b hb
    rw [← List.map_take, h.nodes, List.take_append_of_le_length hi] at hb
    obtain ⟨node', hnode', rfl⟩ := List.mem_map.mp hb
    obtain ⟨hok', hptr'⟩ := h.fullOk node' (List.mem_of_mem_take hnode')
    rw [hok'.content_length, hptr']
  unfold Buffer.content
  rw [flatten_drop_block hblock hbefore (by omega), List.take_append_of_le_length (by
    rw [List.length_drop, hlen]
    omega)]
  unfold BufferNode.content
  rw [List.drop_take, List.take_take, Nat.min_eq_left (by omega)]

theorem BufferOk.nodeAt (h : BufferOk buffer full last) {p : Nat}
    (hp : p < buffer.content.length) : ∃ node, NodeAt buffer p node := by
  have hlength := h.content_length
  have hptr := h.lastOk.ptr
  have hsplit : CCEPH_BUFFER_NODE_LENGTH * (p / CCEPH_BUFFER_NODE_LENGTH)
      + p % CCEPH_BUFFER_NODE_LENGTH = p := Nat.div_add_mod _ _
  have hmod : p % CCEPH_BUFFER_NODE_LENGTH < CCEPH_BUFFER_NODE_LENGTH :=
    Nat.mod_lt _ (by decide)
  generalize hi : p / CCEPH_BUFFER_NODE_LENGTH = i at hsplit
  generalize ho : p % CCEPH_BUFFER_NODE_LENGTH = o at hsplit hmod
  by_cases hfull : i < full.length
  · have hget : buffer.nodes[i]? = some full[i] := by
      rw [h.nodes, List.getElem?_append_left hfull, List.getElem?_eq_getElem hfull]
    obtain ⟨hok, hfullptr⟩ := h.fullOk full[i] (List.getElem_mem hfull)
    have hstarted := h.started (List.ne_nil_of_length_pos (by omega))
    refine ⟨full[i], by rw [hi]; exact hget, hok, by omega, ?_, .inl ⟨hfullptr, ?_, ?_⟩⟩
    · intro k hk
      rw [ho] at hk ⊢
      rw [h.drop_content (Nat.le_of_lt hfull) hget hok hk, hsplit]
    · rw [hi]
      exact h.links i _ (List.getElem?_eq_getElem hfull)
    · rw [hi, hfullptr, hlength]
      unfold CCEPH_BUFFER_NODE_LENGTH at *
      omega
  · have hlast : i = full.length := by
      unfold CCEPH_BUFFER_NODE_LENGTH at *
      omega
    have hget : buffer.nodes[i]? = some last := by
      rw [h.nodes, hlast, List.getElem?_concat_length]
    refine ⟨last, by rw [hi]; exact hget, h.lastOk, ?_, ?_, .inr ⟨h.ends, ?_⟩⟩
    · rw [ho]
      rw [hlast] at hsplit
      omega
    · intro k hk
      rw [ho] at hk ⊢
      rw [h.drop_content (Nat.le_of_eq hlast) hget h.lastOk hk, hsplit]
    · rw [hi, hlength, hlast]

-- ================================================================ one turn

/-- The block and offset behind `k` more bytes of a node. -/
theorem readerAt_add (content : List UInt8) {p k ptr : Nat} (hk : p % CCEPH_BUFFER_NODE_LENGTH
    + k < ptr) (hptr : ptr ≤ CCEPH_BUFFER_NODE_LENGTH)
    (hend : CCEPH_BUFFER_NODE_LENGTH * (p / CCEPH_BUFFER_NODE_LENGTH) + ptr ≤ content.length) :
    readerAt content (p + k) = ⟨some (p / CCEPH_BUFFER_NODE_LENGTH),
      some (p % CCEPH_BUFFER_NODE_LENGTH + k)⟩ := by
  unfold readerAt
  unfold CCEPH_BUFFER_NODE_LENGTH at *
  rw [if_pos (by omega), show (p + k) / 4096 = p / 4096 by omega,
    show (p + k) % 4096 = p % 4096 + k by omega]

/-- The start of the next block. -/
theorem readerAt_next (content : List UInt8) {p k : Nat}
    (hk : p % CCEPH_BUFFER_NODE_LENGTH + k = CCEPH_BUFFER_NODE_LENGTH)
    (hend : p + k < content.length) :
    readerAt content (p + k) = ⟨some (p / CCEPH_BUFFER_NODE_LENGTH + 1), some 0⟩ := by
  unfold readerAt
  unfold CCEPH_BUFFER_NODE_LENGTH at *
  rw [if_pos hend, show (p + k) / 4096 = p / 4096 + 1 by omega,
    show (p + k) % 4096 = 0 by omega]

theorem readerAt_end {content : List UInt8} {p : Nat} (h : content.length ≤ p) :
    readerAt content p = readerEnd := if_neg (by omega)

/-- A turn of the read loop with a byte ahead: `k` bytes more. -/
theorem bufferReadTurn_spec (h : BufferOk buffer full last) {p : Nat}
    (hp : p < buffer.content.length) {length : Int32} (hpos : 0 < length.toInt) (s : Allocs) :
    ∃ k : Nat, 0 < k ∧ k ≤ length.toInt ∧ p + k ≤ buffer.content.length
      ∧ bufferReadTurn buffer (readerAt buffer.content p) (p % CCEPH_BUFFER_NODE_LENGTH) length s
        = .ok ((readerAt buffer.content (p + k), (buffer.content.drop p).take k,
          Int32.ofNat k), s) := by
  obtain ⟨node, hnode⟩ := h.nodeAt hp
  have hptr := hnode.ok.ptr
  have hahead := hnode.ahead
  have hbl := int32_bounds length
  have hdata := hnode.ok.data
  have hend : CCEPH_BUFFER_NODE_LENGTH * (p / CCEPH_BUFFER_NODE_LENGTH) + node.ptr
      ≤ buffer.content.length := by
    obtain ⟨-, -, hlt⟩ | ⟨-, heq⟩ := hnode.next
    · exact Nat.le_of_lt hlt
    · exact Nat.le_of_eq heq
  have hsplit : CCEPH_BUFFER_NODE_LENGTH * (p / CCEPH_BUFFER_NODE_LENGTH)
      + p % CCEPH_BUFFER_NODE_LENGTH = p := Nat.div_add_mod _ _
  have hat : readerAt buffer.content p = ⟨some (p / CCEPH_BUFFER_NODE_LENGTH),
      some (p % CCEPH_BUFFER_NODE_LENGTH)⟩ := if_pos hp
  unfold bufferReadTurn
  simp only [hat, deref_some, pure_bind]
  have hget : (buffer.node (p / CCEPH_BUFFER_NODE_LENGTH)) = pure node := by
    unfold Buffer.node
    rw [hnode.get]
    rfl
  rw [hget, pure_bind]
  generalize ho : p % CCEPH_BUFFER_NODE_LENGTH = o at *
  have hleft : (Int32.ofInt ((node.ptr : Int) - o)).toInt = node.ptr - o := by
    unfold CCEPH_BUFFER_NODE_LENGTH at *
    exact Int32.toInt_ofInt_of_le (by omega) (by omega)
  have hmin := int32_toInt_min length (Int32.ofInt ((node.ptr : Int) - o))
  generalize (if length < Int32.ofInt ((node.ptr : Int) - o) then length
    else Int32.ofInt ((node.ptr : Int) - o)) = read at hmin ⊢
  rw [hleft] at hmin
  have hread : read > 0 := by
    rw [int32_pos_iff]
    omega
  rw [assert_pos hread, pure_bind]
  have hsize : (sizeT read.toInt : Int) = read.toInt := by
    rw [sizeT_of_nonneg (by omega) (by omega)]
    omega
  generalize sizeT read.toInt = k at hsize ⊢
  have hk : Int32.ofNat k = read := by
    rw [← Int32.toInt_inj, Int32.toInt_ofNat_of_lt (by omega), hsize]
  rw [memcpy_whole, if_pos (by rw [List.length_drop]; omega), pure_bind]
  have hbytes := hnode.bytes k (by omega)
  rw [ho] at hbytes
  refine ⟨k, by omega, by omega, by omega, ?_⟩
  rw [hbytes]
  by_cases hlast : o + k = node.ptr
  · rw [if_pos hlast]
    obtain ⟨hfull, hnext, hlt⟩ | ⟨hnext, heq⟩ := hnode.next
    · rw [hnext, readerAt_next _ (by omega) (by omega), hk]
      rfl
    · rw [hnext, readerAt_end (by omega), hk]
      rfl
  · rw [if_neg hlast, readerAt_add _ (by omega) hptr hend, hk, ho]
    rfl

-- ================================================================= a read

/-- How much a read of `length` bytes gets. -/
def readLength (content : List UInt8) (p : Nat) (length : Int32) : Nat :=
  min length.toInt.toNat (content.length - p)

theorem readerAt_ptr {content : List UInt8} {p : Nat} (hp : p < content.length) :
    (readerAt content p).ptr = some (p % CCEPH_BUFFER_NODE_LENGTH)
      ∧ (readerAt content p).node ≠ none := by
  unfold readerAt
  rw [if_pos hp]
  exact ⟨rfl, nofun⟩

/-- There is nothing left to read. -/
theorem bufferReadLoop_zero {p : Nat} (hp : p < buffer.content.length) (turns : Nat)
    {length : Int32} (hzero : length.toInt = 0) (s : Allocs) :
    ∃ left : Int32, left.toInt = length.toInt - readLength buffer.content p length
      ∧ bufferReadLoop buffer turns (readerAt buffer.content p) length s
        = .ok ((left, (buffer.content.drop p).take (readLength buffer.content p length),
          readerAt buffer.content (p + readLength buffer.content p length)), s) := by
  have hn : readLength buffer.content p length = 0 := by
    unfold readLength
    omega
  rw [hn]
  refine ⟨length, by omega, ?_⟩
  unfold bufferReadLoop
  rw [(readerAt_ptr hp).1]
  simp only
  rw [if_neg (by rw [int32_pos_iff]; omega)]
  rfl

theorem bufferReadLoop_spec (h : BufferOk buffer full last) : ∀ (turns p : Nat)
    (length : Int32), 0 ≤ length.toInt → length.toInt ≤ turns → p < buffer.content.length →
    ∀ s, ∃ left : Int32, left.toInt = length.toInt - readLength buffer.content p length
      ∧ bufferReadLoop buffer turns (readerAt buffer.content p) length s
        = .ok ((left, (buffer.content.drop p).take (readLength buffer.content p length),
          readerAt buffer.content (p + readLength buffer.content p length)), s) := by
  intro turns
  induction turns with
  | zero =>
      intro p length hnonneg hturns hp s
      exact bufferReadLoop_zero hp 0 (by omega) s
  | succ turns ih =>
      intro p length hnonneg hturns hp s
      by_cases hpos : length > 0
      · have hpos' := int32_pos_iff.mp hpos
        obtain ⟨k, hk, hkl, hkp, hturn⟩ := bufferReadTurn_spec h hp hpos' s
        have hleft := int32_toInt_sub_ofNat hkl
        unfold bufferReadLoop
        rw [(readerAt_ptr hp).1]
        simp only
        rw [if_pos hpos, bind_ok hturn]
        by_cases hlast : p + k < buffer.content.length
        · -- a byte is ahead, so the loop goes on
          simp only
          rw [if_neg (readerAt_ptr hlast).2]
          obtain ⟨left, hleft', hrun⟩ := ih (p + k) (length - Int32.ofNat k) (by omega)
            (by omega) hlast s
          rw [bind_ok hrun]
          have hn : readLength buffer.content p length
              = k + readLength buffer.content (p + k) (length - Int32.ofNat k) := by
            unfold readLength
            omega
          refine ⟨left, by omega, ?_⟩
          rw [hn, List.take_add, List.drop_drop, Nat.add_assoc]
          rfl
        · have hn : readLength buffer.content p length = k := by
            unfold readLength
            omega
          rw [hn, readerAt_end (by omega)]
          exact ⟨_, hleft, rfl⟩
      · have hzero : ¬0 < length.toInt := fun hlt => hpos (int32_pos_iff.mpr hlt)
        exact bufferReadLoop_zero hp (turns + 1) (by omega) s

/-- A read with a byte ahead gets what there is, and is told whether that
was enough. -/
theorem bufferReaderRead_spec (h : BufferOk buffer full last) {p : Nat}
    (hp : p < buffer.content.length) {length : Int32} (hpos : 0 < length.toInt) (s : Allocs) :
    bufferReaderRead buffer (readerAt buffer.content p) length s
      = .ok ((if length.toInt ≤ buffer.content.length - p then CCEPH_OK
          else CCEPH_ERR_BUFFER_END,
        (buffer.content.drop p).take (readLength buffer.content p length),
        readerAt buffer.content (p + readLength buffer.content p length)), s) := by
  obtain ⟨left, hleft, hrun⟩ := bufferReadLoop_spec h length.toInt.toNat p length (by omega)
    (by omega) hp s
  unfold bufferReaderRead
  rw [assert_pos (int32_pos_iff.mpr hpos), pure_bind, bind_ok hrun]
  have hzero : left = 0 ↔ length.toInt ≤ buffer.content.length - p := by
    rw [← Int32.toInt_inj, hleft]
    show length.toInt - (readLength buffer.content p length : Int) = 0 ↔ _
    unfold readLength
    omega
  simp only [hzero]
  rfl

/-- A read at the end gets nothing. -/
theorem bufferReaderRead_end {length : Int32} (hpos : 0 < length.toInt) (s : Allocs) :
    bufferReaderRead buffer readerEnd length s
      = .ok ((CCEPH_ERR_BUFFER_END, [], readerEnd), s) := by
  have hne : length ≠ 0 := by
    intro h0
    rw [h0] at hpos
    cases hpos
  have hloop : bufferReadLoop buffer length.toInt.toNat readerEnd length
      = pure (length, [], readerEnd) := by
    unfold bufferReadLoop
    rfl
  unfold bufferReaderRead
  rw [assert_pos (int32_pos_iff.mpr hpos), pure_bind, hloop, pure_bind]
  simp only [if_neg hne]
  rfl

/-- The reader of `cceph_buffer_reader_new`. -/
def readerStart : BufferReader := ⟨some 0, some 0⟩

theorem readerStart_eq {content : List UInt8} (h : content ≠ []) :
    readerStart = readerAt content 0 := by
  unfold readerAt
  rw [if_pos (List.length_pos_iff.mpr h)]
  rfl

/-- A read from the start of a buffer nothing was appended to. -/
theorem bufferReaderRead_empty (h : BufferOk buffer full last) (hempty : buffer.content = [])
    {length : Int32} (hpos : 0 < length.toInt) (s : Allocs) :
    bufferReaderRead buffer readerStart length s = .error .assertFail := by
  have hlength := h.content_length
  rw [hempty] at hlength
  have hnone : full.length = 0 ∧ last.ptr = 0 := by
    unfold CCEPH_BUFFER_NODE_LENGTH at hlength
    rw [List.length_nil] at hlength
    omega
  have hget : buffer.node 0 = pure last := by
    unfold Buffer.node
    rw [h.nodes, List.length_eq_zero_iff.mp hnone.1]
    rfl
  have hturn : bufferReadTurn buffer readerStart 0 length = fault .assertFail := by
    unfold bufferReadTurn readerStart
    simp only [deref_some, pure_bind, hget]
    have hnot : ¬(if length < Int32.ofInt ((last.ptr : Int) - (0 : Nat)) then length
        else Int32.ofInt ((last.ptr : Int) - (0 : Nat))) > 0 := by
      rw [int32_pos_iff, int32_toInt_min, hnone.2]
      show ¬0 < min length.toInt 0
      omega
    rw [assert_neg hnot, fault_bind]
  obtain ⟨turns, hturns⟩ : ∃ turns, length.toInt.toNat = turns + 1 :=
    ⟨length.toInt.toNat - 1, by omega⟩
  have hptr : readerStart.ptr = some 0 := rfl
  unfold bufferReaderRead
  rw [assert_pos (int32_pos_iff.mpr hpos), pure_bind, hturns]
  unfold bufferReadLoop
  rw [hptr]
  simp only
  rw [if_pos (int32_pos_iff.mpr hpos), hturn, fault_bind, fault_bind]
  rfl

-- ============================================================= flattening

/-- The link of a node, by what is behind it. -/
theorem ChainOk.next_eq (h : ChainOk buffer full last) {before after : List BufferNode}
    {node : BufferNode} (hsplit : buffer.nodes = before ++ node :: after) :
    BlockOk node ∧ node.next = if after = [] then none else some (before.length + 1) := by
  have hget : buffer.nodes[before.length]? = some node := by
    rw [hsplit, List.getElem?_append_right (Nat.le_refl _), Nat.sub_self]
    rfl
  have hcount := congrArg List.length hsplit
  rw [h.nodes] at hget hcount
  simp only [List.length_append, List.length_cons, List.length_nil] at hcount
  cases after with
  | nil =>
      have hi : before.length = full.length := by
        rw [List.length_nil] at hcount
        omega
      rw [hi, List.getElem?_concat_length] at hget
      cases hget
      exact ⟨h.lastOk, h.ends⟩
  | cons next rest =>
      rw [List.length_cons] at hcount
      rw [List.getElem?_append_left (by omega)] at hget
      exact ⟨(h.fullOk node (List.mem_of_getElem? hget)).1, h.links _ _ hget⟩

theorem bufferFlatLoop_spec (h : ChainOk buffer full last) : ∀ (after before : List BufferNode),
    buffer.nodes = before ++ after → ∀ (block : List UInt8) (pos : Nat),
    block.length = pos + (after.map BufferNode.content).flatten.length → ∀ s,
      bufferFlatLoop buffer after.length (if after = [] then none else some before.length)
        block pos s = .ok (block.take pos ++ (after.map BufferNode.content).flatten, s)
  | [], before, hsplit, block, pos, hblock, s => by
      have hall : block.length ≤ pos := Nat.le_of_eq hblock
      rw [List.take_of_length_le hall]
      unfold bufferFlatLoop
      rw [List.map_nil, List.flatten_nil, List.append_nil]
      rfl
  | node :: after, before, hsplit, block, pos, hblock, s => by
      obtain ⟨hok, hnext⟩ := h.next_eq hsplit
      have hget : buffer.node before.length = pure node := by
        unfold Buffer.node
        rw [hsplit, List.getElem?_append_right (Nat.le_refl _), Nat.sub_self]
        rfl
      have hptr := hok.ptr
      have hdata := hok.data
      have hcontent := hok.content_length
      have hsize : sizeT (Int32.ofNat node.ptr).toInt = node.ptr := by
        unfold CCEPH_BUFFER_NODE_LENGTH at *
        rw [Int32.toInt_ofNat_of_lt (by omega), sizeT_of_nonneg (by omega) (by omega)]
        rfl
      rw [List.map_cons, List.flatten_cons, List.length_append, hcontent] at hblock
      have hmemcpy : (memcpy block pos (some node.data) node.ptr : Prog Allocs (List UInt8))
          = pure (block.take pos ++ node.content ++ block.drop (pos + node.ptr)) := by
        unfold memcpy
        by_cases hzero : node.ptr = 0
        · rw [if_pos hzero, List.eq_nil_of_length_eq_zero (hcontent.trans hzero), hzero,
            List.append_nil, Nat.add_zero, List.take_append_drop]
        · rw [if_neg hzero]
          exact if_pos ⟨by omega, by omega⟩
      have htake : (block.take pos ++ node.content).length = pos + node.ptr := by
        rw [List.length_append, List.length_take, hcontent]
        omega
      have hblock' : (block.take pos ++ node.content ++ block.drop (pos + node.ptr)).length
          = pos + node.ptr + (after.map BufferNode.content).flatten.length := by
        rw [List.length_append, htake, List.length_drop]
        omega
      have hbefore : (before ++ [node]).length = before.length + 1 := by
        rw [List.length_append, List.length_singleton]
      have ih := bufferFlatLoop_spec h after (before ++ [node])
        (by rw [hsplit, List.append_assoc]; rfl) _ _ hblock' s
      rw [hbefore, ← hnext, List.take_append_of_le_length (Nat.le_of_eq htake.symm),
        List.take_of_length_le (Nat.le_of_eq htake)] at ih
      rw [if_neg (by nofun), List.length_cons]
      unfold bufferFlatLoop
      simp only [hget, pure_bind, hsize, hmemcpy]
      rw [ih, List.map_cons, List.flatten_cons, List.append_assoc]

/-- The whole content, and its length. -/
theorem bufferFlat_spec (h : ChainOk buffer full last) (hne : buffer.content ≠ []) :
    bufferFlat buffer .plenty
      = .ok ((CCEPH_OK, some buffer.content, some buffer.offset), .plenty) := by
  have hoffset := h.offset_eq
  have hbo := int32_bounds buffer.offset
  have hpos := List.length_pos_iff.mpr hne
  have hzero : buffer.offset ≠ 0 := by
    intro h0
    rw [h0] at hoffset
    have : (0 : Int32).toInt = 0 := rfl
    omega
  have hsize : sizeT buffer.offset.toInt = buffer.content.length := by
    rw [sizeT_of_nonneg (by omega) (by omega)]
    omega
  have hnodes : buffer.nodes ≠ [] := by
    rw [h.nodes]
    simp
  have hloop := bufferFlatLoop_spec h buffer.nodes [] rfl
    (List.replicate buffer.content.length 0) 0 (by
      rw [List.length_replicate, Nat.zero_add]
      rfl) .plenty
  rw [if_neg hnodes, List.length_nil, List.take_zero, List.nil_append] at hloop
  unfold bufferFlat
  rw [if_neg hzero]
  simp only [hsize, h.head]
  rw [bind_ok (malloc_plenty (by omega))]
  simp only [Bool.not_true, Bool.false_eq_true, if_false]
  rw [bind_ok hloop]
  rfl

end

end CephInC
