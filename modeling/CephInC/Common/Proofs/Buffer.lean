/-
What a buffer holds, and what an append adds to it.

`BufferOk` is the shape of a buffer between two calls: the nodes in
order, all full but the last, and the two counts right. Its content is
what its nodes hold up to their write positions. A turn of the append
loop copies a part of the data behind it (`bufferAppendTurn_done`), and
the loop all of it (`bufferAppend_done`), unless a node cannot be had.
-/
import CephInC.Common.BufferRuns
import CephInC.Lib.Blocks

namespace CephInC

open Lib

-- ================================================================= shape

/-- What a node holds. -/
def BufferNode.content (node : BufferNode) : List UInt8 := node.data.take node.ptr

/-- What a buffer holds. -/
def Buffer.content (buffer : Buffer) : List UInt8 :=
  (buffer.nodes.map BufferNode.content).flatten

/-- A node in order. -/
structure BlockOk (node : BufferNode) : Prop where
  data : node.data.length = CCEPH_BUFFER_NODE_LENGTH
  length : node.length.toInt = CCEPH_BUFFER_NODE_LENGTH
  ptr : node.ptr ≤ CCEPH_BUFFER_NODE_LENGTH

theorem BlockOk.content_length {node : BufferNode} (h : BlockOk node) :
    node.content.length = node.ptr := by
  unfold BufferNode.content
  rw [List.length_take, h.data]
  exact Nat.min_eq_left h.ptr

theorem BlockOk.emptySize {node : BufferNode} (h : BlockOk node) :
    node.emptySize.toInt = CCEPH_BUFFER_NODE_LENGTH - node.ptr := by
  have hlen := h.length
  have hptr := h.ptr
  unfold CCEPH_BUFFER_NODE_LENGTH at *
  unfold BufferNode.emptySize
  rw [int32_toInt_sub_ofNat (by omega), hlen]

/-- The nodes `full ++ [last]` and the counts of a buffer. The last node may
be empty. -/
structure ChainOk (buffer : Buffer) (full : List BufferNode) (last : BufferNode) : Prop where
  nodes : buffer.nodes = full ++ [last]
  head : buffer.head = 0
  current : buffer.current = full.length
  fullOk : ∀ node ∈ full, BlockOk node ∧ node.ptr = CCEPH_BUFFER_NODE_LENGTH
  lastOk : BlockOk last
  links : ∀ i node, full[i]? = some node → node.next = some (i + 1)
  ends : last.next = none
  length : buffer.length.toInt = CCEPH_BUFFER_NODE_LENGTH * (full.length + 1)
  offset : buffer.offset.toInt = CCEPH_BUFFER_NODE_LENGTH * full.length + last.ptr

/-- A buffer between two calls: only a buffer nothing was appended to has
an empty node. -/
structure BufferOk (buffer : Buffer) (full : List BufferNode) (last : BufferNode) : Prop
    extends ChainOk buffer full last where
  started : full ≠ [] → 0 < last.ptr

theorem full_content_length {full : List BufferNode}
    (h : ∀ node ∈ full, BlockOk node ∧ node.ptr = CCEPH_BUFFER_NODE_LENGTH) :
    (full.map BufferNode.content).flatten.length = CCEPH_BUFFER_NODE_LENGTH * full.length := by
  rw [length_flatten_blocks (c := CCEPH_BUFFER_NODE_LENGTH), List.length_map]
  intro b hb
  obtain ⟨node, hnode, rfl⟩ := List.mem_map.mp hb
  rw [(h node hnode).1.content_length, (h node hnode).2]

namespace ChainOk

variable {buffer : Buffer} {full : List BufferNode} {last : BufferNode}

theorem content_eq (h : ChainOk buffer full last) :
    buffer.content = (full.map BufferNode.content).flatten ++ last.content := by
  unfold Buffer.content
  rw [h.nodes, List.map_append, List.flatten_append]
  simp

theorem content_length (h : ChainOk buffer full last) :
    buffer.content.length = CCEPH_BUFFER_NODE_LENGTH * full.length + last.ptr := by
  rw [h.content_eq, List.length_append, full_content_length h.fullOk,
    h.lastOk.content_length]

theorem offset_eq (h : ChainOk buffer full last) :
    buffer.offset.toInt = buffer.content.length := by
  rw [h.offset, h.content_length]
  rfl

theorem node_current (h : ChainOk buffer full last) :
    buffer.node buffer.current = pure last := by
  unfold Buffer.node
  rw [h.nodes, h.current, List.getElem?_concat_length]
  rfl

/-- What `bufferFill` sees of the current node. -/
theorem setNode_current (h : ChainOk buffer full last) (node : BufferNode) :
    buffer.setNode buffer.current node = { buffer with nodes := full ++ [node] } := by
  unfold Buffer.setNode
  rw [h.nodes, h.current, List.set_append_right _ _ (Nat.le_refl _), Nat.sub_self]
  rfl

end ChainOk

-- ============================================================== appending

/-- An empty node, as `cceph_buffer_node_new` makes it. -/
def emptyNode : BufferNode :=
  ⟨none, 0, Int32.ofNat CCEPH_BUFFER_NODE_LENGTH, List.replicate CCEPH_BUFFER_NODE_LENGTH 0⟩

theorem emptyNode_ok : BlockOk emptyNode where
  data := List.length_replicate
  length := rfl
  ptr := Nat.zero_le _

theorem emptyNode_content : emptyNode.content = [] := rfl

theorem bufferNodeNew_run (s : Allocs) :
    bufferNodeNew s = .ok (if s.head then (CCEPH_OK, some emptyNode)
      else (CCEPH_ERR_NO_ENOUGH_MEM, none), s.tail) := by
  unfold bufferNodeNew
  rw [bind_run]
  unfold malloc
  cases hs : s.head with
  | true => rfl
  | false => rfl

section
variable {buffer : Buffer} {full : List BufferNode} {last : BufferNode}

/-- The buffer with another node behind the current one. -/
def Buffer.grown (buffer : Buffer) (full : List BufferNode) (last : BufferNode) : Buffer :=
  { buffer with
    nodes := full ++ [{ last with next := some buffer.nodes.length }] ++ [emptyNode]
    current := buffer.nodes.length
    length := buffer.length + emptyNode.length }

theorem bufferGrow_run (h : ChainOk buffer full last) (s : Allocs) :
    bufferGrow buffer s = .ok (if s.head then (CCEPH_OK, buffer.grown full last)
      else (CCEPH_ERR_NO_ENOUGH_MEM, buffer), s.tail) := by
  unfold bufferGrow
  rw [bind_ok (bufferNodeNew_run s)]
  cases hs : s.head with
  | false => rfl
  | true =>
      simp only [if_true, ne_eq, not_true_eq_false, if_false, deref_some, pure_bind,
        h.node_current, h.setNode_current]
      rfl

theorem ChainOk.nodes_length (h : ChainOk buffer full last) :
    buffer.nodes.length = full.length + 1 := by
  rw [h.nodes, List.length_append]
  rfl

/-- The place of a new node. -/
theorem ChainOk.node_grown (h : ChainOk buffer full last) :
    (buffer.grown full last).node (buffer.grown full last).current = pure emptyNode := by
  have hbefore : (full ++ [{ last with next := some buffer.nodes.length }]).length
      = buffer.nodes.length := by
    rw [h.nodes_length, List.length_append]
    rfl
  unfold Buffer.node Buffer.grown
  rw [List.getElem?_append_right (Nat.le_of_eq hbefore), hbefore, Nat.sub_self]
  rfl

/-- A full chain takes another node. -/
theorem ChainOk.grown (h : ChainOk buffer full last)
    (hfull : last.ptr = CCEPH_BUFFER_NODE_LENGTH)
    (hroom : CCEPH_BUFFER_NODE_LENGTH * (full.length + 2) < 2 ^ 31) :
    ChainOk (buffer.grown full last)
        (full ++ [{ last with next := some buffer.nodes.length }]) emptyNode
      ∧ (buffer.grown full last).content = buffer.content := by
  have hcount := h.nodes_length
  have hnode : emptyNode.length.toInt = CCEPH_BUFFER_NODE_LENGTH := emptyNode_ok.length
  have hlength := h.length
  have hoffset := h.offset
  constructor
  · refine ⟨rfl, h.head, ?_, ?_, emptyNode_ok, ?_, rfl, ?_, ?_⟩
    · show buffer.nodes.length = (full ++ [_]).length
      rw [hcount, List.length_append]
      rfl
    · intro node hnode
      rcases List.mem_append.mp hnode with hmem | hmem
      · exact h.fullOk node hmem
      · rw [List.mem_singleton] at hmem
        subst hmem
        exact ⟨⟨h.lastOk.data, h.lastOk.length, h.lastOk.ptr⟩, hfull⟩
    · intro i node hi
      rw [List.getElem?_append] at hi
      split at hi
      · exact h.links i node hi
      · next hge =>
          obtain ⟨hlt, hget⟩ := List.getElem?_eq_some_iff.mp hi
          have hi' : i = full.length := by
            rw [List.length_singleton] at hlt
            omega
          subst hi'
          rw [List.getElem_singleton] at hget
          rw [← hget, hcount]
    · show (buffer.length + emptyNode.length).toInt
        = CCEPH_BUFFER_NODE_LENGTH * ((full ++ [_]).length + 1)
      unfold CCEPH_BUFFER_NODE_LENGTH at *
      rw [int32_toInt_add (by omega) (by omega), hlength, hnode, List.length_append,
        List.length_singleton]
      omega
    · show buffer.offset.toInt = CCEPH_BUFFER_NODE_LENGTH * (full ++ [_]).length + 0
      rw [hoffset, hfull, List.length_append, List.length_singleton]
      unfold CCEPH_BUFFER_NODE_LENGTH
      omega
  · unfold Buffer.content Buffer.grown
    rw [h.nodes]
    simp only [List.map_append, List.flatten_append, List.map_cons, List.map_nil,
      List.flatten_cons, List.flatten_nil, List.append_nil, emptyNode_content]
    rfl

/-- What a copy of `n` bytes makes of the last node. -/
def BufferNode.filled (node : BufferNode) (data : List UInt8) (n : Nat) : BufferNode :=
  { node with
    data := node.data.take node.ptr ++ data.take n ++ node.data.drop (node.ptr + n)
    ptr := node.ptr + n }

theorem BlockOk.filled {node : BufferNode} (h : BlockOk node) {data : List UInt8} {n : Nat}
    (hn : n ≤ data.length) (hfit : node.ptr + n ≤ CCEPH_BUFFER_NODE_LENGTH) :
    BlockOk (node.filled data n) ∧ (node.filled data n).content = node.content ++ data.take n := by
  have hdata := h.data
  have hlen : (node.data.take node.ptr ++ data.take n).length = node.ptr + n := by
    rw [List.length_append, List.length_take, List.length_take]
    omega
  refine ⟨⟨?_, h.length, hfit⟩, ?_⟩
  · show (node.data.take node.ptr ++ data.take n ++ node.data.drop (node.ptr + n)).length = _
    rw [List.length_append, hlen, List.length_drop]
    omega
  · show (node.data.take node.ptr ++ data.take n ++ node.data.drop (node.ptr + n)).take _ = _
    rw [List.take_append_of_le_length (by rw [hlen]; exact Nat.le_refl _),
      List.take_of_length_le (by rw [hlen]; exact Nat.le_refl _)]
    rfl

/-- The copy of a turn. -/
theorem bufferFill_spec (h : ChainOk buffer full last) {data : List UInt8} {length : Int32}
    (hpos : 0 < length.toInt) (hdata : length.toInt ≤ data.length)
    (hroom : last.ptr < CCEPH_BUFFER_NODE_LENGTH) (s : Allocs) :
    ∃ buffer' n, bufferFill buffer data length s = .ok ((buffer', Int32.ofNat n), s)
      ∧ 0 < n ∧ n ≤ length.toInt ∧ n < 2 ^ 31
      ∧ BufferOk buffer' full (last.filled data n)
      ∧ buffer'.content = buffer.content ++ data.take n := by
  have hempty := h.lastOk.emptySize
  have hlength := h.length
  have hoffset := h.offset
  have hb := int32_bounds buffer.length
  have hbl := int32_bounds length
  unfold bufferFill
  simp only [h.node_current, pure_bind]
  have hmin := int32_toInt_min length last.emptySize
  generalize (if length < last.emptySize then length else last.emptySize) = copy at hmin ⊢
  have hsize : (sizeT copy.toInt : Int) = copy.toInt := by
    rw [sizeT_of_nonneg (by omega) (by omega)]
    omega
  generalize sizeT copy.toInt = n at hsize ⊢
  have hcopy : Int32.ofNat n = copy := by
    rw [← Int32.toInt_inj, Int32.toInt_ofNat_of_lt (by omega), hsize]
  have hfit : n ≤ data.length := by omega
  obtain ⟨hok, hcontent⟩ := h.lastOk.filled (n := n) hfit (by omega)
  have hmemcpy : (memcpy last.data last.ptr (some data) n : Prog Allocs (List UInt8))
      = pure (last.filled data n).data := by
    have hd := h.lastOk.data
    unfold memcpy
    rw [if_neg (by omega)]
    exact if_pos ⟨by omega, by omega⟩
  have hend : ((last.ptr + n : Nat) : Int) ≤ last.length.toInt := by
    rw [h.lastOk.length]
    omega
  have hadd : (buffer.offset + copy).toInt = buffer.offset.toInt + n := by
    unfold CCEPH_BUFFER_NODE_LENGTH at *
    rw [int32_toInt_add (by omega) (by omega), hsize]
  have hle : buffer.offset + copy ≤ (buffer.setNode buffer.current
      { last with data := (last.filled data n).data, ptr := last.ptr + n }).length := by
    show buffer.offset + copy ≤ buffer.length
    rw [Int32.le_iff_toInt_le, hadd]
    unfold CCEPH_BUFFER_NODE_LENGTH at *
    omega
  simp only [hmemcpy, pure_bind]
  rw [assert_pos hend, pure_bind, assert_pos hle, pure_bind, h.setNode_current]
  refine ⟨_, n, by rw [hcopy]; rfl, by omega, by omega, by omega, ?_, ?_⟩
  · refine ⟨⟨rfl, h.head, h.current, h.fullOk, hok, h.links, h.ends, hlength, ?_⟩, ?_⟩
    · show (buffer.offset + copy).toInt = _ + ((last.ptr + n : Nat) : Int)
      rw [hadd, hoffset]
      omega
    · intro _
      show 0 < last.ptr + n
      omega
  · show ((full ++ [last.filled data n]).map BufferNode.content).flatten = _
    rw [h.content_eq, List.map_append, List.flatten_append, List.append_assoc, ← hcontent]
    simp

/-- The choice at the start of a turn. -/
theorem emptySize_eq_zero (h : ChainOk buffer full last) :
    last.emptySize = 0 ↔ last.ptr = CCEPH_BUFFER_NODE_LENGTH := by
  rw [← Int32.toInt_inj, h.lastOk.emptySize]
  show (CCEPH_BUFFER_NODE_LENGTH : Int) - last.ptr = 0 ↔ _
  omega

/-- The start of a turn: the last node has room, or another one is asked
for. -/
inductive RoomDone (buffer : Buffer) (full : List BufferNode) (last : BufferNode) (s : Allocs) :
    Except Fault ((Int × Buffer) × Allocs) → Prop
  | space (hspace : last.ptr < CCEPH_BUFFER_NODE_LENGTH) :
      RoomDone buffer full last s (.ok ((CCEPH_OK, buffer), s))
  | refused (hfull : last.ptr = CCEPH_BUFFER_NODE_LENGTH) (hs : s.head = false) :
      RoomDone buffer full last s (.ok ((CCEPH_ERR_NO_ENOUGH_MEM, buffer), s.tail))
  | grown (hfull : last.ptr = CCEPH_BUFFER_NODE_LENGTH) (hs : s.head = true) :
      RoomDone buffer full last s (.ok ((CCEPH_OK, buffer.grown full last), s.tail))

theorem bufferRoom_done (h : ChainOk buffer full last) (s : Allocs) :
    RoomDone buffer full last s (bufferRoom buffer s) := by
  unfold bufferRoom
  rw [h.node_current, pure_bind]
  by_cases hempty : last.emptySize = 0
  · have hfull := (emptySize_eq_zero h).mp hempty
    rw [if_pos hempty, bufferGrow_run h]
    cases hs : s.head with
    | false => exact .refused hfull hs
    | true => exact .grown hfull hs
  · have hne : last.ptr ≠ CCEPH_BUFFER_NODE_LENGTH :=
      fun hfull => hempty ((emptySize_eq_zero h).mpr hfull)
    have hptr := h.lastOk.ptr
    rw [if_neg hempty]
    exact .space (by omega)

/-- A node more than an `int32_t` counts the bytes of. -/
theorem bufferFill_over_fails (h : ChainOk buffer full last) {data : List UInt8} {length : Int32}
    (hfull : full.length = 2 ^ 19 - 2) (hlast : last.ptr = CCEPH_BUFFER_NODE_LENGTH)
    (hpos : 0 < length.toInt) (hdata : length.toInt ≤ data.length)
    (hsmall : length.toInt < CCEPH_BUFFER_NODE_LENGTH) (s : Allocs) :
    bufferFill (buffer.grown full last) data length s = .error .assertFail := by
  have hempty : emptyNode.emptySize.toInt = CCEPH_BUFFER_NODE_LENGTH := rfl
  have hcopy : (if length < emptyNode.emptySize then length else emptyNode.emptySize)
      = length := by
    apply if_pos
    rw [Int32.lt_iff_toInt_lt, hempty]
    omega
  have hsize : sizeT length.toInt = length.toInt.toNat := by
    unfold CCEPH_BUFFER_NODE_LENGTH at hsmall
    rw [sizeT_of_nonneg (by omega) (by omega)]
  have hmemcpy : (memcpy emptyNode.data emptyNode.ptr (some data) length.toInt.toNat
      : Prog Allocs (List UInt8)) = pure (emptyNode.filled data length.toInt.toNat).data := by
    have hblock := emptyNode_ok.data
    have hstart : emptyNode.ptr = 0 := rfl
    unfold memcpy
    rw [if_neg (by omega)]
    exact if_pos ⟨by omega, by omega⟩
  -- the count of the bytes in all nodes has wrapped around
  have hover : (buffer.length + emptyNode.length).toInt = -2 ^ 31 := by
    have hlen := h.length
    rw [hfull] at hlen
    rw [Int32.toInt_add, hlen]
    rfl
  have hfits : ((emptyNode.ptr + length.toInt.toNat : Nat) : Int) ≤ emptyNode.length.toInt := by
    rw [emptyNode_ok.length, show emptyNode.ptr = 0 from rfl]
    omega
  have hnot : ¬buffer.offset + length ≤ buffer.length + emptyNode.length := by
    have hoffset := h.offset
    unfold CCEPH_BUFFER_NODE_LENGTH at *
    rw [Int32.le_iff_toInt_le, hover, int32_toInt_add (by omega) (by omega)]
    omega
  unfold bufferFill
  simp only [h.node_grown, pure_bind]
  generalize (if length < emptyNode.emptySize then length else emptyNode.emptySize) = copy
    at hcopy ⊢
  subst hcopy
  generalize sizeT copy.toInt = n at hsize ⊢
  subst hsize
  simp only [hmemcpy, pure_bind]
  rw [assert_pos hfits, pure_bind]
  rw [assert_neg (show ¬(buffer.grown full last).offset + copy
    ≤ ((buffer.grown full last).setNode (buffer.grown full last).current _).length from hnot),
    fault_bind]
  rfl

-- ============================================================ an append

/-- A buffer in order, and what is in it. -/
def Buffer.Holds (buffer : Buffer) (content : List UInt8) : Prop :=
  (∃ full last, BufferOk buffer full last) ∧ buffer.content = content

theorem BufferOk.holds (h : BufferOk buffer full last) : buffer.Holds buffer.content :=
  ⟨⟨full, last, h⟩, rfl⟩

/-- What an append of `data` behind `content` comes to: all of it if the
blocks it takes are granted, else a part; and if there is no counting
them, an assertion fails. -/
inductive AppendDone (content data : List UInt8) (s : Allocs) :
    Except Fault ((Int × Buffer) × Allocs) → Prop
  | whole (buffer : Buffer) (hgrants : s.Grants (newBlocks content.length data.length))
      (hlimit : content.length + data.length ≤ bufferLimit)
      (hholds : buffer.Holds (content ++ data)) :
      AppendDone content data s
        (.ok ((CCEPH_OK, buffer), s.drop (newBlocks content.length data.length)))
  | uncounted (hlimit : bufferLimit < content.length + data.length) :
      AppendDone content data s (.error .assertFail)
  | torn (n : Nat) (buffer : Buffer) (s' : Allocs) (hn : n < data.length)
      (hrefused : ¬s.Grants (newBlocks content.length data.length))
      (hholds : buffer.Holds (content ++ data.take n)) :
      AppendDone content data s (.ok ((CCEPH_ERR_NO_ENOUGH_MEM, buffer), s'))

theorem newBlocks_add (content m n : Nat) :
    newBlocks content (m + n) = newBlocks content m + newBlocks (content + m) n := by
  unfold newBlocks blocksFor CCEPH_BUFFER_NODE_LENGTH
  omega

/-- An append of nothing. -/
theorem appendDone_nil {content : List UInt8} (h : buffer.Holds content) (s : Allocs)
    (hlimit : content.length ≤ bufferLimit) :
    AppendDone content [] s (.ok ((CCEPH_OK, buffer), s)) := by
  have hnone : newBlocks content.length ([] : List UInt8).length = 0 := by
    unfold newBlocks
    rw [List.length_nil, Nat.add_zero, Nat.sub_self]
  have hwhole : AppendDone content [] s (.ok ((CCEPH_OK, buffer),
      s.drop (newBlocks content.length ([] : List UInt8).length))) := by
    refine .whole buffer ?_ (by rw [List.length_nil]; omega) (by rw [List.append_nil]; exact h)
    rw [hnone]
    exact s.grants_zero
  rw [hnone] at hwhole
  exact hwhole

/-- An append in two parts. -/
theorem AppendDone.cons {content first rest : List UInt8} {s : Allocs}
    {out : Except Fault ((Int × Buffer) × Allocs)}
    (hgrants : s.Grants (newBlocks content.length first.length))
    (h : AppendDone (content ++ first) rest
      (s.drop (newBlocks content.length first.length)) out) :
    AppendDone content (first ++ rest) s out := by
  have hlength : (content ++ first).length = content.length + first.length := List.length_append
  have hblocks : newBlocks content.length (first ++ rest).length
      = newBlocks content.length first.length
        + newBlocks (content ++ first).length rest.length := by
    rw [hlength, List.length_append, newBlocks_add]
  have htotal : (first ++ rest).length = first.length + rest.length := List.length_append
  cases h with
  | whole buffer hrest hlimit hholds =>
      rw [← Allocs.drop_add, ← hblocks]
      refine .whole buffer ?_ (by omega) (by rw [← List.append_assoc]; exact hholds)
      rw [hblocks, Allocs.grants_add]
      exact ⟨hgrants, hrest⟩
  | uncounted hlimit => exact .uncounted (by omega)
  | torn n buffer s' hn hrefused hholds =>
      refine .torn (first.length + n) buffer s' (by omega) ?_ ?_
      · rw [hblocks, Allocs.grants_add]
        exact fun hall => hrefused hall.2
      · rw [List.take_length_add_append, ← List.append_assoc]
        exact hholds

theorem BufferOk.blocks (h : BufferOk buffer full last) :
    blocksFor buffer.content.length = full.length + 1 := by
  have hlength := h.content_length
  have hptr := h.lastOk.ptr
  have hstarted := h.started
  by_cases hnil : full = []
  · rw [hnil, List.length_nil] at hlength ⊢
    unfold blocksFor CCEPH_BUFFER_NODE_LENGTH at *
    omega
  · have hpos := hstarted hnil
    unfold blocksFor CCEPH_BUFFER_NODE_LENGTH at *
    omega

/-- What is in a buffer can be counted. -/
theorem BufferOk.content_limit (h : BufferOk buffer full last) :
    buffer.content.length ≤ bufferLimit := by
  have hlength := h.content_length
  have hptr := h.lastOk.ptr
  have hcount := h.length
  have hb := int32_bounds buffer.length
  unfold bufferLimit CCEPH_BUFFER_NODE_LENGTH at *
  omega

/-- The loop with `length` bytes to go. -/
def LoopDone (turns : Nat) : Prop :=
  ∀ {buffer : Buffer} {full : List BufferNode} {last : BufferNode} (data : List UInt8)
    (length : Int32), BufferOk buffer full last → 0 ≤ length.toInt →
    length.toInt ≤ data.length → length.toInt ≤ turns →
    buffer.content.length + length.toInt ≤ bufferLimit
      ∨ length.toInt < CCEPH_BUFFER_NODE_LENGTH → ∀ s : Allocs,
    AppendDone buffer.content (data.take length.toInt.toNat) s
      (bufferAppendLoop turns buffer data length s)

/-- A turn, once there is room: it fills the last node, and the loop goes
on from there. The nodes there are now hold what it copies. -/
theorem bufferAppendTurn_done {turns : Nat} (ih : LoopDone turns) (h : ChainOk buffer full last)
    (hspace : last.ptr < CCEPH_BUFFER_NODE_LENGTH) {data : List UInt8} {length : Int32}
    (hpos : 0 < length.toInt) (hdata : length.toInt ≤ data.length)
    (hturns : length.toInt ≤ turns + 1)
    (hsmall : buffer.content.length + length.toInt ≤ bufferLimit
      ∨ length.toInt < CCEPH_BUFFER_NODE_LENGTH) {s s₁ : Allocs}
    (hs : ∀ n, blocksFor (buffer.content.length + n) = full.length + 1 →
      s.Grants (newBlocks buffer.content.length n)
        ∧ s.drop (newBlocks buffer.content.length n) = s₁) :
    AppendDone buffer.content (data.take length.toInt.toNat) s
      ((bufferFill buffer data length >>= fun r => bufferAppendLoop turns r.1
        (data.drop (sizeT r.2.toInt)) (length - r.2)) s₁) := by
  obtain ⟨buffer₂, n, hfill, hn, hle, hlt, hok, hcontent⟩ :=
    bufferFill_spec h hpos hdata hspace s₁
  have hsize := sizeT_int32_ofNat hlt
  have hleft := int32_toInt_sub_ofNat hle
  have hfirst : (data.take n).length = n := by
    rw [List.length_take]
    omega
  have hlength : buffer₂.content.length = buffer.content.length + n := by
    rw [hcontent, List.length_append, hfirst]
  have hdrop : (data.drop n).length = data.length - n := List.length_drop
  have hblocks := hok.blocks
  rw [hlength] at hblocks
  obtain ⟨hgrants, hrest⟩ := hs n hblocks
  rw [bind_ok hfill]
  simp only [hsize]
  have hloop := ih (data.drop n) (length - Int32.ofNat n) hok (by omega) (by omega) (by omega)
    (by omega) s₁
  have hsplit : data.take length.toInt.toNat
      = data.take n ++ (data.drop n).take (length - Int32.ofNat n).toInt.toNat := by
    rw [hleft, ← List.take_add]
    congr 1
    omega
  rw [hcontent] at hloop
  rw [hsplit]
  refine .cons ?_ ?_
  · rw [hfirst]
    exact hgrants
  · rw [hfirst, hrest]
    exact hloop

/-- A turn after another node was granted. -/
theorem bufferGrownTurn_done {turns : Nat} (ih : LoopDone turns) (h : BufferOk buffer full last)
    (hfull : last.ptr = CCEPH_BUFFER_NODE_LENGTH) {data : List UInt8} {length : Int32}
    (hpos : 0 < length.toInt) (hdata : length.toInt ≤ data.length)
    (hturns : length.toInt ≤ turns + 1)
    (hsmall : buffer.content.length + length.toInt ≤ bufferLimit
      ∨ length.toInt < CCEPH_BUFFER_NODE_LENGTH) {s : Allocs} (hs : s.head = true) :
    AppendDone buffer.content (data.take length.toInt.toNat) s
      ((bufferFill (buffer.grown full last) data length >>= fun r => bufferAppendLoop turns r.1
        (data.drop (sizeT r.2.toInt)) (length - r.2)) s.tail) := by
  have hlength := h.content_length
  have hbytes : (data.take length.toInt.toNat).length = length.toInt.toNat := by
    rw [List.length_take]
    omega
  by_cases hcount : full.length = 2 ^ 19 - 2
  · -- there is no counting the bytes of one node more
    have hless : length.toInt < CCEPH_BUFFER_NODE_LENGTH := by
      unfold bufferLimit CCEPH_BUFFER_NODE_LENGTH at *
      omega
    rw [bind_error (bufferFill_over_fails h.toChainOk hcount hfull hpos hdata hless s.tail)]
    refine .uncounted ?_
    unfold bufferLimit CCEPH_BUFFER_NODE_LENGTH at *
    omega
  · have hlimit := h.content_limit
    have hblocks := h.blocks
    have hroom : CCEPH_BUFFER_NODE_LENGTH * (full.length + 2) < 2 ^ 31 := by
      unfold bufferLimit CCEPH_BUFFER_NODE_LENGTH at *
      omega
    obtain ⟨hchain, hcontent⟩ := h.toChainOk.grown hfull hroom
    have hspace : emptyNode.ptr < CCEPH_BUFFER_NODE_LENGTH := Nat.two_pow_pos 12
    rw [← hcontent] at hsmall hblocks ⊢
    refine bufferAppendTurn_done ih hchain hspace hpos hdata hturns hsmall fun n hn => ?_
    have hone : newBlocks (buffer.grown full last).content.length n = 1 := by
      rw [List.length_append, List.length_singleton] at hn
      unfold newBlocks
      omega
    rw [hone, Allocs.grants_one]
    exact ⟨hs, rfl⟩

theorem bufferAppendLoop_done (turns : Nat) : LoopDone turns := by
  induction turns with
  | zero =>
      intro buffer full last data length h hnonneg hdata hturns _ s
      have hzero : length.toInt.toNat = 0 := by omega
      unfold bufferAppendLoop
      rw [if_neg (by rw [int32_pos_iff]; omega), hzero, List.take_zero]
      exact appendDone_nil h.holds s h.content_limit
  | succ turns ih =>
      intro buffer full last data length h hnonneg hdata hturns hsmall s
      unfold bufferAppendLoop
      by_cases hpos : length > 0
      · have hpos' := int32_pos_iff.mp hpos
        have hlength := h.content_length
        have hblocks := h.blocks
        have hbytes : (data.take length.toInt.toNat).length = length.toInt.toNat := by
          rw [List.length_take]
          omega
        rw [if_pos hpos]
        simp only
        rw [bind_run]
        have hroom := bufferRoom_done h.toChainOk s
        generalize bufferRoom buffer s = out at hroom
        cases hroom with
        | space hspace =>
            simp only [ne_eq, not_true_eq_false, if_false]
            refine bufferAppendTurn_done ih h.toChainOk hspace hpos' hdata (by omega) hsmall
              fun n hn => ?_
            have hnone : newBlocks buffer.content.length n = 0 := by
              unfold newBlocks
              omega
            rw [hnone]
            exact ⟨s.grants_zero, s.drop_zero⟩
        | refused hfull hs =>
            have hone : newBlocks buffer.content.length (data.take length.toInt.toNat).length
                = 1 + (newBlocks buffer.content.length
                  (data.take length.toInt.toNat).length - 1) := by
              unfold newBlocks blocksFor CCEPH_BUFFER_NODE_LENGTH at *
              omega
            refine .torn 0 buffer s.tail (by omega) ?_ ?_
            · rw [hone, Allocs.grants_add, Allocs.grants_one, hs]
              exact fun hall => Bool.false_ne_true hall.1
            · rw [List.take_zero, List.append_nil]
              exact h.holds
        | grown hfull hs =>
            simp only [ne_eq, not_true_eq_false, if_false]
            exact bufferGrownTurn_done ih h hfull hpos' hdata (by omega) hsmall hs
      · have hzero : length.toInt.toNat = 0 := by
          have : ¬0 < length.toInt := fun hlt => hpos (int32_pos_iff.mpr hlt)
          omega
        rw [if_neg hpos, hzero, List.take_zero]
        exact appendDone_nil h.holds s h.content_limit

/-- What an append comes to, unless it is of a block or more where there is
no counting it. -/
theorem bufferAppend_done (h : BufferOk buffer full last) {data : List UInt8} {length : Int32}
    (hpos : 0 < length.toInt) (hdata : length.toInt ≤ data.length)
    (hsmall : buffer.content.length + length.toInt ≤ bufferLimit
      ∨ length.toInt < CCEPH_BUFFER_NODE_LENGTH) (s : Allocs) :
    AppendDone buffer.content (data.take length.toInt.toNat) s
      (bufferAppend buffer data length s) := by
  unfold bufferAppend
  rw [assert_pos (int32_pos_iff.mpr hpos), pure_bind]
  exact bufferAppendLoop_done _ data length h (by omega) hdata (by omega) hsmall s

/-- What an append of `length` bytes did: all of it, or a part of it before
an allocation failed. -/
structure Appended (buffer : Buffer) (data : List UInt8) (length : Int32) (s : Allocs)
    (ret : Int) (buffer' : Buffer) (s' : Allocs) : Prop where
  ok : ∃ full last, BufferOk buffer' full last
  content : ∃ n : Nat, n ≤ length.toInt ∧ (ret = CCEPH_OK → n = length.toInt)
    ∧ buffer'.content = buffer.content ++ data.take n
  plenty : s = .plenty → ret = CCEPH_OK ∧ s' = .plenty

/-- An append returns, without an assertion failing. -/
theorem bufferAppend_spec (h : BufferOk buffer full last) {data : List UInt8} {length : Int32}
    (hpos : 0 < length.toInt) (hdata : length.toInt ≤ data.length)
    (hlimit : buffer.content.length + length.toInt ≤ bufferLimit) (s : Allocs) :
    ∃ ret buffer' s', bufferAppend buffer data length s = .ok ((ret, buffer'), s')
      ∧ Appended buffer data length s ret buffer' s' := by
  have hbytes : (data.take length.toInt.toNat).length = length.toInt.toNat := by
    rw [List.length_take]
    omega
  have hdone := bufferAppend_done h hpos hdata (.inl hlimit) s
  generalize bufferAppend buffer data length s = out at hdone ⊢
  cases hdone with
  | whole buffer' hgrants _ hholds =>
      refine ⟨_, _, _, rfl, hholds.1, ⟨length.toInt.toNat, by omega, fun _ => by omega,
        hholds.2⟩, fun hplenty => ⟨rfl, ?_⟩⟩
      rw [hplenty]
      exact Allocs.plenty_drop _
  | uncounted hover => omega
  | torn n buffer' s' hn hrefused hholds =>
      have hfails : ¬CCEPH_ERR_NO_ENOUGH_MEM = CCEPH_OK := by decide
      refine ⟨_, _, _, rfl, hholds.1, ⟨n, by omega, fun hret => absurd hret hfails, ?_⟩,
        fun hplenty => ?_⟩
      · rw [hholds.2, List.take_take, Nat.min_eq_left (by omega)]
      · rw [hplenty] at hrefused
        exact absurd (Allocs.plenty_grants _) hrefused

end

end CephInC
