/-
Appending, flattening and reading back: the content goes through
unchanged, in whatever pieces it comes and goes (`bufferBuild_law`).

With a reader that follows the appends it is different. A reader is
where `readerAt` says only from its first byte on and until it has
caught up once: before anything is appended a read trips an assertion,
and a reader that came to the end does not see what is appended later
(`bufferRun_law`).
-/
import CephInC.Common.Proofs.BufferReader

namespace CephInC

open Lib

-- ============================================================ new buffers

/-- The buffer of `cceph_buffer_new`. -/
def freshBuffer : Buffer := ⟨[emptyNode], 0, 0, Int32.ofNat CCEPH_BUFFER_NODE_LENGTH, 0⟩

theorem freshBuffer_ok : BufferOk freshBuffer [] emptyNode where
  nodes := rfl
  head := rfl
  current := rfl
  fullOk := fun _ h => absurd h List.not_mem_nil
  lastOk := emptyNode_ok
  links := fun i node h => (by cases h)
  ends := rfl
  length := rfl
  offset := rfl
  started := fun h => absurd rfl h

theorem freshBuffer_content : freshBuffer.content = [] := rfl

theorem bufferNew_fresh {s s' : Allocs} {buffer : Buffer}
    (h : bufferNew s = .ok ((CCEPH_OK, some buffer), s')) : buffer = freshBuffer := by
  unfold bufferNew at h
  rw [bind_ok (bufferNodeNew_run s)] at h
  cases hs : s.head with
  | false =>
      rw [hs] at h
      cases h
  | true =>
      rw [hs] at h
      simp only [if_true, ne_eq, not_true_eq_false, if_false, deref_some, pure_bind] at h
      obtain ⟨granted, s₁, -, h⟩ := bind_eq_ok h
      cases granted with
      | false => cases h
      | true =>
          cases h
          rfl

theorem bufferNew_plenty : bufferNew .plenty = .ok ((CCEPH_OK, some freshBuffer), .plenty) := rfl

-- ================================================================ in a row

theorem BufferOk.shape {buffer : Buffer} {full : List BufferNode} {last : BufferNode}
    (h : BufferOk buffer full last) : BufferShape buffer buffer.content where
  full := by
    intro node hnode
    rw [h.nodes, List.dropLast_concat] at hnode
    obtain ⟨hok, hptr⟩ := h.fullOk node hnode
    rw [hok.length, hptr]
  offset := h.offset_eq
  length := by
    rw [h.length, h.nodes, List.length_append]
    rfl

/-- A block that fits, as its length is passed. -/
theorem block_length {block : List UInt8} (h : block.length < 2 ^ 31) (hne : block ≠ []) :
    (Int32.ofNat block.length).toInt = block.length ∧ 0 < (Int32.ofNat block.length).toInt := by
  have hpos := List.length_pos_iff.mpr hne
  have hlength := Int32.toInt_ofNat_of_lt h
  omega

theorem bufferAppendAll_spec : ∀ (blocks : List (List UInt8)) {buffer : Buffer}
    {full : List BufferNode} {last : BufferNode}, BufferOk buffer full last →
    (∀ block ∈ blocks, block ≠ []) →
    buffer.content.length + blocks.flatten.length ≤ bufferLimit →
    ∃ buffer' full' last', bufferAppendAll buffer blocks .plenty
        = .ok ((List.replicate blocks.length CCEPH_OK, buffer'), .plenty)
      ∧ BufferOk buffer' full' last' ∧ buffer'.content = buffer.content ++ blocks.flatten
  | [], buffer, full, last, h, _, _ => by
      refine ⟨buffer, full, last, rfl, h, ?_⟩
      rw [List.flatten_nil, List.append_nil]
  | block :: rest, buffer, full, last, h, hne, hlimit => by
      rw [List.flatten_cons, List.length_append] at hlimit
      have hblock : block.length < 2 ^ 31 := by
        unfold bufferLimit CCEPH_BUFFER_NODE_LENGTH at hlimit
        omega
      obtain ⟨hlength, hpos⟩ := block_length hblock (hne block List.mem_cons_self)
      obtain ⟨ret, buffer₁, s₁, hrun, happended⟩ :=
        bufferAppend_spec h hpos (Int.le_of_eq hlength) (by omega) .plenty
      obtain ⟨rfl, rfl⟩ := happended.plenty rfl
      obtain ⟨full₁, last₁, hok₁⟩ := happended.ok
      obtain ⟨n, -, hall, hcontent⟩ := happended.content
      have hn := hall rfl
      rw [List.take_of_length_le (by omega)] at hcontent
      have hlength₁ := congrArg List.length hcontent
      rw [List.length_append] at hlength₁
      obtain ⟨buffer₂, full₂, last₂, hrun₂, hok₂, hcontent₂⟩ := bufferAppendAll_spec rest hok₁
        (fun b hb => hne b (List.mem_cons_of_mem _ hb)) (by omega)
      refine ⟨buffer₂, full₂, last₂, ?_, hok₂, ?_⟩
      · unfold bufferAppendAll
        rw [bind_ok hrun]
        simp only
        rw [bind_ok hrun₂]
        rfl
      · rw [hcontent₂, hcontent, List.append_assoc, List.flatten_cons]

theorem bufferReadAll_spec {buffer : Buffer} {full : List BufferNode} {last : BufferNode}
    (h : BufferOk buffer full last) : ∀ (sizes : List Int32) (p : Nat),
    (∀ size ∈ sizes, size > 0) →
    p + totalSize sizes = buffer.content.length →
    bufferReadAll buffer (readerAt buffer.content p) sizes .plenty
      = .ok ((List.replicate sizes.length CCEPH_OK, buffer.content.drop p), .plenty)
  | [], p, _, hsum => by
      have hp : buffer.content.length ≤ p := Nat.le_of_eq hsum.symm
      rw [List.drop_eq_nil_of_le hp]
      rfl
  | size :: sizes, p, hpos, hsum => by
      have hsize := int32_pos_iff.mp (hpos size List.mem_cons_self)
      have hsum : p + (size.toInt.toNat + totalSize sizes) = buffer.content.length := hsum
      have hn : readLength buffer.content p size = size.toInt.toNat := by
        unfold readLength
        omega
      have hrun := bufferReaderRead_spec h (p := p) (by omega) hsize .plenty
      rw [if_pos (by omega), hn] at hrun
      have ih := bufferReadAll_spec h sizes (p + size.toInt.toNat)
        (fun size' h' => hpos size' (List.mem_cons_of_mem _ h')) (by omega)
      unfold bufferReadAll
      rw [bind_ok hrun]
      simp only
      rw [bind_ok ih, ← List.drop_drop]
      show Except.ok ((_, _ ++ _), _) = _
      rw [List.take_append_drop]
      rfl

/-- The buffer made of `blocks`. -/
theorem bufferBuild_spec {blocks : List (List UInt8)} (hne : ∀ block ∈ blocks, block ≠ [])
    (htotal : blocks.flatten.length ≤ bufferLimit) : ∃ buffer full last,
      bufferBuild blocks .plenty = .ok ((List.replicate blocks.length CCEPH_OK, buffer), .plenty)
        ∧ BufferOk buffer full last ∧ buffer.content = blocks.flatten := by
  obtain ⟨buffer, full, last, hrun, hok, hcontent⟩ := bufferAppendAll_spec blocks freshBuffer_ok
    hne (by rw [freshBuffer_content, List.length_nil, Nat.zero_add]; exact htotal)
  refine ⟨buffer, full, last, ?_, hok, hcontent⟩
  unfold bufferBuild
  rw [bind_ok bufferNew_plenty]
  exact hrun

/-- What was appended block by block comes out flat, and out of a reader
made afterwards, in whatever pieces it is read; and the buffer has its
shape after every append. -/
structure BufferLaw (blocks : List (List UInt8)) (buffer : Buffer) : Prop where
  build : bufferBuild blocks .plenty
    = .ok ((List.replicate blocks.length CCEPH_OK, buffer), .plenty)
  shape : ∀ k, k ≤ blocks.length → ∃ buffer', bufferBuild (blocks.take k) .plenty
      = .ok ((List.replicate k CCEPH_OK, buffer'), .plenty)
    ∧ BufferShape buffer' (blocks.take k).flatten
  flat : bufferFlat buffer .plenty = .ok ((CCEPH_OK, some blocks.flatten,
    some (Int32.ofNat blocks.flatten.length)), .plenty)
  read : ∀ sizes : List Int32, (∀ size ∈ sizes, size > 0) →
    totalSize sizes = blocks.flatten.length →
    bufferReadBack buffer sizes .plenty
      = .ok ((List.replicate sizes.length CCEPH_OK, blocks.flatten), .plenty)

theorem bufferBuild_law {blocks : List (List UInt8)} (hblocks : blocks ≠ [])
    (hne : ∀ block ∈ blocks, block ≠ [])
    (htotal : blocks.flatten.length + CCEPH_BUFFER_NODE_LENGTH < 2 ^ 31) :
    ∃ buffer, BufferLaw blocks buffer := by
  have hlimit : blocks.flatten.length ≤ bufferLimit := by
    unfold bufferLimit
    omega
  obtain ⟨buffer, full, last, hbuild, hok, hcontent⟩ := bufferBuild_spec hne hlimit
  have hcontentne : buffer.content ≠ [] := by
    obtain ⟨block, rest, rfl⟩ := List.exists_cons_of_ne_nil hblocks
    rw [hcontent, List.flatten_cons]
    exact List.append_ne_nil_of_left_ne_nil (hne block List.mem_cons_self) _
  refine ⟨buffer, hbuild, ?_, ?_, ?_⟩
  · intro k hk
    have hsplit : (blocks.take k).flatten.length ≤ blocks.flatten.length := by
      conv_rhs => rw [← List.take_append_drop k blocks, List.flatten_append, List.length_append]
      exact Nat.le_add_right _ _
    obtain ⟨buffer', full', last', hbuild', hok', hcontent'⟩ := bufferBuild_spec
      (fun block hb => hne block (List.mem_of_mem_take hb)) (Nat.le_trans hsplit hlimit)
    rw [List.length_take, Nat.min_eq_left hk] at hbuild'
    exact ⟨buffer', hbuild', hcontent' ▸ hok'.shape⟩
  · have hoffset : buffer.offset = Int32.ofNat blocks.flatten.length := by
      rw [← Int32.toInt_inj, hok.offset_eq, Int32.toInt_ofNat_of_lt (by omega), hcontent]
    rw [bufferFlat_spec hok.toChainOk hcontentne, hoffset, hcontent]
  · intro sizes hpos hsum
    have hread := bufferReadAll_spec hok sizes 0 hpos (by rw [Nat.zero_add, hcontent]; exact hsum)
    have hnew : bufferReaderNew buffer .plenty
        = .ok ((CCEPH_OK, some (readerAt buffer.content 0)), .plenty) := by
      rw [← readerStart_eq hcontentne]
      unfold bufferReaderNew readerStart
      rw [hok.head]
      rfl
    unfold bufferReadBack
    rw [bind_ok hnew]
    simp only [deref_some, pure_bind]
    rw [hread, hcontent]
    rfl

/-- A block up to the last byte but one of a node and one across it, read
in two reads that part elsewhere. -/
theorem bufferBuild_law_across : ∃ zeros : List UInt8, zeros.length = 4095
    ∧ ∃ buffer, BufferLaw [zeros, [1, 2, 3]] buffer
      ∧ bufferReadBack buffer [4096, 2] .plenty
        = .ok (([CCEPH_OK, CCEPH_OK], zeros ++ [1, 2, 3]), .plenty) := by
  obtain ⟨zeros, hzeros⟩ : ∃ zeros : List UInt8, zeros.length = 4095 :=
    ⟨List.replicate 4095 0, List.length_replicate⟩
  have hflat : [zeros, [1, 2, 3]].flatten = zeros ++ [1, 2, 3] := by
    rw [List.flatten_cons, List.flatten_singleton]
  have hlength : [zeros, [1, 2, 3]].flatten.length = 4098 := by
    rw [hflat, List.length_append, hzeros]
    rfl
  have hne : ∀ block ∈ [zeros, [1, 2, 3]], block ≠ [] := by
    simp [← List.length_pos_iff, hzeros]
  obtain ⟨buffer, hlaw⟩ := bufferBuild_law (List.cons_ne_nil _ _) hne (by rw [hlength]; decide)
  have hpos : ∀ size ∈ ([4096, 2] : List Int32), size > 0 := by
    intro size hsize
    rcases List.mem_pair.mp hsize with rfl | rfl
    · decide
    · decide
  have hread := hlaw.read [4096, 2] hpos (by rw [hlength]; rfl)
  rw [hflat] at hread
  exact ⟨zeros, hzeros, buffer, hlaw, hread⟩

-- ============================================================= in turns

/-- Where a reader is that has given out `taken` bytes: at the start of a
buffer nothing was appended to, at the next byte, or nowhere. -/
inductive ReaderOk (appended : List UInt8) (taken : Nat) : BufferReader → Prop where
  | start (h : appended = []) (htaken : taken = 0) : ReaderOk appended taken readerStart
  | ahead (h : taken < appended.length) : ReaderOk appended taken (readerAt appended taken)
  | ended (h : taken ≤ appended.length) (hne : appended ≠ []) :
      ReaderOk appended taken readerEnd

structure BufferRunOk (s : BufferRun) : Prop where
  buffer : ∃ full last, BufferOk s.buffer full last
  content : s.buffer.content = s.appended
  reader : ∀ reader, s.reader = some reader → ReaderOk s.appended s.taken reader
  fresh : s.reader = none → s.taken = 0

/-- More content leaves a reader where it is. -/
theorem readerAt_append {content : List UInt8} {p : Nat} (hp : p < content.length)
    (bytes : List UInt8) : readerAt (content ++ bytes) p = readerAt content p := by
  unfold readerAt
  rw [if_pos hp, if_pos (by rw [List.length_append]; omega)]

/-- A new reader. -/
theorem readerOk_start (appended : List UInt8) : ReaderOk appended 0 readerStart := by
  by_cases h : appended = []
  · exact .start h rfl
  · rw [readerStart_eq h]
    exact .ahead (List.length_pos_iff.mpr h)

theorem ReaderOk.append {appended : List UInt8} {taken : Nat} {reader : BufferReader}
    (h : ReaderOk appended taken reader) (bytes : List UInt8) :
    ReaderOk (appended ++ bytes) taken reader := by
  cases h with
  | start hnil htaken =>
      rw [htaken]
      exact readerOk_start _
  | ahead hlt =>
      rw [← readerAt_append hlt bytes]
      apply ReaderOk.ahead
      rw [List.length_append]
      omega
  | ended hle hne =>
      apply ReaderOk.ended
      · rw [List.length_append]
        omega
      · exact List.append_ne_nil_of_left_ne_nil hne _

/-- A reader `taken + n` bytes on, however it got there. -/
theorem readerOk_at {appended : List UInt8} {p : Nat} (hp : p ≤ appended.length)
    (hne : appended ≠ []) : ReaderOk appended p (readerAt appended p) := by
  by_cases hlt : p < appended.length
  · exact .ahead hlt
  · rw [readerAt_end (by omega)]
    exact .ended hp hne

/-- What an append puts into the buffer is what the run counts. -/
theorem bufferAppend_run {s : BufferRun} (h : BufferRunOk s) {data : List UInt8}
    {allocs : Allocs} (hfits : AppendFits s (.append data allocs)) :
    ∃ ret buffer allocs', bufferAppend s.buffer data (Int32.ofNat data.length) allocs
        = .ok ((ret, buffer), allocs')
      ∧ (∃ full last, BufferOk buffer full last)
      ∧ buffer.content = s.appended ++ appendedPart s.buffer buffer ret data := by
  obtain ⟨hne, hlimit⟩ := hfits
  obtain ⟨full, last, hok⟩ := h.buffer
  have hcontent := h.content
  have hshort : data.length < 2 ^ 31 := by
    unfold bufferLimit CCEPH_BUFFER_NODE_LENGTH at hlimit
    omega
  obtain ⟨hlength, hpos⟩ := block_length hshort hne
  obtain ⟨ret, buffer, allocs', hrun, happended⟩ := bufferAppend_spec hok hpos
    (Int.le_of_eq hlength) (by rw [hcontent, hlength]; omega) allocs
  obtain ⟨n, hn, hall, hcontent'⟩ := happended.content
  obtain ⟨full', last', hok'⟩ := happended.ok
  refine ⟨ret, buffer, allocs', hrun, happended.ok, ?_⟩
  rw [hcontent', hcontent]
  unfold appendedPart
  split
  · next hret => rw [List.take_of_length_le (by have := hall hret; omega)]
  · have hoffset := hok.offset_eq
    have hoffset' := hok'.offset_eq
    rw [hcontent', List.length_append, List.length_take] at hoffset'
    rw [show (buffer.offset.toInt - s.buffer.offset.toInt).toNat = n by omega]

theorem BufferRunOk.append {s s' : BufferRun} (h : BufferRunOk s) {data : List UInt8}
    {allocs : Allocs} (hfits : AppendFits s (.append data allocs))
    (hstep : bufferStep s (.append data allocs) = some s') : BufferRunOk s' := by
  obtain ⟨ret, buffer, allocs', hrun, hok, hcontent⟩ := bufferAppend_run h hfits
  simp only [bufferStep, hrun] at hstep
  cases hstep
  exact ⟨hok, hcontent, fun reader hreader => (h.reader reader hreader).append _, h.fresh⟩

theorem BufferRunOk.readerNew {s s' : BufferRun} (h : BufferRunOk s) {allocs : Allocs}
    (hstep : bufferStep s (.readerNew allocs) = some s') : BufferRunOk s' := by
  obtain ⟨full, last, hok⟩ := h.buffer
  cases hreader : s.reader with
  | some reader =>
      simp only [bufferStep, hreader] at hstep
      cases hstep
  | none =>
      have hnew : bufferReaderNew s.buffer allocs = .ok (if allocs.head
          then (CCEPH_OK, some readerStart) else (CCEPH_ERR_NO_ENOUGH_MEM, none), allocs.tail) := by
        unfold bufferReaderNew malloc
        rw [bind_run, hok.head]
        cases allocs.head with
        | true => rfl
        | false => rfl
      simp only [bufferStep, hreader, hnew] at hstep
      cases hstep
      refine ⟨h.buffer, h.content, ?_, fun _ => h.fresh hreader⟩
      intro reader hsome
      cases hhead : allocs.head with
      | true =>
          rw [hhead] at hsome
          cases hsome
          show ReaderOk s.appended s.taken readerStart
          rw [h.fresh hreader]
          exact readerOk_start _
      | false =>
          rw [hhead] at hsome
          cases hsome

/-- How a read of a run ends. -/
inductive ReadEnds (s : BufferRun) (length : Int32) : BufferReader →
    Except Fault ((Int × List UInt8 × BufferReader) × Allocs) → Prop where
  | start (h : s.appended = []) :
      ReadEnds s length readerStart (.error .assertFail)
  | enough (hlt : s.taken < s.appended.length) (h : length.toInt ≤ s.unread.length)
      {reader : BufferReader}
      (ok : ReaderOk s.appended (s.taken + length.toInt.toNat) reader) :
      ReadEnds s length (readerAt s.appended s.taken)
        (.ok ((CCEPH_OK, s.unread.take length.toInt.toNat, reader), .plenty))
  | short (hlt : s.taken < s.appended.length) (h : s.unread.length < length.toInt) :
      ReadEnds s length (readerAt s.appended s.taken)
        (.ok ((CCEPH_ERR_BUFFER_END, s.unread, readerEnd), .plenty))
  | ended (h : s.appended ≠ []) : ReadEnds s length readerEnd
      (.ok ((CCEPH_ERR_BUFFER_END, [], readerEnd), .plenty))

theorem BufferRunOk.read_ends {s : BufferRun} (h : BufferRunOk s) {reader : BufferReader}
    (hreader : s.reader = some reader) {length : Int32} (hpos : 0 < length.toInt) :
    ReadEnds s length reader (bufferReaderRead s.buffer reader length .plenty) := by
  obtain ⟨full, last, hok⟩ := h.buffer
  have hcontent := h.content
  have hunread : s.unread.length = s.appended.length - s.taken := List.length_drop
  cases h.reader reader hreader with
  | start hnil htaken =>
      rw [bufferReaderRead_empty hok (hcontent.trans hnil) hpos]
      exact .start hnil
  | ended hle hne =>
      rw [bufferReaderRead_end hpos]
      exact .ended hne
  | ahead hlt =>
      have hrun := bufferReaderRead_spec hok (hcontent ▸ hlt) hpos .plenty
      have hne : s.appended ≠ [] := List.ne_nil_of_length_pos (by omega)
      rw [hcontent] at hrun
      rw [hrun]
      by_cases henough : length.toInt ≤ s.appended.length - s.taken
      · have hn : readLength s.appended s.taken length = length.toInt.toNat := by
          unfold readLength
          omega
        rw [if_pos henough, hn]
        exact .enough hlt (by omega) (readerOk_at (by omega) hne)
      · have hn : readLength s.appended s.taken length = s.unread.length := by
          unfold readLength
          omega
        have hend : readerAt s.appended (s.taken + s.unread.length) = readerEnd :=
          readerAt_end (by omega)
        rw [if_neg henough, hn, hend]
        rw [show (s.appended.drop s.taken).take s.unread.length = s.unread from
          List.take_of_length_le (Nat.le_refl _)]
        exact .short hlt (by omega)

theorem BufferRunOk.read {s s' : BufferRun} (h : BufferRunOk s) {length : Int32}
    (hstep : bufferStep s (.read length) = some s') : BufferRunOk s' := by
  cases hreader : s.reader with
  | none =>
      simp only [bufferStep, hreader] at hstep
      cases hstep
  | some reader =>
      simp only [bufferStep, hreader] at hstep
      have hpos : 0 < length.toInt := by
        by_contra hneg
        unfold bufferReaderRead at hstep
        rw [assert_neg (fun hgt => hneg (int32_pos_iff.mp hgt)), fault_bind] at hstep
        cases hstep
      have hok := h.reader reader hreader
      have hends := h.read_ends hreader hpos
      generalize bufferReaderRead s.buffer reader length .plenty = out at hstep hends
      have hunread : s.unread.length = s.appended.length - s.taken := List.length_drop
      have hkeep : ∀ {reader' : BufferReader} {taken : Nat},
          ReaderOk s.appended taken reader' →
          BufferRunOk { s with reader := some reader', taken } := by
        intro reader' taken hok'
        refine ⟨h.buffer, h.content, ?_, nofun⟩
        intro reader'' hsome
        cases hsome
        exact hok'
      cases hends with
      | start hnil => cases hstep
      | enough hlt henough ok =>
          cases hstep
          rw [List.length_take, Nat.min_eq_left (by omega)]
          exact hkeep ok
      | short hlt hshort =>
          cases hstep
          exact hkeep (.ended (by omega) (List.ne_nil_of_length_pos (by omega)))
      | ended hne =>
          cases hstep
          exact hkeep hok

/-- Every run whose appends fit. -/
theorem bufferRunOk_reached {s : BufferRun} (h : bufferSystem.Reached AppendFits s) :
    BufferRunOk s := by
  apply System.Reached.invariant _ _ h
  · intro s hs
    obtain ⟨buffer, allocs, allocs', hnew, rfl⟩ := hs
    cases bufferNew_fresh hnew
    exact ⟨⟨[], emptyNode, freshBuffer_ok⟩, rfl, nofun, fun _ => rfl⟩
  · intro s call s' hs hfits hstep
    cases call with
    | append data allocs => exact hs.append hfits hstep
    | readerNew allocs => exact hs.readerNew hstep
    | read length => exact hs.read hstep

/-- A read answers as it should exactly if it fits. -/
theorem BufferRunOk.read_iff {s : BufferRun} (h : BufferRunOk s) {reader : BufferReader}
    (hreader : s.reader = some reader) {length : Int32} (hpos : 0 < length.toInt) :
    ReadLaw s reader length ↔ ReadFits s reader length := by
  have hends := h.read_ends hreader hpos
  unfold ReadLaw ReadFits
  generalize bufferReaderRead s.buffer reader length .plenty = out at hends ⊢
  cases hends with
  | start hnil =>
      constructor
      · intro hlaw
        split at hlaw
        · obtain ⟨reader', hrun⟩ := hlaw
          cases hrun
        · obtain ⟨data, reader', hrun⟩ := hlaw
          cases hrun
      · exact fun hfits => absurd hnil hfits.1
  | enough hlt henough ok =>
      have hptr := (readerAt_ptr hlt).1
      rw [if_pos henough]
      refine ⟨fun _ => ⟨List.ne_nil_of_length_pos (by omega), fun hnone => ?_⟩, fun _ => ⟨_, rfl⟩⟩
      rw [hptr] at hnone
      cases hnone
  | short hlt hshort =>
      rw [if_neg (by omega)]
      exact ⟨fun _ => ⟨List.ne_nil_of_length_pos (by omega), fun _ => hshort⟩,
        fun _ => ⟨_, _, rfl⟩⟩
  | ended hne =>
      constructor
      · intro hlaw
        refine ⟨hne, fun _ => ?_⟩
        split at hlaw
        · obtain ⟨reader', hrun⟩ := hlaw
          cases hrun
        · omega
      · intro hfits
        have hshort := hfits.2 rfl
        rw [if_neg (by omega)]
        exact ⟨_, _, rfl⟩

/-- In a run whose appends the counts can follow, an append that they can
follow returns, and a read answers as it should exactly if something was
appended and the reader, once it has come to the end, is not asked for
what came later. -/
theorem bufferRun_law {s : BufferRun} (h : bufferSystem.Reached AppendFits s) :
    (∀ data allocs, AppendFits s (.append data allocs) →
      ∃ r, bufferAppend s.buffer data (Int32.ofNat data.length) allocs = .ok r)
    ∧ ∀ reader length, s.reader = some reader → length > 0 →
      (ReadLaw s reader length ↔ ReadFits s reader length) := by
  have hok := bufferRunOk_reached h
  constructor
  · intro data allocs hfits
    obtain ⟨ret, buffer, allocs', hrun, -, -⟩ := bufferAppend_run hok hfits
    exact ⟨_, hrun⟩
  · intro reader length hreader hpos
    exact hok.read_iff hreader (int32_pos_iff.mp hpos)

/-- A new buffer with a new reader. -/
def freshRun : BufferRun := ⟨freshBuffer, some readerStart, [], 0⟩

theorem freshRun_reached {good : BufferRun → BufferCall → Prop}
    (hgood : good ⟨freshBuffer, none, [], 0⟩ (.readerNew .plenty)) :
    bufferSystem.Reached good freshRun :=
  .next (.start ⟨_, _, _, bufferNew_plenty, rfl⟩) hgood rfl

/-- The block is appended first. -/
theorem freshRun_append {data : List UInt8} (hne : data ≠ []) (hlimit : data.length ≤ bufferLimit) :
    ∃ buffer full last, BufferOk buffer full last ∧ buffer.content = data
      ∧ bufferSystem.Reached AppendFits ⟨buffer, some readerStart, data, 0⟩ := by
  have hfits : AppendFits freshRun (.append data .plenty) :=
    ⟨hne, Nat.le_trans (Nat.le_of_eq (Nat.zero_add _)) hlimit⟩
  have hshort : data.length < 2 ^ 31 := by
    unfold bufferLimit CCEPH_BUFFER_NODE_LENGTH at hlimit
    omega
  obtain ⟨hlength, hpos⟩ := block_length hshort hne
  obtain ⟨ret, buffer, s', hrun, happended⟩ := bufferAppend_spec freshBuffer_ok hpos
    (Int.le_of_eq hlength) (by rw [freshBuffer_content, List.length_nil]; omega) .plenty
  obtain ⟨rfl, rfl⟩ := happended.plenty rfl
  obtain ⟨n, -, hall, hcontent⟩ := happended.content
  obtain ⟨full, last, hok⟩ := happended.ok
  rw [List.take_of_length_le (by have := hall rfl; omega)] at hcontent
  have hstep : bufferStep freshRun (.append data .plenty)
      = some ⟨buffer, some readerStart, data, 0⟩ := by
    simp only [bufferStep, freshRun, hrun]
    rfl
  exact ⟨buffer, full, last, hok, hcontent, .next (freshRun_reached trivial) hfits hstep⟩

/-- Two of three bytes are read: the third is there, a fourth is not. -/
theorem bufferRun_law_midway : ∃ s reader, bufferSystem.Reached AppendFits s
    ∧ s.reader = some reader ∧ s.unread = [3] ∧ ReadLaw s reader 1 ∧ ReadLaw s reader 2 := by
  have hne : ([1, 2, 3] : List UInt8) ≠ [] := List.cons_ne_nil _ _
  obtain ⟨buffer, full, last, hok, hcontent, happended⟩ := freshRun_append hne (by decide)
  have hread := bufferReaderRead_spec hok (p := 0) (by rw [hcontent]; decide)
    (show 0 < (2 : Int32).toInt by decide) .plenty
  rw [hcontent] at hread
  have hstep : bufferStep ⟨buffer, some readerStart, [1, 2, 3], 0⟩ (.read 2)
      = some ⟨buffer, some (readerAt [1, 2, 3] 2), [1, 2, 3], 2⟩ := by
    unfold bufferStep
    simp only [readerStart_eq hne, hread]
    rfl
  have hreached : bufferSystem.Reached AppendFits _ :=
    .next happended (a := BufferCall.read 2) trivial hstep
  have hptr : (readerAt [1, 2, 3] 2).ptr ≠ none := by
    rw [(readerAt_ptr (by decide)).1]
    exact nofun
  have hlaw := (bufferRun_law hreached).2 (readerAt [1, 2, 3] 2)
  exact ⟨_, _, hreached, rfl, rfl,
    (hlaw 1 rfl (by decide)).2 ⟨hne, fun hnone => absurd hnone hptr⟩,
    (hlaw 2 rfl (by decide)).2 ⟨hne, fun hnone => absurd hnone hptr⟩⟩

/-- A read before the first append trips an assertion. -/
theorem bufferReaderRead_fresh_fails :
    ¬∀ (s : BufferRun) (reader : BufferReader) (length : Int32), bufferSystem.Reachable s →
      s.reader = some reader → length > 0 → ReadLaw s reader length := by
  intro h
  have hlaw := h freshRun readerStart 1 (freshRun_reached trivial) rfl (by decide)
  unfold ReadLaw at hlaw
  rw [if_neg (by decide)] at hlaw
  obtain ⟨data, reader', hrun⟩ := hlaw
  rw [show bufferReaderRead freshRun.buffer readerStart 1 .plenty = _ from
    bufferReaderRead_empty freshBuffer_ok freshBuffer_content (by decide) .plenty] at hrun
  cases hrun

end CephInC
