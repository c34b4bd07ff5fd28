/-
What an encoder adds to the content of a buffer, and what a decoder
takes from where its reader stands.

`readerAt content p` is where a reader stands that was asked for `p`
bytes so far, also if there were fewer: a decoder that ends too soon
leaves it at the end. So the readers of a sequence of decoders are told
by their sizes alone.
-/
import CephInC.Common.Encode
import CephInC.Common.Proofs.BufferRuns

namespace CephInC

open Lib

-- ============================================================== encoding

theorem freshBuffer_holds : freshBuffer.Holds [] :=
  ⟨⟨[], emptyNode, freshBuffer_ok⟩, freshBuffer_content⟩

theorem holds_of_reached {s : BufferRun} (h : bufferSystem.Reached AppendFits s) :
    s.buffer.Holds s.appended :=
  ⟨(bufferRunOk_reached h).buffer, (bufferRunOk_reached h).content⟩

theorem bufferAppend_holds {buffer : Buffer} {content data : List UInt8}
    (h : buffer.Holds content) (hne : data ≠ [])
    (hlimit : content.length + data.length ≤ bufferLimit) : ∃ buffer',
      bufferAppend buffer data (Int32.ofNat data.length) .plenty
        = .ok ((CCEPH_OK, buffer'), .plenty) ∧ buffer'.Holds (content ++ data) := by
  obtain ⟨⟨full, last, hok⟩, rfl⟩ := h
  have hshort : data.length < 2 ^ 31 := by
    unfold bufferLimit CCEPH_BUFFER_NODE_LENGTH at hlimit
    omega
  obtain ⟨hlength, hpos⟩ := block_length hshort hne
  obtain ⟨ret, buffer', s', hrun, happended⟩ :=
    bufferAppend_spec hok hpos (Int.le_of_eq hlength) (by omega) .plenty
  obtain ⟨rfl, rfl⟩ := happended.plenty rfl
  obtain ⟨n, -, hall, hcontent⟩ := happended.content
  rw [List.take_of_length_le (by have := hall rfl; omega)] at hcontent
  exact ⟨buffer', hrun, happended.ok, hcontent⟩

/-- A buffer can be made to hold any bytes. -/
theorem appended_reached {data : List UInt8} (hne : data ≠ [])
    (hlimit : data.length ≤ bufferLimit) :
    ∃ s, bufferSystem.Reached AppendFits s ∧ s.appended = data := by
  obtain ⟨buffer, full, last, -, -, hreached⟩ := freshRun_append hne hlimit
  exact ⟨_, hreached, rfl⟩

/-- An append of less than a block. -/
theorem bufferAppend_small {buffer : Buffer} {content data : List UInt8}
    (h : buffer.Holds content) (hne : data ≠ []) (hsmall : data.length < CCEPH_BUFFER_NODE_LENGTH)
    (s : Allocs) :
    AppendDone content data s (bufferAppend buffer data (Int32.ofNat data.length) s) := by
  obtain ⟨⟨full, last, hok⟩, rfl⟩ := h
  obtain ⟨hlength, hpos⟩ := block_length (by unfold CCEPH_BUFFER_NODE_LENGTH at hsmall; omega) hne
  have hdone := bufferAppend_done hok hpos (Int.le_of_eq hlength) (.inr (by omega)) s
  rw [List.take_of_length_le (by omega)] at hdone
  exact hdone

/-- A buffer that holds all it can fails on the next append. -/
theorem bufferAppend_full_fails {buffer : Buffer} {content data : List UInt8}
    (h : buffer.Holds content) (hfull : content.length = bufferLimit) (hne : data ≠ [])
    (hdata : data.length < CCEPH_BUFFER_NODE_LENGTH) :
    bufferAppend buffer data (Int32.ofNat data.length) .plenty = .error .assertFail := by
  have hpos := List.length_pos_iff.mpr hne
  have hdone := bufferAppend_small h hne hdata .plenty
  generalize bufferAppend buffer data (Int32.ofNat data.length) .plenty = out at hdone ⊢
  cases hdone with
  | whole _ _ hlimit _ => omega
  | uncounted _ => rfl
  | torn _ _ _ _ hrefused _ => exact absurd (Allocs.plenty_grants _) hrefused

/-- What an encoder comes to that puts `bytes` behind `content`: all of
them if the blocks they take are granted, and fewer if not, whatever it
says; and if there is no counting them, an assertion fails. -/
inductive EncodeDone (content bytes : List UInt8) (s : Allocs) :
    Except Fault ((Int × Buffer) × Allocs) → Prop
  | whole (buffer : Buffer) (hgrants : s.Grants (newBlocks content.length bytes.length))
      (hlimit : content.length + bytes.length ≤ bufferLimit)
      (hholds : buffer.Holds (content ++ bytes)) :
      EncodeDone content bytes s
        (.ok ((CCEPH_OK, buffer), s.drop (newBlocks content.length bytes.length)))
  | uncounted (hlimit : bufferLimit < content.length + bytes.length) :
      EncodeDone content bytes s (.error .assertFail)
  | torn (ret : Int) (buffer : Buffer) (content' : List UInt8) (s' : Allocs)
      (hrefused : ¬s.Grants (newBlocks content.length bytes.length))
      (hholds : buffer.Holds content')
      (hshort : content'.length < content.length + bytes.length) :
      EncodeDone content bytes s (.ok ((ret, buffer), s'))

/-- An encoder of these bytes. -/
def Encodes (f : Buffer → Prog Allocs (Int × Buffer)) (bytes : List UInt8) : Prop :=
  ∀ (buffer : Buffer) (content : List UInt8), buffer.Holds content →
    ∀ s, EncodeDone content bytes s (f buffer s)

theorem AppendDone.encodeDone {content data : List UInt8} {s : Allocs}
    {out : Except Fault ((Int × Buffer) × Allocs)} (h : AppendDone content data s out) :
    EncodeDone content data s out := by
  cases h with
  | whole buffer hgrants hlimit hholds => exact .whole buffer hgrants hlimit hholds
  | uncounted hlimit => exact .uncounted hlimit
  | torn n buffer s' hn hrefused hholds =>
      refine .torn _ buffer _ s' hrefused hholds ?_
      rw [List.length_append, List.length_take]
      omega

theorem encodes_nil : Encodes (fun buffer => pure (CCEPH_OK, buffer)) [] := by
  intro buffer content h s
  obtain ⟨⟨full, last, hok⟩, rfl⟩ := h
  exact (appendDone_nil hok.holds s hok.content_limit).encodeDone

/-- One encoder and another behind it, whatever the first one says. -/
theorem Encodes.append {f g : Buffer → Prog Allocs (Int × Buffer)} {front back : List UInt8}
    (hf : Encodes f front) (hg : Encodes g back) :
    Encodes (fun buffer => f buffer >>= fun r => g r.2) (front ++ back) := by
  intro buffer content h s
  have hblocks : newBlocks content.length (front ++ back).length
      = newBlocks content.length front.length
        + newBlocks (content ++ front).length back.length := by
    rw [List.length_append, List.length_append, newBlocks_add]
  have htotal : (front ++ back).length = front.length + back.length := List.length_append
  have hmid : (content ++ front).length = content.length + front.length := List.length_append
  have hfirst := hf buffer content h s
  simp only
  rw [bind_run]
  generalize f buffer s = out at hfirst
  cases hfirst with
  | uncounted hlimit => exact .uncounted (by omega)
  | whole buffer₁ hgrants hlimit hholds =>
      have hsecond := hg buffer₁ _ hholds (s.drop (newBlocks content.length front.length))
      simp only
      generalize g buffer₁ (s.drop (newBlocks content.length front.length)) = out at hsecond ⊢
      cases hsecond with
      | uncounted hlimit => exact .uncounted (by omega)
      | whole buffer₂ hgrants₂ hlimit hholds₂ =>
          rw [← Allocs.drop_add, ← hblocks]
          refine .whole buffer₂ ?_ (by omega) (by rw [← List.append_assoc]; exact hholds₂)
          rw [hblocks, Allocs.grants_add]
          exact ⟨hgrants, hgrants₂⟩
      | torn ret buffer₂ content₂ s₂ hrefused hholds₂ hshort =>
          refine .torn ret buffer₂ content₂ s₂ ?_ hholds₂ (by omega)
          rw [hblocks, Allocs.grants_add]
          exact fun hall => hrefused hall.2
  | torn ret buffer₁ content₁ s₁ hrefused hholds hshort =>
      have hnot : ¬s.Grants (newBlocks content.length (front ++ back).length) := by
        rw [hblocks, Allocs.grants_add]
        exact fun hall => hrefused hall.1
      have hsecond := hg buffer₁ content₁ hholds s₁
      simp only
      generalize g buffer₁ s₁ = out at hsecond ⊢
      cases hsecond with
      | uncounted hlimit => exact .uncounted (by omega)
      | whole buffer₂ _ _ hholds₂ =>
          refine .torn _ buffer₂ _ _ hnot hholds₂ ?_
          rw [List.length_append]
          omega
      | torn ret₂ buffer₂ content₂ s₂ _ hholds₂ hshort₂ =>
          exact .torn ret₂ buffer₂ content₂ s₂ hnot hholds₂ (by omega)

/-- A run that adds `bytes` to a buffer that holds `content`. -/
def Appends (x : Prog Allocs (Int × Buffer)) (content bytes : List UInt8) : Prop :=
  ∃ buffer, x .plenty = .ok ((CCEPH_OK, buffer), .plenty) ∧ buffer.Holds (content ++ bytes)

theorem Encodes.appends {f : Buffer → Prog Allocs (Int × Buffer)} {bytes : List UInt8}
    (hf : Encodes f bytes) {buffer : Buffer} {content : List UInt8} (h : buffer.Holds content)
    (hlimit : content.length + bytes.length ≤ bufferLimit) :
    Appends (f buffer) content bytes := by
  have hdone := hf buffer content h .plenty
  unfold Appends
  generalize f buffer .plenty = out at hdone ⊢
  cases hdone with
  | whole buffer' _ _ hholds => exact ⟨buffer', rfl, hholds⟩
  | uncounted hover => omega
  | torn _ _ _ _ hrefused _ _ => exact absurd (Allocs.plenty_grants _) hrefused

section
variable {α : Type} (c : Codec α)

theorem encodeBasicType_encodes (hc : 0 < c.size) (hc' : c.size < CCEPH_BUFFER_NODE_LENGTH)
    (value : α) : Encodes (fun buffer => encodeBasicType c buffer value) (c.bytes value) := by
  intro buffer content h s
  have hlength := c.bytes_length value
  have hne : c.bytes value ≠ [] := List.ne_nil_of_length_pos (by omega)
  have hdone := bufferAppend_small h hne (by omega) s
  rw [hlength] at hdone
  exact hdone.encodeDone

-- ============================================================== decoding

theorem bufferReaderRead_at {buffer : Buffer} {content : List UInt8} (h : buffer.Holds content)
    (p : Nat) {length : Int32} (hpos : 0 < length.toInt) (s : Allocs) :
    bufferReaderRead buffer (readerAt content p) length s
      = .ok ((if length.toInt.toNat ≤ (content.drop p).length then CCEPH_OK
          else CCEPH_ERR_BUFFER_END,
        (content.drop p).take length.toInt.toNat,
        readerAt content (p + length.toInt.toNat)), s) := by
  obtain ⟨⟨full, last, hok⟩, rfl⟩ := h
  have hdrop : (buffer.content.drop p).length = buffer.content.length - p := List.length_drop
  by_cases hp : p < buffer.content.length
  · rw [bufferReaderRead_spec hok hp hpos s]
    by_cases henough : length.toInt.toNat ≤ (buffer.content.drop p).length
    · have hn : readLength buffer.content p length = length.toInt.toNat := by
        unfold readLength
        omega
      rw [if_pos henough, if_pos (by omega), hn]
    · have hn : readLength buffer.content p length = (buffer.content.drop p).length := by
        unfold readLength
        omega
      rw [if_neg henough, if_neg (by omega), hn, List.take_of_length_le (Nat.le_refl _),
        List.take_of_length_le (by omega), readerAt_end (by omega), readerAt_end (by omega)]
  · rw [if_neg (by omega), List.drop_eq_nil_of_le (by omega), List.take_nil,
      readerAt_end (by omega), readerAt_end (by omega)]
    exact bufferReaderRead_end hpos s

/-- What the bytes that are there make of the variable. -/
theorem decodeBasicType_at (hc : 0 < c.size) (hc' : c.size < 2 ^ 31) {buffer : Buffer}
    {content : List UInt8} (h : buffer.Holds content) (p : Nat) (value : α) (s : Allocs) :
    ∃ ret, decodeBasicType c buffer (readerAt content p) value s
      = .ok ((ret, c.overwrite value ((content.drop p).take c.size),
        readerAt content (p + c.size)), s) := by
  have hsize := Int32.toInt_ofNat_of_lt hc'
  have hpos : 0 < (Int32.ofNat c.size).toInt := by omega
  have hread := bufferReaderRead_at h p hpos s
  rw [hsize, Int.toNat_natCast] at hread
  unfold decodeBasicType
  rw [bind_ok hread]
  exact ⟨_, rfl⟩

/-- A value that is there is read. -/
theorem decodeBasicType_bytes (hc : 0 < c.size) (hc' : c.size < 2 ^ 31) {buffer : Buffer}
    {content rest : List UInt8} (h : buffer.Holds content) {p : Nat} {value : α}
    (hbytes : content.drop p = c.bytes value ++ rest) (old : α) (s : Allocs) :
    (∃ ret, decodeBasicType c buffer (readerAt content p) old s
      = .ok ((ret, value, readerAt content (p + c.size)), s))
    ∧ content.drop (p + c.size) = rest := by
  obtain ⟨htake, hrest⟩ := c.split_bytes hbytes
  obtain ⟨ret, hrun⟩ := decodeBasicType_at c hc hc' h p old s
  rw [htake, c.overwrite_full old (c.bytes_length value), c.ofBytes_bytes] at hrun
  exact ⟨⟨ret, hrun⟩, hrest⟩

end

end CephInC
