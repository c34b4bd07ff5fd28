/-
Strings in a buffer: no string that is put in comes out as one.

The encoder leaves the terminator out and the decoder allocates the
length it reads, so the block it returns has no room for one. Apart from
that the pair agrees (`decodeString_bytes`); an empty string is not even
put in, since an append of no bytes fails an assertion
(`encodeString_empty`).
-/
import CephInC.Common.Proofs.Encode

namespace CephInC

open Lib

/-- The bytes of a string in a buffer. -/
def stringBytes (value : CString) : List UInt8 :=
  int32Codec.bytes (Int32.ofNat (strlen value)) ++ value.bytes

/-- A string is put behind what is in the buffer, blocks `after` are put
behind it, and it is read from where it was put. -/
def StringRoundTrip (buffer : Buffer) (value : CString) (after : List (List UInt8))
    (fresh : Nat → UInt8) : Prop :=
  ∃ buffer₁ rets buffer₂ block,
    encodeString buffer value .plenty = .ok ((CCEPH_OK, buffer₁), .plenty)
      ∧ bufferAppendAll buffer₁ after .plenty = .ok ((rets, buffer₂), .plenty)
      ∧ decodeString buffer₂ fresh (readerAt buffer₂.content buffer.content.length) none .plenty
        = .ok ((CCEPH_OK, some block,
          readerAt buffer₂.content (buffer.content.length + 4 + strlen value)), .plenty)
      ∧ ReadsAs block value

variable {buffer : Buffer} {content : List UInt8} {value : CString}

theorem stringBytes_length (value : CString) : (stringBytes value).length = 4 + strlen value := by
  unfold stringBytes
  rw [List.length_append, int32Codec.bytes_length]
  rfl

-- ============================================================== encoding

/-- The length is put in first. -/
theorem encodeLength_appends (h : buffer.Holds content) (value : CString)
    (hlimit : content.length + 4 ≤ bufferLimit) :
    Appends (bufferAppend buffer (int32Codec.bytes (Int32.ofNat (strlen value)))
      (Int32.ofNat int32Codec.size)) content
      (int32Codec.bytes (Int32.ofNat (strlen value))) := by
  refine Encodes.appends (encodeBasicType_encodes int32Codec (by decide) (by decide) _) h ?_
  rw [int32Codec.bytes_length]
  exact hlimit

theorem encodeString_empty (h : buffer.Holds content)
    (hempty : value.bytes = []) (hlimit : content.length + 4 ≤ bufferLimit) :
    encodeString buffer value .plenty = .error .assertFail := by
  obtain ⟨buffer₁, hrun, -⟩ := encodeLength_appends h value hlimit
  have hzero : ¬Int32.ofNat (strlen value) > 0 := by
    unfold strlen
    rw [hempty]
    decide
  unfold encodeString
  simp only
  rw [bind_ok hrun]
  simp only [ne_eq, not_true_eq_false, if_false]
  unfold bufferAppend
  rw [assert_neg hzero]
  rfl

theorem encodeString_appends (h : buffer.Holds content)
    (hne : value.bytes ≠ []) (hlimit : content.length + (4 + strlen value) ≤ bufferLimit) :
    Appends (encodeString buffer value) content (stringBytes value) := by
  obtain ⟨buffer₁, hrun₁, hholds₁⟩ := encodeLength_appends h value (by omega)
  have hlength : (content ++ int32Codec.bytes (Int32.ofNat (strlen value))).length
      = content.length + 4 := by
    rw [List.length_append, int32Codec.bytes_length]
    rfl
  have hstrlen : value.bytes.length = strlen value := rfl
  obtain ⟨buffer₂, hrun₂, hholds₂⟩ := bufferAppend_holds hholds₁ hne (by omega)
  refine ⟨buffer₂, ?_, ?_⟩
  · unfold encodeString
    simp only
    rw [bind_ok hrun₁]
    exact hrun₂
  · unfold stringBytes
    rw [← List.append_assoc]
    exact hholds₂

/-- Blocks put behind it leave it where it is. -/
theorem bufferAppendAll_behind : ∀ {after : List (List UInt8)} {buffer buffer' : Buffer}
    {content : List UInt8} {rets : List Int} {s : Allocs}, buffer.Holds content →
    content.length + after.flatten.length ≤ bufferLimit →
    bufferAppendAll buffer after .plenty = .ok ((rets, buffer'), s) →
    buffer'.Holds (content ++ after.flatten)
  | [], buffer, buffer', content, rets, s, h, _, hrun => by
      cases hrun
      rw [List.flatten_nil, List.append_nil]
      exact h
  | block :: rest, buffer, buffer', content, rets, s, h, hlimit, hrun => by
      rw [List.flatten_cons, List.length_append] at hlimit
      unfold bufferAppendAll at hrun
      obtain ⟨⟨ret, buffer₁⟩, s₁, hblock, hrun⟩ := bind_eq_ok hrun
      obtain ⟨⟨rets', buffer₂⟩, s₂, hrest, hlast⟩ := bind_eq_ok hrun
      cases hlast
      have hne : block ≠ [] := by
        intro hnil
        rw [hnil] at hblock
        cases hblock
      obtain ⟨buffer₁', hrun₁, hholds₁⟩ := bufferAppend_holds h hne (by omega)
      rw [hrun₁] at hblock
      cases hblock
      have hall := bufferAppendAll_behind hholds₁ (by rw [List.length_append]; omega) hrest
      rw [List.flatten_cons, ← List.append_assoc]
      exact hall

-- ============================================================== decoding

/-- The length is read first. -/
theorem bufferReaderRead_length (h : buffer.Holds content) {p : Nat} {length : Int32}
    {rest : List UInt8} (hbytes : content.drop p = int32Codec.bytes length ++ rest) (s : Allocs) :
    bufferReaderRead buffer (readerAt content p) (Int32.ofNat int32Codec.size) s
      = .ok ((CCEPH_OK, int32Codec.bytes length, readerAt content (p + 4)), s) := by
  have hsize : (Int32.ofNat int32Codec.size).toInt = 4 := rfl
  have henough : 4 ≤ (content.drop p).length := by
    rw [hbytes, List.length_append, int32Codec.bytes_length, int32Codec_size]
    exact Nat.le_add_right _ _
  have htake := (int32Codec.split_bytes hbytes).1
  rw [int32Codec_size] at htake
  have hread := @bufferReaderRead_at buffer content h p (Int32.ofNat int32Codec.size)
    (by rw [hsize]; decide) s
  rw [hsize, show (4 : Int).toNat = 4 from rfl, if_pos henough, htake] at hread
  exact hread

/-- A length that is cut off. -/
theorem decodeString_cut (h : buffer.Holds content) {p : Nat}
    (hcut : (content.drop p).length < 4) (fresh : Nat → UInt8) (s : Allocs) :
    decodeString buffer fresh (readerAt content p) none s
      = .ok ((CCEPH_ERR_BUFFER_END, none, readerAt content (p + 4)), s) := by
  have hsize : (Int32.ofNat int32Codec.size).toInt = 4 := rfl
  have hread := @bufferReaderRead_at buffer content h p (Int32.ofNat int32Codec.size)
    (by rw [hsize]; decide) s
  rw [hsize, show (4 : Int).toNat = 4 from rfl, if_neg (by omega)] at hread
  unfold decodeString
  rw [assert_pos (show (none : Option (List UInt8)).isNone = true from rfl), pure_bind,
    bind_ok hread]
  rfl

section
variable {p : Nat} {length : Int32} {rest : List UInt8}

/-- A length that `malloc` refuses: a negative one is, whatever the pattern. -/
theorem decodeString_refused (h : buffer.Holds content)
    (hbytes : content.drop p = int32Codec.bytes length ++ rest) (fresh : Nat → UInt8) {s : Allocs}
    (hrefused : length.toInt < 0 ∨ s.head = false) :
    decodeString buffer fresh (readerAt content p) none s
      = .ok ((CCEPH_ERR_NO_ENOUGH_MEM, none, readerAt content (p + 4)), s.tail) := by
  have hmalloc : malloc (sizeT length.toInt) s = .ok (false, s.tail) := by
    by_cases hneg : length.toInt < 0
    · exact malloc_refused (sizeT_of_neg hneg (by have := int32_bounds length; omega)) s
    · have hhead := hrefused.resolve_left hneg
      have hsize := sizeT_of_nonneg (Int.not_lt.mp hneg) (by have := int32_bounds length; omega)
      have hsmall : sizeT length.toInt < 2 ^ 63 := by
        rw [hsize]
        have := int32_bounds length
        omega
      have hrun := malloc_run hsmall s
      rw [hhead] at hrun
      exact hrun
  unfold decodeString
  rw [assert_pos (show (none : Option (List UInt8)).isNone = true from rfl), pure_bind,
    bind_ok (bufferReaderRead_length h hbytes s)]
  simp only [ne_eq, not_true_eq_false, if_false,
    int32Codec.overwrite_full 0 (int32Codec.bytes_length length), int32Codec.ofBytes_bytes]
  rw [bind_ok hmalloc]
  rfl

/-- Once `malloc` has granted a block, it is filled by the second read. -/
theorem decodeString_granted (h : buffer.Holds content)
    (hbytes : content.drop p = int32Codec.bytes length ++ rest) (fresh : Nat → UInt8) {s : Allocs}
    (hnonneg : 0 ≤ length.toInt) (hhead : s.head = true) :
    decodeString buffer fresh (readerAt content p) none s
      = (bufferReaderRead buffer (readerAt content (p + 4)) length >>= fun (ret, data, reader) =>
          pure (ret, some (data ++ ((List.range length.toInt.toNat).map fresh).drop data.length),
            reader)) s.tail := by
  have hsize := sizeT_of_nonneg hnonneg (by have := int32_bounds length; omega)
  have hsmall : sizeT length.toInt < 2 ^ 63 := by
    rw [hsize]
    have := int32_bounds length
    omega
  have hrun := malloc_run hsmall s
  rw [hhead] at hrun
  unfold decodeString
  rw [assert_pos (show (none : Option (List UInt8)).isNone = true from rfl), pure_bind,
    bind_ok (bufferReaderRead_length h hbytes s)]
  simp only [ne_eq, not_true_eq_false, if_false,
    int32Codec.overwrite_full 0 (int32Codec.bytes_length length), int32Codec.ofBytes_bytes]
  rw [bind_ok hrun]
  rfl

/-- A length of zero is an assertion of the second read. -/
theorem decodeString_zero (h : buffer.Holds content)
    (hbytes : content.drop p = int32Codec.bytes length ++ rest) (fresh : Nat → UInt8) {s : Allocs}
    (hzero : length.toInt = 0) (hhead : s.head = true) :
    decodeString buffer fresh (readerAt content p) none s = .error .assertFail := by
  have hnot : ¬length > 0 := by
    rw [int32_pos_iff]
    omega
  rw [decodeString_granted h hbytes fresh (Int.le_of_eq hzero.symm) hhead]
  unfold bufferReaderRead
  rw [assert_neg hnot]
  rfl

/-- Any other length: the block that is returned says how much was there. -/
theorem decodeString_read (h : buffer.Holds content)
    (hbytes : content.drop p = int32Codec.bytes length ++ rest) (fresh : Nat → UInt8) {s : Allocs}
    (hpos : 0 < length.toInt) (hhead : s.head = true) :
    decodeString buffer fresh (readerAt content p) none s
      = .ok ((if length.toInt.toNat ≤ rest.length then CCEPH_OK else CCEPH_ERR_BUFFER_END,
        some (rest.take length.toInt.toNat ++ ((List.range length.toInt.toNat).map fresh).drop
          (rest.take length.toInt.toNat).length),
        readerAt content (p + 4 + length.toInt.toNat)), s.tail) := by
  have hrest := (int32Codec.split_bytes hbytes).2
  rw [int32Codec_size] at hrest
  have hread := bufferReaderRead_at h (p + 4) hpos s.tail
  rw [hrest] at hread
  rw [decodeString_granted h hbytes fresh (Int.le_of_lt hpos) hhead, bind_ok hread]
  rfl

/-- All of it was there. -/
theorem decodeString_whole (h : buffer.Holds content)
    (hbytes : content.drop p = int32Codec.bytes length ++ rest) (fresh : Nat → UInt8) {s : Allocs}
    (hpos : 0 < length.toInt) (henough : length.toInt.toNat ≤ rest.length)
    (hhead : s.head = true) :
    decodeString buffer fresh (readerAt content p) none s
      = .ok ((CCEPH_OK, some (rest.take length.toInt.toNat),
        readerAt content (p + 4 + length.toInt.toNat)), s.tail) := by
  have htake : (rest.take length.toInt.toNat).length = length.toInt.toNat :=
    List.length_take_of_le henough
  have hfilled : ((List.range length.toInt.toNat).map fresh).drop length.toInt.toNat = [] := by
    refine List.drop_eq_nil_of_le (Nat.le_of_eq ?_)
    rw [List.length_map, List.length_range]
  rw [decodeString_read h hbytes fresh hpos hhead, if_pos henough, htake, hfilled,
    List.append_nil]

end

/-- A string that is there is read into a block of its length. -/
theorem decodeString_bytes (h : buffer.Holds content) {p : Nat}
    {rest : List UInt8} (hne : value.bytes ≠ []) (hshort : strlen value < 2 ^ 31)
    (hbytes : content.drop p = stringBytes value ++ rest) (fresh : Nat → UInt8) :
    decodeString buffer fresh (readerAt content p) none .plenty
      = .ok ((CCEPH_OK, some value.bytes, readerAt content (p + 4 + strlen value)), .plenty) := by
  have hpos : 0 < strlen value := List.length_pos_iff.mpr hne
  have hlength := Int32.toInt_ofNat_of_lt hshort
  unfold stringBytes at hbytes
  rw [List.append_assoc] at hbytes
  have henough : strlen value ≤ (value.bytes ++ rest).length := by
    rw [List.length_append]
    exact Nat.le_add_right _ _
  have hwhole := decodeString_whole h hbytes fresh (s := .plenty) (by rw [hlength]; omega)
    (by rw [hlength, Int.toNat_natCast]; exact henough) rfl
  rw [hlength, Int.toNat_natCast, show (value.bytes ++ rest).take (strlen value) = value.bytes
    from List.take_left] at hwhole
  exact hwhole

/-- The terminator has no room in a block of the string's length. -/
theorem not_readsAs_bytes (value : CString) : ¬ReadsAs value.bytes value := by
  rintro ⟨rest, hblock⟩
  have hlength := congrArg List.length hblock
  rw [List.length_append, List.length_cons] at hlength
  omega

-- ================================================================== both

/-- A string that was put in is read as its bytes, wherever it lies. -/
theorem decodeString_behind (h : buffer.Holds (content ++ stringBytes value))
    (hne : value.bytes ≠ []) {after : List (List UInt8)} (fresh : Nat → UInt8)
    (hlimit : content.length + (4 + strlen value) + after.flatten.length ≤ bufferLimit)
    {rets : List Int} {buffer' : Buffer} {s : Allocs}
    (hafter : bufferAppendAll buffer after .plenty = .ok ((rets, buffer'), s)) :
    decodeString buffer' fresh (readerAt buffer'.content content.length) none .plenty
      = .ok ((CCEPH_OK, some value.bytes,
        readerAt buffer'.content (content.length + 4 + strlen value)), .plenty) := by
  have hlength : (content ++ stringBytes value).length = content.length + (4 + strlen value) := by
    rw [List.length_append, stringBytes_length]
  have hholds := bufferAppendAll_behind h (by omega) hafter
  have hbytes : (content ++ stringBytes value ++ after.flatten).drop content.length
      = stringBytes value ++ after.flatten := by
    rw [List.append_assoc, List.drop_left]
  have hshort : strlen value < 2 ^ 31 := by
    unfold bufferLimit at hlimit
    omega
  rw [hholds.2]
  exact decodeString_bytes hholds hne hshort hbytes fresh

theorem not_stringRoundTrip (h : buffer.Holds content) {after : List (List UInt8)}
    (fresh : Nat → UInt8)
    (hlimit : content.length + (4 + strlen value) + after.flatten.length ≤ bufferLimit) :
    ¬StringRoundTrip buffer value after fresh := by
  rintro ⟨buffer₁, rets, buffer₂, block, hencode, hafter, hdecode, hreads⟩
  by_cases hempty : value.bytes = []
  · rw [encodeString_empty h hempty (by omega)] at hencode
    cases hencode
  · obtain ⟨buffer₁', hencode', hholds₁⟩ := encodeString_appends h hempty (by omega)
    rw [hencode'] at hencode
    cases hencode
    rw [h.2, decodeString_behind hholds₁ hempty fresh hlimit hafter] at hdecode
    cases hdecode
    exact not_readsAs_bytes value hreads

-- ======================================================= the main result

/-- No string makes the round trip. An empty one is not put in. Any other
one is, and is read into a block that holds its bytes and no terminator. -/
theorem string_never_roundTrip {run : BufferRun} (h : bufferSystem.Reached AppendFits run)
    (value : CString) (after : List (List UInt8)) (fresh : Nat → UInt8)
    (hlimit : run.appended.length + (4 + strlen value) + after.flatten.length ≤ bufferLimit) :
    ¬StringRoundTrip run.buffer value after fresh
    ∧ (value.bytes = [] → encodeString run.buffer value .plenty = .error .assertFail)
    ∧ (value.bytes ≠ [] → ∃ buffer₁,
        encodeString run.buffer value .plenty = .ok ((CCEPH_OK, buffer₁), .plenty)
        ∧ ∀ rets buffer₂ s, bufferAppendAll buffer₁ after .plenty = .ok ((rets, buffer₂), s) →
          decodeString buffer₂ fresh (readerAt buffer₂.content run.appended.length) none .plenty
            = .ok ((CCEPH_OK, some value.bytes,
              readerAt buffer₂.content (run.appended.length + 4 + strlen value)), .plenty)) := by
  have hholds := holds_of_reached h
  refine ⟨not_stringRoundTrip hholds fresh hlimit, ?_, fun hne => ?_⟩
  · exact fun hempty => encodeString_empty hholds hempty (by omega)
  · obtain ⟨buffer₁, hencode, hholds₁⟩ := encodeString_appends hholds hne (by omega)
    exact ⟨buffer₁, hencode,
      fun rets buffer₂ s hafter => decodeString_behind hholds₁ hne fresh hlimit hafter⟩

/-- The string `a`. -/
def stringA : CString := ⟨[97], noNul_a⟩

theorem string_never_roundTrip_a : ¬StringRoundTrip freshRun.buffer stringA [] fun _ => 0 :=
  (string_never_roundTrip (freshRun_reached trivial) stringA [] (fun _ => 0) (by decide)).1

/-- A block of one byte is returned for `a`. -/
theorem string_not_roundTrip :
    ¬∀ (run : BufferRun) (value : CString) (after : List (List UInt8)) (fresh : Nat → UInt8),
      bufferSystem.Reached AppendFits run →
      run.appended.length + (4 + strlen value) + after.flatten.length ≤ bufferLimit →
      StringRoundTrip run.buffer value after fresh := by
  intro hall
  have hreached : bufferSystem.Reached AppendFits freshRun := freshRun_reached trivial
  exact not_stringRoundTrip (holds_of_reached hreached) (fun _ => 0) (by decide)
    (hall freshRun stringA [] (fun _ => 0) hreached (by decide))

end CephInC
