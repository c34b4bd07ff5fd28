/-
A string decoded from bytes that nobody vouches for.

Bytes announce a string by an `int32_t` in front of it, and have it whole
or not (`announcedBytes`). The decoder is right about a negative length
and about one that is cut off. Right it is about any other length only
if there is something to read and all of it is there
(`decodeString_announced_iff`): no bytes trip an assertion of the second
read, and where the bytes end too soon, the code that says so comes with
a block.
-/
import CephInC.Common.Proofs.Strings

namespace CephInC

open Lib

-- ============================================================= vocabulary

/-- The bytes that are announced at the front, if they are all there. -/
def announcedBytes : Decoder (List UInt8) := do
  let length ← int32Codec.decode
  if 0 ≤ length.toInt then
    takeBytes length.toInt.toNat
  else
    fun _ => none

/-- From `p` on, `CCEPH_OK` comes with the announced bytes, and any other code
with NULL. -/
def DecodesAnnounced (buffer : Buffer) (content : List UInt8) (p : Nat) (fresh : Nat → UInt8)
    (s : Allocs) : Prop :=
  ∃ ret value reader s',
    decodeString buffer fresh (readerAt content p) none s = .ok ((ret, value, reader), s')
      ∧ (∀ bytes rest, announcedBytes (content.drop p) = some (bytes, rest) → s.head = true →
        ret = CCEPH_OK ∧ value = some bytes)
      ∧ (announcedBytes (content.drop p) = none ∨ s.head = false →
        ret ≠ CCEPH_OK ∧ value = none)

/-- The length in front, if it is there and `malloc` grants it, is positive
and not larger than what follows. -/
def LengthSound (bytes : List UInt8) (s : Allocs) : Prop :=
  ∀ length rest, int32Codec.decode bytes = some (length, rest) → 0 ≤ length.toInt →
    s.head = true → 0 < length.toInt ∧ length.toInt.toNat ≤ rest.length

-- ========================================================= what is announced

variable {buffer : Buffer} {content : List UInt8} {p : Nat} {fresh : Nat → UInt8} {s : Allocs}

theorem announcedBytes_cut {bytes : List UInt8} (h : int32Codec.decode bytes = none) :
    announcedBytes bytes = none := by
  unfold announcedBytes
  rw [decoder_bind_none h]

theorem announcedBytes_length {bytes rest : List UInt8} {length : Int32}
    (h : int32Codec.decode bytes = some (length, rest)) :
    announcedBytes bytes
      = if 0 ≤ length.toInt then takeBytes length.toInt.toNat rest else none := by
  unfold announcedBytes
  rw [decoder_bind_some h]
  by_cases hnonneg : 0 ≤ length.toInt
  · rw [if_pos hnonneg, if_pos hnonneg]
  · rw [if_neg hnonneg, if_neg hnonneg]

/-- A code for the other case. -/
theorem decodesAnnounced_failed {ret : Int} {reader : BufferReader} {s' : Allocs}
    (hrun : decodeString buffer fresh (readerAt content p) none s = .ok ((ret, none, reader), s'))
    (hret : ret ≠ CCEPH_OK)
    (hnone : announcedBytes (content.drop p) = none ∨ s.head = false) :
    DecodesAnnounced buffer content p fresh s := by
  refine ⟨ret, none, reader, s', hrun, fun bytes rest hsome hhead => ?_, fun _ => ⟨hret, rfl⟩⟩
  cases hnone with
  | inl hnone =>
      rw [hnone] at hsome
      cases hsome
  | inr hrefused =>
      rw [hrefused] at hhead
      cases hhead

-- ============================================================== both ways

/-- A length that is cut off is noticed. -/
theorem decodesAnnounced_cut (h : buffer.Holds content)
    (hcut : int32Codec.decode (content.drop p) = none) :
    DecodesAnnounced buffer content p fresh s := by
  have hshort : (content.drop p).length < 4 := by
    by_contra hlong
    rw [int32Codec.decode_of_le (Nat.not_lt.mp hlong)] at hcut
    cases hcut
  exact decodesAnnounced_failed (decodeString_cut h hshort fresh s) (by decide)
    (.inl (announcedBytes_cut hcut))

/-- So is one that is refused. -/
theorem decodesAnnounced_refused (h : buffer.Holds content) {length : Int32} {rest : List UInt8}
    (hlength : int32Codec.decode (content.drop p) = some (length, rest))
    (hrefused : length.toInt < 0 ∨ s.head = false) :
    DecodesAnnounced buffer content p fresh s := by
  have hbytes := int32Codec.decode_eq_some.mp hlength
  refine decodesAnnounced_failed (decodeString_refused h hbytes fresh hrefused) (by decide) ?_
  apply hrefused.imp_left
  intro hneg
  rw [announcedBytes_length hlength, if_neg (Int.not_le.mpr hneg)]

/-- What is all there is read. -/
theorem decodesAnnounced_whole (h : buffer.Holds content) {length : Int32} {rest : List UInt8}
    (hlength : int32Codec.decode (content.drop p) = some (length, rest))
    (hpos : 0 < length.toInt) (henough : length.toInt.toNat ≤ rest.length)
    (hhead : s.head = true) : DecodesAnnounced buffer content p fresh s := by
  have hbytes := int32Codec.decode_eq_some.mp hlength
  have hannounced : announcedBytes (content.drop p)
      = some (rest.take length.toInt.toNat, rest.drop length.toInt.toNat) := by
    rw [announcedBytes_length hlength, if_pos (Int.le_of_lt hpos), takeBytes_of_le henough]
  refine ⟨_, _, _, _, decodeString_whole h hbytes fresh hpos henough hhead, ?_, ?_⟩
  · intro bytes rest' hsome _
    rw [hannounced] at hsome
    cases hsome
    exact ⟨rfl, rfl⟩
  · rw [hannounced, hhead]
    intro hor
    cases hor with
    | inl hnone => cases hnone
    | inr hfalse => cases hfalse

/-- Nothing to read is an assertion that fails. -/
theorem not_decodesAnnounced_zero (h : buffer.Holds content) {length : Int32}
    {rest : List UInt8} (hlength : int32Codec.decode (content.drop p) = some (length, rest))
    (hzero : length.toInt = 0) (hhead : s.head = true) :
    ¬DecodesAnnounced buffer content p fresh s := by
  have hbytes := int32Codec.decode_eq_some.mp hlength
  rintro ⟨ret, value, reader, s', hrun, -⟩
  rw [decodeString_zero h hbytes fresh hzero hhead] at hrun
  cases hrun

/-- Too little to read is told, but the pointer is not NULL. -/
theorem not_decodesAnnounced_short (h : buffer.Holds content) {length : Int32}
    {rest : List UInt8} (hlength : int32Codec.decode (content.drop p) = some (length, rest))
    (hpos : 0 < length.toInt) (hshort : rest.length < length.toInt.toNat)
    (hhead : s.head = true) : ¬DecodesAnnounced buffer content p fresh s := by
  have hbytes := int32Codec.decode_eq_some.mp hlength
  have hannounced : announcedBytes (content.drop p) = none := by
    rw [announcedBytes_length hlength, if_pos (Int.le_of_lt hpos), takeBytes_of_lt hshort]
  rintro ⟨ret, value, reader, s', hrun, -, hfailed⟩
  rw [decodeString_read h hbytes fresh hpos hhead] at hrun
  cases hrun
  cases (hfailed (.inl hannounced)).2

-- ======================================================= the main result

/-- From any place in any buffer, the decoder keeps its word exactly if a
length that it finds and that `malloc` grants is positive and no larger
than what follows. -/
theorem decodeString_announced_iff {run : BufferRun} (h : bufferSystem.Reached AppendFits run)
    (p : Nat) (fresh : Nat → UInt8) (s : Allocs) :
    DecodesAnnounced run.buffer run.appended p fresh s ↔ LengthSound (run.appended.drop p) s := by
  have hholds := holds_of_reached h
  constructor
  · intro hdecodes length rest hlength hnonneg hhead
    have hpos : 0 < length.toInt := by
      by_contra hnot
      exact not_decodesAnnounced_zero hholds hlength (by omega) hhead hdecodes
    refine ⟨hpos, ?_⟩
    by_contra hshort
    exact not_decodesAnnounced_short hholds hlength hpos (Nat.not_le.mp hshort) hhead hdecodes
  · intro hsound
    cases hlength : int32Codec.decode (run.appended.drop p) with
    | none => exact decodesAnnounced_cut hholds hlength
    | some r =>
        obtain ⟨length, rest⟩ := r
        by_cases hneg : length.toInt < 0
        · exact decodesAnnounced_refused hholds hlength (.inl hneg)
        cases hhead : s.head with
        | false => exact decodesAnnounced_refused hholds hlength (.inr hhead)
        | true =>
            obtain ⟨hpos, henough⟩ := hsound length rest hlength (Int.not_lt.mp hneg) hhead
            exact decodesAnnounced_whole hholds hlength hpos henough hhead

/-- A buffer with a length of one and one byte behind it. -/
theorem decodeString_announced_one : ∃ run, bufferSystem.Reached AppendFits run
    ∧ run.appended = int32Codec.bytes 1 ++ [97]
    ∧ DecodesAnnounced run.buffer run.appended 0 (fun _ => 0) .plenty := by
  obtain ⟨run, hrun, hbytes⟩ := appended_reached
    (show int32Codec.bytes 1 ++ [97] ≠ [] by decide) (by decide)
  refine ⟨run, hrun, hbytes, (decodeString_announced_iff hrun 0 _ .plenty).2 ?_⟩
  intro length rest hlength _ _
  rw [hbytes] at hlength
  cases int32Codec.decode_eq_some.mpr (show (int32Codec.bytes 1 ++ [97]).drop 0 = _ from rfl)
    |>.symm.trans hlength
  exact ⟨by decide, by decide⟩

/-- A length of zero, and nothing behind it. -/
theorem decodeString_not_announced :
    ¬∀ (run : BufferRun) (fresh : Nat → UInt8), bufferSystem.Reached AppendFits run →
      run.appended ≠ [] → DecodesAnnounced run.buffer run.appended 0 fresh .plenty := by
  intro hall
  obtain ⟨run, hrun, hzeros⟩ := appended_reached
    (show int32Codec.bytes 0 ≠ [] by decide) (by decide)
  have hlength : int32Codec.decode (run.appended.drop 0) = some (0, []) := by
    rw [hzeros]
    rfl
  exact not_decodesAnnounced_zero (holds_of_reached hrun) hlength rfl rfl
    (hall run (fun _ => 0) hrun (by rw [hzeros]; decide))

end CephInC
