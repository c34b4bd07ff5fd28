/-
A sequence that pieces are written into, one over the other.

A `Patch` puts its bytes at an offset; the sequence grows to their end
where it must, and what was never written there holds a filler `z`. A
patch of no bytes does nothing, wherever it is.

After any patches (`patchAll`) the sequence is as long as the furthest of
their ends (`extent`), and at each place holds what the last patch over
that place put there (`lastByte`): `patchAll_eq`. Earlier patches, their
order where they do not meet, and the growth steps between leave no
trace.
-/
import Mathlib.Data.List.GetD
import Mathlib.Data.List.Induction

namespace CephInC.Lib

variable {α : Type}

/-- Bytes at an offset. -/
structure Patch (α : Type) where
  offset : Nat
  bytes : List α

namespace Patch

/-- Behind its last byte. -/
def stop (p : Patch α) : Nat := p.offset + p.bytes.length

/-- It puts a byte at the place `i`. -/
def covers (p : Patch α) (i : Nat) : Bool := p.offset ≤ i ∧ i < p.stop

end Patch

/-- The sequence with the bytes put at the offset. -/
def splice (z : α) (content : List α) (offset : Nat) (bytes : List α) : List α :=
  let grown := content ++ List.replicate (offset + bytes.length - content.length) z
  grown.take offset ++ bytes ++ grown.drop (offset + bytes.length)

/-- The sequence after a patch. -/
def patch (z : α) (content : List α) (p : Patch α) : List α :=
  if p.bytes.isEmpty then content else splice z content p.offset p.bytes

/-- The sequence after these patches, from nothing. -/
def patchAll (z : α) (ps : List (Patch α)) : List α := ps.foldl (patch z) []

/-- The furthest end of a patch that has bytes. -/
def extent (ps : List (Patch α)) : Nat :=
  ps.foldl (fun n p => if p.bytes.isEmpty then n else max n p.stop) 0

/-- What the last patch over the place `i` puts there. -/
def lastByte (z : α) (ps : List (Patch α)) (i : Nat) : α :=
  match ps.reverse.find? fun p => p.covers i with
  | some p => p.bytes.getD (i - p.offset) z
  | none => z

-- ============================================================== one patch

section
variable {z : α} {content bytes : List α} {offset i : Nat}

theorem length_splice :
    (splice z content offset bytes).length = max content.length (offset + bytes.length) := by
  unfold splice
  simp only [List.length_append, List.length_take, List.length_drop, List.length_replicate]
  omega

/-- The filler is where a shorter sequence has nothing. -/
theorem getD_fill (n : Nat) : (content ++ List.replicate n z).getD i z = content.getD i z := by
  by_cases hi : i < content.length
  · rw [List.getD_append _ _ _ _ hi]
  · have hle : content.length ≤ i := Nat.le_of_not_lt hi
    rw [List.getD_append_right _ _ _ _ hle, List.getD_eq_default _ _ hle]
    rw [List.getD_eq_getElem?_getD, List.getElem?_getD_replicate_default_eq]

theorem getD_splice :
    (splice z content offset bytes).getD i z
      = if offset ≤ i ∧ i < offset + bytes.length then bytes.getD (i - offset) z
        else content.getD i z := by
  have hgrown : offset ≤ (content ++ List.replicate
      (offset + bytes.length - content.length) z).length := by
    rw [List.length_append, List.length_replicate]
    omega
  unfold splice
  simp only
  rw [← @getD_fill α z content i (offset + bytes.length - content.length)]
  generalize content ++ List.replicate (offset + bytes.length - content.length) z = grown
    at hgrown ⊢
  have htake : (grown.take offset).length = offset := by
    rw [List.length_take]
    omega
  by_cases hlow : i < offset
  · have hout : ¬(offset ≤ i ∧ i < offset + bytes.length) := by omega
    have hin : i < (grown.take offset ++ bytes).length := by
      rw [List.length_append]
      omega
    rw [if_neg hout, List.getD_append _ _ _ _ hin, List.getD_append _ _ _ _ (by omega)]
    simp only [List.getD_eq_getElem?_getD, List.getElem?_take_of_lt hlow]
  · by_cases hhigh : i < offset + bytes.length
    · have hin : i < (grown.take offset ++ bytes).length := by
        rw [List.length_append]
        omega
      rw [if_pos ⟨Nat.le_of_not_lt hlow, hhigh⟩, List.getD_append _ _ _ _ hin,
        List.getD_append_right _ _ _ _ (by omega), htake]
    · have hout : ¬(offset ≤ i ∧ i < offset + bytes.length) := by omega
      have hpast : (grown.take offset ++ bytes).length = offset + bytes.length := by
        rw [List.length_append, htake]
      rw [if_neg hout, List.getD_append_right _ _ _ _ (by omega), hpast]
      simp only [List.getD_eq_getElem?_getD, List.getElem?_drop]
      congr 2
      omega

end

-- ============================================================== in a row

section
variable {z : α} {ps : List (Patch α)} {p : Patch α}

theorem patchAll_concat : patchAll z (ps ++ [p]) = patch z (patchAll z ps) p := by
  unfold patchAll
  rw [List.foldl_append]
  rfl

theorem extent_concat :
    extent (ps ++ [p]) = if p.bytes.isEmpty then extent ps else max (extent ps) p.stop := by
  unfold extent
  rw [List.foldl_append]
  rfl

/-- All ends are below a bound if that of each patch with bytes is. -/
theorem extent_lt {n : Nat} (hn : 0 < n) {ps : List (Patch α)}
    (h : ∀ p ∈ ps, p.bytes.isEmpty = false → p.stop < n) : extent ps < n := by
  induction ps using List.reverseRecOn with
  | nil => exact hn
  | append_singleton ps p ih =>
      have hps : extent ps < n := ih fun q hq => h q (List.mem_append_left _ hq)
      have hp := h p (List.mem_append_right _ (List.mem_singleton_self p))
      rw [extent_concat]
      cases hempty : p.bytes.isEmpty with
      | true => exact hps
      | false => exact Nat.max_lt.mpr ⟨hps, hp hempty⟩

theorem lastByte_concat (i : Nat) :
    lastByte z (ps ++ [p]) i
      = if p.covers i then p.bytes.getD (i - p.offset) z else lastByte z ps i := by
  unfold lastByte
  rw [List.reverse_append, List.reverse_singleton, List.singleton_append, List.find?_cons]
  cases p.covers i <;> rfl

/-- A patch of no bytes covers nothing. -/
theorem not_covers_of_empty (h : p.bytes.isEmpty = true) (i : Nat) : ¬p.covers i = true := by
  have hempty := List.isEmpty_iff.mp h
  unfold Patch.covers Patch.stop
  rw [hempty, decide_eq_true_eq, List.length_nil]
  omega

/-- What one more patch does to the length, and to each place. -/
theorem patchAll_spec (z : α) (ps : List (Patch α)) :
    (patchAll z ps).length = extent ps
      ∧ ∀ i, (patchAll z ps).getD i z = lastByte z ps i := by
  induction ps using List.reverseRecOn with
  | nil => exact ⟨rfl, fun _ => rfl⟩
  | append_singleton ps p ih =>
      obtain ⟨hlength, hbytes⟩ := ih
      rw [patchAll_concat, extent_concat]
      unfold patch
      cases hempty : p.bytes.isEmpty with
      | true =>
          refine ⟨hlength, fun i => ?_⟩
          rw [lastByte_concat, if_neg (not_covers_of_empty hempty i)]
          exact hbytes i
      | false =>
          simp only [Bool.false_eq_true, if_false]
          refine ⟨?_, fun i => ?_⟩
          · rw [length_splice, hlength]
            rfl
          · rw [getD_splice, lastByte_concat, hbytes]
            unfold Patch.covers Patch.stop
            simp only [decide_eq_true_eq]

theorem patchAll_eq (z : α) (ps : List (Patch α)) :
    patchAll z ps = (List.range (extent ps)).map (lastByte z ps) := by
  obtain ⟨hlength, hbytes⟩ := patchAll_spec z ps
  refine List.ext_getElem (by rw [hlength, List.length_map, List.length_range]) fun i hi _ => ?_
  rw [List.getElem_map, List.getElem_range, ← hbytes, List.getD_eq_getElem _ _ hi]

end

end CephInC.Lib
