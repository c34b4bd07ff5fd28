/-
NUL-terminated strings and the few `<string.h>` functions the
repository calls on blocks of memory.

A `CString` is the bytes before the terminator; that none of them is the
terminator is a field. A block is the list of its bytes. Sizes are
`size_t`, so a length the code passes as a signed integer goes through
`sizeT` first.
-/
import CephInC.Common.Machine
import CephInC.Lib.Keyed

namespace CephInC

open Lib

/-- A NUL-terminated string. -/
structure CString where
  bytes : List UInt8
  noNul : (0 : UInt8) ∉ bytes
  deriving DecidableEq

theorem noNul_nil : (0 : UInt8) ∉ ([] : List UInt8) := List.not_mem_nil

theorem noNul_a : (0 : UInt8) ∉ [(97 : UInt8)] := by decide

theorem noNul_t : (0 : UInt8) ∉ [(116 : UInt8)] := by decide

/-- `strlen`. -/
def strlen (s : CString) : Nat := s.bytes.length

/-- `strcmp` up to the terminators. -/
def strcmpBytes : List UInt8 → List UInt8 → Int
  | [], [] => 0
  | [], b :: _ => -b.toNat
  | a :: _, [] => a.toNat
  | a :: as, b :: bs =>
      if a = b then strcmpBytes as bs else (a.toNat : Int) - b.toNat

/-- `strcmp`. -/
def strcmp (a b : CString) : Int := strcmpBytes a.bytes b.bytes

section
variable {σ : Type}

/-- `memcpy(dst + off, src, n)` into the block `dst`. -/
def memcpy (dst : List UInt8) (off : Nat) (src : Option (List UInt8))
    (n : Nat) : Prog σ (List UInt8) :=
  if n = 0 then pure dst
  else match src with
    | none => fault .nullDeref
    | some bytes =>
        if off + n ≤ dst.length ∧ n ≤ bytes.length then
          pure (dst.take off ++ bytes.take n ++ dst.drop (off + n))
        else fault .outOfBounds

/-- The copy of a string as `cceph_os_map_node_new` and
`cceph_mem_store_object_node_new` make it: `int n = strlen(s) + 1`, a
block of `n` bytes, and `strcpy` into it. None if `malloc` failed. -/
def copyString (s : CString) : Prog Allocs (Option CString) := do
  let n : Int32 := Int32.ofInt (strlen s + 1)
  if ← malloc (sizeT n.toInt) then
    if strlen s + 1 ≤ sizeT n.toInt then pure (some s)
    else fault .outOfBounds
  else pure none

end

-- ========================================================= whole copies

/-- A copy of a whole block reads the bytes there are, or runs past
them. -/
theorem memcpy_whole {σ : Type} (bytes : List UInt8) (size : Nat) :
    (memcpy (List.replicate size 0) 0 (some bytes) size : Prog σ (List UInt8))
      = if size ≤ bytes.length then pure (bytes.take size)
        else fault .outOfBounds := by
  unfold memcpy
  by_cases h0 : size = 0
  · subst h0
    simp
  · rw [if_neg h0]
    by_cases h : size ≤ bytes.length
    · have hfit : 0 + size ≤ (List.replicate size (0 : UInt8)).length
          ∧ size ≤ bytes.length := by
        simp [h]
      simp only [if_pos hfit, if_pos h]
      simp
    · have hfit : ¬(0 + size ≤ (List.replicate size (0 : UInt8)).length
          ∧ size ≤ bytes.length) := by
        intro hfit
        exact h hfit.2
      simp only [if_neg hfit, if_neg h]

-- ======================================================== string order

private theorem toNat_pos {b : UInt8} (h : b ≠ 0) : 0 < b.toNat := by
  have : b.toNat ≠ 0 := fun h0 => h (UInt8.toNat_inj.mp h0)
  omega

private theorem strcmpBytes_eq_zero :
    ∀ {a b : List UInt8}, (0 : UInt8) ∉ a → (0 : UInt8) ∉ b →
      (strcmpBytes a b = 0 ↔ a = b)
  | [], [], _, _ => by simp [strcmpBytes]
  | [], b :: bs, _, hb => by
      have hpos := toNat_pos (b := b) (fun h => hb (by simp [h]))
      simp only [strcmpBytes]
      constructor
      · intro h
        omega
      · intro h
        cases h
  | a :: as, [], ha, _ => by
      have hpos := toNat_pos (b := a) (fun h => ha (by simp [h]))
      simp only [strcmpBytes]
      constructor
      · intro h
        omega
      · intro h
        cases h
  | a :: as, b :: bs, ha, hb => by
      have ih := strcmpBytes_eq_zero (a := as) (b := bs)
        (fun h => ha (List.mem_cons_of_mem _ h))
        (fun h => hb (List.mem_cons_of_mem _ h))
      simp only [strcmpBytes]
      by_cases hab : a = b
      · rw [if_pos hab, ih, hab]
        simp
      · rw [if_neg hab]
        have : a.toNat ≠ b.toNat := fun h => hab (UInt8.toNat_inj.mp h)
        constructor
        · intro h
          omega
        · intro h
          cases h
          exact absurd rfl hab

private theorem strcmpBytes_swap :
    ∀ (a b : List UInt8), strcmpBytes a b = -strcmpBytes b a
  | [], [] => rfl
  | [], b :: bs => rfl
  | a :: as, [] => by simp [strcmpBytes]
  | a :: as, b :: bs => by
      simp only [strcmpBytes]
      by_cases hab : a = b
      · rw [if_pos hab, if_pos hab.symm]
        exact strcmpBytes_swap as bs
      · rw [if_neg hab, if_neg (Ne.symm hab)]
        omega

private theorem strcmpBytes_trans :
    ∀ {a b c : List UInt8}, (0 : UInt8) ∉ c →
      strcmpBytes a b < 0 → strcmpBytes b c < 0 → strcmpBytes a c < 0
  | [], [], _, _, h, _ => by simp [strcmpBytes] at h
  | [], b :: bs, [], _, _, h => by
      simp only [strcmpBytes] at h
      omega
  | [], b :: bs, c :: cs, hc, _, _ => by
      have hpos := toNat_pos (b := c) (fun h => hc (by simp [h]))
      simp only [strcmpBytes]
      omega
  | a :: as, [], _, _, h, _ => by
      simp only [strcmpBytes] at h
      omega
  | a :: as, b :: bs, [], _, _, h => by
      simp only [strcmpBytes] at h
      omega
  | a :: as, b :: bs, c :: cs, hc, h1, h2 => by
      simp only [strcmpBytes] at h1 h2 ⊢
      by_cases hab : a = b
      · by_cases hbc : b = c
        · rw [if_pos hab] at h1
          rw [if_pos hbc] at h2
          rw [if_pos (hab.trans hbc)]
          exact strcmpBytes_trans
            (fun h => hc (List.mem_cons_of_mem _ h)) h1 h2
        · rw [if_neg hbc] at h2
          rw [hab, if_neg hbc]
          exact h2
      · rw [if_neg hab] at h1
        by_cases hbc : b = c
        · rw [← hbc, if_neg hab]
          exact h1
        · rw [if_neg hbc] at h2
          by_cases hac : a = c
          · rw [hac] at h1
            omega
          · rw [if_neg hac]
            omega

/-- `strcmp` orders strings linearly. -/
theorem linearCmp_strcmp : LinearCmp strcmp where
  eq_zero := by
    intro a b
    unfold strcmp
    rw [strcmpBytes_eq_zero a.noNul b.noNul]
    obtain ⟨as, ha⟩ := a
    obtain ⟨bs, hb⟩ := b
    simp
  swap := by
    intro a b
    unfold strcmp
    rw [strcmpBytes_swap]
    omega
  trans := by
    intro a b c
    exact strcmpBytes_trans c.noNul

end CephInC
