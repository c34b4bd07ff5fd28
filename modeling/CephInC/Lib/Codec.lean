/-
Values as bytes: little-endian numbers, and codecs of a fixed width.

A `Codec α` says how a value of `α` lies in memory: `size` bytes, each
value in one way and each block of that many bytes one value. A block
that is being overwritten byte by byte holds a value at every moment;
`overwrite` is the value after a prefix of the new bytes has arrived.

A `Decoder α` takes a value off the front of a byte list, or finds that
the list ends first. What a decoder accepts is told by the bytes it
took: `takeBytes_eq_some` and `Codec.decode_eq_some` say so for the two basic
ones, `decoder_bind_eq_some` for one after another.
-/
import Mathlib.Algebra.Group.Nat.Defs
import Mathlib.Data.List.Basic

namespace CephInC.Lib

-- ============================================== little-endian numbers

/-- The `k` low bytes of `n`, least significant first. -/
def leBytes : Nat → Nat → List UInt8
  | 0, _ => []
  | k + 1, n => UInt8.ofNat n :: leBytes k (n / 256)

/-- The number little-endian bytes spell. -/
def leValue : List UInt8 → Nat
  | [] => 0
  | b :: bs => b.toNat + 256 * leValue bs

@[simp] theorem leBytes_length (k n : Nat) : (leBytes k n).length = k := by
  induction k generalizing n with
  | zero => rfl
  | succ k ih => simp [leBytes, ih]

theorem leValue_lt (bs : List UInt8) : leValue bs < 256 ^ bs.length := by
  induction bs with
  | nil => simp [leValue]
  | cons b bs ih =>
      have hb := b.toNat_lt
      simp only [leValue, List.length_cons, Nat.pow_succ]
      omega

theorem leValue_leBytes (k n : Nat) : leValue (leBytes k n) = n % 256 ^ k := by
  induction k generalizing n with
  | zero => simp [leBytes, leValue, Nat.mod_one]
  | succ k ih =>
      have hbyte : (UInt8.ofNat n).toNat = n % 256 := by simp
      rw [leBytes, leValue, ih, hbyte, Nat.pow_succ, Nat.mul_comm (256 ^ k) 256,
        Nat.mod_mul]

theorem leValue_leBytes_of_lt {k n : Nat} (h : n < 256 ^ k) :
    leValue (leBytes k n) = n := by
  rw [leValue_leBytes, Nat.mod_eq_of_lt h]

theorem leBytes_leValue (bs : List UInt8) :
    leBytes bs.length (leValue bs) = bs := by
  induction bs with
  | nil => rfl
  | cons b bs ih =>
      have hb := b.toNat_lt
      have hlow : UInt8.ofNat (b.toNat + 256 * leValue bs) = b := by
        apply UInt8.toNat_inj.mp
        simp
      have hhigh : (b.toNat + 256 * leValue bs) / 256 = leValue bs := by
        omega
      rw [List.length_cons, leValue, leBytes, hlow, hhigh, ih]

-- ================================================= fixed-width codecs

/-- How the values of `α` lie in `size` bytes. -/
structure Codec (α : Type) where
  size : Nat
  bytes : α → List UInt8
  ofBytes : List UInt8 → α
  bytes_length : ∀ a, (bytes a).length = size
  ofBytes_bytes : ∀ a, ofBytes (bytes a) = a
  bytes_ofBytes : ∀ bs, bs.length = size → bytes (ofBytes bs) = bs

namespace Codec

variable {α : Type}

attribute [simp] bytes_length ofBytes_bytes

/-- The value of a variable that held `old` once the bytes `bs` have been
written over the start of it. -/
def overwrite (c : Codec α) (old : α) (bs : List UInt8) : α :=
  c.ofBytes (bs ++ (c.bytes old).drop bs.length)

theorem overwrite_full (c : Codec α) (old : α) {bs : List UInt8}
    (h : bs.length = c.size) : c.overwrite old bs = c.ofBytes bs := by
  have hdrop : (c.bytes old).drop bs.length = [] := by
    apply List.drop_of_length_le
    simp [h]
  rw [overwrite, hdrop, List.append_nil]

/-- The bytes of a value, and what is behind them. -/
theorem split_bytes (c : Codec α) {d rest : List UInt8} {k : Nat} {a : α}
    (h : d.drop k = c.bytes a ++ rest) :
    (d.drop k).take c.size = c.bytes a ∧ d.drop (k + c.size) = rest := by
  have hlength := c.bytes_length a
  rw [← List.drop_drop, h, ← hlength, List.take_left, List.drop_left]
  exact ⟨rfl, rfl⟩

/-- Numbers of `w` bytes, through a pair of conversions. -/
def ofNat (w : Nat) (toNat : α → Nat) (ofNat : Nat → α)
    (toNat_lt : ∀ a, toNat a < 256 ^ w) (ofNat_toNat : ∀ a, ofNat (toNat a) = a)
    (toNat_ofNat : ∀ n, n < 256 ^ w → toNat (ofNat n) = n) : Codec α where
  size := w
  bytes a := leBytes w (toNat a)
  ofBytes bs := ofNat (leValue bs)
  bytes_length a := leBytes_length w (toNat a)
  ofBytes_bytes a := by
    rw [leValue_leBytes_of_lt (toNat_lt a), ofNat_toNat]
  bytes_ofBytes bs h := by
    have hlt := leValue_lt bs
    rw [h] at hlt
    rw [toNat_ofNat _ hlt, ← h, leBytes_leValue]

end Codec

-- ========================================================== decoders

/-- Take a value off the front of the bytes; none if they end first. -/
abbrev Decoder := StateT (List UInt8) Option

section
variable {α β : Type}

theorem decoder_bind (x : Decoder α) (f : α → Decoder β) (d : List UInt8) :
    (x >>= f) d = match x d with
      | some (a, rest) => f a rest
      | none => none := by
  show (do let (a, rest) ← x d; f a rest : Option (β × List UInt8)) = _
  cases x d <;> rfl

theorem decoder_bind_some {x : Decoder α} {f : α → Decoder β} {a : α}
    {d rest : List UInt8} (h : x d = some (a, rest)) : (x >>= f) d = f a rest := by
  rw [decoder_bind, h]

theorem decoder_bind_none {x : Decoder α} {f : α → Decoder β} {d : List UInt8}
    (h : x d = none) : (x >>= f) d = none := by
  rw [decoder_bind, h]

theorem decoder_bind_eq_some {x : Decoder α} {f : α → Decoder β} {b : β}
    {d rest : List UInt8} (h : (x >>= f) d = some (b, rest)) :
    ∃ a mid, x d = some (a, mid) ∧ f a mid = some (b, rest) := by
  rw [decoder_bind] at h
  cases hx : x d with
  | none => rw [hx] at h; cases h
  | some r =>
      obtain ⟨a, mid⟩ := r
      rw [hx] at h
      exact ⟨a, mid, rfl, h⟩

end

/-- The first `n` bytes. -/
def takeBytes (n : Nat) : Decoder (List UInt8) := fun d =>
  if n ≤ d.length then some (d.take n, d.drop n) else none

theorem takeBytes_of_le {n : Nat} {d : List UInt8} (h : n ≤ d.length) :
    takeBytes n d = some (d.take n, d.drop n) := if_pos h

theorem takeBytes_of_lt {n : Nat} {d : List UInt8} (h : d.length < n) :
    takeBytes n d = none := if_neg (by omega)

theorem takeBytes_eq_some {n : Nat} {d bs rest : List UInt8} :
    takeBytes n d = some (bs, rest) ↔ bs.length = n ∧ d = bs ++ rest := by
  constructor
  · intro h
    unfold takeBytes at h
    split at h
    · rename_i hle
      cases h
      exact ⟨by simp [hle], by simp⟩
    · cases h
  · rintro ⟨rfl, rfl⟩
    simp [takeBytes]

/-- A value of fixed width. -/
def Codec.decode {α : Type} (c : Codec α) : Decoder α := do
  return c.ofBytes (← takeBytes c.size)

theorem Codec.decode_of_le {α : Type} (c : Codec α) {d : List UInt8}
    (h : c.size ≤ d.length) :
    c.decode d = some (c.ofBytes (d.take c.size), d.drop c.size) := by
  unfold Codec.decode
  rw [decoder_bind_some (takeBytes_of_le h)]
  rfl

theorem Codec.decode_of_lt {α : Type} (c : Codec α) {d : List UInt8}
    (h : d.length < c.size) : c.decode d = none := by
  unfold Codec.decode
  rw [decoder_bind_none (takeBytes_of_lt h)]

theorem Codec.decode_eq_some {α : Type} (c : Codec α) {a : α}
    {d rest : List UInt8} :
    c.decode d = some (a, rest) ↔ d = c.bytes a ++ rest := by
  constructor
  · intro h
    obtain ⟨bs, mid, htake, hret⟩ := decoder_bind_eq_some h
    obtain ⟨hlen, rfl⟩ := takeBytes_eq_some.mp htake
    cases hret
    rw [c.bytes_ofBytes bs hlen]
  · rintro rfl
    rw [c.decode_of_le (by simp)]
    have hlen := c.bytes_length a
    rw [← hlen, List.take_left, List.drop_left, c.ofBytes_bytes]

-- ================================================= what follows is left

/-- What the decoder takes does not depend on what follows it. -/
def Decoder.Local {α : Type} (x : Decoder α) : Prop :=
  ∀ d a rest, x d = some (a, rest) → ∀ more, x (d ++ more) = some (a, rest ++ more)

theorem Decoder.local_pure {α : Type} (a : α) : Decoder.Local (pure a : Decoder α) := by
  intro d b rest h more
  cases h
  rfl

theorem Decoder.local_bind {α β : Type} {x : Decoder α} {f : α → Decoder β}
    (hx : Decoder.Local x) (hf : ∀ a, Decoder.Local (f a)) : Decoder.Local (x >>= f) := by
  intro d b rest h more
  obtain ⟨a, mid, hfirst, hsecond⟩ := decoder_bind_eq_some h
  rw [decoder_bind_some (hx d a mid hfirst more)]
  exact hf a mid b rest hsecond more

theorem takeBytes_local (n : Nat) : Decoder.Local (takeBytes n) := by
  intro d bs rest h more
  obtain ⟨hlen, rfl⟩ := takeBytes_eq_some.mp h
  exact takeBytes_eq_some.mpr ⟨hlen, List.append_assoc ..⟩

theorem Codec.decode_local {α : Type} (c : Codec α) : Decoder.Local c.decode :=
  Decoder.local_bind (takeBytes_local c.size) fun _ => Decoder.local_pure _

end CephInC.Lib
