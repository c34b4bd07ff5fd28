/-
What a C function can do besides return: trip an assertion, dereference
NULL, touch memory outside its block, misuse a lock. And what it asks
of the allocator.

A function of the repository is read as a `Prog σ α`: from a state `σ`
it either returns an `α` with the next state or ends in a `Fault`. The
state the object store threads is `Allocs`, the outcomes of the coming
`malloc` calls, so that every pattern of allocation failures is one
initial state; `Allocs.plenty` is the pattern in which none fails.

`malloc` takes the size as the `size_t` it receives. A request above
`PTRDIFF_MAX` is refused whatever the pattern, as the C library does:
this is where a negative length, converted to `size_t`, ends.
-/
import Mathlib.Algebra.Group.Int.Defs
import Mathlib.Algebra.Group.Nat.Defs
import Mathlib.Data.List.Basic

namespace CephInC

/-- The ways a run ends without returning. -/
inductive Fault where
  /-- `__cceph_assert_fail`: the process dumps core. -/
  | assertFail
  /-- A field of a NULL pointer is read or written. -/
  | nullDeref
  /-- A byte outside its allocated block is read or written. -/
  | outOfBounds
  /-- A mutex is locked twice, or unlocked without being held. -/
  | lockMisuse
  /-- A loop or a system call never comes to an end. -/
  | blocked
  deriving DecidableEq, Repr

/-- A C function over the state `σ`. -/
abbrev Prog (σ : Type) := StateT σ (Except Fault)

/-- The outcomes of the coming `malloc` calls, in order. -/
structure Allocs where
  grant : Nat → Bool

namespace Allocs

/-- Does the next call succeed? -/
def head (s : Allocs) : Bool := s.grant 0

/-- The calls after the next one. -/
def tail (s : Allocs) : Allocs := ⟨fun n => s.grant (n + 1)⟩

/-- No allocation fails. -/
def plenty : Allocs := ⟨fun _ => true⟩

@[simp] theorem plenty_head : plenty.head = true := rfl

@[simp] theorem plenty_tail : plenty.tail = plenty := rfl

/-- The calls after the next `n`. -/
def drop (s : Allocs) (n : Nat) : Allocs := ⟨fun k => s.grant (k + n)⟩

/-- The next `n` calls succeed. -/
def Grants (s : Allocs) (n : Nat) : Prop := ∀ k < n, s.grant k = true

theorem plenty_drop (n : Nat) : plenty.drop n = plenty := rfl

theorem plenty_grants (n : Nat) : plenty.Grants n := fun _ _ => rfl

theorem drop_zero (s : Allocs) : s.drop 0 = s := rfl

theorem drop_add (s : Allocs) (m n : Nat) : s.drop (m + n) = (s.drop m).drop n := by
  have hgrant : ∀ k, s.grant (k + (m + n)) = s.grant (k + n + m) := by
    intro k
    rw [Nat.add_comm m n, Nat.add_assoc]
  unfold drop
  rw [Allocs.mk.injEq]
  exact funext hgrant

theorem grants_zero (s : Allocs) : s.Grants 0 := fun _ hk => absurd hk (Nat.not_lt_zero _)

theorem grants_add {s : Allocs} {m n : Nat} :
    s.Grants (m + n) ↔ s.Grants m ∧ (s.drop m).Grants n := by
  constructor
  · intro h
    exact ⟨fun k hk => h k (by omega), fun k hk => h (k + m) (by omega)⟩
  · rintro ⟨hm, hn⟩ k hk
    by_cases hlt : k < m
    · exact hm k hlt
    · have hrest : s.grant (k - m + m) = true := hn (k - m) (by omega)
      rw [Nat.sub_add_cancel (Nat.le_of_not_lt hlt)] at hrest
      exact hrest

theorem grants_one {s : Allocs} : s.Grants 1 ↔ s.head = true := by
  constructor
  · exact fun h => h 0 Nat.zero_lt_one
  · intro h k hk
    rw [Nat.lt_one_iff.mp hk]
    exact h

end Allocs

/-- A signed value converted to `size_t`. -/
def sizeT (n : Int) : Nat := (n % 2 ^ 64).toNat

/-- `malloc(size)`: is the result non-NULL? -/
def malloc (size : Nat) : Prog Allocs Bool := fun s =>
  .ok (decide (size < 2 ^ 63) && s.head, s.tail)

section
variable {σ α β : Type}

/-- End the run. -/
def fault (e : Fault) : Prog σ α := fun _ => .error e

/-- `assert(log_id, expr)`. -/
def assert (p : Prop) [Decidable p] : Prog σ Unit :=
  if p then pure () else fault .assertFail

/-- A computation that needs no state. -/
def lift (x : Except Fault α) : Prog σ α := fun s =>
  match x with
  | .ok a => .ok (a, s)
  | .error e => .error e

/-- Dereference a pointer. -/
def deref (x : Option α) : Prog σ α :=
  match x with
  | some a => pure a
  | none => fault .nullDeref

@[simp] theorem fault_run (e : Fault) (s : σ) :
    (fault e : Prog σ α) s = .error e := rfl

@[simp] theorem pure_run (a : α) (s : σ) :
    (pure a : Prog σ α) s = .ok (a, s) := rfl

@[simp] theorem lift_ok (a : α) (s : σ) :
    (lift (.ok a) : Prog σ α) s = .ok (a, s) := rfl

@[simp] theorem lift_error (e : Fault) (s : σ) :
    (lift (.error e) : Prog σ α) s = .error e := rfl

@[simp] theorem deref_some (a : α) : (deref (some a) : Prog σ α) = pure a := rfl

@[simp] theorem deref_none : (deref none : Prog σ α) = fault .nullDeref := rfl

theorem assert_pos {p : Prop} [Decidable p] (h : p) :
    (assert p : Prog σ Unit) = pure () := if_pos h

theorem assert_neg {p : Prop} [Decidable p] (h : ¬p) :
    (assert p : Prog σ Unit) = fault .assertFail := if_neg h

theorem bind_run (x : Prog σ α) (f : α → Prog σ β) (s : σ) :
    (x >>= f) s = match x s with
      | .ok (a, s') => f a s'
      | .error e => .error e := by
  show (do let (a, s') ← x s; f a s' : Except Fault (β × σ)) = _
  cases x s <;> rfl

theorem bind_ok {x : Prog σ α} {f : α → Prog σ β} {s s' : σ} {a : α}
    (h : x s = .ok (a, s')) : (x >>= f) s = f a s' := by
  rw [bind_run, h]

theorem bind_error {x : Prog σ α} {f : α → Prog σ β} {s : σ} {e : Fault}
    (h : x s = .error e) : (x >>= f) s = .error e := by
  rw [bind_run, h]

/-- What a returning bind did, step by step. -/
theorem bind_eq_ok {x : Prog σ α} {f : α → Prog σ β} {s s'' : σ} {b : β}
    (h : (x >>= f) s = .ok (b, s'')) :
    ∃ a s', x s = .ok (a, s') ∧ f a s' = .ok (b, s'') := by
  rw [bind_run] at h
  cases hx : x s with
  | error e => rw [hx] at h; cases h
  | ok r =>
      obtain ⟨a, s'⟩ := r
      rw [hx] at h
      exact ⟨a, s', rfl, h⟩

/-- An assertion that a returning run has passed. -/
theorem assert_bind_eq_ok {p : Prop} [Decidable p] {f : Unit → Prog σ β} {s s' : σ} {b : β}
    (h : (assert p >>= f) s = .ok (b, s')) : p ∧ f () s = .ok (b, s') := by
  by_cases hp : p
  · rw [assert_pos hp, pure_bind] at h
    exact ⟨hp, h⟩
  · rw [assert_neg hp] at h
    cases h

@[simp] theorem fault_bind (e : Fault) (f : α → Prog σ β) :
    (fault e >>= f) = (fault e : Prog σ β) := by
  funext s
  rw [bind_run]
  rfl

end

theorem int32_bounds (x : Int32) : -2 ^ 31 ≤ x.toInt ∧ x.toInt < 2 ^ 31 :=
  ⟨x.le_toInt, x.toInt_lt⟩

theorem int64_bounds (x : Int64) : -2 ^ 63 ≤ x.toInt ∧ x.toInt < 2 ^ 63 :=
  ⟨x.le_toInt, x.toInt_lt⟩

theorem int32_toInt_add {a b : Int32} (h : -2 ^ 31 ≤ a.toInt + b.toInt)
    (h' : a.toInt + b.toInt < 2 ^ 31) : (a + b).toInt = a.toInt + b.toInt := by
  rw [Int32.toInt_add]
  exact Int.bmod_eq_of_le (by omega) (by omega)

theorem int32_toInt_sub {a b : Int32} (h : -2 ^ 31 ≤ a.toInt - b.toInt)
    (h' : a.toInt - b.toInt < 2 ^ 31) : (a - b).toInt = a.toInt - b.toInt := by
  rw [Int32.toInt_sub]
  exact Int.bmod_eq_of_le (by omega) (by omega)

/-- The smaller of two. -/
theorem int32_toInt_min (a b : Int32) :
    (if a < b then a else b).toInt = min a.toInt b.toInt := by
  by_cases h : a < b
  · rw [if_pos h]
    have := Int32.lt_iff_toInt_lt.mp h
    omega
  · rw [if_neg h]
    have : ¬a.toInt < b.toInt := fun hlt => h (Int32.lt_iff_toInt_lt.mpr hlt)
    omega

theorem int32_pos_iff {a : Int32} : a > 0 ↔ 0 < a.toInt := Int32.lt_iff_toInt_lt

/-- `malloc` refuses what the pattern says, and absurd sizes. -/
theorem malloc_run {size : Nat} (h : size < 2 ^ 63) (s : Allocs) :
    malloc size s = .ok (s.head, s.tail) := by
  unfold malloc
  rw [decide_eq_true h]
  rfl

theorem malloc_refused {size : Nat} (h : ¬size < 2 ^ 63) (s : Allocs) :
    malloc size s = .ok (false, s.tail) := by
  unfold malloc
  rw [decide_eq_false h]
  rfl

theorem malloc_plenty {size : Nat} (h : size < 2 ^ 63) :
    malloc size .plenty = .ok (true, .plenty) := malloc_run h .plenty

theorem malloc_huge {size : Nat} (h : ¬size < 2 ^ 63) :
    malloc size .plenty = .ok (false, .plenty) := malloc_refused h .plenty

theorem sizeT_of_nonneg {n : Int} (h : 0 ≤ n) (h' : n < 2 ^ 64) :
    sizeT n = n.toNat := by
  unfold sizeT
  rw [Int.emod_eq_of_lt h h']

theorem sizeT_int32_ofNat {n : Nat} (h : n < 2 ^ 31) : sizeT (Int32.ofNat n).toInt = n := by
  rw [Int32.toInt_ofNat_of_lt h, sizeT_of_nonneg (by omega) (by omega)]
  rfl

/-- What is left of a length. -/
theorem int32_toInt_sub_ofNat {length : Int32} {n : Nat} (h : n ≤ length.toInt) :
    (length - Int32.ofNat n).toInt = length.toInt - n := by
  have hb := int32_bounds length
  have hn : (Int32.ofNat n).toInt = n := Int32.toInt_ofNat_of_lt (by omega)
  rw [int32_toInt_sub (by omega) (by omega), hn]

/-- A negative size is an absurd one. -/
theorem sizeT_of_neg {n : Int} (h : n < 0) (h' : -2 ^ 63 ≤ n) : ¬sizeT n < 2 ^ 63 := by
  unfold sizeT
  omega

end CephInC
