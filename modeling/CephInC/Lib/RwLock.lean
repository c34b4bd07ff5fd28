/-
A readers-writer lock.

The lock is the list of its readers and its writer, and that a writer
has no company is a field. Clients need one function of it, `access`,
and what each operation makes of that (`take_access`, `unlock_access`);
exclusion is `access_alone`.
-/
import Mathlib.Data.List.Basic

namespace CephInC.Lib

inductive Access where
  | read
  | write
  deriving DecidableEq

/-- A lock that threads of the type `τ` take. -/
structure RwLock (τ : Type) where
  writer : Option τ
  readers : List τ
  once : readers.Nodup
  excl : writer ≠ none → readers = []

namespace RwLock

variable {τ : Type} [DecidableEq τ]

/-- Nobody has the lock. -/
def free : RwLock τ := ⟨none, [], List.nodup_nil, fun h => absurd rfl h⟩

/-- `t` takes the lock for reading; none if it has to wait. -/
def read (l : RwLock τ) (t : τ) : Option (RwLock τ) :=
  if h : l.writer = none ∧ t ∉ l.readers then
    some ⟨none, t :: l.readers, List.nodup_cons.mpr ⟨h.2, l.once⟩, fun h => absurd rfl h⟩
  else none

/-- `t` takes the lock for writing. -/
def write (l : RwLock τ) (t : τ) : Option (RwLock τ) :=
  if l.writer = none ∧ l.readers = [] then
    some ⟨some t, [], List.nodup_nil, fun _ => rfl⟩
  else none

/-- `t` gives back what it has of the lock. -/
def unlock (l : RwLock τ) (t : τ) : RwLock τ :=
  if l.writer = some t then free
  else ⟨l.writer, l.readers.erase t, l.once.erase t, fun h => by
    rw [l.excl h]
    rfl⟩

/-- What `t` has of the lock. -/
def access (l : RwLock τ) (t : τ) : Option Access :=
  if l.writer = some t then some .write
  else if t ∈ l.readers then some .read
  else none

theorem free_access (t : τ) : (free : RwLock τ).access t = none := rfl

/-- `t` takes the lock for what it wants. -/
def take (l : RwLock τ) (t : τ) : Access → Option (RwLock τ)
  | .read => l.read t
  | .write => l.write t

theorem access_of_free {l : RwLock τ} {u : τ} (hwriter : l.writer = none)
    (hreader : u ∉ l.readers) : l.access u = none := by
  unfold access
  rw [hwriter, if_neg (Option.some_ne_none u).symm, if_neg hreader]

theorem read_access {l l' : RwLock τ} {t : τ} (h : l.read t = some l') :
    l.access t = none ∧ l'.access t = some .read
      ∧ ∀ u, u ≠ t → l'.access u = l.access u := by
  unfold read at h
  split_ifs at h with hfree
  cases h
  refine ⟨access_of_free hfree.1 hfree.2, ?_, ?_⟩
  · unfold access
    rw [if_neg (Option.some_ne_none t).symm, if_pos List.mem_cons_self]
  · intro u hne
    unfold access
    rw [hfree.1]
    simp only [List.mem_cons, hne, false_or]

theorem write_access {l l' : RwLock τ} {t : τ} (h : l.write t = some l') :
    l.access t = none ∧ l'.access t = some .write
      ∧ ∀ u, u ≠ t → l'.access u = l.access u := by
  unfold write at h
  split_ifs at h with hfree
  cases h
  have hnone : ∀ u, l.access u = none := fun u =>
    access_of_free hfree.1 (by rw [hfree.2]; exact List.not_mem_nil)
  refine ⟨hnone t, if_pos rfl, ?_⟩
  intro u hne
  rw [hnone u]
  unfold access
  rw [if_neg (fun h => hne (Option.some.inj h).symm), if_neg List.not_mem_nil]

/-- Taking the lock is a thread's own affair. -/
theorem take_access {l l' : RwLock τ} {t : τ} {access : Access}
    (h : l.take t access = some l') :
    l.access t = none ∧ l'.access t = some access
      ∧ ∀ u, u ≠ t → l'.access u = l.access u := by
  cases access with
  | read => exact read_access h
  | write => exact write_access h

theorem unlock_access (l : RwLock τ) (t : τ) :
    (l.unlock t).access t = none ∧ ∀ u, u ≠ t → (l.unlock t).access u = l.access u := by
  unfold unlock
  split_ifs with hwriter
  · refine ⟨free_access t, ?_⟩
    intro u hne
    have hreaders : l.readers = [] := l.excl (by rw [hwriter]; exact Option.some_ne_none t)
    unfold access
    rw [hwriter, hreaders, if_neg (fun h => hne (Option.some.inj h).symm),
      if_neg List.not_mem_nil]
    rfl
  · constructor
    · unfold access
      rw [if_neg hwriter, if_neg (List.Nodup.not_mem_erase l.once)]
    · intro u hne
      unfold access
      simp only [List.mem_erase_of_ne hne]

/-- A writer has no company. -/
theorem access_alone {l : RwLock τ} {t u : τ} (ht : l.access t = some .write)
    (hne : u ≠ t) : l.access u = none := by
  have hwriter : l.writer = some t := by
    unfold access at ht
    split_ifs at ht with h
    · exact h
    · cases ht
  unfold access
  rw [hwriter, if_neg (fun h => hne (Option.some.inj h).symm),
    l.excl (by rw [hwriter]; exact Option.some_ne_none t), if_neg List.not_mem_nil]

end RwLock

end CephInC.Lib
