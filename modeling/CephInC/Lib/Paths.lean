/-
Paths, and the entries of directories that they name.

A path is cut at its separators. Parts that are empty, or a single dot,
lead nowhere; the others are the names that it goes by. A file system
says for each directory where a name leads from it, and two dots are a
name like any other there. All names but the last are gone through, and
the last is an entry of the directory reached, there or yet to be made.
-/
import Mathlib.Data.List.Basic

namespace CephInC.Lib

variable {α : Type}

/-- Directories, and where names lead from them. -/
structure FileSystem (α : Type) where
  Dir : Type
  enter : Dir → List α → Option Dir

/-- The entry that a list of names leads to: its directory and its name. -/
def FileSystem.entry (fs : FileSystem α) : fs.Dir → List (List α) → Option (fs.Dir × List α)
  | _, [] => none
  | dir, [name] => some (dir, name)
  | dir, name :: next :: rest => (fs.enter dir name).bind fun dir => fs.entry dir (next :: rest)

theorem FileSystem.entry_cons (fs : FileSystem α) (dir : fs.Dir) (name : List α)
    {names : List (List α)} (h : names ≠ []) :
    fs.entry dir (name :: names) = (fs.enter dir name).bind fun dir => fs.entry dir names := by
  cases names with
  | nil => exact absurd rfl h
  | cons next rest => rfl

/-- The file system in which each name leads one directory down. -/
def depths (α : Type) : FileSystem α := ⟨Nat, fun depth _ => some (depth + 1)⟩

theorem depths_entry {names : List (List α)} : ∀ {depth : Nat} {r : Nat × List α},
    (depths α).entry depth names = some r →
    ∃ front, names = front ++ [r.2] ∧ r.1 = depth + front.length := by
  induction names with
  | nil =>
      intro depth r h
      cases h
  | cons name names ih =>
      intro depth r h
      cases names with
      | nil =>
          cases h
          exact ⟨[], rfl, rfl⟩
      | cons next rest =>
          obtain ⟨front, hnames, hdepth⟩ := ih h
          refine ⟨name :: front, by rw [hnames]; rfl, ?_⟩
          rw [hdepth, List.length_cons]
          omega

section
variable [DecidableEq α] (sep dot : α)

/-- The names that a path goes by. -/
def pathNames (path : List α) : List (List α) :=
  (path.splitOn sep).filter fun name => name ≠ [] ∧ name ≠ [dot]

theorem pathNames_append (front back : List α) :
    pathNames sep dot (front ++ sep :: back)
      = pathNames sep dot front ++ pathNames sep dot back := by
  unfold pathNames
  rw [List.splitOn_append_cons_self, List.filter_append]

theorem pathNames_dot (h : sep ≠ dot) : pathNames sep dot [dot] = [] := by
  unfold pathNames
  rw [List.splitOn_eq_singleton (by simp [h])]
  simp

/-- What has no separator in it is a name. -/
theorem pathNames_name {name : List α} (hsep : sep ∉ name) (hne : name ≠ [])
    (hdot : name ≠ [dot]) : pathNames sep dot name = [name] := by
  unfold pathNames
  rw [List.splitOn_eq_singleton hsep]
  simp [hne, hdot]

end

end CephInC.Lib
