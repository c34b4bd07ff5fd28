/-
Records with a `list_node` of their own, and the loops over a list of
them.

A record is what stands at an address besides its links. The search loops
of the repository are one: `cceph_list_for_each` with a test of the
record at `pos`, left by a `break` at the first that passes.
-/
import CephInC.Common.ListHead

namespace CephInC

open Lib

structure Records (ρ : Type) where
  nodes : ListHeap
  recs : Nat → Option ρ

section
variable {ρ α : Type}

/-- A function of `common/list.h`, on the nodes of the records. -/
def onNodes (x : Prog ListHeap α) : Prog (Records ρ) α := fun m =>
  match x m.nodes with
  | .ok (a, nodes) => .ok (a, { m with nodes := nodes })
  | .error e => .error e

/-- The fields of the record at `p`. -/
def recordAt (p : Nat) : Prog (Records ρ) ρ := fun m =>
  match m.recs p with
  | some r => .ok (r, m)
  | none => .error (badPointer p)

/-- Write the fields of the record at `p`. -/
def recordPut (p : Nat) (r : ρ) : Prog (Records ρ) Unit := fun m =>
  if (m.recs p).isSome then .ok ((), { m with recs := Function.update m.recs p (some r) })
  else .error (badPointer p)

/-- A record from the allocator, its fields filled in and its links as
they happen to be. -/
def recordNew (p : Nat) (r : ρ) (junk : Links Nat) : Prog (Records ρ) Unit := fun m =>
  .ok ((), ⟨Function.update m.nodes p (some junk), Function.update m.recs p (some r)⟩)

/-- `free(p)`. -/
def recordFree (p : Nat) : Prog (Records ρ) Unit := fun m =>
  if (m.recs p).isSome then
    .ok ((), ⟨Function.update m.nodes p none, Function.update m.recs p none⟩)
  else .error (badPointer p)

/-- The first record of the list that passes the test, or NULL. -/
def listFirst (test : ρ → Bool) (head turns : Nat) : Prog (Records ρ) (Option Nat) := do
  let pos ← listForEach Records.nodes (fun pos => do return test (← recordAt pos)) head turns
  return if pos = head then none else some pos

/-- The list of `head` has these entries, in this order. -/
structure Records.Lists (m : Records ρ) (head : Nat) (entries : List (Nat × ρ)) : Prop where
  ring : m.nodes.Ring head (entries.map Prod.fst)
  recs : ∀ entry ∈ entries, m.recs entry.1 = some entry.2

end

end CephInC
