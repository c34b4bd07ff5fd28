/-
The loop `for (node = cceph_rb_first(tree); node; node =
cceph_rb_next(node))`: which nodes it visits, and in which order.

`rbWalk` is the loop as the code runs it, one `cceph_rb_next` a turn;
`rbWalk_rbFirst` says it visits the contents of the tree in key order,
each node once. A loop that reads the visited nodes only is written over
`rbWalk`.
-/
import CephInC.Common.Proofs.Rbtree

namespace CephInC

open Lib

variable {α : Type}

/-- Every turn leaves fewer nodes ahead. -/
theorem rbNext_after_lt {node next : Loc α}
    (h : rbNext node = some next) : next.after.length < node.after.length := by
  have hs := rbNext_spec node
  rw [h] at hs
  rw [hs.2.1, List.length_cons]
  omega

/-- The nodes the loop visits from the one it stands at. -/
def rbWalkFrom (node : Loc α) : List α :=
  match _h : rbNext node with
  | none => [node.data]
  | some next => node.data :: rbWalkFrom next
termination_by node.after.length
decreasing_by exact rbNext_after_lt _h

/-- The nodes the loop visits. -/
def rbWalk (tree : BinTree α) : List α :=
  match rbFirst tree with
  | none => []
  | some node => rbWalkFrom node

theorem rbWalkFrom_eq (node : Loc α) :
    rbWalkFrom node = node.data :: node.after := by
  induction node using rbWalkFrom.induct with
  | case1 node h =>
      have hs := rbNext_spec node
      rw [h] at hs
      rw [rbWalkFrom, hs]
      split
      · rfl
      · next heq =>
          rw [h] at heq
          cases heq
  | case2 node next h ih =>
      have hs := rbNext_spec node
      rw [h] at hs
      rw [rbWalkFrom, hs.2.1, ← ih]
      split
      · next heq =>
          rw [h] at heq
          cases heq
      · next heq =>
          rw [h] at heq
          cases heq
          rfl

/-- A walk visits the contents, in order. -/
theorem rbWalk_eq (tree : BinTree α) : rbWalk tree = tree.toList := by
  have hs := rbFirst_spec tree
  unfold rbWalk
  cases h : rbFirst tree with
  | none =>
      rw [h] at hs
      exact hs.symm
  | some node =>
      rw [h] at hs
      obtain ⟨hroot, hbefore⟩ := hs
      show rbWalkFrom node = tree.toList
      rw [rbWalkFrom_eq, ← hroot, Loc.root_toList, hbefore]
      rfl

end CephInC
