/-
What the lists of `common/list.h` are for, and any number of calls on any
number of lists.

`NodeLists` says it without links: which nodes there are, and for each
head the entries of its list in order. A node is a head, or on one list,
or loose. `ListCall.Fits` is what the callers see to: only a loose node
is added, only an entry that is on a list is deleted or moved, only a
head is given as one.
-/
import CephInC.Common.ListHead

namespace CephInC

open Lib

structure NodeLists where
  nodes : Nat → Bool
  lists : Nat → Option (List Nat)
  /-- Deleted from a list, and not used since. -/
  deleted : Nat → Bool

/-- No memory in use. -/
def noLists : NodeLists := ⟨fun _ => false, fun _ => none, fun _ => false⟩

inductive ListCall where
  /-- A record comes from the allocator, its links as they happen to be. -/
  | alloc (a : Nat) (links : Links Nat)
  | free (a : Nat)
  | init (list : Nat)
  | empty (list : Nat)
  | add (newNode head : Nat)
  | addTail (newNode head : Nat)
  | delete (entry : Nat)
  | move (list head : Nat)
  | moveTail (list head : Nat)
  /-- `cceph_list_for_each` with a body that never breaks. -/
  | forEach (head turns : Nat)

/-- What the caller sees of a call. -/
inductive ListAnswer where
  | nothing
  | empty (answer : Bool)
  | visited (nodes : List Nat)
  deriving DecidableEq

-- =========================================================== the purpose

namespace NodeLists

def On (s : NodeLists) (e : Nat) : Prop := ∃ head xs, s.lists head = some xs ∧ e ∈ xs

/-- There, and neither a head nor on a list. -/
def Loose (s : NodeLists) (a : Nat) : Prop :=
  s.nodes a = true ∧ s.lists a = none ∧ ¬s.On a

/-- Every list without the entry `e`. -/
def without (s : NodeLists) (e : Nat) : Nat → Option (List Nat) :=
  fun head => (s.lists head).map fun xs => xs.erase e

/-- The list of one head becomes another. -/
def putList (lists : Nat → Option (List Nat)) (head : Nat) (f : List Nat → List Nat) :
    Nat → Option (List Nat) :=
  Function.update lists head ((lists head).map f)

def apply (s : NodeLists) : ListCall → NodeLists × ListAnswer
  | .alloc a _ => ({ s with nodes := Function.update s.nodes a true }, .nothing)
  | .free a =>
      (⟨Function.update s.nodes a false, Function.update s.lists a none,
        Function.update s.deleted a false⟩, .nothing)
  | .init list =>
      ({ s with
        lists := Function.update s.lists list (some [])
        deleted := Function.update s.deleted list false }, .nothing)
  | .empty list => (s, .empty (decide (s.lists list = some [])))
  | .add newNode head =>
      ({ s with
        lists := putList s.lists head fun xs => newNode :: xs
        deleted := Function.update s.deleted newNode false }, .nothing)
  | .addTail newNode head =>
      ({ s with
        lists := putList s.lists head fun xs => xs ++ [newNode]
        deleted := Function.update s.deleted newNode false }, .nothing)
  | .delete entry =>
      ({ s with
        lists := s.without entry
        deleted := Function.update s.deleted entry true }, .nothing)
  | .move list head =>
      ({ s with lists := putList (s.without list) head fun xs => list :: xs }, .nothing)
  | .moveTail list head =>
      ({ s with lists := putList (s.without list) head fun xs => xs ++ [list] }, .nothing)
  | .forEach head _ => (s, .visited ((s.lists head).getD []))

end NodeLists

/-- The callers keep to the rules of the lists; the allocator hands out
neither `NULL` nor the poison. -/
def ListCall.Fits (s : NodeLists) : ListCall → Prop
  | .alloc a _ => s.nodes a = false ∧ a ≠ 0 ∧ a ≠ CCEPH_LIST_POISON1 ∧ a ≠ CCEPH_LIST_POISON2
  | .free a => s.Loose a ∨ s.lists a = some []
  | .init list => s.Loose list
  | .empty list => (s.lists list).isSome
  | .add newNode head | .addTail newNode head => s.Loose newNode ∧ (s.lists head).isSome
  | .delete entry => s.On entry
  | .move list head | .moveTail list head => s.On list ∧ (s.lists head).isSome
  | .forEach head turns => ∃ xs, s.lists head = some xs ∧ xs.length < turns

/-- Every call of a run fits. -/
def CallsFit : NodeLists → List ListCall → Prop
  | _, [] => True
  | s, call :: calls => call.Fits s ∧ CallsFit (s.apply call).1 calls

/-- The lists after a run, and what the callers have seen. -/
def NodeLists.run : NodeLists → List ListCall → NodeLists × List ListAnswer
  | s, [] => (s, [])
  | s, call :: calls =>
      (((s.apply call).1.run calls).1, (s.apply call).2 :: ((s.apply call).1.run calls).2)

-- ============================================================== the code

/-- A body that notes where the loop stands. -/
def visit (pos : Nat) : Prog (ListHeap × List Nat) Bool :=
  fun s => .ok (false, (s.1, s.2 ++ [pos]))

def listCall : ListCall → Prog ListHeap ListAnswer
  | .alloc a links => fun heap => .ok (.nothing, Function.update heap a (some links))
  | .free a => fun heap => .ok (.nothing, Function.update heap a none)
  | .init list => do
      listHeadInit list
      return .nothing
  | .empty list => do
      let answer ← listEmpty list
      return .empty answer
  | .add newNode head => do
      listAdd newNode head
      return .nothing
  | .addTail newNode head => do
      listAddTail newNode head
      return .nothing
  | .delete entry => do
      listDelete entry
      return .nothing
  | .move list head => do
      listMove list head
      return .nothing
  | .moveTail list head => do
      listMoveTail list head
      return .nothing
  | .forEach head turns => fun heap =>
      match listForEach Prod.fst visit head turns (heap, []) with
      | .ok (_, heap, visited) => .ok (.visited visited, heap)
      | .error e => .error e

/-- One call after the other. -/
def listCalls : List ListCall → Prog ListHeap (List ListAnswer)
  | [] => return []
  | call :: calls => do
      let answer ← listCall call
      let answers ← listCalls calls
      return answer :: answers

end CephInC
