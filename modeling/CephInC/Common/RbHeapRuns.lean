/-
What a map of `common/rbtree.h` is for, and any number of calls on one.

`MapNodes` says it without links or colours: which entries there are,
under which keys, and which of them the map has, in the order of the
keys. `RbCall.Fits` is what the callers see to: an entry on the map is
neither inserted again nor freed, and only such an entry is removed,
stepped from or replaced.
-/
import CephInC.Common.RbHeap
import CephInC.Lib.Keyed
import Mathlib.Data.List.Sort
import Mathlib.Data.Nat.Log

namespace CephInC

open Lib

structure MapNodes (κ : Type) where
  nodes : NodePtr → Bool
  keys : NodePtr → κ
  entries : List NodePtr

inductive RbCall (κ : Type) where
  /-- An entry comes from the allocator and gets its key; its links are
  as they happen to be. -/
  | alloc (a : NodePtr) (links : RbNode) (k : κ)
  | free (a : NodePtr)
  | insert (node : NodePtr)
  | remove (node : NodePtr)
  | search (k : κ)
  | first
  | last
  | next (node : NodePtr)
  | prev (node : NodePtr)
  | replace (victim newNode : NodePtr)

/-- What the caller sees of a call. -/
inductive RbAnswer where
  | nothing
  | code (ret : Int)
  | found (ret : Int) (result : Option NodePtr)
  | pointer (p : NodePtr)
  deriving DecidableEq

/-- A pointer to an entry, or NULL. -/
def orNull (a : Option NodePtr) : NodePtr := a.getD 0

section
variable {κ : Type} [DecidableEq κ]

-- =========================================================== the purpose

namespace MapNodes

/-- The entry of the map under a key. -/
def find (s : MapNodes κ) (k : κ) : Option NodePtr := lookup s.keys k s.entries

def searched : Option NodePtr → RbAnswer
  | some e => .found CCEPH_OK (some e)
  | none => .found CCEPH_ERR_MAP_NODE_NOT_EXIST none

/-- An entry is put in its place, unless its key is there. -/
def putNew (cmp : κ → κ → Int) (s : MapNodes κ) (node : NodePtr) : MapNodes κ × RbAnswer :=
  match s.find (s.keys node) with
  | some _ => (s, .code CCEPH_ERR_MAP_NODE_ALREADY_EXIST)
  | none =>
      ({ s with
        entries := s.entries.orderedInsert (fun e e' => cmp (s.keys e) (s.keys e') < 0) node },
        .code CCEPH_OK)

def apply (cmp : κ → κ → Int) (s : MapNodes κ) : RbCall κ → MapNodes κ × RbAnswer
  | .alloc a _ k =>
      (⟨Function.update s.nodes a true, Function.update s.keys a k, s.entries⟩, .nothing)
  | .free a => ({ s with nodes := Function.update s.nodes a false }, .nothing)
  | .insert node => s.putNew cmp node
  | .remove node => ({ s with entries := s.entries.erase node }, .code CCEPH_OK)
  | .search k => (s, searched (s.find k))
  | .first => (s, .pointer (orNull s.entries.head?))
  | .last => (s, .pointer (orNull s.entries.getLast?))
  | .next node => (s, .pointer (orNull (s.entries.dropWhile fun e => e ≠ node).tail.head?))
  | .prev node => (s, .pointer (orNull (s.entries.takeWhile fun e => e ≠ node).getLast?))
  | .replace victim newNode =>
      ({ s with entries := s.entries.map fun e => if e = victim then newNode else e }, .nothing)

end MapNodes

/-- The callers keep to the rules of the map; the allocator hands out
aligned addresses. -/
def RbCall.Fits (s : MapNodes κ) : RbCall κ → Prop
  | .alloc a _ _ => s.nodes a = false ∧ a ≠ 0 ∧ a &&& 3#64 = 0#64
  | .free a | .insert a => s.nodes a = true ∧ a ∉ s.entries
  | .remove node | .next node | .prev node => node ∈ s.entries
  | .search _ | .first | .last => True
  | .replace victim newNode => victim ∈ s.entries ∧ s.nodes newNode = true
      ∧ newNode ∉ s.entries ∧ s.keys newNode = s.keys victim

instance (s : MapNodes κ) : (call : RbCall κ) → Decidable (call.Fits s)
  | .alloc a _ _ => inferInstanceAs (Decidable (s.nodes a = false ∧ a ≠ 0 ∧ a &&& 3#64 = 0#64))
  | .free a | .insert a => inferInstanceAs (Decidable (s.nodes a = true ∧ a ∉ s.entries))
  | .remove node | .next node | .prev node => inferInstanceAs (Decidable (node ∈ s.entries))
  | .search _ | .first | .last => inferInstanceAs (Decidable True)
  | .replace victim newNode => inferInstanceAs (Decidable (victim ∈ s.entries
      ∧ s.nodes newNode = true ∧ newNode ∉ s.entries ∧ s.keys newNode = s.keys victim))

/-- The turns that the loops of a call take at most. -/
def rbTurns (entries : Nat) : Nat := 2 * Nat.log 2 (entries + 1) + 2

/-- Every call of a run fits, and its loops have turns enough. -/
def RbCallsFit (cmp : κ → κ → Int) (turns : Nat) : MapNodes κ → List (RbCall κ) → Prop
  | _, [] => True
  | s, call :: calls => call.Fits s ∧ rbTurns s.entries.length ≤ turns
      ∧ RbCallsFit cmp turns (s.apply cmp call).1 calls

instance decidableRbCallsFit (cmp : κ → κ → Int) (turns : Nat) : (s : MapNodes κ) →
    (calls : List (RbCall κ)) →
    Decidable (RbCallsFit cmp turns s calls)
  | _, [] => inferInstanceAs (Decidable True)
  | s, call :: calls =>
      have := decidableRbCallsFit cmp turns (s.apply cmp call).1 calls
      inferInstanceAs (Decidable (call.Fits s ∧ rbTurns s.entries.length ≤ turns
        ∧ RbCallsFit cmp turns (s.apply cmp call).1 calls))

/-- The map after a run, and what the callers have seen. -/
def MapNodes.run (cmp : κ → κ → Int) : MapNodes κ → List (RbCall κ) → MapNodes κ × List RbAnswer
  | s, [] => (s, [])
  | s, call :: calls =>
      let rest := MapNodes.run cmp (s.apply cmp call).1 calls
      (rest.1, (s.apply cmp call).2 :: rest.2)

end

-- ============================================================== the code

/-- The nodes, and the keys in the entries around them. -/
structure EntryMem (κ : Type) where
  mem : RbMem
  keys : NodePtr → κ

section
variable {κ α : Type}

/-- A function that reads keys and works on the nodes. -/
def onEntries (x : (NodePtr → κ) → Prog RbMem α) : Prog (EntryMem κ) α := fun s =>
  match x s.keys s.mem with
  | .ok (a, mem) => .ok (a, { s with mem := mem })
  | .error e => .error e

def rbCall (cmp : κ → κ → Int) (turns : Nat) : RbCall κ → Prog (EntryMem κ) RbAnswer
  | .alloc a links k => fun s =>
      .ok (.nothing, ⟨{ s.mem with nodes := Function.update s.mem.nodes a (some links) },
        Function.update s.keys a k⟩)
  | .free a => fun s =>
      .ok (.nothing, { s with mem := { s.mem with nodes := Function.update s.mem.nodes a none } })
  | .insert node => onEntries fun key => do
      let ret ← RbHeap.mapInsert cmp key turns node
      return .code ret
  | .remove node => onEntries fun _ => do
      let ret ← RbHeap.mapRemove turns node
      return .code ret
  | .search k => onEntries fun key => do
      let ret ← RbHeap.mapSearch cmp key turns k
      return .found ret.1 ret.2
  | .first => onEntries fun _ => do
      let p ← RbHeap.first turns
      return .pointer p
  | .last => onEntries fun _ => do
      let p ← RbHeap.last turns
      return .pointer p
  | .next node => onEntries fun _ => do
      let p ← RbHeap.next turns node
      return .pointer p
  | .prev node => onEntries fun _ => do
      let p ← RbHeap.prev turns node
      return .pointer p
  | .replace victim newNode => onEntries fun _ => do
      RbHeap.replaceNode victim newNode
      return .nothing

/-- One call after the other. -/
def rbCalls (cmp : κ → κ → Int) (turns : Nat) : List (RbCall κ) → Prog (EntryMem κ) (List RbAnswer)
  | [] => return []
  | call :: calls => do
      let answer ← rbCall cmp turns call
      let answers ← rbCalls cmp turns calls
      return answer :: answers

end

end CephInC
