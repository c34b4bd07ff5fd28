/-
`common/list.h`: lists linked through a `cceph_list_head` inside each
record.

A pointer is an address, and a `cceph_list_head` is there or it is not:
reading or writing one that is not ends the run, as `NULL` does. The
poison that `cceph_list_delete` leaves behind is an address like any
other at which there is nothing. `cceph_container_of` is arithmetic on
addresses, so a record and its `list_node` share one here.

`cceph_list_for_each` is the loop over a body that says if it breaks; the
model gives it a number of turns, and `Fault.blocked` when they run out.
-/
import CephInC.Lib.Rings
import CephInC.Common.Machine

namespace CephInC

open Lib

abbrev ListHeap := LinkHeap Nat

def CCEPH_LIST_POISON1 : Nat := 0x00100100
def CCEPH_LIST_POISON2 : Nat := 0x00200200

/-- What the use of a pointer to nothing ends in. -/
def badPointer (p : Nat) : Fault := if p = 0 then .nullDeref else .outOfBounds

/-- Both links of the node at `p`. -/
def listLinks (p : Nat) : Prog ListHeap (Links Nat) := fun heap =>
  match heap p with
  | some links => .ok (links, heap)
  | none => .error (badPointer p)

/-- `p->next = q`. -/
def listSetNext (p q : Nat) : Prog ListHeap Unit := fun heap =>
  if (heap p).isSome then .ok ((), heap.setNext p q) else .error (badPointer p)

/-- `p->prev = q`. -/
def listSetPrev (p q : Nat) : Prog ListHeap Unit := fun heap =>
  if (heap p).isSome then .ok ((), heap.setPrev p q) else .error (badPointer p)

/-- `cceph_list_head_init`. -/
def listHeadInit (list : Nat) : Prog ListHeap Unit := do
  listSetPrev list list
  listSetNext list list

/-- `cceph_list_empty`. -/
def listEmpty (list : Nat) : Prog ListHeap Bool := do
  let links ← listLinks list
  return decide (links.prev = list ∧ links.next = list)

/-- `__cceph_list_add`. -/
def listAddBetween (newNode prev next : Nat) : Prog ListHeap Unit := do
  listSetNext prev newNode
  listSetPrev newNode prev
  listSetNext newNode next
  listSetPrev next newNode

/-- `cceph_list_add`. -/
def listAdd (newNode head : Nat) : Prog ListHeap Unit := do
  let links ← listLinks head
  listAddBetween newNode head links.next

/-- `cceph_list_add_tail`. -/
def listAddTail (newNode head : Nat) : Prog ListHeap Unit := do
  let links ← listLinks head
  listAddBetween newNode links.prev head

/-- `__cceph_list_delete`. -/
def listDeleteBetween (prev next : Nat) : Prog ListHeap Unit := do
  listSetNext prev next
  listSetPrev next prev

/-- `cceph_list_delete`. -/
def listDelete (entry : Nat) : Prog ListHeap Unit := do
  let links ← listLinks entry
  listDeleteBetween links.prev links.next
  listSetNext entry CCEPH_LIST_POISON1
  listSetPrev entry CCEPH_LIST_POISON2

/-- `cceph_list_move`. -/
def listMove (list head : Nat) : Prog ListHeap Unit := do
  let links ← listLinks list
  listDeleteBetween links.prev links.next
  listAdd list head

/-- `cceph_list_move_tail`. -/
def listMoveTail (list head : Nat) : Prog ListHeap Unit := do
  let links ← listLinks list
  listDeleteBetween links.prev links.next
  listAddTail list head

section
variable {σ : Type}

/-- `pos->next`, in a state that holds the nodes. -/
def listNextIn (nodes : σ → ListHeap) (pos : Nat) : Prog σ Nat := fun s =>
  match nodes s pos with
  | some links => .ok (links.next, s)
  | none => .error (badPointer pos)

/-- `cceph_list_for_each(pos, head)` from `pos` on: where `pos` stands
when the loop is left. The body returns true for a `break`. -/
def listForEachFrom (nodes : σ → ListHeap) (body : Nat → Prog σ Bool) (head : Nat) :
    Nat → Nat → Prog σ Nat
  | 0, _ => fault .blocked
  | turns + 1, pos =>
      if pos = head then return pos
      else do
        if ← body pos then return pos
        let pos ← listNextIn nodes pos
        listForEachFrom nodes body head turns pos

/-- `cceph_list_for_each(pos, head)`. -/
def listForEach (nodes : σ → ListHeap) (body : Nat → Prog σ Bool) (head turns : Nat) :
    Prog σ Nat := do
  let pos ← listNextIn nodes head
  listForEachFrom nodes body head turns pos

end

end CephInC
