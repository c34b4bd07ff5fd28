/-
What the functions of `common/list.h` do to the rings of a heap: none of
them faults on nodes that are there, and each writes the links that
`Lib/Rings.lean` names.
-/
import CephInC.Common.ListHead

namespace CephInC

open Lib

variable {heap : ListHeap}

-- ========================================================= single uses

theorem listLinks_run {p : Nat} {links : Links Nat} (h : heap p = some links) :
    listLinks p heap = .ok (links, heap) := by
  unfold listLinks
  rw [h]

theorem listSetNext_run {p : Nat} (q : Nat) (h : (heap p).isSome) :
    listSetNext p q heap = .ok ((), heap.setNext p q) := if_pos h

theorem listSetPrev_run {p : Nat} (q : Nat) (h : (heap p).isSome) :
    listSetPrev p q heap = .ok ((), heap.setPrev p q) := if_pos h

theorem listAddBetween_run {newNode prev next : Nat} (hnode : (heap newNode).isSome)
    (hprev : (heap prev).isSome) (hnext : (heap next).isSome) :
    listAddBetween newNode prev next heap = .ok ((), heap.splice newNode prev next) := by
  unfold listAddBetween LinkHeap.splice
  rw [bind_ok (listSetNext_run newNode hprev),
    bind_ok (listSetPrev_run prev (by simpa using hnode)),
    bind_ok (listSetNext_run next (by simpa using hnode))]
  exact listSetPrev_run newNode (by simpa using hnext)

theorem listDeleteBetween_run {prev next : Nat} (hprev : (heap prev).isSome)
    (hnext : (heap next).isSome) :
    listDeleteBetween prev next heap = .ok ((), heap.join prev next) := by
  unfold listDeleteBetween LinkHeap.join
  rw [bind_ok (listSetNext_run next hprev)]
  exact listSetPrev_run prev (by simpa using hnext)

/-- The links of a ring's head: its first and its last entry. -/
theorem ring_head_links {head : Nat} {xs : List Nat} (hr : heap.Ring head xs) :
    heap head = some ⟨xs.getLastD head, xs.headD head⟩ := by
  have hprev := hr.run.prev_eq
  have hnext := hr.run.next_eq
  rw [LinkHeap.prev] at hprev
  rw [LinkHeap.next] at hnext
  obtain ⟨links, hlinks, hlast⟩ := Option.map_eq_some_iff.mp hprev
  rw [hlinks] at hnext
  rw [hlinks, ← hlast, ← Option.some.inj hnext]

/-- The links of an entry: its neighbours, the head among them. -/
theorem ring_entry_links {head e : Nat} {before after : List Nat}
    (hr : heap.Ring head (before ++ e :: after)) :
    heap e = some ⟨before.getLastD head, after.headD head⟩ := by
  have hview := ring_head_links hr.rotate
  have hlast : (after ++ head :: before).getLastD e = before.getLastD head := by
    rw [List.getLastD_eq_getLast?, List.getLast?_append, List.getLast?_cons,
      List.getLastD_eq_getLast?]
    rfl
  have hfirst : (after ++ head :: before).headD e = after.headD head := by
    cases after <;> rfl
  rw [hview, hlast, hfirst]

theorem headD_mem {α : Type} (a : α) (xs : List α) : xs.headD a ∈ a :: xs := by
  cases xs with
  | nil => exact List.mem_cons_self
  | cons x xs => exact List.mem_cons_of_mem a List.mem_cons_self

-- ========================================================= the functions

theorem listHeadInit_run {list : Nat} (h : (heap list).isSome) :
    listHeadInit list heap = .ok ((), heap.join list list) := by
  unfold listHeadInit
  rw [bind_ok (listSetPrev_run list h), listSetNext_run list (by simpa using h)]
  obtain ⟨links, hlinks⟩ := Option.isSome_iff_exists.mp h
  have hself : (heap.setPrev list list).setNext list list
      = (heap.setNext list list).setPrev list list := by
    unfold LinkHeap.setNext LinkHeap.setPrev
    rw [Function.update_self, Function.update_self, hlinks, Function.update_idem,
      Function.update_idem]
    rfl
  rw [hself]
  rfl

/-- A node on its own is an empty ring. -/
theorem ring_self {list : Nat} (h : (heap list).isSome) : (heap.join list list).Ring list [] := by
  refine ⟨List.nodup_singleton list, ?_, ?_⟩
  · rw [LinkHeap.join, LinkHeap.next_setPrev]
    exact LinkHeap.next_setNext list h
  · exact LinkHeap.prev_setPrev list (by rw [LinkHeap.setNext_isSome]; exact h)

theorem listEmpty_run {head : Nat} {xs : List Nat} (hr : heap.Ring head xs) :
    listEmpty head heap = .ok (decide (xs = []), heap) := by
  unfold listEmpty
  rw [bind_ok (listLinks_run (ring_head_links hr)), pure_run]
  congr 2
  refine decide_eq_decide.mpr ?_
  cases xs with
  | nil => exact ⟨fun _ => rfl, fun _ => ⟨rfl, rfl⟩⟩
  | cons x xs =>
      refine ⟨?_, fun h => by cases h⟩
      rintro ⟨-, hfirst⟩
      exact absurd (hfirst ▸ List.mem_cons_self) hr.head_notMem

theorem listAdd_run {newNode head : Nat} {xs : List Nat} (hr : heap.Ring head xs)
    (hnode : (heap newNode).isSome) :
    listAdd newNode head heap = .ok ((), heap.splice newNode head (xs.headD head)) := by
  unfold listAdd
  rw [bind_ok (listLinks_run (ring_head_links hr))]
  exact listAddBetween_run hnode (hr.run.isSome head List.mem_cons_self)
    (hr.run.isSome _ (headD_mem head xs))

theorem listAddTail_run {newNode head : Nat} {xs : List Nat} (hr : heap.Ring head xs)
    (hnode : (heap newNode).isSome) :
    listAddTail newNode head heap = .ok ((), heap.splice newNode (xs.getLastD head) head) := by
  unfold listAddTail
  rw [bind_ok (listLinks_run (ring_head_links hr))]
  exact listAddBetween_run hnode (hr.run.isSome _ List.getLastD_mem_cons)
    (hr.run.isSome head List.mem_cons_self)

/-- What `cceph_list_delete` leaves in the entry. -/
def poisoned : Links Nat := ⟨CCEPH_LIST_POISON2, CCEPH_LIST_POISON1⟩

/-- The neighbours of an entry are there. -/
theorem ring_neighbours {head e : Nat} {before after : List Nat}
    (hr : heap.Ring head (before ++ e :: after)) :
    (heap (before.getLastD head)).isSome ∧ (heap (after.headD head)).isSome := by
  refine ⟨hr.run.isSome _ ?_, hr.run.isSome _ ?_⟩
  · rcases List.mem_cons.mp (List.getLastD_mem_cons (l := before) (a := head)) with heq | hmem
    · rw [heq]
      exact List.mem_cons_self
    · exact List.mem_cons_of_mem head (List.mem_append_left _ hmem)
  · rcases List.mem_cons.mp (headD_mem head after) with heq | hmem
    · rw [heq]
      exact List.mem_cons_self
    · exact List.mem_cons_of_mem head
        (List.mem_append_right before (List.mem_cons_of_mem e hmem))

theorem listDelete_run {head e : Nat} {before after : List Nat}
    (hr : heap.Ring head (before ++ e :: after)) :
    listDelete e heap = .ok ((),
      Function.update (heap.join (before.getLastD head) (after.headD head)) e
        (some poisoned)) := by
  obtain ⟨hprev, hnext⟩ := ring_neighbours hr
  have he : (heap e).isSome := by
    rw [ring_entry_links hr]
    rfl
  unfold listDelete
  rw [bind_ok (listLinks_run (ring_entry_links hr)), bind_ok (listDeleteBetween_run hprev hnext),
    bind_ok (listSetNext_run CCEPH_LIST_POISON1 (by simpa using he)),
    listSetPrev_run CCEPH_LIST_POISON2 (by simpa using he)]
  have hthere : (heap.join (before.getLastD head) (after.headD head) e).isSome := by
    simpa using he
  obtain ⟨links, hlinks⟩ := Option.isSome_iff_exists.mp hthere
  rw [LinkHeap.setPrev, LinkHeap.setNext, Function.update_self, Function.update_idem, hlinks]
  rfl

/-- The entry is out of the ring, and nothing else has changed. -/
theorem ring_deleted {head e : Nat} {before after : List Nat}
    (hr : heap.Ring head (before ++ e :: after)) (links : Option (Links Nat)) :
    LinkHeap.Ring
      (Function.update (heap.join (before.getLastD head) (after.headD head)) e links) head
      (before ++ after) := by
  refine hr.remove.congr ?_
  intro c hc
  refine Function.update_of_ne ?_ _ _
  rintro rfl
  have hperm : (head :: (before ++ c :: after)).Perm (c :: head :: (before ++ after)) :=
    (List.Perm.cons head List.perm_middle).trans (List.Perm.swap c head _)
  exact (List.nodup_cons.mp (hperm.nodup_iff.mp hr.distinct)).1 hc

/-- A deleted entry that is deleted again. -/
theorem listDelete_poisoned {e : Nat} (he : heap e = some poisoned)
    (hpoison : heap CCEPH_LIST_POISON2 = none) : listDelete e heap = .error .outOfBounds := by
  unfold listDelete
  rw [bind_ok (listLinks_run he)]
  refine bind_error (bind_error ?_)
  show listSetNext CCEPH_LIST_POISON2 CCEPH_LIST_POISON1 heap = _
  unfold listSetNext
  rw [hpoison]
  rfl

/-- Both moves take the entry out first. -/
theorem listMove_out {head e : Nat} {before after : List Nat} (head' : Nat)
    (hr : heap.Ring head (before ++ e :: after)) :
    listMove e head' heap
        = listAdd e head' (heap.join (before.getLastD head) (after.headD head))
      ∧ listMoveTail e head' heap
        = listAddTail e head' (heap.join (before.getLastD head) (after.headD head)) := by
  obtain ⟨hprev, hnext⟩ := ring_neighbours hr
  have hread := listLinks_run (ring_entry_links hr)
  have hout := listDeleteBetween_run hprev hnext
  exact ⟨by unfold listMove; rw [bind_ok hread, bind_ok hout],
    by unfold listMoveTail; rw [bind_ok hread, bind_ok hout]⟩

-- ============================================================== loops

section
variable {σ : Type}

/-- The loop over the entries themselves: the one it breaks at. -/
def forEachIn (body : Nat → Prog σ Bool) : List Nat → Prog σ (Option Nat)
  | [] => return none
  | x :: xs => do
      if ← body x then return some x
      forEachIn body xs

/-- A body that leaves the nodes as they are. -/
def KeepsNodes (nodes : σ → ListHeap) (body : Nat → Prog σ Bool) : Prop :=
  ∀ pos s b s', body pos s = .ok (b, s') → nodes s' = nodes s

theorem listNextIn_run {nodes : σ → ListHeap} {pos next : Nat} {s : σ}
    (h : (nodes s).next pos = some next) : listNextIn nodes pos s = .ok (next, s) := by
  unfold listNextIn
  rw [LinkHeap.next] at h
  obtain ⟨links, hlinks, hnext⟩ := Option.map_eq_some_iff.mp h
  rw [hlinks, ← hnext]

theorem listForEachFrom_run {nodes : σ → ListHeap} {body : Nat → Prog σ Bool}
    (hbody : KeepsNodes nodes body) {head : Nat} :
    ∀ {xs : List Nat} {a turns : Nat} {s : σ}, (nodes s).Run a xs head → head ∉ xs →
      xs.length < turns →
      listForEachFrom nodes body head turns (xs.headD head) s
        = (do
            let stop ← forEachIn body xs
            return stop.getD head) s
  | [], _, 0, _, _, _, h => by cases h
  | [], _, turns + 1, s, _, _, _ => by
      unfold listForEachFrom
      rw [List.headD_nil, if_pos rfl]
      rfl
  | x :: xs, _, 0, _, _, _, h => by cases h
  | x :: xs, a, turns + 1, s, hrun, hhead, hturns => by
      have hx : x ≠ head := fun heq => hhead (heq ▸ List.mem_cons_self)
      unfold listForEachFrom forEachIn
      rw [List.headD_cons, if_neg hx, bind_assoc]
      cases hb : body x s with
      | error e => rw [bind_error hb, bind_error hb]
      | ok r =>
          obtain ⟨stop, s'⟩ := r
          rw [bind_ok hb, bind_ok hb]
          cases stop with
          | true => rfl
          | false =>
              have hkeep : nodes s' = nodes s := hbody x s false s' hb
              have hrest : (nodes s').Run x xs head := hkeep ▸ hrun.2
              have ih := listForEachFrom_run hbody hrest
                (fun hmem => hhead (List.mem_cons_of_mem x hmem))
                (Nat.lt_of_succ_lt_succ hturns)
              rw [if_neg Bool.false_ne_true, if_neg Bool.false_ne_true]
              show (listNextIn nodes x >>= fun pos =>
                listForEachFrom nodes body head turns pos) s' = _
              rw [bind_ok (listNextIn_run hrest.next_eq), ih]

/-- `cceph_list_for_each` over a ring is the loop over its entries. -/
theorem listForEach_run {nodes : σ → ListHeap} {body : Nat → Prog σ Bool}
    (hbody : KeepsNodes nodes body) {head turns : Nat} {xs : List Nat} {s : σ}
    (hr : (nodes s).Ring head xs) (hturns : xs.length < turns) :
    listForEach nodes body head turns s
      = (do
          let stop ← forEachIn body xs
          return stop.getD head) s := by
  unfold listForEach
  rw [bind_ok (listNextIn_run hr.run.next_eq)]
  exact listForEachFrom_run hbody hr.run hr.head_notMem hturns

end

end CephInC
