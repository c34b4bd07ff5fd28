/-
Any run of calls on the lists of `common/list.h` that fits: no call
faults, every answer is the one the lists give, and the links hold the
lists.

`NodeLists.Holds` is the invariant: every list is a ring, no node is in
two rings, and a deleted node carries the poison. A call touches the
nodes of one ring and one node more (`Holds.touch`), a move those of two.
-/
import CephInC.Common.ListRuns
import CephInC.Common.Proofs.ListHead

namespace CephInC

open Lib

structure NodeLists.Holds (s : NodeLists) (heap : ListHeap) : Prop where
  there : ∀ a, (heap a).isSome = s.nodes a
  null : heap 0 = none
  poison1 : heap CCEPH_LIST_POISON1 = none
  poison2 : heap CCEPH_LIST_POISON2 = none
  ring : ∀ head xs, s.lists head = some xs → heap.Ring head xs
  apart : ∀ head xs head' xs', s.lists head = some xs → s.lists head' = some xs' →
    head ≠ head' → ∀ a ∈ head :: xs, a ∉ head' :: xs'
  deleted : ∀ e, s.deleted e = true →
    heap e = some poisoned ∧ s.lists e = none ∧ ¬s.On e

namespace NodeLists

variable {s : NodeLists} {heap heap' : ListHeap}

theorem noLists_holds : noLists.Holds fun _ => none where
  there _ := rfl
  null := rfl
  poison1 := rfl
  poison2 := rfl
  ring _ _ h := by cases h
  apart _ _ _ _ h := by cases h
  deleted _ h := by cases h

/-- A loose node is in no ring. -/
theorem Loose.notMem {a head : Nat} {xs : List Nat} (ha : s.Loose a)
    (hxs : s.lists head = some xs) : a ∉ head :: xs := by
  intro hmem
  rcases List.mem_cons.mp hmem with rfl | hmem
  · have hnone := ha.2.1
    rw [hxs] at hnone
    cases hnone
  · exact ha.2.2 ⟨head, xs, hxs, hmem⟩

/-- A node of a ring is not on its way back from a deletion. -/
theorem Holds.not_deleted (h : s.Holds heap) {head a : Nat} {xs : List Nat}
    (hxs : s.lists head = some xs) (ha : a ∈ head :: xs) : s.deleted a = false := by
  cases hd : s.deleted a with
  | false => rfl
  | true =>
      obtain ⟨-, hnone, hoff⟩ := h.deleted a hd
      rcases List.mem_cons.mp ha with rfl | ha
      · rw [hxs] at hnone
        cases hnone
      · exact absurd ⟨head, xs, hxs, ha⟩ hoff

/-- From `s` to `s'` the list of `head` turns from `xs` into `ys`; `node`
is the one entry that may come or go. -/
structure Touch (s s' : NodeLists) (head node : Nat) (xs ys : List Nat) : Prop where
  before : s.lists head = some xs
  after : s'.lists head = some ys
  rest : ∀ head', head' ≠ head → s'.lists head' = s.lists head'
  nodes : s'.nodes = s.nodes
  deleted : ∀ a, a ≠ node → s'.deleted a = s.deleted a
  entries : ∀ a ∈ ys, a ∈ xs ∨ a = node
  node : s.Loose node ∨ node ∈ xs

variable {s' : NodeLists} {head node : Nat} {xs ys : List Nat}

theorem Touch.ring_nodes (t : Touch s s' head node xs ys) :
    ∀ a ∈ head :: ys, a ∈ head :: xs ∨ a = node := by
  intro a ha
  rcases List.mem_cons.mp ha with rfl | ha
  · exact .inl List.mem_cons_self
  · exact (t.entries a ha).imp_left (List.mem_cons_of_mem head)

/-- No other list has the node, or a node of this one. -/
theorem Touch.other (t : Touch s s' head node xs ys) (h : s.Holds heap) {head' : Nat}
    {xs' : List Nat} (hxs' : s'.lists head' = some xs') (hne : head' ≠ head) :
    ∀ a ∈ head' :: xs', a ∉ head :: xs ∧ a ≠ node ∧ a ∉ head :: ys := by
  intro a ha
  rw [t.rest head' hne] at hxs'
  have hoff : a ∉ head :: xs := h.apart _ _ _ _ hxs' t.before hne a ha
  have hnode : a ≠ node := by
    rintro rfl
    rcases t.node with hloose | hmem
    · exact hloose.notMem hxs' ha
    · exact hoff (List.mem_cons_of_mem head hmem)
  refine ⟨hoff, hnode, fun hin => ?_⟩
  rcases t.ring_nodes a hin with hmem | heq
  · exact hoff hmem
  · exact hnode heq

/-- What a call on one ring has to show. -/
theorem Holds.touch (h : s.Holds heap) (t : Touch s s' head node xs ys)
    (hthere : ∀ a, (heap' a).isSome = (heap a).isSome)
    (hsame : ∀ a, a ∉ head :: xs → a ≠ node → heap' a = heap a)
    (hring : heap'.Ring head ys)
    (hmark : s'.deleted node = true →
      heap' node = some poisoned ∧ node ≠ head ∧ node ∉ ys) :
    s'.Holds heap' := by
  have hgone : ∀ a, heap a = none → heap' a = none := by
    intro a ha
    have hthere' := hthere a
    rw [ha] at hthere'
    exact Option.not_isSome_iff_eq_none.mp (by rw [hthere']; exact Bool.false_ne_true)
  have hlists : ∀ head' xs', s'.lists head' = some xs' → head' = head ∧ xs' = ys
      ∨ head' ≠ head ∧ s.lists head' = some xs' := by
    intro head' xs' hxs'
    by_cases hne : head' = head
    · rw [hne, t.after] at hxs'
      exact .inl ⟨hne, (Option.some.inj hxs').symm⟩
    · exact .inr ⟨hne, t.rest head' hne ▸ hxs'⟩
  refine ⟨?_, hgone _ h.null, hgone _ h.poison1, hgone _ h.poison2, ?_, ?_, ?_⟩
  · intro a
    rw [hthere a, h.there a, t.nodes]
  · intro head' xs' hxs'
    rcases hlists head' xs' hxs' with ⟨rfl, rfl⟩ | ⟨hne, hold⟩
    · exact hring
    · refine (h.ring head' xs' hold).congr ?_
      intro a ha
      obtain ⟨hoff, hnode, -⟩ := t.other h hxs' hne a ha
      exact hsame a hoff hnode
  · intro h₁ xs₁ h₂ xs₂ hxs₁ hxs₂ hne a ha ha₂
    rcases hlists h₁ xs₁ hxs₁ with ⟨rfl, rfl⟩ | ⟨hne₁, hold₁⟩
    · exact (t.other h hxs₂ hne.symm a ha₂).2.2 ha
    · rcases hlists h₂ xs₂ hxs₂ with ⟨rfl, rfl⟩ | ⟨-, hold₂⟩
      · exact (t.other h hxs₁ hne₁ a ha).2.2 ha₂
      · exact h.apart _ _ _ _ hold₁ hold₂ hne a ha ha₂
  · intro e he
    -- wherever a list has `e` now, it is seen to be another node
    suffices hoff : heap' e = some poisoned ∧ e ∉ head :: ys
        ∧ ∀ head' xs', s'.lists head' = some xs' → head' ≠ head → e ∉ head' :: xs' by
      obtain ⟨hpoison, hys, hothers⟩ := hoff
      have hnot : ∀ head' xs', s'.lists head' = some xs' → e ∉ head' :: xs' := by
        intro head' xs' hxs'
        rcases hlists head' xs' hxs' with ⟨rfl, rfl⟩ | ⟨hne, -⟩
        · exact hys
        · exact hothers head' xs' hxs' hne
      refine ⟨hpoison, ?_, ?_⟩
      · cases hl : s'.lists e with
        | none => rfl
        | some xs' => exact absurd List.mem_cons_self (hnot e xs' hl)
      · rintro ⟨head', xs', hxs', hmem⟩
        exact hnot head' xs' hxs' (List.mem_cons_of_mem head' hmem)
    by_cases hen : e = node
    · subst hen
      obtain ⟨hpoison, hhead, hys⟩ := hmark he
      refine ⟨hpoison, ?_, ?_⟩
      · intro hmem
        rcases List.mem_cons.mp hmem with heq | hmem
        · exact hhead heq
        · exact hys hmem
      · intro head' xs' hxs' hne hmem
        exact (t.other h hxs' hne e hmem).2.1 rfl
    · rw [t.deleted e hen] at he
      obtain ⟨hpoison, hnone, hoff⟩ := h.deleted e he
      have hxs : e ∉ head :: xs := by
        intro hmem
        have hfalse := h.not_deleted t.before hmem
        rw [he] at hfalse
        cases hfalse
      refine ⟨(hsame e hxs hen).trans hpoison, ?_, ?_⟩
      · intro hmem
        rcases t.ring_nodes e hmem with hin | heq
        · exact hxs hin
        · exact hen heq
      · intro head' xs' hxs' hne hmem
        rw [t.rest head' hne] at hxs'
        rcases List.mem_cons.mp hmem with rfl | hmem
        · rw [hxs'] at hnone
          cases hnone
        · exact hoff ⟨head', xs', hxs', hmem⟩

/-- What a call on one node outside all lists has to show; it may make
the node an empty list. -/
theorem Holds.single (h : s.Holds heap) {a : Nat}
    (hoff : ∀ head xs, head ≠ a → s.lists head = some xs → a ∉ xs)
    (hrest : ∀ head, head ≠ a → s'.lists head = s.lists head)
    (hlist : s'.lists a = none ∨ s'.lists a = some [] ∧ heap'.Ring a [])
    (hthere : ∀ c, (heap' c).isSome = s'.nodes c) (hsame : ∀ c, c ≠ a → heap' c = heap c)
    (hbad : a ≠ 0 ∧ a ≠ CCEPH_LIST_POISON1 ∧ a ≠ CCEPH_LIST_POISON2)
    (hdeleted : ∀ e, e ≠ a → s'.deleted e = s.deleted e) (hmark : s'.deleted a = false) :
    s'.Holds heap' := by
  have hlists : ∀ head xs, s'.lists head = some xs → head = a ∧ xs = [] ∧ heap'.Ring a []
      ∨ head ≠ a ∧ s.lists head = some xs := by
    intro head xs hxs
    by_cases hne : head = a
    · subst hne
      rcases hlist with hnone | ⟨hsome, hring⟩
      · rw [hnone] at hxs
        cases hxs
      · rw [hsome] at hxs
        exact .inl ⟨rfl, (Option.some.inj hxs).symm, hring⟩
    · exact .inr ⟨hne, hrest head hne ▸ hxs⟩
  have hout : ∀ head xs, head ≠ a → s.lists head = some xs → a ∉ head :: xs := by
    intro head xs hne hxs hmem
    rcases List.mem_cons.mp hmem with heq | hmem
    · exact hne heq.symm
    · exact hoff head xs hne hxs hmem
  refine ⟨hthere, (hsame _ hbad.1.symm).trans h.null, (hsame _ hbad.2.1.symm).trans h.poison1,
    (hsame _ hbad.2.2.symm).trans h.poison2, ?_, ?_, ?_⟩
  · intro head xs hxs
    rcases hlists head xs hxs with ⟨rfl, rfl, hring⟩ | ⟨hne, hold⟩
    · exact hring
    · refine (h.ring head xs hold).congr fun c hc => hsame c ?_
      rintro rfl
      exact hout head xs hne hold hc
  · intro h₁ xs₁ h₂ xs₂ hxs₁ hxs₂ hne c hc hc₂
    rcases hlists h₁ xs₁ hxs₁ with ⟨rfl, rfl, -⟩ | ⟨hne₁, hold₁⟩
    · rcases hlists h₂ xs₂ hxs₂ with ⟨rfl, -, -⟩ | ⟨hne₂, hold₂⟩
      · exact hne rfl
      · rw [List.mem_singleton.mp hc] at hc₂
        exact hout h₂ xs₂ hne₂ hold₂ hc₂
    · rcases hlists h₂ xs₂ hxs₂ with ⟨rfl, rfl, -⟩ | ⟨-, hold₂⟩
      · rw [List.mem_singleton.mp hc₂] at hc
        exact hout h₁ xs₁ hne₁ hold₁ hc
      · exact h.apart _ _ _ _ hold₁ hold₂ hne c hc hc₂
  · intro e he
    have hne : e ≠ a := by
      rintro rfl
      rw [hmark] at he
      cases he
    rw [hdeleted e hne] at he
    obtain ⟨hpoison, hnone, hon⟩ := h.deleted e he
    refine ⟨(hsame e hne).trans hpoison, (hrest e hne).trans hnone, ?_⟩
    rintro ⟨head, xs, hxs, hmem⟩
    rcases hlists head xs hxs with ⟨-, rfl, -⟩ | ⟨-, hold⟩
    · cases hmem
    · exact hon ⟨head, xs, hold, hmem⟩

-- ========================================================== each call

/-- The loop that notes every entry. -/
theorem forEachIn_visit (heap : ListHeap) : ∀ (xs seen : List Nat),
    forEachIn visit xs (heap, seen) = .ok (none, heap, seen ++ xs)
  | [], seen => by rw [List.append_nil]; rfl
  | x :: xs, seen => by
      have ih := forEachIn_visit heap xs (seen ++ [x])
      rw [List.append_assoc] at ih
      exact ih

theorem listForEach_visit {turns : Nat} (seen : List Nat) (hr : heap.Ring head xs)
    (hturns : xs.length < turns) :
    listForEach Prod.fst visit head turns (heap, seen) = .ok (head, heap, seen ++ xs) := by
  have hkeeps : KeepsNodes Prod.fst visit := by
    intro pos s b s' h
    cases h
    rfl
  rw [listForEach_run hkeeps hr hturns, bind_ok (forEachIn_visit heap xs seen)]
  rfl

/-- The allocator hands out neither `NULL` nor the poison. -/
theorem Holds.not_bad (h : s.Holds heap) {a : Nat} (ha : (heap a).isSome) :
    a ≠ 0 ∧ a ≠ CCEPH_LIST_POISON1 ∧ a ≠ CCEPH_LIST_POISON2 := by
  refine ⟨?_, ?_, ?_⟩
  · rintro rfl
    rw [h.null] at ha
    cases ha
  · rintro rfl
    rw [h.poison1] at ha
    cases ha
  · rintro rfl
    rw [h.poison2] at ha
    cases ha

theorem Holds.alloc (h : s.Holds heap) {a : Nat} {links : Links Nat}
    (hfit : (ListCall.alloc a links).Fits s) :
    (s.apply (.alloc a links)).1.Holds (Function.update heap a (some links)) := by
  obtain ⟨hfree, hbad⟩ := hfit
  have hnone : (heap a).isSome = false := (h.there a).trans hfree
  have hout : ∀ head xs, s.lists head = some xs → a ∉ head :: xs := by
    intro head xs hxs hmem
    have hsome := (h.ring head xs hxs).run.isSome a hmem
    rw [hnone] at hsome
    cases hsome
  refine h.single (a := a) ?_ (fun _ _ => rfl) (.inl ?_) ?_ ?_ hbad (fun _ _ => rfl) ?_
  · exact fun head xs _ hxs hmem => hout head xs hxs (List.mem_cons_of_mem head hmem)
  · show s.lists a = none
    cases hl : s.lists a with
    | none => rfl
    | some xs => exact absurd List.mem_cons_self (hout a xs hl)
  · intro c
    show _ = Function.update s.nodes a true c
    by_cases hc : c = a
    · subst hc
      rw [Function.update_self, Function.update_self]
      rfl
    · rw [Function.update_of_ne hc, Function.update_of_ne hc]
      exact h.there c
  · exact fun c hc => Function.update_of_ne hc _ _
  · show s.deleted a = false
    cases hd : s.deleted a with
    | false => rfl
    | true =>
        rw [(h.deleted a hd).1] at hnone
        cases hnone

/-- A loose node, or the head of an empty list, is on no list. -/
theorem Holds.off_of_free (h : s.Holds heap) {a : Nat} (ha : s.Loose a ∨ s.lists a = some []) :
    ∀ head xs, head ≠ a → s.lists head = some xs → a ∉ xs := by
  intro head xs hne hxs hmem
  rcases ha with hloose | hempty
  · exact hloose.2.2 ⟨head, xs, hxs, hmem⟩
  · exact h.apart a [] head xs hempty hxs hne.symm a List.mem_cons_self
      (List.mem_cons_of_mem head hmem)

theorem Holds.isSome_of_free (h : s.Holds heap) {a : Nat}
    (ha : s.Loose a ∨ s.lists a = some []) : (heap a).isSome := by
  rcases ha with hloose | hempty
  · exact (h.there a).trans hloose.1
  · exact (h.ring a [] hempty).run.isSome a List.mem_cons_self

theorem Holds.free (h : s.Holds heap) {a : Nat} (hfit : (ListCall.free a).Fits s) :
    (s.apply (.free a)).1.Holds (Function.update heap a none) := by
  refine h.single (a := a) (h.off_of_free hfit) (fun head hne => Function.update_of_ne hne _ _)
    (.inl (Function.update_self _ _ _)) ?_ (fun c hc => Function.update_of_ne hc _ _)
    (h.not_bad (h.isSome_of_free hfit)) (fun e he => Function.update_of_ne he _ _)
    (Function.update_self _ _ _)
  intro c
  show _ = Function.update s.nodes a false c
  by_cases hc : c = a
  · subst hc
    rw [Function.update_self, Function.update_self]
    rfl
  · rw [Function.update_of_ne hc, Function.update_of_ne hc]
    exact h.there c

theorem Holds.init (h : s.Holds heap) {list : Nat} (hfit : (ListCall.init list).Fits s) :
    (s.apply (.init list)).1.Holds (heap.join list list) := by
  have hthere : (heap list).isSome := h.isSome_of_free (.inl hfit)
  refine h.single (a := list) (h.off_of_free (.inl hfit))
    (fun head hne => Function.update_of_ne hne _ _)
    (.inr ⟨Function.update_self _ _ _, ring_self hthere⟩) ?_ (fun c hc => LinkHeap.join_ne hc hc)
    (h.not_bad hthere) (fun e he => Function.update_of_ne he _ _) (Function.update_self _ _ _)
  intro c
  rw [LinkHeap.join_isSome]
  exact h.there c

/-- A loose node goes into the ring of `head`, as one of its entries. -/
theorem Holds.put (h : s.Holds heap) {f : List Nat → List Nat} (hloose : s.Loose node)
    (hxs : s.lists head = some xs) (hf : ∀ a ∈ f xs, a ∈ xs ∨ a = node)
    (hthere : ∀ a, (heap' a).isSome = (heap a).isSome)
    (hsame : ∀ a, a ∉ head :: xs → a ≠ node → heap' a = heap a)
    (hring : heap'.Ring head (f xs)) :
    NodeLists.Holds ⟨s.nodes, putList s.lists head f, Function.update s.deleted node false⟩
      heap' := by
  have hafter : putList s.lists head f head = some (f xs) := by
    rw [putList, Function.update_self, hxs]
    rfl
  have t : Touch s ⟨s.nodes, putList s.lists head f, Function.update s.deleted node false⟩ head
      node xs (f xs) :=
    ⟨hxs, hafter, fun head' hne => Function.update_of_ne hne _ _, rfl,
      fun a ha => Function.update_of_ne ha _ _, hf, .inl hloose⟩
  refine h.touch t hthere hsame hring ?_
  · intro hmark
    have hfalse : Function.update s.deleted node false node = false := Function.update_self _ _ _
    exact absurd (hfalse.symm.trans hmark) Bool.false_ne_true

theorem Holds.add (h : s.Holds heap) (hloose : s.Loose node) (hxs : s.lists head = some xs) :
    (s.apply (.add node head)).1.Holds (heap.splice node head (xs.headD head)) := by
  have hthere : (heap node).isSome := (h.there node).trans hloose.1
  refine h.put hloose hxs ?_ (fun a => LinkHeap.splice_isSome _ _ _ a) ?_
    ((h.ring head xs hxs).splice (hloose.notMem hxs) hthere)
  · exact fun a ha => (List.mem_cons.mp ha).symm
  · intro a ha hne
    exact LinkHeap.splice_ne hne (fun heq => ha (heq ▸ List.mem_cons_self))
      fun heq => ha (heq ▸ headD_mem head xs)

theorem Holds.addTail (h : s.Holds heap) (hloose : s.Loose node) (hxs : s.lists head = some xs) :
    (s.apply (.addTail node head)).1.Holds (heap.splice node (xs.getLastD head) head) := by
  have hthere : (heap node).isSome := (h.there node).trans hloose.1
  refine h.put hloose hxs ?_ (fun a => LinkHeap.splice_isSome _ _ _ a) ?_
    ((h.ring head xs hxs).splice_last (hloose.notMem hxs) hthere)
  · exact fun a ha => (List.mem_append.mp ha).imp_right List.mem_singleton.mp
  · intro a ha hne
    exact LinkHeap.splice_ne hne (fun heq => ha (heq ▸ List.getLastD_mem_cons))
      fun heq => ha (heq ▸ List.mem_cons_self)

-- ===================================================== taking one out

/-- The list an entry is on, cut at the entry. -/
theorem On.cut {e : Nat} (hon : s.On e) :
    ∃ head before after, s.lists head = some (before ++ e :: after) ∧ e ∉ before := by
  obtain ⟨head, xs, hxs, hmem⟩ := hon
  obtain ⟨before, after, hsplit, hnot⟩ := List.eq_append_cons_of_mem hmem
  exact ⟨head, before, after, hsplit ▸ hxs, hnot⟩

section
variable {e : Nat} {before after : List Nat}

theorem without_self (hxs : s.lists head = some (before ++ e :: after)) (he : e ∉ before) :
    s.without e head = some (before ++ after) := by
  unfold without
  rw [hxs, Option.map_some, List.erase_append_right _ he, List.erase_cons_head]

theorem Holds.without_ne (h : s.Holds heap) (hxs : s.lists head = some (before ++ e :: after))
    {head' : Nat} (hne : head' ≠ head) : s.without e head' = s.lists head' := by
  unfold without
  cases hl : s.lists head' with
  | none => rfl
  | some xs' =>
      have hout : e ∉ xs' := by
        intro hmem
        refine h.apart _ _ _ _ hl hxs hne e (List.mem_cons_of_mem head' hmem) ?_
        exact List.mem_cons_of_mem head (List.mem_append_right before List.mem_cons_self)
      rw [Option.map_some, List.erase_of_not_mem hout]

/-- An entry is another node than its head, and no head itself. -/
theorem Holds.entry (h : s.Holds heap) (hxs : s.lists head = some (before ++ e :: after)) :
    e ≠ head ∧ s.lists e = none ∧ s.nodes e = true ∧ s.deleted e = false := by
  have hr := h.ring head _ hxs
  have hmem : e ∈ before ++ e :: after := List.mem_append_right before List.mem_cons_self
  have hne : e ≠ head := fun heq => hr.head_notMem (heq ▸ hmem)
  have hin : e ∈ head :: (before ++ e :: after) := List.mem_cons_of_mem head hmem
  refine ⟨hne, ?_, (h.there e).symm.trans (hr.run.isSome e hin), h.not_deleted hxs hin⟩
  cases hl : s.lists e with
  | none => rfl
  | some xs' =>
      exact absurd hin (h.apart e xs' head _ hl hxs hne e List.mem_cons_self)

/-- The entry `e` leaves the ring of `head`. -/
theorem Holds.out (h : s.Holds heap) (hxs : s.lists head = some (before ++ e :: after))
    (he : e ∉ before) {mark : Bool} (hthere : ∀ a, (heap' a).isSome = (heap a).isSome)
    (hsame : ∀ a, a ∉ head :: (before ++ e :: after) → heap' a = heap a)
    (hring : heap'.Ring head (before ++ after))
    (hmark : mark = true → heap' e = some poisoned) :
    NodeLists.Holds ⟨s.nodes, s.without e, Function.update s.deleted e mark⟩ heap' := by
  have hmem : e ∈ before ++ e :: after := List.mem_append_right before List.mem_cons_self
  have hentries : ∀ a ∈ before ++ after, a ∈ before ++ e :: after ∨ a = e := by
    intro a ha
    refine .inl ?_
    rcases List.mem_append.mp ha with ha | ha
    · exact List.mem_append_left _ ha
    · exact List.mem_append_right before (List.mem_cons_of_mem e ha)
  have t : Touch s ⟨s.nodes, s.without e, Function.update s.deleted e mark⟩ head e
      (before ++ e :: after) (before ++ after) :=
    ⟨hxs, without_self hxs he, fun head' hne => h.without_ne hxs hne, rfl,
      fun a ha => Function.update_of_ne ha _ _, hentries, .inr hmem⟩
  refine h.touch t hthere (fun a ha _ => hsame a ha) hring ?_
  · intro hm
    have hval : mark = true := (Function.update_self (β := fun _ => Bool) e mark s.deleted) ▸ hm
    refine ⟨hmark hval, (h.entry hxs).1, ?_⟩
    intro hin
    have hdist := (h.ring head _ hxs).nodup
    rw [List.nodup_middle] at hdist
    exact (List.nodup_cons.mp hdist).1 hin

/-- The neighbours of an entry are of its ring. -/
theorem neighbours_ne {a : Nat} (ha : a ∉ head :: (before ++ e :: after)) :
    a ≠ before.getLastD head ∧ a ≠ after.headD head ∧ a ≠ e := by
  have hin : ∀ b, b = head ∨ b ∈ before ∨ b ∈ after ∨ b = e → a ≠ b := by
    rintro b hb rfl
    refine ha (List.mem_cons.mpr (hb.imp_right fun hb => List.mem_append.mpr ?_))
    rcases hb with hb | hb | hb
    · exact .inl hb
    · exact .inr (List.mem_cons_of_mem e hb)
    · exact .inr (hb ▸ List.mem_cons_self)
  refine ⟨hin _ ?_, hin _ ?_, hin e (.inr (.inr (.inr rfl)))⟩
  · exact (List.mem_cons.mp List.getLastD_mem_cons).imp_right .inl
  · exact (List.mem_cons.mp (headD_mem head after)).imp_right fun h => .inr (.inl h)

theorem Holds.delete (h : s.Holds heap) (hxs : s.lists head = some (before ++ e :: after))
    (he : e ∉ before) :
    (s.apply (.delete e)).1.Holds
      (Function.update (heap.join (before.getLastD head) (after.headD head)) e
        (some poisoned)) := by
  have hr := h.ring head _ hxs
  refine h.out hxs he ?_ ?_ (ring_deleted hr (some poisoned))
    fun _ => Function.update_self _ _ _
  · intro a
    by_cases ha : a = e
    · subst ha
      rw [Function.update_self, ring_entry_links hr]
      rfl
    · rw [Function.update_of_ne ha, LinkHeap.join_isSome]
  · intro a ha
    obtain ⟨hprev, hnext, hne⟩ := neighbours_ne ha
    rw [Function.update_of_ne hne, LinkHeap.join_ne hprev hnext]

/-- Between the two halves of a move. -/
theorem Holds.unlinked (h : s.Holds heap) (hxs : s.lists head = some (before ++ e :: after))
    (he : e ∉ before) :
    NodeLists.Holds ⟨s.nodes, s.without e, Function.update s.deleted e false⟩
        (heap.join (before.getLastD head) (after.headD head))
      ∧ NodeLists.Loose ⟨s.nodes, s.without e, Function.update s.deleted e false⟩ e := by
  have hr := h.ring head _ hxs
  obtain ⟨-, hnone, hnode, -⟩ := h.entry hxs
  refine ⟨h.out hxs he (fun a => LinkHeap.join_isSome _ _ a) ?_ hr.remove ?_, hnode, ?_, ?_⟩
  · intro a ha
    obtain ⟨hprev, hnext, -⟩ := neighbours_ne ha
    exact LinkHeap.join_ne hprev hnext
  · intro hfalse
    cases hfalse
  · show s.without e e = none
    unfold without
    rw [hnone]
    rfl
  · rintro ⟨head', xs', hxs', hmem⟩
    obtain ⟨ys, hys, rfl⟩ := Option.map_eq_some_iff.mp hxs'
    exact ((h.ring head' ys hys).nodup.not_mem_erase) hmem

/-- A move is a deletion that leaves no mark, and then an addition. -/
theorem Holds.move_eq (h : s.Holds heap) (hxs : s.lists head = some (before ++ e :: after))
    (head' : Nat) :
    (NodeLists.apply ⟨s.nodes, s.without e, Function.update s.deleted e false⟩
        (.add e head')).1 = (s.apply (.move e head')).1
      ∧ (NodeLists.apply ⟨s.nodes, s.without e, Function.update s.deleted e false⟩
        (.addTail e head')).1 = (s.apply (.moveTail e head')).1 := by
  have hmark : Function.update (Function.update s.deleted e false) e false = s.deleted := by
    rw [Function.update_idem]
    exact Function.update_eq_self_iff.mpr (h.entry hxs).2.2.2.symm
  exact ⟨congrArg (NodeLists.mk s.nodes _) hmark, congrArg (NodeLists.mk s.nodes _) hmark⟩

theorem without_isSome {e head : Nat} : (s.without e head).isSome = (s.lists head).isSome :=
  Option.isSome_map

end

-- ============================================================== runs

theorem nothing_run {x : Prog ListHeap Unit} (h : x heap = .ok ((), heap')) :
    (do x; return ListAnswer.nothing : Prog ListHeap ListAnswer) heap
      = .ok (.nothing, heap') := by
  rw [bind_ok h]
  rfl

/-- One call: it does not fault, it answers as the lists say, and the
links hold the lists after it. -/
theorem Holds.call (h : s.Holds heap) {call : ListCall} (hfit : call.Fits s) :
    ∃ heap', listCall call heap = .ok ((s.apply call).2, heap') ∧ (s.apply call).1.Holds heap' := by
  cases call with
  | alloc a links => exact ⟨_, rfl, h.alloc hfit⟩
  | free a => exact ⟨_, rfl, h.free hfit⟩
  | init list =>
      exact ⟨_, nothing_run (listHeadInit_run (h.isSome_of_free (.inl hfit))), h.init hfit⟩
  | empty list =>
      obtain ⟨xs, hxs⟩ := Option.isSome_iff_exists.mp hfit
      have hans : decide (xs = []) = decide (s.lists list = some []) := by
        rw [hxs]
        exact decide_eq_decide.mpr ⟨fun heq => by rw [heq], Option.some.inj⟩
      have hrun : listCall (.empty list) heap = .ok (.empty (decide (xs = [])), heap) := by
        show (listEmpty list >>= fun answer => pure (ListAnswer.empty answer)) heap = _
        rw [bind_ok (listEmpty_run (h.ring list xs hxs))]
        rfl
      refine ⟨heap, ?_, h⟩
      rw [hrun, hans]
      rfl
  | add newNode head =>
      obtain ⟨hloose, hsome⟩ := hfit
      obtain ⟨xs, hxs⟩ := Option.isSome_iff_exists.mp hsome
      have hthere : (heap newNode).isSome := (h.there newNode).trans hloose.1
      exact ⟨_, nothing_run (listAdd_run (h.ring head xs hxs) hthere), h.add hloose hxs⟩
  | addTail newNode head =>
      obtain ⟨hloose, hsome⟩ := hfit
      obtain ⟨xs, hxs⟩ := Option.isSome_iff_exists.mp hsome
      have hthere : (heap newNode).isSome := (h.there newNode).trans hloose.1
      exact ⟨_, nothing_run (listAddTail_run (h.ring head xs hxs) hthere), h.addTail hloose hxs⟩
  | delete entry =>
      obtain ⟨head, before, after, hxs, hnot⟩ := On.cut hfit
      exact ⟨_, nothing_run (listDelete_run (h.ring head _ hxs)), h.delete hxs hnot⟩
  | move list head =>
      obtain ⟨hon, hsome⟩ := hfit
      obtain ⟨head', before, after, hxs, hnot⟩ := On.cut hon
      obtain ⟨hmid, hloose⟩ := h.unlinked hxs hnot
      rw [← without_isSome (e := list)] at hsome
      obtain ⟨ys, hys⟩ := Option.isSome_iff_exists.mp hsome
      have hrun := listAdd_run (hmid.ring head ys hys) ((hmid.there list).trans hloose.1)
      refine ⟨_, nothing_run ((listMove_out head (h.ring head' _ hxs)).1.trans hrun), ?_⟩
      rw [← (h.move_eq hxs head).1]
      exact hmid.add hloose hys
  | moveTail list head =>
      obtain ⟨hon, hsome⟩ := hfit
      obtain ⟨head', before, after, hxs, hnot⟩ := On.cut hon
      obtain ⟨hmid, hloose⟩ := h.unlinked hxs hnot
      rw [← without_isSome (e := list)] at hsome
      obtain ⟨ys, hys⟩ := Option.isSome_iff_exists.mp hsome
      have hrun := listAddTail_run (hmid.ring head ys hys) ((hmid.there list).trans hloose.1)
      refine ⟨_, nothing_run ((listMove_out head (h.ring head' _ hxs)).2.trans hrun), ?_⟩
      rw [← (h.move_eq hxs head).2]
      exact hmid.addTail hloose hys
  | forEach head turns =>
      obtain ⟨xs, hxs, hturns⟩ := hfit
      have hloop := listForEach_visit [] (h.ring head xs hxs) hturns
      have hrun : listCall (.forEach head turns) heap = .ok (.visited xs, heap) := by
        simp only [listCall, hloop, List.nil_append]
      refine ⟨heap, ?_, h⟩
      rw [hrun]
      simp only [apply, hxs, Option.getD_some]

/-- Any number of calls. -/
theorem Holds.calls : ∀ (calls : List ListCall) {s : NodeLists} {heap : ListHeap},
    s.Holds heap → CallsFit s calls →
    ∃ heap', listCalls calls heap = .ok ((s.run calls).2, heap') ∧ (s.run calls).1.Holds heap'
  | [], _, heap, h, _ => ⟨heap, rfl, h⟩
  | call :: calls, s, heap, h, hfit => by
      obtain ⟨mid, hcall, hmid⟩ := h.call hfit.1
      obtain ⟨heap', hcalls, hrest⟩ := Holds.calls calls hmid hfit.2
      refine ⟨heap', ?_, hrest⟩
      unfold listCalls
      rw [bind_ok hcall, bind_ok hcalls]
      rfl

end NodeLists

/-- From no memory at all: a run that fits never faults and answers as
the lists do, which the links then hold in both directions; an entry that
was deleted and not used since has the poison for links, and ends the
process if it is deleted again. -/
theorem listCalls_law {calls : List ListCall} (h : CallsFit noLists calls) :
    ∃ heap, listCalls calls (fun _ => none) = .ok ((noLists.run calls).2, heap)
      ∧ (∀ head xs, (noLists.run calls).1.lists head = some xs → heap.Ring head xs)
      ∧ ∀ e, (noLists.run calls).1.deleted e = true →
        heap e = some poisoned ∧ listDelete e heap = .error .outOfBounds := by
  obtain ⟨heap, hrun, hholds⟩ := NodeLists.noLists_holds.calls calls h
  refine ⟨heap, hrun, hholds.ring, fun e he => ?_⟩
  have hpoisoned := (hholds.deleted e he).1
  exact ⟨hpoisoned, listDelete_poisoned hpoisoned hholds.poison2⟩

/-- Neither on a list that changes nor on another. -/
theorem NodeLists.not_on_update {s s' : NodeLists} {e head : Nat} {xs : List Nat} (h : ¬s.On e)
    (hlists : s'.lists = Function.update s.lists head (some xs)) (hxs : e ∉ xs) : ¬s'.On e := by
  rintro ⟨head', ys, hys, hmem⟩
  rw [hlists] at hys
  by_cases hhead : head' = head
  · rw [hhead, Function.update_self, Option.some.injEq] at hys
    rw [hys] at hxs
    exact hxs hmem
  · rw [Function.update_of_ne hhead] at hys
    exact h ⟨head', ys, hys, hmem⟩

/-- Two entries go on a list, and the one in front to another list, and
back behind the other entry, which is deleted then. -/
def twoEntryCalls : List ListCall :=
  [.alloc 1 ⟨0, 0⟩, .init 1, .alloc 2 ⟨0, 0⟩, .init 2, .alloc 3 ⟨7, 7⟩, .add 3 1,
    .alloc 4 ⟨7, 7⟩, .add 4 1, .moveTail 4 2, .forEach 2 2, .moveTail 4 1, .forEach 1 3,
    .delete 3, .forEach 1 2, .empty 2]

theorem twoEntryCalls_fit : CallsFit noLists twoEntryCalls := by
  have hnone : ∀ e, ¬noLists.On e := by
    rintro e ⟨head, xs, hxs, -⟩
    cases hxs
  have hone : ∀ e, ¬(noLists.run (twoEntryCalls.take 2)).1.On e :=
    fun e => NodeLists.not_on_update (hnone e) rfl nofun
  have htwo : ∀ e, ¬(noLists.run (twoEntryCalls.take 4)).1.On e :=
    fun e => NodeLists.not_on_update (hone e) rfl nofun
  have hfour : ¬(noLists.run (twoEntryCalls.take 6)).1.On 4 :=
    NodeLists.not_on_update (htwo 4) rfl (by decide)
  exact ⟨⟨rfl, by decide, by decide, by decide⟩, ⟨rfl, rfl, hnone 1⟩,
    ⟨rfl, by decide, by decide, by decide⟩, ⟨rfl, rfl, hone 2⟩,
    ⟨rfl, by decide, by decide, by decide⟩, ⟨⟨rfl, rfl, htwo 3⟩, rfl⟩,
    ⟨rfl, by decide, by decide, by decide⟩, ⟨⟨rfl, rfl, hfour⟩, rfl⟩,
    ⟨⟨1, [4, 3], rfl, by decide⟩, rfl⟩, ⟨[4], rfl, by decide⟩, ⟨⟨2, [4], rfl, by decide⟩, rfl⟩,
    ⟨[3, 4], rfl, by decide⟩, ⟨1, [3, 4], rfl, by decide⟩, ⟨[4], rfl, by decide⟩, rfl, trivial⟩

theorem listCalls_law_two :
    ∃ heap, listCalls twoEntryCalls (fun _ => none)
        = .ok ([.nothing, .nothing, .nothing, .nothing, .nothing, .nothing, .nothing, .nothing,
          .nothing, .visited [4], .nothing, .visited [3, 4], .nothing, .visited [4], .empty true],
          heap)
      ∧ heap.Ring 1 [4] ∧ heap 3 = some poisoned := by
  obtain ⟨heap, hrun, hring, hdeleted⟩ := listCalls_law twoEntryCalls_fit
  exact ⟨heap, hrun, hring 1 [4] rfl, (hdeleted 3 rfl).1⟩

end CephInC
