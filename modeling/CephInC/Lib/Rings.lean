/-
Rings of nodes linked both ways, in a heap.

`h.Run a xs b` says that the links lead from `a` through the nodes `xs`
to `b`, and back the same way; a ring is a run from its head back to
itself, over distinct nodes (`Ring`). A run says nothing about the link
of `a` that leads back nor about the one of `b` that leads on, so runs
are cut and joined at any node (`run_append`), and a write to one link of
one node leaves alone every run that does not go over that link.

A ring has no first node: it can be seen from each of them (`Ring.rotate`).
So a node is put in behind another, and taken out, by one argument each,
in the view from that node.
-/
import Mathlib.Data.List.Basic
import Mathlib.Data.List.Nodup
import Mathlib.Logic.Function.Basic

namespace CephInC.Lib

/-- The links of a node. -/
structure Links (ι : Type) where
  prev : ι
  next : ι
  deriving DecidableEq

/-- The nodes there are, by address. -/
abbrev LinkHeap (ι : Type) := ι → Option (Links ι)

namespace LinkHeap

variable {ι : Type}

/-- The node behind `a`. -/
def next (h : LinkHeap ι) (a : ι) : Option ι := (h a).map Links.next

/-- The node before `a`. -/
def prev (h : LinkHeap ι) (a : ι) : Option ι := (h a).map Links.prev

/-- From `a` through `xs` to `b`, each link answered by the link back. -/
def Run (h : LinkHeap ι) : ι → List ι → ι → Prop
  | a, [], b => h.next a = some b ∧ h.prev b = some a
  | a, x :: xs, b => (h.next a = some x ∧ h.prev x = some a) ∧ h.Run x xs b

/-- The nodes `xs` hang on `head`, in this order. -/
structure Ring (h : LinkHeap ι) (head : ι) (xs : List ι) : Prop where
  distinct : (head :: xs).Nodup
  run : h.Run head xs head

-- =============================================================== runs

theorem run_append {h : LinkHeap ι} (xs : List ι) (y : ι) (ys : List ι) (b : ι) :
    ∀ a, h.Run a (xs ++ y :: ys) b ↔ h.Run a xs y ∧ h.Run y ys b := by
  induction xs with
  | nil => exact fun a => Iff.rfl
  | cons x xs ih =>
      intro a
      show (_ ∧ h.Run x (xs ++ y :: ys) b) ↔ (_ ∧ h.Run x xs y) ∧ h.Run y ys b
      exact (and_congr_right fun _ => ih x).trans and_assoc.symm

/-- A run goes over the links ahead of all its nodes but the last, and
over the links back of all but the first. -/
theorem Run.congr {h h' : LinkHeap ι} {xs : List ι} {b : ι} :
    ∀ {a : ι}, h.Run a xs b → (∀ c ∈ a :: xs, h'.next c = h.next c) →
      (∀ c ∈ xs ++ [b], h'.prev c = h.prev c) → h'.Run a xs b := by
  induction xs with
  | nil =>
      intro a hrun hnext hprev
      obtain ⟨hab, hba⟩ := hrun
      exact ⟨(hnext a List.mem_cons_self).trans hab, (hprev b List.mem_cons_self).trans hba⟩
  | cons x xs ih =>
      intro a hrun hnext hprev
      obtain ⟨⟨hax, hxa⟩, hrest⟩ := hrun
      refine ⟨⟨(hnext a List.mem_cons_self).trans hax,
        (hprev x List.mem_cons_self).trans hxa⟩, ih hrest ?_ ?_⟩
      · exact fun c hc => hnext c (List.mem_cons_of_mem a hc)
      · exact fun c hc => hprev c (List.mem_cons_of_mem x hc)

/-- Every node of a run is there. -/
theorem Run.isSome {h : LinkHeap ι} {xs : List ι} {b : ι} :
    ∀ {a : ι}, h.Run a xs b → ∀ c ∈ a :: xs, (h c).isSome := by
  have hthere : ∀ {a x : ι}, h.next a = some x → (h a).isSome := by
    intro a x hax
    rw [next] at hax
    obtain ⟨links, hlinks, -⟩ := Option.map_eq_some_iff.mp hax
    rw [hlinks]
    rfl
  induction xs with
  | nil =>
      intro a hrun c hc
      rw [List.mem_singleton.mp hc]
      exact hthere hrun.1
  | cons x xs ih =>
      intro a hrun c hc
      rcases List.mem_cons.mp hc with rfl | hc
      · exact hthere hrun.1.1
      · exact ih hrun.2 c hc

/-- The node ahead of the first. -/
theorem Run.next_eq {h : LinkHeap ι} {a b : ι} {xs : List ι} (hrun : h.Run a xs b) :
    h.next a = some (xs.headD b) := by
  cases xs with
  | nil => exact hrun.1
  | cons x xs => exact hrun.1.1

/-- The node before the last. -/
theorem Run.prev_eq {h : LinkHeap ι} {xs : List ι} {b : ι} :
    ∀ {a : ι}, h.Run a xs b → h.prev b = some (xs.getLastD a) := by
  induction xs with
  | nil => exact fun hrun => hrun.2
  | cons x xs ih =>
      intro a hrun
      rw [ih hrun.2, List.getLastD_cons]

-- ============================================================== rings

variable {h h' : LinkHeap ι}

theorem Ring.nodup {head : ι} {xs : List ι} (hr : h.Ring head xs) : xs.Nodup :=
  (List.nodup_cons.mp hr.distinct).2

theorem Ring.head_notMem {head : ι} {xs : List ι} (hr : h.Ring head xs) : head ∉ xs :=
  (List.nodup_cons.mp hr.distinct).1

/-- A ring holds as long as its own nodes keep their links. -/
theorem Ring.congr {head : ι} {xs : List ι} (hr : h.Ring head xs)
    (hsame : ∀ c ∈ head :: xs, h' c = h c) : h'.Ring head xs := by
  refine ⟨hr.distinct, hr.run.congr ?_ ?_⟩
  · intro c hc
    rw [next, next, hsame c hc]
  · intro c hc
    have hmem : c ∈ head :: xs := by
      rcases List.mem_append.mp hc with hc | hc
      · exact List.mem_cons_of_mem head hc
      · exact List.mem_singleton.mp hc ▸ List.mem_cons_self
    rw [prev, prev, hsame c hmem]

/-- The same nodes, seen from another one. -/
theorem Ring.rotate {head e : ι} {before after : List ι}
    (hr : h.Ring head (before ++ e :: after)) : h.Ring e (after ++ head :: before) := by
  obtain ⟨hto, hfrom⟩ := (run_append before e after head head).mp hr.run
  refine ⟨?_, (run_append after head before e e).mpr ⟨hfrom, hto⟩⟩
  have hperm : (head :: (before ++ e :: after)).Perm (e :: (after ++ head :: before)) := by
    refine (List.Perm.cons head List.perm_middle).trans ?_
    refine (List.Perm.swap e head _).trans (List.Perm.cons e ?_)
    exact (List.Perm.cons head List.perm_append_comm).trans List.perm_middle.symm
  exact hperm.nodup_iff.mp hr.distinct

-- ============================================== one link written

variable [DecidableEq ι]

/-- `a->next = b`. -/
def setNext (h : LinkHeap ι) (a b : ι) : LinkHeap ι :=
  Function.update h a ((h a).map fun links => { links with next := b })

/-- `a->prev = b`. -/
def setPrev (h : LinkHeap ι) (a b : ι) : LinkHeap ι :=
  Function.update h a ((h a).map fun links => { links with prev := b })

theorem setNext_ne {a b c : ι} (hne : c ≠ a) : h.setNext a b c = h c :=
  Function.update_of_ne hne _ _

theorem setPrev_ne {a b c : ι} (hne : c ≠ a) : h.setPrev a b c = h c :=
  Function.update_of_ne hne _ _

@[simp] theorem setNext_isSome (a b c : ι) : (h.setNext a b c).isSome = (h c).isSome := by
  by_cases hc : c = a
  · subst hc
    rw [setNext, Function.update_self, Option.isSome_map]
  · rw [setNext_ne hc]

@[simp] theorem setPrev_isSome (a b c : ι) : (h.setPrev a b c).isSome = (h c).isSome := by
  by_cases hc : c = a
  · subst hc
    rw [setPrev, Function.update_self, Option.isSome_map]
  · rw [setPrev_ne hc]

theorem next_setNext {a : ι} (b : ι) (ha : (h a).isSome) : (h.setNext a b).next a = some b := by
  obtain ⟨links, hlinks⟩ := Option.isSome_iff_exists.mp ha
  rw [next, setNext, Function.update_self, hlinks]
  rfl

theorem next_setNext_ne {a b c : ι} (hne : c ≠ a) : (h.setNext a b).next c = h.next c := by
  rw [next, setNext_ne hne, next]

@[simp] theorem prev_setNext (a b c : ι) : (h.setNext a b).prev c = h.prev c := by
  by_cases hc : c = a
  · subst hc
    rw [prev, setNext, Function.update_self, Option.map_map, prev]
    rfl
  · rw [prev, setNext_ne hc, prev]

theorem prev_setPrev {a : ι} (b : ι) (ha : (h a).isSome) : (h.setPrev a b).prev a = some b := by
  obtain ⟨links, hlinks⟩ := Option.isSome_iff_exists.mp ha
  rw [prev, setPrev, Function.update_self, hlinks]
  rfl

theorem prev_setPrev_ne {a b c : ι} (hne : c ≠ a) : (h.setPrev a b).prev c = h.prev c := by
  rw [prev, setPrev_ne hne, prev]

@[simp] theorem next_setPrev (a b c : ι) : (h.setPrev a b).next c = h.next c := by
  by_cases hc : c = a
  · subst hc
    rw [next, setPrev, Function.update_self, Option.map_map, next]
    rfl
  · rw [next, setPrev_ne hc, next]

theorem Run.setNext {a b c d : ι} {xs : List ι} (hrun : h.Run a xs b) (hc : c ∉ a :: xs) :
    (h.setNext c d).Run a xs b := by
  refine hrun.congr ?_ fun e _ => prev_setNext c d e
  intro e he
  exact next_setNext_ne fun hec => hc (hec ▸ he)

theorem Run.setPrev {a b c d : ι} {xs : List ι} (hrun : h.Run a xs b) (hc : c ∉ xs ++ [b]) :
    (h.setPrev c d).Run a xs b := by
  refine hrun.congr (fun e _ => next_setPrev c d e) ?_
  intro e he
  exact prev_setPrev_ne fun hec => hc (hec ▸ he)

-- ===================================================== in and out

/-- `prev->next = next; next->prev = prev`. -/
def join (h : LinkHeap ι) (prev next : ι) : LinkHeap ι :=
  (h.setNext prev next).setPrev next prev

/-- `prev->next = node; node->prev = prev; node->next = next;
next->prev = node`. -/
def splice (h : LinkHeap ι) (node prev next : ι) : LinkHeap ι :=
  (((h.setNext prev node).setPrev node prev).setNext node next).setPrev next node

theorem join_ne {prev next c : ι} (hprev : c ≠ prev) (hnext : c ≠ next) :
    h.join prev next c = h c := by
  rw [join, setPrev_ne hnext, setNext_ne hprev]

theorem splice_ne {node prev next c : ι} (hnode : c ≠ node) (hprev : c ≠ prev)
    (hnext : c ≠ next) : h.splice node prev next c = h c := by
  rw [splice, setPrev_ne hnext, setNext_ne hnode, setPrev_ne hnode, setNext_ne hprev]

@[simp] theorem join_isSome (prev next c : ι) :
    (h.join prev next c).isSome = (h c).isSome := by
  rw [join, setPrev_isSome, setNext_isSome]

@[simp] theorem splice_isSome (node prev next c : ι) :
    (h.splice node prev next c).isSome = (h c).isSome := by
  rw [splice, setPrev_isSome, setNext_isSome, setPrev_isSome, setNext_isSome]

/-- A node put in behind the head. -/
theorem Ring.splice {head node : ι} {xs : List ι} (hr : h.Ring head xs)
    (hnode : node ∉ head :: xs) (hthere : (h node).isSome) :
    (h.splice node head (xs.headD head)).Ring head (node :: xs) := by
  have hne : node ≠ head := fun heq => hnode (heq ▸ List.mem_cons_self)
  have hhead : (h head).isSome := hr.run.isSome head List.mem_cons_self
  refine ⟨?_, ⟨?_, ?_⟩, ?_⟩
  · refine List.nodup_cons.mpr ⟨?_, List.nodup_cons.mpr ⟨?_, hr.nodup⟩⟩
    · intro hmem
      rcases List.mem_cons.mp hmem with heq | hmem
      · exact hne heq.symm
      · exact hr.head_notMem hmem
    · exact fun hmem => hnode (List.mem_cons_of_mem head hmem)
  · rw [LinkHeap.splice, next_setPrev, next_setNext_ne hne.symm, next_setPrev,
      next_setNext node hhead]
  · have hfirst : node ≠ xs.headD head := by
      cases xs with
      | nil => exact hne
      | cons x xs => exact fun heq => hnode (heq ▸ List.mem_cons_of_mem _ List.mem_cons_self)
    rw [LinkHeap.splice, prev_setPrev_ne hfirst, prev_setNext,
      prev_setPrev head (by rw [setNext_isSome]; exact hthere)]
  · cases xs with
    | nil =>
        refine ⟨?_, ?_⟩
        · rw [LinkHeap.splice, next_setPrev,
            next_setNext _ (by rw [setPrev_isSome, setNext_isSome]; exact hthere)]
          rfl
        · refine prev_setPrev node ?_
          rw [setNext_isSome, setPrev_isSome, setNext_isSome]
          exact hhead
    | cons x xs =>
        -- the links from `x` round to the head are not touched
        obtain ⟨-, hrest⟩ := hr.run
        have hx : (h x).isSome := hr.run.isSome x (List.mem_cons_of_mem head List.mem_cons_self)
        refine ⟨⟨?_, ?_⟩, ?_⟩
        · rw [LinkHeap.splice, next_setPrev,
            next_setNext _ (by rw [setPrev_isSome, setNext_isSome]; exact hthere)]
          rfl
        · refine prev_setPrev node ?_
          rw [setNext_isSome, setPrev_isSome, setNext_isSome]
          exact hx
        · have hoff : node ∉ x :: xs := fun hmem => hnode (List.mem_cons_of_mem head hmem)
          have hback : node ∉ xs ++ [head] := by
            intro hmem
            rcases List.mem_append.mp hmem with hmem | hmem
            · exact hoff (List.mem_cons_of_mem x hmem)
            · exact hne (List.mem_singleton.mp hmem)
          have hxback : x ∉ xs ++ [head] := by
            intro hmem
            rcases List.mem_append.mp hmem with hmem | hmem
            · exact (List.nodup_cons.mp hr.nodup).1 hmem
            · exact hr.head_notMem (List.mem_singleton.mp hmem ▸ List.mem_cons_self)
          exact (((hrest.setNext hr.head_notMem).setPrev hback).setNext hoff).setPrev hxback

/-- A node put in before the head. -/
theorem Ring.splice_last {head node : ι} {xs : List ι} (hr : h.Ring head xs)
    (hnode : node ∉ head :: xs) (hthere : (h node).isSome) :
    (h.splice node (xs.getLastD head) head).Ring head (xs ++ [node]) := by
  rcases List.eq_nil_or_concat xs with rfl | ⟨ys, y, rfl⟩
  · exact hr.splice hnode hthere
  · -- seen from the last node, it goes in behind it
    rw [List.concat_eq_append] at hr hnode ⊢
    have hview : h.Ring y (head :: ys) := hr.rotate
    have hoff : node ∉ y :: head :: ys := by
      intro hmem
      refine hnode ?_
      rcases List.mem_cons.mp hmem with rfl | hmem
      · exact List.mem_cons_of_mem head (List.mem_append_right ys List.mem_cons_self)
      · rcases List.mem_cons.mp hmem with rfl | hmem
        · exact List.mem_cons_self
        · exact List.mem_cons_of_mem head (List.mem_append_left [y] hmem)
    have hin : (h.splice node y head).Ring y ([node] ++ head :: ys) :=
      hview.splice hoff hthere
    have hback : (h.splice node y head).Ring head (ys ++ y :: [node]) := hin.rotate
    rw [List.getLastD_concat, List.append_assoc]
    exact hback

/-- The node the ring is seen from is taken out. -/
theorem Ring.join {e x : ι} {xs : List ι} (hr : h.Ring e (x :: xs)) :
    (h.join (xs.getLastD x) x).Ring x xs := by
  obtain ⟨-, hrest⟩ := hr.run
  have hx : (h x).isSome := hr.run.isSome x (List.mem_cons_of_mem e List.mem_cons_self)
  refine ⟨hr.nodup, ?_⟩
  rcases List.eq_nil_or_concat xs with rfl | ⟨ys, y, rfl⟩
  · refine ⟨?_, ?_⟩
    · rw [LinkHeap.join, next_setPrev]
      exact next_setNext x hx
    · exact prev_setPrev _ (by rw [setNext_isSome]; exact hx)
  · rw [List.concat_eq_append] at hr hrest ⊢
    rw [List.getLastD_concat]
    obtain ⟨hto, -⟩ := (run_append ys y [] e x).mp hrest
    have hdist := hr.nodup
    have hmem : y ∈ ys ++ [y] := List.mem_append_right ys List.mem_cons_self
    have hy : (h y).isSome :=
      hr.run.isSome y (List.mem_cons_of_mem e (List.mem_cons_of_mem x hmem))
    have hxout : x ∉ ys ++ [y] := (List.nodup_cons.mp hdist).1
    have hyx : y ≠ x := fun heq => hxout (heq ▸ hmem)
    have hyout : y ∉ x :: ys := by
      intro hin
      rcases List.mem_cons.mp hin with heq | hin
      · exact hyx heq
      · have hsplit := List.nodup_append.mp (List.nodup_cons.mp hdist).2
        exact hsplit.2.2 y hin y List.mem_cons_self rfl
    refine (run_append ys y [] x x).mpr ⟨(hto.setNext hyout).setPrev hxout, ?_, ?_⟩
    · rw [LinkHeap.join, next_setPrev, next_setNext x hy]
    · exact prev_setPrev y (by rw [setNext_isSome]; exact hx)

/-- A node is taken out from anywhere behind the head. -/
theorem Ring.remove {head e : ι} {before after : List ι}
    (hr : h.Ring head (before ++ e :: after)) :
    (h.join (before.getLastD head) (after.headD head)).Ring head (before ++ after) := by
  have hview := hr.rotate
  cases after with
  | nil =>
      rw [List.append_nil]
      exact hview.join
  | cons x xs =>
      have hview' : h.Ring e (x :: (xs ++ head :: before)) := hview
      have hout := hview'.join
      have hlast : (xs ++ head :: before).getLastD x = before.getLastD head := by
        rw [List.getLastD_eq_getLast?, List.getLast?_append, List.getLast?_cons,
          List.getLastD_eq_getLast?]
        rfl
      rw [hlast] at hout
      exact hout.rotate

end LinkHeap

end CephInC.Lib
