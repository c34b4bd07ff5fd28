/-
What a linearized history returns.

`answers` of the list are what the history returned, in another order,
and what it has still to return (`returned_perm`). A thread is in one
call at a time, so of each thread they are in the order of its returns
(`returned_thread`), and at most one is still to come
(`Linearizes.open_once`).
-/
import CephInC.Lib.Linearize

namespace CephInC.Lib

variable {τ ι ρ : Type}

/-- The returns of a history, with who returned. -/
def CallEvent.returned : CallEvent τ ι ρ → Option (τ × ρ)
  | .call _ _ => none
  | .ret t r => some (t, r)

def CallSpan.result (o : CallSpan τ ι ρ) : τ × ρ := (o.thread, o.answer)

def CallSpan.ended (o : CallSpan τ ι ρ) : Bool := o.returned.isSome

theorem CallSpan.returned_of_open {o : CallSpan τ ι ρ} (h : (!o.ended) = true) :
    o.returned = none := by
  cases hj : o.returned with
  | none => rfl
  | some j =>
      rw [CallSpan.ended, hj] at h
      cases h

-- ============================================================== positions

/-- The returns of a history, with where they are. -/
def returnsAt (h : List (CallEvent τ ι ρ)) : List (Nat × τ × ρ) :=
  h.zipIdx.filterMap fun p => p.1.returned.map fun a => (p.2, a)

/-- The same of a list of spans. -/
def closedAt (spans : List (CallSpan τ ι ρ)) : List (Nat × τ × ρ) :=
  spans.filterMap fun o => o.returned.map fun j => (j, o.result)

section
variable {h : List (CallEvent τ ι ρ)} {spans : List (CallSpan τ ι ρ)}

theorem returnsAt_snd (h : List (CallEvent τ ι ρ)) :
    (returnsAt h).map Prod.snd = h.filterMap CallEvent.returned := by
  have hcut : ∀ p : CallEvent τ ι ρ × Nat,
      (p.1.returned.map fun a => (p.2, a)).map Prod.snd = p.1.returned := by
    intro p
    cases p.1.returned with
    | none => rfl
    | some a => rfl
  unfold returnsAt
  rw [List.map_filterMap]
  calc h.zipIdx.filterMap (fun p => (p.1.returned.map fun a => (p.2, a)).map Prod.snd)
      = h.zipIdx.filterMap (fun p => p.1.returned) := by simp only [hcut]
    _ = (h.zipIdx.map Prod.fst).filterMap CallEvent.returned := by
        rw [List.filterMap_map]
        rfl
    _ = h.filterMap CallEvent.returned := by rw [List.zipIdx_map_fst]

theorem mem_returnsAt {j : Nat} {a : τ × ρ} :
    (j, a) ∈ returnsAt h ↔ h[j]? = some (.ret a.1 a.2) := by
  unfold returnsAt
  rw [List.mem_filterMap]
  constructor
  · rintro ⟨⟨e, k⟩, hmem, heq⟩
    have hget := List.mk_mem_zipIdx_iff_getElem?.mp hmem
    cases e with
    | call t c => cases heq
    | ret t r =>
        cases heq
        exact hget
  · intro hget
    exact ⟨(.ret a.1 a.2, j), List.mk_mem_zipIdx_iff_getElem?.mpr hget, rfl⟩

theorem returnsAt_sorted (h : List (CallEvent τ ι ρ)) :
    (returnsAt h).Pairwise fun a b => a.1 < b.1 := by
  have hidx : h.zipIdx.Pairwise fun p q => p.2 < q.2 := by
    rw [← List.pairwise_map (f := Prod.snd) (R := (· < ·)), List.zipIdx_map_snd]
    exact List.pairwise_lt_range'
  refine List.pairwise_filterMap.mpr (hidx.imp fun {p q} hlt a ha b hb => ?_)
  obtain ⟨_, -, rfl⟩ := Option.map_eq_some_iff.mp ha
  obtain ⟨_, -, rfl⟩ := Option.map_eq_some_iff.mp hb
  exact hlt

theorem mem_closedAt {j : Nat} {a : τ × ρ} :
    (j, a) ∈ closedAt spans ↔ ∃ o ∈ spans, o.returned = some j ∧ o.result = a := by
  unfold closedAt
  rw [List.mem_filterMap]
  constructor
  · rintro ⟨o, ho, heq⟩
    obtain ⟨k, hk, heq⟩ := Option.map_eq_some_iff.mp heq
    cases heq
    exact ⟨o, ho, hk, rfl⟩
  · rintro ⟨o, ho, hj, rfl⟩
    exact ⟨o, ho, by rw [hj]; rfl⟩

theorem closedAt_snd (spans : List (CallSpan τ ι ρ)) :
    (closedAt spans).map Prod.snd
      = (spans.filter CallSpan.ended).map CallSpan.result := by
  induction spans with
  | nil => rfl
  | cons o spans ih =>
      cases hj : o.returned with
      | none =>
          have hended : ¬o.ended = true := by
            rw [CallSpan.ended, hj]
            exact Bool.false_ne_true
          rw [closedAt, List.filterMap_cons_none (by rw [hj]; rfl), List.filter_cons_of_neg hended]
          exact ih
      | some j =>
          have hended : o.ended = true := by
            rw [CallSpan.ended, hj]
            rfl
          rw [closedAt, List.filterMap_cons_some (by rw [hj]; rfl), List.filter_cons_of_pos hended,
            List.map_cons, List.map_cons]
          exact congrArg (o.result :: ·) ih

end

-- ============================================================= one thread

namespace Linearizes

variable {h : List (CallEvent τ ι ρ)} {spans : List (CallSpan τ ι ρ)}

/-- A call of a thread ends before its next one. -/
theorem ends_before (hl : Linearizes h spans) {o o' : CallSpan τ ι ρ} (ho : o ∈ spans)
    (ho' : o' ∈ spans) (ht : o.thread = o'.thread) (hlt : o.invoked < o'.invoked) :
    ∃ j, o.returned = some j ∧ j ≤ o'.invoked := by
  by_contra hopen
  refine hl.alone o ho o'.invoked _ hlt (fun j hj => ?_) (hl.invoked o' ho') ht.symm
  exact Nat.lt_of_not_le fun hle => hopen ⟨j, hj, hle⟩

/-- In the list the calls of a thread are in the order it made them. -/
theorem thread_order (hl : Linearizes h spans) : spans.Pairwise fun o o' =>
    o.thread = o'.thread → ∃ j, o.returned = some j ∧ j ≤ o'.invoked := by
  have honce := List.pairwise_map.mp hl.once
  refine (honce.and hl.realTime).imp_of_mem fun {o o'} ho ho' hboth ht => ?_
  obtain ⟨hne, hreal⟩ := hboth
  rcases Nat.lt_or_gt_of_ne hne with hlt | hlt
  · exact hl.ends_before ho ho' ht hlt
  · obtain ⟨j, hj, hle⟩ := hl.ends_before ho' ho ht.symm hlt
    exact absurd (hreal j hj) (Nat.not_lt_of_le hle)

/-- A thread has one answer at most that it has not returned. -/
theorem open_once (hl : Linearizes h spans) :
    ((spans.filter fun o => !o.ended).map CallSpan.thread).Nodup := by
  refine List.pairwise_map.mpr
    ((hl.thread_order.filter _).imp_of_mem fun {o o'} ho _ hclosed ht => ?_)
  obtain ⟨j, hj, -⟩ := hclosed ht
  have hopen := (List.mem_filter.mp ho).2
  rw [CallSpan.ended, hj] at hopen
  cases hopen

theorem pending_of_open (hl : Linearizes h spans) {o : CallSpan τ ι ρ} (ho : o ∈ spans)
    (hopen : o.returned = none) : Pending h o.thread o.invoked o.call :=
  ⟨hl.invoked o ho, fun k e hk => hl.alone o ho k e hk fun j hj => by
    rw [hopen] at hj
    cases hj⟩

-- ============================================================ all threads

theorem mem_positions (hl : Linearizes h spans) (p : Nat × τ × ρ) :
    p ∈ returnsAt h ↔ p ∈ closedAt spans := by
  obtain ⟨j, a⟩ := p
  rw [mem_returnsAt, mem_closedAt]
  constructor
  · intro hget
    obtain ⟨o, ho, hj⟩ := hl.complete j a.1 a.2 hget
    have hret := (hl.returned o ho j hj).2
    rw [hget] at hret
    obtain ⟨ht, hr⟩ := CallEvent.ret.inj (Option.some.inj hret)
    exact ⟨o, ho, hj, Prod.ext ht.symm hr.symm⟩
  · rintro ⟨o, ho, hj, rfl⟩
    exact (hl.returned o ho j hj).2

/-- One return is the end of one call. -/
theorem closedAt_nodup (hl : Linearizes h spans) : (closedAt spans).Nodup := by
  refine List.pairwise_filterMap.mpr
    (hl.thread_order.imp_of_mem fun {o o'} _ ho' hclosed a ha b hb => ?_)
  obtain ⟨j, hj, rfl⟩ := Option.map_eq_some_iff.mp ha
  obtain ⟨j', hj', rfl⟩ := Option.map_eq_some_iff.mp hb
  intro heq
  obtain ⟨hjj, hres⟩ := Prod.mk.inj heq
  obtain ⟨k, hk, hle⟩ := hclosed (Prod.mk.inj hres).1
  rw [hj] at hk
  cases hk
  exact absurd (hl.returned o' ho' j' hj').1 (Nat.not_lt_of_le (hjj ▸ hle))

theorem positions_perm (hl : Linearizes h spans) : (returnsAt h).Perm (closedAt spans) := by
  refine (List.perm_ext_iff_of_nodup ?_ hl.closedAt_nodup).mpr hl.mem_positions
  exact (returnsAt_sorted h).imp fun hlt heq => absurd (congrArg Prod.fst heq) (Nat.ne_of_lt hlt)

/-- What was returned is what the list has for the calls that have
ended. -/
theorem returned_closed (hl : Linearizes h spans) : (h.filterMap CallEvent.returned).Perm
    ((spans.filter CallSpan.ended).map CallSpan.result) := by
  rw [← returnsAt_snd, ← closedAt_snd]
  exact hl.positions_perm.map _

/-- Every answer of the list is returned once, or still to be. -/
theorem returned_perm (hl : Linearizes h spans) :
    (h.filterMap CallEvent.returned
      ++ (spans.filter fun o => !o.ended).map CallSpan.result).Perm
      (spans.map CallSpan.result) := by
  refine (hl.returned_closed.append_right _).trans ?_
  rw [← List.map_append]
  exact (List.filter_append_perm _ spans).map _

/-- Where only the last is still to come, what has ended comes first. -/
theorem closed_of_open {l : List (CallSpan τ ι ρ)}
    (hl : l.Pairwise fun o _ => o.ended = true) : l.filter CallSpan.ended <+: l := by
  induction l with
  | nil => exact List.nil_prefix
  | cons o l ih =>
      obtain ⟨hfirst, hrest⟩ := List.pairwise_cons.mp hl
      cases l with
      | nil =>
          by_cases hended : o.ended = true
          · rw [List.filter_cons_of_pos hended]
            exact List.prefix_rfl
          · rw [List.filter_cons_of_neg hended]
            exact List.nil_prefix
      | cons o' l =>
          rw [List.filter_cons_of_pos (hfirst o' List.mem_cons_self)]
          exact List.cons_prefix_cons.mpr ⟨rfl, ih hrest⟩

variable [DecidableEq τ]

theorem closedAt_thread_sorted (hl : Linearizes h spans) (t : τ) :
    ((closedAt spans).filter fun p => decide (p.2.1 = t)).Pairwise fun a b => a.1 < b.1 := by
  refine List.pairwise_filter.mpr (List.pairwise_filterMap.mpr
    (hl.thread_order.imp_of_mem fun {o o'} _ ho' hclosed a ha b hb hat hbt => ?_))
  obtain ⟨j, hj, rfl⟩ := Option.map_eq_some_iff.mp ha
  obtain ⟨j', hj', rfl⟩ := Option.map_eq_some_iff.mp hb
  obtain ⟨k, hk, hle⟩ := hclosed ((of_decide_eq_true hat).trans (of_decide_eq_true hbt).symm)
  rw [hj] at hk
  cases hk
  exact Nat.lt_of_le_of_lt hle (hl.returned o' ho' j' hj').1

/-- What a thread has returned is, in this order, what the list has for
it first. -/
theorem returned_thread (hl : Linearizes h spans) (t : τ) :
    ((h.filterMap CallEvent.returned).filter fun a => decide (a.1 = t))
      <+: (spans.map CallSpan.result).filter fun a => decide (a.1 = t) := by
  have hsame : ((returnsAt h).filter fun p => decide (p.2.1 = t))
      = (closedAt spans).filter fun p => decide (p.2.1 = t) := by
    exact List.Perm.eq_of_pairwise (fun a b _ _ hab hba => absurd hab (Nat.lt_asymm hba))
      ((returnsAt_sorted h).filter _) (hl.closedAt_thread_sorted t) (hl.positions_perm.filter _)
  have hleft := List.filter_map (p := fun a : τ × ρ => decide (a.1 = t)) (f := Prod.snd)
    (l := returnsAt h)
  have hright := List.filter_map (p := fun a : τ × ρ => decide (a.1 = t)) (f := Prod.snd)
    (l := closedAt spans)
  rw [← returnsAt_snd, hleft]
  have hcomp : (fun a : τ × ρ => decide (a.1 = t)) ∘ (Prod.snd : Nat × τ × ρ → τ × ρ)
      = fun p => decide (p.2.1 = t) := rfl
  rw [hcomp, hsame, ← hcomp, ← hright, closedAt_snd, List.filter_map, List.filter_map,
    List.filter_filter, List.filter_congr fun o _ => Bool.and_comm _ _, ← List.filter_filter]
  refine List.IsPrefix.map _ (closed_of_open ?_)
  refine List.pairwise_filter.mpr (hl.thread_order.imp fun {o o'} hclosed ht ht' => ?_)
  obtain ⟨j, hj, -⟩ := hclosed ((of_decide_eq_true ht).trans (of_decide_eq_true ht').symm)
  rw [CallSpan.ended, hj]
  rfl

end Linearizes

end CephInC.Lib
