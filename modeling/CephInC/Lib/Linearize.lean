/-
Threads that call an object behind one lock, and the order their calls
seem to happen in.

Any number of threads run the tasks of their calls on one shared state,
in any interleaving; `history` is what a caller sees of it, the calls
and the returns. A history is linearized by a list of calls that could
have been made one after the other: each lies between its call and its
return, and each return gives the answer the list has for it
(`Linearizes`).

If every task is `Guarded` the order in which the sections end is such a
list, and calling one after the other in that order gives these answers
and leaves the state the threads left (`linearized`). What would end the
process does so in that order too. No thread waits for a lock that
nobody holds (`some_turn`).
-/
import CephInC.Lib.Run
import CephInC.Lib.Task
import Mathlib.Data.List.Nodup
import Mathlib.Logic.Function.Basic

namespace CephInC.Lib

variable {τ ι ρ σ ε : Type}

-- ============================================================== histories

/-- What a caller sees. -/
inductive CallEvent (τ ι ρ : Type) where
  | call (thread : τ) (c : ι)
  | ret (thread : τ) (r : ρ)

def CallEvent.thread : CallEvent τ ι ρ → τ
  | .call t _ => t
  | .ret t _ => t

/-- A call with its answer, and where its ends are in a history; none for
a return that is still to come. -/
structure CallSpan (τ ι ρ : Type) where
  thread : τ
  call : ι
  answer : ρ
  invoked : Nat
  returned : Option Nat

/-- The list gives every return of the history its call, and can have
happened in its order. -/
structure Linearizes (h : List (CallEvent τ ι ρ)) (spans : List (CallSpan τ ι ρ)) : Prop where
  invoked : ∀ o ∈ spans, h[o.invoked]? = some (.call o.thread o.call)
  returned : ∀ o ∈ spans, ∀ j ∈ o.returned, o.invoked < j ∧ h[j]? = some (.ret o.thread o.answer)
  /-- A thread is in one call at a time. -/
  alone : ∀ o ∈ spans, ∀ k e, o.invoked < k → (∀ j ∈ o.returned, k < j) → h[k]? = some e →
    e.thread ≠ o.thread
  complete : ∀ j t r, h[j]? = some (.ret t r) → ∃ o ∈ spans, o.returned = some j
  once : (spans.map CallSpan.invoked).Nodup
  /-- What has returned before another is called comes before it. -/
  realTime : spans.Pairwise fun o o' => ∀ j ∈ o'.returned, o.invoked < j

theorem getElem?_snoc {α : Type} {l : List α} {a x : α} {k : Nat} :
    (l ++ [a])[k]? = some x ↔ l[k]? = some x ∨ k = l.length ∧ x = a := by
  rcases Nat.lt_trichotomy k l.length with hk | rfl | hk
  · rw [List.getElem?_append_left hk]
    constructor
    · exact .inl
    · rintro (h | ⟨rfl, -⟩)
      · exact h
      · exact absurd hk (Nat.lt_irrefl _)
  · rw [List.getElem?_append_right (Nat.le_refl _), Nat.sub_self,
      List.getElem?_eq_none (Nat.le_refl _)]
    constructor
    · intro h
      cases h
      exact .inr ⟨rfl, rfl⟩
    · rintro (h | ⟨-, rfl⟩)
      · cases h
      · rfl
  · have hlen : (l ++ [a]).length ≤ k := by
      rw [List.length_append]
      exact hk
    rw [List.getElem?_eq_none hlen, List.getElem?_eq_none (Nat.le_of_lt hk)]
    constructor
    · intro h
      cases h
    · rintro (h | ⟨rfl, -⟩)
      · cases h
      · exact absurd hk (Nat.lt_irrefl _)

theorem lt_length {α : Type} {l : List α} {a : α} {k : Nat} (h : l[k]? = some a) :
    k < l.length :=
  (List.getElem?_eq_some_iff.mp h).1

/-- The thread is in the call it made at `i`. -/
def Pending (h : List (CallEvent τ ι ρ)) (t : τ) (i : Nat) (c : ι) : Prop :=
  h[i]? = some (.call t c) ∧ ∀ k e, i < k → h[k]? = some e → e.thread ≠ t

theorem Pending.snoc {h : List (CallEvent τ ι ρ)} {t : τ} {i : Nat} {c : ι}
    (hp : Pending h t i c) {e : CallEvent τ ι ρ} (he : e.thread ≠ t) :
    Pending (h ++ [e]) t i c := by
  refine ⟨getElem?_snoc.mpr (.inl hp.1), fun k e' hk hget => ?_⟩
  rcases getElem?_snoc.mp hget with hget | ⟨-, rfl⟩
  · exact hp.2 k e' hk hget
  · exact he

theorem Pending.ne {h : List (CallEvent τ ι ρ)} {t t' : τ} {i i' : Nat} {c c' : ι}
    (hp : Pending h t i c) (hp' : Pending h t' i' c') (ht : t ≠ t') : i ≠ i' := by
  rintro rfl
  have heq := Option.some.inj (hp.1.symm.trans hp'.1)
  cases heq
  exact ht rfl

namespace Linearizes

variable {h : List (CallEvent τ ι ρ)} {spans : List (CallSpan τ ι ρ)} {t : τ} {i : Nat} {c : ι}

theorem nil : Linearizes ([] : List (CallEvent τ ι ρ)) [] where
  invoked _ ho := by cases ho
  returned _ ho := by cases ho
  alone _ ho := by cases ho
  complete _ _ _ h := by cases h
  once := List.nodup_nil
  realTime := .nil

/-- A call by a thread that is in none. -/
theorem call (hl : Linearizes h spans)
    (hidle : ∀ o ∈ spans, o.thread = t → o.returned ≠ none) (c : ι) :
    Linearizes (h ++ [.call t c]) spans where
  invoked o ho := getElem?_snoc.mpr (.inl (hl.invoked o ho))
  returned o ho j hj := ⟨(hl.returned o ho j hj).1,
    getElem?_snoc.mpr (.inl (hl.returned o ho j hj).2)⟩
  alone o ho k e hk hopen hget := by
    rcases getElem?_snoc.mp hget with hget | ⟨rfl, rfl⟩
    · exact hl.alone o ho k e hk hopen hget
    · intro heq
      obtain ⟨j, hj⟩ := Option.ne_none_iff_exists'.mp (hidle o ho heq.symm)
      have hlt := lt_length (hl.returned o ho j hj).2
      exact absurd (hopen j hj) (Nat.lt_asymm hlt)
  complete j t' r hget := by
    rcases getElem?_snoc.mp hget with hget | ⟨-, heq⟩
    · exact hl.complete j t' r hget
    · cases heq
  once := hl.once
  realTime := hl.realTime

theorem pending_call (h : List (CallEvent τ ι ρ)) (t : τ) (c : ι) :
    Pending (h ++ [.call t c]) t h.length c := by
  refine ⟨getElem?_snoc.mpr (.inr ⟨rfl, rfl⟩), fun k e hk hget => ?_⟩
  have hlt := lt_length hget
  rw [List.length_append, List.length_singleton] at hlt
  exact absurd hlt (by omega)

/-- A call that is under way comes last of all so far. -/
theorem point (hl : Linearizes h spans) (hp : Pending h t i c)
    (hnew : ∀ o ∈ spans, o.invoked ≠ i) (r : ρ) :
    Linearizes h (spans ++ [⟨t, c, r, i, none⟩]) where
  invoked := List.forall_mem_append.mpr ⟨hl.invoked, List.forall_mem_singleton.mpr hp.1⟩
  returned := List.forall_mem_append.mpr ⟨hl.returned, List.forall_mem_singleton.mpr
    fun j hj => by cases hj⟩
  alone := List.forall_mem_append.mpr ⟨hl.alone, List.forall_mem_singleton.mpr
    fun k e hk _ => hp.2 k e hk⟩
  complete j t' r' hget := by
    obtain ⟨o, ho, hj⟩ := hl.complete j t' r' hget
    exact ⟨o, List.mem_append_left _ ho, hj⟩
  once := by
    rw [List.map_append]
    refine hl.once.append (List.nodup_singleton i) ?_
    refine List.disjoint_singleton.mpr fun hmem => ?_
    obtain ⟨o, ho, heq⟩ := List.mem_map.mp hmem
    exact hnew o ho heq
  realTime := List.pairwise_append.mpr ⟨hl.realTime, List.pairwise_singleton ..,
    fun o _ o' ho' j hj => by
      rw [List.mem_singleton.mp ho'] at hj
      cases hj⟩

end Linearizes

/-- The span of the call made at `i`, which returns at `n`. -/
def CallSpan.close (i n : Nat) (o : CallSpan τ ι ρ) : CallSpan τ ι ρ :=
  if o.invoked = i then { o with returned := some n } else o

theorem CallSpan.close_at (t : τ) (c : ι) (r : ρ) (i n : Nat) (j : Option Nat) :
    CallSpan.close i n ⟨t, c, r, i, j⟩ = ⟨t, c, r, i, some n⟩ := if_pos rfl

theorem CallSpan.close_of_ne {o : CallSpan τ ι ρ} {i n : Nat} (h : o.invoked ≠ i) :
    o.close i n = o := if_neg h

section
variable (i n : Nat) (o : CallSpan τ ι ρ)

@[simp] theorem CallSpan.close_invoked : (o.close i n).invoked = o.invoked := by
  unfold CallSpan.close
  split <;> rfl

@[simp] theorem CallSpan.close_thread : (o.close i n).thread = o.thread := by
  unfold CallSpan.close
  split <;> rfl

@[simp] theorem CallSpan.close_call : (o.close i n).call = o.call := by
  unfold CallSpan.close
  split <;> rfl

@[simp] theorem CallSpan.close_answer : (o.close i n).answer = o.answer := by
  unfold CallSpan.close
  split <;> rfl

end

namespace Linearizes

variable {h : List (CallEvent τ ι ρ)} {spans : List (CallSpan τ ι ρ)} {t : τ} {i : Nat} {c : ι}
  {r : ρ}

/-- A thread has one call under way. -/
theorem open_unique (hl : Linearizes h spans) {o o' : CallSpan τ ι ρ} (ho : o ∈ spans)
    (ho' : o' ∈ spans) (ht : o.thread = o'.thread) (hr : o.returned = none)
    (hr' : o'.returned = none) : o.invoked = o'.invoked := by
  rcases Nat.lt_trichotomy o.invoked o'.invoked with hlt | heq | hlt
  · exact absurd ht.symm (hl.alone o ho _ _ hlt (by rw [hr]; exact fun j hj => by cases hj)
      (hl.invoked o' ho'))
  · exact heq
  · exact absurd ht (hl.alone o' ho' _ _ hlt (by rw [hr']; exact fun j hj => by cases hj)
      (hl.invoked o ho))

/-- The return of a call that is in the list. -/
theorem ret (hl : Linearizes h spans) (hs : ⟨t, c, r, i, none⟩ ∈ spans) :
    Linearizes (h ++ [.ret t r]) (spans.map (CallSpan.close i h.length)) := by
  have hthis : ∀ o ∈ spans, o.invoked = i → o = ⟨t, c, r, i, none⟩ := fun o ho hi =>
    List.inj_on_of_nodup_map hl.once ho hs hi
  refine ⟨?_, ?_, ?_, ?_, ?_, ?_⟩
  · refine List.forall_mem_map.mpr fun o ho => ?_
    rw [CallSpan.close_invoked, CallSpan.close_thread, CallSpan.close_call]
    exact getElem?_snoc.mpr (.inl (hl.invoked o ho))
  · refine List.forall_mem_map.mpr fun o ho j hj => ?_
    rw [CallSpan.close_invoked, CallSpan.close_thread, CallSpan.close_answer]
    by_cases hi : o.invoked = i
    · have hlt := lt_length (hl.invoked o ho)
      rw [CallSpan.close, if_pos hi] at hj
      cases hj
      rw [hthis o ho hi] at hlt ⊢
      exact ⟨hlt, getElem?_snoc.mpr (.inr ⟨rfl, rfl⟩)⟩
    · rw [CallSpan.close_of_ne hi] at hj
      exact ⟨(hl.returned o ho j hj).1, getElem?_snoc.mpr (.inl (hl.returned o ho j hj).2)⟩
  · refine List.forall_mem_map.mpr fun o ho k e hk hopen hget => ?_
    rw [CallSpan.close_invoked] at hk
    rw [CallSpan.close_thread]
    by_cases hi : o.invoked = i
    · -- nothing of the thread before its return
      rw [CallSpan.close, if_pos hi] at hopen
      have hlt : k < h.length := hopen _ rfl
      rcases getElem?_snoc.mp hget with hget | ⟨rfl, -⟩
      · refine hl.alone o ho k e hk ?_ hget
        rw [hthis o ho hi]
        exact fun j hj => by cases hj
      · exact absurd hlt (Nat.lt_irrefl _)
    · rw [CallSpan.close_of_ne hi] at hopen
      rcases getElem?_snoc.mp hget with hget | ⟨rfl, rfl⟩
      · exact hl.alone o ho k e hk hopen hget
      · intro ht
        cases hret : o.returned with
        | none => exact hi (hl.open_unique ho hs ht.symm hret rfl)
        | some j =>
            have hlt := lt_length (hl.returned o ho j hret).2
            exact absurd (hopen j hret) (Nat.lt_asymm hlt)
  · intro j t' r' hget
    rcases getElem?_snoc.mp hget with hget | ⟨rfl, heq⟩
    · obtain ⟨o, ho, hj⟩ := hl.complete j t' r' hget
      refine ⟨o.close i h.length, List.mem_map_of_mem ho, ?_⟩
      rw [CallSpan.close_of_ne ?_]
      · exact hj
      · intro hi
        rw [hthis o ho hi] at hj
        cases hj
    · exact ⟨_, List.mem_map_of_mem hs, by rw [CallSpan.close_at]⟩
  · rw [List.map_map]
    have hsame : CallSpan.invoked ∘ CallSpan.close i h.length
        = (CallSpan.invoked : CallSpan τ ι ρ → Nat) :=
      funext fun o => CallSpan.close_invoked i h.length o
    rw [hsame]
    exact hl.once
  · refine List.pairwise_map.mpr (hl.realTime.imp_of_mem fun {o o'} ho ho' hlt j hj => ?_)
    rw [CallSpan.close_invoked]
    by_cases hi : o'.invoked = i
    · rw [CallSpan.close, if_pos hi] at hj
      cases hj
      exact lt_length (hl.invoked o ho)
    · rw [CallSpan.close_of_ne hi] at hj
      exact hlt j hj

end Linearizes

/-- The calls of a list, one after the other. -/
def Task.runs (L : Lock σ ε) (code : ι → Task σ ε ρ) : List ι → σ → Except ε (List ρ × σ)
  | [], s => .ok ([], s)
  | c :: calls, s =>
      ((code c).run L s).bind fun r =>
        (runs L code calls r.2).bind fun rs => .ok (r.1 :: rs.1, rs.2)

theorem Task.runs_append {L : Lock σ ε} {code : ι → Task σ ε ρ} {calls : List ι} (c : ι) :
    ∀ {s s' : σ} {rs : List ρ}, Task.runs L code calls s = .ok (rs, s') →
      Task.runs L code (calls ++ [c]) s
        = ((code c).run L s').bind fun r => .ok (rs ++ [r.1], r.2) := by
  induction calls with
  | nil =>
      intro s s' rs h
      cases h
      rfl
  | cons c' calls ih =>
      intro s s' rs h
      unfold Task.runs at h
      rw [List.cons_append, Task.runs]
      cases hc : (code c').run L s with
      | error e =>
          rw [hc] at h
          cases h
      | ok r =>
          rw [hc] at h
          cases hcalls : Task.runs L code calls r.2 with
          | error e =>
              simp only [Except.bind, hcalls] at h
              cases h
          | ok rest =>
              simp only [Except.bind, hcalls] at h
              cases h
              show (Task.runs L code (calls ++ [c]) r.2).bind _ = _
              rw [ih hcalls]
              cases (code c).run L rest.2 with
              | error e => rfl
              | ok last => rfl

-- ================================================================ threads

structure Threads (τ ι ρ σ ε : Type) where
  object : σ
  running : τ → Option (Task σ ε ρ)
  history : List (CallEvent τ ι ρ)

inductive ThreadAct (τ ι : Type) where
  | call (thread : τ) (c : ι)
  | turn (thread : τ)
  | ret (thread : τ)

variable [DecidableEq τ]

/-- A step of one thread; none where it has to wait, and none where the
process ends. -/
def Threads.step (L : Lock σ ε) (code : ι → Task σ ε ρ) (m : Threads τ ι ρ σ ε) :
    ThreadAct τ ι → Option (Threads τ ι ρ σ ε)
  | .call t c =>
      match m.running t with
      | none => some { m with
          running := Function.update m.running t (some (code c))
          history := m.history ++ [.call t c] }
      | some _ => none
  | .turn t =>
      match (m.running t).bind fun task => task.turn L m.object with
      | some (.ok (task, object)) =>
          some { m with object, running := Function.update m.running t (some task) }
      | _ => none
  | .ret t =>
      match m.running t with
      | some (.done r) => some { m with
          running := Function.update m.running t none
          history := m.history ++ [.ret t r] }
      | _ => none

/-- No thread is in a call, and the lock is free. -/
def Threads.Starts (L : Lock σ ε) (s : σ) (m : Threads τ ι ρ σ ε) : Prop :=
  m = ⟨s, fun _ => none, []⟩ ∧ L.free s = true

def threads (L : Lock σ ε) (code : ι → Task σ ε ρ) (s : σ) :
    System (Threads τ ι ρ σ ε) (ThreadAct τ ι) where
  init := Threads.Starts L s
  step := Threads.step L code

/-- What a step can be. -/
inductive Threads.Did (L : Lock σ ε) (code : ι → Task σ ε ρ) (m : Threads τ ι ρ σ ε) :
    ThreadAct τ ι → Threads τ ι ρ σ ε → Prop
  | call {t : τ} {c : ι} (ht : m.running t = none) :
      Did L code m (.call t c) { m with
        running := Function.update m.running t (some (code c))
        history := m.history ++ [.call t c] }
  | lock {t : τ} {next : Task σ ε ρ} {object : σ} (ht : m.running t = some (.lock next))
      (hfree : L.free m.object = true) (htake : L.take m.object = .ok object) :
      Did L code m (.turn t) { m with object, running := Function.update m.running t (some next) }
  | access {t : τ} {f : σ → Except ε σ} {next : σ → Task σ ε ρ} {object : σ}
      (ht : m.running t = some (.access f next)) (hf : f m.object = .ok object) :
      Did L code m (.turn t)
        { m with object, running := Function.update m.running t (some (next m.object)) }
  | unlock {t : τ} {next : Task σ ε ρ} {object : σ} (ht : m.running t = some (.unlock next))
      (hgive : L.give m.object = .ok object) :
      Did L code m (.turn t) { m with object, running := Function.update m.running t (some next) }
  | ret {t : τ} {r : ρ} (ht : m.running t = some (.done r)) :
      Did L code m (.ret t) { m with
        running := Function.update m.running t none
        history := m.history ++ [.ret t r] }

theorem Threads.did {L : Lock σ ε} {code : ι → Task σ ε ρ} {m m' : Threads τ ι ρ σ ε}
    {act : ThreadAct τ ι} (h : m.step L code act = some m') : m.Did L code act m' := by
  cases act with
  | call t c =>
      unfold Threads.step at h
      cases ht : m.running t with
      | none =>
          simp only [ht, Option.some.injEq] at h
          subst h
          exact .call ht
      | some task =>
          simp only [ht] at h
          cases h
  | turn t =>
      unfold Threads.step at h
      cases ht : m.running t with
      | none =>
          simp only [ht, Option.bind_none] at h
          cases h
      | some task =>
          simp only [ht, Option.bind_some] at h
          cases task with
          | done r => cases h
          | fail e => cases h
          | lock next =>
              by_cases hfree : L.free m.object = true
              · obtain ⟨object, htake, -⟩ := L.take_free _ hfree
                simp only [Task.turn, if_pos hfree, htake, Except.map, Option.some.injEq] at h
                subst h
                exact .lock ht hfree htake
              · simp only [Task.turn, if_neg hfree] at h
                cases h
          | access f next =>
              cases hf : f m.object with
              | error e =>
                  simp only [Task.turn, hf, Except.map] at h
                  cases h
              | ok object =>
                  simp only [Task.turn, hf, Except.map, Option.some.injEq] at h
                  subst h
                  exact .access ht hf
          | unlock next =>
              cases hgive : L.give m.object with
              | error e =>
                  simp only [Task.turn, hgive, Except.map] at h
                  cases h
              | ok object =>
                  simp only [Task.turn, hgive, Except.map, Option.some.injEq] at h
                  subst h
                  exact .unlock ht hgive
  | ret t =>
      unfold Threads.step at h
      cases ht : m.running t with
      | none =>
          simp only [ht] at h
          cases h
      | some task =>
          cases task with
          | done r =>
              simp only [ht, Option.some.injEq] at h
              subst h
              exact .ret ht
          | fail e =>
              simp only [ht] at h
              cases h
          | lock next =>
              simp only [ht] at h
              cases h
          | access f next =>
              simp only [ht] at h
              cases h
          | unlock next =>
              simp only [ht] at h
              cases h

-- ============================================================ the invariant

/-- Where a thread stands: in no call, before the section of one, in it,
or after it. `spans` are the calls whose sections have ended, `last` is
what they left, and `holder` is who is inside. -/
inductive Place (L : Lock σ ε) (lose : Prop) (code : ι → Task σ ε ρ)
    (h : List (CallEvent τ ι ρ)) (object last : σ) (spans : List (CallSpan τ ι ρ))
    (holder : Option τ) (t : τ) : Option (Task σ ε ρ) → Prop
  | idle (ht : holder ≠ some t) (hs : ∀ o ∈ spans, o.thread = t → o.returned ≠ none) :
      Place L lose code h object last spans holder t none
  | before {task : Task σ ε ρ} {i : Nat} {c : ι} (hp : Pending h t i c) (ht : holder ≠ some t)
      (hnew : ∀ o ∈ spans, o.invoked ≠ i) (hc : task = code c) :
      Place L lose code h object last spans holder t (some task)
  | inside {task : Task σ ε ρ} {i : Nat} {c : ι} (hp : Pending h t i c) (ht : holder = some t)
      (hnew : ∀ o ∈ spans, o.invoked ≠ i) (hin : task.Inside L lose) (hfree : L.free last = true)
      (hrun : task.run L object = (code c).run L last) :
      Place L lose code h object last spans holder t (some task)
  | after {r : ρ} {i : Nat} {c : ι} (hp : Pending h t i c) (ht : holder ≠ some t)
      (hs : ⟨t, c, r, i, none⟩ ∈ spans) :
      Place L lose code h object last spans holder t (some (.done r))

/-- The calls whose sections have ended, in that order, are a run of
their own, which ends in `last`. -/
structure Ordered (L : Lock σ ε) (lose : Prop) (code : ι → Task σ ε ρ) (s : σ)
    (m : Threads τ ι ρ σ ε) (spans : List (CallSpan τ ι ρ)) (last : σ) (holder : Option τ) :
    Prop where
  lin : Linearizes m.history spans
  legal : Task.runs L code (spans.map CallSpan.call) s = .ok (spans.map CallSpan.answer, last)
  free : holder = none → m.object = last ∧ (lose ∨ L.free m.object = true)
  held : holder ≠ none → L.free m.object = false
  place : ∀ t, Place L lose code m.history m.object last spans holder t (m.running t)

/-- The next thing the thread does ends the process. -/
def Threads.Fails (L : Lock σ ε) (m : Threads τ ι ρ σ ε) (t : τ) (e : ε) : Prop :=
  ∃ task, m.running t = some task ∧ task.turn L m.object = some (.error e)

/-- A place for each thread, after one of them moved. -/
theorem Place.update {L : Lock σ ε} {lose : Prop} {code : ι → Task σ ε ρ}
    {h h' : List (CallEvent τ ι ρ)} {object object' last last' : σ}
    {spans spans' : List (CallSpan τ ι ρ)} {holder holder' : Option τ}
    {running : τ → Option (Task σ ε ρ)} {t : τ} {x : Option (Task σ ε ρ)}
    (hall : ∀ t', Place L lose code h object last spans holder t' (running t'))
    (hthis : Place L lose code h' object' last' spans' holder' t x)
    (hothers : ∀ t' x', t' ≠ t → Place L lose code h object last spans holder t' x' →
      Place L lose code h' object' last' spans' holder' t' x') (t' : τ) :
    Place L lose code h' object' last' spans' holder' t' (Function.update running t x t') := by
  by_cases heq : t' = t
  · rw [heq, Function.update_self]
    exact hthis
  · rw [Function.update_of_ne heq]
    exact hothers t' _ heq (hall t')

namespace Ordered

variable {L : Lock σ ε} {lose : Prop} {code : ι → Task σ ε ρ} {s : σ} {m : Threads τ ι ρ σ ε}
  {spans : List (CallSpan τ ι ρ)} {last : σ} {holder : Option τ} {t : τ}

omit [DecidableEq τ] in
theorem start (hfree : L.free s = true) :
    Ordered L lose code s (⟨s, fun _ => none, []⟩ : Threads τ ι ρ σ ε) [] s none where
  lin := .nil
  legal := rfl
  free _ := ⟨rfl, .inr hfree⟩
  held h := absurd rfl h
  place _ := .idle (fun h => by cases h) fun _ ho => by cases ho

omit [DecidableEq τ] in
/-- While a thread is before its section or in it, its call is the last
event it shows. -/
theorem after_snoc {h : List (CallEvent τ ι ρ)} {e : CallEvent τ ι ρ} {object : σ}
    {x : Option (Task σ ε ρ)} (he : e.thread ≠ t)
    (hplace : Place L lose code h object last spans holder t x) :
    Place L lose code (h ++ [e]) object last spans holder t x := by
  cases hplace with
  | idle ht hs => exact .idle ht hs
  | before hp ht hnew hc => exact .before (hp.snoc he) ht hnew hc
  | inside hp ht hnew hin hfree hrun => exact .inside (hp.snoc he) ht hnew hin hfree hrun
  | after hp ht hs => exact .after (hp.snoc he) ht hs

theorem call (hm : Ordered L lose code s m spans last holder) (ht : m.running t = none) (c : ι) :
    Ordered L lose code s { m with
      running := Function.update m.running t (some (code c))
      history := m.history ++ [.call t c] } spans last holder := by
  have hplace := hm.place t
  rw [ht] at hplace
  cases hplace with
  | idle hout hs =>
      refine ⟨hm.lin.call hs c, hm.legal, hm.free, hm.held, ?_⟩
      refine Place.update hm.place ?_ fun t' x hne => after_snoc (Ne.symm hne)
      refine .before (Linearizes.pending_call ..) hout (fun o ho => ?_) rfl
      exact Nat.ne_of_lt (lt_length (hm.lin.invoked o ho))

/-- Nobody is inside when a thread takes the lock, so what it finds is
what the ended calls left. -/
theorem lock (hm : Ordered L lose code s m spans last holder) {next : Task σ ε ρ} {object : σ}
    (ht : m.running t = some (.lock next)) (hfree : L.free m.object = true)
    (htake : L.take m.object = .ok object) (hheld : L.free object = false)
    (hcode : ∀ c, (code c).Guarded L lose) :
    Ordered L lose code s { m with object, running := Function.update m.running t (some next) }
      spans last (some t) := by
  have hnone : holder = none := by
    by_contra h
    rw [hm.held h] at hfree
    cases hfree
  subst hnone
  obtain ⟨hlast, -⟩ := hm.free rfl
  refine ⟨hm.lin, hm.legal, nofun, fun _ => hheld, ?_⟩
  have hplace := hm.place t
  rw [ht] at hplace
  refine Place.update hm.place ?_ fun t' x hne hother => ?_
  · cases hplace with
    | before hp _ hnew hc =>
        have hguarded : Task.Guarded L lose (.lock next) := by
          rw [hc]
          exact hcode _
        cases hguarded with
        | lock hin =>
            refine .inside hp rfl hnew hin ?_ ?_
            · rw [← hlast]
              exact hfree
            · rw [← hc, Task.run, ← hlast, htake]
              rfl
    | inside _ h => cases h
  · have hout : some t ≠ some t' := fun h => hne (Option.some.inj h).symm
    cases hother with
    | idle _ hs => exact .idle hout hs
    | before hp _ hnew hc => exact .before hp hout hnew hc
    | inside _ h => cases h
    | after hp _ hs => exact .after hp hout hs

omit [DecidableEq τ] in
/-- Another thread's accesses are nothing to a thread that is not inside. -/
theorem not_inside {h : List (CallEvent τ ι ρ)} {object object' : σ} {t' : τ}
    {x : Option (Task σ ε ρ)} (hne : t' ≠ t)
    (hplace : Place L lose code h object last spans (some t) t' x) :
    Place L lose code h object' last spans (some t) t' x := by
  cases hplace with
  | idle ht hs => exact .idle ht hs
  | before hp ht hnew hc => exact .before hp ht hnew hc
  | inside _ ht => exact absurd (Option.some.inj ht).symm hne
  | after hp ht hs => exact .after hp ht hs

/-- An access by the thread that is inside. -/
theorem access (hm : Ordered L lose code s m spans last holder) {f : σ → Except ε σ}
    {next : σ → Task σ ε ρ} {object : σ} (ht : m.running t = some (.access f next))
    (hf : f m.object = .ok object) (hcode : ∀ c, (code c).Guarded L lose) :
    Ordered L lose code s
      { m with object, running := Function.update m.running t (some (next m.object)) } spans last
      holder := by
  have hplace := hm.place t
  rw [ht] at hplace
  cases hplace with
  | before _ _ _ hc =>
      have hguarded : Task.Guarded L lose (.access f next) := by
        rw [hc]
        exact hcode _
      cases hguarded
  | inside hp hin hnew hinside hentered hrun =>
      subst hin
      cases hinside with
      | access hkeeps hnext =>
          have hheld := hm.held (Option.some_ne_none t)
          refine ⟨hm.lin, hm.legal, nofun, fun _ => hkeeps _ _ hheld hf, ?_⟩
          refine Place.update hm.place ?_ fun t' x hne => not_inside hne
          refine .inside hp rfl hnew (hnext _) hentered ?_
          rw [← hrun, Task.run, hf]
          rfl

omit [DecidableEq τ] in
/-- Who is about to give the lock back has it. -/
theorem held_of_unlock (hm : Ordered L lose code s m spans last holder) {next : Task σ ε ρ}
    (ht : m.running t = some (.unlock next)) (hcode : ∀ c, (code c).Guarded L lose) :
    L.free m.object = false := by
  have hplace := hm.place t
  rw [ht] at hplace
  cases hplace with
  | before _ _ _ hc =>
      have hguarded : Task.Guarded L lose (.unlock next) := by
        rw [hc]
        exact hcode _
      cases hguarded
  | inside _ hin _ _ _ _ => exact hm.held (by rw [hin]; exact Option.some_ne_none t)

omit [DecidableEq τ] in
/-- What the end of a section is to the other threads. -/
theorem after_point {h : List (CallEvent τ ι ρ)} {object object' last' : σ} {t' : τ} {i : Nat}
    {c : ι} {r : ρ} {x : Option (Task σ ε ρ)} (hp : Pending h t i c) (hne : t' ≠ t)
    (hplace : Place L lose code h object last spans (some t) t' x) :
    Place L lose code h object' last' (spans ++ [⟨t, c, r, i, none⟩]) none t' x := by
  have hout : (none : Option τ) ≠ some t' := nofun
  have hmore : ∀ {P : CallSpan τ ι ρ → Prop}, (∀ o ∈ spans, P o) → P ⟨t, c, r, i, none⟩ →
      ∀ o ∈ spans ++ [⟨t, c, r, i, none⟩], P o := fun hs ho =>
    List.forall_mem_append.mpr ⟨hs, List.forall_mem_singleton.mpr ho⟩
  cases hplace with
  | idle _ hs => exact .idle hout (hmore hs fun h => absurd h.symm hne)
  | before hp' _ hnew hc => exact .before hp' hout (hmore hnew (hp.ne hp' (Ne.symm hne))) hc
  | inside _ h => exact absurd (Option.some.inj h).symm hne
  | after hp' _ hs => exact .after hp' hout (List.mem_append_left _ hs)

omit [DecidableEq τ] in
/-- The end of a section puts the call behind those before it. -/
theorem legal_point (hm : Ordered L lose code s m spans last holder) {c : ι} {r : ρ} {i : Nat}
    {object : σ} (hends : (code c).run L last = .ok (r, object)) :
    Task.runs L code ((spans ++ [(⟨t, c, r, i, none⟩ : CallSpan τ ι ρ)]).map CallSpan.call) s
      = .ok ((spans ++ [(⟨t, c, r, i, none⟩ : CallSpan τ ι ρ)]).map CallSpan.answer, object) := by
  rw [List.map_append, List.map_append]
  show Task.runs L code (spans.map CallSpan.call ++ [c]) s = _
  rw [Task.runs_append c hm.legal, hends]
  rfl

theorem unlock (hm : Ordered L lose code s m spans last holder) {next : Task σ ε ρ} {object : σ}
    (ht : m.running t = some (.unlock next)) (hgive : L.give m.object = .ok object)
    (hfree : L.free object = true) (hcode : ∀ c, (code c).Guarded L lose) :
    ∃ o : CallSpan τ ι ρ, Ordered L lose code s
      { m with object, running := Function.update m.running t (some next) } (spans ++ [o]) object
      none := by
  have hplace := hm.place t
  rw [ht] at hplace
  cases hplace with
  | before _ _ _ hc =>
      have hguarded : Task.Guarded L lose (.unlock next) := by
        rw [hc]
        exact hcode _
      cases hguarded
  | @inside _ i c hp hin hnew hinside _ hrun =>
      subst hin
      cases hinside with
      | unlock r =>
          have hends : (code c).run L last = .ok (r, object) := by
            rw [← hrun, Task.run, hgive]
            rfl
          refine ⟨⟨t, c, r, i, none⟩, hm.lin.point hp hnew r, hm.legal_point hends,
            fun _ => ⟨rfl, .inr hfree⟩, fun h => absurd rfl h, ?_⟩
          refine Place.update hm.place ?_ fun t' x hne => after_point hp hne
          exact .after hp nofun (List.mem_append_right _ List.mem_cons_self)

omit [DecidableEq τ] in
/-- So does the end of a section that keeps the lock. -/
theorem settle (hm : Ordered L lose code s m spans last holder) {r : ρ}
    (ht : m.running t = some (.done r)) (hcode : ∀ c, (code c).Guarded L lose) :
    ∃ spans' last' holder' i c, Ordered L lose code s m spans' last' holder'
      ∧ Pending m.history t i c ∧ holder' ≠ some t ∧ ⟨t, c, r, i, none⟩ ∈ spans' := by
  have hplace := hm.place t
  rw [ht] at hplace
  cases hplace with
  | before _ _ _ hc =>
      have hguarded : Task.Guarded L lose (.done r) := by
        rw [hc]
        exact hcode _
      cases hguarded
  | @inside _ i c hp hin hnew hinside _ hrun =>
      subst hin
      cases hinside with
      | lost hlose =>
          have hends : (code c).run L last = .ok (r, m.object) := hrun.symm
          have hmem : (⟨t, c, r, i, none⟩ : CallSpan τ ι ρ) ∈ spans ++ [⟨t, c, r, i, none⟩] :=
            List.mem_append_right _ List.mem_cons_self
          refine ⟨_, m.object, none, i, c, ⟨hm.lin.point hp hnew r, hm.legal_point hends,
            fun _ => ⟨rfl, .inl hlose⟩, fun h => absurd rfl h, fun t' => ?_⟩, hp, nofun, hmem⟩
          by_cases hne : t' = t
          · rw [hne, ht]
            exact .after hp nofun hmem
          · exact after_point hp hne (hm.place t')
  | after hp hout hs => exact ⟨_, _, _, _, _, hm, hp, hout, hs⟩

theorem ret (hm : Ordered L lose code s m spans last holder) {r : ρ} {i : Nat} {c : ι}
    (hp : Pending m.history t i c) (hout : holder ≠ some t)
    (hs : ⟨t, c, r, i, none⟩ ∈ spans) :
    Ordered L lose code s { m with
      running := Function.update m.running t none
      history := m.history ++ [.ret t r] } (spans.map (CallSpan.close i m.history.length)) last
      holder := by
  refine ⟨hm.lin.ret hs, ?_, hm.free, hm.held, ?_⟩
  · have hcalls : CallSpan.call ∘ CallSpan.close i m.history.length
        = (CallSpan.call : CallSpan τ ι ρ → ι) := funext fun o => CallSpan.close_call ..
    have hanswers : CallSpan.answer ∘ CallSpan.close i m.history.length
        = (CallSpan.answer : CallSpan τ ι ρ → ρ) := funext fun o => CallSpan.close_answer ..
    rw [List.map_map, List.map_map, hcalls, hanswers]
    exact hm.legal
  · refine Place.update hm.place ?_ fun t' x hne hother => ?_
    · refine .idle hout (List.forall_mem_map.mpr fun o ho hthread hnone => ?_)
      rw [CallSpan.close_thread] at hthread
      by_cases hi : o.invoked = i
      · rw [CallSpan.close, if_pos hi] at hnone
        cases hnone
      · rw [CallSpan.close_of_ne hi] at hnone
        exact hi (hm.lin.open_unique ho hs hthread hnone rfl)
    · refine after_snoc (Ne.symm hne) ?_
      have hsame : ∀ {j : Nat}, (∀ o ∈ spans, o.invoked ≠ j) →
          ∀ o ∈ spans.map (CallSpan.close i m.history.length), o.invoked ≠ j := fun h =>
        List.forall_mem_map.mpr fun o ho => by
          rw [CallSpan.close_invoked]
          exact h o ho
      cases hother with
      | idle ht' hs' =>
          refine .idle ht' (List.forall_mem_map.mpr fun o ho hthread => ?_)
          rw [CallSpan.close_thread] at hthread
          have hi : o.invoked ≠ i := fun hi => by
            have hcall := hm.lin.invoked o ho
            rw [hi, hp.1] at hcall
            cases hcall
            exact hne hthread.symm
          rw [CallSpan.close_of_ne hi]
          exact hs' o ho hthread
      | before hp' ht' hnew' hc => exact .before hp' ht' (hsame hnew') hc
      | inside hp' ht' hnew' hin hfree hrun =>
          exact .inside hp' ht' (hsame hnew') hin hfree hrun
      | after hp' ht' hs' =>
          refine .after hp' ht' ?_
          have hi := (hp.ne hp' (Ne.symm hne)).symm
          have hmem := List.mem_map_of_mem (f := CallSpan.close i m.history.length) hs'
          rw [CallSpan.close_of_ne hi] at hmem
          exact hmem

theorem step (hm : Ordered L lose code s m spans last holder) (hcode : ∀ c, (code c).Guarded L lose)
    {act : ThreadAct τ ι} {m' : Threads τ ι ρ σ ε} (hstep : m.step L code act = some m') :
    ∃ spans' last' holder', Ordered L lose code s m' spans' last' holder' := by
  cases Threads.did hstep with
  | call ht => exact ⟨_, _, _, hm.call ht _⟩
  | lock ht hfree htake =>
      obtain ⟨object, htake', hheld⟩ := L.take_free _ hfree
      rw [htake] at htake'
      cases htake'
      exact ⟨_, _, _, hm.lock ht hfree htake hheld hcode⟩
  | access ht hf => exact ⟨_, _, _, hm.access ht hf hcode⟩
  | unlock ht hgive =>
      obtain ⟨object, hgive', hfree⟩ := L.give_held _ (hm.held_of_unlock ht hcode)
      rw [hgive] at hgive'
      cases hgive'
      obtain ⟨o, hm'⟩ := hm.unlock ht hgive hfree hcode
      exact ⟨_, _, _, hm'⟩
  | ret ht =>
      obtain ⟨spans', last', holder', i, c, hm', hp, hout, hs⟩ := hm.settle ht hcode
      exact ⟨_, _, _, hm'.ret hp hout hs⟩

end Ordered

theorem exists_ordered {L : Lock σ ε} {lose : Prop} {code : ι → Task σ ε ρ} {s : σ}
    {m : Threads τ ι ρ σ ε} (hcode : ∀ c, (code c).Guarded L lose)
    (h : (threads L code s).Reachable m) :
    ∃ spans last holder, Ordered L lose code s m spans last holder := by
  refine System.Reached.invariant
    (I := fun m => ∃ spans last holder, Ordered L lose code s m spans last holder)
    (fun m hinit => ?_) (fun m act m' hm _ hstep => ?_) h
  · obtain ⟨rfl, hfree⟩ := hinit
    exact ⟨_, _, _, .start hfree⟩
  · obtain ⟨spans, last, holder, hm⟩ := hm
    exact hm.step hcode hstep

-- ============================================================ calls made

/-- A call is in the history because it was made. -/
theorem Threads.step_call {L : Lock σ ε} {code : ι → Task σ ε ρ} {m m' : Threads τ ι ρ σ ε}
    {act : ThreadAct τ ι} (h : m.step L code act = some m') {t : τ} {c : ι}
    (hmem : CallEvent.call t c ∈ m'.history) :
    CallEvent.call t c ∈ m.history ∨ act = .call t c := by
  cases Threads.did h with
  | call ht =>
      rcases List.mem_append.mp hmem with hold | hnew
      · exact .inl hold
      · cases List.mem_singleton.mp hnew
        exact .inr rfl
  | lock ht hfree htake => exact .inl hmem
  | access ht hf => exact .inl hmem
  | unlock ht hgive => exact .inl hmem
  | ret ht =>
      rcases List.mem_append.mp hmem with hold | hnew
      · exact .inl hold
      · cases List.mem_singleton.mp hnew

/-- What is asked of the calls holds of those in the history. -/
theorem calls_of_reached {L : Lock σ ε} {code : ι → Task σ ε ρ} {s : σ} {P : ι → Prop}
    {good : Threads τ ι ρ σ ε → ThreadAct τ ι → Prop} (hgood : ∀ m t c, good m (.call t c) → P c)
    {m : Threads τ ι ρ σ ε} (h : (threads L code s).Reached good m) :
    ∀ t c, CallEvent.call t c ∈ m.history → P c := by
  induction h with
  | start hinit =>
      intro t c hmem
      rw [hinit.1] at hmem
      cases hmem
  | next _ ha hstep ih =>
      intro t c hmem
      rcases Threads.step_call hstep hmem with hold | rfl
      · exact ih t c hold
      · exact hgood _ _ _ ha

-- ========================================================== the main result

/-- The history is linearized by calls that were made one after the
other from `s`, and left `last`. -/
structure Linearized (L : Lock σ ε) (code : ι → Task σ ε ρ) (s : σ) (m : Threads τ ι ρ σ ε)
    (spans : List (CallSpan τ ι ρ)) (last : σ) : Prop where
  lin : Linearizes m.history spans
  legal : Task.runs L code (spans.map CallSpan.call) s = .ok (spans.map CallSpan.answer, last)
  /-- It is what the threads left, whenever the lock is free. -/
  left : L.free m.object = true → m.object = last
  /-- A thread that ends the process is in a call that would end it there
  too. -/
  fails : ∀ t e, m.Fails L t e → ∃ i c, Pending m.history t i c
    ∧ (∀ o ∈ spans, o.invoked ≠ i)
    ∧ Task.runs L code (spans.map CallSpan.call ++ [c]) s = .error e
    ∧ (L.free last = true ∨ code c = .fail e)

theorem linearized {L : Lock σ ε} {lose : Prop} {code : ι → Task σ ε ρ} {s : σ}
    {m : Threads τ ι ρ σ ε} (hcode : ∀ c, (code c).Guarded L lose)
    (h : (threads L code s).Reachable m) :
    ∃ spans last, Linearized L code s m spans last := by
  obtain ⟨spans, last, holder, hm⟩ := exists_ordered hcode h
  refine ⟨spans, last, hm.lin, hm.legal, fun hfree => ?_, fun t e hfails => ?_⟩
  · cases holder with
    | none => exact (hm.free rfl).1
    | some t =>
        rw [hm.held (Option.some_ne_none t)] at hfree
        cases hfree
  · obtain ⟨task, ht, hturn⟩ := hfails
    have hends := Task.run_turn hturn
    have hplace := hm.place t
    rw [ht] at hplace
    cases hplace with
    | before hp _ hnew hc =>
        have hguarded : task.Guarded L lose := by
          rw [hc]
          exact hcode _
        have hfail := hguarded.turn_error hturn
        refine ⟨_, _, hp, hnew, ?_, .inr (hc.symm.trans hfail)⟩
        rw [Task.runs_append _ hm.legal, ← hc, hfail]
        rfl
    | inside hp _ hnew _ hfree hrun =>
        refine ⟨_, _, hp, hnew, ?_, .inl hfree⟩
        rw [Task.runs_append _ hm.legal, ← hrun, hends]
        rfl
    | after => cases hturn

/-- While a call is under way some thread can go on, if none keeps the
lock. -/
theorem some_turn {L : Lock σ ε} {lose : Prop} {code : ι → Task σ ε ρ} {s : σ}
    {m : Threads τ ι ρ σ ε} (hcode : ∀ c, (code c).Guarded L lose) (hkeep : ¬lose)
    (h : (threads L code s).Reachable m) {t : τ} (ht : m.running t ≠ none) :
    ∃ t', (∃ e, m.Fails L t' e) ∨ (∃ m', m.step L code (.turn t') = some m')
      ∨ ∃ m', m.step L code (.ret t') = some m' := by
  obtain ⟨spans, last, holder, hm⟩ := exists_ordered hcode h
  have hgoes : ∀ {t' : τ} {task : Task σ ε ρ} {x : Except ε (Task σ ε ρ × σ)},
      m.running t' = some task → task.turn L m.object = some x →
      (∃ e, m.Fails L t' e) ∨ (∃ m', m.step L code (.turn t') = some m') := by
    intro t' task x ht' hturn
    cases x with
    | error e => exact .inl ⟨e, task, ht', hturn⟩
    | ok r =>
        right
        unfold Threads.step
        simp only [ht', Option.bind_some, hturn]
        exact ⟨_, rfl⟩
  cases holder with
  | some t' =>
      -- the thread inside
      refine ⟨t', ?_⟩
      have hplace := hm.place t'
      cases ht' : m.running t' with
      | none =>
          rw [ht'] at hplace
          cases hplace with
          | idle h => exact absurd rfl h
      | some task =>
          rw [ht'] at hplace
          cases hplace with
          | before _ h => exact absurd rfl h
          | inside _ _ _ hin =>
              rw [← or_assoc]
              left
              cases hin with
              | fail e => exact hgoes ht' rfl
              | access _ _ => exact hgoes ht' rfl
              | unlock r => exact hgoes ht' rfl
              | lost hlose => exact absurd hlose hkeep
          | after _ h => exact absurd rfl h
  | none =>
      -- anyone who is in a call
      have hfree := (hm.free rfl).2.resolve_left hkeep
      obtain ⟨task, htask⟩ := Option.ne_none_iff_exists'.mp ht
      refine ⟨t, ?_⟩
      have hplace := hm.place t
      rw [htask] at hplace
      cases hplace with
      | before _ _ _ hc =>
          rw [← or_assoc]
          left
          have hguarded : task.Guarded L lose := by
            rw [hc]
            exact hcode _
          cases hguarded with
          | fail e => exact hgoes htask rfl
          | lock hin => exact hgoes htask (if_pos hfree)
      | inside _ h => cases h
      | after _ _ _ =>
          right
          right
          unfold Threads.step
          simp only [htask]
          exact ⟨_, rfl⟩

end CephInC.Lib
