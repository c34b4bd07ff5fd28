/-
Runs of a transition system.

A `System` has initial states and a partial step function: `step s a` is
the state after the action `a`, or none if `a` cannot happen in `s`. The
actions carry every choice the environment makes, so a run is a list of
actions, and `exec` plays one back.

`Reached good` holds the states of the runs whose steps all satisfy
`good`; with nothing asked of the steps they are the reachable states.
An invariant is proved of them by two goals, the initial states and one
step (`Reached.invariant`).
-/
namespace CephInC.Lib

structure System (σ α : Type) where
  init : σ → Prop
  step : σ → α → Option σ

namespace System

variable {σ α : Type} (S : System σ α)

/-- The state after a list of actions. -/
def exec : σ → List α → Option σ
  | s, [] => some s
  | s, a :: as => (S.step s a).bind fun s' => exec s' as

/-- The states of the runs whose steps all satisfy `good`. -/
inductive Reached (good : σ → α → Prop) : σ → Prop
  | start {s : σ} (h : S.init s) : Reached good s
  | next {s s' : σ} {a : α} (hs : Reached good s) (ha : good s a)
      (hstep : S.step s a = some s') : Reached good s'

/-- The states of all runs. -/
def Reachable : σ → Prop := S.Reached fun _ _ => True

variable {S} {good good' : σ → α → Prop}

/-- What holds at the start and is kept by every good step holds in every
state reached. -/
theorem Reached.invariant {I : σ → Prop} (hinit : ∀ s, S.init s → I s)
    (hstep : ∀ s a s', I s → good s a → S.step s a = some s' → I s')
    {s : σ} (h : S.Reached good s) : I s := by
  induction h with
  | start h => exact hinit _ h
  | next _ ha hs ih => exact hstep _ _ _ ih ha hs

/-- Fewer conditions, more runs. -/
theorem Reached.mono (hgood : ∀ s a, good s a → good' s a) {s : σ}
    (h : S.Reached good s) : S.Reached good' s := by
  induction h with
  | start h => exact .start h
  | next _ ha hs ih => exact .next ih (hgood _ _ ha) hs

/-- Playing back actions that are good everywhere. -/
theorem Reached.exec (as : List α) (hgood : ∀ a ∈ as, ∀ s, good s a) :
    ∀ {s s' : σ}, S.Reached good s → S.exec s as = some s' → S.Reached good s' := by
  induction as with
  | nil =>
      intro s s' hs h
      cases h
      exact hs
  | cons a as ih =>
      intro s s' hs h
      obtain ⟨mid, hstep, hrest⟩ := Option.bind_eq_some_iff.mp h
      exact ih (fun b hb => hgood b (List.mem_cons_of_mem a hb))
        (hs.next (hgood a List.mem_cons_self s) hstep) hrest

theorem exec_append (as bs : List α) : ∀ s : σ,
    S.exec s (as ++ bs) = (S.exec s as).bind fun mid => S.exec mid bs := by
  induction as with
  | nil => exact fun s => rfl
  | cons a as ih =>
      intro s
      show (S.step s a).bind (fun mid => S.exec mid (as ++ bs))
        = ((S.step s a).bind fun mid => S.exec mid as).bind fun mid => S.exec mid bs
      rw [Option.bind_assoc]
      congr 1
      funext mid
      exact ih mid

variable (S) in
/-- Each action of the run is good where it is taken. -/
def GoodRun (good : σ → α → Prop) : σ → List α → Prop
  | _, [] => True
  | s, a :: as => good s a ∧ ∀ s', S.step s a = some s' → GoodRun good s' as

variable (S) in
/-- Some list of actions goes from one state to the other. -/
def Leads (s s' : σ) : Prop := ∃ as, S.exec s as = some s'

theorem Leads.refl (s : σ) : S.Leads s s := ⟨[], rfl⟩

theorem Leads.step {s s' : σ} {a : α} (h : S.step s a = some s') : S.Leads s s' :=
  ⟨[a], by rw [System.exec, h]; rfl⟩

theorem Leads.trans {s mid s' : σ} (h : S.Leads s mid) (h' : S.Leads mid s') :
    S.Leads s s' := by
  obtain ⟨as, has⟩ := h
  obtain ⟨bs, hbs⟩ := h'
  refine ⟨as ++ bs, ?_⟩
  rw [exec_append, has]
  exact hbs

end System

end CephInC.Lib
