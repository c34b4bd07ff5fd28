/-
What a returning run ensures of its result, from whatever state it
starts; what it keeps of the state, whatever its result; and which errors
no run of it ends in.

A run that ends in an error ensures anything, and what it asks of the
state is left open; so the rules below are those of a program that reads
its result off its arguments, while the state only decides between ways
to end.
-/

namespace CephInC.Lib

variable {ε σ α β : Type}

def Ensures (x : StateT σ (Except ε) α) (P : α → Prop) : Prop :=
  ∀ s a s', x s = .ok (a, s') → P a

theorem Ensures.pure {P : α → Prop} {a : α} (h : P a) :
    Ensures (pure a : StateT σ (Except ε) α) P := by
  intro s a' s' hrun
  cases hrun
  exact h

theorem Ensures.throw {P : α → Prop} (e : ε) :
    Ensures (fun _ => .error e : StateT σ (Except ε) α) P :=
  fun _ _ _ hrun => (by cases hrun)

theorem Ensures.bind {P : β → Prop} {Q : α → Prop} {x : StateT σ (Except ε) α}
    {f : α → StateT σ (Except ε) β} (hx : Ensures x Q)
    (hf : ∀ a, Q a → Ensures (f a) P) : Ensures (x >>= f) P := by
  intro s b s' hrun
  have hrun : (x s >>= fun r => f r.1 r.2) = .ok (b, s') := hrun
  cases hxs : x s with
  | error e =>
      rw [hxs] at hrun
      cases hrun
  | ok r =>
      rw [hxs] at hrun
      exact hf r.1 (hx s r.1 r.2 hxs) r.2 b s' hrun

theorem Ensures.mono {P Q : α → Prop} {x : StateT σ (Except ε) α} (hx : Ensures x Q)
    (h : ∀ a, Q a → P a) : Ensures x P :=
  fun s a s' hrun => h a (hx s a s' hrun)

/-- Nothing is known of a result. -/
theorem Ensures.trivial (x : StateT σ (Except ε) α) : Ensures x fun _ => True :=
  fun _ _ _ _ => True.intro

-- ========================================================== of the state

/-- A returning run that starts in `I` ends in `I`. -/
def Keeps (I : σ → Prop) (x : StateT σ (Except ε) α) : Prop :=
  ∀ s a s', I s → x s = .ok (a, s') → I s'

theorem Keeps.pure {I : σ → Prop} (a : α) :
    Keeps I (pure a : StateT σ (Except ε) α) := by
  intro s a' s' hs hrun
  cases hrun
  exact hs

theorem Keeps.throw {I : σ → Prop} (e : ε) :
    Keeps I (fun _ => .error e : StateT σ (Except ε) α) :=
  fun _ _ _ _ hrun => (by cases hrun)

theorem Keeps.bind {I : σ → Prop} {x : StateT σ (Except ε) α}
    {f : α → StateT σ (Except ε) β} (hx : Keeps I x) (hf : ∀ a, Keeps I (f a)) :
    Keeps I (x >>= f) := by
  intro s b s' hs hrun
  have hrun : (x s >>= fun r => f r.1 r.2) = .ok (b, s') := hrun
  cases hxs : x s with
  | error e =>
      rw [hxs] at hrun
      cases hrun
  | ok r =>
      rw [hxs] at hrun
      exact hf r.1 r.2 b s' (hx s r.1 r.2 hs hxs) hrun

theorem Keeps.ite {I : σ → Prop} {p : Prop} [Decidable p]
    {x y : StateT σ (Except ε) α} (hx : Keeps I x) (hy : Keeps I y) :
    Keeps I (if p then x else y) := by
  by_cases h : p
  · rw [if_pos h]
    exact hx
  · rw [if_neg h]
    exact hy

-- ====================================================== of the errors

theorem bind_ne_error {e : ε} {x : Except ε α} {f : α → Except ε β} (hx : x ≠ .error e)
    (hf : ∀ a, f a ≠ .error e) : x >>= f ≠ .error e := by
  cases x with
  | error e' =>
      intro hrun
      cases hrun
      exact hx rfl
  | ok a => exact hf a

/-- No run ends in `e`, and one that returns ensures `P`. -/
structure Ends (e : ε) (P : α → Prop) (x : StateT σ (Except ε) α) : Prop where
  avoids : ∀ s, x s ≠ .error e
  ensures : Ensures x P

theorem Ends.pure {e : ε} {P : α → Prop} {a : α} (h : P a) :
    Ends e P (pure a : StateT σ (Except ε) α) := by
  refine ⟨?_, Ensures.pure h⟩
  intro s hrun
  cases hrun

theorem Ends.throw {e e' : ε} {P : α → Prop} (h : e' ≠ e) :
    Ends e P (fun _ => .error e' : StateT σ (Except ε) α) := by
  refine ⟨?_, Ensures.throw e'⟩
  intro s hrun
  cases hrun
  exact h rfl

theorem Ends.bind {e : ε} {P : β → Prop} {Q : α → Prop} {x : StateT σ (Except ε) α}
    {f : α → StateT σ (Except ε) β} (hx : Ends e Q x) (hf : ∀ a, Q a → Ends e P (f a)) :
    Ends e P (x >>= f) := by
  refine ⟨?_, hx.ensures.bind fun a ha => (hf a ha).ensures⟩
  intro s hrun
  have hrun : (x s >>= fun r => f r.1 r.2) = .error e := hrun
  cases hxs : x s with
  | error e' =>
      rw [hxs] at hrun
      cases hrun
      exact hx.avoids s hxs
  | ok r =>
      rw [hxs] at hrun
      exact (hf r.1 (hx.ensures s r.1 r.2 hxs)).avoids r.2 hrun

theorem Ends.ite {e : ε} {P : α → Prop} {p : Prop} [Decidable p] {x y : StateT σ (Except ε) α}
    (hx : Ends e P x) (hy : Ends e P y) : Ends e P (if p then x else y) := by
  by_cases h : p
  · rw [if_pos h]
    exact hx
  · rw [if_neg h]
    exact hy

end CephInC.Lib
