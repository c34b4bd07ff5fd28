/-
Steps with a return code, and when two of them commute.

A `Step` takes a state to a return code and a state, or aborts. Code `0`
is success; `Step.seq` runs a list of steps and stops at the first other
code, keeping what the steps before it did: a batch without rollback.

Two steps commute when running one after the other, in either order,
aborts in both orders or gives each the same code and the same final
state. Two batches commute as soon as each step of one commutes with
each step of the other (`Commutes.seq`): where a batch stops is then the
same in both orders.

A step that works on a part of the state is `Step.over` a `Lens`; steps
over independent lenses commute whatever they do (`commutes_over`).
-/
import Mathlib.Logic.Function.Basic

namespace CephInC.Lib

/-- From a state, a return code and a state, or an abort. -/
abbrev Step (ε S : Type) := S → Except ε (Int × S)

variable {ε S V : Type}

/-- Return a code and do nothing. -/
def Step.code (c : Int) : Step ε S := fun s => .ok (c, s)

/-- Abort. -/
def Step.abort (e : ε) : Step ε S := fun _ => .error e

/-- Abort unless the condition holds. -/
def Step.guard (p : Prop) [Decidable p] (e : ε) (f : Step ε S) : Step ε S :=
  if p then f else .abort e

/-- Run the steps in order up to the first that fails. -/
def Step.seq : List (Step ε S) → Step ε S
  | [], s => .ok (0, s)
  | f :: fs, s =>
      match f s with
      | .error e => .error e
      | .ok (c, s) => if c = 0 then Step.seq fs s else .ok (c, s)

/-- One step, then another whatever the first returned: both codes and
the final state. -/
def Step.both (f g : Step ε S) (s : S) : Except ε (Int × Int × S) :=
  match f s with
  | .error e => .error e
  | .ok (a, s) =>
      match g s with
      | .error e => .error e
      | .ok (b, s) => .ok (a, b, s)

/-- The computation aborts. -/
def Aborts {α : Type} (x : Except ε α) : Prop := ∃ e, x = .error e

/-- From `s`, both orders return the same codes and end in the same
state. -/
def Swaps (f g : Step ε S) (s : S) : Prop :=
  ∃ a b s₁ s₂ t, f s = .ok (a, s₁) ∧ g s₁ = .ok (b, t)
    ∧ g s = .ok (b, s₂) ∧ f s₂ = .ok (a, t)

/-- The order of the two steps does not matter. -/
def Commutes (f g : Step ε S) : Prop :=
  ∀ s, Swaps f g s ∨ (Aborts (f.both g s) ∧ Aborts (g.both f s))

-- ======================================================= running in turn

/-- How two steps in turn abort. -/
theorem aborts_both {f g : Step ε S} {s : S} :
    Aborts (f.both g s)
      ↔ Aborts (f s) ∨ ∃ a s₁, f s = .ok (a, s₁) ∧ Aborts (g s₁) := by
  unfold Aborts Step.both
  cases hf : f s with
  | error e => simp
  | ok r =>
      obtain ⟨a, s₁⟩ := r
      constructor
      · intro h
        refine .inr ⟨a, s₁, rfl, ?_⟩
        cases hg : g s₁ with
        | error e => exact ⟨e, rfl⟩
        | ok r' =>
            simp only [hg] at h
            obtain ⟨e, h⟩ := h
            cases h
      · intro h
        rcases h with ⟨e, h⟩ | ⟨a', s', h, e, hg⟩
        · cases h
        · cases h
          exact ⟨e, by simp only [hg]⟩

theorem Swaps.both_eq {f g : Step ε S} {s : S} (h : Swaps f g s) :
    ∃ a b t, f.both g s = .ok (a, b, t) ∧ g.both f s = .ok (b, a, t) := by
  obtain ⟨a, b, s₁, s₂, t, h1, h2, h3, h4⟩ := h
  refine ⟨a, b, t, ?_, ?_⟩
  · simp only [Step.both, h1, h2]
  · simp only [Step.both, h3, h4]

theorem Commutes.symm {f g : Step ε S} (h : Commutes f g) : Commutes g f := by
  intro s
  rcases h s with ⟨a, b, s₁, s₂, t, h1, h2, h3, h4⟩ | ⟨h1, h2⟩
  · exact .inl ⟨b, a, s₂, s₁, t, h3, h4, h1, h2⟩
  · exact .inr ⟨h2, h1⟩

/-- A step that only returns a code commutes with every step. -/
theorem commutes_code (c : Int) (f : Step ε S) : Commutes (.code c) f := by
  intro s
  cases hf : f s with
  | error e =>
      right
      rw [aborts_both, aborts_both]
      exact ⟨.inr ⟨c, s, rfl, e, hf⟩, .inl ⟨e, hf⟩⟩
  | ok r =>
      obtain ⟨a, t⟩ := r
      exact .inl ⟨c, a, s, t, t, rfl, hf, hf, rfl⟩

/-- A step that aborts commutes with every step. -/
theorem commutes_abort (e : ε) (f : Step ε S) : Commutes (.abort e) f := by
  intro s
  right
  rw [aborts_both, aborts_both]
  refine ⟨.inl ⟨e, rfl⟩, ?_⟩
  cases hf : f s with
  | error e' => exact .inl ⟨e', rfl⟩
  | ok r => exact .inr ⟨r.1, r.2, rfl, e, rfl⟩

theorem Step.guard_pos {p : Prop} [Decidable p] (hp : p) (e : ε)
    (f : Step ε S) : Step.guard p e f = f := if_pos hp

theorem Step.guard_neg {p : Prop} [Decidable p] (hp : ¬p) (e : ε)
    (f : Step ε S) : Step.guard p e f = .abort e := if_neg hp

theorem Step.guard_abort (p : Prop) [Decidable p] (e : ε) :
    Step.guard p e (.abort e : Step ε S) = .abort e := by
  by_cases hp : p
  · exact Step.guard_pos hp ..
  · exact Step.guard_neg hp ..

/-- A check that another one makes again. -/
theorem Step.guard_again {p q : Prop} [Decidable p] [Decidable q] {e : ε} {f : Step ε S}
    (h : q → p) : Step.guard p e (.guard q e f) = .guard q e f := by
  by_cases hq : q
  · rw [Step.guard_pos (h hq)]
  · rw [Step.guard_neg hq, Step.guard_abort]

/-- A guarded step that returns passed its guard. -/
theorem Step.guard_ok {p : Prop} [Decidable p] {e : ε} {f : Step ε S}
    {s : S} {r : Int × S} (h : Step.guard p e f s = .ok r) :
    p ∧ f s = .ok r := by
  unfold Step.guard at h
  by_cases hp : p
  · rw [if_pos hp] at h
    exact ⟨hp, h⟩
  · rw [if_neg hp] at h
    cases h

theorem Commutes.guard {f g : Step ε S} (h : Commutes f g) (p : Prop)
    [Decidable p] (e : ε) : Commutes (.guard p e f) g := by
  unfold Step.guard
  by_cases hp : p
  · rw [if_pos hp]
    exact h
  · rw [if_neg hp]
    exact commutes_abort e g

-- =============================================================== batches

/-- A batch of one step. -/
theorem Step.seq_one (f : Step ε S) : Step.seq [f] = f := by
  funext s
  unfold Step.seq
  cases f s with
  | error e => rfl
  | ok r =>
      obtain ⟨c, s'⟩ := r
      by_cases hc : c = 0
      · simp only [hc, if_true, Step.seq]
      · simp only [if_neg hc]

/-- A step commutes with a batch whose every step it commutes with. -/
private theorem commutes_seq_right {f : Step ε S} :
    ∀ {gs : List (Step ε S)}, (∀ g ∈ gs, Commutes f g) →
      Commutes f (.seq gs)
  | [], _ => (commutes_code 0 f).symm
  | g :: gs, h => by
      have hg := h g (List.mem_cons_self ..)
      have ih : Commutes f (.seq gs) :=
        commutes_seq_right fun g' hg' => h g' (List.mem_cons_of_mem _ hg')
      intro s
      rcases hg s with ⟨a, b, s₁, s₂, t, h1, h2, h3, h4⟩ | ⟨h1, h2⟩
      · by_cases hb : b = 0
        · -- both go on, and what is left commutes from the state after g
          rcases ih s₂ with ⟨a', c, u₁, u₂, u, i1, i2, i3, i4⟩ | ⟨i1, i2⟩
          · rw [h4] at i1
            cases i1
            left
            refine ⟨a, c, s₁, u₂, u, h1, ?_, ?_, i4⟩
            · simp only [Step.seq, h2, if_pos hb, i2]
            · simp only [Step.seq, h3, if_pos hb, i3]
          · right
            rw [aborts_both] at i1 i2 ⊢
            rw [aborts_both]
            constructor
            · rcases i1 with ⟨e, i1⟩ | ⟨a', u, i1, e, i1'⟩
              · rw [h4] at i1
                cases i1
              · rw [h4] at i1
                cases i1
                exact .inr ⟨a, s₁, h1, e, by
                  simp only [Step.seq, h2, if_pos hb, i1']⟩
            · rcases i2 with ⟨e, i2⟩ | ⟨c, u, i2, i2'⟩
              · exact .inl ⟨e, by simp only [Step.seq, h3, if_pos hb, i2]⟩
              · exact .inr ⟨c, u, by
                  simp only [Step.seq, h3, if_pos hb, i2], i2'⟩
        · left
          refine ⟨a, b, s₁, s₂, t, h1, ?_, ?_, h4⟩
          · simp only [Step.seq, h2, if_neg hb]
          · simp only [Step.seq, h3, if_neg hb]
      · right
        rw [aborts_both] at h1 h2 ⊢
        rw [aborts_both]
        constructor
        · rcases h1 with h1 | ⟨a, s₁, h1, e, h1'⟩
          · exact .inl h1
          · exact .inr ⟨a, s₁, h1, e, by simp only [Step.seq, h1']⟩
        · rcases h2 with ⟨e, h2⟩ | ⟨b, s₂, h2, h2'⟩
          · exact .inl ⟨e, by simp only [Step.seq, h2]⟩
          · by_cases hb : b = 0
            · have i2 : Aborts ((Step.seq gs).both f s₂) := by
                rcases ih s₂ with ⟨a, _, u, _, _, i1, -⟩ | ⟨-, i2⟩
                · obtain ⟨e, h2'⟩ := h2'
                  rw [i1] at h2'
                  cases h2'
                · exact i2
              rw [aborts_both] at i2
              rcases i2 with ⟨e, i2⟩ | ⟨c, u, i2, i2'⟩
              · exact .inl ⟨e, by simp only [Step.seq, h2, if_pos hb, i2]⟩
              · exact .inr ⟨c, u, by
                  simp only [Step.seq, h2, if_pos hb, i2], i2'⟩
            · exact .inr ⟨b, s₂, by simp only [Step.seq, h2, if_neg hb], h2'⟩

/-- Batches commute when their steps do, wherever each of them stops. -/
theorem Commutes.seq {fs gs : List (Step ε S)}
    (h : ∀ f ∈ fs, ∀ g ∈ gs, Commutes f g) :
    Commutes (.seq fs) (.seq gs) := by
  refine (commutes_seq_right fun f hf => ?_).symm
  exact (commutes_seq_right fun g hg => h f hf g hg).symm

-- ====================================================== parts of a state

/-- A part of a state that can be read and replaced. -/
structure Lens (S V : Type) where
  get : S → V
  set : V → S → S
  get_set : ∀ v s, get (set v s) = v
  set_get : ∀ s, set (get s) s = s
  set_set : ∀ v w s, set v (set w s) = set v s

/-- Neither part contains any of the other. -/
structure Independent {W : Type} (l : Lens S V) (m : Lens S W) : Prop where
  get_left : ∀ w s, l.get (m.set w s) = l.get s
  get_right : ∀ v s, m.get (l.set v s) = m.get s
  set_comm : ∀ v w s, l.set v (m.set w s) = m.set w (l.set v s)

/-- A step on a part. -/
def Step.over (l : Lens S V) (f : Step ε V) : Step ε S := fun s =>
  match f (l.get s) with
  | .error e => .error e
  | .ok (c, v) => .ok (c, l.set v s)

/-- A step on a part that may be missing; then `c` is returned. -/
def Step.onSome (c : Int) (f : Step ε V) : Step ε (Option V)
  | none => .ok (c, none)
  | some v =>
      match f v with
      | .error e => .error e
      | .ok (d, v) => .ok (d, some v)

/-- What a returning step on a part did. -/
theorem Step.over_ok {l : Lens S V} {f : Step ε V} {s s' : S} {c : Int}
    (h : Step.over l f s = .ok (c, s')) : ∃ w, f (l.get s) = .ok (c, w) ∧ s' = l.set w s := by
  unfold Step.over at h
  cases hf : f (l.get s) with
  | error e =>
      rw [hf] at h
      cases h
  | ok r =>
      rw [hf] at h
      cases h
      exact ⟨_, rfl, rfl⟩

/-- What it did if the part may be missing. -/
theorem Step.onSome_ok {c d : Int} {f : Step ε V} {o o' : Option V}
    (h : Step.onSome c f o = .ok (d, o')) :
    (o = none ∧ o' = none) ∨ ∃ v v', o = some v ∧ o' = some v' ∧ f v = .ok (d, v') := by
  cases o with
  | none =>
      cases h
      exact .inl ⟨rfl, rfl⟩
  | some v =>
      simp only [Step.onSome] at h
      cases hf : f v with
      | error e =>
          rw [hf] at h
          cases h
      | ok r =>
          obtain ⟨d', v'⟩ := r
          rw [hf] at h
          cases h
          exact .inr ⟨v, v', rfl, rfl, hf⟩

/-- One value of a function. -/
def Lens.at {κ : Type} [DecidableEq κ] (k : κ) : Lens (κ → V) V where
  get s := s k
  set v s := Function.update s k v
  get_set _ _ := Function.update_self ..
  set_get _ := Function.update_eq_self ..
  set_set _ _ _ := Function.update_idem ..

/-- The values at different arguments. -/
theorem independent_at {κ : Type} [DecidableEq κ] {k k' : κ} (h : k ≠ k') :
    Independent (Lens.at (V := V) k) (Lens.at k') where
  get_left := by
    intro w s
    show Function.update s k' w k = s k
    rw [Function.update_of_ne h]
  get_right := by
    intro v s
    show Function.update s k v k' = s k'
    rw [Function.update_of_ne h.symm]
  set_comm := by
    intro v w s
    show Function.update (Function.update s k' w) k v
      = Function.update (Function.update s k v) k' w
    rw [Function.update_comm h]

/-- Steps over independent parts commute. -/
theorem commutes_over {W : Type} {l : Lens S V} {m : Lens S W}
    (h : Independent l m) (f : Step ε V) (g : Step ε W) :
    Commutes (.over l f) (.over m g) := by
  intro s
  cases hf : f (l.get s) with
  | error e =>
      right
      rw [aborts_both, aborts_both]
      refine ⟨.inl ⟨e, by simp only [Step.over, hf]⟩, ?_⟩
      cases hg : g (m.get s) with
      | error e' => exact .inl ⟨e', by simp only [Step.over, hg]⟩
      | ok r =>
          exact .inr ⟨r.1, m.set r.2 s, by simp only [Step.over, hg], e, by
            simp only [Step.over, h.get_left, hf]⟩
  | ok r =>
      obtain ⟨a, v⟩ := r
      cases hg : g (m.get s) with
      | error e =>
          right
          rw [aborts_both, aborts_both]
          refine ⟨.inr ⟨a, l.set v s, by simp only [Step.over, hf], e, by
            simp only [Step.over, h.get_right, hg]⟩, .inl ⟨e, by
            simp only [Step.over, hg]⟩⟩
      | ok r =>
          obtain ⟨b, w⟩ := r
          left
          refine ⟨a, b, l.set v s, m.set w s, l.set v (m.set w s), ?_, ?_, ?_,
            ?_⟩
          · simp only [Step.over, hf]
          · simp only [Step.over, h.get_right, hg, h.set_comm]
          · simp only [Step.over, hg]
          · simp only [Step.over, h.get_left, hf]

/-- Steps that commute on a part commute over it. -/
theorem Commutes.over {f g : Step ε V} (h : Commutes f g) (l : Lens S V) :
    Commutes (.over l f) (.over l g) := by
  intro s
  rcases h (l.get s) with ⟨a, b, v₁, v₂, w, h1, h2, h3, h4⟩ | ⟨h1, h2⟩
  · left
    refine ⟨a, b, l.set v₁ s, l.set v₂ s, l.set w s, ?_, ?_, ?_, ?_⟩
    · simp only [Step.over, h1]
    · simp only [Step.over, l.get_set, h2, l.set_set]
    · simp only [Step.over, h3]
    · simp only [Step.over, l.get_set, h4, l.set_set]
  · right
    rw [aborts_both] at h1 h2 ⊢
    rw [aborts_both]
    constructor
    · rcases h1 with ⟨e, h1⟩ | ⟨a, v, h1, e, h1'⟩
      · exact .inl ⟨e, by simp only [Step.over, h1]⟩
      · exact .inr ⟨a, l.set v s, by simp only [Step.over, h1], e, by
          simp only [Step.over, l.get_set, h1']⟩
    · rcases h2 with ⟨e, h2⟩ | ⟨b, v, h2, e, h2'⟩
      · exact .inl ⟨e, by simp only [Step.over, h2]⟩
      · exact .inr ⟨b, l.set v s, by simp only [Step.over, h2], e, by
          simp only [Step.over, l.get_set, h2']⟩

/-- Steps that commute on a part commute where it may be missing. -/
theorem Commutes.onSome {f g : Step ε V} (h : Commutes f g) (c d : Int) :
    Commutes (.onSome c f) (.onSome d g) := by
  intro o
  cases o with
  | none => exact .inl ⟨c, d, none, none, none, rfl, rfl, rfl, rfl⟩
  | some v =>
      rcases h v with ⟨a, b, v₁, v₂, w, h1, h2, h3, h4⟩ | ⟨h1, h2⟩
      · left
        refine ⟨a, b, some v₁, some v₂, some w, ?_, ?_, ?_, ?_⟩
        · simp only [Step.onSome, h1]
        · simp only [Step.onSome, h2]
        · simp only [Step.onSome, h3]
        · simp only [Step.onSome, h4]
      · right
        rw [aborts_both] at h1 h2 ⊢
        rw [aborts_both]
        constructor
        · rcases h1 with ⟨e, h1⟩ | ⟨a, v', h1, e, h1'⟩
          · exact .inl ⟨e, by simp only [Step.onSome, h1]⟩
          · exact .inr ⟨a, some v', by simp only [Step.onSome, h1], e, by
              simp only [Step.onSome, h1']⟩
        · rcases h2 with ⟨e, h2⟩ | ⟨b, v', h2, e, h2'⟩
          · exact .inl ⟨e, by simp only [Step.onSome, h2]⟩
          · exact .inr ⟨b, some v', by simp only [Step.onSome, h2], e, by
              simp only [Step.onSome, h2']⟩

end CephInC.Lib
