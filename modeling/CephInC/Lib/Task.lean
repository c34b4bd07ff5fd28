/-
Programs cut where another thread can come in between.

A `Task` is a program on a shared state, as the list of what it does to
it: it waits for a lock and takes it, it makes an access, it gives the
lock back. What it computes between two of these is its own and not cut.
`Task.run` is the program left alone, `Task.turn` what it does next when
it is not.

`Guarded` is the discipline of one section: nothing before the lock, and
nothing after it is given back but the answer.
-/
namespace CephInC.Lib

/-- A mutex in a shared state. A thread that finds it taken waits. -/
structure Lock (σ ε : Type) where
  free : σ → Bool
  take : σ → Except ε σ
  give : σ → Except ε σ
  take_free : ∀ s, free s = true → ∃ s', take s = .ok s' ∧ free s' = false
  give_held : ∀ s, free s = false → ∃ s', give s = .ok s' ∧ free s' = true

inductive Task (σ ε ρ : Type) where
  | done (r : ρ)
  | fail (e : ε)
  | lock (next : Task σ ε ρ)
  /-- `next` sees the state before the access. -/
  | access (f : σ → Except ε σ) (next : σ → Task σ ε ρ)
  | unlock (next : Task σ ε ρ)

namespace Task

variable {σ ε ρ α β : Type}

-- ============================================================ as programs

protected def bind : Task σ ε α → (α → Task σ ε β) → Task σ ε β
  | .done a, k => k a
  | .fail e, _ => .fail e
  | .lock next, k => .lock (next.bind k)
  | .access f next, k => .access f fun s => (next s).bind k
  | .unlock next, k => .unlock (next.bind k)

instance : Monad (Task σ ε) where
  pure := .done
  bind := Task.bind

/-- Wait for the lock, and take it. -/
def take : Task σ ε Unit := .lock (.done ())

/-- Give the lock back. -/
def give : Task σ ε Unit := .unlock (.done ())

/-- One access, which may change the state and yields a value. -/
def look (p : σ → Except ε (α × σ)) : Task σ ε α :=
  .access (fun s => (p s).map Prod.snd) fun s =>
    match p s with
    | .ok r => .done r.1
    | .error e => .fail e

/-- Go on or end there, whatever the state. -/
def check (p : Prop) [Decidable p] (e : ε) : Task σ ε Unit :=
  if p then .done () else .fail e

variable (L : Lock σ ε)

/-- The program with the state to itself. -/
def run : Task σ ε ρ → σ → Except ε (ρ × σ)
  | .done r, s => .ok (r, s)
  | .fail e, _ => .error e
  | .lock next, s => (L.take s).bind (run next)
  | .access f next, s => (f s).bind (run (next s))
  | .unlock next, s => (L.give s).bind (run next)

/-- What it does next, if it need not wait for that. -/
def turn : Task σ ε ρ → σ → Option (Except ε (Task σ ε ρ × σ))
  | .done _, _ => none
  | .fail e, _ => some (.error e)
  | .lock next, s => if L.free s then some ((L.take s).map fun s' => (next, s')) else none
  | .access f next, s => some ((f s).map fun s' => (next s, s'))
  | .unlock next, s => some ((L.give s).map fun s' => (next, s'))

variable {L}

@[simp] theorem run_pure (r : ρ) (s : σ) : (pure r : Task σ ε ρ).run L s = .ok (r, s) := rfl

theorem run_bind (k : α → Task σ ε β) : ∀ (t : Task σ ε α) (s : σ),
    (t >>= k).run L s = (t.run L s).bind fun r => (k r.1).run L r.2
  | .done _, _ => rfl
  | .fail _, _ => rfl
  | .lock next, s => by
      show (L.take s).bind _ = ((L.take s).bind _).bind _
      cases L.take s with
      | error e => rfl
      | ok s' => exact run_bind k next s'
  | .access f next, s => by
      show (f s).bind _ = ((f s).bind _).bind _
      cases f s with
      | error e => rfl
      | ok s' => exact run_bind k (next s) s'
  | .unlock next, s => by
      show (L.give s).bind _ = ((L.give s).bind _).bind _
      cases L.give s with
      | error e => rfl
      | ok s' => exact run_bind k next s'

theorem run_look (p : σ → Except ε (α × σ)) (s : σ) : (look p).run L s = p s := by
  show ((p s).map Prod.snd).bind _ = _
  cases h : p s with
  | error e => rfl
  | ok r =>
      show run L (match p s with | .ok r => .done r.1 | .error e => .fail e) r.2 = _
      rw [h]
      rfl

/-- A turn is the beginning of the run, or all of it. -/
theorem run_turn {t : Task σ ε ρ} {s : σ} {x : Except ε (Task σ ε ρ × σ)}
    (h : t.turn L s = some x) : t.run L s = x.bind fun r => r.1.run L r.2 := by
  have hrest : ∀ (y : Except ε σ) (next : Task σ ε ρ),
      y.bind (run L next) = (y.map fun s' => (next, s')).bind fun r => r.1.run L r.2 := by
    intro y next
    cases y with
    | error e => rfl
    | ok s' => rfl
  cases t with
  | done r => cases h
  | fail e => cases h; rfl
  | lock next =>
      have hturn : (if L.free s then some ((L.take s).map fun s' => (next, s')) else none)
          = some x := h
      by_cases hfree : L.free s = true
      · rw [if_pos hfree] at hturn
        cases hturn
        exact hrest (L.take s) next
      · rw [if_neg hfree] at hturn
        cases hturn
  | access f next =>
      cases h
      exact hrest (f s) (next s)
  | unlock next =>
      cases h
      exact hrest (L.give s) next

-- ======================================================= on a part of it

section
variable {β γ : Type}

/-- An access to the second part of the state alone. -/
def own (p : StateT β (Except ε) α) : Task (σ × β) ε α :=
  look fun s => (p s.2).map fun r => (r.1, s.1, r.2)

variable {L : Lock (σ × β) ε}

variable (L) in
/-- The program as one on the second part, that takes the first and gives
it back. -/
def prog (t : Task (σ × β) ε ρ) (a : σ) : StateT β (Except ε) (ρ × σ) :=
  fun b => (t.run L (a, b)).map fun r => ((r.1, r.2.1), r.2.2)

theorem prog_pure (r : ρ) (a : σ) : (pure r : Task (σ × β) ε ρ).prog L a = pure (r, a) := rfl

theorem prog_bind (t : Task (σ × β) ε α) (k : α → Task (σ × β) ε γ) (a : σ) :
    (t >>= k).prog L a = t.prog L a >>= fun r => (k r.1).prog L r.2 := by
  funext b
  show Except.map _ ((t >>= k).run L (a, b)) = (Except.map _ (t.run L (a, b))).bind _
  rw [run_bind]
  cases t.run L (a, b) with
  | error e => rfl
  | ok r => rfl

theorem prog_own (p : StateT β (Except ε) α) (a : σ) :
    (own p).prog L a = p >>= fun x => pure (x, a) := by
  funext b
  show Except.map _ ((own p).run L (a, b)) = (p b).bind _
  unfold own
  rw [run_look]
  cases p b with
  | error e => rfl
  | ok r => rfl

variable (L) in
/-- The program is `p` and leaves the first part alone. -/
def Reads (t : Task (σ × β) ε α) (p : StateT β (Except ε) α) : Prop :=
  ∀ a, t.prog L a = p >>= fun x => pure (x, a)

theorem Reads.own (p : StateT β (Except ε) α) : Reads L (Task.own p : Task (σ × β) ε α) p :=
  prog_own p

theorem Reads.pure (x : α) : Reads L (Pure.pure x : Task (σ × β) ε α) (Pure.pure x) := fun a => by
  rw [prog_pure, pure_bind]

theorem Reads.bind {t : Task (σ × β) ε α} {p : StateT β (Except ε) α}
    {k : α → Task (σ × β) ε γ} {k' : α → StateT β (Except ε) γ} (h : Reads L t p)
    (hk : ∀ x, Reads L (k x) (k' x)) : Reads L (t >>= k) (p >>= k') := fun a => by
  rw [prog_bind, h a, bind_assoc, bind_assoc]
  refine bind_congr fun x => ?_
  rw [pure_bind]
  exact hk x a

theorem Reads.ite {p : Prop} [Decidable p] {t t' : Task (σ × β) ε α}
    {x x' : StateT β (Except ε) α} (h : Reads L t x) (h' : Reads L t' x') :
    Reads L (if p then t else t') (if p then x else x') := by
  by_cases hp : p
  · rw [if_pos hp, if_pos hp]
    exact h
  · rw [if_neg hp, if_neg hp]
    exact h'

end

-- ========================================================== one section

section
variable {L : Lock σ ε} {lose : Prop}

variable (L lose) in
/-- The rest of a program that holds the lock: accesses that leave the
lock alone, then it is given back and the answer is there. If `lose`
holds it may also end without giving the lock back. -/
inductive Inside : Task σ ε ρ → Prop
  | fail (e : ε) : Inside (.fail e)
  | access {f : σ → Except ε σ} {next : σ → Task σ ε ρ}
      (hf : ∀ s s', L.free s = false → f s = .ok s' → L.free s' = false)
      (h : ∀ s, Inside (next s)) :
      Inside (.access f next)
  | unlock (r : ρ) : Inside (.unlock (.done r))
  | lost (h : lose) (r : ρ) : Inside (.done r)

variable (L lose) in
/-- A program with one section under the lock and nothing around it. -/
inductive Guarded : Task σ ε ρ → Prop
  | fail (e : ε) : Guarded (.fail e)
  | lock {next : Task σ ε ρ} (h : Inside L lose next) : Guarded (.lock next)

variable (L) in
/-- A part of a section: accesses that leave the lock alone, and a value. -/
inductive Within : Task σ ε α → Prop
  | fail (e : ε) : Within (.fail e)
  | done (a : α) : Within (.done a)
  | access {f : σ → Except ε σ} {next : σ → Task σ ε α}
      (hf : ∀ s s', L.free s = false → f s = .ok s' → L.free s' = false)
      (h : ∀ s, Within (next s)) :
      Within (.access f next)

theorem Within.pure (a : α) : Within L (Pure.pure a : Task σ ε α) := .done a

theorem Within.bind {t : Task σ ε α} {k : α → Task σ ε β} (h : Within L t)
    (hk : ∀ a, Within L (k a)) : Within L (t >>= k) := by
  induction h with
  | fail e => exact .fail e
  | done a => exact hk a
  | access hf _ ih => exact .access hf ih

theorem Within.ite {p : Prop} [Decidable p] {t t' : Task σ ε α} (h : Within L t)
    (h' : Within L t') : Within L (if p then t else t') := by
  by_cases hp : p
  · rw [if_pos hp]
    exact h
  · rw [if_neg hp]
    exact h'

theorem Within.look {p : σ → Except ε (α × σ)}
    (hp : ∀ s a s', L.free s = false → p s = .ok (a, s') → L.free s' = false) :
    Within L (Task.look p) := by
  refine .access ?_ fun s => ?_
  · intro s s' hheld h
    cases hrun : p s with
    | error e =>
        rw [hrun] at h
        cases h
    | ok r =>
        rw [hrun] at h
        cases h
        exact hp s r.1 r.2 hheld hrun
  · cases p s with
    | error e => exact .fail e
    | ok r => exact .done r.1

theorem Inside.bind {t : Task σ ε α} {k : α → Task σ ε ρ} (h : Within L t)
    (hk : ∀ a, Inside L lose (k a)) : Inside L lose (t >>= k) := by
  induction h with
  | fail e => exact .fail e
  | done a => exact hk a
  | access hf _ ih => exact .access hf ih

theorem Inside.look {p : σ → Except ε (α × σ)} {k : α → Task σ ε ρ}
    (hp : ∀ s a s', L.free s = false → p s = .ok (a, s') → L.free s' = false)
    (hk : ∀ a, Inside L lose (k a)) : Inside L lose (Task.look p >>= k) :=
  .bind (.look hp) hk

theorem Inside.ite {p : Prop} [Decidable p] {t t' : Task σ ε ρ} (h : Inside L lose t)
    (h' : Inside L lose t') : Inside L lose (if p then t else t') := by
  by_cases hp : p
  · rw [if_pos hp]
    exact h
  · rw [if_neg hp]
    exact h'

theorem Inside.check {p : Prop} [Decidable p] {e : ε} {k : Unit → Task σ ε ρ}
    (hk : Inside L lose (k ())) : Inside L lose (Task.check p e >>= k) := by
  unfold Task.check
  by_cases hp : p
  · rw [if_pos hp]
    exact hk
  · rw [if_neg hp]
    exact .fail e

theorem Inside.give (r : ρ) : Inside L lose (Task.give >>= fun _ => Pure.pure r) := .unlock r

theorem Guarded.take {k : Unit → Task σ ε ρ} (hk : Inside L lose (k ())) :
    Guarded L lose (Task.take >>= k) := .lock hk

/-- What runs through gives the lock back. -/
theorem Inside.run_free {t : Task σ ε ρ} (h : Inside L lose t) (hkeep : ¬lose) :
    ∀ {s s' : σ} {r : ρ}, L.free s = false → t.run L s = .ok (r, s') → L.free s' = true := by
  induction h with
  | fail e =>
      intro s s' r _ hrun
      cases hrun
  | @access f next hf _ ih =>
      intro s s' r hheld hrun
      unfold run at hrun
      cases hs : f s with
      | error e =>
          rw [hs] at hrun
          cases hrun
      | ok mid =>
          rw [hs] at hrun
          exact ih s (hf s mid hheld hs) hrun
  | unlock r₀ =>
      intro s s' r hheld hrun
      obtain ⟨mid, hgive, hfree⟩ := L.give_held s hheld
      unfold run at hrun
      rw [hgive] at hrun
      cases hrun
      exact hfree
  | lost h => exact absurd h hkeep

theorem Guarded.run_free {t : Task σ ε ρ} (h : Guarded L lose t) (hkeep : ¬lose) {s s' : σ} {r : ρ}
    (hs : L.free s = true) (hrun : t.run L s = .ok (r, s')) : L.free s' = true := by
  cases h with
  | fail e => cases hrun
  | lock hin =>
      obtain ⟨mid, htake, hheld⟩ := L.take_free s hs
      unfold run at hrun
      rw [htake] at hrun
      exact hin.run_free hkeep hheld hrun

/-- Before its section a program can only end the process of its own
accord. -/
theorem Guarded.turn_error {t : Task σ ε ρ} (h : Guarded L lose t) {s : σ} {e : ε}
    (ht : t.turn L s = some (.error e)) : t = .fail e := by
  cases h with
  | fail e' =>
      cases ht
      rfl
  | @lock next hin =>
      have hturn : (if L.free s then some ((L.take s).map fun s' => (next, s')) else none)
          = some (.error e) := ht
      by_cases hfree : L.free s = true
      · obtain ⟨s', htake, -⟩ := L.take_free s hfree
        rw [if_pos hfree, htake] at hturn
        cases hturn
      · rw [if_neg hfree] at hturn
        cases hturn

theorem Guarded.check {p : Prop} [Decidable p] {e : ε} {k : Unit → Task σ ε ρ}
    (hk : Guarded L lose (k ())) : Guarded L lose (Task.check p e >>= k) := by
  unfold Task.check
  by_cases hp : p
  · rw [if_pos hp]
    exact hk
  · rw [if_neg hp]
    exact .fail e

end

section
variable {β : Type} {L : Lock (σ × β) ε} {lose : Prop}

/-- The lock is no matter of the second part. -/
theorem Within.own (hfree : ∀ a b b', L.free (a, b') = L.free (a, b))
    (p : StateT β (Except ε) α) : Within L (Task.own p : Task (σ × β) ε α) := by
  refine .look fun s a s' hheld hrun => ?_
  cases hp : p s.2 with
  | error e =>
      rw [hp] at hrun
      cases hrun
  | ok r =>
      rw [hp] at hrun
      cases hrun
      exact (hfree s.1 s.2 r.2).trans hheld

theorem Inside.own (hfree : ∀ a b b', L.free (a, b') = L.free (a, b))
    {p : StateT β (Except ε) α} {k : α → Task (σ × β) ε ρ} (hk : ∀ a, Inside L lose (k a)) :
    Inside L lose (Task.own p >>= k) :=
  .bind (.own hfree p) hk

end

end Task

end CephInC.Lib
