/-
Two runs that go the same way.

A program over a state can end in an error. Two runs are alike if they
end in the same error, or return from the same state with values that
are related. Sequencing keeps this (`Alike.bind`), so that two programs
are compared call by call.
-/
namespace CephInC.Lib

variable {ε σ α β α' β' : Type}

/-- The same error, or related values and the same state. -/
inductive Alike (R : α → α' → Prop) : Except ε (α × σ) → Except ε (α' × σ) → Prop
  | error (e : ε) : Alike R (.error e) (.error e)
  | ok {a : α} {a' : α'} (s : σ) (h : R a a') : Alike R (.ok (a, s)) (.ok (a', s))

namespace Alike

variable {R : α → α' → Prop} {Q : β → β' → Prop}

theorem bind {x : StateT σ (Except ε) α} {x' : StateT σ (Except ε) α'}
    {f : α → StateT σ (Except ε) β} {f' : α' → StateT σ (Except ε) β'} {s : σ}
    (hx : Alike R (x s) (x' s))
    (hf : ∀ a a', R a a' → ∀ s, Alike Q (f a s) (f' a' s)) :
    Alike Q ((x >>= f) s) ((x' >>= f') s) := by
  show Alike Q (x s >>= fun r => f r.1 r.2) (x' s >>= fun r => f' r.1 r.2)
  generalize x s = y at hx
  generalize x' s = y' at hx
  cases hx with
  | error e => exact .error e
  | ok s h => exact hf _ _ h s

end Alike

end CephInC.Lib
