/-
Calls on an object, one after the other, up to the first that does not
return.

`callsInTurn` makes them on the code of the object, `InTurn` says what
they may come to by a relation that tells it of one call. If one call
comes out as the relation says, and leaves the object as something that
the relation can go on from, then so do calls in turn
(`callsInTurn_seen`). The induction is made here once for all objects.
-/
namespace CephInC.Lib

variable {σ S ι ρ α ε τ : Type}

/-- Call after call. `run` is the code of one, which may use a state `τ`
that is not the object's. -/
def callsInTurn (run : σ → ι → StateT τ (Except ε) (ρ × σ)) :
    List ι → σ → StateT τ (Except ε) (List ρ × σ)
  | [], object => return ([], object)
  | c :: calls, object => do
      let (answer, object) ← run object c
      let (answers, object) ← callsInTurn run calls object
      return (answer :: answers, object)

/-- What the calls can come to, where `R s c x` says it of the call `c`
from `s`. -/
inductive InTurn (R : S → ι → Except ε (α × S) → Prop) :
    S → List ι → Except ε (List α × S) → Prop
  | nil (s : S) : InTurn R s [] (.ok ([], s))
  | fault {s : S} {c : ι} {calls : List ι} {e : ε} (h : R s c (.error e)) :
      InTurn R s (c :: calls) (.error e)
  | cons {s s' : S} {c : ι} {calls : List ι} {a : α} {x : Except ε (List α × S)}
      (h : R s c (.ok (a, s'))) (hrest : InTurn R s' calls x) :
      InTurn R s (c :: calls) (x.map fun r => (a :: r.1, r.2))

/-- What came of a call, or of calls, is one of the things that `P` allows,
seen through `see`; the object it left holds what `P` leaves, and the
other state is as it was. -/
def Seen (P : Except ε (α × S) → Prop) (holds : σ → S → Prop) (see : ρ → α) (t : τ) :
    Except ε ((ρ × σ) × τ) → Prop
  | .error e => P (.error e)
  | .ok ((answer, object), t') => t' = t ∧ ∃ s, P (.ok (see answer, s)) ∧ holds object s

theorem callsInTurn_seen {R : S → ι → Except ε (α × S) → Prop} {holds : σ → S → Prop}
    {see : ρ → α} {t : τ} {good : ι → Prop} {run : σ → ι → StateT τ (Except ε) (ρ × σ)}
    (hrun : ∀ object s c, holds object s → good c → Seen (R s c) holds see t (run object c t)) :
    ∀ (calls : List ι) {object : σ} {s : S}, holds object s → (∀ c ∈ calls, good c) →
      Seen (InTurn R s calls) holds (List.map see) t (callsInTurn run calls object t)
  | [], object, s, hs, _ => ⟨rfl, s, .nil s, hs⟩
  | c :: calls, object, s, hs, hgood => by
      have hone := hrun object s c hs (hgood c List.mem_cons_self)
      show Seen _ _ _ _ ((run object c t).bind _)
      cases hx : run object c t with
      | error e =>
          rw [hx] at hone
          exact .fault hone
      | ok r =>
          obtain ⟨⟨answer, object'⟩, t'⟩ := r
          rw [hx] at hone
          obtain ⟨rfl, s', hR, hs'⟩ := hone
          have hrest := callsInTurn_seen hrun calls hs' fun c hc =>
            hgood c (List.mem_cons_of_mem _ hc)
          show Seen _ _ _ _ ((callsInTurn run calls object' t').bind _)
          cases hy : callsInTurn run calls object' t' with
          | error e =>
              rw [hy] at hrest
              exact .cons hR hrest
          | ok r =>
              obtain ⟨⟨answers, object''⟩, t''⟩ := r
              rw [hy] at hrest
              obtain ⟨rfl, s'', hall, hs''⟩ := hrest
              exact ⟨rfl, s'', .cons hR hall, hs''⟩

end CephInC.Lib
