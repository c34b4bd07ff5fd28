/-
Every thread has a request of its own.

`AddrOk` holds of the threads in every state reached, whatever the
acknowledgements are: a new request gets an address that no thread had
before, and from then on a thread keeps its address or drops it.
-/
import CephInC.Client.Proofs.Step

namespace CephInC

open Lib

theorem Caller.wake_addr (caller : Caller) : caller.wake.addr = caller.addr := by
  cases caller <;> rfl

def addrAt (threads : List Caller) (t : Nat) : Option Nat :=
  threads[t]?.bind Caller.addr

/-- Every request has one thread, and an address handed out before. -/
structure AddrOk (made : Nat) (threads : List Caller) : Prop where
  below : ∀ t addr, addrAt threads t = some addr → addr < made
  alone : ∀ t u addr, addrAt threads t = some addr → addrAt threads u = some addr → t = u

theorem addrAt_set {threads : List Caller} {t u : Nat} {caller caller' : Caller}
    (hmine : threads[t]? = some caller) :
    addrAt (threads.set t caller') u
      = if u = t then caller'.addr else addrAt threads u := by
  unfold addrAt
  rcases eq_or_ne u t with rfl | hne
  · obtain ⟨hlt, -⟩ := List.getElem?_eq_some_iff.mp hmine
    rw [if_pos rfl, List.getElem?_set_self hlt]
    rfl
  · rw [if_neg hne, List.getElem?_set_ne hne.symm]

namespace AddrOk

variable {made : Nat} {threads : List Caller} {t : Nat} {caller caller' : Caller}

/-- A thread moves on with its request, or without. -/
theorem keep (h : AddrOk made threads) (hmine : threads[t]? = some caller)
    (haddr : ∀ addr, caller'.addr = some addr → caller.addr = some addr) :
    AddrOk made (threads.set t caller') := by
  have hold : ∀ u addr, addrAt (threads.set t caller') u = some addr →
      addrAt threads u = some addr := by
    intro u addr hu
    rw [addrAt_set hmine] at hu
    split_ifs at hu with hut
    · subst hut
      unfold addrAt
      rw [hmine]
      exact haddr addr hu
    · exact hu
  exact ⟨fun u addr hu => h.below u addr (hold u addr hu),
    fun u v addr hu hv => h.alone u v addr (hold u addr hu) (hold v addr hv)⟩

/-- A thread gets a new request. -/
theorem fresh (h : AddrOk made threads) (hmine : threads[t]? = some caller)
    (haddr : caller'.addr = some made) : AddrOk (made + 1) (threads.set t caller') := by
  have hcases : ∀ u addr, addrAt (threads.set t caller') u = some addr →
      u = t ∧ addr = made ∨ addrAt threads u = some addr ∧ addr < made := by
    intro u addr hu
    rw [addrAt_set hmine] at hu
    split_ifs at hu with hut
    · rw [haddr] at hu
      cases hu
      exact .inl ⟨hut, rfl⟩
    · exact .inr ⟨hu, h.below u addr hu⟩
  constructor
  · intro u addr hu
    rcases hcases u addr hu with ⟨-, rfl⟩ | ⟨-, hlt⟩
    · exact Nat.lt_succ_self _
    · exact Nat.lt_succ_of_lt hlt
  · intro u v addr hu hv
    rcases hcases u addr hu with ⟨rfl, rfl⟩ | ⟨hu, hlt⟩
    · rcases hcases v addr hv with ⟨rfl, -⟩ | ⟨-, hlt⟩
      · rfl
      · exact absurd hlt (Nat.lt_irrefl _)
    · rcases hcases v addr hv with ⟨-, rfl⟩ | ⟨hv, -⟩
      · exact absurd hlt (Nat.lt_irrefl _)
      · exact h.alone u v addr hu hv

theorem signal (h : AddrOk made threads) {woken : List Nat} {threads' : List Caller}
    (hsignal : pthreadCondSignal threads woken = some threads') :
    AddrOk made threads' := by
  have hsame : ∀ u, addrAt threads' u = addrAt threads u := by
    intro u
    unfold pthreadCondSignal at hsignal
    split_ifs at hsignal
    cases hsignal
    unfold addrAt
    rw [List.getElem?_mapIdx]
    cases threads[u]? with
    | none => rfl
    | some caller =>
        show (if u ∈ woken then caller.wake else caller).addr = caller.addr
        split_ifs
        · exact caller.wake_addr
        · rfl
  exact ⟨fun u addr hu => h.below u addr (by rw [← hsame u]; exact hu),
    fun u v addr hu hv => h.alone u v addr (by rw [← hsame u]; exact hu)
      (by rw [← hsame v]; exact hv)⟩

theorem start (n : Nat) : AddrOk 0 (List.replicate n .idle) := by
  have hnone : ∀ t addr, addrAt (List.replicate n .idle) t ≠ some addr := by
    intro t addr h
    obtain ⟨caller, hcaller, haddr⟩ := Option.bind_eq_some_iff.mp h
    rw [List.eq_of_mem_replicate (List.mem_of_getElem? hcaller)] at haddr
    cases haddr
  exact ⟨fun t addr h => absurd h (hnone t addr),
    fun t u addr h => absurd h (hnone t addr)⟩

theorem step {check : Bool} {s s' : Calls} (h : AddrOk s.made.length s.threads)
    {act : CallAct} (hstep : callStep check s act = some s') :
    AddrOk s'.made.length s'.threads := by
  cases callStep_spec hstep with
  | call t logId oid offset length data hmine =>
      show AddrOk (s.made ++ [_]).length _
      rw [List.length_append]
      exact h.fresh hmine rfl
  | addReq t addr req hmine => exact h.keep hmine fun _ haddr => haddr
  | send t ret addr req i n n' hmine _ => exact h.keep hmine fun _ haddr => haddr
  | refused t addr req i n hmine => exact h.keep hmine nofun
  | wait t addr req i n hmine => exact h.keep hmine fun _ haddr => haddr
  | finish act t addr req caller w _ _ hmine _ _ => exact h.keep hmine nofun
  | block t addr req hmine _ => exact h.keep hmine fun _ haddr => haddr
  | again t addr req hmine => exact h.keep hmine fun _ haddr => haddr
  | ignored ack woken => exact h
  | counted ack woken pre w post signal threads _ _ _ hthreads =>
      split_ifs at hthreads
      · exact h.signal hthreads
      · rw [hthreads]
        exact h

end AddrOk

end CephInC
