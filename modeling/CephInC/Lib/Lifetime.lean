/-
When a listed record may be freed.

Records are kept in a list under a readers-writer lock, and each has a
lock of its own. A thread finds a record while it has the list, takes
the record's lock, and only then gives the list back. Whoever frees a
record takes it off the list first, waits for its lock, gives that back
and frees it.

A `Role` is what a thread has in its hands at a point of this protocol,
and a `Step` is what it can do from there. `Safe` is the invariant. Its
use is `Safe.live_of_names`: a record that a role names has not been
freed.
-/
import CephInC.Lib.RwLock
import Mathlib.Data.Set.Insert
import Mathlib.Logic.Function.Basic

namespace CephInC.Lib

inductive Role (ρ : Type) where
  | out
  /-- It has the list, and knows `seen` to be in it. -/
  | look (access : Access) (seen : Option ρ)
  /-- It has the list and the record. -/
  | keep (a : ρ)
  /-- It has the record. -/
  | use (a : ρ)
  /-- The record is off the list, for this thread alone to find. -/
  | own (a : ρ) (access : Option Access)
  /-- The same, and it has the record. -/
  | close (a : ρ)
  /-- The same, the record's lock given back for good. -/
  | last (a : ρ)

/-- Threads of the type `τ` on records of the type `ρ`. -/
structure Lifetime (τ ρ : Type) where
  listed : List ρ
  made : Set ρ
  freed : List ρ
  list : RwLock τ
  lock : ρ → Option τ
  role : τ → Role ρ

namespace Role

variable {ρ : Type}

/-- The record that only this thread can find. -/
def owns : Role ρ → Option ρ
  | own a _ => some a
  | close a => some a
  | last a => some a
  | _ => none

/-- The record the thread relies on. -/
def names : Role ρ → Option ρ
  | out => none
  | look _ seen => seen
  | keep a => some a
  | use a => some a
  | own a _ => some a
  | close a => some a
  | last a => some a

/-- What the thread has of the list. -/
def access : Role ρ → Option Access
  | look access _ => some access
  | keep _ => some .read
  | own _ access => access
  | _ => none

/-- The two roles are not to be had at once. -/
def Clash (r r' : Role ρ) : Prop :=
  (∃ a, r.owns = some a ∧ r'.owns = some a) ∨ ∃ a, r = last a ∧ r' = use a

end Role

namespace Lifetime

variable {τ ρ : Type} [DecidableEq τ]

def set (s : Lifetime τ ρ) (t : τ) (r : Role ρ) : Lifetime τ ρ :=
  { s with role := Function.update s.role t r }

-- ============================================================ invariant

/-- The record is there, and not in the list. -/
def Off (s : Lifetime τ ρ) (a : ρ) : Prop := a ∈ s.made ∧ a ∉ s.listed ∧ a ∉ s.freed

/-- What the shared state is to a thread in the role. -/
def RoleOk (s : Lifetime τ ρ) (t : τ) (r : Role ρ) : Prop :=
  s.list.access t = r.access ∧
    match r with
    | .out => True
    | .look _ seen => ∀ a ∈ seen, a ∈ s.listed
    | .keep a => s.lock a = some t ∧ a ∈ s.listed
    | .use a => s.lock a = some t ∧ a ∈ s.made ∧ a ∉ s.freed
    | .own a _ => s.Off a
    | .close a => s.lock a = some t ∧ s.Off a
    | .last a => s.Off a

/-- What `t` has, or knows, when it goes over to one of the two roles that
clash. -/
def Reaches (s : Lifetime τ ρ) (t : τ) : Role ρ → Prop
  | .last a => s.lock a = some t
  | .use a => a ∈ s.listed
  | _ => True

structure Safe (s : Lifetime τ ρ) : Prop where
  distinct : s.listed.Nodup
  live : ∀ a ∈ s.listed, a ∈ s.made ∧ a ∉ s.freed
  once : s.freed.Nodup
  old : ∀ a ∈ s.freed, a ∈ s.made
  roles : ∀ t, s.RoleOk t (s.role t)
  apart : ∀ t u, t ≠ u → ¬(s.role t).Clash (s.role u)

variable {s s' : Lifetime τ ρ} {t u : τ} {r r' : Role ρ}

/-- What a role says of its own record, in one place. -/
theorem RoleOk.off {a : ρ} (h : s.RoleOk t r) (ha : r.owns = some a) : s.Off a := by
  cases r with
  | own b access => cases ha; exact h.2
  | close b => cases ha; exact h.2.2
  | last b => cases ha; exact h.2
  | out => cases ha
  | look access seen => cases ha
  | keep b => cases ha
  | use b => cases ha

/-- A role survives what the other threads do, as long as they keep off
what it has. -/
theorem RoleOk.frame (h : s.RoleOk u r)
    (haccess : s'.list.access u = s.list.access u)
    (hlock : ∀ a, s.lock a = some u → s'.lock a = some u)
    (hlisted : s.list.access u ≠ none → ∀ a ∈ s.listed, a ∈ s'.listed)
    (hoff : ∀ a, r.owns = some a → s.Off a → s'.Off a)
    (huse : ∀ a, r = .use a → a ∈ s.made ∧ a ∉ s.freed → a ∈ s'.made ∧ a ∉ s'.freed) :
    s'.RoleOk u r := by
  obtain ⟨hr, h⟩ := h
  refine ⟨haccess.trans hr, ?_⟩
  cases r with
  | out => trivial
  | look access seen =>
      have hhas : s.list.access u ≠ none := by
        rw [hr]
        exact Option.some_ne_none access
      exact fun a ha => hlisted hhas a (h a ha)
  | keep a =>
      have hhas : s.list.access u ≠ none := by
        rw [hr]
        exact Option.some_ne_none Access.read
      exact ⟨hlock a h.1, hlisted hhas a h.2⟩
  | use a => exact ⟨hlock a h.1, huse a rfl h.2⟩
  | own a access => exact hoff a rfl h
  | close a => exact ⟨hlock a h.1, hoff a rfl h.2⟩
  | last a => exact hoff a rfl h

/-- A thread changes its role: what has to be shown of it, and of the
others. -/
theorem Safe.change (h : s.Safe) (hrole : s'.role = Function.update s.role t r)
    (hdistinct : s'.listed.Nodup)
    (hlive : ∀ a ∈ s'.listed, a ∈ s'.made ∧ a ∉ s'.freed)
    (honce : s'.freed.Nodup) (hold : ∀ a ∈ s'.freed, a ∈ s'.made)
    (hself : s'.RoleOk t r)
    (hothers : ∀ u, u ≠ t → s.RoleOk u (s.role u) → s'.RoleOk u (s.role u))
    (hclash : ∀ u, u ≠ t → ¬r.Clash (s.role u) ∧ ¬(s.role u).Clash r) : s'.Safe := by
  refine ⟨hdistinct, hlive, honce, hold, ?_, ?_⟩
  · intro u
    rw [hrole]
    by_cases hu : u = t
    · rw [hu, Function.update_self]
      exact hself
    · rw [Function.update_of_ne hu]
      exact hothers u hu (h.roles u)
  · intro u v hne
    rw [hrole]
    by_cases hu : u = t
    · have hv : v ≠ t := fun hv => hne (hu.trans hv.symm)
      rw [hu, Function.update_self, Function.update_of_ne hv]
      exact (hclash v hv).1
    · rw [Function.update_of_ne hu]
      by_cases hv : v = t
      · rw [hv, Function.update_self]
        exact (hclash u hu).2
      · rw [Function.update_of_ne hv]
        exact h.apart u v hne

/-- The same where the thread only takes or gives locks. -/
theorem Safe.relock (h : s.Safe) {list : RwLock τ} {lock : ρ → Option τ}
    (haccess : ∀ u, u ≠ t → list.access u = s.list.access u)
    (hlock : ∀ u, u ≠ t → ∀ a, s.lock a = some u → lock a = some u)
    (hself : RoleOk { s.set t r with list := list, lock := lock } t r)
    (hclash : ∀ u, u ≠ t → ¬r.Clash (s.role u) ∧ ¬(s.role u).Clash r) :
    Safe { s.set t r with list := list, lock := lock } := by
  refine Safe.change h rfl h.distinct h.live h.once h.old hself ?_ hclash
  intro u hu hok
  apply hok.frame (haccess u hu) (hlock u hu)
  · exact fun _ a ha => ha
  · exact fun a _ hoff => hoff
  · exact fun a _ huse => huse

/-- A role that takes up no new record clashes with no other. -/
theorem Safe.not_clash (h : s.Safe) (howns : r.owns = none ∨ r.owns = (s.role t).owns)
    (hr : s.Reaches t r) :
    ∀ u, u ≠ t → ¬r.Clash (s.role u) ∧ ¬(s.role u).Clash r := by
  have hboth : ∀ u a, u ≠ t → r.owns = some a → (s.role u).owns ≠ some a := by
    intro u a hu ha hua
    rcases howns with hnone | hsame
    · rw [hnone] at ha
      cases ha
    · exact h.apart u t hu (.inl ⟨a, hua, hsame.symm.trans ha⟩)
  intro u hu
  constructor
  · intro hclash
    rcases hclash with ⟨a, ha, hua⟩ | ⟨a, rfl, hua⟩
    · exact hboth u a hu ha hua
    · -- the other has the record, whose lock is with this one
      have hok := h.roles u
      rw [hua] at hok
      have hlock : s.lock a = some u := hok.2.1
      have hr : s.lock a = some t := hr
      rw [hr] at hlock
      exact hu (Option.some.inj hlock).symm
  · intro hclash
    rcases hclash with ⟨a, hua, ha⟩ | ⟨a, hua, rfl⟩
    · exact hboth u a hu ha hua
    · have hoff : s.Off a := (h.roles u).off (by rw [hua]; rfl)
      exact hoff.2.1 hr

omit [DecidableEq τ] in
/-- A record nobody owns can be owned. -/
theorem not_clash_own {a : ρ} {access : Option Access}
    (h : ∀ u, (s.role u).owns ≠ some a) :
    ∀ u, u ≠ t → ¬(Role.own a access).Clash (s.role u)
      ∧ ¬(s.role u).Clash (Role.own a access) := by
  intro u _
  constructor
  · intro hclash
    rcases hclash with ⟨b, hb, hub⟩ | ⟨b, hb, -⟩
    · cases hb
      exact h u hub
    · cases hb
  · intro hclash
    rcases hclash with ⟨b, hub, hb⟩ | ⟨b, -, hb⟩
    · cases hb
      exact h u hub
    · cases hb

/-- What a thread relies on has not been freed. -/
theorem Safe.live_of_names {a : ρ} (h : s.Safe) (ha : (s.role t).names = some a) :
    a ∉ s.freed := by
  have hok := h.roles t
  cases hrole : s.role t with
  | out =>
      rw [hrole] at ha
      cases ha
  | look access seen =>
      rw [hrole] at ha hok
      exact (h.live a (hok.2 a ha)).2
  | keep b =>
      rw [hrole] at ha hok
      cases ha
      exact (h.live a hok.2.2).2
  | use b =>
      rw [hrole] at ha hok
      cases ha
      exact hok.2.2.2
  | own b access =>
      rw [hrole] at ha hok
      cases ha
      exact hok.2.2.2
  | close b =>
      rw [hrole] at ha hok
      cases ha
      exact hok.2.2.2.2
  | last b =>
      rw [hrole] at ha hok
      cases ha
      exact hok.2.2.2

/-- A record has one user. -/
theorem Safe.one_user {a : ρ} (h : s.Safe) (ht : s.role t = .use a)
    (hu : s.role u = .use a) : t = u := by
  have hok := h.roles t
  have hok' := h.roles u
  rw [ht] at hok
  rw [hu] at hok'
  exact Option.some.inj (hok.2.1.symm.trans hok'.2.1)

/-- While a record is in use nobody is closing it. -/
theorem Safe.not_closing {a : ρ} (h : s.Safe) (ht : s.role t = .use a) :
    s.role u ≠ .close a ∧ s.role u ≠ .last a := by
  have hok := h.roles t
  rw [ht] at hok
  have hlock : s.lock a = some t := hok.2.1
  have hne : ∀ {r : Role ρ}, s.role u = r → r ≠ .use a → u ≠ t := by
    intro r hu hr htu
    rw [htu, ht] at hu
    exact hr hu.symm
  constructor
  · intro hu
    have hok' := h.roles u
    rw [hu] at hok'
    have hlock' : s.lock a = some u := hok'.2.1
    rw [hlock] at hlock'
    exact hne hu nofun (Option.some.inj hlock').symm
  · intro hu
    exact h.apart u t (hne hu nofun) (.inr ⟨a, hu, ht⟩)

/-- A record has one owner. -/
theorem Safe.alone {a b : ρ} (h : s.Safe) (hrole : (s.role t).owns = some a)
    (hu : u ≠ t) (hb : (s.role u).owns = some b) : b ≠ a := by
  intro hba
  rw [hba] at hb
  exact h.apart u t hu (.inl ⟨a, hb, hrole⟩)

/-- The record is freed. -/
theorem Safe.free {a : ρ} (h : s.Safe) (hrole : s.role t = .last a) :
    Safe { s.set t .out with freed := a :: s.freed } := by
  have hok := h.roles t
  rw [hrole] at hok
  obtain ⟨hnone, hmade, hoff, hlive⟩ := hok
  have hne : ∀ b ∈ s.listed, b ≠ a := fun b hb hba => hoff (hba ▸ hb)
  refine Safe.change h rfl h.distinct ?_ (List.nodup_cons.mpr ⟨hlive, h.once⟩) ?_ ?_ ?_ ?_
  · intro b hb
    refine ⟨(h.live b hb).1, ?_⟩
    exact List.not_mem_cons_of_ne_of_not_mem (hne b hb) (h.live b hb).2
  · exact List.forall_mem_cons.mpr ⟨hmade, h.old⟩
  · exact ⟨hnone, trivial⟩
  · intro u hu hother
    apply hother.frame
    · rfl
    · exact fun _ hb => hb
    · exact fun _ b hb => hb
    · intro b hb hoff'
      have hba : b ≠ a := h.alone (by rw [hrole]; rfl) hu hb
      exact ⟨hoff'.1, hoff'.2.1, List.not_mem_cons_of_ne_of_not_mem hba hoff'.2.2⟩
    · intro b hb huse
      have hba : b ≠ a := by
        intro hba
        rw [hba] at hb
        exact h.apart t u hu.symm (.inr ⟨a, hrole, hb⟩)
      exact ⟨huse.1, List.not_mem_cons_of_ne_of_not_mem hba huse.2⟩
  · exact h.not_clash (.inl rfl) trivial

/-- A record is made. -/
theorem Safe.make {a : ρ} (h : s.Safe) (hrole : s.role t = .out) (hnew : a ∉ s.made) :
    Safe { s.set t (.own a none) with made := insert a s.made } := by
  have hok := h.roles t
  rw [hrole] at hok
  have hlisted : a ∉ s.listed := fun ha => hnew (h.live a ha).1
  have hfreed : a ∉ s.freed := fun ha => hnew (h.old a ha)
  refine Safe.change h rfl h.distinct ?_ h.once ?_ ?_ ?_ ?_
  · exact fun b hb => ⟨Set.mem_insert_of_mem a (h.live b hb).1, (h.live b hb).2⟩
  · exact fun b hb => Set.mem_insert_of_mem a (h.old b hb)
  · exact ⟨hok.1, Set.mem_insert a s.made, hlisted, hfreed⟩
  · intro u hu hother
    apply hother.frame
    · rfl
    · exact fun _ hb => hb
    · exact fun _ b hb => hb
    · exact fun b _ hoff => ⟨Set.mem_insert_of_mem a hoff.1, hoff.2⟩
    · exact fun b _ huse => ⟨Set.mem_insert_of_mem a huse.1, huse.2⟩
  · exact not_clash_own fun u ha => hnew ((h.roles u).off ha).1

/-- The record goes into the list. -/
theorem Safe.add {a : ρ} (h : s.Safe) (hrole : s.role t = .own a (some .write)) :
    Safe { s.set t (.look .write none) with listed := a :: s.listed } := by
  have hok := h.roles t
  rw [hrole] at hok
  obtain ⟨hwrite, hmade, hoff, hlive⟩ := hok
  refine Safe.change h rfl (List.nodup_cons.mpr ⟨hoff, h.distinct⟩) ?_ h.once h.old ?_ ?_ ?_
  · exact List.forall_mem_cons.mpr ⟨⟨hmade, hlive⟩, h.live⟩
  · exact ⟨hwrite, fun b hb => by cases hb⟩
  · intro u hu hother
    apply hother.frame
    · rfl
    · exact fun _ hb => hb
    · exact fun _ b hb => List.mem_cons_of_mem a hb
    · intro b hb hoff'
      have hba : b ≠ a := h.alone (by rw [hrole]; rfl) hu hb
      exact ⟨hoff'.1, List.not_mem_cons_of_ne_of_not_mem hba hoff'.2.1, hoff'.2.2⟩
    · exact fun b _ huse => huse
  · exact h.not_clash (.inl rfl) trivial

-- ================================================================ steps

variable [DecidableEq ρ]

/-- What `t` can do. -/
inductive Step (s : Lifetime τ ρ) (t : τ) : Lifetime τ ρ → Prop
  | enter {access : Access} {list : RwLock τ} (h : s.role t = .out)
      (hlist : s.list.take t access = some list) :
      Step s t { s.set t (.look access none) with list := list }
  | see {access : Access} {seen seen' : Option ρ}
      (h : s.role t = .look access seen) (hseen : ∀ a ∈ seen', a ∈ s.listed) :
      Step s t (s.set t (.look access seen'))
  | leave {access : Access} {seen : Option ρ} (h : s.role t = .look access seen) :
      Step s t { s.set t .out with list := s.list.unlock t }
  | grab {a : ρ} (h : s.role t = .look .read (some a)) (hfree : s.lock a = none) :
      Step s t { s.set t (.keep a) with lock := Function.update s.lock a (some t) }
  | pass {a : ρ} (h : s.role t = .keep a) :
      Step s t { s.set t (.use a) with list := s.list.unlock t }
  | drop {a : ρ} (h : s.role t = .use a) :
      Step s t { s.set t .out with lock := Function.update s.lock a none }
  | unlist {a : ρ} (h : s.role t = .look .write (some a)) :
      Step s t { s.set t (.own a (some .write)) with listed := s.listed.erase a }
  | part {a : ρ} (h : s.role t = .own a (some .write)) :
      Step s t { s.set t (.own a none) with list := s.list.unlock t }
  | seize {a : ρ} (h : s.role t = .own a none) (hfree : s.lock a = none) :
      Step s t { s.set t (.close a) with lock := Function.update s.lock a (some t) }
  | settle {a : ρ} (h : s.role t = .close a) :
      Step s t { s.set t (.last a) with lock := Function.update s.lock a none }
  | free {a : ρ} (h : s.role t = .last a) :
      Step s t { s.set t .out with freed := a :: s.freed }
  | make {a : ρ} (h : s.role t = .out) (hnew : a ∉ s.made) :
      Step s t { s.set t (.own a none) with made := insert a s.made }
  | claim {a : ρ} {list : RwLock τ} (h : s.role t = .own a none)
      (hlist : s.list.take t .write = some list) :
      Step s t { s.set t (.own a (some .write)) with list := list }
  | add {a : ρ} (h : s.role t = .own a (some .write)) :
      Step s t { s.set t (.look .write none) with listed := a :: s.listed }

omit [DecidableEq τ] in
/-- No other thread has a lock that is free, or that this one has. -/
theorem update_lock {lock : ρ → Option τ} {a : ρ} (o : Option τ)
    (h : lock a = none ∨ lock a = some t) :
    ∀ u, u ≠ t → ∀ b, lock b = some u → Function.update lock a o b = some u := by
  intro u hu b hb
  by_cases hba : b = a
  · rw [hba] at hb
    rcases h with h | h
    · rw [h] at hb
      cases hb
    · rw [h] at hb
      exact absurd (Option.some.inj hb).symm hu
  · rw [Function.update_of_ne hba]
    exact hb

/-- The record comes off the list. -/
theorem Safe.unlist {a : ρ} (h : s.Safe) (hrole : s.role t = .look .write (some a)) :
    Safe { s.set t (.own a (some .write)) with listed := s.listed.erase a } := by
  have hok := h.roles t
  rw [hrole] at hok
  have hlisted : a ∈ s.listed := hok.2 a rfl
  refine Safe.change h rfl (h.distinct.erase a)
    (fun b hb => h.live b (List.mem_of_mem_erase hb)) h.once h.old ?_ ?_ ?_
  · refine ⟨hok.1, (h.live a hlisted).1, h.distinct.not_mem_erase, (h.live a hlisted).2⟩
  · intro u hu hother
    apply hother.frame
    · rfl
    · exact fun _ hb => hb
    · -- no other thread has the list
      exact fun hhas => absurd (RwLock.access_alone hok.1 hu) hhas
    · exact fun b _ hoff => ⟨hoff.1, fun hb => hoff.2.1 (List.mem_of_mem_erase hb), hoff.2.2⟩
    · exact fun b _ huse => huse
  · exact not_clash_own fun u ha => ((h.roles u).off ha).2.1 hlisted

theorem Step.safe (h : s.Safe) (hstep : s.Step t s') : s'.Safe := by
  have hok := h.roles t
  cases hstep with
  | @enter access list hrole hlist =>
      obtain ⟨-, hhas, hothers⟩ := RwLock.take_access hlist
      apply h.relock hothers (fun _ _ _ hb => hb)
      · exact ⟨hhas, fun a ha => by cases ha⟩
      · exact h.not_clash (.inl rfl) trivial
  | @see access seen seen' hrole hseen =>
      rw [hrole] at hok
      apply h.relock (fun _ _ => rfl) (fun _ _ _ hb => hb)
      · exact ⟨hok.1, hseen⟩
      · exact h.not_clash (.inl rfl) trivial
  | @leave access seen hrole =>
      obtain ⟨hhas, hothers⟩ := s.list.unlock_access t
      apply h.relock hothers (fun _ _ _ hb => hb)
      · exact ⟨hhas, trivial⟩
      · exact h.not_clash (.inl rfl) trivial
  | @grab a hrole hfree =>
      rw [hrole] at hok
      apply h.relock (fun _ _ => rfl) (update_lock _ (.inl hfree))
      · exact ⟨hok.1, Function.update_self .., hok.2 a rfl⟩
      · exact h.not_clash (.inl rfl) trivial
  | @pass a hrole =>
      rw [hrole] at hok
      obtain ⟨-, hlock, hlisted⟩ := hok
      obtain ⟨hhas, hothers⟩ := s.list.unlock_access t
      apply h.relock hothers (fun _ _ _ hb => hb)
      · exact ⟨hhas, hlock, h.live a hlisted⟩
      · exact h.not_clash (.inl rfl) hlisted
  | @drop a hrole =>
      rw [hrole] at hok
      apply h.relock (fun _ _ => rfl) (update_lock _ (.inr hok.2.1))
      · exact ⟨hok.1, trivial⟩
      · exact h.not_clash (.inl rfl) trivial
  | @unlist a hrole => exact h.unlist hrole
  | @part a hrole =>
      rw [hrole] at hok
      obtain ⟨hhas, hothers⟩ := s.list.unlock_access t
      apply h.relock hothers (fun _ _ _ hb => hb)
      · exact ⟨hhas, hok.2⟩
      · exact h.not_clash (.inr (by rw [hrole]; rfl)) trivial
  | @seize a hrole hfree =>
      rw [hrole] at hok
      apply h.relock (fun _ _ => rfl) (update_lock _ (.inl hfree))
      · exact ⟨hok.1, Function.update_self .., hok.2⟩
      · exact h.not_clash (.inr (by rw [hrole]; rfl)) trivial
  | @settle a hrole =>
      rw [hrole] at hok
      obtain ⟨hnone, hlock, hoff⟩ := hok
      apply h.relock (fun _ _ => rfl) (update_lock _ (.inr hlock))
      · exact ⟨hnone, hoff⟩
      · exact h.not_clash (.inr (by rw [hrole]; rfl)) hlock
  | @free a hrole => exact h.free hrole
  | @make a hrole hnew => exact h.make hrole hnew
  | @claim a list hrole hlist =>
      rw [hrole] at hok
      obtain ⟨-, hhas, hothers⟩ := RwLock.take_access hlist
      apply h.relock hothers (fun _ _ _ hb => hb)
      · exact ⟨hhas, hok.2⟩
      · exact h.not_clash (.inr (by rw [hrole]; rfl)) trivial
  | @add a hrole => exact h.add hrole

-- ============================================================= closing

theorem Step.role_other (h : s.Step t s') (hu : u ≠ t) : s'.role u = s.role u := by
  cases h <;> exact Function.update_of_ne hu ..

theorem Step.freed_mono (h : s.Step t s') : ∀ a ∈ s.freed, a ∈ s'.freed := by
  intro a ha
  cases h with
  | free => exact List.mem_cons_of_mem _ ha
  | _ => exact ha

/-- Who closes a record goes on to free it. -/
theorem Step.closing {a : ρ} (h : s.Step t s')
    (ha : s.role u = .close a ∨ s.role u = .last a) :
    s'.role u = .close a ∨ s'.role u = .last a ∨ a ∈ s'.freed := by
  by_cases hu : u = t
  · rw [hu] at ha ⊢
    have hrole : ∀ {r : Role ρ}, s.role t = r → r = .close a ∨ r = .last a := by
      intro r hr
      rw [hr] at ha
      exact ha
    cases h with
    | settle h =>
        rcases hrole h with h | h <;> cases h
        exact .inr (.inl (Function.update_self ..))
    | free h =>
        rcases hrole h with h | h <;> cases h
        exact .inr (.inr List.mem_cons_self)
    | _ h => rcases hrole h with h | h <;> cases h
  · rw [h.role_other hu]
    rcases ha with ha | ha
    · exact .inl ha
    · exact .inr (.inl ha)

end Lifetime

end CephInC.Lib
