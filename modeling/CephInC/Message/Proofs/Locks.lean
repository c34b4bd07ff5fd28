/-
No connection is touched after it has been freed.

A point gives its thread a role in the life of one connection, and every
step is a step of the protocol of such roles, or changes no role
(`lockStep_simulates`). What that protocol keeps safe is then safe here:
the connection a thread is at, and all of the list while it has the
list, are not freed.
-/
import CephInC.Lib.Lifetime
import CephInC.Message.Locks
import CephInC.Message.Runs
import Mathlib.Order.Interval.Set.Defs

namespace CephInC

open Lib

-- ================================================================ roles

def SendPoint.role : SendPoint → Role Nat
  | .rdlock => .out
  | .get pos => .look .read pos
  | .notFound => .look .read none
  | .lock conn => .look .read (some conn)
  | .unlist conn => .keep conn
  | .state conn => .use conn
  | .log conn => .use conn
  | .fd conn => .use conn
  | .call conn _ _ => .use conn
  | .mark conn => .use conn
  | .unlock conn _ => .use conn

def ClosePoint.role : ClosePoint → Role Nat
  | .wrlock => .out
  | .get pos => .look .write pos
  | .notFound => .look .write none
  | .delete conn => .look .write (some conn)
  | .unlist conn => .own conn (some .write)
  | .log conn => .own conn none
  | .lock conn => .own conn none
  | .shut conn => .close conn
  | .host conn => .close conn
  | .unlock conn => .close conn
  | .destroy conn => .last conn
  | .free conn => .last conn

def FindPoint.role : FindPoint → Role Nat
  | .rdlock => .out
  | .get pos => .look .read pos
  | .read conn => .look .read (some conn)
  | .unlist => .look .read none

def AddPoint.role : AddPoint → Role Nat
  | .wrlock conn => .own conn none
  | .list conn => .own conn (some .write)
  | .unlist _ => .look .write none
  | .register _ => .out
  | .read _ _ => .out

def Point.role : Point → Role Nat
  | .free => .out
  | .send _ _ p => p.role
  | .close _ p => p.role
  | .find _ p => p.role
  | .add p => p.role

/-- The state as the life of its connections. -/
def Sharing.lifetime (s : Sharing) : Lifetime Nat Nat where
  listed := s.shared.connList
  made := Set.Iio s.shared.made
  freed := s.shared.freed
  list := s.shared.connListLock
  lock := s.shared.connLock
  role t := (s.points t).role

-- ========================================================== simulation

/-- What `t` does is nothing to the life of a connection, or a step of it. -/
def Simulates (s : Sharing) (t : Nat) (r : Point × Shared) : Prop :=
  (s.put t r).lifetime = s.lifetime ∨ s.lifetime.Step t (s.put t r).lifetime

theorem put_role (s : Sharing) (t : Nat) (p : Point) (m : Shared) :
    (s.put t (p, m)).lifetime.role = Function.update s.lifetime.role t p.role := by
  funext u
  show (Function.update s.points t p u).role = _
  by_cases hu : u = t
  · rw [hu, Function.update_self, Function.update_self]
  · rw [Function.update_of_ne hu, Function.update_of_ne hu]
    rfl

section
variable {s : Sharing} {t : Nat} {p : Point} {m : Shared}

theorem simulates_step (h : s.lifetime.Step t
    ⟨m.connList, Set.Iio m.made, m.freed, m.connListLock, m.connLock,
      Function.update s.lifetime.role t p.role⟩) : Simulates s t (p, m) := by
  right
  rw [← put_role s t p m] at h
  exact h

/-- A step that leaves the role, the list, the locks and what is freed as
they are. -/
theorem simulates_quiet (hrole : p.role = (s.points t).role)
    (hmade : m.made = s.shared.made) (hconnList : m.connList = s.shared.connList)
    (hfreed : m.freed = s.shared.freed) (hlist : m.connListLock = s.shared.connListLock)
    (hlock : m.connLock = s.shared.connLock) : Simulates s t (p, m) := by
  left
  have hsame : Function.update s.lifetime.role t p.role = s.lifetime.role := by
    rw [hrole]
    exact Function.update_eq_self t s.lifetime.role
  show Lifetime.mk m.connList (Set.Iio m.made) m.freed m.connListLock m.connLock
    (s.put t (p, m)).lifetime.role = _
  rw [put_role, hsame, hmade, hconnList, hfreed, hlist, hlock]
  rfl

theorem simulates_move (hrole : p.role = (s.points t).role) :
    Simulates s t (p, s.shared) :=
  simulates_quiet hrole rfl rfl rfl rfl rfl

end

theorem lockList_eq {s s' : Shared} {t : Nat} {access : Access}
    (h : s.lockList t access = some s') :
    ∃ lock, s.connListLock.take t access = some lock
      ∧ s' = { s with connListLock := lock } := by
  obtain ⟨lock, htake, h⟩ := Option.map_eq_some_iff.mp h
  exact ⟨lock, htake, h.symm⟩

theorem lockConn_eq {s s' : Shared} {t conn : Nat} (h : s.lockConn t conn = some s') :
    s.connLock conn = none
      ∧ s' = { s with connLock := Function.update s.connLock conn (some t) } := by
  unfold Shared.lockConn at h
  cases hlock : s.connLock conn with
  | none =>
      rw [hlock] at h
      cases h
      exact ⟨rfl, rfl⟩
  | some u =>
      rw [hlock] at h
      cases h

theorem nextConn_mem {s : Shared} {pos : Option Nat} {conn : Nat}
    (h : s.nextConn pos = .next conn) : conn ∈ s.connList := by
  have helim : ∀ {l : List Nat}, l.head?.elim Round.over .next = .next conn → conn ∈ l := by
    intro l hl
    cases l with
    | nil => cases hl
    | cons a l =>
        cases hl
        exact List.mem_cons_self
  cases pos with
  | none => exact helim h
  | some a => exact (List.dropWhile_sublist _).subset (List.mem_of_mem_tail (helim h))

theorem nextConn_ne_found {s : Shared} {pos : Option Nat} {conn : Nat} :
    s.nextConn pos ≠ .found conn := by
  have helim : ∀ l : List Nat, l.head?.elim Round.over .next ≠ .found conn := by
    intro l hl
    cases l with
    | nil => cases hl
    | cons a l => cases hl
  cases pos with
  | none => exact helim _
  | some a => exact helim _

/-- What a round finds is where it starts, and what comes next is in the
list. -/
theorem round_found {s : Shared} {wanted : Connection → Bool} {pos : Option Nat}
    {conn : Nat} (h : s.round wanted pos = .found conn) : pos = some conn := by
  cases pos with
  | none =>
      have h : s.nextConn none = .found conn := h
      exact absurd h nextConn_ne_found
  | some a =>
      have h : (if wanted (s.conns a) then .found a else s.nextConn (some a))
        = .found conn := h
      split_ifs at h
      · cases h
        rfl
      · exact absurd h nextConn_ne_found

theorem round_next {s : Shared} {wanted : Connection → Bool} {pos : Option Nat}
    {conn : Nat} (h : s.round wanted pos = .next conn) : conn ∈ s.connList := by
  cases pos with
  | none =>
      have h : s.nextConn none = .next conn := h
      exact nextConn_mem h
  | some a =>
      have h : (if wanted (s.conns a) then .found a else s.nextConn (some a))
        = .next conn := h
      split_ifs at h
      exact nextConn_mem h

section
variable {s : Sharing} {t : Nat} {r : Point × Shared}

/-- A thread that has the list and goes from one connection of it to
another. -/
theorem simulates_see {access : Access} {seen seen' : Option Nat} {p : Point}
    (hrole : s.lifetime.role t = .look access seen) (hp : p.role = .look access seen')
    (hseen : ∀ a ∈ seen', a ∈ s.shared.connList) : Simulates s t (p, s.shared) := by
  apply simulates_step
  rw [hp]
  exact .see hrole hseen

theorem simulates_over {access : Access} {seen : Option Nat} {p : Point}
    (hrole : s.lifetime.role t = .look access seen) (hp : p.role = .look access none) :
    Simulates s t (p, s.shared) := by
  apply simulates_see hrole hp
  intro a ha
  cases ha

theorem simulates_next {access : Access} {wanted : Connection → Bool} {pos : Option Nat}
    {conn : Nat} {p : Point} (hrole : s.lifetime.role t = .look access pos)
    (hp : p.role = .look access (some conn))
    (hround : s.shared.round wanted pos = .next conn) : Simulates s t (p, s.shared) := by
  apply simulates_see hrole hp
  intro a ha
  cases ha
  exact round_next hround

theorem simulates_found {access : Access} {wanted : Connection → Bool} {pos : Option Nat}
    {conn : Nat} {p : Point} (hrole : s.lifetime.role t = .look access pos)
    (hp : p.role = .look access (some conn))
    (hround : s.shared.round wanted pos = .found conn) : Simulates s t (p, s.shared) := by
  rw [round_found hround] at hrole
  exact simulates_move (hp.trans hrole.symm)

theorem sendStep_simulates {id : Int64} {msg : Msg} {outcome : SendOutcome}
    {p : SendPoint} (hp : s.points t = .send id msg p)
    (h : sendStep s.shared t id msg outcome p = some r) : Simulates s t r := by
  have hrole : s.lifetime.role t = p.role := congrArg Point.role hp
  cases p with
  | rdlock =>
      obtain ⟨m, hlist, h⟩ := Option.map_eq_some_iff.mp h
      obtain ⟨lock, htake, rfl⟩ := lockList_eq hlist
      rw [← h]
      exact simulates_step (.enter hrole htake)
  | get pos =>
      simp only [sendStep] at h
      split at h
      · next conn hround =>
          cases h
          exact simulates_found hrole rfl hround
      · next conn hround =>
          cases h
          exact simulates_next hrole rfl hround
      · cases h
        exact simulates_over hrole rfl
  | notFound =>
      cases h
      exact simulates_step (.leave hrole)
  | lock conn =>
      obtain ⟨m, hlock, h⟩ := Option.map_eq_some_iff.mp h
      obtain ⟨hfree, rfl⟩ := lockConn_eq hlock
      rw [← h]
      exact simulates_step (.grab hrole hfree)
  | unlist conn =>
      cases h
      exact simulates_step (.pass hrole)
  | state conn =>
      simp only [sendStep] at h
      split_ifs at h <;> cases h <;> exact simulates_move hrole.symm
  | log conn =>
      cases h
      exact simulates_move hrole.symm
  | fd conn =>
      obtain ⟨calls, -, h⟩ := Option.map_eq_some_iff.mp h
      rw [← h]
      exact simulates_move hrole.symm
  | call conn calls last =>
      cases calls with
      | nil =>
          simp only [sendStep] at h
          split_ifs at h <;> cases h <;> exact simulates_move hrole.symm
      | cons call calls =>
          simp only [sendStep] at h
          split at h
          · split_ifs at h <;> cases h <;>
              exact simulates_quiet hrole.symm rfl rfl rfl rfl rfl
          · cases h
  | mark conn =>
      cases h
      exact simulates_quiet hrole.symm rfl rfl rfl rfl rfl
  | unlock conn ret =>
      simp only [sendStep] at h
      split_ifs at h <;> cases h <;> exact simulates_step (.drop hrole)

theorem closeStep_simulates {id : Int64} {p : ClosePoint}
    (hp : s.points t = .close id p) (h : closeStep s.shared t id p = some r) :
    Simulates s t r := by
  have hrole : s.lifetime.role t = p.role := congrArg Point.role hp
  cases p with
  | wrlock =>
      obtain ⟨m, hlist, h⟩ := Option.map_eq_some_iff.mp h
      obtain ⟨lock, htake, rfl⟩ := lockList_eq hlist
      rw [← h]
      exact simulates_step (.enter hrole htake)
  | get pos =>
      simp only [closeStep] at h
      split at h
      · next conn hround =>
          cases h
          exact simulates_found hrole rfl hround
      · next conn hround =>
          cases h
          exact simulates_next hrole rfl hround
      · cases h
        exact simulates_over hrole rfl
  | notFound =>
      cases h
      exact simulates_step (.leave hrole)
  | delete conn =>
      cases h
      exact simulates_step (.unlist hrole)
  | unlist conn =>
      cases h
      exact simulates_step (.part hrole)
  | log conn =>
      cases h
      exact simulates_move hrole.symm
  | lock conn =>
      obtain ⟨m, hlock, h⟩ := Option.map_eq_some_iff.mp h
      obtain ⟨hfree, rfl⟩ := lockConn_eq hlock
      rw [← h]
      exact simulates_step (.seize hrole hfree)
  | shut conn =>
      cases h
      exact simulates_quiet hrole.symm rfl rfl rfl rfl rfl
  | host conn =>
      cases h
      exact simulates_move hrole.symm
  | unlock conn =>
      cases h
      exact simulates_step (.settle hrole)
  | destroy conn =>
      cases h
      exact simulates_move hrole.symm
  | free conn =>
      cases h
      exact simulates_step (.free hrole)

theorem findStep_simulates {wanted : Wanted} {p : FindPoint}
    (hp : s.points t = .find wanted p) (h : findStep s.shared t wanted p = some r) :
    Simulates s t r := by
  have hrole : s.lifetime.role t = p.role := congrArg Point.role hp
  cases p with
  | rdlock =>
      obtain ⟨m, hlist, h⟩ := Option.map_eq_some_iff.mp h
      obtain ⟨lock, htake, rfl⟩ := lockList_eq hlist
      rw [← h]
      exact simulates_step (.enter hrole htake)
  | get pos =>
      simp only [findStep] at h
      split at h
      · next conn hround =>
          cases h
          exact simulates_found hrole rfl hround
      · next conn hround =>
          cases h
          exact simulates_next hrole rfl hround
      · cases h
        exact simulates_over hrole rfl
  | read conn =>
      cases h
      exact simulates_over hrole rfl
  | unlist =>
      cases h
      exact simulates_step (.leave hrole)

theorem addStep_simulates {ctl : Int} {p : AddPoint} (hp : s.points t = .add p)
    (h : addStep s.shared t ctl p = some r) : Simulates s t r := by
  have hrole : s.lifetime.role t = p.role := congrArg Point.role hp
  cases p with
  | wrlock conn =>
      obtain ⟨m, hlist, h⟩ := Option.map_eq_some_iff.mp h
      obtain ⟨lock, htake, rfl⟩ := lockList_eq hlist
      rw [← h]
      exact simulates_step (.claim hrole htake)
  | list conn =>
      cases h
      exact simulates_step (.add hrole)
  | unlist conn =>
      cases h
      exact simulates_step (.leave hrole)
  | register conn =>
      cases h
      exact simulates_move hrole.symm
  | read conn failed =>
      simp only [addStep] at h
      split_ifs at h <;> cases h <;> exact simulates_move hrole.symm

theorem pointStep_simulates {outcome : SendOutcome} {ctl : Int}
    (h : pointStep s.shared t outcome ctl (s.points t) = some r) : Simulates s t r := by
  cases hp : s.points t with
  | free =>
      rw [hp] at h
      cases h
  | send id msg p =>
      rw [hp] at h
      exact sendStep_simulates hp h
  | close id p =>
      rw [hp] at h
      exact closeStep_simulates hp h
  | find wanted p =>
      rw [hp] at h
      exact findStep_simulates hp h
  | add p =>
      rw [hp] at h
      exact addStep_simulates hp h

theorem callPoint_simulates (hp : s.points t = .free) (call : Call) :
    Simulates s t (callPoint s.shared call) := by
  have hrole : s.lifetime.role t = .out := congrArg Point.role hp
  cases call with
  | sendMsg id msg => exact simulates_move hrole.symm
  | closeConn id => exact simulates_move hrole.symm
  | find wanted => exact simulates_move hrole.symm
  | addConn host port fd state =>
      have hnew : s.shared.made ∉ s.lifetime.made := lt_irrefl s.shared.made
      have hmade : Set.Iio (s.shared.made + 1) = insert s.shared.made s.lifetime.made := by
        ext a
        show a < s.shared.made + 1 ↔ a = s.shared.made ∨ a < s.shared.made
        omega
      apply simulates_step
      show s.lifetime.Step t ⟨_, Set.Iio (s.shared.made + 1), _, _, _, _⟩
      rw [hmade]
      exact .make hrole hnew

end

/-- A thread enters a function, or does the operation it is at. -/
theorem lockStep_cases {s s' : Sharing} {act : LockAct} (h : lockStep s act = some s') :
    (∃ t call, act = .call t call ∧ s.points t = .free
      ∧ s' = s.put t (callPoint s.shared call))
    ∨ ∃ t outcome ctl r, act = .run t outcome ctl
      ∧ pointStep s.shared t outcome ctl (s.points t) = some r ∧ s' = s.put t r := by
  cases act with
  | call t call =>
      unfold lockStep at h
      cases hp : s.points t with
      | free =>
          simp only [hp] at h
          cases h
          exact .inl ⟨t, call, rfl, hp, rfl⟩
      | _ =>
          simp only [hp] at h
          cases h
  | run t outcome ctl =>
      obtain ⟨r, hstep, h⟩ := Option.map_eq_some_iff.mp h
      exact .inr ⟨t, outcome, ctl, r, rfl, hstep, h.symm⟩

/-- Every step is a step of the life of some connection, or none. -/
theorem lockStep_simulates {s s' : Sharing} {act : LockAct}
    (h : lockStep s act = some s') :
    s'.lifetime = s.lifetime ∨ ∃ t, s.lifetime.Step t s'.lifetime := by
  have hput : ∃ t r, s' = s.put t r ∧ Simulates s t r := by
    rcases lockStep_cases h with ⟨t, call, -, hfree, rfl⟩ | ⟨t, outcome, ctl, r, -, hstep, rfl⟩
    · exact ⟨t, _, rfl, callPoint_simulates hfree call⟩
    · exact ⟨t, r, rfl, pointStep_simulates hstep⟩
  obtain ⟨t, r, rfl, hsim⟩ := hput
  rcases hsim with hsame | hstep
  · exact .inl hsame
  · exact .inr ⟨t, hstep⟩

theorem lockStep_safe {s s' : Sharing} {act : LockAct} (h : lockStep s act = some s')
    (hsafe : s.lifetime.Safe) : s'.lifetime.Safe := by
  rcases lockStep_simulates h with hsame | ⟨t, hstep⟩
  · rw [hsame]
    exact hsafe
  · exact hstep.safe hsafe

theorem sharingStart_safe : sharingStart.lifetime.Safe := by
  refine ⟨List.nodup_nil, ?_, List.nodup_nil, ?_, ?_, ?_⟩
  · exact fun a ha => absurd ha List.not_mem_nil
  · exact fun a ha => absurd ha List.not_mem_nil
  · exact fun t => ⟨rfl, trivial⟩
  · intro t u _ hclash
    rcases hclash with ⟨a, ha, -⟩ | ⟨a, ha, -⟩
    · cases ha
    · cases ha

theorem safe_of_reached {good : Sharing → LockAct → Prop} {s : Sharing}
    (h : lockSystem.Reached good s) : s.lifetime.Safe := by
  apply System.Reached.invariant (I := fun s : Sharing => s.lifetime.Safe) _ _ h
  · intro s hs
    rw [hs]
    exact sharingStart_safe
  · exact fun s act s' hsafe _ hstep => lockStep_safe hstep hsafe

-- ============================================================ lifetimes

theorem SendPoint.names_of_conn {p : SendPoint} {a : Nat} (h : p.conn = some a) :
    p.role.names = some a := by
  cases p <;> first | exact h | cases h

theorem ClosePoint.names_of_conn {p : ClosePoint} {a : Nat} (h : p.conn = some a) :
    p.role.names = some a := by
  cases p <;> first | exact h | cases h

theorem FindPoint.names_of_conn {p : FindPoint} {a : Nat} (h : p.conn = some a) :
    p.role.names = some a := by
  cases p <;> exact h

/-- The connection an operation touches is the one of its thread's role. -/
theorem Point.names_of_conn {p : Point} {a : Nat}
    (hp : ∀ conn failed, p ≠ .add (.read conn failed)) (h : p.conn = some a) :
    p.role.names = some a := by
  cases p with
  | free => cases h
  | send id msg p => exact SendPoint.names_of_conn h
  | close id p => exact ClosePoint.names_of_conn h
  | find wanted p => exact FindPoint.names_of_conn h
  | add p =>
      cases p with
      | wrlock conn => cases h
      | list conn => exact h
      | unlist conn => cases h
      | register conn => cases h
      | read conn failed => exact absurd rfl (hp conn failed)

/-- In every run of any number of threads: a connection is freed once, and
no operation to come is on one that has been freed. Of
`cceph_messenger_add_conn` this is not said of the read at its end. -/
theorem conn_lifetime {s : Sharing} (h : lockSystem.Reachable s) :
    s.shared.freed.Nodup
      ∧ ∀ t, (∀ conn failed, s.points t ≠ .add (.read conn failed)) →
        ∀ a ∈ (s.points t).touches s.shared.connList, a ∉ s.shared.freed := by
  have hsafe := safe_of_reached h
  refine ⟨hsafe.once, ?_⟩
  intro t hp a ha
  rcases List.mem_append.mp ha with hconn | hlinks
  · have hnames : (s.lifetime.role t).names = some a :=
      Point.names_of_conn hp (Option.mem_toList.mp hconn)
    exact hsafe.live_of_names hnames
  · split_ifs at hlinks
    · exact (hsafe.live a hlinks).2
    · cases hlinks

/-- `n` operations of `t`. -/
def operations (t n : Nat) : List LockAct :=
  List.replicate n (.run t (.failed 0) 0)

/-- Thread 0 adds a connection. -/
def adds : List LockAct :=
  .call 0 (.addConn ⟨[], noNul_nil⟩ 9000 5 CCEPH_CONN_STATE_OPEN) :: operations 0 5

/-- Thread 1 takes a new connection off the list and waits for its lock,
while thread 2 fails to send; both have closed it in the end. -/
def twoCloses : List LockAct :=
  adds ++ .call 2 (.sendMsg 2 (.writeObjAck firstAck)) :: operations 2 5
    ++ .call 1 (.closeConn 2) :: operations 1 6
    ++ operations 2 6 ++ operations 1 6 ++ operations 2 3

theorem conn_lifetime_two : ∃ s, lockSystem.exec sharingStart twoCloses = some s
    ∧ s.shared.freed = [0]
    ∧ s.shared.freed.Nodup
    ∧ ∀ t, (∀ conn failed, s.points t ≠ .add (.read conn failed)) →
      ∀ a ∈ (s.points t).touches s.shared.connList, a ∉ s.shared.freed := by
  have hrun : ∃ s, lockSystem.exec sharingStart twoCloses = some s
      ∧ s.shared.freed = [0] := ⟨_, rfl, rfl⟩
  obtain ⟨s, hrun, hfreed⟩ := hrun
  refine ⟨s, hrun, hfreed, ?_⟩
  apply conn_lifetime
  exact System.Reached.exec twoCloses (fun _ _ _ => trivial) (.start rfl) hrun

end CephInC
