/-
`cceph_messenger_add_conn` reads a connection that may be gone.

What each step does to the list comes first (`Listing`): one operation
puts a connection in, one takes a connection off. While no thread takes
off what another is still adding, that connection stays in the list, and
what is in the list is not freed (`Lib/Lifetime.lean`). Where a thread
does, the connection may be freed before it is read (`addConn_unsafe`).
The ids need the counter alone.
-/
import CephInC.Message.Adding
import CephInC.Message.Proofs.Failing

namespace CephInC

open Lib

-- ================================================================ the ids

theorem takenId_succ (conn : Nat) : takenId (conn + 1) = takenId conn + 1 := by
  unfold takenId
  rw [Nat.add_right_comm, Int64.ofNat_add]
  rfl

theorem takenId_inj {a b : Nat} (ha : a < 2 ^ 64) (hb : b < 2 ^ 64)
    (h : takenId a = takenId b) : a = b := by
  have hmod : (a + 2) % 2 ^ 64 = (b + 2) % 2 ^ 64 :=
    congrArg (fun id : Int64 => id.toBitVec.toNat) h
  omega

-- =============================================================== the list

/-- What an operation does to the list, and to what its thread is adding. -/
inductive Listing (s : Shared) : Point → Point → Shared → Prop
  | kept {p p' : Point} {m : Shared} (hadding : p'.adding = none ∨ p'.adding = p.adding)
      (hlist : m.connList = s.connList) (hnext : m.nextConnId = s.nextConnId)
      (hmade : m.made = s.made) : Listing s p p' m
  | listed {conn : Nat} :
      Listing s (.add (.list conn)) (.add (.unlist conn))
        { s with connList := conn :: s.connList }
  | unlisted {id : Int64} {conn : Nat} :
      Listing s (.close id (.delete conn)) (.close id (.unlist conn))
        { s with connList := s.connList.erase conn }

section
variable {s : Shared} {t : Nat} {outcome : SendOutcome} {r : Point × Shared}

theorem Listing.nextConnId {p p' : Point} {m : Shared} (h : Listing s p p' m) :
    m.nextConnId = s.nextConnId := by
  cases h with
  | kept _ _ hnext _ => exact hnext
  | _ => rfl

theorem Listing.made {p p' : Point} {m : Shared} (h : Listing s p p' m) :
    m.made = s.made := by
  cases h with
  | kept _ _ _ hmade => exact hmade
  | _ => rfl

/-- To take a lock changes nothing of the list. -/
theorem Listing.lockList {p p' : Point} {m : Shared} {access : Access}
    (h : s.lockList t access = some m) (hadding : p'.adding = none) : Listing s p p' m := by
  obtain ⟨lock, -, rfl⟩ := lockList_eq h
  exact .kept (.inl hadding) rfl rfl rfl

theorem Listing.lockConn {p p' : Point} {m : Shared} {conn : Nat}
    (h : s.lockConn t conn = some m) (hadding : p'.adding = none) : Listing s p p' m := by
  obtain ⟨-, rfl⟩ := lockConn_eq h
  exact .kept (.inl hadding) rfl rfl rfl

/-- A thread that sends adds nothing. -/
theorem sendStep_listing {id : Int64} {msg : Msg} {p : SendPoint}
    (h : sendStep s t id msg outcome p = some r) : Listing s (.send id msg p) r.1 r.2 := by
  cases p with
  | rdlock =>
      obtain ⟨m, hlock, h⟩ := Option.map_eq_some_iff.mp h
      rw [← h]
      exact .lockList hlock rfl
  | lock conn =>
      obtain ⟨m, hlock, h⟩ := Option.map_eq_some_iff.mp h
      rw [← h]
      exact .lockConn hlock rfl
  | get pos =>
      simp only [sendStep] at h
      split at h <;> cases h <;> exact .kept (.inl rfl) rfl rfl rfl
  | state conn =>
      simp only [sendStep] at h
      split_ifs at h <;> cases h <;> exact .kept (.inl rfl) rfl rfl rfl
  | fd conn =>
      obtain ⟨calls, -, h⟩ := Option.map_eq_some_iff.mp h
      rw [← h]
      exact .kept (.inl rfl) rfl rfl rfl
  | call conn calls last =>
      cases calls with
      | nil =>
          simp only [sendStep] at h
          split_ifs at h <;> cases h <;> exact .kept (.inl rfl) rfl rfl rfl
      | cons call calls =>
          simp only [sendStep] at h
          split at h
          · split_ifs at h <;> cases h <;> exact .kept (.inl rfl) rfl rfl rfl
          · cases h
  | unlock conn ret =>
      simp only [sendStep] at h
      split_ifs at h <;> cases h <;> exact .kept (.inl rfl) rfl rfl rfl
  | _ =>
      cases h
      exact .kept (.inl rfl) rfl rfl rfl

theorem closeStep_listing {id : Int64} {p : ClosePoint} (h : closeStep s t id p = some r) :
    Listing s (.close id p) r.1 r.2 := by
  cases p with
  | wrlock =>
      obtain ⟨m, hlock, h⟩ := Option.map_eq_some_iff.mp h
      rw [← h]
      exact .lockList hlock rfl
  | lock conn =>
      obtain ⟨m, hlock, h⟩ := Option.map_eq_some_iff.mp h
      rw [← h]
      exact .lockConn hlock rfl
  | get pos =>
      simp only [closeStep] at h
      split at h <;> cases h <;> exact .kept (.inl rfl) rfl rfl rfl
  | delete conn =>
      cases h
      exact .unlisted
  | _ =>
      cases h
      exact .kept (.inl rfl) rfl rfl rfl

theorem findStep_listing {wanted : Wanted} {p : FindPoint}
    (h : findStep s t wanted p = some r) : Listing s (.find wanted p) r.1 r.2 := by
  cases p with
  | rdlock =>
      obtain ⟨m, hlock, h⟩ := Option.map_eq_some_iff.mp h
      rw [← h]
      exact .lockList hlock rfl
  | get pos =>
      simp only [findStep] at h
      split at h <;> cases h <;> exact .kept (.inl rfl) rfl rfl rfl
  | _ =>
      cases h
      exact .kept (.inl rfl) rfl rfl rfl

theorem addStep_listing {ctl : Int} {p : AddPoint} (h : addStep s t ctl p = some r) :
    Listing s (.add p) r.1 r.2 := by
  cases p with
  | wrlock conn =>
      obtain ⟨m, hlock, h⟩ := Option.map_eq_some_iff.mp h
      rw [← h]
      exact .lockList hlock rfl
  | list conn =>
      cases h
      exact .listed
  | unlist conn =>
      cases h
      exact .kept (.inr rfl) rfl rfl rfl
  | register conn =>
      cases h
      exact .kept (.inr rfl) rfl rfl rfl
  | read conn failed =>
      simp only [addStep] at h
      split_ifs at h <;> cases h <;> exact .kept (.inl rfl) rfl rfl rfl

theorem pointStep_listing {ctl : Int} {p : Point}
    (h : pointStep s t outcome ctl p = some r) : Listing s p r.1 r.2 := by
  cases p with
  | free => cases h
  | send id msg p => exact sendStep_listing h
  | close id p => exact closeStep_listing h
  | find wanted p => exact findStep_listing h
  | add p => exact addStep_listing h

/-- The id of a connection stays as it is. -/
theorem pointStep_id {ctl : Int} {p : Point} (h : pointStep s t outcome ctl p = some r)
    (conn : Nat) : (r.2.conns conn).id = (s.conns conn).id := by
  rcases pointStep_conns h with hsame | ⟨id, msg, marked, -, hmark⟩
  · rw [hsame]
  · rw [hmark]
    show (Function.update s.conns marked _ conn).id = _
    by_cases hconn : conn = marked
    · rw [hconn, Function.update_self]
    · rw [Function.update_of_ne hconn]

end

-- ================================================================== a run

/-- What is being added is in the list, and every id was taken in turn. -/
structure AddsListed (s : Sharing) : Prop where
  listed : ∀ t conn, (s.points t).adding = some conn → conn ∈ s.shared.connList
  ids : ∀ conn, conn < s.shared.made → (s.shared.conns conn).id = takenId conn
  next : s.shared.nextConnId + 1 = takenId s.shared.made
  few : s.shared.made ≤ 2 ^ 64

theorem addsListed_start : AddsListed sharingStart where
  listed t conn h := by cases h
  ids conn h := absurd h (Nat.not_lt_zero conn)
  next := rfl
  few := Nat.zero_le _

namespace AddsListed

variable {s : Sharing} {t : Nat}

/-- A call is entered, with a new connection or none. -/
theorem called (h : AddsListed s) {call : Call} (hgood : AddsAlone s (.call t call)) :
    AddsListed (s.put t (callPoint s.shared call)) := by
  have hlisted : ∀ u conn, ((s.put t (callPoint s.shared call)).points u).adding = some conn →
      conn ∈ s.shared.connList := by
    refine forall_put (fun p => ∀ conn, p.adding = some conn → conn ∈ s.shared.connList) ?_
      fun u _ => h.listed u
    intro conn hself
    cases call <;> cases hself
  cases call with
  | addConn host port fd state =>
      have hfew : s.shared.made < 2 ^ 64 := hgood
      refine ⟨hlisted, fun conn hconn => ?_, ?_, hfew⟩
      · show (Function.update s.shared.conns s.shared.made _ conn).id = _
        by_cases hnew : conn = s.shared.made
        · rw [hnew, Function.update_self]
          exact h.next
        · rw [Function.update_of_ne hnew]
          have hlt : conn < s.shared.made + 1 := hconn
          exact h.ids conn (by omega)
      · show s.shared.nextConnId + 1 + 1 = takenId (s.shared.made + 1)
        rw [takenId_succ, h.next]
  | _ => exact ⟨hlisted, h.ids, h.next, h.few⟩

/-- What is being added stays in the list, through an operation of a
thread. -/
theorem ran_listed (h : AddsListed s) {outcome : SendOutcome} {ctl : Int} {r : Point × Shared}
    (hgood : AddsAlone s (.run t outcome ctl)) (hlisting : Listing s.shared (s.points t) r.1 r.2) :
    ∀ u conn, ((s.put t r).points u).adding = some conn → conn ∈ r.2.connList := by
  apply forall_put fun p => ∀ conn, p.adding = some conn → conn ∈ r.2.connList
  · intro conn hself
    have hgiven := h.listed t conn
    generalize s.points t = p at hlisting hgiven
    obtain ⟨p', m⟩ := r
    cases hlisting with
    | kept hadding hlist _ _ =>
        show conn ∈ m.connList
        have hself : p'.adding = some conn := hself
        rcases hadding with hnone | hsame
        · rw [hnone] at hself
          cases hself
        · rw [hlist]
          exact hgiven (hsame.symm.trans hself)
    | listed =>
        cases hself
        exact List.mem_cons_self
    | unlisted => cases hself
  · intro u hu conn hother
    have hgiven : conn ∈ s.shared.connList := h.listed u conn hother
    generalize hp : s.points t = p at hlisting
    obtain ⟨p', m⟩ := r
    cases hlisting with
    | kept _ hlist _ _ =>
        show conn ∈ m.connList
        rw [hlist]
        exact hgiven
    | listed => exact List.mem_cons_of_mem _ hgiven
    | @unlisted id closed =>
        -- nobody is adding what is taken off
        have hne : conn ≠ closed := by
          intro heq
          rw [heq] at hother
          exact hgood id closed hp u hother
        exact (List.mem_erase_of_ne hne).mpr hgiven

/-- An operation of a thread. -/
theorem ran (h : AddsListed s) {outcome : SendOutcome} {ctl : Int} {r : Point × Shared}
    (hgood : AddsAlone s (.run t outcome ctl))
    (hstep : pointStep s.shared t outcome ctl (s.points t) = some r) :
    AddsListed (s.put t r) := by
  have hlisting := pointStep_listing hstep
  have hnext : r.2.nextConnId = s.shared.nextConnId := hlisting.nextConnId
  have hmade : r.2.made = s.shared.made := hlisting.made
  refine ⟨h.ran_listed hgood hlisting, fun conn hconn => ?_, ?_, ?_⟩
  · have hconn : conn < r.2.made := hconn
    rw [hmade] at hconn
    exact (pointStep_id hstep conn).trans (h.ids conn hconn)
  · show r.2.nextConnId + 1 = takenId r.2.made
    rw [hnext, hmade]
    exact h.next
  · show r.2.made ≤ 2 ^ 64
    rw [hmade]
    exact h.few

theorem step {s' : Sharing} {act : LockAct} (h : AddsListed s) (hgood : AddsAlone s act)
    (hstep : lockStep s act = some s') : AddsListed s' := by
  rcases lockStep_cases hstep with
    ⟨t, call, rfl, -, rfl⟩ | ⟨t, outcome, ctl, r, rfl, hpoint, rfl⟩
  · exact h.called hgood
  · exact h.ran hgood hpoint

/-- The list keeps what is added, and the role of its thread what is not in
the list yet. -/
theorem live (h : AddsListed s) (hsafe : s.lifetime.Safe) {p : AddPoint} {conn : Nat}
    (hp : s.points t = .add p) (hconn : p.conn = some conn) : conn ∉ s.shared.freed := by
  cases p with
  | list a =>
      cases hconn
      have hnames : (s.lifetime.role t).names = some conn := by
        show (s.points t).role.names = some conn
        rw [hp]
        rfl
      exact hsafe.live_of_names hnames
  | read a failed =>
      cases hconn
      have hlisted : conn ∈ s.shared.connList := h.listed t conn (by rw [hp]; rfl)
      exact (hsafe.live conn hlisted).2
  | _ => cases hconn

theorem addSafe (h : AddsListed s) (hsafe : s.lifetime.Safe) : AddSafe s where
  live t p conn hp hconn := h.live hsafe hp hconn
  fresh t conn failed hp := by
    have hlisted : conn ∈ s.shared.connList := h.listed t conn (by rw [hp]; rfl)
    exact h.ids conn (hsafe.live conn hlisted).1
  next := h.next
  apart a b ha hb hne hid := by
    rw [h.ids a ha, h.ids b hb] at hid
    have hfew := h.few
    exact hne (takenId_inj (by omega) (by omega) hid)

end AddsListed

-- ========================================================= the other way

/-- The run can go on until `conn` is freed, the thread `u` staying where it
is. -/
def Frees (s : Sharing) (u conn : Nat) : Prop :=
  ∃ s', lockSystem.Leads s s' ∧ conn ∈ s'.shared.freed ∧ s'.points u = s.points u

section
variable {s : Sharing} {t u : Nat} {conn : Nat}

theorem leads_point {r : Point × Shared}
    (h : pointStep s.shared t (.failed 0) 0 (s.points t) = some r) :
    lockSystem.Leads s (s.put t r) := by
  apply System.Leads.step (a := .run t (.failed 0) 0)
  show (pointStep s.shared t (.failed 0) 0 (s.points t)).map (s.put t) = _
  rw [h]
  rfl

theorem Frees.before {r : Point × Shared} (hut : u ≠ t)
    (h : pointStep s.shared t (.failed 0) 0 (s.points t) = some r)
    (hrest : Frees (s.put t r) u conn) : Frees s u conn := by
  obtain ⟨s', hleads, hfreed, hsame⟩ := hrest
  exact ⟨s', (leads_point h).trans hleads, hfreed, hsame.trans (put_other s hut r)⟩

theorem frees_of_lock {id : Int64} (hut : u ≠ t) (hp : s.points t = .close id (.lock conn))
    (hlock : s.shared.connLock conn = none) : Frees s u conn := by
  have htake : pointStep s.shared t (.failed 0) 0 (s.points t) = some (.close id (.shut conn),
      { s.shared with connLock := Function.update s.shared.connLock conn (some t) }) := by
    rw [hp]
    show (s.shared.lockConn t conn).map _ = _
    unfold Shared.lockConn
    rw [hlock]
    rfl
  refine .before hut htake ?_
  refine .before hut (by rw [put_self]; rfl) ?_
  refine .before hut (by rw [put_self]; rfl) ?_
  refine .before hut (by rw [put_self]; rfl) ?_
  refine .before hut (by rw [put_self]; rfl) ?_
  exact ⟨_, leads_point (by rw [put_self]; rfl), List.mem_cons_self, put_other _ hut _⟩

/-- Whoever takes a connection off the list can go on to free it, once its
lock is free. -/
theorem frees_of_delete {id : Int64} (hut : u ≠ t) (hp : s.points t = .close id (.delete conn))
    (hlock : s.shared.connLock conn = none) : Frees s u conn := by
  refine .before hut (by rw [hp]; rfl) ?_
  refine .before hut (by rw [put_self]; rfl) ?_
  refine .before hut (by rw [put_self]; rfl) ?_
  exact frees_of_lock hut (put_self ..) hlock

theorem unsafe_of_read {failed : Bool} (hu : s.points u = .add (.read conn failed))
    (hfreed : conn ∈ s.shared.freed) : ∃ s', lockSystem.Leads s s' ∧ ¬AddSafe s' :=
  ⟨s, .refl s, fun hsafe => hsafe.live u _ conn hu rfl hfreed⟩

theorem unsafe_of_register (hu : s.points u = .add (.register conn))
    (hfreed : conn ∈ s.shared.freed) : ∃ s', lockSystem.Leads s s' ∧ ¬AddSafe s' := by
  have hleads : lockSystem.Leads s (s.put u (.add (.read conn (0 < -1)), s.shared)) :=
    leads_point (by rw [hu]; rfl)
  obtain ⟨s', hleads', hunsafe⟩ := unsafe_of_read
    (s := s.put u (.add (.read conn (0 < -1)), s.shared)) (put_self ..) hfreed
  exact ⟨s', hleads.trans hleads', hunsafe⟩

/-- A thread that is still adding comes to read what has been freed. -/
theorem unsafe_of_freed (hu : (s.points u).adding = some conn) (hfreed : conn ∈ s.shared.freed) :
    ∃ s', lockSystem.Leads s s' ∧ ¬AddSafe s' := by
  cases hpoint : s.points u with
  | add p =>
      rw [hpoint] at hu
      cases p with
      | unlist a =>
          cases hu
          have hleads : lockSystem.Leads s
              (s.put u (.add (.register conn), s.shared.unlockList u)) :=
            leads_point (by rw [hpoint]; rfl)
          obtain ⟨s', hleads', hunsafe⟩ := unsafe_of_register
            (s := s.put u (.add (.register conn), s.shared.unlockList u)) (put_self ..) hfreed
          exact ⟨s', hleads.trans hleads', hunsafe⟩
      | register a =>
          cases hu
          exact unsafe_of_register hpoint hfreed
      | read a failed =>
          cases hu
          exact unsafe_of_read hpoint hfreed
      | _ => cases hu
  | _ =>
      rw [hpoint] at hu
      cases hu

end

/-- Where a connection is taken off the list that a thread is still adding,
that thread can come to read it after it has been freed. -/
theorem addConn_unsafe {s : Sharing} {t u conn : Nat} {id : Int64}
    (hp : s.points t = .close id (.delete conn)) (hu : (s.points u).adding = some conn)
    (hlock : s.shared.connLock conn = none) : ∃ s', lockSystem.Leads s s' ∧ ¬AddSafe s' := by
  have hut : u ≠ t := by
    intro heq
    rw [heq, hp] at hu
    cases hu
  obtain ⟨mid, hleads, hfreed, hsame⟩ := frees_of_delete hut hp hlock
  rw [← hsame] at hu
  obtain ⟨s', hleads', hunsafe⟩ := unsafe_of_freed hu hfreed
  exact ⟨s', hleads.trans hleads', hunsafe⟩

-- ======================================================= the main result

theorem addsAlone_of_add {s : Sharing} {t : Nat} {outcome : SendOutcome} {ctl : Int}
    {p : AddPoint} (hp : s.points t = .add p) : AddsAlone s (.run t outcome ctl) := by
  intro id conn hdelete
  rw [hp] at hdelete
  cases hdelete

/-- In every run of any number of threads in which a connection is taken off
the list only after `cceph_messenger_add_conn` has read its id: what that
function touches has not been freed, and no other connection has that id. -/
theorem addConn_safe {s : Sharing} (h : lockSystem.Reached AddsAlone s) : AddSafe s := by
  have hlisted : AddsListed s := by
    refine h.invariant ?_ fun _ _ _ hs hgood hstep => hs.step hgood hstep
    intro s hinit
    rw [show s = _ from hinit]
    exact addsListed_start
  exact hlisted.addSafe (safe_of_reached h)

/-- Thread 0 adds a connection and comes to read its id, while thread 1 is
about to close it. -/
theorem addConn_safe_first : ∃ s, lockSystem.Reached AddsAlone s
    ∧ s.points 0 = .add (.read 0 false) ∧ s.points 1 = .close 2 .wrlock ∧ AddSafe s := by
  have hstart : lockSystem.Reached AddsAlone sharingStart := .start rfl
  have hcalled := hstart.next (a := .call 0 (.addConn ⟨[], noNul_nil⟩ 9000 5
    CCEPH_CONN_STATE_OPEN)) (by exact Nat.two_pow_pos 64) rfl
  have hlocked := hcalled.next (a := .run 0 (.failed 0) 0) (addsAlone_of_add rfl) rfl
  have hlisted := hlocked.next (a := .run 0 (.failed 0) 0) (addsAlone_of_add rfl) rfl
  have hopen := hlisted.next (a := .run 0 (.failed 0) 0) (addsAlone_of_add rfl) rfl
  have hclosing := hopen.next (a := .call 1 (.closeConn 2)) (by exact trivial) rfl
  have hadded := hclosing.next (a := .run 0 (.failed 0) 0) (addsAlone_of_add rfl) rfl
  exact ⟨_, hadded, rfl, rfl, addConn_safe hadded⟩

/-- Thread 0 has put a connection in the list and in the epoll set. Thread 1
has an event for its descriptor, finds that the peer has closed it, and
closes the connection before thread 0 reads its id. -/
def addsTooLong : List LockAct :=
  .call 0 (.addConn ⟨[], noNul_nil⟩ 9000 5 CCEPH_CONN_STATE_OPEN) :: operations 0 4
    ++ .call 1 (.find (.byFd 5)) :: operations 1 5
    ++ .call 1 (.closeConn 2) :: operations 1 12

theorem not_addConn_safe : ¬∀ s, lockSystem.Reachable s → AddSafe s := by
  intro h
  have hrun : ∃ s, lockSystem.exec sharingStart addsTooLong = some s
      ∧ s.points 0 = .add (.read 0 false) ∧ s.shared.freed = [0] := ⟨_, rfl, rfl, rfl⟩
  obtain ⟨s, hrun, hreads, hfreed⟩ := hrun
  have hreached : lockSystem.Reachable s :=
    System.Reached.exec addsTooLong (fun _ _ _ => trivial) (.start rfl) hrun
  apply (h s hreached).live 0 (.read 0 false) 0 hreads rfl
  rw [hfreed]
  exact List.mem_singleton_self 0

end CephInC
