/-
Where a connection is answered for as closed, a write on it failed.

Only a thread that saw a write fail sets the mark
(`pointStep_conns`), and only the mark makes `cceph_messenger_send_msg`
answer so (`sendStep_refused`). What is left is that no connection starts
with the mark, and `cceph_messenger_add_conn` does not see to that.
-/
import CephInC.Message.Failing
import CephInC.Message.Proofs.Streams

namespace CephInC

open Lib

section
variable {s : Shared} {t : Nat} {outcome : SendOutcome} {r : Point × Shared}

/-- Only the mark changes what is in a connection. -/
theorem pointStep_conns {ctl : Int} {p : Point} (h : pointStep s t outcome ctl p = some r) :
    r.2.conns = s.conns
      ∨ ∃ id msg conn, p = .send id msg (.mark conn) ∧ r.2 = s.markClosed conn := by
  have heffect := pointStep_effect h
  obtain ⟨p', m⟩ := r
  cases heffect with
  | entered call => cases h
  | aside _ _ _ _ _ hconns _ => exact .inl hconns
  | marked => exact .inr ⟨_, _, _, rfl, rfl⟩
  | _ => exact .inl rfl

/-- The mark is seen by the thread that answers for it. -/
theorem sendStep_refused {id : Int64} {msg : Msg} {p : SendPoint} {conn : Nat}
    (h : sendStep s t id msg outcome p = some r) (hrefused : r.1.refused = some conn) :
    (s.conns conn).state = CCEPH_CONN_STATE_CLOSED ∧ r.2.conns = s.conns := by
  cases p with
  | state a =>
      simp only [sendStep] at h
      split_ifs at h with hclosed
      · cases h
        cases hrefused
        exact ⟨hclosed, rfl⟩
      · cases h
        cases hrefused
  | get pos =>
      simp only [sendStep] at h
      split at h <;> cases h <;> cases hrefused
  | call a calls last =>
      cases calls with
      | nil =>
          simp only [sendStep] at h
          split_ifs at h <;> cases h <;> cases hrefused
      | cons call calls =>
          simp only [sendStep] at h
          split at h
          · split_ifs at h <;> cases h <;> cases hrefused
          · cases h
  | unlock a ret =>
      simp only [sendStep] at h
      split_ifs at h <;> cases h <;> cases hrefused
  | rdlock =>
      obtain ⟨m, -, h⟩ := Option.map_eq_some_iff.mp h
      rw [← h] at hrefused
      cases hrefused
  | lock a =>
      obtain ⟨m, -, h⟩ := Option.map_eq_some_iff.mp h
      rw [← h] at hrefused
      cases hrefused
  | fd a =>
      obtain ⟨calls, -, h⟩ := Option.map_eq_some_iff.mp h
      rw [← h] at hrefused
      cases hrefused
  | _ =>
      cases h
      cases hrefused

theorem not_refused_of_msg {p : Point} (h : p.msg = none) : p.refused = none := by
  cases p with
  | send id msg p => cases h
  | _ => rfl

theorem pointStep_refused {ctl : Int} {p : Point} {conn : Nat}
    (h : pointStep s t outcome ctl p = some r) (hrefused : r.1.refused = some conn) :
    (s.conns conn).state = CCEPH_CONN_STATE_CLOSED := by
  by_cases hmsg : p.msg = none
  · -- only a thread that sends comes to such a point
    have hafter : r.1.msg = none := by
      have heffect := pointStep_effect h
      obtain ⟨p', m⟩ := r
      cases heffect with
      | entered call => cases h
      | aside _ _ hsame _ _ _ _ => exact hsame.elim id fun heq => heq.trans hmsg
      | shut => rfl
      | _ => cases hmsg
    rw [not_refused_of_msg hafter] at hrefused
    cases hrefused
  · cases p with
    | send id msg p => exact (sendStep_refused h hrefused).1
    | _ => exact absurd rfl hmsg

end

-- ================================================================= a run

/-- A mark stands for a write that failed, at whatever point it is. -/
structure MarksEarned (s : Watched) : Prop where
  state : ∀ conn, (s.sharing.shared.conns conn).state = CCEPH_CONN_STATE_CLOSED →
    conn ∈ s.failed
  marking : ∀ t conn, (s.sharing.points t).writeFailed = some conn → conn ∈ s.failed
  refused : ∀ t conn, (s.sharing.points t).refused = some conn → conn ∈ s.failed

theorem marksEarned_start : MarksEarned ⟨sharingStart, []⟩ := by
  refine ⟨fun conn h => ?_, fun t conn h => ?_, fun t conn h => ?_⟩
  · exact absurd h (show ¬CCEPH_CONN_STATE_UNKNOWN = CCEPH_CONN_STATE_CLOSED by decide)
  · cases h
  · cases h

section
variable {s : Watched} {t : Nat}

/-- A call is entered, with a new connection that is not marked, or none. -/
theorem MarksEarned.called (h : MarksEarned s) {call : Call}
    (hgood : BlockNotClosed s (.call t call)) :
    MarksEarned ⟨s.sharing.put t (callPoint s.sharing.shared call), s.failed⟩ := by
  have hpoint : (callPoint s.sharing.shared call).1.writeFailed = none
      ∧ (callPoint s.sharing.shared call).1.refused = none := by
    cases call <;> exact ⟨rfl, rfl⟩
  refine ⟨fun conn hclosed => ?_, ?_, ?_⟩
  · cases call with
    | addConn host port fd state =>
        by_cases hnew : conn = s.sharing.shared.made
        · have hstate : (Function.update s.sharing.shared.conns s.sharing.shared.made
              ⟨s.sharing.shared.nextConnId + 1, host, port, fd, state⟩ conn).state
              = CCEPH_CONN_STATE_CLOSED := hclosed
          rw [hnew, Function.update_self] at hstate
          exact absurd hstate hgood
        · have hstate : (Function.update s.sharing.shared.conns s.sharing.shared.made
              ⟨s.sharing.shared.nextConnId + 1, host, port, fd, state⟩ conn).state
              = CCEPH_CONN_STATE_CLOSED := hclosed
          rw [Function.update_of_ne hnew] at hstate
          exact h.state conn hstate
    | _ => exact h.state conn hclosed
  · refine forall_put (fun p => ∀ conn, p.writeFailed = some conn → conn ∈ s.failed) ?_
      fun u _ => h.marking u
    intro conn hself
    rw [hpoint.1] at hself
    cases hself
  · refine forall_put (fun p => ∀ conn, p.refused = some conn → conn ∈ s.failed) ?_
      fun u _ => h.refused u
    intro conn hself
    rw [hpoint.2] at hself
    cases hself

/-- An operation of a thread. -/
theorem MarksEarned.ran (h : MarksEarned s) {outcome : SendOutcome} {ctl : Int}
    {r : Point × Shared}
    (hstep : pointStep s.sharing.shared t outcome ctl (s.sharing.points t) = some r) :
    MarksEarned ⟨s.sharing.put t r, r.1.writeFailed.toList ++ s.failed⟩ := by
  refine ⟨fun conn hclosed => ?_, ?_, ?_⟩
  · apply List.mem_append_right
    have hstate : (r.2.conns conn).state = CCEPH_CONN_STATE_CLOSED := hclosed
    rcases pointStep_conns hstep with hconns | ⟨id, msg, a, hpoint, hmark⟩
    · rw [hconns] at hstate
      exact h.state conn hstate
    · by_cases ha : conn = a
      · apply h.marking t conn
        rw [hpoint, ha]
        rfl
      · apply h.state conn
        have hother : (s.sharing.shared.markClosed a).conns conn = s.sharing.shared.conns conn :=
          Function.update_of_ne ha ..
        rw [hmark, hother] at hstate
        exact hstate
  · refine forall_put (fun p => ∀ conn, p.writeFailed = some conn →
      conn ∈ r.1.writeFailed.toList ++ s.failed) ?_
      fun u _ conn hu => List.mem_append_right _ (h.marking u conn hu)
    intro conn hself
    rw [hself]
    exact List.mem_cons_self
  · refine forall_put (fun p => ∀ conn, p.refused = some conn →
      conn ∈ r.1.writeFailed.toList ++ s.failed) ?_
      fun u _ conn hu => List.mem_append_right _ (h.refused u conn hu)
    intro conn hself
    exact List.mem_append_right _ (h.state conn (pointStep_refused hstep hself))

theorem MarksEarned.step {s' : Watched} {act : LockAct} (h : MarksEarned s)
    (hgood : BlockNotClosed s act) (hstep : watchedStep s act = some s') : MarksEarned s' := by
  obtain ⟨sharing, hlock, rfl⟩ := Option.map_eq_some_iff.mp hstep
  rcases lockStep_cases hlock with
    ⟨t, call, rfl, -, rfl⟩ | ⟨t, outcome, ctl, r, rfl, hpoint, rfl⟩
  · exact h.called hgood
  · have hran := h.ran hpoint
    rw [← put_self s.sharing t r] at hran
    exact hran

end

/-- In every run of any number of threads in which no new connection looks
closed: where `cceph_messenger_send_msg` answers that a connection is
closed, a write on it has failed before. -/
theorem refused_after_failure {s : Watched} (h : watchedSystem.Reached BlockNotClosed s)
    {t conn : Nat} (hrefused : (s.sharing.points t).refused = some conn) : conn ∈ s.failed := by
  have hearned : MarksEarned s := by
    refine h.invariant ?_ fun _ _ _ hs hgood hstep => hs.step hgood hstep
    intro s hinit
    rw [show s = _ from hinit]
    exact marksEarned_start
  exact hearned.refused t conn hrefused

/-- Threads 1 and 2 find the connection that thread 0 has added; thread 1
fails to send, and thread 2 comes after it. -/
def failsAndRefuses : List LockAct :=
  adds ++ .call 1 (.sendMsg 2 (.writeObjAck firstAck)) :: operations 1 6
    ++ .call 2 (.sendMsg 2 (.writeObjAck firstAck)) :: operations 2 3
    ++ operations 1 5 ++ operations 2 3

theorem refused_after_failure_two : ∃ s, watchedSystem.Reached BlockNotClosed s
    ∧ (s.sharing.points 2).refused = some 0 ∧ 0 ∈ s.failed := by
  have hrun : ∃ s, watchedSystem.exec ⟨sharingStart, []⟩ failsAndRefuses = some s
      ∧ (s.sharing.points 2).refused = some 0 := ⟨_, rfl, rfl⟩
  obtain ⟨s, hrun, hrefused⟩ := hrun
  have hreached : watchedSystem.Reached BlockNotClosed s := by
    refine System.Reached.exec failsAndRefuses ?_ (.start rfl) hrun
    intro act hact s
    cases act with
    | call t call =>
        cases call with
        | addConn host port fd state =>
            have hstate : state = CCEPH_CONN_STATE_OPEN := by
              simp [failsAndRefuses, adds, operations] at hact
              exact hact.2.2.2.2
            rw [BlockNotClosed, hstate]
            decide
        | _ => trivial
    | run t outcome ctl => trivial
  exact ⟨s, hreached, hrefused, refused_after_failure hreached hrefused⟩

/-- Thread 0 adds a connection in a block that says closed, and thread 1
sends to it. -/
def addsClosed : List LockAct :=
  .call 0 (.addConn ⟨[], noNul_nil⟩ 9000 5 CCEPH_CONN_STATE_CLOSED) :: operations 0 5
    ++ .call 1 (.sendMsg 2 (.writeObjAck firstAck)) :: operations 1 6

theorem refused_without_failure : ∃ s, watchedSystem.exec ⟨sharingStart, []⟩ addsClosed = some s
    ∧ (s.sharing.points 1).refused = some 0 ∧ s.sharing.shared.connList = [0]
    ∧ s.failed = [] :=
  ⟨_, rfl, rfl, rfl, rfl⟩

end CephInC
