/-
What an id stands for when it is passed as an `int`.

An id that is an `int` finds its connection and no other. Any other one
is cut, and then either finds nothing or finds a connection with another
id (`byId_iff`): the id was not there, and so nothing went wrong, or the
wrong thing is closed, or the right thing is not.
-/
import CephInC.Message.Proofs.Events
import CephInC.Message.Sockets
import Mathlib.Data.List.Nodup

namespace CephInC

open Lib

/-- Where a field tells the elements apart, taking the first one with a
value out takes out all of them. -/
theorem eraseP_eq_filter {α β : Type} [DecidableEq β] {f : α → β} (b : β) : ∀ {l : List α},
    l.Pairwise (fun x y => f x ≠ f y) →
    l.eraseP (fun x => f x = b) = l.filter (fun x => f x ≠ b)
  | [], _ => rfl
  | x :: l, h => by
      obtain ⟨hx, hl⟩ := List.pairwise_cons.mp h
      by_cases hb : f x = b
      · have hothers : ∀ y ∈ l, decide (f y ≠ b) = true := by
          intro y hy
          rw [← hb]
          exact decide_eq_true (Ne.symm (hx y hy))
        rw [List.eraseP_cons_of_pos (p := fun x => decide (f x = b)) (decide_eq_true hb),
          List.filter_cons_of_neg (p := fun x => decide (f x ≠ b)) (by simp [hb]),
          List.filter_eq_self.mpr hothers]
      · rw [List.eraseP_cons_of_neg (p := fun x => decide (f x = b)) (by simp [hb]),
          List.filter_cons_of_pos (p := fun x => decide (f x ≠ b)) (decide_eq_true hb),
          eraseP_eq_filter b hl]

variable {messenger : Messenger} {id : Int64} {conn : Connection} {msg : Msg}

-- ==================================================== one socket of them

/-- On a socket that the run leaves alone, all is as before. -/
theorem onSocket_frame {α : Type} {fd fd' : Int32} {x : Prog Outbox α}
    {sockets sockets' : Sockets} {a : α} (h : onSocket fd x sockets = .ok (a, sockets'))
    (hne : fd' ≠ fd) : sockets' fd' = sockets fd' := by
  unfold onSocket at h
  cases hx : x (sockets fd) with
  | error e =>
      rw [hx] at h
      cases h
  | ok r =>
      obtain ⟨a', out⟩ := r
      rw [hx] at h
      cases h
      exact Function.update_of_ne hne out sockets

/-- Among all sockets, the sender runs on that of the connection it finds. -/
theorem messengerSendMsgOn_found
    (hconn : messengerGetConnById messenger (connIdToInt id) = some conn) (sockets : Sockets) :
    messengerSendMsgOn messenger id msg sockets
      = onSocket conn.fd (messengerSendMsg messenger id msg) sockets := by
  unfold messengerSendMsgOn messengerSendMsg
  by_cases hnormal : messenger.state = CCEPH_MESSENGER_STATE_NORMAL
  · rw [assert_pos hnormal, assert_pos hnormal, pure_bind, pure_bind, hconn]
    by_cases hclosed : conn.state = CCEPH_CONN_STATE_CLOSED
    · simp only [if_pos hclosed]
      unfold onSocket
      simp only [pure_run, Function.update_eq_self]
    · simp only [if_neg hclosed]
      rw [bind_run]
      unfold onSocket
      rw [bind_run]
      cases hwrite : writeMessage msg (sockets conn.fd) with
      | error e => rfl
      | ok r =>
          obtain ⟨ret, out⟩ := r
          by_cases hret : ret ≠ 0
          · simp only [if_pos hret, pure_run]
          · simp only [if_neg hret, pure_run]
  · rw [assert_neg hnormal, assert_neg hnormal]
    rfl

/-- Where it finds none, it runs on no socket. -/
theorem messengerSendMsgOn_missed
    (hconn : messengerGetConnById messenger (connIdToInt id) = none)
    {sockets sockets' : Sockets} {r : Int × Messenger}
    (hrun : messengerSendMsgOn messenger id msg sockets = .ok (r, sockets')) :
    sockets' = sockets := by
  unfold messengerSendMsgOn at hrun
  obtain ⟨-, hrun⟩ := assert_bind_eq_ok hrun
  rw [hconn] at hrun
  cases hrun
  rfl

-- ============================================================ found by id

/-- What is found has the id that was searched for. -/
theorem getConnById_id {id : Int32} (h : messengerGetConnById messenger id = some conn) :
    conn ∈ messenger.connList ∧ conn.id.toInt = id.toInt := by
  refine ⟨List.mem_of_find?_eq_some h, ?_⟩
  have hfound := List.find?_some h
  exact of_decide_eq_true hfound

theorem getConnById_eq_none {id : Int32} : messengerGetConnById messenger id = none
    ↔ ∀ conn ∈ messenger.connList, conn.id.toInt ≠ id.toInt := by
  unfold messengerGetConnById
  rw [List.find?_eq_none]
  simp only [decide_eq_true_eq, ne_eq]

/-- An id that is an `int` stands for the connection that has it. -/
theorem listed_iff (hfits : id.toInt = (connIdToInt id).toInt) : Listed messenger id conn
    ↔ conn ∈ messenger.connList ∧ conn.id.toInt = (connIdToInt id).toInt := by
  unfold Listed
  rw [← hfits, Int64.toInt_inj]

/-- Of connections with different ids, only one has this one. -/
theorem listed_unique (hids : messenger.connList.Pairwise (fun a b => a.id ≠ b.id))
    {c : Connection} (h : Listed messenger id conn) (h' : Listed messenger id c) : conn = c :=
  List.inj_on_of_nodup_map (List.pairwise_map.mpr hids) h.1 h'.1 (h.2.trans h'.2.symm)

/-- Whatever the id, the socket written to is that of a connection found by
what an `int` makes of it. -/
theorem sendMsgOn_writes {sockets sockets' : Sockets} {r : Int × Messenger}
    (hrun : messengerSendMsgOn messenger id msg sockets = .ok (r, sockets')) {fd : Int32}
    (hfd : sockets' fd ≠ sockets fd) :
    ∃ conn, messengerGetConnById messenger (connIdToInt id) = some conn ∧ conn.fd = fd := by
  cases hconn : messengerGetConnById messenger (connIdToInt id) with
  | none =>
      rw [messengerSendMsgOn_missed hconn hrun] at hfd
      exact absurd rfl hfd
  | some conn =>
      refine ⟨conn, rfl, ?_⟩
      rw [messengerSendMsgOn_found hconn] at hrun
      by_contra hne
      exact hfd (onSocket_frame hrun (Ne.symm hne))

-- ========================================================== ids that are told

/-- By an id that is an `int`, the right connection is closed. -/
theorem closesById_of_fits (hids : messenger.connList.Pairwise (fun a b => a.id ≠ b.id))
    (hfits : id.toInt = (connIdToInt id).toInt) : ClosesById messenger id := by
  constructor
  · intro conn hlisted
    cases hfind : messengerGetConnById messenger (connIdToInt id) with
    | none =>
        exact absurd ((listed_iff hfits).mp hlisted).2
          (getConnById_eq_none.mp hfind conn hlisted.1)
    | some c =>
        have hsame := listed_unique hids hlisted ((listed_iff hfits).mpr (getConnById_id hfind))
        subst hsame
        have herase : (fun c : Connection => decide (c.id.toInt = (connIdToInt id).toInt))
            = fun c => decide (c.id = id) := by
          funext c
          rw [decide_eq_decide, ← hfits, Int64.toInt_inj]
        refine ⟨?_, ?_, ?_⟩
        · unfold messengerCloseConn
          rw [hfind]
        · rw [messengerCloseConn_connList, herase]
          exact eraseP_eq_filter id hids
        · unfold messengerCloseConn
          rw [hfind]
  · intro hnone
    have hfind : messengerGetConnById messenger (connIdToInt id) = none :=
      getConnById_eq_none.mpr fun conn hconn hid => hnone conn ((listed_iff hfits).mpr ⟨hconn, hid⟩)
    unfold messengerCloseConn
    rw [hfind]

/-- And written to. -/
theorem sendsById_of_fits (hfits : id.toInt = (connIdToInt id).toInt) :
    SendsById messenger id := by
  intro msg sockets ret messenger' sockets' hrun fd hfd
  obtain ⟨conn, hfind, hconn⟩ := sendMsgOn_writes hrun hfd
  exact ⟨conn, (listed_iff hfits).mpr (getConnById_id hfind), hconn⟩

/-- Where neither the id nor what an `int` makes of it is there, nothing is
done, as it should be. -/
theorem byId_of_missing (hmissing : ∀ conn ∈ messenger.connList,
    conn.id ≠ id ∧ conn.id.toInt ≠ (connIdToInt id).toInt) :
    ClosesById messenger id ∧ SendsById messenger id := by
  have hfind : messengerGetConnById messenger (connIdToInt id) = none :=
    getConnById_eq_none.mpr fun conn hconn => (hmissing conn hconn).2
  refine ⟨⟨fun conn hlisted => ?_, fun _ => ?_⟩, ?_⟩
  · exact absurd hlisted.2 (hmissing conn hlisted.1).1
  · unfold messengerCloseConn
    rw [hfind]
  · intro msg sockets ret messenger' sockets' hrun fd hfd
    obtain ⟨conn, hfound, -⟩ := sendMsgOn_writes hrun hfd
    rw [hfind] at hfound
    cases hfound

/-- By an id that is cut, its connection is not closed. -/
theorem not_closesById_cut (hcut : id.toInt ≠ (connIdToInt id).toInt)
    (hlisted : Listed messenger id conn) : ¬ClosesById messenger id := by
  intro hcloses
  have hleft := (hcloses.1 conn hlisted).2.1
  obtain ⟨hconn, rfl⟩ := hlisted
  have hstays := mem_closeConn hconn hcut
  rw [hleft, List.mem_filter] at hstays
  exact absurd rfl (of_decide_eq_true hstays.2)

/-- And where nothing has it, another one may be. -/
theorem not_closesById_other (hnone : ∀ conn, ¬Listed messenger id conn)
    (hconn : conn ∈ messenger.connList) (hid : conn.id.toInt = (connIdToInt id).toInt) :
    ¬ClosesById messenger id := by
  intro hcloses
  have hsaid := hcloses.2 hnone
  cases hfind : messengerGetConnById messenger (connIdToInt id) with
  | none => exact getConnById_eq_none.mp hfind conn hconn hid
  | some c =>
      have hret : (messengerCloseConn messenger id).1 = 0 := by
        unfold messengerCloseConn
        rw [hfind]
      rw [hsaid] at hret
      cases hret

-- ======================================================= the main result

/-- An id stands for the connection that has it exactly if it is an `int`, or
is not there and cut to one that is not there either. -/
theorem byId_iff (messenger : Messenger)
    (hids : messenger.connList.Pairwise (fun a b => a.id ≠ b.id)) (id : Int64) :
    ClosesById messenger id ∧ SendsById messenger id ↔ IdTold messenger id := by
  constructor
  · rintro ⟨hcloses, -⟩
    by_contra hcut
    unfold IdTold at hcut
    obtain ⟨hcut, hnot⟩ := not_or.mp hcut
    apply hnot
    have hnone : ∀ conn, ¬Listed messenger id conn :=
      fun conn hlisted => not_closesById_cut hcut hlisted hcloses
    exact fun conn hconn => ⟨fun hid => hnone conn ⟨hconn, hid⟩,
      fun hid => not_closesById_other hnone hconn hid hcloses⟩
  · intro htold
    cases htold with
    | inl hfits => exact ⟨closesById_of_fits hids hfits, sendsById_of_fits hfits⟩
    | inr hmissing => exact byId_of_missing hmissing

/-- Of two connections. -/
def twoConns : Messenger :=
  { firstMessenger with
    nextConnId := 3
    connList := [⟨3, firstConn.host, 9001, 6, 1⟩, firstConn]
    armed := [6, 5] }

theorem byId_second : ClosesById twoConns 2 ∧ SendsById twoConns 2 :=
  (byId_iff twoConns (by decide) 2).2 (.inl (by decide))

/-- The id of a connection that is 2^32 connections old is cut to its own. -/
theorem byId_cut :
    ¬∀ (messenger : Messenger) (id : Int64),
      messenger.connList.Pairwise (fun a b => a.id ≠ b.id) →
      ClosesById messenger id ∧ SendsById messenger id := by
  intro hall
  have hnone : ∀ conn, ¬Listed firstMessenger 4294967298 conn := by
    rintro conn ⟨hconn, hid⟩
    rw [List.mem_singleton.mp hconn] at hid
    exact absurd hid (by decide)
  exact not_closesById_other hnone List.mem_cons_self (by decide)
    (hall firstMessenger 4294967298 (List.pairwise_singleton _ _)).1

end CephInC
