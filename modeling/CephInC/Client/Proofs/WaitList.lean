/-
What the functions of `client/client.c` do to the list of waiting
requests.

`ackLoop_spec` says it of the loop of `do_object_write_ack`: the first
entry with the number is counted up, whatever
`client_debug_check_duplicate_req_when_ack` is. With that option off the
loop ends at this entry, which is then the one the signal depends on.
-/
import CephInC.Client.Client

namespace CephInC

theorem WaitReq.answers_iff {reqId : Int64} {w : WaitReq} :
    w.answers reqId = true ↔ w.req.header.op = CCEPH_MSG_OP_WRITE ∧ w.req.reqId = reqId :=
  decide_eq_true_iff

/-- An entry with one acknowledgement more. -/
def WaitReq.acked (w : WaitReq) : WaitReq := { w with ackCount := w.ackCount + 1 }

/-- Once an entry is found, no other is touched. -/
theorem ackLoop_found (check : Bool) (reqId : Int64) (ws : List WaitReq) :
    ∀ waitReq, (ackLoop check reqId true waitReq ws).1 = ws
      ∧ (ackLoop check reqId true waitReq ws).2.1 = true := by
  induction ws with
  | nil => exact fun waitReq => ⟨rfl, rfl⟩
  | cons w ws ih =>
      intro waitReq
      obtain ⟨hlist, hfound⟩ := ih (some w)
      have hstep : ackLoop check reqId true waitReq (w :: ws)
          = (w :: (ackLoop check reqId true (some w) ws).1,
            (ackLoop check reqId true (some w) ws).2) := by
        rw [ackLoop, if_pos rfl]
        split_ifs <;> rfl
      rw [hstep]
      exact ⟨congrArg (w :: ·) hlist, hfound⟩

/-- An entry of another number is passed over. -/
theorem ackLoop_skip (check : Bool) {reqId : Int64} {w : WaitReq} (ws : List WaitReq)
    (waitReq : Option WaitReq) (h : w.answers reqId = false) :
    ackLoop check reqId false waitReq (w :: ws)
      = (w :: (ackLoop check reqId false (some w) ws).1,
        (ackLoop check reqId false (some w) ws).2) := by
  have hnot : ¬(w.req.header.op = CCEPH_MSG_OP_WRITE ∧ w.req.reqId = reqId) :=
    of_decide_eq_false h
  rw [ackLoop]
  by_cases hop : w.req.header.op = CCEPH_MSG_OP_WRITE
  · have hid : w.req.reqId ≠ reqId := fun hid => hnot ⟨hop, hid⟩
    rw [if_neg (not_not_intro hop), if_pos hid]
  · rw [if_pos hop]

/-- What the loop does to the list. -/
inductive AckOutcome (check : Bool) (reqId : Int64) (waitReq : Option WaitReq)
    (ws : List WaitReq) : Prop
  | absent (last : Option WaitReq)
      (hrun : ackLoop check reqId false waitReq ws = (ws, false, last))
      (hnone : ∀ w ∈ ws, w.answers reqId = false)
  | counted (pre : List WaitReq) (w : WaitReq) (post : List WaitReq)
      (last : Option WaitReq) (hws : ws = pre ++ w :: post)
      (hrun : ackLoop check reqId false waitReq ws
        = (pre ++ w.acked :: post, true, last))
      (hw : w.answers reqId = true) (hpre : ∀ w' ∈ pre, w'.answers reqId = false)
      (hlast : check = false → last = some w.acked)

theorem ackLoop_spec (check : Bool) (reqId : Int64) (ws : List WaitReq) :
    ∀ waitReq, AckOutcome check reqId waitReq ws := by
  induction ws with
  | nil =>
      intro waitReq
      refine .absent waitReq rfl ?_
      intro w hw
      cases hw
  | cons w ws ih =>
      intro waitReq
      cases hw : w.answers reqId with
      | false =>
          have hskip := ackLoop_skip check ws waitReq hw
          cases ih (some w) with
          | absent last hrun hnone =>
              refine .absent last ?_ (List.forall_mem_cons.mpr ⟨hw, hnone⟩)
              rw [hskip, hrun]
          | counted pre w' post last hws hrun hw' hpre hlast =>
              refine .counted (w :: pre) w' post last (by rw [hws]; rfl) ?_ hw'
                (List.forall_mem_cons.mpr ⟨hw, hpre⟩) hlast
              rw [hskip, hrun]
              rfl
      | true =>
          obtain ⟨hop, hid⟩ := WaitReq.answers_iff.mp hw
          have hstep : ackLoop check reqId false waitReq (w :: ws)
              = if !check then (w.acked :: ws, true, some w.acked)
                else (w.acked :: (ackLoop check reqId true (some w.acked) ws).1,
                  (ackLoop check reqId true (some w.acked) ws).2) := by
            rw [ackLoop, if_neg (not_not_intro hop), if_neg (not_not_intro hid)]
            rfl
          have hnil : ∀ w' ∈ ([] : List WaitReq), w'.answers reqId = false := nofun
          cases check with
          | false => exact .counted [] w ws (some w.acked) rfl hstep hw hnil fun _ => rfl
          | true =>
              obtain ⟨hlist, hfound⟩ := ackLoop_found true reqId ws (some w.acked)
              refine .counted [] w ws (ackLoop true reqId true (some w.acked) ws).2.2
                rfl ?_ hw hnil nofun
              have hrest : (ackLoop true reqId true (some w.acked) ws).2 = (true, _) :=
                Prod.ext hfound rfl
              rw [hstep]
              show (w.acked :: (ackLoop true reqId true (some w.acked) ws).1, _) = _
              rw [hlist]
              exact congrArg (Prod.mk _) hrest

theorem WaitReq.finished_acked {w : WaitReq} {addr : Nat} (henough : w.acked.enough = false)
    (h : w.finished addr = false) : w.acked.finished addr = false := by
  have hnot : ¬(w.addr = addr ∧ (w.commitCount > 0 ∨ w.enough)) := of_decide_eq_false h
  apply decide_eq_false
  rintro ⟨haddr, hcommit | hack⟩
  · exact hnot ⟨haddr, .inl hcommit⟩
  · rw [henough] at hack
    cases hack

theorem WaitReq.finished_of_ne {w : WaitReq} {addr : Nat} (h : w.addr ≠ addr) :
    w.finished addr = false :=
  decide_eq_false fun hfin => h hfin.1

theorem isReqFinished_none {client client' : Client} {addr : Nat}
    (h : isReqFinished client addr = (none, client')) :
    ∀ w ∈ client.waitReqList, w.finished addr = false := by
  unfold isReqFinished at h
  cases hfind : client.waitReqList.find? (WaitReq.finished addr) with
  | none =>
      intro w hw
      exact Bool.eq_false_iff.mpr (List.find?_eq_none.mp hfind w hw)
  | some w =>
      rw [hfind] at h
      cases h

theorem isReqFinished_some {client client' : Client} {addr : Nat} {w : WaitReq}
    (h : isReqFinished client addr = (some w, client')) :
    w ∈ client.waitReqList ∧ w.finished addr = true
      ∧ client' = { client with
          waitReqList := client.waitReqList.eraseP (WaitReq.finished addr) } := by
  unfold isReqFinished at h
  cases hfind : client.waitReqList.find? (WaitReq.finished addr) with
  | none =>
      rw [hfind] at h
      cases h
  | some w' =>
      rw [hfind] at h
      cases h
      exact ⟨List.mem_of_find?_eq_some hfind, List.find?_some hfind, rfl⟩

theorem removeReqFromWaitList_ok {client client' : Client} {addr : Nat}
    (h : removeReqFromWaitList client addr = .ok client') :
    client' = { client with
      waitReqList := client.waitReqList.eraseP fun w => w.addr = addr } := by
  unfold removeReqFromWaitList at h
  split_ifs at h
  cases h
  rfl

/-- What `do_object_write_ack` does. -/
inductive WriteAckOutcome (check : Bool) (client : Client) (ack : MsgWriteObjAck) : Prop
  | ignored (ret : Int) (hrun : doObjectWriteAck check client ack = (ret, client, false))
      (hnone : ack.clientId = client.clientId →
        ∀ w ∈ client.waitReqList, w.answers ack.reqId = false)
  | counted (pre : List WaitReq) (w : WaitReq) (post : List WaitReq) (signal : Bool)
      (hws : client.waitReqList = pre ++ w :: post)
      (hrun : doObjectWriteAck check client ack
        = (CCEPH_OK, { client with waitReqList := pre ++ w.acked :: post }, signal))
      (hw : w.answers ack.reqId = true)
      (hpre : ∀ w' ∈ pre, w'.answers ack.reqId = false)
      (hsignal : check = false → signal = w.acked.enough)

theorem doObjectWriteAck_spec (check : Bool) (client : Client) (ack : MsgWriteObjAck) :
    WriteAckOutcome check client ack := by
  by_cases hclient : ack.clientId ≠ client.clientId
  · refine .ignored CCEPH_ERR_WRONG_CLIENT_ID ?_ fun h => absurd h hclient
    rw [doObjectWriteAck, if_pos hclient]
  · cases ackLoop_spec check ack.reqId client.waitReqList none with
    | absent last hrun hnone =>
        refine .ignored CCEPH_OK ?_ fun _ => hnone
        rw [doObjectWriteAck, if_neg hclient, hrun]
        rfl
    | counted pre w post last hws hrun hw hpre hlast =>
        refine .counted pre w post (last.any WaitReq.enough) hws ?_ hw hpre ?_
        · rw [doObjectWriteAck, if_neg hclient, hrun]
          rfl
        · intro hcheck
          rw [hlast hcheck]
          rfl

end CephInC
