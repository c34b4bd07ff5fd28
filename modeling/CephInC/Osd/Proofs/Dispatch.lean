/-
An object server and the messages its messenger hands it.

The messenger of a constructed server has the server as its context
(`osdInitial_wires`), and the handler insists on no context at all
(`osdProcessMessage_context`): so the first message ends the process.
`osdProcessMessage_answers` is what the handler does behind that
assertion.
-/
import CephInC.Osd.Osd
import CephInC.Osd.Proofs.Stored

namespace CephInC

open Lib SendCall

-- ==================================================== what serving would be

/-- The call answers the request: on its connection, with its numbers. -/
structure Answers (asked : Int64 × MsgWriteObjReq) (call : Int64 × Msg) : Prop where
  conn : call.1 = asked.1
  ack : ∃ ack, call.2 = .writeObjAck ack
    ∧ ack.header = ⟨CCEPH_MSG_OP_WRITE_ACK, asked.2.header.logId⟩
    ∧ ack.clientId = asked.2.clientId ∧ ack.reqId = asked.2.reqId

/-- All the requests are processed, and each is answered by one call. -/
def Serves (messenger : HandlerMessenger OsdWorld)
    (asked : List (Int64 × MsgWriteObjReq)) (s : OsdWorld) : Prop :=
  ∃ s' calls, startEpollProcessAll messenger
      (asked.map fun r => (r.1, .writeObjReq r.2)) s = .ok ((), s')
    ∧ s'.calls = s.calls ++ calls ∧ List.Forall₂ Answers asked calls

-- ============================================================ the wiring

theorem handlerMessengerNew_wires {σ : Type} {addr : Nat} {fds : MessengerFds}
    {msgHandler : MsgHandler σ} {context : Ptr} {workThreadCount : Int32}
    {allocs allocs' : Allocs} {ret : Int} {messenger : HandlerMessenger σ}
    (h : handlerMessengerNew addr fds msgHandler context workThreadCount allocs
      = .ok ((ret, some messenger), allocs')) :
    messenger.msgProcess = msgHandler ∧ messenger.context = context := by
  obtain ⟨granted, allocs1, -, h⟩ := bind_eq_ok h
  cases granted with
  | false => cases h
  | true =>
      obtain ⟨granted, allocs2, -, h⟩ := bind_eq_ok h
      cases granted with
      | false => cases h
      | true =>
          simp only [Bool.not_true, Bool.false_eq_true, if_false] at h
          by_cases hpipe : fds.pipe < 0
          · rw [if_pos hpipe] at h
            cases h
          · rw [if_neg hpipe] at h
            by_cases hepoll : fds.epollFd < 0
            · rw [if_pos hepoll, fault_bind] at h
              cases h
            · rw [if_neg hepoll] at h
              cases h
              exact ⟨rfl, rfl⟩

/-- A server that is there has itself as its messenger's context. -/
theorem osdInitial_wires {option : OsdOption} {blocks : OsdBlocks} {fds : MessengerFds}
    {ptr os osFuncs : Ptr} {osdId : Int32} {allocs allocs' : Allocs} {ret : Int}
    {osd : Osd}
    (h : osdInitial option blocks fds ptr osdId os osFuncs allocs
      = .ok ((ret, some osd), allocs')) :
    osd.msger.msgProcess = osdProcessMessage ∧ osd.msger.context = some blocks.osd := by
  obtain ⟨-, allocs1, -, h⟩ := bind_eq_ok h
  obtain ⟨-, allocs2, -, h⟩ := bind_eq_ok h
  obtain ⟨-, allocs3, -, h⟩ := bind_eq_ok h
  obtain ⟨-, allocs4, -, h⟩ := bind_eq_ok h
  obtain ⟨granted, allocs5, -, h⟩ := bind_eq_ok h
  cases granted with
  | false => cases h
  | true =>
      simp only [Bool.not_true, Bool.false_eq_true, if_false] at h
      obtain ⟨⟨ret1, msger⟩, allocs6, hnew, h⟩ := bind_eq_ok h
      by_cases hret1 : ret1 ≠ CCEPH_OK
      · simp only [if_pos hret1] at h
        cases h
      · simp only [if_neg hret1] at h
        obtain ⟨⟨ret2, smsger⟩, allocs7, -, h⟩ := bind_eq_ok h
        by_cases hret2 : ret2 ≠ CCEPH_OK
        · simp only [if_pos hret2] at h
          obtain ⟨-, allocs8, -, h⟩ := bind_eq_ok h
          cases h
        · simp only [if_neg hret2] at h
          cases msger with
          | none => cases h
          | some msger =>
              cases smsger with
              | none => cases h
              | some smsger =>
                  cases h
                  exact handlerMessengerNew_wires hnew

-- ========================================================== the assertion

theorem osdProcessMessage_context {messenger : Nat} {connId : Int64} {msg : Msg}
    {context : Ptr} (h : context ≠ none) (s : OsdWorld) :
    osdProcessMessage (some messenger) connId (some msg) context s
      = .error .assertFail := by
  have hasserts : osdProcessMessage (some messenger) connId (some msg) context
      = (fault .assertFail : Prog OsdWorld Int) := by
    unfold osdProcessMessage
    rw [deref_some, pure_bind, assert_pos (Option.some_ne_none messenger), pure_bind,
      assert_pos (Option.some_ne_none msg), pure_bind, assert_neg h, fault_bind]
  rw [hasserts, fault_run]

-- ------------------------------------------------- and what lies behind it

theorem ackCalls_within (ack : MsgWriteObjAck) :
    ∀ call ∈ messageCalls (.writeObjAck ack), Within call := by
  intro call h
  simp only [messageCalls, headerCalls, List.cons_append, List.nil_append,
    List.mem_cons, List.not_mem_nil, or_false] at h
  rcases h with rfl | rfl | rfl | rfl | rfl
  · exact ⟨Nat.le_of_eq (int8Codec.bytes_length _).symm, rfl⟩
  · trivial
  · trivial
  · trivial
  · exact ⟨Nat.le_of_eq (int8Codec.bytes_length _).symm, rfl⟩

/-- An acknowledgement is sent or it is not; the caller is told. -/
theorem messengerSendMsg_ack {messenger : Messenger} (connId : Int64)
    {ack : MsgWriteObjAck} (hop : ack.header.op = CCEPH_MSG_OP_WRITE_ACK)
    (hstate : messenger.state = CCEPH_MESSENGER_STATE_NORMAL) (out : Outbox) :
    ∃ r out', messengerSendMsg messenger connId (.writeObjAck ack) out = .ok (r, out') := by
  unfold messengerSendMsg
  rw [assert_pos hstate, pure_bind]
  cases messengerGetConnById messenger (connIdToInt connId) with
  | none => exact ⟨_, _, rfl⟩
  | some conn =>
      by_cases hclosed : conn.state = CCEPH_CONN_STATE_CLOSED
      · simp only [if_pos hclosed]
        exact ⟨_, _, rfl⟩
      · simp only [if_neg hclosed]
        obtain ⟨ret, out', hrun⟩ := runCalls_within out (ackCalls_within ack)
        have hsendable : Sendable (.writeObjAck ack) := hop
        rw [← writeMessage_calls hsendable] at hrun
        rw [bind_ok hrun]
        by_cases hret : ret ≠ 0
        · simp only [if_pos hret]
          exact ⟨_, _, rfl⟩
        · simp only [if_neg hret]
          exact ⟨_, _, rfl⟩

theorem doObjectWriteReq_fits {req : MsgWriteObjReq} {oid : CharBlock} {io : IoOutcome}
    (hoid : req.oid = some oid) (hlines : LinesFit req oid.str io) :
    ∃ ret ack, doObjectWriteReq req io = .ok (ret, ack)
      ∧ ack.header = ⟨CCEPH_MSG_OP_WRITE_ACK, req.header.logId⟩
      ∧ ack.clientId = req.clientId ∧ ack.reqId = req.reqId :=
  ⟨_, _, (doObjectWriteReq_eq hoid).1 hlines, rfl, rfl, rfl⟩

/-- With no context, the handler answers a request whose name LOG has room
for, be the object written or not. -/
theorem osdProcessMessage_answers {messenger : Nat} {connId : Int64}
    {req : MsgWriteObjReq} {oid : CharBlock} {s : OsdWorld}
    (hop : req.header.op = CCEPH_MSG_OP_WRITE) (hoid : req.oid = some oid)
    (hlines : LinesFit req oid.str (s.ios 0)) (hmem : s.allocs.head = true)
    (hstate : s.messenger.state = CCEPH_MESSENGER_STATE_NORMAL) :
    ∃ ret s' call, osdProcessMessage (some messenger) connId (some (.writeObjReq req))
        none s = .ok (ret, s')
      ∧ s'.calls = s.calls ++ [call] ∧ Answers (connId, req) call := by
  obtain ⟨ret, ack, hdo, hheader, hclient, hreq⟩ :=
    doObjectWriteReq_fits hoid hlines
  have hack : ack.header.op = CCEPH_MSG_OP_WRITE_ACK := by rw [hheader]
  obtain ⟨⟨sent, messenger'⟩, out', hsend⟩ :=
    messengerSendMsg_ack connId hack hstate (s.outbox connId)
  have hmalloc : malloc sizeofMsgWriteObjAck s.allocs = .ok (true, s.allocs.tail) := by
    unfold malloc
    rw [hmem]
    rfl
  have hrun : osdProcessMessage (some messenger) connId (some (.writeObjReq req)) none
      = doObjectWriteReqAck (some messenger) connId req := by
    have hop : (Msg.writeObjReq req).header.op = CCEPH_MSG_OP_WRITE := hop
    unfold osdProcessMessage
    rw [deref_some, pure_bind, assert_pos (Option.some_ne_none messenger), pure_bind,
      assert_pos (Option.some_ne_none _), pure_bind, assert_pos rfl, pure_bind,
      if_pos hop]
  refine ⟨sent, { s with
      ios := fun n => s.ios (n + 1), allocs := s.allocs.tail, messenger := messenger',
      outbox := Function.update s.outbox connId out',
      calls := s.calls ++ [(connId, .writeObjAck ack)] },
    (connId, .writeObjAck ack), ?_, rfl, rfl, ack, rfl, hheader, hclient, hreq⟩
  rw [hrun]
  unfold doObjectWriteReqAck
  rw [bind_ok (show nextIo s = .ok (s.ios 0, _) from rfl), hdo]
  show (osdAckNew >>= fun _ => _) _ = _
  have hnew : osdAckNew { s with ios := fun n => s.ios (n + 1) }
      = .ok ((), { s with ios := fun n => s.ios (n + 1), allocs := s.allocs.tail }) := by
    unfold osdAckNew
    simp only [hmalloc]
  rw [bind_ok hnew]
  unfold osdSendMsg
  rw [deref_some, pure_bind]
  simp only [hsend]

/-- The object server answers the requests it is handed if it is handed
none. -/
theorem osd_serves {option : OsdOption} {blocks : OsdBlocks} {fds : MessengerFds}
    {ptr os osFuncs : Ptr} {osdId : Int32} {allocs allocs' : Allocs} {osd : Osd}
    (h : osdInitial option blocks fds ptr osdId os osFuncs allocs
      = .ok ((CCEPH_OK, some osd), allocs'))
    (asked : List (Int64 × MsgWriteObjReq)) (s : OsdWorld) :
    Serves osd.msger asked s ↔ asked = [] := by
  obtain ⟨hprocess, hcontext⟩ := osdInitial_wires h
  constructor
  · rintro ⟨s', calls, hrun, -, -⟩
    cases asked with
    | nil => rfl
    | cons r asked =>
        obtain ⟨ret, s1, hfirst, -⟩ := bind_eq_ok hrun
        unfold startEpollProcess at hfirst
        rw [hprocess, hcontext,
          osdProcessMessage_context (Option.some_ne_none blocks.osd)] at hfirst
        cases hfirst
  · rintro rfl
    exact ⟨s, [], rfl, (List.append_nil s.calls).symm, .nil⟩

/-- Object server 0, the options being the defaults. -/
def firstOsd : Osd where
  osdId := 0
  os := some 1
  osFuncs := some 2
  msger := ⟨messengerNew 3, 20, osdProcessMessage, some 10, 2⟩
  smsger := ⟨20, 10000⟩

theorem firstOsd_initial : osdInitial ⟨2, 10000⟩ ⟨10, 20⟩ ⟨0, 3, 4⟩ none 0 (some 1)
    (some 2) .plenty = .ok ((CCEPH_OK, some firstOsd), .plenty) := rfl

/-- A started messenger with the first connection, and a disk that takes
one byte. -/
def firstWorld : OsdWorld where
  messenger := { messengerNew 3 with
    state := CCEPH_MESSENGER_STATE_NORMAL, connList := [firstConn] }
  outbox := fun _ => ⟨[], []⟩
  ios := fun _ => ⟨6, 1, 0⟩
  allocs := .plenty
  calls := []

/-- One byte for the object `x`. -/
def oneByteReq : MsgWriteObjReq :=
  ⟨⟨CCEPH_MSG_OP_WRITE, 7⟩, 1, 1, 1, some (.close [120]), 0, 1, some [9]⟩

theorem osd_serves_one : Serves firstOsd.msger [(2, oneByteReq)] firstWorld
    ↔ [((2 : Int64), oneByteReq)] = [] :=
  osd_serves firstOsd_initial [(2, oneByteReq)] firstWorld

theorem osd_not_serves : Sendable (.writeObjReq oneByteReq)
    ∧ (msgEncoding (.writeObjReq oneByteReq)).isSome
    ∧ osdInitial ⟨2, 10000⟩ ⟨10, 20⟩ ⟨0, 3, 4⟩ none 0 (some 1) (some 2) .plenty
      = .ok ((CCEPH_OK, some firstOsd), .plenty)
    ∧ ¬Serves firstOsd.msger [(2, oneByteReq)] firstWorld := by
  refine ⟨⟨rfl, rfl, rfl⟩, rfl, firstOsd_initial, ?_⟩
  rintro ⟨s', calls, hrun, -, -⟩
  cases hrun

end CephInC
