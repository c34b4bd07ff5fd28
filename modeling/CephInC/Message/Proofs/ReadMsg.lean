/-
`cceph_messenger_read_msg` on every byte stream.

`readMsg_outcome` lists what a call comes to, whatever the allocator
does, each outcome with the streams that lead to it: the connection is
closed, the message is given up and the connection left as it was, a
message is taken, or the process goes down. Only the reader's own
`Rejected` streams leave the connection as it was, and
`readMsg_notImplemented` shows that an operation without an
implementation always takes the process down: the branch leaves `ret` at
zero and `message` at NULL.
-/
import CephInC.Message.Proofs.Fields

namespace CephInC

open Lib

-- ============================================================ the body

/-- What the `switch` can do once the header is in. -/
inductive BodyOutcome (op : Int8) (header : MsgHeader) (inbox : Inbox) : Prop
  | closed (msg : Option Msg) (inbox' : Inbox)
      (hrun : readMsgBody op inbox = .ok ((CCEPH_ERR_CONN_CLOSED, msg), inbox'))
      (hop : op = CCEPH_MSG_OP_WRITE ∧ (inbox.allocs = .plenty →
          ¬BeforeData inbox.delivered DataUncounted
            ∧ ¬BeforeData inbox.delivered DataTaken ∧ ¬NegativeOid inbox.delivered)
        ∨ op = CCEPH_MSG_OP_WRITE_ACK
          ∧ (wireAck header inbox.delivered).isSome = false)
  | kept (ret : Int) (msg : Option Msg) (inbox' : Inbox)
      (hrun : readMsgBody op inbox = .ok ((ret, msg), inbox'))
      (hzero : ret ≠ 0) (hret : ret ≠ CCEPH_ERR_CONN_CLOSED)
      (hop : op ≠ CCEPH_MSG_OP_WRITE ∧ op ≠ CCEPH_MSG_OP_WRITE_ACK
          ∧ op ≠ CCEPH_MSG_OP_READ ∧ op ≠ CCEPH_MSG_OP_READ_ACK
        ∨ op = CCEPH_MSG_OP_WRITE ∧ BeforeData inbox.delivered DataUncounted)
  | req (req : MsgWriteObjReq) (inbox' : Inbox)
      (hrun : readMsgBody op inbox = .ok ((0, some (.writeObjReq req)), inbox'))
      (hop : op = CCEPH_MSG_OP_WRITE) (hoid : 0 ≤ req.oidSize.toInt)
      (htaken : BeforeData inbox.delivered DataTaken)
      (hneg : req.length.toInt < 0 → BeforeData inbox.delivered DataNegative)
      (hdec : inbox.allocs = .plenty → 0 ≤ req.length.toInt →
        wireReq header inbox.delivered
          = some ({ req with header := header }, inbox'.delivered))
  | ack (ack : MsgWriteObjAck) (inbox' : Inbox)
      (hrun : readMsgBody op inbox = .ok ((0, some (.writeObjAck ack)), inbox'))
      (hop : op = CCEPH_MSG_OP_WRITE_ACK)
      (hdec : wireAck header inbox.delivered
        = some ({ ack with header := header }, inbox'.delivered))
  | null (hrun : readMsgBody op inbox = .ok ((0, none), inbox))
      (hop : op = CCEPH_MSG_OP_READ ∨ op = CCEPH_MSG_OP_READ_ACK)
  | crash (e : Fault) (hrun : readMsgBody op inbox = .error e)
      (hwhy : inbox.allocs = .plenty →
        op = CCEPH_MSG_OP_WRITE ∧ NegativeOid inbox.delivered)

/-- The ack does not depend on the header it is given. -/
theorem wireAck_header (header header' : MsgHeader) (d : List UInt8) :
    wireAck header' d = (wireAck header d).map fun (ack, rest) =>
      ({ ack with header := header' }, rest) := by
  unfold wireAck
  simp only [decoder_bind]
  cases int32Codec.decode d with
  | none => rfl
  | some r =>
      obtain ⟨clientId, d1⟩ := r
      simp only
      cases int64Codec.decode d1 with
      | none => rfl
      | some r =>
          obtain ⟨reqId, d2⟩ := r
          simp only
          cases int8Codec.decode d2 with
          | none => rfl
          | some r => rfl

/-- Nor does the request. -/
theorem wireReq_header (header header' : MsgHeader) (d : List UInt8) :
    wireReq header' d = (wireReq header d).map fun (req, rest) =>
      ({ req with header := header' }, rest) := by
  unfold wireReq
  simp only [decoder_bind]
  cases wireReqIds d with
  | none => rfl
  | some r =>
      obtain ⟨ids, d1⟩ := r
      simp only
      cases wireString d1 with
      | none => rfl
      | some r =>
          obtain ⟨string, d2⟩ := r
          simp only
          cases int64Codec.decode d2 with
          | none => rfl
          | some r =>
              obtain ⟨offset, d3⟩ := r
              simp only
              cases wireData d3 with
              | none => rfl
              | some r => rfl

theorem readMsgBody_write (header : MsgHeader) (inbox : Inbox) :
    BodyOutcome CCEPH_MSG_OP_WRITE header inbox := by
  obtain ⟨granted, inbox1, hrun1, hsame1, -, hplenty1, hgrant⟩ :=
    recvMalloc_run sizeofMsgWriteObjReq inbox
  have hstep : readMsgBody CCEPH_MSG_OP_WRITE inbox = (do
      let msg ← msgWriteObjReqNew
      let r ← msgWriteObjReqRecv msg
      return (r.1, if r.1 ≠ 0 then none else some (Msg.writeObjReq r.2))) inbox := by
    unfold readMsgBody
    rw [if_pos rfl]
  cases granted with
  | false =>
      refine .crash .nullDeref ?_ ?_
      · have hnew : msgWriteObjReqNew inbox = .error .nullDeref := by
          unfold msgWriteObjReqNew
          rw [bind_ok hrun1]
          rfl
        rw [hstep, bind_error hnew]
      · intro h
        cases hgrant h (by decide)
  | true =>
      have hnew : msgWriteObjReqNew inbox
          = .ok (⟨⟨CCEPH_MSG_OP_WRITE, 0⟩, 0, 0, 0, none, 0, 0, none⟩, inbox1) := by
        unfold msgWriteObjReqNew
        rw [bind_ok hrun1]
        rfl
      rw [bind_ok hnew] at hstep
      cases msgWriteObjReqRecv_outcome
          ⟨⟨CCEPH_MSG_OP_WRITE, 0⟩, 0, 0, 0, none, 0, 0, none⟩ rfl rfl inbox1 with
      | whole req inbox2 hrun2 hheader hoid htaken hneg hdec =>
          rw [hsame1] at htaken hneg
          refine .req req inbox2 ?_ rfl hoid htaken hneg ?_
          · rw [hstep, bind_ok hrun2]
            rfl
          · intro h h0
            have hwire := hdec (hplenty1 h) h0
            rw [hsame1] at hwire
            rw [wireReq_header, hwire]
            rfl
      | uncounted ret req inbox2 hrun2 hneg hret hcount =>
          rw [hsame1] at hcount
          have hzero : ret ≠ 0 := by omega
          refine .kept ret none inbox2 ?_ hzero hret (.inr ⟨rfl, hcount⟩)
          rw [hstep, bind_ok hrun2]
          simp only [if_pos hzero]
          rfl
      | cut req inbox2 hrun2 hwhy =>
          refine .closed none inbox2 ?_ (.inl ⟨rfl, ?_⟩)
          · rw [hstep, bind_ok hrun2]
            rfl
          · intro h
            rw [← hsame1]
            exact hwhy (hplenty1 h)
      | crash e hrun2 hwhy =>
          refine .crash e ?_ ?_
          · rw [hstep, bind_error hrun2]
          · intro h
            rw [← hsame1]
            exact ⟨rfl, hwhy (hplenty1 h)⟩

theorem readMsgBody_writeAck (header : MsgHeader) (inbox : Inbox) :
    BodyOutcome CCEPH_MSG_OP_WRITE_ACK header inbox := by
  obtain ⟨granted, inbox1, hrun1, hsame1, -, -, hgrant⟩ :=
    recvMalloc_run sizeofMsgWriteObjAck inbox
  have hstep : readMsgBody CCEPH_MSG_OP_WRITE_ACK inbox = (do
      let msg ← msgWriteObjAckNew
      let r ← msgWriteObjAckRecv msg
      return (r.1, if r.1 ≠ 0 then none else some (Msg.writeObjAck r.2))) inbox := by
    unfold readMsgBody
    rw [if_neg (by decide), if_pos rfl]
  cases granted with
  | false =>
      refine .crash .nullDeref ?_ ?_
      · have hnew : msgWriteObjAckNew inbox = .error .nullDeref := by
          unfold msgWriteObjAckNew
          rw [bind_ok hrun1]
          rfl
        rw [hstep, bind_error hnew]
      · intro h
        cases hgrant h (by decide)
  | true =>
      have hnew : msgWriteObjAckNew inbox
          = .ok (⟨⟨CCEPH_MSG_OP_WRITE_ACK, 0⟩, 0, 0, 0⟩, inbox1) := by
        unfold msgWriteObjAckNew
        rw [bind_ok hrun1]
        rfl
      rw [bind_ok hnew] at hstep
      cases msgWriteObjAckRecv_received
          ⟨⟨CCEPH_MSG_OP_WRITE_ACK, 0⟩, 0, 0, 0⟩ inbox1 with
      | whole ack inbox2 hrun2 hdec hallocs2 =>
          rw [hsame1] at hdec
          refine .ack ack inbox2 ?_ rfl ?_
          · rw [hstep, bind_ok hrun2]
            rfl
          · rw [wireAck_header, hdec]
            rfl
      | cut ack inbox2 hrun2 hdec =>
          rw [hsame1] at hdec
          refine .closed none inbox2 ?_ (.inr ⟨rfl, ?_⟩)
          · rw [hstep, bind_ok hrun2]
            rfl
          · rw [wireAck_header, hdec]
            rfl

theorem readMsgBody_outcome (op : Int8) (header : MsgHeader) (inbox : Inbox) :
    BodyOutcome op header inbox := by
  by_cases hwrite : op = CCEPH_MSG_OP_WRITE
  · rw [hwrite]
    exact readMsgBody_write header inbox
  by_cases hack : op = CCEPH_MSG_OP_WRITE_ACK
  · rw [hack]
    exact readMsgBody_writeAck header inbox
  by_cases hread : op = CCEPH_MSG_OP_READ
  · refine .null ?_ (.inl hread)
    unfold readMsgBody
    rw [if_neg hwrite, if_neg hack, if_pos hread]
    rfl
  by_cases hreadAck : op = CCEPH_MSG_OP_READ_ACK
  · refine .null ?_ (.inr hreadAck)
    unfold readMsgBody
    rw [if_neg hwrite, if_neg hack, if_neg hread, if_pos hreadAck]
    rfl
  · refine .kept CCEPH_ERR_UNKNOWN_OP none inbox ?_ (by decide) (by decide)
      (.inl ⟨hwrite, hack, hread, hreadAck⟩)
    unfold readMsgBody
    rw [if_neg hwrite, if_neg hack, if_neg hread, if_neg hreadAck]
    rfl

-- ========================================================== the message

/-- What `cceph_messenger_read_msg` can do. -/
inductive ReadOutcome (messenger : Messenger) (connId : Int64) (inbox : Inbox) :
    Prop
  | closed (inbox' : Inbox)
      (hrun : messengerReadMsg messenger connId inbox
        = .ok ((none, (messengerCloseConn messenger connId).2), inbox'))
      (hwhy : inbox.allocs = .plenty → ¬Rejected inbox.delivered
        ∧ ¬Taken inbox.delivered ∧ ¬Crashes inbox.delivered)
  | kept (inbox' : Inbox)
      (hrun : messengerReadMsg messenger connId inbox
        = .ok ((none, messenger), inbox'))
      (hrejected : Rejected inbox.delivered)
  | message (msg : Msg) (inbox' : Inbox)
      (hrun : messengerReadMsg messenger connId inbox
        = .ok ((some msg, messenger), inbox'))
      (htaken : Taken inbox.delivered)
      (hwire : inbox.allocs = .plenty → ¬NegativeLength inbox.delivered →
        ∃ bs, OnWire msg bs ∧ inbox.delivered = bs ++ inbox'.delivered)
  | crash (e : Fault) (hrun : messengerReadMsg messenger connId inbox = .error e)
      (hwhy : inbox.allocs = .plenty → Crashes inbox.delivered)

theorem readMsg_outcome (messenger : Messenger) (connId : Int64) (inbox : Inbox) :
    ReadOutcome messenger connId inbox := by
  cases msgHeaderRecv_received ⟨CCEPH_MSG_OP_UNKNOWN, 0⟩ inbox with
  | cut header inbox1 hrun hdec =>
      refine .closed inbox1 ?_ fun _ => ⟨not_afterHeader hdec _,
        not_afterHeader hdec _, ?_⟩
      · unfold messengerReadMsg
        rw [bind_ok hrun]
        rfl
      · rintro (h | h)
        · exact not_afterHeader hdec _ h
        · exact not_afterHeader hdec _ h
  | whole header inbox1 hrun hdec hallocs =>
      have hiff := fun p => afterHeader_iff hdec p
      have hplenty : inbox.allocs = .plenty → inbox1.allocs = .plenty :=
        fun h => hallocs.trans h
      have hstep : messengerReadMsg messenger connId inbox
          = readMsgRest messenger connId header inbox1 := by
        unfold messengerReadMsg
        rw [bind_ok hrun]
        rfl
      unfold readMsgRest at hstep
      obtain ⟨h12, h13, h14, h23, h24⟩ := op_ne
      cases readMsgBody_outcome header.op header inbox1 with
      | closed msg inbox2 hbody hop =>
          refine .closed inbox2 ?_ ?_
          · rw [hstep, bind_ok hbody]
            rfl
          · intro h
            unfold Rejected Taken Crashes NotImplemented
            simp only [hiff]
            rcases hop with ⟨hop, hwhy⟩ | ⟨hop, hnone⟩
            · obtain ⟨hcount, htaken, hneg⟩ := hwhy (hplenty h)
              simp [hop, h12, h13, h14, hcount, htaken, hneg]
            · simp [hop, h12.symm, h23, h24, hnone]
      | kept ret msg inbox2 hbody hzero hret hop =>
          refine .kept inbox2 ?_ ((hiff _).mpr hop)
          rw [hstep, bind_ok hbody]
          simp only [if_neg hret, if_pos hzero]
          rfl
      | req req inbox2 hbody hop hoid htaken hneg hwire =>
          refine .message (.writeObjReq { req with header := header }) inbox2 ?_
            ((hiff _).mpr (.inl ⟨hop, htaken⟩)) ?_
          · rw [hstep, bind_ok hbody]
            rfl
          · intro h hnonneg
            have h0 : 0 ≤ req.length.toInt := by
              by_contra hlt
              exact hnonneg ((hiff _).mpr ⟨hop, .inr (hneg (by omega))⟩)
            exact wireReq_onWire (wireHeader_eq_some hdec) hop
              (hwire (hplenty h) h0) hoid h0
      | ack ack inbox2 hbody hop hwire =>
          refine .message (.writeObjAck { ack with header := header }) inbox2 ?_
            ((hiff _).mpr (.inr ⟨hop, by rw [hwire]; rfl⟩)) ?_
          · rw [hstep, bind_ok hbody]
            rfl
          · intro _ _
            exact wireAck_onWire (wireHeader_eq_some hdec) hop hwire
      | null hbody hop =>
          refine .crash .nullDeref ?_ fun _ => .inl ((hiff _).mpr hop)
          rw [hstep, bind_ok hbody]
          rfl
      | crash e hbody hwhy =>
          refine .crash e ?_ ?_
          · rw [hstep, bind_error hbody]
          · intro h
            exact .inr ((hiff _).mpr (hwhy (hplenty h)))

/-- An operation that is not implemented leaves `ret` at zero and
`message` at NULL, whatever the allocator does. -/
theorem readMsg_notImplemented (messenger : Messenger) (connId : Int64)
    {inbox : Inbox} (h : NotImplemented inbox.delivered) :
    messengerReadMsg messenger connId inbox = .error .nullDeref := by
  obtain ⟨header, body, hdec, hop⟩ := h
  cases msgHeaderRecv_received ⟨CCEPH_MSG_OP_UNKNOWN, 0⟩ inbox with
  | cut header' inbox1 hrun hnone =>
      rw [hnone] at hdec
      cases hdec
  | whole header' inbox1 hrun hsome hallocs =>
      rw [hsome] at hdec
      cases hdec
      have hstep : messengerReadMsg messenger connId inbox
          = readMsgRest messenger connId header inbox1 := by
        unfold messengerReadMsg
        rw [bind_ok hrun]
        rfl
      unfold readMsgRest at hstep
      have hbody : readMsgBody header.op inbox1 = .ok ((0, none), inbox1) := by
        rcases hop with hop | hop <;> rw [hop] <;> rfl
      rw [hstep, bind_ok hbody]
      rfl

-- ============================================================= safety

/-- The call returns, and a message it returns was spelled, operation and
fields, by the bytes it has read. -/
def ReadsSafely (messenger : Messenger) (connId : Int64) (inbox : Inbox) : Prop :=
  ∃ msg messenger' inbox',
    messengerReadMsg messenger connId inbox = .ok ((msg, messenger'), inbox')
      ∧ ∀ x, msg = some x → ∃ bs, OnWire x bs
        ∧ inbox.delivered = bs ++ inbox'.delivered

/-- Memory to spare and no negative length on the wire: reading is safe
exactly unless the stream opens with an operation that is not
implemented. -/
theorem readMsg_safe (messenger : Messenger) (connId : Int64) (inbox : Inbox)
    (hallocs : inbox.allocs = .plenty)
    (hlengths : ¬NegativeLength inbox.delivered) :
    ReadsSafely messenger connId inbox ↔ ¬NotImplemented inbox.delivered := by
  constructor
  · rintro ⟨msg, messenger', inbox', hrun, -⟩ hop
    rw [readMsg_notImplemented messenger connId hop] at hrun
    cases hrun
  · intro hop
    cases readMsg_outcome messenger connId inbox with
    | closed inbox' hrun hwhy =>
        refine ⟨_, _, inbox', hrun, ?_⟩
        intro x hx
        cases hx
    | kept inbox' hrun hrejected =>
        refine ⟨_, _, inbox', hrun, ?_⟩
        intro x hx
        cases hx
    | message msg inbox' hrun htaken hwire =>
        refine ⟨_, _, inbox', hrun, ?_⟩
        intro x hx
        cases hx
        exact hwire hallocs hlengths
    | crash e hrun hwhy =>
        rcases hwhy hallocs with hcrash | ⟨header, body, hdec, hwrite, hneg⟩
        · exact absurd hcrash hop
        · exact absurd ⟨header, body, hdec, hwrite, .inl hneg⟩ hlengths

/-- One chunk, and memory to spare. -/
def oneChunk (bytes : List UInt8) (hne : bytes ≠ []) (hfits : bytes.length < 2 ^ 31) :
    Inbox :=
  ⟨[.bytes ⟨bytes, hne, hfits⟩], .plenty⟩

/-- A peer sends an acknowledgement of request 7, in one piece. -/
def ackArrives : Inbox :=
  oneChunk [2, 9, 0, 0, 0, 0, 0, 0, 0, 0, 0, 0, 0, 7, 0, 0, 0, 0, 0, 0, 0, 1]
    (by decide) (by decide)

theorem readMsg_safe_ack : ReadsSafely (messengerNew 3) 2 ackArrives := by
  have hheader : wireHeader ackArrives.delivered
      = some (⟨2, 9⟩, [0, 0, 0, 0, 7, 0, 0, 0, 0, 0, 0, 0, 1]) := rfl
  have hlengths : ¬NegativeLength ackArrives.delivered := by
    unfold NegativeLength
    rw [afterHeader_iff hheader]
    exact fun h => absurd h.1 (by decide)
  have hop : ¬NotImplemented ackArrives.delivered := by
    unfold NotImplemented
    rw [afterHeader_iff hheader]
    decide
  exact (readMsg_safe (messengerNew 3) 2 ackArrives rfl hlengths).mpr hop

/-- A peer sends the header of a read request. -/
def readArrives : Inbox :=
  oneChunk [3, 0, 0, 0, 0, 0, 0, 0, 0] (by decide) (by decide)

/-- Nine bytes from a peer take the process down. -/
theorem readMsg_not_safe : ¬∀ messenger connId inbox,
    inbox.allocs = .plenty → ¬NegativeLength inbox.delivered →
      ReadsSafely messenger connId inbox := by
  intro h
  have hheader : wireHeader readArrives.delivered = some (⟨3, 0⟩, []) := rfl
  have hlengths : ¬NegativeLength readArrives.delivered := by
    unfold NegativeLength
    rw [afterHeader_iff hheader]
    exact fun h => absurd h.1 (by decide)
  obtain ⟨msg, messenger', inbox', hrun, -⟩ :=
    h (messengerNew 3) 2 readArrives rfl hlengths
  have hcrash : messengerReadMsg (messengerNew 3) 2 readArrives
      = .error .nullDeref :=
    readMsg_notImplemented _ _ ⟨⟨3, 0⟩, [], hheader, .inl rfl⟩
  rw [hcrash] at hrun
  cases hrun

end CephInC
