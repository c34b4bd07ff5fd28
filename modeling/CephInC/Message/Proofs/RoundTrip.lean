/-
What `write_message` puts on a connection, `cceph_messenger_read_msg`
takes off it.

The sender's side is `msgEncoding`, the receiver's is `OnWire`, and they
meet in `msgEncoding_onWire`: the encoding of a message spells the
message that is received. A stream that opens with a spelled message is
no other of the streams `readMsg_outcome` tells apart, however it is cut
(`readMsg_onWire`). The rest is an induction over the messages.
-/
import CephInC.Lib.Ensures
import CephInC.Message.Proofs.ReadMsg
import CephInC.Message.Proofs.Send

namespace CephInC

open Lib SendCall

-- ================================================== plenty stays plenty

/-- Memory to spare. -/
def Inbox.Plenty (inbox : Inbox) : Prop := inbox.allocs = .plenty

theorem recv_plenty (room : Option Nat) (size : Nat) :
    Keeps Inbox.Plenty (recv room size) := by
  intro inbox got inbox' hplenty hrun
  unfold recv at hrun
  split at hrun
  · cases hrun
  · split at hrun
    · cases hrun
      exact hplenty
    · cases hrun
      exact hplenty
    · split at hrun
      · cases hrun
        exact hplenty
      · split at hrun
        · cases hrun
          exact hplenty
        · cases hrun
          exact hplenty

theorem recvLoop_plenty (room : Option Nat) : ∀ (fuel size : Nat) (total : Int32)
    (buf : List UInt8), Keeps Inbox.Plenty (recvLoop room fuel size total buf) := by
  intro fuel
  induction fuel with
  | zero => exact fun size total buf => Keeps.throw Fault.blocked
  | succ fuel ih =>
      intro size total buf
      unfold recvLoop
      apply Keeps.ite
      · apply (recv_plenty _ size).bind
        intro got
        exact .ite (.pure _) (.ite (ih size total buf) (.ite (.pure _) (ih _ _ _)))
      · exact .pure _

theorem recvFromConn_plenty (room : Option Nat) (size : Nat) :
    Keeps Inbox.Plenty (recvFromConn room size) := by
  intro inbox
  exact recvLoop_plenty room (inbox.arrivals.length + 2) size 0 [] inbox

theorem recvMalloc_plenty (size : Nat) : Keeps Inbox.Plenty (recvMalloc size) := by
  intro inbox granted inbox' hplenty hrun
  obtain ⟨granted', mid, hrun', -, -, hkeep, -⟩ := recvMalloc_run size inbox
  rw [hrun'] at hrun
  cases hrun
  exact hkeep hplenty

theorem assert_plenty (p : Prop) [Decidable p] :
    Keeps Inbox.Plenty (assert p : Prog Inbox Unit) :=
  .ite (.pure _) (Keeps.throw Fault.assertFail)

theorem recvInt_plenty {α : Type} (c : Codec α) (value : α) :
    Keeps Inbox.Plenty (recvInt c value) :=
  (recvFromConn_plenty _ _).bind fun _ => .pure _

theorem recvString_plenty (size : Int16) (string : Option CharBlock) :
    Keeps Inbox.Plenty (recvString size string) := by
  unfold recvString
  apply (recvFromConn_plenty _ _).bind
  rintro ⟨ret, buf⟩
  refine .ite (.pure _) ?_
  unfold recvStringBlock
  apply (recvMalloc_plenty _).bind
  intro granted
  refine .ite (Keeps.throw Fault.nullDeref) (.ite (Keeps.throw Fault.outOfBounds) ?_)
  exact (recvFromConn_plenty _ _).bind fun _ => .pure _

theorem recvData_plenty (size : Int64) (data : Option (List UInt8)) :
    Keeps Inbox.Plenty (recvData size data) := by
  unfold recvData
  apply (recvFromConn_plenty _ _).bind
  rintro ⟨ret, buf⟩
  refine .ite (.pure _) ?_
  unfold recvDataBlock
  apply (recvMalloc_plenty _).bind
  intro granted
  exact (recvFromConn_plenty _ _).bind fun _ => .pure _

theorem msgHeaderRecv_plenty (header : MsgHeader) :
    Keeps Inbox.Plenty (msgHeaderRecv header) := by
  unfold msgHeaderRecv
  apply (recvInt_plenty _ _).bind
  rintro ⟨ret, op⟩
  refine .ite (.pure _) ?_
  apply (recvInt_plenty _ _).bind
  rintro ⟨ret, logId⟩
  exact .ite (.pure _) (.pure _)

theorem msgWriteObjReqRecv_plenty (req : MsgWriteObjReq) :
    Keeps Inbox.Plenty (msgWriteObjReqRecv req) := by
  unfold msgWriteObjReqRecv
  apply (assert_plenty _).bind
  intro _
  apply (assert_plenty _).bind
  intro _
  apply (recvInt_plenty _ _).bind
  rintro ⟨ret, clientId⟩
  refine .ite (.pure _) ?_
  apply (recvInt_plenty _ _).bind
  rintro ⟨ret, reqId⟩
  refine .ite (.pure _) ?_
  apply (recvString_plenty _ _).bind
  rintro ⟨ret, oidSize, oid⟩
  refine .ite (.pure _) ?_
  apply (recvInt_plenty _ _).bind
  rintro ⟨ret, offset⟩
  refine .ite (.pure _) ?_
  apply (recvData_plenty _ _).bind
  rintro ⟨ret, length, data⟩
  exact .ite (.pure _) (.pure _)

theorem msgWriteObjAckRecv_plenty (msg : MsgWriteObjAck) :
    Keeps Inbox.Plenty (msgWriteObjAckRecv msg) := by
  unfold msgWriteObjAckRecv
  apply (recvInt_plenty _ _).bind
  rintro ⟨ret, clientId⟩
  refine .ite (.pure _) ?_
  apply (recvInt_plenty _ _).bind
  rintro ⟨ret, reqId⟩
  refine .ite (.pure _) ?_
  apply (recvInt_plenty _ _).bind
  rintro ⟨ret, result⟩
  exact .ite (.pure _) (.pure _)

theorem readMsgBody_plenty (op : Int8) : Keeps Inbox.Plenty (readMsgBody op) := by
  unfold readMsgBody
  refine .ite ?_ (.ite ?_ (.ite (.pure _) (.ite (.pure _) (.pure _))))
  · unfold msgWriteObjReqNew
    apply Keeps.bind
    · apply (recvMalloc_plenty _).bind
      exact fun granted => .ite (Keeps.throw Fault.nullDeref) (.pure _)
    · exact fun msg => (msgWriteObjReqRecv_plenty msg).bind fun _ => .pure _
  · unfold msgWriteObjAckNew
    apply Keeps.bind
    · apply (recvMalloc_plenty _).bind
      exact fun granted => .ite (Keeps.throw Fault.nullDeref) (.pure _)
    · exact fun msg => (msgWriteObjAckRecv_plenty msg).bind fun _ => .pure _

theorem messengerReadMsg_plenty (messenger : Messenger) (connId : Int64) :
    Keeps Inbox.Plenty (messengerReadMsg messenger connId) := by
  unfold messengerReadMsg
  apply (msgHeaderRecv_plenty _).bind
  rintro ⟨ret, header⟩
  refine .ite (.pure _) (.ite (.pure _) ?_)
  unfold readMsgRest
  apply (readMsgBody_plenty _).bind
  rintro ⟨ret, msg⟩
  refine .ite (.pure _) (.ite (.pure _) ?_)
  cases msg with
  | none => exact Keeps.throw Fault.nullDeref
  | some msg => exact .pure _

-- ====================================================== one message read

/-- No more data than an `int` counts. -/
def Msg.Counted : Msg → Prop
  | .writeObjReq req => req.length.toInt < 2 ^ 31
  | .writeObjAck _ => True

/-- A spelled message is taken, and no length in it is negative. -/
theorem onWire_taken {msg : Msg} {bs : List UInt8} (h : OnWire msg bs)
    (hcounted : msg.Counted) (rest : List UInt8) :
    Taken (bs ++ rest) ∧ ¬NegativeLength (bs ++ rest) := by
  cases h with
  | writeObjReq header clientId reqId oidSize oid offset length data hop hoid hdata =>
      have hcounted : length.toInt < 2 ^ 31 := hcounted
      simp only [List.append_assoc]
      have hids := wireReqIds_bytes clientId reqId (int16Codec.bytes oidSize
        ++ (oid ++ (int64Codec.bytes offset ++ (int64Codec.bytes length
          ++ (data ++ rest)))))
      have hstring := wireString_bytes hoid
        (int64Codec.bytes offset ++ (int64Codec.bytes length ++ (data ++ rest)))
      have hoffset : int64Codec.decode (int64Codec.bytes offset
          ++ (int64Codec.bytes length ++ (data ++ rest))) = some (offset, _) :=
        int64Codec.decode_eq_some.mpr rfl
      have hwire := wireData_bytes hdata rest
      have hiff := fun p => beforeData_iff p hids hstring (by omega) hoffset
      unfold Taken NegativeLength
      rw [afterHeader_iff (wireHeader_bytes header _),
        afterHeader_iff (wireHeader_bytes header _)]
      constructor
      · refine .inl ⟨hop, (hiff _).mpr (.inl ⟨length, data, rest, hwire, by omega,
          hcounted⟩)⟩
      · rintro ⟨-, hneg | hneg⟩
        · exact not_beforeData_of_negativeOid (fun _ => True) hneg ((hiff _).mpr trivial)
        · obtain ⟨length', rest', hlength, hlt⟩ := (hiff _).mp hneg
          rw [wireData_length hlength hwire] at hdata
          omega
  | writeObjAck header clientId reqId result hop =>
      simp only [List.append_assoc]
      unfold Taken NegativeLength
      rw [afterHeader_iff (wireHeader_bytes header _),
        afterHeader_iff (wireHeader_bytes header _)]
      constructor
      · exact .inr ⟨hop, by rw [wireAck_bytes]; rfl⟩
      · exact fun h => op_ne.1 (h.1.symm.trans hop)

/-- A stream that opens with a spelled message, cut anyhow, is read as that
message; what follows stays. -/
theorem readMsg_onWire (messenger : Messenger) (connId : Int64) {inbox : Inbox}
    {msg : Msg} {bs rest : List UInt8} (hplenty : inbox.Plenty) (h : OnWire msg bs)
    (hcounted : msg.Counted) (hd : inbox.delivered = bs ++ rest) :
    ∃ inbox', messengerReadMsg messenger connId inbox = .ok ((some msg, messenger), inbox')
      ∧ inbox'.Plenty ∧ inbox'.delivered = rest := by
  obtain ⟨htaken, hnonneg⟩ := onWire_taken h hcounted rest
  rw [← hd] at htaken hnonneg
  cases readMsg_outcome messenger connId inbox with
  | closed inbox' hrun hwhy => exact absurd htaken (hwhy hplenty).2.1
  | kept inbox' hrun hrejected => exact absurd hrejected (not_rejected_of_taken htaken)
  | crash e hrun hwhy => exact absurd htaken (not_taken_of_crashes (hwhy hplenty))
  | message msg' inbox' hrun htaken' hwire =>
      obtain ⟨bs', hwire, hd'⟩ := hwire hplenty hnonneg
      rw [hd] at hd'
      obtain ⟨rfl, rfl⟩ := onWire_unique h hwire hd'
      exact ⟨inbox', hrun, messengerReadMsg_plenty _ _ _ _ _ hplenty hrun, rfl⟩

-- =================================================== one message written

/-- A write request whose name an `int16_t` and whose data an `int` counts,
or an acknowledgement. -/
def Msg.Travels : Msg → Prop
  | .writeObjReq req => req.header.op = CCEPH_MSG_OP_WRITE
      ∧ ∃ oid data, req.oid = some oid ∧ strlen oid.str < 2 ^ 15
        ∧ req.data = some data ∧ (data.length : Int) = req.length.toInt
        ∧ req.length.toInt < 2 ^ 31
  | .writeObjAck ack => ack.header.op = CCEPH_MSG_OP_WRITE_ACK

/-- The same, with data that may be longer than what is to be written. -/
def Msg.Fits : Msg → Prop
  | .writeObjReq req => req.header.op = CCEPH_MSG_OP_WRITE
      ∧ ∃ oid data, req.oid = some oid ∧ strlen oid.str < 2 ^ 15
        ∧ req.data = some data ∧ 0 ≤ req.length.toInt
        ∧ req.length.toInt ≤ data.length ∧ req.length.toInt < 2 ^ 31
  | .writeObjAck ack => ack.header.op = CCEPH_MSG_OP_WRITE_ACK

theorem Msg.Travels.fits {msg : Msg} (h : msg.Travels) : msg.Fits := by
  cases msg with
  | writeObjReq req =>
      obtain ⟨hop, oid, data, hoid, hname, hdata, hlength, hcounted⟩ := h
      exact ⟨hop, oid, data, hoid, hname, hdata, by omega, by omega, hcounted⟩
  | writeObjAck ack => exact h

theorem Msg.Fits.sendable {msg : Msg} (h : msg.Fits) : Sendable msg := by
  cases msg with
  | writeObjReq req =>
      obtain ⟨hop, oid, data, hoid, -, hdata, -⟩ := h
      refine ⟨hop, ?_, ?_⟩
      · rw [hoid]
        rfl
      · rw [hdata]
        rfl
  | writeObjAck ack => exact h

theorem Msg.Fits.encoding {msg : Msg} (h : msg.Fits) : ∃ bs, msgEncoding msg = some bs := by
  cases msg with
  | writeObjReq req =>
      obtain ⟨-, oid, data, hoid, hname, hdata, hpos, hlength, -⟩ := h
      unfold msgEncoding
      simp only [hoid, hdata]
      rw [if_pos ⟨hname, hpos, hlength⟩]
      exact ⟨_, rfl⟩
  | writeObjAck ack => exact ⟨_, rfl⟩

/-- The fields of the two requests are equal, the names as strings. The
count of the name is the receiver's own. -/
structure SameReq (req req' : MsgWriteObjReq) : Prop where
  header : req'.header = req.header
  clientId : req'.clientId = req.clientId
  reqId : req'.reqId = req.reqId
  oidSize : ∀ oid ∈ req.oid, req'.oidSize.toInt = strlen oid.str
  oid : req'.oid.map CharBlock.str = req.oid.map CharBlock.str
  offset : req'.offset = req.offset
  length : req'.length = req.length
  data : req'.data = req.data

/-- The two messages are of one kind and have equal fields. -/
inductive SameMsg : Msg → Msg → Prop
  | writeObjReq {req req' : MsgWriteObjReq} (h : SameReq req req') :
      SameMsg (.writeObjReq req) (.writeObjReq req')
  | writeObjAck (ack : MsgWriteObjAck) : SameMsg (.writeObjAck ack) (.writeObjAck ack)

theorem CharBlock.close_str (s : CString) : (CharBlock.close s.bytes).str = s := by
  obtain ⟨bytes, hnul⟩ := s
  have hall : ∀ b ∈ bytes, decide (b ≠ 0) = true := by
    intro b hb
    rw [decide_eq_true_eq]
    rintro rfl
    exact hnul hb
  unfold CharBlock.str CharBlock.close
  congr 1
  rw [List.takeWhile_append_of_pos hall]
  simp

/-- The encoding of a message spells the message that is received. -/
theorem msgEncoding_onWire {msg : Msg} (h : msg.Travels) :
    ∃ bs got, msgEncoding msg = some bs ∧ OnWire got bs ∧ got.Counted
      ∧ SameMsg msg got := by
  cases msg with
  | writeObjReq req =>
      obtain ⟨hop, oid, data, hoid, hname, hdata, hlength, hcounted⟩ := h
      have hsize : (Int16.ofNat (strlen oid.str)).toInt = strlen oid.str :=
        Int16.toInt_ofNat_of_lt hname
      have htake : data.take req.length.toInt.toNat = data :=
        List.take_of_length_le (by omega)
      refine ⟨_, .writeObjReq ⟨req.header, req.clientId, req.reqId,
          Int16.ofNat (strlen oid.str), some (.close oid.str.bytes), req.offset,
          req.length, some data⟩, ?_,
        .writeObjReq req.header req.clientId req.reqId _ oid.str.bytes req.offset
          req.length data hop hsize.symm hlength, hcounted, .writeObjReq ?_⟩
      · unfold msgEncoding
        simp only [hoid, hdata]
        rw [if_pos ⟨hname, by omega, by omega⟩, htake]
        rfl
      · refine ⟨rfl, rfl, rfl, ?_, ?_, rfl, rfl, hdata.symm⟩
        · intro oid' h'
          rw [hoid] at h'
          cases h'
          exact hsize
        · rw [hoid]
          exact congrArg some (CharBlock.close_str oid.str)
  | writeObjAck ack =>
      exact ⟨_, .writeObjAck ack, rfl,
        .writeObjAck ack.header ack.clientId ack.reqId ack.result h, trivial,
        .writeObjAck ack⟩

/-- The call stays in its block, and an `int` counts what it asks for. -/
def Exact (call : SendCall) : Prop :=
  call.size ≤ call.bytes.length
    ∧ match call with
      | .word _ _ => True
      | .block _ size _ => 0 ≤ size ∧ intOfCount call.size = size

theorem meet_fst {calls : List SendCall} : ∀ {coming : List SendOutcome}
    {p : SendCall × SendOutcome}, p ∈ meet calls coming → p.1 ∈ calls := by
  induction calls with
  | nil =>
      intro coming p h
      cases h
  | cons call calls ih =>
      intro coming p h
      rcases List.mem_cons.mp h with rfl | h
      · exact List.mem_cons_self
      · exact List.mem_cons_of_mem call (ih h)

theorem whole_lands {call : SendCall} {outcome : SendOutcome} (h : Exact call)
    (hwhole : call.Whole outcome) : call.Lands outcome := by
  cases outcome with
  | failed errno => exact hwhole.elim
  | accepted count errno =>
      cases call with
      | word bytes hfits => exact ⟨hwhole, h⟩
      | block bytes size line => exact ⟨hwhole, h.1, h.2.2⟩

theorem word_exact (bytes : List UInt8) (hfits : bytes.length < 2 ^ 31) :
    Exact (.word bytes hfits) :=
  ⟨Nat.le_refl _, trivial⟩

theorem block_exact {bytes : List UInt8} {size : Int} {line : Option (Int → LogLine)}
    (h0 : 0 ≤ size) (hcounted : size < 2 ^ 31) (hsize : size ≤ bytes.length) :
    Exact (.block bytes size line) := by
  have hcount : sizeT size = size.toNat := sizeT_of_nonneg h0 (by omega)
  constructor
  · show sizeT size ≤ bytes.length
    omega
  · show 0 ≤ size ∧ intOfCount (sizeT size) = size
    rw [intOfCount_small (by omega)]
    omega

theorem codec_exact {α : Type} (c : Codec α) (value : α) {line : Option (Int → LogLine)}
    (hc : c.size < 2 ^ 31) : Exact (.block (c.bytes value) c.size line) := by
  apply block_exact
  · omega
  · omega
  · exact Int.ofNat_le.mpr (Nat.le_of_eq (c.bytes_length value).symm)

theorem headerCalls_exact (header : MsgHeader) :
    ∀ call ∈ headerCalls header, Exact call := by
  intro call h
  simp only [headerCalls, List.mem_cons, List.not_mem_nil, or_false] at h
  rcases h with rfl | rfl
  · exact codec_exact int8Codec header.op (by decide)
  · exact word_exact _ _

theorem messageCalls_exact {msg : Msg} (h : msg.Fits) :
    ∀ call ∈ messageCalls msg, Exact call := by
  intro call hcall
  cases msg with
  | writeObjReq req =>
      obtain ⟨-, oid, data, hoid, hname, hdata, hpos, hlength, hcounted⟩ := h
      have hsize : (Int16.ofNat (strlen oid.str)).toInt = strlen oid.str :=
        Int16.toInt_ofNat_of_lt hname
      have hle : strlen oid.str ≤ oid.bytes.length :=
        (List.takeWhile_prefix _).length_le
      simp only [messageCalls, hoid, hdata, Option.elim, stringCalls, dataCalls, hsize,
        List.mem_append, List.mem_cons, List.not_mem_nil, or_false] at hcall
      rcases hcall with (((hcall | rfl | rfl) | rfl | rfl) | rfl) | rfl | rfl
      · exact headerCalls_exact req.header call hcall
      · exact word_exact _ _
      · exact word_exact _ _
      · exact codec_exact int16Codec _ (by decide)
      · apply block_exact <;> omega
      · exact word_exact _ _
      · exact codec_exact int64Codec _ (by decide)
      · apply block_exact <;> omega
  | writeObjAck ack =>
      simp only [messageCalls, List.mem_append, List.mem_cons, List.not_mem_nil,
        or_false] at hcall
      rcases hcall with hcall | rfl | rfl | rfl
      · exact headerCalls_exact ack.header call hcall
      · exact word_exact _ _
      · exact word_exact _ _
      · exact codec_exact int8Codec ack.result (by decide)

/-- Every `send` is complete: zero is told, and the encoding is sent. -/
theorem writeMessage_travels {msg : Msg} {bs : List UInt8} {out : Outbox}
    (h : msg.Travels) (hbs : msgEncoding msg = some bs)
    (hwhole : ∀ p ∈ meet (messageCalls msg) out.coming, p.1.Whole p.2) :
    writeMessage msg out
      = .ok (0, ⟨out.sent ++ bs, out.coming.drop (messageCalls msg).length⟩) := by
  rw [writeMessage_calls h.fits.sendable, runCalls_land, messageCalls_bytes hbs]
  intro p hp
  exact whole_lands (messageCalls_exact h.fits p.1 (meet_fst hp)) (hwhole p hp)

-- ===================================================== sequences of messages

/-- `write_message` on one message after the other, and what it told. -/
def writeMessages : List Msg → Prog Outbox (List Int)
  | [] => return []
  | msg :: msgs => do
      let ret ← writeMessage msg
      let rets ← writeMessages msgs
      return ret :: rets

/-- `cceph_messenger_read_msg` again and again, and what it returned. -/
def readMsgs (messenger : Messenger) (connId : Int64) :
    Nat → Prog Inbox (List (Option Msg) × Messenger)
  | 0 => return ([], messenger)
  | n + 1 => do
      let (msg, messenger) ← messengerReadMsg messenger connId
      let (msgs, messenger) ← readMsgs messenger connId n
      return (msg :: msgs, messenger)

theorem meet_append (xs ys : List SendCall) : ∀ coming : List SendOutcome,
    meet (xs ++ ys) coming = meet xs coming ++ meet ys (coming.drop xs.length) := by
  induction xs with
  | nil => exact fun coming => rfl
  | cons call xs ih =>
      intro coming
      show _ :: meet (xs ++ ys) coming.tail = _ :: (_ ++ _)
      rw [ih, List.drop_tail]
      rfl

/-- However the bytes of the messages are cut into `recv` calls, with any
number of `EAGAIN` between them: the messages come out as they went in,
and what follows them stays. -/
theorem wire_roundTrip {msgs : List Msg} (hmsgs : ∀ msg ∈ msgs, msg.Travels) :
    ∀ {out : Outbox}, (∀ p ∈ meet (msgs.flatMap messageCalls) out.coming, p.1.Whole p.2) →
    ∃ stream out', writeMessages msgs out = .ok (List.replicate msgs.length 0, out')
      ∧ out'.sent = out.sent ++ stream
      ∧ ∃ got, List.Forall₂ SameMsg msgs got
        ∧ ∀ messenger connId inbox rest, inbox.allocs = .plenty →
          inbox.delivered = stream ++ rest →
          ∃ inbox', readMsgs messenger connId msgs.length inbox
              = .ok ((got.map some, messenger), inbox')
            ∧ inbox'.delivered = rest := by
  induction msgs with
  | nil =>
      intro out _
      refine ⟨[], out, rfl, (List.append_nil _).symm, [], .nil, ?_⟩
      intro messenger connId inbox rest _ hd
      exact ⟨inbox, rfl, hd⟩
  | cons msg msgs ih =>
      intro out hwhole
      rw [List.flatMap_cons, meet_append] at hwhole
      have htravels := hmsgs msg List.mem_cons_self
      obtain ⟨bs, first, hbs, hwire, hcounted, hsame⟩ := msgEncoding_onWire htravels
      have hwrite := writeMessage_travels htravels hbs
        fun p hp => hwhole p (List.mem_append_left _ hp)
      have hlater : ∀ p ∈ meet (msgs.flatMap messageCalls)
          (⟨out.sent ++ bs, out.coming.drop (messageCalls msg).length⟩ : Outbox).coming,
          p.1.Whole p.2 :=
        fun p hp => hwhole p (List.mem_append_right _ hp)
      obtain ⟨stream, out', hwrites, hsent, got, hsames, hreads⟩ :=
        ih (fun m hm => hmsgs m (List.mem_cons_of_mem msg hm)) hlater
      refine ⟨bs ++ stream, out', ?_, ?_, first :: got, .cons hsame hsames, ?_⟩
      · unfold writeMessages
        rw [bind_ok hwrite, bind_ok hwrites]
        rfl
      · rw [hsent, List.append_assoc]
      · intro messenger connId inbox rest hplenty hd
        rw [List.append_assoc] at hd
        obtain ⟨mid, hread, hplenty, hd⟩ :=
          readMsg_onWire messenger connId hplenty hwire hcounted hd
        obtain ⟨inbox', hrest, hd⟩ := hreads messenger connId mid rest hplenty hd
        refine ⟨inbox', ?_, hd⟩
        show (messengerReadMsg messenger connId >>= _) inbox = _
        rw [bind_ok hread]
        show (readMsgs messenger connId msgs.length >>= _) mid = _
        rw [bind_ok hrest]
        rfl

theorem whole_of_willing {calls : List SendCall} : ∀ p ∈ meet calls [], p.1.Whole p.2 := by
  induction calls with
  | nil =>
      intro p hp
      cases hp
  | cons call calls ih =>
      intro p hp
      rcases List.mem_cons.mp hp with rfl | hp
      · exact Nat.le_refl _
      · exact ih p hp

/-- An acknowledgement, and a request with an empty name. -/
def twoMsgs : List Msg :=
  [.writeObjAck firstAck,
    .writeObjReq ⟨⟨CCEPH_MSG_OP_WRITE, 7⟩, 1, 1, 0, some (.close []), 0, 1, some [5]⟩]

theorem wire_roundTrip_two :
    ∃ stream out', writeMessages twoMsgs ⟨[], []⟩ = .ok ([0, 0], out')
      ∧ out'.sent = [] ++ stream
      ∧ ∃ got, List.Forall₂ SameMsg twoMsgs got
        ∧ ∀ messenger connId inbox rest, inbox.allocs = .plenty →
          inbox.delivered = stream ++ rest →
          ∃ inbox', readMsgs messenger connId 2 inbox
              = .ok ((got.map some, messenger), inbox')
            ∧ inbox'.delivered = rest := by
  have htravels : ∀ msg ∈ twoMsgs, msg.Travels := by
    intro msg h
    simp only [twoMsgs, List.mem_cons, List.not_mem_nil, or_false] at h
    rcases h with rfl | rfl
    · rfl
    · exact ⟨rfl, .close [], [5], rfl, Nat.two_pow_pos 15, rfl, rfl, by decide⟩
  exact wire_roundTrip htravels whole_of_willing

end CephInC
