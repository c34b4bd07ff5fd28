/-
The receivers of single fields and of whole bodies, as decoders of the
delivered bytes.

`Received dec p inbox` is what a receiver of fixed-width fields can do:
return zero with the decoded value, or find the stream cut off and
return `CCEPH_ERR_CONN_CLOSED`. The header and the acknowledgement are
of this kind. A request is not, by its string and its data: their
outcomes are `StringOutcome` and `DataOutcome`, the request's
`ReqOutcome`.
-/
import CephInC.Message.Proofs.Recv
import CephInC.Message.Wire

namespace CephInC

open Lib

/-- A receiver decodes the delivered bytes. -/
inductive Received {α : Type} (dec : Decoder α) (p : Prog Inbox (Int × α))
    (inbox : Inbox) : Prop
  | whole (a : α) (inbox' : Inbox)
      (hrun : p inbox = .ok ((0, a), inbox'))
      (hdec : dec inbox.delivered = some (a, inbox'.delivered))
      (hallocs : inbox'.allocs = inbox.allocs)
  | cut (a : α) (inbox' : Inbox)
      (hrun : p inbox = .ok ((CCEPH_ERR_CONN_CLOSED, a), inbox'))
      (hdec : dec inbox.delivered = none)

-- ============================================================ integers

/-- A variable of fixed width is read whole, or the connection is
closed. -/
theorem recvFixed {α : Type} (c : Codec α) (hc : c.size < 2 ^ 31) (value : α)
    (inbox : Inbox) :
    (∃ buf inbox', recvFromConn (some c.size) c.size inbox
        = .ok ((CCEPH_ERR_CONN_CLOSED, buf), inbox')
      ∧ c.decode inbox.delivered = none)
    ∨ ∃ buf inbox', recvFromConn (some c.size) c.size inbox
        = .ok (((c.size : Int), buf), inbox')
      ∧ c.decode inbox.delivered = some (c.overwrite value buf, inbox'.delivered)
      ∧ inbox'.allocs = inbox.allocs := by
  rcases Nat.lt_or_ge inbox.delivered.length c.size with hlt | hle
  · obtain ⟨buf, inbox', hrun, -⟩ := recvFromConn_cut inbox (Nat.le_refl c.size) hlt
    exact .inl ⟨buf, inbox', hrun, c.decode_of_lt hlt⟩
  · obtain ⟨inbox', hrun, hrest, hallocs⟩ :=
      recvFromConn_whole inbox (Nat.le_refl c.size) hle
    refine .inr ⟨inbox.delivered.take c.size, inbox', ?_, ?_, hallocs⟩
    · rw [hrun, Int32.toInt_ofNat_of_lt hc]
    · rw [c.decode_of_le hle, hrest, c.overwrite_full value (by simp; omega)]

/-- `cceph_recv_int8` and its kin. -/
theorem recvInt_received {α : Type} (c : Codec α) (hc : c.size < 2 ^ 31)
    (value : α) (inbox : Inbox) : Received c.decode (recvInt c value) inbox := by
  unfold recvInt
  rcases recvFixed c hc value inbox with
    ⟨buf, inbox', hrun, hdec⟩ | ⟨buf, inbox', hrun, hdec, hallocs⟩
  · have hne : ¬CCEPH_ERR_CONN_CLOSED = (c.size : Int) := by
      unfold CCEPH_ERR_CONN_CLOSED
      omega
    refine .cut (c.overwrite value buf) inbox' ?_ hdec
    rw [bind_ok hrun]
    simp only [if_neg hne]
    rfl
  · refine .whole (c.overwrite value buf) inbox' ?_ hdec hallocs
    rw [bind_ok hrun]
    simp only [if_true]
    rfl

theorem recvInt8_received (value : Int8) (inbox : Inbox) :
    Received int8Codec.decode (recvInt8 value) inbox :=
  recvInt_received int8Codec (by decide) value inbox

theorem recvInt32_received (value : Int32) (inbox : Inbox) :
    Received int32Codec.decode (recvInt32 value) inbox :=
  recvInt_received int32Codec (by decide) value inbox

theorem recvInt64_received (value : Int64) (inbox : Inbox) :
    Received int64Codec.decode (recvInt64 value) inbox :=
  recvInt_received int64Codec (by decide) value inbox

-- ============================================== header and write ack

/-- `cceph_msg_header_recv`. -/
theorem msgHeaderRecv_received (header : MsgHeader) (inbox : Inbox) :
    Received wireHeader (msgHeaderRecv header) inbox := by
  unfold msgHeaderRecv
  cases recvInt8_received header.op inbox with
  | cut op inbox1 hrun hdec =>
      refine .cut ⟨op, header.logId⟩ inbox1 ?_ (decoder_bind_none hdec)
      rw [bind_ok hrun]
      rfl
  | whole op inbox1 hrun hdec hallocs =>
      cases recvInt64_received header.logId inbox1 with
      | cut logId inbox2 hrun2 hdec2 =>
          refine .cut ⟨op, logId⟩ inbox2 ?_ ?_
          · rw [bind_ok hrun]
            show (recvInt64 header.logId >>= _) inbox1 = _
            rw [bind_ok hrun2]
            rfl
          · unfold wireHeader
            rw [decoder_bind_some hdec, decoder_bind_none hdec2]
      | whole logId inbox2 hrun2 hdec2 hallocs2 =>
          refine .whole ⟨op, logId⟩ inbox2 ?_ ?_ (hallocs2.trans hallocs)
          · rw [bind_ok hrun]
            show (recvInt64 header.logId >>= _) inbox1 = _
            rw [bind_ok hrun2]
            rfl
          · unfold wireHeader
            rw [decoder_bind_some hdec, decoder_bind_some hdec2]
            rfl

/-- `cceph_msg_write_obj_ack_recv`. -/
theorem msgWriteObjAckRecv_received (msg : MsgWriteObjAck) (inbox : Inbox) :
    Received (wireAck msg.header) (msgWriteObjAckRecv msg) inbox := by
  unfold msgWriteObjAckRecv
  cases recvInt32_received msg.clientId inbox with
  | cut clientId inbox1 hrun hdec =>
      refine .cut { msg with clientId := clientId } inbox1 ?_
        (decoder_bind_none hdec)
      rw [bind_ok hrun]
      rfl
  | whole clientId inbox1 hrun hdec hallocs =>
      cases recvInt64_received msg.reqId inbox1 with
      | cut reqId inbox2 hrun2 hdec2 =>
          refine .cut { msg with clientId := clientId, reqId := reqId } inbox2
            ?_ ?_
          · rw [bind_ok hrun]
            show (recvInt64 msg.reqId >>= _) inbox1 = _
            rw [bind_ok hrun2]
            rfl
          · unfold wireAck
            rw [decoder_bind_some hdec, decoder_bind_none hdec2]
      | whole reqId inbox2 hrun2 hdec2 hallocs2 =>
          cases recvInt8_received msg.result inbox2 with
          | cut result inbox3 hrun3 hdec3 =>
              refine .cut ⟨msg.header, clientId, reqId, result⟩ inbox3 ?_ ?_
              · rw [bind_ok hrun]
                show (recvInt64 msg.reqId >>= _) inbox1 = _
                rw [bind_ok hrun2]
                show (recvInt8 msg.result >>= _) inbox2 = _
                rw [bind_ok hrun3]
                rfl
              · unfold wireAck
                rw [decoder_bind_some hdec, decoder_bind_some hdec2,
                  decoder_bind_none hdec3]
          | whole result inbox3 hrun3 hdec3 hallocs3 =>
              refine .whole ⟨msg.header, clientId, reqId, result⟩ inbox3 ?_ ?_
                (hallocs3.trans (hallocs2.trans hallocs))
              · rw [bind_ok hrun]
                show (recvInt64 msg.reqId >>= _) inbox1 = _
                rw [bind_ok hrun2]
                show (recvInt8 msg.result >>= _) inbox2 = _
                rw [bind_ok hrun3]
                rfl
              · unfold wireAck
                rw [decoder_bind_some hdec, decoder_bind_some hdec2,
                  decoder_bind_some hdec3]
                rfl

-- ===================================================== strings and data

/-- `malloc` grants the size or not, and never upsets plenty. -/
theorem recvMalloc_run (size : Nat) (inbox : Inbox) :
    ∃ granted inbox', recvMalloc size inbox = .ok (granted, inbox')
      ∧ inbox'.delivered = inbox.delivered
      ∧ (granted = true → size < 2 ^ 63)
      ∧ (inbox.allocs = .plenty → inbox'.allocs = .plenty)
      ∧ (inbox.allocs = .plenty → size < 2 ^ 63 → granted = true) := by
  refine ⟨_, _, rfl, rfl, ?_, ?_, ?_⟩
  · intro h
    simp only [Bool.and_eq_true, decide_eq_true_eq] at h
    exact h.1
  · intro h
    simp [h]
  · intro h hsize
    rw [h, decide_eq_true hsize]
    rfl

/-- What `cceph_recv_string` can do. -/
inductive StringOutcome (size : Int16) (string : Option CharBlock)
    (inbox : Inbox) : Prop
  | whole (oidSize : Int16) (oid : List UInt8) (inbox' : Inbox)
      (hrun : recvString size string inbox
        = .ok ((0, oidSize, some (.close oid)), inbox'))
      (hdec : wireString inbox.delivered = some ((oidSize, oid), inbox'.delivered))
      (hsize : 0 ≤ oidSize.toInt)
      (hplenty : inbox.allocs = .plenty → inbox'.allocs = .plenty)
  | cut (oidSize : Int16) (oid : Option CharBlock) (inbox' : Inbox)
      (hrun : recvString size string inbox
        = .ok ((CCEPH_ERR_CONN_CLOSED, oidSize, oid), inbox'))
      (hdec : wireString inbox.delivered = none)
      (hsize : ∀ size rest, int16Codec.decode inbox.delivered = some (size, rest) →
        0 ≤ size.toInt)
  | crash (e : Fault) (hrun : recvString size string inbox = .error e)
      (hwhy : inbox.allocs = .plenty → ∃ oidSize rest,
        int16Codec.decode inbox.delivered = some (oidSize, rest)
          ∧ oidSize.toInt < 0)

/-- The block of a string whose length is not negative. -/
theorem recvStringBlock_granted {size : Int16} {inbox inbox' : Inbox}
    (hsize : 0 ≤ size.toInt)
    (hrun : recvMalloc (sizeT (size.toInt + 1)) inbox = .ok (true, inbox')) :
    (∃ oid inbox'', recvStringBlock size inbox
        = .ok ((CCEPH_ERR_CONN_CLOSED, size, oid), inbox'')
      ∧ takeBytes (sizeT size.toInt) inbox'.delivered = none)
    ∨ ∃ oid inbox'', recvStringBlock size inbox
        = .ok ((0, size, some (.close oid)), inbox'')
      ∧ takeBytes (sizeT size.toInt) inbox'.delivered
        = some (oid, inbox''.delivered)
      ∧ inbox''.allocs = inbox'.allocs := by
  have hbounds := int16_bounds size
  have hroom : sizeT (size.toInt + 1) = (size.toInt + 1).toNat :=
    sizeT_of_nonneg (by omega) (by omega)
  have hlen : sizeT size.toInt = size.toInt.toNat :=
    sizeT_of_nonneg (by omega) (by omega)
  have hin : 0 ≤ size.toInt ∧ size.toInt < sizeT (size.toInt + 1) := by
    omega
  have hstep : recvStringBlock size inbox = (do
      let r ← recvFromConn (some (sizeT (size.toInt + 1))) (sizeT size.toInt)
      return (if r.1 = size.toInt then 0 else if r.1 < 0 then r.1 else -1, size,
        if r.1 < 0 ∨ r.1 ≠ size.toInt then none else some (CharBlock.close r.2)))
      inbox' := by
    unfold recvStringBlock
    rw [bind_ok hrun]
    simp [hin]
  rw [hstep]
  have hfit : sizeT size.toInt ≤ sizeT (size.toInt + 1) := by omega
  rcases Nat.lt_or_ge inbox'.delivered.length (sizeT size.toInt) with hlt | hle
  · obtain ⟨buf, inbox'', hrecv, -⟩ := recvFromConn_cut inbox' hfit hlt
    refine .inl ⟨none, inbox'', ?_, takeBytes_of_lt hlt⟩
    rw [bind_ok hrecv]
    have hne : ¬CCEPH_ERR_CONN_CLOSED = size.toInt := by
      unfold CCEPH_ERR_CONN_CLOSED
      omega
    simp only [if_neg hne]
    rfl
  · obtain ⟨inbox'', hrecv, hrest, hallocs⟩ := recvFromConn_whole inbox' hfit hle
    refine .inr ⟨inbox'.delivered.take (sizeT size.toInt), inbox'', ?_, ?_, hallocs⟩
    · have hret : (Int32.ofNat (sizeT size.toInt)).toInt = size.toInt := by
        rw [Int32.toInt_ofNat_of_lt (by omega)]
        omega
      have hpos : ¬(size.toInt < 0 ∨ size.toInt ≠ size.toInt) := by omega
      rw [bind_ok hrecv, hret]
      simp only [if_true, if_neg hpos]
      rfl
    · rw [takeBytes_of_le hle, hrest]

theorem recvString_outcome (size : Int16) (string : Option CharBlock)
    (inbox : Inbox) : StringOutcome size string inbox := by
  rcases recvFixed int16Codec (by decide) size inbox with
    ⟨buf, inbox1, hrun1, hdec1⟩ | ⟨buf, inbox1, hrun1, hdec1, hallocs1⟩
  · refine .cut (int16Codec.overwrite size buf) string inbox1 ?_
      (decoder_bind_none hdec1) ?_
    · unfold recvString
      rw [bind_ok hrun1]
      rfl
    · intro size' rest h
      rw [hdec1] at h
      cases h
  have hstep : recvString size string inbox
      = recvStringBlock (int16Codec.overwrite size buf) inbox1 := by
    unfold recvString
    rw [bind_ok hrun1]
    rfl
  generalize int16Codec.overwrite size buf = oidSize at hstep hdec1
  have hdec : wireString inbox.delivered = (do
      let bytes ← takeBytes (sizeT oidSize.toInt)
      return (oidSize, bytes)) inbox1.delivered := by
    unfold wireString
    rw [decoder_bind_some hdec1]
  have hbounds := int16_bounds oidSize
  obtain ⟨granted, inbox2, hrun2, hsame2, hsmall, hplenty2, hgrant⟩ :=
    recvMalloc_run (sizeT (oidSize.toInt + 1)) inbox1
  by_cases hneg : oidSize.toInt < 0
  · have hcrash : ∃ e, recvStringBlock oidSize inbox1 = .error e := by
      unfold recvStringBlock
      rw [bind_ok hrun2]
      cases granted with
      | false => exact ⟨.nullDeref, rfl⟩
      | true =>
          have hout : ¬(0 ≤ oidSize.toInt
              ∧ oidSize.toInt < sizeT (oidSize.toInt + 1)) := by
            omega
          simp only [Bool.not_true, Bool.false_eq_true, if_false, if_pos hout]
          exact ⟨.outOfBounds, rfl⟩
    obtain ⟨e, hcrash⟩ := hcrash
    exact .crash e (hstep.trans hcrash) fun _ => ⟨oidSize, _, hdec1, hneg⟩
  have hroom : sizeT (oidSize.toInt + 1) = (oidSize.toInt + 1).toNat :=
    sizeT_of_nonneg (by omega) (by omega)
  cases granted with
  | false =>
      refine .crash .nullDeref ?_ ?_
      · rw [hstep]
        unfold recvStringBlock
        rw [bind_ok hrun2]
        rfl
      · intro h
        cases hgrant (hallocs1.trans h) (by omega)
  | true =>
      rcases recvStringBlock_granted (by omega) hrun2 with
        ⟨oid, inbox3, hrun3, hdec3⟩ | ⟨oid, inbox3, hrun3, hdec3, hallocs3⟩
      · refine .cut oidSize oid inbox3 (hstep.trans hrun3) ?_ ?_
        · rw [hdec, ← hsame2, decoder_bind_none hdec3]
        · intro size' rest h
          rw [hdec1] at h
          cases h
          omega
      · refine .whole oidSize oid inbox3 (hstep.trans hrun3) ?_ (by omega) ?_
        · rw [hdec, ← hsame2, decoder_bind_some hdec3]
          rfl
        · intro h
          rw [hallocs3, hplenty2 (hallocs1.trans h)]

/-- What `cceph_recv_data` can do. A length no `int` counts is never
accepted; its code is the negative count, or minus one. -/
inductive DataOutcome (size : Int64) (data : Option (List UInt8))
    (inbox : Inbox) : Prop
  | whole (length : Int64) (bytes : List UInt8) (block : Option (List UInt8))
      (inbox' : Inbox)
      (hrun : recvData size data inbox = .ok ((0, length, block), inbox'))
      (hdec : wireData inbox.delivered = some ((length, bytes), inbox'.delivered))
      (h0 : 0 ≤ length.toInt) (h31 : length.toInt < 2 ^ 31)
      (hblock : inbox.allocs = .plenty → block = some bytes)
  /-- The length is the code of a closed connection. -/
  | void (length : Int64) (inbox' : Inbox)
      (hrun : recvData size data inbox = .ok ((0, length, none), inbox'))
      (hlength : length.toInt = CCEPH_ERR_CONN_CLOSED)
      (hdec : ∃ rest, int64Codec.decode inbox.delivered = some (length, rest))
  | uncounted (ret : Int) (length : Int64) (block : Option (List UInt8))
      (inbox' : Inbox)
      (hrun : recvData size data inbox = .ok ((ret, length, block), inbox'))
      (hneg : ret < 0) (hret : ret ≠ CCEPH_ERR_CONN_CLOSED)
      (hdec : DataUncounted inbox.delivered)
  | cut (length : Int64) (block : Option (List UInt8)) (inbox' : Inbox)
      (hrun : recvData size data inbox
        = .ok ((CCEPH_ERR_CONN_CLOSED, length, block), inbox'))
      (hwhy : inbox.allocs = .plenty →
        ¬DataUncounted inbox.delivered ∧ ¬DataTaken inbox.delivered)

theorem recvDataBlock_refused {size : Int64} {inbox inbox' : Inbox}
    (hrun : recvMalloc (sizeT size.toInt) inbox = .ok (false, inbox')) :
    ∃ ret inbox'', recvDataBlock size inbox = .ok ((ret, size, none), inbox'')
      ∧ (ret = 0 ∧ size.toInt = 0 ∧ inbox'' = inbox'
        ∨ ret = 0 ∧ size.toInt = CCEPH_ERR_CONN_CLOSED
        ∨ ret = CCEPH_ERR_CONN_CLOSED ∧ size.toInt ≠ CCEPH_ERR_CONN_CLOSED) := by
  have hbounds := int64_bounds size
  unfold recvDataBlock
  rw [bind_ok hrun]
  show ∃ ret inbox'', (recvFromConn none (sizeT size.toInt) >>= _) inbox' = _ ∧ _
  by_cases hzero : size.toInt = 0
  · refine ⟨0, inbox', ?_, .inl ⟨rfl, hzero, rfl⟩⟩
    rw [hzero]
    rfl
  · have hpos : 0 < sizeT size.toInt := by
      unfold sizeT
      omega
    obtain ⟨inbox'', hrecv, -⟩ := recvFromConn_null inbox' hpos
    by_cases heq : CCEPH_ERR_CONN_CLOSED = size.toInt
    · refine ⟨0, inbox'', ?_, .inr (.inl ⟨rfl, heq.symm⟩)⟩
      rw [bind_ok hrecv]
      simp only [if_pos heq]
      rfl
    · refine ⟨CCEPH_ERR_CONN_CLOSED, inbox'', ?_, .inr (.inr ⟨rfl, Ne.symm heq⟩)⟩
      rw [bind_ok hrecv]
      simp only [if_neg heq]
      rfl

theorem recvDataBlock_granted {size : Int64} {inbox inbox' : Inbox}
    (hsize : 0 ≤ size.toInt)
    (hrun : recvMalloc (sizeT size.toInt) inbox = .ok (true, inbox')) :
    (∃ data inbox'', recvDataBlock size inbox
        = .ok ((CCEPH_ERR_CONN_CLOSED, size, data), inbox'')
      ∧ takeBytes (sizeT size.toInt) inbox'.delivered = none)
    ∨ ∃ ret data bytes inbox'', recvDataBlock size inbox
        = .ok ((ret, size, data), inbox'')
      ∧ takeBytes (sizeT size.toInt) inbox'.delivered
        = some (bytes, inbox''.delivered)
      ∧ (size.toInt < 2 ^ 31 ∧ ret = 0 ∧ data = some bytes
        ∨ 2 ^ 31 ≤ size.toInt ∧ ret < 0
          ∧ (ret = CCEPH_ERR_CONN_CLOSED
            ↔ intOfSize size = CCEPH_ERR_CONN_CLOSED)) := by
  have hbounds := int64_bounds size
  have hlen : sizeT size.toInt = size.toInt.toNat :=
    sizeT_of_nonneg (by omega) (by omega)
  have hstep : recvDataBlock size inbox = (do
      let r ← recvFromConn (some (sizeT size.toInt)) (sizeT size.toInt)
      return (if r.1 = size.toInt then 0 else if r.1 < 0 then r.1 else -1, size,
        if r.1 < 0 ∨ r.1 ≠ size.toInt then none
        else (some (sizeT size.toInt)).map fun _ => r.2)) inbox' := by
    unfold recvDataBlock
    rw [bind_ok hrun]
    rfl
  rw [hstep]
  rcases Nat.lt_or_ge inbox'.delivered.length (sizeT size.toInt) with hlt | hle
  · obtain ⟨buf, inbox'', hrecv, -⟩ :=
      recvFromConn_cut inbox' (Nat.le_refl (sizeT size.toInt)) hlt
    refine .inl ⟨none, inbox'', ?_, takeBytes_of_lt hlt⟩
    rw [bind_ok hrecv]
    have hne : ¬CCEPH_ERR_CONN_CLOSED = size.toInt := by
      unfold CCEPH_ERR_CONN_CLOSED
      omega
    simp only [if_neg hne]
    rfl
  · obtain ⟨inbox'', hrecv, hrest, hallocs⟩ :=
      recvFromConn_whole inbox' (Nat.le_refl (sizeT size.toInt)) hle
    have hret : (Int32.ofNat (sizeT size.toInt)).toInt = intOfSize size := by
      have hnat : size.toInt = (size.toInt.toNat : Int) := by omega
      unfold intOfSize
      rw [hlen, hnat, Int32.ofInt_eq_ofNat]
      simp
    have htake := takeBytes_of_le hle
    rw [← hrest] at htake
    rw [hret] at hrecv
    have hint := int32_bounds (Int32.ofInt size.toInt)
    by_cases hshort : size.toInt < 2 ^ 31
    · have hval : intOfSize size = size.toInt := by
        rw [← hret, Int32.toInt_ofNat_of_lt (by omega)]
        omega
      have hpos : ¬(size.toInt < 0 ∨ size.toInt ≠ size.toInt) := by omega
      refine .inr ⟨0, some (inbox'.delivered.take (sizeT size.toInt)),
        inbox'.delivered.take (sizeT size.toInt), inbox'', ?_, htake,
        .inl ⟨hshort, rfl, rfl⟩⟩
      rw [bind_ok hrecv, hval]
      simp only [if_true, if_neg hpos]
      rfl
    · have hval : ¬intOfSize size = size.toInt := by
        unfold intOfSize
        omega
      refine .inr ⟨if intOfSize size < 0 then intOfSize size else -1, none,
        inbox'.delivered.take (sizeT size.toInt), inbox'', ?_, htake,
        .inr ⟨by omega, ?_, ?_⟩⟩
      · have hbad : intOfSize size < 0 ∨ intOfSize size ≠ size.toInt := .inr hval
        rw [bind_ok hrecv]
        simp only [if_neg hval, if_pos hbad]
        rfl
      · split
        · assumption
        · decide
      · unfold CCEPH_ERR_CONN_CLOSED
        split
        · exact Iff.rfl
        · constructor
          · intro h
            omega
          · intro h
            omega

/-- A length that is neither counted nor taken makes the data neither. -/
theorem wireData_neither {d rest : List UInt8} {length : Int64}
    (hdec : int64Codec.decode d = some (length, rest))
    (hlen : length.toInt < 0 ∨ ∀ r, wireData d ≠ some r
      ∨ 2 ^ 31 ≤ length.toInt ∧ intOfSize length = CCEPH_ERR_CONN_CLOSED)
    (hcode : length.toInt ≠ CCEPH_ERR_CONN_CLOSED) : ¬DataUncounted d ∧ ¬DataTaken d := by
  constructor
  · rintro ⟨length', bytes, rest', hwire, h31, hint⟩
    have heq := wireData_length hdec hwire
    subst heq
    rcases hlen with hneg | hlen
    · omega
    · rcases hlen _ with hnone | ⟨-, hint'⟩
      · exact hnone hwire
      · exact hint hint'
  · rintro (⟨length', bytes, rest', hwire, h0, h31⟩ | ⟨length', rest', hlength, hcode'⟩)
    · have heq := wireData_length hdec hwire
      subst heq
      rcases hlen with hneg | hlen
      · omega
      · rcases hlen _ with hnone | ⟨h31', -⟩
        · exact hnone hwire
        · omega
    · rw [hdec] at hlength
      cases hlength
      exact hcode hcode'

theorem recvData_outcome (size : Int64) (data : Option (List UInt8))
    (inbox : Inbox) : DataOutcome size data inbox := by
  rcases recvFixed int64Codec (by decide) size inbox with
    ⟨buf, inbox1, hrun1, hdec1⟩ | ⟨buf, inbox1, hrun1, hdec1, hallocs1⟩
  · have hnone : ∀ r, wireData inbox.delivered ≠ some r := by
      intro r h
      unfold wireData at h
      rw [decoder_bind_none hdec1] at h
      cases h
    refine .cut (int64Codec.overwrite size buf) data inbox1 ?_ fun _ => ⟨?_, ?_⟩
    · unfold recvData
      rw [bind_ok hrun1]
      rfl
    · rintro ⟨length, bytes, rest, hwire, -⟩
      exact hnone _ hwire
    · rintro (⟨length, bytes, rest, hwire, -⟩ | ⟨length, rest, hlength, -⟩)
      · exact hnone _ hwire
      · rw [hdec1] at hlength
        cases hlength
  have hstep : recvData size data inbox
      = recvDataBlock (int64Codec.overwrite size buf) inbox1 := by
    unfold recvData
    rw [bind_ok hrun1]
    rfl
  generalize int64Codec.overwrite size buf = length at hstep hdec1
  have hdec : wireData inbox.delivered = (do
      let bytes ← takeBytes (sizeT length.toInt)
      return (length, bytes)) inbox1.delivered := by
    unfold wireData
    rw [decoder_bind_some hdec1]
  have hbounds := int64_bounds length
  obtain ⟨granted, inbox2, hrun2, hsame2, hsmall, hplenty2, hgrant⟩ :=
    recvMalloc_run (sizeT length.toInt) inbox1
  cases granted with
  | false =>
      obtain ⟨ret, inbox3, hrun3, hcase⟩ := recvDataBlock_refused hrun2
      rcases hcase with ⟨rfl, hzero, rfl⟩ | ⟨rfl, hcode⟩ | ⟨rfl, hcode⟩
      · refine .whole length [] none inbox3 (hstep.trans hrun3) ?_ (by omega)
          (by omega) ?_
        · rw [hdec, hzero]
          show (takeBytes 0 >>= _) inbox1.delivered = _
          rw [decoder_bind_some (takeBytes_of_le (Nat.zero_le _)), hsame2]
          rfl
        · intro h
          cases hgrant (hallocs1.trans h) (by rw [hzero]; decide)
      · exact .void length inbox3 (hstep.trans hrun3) hcode ⟨_, hdec1⟩
      · refine .cut length none inbox3 (hstep.trans hrun3) ?_
        intro h
        refine wireData_neither hdec1 (.inl ?_) hcode
        by_contra h0
        have hfit : sizeT length.toInt < 2 ^ 63 := by
          rw [sizeT_of_nonneg (by omega) (by omega)]
          omega
        cases hgrant (hallocs1.trans h) hfit
  | true =>
      have hsmall := hsmall rfl
      have h0 : 0 ≤ length.toInt := by
        unfold sizeT at hsmall
        omega
      have hcode : length.toInt ≠ CCEPH_ERR_CONN_CLOSED := by
        unfold CCEPH_ERR_CONN_CLOSED
        omega
      rcases recvDataBlock_granted h0 hrun2 with
        ⟨block, inbox3, hrun3, hdec3⟩ | ⟨ret, block, bytes, inbox3, hrun3, hdec3, hcase⟩
      · refine .cut length block inbox3 (hstep.trans hrun3) fun _ =>
          wireData_neither hdec1 (.inr fun r => .inl ?_) hcode
        rw [hdec, ← hsame2, decoder_bind_none hdec3]
        simp
      · have hwire : wireData inbox.delivered
            = some ((length, bytes), inbox3.delivered) := by
          rw [hdec, ← hsame2, decoder_bind_some hdec3]
          rfl
        rcases hcase with ⟨h31, rfl, rfl⟩ | ⟨h31, hneg, hclosed⟩
        · exact .whole length bytes (some bytes) inbox3 (hstep.trans hrun3)
            hwire h0 h31 fun _ => rfl
        · by_cases hret : ret = CCEPH_ERR_CONN_CLOSED
          · subst hret
            exact .cut length block inbox3 (hstep.trans hrun3) fun _ =>
              wireData_neither hdec1 (.inr fun r => .inr ⟨h31, hclosed.mp rfl⟩) hcode
          · exact .uncounted ret length block inbox3 (hstep.trans hrun3) hneg hret
              ⟨length, bytes, _, hwire, h31, fun h => hret (hclosed.mpr h)⟩

-- ======================================================= write request

/-- What `cceph_msg_write_obj_req_recv` can do. -/
inductive ReqOutcome (req : MsgWriteObjReq) (inbox : Inbox) : Prop
  | whole (req' : MsgWriteObjReq) (inbox' : Inbox)
      (hrun : msgWriteObjReqRecv req inbox = .ok ((0, req'), inbox'))
      (hheader : req'.header = req.header)
      (hoid : 0 ≤ req'.oidSize.toInt)
      (htaken : BeforeData inbox.delivered DataTaken)
      (hneg : req'.length.toInt < 0 → BeforeData inbox.delivered DataNegative)
      (hdec : inbox.allocs = .plenty → 0 ≤ req'.length.toInt →
        wireReq req.header inbox.delivered = some (req', inbox'.delivered))
  | uncounted (ret : Int) (req' : MsgWriteObjReq) (inbox' : Inbox)
      (hrun : msgWriteObjReqRecv req inbox = .ok ((ret, req'), inbox'))
      (hneg : ret < 0) (hret : ret ≠ CCEPH_ERR_CONN_CLOSED)
      (hcount : BeforeData inbox.delivered DataUncounted)
  | cut (req' : MsgWriteObjReq) (inbox' : Inbox)
      (hrun : msgWriteObjReqRecv req inbox
        = .ok ((CCEPH_ERR_CONN_CLOSED, req'), inbox'))
      (hwhy : inbox.allocs = .plenty → ¬BeforeData inbox.delivered DataUncounted
        ∧ ¬BeforeData inbox.delivered DataTaken ∧ ¬NegativeOid inbox.delivered)
  | crash (e : Fault) (hrun : msgWriteObjReqRecv req inbox = .error e)
      (hwhy : inbox.allocs = .plenty → NegativeOid inbox.delivered)

/-- The part of a request after its two ids, as the code reads it. -/
def msgWriteObjReqRecvRest (req : MsgWriteObjReq) :
    Prog Inbox (Int × MsgWriteObjReq) := do
  let (ret, oidSize, oid) ← recvString req.oidSize req.oid
  let req := { req with oidSize := oidSize, oid := oid }
  if ret < 0 then return (ret, req)
  let (ret, offset) ← recvInt64 req.offset
  let req := { req with offset := offset }
  if ret < 0 then return (ret, req)
  let (ret, length, data) ← recvData req.length req.data
  let req := { req with length := length, data := data }
  if ret < 0 then return (ret, req)
  return (ret, req)

/-- The two ids come first. -/
theorem msgWriteObjReqRecv_ids (req : MsgWriteObjReq) (hoid : req.oid = none)
    (hdata : req.data = none) (inbox : Inbox) :
    (∃ req' inbox', msgWriteObjReqRecv req inbox
        = .ok ((CCEPH_ERR_CONN_CLOSED, req'), inbox')
      ∧ wireReqIds inbox.delivered = none)
    ∨ ∃ clientId reqId inbox', msgWriteObjReqRecv req inbox
        = msgWriteObjReqRecvRest { req with clientId := clientId, reqId := reqId }
            inbox'
      ∧ wireReqIds inbox.delivered = some ((clientId, reqId), inbox'.delivered)
      ∧ inbox'.allocs = inbox.allocs := by
  unfold msgWriteObjReqRecv
  rw [assert_pos hoid, assert_pos hdata]
  simp only [pure_bind]
  cases recvInt32_received req.clientId inbox with
  | cut clientId inbox1 hrun hdec =>
      refine .inl ⟨{ req with clientId := clientId }, inbox1, ?_,
        decoder_bind_none hdec⟩
      rw [bind_ok hrun]
      rfl
  | whole clientId inbox1 hrun hdec hallocs =>
      cases recvInt64_received req.reqId inbox1 with
      | cut reqId inbox2 hrun2 hdec2 =>
          refine .inl ⟨{ req with clientId := clientId, reqId := reqId }, inbox2,
            ?_, ?_⟩
          · rw [bind_ok hrun]
            show (recvInt64 req.reqId >>= _) inbox1 = _
            rw [bind_ok hrun2]
            rfl
          · unfold wireReqIds
            rw [decoder_bind_some hdec, decoder_bind_none hdec2]
      | whole reqId inbox2 hrun2 hdec2 hallocs2 =>
          refine .inr ⟨clientId, reqId, inbox2, ?_, ?_, hallocs2.trans hallocs⟩
          · rw [bind_ok hrun]
            show (recvInt64 req.reqId >>= _) inbox1 = _
            rw [bind_ok hrun2]
            rfl
          · unfold wireReqIds
            rw [decoder_bind_some hdec, decoder_bind_some hdec2]
            rfl

/-- A string cut off has no negative length. -/
theorem not_negativeOid {d d1 : List UInt8} {ids : Int32 × Int64}
    (hids : wireReqIds d = some (ids, d1))
    (hsize : ∀ size rest, int16Codec.decode d1 = some (size, rest) →
      0 ≤ size.toInt) : ¬NegativeOid d := by
  rintro ⟨ids', d1', size, d2, hids', hsize', hneg⟩
  rw [hids] at hids'
  cases hids'
  have := hsize size d2 hsize'
  omega

/-- `cceph_msg_write_obj_req_recv` on a request that has just been made. -/
theorem msgWriteObjReqRecv_outcome (req : MsgWriteObjReq) (hoid : req.oid = none)
    (hdata : req.data = none) (inbox : Inbox) : ReqOutcome req inbox := by
  rcases msgWriteObjReqRecv_ids req hoid hdata inbox with
    ⟨req', inbox1, hrun, hids⟩ | ⟨clientId, reqId, inbox1, hstep, hids, hallocs1⟩
  · refine .cut req' inbox1 hrun fun _ => ⟨not_beforeData_of_ids _ hids,
      not_beforeData_of_ids _ hids, ?_⟩
    rintro ⟨ids, d1, size, d2, hids', -⟩
    rw [hids] at hids'
    cases hids'
  unfold msgWriteObjReqRecvRest at hstep
  cases recvString_outcome req.oidSize req.oid inbox1 with
  | crash e hrun hwhy =>
      refine .crash e (hstep.trans (bind_error hrun)) ?_
      intro h
      obtain ⟨oidSize, rest, hsize, hneg⟩ := hwhy (hallocs1.trans h)
      exact ⟨_, _, _, _, hids, hsize, hneg⟩
  | cut oidSize oid inbox2 hrun hstring hpos =>
      refine .cut { req with
        clientId := clientId, reqId := reqId, oidSize := oidSize, oid := oid }
        inbox2 ?_ fun _ => ⟨not_beforeData_of_string _ hids hstring,
          not_beforeData_of_string _ hids hstring, not_negativeOid hids hpos⟩
      rw [hstep, bind_ok hrun]
      rfl
  | whole oidSize oid inbox2 hrun hstring hsize hplenty2 =>
      rw [bind_ok hrun] at hstep
      have hstep : msgWriteObjReqRecv req inbox
        = (recvInt64 req.offset >>= _) inbox2 := hstep
      have hpos : ¬NegativeOid inbox.delivered := by
        apply not_negativeOid hids
        intro size rest hdec
        obtain ⟨size', mid, hdec', hrest⟩ := decoder_bind_eq_some hstring
        rw [hdec] at hdec'
        cases hdec'
        obtain ⟨bytes, mid', -, hrest⟩ := decoder_bind_eq_some hrest
        cases hrest
        exact hsize
      cases recvInt64_received req.offset inbox2 with
      | cut offset inbox3 hrun3 hoffset =>
          refine .cut { req with
            clientId := clientId, reqId := reqId, oidSize := oidSize
            oid := some (.close oid), offset := offset } inbox3 ?_
            fun _ => ⟨not_beforeData_of_offset _ hids hstring hoffset,
              not_beforeData_of_offset _ hids hstring hoffset, hpos⟩
          rw [hstep, bind_ok hrun3]
          rfl
      | whole offset inbox3 hrun3 hoffset hallocs3 =>
          rw [bind_ok hrun3] at hstep
          have hstep : msgWriteObjReqRecv req inbox
            = (recvData req.length req.data >>= _) inbox3 := hstep
          have hiff := fun p => beforeData_iff p hids hstring hsize hoffset
          have hplenty : inbox.allocs = .plenty → inbox3.allocs = .plenty := by
            intro h
            rw [hallocs3, hplenty2 (hallocs1.trans h)]
          cases recvData_outcome req.length req.data inbox3 with
          | whole length bytes block inbox4 hrun4 hwire h0 h31 hblock =>
              refine .whole ⟨req.header, clientId, reqId, oidSize,
                some (.close oid), offset, length, block⟩ inbox4 ?_ rfl hsize
                ((hiff _).mpr (.inl ⟨length, bytes, _, hwire, h0, h31⟩)) ?_ ?_
              · rw [hstep, bind_ok hrun4]
                rfl
              · intro hneg
                have hneg : length.toInt < 0 := hneg
                omega
              · intro h _
                rw [hblock (hplenty h)]
                exact wireReq_of_steps req.header hids hstring hoffset hwire
          | void length inbox4 hrun4 hcode hlength =>
              obtain ⟨rest, hlength⟩ := hlength
              have hneg : length.toInt < 0 := by
                rw [hcode]
                decide
              refine .whole ⟨req.header, clientId, reqId, oidSize,
                some (.close oid), offset, length, none⟩ inbox4 ?_ rfl hsize
                ((hiff _).mpr (.inr ⟨length, rest, hlength, hcode⟩))
                (fun _ => (hiff _).mpr ⟨length, rest, hlength, hneg⟩) ?_
              · rw [hstep, bind_ok hrun4]
                rfl
              · intro _ h0
                have h0 : 0 ≤ length.toInt := h0
                omega
          | uncounted ret length block inbox4 hrun4 hneg hret hcount =>
              refine .uncounted ret ⟨req.header, clientId, reqId, oidSize,
                some (.close oid), offset, length, block⟩ inbox4 ?_ hneg hret
                ((hiff _).mpr hcount)
              rw [hstep, bind_ok hrun4]
              simp only [if_pos hneg]
              rfl
          | cut length block inbox4 hrun4 hwhy =>
              refine .cut ⟨req.header, clientId, reqId, oidSize,
                some (.close oid), offset, length, block⟩ inbox4 ?_ ?_
              · rw [hstep, bind_ok hrun4]
                rfl
              · intro h
                have hwhy := hwhy (hplenty h)
                exact ⟨fun hb => hwhy.1 ((hiff _).mp hb),
                  fun hb => hwhy.2 ((hiff _).mp hb), hpos⟩

end CephInC
