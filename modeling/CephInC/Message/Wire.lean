/-
The wire format, on its own: what a byte stream says, without the code
that reads it.

`wireHeader`, `wireReq` and `wireAck` decode the bytes of a header and
of the two bodies. `OnWire x bs` says that the bytes `bs` spell the
message `x`, every field of it. What the decoders take from a stream was
spelled by the front of the stream (`wireReq_onWire`, `wireAck_onWire`),
and they take what is spelled there (`onWire_wireMsg`), so that no stream
opens with two messages.

The last section names the streams the reader has trouble with: an
operation that is known and not implemented, an operation that is not
known, a length that is negative, a length that no `int` counts.
-/
import CephInC.Message.Msg

namespace CephInC

open Lib

-- ========================================================== decoders

def wireHeader : Decoder MsgHeader := do
  let op ← int8Codec.decode
  let logId ← int64Codec.decode
  return ⟨op, logId⟩

/-- A string: its length, and as many characters. -/
def wireString : Decoder (Int16 × List UInt8) := do
  let size ← int16Codec.decode
  let bytes ← takeBytes (sizeT size.toInt)
  return (size, bytes)

/-- A block of data: its length, and as many bytes. -/
def wireData : Decoder (Int64 × List UInt8) := do
  let size ← int64Codec.decode
  let bytes ← takeBytes (sizeT size.toInt)
  return (size, bytes)

/-- The fields of a request before its string. -/
def wireReqIds : Decoder (Int32 × Int64) := do
  let clientId ← int32Codec.decode
  let reqId ← int64Codec.decode
  return (clientId, reqId)

def wireReq (header : MsgHeader) : Decoder MsgWriteObjReq := do
  let (clientId, reqId) ← wireReqIds
  let (oidSize, oid) ← wireString
  let offset ← int64Codec.decode
  let (length, data) ← wireData
  return ⟨header, clientId, reqId, oidSize, some (.close oid), offset, length,
    some data⟩

def wireAck (header : MsgHeader) : Decoder MsgWriteObjAck := do
  let clientId ← int32Codec.decode
  let reqId ← int64Codec.decode
  let result ← int8Codec.decode
  return ⟨header, clientId, reqId, result⟩

/-- A message: its header, and the body its operation names. -/
def wireMsg : Decoder Msg := do
  let header ← wireHeader
  if header.op = CCEPH_MSG_OP_WRITE then
    let req ← wireReq header
    return .writeObjReq req
  else
    let ack ← wireAck header
    return .writeObjAck ack

-- ======================================================= spelled bytes

def headerBytes (header : MsgHeader) : List UInt8 :=
  int8Codec.bytes header.op ++ int64Codec.bytes header.logId

/-- The bytes `bs` spell the message. -/
inductive OnWire : Msg → List UInt8 → Prop
  | writeObjReq (header : MsgHeader) (clientId : Int32) (reqId : Int64)
      (oidSize : Int16) (oid : List UInt8) (offset length : Int64)
      (data : List UInt8) (hop : header.op = CCEPH_MSG_OP_WRITE)
      (hoid : (oid.length : Int) = oidSize.toInt)
      (hdata : (data.length : Int) = length.toInt) :
      OnWire
        (.writeObjReq ⟨header, clientId, reqId, oidSize, some (.close oid),
          offset, length, some data⟩)
        (headerBytes header ++ int32Codec.bytes clientId ++ int64Codec.bytes reqId
          ++ int16Codec.bytes oidSize ++ oid ++ int64Codec.bytes offset
          ++ int64Codec.bytes length ++ data)
  | writeObjAck (header : MsgHeader) (clientId : Int32) (reqId : Int64)
      (result : Int8) (hop : header.op = CCEPH_MSG_OP_WRITE_ACK) :
      OnWire (.writeObjAck ⟨header, clientId, reqId, result⟩)
        (headerBytes header ++ int32Codec.bytes clientId ++ int64Codec.bytes reqId
          ++ int8Codec.bytes result)

theorem wireHeader_eq_some {d rest : List UInt8} {header : MsgHeader}
    (h : wireHeader d = some (header, rest)) : d = headerBytes header ++ rest := by
  obtain ⟨op, d1, hop, h⟩ := decoder_bind_eq_some h
  obtain ⟨logId, d2, hlog, h⟩ := decoder_bind_eq_some h
  cases h
  rw [(int8Codec.decode_eq_some).mp hop, (int64Codec.decode_eq_some).mp hlog,
    headerBytes, List.append_assoc]

theorem sizeT_eq {n : Int} {k : Nat} (h0 : 0 ≤ n) (h : n < 2 ^ 64)
    (hk : k = sizeT n) : (k : Int) = n := by
  rw [hk, sizeT_of_nonneg h0 h]
  omega

theorem wireString_eq_some {d rest bytes : List UInt8} {size : Int16}
    (h : wireString d = some ((size, bytes), rest)) :
    bytes.length = sizeT size.toInt
      ∧ d = int16Codec.bytes size ++ bytes ++ rest := by
  obtain ⟨size', d1, hsize, h⟩ := decoder_bind_eq_some h
  obtain ⟨bytes', d2, hbytes, h⟩ := decoder_bind_eq_some h
  cases h
  obtain ⟨hlen, rfl⟩ := takeBytes_eq_some.mp hbytes
  refine ⟨hlen, ?_⟩
  rw [(int16Codec.decode_eq_some).mp hsize, List.append_assoc]

theorem wireData_eq_some {d rest bytes : List UInt8} {size : Int64}
    (h : wireData d = some ((size, bytes), rest)) :
    bytes.length = sizeT size.toInt
      ∧ d = int64Codec.bytes size ++ bytes ++ rest := by
  obtain ⟨size', d1, hsize, h⟩ := decoder_bind_eq_some h
  obtain ⟨bytes', d2, hbytes, h⟩ := decoder_bind_eq_some h
  cases h
  obtain ⟨hlen, rfl⟩ := takeBytes_eq_some.mp hbytes
  refine ⟨hlen, ?_⟩
  rw [(int64Codec.decode_eq_some).mp hsize, List.append_assoc]

theorem int16_bounds (x : Int16) : -2 ^ 15 ≤ x.toInt ∧ x.toInt < 2 ^ 15 :=
  ⟨x.le_toInt, x.toInt_lt⟩

/-- A request the decoders take from a stream was spelled there. -/
theorem wireReq_onWire {d body rest : List UInt8} {header : MsgHeader}
    {req : MsgWriteObjReq} (hd : d = headerBytes header ++ body)
    (hop : header.op = CCEPH_MSG_OP_WRITE)
    (h : wireReq header body = some (req, rest)) (hoid : 0 ≤ req.oidSize.toInt)
    (hdata : 0 ≤ req.length.toInt) :
    ∃ bs, OnWire (.writeObjReq req) bs ∧ d = bs ++ rest := by
  obtain ⟨⟨clientId, reqId⟩, d1, hids, h⟩ := decoder_bind_eq_some h
  obtain ⟨clientId', d0, hclient, hids⟩ := decoder_bind_eq_some hids
  obtain ⟨reqId', d0', hreq, hids⟩ := decoder_bind_eq_some hids
  cases hids
  obtain ⟨⟨oidSize, oid⟩, d2, hstring, h⟩ := decoder_bind_eq_some h
  obtain ⟨offset, d3, hoffset, h⟩ := decoder_bind_eq_some h
  obtain ⟨⟨length, data⟩, d4, hdat, h⟩ := decoder_bind_eq_some h
  cases h
  have hsz := int16_bounds oidSize
  have hln := int64_bounds length
  obtain ⟨hoidLen, hd1⟩ := wireString_eq_some hstring
  obtain ⟨hdataLen, hd3⟩ := wireData_eq_some hdat
  have hoidEq : (oid.length : Int) = oidSize.toInt :=
    sizeT_eq hoid (by omega) hoidLen
  have hdataEq : (data.length : Int) = length.toInt :=
    sizeT_eq hdata (by omega) hdataLen
  refine ⟨_, .writeObjReq header clientId reqId oidSize oid offset length data
    hop hoidEq hdataEq, ?_⟩
  rw [hd, (int32Codec.decode_eq_some).mp hclient,
    (int64Codec.decode_eq_some).mp hreq, hd1,
    (int64Codec.decode_eq_some).mp hoffset, hd3]
  simp only [List.append_assoc]

/-- An acknowledgement the decoders take from a stream was spelled
there. -/
theorem wireAck_onWire {d body rest : List UInt8} {header : MsgHeader}
    {ack : MsgWriteObjAck} (hd : d = headerBytes header ++ body)
    (hop : header.op = CCEPH_MSG_OP_WRITE_ACK)
    (h : wireAck header body = some (ack, rest)) :
    ∃ bs, OnWire (.writeObjAck ack) bs ∧ d = bs ++ rest := by
  obtain ⟨clientId, d1, hclient, h⟩ := decoder_bind_eq_some h
  obtain ⟨reqId, d2, hreq, h⟩ := decoder_bind_eq_some h
  obtain ⟨result, d3, hresult, h⟩ := decoder_bind_eq_some h
  cases h
  refine ⟨_, .writeObjAck header clientId reqId result hop, ?_⟩
  rw [hd, (int32Codec.decode_eq_some).mp hclient,
    (int64Codec.decode_eq_some).mp hreq, (int8Codec.decode_eq_some).mp hresult]
  simp only [List.append_assoc]

-- ------------------------------------------ and what is spelled is taken

theorem wireHeader_bytes (header : MsgHeader) (rest : List UInt8) :
    wireHeader (headerBytes header ++ rest) = some (header, rest) := by
  unfold wireHeader headerBytes
  rw [List.append_assoc, decoder_bind_some (int8Codec.decode_eq_some.mpr rfl),
    decoder_bind_some (int64Codec.decode_eq_some.mpr rfl)]
  rfl

theorem wireReqIds_bytes (clientId : Int32) (reqId : Int64) (rest : List UInt8) :
    wireReqIds (int32Codec.bytes clientId ++ (int64Codec.bytes reqId ++ rest))
      = some ((clientId, reqId), rest) := by
  unfold wireReqIds
  rw [decoder_bind_some (int32Codec.decode_eq_some.mpr rfl),
    decoder_bind_some (int64Codec.decode_eq_some.mpr rfl)]
  rfl

theorem length_eq_sizeT {bytes : List UInt8} {n : Int} (hn : n < 2 ^ 64)
    (h : (bytes.length : Int) = n) : bytes.length = sizeT n := by
  rw [sizeT_of_nonneg (by omega) hn]
  omega

theorem wireString_bytes {oidSize : Int16} {oid : List UInt8}
    (hoid : (oid.length : Int) = oidSize.toInt) (rest : List UInt8) :
    wireString (int16Codec.bytes oidSize ++ (oid ++ rest))
      = some ((oidSize, oid), rest) := by
  have hbounds := int16_bounds oidSize
  unfold wireString
  rw [decoder_bind_some (int16Codec.decode_eq_some.mpr rfl),
    decoder_bind_some (takeBytes_eq_some.mpr ⟨length_eq_sizeT (by omega) hoid, rfl⟩)]
  rfl

theorem wireData_bytes {length : Int64} {data : List UInt8}
    (hdata : (data.length : Int) = length.toInt) (rest : List UInt8) :
    wireData (int64Codec.bytes length ++ (data ++ rest))
      = some ((length, data), rest) := by
  have hbounds := int64_bounds length
  unfold wireData
  rw [decoder_bind_some (int64Codec.decode_eq_some.mpr rfl),
    decoder_bind_some (takeBytes_eq_some.mpr ⟨length_eq_sizeT (by omega) hdata, rfl⟩)]
  rfl

theorem wireAck_bytes (header : MsgHeader) (clientId : Int32) (reqId : Int64)
    (result : Int8) (rest : List UInt8) :
    wireAck header (int32Codec.bytes clientId
        ++ (int64Codec.bytes reqId ++ (int8Codec.bytes result ++ rest)))
      = some (⟨header, clientId, reqId, result⟩, rest) := by
  unfold wireAck
  rw [decoder_bind_some (int32Codec.decode_eq_some.mpr rfl),
    decoder_bind_some (int64Codec.decode_eq_some.mpr rfl),
    decoder_bind_some (int8Codec.decode_eq_some.mpr rfl)]
  rfl

/-- The steps a request is decoded in. -/
theorem wireReq_of_steps (header : MsgHeader) {d d1 d2 d3 data rest : List UInt8}
    {clientId : Int32} {reqId offset length : Int64} {oidSize : Int16}
    {oid : List UInt8} (hids : wireReqIds d = some ((clientId, reqId), d1))
    (hstring : wireString d1 = some ((oidSize, oid), d2))
    (hoffset : int64Codec.decode d2 = some (offset, d3))
    (hdata : wireData d3 = some ((length, data), rest)) :
    wireReq header d = some (⟨header, clientId, reqId, oidSize, some (.close oid),
      offset, length, some data⟩, rest) := by
  unfold wireReq
  rw [decoder_bind_some hids]
  show (wireString >>= _) d1 = _
  rw [decoder_bind_some hstring]
  show (int64Codec.decode >>= _) d2 = _
  rw [decoder_bind_some hoffset, decoder_bind_some hdata]
  rfl

/-- A message is decoded from the bytes that spell it, whatever follows. -/
theorem onWire_wireMsg {msg : Msg} {bs : List UInt8} (h : OnWire msg bs)
    (rest : List UInt8) : wireMsg (bs ++ rest) = some (msg, rest) := by
  unfold wireMsg
  cases h with
  | writeObjReq header clientId reqId oidSize oid offset length data hop hoid hdata =>
      have hreq : wireReq header (int32Codec.bytes clientId ++ (int64Codec.bytes reqId
          ++ (int16Codec.bytes oidSize ++ (oid ++ (int64Codec.bytes offset
            ++ (int64Codec.bytes length ++ (data ++ rest)))))))
          = some (⟨header, clientId, reqId, oidSize, some (.close oid), offset, length,
            some data⟩, rest) :=
        wireReq_of_steps header (wireReqIds_bytes clientId reqId _) (wireString_bytes hoid _)
          (int64Codec.decode_eq_some.mpr rfl) (wireData_bytes hdata rest)
      simp only [List.append_assoc]
      rw [decoder_bind_some (wireHeader_bytes header _)]
      simp only [if_pos hop]
      rw [decoder_bind_some hreq]
      rfl
  | writeObjAck header clientId reqId result hop =>
      have hne : header.op ≠ CCEPH_MSG_OP_WRITE := by
        rw [hop]
        decide
      simp only [List.append_assoc]
      rw [decoder_bind_some (wireHeader_bytes header _)]
      simp only [if_neg hne]
      rw [decoder_bind_some (wireAck_bytes header clientId reqId result rest)]
      rfl

/-- A stream opens with one message at most. -/
theorem onWire_unique {x y : Msg} {bs bs' rest rest' : List UInt8} (hx : OnWire x bs)
    (hy : OnWire y bs') (h : bs ++ rest = bs' ++ rest') : x = y ∧ rest = rest' := by
  have hd := onWire_wireMsg hx rest
  rw [h, onWire_wireMsg hy rest'] at hd
  cases hd
  exact ⟨rfl, rfl⟩

-- ================================================== troublesome streams

/-- A size as an `int` counts it: its low 32 bits. -/
def intOfSize (size : Int64) : Int := (Int32.ofInt size.toInt).toInt

/-- The length of the object's name is there, and negative. -/
def NegativeOid (body : List UInt8) : Prop :=
  ∃ ids d1 size d2, wireReqIds body = some (ids, d1)
    ∧ int16Codec.decode d1 = some (size, d2) ∧ size.toInt < 0

/-- The request is there up to its data, and `p` holds of what follows. -/
def BeforeData (body : List UInt8) (p : List UInt8 → Prop) : Prop :=
  ∃ ids d1 oidSize oid d2 offset d3, wireReqIds body = some (ids, d1)
    ∧ wireString d1 = some ((oidSize, oid), d2) ∧ 0 ≤ oidSize.toInt
    ∧ int64Codec.decode d2 = some (offset, d3) ∧ p d3

/-- The length of the data is there, and negative. -/
def DataNegative (d : List UInt8) : Prop :=
  ∃ length rest, int64Codec.decode d = some (length, rest) ∧ length.toInt < 0

/-- All the data is there, and it is more than an `int` counts; and the
count that is left is not the code of a closed connection. -/
def DataUncounted (d : List UInt8) : Prop :=
  ∃ length bytes rest, wireData d = some ((length, bytes), rest)
    ∧ 2 ^ 31 ≤ length.toInt ∧ intOfSize length ≠ CCEPH_ERR_CONN_CLOSED

/-- All the data is there, and an `int` counts it. Or its length is the
very code of a closed connection, which the reader takes for success. -/
def DataTaken (d : List UInt8) : Prop :=
  (∃ length bytes rest, wireData d = some ((length, bytes), rest)
    ∧ 0 ≤ length.toInt ∧ length.toInt < 2 ^ 31)
  ∨ ∃ length rest, int64Codec.decode d = some (length, rest)
    ∧ length.toInt = CCEPH_ERR_CONN_CLOSED

/-- The stream opens with a header, and `p` holds of it and of what
follows. -/
def AfterHeader (d : List UInt8) (p : MsgHeader → List UInt8 → Prop) : Prop :=
  ∃ header body, wireHeader d = some (header, body) ∧ p header body

/-- The stream opens with the header of an operation that is named in the
protocol and not implemented. -/
def NotImplemented (d : List UInt8) : Prop :=
  AfterHeader d fun header _ =>
    header.op = CCEPH_MSG_OP_READ ∨ header.op = CCEPH_MSG_OP_READ_ACK

/-- The stream opens with a write request whose name or whose data has a
negative length. -/
def NegativeLength (d : List UInt8) : Prop :=
  AfterHeader d fun header body =>
    header.op = CCEPH_MSG_OP_WRITE ∧ (NegativeOid body ∨ BeforeData body DataNegative)

/-- The reader gives the message up and leaves the connection alone: the
operation is unknown, or a request has more data than an `int` counts. -/
def Rejected (d : List UInt8) : Prop :=
  AfterHeader d fun header body =>
    header.op ≠ CCEPH_MSG_OP_WRITE ∧ header.op ≠ CCEPH_MSG_OP_WRITE_ACK
      ∧ header.op ≠ CCEPH_MSG_OP_READ ∧ header.op ≠ CCEPH_MSG_OP_READ_ACK
    ∨ header.op = CCEPH_MSG_OP_WRITE ∧ BeforeData body DataUncounted

/-- A whole message is there, and the reader takes it. -/
def Taken (d : List UInt8) : Prop :=
  AfterHeader d fun header body =>
    header.op = CCEPH_MSG_OP_WRITE ∧ BeforeData body DataTaken
    ∨ header.op = CCEPH_MSG_OP_WRITE_ACK ∧ (wireAck header body).isSome

/-- The stream takes the reader down: the operation is not implemented,
or the length of the name is negative. -/
def Crashes (d : List UInt8) : Prop :=
  NotImplemented d
  ∨ AfterHeader d fun header body =>
      header.op = CCEPH_MSG_OP_WRITE ∧ NegativeOid body

-- ------------------------------------------- deciding them field by field

theorem afterHeader_iff {d body : List UInt8} {header : MsgHeader}
    (h : wireHeader d = some (header, body)) (p : MsgHeader → List UInt8 → Prop) :
    AfterHeader d p ↔ p header body := by
  constructor
  · rintro ⟨header', body', h', hp⟩
    rw [h] at h'
    cases h'
    exact hp
  · exact fun hp => ⟨header, body, h, hp⟩

theorem not_afterHeader {d : List UInt8} (h : wireHeader d = none)
    (p : MsgHeader → List UInt8 → Prop) : ¬AfterHeader d p := by
  rintro ⟨header, body, h', -⟩
  rw [h] at h'
  cases h'

section
variable {body d1 d2 d3 : List UInt8} {ids : Int32 × Int64} {offset : Int64}
  {oidSize : Int16} {oid : List UInt8} (p : List UInt8 → Prop)

theorem beforeData_iff (hids : wireReqIds body = some (ids, d1))
    (hstring : wireString d1 = some ((oidSize, oid), d2))
    (hsize : 0 ≤ oidSize.toInt)
    (hoffset : int64Codec.decode d2 = some (offset, d3)) :
    BeforeData body p ↔ p d3 := by
  constructor
  · rintro ⟨_, _, _, _, _, _, _, hids', hstring', -, hoffset', hp⟩
    rw [hids] at hids'
    cases hids'
    rw [hstring] at hstring'
    cases hstring'
    rw [hoffset] at hoffset'
    cases hoffset'
    exact hp
  · intro hp
    exact ⟨ids, d1, oidSize, oid, d2, offset, d3, hids, hstring, hsize, hoffset, hp⟩

theorem not_beforeData_of_ids (hids : wireReqIds body = none) :
    ¬BeforeData body p := by
  rintro ⟨_, _, _, _, _, _, _, hids', -⟩
  rw [hids] at hids'
  cases hids'

theorem not_beforeData_of_string (hids : wireReqIds body = some (ids, d1))
    (hstring : wireString d1 = none) : ¬BeforeData body p := by
  rintro ⟨_, _, _, _, _, _, _, hids', hstring', -⟩
  rw [hids] at hids'
  cases hids'
  rw [hstring] at hstring'
  cases hstring'

theorem not_beforeData_of_offset (hids : wireReqIds body = some (ids, d1))
    (hstring : wireString d1 = some ((oidSize, oid), d2))
    (hoffset : int64Codec.decode d2 = none) : ¬BeforeData body p := by
  rintro ⟨_, _, _, _, _, _, _, hids', hstring', -, hoffset', -⟩
  rw [hids] at hids'
  cases hids'
  rw [hstring] at hstring'
  cases hstring'
  rw [hoffset] at hoffset'
  cases hoffset'

/-- A name of negative length leaves nothing after it. -/
theorem not_beforeData_of_negativeOid (h : NegativeOid body) :
    ¬BeforeData body p := by
  rintro ⟨_, _, _, _, _, _, _, hids', hstring', hsize', -⟩
  obtain ⟨ids, d1, size, d2, hids, hsize, hneg⟩ := h
  rw [hids] at hids'
  cases hids'
  obtain ⟨size', mid, hsize'', hrest⟩ := decoder_bind_eq_some hstring'
  rw [hsize] at hsize''
  cases hsize''
  obtain ⟨bytes, mid', -, hrest⟩ := decoder_bind_eq_some hrest
  cases hrest
  omega

end

theorem wireData_length {d rest rest' bytes : List UInt8} {length length' : Int64}
    (hlength : int64Codec.decode d = some (length, rest))
    (h : wireData d = some ((length', bytes), rest')) : length' = length := by
  obtain ⟨length'', mid, hlength', hrest⟩ := decoder_bind_eq_some h
  rw [hlength] at hlength'
  cases hlength'
  obtain ⟨bytes', mid', -, hrest⟩ := decoder_bind_eq_some hrest
  cases hrest
  rfl

theorem beforeData_both {body : List UInt8} {p q : List UInt8 → Prop}
    (hp : BeforeData body p) (hq : BeforeData body q) : ∃ d, p d ∧ q d := by
  obtain ⟨ids, d1, oidSize, oid, d2, offset, d3, hids, hstring, hsize, hoffset, hp⟩ := hp
  exact ⟨d3, hp, (beforeData_iff q hids hstring hsize hoffset).mp hq⟩

theorem afterHeader_both {d : List UInt8} {p q : MsgHeader → List UInt8 → Prop}
    (hp : AfterHeader d p) (hq : AfterHeader d q) :
    ∃ header body, p header body ∧ q header body := by
  obtain ⟨header, body, hheader, hp⟩ := hp
  exact ⟨header, body, hp, (afterHeader_iff hheader q).mp hq⟩

/-- The data is taken or uncounted, not both. -/
theorem not_dataUncounted_of_taken {d : List UInt8} (h : DataTaken d) :
    ¬DataUncounted d := by
  rintro ⟨length, bytes, rest, hwire, h31, -⟩
  rcases h with ⟨length', bytes', rest', hwire', -, hlt⟩ | ⟨length', rest', hlength, hcode⟩
  · rw [hwire] at hwire'
    cases hwire'
    omega
  · rw [wireData_length hlength hwire, hcode] at h31
    exact absurd h31 (by decide)

/-- No two operations have one number. -/
theorem op_ne : CCEPH_MSG_OP_WRITE ≠ CCEPH_MSG_OP_WRITE_ACK
    ∧ CCEPH_MSG_OP_WRITE ≠ CCEPH_MSG_OP_READ
    ∧ CCEPH_MSG_OP_WRITE ≠ CCEPH_MSG_OP_READ_ACK
    ∧ CCEPH_MSG_OP_WRITE_ACK ≠ CCEPH_MSG_OP_READ
    ∧ CCEPH_MSG_OP_WRITE_ACK ≠ CCEPH_MSG_OP_READ_ACK := by
  decide

-- A stream is taken, rejected, or fatal: never two of these.

theorem not_rejected_of_taken {d : List UInt8} (h : Taken d) : ¬Rejected d := by
  intro hr
  obtain ⟨header, body, ht, hr⟩ := afterHeader_both h hr
  have hne := op_ne.1
  rcases ht with ⟨hop, hdata⟩ | ⟨hop, -⟩ <;> rcases hr with ⟨hw, ha, -⟩ | ⟨hop', hcount⟩
  · exact hw hop
  · obtain ⟨d3, htaken, hcount⟩ := beforeData_both hdata hcount
    exact not_dataUncounted_of_taken htaken hcount
  · exact ha hop
  · exact hne (hop'.symm.trans hop)

theorem not_taken_of_crashes {d : List UInt8} (h : Crashes d) : ¬Taken d := by
  intro ht
  obtain ⟨h12, h13, h14, h23, h24⟩ := op_ne
  rcases h with h | h
  · obtain ⟨header, body, hop, ht⟩ := afterHeader_both h ht
    rcases ht with ⟨hop', -⟩ | ⟨hop', -⟩ <;> rcases hop with hop | hop <;>
      rw [hop] at hop'
    · exact h13 hop'.symm
    · exact h14 hop'.symm
    · exact h23 hop'.symm
    · exact h24 hop'.symm
  · obtain ⟨header, body, ⟨hop, hneg⟩, ht⟩ := afterHeader_both h ht
    rcases ht with ⟨-, hdata⟩ | ⟨hop', -⟩
    · exact not_beforeData_of_negativeOid _ hneg hdata
    · exact h12 (hop.symm.trans hop')

theorem not_rejected_of_crashes {d : List UInt8} (h : Crashes d) : ¬Rejected d := by
  intro hr
  obtain ⟨h12, h13, h14, h23, h24⟩ := op_ne
  rcases h with h | h
  · obtain ⟨header, body, hop, hr⟩ := afterHeader_both h hr
    rcases hr with ⟨-, -, hread, hreadAck⟩ | ⟨hop', -⟩
    · rcases hop with hop | hop
      · exact hread hop
      · exact hreadAck hop
    · rcases hop with hop | hop <;> rw [hop] at hop'
      · exact h13 hop'.symm
      · exact h14 hop'.symm
  · obtain ⟨header, body, ⟨hop, hneg⟩, hr⟩ := afterHeader_both h hr
    rcases hr with ⟨hw, -⟩ | ⟨-, hdata⟩
    · exact hw hop
    · exact not_beforeData_of_negativeOid _ hneg hdata

end CephInC
