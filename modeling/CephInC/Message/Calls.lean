/-
The `send` calls a message makes, one after another.

Every sender of `message/io.c` is one `SendCall` or two: a `word` hands
over an integer and tells its caller a negative code or `errno`; a
`block` asks for `size` bytes, compares the result with the signed
`size`, and tells a negative code for every other result, after a LOG
line that has a name in it or none that matters. `messageCalls`
lists the calls of a message, and `runCalls` makes them until one tells
a negative code.

A call `Lands` if all it asks for is accepted and the result says so. It
`Slips` if less is accepted and its caller does not notice. A call that
does neither is told, if it `Survives`.
-/
import CephInC.Message.Messenger

namespace CephInC

open Lib

inductive SendCall where
  | word (bytes : List UInt8) (hfits : bytes.length < 2 ^ 31)
  | block (bytes : List UInt8) (size : Int) (line : Option (Int → LogLine))

namespace SendCall

def bytes : SendCall → List UInt8
  | word bytes _ => bytes
  | block bytes _ _ => bytes

/-- How many bytes the call asks for, as a `size_t`. -/
def size : SendCall → Nat
  | word bytes _ => bytes.length
  | block _ size _ => sizeT size

/-- The result of a `send` call in an `int`. -/
def intOfCount (count : Nat) : Int := (Int32.ofNat count).toInt

/-- All is accepted, and the result is the number the caller expects. -/
def Lands (call : SendCall) : SendOutcome → Prop
  | .failed _ => False
  | .accepted count _ => call.size ≤ count ∧ call.size ≤ call.bytes.length
    ∧ match call with
      | word _ _ => True
      | block _ size _ => intOfCount call.size = size

/-- Less is accepted, and the caller does not notice: a short count of an
integer whose `errno` is not negative, or a result that happens to be
the negative size. -/
def Slips (call : SendCall) : SendOutcome → Prop
  | .failed _ =>
      match call with
      | word _ _ => False
      | block _ size _ => size = -1
  | .accepted count errno => count < call.size ∧ count ≤ call.bytes.length
    ∧ match call with
      | word _ _ => 0 ≤ errno.toInt
      | block _ size _ => intOfCount count = size

/-- The code the caller of a block makes of a result and `errno`. -/
def errNo (ret : Int) (errno : Int32) : Int := if ret < 0 then ret else errno.toInt

/-- Nothing is read past the block, and what LOG says of a failure fits. -/
def Survives (call : SendCall) : SendOutcome → Prop
  | .failed errno =>
      match call with
      | word _ _ => True
      | block _ _ line => ∀ l ∈ line, (l (errNo (-1) errno)).Fits
  | .accepted count errno => min count call.size ≤ call.bytes.length
    ∧ match call with
      | word _ _ => True
      | block _ _ line =>
          ∀ l ∈ line, (l (errNo (intOfCount (min count call.size)) errno)).Fits

instance : ∀ (call : SendCall) (outcome : SendOutcome), Decidable (call.Survives outcome)
  | word _ _, .failed _ => .isTrue trivial
  | block _ _ line, .failed errno =>
      inferInstanceAs (Decidable (∀ l ∈ line, (l (errNo (-1) errno)).Fits))
  | word bytes _, .accepted count _ =>
      inferInstanceAs (Decidable (min count bytes.length ≤ bytes.length ∧ True))
  | block bytes size line, .accepted count errno =>
      inferInstanceAs (Decidable (min count (sizeT size) ≤ bytes.length
        ∧ ∀ l ∈ line, (l (errNo (intOfCount (min count (sizeT size))) errno)).Fits))

/-- All is accepted. -/
def Whole (call : SendCall) : SendOutcome → Prop
  | .failed _ => False
  | .accepted count _ => call.size ≤ count

/-- The outcome each call meets. -/
def meet : List SendCall → List SendOutcome → List (SendCall × SendOutcome)
  | [], _ => []
  | call :: calls, coming =>
      (call, coming.headD (.accepted call.size 0)) :: meet calls coming.tail

end SendCall

def runWord (bytes : List UInt8) : Prog Outbox Int := do
  let (ret, errno) ← sendRet bytes bytes.length
  if ret ≠ bytes.length then
    return (if ret < 0 then ret else errno.toInt)
  return 0

/-- The LOG line of a failure, if it has a name in it. -/
def sayFailed (line : Option (Int → LogLine)) (errNo : Int) : Except Fault Unit :=
  match line with
  | none => .ok ()
  | some line => log (line errNo)

def runBlock (bytes : List UInt8) (size : Int) (line : Option (Int → LogLine)) :
    Prog Outbox Int := do
  let (ret, errno) ← sendRet bytes (sizeT size)
  if ret ≠ size then
    let errNo := SendCall.errNo ret errno
    lift (sayFailed line errNo)
    return (if errNo < 0 then errNo else -1)
  return 0

def runCall : SendCall → Prog Outbox Int
  | .word bytes _ => runWord bytes
  | .block bytes size line => runBlock bytes size line

def runCalls : List SendCall → Prog Outbox Int
  | [] => pure 0
  | call :: calls => do
      let ret ← runCall call
      if ret < 0 then return ret
      runCalls calls

-- ======================================================== of a message

def int8Call (value : Int8) : SendCall := .block (int8Codec.bytes value) 1 none

def intCall {α : Type} (c : Codec α) (hc : c.size < 2 ^ 31) (value : α) : SendCall :=
  .word (c.bytes value) (by rw [c.bytes_length]; exact hc)

def int32Call : Int32 → SendCall := intCall int32Codec (by decide)
def int64Call : Int64 → SendCall := intCall int64Codec (by decide)

def stringCalls (logId : Int64) (string : CharBlock) : List SendCall :=
  let size := Int16.ofNat (strlen string.str)
  [.block (int16Codec.bytes size) 2 (some (sendStringLine logId 57 string.str)),
    .block string.bytes size.toInt (some (sendStringLine logId 63 string.str))]

def dataCalls (length : Int64) (data : List UInt8) : List SendCall :=
  [.block (int64Codec.bytes length) 8 none, .block data length.toInt none]

def headerCalls (header : MsgHeader) : List SendCall :=
  [int8Call header.op, int64Call header.logId]

/-- The calls of a message, its name and its data being there. -/
def messageCalls : Msg → List SendCall
  | .writeObjReq req =>
      headerCalls req.header
        ++ [int32Call req.clientId, int64Call req.reqId]
        ++ (req.oid.elim [] (stringCalls req.header.logId))
        ++ [int64Call req.offset]
        ++ (req.data.elim [] (dataCalls req.length))
  | .writeObjAck ack =>
      headerCalls ack.header
        ++ [int32Call ack.clientId, int64Call ack.reqId,
          int8Call ack.result]

/-- A write request with its name and its data, or an acknowledgement. -/
def Sendable : Msg → Prop
  | .writeObjReq req => req.header.op = CCEPH_MSG_OP_WRITE
      ∧ req.oid.isSome ∧ req.data.isSome
  | .writeObjAck ack => ack.header.op = CCEPH_MSG_OP_WRITE_ACK

/-- The calls `write_message` makes and what it returns when none of them
has told a negative code; none where a wrong type or NULL ends the
process. -/
def writeCalls (msg : Msg) : Option (List SendCall × Int) :=
  if msg.header.op = CCEPH_MSG_OP_WRITE then
    match msg with
    | .writeObjReq req =>
        if req.oid.isSome ∧ req.data.isSome then some (messageCalls msg, 0) else none
    | .writeObjAck _ => none
  else if msg.header.op = CCEPH_MSG_OP_WRITE_ACK then
    match msg with
    | .writeObjAck _ => some (messageCalls msg, 0)
    | .writeObjReq req =>
        some (messageCalls (.writeObjAck ⟨req.header, req.clientId, req.reqId,
          (req.oidSize.toUInt16.toUInt8).toInt8⟩), 0)
  else if msg.header.op = CCEPH_MSG_OP_READ ∨ msg.header.op = CCEPH_MSG_OP_READ_ACK then
    some (headerCalls msg.header, 0)
  else some (headerCalls msg.header, CCEPH_ERR_UNKNOWN_OP)

/-- The bytes that stand for a message; none if its name is longer than
an `int16_t` counts, its length negative, or its data shorter. -/
def msgEncoding : Msg → Option (List UInt8)
  | .writeObjReq req =>
      match req.oid, req.data with
      | some oid, some data =>
          if strlen oid.str < 2 ^ 15 ∧ 0 ≤ req.length.toInt
              ∧ req.length.toInt ≤ data.length then
            some (int8Codec.bytes req.header.op ++ int64Codec.bytes req.header.logId
              ++ int32Codec.bytes req.clientId ++ int64Codec.bytes req.reqId
              ++ int16Codec.bytes (Int16.ofNat (strlen oid.str)) ++ oid.str.bytes
              ++ int64Codec.bytes req.offset
              ++ int64Codec.bytes req.length ++ data.take req.length.toInt.toNat)
          else none
      | _, _ => none
  | .writeObjAck ack =>
      some (int8Codec.bytes ack.header.op ++ int64Codec.bytes ack.header.logId
        ++ int32Codec.bytes ack.clientId ++ int64Codec.bytes ack.reqId
        ++ int8Codec.bytes ack.result)

-- =============================================== what reporting would be

/-- `write_message` returns zero only if the socket has accepted every
byte of the encoding. -/
def WriteReports (msg : Msg) (out : Outbox) : Prop :=
  ∀ out', writeMessage msg out = .ok (0, out') →
    ∃ bs, msgEncoding msg = some bs ∧ out'.sent = out.sent ++ bs

/-- `p` is made: what came `before` was taken for success. -/
def Made (msg : Msg) (out : Outbox) (before : List (SendCall × SendOutcome))
    (p : SendCall × SendOutcome) : Prop :=
  before ++ [p] <+: SendCall.meet (messageCalls msg) out.coming
    ∧ ∀ q ∈ before, q.1.Lands q.2 ∨ q.1.Slips q.2

/-- A short or failed `send` of any field makes `cceph_messenger_send_msg`
mark the connection closed, close it and say so. -/
def SendReports (messenger : Messenger) (connId : Int64) (conn : Connection)
    (msg : Msg) (out : Outbox) : Prop :=
  ∀ before p, Made msg out before p → ¬p.1.Whole p.2 →
    ∃ messenger' out', messengerSendMsg messenger connId msg out
        = .ok ((CCEPH_ERR_WRITE_CONN_ERR, messenger'), out')
      ∧ { conn with state := CCEPH_CONN_STATE_CLOSED } ∈ messenger'.closed

/-- Not every call lands or slips; or else none slips and the message has
an encoding. The first that does neither survives, if it or one before it
was short or failed. -/
structure Noticed (msg : Msg) (out : Outbox) : Prop where
  slips : (∀ p ∈ SendCall.meet (messageCalls msg) out.coming,
      p.1.Lands p.2 ∨ p.1.Slips p.2) →
    (∀ p ∈ SendCall.meet (messageCalls msg) out.coming, ¬p.1.Slips p.2)
      ∧ (msgEncoding msg).isSome
  survives : ∀ before p, Made msg out before p → ¬(p.1.Lands p.2 ∨ p.1.Slips p.2) →
    (∃ q ∈ before ++ [p], ¬q.1.Whole q.2) → p.1.Survives p.2

end CephInC
