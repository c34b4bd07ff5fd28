/-
`message/msg_header.c` and `message/msg_write_obj.c`: the header every
message starts with, the write request and its acknowledgement.

A `CCEPH_SEND_FIELD` or `CCEPH_RECV_FIELD` calls one primitive of
`message/io.c` and returns its code if that is negative; any other code
is dropped. A field that was cut short is left with the bytes that did
arrive, as the variable in memory is.
-/
import CephInC.Message.Io

namespace CephInC

open Lib

def CCEPH_MSG_OP_UNKNOWN : Int8 := 0
def CCEPH_MSG_OP_WRITE : Int8 := 1
def CCEPH_MSG_OP_WRITE_ACK : Int8 := 2
def CCEPH_MSG_OP_READ : Int8 := 3
def CCEPH_MSG_OP_READ_ACK : Int8 := 4

/-- `cceph_msg_header`. -/
structure MsgHeader where
  op : Int8
  logId : Int64
  deriving DecidableEq

/-- `cceph_msg_write_obj_req`. -/
structure MsgWriteObjReq where
  header : MsgHeader
  clientId : Int32
  reqId : Int64
  oidSize : Int16
  oid : Option CharBlock
  offset : Int64
  length : Int64
  data : Option (List UInt8)
  deriving DecidableEq

/-- `cceph_msg_write_obj_ack`. -/
structure MsgWriteObjAck where
  header : MsgHeader
  clientId : Int32
  reqId : Int64
  result : Int8
  deriving DecidableEq

def CCEPH_WRITE_OBJ_ACK_UNKNOWN : Int8 := 0
def CCEPH_WRITE_OBJ_ACK_OK : Int8 := 1

/-- What a `cceph_msg_header*` that is not NULL points at. -/
inductive Msg where
  | writeObjReq (req : MsgWriteObjReq)
  | writeObjAck (ack : MsgWriteObjAck)
  deriving DecidableEq

/-- The header at the start of the message. -/
def Msg.header : Msg → MsgHeader
  | .writeObjReq req => req.header
  | .writeObjAck ack => ack.header

def Msg.setHeader (header : MsgHeader) : Msg → Msg
  | .writeObjReq req => .writeObjReq { req with header := header }
  | .writeObjAck ack => .writeObjAck { ack with header := header }

def sizeofMsgWriteObjReq : Nat := 72
def sizeofMsgWriteObjAck : Nat := 40

-- ============================================================== header

/-- `cceph_msg_header_recv`. -/
def msgHeaderRecv (header : MsgHeader) : Prog Inbox (Int × MsgHeader) := do
  let (ret, op) ← recvInt8 header.op
  let header := { header with op := op }
  if ret < 0 then return (ret, header)
  let (ret, logId) ← recvInt64 header.logId
  let header := { header with logId := logId }
  if ret < 0 then return (ret, header)
  return (0, header)

/-- `cceph_msg_header_send`. -/
def msgHeaderSend (header : MsgHeader) : Prog Outbox Int := do
  let ret ← sendInt8 header.op
  if ret < 0 then return ret
  let ret ← sendInt64 header.logId
  if ret < 0 then return ret
  return 0

-- ======================================================= write request

/-- `cceph_msg_write_obj_req_new`: `malloc` and, without a look at its
result, `memset`. -/
def msgWriteObjReqNew : Prog Inbox MsgWriteObjReq := do
  if !(← recvMalloc sizeofMsgWriteObjReq) then fault .nullDeref
  else return ⟨⟨CCEPH_MSG_OP_WRITE, 0⟩, 0, 0, 0, none, 0, 0, none⟩

/-- `cceph_msg_write_obj_req_recv`. -/
def msgWriteObjReqRecv (req : MsgWriteObjReq) :
    Prog Inbox (Int × MsgWriteObjReq) := do
  assert (req.oid = none)
  assert (req.data = none)
  let (ret, clientId) ← recvInt32 req.clientId
  let req := { req with clientId := clientId }
  if ret < 0 then return (ret, req)
  let (ret, reqId) ← recvInt64 req.reqId
  let req := { req with reqId := reqId }
  if ret < 0 then return (ret, req)
  let (ret, oidSize, oid) ← recvString req.oidSize req.oid
  let req := { req with oidSize := oidSize, oid := oid }
  if ret < 0 then return (ret, req)
  let (ret, offset) ← recvInt64 req.offset
  let req := { req with offset := offset }
  if ret < 0 then return (ret, req)
  let (ret, length, data) ← recvData req.length req.data
  let req := { req with length := length, data := data }
  if ret < 0 then return (ret, req)
  return (ret, req)

/-- `cceph_msg_write_obj_req_send`. The log id its callers hand over is that
of the header. -/
def msgWriteObjReqSend (req : MsgWriteObjReq) : Prog Outbox Int :=
  match req.oid, req.data with
  | some oid, some data => do
      let ret ← sendInt32 req.clientId
      if ret < 0 then return ret
      let ret ← sendInt64 req.reqId
      if ret < 0 then return ret
      let ret ← sendString req.header.logId oid
      if ret < 0 then return ret
      let ret ← sendInt64 req.offset
      if ret < 0 then return ret
      let ret ← sendData req.length data
      if ret < 0 then return ret
      return 0
  -- `assert(log_id, req->oid != NULL)` and its twin for `data`
  | _, _ => fault .assertFail

-- ========================================================== write ack

/-- `cceph_msg_write_obj_ack_new`. -/
def msgWriteObjAckNew : Prog Inbox MsgWriteObjAck := do
  if !(← recvMalloc sizeofMsgWriteObjAck) then fault .nullDeref
  else return ⟨⟨CCEPH_MSG_OP_WRITE_ACK, 0⟩, 0, 0, 0⟩

/-- `cceph_msg_write_obj_ack_recv`. -/
def msgWriteObjAckRecv (msg : MsgWriteObjAck) :
    Prog Inbox (Int × MsgWriteObjAck) := do
  let (ret, clientId) ← recvInt32 msg.clientId
  let msg := { msg with clientId := clientId }
  if ret < 0 then return (ret, msg)
  let (ret, reqId) ← recvInt64 msg.reqId
  let msg := { msg with reqId := reqId }
  if ret < 0 then return (ret, msg)
  let (ret, result) ← recvInt8 msg.result
  let msg := { msg with result := result }
  if ret < 0 then return (ret, msg)
  return (0, msg)

/-- `cceph_msg_write_obj_ack_send`. -/
def msgWriteObjAckSend (msg : MsgWriteObjAck) : Prog Outbox Int := do
  let ret ← sendInt32 msg.clientId
  if ret < 0 then return ret
  let ret ← sendInt64 msg.reqId
  if ret < 0 then return ret
  let ret ← sendInt8 msg.result
  if ret < 0 then return ret
  return 0

end CephInC
