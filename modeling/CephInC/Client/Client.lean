/-
`client/client.c`: the list of requests a client waits for, and what an
acknowledgement does to it.

An entry points at its request, so it carries the address of the request
next to what stands there: the threads look for their entry by address,
an acknowledgement looks for the number of its request.
-/
import CephInC.Common.Errno
import CephInC.Message.Msg
import Mathlib.Data.List.Basic

namespace CephInC

def CCEPH_CLIENT_STATE_UNKNOWN : Int32 := 0
def CCEPH_CLIENT_STATE_NORMAL : Int32 := 1
def CCEPH_CLIENT_STATE_DESTORY : Int32 := 2

/-- `cceph_osd_entity`. -/
structure OsdEntity where
  host : CString
  port : Int32
  deriving DecidableEq

/-- `cceph_osdmap`: `osd_count` and the block `osds`. -/
structure Osdmap where
  osdCount : Int32
  osds : List OsdEntity
  hosds : osds.length = osdCount.toInt.toNat

/-- `cceph_client_wait_req`; `req` stands at `addr`. -/
structure WaitReq where
  addr : Nat
  req : Msg
  ackCount : Int32
  commitCount : Int32
  reqCount : Int32
  deriving DecidableEq

/-- `cceph_client`. -/
structure Client where
  osdmap : Osdmap
  clientId : Int32
  reqId : Int64
  state : Int32
  waitReqList : List WaitReq

/-- `cceph_client_new` and `cceph_client_init`. -/
def clientInit (osdmap : Osdmap) : Client :=
  ⟨osdmap, 0, 0, CCEPH_CLIENT_STATE_NORMAL, []⟩

/-- `((cceph_msg_write_obj_req*)req)->req_id`; both messages have it at the
same place. -/
def Msg.reqId : Msg → Int64
  | .writeObjReq req => req.reqId
  | .writeObjAck ack => ack.reqId

/-- `ack_count > req_count / 2`. -/
def WaitReq.enough (w : WaitReq) : Bool := w.ackCount > w.reqCount / 2

/-- The entry is a write request with this number. -/
def WaitReq.answers (reqId : Int64) (w : WaitReq) : Bool :=
  w.req.header.op = CCEPH_MSG_OP_WRITE ∧ w.req.reqId = reqId

/-- The loop of `do_object_write_ack` over what is left of the list:
`found` if `result` is set, `waitReq` the entry last looked at. What is
left of the list afterwards, and both variables. -/
def ackLoop (check : Bool) (reqId : Int64) :
    Bool → Option WaitReq → List WaitReq → List WaitReq × Bool × Option WaitReq
  | found, waitReq, [] => ([], found, waitReq)
  | found, _, w :: ws =>
      if w.req.header.op ≠ CCEPH_MSG_OP_WRITE then
        let (ws, found, waitReq) := ackLoop check reqId found (some w) ws
        (w :: ws, found, waitReq)
      else if w.req.reqId ≠ reqId then
        let (ws, found, waitReq) := ackLoop check reqId found (some w) ws
        (w :: ws, found, waitReq)
      else if found then
        let (ws, found, waitReq) := ackLoop check reqId found (some w) ws
        (w :: ws, found, waitReq)
      else
        let w := { w with ackCount := w.ackCount + 1 }
        if !check then (w :: ws, true, some w)
        else
          let (ws, found, waitReq) := ackLoop check reqId true (some w) ws
          (w :: ws, found, waitReq)

/-- `do_object_write_ack`, where `check` is
`client_debug_check_duplicate_req_when_ack`: the return code, the client,
and if `wait_req_cond` is signalled. -/
def doObjectWriteAck (check : Bool) (client : Client) (ack : MsgWriteObjAck) :
    Int × Client × Bool :=
  if ack.clientId ≠ client.clientId then (CCEPH_ERR_WRONG_CLIENT_ID, client, false)
  else
    let (waitReqList, found, waitReq) :=
      ackLoop check ack.reqId false none client.waitReqList
    (CCEPH_OK, { client with waitReqList := waitReqList },
      found && waitReq.any WaitReq.enough)

/-- `add_req_to_wait_list`. -/
def addReqToWaitList (client : Client) (addr : Nat) (req : Msg) (reqCount : Int32) :
    Client :=
  { client with waitReqList := ⟨addr, req, 0, 0, reqCount⟩ :: client.waitReqList }

/-- `remove_req_from_wait_list`, which logs `wait_req->req->op` even if the
loop never sets `wait_req`. -/
def removeReqFromWaitList (client : Client) (addr : Nat) : Except Fault Client :=
  if client.waitReqList = [] then .error .nullDeref
  else .ok { client with
    waitReqList := client.waitReqList.eraseP fun w => w.addr = addr }

/-- What `is_req_finished` looks for. -/
def WaitReq.finished (addr : Nat) (w : WaitReq) : Bool :=
  w.addr = addr ∧ (w.commitCount > 0 ∨ w.enough)

/-- `is_req_finished`. -/
def isReqFinished (client : Client) (addr : Nat) : Option WaitReq × Client :=
  match client.waitReqList.find? (WaitReq.finished addr) with
  | none => (none, client)
  | some w => (some w, { client with
      waitReqList := client.waitReqList.eraseP (WaitReq.finished addr) })

/-- The request `cceph_client_write_obj` makes of its arguments, and the
client after it has taken the next number. -/
def newWriteReq (client : Client) (logId : Int64) (oid : CharBlock)
    (offset length : Int64) (data : List UInt8) : MsgWriteObjReq × Client :=
  let reqId := client.reqId + 1
  (⟨⟨CCEPH_MSG_OP_WRITE, logId⟩, client.clientId, reqId, 0, some oid, offset,
    length, some data⟩, { client with reqId := reqId })

end CephInC
