/-
Any number of workers on one connection.

An event of a descriptor disarms it (`EPOLLONESHOT`), and the worker
that got it arms it again when it has read a message: what lies between
is a section under a lock that the kernel keeps for each descriptor
(`oneShot`). The body of the loop of `start_epoll` is a task here; other
workers can come in between any two fields it reads. After the section
the worker has a message for `msg_process`, which it hands over when it
gets to it.

A worker that got no message, or whose `epoll_ctl` failed, leaves the
descriptor disarmed. Nobody but the workers closes the connection here.
-/
import CephInC.Lib.Returns
import CephInC.Message.Calls
import CephInC.Message.Runs

namespace CephInC

open Lib

/-- What a worker is left with after an event: a message to hand over, or
none; or the end of its loop. -/
inductive EventAnswer where
  | again (msg : Option (Int64 × Msg))
  | stop
  deriving DecidableEq

def Handled.answer : Handled → EventAnswer
  | .again msg _ => .again msg
  | .stop _ => .stop

/-- What comes with an event: its flags, and what `epoll_ctl` returns if
the descriptor is armed again. -/
structure EventCall where
  events : UInt32
  ctl : Int

-- ============================================================ one by one

/-- An event and what `start_epoll` makes of it; `epoll_wait` reports
none while the descriptor is disarmed. -/
def handleEvent (fd : Int32) (messenger : Messenger) (c : EventCall) :
    Prog Inbox (EventAnswer × Messenger) := do
  if fd ∈ messenger.armed then
    let handled ← startEpollEvent (disarm messenger fd) ⟨c.events, fd⟩ c.ctl
    return (handled.answer, handled.messenger)
  else
    fault .blocked

def handleEvents (fd : Int32) : List EventCall → Messenger →
    Prog Inbox (List EventAnswer × Messenger)
  | [], messenger => return ([], messenger)
  | c :: calls, messenger => do
      let (answer, messenger) ← handleEvent fd messenger c
      let (answers, messenger) ← handleEvents fd calls messenger
      return (answer :: answers, messenger)

-- =============================================================== as a task

/-- The registration of the descriptor in the epoll set. -/
def oneShot (fd : Int32) : Lock (Messenger × Inbox) Fault where
  free s := decide (fd ∈ s.1.armed)
  take s := if fd ∈ s.1.armed then .ok (disarm s.1 fd, s.2) else .error .blocked
  give s := .ok ((waitForNextMsg s.1 fd 0).2, s.2)
  take_free s h := by
    refine ⟨_, if_pos (of_decide_eq_true h), ?_⟩
    refine decide_eq_false fun hmem => ?_
    exact absurd rfl (of_decide_eq_true (List.mem_filter.mp hmem).2)
  give_held s _ := ⟨_, rfl, decide_eq_true List.mem_cons_self⟩

abbrev EventTask := Task (Messenger × Inbox) Fault

/-- A section under `conn_list_lock` that reads. -/
def messengerLook {α : Type} (f : Messenger → α) : EventTask α :=
  Task.look fun s => .ok (f s.1, s)

/-- `cceph_messenger_close_conn`. -/
def closeConnTask (connId : Int64) : EventTask Unit :=
  Task.look fun s => .ok ((), (messengerCloseConn s.1 connId).2, s.2)

def msgHeaderRecvTask (header : MsgHeader) : EventTask (Int × MsgHeader) := do
  let (ret, op) ← Task.own (recvInt8 header.op)
  let header := { header with op := op }
  if ret < 0 then
    return (ret, header)
  else
  let (ret, logId) ← Task.own (recvInt64 header.logId)
  let header := { header with logId := logId }
  if ret < 0 then
    return (ret, header)
  else
  return (0, header)

def msgWriteObjReqRecvTask (req : MsgWriteObjReq) : EventTask (Int × MsgWriteObjReq) := do
  Task.own (assert (req.oid = none))
  Task.own (assert (req.data = none))
  let (ret, clientId) ← Task.own (recvInt32 req.clientId)
  let req := { req with clientId := clientId }
  if ret < 0 then
    return (ret, req)
  else
  let (ret, reqId) ← Task.own (recvInt64 req.reqId)
  let req := { req with reqId := reqId }
  if ret < 0 then
    return (ret, req)
  else
  let (ret, oidSize, oid) ← Task.own (recvString req.oidSize req.oid)
  let req := { req with oidSize := oidSize, oid := oid }
  if ret < 0 then
    return (ret, req)
  else
  let (ret, offset) ← Task.own (recvInt64 req.offset)
  let req := { req with offset := offset }
  if ret < 0 then
    return (ret, req)
  else
  let (ret, length, data) ← Task.own (recvData req.length req.data)
  let req := { req with length := length, data := data }
  if ret < 0 then
    return (ret, req)
  else
  return (ret, req)

def msgWriteObjAckRecvTask (msg : MsgWriteObjAck) : EventTask (Int × MsgWriteObjAck) := do
  let (ret, clientId) ← Task.own (recvInt32 msg.clientId)
  let msg := { msg with clientId := clientId }
  if ret < 0 then
    return (ret, msg)
  else
  let (ret, reqId) ← Task.own (recvInt64 msg.reqId)
  let msg := { msg with reqId := reqId }
  if ret < 0 then
    return (ret, msg)
  else
  let (ret, result) ← Task.own (recvInt8 msg.result)
  let msg := { msg with result := result }
  if ret < 0 then
    return (ret, msg)
  else
  return (0, msg)

def readMsgBodyTask (op : Int8) : EventTask (Int × Option Msg) := do
  if op = CCEPH_MSG_OP_WRITE then
    let msg ← Task.own msgWriteObjReqNew
    let (ret, msg) ← msgWriteObjReqRecvTask msg
    return (ret, if ret ≠ 0 then none else some (.writeObjReq msg))
  else if op = CCEPH_MSG_OP_WRITE_ACK then
    let msg ← Task.own msgWriteObjAckNew
    let (ret, msg) ← msgWriteObjAckRecvTask msg
    return (ret, if ret ≠ 0 then none else some (.writeObjAck msg))
  else if op = CCEPH_MSG_OP_READ then
    return (0, none)
  else if op = CCEPH_MSG_OP_READ_ACK then
    return (0, none)
  else
    return (CCEPH_ERR_UNKNOWN_OP, none)

/-- `cceph_messenger_read_msg`. -/
def readMsgTask (connId : Int64) : EventTask (Option Msg) := do
  let (ret, header) ← msgHeaderRecvTask ⟨CCEPH_MSG_OP_UNKNOWN, 0⟩
  if ret = CCEPH_ERR_CONN_CLOSED then
    closeConnTask connId
    return none
  else if ret ≠ 0 then
    return none
  else
  let (ret, message) ← readMsgBodyTask header.op
  if ret = CCEPH_ERR_CONN_CLOSED then
    closeConnTask connId
    return none
  else if ret ≠ 0 then
    return none
  else
  let message ← Task.own (deref message)
  return some (message.setHeader header)

/-- `read` on the wake-up pipe. -/
def readWakeTask : EventTask Int8 :=
  Task.look fun s =>
    match s.1.wakeThreadPipe with
    | [] => .error .blocked
    | op :: rest => .ok (op, { s.1 with wakeThreadPipe := rest }, s.2)

/-- The branch of `start_epoll` for the wake-up pipe. -/
def wakeTask (ctl : Int) : EventTask EventAnswer := do
  let op ← readWakeTask
  Task.check (op = CCEPH_MESSENGER_OP_STOP) .assertFail
  Task.check (ctl = 0) .assertFail
  Task.give
  return .stop

/-- `wait_for_next_msg`, and what `start_epoll` makes of its result. -/
def rearmTask (ctl : Int) (connId : Int64) (msg : Msg) : EventTask EventAnswer := do
  if ctl = 0 then
    Task.give
    return .again (some (connId, msg))
  else if ctl < -1 then
    closeConnTask connId
    return .again (some (connId, msg))
  else
    return .again (some (connId, msg))

/-- The body of the loop of `start_epoll` under the event. -/
def sectionOfEvent (fd : Int32) (c : EventCall) : EventTask EventAnswer := do
  match (← messengerLook fun messenger => messengerGetConnByFd messenger fd) with
  | none => return .again none
  | some conn =>
      if isConnErr ⟨c.events, fd⟩ then
        closeConnTask conn.id
        return .again none
      else if fd = (← messengerLook Messenger.wakeThreadPipeFd) then
        wakeTask c.ctl
      else
        match (← readMsgTask conn.id) with
        | none => return .again none
        | some msg => rearmTask c.ctl conn.id msg

def eventTask (fd : Int32) (c : EventCall) : EventTask EventAnswer := do
  Task.take
  sectionOfEvent fd c

-- ============================================================ the workers

/-- The workers of a messenger, on one descriptor. -/
def workers {τ : Type} [DecidableEq τ] (fd : Int32) (messenger : Messenger) (inbox : Inbox) :
    System (Threads τ EventCall EventAnswer (Messenger × Inbox) Fault) (ThreadAct τ EventCall) :=
  threads (oneShot fd) (eventTask fd) (messenger, inbox)

/-- What a worker has for `msg_process`, and from which connection. -/
def EventAnswer.msg : EventAnswer → Option (Int64 × Msg)
  | .again msg => msg
  | .stop => none

def handing {τ : Type} (a : τ × EventAnswer) : Option (τ × Int64 × Msg) :=
  a.2.msg.map fun msg => (a.1, msg)

/-- What was handed to `msg_process`, in that order, and who did it. -/
def handedOver {τ : Type} (history : List (CallEvent τ EventCall EventAnswer)) :
    List (τ × Int64 × Msg) :=
  (history.filterMap CallEvent.returned).filterMap handing

-- ============================================================== the stream

/-- The descriptor is that of the connection, and not the wake-up pipe. -/
structure Listens (messenger : Messenger) (fd : Int32) (conn : Connection) : Prop where
  found : messengerGetConnByFd messenger fd = some conn
  data : fd ≠ messenger.wakeThreadPipeFd

/-- What `write_message` puts on the socket for these messages. -/
def bytesOf (msgs : List Msg) : List UInt8 :=
  msgs.flatMap fun msg => (msgEncoding msg).getD []

/-- Each message of the peer is read by one worker and handed over by it
once. `read` is who read which, in the order in which they were sent;
`held` is what is read and not yet handed over. -/
structure HandedOnce {τ : Type} [DecidableEq τ] (conn : Connection) (got : List Msg)
    (history : List (CallEvent τ EventCall EventAnswer)) (read held : List (τ × Int64 × Msg)) :
    Prop where
  inOrder : read.map Prod.snd <+: got.map fun msg => (conn.id, msg)
  once : (handedOver history ++ held).Perm read
  /-- A worker holds one message at most, and is still in its event. -/
  one : (held.map Prod.fst).Nodup
  holds : ∀ p ∈ held, ∃ i c, Pending history p.1 i c
  /-- Each worker keeps the order. -/
  each : ∀ t, ((handedOver history).filter fun p => p.1 = t) <+: read.filter fun p => p.1 = t

end CephInC
