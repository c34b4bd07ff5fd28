/-
`message/messenger.c`: the list of connections, reading one message,
writing one, and what a worker does with one readiness event.

The functions run here one after another; a section under
`conn_list_lock` is atomic in any case. What the kernel keeps is part of
the state: `armed` holds the descriptors the epoll set will report (an
event disarms its descriptor, `EPOLLONESHOT`; closing a descriptor takes
it out). A record `cceph_messenger_close_conn` has unlinked, closed and
freed goes to `closed`, as it stood then. Outcomes of `epoll_ctl` are
arguments.
-/
import CephInC.Message.Msg
import Mathlib.Data.List.Basic

namespace CephInC

def CCEPH_CONN_STATE_UNKNOWN : Int32 := 0
def CCEPH_CONN_STATE_OPEN : Int32 := 1
def CCEPH_CONN_STATE_CLOSED : Int32 := 2

def CCEPH_MESSENGER_OP_STOP : Int8 := 1

def CCEPH_MESSENGER_STATE_UNKNOWN : Int8 := 0
def CCEPH_MESSENGER_STATE_NORMAL : Int8 := 1
def CCEPH_MESSENGER_STATE_DESTORY : Int8 := 2

/-- `cceph_connection`. -/
structure Connection where
  id : Int64
  host : CString
  port : Int32
  fd : Int32
  state : Int32
  deriving DecidableEq

/-- `cceph_messenger`. -/
structure Messenger where
  state : Int8
  nextConnId : Int64
  connList : List Connection
  /-- `wake_thread_pipe_fd[0]` and the bytes in the pipe. -/
  wakeThreadPipeFd : Int32
  wakeThreadPipe : List Int8
  armed : List Int32
  closed : List Connection
  deriving DecidableEq

/-- `cceph_messenger_new`, once memory, pipe and epoll set are there. -/
def messengerNew (wakeThreadPipeFd : Int32) : Messenger :=
  ⟨CCEPH_MESSENGER_STATE_UNKNOWN, 1, [], wakeThreadPipeFd, [], [], []⟩

-- ================================================= the connection list

/-- `cceph_messenger_get_conn_by_id`, whose parameter is an `int`. -/
def messengerGetConnById (messenger : Messenger) (id : Int32) :
    Option Connection :=
  messenger.connList.find? (fun conn => conn.id.toInt = id.toInt)

/-- `cceph_messenger_get_conn_by_fd`. -/
def messengerGetConnByFd (messenger : Messenger) (fd : Int32) :
    Option Connection :=
  messenger.connList.find? (fun conn => conn.fd = fd)

/-- `cceph_messenger_get_conn_by_host_and_port`. -/
def messengerGetConnByHostAndPort (messenger : Messenger) (host : CString)
    (port : Int32) : Option Connection :=
  messenger.connList.find? (fun conn => conn.port = port ∧ strcmp conn.host host = 0)

/-- A `cceph_conn_id_t` passed as an `int`. -/
def connIdToInt (id : Int64) : Int32 := Int32.ofInt id.toInt

/-- `cceph_messenger_close_conn`. -/
def messengerCloseConn (messenger : Messenger) (id : Int64) : Int × Messenger :=
  match messengerGetConnById messenger (connIdToInt id) with
  | none => (CCEPH_ERR_CONN_NOT_FOUND, messenger)
  | some conn =>
      (0, { messenger with
        connList := messenger.connList.eraseP
          (fun conn => conn.id.toInt = (connIdToInt id).toInt)
        armed := messenger.armed.filter (· ≠ conn.fd)
        closed := conn :: messenger.closed })

/-- `cceph_messenger_add_conn` on a record whose `state` the allocator
left as it was; `ctl` is what `epoll_ctl(EPOLL_CTL_ADD)` returns. The
block for the host is one byte short of its terminator; the model lets
the allocator's slack take it. -/
def messengerAddConn (messenger : Messenger) (host : CString) (port fd : Int32)
    (state : Int32) (ctl : Int) : Except Fault (Int64 × Messenger) :=
  if messenger.state ≠ CCEPH_MESSENGER_STATE_NORMAL then .error .assertFail
  else
    let id := messenger.nextConnId + 1
    let conn : Connection := ⟨id, host, port, fd, state⟩
    let messenger := { messenger with
      nextConnId := id
      connList := conn :: messenger.connList
      armed := if ctl = 0 then fd :: messenger.armed else messenger.armed }
    if ctl < -1 then .ok (-1, (messengerCloseConn messenger conn.id).2)
    else .ok (conn.id, messenger)

-- ====================================================== reading messages

/-- The `switch` of `cceph_messenger_read_msg`: `ret` and `message`. -/
def readMsgBody (op : Int8) : Prog Inbox (Int × Option Msg) := do
  if op = CCEPH_MSG_OP_WRITE then
    let msg ← msgWriteObjReqNew
    let (ret, msg) ← msgWriteObjReqRecv msg
    return (ret, if ret ≠ 0 then none else some (.writeObjReq msg))
  else if op = CCEPH_MSG_OP_WRITE_ACK then
    let msg ← msgWriteObjAckNew
    let (ret, msg) ← msgWriteObjAckRecv msg
    return (ret, if ret ≠ 0 then none else some (.writeObjAck msg))
  else if op = CCEPH_MSG_OP_READ then
    -- `assert(log_id, "Not Impl" != 0)`, which holds
    return (0, none)
  else if op = CCEPH_MSG_OP_READ_ACK then
    return (0, none)
  else
    return (CCEPH_ERR_UNKNOWN_OP, none)

/-- The part of `cceph_messenger_read_msg` after the header is in. -/
def readMsgRest (messenger : Messenger) (connId : Int64) (header : MsgHeader) :
    Prog Inbox (Option Msg × Messenger) := do
  let (ret, message) ← readMsgBody header.op
  if ret = CCEPH_ERR_CONN_CLOSED then
    return (none, (messengerCloseConn messenger connId).2)
  else if ret ≠ 0 then
    return (none, messenger)
  -- `message->op = header.op; message->log_id = header.log_id`
  let message ← deref message
  return (some (message.setHeader header), messenger)

/-- `cceph_messenger_read_msg`: the message, or none for NULL. -/
def messengerReadMsg (messenger : Messenger) (connId : Int64) :
    Prog Inbox (Option Msg × Messenger) := do
  let (ret, header) ← msgHeaderRecv ⟨CCEPH_MSG_OP_UNKNOWN, 0⟩
  if ret = CCEPH_ERR_CONN_CLOSED then
    return (none, (messengerCloseConn messenger connId).2)
  else if ret ≠ 0 then
    return (none, messenger)
  readMsgRest messenger connId header

-- ====================================================== writing messages

/-- `write_message`. -/
def writeMessage (msg : Msg) : Prog Outbox Int := do
  let ret ← msgHeaderSend msg.header
  if ret ≠ 0 then return ret
  let ret ←
    if msg.header.op = CCEPH_MSG_OP_WRITE then
      match msg with
      | .writeObjReq req => msgWriteObjReqSend req
      -- an acknowledgement read as the longer request
      | .writeObjAck _ => fault .outOfBounds
    else if msg.header.op = CCEPH_MSG_OP_WRITE_ACK then
      match msg with
      | .writeObjAck ack => msgWriteObjAckSend ack
      | .writeObjReq req =>
          msgWriteObjAckSend ⟨req.header, req.clientId, req.reqId,
            (req.oidSize.toUInt16.toUInt8).toInt8⟩
    else if msg.header.op = CCEPH_MSG_OP_READ then pure 0
    else if msg.header.op = CCEPH_MSG_OP_READ_ACK then pure 0
    else pure CCEPH_ERR_UNKNOWN_OP
  if ret ≠ 0 then return ret
  return 0

/-- `conn->state = state` through the pointer a search by id gave. -/
def messengerSetState (messenger : Messenger) (id : Int32) (state : Int32) :
    Messenger :=
  { messenger with
    connList := messenger.connList.replaceF fun conn =>
      if conn.id.toInt = id.toInt then some { conn with state := state }
      else none }

/-- `cceph_messenger_send_msg`. -/
def messengerSendMsg (messenger : Messenger) (connId : Int64) (msg : Msg) :
    Prog Outbox (Int × Messenger) := do
  assert (messenger.state = CCEPH_MESSENGER_STATE_NORMAL)
  match messengerGetConnById messenger (connIdToInt connId) with
  | none => return (CCEPH_ERR_CONN_NOT_FOUND, messenger)
  | some conn =>
      if conn.state = CCEPH_CONN_STATE_CLOSED then
        return (CCEPH_ERR_CONN_CLOSED, messenger)
      if (← writeMessage msg) ≠ 0 then
        let messenger :=
          messengerSetState messenger (connIdToInt connId) CCEPH_CONN_STATE_CLOSED
        return (CCEPH_ERR_WRITE_CONN_ERR, (messengerCloseConn messenger connId).2)
      return (0, messenger)

-- ============================================================== workers

def EPOLLIN : UInt32 := 0x1
def EPOLLERR : UInt32 := 0x8
def EPOLLHUP : UInt32 := 0x10

/-- `struct epoll_event`. -/
structure EpollEvent where
  events : UInt32
  fd : Int32
  deriving DecidableEq

/-- `is_conn_err`. -/
def isConnErr (event : EpollEvent) : Bool :=
  event.events &&& EPOLLERR ≠ 0 || event.events &&& EPOLLHUP ≠ 0
    || event.events &&& EPOLLIN = 0

/-- `wait_for_next_msg`, where `epoll_ctl(EPOLL_CTL_MOD)` returns `ctl`. -/
def waitForNextMsg (messenger : Messenger) (fd : Int32) (ctl : Int) :
    Int × Messenger :=
  (ctl, { messenger with
    armed := if ctl = 0 then fd :: messenger.armed else messenger.armed })

/-- What handling an event comes to. -/
inductive Handled where
  /-- Back to `epoll_wait`, with a message for `msg_process` or without. -/
  | again (msg : Option (Int64 × Msg)) (messenger : Messenger)
  /-- Out of the loop. -/
  | stop (messenger : Messenger)

/-- The branch of `start_epoll` for the wake-up pipe. -/
def startEpollWake (messenger : Messenger) (fd : Int32) (ctl : Int) :
    Prog Inbox Handled :=
  match messenger.wakeThreadPipe with
  | [] => fault .blocked
  | op :: rest => do
      assert (op = CCEPH_MESSENGER_OP_STOP)
      let (ret, messenger) :=
        waitForNextMsg { messenger with wakeThreadPipe := rest } fd ctl
      assert (ret = 0)
      return .stop messenger

/-- The body of the loop of `start_epoll` for one event. The kernel has
disarmed the descriptor of the event; `ctl` is what `epoll_ctl` returns
if it is armed again. -/
def startEpollEvent (messenger : Messenger) (event : EpollEvent) (ctl : Int) :
    Prog Inbox Handled := do
  let fd := event.fd
  match messengerGetConnByFd messenger fd with
  | none => return .again none messenger
  | some conn =>
      let connId := conn.id
      if isConnErr event then
        return .again none (messengerCloseConn messenger connId).2
      else if fd = messenger.wakeThreadPipeFd then
        startEpollWake messenger fd ctl
      else
        let (msg, messenger) ← messengerReadMsg messenger connId
        match msg with
        | none => return .again none messenger
        | some msg =>
            let (ret, messenger) := waitForNextMsg messenger fd ctl
            let messenger :=
              if ret < -1 then (messengerCloseConn messenger connId).2
              else messenger
            return .again (some (connId, msg)) messenger

end CephInC
