/-
`osd/osd.c`, and the part of `message/messenger.c` that joins an object
server to its messenger: `cceph_messenger_new` keeps a handler with its
context, and `start_epoll` hands both to each message.

A pointer is NULL or an address. What stands at an address is an argument
of its own, or part of the state a handler runs on.
-/
import CephInC.Message.Proofs.Send
import CephInC.Osd.OsdMsgProcess

namespace CephInC

/-- A pointer: none is NULL. -/
abbrev Ptr := Option Nat

-- ================================================= a messenger's handler

/-- `cceph_msg_handler`: the messenger, the connection, the message, the
context. -/
abbrev MsgHandler (σ : Type) := Ptr → Int64 → Option Msg → Ptr → Prog σ Int

/-- A `cceph_messenger` with its handler; it stands at `addr`. -/
structure HandlerMessenger (σ : Type) extends Messenger where
  addr : Nat
  msgProcess : MsgHandler σ
  context : Ptr
  threadCount : Int32

def sizeofMessenger : Nat := 200
def sizeofServerMessenger : Nat := 24
def sizeofOsd : Nat := 48

/-- What `pipe` and `epoll_create1` return, and the pipe's read end. -/
structure MessengerFds where
  pipe : Int32
  wakeThreadPipeFd : Int32
  epollFd : Int32

/-- `cceph_messenger_new`: the return code and `*msger`. -/
def handlerMessengerNew {σ : Type} (addr : Nat) (fds : MessengerFds)
    (msgHandler : MsgHandler σ) (context : Ptr) (workThreadCount : Int32) :
    Prog Allocs (Int × Option (HandlerMessenger σ)) := do
  if !(← malloc sizeofMessenger) then
    return (CCEPH_ERR_NO_ENOUGH_MEM, none)
  if !(← malloc (sizeT (8 * workThreadCount.toInt))) then
    return (CCEPH_ERR_NO_ENOUGH_MEM, none)
  if fds.pipe < 0 then
    return (fds.pipe.toInt, none)
  if fds.epollFd < 0 then
    -- `return messenger->epoll_fd`, behind `messenger = NULL`
    fault .nullDeref
  return (CCEPH_OK, some ⟨messengerNew fds.wakeThreadPipeFd, addr, msgHandler, context,
    workThreadCount⟩)

/-- `cceph_messenger_free`. -/
def handlerMessengerFree {σ : Type} (messenger : Option (HandlerMessenger σ)) :
    Prog Allocs Unit := do
  let messenger ← deref messenger
  assert (messenger.state = CCEPH_MESSENGER_STATE_DESTORY)

/-- The last line of the loop of `start_epoll`. -/
def startEpollProcess {σ : Type} (messenger : HandlerMessenger σ) (connId : Int64)
    (msg : Msg) : Prog σ Int :=
  messenger.msgProcess (some messenger.addr) connId (some msg) messenger.context

/-- The messages that one `start_epoll` after the other reads. -/
def startEpollProcessAll {σ : Type} (messenger : HandlerMessenger σ) :
    List (Int64 × Msg) → Prog σ Unit
  | [] => pure ()
  | (connId, msg) :: rest => do
      let _ ← startEpollProcess messenger connId msg
      startEpollProcessAll messenger rest

/-- `cceph_server_messenger`. -/
structure ServerMessenger where
  messenger : Nat
  port : Int32

/-- `cceph_server_messenger_new`. -/
def serverMessengerNew {σ : Type} (messenger : Option (HandlerMessenger σ))
    (port : Int32) : Prog Allocs (Int × Option ServerMessenger) := do
  assert (messenger.isSome)
  let messenger ← deref messenger
  assert (messenger.state = CCEPH_MESSENGER_STATE_UNKNOWN)
  if !(← malloc sizeofServerMessenger) then
    return (CCEPH_ERR_NO_ENOUGH_MEM, none)
  return (CCEPH_OK, some ⟨messenger.addr, port⟩)

-- =========================================================== the handler

/-- What the handler of an object server runs on: the messenger as it
stands, the socket of each connection, and what the coming system calls
of `io_write_object` and the coming `malloc` calls do. `calls` are the
calls of `cceph_messenger_send_msg`, oldest first. -/
structure OsdWorld where
  messenger : Messenger
  outbox : Int64 → Outbox
  ios : Nat → IoOutcome
  allocs : Allocs
  calls : List (Int64 × Msg)

/-- `cceph_messenger_send_msg` through a pointer. -/
def osdSendMsg (messenger : Ptr) (connId : Int64) (msg : Msg) : Prog OsdWorld Int := do
  let _ ← deref messenger
  fun s =>
    match messengerSendMsg s.messenger connId msg (s.outbox connId) with
    | .error e => .error e
    | .ok ((ret, messenger), out) => .ok (ret, { s with
        messenger := messenger
        outbox := Function.update s.outbox connId out
        calls := s.calls ++ [(connId, msg)] })

/-- What the next system calls of `io_write_object` do. -/
def nextIo : Prog OsdWorld IoOutcome := fun s =>
  .ok (s.ios 0, { s with ios := fun n => s.ios (n + 1) })

/-- `cceph_msg_write_obj_ack_new`, which clears the block unseen. -/
def osdAckNew : Prog OsdWorld Unit := fun s =>
  match malloc sizeofMsgWriteObjAck s.allocs with
  | .ok (true, allocs) => .ok ((), { s with allocs := allocs })
  | .ok (false, _) => .error .nullDeref
  | .error e => .error e

/-- `do_object_write_req`, the sending included. -/
def doObjectWriteReqAck (messenger : Ptr) (connId : Int64) (req : MsgWriteObjReq) :
    Prog OsdWorld Int := do
  let io ← nextIo
  let (_, ack) ← lift (doObjectWriteReq req io)
  osdAckNew
  osdSendMsg messenger connId (.writeObjAck ack)

/-- `cceph_osd_process_message`. -/
def osdProcessMessage : MsgHandler OsdWorld := fun messenger connId message context => do
  -- `message->log_id` comes first
  let msg ← deref message
  assert (messenger ≠ none)
  assert (message ≠ none)
  assert (context = none)
  if msg.header.op = CCEPH_MSG_OP_WRITE then
    match msg with
    | .writeObjReq req => doObjectWriteReqAck messenger connId req
    -- an acknowledgement read as the longer request
    | .writeObjAck _ => fault .outOfBounds
  else
    return CCEPH_ERR_UNKNOWN_OP

-- ====================================================== an object server

/-- `cceph_osd`. -/
structure Osd where
  osdId : Int32
  os : Ptr
  osFuncs : Ptr
  msger : HandlerMessenger OsdWorld
  smsger : ServerMessenger

/-- The options `cceph_osd_initial` reads. -/
structure OsdOption where
  osdMsgWorkthreadCount : Int32
  osdPortBase : Int32

/-- Where the allocator puts the records of an object server. -/
structure OsdBlocks where
  osd : Nat
  msger : Nat

/-- `cceph_osd_initial`, where `*osd` is `osd` on entry: the return code,
and the record if all went well. -/
def osdInitial (option : OsdOption) (blocks : OsdBlocks) (fds : MessengerFds)
    (osd : Ptr) (osdId : Int32) (os osFuncs : Ptr) : Prog Allocs (Int × Option Osd) := do
  assert (osd = none)
  assert (osdId ≥ 0)
  assert (os ≠ none)
  assert (osFuncs ≠ none)
  if !(← malloc sizeofOsd) then
    return (CCEPH_ERR_NO_ENOUGH_MEM, none)
  let (ret, msger) ← handlerMessengerNew blocks.msger fds osdProcessMessage
    (some blocks.osd) option.osdMsgWorkthreadCount
  if ret ≠ CCEPH_OK then
    return (ret, none)
  let (ret, smsger) ← serverMessengerNew msger (option.osdPortBase + osdId)
  if ret ≠ CCEPH_OK then
    -- on a messenger that has never been started
    handlerMessengerFree msger
    return (CCEPH_ERR_NO_ENOUGH_MEM, none)
  let msger ← deref msger
  let smsger ← deref smsger
  return (CCEPH_OK, some ⟨osdId, os, osFuncs, msger, smsger⟩)

end CephInC
