/-
Runs of one messenger: connections are added, events are handled,
messages are sent, connections are closed, in any order.

An action carries what its environment decides: the descriptor the
kernel hands out (one that no listed connection has), the results of
`epoll_ctl`, `recv` and `send`. An event is reported for an armed
descriptor only, and disarms it. A process that has gone down takes no
further step.
-/
import CephInC.Message.Messenger
import CephInC.Message.Wire
import CephInC.Lib.Run

namespace CephInC

open Lib

/-- Taking an event disarms its descriptor. -/
def disarm (messenger : Messenger) (fd : Int32) : Messenger :=
  { messenger with armed := messenger.armed.filter (· ≠ fd) }

def Handled.messenger : Handled → Messenger
  | .again _ messenger => messenger
  | .stop messenger => messenger

inductive MessengerAct where
  | addConn (host : CString) (port fd state : Int32) (ctl : Int)
  | event (event : EpollEvent) (ctl : Int) (inbox : Inbox)
  | sendMsg (connId : Int64) (msg : Msg) (out : Outbox)
  | closeConn (id : Int64)

def messengerStep (messenger : Messenger) : MessengerAct → Option Messenger
  | .addConn host port fd state ctl =>
      if fd ∈ messenger.connList.map Connection.fd then none
      else match messengerAddConn messenger host port fd state ctl with
        | .ok (_, messenger') => some messenger'
        | .error _ => none
  | .event event ctl inbox =>
      if event.fd ∈ messenger.armed then
        match startEpollEvent (disarm messenger event.fd) event ctl inbox with
        | .ok (handled, _) => some handled.messenger
        | .error _ => none
      else none
  | .sendMsg connId msg out =>
      match messengerSendMsg messenger connId msg out with
      | .ok ((_, messenger'), _) => some messenger'
      | .error _ => none
  | .closeConn id => some (messengerCloseConn messenger id).2

/-- A messenger from `cceph_messenger_new` on, once it is started. -/
def messengerSystem : System Messenger MessengerAct where
  init messenger := ∃ fd, messenger
    = { messengerNew fd with state := CCEPH_MESSENGER_STATE_NORMAL }
  step := messengerStep

/-- The first connection, on descriptor 5. -/
def firstConn : Connection := ⟨2, ⟨[104], by decide⟩, 9000, 5, 1⟩

/-- The messenger with that connection. -/
def firstMessenger : Messenger :=
  { messengerNew 3 with
    state := CCEPH_MESSENGER_STATE_NORMAL
    nextConnId := 2
    connList := [firstConn]
    armed := [5] }

/-- An acknowledgement, of the first request with success. -/
def firstAck : MsgWriteObjAck := ⟨⟨CCEPH_MSG_OP_WRITE_ACK, 7⟩, 0, 1, 1⟩

-- =============================================== what is asked of events

/-- The id of the connection is an `int`, as the search by id takes it. -/
def IdFits (conn : Connection) : Prop :=
  conn.id.toInt = (connIdToInt conn.id).toInt

/-- What has to hold of an event of the connection `conn` with the flags
`events`, of the bytes `d` the peer delivers, and of the result of
`epoll_ctl`: whatever closes the connection can find it, the stream is
not one the reader gives up, and the descriptor is armed again. -/
structure EventOk (conn : Connection) (events : UInt32) (ctl : Int)
    (d : List UInt8) : Prop where
  closes : isConnErr ⟨events, conn.fd⟩ = true ∨ ¬Taken d ∧ ¬Crashes d
    ∨ Taken d ∧ ctl < -1 → IdFits conn
  known : isConnErr ⟨events, conn.fd⟩ = false → ¬Rejected d
  rearmed : isConnErr ⟨events, conn.fd⟩ = false → Taken d → ctl = 0 ∨ ctl < -1

/-- The same of a step: the connections get ids that an `int` holds, and
`epoll_ctl` arms them. -/
def MessengerActOk (messenger : Messenger) : MessengerAct → Prop
  | .addConn _ _ _ _ ctl => ctl = 0 ∧ messenger.nextConnId.toInt + 1 < 2 ^ 31
  | .event event ctl inbox => ∀ conn ∈ messenger.connList, conn.fd = event.fd →
      conn.fd ≠ messenger.wakeThreadPipeFd →
      EventOk conn event.events ctl inbox.delivered
  | .sendMsg _ _ _ => True
  | .closeConn _ => True

/-- Connections differ in their ids and in their descriptors. -/
structure MessengerOk (messenger : Messenger) : Prop where
  ids : messenger.connList.Pairwise fun a b => a.id ≠ b.id
  fds : messenger.connList.Pairwise fun a b => a.fd ≠ b.fd

/-- A connection is armed, or it is no longer listed. -/
def Settled (conn : Connection) (messenger : Messenger) : Prop :=
  conn.fd ∈ messenger.armed ∨ conn ∉ messenger.connList

/-- An event of the connection leaves it settled, if its handling ends. -/
def EventSettles (messenger : Messenger) (conn : Connection) (events : UInt32)
    (ctl : Int) (inbox : Inbox) : Prop :=
  ∀ handled inbox', startEpollEvent (disarm messenger conn.fd)
      ⟨events, conn.fd⟩ ctl inbox = .ok (handled, inbox') →
    Settled conn handled.messenger

end CephInC
