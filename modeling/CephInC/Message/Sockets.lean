/-
The sockets of all connections, of which `cceph_messenger_send_msg`
writes to one.

`messengerSendMsg` runs on the socket of the connection it finds. Which
socket that is among all of them is said here, in terms of the id that
the caller gives: no other connection may be written to, and none but
that one may be closed.
-/
import CephInC.Message.Messenger
import Mathlib.Logic.Function.Basic

namespace CephInC

/-- The sockets of a process, by descriptor. -/
abbrev Sockets := Int32 → Outbox

/-- A sender that is handed the descriptor `fd`. -/
def onSocket {α : Type} (fd : Int32) (x : Prog Outbox α) : Prog Sockets α := fun sockets =>
  match x (sockets fd) with
  | .ok (a, out) => .ok (a, Function.update sockets fd out)
  | .error e => .error e

/-- `cceph_messenger_send_msg`, where `write_message` sends on `conn->fd`. -/
def messengerSendMsgOn (messenger : Messenger) (connId : Int64) (msg : Msg) :
    Prog Sockets (Int × Messenger) := do
  assert (messenger.state = CCEPH_MESSENGER_STATE_NORMAL)
  match messengerGetConnById messenger (connIdToInt connId) with
  | none => return (CCEPH_ERR_CONN_NOT_FOUND, messenger)
  | some conn =>
      if conn.state = CCEPH_CONN_STATE_CLOSED then
        return (CCEPH_ERR_CONN_CLOSED, messenger)
      if (← onSocket conn.fd (writeMessage msg)) ≠ 0 then
        let messenger :=
          messengerSetState messenger (connIdToInt connId) CCEPH_CONN_STATE_CLOSED
        return (CCEPH_ERR_WRITE_CONN_ERR, (messengerCloseConn messenger connId).2)
      return (0, messenger)

-- ==================================================== what an id stands for

/-- The connections with this id. -/
def Listed (messenger : Messenger) (id : Int64) (conn : Connection) : Prop :=
  conn ∈ messenger.connList ∧ conn.id = id

/-- `cceph_messenger_close_conn` takes the connection with that id out, and
no other; if there is none it changes nothing. -/
def ClosesById (messenger : Messenger) (id : Int64) : Prop :=
  (∀ conn, Listed messenger id conn →
    (messengerCloseConn messenger id).1 = 0
      ∧ (messengerCloseConn messenger id).2.connList = messenger.connList.filter (·.id ≠ id)
      ∧ (messengerCloseConn messenger id).2.closed = conn :: messenger.closed)
  ∧ ((∀ conn, ¬Listed messenger id conn) →
    messengerCloseConn messenger id = (CCEPH_ERR_CONN_NOT_FOUND, messenger))

/-- `cceph_messenger_send_msg` writes to the connection with that id, if to
any. -/
def SendsById (messenger : Messenger) (id : Int64) : Prop :=
  ∀ msg sockets ret messenger' sockets',
    messengerSendMsgOn messenger id msg sockets = .ok ((ret, messenger'), sockets') →
    ∀ fd, sockets' fd ≠ sockets fd → ∃ conn, Listed messenger id conn ∧ conn.fd = fd

/-- The id is an `int`; or no connection has it, nor the one an `int` makes
of it. -/
def IdTold (messenger : Messenger) (id : Int64) : Prop :=
  id.toInt = (connIdToInt id).toInt
    ∨ ∀ conn ∈ messenger.connList, conn.id ≠ id ∧ conn.id.toInt ≠ (connIdToInt id).toInt

end CephInC
