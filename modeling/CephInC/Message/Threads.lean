/-
The threads of one process around one messenger, in any interleaving.

A thread is in a `Phase`: where it stands between two system calls or
two sections under a lock. Any number of threads handle events, accept
and connect, send, and close; one step moves one of them. What runs
under `conn_list_lock`, or under `conn->lock`, is one step.

The kernel keeps `sockets`: which socket an open descriptor stands for.
Sockets are numbered as they are made, and `connOf` remembers the id of
the connection `cceph_messenger_add_conn` made of each. A descriptor is
free for reuse as soon as it is closed. Bytes that a `recv` call returns
carry the number of the socket they came from.
-/
import CephInC.Message.Runs
import Mathlib.Logic.Function.Basic

namespace CephInC

open Lib

-- ================================================= sections under a lock

/-- The section of `cceph_messenger_close_conn` under `conn_list_lock`. -/
def messengerUnlinkConn (messenger : Messenger) (id : Int64) :
    Option (Connection × Messenger) :=
  (messengerGetConnById messenger (connIdToInt id)).map fun conn =>
    (conn, { messenger with
      connList := messenger.connList.eraseP
        fun conn => conn.id.toInt = (connIdToInt id).toInt })

/-- The rest of it: `close(conn->fd)`, and the record is freed. -/
def messengerShutConn (messenger : Messenger) (conn : Connection) : Messenger :=
  { messenger with
    armed := messenger.armed.filter (· ≠ conn.fd)
    closed := conn :: messenger.closed }

/-- `cceph_messenger_add_conn` up to the end of its section under
`conn_list_lock`. -/
def messengerListConn (messenger : Messenger) (host : CString) (port fd : Int32)
    (state : Int32) : Int64 × Messenger :=
  let id := messenger.nextConnId + 1
  (id, { messenger with
    nextConnId := id
    connList := ⟨id, host, port, fd, state⟩ :: messenger.connList })

/-- `cceph_messenger_send_msg` without the call of
`cceph_messenger_close_conn` at its end. `conn->lock`, taken before
`conn_list_lock` is dropped, keeps `close(conn->fd)` off. -/
def messengerTrySendMsg (messenger : Messenger) (connId : Int64) (msg : Msg) :
    Prog Outbox (Int × Messenger) := do
  assert (messenger.state = CCEPH_MESSENGER_STATE_NORMAL)
  match messengerGetConnById messenger (connIdToInt connId) with
  | none => return (CCEPH_ERR_CONN_NOT_FOUND, messenger)
  | some conn =>
      if conn.state = CCEPH_CONN_STATE_CLOSED then
        return (CCEPH_ERR_CONN_CLOSED, messenger)
      if (← writeMessage msg) ≠ 0 then
        return (CCEPH_ERR_WRITE_CONN_ERR,
          messengerSetState messenger (connIdToInt connId) CCEPH_CONN_STATE_CLOSED)
      return (0, messenger)

-- ============================================================== threads

/-- A message with the id `msg_process` is given for it, and its bytes,
each with the socket it came from. -/
structure Delivery where
  connId : Int64
  msg : Msg
  bytes : List (UInt8 × Nat)

/-- Where a thread stands. -/
inductive Phase where
  /-- Outside the messenger, or about to call `epoll_wait`. -/
  | free
  /-- `accept` or `connect` is done, the connection not yet added. -/
  | opened (host : CString) (port fd : Int32)
  /-- The connection is listed, `epoll_ctl(EPOLL_CTL_ADD)` comes next. -/
  | listed (fd : Int32) (connId : Int64)
  /-- `epoll_wait` has returned. -/
  | reported (event : EpollEvent)
  /-- In `cceph_messenger_read_msg`, with what `recv` has returned. -/
  | reading (fd : Int32) (connId : Int64) (got : List Arrival)
      (bytes : List (UInt8 × Nat))
  /-- About to read the wake-up pipe. -/
  | woken (fd : Int32)
  /-- A message is read, `wait_for_next_msg` comes next. -/
  | taken (fd : Int32) (delivery : Delivery)
  /-- In `cceph_messenger_close_conn`; then `next` is processed. -/
  | closing (connId : Int64) (next : Option Delivery)
  /-- The same, the connection out of the list and still open. -/
  | unlinked (conn : Connection) (next : Option Delivery)
  /-- About to call `msg_process`. -/
  | handing (delivery : Delivery)
  /-- Out of the loop of `start_epoll`. -/
  | stopped

structure Process where
  messenger : Messenger
  sockets : Int32 → Option Nat
  /-- The number of sockets so far. -/
  opened : Nat
  connOf : Nat → Option Int64
  threads : Nat → Phase
  /-- The calls of `msg_process`. -/
  processed : List Delivery

def Process.move (s : Process) (t : Nat) (phase : Phase) : Process :=
  { s with threads := Function.update s.threads t phase }

/-- Where `cceph_messenger_close_conn` returns to. -/
def Phase.resume : Option Delivery → Phase
  | none => .free
  | some delivery => .handing delivery

inductive ProcessAct where
  | openSocket (t : Nat) (host : CString) (port fd : Int32)
  | listConn (t : Nat) (state : Int32)
  | register (t : Nat) (ctl : Int)
  | wait (t : Nat) (event : EpollEvent)
  | lookup (t : Nat)
  | wake (t : Nat) (ctl : Int)
  | recv (t : Nat) (arrival : Arrival)
  | readMsg (t : Nat) (allocs : Allocs)
  | rearm (t : Nat) (ctl : Int)
  | msgProcess (t : Nat)
  | sendMsg (t : Nat) (connId : Int64) (msg : Msg) (out : Outbox)
  | closeConn (t : Nat) (connId : Int64)
  | unlink (t : Nat)
  | shut (t : Nat)

/-- One step of the thread `t`, which is in the phase `phase`. -/
def processStep (s : Process) : ProcessAct → Option Process
  | .openSocket t host port fd =>
      match s.threads t, s.sockets fd with
      | .free, none => some
          { s.move t (.opened host port fd) with
            sockets := Function.update s.sockets fd (some s.opened)
            opened := s.opened + 1 }
      | _, _ => none
  | .listConn t state =>
      match s.threads t with
      | .opened host port fd =>
          if s.messenger.state = CCEPH_MESSENGER_STATE_NORMAL then
            let (id, messenger) :=
              messengerListConn s.messenger host port fd state
            (s.sockets fd).map fun socket =>
              { s.move t (.listed fd id) with
                messenger := messenger
                connOf := Function.update s.connOf socket (some id) }
          else none
      | _ => none
  | .register t ctl =>
      match s.threads t with
      | .listed fd connId => some
          { s.move t (if ctl < -1 then .closing connId none else .free) with
            messenger := (waitForNextMsg s.messenger fd ctl).2 }
      | _ => none
  | .wait t event =>
      match s.threads t with
      | .free =>
          if event.fd ∈ s.messenger.armed then some
            { s.move t (.reported event) with messenger := disarm s.messenger event.fd }
          else none
      | _ => none
  | .lookup t =>
      match s.threads t with
      | .reported event =>
          match messengerGetConnByFd s.messenger event.fd with
          | none => some (s.move t .free)
          | some conn =>
              if isConnErr event then some (s.move t (.closing conn.id none))
              else if event.fd = s.messenger.wakeThreadPipeFd then
                some (s.move t (.woken event.fd))
              else some (s.move t (.reading event.fd conn.id [] []))
      | _ => none
  | .wake t ctl =>
      match s.threads t with
      | .woken fd =>
          match startEpollWake s.messenger fd ctl ⟨[], .plenty⟩ with
          | .ok (handled, _) =>
              match handled with
              | .stop messenger => some { s.move t .stopped with messenger := messenger }
              | .again _ _ => none
          | .error _ => none
      | _ => none
  | .recv t arrival =>
      match s.threads t with
      | .reading fd connId got bytes =>
          match arrival with
          | .bytes chunk => (s.sockets fd).map fun socket =>
              s.move t (.reading fd connId (got ++ [arrival])
                (bytes ++ chunk.bytes.map fun b => (b, socket)))
          | .failed _ => some (s.move t (.reading fd connId (got ++ [arrival]) bytes))
      | _ => none
  | .readMsg t allocs =>
      match s.threads t with
      | .reading fd connId got bytes =>
          match messengerReadMsg s.messenger connId ⟨got, allocs⟩ with
          | .ok ((some msg, messenger), ⟨[], _⟩) => some
              { s.move t (.taken fd ⟨connId, msg, bytes⟩) with messenger := messenger }
          | .ok ((none, messenger), ⟨[], _⟩) =>
              -- the close, if there is one, takes steps of its own
              if messenger = s.messenger then some (s.move t .free)
              else some (s.move t (.closing connId none))
          | _ => none
      | _ => none
  | .rearm t ctl =>
      match s.threads t with
      | .taken fd delivery => some
          { s.move t (if ctl < -1 then .closing delivery.connId (some delivery)
              else .handing delivery) with
            messenger := (waitForNextMsg s.messenger fd ctl).2 }
      | _ => none
  | .msgProcess t =>
      match s.threads t with
      | .handing delivery => some
          { s.move t .free with processed := delivery :: s.processed }
      | _ => none
  | .sendMsg t connId msg out =>
      match s.threads t with
      | .free =>
          match messengerTrySendMsg s.messenger connId msg out with
          | .ok ((ret, messenger), _) => some
              { s.move t (if ret = CCEPH_ERR_WRITE_CONN_ERR then .closing connId none
                  else .free) with
                messenger := messenger }
          | .error _ => none
      | _ => none
  | .closeConn t connId =>
      match s.threads t with
      | .free => some (s.move t (.closing connId none))
      | _ => none
  | .unlink t =>
      match s.threads t with
      | .closing connId next =>
          match messengerUnlinkConn s.messenger connId with
          | none => some (s.move t (.resume next))
          | some (conn, messenger) => some
              { s.move t (.unlinked conn next) with messenger := messenger }
      | _ => none
  | .shut t =>
      match s.threads t with
      | .unlinked conn next => some
          { s.move t (.resume next) with
            messenger := messengerShutConn s.messenger conn
            sockets := Function.update s.sockets conn.fd none }
      | _ => none

/-- `"wake_thread_pipe"`. -/
def wakeThreadPipeHost : CString :=
  ⟨[119, 97, 107, 101, 95, 116, 104, 114, 101, 97, 100, 95, 112, 105, 112, 101],
    by decide⟩

/-- `cceph_messenger_start` on a new messenger: thread 0 is about to add
the wake-up pipe, which is open. -/
def processStart (fd : Int32) : Process where
  messenger := { messengerNew fd with state := CCEPH_MESSENGER_STATE_NORMAL }
  sockets := Function.update (fun _ => none) fd (some 0)
  opened := 1
  connOf := fun _ => none
  threads := Function.update (fun _ => .free) 0 (.opened wakeThreadPipeHost 0 fd)
  processed := []

def processSystem : System Process ProcessAct where
  init s := ∃ fd, s = processStart fd
  step := processStep

-- ==================================================== what is at stake

/-- The bytes of the message, and there were some, came from the peer of
the connection whose id is told. -/
def Delivery.Right (connOf : Nat → Option Int64) (delivery : Delivery) : Prop :=
  delivery.bytes ≠ [] ∧ ∀ b ∈ delivery.bytes, connOf b.2 = some delivery.connId

/-- No descriptor is handed out anew while a thread reads from it that
looked it up before. -/
def ReuseOk (s : Process) : ProcessAct → Prop
  | .openSocket _ _ _ fd => ∀ t connId got bytes,
      s.threads t ≠ .reading fd connId got bytes
  | _ => True

-- ============================================================ invariant

/-- The descriptor a thread has to itself, the connection being not in the
list yet or no more. -/
def Phase.holds : Phase → Option Int32
  | .opened _ _ fd => some fd
  | .unlinked conn _ => some conn.fd
  | _ => none

/-- What is known of a thread. A reader's descriptor, as long as it is
open, stands for the connection the reader has looked up. -/
def PhaseOk (sockets : Int32 → Option Nat) (connOf : Nat → Option Int64) :
    Phase → Prop
  | .opened _ _ fd => ∃ k, sockets fd = some k ∧ connOf k = none
  | .reading fd connId got bytes =>
      (∀ b ∈ bytes, connOf b.2 = some connId)
        ∧ (∀ k, sockets fd = some k → connOf k = some connId)
        ∧ (bytes = [] → deliveredBytes got = [])
  | .taken _ delivery => delivery.Right connOf
  | .closing _ next => ∀ delivery ∈ next, delivery.Right connOf
  | .unlinked conn next => sockets conn.fd ≠ none
      ∧ ∀ delivery ∈ next, delivery.Right connOf
  | .handing delivery => delivery.Right connOf
  | _ => True

/-- The descriptors of the listed connections, with their ids. -/
def Messenger.keys (messenger : Messenger) : List (Int32 × Int64) :=
  messenger.connList.map fun conn => (conn.fd, conn.id)

/-- A descriptor has one holder: a listed connection, or a thread. -/
structure Exclusive (threads : Nat → Phase) (keys : List (Int32 × Int64)) : Prop where
  fds : keys.Pairwise fun a b => a.1 ≠ b.1
  apart : ∀ t fd, (threads t).holds = some fd → ∀ key ∈ keys, key.1 ≠ fd
  alone : ∀ t u fd, (threads t).holds = some fd → (threads u).holds = some fd → t = u

structure ProcessInv (s : Process) : Prop where
  phases : ∀ t, PhaseOk s.sockets s.connOf (s.threads t)
  processed : ∀ delivery ∈ s.processed, delivery.Right s.connOf
  conns : ∀ key ∈ s.messenger.keys,
    ∃ k, s.sockets key.1 = some k ∧ s.connOf k = some key.2
  holders : Exclusive s.threads s.messenger.keys
  sockets : ∀ fd fd' k, s.sockets fd = some k → s.sockets fd' = some k → fd = fd'
  made : ∀ fd k, s.sockets fd = some k → k < s.opened
  fresh : ∀ k, s.opened ≤ k → s.connOf k = none

end CephInC
