/-
`message/messenger.c` between its locks.

Any number of threads send, close, look up and add connections. One step
of a thread is one operation on `conn_list_lock` or on a `conn->lock`,
one access to a connection, or one `send` call; the operation that comes
next is the thread's `Point`. What is read is not kept where nothing
depends on it. Where the code reads several fields of one connection in
a row the thread stays at one point, and its reads fall anywhere in the
time it is there.

A connection is a number here, given when it is allocated and not given
again: a number stands for a pointer together with the life of what it
points to. `shut` holds the connections whose descriptor is closed,
`freed` the ones that are freed, and `sent` what the sockets accepted.

The pointers `next` of the list are read one by one, while the thread is
at the connection that holds them. The messenger stays started.
-/
import CephInC.Lib.Run
import CephInC.Lib.RwLock
import CephInC.Message.Calls
import Mathlib.Logic.Function.Basic

namespace CephInC

open Lib

-- ============================================================ the memory

/-- What the threads share. -/
structure Shared where
  conns : Nat → Connection
  /-- The number of connections so far. -/
  made : Nat
  nextConnId : Int64
  connList : List Nat
  connListLock : RwLock Nat
  connLock : Nat → Option Nat
  shut : List Nat
  freed : List Nat
  sent : Nat → List UInt8

namespace Shared

/-- `pthread_rwlock_unlock(&messenger->conn_list_lock)`. -/
def unlockList (s : Shared) (t : Nat) : Shared :=
  { s with connListLock := s.connListLock.unlock t }

/-- `pthread_rwlock_rdlock`, or `wrlock`. -/
def lockList (s : Shared) (t : Nat) (access : Access) : Option Shared :=
  (s.connListLock.take t access).map fun lock => { s with connListLock := lock }

/-- `pthread_mutex_lock(&conn->lock)`; none while another thread has it. -/
def lockConn (s : Shared) (t conn : Nat) : Option Shared :=
  match s.connLock conn with
  | none => some { s with connLock := Function.update s.connLock conn (some t) }
  | some _ => none

/-- `pthread_mutex_unlock(&conn->lock)`. -/
def unlockConn (s : Shared) (conn : Nat) : Shared :=
  { s with connLock := Function.update s.connLock conn none }

/-- `conn->state = CCEPH_CONN_STATE_CLOSED`. -/
def markClosed (s : Shared) (conn : Nat) : Shared :=
  let closed := { s.conns conn with state := CCEPH_CONN_STATE_CLOSED }
  { s with conns := Function.update s.conns conn closed }

end Shared

/-- What a round of `cceph_list_for_each` comes to. -/
inductive Round where
  | found (conn : Nat)
  | next (conn : Nat)
  | over

/-- `pos->next`, where `pos` is a connection of the list, or its head. -/
def Shared.nextConn (s : Shared) : Option Nat → Round
  | none => s.connList.head?.elim .over .next
  | some conn => (s.connList.dropWhile (· ≠ conn)).tail.head?.elim .over .next

/-- One round, `pos` being where it starts: is this the connection looked
for, and if not, which comes next? -/
def Shared.round (s : Shared) (wanted : Connection → Bool) (pos : Option Nat) : Round :=
  match pos with
  | none => s.nextConn none
  | some conn => if wanted (s.conns conn) then .found conn else s.nextConn pos

/-- What `cceph_messenger_get_conn_by_id` compares. -/
def hasId (id : Int64) (conn : Connection) : Bool :=
  conn.id.toInt = (connIdToInt id).toInt

/-- The two searches that only read: by descriptor, in `start_epoll`, and by
host and port, in `cceph_messenger_get_conn`. -/
inductive Wanted where
  | byFd (fd : Int32)
  | byHostAndPort (host : CString) (port : Int32)

def Wanted.is : Wanted → Connection → Bool
  | .byFd fd, conn => conn.fd = fd
  | .byHostAndPort host port, conn => conn.port = port ∧ strcmp conn.host host = 0

-- ============================================================ the points

/-- In `cceph_messenger_send_msg`. -/
inductive SendPoint where
  | rdlock
  | get (pos : Option Nat)
  | notFound
  | lock (conn : Nat)
  | unlist (conn : Nat)
  | state (conn : Nat)
  /-- Host, port, id and descriptor are logged. -/
  | log (conn : Nat)
  /-- `write_message` reads descriptor and id. -/
  | fd (conn : Nat)
  /-- The `send` calls left, and what `write_message` returns after them. -/
  | call (conn : Nat) (calls : List SendCall) (last : Int)
  | mark (conn : Nat)
  | unlock (conn : Nat) (ret : Int)

/-- In `cceph_messenger_close_conn`. -/
inductive ClosePoint where
  | wrlock
  | get (pos : Option Nat)
  | notFound
  | delete (conn : Nat)
  | unlist (conn : Nat)
  | log (conn : Nat)
  | lock (conn : Nat)
  | shut (conn : Nat)
  | host (conn : Nat)
  | unlock (conn : Nat)
  | destroy (conn : Nat)
  | free (conn : Nat)

/-- In a search that only reads. -/
inductive FindPoint where
  | rdlock
  | get (pos : Option Nat)
  | read (conn : Nat)
  | unlist

/-- In `cceph_messenger_add_conn`, the connection being filled in. -/
inductive AddPoint where
  | wrlock (conn : Nat)
  | list (conn : Nat)
  | unlist (conn : Nat)
  | register (conn : Nat)
  /-- `conn->id` is read, to be returned, or closed if `epoll_ctl` failed. -/
  | read (conn : Nat) (failed : Bool)

inductive Point where
  | free
  | send (id : Int64) (msg : Msg) (p : SendPoint)
  | close (id : Int64) (p : ClosePoint)
  | find (wanted : Wanted) (p : FindPoint)
  | add (p : AddPoint)

-- ============================================================= the steps

/-- `cceph_messenger_send_msg`; `outcome` is what a `send` call finds. -/
def sendStep (s : Shared) (t : Nat) (id : Int64) (msg : Msg) (outcome : SendOutcome) :
    SendPoint → Option (Point × Shared)
  | .rdlock => (s.lockList t .read).map fun s => (.send id msg (.get none), s)
  | .get pos =>
      match s.round (hasId id) pos with
      | .found conn => some (.send id msg (.lock conn), s)
      | .next conn => some (.send id msg (.get (some conn)), s)
      | .over => some (.send id msg .notFound, s)
  | .notFound => some (.free, s.unlockList t)
  | .lock conn => (s.lockConn t conn).map fun s => (.send id msg (.unlist conn), s)
  | .unlist conn => some (.send id msg (.state conn), s.unlockList t)
  | .state conn =>
      if (s.conns conn).state = CCEPH_CONN_STATE_CLOSED then
        some (.send id msg (.unlock conn CCEPH_ERR_CONN_CLOSED), s)
      else some (.send id msg (.log conn), s)
  | .log conn => some (.send id msg (.fd conn), s)
  | .fd conn =>
      (writeCalls msg).map fun calls => (.send id msg (.call conn calls.1 calls.2), s)
  | .call conn [] last =>
      if last = 0 then some (.send id msg (.unlock conn 0), s)
      else some (.send id msg (.mark conn), s)
  | .call conn (call :: calls) last =>
      match runCall call ⟨s.sent conn, [outcome]⟩ with
      | .ok (ret, out) =>
          let s := { s with sent := Function.update s.sent conn out.sent }
          if ret < 0 then some (.send id msg (.mark conn), s)
          else some (.send id msg (.call conn calls last), s)
      | .error _ => none
  | .mark conn =>
      some (.send id msg (.unlock conn CCEPH_ERR_WRITE_CONN_ERR), s.markClosed conn)
  | .unlock conn ret =>
      if ret = CCEPH_ERR_WRITE_CONN_ERR then some (.close id .wrlock, s.unlockConn conn)
      else some (.free, s.unlockConn conn)

/-- `cceph_messenger_close_conn`. -/
def closeStep (s : Shared) (t : Nat) (id : Int64) : ClosePoint → Option (Point × Shared)
  | .wrlock => (s.lockList t .write).map fun s => (.close id (.get none), s)
  | .get pos =>
      match s.round (hasId id) pos with
      | .found conn => some (.close id (.delete conn), s)
      | .next conn => some (.close id (.get (some conn)), s)
      | .over => some (.close id .notFound, s)
  | .notFound => some (.free, s.unlockList t)
  | .delete conn =>
      some (.close id (.unlist conn), { s with connList := s.connList.erase conn })
  | .unlist conn => some (.close id (.log conn), s.unlockList t)
  | .log conn => some (.close id (.lock conn), s)
  | .lock conn => (s.lockConn t conn).map fun s => (.close id (.shut conn), s)
  | .shut conn => some (.close id (.host conn), { s with shut := conn :: s.shut })
  | .host conn => some (.close id (.unlock conn), s)
  | .unlock conn => some (.close id (.destroy conn), s.unlockConn conn)
  | .destroy conn => some (.close id (.free conn), s)
  | .free conn => some (.free, { s with freed := conn :: s.freed })

/-- The search of `start_epoll`, or of `cceph_messenger_get_conn`. -/
def findStep (s : Shared) (t : Nat) (wanted : Wanted) :
    FindPoint → Option (Point × Shared)
  | .rdlock => (s.lockList t .read).map fun s => (.find wanted (.get none), s)
  | .get pos =>
      match s.round wanted.is pos with
      | .found conn => some (.find wanted (.read conn), s)
      | .next conn => some (.find wanted (.get (some conn)), s)
      | .over => some (.find wanted .unlist, s)
  | .read _ => some (.find wanted .unlist, s)
  | .unlist => some (.free, s.unlockList t)

/-- `cceph_messenger_add_conn`; `ctl` is what `epoll_ctl(EPOLL_CTL_ADD)`
returns. What is read of a connection that has been freed is not known,
and the model stops there. -/
def addStep (s : Shared) (t : Nat) (ctl : Int) : AddPoint → Option (Point × Shared)
  | .wrlock conn => (s.lockList t .write).map fun s => (.add (.list conn), s)
  | .list conn => some (.add (.unlist conn), { s with connList := conn :: s.connList })
  | .unlist conn => some (.add (.register conn), s.unlockList t)
  | .register conn => some (.add (.read conn (ctl < -1)), s)
  | .read conn failed =>
      if conn ∈ s.freed then none
      else if failed then some (.close (s.conns conn).id .wrlock, s)
      else some (.free, s)

def pointStep (s : Shared) (t : Nat) (outcome : SendOutcome) (ctl : Int) :
    Point → Option (Point × Shared)
  | .free => none
  | .send id msg p => sendStep s t id msg outcome p
  | .close id p => closeStep s t id p
  | .find wanted p => findStep s t wanted p
  | .add p => addStep s t ctl p

/-- What a thread can call. -/
inductive Call where
  | sendMsg (id : Int64) (msg : Msg)
  | closeConn (id : Int64)
  | find (wanted : Wanted)
  /-- `state` is what the allocator left in the field. -/
  | addConn (host : CString) (port fd : Int32) (state : Int32)

/-- The thread is in the function; a new connection is filled in. -/
def callPoint (s : Shared) : Call → Point × Shared
  | .sendMsg id msg => (.send id msg .rdlock, s)
  | .closeConn id => (.close id .wrlock, s)
  | .find wanted => (.find wanted .rdlock, s)
  | .addConn host port fd state =>
      (.add (.wrlock s.made), { s with
        conns := Function.update s.conns s.made ⟨s.nextConnId + 1, host, port, fd, state⟩
        made := s.made + 1
        nextConnId := s.nextConnId + 1 })

structure Sharing where
  shared : Shared
  points : Nat → Point

def Sharing.put (s : Sharing) (t : Nat) (r : Point × Shared) : Sharing :=
  ⟨r.2, Function.update s.points t r.1⟩

inductive LockAct where
  | call (t : Nat) (call : Call)
  | run (t : Nat) (outcome : SendOutcome) (ctl : Int)

def lockStep (s : Sharing) : LockAct → Option Sharing
  | .call t call =>
      match s.points t with
      | .free => some (s.put t (callPoint s.shared call))
      | _ => none
  | .run t outcome ctl => (pointStep s.shared t outcome ctl (s.points t)).map (s.put t)

/-- A messenger without connections, and no thread in it. The connections
to come are blank. -/
def sharingStart : Sharing where
  shared :=
    { conns := fun _ => ⟨0, ⟨[], noNul_nil⟩, 0, 0, CCEPH_CONN_STATE_UNKNOWN⟩
      made := 0
      nextConnId := 1
      connList := []
      connListLock := .free
      connLock := fun _ => none
      shut := []
      freed := []
      sent := fun _ => [] }
  points := fun _ => .free

def lockSystem : System Sharing LockAct where
  init s := s = sharingStart
  step := lockStep

-- ======================================================== what is touched

/-- The connection that the operation reads or writes, or whose lock it
takes, waits for or gives back. -/
def SendPoint.conn : SendPoint → Option Nat
  | .rdlock => none
  | .get pos => pos
  | .notFound => none
  | .lock conn => some conn
  | .unlist _ => none
  | .state conn => some conn
  | .log conn => some conn
  | .fd conn => some conn
  -- the descriptor is a variable of `write_message` by now
  | .call _ _ _ => none
  | .mark conn => some conn
  | .unlock conn _ => some conn

def ClosePoint.conn : ClosePoint → Option Nat
  | .wrlock => none
  | .get pos => pos
  | .notFound => none
  | .delete conn => some conn
  | .unlist _ => none
  | .log conn => some conn
  | .lock conn => some conn
  | .shut conn => some conn
  | .host conn => some conn
  | .unlock conn => some conn
  | .destroy conn => some conn
  | .free conn => some conn

def FindPoint.conn : FindPoint → Option Nat
  | .rdlock => none
  | .get pos => pos
  | .read conn => some conn
  | .unlist => none

def AddPoint.conn : AddPoint → Option Nat
  | .wrlock _ => none
  | .list conn => some conn
  | .unlist _ => none
  | .register _ => none
  | .read conn _ => some conn

namespace Point

def conn : Point → Option Nat
  | free => none
  | send _ _ p => p.conn
  | close _ p => p.conn
  | find _ p => p.conn
  | add p => p.conn

/-- The operation writes to the neighbours of its connection in the list. -/
def links : Point → Bool
  | close _ (.delete _) => true
  | add (.list _) => true
  | _ => false

/-- All that the operation touches; the whole list stands for the two
neighbours. -/
def touches (connList : List Nat) (p : Point) : List Nat :=
  p.conn.toList ++ if p.links then connList else []

end Point

end CephInC
