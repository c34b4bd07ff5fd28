/-
`cceph_messenger_get_conn` in any number of threads.

The function looks under the read lock for a connection to the address,
drops the lock, connects if there was none, and adds what it connected
under the write lock. Each of these is a step here: the section of the
lookup, `connect`, and of `cceph_messenger_add_conn` the counter, the
section of the list and the rest. No connection is closed meanwhile, so
what was ever added is what is listed.
-/
import CephInC.Lib.Run
import CephInC.Message.Messenger
import Mathlib.Logic.Function.Basic

namespace CephInC

open Lib

/-- The `conn_id` that `cceph_messenger_get_conn` has when it drops the
read lock. -/
def messengerFindConnId (messenger : Messenger) (host : CString) (port : Int32) : Int64 :=
  match messengerGetConnByHostAndPort messenger host port with
  | some conn => conn.id
  | none => -1

/-- Where a thread stands in `cceph_messenger_get_conn`. -/
inductive GetPhase where
  /-- Not in it. -/
  | free
  /-- The lookup found nothing, `connect` comes next. -/
  | missed (host : CString) (port : Int32)
  /-- `connect` is done, `cceph_messenger_add_conn` comes next. -/
  | connected (host : CString) (port fd : Int32)
  /-- The new connection has its id. -/
  | numbered (host : CString) (port fd : Int32) (id : Int64)
  /-- It is in the list. -/
  | listed (host : CString) (port fd : Int32) (id : Int64)

/-- What a call that succeeded was called with, and what it returned. -/
structure GetAnswer where
  host : CString
  port : Int32
  id : Int64

structure GetConns where
  messenger : Messenger
  threads : Nat → GetPhase
  answers : List GetAnswer

def GetConns.move (s : GetConns) (t : Nat) (phase : GetPhase) : GetConns :=
  { s with threads := Function.update s.threads t phase }

/-- `cceph_atomic_add64(&messenger->next_conn_id, 1)`. -/
def GetConns.number (s : GetConns) (t : Nat) (host : CString) (port fd : Int32) : GetConns :=
  let id := s.messenger.nextConnId + 1
  { s.move t (.numbered host port fd id) with
    messenger := { s.messenger with nextConnId := id } }

/-- The section of `cceph_messenger_add_conn` under `conn_list_lock`. -/
def GetConns.list (s : GetConns) (t : Nat) (host : CString) (port fd : Int32) (id : Int64)
    (state : Int32) : GetConns :=
  { s.move t (.listed host port fd id) with
    messenger := { s.messenger with
      connList := ⟨id, host, port, fd, state⟩ :: s.messenger.connList } }

inductive GetAct where
  | lookup (t : Nat) (host : CString) (port : Int32)
  | connect (t : Nat) (fd : Int32) (ret : Int)
  | takeId (t : Nat)
  | list (t : Nat) (state : Int32)
  | register (t : Nat) (ctl : Int)

/-- One step of the thread `t`. An assertion that fails ends the process,
and a `ctl` under -1 would close the connection. -/
def getConnStep (s : GetConns) : GetAct → Option GetConns
  | .lookup t host port =>
      match s.threads t with
      | .free =>
          if s.messenger.state = CCEPH_MESSENGER_STATE_NORMAL ∧ port > 0 then
            let connId := messengerFindConnId s.messenger host port
            if connId ≠ -1 then
              some { s with answers := ⟨host, port, connId⟩ :: s.answers }
            else some (s.move t (.missed host port))
          else none
      | _ => none
  | .connect t fd ret =>
      match s.threads t with
      | .missed host port =>
          if ret < 0 then some (s.move t .free)
          else some (s.move t (.connected host port fd))
      | _ => none
  | .takeId t =>
      match s.threads t with
      | .connected host port fd =>
          if s.messenger.state = CCEPH_MESSENGER_STATE_NORMAL then some (s.number t host port fd)
          else none
      | _ => none
  | .list t state =>
      match s.threads t with
      | .numbered host port fd id => some (s.list t host port fd id state)
      | _ => none
  | .register t ctl =>
      match s.threads t with
      | .listed host port fd id =>
          if ctl ≥ -1 ∧ id > 0 then some
            { s.move t .free with
              messenger := (waitForNextMsg s.messenger fd ctl).2
              answers := ⟨host, port, id⟩ :: s.answers }
          else none
      | _ => none

/-- A messenger that has been started, and nobody in the function. -/
structure GetConns.Start (s : GetConns) : Prop where
  normal : s.messenger.state = CCEPH_MESSENGER_STATE_NORMAL
  first : s.messenger.nextConnId = 1
  empty : s.messenger.connList = []
  outside : ∀ t, s.threads t = .free
  unanswered : s.answers = []

def getConnSystem : System GetConns GetAct where
  init := GetConns.Start
  step := getConnStep

-- ============================================================ the purpose

/-- The connections to an address. -/
def GetConns.connsTo (s : GetConns) (host : CString) (port : Int32) : List Connection :=
  s.messenger.connList.filter fun conn => conn.host = host ∧ conn.port = port

/-- One connection to the address is listed at most, and every call for
the address that succeeded returned its id. -/
structure OneStream (s : GetConns) (host : CString) (port : Int32) : Prop where
  single : (s.connsTo host port).length ≤ 1
  answered : ∀ answer ∈ s.answers, answer.host = host → answer.port = port →
    ∃ conn ∈ s.connsTo host port, answer.id = conn.id

/-- The address a thread has connected to and not yet listed. -/
def GetPhase.holds : GetPhase → Option (CString × Int32)
  | .connected host port _ | .numbered host port _ _ => some (host, port)
  | _ => none

/-- A `connect` succeeds only while no other thread has connected to the
address: no connection to it is listed, or about to be. -/
def ConnectsFirst (s : GetConns) : GetAct → Prop
  | .connect t _ ret => ∀ host port, s.threads t = .missed host port → ret ≥ 0 →
      s.connsTo host port = [] ∧ ∀ u, (s.threads u).holds ≠ some (host, port)
  | _ => True

end CephInC
