/-
The calls of `write_message` that failed, beside the threads.

`cceph_messenger_send_msg` answers `CCEPH_ERR_CONN_CLOSED` where it finds
a connection marked closed. The mark is to stand for a write that failed,
so a run is watched for these: a thread whose `write_message` has
returned an error is about to set the mark.
-/
import CephInC.Message.Locks

namespace CephInC

open Lib

/-- The connection on which `write_message` has just failed. -/
def Point.writeFailed : Point → Option Nat
  | .send _ _ (.mark conn) => some conn
  | _ => none

/-- The connection for which `cceph_messenger_send_msg` is about to return
`CCEPH_ERR_CONN_CLOSED`, once it has given back its lock. -/
def Point.refused : Point → Option Nat
  | .send _ _ (.unlock conn ret) => if ret = CCEPH_ERR_CONN_CLOSED then some conn else none
  | _ => none

structure Watched where
  sharing : Sharing
  /-- The connections on which a `write_message` has failed. -/
  failed : List Nat

/-- A step, `sharing` being the state after it: did a write fail in it? -/
def failedNow (sharing : Sharing) : LockAct → List Nat
  | .call _ _ => []
  | .run t _ _ => (sharing.points t).writeFailed.toList

def watchedStep (s : Watched) (act : LockAct) : Option Watched :=
  (lockStep s.sharing act).map fun sharing => ⟨sharing, failedNow sharing act ++ s.failed⟩

def watchedSystem : System Watched LockAct where
  init s := s = ⟨sharingStart, []⟩
  step := watchedStep

/-- What `malloc` returns for a new connection does not say that it is
closed. -/
def BlockNotClosed (_ : Watched) : LockAct → Prop
  | .call _ (.addConn _ _ _ state) => state ≠ CCEPH_CONN_STATE_CLOSED
  | _ => True

end CephInC
