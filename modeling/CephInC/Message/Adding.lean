/-
What `cceph_messenger_add_conn` relies on.

The new connection is in the list, and its descriptor in the epoll set,
before the function reads `conn->id` to return it. It holds no lock by
then, so whoever finds the connection may close it in between.
-/
import CephInC.Message.Locks

namespace CephInC

open Lib

/-- What `cceph_atomic_add64(&messenger->next_conn_id, 1)` returns for a
connection; the counter starts at 1. -/
def takenId (conn : Nat) : Int64 := Int64.ofNat (conn + 2)

/-- The connection that is in the list while `cceph_messenger_add_conn` has
still to return its id. -/
def AddPoint.adding : AddPoint → Option Nat
  | .wrlock _ => none
  | .list _ => none
  | .unlist conn => some conn
  | .register conn => some conn
  | .read conn _ => some conn

def Point.adding : Point → Option Nat
  | .add p => p.adding
  | _ => none

/-- No operation to come of `cceph_messenger_add_conn` is on a connection
that has been freed, and the id it reads in the end is the one it took. -/
structure AddSafe (s : Sharing) : Prop where
  live : ∀ t p conn, s.points t = .add p → p.conn = some conn → conn ∉ s.shared.freed
  fresh : ∀ t conn failed, s.points t = .add (.read conn failed) →
    (s.shared.conns conn).id = takenId conn
  /-- The id that is taken next. -/
  next : s.shared.nextConnId + 1 = takenId s.shared.made
  apart : ∀ a b, a < s.shared.made → b < s.shared.made → a ≠ b →
    (s.shared.conns a).id ≠ (s.shared.conns b).id

/-- What `cceph_messenger_close_conn` takes off the list, no thread is still
adding; and an id is taken 2^64 times at most. -/
def AddsAlone (s : Sharing) : LockAct → Prop
  | .run t _ _ => ∀ id conn, s.points t = .close id (.delete conn) →
      ∀ u, (s.points u).adding ≠ some conn
  | .call _ (.addConn _ _ _ _) => s.shared.made < 2 ^ 64
  | .call _ _ => True

end CephInC
