/-
The messages a connection was sent, with the calls they come from.

A run of the threads of `Locks.lean` has a record beside it: which
messages `cceph_messenger_send_msg` was called with, and for which of
them a socket has accepted the last byte. A message stands in the record
by its place in `posted`, so that one that is sent twice is two.
-/
import CephInC.Message.Proofs.Parts

namespace CephInC

open Lib

structure Posted where
  sharing : Sharing
  /-- The messages of the calls so far, with the thread that made the call. -/
  posted : List (Nat × Msg)
  /-- The place of the message that a thread is sending. -/
  holds : Nat → Nat
  /-- The messages that are written, by connection and place. -/
  written : List (Nat × Nat)

/-- The connection whose socket accepts the last byte of a message where
a thread goes from one point to the other. -/
def finished : Point → Point → Option Nat
  | .send _ _ (.call conn (call :: calls) _), .send _ _ (.call _ _ _) =>
      if callBytes (call :: calls) ≠ [] ∧ callBytes calls = [] then some conn else none
  | _, _ => none

def Posted.note (s : Posted) (sharing : Sharing) : LockAct → Posted
  | .call t (.sendMsg _ msg) => { s with
      sharing
      posted := s.posted ++ [(t, msg)]
      holds := Function.update s.holds t s.posted.length }
  | .call _ _ => { s with sharing }
  | .run t _ _ => { s with
      sharing
      written := s.written
        ++ (finished (s.sharing.points t) (sharing.points t)).toList.map fun conn =>
          (conn, s.holds t) }

def postedStep (s : Posted) (act : LockAct) : Option Posted :=
  (lockStep s.sharing act).map fun sharing => s.note sharing act

def postedSystem : System Posted LockAct where
  init s := s = ⟨sharingStart, [], fun _ => 0, []⟩
  step := postedStep

/-- The messages have encodings, and no `send` call accepts a part of what
it is given. -/
def PostedClean (s : Posted) (act : LockAct) : Prop := Clean s.sharing act

/-- The places of the messages that the connection was sent, in order. -/
def Posted.writtenTo (s : Posted) (conn : Nat) : List Nat :=
  s.written.filterMap fun p => if p.1 = conn then some p.2 else none

/-- The bytes of the message at a place. -/
def Posted.bytesAt (s : Posted) (i : Nat) : List UInt8 :=
  ((s.posted[i]?).bind fun p => msgEncoding p.2).getD []

/-- Two places of one thread are in the order of its calls. -/
def Posted.InTurn (s : Posted) (i j : Nat) : Prop :=
  ∀ x y, s.posted[i]? = some x → s.posted[j]? = some y → x.1 = y.1 → i < j

/-- The place is that of a message that was received as `got`. -/
def Posted.Arrived (s : Posted) (i : Nat) (got : Msg) : Prop :=
  ∃ t msg, s.posted[i]? = some (t, msg) ∧ SameMsg msg.trim got

end CephInC
