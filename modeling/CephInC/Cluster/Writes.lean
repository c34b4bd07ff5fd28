/-
A client, its object servers, and the messages between them.

`reach` says which server a connection to an entry of the osdmap leads
to. A message on its way may arrive or not, at any time, once: a request
stands in `requests` until a server takes it, an acknowledgement in
`answers` until the client processes it. An answer also tells where it
comes from, which its acknowledgement does not.
-/
import CephInC.Client.Threads
import CephInC.Osd.OsdMsgProcess

namespace CephInC

open Lib

structure Answer (Osd : Type) where
  osd : Osd
  req : MsgWriteObjReq
  /-- What `io_write_object` returned. -/
  ioRet : Int32
  ack : MsgWriteObjAck
  deriving DecidableEq

structure Cluster (Osd : Type) where
  calls : Calls
  requests : List (Osd × MsgWriteObjReq)
  answers : List (Answer Osd)
  /-- The requests `io_write_object` has returned 0 for, and where. -/
  stored : List (Osd × MsgWriteObjReq)

inductive ClusterAct (Osd : Type) where
  /-- A step of a thread of the client other than a send. -/
  | call (act : CallAct)
  | send (t : Nat) (ret : Int)
  /-- The server processes the request. -/
  | osd (osd : Osd) (req : MsgWriteObjReq) (io : IoOutcome)
  /-- The client processes the acknowledgement. -/
  | ack (answer : Answer Osd) (woken : List Nat)

variable {Osd : Type} [DecidableEq Osd]

def clusterStep (reach : OsdEntity → Osd) (check : Bool) (s : Cluster Osd) :
    ClusterAct Osd → Option (Cluster Osd)
  | .call (.send _ _) | .call (.ack _ _) => none
  | .call act => (callStep check s.calls act).map fun calls => { s with calls := calls }
  | .send t ret =>
      match s.calls.threads[t]? with
      | some (.sending _ req i _) =>
          match s.calls.client.osdmap.osds[i]? with
          | some entity => (callStep check s.calls (.send t ret)).map fun calls =>
              { s with calls := calls, requests := (reach entity, req) :: s.requests }
          | none => none
      | _ => none
  | .osd osd req io =>
      if (osd, req) ∈ s.requests then
        match doObjectWriteReq req io with
        | .ok (ret, ack) => some { s with
            requests := s.requests.erase (osd, req),
            answers := ⟨osd, req, ret, ack⟩ :: s.answers,
            stored := if ret = 0 then (osd, req) :: s.stored else s.stored }
        -- the server is gone
        | .error _ => none
      else none
  | .ack answer woken =>
      if answer ∈ s.answers then
        (callStep check s.calls (.ack answer.ack woken)).map fun calls =>
          { s with calls := calls, answers := s.answers.erase answer }
      else none

def clusterStart (osdmap : Osdmap) (n : Nat) : Cluster Osd :=
  ⟨callStart osdmap n, [], [], []⟩

def clusterSystem (reach : OsdEntity → Osd) (check : Bool) (osdmap : Osdmap) :
    System (Cluster Osd) (ClusterAct Osd) where
  init s := ∃ n, s = clusterStart osdmap n
  step := clusterStep reach check

/-- More than half of the servers have stored the request. -/
def Durable (osdmap : Osdmap) (stored : List (Osd × MsgWriteObjReq))
    (req : MsgWriteObjReq) : Prop :=
  ∃ osds : List Osd, osds.Nodup ∧ (∀ osd ∈ osds, (osd, req) ∈ stored)
    ∧ (osdmap.osdCount / 2).toInt < osds.length

/-- No failed write is counted, and the numbers of the requests do not
wrap around. -/
def CountsWrites (s : Cluster Osd) : ClusterAct Osd → Prop
  | .ack answer _ => answer.ioRet = 0
      ∨ ∀ w ∈ s.calls.client.waitReqList, w.answers answer.ack.reqId = false
  | .call (.call _ _ _ _ _ _) => s.calls.made.length < 2 ^ 64
  | _ => True

end CephInC
