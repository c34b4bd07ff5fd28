/-
The wait list against the calls it is for.

A `Tally` keeps count beside the calls: for each request, the
acknowledgements with its number that were processed while it was
listed. It looks at the list and at the acknowledgement, and not at what
`do_object_write_ack` makes of them.
-/
import CephInC.Client.Threads

namespace CephInC

open Lib

/-- The entry of a call that has added its request and not yet removed
it. -/
def Caller.listed : Caller → Option (Nat × Msg)
  | .idle | .numbered _ _ => none
  | .sending addr req _ _ | .checking addr req | .blocked addr req | .unblocked addr req =>
      some (addr, .writeObjReq req)

/-- What an entry says about its call. -/
def WaitReq.key (w : WaitReq) : Nat × Msg := (w.addr, w.req)

structure Tally where
  calls : Calls
  acks : Nat → Nat

/-- An acknowledgement for this client is processed: it is one more for
the request that is listed and has its number. -/
def tallyAck (client : Client) (ack : MsgWriteObjAck) (acks : Nat → Nat) : Nat → Nat :=
  fun addr =>
    if ack.clientId = client.clientId
        ∧ ∃ w ∈ client.waitReqList, w.addr = addr ∧ w.req.reqId = ack.reqId then
      acks addr + 1
    else acks addr

def tallyStep (check : Bool) (s : Tally) (act : CallAct) : Option Tally :=
  (callStep check s.calls act).map fun calls => ⟨calls,
    match act with
    | .ack ack _ => tallyAck s.calls.client ack s.acks
    | _ => s.acks⟩

/-- The calls of any number of threads on one client, and any
acknowledgements. -/
def tallySystem (check : Bool) : System Tally CallAct where
  init s := ∃ osdmap n, s = ⟨callStart osdmap n, fun _ => 0⟩
  step := tallyStep check

/-- The calls stay fewer than 2^63. -/
def FewCalls (s : Tally) : CallAct → Prop
  | .call _ _ _ _ _ _ => s.calls.made.length + 1 < 2 ^ 63
  | _ => True

/-- `remove_req_from_wait_list` finds the entry of this request, and takes
out that one. -/
def Finds (client : Client) (addr : Nat) (req : MsgWriteObjReq) : Prop :=
  ∃ pre w post, client.waitReqList = pre ++ w :: post
    ∧ w.addr = addr ∧ w.req = .writeObjReq req
    ∧ removeReqFromWaitList client addr = .ok { client with waitReqList := pre ++ post }

structure WaitListOk (s : Tally) : Prop where
  /-- One entry for each call that has one, and no other entry. -/
  entries : (s.calls.client.waitReqList.map WaitReq.key).Perm
    (s.calls.threads.filterMap Caller.listed)
  apart : ((s.calls.threads.filterMap Caller.listed).map Prod.fst).Nodup
  numbers : (s.calls.client.waitReqList.map fun w => w.req.reqId).Nodup
  /-- `ack_count` is an `int`, and counts as far as one does. -/
  acks : ∀ w ∈ s.calls.client.waitReqList, w.ackCount = Int32.ofNat (s.acks w.addr)
    ∧ (w.ackCount.toInt = s.acks w.addr ↔ s.acks w.addr < 2 ^ 31)
  finds : ∀ addr req i n, .sending addr req i n ∈ s.calls.threads →
    Finds s.calls.client addr req

end CephInC
