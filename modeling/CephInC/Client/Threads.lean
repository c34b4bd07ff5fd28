/-
Threads that call `cceph_client_write_obj` on one client, and handlers
that process acknowledgements, in any interleaving.

A thread is in a `Caller`: where it stands between two sections under
`wait_req_lock`, two calls of `send_req_to_osd`, or the atomic addition
that numbers its request. `pthread_cond_wait` ends the section it stands
in and blocks the thread; a signal unblocks at least one blocked thread,
if there is one, and an action names the threads it unblocks. An
unblocked thread takes the lock again when it moves.

A request is never freed, so that its place among the requests made so
far stands for its address.
-/
import CephInC.Client.Client
import CephInC.Lib.Run

namespace CephInC

open Lib

/-- Where a thread stands. -/
inductive Caller where
  | idle
  /-- The request is made, and not yet in the list. -/
  | numbered (addr : Nat) (req : MsgWriteObjReq)
  /-- The request has been sent to the first `i` servers. -/
  | sending (addr : Nat) (req : MsgWriteObjReq) (i : Nat) (successCount : Int32)
  /-- At the top of the loop of `wait_for_req`. -/
  | checking (addr : Nat) (req : MsgWriteObjReq)
  /-- In `pthread_cond_wait`. -/
  | blocked (addr : Nat) (req : MsgWriteObjReq)
  /-- In `pthread_cond_wait` too, and about to take the lock. -/
  | unblocked (addr : Nat) (req : MsgWriteObjReq)

namespace Caller

def isBlocked : Caller → Bool
  | .blocked _ _ => true
  | _ => false

def isUnblocked : Caller → Bool
  | .unblocked _ _ => true
  | _ => false

def wake : Caller → Caller
  | .blocked addr req => .unblocked addr req
  | caller => caller

end Caller

/-- `pthread_cond_signal`, unblocking the threads `woken`. -/
def pthreadCondSignal (threads : List Caller) (woken : List Nat) :
    Option (List Caller) :=
  if (∀ t ∈ woken, threads[t]?.any Caller.isBlocked)
      ∧ (woken = [] → ∀ caller ∈ threads, !caller.isBlocked) then
    some (threads.mapIdx fun t caller => if t ∈ woken then caller.wake else caller)
  else none

structure Calls where
  client : Client
  made : List MsgWriteObjReq
  threads : List Caller
  /-- What the calls that are over returned. -/
  returned : List (MsgWriteObjReq × Int)

namespace Calls

def move (s : Calls) (t : Nat) (caller : Caller) : Calls :=
  { s with threads := s.threads.set t caller }

def finish (s : Calls) (t : Nat) (client : Client) (req : MsgWriteObjReq) (ret : Int) :
    Calls :=
  { s.move t .idle with client := client, returned := (req, ret) :: s.returned }

end Calls

inductive CallAct where
  | call (t : Nat) (logId : Int64) (oid : CharBlock) (offset length : Int64)
      (data : List UInt8)
  | addReq (t : Nat)
  /-- `send_req_to_osd` returns `ret`. -/
  | send (t : Nat) (ret : Int)
  | sent (t : Nat)
  | check (t : Nat)
  | recheck (t : Nat)
  | ack (ack : MsgWriteObjAck) (woken : List Nat)

/-- One step. All but the last kind are one of the thread `t`. -/
def callStep (check : Bool) (s : Calls) : CallAct → Option Calls
  | .call t logId oid offset length data =>
      match s.threads[t]? with
      | some .idle =>
          if s.client.state = CCEPH_CLIENT_STATE_NORMAL then
            let (req, client) := newWriteReq s.client logId oid offset length data
            some { s.move t (.numbered s.made.length req) with
              client := client, made := s.made ++ [req] }
          else none
      | _ => none
  | .addReq t =>
      match s.threads[t]? with
      | some (.numbered addr req) => some
          { s.move t (.sending addr req 0 0) with
            client := addReqToWaitList s.client addr (.writeObjReq req)
              s.client.osdmap.osdCount }
      | _ => none
  | .send t ret =>
      match s.threads[t]? with
      | some (.sending addr req i successCount) =>
          if i < s.client.osdmap.osds.length then
            some (s.move t (.sending addr req (i + 1)
              (if ret = 0 then successCount + 1 else successCount)))
          else none
      | _ => none
  | .sent t =>
      match s.threads[t]? with
      | some (.sending addr req i successCount) =>
          if i < s.client.osdmap.osds.length then none
          else if successCount ≤ s.client.osdmap.osdCount / 2 then
            match removeReqFromWaitList s.client addr with
            | .ok client => some (s.finish t client req CCEPH_ERR_NOT_ENOUGH_SERVER)
            | .error _ => none
          else some (s.move t (.checking addr req))
      | _ => none
  | .check t =>
      match s.threads[t]? with
      | some (.checking addr req) =>
          match isReqFinished s.client addr with
          | (some _, client) => some (s.finish t client req CCEPH_OK)
          | (none, _) => some (s.move t (.blocked addr req))
      | _ => none
  | .recheck t =>
      match s.threads[t]? with
      | some (.unblocked addr req) =>
          match isReqFinished s.client addr with
          | (some _, client) => some (s.finish t client req CCEPH_OK)
          | (none, _) => some (s.move t (.checking addr req))
      | _ => none
  | .ack ack woken =>
      match doObjectWriteAck check s.client ack with
      | (_, client, true) => (pthreadCondSignal s.threads woken).map fun threads =>
          { s with client := client, threads := threads }
      | (_, client, false) =>
          if woken = [] then some { s with client := client } else none

/-- The address of the thread's request. -/
def Caller.addr : Caller → Option Nat
  | .idle => none
  | .numbered addr _ | .sending addr _ _ _ | .checking addr _ | .blocked addr _
  | .unblocked addr _ => some addr

/-- A client with `n` threads that have nothing to do yet. -/
def callStart (osdmap : Osdmap) (n : Nat) : Calls :=
  ⟨clientInit osdmap, [], List.replicate n .idle, []⟩

/-- Calls and acks in any order, from a new client on. -/
def callSystem (check : Bool) : System Calls CallAct where
  init s := ∃ osdmap n, s = callStart osdmap n
  step := callStep check

-- =============================================== acknowledgements, waiting

/-- The calls, and the acknowledgements that have come and wait for a
handler. -/
structure Waiting where
  calls : Calls
  pending : List MsgWriteObjAck

inductive WaitAct where
  | deliver (ack : MsgWriteObjAck)
  | handle (ack : MsgWriteObjAck) (woken : List Nat)
  | call (act : CallAct)

def waitStep (s : Waiting) : WaitAct → Option Waiting
  | .deliver ack => some { s with pending := ack :: s.pending }
  | .handle ack woken =>
      if ack ∈ s.pending then
        (callStep false s.calls (.ack ack woken)).map fun calls =>
          ⟨calls, s.pending.erase ack⟩
      else none
  | .call (.ack _ _) => none
  | .call act => (callStep false s.calls act).map fun calls => { s with calls := calls }

/-- The client with `client_debug_check_duplicate_req_when_ack` off. -/
def waitSystem : System Waiting WaitAct where
  init s := ∃ osdmap n, s = ⟨callStart osdmap n, []⟩
  step := waitStep

/-- All acknowledgements are processed, no thread is about to look again,
and yet one is blocked whose request has acknowledgements enough. -/
def LostWakeup (s : Waiting) : Prop :=
  s.pending = [] ∧ (∀ caller ∈ s.calls.threads, !caller.isUnblocked)
    ∧ ∃ addr req w, .blocked addr req ∈ s.calls.threads
      ∧ w ∈ s.calls.client.waitReqList ∧ w.addr = addr ∧ w.enough

/-- A signal that unblocks a thread unblocks the one whose request was
acknowledged, if that one is blocked. -/
def WakesOwner (s : Waiting) : WaitAct → Prop
  | .handle ack woken => woken ≠ [] → ∀ w ∈ s.calls.client.waitReqList,
      w.answers ack.reqId → ∀ (t : Nat) (req : MsgWriteObjReq),
        s.calls.threads[t]? = some (.blocked w.addr req) → t ∈ woken
  | _ => True

end CephInC
