/-
The wait list of `client/client.c` in memory, under any number of
threads.

`Client/Threads.lean` keeps the list as a value. Here it is what the code
has: entries that `malloc` and `free` give and take back, linked through
their `list_node`. The threads are the same, and so are their steps but
for one: an entry that `is_req_finished` has taken off the list is freed
by `wait_for_req` when it no longer holds the lock, which is a step of
its own. An entry that `remove_req_from_wait_list` takes off is not
freed by anybody.

A step in which the code would fault is no step (`none`). The loops over
the list get a number of turns with the action.
-/
import CephInC.Client.Threads
import CephInC.Common.Records

namespace CephInC

open Lib

/-- `cceph_client`; `wait_req_list.list_node` stands at `waitReqList`. -/
structure ClientMem where
  osdmap : Osdmap
  clientId : Int32
  reqId : Int64
  state : Int32
  waitReqList : Nat
  mem : Records WaitReq

/-- The client, its wait list as a value. -/
def ClientMem.toClient (c : ClientMem) (ws : List WaitReq) : Client :=
  ⟨c.osdmap, c.clientId, c.reqId, c.state, ws⟩

-- ====================================================== the functions

/-- `add_req_to_wait_list`, with the entry `malloc` returned. -/
def memAddReq (head entry : Nat) (junk : Links Nat) (addr : Nat) (req : Msg)
    (reqCount : Int32) : Prog (Records WaitReq) Unit := do
  recordNew entry ⟨addr, req, 0, 0, reqCount⟩ junk
  onNodes (listAdd entry head)

/-- The loop of `remove_req_from_wait_list`: the memory, and `wait_req`. -/
def removeBody (addr pos : Nat) : Prog (Records WaitReq × Option Nat) Bool := fun s =>
  match s.1.recs pos with
  | some w => .ok (decide (w.addr = addr), (s.1, some pos))
  | none => .error (badPointer pos)

/-- `remove_req_from_wait_list`. -/
def memRemoveReq (head turns addr : Nat) : Prog (Records WaitReq) Unit := fun m =>
  match listForEach (fun s => s.1.nodes) (removeBody addr) head turns (m, none) with
  | .error e => .error e
  | .ok (pos, m, waitReq) =>
      (do
        if pos ≠ head then onNodes (listDelete pos)
        -- the log line reads `wait_req->req->op`
        let waitReq ← deref waitReq
        let _ ← recordAt waitReq
        return : Prog (Records WaitReq) Unit) m

/-- `is_req_finished`. -/
def memIsReqFinished (head turns addr : Nat) : Prog (Records WaitReq) (Option Nat) := do
  match ← listFirst (WaitReq.finished addr) head turns with
  | none => return none
  | some entry =>
      onNodes (listDelete entry)
      return some entry

/-- What the loop of `do_object_write_ack` keeps: the memory, if `result`
is set, and `wait_req`. -/
structure AckScan where
  mem : Records WaitReq
  found : Bool
  waitReq : Option Nat

/-- The body of the loop of `do_object_write_ack`. -/
def ackBody (check : Bool) (reqId : Int64) (pos : Nat) : Prog AckScan Bool := fun s =>
  match s.mem.recs pos with
  | none => .error (badPointer pos)
  | some w =>
      let s := { s with waitReq := some pos }
      if w.req.header.op ≠ CCEPH_MSG_OP_WRITE then .ok (false, s)
      else if w.req.reqId ≠ reqId then .ok (false, s)
      else if s.found then .ok (false, s)
      else
        let w := { w with ackCount := w.ackCount + 1 }
        .ok (!check, ⟨{ s.mem with recs := Function.update s.mem.recs pos (some w) }, true,
          s.waitReq⟩)

/-- The section of `do_object_write_ack`: is `wait_req_cond` signalled? -/
def memWriteAck (check : Bool) (head turns : Nat) (reqId : Int64) :
    Prog (Records WaitReq) Bool := fun m =>
  match listForEach (fun s => s.mem.nodes) (ackBody check reqId) head turns ⟨m, false, none⟩ with
  | .error e => .error e
  | .ok (_, s) =>
      (do
        if !s.found then return false
        let waitReq ← deref s.waitReq
        let w ← recordAt waitReq
        return w.enough : Prog (Records WaitReq) Bool) s.mem

-- ========================================================= the threads

structure CallsMem where
  client : ClientMem
  made : List MsgWriteObjReq
  threads : List Caller
  returned : List (MsgWriteObjReq × Int)
  /-- Taken off the list by `is_req_finished`, and not freed yet. -/
  taken : List Nat

namespace CallsMem

def move (s : CallsMem) (t : Nat) (caller : Caller) : CallsMem :=
  { s with threads := s.threads.set t caller }

def setMem (s : CallsMem) (mem : Records WaitReq) : CallsMem :=
  { s with client := { s.client with mem := mem } }

def finish (s : CallsMem) (t : Nat) (req : MsgWriteObjReq) (ret : Int) : CallsMem :=
  { s.move t .idle with returned := (req, ret) :: s.returned }

end CallsMem

inductive CallMemAct where
  | call (t : Nat) (logId : Int64) (oid : CharBlock) (offset length : Int64)
      (data : List UInt8)
  /-- `malloc` returns `entry`. -/
  | addReq (t entry : Nat) (junk : Links Nat)
  | send (t : Nat) (ret : Int)
  | sent (t turns : Nat)
  | check (t turns : Nat)
  | recheck (t turns : Nat)
  | ack (ack : MsgWriteObjAck) (woken : List Nat) (turns : Nat)
  /-- `free(wait_req)` at the end of `wait_for_req`. -/
  | free (entry : Nat)

def callMemStep (check : Bool) (s : CallsMem) : CallMemAct → Option CallsMem
  | .call t logId oid offset length data =>
      match s.threads[t]? with
      | some .idle =>
          if s.client.state = CCEPH_CLIENT_STATE_NORMAL then
            let (req, client) := newWriteReq (s.client.toClient []) logId oid offset length data
            some { s.move t (.numbered s.made.length req) with
              client := { s.client with reqId := client.reqId }, made := s.made ++ [req] }
          else none
      | _ => none
  | .addReq t entry junk =>
      match s.threads[t]? with
      | some (.numbered addr req) =>
          match memAddReq s.client.waitReqList entry junk addr (.writeObjReq req)
              s.client.osdmap.osdCount s.client.mem with
          | .ok (_, mem) => some ((s.move t (.sending addr req 0 0)).setMem mem)
          | .error _ => none
      | _ => none
  | .send t ret =>
      match s.threads[t]? with
      | some (.sending addr req i successCount) =>
          if i < s.client.osdmap.osds.length then
            some (s.move t (.sending addr req (i + 1)
              (if ret = 0 then successCount + 1 else successCount)))
          else none
      | _ => none
  | .sent t turns =>
      match s.threads[t]? with
      | some (.sending addr req i successCount) =>
          if i < s.client.osdmap.osds.length then none
          else if successCount ≤ s.client.osdmap.osdCount / 2 then
            match memRemoveReq s.client.waitReqList turns addr s.client.mem with
            | .ok (_, mem) => some ((s.finish t req CCEPH_ERR_NOT_ENOUGH_SERVER).setMem mem)
            | .error _ => none
          else some (s.move t (.checking addr req))
      | _ => none
  | .check t turns =>
      match s.threads[t]? with
      | some (.checking addr req) =>
          match memIsReqFinished s.client.waitReqList turns addr s.client.mem with
          | .ok (some entry, mem) => some
              { (s.finish t req CCEPH_OK).setMem mem with taken := entry :: s.taken }
          | .ok (none, _) => some (s.move t (.blocked addr req))
          | .error _ => none
      | _ => none
  | .recheck t turns =>
      match s.threads[t]? with
      | some (.unblocked addr req) =>
          match memIsReqFinished s.client.waitReqList turns addr s.client.mem with
          | .ok (some entry, mem) => some
              { (s.finish t req CCEPH_OK).setMem mem with taken := entry :: s.taken }
          | .ok (none, _) => some (s.move t (.checking addr req))
          | .error _ => none
      | _ => none
  | .ack ack woken turns =>
      if ack.clientId ≠ s.client.clientId then
        if woken = [] then some s else none
      else
        match memWriteAck check s.client.waitReqList turns ack.reqId s.client.mem with
        | .ok (true, mem) => (pthreadCondSignal s.threads woken).map fun threads =>
            { s.setMem mem with threads := threads }
        | .ok (false, mem) => if woken = [] then some (s.setMem mem) else none
        | .error _ => none
  | .free entry =>
      if entry ∈ s.taken then
        match recordFree entry s.client.mem with
        | .ok (_, mem) => some { s.setMem mem with taken := s.taken.erase entry }
        | .error _ => none
      else none

/-- After `cceph_client_init`. -/
structure CallsMem.Start (s : CallsMem) : Prop where
  numbers : s.client.clientId = 0 ∧ s.client.reqId = 0
    ∧ s.client.state = CCEPH_CLIENT_STATE_NORMAL
  list : ∃ junk, listHeadInit s.client.waitReqList
      (Function.update (fun _ => none) s.client.waitReqList (some junk))
    = .ok ((), s.client.mem.nodes)
  records : s.client.mem.recs = fun _ => none
  threads : ∃ n, s.threads = List.replicate n .idle
  nothing : s.made = [] ∧ s.returned = [] ∧ s.taken = []

def callMemSystem (check : Bool) : System CallsMem CallMemAct where
  init := CallsMem.Start
  step := callMemStep check

-- ========================================================= the purpose

/-- The loop goes on long enough for the list. -/
def Enough (s : CallsMem) (turns : Nat) : Prop :=
  ∀ entries, s.client.mem.Lists s.client.waitReqList entries → entries.length < turns

/-- `malloc` returns a block that is not in use, the loops are not cut
short, and the calls stay fewer than 2^63. -/
def MemFits (s : CallsMem) : CallMemAct → Prop
  | .call _ _ _ _ _ _ => s.made.length + 1 < 2 ^ 63
  | .addReq _ entry _ => s.client.mem.nodes entry = none ∧ s.client.mem.recs entry = none
  | .send _ _ | .free _ => True
  | .sent _ turns | .check _ turns | .recheck _ turns | .ack _ _ turns => Enough s turns

/-- The same step of the threads over the list as a value; `free` is none. -/
def CallMemAct.act : CallMemAct → Option CallAct
  | .call t logId oid offset length data => some (.call t logId oid offset length data)
  | .addReq t _ _ => some (.addReq t)
  | .send t ret => some (.send t ret)
  | .sent t _ => some (.sent t)
  | .check t _ => some (.check t)
  | .recheck t _ => some (.recheck t)
  | .ack msg woken _ => some (.ack msg woken)
  | .free _ => none

/-- The calls that were given up. -/
def CallsMem.failed (s : CallsMem) : Nat :=
  s.returned.countP fun done => done.2 = CCEPH_ERR_NOT_ENOUGH_SERVER

/-- The list of `head` has the entries `entries`, and the records in use
are those, the ones `taken` and the ones `lost`. -/
structure WaitMemory (m : Records WaitReq) (head : Nat) (entries : List (Nat × WaitReq))
    (taken lost : List Nat) : Prop where
  lists : m.Lists head entries
  distinct : (entries.map Prod.fst ++ taken ++ lost).Nodup
  used : ∀ a, (m.recs a).isSome ↔ a ∈ entries.map Prod.fst ++ taken ++ lost
  /-- The head is part of the client, and no entry. -/
  head : m.recs head = none

/-- The calls, their wait list as a value. -/
def CallsMem.toCalls (m : CallsMem) (ws : List WaitReq) : Calls :=
  ⟨m.client.toClient ws, m.made, m.threads, m.returned⟩

/-- The memory `m` holds what `s` says, and what is in use besides the
wait list is about to be freed, or left behind by a call that was given
up: one record for each. -/
def MemHolds (m : CallsMem) (s : Calls) : Prop :=
  ∃ entries lost, WaitMemory m.client.mem m.client.waitReqList entries m.taken lost
    ∧ s = m.toCalls (entries.map Prod.snd) ∧ lost.length = m.failed

end CephInC
