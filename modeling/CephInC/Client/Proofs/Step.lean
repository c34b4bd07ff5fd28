/-
What one step of the calls can do.

`CallOutcome` has a case for each way a step can end, with what the step
has looked at. Every invariant of the calls is proved by cases on it.
-/
import CephInC.Client.Proofs.WaitList
import CephInC.Client.Threads

namespace CephInC

open Lib

inductive CallOutcome (check : Bool) (s : Calls) : CallAct → Calls → Prop
  | call (t : Nat) (logId : Int64) (oid : CharBlock) (offset length : Int64)
      (data : List UInt8) (hmine : s.threads[t]? = some .idle) :
      CallOutcome check s (.call t logId oid offset length data)
        { s.move t (.numbered s.made.length
            (newWriteReq s.client logId oid offset length data).1) with
          client := (newWriteReq s.client logId oid offset length data).2,
          made := s.made ++ [(newWriteReq s.client logId oid offset length data).1] }
  | addReq (t addr : Nat) (req : MsgWriteObjReq)
      (hmine : s.threads[t]? = some (.numbered addr req)) :
      CallOutcome check s (.addReq t)
        { s.move t (.sending addr req 0 0) with
          client := addReqToWaitList s.client addr (.writeObjReq req)
            s.client.osdmap.osdCount }
  | send (t : Nat) (ret : Int) (addr : Nat) (req : MsgWriteObjReq) (i : Nat)
      (n n' : Int32) (hmine : s.threads[t]? = some (.sending addr req i n))
      (hmore : i < s.client.osdmap.osds.length) :
      CallOutcome check s (.send t ret) (s.move t (.sending addr req (i + 1) n'))
  /-- Too few servers took the request. -/
  | refused (t addr : Nat) (req : MsgWriteObjReq) (i : Nat) (n : Int32)
      (hmine : s.threads[t]? = some (.sending addr req i n)) :
      CallOutcome check s (.sent t)
        (s.finish t { s.client with
          waitReqList := s.client.waitReqList.eraseP fun w => w.addr = addr }
          req CCEPH_ERR_NOT_ENOUGH_SERVER)
  | wait (t addr : Nat) (req : MsgWriteObjReq) (i : Nat) (n : Int32)
      (hmine : s.threads[t]? = some (.sending addr req i n)) :
      CallOutcome check s (.sent t) (s.move t (.checking addr req))
  /-- The thread has looked, before it blocks or after. -/
  | finish (act : CallAct) (t addr : Nat) (req : MsgWriteObjReq) (caller : Caller)
      (w : WaitReq) (hact : act = .check t ∨ act = .recheck t)
      (hcaller : caller = .checking addr req ∨ caller = .unblocked addr req)
      (hmine : s.threads[t]? = some caller) (hw : w ∈ s.client.waitReqList)
      (hfinished : w.finished addr = true) :
      CallOutcome check s act
        (s.finish t { s.client with
          waitReqList := s.client.waitReqList.eraseP (WaitReq.finished addr) }
          req CCEPH_OK)
  | block (t addr : Nat) (req : MsgWriteObjReq)
      (hmine : s.threads[t]? = some (.checking addr req))
      (hnone : ∀ w ∈ s.client.waitReqList, w.finished addr = false) :
      CallOutcome check s (.check t) (s.move t (.blocked addr req))
  | again (t addr : Nat) (req : MsgWriteObjReq)
      (hmine : s.threads[t]? = some (.unblocked addr req)) :
      CallOutcome check s (.recheck t) (s.move t (.checking addr req))
  | ignored (ack : MsgWriteObjAck) (woken : List Nat) :
      CallOutcome check s (.ack ack woken) s
  /-- The acknowledgement counts for `w`. -/
  | counted (ack : MsgWriteObjAck) (woken : List Nat) (pre : List WaitReq) (w : WaitReq)
      (post : List WaitReq) (signal : Bool) (threads : List Caller)
      (hws : s.client.waitReqList = pre ++ w :: post) (hw : w.answers ack.reqId = true)
      (hsignal : check = false → signal = w.acked.enough)
      (hthreads : if signal then pthreadCondSignal s.threads woken = some threads
        else threads = s.threads) :
      CallOutcome check s (.ack ack woken)
        { s with
          client := { s.client with waitReqList := pre ++ w.acked :: post },
          threads := threads }

theorem callStep_spec {check : Bool} {s s' : Calls} {act : CallAct}
    (h : callStep check s act = some s') : CallOutcome check s act s' := by
  cases act with
  | call t logId oid offset length data =>
      simp only [callStep] at h
      split at h
      · rename_i hmine
        split_ifs at h
        cases h
        exact .call t logId oid offset length data hmine
      · cases h
  | addReq t =>
      simp only [callStep] at h
      split at h
      · rename_i addr req hmine
        cases h
        exact .addReq t addr req hmine
      · cases h
  | send t ret =>
      simp only [callStep] at h
      split at h
      · rename_i addr req i successCount hmine
        split_ifs at h with hmore
        all_goals
          cases h
          exact .send t ret addr req i successCount _ hmine hmore
      · cases h
  | sent t =>
      simp only [callStep] at h
      split at h
      · rename_i addr req i successCount hmine
        split_ifs at h
        · split at h
          · rename_i client hremove
            cases h
            rw [removeReqFromWaitList_ok hremove]
            exact .refused t addr req i successCount hmine
          · cases h
        · cases h
          exact .wait t addr req i successCount hmine
      · cases h
  | check t =>
      simp only [callStep] at h
      split at h
      · rename_i addr req hmine
        split at h
        · rename_i w client hfinished
          cases h
          obtain ⟨hw, hfin, rfl⟩ := isReqFinished_some hfinished
          exact .finish _ t addr req _ w (.inl rfl) (.inl rfl) hmine hw hfin
        · rename_i client hfinished
          cases h
          exact .block t addr req hmine (isReqFinished_none hfinished)
      · cases h
  | recheck t =>
      simp only [callStep] at h
      split at h
      · rename_i addr req hmine
        split at h
        · rename_i w client hfinished
          cases h
          obtain ⟨hw, hfin, rfl⟩ := isReqFinished_some hfinished
          exact .finish _ t addr req _ w (.inr rfl) (.inr rfl) hmine hw hfin
        · cases h
          exact .again t addr req hmine
      · cases h
  | ack ack woken =>
      cases doObjectWriteAck_spec check s.client ack with
      | ignored ret hrun hnone =>
          simp only [callStep, hrun] at h
          split_ifs at h
          cases h
          exact .ignored ack woken
      | counted pre w post signal hws hrun hw hpre hsignal =>
          cases signal with
          | false =>
              simp only [callStep, hrun] at h
              split_ifs at h
              cases h
              exact .counted ack woken pre w post false s.threads hws hw hsignal rfl
          | true =>
              simp only [callStep, hrun] at h
              obtain ⟨threads, hthreads, rfl⟩ := Option.map_eq_some_iff.mp h
              exact .counted ack woken pre w post true threads hws hw hsignal hthreads

end CephInC
