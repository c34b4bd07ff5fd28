/-
No wakeup is lost as long as every signal reaches the thread it is for.

All waiting threads share `wait_req_cond`, so a signal for one request
can unblock the thread of another: it looks, finds its own request not
finished, and blocks again, and the signal is used up.

`Quiet` is the invariant that a signal to the right thread keeps: a
blocked thread's request is not finished. It needs `AddrOk`: no two
threads have one address.
-/
import CephInC.Client.Proofs.Addresses

namespace CephInC

open Lib

/-- A thread that is still blocked after a signal was not unblocked, and if
the signal unblocked no thread none was blocked. -/
theorem blocked_of_signal {threads threads' : List Caller} {woken : List Nat}
    (hsignal : pthreadCondSignal threads woken = some threads') {t addr : Nat}
    {req : MsgWriteObjReq} (h : threads'[t]? = some (.blocked addr req)) :
    threads[t]? = some (.blocked addr req) ∧ t ∉ woken ∧ woken ≠ [] := by
  unfold pthreadCondSignal at hsignal
  split_ifs at hsignal with hok
  cases hsignal
  rw [List.getElem?_mapIdx] at h
  obtain ⟨caller, hcaller, hwake⟩ := Option.map_eq_some_iff.mp h
  split_ifs at hwake with hmem
  · cases caller <;> cases hwake
  · subst hwake
    refine ⟨hcaller, hmem, ?_⟩
    intro hnil
    have hnone := hok.2 hnil _ (List.mem_of_getElem? hcaller)
    cases hnone

-- =========================================================== invariant

/-- A blocked thread's request is not finished. -/
def Quiet (threads : List Caller) (waitReqList : List WaitReq) : Prop :=
  ∀ (t addr : Nat) (req : MsgWriteObjReq), threads[t]? = some (Caller.blocked addr req) →
    ∀ w ∈ waitReqList, w.finished addr = false

/-- A thread moves on, and entries leave the list. If it blocks, its
request is not finished. -/
theorem Quiet.set {threads : List Caller} {ws ws' : List WaitReq} (h : Quiet threads ws)
    (hsub : ∀ w ∈ ws', w ∈ ws) {t : Nat} {caller' : Caller}
    (hblocked : ∀ addr req, caller' = .blocked addr req →
      ∀ w ∈ ws', w.finished addr = false) :
    Quiet (threads.set t caller') ws' := by
  intro u addr req hu w hw
  rcases eq_or_ne u t with rfl | hne
  · rw [List.getElem?_set_self'] at hu
    obtain ⟨caller, -, hcaller⟩ := Option.map_eq_some_iff.mp hu
    exact hblocked addr req hcaller w hw
  · rw [List.getElem?_set_ne hne.symm] at hu
    exact h u addr req hu w (hsub w hw)

/-- A thread moves on to where it is not blocked. -/
theorem Quiet.setAwake {threads : List Caller} {ws ws' : List WaitReq}
    (h : Quiet threads ws) (hsub : ∀ w ∈ ws', w ∈ ws) {t : Nat} {caller' : Caller}
    (hawake : caller'.isBlocked = false) : Quiet (threads.set t caller') ws' := by
  apply h.set hsub
  rintro addr req rfl
  cases hawake

/-- An entry is added that no blocked thread waits for. -/
theorem Quiet.cons {threads : List Caller} {ws : List WaitReq} (h : Quiet threads ws)
    {w : WaitReq} (hne : ∀ (t addr : Nat) (req : MsgWriteObjReq),
      threads[t]? = some (Caller.blocked addr req) → w.addr ≠ addr) :
    Quiet threads (w :: ws) := by
  intro t addr req ht w' hw'
  rcases List.mem_cons.mp hw' with rfl | hw'
  · exact WaitReq.finished_of_ne (hne t addr req ht)
  · exact h t addr req ht w' hw'

structure CallsInv (s : Calls) : Prop where
  addrs : AddrOk s.made.length s.threads
  quiet : Quiet s.threads s.client.waitReqList

/-- The signal reaches the thread it is for. -/
def SignalsOwner (s : Calls) : CallAct → Prop
  | .ack ack woken => woken ≠ [] → ∀ w ∈ s.client.waitReqList, w.answers ack.reqId →
      ∀ (t : Nat) (req : MsgWriteObjReq),
        s.threads[t]? = some (.blocked w.addr req) → t ∈ woken
  | _ => True

/-- An acknowledgement of `w` whose signal reaches the thread it is for. -/
theorem Quiet.counted {threads threads' : List Caller} {woken : List Nat}
    {pre post : List WaitReq} {w : WaitReq} {signal : Bool}
    (h : Quiet threads (pre ++ w :: post)) (hsignal : signal = w.acked.enough)
    (hwakes : woken ≠ [] → ∀ (t : Nat) (req : MsgWriteObjReq),
      threads[t]? = some (.blocked w.addr req) → t ∈ woken)
    (hthreads : if signal then pthreadCondSignal threads woken = some threads'
      else threads' = threads) :
    Quiet threads' (pre ++ w.acked :: post) := by
  have hmem : w ∈ pre ++ w :: post := List.mem_append_right pre List.mem_cons_self
  -- the other entries are as they were
  have hother : ∀ w' ∈ pre ++ w.acked :: post, w' = w.acked ∨ w' ∈ pre ++ w :: post := by
    intro w' hw'
    rcases List.mem_append.mp hw' with hw' | hw'
    · exact .inr (List.mem_append_left _ hw')
    · rcases List.mem_cons.mp hw' with rfl | hw'
      · exact .inl rfl
      · exact .inr (List.mem_append_right _ (List.mem_cons_of_mem _ hw'))
  intro t addr req ht w' hw'
  cases signal with
  | false =>
      have hthreads : threads' = threads := hthreads
      subst hthreads
      rcases hother w' hw' with rfl | hw'
      · exact WaitReq.finished_acked hsignal.symm (h t addr req ht w hmem)
      · exact h t addr req ht w' hw'
  | true =>
      obtain ⟨ht, hnot, hwoken⟩ := blocked_of_signal hthreads ht
      rcases hother w' hw' with rfl | hw'
      · apply WaitReq.finished_of_ne
        rintro rfl
        exact hnot (hwakes hwoken t req ht)
      · exact h t addr req ht w' hw'

namespace CallsInv

variable {s s' : Calls}

theorem start (osdmap : Osdmap) (n : Nat) : CallsInv (callStart osdmap n) where
  addrs := .start n
  quiet := by
    intro t addr req _ w hw
    cases hw

/-- A thread's request is in the list once it has added it. -/
theorem quiet_addReq (h : CallsInv s) {t addr : Nat} {req : MsgWriteObjReq}
    (hmine : s.threads[t]? = some (.numbered addr req)) (n : Int32) :
    Quiet (s.threads.set t (.sending addr req 0 0))
      (⟨addr, .writeObjReq req, 0, 0, n⟩ :: s.client.waitReqList) := by
  have haddrs : AddrOk s.made.length (s.threads.set t (.sending addr req 0 0)) :=
    h.addrs.keep hmine fun _ haddr => haddr
  apply (h.quiet.setAwake (fun w hw => hw) rfl).cons
  rintro u addr' req' hu rfl
  have hlt := (List.getElem?_eq_some_iff.mp hmine).1
  have hself := List.getElem?_set_self (a := Caller.sending addr req 0 0) hlt
  have hut := haddrs.alone u t addr (congrArg (·.bind Caller.addr) hu)
    (congrArg (·.bind Caller.addr) hself)
  rw [hut, hself] at hu
  cases hu

theorem step (h : CallsInv s) {act : CallAct} (hwakes : SignalsOwner s act)
    (hstep : callStep false s act = some s') : CallsInv s' := by
  refine ⟨h.addrs.step hstep, ?_⟩
  have hall : ∀ w ∈ s.client.waitReqList, w ∈ s.client.waitReqList := fun w hw => hw
  cases callStep_spec hstep with
  | call t logId oid offset length data hmine => exact h.quiet.setAwake hall rfl
  | addReq t addr req hmine => exact h.quiet_addReq hmine _
  | send t ret addr req i n n' hmine _ => exact h.quiet.setAwake hall rfl
  | refused t addr req i n hmine =>
      exact h.quiet.setAwake (fun w hw => List.mem_of_mem_eraseP hw) rfl
  | wait t addr req i n hmine => exact h.quiet.setAwake hall rfl
  | finish act t addr req caller w _ _ hmine _ _ =>
      exact h.quiet.setAwake (fun w hw => List.mem_of_mem_eraseP hw) rfl
  | block t addr req hmine hnone =>
      apply h.quiet.set hall
      rintro addr' req' hblocked
      cases hblocked
      exact hnone
  | again t addr req hmine => exact h.quiet.setAwake hall rfl
  | ignored ack woken => exact h.quiet
  | counted ack woken pre w post signal threads hws hw hsignal hthreads =>
      have hmem : w ∈ s.client.waitReqList := by
        rw [hws]
        exact List.mem_append_right pre List.mem_cons_self
      have hquiet := h.quiet
      rw [hws] at hquiet
      exact hquiet.counted (hsignal rfl) (fun hwoken => hwakes hwoken w hmem hw) hthreads

end CallsInv

/-- A step of the waiting clients is one of the calls, or leaves them. -/
theorem waitStep_calls {s s' : Waiting} {act : WaitAct} (h : waitStep s act = some s')
    (hgood : WakesOwner s act) : s'.calls = s.calls
      ∨ ∃ call, SignalsOwner s.calls call ∧ callStep false s.calls call = some s'.calls := by
  cases act with
  | deliver ack =>
      cases h
      exact .inl rfl
  | handle ack woken =>
      simp only [waitStep] at h
      split_ifs at h
      obtain ⟨calls, hcalls, rfl⟩ := Option.map_eq_some_iff.mp h
      exact .inr ⟨.ack ack woken, hgood, hcalls⟩
  | call act =>
      cases act with
      | ack ack woken => cases h
      | _ =>
          obtain ⟨calls, hcalls, rfl⟩ := Option.map_eq_some_iff.mp h
          refine .inr ⟨_, ?_, hcalls⟩
          trivial

/-- A run in which every signal reaches the thread it is for. -/
theorem CallsInv.reached {s : Waiting} (h : waitSystem.Reached WakesOwner s) :
    CallsInv s.calls := by
  refine h.invariant (I := fun s => CallsInv s.calls) ?_ ?_
  · rintro s ⟨osdmap, n, rfl⟩
    exact .start osdmap n
  · intro s act s' hs hgood hstep
    rcases waitStep_calls hstep hgood with hsame | ⟨call, hwakes, hcall⟩
    · rw [hsame]
      exact hs
    · exact hs.step hwakes hcall

-- ======================================================= the main result

/-- In a run in which every signal reaches the thread whose request was
acknowledged, no wakeup is lost. -/
theorem no_lost_wakeup {s : Waiting} (h : waitSystem.Reached WakesOwner s) :
    ¬LostWakeup s := by
  rintro ⟨-, -, addr, req, w, hblocked, hw, haddr, henough⟩
  obtain ⟨t, ht⟩ := List.mem_iff_getElem?.mp hblocked
  have hquiet := (CallsInv.reached h).quiet t addr req ht w hw
  have hfinished : w.finished addr = true := decide_eq_true ⟨haddr, .inr henough⟩
  rw [hquiet] at hfinished
  cases hfinished

/-- One server, whose acknowledgement is enough. -/
def oneOsd : Osdmap := ⟨1, [⟨⟨[105], by decide⟩, 9000⟩], rfl⟩

/-- The thread `t` writes the byte 65 to the object `o`, and waits. -/
def writeAndWait (t : Nat) : List WaitAct :=
  [.call (.call t 7 (.close [111]) 0 1 [65]), .call (.addReq t), .call (.send t 0),
    .call (.sent t), .call (.check t)]

/-- The acknowledgement of the first request. -/
def ackOne : MsgWriteObjAck := ⟨⟨CCEPH_MSG_OP_WRITE_ACK, 7⟩, 0, 1, 1⟩

theorem no_lost_wakeup_owner : ∃ s, waitSystem.Reached WakesOwner s
    ∧ s.calls.returned.map Prod.snd = [CCEPH_OK] ∧ ¬LostWakeup s := by
  have hstart : waitSystem.Reached WakesOwner ⟨callStart oneOsd 2, []⟩ :=
    .start ⟨oneOsd, 2, rfl⟩
  have hwait := hstart.exec (writeAndWait 0 ++ writeAndWait 1 ++ [.deliver ackOne])
    (by simp [writeAndWait, WakesOwner]) rfl
  have howner := hwait.next (a := .handle ackOne [0])
    (by
      intro _ w hw hanswers t req ht
      rcases List.mem_cons.mp hw with rfl | hw
      · cases hanswers
      · rcases List.mem_singleton.mp hw with rfl
        match t, ht with
        | 0, _ => exact List.mem_cons_self
        | 1, ht => cases ht
        | t + 2, ht => cases ht) rfl
  have hdone := howner.exec [.call (.recheck 0)] (by simp [WakesOwner]) rfl
  exact ⟨_, hdone, rfl, no_lost_wakeup hdone⟩

/-- Two threads wait, the signal for the first request unblocks the second
thread, which blocks again: the first is blocked for good. -/
theorem lost_wakeup : ∃ s, waitSystem.exec ⟨callStart oneOsd 2, []⟩
      (writeAndWait 0 ++ writeAndWait 1
        ++ [.deliver ackOne, .handle ackOne [1], .call (.recheck 1), .call (.check 1)])
        = some s
    ∧ LostWakeup s := by
  refine ⟨_, rfl, rfl, by decide, ?_⟩
  exact ⟨0, _, _, List.mem_cons_self, List.mem_cons_of_mem _ List.mem_cons_self, rfl, rfl⟩

end CephInC
