/-
Every message is handed over once.

A section of a worker is what `start_epoll` does with the event
(`eventTask_run`), and the descriptor is armed for the next worker only
at its end (`eventTask_guarded`), so the workers read the messages of
the peer one after the other, in the order they were sent. The order in
which they hand them over is another one: a worker arms the descriptor
before it calls `msg_process` (`handedOver_of_workers`).
-/
import CephInC.Message.Proofs.RoundTrip
import CephInC.Message.Proofs.Events
import CephInC.Message.Workers

namespace CephInC

open Lib

-- ====================================================== a task, left alone

section
variable {L : Lock (Messenger × Inbox) Fault} {α : Type}

theorem msgHeaderRecvTask_reads (header : MsgHeader) :
    Task.Reads L (msgHeaderRecvTask header) (msgHeaderRecv header) := by
  refine .bind (.own _) fun r => .ite (.pure _) ?_
  exact .bind (.own _) fun r => .ite (.pure _) (.pure _)

theorem msgWriteObjReqRecvTask_reads (req : MsgWriteObjReq) :
    Task.Reads L (msgWriteObjReqRecvTask req) (msgWriteObjReqRecv req) := by
  refine .bind (.own _) fun _ => .bind (.own _) fun _ => ?_
  refine .bind (.own _) fun r => .ite (.pure _) ?_
  refine .bind (.own _) fun r => .ite (.pure _) ?_
  refine .bind (.own _) fun r => .ite (.pure _) ?_
  refine .bind (.own _) fun r => .ite (.pure _) ?_
  exact .bind (.own _) fun r => .ite (.pure _) (.pure _)

theorem msgWriteObjAckRecvTask_reads (msg : MsgWriteObjAck) :
    Task.Reads L (msgWriteObjAckRecvTask msg) (msgWriteObjAckRecv msg) := by
  refine .bind (.own _) fun r => .ite (.pure _) ?_
  refine .bind (.own _) fun r => .ite (.pure _) ?_
  exact .bind (.own _) fun r => .ite (.pure _) (.pure _)

theorem readMsgBodyTask_reads (op : Int8) :
    Task.Reads L (readMsgBodyTask op) (readMsgBody op) := by
  refine .ite ?_ (.ite ?_ (.ite (.pure _) (.ite (.pure _) (.pure _))))
  · exact .bind (.own _) fun msg => .bind (msgWriteObjReqRecvTask_reads msg) fun r => .pure _
  · exact .bind (.own _) fun msg => .bind (msgWriteObjAckRecvTask_reads msg) fun r => .pure _

theorem messengerLook_run (f : Messenger → α) (messenger : Messenger) :
    (messengerLook f).prog L messenger = pure (f messenger, messenger) := by
  funext inbox
  show Except.map _ ((Task.look _).run L (messenger, inbox)) = _
  rw [Task.run_look]
  rfl

theorem closeConnTask_run (connId : Int64) (messenger : Messenger) :
    (closeConnTask connId).prog L messenger
      = pure ((), (messengerCloseConn messenger connId).2) := by
  funext inbox
  show Except.map _ ((Task.look _).run L (messenger, inbox)) = _
  rw [Task.run_look]
  rfl

theorem readMsgTask_run (connId : Int64) (messenger : Messenger) :
    (readMsgTask connId).prog L messenger = messengerReadMsg messenger connId := by
  unfold readMsgTask messengerReadMsg
  rw [Task.prog_bind, msgHeaderRecvTask_reads, bind_assoc]
  refine bind_congr fun r => ?_
  obtain ⟨ret, header⟩ := r
  rw [pure_bind]
  by_cases hclosed : ret = CCEPH_ERR_CONN_CLOSED
  · simp only [if_pos hclosed]
    rw [Task.prog_bind, closeConnTask_run, pure_bind]
    rfl
  by_cases hret : ret ≠ 0
  · simp only [if_neg hclosed, if_pos hret]
    rfl
  simp only [if_neg hclosed, if_neg hret]
  unfold readMsgRest
  rw [Task.prog_bind, readMsgBodyTask_reads, bind_assoc]
  refine bind_congr fun r => ?_
  obtain ⟨ret, message⟩ := r
  rw [pure_bind]
  by_cases hclosed : ret = CCEPH_ERR_CONN_CLOSED
  · simp only [if_pos hclosed]
    rw [Task.prog_bind, closeConnTask_run, pure_bind]
    rfl
  by_cases hret : ret ≠ 0
  · simp only [if_neg hclosed, if_pos hret]
    rfl
  simp only [if_neg hclosed, if_neg hret]
  rw [Task.prog_bind, Task.prog_own, bind_assoc]
  refine bind_congr fun message => ?_
  rw [pure_bind]
  rfl

end

/-- What `start_epoll` made of an event, as an answer. -/
def Handled.ends (handled : Handled) : EventAnswer × Messenger :=
  (handled.answer, handled.messenger)

theorem readWakeTask_run (fd : Int32) (messenger : Messenger) :
    readWakeTask.prog (oneShot fd) messenger = match messenger.wakeThreadPipe with
      | [] => fault .blocked
      | op :: rest => pure (op, { messenger with wakeThreadPipe := rest }) := by
  funext inbox
  show Except.map _ ((Task.look _).run _ (messenger, inbox)) = _
  rw [Task.run_look]
  dsimp only
  cases messenger.wakeThreadPipe with
  | nil => rfl
  | cons op rest => rfl

theorem wakeTask_run (fd : Int32) (ctl : Int) (messenger : Messenger) :
    (wakeTask ctl).prog (oneShot fd) messenger
      = startEpollWake messenger fd ctl >>= fun handled => pure handled.ends := by
  unfold wakeTask startEpollWake
  rw [Task.prog_bind, readWakeTask_run]
  cases messenger.wakeThreadPipe with
  | nil => rfl
  | cons op rest =>
      rw [pure_bind]
      by_cases hop : op = CCEPH_MESSENGER_OP_STOP
      · simp only [Task.check, if_pos hop]
        rw [assert_pos hop]
        by_cases hctl : ctl = 0
        · subst hctl
          rfl
        · have hret : (waitForNextMsg { messenger with wakeThreadPipe := rest } fd ctl).1 ≠ 0 :=
            hctl
          rw [if_neg hctl, pure_bind]
          show _ = (assert (ctl = 0) >>= _) >>= _
          rw [assert_neg hctl]
          rfl
      · simp only [Task.check, if_neg hop]
        rw [assert_neg hop]
        rfl

theorem rearmTask_run (fd : Int32) (ctl : Int) (connId : Int64) (msg : Msg)
    (messenger : Messenger) :
    (rearmTask ctl connId msg).prog (oneShot fd) messenger
      = pure (.again (some (connId, msg)),
          if ctl < -1 then
            (messengerCloseConn (waitForNextMsg messenger fd ctl).2 connId).2
          else (waitForNextMsg messenger fd ctl).2) := by
  unfold rearmTask
  by_cases hzero : ctl = 0
  · subst hzero
    rfl
  have hsame : (waitForNextMsg messenger fd ctl).2 = messenger := by
    unfold waitForNextMsg
    rw [if_neg hzero]
  rw [hsame, if_neg hzero]
  by_cases hlost : ctl < -1
  · rw [if_pos hlost, if_pos hlost, Task.prog_bind, closeConnTask_run, pure_bind]
    rfl
  · rw [if_neg hlost, if_neg hlost]
    rfl

theorem sectionOfEvent_run (fd : Int32) (c : EventCall) (messenger : Messenger) :
    (sectionOfEvent fd c).prog (oneShot fd) messenger
      = startEpollEvent messenger ⟨c.events, fd⟩ c.ctl >>= fun handled => pure handled.ends := by
  unfold sectionOfEvent startEpollEvent
  rw [Task.prog_bind, messengerLook_run, pure_bind]
  dsimp only
  cases messengerGetConnByFd messenger fd with
  | none => rfl
  | some conn =>
      dsimp only
      by_cases herr : isConnErr ⟨c.events, fd⟩ = true
      · simp only [if_pos herr]
        rw [Task.prog_bind, closeConnTask_run, pure_bind]
        rfl
      simp only [if_neg herr]
      rw [Task.prog_bind, messengerLook_run, pure_bind]
      by_cases hwake : fd = messenger.wakeThreadPipeFd
      · simp only [if_pos hwake]
        exact wakeTask_run fd c.ctl messenger
      simp only [if_neg hwake]
      rw [Task.prog_bind, readMsgTask_run, bind_assoc]
      refine bind_congr fun r => ?_
      obtain ⟨msg, messenger⟩ := r
      cases msg with
      | none => rfl
      | some msg => exact rearmTask_run fd c.ctl conn.id msg messenger

/-- A worker with the state to itself does what `start_epoll` does with
the event. -/
theorem eventTask_run (fd : Int32) (c : EventCall) (messenger : Messenger) :
    (eventTask fd c).prog (oneShot fd) messenger = handleEvent fd messenger c := by
  unfold eventTask handleEvent
  rw [Task.prog_bind]
  by_cases harmed : fd ∈ messenger.armed
  · have htake : Task.take.prog (oneShot fd) messenger = pure ((), disarm messenger fd) := by
      funext inbox
      show Except.map _ (Except.bind (if _ then _ else _) _) = _
      rw [if_pos harmed]
      rfl
    rw [htake, pure_bind, if_pos harmed]
    exact sectionOfEvent_run fd c (disarm messenger fd)
  · have htake : Task.take.prog (oneShot fd) messenger = fault .blocked := by
      funext inbox
      show Except.map _ (Except.bind (if _ then _ else _) _) = _
      rw [if_neg harmed]
      rfl
    rw [htake, fault_bind, if_neg harmed]

-- ============================================================ one section

section
variable {fd : Int32} {α : Type}

theorem within_messengerLook (f : Messenger → α) : (messengerLook f).Within (oneShot fd) := by
  refine .look fun s a s' hheld hrun => ?_
  cases hrun
  exact hheld

/-- Reading from the socket is no matter of the epoll set. -/
theorem within_own (p : Prog Inbox α) :
    (Task.own p : EventTask α).Within (oneShot fd) :=
  .own (fun _ _ _ => rfl) p

/-- Closing arms nothing. -/
theorem within_closeConn (connId : Int64) : (closeConnTask connId).Within (oneShot fd) := by
  refine .look fun s a s' hheld hrun => ?_
  cases hrun
  refine decide_eq_false fun hmem => ?_
  exact of_decide_eq_false hheld (messengerCloseConn_armed s.1 connId hmem)

theorem within_readWake : readWakeTask.Within (oneShot fd) := by
  refine .look fun s op s' hheld hrun => ?_
  cases hpipe : s.1.wakeThreadPipe with
  | nil =>
      rw [hpipe] at hrun
      cases hrun
  | cons _ _ =>
      rw [hpipe] at hrun
      cases hrun
      exact hheld

theorem within_headerRecv (header : MsgHeader) :
    (msgHeaderRecvTask header).Within (oneShot fd) := by
  refine .bind (within_own _) fun r => .ite (.pure _) ?_
  exact .bind (within_own _) fun r => .ite (.pure _) (.pure _)

theorem within_reqRecv (req : MsgWriteObjReq) :
    (msgWriteObjReqRecvTask req).Within (oneShot fd) := by
  refine .bind (within_own _) fun _ => .bind (within_own _) fun _ => ?_
  refine .bind (within_own _) fun r => .ite (.pure _) ?_
  refine .bind (within_own _) fun r => .ite (.pure _) ?_
  refine .bind (within_own _) fun r => .ite (.pure _) ?_
  refine .bind (within_own _) fun r => .ite (.pure _) ?_
  exact .bind (within_own _) fun r => .ite (.pure _) (.pure _)

theorem within_ackRecv (msg : MsgWriteObjAck) :
    (msgWriteObjAckRecvTask msg).Within (oneShot fd) := by
  refine .bind (within_own _) fun r => .ite (.pure _) ?_
  refine .bind (within_own _) fun r => .ite (.pure _) ?_
  exact .bind (within_own _) fun r => .ite (.pure _) (.pure _)

theorem within_readMsgBody (op : Int8) : (readMsgBodyTask op).Within (oneShot fd) := by
  refine .ite ?_ (.ite ?_ (.ite (.pure _) (.ite (.pure _) (.pure _))))
  · exact .bind (within_own _) fun msg => .bind (within_reqRecv msg) fun r => .pure _
  · exact .bind (within_own _) fun msg => .bind (within_ackRecv msg) fun r => .pure _

theorem within_readMsg (connId : Int64) : (readMsgTask connId).Within (oneShot fd) := by
  have hclose : (closeConnTask connId >>= fun _ => pure (none : Option Msg)).Within
      (oneShot fd) := .bind (within_closeConn connId) fun _ => .pure none
  refine .bind (within_headerRecv _) fun r => .ite hclose (.ite (.pure _) ?_)
  refine .bind (within_readMsgBody _) fun r => .ite hclose (.ite (.pure _) ?_)
  exact .bind (within_own _) fun message => .pure _

/-- A worker may go back to `epoll_wait` without arming the descriptor. -/
theorem inside_back (answer : EventAnswer) :
    (pure answer : EventTask EventAnswer).Inside (oneShot fd) True :=
  .lost trivial answer

theorem inside_rearm (ctl : Int) (connId : Int64) (msg : Msg) :
    (rearmTask ctl connId msg).Inside (oneShot fd) True :=
  .ite (.give _) (.ite (.bind (within_closeConn connId) fun _ => inside_back _)
    (inside_back _))

theorem sectionOfEvent_inside (c : EventCall) :
    (sectionOfEvent fd c).Inside (oneShot fd) True := by
  refine .bind (within_messengerLook _) fun found => ?_
  cases found with
  | none => exact inside_back _
  | some conn =>
      refine .ite (.bind (within_closeConn conn.id) fun _ => inside_back _) ?_
      refine .bind (within_messengerLook _) fun wake => .ite ?_ ?_
      · exact .bind within_readWake fun op => .check (.check (.give _))
      · refine .bind (within_readMsg conn.id) fun msg => ?_
        cases msg with
        | none => exact inside_back _
        | some msg => exact inside_rearm c.ctl conn.id msg

theorem eventTask_guarded (c : EventCall) : (eventTask fd c).Guarded (oneShot fd) True :=
  .take (sectionOfEvent_inside c)

end

-- ============================================================ one by one

/-- Sections one after the other are events handled one after the other. -/
theorem runs_handleEvents (fd : Int32) : ∀ (calls : List EventCall) (messenger : Messenger)
    (inbox : Inbox), Task.runs (oneShot fd) (eventTask fd) calls (messenger, inbox)
      = (handleEvents fd calls messenger inbox).map fun r => (r.1.1, r.1.2, r.2)
  | [], messenger, inbox => rfl
  | c :: calls, messenger, inbox => by
      have hrun : ((eventTask fd c).run (oneShot fd) (messenger, inbox)).map
          (fun r => ((r.1, r.2.1), r.2.2)) = handleEvent fd messenger c inbox :=
        congrFun (eventTask_run fd c messenger) inbox
      unfold Task.runs handleEvents
      rw [bind_run, ← hrun]
      cases (eventTask fd c).run (oneShot fd) (messenger, inbox) with
      | error e => rfl
      | ok r =>
          obtain ⟨answer, messenger', inbox'⟩ := r
          show (Task.runs (oneShot fd) (eventTask fd) calls (messenger', inbox')).bind _
            = Except.map _ ((handleEvents fd calls messenger' >>= _) inbox')
          rw [runs_handleEvents fd calls messenger' inbox', bind_run]
          cases handleEvents fd calls messenger' inbox' with
          | error e => rfl
          | ok rest => rfl

-- ============================================================== the stream

/-- The bytes are these messages, spelled out, and then `rest`. -/
inductive Coming (rest : List UInt8) : List Msg → List UInt8 → Prop
  | nil : Coming rest [] rest
  | cons {msg : Msg} {msgs : List Msg} {bs d : List UInt8} (hwire : OnWire msg bs)
      (hcounted : msg.Counted) (h : Coming rest msgs d) : Coming rest (msg :: msgs) (bs ++ d)

/-- What the peer writes spells the messages that are received. -/
theorem coming_of_travels (rest : List UInt8) {msgs : List Msg}
    (h : ∀ msg ∈ msgs, msg.Travels) :
    ∃ got, List.Forall₂ SameMsg msgs got ∧ Coming rest got (bytesOf msgs ++ rest) := by
  induction msgs with
  | nil => exact ⟨[], .nil, .nil⟩
  | cons msg msgs ih =>
      obtain ⟨got, hsame, hcoming⟩ := ih fun m hm => h m (List.mem_cons_of_mem msg hm)
      obtain ⟨bs, first, hbs, hwire, hcounted, hfirst⟩ :=
        msgEncoding_onWire (h msg List.mem_cons_self)
      refine ⟨first :: got, .cons hfirst hsame, ?_⟩
      rw [bytesOf, List.flatMap_cons, hbs, List.append_assoc]
      exact .cons hwire hcounted hcoming

section
variable {fd : Int32} {conn : Connection} {messenger : Messenger}

/-- What an event is to a worker that serves the connection. -/
theorem handleEvent_serves (hs : Listens messenger fd conn) (harmed : fd ∈ messenger.armed)
    (c : EventCall) : handleEvent fd messenger c
      = if isConnErr ⟨c.events, fd⟩ then
          pure (.again none, (messengerCloseConn (disarm messenger fd) conn.id).2)
        else do
          let (msg, messenger) ← messengerReadMsg (disarm messenger fd) conn.id
          match msg with
          | none => return (.again none, messenger)
          | some msg => return (.again (some (conn.id, msg)),
              if c.ctl < -1 then
                (messengerCloseConn (waitForNextMsg messenger fd c.ctl).2 conn.id).2
              else (waitForNextMsg messenger fd c.ctl).2) := by
  have hfound : messengerGetConnByFd (disarm messenger fd) fd = some conn := hs.found
  unfold handleEvent startEpollEvent
  rw [if_pos harmed]
  simp only [hfound]
  by_cases herr : isConnErr ⟨c.events, fd⟩ = true
  · simp only [if_pos herr]
    rfl
  · have hdata : fd ≠ (disarm messenger fd).wakeThreadPipeFd := hs.data
    simp only [if_neg herr, if_neg hdata]
    rw [bind_assoc]
    refine bind_congr fun r => ?_
    obtain ⟨msg, messenger⟩ := r
    cases msg with
    | none => rfl
    | some msg => rfl

theorem not_armed_closed (messenger : Messenger) (fd : Int32) (id : Int64) :
    fd ∉ (messengerCloseConn (disarm messenger fd) id).2.armed := fun hmem =>
  disarm_not_armed messenger fd (messengerCloseConn_armed _ _ hmem)

/-- The descriptor is served after a message, if it is armed. -/
theorem serves_rearmed (hs : Listens messenger fd conn) (ctl : Int)
    (h : fd ∈ (if ctl < -1 then
        (messengerCloseConn (waitForNextMsg (disarm messenger fd) fd ctl).2 conn.id).2
      else (waitForNextMsg (disarm messenger fd) fd ctl).2).armed) :
    Listens (if ctl < -1 then
        (messengerCloseConn (waitForNextMsg (disarm messenger fd) fd ctl).2 conn.id).2
      else (waitForNextMsg (disarm messenger fd) fd ctl).2) fd conn := by
  by_cases hlost : ctl < -1
  · rw [if_pos hlost] at h
    have hne : ctl ≠ 0 := by omega
    have hmem := messengerCloseConn_armed _ _ h
    unfold waitForNextMsg at hmem
    rw [if_neg hne] at hmem
    exact absurd hmem (disarm_not_armed messenger fd)
  · rw [if_neg hlost]
    exact ⟨hs.found, hs.data⟩

/-- One event: the first message that is there, or the last event of the
connection. -/
theorem handleEvent_coming {rest : List UInt8} (hrest : ¬Taken rest) {got : List Msg}
    (hs : Listens messenger fd conn) {c : EventCall} {inbox inbox' : Inbox}
    (hplenty : inbox.Plenty) (hd : Coming rest got inbox.delivered) {answer : EventAnswer}
    {messenger' : Messenger}
    (hrun : handleEvent fd messenger c inbox = .ok ((answer, messenger'), inbox')) :
    (answer.msg = none ∧ fd ∉ messenger'.armed)
    ∨ ∃ msg later, got = msg :: later ∧ answer.msg = some (conn.id, msg)
      ∧ (fd ∈ messenger'.armed → Listens messenger' fd conn ∧ inbox'.Plenty
        ∧ Coming rest later inbox'.delivered) := by
  have harmed : fd ∈ messenger.armed := by
    by_contra hnot
    unfold handleEvent at hrun
    rw [if_neg hnot] at hrun
    cases hrun
  rw [handleEvent_serves hs harmed] at hrun
  by_cases herr : isConnErr ⟨c.events, fd⟩ = true
  · rw [if_pos herr] at hrun
    cases hrun
    exact .inl ⟨rfl, not_armed_closed messenger fd conn.id⟩
  rw [if_neg herr] at hrun
  generalize hbytes : inbox.delivered = d at hd
  cases hd with
  | nil =>
      cases readMsg_outcome (disarm messenger fd) conn.id inbox with
      | closed inbox1 hread hwhy =>
          rw [bind_ok hread] at hrun
          cases hrun
          exact .inl ⟨rfl, not_armed_closed messenger fd conn.id⟩
      | kept inbox1 hread hrejected =>
          rw [bind_ok hread] at hrun
          cases hrun
          exact .inl ⟨rfl, disarm_not_armed messenger fd⟩
      | message msg inbox1 hread htaken hwire =>
          rw [hbytes] at htaken
          exact absurd htaken hrest
      | crash e hread hwhy =>
          rw [bind_error hread] at hrun
          cases hrun
  | @cons msg later bs d hwire hcounted hlater =>
      obtain ⟨inbox1, hread, hplenty1, hd1⟩ :=
        readMsg_onWire (disarm messenger fd) conn.id hplenty hwire hcounted hbytes
      rw [bind_ok hread] at hrun
      cases hrun
      refine .inr ⟨msg, later, rfl, rfl, fun h => ⟨serves_rearmed hs c.ctl h, hplenty1, ?_⟩⟩
      rw [hd1]
      exact hlater

/-- An event of a connection whose bytes take no reader down. -/
theorem handleEvent_returns {rest : List UInt8} (hrest : ¬Crashes rest) {got : List Msg}
    (hs : Listens messenger fd conn) (harmed : fd ∈ messenger.armed) (c : EventCall)
    {inbox : Inbox} (hplenty : inbox.Plenty) (hd : Coming rest got inbox.delivered) (e : Fault) :
    handleEvent fd messenger c inbox ≠ .error e := by
  intro hrun
  rw [handleEvent_serves hs harmed] at hrun
  by_cases herr : isConnErr ⟨c.events, fd⟩ = true
  · rw [if_pos herr] at hrun
    cases hrun
  rw [if_neg herr] at hrun
  generalize hbytes : inbox.delivered = d at hd
  cases hd with
  | nil =>
      cases readMsg_outcome (disarm messenger fd) conn.id inbox with
      | closed inbox1 hread hwhy =>
          rw [bind_ok hread] at hrun
          cases hrun
      | kept inbox1 hread hrejected =>
          rw [bind_ok hread] at hrun
          cases hrun
      | message msg inbox1 hread htaken hwire =>
          rw [bind_ok hread] at hrun
          cases hrun
      | crash e' hread hwhy =>
          have hcrashes := hwhy hplenty
          rw [hbytes] at hcrashes
          exact hrest hcrashes
  | cons hwire hcounted hlater =>
      obtain ⟨inbox1, hread, -, -⟩ :=
        readMsg_onWire (disarm messenger fd) conn.id hplenty hwire hcounted hbytes
      rw [bind_ok hread] at hrun
      cases hrun

/-- Any number of events: the messages that are there, from the first on,
and the rest of them while the descriptor is armed. -/
theorem handleEvents_coming {rest : List UInt8} (hrest : ¬Taken rest) (calls : List EventCall) :
    ∀ {messenger messenger' : Messenger} {inbox inbox' : Inbox} {got : List Msg}
      {answers : List EventAnswer}, (fd ∈ messenger.armed → Listens messenger fd conn
        ∧ inbox.Plenty ∧ Coming rest got inbox.delivered) →
      handleEvents fd calls messenger inbox = .ok ((answers, messenger'), inbox') →
      ∃ read later, got = read ++ later
        ∧ answers.filterMap EventAnswer.msg = read.map (fun msg => (conn.id, msg))
        ∧ (fd ∈ messenger'.armed → Listens messenger' fd conn ∧ inbox'.Plenty
          ∧ Coming rest later inbox'.delivered) := by
  induction calls with
  | nil =>
      intro messenger messenger' inbox inbox' got answers hinv hrun
      cases hrun
      exact ⟨[], got, rfl, rfl, hinv⟩
  | cons c calls ih =>
      intro messenger messenger' inbox inbox' got answers hinv hrun
      obtain ⟨⟨answer, mid⟩, inbox1, hevent, hrun⟩ := bind_eq_ok hrun
      obtain ⟨⟨answers1, last⟩, inbox2, hrest1, hrun⟩ := bind_eq_ok hrun
      cases hrun
      have harmed : fd ∈ messenger.armed := by
        by_contra hnot
        unfold handleEvent at hevent
        rw [if_neg hnot] at hevent
        cases hevent
      obtain ⟨hs, hplenty, hd⟩ := hinv harmed
      rcases handleEvent_coming hrest hs hplenty hd hevent with
        ⟨hmsg, hnot⟩ | ⟨msg, later, rfl, hmsg, hinv'⟩
      · obtain ⟨read, later, hgot, hread, hinv'⟩ :=
          @ih _ _ _ _ got _ (fun h => absurd h hnot) hrest1
        refine ⟨read, later, hgot, ?_, hinv'⟩
        rw [List.filterMap_cons_none hmsg]
        exact hread
      · obtain ⟨read, later', rfl, hread, hinv''⟩ := ih hinv' hrest1
        refine ⟨msg :: read, later', rfl, ?_, hinv''⟩
        rw [List.filterMap_cons_some hmsg, hread]
        rfl

end

-- ======================================================= the main result

section
variable {τ : Type} {fd : Int32} {messenger : Messenger} {inbox : Inbox}
  {m : Threads τ EventCall EventAnswer (Messenger × Inbox) Fault}
  {spans : List (CallSpan τ EventCall EventAnswer)} {last : Messenger × Inbox}

theorem handleEvents_of_legal (hm : Linearized (oneShot fd) (eventTask fd) (messenger, inbox) m
    spans last) : handleEvents fd (spans.map CallSpan.call) messenger inbox
      = .ok ((spans.map CallSpan.answer, last.1), last.2) := by
  have hlegal := hm.legal
  rw [runs_handleEvents] at hlegal
  cases hx : handleEvents fd (spans.map CallSpan.call) messenger inbox with
  | error e =>
      rw [hx] at hlegal
      cases hlegal
  | ok r =>
      rw [hx] at hlegal
      obtain ⟨hanswers, hleft⟩ := Prod.mk.inj (Except.ok.inj hlegal)
      rw [← hanswers, ← hleft]

/-- What is read, in order, is what the answers have for `msg_process`. -/
theorem read_messages (spans : List (CallSpan τ EventCall EventAnswer)) :
    ((spans.map CallSpan.result).filterMap handing).map Prod.snd
      = (spans.map CallSpan.answer).filterMap EventAnswer.msg := by
  induction spans with
  | nil => rfl
  | cons o spans ih =>
      rw [List.map_cons, List.map_cons]
      cases hmsg : o.answer.msg with
      | none =>
          have hnone : handing o.result = none := by
            show o.answer.msg.map _ = none
            rw [hmsg]
            rfl
          rw [List.filterMap_cons_none hnone, List.filterMap_cons_none hmsg]
          exact ih
      | some msg =>
          have hsome : handing o.result = some (o.thread, msg) := by
            show o.answer.msg.map _ = _
            rw [hmsg]
            rfl
          rw [List.filterMap_cons_some hsome, List.filterMap_cons_some hmsg, List.map_cons, ih]

theorem handing_thread {a : τ × EventAnswer} {p : τ × Int64 × Msg} (h : handing a = some p) :
    p.1 = a.1 := by
  obtain ⟨msg, -, rfl⟩ := Option.map_eq_some_iff.mp h
  rfl

/-- What is held is held by different workers if the events are theirs. -/
theorem handing_threads (l : List (CallSpan τ EventCall EventAnswer)) :
    (((l.map CallSpan.result).filterMap handing).map Prod.fst).Sublist
      (l.map CallSpan.thread) := by
  induction l with
  | nil => exact .slnil
  | cons o l ih =>
      rw [List.map_cons, List.map_cons]
      cases hhanding : handing o.result with
      | none =>
          rw [List.filterMap_cons_none hhanding]
          exact ih.cons _
      | some p =>
          rw [List.filterMap_cons_some hhanding, List.map_cons, handing_thread hhanding]
          exact ih.cons_cons _

variable [DecidableEq τ]

theorem filter_handing (l : List (τ × EventAnswer)) (t : τ) :
    (l.filterMap handing).filter (fun p => p.1 = t)
      = (l.filter fun a => a.1 = t).filterMap handing := by
  rw [List.filter_filterMap, List.filterMap_filter]
  refine List.filterMap_congr fun a _ => ?_
  cases ha : handing a with
  | none =>
      by_cases ht : a.1 = t
      · simp [ht]
      · simp [ht]
  | some p =>
      have hp := handing_thread ha
      by_cases ht : a.1 = t
      · simp [ht, hp]
      · simp [ht, hp]

theorem handedOnce_of_linearizes {conn : Connection} {got : List Msg}
    (hl : Linearizes m.history spans)
    (horder : (spans.map CallSpan.answer).filterMap EventAnswer.msg
      <+: got.map fun msg => (conn.id, msg)) :
    HandedOnce conn got m.history ((spans.map CallSpan.result).filterMap handing)
      (((spans.filter fun o => !o.ended).map CallSpan.result).filterMap handing) where
  inOrder := by
    rw [read_messages]
    exact horder
  once := by
    rw [handedOver, ← List.filterMap_append]
    exact hl.returned_perm.filterMap handing
  one := hl.open_once.sublist (handing_threads _)
  holds p hp := by
    obtain ⟨a, ha, hhanding⟩ := List.mem_filterMap.mp hp
    obtain ⟨o, ho, rfl⟩ := List.mem_map.mp ha
    obtain ⟨hmem, hopen⟩ := List.mem_filter.mp ho
    rw [handing_thread hhanding]
    exact ⟨o.invoked, o.call, hl.pending_of_open hmem (CallSpan.returned_of_open hopen)⟩
  each t := by
    rw [handedOver, filter_handing, filter_handing]
    exact (hl.returned_thread t).filterMap handing

end

section
variable {τ : Type} [DecidableEq τ] {fd : Int32} {messenger : Messenger} {inbox : Inbox}
  {conn : Connection} {rest : List UInt8}

/-- The messages that are there, however the peer came to write them. -/
theorem handedOnce_of_coming {got : List Msg} (hserves : Listens messenger fd conn)
    (hplenty : inbox.Plenty) (hcoming : Coming rest got inbox.delivered) (hrest : ¬Taken rest)
    {m : Threads τ EventCall EventAnswer (Messenger × Inbox) Fault}
    (h : (workers fd messenger inbox).Reachable m) :
    (∃ read held, HandedOnce conn got m.history read held)
      ∧ (¬Crashes rest → ∀ t e, ¬m.Fails (oneShot fd) t e) := by
  obtain ⟨spans, last, hm⟩ := linearized eventTask_guarded h
  have hcalls := handleEvents_of_legal hm
  obtain ⟨read, later, rfl, hread, hleft⟩ := handleEvents_coming hrest
    (spans.map CallSpan.call) (fun _ => ⟨hserves, hplenty, hcoming⟩) hcalls
  refine ⟨⟨_, _, handedOnce_of_linearizes hm.lin ?_⟩, fun hcrash t e hfails => ?_⟩
  · rw [hread, List.map_append]
    exact List.prefix_append _ _
  · obtain ⟨i, c, -, -, hends, hentered⟩ := hm.fails t e hfails
    rcases hentered with hfree | hfail
    · -- the event comes after those of the list
      obtain ⟨hs, hplenty', hd'⟩ := hleft (of_decide_eq_true hfree)
      rw [Task.runs_append c hm.legal] at hends
      have hrun : ((eventTask fd c).run (oneShot fd) last).map
          (fun r => ((r.1, r.2.1), r.2.2)) = handleEvent fd last.1 c last.2 :=
        congrFun (eventTask_run fd c last.1) last.2
      refine handleEvent_returns hcrash hs (of_decide_eq_true hfree) c hplenty' hd' e ?_
      rw [← hrun]
      cases hx : (eventTask fd c).run (oneShot fd) last with
      | error e' =>
          rw [hx] at hends
          cases hends
          rfl
      | ok r =>
          rw [hx] at hends
          cases hends
    · cases hfail

/-- Whatever the workers, the interleaving and the way the bytes of the
messages are cut: each message is read by one worker, in the order in
which the peer sent them, and handed to `msg_process` by it once. No
worker takes the process down, unless what follows the messages does. -/
theorem handedOver_of_workers {msgs : List Msg} (hserves : Listens messenger fd conn)
    (hplenty : inbox.Plenty) (hmsgs : ∀ msg ∈ msgs, msg.Travels)
    (hd : inbox.delivered = bytesOf msgs ++ rest) (hrest : ¬Taken rest)
    {m : Threads τ EventCall EventAnswer (Messenger × Inbox) Fault}
    (h : (workers fd messenger inbox).Reachable m) :
    ∃ got, List.Forall₂ SameMsg msgs got
      ∧ (∃ read held, HandedOnce conn got m.history read held)
      ∧ (¬Crashes rest → ∀ t e, ¬m.Fails (oneShot fd) t e) := by
  obtain ⟨got, hsame, hcoming⟩ := coming_of_travels rest hmsgs
  rw [← hd] at hcoming
  exact ⟨got, hsame, handedOnce_of_coming hserves hplenty hcoming hrest h⟩

end

/-- The acknowledgement of the second request. -/
def secondAck : MsgWriteObjAck := { firstAck with reqId := 2 }

/-- Both acknowledgements arrive at once. -/
def acksArrive : Inbox :=
  ⟨[.bytes ⟨bytesOf [.writeObjAck firstAck, .writeObjAck secondAck], by decide, by decide⟩],
    .plenty⟩

/-- One worker reads the first and arms the descriptor; another reads the
second and is quicker to hand it over. -/
def overtaking : List (ThreadAct Bool EventCall) :=
  .call true ⟨EPOLLIN, 0⟩ :: List.replicate 11 (.turn true)
    ++ .call false ⟨EPOLLIN, 0⟩ :: List.replicate 11 (.turn false) ++ [.ret false, .ret true]

theorem handedOver_of_workers_two :
    ∃ m got, (workers 5 firstMessenger acksArrive).exec
        ⟨(firstMessenger, acksArrive), fun _ => none, []⟩ overtaking = some m
      ∧ handedOver m.history
        = [(false, 2, .writeObjAck secondAck), (true, 2, .writeObjAck firstAck)]
      ∧ List.Forall₂ SameMsg [.writeObjAck firstAck, .writeObjAck secondAck] got
      ∧ (∃ read held, HandedOnce firstConn got m.history read held)
      ∧ ∀ t e, ¬m.Fails (oneShot 5) t e := by
  have hmapped : ((workers 5 firstMessenger acksArrive).exec
      ⟨(firstMessenger, acksArrive), fun _ => none, []⟩ overtaking).map
        (fun m => handedOver m.history)
      = some [(false, 2, .writeObjAck secondAck), (true, 2, .writeObjAck firstAck)] := by
    decide +kernel
  obtain ⟨m, hexec, hhanded⟩ := Option.map_eq_some_iff.mp hmapped
  have hstart : (workers 5 firstMessenger acksArrive).Reachable
      ⟨(firstMessenger, acksArrive), fun _ : Bool => none, []⟩ := .start ⟨rfl, rfl⟩
  have hm := System.Reached.exec overtaking (fun _ _ _ => trivial) hstart hexec
  have hmsgs : ∀ msg ∈ [Msg.writeObjAck firstAck, .writeObjAck secondAck], msg.Travels := by
    intro msg h
    rcases List.mem_cons.mp h with rfl | h
    · rfl
    · rw [List.mem_singleton.mp h]
      rfl
  have hnone : wireHeader [] = none := rfl
  have hcrash : ¬Crashes [] := fun h => h.elim (not_afterHeader hnone _) (not_afterHeader hnone _)
  have hserves : Listens firstMessenger 5 firstConn := ⟨rfl, by decide⟩
  have hplenty : acksArrive.Plenty := rfl
  have hbytes : acksArrive.delivered
      = bytesOf [.writeObjAck firstAck, .writeObjAck secondAck] ++ [] := rfl
  obtain ⟨got, hsame, hhands, hsafe⟩ :=
    handedOver_of_workers hserves hplenty hmsgs hbytes (not_afterHeader hnone _) hm
  exact ⟨m, got, hexec, hhanded, hsame, hhands, hsafe hcrash⟩

end CephInC
