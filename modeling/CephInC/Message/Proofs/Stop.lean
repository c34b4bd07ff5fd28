/-
A messenger that is told to stop wakes its workers one after the other.

The pipe's descriptor is armed, or a worker has its event and is to arm
it again (`PipeHeld`): that worker leaves its loop only behind
`wait_for_next_msg`. It takes that the pipe's connection stays listed,
which `Proofs/Ids.lean` sees to, and that nobody else closes the pipe
(`PhaseSafe`). A step that the pipe does not make leaves the pipe and the
threads alone that are through with it (`Undisturbed`), and the counts
follow.
-/
import CephInC.Message.Proofs.Ids

namespace CephInC

open Lib

-- ================================================== an event of the pipe

/-- The two steps make the branch of `start_epoll`. -/
theorem startEpollWake_sections (messenger : Messenger) (fd : Int32) (ctl : Int) :
    startEpollWake messenger fd ctl = (do
      let messenger ← startEpollRead messenger
      startEpollRearm messenger fd ctl) := by
  unfold startEpollWake startEpollRead startEpollRearm
  cases messenger.wakeThreadPipe with
  | nil => rfl
  | cons op rest =>
      simp only [bind_assoc, pure_bind]

theorem startEpollRead_run {messenger messenger' : Messenger} {inbox inbox' : Inbox}
    (h : startEpollRead messenger inbox = .ok (messenger', inbox')) :
    ∃ rest, messenger.wakeThreadPipe = CCEPH_MESSENGER_OP_STOP :: rest
      ∧ messenger' = { messenger with wakeThreadPipe := rest } := by
  unfold startEpollRead at h
  cases hpipe : messenger.wakeThreadPipe with
  | nil =>
      rw [hpipe] at h
      cases h
  | cons op rest =>
      rw [hpipe] at h
      simp only at h
      by_cases hop : op = CCEPH_MESSENGER_OP_STOP
      · rw [assert_pos hop, pure_bind] at h
        cases h
        exact ⟨rest, by rw [hop], rfl⟩
      · rw [assert_neg hop] at h
        cases h

theorem startEpollRearm_run {messenger : Messenger} {fd : Int32} {ctl : Int} {handled : Handled}
    {inbox inbox' : Inbox} (h : startEpollRearm messenger fd ctl inbox = .ok (handled, inbox')) :
    ctl = 0 ∧ handled.messenger = { messenger with armed := fd :: messenger.armed } := by
  unfold startEpollRearm waitForNextMsg at h
  simp only at h
  by_cases hctl : ctl = 0
  · rw [assert_pos hctl, pure_bind] at h
    cases h
    refine ⟨hctl, ?_⟩
    show { messenger with armed := _ } = _
    rw [if_pos hctl]
  · rw [assert_neg hctl] at h
    cases h

-- ============================================================ the threads

/-- What is known of a thread, `fd` being the descriptor of the pipe. -/
def PhaseSafe (n t : Nat) (fd : Int32) : Phase → Prop
  | .reported event => IsWorker n t ∧ (event.fd = fd → isConnErr event = false)
  | .woken fd' => IsWorker n t ∧ fd' = fd
  | .reading _ connId _ _ => Other connId
  | .closing connId _ => Other connId
  | .unlinked conn _ => conn.fd ≠ fd
  | _ => True

/-- The pipe can be reported, or a worker is at it. -/
def PipeHeld (n : Nat) (fd : Int32) (armed : List Int32) (threads : Nat → Phase) : Prop :=
  fd ∈ armed ∨ ∃ t, IsWorker n t ∧ (threads t).HasPipe fd

theorem PipeHeld.move {n t : Nat} {fd : Int32} {armed armed' : List Int32}
    {threads : Nat → Phase} {phase : Phase} (h : PipeHeld n fd armed threads)
    (harmed : fd ∈ armed → fd ∈ armed' ∨ IsWorker n t ∧ phase.HasPipe fd)
    (hpipe : (threads t).HasPipe fd → fd ∈ armed' ∨ IsWorker n t ∧ phase.HasPipe fd) :
    PipeHeld n fd armed' (Function.update threads t phase) := by
  have hmine : fd ∈ armed' ∨ IsWorker n t ∧ phase.HasPipe fd →
      PipeHeld n fd armed' (Function.update threads t phase) := by
    intro hcase
    refine hcase.imp id fun hworker => ⟨t, hworker.1, ?_⟩
    rw [Function.update_self]
    exact hworker.2
  rcases h with hin | ⟨u, hu, hhas⟩
  · exact hmine (harmed hin)
  · by_cases hut : u = t
    · rw [hut] at hhas
      exact hmine (hpipe hhas)
    · refine .inr ⟨u, hu, ?_⟩
      rw [Function.update_of_ne hut]
      exact hhas

structure PipeInv (n : Nat) (s : Process) : Prop extends ListInv s where
  phases : ∀ t, PhaseSafe n t s.messenger.wakeThreadPipeFd (s.threads t)
  pipeHeld : PipeHeld n s.messenger.wakeThreadPipeFd s.messenger.armed s.threads

/-- The thread is at the pipe, or has left its loop. -/
def Phase.Through : Phase → Prop
  | .woken _ => True
  | .stopped => True
  | _ => False

/-- The pipe is left alone, and the threads that are through with it. -/
structure Undisturbed (s s' : Process) : Prop where
  fd : s'.messenger.wakeThreadPipeFd = s.messenger.wakeThreadPipeFd
  pipe : s'.messenger.wakeThreadPipe = s.messenger.wakeThreadPipe
  through : ∀ t, (s.threads t).Through → s'.threads t = s.threads t
  stopped : ∀ t, s'.threads t = .stopped → s.threads t = .stopped

theorem undisturbed_move {s s' : Process} {t : Nat} {p phase : Phase}
    (hphase : s.threads t = p) (hthreads : s'.threads = Function.update s.threads t phase)
    (hp : ¬p.Through) (hnot : phase ≠ .stopped)
    (hfd : s'.messenger.wakeThreadPipeFd = s.messenger.wakeThreadPipeFd)
    (hpipe : s'.messenger.wakeThreadPipe = s.messenger.wakeThreadPipe) : Undisturbed s s' where
  fd := hfd
  pipe := hpipe
  through u hu := by
    have hne : u ≠ t := by
      intro heq
      rw [heq, hphase] at hu
      exact hp hu
    rw [hthreads, Function.update_of_ne hne]
  stopped u hu := by
    rw [hthreads] at hu
    by_cases hut : u = t
    · rw [hut, Function.update_self] at hu
      exact absurd hu hnot
    · rw [Function.update_of_ne hut] at hu
      exact hu

theorem resume_safe (n t : Nat) (fd : Int32) (next : Option Delivery) :
    PhaseSafe n t fd (.resume next) := by
  cases next <;> exact trivial

theorem resume_not_through (next : Option Delivery) : ¬(Phase.resume next).Through := by
  cases next <;> exact id

theorem armed_waitForNextMsg {messenger : Messenger} {fd fd' : Int32} {ctl : Int}
    (h : fd ∈ messenger.armed) : fd ∈ (waitForNextMsg messenger fd' ctl).2.armed := by
  show fd ∈ if ctl = 0 then fd' :: messenger.armed else messenger.armed
  split
  · exact List.mem_cons_of_mem _ h
  · exact h

/-- A descriptor other than that of the pipe goes. -/
theorem armed_filter {armed : List Int32} {fd fd' : Int32} (h : fd ∈ armed) (hne : fd' ≠ fd) :
    fd ∈ armed.filter (· ≠ fd') :=
  List.mem_filter.mpr ⟨h, decide_eq_true (Ne.symm hne)⟩

namespace PipeInv

variable {n t : Nat} {s s' : Process} {p phase : Phase}

theorem of_move (h : PipeInv n s) (hlist : ListInv s')
    (hthreads : s'.threads = Function.update s.threads t phase)
    (hfd : s'.messenger.wakeThreadPipeFd = s.messenger.wakeThreadPipeFd)
    (hsafe : PhaseSafe n t s.messenger.wakeThreadPipeFd phase)
    (hheld : PipeHeld n s.messenger.wakeThreadPipeFd s'.messenger.armed
      (Function.update s.threads t phase)) : PipeInv n s' where
  toListInv := hlist
  phases := by
    rw [hfd, hthreads]
    exact (Function.forall_update_iff s.threads fun u p => PhaseSafe n u _ p).mpr
      ⟨hsafe, fun u _ => h.phases u⟩
  pipeHeld := by
    rw [hfd, hthreads]
    exact hheld

/-- A thread that has no event of the pipe moves on. -/
theorem aside (h : PipeInv n s) (hphase : s.threads t = p)
    (hthreads : s'.threads = Function.update s.threads t phase)
    (hp : ¬p.HasPipe s.messenger.wakeThreadPipeFd) (hthrough : ¬p.Through)
    (hnot : ¬phase.Through) (hlist : ListInv s')
    (hfd : s'.messenger.wakeThreadPipeFd = s.messenger.wakeThreadPipeFd)
    (hpipe : s'.messenger.wakeThreadPipe = s.messenger.wakeThreadPipe)
    (hsafe : PhaseSafe n t s.messenger.wakeThreadPipeFd phase)
    (harmed : s.messenger.wakeThreadPipeFd ∈ s.messenger.armed →
      s.messenger.wakeThreadPipeFd ∈ s'.messenger.armed) :
    PipeInv n s' ∧ Undisturbed s s' := by
  have hgoes : phase ≠ .stopped := by
    intro hstopped
    rw [hstopped] at hnot
    exact hnot trivial
  refine ⟨h.of_move hlist hthreads hfd hsafe ?_,
    undisturbed_move hphase hthreads hthrough hgoes hfd hpipe⟩
  refine h.pipeHeld.move (fun hin => .inl (harmed hin)) fun hhas => ?_
  rw [hphase] at hhas
  exact absurd hhas hp

/-- A worker takes an event. -/
theorem wait (h : PipeInv n s) {event : EpollEvent} (hphase : s.threads t = .free)
    (hworker : IsWorker n t)
    (hgood : event.fd = s.messenger.wakeThreadPipeFd → isConnErr event = false) :
    PipeInv n { s.move t (.reported event) with messenger := disarm s.messenger event.fd }
      ∧ Undisturbed s
        { s.move t (.reported event) with messenger := disarm s.messenger event.fd } := by
  refine ⟨h.of_move (h.toListInv.move rfl rfl rfl rfl) rfl rfl ⟨hworker, hgood⟩ ?_,
    undisturbed_move hphase rfl id (fun h => by cases h) rfl rfl⟩
  refine h.pipeHeld.move (fun hin => ?_) fun hhas => ?_
  · by_cases hfd : event.fd = s.messenger.wakeThreadPipeFd
    · exact .inr ⟨hworker, hfd⟩
    · exact .inl (armed_filter hin hfd)
  · rw [hphase] at hhas
    cases hhas

/-- The connection of the pipe is found by its descriptor. -/
theorem getConnByFd (h : ListInv s) : ∃ conn,
    messengerGetConnByFd s.messenger s.messenger.wakeThreadPipeFd = some conn := by
  obtain ⟨conn, hmem, hkey⟩ := List.mem_map.mp h.pipe
  cases hfind : messengerGetConnByFd s.messenger s.messenger.wakeThreadPipeFd with
  | some conn => exact ⟨conn, rfl⟩
  | none =>
      have hnone := List.find?_eq_none.mp hfind conn hmem
      exact absurd (decide_eq_true (Prod.mk.inj hkey).1) hnone

/-- A thread that has no event of the pipe moves on, and does no more. -/
theorem goesOn (h : PipeInv n s) (hphase : s.threads t = p)
    (hp : ¬p.HasPipe s.messenger.wakeThreadPipeFd) (hthrough : ¬p.Through)
    (hnot : ¬phase.Through) (hholds : phase.holds = none)
    (hsafe : PhaseSafe n t s.messenger.wakeThreadPipeFd phase) :
    PipeInv n (s.move t phase) ∧ Undisturbed s (s.move t phase) :=
  h.aside hphase rfl hp hthrough hnot (h.toListInv.move hholds rfl rfl rfl) rfl rfl hsafe id

/-- An event whose connection is not found is none of the pipe. -/
theorem ne_pipe_of_missing (h : ListInv s) {fd : Int32}
    (hfind : messengerGetConnByFd s.messenger fd = none) :
    fd ≠ s.messenger.wakeThreadPipeFd := by
  obtain ⟨conn, hpipe⟩ := getConnByFd h
  intro hfd
  rw [hfd, hpipe] at hfind
  cases hfind

/-- The connection of another descriptor is another one. -/
theorem other_of_found (h : ListInv s) {fd : Int32} {conn : Connection}
    (hfind : messengerGetConnByFd s.messenger fd = some conn)
    (hfd : fd ≠ s.messenger.wakeThreadPipeFd) : Other conn.id := by
  have hfind : s.messenger.connList.find? (fun conn : Connection => conn.fd = fd)
    = some conn := hfind
  have hfd' : conn.fd = fd := of_decide_eq_true
    (List.find?_some (p := fun conn : Connection => decide (conn.fd = fd)) hfind)
  have hmem : (conn.fd, conn.id) ∈ s.messenger.keys :=
    List.mem_map.mpr ⟨conn, List.mem_of_find?_eq_some hfind, rfl⟩
  apply h.other hmem
  rw [hfd']
  exact hfd

/-- The event of the pipe is looked up. -/
theorem woken (h : PipeInv n s) {event : EpollEvent} (hphase : s.threads t = .reported event)
    (hfd : event.fd = s.messenger.wakeThreadPipeFd) :
    PipeInv n (s.move t (.woken event.fd)) ∧ Undisturbed s (s.move t (.woken event.fd)) := by
  have hsafe := h.phases t
  rw [hphase] at hsafe
  obtain ⟨hworker, -⟩ := hsafe
  refine ⟨h.of_move (h.toListInv.move rfl rfl rfl rfl) rfl rfl ⟨hworker, hfd⟩ ?_,
    undisturbed_move hphase rfl id (fun h => by cases h) rfl rfl⟩
  exact h.pipeHeld.move .inl fun _ => .inr ⟨hworker, hfd⟩

/-- A message is sent, or not. -/
theorem sent (h : PipeInv n s) (hphase : s.threads t = .free) {connId : Int64} {msg : Msg}
    {out out' : Outbox} {ret : Int} {messenger : Messenger}
    (hrun : messengerTrySendMsg s.messenger connId msg out = .ok ((ret, messenger), out'))
    (hholds : phase.holds = none) (hnot : ¬phase.Through)
    (hsafe : PhaseSafe n t s.messenger.wakeThreadPipeFd phase) :
    PipeInv n { s.move t phase with messenger := messenger }
      ∧ Undisturbed s { s.move t phase with messenger := messenger } := by
  have hkeys := ProcessInv.keys_trySendMsg hrun
  have hsame : messenger.wakeThreadPipeFd = s.messenger.wakeThreadPipeFd
      ∧ messenger.nextConnId = s.messenger.nextConnId
      ∧ messenger.wakeThreadPipe = s.messenger.wakeThreadPipe
      ∧ messenger.armed = s.messenger.armed := by
    rcases ProcessInv.trySendMsg_messenger hrun with rfl | ⟨id, state, rfl⟩
    · exact ⟨rfl, rfl, rfl, rfl⟩
    · exact ⟨rfl, rfl, rfl, rfl⟩
  obtain ⟨hfd, hnext, hpipe, harmed⟩ := hsame
  have hin : s.messenger.wakeThreadPipeFd ∈ s.messenger.armed →
      s.messenger.wakeThreadPipeFd ∈ messenger.armed := by
    rw [harmed]
    exact id
  exact h.aside hphase rfl id id hnot (h.toListInv.move hholds hkeys hfd hnext) hfd hpipe hsafe hin

/-- The messenger that a read leaves is the one it found. -/
theorem taken (h : PipeInv n s) {fd : Int32} {connId : Int64} {got : List Arrival}
    {bytes : List (UInt8 × Nat)} (hphase : s.threads t = .reading fd connId got bytes)
    {allocs : Allocs} {msg : Msg} {messenger : Messenger} {inbox : Inbox}
    (hrun : messengerReadMsg s.messenger connId ⟨got, allocs⟩
      = .ok ((some msg, messenger), inbox)) {delivery : Delivery} :
    PipeInv n { s.move t (.taken fd delivery) with messenger := messenger }
      ∧ Undisturbed s { s.move t (.taken fd delivery) with messenger := messenger } := by
  cases readMsg_outcome s.messenger connId ⟨got, allocs⟩ with
  | message msg' inbox' hrun' htaken hwire =>
      rw [hrun] at hrun'
      cases hrun'
      exact h.goesOn hphase id id id rfl trivial
  | closed inbox' hrun' => rw [hrun] at hrun'; cases hrun'
  | kept inbox' hrun' => rw [hrun] at hrun'; cases hrun'
  | crash e hrun' => rw [hrun] at hrun'; cases hrun'

/-- A connection other than that of the pipe leaves the list. -/
theorem unlinked (h : PipeInv n s) {connId : Int64} {next : Option Delivery}
    (hphase : s.threads t = .closing connId next) {conn : Connection} {messenger : Messenger}
    (hunlink : messengerUnlinkConn s.messenger connId = some (conn, messenger)) :
    PipeInv n { s.move t (.unlinked conn next) with messenger := messenger }
      ∧ Undisturbed s { s.move t (.unlinked conn next) with messenger := messenger } := by
  have hother : Other connId := by
    have hsafe := h.phases t
    rw [hphase] at hsafe
    exact hsafe
  obtain ⟨hne, hlist⟩ := h.toListInv.unlink hother hunlink
  obtain ⟨conn', -, heq⟩ := Option.map_eq_some_iff.mp hunlink
  cases heq
  exact h.aside hphase rfl id id id hlist rfl rfl hne id

end PipeInv

/-- What a step that the pipe does not make may be. -/
theorem runStep_eq_some {n : Nat} {s s' : Stopping} {act : ProcessAct}
    (h : runStep n s act = some s') :
    ∃ process, processStep s.process act = some process ∧ s' = { s with process }
      ∧ (∀ t event, act = .wait t event → IsWorker n t) ∧ ∀ t ctl, act ≠ .wake t ctl := by
  have hmap : (processStep s.process act).map (fun process => { s with process }) = some s' →
      ∃ process, processStep s.process act = some process ∧ s' = { s with process } := by
    intro hsome
    obtain ⟨process, hprocess, rfl⟩ := Option.map_eq_some_iff.mp hsome
    exact ⟨process, hprocess, rfl⟩
  cases act with
  | wait t event =>
      simp only [runStep] at h
      split at h
      · rename_i hworker
        obtain ⟨process, hprocess, heq⟩ := hmap h
        refine ⟨process, hprocess, heq, ?_, ?_⟩
        · intro t' event' hwait
          cases hwait
          exact hworker
        · intro t' ctl hwake
          cases hwake
      · cases h
  | wake t ctl => cases h
  | _ =>
      obtain ⟨process, hprocess, heq⟩ := hmap h
      refine ⟨process, hprocess, heq, ?_, ?_⟩
      · intro t event hwait
        cases hwait
      · intro t ctl hwake
        cases hwake

/-- A step that the pipe does not make. -/
theorem runStep_pipe {n : Nat} {s s' : Stopping} {act : ProcessAct} (h : PipeInv n s.process)
    (hgood : TrafficOk s (.run act)) (hstep : runStep n s act = some s') :
    ∃ process, s' = { s with process } ∧ PipeInv n process ∧ Undisturbed s.process process := by
  obtain ⟨process, hprocess, heq, hworker, hwake⟩ := runStep_eq_some hstep
  refine ⟨process, heq, ?_⟩
  cases processStep_done hprocess with
  | opened t host port fd hat hclosed =>
      exact h.aside hat rfl id id id (h.toListInv.openSocket hclosed hgood) rfl rfl trivial id
  | listed t state host port fd socket hat hsocket =>
      exact h.aside hat rfl id id id (h.toListInv.listConn hat socket) rfl rfl trivial id
  | registered t ctl fd connId hat =>
      have hctl : ctl = 0 := hgood
      subst hctl
      exact h.aside hat rfl id id id (h.toListInv.move rfl rfl rfl rfl) rfl rfl trivial
        armed_waitForNextMsg
  | waited t event hat => exact h.wait hat (hworker t event rfl) fun hfd => (hgood hfd).2
  | gone t event hat hfind =>
      exact h.goesOn hat (PipeInv.ne_pipe_of_missing h.toListInv hfind) id id rfl trivial
  | failed t event conn hat hfind herr =>
      have hsafe := h.phases t
      rw [hat] at hsafe
      have hfd : event.fd ≠ s.process.messenger.wakeThreadPipeFd := by
        intro hfd
        rw [hsafe.2 hfd] at herr
        cases herr
      exact h.goesOn hat hfd id id rfl (PipeInv.other_of_found h.toListInv hfind hfd)
  | woken t event hat hfd => exact h.woken hat hfd
  | reads t event conn hat hfind hfd =>
      exact h.goesOn hat hfd id id rfl (PipeInv.other_of_found h.toListInv hfind hfd)
  | stopped t ctl fd messenger inbox hat hrun => exact absurd rfl (hwake t ctl)
  | received t chunk fd connId got bytes socket hat hsocket =>
      have hother := h.phases t
      rw [hat] at hother
      exact h.goesOn hat id id id rfl hother
  | unreceived t errno fd connId got bytes hat =>
      have hother := h.phases t
      rw [hat] at hother
      exact h.goesOn hat id id id rfl hother
  | taken t allocs fd connId got bytes msg messenger inbox hat hrun => exact h.taken hat hrun
  | unread t allocs fd connId got bytes hat => exact h.goesOn hat id id id rfl trivial
  | cut t allocs fd connId got bytes hat =>
      have hother := h.phases t
      rw [hat] at hother
      exact h.goesOn hat id id id rfl hother
  | rearmed t ctl fd delivery hat =>
      have hctl : ctl = 0 := hgood
      subst hctl
      exact h.aside hat rfl id id id (h.toListInv.move rfl rfl rfl rfl) rfl rfl trivial
        armed_waitForNextMsg
  | processed t delivery hat =>
      have hlist : ListInv (s.process.move t .free) := h.toListInv.move rfl rfl rfl rfl
      exact h.aside hat rfl id id id { hlist with } rfl rfl trivial id
  | sent t connId msg out ret messenger out' hat hrun =>
      by_cases hret : ret = CCEPH_ERR_WRITE_CONN_ERR
      · simp only [if_pos hret]
        exact h.sent hat hrun rfl id hgood
      · simp only [if_neg hret]
        exact h.sent hat hrun rfl id trivial
  | closes t connId hat => exact h.goesOn hat id id id rfl hgood
  | missing t connId next hat =>
      exact h.goesOn hat id id (resume_not_through next) (resume_holds next) (resume_safe ..)
  | unlinked t connId next conn messenger hat hunlink => exact h.unlinked hat hunlink
  | shut t conn next hat =>
      have hne := h.phases t
      rw [hat] at hne
      exact h.aside hat rfl id id (resume_not_through next) (h.toListInv.shut hat) rfl rfl
        (resume_safe ..) (armed_filter · hne)

-- ============================================================ the counts

/-- `written` is the number of rounds that `cceph_messenger_stop` has made. -/
def StopPoint.Told (n written : Nat) : StopPoint → Prop
  | .out => written = 0
  | .writing i => written = i ∧ i ≤ n
  | .joining _ => written = n
  | .done => written = n

theorem StopPoint.Told.le {n written : Nat} {point : StopPoint} (h : point.Told n written) :
    written ≤ n := by
  cases point with
  | out => exact Nat.le_trans (Nat.le_of_eq h) (Nat.zero_le n)
  | writing i => exact Nat.le_trans (Nat.le_of_eq h.1) h.2
  | joining i => exact Nat.le_of_eq h
  | done => exact Nat.le_of_eq h

structure StopInv (n : Nat) (s : Stopping) : Prop where
  process : PipeInv n s.process
  ops : ∀ op ∈ s.messenger.wakeThreadPipe, op = CCEPH_MESSENGER_OP_STOP
  count : s.written = s.messenger.wakeThreadPipe.length + s.readers.length
  told : s.stop.Told n s.written
  once : s.readers.Nodup
  readers : ∀ t ∈ s.readers, IsWorker n t
    ∧ (s.rearming t = true ∧ (∃ fd, s.process.threads t = .woken fd)
      ∨ s.process.threads t = .stopped)
  rearming : ∀ t, s.rearming t = true → t ∈ s.readers
  stopped : ∀ t, s.process.threads t = .stopped → t ∈ s.readers

namespace StopInv

variable {n t : Nat} {s s' : Stopping}

theorem run (h : StopInv n s) {act : ProcessAct} (hgood : TrafficOk s (.run act))
    (hstep : runStep n s act = some s') : StopInv n s' := by
  obtain ⟨process, rfl, hprocess, hundisturbed⟩ := runStep_pipe h.process hgood hstep
  have hpipe : process.messenger.wakeThreadPipe = s.messenger.wakeThreadPipe := hundisturbed.pipe
  exact
    { process := hprocess
      ops := by
        show ∀ op ∈ process.messenger.wakeThreadPipe, op = _
        rw [hpipe]
        exact h.ops
      count := by
        show s.written = process.messenger.wakeThreadPipe.length + s.readers.length
        rw [hpipe]
        exact h.count
      told := h.told
      once := h.once
      readers := by
        intro t ht
        obtain ⟨hworker, hcase⟩ := h.readers t ht
        have hthrough : (s.process.threads t).Through := by
          rcases hcase with ⟨-, fd, hwoken⟩ | hstopped
          · rw [hwoken]
            exact trivial
          · rw [hstopped]
            exact trivial
        have hsame := hundisturbed.through t hthrough
        show IsWorker n t ∧ (s.rearming t = true ∧ (∃ fd, process.threads t = .woken fd)
          ∨ process.threads t = .stopped)
        rw [hsame]
        exact ⟨hworker, hcase⟩
      rearming := h.rearming
      stopped := fun t ht => h.stopped t (hundisturbed.stopped t ht) }

/-- A worker reads a byte. -/
theorem readPipe (h : StopInv n s) (hstep : stoppingStep n s (.readPipe t) = some s') :
    StopInv n s' := by
  simp only [stoppingStep] at hstep
  split at hstep
  · rename_i fd hphase hnot
    split at hstep
    · rename_i messenger inbox hrun
      cases hstep
      obtain ⟨rest, hpipe, rfl⟩ := startEpollRead_run hrun
      have hworker : IsWorker n t := by
        have hsafe := h.process.phases t
        rw [hphase] at hsafe
        exact hsafe.1
      have hfresh : t ∉ s.readers := by
        intro hmem
        rcases (h.readers t hmem).2 with ⟨hrearming, -⟩ | hstopped
        · rw [hnot] at hrearming
          cases hrearming
        · rw [hphase] at hstopped
          cases hstopped
      have hprocess : PipeInv n { s.process with
          messenger := { s.messenger with wakeThreadPipe := rest } } :=
        { h.process with }
      exact
        { process := hprocess
          ops := fun op hop => h.ops op (by rw [hpipe]; exact List.mem_cons_of_mem _ hop)
          count := by
            have hcount := h.count
            rw [hpipe, List.length_cons] at hcount
            show s.written = rest.length + (t :: s.readers).length
            rw [List.length_cons]
            omega
          told := h.told
          once := List.nodup_cons.mpr ⟨hfresh, h.once⟩
          readers := by
            refine List.forall_mem_cons.mpr ⟨⟨hworker, .inl ⟨?_, fd, hphase⟩⟩, fun u hu => ?_⟩
            · exact Function.update_self ..
            · have hne : u ≠ t := fun heq => hfresh (heq ▸ hu)
              show IsWorker n u ∧ (Function.update s.rearming t true u = true ∧ _ ∨ _)
              rw [Function.update_of_ne hne]
              exact h.readers u hu
          rearming := by
            intro u hu
            by_cases hut : u = t
            · rw [hut]
              exact List.mem_cons_self
            · have hu : Function.update s.rearming t true u = true := hu
              rw [Function.update_of_ne hut] at hu
              exact List.mem_cons_of_mem _ (h.rearming u hu)
          stopped := fun u hu => List.mem_cons_of_mem _ (h.stopped u hu) }
    · cases hstep
  · cases hstep

/-- A worker arms the pipe again, and leaves its loop. -/
theorem rearmPipe (h : StopInv n s) {ctl : Int}
    (hstep : stoppingStep n s (.rearmPipe t ctl) = some s') : StopInv n s' := by
  simp only [stoppingStep] at hstep
  split at hstep
  · rename_i fd hphase hrearming
    split at hstep
    · rename_i handled inbox hrun
      cases hstep
      obtain ⟨-, hmessenger⟩ := startEpollRearm_run hrun
      have hfd : fd = s.process.messenger.wakeThreadPipeFd := by
        have hsafe := h.process.phases t
        rw [hphase] at hsafe
        exact hsafe.2
      have hlist : ListInv { s.process.move t .stopped with messenger := handled.messenger } := by
        rw [hmessenger]
        exact h.process.toListInv.move rfl rfl rfl rfl
      have hprocess : PipeInv n
          { s.process.move t .stopped with messenger := handled.messenger } := by
        refine h.process.of_move hlist rfl (by rw [hmessenger]; rfl) trivial (.inl ?_)
        show _ ∈ handled.messenger.armed
        rw [hmessenger, hfd]
        exact List.mem_cons_self
      have hpipe : handled.messenger.wakeThreadPipe = s.messenger.wakeThreadPipe := by
        rw [hmessenger]
      exact
        { process := hprocess
          ops := by
            show ∀ op ∈ handled.messenger.wakeThreadPipe, op = _
            rw [hpipe]
            exact h.ops
          count := by
            show s.written = handled.messenger.wakeThreadPipe.length + s.readers.length
            rw [hpipe]
            exact h.count
          told := h.told
          once := h.once
          readers := by
            intro u hu
            show IsWorker n u ∧ (s.rearming u = true
              ∧ (∃ fd, Function.update s.process.threads t .stopped u = .woken fd)
              ∨ Function.update s.process.threads t .stopped u = .stopped)
            by_cases hut : u = t
            · rw [hut, Function.update_self]
              exact ⟨(h.readers t (hut ▸ hu)).1, .inr rfl⟩
            · rw [Function.update_of_ne hut]
              exact h.readers u hu
          rearming := h.rearming
          stopped := by
            intro u hu
            by_cases hut : u = t
            · rw [hut]
              exact h.rearming t hrearming
            · have hu : Function.update s.process.threads t .stopped u = .stopped := hu
              rw [Function.update_of_ne hut] at hu
              exact h.stopped u hu }
    · cases hstep
  · cases hstep

/-- A step of `cceph_messenger_stop`. -/
theorem stop (h : StopInv n s) (hstep : stopStep n s s.stop = some s') : StopInv n s' := by
  have htold := h.told
  have hcount := h.count
  generalize s.stop = point at htold hstep
  cases point with
  | out =>
      simp only [stopStep] at hstep
      split at hstep
      · cases hstep
        exact { h with told := ⟨htold, Nat.zero_le n⟩ }
      · cases hstep
  | writing i =>
      simp only [stopStep] at hstep
      split at hstep
      · rename_i hlt
        cases hstep
        exact
          { process := { h.process with }
            ops := by
              intro op hop
              rcases List.mem_append.mp hop with hop | hop
              · exact h.ops op hop
              · exact List.mem_singleton.mp hop
            count := by
              show s.written + 1
                = (s.messenger.wakeThreadPipe ++ [CCEPH_MESSENGER_OP_STOP]).length
                  + s.readers.length
              rw [List.length_append, List.length_singleton]
              omega
            told := ⟨by rw [htold.1], hlt⟩
            once := h.once
            readers := h.readers
            rearming := h.rearming
            stopped := h.stopped }
      · cases hstep
        have hall : s.written = n := by
          have hle := htold.2
          rw [htold.1]
          omega
        exact { h with told := hall }
  | joining i =>
      simp only [stopStep] at hstep
      split at hstep
      · split at hstep
        · cases hstep
          exact { h with told := htold }
        · cases hstep
      · cases hstep
        exact
          { h with
            process := { h.process with }
            told := htold }
  | done => cases hstep

theorem step (h : StopInv n s) {act : StopAct} (hgood : TrafficOk s act)
    (hstep : stoppingStep n s act = some s') : StopInv n s' := by
  cases act with
  | run act => exact h.run hgood hstep
  | readPipe t => exact h.readPipe hstep
  | rearmPipe t ctl => exact h.rearmPipe hstep
  | stop => exact h.stop hstep

end StopInv

-- ================================================================ a run

/-- The process at the end of `cceph_messenger_start`. -/
theorem started_process {fd state : Int32} {process : Process}
    (h : processSystem.exec (processStart fd) [.listConn 0 state, .register 0 0]
      = some process) :
    process.messenger = { messengerNew fd with
        state := CCEPH_MESSENGER_STATE_NORMAL
        nextConnId := wakeThreadPipeId
        connList := [⟨wakeThreadPipeId, wakeThreadPipeHost, 0, fd, state⟩]
        armed := [fd] }
      ∧ process.sockets = Function.update (fun _ => none) fd (some 0)
      ∧ ∀ t, process.threads t = .free := by
  have hsocket : (processStart fd).sockets fd = some 0 :=
    Function.update_self (f := fun _ => none) ..
  obtain ⟨listed, hlist, h⟩ := Option.bind_eq_some_iff.mp h
  obtain ⟨registered, hregister, h⟩ := Option.bind_eq_some_iff.mp h
  cases h
  have hlist : ((processStart fd).sockets fd).map _ = some listed := hlist
  rw [hsocket] at hlist
  cases hlist
  cases hregister
  refine ⟨rfl, rfl, fun t => ?_⟩
  by_cases ht : t = 0
  · rw [ht]
    rfl
  · show Function.update (Function.update (processStart fd).threads 0 _) 0 _ t = _
    rw [Function.update_of_ne ht, Function.update_of_ne ht]
    exact processStart_threads fd ht

theorem StopInv.start {n : Nat} {fd state : Int32} {process : Process} (hfd : 0 ≤ fd)
    (h : processSystem.exec (processStart fd) [.listConn 0 state, .register 0 0]
      = some process) : StopInv n ⟨process, .out, fun _ => false, 0, []⟩ := by
  obtain ⟨hmessenger, hsockets, hthreads⟩ := started_process h
  have hkeys : process.messenger.keys = [(fd, wakeThreadPipeId)] := by
    rw [hmessenger]
    rfl
  have hpipe : process.messenger.wakeThreadPipeFd = fd := by
    rw [hmessenger]
    rfl
  have hnext : process.messenger.nextConnId = wakeThreadPipeId := by
    rw [hmessenger]
  have hopen : process.sockets fd ≠ none := by
    rw [hsockets, Function.update_self]
    exact Option.some_ne_none 0
  have hnone : ∀ t fd', (process.threads t).holds ≠ some fd' := by
    intro t fd' hheld
    rw [hthreads t] at hheld
    cases hheld
  have hlist : ListInv process :=
    { holders := by
        rw [hkeys]
        exact
          { fds := List.pairwise_singleton ..
            apart := fun t fd' ht => absurd ht (hnone t fd')
            alone := fun t u fd' ht => absurd ht (hnone t fd') }
      listed := by
        rw [hkeys]
        exact List.forall_mem_singleton.mpr hopen
      held := fun t fd' ht => absurd ht (hnone t fd')
      fds := by
        intro fd' hopen'
        by_cases heq : fd' = fd
        · rw [heq]
          exact hfd
        · rw [hsockets, Function.update_of_ne heq] at hopen'
          exact absurd rfl hopen'
      pipe := by
        rw [hkeys, hpipe]
        exact List.mem_singleton_self _
      ids := by
        rw [hkeys, hpipe]
        exact List.forall_mem_singleton.mpr fun hne => absurd rfl hne
      kept := by
        intro k hlow hhigh
        rw [hnext] at hhigh
        have htwo : wakeThreadPipeId.toInt = 2 := rfl
        omega
      next := by
        rw [hnext]
        decide }
  refine ⟨⟨hlist, fun t => ?_, .inl ?_⟩, ?_, ?_, rfl, List.nodup_nil, nofun, nofun, fun t ht => ?_⟩
  · rw [hthreads t]
    exact trivial
  · rw [hpipe, hmessenger]
    exact List.mem_singleton_self _
  · show ∀ op ∈ process.messenger.wakeThreadPipe, op = _
    rw [hmessenger]
    nofun
  · show 0 = process.messenger.wakeThreadPipe.length + 0
    rw [hmessenger]
    rfl
  · have ht : process.threads t = .stopped := ht
    rw [hthreads t] at ht
    cases ht

theorem StopInv.reached {n : Nat} {s : Stopping} (h : (stoppingSystem n).Reached TrafficOk s) :
    StopInv n s := by
  refine h.invariant (I := StopInv n) ?_ fun _ _ _ hs hgood hstep => hs.step hgood hstep
  intro s hinit
  obtain ⟨fd, state, process, hfd, hprocess, rfl⟩ := hinit
  exact .start hfd hprocess

namespace StopInv

variable {n t : Nat} {s : Stopping}

/-- A byte is left: not all workers have read one. -/
theorem some_left (h : StopInv n s) (hpipe : s.messenger.wakeThreadPipe ≠ []) :
    ∃ t, IsWorker n t ∧ s.process.threads t ≠ .stopped := by
  by_contra hnone
  have hall : ∀ t ∈ (List.range n).map (· + 1), t ∈ s.readers := by
    intro t ht
    obtain ⟨i, hi, rfl⟩ := List.mem_map.mp ht
    apply h.stopped
    by_contra hrun
    exact hnone ⟨i + 1, ⟨Nat.succ_pos i, List.mem_range.mp hi⟩, hrun⟩
  have hnodup : ((List.range n).map (· + 1)).Nodup :=
    List.nodup_range.map fun _ _ heq => Nat.succ_injective heq
  have hle := (List.subperm_of_subset hnodup hall).length_le
  rw [List.length_map, List.length_range] at hle
  have hcount := h.count
  have htold := h.told.le
  exact hpipe (List.eq_nil_of_length_eq_zero (by omega))

/-- The first two steps of taking the pipe. -/
theorem comes_to_pipe (h : StopInv n s)
    (harmed : s.messenger.wakeThreadPipeFd ∈ s.messenger.armed) (hworker : IsWorker n t)
    (hfree : s.process.threads t = .free) : ∃ process,
      (stoppingSystem n).exec s [.run (.wait t ⟨EPOLLIN, s.messenger.wakeThreadPipeFd⟩),
          .run (.lookup t)] = some { s with process }
        ∧ process.messenger.wakeThreadPipe = s.messenger.wakeThreadPipe
        ∧ process.threads t = .woken s.messenger.wakeThreadPipeFd := by
  obtain ⟨conn, hfind⟩ := PipeInv.getConnByFd h.process.toListInv
  let event : EpollEvent := ⟨EPOLLIN, s.messenger.wakeThreadPipeFd⟩
  let reported : Process := { s.process.move t (.reported event) with
    messenger := disarm s.messenger s.messenger.wakeThreadPipeFd }
  have hreported : reported.threads t = .reported event := move_threads ..
  have hwait : stoppingStep n s (.run (.wait t event)) = some { s with process := reported } := by
    have hin : event.fd ∈ s.process.messenger.armed := harmed
    have hstep : processStep s.process (.wait t event) = some reported := by
      simp only [processStep, hfree, if_pos hin]
      rfl
    simp only [stoppingStep, runStep, if_pos hworker, hstep]
    rfl
  let woken : Process := reported.move t (.woken s.messenger.wakeThreadPipeFd)
  have hlookup : stoppingStep n { s with process := reported } (.run (.lookup t))
      = some { s with process := woken } := by
    have hconn : messengerGetConnByFd reported.messenger event.fd = some conn := hfind
    have hfd : event.fd = reported.messenger.wakeThreadPipeFd := rfl
    have herr : ¬isConnErr event = true := by
      show ¬isConnErr ⟨EPOLLIN, 0⟩ = true
      decide
    have hstep : processStep reported (.lookup t) = some woken := by
      simp only [processStep, hreported, hconn, if_neg herr, if_pos hfd]
      rfl
    simp only [stoppingStep, runStep, hstep]
    rfl
  refine ⟨woken, ?_, rfl, move_threads ..⟩
  show (stoppingStep n s (.run (.wait t event))).bind _ = _
  rw [hwait]
  show (stoppingStep n { s with process := reported } (.run (.lookup t))).bind _ = _
  rw [hlookup]
  rfl

/-- A worker that waits can be given the event, and reads a byte. -/
theorem takes (h : StopInv n s) (hpipe : s.messenger.wakeThreadPipe ≠ [])
    (harmed : s.messenger.wakeThreadPipeFd ∈ s.messenger.armed) (hworker : IsWorker n t)
    (hfree : s.process.threads t = .free) : ∃ s',
      (stoppingSystem n).exec s (takePipe t s.messenger.wakeThreadPipeFd) = some s'
        ∧ s'.readers = t :: s.readers := by
  obtain ⟨op, rest, hbytes⟩ := List.exists_cons_of_ne_nil hpipe
  have hop : op = CCEPH_MESSENGER_OP_STOP := h.ops op (by rw [hbytes]; exact List.mem_cons_self)
  have hnot : s.rearming t = false := by
    by_contra hrearming
    have hmem := h.rearming t ((Bool.not_eq_false _).mp hrearming)
    rcases (h.readers t hmem).2 with ⟨-, fd, hwoken⟩ | hstopped
    · rw [hfree] at hwoken
      cases hwoken
    · rw [hfree] at hstopped
      cases hstopped
  obtain ⟨process, hexec, hsame, hwoken⟩ := h.comes_to_pipe harmed hworker hfree
  have hrun : startEpollRead process.messenger ⟨[], .plenty⟩
      = .ok ({ process.messenger with wakeThreadPipe := rest }, ⟨[], .plenty⟩) := by
    unfold startEpollRead
    rw [hsame, hbytes, hop]
    rfl
  let read : Stopping :=
    { ({ s with process }).setMessenger { process.messenger with wakeThreadPipe := rest } with
      rearming := Function.update s.rearming t true
      readers := t :: s.readers }
  have hread : stoppingStep n { s with process } (.readPipe t) = some read := by
    simp only [stoppingStep, hwoken, hnot, Stopping.messenger, hrun]
    rfl
  refine ⟨read, ?_, rfl⟩
  show (stoppingSystem n).exec s ([.run (.wait t ⟨EPOLLIN, s.messenger.wakeThreadPipeFd⟩),
    .run (.lookup t)] ++ [.readPipe t]) = some read
  rw [System.exec_append, hexec]
  show (stoppingStep n { s with process } (.readPipe t)).bind _ = some read
  rw [hread]
  rfl

end StopInv

/-- In every run of a messenger with any number of workers that is told to
stop: what was written is what is left and what the workers have read, each
once, and a byte that is left will wake a worker. -/
theorem messengerStop_law {n : Nat} {s : Stopping}
    (h : (stoppingSystem n).Reached TrafficOk s) : StopLaw n s := by
  have hinv := StopInv.reached h
  refine ⟨hinv.ops, hinv.count, hinv.once, fun t ht => (hinv.readers t ht).1,
    fun _ => hinv.process.pipeHeld, fun hpipe hwait => ⟨?_, fun t hworker hfree => ?_⟩⟩
  · obtain ⟨t, hworker, hrun⟩ := hinv.some_left hpipe
    exact ⟨t, hworker, (hwait t hworker).resolve_right hrun⟩
  · refine hinv.takes hpipe ?_ hworker hfree
    rcases hinv.process.pipeHeld with harmed | ⟨u, hu, hhas⟩
    · exact harmed
    · rcases hwait u hu with hwaits | hstopped
      · rw [hwaits] at hhas
        exact hhas.elim
      · rw [hstopped] at hhas
        exact hhas.elim

theorem messengerStop_law_two : ∃ s, (stoppingSystem 2).Reached TrafficOk s
    ∧ s.readers = [1] ∧ s.messenger.wakeThreadPipe = [CCEPH_MESSENGER_OP_STOP]
    ∧ StopLaw 2 s := by
  have hstart : (stoppingSystem 2).Reached TrafficOk _ :=
    .start ⟨3, 1, _, by decide, rfl, rfl⟩
  have hwritten := hstart.exec [.stop, .stop, .stop] (by simp [TrafficOk]) rfl
  have hwait := hwritten.next (a := .run (.wait 1 ⟨EPOLLIN, 3⟩))
    (by
      intro _
      exact ⟨List.cons_ne_nil _ _, rfl⟩) rfl
  have hread := hwait.exec [.run (.lookup 1), .readPipe 1, .rearmPipe 1 0]
    (by simp [TrafficOk]) rfl
  exact ⟨_, hread, rfl, rfl, messengerStop_law hread⟩

end CephInC
