/-
Messages are processed under the id of the connection they came from, as
long as no descriptor is reused under a reader.

`ProcessInv` carries it: while a thread reads, its descriptor stands for
the connection it looked up, or is closed. Only a new socket on the same
descriptor could break this. Most steps move one thread and leave
descriptors alone (`ProcessInv.move`); four steps do more and have a
lemma each.

The sections of the first part put together are the functions of
`message/messenger.c`, so that a thread nobody interrupts does what they
do.
-/
import CephInC.Message.Proofs.Events
import CephInC.Message.Threads

namespace CephInC

open Lib

-- ================================================= sections, put together

theorem messengerCloseConn_sections (messenger : Messenger) (id : Int64) :
    messengerCloseConn messenger id
      = match messengerUnlinkConn messenger id with
        | none => (CCEPH_ERR_CONN_NOT_FOUND, messenger)
        | some (conn, messenger) => (0, messengerShutConn messenger conn) := by
  unfold messengerCloseConn messengerUnlinkConn
  cases messengerGetConnById messenger (connIdToInt id) <;> rfl

theorem messengerAddConn_sections (messenger : Messenger) (host : CString)
    (port fd state : Int32) (ctl : Int)
    (hnormal : messenger.state = CCEPH_MESSENGER_STATE_NORMAL) :
    messengerAddConn messenger host port fd state ctl
      = let (id, messenger) := messengerListConn messenger host port fd state
        let messenger := (waitForNextMsg messenger fd ctl).2
        .ok (if ctl < -1 then (-1, (messengerCloseConn messenger id).2)
          else (id, messenger)) := by
  unfold messengerAddConn
  rw [if_neg (by rw [hnormal]; exact fun h => h rfl)]
  by_cases hctl : ctl < -1
  · simp only [if_pos hctl]
    rfl
  · simp only [if_neg hctl]
    rfl

theorem messengerSendMsg_sections (messenger : Messenger) (connId : Int64) (msg : Msg) :
    messengerSendMsg messenger connId msg = (do
      let (ret, messenger) ← messengerTrySendMsg messenger connId msg
      return (ret, if ret = CCEPH_ERR_WRITE_CONN_ERR then
        (messengerCloseConn messenger connId).2 else messenger)) := by
  unfold messengerSendMsg messengerTrySendMsg
  by_cases hnormal : messenger.state = CCEPH_MESSENGER_STATE_NORMAL
  · rw [assert_pos hnormal, pure_bind, pure_bind]
    cases messengerGetConnById messenger (connIdToInt connId) with
    | none => rfl
    | some conn =>
        by_cases hclosed : conn.state = CCEPH_CONN_STATE_CLOSED
        · simp only [if_pos hclosed]
          rfl
        · simp only [if_neg hclosed, bind_assoc]
          congr 1
          funext ret
          by_cases hret : ret ≠ 0
          · simp only [if_pos hret]
            rfl
          · simp only [if_neg hret]
            rfl
  · rw [assert_neg hnormal]
    rfl

-- ============================================================ one thread

theorem Delivery.Right.mono {connOf connOf' : Nat → Option Int64} {delivery : Delivery}
    (hmono : ∀ k id, connOf k = some id → connOf' k = some id)
    (h : delivery.Right connOf) : delivery.Right connOf' :=
  ⟨h.1, fun b hb => hmono _ _ (h.2 b hb)⟩

theorem resume_ok {sockets : Int32 → Option Nat} {connOf : Nat → Option Int64}
    {next : Option Delivery} (h : ∀ delivery ∈ next, delivery.Right connOf) :
    PhaseOk sockets connOf (.resume next) := by
  cases next with
  | none => exact trivial
  | some delivery => exact h delivery rfl

theorem resume_holds (next : Option Delivery) : (Phase.resume next).holds = none := by
  cases next <;> rfl

/-- A failed call delivers nothing. -/
theorem deliveredBytes_failed (got : List Arrival) (errno : Int32) :
    deliveredBytes (got ++ [.failed errno]) = deliveredBytes got := by
  induction got with
  | nil =>
      show (if errno = EAGAIN then [] else []) = []
      split <;> rfl
  | cons arrival got ih =>
      cases arrival with
      | bytes chunk =>
          show chunk.bytes ++ deliveredBytes (got ++ _) = _
          rw [ih]
          rfl
      | failed errno' =>
          show (if errno' = EAGAIN then deliveredBytes (got ++ _) else []) = _
          rw [ih]
          rfl

/-- No message comes of no bytes. -/
theorem not_taken_nil : ¬Taken [] := not_afterHeader rfl _

/-- A held descriptor is open. -/
theorem open_of_holds {sockets : Int32 → Option Nat} {connOf : Nat → Option Int64}
    {phase : Phase} (hok : PhaseOk sockets connOf phase) {fd : Int32}
    (h : phase.holds = some fd) : sockets fd ≠ none := by
  cases phase with
  | opened host port fd' =>
      cases h
      obtain ⟨k, hk, -⟩ := hok
      rw [hk]
      exact Option.some_ne_none k
  | unlinked conn next =>
      cases h
      exact hok.1
  | _ => cases h

/-- What a thread holds stays as it is, and nothing new comes up under a
reader. -/
theorem PhaseOk.change {sockets sockets' : Int32 → Option Nat}
    {connOf connOf' : Nat → Option Int64} {phase : Phase}
    (hok : PhaseOk sockets connOf phase)
    (hmono : ∀ k id, connOf k = some id → connOf' k = some id)
    (hheld : ∀ fd, phase.holds = some fd → sockets' fd = sockets fd)
    (hnew : ∀ fd k, phase.holds = some fd → sockets fd = some k → connOf' k = connOf k)
    (hread : ∀ fd connId got bytes, phase = .reading fd connId got bytes →
      ∀ k, sockets' fd = some k → sockets fd = some k) :
    PhaseOk sockets' connOf' phase := by
  cases phase with
  | opened host port fd =>
      obtain ⟨k, hk, hconn⟩ := hok
      refine ⟨k, ?_, ?_⟩
      · rw [hheld fd rfl, hk]
      · rw [hnew fd k rfl hk, hconn]
  | reading fd connId got bytes =>
      obtain ⟨hbytes, hfd, hgot⟩ := hok
      refine ⟨fun b hb => hmono _ _ (hbytes b hb), ?_, hgot⟩
      exact fun k hk => hmono _ _ (hfd k (hread fd connId got bytes rfl k hk))
  | taken fd delivery => exact Delivery.Right.mono hmono hok
  | closing connId next => exact fun delivery hd => (hok delivery hd).mono hmono
  | unlinked conn next =>
      refine ⟨?_, fun delivery hd => (hok.2 delivery hd).mono hmono⟩
      rw [hheld conn.fd rfl]
      exact hok.1
  | handing delivery => exact Delivery.Right.mono hmono hok
  | _ => exact trivial

-- ======================================================== one holder each

namespace Exclusive

variable {threads : Nat → Phase} {keys : List (Int32 × Int64)}

/-- One thread moves on. What it holds now nothing else held. -/
theorem move (h : Exclusive threads keys) {t : Nat} {phase : Phase}
    (hholds : ∀ fd, phase.holds = some fd → (∀ key ∈ keys, key.1 ≠ fd)
      ∧ ∀ u, u ≠ t → (threads u).holds ≠ some fd) :
    Exclusive (Function.update threads t phase) keys where
  fds := h.fds
  apart := by
    refine (Function.forall_update_iff threads fun _ p => ∀ fd, p.holds = some fd →
      ∀ key ∈ keys, key.1 ≠ fd).mpr ⟨?_, fun u _ => h.apart u⟩
    exact fun fd hfd => (hholds fd hfd).1
  alone u v fd hu hv := by
    rcases eq_or_ne u t with rfl | hne
    · rcases eq_or_ne v u with rfl | hne'
      · rfl
      · rw [Function.update_self] at hu
        rw [Function.update_of_ne hne'] at hv
        exact absurd hv ((hholds fd hu).2 v hne')
    · rw [Function.update_of_ne hne] at hu
      rcases eq_or_ne v t with rfl | hne'
      · rw [Function.update_self] at hv
        exact absurd hu ((hholds fd hv).2 u hne)
      · rw [Function.update_of_ne hne'] at hv
        exact h.alone u v fd hu hv

/-- One thread moves on, and lets go of what it held. -/
theorem release (h : Exclusive threads keys) {t : Nat} {phase : Phase}
    (hholds : phase.holds = none) : Exclusive (Function.update threads t phase) keys := by
  apply h.move
  intro fd hfd
  rw [hholds] at hfd
  cases hfd

theorem sublist (h : Exclusive threads keys) {keys' : List (Int32 × Int64)}
    (hkeys : List.Sublist keys' keys) : Exclusive threads keys' where
  fds := h.fds.sublist hkeys
  apart t fd ht key hkey := h.apart t fd ht key (hkeys.subset hkey)
  alone := h.alone

/-- A connection is listed, on a descriptor nothing holds. -/
theorem cons (h : Exclusive threads keys) {key : Int32 × Int64}
    (hkeys : ∀ key' ∈ keys, key'.1 ≠ key.1)
    (hthreads : ∀ u, (threads u).holds ≠ some key.1) :
    Exclusive threads (key :: keys) where
  fds := List.pairwise_cons.mpr ⟨fun key' hkey' => (hkeys key' hkey').symm, h.fds⟩
  apart t fd ht key' hkey' := by
    rcases List.mem_cons.mp hkey' with rfl | hkey'
    · rintro rfl
      exact hthreads t ht
    · exact h.apart t fd ht key' hkey'
  alone := h.alone

/-- The connection a thread takes off the list is one of it. -/
theorem unlink_mem {messenger messenger' : Messenger} {connId : Int64} {conn : Connection}
    (hunlink : messengerUnlinkConn messenger connId = some (conn, messenger')) :
    (conn.fd, conn.id) ∈ messenger.keys ∧ List.Sublist messenger'.keys messenger.keys := by
  obtain ⟨conn', hfind, heq⟩ := Option.map_eq_some_iff.mp hunlink
  cases heq
  exact ⟨List.mem_map.mpr ⟨conn, List.mem_of_find?_eq_some hfind, rfl⟩,
    List.Sublist.map _ List.eraseP_sublist⟩

/-- A connection leaves the list, and its descriptor stays with the
thread. -/
theorem unlink {messenger messenger' : Messenger} (h : Exclusive threads messenger.keys)
    {connId : Int64} {conn : Connection} {t : Nat} {next : Option Delivery}
    (hunlink : messengerUnlinkConn messenger connId = some (conn, messenger')) :
    Exclusive (Function.update threads t (.unlinked conn next)) messenger'.keys := by
  obtain ⟨hmem, hsub⟩ := unlink_mem hunlink
  have hkeys : (messenger.connList.map fun conn : Connection => (conn.fd, conn.id)).Pairwise
      fun a b => a.1 ≠ b.1 := h.fds
  have hfds : messenger.connList.Pairwise fun a b => a.fd ≠ b.fd := by
    have hpairs := List.pairwise_map.mp hkeys
    exact hpairs
  apply (h.sublist hsub).move
  intro fd hfd
  cases hfd
  obtain ⟨conn', hfind, heq⟩ := Option.map_eq_some_iff.mp hunlink
  cases heq
  constructor
  · intro key hkey
    obtain ⟨c, hc, rfl⟩ := List.mem_map.mp hkey
    exact ne_of_mem_eraseP hfds hfind c hc
  · intro u _ hu
    exact h.apart u _ hu _ hmem rfl

end Exclusive

-- ============================================================ one step

/-- Where the thread of a step was, and what the step does. -/
inductive ProcessDone (s : Process) : ProcessAct → Process → Prop
  | opened (t host port fd) (hat : s.threads t = .free) (hclosed : s.sockets fd = none) :
      ProcessDone s (.openSocket t host port fd)
        { s.move t (.opened host port fd) with
          sockets := Function.update s.sockets fd (some s.opened)
          opened := s.opened + 1 }
  | listed (t state host port fd socket) (hat : s.threads t = .opened host port fd)
      (hsocket : s.sockets fd = some socket) :
      ProcessDone s (.listConn t state)
        { s.move t (.listed fd (messengerListConn s.messenger host port fd state).1) with
          messenger := (messengerListConn s.messenger host port fd state).2
          connOf := Function.update s.connOf socket
            (some (messengerListConn s.messenger host port fd state).1) }
  | registered (t ctl fd connId) (hat : s.threads t = .listed fd connId) :
      ProcessDone s (.register t ctl)
        { s.move t (if ctl < -1 then .closing connId none else .free) with
          messenger := (waitForNextMsg s.messenger fd ctl).2 }
  | waited (t event) (hat : s.threads t = .free) :
      ProcessDone s (.wait t event)
        { s.move t (.reported event) with messenger := disarm s.messenger event.fd }
  | gone (t event) (hat : s.threads t = .reported event)
      (hfind : messengerGetConnByFd s.messenger event.fd = none) :
      ProcessDone s (.lookup t) (s.move t .free)
  | failed (t event conn) (hat : s.threads t = .reported event)
      (hfind : messengerGetConnByFd s.messenger event.fd = some conn)
      (herr : isConnErr event = true) :
      ProcessDone s (.lookup t) (s.move t (.closing conn.id none))
  | woken (t event) (hat : s.threads t = .reported event)
      (hfd : event.fd = s.messenger.wakeThreadPipeFd) :
      ProcessDone s (.lookup t) (s.move t (.woken event.fd))
  | reads (t event conn) (hat : s.threads t = .reported event)
      (hfind : messengerGetConnByFd s.messenger event.fd = some conn)
      (hfd : event.fd ≠ s.messenger.wakeThreadPipeFd) :
      ProcessDone s (.lookup t) (s.move t (.reading event.fd conn.id [] []))
  | stopped (t ctl fd messenger inbox) (hat : s.threads t = .woken fd)
      (hrun : startEpollWake s.messenger fd ctl ⟨[], .plenty⟩ = .ok (.stop messenger, inbox)) :
      ProcessDone s (.wake t ctl) { s.move t .stopped with messenger := messenger }
  | received (t chunk fd connId got bytes socket)
      (hat : s.threads t = .reading fd connId got bytes) (hsocket : s.sockets fd = some socket) :
      ProcessDone s (.recv t (.bytes chunk)) (s.move t (.reading fd connId
        (got ++ [.bytes chunk]) (bytes ++ chunk.bytes.map fun b => (b, socket))))
  | unreceived (t errno fd connId got bytes)
      (hat : s.threads t = .reading fd connId got bytes) :
      ProcessDone s (.recv t (.failed errno))
        (s.move t (.reading fd connId (got ++ [.failed errno]) bytes))
  | taken (t allocs fd connId got bytes msg messenger inbox)
      (hat : s.threads t = .reading fd connId got bytes)
      (hrun : messengerReadMsg s.messenger connId ⟨got, allocs⟩
        = .ok ((some msg, messenger), inbox)) :
      ProcessDone s (.readMsg t allocs)
        { s.move t (.taken fd ⟨connId, msg, bytes⟩) with messenger := messenger }
  | unread (t allocs fd connId got bytes)
      (hat : s.threads t = .reading fd connId got bytes) :
      ProcessDone s (.readMsg t allocs) (s.move t .free)
  | cut (t allocs fd connId got bytes) (hat : s.threads t = .reading fd connId got bytes) :
      ProcessDone s (.readMsg t allocs) (s.move t (.closing connId none))
  | rearmed (t ctl fd delivery) (hat : s.threads t = .taken fd delivery) :
      ProcessDone s (.rearm t ctl)
        { s.move t (if ctl < -1 then .closing delivery.connId (some delivery)
            else .handing delivery) with
          messenger := (waitForNextMsg s.messenger fd ctl).2 }
  | processed (t delivery) (hat : s.threads t = .handing delivery) :
      ProcessDone s (.msgProcess t)
        { s.move t .free with processed := delivery :: s.processed }
  | sent (t connId msg out ret messenger out') (hat : s.threads t = .free)
      (hrun : messengerTrySendMsg s.messenger connId msg out = .ok ((ret, messenger), out')) :
      ProcessDone s (.sendMsg t connId msg out)
        { s.move t (if ret = CCEPH_ERR_WRITE_CONN_ERR then .closing connId none else .free) with
          messenger := messenger }
  | closes (t connId) (hat : s.threads t = .free) :
      ProcessDone s (.closeConn t connId) (s.move t (.closing connId none))
  | missing (t connId next) (hat : s.threads t = .closing connId next) :
      ProcessDone s (.unlink t) (s.move t (.resume next))
  | unlinked (t connId next conn messenger) (hat : s.threads t = .closing connId next)
      (hunlink : messengerUnlinkConn s.messenger connId = some (conn, messenger)) :
      ProcessDone s (.unlink t) { s.move t (.unlinked conn next) with messenger := messenger }
  | shut (t conn next) (hat : s.threads t = .unlinked conn next) :
      ProcessDone s (.shut t)
        { s.move t (.resume next) with
          messenger := messengerShutConn s.messenger conn
          sockets := Function.update s.sockets conn.fd none }

-- ---------------------------------------------- the moves with branches

section
variable {s s' : Process} {t : Nat}

theorem processStep_lookup (h : processStep s (.lookup t) = some s') :
    ProcessDone s (.lookup t) s' := by
  simp only [processStep] at h
  split at h
  · rename_i event hat
    split at h
    · rename_i hfind
      cases h
      exact .gone t event hat hfind
    · rename_i conn hfind
      split_ifs at h with herr hfd
      · cases h
        exact .failed t event conn hat hfind herr
      · cases h
        exact .woken t event hat hfd
      · cases h
        exact .reads t event conn hat hfind hfd
  · cases h

theorem processStep_wake {ctl : Int} (h : processStep s (.wake t ctl) = some s') :
    ProcessDone s (.wake t ctl) s' := by
  simp only [processStep] at h
  split at h
  · rename_i fd hat
    split at h
    · rename_i handled inbox hrun
      split at h
      · cases h
        exact .stopped t ctl fd _ inbox hat hrun
      · cases h
    · cases h
  · cases h

theorem processStep_recv {arrival : Arrival} (h : processStep s (.recv t arrival) = some s') :
    ProcessDone s (.recv t arrival) s' := by
  simp only [processStep] at h
  split at h
  · rename_i fd connId got bytes hat
    split at h
    · rename_i chunk
      obtain ⟨socket, hsocket, rfl⟩ := Option.map_eq_some_iff.mp h
      exact .received t chunk fd connId got bytes socket hat hsocket
    · cases h
      exact .unreceived t _ fd connId got bytes hat
  · cases h

theorem processStep_readMsg {allocs : Allocs} (h : processStep s (.readMsg t allocs) = some s') :
    ProcessDone s (.readMsg t allocs) s' := by
  simp only [processStep] at h
  split at h
  · rename_i fd connId got bytes hat
    split at h
    · rename_i msg messenger allocs' hrun
      cases h
      exact .taken t allocs fd connId got bytes msg messenger _ hat hrun
    · split_ifs at h
      · cases h
        exact .unread t allocs fd connId got bytes hat
      · cases h
        exact .cut t allocs fd connId got bytes hat
    · cases h
  · cases h

theorem processStep_sendMsg {connId : Int64} {msg : Msg} {out : Outbox}
    (h : processStep s (.sendMsg t connId msg out) = some s') :
    ProcessDone s (.sendMsg t connId msg out) s' := by
  simp only [processStep] at h
  split at h
  · rename_i hat
    split at h
    · rename_i ret messenger out' hrun
      cases h
      exact .sent t connId msg out ret messenger out' hat hrun
    · cases h
  · cases h

theorem processStep_unlink (h : processStep s (.unlink t) = some s') :
    ProcessDone s (.unlink t) s' := by
  simp only [processStep] at h
  split at h
  · rename_i connId next hat
    split at h
    · cases h
      exact .missing t connId next hat
    · rename_i conn messenger hunlink
      cases h
      exact .unlinked t connId next conn messenger hat hunlink
  · cases h

/-- A step is one of these. -/
theorem processStep_done {act : ProcessAct} (h : processStep s act = some s') :
    ProcessDone s act s' := by
  cases act with
  | openSocket t host port fd =>
      simp only [processStep] at h
      split at h
      · rename_i hat hclosed
        cases h
        exact .opened t host port fd hat hclosed
      · cases h
  | listConn t state =>
      simp only [processStep] at h
      split at h
      · rename_i host port fd hat
        split at h
        · obtain ⟨socket, hsocket, rfl⟩ := Option.map_eq_some_iff.mp h
          exact .listed t state host port fd socket hat hsocket
        · cases h
      · cases h
  | register t ctl =>
      simp only [processStep] at h
      split at h
      · rename_i fd connId hat
        cases h
        exact .registered t ctl fd connId hat
      · cases h
  | wait t event =>
      simp only [processStep] at h
      split at h
      · rename_i hat
        split at h
        · cases h
          exact .waited t event hat
        · cases h
      · cases h
  | lookup t => exact processStep_lookup h
  | wake t ctl => exact processStep_wake h
  | recv t arrival => exact processStep_recv h
  | readMsg t allocs => exact processStep_readMsg h
  | rearm t ctl =>
      simp only [processStep] at h
      split at h
      · rename_i fd delivery hat
        cases h
        exact .rearmed t ctl fd delivery hat
      · cases h
  | msgProcess t =>
      simp only [processStep] at h
      split at h
      · rename_i delivery hat
        cases h
        exact .processed t delivery hat
      · cases h
  | sendMsg t connId msg out => exact processStep_sendMsg h
  | closeConn t connId =>
      simp only [processStep] at h
      split at h
      · rename_i hat
        cases h
        exact .closes t connId hat
      · cases h
  | unlink t => exact processStep_unlink h
  | shut t =>
      simp only [processStep] at h
      split at h
      · rename_i conn next hat
        cases h
        exact .shut t conn next hat
      · cases h

end

-- ======================================================== the invariant

theorem processStart_threads (fd : Int32) {t : Nat} (hne : t ≠ 0) :
    (processStart fd).threads t = .free :=
  Function.update_of_ne (f := fun _ => Phase.free) hne _

theorem processStart_sockets {fd fd' : Int32} {k : Nat}
    (h : (processStart fd).sockets fd' = some k) : fd' = fd ∧ k = 0 := by
  have h : Function.update (fun _ => none) fd (some 0) fd' = some k := h
  rcases eq_or_ne fd' fd with rfl | hne
  · rw [Function.update_self] at h
    cases h
    exact ⟨rfl, rfl⟩
  · rw [Function.update_of_ne hne] at h
    cases h

namespace ProcessInv

variable {s : Process} {t : Nat}

theorem start (fd : Int32) : ProcessInv (processStart fd) where
  phases t := by
    rcases eq_or_ne t 0 with rfl | hne
    · exact ⟨0, Function.update_self (f := fun _ => none) .., rfl⟩
    · rw [processStart_threads fd hne]
      exact trivial
  processed delivery hmem := by cases hmem
  conns key hkey := by cases hkey
  holders :=
    { fds := .nil
      apart := fun t fd _ key hkey => by cases hkey
      alone := by
        have hzero : ∀ t fd', ((processStart fd).threads t).holds = some fd' → t = 0 := by
          intro t fd' ht
          by_contra hne
          rw [processStart_threads fd hne] at ht
          cases ht
        intro t u fd' ht hu
        rw [hzero t fd' ht, hzero u fd' hu] }
  sockets a b k ha hb := by
    rw [(processStart_sockets ha).1, (processStart_sockets hb).1]
  made a k ha := by
    rw [(processStart_sockets ha).2]
    exact Nat.zero_lt_one
  fresh k _ := rfl

/-- One thread moves on. What it holds now nothing else held. -/
theorem move (h : ProcessInv s) {phase : Phase} {messenger : Messenger}
    (hkeys : List.Sublist messenger.keys s.messenger.keys)
    (hok : PhaseOk s.sockets s.connOf phase)
    (hholders : Exclusive (Function.update s.threads t phase) messenger.keys) :
    ProcessInv { s.move t phase with messenger := messenger } where
  phases := (Function.forall_update_iff s.threads
    fun _ => PhaseOk s.sockets s.connOf).mpr ⟨hok, fun u _ => h.phases u⟩
  processed := h.processed
  conns key hkey := h.conns key (hkeys.subset hkey)
  holders := hholders
  sockets := h.sockets
  made := h.made
  fresh := h.fresh

/-- One thread moves on to where it holds nothing. -/
theorem moveFree (h : ProcessInv s) {phase : Phase} {messenger : Messenger}
    (hkeys : List.Sublist messenger.keys s.messenger.keys)
    (hok : PhaseOk s.sockets s.connOf phase) (hholds : phase.holds = none) :
    ProcessInv { s.move t phase with messenger := messenger } :=
  h.move hkeys hok ((h.holders.release hholds).sublist hkeys)

/-- A new socket, on a descriptor nobody reads from. -/
theorem openSocket (h : ProcessInv s) {host : CString} {port fd : Int32}
    (hclosed : s.sockets fd = none)
    (hreuse : ∀ u connId got bytes, s.threads u ≠ .reading fd connId got bytes) :
    ProcessInv { s.move t (.opened host port fd) with
      sockets := Function.update s.sockets fd (some s.opened)
      opened := s.opened + 1 } := by
  have hne : ∀ {fd'}, s.sockets fd' ≠ none → fd' ≠ fd := by
    rintro fd' hopen rfl
    exact hopen hclosed
  have hsome : ∀ {fd' k}, s.sockets fd' = some k → fd' ≠ fd := by
    intro fd' k hk
    exact hne (by rw [hk]; exact Option.some_ne_none k)
  have hnew : ∀ {fd' k}, Function.update s.sockets fd (some s.opened) fd' = some k →
      fd' = fd ∧ k = s.opened ∨ s.sockets fd' = some k := by
    intro fd' k hk
    rcases eq_or_ne fd' fd with rfl | hother
    · rw [Function.update_self] at hk
      cases hk
      exact .inl ⟨rfl, rfl⟩
    · rw [Function.update_of_ne hother] at hk
      exact .inr hk
  have hphases : ∀ u, PhaseOk (Function.update s.sockets fd (some s.opened)) s.connOf
      (s.threads u) := by
    intro u
    refine (h.phases u).change (fun _ _ hk => hk) ?_ (fun _ _ _ _ => rfl) ?_
    · intro fd' hu
      rw [Function.update_of_ne (hne (open_of_holds (h.phases u) hu))]
    · intro fd' connId got bytes hu k hk
      rcases hnew hk with ⟨rfl, -⟩ | hk
      · exact absurd hu (hreuse u connId got bytes)
      · exact hk
  have hholders : Exclusive (Function.update s.threads t (.opened host port fd))
      s.messenger.keys := by
    apply h.holders.move
    intro fd' hfd'
    cases hfd'
    constructor
    · intro key hkey
      obtain ⟨k, hk, -⟩ := h.conns key hkey
      exact hsome hk
    · exact fun u _ hu => hne (open_of_holds (h.phases u) hu) rfl
  exact
    { phases := (Function.forall_update_iff s.threads fun _ => PhaseOk _ s.connOf).mpr
        ⟨⟨s.opened, Function.update_self .., h.fresh _ (Nat.le_refl _)⟩,
          fun u _ => hphases u⟩
      processed := h.processed
      conns := by
        intro key hkey
        obtain ⟨k, hk, hconn⟩ := h.conns key hkey
        exact ⟨k, (Function.update_of_ne (hsome hk) ..).trans hk, hconn⟩
      holders := hholders
      sockets := by
        intro a b k ha hb
        rcases hnew ha with ⟨hfd, hk⟩ | holda <;> rcases hnew hb with ⟨hfd', hk'⟩ | holdb
        · rw [hfd, hfd']
        · exact absurd (h.made b k holdb) (by omega)
        · exact absurd (h.made a k holda) (by omega)
        · exact h.sockets a b k holda holdb
      made := by
        intro a k ha
        rcases hnew ha with ⟨-, rfl⟩ | ha
        · exact Nat.lt_succ_self _
        · exact Nat.lt_succ_of_lt (h.made a k ha)
      fresh := fun k hk => h.fresh k (Nat.le_of_succ_le hk) }

/-- The socket a thread has opened becomes a connection. -/
theorem listConn (h : ProcessInv s) {host : CString} {port fd : Int32} {socket : Nat}
    (hphase : s.threads t = .opened host port fd) (hsocket : s.sockets fd = some socket)
    (id : Int64) {messenger : Messenger}
    (hkeys : messenger.keys = (fd, id) :: s.messenger.keys) :
    ProcessInv { s.move t (.listed fd id) with
      messenger := messenger
      connOf := Function.update s.connOf socket (some id) } := by
  have hnone : s.connOf socket = none := by
    have hok := h.phases t
    rw [hphase] at hok
    obtain ⟨k, hk, hconn⟩ := hok
    rw [hsocket] at hk
    cases hk
    exact hconn
  have hmono : ∀ k id', s.connOf k = some id' →
      Function.update s.connOf socket (some id) k = some id' := by
    intro k id' hk
    have hne : k ≠ socket := by
      rintro rfl
      rw [hnone] at hk
      cases hk
    rw [Function.update_of_ne hne, hk]
  have hmine : (s.threads t).holds = some fd := by rw [hphase]; rfl
  have hphases : ∀ u, u ≠ t → PhaseOk s.sockets
      (Function.update s.connOf socket (some id)) (s.threads u) := by
    intro u hu
    refine (h.phases u).change hmono (fun _ _ => rfl) ?_ (fun _ _ _ _ _ _ hk => hk)
    intro fd' k hheld hk
    have hne : k ≠ socket := by
      rintro rfl
      rw [h.sockets fd' fd k hk hsocket] at hheld
      exact hu (h.holders.alone u t fd hheld hmine)
    exact Function.update_of_ne hne ..
  exact
    { phases := (Function.forall_update_iff s.threads fun _ => PhaseOk s.sockets _).mpr
        ⟨trivial, hphases⟩
      processed := fun delivery hmem => (h.processed delivery hmem).mono hmono
      conns := by
        intro key hkey
        have hkey : key ∈ messenger.keys := hkey
        rw [hkeys] at hkey
        rcases List.mem_cons.mp hkey with rfl | hkey
        · exact ⟨socket, hsocket, Function.update_self ..⟩
        · obtain ⟨k, hk, hconn⟩ := h.conns key hkey
          exact ⟨k, hk, hmono k _ hconn⟩
      holders := by
        show Exclusive (Function.update s.threads t _) messenger.keys
        rw [hkeys]
        apply (h.holders.release rfl).cons (h.holders.apart t fd hmine)
        refine (Function.forall_update_iff s.threads
          fun _ p => p.holds ≠ some fd).mpr ⟨nofun, ?_⟩
        exact fun u hu hheld => hu (h.holders.alone u t fd hheld hmine)
      sockets := h.sockets
      made := h.made
      fresh := by
        intro k hk
        have hlt := h.made fd socket hsocket
        have hk : s.opened ≤ k := hk
        have hne : k ≠ socket := by omega
        exact (Function.update_of_ne hne ..).trans (h.fresh k hk) }

/-- A descriptor is closed by the thread that holds it. -/
theorem shut (h : ProcessInv s) {conn : Connection} {next : Option Delivery}
    (hphase : s.threads t = .unlinked conn next) {messenger : Messenger}
    (hkeys : messenger.keys = s.messenger.keys) :
    ProcessInv { s.move t (.resume next) with
      messenger := messenger
      sockets := Function.update s.sockets conn.fd none } := by
  have hmine : (s.threads t).holds = some conn.fd := by rw [hphase]; rfl
  have hnext : ∀ delivery ∈ next, delivery.Right s.connOf := by
    have hok := h.phases t
    rw [hphase] at hok
    exact hok.2
  have hopen : ∀ {fd k}, Function.update s.sockets conn.fd none fd = some k →
      s.sockets fd = some k := by
    intro fd k hk
    rcases eq_or_ne fd conn.fd with rfl | hne
    · rw [Function.update_self] at hk
      cases hk
    · rw [Function.update_of_ne hne] at hk
      exact hk
  have hphases : ∀ u, u ≠ t → PhaseOk (Function.update s.sockets conn.fd none) s.connOf
      (s.threads u) := by
    intro u hu
    refine (h.phases u).change (fun _ _ hk => hk) ?_ (fun _ _ _ _ => rfl)
      (fun _ _ _ _ _ _ hk => hopen hk)
    intro fd hheld
    have hne : fd ≠ conn.fd := by
      rintro rfl
      exact hu (h.holders.alone u t _ hheld hmine)
    exact Function.update_of_ne hne ..
  exact
    { phases := (Function.forall_update_iff s.threads fun _ => PhaseOk _ s.connOf).mpr
        ⟨resume_ok hnext, hphases⟩
      processed := h.processed
      conns := by
        intro key hkey
        have hkey : key ∈ messenger.keys := hkey
        rw [hkeys] at hkey
        obtain ⟨k, hk, hconn⟩ := h.conns key hkey
        have hne := h.holders.apart t _ hmine key hkey
        exact ⟨k, (Function.update_of_ne hne ..).trans hk, hconn⟩
      holders := by
        show Exclusive (Function.update s.threads t _) messenger.keys
        rw [hkeys]
        exact h.holders.release (resume_holds next)
      sockets := fun a b k ha hb => h.sockets a b k (hopen ha) (hopen hb)
      made := fun a k ha => h.made a k (hopen ha)
      fresh := h.fresh }

theorem keys_setState (messenger : Messenger) (id state : Int32) :
    (messengerSetState messenger id state).keys = messenger.keys := by
  unfold messengerSetState Messenger.keys
  simp only
  induction messenger.connList with
  | nil => rfl
  | cons conn conns ih =>
      rw [List.replaceF_cons]
      by_cases hid : conn.id.toInt = id.toInt
      · simp only [if_pos hid]
        rfl
      · simp only [if_neg hid, List.map_cons, ih]

/-- What a call of `cceph_messenger_send_msg` may write to. -/
theorem trySendMsg_messenger {messenger messenger' : Messenger} {connId : Int64} {msg : Msg}
    {out out' : Outbox} {ret : Int}
    (h : messengerTrySendMsg messenger connId msg out = .ok ((ret, messenger'), out')) :
    messenger' = messenger ∨ ∃ id state, messenger' = messengerSetState messenger id state := by
  unfold messengerTrySendMsg at h
  by_cases hnormal : messenger.state = CCEPH_MESSENGER_STATE_NORMAL
  · rw [assert_pos hnormal, pure_bind] at h
    cases hconn : messengerGetConnById messenger (connIdToInt connId) with
    | none =>
        rw [hconn] at h
        cases h
        exact .inl rfl
    | some conn =>
        rw [hconn] at h
        by_cases hclosed : conn.state = CCEPH_CONN_STATE_CLOSED
        · simp only [if_pos hclosed] at h
          cases h
          exact .inl rfl
        · simp only [if_neg hclosed] at h
          obtain ⟨code, mid, -, h⟩ := bind_eq_ok h
          by_cases hret : code ≠ 0
          · simp only [if_pos hret] at h
            cases h
            exact .inr ⟨_, _, rfl⟩
          · simp only [if_neg hret] at h
            cases h
            exact .inl rfl
  · rw [assert_neg hnormal] at h
    cases h

theorem keys_trySendMsg {messenger messenger' : Messenger} {connId : Int64} {msg : Msg}
    {out out' : Outbox} {ret : Int}
    (h : messengerTrySendMsg messenger connId msg out = .ok ((ret, messenger'), out')) :
    messenger'.keys = messenger.keys := by
  rcases trySendMsg_messenger h with rfl | ⟨id, state, rfl⟩
  · rfl
  · exact keys_setState messenger id state

theorem keys_wake {messenger messenger' : Messenger} {fd : Int32} {ctl : Int}
    {inbox inbox' : Inbox}
    (h : startEpollWake messenger fd ctl inbox = .ok (.stop messenger', inbox')) :
    messenger'.keys = messenger.keys := by
  unfold startEpollWake at h
  cases hpipe : messenger.wakeThreadPipe with
  | nil =>
      rw [hpipe] at h
      cases h
  | cons op rest =>
      rw [hpipe] at h
      obtain ⟨-, mid, -, h⟩ := bind_eq_ok h
      obtain ⟨-, mid', -, h⟩ := bind_eq_ok h
      cases h
      rfl

/-- One message is read to its end. -/
theorem readMsg (h : ProcessInv s) {fd : Int32} {connId : Int64} {got : List Arrival}
    {bytes : List (UInt8 × Nat)} (hphase : s.threads t = .reading fd connId got bytes)
    {allocs : Allocs} {msg : Msg} {messenger : Messenger} {inbox : Inbox}
    (hrun : messengerReadMsg s.messenger connId ⟨got, allocs⟩
      = .ok ((some msg, messenger), inbox)) :
    ProcessInv { s.move t (.taken fd ⟨connId, msg, bytes⟩) with
      messenger := messenger } := by
  have hok := h.phases t
  rw [hphase] at hok
  obtain ⟨hbytes, -, hgot⟩ := hok
  cases readMsg_outcome s.messenger connId ⟨got, allocs⟩ with
  | message msg' inbox' hrun' htaken hwire =>
      rw [hrun] at hrun'
      cases hrun'
      have hright : Delivery.Right s.connOf ⟨connId, msg, bytes⟩ := by
        refine ⟨?_, hbytes⟩
        rintro rfl
        have htaken : Taken (deliveredBytes got) := htaken
        rw [hgot rfl] at htaken
        exact not_taken_nil htaken
      exact h.moveFree (List.Sublist.refl _) hright rfl
  | closed inbox' hrun' => rw [hrun] at hrun'; cases hrun'
  | kept inbox' hrun' => rw [hrun] at hrun'; cases hrun'
  | crash e hrun' => rw [hrun] at hrun'; cases hrun'

/-- One `recv` call. -/
theorem received (h : ProcessInv s) {fd : Int32} {connId : Int64} {got : List Arrival}
    {bytes : List (UInt8 × Nat)} (hphase : s.threads t = .reading fd connId got bytes)
    (chunk : Chunk) {socket : Nat} (hsocket : s.sockets fd = some socket) :
    ProcessInv (s.move t (.reading fd connId (got ++ [.bytes chunk])
      (bytes ++ chunk.bytes.map fun b => (b, socket)))) := by
  have hok := h.phases t
  rw [hphase] at hok
  obtain ⟨hbytes, hfd, hgot⟩ := hok
  have hreading : PhaseOk s.sockets s.connOf (.reading fd connId
      (got ++ [.bytes chunk]) (bytes ++ chunk.bytes.map fun b => (b, socket))) := by
    refine ⟨?_, hfd, ?_⟩
    · intro b hb
      rcases List.mem_append.mp hb with hb | hb
      · exact hbytes b hb
      · obtain ⟨b, -, rfl⟩ := List.mem_map.mp hb
        exact hfd socket hsocket
    · intro hnil
      have hempty := (List.append_eq_nil_iff.mp hnil).2
      exact absurd (List.map_eq_nil_iff.mp hempty) chunk.nonempty
  exact h.moveFree (List.Sublist.refl _) hreading rfl

theorem unreceived (h : ProcessInv s) {fd : Int32} {connId : Int64} {got : List Arrival}
    {bytes : List (UInt8 × Nat)} (hphase : s.threads t = .reading fd connId got bytes)
    (errno : Int32) :
    ProcessInv (s.move t (.reading fd connId (got ++ [.failed errno]) bytes)) := by
  have hok := h.phases t
  rw [hphase] at hok
  obtain ⟨hbytes, hfd, hgot⟩ := hok
  have hreading : PhaseOk s.sockets s.connOf
      (.reading fd connId (got ++ [.failed errno]) bytes) := by
    refine ⟨hbytes, hfd, ?_⟩
    intro hnil
    rw [deliveredBytes_failed, hgot hnil]
  exact h.moveFree (List.Sublist.refl _) hreading rfl

/-- A connection found by its descriptor is the one the descriptor stands
for. -/
theorem found (h : ProcessInv s) {fd : Int32} {conn : Connection}
    (hfind : messengerGetConnByFd s.messenger fd = some conn) :
    ∃ k, s.sockets fd = some k ∧ s.connOf k = some conn.id := by
  have hmem : (conn.fd, conn.id) ∈ s.messenger.keys :=
    List.mem_map.mpr ⟨conn, List.mem_of_find?_eq_some hfind, rfl⟩
  have hfind : s.messenger.connList.find? (fun conn : Connection => conn.fd = fd)
    = some conn := hfind
  have hfd : conn.fd = fd := of_decide_eq_true
    (List.find?_some (p := fun conn : Connection => decide (conn.fd = fd)) hfind)
  rw [← hfd]
  exact h.conns _ hmem

/-- A connection leaves the list, and its descriptor stays with the
thread. -/
theorem unlink (h : ProcessInv s) {connId : Int64} {next : Option Delivery}
    (hphase : s.threads t = .closing connId next) {conn : Connection}
    {messenger : Messenger}
    (hunlink : messengerUnlinkConn s.messenger connId = some (conn, messenger)) :
    ProcessInv { s.move t (.unlinked conn next) with messenger := messenger } := by
  have hnext : ∀ delivery ∈ next, delivery.Right s.connOf := by
    have hok := h.phases t
    rw [hphase] at hok
    exact hok
  obtain ⟨hmem, hsub⟩ := Exclusive.unlink_mem hunlink
  refine h.move hsub ?_ (h.holders.unlink hunlink)
  obtain ⟨k, hk, -⟩ := h.conns _ hmem
  exact ⟨by rw [hk]; exact Option.some_ne_none k, hnext⟩

theorem step (h : ProcessInv s) {act : ProcessAct} {s' : Process}
    (hgood : ReuseOk s act) (hstep : processStep s act = some s') : ProcessInv s' := by
  have hsame : List.Sublist s.messenger.keys s.messenger.keys := List.Sublist.refl _
  cases processStep_done hstep with
  | opened t host port fd hat hclosed => exact h.openSocket hclosed hgood
  | listed t state host port fd socket hat hsocket => exact h.listConn hat hsocket _ rfl
  | registered t ctl fd connId hat =>
      by_cases hctl : ctl < -1
      · simp only [if_pos hctl]
        exact h.moveFree hsame nofun rfl
      · simp only [if_neg hctl]
        exact h.moveFree hsame trivial rfl
  | waited t event hat => exact h.moveFree hsame trivial rfl
  | gone t event hat hfind => exact h.moveFree hsame trivial rfl
  | failed t event conn hat hfind herr => exact h.moveFree hsame nofun rfl
  | woken t event hat hfd => exact h.moveFree hsame trivial rfl
  | reads t event conn hat hfind hfd =>
      obtain ⟨k, hk, hconn⟩ := h.found hfind
      have hreading : PhaseOk s.sockets s.connOf (.reading event.fd conn.id [] []) := by
        refine ⟨nofun, ?_, fun _ => rfl⟩
        intro k' hk'
        rw [hk] at hk'
        cases hk'
        exact hconn
      exact h.moveFree hsame hreading rfl
  | stopped t ctl fd messenger inbox hat hrun =>
      exact h.moveFree (by rw [keys_wake hrun]) trivial rfl
  | received t chunk fd connId got bytes socket hat hsocket => exact h.received hat chunk hsocket
  | unreceived t errno fd connId got bytes hat => exact h.unreceived hat errno
  | taken t allocs fd connId got bytes msg messenger inbox hat hrun => exact h.readMsg hat hrun
  | unread t allocs fd connId got bytes hat => exact h.moveFree hsame trivial rfl
  | cut t allocs fd connId got bytes hat => exact h.moveFree hsame nofun rfl
  | rearmed t ctl fd delivery hat =>
      have hright := h.phases t
      rw [hat] at hright
      by_cases hctl : ctl < -1
      · simp only [if_pos hctl]
        refine h.moveFree hsame ?_ rfl
        intro d hd
        cases hd
        exact hright
      · simp only [if_neg hctl]
        exact h.moveFree hsame hright rfl
  | processed t delivery hat =>
      have hright := h.phases t
      rw [hat] at hright
      have hmoved : ProcessInv (s.move t .free) := h.moveFree hsame trivial rfl
      exact { hmoved with
        processed := List.forall_mem_cons.mpr ⟨hright, h.processed⟩ }
  | sent t connId msg out ret messenger out' hat hrun =>
      have hkeys := keys_trySendMsg hrun
      by_cases hret : ret = CCEPH_ERR_WRITE_CONN_ERR
      · simp only [if_pos hret]
        exact h.moveFree (by rw [hkeys]) nofun rfl
      · simp only [if_neg hret]
        exact h.moveFree (by rw [hkeys]) trivial rfl
  | closes t connId hat => exact h.moveFree hsame nofun rfl
  | missing t connId next hat =>
      have hnext := h.phases t
      rw [hat] at hnext
      exact h.moveFree hsame (resume_ok hnext) (resume_holds next)
  | unlinked t connId next conn messenger hat hunlink => exact h.unlink hat hunlink
  | shut t conn next hat => exact h.shut hat rfl

/-- A run in which no descriptor is reused under a reader. -/
theorem reached (h : processSystem.Reached ReuseOk s) : ProcessInv s := by
  refine h.invariant (I := ProcessInv) ?_ ?_
  · rintro s ⟨fd, rfl⟩
    exact start fd
  · exact fun s act s' hs hgood hstep => hs.step hgood hstep

end ProcessInv

-- ============================================= a thread nobody interrupts

theorem move_move (s : Process) (t : Nat) (phase phase' : Phase) :
    (s.move t phase).move t phase' = s.move t phase' := by
  unfold Process.move
  rw [Function.update_idem]

theorem move_threads (s : Process) (t : Nat) (phase : Phase) :
    (s.move t phase).threads t = phase := Function.update_self ..

/-- The calls of `msg_process`, without where the bytes came from. -/
def Process.calls (s : Process) : List (Int64 × Msg) :=
  s.processed.map fun delivery => (delivery.connId, delivery.msg)

/-- The thread `t` alone can go on to `phase`, leaving this messenger and
these calls of `msg_process`. -/
def Goes (s : Process) (t : Nat) (phase : Phase) (messenger : Messenger)
    (calls : List (Int64 × Msg)) : Prop :=
  ∃ s', processSystem.Leads s s' ∧ s'.messenger = messenger
    ∧ s'.threads = Function.update s.threads t phase ∧ s'.calls = calls

theorem Goes.after {s mid : Process} {t : Nat} {phase phase' : Phase}
    {messenger : Messenger} {calls : List (Int64 × Msg)}
    (hleads : processSystem.Leads s mid)
    (hthreads : mid.threads = Function.update s.threads t phase')
    (h : Goes mid t phase messenger calls) : Goes s t phase messenger calls := by
  obtain ⟨s', hrest, hmessenger, hupdate, hcalls⟩ := h
  refine ⟨s', hleads.trans hrest, hmessenger, ?_, hcalls⟩
  rw [hupdate, hthreads, Function.update_idem]

section
variable {s : Process} {t : Nat}

theorem leads_step {act : ProcessAct} {s' : Process}
    (hstep : processStep s act = some s') : processSystem.Leads s s' :=
  System.Leads.step (a := act) hstep

theorem goes_step {act : ProcessAct} {s' : Process} {phase : Phase}
    (hstep : processStep s act = some s')
    (hthreads : s'.threads = Function.update s.threads t phase) :
    Goes s t phase s'.messenger s'.calls :=
  ⟨s', leads_step hstep, rfl, hthreads, rfl⟩

theorem goes_hand {delivery : Delivery} (hphase : s.threads t = .handing delivery) :
    Goes s t .free s.messenger ((delivery.connId, delivery.msg) :: s.calls) := by
  have hstep : processStep s (.msgProcess t)
      = some { s.move t .free with processed := delivery :: s.processed } := by
    simp only [processStep, hphase]
  exact goes_step hstep rfl

/-- The two sections of closing, then the message if there is one. -/
theorem goes_close {connId : Int64} {next : Option Delivery}
    (hphase : s.threads t = .closing connId next) :
    Goes s t .free (messengerCloseConn s.messenger connId).2
      ((next.map fun delivery => (delivery.connId, delivery.msg)).toList ++ s.calls) := by
  have hresume : ∀ mid : Process, mid.threads t = .resume next → mid.calls = s.calls →
      Goes mid t .free mid.messenger
        ((next.map fun delivery => (delivery.connId, delivery.msg)).toList ++ s.calls) := by
    intro mid hmid hcalls
    rw [← hcalls]
    cases next with
    | none =>
        refine ⟨mid, System.Leads.refl mid, rfl, ?_, rfl⟩
        exact (Function.update_eq_self_iff.mpr hmid.symm).symm
    | some delivery => exact goes_hand hmid
  rw [messengerCloseConn_sections]
  cases hunlink : messengerUnlinkConn s.messenger connId with
  | none =>
      have hstep : processStep s (.unlink t) = some (s.move t (.resume next)) := by
        simp only [processStep, hphase, hunlink]
      exact (hresume (s.move t (.resume next)) (move_threads ..) rfl).after
        (leads_step hstep) rfl
  | some found =>
      obtain ⟨conn, messenger⟩ := found
      let mid := { s.move t (.unlinked conn next) with messenger := messenger }
      have hstep : processStep s (.unlink t) = some mid := by
        simp only [processStep, hphase, hunlink]
        rfl
      have hmid : mid.threads t = .unlinked conn next := move_threads ..
      have hshut : processStep mid (.shut t) = some
          { mid.move t (.resume next) with
            messenger := messengerShutConn messenger conn
            sockets := Function.update s.sockets conn.fd none } := by
        simp only [processStep, hmid]
        rfl
      refine ((hresume _ ?_ ?_).after (leads_step hshut) rfl).after
        (leads_step hstep) rfl
      · exact move_threads ..
      · rfl

/-- `recv` after `recv`, all from one socket. -/
theorem leads_recv {fd : Int32} {connId : Int64} {socket : Nat} (todo : List Arrival) :
    ∀ {s : Process} {got : List Arrival} {bytes : List (UInt8 × Nat)},
      s.threads t = .reading fd connId got bytes → s.sockets fd = some socket →
      ∃ bytes', processSystem.Leads s
        (s.move t (.reading fd connId (got ++ todo) bytes')) := by
  induction todo with
  | nil =>
      intro s got bytes hphase hsocket
      have hsame : s.move t (.reading fd connId (got ++ []) bytes) = s := by
        unfold Process.move
        rw [List.append_nil, Function.update_eq_self_iff.mpr hphase.symm]
      refine ⟨bytes, ?_⟩
      rw [hsame]
      exact System.Leads.refl s
  | cons arrival todo ih =>
      intro s got bytes hphase hsocket
      have hone : ∃ bytes', processStep s (.recv t arrival)
          = some (s.move t (.reading fd connId (got ++ [arrival]) bytes')) := by
        simp only [processStep, hphase]
        cases arrival with
        | bytes chunk => exact ⟨_, by rw [hsocket]; rfl⟩
        | failed errno => exact ⟨bytes, rfl⟩
      obtain ⟨bytes1, hstep⟩ := hone
      obtain ⟨bytes2, hrest⟩ := ih
        (s := s.move t (.reading fd connId (got ++ [arrival]) bytes1))
        (move_threads ..) hsocket
      rw [move_move, List.append_assoc] at hrest
      exact ⟨bytes2, (leads_step hstep).trans hrest⟩

/-- The branch for the pipe leaves the worker's stream alone. -/
theorem startEpollWake_inbox {messenger : Messenger} {fd : Int32} {ctl : Int}
    {inbox inbox' : Inbox} {handled : Handled}
    (h : startEpollWake messenger fd ctl inbox = .ok (handled, inbox')) :
    (∃ messenger', handled = .stop messenger')
      ∧ startEpollWake messenger fd ctl ⟨[], .plenty⟩ = .ok (handled, ⟨[], .plenty⟩) := by
  unfold startEpollWake at h ⊢
  cases hpipe : messenger.wakeThreadPipe with
  | nil =>
      rw [hpipe] at h
      cases h
  | cons op rest =>
      rw [hpipe] at h
      simp only at h ⊢
      by_cases hop : op = CCEPH_MESSENGER_OP_STOP
      · rw [assert_pos hop, pure_bind] at h ⊢
        let stop : Prog Inbox Handled := pure (.stop
          (waitForNextMsg { messenger with wakeThreadPipe := rest } fd ctl).2)
        have h : (assert (ctl = 0) >>= fun _ => stop) inbox = .ok (handled, inbox') := h
        show _ ∧ (assert (ctl = 0) >>= fun _ => stop) ⟨[], .plenty⟩ = _
        by_cases hctl : ctl = 0
        · rw [assert_pos hctl, pure_bind] at h ⊢
          cases h
          exact ⟨⟨_, rfl⟩, rfl⟩
        · rw [assert_neg hctl] at h
          cases h
      · rw [assert_neg hop] at h
        cases h

/-- Where a worker ends up. -/
def Handled.phase : Handled → Phase
  | .again _ _ => .free
  | .stop _ => .stopped

/-- The message to process, if there is one. -/
def Handled.call : Handled → Option (Int64 × Msg)
  | .again msg _ => msg
  | .stop _ => none

/-- The end of the loop's body, once the bytes are in. -/
theorem goes_readMsg {fd : Int32} {connId : Int64} {ctl : Int} {got : List Arrival}
    {bytes : List (UInt8 × Nat)} {allocs allocs' : Allocs} {handled : Handled}
    (hphase : s.threads t = .reading fd connId got bytes)
    (hrun : (do
      let (msg, messenger) ← messengerReadMsg s.messenger connId
      match msg with
      | none => return .again none messenger
      | some msg =>
          let (ret, messenger) := waitForNextMsg messenger fd ctl
          let messenger :=
            if ret < -1 then (messengerCloseConn messenger connId).2 else messenger
          return .again (some (connId, msg)) messenger : Prog Inbox Handled)
        ⟨got, allocs⟩ = .ok (handled, ⟨[], allocs'⟩)) :
    Goes s t handled.phase handled.messenger (handled.call.toList ++ s.calls) := by
  obtain ⟨⟨msg, messenger⟩, inbox, hread, hrun⟩ := bind_eq_ok hrun
  cases msg with
  | none =>
      cases hrun
      by_cases hsame : messenger = s.messenger
      · have hstep : processStep s (.readMsg t allocs) = some (s.move t .free) := by
          simp only [processStep, hphase, hread, if_pos hsame]
        exact ⟨_, leads_step hstep, hsame.symm, rfl, rfl⟩
      · have hstep : processStep s (.readMsg t allocs)
            = some (s.move t (.closing connId none)) := by
          simp only [processStep, hphase, hread, if_neg hsame]
        have hclosed : messenger = (messengerCloseConn s.messenger connId).2 := by
          cases readMsg_outcome s.messenger connId ⟨got, allocs⟩ with
          | closed inbox' hrun' => rw [hread] at hrun'; cases hrun'; rfl
          | kept inbox' hrun' => rw [hread] at hrun'; cases hrun'; exact absurd rfl hsame
          | message msg inbox' hrun' => rw [hread] at hrun'; cases hrun'
          | crash e hrun' => rw [hread] at hrun'; cases hrun'
        rw [hclosed]
        exact (goes_close (move_threads s t _)).after (leads_step hstep) rfl
  | some msg =>
      let delivery : Delivery := ⟨connId, msg, bytes⟩
      let mid := { s.move t (.taken fd delivery) with messenger := messenger }
      have hstep : processStep s (.readMsg t allocs) = some mid := by
        have hend : inbox = ⟨[], allocs'⟩ := by cases hrun; rfl
        simp only [processStep, hphase, hread, hend]
        rfl
      have hmid : mid.threads t = .taken fd delivery := move_threads ..
      have hhandled : handled = .again (some (connId, msg))
          (if ctl < -1 then (messengerCloseConn (waitForNextMsg messenger fd ctl).2 connId).2
            else (waitForNextMsg messenger fd ctl).2) := by
        cases hrun
        rfl
      rw [hhandled]
      by_cases hctl : ctl < -1
      · let last := { mid.move t (.closing connId (some delivery)) with
          messenger := (waitForNextMsg messenger fd ctl).2 }
        have hrearm : processStep mid (.rearm t ctl) = some last := by
          simp only [processStep, hmid, if_pos hctl]
          rfl
        have hlast : last.threads t = .closing connId (some delivery) := move_threads ..
        rw [if_pos hctl]
        exact ((goes_close hlast).after (leads_step hrearm) rfl).after (leads_step hstep) rfl
      · let last := { mid.move t (.handing delivery) with
          messenger := (waitForNextMsg messenger fd ctl).2 }
        have hrearm : processStep mid (.rearm t ctl) = some last := by
          simp only [processStep, hmid, if_neg hctl]
          rfl
        have hlast : last.threads t = .handing delivery := move_threads ..
        rw [if_neg hctl]
        exact ((goes_hand hlast).after (leads_step hrearm) rfl).after (leads_step hstep) rfl

/-- A worker nobody interrupts handles an event as `startEpollEvent` says:
`got` are the results of its `recv` calls, all used up. -/
theorem goes_event {event : EpollEvent} {ctl : Int} {got : List Arrival}
    {allocs allocs' : Allocs} {handled : Handled} {socket : Nat}
    (hfree : s.threads t = .free) (harmed : event.fd ∈ s.messenger.armed)
    (hsocket : s.sockets event.fd = some socket)
    (hrun : startEpollEvent (disarm s.messenger event.fd) event ctl ⟨got, allocs⟩
      = .ok (handled, ⟨[], allocs'⟩)) :
    Goes s t handled.phase handled.messenger (handled.call.toList ++ s.calls) := by
  let mid := { s.move t (.reported event) with messenger := disarm s.messenger event.fd }
  have hmid : mid.threads t = .reported event := move_threads ..
  have hwait : processStep s (.wait t event) = some mid := by
    simp only [processStep, hfree, if_pos harmed]
    rfl
  suffices h : Goes mid t handled.phase handled.messenger
      (handled.call.toList ++ mid.calls) from h.after (leads_step hwait) rfl
  have hrun : startEpollEvent mid.messenger event ctl ⟨got, allocs⟩ = _ := hrun
  have hsocket : mid.sockets event.fd = some socket := hsocket
  clear_value mid
  unfold startEpollEvent at hrun
  cases hfind : messengerGetConnByFd mid.messenger event.fd with
  | none =>
      rw [hfind] at hrun
      cases hrun
      have hlookup : processStep mid (.lookup t) = some (mid.move t .free) := by
        simp only [processStep, hmid, hfind]
      exact ⟨_, leads_step hlookup, rfl, rfl, rfl⟩
  | some conn =>
      rw [hfind] at hrun
      simp only at hrun
      by_cases herr : isConnErr event = true
      · simp only [if_pos herr] at hrun
        cases hrun
        have hlookup : processStep mid (.lookup t)
            = some (mid.move t (.closing conn.id none)) := by
          simp only [processStep, hmid, hfind, if_pos herr]
        exact (goes_close (move_threads mid t _)).after (leads_step hlookup) rfl
      · simp only [if_neg herr] at hrun
        by_cases hwake : event.fd = mid.messenger.wakeThreadPipeFd
        · simp only [if_pos hwake] at hrun
          obtain ⟨⟨messenger', rfl⟩, hstop⟩ := startEpollWake_inbox hrun
          have hlookup : processStep mid (.lookup t)
              = some (mid.move t (.woken event.fd)) := by
            simp only [processStep, hmid, hfind, if_neg herr, if_pos hwake]
          have hstep : processStep (mid.move t (.woken event.fd)) (.wake t ctl)
              = some { mid.move t .stopped with messenger := messenger' } := by
            have hmessenger : (mid.move t (.woken event.fd)).messenger
              = mid.messenger := rfl
            simp only [processStep, move_threads, hmessenger, hstop, move_move]
          refine Goes.after (leads_step hlookup) rfl ⟨_, leads_step hstep, rfl, ?_, rfl⟩
          show Function.update mid.threads t _ = Function.update (Function.update _ t _) t _
          rw [Function.update_idem]
          rfl
        · simp only [if_neg hwake] at hrun
          have hlookup : processStep mid (.lookup t)
              = some (mid.move t (.reading event.fd conn.id [] [])) := by
            simp only [processStep, hmid, hfind, if_neg herr, if_neg hwake]
          obtain ⟨bytes, hrecv⟩ := leads_recv got
            (s := mid.move t (.reading event.fd conn.id [] [])) (move_threads ..) hsocket
          rw [move_move, List.nil_append] at hrecv
          exact (goes_readMsg (move_threads ..) hrun).after
            ((leads_step hlookup).trans hrecv) rfl

end

-- ======================================================= the main result

/-- In a run in which no descriptor is reused under a reader,
`msg_process` is always given the id of the connection whose peer sent
the message. -/
theorem msgProcess_right {s : Process} (h : processSystem.Reached ReuseOk s) :
    ∀ delivery ∈ s.processed, delivery.Right s.connOf :=
  (ProcessInv.reached h).processed

/-- Bytes that come in one `recv` call. -/
def piece (bytes : List UInt8) (hne : bytes ≠ []) (hfits : bytes.length < 2 ^ 31) :
    Arrival :=
  .bytes ⟨bytes, hne, hfits⟩

/-- The thread `t` reads an acknowledgement, field by field. -/
def recvAck (t : Nat) : List ProcessAct :=
  [.recv t (piece [2] (by decide) (by decide)),
    .recv t (piece [7, 0, 0, 0, 0, 0, 0, 0] (by decide) (by decide)),
    .recv t (piece [0, 0, 0, 0] (by decide) (by decide)),
    .recv t (piece [1, 0, 0, 0, 0, 0, 0, 0] (by decide) (by decide)),
    .recv t (piece [1] (by decide) (by decide))]

/-- The wake-up pipe is added, on descriptor 3. -/
def addPipe : List ProcessAct := [.listConn 0 1, .register 0 0]

/-- The thread 1 accepts a connection on descriptor 5, and adds it. -/
def acceptConn (host : CString) : List ProcessAct :=
  [.openSocket 1 host 9000 5, .listConn 1 1, .register 1 0]

/-- The thread 2 takes an event of descriptor 5, and looks the connection
up. -/
def takeEvent : List ProcessAct := [.wait 2 ⟨EPOLLIN, 5⟩, .lookup 2]

/-- The thread 2 has its message, and processes it. -/
def processMsg : List ProcessAct := [.readMsg 2 .plenty, .rearm 2 0, .msgProcess 2]

/-- A failed `send` on the connection 3 makes the thread 3 close it. -/
def failedSend : List ProcessAct :=
  [.sendMsg 3 3 (.writeObjAck firstAck) ⟨[], [.failed 32]⟩, .unlink 3, .shut 3]

theorem msgProcess_right_ack : ∃ s, processSystem.Reached ReuseOk s
    ∧ s.processed.map Delivery.connId = [3]
    ∧ ∀ delivery ∈ s.processed, delivery.Right s.connOf := by
  have hstart : processSystem.Reached ReuseOk (processStart 3) := .start ⟨3, rfl⟩
  have hpipe := hstart.exec addPipe (by simp [addPipe, ReuseOk]) rfl
  have hopen := hpipe.next (a := .openSocket 1 ⟨[104], by decide⟩ 9000 5)
    (by
      intro t connId got bytes
      rcases eq_or_ne t 0 with rfl | hne
      · nofun
      · simp [Process.move, Function.update_of_ne hne, processStart_threads 3 hne]) rfl
  have hrest := hopen.exec
    ([.listConn 1 1, .register 1 0] ++ takeEvent ++ recvAck 2 ++ processMsg)
    (by simp [takeEvent, recvAck, processMsg, ReuseOk]) rfl
  exact ⟨_, hrest, rfl, msgProcess_right hrest⟩

/-- Between the lookup and the first `recv` of a reader, a sender closes
the connection 3 and the descriptor goes to a new connection: its message
is processed as one of the connection 3. -/
theorem msgProcess_wrong :
    ∃ s, processSystem.exec (processStart 3)
        (addPipe ++ acceptConn ⟨[104], by decide⟩ ++ takeEvent ++ failedSend
          ++ acceptConn ⟨[105], by decide⟩ ++ recvAck 2 ++ processMsg) = some s
      ∧ ¬∀ delivery ∈ s.processed, delivery.Right s.connOf := by
  refine ⟨_, rfl, ?_⟩
  intro h
  have hright := h _ List.mem_cons_self
  exact absurd (hright.2 _ List.mem_cons_self) (by decide)

end CephInC
