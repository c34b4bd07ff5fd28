/-
After a readiness event its connection is armed again or no longer
listed: when, and what follows for runs.

`startEpollEvent_settles` decides one event. A run keeps
`MessengerInv`: ids and descriptors tell the connections apart, every id
fits an `int`, and every listed data connection is armed. One lemma for
each kind of action says that it is kept.
-/
import CephInC.Message.Proofs.ReadMsg
import CephInC.Message.Runs

namespace CephInC

open Lib

-- ============================================================= closing

theorem connIdToInt_toInt {id : Int64} (h0 : -2 ^ 31 ≤ id.toInt)
    (h : id.toInt < 2 ^ 31) : (connIdToInt id).toInt = id.toInt :=
  Int32.toInt_ofInt_of_le h0 h

/-- What the search found and the removal removed differs from what is
left in any field that tells the elements apart. -/
theorem ne_of_mem_eraseP {α β : Type} {f : α → β} {p : α → Bool} {c : α} :
    ∀ {l : List α}, l.Pairwise (fun a b => f a ≠ f b) → l.find? p = some c →
      ∀ a ∈ l.eraseP p, f a ≠ f c
  | [], _, h, _, _ => by cases h
  | x :: l, hl, h, a, ha => by
      obtain ⟨hx, hl⟩ := List.pairwise_cons.mp hl
      by_cases hp : p x = true
      · rw [List.find?_cons_of_pos hp] at h
        rw [List.eraseP_cons_of_pos hp] at ha
        cases h
        exact Ne.symm (hx a ha)
      · rw [List.find?_cons_of_neg hp] at h
        rw [List.eraseP_cons_of_neg hp] at ha
        rcases List.mem_cons.mp ha with rfl | ha
        · exact hx c (List.mem_of_find?_eq_some h)
        · exact ne_of_mem_eraseP hl h a ha

/-- What closing does to the list, whether it finds a connection or not. -/
theorem messengerCloseConn_connList (messenger : Messenger) (id : Int64) :
    (messengerCloseConn messenger id).2.connList
      = messenger.connList.eraseP
          (fun conn => conn.id.toInt = (connIdToInt id).toInt) := by
  unfold messengerCloseConn messengerGetConnById
  cases hfind : messenger.connList.find?
      (fun conn => conn.id.toInt = (connIdToInt id).toInt) with
  | some conn => rfl
  | none =>
      refine (List.eraseP_of_forall_not ?_).symm
      exact List.find?_eq_none.mp hfind

theorem messengerCloseConn_armed (messenger : Messenger) (id : Int64) {fd : Int32}
    (h : fd ∈ (messengerCloseConn messenger id).2.armed) : fd ∈ messenger.armed := by
  unfold messengerCloseConn at h
  split at h
  · exact h
  · exact (List.mem_filter.mp h).1

/-- Closing finds a connection by its own id, if that fits an `int`. -/
theorem getConnById_fits {messenger : Messenger} {conn : Connection}
    (hconn : conn ∈ messenger.connList) (hfits : IdFits conn) :
    ∃ c, messengerGetConnById messenger (connIdToInt conn.id) = some c
      ∧ c.id = conn.id := by
  unfold messengerGetConnById
  cases hfind : messenger.connList.find?
      (fun c => c.id.toInt = (connIdToInt conn.id).toInt) with
  | none =>
      have hmiss := List.find?_eq_none.mp hfind conn hconn
      have hfits : conn.id.toInt = (connIdToInt conn.id).toInt := hfits
      exact absurd (decide_eq_true hfits) hmiss
  | some c =>
      refine ⟨c, rfl, ?_⟩
      have hc := List.find?_some hfind
      have hc := of_decide_eq_true hc
      exact Int64.toInt_inj.mp (hc.trans (Eq.symm hfits))

/-- And removes it. -/
theorem not_mem_closeConn {messenger : Messenger} (hok : MessengerOk messenger)
    {conn : Connection} (hconn : conn ∈ messenger.connList) (hfits : IdFits conn) :
    conn ∉ (messengerCloseConn messenger conn.id).2.connList := by
  obtain ⟨c, hfind, hid⟩ := getConnById_fits hconn hfits
  rw [messengerCloseConn_connList]
  intro hmem
  exact ne_of_mem_eraseP hok.ids hfind conn hmem hid.symm

/-- A connection whose id does not fit stays. -/
theorem mem_closeConn {messenger : Messenger} {conn : Connection}
    (hconn : conn ∈ messenger.connList) (hfits : ¬IdFits conn) :
    conn ∈ (messengerCloseConn messenger conn.id).2.connList := by
  rw [messengerCloseConn_connList]
  refine (List.mem_eraseP_of_neg ?_).mpr hconn
  intro h
  have heq : conn.id.toInt = (connIdToInt conn.id).toInt := of_decide_eq_true h
  exact hfits heq

/-- Closing settles a connection exactly if its id fits. -/
theorem settled_closeConn {messenger : Messenger} (hok : MessengerOk messenger)
    {conn : Connection} (hconn : conn ∈ messenger.connList)
    (harmed : conn.fd ∉ messenger.armed) :
    Settled conn (messengerCloseConn messenger conn.id).2 ↔ IdFits conn := by
  constructor
  · intro hsettled
    by_contra hfits
    rcases hsettled with hmem | hnot
    · exact harmed (messengerCloseConn_armed _ _ hmem)
    · exact hnot (mem_closeConn hconn hfits)
  · exact fun hfits => .inr (not_mem_closeConn hok hconn hfits)

-- ============================================================ one event

theorem disarm_not_armed (messenger : Messenger) (fd : Int32) :
    fd ∉ (disarm messenger fd).armed := by
  simp [disarm]

theorem disarm_ok {messenger : Messenger} (hok : MessengerOk messenger) (fd : Int32) :
    MessengerOk (disarm messenger fd) := ⟨hok.ids, hok.fds⟩

/-- The descriptor of a listed connection leads to it. -/
theorem getConnByFd_listed {messenger : Messenger} (hok : MessengerOk messenger)
    {conn : Connection} (hconn : conn ∈ messenger.connList) :
    messengerGetConnByFd messenger conn.fd = some conn := by
  unfold messengerGetConnByFd
  have hfds := hok.fds
  generalize messenger.connList = l at hconn hfds
  induction l with
  | nil => cases hconn
  | cons x l ih =>
      obtain ⟨hx, hl⟩ := List.pairwise_cons.mp hfds
      rcases List.mem_cons.mp hconn with rfl | hmem
      · simp
      · rw [List.find?_cons_of_neg (by simpa using hx conn hmem)]
        exact ih hmem hl

/-- What a worker does with an event of a listed data connection. -/
theorem startEpollEvent_listed {messenger : Messenger} (hok : MessengerOk messenger)
    {conn : Connection} (hconn : conn ∈ messenger.connList)
    (hwake : conn.fd ≠ messenger.wakeThreadPipeFd) (events : UInt32) (ctl : Int) :
    startEpollEvent messenger ⟨events, conn.fd⟩ ctl
      = if isConnErr ⟨events, conn.fd⟩ then
          pure (.again none (messengerCloseConn messenger conn.id).2)
        else do
          let (msg, messenger) ← messengerReadMsg messenger conn.id
          match msg with
          | none => return .again none messenger
          | some msg =>
              let (ret, messenger) := waitForNextMsg messenger conn.fd ctl
              let messenger :=
                if ret < -1 then (messengerCloseConn messenger conn.id).2
                else messenger
              return .again (some (conn.id, msg)) messenger := by
  unfold startEpollEvent
  simp only [getConnByFd_listed hok hconn]
  by_cases herr : isConnErr ⟨events, conn.fd⟩ = true
  · simp only [if_pos herr]
  · rw [if_neg herr, if_neg herr]
    exact if_neg hwake

/-- The last step of an event that brought a message. -/
theorem settled_waitForNextMsg {messenger : Messenger} (hok : MessengerOk messenger)
    {conn : Connection} (hconn : conn ∈ messenger.connList)
    (harmed : conn.fd ∉ messenger.armed) (ctl : Int) :
    Settled conn (if ctl < -1 then
        (messengerCloseConn (waitForNextMsg messenger conn.fd ctl).2 conn.id).2
      else (waitForNextMsg messenger conn.fd ctl).2)
      ↔ (ctl = 0 ∨ ctl < -1) ∧ (ctl < -1 → IdFits conn) := by
  by_cases hzero : ctl = 0
  · subst hzero
    constructor
    · intro _
      exact ⟨.inl rfl, fun h => absurd h (by decide)⟩
    · intro _
      refine .inl ?_
      simp [waitForNextMsg]
  · have hsame : (waitForNextMsg messenger conn.fd ctl).2 = messenger := by
      simp [waitForNextMsg, hzero]
    rw [hsame]
    by_cases hlt : ctl < -1
    · rw [if_pos hlt, settled_closeConn hok hconn harmed]
      simp [hlt]
    · rw [if_neg hlt]
      constructor
      · rintro (hmem | hnot)
        · exact absurd hmem harmed
        · exact absurd hconn hnot
      · rintro ⟨h, -⟩
        rcases h with h | h
        · exact absurd h hzero
        · exact absurd h hlt

/-- An event of a listed data connection settles it if the condition
holds, whatever the allocator does. -/
theorem startEpollEvent_settles_of_ok {messenger : Messenger}
    (hok : MessengerOk messenger) {conn : Connection}
    (hconn : conn ∈ messenger.connList)
    (hwake : conn.fd ≠ messenger.wakeThreadPipeFd) {events : UInt32} {ctl : Int}
    {inbox : Inbox} (hfits : IdFits conn)
    (hevent : EventOk conn events ctl inbox.delivered) :
    EventSettles messenger conn events ctl inbox := by
  intro handled inbox' hrun
  have hok' := disarm_ok hok conn.fd
  have harmed := disarm_not_armed messenger conn.fd
  rw [startEpollEvent_listed hok' hconn hwake] at hrun
  by_cases herr : isConnErr ⟨events, conn.fd⟩ = true
  · rw [if_pos herr] at hrun
    cases hrun
    exact (settled_closeConn hok' hconn harmed).mpr hfits
  · have herr' : isConnErr ⟨events, conn.fd⟩ = false := by simpa using herr
    rw [if_neg herr] at hrun
    cases readMsg_outcome (disarm messenger conn.fd) conn.id inbox with
    | closed inbox1 hread hwhy =>
        rw [bind_ok hread] at hrun
        cases hrun
        exact (settled_closeConn hok' hconn harmed).mpr hfits
    | kept inbox1 hread hrejected =>
        exact absurd hrejected (hevent.known herr')
    | message msg inbox1 hread htaken hwire =>
        rw [bind_ok hread] at hrun
        cases hrun
        exact (settled_waitForNextMsg hok' hconn harmed ctl).mpr
          ⟨hevent.rearmed herr' htaken, fun _ => hfits⟩
    | crash e hread hwhy =>
        rw [bind_error hread] at hrun
        cases hrun

/-- With memory to spare the condition is exact. -/
theorem startEpollEvent_settles_iff {messenger : Messenger}
    (hok : MessengerOk messenger) {conn : Connection}
    (hconn : conn ∈ messenger.connList)
    (hwake : conn.fd ≠ messenger.wakeThreadPipeFd) (events : UInt32) (ctl : Int)
    {inbox : Inbox} (hplenty : inbox.allocs = .plenty) :
    EventSettles messenger conn events ctl inbox
      ↔ EventOk conn events ctl inbox.delivered := by
  have hok' := disarm_ok hok conn.fd
  have harmed := disarm_not_armed messenger conn.fd
  unfold EventSettles
  rw [startEpollEvent_listed hok' hconn hwake]
  by_cases herr : isConnErr ⟨events, conn.fd⟩ = true
  · -- the network is closed: the connection is too
    have hiff := settled_closeConn hok' hconn harmed
    simp only [if_pos herr]
    constructor
    · intro h
      have hfits := hiff.mp (h _ inbox rfl)
      exact ⟨fun _ => hfits, fun h => absurd herr (by simp [h]),
        fun h => absurd herr (by simp [h])⟩
    · intro h handled inbox' hrun
      cases hrun
      exact hiff.mpr (h.closes (.inl herr))
  · have herr' : isConnErr ⟨events, conn.fd⟩ = false := by simpa using herr
    simp only [if_neg herr]
    cases readMsg_outcome (disarm messenger conn.fd) conn.id inbox with
    | closed inbox1 hread hwhy =>
        obtain ⟨hrejected, htaken, hcrashes⟩ := hwhy hplenty
        have hiff := settled_closeConn hok' hconn harmed
        rw [bind_ok hread]
        constructor
        · intro h
          have hfits := hiff.mp (h _ inbox1 rfl)
          exact ⟨fun _ => hfits, fun _ => hrejected, fun _ h => absurd h htaken⟩
        · intro h handled inbox' hrun
          cases hrun
          exact hiff.mpr (h.closes (.inr (.inl ⟨htaken, hcrashes⟩)))
    | kept inbox1 hread hrejected =>
        rw [bind_ok hread]
        constructor
        · intro h
          rcases h _ inbox1 rfl with hmem | hnot
          · exact absurd hmem harmed
          · exact absurd hconn hnot
        · intro h
          exact absurd hrejected (h.known herr')
    | message msg inbox1 hread htaken hwire =>
        have hiff := settled_waitForNextMsg hok' hconn harmed ctl
        rw [bind_ok hread]
        constructor
        · intro h
          obtain ⟨hctl, hfits⟩ := hiff.mp (h _ inbox1 rfl)
          refine ⟨?_, fun _ => not_rejected_of_taken htaken, fun _ _ => hctl⟩
          rintro (h | ⟨h, -⟩ | ⟨-, h⟩)
          · exact absurd h herr
          · exact absurd htaken h
          · exact hfits h
        · intro h handled inbox' hrun
          cases hrun
          exact hiff.mpr ⟨h.rearmed herr' htaken, fun hlt => h.closes (.inr (.inr ⟨htaken, hlt⟩))⟩
    | crash e hread hwhy =>
        have hcrashes := hwhy hplenty
        rw [bind_error hread]
        constructor
        · intro _
          have htaken := not_taken_of_crashes hcrashes
          refine ⟨?_, fun _ => not_rejected_of_crashes hcrashes,
            fun _ h => absurd h htaken⟩
          rintro (h | ⟨-, h⟩ | ⟨h, -⟩)
          · exact absurd h herr
          · exact absurd hcrashes h
          · exact absurd h htaken
        · intro _ handled inbox' hrun
          cases hrun

-- ================================================================ runs

/-- What a run keeps. While a worker handles an event of the descriptor
`busy`, that one may be disarmed. -/
structure MessengerInv (messenger : Messenger) (busy : Option Int32) : Prop where
  ok : MessengerOk messenger
  next : 0 < messenger.nextConnId.toInt ∧ messenger.nextConnId.toInt < 2 ^ 31
  ids : ∀ conn ∈ messenger.connList,
    0 < conn.id.toInt ∧ conn.id.toInt ≤ messenger.nextConnId.toInt
  armed : ∀ conn ∈ messenger.connList, conn.fd ≠ messenger.wakeThreadPipeFd →
    busy ≠ some conn.fd → conn.fd ∈ messenger.armed

namespace MessengerInv

variable {messenger : Messenger} {busy : Option Int32}

theorem fits (h : MessengerInv messenger busy) {conn : Connection}
    (hconn : conn ∈ messenger.connList) : IdFits conn := by
  obtain ⟨h0, hle⟩ := h.ids conn hconn
  have hlt := h.next.2
  exact (connIdToInt_toInt (by omega) (by omega)).symm

theorem start (fd : Int32) : MessengerInv
    { messengerNew fd with state := CCEPH_MESSENGER_STATE_NORMAL } none where
  ok := ⟨List.Pairwise.nil, List.Pairwise.nil⟩
  next := by
    show 0 < (1 : Int64).toInt ∧ (1 : Int64).toInt < 2 ^ 31
    decide
  ids := by
    intro conn h
    cases h
  armed := by
    intro conn h
    cases h

/-- Closing keeps it, whichever connection the search finds. -/
theorem closeConn (h : MessengerInv messenger busy) (id : Int64) :
    MessengerInv (messengerCloseConn messenger id).2 busy := by
  unfold messengerCloseConn
  cases hfind : messengerGetConnById messenger (connIdToInt id) with
  | none => exact h
  | some c =>
      have hsub : ∀ {conn}, conn ∈ messenger.connList.eraseP
          (fun conn => conn.id.toInt = (connIdToInt id).toInt) →
          conn ∈ messenger.connList := fun hmem => List.mem_of_mem_eraseP hmem
      refine ⟨⟨h.ok.ids.eraseP _, h.ok.fds.eraseP _⟩, h.next, ?_, ?_⟩
      · exact fun conn hconn => h.ids conn (hsub hconn)
      · intro conn hconn hwake hbusy
        have hne : conn.fd ≠ c.fd := ne_of_mem_eraseP h.ok.fds hfind conn hconn
        exact List.mem_filter.mpr ⟨h.armed conn (hsub hconn) hwake hbusy, by simp [hne]⟩

theorem disarm (h : MessengerInv messenger busy) (fd : Int32)
    (hbusy : busy = none) : MessengerInv (disarm messenger fd) (some fd) := by
  refine ⟨disarm_ok h.ok fd, h.next, h.ids, ?_⟩
  intro conn hconn hwake hne
  have hne : conn.fd ≠ fd := fun heq => hne (by rw [heq])
  have hmem := h.armed conn hconn hwake (by simp [hbusy])
  exact List.mem_filter.mpr ⟨hmem, by simp [hne]⟩

theorem waitForNextMsg (h : MessengerInv messenger busy) (fd : Int32) (ctl : Int) :
    MessengerInv (waitForNextMsg messenger fd ctl).2 busy := by
  refine ⟨⟨h.ok.ids, h.ok.fds⟩, h.next, h.ids, ?_⟩
  intro conn hconn hwake hbusy
  have hmem := h.armed conn hconn hwake hbusy
  show conn.fd ∈ if ctl = 0 then fd :: messenger.armed else messenger.armed
  split
  · exact List.mem_cons_of_mem _ hmem
  · exact hmem

/-- The worker is done with the descriptor: nothing is busy. -/
theorem release {fd : Int32} (h : MessengerInv messenger (some fd))
    (hfd : ∀ conn ∈ messenger.connList, conn.fd = fd →
      conn.fd ≠ messenger.wakeThreadPipeFd → conn.fd ∈ messenger.armed) :
    MessengerInv messenger none := by
  refine ⟨h.ok, h.next, h.ids, ?_⟩
  intro conn hconn hwake _
  by_cases heq : conn.fd = fd
  · exact hfd conn hconn heq hwake
  · exact h.armed conn hconn hwake fun hsome => heq (Option.some.inj hsome).symm

/-- Changing a connection's state changes nothing that matters. -/
theorem setState (h : MessengerInv messenger busy) (id state : Int32) :
    MessengerInv (messengerSetState messenger id state) busy := by
  have hmap : ∀ {β : Type} (g : Connection → β),
      (∀ conn s, g { conn with state := s } = g conn) →
      (messengerSetState messenger id state).connList.map g
        = messenger.connList.map g := by
    intro β g hg
    show (messenger.connList.replaceF _).map g = _
    induction messenger.connList with
    | nil => rfl
    | cons conn l ih =>
        rw [List.replaceF]
        by_cases heq : conn.id.toInt = id.toInt
        · simp [heq, hg]
        · simp only [if_neg heq, List.map_cons]
          rw [ih]
  have hids := hmap Connection.id fun _ _ => rfl
  have hfds := hmap Connection.fd fun _ _ => rfl
  have hboth := hmap (fun conn => (conn.id, conn.fd)) fun _ _ => rfl
  -- every record was there before, with the same id and descriptor
  have hold : ∀ conn ∈ (messengerSetState messenger id state).connList,
      ∃ c ∈ messenger.connList, c.id = conn.id ∧ c.fd = conn.fd := by
    intro conn hconn
    have hmem := List.mem_map_of_mem (f := fun conn => (conn.id, conn.fd)) hconn
    rw [hboth] at hmem
    obtain ⟨c, hc, heq⟩ := List.mem_map.mp hmem
    exact ⟨c, hc, congrArg Prod.fst heq, congrArg Prod.snd heq⟩
  refine ⟨⟨?_, ?_⟩, h.next, ?_, ?_⟩
  · have hpair := List.pairwise_map.mpr h.ok.ids
    rw [← hids] at hpair
    exact List.pairwise_map.mp hpair
  · have hpair := List.pairwise_map.mpr h.ok.fds
    rw [← hfds] at hpair
    exact List.pairwise_map.mp hpair
  · intro conn hconn
    obtain ⟨c, hc, hid, -⟩ := hold conn hconn
    rw [← hid]
    exact h.ids c hc
  · intro conn hconn hwake hbusy
    obtain ⟨c, hc, -, hfd⟩ := hold conn hconn
    rw [← hfd] at hwake hbusy ⊢
    exact h.armed c hc hwake hbusy

/-- A connection gets an id of its own. -/
theorem addConn (h : MessengerInv messenger none) {host : CString}
    {port fd state : Int32} {id : Int64} {messenger' : Messenger}
    (hfd : fd ∉ messenger.connList.map Connection.fd)
    (hnext : messenger.nextConnId.toInt + 1 < 2 ^ 31)
    (hadd : messengerAddConn messenger host port fd state 0 = .ok (id, messenger')) :
    MessengerInv messenger' none := by
  unfold messengerAddConn at hadd
  split at hadd
  · cases hadd
  · have hclose : ¬((0 : Int) < -1) := by decide
    simp only [if_neg hclose, if_true] at hadd
    cases hadd
    obtain ⟨hpos, hlt⟩ := h.next
    have hsum : (messenger.nextConnId + 1).toInt = messenger.nextConnId.toInt + 1 := by
      rw [Int64.toInt_add]
      have hone : (1 : Int64).toInt = 1 := by decide
      rw [hone]
      apply Int.bmod_eq_of_le <;> omega
    refine ⟨⟨?_, ?_⟩, ?_, ?_, ?_⟩
    · refine List.pairwise_cons.mpr ⟨?_, h.ok.ids⟩
      intro conn hconn heq
      have hle := (h.ids conn hconn).2
      have heq : messenger.nextConnId + 1 = conn.id := heq
      rw [← heq, hsum] at hle
      omega
    · refine List.pairwise_cons.mpr ⟨?_, h.ok.fds⟩
      intro conn hconn heq
      have heq : fd = conn.fd := heq
      exact hfd (heq ▸ List.mem_map_of_mem hconn)
    · show 0 < (messenger.nextConnId + 1).toInt
        ∧ (messenger.nextConnId + 1).toInt < 2 ^ 31
      omega
    · intro conn hconn
      rcases List.mem_cons.mp hconn with rfl | hconn
      · show 0 < (messenger.nextConnId + 1).toInt
          ∧ (messenger.nextConnId + 1).toInt ≤ (messenger.nextConnId + 1).toInt
        omega
      · have := h.ids conn hconn
        show _ ∧ conn.id.toInt ≤ (messenger.nextConnId + 1).toInt
        omega
    · intro conn hconn hwake hbusy
      rcases List.mem_cons.mp hconn with rfl | hconn
      · exact List.mem_cons_self
      · exact List.mem_cons_of_mem _ (h.armed conn hconn hwake hbusy)

/-- Sending closes the connection or changes nothing. -/
theorem sendMsg (h : MessengerInv messenger busy) {connId : Int64} {msg : Msg}
    {out out' : Outbox} {ret : Int} {messenger' : Messenger}
    (hsend : messengerSendMsg messenger connId msg out
      = .ok ((ret, messenger'), out')) : MessengerInv messenger' busy := by
  unfold messengerSendMsg at hsend
  obtain ⟨-, out1, hassert, hsend⟩ := bind_eq_ok hsend
  generalize messengerGetConnById messenger (connIdToInt connId) = found at hsend
  cases found with
  | none =>
      cases hsend
      exact h
  | some conn =>
      by_cases hclosed : conn.state = CCEPH_CONN_STATE_CLOSED
      · simp only [if_pos hclosed] at hsend
        cases hsend
        exact h
      · simp only [if_neg hclosed] at hsend
        obtain ⟨written, out2, hwrite, hsend⟩ := bind_eq_ok hsend
        by_cases hzero : written ≠ 0
        · simp only [if_pos hzero] at hsend
          cases hsend
          exact (h.setState _ _).closeConn connId
        · simp only [if_neg hzero] at hsend
          cases hsend
          exact h

/-- A worker with an event of `fd` upsets no other descriptor. -/
theorem event {fd : Int32} (h : MessengerInv messenger (some fd)) {events : UInt32}
    {ctl : Int} {inbox inbox' : Inbox} {handled : Handled}
    (hrun : startEpollEvent messenger ⟨events, fd⟩ ctl inbox = .ok (handled, inbox')) :
    MessengerInv handled.messenger (some fd)
      ∧ handled.messenger.wakeThreadPipeFd = messenger.wakeThreadPipeFd
      ∧ ∀ conn ∈ handled.messenger.connList, conn ∈ messenger.connList := by
  -- closing at any point keeps all three
  have hclose : ∀ {m : Messenger} (id : Int64), MessengerInv m (some fd) →
      m.wakeThreadPipeFd = messenger.wakeThreadPipeFd →
      (∀ conn ∈ m.connList, conn ∈ messenger.connList) →
      MessengerInv (messengerCloseConn m id).2 (some fd)
        ∧ (messengerCloseConn m id).2.wakeThreadPipeFd = messenger.wakeThreadPipeFd
        ∧ ∀ conn ∈ (messengerCloseConn m id).2.connList,
            conn ∈ messenger.connList := by
    intro m id hm hwake hsub
    refine ⟨hm.closeConn id, ?_, ?_⟩
    · rw [← hwake]
      unfold messengerCloseConn
      split <;> rfl
    · intro conn hconn
      rw [messengerCloseConn_connList] at hconn
      exact hsub conn (List.mem_of_mem_eraseP hconn)
  unfold startEpollEvent at hrun
  generalize messengerGetConnByFd messenger fd = found at hrun
  cases found with
  | none =>
      cases hrun
      exact ⟨h, rfl, fun _ hconn => hconn⟩
  | some conn =>
      by_cases herr : isConnErr ⟨events, fd⟩ = true
      · simp only [if_pos herr] at hrun
        cases hrun
        exact hclose conn.id h rfl fun _ hconn => hconn
      simp only [if_neg herr] at hrun
      by_cases hwake : fd = messenger.wakeThreadPipeFd
      · simp only [if_pos hwake] at hrun
        unfold startEpollWake at hrun
        generalize messenger.wakeThreadPipe = pipe at hrun
        cases pipe with
        | nil => cases hrun
        | cons op rest =>
            obtain ⟨-, inbox1, -, hrun⟩ := bind_eq_ok hrun
            obtain ⟨-, inbox2, -, hrun⟩ := bind_eq_ok hrun
            cases hrun
            have hpipe : MessengerInv { messenger with wakeThreadPipe := rest }
                (some fd) := ⟨⟨h.ok.ids, h.ok.fds⟩, h.next, h.ids, h.armed⟩
            exact ⟨hpipe.waitForNextMsg fd ctl, rfl, fun _ hconn => hconn⟩
      simp only [if_neg hwake] at hrun
      cases readMsg_outcome messenger conn.id inbox with
      | closed inbox1 hread hwhy =>
          rw [bind_ok hread] at hrun
          cases hrun
          exact hclose conn.id h rfl fun _ hconn => hconn
      | kept inbox1 hread hrejected =>
          rw [bind_ok hread] at hrun
          cases hrun
          exact ⟨h, rfl, fun _ hconn => hconn⟩
      | message msg inbox1 hread htaken hwire =>
          rw [bind_ok hread] at hrun
          cases hrun
          have hwait := h.waitForNextMsg fd ctl
          show MessengerInv (if ctl < -1 then _ else _) _
            ∧ (if ctl < -1 then _ else _ : Messenger).wakeThreadPipeFd = _
            ∧ ∀ conn ∈ (if ctl < -1 then _ else _ : Messenger).connList, _
          by_cases hlt : ctl < -1
          · simp only [if_pos hlt]
            exact hclose conn.id hwait rfl fun _ hconn => hconn
          · simp only [if_neg hlt]
            exact ⟨hwait, rfl, fun _ hconn => hconn⟩
      | crash e hread hwhy =>
          rw [bind_error hread] at hrun
          cases hrun

/-- One step whose condition holds. -/
theorem step {messenger' : Messenger} {act : MessengerAct}
    (h : MessengerInv messenger none) (hact : MessengerActOk messenger act)
    (hstep : messengerStep messenger act = some messenger') :
    MessengerInv messenger' none := by
  cases act with
  | addConn host port fd state ctl =>
      obtain ⟨rfl, hnext⟩ := hact
      unfold messengerStep at hstep
      by_cases hfd : fd ∈ messenger.connList.map Connection.fd
      · simp only [if_pos hfd] at hstep
        cases hstep
      · simp only [if_neg hfd] at hstep
        cases hadd : messengerAddConn messenger host port fd state 0 with
        | error e => rw [hadd] at hstep; cases hstep
        | ok r =>
            rw [hadd] at hstep
            cases hstep
            exact h.addConn hfd hnext hadd
  | event event ctl inbox =>
      obtain ⟨events, fd⟩ := event
      unfold messengerStep at hstep
      by_cases harmed : fd ∈ messenger.armed
      · simp only [if_pos harmed] at hstep
        cases hrun : startEpollEvent (CephInC.disarm messenger fd) ⟨events, fd⟩ ctl
            inbox with
        | error e => rw [hrun] at hstep; cases hstep
        | ok r =>
            obtain ⟨handled, inbox'⟩ := r
            rw [hrun] at hstep
            cases hstep
            obtain ⟨hinv, hwake, hsub⟩ := (h.disarm fd rfl).event hrun
            apply hinv.release
            rintro conn hconn rfl hdata
            rw [hwake] at hdata
            have hmem := hsub conn hconn
            have hsettles := startEpollEvent_settles_of_ok h.ok hmem hdata
              (h.fits hmem) (hact conn hmem rfl hdata)
            rcases hsettles handled inbox' hrun with harm | hnot
            · exact harm
            · exact absurd hconn hnot
      · simp only [if_neg harmed] at hstep
        cases hstep
  | sendMsg connId msg out =>
      unfold messengerStep at hstep
      cases hsend : messengerSendMsg messenger connId msg out with
      | error e => simp only [hsend] at hstep; cases hstep
      | ok r =>
          simp only [hsend] at hstep
          cases hstep
          exact h.sendMsg hsend
  | closeConn id =>
      cases hstep
      exact h.closeConn id

/-- A run whose steps all meet their conditions. -/
theorem reached {messenger : Messenger}
    (h : messengerSystem.Reached MessengerActOk messenger) :
    MessengerInv messenger none := by
  refine h.invariant (I := fun m => MessengerInv m none) ?_ ?_
  · rintro m ⟨fd, rfl⟩
    exact .start fd
  · exact fun m act m' hm hact hstep => hm.step hact hstep

end MessengerInv

-- ======================================================= the main result

/-- An event of a listed data connection leaves it armed or unlisted
exactly if its condition holds; and in a run whose steps all meet their
conditions, no data connection is ever listed without being armed. -/
theorem conn_armed_or_unlisted (messenger : Messenger) :
    (∀ conn events ctl inbox, MessengerOk messenger →
      conn ∈ messenger.connList → conn.fd ≠ messenger.wakeThreadPipeFd →
      inbox.allocs = .plenty →
      (EventSettles messenger conn events ctl inbox
        ↔ EventOk conn events ctl inbox.delivered))
    ∧ (messengerSystem.Reached MessengerActOk messenger →
      ∀ conn ∈ messenger.connList, conn.fd ≠ messenger.wakeThreadPipeFd →
        conn.fd ∈ messenger.armed) := by
  constructor
  · intro conn events ctl inbox hok hconn hwake hplenty
    exact startEpollEvent_settles_iff hok hconn hwake events ctl hplenty
  · intro h conn hconn hwake
    exact (MessengerInv.reached h).armed conn hconn hwake (by simp)

theorem conn_armed_or_unlisted_ack :
    EventSettles firstMessenger firstConn EPOLLIN 0 ackArrives := by
  have hheader : wireHeader ackArrives.delivered
      = some (⟨2, 9⟩, [0, 0, 0, 0, 7, 0, 0, 0, 0, 0, 0, 0, 1]) := rfl
  have hok : MessengerOk firstMessenger :=
    ⟨List.pairwise_singleton _ _, List.pairwise_singleton _ _⟩
  have hevent : EventOk firstConn EPOLLIN 0 ackArrives.delivered := by
    refine ⟨fun _ => by unfold IdFits; decide, fun _ => ?_, fun _ _ => .inl rfl⟩
    unfold Rejected
    rw [afterHeader_iff hheader]
    rintro (⟨-, hack, -⟩ | ⟨hwrite, -⟩)
    · exact hack rfl
    · exact absurd hwrite (by decide)
  exact ((conn_armed_or_unlisted firstMessenger).1 firstConn EPOLLIN 0 ackArrives hok
    List.mem_cons_self (by decide) rfl).mpr hevent

/-- A header with an operation nobody knows. -/
def unknownArrives : Inbox :=
  oneChunk [9, 0, 0, 0, 0, 0, 0, 0, 0] (by decide) (by decide)

/-- One connection is added, a peer sends an unknown operation, and the
connection stays listed and unarmed. -/
theorem conn_neither_armed_nor_unlisted :
    ∃ messenger, messengerSystem.exec
        { messengerNew 3 with state := CCEPH_MESSENGER_STATE_NORMAL }
        [.addConn ⟨[104], by decide⟩ 9000 5 1 0,
          .event ⟨EPOLLIN, 5⟩ 0 unknownArrives] = some messenger
      ∧ firstConn.fd ≠ messenger.wakeThreadPipeFd
      ∧ ¬Settled firstConn messenger := by
  refine ⟨{ firstMessenger with armed := [] }, rfl, by decide, ?_⟩
  rintro (hmem | hnot)
  · cases hmem
  · exact hnot List.mem_cons_self

end CephInC
