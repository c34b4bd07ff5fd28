/-
One connection for an address, if `connect` is not raced.

What a step does comes first (`GetDone`). The invariant of an address is
that at most one thread holds a connection to it that is not listed, and
only while none is listed; so a section of the list finds none to the
address, and every later lookup finds that one.

The other way round, one raced `connect` is enough: the thread that won
and the thread that lost each add what they have (`connect_raced`).
-/
import CephInC.Message.GetConn

namespace CephInC

open Lib

section
variable {s s' : GetConns} {host : CString} {port : Int32}

theorem mem_connsTo {conn : Connection} :
    conn ∈ s.connsTo host port
      ↔ conn ∈ s.messenger.connList ∧ conn.host = host ∧ conn.port = port := by
  unfold GetConns.connsTo
  rw [List.mem_filter, decide_eq_true_iff]

/-- An id that the lookup gives is that of a connection to the address. -/
theorem messengerFindConnId_mem (h : messengerFindConnId s.messenger host port ≠ -1) :
    ∃ conn ∈ s.connsTo host port, messengerFindConnId s.messenger host port = conn.id := by
  unfold messengerFindConnId at h ⊢
  cases hfind : messengerGetConnByHostAndPort s.messenger host port with
  | none =>
      rw [hfind] at h
      exact absurd rfl h
  | some conn =>
      have hconn := List.find?_some hfind
      obtain ⟨hport, hhost⟩ := of_decide_eq_true hconn
      refine ⟨conn, mem_connsTo.mpr ⟨List.mem_of_find?_eq_some hfind, ?_, hport⟩, rfl⟩
      exact linearCmp_strcmp.eq_zero.mp hhost

-- =============================================================== one step

/-- What a step does. -/
inductive GetDone (s : GetConns) : GetAct → GetConns → Prop
  | found (t host port) (conn : Connection) (hconn : conn ∈ s.connsTo host port) :
      GetDone s (.lookup t host port) { s with answers := ⟨host, port, conn.id⟩ :: s.answers }
  | missed (t host port) : GetDone s (.lookup t host port) (s.move t (.missed host port))
  | refused (t fd ret) (hret : ret < 0) : GetDone s (.connect t fd ret) (s.move t .free)
  | connected (t fd ret host port) (hat : s.threads t = .missed host port) (hret : ret ≥ 0) :
      GetDone s (.connect t fd ret) (s.move t (.connected host port fd))
  | numbered (t host port fd) (hat : s.threads t = .connected host port fd) :
      GetDone s (.takeId t) (s.number t host port fd)
  | listed (t state host port fd id) (hat : s.threads t = .numbered host port fd id) :
      GetDone s (.list t state) (s.list t host port fd id state)
  | returned (t ctl host port fd id) (hat : s.threads t = .listed host port fd id) :
      GetDone s (.register t ctl)
        { s.move t .free with
          messenger := (waitForNextMsg s.messenger fd ctl).2
          answers := ⟨host, port, id⟩ :: s.answers }

theorem getConnStep_done {a : GetAct} (h : getConnStep s a = some s') : GetDone s a s' := by
  cases a with
  | lookup t host port =>
      cases hat : s.threads t with
      | free =>
          simp only [getConnStep, hat] at h
          split_ifs at h with hasserted hfound
          · cases h
            obtain ⟨conn, hconn, hid⟩ := messengerFindConnId_mem hfound
            rw [hid]
            exact .found t host port conn hconn
          · cases h
            exact .missed t host port
      | _ => simp only [getConnStep, hat, reduceCtorEq] at h
  | connect t fd ret =>
      cases hat : s.threads t with
      | missed host port =>
          simp only [getConnStep, hat] at h
          split_ifs at h with hret
          · cases h
            exact .refused t fd ret hret
          · cases h
            exact .connected t fd ret host port hat (by omega)
      | _ => simp only [getConnStep, hat, reduceCtorEq] at h
  | takeId t =>
      cases hat : s.threads t with
      | connected host port fd =>
          simp only [getConnStep, hat] at h
          split_ifs at h with hasserted
          cases h
          exact .numbered t host port fd hat
      | _ => simp only [getConnStep, hat, reduceCtorEq] at h
  | list t state =>
      cases hat : s.threads t with
      | numbered host port fd id =>
          simp only [getConnStep, hat] at h
          cases h
          exact .listed t state host port fd id hat
      | _ => simp only [getConnStep, hat, reduceCtorEq] at h
  | register t ctl =>
      cases hat : s.threads t with
      | listed host port fd id =>
          simp only [getConnStep, hat] at h
          split_ifs at h with hasserted
          cases h
          exact .returned t ctl host port fd id hat
      | _ => simp only [getConnStep, hat, reduceCtorEq] at h

-- ========================================================== the invariant

/-- Who holds a connection to the address, who has listed one, and what
was returned. -/
structure Streamed (s : GetConns) (host : CString) (port : Int32) : Prop where
  single : (s.connsTo host port).length ≤ 1
  unlisted : ∀ t, (s.threads t).holds = some (host, port) → s.connsTo host port = []
  alone : ∀ t u, (s.threads t).holds = some (host, port) →
    (s.threads u).holds = some (host, port) → t = u
  mine : ∀ t fd id, s.threads t = .listed host port fd id →
    ∃ conn ∈ s.connsTo host port, id = conn.id
  answered : ∀ answer ∈ s.answers, answer.host = host → answer.port = port →
    ∃ conn ∈ s.connsTo host port, answer.id = conn.id

theorem Streamed.oneStream (h : Streamed s host port) : OneStream s host port :=
  ⟨h.single, h.answered⟩

theorem GetConns.Start.streamed (h : s.Start) (host : CString) (port : Int32) :
    Streamed s host port := by
  have hconns : s.connsTo host port = [] := by
    unfold GetConns.connsTo
    rw [h.empty]
    rfl
  refine ⟨?_, fun _ _ => hconns, ?_, ?_, ?_⟩
  · rw [hconns]
    exact Nat.zero_le 1
  · intro t u ht
    rw [h.outside] at ht
    cases ht
  · intro t fd id ht
    rw [h.outside] at ht
    cases ht
  · intro answer hanswer
    rw [h.unanswered] at hanswer
    cases hanswer

theorem threads_move (s : GetConns) (t : Nat) (phase : GetPhase) (u : Nat) :
    (s.move t phase).threads u = if u = t then phase else s.threads u :=
  Function.update_apply s.threads t phase u

/-- A thread moves on, and the connections to the address stay as they
are: what it comes to hold for it no other thread holds. -/
theorem Streamed.moved (h : Streamed s host port) {t : Nat} {phase : GetPhase}
    {messenger : Messenger}
    (hconns : GetConns.connsTo { s.move t phase with messenger } host port
      = s.connsTo host port)
    (hlisted : ∀ fd id, phase ≠ .listed host port fd id)
    (hfirst : phase.holds = some (host, port) → s.connsTo host port = []
      ∧ ∀ u, u ≠ t → (s.threads u).holds ≠ some (host, port)) :
    Streamed { s.move t phase with messenger } host port := by
  refine ⟨?_, ?_, ?_, ?_, ?_⟩
  · rw [hconns]
    exact h.single
  · intro u hu
    rw [hconns]
    rw [threads_move] at hu
    split_ifs at hu
    · exact (hfirst hu).1
    · exact h.unlisted u hu
  · intro u v hu hv
    rw [threads_move] at hu hv
    split_ifs at hu hv with hut hvt hvt
    · rw [hut, hvt]
    · exact absurd hv ((hfirst hu).2 v hvt)
    · exact absurd hu ((hfirst hv).2 u hut)
    · exact h.alone u v hu hv
  · intro u fd id hu
    rw [hconns]
    rw [threads_move] at hu
    split_ifs at hu
    · exact absurd hu (hlisted fd id)
    · exact h.mine u fd id hu
  · rw [hconns]
    exact h.answered

/-- A call returns an id: if it is for the address, that of a connection
to it. -/
theorem Streamed.answer (h : Streamed s host port) {answer : GetAnswer}
    (hconn : answer.host = host → answer.port = port →
      ∃ conn ∈ s.connsTo host port, answer.id = conn.id) :
    Streamed { s with answers := answer :: s.answers } host port := by
  refine ⟨h.single, h.unlisted, h.alone, h.mine, ?_⟩
  intro a ha
  rcases List.mem_cons.mp ha with rfl | ha
  · exact hconn
  · exact h.answered a ha

theorem connsTo_list (s : GetConns) (t : Nat) (host : CString) (port fd : Int32) (id : Int64)
    (state : Int32) :
    (s.list t host port fd id state).connsTo host port
      = ⟨id, host, port, fd, state⟩ :: s.connsTo host port :=
  List.filter_cons_of_pos (decide_eq_true ⟨rfl, rfl⟩)

theorem connsTo_list_other {host' : CString} {port' : Int32}
    (h : ¬(host' = host ∧ port' = port)) (t : Nat) (fd : Int32) (id : Int64) (state : Int32) :
    (s.list t host' port' fd id state).connsTo host port = s.connsTo host port :=
  List.filter_cons_of_neg fun hsame => h (of_decide_eq_true hsame)

/-- The connection a thread holds goes into the list. -/
theorem Streamed.list (h : Streamed s host port) {t : Nat} {host' : CString}
    {port' fd state : Int32} {id : Int64} (hat : s.threads t = .numbered host' port' fd id) :
    Streamed (s.list t host' port' fd id state) host port := by
  by_cases hsame : host' = host ∧ port' = port
  · obtain ⟨rfl, rfl⟩ := hsame
    have hholds : (s.threads t).holds = some (host', port') := by
      rw [hat]
      rfl
    -- it is the first one, and no thread is left with another
    have hconns := connsTo_list s t host' port' fd id state
    have hnone := h.unlisted t hholds
    have hthread := threads_move s t (.listed host' port' fd id)
    have hother : ∀ u, ((s.list t host' port' fd id state).threads u).holds
        ≠ some (host', port') := by
      intro u hu
      rw [show (s.list t host' port' fd id state).threads u = _ from hthread u] at hu
      split_ifs at hu with hut
      · cases hu
      · exact hut (h.alone u t hu hholds)
    rw [hnone] at hconns
    refine ⟨?_, fun u hu => absurd hu (hother u), fun u v hu _ => absurd hu (hother u), ?_, ?_⟩
    · rw [hconns]
      exact Nat.le_refl 1
    · intro u fd' id' hu
      rw [show (s.list t host' port' fd id state).threads u = _ from hthread u] at hu
      rw [hconns]
      split_ifs at hu
      · cases hu
        exact ⟨_, List.mem_cons_self, rfl⟩
      · obtain ⟨conn, hconn, -⟩ := h.mine u fd' id' hu
        rw [hnone] at hconn
        cases hconn
    · intro answer hanswer hhost hport
      obtain ⟨conn, hconn, -⟩ := h.answered answer hanswer hhost hport
      rw [hnone] at hconn
      cases hconn
  · refine h.moved (connsTo_list_other hsame t fd id state) ?_ ?_
    · intro fd' id' heq
      cases heq
      exact hsame ⟨rfl, rfl⟩
    · intro hholds
      cases hholds

/-- One step, whatever its address, if no connect is raced. -/
theorem Streamed.step {a : GetAct} (h : Streamed s host port) (ha : ConnectsFirst s a)
    (hstep : getConnStep s a = some s') : Streamed s' host port := by
  cases getConnStep_done hstep with
  | found t host' port' conn hconn =>
      apply h.answer
      rintro rfl rfl
      exact ⟨conn, hconn, rfl⟩
  | missed t host' port' =>
      refine h.moved rfl (fun _ _ heq => ?_) (fun hholds => ?_)
      · cases heq
      · cases hholds
  | refused t fd ret hret =>
      refine h.moved rfl (fun _ _ heq => ?_) (fun hholds => ?_)
      · cases heq
      · cases hholds
  | connected t fd ret host' port' hat hret =>
      refine h.moved rfl (fun _ _ heq => ?_) (fun hholds => ?_)
      · cases heq
      · cases hholds
        obtain ⟨hconns, hothers⟩ := ha host port hat hret
        exact ⟨hconns, fun u _ => hothers u⟩
  | numbered t host' port' fd hat =>
      refine h.moved rfl (fun _ _ heq => ?_) (fun hholds => ?_)
      · cases heq
      · cases hholds
        have hheld : (s.threads t).holds = some (host, port) := by
          rw [hat]
          rfl
        exact ⟨h.unlisted t hheld, fun u hut hu => hut (h.alone u t hu hheld)⟩
  | listed t state host' port' fd id hat => exact h.list hat
  | returned t ctl host' port' fd id hat =>
      have hmoved : Streamed { s.move t .free with
          messenger := (waitForNextMsg s.messenger fd ctl).2 } host port := by
        refine h.moved rfl (fun _ _ heq => ?_) (fun hholds => ?_)
        · cases heq
        · cases hholds
      apply hmoved.answer
      rintro rfl rfl
      exact h.mine t fd id hat

end

-- ======================================================= a raced connect

section
variable {s s' : GetConns} {host : CString} {port : Int32}

/-- The messenger stays as it was started. -/
theorem reachable_normal (h : getConnSystem.Reachable s) :
    s.messenger.state = CCEPH_MESSENGER_STATE_NORMAL := by
  refine h.invariant (I := fun s => s.messenger.state = CCEPH_MESSENGER_STATE_NORMAL) ?_ ?_
  · exact fun s (hs : s.Start) => hs.normal
  · intro s a s' hs _ hstep
    cases getConnStep_done hstep <;> exact hs

/-- A thread that holds a connection can list it, and nobody else moves. -/
theorem lists (hnormal : s.messenger.state = CCEPH_MESSENGER_STATE_NORMAL) {t : Nat}
    (hholds : (s.threads t).holds = some (host, port)) :
    ∃ s', getConnSystem.Leads s s' ∧ s'.messenger.state = CCEPH_MESSENGER_STATE_NORMAL
      ∧ (s'.connsTo host port).length = (s.connsTo host port).length + 1
      ∧ ∀ u, u ≠ t → s'.threads u = s.threads u := by
  have hlist : ∀ {s : GetConns} {fd : Int32} {id : Int64},
      s.threads t = .numbered host port fd id →
      getConnSystem.step s (.list t 0) = some (s.list t host port fd id 0) := by
    intro s fd id hat
    show getConnStep s (.list t 0) = _
    simp only [getConnStep, hat]
  cases hat : s.threads t with
  | free | missed _ _ | listed _ _ _ _ =>
      rw [hat] at hholds
      cases hholds
  | numbered host' port' fd id =>
      rw [hat] at hholds
      cases hholds
      refine ⟨s.list t host port fd id 0, .step (hlist hat), hnormal, ?_, ?_⟩
      · rw [connsTo_list, List.length_cons]
      · exact fun u hut => Function.update_of_ne hut _ _
  | connected host' port' fd =>
      rw [hat] at hholds
      cases hholds
      have htake : getConnSystem.step s (.takeId t) = some (s.number t host port fd) := by
        show getConnStep s (.takeId t) = _
        simp only [getConnStep, hat, if_pos hnormal]
      have hnumbered : (s.number t host port fd).threads t
          = .numbered host port fd (s.messenger.nextConnId + 1) := Function.update_self ..
      refine ⟨(s.number t host port fd).list t host port fd (s.messenger.nextConnId + 1) 0,
        .trans (.step htake) (.step (hlist hnumbered)), hnormal, ?_, ?_⟩
      · rw [connsTo_list, List.length_cons]
        rfl
      · intro u hut
        exact (Function.update_of_ne hut _ _).trans (Function.update_of_ne hut _ _)

/-- After a raced connect a run splits the stream of its address. -/
theorem connect_raced (h : getConnSystem.Reachable s) {a : GetAct}
    (hstep : getConnSystem.step s a = some s') (ha : ¬ConnectsFirst s a) :
    ∃ host port s'', getConnSystem.Leads s' s'' ∧ ¬OneStream s'' host port := by
  have hnormal := reachable_normal h
  cases getConnStep_done hstep with
  | connected t fd ret host port hat hret =>
      have hholds : ((s.move t (.connected host port fd)).threads t).holds = some (host, port) := by
        rw [threads_move, if_pos rfl]
        rfl
      refine ⟨host, port, ?_⟩
      by_cases hconns : s.connsTo host port = []
      · -- another thread has not listed its connection yet
        have hother : ∃ u, (s.threads u).holds = some (host, port) := by
          by_contra hnone
          refine ha fun host' port' hat' _ => ?_
          rw [hat] at hat'
          cases hat'
          exact ⟨hconns, fun u hu => hnone ⟨u, hu⟩⟩
        obtain ⟨u, hu⟩ := hother
        have hut : u ≠ t := by
          intro heq
          rw [heq, hat] at hu
          cases hu
        have hu' : ((s.move t (.connected host port fd)).threads u).holds = some (host, port) := by
          rw [threads_move, if_neg hut]
          exact hu
        obtain ⟨s₁, hleads₁, hnormal₁, hlength₁, hothers₁⟩ := lists (show
          (s.move t (.connected host port fd)).messenger.state = _ from hnormal) hu'
        rw [← hothers₁ t hut.symm] at hholds
        obtain ⟨s₂, hleads₂, -, hlength₂, -⟩ := lists hnormal₁ hholds
        refine ⟨s₂, hleads₁.trans hleads₂, fun hone => ?_⟩
        have hsingle := hone.single
        omega
      · -- another thread's connection is in the list
        obtain ⟨s₁, hleads, -, hlength, -⟩ := lists (show
          (s.move t (.connected host port fd)).messenger.state = _ from hnormal) hholds
        refine ⟨s₁, hleads, fun hone => ?_⟩
        have hsingle := hone.single
        have hpos : 0 < (s.connsTo host port).length := List.length_pos_of_ne_nil hconns
        have hsame : (s.move t (.connected host port fd)).connsTo host port
            = s.connsTo host port := rfl
        rw [hsame] at hlength
        omega
  | refused t fd ret hret =>
      refine absurd (fun host port _ hok => ?_) ha
      omega
  | _ => exact absurd trivial ha

end

-- ======================================================= the main result

/-- Where no connect is raced, every address has one stream. -/
theorem getConn_oneStream {s : GetConns} (h : getConnSystem.Reached ConnectsFirst s)
    (host : CString) (port : Int32) : OneStream s host port := by
  have hstart : ∀ s, getConnSystem.init s → Streamed s host port :=
    fun s (hs : s.Start) => hs.streamed host port
  have hstep : ∀ s a s', Streamed s host port → ConnectsFirst s a →
      getConnSystem.step s a = some s' → Streamed s' host port :=
    fun s a s' hs ha hrun => hs.step ha hrun
  exact (h.invariant hstart hstep).oneStream

/-- `"a"`, and nobody in the function. -/
def hostA : CString := ⟨[97], noNul_a⟩

def getConnsStart : GetConns where
  messenger := { messengerNew 3 with state := CCEPH_MESSENGER_STATE_NORMAL }
  threads := fun _ => .free
  answers := []

theorem getConnsStart_start : getConnsStart.Start := ⟨rfl, rfl, rfl, fun _ => rfl, rfl⟩

/-- Thread 0 connects, and thread 1 finds its connection. -/
def oneAfterOther : List GetAct :=
  [.lookup 0 hostA 9000, .connect 0 7 0, .takeId 0, .list 0 0, .register 0 0,
    .lookup 1 hostA 9000]

theorem getConn_oneStream_after : ∃ s, getConnSystem.exec getConnsStart oneAfterOther = some s
    ∧ s.answers.length = 2 ∧ OneStream s hostA 9000 := by
  have hstart : getConnSystem.Reached ConnectsFirst getConnsStart := .start getConnsStart_start
  have hmissed := hstart.next (a := .lookup 0 hostA 9000) (by exact trivial) rfl
  have hfirst : ConnectsFirst (getConnsStart.move 0 (.missed hostA 9000)) (.connect 0 7 0) := by
    intro host port hat _
    refine ⟨rfl, fun u hu => ?_⟩
    rw [threads_move] at hu
    split_ifs at hu
    · cases hu
    · cases hu
  have hconnected := hmissed.next hfirst rfl
  have hnumbered := hconnected.next (a := .takeId 0) (by exact trivial) rfl
  have hlisted := hnumbered.next (a := .list 0 0) (by exact trivial) rfl
  have hreturned := hlisted.next (a := .register 0 0) (by exact trivial) rfl
  have hfound := hreturned.next (a := .lookup 1 hostA 9000) (by exact trivial) rfl
  exact ⟨_, rfl, rfl, getConn_oneStream hfound hostA 9000⟩

/-- Both threads look before one of them connects. -/
def bothAtOnce : List GetAct :=
  [.lookup 0 hostA 9000, .lookup 1 hostA 9000, .connect 0 7 0, .connect 1 8 0, .takeId 0,
    .list 0 0, .register 0 0, .takeId 1, .list 1 0, .register 1 0]

theorem getConn_raced :
    ¬∀ (s : GetConns) (host : CString) (port : Int32), getConnSystem.Reachable s →
      OneStream s host port := by
  intro h
  have hreached : getConnSystem.Reachable getConnsStart := .start getConnsStart_start
  have hone := h _ hostA 9000 (hreached.exec bothAtOnce (fun _ _ _ => trivial) rfl)
  exact absurd hone.single (by decide)

end CephInC
