/-
The threads over the wait list in memory do what the threads over the
list as a value do, step by step. One step of the memory is one of the
value, and the state after it holds the state after that
(`MemHolds.step`); so a run of the memory holds, step after step, the run
of the value with the same actions (`CallMemInv.run`). No section of the
code ever meets a freed entry, and every law of `Client/Threads.lean` is
one of the memory.
-/
import CephInC.Client.Proofs.Listed
import CephInC.Client.Proofs.WaitMem

namespace CephInC

open Lib

-- ============================================================ the records

namespace WaitMemory

variable {m m' : Records WaitReq} {head a : Nat} {entries entries' pre post : List (Nat × WaitReq)}
  {taken lost taken' lost' : List Nat}

/-- The records in use change hands. -/
theorem moved (h : WaitMemory m head entries taken lost) (hlists : m'.Lists head entries')
    (hsame : ∀ a, (m'.recs a).isSome = (m.recs a).isSome)
    (hperm : (entries'.map Prod.fst ++ taken' ++ lost').Perm
      (entries.map Prod.fst ++ taken ++ lost)) :
    WaitMemory m' head entries' taken' lost' := by
  refine ⟨hlists, hperm.nodup_iff.mpr h.distinct, fun a => ?_, ?_⟩
  · rw [hsame a, h.used a]
    exact hperm.mem_iff.symm
  · have hhead := hsame head
    rw [h.head] at hhead
    exact Option.not_isSome_iff_eq_none.mp (by rw [hhead]; exact Bool.false_ne_true)

theorem add (h : WaitMemory m head entries taken lost) (hnode : m.nodes a = none)
    (hrec : m.recs a = none) (w : WaitReq) (junk : Links Nat) :
    ∃ m', (do recordNew a w junk; onNodes (listAdd a head) : Prog (Records WaitReq) Unit) m
        = .ok ((), m')
      ∧ WaitMemory m' head ((a, w) :: entries) taken lost := by
  obtain ⟨m', hrun, hlists, -, hrecs⟩ := h.lists.add hnode w junk
  have hnew : a ∉ entries.map Prod.fst ++ taken ++ lost := by
    intro hmem
    have hused := (h.used a).mpr hmem
    rw [hrec] at hused
    cases hused
  refine ⟨m', hrun, hlists, List.nodup_cons.mpr ⟨hnew, h.distinct⟩, fun c => ?_, ?_⟩
  · rw [hrecs]
    show _ ↔ c ∈ a :: (entries.map Prod.fst ++ taken ++ lost)
    by_cases hc : c = a
    · rw [hc, Function.update_self]
      exact iff_of_true rfl List.mem_cons_self
    · rw [Function.update_of_ne hc, h.used c, List.mem_cons]
      exact (or_iff_right hc).symm
  · have hne : head ≠ a := by
      rintro rfl
      exact h.lists.fresh hnode List.mem_cons_self
    rw [hrecs, Function.update_of_ne hne]
    exact h.head

/-- What is taken off the list. -/
theorem perm_out (pre : List (Nat × WaitReq)) (entry : Nat × WaitReq)
    (post : List (Nat × WaitReq)) (rest : List Nat) :
    ((pre ++ post).map Prod.fst ++ entry.1 :: rest).Perm
      ((pre ++ entry :: post).map Prod.fst ++ rest) := by
  rw [List.map_append, List.map_append, List.map_cons, List.append_assoc, List.append_assoc]
  refine List.Perm.append_left _ ?_
  exact List.perm_middle

theorem take {entry : Nat × WaitReq}
    (h : WaitMemory m head (pre ++ entry :: post) taken lost)
    (hlists : m'.Lists head (pre ++ post)) (hrecs : m'.recs = m.recs) :
    WaitMemory m' head (pre ++ post) (entry.1 :: taken) lost := by
  refine h.moved hlists (fun c => by rw [hrecs]) ?_
  have hperm := perm_out pre entry post (taken ++ lost)
  rw [← List.cons_append, ← List.append_assoc, ← List.append_assoc] at hperm
  exact hperm

theorem lose {entry : Nat × WaitReq}
    (h : WaitMemory m head (pre ++ entry :: post) taken lost)
    (hlists : m'.Lists head (pre ++ post)) (hrecs : m'.recs = m.recs) :
    WaitMemory m' head (pre ++ post) taken (entry.1 :: lost) := by
  refine h.moved hlists (fun c => by rw [hrecs]) ?_
  have hperm := perm_out pre entry post (taken ++ lost)
  rw [← List.append_assoc] at hperm
  refine List.Perm.trans ?_ hperm
  rw [List.append_assoc]
  exact List.Perm.append_left _ List.perm_middle

/-- `wait_for_req` frees what `is_req_finished` has taken off the list. -/
theorem free (h : WaitMemory m head entries taken lost) (ha : a ∈ taken) :
    ∃ m', recordFree a m = .ok ((), m')
      ∧ WaitMemory m' head entries (taken.erase a) lost := by
  have hperm : (entries.map Prod.fst ++ taken ++ lost).Perm
      (a :: (entries.map Prod.fst ++ taken.erase a ++ lost)) := by
    refine (List.Perm.append_right lost
      (List.Perm.append_left _ (List.perm_cons_erase ha))).trans ?_
    rw [List.append_assoc, List.append_assoc]
    exact List.perm_middle
  have hdist := List.nodup_cons.mp (hperm.nodup_iff.mp h.distinct)
  have hused : (m.recs a).isSome := (h.used a).mpr (hperm.mem_iff.mpr List.mem_cons_self)
  have hne : a ≠ head := by
    rintro rfl
    rw [h.head] at hused
    cases hused
  refine ⟨_, recordFree_run hused, h.lists.free ?_, hdist.2, fun c => ?_, ?_⟩
  · intro hmem
    rcases List.mem_cons.mp hmem with heq | hmem
    · exact hne heq
    · exact hdist.1 (List.mem_append_left _ (List.mem_append_left _ hmem))
  · show (Function.update m.recs a none c).isSome ↔ _
    by_cases hc : c = a
    · rw [hc, Function.update_self]
      exact iff_of_false Bool.false_ne_true hdist.1
    · rw [Function.update_of_ne hc, h.used c, hperm.mem_iff, List.mem_cons]
      exact or_iff_right hc
  · exact (Function.update_of_ne hne.symm _ _).trans h.head

end WaitMemory

-- ============================================================== the steps

variable {check : Bool} {m : CallsMem} {s : Calls} {entries : List (Nat × WaitReq)}
  {lost : List Nat}

theorem addReq_rel (hmem : WaitMemory m.client.mem m.client.waitReqList entries m.taken lost)
    (hlost : lost.length = m.failed) {t entry : Nat} {junk : Links Nat}
    (hfit : MemFits m (.addReq t entry junk)) :
    Option.Rel MemHolds (callMemStep check m (.addReq t entry junk))
      (callStep check (m.toCalls (entries.map Prod.snd)) (.addReq t)) := by
  have hthreads : (m.toCalls (entries.map Prod.snd)).threads = m.threads := rfl
  simp only [callMemStep, callStep, hthreads]
  cases hmine : m.threads[t]? with
  | none => exact .none
  | some caller =>
      cases caller with
      | numbered addr req =>
          obtain ⟨mem, hrun, hmem'⟩ := hmem.add hfit.1 hfit.2
            ⟨addr, .writeObjReq req, 0, 0, m.client.osdmap.osdCount⟩ junk
          have hadd : memAddReq m.client.waitReqList entry junk addr (.writeObjReq req)
              m.client.osdmap.osdCount m.client.mem = .ok ((), mem) := hrun
          simp only [hadd]
          exact .some ⟨_, lost, hmem', rfl, hlost⟩
      | _ => exact .none

theorem send_rel (hmem : WaitMemory m.client.mem m.client.waitReqList entries m.taken lost)
    (hlost : lost.length = m.failed) (t : Nat) (ret : Int) :
    Option.Rel MemHolds (callMemStep check m (.send t ret))
      (callStep check (m.toCalls (entries.map Prod.snd)) (.send t ret)) := by
  have hthreads : (m.toCalls (entries.map Prod.snd)).threads = m.threads := rfl
  have hosds : (m.toCalls (entries.map Prod.snd)).client.osdmap = m.client.osdmap := rfl
  simp only [callMemStep, callStep, hthreads, hosds]
  cases hmine : m.threads[t]? with
  | none => exact .none
  | some caller =>
      cases caller with
      | sending addr req i n =>
          by_cases hmore : i < m.client.osdmap.osds.length
          · simp only [if_pos hmore]
            exact .some ⟨entries, lost, hmem, rfl, hlost⟩
          · simp only [if_neg hmore]
            exact .none
      | _ => exact .none

/-- A call that was given up leaves its record behind. -/
theorem failed_refused (m : CallsMem) (t : Nat) (req : MsgWriteObjReq) (mem : Records WaitReq) :
    ((m.finish t req CCEPH_ERR_NOT_ENOUGH_SERVER).setMem mem).failed = m.failed + 1 := by
  show List.countP _ ((req, CCEPH_ERR_NOT_ENOUGH_SERVER) :: m.returned) = _
  exact List.countP_cons_of_pos (decide_eq_true rfl)

theorem failed_ok (m : CallsMem) (req : MsgWriteObjReq) :
    ((req, CCEPH_OK) :: m.returned).countP (fun done => done.2 = CCEPH_ERR_NOT_ENOUGH_SERVER)
      = m.failed := by
  refine List.countP_cons_of_neg fun h => ?_
  have heq : CCEPH_OK = CCEPH_ERR_NOT_ENOUGH_SERVER := of_decide_eq_true h
  exact absurd heq (by decide)

theorem sent_rel (hmem : WaitMemory m.client.mem m.client.waitReqList entries m.taken lost)
    (hlost : lost.length = m.failed)
    (htally : ∃ acks, TallyInv ⟨m.toCalls (entries.map Prod.snd), acks⟩) {t turns : Nat}
    (hturns : entries.length < turns) :
    Option.Rel MemHolds (callMemStep check m (.sent t turns))
      (callStep check (m.toCalls (entries.map Prod.snd)) (.sent t)) := by
  have hthreads : (m.toCalls (entries.map Prod.snd)).threads = m.threads := rfl
  have hosds : (m.toCalls (entries.map Prod.snd)).client.osdmap = m.client.osdmap := rfl
  simp only [callMemStep, callStep, hthreads, hosds]
  cases hmine : m.threads[t]? with
  | none => exact .none
  | some caller =>
      cases caller with
      | sending addr req i n =>
          simp only
          by_cases hmore : i < m.client.osdmap.osds.length
          · rw [if_pos hmore, if_pos hmore]
            exact .none
          rw [if_neg hmore, if_neg hmore]
          by_cases hfew : n ≤ m.client.osdmap.osdCount / 2
          · rw [if_pos hfew, if_pos hfew]
            -- the entry of the call is on the list, so one is taken out
            obtain ⟨acks, hinv⟩ := htally
            obtain ⟨before, w, after, hws, hat, -, hremove⟩ :=
              hinv.finds (List.mem_of_getElem? hmine)
            have hmemw : w ∈ entries.map Prod.snd := by
              have heq : entries.map Prod.snd = before ++ w :: after := hws
              rw [heq]
              exact List.mem_append_right before List.mem_cons_self
            obtain ⟨e, he, hew⟩ := List.mem_map.mp hmemw
            obtain ⟨entry, hfind⟩ := Option.isSome_iff_exists.mp
              (List.find?_isSome (p := fun e : Nat × WaitReq => decide (e.2.addr = addr)).mpr
                ⟨e, he, decide_eq_true (hew ▸ hat)⟩)
            obtain ⟨pre, post, nodes, hsplit, hrun, hlists, herase⟩ :=
              memRemoveReq_run hmem.lists hturns hfind
            have hne : entries.map Prod.snd ≠ [] := List.ne_nil_of_mem hmemw
            have hvalue : removeReqFromWaitList (m.toCalls (entries.map Prod.snd)).client addr
                = .ok (m.client.toClient ((pre ++ post).map Prod.snd)) := by
              show (if entries.map Prod.snd = [] then _ else _) = _
              rw [if_neg hne, ← herase]
              rfl
            simp only [hrun, hvalue]
            refine .some ⟨pre ++ post, entry.1 :: lost, ?_, rfl, ?_⟩
            · rw [hsplit] at hmem
              exact hmem.lose hlists rfl
            · rw [failed_refused, List.length_cons, hlost]
          · rw [if_neg hfew, if_neg hfew]
            exact .some ⟨entries, lost, hmem, rfl, hlost⟩
      | _ => exact .none

/-- `is_req_finished` finds nothing on either side, or takes off the entry
of the request. -/
theorem finished_cases (hmem : WaitMemory m.client.mem m.client.waitReqList entries m.taken lost)
    {turns : Nat} (hturns : entries.length < turns) (addr : Nat) :
    (memIsReqFinished m.client.waitReqList turns addr m.client.mem = .ok (none, m.client.mem)
      ∧ isReqFinished (m.toCalls (entries.map Prod.snd)).client addr
        = (none, (m.toCalls (entries.map Prod.snd)).client))
    ∨ ∃ (entry : Nat × WaitReq) (rest : List (Nat × WaitReq)) (mem : Records WaitReq),
      memIsReqFinished m.client.waitReqList turns addr m.client.mem = .ok (some entry.1, mem)
      ∧ isReqFinished (m.toCalls (entries.map Prod.snd)).client addr
        = (some entry.2, m.client.toClient (rest.map Prod.snd))
      ∧ WaitMemory mem m.client.waitReqList rest (entry.1 :: m.taken) lost := by
  cases hfind : entries.find? fun e => WaitReq.finished addr e.2 with
  | none =>
      have hnone : (m.toCalls (entries.map Prod.snd)).client.waitReqList.find?
          (WaitReq.finished addr) = none := find_map_none hfind
      refine .inl ⟨memIsReqFinished_none hmem.lists hturns hfind, ?_⟩
      unfold isReqFinished
      rw [hnone]
  | some entry =>
      obtain ⟨pre, post, nodes, hsplit, hrun, hlists, hlist, herase⟩ :=
        memIsReqFinished_some hmem.lists hturns hfind
      have hsome : (m.toCalls (entries.map Prod.snd)).client.waitReqList.find?
          (WaitReq.finished addr) = some entry.2 := hlist
      refine .inr ⟨entry, pre ++ post, _, hrun, ?_, ?_⟩
      · unfold isReqFinished
        rw [hsome, ← herase]
        rfl
      · rw [hsplit] at hmem
        exact hmem.take hlists rfl

theorem check_rel (hmem : WaitMemory m.client.mem m.client.waitReqList entries m.taken lost)
    (hlost : lost.length = m.failed) {t turns : Nat} (hturns : entries.length < turns) :
    Option.Rel MemHolds (callMemStep check m (.check t turns))
      (callStep check (m.toCalls (entries.map Prod.snd)) (.check t)) := by
  have hthreads : (m.toCalls (entries.map Prod.snd)).threads = m.threads := rfl
  simp only [callMemStep, callStep, hthreads]
  cases hmine : m.threads[t]? with
  | none => exact .none
  | some caller =>
      cases caller with
      | checking addr req =>
          rcases finished_cases hmem hturns addr with ⟨hrun, hvalue⟩ | ⟨entry, rest, mem, hrun,
            hvalue, hrest⟩
          · simp only [hrun, hvalue]
            exact .some ⟨entries, lost, hmem, rfl, hlost⟩
          · simp only [hrun, hvalue]
            exact .some ⟨rest, lost, hrest, rfl, hlost.trans (failed_ok m req).symm⟩
      | _ => exact .none

theorem recheck_rel (hmem : WaitMemory m.client.mem m.client.waitReqList entries m.taken lost)
    (hlost : lost.length = m.failed) {t turns : Nat} (hturns : entries.length < turns) :
    Option.Rel MemHolds (callMemStep check m (.recheck t turns))
      (callStep check (m.toCalls (entries.map Prod.snd)) (.recheck t)) := by
  have hthreads : (m.toCalls (entries.map Prod.snd)).threads = m.threads := rfl
  simp only [callMemStep, callStep, hthreads]
  cases hmine : m.threads[t]? with
  | none => exact .none
  | some caller =>
      cases caller with
      | unblocked addr req =>
          rcases finished_cases hmem hturns addr with ⟨hrun, hvalue⟩ | ⟨entry, rest, mem, hrun,
            hvalue, hrest⟩
          · simp only [hrun, hvalue]
            exact .some ⟨entries, lost, hmem, rfl, hlost⟩
          · simp only [hrun, hvalue]
            exact .some ⟨rest, lost, hrest, rfl, hlost.trans (failed_ok m req).symm⟩
      | _ => exact .none

theorem ack_rel (hmem : WaitMemory m.client.mem m.client.waitReqList entries m.taken lost)
    (hlost : lost.length = m.failed) {ack : MsgWriteObjAck} {woken : List Nat} {turns : Nat}
    (hturns : entries.length < turns) :
    Option.Rel MemHolds (callMemStep check m (.ack ack woken turns))
      (callStep check (m.toCalls (entries.map Prod.snd)) (.ack ack woken)) := by
  simp only [callMemStep, callStep, doObjectWriteAck]
  by_cases hid : ack.clientId ≠ m.client.clientId
  · have hid' : ack.clientId ≠ (m.toCalls (entries.map Prod.snd)).client.clientId := hid
    rw [if_pos hid, if_pos hid']
    by_cases hwoken : woken = []
    · rw [if_pos hwoken]
      simp only [if_pos hwoken]
      exact .some ⟨entries, lost, hmem, rfl, hlost⟩
    · rw [if_neg hwoken]
      simp only [if_neg hwoken]
      exact .none
  · have hid' : ¬ack.clientId ≠ (m.toCalls (entries.map Prod.snd)).client.clientId := hid
    rw [if_neg hid, if_neg hid']
    obtain ⟨mem, entries', hrun, hlists, haddrs, hlist, hthere, -⟩ :=
      memWriteAck_run check ack.reqId hmem.lists hturns
    have hmem' : WaitMemory mem m.client.waitReqList entries' m.taken lost := by
      refine hmem.moved hlists hthere ?_
      rw [haddrs]
    have hws : (m.toCalls (entries.map Prod.snd)).client.waitReqList = entries.map Prod.snd := rfl
    rcases hack : ackLoop check ack.reqId false none (entries.map Prod.snd) with
      ⟨ws, found, waitReq⟩
    simp only [hack] at hrun hlist
    simp only [hws, hack, hrun, hlist]
    cases hsignal : found && waitReq.any WaitReq.enough with
    | true =>
        simp only
        have hthreads : (m.toCalls (entries.map Prod.snd)).threads = m.threads := rfl
        rw [hthreads]
        cases hwake : pthreadCondSignal m.threads woken with
        | none => exact .none
        | some threads => exact .some ⟨entries', lost, hmem', rfl, hlost⟩
    | false =>
        simp only
        by_cases hwoken : woken = []
        · rw [if_pos hwoken, if_pos hwoken]
          exact .some ⟨entries', lost, hmem', rfl, hlost⟩
        · rw [if_neg hwoken, if_neg hwoken]
          exact .none

theorem call_rel (hmem : WaitMemory m.client.mem m.client.waitReqList entries m.taken lost)
    (hlost : lost.length = m.failed) (t : Nat) (logId : Int64) (oid : CharBlock)
    (offset length : Int64) (data : List UInt8) :
    Option.Rel MemHolds (callMemStep check m (.call t logId oid offset length data))
      (callStep check (m.toCalls (entries.map Prod.snd))
        (.call t logId oid offset length data)) := by
  have hthreads : (m.toCalls (entries.map Prod.snd)).threads = m.threads := rfl
  simp only [callMemStep, callStep, hthreads]
  cases hmine : m.threads[t]? with
  | none => exact .none
  | some caller =>
      cases caller with
      | idle =>
          have hstate : (m.toCalls (entries.map Prod.snd)).client.state = m.client.state := rfl
          simp only [hstate]
          by_cases hnormal : m.client.state = CCEPH_CLIENT_STATE_NORMAL
          · rw [if_pos hnormal, if_pos hnormal]
            exact .some ⟨entries, lost, hmem, rfl, hlost⟩
          · rw [if_neg hnormal, if_neg hnormal]
            exact .none
      | _ => exact .none

/-- One step of the memory against one step of the value: both are taken,
or neither. -/
theorem MemHolds.step (check : Bool) (h : MemHolds m s) (htally : ∃ acks, TallyInv ⟨s, acks⟩)
    {act : CallMemAct} {act' : CallAct} (hact : act.act = some act') (hfit : MemFits m act) :
    Option.Rel MemHolds (callMemStep check m act) (callStep check s act') := by
  obtain ⟨entries, lost, hmem, rfl, hlost⟩ := h
  cases act with
  | call t logId oid offset length data =>
      cases hact
      exact call_rel hmem hlost t logId oid offset length data
  | addReq t entry junk =>
      cases hact
      exact addReq_rel hmem hlost hfit
  | send t ret =>
      cases hact
      exact send_rel hmem hlost t ret
  | sent t turns =>
      cases hact
      exact sent_rel hmem hlost htally (hfit entries hmem.lists)
  | check t turns =>
      cases hact
      exact check_rel hmem hlost (hfit entries hmem.lists)
  | recheck t turns =>
      cases hact
      exact recheck_rel hmem hlost (hfit entries hmem.lists)
  | ack ack woken turns =>
      cases hact
      exact ack_rel hmem hlost (hfit entries hmem.lists)
  | free entry => cases hact

/-- The last step of `wait_for_req` changes nothing that a thread sees. -/
theorem MemHolds.free (check : Bool) (h : MemHolds m s) (entry : Nat) :
    (entry ∈ m.taken → ∃ m', callMemStep check m (.free entry) = some m')
      ∧ ∀ m', callMemStep check m (.free entry) = some m' → MemHolds m' s := by
  obtain ⟨entries, lost, hmem, rfl, hlost⟩ := h
  by_cases htaken : entry ∈ m.taken
  · obtain ⟨mem, hrun, hmem'⟩ := hmem.free htaken
    have hstep : callMemStep check m (.free entry)
        = some { m.setMem mem with taken := m.taken.erase entry } := by
      simp only [callMemStep, if_pos htaken, hrun]
    rw [hstep]
    refine ⟨fun _ => ⟨_, rfl⟩, ?_⟩
    intro m' h
    rw [← Option.some.inj h]
    exact ⟨entries, lost, hmem', rfl, hlost⟩
  · have hstep : callMemStep check m (.free entry) = none := by
      simp only [callMemStep, if_neg htaken]
    rw [hstep]
    exact ⟨fun h => absurd h htaken, fun _ h => by cases h⟩

-- ================================================================ runs

/-- A run of the value that the memory follows. -/
structure CallMemInv (check : Bool) (m : CallsMem) (s : Tally) : Prop where
  reached : (tallySystem check).Reached FewCalls s
  holds : MemHolds m s.calls

theorem callMem_start (h : m.Start) :
    CallMemInv check m ⟨callStart m.client.osdmap m.threads.length, fun _ => 0⟩ := by
  obtain ⟨junk, hinit⟩ := h.list
  obtain ⟨n, hthreads⟩ := h.threads
  rw [show m.threads.length = n by rw [hthreads, List.length_replicate]]
  refine ⟨.start ⟨m.client.osdmap, n, rfl⟩, [], [], ?_, ?_, ?_⟩
  · have hthere : (Function.update (fun _ => none) m.client.waitReqList (some junk)
        m.client.waitReqList : Option (Links Nat)).isSome := by
      rw [Function.update_self]
      rfl
    rw [listHeadInit_run hthere] at hinit
    have hnodes : _ = m.client.mem.nodes := congrArg Prod.snd (Except.ok.inj hinit)
    refine ⟨⟨?_, fun _ h => by cases h⟩, ?_, fun a => ?_, ?_⟩
    · rw [← hnodes]
      exact ring_self hthere
    · rw [h.nothing.2.2]
      exact List.nodup_nil
    · rw [h.records, h.nothing.2.2]
      exact iff_of_false Bool.false_ne_true List.not_mem_nil
    · rw [h.records]
  · obtain ⟨hid, hreq, hstate⟩ := h.numbers
    obtain ⟨hmade, hreturned, -⟩ := h.nothing
    show (⟨⟨m.client.osdmap, 0, 0, CCEPH_CLIENT_STATE_NORMAL, []⟩, [], List.replicate n .idle, []⟩
        : Calls) = ⟨⟨m.client.osdmap, m.client.clientId, m.client.reqId, m.client.state, []⟩,
          m.made, m.threads, m.returned⟩
    rw [hid, hreq, hstate, hmade, hreturned, hthreads]
  · rw [CallsMem.failed, h.nothing.2.1]
    rfl

/-- The value takes the step too, unless it is the freeing of an entry. -/
theorem CallMemInv.next {s : Tally} (h : CallMemInv check m s) {act : CallMemAct} {m' : CallsMem}
    (hfit : MemFits m act) (hstep : callMemStep check m act = some m') :
    ∃ s', (callSystem check).exec s.calls act.act.toList = some s'.calls
      ∧ CallMemInv check m' s' := by
  cases hact : act.act with
  | none =>
      cases act with
      | free entry => exact ⟨s, rfl, h.reached, (h.holds.free check entry).2 m' hstep⟩
      | _ => cases hact
  | some act' =>
      have hrel := h.holds.step check ⟨s.acks, TallyInv.reached h.reached⟩ hact hfit
      rw [hstep] at hrel
      cases hvalue : callStep check s.calls act' with
      | none =>
          rw [hvalue] at hrel
          cases hrel
      | some calls =>
          rw [hvalue] at hrel
          cases hrel with
          | some hholds =>
              have hfew : FewCalls s act' := by
                obtain ⟨entries, lost, -, hcalls, -⟩ := h.holds
                cases act with
                | call t logId oid offset length data =>
                    cases hact
                    show s.calls.made.length + 1 < 2 ^ 63
                    rw [hcalls]
                    exact hfit
                | free entry => cases hact
                | _ =>
                    cases hact
                    exact trivial
              have htally : ∃ s', tallyStep check s act' = some s' ∧ s'.calls = calls := by
                unfold tallyStep
                rw [hvalue]
                exact ⟨_, rfl, rfl⟩
              obtain ⟨s', hnext, rfl⟩ := htally
              refine ⟨s', ?_, h.reached.next hfew hnext, hholds⟩
              show (callStep check s.calls act').bind _ = _
              rw [hvalue]
              rfl

/-- And so for a run of them. -/
theorem CallMemInv.run : ∀ {acts : List CallMemAct} {m m' : CallsMem} {s : Tally},
    CallMemInv check m s → (callMemSystem check).GoodRun MemFits m acts →
    (callMemSystem check).exec m acts = some m' →
    ∃ s', (callSystem check).exec s.calls (acts.filterMap CallMemAct.act) = some s'.calls
      ∧ CallMemInv check m' s'
  | [], m, m', s, h, _, hrun => by
      cases hrun
      exact ⟨s, rfl, h⟩
  | act :: acts, m, m', s, h, hgood, hrun => by
      obtain ⟨mid, hstep, hrest⟩ := Option.bind_eq_some_iff.mp hrun
      obtain ⟨smid, hone, hmid⟩ := h.next hgood.1 hstep
      obtain ⟨s', hvalue, hlast⟩ := hmid.run (hgood.2 mid hstep) hrest
      refine ⟨s', ?_, hlast⟩
      have hacts : (act :: acts).filterMap CallMemAct.act
          = act.act.toList ++ acts.filterMap CallMemAct.act := by
        rw [List.filterMap_cons]
        cases act.act with
        | none => rfl
        | some act' => rfl
      rw [hacts, System.exec_append, hone]
      exact hvalue

/-- What the memory is to a state of the threads over the list as a
value: it holds that state; a step is taken by both or by neither, and
the states after it hold each other again; and what waits to be freed
can be, which the value does not see. -/
structure Follows (check : Bool) (m : CallsMem) (s : Calls) : Prop where
  holds : MemHolds m s
  steps : ∀ act act', CallMemAct.act act = some act' → MemFits m act →
    Option.Rel MemHolds (callMemStep check m act) (callStep check s act')
  frees : ∀ entry ∈ m.taken, ∃ m', callMemStep check m (.free entry) = some m' ∧ MemHolds m' s

/-- In any interleaving, the wait list in memory follows the wait list as
a value: after every run it holds the state that the same actions lead
the threads over the value to, no section faults where theirs does not,
and the records in use are the entries, those about to be freed, and one
for each call that was given up. -/
theorem callMem_follows {m₀ : CallsMem} (h : m₀.Start) {acts : List CallMemAct}
    (hgood : (callMemSystem check).GoodRun MemFits m₀ acts)
    (hrun : (callMemSystem check).exec m₀ acts = some m) :
    ∃ s, (callSystem check).exec (callStart m₀.client.osdmap m₀.threads.length)
        (acts.filterMap CallMemAct.act) = some s
      ∧ Follows check m s := by
  obtain ⟨s, hvalue, hs⟩ := (callMem_start h).run hgood hrun
  refine ⟨s.calls, hvalue, hs.holds, ?_, ?_⟩
  · intro act act' hact hfit
    exact hs.holds.step check ⟨s.acks, TallyInv.reached hs.reached⟩ hact hfit
  · intro entry hentry
    obtain ⟨hfrees, hkeeps⟩ := hs.holds.free check entry
    obtain ⟨m', hstep⟩ := hfrees hentry
    exact ⟨m', hstep, hkeeps m' hstep⟩

/-- A client with one thread that has nothing to do yet. -/
def noCalls (osdmap : Osdmap) : CallsMem where
  client :=
    { osdmap
      clientId := 0
      reqId := 0
      state := CCEPH_CLIENT_STATE_NORMAL
      waitReqList := 1
      mem := ⟨LinkHeap.join (Function.update (fun _ => none) 1 (some ⟨0, 0⟩)) 1 1, fun _ => none⟩ }
  made := []
  threads := [.idle]
  returned := []
  taken := []

/-- The thread makes a call, whose record `malloc` puts at 2. -/
def oneRecord : List CallMemAct :=
  [.call 0 7 (.close [111]) 0 1 [65], .addReq 0 2 ⟨0, 0⟩]

theorem callMem_follows_one :
    ∃ m, (callMemSystem false).exec (noCalls ⟨0, [], rfl⟩) oneRecord = some m
      ∧ (m.client.mem.recs 2).isSome
      ∧ ∃ s, (callSystem false).exec (callStart ⟨0, [], rfl⟩ 1)
          [.call 0 7 (.close [111]) 0 1 [65], .addReq 0] = some s
        ∧ s.client.waitReqList.length = 1 ∧ Follows false m s := by
  have hstart : (noCalls ⟨0, [], rfl⟩).Start :=
    ⟨⟨rfl, rfl, rfl⟩, ⟨⟨0, 0⟩, listHeadInit_run rfl⟩, rfl, ⟨1, rfl⟩, rfl, rfl, rfl⟩
  have hgood : (callMemSystem false).GoodRun MemFits (noCalls ⟨0, [], rfl⟩) oneRecord := by
    refine ⟨Nat.one_lt_two_pow (by decide), fun m hm => ⟨?_, fun _ _ => trivial⟩⟩
    cases hm
    exact ⟨rfl, rfl⟩
  have hrun : ∃ m, (callMemSystem false).exec (noCalls ⟨0, [], rfl⟩) oneRecord = some m
      ∧ (m.client.mem.recs 2).isSome := ⟨_, rfl, rfl⟩
  obtain ⟨m, hexec, hrecord⟩ := hrun
  obtain ⟨s, hvalue, hfollows⟩ := callMem_follows hstart hgood hexec
  refine ⟨m, hexec, hrecord, s, hvalue, ?_, hfollows⟩
  cases hvalue
  rfl

end CephInC
