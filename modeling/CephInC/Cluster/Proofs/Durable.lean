/-
A write that returns OK is on more than half of the servers, as long as
no failed write is counted.

`do_object_write_ack` counts an acknowledgement without a look at its
`result` or at where it comes from. `ClusterInv` keeps the copies that
were counted: an entry's `ack_count` is at most the number of servers
behind it, and each of these has stored the request.
-/
import CephInC.Cluster.Proofs.Copies
import CephInC.Lib.Votes

namespace CephInC

open Lib

variable {Osd : Type} {reach : OsdEntity → Osd} {osdmap : Osdmap}

theorem Durable.mono {stored stored' : List (Osd × MsgWriteObjReq)} {req : MsgWriteObjReq}
    (h : Durable osdmap stored req) (hsub : ∀ c ∈ stored, c ∈ stored') :
    Durable osdmap stored' req := by
  obtain ⟨osds, hnodup, hstored, hmany⟩ := h
  exact ⟨osds, hnodup, fun osd hosd => hsub _ (hstored osd hosd), hmany⟩

theorem not_durable {stored : List (Osd × MsgWriteObjReq)} {req : MsgWriteObjReq}
    (few : List Osd) (hfew : (few.length : Int) ≤ (osdmap.osdCount / 2).toInt)
    (hsub : ∀ osd, (osd, req) ∈ stored → osd ∈ few) : ¬Durable osdmap stored req := by
  rintro ⟨osds, hnodup, hstored, hmany⟩
  have hle : osds.length ≤ few.length :=
    (hnodup.subperm fun osd hosd => hsub osd (hstored osd hosd)).length_le
  omega

def Answer.copy (answer : Answer Osd) : Osd × MsgWriteObjReq := (answer.osd, answer.req)

/-- The copies on their way, processed and counted. -/
def Cluster.copies (s : Cluster Osd) (counted : List (Osd × MsgWriteObjReq)) :
    List (Osd × MsgWriteObjReq) :=
  s.requests ++ (s.answers.map Answer.copy ++ counted)

-- ================================================================ tally

/-- No entry has more acknowledgements than there are counted copies. -/
def Counts (s : Calls) (counted : List (Osd × MsgWriteObjReq)) : Prop :=
  ∀ w ∈ s.client.waitReqList, ∀ req, s.made[w.addr]? = some req →
    w.ackCount.toInt ≤ (backers counted req).length

theorem Counts.step {check : Bool} {s s' : Calls} {counted : List (Osd × MsgWriteObjReq)}
    (h : Counts s counted) (hreqs : ReqsOk osdmap s) {act : CallAct}
    (hact : ∀ ack woken, act ≠ .ack ack woken) (hstep : callStep check s act = some s') :
    Counts s' counted := by
  cases callStep_spec hstep with
  | call t logId oid offset length data hmine =>
      intro w hw req hreq
      obtain ⟨req', hreq', -⟩ := hreqs.listed w hw
      have hlt := (List.getElem?_eq_some_iff.mp hreq').1
      have hreq : (s.made ++ [_])[w.addr]? = some req := hreq
      rw [List.getElem?_append_left hlt] at hreq
      exact h w hw req hreq
  | addReq t addr req hmine =>
      intro w hw req' hreq'
      rcases List.mem_cons.mp hw with rfl | hw
      · exact Int.natCast_nonneg _
      · exact h w hw req' hreq'
  | send t ret addr req i n n' hmine hmore => exact h
  | refused t addr req i n hmine => exact fun w hw => h w (List.mem_of_mem_eraseP hw)
  | wait t addr req i n hmine => exact h
  | finish act t addr req caller w' hact' hcaller hmine hw' hfinished =>
      exact fun w hw => h w (List.mem_of_mem_eraseP hw)
  | block t addr req hmine hnone => exact h
  | again t addr req hmine => exact h
  | ignored ack woken => exact absurd rfl (hact ack woken)
  | counted ack woken pre w post signal threads hws hw hsignal hthreads =>
      exact absurd rfl (hact ack woken)

/-- A finished request has more than half of the servers behind it. -/
theorem Counts.enough {s : Calls} {counted : List (Osd × MsgWriteObjReq)}
    (h : Counts s counted) (hreqs : ReqsOk osdmap s) {caller : Caller} {addr : Nat}
    {req : MsgWriteObjReq} (hcaller : caller ∈ s.threads)
    (hheld : caller.held = some (addr, req)) {w : WaitReq}
    (hw : w ∈ s.client.waitReqList) (hfinished : w.finished addr = true) :
    (osdmap.osdCount / 2).toInt < (backers counted req).length := by
  obtain ⟨haddr, hdone⟩ := of_decide_eq_true hfinished
  obtain ⟨req', -, hfor⟩ := hreqs.listed w hw
  have hreq : s.made[w.addr]? = some req := by
    rw [haddr]
    exact hreqs.held caller hcaller addr req hheld
  rcases hdone with hcommit | henough
  · rw [hfor.commitCount] at hcommit
    exact absurd hcommit (by decide)
  · have henough : w.reqCount / 2 < w.ackCount := of_decide_eq_true henough
    rw [hfor.reqCount] at henough
    exact Int.lt_of_lt_of_le (Int32.lt_iff_toInt_lt.mp henough) (h w hw req hreq)

-- =========================================================== invariant

structure ClusterInv (reach : OsdEntity → Osd) (osdmap : Osdmap) (s : Cluster Osd)
    (counted : List (Osd × MsgWriteObjReq)) : Prop where
  addrs : AddrOk s.calls.made.length s.calls.threads
  reqs : ReqsOk osdmap s.calls
  copies : CopiesOk reach osdmap.osds s.calls.made s.calls.threads (s.copies counted)
  counts : Counts s.calls counted
  counted : ∀ c ∈ counted, c ∈ s.stored
  answers : ∀ answer ∈ s.answers, answer.ack.reqId = answer.req.reqId
    ∧ (answer.ioRet = 0 → answer.copy ∈ s.stored)
  durable : ∀ req, (req, CCEPH_OK) ∈ s.calls.returned → Durable osdmap s.stored req

namespace ClusterInv

variable {s s' : Cluster Osd} {counted : List (Osd × MsgWriteObjReq)} {check : Bool}

theorem start (n : Nat) : ClusterInv reach osdmap (clusterStart osdmap n) [] where
  addrs := .start n
  reqs := .start osdmap n
  copies := .start reach osdmap.osds _
  counts _ hw := absurd hw List.not_mem_nil
  counted _ hc := absurd hc List.not_mem_nil
  answers _ hanswer := absurd hanswer List.not_mem_nil
  durable _ hreq := absurd hreq List.not_mem_nil

theorem counted_nodup (h : ClusterInv reach osdmap s counted) : counted.Nodup :=
  h.copies.nodup.of_append_right.of_append_right

/-- What the calls that are over returned, after a step of a thread. -/
theorem returns (h : ClusterInv reach osdmap s counted) {act : CallAct} {calls : Calls}
    (hstep : callStep check s.calls act = some calls) :
    ∀ req, (req, CCEPH_OK) ∈ calls.returned → Durable osdmap s.stored req := by
  intro req hreq
  cases callStep_spec hstep with
  | refused t addr req' i n hmine =>
      rcases List.mem_cons.mp hreq with heq | hreq
      · cases heq
      · exact h.durable req hreq
  | finish act t addr req' caller w _ hcaller hmine hw hfinished =>
      rcases List.mem_cons.mp hreq with heq | hreq
      · cases heq
        have hheld : caller.held = some (addr, req) := by
          rcases hcaller with rfl | rfl <;> rfl
        refine ⟨backers counted req, nodup_backers h.counted_nodup req, ?_, ?_⟩
        · exact fun osd hosd => h.counted _ (mem_backers.mp hosd)
        · exact h.counts.enough h.reqs (List.mem_of_getElem? hmine) hheld hw hfinished
      · exact h.durable req hreq
  | _ => exact h.durable req hreq

/-- A thread of the client takes a step. -/
theorem call (h : ClusterInv reach osdmap s counted) {act : CallAct} {calls : Calls}
    (hsend : ∀ t ret, act ≠ .send t ret) (hack : ∀ ack woken, act ≠ .ack ack woken)
    (hroom : ∀ t logId oid offset length data,
      act = .call t logId oid offset length data → s.calls.made.length < 2 ^ 64)
    (hstep : callStep check s.calls act = some calls) :
    ClusterInv reach osdmap { s with calls := calls } counted := by
  refine ⟨h.addrs.step hstep, h.reqs.step hroom hstep, ?_,
    h.counts.step h.reqs hack hstep, h.counted, h.answers, h.returns hstep⟩
  have hcopies := h.copies
  cases callStep_spec hstep with
  | call t logId oid offset length data hmine =>
      exact hcopies.call (h.reqs.new_not_mem (hroom _ _ _ _ _ _ rfl)) _
  | addReq t addr req hmine => exact hcopies.keep hmine (fun _ _ hreq => hreq) fun _ he => he
  | send t ret addr req i n n' hmine hmore => exact absurd rfl (hsend t ret)
  | refused t addr req i n hmine => exact hcopies.keep hmine nofun nofun
  | wait t addr req i n hmine => exact hcopies.keep hmine (fun _ _ hreq => hreq) nofun
  | finish act t addr req caller w _ _ hmine _ _ => exact hcopies.keep hmine nofun nofun
  | block t addr req hmine hnone => exact hcopies.keep hmine (fun _ _ hreq => hreq) nofun
  | again t addr req hmine => exact hcopies.keep hmine (fun _ _ hreq => hreq) nofun
  | ignored ack woken => exact hcopies
  | counted ack woken pre w post signal threads hws hw hsignal hthreads =>
      exact absurd rfl (hack ack woken)

/-- No two threads have one request. -/
theorem req_alone (h : ClusterInv reach osdmap s counted) {t u addr addr' : Nat}
    {req : MsgWriteObjReq} {caller caller' : Caller}
    (ht : s.calls.threads[t]? = some caller) (hreq : caller.held = some (addr, req))
    (hu : s.calls.threads[u]? = some caller') (hreq' : caller'.held = some (addr', req)) :
    u = t := by
  have hplace := h.reqs.held caller (List.mem_of_getElem? ht) addr req hreq
  have hplace' := h.reqs.held caller' (List.mem_of_getElem? hu) addr' req hreq'
  obtain rfl := h.reqs.addr_unique hplace hplace' rfl
  apply h.addrs.alone u t addr
  · unfold addrAt
    rw [hu]
    exact Caller.addr_of_held hreq'
  · unfold addrAt
    rw [ht]
    exact Caller.addr_of_held hreq

theorem send (h : ClusterInv reach osdmap s counted)
    (hdistinct : (osdmap.osds.map reach).Nodup) {t : Nat} {ret : Int} {addr : Nat}
    {req : MsgWriteObjReq} {i : Nat} {n : Int32}
    (hmine : s.calls.threads[t]? = some (.sending addr req i n)) {e : OsdEntity}
    (he : s.calls.client.osdmap.osds[i]? = some e) {calls : Calls}
    (hstep : callStep check s.calls (.send t ret) = some calls) :
    ClusterInv reach osdmap
      { s with calls := calls, requests := (reach e, req) :: s.requests } counted := by
  have hreqs : ReqsOk osdmap calls := h.reqs.step (by rintro _ _ _ _ _ _ ⟨⟩) hstep
  have hcounts : Counts calls counted := h.counts.step h.reqs (by rintro _ _ ⟨⟩) hstep
  refine ⟨h.addrs.step hstep, hreqs, ?_, hcounts, h.counted, h.answers, h.returns hstep⟩
  rw [h.reqs.map] at he
  have hplace := h.reqs.held _ (List.mem_of_getElem? hmine) addr req rfl
  cases callStep_spec hstep with
  | send t ret addr' req' i' n n' hmine' hmore =>
      rw [hmine] at hmine'
      cases hmine'
      apply h.copies.send hdistinct hmine he (List.mem_of_getElem? hplace)
      rintro u caller addr' req' hu hheld rfl
      exact h.req_alone hmine rfl hu hheld
  | finish _ _ _ _ _ _ hact =>
      rcases hact with hact | hact <;> cases hact

/-- A server processes a request. -/
theorem osd [DecidableEq Osd] (h : ClusterInv reach osdmap s counted) {o : Osd}
    {req : MsgWriteObjReq} {io : IoOutcome} {ret : Int32} {ack : MsgWriteObjAck}
    (hmem : (o, req) ∈ s.requests) (hrun : doObjectWriteReq req io = .ok (ret, ack)) :
    ClusterInv reach osdmap { s with
      requests := s.requests.erase (o, req),
      answers := ⟨o, req, ret, ack⟩ :: s.answers,
      stored := if ret = 0 then (o, req) :: s.stored else s.stored } counted := by
  have hstored : ∀ c ∈ s.stored, c ∈ if ret = 0 then (o, req) :: s.stored else s.stored := by
    intro c hc
    split_ifs
    · exact List.mem_cons_of_mem _ hc
    · exact hc
  refine ⟨h.addrs, h.reqs, ?_, h.counts, fun c hc => hstored c (h.counted c hc), ?_,
    fun req' hreq' => (h.durable req' hreq').mono hstored⟩
  · apply h.copies.perm
    exact ((List.perm_cons_erase hmem).append_right _).trans List.perm_middle.symm
  · intro answer hanswer
    rcases List.mem_cons.mp hanswer with rfl | hanswer
    · refine ⟨(doObjectWriteReq_ok hrun).2, fun hret => ?_⟩
      have hret : ret = 0 := hret
      show (o, req) ∈ if ret = 0 then (o, req) :: s.stored else s.stored
      rw [if_pos hret]
      exact List.mem_cons_self
    · obtain ⟨hid, hret⟩ := h.answers answer hanswer
      exact ⟨hid, fun h0 => hstored _ (hret h0)⟩

/-- An acknowledgement that is not counted. -/
theorem drop [DecidableEq Osd] (h : ClusterInv reach osdmap s counted) {answer : Answer Osd}
    (hmem : answer ∈ s.answers) :
    ClusterInv reach osdmap { s with answers := s.answers.erase answer } counted := by
  refine ⟨h.addrs, h.reqs, ?_, h.counts, h.counted, ?_, h.durable⟩
  · have hperm : (s.answers.map Answer.copy).Perm
        (answer.copy :: (s.answers.erase answer).map Answer.copy) :=
      (List.perm_cons_erase hmem).map Answer.copy
    apply (h.copies.perm _).tail
    · exact answer.copy
    · exact ((hperm.append_right counted).append_left s.requests).trans List.perm_middle
  · exact fun answer' hanswer' => h.answers answer' (List.mem_of_mem_erase hanswer')

/-- The entry an acknowledgement is counted for is the one of its request. -/
theorem entry_req (h : ClusterInv reach osdmap s counted) {answer : Answer Osd}
    (hmem : answer ∈ s.answers) {w : WaitReq} (hw : w ∈ s.calls.client.waitReqList)
    (hanswers : w.answers answer.ack.reqId = true) :
    s.calls.made[w.addr]? = some answer.req := by
  obtain ⟨req, hreq, hfor⟩ := h.reqs.listed w hw
  have hcopy : answer.copy ∈ s.copies counted :=
    List.mem_append_right _ (List.mem_append_left _ (List.mem_map_of_mem hmem))
  have hid : req.reqId = answer.req.reqId := by
    rw [← (h.answers answer hmem).1, ← (WaitReq.answers_iff.mp hanswers).2, hfor.req]
    rfl
  have hmade : answer.req ∈ s.calls.made := h.copies.made _ hcopy
  rw [hreq, h.reqs.req_unique (List.mem_of_getElem? hreq) hmade hid]

/-- The answer's copy is counted now. -/
theorem copies_count [DecidableEq Osd] (h : ClusterInv reach osdmap s counted)
    {answer : Answer Osd} (hmem : answer ∈ s.answers) :
    CopiesOk reach osdmap.osds s.calls.made s.calls.threads
      ({ s with answers := s.answers.erase answer }.copies (answer.copy :: counted)) := by
  apply h.copies.perm
  have hperm : (s.answers.map Answer.copy).Perm
      (answer.copy :: (s.answers.erase answer).map Answer.copy) :=
    (List.perm_cons_erase hmem).map Answer.copy
  exact ((hperm.append_right counted).trans List.perm_middle.symm).append_left s.requests

/-- A count below the number of servers is far from the end of `int`. -/
theorem ackCount_acked (osdmap : Osdmap) {w : WaitReq}
    (hlow : w.ackCount.toInt < osdmap.osds.length) :
    w.acked.ackCount.toInt = w.ackCount.toInt + 1 := by
  have hosds := osdmap.hosds
  have hmax := int32_bounds osdmap.osdCount
  have hmin := int32_bounds w.ackCount
  show (w.ackCount + 1).toInt = w.ackCount.toInt + 1
  apply int32_toInt_add
  · show -(2 ^ 31 : Int) ≤ w.ackCount.toInt + 1
    omega
  · show w.ackCount.toInt + 1 < (2 ^ 31 : Int)
    omega

/-- An entry is counted up with its request's copies, of which there are
no more than servers. -/
theorem counts_count [DecidableEq Osd] (h : ClusterInv reach osdmap s counted)
    {answer : Answer Osd} (hmem : answer ∈ s.answers) {pre post : List WaitReq}
    {w : WaitReq} (hws : s.calls.client.waitReqList = pre ++ w :: post)
    (hanswers : w.answers answer.ack.reqId = true) :
    Counts { s.calls with
      client := { s.calls.client with waitReqList := pre ++ w.acked :: post } }
      (answer.copy :: counted) := by
  have hold : ∀ w' ∈ pre ++ w :: post, ∀ req, s.calls.made[w'.addr]? = some req →
      w'.ackCount.toInt ≤ (backers (answer.copy :: counted) req).length := by
    intro w' hw' req hreq
    have hcounts := h.counts w' (by rw [hws]; exact hw') req hreq
    exact Int.le_trans hcounts
      (Int.ofNat_le.mpr (length_backers_cons counted answer.copy req))
  intro w' hw' req hreq
  rcases List.mem_append.mp hw' with hw' | hw'
  · exact hold w' (List.mem_append_left _ hw') req hreq
  · rcases List.mem_cons.mp hw' with rfl | hw'
    · have hw : w ∈ s.calls.client.waitReqList := by
        rw [hws]
        exact List.mem_append_right _ List.mem_cons_self
      have hentry := h.entry_req hmem hw hanswers
      have hreq : s.calls.made[w.addr]? = some req := hreq
      rw [hentry] at hreq
      cases hreq
      have hcopies := h.copies_count hmem
      have hnodup : (answer.copy :: counted).Nodup :=
        hcopies.nodup.of_append_right.of_append_right
      have hservers : ∀ c ∈ answer.copy :: counted, c.1 ∈ osdmap.osds.map reach := fun c hc =>
        hcopies.reached c (List.mem_append_right _ (List.mem_append_right _ hc))
      have hfew := length_backers_le hnodup hservers answer.req
      have hmore : (backers (answer.copy :: counted) answer.req).length
          = (backers counted answer.req).length + 1 :=
        congrArg List.length (backers_cons_self counted answer.osd answer.req)
      have hcounts := h.counts w hw answer.req hentry
      rw [List.length_map] at hfew
      have hlow : w.ackCount.toInt < osdmap.osds.length := by omega
      rw [ackCount_acked osdmap hlow, hmore]
      omega
    · exact hold w' (List.mem_append_right _ (List.mem_cons_of_mem _ hw')) req hreq

/-- The client processes an acknowledgement. -/
theorem ack [DecidableEq Osd] (h : ClusterInv reach osdmap s counted) {answer : Answer Osd}
    {woken : List Nat} (hmem : answer ∈ s.answers)
    (hgood : answer.ioRet = 0
      ∨ ∀ w ∈ s.calls.client.waitReqList, w.answers answer.ack.reqId = false)
    {calls : Calls} (hstep : callStep check s.calls (.ack answer.ack woken) = some calls) :
    ∃ counted', ClusterInv reach osdmap
      { s with calls := calls, answers := s.answers.erase answer } counted' := by
  have hreqs : ReqsOk osdmap calls := h.reqs.step (by rintro _ _ _ _ _ _ ⟨⟩) hstep
  have haddrs := h.addrs.step hstep
  have hreturns := h.returns hstep
  cases callStep_spec hstep with
  | finish _ _ _ _ _ _ hact =>
      rcases hact with hact | hact <;> cases hact
  | ignored _ _ => exact ⟨counted, h.drop hmem⟩
  | counted _ _ pre w post signal threads hws hw hsignal hthreads =>
      have hret : answer.ioRet = 0 := by
        rcases hgood with hret | hnone
        · exact hret
        · have hno := hnone w (by rw [hws]; exact List.mem_append_right _ List.mem_cons_self)
          rw [hw] at hno
          cases hno
      refine ⟨answer.copy :: counted, haddrs, hreqs, ?_, h.counts_count hmem hws hw, ?_, ?_,
        hreturns⟩
      · apply (h.copies_count hmem).follow
        intro caller' hcaller' addr req hheld
        obtain ⟨caller, hcaller, rfl | rfl⟩ := mem_of_counted hthreads hcaller'
        · exact ⟨_, hcaller, hheld, fun e he => he⟩
        · rw [caller.wake_held] at hheld
          rw [caller.wake_unsent]
          exact ⟨caller, hcaller, hheld, fun e he => he⟩
      · exact List.forall_mem_cons.mpr ⟨(h.answers answer hmem).2 hret, h.counted⟩
      · exact fun answer' hanswer' => h.answers answer' (List.mem_of_mem_erase hanswer')

/-- Every step that counts no failed write. -/
theorem step [DecidableEq Osd] (h : ClusterInv reach osdmap s counted)
    (hdistinct : (osdmap.osds.map reach).Nodup) {act : ClusterAct Osd}
    (hgood : CountsWrites s act) (hstep : clusterStep reach check s act = some s') :
    ∃ counted', ClusterInv reach osdmap s' counted' := by
  cases act with
  | call act =>
      cases act with
      | send t ret => cases hstep
      | ack ack woken => cases hstep
      | call t logId oid offset length data =>
          obtain ⟨calls, hcalls, rfl⟩ := Option.map_eq_some_iff.mp hstep
          refine ⟨counted, h.call ?_ ?_ (fun _ _ _ _ _ _ _ => hgood) hcalls⟩
          · rintro _ _ ⟨⟩
          · rintro _ _ ⟨⟩
      | _ =>
          obtain ⟨calls, hcalls, rfl⟩ := Option.map_eq_some_iff.mp hstep
          refine ⟨counted, h.call ?_ ?_ ?_ hcalls⟩
          · rintro _ _ ⟨⟩
          · rintro _ _ ⟨⟩
          · rintro _ _ _ _ _ _ ⟨⟩
  | send t ret =>
      simp only [clusterStep] at hstep
      split at hstep
      · rename_i addr req i n hmine
        split at hstep
        · rename_i e he
          obtain ⟨calls, hcalls, rfl⟩ := Option.map_eq_some_iff.mp hstep
          exact ⟨counted, h.send hdistinct hmine he hcalls⟩
        · cases hstep
      · cases hstep
  | osd o req io =>
      simp only [clusterStep] at hstep
      split_ifs at hstep with hmem
      split at hstep
      · rename_i ret ack hrun
        cases hstep
        exact ⟨counted, h.osd hmem hrun⟩
      · cases hstep
  | ack answer woken =>
      simp only [clusterStep] at hstep
      split_ifs at hstep with hmem
      obtain ⟨calls, hcalls, rfl⟩ := Option.map_eq_some_iff.mp hstep
      exact h.ack hmem hgood hcalls

end ClusterInv

-- ======================================================= the main result

/-- Entries that lead to different servers, no failed write counted: what
returns OK is on more than half of the servers. -/
theorem write_durable [DecidableEq Osd] {check : Bool}
    (hdistinct : (osdmap.osds.map reach).Nodup) {s : Cluster Osd}
    (h : (clusterSystem reach check osdmap).Reached CountsWrites s) {req : MsgWriteObjReq}
    (hreturned : (req, CCEPH_OK) ∈ s.calls.returned) : Durable osdmap s.stored req := by
  have hinv : ∃ counted, ClusterInv reach osdmap s counted := by
    refine h.invariant (I := fun s => ∃ counted, ClusterInv reach osdmap s counted) ?_ ?_
    · rintro s ⟨n, rfl⟩
      exact ⟨[], .start n⟩
    · rintro s act s' ⟨counted, hs⟩ hgood hstep
      exact hs.step hdistinct hgood hstep
  obtain ⟨counted, hinv⟩ := hinv
  exact hinv.durable req hreturned

/-- The first request of a client: one byte to the object `o`. -/
def oneReq : MsgWriteObjReq :=
  ⟨⟨CCEPH_MSG_OP_WRITE, 7⟩, 0, 1, 0, some (.close [111]), 0, 1, some [65]⟩

def answerTo (port ret : Int32) : Answer Int32 :=
  ⟨port, oneReq, ret, ⟨⟨CCEPH_MSG_OP_WRITE_ACK, 7⟩, 0, 1,
    if ret = 0 then CCEPH_WRITE_OBJ_ACK_OK else ret.toInt8⟩⟩

/-- A thread sends its request `sends` times, and returns when the
servers on two ports have answered. -/
def writeRun (sends : Nat) (ports : Int32 × Int32) (io : IoOutcome) (ret : Int32) :
    List (ClusterAct Int32) :=
  .call (.addReq 0) :: List.replicate sends (.send 0 0) ++
    [.call (.sent 0), .osd ports.1 oneReq io, .osd ports.2 oneReq io,
      .ack (answerTo ports.1 ret) [], .ack (answerTo ports.2 ret) [], .call (.check 0)]

def callOne : ClusterAct Int32 := .call (.call 0 7 (.close [111]) 0 1 [65])

def threeOsds : Osdmap :=
  ⟨3, [⟨⟨[120], by decide⟩, 9001⟩, ⟨⟨[121], by decide⟩, 9002⟩, ⟨⟨[122], by decide⟩, 9003⟩], rfl⟩

/-- One server under two names. -/
def sharedOsd : Osdmap :=
  ⟨2, [⟨⟨[120], by decide⟩, 9001⟩, ⟨⟨[121], by decide⟩, 9001⟩], rfl⟩

set_option maxRecDepth 2000 in
theorem write_durable_two : ∃ s,
    (clusterSystem OsdEntity.port false threeOsds).Reached CountsWrites s
      ∧ (oneReq, CCEPH_OK) ∈ s.calls.returned ∧ Durable threeOsds s.stored oneReq := by
  have hstart : (clusterSystem OsdEntity.port false threeOsds).Reached CountsWrites
      (clusterStart threeOsds 1) := .start ⟨1, rfl⟩
  have hcall := hstart.next (a := callOne) (Nat.two_pow_pos 64) rfl
  have hrun := hcall.exec (writeRun 3 (9001, 9002) ⟨3, 1, 0⟩ 0)
    (by simp [writeRun, CountsWrites, answerTo]) rfl
  exact ⟨_, hrun, List.mem_cons_self, write_durable (by decide) hrun List.mem_cons_self⟩

set_option maxRecDepth 2000 in
/-- Every `open` fails and both failures are counted; two writes to one
server are counted as two. -/
theorem write_not_durable :
    (∃ s, (clusterSystem OsdEntity.port false threeOsds).exec (clusterStart threeOsds 1)
        (callOne :: writeRun 3 (9001, 9002) ⟨-1, 0, 0⟩ (-1)) = some s
      ∧ (oneReq, CCEPH_OK) ∈ s.calls.returned ∧ ¬Durable threeOsds s.stored oneReq)
    ∧ ∃ s, (clusterSystem OsdEntity.port false sharedOsd).exec (clusterStart sharedOsd 1)
        (callOne :: writeRun 2 (9001, 9001) ⟨3, 1, 0⟩ 0) = some s
      ∧ (oneReq, CCEPH_OK) ∈ s.calls.returned ∧ ¬Durable sharedOsd s.stored oneReq := by
  refine ⟨⟨_, rfl, List.mem_cons_self, ?_⟩, ⟨_, rfl, List.mem_cons_self, ?_⟩⟩
  · apply not_durable [] (by decide)
    intro osd hosd
    cases hosd
  · apply not_durable [9001] (by decide)
    intro osd hosd
    rcases List.mem_cons.mp hosd with heq | hosd
    · rw [(Prod.mk.inj heq).1]
      exact List.mem_cons_self
    · rw [(Prod.mk.inj (List.mem_singleton.mp hosd)).1]
      exact List.mem_cons_self

end CephInC
