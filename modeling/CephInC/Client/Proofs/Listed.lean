/-
Every call that waits has its entry.

`TallyInv` ties what a thread is doing to what the list holds: the keys
of the entries are, up to order, those of the threads that should have
one. A thread that moves on changes one key (`listed_set`), and so does
the list (`key_eraseP`). The requests' numbers being distinct, an
acknowledgement counts for one entry, which is the one the tally counts
it for.
-/
import CephInC.Client.Listed
import CephInC.Client.Proofs.Requests
import CephInC.Client.Proofs.Wakeup

namespace CephInC

open Lib

-- ============================================== lists with one change

/-- One element changes, and so does at most one of what they map to. -/
theorem perm_filterMap_set {α β : Type} (f : α → Option β) {a : α} (a' : α) :
    ∀ {l : List α} {t : Nat}, l[t]? = some a →
      ((f a).toList ++ (l.set t a').filterMap f).Perm
        ((f a').toList ++ l.filterMap f) := by
  have hcons : ∀ x (l : List α), (x :: l).filterMap f = (f x).toList ++ l.filterMap f := by
    intro x l
    rw [List.filterMap_cons]
    cases f x <;> rfl
  intro l
  induction l with
  | nil =>
      intro t h
      cases h
  | cons x l ih =>
      intro t h
      cases t with
      | zero =>
          cases h
          rw [List.set_cons_zero, hcons, hcons]
          exact List.perm_append_comm_assoc _ _ _
      | succ t =>
          rw [List.set_cons_succ, hcons, hcons]
          refine (List.perm_append_comm_assoc _ _ _).trans ?_
          refine .trans ?_ (List.perm_append_comm_assoc _ _ _)
          exact (ih h).append_left _

/-- What is taken out of a list, and what is left. -/
theorem perm_map_eraseP {α β : Type} (f : α → β) {p : α → Bool} {b : β} {l : List α}
    (hex : ∃ a ∈ l, p a = true) (hb : ∀ a ∈ l, p a = true → f a = b) :
    (l.map f).Perm (b :: (l.eraseP p).map f) := by
  obtain ⟨a, ha, hpa⟩ := hex
  obtain ⟨a', pre, post, -, hpa', rfl, herase⟩ := List.exists_of_eraseP ha hpa
  have hmem : a' ∈ pre ++ a' :: post := List.mem_append_right _ List.mem_cons_self
  rw [herase, ← hb a' hmem hpa', List.map_append, List.map_append, List.map_cons]
  exact List.perm_middle

-- ================================================ threads and their entries

theorem Caller.wake_listed (caller : Caller) : caller.wake.listed = caller.listed := by
  cases caller <;> rfl

theorem Caller.addr_of_listed {caller : Caller} {addr : Nat} {msg : Msg}
    (h : caller.listed = some (addr, msg)) : caller.addr = some addr := by
  cases caller <;> cases h <;> rfl

theorem addrAt_listed {threads : List Caller} {t addr : Nat} {caller : Caller} {msg : Msg}
    (hcaller : threads[t]? = some caller) (h : caller.listed = some (addr, msg)) :
    addrAt threads t = some addr := by
  unfold addrAt
  rw [hcaller]
  exact Caller.addr_of_listed h

theorem listed_signal {threads threads' : List Caller} {woken : List Nat} {signal : Bool}
    (h : if signal then pthreadCondSignal threads woken = some threads'
      else threads' = threads) :
    threads'.filterMap Caller.listed = threads.filterMap Caller.listed := by
  split_ifs at h
  · unfold pthreadCondSignal at h
    split_ifs at h
    cases h
    have hsame : (threads.mapIdx fun t caller =>
        if t ∈ woken then caller.wake else caller).map Caller.listed
        = threads.map Caller.listed := by
      apply List.ext_getElem?
      intro t
      rw [List.getElem?_map, List.getElem?_map, List.getElem?_mapIdx]
      cases threads[t]? with
      | none => rfl
      | some caller =>
          show some (if t ∈ woken then caller.wake else caller).listed = some caller.listed
          split_ifs
          · rw [caller.wake_listed]
          · rfl
    have hmap : ∀ l : List Caller,
        l.filterMap Caller.listed = (l.map Caller.listed).filterMap id := by
      intro l
      rw [List.filterMap_map]
      rfl
    rw [hmap, hsame, ← hmap]
  · rw [h]

theorem numbered_signal {threads threads' : List Caller} {woken : List Nat} {signal : Bool}
    (h : if signal then pthreadCondSignal threads woken = some threads'
      else threads' = threads) {addr : Nat} {req : MsgWriteObjReq}
    (hmem : .numbered addr req ∈ threads') : .numbered addr req ∈ threads := by
  obtain ⟨caller, hcaller, heq | heq⟩ := mem_of_counted h hmem
  · rw [heq]
    exact hcaller
  · cases caller <;> cases heq
    exact hcaller

-- =========================================================== invariant

structure TallyInv (s : Tally) : Prop where
  addrs : AddrOk s.calls.made.length s.calls.threads
  reqs : ReqsOk s.calls.client.osdmap s.calls
  writes : ∀ req ∈ s.calls.made, req.header.op = CCEPH_MSG_OP_WRITE
  entries : (s.calls.client.waitReqList.map WaitReq.key).Perm
    (s.calls.threads.filterMap Caller.listed)
  acks : ∀ w ∈ s.calls.client.waitReqList, w.ackCount = Int32.ofNat (s.acks w.addr)
  /-- Nothing is counted for a request that is not listed yet. -/
  fresh : ∀ addr, s.calls.made.length ≤ addr → s.acks addr = 0
  numbered : ∀ addr req, .numbered addr req ∈ s.calls.threads → s.acks addr = 0

namespace TallyInv

variable {s : Tally}

/-- No two threads have one entry. -/
theorem apart (h : TallyInv s) :
    ((s.calls.threads.filterMap Caller.listed).map Prod.fst).Nodup := by
  unfold List.Nodup
  rw [List.pairwise_map, List.pairwise_filterMap, List.pairwise_iff_getElem]
  intro t u ht hu htu ⟨addr, msg⟩ hkey ⟨addr', msg'⟩ hkey' haddr
  have hat := addrAt_listed (List.getElem?_eq_getElem ht) hkey
  have hat' := addrAt_listed (List.getElem?_eq_getElem hu) hkey'
  have haddr : addr = addr' := haddr
  rw [← haddr] at hat'
  exact absurd (h.addrs.alone t u addr hat hat') (Nat.ne_of_lt htu)

theorem addrs_nodup (h : TallyInv s) :
    (s.calls.client.waitReqList.map WaitReq.addr).Nodup := by
  have hperm := h.entries.map Prod.fst
  rw [List.map_map] at hperm
  exact (hperm.nodup_iff).mpr h.apart

/-- Entries have distinct numbers. -/
theorem numbers (h : TallyInv s) :
    (s.calls.client.waitReqList.map fun w => w.req.reqId).Nodup := by
  have haddrs := h.addrs_nodup
  unfold List.Nodup at haddrs ⊢
  rw [List.pairwise_map] at haddrs ⊢
  apply haddrs.imp_of_mem
  intro w w' hw hw' hne hid
  obtain ⟨req, hreq, hfor⟩ := h.reqs.listed w hw
  obtain ⟨req', hreq', hfor'⟩ := h.reqs.listed w' hw'
  rw [hfor.req, hfor'.req] at hid
  exact hne (h.reqs.addr_unique hreq hreq' hid)

/-- The entry of a thread that should have one. -/
theorem entry (h : TallyInv s) {caller : Caller} {addr : Nat} {req : MsgWriteObjReq}
    (hcaller : caller ∈ s.calls.threads) (hlisted : caller.listed = some (addr, .writeObjReq req)) :
    ∃ w ∈ s.calls.client.waitReqList, w.addr = addr ∧ w.req = .writeObjReq req := by
  have hmem : (addr, Msg.writeObjReq req) ∈ s.calls.threads.filterMap Caller.listed :=
    List.mem_filterMap.mpr ⟨caller, hcaller, hlisted⟩
  obtain ⟨w, hw, hkey⟩ := List.mem_map.mp (h.entries.mem_iff.mpr hmem)
  exact ⟨w, hw, congrArg Prod.fst hkey, congrArg Prod.snd hkey⟩

/-- Entries at one address are for one request. -/
theorem same_req (h : TallyInv s) {w w' : WaitReq} (hw : w ∈ s.calls.client.waitReqList)
    (hw' : w' ∈ s.calls.client.waitReqList) (haddr : w.addr = w'.addr) : w.req = w'.req := by
  obtain ⟨req, hreq, hfor⟩ := h.reqs.listed w hw
  obtain ⟨req', hreq', hfor'⟩ := h.reqs.listed w' hw'
  rw [haddr, hreq'] at hreq
  cases hreq
  rw [hfor.req, hfor'.req]

/-- A request that is numbered and not yet added has no entry. -/
theorem not_listed (h : TallyInv s) {addr : Nat} {req : MsgWriteObjReq}
    (hnumbered : .numbered addr req ∈ s.calls.threads) :
    ∀ w ∈ s.calls.client.waitReqList, w.addr ≠ addr := by
  rintro w hw rfl
  have hmem := h.entries.mem_iff.mp (List.mem_map_of_mem hw)
  obtain ⟨caller, hcaller, hlisted⟩ := List.mem_filterMap.mp hmem
  obtain ⟨t, ht⟩ := List.mem_iff_getElem?.mp hnumbered
  obtain ⟨u, hu⟩ := List.mem_iff_getElem?.mp hcaller
  have hat : addrAt s.calls.threads t = some w.addr := by
    unfold addrAt
    rw [ht]
    rfl
  have hat' : addrAt s.calls.threads u = some w.addr := addrAt_listed hu hlisted
  have htu := h.addrs.alone t u w.addr hat hat'
  rw [htu, hu] at ht
  cases ht
  cases hlisted

-- ------------------------------------------------------------- one step

/-- A thread moves on, and keeps its entry or has none. -/
theorem keep (h : TallyInv s) {calls' : Calls} {t : Nat} {caller : Caller}
    (caller' : Caller) (hmine : s.calls.threads[t]? = some caller)
    (hlisted : caller'.listed = caller.listed)
    (hnumbered : ∀ addr req, caller' = .numbered addr req → s.acks addr = 0)
    (hcalls : AddrOk calls'.made.length calls'.threads)
    (hreqs : ReqsOk calls'.client.osdmap calls')
    (hmade : ∀ req ∈ calls'.made, req.header.op = CCEPH_MSG_OP_WRITE)
    (hlength : s.calls.made.length ≤ calls'.made.length)
    (hlist : calls'.client.waitReqList = s.calls.client.waitReqList)
    (hthreads : calls'.threads = s.calls.threads.set t caller') :
    TallyInv ⟨calls', s.acks⟩ where
  addrs := hcalls
  reqs := hreqs
  writes := hmade
  entries := by
    have hperm := perm_filterMap_set Caller.listed caller' hmine
    rw [hlisted, List.perm_append_left_iff] at hperm
    show (calls'.client.waitReqList.map WaitReq.key).Perm _
    rw [hlist, hthreads]
    exact h.entries.trans hperm.symm
  acks w hw := h.acks w (hlist ▸ hw)
  fresh addr haddr := h.fresh addr (hlength.trans haddr)
  numbered := by
    intro addr req hmem
    rw [hthreads] at hmem
    rcases List.mem_or_eq_of_mem_set hmem with hmem | heq
    · exact h.numbered addr req hmem
    · exact hnumbered addr req heq.symm

/-- A thread adds the entry of its request. -/
theorem addReq (h : TallyInv s) {calls' : Calls} {t addr : Nat} {req : MsgWriteObjReq}
    {reqCount : Int32} (hmine : s.calls.threads[t]? = some (.numbered addr req))
    (haddrs : AddrOk calls'.made.length calls'.threads)
    (hreqs : ReqsOk calls'.client.osdmap calls') (hmade : calls'.made = s.calls.made)
    (hlist : calls'.client.waitReqList
      = ⟨addr, .writeObjReq req, 0, 0, reqCount⟩ :: s.calls.client.waitReqList)
    (hthreads : calls'.threads = s.calls.threads.set t (.sending addr req 0 0)) :
    TallyInv ⟨calls', s.acks⟩ where
  addrs := haddrs
  reqs := hreqs
  writes := by
    show ∀ req ∈ calls'.made, _
    rw [hmade]
    exact h.writes
  entries := by
    have hperm : ((addr, Msg.writeObjReq req) :: s.calls.threads.filterMap Caller.listed).Perm
        ((s.calls.threads.set t (.sending addr req 0 0)).filterMap Caller.listed) :=
      (perm_filterMap_set Caller.listed (.sending addr req 0 0) hmine).symm
    show (calls'.client.waitReqList.map WaitReq.key).Perm _
    rw [hlist, hthreads]
    exact (h.entries.cons _).trans hperm
  acks := by
    show ∀ w ∈ calls'.client.waitReqList, _
    rw [hlist]
    intro w hw
    rcases List.mem_cons.mp hw with rfl | hw
    · show 0 = Int32.ofNat (s.acks addr)
      rw [h.numbered addr req (List.mem_of_getElem? hmine)]
      rfl
    · exact h.acks w hw
  fresh addr haddr := h.fresh addr (hmade ▸ haddr)
  numbered := by
    intro addr req hmem
    rw [hthreads] at hmem
    rcases List.mem_or_eq_of_mem_set hmem with hmem | heq
    · exact h.numbered addr req hmem
    · cases heq

/-- A call is over, and its entry is taken out. -/
theorem finish (h : TallyInv s) {calls' : Calls} {t addr : Nat} {req : MsgWriteObjReq}
    {caller : Caller} {p : WaitReq → Bool}
    (hmine : s.calls.threads[t]? = some caller)
    (hlisted : caller.listed = some (addr, .writeObjReq req))
    (hp : ∀ w, p w = true → w.addr = addr)
    (hex : ∃ w ∈ s.calls.client.waitReqList, p w = true)
    (hcalls : AddrOk calls'.made.length calls'.threads)
    (hreqs : ReqsOk calls'.client.osdmap calls')
    (hmade : calls'.made = s.calls.made)
    (hlist : calls'.client.waitReqList = s.calls.client.waitReqList.eraseP p)
    (hthreads : calls'.threads = s.calls.threads.set t .idle) :
    TallyInv ⟨calls', s.acks⟩ where
  addrs := hcalls
  reqs := hreqs
  writes := by
    show ∀ req ∈ calls'.made, _
    rw [hmade]
    exact h.writes
  entries := by
    obtain ⟨mine, hmem, hat, hreq⟩ := h.entry (List.mem_of_getElem? hmine) hlisted
    have hkey : ∀ w ∈ s.calls.client.waitReqList, p w = true →
        w.key = (addr, .writeObjReq req) := by
      intro w hw hpw
      have haddr := hp w hpw
      exact Prod.ext haddr ((h.same_req hw hmem (haddr.trans hat.symm)).trans hreq)
    have hout := perm_map_eraseP WaitReq.key hex hkey
    have hperm := perm_filterMap_set Caller.listed .idle hmine
    rw [hlisted] at hperm
    show (calls'.client.waitReqList.map WaitReq.key).Perm _
    rw [hlist, hthreads]
    exact (((hout.symm.trans h.entries).trans hperm.symm)).cons_inv
  acks w hw := h.acks w (List.mem_of_mem_eraseP (hlist ▸ hw))
  fresh addr haddr := h.fresh addr (hmade ▸ haddr)
  numbered := by
    intro addr req hmem
    rw [hthreads] at hmem
    rcases List.mem_or_eq_of_mem_set hmem with hmem | heq
    · exact h.numbered addr req hmem
    · cases heq

/-- Which entry an acknowledgement is counted for. -/
theorem tallyAck_entry (h : TallyInv s) (ack : MsgWriteObjAck) {w : WaitReq}
    (hw : w ∈ s.calls.client.waitReqList) :
    tallyAck s.calls.client ack s.acks w.addr
      = if ack.clientId = s.calls.client.clientId ∧ w.req.reqId = ack.reqId then
          s.acks w.addr + 1
        else s.acks w.addr := by
  have hiff : (∃ w' ∈ s.calls.client.waitReqList, w'.addr = w.addr
      ∧ w'.req.reqId = ack.reqId) ↔ w.req.reqId = ack.reqId := by
    constructor
    · rintro ⟨w', hw', haddr, hid⟩
      rw [h.same_req hw hw' haddr.symm]
      exact hid
    · exact fun hid => ⟨w, hw, rfl, hid⟩
  unfold tallyAck
  simp only [hiff]

theorem tallyAck_none {client : Client} {addr : Nat}
    (h : ∀ w ∈ client.waitReqList, w.addr ≠ addr) (ack : MsgWriteObjAck)
    (acks : Nat → Nat) : tallyAck client ack acks addr = acks addr := by
  apply if_neg
  rintro ⟨-, w, hw, haddr, -⟩
  exact h w hw haddr

theorem answers_iff (h : TallyInv s) {w : WaitReq} (hw : w ∈ s.calls.client.waitReqList)
    (reqId : Int64) : w.answers reqId = true ↔ w.req.reqId = reqId := by
  obtain ⟨req, hreq, hfor⟩ := h.reqs.listed w hw
  have hop : w.req.header.op = CCEPH_MSG_OP_WRITE := by
    rw [hfor.req]
    exact h.writes req (List.mem_of_getElem? hreq)
  rw [WaitReq.answers_iff]
  exact and_iff_right hop

/-- The list has the same keys, and the counts the tally has. -/
theorem recount (h : TallyInv s) (ack : MsgWriteObjAck) {calls' : Calls}
    (haddrs : AddrOk calls'.made.length calls'.threads)
    (hreqs : ReqsOk calls'.client.osdmap calls') (hmade : calls'.made = s.calls.made)
    (hlisted : calls'.threads.filterMap Caller.listed
      = s.calls.threads.filterMap Caller.listed)
    (hnumbered : ∀ addr req, .numbered addr req ∈ calls'.threads →
      .numbered addr req ∈ s.calls.threads)
    (hkeys : calls'.client.waitReqList.map WaitReq.key
      = s.calls.client.waitReqList.map WaitReq.key)
    (hacks : ∀ w ∈ calls'.client.waitReqList,
      w.ackCount = Int32.ofNat (tallyAck s.calls.client ack s.acks w.addr)) :
    TallyInv ⟨calls', tallyAck s.calls.client ack s.acks⟩ := by
  refine ⟨haddrs, hreqs, ?_, ?_, hacks, ?_, ?_⟩
  · show ∀ req ∈ calls'.made, _
    rw [hmade]
    exact h.writes
  · show (calls'.client.waitReqList.map _).Perm (calls'.threads.filterMap _)
    rw [hkeys, hlisted]
    exact h.entries
  · intro addr hle
    have hle : s.calls.made.length ≤ addr := hmade ▸ hle
    show tallyAck s.calls.client ack s.acks addr = 0
    rw [tallyAck_none]
    · exact h.fresh addr hle
    · rintro w hw rfl
      obtain ⟨req, hreq, -⟩ := h.reqs.listed w hw
      exact absurd (List.getElem?_eq_some_iff.mp hreq).1 (Nat.not_lt.mpr hle)
  · intro addr req hmem
    have hmem := hnumbered addr req hmem
    show tallyAck s.calls.client ack s.acks addr = 0
    rw [tallyAck_none (h.not_listed hmem)]
    exact h.numbered addr req hmem

/-- An acknowledgement that finds an entry is counted for that one only. -/
theorem acks_counted (h : TallyInv s) {ack : MsgWriteObjAck} {pre post : List WaitReq}
    {w : WaitReq} (hclient : ack.clientId = s.calls.client.clientId)
    (hws : s.calls.client.waitReqList = pre ++ w :: post)
    (hanswers : w.answers ack.reqId = true) :
    ∀ w' ∈ pre ++ w.acked :: post,
      w'.ackCount = Int32.ofNat (tallyAck s.calls.client ack s.acks w'.addr) := by
  have hw : w ∈ s.calls.client.waitReqList := by
    rw [hws]
    exact List.mem_append_right _ List.mem_cons_self
  have hid := (h.answers_iff hw ack.reqId).mp hanswers
  have hnumbers := h.numbers
  rw [hws, List.map_append, List.map_cons, List.perm_middle.nodup_iff, List.nodup_cons,
    ← List.map_append] at hnumbers
  have hother : ∀ w' ∈ pre ++ post,
      w'.ackCount = Int32.ofNat (tallyAck s.calls.client ack s.acks w'.addr) := by
    intro w' hw'
    have hmem : w' ∈ s.calls.client.waitReqList := by
      rw [hws]
      rcases List.mem_append.mp hw' with hw' | hw'
      · exact List.mem_append_left _ hw'
      · exact List.mem_append_right _ (List.mem_cons_of_mem w hw')
    have hne : ¬(ack.clientId = s.calls.client.clientId ∧ w'.req.reqId = ack.reqId) := by
      rintro ⟨-, hid'⟩
      apply hnumbers.1
      rw [hid, ← hid']
      exact List.mem_map_of_mem hw'
    rw [h.tallyAck_entry ack hmem, if_neg hne]
    exact h.acks w' hmem
  intro w' hw'
  rcases List.mem_append.mp hw' with hw' | hw'
  · exact hother w' (List.mem_append_left _ hw')
  · rcases List.mem_cons.mp hw' with rfl | hw'
    · show w.ackCount + 1 = Int32.ofNat (tallyAck s.calls.client ack s.acks w.addr)
      rw [h.tallyAck_entry ack hw, if_pos ⟨hclient, hid⟩, Int32.ofNat_add, h.acks w hw]
      rfl
    · exact hother w' (List.mem_append_right _ hw')

theorem ack (h : TallyInv s) {check : Bool} {ack : MsgWriteObjAck} {woken : List Nat}
    {calls' : Calls} (hstep : callStep check s.calls (.ack ack woken) = some calls')
    (haddrs : AddrOk calls'.made.length calls'.threads)
    (hreqs : ReqsOk calls'.client.osdmap calls') :
    TallyInv ⟨calls', tallyAck s.calls.client ack s.acks⟩ := by
  cases doObjectWriteAck_spec check s.calls.client ack with
  | ignored ret hrun hnone =>
      simp only [callStep, hrun] at hstep
      split_ifs at hstep
      cases hstep
      apply h.recount ack haddrs hreqs rfl rfl (fun _ _ hmem => hmem) rfl
      intro w hw
      rw [h.tallyAck_entry ack hw, if_neg]
      · exact h.acks w hw
      · rintro ⟨hclient, hid⟩
        have hanswers := (h.answers_iff hw ack.reqId).mpr hid
        rw [hnone hclient w hw] at hanswers
        cases hanswers
  | counted pre w post signal hws hrun hw hpre hsignal =>
      have hclient : ack.clientId = s.calls.client.clientId := by
        by_contra hne
        rw [doObjectWriteAck, if_pos hne] at hrun
        cases hrun
      obtain ⟨threads, hcalls, hthreads⟩ : ∃ threads,
          calls' = { s.calls with
            client := { s.calls.client with waitReqList := pre ++ w.acked :: post }
            threads := threads }
          ∧ if signal then pthreadCondSignal s.calls.threads woken = some threads
            else threads = s.calls.threads := by
        cases signal with
        | false =>
            simp only [callStep, hrun] at hstep
            split_ifs at hstep
            cases hstep
            exact ⟨_, rfl, rfl⟩
        | true =>
            simp only [callStep, hrun] at hstep
            obtain ⟨threads, hthreads, rfl⟩ := Option.map_eq_some_iff.mp hstep
            exact ⟨threads, rfl, hthreads⟩
      subst hcalls
      apply h.recount ack haddrs hreqs rfl (listed_signal hthreads)
        (fun _ _ hmem => numbered_signal hthreads hmem) ?_ (h.acks_counted hclient hws hw)
      show (pre ++ w.acked :: post).map WaitReq.key = _
      rw [hws, List.map_append, List.map_append, List.map_cons, List.map_cons]
      rfl

theorem step (h : TallyInv s) {check : Bool} {act : CallAct} {s' : Tally}
    (hfew : FewCalls s act) (hstep : tallyStep check s act = some s') : TallyInv s' := by
  obtain ⟨calls', hcall, rfl⟩ := Option.map_eq_some_iff.mp hstep
  have haddrs := h.addrs.step hcall
  have hreqs : ReqsOk calls'.client.osdmap calls' := by
    have hroom : ∀ t logId oid offset length data,
        act = .call t logId oid offset length data → s.calls.made.length < 2 ^ 64 := by
      rintro t logId oid offset length data rfl
      have hfew : s.calls.made.length + 1 < 2 ^ 63 := hfew
      omega
    have hreqs := h.reqs.step hroom hcall
    rw [hreqs.map]
    exact hreqs
  have hsame := Nat.le_refl s.calls.made.length
  cases callStep_spec hcall with
  | call t logId oid offset length data hmine =>
      apply h.keep (.numbered _ _) hmine rfl ?_ haddrs hreqs ?_ ?_ rfl rfl
      · intro addr req hcaller
        cases hcaller
        exact h.fresh _ (Nat.le_refl _)
      · intro req hreq
        rcases List.mem_append.mp hreq with hreq | hreq
        · exact h.writes req hreq
        · cases List.mem_singleton.mp hreq
          rfl
      · show s.calls.made.length ≤ (s.calls.made ++ [_]).length
        rw [List.length_append]
        exact Nat.le_add_right _ _
  | addReq t addr req hmine => exact h.addReq hmine haddrs hreqs rfl rfl rfl
  | send t ret addr req i n n' hmine _ =>
      exact h.keep (.sending addr req (i + 1) n') hmine rfl nofun haddrs hreqs h.writes hsame
        rfl rfl
  | refused t addr req i n hmine =>
      apply h.finish hmine rfl (fun w hw => of_decide_eq_true hw) ?_ haddrs hreqs rfl rfl rfl
      obtain ⟨w, hw, haddr, -⟩ := h.entry (List.mem_of_getElem? hmine) rfl
      exact ⟨w, hw, decide_eq_true haddr⟩
  | wait t addr req i n hmine =>
      exact h.keep (.checking _ _) hmine rfl nofun haddrs hreqs h.writes hsame rfl rfl
  | finish act t addr req caller w hact hcaller hmine hw hfinished =>
      have hlisted : caller.listed = some (addr, .writeObjReq req) := by
        rcases hcaller with rfl | rfl <;> rfl
      have hfinish : TallyInv ⟨_, s.acks⟩ := h.finish hmine hlisted
        (fun w hw => (of_decide_eq_true hw).1) ⟨w, hw, hfinished⟩ haddrs hreqs rfl rfl rfl
      rcases hact with rfl | rfl <;> exact hfinish
  | block t addr req hmine _ =>
      exact h.keep (.blocked _ _) hmine rfl nofun haddrs hreqs h.writes hsame rfl rfl
  | again t addr req hmine =>
      exact h.keep (.checking _ _) hmine rfl nofun haddrs hreqs h.writes hsame rfl rfl
  | ignored ack woken => exact h.ack hcall haddrs hreqs
  | counted ack woken pre w post signal threads hws hw hsignal hthreads =>
      exact h.ack hcall haddrs hreqs

theorem start (osdmap : Osdmap) (n : Nat) : TallyInv ⟨callStart osdmap n, fun _ => 0⟩ where
  addrs := .start n
  reqs := .start osdmap n
  writes := nofun
  entries := by
    have hnone : (List.replicate n Caller.idle).filterMap Caller.listed = [] := by
      apply List.filterMap_eq_nil_iff.mpr
      intro caller hcaller
      rw [List.eq_of_mem_replicate hcaller]
      rfl
    show ([] : List (Nat × Msg)).Perm ((List.replicate n Caller.idle).filterMap _)
    rw [hnone]
  acks := nofun
  fresh _ _ := rfl
  numbered _ _ _ := rfl

theorem reached {check : Bool} (h : (tallySystem check).Reached FewCalls s) : TallyInv s := by
  apply System.Reached.invariant _ _ h
  · rintro s ⟨osdmap, n, rfl⟩
    exact .start osdmap n
  · exact fun s act s' hs hfew hstep => hs.step hfew hstep

/-- The entry of a thread that is sending is found, and taken out. -/
theorem finds (h : TallyInv s) {addr i : Nat} {req : MsgWriteObjReq} {n : Int32}
    (hsending : .sending addr req i n ∈ s.calls.threads) :
    Finds s.calls.client addr req := by
  obtain ⟨mine, hmine, haddr, hreq⟩ := h.entry hsending rfl
  obtain ⟨w, pre, post, -, hw, hws, herase⟩ :=
    List.exists_of_eraseP (p := fun w => w.addr = addr) hmine (decide_eq_true haddr)
  have hat : w.addr = addr := of_decide_eq_true hw
  have hmem : w ∈ s.calls.client.waitReqList := by
    rw [hws]
    exact List.mem_append_right _ List.mem_cons_self
  refine ⟨pre, w, post, hws, hat, ?_, ?_⟩
  · exact (h.same_req hmem hmine (hat.trans haddr.symm)).trans hreq
  · unfold removeReqFromWaitList
    rw [if_neg (List.ne_nil_of_mem hmine), herase]

end TallyInv

-- ======================================================= the main result

theorem int32_counts (n : Nat) : (Int32.ofNat n).toInt = n ↔ n < 2 ^ 31 := by
  constructor
  · intro h
    have hlt := (int32_bounds (Int32.ofNat n)).2
    omega
  · exact fun h => Int32.toInt_ofNat_of_lt h

/-- The list holds one entry for each call that has added its request and
not removed it, whatever fails to be sent and whatever is acknowledged. -/
theorem waitList_law {check : Bool} {s : Tally}
    (h : (tallySystem check).Reached FewCalls s) : WaitListOk s where
  entries := (TallyInv.reached h).entries
  apart := (TallyInv.reached h).apart
  numbers := (TallyInv.reached h).numbers
  acks := by
    intro w hw
    have hack := (TallyInv.reached h).acks w hw
    rw [hack]
    exact ⟨rfl, int32_counts _⟩
  finds _ _ _ _ hsending := (TallyInv.reached h).finds hsending

/-- Two threads with a request each, of which the second one is acknowledged. -/
theorem waitList_law_two : ∃ s, (tallySystem true).Reached FewCalls s
    ∧ s.calls.client.waitReqList.map (fun w => (w.addr, w.ackCount)) = [(1, 1), (0, 0)]
    ∧ WaitListOk s := by
  have hstart : (tallySystem true).Reached FewCalls ⟨callStart oneOsd 2, fun _ => 0⟩ :=
    .start ⟨oneOsd, 2, rfl⟩
  have hfirst := hstart.next (a := .call 0 7 (.close [111]) 0 1 [65])
    (Nat.one_lt_two_pow (by decide)) rfl
  have hsecond := hfirst.next (a := .call 1 7 (.close [112]) 0 1 [66])
    (Nat.lt_of_le_of_lt (m := 2) (Nat.le_refl _) (by decide)) rfl
  have hlisted := hsecond.exec [.addReq 0, .addReq 1, .ack { ackOne with reqId := 2 } []]
    (by simp [FewCalls]) rfl
  exact ⟨_, hlisted, rfl, waitList_law hlisted⟩

-- --------------------------------------------- acknowledged without end

/-- The request of the only thread, for the object `o`. -/
def onlyReq : MsgWriteObjReq := (newWriteReq (clientInit oneOsd) 7 (.close [111]) 0 1 [65]).1

/-- The thread is about to send it, and it has been acknowledged. -/
def onlyListed (ackCount : Int32) (acks : Nat → Nat) : Tally where
  calls :=
    { client := { clientInit oneOsd with
        reqId := 1, waitReqList := [⟨0, .writeObjReq onlyReq, ackCount, 0, 1⟩] }
      made := [onlyReq]
      threads := [.sending 0 onlyReq 0 0]
      returned := [] }
  acks := acks

theorem onlyListed_reached (check : Bool) :
    (tallySystem check).Reached FewCalls (onlyListed 0 fun _ => 0) := by
  have hstart : (tallySystem check).Reached FewCalls ⟨callStart oneOsd 1, fun _ => 0⟩ :=
    .start ⟨oneOsd, 1, rfl⟩
  have hfew : FewCalls ⟨callStart oneOsd 1, fun _ => 0⟩ (.call 0 7 (.close [111]) 0 1 [65]) :=
    Nat.one_lt_two_pow (by decide)
  have hcall := hstart.next hfew rfl
  exact hcall.next (a := .addReq 0) trivial rfl

theorem onlyListed_ack (ackCount : Int32) (acks : Nat → Nat) : ∃ acks',
    tallyStep false (onlyListed ackCount acks) (.ack ackOne [])
        = some (onlyListed (ackCount + 1) acks')
      ∧ acks' 0 = acks 0 + 1 := by
  have hack : doObjectWriteAck false (onlyListed ackCount acks).calls.client ackOne
      = (CCEPH_OK, (onlyListed (ackCount + 1) acks).calls.client,
        WaitReq.enough ⟨0, .writeObjReq onlyReq, ackCount + 1, 0, 1⟩) := rfl
  refine ⟨tallyAck (onlyListed ackCount acks).calls.client ackOne acks, ?_, ?_⟩
  · simp only [tallyStep, callStep, hack]
    cases WaitReq.enough ⟨0, .writeObjReq onlyReq, ackCount + 1, 0, 1⟩ <;> rfl
  · exact if_pos ⟨rfl, _, List.mem_cons_self, rfl, rfl⟩

/-- It is acknowledged `n` times. -/
theorem onlyListed_acks (n : Nat) : ∃ acks, acks 0 = n
    ∧ (tallySystem false).Reached FewCalls (onlyListed (Int32.ofNat n) acks) := by
  induction n with
  | zero => exact ⟨fun _ => 0, rfl, onlyListed_reached false⟩
  | succ n ih =>
      obtain ⟨acks, hacks, hreached⟩ := ih
      obtain ⟨acks', hstep, hmore⟩ := onlyListed_ack (Int32.ofNat n) acks
      refine ⟨acks', by rw [hmore, hacks], ?_⟩
      rw [Int32.ofNat_add]
      exact hreached.next (a := .ack ackOne []) trivial hstep

/-- The count of an entry that is acknowledged 2^31 times is negative. -/
theorem waitList_uncounted : ∃ s, (tallySystem false).Reached FewCalls s
    ∧ ∃ w ∈ s.calls.client.waitReqList, w.ackCount.toInt ≠ s.acks w.addr := by
  obtain ⟨acks, hacks, hreached⟩ := onlyListed_acks (2 ^ 31)
  refine ⟨_, hreached, _, List.mem_cons_self, ?_⟩
  show (Int32.ofNat (2 ^ 31)).toInt ≠ acks 0
  rw [hacks]
  intro heq
  exact absurd ((int32_counts (2 ^ 31)).mp heq) (Nat.lt_irrefl _)

end CephInC
