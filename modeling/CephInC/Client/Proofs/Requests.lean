/-
The requests of one client have numbers of their own.

A request keeps its place among the requests made, threads and entries
of the list point at the request in the place that is their address, and
the request in a place has the next place as its number. Numbers are
distinct as long as no more than 2^64 requests are made.
-/
import CephInC.Client.Proofs.Addresses

namespace CephInC

open Lib

namespace Caller

/-- The thread's request and its address. -/
def held : Caller → Option (Nat × MsgWriteObjReq)
  | .idle => none
  | .numbered addr req | .sending addr req _ _ | .checking addr req | .blocked addr req
  | .unblocked addr req => some (addr, req)

theorem addr_of_held {caller : Caller} {addr : Nat} {req : MsgWriteObjReq}
    (h : caller.held = some (addr, req)) : caller.addr = some addr := by
  cases caller <;> cases h <;> rfl

theorem wake_held (caller : Caller) : caller.wake.held = caller.held := by
  cases caller <;> rfl

end Caller

/-- A signal only wakes. -/
theorem mem_of_signal {threads threads' : List Caller} {woken : List Nat}
    (h : pthreadCondSignal threads woken = some threads') {caller' : Caller}
    (hmem : caller' ∈ threads') :
    ∃ caller ∈ threads, caller' = caller ∨ caller' = caller.wake := by
  unfold pthreadCondSignal at h
  split_ifs at h
  cases h
  obtain ⟨t, ht⟩ := List.mem_iff_getElem?.mp hmem
  rw [List.getElem?_mapIdx] at ht
  obtain ⟨caller, hcaller, hwake⟩ := Option.map_eq_some_iff.mp ht
  refine ⟨caller, List.mem_of_getElem? hcaller, ?_⟩
  split_ifs at hwake
  · exact .inr hwake.symm
  · exact .inl hwake.symm

/-- What the signal of an acknowledgement does, if there is one. -/
theorem mem_of_counted {threads threads' : List Caller} {woken : List Nat} {signal : Bool}
    (h : if signal then pthreadCondSignal threads woken = some threads'
      else threads' = threads) {caller' : Caller} (hmem : caller' ∈ threads') :
    ∃ caller ∈ threads, caller' = caller ∨ caller' = caller.wake := by
  split_ifs at h
  · exact mem_of_signal h hmem
  · rw [h] at hmem
    exact ⟨caller', hmem, .inl rfl⟩

theorem int64_ofNat_inj {m n : Nat} (hm : m < 2 ^ 64) (hn : n < 2 ^ 64)
    (h : Int64.ofNat (m + 1) = Int64.ofNat (n + 1)) : m = n := by
  have hmod : (m + 1) % 2 ^ 64 = (n + 1) % 2 ^ 64 := congrArg (·.toBitVec.toNat) h
  omega

-- =========================================================== invariant

/-- An entry waits for this request, and for every server. -/
structure WaitReq.IsFor (osdmap : Osdmap) (w : WaitReq) (req : MsgWriteObjReq) : Prop where
  req : w.req = .writeObjReq req
  commitCount : w.commitCount = 0
  reqCount : w.reqCount = osdmap.osdCount

structure ReqsOk (osdmap : Osdmap) (s : Calls) : Prop where
  map : s.client.osdmap = osdmap
  count : s.client.reqId = Int64.ofNat s.made.length
  bound : s.made.length ≤ 2 ^ 64
  numbers : ∀ addr req, s.made[addr]? = some req → req.reqId = Int64.ofNat (addr + 1)
  held : ∀ caller ∈ s.threads, ∀ addr req, caller.held = some (addr, req) →
    s.made[addr]? = some req
  listed : ∀ w ∈ s.client.waitReqList, ∃ req, s.made[w.addr]? = some req ∧ w.IsFor osdmap req

namespace ReqsOk

variable {osdmap : Osdmap} {s s' : Calls}

/-- A request is known by its number. -/
theorem addr_unique (h : ReqsOk osdmap s) {addr addr' : Nat} {req req' : MsgWriteObjReq}
    (hreq : s.made[addr]? = some req) (hreq' : s.made[addr']? = some req')
    (hid : req.reqId = req'.reqId) : addr = addr' := by
  rw [h.numbers addr req hreq, h.numbers addr' req' hreq'] at hid
  have hlt := (List.getElem?_eq_some_iff.mp hreq).1
  have hlt' := (List.getElem?_eq_some_iff.mp hreq').1
  exact int64_ofNat_inj (hlt.trans_le h.bound) (hlt'.trans_le h.bound) hid

theorem req_unique (h : ReqsOk osdmap s) {req req' : MsgWriteObjReq} (hreq : req ∈ s.made)
    (hreq' : req' ∈ s.made) (hid : req.reqId = req'.reqId) : req = req' := by
  obtain ⟨addr, haddr⟩ := List.mem_iff_getElem?.mp hreq
  obtain ⟨addr', haddr'⟩ := List.mem_iff_getElem?.mp hreq'
  rw [h.addr_unique haddr haddr' hid, haddr'] at haddr
  cases haddr
  rfl

/-- A new request is none of those made before. -/
theorem new_not_mem (h : ReqsOk osdmap s) (hroom : s.made.length < 2 ^ 64) {logId : Int64}
    {oid : CharBlock} {offset length : Int64} {data : List UInt8} :
    (newWriteReq s.client logId oid offset length data).1 ∉ s.made := by
  intro hmem
  obtain ⟨addr, haddr⟩ := List.mem_iff_getElem?.mp hmem
  have hlt := (List.getElem?_eq_some_iff.mp haddr).1
  have hid : s.client.reqId + 1 = Int64.ofNat (addr + 1) := h.numbers _ _ haddr
  rw [h.count] at hid
  have hsum : Int64.ofNat (s.made.length + 1) = Int64.ofNat (addr + 1) := by
    rw [← hid, Int64.ofNat_add]
    rfl
  exact absurd (int64_ofNat_inj hroom (hlt.trans hroom) hsum) (Nat.ne_of_gt hlt)

theorem start (osdmap : Osdmap) (n : Nat) : ReqsOk osdmap (callStart osdmap n) where
  map := rfl
  count := rfl
  bound := Nat.zero_le _
  numbers := by
    intro addr req h
    cases h
  held := by
    intro caller hcaller addr req h
    rw [List.eq_of_mem_replicate hcaller] at h
    cases h
  listed := by
    intro w hw
    cases hw

/-- A thread moves on with its request, or without, and entries leave the
list. -/
theorem keep (h : ReqsOk osdmap s) {t : Nat} {caller caller' : Caller} {ws : List WaitReq}
    {returned : List (MsgWriteObjReq × Int)} (hmine : s.threads[t]? = some caller)
    (hheld : ∀ addr req, caller'.held = some (addr, req) → caller.held = some (addr, req))
    (hsub : ∀ w ∈ ws, w ∈ s.client.waitReqList) :
    ReqsOk osdmap ⟨{ s.client with waitReqList := ws }, s.made, s.threads.set t caller',
      returned⟩ where
  map := h.map
  count := h.count
  bound := h.bound
  numbers := h.numbers
  held := by
    intro caller'' hmem addr req hreq
    rcases List.mem_or_eq_of_mem_set hmem with hmem | rfl
    · exact h.held caller'' hmem addr req hreq
    · exact h.held caller (List.mem_of_getElem? hmine) addr req (hheld addr req hreq)
  listed w hw := h.listed w (hsub w hw)

theorem call (h : ReqsOk osdmap s) (hroom : s.made.length < 2 ^ 64) {t : Nat}
    {logId : Int64} {oid : CharBlock} {offset length : Int64} {data : List UInt8} :
    ReqsOk osdmap
      { s.move t (.numbered s.made.length
          (newWriteReq s.client logId oid offset length data).1) with
        client := (newWriteReq s.client logId oid offset length data).2,
        made := s.made ++ [(newWriteReq s.client logId oid offset length data).1] } := by
  have hold : ∀ (addr : Nat) (req : MsgWriteObjReq), s.made[addr]? = some req →
      (s.made ++ [(newWriteReq s.client logId oid offset length data).1])[addr]?
        = some req := by
    intro addr req hreq
    rw [List.getElem?_append_left (List.getElem?_eq_some_iff.mp hreq).1]
    exact hreq
  have hnext : s.client.reqId + 1 = Int64.ofNat (s.made.length + 1) := by
    rw [h.count, Int64.ofNat_add]
    rfl
  refine ⟨h.map, ?_, ?_, ?_, ?_, ?_⟩
  · rw [List.length_append]
    exact hnext
  · rw [List.length_append]
    exact hroom
  · intro addr req hreq
    by_cases hlt : addr < s.made.length
    · rw [List.getElem?_append_left hlt] at hreq
      exact h.numbers addr req hreq
    · obtain ⟨hle, heq⟩ := List.getElem?_eq_some_iff.mp hreq
      rw [List.length_append, List.length_singleton] at hle
      have haddr : addr = s.made.length := by omega
      subst haddr
      rw [List.getElem_concat_length rfl] at heq
      rw [← heq]
      exact hnext
  · intro caller hmem addr req hreq
    rcases List.mem_or_eq_of_mem_set hmem with hmem | rfl
    · exact hold addr req (h.held caller hmem addr req hreq)
    · cases hreq
      exact List.getElem?_concat_length
  · intro w hw
    obtain ⟨req, hreq, hfor⟩ := h.listed w hw
    exact ⟨req, hold _ req hreq, hfor⟩

theorem step {check : Bool} (h : ReqsOk osdmap s) {act : CallAct}
    (hroom : ∀ t logId oid offset length data,
      act = .call t logId oid offset length data → s.made.length < 2 ^ 64)
    (hstep : callStep check s act = some s') : ReqsOk osdmap s' := by
  have hall : ∀ w ∈ s.client.waitReqList, w ∈ s.client.waitReqList := fun w hw => hw
  cases callStep_spec hstep with
  | call t logId oid offset length data hmine => exact h.call (hroom _ _ _ _ _ _ rfl)
  | addReq t addr req hmine =>
      have hkeep : ReqsOk osdmap (s.move t (.sending addr req 0 0)) :=
        h.keep hmine (fun _ _ hreq => hreq) hall
      refine ⟨h.map, h.count, h.bound, h.numbers, hkeep.held, ?_⟩
      intro w hw
      rcases List.mem_cons.mp hw with rfl | hw
      · exact ⟨req, h.held _ (List.mem_of_getElem? hmine) addr req rfl, rfl, rfl,
          congrArg Osdmap.osdCount h.map⟩
      · exact h.listed w hw
  | send t ret addr req i n n' hmine _ => exact h.keep hmine (fun _ _ hreq => hreq) hall
  | refused t addr req i n hmine =>
      exact h.keep hmine nofun fun w hw => List.mem_of_mem_eraseP hw
  | wait t addr req i n hmine => exact h.keep hmine (fun _ _ hreq => hreq) hall
  | finish act t addr req caller w _ _ hmine _ _ =>
      exact h.keep hmine nofun fun w hw => List.mem_of_mem_eraseP hw
  | block t addr req hmine _ => exact h.keep hmine (fun _ _ hreq => hreq) hall
  | again t addr req hmine => exact h.keep hmine (fun _ _ hreq => hreq) hall
  | ignored ack woken => exact h
  | counted ack woken pre w post signal threads hws _ _ hthreads =>
      have hlisted := h.listed
      rw [hws] at hlisted
      refine ⟨h.map, h.count, h.bound, h.numbers, ?_, ?_⟩
      · intro caller' hmem addr req hreq
        obtain ⟨caller, hcaller, rfl | rfl⟩ := mem_of_counted hthreads hmem
        · exact h.held _ hcaller addr req hreq
        · rw [caller.wake_held] at hreq
          exact h.held caller hcaller addr req hreq
      · intro w' hw'
        rcases List.mem_append.mp hw' with hw' | hw'
        · exact hlisted w' (List.mem_append_left _ hw')
        · rcases List.mem_cons.mp hw' with rfl | hw'
          · obtain ⟨req, hreq, hfor⟩ := hlisted w (List.mem_append_right _ List.mem_cons_self)
            exact ⟨req, hreq, hfor.req, hfor.commitCount, hfor.reqCount⟩
          · exact hlisted w' (List.mem_append_right _ (List.mem_cons_of_mem _ hw'))

end ReqsOk

end CephInC
