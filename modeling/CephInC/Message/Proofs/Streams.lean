/-
Messages are not interleaved on a connection.

What the steps do to the bytes and the states of connections comes
first, in a few kinds (`Effect`): most steps do nothing. From it, by
cases: a connection that has broken off is sent to no more (`Dead`), and
what a connection was sent is whole messages, with the part of one more
that a thread is in the middle of, or that broke off (`Stream`). That
only one thread is in the middle is the work of `conn->lock`, by way of
the roles of `Proofs/Locks.lean`.
-/
import CephInC.Message.Proofs.Locks
import CephInC.Message.Proofs.RoundTrip

namespace CephInC

open Lib SendCall

namespace Point

/-- The connection the thread has found open, and sends to. -/
def writing : Point → Option Nat
  | send _ _ (.log conn) => some conn
  | send _ _ (.fd conn) => some conn
  | send _ _ (.call conn _ _) => some conn
  | _ => none

/-- The connection the thread is about to mark closed. -/
def marking : Point → Option Nat
  | send _ _ (.mark conn) => some conn
  | _ => none

/-- The message the thread has to send. -/
def msg : Point → Option Msg
  | send _ msg _ => some msg
  | _ => none

/-- The thread has nothing to do with what is sent. -/
def Aside (p : Point) : Prop := p.writing = none ∧ p.marking = none

end Point

-- ============================================================== one step

/-- What an operation does to the bytes and the states of connections. -/
inductive Effect (s : Shared) (outcome : SendOutcome) : Point → Point → Shared → Prop
  | entered (call : Call) :
      Effect s outcome .free (callPoint s call).1 (callPoint s call).2
  | aside {p p' : Point} {m : Shared} (hp : p.Aside) (hp' : p'.Aside)
      (hmsg : p'.msg = none ∨ p'.msg = p.msg) (hsent : m.sent = s.sent)
      (hmade : m.made = s.made) (hconns : m.conns = s.conns) (hshut : m.shut = s.shut) :
      Effect s outcome p p' m
  | shut {id : Int64} {conn : Nat} :
      Effect s outcome (.close id (.shut conn)) (.close id (.host conn))
        { s with shut := conn :: s.shut }
  | found {id : Int64} {msg : Msg} {conn : Nat}
      (hopen : (s.conns conn).state ≠ CCEPH_CONN_STATE_CLOSED) :
      Effect s outcome (.send id msg (.state conn)) (.send id msg (.log conn)) s
  | logged {id : Int64} {msg : Msg} {conn : Nat} :
      Effect s outcome (.send id msg (.log conn)) (.send id msg (.fd conn)) s
  | begun {id : Int64} {msg : Msg} {conn : Nat} {calls : List SendCall} {last : Int}
      (hcalls : writeCalls msg = some (calls, last)) :
      Effect s outcome (.send id msg (.fd conn)) (.send id msg (.call conn calls last)) s
  | called {id : Int64} {msg : Msg} {conn : Nat} {call : SendCall}
      {calls : List SendCall} {last ret : Int} {out : Outbox}
      (hrun : runCall call ⟨s.sent conn, [outcome]⟩ = .ok (ret, out)) (hret : ¬ret < 0) :
      Effect s outcome (.send id msg (.call conn (call :: calls) last))
        (.send id msg (.call conn calls last))
        { s with sent := Function.update s.sent conn out.sent }
  | failed {id : Int64} {msg : Msg} {conn : Nat} {call : SendCall}
      {calls : List SendCall} {last ret : Int} {out : Outbox}
      (hrun : runCall call ⟨s.sent conn, [outcome]⟩ = .ok (ret, out)) (hret : ret < 0) :
      Effect s outcome (.send id msg (.call conn (call :: calls) last))
        (.send id msg (.mark conn))
        { s with sent := Function.update s.sent conn out.sent }
  | done {id : Int64} {msg : Msg} {conn : Nat} :
      Effect s outcome (.send id msg (.call conn [] 0)) (.send id msg (.unlock conn 0)) s
  | refused {id : Int64} {msg : Msg} {conn : Nat} {last : Int} (hlast : last ≠ 0) :
      Effect s outcome (.send id msg (.call conn [] last)) (.send id msg (.mark conn)) s
  | marked {id : Int64} {msg : Msg} {conn : Nat} :
      Effect s outcome (.send id msg (.mark conn))
        (.send id msg (.unlock conn CCEPH_ERR_WRITE_CONN_ERR)) (s.markClosed conn)

section
variable {s : Shared} {t : Nat} {outcome : SendOutcome} {r : Point × Shared}

theorem lockList_still {s' : Shared} {access : Access}
    (h : s.lockList t access = some s') :
    s'.sent = s.sent ∧ s'.made = s.made ∧ s'.conns = s.conns ∧ s'.shut = s.shut := by
  obtain ⟨lock, -, rfl⟩ := lockList_eq h
  exact ⟨rfl, rfl, rfl, rfl⟩

theorem lockConn_still {s' : Shared} {conn : Nat} (h : s.lockConn t conn = some s') :
    s'.sent = s.sent ∧ s'.made = s.made ∧ s'.conns = s.conns ∧ s'.shut = s.shut := by
  obtain ⟨-, rfl⟩ := lockConn_eq h
  exact ⟨rfl, rfl, rfl, rfl⟩

theorem sendStep_effect {id : Int64} {msg : Msg} {p : SendPoint}
    (h : sendStep s t id msg outcome p = some r) :
    Effect s outcome (.send id msg p) r.1 r.2 := by
  cases p with
  | rdlock =>
      obtain ⟨m, hlist, h⟩ := Option.map_eq_some_iff.mp h
      obtain ⟨hsent, hmade, hconns, hshut⟩ := lockList_still hlist
      rw [← h]
      exact .aside ⟨rfl, rfl⟩ ⟨rfl, rfl⟩ (.inr rfl) hsent hmade hconns hshut
  | get pos =>
      simp only [sendStep] at h
      split at h <;> cases h <;> exact .aside ⟨rfl, rfl⟩ ⟨rfl, rfl⟩ (.inr rfl) rfl rfl rfl rfl
  | notFound =>
      cases h
      exact .aside ⟨rfl, rfl⟩ ⟨rfl, rfl⟩ (.inl rfl) rfl rfl rfl rfl
  | lock conn =>
      obtain ⟨m, hlock, h⟩ := Option.map_eq_some_iff.mp h
      obtain ⟨hsent, hmade, hconns, hshut⟩ := lockConn_still hlock
      rw [← h]
      exact .aside ⟨rfl, rfl⟩ ⟨rfl, rfl⟩ (.inr rfl) hsent hmade hconns hshut
  | unlist conn =>
      cases h
      exact .aside ⟨rfl, rfl⟩ ⟨rfl, rfl⟩ (.inr rfl) rfl rfl rfl rfl
  | state conn =>
      simp only [sendStep] at h
      split_ifs at h with hclosed
      · cases h
        exact .aside ⟨rfl, rfl⟩ ⟨rfl, rfl⟩ (.inr rfl) rfl rfl rfl rfl
      · cases h
        exact .found hclosed
  | log conn =>
      cases h
      exact .logged
  | fd conn =>
      obtain ⟨calls, hcalls, h⟩ := Option.map_eq_some_iff.mp h
      rw [← h]
      exact .begun hcalls
  | call conn calls last =>
      cases calls with
      | nil =>
          simp only [sendStep] at h
          split_ifs at h with hlast
          · cases h
            rw [hlast]
            exact .done
          · cases h
            exact .refused hlast
      | cons call calls =>
          simp only [sendStep] at h
          split at h
          · next ret out hrun =>
              split_ifs at h with hret
              · cases h
                exact .failed hrun hret
              · cases h
                exact .called hrun hret
          · cases h
  | mark conn =>
      cases h
      exact .marked
  | unlock conn ret =>
      simp only [sendStep] at h
      split_ifs at h <;> cases h <;> exact .aside ⟨rfl, rfl⟩ ⟨rfl, rfl⟩ (.inl rfl) rfl rfl rfl rfl

theorem closeStep_effect {id : Int64} {p : ClosePoint}
    (h : closeStep s t id p = some r) : Effect s outcome (.close id p) r.1 r.2 := by
  cases p with
  | wrlock =>
      obtain ⟨m, hlist, h⟩ := Option.map_eq_some_iff.mp h
      obtain ⟨hsent, hmade, hconns, hshut⟩ := lockList_still hlist
      rw [← h]
      exact .aside ⟨rfl, rfl⟩ ⟨rfl, rfl⟩ (.inl rfl) hsent hmade hconns hshut
  | lock conn =>
      obtain ⟨m, hlock, h⟩ := Option.map_eq_some_iff.mp h
      obtain ⟨hsent, hmade, hconns, hshut⟩ := lockConn_still hlock
      rw [← h]
      exact .aside ⟨rfl, rfl⟩ ⟨rfl, rfl⟩ (.inl rfl) hsent hmade hconns hshut
  | shut conn =>
      cases h
      exact .shut
  | get pos =>
      simp only [closeStep] at h
      split at h <;> cases h <;> exact .aside ⟨rfl, rfl⟩ ⟨rfl, rfl⟩ (.inl rfl) rfl rfl rfl rfl
  | _ =>
      cases h
      exact .aside ⟨rfl, rfl⟩ ⟨rfl, rfl⟩ (.inl rfl) rfl rfl rfl rfl

theorem findStep_effect {wanted : Wanted} {p : FindPoint}
    (h : findStep s t wanted p = some r) : Effect s outcome (.find wanted p) r.1 r.2 := by
  cases p with
  | rdlock =>
      obtain ⟨m, hlist, h⟩ := Option.map_eq_some_iff.mp h
      obtain ⟨hsent, hmade, hconns, hshut⟩ := lockList_still hlist
      rw [← h]
      exact .aside ⟨rfl, rfl⟩ ⟨rfl, rfl⟩ (.inl rfl) hsent hmade hconns hshut
  | get pos =>
      simp only [findStep] at h
      split at h <;> cases h <;> exact .aside ⟨rfl, rfl⟩ ⟨rfl, rfl⟩ (.inl rfl) rfl rfl rfl rfl
  | _ =>
      cases h
      exact .aside ⟨rfl, rfl⟩ ⟨rfl, rfl⟩ (.inl rfl) rfl rfl rfl rfl

theorem addStep_effect {ctl : Int} {p : AddPoint} (h : addStep s t ctl p = some r) :
    Effect s outcome (.add p) r.1 r.2 := by
  cases p with
  | wrlock conn =>
      obtain ⟨m, hlist, h⟩ := Option.map_eq_some_iff.mp h
      obtain ⟨hsent, hmade, hconns, hshut⟩ := lockList_still hlist
      rw [← h]
      exact .aside ⟨rfl, rfl⟩ ⟨rfl, rfl⟩ (.inl rfl) hsent hmade hconns hshut
  | read conn failed =>
      simp only [addStep] at h
      split_ifs at h <;> cases h <;> exact .aside ⟨rfl, rfl⟩ ⟨rfl, rfl⟩ (.inl rfl) rfl rfl rfl rfl
  | _ =>
      cases h
      exact .aside ⟨rfl, rfl⟩ ⟨rfl, rfl⟩ (.inl rfl) rfl rfl rfl rfl

theorem pointStep_effect {ctl : Int} {p : Point}
    (h : pointStep s t outcome ctl p = some r) : Effect s outcome p r.1 r.2 := by
  cases p with
  | free => cases h
  | send id msg p => exact sendStep_effect h
  | close id p => exact closeStep_effect h
  | find wanted p => exact findStep_effect h
  | add p => exact addStep_effect h

end

/-- A step is the effect of one operation, or of a call. -/
theorem lockStep_effect {s s' : Sharing} {act : LockAct} (h : lockStep s act = some s') :
    ∃ t outcome r, s' = s.put t r ∧ Effect s.shared outcome (s.points t) r.1 r.2
      ∧ ((∃ ctl, act = .run t outcome ctl ∧ s.points t ≠ .free)
        ∨ ∃ call, act = .call t call ∧ s.points t = .free ∧ r = callPoint s.shared call) := by
  rcases lockStep_cases h with ⟨t, call, hact, hfree, rfl⟩ | ⟨t, outcome, ctl, r, hact, hstep, rfl⟩
  · exact ⟨t, .failed 0, _, rfl, hfree ▸ .entered call, .inr ⟨call, hact, hfree, rfl⟩⟩
  · refine ⟨t, outcome, r, rfl, pointStep_effect hstep, .inl ⟨ctl, hact, ?_⟩⟩
    intro hfree
    rw [hfree] at hstep
    cases hstep

-- =========================================================== broken off

theorem role_of_writing {p : Point} {a : Nat} (h : p.writing = some a) :
    p.role = .use a := by
  cases p with
  | send id msg p =>
      cases p with
      | log conn => cases h; rfl
      | fd conn => cases h; rfl
      | call conn calls last => cases h; rfl
      | _ => cases h
  | _ => cases h

theorem role_of_marking {p : Point} {a : Nat} (h : p.marking = some a) :
    p.role = .use a := by
  cases p with
  | send id msg p =>
      cases p with
      | mark conn => cases h; rfl
      | _ => cases h
  | _ => cases h

/-- The connection is marked closed, or about to be, and no thread is past
the test of that. -/
structure Dead (s : Sharing) (a : Nat) : Prop where
  made : a < s.shared.made
  idle : ∀ t, (s.points t).writing ≠ some a
  closed : (s.shared.conns a).state = CCEPH_CONN_STATE_CLOSED
    ∨ ∃ t, (s.points t).marking = some a

section
variable {s s' : Sharing} {t u : Nat} {a : Nat} {p : Point} {m : Shared}

theorem put_self (s : Sharing) (t : Nat) (r : Point × Shared) :
    (s.put t r).points t = r.1 := Function.update_self ..

theorem put_other (s : Sharing) {t u : Nat} (hu : u ≠ t) (r : Point × Shared) :
    (s.put t r).points u = s.points u := Function.update_of_ne hu ..

/-- What the step gives its thread, and leaves the others, they all have. -/
theorem forall_put {r : Point × Shared} (P : Point → Prop) (hself : P r.1)
    (hothers : ∀ u, u ≠ t → P (s.points u)) : ∀ u, P ((s.put t r).points u) :=
  (Function.forall_update_iff s.points fun _ => P).mpr ⟨hself, hothers⟩

/-- Two threads are not with one connection at once. -/
theorem one_sender (hsafe : s.lifetime.Safe) (ht : (s.points t).role = .use a)
    (hu : (s.points u).role = .use a) : t = u :=
  hsafe.one_user ht hu

theorem Dead.put (h : Dead s a) (hmade : s.shared.made ≤ m.made)
    (hidle : p.writing ≠ some a)
    (hstate : (s.shared.conns a).state = CCEPH_CONN_STATE_CLOSED →
      (m.conns a).state = CCEPH_CONN_STATE_CLOSED)
    (hmark : (s.points t).marking = some a →
      (m.conns a).state = CCEPH_CONN_STATE_CLOSED) : Dead (s.put t (p, m)) a := by
  refine ⟨Nat.lt_of_lt_of_le h.made hmade, ?_, ?_⟩
  · intro u
    by_cases hu : u = t
    · rw [hu, put_self]
      exact hidle
    · rw [put_other s hu]
      exact h.idle u
  · rcases h.closed with hclosed | ⟨u, hu⟩
    · exact .inl (hstate hclosed)
    · by_cases hut : u = t
      · rw [hut] at hu
        exact .inl (hmark hu)
      · refine .inr ⟨u, ?_⟩
        rw [put_other s hut]
        exact hu

/-- An operation on the bytes or the state of other connections only. -/
theorem Dead.put_quiet (h : Dead s a) (hmade : s.shared.made ≤ m.made)
    (hidle : p.writing ≠ some a) (hconns : m.conns a = s.shared.conns a)
    (hmark : (s.points t).marking ≠ some a) : Dead (s.put t (p, m)) a := by
  apply h.put hmade hidle
  · rw [hconns]
    exact id
  · exact fun hm => absurd hm hmark

theorem callPoint_aside (call : Call) : (callPoint m call).1.Aside
    ∧ (callPoint m call).2.sent = m.sent ∧ m.made ≤ (callPoint m call).2.made
    ∧ ∀ a, a < m.made → (callPoint m call).2.conns a = m.conns a := by
  cases call with
  | addConn host port fd state =>
      refine ⟨⟨rfl, rfl⟩, rfl, Nat.le_succ m.made, ?_⟩
      intro a ha
      exact Function.update_of_ne (Nat.ne_of_lt ha) ..
  | _ => exact ⟨⟨rfl, rfl⟩, rfl, Nat.le_refl m.made, fun _ _ => rfl⟩

/-- A connection that has broken off stays so, and gets no byte. -/
theorem Dead.step {act : LockAct} (hsafe : s.lifetime.Safe) (h : Dead s a)
    (hstep : lockStep s act = some s') :
    Dead s' a ∧ s'.shared.sent a = s.shared.sent a := by
  obtain ⟨t, outcome, ⟨p', m⟩, rfl, heffect, -⟩ := lockStep_effect hstep
  have hidle := h.idle t
  generalize hp : s.points t = p at heffect hidle
  have hmarking : p.marking ≠ some a → (s.points t).marking ≠ some a := by
    rw [hp]
    exact id
  cases heffect with
  | entered call =>
      obtain ⟨haside, hsent, hmade, hconns⟩ := callPoint_aside (m := s.shared) call
      refine ⟨h.put_quiet hmade ?_ (hconns a h.made) (hmarking nofun), congrFun hsent a⟩
      rw [haside.1]
      nofun
  | shut => exact ⟨h.put_quiet (Nat.le_refl _) nofun rfl (hmarking nofun), rfl⟩
  | aside hpa hpa' _ hsent hmade hconns =>
      refine ⟨h.put_quiet (Nat.le_of_eq hmade.symm) ?_ (congrFun hconns a)
        (hmarking ?_), congrFun hsent a⟩
      · rw [hpa'.1]
        nofun
      · rw [hpa.2]
        nofun
  | @found id msg conn hopen =>
      refine ⟨h.put_quiet (Nat.le_refl _) ?_ rfl (hmarking nofun), rfl⟩
      intro hconn
      cases hconn
      -- the state says open, and no other thread is there to change that
      rcases h.closed with hclosed | ⟨u, hu⟩
      · exact hopen hclosed
      · have htu : u = t := one_sender hsafe (role_of_marking hu) (by rw [hp]; rfl)
        rw [htu, hp] at hu
        cases hu
  | logged => exact ⟨h.put_quiet (Nat.le_refl _) hidle rfl (hmarking nofun), rfl⟩
  | begun _ => exact ⟨h.put_quiet (Nat.le_refl _) hidle rfl (hmarking nofun), rfl⟩
  | @called id msg conn call calls last ret out hrun hret =>
      have hne : a ≠ conn := fun ha => hidle (congrArg some ha.symm)
      exact ⟨h.put_quiet (Nat.le_refl _) hidle rfl (hmarking nofun),
        Function.update_of_ne hne ..⟩
  | @failed id msg conn call calls last ret out hrun hret =>
      have hne : a ≠ conn := fun ha => hidle (congrArg some ha.symm)
      exact ⟨h.put_quiet (Nat.le_refl _) nofun rfl (hmarking nofun),
        Function.update_of_ne hne ..⟩
  | done => exact ⟨h.put_quiet (Nat.le_refl _) nofun rfl (hmarking nofun), rfl⟩
  | refused hlast => exact ⟨h.put_quiet (Nat.le_refl _) nofun rfl (hmarking nofun), rfl⟩
  | @marked id msg conn =>
      refine ⟨h.put (Nat.le_refl _) nofun ?_ ?_, rfl⟩
      · intro hclosed
        by_cases ha : a = conn
        · show (Function.update s.shared.conns conn _ a).state = _
          rw [ha, Function.update_self]
        · show (Function.update s.shared.conns conn _ a).state = _
          rw [Function.update_of_ne ha]
          exact hclosed
      · intro hm
        rw [hp] at hm
        cases hm
        show (Function.update s.shared.conns a _ a).state = _
        rw [Function.update_self]

end

-- ================================================================ streams

/-- What a `send` call does: accept all bytes, or fail. -/
def AllOrFails (outcome : SendOutcome) : Point → Prop
  | .send _ _ (.call _ (call :: _) _) =>
      call.Whole outcome ∨ ∃ errno, outcome = .failed errno
  | _ => True

/-- The messages have encodings, and no `send` call accepts a part of what
it is given. -/
def Clean (s : Sharing) : LockAct → Prop
  | .call _ (.sendMsg _ msg) => msg.Fits
  | .call _ _ => True
  | .run t outcome _ => AllOrFails outcome (s.points t)

def Encoding (bs : List UInt8) : Prop := ∃ msg : Msg, msg.Fits ∧ msgEncoding msg = some bs

/-- The bytes the calls ask a socket to accept. -/
def callBytes (calls : List SendCall) : List UInt8 :=
  calls.flatMap fun call => call.bytes.take call.size

/-- The messages of all threads have encodings. -/
def MsgsFit (s : Sharing) : Prop := ∀ t, ∀ msg ∈ (s.points t).msg, msg.Fits

/-- What the connection `a` has been sent. -/
inductive Stream (s : Sharing) (a : Nat) : Prop
  | whole (done : List (List UInt8)) (hdone : ∀ bs ∈ done, Encoding bs)
      (hsent : s.shared.sent a = done.flatten)
      (hnone : ∀ t id msg calls last, s.points t ≠ .send id msg (.call a calls last))
  | writing (done : List (List UInt8)) (t : Nat) (id : Int64) (msg : Msg)
      (before calls : List SendCall) (hdone : ∀ bs ∈ done, Encoding bs)
      (hp : s.points t = .send id msg (.call a calls 0))
      (hmsg : messageCalls msg = before ++ calls)
      (hsent : s.shared.sent a = done.flatten ++ callBytes before)
  | broken (done : List (List UInt8)) (part bs : List UInt8)
      (hdone : ∀ bs ∈ done, Encoding bs) (hbs : Encoding bs) (hpart : part <+: bs)
      (hne : part ≠ bs) (hsent : s.shared.sent a = done.flatten ++ part)
      (hdead : Dead s a)

theorem callBytes_append (xs ys : List SendCall) :
    callBytes (xs ++ ys) = callBytes xs ++ callBytes ys := List.flatMap_append

theorem writeCalls_fits {msg : Msg} (h : msg.Fits) :
    writeCalls msg = some (messageCalls msg, 0) := by
  have hsend := h.sendable
  unfold writeCalls
  cases msg with
  | writeObjReq req =>
      have hop : (Msg.writeObjReq req).header.op = CCEPH_MSG_OP_WRITE := h.1
      rw [if_pos hop]
      simp only [if_pos hsend.2]
  | writeObjAck ack =>
      have hop : (Msg.writeObjAck ack).header.op = CCEPH_MSG_OP_WRITE_ACK := h
      have hne : (Msg.writeObjAck ack).header.op ≠ CCEPH_MSG_OP_WRITE := by
        rw [hop]
        exact op_ne.1.symm
      rw [if_neg hne, if_pos hop]

/-- A call that is accepted whole adds its bytes; one that fails adds none
and tells a negative code. -/
theorem runCall_whole {call : SendCall} {outcome : SendOutcome} {sent : List UInt8}
    (hexact : Exact call) (h : call.Whole outcome) :
    runCall call ⟨sent, [outcome]⟩
      = .ok (0, ⟨sent ++ call.bytes.take call.size, []⟩) := by
  have hland : call.Lands (Outbox.next ⟨sent, [outcome]⟩ call.size) :=
    whole_lands hexact h
  exact runCall_lands hland

theorem runCall_failed {call : SendCall} {errno : Int32} {sent : List UInt8} {ret : Int}
    {out : Outbox} (hexact : Exact call)
    (hrun : runCall call ⟨sent, [.failed errno]⟩ = .ok (ret, out)) :
    ret < 0 ∧ out = ⟨sent, []⟩ := by
  cases call with
  | word bytes hfits =>
      have hfails : runCall (.word bytes hfits) ⟨sent, [.failed errno]⟩ = .ok (-1, ⟨sent, []⟩) :=
        runWord_failed rfl
      rw [hfails] at hrun
      cases hrun
      exact ⟨by decide, rfl⟩
  | block bytes size line =>
      have hne : (-1 : Int) ≠ size := by
        have hpos : 0 ≤ size := hexact.2.1
        omega
      have hsend : sendRet bytes (sizeT size) ⟨sent, [.failed errno]⟩
          = .ok ((-1, errno), ⟨sent, []⟩) := sendRet_failed rfl
      by_cases hline : ∀ l ∈ line, (l (errNo (-1) errno)).Fits
      · obtain ⟨code, hneg, hfails⟩ := runBlock_fails hne hline hsend
        rw [show runCall (.block bytes size line) ⟨sent, [.failed errno]⟩ = _ from hfails] at hrun
        cases hrun
        exact ⟨hneg, rfl⟩
      · rw [show runCall (.block bytes size line) ⟨sent, [.failed errno]⟩ = _ from
          runBlock_dies hne hline hsend] at hrun
        cases hrun

/-- An operation of a thread that does not send to the connection. -/
theorem Effect.quiet {s m : Shared} {outcome : SendOutcome} {p p' : Point} {a : Nat}
    (h : Effect s outcome p p' m) (hne : p.writing ≠ some a) :
    m.sent a = s.sent a ∧ ∀ id msg calls last, p' ≠ .send id msg (.call a calls last) := by
  have haside : p'.Aside → ∀ id msg calls last, p' ≠ .send id msg (.call a calls last) := by
    intro hp' id msg calls last heq
    rw [heq] at hp'
    cases hp'.1
  cases h with
  | entered call =>
      obtain ⟨hp', hsent, -⟩ := callPoint_aside (m := s) call
      exact ⟨congrFun hsent a, haside hp'⟩
  | aside _ hp' _ hsent => exact ⟨congrFun hsent a, haside hp'⟩
  | shut => exact ⟨rfl, nofun⟩
  | found hopen => exact ⟨rfl, nofun⟩
  | logged => exact ⟨rfl, nofun⟩
  | begun hcalls =>
      refine ⟨rfl, ?_⟩
      intro id msg calls last heq
      cases heq
      exact hne rfl
  | @called id msg conn =>
      have ha : a ≠ conn := fun ha => hne (congrArg some ha.symm)
      refine ⟨Function.update_of_ne ha .., ?_⟩
      intro id msg calls last heq
      cases heq
      exact ha rfl
  | @failed id msg conn =>
      have ha : a ≠ conn := fun ha => hne (congrArg some ha.symm)
      exact ⟨Function.update_of_ne ha .., nofun⟩
  | done => exact ⟨rfl, nofun⟩
  | refused hlast => exact ⟨rfl, nofun⟩
  | marked => exact ⟨rfl, nofun⟩

section
variable {s : Sharing} {t : Nat} {a : Nat} {p : Point} {m : Shared}

theorem put_none (hp : ∀ id msg calls last, p ≠ .send id msg (.call a calls last))
    (hothers : ∀ u, u ≠ t → ∀ id msg calls last,
      s.points u ≠ .send id msg (.call a calls last)) :
    ∀ u id msg calls last, (s.put t (p, m)).points u ≠ .send id msg (.call a calls last) := by
  intro u
  by_cases hu : u = t
  · rw [hu, put_self]
    exact hp
  · rw [put_other s hu]
    exact hothers u hu

/-- A thread that does not send to the connection leaves its stream. -/
theorem Stream.quiet {outcome : SendOutcome} {act : LockAct} (hsafe : s.lifetime.Safe)
    (h : Stream s a) (hstep : lockStep s act = some (s.put t (p, m)))
    (heffect : Effect s.shared outcome (s.points t) p m)
    (hne : (s.points t).writing ≠ some a) : Stream (s.put t (p, m)) a := by
  obtain ⟨hsame, hp'⟩ := heffect.quiet hne
  cases h with
  | whole done hdone hsent hnone =>
      exact .whole done hdone (hsame.trans hsent) (put_none hp' fun u _ => hnone u)
  | writing done u id msg before calls hdone hp hmsg hsent =>
      have hu : u ≠ t := by
        intro hu
        rw [← hu, hp] at hne
        exact hne rfl
      refine .writing done u id msg before calls hdone ?_ hmsg (hsame.trans hsent)
      rw [put_other s hu]
      exact hp
  | broken done part bs hdone hbs hpart hproper hsent hdead =>
      exact .broken done part bs hdone hbs hpart hproper (hsame.trans hsent)
        (hdead.step hsafe hstep).1

/-- The thread that sends to the connection is the only one. -/
theorem only_caller (hsafe : s.lifetime.Safe) (hp : (s.points t).writing = some a) :
    ∀ u, u ≠ t → ∀ id msg calls last, s.points u ≠ .send id msg (.call a calls last) := by
  intro u hu id msg calls last heq
  exact hu (one_sender hsafe (by rw [heq]; rfl) (role_of_writing hp))

/-- The bytes of the calls made and of the calls left are the encoding. -/
theorem encoding_of_calls {msg : Msg} {before calls : List SendCall} (hfit : msg.Fits)
    (hmsg : messageCalls msg = before ++ calls) :
    msgEncoding msg = some (callBytes before ++ callBytes calls) := by
  obtain ⟨bs, hbs⟩ := hfit.encoding
  have hbytes : callBytes (messageCalls msg) = bs := messageCalls_bytes hbs
  rw [hmsg, callBytes_append] at hbytes
  rw [hbs, hbytes]

/-- A message is complete. -/
theorem Stream.complete {done : List (List UInt8)} {msg : Msg} {before calls : List SendCall}
    (hdone : ∀ bs ∈ done, Encoding bs) (hfit : msg.Fits)
    (hmsg : messageCalls msg = before ++ calls) (hlast : callBytes calls = [])
    (hsent : s.shared.sent a = done.flatten ++ callBytes before)
    (hnone : ∀ t id msg calls last, s.points t ≠ .send id msg (.call a calls last)) :
    Stream s a := by
  have hbs := encoding_of_calls hfit hmsg
  rw [hlast, List.append_nil] at hbs
  refine .whole (done ++ [callBytes before]) ?_ ?_ hnone
  · exact List.forall_mem_append.mpr ⟨hdone, List.forall_mem_singleton.mpr ⟨msg, hfit, hbs⟩⟩
  · rw [hsent, List.flatten_append, List.flatten_singleton]

/-- A thread is about to send to the connection: all is whole. -/
theorem Stream.of_ready (hsafe : s.lifetime.Safe) (h : Stream s a)
    (hwriting : (s.points t).writing = some a)
    (hready : ∀ id msg calls last, s.points t ≠ .send id msg (.call a calls last)) :
    ∃ done : List (List UInt8), (∀ bs ∈ done, Encoding bs)
      ∧ s.shared.sent a = done.flatten
      ∧ ∀ u id msg calls last, s.points u ≠ .send id msg (.call a calls last) := by
  cases h with
  | whole done hdone hsent hnone => exact ⟨done, hdone, hsent, hnone⟩
  | writing done u id msg before calls hdone hp hmsg hsent =>
      have hut : u = t := one_sender hsafe (by rw [hp]; rfl) (role_of_writing hwriting)
      rw [hut] at hp
      exact absurd hp (hready id msg calls 0)
  | broken _ _ _ _ _ _ _ _ hdead => exact absurd hwriting (hdead.idle t)

/-- A thread sends to the connection: it is the one in the middle of a
message. -/
theorem Stream.of_call (hsafe : s.lifetime.Safe) (h : Stream s a) {id : Int64} {msg : Msg}
    {calls : List SendCall} {last : Int}
    (hp : s.points t = .send id msg (.call a calls last)) :
    ∃ (done : List (List UInt8)) (before : List SendCall), (∀ bs ∈ done, Encoding bs)
      ∧ messageCalls msg = before ++ calls ∧ last = 0
      ∧ s.shared.sent a = done.flatten ++ callBytes before := by
  have hwriting : (s.points t).writing = some a := by
    rw [hp]
    rfl
  cases h with
  | whole done hdone hsent hnone => exact absurd hp (hnone t id msg calls last)
  | writing done u id' msg' before calls' hdone hp' hmsg hsent =>
      have hut : u = t := one_sender hsafe (by rw [hp']; rfl) (role_of_writing hwriting)
      rw [hut, hp] at hp'
      cases hp'
      exact ⟨done, before, hdone, hmsg, rfl, hsent⟩
  | broken _ _ _ _ _ _ _ _ hdead => exact absurd hwriting (hdead.idle t)

/-- A `send` call of a message has failed. -/
theorem Stream.fail {s' : Sharing} {done : List (List UInt8)} {msg : Msg}
    {before calls : List SendCall} (hdone : ∀ bs ∈ done, Encoding bs) (hfit : msg.Fits)
    (hmsg : messageCalls msg = before ++ calls)
    (hsent : s'.shared.sent a = done.flatten ++ callBytes before)
    (hnone : ∀ t id msg calls last, s'.points t ≠ .send id msg (.call a calls last))
    (hdead : Dead s' a) : Stream s' a := by
  by_cases hlast : callBytes calls = []
  · exact .complete hdone hfit hmsg hlast hsent hnone
  · refine .broken done (callBytes before) _ hdone ⟨msg, hfit, encoding_of_calls hfit hmsg⟩
      ⟨callBytes calls, rfl⟩ ?_ hsent hdead
    exact fun hsame => hlast (List.append_right_eq_self.mp hsame.symm)

/-- The thread at work on the connection goes one operation on. -/
theorem Stream.active {outcome : SendOutcome} (hsafe : s.lifetime.Safe)
    (hfits : MsgsFit s) (h : Stream s a)
    (heffect : Effect s.shared outcome (s.points t) p m)
    (hclean : AllOrFails outcome (s.points t))
    (hwriting : (s.points t).writing = some a) : Stream (s.put t (p, m)) a := by
  have honly := only_caller hsafe hwriting
  have hfit := hfits t
  have hmade : a < s.shared.made := by
    have hok := hsafe.roles t
    rw [show s.lifetime.role t = .use a from role_of_writing hwriting] at hok
    exact hok.2.2.1
  generalize hp : s.points t = p₀ at heffect hclean hwriting hfit
  cases heffect with
  | entered call => cases hwriting
  | aside hpa => exact absurd (hpa.1.symm.trans hwriting) nofun
  | shut => cases hwriting
  | found hopen => cases hwriting
  | marked => cases hwriting
  | logged =>
      cases hwriting
      obtain ⟨done, hdone, hsent, hnone⟩ := h.of_ready hsafe (t := t)
        (by rw [hp]; rfl) (by rw [hp]; nofun)
      exact .whole done hdone hsent (put_none nofun honly)
  | @begun id msg conn calls last hcalls =>
      cases hwriting
      obtain ⟨done, hdone, hsent, hnone⟩ := h.of_ready hsafe (t := t)
        (by rw [hp]; rfl) (by rw [hp]; nofun)
      rw [writeCalls_fits (hfit msg rfl)] at hcalls
      cases hcalls
      refine .writing done t id msg [] _ hdone (put_self s t _) rfl ?_
      exact hsent.trans (List.append_nil _).symm
  | @called id msg conn call calls last ret out hrun hret =>
      cases hwriting
      obtain ⟨done, before, hdone, hmsg, rfl, hsent⟩ := h.of_call hsafe hp
      have hexact : Exact call := messageCalls_exact (hfit msg rfl) call
        (by rw [hmsg]; exact List.mem_append_right _ List.mem_cons_self)
      rcases hclean with hwhole | ⟨errno, rfl⟩
      · rw [runCall_whole hexact hwhole] at hrun
        cases hrun
        refine .writing done t id msg (before ++ [call]) calls hdone (put_self s t _) ?_ ?_
        · rw [hmsg, List.append_assoc]
          rfl
        · have hbytes : callBytes [call] = call.bytes.take call.size := List.append_nil _
          show Function.update s.shared.sent a _ a = _
          rw [Function.update_self, hsent, callBytes_append, hbytes, List.append_assoc]
      · exact absurd (runCall_failed hexact hrun).1 hret
  | @failed id msg conn call calls last ret out hrun hret =>
      cases hwriting
      obtain ⟨done, before, hdone, hmsg, rfl, hsent⟩ := h.of_call hsafe hp
      have hexact : Exact call := messageCalls_exact (hfit msg rfl) call
        (by rw [hmsg]; exact List.mem_append_right _ List.mem_cons_self)
      rcases hclean with hwhole | ⟨errno, rfl⟩
      · rw [runCall_whole hexact hwhole] at hrun
        cases hrun
        exact absurd hret (Int.lt_irrefl 0)
      · obtain ⟨-, rfl⟩ := runCall_failed hexact hrun
        have hsame : Function.update s.shared.sent a (s.shared.sent a) = s.shared.sent :=
          Function.update_eq_self ..
        refine .fail hdone (hfit msg rfl) hmsg ?_ (put_none nofun honly) ?_
        · show Function.update s.shared.sent a (s.shared.sent a) a = _
          rw [hsame]
          exact hsent
        · refine ⟨hmade, ?_, .inr ⟨t, by rw [put_self]; rfl⟩⟩
          intro u
          by_cases hu : u = t
          · rw [hu, put_self]
            nofun
          · rw [put_other s hu]
            exact fun hw => hu (one_sender hsafe (role_of_writing hw) (by rw [hp]; rfl))
  | done =>
      cases hwriting
      obtain ⟨done, before, hdone, hmsg, -, hsent⟩ := h.of_call hsafe hp
      exact .complete hdone (hfit _ rfl) hmsg rfl hsent (put_none nofun honly)
  | refused hlast =>
      cases hwriting
      obtain ⟨done, before, hdone, hmsg, hzero, hsent⟩ := h.of_call hsafe hp
      exact absurd hzero hlast

theorem Stream.step {s' : Sharing} {act : LockAct} (hsafe : s.lifetime.Safe)
    (hfits : MsgsFit s) (h : Stream s a) (hclean : Clean s act)
    (hstep : lockStep s act = some s') : Stream s' a := by
  obtain ⟨t, outcome, ⟨p, m⟩, rfl, heffect, hact⟩ := lockStep_effect hstep
  by_cases hwriting : (s.points t).writing = some a
  · apply h.active hsafe hfits heffect ?_ hwriting
    rcases hact with ⟨ctl, rfl, -⟩ | ⟨call, -, hfree, -⟩
    · exact hclean
    · rw [hfree] at hwriting
      cases hwriting
  · exact h.quiet hsafe hstep heffect hwriting

end

-- ============================================================ descriptors

/-- The connection is freed, or a thread is closing it. -/
def Closing (s : Sharing) (a : Nat) : Prop :=
  a ∈ s.shared.freed ∨ ∃ u, s.lifetime.role u = .close a ∨ s.lifetime.role u = .last a

/-- Whose descriptor is closed, the connection is not long for this world. -/
def ShutOk (s : Sharing) : Prop := ∀ a ∈ s.shared.shut, Closing s a

theorem Closing.step {s s' : Sharing} {act : LockAct} {a : Nat} (h : Closing s a)
    (hstep : lockStep s act = some s') : Closing s' a := by
  rcases lockStep_simulates hstep with hsame | ⟨t, hlife⟩
  · have hfreed : s'.shared.freed = s.shared.freed := congrArg Lifetime.freed hsame
    unfold Closing
    rw [hfreed, hsame]
    exact h
  · rcases h with hfreed | ⟨u, hu⟩
    · exact .inl (hlife.freed_mono a hfreed)
    · rcases hlife.closing hu with hu | hu | hfreed
      · exact .inr ⟨u, .inl hu⟩
      · exact .inr ⟨u, .inr hu⟩
      · exact .inl hfreed

/-- A descriptor is closed by a thread that has the connection's lock. -/
theorem Effect.shut_eq {s m : Shared} {outcome : SendOutcome} {p p' : Point}
    (h : Effect s outcome p p' m) :
    m.shut = s.shut ∨ ∃ conn, p'.role = .close conn ∧ m.shut = conn :: s.shut := by
  cases h with
  | entered call => cases call <;> exact .inl rfl
  | aside _ _ _ _ _ _ hshut => exact .inl hshut
  | @shut id conn => exact .inr ⟨conn, rfl, rfl⟩
  | _ => exact .inl rfl

theorem ShutOk.step {s s' : Sharing} {act : LockAct} (h : ShutOk s)
    (hstep : lockStep s act = some s') : ShutOk s' := by
  obtain ⟨t, outcome, ⟨p, m⟩, rfl, heffect, -⟩ := lockStep_effect hstep
  intro a ha
  have ha : a ∈ m.shut := ha
  rcases heffect.shut_eq with hsame | ⟨conn, hrole, hcons⟩
  · rw [hsame] at ha
    exact (h a ha).step hstep
  · rw [hcons] at ha
    rcases List.mem_cons.mp ha with rfl | ha
    · refine .inr ⟨t, .inl ?_⟩
      show ((s.put t (p, m)).points t).role = _
      rw [put_self]
      exact hrole
    · exact (h a ha).step hstep

/-- A connection in use has its descriptor. -/
theorem ShutOk.open_of_use {s : Sharing} {t a : Nat} (h : ShutOk s)
    (hsafe : s.lifetime.Safe) (ht : s.lifetime.role t = .use a) : a ∉ s.shared.shut := by
  intro ha
  rcases h a ha with hfreed | ⟨u, hu | hu⟩
  · exact hsafe.live_of_names (t := t) (by rw [ht]; rfl) hfreed
  · exact (hsafe.not_closing ht).1 hu
  · exact (hsafe.not_closing ht).2 hu

-- ================================================================== runs

/-- Past its call, a thread has the message it came with, or none. -/
theorem Effect.msg {s m : Shared} {outcome : SendOutcome} {p p' : Point}
    (h : Effect s outcome p p' m) (hp : p ≠ .free) : p'.msg = none ∨ p'.msg = p.msg := by
  cases h with
  | entered call => exact absurd rfl hp
  | aside _ _ hmsg => exact hmsg
  | shut => exact .inl rfl
  | _ => exact .inr rfl

theorem MsgsFit.step {s s' : Sharing} {act : LockAct} (h : MsgsFit s)
    (hclean : Clean s act) (hstep : lockStep s act = some s') : MsgsFit s' := by
  obtain ⟨t, outcome, ⟨p, m⟩, rfl, heffect, hact⟩ := lockStep_effect hstep
  intro u msg hu
  by_cases hut : u = t
  · rw [hut, put_self] at hu
    rcases hact with ⟨ctl, -, hp⟩ | ⟨call, rfl, -, hcall⟩
    · rcases heffect.msg hp with hnone | hsame
      · rw [hnone] at hu
        cases hu
      · rw [hsame] at hu
        exact h t msg hu
    · have hp : p = (callPoint s.shared call).1 := congrArg Prod.fst hcall
      rw [hp] at hu
      cases call with
      | sendMsg id msg' =>
          cases hu
          exact hclean
      | closeConn id => cases hu
      | find wanted => cases hu
      | addConn host port fd state => cases hu
  · rw [put_other s hut] at hu
    exact h u msg hu

/-- Nothing is sent, and every stream is empty. -/
theorem sharingStart_stream (a : Nat) : Stream sharingStart a :=
  .whole [] (fun _ h => absurd h List.not_mem_nil) rfl nofun

/-- What every step keeps. -/
structure StreamsOk (s : Sharing) : Prop where
  safe : s.lifetime.Safe
  fits : MsgsFit s
  shut : ShutOk s
  streams : ∀ a, Stream s a

theorem streamsOk_of_reached {s : Sharing} (h : lockSystem.Reached Clean s) :
    StreamsOk s := by
  apply System.Reached.invariant (I := StreamsOk) _ _ h
  · intro s hs
    rw [hs]
    exact ⟨sharingStart_safe, nofun, fun _ h => absurd h List.not_mem_nil,
      sharingStart_stream⟩
  · intro s act s' hok hclean hstep
    refine ⟨lockStep_safe hstep hok.safe, hok.fits.step hclean hstep, hok.shut.step hstep, ?_⟩
    exact fun a => (hok.streams a).step hok.safe hok.fits hclean hstep

/-- A connection that has broken off gets no byte in any run. -/
theorem Dead.leads {a : Nat} (acts : List LockAct) : ∀ {s s' : Sharing},
    s.lifetime.Safe → Dead s a → lockSystem.exec s acts = some s' →
    s'.shared.sent a = s.shared.sent a := by
  induction acts with
  | nil =>
      intro s s' _ _ h
      cases h
      rfl
  | cons act acts ih =>
      intro s s' hsafe hdead h
      obtain ⟨mid, hstep, hrest⟩ := Option.bind_eq_some_iff.mp h
      obtain ⟨hdead', hsame⟩ := hdead.step hsafe hstep
      exact (ih (lockStep_safe hstep hsafe) hdead' hrest).trans hsame

/-- The first part of an encoding, but not all of it. -/
def Part (part : List UInt8) : Prop := ∃ bs, Encoding bs ∧ part <+: bs ∧ part ≠ bs

/-- A thread is sending the rest of a message whose first part is sent. -/
def Finishing (s : Sharing) (a : Nat) (part : List UInt8) : Prop :=
  ∃ t id msg calls, s.points t = .send id msg (.call a calls 0)
    ∧ msgEncoding msg = some (part ++ callBytes calls)

/-- What a connection has been sent: whole messages, and then at most a
part of one more. A thread is sending the rest of that, or no thread sends
the connection anything in any run from here. Whoever sends has the
descriptor of the connection open. -/
theorem conn_stream {s : Sharing} (h : lockSystem.Reached Clean s) (a : Nat) :
    (∃ done part, s.shared.sent a = List.flatten done ++ part
      ∧ (∀ bs ∈ done, Encoding bs)
      ∧ (part = [] ∨ Part part ∧ (Finishing s a part
        ∨ ∀ s', lockSystem.Leads s s' → s'.shared.sent a = s.shared.sent a)))
    ∧ ∀ t, (s.points t).writing = some a → a ∉ s.shared.shut := by
  obtain ⟨hsafe, hfits, hshut, hstreams⟩ := streamsOk_of_reached h
  refine ⟨?_, fun t ht => hshut.open_of_use hsafe (role_of_writing ht)⟩
  cases hstreams a with
  | whole done hdone hsent hnone =>
      exact ⟨done, [], hsent.trans (List.append_nil _).symm, hdone, .inl rfl⟩
  | writing done t id msg before calls hdone hp hmsg hsent =>
      have hfit : msg.Fits := hfits t msg (by rw [hp]; rfl)
      have hbs := encoding_of_calls hfit hmsg
      by_cases hlast : callBytes calls = []
      · -- only empty calls are left
        rw [hlast, List.append_nil] at hbs
        refine ⟨done ++ [callBytes before], [], ?_, ?_, .inl rfl⟩
        · rw [hsent, List.flatten_append, List.flatten_singleton, List.append_nil]
        · exact List.forall_mem_append.mpr
            ⟨hdone, List.forall_mem_singleton.mpr ⟨msg, hfit, hbs⟩⟩
      · refine ⟨done, callBytes before, hsent, hdone, .inr ⟨?_, .inl ?_⟩⟩
        · refine ⟨_, ⟨msg, hfit, hbs⟩, ⟨callBytes calls, rfl⟩, ?_⟩
          exact fun hsame => hlast (List.append_right_eq_self.mp hsame.symm)
        · exact ⟨t, id, msg, calls, hp, hbs⟩
  | broken done part bs hdone hbs hpart hne hsent hdead =>
      refine ⟨done, part, hsent, hdone, .inr ⟨⟨bs, hbs, hpart, hne⟩, .inr ?_⟩⟩
      intro s' ⟨acts, hexec⟩
      exact Dead.leads acts hsafe hdead hexec

/-- Two threads come to send to a new connection, and one has its lock. -/
def sendsBefore : List LockAct :=
  adds ++ .call 2 (.sendMsg 2 (.writeObjAck firstAck)) :: operations 2 4
    ++ .call 1 (.sendMsg 2 (.writeObjAck firstAck)) :: operations 1 3
    ++ operations 2 4

/-- Its second `send` fails, and the other finds the connection closed. -/
def sendsAfter : List LockAct := operations 2 3 ++ operations 1 3

theorem allOrFails_failed (errno : Int32) (p : Point) : AllOrFails (.failed errno) p := by
  unfold AllOrFails
  split
  · exact .inr ⟨errno, rfl⟩
  · trivial

theorem operations_clean (t n : Nat) : ∀ act ∈ operations t n, ∀ s, Clean s act := by
  intro act h s
  rw [List.eq_of_mem_replicate h]
  exact allOrFails_failed 0 _

theorem sendsBefore_clean : ∀ act ∈ sendsBefore, ∀ s, Clean s act := by
  unfold sendsBefore adds
  simp only [List.cons_append, List.append_assoc, List.forall_mem_cons,
    List.forall_mem_append]
  exact ⟨fun _ => trivial, operations_clean 0 5, fun _ => rfl, operations_clean 2 4,
    fun _ => rfl, operations_clean 1 3, operations_clean 2 4⟩

theorem sendsAfter_clean : ∀ act ∈ sendsAfter, ∀ s, Clean s act :=
  List.forall_mem_append.mpr ⟨operations_clean 2 3, operations_clean 1 3⟩

theorem conn_stream_two : ∃ mid s, lockSystem.exec sharingStart sendsBefore = some mid
    ∧ lockSystem.exec mid (.run 2 (.accepted 1 0) 0 :: sendsAfter) = some s
    ∧ s.shared.sent 0 = int8Codec.bytes CCEPH_MSG_OP_WRITE_ACK
    ∧ (∃ done part, s.shared.sent 0 = List.flatten done ++ part
      ∧ (∀ bs ∈ done, Encoding bs)
      ∧ (part = [] ∨ Part part ∧ (Finishing s 0 part
        ∨ ∀ s', lockSystem.Leads s s' → s'.shared.sent 0 = s.shared.sent 0)))
    ∧ ∀ t, (s.points t).writing = some 0 → 0 ∉ s.shared.shut := by
  have hrun : ∃ mid next s, lockSystem.exec sharingStart sendsBefore = some mid
      ∧ Clean mid (.run 2 (.accepted 1 0) 0)
      ∧ lockSystem.step mid (.run 2 (.accepted 1 0) 0) = some next
      ∧ lockSystem.exec next sendsAfter = some s
      ∧ s.shared.sent 0 = int8Codec.bytes CCEPH_MSG_OP_WRITE_ACK :=
    ⟨_, _, _, rfl, .inl (Nat.le_refl 1), rfl, rfl, rfl⟩
  obtain ⟨mid, next, s, hbefore, hclean, hstep, hafter, hsent⟩ := hrun
  refine ⟨mid, s, hbefore, ?_, hsent, ?_⟩
  · rw [System.exec, hstep]
    exact hafter
  · have hmid := System.Reached.exec sendsBefore sendsBefore_clean (.start rfl) hbefore
    exact conn_stream ((hmid.next hclean hstep).exec sendsAfter sendsAfter_clean hafter) 0

end CephInC
