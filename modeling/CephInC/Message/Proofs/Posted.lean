/-
A connection is sent the messages of its calls, each once.

Every call has a place of its own, which a thread writes down once, when
the last byte of its message is accepted (`Tickets`). What the socket
holds is the messages at the places written down, in that order, and the
part of one more that a thread is in the middle of, or that broke off
(`Written`).
-/
import CephInC.Message.Posted

namespace CephInC

open Lib

-- ================================================================ places

/-- The thread has a message to send, whose last byte is still to be
accepted. -/
def Point.Owing : Point → Prop
  | .send _ _ (.call _ calls _) => callBytes calls ≠ []
  | .send _ _ (.mark _) => False
  | .send _ _ (.unlock _ _) => False
  | .send _ _ .notFound => False
  | .send _ _ _ => True
  | _ => False

theorem callBytes_cons (call : SendCall) (calls : List SendCall) :
    callBytes (call :: calls) = call.bytes.take call.size ++ callBytes calls :=
  List.flatMap_cons

theorem not_owing_of_msg {p : Point} (h : p.msg = none) : ¬p.Owing := by
  cases p with
  | send id msg p => cases h
  | _ => exact id

theorem sendStep_owing {s : Shared} {t : Nat} {id : Int64} {msg : Msg} {outcome : SendOutcome}
    {p : SendPoint} {r : Point × Shared} (h : sendStep s t id msg outcome p = some r)
    (howing : r.1.Owing) : (Point.send id msg p).Owing := by
  cases p with
  | notFound =>
      cases h
      exact howing
  | call conn calls last =>
      cases calls with
      | nil =>
          simp only [sendStep] at h
          split_ifs at h <;> cases h <;> exact howing.elim
      | cons call calls =>
          simp only [sendStep] at h
          split at h
          · split_ifs at h
            · cases h
              exact howing.elim
            · cases h
              show callBytes (call :: calls) ≠ []
              rw [callBytes_cons]
              exact fun hnil => howing (List.append_eq_nil_iff.mp hnil).2
          · cases h
  | mark conn =>
      cases h
      exact howing
  | unlock conn ret =>
      simp only [sendStep] at h
      split_ifs at h <;> cases h <;> exact howing
  | _ => exact trivial

/-- A thread owes a message from its call on. -/
theorem pointStep_owing {s : Shared} {t : Nat} {outcome : SendOutcome} {ctl : Int} {p : Point}
    {r : Point × Shared} (h : pointStep s t outcome ctl p = some r) (howing : r.1.Owing) :
    p.Owing := by
  cases p with
  | send id msg p => exact sendStep_owing h howing
  | free => cases h
  | _ =>
      rcases (pointStep_effect h).msg nofun with hnone | hsame
      · exact absurd howing (not_owing_of_msg hnone)
      · exact absurd howing (not_owing_of_msg hsame)

/-- The step that gets the last byte of a message accepted. -/
theorem finished_step {s : Shared} {t : Nat} {outcome : SendOutcome} {ctl : Int} {p : Point}
    {r : Point × Shared} {conn : Nat} (h : pointStep s t outcome ctl p = some r)
    (hfin : finished p r.1 = some conn) :
    ∃ id msg call calls last, p = .send id msg (.call conn (call :: calls) last)
      ∧ r.1 = .send id msg (.call conn calls last) ∧ callBytes (call :: calls) ≠ []
      ∧ callBytes calls = [] := by
  unfold finished at hfin
  split at hfin
  · rename_i id msg conn' call calls last id' msg' conn'' calls' last' hr
    split_ifs at hfin with hlast
    cases hfin
    refine ⟨id, msg, call, calls, last, rfl, ?_, hlast⟩
    simp only [pointStep, sendStep] at h
    split at h
    · split_ifs at h
      · cases h
        cases hr
      · cases h
        rfl
    · cases h
  · cases hfin

theorem note_run (s : Posted) (t : Nat) (outcome : SendOutcome) (ctl : Int)
    (r : Point × Shared) : s.note (s.sharing.put t r) (.run t outcome ctl)
      = { s with
          sharing := s.sharing.put t r
          written := s.written ++ (finished (s.sharing.points t) r.1).toList.map fun conn =>
            (conn, s.holds t) } := by
  unfold Posted.note
  simp only [put_self]

/-- What the calls and the writing down keep. -/
structure Tickets (s : Posted) : Prop where
  held : ∀ t msg, (s.sharing.points t).msg = some msg → s.posted[s.holds t]? = some (t, msg)
  placed : ∀ p ∈ s.written, p.2 < s.posted.length
  /-- What a thread has written comes before what it owes. -/
  owing : ∀ t, (s.sharing.points t).Owing → ∀ p ∈ s.written, ∀ x, s.posted[p.2]? = some x →
    x.1 = t → p.2 < s.holds t
  inTurn : s.written.Pairwise fun p q => s.InTurn p.2 q.2

namespace Tickets

variable {s : Posted} {t : Nat}

theorem start : Tickets ⟨sharingStart, [], fun _ => 0, []⟩ where
  held _ _ h := by cases h
  placed _ h := by cases h
  owing _ _ _ h := by cases h
  inTurn := .nil

/-- A call of another function, or a thread's step that writes nothing
down. -/
theorem unposted (h : Tickets s) {r : Point × Shared}
    (hmsg : r.1.msg = none ∨ r.1.msg = (s.sharing.points t).msg)
    (howing : r.1.Owing → (s.sharing.points t).Owing) :
    Tickets { s with sharing := s.sharing.put t r } where
  held u msg hu := by
    by_cases hut : u = t
    · have hu : ((s.sharing.put t r).points u).msg = some msg := hu
      rw [hut, put_self] at hu
      rw [hut]
      rcases hmsg with hnone | hsame
      · rw [hnone] at hu
        cases hu
      · rw [hsame] at hu
        exact h.held t msg hu
    · have hu : ((s.sharing.put t r).points u).msg = some msg := hu
      rw [put_other _ hut] at hu
      exact h.held u msg hu
  placed := h.placed
  owing u hu := by
    by_cases hut : u = t
    · have hu : ((s.sharing.put t r).points u).Owing := hu
      rw [hut, put_self] at hu
      rw [hut]
      exact h.owing t (howing hu)
    · have hu : ((s.sharing.put t r).points u).Owing := hu
      rw [put_other _ hut] at hu
      exact h.owing u hu
  inTurn := h.inTurn

/-- What was posted before is where it was. -/
theorem getElem?_posted {i : Nat} {x y : Nat × Msg} (hi : i < s.posted.length)
    (h : (s.posted ++ [y])[i]? = some x) : s.posted[i]? = some x := by
  rw [List.getElem?_append_left hi] at h
  exact h

/-- A call of `cceph_messenger_send_msg` takes the next place. -/
theorem post (h : Tickets s) (id : Int64) (msg : Msg) :
    Tickets (s.note (s.sharing.put t (.send id msg .rdlock, s.sharing.shared))
      (.call t (.sendMsg id msg))) where
  held u msg' hu := by
    have hu : ((s.sharing.put t (.send id msg .rdlock, s.sharing.shared)).points u).msg
        = some msg' := hu
    show (s.posted ++ [(t, msg)])[Function.update s.holds t s.posted.length u]? = _
    by_cases hut : u = t
    · rw [hut, put_self] at hu
      cases hu
      rw [hut, Function.update_self, List.getElem?_concat_length]
    · rw [put_other _ hut] at hu
      have hold := h.held u msg' hu
      rw [Function.update_of_ne hut, List.getElem?_append_left ?_]
      · exact hold
      · exact (List.getElem?_eq_some_iff.mp hold).1
  placed p hp := by
    show p.2 < (s.posted ++ [(t, msg)]).length
    rw [List.length_append]
    exact Nat.lt_add_right 1 (h.placed p hp)
  owing u hu p hp x hx hxu := by
    have hplaced := h.placed p hp
    show p.2 < Function.update s.holds t s.posted.length u
    by_cases hut : u = t
    · rw [hut, Function.update_self]
      exact hplaced
    · have hu : ((s.sharing.put t (.send id msg .rdlock, s.sharing.shared)).points u).Owing := hu
      rw [put_other _ hut] at hu
      rw [Function.update_of_ne hut]
      exact h.owing u hu p hp x (getElem?_posted hplaced hx) hxu
  inTurn := h.inTurn.imp_of_mem fun {p q} hp hq hturn x y hx hy =>
    hturn x y (getElem?_posted (h.placed p hp) hx) (getElem?_posted (h.placed q hq) hy)

/-- The last byte of a message is accepted, and its place written down. -/
theorem write (h : Tickets s) {id : Int64} {msg : Msg} {conn : Nat} {call : SendCall}
    {calls : List SendCall} {last : Int} {m : Shared}
    (hp : s.sharing.points t = .send id msg (.call conn (call :: calls) last))
    (hleft : callBytes (call :: calls) ≠ []) (hdone : callBytes calls = []) :
    Tickets { s with
      sharing := s.sharing.put t (.send id msg (.call conn calls last), m)
      written := s.written ++ [(conn, s.holds t)] } := by
  have hheld : s.posted[s.holds t]? = some (t, msg) := h.held t msg (by rw [hp]; rfl)
  have howing : (s.sharing.points t).Owing := by
    rw [hp]
    exact hleft
  refine ⟨fun u msg' hu => ?_, fun p hmem => ?_, fun u hu p hmem x hx hxu => ?_, ?_⟩
  · have hu : ((s.sharing.put t (.send id msg (.call conn calls last), m)).points u).msg
        = some msg' := hu
    by_cases hut : u = t
    · rw [hut, put_self] at hu
      cases hu
      rw [hut]
      exact hheld
    · rw [put_other _ hut] at hu
      exact h.held u msg' hu
  · rcases List.mem_append.mp hmem with hold | hnew
    · exact h.placed p hold
    · rw [List.mem_singleton.mp hnew]
      exact (List.getElem?_eq_some_iff.mp hheld).1
  · have hu : ((s.sharing.put t (.send id msg (.call conn calls last), m)).points u).Owing :=
      hu
    by_cases hut : u = t
    · rw [hut, put_self] at hu
      exact absurd hdone hu
    · rw [put_other _ hut] at hu
      rcases List.mem_append.mp hmem with hold | hnew
      · exact h.owing u hu p hold x hx hxu
      · rw [List.mem_singleton.mp hnew] at hx
        rw [hheld] at hx
        cases hx
        exact absurd hxu.symm hut
  · refine List.pairwise_append.mpr ⟨h.inTurn, List.pairwise_singleton _ _, ?_⟩
    intro p hold q hnew x y hx hy hxy
    rw [List.mem_singleton.mp hnew] at hy ⊢
    rw [hheld] at hy
    cases hy
    exact h.owing t howing p hold x hx hxy

theorem step (h : Tickets s) {act : LockAct} {s' : Posted}
    (hstep : postedStep s act = some s') : Tickets s' := by
  obtain ⟨sharing, hlock, rfl⟩ := Option.map_eq_some_iff.mp hstep
  rcases lockStep_cases hlock with
    ⟨t, call, rfl, hfree, rfl⟩ | ⟨t, outcome, ctl, r, rfl, hpoint, rfl⟩
  · cases call with
    | sendMsg id msg => exact h.post id msg
    | _ => exact h.unposted (.inl rfl) False.elim
  · have hfree : s.sharing.points t ≠ .free := by
      intro hfree
      rw [hfree] at hpoint
      cases hpoint
    have hmsg := (pointStep_effect hpoint).msg hfree
    rw [note_run]
    cases hfin : finished (s.sharing.points t) r.1 with
    | none =>
        have hsame : s.written ++ (none : Option Nat).toList.map (fun conn => (conn, s.holds t))
            = s.written := List.append_nil _
        rw [hsame]
        exact h.unposted hmsg (pointStep_owing hpoint)
    | some conn =>
        obtain ⟨id, msg, call, calls, last, hp, hr, hleft, hdone⟩ := finished_step hpoint hfin
        obtain ⟨p', m⟩ := r
        cases hr
        exact h.write hp hleft hdone

end Tickets

-- ================================================================= bytes

/-- What the connection `a` has been sent, told by the places. -/
inductive Written (s : Posted) (a : Nat) : Prop
  | whole (hsent : s.sharing.shared.sent a = (s.writtenTo a).flatMap s.bytesAt)
      (hnone : ∀ t id msg calls last,
        s.sharing.points t = .send id msg (.call a calls last) → callBytes calls = [])
  | writing (t : Nat) (id : Int64) (msg : Msg) (before calls : List SendCall)
      (hp : s.sharing.points t = .send id msg (.call a calls 0))
      (hmsg : messageCalls msg = before ++ calls) (hleft : callBytes calls ≠ [])
      (hsent : s.sharing.shared.sent a
        = (s.writtenTo a).flatMap s.bytesAt ++ callBytes before)
  | broken (part : List UInt8) (hpart : Part part)
      (hsent : s.sharing.shared.sent a = (s.writtenTo a).flatMap s.bytesAt ++ part)
      (hdead : Dead s.sharing a)

theorem mem_writtenTo {s : Posted} {a i : Nat} : i ∈ s.writtenTo a ↔ (a, i) ∈ s.written := by
  unfold Posted.writtenTo
  rw [List.mem_filterMap]
  constructor
  · rintro ⟨p, hp, heq⟩
    split_ifs at heq with hconn
    cases heq
    rw [← hconn]
    exact hp
  · intro hp
    exact ⟨(a, i), hp, if_pos rfl⟩

/-- A message has bytes. -/
theorem callBytes_messageCalls_ne {msg : Msg} (h : msg.Fits) :
    callBytes (messageCalls msg) ≠ [] := by
  obtain ⟨bs, hbs⟩ := h.encoding
  have hbytes : callBytes (messageCalls msg) = bs := messageCalls_bytes hbs
  obtain ⟨got, hwire, -⟩ := Encoding.onWire ⟨msg, h, hbs⟩
  rw [hbytes]
  intro hnil
  rw [hnil] at hwire
  have hread := onWire_wireMsg hwire []
  cases hread

section
variable {s : Posted} {t a : Nat} {outcome : SendOutcome} {ctl : Int} {r : Point × Shared}

/-- The sending thread has its `send` calls from the message. -/
theorem calls_of_stream (hok : StreamsOk s.sharing) {id : Int64} {msg : Msg}
    {calls : List SendCall} {last : Int}
    (hp : s.sharing.points t = .send id msg (.call a calls last)) :
    last = 0 ∧ ∃ before, messageCalls msg = before ++ calls := by
  obtain ⟨done, before, -, hmsg, hlast, -⟩ := (hok.streams a).of_call hok.safe hp
  exact ⟨hlast, before, hmsg⟩

/-- The bytes at the places are not touched by what is posted later. -/
theorem bytesAt_post (h : Tickets s) (sharing : Sharing) (t : Nat) (msg : Msg) (id : Int64) :
    ((s.note sharing (.call t (.sendMsg id msg))).writtenTo a).flatMap
        (s.note sharing (.call t (.sendMsg id msg))).bytesAt
      = (s.writtenTo a).flatMap s.bytesAt := by
  refine List.flatMap_congr fun i hi => ?_
  have hplaced := h.placed _ (mem_writtenTo.mp hi)
  show ((s.posted ++ [(t, msg)])[i]?.bind _).getD [] = (s.posted[i]?.bind _).getD []
  rw [List.getElem?_append_left hplaced]

/-- A thread that does not send to the connection leaves what it was
sent. -/
theorem Written.quiet (h : Written s a) (hsafe : s.sharing.lifetime.Safe) {act : LockAct}
    (hstep : lockStep s.sharing act = some (s.sharing.put t r))
    (heffect : Effect s.sharing.shared outcome (s.sharing.points t) r.1 r.2)
    (hne : (s.sharing.points t).writing ≠ some a) {s' : Posted}
    (hsharing : s'.sharing = s.sharing.put t r)
    (hbytes : (s'.writtenTo a).flatMap s'.bytesAt = (s.writtenTo a).flatMap s.bytesAt) :
    Written s' a := by
  obtain ⟨hsame, hp'⟩ := heffect.quiet hne
  have hsent : s'.sharing.shared.sent a = s.sharing.shared.sent a := by
    rw [hsharing]
    exact hsame
  cases h with
  | whole hwhole hnone =>
      refine .whole ?_ fun u id msg calls last hu => ?_
      · rw [hsent, hbytes]
        exact hwhole
      · rw [hsharing] at hu
        by_cases hut : u = t
        · rw [hut, put_self] at hu
          exact absurd hu (hp' id msg calls last)
        · rw [put_other _ hut] at hu
          exact hnone u id msg calls last hu
  | writing u id msg before calls hp hmsg hleft hwriting =>
      have hut : u ≠ t := by
        rintro rfl
        rw [hp] at hne
        exact hne rfl
      refine .writing u id msg before calls ?_ hmsg hleft ?_
      · rw [hsharing, put_other _ hut]
        exact hp
      · rw [hsent, hbytes]
        exact hwriting
  | broken part hpart hbroken hdead =>
      refine .broken part hpart ?_ ?_
      · rw [hsent, hbytes]
        exact hbroken
      · rw [hsharing]
        exact (hdead.step hsafe hstep).1

/-- The thread that sends to a connection, before it makes a `send` call. -/
theorem Written.of_ready (h : Written s a) (hsafe : s.sharing.lifetime.Safe)
    (hwriting : (s.sharing.points t).writing = some a)
    (hready : ∀ id msg calls last, s.sharing.points t ≠ .send id msg (.call a calls last)) :
    s.sharing.shared.sent a = (s.writtenTo a).flatMap s.bytesAt := by
  cases h with
  | whole hsent _ => exact hsent
  | writing u id msg before calls hp _ _ _ =>
      have hut : u = t := one_sender hsafe (by rw [hp]; rfl) (role_of_writing hwriting)
      rw [hut] at hp
      exact absurd hp (hready id msg calls 0)
  | broken _ _ _ hdead => exact absurd hwriting (hdead.idle t)

/-- The thread that is between two `send` calls: its message is written
down, or a part of it is there. -/
theorem Written.of_call (h : Written s a) (hok : StreamsOk s.sharing) {id : Int64} {msg : Msg}
    {calls : List SendCall} {last : Int}
    (hp : s.sharing.points t = .send id msg (.call a calls last)) :
    (callBytes calls = [] ∧ s.sharing.shared.sent a = (s.writtenTo a).flatMap s.bytesAt)
    ∨ ∃ before, messageCalls msg = before ++ calls ∧ callBytes calls ≠ []
      ∧ s.sharing.shared.sent a = (s.writtenTo a).flatMap s.bytesAt ++ callBytes before := by
  have hwriting : (s.sharing.points t).writing = some a := by
    rw [hp]
    rfl
  cases h with
  | whole hsent hnone => exact .inl ⟨hnone t id msg calls last hp, hsent⟩
  | writing u id' msg' before calls' hp' hmsg hleft hsent =>
      have hut : u = t := one_sender hok.safe (by rw [hp']; rfl) (role_of_writing hwriting)
      rw [hut, hp] at hp'
      cases hp'
      exact .inr ⟨before, hmsg, hleft, hsent⟩
  | broken _ _ _ hdead => exact absurd hwriting (hdead.idle t)

end

/-- A thread whose `send` call failed is about to mark the connection. -/
theorem dead_of_failed {s : Sharing} {t a : Nat} (hsafe : s.lifetime.Safe) {id : Int64}
    {msg : Msg} {calls : List SendCall} {last : Int}
    (hp : s.points t = .send id msg (.call a calls last)) {m : Shared}
    (hmade : m.made = s.shared.made) : Dead (s.put t (.send id msg (.mark a), m)) a := by
  have hwriting : (s.points t).writing = some a := by
    rw [hp]
    rfl
  have hrole := role_of_writing hwriting
  refine ⟨?_, fun u hu => ?_, .inr ⟨t, by rw [put_self]; rfl⟩⟩
  · have hok := hsafe.roles t
    rw [show s.lifetime.role t = .use a from hrole] at hok
    show a < m.made
    rw [hmade]
    exact hok.2.2.1
  · by_cases hut : u = t
    · rw [hut, put_self] at hu
      cases hu
    · rw [put_other s hut] at hu
      exact hut (one_sender hsafe (role_of_writing hu) hrole)

section
variable {s : Posted} {t a : Nat} {outcome : SendOutcome} {ctl : Int} {r : Point × Shared}

theorem writtenTo_run : (s.note (s.sharing.put t r) (.run t outcome ctl)).writtenTo a
    = s.writtenTo a
      ++ if finished (s.sharing.points t) r.1 = some a then [s.holds t] else [] := by
  rw [note_run]
  unfold Posted.writtenTo
  rw [List.filterMap_append]
  congr 1
  cases finished (s.sharing.points t) r.1 with
  | none => rfl
  | some conn =>
      by_cases hconn : conn = a
      · rw [hconn]
        simp
      · rw [if_neg (fun h => hconn (Option.some.inj h))]
        simp [hconn]

theorem finished_writing {p p' : Point} {conn : Nat} (h : finished p p' = some conn) :
    p.writing = some conn := by
  unfold finished at h
  split at h
  · split_ifs at h
    cases h
    rfl
  · cases h

theorem not_finished {id : Int64} {msg : Msg} {conn : Nat} {call : SendCall}
    {calls : List SendCall} {last : Int}
    (h : callBytes (call :: calls) = [] ∨ callBytes calls ≠ []) :
    finished (.send id msg (.call conn (call :: calls) last))
      (.send id msg (.call conn calls last)) ≠ some a := by
  have hnot : ¬(callBytes (call :: calls) ≠ [] ∧ callBytes calls = []) := fun hlast =>
    h.elim hlast.1 fun hleft => hleft hlast.2
  intro hfin
  have hnone : finished (.send id msg (.call conn (call :: calls) last))
      (.send id msg (.call conn calls last)) = none := if_neg hnot
  rw [hnone] at hfin
  cases hfin

/-- What is written is what is at the places, whoever took a step. -/
theorem bytes_run (h : finished (s.sharing.points t) r.1 ≠ some a) :
    ((s.note (s.sharing.put t r) (.run t outcome ctl)).writtenTo a).flatMap
        (s.note (s.sharing.put t r) (.run t outcome ctl)).bytesAt
      = (s.writtenTo a).flatMap s.bytesAt := by
  rw [writtenTo_run, if_neg h, List.append_nil]
  rfl

/-- The place of a message that is complete. -/
theorem bytes_finished (htickets : Tickets s) (hok : StreamsOk s.sharing) {id : Int64} {msg : Msg}
    {calls : List SendCall} {last : Int}
    (hp : s.sharing.points t = .send id msg (.call a calls last))
    (h : finished (s.sharing.points t) r.1 = some a) :
    ((s.note (s.sharing.put t r) (.run t outcome ctl)).writtenTo a).flatMap
        (s.note (s.sharing.put t r) (.run t outcome ctl)).bytesAt
      = (s.writtenTo a).flatMap s.bytesAt ++ callBytes (messageCalls msg) := by
  have hmsg : (s.sharing.points t).msg = some msg := by
    rw [hp]
    rfl
  obtain ⟨bs, hbs⟩ := (hok.fits t msg hmsg).encoding
  have hbytes : callBytes (messageCalls msg) = bs := messageCalls_bytes hbs
  have hat : s.bytesAt (s.holds t) = bs := by
    unfold Posted.bytesAt
    rw [htickets.held t msg hmsg]
    show (msgEncoding msg).getD [] = bs
    rw [hbs]
    rfl
  rw [writtenTo_run, if_pos h, List.flatMap_append, List.flatMap_singleton, hbytes, ← hat]
  rfl

theorem sent_put (s : Posted) (t : Nat) (r : Point × Shared) (act : LockAct) :
    (s.note (s.sharing.put t r) act).sharing = s.sharing.put t r := by
  cases act with
  | call u call => cases call <;> rfl
  | run u outcome ctl => rfl

/-- Where the thread at work on a connection has no bytes left there, none
has. -/
theorem none_calling (hok : StreamsOk s.sharing)
    (hwriting : (s.sharing.points t).writing = some a)
    (hp : ∀ id msg calls last, r.1 = .send id msg (.call a calls last) → callBytes calls = []) :
    ∀ u id msg calls last, (s.sharing.put t r).points u = .send id msg (.call a calls last) →
      callBytes calls = [] := by
  intro u id msg calls last hu
  by_cases hut : u = t
  · rw [hut, put_self] at hu
    exact hp id msg calls last hu
  · rw [put_other _ hut] at hu
    exact absurd hu (only_caller hok.safe hwriting u hut id msg calls last)

section
variable {id : Int64} {msg : Msg} {call : SendCall} {calls : List SendCall} {last ret : Int}
variable {out : Outbox}

/-- The calls of a message that fits carry what they say. -/
theorem exact_of_call (hok : StreamsOk s.sharing)
    (hp : s.sharing.points t = .send id msg (.call a (call :: calls) last)) : Exact call := by
  obtain ⟨-, made, hmade⟩ := calls_of_stream hok hp
  have hfit : msg.Fits := hok.fits t msg (by rw [hp]; rfl)
  refine messageCalls_exact hfit call ?_
  rw [hmade]
  exact List.mem_append_right _ List.mem_cons_self

/-- A call that sends all it is given: no byte, the last one, or one before. -/
theorem Written.called (h : Written s a) (hok : StreamsOk s.sharing) (htickets : Tickets s)
    (hp : s.sharing.points t = .send id msg (.call a (call :: calls) last))
    (hclean : AllOrFails outcome (s.sharing.points t))
    (hrun : runCall call ⟨s.sharing.shared.sent a, [outcome]⟩ = .ok (ret, out))
    (hret : ¬ret < 0) :
    Written (s.note (s.sharing.put t (.send id msg (.call a calls last),
      { s.sharing.shared with sent := Function.update s.sharing.shared.sent a out.sent }))
      (.run t outcome ctl)) a := by
  have hwriting : (s.sharing.points t).writing = some a := by
    rw [hp]
    rfl
  have hnone := fun hlast : callBytes calls = [] =>
    none_calling (r := (.send id msg (.call a calls last),
      { s.sharing.shared with sent := Function.update s.sharing.shared.sent a out.sent }))
      hok hwriting fun _ _ _ _ heq => by cases heq; exact hlast
  have hexact := exact_of_call hok hp
  have hbytes := callBytes_cons call calls
  obtain ⟨rfl, -⟩ := calls_of_stream hok hp
  rw [hp] at hclean
  rcases hclean with hwhole | ⟨errno, rfl⟩
  · rw [runCall_whole hexact hwhole] at hrun
    cases hrun
    have hnow : Function.update s.sharing.shared.sent a
        (s.sharing.shared.sent a ++ call.bytes.take call.size) a
        = s.sharing.shared.sent a ++ call.bytes.take call.size := Function.update_self ..
    rcases h.of_call hok hp with ⟨hdone, hsent⟩ | ⟨before, hmsg, hleft, hsent⟩
    · -- the message is complete, and the call sends nothing
      obtain ⟨hempty, hrest⟩ := List.append_eq_nil_iff.mp (hbytes.symm.trans hdone)
      refine .whole ?_ (hnone hrest)
      rw [bytes_run (by rw [hp]; exact not_finished (.inl hdone))]
      show Function.update s.sharing.shared.sent a _ a = _
      rw [hnow, hempty, List.append_nil]
      exact hsent
    · by_cases hlast : callBytes calls = []
      · -- the last byte
        refine .whole ?_ (hnone hlast)
        rw [bytes_finished htickets hok hp (by rw [hp]; exact if_pos ⟨hleft, hlast⟩), hmsg,
          callBytes_append, hbytes, hlast, List.append_nil, ← List.append_assoc, ← hsent]
        exact hnow
      · refine .writing t id msg (before ++ [call]) calls (put_self _ t _) ?_ hlast ?_
        · rw [hmsg, List.append_assoc]
          rfl
        · have hone : callBytes [call] = call.bytes.take call.size := List.append_nil _
          rw [bytes_run (by rw [hp]; exact not_finished (.inr hlast)), callBytes_append, hone,
            ← List.append_assoc, ← hsent]
          exact hnow
  · exact absurd (runCall_failed hexact hrun).1 hret

/-- A call that fails sends nothing. The connection is dead if bytes of
the message are out. -/
theorem Written.failed (h : Written s a) (hok : StreamsOk s.sharing)
    (hp : s.sharing.points t = .send id msg (.call a (call :: calls) last))
    (hclean : AllOrFails outcome (s.sharing.points t))
    (hrun : runCall call ⟨s.sharing.shared.sent a, [outcome]⟩ = .ok (ret, out))
    (hret : ret < 0) :
    Written (s.note (s.sharing.put t (.send id msg (.mark a),
      { s.sharing.shared with sent := Function.update s.sharing.shared.sent a out.sent }))
      (.run t outcome ctl)) a := by
  have hwriting : (s.sharing.points t).writing = some a := by
    rw [hp]
    rfl
  have hfit : msg.Fits := hok.fits t msg (by rw [hp]; rfl)
  have hexact := exact_of_call hok hp
  obtain ⟨rfl, -⟩ := calls_of_stream hok hp
  rw [hp] at hclean
  rcases hclean with hwhole | ⟨errno, rfl⟩
  · rw [runCall_whole hexact hwhole] at hrun
    cases hrun
    exact absurd hret (Int.lt_irrefl 0)
  · obtain ⟨-, rfl⟩ := runCall_failed hexact hrun
    have hsame : Function.update s.sharing.shared.sent a (s.sharing.shared.sent a) a
        = s.sharing.shared.sent a := Function.update_self ..
    rcases h.of_call hok hp with ⟨-, hsent⟩ | ⟨before, hmsg, hleft, hsent⟩
    · refine .whole ?_ (none_calling hok hwriting nofun)
      rw [bytes_run (by rw [hp]; nofun)]
      exact hsame.trans hsent
    · have hencoding := encoding_of_calls hfit hmsg
      refine .broken (callBytes before) ⟨_, ⟨msg, hfit, hencoding⟩, ⟨_, rfl⟩, ?_⟩ ?_
        (dead_of_failed hok.safe hp rfl)
      · exact fun heq => hleft (List.append_right_eq_self.mp heq.symm)
      · rw [bytes_run (by rw [hp]; nofun)]
        exact hsame.trans hsent

end

/-- The thread at work on the connection goes one operation on. -/
theorem Written.active (h : Written s a) (hok : StreamsOk s.sharing) (htickets : Tickets s)
    (hpoint : pointStep s.sharing.shared t outcome ctl (s.sharing.points t) = some r)
    (hclean : AllOrFails outcome (s.sharing.points t))
    (hwriting : (s.sharing.points t).writing = some a) :
    Written (s.note (s.sharing.put t r) (.run t outcome ctl)) a := by
  have hfit := hok.fits t
  have heffect := pointStep_effect hpoint
  obtain ⟨p', m⟩ := r
  have hnone := @none_calling s t a (p', m) hok hwriting
  generalize hp : s.sharing.points t = p₀ at hpoint heffect hclean hwriting hfit
  cases heffect with
  | entered call => cases hwriting
  | aside hpa => exact absurd (hpa.1.symm.trans hwriting) nofun
  | shut => cases hwriting
  | found hopen => cases hwriting
  | marked => cases hwriting
  | logged =>
      cases hwriting
      have hsent := h.of_ready hok.safe (t := t) (by rw [hp]; rfl) (by rw [hp]; nofun)
      refine .whole ?_ (hnone nofun)
      rw [bytes_run (by rw [hp]; nofun)]
      exact hsent
  | @begun id msg conn calls last hcalls =>
      cases hwriting
      have hsent := h.of_ready hok.safe (t := t) (by rw [hp]; rfl) (by rw [hp]; nofun)
      rw [writeCalls_fits (hfit msg rfl)] at hcalls
      cases hcalls
      refine .writing t id msg [] _ (put_self _ t _) rfl
        (callBytes_messageCalls_ne (hfit msg rfl)) ?_
      rw [bytes_run (by rw [hp]; nofun)]
      exact hsent.trans (List.append_nil _).symm
  | called hrun hret =>
      cases hwriting
      exact h.called hok htickets hp (by rw [hp]; exact hclean) hrun hret
  | failed hrun hret =>
      cases hwriting
      exact h.failed hok hp (by rw [hp]; exact hclean) hrun hret
  | done =>
      cases hwriting
      rcases h.of_call hok hp with ⟨-, hsent⟩ | ⟨before, -, hleft, -⟩
      · refine .whole ?_ (hnone nofun)
        rw [bytes_run (by rw [hp]; nofun)]
        exact hsent
      · exact absurd rfl hleft
  | refused hlast =>
      cases hwriting
      exact absurd (calls_of_stream hok hp).1 hlast

end

-- ================================================================== runs

/-- What every step keeps. -/
structure PostedOk (s : Posted) : Prop where
  fits : ∀ p ∈ s.posted, p.2.Fits
  streams : StreamsOk s.sharing
  tickets : Tickets s
  written : ∀ a, Written s a

theorem Written.step {s s' : Posted} (hok : PostedOk s) {act : LockAct}
    (hclean : Clean s.sharing act) (hstep : postedStep s act = some s') (a : Nat) :
    Written s' a := by
  obtain ⟨sharing, hlock, rfl⟩ := Option.map_eq_some_iff.mp hstep
  have hsafe := hok.streams.safe
  rcases lockStep_cases hlock with
    ⟨t, call, rfl, hfree, rfl⟩ | ⟨t, outcome, ctl, r, rfl, hpoint, rfl⟩
  · have heffect : Effect s.sharing.shared (.failed 0) (s.sharing.points t)
        (callPoint s.sharing.shared call).1 (callPoint s.sharing.shared call).2 := by
      rw [hfree]
      exact .entered call
    have hne : (s.sharing.points t).writing ≠ some a := by
      rw [hfree]
      nofun
    refine (hok.written a).quiet hsafe hlock heffect hne (sent_put ..) ?_
    cases call with
    | sendMsg id msg => exact bytesAt_post hok.tickets _ t msg id
    | _ => rfl
  · by_cases hwriting : (s.sharing.points t).writing = some a
    · exact (hok.written a).active hok.streams hok.tickets hpoint hclean hwriting
    · refine (hok.written a).quiet hsafe hlock (pointStep_effect hpoint) hwriting (sent_put ..) ?_
      exact bytes_run fun hfin => hwriting (finished_writing hfin)

/-- The record does not get in the way. -/
theorem posted_reached {s : Posted} (h : postedSystem.Reached PostedClean s) :
    lockSystem.Reached Clean s.sharing := by
  induction h with
  | start hinit =>
      rw [hinit]
      exact .start rfl
  | next _ hclean hstep ih =>
      obtain ⟨sharing, hlock, rfl⟩ := Option.map_eq_some_iff.mp hstep
      have hsame : ∀ (s : Posted) (act : LockAct), (s.note sharing act).sharing = sharing := by
        intro s act
        cases act with
        | call u call => cases call <;> rfl
        | run u outcome ctl => rfl
      rw [hsame]
      exact ih.next hclean hlock

theorem fits_step {s s' : Posted} (h : ∀ p ∈ s.posted, p.2.Fits) {act : LockAct}
    (hclean : PostedClean s act) (hstep : postedStep s act = some s') :
    ∀ p ∈ s'.posted, p.2.Fits := by
  obtain ⟨sharing, -, rfl⟩ := Option.map_eq_some_iff.mp hstep
  cases act with
  | call t call =>
      cases call with
      | sendMsg id msg =>
          exact List.forall_mem_append.mpr ⟨h, List.forall_mem_singleton.mpr hclean⟩
      | _ => exact h
  | run t outcome ctl => exact h

theorem postedOk_of_reached {s : Posted} (h : postedSystem.Reached PostedClean s) :
    PostedOk s := by
  induction h with
  | start hinit =>
      rw [hinit]
      exact ⟨nofun, streamsOk_of_reached (.start rfl), .start, fun a => .whole rfl nofun⟩
  | next hreached hclean hstep ih =>
      exact ⟨fits_step ih.fits hclean hstep,
        streamsOk_of_reached (posted_reached (hreached.next hclean hstep)),
        ih.tickets.step hstep, Written.step ih hclean hstep⟩

end CephInC
