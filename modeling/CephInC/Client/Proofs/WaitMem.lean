/-
The functions on the wait list in memory do to its entries what the
functions of `Client/Client.lean` do to the list.
-/
import CephInC.Client.Proofs.WaitList
import CephInC.Client.WaitMem
import CephInC.Common.Proofs.Records

namespace CephInC

open Lib

variable {m : Records WaitReq} {head turns addr : Nat}
  {entries pre post : List (Nat × WaitReq)}

-- ============================================================ removals

/-- The entries are a list with one more in it, `test` picking that one. -/
theorem cut_of_find (test : WaitReq → Bool) {entry : Nat × WaitReq}
    (h : entries.find? (fun e => test e.2) = some entry) :
    ∃ pre post, entries = pre ++ entry :: post ∧ test entry.2 = true
      ∧ (entries.map Prod.snd).find? test = some entry.2
      ∧ (entries.map Prod.snd).eraseP test = (pre ++ post).map Prod.snd := by
  obtain ⟨htest, pre, post, hsplit, hpre⟩ := List.find?_eq_some_iff_append.mp h
  have hbefore : ∀ w ∈ pre.map Prod.snd, ¬test w = true := by
    intro w hw
    obtain ⟨e, he, rfl⟩ := List.mem_map.mp hw
    exact fun htrue => by simpa [htrue] using hpre e he
  refine ⟨pre, post, hsplit, htest, ?_, ?_⟩
  · rw [List.find?_map]
    exact congrArg (Option.map Prod.snd) h
  · rw [hsplit, List.map_append, List.eraseP_append_right _ hbefore, List.map_cons,
      List.eraseP_cons_of_pos htest, List.map_append]

theorem find_map_none {test : WaitReq → Bool}
    (h : entries.find? (fun e => test e.2) = none) :
    (entries.map Prod.snd).find? test = none := by
  rw [List.find?_map]
  exact congrArg (Option.map Prod.snd) h

/-- The loop of `remove_req_from_wait_list` over the entries. -/
theorem forEachIn_remove (addr : Nat) : ∀ {entries : List (Nat × WaitReq)}
    (waitReq : Option Nat), (∀ entry ∈ entries, m.recs entry.1 = some entry.2) →
    ∃ last, forEachIn (removeBody addr) (entries.map Prod.fst) (m, waitReq)
        = .ok ((entries.find? fun e => decide (e.2.addr = addr)).map Prod.fst, m, last)
      ∧ (entries = [] → last = waitReq) ∧ (entries ≠ [] → ∃ e ∈ entries, last = some e.1)
  | [], waitReq, _ => ⟨waitReq, rfl, fun _ => rfl, fun h => absurd rfl h⟩
  | (a, w) :: entries, waitReq, h => by
      have hw : m.recs a = some w := h (a, w) List.mem_cons_self
      have hbody : removeBody addr a (m, waitReq)
          = .ok (decide (w.addr = addr), (m, some a)) := by
        unfold removeBody
        rw [hw]
      cases hfound : decide (w.addr = addr) with
      | true =>
          refine ⟨some a, ?_, nofun, fun _ => ⟨(a, w), List.mem_cons_self, rfl⟩⟩
          rw [List.map_cons, forEachIn, bind_ok hbody, List.find?_cons, hfound]
          rfl
      | false =>
          obtain ⟨last, hrun, hnil, hcons⟩ := forEachIn_remove addr (some a)
            fun entry hentry => h entry (List.mem_cons_of_mem _ hentry)
          refine ⟨last, ?_, nofun, fun _ => ?_⟩
          · rw [List.map_cons, forEachIn, bind_ok hbody, List.find?_cons, hfound]
            exact hrun
          · cases entries with
            | nil => exact ⟨(a, w), List.mem_cons_self, hnil rfl⟩
            | cons e rest =>
                obtain ⟨e', he', hlast⟩ := hcons (List.cons_ne_nil e rest)
                exact ⟨e', List.mem_cons_of_mem _ he', hlast⟩

theorem keepsNodes_remove : KeepsNodes (fun s => s.1.nodes) (removeBody addr) := by
  intro pos s b s' h
  unfold removeBody at h
  cases hw : s.1.recs pos with
  | none =>
      rw [hw] at h
      cases h
  | some w =>
      rw [hw] at h
      cases h
      rfl

/-- `remove_req_from_wait_list` on an entry that is there. -/
theorem memRemoveReq_run (h : m.Lists head entries) (hturns : entries.length < turns)
    {entry : Nat × WaitReq}
    (hfind : entries.find? (fun e => decide (e.2.addr = addr)) = some entry) :
    ∃ pre post nodes, entries = pre ++ entry :: post
      ∧ memRemoveReq head turns addr m = .ok ((), { m with nodes := nodes })
      ∧ Records.Lists { m with nodes := nodes } head (pre ++ post)
      ∧ (entries.map Prod.snd).eraseP (fun w => w.addr = addr) = (pre ++ post).map Prod.snd := by
  obtain ⟨pre, post, hsplit, -, -, herase⟩ := cut_of_find
    (fun w => decide (w.addr = addr)) hfind
  obtain ⟨last, hloop, -, hlast⟩ := forEachIn_remove addr none h.recs
  have hne : entries ≠ [] := by
    rw [hsplit]
    exact List.append_ne_nil_of_right_ne_nil pre (List.cons_ne_nil entry post)
  obtain ⟨seen, hseen, rfl⟩ := hlast hne
  have hlist : m.Lists head (pre ++ (entry.1, entry.2) :: post) := hsplit ▸ h
  obtain ⟨nodes, hdelete, hafter, -, -⟩ := hlist.delete
  have hpos : entry.1 ≠ head := by
    intro heq
    refine h.ring.head_notMem (heq ▸ ?_)
    exact List.mem_map_of_mem (List.mem_of_find?_eq_some hfind)
  have hfor : listForEach (fun s => s.1.nodes) (removeBody addr) head turns (m, none)
      = .ok (entry.1, m, some seen.1) := by
    have hlength : (entries.map Prod.fst).length < turns := by rwa [List.length_map]
    rw [listForEach_run keepsNodes_remove h.ring hlength, bind_ok hloop, hfind]
    rfl
  refine ⟨pre, post, nodes, hsplit, ?_, hafter, herase⟩
  have hread : recordAt seen.1 { m with nodes := nodes }
      = .ok (seen.2, { m with nodes := nodes }) := recordAt_run (h.recs seen hseen)
  simp only [memRemoveReq, hfor, if_pos hpos, bind_ok hdelete, deref_some, pure_bind,
    bind_ok hread, pure_run]

/-- On an empty list there is no `wait_req` for the log line. -/
theorem memRemoveReq_empty (h : m.Lists head []) (hturns : 0 < turns) :
    memRemoveReq head turns addr m = .error .nullDeref := by
  have hfor : listForEach (fun s => s.1.nodes) (removeBody addr) head turns (m, none)
      = .ok (head, m, none) := by
    have hring : m.nodes.Ring head [] := h.ring
    rw [listForEach_run keepsNodes_remove hring hturns]
    rfl
  simp only [memRemoveReq, hfor]
  rw [if_neg (fun hne => hne rfl)]
  rfl

/-- `is_req_finished` when an entry is. -/
theorem memIsReqFinished_some (h : m.Lists head entries) (hturns : entries.length < turns)
    {entry : Nat × WaitReq}
    (hfind : entries.find? (fun e => WaitReq.finished addr e.2) = some entry) :
    ∃ pre post nodes, entries = pre ++ entry :: post
      ∧ memIsReqFinished head turns addr m = .ok (some entry.1, { m with nodes := nodes })
      ∧ Records.Lists { m with nodes := nodes } head (pre ++ post)
      ∧ (entries.map Prod.snd).find? (WaitReq.finished addr) = some entry.2
      ∧ (entries.map Prod.snd).eraseP (WaitReq.finished addr) = (pre ++ post).map Prod.snd := by
  obtain ⟨pre, post, hsplit, -, hlist, herase⟩ := cut_of_find _ hfind
  have hcut : m.Lists head (pre ++ (entry.1, entry.2) :: post) := hsplit ▸ h
  obtain ⟨nodes, hdelete, hafter, -, -⟩ := hcut.delete
  refine ⟨pre, post, nodes, hsplit, ?_, hafter, hlist, herase⟩
  have hfirst := listFirst_run h hturns (WaitReq.finished addr)
  rw [hfind] at hfirst
  unfold memIsReqFinished
  rw [bind_ok hfirst]
  show (onNodes (listDelete entry.1) >>= fun _ => pure (some entry.1)) m = _
  rw [bind_ok hdelete]
  rfl

theorem memIsReqFinished_none (h : m.Lists head entries) (hturns : entries.length < turns)
    (hfind : entries.find? (fun e => WaitReq.finished addr e.2) = none) :
    memIsReqFinished head turns addr m = .ok (none, m) := by
  have hfirst := listFirst_run h hturns (WaitReq.finished addr)
  rw [hfind] at hfirst
  unfold memIsReqFinished
  rw [bind_ok hfirst]
  rfl

-- ====================================================== acknowledgement

/-- `wait_req` stands at the entry last looked at. -/
def SeesEntry (entries : List (Nat × WaitReq)) (pos : Option Nat) (waitReq : Option WaitReq) :
    Prop :=
  ∃ e : Option (Nat × WaitReq), pos = e.map Prod.fst ∧ waitReq = e.map Prod.snd
    ∧ ∀ x ∈ e, x ∈ entries

theorem seesEntry_some {a : Nat} {w : WaitReq} (h : (a, w) ∈ entries) :
    SeesEntry entries (some a) (some w) :=
  ⟨some (a, w), rfl, rfl, fun x hx => by rw [← Option.some.inj hx]; exact h⟩

/-- The entry is the first with the number, and it is counted. -/
def AckScan.count (s : AckScan) (pos : Nat) (w : WaitReq) : AckScan :=
  ⟨{ s.mem with recs := Function.update s.mem.recs pos (some w.acked) }, true, some pos⟩

theorem ackBody_count {check : Bool} {reqId : Int64} {s : AckScan} {pos : Nat} {w : WaitReq}
    (hw : s.mem.recs pos = some w) (h : w.answers reqId = true ∧ s.found = false) :
    ackBody check reqId pos s = .ok (!check, s.count pos w) := by
  obtain ⟨hanswers, hfound⟩ := h
  obtain ⟨hop, hid⟩ := of_decide_eq_true hanswers
  simp only [ackBody, hw]
  rw [if_neg (not_not_intro hop), if_neg (not_not_intro hid), hfound,
    if_neg Bool.false_ne_true]
  rfl

theorem ackBody_skip {check : Bool} {reqId : Int64} {s : AckScan} {pos : Nat} {w : WaitReq}
    (hw : s.mem.recs pos = some w) (h : ¬(w.answers reqId = true ∧ s.found = false)) :
    ackBody check reqId pos s = .ok (false, { s with waitReq := some pos }) := by
  simp only [ackBody, hw]
  split_ifs with hop hid hfound
  · rfl
  · rfl
  · rfl
  · exact absurd ⟨decide_eq_true ⟨not_not.mp hop, not_not.mp hid⟩, Bool.eq_false_iff.mpr hfound⟩ h

theorem ackLoop_count {check : Bool} {reqId : Int64} {found : Bool} {waitReq : Option WaitReq}
    {w : WaitReq} {ws : List WaitReq} (h : w.answers reqId = true ∧ found = false) :
    ackLoop check reqId found waitReq (w :: ws)
      = if !check then (w.acked :: ws, true,
          some w.acked)
        else (w.acked
            :: (ackLoop check reqId true (some w.acked) ws).1,
          (ackLoop check reqId true (some w.acked) ws).2) := by
  obtain ⟨hanswers, hfound⟩ := h
  obtain ⟨hop, hid⟩ := of_decide_eq_true hanswers
  rw [ackLoop, if_neg (not_not_intro hop), if_neg (not_not_intro hid), hfound,
    if_neg Bool.false_ne_true]
  rfl

theorem ackLoop_pass {check : Bool} {reqId : Int64} {found : Bool} {waitReq : Option WaitReq}
    {w : WaitReq} {ws : List WaitReq} (h : ¬(w.answers reqId = true ∧ found = false)) :
    ackLoop check reqId found waitReq (w :: ws)
      = (w :: (ackLoop check reqId found (some w) ws).1,
          (ackLoop check reqId found (some w) ws).2) := by
  rw [ackLoop]
  split_ifs with hop hid hfound
  · rfl
  · rfl
  · rfl
  all_goals
    exact absurd ⟨decide_eq_true ⟨not_not.mp hop, not_not.mp hid⟩, Bool.eq_false_iff.mpr hfound⟩ h

theorem keepsNodes_ack {check : Bool} {reqId : Int64} :
    KeepsNodes (fun s => s.mem.nodes) (ackBody check reqId) := by
  intro pos s b s' h
  cases hw : s.mem.recs pos with
  | none =>
      unfold ackBody at h
      rw [hw] at h
      cases h
  | some w =>
      by_cases hcount : w.answers reqId = true ∧ s.found = false
      · rw [ackBody_count hw hcount] at h
        cases h
        rfl
      · rw [ackBody_skip hw hcount] at h
        cases h
        rfl

/-- What the loop of `do_object_write_ack` leaves of the entries it still
has before it. -/
structure AckScanned (check : Bool) (reqId : Int64) (head : Nat) (s : AckScan)
    (waitReq : Option WaitReq) (pre post : List (Nat × WaitReq)) (s' : AckScan)
    (post' : List (Nat × WaitReq)) : Prop where
  lists : s'.mem.Lists head (pre ++ post')
  nodes : s'.mem.nodes = s.mem.nodes
  addrs : post'.map Prod.fst = post.map Prod.fst
  there : ∀ a, (s'.mem.recs a).isSome = (s.mem.recs a).isSome
  list : (ackLoop check reqId s.found waitReq (post.map Prod.snd)).1 = post'.map Prod.snd
  found : (ackLoop check reqId s.found waitReq (post.map Prod.snd)).2.1 = s'.found
  seen : s.waitReq ≠ none ∨ post ≠ [] → s'.waitReq ≠ none
  sees : SeesEntry (pre ++ post') s'.waitReq
    (ackLoop check reqId s.found waitReq (post.map Prod.snd)).2.2

theorem forEachIn_ack (check : Bool) (reqId : Int64) : ∀ (post : List (Nat × WaitReq))
    {pre : List (Nat × WaitReq)} (s : AckScan) {waitReq : Option WaitReq},
    s.mem.Lists head (pre ++ post) → SeesEntry pre s.waitReq waitReq →
    ∃ stop s' post', forEachIn (ackBody check reqId) (post.map Prod.fst) s = .ok (stop, s')
      ∧ AckScanned check reqId head s waitReq pre post s' post'
  | [], _, s, _, h, hsees =>
      ⟨none, s, [], rfl, h, rfl, rfl, fun _ => rfl, rfl, rfl,
        fun hseen => hseen.resolve_right fun hne => hne rfl, by rwa [List.append_nil]⟩
  | (a, w) :: post, pre, s, waitReq, h, _ => by
      have hw : s.mem.recs a = some w :=
        h.recs (a, w) (List.mem_append_right pre List.mem_cons_self)
      by_cases hcount : w.answers reqId = true ∧ s.found = false
      · have hput : Records.Lists (s.count a w).mem head
            (pre ++ (a, w.acked) :: post) := (h.put _).2
        have hthere : ∀ c, ((s.count a w).mem.recs c).isSome = (s.mem.recs c).isSome := by
          intro c
          show (Function.update s.mem.recs a (some w.acked) c).isSome = _
          by_cases hc : c = a
          · subst hc
            rw [Function.update_self, hw]
            rfl
          · rw [Function.update_of_ne hc]
        rw [List.map_cons, forEachIn, bind_ok (ackBody_count hw hcount)]
        cases check with
        | false =>
            refine ⟨some a, s.count a w, _, rfl, hput, rfl, rfl, hthere, ?_, ?_,
              fun _ => Option.some_ne_none a, ?_⟩
            · rw [List.map_cons, ackLoop_count hcount]
              rfl
            · rw [List.map_cons, ackLoop_count hcount]
              rfl
            · rw [List.map_cons, ackLoop_count hcount]
              exact seesEntry_some (List.mem_append_right pre List.mem_cons_self)
        | true =>
            rw [List.append_cons] at hput
            obtain ⟨stop, s', post', hrun, hscan⟩ := forEachIn_ack true reqId post _
              hput (seesEntry_some (List.mem_append_right pre List.mem_cons_self))
            refine ⟨stop, s', (a, w.acked) :: post', hrun, ?_,
              hscan.nodes, ?_, fun c => (hscan.there c).trans (hthere c), ?_, ?_,
              fun _ => hscan.seen (.inl (Option.some_ne_none a)), ?_⟩
            · rw [List.append_cons]
              exact hscan.lists
            · exact congrArg (a :: ·) hscan.addrs
            · rw [List.map_cons, ackLoop_count hcount, List.map_cons, ← hscan.list]
              rfl
            · rw [List.map_cons, ackLoop_count hcount]
              exact hscan.found
            · rw [List.map_cons, ackLoop_count hcount, List.append_cons]
              exact hscan.sees
      · have hlists : Records.Lists { s with waitReq := some a }.mem head
            ((pre ++ [(a, w)]) ++ post) := by
          rw [← List.append_cons]
          exact h
        rw [List.map_cons, forEachIn, bind_ok (ackBody_skip hw hcount)]
        obtain ⟨stop, s', post', hrun, hscan⟩ := forEachIn_ack check reqId post _
          hlists (seesEntry_some (List.mem_append_right pre List.mem_cons_self))
        refine ⟨stop, s', (a, w) :: post', hrun, ?_, hscan.nodes, ?_, hscan.there, ?_, ?_,
          fun _ => hscan.seen (.inl (Option.some_ne_none a)), ?_⟩
        · rw [List.append_cons]
          exact hscan.lists
        · exact congrArg (a :: ·) hscan.addrs
        · rw [List.map_cons, ackLoop_pass hcount, List.map_cons, ← hscan.list]
        · rw [List.map_cons, ackLoop_pass hcount]
          exact hscan.found
        · rw [List.map_cons, ackLoop_pass hcount, List.append_cons]
          exact hscan.sees

/-- The section of `do_object_write_ack` counts in memory what it counts
in the list, and signals alike. -/
theorem memWriteAck_run (check : Bool) (reqId : Int64) (h : m.Lists head entries)
    (hturns : entries.length < turns) :
    ∃ mem entries', memWriteAck check head turns reqId m
        = .ok ((ackLoop check reqId false none (entries.map Prod.snd)).2.1
            && (ackLoop check reqId false none (entries.map Prod.snd)).2.2.any WaitReq.enough, mem)
      ∧ mem.Lists head entries' ∧ entries'.map Prod.fst = entries.map Prod.fst
      ∧ (ackLoop check reqId false none (entries.map Prod.snd)).1 = entries'.map Prod.snd
      ∧ (∀ a, (mem.recs a).isSome = (m.recs a).isSome) ∧ mem.nodes = m.nodes := by
  have hall : m.Lists head ([] ++ entries) := h
  have hnone : SeesEntry [] none (none : Option WaitReq) := ⟨none, rfl, rfl, nofun⟩
  obtain ⟨stop, s', entries', hrun, hscan⟩ :=
    forEachIn_ack check reqId entries ⟨m, false, none⟩ hall hnone
  refine ⟨s'.mem, entries', ?_, hscan.lists, hscan.addrs, hscan.list, hscan.there, hscan.nodes⟩
  have hfor : listForEach (fun s => s.mem.nodes) (ackBody check reqId) head turns ⟨m, false, none⟩
      = .ok (stop.getD head, s') := by
    have hlength : (entries.map Prod.fst).length < turns := by rwa [List.length_map]
    have hring : m.nodes.Ring head (entries.map Prod.fst) := h.ring
    rw [listForEach_run keepsNodes_ack hring hlength, bind_ok hrun]
    rfl
  have hfound := hscan.found
  have hsees := hscan.sees
  simp only at hfound hsees
  simp only [memWriteAck, hfor]
  rw [hfound]
  cases hf : s'.found with
  | false => rfl
  | true =>
      obtain ⟨e, hpos, hreq, hmem⟩ := hsees
      rw [hpos, hreq]
      cases e with
      | none =>
          -- nothing was looked at, so the list is empty, and nothing found
          have hnil : entries = [] := by
            by_contra hne
            exact hscan.seen (.inr hne) hpos
          rw [hnil] at hfound
          exact absurd (hfound.trans hf) Bool.false_ne_true
      | some e =>
          have hread : recordAt e.1 s'.mem = .ok (e.2, s'.mem) :=
            recordAt_run (hscan.lists.recs e (hmem e rfl))
          show (recordAt e.1 >>= fun w => pure w.enough) s'.mem = _
          rw [bind_ok hread]
          rfl

end CephInC
