/-
When a failed send is noticed.

One call first: it lands, or slips, or tells a negative code, or reads
past its block (`runCall_lands`, `runCall_slips`, `runCall_fails`). From
these, by induction over the calls, `runCalls` returns zero exactly if
every call lands or slips. `writeMessage_calls` says that
`write_message` is `runCalls` of the calls of its message. What that
makes of the reports of `cceph_messenger_send_msg` is `send_reports`.
-/
import CephInC.Message.Calls
import CephInC.Message.Runs

namespace CephInC

open Lib SendCall

-- ============================================================ one call

theorem sendRet_accepted {bytes : List UInt8} {size count : Nat} {errno : Int32}
    {out : Outbox} (hnext : out.next size = .accepted count errno)
    (hfit : min count size ≤ bytes.length) :
    sendRet bytes size out = .ok ((intOfCount (min count size), errno),
      ⟨out.sent ++ bytes.take (min count size), out.coming.tail⟩) := by
  have hsend : send bytes size out = .ok (((min count size : Nat), errno),
      ⟨out.sent ++ bytes.take (min count size), out.coming.tail⟩) := by
    unfold send
    rw [hnext]
    simp only [if_pos hfit]
  unfold sendRet
  rw [bind_ok hsend]
  show Except.ok (((Int32.ofInt (min count size : Nat)).toInt, errno), _) = _
  rw [Int32.ofInt_eq_ofNat]
  rfl

theorem sendRet_past {bytes : List UInt8} {size count : Nat} {errno : Int32}
    {out : Outbox} (hnext : out.next size = .accepted count errno)
    (hfit : ¬min count size ≤ bytes.length) :
    sendRet bytes size out = .error .outOfBounds := by
  have hsend : send bytes size out = .error .outOfBounds := by
    unfold send
    rw [hnext]
    simp only [if_neg hfit]
  unfold sendRet
  rw [bind_error hsend]

theorem sendRet_failed {bytes : List UInt8} {size : Nat} {errno : Int32}
    {out : Outbox} (hnext : out.next size = .failed errno) :
    sendRet bytes size out
      = .ok ((-1, errno), { out with coming := out.coming.tail }) := by
  have hsend : send bytes size out
      = .ok ((-1, errno), { out with coming := out.coming.tail }) := by
    unfold send
    rw [hnext]
  unfold sendRet
  rw [bind_ok hsend]
  rfl

theorem intOfCount_small {count : Nat} (h : count < 2 ^ 31) :
    intOfCount count = count := Int32.toInt_ofNat_of_lt h

/-- A result that is the size asked for is success. -/
theorem runBlock_ok {bytes : List UInt8} {size : Int} {errno : Int32}
    {line : Option (Int → LogLine)} {out out' : Outbox}
    (hrun : sendRet bytes (sizeT size) out = .ok ((size, errno), out')) :
    runBlock bytes size line out = .ok (0, out') := by
  unfold runBlock
  rw [bind_ok hrun]
  simp only [ne_eq, not_true_eq_false, if_false]
  rfl

theorem sayFailed_fits {line : Option (Int → LogLine)} {code : Int}
    (h : ∀ l ∈ line, (l code).Fits) : sayFailed line code = .ok () := by
  cases line with
  | none => rfl
  | some l => exact log_fits (h l rfl)

theorem sayFailed_over {line : Option (Int → LogLine)} {code : Int}
    (h : ¬∀ l ∈ line, (l code).Fits) : sayFailed line code = .error .outOfBounds := by
  cases line with
  | none => exact absurd (fun l hl => by cases hl) h
  | some l =>
      refine log_over fun hfits => h fun l' hl' => ?_
      cases hl'
      exact hfits

section
variable {bytes : List UInt8} {size ret : Int} {errno : Int32}
variable {line : Option (Int → LogLine)} {out out' : Outbox}

/-- Any other result is told as a negative code, if what LOG says of it
fits. -/
theorem runBlock_fails (hne : ret ≠ size) (hline : ∀ l ∈ line, (l (errNo ret errno)).Fits)
    (hrun : sendRet bytes (sizeT size) out = .ok ((ret, errno), out')) :
    ∃ code, code < 0 ∧ runBlock bytes size line out = .ok (code, out') := by
  have hcode : ∀ errNo : Int, (if errNo < 0 then errNo else -1) < 0 := by
    intro errNo
    split
    · assumption
    · decide
  refine ⟨_, hcode (errNo ret errno), ?_⟩
  unfold runBlock
  rw [bind_ok hrun]
  simp only [if_pos hne, sayFailed_fits hline]
  rfl

theorem runBlock_dies (hne : ret ≠ size) (hline : ¬∀ l ∈ line, (l (errNo ret errno)).Fits)
    (hrun : sendRet bytes (sizeT size) out = .ok ((ret, errno), out')) :
    runBlock bytes size line out = .error .outOfBounds := by
  unfold runBlock
  rw [bind_ok hrun]
  simp only [if_pos hne, sayFailed_over hline]
  rfl

end

theorem runCall_lands {call : SendCall} {out : Outbox}
    (h : call.Lands (out.next call.size)) :
    runCall call out = .ok (0,
      ⟨out.sent ++ call.bytes.take call.size, out.coming.tail⟩) := by
  cases hnext : out.next call.size with
  | failed errno => rw [hnext] at h; exact h.elim
  | accepted count errno =>
      rw [hnext] at h
      obtain ⟨hcount, hfit, hret⟩ := h
      have hmin : min count call.size = call.size := Nat.min_eq_right hcount
      have hrun := sendRet_accepted hnext (by rw [hmin]; exact hfit)
      rw [hmin] at hrun
      cases call with
      | word bytes hfits =>
          have hret : intOfCount bytes.length = (bytes.length : Int) :=
            intOfCount_small hfits
          have hrun : sendRet bytes bytes.length out = _ := hrun
          show runWord bytes out = _
          unfold runWord
          rw [bind_ok hrun]
          simp only [size, hret, ne_eq, not_true_eq_false, if_false]
          rfl
      | block bytes size line =>
          have hret : intOfCount (sizeT size) = size := hret
          simp only [SendCall.size, hret] at hrun
          exact runBlock_ok hrun

/-- A slip is passed over: the code told is not negative. -/
theorem runCall_slips {call : SendCall} {out : Outbox}
    (h : call.Slips (out.next call.size)) :
    ∃ ret sent, 0 ≤ ret ∧ runCall call out = .ok (ret, ⟨sent, out.coming.tail⟩) := by
  cases call with
  | word bytes hfits =>
      cases hnext : out.next bytes.length with
      | failed errno =>
          rw [SendCall.size, hnext] at h
          exact h.elim
      | accepted count errno =>
          rw [SendCall.size, hnext] at h
          obtain ⟨hshort, hfit, herrno⟩ := h
          have hshort : count < bytes.length := hshort
          have hfit : count ≤ bytes.length := hfit
          have hmin : min count bytes.length = count :=
            Nat.min_eq_left (Nat.le_of_lt hshort)
          have hrun := sendRet_accepted hnext (by rw [hmin]; exact hfit)
          rw [hmin, intOfCount_small (by omega)] at hrun
          have hne : (count : Int) ≠ bytes.length := by omega
          have hpos : ¬(count : Int) < 0 := by omega
          refine ⟨errno.toInt, out.sent ++ bytes.take count, herrno, ?_⟩
          show runWord bytes out = _
          unfold runWord
          rw [bind_ok hrun]
          simp only [if_pos hne, if_neg hpos]
          rfl
  | block bytes size line =>
      cases hnext : out.next (sizeT size) with
      | failed errno =>
          rw [SendCall.size, hnext] at h
          have hsize : size = -1 := h
          subst hsize
          exact ⟨0, _, Int.le_refl 0, runBlock_ok (sendRet_failed hnext)⟩
      | accepted count errno =>
          rw [SendCall.size, hnext] at h
          obtain ⟨hshort, hfit, hret⟩ := h
          have hfit : count ≤ bytes.length := hfit
          have hret : intOfCount count = size := hret
          have hmin : min count (sizeT size) = count :=
            Nat.min_eq_left (Nat.le_of_lt hshort)
          have hrun := sendRet_accepted hnext (by rw [hmin]; exact hfit)
          rw [hmin, hret] at hrun
          exact ⟨0, _, Int.le_refl 0, runBlock_ok hrun⟩

theorem runWord_failed {bytes : List UInt8} {errno : Int32} {out : Outbox}
    (hnext : out.next bytes.length = .failed errno) :
    runWord bytes out = .ok (-1, { out with coming := out.coming.tail }) := by
  have hne : (-1 : Int) ≠ bytes.length := by omega
  unfold runWord
  rw [bind_ok (sendRet_failed hnext)]
  simp only [if_pos hne]
  rfl

/-- A result that neither lands nor slips is not the one the caller of a
block expects. -/
theorem unexpected {bytes : List UInt8} {size : Int} {line : Option (Int → LogLine)}
    {count : Nat} {errno : Int32}
    (hland : ¬(block bytes size line).Lands (.accepted count errno))
    (hslip : ¬(block bytes size line).Slips (.accepted count errno))
    (hfit : min count (sizeT size) ≤ bytes.length) :
    intOfCount (min count (sizeT size)) ≠ size := by
  intro hret
  rcases Nat.lt_or_ge count (sizeT size) with hlt | hge
  · rw [Nat.min_eq_left (Nat.le_of_lt hlt)] at hret hfit
    exact hslip ⟨hlt, hfit, hret⟩
  · rw [Nat.min_eq_right hge] at hret hfit
    exact hland ⟨hge, hfit, hret⟩

/-- Anything else is told, if the call survives. -/
theorem runCall_told {call : SendCall} {out : Outbox}
    (hland : ¬call.Lands (out.next call.size)) (hslip : ¬call.Slips (out.next call.size))
    (hsurvive : call.Survives (out.next call.size)) :
    ∃ ret out', ret < 0 ∧ runCall call out = .ok (ret, out') := by
  cases call with
  | word bytes hfits =>
      cases hnext : out.next bytes.length with
      | failed errno => exact ⟨-1, _, by decide, runWord_failed hnext⟩
      | accepted count errno =>
          rw [SendCall.size, hnext] at hland hslip
          have hshort : count < bytes.length := by
            by_contra hge
            exact hland ⟨Nat.not_lt.mp hge, Nat.le_refl _, trivial⟩
          have hneg : errno.toInt < 0 := by
            by_contra hpos
            exact hslip ⟨hshort, Nat.le_of_lt hshort, Int.not_lt.mp hpos⟩
          have hmin : min count bytes.length = count :=
            Nat.min_eq_left (Nat.le_of_lt hshort)
          have hrun := sendRet_accepted hnext
            (by rw [hmin]; exact Nat.le_of_lt hshort)
          rw [hmin, intOfCount_small (by omega)] at hrun
          have hne : (count : Int) ≠ bytes.length := by omega
          have hpos : ¬(count : Int) < 0 := by omega
          refine ⟨errno.toInt,
            ⟨out.sent ++ bytes.take count, out.coming.tail⟩, hneg, ?_⟩
          show runWord bytes out = _
          unfold runWord
          rw [bind_ok hrun]
          simp only [if_pos hne, if_neg hpos]
          rfl
  | block bytes size line =>
      show ∃ ret out', ret < 0 ∧ runBlock bytes size line out = .ok (ret, out')
      cases hnext : out.next (sizeT size) with
      | failed errno =>
          rw [SendCall.size, hnext] at hslip hsurvive
          have hne : (-1 : Int) ≠ size := fun h => hslip h.symm
          obtain ⟨code, hneg, hrun⟩ := runBlock_fails hne hsurvive (sendRet_failed hnext)
          exact ⟨code, _, hneg, hrun⟩
      | accepted count errno =>
          rw [SendCall.size, hnext] at hland hslip hsurvive
          obtain ⟨hfit, hline⟩ := hsurvive
          obtain ⟨code, hneg, hrun⟩ := runBlock_fails (unexpected hland hslip hfit) hline
            (sendRet_accepted hnext hfit)
          exact ⟨code, _, hneg, hrun⟩

/-- Or else the process ends. -/
theorem runCall_dies {call : SendCall} {out : Outbox}
    (hland : ¬call.Lands (out.next call.size)) (hslip : ¬call.Slips (out.next call.size))
    (hsurvive : ¬call.Survives (out.next call.size)) :
    runCall call out = .error .outOfBounds := by
  cases call with
  | word bytes hfits =>
      cases hnext : out.next bytes.length with
      | failed errno =>
          rw [SendCall.size, hnext] at hsurvive
          exact absurd trivial hsurvive
      | accepted count errno =>
          rw [SendCall.size, hnext] at hsurvive
          exact absurd ⟨Nat.min_le_right _ _, trivial⟩ hsurvive
  | block bytes size line =>
      show runBlock bytes size line out = .error .outOfBounds
      cases hnext : out.next (sizeT size) with
      | failed errno =>
          rw [SendCall.size, hnext] at hslip hsurvive
          have hne : (-1 : Int) ≠ size := fun h => hslip h.symm
          exact runBlock_dies hne hsurvive (sendRet_failed hnext)
      | accepted count errno =>
          rw [SendCall.size, hnext] at hland hslip hsurvive
          by_cases hfit : min count (sizeT size) ≤ bytes.length
          · exact runBlock_dies (unexpected hland hslip hfit)
              (fun hline => hsurvive ⟨hfit, hline⟩) (sendRet_accepted hnext hfit)
          · unfold runBlock
            rw [bind_error (sendRet_past hnext hfit)]

theorem runCall_fails {call : SendCall} {out : Outbox}
    (hland : ¬call.Lands (out.next call.size))
    (hslip : ¬call.Slips (out.next call.size)) :
    (∃ e, runCall call out = .error e)
      ∨ ∃ ret out', ret < 0 ∧ runCall call out = .ok (ret, out') := by
  by_cases hsurvive : call.Survives (out.next call.size)
  · exact .inr (runCall_told hland hslip hsurvive)
  · exact .inl ⟨_, runCall_dies hland hslip hsurvive⟩

/-- The call stays in its block, and its failure is not logged with a
name. -/
def Within : SendCall → Prop
  | word _ _ => True
  | block bytes size line => sizeT size ≤ bytes.length ∧ line = none

/-- Such a call comes back. -/
theorem runCall_within {call : SendCall} (out : Outbox) (h : Within call) :
    ∃ ret out', runCall call out = .ok (ret, out') := by
  by_cases hpass : call.Lands (out.next call.size) ∨ call.Slips (out.next call.size)
  · rcases hpass with hland | hslip
    · exact ⟨0, _, runCall_lands hland⟩
    · obtain ⟨ret, sent, -, hrun⟩ := runCall_slips hslip
      exact ⟨ret, _, hrun⟩
  · rw [not_or] at hpass
    have hsurvive : call.Survives (out.next call.size) := by
      cases call with
      | word bytes hfits =>
          cases out.next (word bytes hfits).size with
          | failed errno => exact trivial
          | accepted count errno => exact ⟨Nat.min_le_right _ _, trivial⟩
      | block bytes size line =>
          obtain ⟨hsize, hnone⟩ := h
          subst hnone
          cases out.next (block bytes size none).size with
          | failed errno => exact fun l hl => by cases hl
          | accepted count errno =>
              exact ⟨Nat.le_trans (Nat.min_le_right _ _) hsize, fun l hl => by cases hl⟩
    obtain ⟨ret, out', -, hrun⟩ := runCall_told hpass.1 hpass.2 hsurvive
    exact ⟨ret, out', hrun⟩

-- =========================================================== many calls

theorem runCalls_cons (call : SendCall) (calls : List SendCall) :
    runCalls (call :: calls) = (do
      let ret ← runCall call
      if ret < 0 then return ret
      runCalls calls) := rfl

/-- Every call lands: zero is told, and the socket has all the bytes. -/
theorem runCalls_land {calls : List SendCall} : ∀ out : Outbox,
    (∀ p ∈ meet calls out.coming, p.1.Lands p.2) →
    runCalls calls out = .ok (0, ⟨out.sent ++ calls.flatMap fun c => c.bytes.take c.size,
      out.coming.drop calls.length⟩) := by
  induction calls with
  | nil =>
      intro out _
      show Except.ok (0, out) = _
      simp
  | cons call calls ih =>
      intro out h
      have hhead : call.Lands (out.next call.size) := h _ List.mem_cons_self
      have hrun := runCall_lands hhead
      have hrest := ih ⟨out.sent ++ call.bytes.take call.size, out.coming.tail⟩
        fun p hp => h p (List.mem_cons_of_mem _ hp)
      unfold runCalls
      rw [bind_ok hrun]
      show runCalls calls _ = _
      rw [hrest]
      simp [List.append_assoc]

theorem runCall_passes {call : SendCall} {out : Outbox}
    (h : call.Lands (out.next call.size) ∨ call.Slips (out.next call.size)) :
    ∃ ret sent, 0 ≤ ret ∧ runCall call out = .ok (ret, ⟨sent, out.coming.tail⟩) := by
  rcases h with h | h
  · exact ⟨0, _, Int.le_refl 0, runCall_lands h⟩
  · exact runCall_slips h

/-- Every call lands or slips: zero is told. -/
theorem runCalls_pass {calls : List SendCall} : ∀ out : Outbox,
    (∀ p ∈ meet calls out.coming, p.1.Lands p.2 ∨ p.1.Slips p.2) →
    ∃ out', runCalls calls out = .ok (0, out') := by
  induction calls with
  | nil => exact fun out _ => ⟨out, rfl⟩
  | cons call calls ih =>
      intro out h
      obtain ⟨ret, sent, hpos, hrun⟩ :=
        runCall_passes (h _ List.mem_cons_self)
      obtain ⟨out', hrest⟩ := ih ⟨sent, out.coming.tail⟩
        fun p hp => h p (List.mem_cons_of_mem _ hp)
      refine ⟨out', ?_⟩
      unfold runCalls
      rw [bind_ok hrun]
      simp only [if_neg (Int.not_lt.mpr hpos)]
      exact hrest

/-- One does neither: a negative code is told, or the run ends. -/
theorem runCalls_fail {calls : List SendCall} : ∀ out : Outbox,
    ¬(∀ p ∈ meet calls out.coming, p.1.Lands p.2 ∨ p.1.Slips p.2) →
    (∃ e, runCalls calls out = .error e)
      ∨ ∃ ret out', ret < 0 ∧ runCalls calls out = .ok (ret, out') := by
  induction calls with
  | nil =>
      intro out h
      exact absurd (fun p hp => absurd hp List.not_mem_nil) h
  | cons call calls ih =>
      intro out h
      unfold runCalls
      by_cases hhead : call.Lands (out.next call.size)
          ∨ call.Slips (out.next call.size)
      · obtain ⟨ret, sent, hpos, hrun⟩ := runCall_passes hhead
        rw [bind_ok hrun]
        simp only [if_neg (Int.not_lt.mpr hpos)]
        apply ih ⟨sent, out.coming.tail⟩
        intro hall
        apply h
        intro p hp
        cases hp with
        | head => exact hhead
        | tail _ hp => exact hall p hp
      · rw [not_or] at hhead
        rcases runCall_fails hhead.1 hhead.2 with ⟨e, hrun⟩ | ⟨ret, out', hneg, hrun⟩
        · exact .inl ⟨e, by rw [bind_error hrun]⟩
        · refine .inr ⟨ret, out', hneg, ?_⟩
          rw [bind_ok hrun]
          simp only [if_pos hneg]
          rfl

/-- The first that does neither is told, or the process ends there. -/
theorem runCalls_stop {p : SendCall × SendOutcome} (hstop : ¬(p.1.Lands p.2 ∨ p.1.Slips p.2)) :
    ∀ {calls : List SendCall} {before : List (SendCall × SendOutcome)} {out : Outbox},
    before ++ [p] <+: meet calls out.coming →
    (∀ q ∈ before, q.1.Lands q.2 ∨ q.1.Slips q.2) →
    (p.1.Survives p.2 → ∃ ret out', ret < 0 ∧ runCalls calls out = .ok (ret, out'))
      ∧ (¬p.1.Survives p.2 → runCalls calls out = .error .outOfBounds) := by
  rw [not_or] at hstop
  intro calls
  induction calls with
  | nil =>
      intro before out hprefix _
      simp [meet] at hprefix
  | cons call calls ih =>
      intro before out hprefix hpass
      rw [runCalls_cons]
      cases before with
      | nil =>
          obtain ⟨rfl, -⟩ := List.cons_prefix_cons.mp hprefix
          constructor
          · intro hsurvive
            obtain ⟨ret, out', hneg, hrun⟩ := runCall_told hstop.1 hstop.2 hsurvive
            refine ⟨ret, out', hneg, ?_⟩
            rw [bind_ok hrun]
            simp only [if_pos hneg]
            rfl
          · intro hsurvive
            rw [bind_error (runCall_dies hstop.1 hstop.2 hsurvive)]
      | cons q before =>
          obtain ⟨rfl, hrest⟩ := List.cons_prefix_cons.mp hprefix
          obtain ⟨ret, sent, hpos, hrun⟩ := runCall_passes (hpass _ List.mem_cons_self)
          rw [bind_ok hrun]
          simp only [if_neg (Int.not_lt.mpr hpos)]
          exact @ih before ⟨sent, out.coming.tail⟩ hrest
            fun q hq => hpass q (List.mem_cons_of_mem _ hq)

/-- Is there one that does neither, then there is a first. -/
theorem exists_stop {met : List (SendCall × SendOutcome)}
    (h : ¬∀ p ∈ met, p.1.Lands p.2 ∨ p.1.Slips p.2) :
    ∃ before p, before ++ [p] <+: met ∧ (∀ q ∈ before, q.1.Lands q.2 ∨ q.1.Slips q.2)
      ∧ ¬(p.1.Lands p.2 ∨ p.1.Slips p.2) := by
  induction met with
  | nil => exact absurd (fun p hp => absurd hp List.not_mem_nil) h
  | cons p met ih =>
      by_cases hp : p.1.Lands p.2 ∨ p.1.Slips p.2
      · obtain ⟨before, r, hprefix, hpass, hr⟩ :=
          ih fun hall => h (List.forall_mem_cons.mpr ⟨hp, hall⟩)
        exact ⟨p :: before, r, List.cons_prefix_cons.mpr ⟨rfl, hprefix⟩,
          List.forall_mem_cons.mpr ⟨hp, hpass⟩, hr⟩
      · exact ⟨[], p, List.cons_prefix_cons.mpr ⟨rfl, List.nil_prefix⟩,
          fun q hq => absurd hq List.not_mem_nil, hp⟩

/-- No call reads past its block: the calls come to an end. -/
theorem runCalls_within {calls : List SendCall} : ∀ out : Outbox,
    (∀ call ∈ calls, Within call) →
    ∃ ret out', runCalls calls out = .ok (ret, out') := by
  induction calls with
  | nil => exact fun out _ => ⟨0, out, rfl⟩
  | cons call calls ih =>
      intro out h
      obtain ⟨ret, mid, hrun⟩ := runCall_within out (h call List.mem_cons_self)
      unfold runCalls
      rw [bind_ok hrun]
      by_cases hneg : ret < 0
      · simp only [if_pos hneg]
        exact ⟨ret, mid, rfl⟩
      · simp only [if_neg hneg]
        exact ih mid fun c hc => h c (List.mem_cons_of_mem call hc)

theorem runCalls_nonpos {calls : List SendCall} {out out' : Outbox} {ret : Int}
    (h : runCalls calls out = .ok (ret, out')) : ret ≤ 0 := by
  by_cases hall : ∀ p ∈ meet calls out.coming, p.1.Lands p.2 ∨ p.1.Slips p.2
  · obtain ⟨mid, hrun⟩ := runCalls_pass out hall
    rw [hrun] at h
    cases h
    exact Int.le_refl 0
  · rcases runCalls_fail out hall with ⟨e, hrun⟩ | ⟨code, mid, hneg, hrun⟩
    · rw [hrun] at h
      cases h
    · rw [hrun] at h
      cases h
      exact Int.le_of_lt hneg

theorem runCalls_append (xs ys : List SendCall) :
    runCalls (xs ++ ys) = (do
      let ret ← runCalls xs
      if ret < 0 then return ret
      runCalls ys) := by
  induction xs with
  | nil =>
      show runCalls ys = (pure 0 >>= _)
      rw [pure_bind]
      rfl
  | cons call xs ih =>
      show runCalls (call :: (xs ++ ys)) = _
      rw [runCalls_cons, runCalls_cons, ih, bind_assoc]
      congr 1
      funext ret
      by_cases hneg : ret < 0
      · simp only [if_pos hneg, pure_bind]
      · simp only [if_neg hneg]

-- ============================================================ a message

theorem sendInt8_call (value : Int8) : sendInt8 value = runCall (int8Call value) := by
  show sendInt8 value = runBlock (int8Codec.bytes value) 1 none
  unfold sendInt8 runBlock
  have hcode : ∀ errNo : Int,
      (if errNo ≥ 0 then -1 else errNo) = (if errNo < 0 then errNo else -1) := by
    intro errNo
    split <;> split <;> omega
  simp only [hcode]
  rfl

theorem sendInt_call {α : Type} (c : Codec α) (hc : c.size < 2 ^ 31) (value : α) :
    sendInt c value = runCall (intCall c hc value) := by
  show sendInt c value = runWord (c.bytes value)
  unfold sendInt runWord
  rw [c.bytes_length]

/-- A block and what follows it, as the senders of two fields have it. -/
theorem runBlock_then (bytes : List UInt8) (size : Int) (line : Option (Int → LogLine))
    (rest : Prog Outbox Int) :
    (do
      let (ret, errno) ← sendRet bytes (sizeT size)
      if ret ≠ size then
        let errNo := if ret < 0 then ret else errno.toInt
        lift (sayFailed line errNo)
        return (if errNo < 0 then errNo else -1)
      rest) = (do
      let ret ← runBlock bytes size line
      if ret < 0 then return ret
      rest) := by
  unfold runBlock
  rw [bind_assoc]
  congr 1
  funext ⟨ret, errno⟩
  have hcode : ∀ errNo : Int, (if errNo < 0 then errNo else -1) < 0 := by
    intro errNo
    split
    · assumption
    · decide
  by_cases hne : ret ≠ size
  · simp only [if_pos hne, bind_assoc, pure_bind, if_pos (hcode _)]
    rfl
  · simp only [if_neg hne, pure_bind]
    rfl

/-- The senders of two fields. -/
theorem runCalls_blocks (count bytes : List UInt8) (countSize size : Int)
    (countLine line : Option (Int → LogLine)) :
    (do
      let (ret, errno) ← sendRet count (sizeT countSize)
      if ret ≠ countSize then
        let errNo := if ret < 0 then ret else errno.toInt
        lift (sayFailed countLine errNo)
        return (if errNo < 0 then errNo else -1)
      let (ret, errno) ← sendRet bytes (sizeT size)
      if ret ≠ size then
        let errNo := if ret < 0 then ret else errno.toInt
        lift (sayFailed line errNo)
        return (if errNo < 0 then errNo else -1)
      return 0) = runCalls [.block count countSize countLine, .block bytes size line] := by
  have hlast : _ = runCalls [.block bytes size line] := runBlock_then bytes size line (pure 0)
  refine Eq.trans ?_ (runBlock_then count countSize countLine
    (runCalls [.block bytes size line]))
  rw [← hlast]

theorem sendString_calls (logId : Int64) (string : CharBlock) :
    sendString logId string = runCalls (stringCalls logId string) :=
  runCalls_blocks (int16Codec.bytes (Int16.ofNat (strlen string.str))) string.bytes 2 _
    (some (sendStringLine logId 57 string.str)) (some (sendStringLine logId 63 string.str))

theorem sendData_calls (length : Int64) (data : List UInt8) :
    sendData length data = runCalls (dataCalls length data) :=
  runCalls_blocks (int64Codec.bytes length) data 8 _ none none

theorem msgHeaderSend_calls (header : MsgHeader) :
    msgHeaderSend header = runCalls (headerCalls header) := by
  unfold msgHeaderSend sendInt64
  rw [sendInt8_call, sendInt_call int64Codec (by decide)]
  rfl

theorem msgWriteObjAckSend_calls (ack : MsgWriteObjAck) :
    msgWriteObjAckSend ack = runCalls [int32Call ack.clientId, int64Call ack.reqId,
      int8Call ack.result] := by
  unfold msgWriteObjAckSend sendInt32 sendInt64
  rw [sendInt8_call, sendInt_call int32Codec (by decide),
    sendInt_call int64Codec (by decide)]
  rfl

theorem msgWriteObjReqSend_calls {req : MsgWriteObjReq} {oid : CharBlock}
    {data : List UInt8} (hoid : req.oid = some oid) (hdata : req.data = some data) :
    msgWriteObjReqSend req = runCalls ([int32Call req.clientId, int64Call req.reqId]
      ++ stringCalls req.header.logId oid ++ [int64Call req.offset]
      ++ dataCalls req.length data) := by
  have hlast : (do
        let ret ← runCalls (dataCalls req.length data)
        if ret < 0 then return ret
        return 0) = runCalls (dataCalls req.length data) := by
    have h := runCalls_append (dataCalls req.length data) []
    rw [List.append_nil] at h
    exact h.symm
  unfold msgWriteObjReqSend sendInt32 sendInt64
  rw [hoid, hdata, List.append_assoc, List.append_assoc]
  simp only [sendInt_call int32Codec (by decide), sendInt_call int64Codec (by decide),
    sendString_calls, sendData_calls, hlast]
  rw [List.cons_append, List.cons_append, List.nil_append, runCalls_cons,
    runCalls_cons, runCalls_append, List.cons_append, List.nil_append, runCalls_cons]
  rfl

-- ===================================================== writeMessage is its calls

/-- Nothing is positive, so that not zero is as good as negative. -/
theorem runCalls_ne_zero {α : Type} (calls : List SendCall) (out : Outbox)
    (stop rest : Int → Prog Outbox α) :
    (runCalls calls >>= fun ret => if ret ≠ 0 then stop ret else rest ret) out
      = (runCalls calls >>= fun ret => if ret < 0 then stop ret else rest ret) out := by
  cases hrun : runCalls calls out with
  | error e => rw [bind_error hrun, bind_error hrun]
  | ok r =>
      obtain ⟨ret, out'⟩ := r
      have hret := runCalls_nonpos hrun
      rw [bind_ok hrun, bind_ok hrun]
      by_cases hneg : ret < 0
      · simp only [if_pos hneg, if_pos (Int.ne_of_lt hneg)]
      · have hzero : ¬ret ≠ 0 := by omega
        simp only [if_neg hneg, if_neg hzero]

/-- The header and the fields, as `write_message` joins them. -/
theorem runCalls_both (xs ys : List SendCall) (out : Outbox) :
    (do
      let ret ← runCalls xs
      if ret ≠ 0 then return ret
      let ret ← runCalls ys
      if ret ≠ 0 then return ret
      return 0 : Prog Outbox Int) out = runCalls (xs ++ ys) out := by
  have hlast : ∀ out, (runCalls ys >>= fun ret =>
      if ret ≠ 0 then pure ret else pure 0) out = runCalls ys out := by
    intro out
    have happ := runCalls_append ys []
    rw [List.append_nil] at happ
    refine (runCalls_ne_zero ys out pure fun _ => pure 0).trans ?_
    exact congrFun happ.symm out
  rw [runCalls_append]
  refine (runCalls_ne_zero xs out pure _).trans ?_
  rw [bind_run, bind_run]
  cases hrun : runCalls xs out with
  | error e => rfl
  | ok r =>
      obtain ⟨ret, out'⟩ := r
      by_cases hneg : ret < 0
      · simp only [if_pos hneg]
      · simp only [if_neg hneg]
        exact hlast out'

theorem writeMessage_calls {msg : Msg} (h : Sendable msg) (out : Outbox) :
    writeMessage msg out = runCalls (messageCalls msg) out := by
  cases msg with
  | writeObjReq req =>
      obtain ⟨hop, hoid, hdata⟩ := h
      obtain ⟨oid, hoid⟩ := Option.isSome_iff_exists.mp hoid
      obtain ⟨data, hdata⟩ := Option.isSome_iff_exists.mp hdata
      have hcalls : messageCalls (.writeObjReq req) = headerCalls req.header
          ++ ([int32Call req.clientId, int64Call req.reqId] ++ stringCalls req.header.logId oid
            ++ [int64Call req.offset] ++ dataCalls req.length data) := by
        simp only [messageCalls, hoid, hdata, Option.elim, List.append_assoc]
      rw [hcalls, ← runCalls_both, ← msgHeaderSend_calls,
        ← msgWriteObjReqSend_calls hoid hdata]
      have hop : (Msg.writeObjReq req).header.op = CCEPH_MSG_OP_WRITE := hop
      unfold writeMessage
      simp only [if_pos hop]
      rfl
  | writeObjAck ack =>
      have hop : (Msg.writeObjAck ack).header.op = CCEPH_MSG_OP_WRITE_ACK := h
      have hne : (Msg.writeObjAck ack).header.op ≠ CCEPH_MSG_OP_WRITE := by
        rw [hop]
        decide
      unfold messageCalls
      rw [← runCalls_both, ← msgHeaderSend_calls, ← msgWriteObjAckSend_calls]
      unfold writeMessage
      simp only [if_neg hne, if_pos hop]
      rfl

/-- `write_message` makes its calls, whatever the message. -/
theorem writeMessage_writeCalls {msg : Msg} {calls : List SendCall} {last : Int}
    (h : writeCalls msg = some (calls, last)) (out : Outbox) :
    writeMessage msg out = (do
      let ret ← runCalls calls
      if ret ≠ 0 then return ret
      return last : Prog Outbox Int) out := by
  have hzero : ∀ calls, runCalls calls out = (do
      let ret ← runCalls calls
      if ret ≠ 0 then return ret
      return 0 : Prog Outbox Int) out := by
    intro calls
    rw [← List.append_nil calls]
    exact (runCalls_both calls [] out).symm.trans (by rw [List.append_nil]; rfl)
  unfold writeCalls at h
  by_cases hwrite : msg.header.op = CCEPH_MSG_OP_WRITE
  · rw [if_pos hwrite] at h
    cases msg with
    | writeObjReq req =>
        simp only [Option.ite_none_right_eq_some] at h
        obtain ⟨hthere, h⟩ := h
        cases h
        have hsend : Sendable (.writeObjReq req) := ⟨hwrite, hthere⟩
        rw [writeMessage_calls hsend]
        exact hzero _
    | writeObjAck ack => cases h
  · rw [if_neg hwrite] at h
    by_cases hack : msg.header.op = CCEPH_MSG_OP_WRITE_ACK
    · rw [if_pos hack] at h
      cases msg with
      | writeObjReq req =>
          cases h
          -- the request is read as an acknowledgement
          let ack : Msg := .writeObjAck ⟨req.header, req.clientId, req.reqId,
            (req.oidSize.toUInt16.toUInt8).toInt8⟩
          have hsend : Sendable ack := hack
          have hwrite' : ¬ack.header.op = CCEPH_MSG_OP_WRITE := hwrite
          have hack' : ack.header.op = CCEPH_MSG_OP_WRITE_ACK := hack
          have hsame : writeMessage (.writeObjReq req) = writeMessage ack := by
            unfold writeMessage
            simp only [if_neg hwrite, if_pos hack, if_neg hwrite', if_pos hack']
            rfl
          rw [hsame, writeMessage_calls hsend]
          exact hzero _
      | writeObjAck ack =>
          cases h
          have hsend : Sendable (.writeObjAck ack) := hack
          rw [writeMessage_calls hsend]
          exact hzero _
    · rw [if_neg hack] at h
      unfold writeMessage
      rw [msgHeaderSend_calls]
      simp only [if_neg hwrite, if_neg hack]
      by_cases hread : msg.header.op = CCEPH_MSG_OP_READ
      · rw [if_pos (.inl hread)] at h
        cases h
        simp only [if_pos hread]
        rfl
      · by_cases hreadAck : msg.header.op = CCEPH_MSG_OP_READ_ACK
        · rw [if_pos (.inr hreadAck)] at h
          cases h
          simp only [if_neg hread, if_pos hreadAck]
          rfl
        · rw [if_neg (not_or.mpr ⟨hread, hreadAck⟩)] at h
          cases h
          simp only [if_neg hread, if_neg hreadAck]
          rfl

-- ========================================================= the encoding

theorem CharBlock.take_strlen (block : CharBlock) :
    block.bytes.take (strlen block.str) = block.str.bytes :=
  (List.prefix_iff_eq_take.mp (List.takeWhile_prefix _)).symm

theorem int8Call_bytes (value : Int8) :
    (int8Call value).bytes.take (int8Call value).size = int8Codec.bytes value :=
  List.take_of_length_le (Nat.le_of_eq (int8Codec.bytes_length value))

theorem intCall_bytes {α : Type} (c : Codec α) (hc : c.size < 2 ^ 31) (value : α) :
    (intCall c hc value).bytes.take (intCall c hc value).size = c.bytes value :=
  List.take_length

theorem stringCalls_bytes {string : CharBlock} (logId : Int64)
    (h : strlen string.str < 2 ^ 15) :
    (stringCalls logId string).flatMap (fun c => c.bytes.take c.size)
      = int16Codec.bytes (Int16.ofNat (strlen string.str)) ++ string.str.bytes := by
  have hlen : (Int16.ofNat (strlen string.str)).toInt = strlen string.str :=
    Int16.toInt_ofNat_of_lt h
  have hsize : sizeT (strlen string.str : Int) = strlen string.str := by
    rw [sizeT_of_nonneg (by omega) (by omega), Int.toNat_natCast]
  unfold stringCalls
  simp only [List.flatMap_cons, List.flatMap_nil, List.append_nil, SendCall.bytes,
    SendCall.size, hlen, hsize, string.take_strlen]
  rfl

theorem dataCalls_bytes {length : Int64} (data : List UInt8) (h : 0 ≤ length.toInt) :
    (dataCalls length data).flatMap (fun c => c.bytes.take c.size)
      = int64Codec.bytes length ++ data.take length.toInt.toNat := by
  have hlt := length.toInt_lt
  have hsize : sizeT length.toInt = length.toInt.toNat :=
    sizeT_of_nonneg h (by omega)
  unfold dataCalls
  simp only [List.flatMap_cons, List.flatMap_nil, List.append_nil, SendCall.bytes,
    SendCall.size, hsize]
  rfl

/-- What the calls of a message ask for is its encoding. -/
theorem messageCalls_bytes {msg : Msg} {bs : List UInt8}
    (hbs : msgEncoding msg = some bs) :
    (messageCalls msg).flatMap (fun c => c.bytes.take c.size) = bs := by
  cases msg with
  | writeObjReq req =>
      unfold msgEncoding at hbs
      cases hoid : req.oid with
      | none =>
          simp only [hoid] at hbs
          cases hbs
      | some oid =>
          cases hdata : req.data with
          | none =>
              simp only [hoid, hdata] at hbs
              cases hbs
          | some data =>
              simp only [hoid, hdata] at hbs
              split at hbs
              · rename_i hfits
                cases hbs
                simp only [messageCalls, headerCalls, hoid, hdata, Option.elim,
                  List.flatMap_append, List.flatMap_cons, List.flatMap_nil,
                  List.append_nil, stringCalls_bytes _ hfits.1,
                  dataCalls_bytes data hfits.2.1, int8Call_bytes, int32Call, int64Call,
                  intCall_bytes, List.append_assoc]
              · cases hbs
  | writeObjAck ack =>
      cases hbs
      simp only [messageCalls, headerCalls, List.flatMap_append, List.flatMap_cons,
        List.flatMap_nil, List.append_nil, int8Call_bytes, int32Call, int64Call,
        intCall_bytes, List.append_assoc]

-- ======================================================= the main result

theorem lands_whole {call : SendCall} {outcome : SendOutcome}
    (h : call.Lands outcome) : call.Whole outcome := by
  cases outcome with
  | failed errno => exact h.elim
  | accepted count errno => exact h.1

theorem slips_not_whole {call : SendCall} {outcome : SendOutcome}
    (h : call.Slips outcome) : ¬call.Whole outcome := by
  cases outcome with
  | failed errno => exact id
  | accepted count errno => exact Nat.not_le.mpr h.1

theorem find?_replaceF {α : Type} {p : α → Bool} {g : α → α}
    (hg : ∀ a, p (g a) = p a) {l : List α} {a : α} (h : l.find? p = some a) :
    (l.replaceF fun x => if p x then some (g x) else none).find? p = some (g a) := by
  induction l with
  | nil => cases h
  | cons b l ih =>
      rw [List.replaceF_cons]
      cases hb : p b with
      | true =>
          rw [List.find?_cons_of_pos hb] at h
          cases h
          exact List.find?_cons_of_pos (by rw [hg, hb])
      | false =>
          rw [List.find?_cons_of_neg (by simp [hb])] at h
          refine (List.find?_cons_of_neg (by simp [hb])).trans ?_
          exact ih h

theorem getConnById_setState {messenger : Messenger} {id : Int32} {conn : Connection}
    (state : Int32) (h : messengerGetConnById messenger id = some conn) :
    messengerGetConnById (messengerSetState messenger id state) id
      = some { conn with state := state } := by
  have hfind := find?_replaceF (p := fun conn : Connection => conn.id.toInt = id.toInt)
    (g := fun conn => { conn with state := state }) (fun _ => rfl) h
  simp only [decide_eq_true_eq] at hfind
  exact hfind

-- ================================================== noticed, and reported

section
variable {messenger : Messenger} {connId : Int64} {conn : Connection} {msg : Msg}
variable {out : Outbox}

/-- What `cceph_messenger_send_msg` does once `write_message` is done. -/
theorem messengerSendMsg_open
    (hnormal : messenger.state = CCEPH_MESSENGER_STATE_NORMAL)
    (hconn : messengerGetConnById messenger (connIdToInt connId) = some conn)
    (hopen : conn.state ≠ CCEPH_CONN_STATE_CLOSED) :
    messengerSendMsg messenger connId msg = (do
      if (← writeMessage msg) ≠ 0 then
        return (CCEPH_ERR_WRITE_CONN_ERR, (messengerCloseConn
          (messengerSetState messenger (connIdToInt connId) CCEPH_CONN_STATE_CLOSED)
          connId).2)
      return (0, messenger)) := by
  unfold messengerSendMsg
  rw [assert_pos hnormal, pure_bind, hconn]
  simp only [if_neg hopen]

theorem closeConn_closed {id : Int64}
    (h : messengerGetConnById messenger (connIdToInt id) = some conn) :
    conn ∈ (messengerCloseConn messenger id).2.closed := by
  unfold messengerCloseConn
  rw [h]
  exact List.mem_cons_self

/-- A failed `write_message` is reported, and the connection closed. -/
theorem messengerSendMsg_fails {ret : Int} {out' : Outbox}
    (hnormal : messenger.state = CCEPH_MESSENGER_STATE_NORMAL)
    (hconn : messengerGetConnById messenger (connIdToInt connId) = some conn)
    (hopen : conn.state ≠ CCEPH_CONN_STATE_CLOSED)
    (hwrite : writeMessage msg out = .ok (ret, out')) (hret : ret ≠ 0) :
    ∃ messenger', messengerSendMsg messenger connId msg out
        = .ok ((CCEPH_ERR_WRITE_CONN_ERR, messenger'), out')
      ∧ { conn with state := CCEPH_CONN_STATE_CLOSED } ∈ messenger'.closed := by
  refine ⟨_, ?_, closeConn_closed (getConnById_setState CCEPH_CONN_STATE_CLOSED hconn)⟩
  rw [messengerSendMsg_open hnormal hconn hopen, bind_ok hwrite]
  simp only [if_pos hret]
  rfl

end

section
variable {msg : Msg} {out : Outbox} {before before' : List (SendCall × SendOutcome)}
variable {p q : SendCall × SendOutcome}

/-- What was made before the last. -/
theorem Made.earlier (h : Made msg out before p) (hq : q ∈ before ++ [p]) :
    ∃ earlier, Made msg out earlier q := by
  obtain ⟨earlier, later, heq⟩ := List.append_of_mem hq
  have hto : earlier ++ [q] <+: before ++ [p] := ⟨later, by simp [heq]⟩
  refine ⟨earlier, hto.trans h.1, fun r hr => h.2 r ?_⟩
  have hsub : earlier <+: before := by
    rcases List.prefix_concat_iff.mp hto with hall | hpart
    · exact (List.append_inj' hall rfl).1 ▸ List.prefix_rfl
    · exact (List.prefix_append earlier [q]).trans hpart
  exact hsub.subset hr

/-- Nothing is made behind the first that does neither. -/
theorem Made.mem_stop (h : Made msg out before p) (h' : Made msg out before' q)
    (hstop : ¬(q.1.Lands q.2 ∨ q.1.Slips q.2)) : p ∈ before' ++ [q] := by
  rcases List.prefix_or_prefix_of_prefix h.1 h'.1 with hle | hle
  · exact hle.subset (List.mem_append_right before List.mem_cons_self)
  · rcases List.prefix_concat_iff.mp hle with heq | hle
    · rw [heq]
      exact List.mem_append_right before List.mem_cons_self
    · exact absurd (h.2 q (hle.subset (List.mem_append_right before' List.mem_cons_self))) hstop

end

/-- Exactly when is a short or failed `send` of a message told to its
sender? -/
theorem send_reports {messenger : Messenger} {connId : Int64} {conn : Connection}
    {msg : Msg} {out : Outbox}
    (hnormal : messenger.state = CCEPH_MESSENGER_STATE_NORMAL)
    (hconn : messengerGetConnById messenger (connIdToInt connId) = some conn)
    (hopen : conn.state ≠ CCEPH_CONN_STATE_CLOSED) (hmsg : Sendable msg) :
    WriteReports msg out ∧ SendReports messenger connId conn msg out
      ↔ Noticed msg out := by
  have hsend : ∀ {e}, writeMessage msg out = .error e →
      messengerSendMsg messenger connId msg out = .error e := by
    intro e hrun
    rw [messengerSendMsg_open hnormal hconn hopen, bind_error hrun]
  constructor
  · intro h
    constructor
    · intro hall
      obtain ⟨out', hrun⟩ := runCalls_pass out hall
      rw [← writeMessage_calls hmsg] at hrun
      obtain ⟨bs, hbs, -⟩ := h.1 out' hrun
      refine ⟨?_, by rw [hbs]; rfl⟩
      intro p hp hslips
      obtain ⟨before, after, heq⟩ := List.append_of_mem hp
      have hmade : Made msg out before p := by
        refine ⟨⟨after, by simp [heq]⟩, fun q hq => hall q ?_⟩
        rw [heq]
        exact List.mem_append_left _ hq
      obtain ⟨messenger', out'', hfail, -⟩ := h.2 before p hmade (slips_not_whole hslips)
      rw [messengerSendMsg_open hnormal hconn hopen, bind_ok hrun] at hfail
      cases hfail
    · intro before p hmade hstop hshort
      by_contra hsurvive
      have hrun := (runCalls_stop hstop hmade.1 hmade.2).2 hsurvive
      rw [← writeMessage_calls hmsg] at hrun
      obtain ⟨q, hq, hnot⟩ := hshort
      obtain ⟨earlier, hmade'⟩ := hmade.earlier hq
      obtain ⟨messenger', out', hfail, -⟩ := h.2 earlier q hmade' hnot
      rw [hsend hrun] at hfail
      cases hfail
  · intro h
    -- what passes unnoticed has landed
    have hland : (∀ p ∈ meet (messageCalls msg) out.coming,
          p.1.Lands p.2 ∨ p.1.Slips p.2) →
        ∀ p ∈ meet (messageCalls msg) out.coming, p.1.Lands p.2 := by
      intro hall p hp
      rcases hall p hp with hlands | hslips
      · exact hlands
      · exact absurd hslips ((h.slips hall).1 p hp)
    constructor
    · intro out' hwrite
      rw [writeMessage_calls hmsg] at hwrite
      by_cases hall : ∀ p ∈ meet (messageCalls msg) out.coming,
          p.1.Lands p.2 ∨ p.1.Slips p.2
      · obtain ⟨bs, hbs⟩ := Option.isSome_iff_exists.mp (h.slips hall).2
        have hrun := runCalls_land out (hland hall)
        rw [hrun, messageCalls_bytes hbs] at hwrite
        cases hwrite
        exact ⟨bs, hbs, rfl⟩
      · rcases runCalls_fail out hall with ⟨e, hrun⟩ | ⟨code, mid, hneg, hrun⟩
        · rw [hrun] at hwrite
          cases hwrite
        · rw [hrun] at hwrite
          cases hwrite
          exact absurd hneg (by decide)
    · intro before p hmade hshort
      have hp : p ∈ meet (messageCalls msg) out.coming :=
        hmade.1.subset (List.mem_append_right before List.mem_cons_self)
      have hall : ¬∀ p ∈ meet (messageCalls msg) out.coming,
          p.1.Lands p.2 ∨ p.1.Slips p.2 :=
        fun hall => hshort (lands_whole (hland hall p hp))
      obtain ⟨before', q, hmade', hpass', hstop⟩ := exists_stop hall
      have hq : Made msg out before' q := ⟨hmade', hpass'⟩
      have hsurvive := h.survives before' q hq hstop ⟨p, hmade.mem_stop hq hstop, hshort⟩
      obtain ⟨code, mid, hneg, hrun⟩ := (runCalls_stop hstop hq.1 hq.2).1 hsurvive
      rw [← writeMessage_calls hmsg] at hrun
      obtain ⟨closed, hsent, hclosed⟩ :=
        messengerSendMsg_fails hnormal hconn hopen hrun (Int.ne_of_lt hneg)
      exact ⟨closed, mid, hsent, hclosed⟩

/-- One byte for object `x`. -/
def shortReq : MsgWriteObjReq :=
  ⟨⟨CCEPH_MSG_OP_WRITE, 7⟩, 0, 1, 0, some (.close [120]), 0, 1, some [9]⟩

/-- The socket takes all up to the name, and nothing of the name. -/
def shortName : Outbox :=
  ⟨[], [.accepted 1 0, .accepted 8 0, .accepted 4 0, .accepted 8 0, .accepted 2 0,
    .accepted 0 32]⟩

theorem send_reports_name :
    WriteReports (.writeObjReq shortReq) shortName
      ∧ SendReports firstMessenger 2 firstConn (.writeObjReq shortReq) shortName := by
  have hreq : Sendable (.writeObjReq shortReq) := ⟨rfl, rfl, rfl⟩
  refine (send_reports rfl rfl (by decide) hreq).mpr ⟨?_, ?_⟩
  · -- the name is not taken for sent
    intro hall
    have hmem : (block [120, 0] 1 (some (sendStringLine 7 63 (CharBlock.close [120]).str)),
        SendOutcome.accepted 0 32)
        ∈ meet (messageCalls (.writeObjReq shortReq)) shortName.coming :=
      List.mem_of_getElem? (i := 5) rfl
    rcases hall _ hmem with hlands | hslips
    · exact absurd hlands.1 (by decide)
    · exact absurd hslips.2.2 (by decide)
  · intro before p hmade _ _
    have hall : ∀ p ∈ meet (messageCalls (.writeObjReq shortReq)) shortName.coming,
        p.1.Survives p.2 := by decide
    exact hall p (hmade.1.subset (List.mem_append_right before List.mem_cons_self))

/-- The header goes out whole, and two of the four bytes of the client. -/
def shortClientId : Outbox := ⟨[], [.accepted 1 0, .accepted 8 0, .accepted 2 0]⟩

/-- `write_message` returns zero with 20 of the 22 bytes accepted, and the
connection stays open. -/
theorem send_not_reported :
    ¬WriteReports (.writeObjAck firstAck) shortClientId
      ∧ ¬SendReports firstMessenger 2 firstConn (.writeObjAck firstAck)
        shortClientId := by
  constructor
  · intro h
    obtain ⟨bs, hbs, hsent⟩ := h _ rfl
    cases hbs
    exact absurd hsent (by decide)
  · intro h
    let before : List (SendCall × SendOutcome) :=
      [(int8Call CCEPH_MSG_OP_WRITE_ACK, .accepted 1 0), (int64Call 7, .accepted 8 0)]
    have hmade : Made (.writeObjAck firstAck) shortClientId before
        (int32Call 0, .accepted 2 0) := by
      refine ⟨⟨_, rfl⟩, fun q hq => .inl ?_⟩
      simp only [before, List.mem_cons, List.not_mem_nil, or_false] at hq
      rcases hq with rfl | rfl
      · exact ⟨by decide, by decide, rfl⟩
      · exact ⟨by decide, by decide, trivial⟩
    obtain ⟨messenger', out', hsent, -⟩ := h before _ hmade (by unfold Whole; decide)
    cases hsent

end CephInC
