/-
What an acknowledgement is counted for, and who hears of it.

The loop of `do_object_write_ack` counts the right entry up
(`ackLoop_spec`), but the test after it looks at `wait_req`, which is
where the loop stopped. With the duplicate check on, that is the end of
the list (`ackLoop_last`), so an entry that has enough is passed over
unless the last entry is it, or has enough as well.
-/
import CephInC.Client.Proofs.WaitList

namespace CephInC

/-- The write requests that are waited for have different numbers. -/
def NumbersApart (ws : List WaitReq) : Prop :=
  ws.Pairwise fun w w' => w.req.header.op = CCEPH_MSG_OP_WRITE →
    w'.req.header.op = CCEPH_MSG_OP_WRITE → w.req.reqId ≠ w'.req.reqId

/-- The acknowledgement is counted for the write request with its number,
and for nothing else; if that has enough now, there is a signal. -/
structure AckServed (check : Bool) (client : Client) (ack : MsgWriteObjAck) : Prop where
  ret : (doObjectWriteAck check client ack).1 = CCEPH_OK
  counted : (doObjectWriteAck check client ack).2.1 = { client with
    waitReqList := client.waitReqList.map fun w =>
      if w.answers ack.reqId then w.acked else w }
  signalled : ∀ w ∈ client.waitReqList, w.answers ack.reqId = true →
    w.acked.enough = true → (doObjectWriteAck check client ack).2.2 = true

/-- The request is the last of the list, or the last has enough itself. -/
def SeenAtEnd (ws : List WaitReq) (w : WaitReq) : Prop :=
  ∃ last, ws.getLast? = some last ∧ (last = w ∨ last.enough = true)

-- ================================================================ the list

theorem acked_none {reqId : Int64} {ws : List WaitReq}
    (h : ∀ w ∈ ws, w.answers reqId = false) :
    ws.map (fun w => if w.answers reqId then w.acked else w) = ws := by
  refine (List.map_congr_left fun w hw => ?_).trans (List.map_id ws)
  rw [h w hw]
  rfl

section
variable {pre post : List WaitReq} {w : WaitReq} {reqId : Int64}

/-- One write request has the number. -/
theorem NumbersApart.rest (h : NumbersApart (pre ++ w :: post))
    (hw : w.answers reqId = true) : ∀ w' ∈ post, w'.answers reqId = false := by
  intro w' hw'
  obtain ⟨hop, hid⟩ := WaitReq.answers_iff.mp hw
  have hapart := (List.pairwise_cons.mp (List.pairwise_append.mp h).2.1).1 w' hw' hop
  refine Bool.eq_false_iff.mpr fun hanswers => ?_
  obtain ⟨hop', hid'⟩ := WaitReq.answers_iff.mp hanswers
  exact hapart hop' (hid.trans hid'.symm)

theorem acked_one (hpre : ∀ w' ∈ pre, w'.answers reqId = false) (hw : w.answers reqId = true)
    (hpost : ∀ w' ∈ post, w'.answers reqId = false) :
    (pre ++ w :: post).map (fun w => if w.answers reqId then w.acked else w)
      = pre ++ w.acked :: post := by
  rw [List.map_append, List.map_cons, acked_none hpre, acked_none hpost, if_pos hw]

/-- The one with the number is this one. -/
theorem eq_of_answers (hpre : ∀ w' ∈ pre, w'.answers reqId = false)
    (hpost : ∀ w' ∈ post, w'.answers reqId = false) {w' : WaitReq}
    (hw' : w' ∈ pre ++ w :: post) (h : w'.answers reqId = true) : w' = w := by
  rcases List.mem_append.mp hw' with hmem | hmem
  · rw [hpre w' hmem] at h
    cases h
  · rcases List.mem_cons.mp hmem with heq | hmem
    · exact heq
    · rw [hpost w' hmem] at h
      cases h

/-- Has the last entry enough, once this one is counted up? -/
theorem last_enough (hw : w.answers reqId = true)
    (hpost : ∀ w' ∈ post, w'.answers reqId = false) (hacked : w.acked.enough = true) :
    (pre ++ w.acked :: post).getLast?.any WaitReq.enough = true
      ↔ SeenAtEnd (pre ++ w :: post) w := by
  unfold SeenAtEnd
  rw [List.getLast?_append, List.getLast?_append, List.getLast?_cons, List.getLast?_cons]
  cases hlast : post.getLast? with
  | none => exact ⟨fun _ => ⟨w, rfl, .inl rfl⟩, fun _ => hacked⟩
  | some last =>
      constructor
      · exact fun h => ⟨last, rfl, .inr h⟩
      · intro h
        obtain ⟨_, hlast', heq | henough⟩ := h
        · -- an entry behind this one has another number
          cases hlast'
          have heq : last = w := heq
          rw [← heq, hpost last (List.mem_of_getLast? hlast)] at hw
          cases hw
        · cases hlast'
          exact henough

end

-- ================================================================ the loop

/-- With the check on, the loop stops at the end of the list. -/
theorem ackLoop_last (reqId : Int64) (ws : List WaitReq) :
    ∀ found waitReq, (ackLoop true reqId found waitReq ws).2.2
      = (ackLoop true reqId found waitReq ws).1.getLast?.or waitReq := by
  induction ws with
  | nil => exact fun _ _ => rfl
  | cons w ws ih =>
      have hturn : ∀ (found : Bool) (w' : WaitReq) (waitReq : Option WaitReq),
          (ackLoop true reqId found (some w') ws).2.2
            = (w' :: (ackLoop true reqId found (some w') ws).1).getLast?.or waitReq := by
        intro found w' waitReq
        rw [ih found (some w'), List.getLast?_cons]
        cases (ackLoop true reqId found (some w') ws).1.getLast? <;> rfl
      intro found waitReq
      rw [ackLoop]
      split_ifs with hop hid hfound hcheck
      · exact hturn found w waitReq
      · exact hturn found w waitReq
      · exact hturn found w waitReq
      · cases hcheck
      · exact hturn true w.acked waitReq

-- ======================================================= the main result

/-- An acknowledgement for this client is served exactly if, with the check
on, the request that has enough now is seen at the end of the list. -/
theorem doObjectWriteAck_served {client : Client} {ack : MsgWriteObjAck}
    (hclient : ack.clientId = client.clientId) (happart : NumbersApart client.waitReqList)
    (check : Bool) :
    AckServed check client ack
      ↔ (check = true → ∀ w ∈ client.waitReqList, w.answers ack.reqId = true →
          w.acked.enough = true → SeenAtEnd client.waitReqList w) := by
  have hrun : doObjectWriteAck check client ack
      = (CCEPH_OK,
        { client with waitReqList := (ackLoop check ack.reqId false none client.waitReqList).1 },
        (ackLoop check ack.reqId false none client.waitReqList).2.1
          && (ackLoop check ack.reqId false none client.waitReqList).2.2.any
            WaitReq.enough) := by
    unfold doObjectWriteAck
    rw [if_neg (not_not_intro hclient)]
  cases ackLoop_spec check ack.reqId client.waitReqList none with
  | absent last hloop hnone =>
      have hno : ∀ w ∈ client.waitReqList, ¬w.answers ack.reqId = true :=
        fun w hw => Bool.eq_false_iff.mp (hnone w hw)
      refine ⟨fun _ _ w hw hanswers => absurd hanswers (hno w hw), fun _ => ⟨?_, ?_, ?_⟩⟩
      · rw [hrun]
      · rw [hrun, hloop, acked_none hnone]
      · exact fun w hw hanswers => absurd hanswers (hno w hw)
  | counted pre w post last hws hloop hw hpre hlast =>
      rw [hws] at happart
      have hpost := happart.rest hw
      have hone : ∀ w' ∈ client.waitReqList, w'.answers ack.reqId = true → w' = w := by
        rw [hws]
        exact fun w' hw' => eq_of_answers hpre hpost hw'
      have hmem : w ∈ client.waitReqList := by
        rw [hws]
        exact List.mem_append_right _ List.mem_cons_self
      have hsignal : (doObjectWriteAck check client ack).2.2 = last.any WaitReq.enough := by
        rw [hrun, hloop]
        rfl
      have hserved : AckServed check client ack
          ↔ (w.acked.enough = true → last.any WaitReq.enough = true) := by
        constructor
        · intro h henough
          rw [← hsignal]
          exact h.signalled w hmem hw henough
        · intro h
          refine ⟨by rw [hrun], ?_, ?_⟩
          · rw [hrun, hloop, hws, acked_one hpre hw hpost]
          · intro w' hw' hanswers henough
            obtain rfl := hone w' hw' hanswers
            rw [hsignal]
            exact h henough
      rw [hserved]
      cases check with
      | false =>
          rw [hlast rfl]
          exact ⟨fun _ => nofun, fun _ henough => henough⟩
      | true =>
          have hend : last = (pre ++ w.acked :: post).getLast? := by
            have hrest := ackLoop_last ack.reqId client.waitReqList false none
            rw [hloop, Option.or_none] at hrest
            exact hrest
          constructor
          · intro h _ w' hw' hanswers henough
            obtain rfl := hone w' hw' hanswers
            have hseen := h henough
            rw [hend, last_enough hw hpost henough, ← hws] at hseen
            exact hseen
          · intro h henough
            rw [hend, last_enough hw hpost henough, ← hws]
            exact h rfl w hmem hw henough

/-- Two writes to one OSD each, of numbers 1 and 2; request 2 was added
last, so it comes first. -/
def twoWaiting : Client :=
  let req (reqId : Int64) : Msg :=
    .writeObjReq ⟨⟨CCEPH_MSG_OP_WRITE, 7⟩, 0, reqId, 0, none, 0, 0, none⟩
  { clientInit ⟨0, [], rfl⟩ with
    reqId := 2
    waitReqList := [⟨1, req 2, 0, 0, 1⟩, ⟨0, req 1, 0, 0, 1⟩] }

def writeAck (reqId : Int64) : MsgWriteObjAck :=
  ⟨⟨CCEPH_MSG_OP_WRITE_ACK, 7⟩, 0, reqId, CCEPH_WRITE_OBJ_ACK_OK⟩

theorem twoWaiting_apart : NumbersApart twoWaiting.waitReqList := by
  unfold NumbersApart
  decide

theorem doObjectWriteAck_served_two : AckServed true twoWaiting (writeAck 1) := by
  refine (doObjectWriteAck_served rfl twoWaiting_apart true).mpr fun _ w hw hanswers _ => ?_
  refine ⟨_, rfl, .inl ?_⟩
  rcases List.mem_cons.mp hw with rfl | hw
  · cases hanswers
  · exact (List.mem_singleton.mp hw).symm

/-- Request 2 has the acknowledgement it needs, but request 1 is at the end
of the list. -/
theorem doObjectWriteAck_unseen :
    (writeAck 2).clientId = twoWaiting.clientId ∧ NumbersApart twoWaiting.waitReqList
      ∧ ¬AckServed true twoWaiting (writeAck 2) := by
  refine ⟨rfl, twoWaiting_apart, fun h => ?_⟩
  have hsignal := h.signalled _ List.mem_cons_self (by decide) (by decide)
  exact absurd hsignal (by decide)

end CephInC
