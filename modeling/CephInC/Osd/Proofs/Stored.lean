/-
Does the acknowledgement of a write tell if the bytes are stored?

What `pwrite` returns is narrowed twice, to the `int` that
`io_write_object` compares and returns, and to the `int8_t` of the
acknowledgement; and `0` and `1` say success there. `ReadsOk` are the
counts that come out as one of them (`narrow_readsOk`).
-/
import CephInC.Osd.OsdMsgProcess

namespace CephInC

/-- What `open`, `pwrite` and `close` can return for so many bytes. -/
structure IoOutcome.Possible (io : IoOutcome) (length : Int64) : Prop where
  oidFd : io.oidFd ≥ -1
  written : -1 ≤ io.written ∧ io.written ≤ length
  closed : io.closed = 0 ∨ io.closed = -1

/-- All bytes are stored, and `close` succeeds. -/
def IoOutcome.Stored (io : IoOutcome) (length : Int64) : Prop :=
  ¬io.oidFd < 0 ∧ io.written = length ∧ io.closed = 0

/-- There is an acknowledgement, and it says `CCEPH_WRITE_OBJ_ACK_OK`
exactly if the bytes are stored. -/
def TellsStored (req : MsgWriteObjReq) (io : IoOutcome) : Prop :=
  ∃ ret ack, doObjectWriteReq req io = .ok (ret, ack)
    ∧ (ack.result = CCEPH_WRITE_OBJ_ACK_OK ↔ io.Stored req.length)

/-- A count that says success once it is narrowed. -/
def ReadsOk (written : Int64) : Prop :=
  written.toInt % 2 ^ 32 = 0 ∨ written.toInt % 2 ^ 8 = 1

/-- What `io_write_object` says of the calls, if one of them fails. -/
def IoOutcome.line (io : IoOutcome) (logId : Int64) (oid : CString) (length : Int64) :
    Option LogLine :=
  if io.oidFd < 0 then some (openFailedLine logId oid io.oidFd)
  else if io.written.toInt32.toInt64 ≠ length then
    some (writeFailedLine logId oid io.written.toInt32)
  else if io.closed ≠ 0 then some (closeFailedLine logId oid io.oidFd io.closed)
  else none

/-- The lines that print the name fit. -/
def LinesFit (req : MsgWriteObjReq) (oid : CString) (io : IoOutcome) : Prop :=
  (doReqWriteLine req oid).Fits
    ∧ ∀ l ∈ io.line req.header.logId oid req.length, l.Fits

/-- The path of the object, with its terminator, is inside `path`. -/
def PathFits (oid : CString) : Prop := dataDir.length + strlen oid + 1 ≤ maxPathLength

/-- The count does not come out as what it is not: a short one as success;
all of more than 2^31 bytes as a failure, or as success though `close`
fails. -/
def CountTells (length : Int64) (io : IoOutcome) : Prop :=
  if io.written < length then ¬ReadsOk io.written
  else length.toInt < 2 ^ 31 ∨ (ReadsOk length ↔ io.closed = 0)

-- =============================================================== narrowing

/-- The `result` of the acknowledgement. -/
def ackResult (ret : Int32) : Int8 := if ret = 0 then CCEPH_WRITE_OBJ_ACK_OK else ret.toInt8

theorem ackResult_ok {ret : Int32} :
    ackResult ret = CCEPH_WRITE_OBJ_ACK_OK ↔ ret.toInt = 0 ∨ ret.toInt % 2 ^ 8 = 1 := by
  have hok : CCEPH_WRITE_OBJ_ACK_OK.toInt = 1 := rfl
  unfold ackResult
  by_cases hzero : ret = 0
  · rw [if_pos hzero, hzero]
    exact ⟨fun _ => .inl rfl, fun _ => rfl⟩
  · have hne : ret.toInt ≠ 0 := fun h => hzero (Int32.toInt_inj.mp h)
    rw [if_neg hzero, ← Int8.toInt_inj, Int32.toInt_toInt8, hok, Int.bmod_def]
    split <;> omega

theorem narrow_readsOk (written : Int64) :
    ackResult written.toInt32 = CCEPH_WRITE_OBJ_ACK_OK ↔ ReadsOk written := by
  unfold ReadsOk
  rw [ackResult_ok, Int64.toInt_toInt32, Int.bmod_def]
  split <;> omega

/-- The `int` is the length only if all was written. -/
theorem narrow_eq {written length : Int64} (hlow : -1 ≤ written) (hhigh : written ≤ length)
    (hlength : length ≥ 0) :
    written.toInt32.toInt64 = length ↔ written = length ∧ length.toInt < 2 ^ 31 := by
  have h0 : 0 ≤ length.toInt := Int64.le_iff_toInt_le.mp hlength
  have h1 : -1 ≤ written.toInt := Int64.le_iff_toInt_le.mp hlow
  have h2 : written.toInt ≤ length.toInt := Int64.le_iff_toInt_le.mp hhigh
  have hb := int64_bounds length
  rw [← Int64.toInt_inj, ← Int64.toInt_inj, Int32.toInt_toInt64, Int64.toInt_toInt32,
    Int.bmod_def]
  split <;> omega

-- =========================================================== the three calls

/-- A name that the line of the request has room for is no long path. -/
theorem pathFits_of_line {req : MsgWriteObjReq} {oid : CString}
    (h : (doReqWriteLine req oid).Fits) : PathFits oid := by
  have hlen : strlen oid = oid.bytes.length := rfl
  have hdir : dataDir.length = 7 := rfl
  have hroom := h.1
  have hle := (doReqWriteLine req oid).text_le_entry
  have hname : strlen oid ≤ (doReqWriteLine req oid).text.length := by
    unfold doReqWriteLine
    simp only [List.length_append]
    omega
  unfold PathFits
  unfold maxLogEntryLength at hroom
  unfold maxPathLength
  omega

section
variable {logId : Int64} {oid : CString} {length : Int64} {io : IoOutcome}

theorem ioWriteObject_over (h : ¬PathFits oid) :
    ioWriteObject logId oid length io = .error .outOfBounds :=
  if_pos (Nat.not_le.mp h)

/-- What `io_write_object` returns. -/
def IoOutcome.ret (io : IoOutcome) (length : Int64) : Int32 :=
  if io.oidFd < 0 then io.oidFd
  else if io.written.toInt32.toInt64 ≠ length then io.written.toInt32
  else io.closed

/-- Where the path fits, only LOG is between the calls and the code. -/
theorem ioWriteObject_fits (h : PathFits oid) :
    ioWriteObject logId oid length io
      = if ∀ l ∈ io.line logId oid length, l.Fits then .ok (io.ret length)
        else .error .outOfBounds := by
  have hlog : ∀ (l : LogLine) (ret : Int32), (do log l; return ret : Except Fault Int32)
      = if ∀ l' ∈ some l, l'.Fits then .ok ret else .error .outOfBounds := by
    intro l ret
    simp only [Option.mem_def, Option.some.injEq, forall_eq']
    by_cases hfits : l.Fits
    · rw [if_pos hfits, log_fits hfits]
      rfl
    · rw [if_neg hfits, log_over hfits]
      rfl
  unfold ioWriteObject IoOutcome.line IoOutcome.ret
  rw [if_neg (Nat.not_lt.mpr h)]
  by_cases hfd : io.oidFd < 0
  · simp only [if_pos hfd]
    exact hlog _ _
  · simp only [if_neg hfd]
    by_cases hwhole : io.written.toInt32.toInt64 ≠ length
    · simp only [if_pos hwhole]
      exact hlog _ _
    · simp only [if_neg hwhole]
      by_cases hclosed : io.closed ≠ 0
      · simp only [if_pos hclosed]
        exact hlog _ _
      · simp only [if_neg hclosed]
        exact (if_pos fun l hl => by cases hl).symm

end

-- ======================================================= the main result

section
variable {req : MsgWriteObjReq} {oid : CharBlock} {io : IoOutcome}

/-- A request is answered exactly if the lines fit. -/
theorem doObjectWriteReq_eq (hoid : req.oid = some oid) :
    (LinesFit req oid.str io → doObjectWriteReq req io = .ok (io.ret req.length,
        ⟨⟨CCEPH_MSG_OP_WRITE_ACK, req.header.logId⟩, req.clientId, req.reqId,
          ackResult (io.ret req.length)⟩))
      ∧ (¬LinesFit req oid.str io → doObjectWriteReq req io = .error .outOfBounds) := by
  unfold doObjectWriteReq
  rw [hoid]
  constructor
  · intro h
    simp only [if_pos h.1, ioWriteObject_fits (pathFits_of_line h.1), if_pos h.2]
    rfl
  · intro h
    by_cases hline : (doReqWriteLine req oid.str).Fits
    · simp only [if_pos hline, ioWriteObject_fits (pathFits_of_line hline),
        if_neg fun hio => h ⟨hline, hio⟩]
    · simp only [if_neg hline]

theorem tellsStored_iff (hoid : req.oid = some oid) (h : LinesFit req oid.str io) :
    TellsStored req io ↔
      (ackResult (io.ret req.length) = CCEPH_WRITE_OBJ_ACK_OK ↔ io.Stored req.length) := by
  unfold TellsStored
  rw [(doObjectWriteReq_eq hoid).1 h]
  constructor
  · intro htells
    obtain ⟨ret', ack, heq, hresult⟩ := htells
    cases heq
    exact hresult
  · exact fun hresult => ⟨_, _, rfl, hresult⟩

theorem not_tellsStored (hoid : req.oid = some oid) (h : ¬LinesFit req oid.str io) :
    ¬TellsStored req io := by
  intro htells
  obtain ⟨ret, ack, heq, -⟩ := htells
  rw [(doObjectWriteReq_eq hoid).2 h] at heq
  cases heq

/-- The acknowledgement tells if the bytes are stored exactly if LOG has room
for the name, and the object could not be opened or the count tells. -/
theorem doObjectWriteReq_tells (hoid : req.oid = some oid) (hlength : req.length ≥ 0)
    (hio : io.Possible req.length) :
    TellsStored req io
      ↔ LinesFit req oid.str io ∧ (io.oidFd < 0 ∨ CountTells req.length io) := by
  obtain ⟨hlow, hhigh⟩ := hio.written
  by_cases hfits : LinesFit req oid.str io
  swap
  · exact iff_of_false (not_tellsStored hoid hfits) fun h => hfits h.1
  rw [and_iff_right hfits, tellsStored_iff hoid hfits]
  unfold IoOutcome.ret
  by_cases hfd : io.oidFd < 0
  · -- the object is not opened, and the code is that of `open`
    have hopen : ackResult io.oidFd ≠ CCEPH_WRITE_OBJ_ACK_OK := by
      have h1 : -1 ≤ io.oidFd.toInt := Int32.le_iff_toInt_le.mp hio.oidFd
      have h2 : io.oidFd.toInt < 0 := Int32.lt_iff_toInt_lt.mp hfd
      rw [Ne, ackResult_ok]
      omega
    rw [if_pos hfd]
    exact iff_of_true (iff_of_false hopen fun h => h.1 hfd) (.inl hfd)
  rw [or_iff_right hfd, if_neg hfd]
  have heq := narrow_eq hlow hhigh hlength
  by_cases hwhole : io.written.toInt32.toInt64 = req.length
  · -- all of it, and fewer than 2^31 bytes: the code is that of `close`
    obtain ⟨hall, hint⟩ := heq.mp hwhole
    rw [if_neg (not_not_intro hwhole)]
    refine iff_of_true ?_ ?_
    · have hstored : io.Stored req.length ↔ io.closed = 0 :=
        ⟨fun h => h.2.2, fun h => ⟨hfd, hall, h⟩⟩
      rw [hstored]
      rcases hio.closed with hclosed | hclosed <;> rw [hclosed] <;> decide
    · unfold CountTells
      rw [if_neg (by rw [hall]; exact Int64.lt_irrefl)]
      exact .inl hint
  · -- the count itself is the code
    rw [if_pos hwhole, narrow_readsOk]
    unfold CountTells
    by_cases hshort : io.written < req.length
    · rw [if_pos hshort]
      have hnot : ¬io.Stored req.length :=
        fun h => absurd (h.2.1 ▸ hshort) Int64.lt_irrefl
      rw [iff_false_right hnot]
    · have hall : io.written = req.length := Int64.le_antisymm hhigh (Int64.not_lt.mp hshort)
      have hint : ¬req.length.toInt < 2 ^ 31 := fun hint => hwhole (heq.mpr ⟨hall, hint⟩)
      have hstored : io.Stored req.length ↔ io.closed = 0 :=
        ⟨fun h => h.2.2, fun h => ⟨hfd, hall, h⟩⟩
      rw [if_neg hshort, hstored, hall, or_iff_right hint]

end

/-- Two bytes for object `x`. -/
def twoBytes : MsgWriteObjReq :=
  ⟨⟨CCEPH_MSG_OP_WRITE, 7⟩, 0, 1, 0, some (.close [120]), 0, 2, some [1, 2]⟩

theorem doObjectWriteReq_tells_two : TellsStored twoBytes ⟨3, 2, 0⟩ := by
  refine (doObjectWriteReq_tells rfl (by decide) ⟨by decide, by decide, by decide⟩).mpr ⟨?_, ?_⟩
  · unfold LinesFit
    decide
  · exact .inr (.inl (by decide))

/-- `pwrite` stores none of the two bytes, and the acknowledgement says it
did. -/
theorem doObjectWriteReq_none_stored :
    (⟨3, 0, 0⟩ : IoOutcome).Possible twoBytes.length ∧ ¬TellsStored twoBytes ⟨3, 0, 0⟩ := by
  refine ⟨⟨by decide, by decide, by decide⟩, fun h => ?_⟩
  obtain ⟨ret, ack, hrun, htells⟩ := h
  cases hrun
  exact absurd (htells.mp rfl).2.1 (by decide)

end CephInC
