/-
Which write requests arrive if their sender returns zero, and which
senders fail if the name is too long.

A call whose size is -1 takes the failure of `send` for success, and
sends nothing (`runCall_put`). So the sender goes on behind a name whose
length, as an `int16_t`, is not below -1; with one below -1 the process
ends in LOG (`reqSend_dies`). Behind the name only data can be refused
(`reqSend_refuses`), and if nothing is, what has been sent is `reqBytes`.
The reader aborts on a length of -1, and takes a name cut to its length
modulo 2^16 for the whole.
-/
import CephInC.Message.Arrives
import CephInC.Message.Proofs.RoundTrip

namespace CephInC

open Lib SendCall

-- ============================================================== one call

namespace SendCall

/-- The block has as many bytes as the call asks for. -/
def Stocked : SendCall → Prop
  | word _ _ => True
  | block bytes size _ => -2 ^ 63 ≤ size ∧ size < 2 ^ 63 ∧ size ≤ bytes.length

/-- The caller takes the result for success. -/
def Passes : SendCall → Prop
  | word _ _ => True
  | block _ size _ => -1 ≤ size ∧ size < 2 ^ 31

/-- What the socket gets; nothing for a size of -1. -/
def put : SendCall → List UInt8
  | word bytes _ => bytes
  | block bytes size _ => bytes.take size.toNat

/-- A failure is not logged with a name. -/
def Quiet : SendCall → Prop
  | word _ _ => True
  | block _ _ line => line = none

/-- A failure is logged with a name that LOG does not survive. -/
def Deadly : SendCall → Prop
  | word _ _ => False
  | block _ _ line => ∃ l ∈ line, ∀ code, ¬(l code).Fits

end SendCall

section
variable {bytes : List UInt8} {size : Int} {line : Option (Int → LogLine)} {out : Outbox}

theorem runWord_put (hfits : bytes.length < 2 ^ 31)
    (hout : (word bytes hfits).Whole (out.next bytes.length)) :
    runCall (.word bytes hfits) out = .ok (0, ⟨out.sent ++ bytes, out.coming.tail⟩) := by
  have hrun := runCall_lands (whole_lands (word_exact bytes hfits) hout)
  rw [show (word bytes hfits).bytes.take (word bytes hfits).size = bytes from
    List.take_length] at hrun
  exact hrun

theorem runBlock_put (hlow : 0 ≤ size) (hhigh : size < 2 ^ 31) (hfit : size ≤ bytes.length)
    (hout : (block bytes size line).Whole (out.next (sizeT size))) :
    runCall (.block bytes size line) out
      = .ok (0, ⟨out.sent ++ bytes.take size.toNat, out.coming.tail⟩) := by
  have hrun := runCall_lands (whole_lands (block_exact hlow hhigh hfit) hout)
  have hsize : sizeT size = size.toNat := sizeT_of_nonneg hlow (by omega)
  have htaken : (block bytes size line).bytes.take (block bytes size line).size
      = bytes.take size.toNat := congrArg bytes.take hsize
  rw [htaken] at hrun
  exact hrun

end

theorem runCall_put {call : SendCall} {out : Outbox} (hstock : call.Stocked)
    (hout : if call.size < 2 ^ 63 then call.Whole (out.next call.size)
      else ∃ errno, out.next call.size = .failed errno) (hpass : call.Passes) :
    runCall call out = .ok (0, ⟨out.sent ++ call.put, out.coming.tail⟩) := by
  cases call with
  | word bytes hfits =>
      have hsize : (word bytes hfits).size < 2 ^ 63 := Nat.lt_trans hfits (by decide)
      rw [if_pos hsize] at hout
      exact runWord_put hfits hout
  | block bytes size line =>
      obtain ⟨hlow, hhigh, hfit⟩ := hstock
      obtain ⟨hminus, hcounted⟩ := hpass
      by_cases hneg : size < 0
      · have hsize : ¬(block bytes size line).size < 2 ^ 63 := sizeT_of_neg hneg hlow
        have hone : size = -1 := by omega
        subst hone
        rw [if_neg hsize] at hout
        obtain ⟨errno, hnext⟩ := hout
        rw [show (block bytes (-1) line).put = [] from @List.take_zero _ bytes, List.append_nil]
        exact runBlock_ok (sendRet_failed hnext)
      · have hcount : sizeT size = size.toNat := sizeT_of_nonneg (by omega) (by omega)
        have hsize : (block bytes size line).size < 2 ^ 63 := by
          show sizeT size < 2 ^ 63
          omega
        rw [if_pos hsize] at hout
        exact runBlock_put (by omega) hcounted hfit hout

/-- What the caller does not take for success neither lands nor slips, and
stays in its block. -/
theorem block_stops {bytes : List UInt8} {size : Int} {line : Option (Int → LogLine)}
    {out : Outbox} (hstock : (block bytes size line).Stocked)
    (hout : if sizeT size < 2 ^ 63 then (block bytes size line).Whole (out.next (sizeT size))
      else ∃ errno, out.next (sizeT size) = .failed errno)
    (hpass : ¬(block bytes size line).Passes) :
    ¬(block bytes size line).Lands (out.next (sizeT size))
      ∧ ¬(block bytes size line).Slips (out.next (sizeT size))
      ∧ ∃ code, (block bytes size line).Survives (out.next (sizeT size))
        ↔ ∀ l ∈ line, (l code).Fits := by
  obtain ⟨hlow, hhigh, hfit⟩ := hstock
  have hpass : ¬(-1 ≤ size ∧ size < 2 ^ 31) := hpass
  by_cases hneg : size < 0
  · rw [if_neg (sizeT_of_neg hneg hlow)] at hout
    obtain ⟨errno, hnext⟩ := hout
    rw [hnext]
    refine ⟨id, fun h => ?_, _, Iff.rfl⟩
    have hone : size = -1 := h
    omega
  · have hcount : sizeT size = size.toNat := sizeT_of_nonneg (by omega) (by omega)
    rw [if_pos (by omega)] at hout
    cases hnext : out.next (sizeT size) with
    | failed errno =>
        rw [hnext] at hout
        exact hout.elim
    | accepted count errno =>
        rw [hnext] at hout
        refine ⟨fun h => ?_, fun h => slips_not_whole h hout, _,
          and_iff_right (Nat.le_trans (Nat.min_le_right _ _) ?_)⟩
        · have hret : intOfCount (sizeT size) = size := h.2.2
          have hint := int32_bounds (Int32.ofNat (sizeT size))
          unfold intOfCount at hret
          omega
        · show sizeT size ≤ bytes.length
          omega

/-- A refusal is told, or the process ends in LOG. -/
theorem runCall_refuses {call : SendCall} {out : Outbox} (hstock : call.Stocked)
    (hout : if call.size < 2 ^ 63 then call.Whole (out.next call.size)
      else ∃ errno, out.next call.size = .failed errno) (hpass : ¬call.Passes) :
    (call.Quiet → ∃ ret out', ret < 0 ∧ runCall call out = .ok (ret, out'))
      ∧ (call.Deadly → runCall call out = .error .outOfBounds) := by
  cases call with
  | word bytes hfits => exact absurd trivial hpass
  | block bytes size line =>
      obtain ⟨hland, hslip, code, hsurvive⟩ := block_stops hstock hout hpass
      constructor
      · intro hquiet
        have hline : ∀ l ∈ line, (l code).Fits := by
          rw [show line = none from hquiet]
          exact fun l hl => by cases hl
        exact runCall_told hland hslip (hsurvive.mpr hline)
      · rintro ⟨l, hl, hnot⟩
        exact runCall_dies hland hslip fun h => hnot code (hsurvive.mp h l hl)

-- =========================================================== many calls

theorem Unbroken.head {call : SendCall} {calls : List SendCall} {out : Outbox}
    (h : Unbroken (call :: calls) out.coming) :
    if call.size < 2 ^ 63 then call.Whole (out.next call.size)
      else ∃ errno, out.next call.size = .failed errno :=
  h (call, out.next call.size) List.mem_cons_self

theorem Unbroken.tail {call : SendCall} {calls : List SendCall} {coming : List SendOutcome}
    (h : Unbroken (call :: calls) coming) : Unbroken calls coming.tail :=
  fun p hp => h p (List.mem_cons_of_mem _ hp)

theorem runCalls_put {calls : List SendCall} : ∀ {out : Outbox},
    (∀ call ∈ calls, call.Stocked) → Unbroken calls out.coming →
    (∀ call ∈ calls, call.Passes) → runCalls calls out
      = .ok (0, ⟨out.sent ++ calls.flatMap put, out.coming.drop calls.length⟩) := by
  induction calls with
  | nil =>
      intro out _ _ _
      show Except.ok (0, out) = _
      simp
  | cons call calls ih =>
      intro out hstock hout hpass
      have hrun := runCall_put (hstock call List.mem_cons_self) hout.head
        (hpass call List.mem_cons_self)
      have hrest := @ih ⟨out.sent ++ call.put, out.coming.tail⟩
        (fun c hc => hstock c (List.mem_cons_of_mem _ hc)) hout.tail
        fun c hc => hpass c (List.mem_cons_of_mem _ hc)
      rw [runCalls_cons, bind_ok hrun]
      refine Eq.trans hrest ?_
      simp [List.append_assoc]

/-- The first call that is refused. -/
theorem runCalls_refuse {xs ys : List SendCall} {call : SendCall} {out : Outbox}
    (hstock : ∀ c ∈ xs ++ call :: ys, c.Stocked) (hout : Unbroken (xs ++ call :: ys) out.coming)
    (hpass : ∀ c ∈ xs, c.Passes) (hrefuse : ¬call.Passes) :
    (call.Quiet → ∃ ret out', ret < 0 ∧ runCalls (xs ++ call :: ys) out = .ok (ret, out'))
      ∧ (call.Deadly → runCalls (xs ++ call :: ys) out = .error .outOfBounds) := by
  have hhere : Unbroken (call :: ys) (out.coming.drop xs.length) := by
    intro p hp
    apply hout p
    rw [meet_append]
    exact List.mem_append_right _ hp
  have hxs : Unbroken xs out.coming := by
    intro p hp
    apply hout p
    rw [meet_append]
    exact List.mem_append_left _ hp
  have hrun := runCalls_put (fun c hc => hstock c (List.mem_append_left _ hc)) hxs hpass
  have hcall := @runCall_refuses call ⟨out.sent ++ xs.flatMap put, out.coming.drop xs.length⟩
    (hstock call (List.mem_append_right _ List.mem_cons_self)) hhere.head hrefuse
  rw [runCalls_append, bind_ok hrun]
  show (_ → ∃ ret out', ret < 0 ∧ runCalls (call :: ys) _ = .ok (ret, out'))
    ∧ (_ → runCalls (call :: ys) _ = .error .outOfBounds)
  rw [runCalls_cons]
  constructor
  · intro hquiet
    obtain ⟨ret, out', hneg, hrun'⟩ := hcall.1 hquiet
    refine ⟨ret, out', hneg, ?_⟩
    rw [bind_ok hrun']
    simp only [if_pos hneg]
    rfl
  · intro hdeadly
    rw [bind_error (hcall.2 hdeadly)]

-- =============================================================== a request

/-- A length as an `int16_t`. -/
theorem int16_ofNat (n : Nat) : (Int16.ofNat n).toInt ≤ n
    ∧ (Int16.ofNat n).toInt = if n % 2 ^ 16 < 2 ^ 15 then ((n % 2 ^ 16 : Nat) : Int)
      else ((n % 2 ^ 16 : Nat) : Int) - 2 ^ 16 := by
  have hsize : (Int16.size : Int) = 2 ^ 16 := rfl
  rw [Int16.toInt_ofNat', Int.bmod_def, hsize]
  split <;> split <;> omega

section
variable {req : MsgWriteObjReq} {oid : CharBlock} {data : List UInt8}

/-- What the socket gets of a request whose name says it has `size`
characters. -/
def reqBytes (req : MsgWriteObjReq) (oid : CharBlock) (data : List UInt8) (size : Int16) :
    List UInt8 :=
  int32Codec.bytes req.clientId ++ (int64Codec.bytes req.reqId
    ++ (int16Codec.bytes size ++ (oid.bytes.take size.toInt.toNat
      ++ (int64Codec.bytes req.offset ++ (int64Codec.bytes req.length
        ++ data.take req.length.toInt.toNat)))))

theorem reqCalls_put :
    (reqCalls req oid data).flatMap put
      = reqBytes req oid data (Int16.ofNat (strlen oid.str)) := by
  have h16 : ∀ size : Int16, (int16Codec.bytes size).take (2 : Int).toNat
      = int16Codec.bytes size :=
    fun size => List.take_of_length_le (Nat.le_of_eq (int16Codec.bytes_length size))
  have h64 : (int64Codec.bytes req.length).take (8 : Int).toNat = int64Codec.bytes req.length :=
    List.take_of_length_le (Nat.le_of_eq (int64Codec.bytes_length req.length))
  simp only [reqCalls, stringCalls, dataCalls, int32Call, int64Call, intCall,
    List.flatMap_append, List.flatMap_cons, List.flatMap_nil, List.append_nil, put, h16, h64,
    List.append_assoc, reqBytes]

theorem reqCalls_stocked (hlength : req.length.toInt ≤ data.length) :
    ∀ call ∈ reqCalls req oid data, call.Stocked := by
  have hcut := (int16_ofNat (strlen oid.str)).1
  have hbounds := int64_bounds req.length
  have hoid : strlen oid.str ≤ oid.bytes.length := (List.takeWhile_prefix _).length_le
  have h16 : ∀ size : Int16, (int16Codec.bytes size).length = 2 := int16Codec.bytes_length
  have h64 : (int64Codec.bytes req.length).length = 8 := int64Codec.bytes_length req.length
  intro call hcall
  simp only [reqCalls, stringCalls, dataCalls, List.mem_append, List.mem_cons,
    List.not_mem_nil, or_false] at hcall
  rcases hcall with (((rfl | rfl) | rfl | rfl) | rfl) | rfl | rfl
  · trivial
  · trivial
  · exact ⟨by decide, by decide, by rw [h16]; exact Int.le_refl 2⟩
  · have hsize := int16_bounds (Int16.ofNat (strlen oid.str))
    exact ⟨by omega, by omega, by omega⟩
  · trivial
  · exact ⟨by decide, by decide, by rw [h64]; exact Int.le_refl 8⟩
  · exact ⟨by omega, by omega, hlength⟩

theorem reqCalls_pass :
    (∀ call ∈ reqCalls req oid data, call.Passes)
      ↔ -1 ≤ (Int16.ofNat (strlen oid.str)).toInt
        ∧ -1 ≤ req.length.toInt ∧ req.length.toInt < 2 ^ 31 := by
  have hbounds := int16_bounds (Int16.ofNat (strlen oid.str))
  constructor
  · intro h
    have hname := h (.block oid.bytes (Int16.ofNat (strlen oid.str)).toInt
      (some (sendStringLine req.header.logId 63 oid.str))) (by simp [reqCalls, stringCalls])
    have hdata := h (.block data req.length.toInt none) (by simp [reqCalls, dataCalls])
    exact ⟨hname.1, hdata⟩
  · intro h call hcall
    simp only [reqCalls, stringCalls, dataCalls, List.mem_append, List.mem_cons,
      List.not_mem_nil, or_false] at hcall
    rcases hcall with (((rfl | rfl) | rfl | rfl) | rfl) | rfl | rfl
    · trivial
    · trivial
    · exact ⟨by decide, by decide⟩
    · exact ⟨h.1, by omega⟩
    · trivial
    · exact ⟨by decide, by decide⟩
    · exact h.2

-- ---------------------------------------------------------------- read back

variable {size : Int16} {rest : List UInt8}

/-- What a reader finds behind the offset. -/
def reqTail (req : MsgWriteObjReq) (data rest : List UInt8) : List UInt8 :=
  int64Codec.bytes req.length ++ (data.take req.length.toInt.toNat ++ rest)

/-- The name, cut to the length it says it has. -/
theorem take_name_length (hsize : 0 ≤ size.toInt) (hfit : size.toInt ≤ oid.bytes.length) :
    ((oid.bytes.take size.toInt.toNat).length : Int) = size.toInt := by
  rw [List.length_take]
  omega

theorem reqBytes_ids :
    wireReqIds (reqBytes req oid data size ++ rest) = some ((req.clientId, req.reqId),
      int16Codec.bytes size ++ (oid.bytes.take size.toInt.toNat
        ++ (int64Codec.bytes req.offset ++ reqTail req data rest))) := by
  unfold reqBytes reqTail
  simp only [List.append_assoc]
  exact wireReqIds_bytes req.clientId req.reqId _

theorem reqBytes_negative (hneg : size.toInt < 0) :
    NegativeOid (reqBytes req oid data size ++ rest) :=
  ⟨_, _, size, _, reqBytes_ids, int16Codec.decode_eq_some.mpr rfl, hneg⟩

theorem reqBytes_before (hsize : 0 ≤ size.toInt) (hfit : size.toInt ≤ oid.bytes.length)
    (p : List UInt8 → Prop) :
    BeforeData (reqBytes req oid data size ++ rest) p ↔ p (reqTail req data rest) :=
  beforeData_iff p reqBytes_ids (wireString_bytes (take_name_length hsize hfit) _) hsize
    (int64Codec.decode_eq_some.mpr rfl)

theorem reqBytes_wire (hsize : 0 ≤ size.toInt) (hfit : size.toInt ≤ oid.bytes.length)
    (hpos : 0 ≤ req.length.toInt) (hlength : req.length.toInt ≤ data.length)
    (header : MsgHeader) :
    wireReq header (reqBytes req oid data size ++ rest)
      = some (⟨header, req.clientId, req.reqId, size,
        some (.close (oid.bytes.take size.toInt.toNat)), req.offset, req.length,
        some (data.take req.length.toInt.toNat)⟩, rest) := by
  refine wireReq_of_steps header reqBytes_ids
    (wireString_bytes (take_name_length hsize hfit) _) (int64Codec.decode_eq_some.mpr rfl)
    (wireData_bytes ?_ rest)
  rw [List.length_take]
  omega

theorem reqTail_length {length : Int64} {rest' : List UInt8}
    (h : int64Codec.decode (reqTail req data rest) = some (length, rest')) :
    length = req.length := by
  rw [reqTail, int64Codec.decode_eq_some.mpr rfl] at h
  cases h
  rfl

theorem reqTail_wireData {length : Int64} {bytes rest' : List UInt8}
    (h : wireData (reqTail req data rest) = some ((length, bytes), rest')) :
    length = req.length :=
  wireData_length (int64Codec.decode_eq_some.mpr rfl) h

end

section
variable {into : MsgWriteObjReq} {inbox : Inbox}

/-- A name of negative length is not read. -/
theorem recv_negative (hoid : into.oid = none) (hdata : into.data = none)
    (hplenty : inbox.allocs = .plenty) (h : NegativeOid inbox.delivered) :
    ¬∃ got inbox', msgWriteObjReqRecv into inbox = .ok ((0, got), inbox') := by
  intro hread
  obtain ⟨got, inbox', hread⟩ := hread
  cases msgWriteObjReqRecv_outcome into hoid hdata inbox with
  | whole req' inbox'' hrun hheader hsize htaken hneg hdec =>
      exact not_beforeData_of_negativeOid _ h htaken
  | uncounted ret req' inbox'' hrun hneg hret hcount =>
      exact not_beforeData_of_negativeOid _ h hcount
  | cut req' inbox'' hrun hwhy => exact (hwhy hplenty).2.2 h
  | crash e hrun hwhy =>
      rw [hrun] at hread
      cases hread

variable {req : MsgWriteObjReq} {oid : CharBlock} {data rest : List UInt8} {size : Int16}

/-- Data of length -1 is not read. -/
theorem recv_minusOne (hoid : into.oid = none) (hdata : into.data = none)
    (hd : inbox.delivered = reqBytes req oid data size ++ rest) (hsize : 0 ≤ size.toInt)
    (hfit : size.toInt ≤ oid.bytes.length) (hlength : req.length = -1) :
    ¬∃ got inbox', msgWriteObjReqRecv into inbox = .ok ((0, got), inbox') := by
  intro hread
  obtain ⟨got, inbox', hread⟩ := hread
  have hminus : req.length.toInt = -1 := by rw [hlength]; rfl
  cases msgWriteObjReqRecv_outcome into hoid hdata inbox with
  | whole req' inbox'' hrun hheader hpos htaken hneg hdec =>
      rw [hd, reqBytes_before hsize hfit] at htaken
      rcases htaken with ⟨length, bytes, rest', hwire, hpos', -⟩ | ⟨length, rest', hlen, hcode⟩
      · rw [reqTail_wireData hwire] at hpos'
        omega
      · rw [reqTail_length hlen, hminus] at hcode
        cases hcode
  | uncounted ret req' inbox'' hrun hneg hret hcount =>
      rw [hrun] at hread
      cases hread
      exact absurd hneg (Int.lt_irrefl 0)
  | cut req' inbox'' hrun hwhy =>
      rw [hrun] at hread
      cases hread
  | crash e hrun hwhy =>
      rw [hrun] at hread
      cases hread

/-- A name and data of lengths that are not negative are read. -/
theorem recv_whole (hoid : into.oid = none) (hdata : into.data = none)
    (hplenty : inbox.allocs = .plenty)
    (hd : inbox.delivered = reqBytes req oid data size ++ rest) (hsize : 0 ≤ size.toInt)
    (hfit : size.toInt ≤ oid.bytes.length) (hpos : 0 ≤ req.length.toInt)
    (hcount : req.length.toInt < 2 ^ 31) (hlength : req.length.toInt ≤ data.length) :
    ∃ inbox', msgWriteObjReqRecv into inbox
      = .ok ((0, ⟨into.header, req.clientId, req.reqId, size,
        some (.close (oid.bytes.take size.toInt.toNat)), req.offset, req.length,
        some (data.take req.length.toInt.toNat)⟩), inbox') := by
  have hbefore : ∀ p, BeforeData (reqBytes req oid data size ++ rest) p
      ↔ p (reqTail req data rest) :=
    fun p => reqBytes_before hsize hfit p
  have hwire : wireData (reqTail req data rest)
      = some ((req.length, data.take req.length.toInt.toNat), rest) := by
    refine wireData_bytes ?_ rest
    rw [List.length_take]
    omega
  have htaken : BeforeData inbox.delivered DataTaken := by
    rw [hd, hbefore]
    exact .inl ⟨_, _, _, hwire, hpos, hcount⟩
  cases msgWriteObjReqRecv_outcome into hoid hdata inbox with
  | whole req' inbox' hrun hheader hsize' htaken' hneg hdec =>
      have hpos' : 0 ≤ req'.length.toInt := by
        refine Int.not_lt.mp fun hlt => ?_
        have hnegative := hneg hlt
        rw [hd, hbefore] at hnegative
        obtain ⟨length, rest', hlen, hlt'⟩ := hnegative
        rw [reqTail_length hlen] at hlt'
        omega
      have hreq := hdec hplenty hpos'
      rw [hd, reqBytes_wire hsize hfit hpos hlength] at hreq
      cases hreq
      exact ⟨inbox', hrun⟩
  | uncounted ret req' inbox' hrun hneg hret huncounted =>
      rw [hd, hbefore] at huncounted
      obtain ⟨length, bytes, rest', hwire', hover, -⟩ := huncounted
      rw [reqTail_wireData hwire'] at hover
      omega
  | cut req' inbox' hrun hwhy => exact absurd htaken (hwhy hplenty).2.1
  | crash e hrun hwhy =>
      exact absurd htaken (not_beforeData_of_negativeOid _ (hwhy hplenty))

end

-- ======================================================= the main result

/-- The first characters of a name, as a name. -/
theorem close_take_str {oid : CharBlock} {k : Nat} (hk : k ≤ strlen oid.str) :
    (CharBlock.close (oid.bytes.take k)).str.bytes = oid.str.bytes.take k := by
  have htake : oid.bytes.take k = oid.str.bytes.take k := by
    rw [← oid.take_strlen, List.take_take, Nat.min_eq_left hk]
  have hnul : (0 : UInt8) ∉ oid.str.bytes.take k :=
    fun h => oid.str.noNul (List.mem_of_mem_take h)
  rw [htake]
  exact congrArg CString.bytes (CharBlock.close_str ⟨oid.str.bytes.take k, hnul⟩)

/-- A cut name is another one. -/
theorem close_take_eq {oid : CharBlock} {k : Nat} (hk : k ≤ strlen oid.str) :
    (CharBlock.close (oid.bytes.take k)).str = oid.str ↔ k = strlen oid.str := by
  have hbytes := close_take_str hk
  constructor
  · intro h
    rw [h] at hbytes
    have hlen := congrArg List.length hbytes
    rw [List.length_take] at hlen
    have hstr : oid.str.bytes.length = strlen oid.str := rfl
    omega
  · intro h
    rw [h, oid.take_strlen]
    exact CharBlock.close_str oid.str

/-- `cceph_msg_write_obj_req_new`. -/
def newReq : MsgWriteObjReq := ⟨⟨CCEPH_MSG_OP_WRITE, 0⟩, 0, 0, 0, none, 0, 0, none⟩

/-- The bytes come one at a time. -/
def inboxOf (bytes : List UInt8) : Inbox :=
  ⟨bytes.map fun b => .bytes ⟨[b], List.cons_ne_nil b [], Nat.lt_of_sub_eq_succ rfl⟩, .plenty⟩

theorem inboxOf_delivered (bytes : List UInt8) : (inboxOf bytes).delivered = bytes := by
  induction bytes with
  | nil => rfl
  | cons b bytes ih => exact congrArg (b :: ·) ih

section
variable {req : MsgWriteObjReq} {oid : CharBlock} {data : List UInt8} {size : Int16}

/-- The bytes alone are read. -/
theorem ReadBack.read {bs : List UInt8} (h : ReadBack req bs) :
    ∃ got inbox', msgWriteObjReqRecv newReq (inboxOf bs) = .ok ((0, got), inbox')
      ∧ Arrived req got := by
  refine h (inboxOf bs) [] newReq rfl ?_ rfl rfl
  rw [inboxOf_delivered, List.append_nil]

theorem not_readBack_negative (hneg : size.toInt < 0) :
    ¬ReadBack req (reqBytes req oid data size) := by
  intro h
  obtain ⟨got, inbox', hread, -⟩ := h.read
  refine recv_negative rfl rfl rfl ?_ ⟨got, inbox', hread⟩
  rw [inboxOf_delivered, ← List.append_nil (reqBytes req oid data size)]
  exact reqBytes_negative hneg

theorem inboxOf_reqBytes : (inboxOf (reqBytes req oid data size)).delivered
    = reqBytes req oid data size ++ [] := by
  rw [inboxOf_delivered, List.append_nil]

theorem not_readBack_minusOne (hsize : 0 ≤ size.toInt) (hfit : size.toInt ≤ oid.bytes.length)
    (hlength : req.length = -1) : ¬ReadBack req (reqBytes req oid data size) := by
  intro h
  obtain ⟨got, inbox', hread, -⟩ := h.read
  exact recv_minusOne rfl rfl inboxOf_reqBytes hsize hfit hlength ⟨got, inbox', hread⟩

section
variable (hoid : req.oid = some oid) (hsize : 0 ≤ size.toInt) (hpos : 0 ≤ req.length.toInt)
  (hcount : req.length.toInt < 2 ^ 31) (hlength : req.length.toInt ≤ data.length)
include hoid hsize hpos hcount hlength

theorem readBack_whole (hdata : req.data = some data) (hname : size.toInt = strlen oid.str) :
    ReadBack req (reqBytes req oid data size) := by
  have hblock : strlen oid.str ≤ oid.bytes.length := (List.takeWhile_prefix _).length_le
  intro inbox rest into hplenty hd hinto hinto'
  obtain ⟨inbox', hrun⟩ := recv_whole hinto hinto' hplenty hd hsize (by omega) hpos hcount hlength
  refine ⟨_, inbox', hrun, ?_, rfl, rfl, ?_⟩
  · rw [hoid]
    exact congrArg some ((close_take_eq (by omega)).mpr (by omega))
  · rw [hdata]
    rfl

theorem readBack_cut (hname : size.toInt < strlen oid.str) :
    ¬ReadBack req (reqBytes req oid data size) := by
  have hblock : strlen oid.str ≤ oid.bytes.length := (List.takeWhile_prefix _).length_le
  intro h
  obtain ⟨got, inbox', hread, harrived⟩ := h.read
  have hfit : size.toInt ≤ oid.bytes.length := by omega
  have hnew : newReq.oid = none ∧ newReq.data = none := ⟨rfl, rfl⟩
  obtain ⟨inbox'', hrun⟩ := recv_whole hnew.1 hnew.2 rfl inboxOf_reqBytes hsize hfit hpos hcount
    hlength
  rw [hrun] at hread
  cases hread
  have hstr := harrived.oid
  rw [hoid] at hstr
  have hcut : (CharBlock.close (oid.bytes.take size.toInt.toNat)).str = oid.str :=
    Option.some.inj hstr
  have hwhole := (close_take_eq (by omega)).mp hcut
  omega

end

/-- The sender returns zero, and has sent `reqBytes`. -/
theorem arrivesIfSent_iff {out : Outbox} {bs : List UInt8} {coming : List SendOutcome}
    (hsend : msgWriteObjReqSend req out = .ok (0, ⟨out.sent ++ bs, coming⟩)) :
    ArrivesIfSent req out ↔ ReadBack req bs := by
  unfold ArrivesIfSent
  rw [hsend]
  constructor
  · exact fun h => h _ bs rfl rfl
  · intro h out' bs' heq hsent
    cases heq
    rw [← List.append_cancel_left hsent]
    exact h

theorem reqSend_calls (hoid : req.oid = some oid) (hdata : req.data = some data) :
    msgWriteObjReqSend req = runCalls (reqCalls req oid data) :=
  msgWriteObjReqSend_calls hoid hdata

/-- What is said of a name that no `int16_t` counts does not fit. -/
theorem sendStringLine_long {logId : Int64} {line : Nat} {string : CString} {code : Int}
    (h : 2 ^ 15 ≤ strlen string) : ¬(sendStringLine logId line string code).Fits := by
  apply LogLine.not_fits_of_long
  show 1024 ≤ (ascii "send string " ++ string.bytes ++ ascii " error: " ++ decimal code).length
  have hlen : strlen string = string.bytes.length := rfl
  simp only [List.length_append]
  omega

section
variable {out : Outbox} (hoid : req.oid = some oid) (hdata : req.data = some data)
  (hlength : req.length.toInt ≤ data.length)
  (hout : Unbroken (reqCalls req oid data) out.coming)
include hoid hdata hlength hout

/-- A length below -1: the process ends in LOG. -/
theorem reqSend_dies (hname : (Int16.ofNat (strlen oid.str)).toInt < -1) :
    msgWriteObjReqSend req out = .error .outOfBounds := by
  have hlong : 2 ^ 15 ≤ strlen oid.str := by
    have hsize := (int16_ofNat (strlen oid.str)).2
    split at hsize <;> omega
  let before : List SendCall := [int32Call req.clientId, int64Call req.reqId,
    .block (int16Codec.bytes (Int16.ofNat (strlen oid.str))) 2
      (some (sendStringLine req.header.logId 57 oid.str))]
  let name : SendCall := .block oid.bytes (Int16.ofNat (strlen oid.str)).toInt
    (some (sendStringLine req.header.logId 63 oid.str))
  have hcalls : reqCalls req oid data
      = before ++ name :: ([int64Call req.offset] ++ dataCalls req.length data) := rfl
  have hstock := @reqCalls_stocked req oid data hlength
  rw [reqSend_calls hoid hdata]
  rw [hcalls] at hstock hout ⊢
  refine (runCalls_refuse hstock hout ?_ ?_).2 ?_
  · intro call hcall
    simp only [before, List.mem_cons, List.not_mem_nil, or_false] at hcall
    rcases hcall with rfl | rfl | rfl
    · trivial
    · trivial
    · exact ⟨by decide, by decide⟩
  · intro hpass
    have hlow : -1 ≤ (Int16.ofNat (strlen oid.str)).toInt := hpass.1
    omega
  · exact ⟨_, rfl, fun code => sendStringLine_long hlong⟩

/-- The name is taken for sent, and the data is refused. -/
theorem reqSend_refuses (hname : -1 ≤ (Int16.ofNat (strlen oid.str)).toInt)
    (hrefused : DataRefused req.length) :
    ∃ ret out', ret < 0 ∧ msgWriteObjReqSend req out = .ok (ret, out') := by
  have hbounds := int16_bounds (Int16.ofNat (strlen oid.str))
  let before : List SendCall := [int32Call req.clientId, int64Call req.reqId]
    ++ stringCalls req.header.logId oid ++ [int64Call req.offset]
    ++ [.block (int64Codec.bytes req.length) 8 none]
  have hcalls : reqCalls req oid data
      = before ++ .block data req.length.toInt none :: [] := by
    simp [before, reqCalls, dataCalls]
  have hstock := @reqCalls_stocked req oid data hlength
  rw [reqSend_calls hoid hdata]
  rw [hcalls] at hstock hout ⊢
  refine (runCalls_refuse hstock hout ?_ ?_).1 rfl
  · intro call hcall
    simp only [before, stringCalls, List.mem_append, List.mem_cons, List.not_mem_nil,
      or_false] at hcall
    rcases hcall with (((rfl | rfl) | rfl | rfl) | rfl) | rfl
    · trivial
    · trivial
    · exact ⟨by decide, by decide⟩
    · exact ⟨hname, by omega⟩
    · trivial
    · exact ⟨by decide, by decide⟩
  · intro hpass
    have hdata : -1 ≤ req.length.toInt ∧ req.length.toInt < 2 ^ 31 := hpass
    unfold DataRefused at hrefused
    omega

/-- A request arrives if it is sent, and fails if its name is too long,
exactly if its name travels. -/
theorem reqSend_arrives :
    ArrivesIfSent req out ∧ FailsIfLong req out ↔ NameTravels (strlen oid.str) req.length := by
  obtain ⟨hname, hsize⟩ := int16_ofNat (strlen oid.str)
  have hblock : strlen oid.str ≤ oid.bytes.length := (List.takeWhile_prefix _).length_le
  have hminus : req.length = -1 ↔ req.length.toInt = -1 :=
    ⟨fun h => by rw [h]; rfl, fun h => Int64.toInt_inj.mp h⟩
  by_cases hdie : (Int16.ofNat (strlen oid.str)).toInt < -1
  · -- the name is refused, and LOG does not survive it
    have hdies := reqSend_dies hoid hdata hlength hout hdie
    refine iff_of_false (fun h => ?_) fun h => ?_
    · obtain ⟨ret, out', -, hrun⟩ := h.2 oid hoid (by split at hsize <;> omega)
      rw [hdies] at hrun
      cases hrun
    · unfold NameTravels at h
      split at h
      · split at hsize <;> omega
      · obtain ⟨-, hmod⟩ := h
        split at hsize <;> omega
  by_cases hrefused : DataRefused req.length
  · -- the sender tells
    obtain ⟨ret, out', hneg, hrun⟩ :=
      reqSend_refuses hoid hdata hlength hout (Int.not_lt.mp hdie) hrefused
    refine iff_of_true ⟨?_, fun _ _ _ => ⟨ret, out', hneg, hrun⟩⟩ ?_
    · intro out'' bs hzero
      rw [hrun] at hzero
      cases hzero
      exact absurd hneg (Int.lt_irrefl 0)
    · unfold NameTravels
      unfold DataRefused at hrefused
      split
      · rw [Ne, hminus]
        omega
      · exact ⟨hrefused, by split at hsize <;> omega⟩
  have hpass : -1 ≤ (Int16.ofNat (strlen oid.str)).toInt
      ∧ -1 ≤ req.length.toInt ∧ req.length.toInt < 2 ^ 31 := by
    unfold DataRefused at hrefused
    omega
  have hsend := runCalls_put (@reqCalls_stocked req oid data hlength) hout
    (reqCalls_pass.mpr hpass)
  rw [← reqSend_calls hoid hdata, reqCalls_put] at hsend
  rw [arrivesIfSent_iff hsend]
  unfold NameTravels
  by_cases hlong : 2 ^ 15 ≤ strlen oid.str
  · refine iff_of_false (fun h => ?_) fun h => ?_
    · obtain ⟨ret, out', hneg, hrun⟩ := h.2 oid hoid hlong
      rw [hsend] at hrun
      cases hrun
      exact absurd hneg (Int.lt_irrefl 0)
    · rw [if_neg (Nat.not_lt.mpr hlong)] at h
      exact hrefused h.1
  have hshort : strlen oid.str < 2 ^ 15 := Nat.not_le.mp hlong
  have hfails : FailsIfLong req out := by
    intro oid' hoid' hlong'
    rw [hoid] at hoid'
    cases hoid'
    exact absurd hlong' hlong
  rw [and_iff_left hfails, if_pos hshort]
  rw [if_pos (by omega)] at hsize
  obtain ⟨-, hdatalow, hcount⟩ := hpass
  by_cases hminusOne : req.length = -1
  · exact iff_of_false (not_readBack_minusOne (by omega) (by omega) hminusOne)
      (not_not_intro hminusOne)
  · have hint : req.length.toInt ≠ -1 := fun h => hminusOne (hminus.mpr h)
    exact iff_of_true (readBack_whole hoid (by omega) (by omega) hcount hlength hdata (by omega))
      hminusOne

end

/-- A socket that has taken all so far takes all the rest. -/
theorem meet_nil {calls : List SendCall} :
    meet calls [] = calls.map fun call => (call, .accepted call.size 0) := by
  induction calls with
  | nil => rfl
  | cons call calls ih => exact congrArg (_ :: ·) ih

theorem unbroken_nil (hsize : 0 ≤ (Int16.ofNat (strlen oid.str)).toInt)
    (hlength : 0 ≤ req.length.toInt) : Unbroken (reqCalls req oid data) [] := by
  have hname := int16_bounds (Int16.ofNat (strlen oid.str))
  have hdata := int64_bounds req.length
  have hword : ∀ bytes hfits, (word bytes hfits).size < 2 ^ 63 :=
    fun bytes hfits => Nat.lt_trans hfits (by decide)
  have hsizes : ∀ call ∈ reqCalls req oid data, call.size < 2 ^ 63 := by
    intro call hcall
    simp only [reqCalls, stringCalls, dataCalls, List.mem_append, List.mem_cons,
      List.not_mem_nil, or_false] at hcall
    rcases hcall with (((rfl | rfl) | rfl | rfl) | rfl) | rfl | rfl
    · exact hword _ _
    · exact hword _ _
    · exact (by decide : sizeT 2 < 2 ^ 63)
    · show sizeT (Int16.ofNat (strlen oid.str)).toInt < 2 ^ 63
      rw [sizeT_of_nonneg hsize (by omega)]
      omega
    · exact hword _ _
    · exact (by decide : sizeT 8 < 2 ^ 63)
    · show sizeT req.length.toInt < 2 ^ 63
      rw [sizeT_of_nonneg hlength (by omega)]
      omega
  intro p hp
  rw [meet_nil] at hp
  obtain ⟨call, hcall, rfl⟩ := List.mem_map.mp hp
  show if call.size < 2 ^ 63 then call.Whole (.accepted call.size 0) else _
  rw [if_pos (hsizes call hcall)]
  cases call <;> exact Nat.le_refl _

end

/-- One byte for the object of this name. -/
def byteReq (oid : CharBlock) : MsgWriteObjReq :=
  ⟨⟨CCEPH_MSG_OP_WRITE, 0⟩, 7, 9, 0, some oid, 0, 1, some [5]⟩

theorem reqSend_arrives_short : ArrivesIfSent (byteReq (.close [120])) ⟨[], []⟩
    ∧ FailsIfLong (byteReq (.close [120])) ⟨[], []⟩ := by
  have hname : strlen (CharBlock.close [120]).str = 1 := by decide
  have hout : Unbroken (reqCalls (byteReq (.close [120])) (.close [120]) [5]) [] :=
    unbroken_nil (by rw [hname]; decide) (by decide)
  refine (reqSend_arrives rfl rfl (by decide) hout).mpr ?_
  rw [hname]
  unfold NameTravels
  rw [if_pos (by decide)]
  decide

/-- 65536 characters. -/
def longName : CString :=
  ⟨List.replicate 65536 97, fun h => absurd (List.eq_of_mem_replicate h) (by decide)⟩

/-- The name has no character on the wire: the sender returns zero, and
the reader takes the empty name. -/
theorem reqSend_arrives_long_fails :
    Unbroken (reqCalls (byteReq (.close longName.bytes)) (.close longName.bytes) [5]) []
      ∧ ¬ArrivesIfSent (byteReq (.close longName.bytes)) ⟨[], []⟩
      ∧ ¬FailsIfLong (byteReq (.close longName.bytes)) ⟨[], []⟩ := by
  have hname : strlen (CharBlock.close longName.bytes).str = 65536 := by
    rw [CharBlock.close_str]
    exact List.length_replicate
  have hzero : (Int16.ofNat (strlen (CharBlock.close longName.bytes).str)).toInt = 0 := by
    rw [hname]
    decide
  have hout : Unbroken (reqCalls (byteReq (.close longName.bytes)) (.close longName.bytes)
      [5]) [] :=
    unbroken_nil (by omega) (by decide)
  refine ⟨hout, ?_⟩
  have hstock := @reqCalls_stocked (byteReq (.close longName.bytes)) (.close longName.bytes)
    [5] (by decide)
  have hpass := (@reqCalls_pass (byteReq (.close longName.bytes)) (.close longName.bytes)
    [5]).mpr ⟨by omega, by decide, by decide⟩
  have hsend := @runCalls_put _ ⟨[], []⟩ hstock hout hpass
  rw [reqCalls_put, ← reqSend_calls rfl rfl] at hsend
  constructor
  · rw [arrivesIfSent_iff hsend]
    exact readBack_cut rfl (by omega) (by decide) (by decide) (by decide) (by omega)
  · intro h
    obtain ⟨ret, out', hneg, hrun⟩ := h _ rfl (by omega)
    rw [hsend] at hrun
    cases hrun
    exact absurd hneg (Int.lt_irrefl 0)

end CephInC
