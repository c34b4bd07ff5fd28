/-
What the receivers of `message/io.c` return, in terms of the bytes that
get delivered.

`cceph_recv_from_conn` either stores exactly what it was asked for, the
front of the delivered bytes, or finds that they end first and says
`CCEPH_ERR_CONN_CLOSED`; how the bytes were cut into calls leaves no
trace. So a receiver is a decoder of the delivered bytes, and `Received`
states this for any of them. A string or a block of data brings its own
length, so there is more that can happen; `StringOutcome` and
`DataOutcome` list it.
-/
import CephInC.Message.Messenger

namespace CephInC

open Lib

-- ================================================================ recv

theorem deliveredBytes_drop {chunk : Chunk} {n : Nat}
    (h : n < chunk.bytes.length) (rest : List Arrival) :
    deliveredBytes (.bytes (chunk.drop n h) :: rest)
      = (deliveredBytes (.bytes chunk :: rest)).drop n := by
  show chunk.bytes.drop n ++ deliveredBytes rest = _
  rw [deliveredBytes, List.drop_append_of_le_length (Nat.le_of_lt h)]

/-- A count that `recv` returns is a count: neither zero nor minus one. -/
theorem count_pos {n : Nat} (h0 : 0 < n) (h : n < 2 ^ 31) :
    Int32.ofNat n ≠ -1 ∧ Int32.ofNat n ≠ 0 := by
  have hn := Int32.toInt_ofNat_of_lt h
  constructor
  · intro heq
    rw [heq] at hn
    have : (-1 : Int32).toInt = -1 := by decide
    omega
  · intro heq
    rw [heq] at hn
    have : (0 : Int32).toInt = 0 := by decide
    omega

section
variable {room size fuel : Nat} {total : Int32} {buf : List UInt8}
  {rest : List Arrival} {allocs : Allocs}

theorem recvLoop_zero (r : Option Nat) (inbox : Inbox) :
    recvLoop r (fuel + 1) 0 total buf inbox = .ok ((total.toInt, buf), inbox) :=
  rfl

/-- The peer has closed. -/
theorem recvLoop_nil (hsize : 0 < size) (hroom : buf.length + size ≤ room) :
    recvLoop (some room) (fuel + 1) size total buf ⟨[], allocs⟩
      = .ok ((CCEPH_ERR_CONN_CLOSED, buf), ⟨[], allocs⟩) := by
  have hfit : ¬room - buf.length < size := by omega
  have hrecv : recv ((some room).map (· - buf.length)) size ⟨[], allocs⟩
      = .ok (⟨0, 0, []⟩, ⟨[], allocs⟩) := by
    simp [recv, hfit]
  rw [recvLoop, if_pos hsize, bind_ok hrecv]
  rfl

/-- A failed call is tried again, or ends the loop. -/
theorem recvLoop_failed (hsize : 0 < size) (hroom : buf.length + size ≤ room)
    (errno : Int32) :
    recvLoop (some room) (fuel + 1) size total buf ⟨.failed errno :: rest, allocs⟩
      = if errno = EAGAIN then
          recvLoop (some room) fuel size total buf ⟨rest, allocs⟩
        else .ok ((CCEPH_ERR_CONN_CLOSED, buf), ⟨rest, allocs⟩) := by
  have hfit : ¬room - buf.length < size := by omega
  have hrecv : recv ((some room).map (· - buf.length)) size
      ⟨.failed errno :: rest, allocs⟩ = .ok (⟨-1, errno, []⟩, ⟨rest, allocs⟩) := by
    simp [recv, hfit]
  rw [recvLoop, if_pos hsize, bind_ok hrecv]
  by_cases hagain : errno = EAGAIN
  · simp [hagain, hsize]
  · simp [hagain]

/-- A chunk longer than what is asked for ends the loop. -/
theorem recvLoop_long (hsize : 0 < size) (hroom : buf.length + size ≤ room)
    {chunk : Chunk} (h : size < chunk.bytes.length) :
    recvLoop (some room) (fuel + 2) size total buf ⟨.bytes chunk :: rest, allocs⟩
      = .ok (((total + Int32.ofNat size).toInt, buf ++ chunk.bytes.take size),
          ⟨.bytes (chunk.drop size h) :: rest, allocs⟩) := by
  have hfit : ¬room - buf.length < size := by omega
  have hrecv : recv ((some room).map (· - buf.length)) size
      ⟨.bytes chunk :: rest, allocs⟩
      = .ok (⟨Int32.ofNat size, 0, chunk.bytes.take size⟩,
          ⟨.bytes (chunk.drop size h) :: rest, allocs⟩) := by
    simp [recv, hfit, h]
  have hfits := chunk.fits
  obtain ⟨hne1, hne0⟩ := count_pos hsize (by omega : size < 2 ^ 31)
  have hleft : size - (Int32.ofNat size).toInt.toNat = 0 := by
    rw [Int32.toInt_ofNat_of_lt (by omega)]
    omega
  rw [recvLoop, if_pos hsize, bind_ok hrecv]
  simp only [hne1, hne0, false_and, if_false, hleft]
  rfl

/-- Any other chunk is stored whole. -/
theorem recvLoop_chunk (hsize : 0 < size) (hroom : buf.length + size ≤ room)
    {chunk : Chunk} (h : chunk.bytes.length ≤ size) :
    recvLoop (some room) (fuel + 1) size total buf ⟨.bytes chunk :: rest, allocs⟩
      = recvLoop (some room) fuel (size - chunk.bytes.length)
          (total + Int32.ofNat chunk.bytes.length) (buf ++ chunk.bytes)
          ⟨rest, allocs⟩ := by
  have hfit : ¬room - buf.length < size := by omega
  have hlong : ¬size < chunk.bytes.length := by omega
  have hrecv : recv ((some room).map (· - buf.length)) size
      ⟨.bytes chunk :: rest, allocs⟩
      = .ok (⟨Int32.ofNat chunk.bytes.length, 0, chunk.bytes⟩,
          ⟨rest, allocs⟩) := by
    simp [recv, hfit, hlong]
  have hpos : 0 < chunk.bytes.length := List.length_pos_iff.mpr chunk.nonempty
  obtain ⟨hne1, hne0⟩ := count_pos hpos chunk.fits
  have hcount : (Int32.ofNat chunk.bytes.length).toInt.toNat = chunk.bytes.length := by
    rw [Int32.toInt_ofNat_of_lt chunk.fits]
    omega
  rw [recvLoop, if_pos hsize, bind_ok hrecv]
  simp only [hne1, hne0, false_and, if_false, hcount]

end

-- ============================================================ the loop

/-- Enough bytes come: the loop stores the front of them. -/
theorem recvLoop_whole {room fuel : Nat} :
    ∀ (arrivals : List Arrival) (size : Nat) (total : Int32) (buf : List UInt8)
      (allocs : Allocs), arrivals.length + 2 ≤ fuel →
      buf.length + size ≤ room → size ≤ (deliveredBytes arrivals).length →
      ∃ arrivals', recvLoop (some room) fuel size total buf ⟨arrivals, allocs⟩
          = .ok (((total + Int32.ofNat size).toInt,
              buf ++ (deliveredBytes arrivals).take size), ⟨arrivals', allocs⟩)
        ∧ deliveredBytes arrivals' = (deliveredBytes arrivals).drop size := by
  induction fuel with
  | zero =>
      intro arrivals size total buf allocs hfuel
      omega
  | succ fuel ih =>
      intro arrivals size total buf allocs hfuel hroom hlen
      rcases Nat.eq_zero_or_pos size with rfl | hsize
      · refine ⟨arrivals, ?_, rfl⟩
        rw [recvLoop_zero]
        simp
      cases arrivals with
      | nil =>
          simp only [deliveredBytes, List.length_nil] at hlen
          omega
      | cons arrival rest =>
          simp only [List.length_cons] at hfuel
          cases arrival with
          | failed errno =>
              rw [recvLoop_failed hsize hroom]
              by_cases hagain : errno = EAGAIN
              · simp only [deliveredBytes, if_pos hagain] at hlen ⊢
                exact ih rest size total buf allocs (by omega) hroom hlen
              · simp only [deliveredBytes, if_neg hagain, List.length_nil] at hlen
                omega
          | bytes chunk =>
              by_cases hlong : size < chunk.bytes.length
              · obtain ⟨fuel, rfl⟩ : ∃ k, fuel = k + 1 := ⟨fuel - 1, by omega⟩
                refine ⟨_, ?_, deliveredBytes_drop hlong rest⟩
                rw [recvLoop_long hsize hroom hlong, deliveredBytes,
                  List.take_append_of_le_length (Nat.le_of_lt hlong)]
              · have hle : chunk.bytes.length ≤ size := by omega
                simp only [deliveredBytes, List.length_append] at hlen
                rw [recvLoop_chunk hsize hroom hle]
                obtain ⟨arrivals', hrun, hrest⟩ := ih rest
                  (size - chunk.bytes.length)
                  (total + Int32.ofNat chunk.bytes.length) (buf ++ chunk.bytes)
                  allocs (by omega) (by simp only [List.length_append]; omega)
                  (by omega)
                have hsum : total + Int32.ofNat chunk.bytes.length
                    + Int32.ofNat (size - chunk.bytes.length)
                    = total + Int32.ofNat size := by
                  rw [Int32.add_assoc, ← Int32.ofNat_add]
                  congr 2
                  omega
                refine ⟨arrivals', ?_, ?_⟩
                · rw [hrun, hsum, deliveredBytes, List.take_append,
                    List.take_of_length_le hle, List.append_assoc]
                · rw [hrest, deliveredBytes, List.drop_append,
                    List.drop_of_length_le hle, List.nil_append]

/-- Too few bytes come: the loop reports a closed connection. -/
theorem recvLoop_cut {room fuel : Nat} :
    ∀ (arrivals : List Arrival) (size : Nat) (total : Int32) (buf : List UInt8)
      (allocs : Allocs), arrivals.length + 2 ≤ fuel →
      buf.length + size ≤ room → (deliveredBytes arrivals).length < size →
      ∃ buf' arrivals',
        recvLoop (some room) fuel size total buf ⟨arrivals, allocs⟩
          = .ok ((CCEPH_ERR_CONN_CLOSED, buf'), ⟨arrivals', allocs⟩) := by
  induction fuel with
  | zero =>
      intro arrivals size total buf allocs hfuel
      omega
  | succ fuel ih =>
      intro arrivals size total buf allocs hfuel hroom hlen
      have hsize : 0 < size := by omega
      cases arrivals with
      | nil => exact ⟨buf, [], recvLoop_nil hsize hroom⟩
      | cons arrival rest =>
          simp only [List.length_cons] at hfuel
          cases arrival with
          | failed errno =>
              rw [recvLoop_failed hsize hroom]
              by_cases hagain : errno = EAGAIN
              · simp only [deliveredBytes, if_pos hagain] at hlen ⊢
                exact ih rest size total buf allocs (by omega) hroom hlen
              · simp only [if_neg hagain]
                exact ⟨buf, rest, rfl⟩
          | bytes chunk =>
              simp only [deliveredBytes, List.length_append] at hlen
              have hle : chunk.bytes.length ≤ size := by omega
              rw [recvLoop_chunk hsize hroom hle]
              exact ih _ _ _ _ allocs (by omega)
                (by simp only [List.length_append]; omega) (by omega)

/-- A NULL buffer is never written: the call fails, or there is nothing
to store. -/
theorem recvLoop_null {fuel : Nat} :
    ∀ (arrivals : List Arrival) (size : Nat) (total : Int32) (buf : List UInt8)
      (allocs : Allocs), arrivals.length + 2 ≤ fuel → 0 < size →
      ∃ arrivals', recvLoop none fuel size total buf ⟨arrivals, allocs⟩
        = .ok ((CCEPH_ERR_CONN_CLOSED, buf), ⟨arrivals', allocs⟩) := by
  induction fuel with
  | zero =>
      intro arrivals size total buf allocs hfuel
      omega
  | succ fuel ih =>
      intro arrivals size total buf allocs hfuel hsize
      cases arrivals with
      | nil =>
          refine ⟨[], ?_⟩
          rw [recvLoop, if_pos hsize]
          rfl
      | cons arrival rest =>
          simp only [List.length_cons] at hfuel
          cases arrival with
          | bytes chunk =>
              refine ⟨.bytes chunk :: rest, ?_⟩
              rw [recvLoop, if_pos hsize]
              rfl
          | failed errno =>
              have hrecv : recv ((none : Option Nat).map (· - buf.length)) size
                  ⟨.failed errno :: rest, allocs⟩
                  = .ok (⟨-1, errno, []⟩, ⟨rest, allocs⟩) := rfl
              rw [recvLoop, if_pos hsize, bind_ok hrecv]
              by_cases hagain : errno = EAGAIN
              · simp only [hagain, ne_eq, not_true_eq_false, and_false, if_false,
                  hsize, and_self, if_true]
                exact ih rest size total buf allocs (by omega) hsize
              · refine ⟨rest, ?_⟩
                simp [hagain]

-- ================================================ cceph_recv_from_conn

theorem recvFromConn_whole {room size : Nat} (inbox : Inbox)
    (hroom : size ≤ room) (hlen : size ≤ inbox.delivered.length) :
    ∃ inbox', recvFromConn (some room) size inbox
        = .ok (((Int32.ofNat size).toInt, inbox.delivered.take size), inbox')
      ∧ inbox'.delivered = inbox.delivered.drop size
      ∧ inbox'.allocs = inbox.allocs := by
  obtain ⟨arrivals, allocs⟩ := inbox
  obtain ⟨arrivals', hrun, hrest⟩ := recvLoop_whole arrivals size 0 [] allocs
    (Nat.le_refl _) (by simpa using hroom) hlen
  refine ⟨⟨arrivals', allocs⟩, ?_, hrest, rfl⟩
  show recvLoop _ _ _ _ _ _ = _
  rw [hrun, Int32.zero_add]
  rfl

theorem recvFromConn_cut {room size : Nat} (inbox : Inbox)
    (hroom : size ≤ room) (hlen : inbox.delivered.length < size) :
    ∃ buf inbox', recvFromConn (some room) size inbox
        = .ok ((CCEPH_ERR_CONN_CLOSED, buf), inbox')
      ∧ inbox'.allocs = inbox.allocs := by
  obtain ⟨arrivals, allocs⟩ := inbox
  obtain ⟨buf, arrivals', hrun⟩ := recvLoop_cut arrivals size 0 [] allocs
    (Nat.le_refl _) (by simpa using hroom) hlen
  exact ⟨buf, ⟨arrivals', allocs⟩, hrun, rfl⟩

theorem recvFromConn_null {size : Nat} (inbox : Inbox) (hsize : 0 < size) :
    ∃ inbox', recvFromConn none size inbox
        = .ok ((CCEPH_ERR_CONN_CLOSED, []), inbox')
      ∧ inbox'.allocs = inbox.allocs := by
  obtain ⟨arrivals, allocs⟩ := inbox
  obtain ⟨arrivals', hrun⟩ := recvLoop_null arrivals size 0 [] allocs
    (Nat.le_refl _) hsize
  exact ⟨⟨arrivals', allocs⟩, hrun, rfl⟩

end CephInC
