/-
Which streams make `cceph_recv_string` store outside its block.

`recv` is never handed more than the block has, for either function: the
size it starts with is the block's, or one less, and what is stored is
taken off (`recvFromConn_returns`). What goes wrong is the terminator,
which is stored at the announced length before a byte is read.
-/
import CephInC.Message.Proofs.Fields
import CephInC.Message.Stores

namespace CephInC

open Lib

theorem recvFromConn_returns {room size : Nat} (inbox : Inbox) (h : size ≤ room) :
    ∃ r, recvFromConn (some room) size inbox = .ok r := by
  rcases Nat.lt_or_ge inbox.delivered.length size with hlt | hle
  · obtain ⟨buf, inbox', hrun, -⟩ := recvFromConn_cut inbox h hlt
    exact ⟨_, hrun⟩
  · obtain ⟨inbox', hrun, -⟩ := recvFromConn_whole inbox h hle
    exact ⟨_, hrun⟩

/-- What comes after the read of a block does not store. -/
theorem inside_of_recv {α : Type} {room size : Nat} (h : size ≤ room)
    (f : Int × List UInt8 → α) (inbox : Inbox) :
    Inside ((recvFromConn (some room) size >>= fun r => pure (f r) : Prog Inbox α) inbox) := by
  obtain ⟨⟨r, inbox'⟩, hrun⟩ := recvFromConn_returns inbox h
  rw [bind_ok hrun]
  nofun

theorem recvStringBlockWith_inside {size : Int16} (h : 0 ≤ size.toInt) (inbox : Inbox) :
    Inside (recvStringBlockWith recvGranted size inbox) := by
  have hbounds := int16_bounds size
  have hroom : sizeT (size.toInt + 1) = (size.toInt + 1).toNat :=
    sizeT_of_nonneg (by omega) (by omega)
  have hlen : sizeT size.toInt = size.toInt.toNat := sizeT_of_nonneg h (by omega)
  have hin : 0 ≤ size.toInt ∧ size.toInt < sizeT (size.toInt + 1) := by omega
  unfold recvStringBlockWith recvGranted
  simp only [pure_bind, Bool.not_true, Bool.false_eq_true, if_false, not_true_eq_false, hin,
    and_self]
  exact inside_of_recv (by omega) _ inbox

/-- The terminator is stored in front of the block. -/
theorem recvStringBlockWith_outside {size : Int16} (h : size.toInt < 0) (inbox : Inbox) :
    recvStringBlockWith recvGranted size inbox = .error .outOfBounds := by
  have hout : ¬(0 ≤ size.toInt ∧ size.toInt < sizeT (size.toInt + 1)) :=
    fun hin => absurd hin.1 (Int.not_le.mpr h)
  unfold recvStringBlockWith recvGranted
  simp only [pure_bind, Bool.not_true, Bool.false_eq_true, if_false, if_pos hout]
  rfl

theorem recvDataBlockWith_inside (size : Int64) (inbox : Inbox) :
    Inside (recvDataBlockWith recvGranted size inbox) := by
  unfold recvDataBlockWith recvGranted
  simp only [pure_bind, if_true]
  exact inside_of_recv (Nat.le_refl _) _ inbox

theorem recvStringWith_inside (size : Int16) (string : Option CharBlock) (inbox : Inbox) :
    Inside (recvStringWith recvGranted size string inbox)
      ↔ ∀ length rest, int16Codec.decode inbox.delivered = some (length, rest) →
        0 ≤ length.toInt := by
  unfold recvStringWith
  rcases recvFixed int16Codec (by decide) size inbox with
    ⟨buf, inbox', hrun, hdec⟩ | ⟨buf, inbox', hrun, hdec, -⟩
  · rw [bind_ok hrun, hdec]
    exact iff_of_true nofun nofun
  · rw [bind_ok hrun, hdec]
    simp only [ne_eq, not_true_eq_false, if_false]
    generalize int16Codec.overwrite size buf = length
    constructor
    · intro hinside length' rest heq
      cases heq
      refine Int.not_lt.mp fun hneg => ?_
      exact hinside (recvStringBlockWith_outside hneg inbox')
    · exact fun h => recvStringBlockWith_inside (h length _ rfl) inbox'

theorem recvDataWith_inside (size : Int64) (data : Option (List UInt8)) (inbox : Inbox) :
    Inside (recvDataWith recvGranted size data inbox) := by
  unfold recvDataWith
  rcases recvFixed int64Codec (by decide) size inbox with
    ⟨buf, inbox', hrun, -⟩ | ⟨buf, inbox', hrun, -, -⟩
  · rw [bind_ok hrun]
    nofun
  · rw [bind_ok hrun]
    simp only [ne_eq, not_true_eq_false, if_false]
    exact recvDataBlockWith_inside _ inbox'

-- ======================================================= the main result

/-- The stores are in their blocks exactly if the length that comes for a
string, if one does, is not negative. -/
theorem recv_stores_inside (inbox : Inbox) :
    StoresInside inbox ↔ ∀ length rest,
      int16Codec.decode inbox.delivered = some (length, rest) → 0 ≤ length.toInt := by
  constructor
  · exact fun h => (recvStringWith_inside 0 none inbox).mp (h.string 0 none)
  · exact fun h => ⟨fun size string => (recvStringWith_inside size string inbox).mpr h,
      fun size data => recvDataWith_inside size data inbox⟩

/-- The length -1, and nothing else. -/
def minusOne : Inbox :=
  ⟨[.bytes ⟨[255, 255], by decide, by decide⟩], .plenty⟩

theorem recvString_stores_outside :
    recvString 0 none minusOne = .error .outOfBounds ∧ ¬StoresInside minusOne :=
  ⟨rfl, fun h => h.string 0 none rfl⟩

end CephInC
