/-
No connection is taken for that of the wake-up pipe.

`cceph_messenger_get_conn_by_id` cuts an id to an `int`, and 2 is the id
of the pipe's connection. The first id that is cut to 2 is 2^32 + 2, and
it is never given: from 2^31 on an id does not match itself any more, so
these connections stay in the list, each with a descriptor of its own,
and descriptors are used up before ids are (`ListInv.next_lt`).
-/
import CephInC.Message.Stop
import CephInC.Message.Proofs.Threads
import Mathlib.Data.Int.Interval

namespace CephInC

open Lib

/-- The id is not cut to that of the pipe's connection. -/
def Other (id : Int64) : Prop := connIdToInt id ≠ connIdToInt wakeThreadPipeId

theorem other_of_lt {id : Int64} (h : 3 ≤ id.toInt) (h' : id.toInt < 2 ^ 32) : Other id := by
  intro heq
  have htoInt : (connIdToInt id).toInt = 2 := congrArg Int32.toInt heq
  unfold connIdToInt at htoInt
  rw [Int32.toInt_ofInt] at htoInt
  unfold Int32.size at htoInt
  rw [Int.bmod_def] at htoInt
  split at htoInt <;> omega

theorem Other.toInt_ne {id : Int64} (h : Other id) : (connIdToInt id).toInt ≠ 2 := by
  intro heq
  exact h (Int32.toInt_inj.mp heq)

/-- The descriptors in use, and the ids of the listed connections. -/
structure ListInv (s : Process) : Prop where
  holders : Exclusive s.threads s.messenger.keys
  listed : ∀ key ∈ s.messenger.keys, s.sockets key.1 ≠ none
  held : ∀ t fd, (s.threads t).holds = some fd → s.sockets fd ≠ none
  fds : ∀ fd, s.sockets fd ≠ none → 0 ≤ fd
  pipe : (s.messenger.wakeThreadPipeFd, wakeThreadPipeId) ∈ s.messenger.keys
  ids : ∀ key ∈ s.messenger.keys, key.1 ≠ s.messenger.wakeThreadPipeFd →
    3 ≤ key.2.toInt ∧ key.2.toInt ≤ s.messenger.nextConnId.toInt
  /-- An id above 2^31 is of no use to `cceph_messenger_close_conn`. -/
  kept : ∀ k : Int, 2 ^ 31 ≤ k → k ≤ s.messenger.nextConnId.toInt →
    ∃ key ∈ s.messenger.keys, key.2.toInt = k
  next : 2 ≤ s.messenger.nextConnId.toInt

namespace ListInv

variable {s : Process} {t : Nat}

/-- One key for a descriptor. -/
theorem key_inj (h : ListInv s) {a b : Int32 × Int64} (ha : a ∈ s.messenger.keys)
    (hb : b ∈ s.messenger.keys) (hfd : a.1 = b.1) : a = b := by
  have hsymm : Std.Symm fun a b : Int32 × Int64 => a.1 ≠ b.1 := ⟨fun _ _ => Ne.symm⟩
  by_contra hne
  exact h.holders.fds.forall ha hb hne hfd

/-- There are fewer descriptors than there are ids from 2^31 to 2^32. -/
theorem next_lt (h : ListInv s) : s.messenger.nextConnId.toInt < 2 ^ 32 - 1 := by
  by_contra hge
  have hkey : ∀ k : Int, ∃ fd : Int32, 2 ^ 31 ≤ k → k ≤ 2 ^ 32 - 1 →
      ∃ id : Int64, (fd, id) ∈ s.messenger.keys ∧ id.toInt = k := by
    intro k
    by_cases hk : 2 ^ 31 ≤ k ∧ k ≤ 2 ^ 32 - 1
    · obtain ⟨key, hmem, hid⟩ := h.kept k hk.1 (by omega)
      exact ⟨key.1, fun _ _ => ⟨key.2, hmem, hid⟩⟩
    · exact ⟨0, fun hlow hhigh => absurd ⟨hlow, hhigh⟩ hk⟩
  choose fdOf hfdOf using hkey
  have hmaps : ∀ k ∈ Finset.Icc (2 ^ 31 : Int) (2 ^ 32 - 1), (fdOf k).toInt
      ∈ (Finset.Ico (0 : Int) (2 ^ 31)).erase s.messenger.wakeThreadPipeFd.toInt := by
    intro k hk
    obtain ⟨hlow, hhigh⟩ := Finset.mem_Icc.mp hk
    obtain ⟨id, hmem, hid⟩ := hfdOf k hlow hhigh
    have hnonneg : 0 ≤ (fdOf k).toInt := Int32.le_iff_toInt_le.mp (h.fds _ (h.listed _ hmem))
    refine Finset.mem_erase.mpr ⟨?_, Finset.mem_Ico.mpr ⟨hnonneg, (int32_bounds _).2⟩⟩
    intro hpipe
    have hsame := h.key_inj hmem h.pipe (Int32.toInt_inj.mp hpipe)
    rw [(Prod.mk.inj hsame).2] at hid
    have htwo : wakeThreadPipeId.toInt = 2 := rfl
    omega
  have hinj : Set.InjOn (fun k => (fdOf k).toInt) (Finset.Icc (2 ^ 31 : Int) (2 ^ 32 - 1)) := by
    intro k hk k' hk' heq
    obtain ⟨hlow, hhigh⟩ := Finset.mem_Icc.mp hk
    obtain ⟨hlow', hhigh'⟩ := Finset.mem_Icc.mp hk'
    obtain ⟨id, hmem, hid⟩ := hfdOf k hlow hhigh
    obtain ⟨id', hmem', hid'⟩ := hfdOf k' hlow' hhigh'
    have hsame := h.key_inj hmem hmem' (Int32.toInt_inj.mp heq)
    rw [← hid, ← hid', (Prod.mk.inj hsame).2]
  have hcard := Finset.card_le_card_of_injOn _ hmaps hinj
  have hpipe : s.messenger.wakeThreadPipeFd.toInt ∈ Finset.Ico (0 : Int) (2 ^ 31) := by
    have hnonneg := Int32.le_iff_toInt_le.mp (h.fds _ (h.listed _ h.pipe))
    exact Finset.mem_Ico.mpr ⟨hnonneg, (int32_bounds _).2⟩
  have herase := Finset.card_erase_of_mem hpipe
  have hids := Int.card_Icc (2 ^ 31) (2 ^ 32 - 1)
  have hdescriptors := Int.card_Ico 0 (2 ^ 31)
  omega

/-- No connection but that of the pipe is taken for it. -/
theorem other (h : ListInv s) {key : Int32 × Int64} (hkey : key ∈ s.messenger.keys)
    (hne : key.1 ≠ s.messenger.wakeThreadPipeFd) : Other key.2 := by
  have hnext := h.next_lt
  obtain ⟨hlow, hhigh⟩ := h.ids key hkey hne
  exact other_of_lt hlow (by omega)

-- ============================================================== one step

/-- A thread moves on to where it holds nothing. -/
theorem move (h : ListInv s) {phase : Phase} (hholds : phase.holds = none)
    {messenger : Messenger} (hkeys : messenger.keys = s.messenger.keys)
    (hfd : messenger.wakeThreadPipeFd = s.messenger.wakeThreadPipeFd)
    (hnext : messenger.nextConnId = s.messenger.nextConnId) :
    ListInv { s.move t phase with messenger := messenger } where
  holders := by
    show Exclusive (Function.update s.threads t phase) messenger.keys
    rw [hkeys]
    exact h.holders.release hholds
  listed key hkey := by
    have hkey : key ∈ messenger.keys := hkey
    rw [hkeys] at hkey
    exact h.listed key hkey
  held := by
    refine (Function.forall_update_iff s.threads fun _ p => ∀ fd, p.holds = some fd →
      s.sockets fd ≠ none).mpr ⟨?_, fun u _ => h.held u⟩
    intro fd hheld
    rw [hholds] at hheld
    cases hheld
  fds := h.fds
  pipe := by
    show (messenger.wakeThreadPipeFd, _) ∈ messenger.keys
    rw [hkeys, hfd]
    exact h.pipe
  ids key hkey hne := by
    have hkey : key ∈ messenger.keys := hkey
    have hne : key.1 ≠ messenger.wakeThreadPipeFd := hne
    rw [hkeys] at hkey
    rw [hfd] at hne
    show 3 ≤ key.2.toInt ∧ key.2.toInt ≤ messenger.nextConnId.toInt
    rw [hnext]
    exact h.ids key hkey hne
  kept k hlow hhigh := by
    have hhigh : k ≤ messenger.nextConnId.toInt := hhigh
    rw [hnext] at hhigh
    show ∃ key ∈ messenger.keys, key.2.toInt = k
    rw [hkeys]
    exact h.kept k hlow hhigh
  next := by
    show 2 ≤ messenger.nextConnId.toInt
    rw [hnext]
    exact h.next

/-- A new socket. -/
theorem openSocket (h : ListInv s) {host : CString} {port fd : Int32}
    (hclosed : s.sockets fd = none) (hfd : 0 ≤ fd) :
    ListInv { s.move t (.opened host port fd) with
      sockets := Function.update s.sockets fd (some s.opened)
      opened := s.opened + 1 } := by
  have hmono : ∀ fd', s.sockets fd' ≠ none →
      Function.update s.sockets fd (some s.opened) fd' ≠ none := by
    intro fd' hopen
    have hne : fd' ≠ fd := by
      intro heq
      rw [heq] at hopen
      exact hopen hclosed
    rw [Function.update_of_ne hne]
    exact hopen
  have hheld : ∀ u fd', (Function.update s.threads t (.opened host port fd) u).holds = some fd' →
      Function.update s.sockets fd (some s.opened) fd' ≠ none := by
    refine (Function.forall_update_iff s.threads fun _ p => ∀ fd', p.holds = some fd' →
      Function.update s.sockets fd (some s.opened) fd' ≠ none).mpr ⟨?_, ?_⟩
    · intro fd' hfd'
      cases hfd'
      rw [Function.update_self]
      exact Option.some_ne_none _
    · exact fun u _ fd' hu => hmono fd' (h.held u fd' hu)
  have hholders : Exclusive (Function.update s.threads t (.opened host port fd))
      s.messenger.keys := by
    apply h.holders.move
    intro fd' hfd'
    cases hfd'
    exact ⟨fun key hkey heq => h.listed key hkey (heq ▸ hclosed),
      fun u _ hu => h.held u _ hu hclosed⟩
  exact
    { holders := hholders
      listed := fun key hkey => hmono _ (h.listed key hkey)
      held := hheld
      fds := by
        intro fd' hopen
        by_cases heq : fd' = fd
        · rw [heq]
          exact hfd
        · have hopen : Function.update s.sockets fd (some s.opened) fd' ≠ none := hopen
          rw [Function.update_of_ne heq] at hopen
          exact h.fds fd' hopen
      pipe := h.pipe
      ids := h.ids
      kept := h.kept
      next := h.next }

/-- The next id is one more. -/
theorem nextConnId_add (h : ListInv s) :
    (s.messenger.nextConnId + 1).toInt = s.messenger.nextConnId.toInt + 1 := by
  have hlt := h.next_lt
  have hle := h.next
  rw [Int64.toInt_add, show (1 : Int64).toInt = 1 from rfl, Int.bmod_def]
  split <;> omega

/-- The socket a thread has opened becomes a connection. -/
theorem listConn (h : ListInv s) {host : CString} {port fd state : Int32}
    (hphase : s.threads t = .opened host port fd) (socket : Nat) :
    ListInv { s.move t (.listed fd (s.messenger.nextConnId + 1)) with
      messenger := (messengerListConn s.messenger host port fd state).2
      connOf := Function.update s.connOf socket (some (s.messenger.nextConnId + 1)) } := by
  have hnext := h.nextConnId_add
  have hle := h.next
  have hmine : (s.threads t).holds = some fd := by rw [hphase]; rfl
  have hholders : Exclusive
      (Function.update s.threads t (.listed fd (s.messenger.nextConnId + 1)))
      ((fd, s.messenger.nextConnId + 1) :: s.messenger.keys) := by
    apply (h.holders.release rfl).cons (h.holders.apart t fd hmine)
    refine (Function.forall_update_iff s.threads fun _ p => p.holds ≠ some fd).mpr ⟨nofun, ?_⟩
    exact fun u hu hheld => hu (h.holders.alone u t fd hheld hmine)
  exact
    { holders := hholders
      listed := List.forall_mem_cons.mpr ⟨h.held t fd hmine, h.listed⟩
      held := by
        refine (Function.forall_update_iff s.threads fun _ p => ∀ fd', p.holds = some fd' →
          s.sockets fd' ≠ none).mpr ⟨nofun, fun u _ => h.held u⟩
      fds := h.fds
      pipe := List.mem_cons_of_mem _ h.pipe
      ids := by
        refine List.forall_mem_cons.mpr ⟨fun _ => ?_, fun key hkey hne => ?_⟩
        · show 3 ≤ (s.messenger.nextConnId + 1).toInt
            ∧ (s.messenger.nextConnId + 1).toInt ≤ (s.messenger.nextConnId + 1).toInt
          omega
        · obtain ⟨hlow, hhigh⟩ := h.ids key hkey hne
          refine ⟨hlow, ?_⟩
          show key.2.toInt ≤ (s.messenger.nextConnId + 1).toInt
          omega
      kept := by
        intro k hlow hhigh
        have hhigh : k ≤ (s.messenger.nextConnId + 1).toInt := hhigh
        by_cases hnew : k = s.messenger.nextConnId.toInt + 1
        · exact ⟨_, List.mem_cons_self, by rw [hnew]; exact hnext⟩
        · obtain ⟨key, hkey, hid⟩ := h.kept k hlow (by omega)
          exact ⟨key, List.mem_cons_of_mem _ hkey, hid⟩
      next := by
        show 2 ≤ (s.messenger.nextConnId + 1).toInt
        omega }

/-- A connection other than that of the pipe leaves the list. -/
theorem unlink (h : ListInv s) {connId : Int64} {next : Option Delivery}
    (hother : Other connId) {conn : Connection} {messenger : Messenger}
    (hunlink : messengerUnlinkConn s.messenger connId = some (conn, messenger)) :
    conn.fd ≠ s.messenger.wakeThreadPipeFd
      ∧ ListInv { s.move t (.unlinked conn next) with messenger := messenger } := by
  obtain ⟨hmem, hsub⟩ := Exclusive.unlink_mem hunlink
  have hholders : Exclusive (Function.update s.threads t (.unlinked conn next)) messenger.keys :=
    h.holders.unlink hunlink
  obtain ⟨conn', hfind, heq⟩ := Option.map_eq_some_iff.mp hunlink
  cases heq
  have hid : conn.id.toInt = (connIdToInt connId).toInt := of_decide_eq_true
    (List.find?_some (p := fun conn : Connection =>
      decide (conn.id.toInt = (connIdToInt connId).toInt)) hfind)
  have hne : conn.fd ≠ s.messenger.wakeThreadPipeFd := by
    intro heq
    have hsame := (Prod.mk.inj (h.key_inj hmem h.pipe heq)).2
    rw [hsame] at hid
    exact hother.toInt_ne hid.symm
  let after : Messenger := { s.messenger with
    connList := s.messenger.connList.eraseP
      fun conn => conn.id.toInt = (connIdToInt connId).toInt }
  -- what the search does not find stays
  have hstays : ∀ key ∈ s.messenger.keys, key.2.toInt ≠ (connIdToInt connId).toInt →
      key ∈ after.keys := by
    intro key hkey hnot
    obtain ⟨c, hc, rfl⟩ := List.mem_map.mp hkey
    refine List.mem_map.mpr ⟨c, (List.mem_eraseP_of_neg ?_).mpr hc, rfl⟩
    exact fun heq => hnot (of_decide_eq_true heq)
  refine ⟨hne, ?_⟩
  exact
    { holders := hholders
      listed := fun key hkey => h.listed key (hsub.subset hkey)
      held := by
        refine (Function.forall_update_iff s.threads fun _ p => ∀ fd', p.holds = some fd' →
          s.sockets fd' ≠ none).mpr ⟨?_, fun u _ => h.held u⟩
        intro fd' hfd'
        cases hfd'
        exact h.listed _ hmem
      fds := h.fds
      pipe := hstays _ h.pipe (fun heq => hother.toInt_ne heq.symm)
      ids := fun key hkey => h.ids key (hsub.subset hkey)
      kept := by
        intro k hlow hhigh
        obtain ⟨key, hkey, hk⟩ := h.kept k hlow hhigh
        have hbound := int32_bounds (connIdToInt connId)
        exact ⟨key, hstays key hkey (by omega), hk⟩
      next := h.next }

/-- A descriptor is closed by the thread that holds it. -/
theorem shut (h : ListInv s) {conn : Connection} {next : Option Delivery}
    (hphase : s.threads t = .unlinked conn next) :
    ListInv { s.move t (.resume next) with
      messenger := messengerShutConn s.messenger conn
      sockets := Function.update s.sockets conn.fd none } := by
  have hmine : (s.threads t).holds = some conn.fd := by rw [hphase]; rfl
  exact
    { holders := h.holders.release (resume_holds next)
      listed := by
        intro key hkey
        have hne := h.holders.apart t _ hmine key hkey
        show Function.update s.sockets conn.fd none key.1 ≠ none
        rw [Function.update_of_ne hne]
        exact h.listed key hkey
      held := by
        refine (Function.forall_update_iff s.threads fun _ p => ∀ fd', p.holds = some fd' →
          Function.update s.sockets conn.fd none fd' ≠ none).mpr ⟨?_, ?_⟩
        · intro fd' hfd'
          rw [resume_holds] at hfd'
          cases hfd'
        · intro u hu fd' hfd'
          have hne : fd' ≠ conn.fd := fun heq =>
            hu (h.holders.alone u t _ (heq ▸ hfd') hmine)
          rw [Function.update_of_ne hne]
          exact h.held u fd' hfd'
      fds := by
        intro fd hopen
        have hopen : Function.update s.sockets conn.fd none fd ≠ none := hopen
        have hne : fd ≠ conn.fd := by
          intro heq
          rw [heq, Function.update_self] at hopen
          exact hopen rfl
        rw [Function.update_of_ne hne] at hopen
        exact h.fds fd hopen
      pipe := h.pipe
      ids := h.ids
      kept := h.kept
      next := h.next }

end ListInv

end CephInC
