/-
Which objects are written inside `./data`.

Any string of up to 32767 bytes is delivered (`delivered_iff`), and the
server makes a path of it as it is. So the path stays inside only for
the names that have a single part and are short enough
(`staysInside_iff`).
-/
import CephInC.Message.Proofs.Fields
import CephInC.Osd.Paths
import CephInC.Osd.Proofs.Stored

namespace CephInC

open Lib

variable {oid : CString}

-- ============================================================== the path

/-- The last of the three calls of `strcat` decides. -/
theorem ioWriteObjectPath_eq (oid : CString) :
    ioWriteObjectPath oid = strcat maxPathLength
      ⟨dataDirPath.bytes ++ slash.bytes, by decide⟩ oid := rfl

theorem ioWriteObjectPath_over (h : ¬PathFits oid) :
    ioWriteObjectPath oid = .error .outOfBounds := by
  rw [ioWriteObjectPath_eq]
  exact if_neg h

theorem ioWriteObjectPath_fits (h : PathFits oid) :
    ∃ path, ioWriteObjectPath oid = .ok path
      ∧ path.bytes = dataDirPath.bytes ++ 47 :: oid.bytes := by
  rw [ioWriteObjectPath_eq]
  exact ⟨_, if_pos h, rfl⟩

/-- `io_write_object` ends the process over the path, before it gets to
`open`, or in LOG behind it. -/
theorem ioWriteObject_path (logId : Int64) (oid : CString) (length : Int64) (io : IoOutcome) :
    ioWriteObject logId oid length io = .error .outOfBounds
      ↔ ioWriteObjectPath oid = .error .outOfBounds
        ∨ ¬∀ l ∈ io.line logId oid length, l.Fits := by
  by_cases hfits : PathFits oid
  · obtain ⟨path, hpath, -⟩ := ioWriteObjectPath_fits hfits
    rw [ioWriteObject_fits hfits, hpath, or_iff_right (fun h => by cases h)]
    split
    · rename_i hlines
      exact iff_of_false (fun h => by cases h) (not_not_intro hlines)
    · rename_i hlines
      exact iff_of_true rfl hlines
  · rw [ioWriteObjectPath_over hfits, ioWriteObject_over hfits]
    exact iff_of_true rfl (.inl rfl)

theorem ioWriteObjectPath_ok {path : CString} (h : ioWriteObjectPath oid = .ok path) :
    PathFits oid ∧ path.bytes = dataDirPath.bytes ++ 47 :: oid.bytes := by
  by_cases hfits : PathFits oid
  · obtain ⟨path', hpath, hbytes⟩ := ioWriteObjectPath_fits hfits
    rw [hpath] at h
    cases h
    exact ⟨hfits, hbytes⟩
  · rw [ioWriteObjectPath_over hfits] at h
    cases h

/-- The path goes by `data` and then by the names of the object. -/
theorem names_path {path : CString} (h : path.bytes = dataDirPath.bytes ++ 47 :: oid.bytes) :
    path.names = dataName :: oid.names := by
  have hdir : pathNames 47 46 dataDirPath.bytes = [dataName] := by
    show pathNames 47 46 ([46] ++ (47 : UInt8) :: dataName) = [dataName]
    rw [pathNames_append, pathNames_dot _ _ (by decide),
      pathNames_name _ _ (by decide) (by decide) (by decide), List.nil_append]
  unfold CString.names
  rw [h, pathNames_append, hdir]
  rfl

-- ============================================================ where it leads

/-- One name more leads to an entry of `./data`. -/
theorem inData_of_one {path : CString} {name : List UInt8}
    (h : path.names = [dataName, name]) (hname : name ≠ parentName) : InData path := by
  refine ⟨name, hname, fun fs cwd data hdata => ?_⟩
  rw [h, fs.entry_cons cwd dataName (List.cons_ne_nil name []), hdata]
  rfl

/-- If it leads there wherever names lead, there is but one. -/
theorem InData.one {path : CString} {names : List (List UInt8)} (h : InData path)
    (hnames : path.names = dataName :: names) : ∃ name, names = [name] ∧ name ≠ parentName := by
  obtain ⟨name, hname, hall⟩ := h
  have hentry := hall (depths UInt8) (0 : Nat) (1 : Nat) rfl
  rw [hnames] at hentry
  obtain ⟨front, hfront, hdepth⟩ := depths_entry hentry
  simp only at hfront hdepth
  have hone : front.length = 1 := by omega
  obtain ⟨first, rfl⟩ := List.length_eq_one_iff.mp hone
  rw [List.singleton_append, List.cons.injEq] at hfront
  exact ⟨name, hfront.2, hname⟩

-- ======================================================= the main result

/-- An object is written inside `./data` exactly if its name is plain. -/
theorem staysInside_iff (oid : CharBlock) : StaysInside oid.str ↔ PlainName oid.str := by
  have hshort : PathFits oid.str ↔ strlen oid.str ≤ 4088 := by
    have hdir : dataDir.length = 7 := rfl
    unfold PathFits maxPathLength
    omega
  constructor
  · rintro ⟨path, hpath, hin⟩
    obtain ⟨hfits, hbytes⟩ := ioWriteObjectPath_ok hpath
    exact ⟨hshort.mp hfits, hin.one (names_path hbytes)⟩
  · rintro ⟨hlength, name, hnames, hname⟩
    obtain ⟨path, hpath, hbytes⟩ := ioWriteObjectPath_fits (hshort.mpr hlength)
    refine ⟨path, hpath, inData_of_one ?_ hname⟩
    rw [names_path hbytes, hnames]

-- ====================================================== what is delivered

/-- Bytes behind their number. -/
def stringChunk (bytes : List UInt8) (h : bytes.length < 2 ^ 15) : Chunk where
  bytes := int16Codec.bytes (Int16.ofNat bytes.length) ++ bytes
  nonempty := by
    apply List.ne_nil_of_length_pos
    rw [List.length_append, int16Codec.bytes_length, int16Codec_size]
    omega
  fits := by
    rw [List.length_append, int16Codec.bytes_length, int16Codec_size]
    omega

/-- The arrivals of one string. -/
def stringInbox (bytes : List UInt8) (h : bytes.length < 2 ^ 15) : Inbox :=
  ⟨[.bytes (stringChunk bytes h)], .plenty⟩

section
variable {bytes : List UInt8} (h : bytes.length < 2 ^ 15)

/-- The number comes first. -/
theorem stringInbox_length : int16Codec.decode (stringInbox bytes h).delivered
    = some (Int16.ofNat bytes.length, bytes) := by
  apply int16Codec.decode_eq_some.mpr
  show (stringChunk bytes h).bytes ++ [] = _
  rw [List.append_nil]
  rfl

theorem stringInbox_wire : wireString (stringInbox bytes h).delivered
    = some ((Int16.ofNat bytes.length, bytes), []) := by
  have hsize : sizeT (Int16.ofNat bytes.length).toInt = bytes.length := by
    rw [Int16.toInt_ofNat_of_lt h, sizeT_of_nonneg (by omega) (by omega), Int.toNat_natCast]
  unfold wireString
  rw [decoder_bind_some (stringInbox_length h), hsize,
    decoder_bind_some (takeBytes_of_le (Nat.le_refl bytes.length)), List.take_length,
    List.drop_length]
  rfl

end

theorem delivered_close {bytes : List UInt8} (h : bytes.length < 2 ^ 15) :
    Delivered (.close bytes) := by
  refine ⟨0, none, stringInbox bytes h, ?_⟩
  cases recvString_outcome 0 none (stringInbox bytes h) with
  | whole oidSize bytes' inbox' hrun hdec _ _ =>
      rw [stringInbox_wire, Option.some.injEq, Prod.mk.injEq, Prod.mk.injEq] at hdec
      obtain ⟨⟨-, rfl⟩, -⟩ := hdec
      exact ⟨_, _, hrun⟩
  | cut _ _ _ _ hdec _ =>
      rw [stringInbox_wire] at hdec
      cases hdec
  | crash e _ hwhy =>
      obtain ⟨size, rest, hlength, hneg⟩ := hwhy rfl
      rw [stringInbox_length] at hlength
      cases hlength
      rw [Int16.toInt_ofNat_of_lt h] at hneg
      omega

/-- Any bytes that an `int16_t` counts can be delivered, and no others. -/
theorem delivered_iff (oid : CharBlock) :
    Delivered oid ↔ ∃ bytes : List UInt8, bytes.length < 2 ^ 15 ∧ oid = .close bytes := by
  constructor
  · rintro ⟨size, string, inbox, n, inbox', hrun⟩
    cases recvString_outcome size string inbox with
    | whole oidSize bytes inbox'' hrun' hdec hsize _ =>
        rw [hrun'] at hrun
        cases hrun
        refine ⟨bytes, ?_, rfl⟩
        unfold wireString at hdec
        obtain ⟨size', mid, -, hdec⟩ := decoder_bind_eq_some hdec
        obtain ⟨bytes', rest, htake, hret⟩ := decoder_bind_eq_some hdec
        cases hret
        have hbounds := int16_bounds n
        rw [(takeBytes_eq_some.mp htake).1, sizeT_of_nonneg hsize (by omega)]
        omega
    | cut oidSize oid' inbox'' hrun' _ _ =>
        rw [hrun'] at hrun
        cases hrun
    | crash e hrun' _ =>
        rw [hrun'] at hrun
        cases hrun
  · rintro ⟨bytes, hshort, rfl⟩
    exact delivered_close hshort

/-- `../a` is delivered like any other name. -/
theorem delivered_outside :
    ¬∀ oid : CharBlock, Delivered oid → StaysInside oid.str := by
  intro hall
  have hdelivered : Delivered (.close [46, 46, 47, 97]) :=
    (delivered_iff _).mpr ⟨_, by decide, rfl⟩
  obtain ⟨path, hpath, hin⟩ := hall _ hdelivered
  obtain ⟨name, hnames, -⟩ := hin.one (names_path (ioWriteObjectPath_ok hpath).2)
  have htwo : (CharBlock.close [46, 46, 47, 97]).str.names = [parentName, [97]] := by
    show pathNames 47 46 (parentName ++ (47 : UInt8) :: [97]) = _
    rw [pathNames_append, pathNames_name _ _ (by decide) (by decide) (by decide),
      pathNames_name _ _ (by decide) (by decide) (by decide)]
    rfl
  rw [htwo] at hnames
  cases hnames

end CephInC
