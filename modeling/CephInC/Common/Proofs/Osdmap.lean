/-
Maps of object servers go through a buffer unchanged, as long as an
`int32_t` counts its blocks (`decodeOsdmaps_bytes`).

A decoder drops what its reads tell it. It asserts the versions, and a
count below zero cannot be allocated; apart from that it takes what a
read cut short leaves in its variables. `decodesExactly_iff` says for
which bytes that is as good as checking.
-/
import CephInC.Common.Osdmap
import CephInC.Common.Proofs.Encode

namespace CephInC

open Lib

variable {buffer : Buffer} {content : List UInt8}

-- ============================================================== encoding

theorem osdEntityBytes_length (osd : OsdRecord) : (osdEntityBytes osd).length = 5 := by
  unfold osdEntityBytes
  rw [List.length_append, int8Codec.bytes_length, int32Codec.bytes_length]
  rfl

theorem osdEntities_length (osds : List OsdRecord) :
    (osds.flatMap osdEntityBytes).length = 5 * osds.length := by
  induction osds with
  | nil => rfl
  | cons osd osds ih =>
      rw [List.flatMap_cons, List.length_append, osdEntityBytes_length, ih, List.length_cons]
      omega

theorem osdmapBytes_length (osdmap : OsdmapRecord) :
    (osdmapBytes osdmap).length = 13 + 5 * osdmap.entities.length := by
  unfold osdmapBytes
  simp only [List.length_append, int8Codec.bytes_length, int32Codec.bytes_length,
    osdEntities_length, int8Codec_size, int32Codec_size]

theorem encodeOsdEntity_encodes (osd : OsdRecord) :
    Encodes (fun buffer => encodeOsdEntity buffer osd) (osdEntityBytes osd) := by
  have hversion := encodeBasicType_encodes int8Codec (by decide) (by decide) 1
  have hid := encodeBasicType_encodes int32Codec (by decide) (by decide) osd.id
  have hboth := hversion.append (hid.append encodes_nil)
  rw [List.append_nil] at hboth
  exact hboth

theorem encodeOsdsLoop_encodes (left : Nat) : ∀ osds : List OsdRecord, left ≤ osds.length →
    Encodes (fun buffer => encodeOsdsLoop left osds buffer >>= fun b => pure (CCEPH_OK, b))
      ((osds.take left).flatMap osdEntityBytes) := by
  induction left with
  | zero =>
      intro osds _
      exact encodes_nil
  | succ left ih =>
      intro osds hleft
      cases osds with
      | nil => exact absurd hleft (Nat.not_succ_le_zero left)
      | cons osd osds =>
          have hrest := ih osds (Nat.le_of_succ_le_succ hleft)
          have hboth := (encodeOsdEntity_encodes osd).append hrest
          have hloop : ∀ buffer, (encodeOsdsLoop (left + 1) (osd :: osds) buffer
                >>= fun b => pure (CCEPH_OK, b))
              = encodeOsdEntity buffer osd >>= fun r => encodeOsdsLoop left osds r.2
                >>= fun b => pure (CCEPH_OK, b) := by
            intro buffer
            show (encodeOsdEntity buffer osd >>= fun r => encodeOsdsLoop left osds r.2) >>= _ = _
            rw [bind_assoc]
          rw [List.take_succ_cons, List.flatMap_cons, funext hloop]
          exact hboth

theorem OsdmapRecord.Sound.entities_length {osdmap : OsdmapRecord} (h : osdmap.Sound) :
    osdmap.entities.length = osdmap.osdCount.toInt.toNat := by
  have hcount := h.entities
  unfold OsdmapRecord.entities
  rw [List.length_take]
  omega

/-- The fields, and behind them as many entities as the map says. -/
theorem encodeOsdmap_encodes {osdmap : OsdmapRecord} (hsound : osdmap.Sound) :
    Encodes (fun buffer => encodeOsdmap buffer osdmap) (osdmapBytes osdmap) := by
  have hversion := encodeBasicType_encodes int8Codec (by decide) (by decide) 1
  have hepoch := encodeBasicType_encodes int32Codec (by decide) (by decide) osdmap.epoch
  have hpgCount := encodeBasicType_encodes int32Codec (by decide) (by decide) osdmap.pgCount
  have hosdCount := encodeBasicType_encodes int32Codec (by decide) (by decide) osdmap.osdCount
  have hosds : Encodes (fun buffer =>
      if osdmap.osdCount > 0 then do
        let osds ← deref osdmap.osds
        let buffer ← encodeOsdsLoop osdmap.osdCount.toInt.toNat osds buffer
        return (CCEPH_OK, buffer)
      else return (CCEPH_OK, buffer)) (osdmap.entities.flatMap osdEntityBytes) := by
    by_cases hpos : osdmap.osdCount > 0
    · have hcount := hsound.entities
      have hpos' := int32_pos_iff.mp hpos
      simp only [if_pos hpos]
      unfold OsdmapRecord.entities
      cases hosds : osdmap.osds with
      | none =>
          rw [hosds] at hcount
          exact absurd hcount (by show ¬osdmap.osdCount.toInt ≤ 0; omega)
      | some osds =>
          rw [hosds] at hcount
          have hcount' : osdmap.osdCount.toInt ≤ osds.length := hcount
          exact encodeOsdsLoop_encodes _ osds (by omega)
    · have hzero : ¬0 < osdmap.osdCount.toInt := fun hlt => hpos (int32_pos_iff.mpr hlt)
      have hnone : osdmap.entities = [] := by
        apply List.eq_nil_of_length_eq_zero
        rw [hsound.entities_length]
        omega
      simp only [if_neg hpos]
      rw [hnone]
      exact encodes_nil
  have hall := hversion.append (hepoch.append (hpgCount.append (hosdCount.append hosds)))
  simp only [← List.append_assoc] at hall
  exact hall

theorem encodeOsdmap_appends (h : buffer.Holds content) {osdmap : OsdmapRecord}
    (hsound : osdmap.Sound)
    (hlimit : content.length + (osdmapBytes osdmap).length ≤ bufferLimit) :
    Appends (encodeOsdmap buffer osdmap) content (osdmapBytes osdmap) :=
  (encodeOsdmap_encodes hsound).appends h hlimit

theorem encodeOsdmaps_appends (osdmaps : List OsdmapRecord) : ∀ {buffer : Buffer}
    {content : List UInt8}, buffer.Holds content → (∀ osdmap ∈ osdmaps, osdmap.Sound) →
    content.length + (osdmaps.flatMap osdmapBytes).length ≤ bufferLimit → ∃ buffer',
      encodeOsdmaps buffer osdmaps .plenty
          = .ok ((List.replicate osdmaps.length CCEPH_OK, buffer'), .plenty)
        ∧ buffer'.Holds (content ++ osdmaps.flatMap osdmapBytes) := by
  induction osdmaps with
  | nil =>
      intro buffer content h _ _
      refine ⟨buffer, rfl, ?_⟩
      rw [List.flatMap_nil, List.append_nil]
      exact h
  | cons osdmap osdmaps ih =>
      intro buffer content h hsound hlimit
      rw [List.flatMap_cons, List.length_append] at hlimit
      obtain ⟨buffer₁, hrun₁, hholds₁⟩ :=
        encodeOsdmap_appends h (hsound osdmap List.mem_cons_self) (by omega)
      obtain ⟨buffer₂, hrun₂, hholds₂⟩ := ih hholds₁
        (fun m hm => hsound m (List.mem_cons_of_mem _ hm)) (by rw [List.length_append]; omega)
      refine ⟨buffer₂, ?_, ?_⟩
      · unfold encodeOsdmaps
        rw [bind_ok hrun₁]
        simp only
        rw [bind_ok hrun₂]
        rfl
      · rw [List.flatMap_cons, ← List.append_assoc]
        exact hholds₂

-- ============================================================== decoding

/-- An entity that is there is read. -/
theorem decodeOsdEntity_bytes (h : buffer.Holds content) {p : Nat} {osd : OsdRecord}
    {rest : List UInt8} (hbytes : content.drop p = osdEntityBytes osd ++ rest) (old : OsdRecord)
    (s : Allocs) :
    decodeOsdEntity buffer (readerAt content p) old s
      = .ok ((CCEPH_OK, osd, readerAt content (p + 5)), s) ∧ content.drop (p + 5) = rest := by
  unfold osdEntityBytes at hbytes
  rw [List.append_assoc] at hbytes
  obtain ⟨⟨ret₁, hrun₁⟩, hrest₁⟩ :=
    decodeBasicType_bytes int8Codec (by decide) (by decide) h hbytes 0 s
  obtain ⟨⟨ret₂, hrun₂⟩, hrest₂⟩ :=
    decodeBasicType_bytes int32Codec (by decide) (by decide) h hrest₁ old.id s
  refine ⟨?_, hrest₂⟩
  unfold decodeOsdEntity decodeVersion decodeInt8 decodeInt32
  rw [bind_ok hrun₁]
  simp only [assert_pos rfl, pure_bind]
  rw [bind_ok hrun₂]
  rfl

theorem decodeOsdsLoop_bytes (h : buffer.Holds content) (osds : List OsdRecord) :
    ∀ (block : List OsdRecord) (p : Nat) {rest : List UInt8}, block.length = osds.length →
    content.drop p = osds.flatMap osdEntityBytes ++ rest → ∀ s,
      decodeOsdsLoop buffer (readerAt content p) block s
        = .ok ((osds, readerAt content (p + 5 * osds.length)), s) := by
  induction osds with
  | nil =>
      intro block p rest hblock _ s
      rw [List.length_eq_zero_iff.mp hblock]
      rfl
  | cons osd osds ih =>
      intro block p rest hblock hbytes s
      cases block with
      | nil => cases hblock
      | cons old block =>
          rw [List.flatMap_cons, List.append_assoc] at hbytes
          obtain ⟨hrun, hrest⟩ := decodeOsdEntity_bytes h hbytes old s
          have hloop := ih block (p + 5) (Nat.succ_inj.mp hblock) hrest s
          unfold decodeOsdsLoop
          rw [bind_ok hrun]
          simp only
          rw [bind_ok hloop, List.length_cons,
            show p + 5 * (osds.length + 1) = p + 5 + 5 * osds.length by omega]
          rfl

section
variable {fresh : Nat → OsdRecord} {old : OsdmapRecord}

/-- The caller's structure once the header is read, or what there is of
it. -/
def headerOver (old : OsdmapRecord) (bytes : List UInt8) : OsdmapRecord :=
  { old with
    epoch := int32Codec.overwrite old.epoch ((bytes.drop 1).take 4)
    pgCount := int32Codec.overwrite old.pgCount ((bytes.drop 5).take 4)
    osdCount := int32Codec.overwrite old.osdCount ((bytes.drop 9).take 4) }

/-- The decoder after the header. -/
def decodeOsdmapOsds (buffer : Buffer) (fresh : Nat → OsdRecord) (reader : BufferReader)
    (osdmap : OsdmapRecord) : Prog Allocs (Int × OsdmapRecord × BufferReader) := do
  if !(← malloc (sizeT (sizeofOsdEntity * osdmap.osdCount.toInt))) then
    return (CCEPH_ERR_NO_ENOUGH_MEM, { osdmap with osds := none }, reader)
  let block := (List.range osdmap.osdCount.toInt.toNat).map fresh
  let (osds, reader) ← decodeOsdsLoop buffer reader block
  return (CCEPH_OK, { osdmap with osds := some osds }, reader)

/-- What comes of the header. -/
theorem decodeOsdmap_header (h : buffer.Holds content) (p : Nat) (s : Allocs) :
    decodeOsdmap buffer fresh (readerAt content p) old s
      = if int8Codec.overwrite 0 ((content.drop p).take 1) = 1 then
          decodeOsdmapOsds buffer fresh (readerAt content (p + 13))
            (headerOver old (content.drop p)) s
        else .error .assertFail := by
  obtain ⟨ret₁, hrun₁⟩ := decodeBasicType_at int8Codec (by decide) (by decide) h p 0 s
  obtain ⟨ret₂, hrun₂⟩ :=
    decodeBasicType_at int32Codec (by decide) (by decide) h (p + 1) old.epoch s
  obtain ⟨ret₃, hrun₃⟩ :=
    decodeBasicType_at int32Codec (by decide) (by decide) h (p + 5) old.pgCount s
  obtain ⟨ret₄, hrun₄⟩ :=
    decodeBasicType_at int32Codec (by decide) (by decide) h (p + 9) old.osdCount s
  rw [int8Codec_size] at hrun₁
  rw [int32Codec_size] at hrun₂ hrun₃ hrun₄
  unfold decodeOsdmap decodeVersion decodeInt8 decodeEpoch decodeInt32 decodeInt
  rw [bind_ok hrun₁]
  by_cases hv : int8Codec.overwrite 0 ((content.drop p).take 1) = 1
  · rw [if_pos hv]
    simp only [assert_pos hv, pure_bind]
    rw [bind_ok hrun₂]
    simp only
    rw [bind_ok hrun₃]
    simp only
    rw [bind_ok hrun₄]
    unfold decodeOsdmapOsds headerOver
    simp only [List.drop_drop]
  · rw [if_neg hv]
    simp only [assert_neg hv, fault_bind]
    rfl

/-- A map that is there is decoded. -/
theorem decodeOsdmap_bytes (h : buffer.Holds content) {p : Nat} {osdmap : OsdmapRecord}
    (hsound : osdmap.Sound) {rest : List UInt8}
    (hbytes : content.drop p = osdmapBytes osdmap ++ rest) :
    decodeOsdmap buffer fresh (readerAt content p) old .plenty
      = .ok ((CCEPH_OK, { osdmap with osds := some osdmap.entities },
          readerAt content (p + (osdmapBytes osdmap).length)), .plenty) := by
  have hcount := int32_bounds osdmap.osdCount
  have hnonneg : 0 ≤ osdmap.osdCount.toInt := Int32.le_iff_toInt_le.mp hsound.count
  unfold osdmapBytes at hbytes
  simp only [List.append_assoc] at hbytes
  obtain ⟨hversion, hrest₁⟩ := int8Codec.split_bytes hbytes
  obtain ⟨hepoch, hrest₅⟩ := int32Codec.split_bytes hrest₁
  obtain ⟨hpgCount, hrest₉⟩ := int32Codec.split_bytes hrest₅
  obtain ⟨hosdCount, hrest₁₃⟩ := int32Codec.split_bytes hrest₉
  simp only [int8Codec_size, int32Codec_size] at hversion hepoch
  simp only [int8Codec_size, int32Codec_size, Nat.add_assoc, Nat.reduceAdd] at hpgCount hosdCount
  simp only [int8Codec_size, int32Codec_size, Nat.add_assoc, Nat.reduceAdd] at hrest₁₃
  have hfield : ∀ old value : Int32,
      int32Codec.overwrite old (int32Codec.bytes value) = value := by
    intro old value
    rw [int32Codec.overwrite_full old (int32Codec.bytes_length value), int32Codec.ofBytes_bytes]
  have hheader : headerOver old (content.drop p) = { osdmap with osds := old.osds } := by
    unfold headerOver
    simp only [List.drop_drop]
    rw [hepoch, hpgCount, hosdCount, hfield, hfield, hfield]
  have hloop := decodeOsdsLoop_bytes h osdmap.entities
    ((List.range osdmap.osdCount.toInt.toNat).map fresh) (p + 13)
    (by rw [List.length_map, List.length_range, hsound.entities_length]) hrest₁₃ .plenty
  have hsize : sizeT (sizeofOsdEntity * osdmap.osdCount.toInt) < 2 ^ 63 := by
    unfold sizeofOsdEntity
    rw [sizeT_of_nonneg (by omega) (by omega)]
    omega
  rw [decodeOsdmap_header h, hversion, int8Codec.overwrite_full 0 (int8Codec.bytes_length 1),
    int8Codec.ofBytes_bytes, if_pos rfl, hheader]
  unfold decodeOsdmapOsds
  rw [bind_ok (malloc_plenty hsize)]
  simp only [Bool.not_true, Bool.false_eq_true, if_false]
  rw [bind_ok hloop, osdmapBytes_length, ← Nat.add_assoc]
  rfl

/-- The version is there, and the count that is left in the structure is
below zero. -/
def CountRefused (old : OsdmapRecord) (bytes : List UInt8) : Prop :=
  bytes.head? = some 1 ∧ int32Codec.overwrite old.osdCount ((bytes.drop 9).take 4) < 0

theorem int8Codec_overwrite_one {b : UInt8} : int8Codec.overwrite 0 [b] = 1 ↔ b = 1 := by
  rw [int8Codec.overwrite_full 0 (show [b].length = int8Codec.size from rfl)]
  constructor
  · intro h
    have hbytes := int8Codec.bytes_ofBytes [b] rfl
    rw [h] at hbytes
    exact (List.cons.inj hbytes).1.symm
  · intro h
    rw [h]
    rfl

/-- There is no block of a negative size to be had. -/
theorem decodeOsdmapOsds_refused {reader : BufferReader} {osdmap : OsdmapRecord}
    (h : osdmap.osdCount < 0) :
    decodeOsdmapOsds buffer fresh reader osdmap .plenty
      = .ok ((CCEPH_ERR_NO_ENOUGH_MEM, { osdmap with osds := none }, reader), .plenty) := by
  have hneg : osdmap.osdCount.toInt < 0 := Int32.lt_iff_toInt_lt.mp h
  have hbound := int32_bounds osdmap.osdCount
  have hsize : ¬sizeT (sizeofOsdEntity * osdmap.osdCount.toInt) < 2 ^ 63 := by
    unfold sizeofOsdEntity
    exact sizeT_of_neg (by omega) (by omega)
  unfold decodeOsdmapOsds
  rw [bind_ok (malloc_huge hsize)]
  rfl

/-- With a block to be had, the decoder reports success or fails an
assertion. -/
theorem decodeOsdmapOsds_taken {reader : BufferReader} {osdmap : OsdmapRecord}
    (h : ¬osdmap.osdCount < 0) {ret : Int} {osdmap' : OsdmapRecord} {reader' : BufferReader}
    {s : Allocs} (hrun : decodeOsdmapOsds buffer fresh reader osdmap .plenty
      = .ok ((ret, osdmap', reader'), s)) : ret = CCEPH_OK := by
  have hnonneg : ¬osdmap.osdCount.toInt < 0 := fun hlt => h (Int32.lt_iff_toInt_lt.mpr hlt)
  have hbound := int32_bounds osdmap.osdCount
  have hsize : sizeT (sizeofOsdEntity * osdmap.osdCount.toInt) < 2 ^ 63 := by
    unfold sizeofOsdEntity
    rw [sizeT_of_nonneg (by omega) (by omega)]
    omega
  unfold decodeOsdmapOsds at hrun
  rw [bind_ok (malloc_plenty hsize)] at hrun
  simp only [Bool.not_true, Bool.false_eq_true, if_false] at hrun
  obtain ⟨⟨osds, reader''⟩, s', -, hret⟩ := bind_eq_ok hrun
  cases hret
  rfl

theorem decodesExactly_iff (h : buffer.Holds content) {p : Nat} (hp : p < content.length)
    (room : OsdmapRoom) :
    DecodesExactly buffer (readerAt content p) (content.drop p) room
      ↔ StartsWithOsdmap (content.drop p) ∨ CountRefused room.osdmap (content.drop p) := by
  have hrun : decodeOsdmap buffer room.fresh (readerAt content p) room.osdmap .plenty = _ :=
    decodeOsdmap_header h p .plenty
  obtain ⟨b, bytes, hb⟩ : ∃ b bytes, content.drop p = b :: bytes := by
    apply List.exists_cons_of_ne_nil
    exact List.ne_nil_of_length_pos (by rw [List.length_drop]; omega)
  have hversion : int8Codec.overwrite 0 ((content.drop p).take 1) = 1
      ↔ (content.drop p).head? = some 1 := by
    rw [hb]
    exact int8Codec_overwrite_one.trans Option.some_inj.symm
  constructor
  · intro hexact
    by_cases hstarts : StartsWithOsdmap (content.drop p)
    · exact .inl hstarts
    · refine .inr ?_
      obtain ⟨ret, osdmap, reader', s, hret, hok⟩ := hexact.refuses hstarts
      rw [hrun] at hok
      by_cases hone : int8Codec.overwrite 0 ((content.drop p).take 1) = 1
      · rw [if_pos hone] at hok
        refine ⟨hversion.mp hone, ?_⟩
        by_contra hcount
        have hnot : ¬(headerOver room.osdmap (content.drop p)).osdCount < 0 := hcount
        exact hret (decodeOsdmapOsds_taken hnot hok)
      · rw [if_neg hone] at hok
        cases hok
  · intro hcase
    refine ⟨fun osdmap rest hsound hbytes => ?_, fun hstarts => ?_⟩
    · exact ⟨_, decodeOsdmap_bytes h hsound hbytes⟩
    · obtain ⟨hone, hcount⟩ := hcase.resolve_left hstarts
      have hnot : (headerOver room.osdmap (content.drop p)).osdCount < 0 := hcount
      rw [if_pos (hversion.mpr hone), decodeOsdmapOsds_refused hnot] at hrun
      exact ⟨_, _, _, _, by decide, hrun⟩

end

-- ====================================================== one after another

/-- What the decoders of `osdmaps` return that read from the byte `p` on. -/
def decodedFrom (content : List UInt8) : Nat → List OsdmapRecord →
    List (Int × OsdmapRecord × BufferReader)
  | _, [] => []
  | p, osdmap :: osdmaps =>
      (CCEPH_OK, { osdmap with osds := some osdmap.entities },
        readerAt content (p + (osdmapBytes osdmap).length))
        :: decodedFrom content (p + (osdmapBytes osdmap).length) osdmaps

theorem decodeOsdmaps_bytes (h : buffer.Holds content) (osdmaps : List OsdmapRecord) :
    ∀ (rooms : List OsdmapRoom) (p : Nat) {rest : List UInt8}, rooms.length = osdmaps.length →
    (∀ osdmap ∈ osdmaps, osdmap.Sound) →
    content.drop p = osdmaps.flatMap osdmapBytes ++ rest →
    decodeOsdmaps buffer (readerAt content p) rooms .plenty
      = .ok (decodedFrom content p osdmaps, .plenty) := by
  induction osdmaps with
  | nil =>
      intro rooms p rest hrooms _ _
      rw [List.length_eq_zero_iff.mp hrooms]
      rfl
  | cons osdmap osdmaps ih =>
      intro rooms p rest hrooms hsound hbytes
      cases rooms with
      | nil => cases hrooms
      | cons room rooms =>
          rw [List.flatMap_cons, List.append_assoc] at hbytes
          have hrest : content.drop (p + (osdmapBytes osdmap).length)
              = osdmaps.flatMap osdmapBytes ++ rest := by
            rw [← List.drop_drop, hbytes, List.drop_left]
          have hloop := ih rooms (p + (osdmapBytes osdmap).length) (Nat.succ_inj.mp hrooms)
            (fun m hm => hsound m (List.mem_cons_of_mem _ hm)) hrest
          unfold decodeOsdmaps
          rw [bind_ok (decodeOsdmap_bytes h (hsound osdmap List.mem_cons_self) hbytes)]
          simp only
          rw [bind_ok hloop]
          rfl

theorem readerOn_eq {p : Nat} (hp : p < content.length) :
    readerOn p = readerAt content p := (if_pos hp).symm

/-- Maps encoded one after another, behind what is in the buffer already,
are decoded one after another, each up to where the next one starts. -/
theorem osdmaps_roundTrip {s : BufferRun} (h : bufferSystem.Reached AppendFits s)
    {osdmaps : List OsdmapRecord} (hsound : ∀ osdmap ∈ osdmaps, osdmap.Sound)
    (htotal : s.appended.length + (osdmaps.flatMap osdmapBytes).length ≤ bufferLimit) :
    ∃ buffer content, encodeOsdmaps s.buffer osdmaps .plenty
        = .ok ((List.replicate osdmaps.length CCEPH_OK, buffer), .plenty)
      ∧ content = s.appended ++ osdmaps.flatMap osdmapBytes
      ∧ buffer.content = content
      ∧ ∀ rooms : List OsdmapRoom, rooms.length = osdmaps.length →
          decodeOsdmaps buffer (readerOn s.appended.length) rooms .plenty
            = .ok (decodedFrom content s.appended.length osdmaps, .plenty) := by
  obtain ⟨buffer, hrun, hholds⟩ :=
    encodeOsdmaps_appends osdmaps (holds_of_reached h) hsound htotal
  refine ⟨buffer, _, hrun, rfl, hholds.2, fun rooms hrooms => ?_⟩
  cases osdmaps with
  | nil =>
      rw [List.eq_nil_of_length_eq_zero hrooms]
      rfl
  | cons osdmap osdmaps =>
      have hlength := osdmapBytes_length osdmap
      have hdrop : (s.appended ++ (osdmap :: osdmaps).flatMap osdmapBytes).drop s.appended.length
          = (osdmap :: osdmaps).flatMap osdmapBytes ++ [] := by
        rw [List.drop_left, List.append_nil]
      have hreader : readerOn s.appended.length
          = readerAt (s.appended ++ (osdmap :: osdmaps).flatMap osdmapBytes) s.appended.length := by
        apply readerOn_eq
        rw [List.flatMap_cons, List.length_append, List.length_append]
        omega
      rw [hreader]
      exact decodeOsdmaps_bytes hholds _ rooms _ hrooms hsound hdrop

/-- Two maps, and in the first of them two entities. -/
def twoOsdmaps : List OsdmapRecord := [⟨3, 8, 2, some [⟨0⟩, ⟨-1⟩]⟩, ⟨4, 8, 0, none⟩]

theorem twoOsdmaps_sound : ∀ osdmap ∈ twoOsdmaps, osdmap.Sound := by
  intro osdmap hmem
  unfold twoOsdmaps at hmem
  rcases List.mem_cons.mp hmem with rfl | hmem
  · exact ⟨by decide, by decide⟩
  · rw [List.mem_singleton.mp hmem]
    exact ⟨by decide, by decide⟩

theorem osdmaps_roundTrip_two : ∃ buffer content, encodeOsdmaps freshBuffer twoOsdmaps .plenty
        = .ok ((List.replicate twoOsdmaps.length CCEPH_OK, buffer), .plenty)
      ∧ content = [] ++ twoOsdmaps.flatMap osdmapBytes
      ∧ buffer.content = content
      ∧ ∀ rooms : List OsdmapRoom, rooms.length = twoOsdmaps.length →
          decodeOsdmaps buffer (readerOn 0) rooms .plenty
            = .ok (decodedFrom content 0 twoOsdmaps, .plenty) := by
  refine osdmaps_roundTrip (s := freshRun) (freshRun_reached trivial) twoOsdmaps_sound ?_
  simp only [twoOsdmaps, List.flatMap_cons, List.flatMap_nil, List.length_append,
    osdmapBytes_length, List.length_nil]
  decide

/-- A buffer of 2^31 - 4096 bytes has no room for one map more. -/
theorem osdmap_over_fails : ∃ s osdmap, bufferSystem.Reached AppendFits s ∧ osdmap.Sound
      ∧ s.appended.length + (osdmapBytes osdmap).length < 2 ^ 31
      ∧ encodeOsdmaps s.buffer [osdmap] .plenty = .error .assertFail := by
  obtain ⟨zeros, hzeros⟩ : ∃ zeros : List UInt8, zeros.length = bufferLimit :=
    ⟨List.replicate bufferLimit 0, List.length_replicate⟩
  obtain ⟨s, hs, rfl⟩ := appended_reached
    (List.ne_nil_of_length_pos (by rw [hzeros]; decide)) (Nat.le_of_eq hzeros)
  refine ⟨s, ⟨1, 8, 0, none⟩, hs, ⟨by decide, by decide⟩, ?_, ?_⟩
  · rw [hzeros, osdmapBytes_length]
    decide
  · have hversion := int8Codec.bytes_length 1
    have hone : int8Codec.bytes 1 ≠ [] := List.ne_nil_of_length_pos (by rw [hversion]; decide)
    have hfails := bufferAppend_full_fails (holds_of_reached hs) hzeros hone
      (by rw [hversion]; decide)
    rw [hversion] at hfails
    exact bind_error (bind_error hfails)

-- ======================================================= what is accepted

/-- A decoder is exact before the encoding of a map, and where it comes to
allocate a block of a negative size; a version that is not 1 fails an
assertion, and what is cut short is taken for read. -/
theorem decodeOsdmap_exact {s : BufferRun} (h : bufferSystem.Reached AppendFits s) {p : Nat}
    (hp : p < s.appended.length) (room : OsdmapRoom) :
    DecodesExactly s.buffer (readerOn p) (s.appended.drop p) room
      ↔ StartsWithOsdmap (s.appended.drop p)
        ∨ CountRefused room.osdmap (s.appended.drop p) := by
  rw [readerOn_eq hp]
  exact decodesExactly_iff (holds_of_reached h) hp room

theorem not_startsWithOsdmap {bytes : List UInt8} (h : bytes.length < 13) :
    ¬StartsWithOsdmap bytes := by
  intro hstarts
  obtain ⟨osdmap, rest, -, rfl⟩ := hstarts
  rw [List.length_append, osdmapBytes_length] at h
  omega

/-- A map cut off after its version, in a structure of zeros. -/
theorem decodeOsdmap_cut_fails : ∃ s, bufferSystem.Reached AppendFits s ∧ s.appended = [1]
      ∧ ¬DecodesExactly s.buffer (readerOn 0) s.appended ⟨⟨0, 0, 0, none⟩, fun _ => ⟨0⟩⟩ := by
  obtain ⟨s, hs, happended⟩ := appended_reached (List.cons_ne_nil (1 : UInt8) []) (by decide)
  refine ⟨s, hs, happended, ?_⟩
  have hp : 0 < s.appended.length := by
    rw [happended]
    exact Nat.zero_lt_one
  have hiff := decodesExactly_iff (holds_of_reached hs) hp ⟨⟨0, 0, 0, none⟩, fun _ => ⟨0⟩⟩
  rw [readerOn_eq hp]
  rw [happended] at hiff ⊢
  intro hexact
  rcases hiff.mp hexact with hstarts | hcount
  · exact not_startsWithOsdmap (by decide) hstarts
  · exact absurd hcount.2 (by decide)

theorem decodeOsdmap_exact_byte : ∃ s, bufferSystem.Reached AppendFits s ∧ s.appended = [1] ∧
    (DecodesExactly s.buffer (readerOn 0) (s.appended.drop 0) ⟨⟨0, 0, -1, none⟩, fun _ => ⟨0⟩⟩
      ↔ StartsWithOsdmap (s.appended.drop 0)
        ∨ CountRefused ⟨0, 0, -1, none⟩ (s.appended.drop 0)) := by
  obtain ⟨s, hs, happended⟩ := appended_reached (List.cons_ne_nil (1 : UInt8) []) (by decide)
  refine ⟨s, hs, happended, decodeOsdmap_exact hs ?_ ⟨⟨0, 0, -1, none⟩, fun _ => ⟨0⟩⟩⟩
  rw [happended]
  exact Nat.zero_lt_one

end CephInC
