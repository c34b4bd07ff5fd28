/-
A map of object servers encoded while blocks are refused.

The encoders drop the codes of the appends, and say `CCEPH_OK` in the end
(`encodeOsdmap_code`). So what they say is true exactly if no block the
bytes take is refused (`encodeOsdmap_ifOk_iff`): an append that is refused
one leaves bytes out, and those behind it do not make up for them.
-/
import CephInC.Common.Proofs.Osdmap

namespace CephInC

open Lib

/-- If the encoder says so, the map is behind what was in the buffer. -/
def EncodesIfOk (buffer : Buffer) (content : List UInt8) (osdmap : OsdmapRecord) (s : Allocs) :
    Prop :=
  ∀ buffer' s', encodeOsdmap buffer osdmap s = .ok ((CCEPH_OK, buffer'), s') →
    buffer'.content = content ++ osdmapBytes osdmap

/-- The encoder has no other code. -/
theorem encodeOsdmap_code {buffer buffer' : Buffer} {osdmap : OsdmapRecord} {ret : Int}
    {s s' : Allocs} (h : encodeOsdmap buffer osdmap s = .ok ((ret, buffer'), s')) :
    ret = CCEPH_OK := by
  unfold encodeOsdmap at h
  obtain ⟨r₁, s₁, -, h⟩ := bind_eq_ok h
  obtain ⟨r₂, s₂, -, h⟩ := bind_eq_ok h
  obtain ⟨r₃, s₃, -, h⟩ := bind_eq_ok h
  obtain ⟨r₄, s₄, -, h⟩ := bind_eq_ok h
  by_cases hpos : osdmap.osdCount > 0
  · simp only [if_pos hpos] at h
    obtain ⟨osds, s₅, -, h⟩ := bind_eq_ok h
    obtain ⟨buffer₅, s₆, -, h⟩ := bind_eq_ok h
    cases h
    rfl
  · simp only [if_neg hpos] at h
    cases h
    rfl

/-- If a block is refused, bytes are left out, and nothing says so. -/
theorem encodeOsdmap_torn {buffer : Buffer} {content : List UInt8} (h : buffer.Holds content)
    {osdmap : OsdmapRecord} (hsound : osdmap.Sound) {s : Allocs}
    (hlimit : content.length + (osdmapBytes osdmap).length ≤ bufferLimit)
    (hrefused : ¬s.Grants (newBlocks content.length (osdmapBytes osdmap).length)) :
    ¬EncodesIfOk buffer content osdmap s := by
  intro hifOk
  have hdone := encodeOsdmap_encodes hsound buffer content h s
  simp only at hdone
  generalize hrun : encodeOsdmap buffer osdmap s = out at hdone
  cases hdone with
  | whole _ hgrants _ _ => exact hrefused hgrants
  | uncounted hover => omega
  | torn ret buffer' content' s' _ hholds hshort =>
      have hret := encodeOsdmap_code hrun
      subst hret
      have hcontent := hifOk buffer' s' hrun
      rw [hholds.2] at hcontent
      rw [hcontent, List.length_append] at hshort
      exact absurd hshort (Nat.lt_irrefl _)

-- ======================================================= the main result

/-- The encoder is right to say `CCEPH_OK` if the blocks that the map takes
are granted, and, where an `int32_t` counts its bytes, only then. -/
theorem encodeOsdmap_ifOk_iff {run : BufferRun} (h : bufferSystem.Reached AppendFits run)
    {osdmap : OsdmapRecord} (hsound : osdmap.Sound) (s : Allocs) :
    (s.Grants (newBlocks run.appended.length (osdmapBytes osdmap).length) →
      EncodesIfOk run.buffer run.appended osdmap s)
    ∧ (run.appended.length + (osdmapBytes osdmap).length ≤ bufferLimit →
      (EncodesIfOk run.buffer run.appended osdmap s
        ↔ s.Grants (newBlocks run.appended.length (osdmapBytes osdmap).length))) := by
  have hholds := holds_of_reached h
  have henough : s.Grants (newBlocks run.appended.length (osdmapBytes osdmap).length) →
      EncodesIfOk run.buffer run.appended osdmap s := by
    intro hgrants buffer' s' hrun
    have hdone := encodeOsdmap_encodes hsound run.buffer run.appended hholds s
    simp only [hrun] at hdone
    cases hdone with
    | whole _ _ _ hholds => exact hholds.2
    | torn _ _ _ _ hrefused _ _ => exact absurd hgrants hrefused
  refine ⟨henough, fun hlimit => ⟨fun hifOk => ?_, henough⟩⟩
  by_contra hrefused
  exact encodeOsdmap_torn hholds hsound hlimit hrefused hifOk

/-- The map of no servers. -/
def noServers : OsdmapRecord := ⟨1, 8, 0, none⟩

theorem noServers_sound : noServers.Sound := ⟨by decide, by decide⟩

theorem noServers_length : (osdmapBytes noServers).length = 13 := by
  rw [osdmapBytes_length]
  rfl

/-- One block is granted. -/
def grantOne : Allocs := ⟨fun i => i = 0⟩

/-- Six bytes go into the first block, the others into the one granted. -/
theorem encodeOsdmap_ifOk_granted : ∃ run buffer s', bufferSystem.Reached AppendFits run
    ∧ run.appended.length = 4090
    ∧ encodeOsdmap run.buffer noServers grantOne = .ok ((CCEPH_OK, buffer), s')
    ∧ buffer.content = run.appended ++ osdmapBytes noServers := by
  obtain ⟨zeros, hzeros⟩ : ∃ zeros : List UInt8, zeros.length = 4090 :=
    ⟨List.replicate 4090 0, List.length_replicate⟩
  obtain ⟨run, hreached, rfl⟩ := appended_reached
    (List.ne_nil_of_length_pos (by rw [hzeros]; decide)) (by rw [hzeros]; decide)
  have hgrants : grantOne.Grants
      (newBlocks run.appended.length (osdmapBytes noServers).length) := by
    rw [hzeros, noServers_length]
    exact Allocs.grants_one.mpr rfl
  have hifOk := (encodeOsdmap_ifOk_iff hreached noServers_sound grantOne).1 hgrants
  have hdone := encodeOsdmap_encodes noServers_sound _ _ (holds_of_reached hreached) grantOne
  simp only at hdone
  generalize hrun : encodeOsdmap run.buffer noServers grantOne = out at hdone
  cases hdone with
  | whole buffer _ _ _ => exact ⟨run, buffer, _, hreached, hzeros, hrun, hifOk _ _ hrun⟩
  | uncounted hover =>
      rw [hzeros, noServers_length] at hover
      exact absurd hover (by decide)
  | torn _ _ _ _ hrefused _ _ => exact absurd hgrants hrefused

/-- No block is granted. -/
def refuseAll : Allocs := ⟨fun _ => false⟩

/-- Six bytes of it are left in the first block, the rest is lost. -/
theorem encodeOsdmap_not_ifOk :
    ¬∀ (run : BufferRun) (osdmap : OsdmapRecord) (s : Allocs),
      bufferSystem.Reached AppendFits run → osdmap.Sound →
      EncodesIfOk run.buffer run.appended osdmap s := by
  intro hall
  obtain ⟨zeros, hzeros⟩ : ∃ zeros : List UInt8, zeros.length = 4090 :=
    ⟨List.replicate 4090 0, List.length_replicate⟩
  obtain ⟨run, hrun, rfl⟩ := appended_reached
    (List.ne_nil_of_length_pos (by rw [hzeros]; decide)) (by rw [hzeros]; decide)
  have hrefused : ¬refuseAll.Grants
      (newBlocks run.appended.length (osdmapBytes noServers).length) := by
    rw [hzeros, noServers_length]
    exact fun hgrants => Bool.false_ne_true (Allocs.grants_one.mp hgrants)
  exact encodeOsdmap_torn (holds_of_reached hrun) noServers_sound
    (by rw [hzeros, noServers_length]; decide) hrefused
    (hall run noServers refuseAll hrun noServers_sound)

end CephInC
