/-
A part of a message is not one.

What a stream says at its front, more bytes behind it do not change
(`taken_append` and its kin). So a stream that ends inside a message
holds nothing the reader takes, and nothing that takes it down.
-/
import CephInC.Message.Proofs.Arrives
import CephInC.Message.Proofs.Streams

namespace CephInC

open Lib

-- ========================================================= bytes behind it

theorem wireHeader_local : Decoder.Local wireHeader :=
  Decoder.local_bind int8Codec.decode_local fun _ =>
    Decoder.local_bind int64Codec.decode_local fun _ => Decoder.local_pure _

theorem wireString_local : Decoder.Local wireString :=
  Decoder.local_bind int16Codec.decode_local fun _ =>
    Decoder.local_bind (takeBytes_local _) fun _ => Decoder.local_pure _

theorem wireReqIds_local : Decoder.Local wireReqIds :=
  Decoder.local_bind int32Codec.decode_local fun _ =>
    Decoder.local_bind int64Codec.decode_local fun _ => Decoder.local_pure _

section
variable {d body : List UInt8}

theorem afterHeader_append {p : MsgHeader → List UInt8 → Prop} (h : AfterHeader d p)
    (more : List UInt8) (hp : ∀ header body, p header body → p header (body ++ more)) :
    AfterHeader (d ++ more) p := by
  obtain ⟨header, body, hdec, hbody⟩ := h
  exact ⟨header, body ++ more, wireHeader_local _ _ _ hdec more, hp header body hbody⟩

theorem beforeData_append {p : List UInt8 → Prop} (h : BeforeData body p) (more : List UInt8)
    (hp : ∀ d, p d → p (d ++ more)) : BeforeData (body ++ more) p := by
  obtain ⟨ids, d1, oidSize, oid, d2, offset, d3, hids, hstring, hsize, hoffset, hdata⟩ := h
  exact ⟨ids, d1 ++ more, oidSize, oid, d2 ++ more, offset, d3 ++ more,
    wireReqIds_local _ _ _ hids more, wireString_local _ _ _ hstring more, hsize,
    int64Codec.decode_local _ _ _ hoffset more, hp d3 hdata⟩

theorem negativeOid_append (h : NegativeOid body) (more : List UInt8) :
    NegativeOid (body ++ more) := by
  obtain ⟨ids, d1, size, d2, hids, hsize, hneg⟩ := h
  exact ⟨ids, d1 ++ more, size, d2 ++ more, wireReqIds_local _ _ _ hids more,
    int16Codec.decode_local _ _ _ hsize more, hneg⟩

theorem negativeLength_append (h : NegativeLength d) (more : List UInt8) :
    NegativeLength (d ++ more) := by
  refine afterHeader_append h more fun header body hbody => ⟨hbody.1, ?_⟩
  rcases hbody.2 with hneg | hneg
  · exact .inl (negativeOid_append hneg more)
  · refine .inr (beforeData_append hneg more fun d hd => ?_)
    obtain ⟨length, rest, hlength, hlt⟩ := hd
    exact ⟨length, rest ++ more, int64Codec.decode_local _ _ _ hlength more, hlt⟩

theorem crashes_append (h : Crashes d) (more : List UInt8) : Crashes (d ++ more) := by
  rcases h with h | h
  · exact .inl (afterHeader_append h more fun _ _ hop => hop)
  · exact .inr (afterHeader_append h more fun _ _ hneg =>
      ⟨hneg.1, negativeOid_append hneg.2 more⟩)

end

-- ======================================================= a part of a message

/-- What the reader takes is spelled. -/
theorem onWire_of_taken {d : List UInt8} (h : Taken d) (hneg : ¬NegativeLength d) :
    ∃ msg bs rest, OnWire msg bs ∧ d = bs ++ rest := by
  have hd := inboxOf_delivered d
  rw [← hd] at h hneg
  cases readMsg_outcome (messengerNew 0) 0 (inboxOf d) with
  | closed inbox' hrun hwhy => exact absurd h (hwhy rfl).2.1
  | kept inbox' hrun hrejected => exact absurd hrejected (not_rejected_of_taken h)
  | message msg inbox' hrun htaken hwire =>
      obtain ⟨bs, hspelled, hrest⟩ := hwire rfl hneg
      exact ⟨msg, bs, inbox'.delivered, hspelled, hd.symm.trans hrest⟩
  | crash e hrun hwhy => exact absurd h (not_taken_of_crashes (hwhy rfl))

section
variable {msg : Msg} {bs part : List UInt8}

/-- A stream that ends inside a message has none. -/
theorem not_taken_of_prefix (hwire : OnWire msg bs) (hcounted : msg.Counted)
    (hpart : part <+: bs) (hne : part ≠ bs) : ¬Taken part := by
  intro htaken
  obtain ⟨more, rfl⟩ := hpart
  have hwhole := onWire_taken hwire hcounted []
  rw [List.append_nil] at hwhole
  have hneg : ¬NegativeLength part := fun h => hwhole.2 (negativeLength_append h more)
  obtain ⟨msg', bs', rest, hwire', rfl⟩ := onWire_of_taken htaken hneg
  have hsame : bs' ++ rest ++ more ++ [] = bs' ++ (rest ++ more) := by
    rw [List.append_nil, List.append_assoc]
  obtain ⟨-, hnil⟩ := onWire_unique hwire hwire' hsame
  have hmore : more = [] := (List.append_eq_nil_iff.mp hnil.symm).2
  exact hne (by rw [hmore, List.append_nil])

theorem not_crashes_of_prefix (hwire : OnWire msg bs) (hcounted : msg.Counted)
    (hpart : part <+: bs) : ¬Crashes part := by
  intro hcrash
  obtain ⟨more, rfl⟩ := hpart
  have hwhole := (onWire_taken hwire hcounted []).1
  rw [List.append_nil] at hwhole
  exact not_taken_of_crashes (crashes_append hcrash more) hwhole

end

-- ========================================================== what is written

/-- The message as it is written: of its data as much as is to be. -/
def Msg.trim : Msg → Msg
  | .writeObjReq req => .writeObjReq
      { req with data := req.data.map (·.take req.length.toInt.toNat) }
  | .writeObjAck ack => .writeObjAck ack

theorem Msg.Fits.trim_travels {msg : Msg} (h : msg.Fits) : msg.trim.Travels := by
  cases msg with
  | writeObjReq req =>
      obtain ⟨hop, oid, data, hoid, hname, hdata, hpos, hlength, hcounted⟩ := h
      refine ⟨hop, oid, data.take req.length.toInt.toNat, hoid, hname, ?_, ?_, hcounted⟩
      · show req.data.map _ = _
        rw [hdata]
        rfl
      · rw [List.length_take]
        show (_ : Int) = req.length.toInt
        omega
  | writeObjAck ack => exact h

theorem Msg.Fits.trim_encoding {msg : Msg} (h : msg.Fits) :
    msgEncoding msg.trim = msgEncoding msg := by
  cases msg with
  | writeObjReq req =>
      obtain ⟨-, oid, data, hoid, hname, hdata, hpos, hlength, -⟩ := h
      have hlen : req.length.toInt ≤ ((data.take req.length.toInt.toNat).length : Int) := by
        rw [List.length_take]
        omega
      unfold msgEncoding Msg.trim
      simp only [hoid, hdata, Option.map_some]
      rw [if_pos ⟨hname, hpos, hlen⟩, if_pos ⟨hname, hpos, hlength⟩, List.take_take, Nat.min_self]
  | writeObjAck ack => rfl

/-- An encoding spells a message. -/
theorem Encoding.onWire {bs : List UInt8} (h : Encoding bs) :
    ∃ got : Msg, OnWire got bs ∧ got.Counted := by
  obtain ⟨msg, hfits, hbs⟩ := h
  obtain ⟨bs', got, hbs', hwire, hcounted, -⟩ := msgEncoding_onWire hfits.trim_travels
  rw [hfits.trim_encoding, hbs] at hbs'
  cases hbs'
  exact ⟨got, hwire, hcounted⟩

theorem Part.not_taken {part : List UInt8} (h : Part part) : ¬Taken part := by
  obtain ⟨bs, hbs, hpart, hne⟩ := h
  obtain ⟨got, hwire, hcounted⟩ := hbs.onWire
  exact not_taken_of_prefix hwire hcounted hpart hne

theorem Part.not_crashes {part : List UInt8} (h : Part part) : ¬Crashes part := by
  obtain ⟨bs, hbs, hpart, -⟩ := h
  obtain ⟨got, hwire, hcounted⟩ := hbs.onWire
  exact not_crashes_of_prefix hwire hcounted hpart

theorem Part.of_prefix {part part' : List UInt8} (h : Part part) (hp : part' <+: part) :
    Part part' := by
  obtain ⟨bs, hbs, hpart, hne⟩ := h
  refine ⟨bs, hbs, hp.trans hpart, ?_⟩
  rintro rfl
  exact hne (hpart.eq_of_length_le hp.length_le)

theorem part_nil : Part [] :=
  ⟨_, ⟨.writeObjAck firstAck, rfl, rfl⟩, List.nil_prefix, by decide⟩

end CephInC
