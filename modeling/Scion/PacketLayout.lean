/-
The layout of accepted packets (`socket/parsed_packet.hpp`).

* `ParsedPacket.Layout` — a buffer cut where the parser cut it;
* `ParsedPacket.layout_of_parse` — every accepted buffer has one;
* `ParsedPacket.lengths_of_parse` — extensions, transport header and payload fill the
  buffer behind the path, whatever the length fields say.
-/
import Scion.ParsedPacket
import Scion.ScmpCodec

namespace Scion

open BigEndian Codec ReadStream

/-- The bytes of an accepted transport header. -/
def L4Header.Holds (bs : List UInt8) : L4Header → Prop
  | .udp h => bs = h.bytes
  | .scmp h => SCMP.Holds bs h

theorem L4Header.Holds.length {bs : List UInt8} {l4 : L4Header} (h : l4.Holds bs) :
    bs.length = l4.size := by
  cases l4 with
  | udp hdr =>
    rw [show bs = hdr.bytes from h, UDP.length_bytes]
    rfl
  | scmp hdr => exact SCMP.Holds.size h

namespace ParsedPacket

/-- The options of one category with the header in front of them, if there are any. -/
inductive OptsPart : List UInt8 → List UInt8 → Prop
  | none : OptsPart [] []
  | some (hdr : OptsHeader) (opts : List UInt8) (h : opts.length = hdr.optionSize) :
      OptsPart (hdr.bytes ++ opts) opts

/-- A packet as the parser cut it: common header, addresses, path, options, transport
header and payload, with nothing in between and nothing behind. -/
structure Layout (buffer : List UInt8) (pkt : ParsedPacket) where
  common : List UInt8
  hbh : List UInt8
  e2e : List UInt8
  l4 : List UInt8
  buffer_eq : buffer = common ++ (pkt.sci.addressBytes ++ (pkt.path ++ (hbh ++ (e2e ++
    (l4 ++ pkt.payload)))))
  length_common : common.length = 12
  dst_withoutZone : pkt.sci.dst.host.withoutZone = pkt.sci.dst.host
  src_withoutZone : pkt.sci.src.host.withoutZone = pkt.sci.src.host
  length_path : pkt.path.length = pkt.sci.pathSize
  hbh_opts : OptsPart hbh pkt.hbhOpts
  e2e_opts : OptsPart e2e pkt.e2eOpts
  l4_holds : pkt.l4.Holds l4

/-! ### The pieces -/

theorem takes_locate (n : ℕ) :
    Takes cursor (locate n) fun bs found => bs = found ∧ found.length = n := by
  intro pre post found s h
  have hlen := length_of_locate_eq_ok h
  obtain ⟨bytes, s₁, hlook, h⟩ := bind_eq_ok.mp h
  obtain ⟨_, s₂, hadvance, h⟩ := bind_eq_ok.mp h
  cases h
  -- looking ahead does not move
  rw [lookahead, if_neg (by simp)] at hlook
  by_cases hshort : (cursor pre post).remaining < n
  · rw [if_pos hshort] at hlook
    cases hlook
  rw [if_neg hshort] at hlook
  cases hlook
  obtain ⟨bs, rest, rfl, rfl, hbs⟩ := takes_advanceBytes n pre post _ _ hadvance
  refine ⟨bs, rest, rfl, rfl, ?_, hlen⟩
  rw [next_cursor, List.take_append_of_le_length (by omega), ← hbs, List.take_length]

/-- The bytes of an options header of type `proto` and of its options, if `nh` announces
one, with the options and the type of the header behind it. -/
inductive OptsRegion (proto nh : ScionProto) : List UInt8 → List UInt8 → ScionProto → Prop
  | absent (h : nh ≠ proto) : OptsRegion proto nh [] [] nh
  | present (hdr : OptsHeader) (opts : List UInt8) (h : nh = proto)
      (hlen : opts.length = 4 * hdr.extLen.toNat + 2) :
      OptsRegion proto nh (hdr.bytes ++ opts) opts hdr.nh

theorem OptsRegion.part {proto nh next : ScionProto} {bs opts : List UInt8}
    (h : OptsRegion proto nh bs opts next) : OptsPart bs opts := by
  cases h with
  | absent => exact .none
  | present hdr opts _ hlen => exact .some hdr opts hlen

theorem takes_optsRegion (proto nh : ScionProto) :
    Takes cursor (parseOpts proto nh) fun bs found => OptsRegion proto nh bs found.1 found.2 := by
  rw [parseOpts]
  by_cases h : nh = proto
  · rw [if_pos h]
    refine (OptsHeader.takes.bind fun hdr =>
      (takes_locate hdr.optionSize).bind_pure (g := fun opts => (opts, hdr.nh))).mono ?_
    rintro bs found ⟨xs, hdr, ys, rfl, rfl, opts, ⟨rfl, hlen⟩, rfl⟩
    exact .present hdr _ h hlen
  · rw [if_neg h]
    refine (Takes.pure _).mono ?_
    rintro bs found ⟨rfl, rfl⟩
    exact .absent h

theorem takes_parseOpts (proto nh : ScionProto) :
    Takes cursor (parseOpts proto nh) fun bs found => OptsPart bs found.1 :=
  (takes_optsRegion proto nh).mono fun _ _ h => h.part

theorem takes_transport (nh : ScionProto) :
    Takes cursor (parseL4 nh) fun bs l4 => nh = l4.proto ∧ l4.Holds bs := by
  rw [parseL4]
  by_cases hscmp : nh = ScionProto.scmp
  · rw [if_pos hscmp]
    refine (takes_map L4Header.scmp SCMP.takes).mono ?_
    rintro bs l4 ⟨h, hholds, rfl⟩
    exact ⟨hscmp, hholds⟩
  rw [if_neg hscmp]
  by_cases hudp : nh = UDP.proto
  · rw [if_pos hudp]
    refine (takes_map L4Header.udp UDP.takes).mono ?_
    rintro bs l4 ⟨h, rfl, rfl⟩
    exact ⟨hudp, rfl⟩
  · rw [if_neg hudp]
    exact Takes.throw _ _

theorem takes_parseL4 (nh : ScionProto) :
    Takes cursor (parseL4 nh) fun bs l4 => l4.Holds bs :=
  (takes_transport nh).mono fun _ _ h => h.2

/-- An accepted buffer was cut into its pieces. -/
theorem layout_of_parse {buffer : List UInt8} {pkt : ParsedPacket} {s : ReadStream}
    (h : parse (ofBuffer buffer) = .ok pkt s) : Nonempty (Layout buffer pkt) := by
  rw [ofBuffer_eq] at h
  -- each step of the parser takes its piece off the front of what is left
  obtain ⟨sci, s₁, hsci, h⟩ := bind_eq_ok.mp h
  obtain ⟨bs, r₁, rfl, rfl, common, hcommon, rfl, hdst, hsrc⟩ := SCION.takes [] buffer sci s₁ hsci
  obtain ⟨path, s₂, hpath, h⟩ := bind_eq_ok.mp h
  obtain ⟨bs, r₂, rfl, rfl, rfl, hlen⟩ := takes_locate _ _ _ _ _ hpath
  obtain ⟨hbh, s₃, hhbh, h⟩ := bind_eq_ok.mp h
  obtain ⟨hbhPart, r₃, rfl, rfl, hhbhPart⟩ := takes_parseOpts _ _ _ _ _ _ hhbh
  obtain ⟨e2e, s₄, he2e, h⟩ := bind_eq_ok.mp h
  obtain ⟨e2ePart, r₄, rfl, rfl, he2ePart⟩ := takes_parseOpts _ _ _ _ _ _ he2e
  obtain ⟨l4, s₅, hl4, h⟩ := bind_eq_ok.mp h
  obtain ⟨l4Part, payload, rfl, rfl, hl4Part⟩ := takes_parseL4 _ _ _ _ _ hl4
  rw [bind_ok (lookahead_all _ _)] at h
  obtain ⟨_, s₆, _, h⟩ := bind_eq_ok.mp h
  cases h
  exact ⟨⟨common, hbhPart, e2ePart, l4Part, by simp, hcommon, hdst, hsrc, hlen, hhbhPart,
    he2ePart, hl4Part⟩⟩

namespace Layout

variable {buffer : List UInt8} {pkt : ParsedPacket}

theorem length_addressBytes (sci : SCION) :
    sci.addressBytes.length = sci.dst.size + sci.src.size := by
  simp [SCION.addressBytes, ScIPAddress.size, IsdAsn.size]
  omega

/-- The bytes in front of the transport header, and those from there on. -/
theorem split_at_l4 (l : Layout buffer pkt) :
    buffer = (l.common ++ (pkt.sci.addressBytes ++ (pkt.path ++ (l.hbh ++ l.e2e))))
      ++ (l.l4 ++ pkt.payload) := by
  conv_lhs => rw [l.buffer_eq]
  simp only [List.append_assoc]

theorem length_front (l : Layout buffer pkt) :
    (l.common ++ (pkt.sci.addressBytes ++ (pkt.path ++ (l.hbh ++ l.e2e)))).length
      = pkt.sci.size + pkt.sci.pathSize + (l.hbh.length + l.e2e.length) := by
  simp only [List.length_append, length_addressBytes, l.length_common, l.length_path, SCION.size]
  omega

/-- There is nothing in between. -/
theorem length_buffer (l : Layout buffer pkt) :
    buffer.length = pkt.sci.size + pkt.sci.pathSize + (l.hbh.length + l.e2e.length)
      + (pkt.l4.size + pkt.payload.length) := by
  conv_lhs => rw [l.split_at_l4]
  rw [List.length_append, l.length_front, List.length_append, L4Header.Holds.length l.l4_holds]

end Layout

/-- The extensions, each as long as its own header says, the transport header and the payload
fill an accepted buffer from the end of the path to its end. They are as long as the payload
length field says exactly when the buffer ends there, and a UDP header with its payload is as
long as it says exactly when the buffer ends there. -/
theorem lengths_of_parse {buffer : List UInt8} {pkt : ParsedPacket} {s : ReadStream}
    (h : parse (ofBuffer buffer) = .ok pkt s) :
    ∃ hbh e2e : List UInt8, OptsPart hbh pkt.hbhOpts ∧ OptsPart e2e pkt.e2eOpts ∧
      buffer.length = pkt.sci.size + pkt.sci.pathSize
        + (hbh.length + e2e.length + pkt.l4.size + pkt.payload.length) ∧
      pkt.payload = buffer.drop
        (pkt.sci.size + pkt.sci.pathSize + (hbh.length + e2e.length + pkt.l4.size)) ∧
      (hbh.length + e2e.length + pkt.l4.size + pkt.payload.length = pkt.sci.plen.toNat ↔
        buffer.length = pkt.sci.size + pkt.sci.pathSize + pkt.sci.plen.toNat) ∧
      ∀ udp, pkt.l4 = .udp udp → (udp.size + pkt.payload.length = udp.len.toNat ↔
        buffer.length = pkt.sci.size + pkt.sci.pathSize
          + (hbh.length + e2e.length + udp.len.toNat)) := by
  obtain ⟨l⟩ := layout_of_parse h
  have hlen := l.length_buffer
  refine ⟨l.hbh, l.e2e, l.hbh_opts, l.e2e_opts, by omega, ?_, by omega, fun udp hudp => ?_⟩
  · have hend := L4Header.Holds.length l.l4_holds
    have hsplit : buffer = ((l.common ++ (pkt.sci.addressBytes ++ (pkt.path ++ (l.hbh ++ l.e2e))))
        ++ l.l4) ++ pkt.payload := by
      rw [List.append_assoc]
      exact l.split_at_l4
    have hfront : ((l.common ++ (pkt.sci.addressBytes ++ (pkt.path ++ (l.hbh ++ l.e2e))))
        ++ l.l4).length
          = pkt.sci.size + pkt.sci.pathSize + (l.hbh.length + l.e2e.length + pkt.l4.size) := by
      rw [List.length_append, l.length_front, hend]
      omega
    exact (List.drop_left' hfront).symm.trans (congrArg (List.drop _) hsplit.symm)
  · rw [hudp] at hlen
    have hsize : (L4Header.udp udp).size = udp.size := rfl
    omega

/-- Common and address header of an empty path from `10.0.0.2` to `10.0.0.1` in ISD 1, with
the low half of the source ISD-ASN. -/
def addressHeader (nh plen : UInt8) (srcLow : List UInt8) : List UInt8 :=
  [0, 0, 0, 1, nh, 9, 0, plen, 0, 0, 0, 0, 0, 1, 0xff, 0, 0, 0, 0, 1, 0, 1, 0xff, 0] ++
    (srcLow ++ [10, 0, 0, 1, 10, 0, 0, 2])

/-- A packet whose headers announce no payload, and two bytes behind it. -/
def padded : List UInt8 := addressHeader 17 8 [0, 0, 0, 0] ++ [0, 80, 0, 81, 0, 8, 0, 0, 1, 2]

theorem lengths_of_parse_padded :
    ∃ pkt s, parse (ofBuffer padded) = .ok pkt s ∧
      ∃ hbh e2e : List UInt8, OptsPart hbh pkt.hbhOpts ∧ OptsPart e2e pkt.e2eOpts ∧
        padded.length = pkt.sci.size + pkt.sci.pathSize
          + (hbh.length + e2e.length + pkt.l4.size + pkt.payload.length) := by
  obtain ⟨pkt, s, hparse⟩ : ∃ pkt s, parse (ofBuffer padded) = .ok pkt s := ⟨_, _, rfl⟩
  obtain ⟨hbh, e2e, hhbh, he2e, hlen, -⟩ := lengths_of_parse hparse
  exact ⟨pkt, s, hparse, hbh, e2e, hhbh, he2e, hlen⟩

/-- The two bytes are delivered. -/
theorem not_forall_payload_length :
    ¬ ∀ (buffer : List UInt8) (pkt : ParsedPacket) (s : ReadStream),
      parse (ofBuffer buffer) = .ok pkt s →
      ∃ hbh e2e : List UInt8, OptsPart hbh pkt.hbhOpts ∧ OptsPart e2e pkt.e2eOpts ∧
        hbh.length + e2e.length + pkt.l4.size + pkt.payload.length = pkt.sci.plen.toNat := by
  intro h
  obtain ⟨hbh, e2e, -, -, hlen⟩ := h padded _ _ rfl
  have hlen' : hbh.length + e2e.length + 8 + 2 = 8 := hlen
  omega

end ParsedPacket

end Scion
