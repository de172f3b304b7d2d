/-
The regions of an accepted packet (`socket/parsed_packet.hpp`).

* `ParsedPacket.Regions` — a buffer as the regions of a packet one behind the other;
* `ParsedPacket.regions_of_parse` — every accepted buffer is, and the stream is at its end;
* `ParsedPacket.partition_of_parse` — no bytes are left over, and a header too short for its
  addresses is not accepted.
-/
import Scion.AcceptedHeaders
import Scion.PacketLayout

namespace Scion

open Codec ReadStream

namespace ParsedPacket

/-- The SCION header, path, options, transport header and payload are all of the buffer, in
this order, each of the length that the packet says. -/
structure Regions (buffer : List UInt8) (pkt : ParsedPacket) (common hbh e2e l4 : List UInt8)
    (hbhNext : ScionProto) : Prop where
  buffer_eq : buffer = common ++ (pkt.path ++ (hbh ++ (e2e ++ (l4 ++ pkt.payload))))
  common_eq : ∃ reserved, reserved.length = 2 ∧ common = pkt.sci.bytesWith reserved
  length_common : common.length = pkt.sci.size
  length_path : pkt.path.length = pkt.sci.pathSize
  hbh_region : OptsRegion ScionProto.hbhOpt pkt.sci.nh hbh pkt.hbhOpts hbhNext
  e2e_region : OptsRegion ScionProto.e2eOpt hbhNext e2e pkt.e2eOpts pkt.l4.proto
  l4_holds : pkt.l4.Holds l4
  length_l4 : l4.length = pkt.l4.size

/-- The stream moves along the regions, to the end of the buffer. -/
theorem regions_of_parse {buffer : List UInt8} {pkt : ParsedPacket} {s : ReadStream}
    (h : parse (ofBuffer buffer) = .ok pkt s) :
    (∃ common hbh e2e l4 hbhNext, Regions buffer pkt common hbh e2e l4 hbhNext) ∧
      s = cursor buffer [] := by
  rw [ofBuffer_eq] at h
  obtain ⟨sci, s₁, hsci, h⟩ := bind_eq_ok.mp h
  obtain ⟨common, r₁, rfl, rfl, ⟨reserved, hreserved, hcommon⟩, -⟩ :=
    SCION.takes_bytes [] buffer sci s₁ hsci
  obtain ⟨path, s₂, hpath, h⟩ := bind_eq_ok.mp h
  obtain ⟨bs, r₂, rfl, rfl, rfl, hlen⟩ := takes_locate _ _ _ _ _ hpath
  obtain ⟨hbh, s₃, hhbh, h⟩ := bind_eq_ok.mp h
  obtain ⟨hbhPart, r₃, rfl, rfl, hhbhPart⟩ := takes_optsRegion _ _ _ _ _ _ hhbh
  obtain ⟨e2e, s₄, he2e, h⟩ := bind_eq_ok.mp h
  obtain ⟨e2ePart, r₄, rfl, rfl, he2ePart⟩ := takes_optsRegion _ _ _ _ _ _ he2e
  obtain ⟨l4, s₅, hl4, h⟩ := bind_eq_ok.mp h
  obtain ⟨l4Part, payload, rfl, rfl, hproto, hl4Part⟩ := takes_transport _ _ _ _ _ hl4
  rw [bind_ok (lookahead_all _ _)] at h
  obtain ⟨_, s₆, hseek, h⟩ := bind_eq_ok.mp h
  cases hseek
  cases h
  rw [hproto] at he2ePart
  refine ⟨⟨common, hbhPart, e2ePart, l4Part, hbh.2, ⟨by simp, ⟨reserved, hreserved, hcommon⟩,
    by rw [hcommon, SCION.length_bytesWith _ hreserved], hlen, hhbhPart, he2ePart, hl4Part,
    L4Header.Holds.length hl4Part⟩⟩, ?_⟩
  simp [seek, cursor]

namespace Regions

variable {buffer common hbh e2e l4 : List UInt8} {pkt : ParsedPacket} {hbhNext : ScionProto}

/-- The difference of the header length and the size of the header has not wrapped around,
as no buffer is that long. -/
theorem size_add_length_path (h : Regions buffer pkt common hbh e2e l4 hbhNext)
    (hbuffer : buffer.length < 2 ^ 64) : pkt.sci.size + pkt.path.length = 4 * pkt.sci.hlen.toNat := by
  have hlen := congrArg List.length h.buffer_eq
  have hpath := h.length_path
  have hbyte := pkt.sci.hlen.toNat_lt
  rw [List.length_append, List.length_append, h.length_common] at hlen
  rw [SCION.pathSize] at hpath
  by_cases hshort : 4 * pkt.sci.hlen.toNat < pkt.sci.size
  · rw [Nat.mod_eq_of_lt (by omega)] at hpath
    omega
  · rw [show 4 * pkt.sci.hlen.toNat + 2 ^ 64 - pkt.sci.size
      = (4 * pkt.sci.hlen.toNat - pkt.sci.size) + 2 ^ 64 by omega, Nat.add_mod_right,
      Nat.mod_eq_of_lt (by omega)] at hpath
    omega

end Regions

/-- The header that is read first is that of the packet. -/
theorem sci_of_parse {buffer : List UInt8} {pkt : ParsedPacket} {sci : SCION} {s s' : ReadStream}
    (h : parse (ofBuffer buffer) = .ok pkt s) (hread : SCION.read (ofBuffer buffer) = .ok sci s') :
    pkt.sci = sci := by
  obtain ⟨found, s₁, hsci, h⟩ := bind_eq_ok.mp h
  rw [hread] at hsci
  cases hsci
  obtain ⟨path, s₂, _, h⟩ := bind_eq_ok.mp h
  obtain ⟨hbh, s₃, _, h⟩ := bind_eq_ok.mp h
  obtain ⟨e2e, s₄, _, h⟩ := bind_eq_ok.mp h
  obtain ⟨l4, s₅, _, h⟩ := bind_eq_ok.mp h
  obtain ⟨payload, s₆, _, h⟩ := bind_eq_ok.mp h
  obtain ⟨_, s₇, _, h⟩ := bind_eq_ok.mp h
  cases h
  rfl

/-- An accepted buffer is partitioned, with a path of the length that the header length
leaves, and no buffer is accepted whose header length is too small for the addresses. The
length of a buffer is a 64-bit number. -/
theorem partition_of_parse {buffer : List UInt8} (hbuffer : buffer.length < 2 ^ 64) :
    (∀ pkt s, parse (ofBuffer buffer) = .ok pkt s →
      (∃ common hbh e2e l4 hbhNext, Regions buffer pkt common hbh e2e l4 hbhNext) ∧
      pkt.sci.size ≤ 4 * pkt.sci.hlen.toNat ∧
      pkt.path.length = 4 * pkt.sci.hlen.toNat - pkt.sci.size ∧
      s.bytePos = buffer.length ∧ s.bitPos = 0) ∧
    ∀ sci s, SCION.read (ofBuffer buffer) = .ok sci s → 4 * sci.hlen.toNat < sci.size →
      ∀ pkt s', parse (ofBuffer buffer) ≠ .ok pkt s' := by
  constructor
  · intro pkt s h
    obtain ⟨⟨common, hbh, e2e, l4, hbhNext, hregions⟩, rfl⟩ := regions_of_parse h
    have hlen := hregions.size_add_length_path hbuffer
    exact ⟨⟨common, hbh, e2e, l4, hbhNext, hregions⟩, by omega, by omega, rfl, rfl⟩
  · intro sci s hread hshort pkt s' h
    obtain ⟨⟨common, hbh, e2e, l4, hbhNext, hregions⟩, -⟩ := regions_of_parse h
    have hlen := hregions.size_add_length_path hbuffer
    rw [sci_of_parse h hread] at hlen
    omega

theorem partition_of_parse_padded :
    (∃ pkt s, parse (ofBuffer padded) = .ok pkt s ∧
      ∃ common hbh e2e l4 hbhNext, Regions padded pkt common hbh e2e l4 hbhNext) := by
  obtain ⟨pkt, s, hparse⟩ : ∃ pkt s, parse (ofBuffer padded) = .ok pkt s := ⟨_, _, rfl⟩
  exact ⟨pkt, s, hparse, ((partition_of_parse (by decide)).1 pkt s hparse).1⟩

end ParsedPacket

end Scion
