/-
Checksums of sent packets (`socket/header_cache.hpp`, `socket/parsed_packet.hpp`).

* `checksumSum` — the 32-bit sum of all that the checksum of a packet covers;
* `checksum_sent` — the receiver adds up the same and the checksum;
* `sent_verifies_iff` — a packet without extensions verifies at every receiver
  exactly when the fold of that sum does not carry.
-/
import Scion.Packager

namespace Scion

open BigEndian Codec OnesComplement HeaderCache ParsedPacket

/-- The sum of the pseudo header, the transport header as it is sent and the
words of the payload, in 32 bits. -/
def checksumSum (dst src : ScIPEndpoint) (l4 : L4Header) (payload : List UInt8) : ℕ :=
  ((dst.address.checksum + src.address.checksum
      + (UInt16.ofNat (l4.size + payload.length)).toUInt32 + l4.proto.toUInt32
      + (prepareL4 dst src l4 payload).checksum).toNat + wordSum payload) % 2 ^ 32

section Build

variable {S : Type} [ExtensionClass S]
  {hash : ScIPAddress → UInt64} {murmur32 : List UInt8 → UInt32 → UInt32}
  {cache cache' : HeaderCache} {tc : UInt8} {dst src : ScIPEndpoint} {path : PathView}
  {l4 l4' : L4Header} {payload : List UInt8}

theorem emits_none (pos : ℕ) : EmitsOptions ([] : List (Extension S)) pos [] [] :=
  ⟨Emits.nil _ _, Emits.nil _ _⟩

/-- Without extensions the receiver derives the length the sender used and adds
up what the sender added up, and the checksum. -/
theorem checksum_sent (hzero : l4.chksum = 0) :
    ParsedPacket.checksum
        ⟨(sentHeader hash murmur32 tc dst src path ([] : List (Extension S)) l4 payload).onWire,
          path.encoded, [], [],
          sentL4 hash murmur32 tc dst src path ([] : List (Extension S)) l4 payload, payload⟩
      = 0xffff ↔
    fold 65536 (checksumSum dst src l4 payload) < 65536 := by
  set scHdr := sentHeader hash murmur32 tc dst src path ([] : List (Extension S)) l4 payload
    with hscHdr
  set hdr := prepareL4 dst src l4 payload with hhdr
  set inital := pseudoChecksum scHdr hdr payload + hdr.checksum with hinital
  have hsent : sentL4 hash murmur32 tc dst src path ([] : List (Extension S)) l4 payload
      = hdr.withChksum (internetChecksum payload inital) := rfl
  -- no options, so that the receiver takes the whole payload length field
  have hlen : ParsedPacket.l4Len
        ⟨scHdr.onWire, path.encoded, [], [], hdr.withChksum (internetChecksum payload inital),
          payload⟩
      = UInt16.ofNat (hdr.size + payload.length) := by
    have hplen : scHdr.onWire.plen = UInt16.ofNat (hdr.size + payload.length) := by
      rw [hscHdr, sentHeader, scionHeader]
      show UInt16.ofNat (0 + 0 + hdr.size + payload.length) = _
      rw [Nat.add_assoc, Nat.add_assoc, zero_add, zero_add]
    rw [l4Len, hplen]
    simp
  have hpseudo : scHdr.onWire.checksum (UInt16.ofNat (hdr.size + payload.length)) hdr.proto
      = pseudoChecksum scHdr hdr payload := by
    rw [pseudoChecksum, SCION.checksum, SCION.checksum, SCION.onWire,
      ScIPAddress.checksum_withoutZone, ScIPAddress.checksum_withoutZone]
  have hchk : hdr.withChksum 0 = hdr :=
    L4Header.withChksum_chksum (by rw [hhdr, chksum_prepareL4, hzero])
  have hsum : ((inital.toNat + wordSum payload) % 2 ^ 32) = checksumSum dst src l4 payload := by
    rw [checksumSum, hinital, pseudoChecksum, hhdr, size_prepareL4, proto_prepareL4]
    rfl
  rw [ParsedPacket.checksum, hsent, hlen, L4Header.proto_withChksum, hpseudo,
    L4Header.checksum_withChksum, hchk, ← hsum,
    show hdr.checksum + (internetChecksum payload inital).toUInt32
        + pseudoChecksum scHdr hdr payload
      = inital + (internetChecksum payload inital).toUInt32 by
        rw [hinital]; ac_rfl]
  exact onesComplementChecksum_add_internetChecksum payload inital

/-- A packet without extensions, whose checksum field was zero when `build` was
called, verifies, and no receiver answers it with a checksum error, exactly when
the upper and lower half of the sum that is folded add up without a carry. -/
theorem sent_verifies_iff
    (hbuild : build hash murmur32 cache tc dst src path ([] : List (Extension S)) l4 payload
      = .ok (cache', l4')) (hzero : l4.chksum = 0) :
    ((∃ pkt s, parse (ReadStream.ofBuffer (cache'.buffer ++ payload)) = .ok pkt s ∧
          pkt.checksum = 0xffff) ∧
        ∀ (peer : ScionPackager) (ulSource : IPAddress) (hbhExt e2eExt : List (Extension S)),
          (peer.unpack (cache'.buffer ++ payload) ulSource hbhExt e2eExt).1
            ≠ .error .checksumError) ↔
      checksumSum dst src l4 payload / 65536 + checksumSum dst src l4 payload % 65536 < 65536 := by
  have hemits := emits_none (S := S) (extPos dst src path)
  obtain ⟨s, hparse⟩ := parse_build hemits hbuild (fun h => by cases h.1)
    (show OptsFit 0 by decide) (show OptsFit 0 by decide)
  obtain ⟨_, _, _, hr⟩ := (build_eq_ok_iff hemits).mp hbuild
  cases hr
  constructor
  · rintro ⟨⟨pkt, s', hpkt, hsum⟩, _⟩
    rw [hparse] at hpkt
    cases hpkt
    exact (checksum_sent hzero).mp hsum
  · intro hfold
    refine ⟨⟨_, s, hparse, (checksum_sent hzero).mpr hfold⟩, ?_⟩
    intro peer ulSource hbhExt e2eExt h
    obtain ⟨pkt, s', hpkt, hne⟩ := ScionPackager.of_unpack_eq_checksumError h
    rw [hparse] at hpkt
    cases hpkt
    exact hne ((checksum_sent hzero).mpr hfold)

end Build

section Datagram

open RoundTrip

theorem sum_small : checksumSum (endpoint 1 5000) (endpoint 2 3000) (.udp udp) [1, 2] / 65536
    + checksumSum (endpoint 1 5000) (endpoint 2 3000) (.udp udp) [1, 2] % 65536 < 65536 := by
  decide

/-- The payload `01 02` between two endpoints. -/
theorem sent_verifies_iff_datagram :
    ∃ cache' l4', build (fun _ => 0) (fun _ _ => 0) HeaderCache.init 0 (endpoint 1 5000)
        (endpoint 2 3000) emptyPath ([] : List (Extension PlainOption)) (.udp udp) [1, 2]
          = .ok (cache', l4') ∧
      (∃ pkt s, parse (ReadStream.ofBuffer (cache'.buffer ++ [1, 2])) = .ok pkt s ∧
        pkt.checksum = 0xffff) ∧
      ∀ (peer : ScionPackager) (ulSource : IPAddress)
        (hbhExt e2eExt : List (Extension PlainOption)),
        (peer.unpack (cache'.buffer ++ [1, 2]) ulSource hbhExt e2eExt).1
          ≠ .error .checksumError := by
  obtain ⟨⟨cache', l4'⟩, hbuild⟩ : ∃ r, build (fun _ => 0) (fun _ _ => 0) HeaderCache.init 0
      (endpoint 1 5000) (endpoint 2 3000) emptyPath ([] : List (Extension PlainOption)) (.udp udp)
        [1, 2] = .ok r :=
    ⟨_, (build_eq_ok_iff (emits_none _)).mpr ⟨rfl, by decide, by decide, rfl⟩⟩
  exact ⟨cache', l4', hbuild, (sent_verifies_iff hbuild rfl).mpr sum_small⟩

/-- With the payload `cc 77` the sum is `4ffff`, whose halves carry: the receiver
computes 0. -/
theorem not_forall_sent_verifies :
    ¬ ∀ (S : Type) (_ : ExtensionClass S) (hash : ScIPAddress → UInt64)
        (murmur32 : List UInt8 → UInt32 → UInt32) (cache cache' : HeaderCache) (tc : UInt8)
        (dst src : ScIPEndpoint) (path : PathView) (l4 l4' : L4Header) (payload : List UInt8),
      l4.chksum = 0 → l4.size + payload.length < 2 ^ 16 →
      build hash murmur32 cache tc dst src path ([] : List (Extension S)) l4 payload
        = .ok (cache', l4') →
      ∃ pkt s, parse (ReadStream.ofBuffer (cache'.buffer ++ payload)) = .ok pkt s ∧
        pkt.checksum = 0xffff := by
  intro h
  have hemits := emits_none (S := PlainOption)
    (extPos (endpoint 1 5000) (endpoint 2 3000) emptyPath)
  obtain ⟨⟨cache', l4'⟩, hbuild⟩ : ∃ r, build (fun _ => 0) (fun _ _ => 0) HeaderCache.init 0
      (endpoint 1 5000) (endpoint 2 3000) emptyPath ([] : List (Extension PlainOption)) (.udp udp)
        [0xcc, 0x77] = .ok r :=
    ⟨_, (build_eq_ok_iff hemits).mpr ⟨rfl, by decide, by decide, rfl⟩⟩
  obtain ⟨pkt, s, hpkt, hsum⟩ := h _ _ _ _ _ _ _ _ _ _ _ _ _ rfl (by decide) hbuild
  obtain ⟨s', hparse⟩ := parse_build hemits hbuild (fun h => by cases h.1)
    (show OptsFit 0 by decide) (show OptsFit 0 by decide)
  rw [hparse] at hpkt
  cases hpkt
  obtain ⟨_, _, _, hr⟩ := (build_eq_ok_iff hemits).mp hbuild
  cases hr
  exact absurd ((checksum_sent rfl).mp hsum) (by decide)

end Datagram

end Scion
