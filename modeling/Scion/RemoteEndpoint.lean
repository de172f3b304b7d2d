/-
The remote endpoint of a socket (`socket/packager.hpp`).

A socket with a remote endpoint should reject the packets of others. `verifyReceived`
compares the address of the sender with that of the remote endpoint, but not the port.

* `Delivers` — a received packet is unpacked to a payload;
* `delivers_address` — what is known of its packet;
* `exists_delivers` — whatever the remote port, a packet from any port is delivered;
* `fromRemote_iff` — for which sockets only packets from the remote endpoint are.
-/
import Scion.PacketLayout
import Scion.SentChecksum

namespace Scion

open BigEndian Codec OnesComplement ReadStream ParsedPacket

namespace ScionPackager

/-- The checks have passed if each of them has. -/
theorem verifyReceived_eq_ok_iff {p : ScionPackager} {pkt : ParsedPacket} {ulSource : IPAddress} :
    p.verifyReceived pkt ulSource = .ok ↔
      p.mapped.address.matchesAddr pkt.sci.dst = true ∧
        (pkt.l4.proto = SCMP.proto ∨ p.remote.address.matchesAddr pkt.sci.src = true) ∧
        (pkt.sci.ptype = PathType.empty → ulSource.unmap4in6 = pkt.sci.src.host) ∧
        pkt.checksum = 0xffff := by
  simp only [verifyReceived]
  by_cases hdst : p.mapped.address.matchesAddr pkt.sci.dst = true
  swap
  · simp [hdst]
  by_cases hscmp : pkt.l4.proto = SCMP.proto
  · by_cases hsum : pkt.checksum = 0xffff <;> by_cases hempty : pkt.sci.ptype = PathType.empty <;>
      by_cases hhost : ulSource.unmap4in6 = pkt.sci.src.host <;>
      simp [hdst, hscmp, hsum, hempty, hhost]
  · by_cases hsrc : p.remote.address.matchesAddr pkt.sci.src = true <;>
      by_cases hsum : pkt.checksum = 0xffff <;> by_cases hempty : pkt.sci.ptype = PathType.empty <;>
      by_cases hhost : ulSource.unmap4in6 = pkt.sci.src.host <;>
      simp [hdst, hscmp, hsrc, hsum, hempty, hhost]

section Delivery

variable {S : Type} [ExtensionClass S]

/-- A received packet is unpacked to a payload, and not to an error or an SCMP message. -/
def Delivers (p : ScionPackager) (buf : List UInt8) (ulSource : IPAddress)
    (hbhExt e2eExt : List (Extension S)) (u : Unpacked S) : Prop :=
  (p.unpack buf ulSource hbhExt e2eExt).1 = .ok u ∧ u.result = .ok

/-- The packet in `buf` that `u` was unpacked from is a UDP packet whose source matches the
remote endpoint and whose destination the mapped address, and it verifies. -/
def FromRemote (p : ScionPackager) (buf : List UInt8) (u : Unpacked S) : Prop :=
  ∃ pkt s udp, parse (ofBuffer buf) = .ok pkt s ∧ pkt.l4 = .udp udp ∧ u.payload = pkt.payload ∧
    p.remote.address.matchesAddr pkt.sci.src = true ∧
    (p.remote.port = 0 ∨ p.remote.port = udp.sport) ∧
    p.mapped.address.matchesAddr pkt.sci.dst = true ∧ pkt.checksum = 0xffff

/-! ### What is checked -/

theorem unpackVerified_eq_ok {pkt : ParsedPacket} {hbhExt e2eExt : List (Extension S)}
    {u : Unpacked S} (h : unpackVerified pkt hbhExt e2eExt = .ok u) (hresult : u.result = .ok) :
    ∃ udp, pkt.l4 = .udp udp ∧ u.payload = pkt.payload ∧
      u.sender = ⟨pkt.sci.src.isdAsn, ⟨pkt.sci.src.host, udp.sport⟩⟩ := by
  rw [unpackVerified] at h
  rcases hhbh : unpackExtensions pkt.hbhOpts hbhExt with err | hbhExt'
  · rw [hhbh] at h
    cases h
  rcases he2e : unpackExtensions pkt.hbhOpts e2eExt with err | e2eExt'
  · rw [hhbh, he2e] at h
    cases h
  rw [hhbh, he2e] at h
  rcases hl4 : pkt.l4 with udp | scmp
  · rw [hl4] at h
    cases h
    exact ⟨udp, rfl, rfl, rfl⟩
  · rw [hl4] at h
    cases h
    cases hresult

/-- Everything but the port is checked. -/
theorem delivers_address {p : ScionPackager} {buf : List UInt8} {ulSource : IPAddress}
    {hbhExt e2eExt : List (Extension S)} {u : Unpacked S}
    (h : p.Delivers buf ulSource hbhExt e2eExt u) :
    ∃ pkt s udp, parse (ofBuffer buf) = .ok pkt s ∧ pkt.l4 = .udp udp ∧ u.payload = pkt.payload ∧
      u.sender = ⟨pkt.sci.src.isdAsn, ⟨pkt.sci.src.host, udp.sport⟩⟩ ∧
      p.remote.address.matchesAddr pkt.sci.src = true ∧
      p.mapped.address.matchesAddr pkt.sci.dst = true ∧ pkt.checksum = 0xffff := by
  obtain ⟨hok, hresult⟩ := h
  obtain ⟨_, pkt, s, hparse, hverify, hunpack⟩ := unpack_eq_ok_iff.mp hok
  obtain ⟨udp, hl4, hpayload, hsender⟩ := unpackVerified_eq_ok hunpack hresult
  obtain ⟨hdst, hsrc, -, hsum⟩ := verifyReceived_eq_ok_iff.mp hverify
  refine ⟨pkt, s, udp, hparse, hl4, hpayload, hsender, ?_, hdst, hsum⟩
  -- only SCMP messages may come from elsewhere
  rcases hsrc with hscmp | hsrc
  · rw [hl4] at hscmp
    exact absurd hscmp (show UDP.proto ≠ SCMP.proto by decide)
  · exact hsrc

/-- A delivered packet is from the remote endpoint if the port is right. -/
theorem fromRemote_iff_port {p : ScionPackager} {buf : List UInt8} {ulSource : IPAddress}
    {hbhExt e2eExt : List (Extension S)} {u : Unpacked S}
    (h : p.Delivers buf ulSource hbhExt e2eExt u) :
    p.FromRemote buf u ↔ p.remote.port = 0 ∨ p.remote.port = u.sender.port := by
  obtain ⟨pkt, s, udp, hparse, hl4, hpayload, hsender, hsrc, hdst, hsum⟩ := delivers_address h
  have hport : u.sender.port = udp.sport := by rw [hsender]; rfl
  constructor
  · rintro ⟨pkt', s', udp', hparse', hl4', -, -, hport', -⟩
    rw [hparse] at hparse'
    cases hparse'
    rw [hl4] at hl4'
    cases hl4'
    rwa [hport]
  · intro hmatch
    rw [hport] at hmatch
    exact ⟨pkt, s, udp, hparse, hl4, hpayload, hsrc, hmatch, hdst, hsum⟩

end Delivery

/-! ### A packet from any port -/

/-- The host of some received address matches: wildcards match every host, and other hosts
those that carry no zone. -/
def Receivable (host : IPAddress) : Prop := host.isUnspecified = true ∨ host.withoutZone = host

instance (host : IPAddress) : Decidable (Receivable host) := inferInstanceAs (Decidable (_ ∨ _))

theorem matchesAddr_withoutZone {a : ScIPAddress} (h : Receivable a.host) :
    a.matchesAddr a.withoutZone = true := by
  have hia : a.isdAsn.matchesIA a.isdAsn = true := by simp [IsdAsn.matchesIA]
  rw [ScIPAddress.matchesAddr, ScIPAddress.withoutZone, if_neg (by simp [hia])]
  rcases h with h | h
  · rw [h, Bool.true_or]
  · rw [h, beq_self_eq_true, Bool.or_true]

theorem receivable_of_matchesAddr {a other : ScIPAddress} (h : a.matchesAddr other = true)
    (hother : other.host.withoutZone = other.host) : Receivable a.host := by
  rw [ScIPAddress.matchesAddr] at h
  split at h
  · cases h
  rw [Bool.or_eq_true, beq_iff_eq] at h
  rcases h with h | h
  · exact Or.inl h
  · exact Or.inr (by rw [h, hother])

/-- A word that fills up the low half of a sum leaves a fold without a carry. -/
theorem exists_payload (inital : UInt32) : ∃ payload : List UInt8, payload.length = 2 ∧
    fold 65536 ((inital.toNat + wordSum payload) % 2 ^ 32) < 65536 := by
  refine ⟨beBytes 2 ((65536 - inital.toNat % 65536) % 65536), length_beBytes _ _, ?_⟩
  rw [wordSum_beBytes_two, Nat.mod_mod]
  have hlow : (inital.toNat + (65536 - inital.toNat % 65536) % 65536) % 65536 = 0 := by omega
  have hlt := inital.toNat_lt
  rw [fold]
  omega

/-- The SCION header of a packet from the remote address to the mapped one. -/
def remoteHeader (p : ScionPackager) : SCION where
  qos := 0
  hlen := UInt8.ofNat ((12 + p.mapped.address.size + p.remote.address.size) / 4)
  nh := ScionProto.udp
  ptype := PathType.scion
  plen := 10
  fl := 0
  dst := p.mapped.address
  src := p.remote.address

theorem hlen_remoteHeader (p : ScionPackager) :
    4 * p.remoteHeader.hlen.toNat = p.remoteHeader.size + ([] : List UInt8).length := by
  have hsize : ∀ a : ScIPAddress, a.size = 12 ∨ a.size = 24 := by
    intro a
    rw [ScIPAddress.size, IsdAsn.size, IPAddress.size]
    split
    · exact Or.inl rfl
    · exact Or.inr rfl
  show 4 * (UInt8.ofNat ((12 + p.mapped.address.size + p.remote.address.size) / 4)).toNat
    = 12 + p.mapped.address.size + p.remote.address.size + 0
  rcases hsize p.mapped.address with hdst | hdst <;> rcases hsize p.remote.address with hsrc | hsrc <;>
    rw [hdst, hsrc] <;> rfl

/-- The packet is read as it is written, up to the zones of its addresses. -/
theorem parse_remotePacket (p : ScionPackager) (udp : UDP) (payload : List UInt8) :
    ∃ s, parse (ofBuffer (p.remoteHeader.bytes ++ ([] ++ (udp.bytes ++ payload))))
      = .ok ⟨p.remoteHeader.onWire, [], [], [], .udp udp, payload⟩ s := by
  rw [parse_cursor p.hlen_remoteHeader]
  have hhbh : Codec.Reads cursor (parseOpts ScionProto.hbhOpt p.remoteHeader.onWire.nh) []
      ([], ScionProto.udp) := reads_parseOpts_skip (show ScionProto.udp ≠ ScionProto.hbhOpt by decide)
  have he2e : Codec.Reads cursor (parseOpts ScionProto.e2eOpt ScionProto.udp) []
      ([], ScionProto.udp) := reads_parseOpts_skip (by decide)
  have hl4 : Codec.Reads cursor (parseL4 ScionProto.udp) (L4Header.udp udp).bytes (.udp udp) :=
    reads_parseL4 (show (L4Header.udp udp).isKnown = true from rfl)
  exact parseRest_eq_ok hhbh he2e hl4 _ payload

theorem detectStun_remotePacket (p : ScionPackager) (rest : List UInt8) :
    detectStun (p.remoteHeader.bytes ++ rest) = false := by
  rw [SCION.bytes]
  simp only [List.append_assoc]
  exact detectStun_eq_false (length_beBytes 4 _) (show ScionProto.udp ≠ 0x21 by decide)

section Delivery

variable {S : Type} [ExtensionClass S]

/-- Whatever the port of the remote endpoint, a packet from any port is delivered, provided
that the addresses can be received at all. -/
theorem exists_delivers {p : ScionPackager} (hmapped : Receivable p.mapped.host)
    (hremote : Receivable p.remote.host) (sport : UInt16) :
    ∃ buf ulSource u, p.Delivers buf ulSource ([] : List (Extension S)) [] u ∧
      u.sender.port = sport := by
  -- the payload makes the sum carry-free, so that its complement verifies
  set udp : UDP := ⟨sport, 0, 0, 0⟩ with hudp
  set inital := udp.checksum + p.remoteHeader.onWire.checksum 10 UDP.proto with hinital
  obtain ⟨payload, -, hfold⟩ := exists_payload inital
  set chksum := internetChecksum payload inital with hchksum
  obtain ⟨s, hparse⟩ := p.parse_remotePacket { udp with chksum := chksum } payload
  set pkt : ParsedPacket :=
    ⟨p.remoteHeader.onWire, [], [], [], .udp { udp with chksum := chksum }, payload⟩ with hpkt
  have hsum : pkt.checksum = 0xffff := by
    have hl4 := L4Header.checksum_withChksum chksum (.udp udp)
    rw [L4Header.withChksum_chksum (show (L4Header.udp udp).chksum = 0 from rfl)] at hl4
    have hlen : pkt.l4Len = 10 := by simp [hpkt, l4Len, SCION.onWire, remoteHeader]
    have hacc : pkt.l4.checksum + pkt.sci.checksum pkt.l4Len pkt.l4.proto
        = inital + chksum.toUInt32 := by
      rw [hlen, hinital]
      show L4Header.checksum (.udp { udp with chksum := chksum })
        + p.remoteHeader.onWire.checksum 10 UDP.proto = _
      rw [show L4Header.checksum (.udp { udp with chksum := chksum })
        = udp.checksum + chksum.toUInt32 from hl4]
      ac_rfl
    rw [ParsedPacket.checksum, hacc]
    exact (onesComplementChecksum_add_internetChecksum payload inital).mpr hfold
  -- with a SCION path the source in the underlay is not looked at
  have hverify : p.verifyReceived pkt (.v4 0) = .ok := by
    refine verifyReceived_eq_ok_iff.mpr ⟨matchesAddr_withoutZone hmapped,
      Or.inr (matchesAddr_withoutZone hremote), fun hempty => ?_, hsum⟩
    exact absurd hempty (show PathType.scion ≠ PathType.empty by decide)
  refine ⟨_, .v4 0, _, ⟨unpack_eq_ok_iff.mpr ⟨p.detectStun_remotePacket _, pkt, s, hparse,
    hverify, rfl⟩, rfl⟩, rfl⟩

/-- What is delivered is from the remote endpoint, for all packets, exactly when the socket
leaves the remote port unspecified or can receive nothing; and a packet that is delivered
is from the remote endpoint exactly when its port is right. -/
theorem fromRemote_iff (p : ScionPackager) :
    ((∀ (buf : List UInt8) (ulSource : IPAddress) (hbhExt e2eExt : List (Extension S))
        (u : Unpacked S), p.Delivers buf ulSource hbhExt e2eExt u → p.FromRemote buf u) ↔
      p.remote.port = 0 ∨ ¬(Receivable p.mapped.host ∧ Receivable p.remote.host)) ∧
    ∀ (buf : List UInt8) (ulSource : IPAddress) (hbhExt e2eExt : List (Extension S))
      (u : Unpacked S), p.Delivers buf ulSource hbhExt e2eExt u →
      (p.FromRemote buf u ↔ p.remote.port = 0 ∨ p.remote.port = u.sender.port) := by
  refine ⟨⟨fun hall => ?_, fun hcond buf ulSource hbhExt e2eExt u hdelivers => ?_⟩,
    fun buf ulSource hbhExt e2eExt u => fromRemote_iff_port⟩
  · by_contra hcond
    rw [not_or, not_not] at hcond
    obtain ⟨hport, hmapped, hremote⟩ := hcond
    -- port 0 is none that the remote endpoint specifies
    obtain ⟨buf, ulSource, u, hdelivers, hsport⟩ := exists_delivers (S := S) hmapped hremote 0
    have hmatch := (fromRemote_iff_port hdelivers).mp (hall _ _ _ _ _ hdelivers)
    rw [hsport, or_self] at hmatch
    exact hport hmatch
  · rcases hcond with hport | hreceivable
    · exact (fromRemote_iff_port hdelivers).mpr (Or.inl hport)
    · obtain ⟨pkt, s, udp, hparse, -, -, -, hsrc, hdst, -⟩ := delivers_address hdelivers
      obtain ⟨l⟩ := layout_of_parse hparse
      exact absurd ⟨receivable_of_matchesAddr hdst l.dst_withoutZone,
        receivable_of_matchesAddr hsrc l.src_withoutZone⟩ hreceivable

end Delivery

/-- A socket at `10.0.0.1`, connected to port 5000 at `10.0.0.2` in AS `ff00:0:0`. -/
def connected : ScionPackager where
  trafficClass := 0
  localEp := ⟨⟨0x0001ff0000000001⟩, ⟨.v4 0x0a000001, 3000⟩⟩
  mapped := ⟨⟨0x0001ff0000000001⟩, ⟨.v4 0x0a000001, 3000⟩⟩
  remote := ⟨⟨0x0001ff0000000000⟩, ⟨.v4 0x0a000002, 5000⟩⟩
  expectStunResponse := false
  expectedStunServer := .v6 0 0 ""
  stunTx := List.replicate 12 0

/-- The payload of a packet from port 80 is delivered. -/
theorem not_forall_fromRemote :
    ¬ ∀ (S : Type) (_ : ExtensionClass S) (p : ScionPackager) (buf : List UInt8)
        (ulSource : IPAddress) (hbhExt e2eExt : List (Extension S)) (u : Unpacked S),
      p.Delivers buf ulSource hbhExt e2eExt u → p.FromRemote buf u := by
  intro h
  have hfrom := h PlainOption inferInstance connected (addressHeader 17 10 [0, 0, 0, 0]
    ++ [0, 80, 0, 81, 0, 10, 0xec, 0x2f, 1, 2]) (.v4 0x0a000002) [] [] _ ⟨rfl, rfl⟩
  obtain ⟨pkt, s, udp, hparse, hl4, -, -, hport, -⟩ := hfrom
  cases hparse
  cases hl4
  rcases hport with hport | hport
  · cases hport
  · cases hport

end ScionPackager

end Scion
