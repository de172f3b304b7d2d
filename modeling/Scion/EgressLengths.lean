/-
The lengths in packets that were translated to SCION (`scitra/translator.hpp`).

The header length counts words of four bytes in eight bits, the other lengths count bytes in
sixteen. The MTU is compared with the packet without its underlay.

* `LengthsExact` — an emitted packet whose headers have the lengths of what follows them;
* `lengthsExact_iff` — which packets have exact lengths.
-/
import Scion.EgressMtu

namespace Scion

namespace PacketBuffer

/-- The lengths in the headers, with `body` behind the SCION header and the path. -/
structure HasLengths (pkt : PacketBuffer) (scion body : ℕ) : Prop where
  hlen : 4 * pkt.sci.hlen.toNat = scion
  plen : pkt.sci.plen.toNat = body
  udp : pkt.outerUDP.len.toNat = 8 + scion + body
  ipv4 : pkt.ipValid = .ipv4 → pkt.ipv4.len.toNat = 28 + scion + body
  ipv6 : pkt.ipValid = .ipv6 → pkt.ipv6.plen.toNat = 8 + scion + body

/-- The lengths in the headers of an emitted packet are those of what follows. -/
def LengthsExact (pkt : PacketBuffer) (bytes : List UInt8) : Prop :=
  ∃ chksum body, bytes = pkt.ipBytes ++
      (({ pkt.outerUDP with chksum := chksum } : UDP).bytes ++ (pkt.scionBytes ++ body)) ∧
    pkt.HasLengths pkt.scionBytes.length body.length

end PacketBuffer

/-! ### Exact lengths -/

namespace Routed

/-- The size of the SCION header and the path. -/
def scionLength (r : Routed) : ℕ := 12 + r.dst.size + (8 + r.srcHost.size) + r.path.path.length

/-- The size of what the largest length of the underlay covers in front of the SCION header. -/
def underlayLength (r : Routed) : ℕ := if r.nextHop.host.is4 then 28 else 8

variable {hash : IPAddress → UInt64} {hashSc : ScIPAddress → UInt64}
  {murmur32 : List UInt8 → UInt32 → UInt32} {r : Routed} {result : EgressResult}

open PacketBuffer

/-- Whether the lengths that were computed are exact. -/
theorem hasLengths_iff (h : PassedAs hash hashSc murmur32 r result)
    (hfour : r.path.path.length % 4 = 0) :
    result.pkt.HasLengths r.scionLength (r.pkt.l4Size + r.pkt.payload.length) ↔
      r.scionLength < 1024 ∧ r.underlayLength + r.size ≤ 65535 := by
  have hsize := h.size_le
  have hmtu := r.mtu.toNat_lt
  have hlen := h.underlaid.len
  have hscionSize : result.pkt.sci.size + result.pkt.path.size = r.scionLength := by
    rw [h.sci, h.path_size]
    rfl
  have hsum : r.size = r.scionLength + (r.pkt.l4Size + r.pkt.payload.length) := by
    rw [Routed.size, scionLength]
    omega
  have hmul : r.scionLength % 4 = 0 := by
    have hdst : r.dst.size % 4 = 0 := by
      rw [ScIPAddress.size, IsdAsn.size, IPAddress.size]
      split_ifs <;> rfl
    have hsrc : r.srcHost.size % 4 = 0 := by
      rw [IPAddress.size]
      split_ifs <;> rfl
    rw [scionLength]
    omega
  have hhlen : result.pkt.sci.hlen = UInt8.ofNat (r.scionLength / 4) := by
    rw [h.sci]
    rfl
  have hplen : result.pkt.sci.plen.toNat = r.pkt.l4Size + r.pkt.payload.length := by
    rw [h.sci, show (r.scionHeader hashSc murmur32).plen
      = UInt16.ofNat (r.pkt.l4Size + r.pkt.payload.length) from rfl, UInt16.toNat_ofNat']
    omega
  have hudp : result.pkt.outerUDP.len.toNat = (8 + r.size) % 65536 := by
    rw [hlen, UInt16.toNat_ofNat', hplen]
    omega
  have hhead : 4 * result.pkt.sci.hlen.toNat = r.scionLength ↔ r.scionLength < 1024 := by
    rw [hhlen, UInt8.toNat_ofNat']
    omega
  rw [underlayLength]
  cases h4 : r.nextHop.host.is4 with
  | true =>
    obtain ⟨hvalid, -, -, hip⟩ := h.underlaid.ipv4 h4
    have hiplen : result.pkt.ipv4.len.toNat = (20 + result.pkt.outerUDP.len.toNat) % 65536 := by
      rw [hip, UInt16.toNat_ofNat']
    rw [if_pos rfl]
    constructor
    · intro hl
      have hex := hl.ipv4 hvalid
      have hudpex := hl.udp
      exact ⟨hhead.mp hl.hlen, by omega⟩
    · rintro ⟨hshort, hfits⟩
      exact ⟨hhead.mpr hshort, hplen, by omega, fun _ => by omega,
        fun h6 => absurd (hvalid.symm.trans h6) (by decide)⟩
  | false =>
    obtain ⟨hvalid, -, -, hip⟩ := h.underlaid.ipv6 h4
    rw [if_neg Bool.false_ne_true]
    constructor
    · intro hl
      have hudpex := hl.udp
      exact ⟨hhead.mp hl.hlen, by omega⟩
    · rintro ⟨hshort, hfits⟩
      exact ⟨hhead.mpr hshort, hplen, by omega,
        fun h4' => absurd (hvalid.symm.trans h4') (by decide), fun _ => by rw [hip]; omega⟩

end Routed

section Lengths

variable {hash : IPAddress → UInt64} {hashSc : ScIPAddress → UInt64}
  {murmur32 : List UInt8 → UInt32 → UInt32} {sourcePrefix : IPAddress} {prefixLen : UInt32}
  {getPath : GetPath} {pkt : PacketBuffer} {r : Routed} {result : EgressResult}

open Codec PacketBuffer

/-- A packet without a layer 4 header is not changed before it is routed. -/
theorem PacketBuffer.RoutedFrom.eq_of_none (h : RoutedFrom sourcePrefix prefixLen getPath pkt r)
    (hnone : pkt.l4Valid = .none) : r.pkt = pkt := by
  have htranslated := h.translated
  rw [translateL4, hnone, if_neg (by decide)] at htranslated
  exact (congrArg (·.2.2) htranslated).symm

/-- The layout of what is emitted for a packet that passes. -/
theorem Routed.PassedAs.intact (h : r.PassedAs hash hashSc murmur32 result)
    (hfrom : RoutedFrom sourcePrefix prefixLen getPath pkt r) (hintact : pkt.Intact) :
    result.pkt.Intact := by
  refine ⟨h.placed (hfrom.l4.layout.placed hintact.placed), fun hstun => ?_⟩
  rw [h.stunValid, hfrom.l4.layout.stunValid] at hstun
  have hnone := hintact.stun_alone hstun
  rw [h.message.l4Valid, hfrom.eq_of_none hnone]
  exact hnone

/-- The header is too long for its length field with a long path between IPv6 hosts, and the
underlay for its own when the packet is not much shorter than 64 KiB. -/
theorem lengthsExact_iff {bytes : List UInt8} (hintact : pkt.Intact)
    (hroute : pkt.route sourcePrefix prefixLen getPath = .ok r)
    (hfour : r.path.path.length % 4 = 0)
    (hresult : pkt.translateEgress hash hashSc murmur32 sourcePrefix prefixLen getPath
      = .ok result)
    (hpass : result.verdict = .pass) (hemit : (result.pkt.emitPacket false).1 = .ok bytes) :
    result.pkt.LengthsExact bytes ↔
      r.scionLength < 1024 ∧ r.underlayLength + r.size ≤ 65535 := by
  have hfrom := routedFrom hroute
  rw [translateEgress_of_route _ _ _ hroute] at hresult
  have hpassed := Routed.passedAs hresult hpass
  have hencoded : result.pkt.PathSized := by
    rw [PathSized, hpassed.encoded, hpassed.path_size]
  obtain ⟨-, -, body, hbytes, -, hbody⟩ :=
    emitted_parts (hpassed.intact hfrom hintact) (fun _ => hencoded) hemit
  rw [underlaidBytes, hpassed.underlaid.outerUDPValid, hpassed.underlaid.scionValid, bytesIf,
    bytesIf, if_pos rfl, if_pos rfl, List.append_assoc] at hbytes
  have hscion : result.pkt.scionBytes.length = r.scionLength := by
    rw [scionBytes, List.length_append, SCION.length_bytes, hpassed.encoded, hpassed.sci]
    rfl
  rw [hpassed.l4Size, hpassed.payload] at hbody
  rw [← Routed.hasLengths_iff hpassed hfour]
  constructor
  · rintro ⟨chksum, body', hbytes', hlengths⟩
    have hsame := congrArg List.length (hbytes'.symm.trans hbytes)
    simp only [List.length_append, UDP.length_bytes] at hsame
    rw [hscion] at hlengths
    rwa [show body'.length = r.pkt.l4Size + r.pkt.payload.length by omega] at hlengths
  · intro hlengths
    refine ⟨_, body, hbytes, ?_⟩
    rwa [hscion, hbody]

/-! ### A long path between IPv6 hosts -/

/-- A path with an IPv6 next hop. -/
def examplePath6 (len : ℕ) : Path := examplePathOf ⟨.v6 0xfd00000000000000 99 "", 30042⟩ len

/-- A packet from one IPv6 host to another with a path of `len` bytes. -/
def exampleRouted6 (headroom len : ℕ) : Routed :=
  ⟨exampleEgress headroom [0, 0, 0, 0, 0, 0, 0, 1] 12, .v6 0xfd00000000000000 2 "",
    ⟨⟨0x1000000000001⟩, .v6 0xfc00100001000000 1 ""⟩, ScionProto.udp, examplePath6 len, 1472⟩

/-- A parsed packet, if the buffer is large enough for it. -/
theorem intact_exampleRouted6 {headroom len : ℕ}
    (hok : ((PacketBuffer.ofBuffer (List.replicate (headroom + 48 + 12) 0)).receive headroom
      (udpOverIPv6 [0, 0, 0, 0, 0, 0, 0, 1] 12) false none).1 = .ok) :
    (exampleRouted6 headroom len).pkt.Intact := by
  show (exampleEgress headroom [0, 0, 0, 0, 0, 0, 0, 1] 12).Intact
  refine intact_of_receive ?_ hok
  rw [ofBuffer, List.length_replicate, show (udpOverIPv6 [0, 0, 0, 0, 0, 0, 0, 1] 12).length = 60
    from rfl]
  omega

theorem lengthsExact_iff_shortPath : ∃ result bytes,
    (exampleRouted6 200 40).pkt.translateEgress (fun _ => 0) (fun _ => 0) (fun _ _ => 0)
        (.v6 0xfd00000000000000 2 "") 128 (exampleGetPath (examplePath6 40) 1472) = .ok result ∧
      (result.pkt.emitPacket false).1 = .ok bytes ∧ result.pkt.LengthsExact bytes := by
  have hroute : (exampleRouted6 200 40).pkt.route (.v6 0xfd00000000000000 2 "") 128
      (exampleGetPath (examplePath6 40) 1472) = .ok (exampleRouted6 200 40) := by decide +kernel
  have hintact : (exampleRouted6 200 40).pkt.Intact :=
    intact_exampleRouted6 (by decide +kernel)
  obtain ⟨result, hresult, hpasses⟩ := exists_ok_of_any
    (x := (exampleRouted6 200 40).pkt.translateEgress (fun _ => 0) (fun _ => 0) (fun _ _ => 0)
      (.v6 0xfd00000000000000 2 "") 128 (exampleGetPath (examplePath6 40) 1472))
    (p := fun result => result.verdict = .pass ∧
      (result.pkt.emitPacket false).1.toOption.any fun _ => true)
    (by decide +kernel)
  obtain ⟨hpass, hemits⟩ := of_decide_eq_true hpasses
  obtain ⟨bytes, hbytes, -⟩ := exists_ok_of_any hemits
  exact ⟨result, bytes, hresult, hbytes, (lengthsExact_iff hintact hroute
    (by decide +kernel) hresult hpass hbytes).mpr (by decide +kernel)⟩

/-- A header of 1044 bytes is written with the length 20. -/
theorem not_forall_lengthsExact :
    ¬ ∀ (hash : IPAddress → UInt64) (hashSc : ScIPAddress → UInt64)
      (murmur32 : List UInt8 → UInt32 → UInt32) (sourcePrefix : IPAddress) (prefixLen : UInt32)
      (getPath : GetPath) (pkt : PacketBuffer) (r : Routed) (result : EgressResult)
      (bytes : List UInt8), pkt.Intact → pkt.route sourcePrefix prefixLen getPath = .ok r →
      r.path.path.length % 4 = 0 →
      pkt.translateEgress hash hashSc murmur32 sourcePrefix prefixLen getPath = .ok result →
      result.verdict = .pass → (result.pkt.emitPacket false).1 = .ok bytes →
      result.pkt.LengthsExact bytes := by
  intro hclaim
  have hroute : (exampleRouted6 1100 984).pkt.route (.v6 0xfd00000000000000 2 "") 128
      (exampleGetPath (examplePath6 984) 1472) = .ok (exampleRouted6 1100 984) := by
    decide +kernel
  have hintact : (exampleRouted6 1100 984).pkt.Intact :=
    intact_exampleRouted6 (by decide +kernel)
  obtain ⟨result, hresult, hpasses⟩ := exists_ok_of_any
    (x := (exampleRouted6 1100 984).pkt.translateEgress (fun _ => 0) (fun _ => 0) (fun _ _ => 0)
      (.v6 0xfd00000000000000 2 "") 128 (exampleGetPath (examplePath6 984) 1472))
    (p := fun result => result.verdict = .pass ∧ result.pkt.sci.hlen = 5 ∧
      result.pkt.scionBytes.length = 1044 ∧
      (result.pkt.emitPacket false).1.toOption.any fun _ => true)
    (by decide +kernel)
  obtain ⟨hpass, hhlen, hlen, hemits⟩ := of_decide_eq_true hpasses
  obtain ⟨bytes, hbytes, -⟩ := exists_ok_of_any hemits
  obtain ⟨_, _, _, hlengths⟩ := hclaim _ _ _ _ _ _ _ _ _ bytes hintact hroute
    (by decide +kernel) hresult hpass hbytes
  have hexact := hlengths.hlen
  rw [hhlen, hlen] at hexact
  exact absurd hexact (by decide)

end Lengths

end Scion
