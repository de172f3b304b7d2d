/-
The headers of packets that were translated to IPv6 (`scitra/translator.hpp`).

The IPv6 header takes the protocol that the SCION header names, which is the first extension
header if there is one. The checksum is adjusted for the protocol that was parsed.

* `IngressFrom` — the stages that a packet passes in `translateIngress`;
* `HeadersDescribe` — an emitted packet whose IPv6 header describes what follows it;
* `headersDescribe_iff` — which packets get such a header.
-/
import Scion.IngressFilter
import Scion.Emission
import Scion.Reemission

namespace Scion

open Codec OnesComplement

namespace PacketBuffer

variable {hash : IPAddress → UInt64} {murmur32 : List UInt8 → UInt32 → UInt32}
  {acceptPrefix dstPrefix : IPAddress} {prefixLen : UInt32} {getMTU : GetMtu}
  {pkt pkt' : PacketBuffer}

/-! ### The stages -/

/-- A message with the protocol of the IPv6 header: SCMP became ICMP. -/
structure L4Accepted (pkt : PacketBuffer) (nextHeader : IPProto) (pkt' : PacketBuffer) : Prop where
  scmp : pkt.l4Valid = .scmp → nextHeader = IPProto.icmpv6 ∧ pkt'.l4Valid = .icmp ∧
    pkt'.icmp.chksum = 0
  reply : ∀ {id seq : UInt16}, pkt.l4Valid = .scmp → pkt.scmp.msg = .echoReply id seq →
    pkt'.icmp = ⟨ICMPv6Type.echoReply, 0, 0, pkt.originalId id, seq⟩
  other : pkt.l4Valid ≠ .scmp → nextHeader = pkt.sci.nh ∧ pkt'.l4Valid = pkt.l4Valid ∧
    pkt'.icmp = pkt.icmp
  l4Size : pkt'.l4Size = pkt.l4Size
  rest : pkt' = { pkt with icmp := pkt'.icmp, l4Valid := pkt'.l4Valid }

/-- Echo messages are of the size of their translations. -/
theorem l4Accepted_of_scmp (hscmp : pkt.l4Valid = .scmp)
    (h : pkt.translateScmpToIcmp = (.pass, pkt')) : L4Accepted pkt IPProto.icmpv6 pkt' := by
  have hsize : pkt.l4Size = 4 + pkt.scmp.msg.size := by
    rw [l4Size, hscmp]
    rfl
  rw [translateScmpToIcmp] at h
  cases hmsg : pkt.scmp.msg with
  | echoRequest id seq =>
    rw [hmsg] at h hsize
    cases h
    exact ⟨fun _ => ⟨rfl, rfl, rfl⟩, fun _ hreply => (by cases hmsg.symm.trans hreply),
      fun hne => absurd hscmp hne, hsize.symm, rfl⟩
  | echoReply id seq =>
    rw [hmsg] at h hsize
    cases h
    exact ⟨fun _ => ⟨rfl, rfl, rfl⟩, fun _ hreply => (by cases hmsg.symm.trans hreply; rfl),
      fun hne => absurd hscmp hne, hsize.symm, rfl⟩
  | _ =>
    rw [hmsg] at h
    cases h

theorem l4Accepted_of_other (hother : pkt.l4Valid ≠ .scmp) : L4Accepted pkt pkt.sci.nh pkt :=
  ⟨fun h => absurd h hother, fun h => absurd h hother, fun _ => ⟨rfl, rfl, rfl⟩, rfl, rfl⟩

/-- A packet whose option was clamped from `mss` to `clampedMSS`. -/
structure Clamped (pkt : PacketBuffer) (mss clampedMSS : UInt16) (pkt' : PacketBuffer) :
    Prop where
  option : pkt.l4Valid = .tcp →
    pkt'.tcp.options.mss.mss.toUInt32 - pkt.tcp.options.mss.mss.toUInt32
      = clampedMSS.toUInt32 - mss.toUInt32
  other : pkt.l4Valid ≠ .tcp → mss = 0 ∧ clampedMSS = 0
  l4Size : pkt'.l4Size = pkt.l4Size
  rest : pkt' = { pkt with
    path := pkt'.path
    tcp.options.mss := pkt'.tcp.options.mss }

theorem clamped_of_clampMss {m : UInt16 × UInt16} (h : pkt.clampMss getMTU = (some m, pkt')) :
    Clamped pkt m.1 m.2 pkt' := by
  rw [clampMss] at h
  split_ifs at h with htcp
  · rcases getMTU pkt.sci pkt.path with ⟨mtu, path⟩
    dsimp only at h
    split_ifs at h
    · cases h
    · cases h
      exact ⟨fun _ => rfl, fun hne => absurd htcp.1 hne, rfl, rfl⟩
  · cases h
    exact ⟨fun _ => (UInt32.sub_self _).trans rfl, fun _ => ⟨rfl, rfl⟩, rfl, rfl⟩

/-- The stages that a packet has passed. -/
structure IngressFrom (hash : IPAddress → UInt64) (murmur32 : List UInt8 → UInt32 → UInt32)
    (dstPrefix : IPAddress) (prefixLen : UInt32) (pkt after : PacketBuffer) where
  src : IPAddress
  dst : IPAddress
  accepted : PacketBuffer
  clamped : PacketBuffer
  nextHeader : IPProto
  mss : UInt16 × UInt16
  src_eq : mapToIPv6 pkt.sci.src = .ok src
  dst_eq : mapToIPv6 pkt.sci.dst = .ok dst
  l4Accepted : L4Accepted
    { pkt with ipv6.src := src, ipv6.dst := translateIPv6Prefix dst dstPrefix prefixLen }
    nextHeader accepted
  isClamped : Clamped accepted mss.1 mss.2 clamped
  after_eq : after = (clamped.buildIPv6 hash murmur32 nextHeader).updateIngressChecksum mss.1 mss.2

/-- The last stages. -/
theorem ingressFrom_of_clampMss {src dst : IPAddress} {accepted clamped : PacketBuffer}
    {nextHeader : IPProto} {m : UInt16 × UInt16} (hsrc : mapToIPv6 pkt.sci.src = .ok src)
    (hdst : mapToIPv6 pkt.sci.dst = .ok dst)
    (haccepted : L4Accepted
      { pkt with ipv6.src := src, ipv6.dst := translateIPv6Prefix dst dstPrefix prefixLen }
      nextHeader accepted)
    (hclamp : accepted.clampMss getMTU = (some m, clamped)) :
    Nonempty (IngressFrom hash murmur32 dstPrefix prefixLen pkt
      ((clamped.buildIPv6 hash murmur32 nextHeader).updateIngressChecksum m.1 m.2)) :=
  ⟨⟨src, dst, accepted, clamped, nextHeader, m, hsrc, hdst, haccepted, clamped_of_clampMss hclamp,
    rfl⟩⟩

theorem ingressFrom
    (h : (pkt.translateIngress hash murmur32 acceptPrefix dstPrefix prefixLen getMTU).1 = .pass) :
    Nonempty (IngressFrom hash murmur32 dstPrefix prefixLen pkt
      (pkt.translateIngress hash murmur32 acceptPrefix dstPrefix prefixLen getMTU).2) := by
  rw [translateIngress] at h ⊢
  split_ifs at h ⊢
  cases hsrc : mapToIPv6 pkt.sci.src with
  | error ec =>
    rw [hsrc] at h
    cases h
  | ok src =>
    rw [hsrc] at h
    dsimp only at h ⊢
    cases hdst : mapToIPv6 pkt.sci.dst with
    | error ec =>
      rw [hdst] at h
      cases h
    | ok dst =>
      rw [hdst] at h
      dsimp only at h ⊢
      split_ifs at h ⊢
      set pkt₀ : PacketBuffer := { pkt with
        ipv6.src := src
        ipv6.dst := translateIPv6Prefix dst dstPrefix prefixLen } with hpkt₀
      rw [translateAccepted] at h ⊢
      by_cases hscmp : pkt₀.l4Valid = .scmp
      · rw [if_pos hscmp] at h ⊢
        rcases htranslated : pkt₀.translateScmpToIcmp with ⟨verdict, accepted⟩
        rw [htranslated] at h
        dsimp only at h ⊢
        split_ifs at h ⊢ with hverdict
        · exact absurd h (by rintro rfl; simp at hverdict)
        · have hpass : verdict = .pass := by
            rw [translateScmpToIcmp] at htranslated
            split at htranslated <;> cases htranslated <;> simp at hverdict ⊢
          subst hpass
          rcases hclamp : accepted.clampMss getMTU with ⟨_ | m, clamped⟩
          · rw [hclamp] at h
            cases h
          · exact ingressFrom_of_clampMss hsrc hdst (l4Accepted_of_scmp hscmp htranslated) hclamp
      · rw [if_neg hscmp] at h ⊢
        dsimp only at h ⊢
        rw [if_neg (by decide)] at h ⊢
        rcases hclamp : pkt₀.clampMss getMTU with ⟨_ | m, clamped⟩
        · rw [hclamp] at h
          cases h
        · exact ingressFrom_of_clampMss hsrc hdst (l4Accepted_of_other hscmp) hclamp

/-! ### The packet -/

/-- The sum of an IPv6 pseudo header for a protocol and a length. -/
def pseudoIPv6 (pkt : PacketBuffer) (proto : IPProto) (len : ℕ) : UInt32 :=
  ({ pkt.ipv6 with nh := proto } : IPv6).checksum (UInt16.ofNat len)

/-- The sum of a SCION pseudo header for a protocol and a length. -/
def pseudoScion (pkt : PacketBuffer) (proto : ScionProto) (len : ℕ) : UInt32 :=
  pkt.sci.checksum (UInt16.ofNat len) proto

/-- What the translation has made of a packet. -/
structure IngressTranslated (dstPrefix : IPAddress) (prefixLen : UInt32)
    (pkt after : PacketBuffer) : Prop where
  src : mapToIPv6 pkt.sci.src = .ok after.ipv6.src
  dst : ∃ dst, mapToIPv6 pkt.sci.dst = .ok dst ∧
    after.ipv6.dst = translateIPv6Prefix dst dstPrefix prefixLen
  ipValid : after.ipValid = .ipv6
  outerUDPValid : after.outerUDPValid = false
  scionValid : after.scionValid = false
  stunValid : after.stunValid = pkt.stunValid
  packet : after.packet = pkt.packet
  endOfHeader : after.endOfHeader = pkt.endOfHeader
  buffer : after.buffer = pkt.buffer
  scmp : pkt.l4Valid = .scmp → after.l4Valid = .icmp ∧ after.ipv6.nh = IPProto.icmpv6
  other : pkt.l4Valid ≠ .scmp → after.l4Valid = pkt.l4Valid ∧ after.ipv6.nh = pkt.sci.nh
  l4Size : after.l4Size = pkt.l4Size
  plen : after.ipv6.plen = UInt16.ofNat (pkt.l4Size + pkt.payload.length)
  icmp_reply : ∀ {id seq : UInt16}, pkt.l4Valid = .scmp → pkt.scmp.msg = .echoReply id seq →
    after.icmp = ⟨ICMPv6Type.echoReply, 0, after.icmp.chksum, pkt.originalId id, seq⟩
  icmp_same : pkt.l4Valid = .icmp → after.icmp = { pkt.icmp with chksum := after.icmp.chksum }
  icmp : after.l4Valid = .icmp → after.icmp.chksum = internetChecksum pkt.payload
    (pseudoIPv6 after after.ipv6.nh (pkt.l4Size + pkt.payload.length)
      + ({ after.icmp with
          chksum := if pkt.l4Valid = .scmp then 0 else pkt.icmp.chksum } : ICMPv6).checksum)
  tcp : after.l4Valid = .tcp → after.tcp.chksum = updateInternetChecksum pkt.tcp.chksum
    (pseudoIPv6 after after.ipv6.nh pkt.l4Size + after.tcp.options.mss.mss.toUInt32)
    (pseudoScion pkt IPProto.tcp pkt.l4Size + pkt.tcp.options.mss.mss.toUInt32)
  udp : after.l4Valid = .udp → after.udp.chksum = updateInternetChecksum pkt.udp.chksum
    (pseudoIPv6 after after.ipv6.nh pkt.l4Size) (pseudoScion pkt IPProto.udp pkt.l4Size)

/-- Only the difference of what is added and subtracted matters. -/
theorem updateInternetChecksum_congr {chksum : UInt16} {add sub add' sub' : UInt32}
    (h : add - sub = add' - sub') :
    updateInternetChecksum chksum add sub = updateInternetChecksum chksum add' sub' := by
  have hsum : ∀ x : UInt32, x + add - sub = x + add' - sub' := by grind
  rw [updateInternetChecksum, updateInternetChecksum, hsum]

theorem add_sub_of_clamped {mss mss' clamped clamped' : UInt32}
    (h : clamped - mss = clamped' - mss') (add sub : UInt32) :
    add + clamped' - (sub + mss') = add + clamped - (sub + mss) := by
  grind

/-- A packet whose checksum was updated. -/
structure Updated (mss clampedMSS : UInt16) (pkt after : PacketBuffer) : Prop where
  rest : after = { pkt with icmp := after.icmp, tcp := after.tcp, udp := after.udp }
  l4Size : after.l4Size = pkt.l4Size
  icmp : pkt.l4Valid = .icmp → after.icmp = { pkt.icmp with
    chksum := internetChecksum pkt.payload
      (pkt.ipv6.checksum (UInt16.ofNat (8 + pkt.payload.length)) + pkt.icmp.checksum) }
  tcp : pkt.l4Valid = .tcp → after.tcp = { pkt.tcp with
    chksum := updateInternetChecksum pkt.tcp.chksum
      (pkt.ipv6.checksum (UInt16.ofNat pkt.l4Size) + clampedMSS.toUInt32)
      (pkt.sci.checksum (UInt16.ofNat pkt.l4Size) IPProto.tcp + mss.toUInt32) }
  udp : pkt.l4Valid = .udp → after.udp = { pkt.udp with
    chksum := updateInternetChecksum pkt.udp.chksum
      (pkt.ipv6.checksum (UInt16.ofNat pkt.l4Size) + clampedMSS.toUInt32)
      (pkt.sci.checksum (UInt16.ofNat pkt.l4Size) IPProto.udp + mss.toUInt32) }

theorem updated (mss clampedMSS : UInt16) (pkt : PacketBuffer) :
    Updated mss clampedMSS pkt (pkt.updateIngressChecksum mss clampedMSS) := by
  obtain ⟨ipValid, outerUDPValid, stunValid, scionValid, l4Valid, ipv4, ipv6, outerUDP, stun, sci,
    path, icmp, scmp, tcp, udp, buffer, packet, endOfHeader⟩ := pkt
  cases l4Valid with
  | icmp => exact ⟨rfl, rfl, fun _ => rfl, nofun, nofun⟩
  | tcp => exact ⟨rfl, rfl, nofun, fun _ => rfl, nofun⟩
  | udp => exact ⟨rfl, rfl, nofun, nofun, fun _ => rfl⟩
  | _ => exact ⟨rfl, rfl, nofun, nofun, nofun⟩

namespace IngressFrom

variable {after : PacketBuffer} (h : IngressFrom hash murmur32 dstPrefix prefixLen pkt after)

/-- What is neither translated nor clamped. -/
theorem clamped_kept : h.clamped.stunValid = pkt.stunValid ∧ h.clamped.packet = pkt.packet ∧
    h.clamped.endOfHeader = pkt.endOfHeader ∧ h.clamped.buffer = pkt.buffer ∧
    h.clamped.sci = pkt.sci ∧ h.clamped.udp = pkt.udp ∧ h.accepted.tcp = pkt.tcp ∧
    h.clamped.tcp.chksum = pkt.tcp.chksum ∧ h.clamped.icmp = h.accepted.icmp ∧
    h.clamped.l4Valid = h.accepted.l4Valid := by
  rw [h.isClamped.rest, h.l4Accepted.rest]
  exact ⟨rfl, rfl, rfl, rfl, rfl, rfl, rfl, rfl, rfl, rfl⟩

theorem clamped_l4Size : h.clamped.l4Size = pkt.l4Size :=
  h.isClamped.l4Size.trans h.l4Accepted.l4Size

theorem clamped_payload : h.clamped.payload = pkt.payload := by
  obtain ⟨-, hpacket, hend, hbuffer, -⟩ := h.clamped_kept
  rw [payload, payload, hpacket, hend, hbuffer]

theorem clamped_addrs : h.clamped.ipv6.src = h.src ∧
    h.clamped.ipv6.dst = translateIPv6Prefix h.dst dstPrefix prefixLen := by
  rw [h.isClamped.rest, h.l4Accepted.rest]
  exact ⟨rfl, rfl⟩

theorem isUpdated :
    Updated h.mss.1 h.mss.2 (h.clamped.buildIPv6 hash murmur32 h.nextHeader) after := by
  have hupdated := updated h.mss.1 h.mss.2 (h.clamped.buildIPv6 hash murmur32 h.nextHeader)
  rwa [← h.after_eq] at hupdated

theorem ipv6_eq : after.ipv6 = (h.clamped.buildIPv6 hash murmur32 h.nextHeader).ipv6 := by
  have hrest := congrArg PacketBuffer.ipv6 h.isUpdated.rest
  exact hrest

theorem l4Valid_eq : after.l4Valid = h.clamped.l4Valid := by
  have hrest := congrArg PacketBuffer.l4Valid h.isUpdated.rest
  exact hrest

include h

/-- A message that was SCMP starts with no checksum. -/
theorem icmp_chksum (hicmp : after.l4Valid = .icmp) : after.icmp.chksum =
    internetChecksum pkt.payload (pseudoIPv6 after after.ipv6.nh (pkt.l4Size + pkt.payload.length)
      + ({ after.icmp with
          chksum := if pkt.l4Valid = .scmp then 0 else pkt.icmp.chksum } : ICMPv6).checksum) := by
  obtain ⟨-, -, -, -, -, -, -, -, hmessage, -⟩ := h.clamped_kept
  have hc : h.clamped.l4Valid = .icmp := h.l4Valid_eq.symm.trans hicmp
  have height : pkt.l4Size = 8 := by
    rw [← h.clamped_l4Size, PacketBuffer.l4Size, hc]
    rfl
  have hchksum : h.clamped.icmp.chksum
      = if pkt.l4Valid = .scmp then 0 else pkt.icmp.chksum := by
    rw [hmessage]
    split_ifs with hscmp
    · exact (h.l4Accepted.scmp hscmp).2.2
    · exact congrArg ICMPv6.chksum (h.l4Accepted.other hscmp).2.2
  rw [← hchksum, pseudoIPv6, h.ipv6_eq, height, ← h.clamped_payload, h.isUpdated.icmp hc]
  rfl

/-- The option that was clamped is a word of the segment. -/
theorem tcp_chksum (htcp : after.l4Valid = .tcp) :
    after.tcp.chksum = updateInternetChecksum pkt.tcp.chksum
      (pseudoIPv6 after after.ipv6.nh pkt.l4Size + after.tcp.options.mss.mss.toUInt32)
      (pseudoScion pkt IPProto.tcp pkt.l4Size + pkt.tcp.options.mss.mss.toUInt32) := by
  obtain ⟨-, -, -, -, hsci, -, haccepted, hold, -, hvalid⟩ := h.clamped_kept
  have hc : h.clamped.l4Valid = .tcp := h.l4Valid_eq.symm.trans htcp
  have hupdate := h.isUpdated.tcp hc
  have hchksum := congrArg TCP.chksum hupdate
  have hoption := h.isClamped.option (hvalid.symm.trans hc)
  have hmss : after.tcp.options.mss.mss = h.clamped.tcp.options.mss.mss := by
    rw [hupdate]
    rfl
  have hsize : (h.clamped.buildIPv6 hash murmur32 h.nextHeader).l4Size = pkt.l4Size :=
    h.clamped_l4Size
  have hsciBuilt : (h.clamped.buildIPv6 hash murmur32 h.nextHeader).sci = pkt.sci := hsci
  have holdBuilt : (h.clamped.buildIPv6 hash murmur32 h.nextHeader).tcp.chksum
    = pkt.tcp.chksum := hold
  rw [haccepted, ← hmss] at hoption
  rw [pseudoIPv6, pseudoScion, h.ipv6_eq, hchksum, hsize, hsciBuilt, holdBuilt]
  exact updateInternetChecksum_congr (add_sub_of_clamped hoption _ _)

theorem udp_chksum (hudp : after.l4Valid = .udp) :
    after.udp.chksum = updateInternetChecksum pkt.udp.chksum
      (pseudoIPv6 after after.ipv6.nh pkt.l4Size) (pseudoScion pkt IPProto.udp pkt.l4Size) := by
  obtain ⟨-, -, -, -, hsci, hold, -, -, -, hvalid⟩ := h.clamped_kept
  have hc : h.clamped.l4Valid = .udp := h.l4Valid_eq.symm.trans hudp
  have hchksum := congrArg UDP.chksum (h.isUpdated.udp hc)
  have hsize : (h.clamped.buildIPv6 hash murmur32 h.nextHeader).l4Size = pkt.l4Size :=
    h.clamped_l4Size
  have hsciBuilt : (h.clamped.buildIPv6 hash murmur32 h.nextHeader).sci = pkt.sci := hsci
  have holdBuilt : (h.clamped.buildIPv6 hash murmur32 h.nextHeader).udp = pkt.udp := hold
  -- nothing is clamped
  obtain ⟨hzero, hzero'⟩ : h.mss.1 = 0 ∧ h.mss.2 = 0 :=
    h.isClamped.other (by rw [← hvalid, hc]; decide)
  rw [pseudoIPv6, pseudoScion, h.ipv6_eq, hchksum, hsize, hsciBuilt, holdBuilt, hzero, hzero']
  exact updateInternetChecksum_congr (by simp)

theorem translated : IngressTranslated dstPrefix prefixLen pkt after where
  src := by
    rw [h.ipv6_eq, h.src_eq, ← h.clamped_addrs.1]
    rfl
  dst := by
    refine ⟨h.dst, h.dst_eq, ?_⟩
    rw [h.ipv6_eq, ← h.clamped_addrs.2]
    rfl
  ipValid := by
    rw [h.isUpdated.rest]
    rfl
  outerUDPValid := by
    rw [h.isUpdated.rest]
    rfl
  scionValid := by
    rw [h.isUpdated.rest]
    rfl
  stunValid := by
    rw [h.isUpdated.rest]
    exact h.clamped_kept.1
  packet := by
    rw [h.isUpdated.rest]
    exact h.clamped_kept.2.1
  endOfHeader := by
    rw [h.isUpdated.rest]
    exact h.clamped_kept.2.2.1
  buffer := by
    rw [h.isUpdated.rest]
    exact h.clamped_kept.2.2.2.1
  scmp hscmp := by
    obtain ⟨-, -, -, -, -, -, -, -, -, hvalid⟩ := h.clamped_kept
    obtain ⟨hnext, hicmp, -⟩ := h.l4Accepted.scmp hscmp
    exact ⟨h.l4Valid_eq.trans (hvalid.trans hicmp), (congrArg IPv6.nh h.ipv6_eq).trans hnext⟩
  other hother := by
    obtain ⟨-, -, -, -, -, -, -, -, -, hvalid⟩ := h.clamped_kept
    obtain ⟨hnext, hsame, -⟩ := h.l4Accepted.other hother
    exact ⟨h.l4Valid_eq.trans (hvalid.trans hsame), (congrArg IPv6.nh h.ipv6_eq).trans hnext⟩
  l4Size := h.isUpdated.l4Size.trans h.clamped_l4Size
  plen := by
    rw [h.ipv6_eq, ← h.clamped_l4Size, ← h.clamped_payload]
    rfl
  icmp_reply hscmp hreply := by
    obtain ⟨-, -, -, -, -, -, -, -, hmessage, hvalid⟩ := h.clamped_kept
    rw [h.isUpdated.icmp (hvalid.trans (h.l4Accepted.scmp hscmp).2.1)]
    show ({ h.clamped.icmp with chksum := _ } : ICMPv6) = _
    rw [hmessage, h.l4Accepted.reply hscmp hreply]
    rfl
  icmp_same hicmp := by
    obtain ⟨-, -, -, -, -, -, -, -, hmessage, hvalid⟩ := h.clamped_kept
    obtain ⟨-, hsame, haccepted⟩ := h.l4Accepted.other (by
      show pkt.l4Valid ≠ .scmp
      rw [hicmp]
      decide)
    rw [h.isUpdated.icmp (hvalid.trans (hsame.trans hicmp))]
    show ({ h.clamped.icmp with chksum := _ } : ICMPv6) = _
    rw [hmessage, haccepted]
  icmp := h.icmp_chksum
  tcp := h.tcp_chksum
  udp := h.udp_chksum

end IngressFrom

/-! ### What the header says -/

/-- The checksum of a packet for IPv6, with the protocol and the length of the pseudo
headers. -/
def adjustedChksum (proto : IPProto) (len : ℕ) (pkt after : PacketBuffer) : UInt16 :=
  match after.l4Valid with
  | .icmp => internetChecksum after.payload
    (pseudoIPv6 after proto len + ({ after.icmp with chksum := 0 } : ICMPv6).checksum)
  | .tcp => updateInternetChecksum pkt.tcp.chksum
    (pseudoIPv6 after proto len + after.tcp.options.mss.mss.toUInt32)
    (pseudoScion pkt proto len + pkt.tcp.options.mss.mss.toUInt32)
  | .udp => updateInternetChecksum pkt.udp.chksum (pseudoIPv6 after proto len)
    (pseudoScion pkt proto len)
  | _ => 0

def l4Chksum (pkt : PacketBuffer) : UInt16 :=
  match pkt.l4Valid with
  | .icmp => pkt.icmp.chksum
  | .tcp => pkt.tcp.chksum
  | .udp => pkt.udp.chksum
  | _ => 0

/-- An IPv6 packet with nothing in front of its layer 4 header. The IPv6 header and the
checksum are for the protocol and the length of what follows. -/
def HeadersDescribe (pkt after : PacketBuffer) (bytes : List UInt8) : Prop :=
  ∃ body, bytes = after.ipv6.bytes ++ (after.l4Bytes ++ body) ∧
    after.ipv6.nh = after.l4Valid.proto ∧
    after.ipv6.plen.toNat = (after.l4Bytes ++ body).length ∧
    after.l4Chksum
      = adjustedChksum after.l4Valid.proto (after.l4Bytes ++ body).length pkt after

/-- The sum that the checksum of an ICMP message is made of, for the accepted addresses. -/
def icmpSum (src dst : IPAddress) (pkt : PacketBuffer) : ℕ :=
  ((⟨0, 64, IPProto.icmpv6, 0, 0, src, dst⟩ : IPv6).checksum
      (UInt16.ofNat (pkt.l4Size + pkt.payload.length))
    + ({ pkt.icmp with chksum := 0 } : ICMPv6).checksum).toNat + wordSum pkt.payload

theorem fold_add_mod_iff (t : ℕ) {c : ℕ} (hc : c < 65536) :
    fold 65536 (t + c) % 65536 = fold 65536 t % 65536 ↔ c = 0 ∨ c = 65535 ∧ t % 65536 ≠ 0 := by
  have hlow : t % 65536 < 65536 := Nat.mod_lt _ (by norm_num)
  rw [fold, fold]
  by_cases hcarry : t % 65536 + c < 65536
  · have hdiv : (t + c) / 65536 = t / 65536 := by omega
    have hmod : (t + c) % 65536 = t % 65536 + c := by omega
    rw [hdiv, hmod]
    generalize t / 65536 = hi, t % 65536 = lo at *
    omega
  · have hdiv : (t + c) / 65536 = t / 65536 + 1 := by omega
    have hmod : (t + c) % 65536 = t % 65536 + c - 65536 := by omega
    rw [hdiv, hmod]
    generalize t / 65536 = hi, t % 65536 = lo at *
    omega

/-- An old checksum in the sum matters unless it adds nothing to the fold. -/
theorem internetChecksum_add_eq_iff (buffer : List UInt8) (inital : UInt32) (c : UInt16)
    (hfit : inital.toNat + wordSum buffer + 65535 < 2 ^ 32) :
    internetChecksum buffer (inital + c.toUInt32) = internetChecksum buffer inital ↔
      c = 0 ∨ c = 0xffff ∧ (inital.toNat + wordSum buffer) % 65536 ≠ 0 := by
  have hc := c.toNat_lt
  have hnot : ∀ x y : UInt16, ~~~x = ~~~y ↔ x = y := fun x y =>
    ⟨fun h => by rw [← UInt16.not_not (a := x), h, UInt16.not_not], congrArg _⟩
  rw [internetChecksum, internetChecksum, hnot, ← UInt16.toNat_inj, ← UInt16.toNat_inj,
    ← UInt16.toNat_inj, onesComplementChecksum, onesComplementChecksum,
    toNat_onesComplementChecksumScalar, toNat_onesComplementChecksumScalar, UInt32.toNat_add,
    UInt16.toNat_toUInt32]
  rw [show ((inital.toNat + c.toNat) % 2 ^ 32 + wordSum buffer) % 2 ^ 32
      = inital.toNat + wordSum buffer + c.toNat by omega,
    Nat.mod_eq_of_lt (show inital.toNat + wordSum buffer < 2 ^ 32 by omega)]
  exact fold_add_mod_iff _ hc

/-! ### Bounds -/

theorem toNat_checksum_ipv6_le (h : IPv6) (len : UInt16) :
    (h.checksum len).toNat ≤ 18 * 65535 := by
  have hsrc := h.src.wordSum_bytes_le
  have hdst := h.dst.wordSum_bytes_le
  have hlen := len.toNat_lt
  have hnh := h.nh.toNat_lt
  rw [IPv6.checksum_eq, UInt32.toNat_ofNat']
  omega

/-- The checksum field is one of the words. -/
theorem checksum_icmp (h : ICMPv6) (c : UInt16) :
    ({ h with chksum := c } : ICMPv6).checksum
      = ({ h with chksum := 0 } : ICMPv6).checksum + c.toUInt32 := by
  rw [ICMPv6.checksum, ICMPv6.checksum, show (0 : UInt16).toUInt32 = 0 from rfl]
  grind

theorem toNat_checksum_icmp_le (h : ICMPv6) :
    ({ h with chksum := 0 } : ICMPv6).checksum.toNat ≤ 4 * 65535 := by
  have htype := h.type.toNat_lt
  have hcode := h.code.toNat_lt
  have hparam := h.param1.toNat_lt
  have hparam' := h.param2.toNat_lt
  have hzero : (0 : UInt16).toNat = 0 := rfl
  rw [ICMPv6.checksum_eq, ICMPv6.wordSum_bytes, UInt32.toNat_ofNat']
  dsimp only
  omega

/-! ### Described packets -/

theorem payload_of_same {after : PacketBuffer}
    (h : IngressTranslated dstPrefix prefixLen pkt after) :
    after.payload = pkt.payload := by
  rw [payload, payload, h.buffer, h.packet, h.endOfHeader]

theorem IngressTranslated.intact {after : PacketBuffer}
    (h : IngressTranslated dstPrefix prefixLen pkt after) (hintact : pkt.Intact) :
    after.Intact := by
  have hplaced := hintact.placed
  refine ⟨⟨?_, ?_, ?_⟩, fun hstun => ?_⟩
  · rw [h.packet, h.endOfHeader]
    exact hplaced.offset_le
  · rw [h.packet, h.endOfHeader]
    exact hplaced.le_end
  · rw [h.packet, h.buffer]
    exact hplaced.end_le
  · have hnone := hintact.stun_alone (h.stunValid.symm.trans hstun)
    exact (h.other (by rw [hnone]; decide)).1.trans hnone

/-- The length cancels out of what is added and subtracted. -/
theorem pseudo_sub_pseudo (pkt after : PacketBuffer) (proto : IPProto) (scionProto : ScionProto)
    (len len' : ℕ) (a b : UInt32) :
    pseudoIPv6 after proto len + a - (pseudoScion pkt scionProto len + b)
      = pseudoIPv6 after proto len' + a - (pseudoScion pkt scionProto len' + b) := by
  rw [pseudoIPv6, pseudoIPv6, pseudoScion, pseudoScion, IPv6.checksum, IPv6.checksum,
    SCION.checksum, SCION.checksum]
  grind

/-- The sum that the old checksum is added to. -/
theorem toNat_icmpSum {after : PacketBuffer}
    (h : IngressTranslated dstPrefix prefixLen pkt after) (hicmp : pkt.l4Valid = .icmp) :
    (pseudoIPv6 after IPProto.icmpv6 (pkt.l4Size + pkt.payload.length)
        + ({ after.icmp with chksum := 0 } : ICMPv6).checksum).toNat + wordSum pkt.payload
      = pkt.icmpSum after.ipv6.src after.ipv6.dst := by
  rw [h.icmp_same hicmp]
  rfl

/-- The checksum is for the protocol and the length of what follows, if the header names that
protocol and no old checksum is summed up. -/
theorem l4Chksum_eq_iff {after : PacketBuffer}
    (h : IngressTranslated dstPrefix prefixLen pkt after)
    (hnh : after.ipv6.nh = after.l4Valid.proto)
    (hlen : pkt.l4Size + pkt.payload.length < 65536) :
    after.l4Chksum
        = adjustedChksum after.l4Valid.proto (pkt.l4Size + pkt.payload.length) pkt after ↔
      (pkt.l4Valid = .icmp → pkt.icmp.chksum = 0 ∨ pkt.icmp.chksum = 0xffff ∧
        pkt.icmpSum after.ipv6.src after.ipv6.dst % 65536 ≠ 0) := by
  have hpayload := payload_of_same h
  have hicmp : pkt.l4Valid = .icmp → after.l4Valid = .icmp := fun hicmp =>
    (h.other (by rw [hicmp]; decide)).1.trans hicmp
  cases hvalid : after.l4Valid with
  | icmp =>
    have hchksum := h.icmp hvalid
    rw [hvalid] at hnh
    rw [l4Chksum, adjustedChksum, hvalid, hpayload]
    dsimp only
    rw [hchksum, hnh, checksum_icmp, ← UInt32.add_assoc]
    by_cases hscmp : pkt.l4Valid = .scmp
    · rw [if_pos hscmp, hscmp]
      exact iff_of_true (by rw [show (0 : UInt16).toUInt32 = 0 from rfl, UInt32.add_zero]) nofun
    · have hsame : pkt.l4Valid = .icmp := (h.other hscmp).1.symm.trans hvalid
      have hsum := toNat_icmpSum h hsame
      have hpseudo := toNat_checksum_ipv6_le { after.ipv6 with nh := IPProto.icmpv6 }
        (UInt16.ofNat (pkt.l4Size + pkt.payload.length))
      have hmessage := toNat_checksum_icmp_le after.icmp
      have hwords := wordSum_le pkt.payload
      rw [if_neg hscmp, ← hsum]
      refine (internetChecksum_add_eq_iff _ _ _ ?_).trans ⟨fun h _ => h, fun h => h hsame⟩
      rw [show L4Type.icmp.proto = IPProto.icmpv6 from rfl, pseudoIPv6, UInt32.toNat_add]
      omega
  | tcp =>
    rw [l4Chksum, adjustedChksum, hvalid]
    dsimp only
    rw [h.tcp hvalid, hnh, hvalid]
    exact iff_of_true (updateInternetChecksum_congr (pseudo_sub_pseudo _ _ _ _ _ _ _ _))
      fun hpkt => absurd (hvalid.symm.trans (hicmp hpkt)) (by decide)
  | udp =>
    rw [l4Chksum, adjustedChksum, hvalid]
    dsimp only
    rw [h.udp hvalid, hnh, hvalid]
    have hsub := pseudo_sub_pseudo pkt after L4Type.udp.proto IPProto.udp pkt.l4Size
      (pkt.l4Size + pkt.payload.length) 0 0
    rw [UInt32.add_zero, UInt32.add_zero, UInt32.add_zero, UInt32.add_zero] at hsub
    exact iff_of_true (updateInternetChecksum_congr hsub)
      fun hpkt => absurd (hvalid.symm.trans (hicmp hpkt)) (by decide)
  | _ =>
    rw [l4Chksum, adjustedChksum, hvalid]
    exact iff_of_true rfl fun hpkt => absurd (hvalid.symm.trans (hicmp hpkt)) (by decide)

/-- What is emitted behind the IPv6 header. -/
theorem emitted_ingress {after : PacketBuffer} {bytes : List UInt8}
    (h : IngressTranslated dstPrefix prefixLen pkt after) (hintact : pkt.Intact)
    (hemit : (after.emitPacket false).1 = .ok bytes) :
    ∃ rest, bytes = after.ipv6.bytes ++ (after.l4Bytes ++ rest) ∧
      (after.l4Bytes ++ rest).length = pkt.l4Size + pkt.payload.length := by
  obtain ⟨-, -, body, hbytes, hbody, hlen⟩ := emitted_parts (h.intact hintact)
    (fun hvalid => absurd (h.scionValid.symm.trans hvalid) (by decide)) hemit
  rw [underlaidBytes, h.outerUDPValid, h.scionValid, bytesIf, bytesIf, if_neg Bool.false_ne_true,
    if_neg Bool.false_ne_true, List.append_nil, List.nil_append, ipBytes, h.ipValid] at hbytes
  rw [h.l4Size, payload_of_same h] at hlen
  subst hbody
  exact ⟨_, hbytes, hlen⟩

/-- The IPv6 header names the first extension header, if there is one and the packet is not
SCMP. -/
theorem headersDescribe_iff {src dst : IPAddress} {bytes : List UInt8} (hintact : pkt.Intact)
    (hsrc : mapToIPv6 pkt.sci.src = .ok src) (hdst : mapToIPv6 pkt.sci.dst = .ok dst)
    (hpass : (pkt.translateIngress hash murmur32 acceptPrefix dstPrefix prefixLen getMTU).1 = .pass)
    (hemit : ((pkt.translateIngress hash murmur32 acceptPrefix dstPrefix prefixLen
      getMTU).2.emitPacket false).1 = .ok bytes) :
    HeadersDescribe pkt
        (pkt.translateIngress hash murmur32 acceptPrefix dstPrefix prefixLen getMTU).2 bytes ↔
      (pkt.l4Valid = .scmp ∨ pkt.sci.nh = pkt.l4Valid.proto) ∧
        pkt.l4Size + pkt.payload.length < 65536 ∧
        (pkt.l4Valid = .icmp → pkt.icmp.chksum = 0 ∨ pkt.icmp.chksum = 0xffff ∧
          pkt.icmpSum src (translateIPv6Prefix dst dstPrefix prefixLen) % 65536 ≠ 0) := by
  obtain ⟨hfrom⟩ := ingressFrom hpass
  have h := hfrom.translated
  set after := (pkt.translateIngress hash murmur32 acceptPrefix dstPrefix prefixLen getMTU).2
  obtain ⟨rest, hbytes, hlen⟩ := emitted_ingress h hintact hemit
  obtain rfl : src = after.ipv6.src := Except.ok.inj (hsrc.symm.trans h.src)
  obtain ⟨dst', hdst', hdstEq⟩ := h.dst
  obtain rfl : dst = dst' := Except.ok.inj (hdst.symm.trans hdst')
  rw [← hdstEq]
  have hnames : after.ipv6.nh = after.l4Valid.proto ↔
      pkt.l4Valid = .scmp ∨ pkt.sci.nh = pkt.l4Valid.proto := by
    by_cases hscmp : pkt.l4Valid = .scmp
    · obtain ⟨hvalid, hnh⟩ := h.scmp hscmp
      rw [hvalid, hnh]
      exact iff_of_true rfl (.inl hscmp)
    · obtain ⟨hvalid, hnh⟩ := h.other hscmp
      rw [hvalid, hnh, or_iff_right hscmp]
  have hplen : after.ipv6.plen.toNat = pkt.l4Size + pkt.payload.length ↔
      pkt.l4Size + pkt.payload.length < 65536 := by
    rw [h.plen, UInt16.toNat_ofNat']
    omega
  constructor
  · rintro ⟨body, hbytes', hnh, hlength, hchksum⟩
    have hsame : after.l4Bytes ++ body = after.l4Bytes ++ rest :=
      List.append_cancel_left (hbytes'.symm.trans hbytes)
    rw [hsame, hlen] at hlength hchksum
    exact ⟨hnames.mp hnh, hplen.mp hlength, (l4Chksum_eq_iff h hnh (hplen.mp hlength)).mp hchksum⟩
  · rintro ⟨hnh, hshort, hold⟩
    refine ⟨rest, hbytes, hnames.mpr hnh, ?_, ?_⟩
    · rw [hlen]
      exact hplen.mpr hshort
    · rw [hlen]
      exact (l4Chksum_eq_iff h (hnames.mpr hnh) hshort).mpr hold

/-! ### A packet with options -/

open SocketSystem (datagramTo exampleBuffer exampleMappedIP)

/-- A datagram to 1-1,10.0.0.1. -/
def exampleIngress : PacketBuffer := (exampleBuffer.receive 4 (datagramTo 1 0x79 0x18) true none).2

theorem headersDescribe_iff_datagram : ∃ bytes,
    ((exampleIngress.translateIngress (fun _ => 0) (fun _ _ => 0) exampleMappedIP exampleMappedIP
      128 (fun _ rp => (1280, rp))).2.emitPacket false).1 = .ok bytes ∧
    HeadersDescribe exampleIngress (exampleIngress.translateIngress (fun _ => 0) (fun _ _ => 0)
      exampleMappedIP exampleMappedIP 128 (fun _ rp => (1280, rp))).2 bytes := by
  have hintact : exampleIngress.Intact :=
    intact_of_receive (by decide +kernel) (by decide +kernel)
  obtain ⟨bytes, hbytes, -⟩ := exists_ok_of_any (x := ((exampleIngress.translateIngress
    (fun _ => 0) (fun _ _ => 0) exampleMappedIP exampleMappedIP 128
    (fun _ rp => (1280, rp))).2.emitPacket false).1) (p := fun _ => true) (by decide +kernel)
  exact ⟨bytes, hbytes, (headersDescribe_iff hintact
    (show mapToIPv6 _ = .ok (.v6 0xfc00100002000000 0xffff0a000002 "") by decide +kernel)
    (show mapToIPv6 _ = .ok exampleMappedIP by decide +kernel) (by decide +kernel) hbytes).mpr
      (by decide +kernel)⟩

/-- The datagram with hop-by-hop options. -/
def optionsDatagram : List UInt8 :=
  [0, 0, 0, 1, 200, 9, 0, 13, 0, 0, 0, 0, 0, 1, 0, 0, 0, 0, 0, 1, 0, 1, 0, 0, 0, 0, 0, 2, 10, 0, 0,
    1, 10, 0, 0, 2, 17, 0, 1, 0, 0, 80, 0x79, 0x18, 0, 9, 0x12, 0x34, 7]

def exampleOptions : PacketBuffer := (exampleBuffer.receive 4 optionsDatagram true none).2

/-- The next header of the emitted packet is 200. -/
theorem not_forall_headersDescribe :
    ¬ ∀ (hash : IPAddress → UInt64) (murmur32 : List UInt8 → UInt32 → UInt32)
      (acceptPrefix dstPrefix : IPAddress) (prefixLen : UInt32) (getMTU : GetMtu)
      (pkt : PacketBuffer) (bytes : List UInt8), pkt.Intact →
      (pkt.translateIngress hash murmur32 acceptPrefix dstPrefix prefixLen getMTU).1 = .pass →
      ((pkt.translateIngress hash murmur32 acceptPrefix dstPrefix prefixLen
        getMTU).2.emitPacket false).1 = .ok bytes →
      HeadersDescribe pkt
        (pkt.translateIngress hash murmur32 acceptPrefix dstPrefix prefixLen getMTU).2 bytes := by
  intro hclaim
  have hintact : exampleOptions.Intact :=
    intact_of_receive (by decide +kernel) (by decide +kernel)
  obtain ⟨bytes, hbytes, -⟩ := exists_ok_of_any (x := ((exampleOptions.translateIngress
    (fun _ => 0) (fun _ _ => 0) exampleMappedIP exampleMappedIP 128
    (fun _ rp => (1280, rp))).2.emitPacket false).1) (p := fun _ => true) (by decide +kernel)
  obtain ⟨_, -, hnh, -⟩ := hclaim _ _ _ _ _ _ exampleOptions bytes hintact (by decide +kernel)
    hbytes
  revert hnh
  decide +kernel

end PacketBuffer

end Scion
