/-
Translation of packets that share a buffer (`scitra/translator.hpp`, `scitra/translator.cpp`).

* `SameView.translateIngress_sameView` — what becomes of a SCION packet does not depend on what
  earlier packets have left in the buffer;
* `SameView.translateEgress_sameView` — nor does what becomes of an IPv6 packet, up to the
  checksum of an SCMP message.
-/
import Scion.BufferReuse
import Scion.Egress

namespace Scion

open BigEndian Relational

namespace PacketBuffer

/-! ### Parts of the translation -/

section Parts

variable {pkt : PacketBuffer} {add sub : UInt32}

theorem l4UpdateChecksum_tcp (hl4 : pkt.l4Valid = .tcp) :
    pkt.l4UpdateChecksum add sub
      = { pkt with tcp.chksum := updateInternetChecksum pkt.tcp.chksum add sub } := by
  rw [l4UpdateChecksum]
  split
  · rfl
  · next hudp => cases hl4.symm.trans hudp
  · next hno _ => exact absurd hl4 hno

theorem l4UpdateChecksum_udp (hl4 : pkt.l4Valid = .udp) :
    pkt.l4UpdateChecksum add sub
      = { pkt with udp.chksum := updateInternetChecksum pkt.udp.chksum add sub } := by
  rw [l4UpdateChecksum]
  split
  · next htcp => cases hl4.symm.trans htcp
  · rfl
  · next hno => exact absurd hl4 hno

theorem l4UpdateChecksum_other (htcp : pkt.l4Valid ≠ .tcp) (hudp : pkt.l4Valid ≠ .udp) :
    pkt.l4UpdateChecksum add sub = pkt := by
  rw [l4UpdateChecksum]
  split
  · next hl4 => exact absurd hl4 htcp
  · next hl4 => exact absurd hl4 hudp
  · rfl

/-- A step that leaves the packet, its SCION header and its IPv6 header. -/
structure Frame (pkt pkt' : PacketBuffer) : Prop where
  scionValid : pkt'.scionValid = pkt.scionValid
  sci : pkt'.sci = pkt.sci
  ipv6 : pkt'.ipv6 = pkt.ipv6
  packet : pkt'.packet = pkt.packet
  endOfHeader : pkt'.endOfHeader = pkt.endOfHeader
  buffer : pkt'.buffer = pkt.buffer

theorem Frame.placed {pkt' : PacketBuffer} (h : Frame pkt pkt') (hp : pkt.Placed) :
    pkt'.Placed := by
  obtain ⟨hoffset, hend, hsize⟩ := hp
  constructor
  · rwa [h.packet, h.endOfHeader]
  · rwa [h.packet, h.endOfHeader]
  · rwa [h.packet, h.buffer]

theorem clampMss_frame (getMTU : GetMtu) (pkt : PacketBuffer) :
    Frame pkt (pkt.clampMss getMTU).2 := by
  rw [clampMss]
  split_ifs
  · dsimp only
    split_ifs <;> exact ⟨rfl, rfl, rfl, rfl, rfl, rfl⟩
  · exact ⟨rfl, rfl, rfl, rfl, rfl, rfl⟩

theorem clampMss_valid (getMTU : GetMtu) (pkt : PacketBuffer) :
    (pkt.clampMss getMTU).2.ipValid = pkt.ipValid ∧
      (pkt.clampMss getMTU).2.l4Valid = pkt.l4Valid := by
  rw [clampMss]
  split_ifs
  · dsimp only
    split_ifs <;> exact ⟨rfl, rfl⟩
  · exact ⟨rfl, rfl⟩

theorem translateScmpToIcmp_frame (pkt : PacketBuffer) : Frame pkt pkt.translateScmpToIcmp.2 := by
  rw [translateScmpToIcmp]
  cases pkt.scmp.msg <;> exact ⟨rfl, rfl, rfl, rfl, rfl, rfl⟩

/-- The rest of `translateAccepted` when SCMP has become ICMP. -/
def translateMessage (hash : IPAddress → UInt64) (murmur32 : List UInt8 → UInt32 → UInt32)
    (getMTU : GetMtu) (verdict : Verdict) (nextHeader : IPProto) (pkt : PacketBuffer) :
    Verdict × PacketBuffer :=
  if verdict = .abort ∨ verdict = .drop then (verdict, pkt)
  else
    match pkt.clampMss getMTU with
    | (none, pkt) => (.abort, pkt)
    | (some (mss, clampedMSS), pkt) =>
      (.pass, (pkt.buildIPv6 hash murmur32 nextHeader).updateIngressChecksum mss clampedMSS)

variable {hash : IPAddress → UInt64} {murmur32 : List UInt8 → UInt32 → UInt32} {getMTU : GetMtu}

theorem translateAccepted_scmp (hscmp : pkt.l4Valid = .scmp) :
    pkt.translateAccepted hash murmur32 getMTU
      = pkt.translateScmpToIcmp.2.translateMessage hash murmur32 getMTU pkt.translateScmpToIcmp.1
        IPProto.icmpv6 := by
  rw [translateAccepted, if_pos hscmp]
  rfl

theorem translateAccepted_other (hother : pkt.l4Valid ≠ .scmp) :
    pkt.translateAccepted hash murmur32 getMTU
      = pkt.translateMessage hash murmur32 getMTU .pass pkt.sci.nh := by
  rw [translateAccepted, if_neg hother]
  rfl

theorem translateL4_ipValid (pkt : PacketBuffer) :
    pkt.translateL4.2.2.ipValid = pkt.ipValid := by
  rw [translateL4]
  split_ifs
  · dsimp only
    rw [translateIcmpToScmp, storeId]
    dsimp only
    split_ifs <;> rfl
  · rfl

theorem updateEgressChecksum_ipValid (mss clampedMSS : UInt16) (pkt : PacketBuffer) :
    (pkt.updateEgressChecksum mss clampedMSS).ipValid = pkt.ipValid := by
  obtain ⟨ipValid, outerUDPValid, stunValid, scionValid, l4Valid, ipv4, ipv6, outerUDP, stun, sci,
    path, icmp, scmp, tcp, udp, buffer, packet, endOfHeader⟩ := pkt
  cases l4Valid <;> rfl

/-- The headers of an underlay. -/
def underlayUDP (nextHop : IPEndpoint) (pkt : PacketBuffer) : UDP :=
  let sport := pkt.l4SPort 0
  ⟨if sport = 0 then dispatcherPort else sport, nextHop.port,
    UInt16.ofNat (8 + pkt.sci.size + pkt.path.size + pkt.sci.plen.toNat), 0⟩

def underlayIPv4 (srcHost : IPAddress) (nextHop : IPEndpoint) (pkt : PacketBuffer) : IPv4 :=
  ⟨IPv4.dontFragment, pkt.ipv6.tc, 64, IPProto.udp,
    UInt16.ofNat (20 + (pkt.underlayUDP nextHop).len.toNat), 0, 0, srcHost, nextHop.host⟩

def underlayIPv6 (hash : IPAddress → UInt64) (murmur32 : List UInt8 → UInt32 → UInt32)
    (srcHost : IPAddress) (nextHop : IPEndpoint) (pkt : PacketBuffer) : IPv6 :=
  ⟨pkt.ipv6.tc, 64, IPProto.udp, (pkt.underlayUDP nextHop).len,
    (hash pkt.ipv6.dst ^^^ hash pkt.ipv6.src).toUInt32 ^^^ pkt.l4FlowLabel murmur32, srcHost,
    nextHop.host⟩

theorem buildUnderlay_ipv4 {srcHost : IPAddress} {nextHop : IPEndpoint}
    (h4 : nextHop.host.is4 = true) : pkt.buildUnderlay hash murmur32 srcHost nextHop =
      { pkt with
        ipValid := .ipv4
        ipv4 := pkt.underlayIPv4 srcHost nextHop
        outerUDP := pkt.underlayUDP nextHop
        outerUDPValid := true
        scionValid := true } := by
  rw [buildUnderlay, buildOuterIP, if_pos h4]
  rfl

theorem buildUnderlay_ipv6 {srcHost : IPAddress} {nextHop : IPEndpoint}
    (h6 : nextHop.host.is4 = false) : pkt.buildUnderlay hash murmur32 srcHost nextHop =
      { pkt with
        ipValid := .ipv6
        ipv6 := pkt.underlayIPv6 hash murmur32 srcHost nextHop
        outerUDP := pkt.underlayUDP nextHop
        outerUDPValid := true
        scionValid := true } := by
  rw [buildUnderlay, buildOuterIP, if_neg (by rw [h6]; exact Bool.false_ne_true)]
  rfl

/-- An ICMP error to the sender of the packet. -/
def errorTo (type : ICMPv6Type) (code : UInt8) (param2 : UInt16) (pkt : PacketBuffer) :
    PacketBuffer :=
  { pkt with
    ipv6.dst := pkt.ipv6.src
    ipv6.src := .v6 ((0xfc : UInt64) <<< 56) 1 ""
    ipv6.nh := IPProto.icmpv6
    icmp := ⟨type, code, 0, 0, param2⟩
    l4Valid := .icmp }

/-- The error when `payloadLen` bytes are quoted. -/
def finishError (payloadLen : ℕ) (pkt : PacketBuffer) : PacketBuffer :=
  let pkt := { pkt with ipv6.plen := UInt16.ofNat (pkt.icmp.size + payloadLen) }
  { pkt with
    icmp.chksum := internetChecksum pkt.payload
      (pkt.ipv6.checksum (UInt16.ofNat (pkt.icmp.size + payloadLen)) + pkt.icmp.checksum) }

theorem makeIcmp_eq (type : ICMPv6Type) (code : UInt8) (param2 : UInt16) (pkt : PacketBuffer) :
    pkt.makeIcmp type code param2 =
      let quoted := (pkt.errorTo type code param2).quoteRawHeaders
        (ipv6MinLinkMtu - (pkt.errorTo type code param2).measureHeaders false)
      quoted.2.finishError quoted.1 := rfl

end Parts

namespace SameView

variable {S : Prop} {p q : PacketBuffer} {hash : IPAddress → UInt64} {hashSc : ScIPAddress → UInt64}
  {murmur32 : List UInt8 → UInt32 → UInt32}

theorem l4FlowLabel_eq (h : SameView S p q) :
    q.l4FlowLabel murmur32 = p.l4FlowLabel murmur32 := by
  rw [l4FlowLabel, l4FlowLabel, h.l4Valid]
  cases hl4 : p.l4Valid with
  | tcp =>
    show TCP.flowLabel murmur32 q.tcp = TCP.flowLabel murmur32 p.tcp
    rw [TCP.flowLabel, TCP.flowLabel, (h.tcp hl4).sport_eq, (h.tcp hl4).dport_eq]
  | udp => exact congrArg (UDP.flowLabel murmur32) (h.udp hl4)
  | icmp => exact congrArg ICMPv6.flowLabel (h.icmp hl4)
  | _ => rfl

/-! ### From SCION to IP -/

/-- The MTU is looked up by what the path encodes, and paths that are the same stay so. -/
def Respects (getMTU : GetMtu) : Prop :=
  ∀ sci p q, RawPathContents.Same p q →
    (getMTU sci q).1 = (getMTU sci p).1 ∧ RawPathContents.Same (getMTU sci p).2 (getMTU sci q).2

theorem withIcmp (h : SameView S p q) (icmp : ICMPv6) :
    SameView S { p with icmp := icmp, l4Valid := .icmp } { q with icmp := icmp, l4Valid := .icmp } :=
  { h with
    l4Valid := rfl
    icmp := fun _ => rfl
    scmp := by simp
    tcp := by simp
    sack := by simp
    udp := by simp }

theorem translateScmpToIcmp_eq (h : SameView S p q) (hp : p.Placed) (hscmp : p.l4Valid = .scmp) :
    q.translateScmpToIcmp.1 = p.translateScmpToIcmp.1 ∧
      SameView S p.translateScmpToIcmp.2 q.translateScmpToIcmp.2 := by
  have hid : ∀ id, q.originalId id = p.originalId id := fun id => by
    rw [originalId, originalId, h.payload_eq hp]
  have hmsg : q.scmp.msg = p.scmp.msg := congrArg SCMP.msg (h.scmp hscmp)
  rw [translateScmpToIcmp, translateScmpToIcmp, hmsg]
  cases p.scmp.msg with
  | echoRequest id seq => exact ⟨rfl, h.withIcmp ⟨ICMPv6Type.echoRequest, 0, 0, id, seq⟩⟩
  | echoReply id seq =>
    dsimp only
    rw [hid]
    exact ⟨rfl, h.withIcmp ⟨ICMPv6Type.echoReply, 0, 0, p.originalId id, seq⟩⟩
  | _ => exact ⟨rfl, h⟩

theorem withPath (h : SameView S p q) {path path' : RawPathContents} (hpath : path.Same path') :
    SameView S { p with path := path } { q with path := path' } :=
  { h with path := fun _ => hpath }

theorem withMss (h : SameView S p q) (htcp : p.l4Valid = .tcp) (mss : UInt16) :
    SameView S { p with tcp.options.mss.mss := mss } { q with tcp.options.mss.mss := mss } :=
  { h with
    tcp := fun _ => { h.tcp htcp with
      mss := fun _ => rfl } }

/-- The segment size is clamped the same way. -/
theorem clampMss_eq {getMTU : GetMtu} (hgetMTU : Respects getMTU) (h : SameView S p q)
    (hsci : q.sci = p.sci) (hpath : p.path.Same q.path) :
    (q.clampMss getMTU).1 = (p.clampMss getMTU).1 ∧
      SameView S (p.clampMss getMTU).2 (q.clampMss getMTU).2 ∧
      (p.clampMss getMTU).2.path.Same (q.clampMss getMTU).2.path := by
  by_cases hclamps : p.l4Valid = .tcp ∧ p.tcp.optMask.mss = true
  · obtain ⟨htcp, hmss⟩ := hclamps
    have hvalue : q.tcp.options.mss.mss = p.tcp.options.mss.mss :=
      congrArg TcpMssOpt.mss ((h.tcp htcp).mss hmss)
    have hq : q.l4Valid = .tcp ∧ q.tcp.optMask.mss = true :=
      ⟨h.l4Valid.trans htcp, by rw [(h.tcp htcp).optMask_eq]; exact hmss⟩
    obtain ⟨hmtu, hlookup⟩ := hgetMTU p.sci p.path q.path hpath
    have hroom : ((getMTU q.sci q.path).1.toNat : ℤ)
          - ((q.sci.size + (getMTU q.sci q.path).2.size : ℕ) : ℤ) - tcpHdrSize
        = ((getMTU p.sci p.path).1.toNat : ℤ)
          - ((p.sci.size + (getMTU p.sci p.path).2.size : ℕ) : ℤ) - tcpHdrSize := by
      rw [hsci, hmtu, hlookup.size]
    have hlooked : RawPathContents.Same (getMTU p.sci p.path).2 (getMTU q.sci q.path).2 := by
      rwa [hsci]
    have hsame : SameView S { p with path := (getMTU p.sci p.path).2 }
        { q with path := (getMTU q.sci q.path).2 } := h.withPath hlooked
    rw [clampMss, clampMss, if_pos hq, if_pos ⟨htcp, hmss⟩]
    dsimp only
    rw [hroom, hvalue]
    split_ifs with hnone
    · exact ⟨rfl, hsame, hlooked⟩
    · exact ⟨rfl, hsame.withMss htcp _, hlooked⟩
  · have hq : ¬(q.l4Valid = .tcp ∧ q.tcp.optMask.mss = true) := fun hq => by
      have htcp := h.l4Valid.symm.trans hq.1
      exact hclamps ⟨htcp, by rw [← (h.tcp htcp).optMask_eq]; exact hq.2⟩
    rw [clampMss, clampMss, if_neg hq, if_neg hclamps]
    exact ⟨rfl, h, hpath⟩

/-- Every field of the IPv6 header is set. -/
theorem buildIPv6_ipv6 (h : SameView S p q) (hp : p.Placed) (hsci : q.sci = p.sci) (hsrc : q.ipv6.src = p.ipv6.src)
    (hdst : q.ipv6.dst = p.ipv6.dst) (nextHeader : IPProto) :
    (q.buildIPv6 hash murmur32 nextHeader).ipv6 = (p.buildIPv6 hash murmur32 nextHeader).ipv6 := by
  have hbuilt : ∀ r : PacketBuffer, (r.buildIPv6 hash murmur32 nextHeader).ipv6
      = ⟨r.sci.qos, 64, nextHeader, UInt16.ofNat (r.l4Size + r.payload.length),
        (hash r.ipv6.dst ^^^ hash r.ipv6.src).toUInt32 ^^^ r.l4FlowLabel murmur32,
        r.ipv6.src, r.ipv6.dst⟩ := fun r => rfl
  rw [hbuilt, hbuilt, hsci, hsrc, hdst, h.l4Size_eq, h.payload_eq hp, h.l4FlowLabel_eq]

theorem buildIPv6_sameView (h : SameView S p q) (hp : p.Placed)
    (hsci : q.sci = p.sci) (hsrc : q.ipv6.src = p.ipv6.src) (hdst : q.ipv6.dst = p.ipv6.dst)
    (nextHeader : IPProto) :
    SameView S (p.buildIPv6 hash murmur32 nextHeader) (q.buildIPv6 hash murmur32 nextHeader) :=
  { h with
    ipValid := rfl
    outerUDPValid := rfl
    scionValid := rfl
    ipv4 := fun h => by cases h
    ipv6 := fun _ => h.buildIPv6_ipv6 hp hsci hsrc hdst nextHeader
    outerUDP := fun h => by cases h
    sci := fun h => by cases h
    path := fun h => by cases h }

/-- Only the checksum of the layer 4 header is changed. -/
theorem l4UpdateChecksum_sameView (h : SameView S p q) (add sub : UInt32) :
    SameView S (p.l4UpdateChecksum add sub) (q.l4UpdateChecksum add sub) := by
  cases hl4 : p.l4Valid with
  | tcp =>
    have hchksum := (h.tcp hl4).chksum_eq
    rw [l4UpdateChecksum_tcp hl4, l4UpdateChecksum_tcp (h.l4Valid.trans hl4), hchksum]
    exact { h with
      tcp := fun _ => (h.tcp hl4).withChksum _ }
  | udp =>
    have hchksum : q.udp.chksum = p.udp.chksum := congrArg UDP.chksum (h.udp hl4)
    rw [l4UpdateChecksum_udp hl4, l4UpdateChecksum_udp (h.l4Valid.trans hl4), hchksum]
    exact { h with
      udp := fun _ => by dsimp only; rw [h.udp hl4] }
  | _ =>
    rw [l4UpdateChecksum_other (by rw [hl4]; decide) (by rw [hl4]; decide),
      l4UpdateChecksum_other (by rw [h.l4Valid, hl4]; decide) (by rw [h.l4Valid, hl4]; decide)]
    exact h

/-- The checksum of an ICMP message is for what is in the IPv6 header now. -/
theorem updateIngressChecksum_sameView (h : SameView S p q) (hp : p.Placed)
    (hip : p.ipValid = .ipv6) (hsci : q.sci = p.sci) (mss clampedMSS : UInt16) :
    SameView S (p.updateIngressChecksum mss clampedMSS) (q.updateIngressChecksum mss clampedMSS) := by
  by_cases hicmp : p.l4Valid = .icmp
  · have hsum : internetChecksum q.payload
        (q.ipv6.checksum (UInt16.ofNat (q.icmp.size + q.payload.length)) + q.icmp.checksum)
        = internetChecksum p.payload
          (p.ipv6.checksum (UInt16.ofNat (p.icmp.size + p.payload.length)) + p.icmp.checksum) := by
      rw [h.payload_eq hp, h.ipv6 hip, h.icmp hicmp]
    rw [updateIngressChecksum, updateIngressChecksum, if_pos hicmp,
      if_pos (h.l4Valid.trans hicmp)]
    dsimp only
    rw [hsum]
    exact { h with
      icmp := fun _ => by dsimp only; rw [h.icmp hicmp] }
  · rw [updateIngressChecksum, updateIngressChecksum, if_neg hicmp,
      if_neg (by rw [h.l4Valid]; exact hicmp), h.ipv6 hip, hsci, h.l4Size_eq, h.l4Valid]
    exact h.l4UpdateChecksum_sameView _ _

/-! A packet that is accepted has an IPv6 header with the mapped addresses, and a SCION header. -/

theorem translateMessage_sameView {getMTU : GetMtu} (hgetMTU : Respects getMTU)
    (h : SameView S p q) (hp : p.Placed) (hscion : p.scionValid = true)
    (hsrc : q.ipv6.src = p.ipv6.src) (hdst : q.ipv6.dst = p.ipv6.dst) (verdict : Verdict)
    (nextHeader : IPProto) :
    (q.translateMessage hash murmur32 getMTU verdict nextHeader).1
        = (p.translateMessage hash murmur32 getMTU verdict nextHeader).1 ∧
      SameView S (p.translateMessage hash murmur32 getMTU verdict nextHeader).2
        (q.translateMessage hash murmur32 getMTU verdict nextHeader).2 := by
  rw [translateMessage, translateMessage]
  split_ifs
  · exact ⟨rfl, h⟩
  obtain ⟨hmss, hclamped, -⟩ := h.clampMss_eq hgetMTU (h.sci hscion) (h.path hscion)
  have hframe := p.clampMss_frame getMTU
  have hframe' := q.clampMss_frame getMTU
  revert hmss hclamped hframe hframe'
  rcases p.clampMss getMTU with ⟨m, p'⟩
  rcases q.clampMss getMTU with ⟨m', q'⟩
  intro hmss hclamped hframe hframe'
  obtain rfl : m = m' := hmss.symm
  dsimp only at hclamped hframe hframe' ⊢
  have hsci : q'.sci = p'.sci := by rw [hframe'.sci, hframe.sci, h.sci hscion]
  cases m with
  | none => exact ⟨rfl, hclamped⟩
  | some m =>
    have hbuilt : SameView S (p'.buildIPv6 hash murmur32 nextHeader)
        (q'.buildIPv6 hash murmur32 nextHeader) :=
      hclamped.buildIPv6_sameView (hframe.placed hp) hsci (by rw [hframe'.ipv6, hframe.ipv6, hsrc])
        (by rw [hframe'.ipv6, hframe.ipv6, hdst]) nextHeader
    obtain ⟨hoffset, hend, hsize⟩ := hframe.placed hp
    exact ⟨rfl, hbuilt.updateIngressChecksum_sameView ⟨hoffset, hend, hsize⟩ rfl hsci _ _⟩

theorem translateAccepted_sameView {getMTU : GetMtu} (hgetMTU : Respects getMTU)
    (h : SameView S p q) (hp : p.Placed) (hscion : p.scionValid = true)
    (hsrc : q.ipv6.src = p.ipv6.src) (hdst : q.ipv6.dst = p.ipv6.dst) :
    (q.translateAccepted hash murmur32 getMTU).1 = (p.translateAccepted hash murmur32 getMTU).1 ∧
      SameView S (p.translateAccepted hash murmur32 getMTU).2
        (q.translateAccepted hash murmur32 getMTU).2 := by
  by_cases hscmp : p.l4Valid = .scmp
  · obtain ⟨hverdict, htranslated⟩ := h.translateScmpToIcmp_eq hp hscmp
    have hframe := p.translateScmpToIcmp_frame
    have hframe' := q.translateScmpToIcmp_frame
    rw [translateAccepted_scmp hscmp, translateAccepted_scmp (h.l4Valid.trans hscmp), hverdict]
    exact htranslated.translateMessage_sameView hgetMTU (hframe.placed hp)
      (hframe.scionValid.trans hscion) (by rw [hframe'.ipv6, hframe.ipv6, hsrc])
      (by rw [hframe'.ipv6, hframe.ipv6, hdst]) _ _
  · rw [translateAccepted_other hscmp, translateAccepted_other (by rw [h.l4Valid]; exact hscmp),
      h.sci hscion]
    exact h.translateMessage_sameView hgetMTU hp hscion hsrc hdst _ _

theorem withSrc (h : SameView S p q) (src : IPAddress) :
    SameView S { p with ipv6.src := src } { q with ipv6.src := src } :=
  { h with
    ipv6 := fun hip => by dsimp only; rw [h.ipv6 hip] }

theorem withDst (h : SameView S p q) (dst : IPAddress) :
    SameView S { p with ipv6.dst := dst } { q with ipv6.dst := dst } :=
  { h with
    ipv6 := fun hip => by dsimp only; rw [h.ipv6 hip] }

/-- What becomes of a SCION packet does not depend on what was in the buffer. -/
theorem translateIngress_sameView {getMTU : GetMtu} (hgetMTU : Respects getMTU)
    (h : SameView S p q) (hp : p.Placed) (acceptPrefix dstPrefix : IPAddress) (prefixLen : UInt32) :
    (q.translateIngress hash murmur32 acceptPrefix dstPrefix prefixLen getMTU).1
        = (p.translateIngress hash murmur32 acceptPrefix dstPrefix prefixLen getMTU).1 ∧
      SameView S (p.translateIngress hash murmur32 acceptPrefix dstPrefix prefixLen getMTU).2
        (q.translateIngress hash murmur32 acceptPrefix dstPrefix prefixLen getMTU).2 := by
  by_cases hscion : p.scionValid = true
  swap
  · have hnot : p.scionValid = false := Bool.eq_false_of_not_eq_true hscion
    rw [translateIngress, translateIngress, if_pos (by rw [h.scionValid, hnot]; rfl),
      if_pos (by rw [hnot]; rfl)]
    exact ⟨rfl, h⟩
  rw [translateIngress, translateIngress, if_neg (by rw [h.scionValid, hscion]; decide),
    if_neg (by rw [hscion]; decide)]
  have hsrc : mapToIPv6 q.sci.src = mapToIPv6 p.sci.src := by rw [h.sci hscion]
  have hdst : mapToIPv6 q.sci.dst = mapToIPv6 p.sci.dst := by rw [h.sci hscion]
  rw [hsrc]
  cases mapToIPv6 p.sci.src with
  | error ec => exact ⟨rfl, h⟩
  | ok src =>
    dsimp only
    rw [hdst]
    cases mapToIPv6 p.sci.dst with
    | error ec => exact ⟨rfl, h.withSrc src⟩
    | ok dst =>
      dsimp only
      split_ifs
      · exact ⟨rfl, h.withSrc src⟩
      · exact ((h.withSrc src).withDst _).translateAccepted_sameView hgetMTU
          ⟨hp.offset_le, hp.le_end, hp.end_le⟩ hscion rfl rfl

/-! ### From IP to SCION -/

theorem withScmp (h : SameView S p q) (hstale : S) (msg : ScmpMessage) :
    SameView S { p with scmp.msg := msg, l4Valid := .scmp }
      { q with scmp.msg := msg, l4Valid := .scmp } :=
  { h with
    l4Valid := rfl
    icmp := by simp
    scmp := fun _ => by dsimp only; rw [h.chksum hstale]
    tcp := by simp
    sack := by simp
    udp := by simp }

/-- The identifier is stored within the packet. -/
theorem storeId_sameView (h : SameView S p q) (hp : p.Placed) (hicmp : p.l4Valid = .icmp) :
    SameView S p.storeId q.storeId := by
  have hq := h.placed hp
  have hlen := length_payload hp
  have hid : q.icmp.param1 = p.icmp.param1 := congrArg ICMPv6.param1 (h.icmp hicmp)
  rw [storeId, storeId, h.payload_eq hp]
  split_ifs with hlong
  · have hbytes : (leBytes 2 p.icmp.param1.toNat).length = 2 := by
      rw [leBytes, List.length_reverse, length_beBytes]
    have hwithin : ∀ r : PacketBuffer, r.Placed → r.packet = p.packet →
        r.endOfHeader = p.endOfHeader →
        Records.slice (Records.overwrite r.buffer (r.endOfHeader + 16)
            (leBytes 2 p.icmp.param1.toNat)) r.packet.offset r.packet.size
          = Records.overwrite r.raw (r.endOfHeader - r.packet.offset + 16)
            (leBytes 2 p.icmp.param1.toNat) := by
      intro r hr hpacket hend
      have hoffset := hr.offset_le
      have hin := Records.slice_overwrite_inside hr.end_le (x := leBytes 2 p.icmp.param1.toNat)
        (k := r.endOfHeader - r.packet.offset + 16) (by rw [hbytes, hpacket, hend]; omega)
      rw [show r.packet.offset + (r.endOfHeader - r.packet.offset + 16) = r.endOfHeader + 16 by
        omega] at hin
      exact hin
    have hsize : ∀ r : PacketBuffer, r.Placed → r.packet = p.packet →
        r.endOfHeader = p.endOfHeader →
        (Records.overwrite r.buffer (r.endOfHeader + 16) (leBytes 2 p.icmp.param1.toNat)).length
          = r.buffer.length := by
      intro r hr hpacket hend
      have hfits := hr.end_le
      have hoffset := hr.offset_le
      exact Records.length_overwrite (by rw [hbytes]; rw [hpacket] at hfits; omega)
    rw [hid]
    exact { h with
      length := by
        rw [hsize q hq h.packet h.endOfHeader, hsize p hp rfl rfl, h.length]
      raw := by
        rw [PacketBuffer.raw, PacketBuffer.raw]
        dsimp only
        rw [hwithin q hq h.packet h.endOfHeader, hwithin p hp rfl rfl, h.raw, h.packet,
          h.endOfHeader] }
  · exact h

theorem translateIcmpToScmp_sameView (h : SameView S p q) (hp : p.Placed) (hicmp : p.l4Valid = .icmp)
    (hstale : S) :
    q.translateIcmpToScmp.1 = p.translateIcmpToScmp.1 ∧
      SameView S p.translateIcmpToScmp.2 q.translateIcmpToScmp.2 := by
  have hmsg : q.icmp = p.icmp := h.icmp hicmp
  have hstored := h.storeId_sameView hp hicmp
  obtain ⟨_, _, _, _, _, _, ip, outer, _, _, _, icmp, _, _, _, _, _, _⟩ := p
  obtain ⟨_, _, _, _, _, _, ip', outer', _, _, _, icmp', _, _, _, _, _, _⟩ := q
  dsimp only at hmsg
  subst hmsg
  rw [translateIcmpToScmp, translateIcmpToScmp]
  dsimp only
  by_cases hdst : icmp'.type = ICMPv6Type.dstUnreachable
  · rw [if_pos hdst, if_pos hdst]
    exact ⟨rfl, h.withScmp hstale _⟩
  rw [if_neg hdst, if_neg hdst]
  by_cases hbig : icmp'.type = ICMPv6Type.packetTooBig
  · rw [if_pos hbig, if_pos hbig]
    by_cases hmtu : icmp'.param1 ≠ 0 ∨ icmp'.param2.toNat < ip.size + outer.size
    · have hmtu' : icmp'.param1 ≠ 0 ∨ icmp'.param2.toNat < ip'.size + outer'.size := hmtu
      rw [if_pos hmtu, if_pos hmtu']
      exact ⟨rfl, h⟩
    · have hmtu' : ¬(icmp'.param1 ≠ 0 ∨ icmp'.param2.toNat < ip'.size + outer'.size) := hmtu
      rw [if_neg hmtu, if_neg hmtu']
      exact ⟨rfl, h.withScmp hstale _⟩
  rw [if_neg hbig, if_neg hbig]
  by_cases htime : icmp'.type = ICMPv6Type.timeExceeded
  · rw [if_pos htime, if_pos htime]
    exact ⟨rfl, h⟩
  rw [if_neg htime, if_neg htime]
  by_cases hparam : icmp'.type = ICMPv6Type.paramProblem
  · rw [if_pos hparam, if_pos hparam]
    exact ⟨rfl, h⟩
  rw [if_neg hparam, if_neg hparam]
  by_cases hrequest : icmp'.type = ICMPv6Type.echoRequest
  · rw [if_pos hrequest, if_pos hrequest]
    exact ⟨rfl, hstored.withScmp hstale _⟩
  rw [if_neg hrequest, if_neg hrequest]
  by_cases hreply : icmp'.type = ICMPv6Type.echoReply
  · rw [if_pos hreply, if_pos hreply]
    exact ⟨rfl, h.withScmp hstale _⟩
  · rw [if_neg hreply, if_neg hreply]
    exact ⟨rfl, h⟩

/-- What is quoted is a part of the packet. -/
theorem quoteRawHeaders_sameView (h : SameView S p q) (hp : p.Placed) (maxSize : ℕ) :
    (q.quoteRawHeaders maxSize).1 = (p.quoteRawHeaders maxSize).1 ∧
      SameView S (p.quoteRawHeaders maxSize).2 (q.quoteRawHeaders maxSize).2 ∧
      (p.quoteRawHeaders maxSize).2.Placed := by
  have hsize : min q.packet.size maxSize = min p.packet.size maxSize := by rw [h.packet]
  have hfits := hp.end_le
  have hspan : Records.slice q.buffer p.packet.offset (min p.packet.size maxSize)
      = Records.slice p.buffer p.packet.offset (min p.packet.size maxSize) :=
    h.slice_eq le_rfl (by omega)
  refine ⟨hsize, ?_, ⟨le_rfl, Nat.le_add_right _ _, ?_⟩⟩
  · exact { h with
      packet := by
        show (⟨q.packet.offset, min q.packet.size maxSize⟩ : Span) = _
        rw [hsize, h.packet]
        rfl
      endOfHeader := by
        show q.packet.offset = p.packet.offset
        rw [h.packet]
      raw := by
        show Records.slice q.buffer q.packet.offset (min q.packet.size maxSize) = _
        rw [hsize, h.packet, hspan]
        rfl }
  · show p.packet.offset + min p.packet.size maxSize ≤ p.buffer.length
    omega

theorem errorTo_sameView (h : SameView S p q) (hip : p.ipValid = .ipv6) (type : ICMPv6Type)
    (code : UInt8) (param2 : UInt16) :
    SameView S (p.errorTo type code param2) (q.errorTo type code param2) :=
  { h with
    l4Valid := rfl
    ipv6 := fun _ => by
      show ({ q.ipv6 with dst := q.ipv6.src, src := _, nh := _ } : IPv6) = _
      rw [h.ipv6 hip]
      rfl
    icmp := fun _ => rfl
    scmp := fun h => by cases h
    tcp := fun h => by cases h
    sack := fun h => by cases h
    udp := fun h => by cases h }

/-- The length and the checksum of the error are for what is quoted. -/
theorem finishError_sameView (h : SameView S p q) (hp : p.Placed) (hip : p.ipValid = .ipv6)
    (hl4 : p.l4Valid = .icmp) (len : ℕ) : SameView S (p.finishError len) (q.finishError len) := by
  have hlen : SameView S { p with ipv6.plen := UInt16.ofNat (p.icmp.size + len) }
      { q with ipv6.plen := UInt16.ofNat (q.icmp.size + len) } :=
    { h with
      ipv6 := fun hvalid => by
        show ({ q.ipv6 with plen := UInt16.ofNat (q.icmp.size + len) } : IPv6) = _
        rw [h.ipv6 hvalid, h.icmp hl4] }
  have hsum : (q.finishError len).icmp = (p.finishError len).icmp := by
    have hpayload := hlen.payload_eq ⟨hp.offset_le, hp.le_end, hp.end_le⟩
    have hv6 := hlen.ipv6 hip
    dsimp only at hv6
    rw [finishError, finishError]
    dsimp only
    rw [hpayload, hv6, h.icmp hl4]
  exact { hlen with
    icmp := fun _ => hsum }

/-- The error that a packet is answered with. -/
theorem makeIcmp_sameView (h : SameView S p q) (hp : p.Placed) (hip : p.ipValid = .ipv6)
    (type : ICMPv6Type) (code : UInt8) (param2 : UInt16) :
    SameView S (p.makeIcmp type code param2) (q.makeIcmp type code param2) ∧
      (p.makeIcmp type code param2).Placed := by
  have herror := h.errorTo_sameView hip type code param2
  obtain ⟨hlen, hquoted, hplaced⟩ := herror.quoteRawHeaders_sameView
    ⟨hp.offset_le, hp.le_end, hp.end_le⟩
    (ipv6MinLinkMtu - (p.errorTo type code param2).measureHeaders false)
  rw [makeIcmp_eq, makeIcmp_eq, herror.measureHeaders_eq]
  dsimp only
  rw [hlen]
  exact ⟨hquoted.finishError_sameView hplaced hip rfl _,
    ⟨hplaced.offset_le, hplaced.le_end, hplaced.end_le⟩⟩

end SameView

namespace SameReceived

variable {S : Prop} {p q : PacketBuffer} {hash : IPAddress → UInt64} {hashSc : ScIPAddress → UInt64}
  {murmur32 : List UInt8 → UInt32 → UInt32}

theorem makeIcmp (h : SameReceived S p q) (hip : p.ipValid = .ipv6) (type : ICMPv6Type)
    (code : UInt8) (param2 : UInt16) :
    SameReceived S (p.makeIcmp type code param2) (q.makeIcmp type code param2) := by
  obtain ⟨hview, hplaced⟩ := h.view.makeIcmp_sameView h.placed hip type code param2
  exact ⟨hview, hplaced, fun h => by cases h⟩

theorem translateL4 (h : SameReceived S p q) (hstale : p.l4Valid = .icmp → S) :
    q.translateL4.1 = p.translateL4.1 ∧ q.translateL4.2.1 = p.translateL4.2.1 ∧
      SameReceived S p.translateL4.2.2 q.translateL4.2.2 := by
  by_cases hicmp : p.l4Valid = .icmp
  · obtain ⟨hverdict, hview⟩ :=
      h.view.translateIcmpToScmp_sameView h.placed hicmp (hstale hicmp)
    have hframe : p.translateIcmpToScmp.2.Placed ∧ p.translateIcmpToScmp.2.l4Valid ≠ .tcp := by
      rcases translateIcmpToScmp_spec p with ⟨-, hsame⟩ | ⟨-, hto⟩
      · rw [hsame, hicmp]
        exact ⟨h.placed, by decide⟩
      · exact ⟨(hto.layout hicmp).placed h.placed, by rw [hto.l4Valid]; decide⟩
    rw [PacketBuffer.translateL4, PacketBuffer.translateL4, if_pos hicmp,
      if_pos (h.view.l4Valid.trans hicmp)]
    exact ⟨hverdict, rfl, hview, hframe.1, fun htcp => absurd htcp hframe.2⟩
  · rw [PacketBuffer.translateL4, PacketBuffer.translateL4, if_neg hicmp,
      if_neg (by rw [h.view.l4Valid]; exact hicmp), h.view.l4Valid]
    exact ⟨rfl, rfl, h⟩

/-- Results that differ only in what earlier packets have left. -/
structure SameResult (S : Prop) (r r' : EgressResult) : Prop where
  verdict : r'.verdict = r.verdict
  sport : r'.sport = r.sport
  nextHop : r'.nextHop = r.nextHop
  pkt : SameReceived S r.pkt r'.pkt

theorem ended (h : SameReceived S p q) (verdict : Verdict) :
    SameResult S (.ended verdict p) (.ended verdict q) :=
  ⟨rfl, rfl, rfl, h⟩

/-- Packets with the same path to the same destination. -/
structure SameRouted (S : Prop) (r r' : Routed) : Prop where
  pkt : SameReceived S r.pkt r'.pkt
  ipValid : r.pkt.ipValid = .ipv6
  srcHost : r'.srcHost = r.srcHost
  dst : r'.dst = r.dst
  nextHeader : r'.nextHeader = r.nextHeader
  path : r'.path = r.path
  mtu : r'.mtu = r.mtu

theorem route (h : SameReceived S p q) (hstale : p.l4Valid = .icmp → S) (sourcePrefix : IPAddress)
    (prefixLen : UInt32) (getPath : GetPath) :
    Both (SameResult S) (SameRouted S) (p.route sourcePrefix prefixLen getPath)
      (q.route sourcePrefix prefixLen getPath) := by
  obtain ⟨hverdict, hproto, hpkt⟩ := h.translateL4 hstale
  have hipValid := translateL4_ipValid p
  have hq := h.view.ipValid
  by_cases hip : p.ipValid = .ipv6
  swap
  · rw [PacketBuffer.route, PacketBuffer.route, if_pos hip, if_pos (by rwa [hq])]
    exact .error (h.ended .abort)
  rw [PacketBuffer.route, PacketBuffer.route, if_neg (not_not.mpr hip),
    if_neg (not_not.mpr (hq.trans hip)), h.view.ipv6 hip]
  revert hverdict hproto hpkt hipValid
  rcases p.translateL4 with ⟨verdict, proto, p'⟩
  rcases q.translateL4 with ⟨verdict', proto', q'⟩
  intro hverdict hproto hpkt hipValid
  dsimp only at hverdict hproto hpkt hipValid ⊢
  subst hverdict hproto
  have hip' := hipValid.trans hip
  have hunreachable : ∀ code, SameResult S (.ended .returned (p'.makeIcmpDestUnreachable code))
      (.ended .returned (q'.makeIcmpDestUnreachable code)) := fun code =>
    (hpkt.makeIcmp hip' ICMPv6Type.dstUnreachable code 0).ended .returned
  split_ifs with hends
  · exact .error (hpkt.ended verdict')
  rw [hpkt.view.ipv6 hip', hpkt.view.l4SPort_eq, hpkt.view.l4DPort_eq]
  cases unmapFromIPv6 p'.ipv6.dst with
  | error ec => exact .error (hunreachable 3)
  | ok dst =>
    dsimp only
    rcases getPath ⟨⟨0⟩, translateIPv6Prefix p.ipv6.src sourcePrefix prefixLen⟩ dst
      (p'.l4SPort 0) (p'.l4DPort 0) proto' (p'.ipv6.tc >>> 2) with ⟨ec | _ | path, mtu⟩
    · dsimp only
      split_ifs
      · exact .error (hpkt.ended .drop)
      · exact .error (hunreachable 0)
    · exact .error (hunreachable 0)
    · exact .ok ⟨hpkt, hip', rfl, rfl, rfl, rfl, rfl⟩

/-- Packets with the same SCION header, which is not valid yet. -/
structure SameBuilt (S : Prop) (p q : PacketBuffer) : Prop where
  received : SameReceived S p q
  ipValid : p.ipValid = .ipv6
  sci : q.sci = p.sci
  path : p.path.Same q.path

/-- Every field of the SCION header is set. -/
theorem scionHeader_eq {r r' : Routed} (h : SameRouted S r r') :
    r'.scionHeader hashSc murmur32 = r.scionHeader hashSc murmur32 := by
  have hview := h.pkt.view
  have hbuilt : ∀ x : Routed, x.scionHeader hashSc murmur32 =
      let sci : SCION := ⟨x.pkt.ipv6.tc, 0, x.nextHeader, x.path.type, 0, 0, x.dst,
        ⟨x.path.source, x.srcHost⟩⟩
      let sci := { sci with
        hlen := UInt8.ofNat ((sci.size + x.path.path.length) / 4)
        plen := UInt16.ofNat (x.pkt.l4Size + x.pkt.payload.length) }
      { sci with fl := computeScionFlowLabel hashSc sci (x.pkt.l4FlowLabel murmur32) } :=
    fun x => rfl
  rw [hbuilt, hbuilt, h.dst, h.nextHeader, h.path, h.srcHost, hview.ipv6 h.ipValid,
    hview.l4Size_eq, hview.payload_eq h.pkt.placed, hview.l4FlowLabel_eq]

theorem buildScion {r r' : Routed} (h : SameRouted S r r') :
    Both Eq (SameBuilt S) (r.buildScion hashSc murmur32) (r'.buildScion hashSc murmur32) := by
  have hview := h.pkt.view
  have hheader : r'.scionHeader hashSc murmur32 = r.scionHeader hashSc murmur32 :=
    scionHeader_eq h
  rw [Routed.buildScion, Routed.buildScion, h.path, hheader]
  cases hassign : r.pkt.path.assign r.path.source r.path.destination r.path.type r.path.path with
  | error e =>
    have hassign' : r'.pkt.path.assign r.path.source r.path.destination r.path.type r.path.path
        = .error e := by
      rw [RawPathContents.assign] at hassign ⊢
      split_ifs at hassign ⊢
      exact hassign
    rw [hassign']
    exact .error rfl
  | ok path =>
    obtain ⟨hencoded, hsize, hmax⟩ := RawPathContents.encoded_of_assign hassign
    have hassign' : r'.pkt.path.assign r.path.source r.path.destination r.path.type r.path.path
        = _ := assign_eq_assignedPath hmax r'.pkt.path
    have hpath := Except.ok.inj ((assign_eq_assignedPath hmax r.pkt.path).symm.trans hassign)
    obtain ⟨hencoded', -, -⟩ := RawPathContents.encoded_of_assign hassign'
    have hsame : path.Same
        (assignedPath r.path.source r.path.destination r.path.type r.path.path r'.pkt.path) := by
      subst hpath
      exact ⟨rfl, rfl, rfl, rfl, hencoded'.trans hencoded.symm, by rw [hencoded, hsize]⟩
    rw [hassign']
    refine .ok ⟨⟨{ hview with
      sci := fun _ => rfl
      path := fun _ => hsame }, ?_, h.pkt.tcp_room⟩, h.ipValid, rfl, hsame⟩
    exact ⟨h.pkt.placed.offset_le, h.pkt.placed.le_end, h.pkt.placed.end_le⟩

/-- A packet that is too big is answered or dropped. -/
theorem SameBuilt.rejectTooBig (h : SameBuilt S p q) (path : Path) (mtu : UInt16) (nextHop : IPEndpoint) :
    SameResult S (p.rejectTooBig path mtu nextHop) (q.rejectTooBig path mtu nextHop) := by
  have hmtu : q.ipMtu path mtu = p.ipMtu path mtu := by
    rw [ipMtu, ipMtu, h.sci]
    rfl
  rw [PacketBuffer.rejectTooBig, PacketBuffer.rejectTooBig, hmtu]
  split_ifs
  · exact ⟨rfl, rfl, rfl, h.received.makeIcmp h.ipValid _ _ _⟩
  · exact ⟨rfl, rfl, rfl, h.received⟩

theorem SameBuilt.clampMss (h : SameBuilt S p q) (mtu : UInt16) :
    (q.clampMss fun _ path => (mtu, path)).1 = (p.clampMss fun _ path => (mtu, path)).1 ∧
      SameBuilt S (p.clampMss fun _ path => (mtu, path)).2
        (q.clampMss fun _ path => (mtu, path)).2 := by
  have hrespects : SameView.Respects fun _ path => (mtu, path) := fun _ _ _ hsame => ⟨rfl, hsame⟩
  obtain ⟨hmss, hview, hpath⟩ := h.received.view.clampMss_eq hrespects h.sci h.path
  have hframe := p.clampMss_frame fun _ path => (mtu, path)
  have hframe' := q.clampMss_frame fun _ path => (mtu, path)
  refine ⟨hmss, ⟨hview, hframe.placed h.received.placed, fun htcp => ?_⟩, ?_, ?_, hpath⟩
  · rw [hframe.packet, hframe.endOfHeader]
    exact h.received.tcp_room ((clampMss_valid _ p).2.symm.trans htcp)
  · rw [(clampMss_valid _ p).1, h.ipValid]
  · rw [hframe'.sci, hframe.sci, h.sci]

theorem SameBuilt.updateEgressChecksum (h : SameBuilt S p q) (mss clampedMSS : UInt16) :
    SameBuilt S (p.updateEgressChecksum mss clampedMSS) (q.updateEgressChecksum mss clampedMSS) := by
  obtain ⟨hlayout, hmessage⟩ := sameLayout_egressChecksum mss clampedMSS p
  obtain ⟨hlayout', -⟩ := sameLayout_egressChecksum mss clampedMSS q
  have hview := h.received.view
  have hplaced := h.received.placed
  have hvalid := updateEgressChecksum_ipValid mss clampedMSS p
  refine ⟨⟨?_, hlayout.placed hplaced, fun htcp => ?_⟩, hvalid.trans h.ipValid, ?_, ?_⟩
  · by_cases hscmp : p.l4Valid = .scmp
    · have hsum : internetChecksum q.payload
          (q.sci.checksum (UInt16.ofNat (q.scmp.size + q.payload.length)) ScionProto.scmp
            + q.scmp.checksum)
          = internetChecksum p.payload
            (p.sci.checksum (UInt16.ofNat (p.scmp.size + p.payload.length)) ScionProto.scmp
              + p.scmp.checksum) := by
        rw [hview.payload_eq hplaced, h.sci, hview.scmp hscmp]
      rw [PacketBuffer.updateEgressChecksum, PacketBuffer.updateEgressChecksum, if_pos hscmp,
        if_pos (hview.l4Valid.trans hscmp)]
      dsimp only
      rw [hsum]
      exact { hview with
        scmp := fun _ => by dsimp only; rw [hview.scmp hscmp]
        chksum := fun _ => rfl }
    · have hother : ¬q.l4Valid = .scmp := by rwa [hview.l4Valid]
      rw [PacketBuffer.updateEgressChecksum, PacketBuffer.updateEgressChecksum, if_neg hscmp,
        if_neg hother, hview.ipv6 h.ipValid, h.sci, hview.l4Size_eq, hview.l4Valid]
      exact hview.l4UpdateChecksum_sameView _ _
  · rw [hlayout.packet, hlayout.endOfHeader]
    exact h.received.tcp_room (hmessage.l4Valid.symm.trans htcp)
  · rw [hlayout'.sci, hlayout.sci, h.sci]
  · rw [hlayout'.path, hlayout.path]
    exact h.path

/-- The underlay is made of what is in the packet already. -/
theorem SameBuilt.buildUnderlay (h : SameBuilt S p q) (srcHost : IPAddress) (nextHop : IPEndpoint) :
    SameReceived S (p.buildUnderlay hash murmur32 srcHost nextHop)
        (q.buildUnderlay hash murmur32 srcHost nextHop) ∧
      (q.buildUnderlay hash murmur32 srcHost nextHop).outerUDP.sport
        = (p.buildUnderlay hash murmur32 srcHost nextHop).outerUDP.sport := by
  have hview := h.received.view
  have hv6 := hview.ipv6 h.ipValid
  obtain ⟨hoffset, hend, hsize⟩ := h.received.placed
  have hudp : q.underlayUDP nextHop = p.underlayUDP nextHop := by
    rw [underlayUDP, underlayUDP, hview.l4SPort_eq, h.sci, h.path.size]
  cases h4 : nextHop.host.is4 with
  | true =>
    have hip : q.underlayIPv4 srcHost nextHop = p.underlayIPv4 srcHost nextHop := by
      rw [underlayIPv4, underlayIPv4, hudp, hv6]
    rw [buildUnderlay_ipv4 h4, buildUnderlay_ipv4 h4, hudp, hip]
    exact ⟨⟨{ hview with
      ipValid := rfl
      outerUDPValid := rfl
      scionValid := rfl
      ipv4 := fun _ => rfl
      ipv6 := by simp
      outerUDP := fun _ => rfl
      sci := fun _ => h.sci
      path := fun _ => h.path }, ⟨hoffset, hend, hsize⟩, h.received.tcp_room⟩, rfl⟩
  | false =>
    have hip : q.underlayIPv6 hash murmur32 srcHost nextHop
        = p.underlayIPv6 hash murmur32 srcHost nextHop := by
      rw [underlayIPv6, underlayIPv6, hudp, hv6, hview.l4FlowLabel_eq]
    rw [buildUnderlay_ipv6 h4, buildUnderlay_ipv6 h4, hudp, hip]
    exact ⟨⟨{ hview with
      ipValid := rfl
      outerUDPValid := rfl
      scionValid := rfl
      ipv4 := by simp
      ipv6 := fun _ => rfl
      outerUDP := fun _ => rfl
      sci := fun _ => h.sci
      path := fun _ => h.path }, ⟨hoffset, hend, hsize⟩, h.received.tcp_room⟩, rfl⟩

theorem translate {r r' : Routed} (h : SameRouted S r r') :
    Both Eq (SameResult S) (r.translate hash hashSc murmur32) (r'.translate hash hashSc murmur32) := by
  have hhop : r'.nextHop = r.nextHop := by
    rw [Routed.nextHop, Routed.nextHop, h.path, h.dst, h.pkt.view.l4DPort_eq]
  have hbuilt : Both Eq (SameBuilt S) (r.buildScion hashSc murmur32) (r'.buildScion hashSc murmur32) :=
    buildScion h
  rw [Routed.translate, Routed.translate]
  revert hbuilt
  rcases r.buildScion hashSc murmur32 with e | p <;> rcases r'.buildScion hashSc murmur32 with e' | q
  · rintro ⟨rfl⟩
    exact .error rfl
  · rintro ⟨⟩
  · rintro ⟨⟩
  · rintro (_ | ⟨hbuilt⟩)
    have hsize : q.scionSize r'.path = p.scionSize r.path := by
      have hview := hbuilt.received.view
      rw [scionSize, scionSize, hbuilt.sci, h.path, hview.l4Size_eq,
        hview.payload_eq hbuilt.received.placed]
    dsimp only
    rw [hsize, h.mtu, h.path, hhop, h.srcHost]
    split_ifs
    · exact .ok (hbuilt.rejectTooBig r.path r.mtu r.nextHop)
    obtain ⟨hmss, hclamped⟩ := hbuilt.clampMss r.mtu
    revert hmss hclamped
    rcases p.clampMss fun _ path => (r.mtu, path) with ⟨m, p'⟩
    rcases q.clampMss fun _ path => (r.mtu, path) with ⟨m', q'⟩
    intro hmss hclamped
    obtain rfl : m = m' := hmss.symm
    dsimp only at hclamped ⊢
    cases m with
    | none => exact .ok ⟨rfl, rfl, rfl, hclamped.received⟩
    | some m =>
      have hunderlaid := @SameBuilt.buildUnderlay S _ _ hash murmur32
        (hclamped.updateEgressChecksum m.1 m.2) r.srcHost r.nextHop
      exact .ok ⟨rfl, hunderlaid.2, rfl, hunderlaid.1⟩

/-- What becomes of an IPv6 packet does not depend on what was in the buffer, apart from the
checksum. -/
theorem translateEgress (h : SameReceived S p q) (hstale : p.l4Valid = .icmp → S) (sourcePrefix : IPAddress)
    (prefixLen : UInt32) (getPath : GetPath) :
    Both Eq (SameResult S)
      (p.translateEgress hash hashSc murmur32 sourcePrefix prefixLen getPath)
      (q.translateEgress hash hashSc murmur32 sourcePrefix prefixLen getPath) := by
  have hroute := h.route hstale sourcePrefix prefixLen getPath
  rw [PacketBuffer.translateEgress, PacketBuffer.translateEgress]
  revert hroute
  rcases p.route sourcePrefix prefixLen getPath with result | r <;>
    rcases q.route sourcePrefix prefixLen getPath with result' | r'
  · rintro ⟨hresult⟩
    exact .ok hresult
  · rintro ⟨⟩
  · rintro ⟨⟩
  · rintro (_ | ⟨hrouted⟩)
    exact translate hrouted

end SameReceived

end PacketBuffer

end Scion
