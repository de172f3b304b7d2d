/-
Translation of packets from IPv6 to SCION (`scitra/translator.hpp`, `scitra/translator.cpp`).

A packet gets a path, a SCION header and an underlay. What is wrong with it before that is
answered in ICMP or not at all.

* `translateEgress`, in stages: `route`, `buildScion`, `rejectTooBig`, `buildUnderlay`;
* `translateIcmpToScmp`, with the identifier that is stored in the payload;
* `route_eq_ok`, `buildScion_eq_ok`, `translate_pass` — what a stage has done to a packet.
-/
import Scion.Emission
import Scion.IngressFilter
import Scion.InterposedSend

namespace Scion

open BigEndian

/-- `IPV6_MIN_LINK_MTU`. -/
def ipv6MinLinkMtu : ℕ := 1280

/-- A path and its MTU, for the addresses, the ports, the protocol and the traffic class. -/
abbrev GetPath := ScIPAddress → ScIPAddress → UInt16 → UInt16 → ScionProto → UInt8 →
  Maybe (Option Path) × UInt16

/-- What `translateEgress` returns, and the packet. -/
structure EgressResult where
  verdict : Verdict
  sport : UInt16
  nextHop : IPEndpoint
  pkt : PacketBuffer
  deriving DecidableEq, Repr

/-- The translation ends before there is a next hop. -/
def EgressResult.ended (verdict : Verdict) (pkt : PacketBuffer) : EgressResult :=
  ⟨verdict, 0, ⟨.v6 0 0 "", 0⟩, pkt⟩

/-- A packet with a path to its destination. -/
structure Routed where
  pkt : PacketBuffer
  srcHost : IPAddress
  dst : ScIPAddress
  nextHeader : ScionProto
  path : Path
  mtu : UInt16
  deriving DecidableEq, Repr

/-- `hash` is `std::hash` of SCION addresses. -/
def computeScionFlowLabel (hash : ScIPAddress → UInt64) (sci : SCION) (l4FlowLabel : UInt32) :
    UInt32 :=
  (hash sci.dst ^^^ hash sci.src).toUInt32 ^^^ l4FlowLabel

namespace PacketBuffer

/-! ### ICMP -/

/-- The identifier goes to bytes 16 and 17 of the payload, if it is that long. -/
def storeId (pkt : PacketBuffer) : PacketBuffer :=
  if pkt.payload.length ≥ 18 then
    { pkt with
      buffer := Records.overwrite pkt.buffer (pkt.endOfHeader + 16)
        (leBytes 2 pkt.icmp.param1.toNat) }
  else pkt

def translateIcmpToScmp (pkt : PacketBuffer) : Verdict × PacketBuffer :=
  if pkt.icmp.type = ICMPv6Type.dstUnreachable then
    (.pass, { pkt with scmp.msg := .dstUnreach pkt.icmp.code, l4Valid := .scmp })
  else if pkt.icmp.type = ICMPv6Type.packetTooBig then
    let underlaySize := pkt.ipv6.size + pkt.outerUDP.size
    if pkt.icmp.param1 ≠ 0 ∨ pkt.icmp.param2.toNat < underlaySize then (.drop, pkt)
    else
      (.pass, { pkt with
        scmp.msg := .packetTooBig (UInt16.ofNat (pkt.icmp.param2.toNat - underlaySize))
        l4Valid := .scmp })
  else if pkt.icmp.type = ICMPv6Type.timeExceeded then (.drop, pkt)
  -- asserted not to happen
  else if pkt.icmp.type = ICMPv6Type.paramProblem then (.drop, pkt)
  else if pkt.icmp.type = ICMPv6Type.echoRequest then
    (.pass, { pkt.storeId with
      scmp.msg := .echoRequest dispatcherPort pkt.icmp.param2
      l4Valid := .scmp })
  else if pkt.icmp.type = ICMPv6Type.echoReply then
    (.pass, { pkt with
      scmp.msg := .echoReply pkt.icmp.param1 pkt.icmp.param2
      l4Valid := .scmp })
  else (.drop, pkt)

/-- An error to the sender of the packet, which is quoted. -/
def makeIcmp (type : ICMPv6Type) (code : UInt8) (param2 : UInt16) (pkt : PacketBuffer) :
    PacketBuffer :=
  let pkt := { pkt with
    ipv6.dst := pkt.ipv6.src
    ipv6.src := .v6 ((0xfc : UInt64) <<< 56) 1 ""
    ipv6.nh := IPProto.icmpv6
    icmp := ⟨type, code, 0, 0, param2⟩
    l4Valid := .icmp }
  let (payloadLen, pkt) := pkt.quoteRawHeaders (ipv6MinLinkMtu - pkt.measureHeaders false)
  let pkt := { pkt with ipv6.plen := UInt16.ofNat (pkt.icmp.size + payloadLen) }
  { pkt with
    icmp.chksum := internetChecksum pkt.payload
      (pkt.ipv6.checksum (UInt16.ofNat (pkt.icmp.size + payloadLen)) + pkt.icmp.checksum) }

def makeIcmpDestUnreachable (code : UInt8) (pkt : PacketBuffer) : PacketBuffer :=
  pkt.makeIcmp ICMPv6Type.dstUnreachable code 0

def makeIcmpPacketTooBig (mtu : UInt16) (pkt : PacketBuffer) : PacketBuffer :=
  pkt.makeIcmp ICMPv6Type.packetTooBig 0 mtu

/-! ### The path -/

/-- ICMP becomes SCMP; the protocol behind the SCION header is returned. -/
def translateL4 (pkt : PacketBuffer) : Verdict × ScionProto × PacketBuffer :=
  if pkt.l4Valid = .icmp then
    let (verdict, pkt) := pkt.translateIcmpToScmp
    (verdict, ScionProto.scmp, pkt)
  else (.pass, pkt.l4Valid.proto, pkt)

/-- The part of `translateEgress` that looks for a path. -/
def route (sourcePrefix : IPAddress) (prefixLen : UInt32) (getPath : GetPath)
    (pkt : PacketBuffer) : Except EgressResult Routed :=
  if pkt.ipValid ≠ .ipv6 then .error (.ended .abort pkt)
  else
    let srcHost := translateIPv6Prefix pkt.ipv6.src sourcePrefix prefixLen
    let (verdict, nextHeader, pkt) := pkt.translateL4
    if verdict = .abort ∨ verdict = .drop then .error (.ended verdict pkt)
    else
      match unmapFromIPv6 pkt.ipv6.dst with
      -- address unreachable
      | .error _ => .error (.ended .returned (pkt.makeIcmpDestUnreachable 3))
      | .ok dst =>
        match getPath ⟨⟨0⟩, srcHost⟩ dst (pkt.l4SPort 0) (pkt.l4DPort 0) nextHeader
            (pkt.ipv6.tc >>> 2) with
        | (.error ec, _) =>
          if ec = .pending then .error (.ended .drop pkt)
          -- no route to destination
          else .error (.ended .returned (pkt.makeIcmpDestUnreachable 0))
        | (.ok none, _) => .error (.ended .returned (pkt.makeIcmpDestUnreachable 0))
        | (.ok (some path), mtu) => .ok ⟨pkt, srcHost, dst, nextHeader, path, mtu⟩

end PacketBuffer

/-! ### The SCION header -/

section Egress

variable (hash : IPAddress → UInt64) (hashSc : ScIPAddress → UInt64)
  (murmur32 : List UInt8 → UInt32 → UInt32)

namespace Routed

def nextHop (r : Routed) : IPEndpoint :=
  r.path.nextHopTo ⟨r.dst.host, r.pkt.l4DPort dispatcherPort⟩

def scionHeader (r : Routed) : SCION :=
  let sci := { r.pkt.sci with
    qos := r.pkt.ipv6.tc
    nh := r.nextHeader
    ptype := r.path.type
    dst := r.dst
    src := ⟨r.path.source, r.srcHost⟩ }
  let sci := { sci with
    hlen := UInt8.ofNat ((sci.size + r.path.path.length) / 4)
    plen := UInt16.ofNat (r.pkt.l4Size + r.pkt.payload.length) }
  { sci with fl := computeScionFlowLabel hashSc sci (r.pkt.l4FlowLabel murmur32) }

/-- Paths that are too long throw. -/
def buildScion (r : Routed) : Except String PacketBuffer :=
  match r.pkt.path.assign r.path.source r.path.destination r.path.type r.path.path with
  | .error e => .error e
  | .ok path => .ok { r.pkt with sci := r.scionHeader hashSc murmur32, path := path }

end Routed

namespace PacketBuffer

/-! ### The MTU -/

/-- The size of the packet without its underlay. -/
def scionSize (path : Path) (pkt : PacketBuffer) : ℕ :=
  pkt.sci.size + path.path.length + pkt.l4Size + pkt.payload.length

/-- The MTU of the path for IPv6 packets. -/
def ipMtu (path : Path) (mtu : UInt16) (pkt : PacketBuffer) : UInt64 :=
  mtu.toUInt64 + UInt64.ofNat pkt.ipv6.size - UInt64.ofNat pkt.sci.size
    - UInt64.ofNat path.path.length

/-- What becomes of a packet that is too big. -/
def rejectTooBig (path : Path) (mtu : UInt16) (nextHop : IPEndpoint) (pkt : PacketBuffer) :
    EgressResult :=
  let ipMtu := pkt.ipMtu path mtu
  if ipMtu ≥ UInt64.ofNat ipv6MinLinkMtu then
    ⟨.returned, 0, nextHop, pkt.makeIcmpPacketTooBig (min ipMtu 65535).toUInt16⟩
  else ⟨.drop, 0, nextHop, pkt⟩

/-! ### The checksum and the underlay -/

def updateEgressChecksum (mss clampedMSS : UInt16) (pkt : PacketBuffer) : PacketBuffer :=
  if pkt.l4Valid = .scmp then
    let hdrChksum :=
      pkt.sci.checksum (UInt16.ofNat (pkt.scmp.size + pkt.payload.length)) ScionProto.scmp
        + pkt.scmp.checksum
    { pkt with scmp.chksum := internetChecksum pkt.payload hdrChksum }
  else
    pkt.l4UpdateChecksum
      (pkt.sci.checksum (UInt16.ofNat pkt.l4Size) pkt.l4Valid.proto + clampedMSS.toUInt32)
      (pkt.ipv6.checksum (UInt16.ofNat pkt.l4Size) + mss.toUInt32)

def buildOuterUDP (nextHop : IPEndpoint) (pkt : PacketBuffer) : PacketBuffer :=
  let sport := pkt.l4SPort 0
  { pkt with
    outerUDP := ⟨if sport = 0 then dispatcherPort else sport, nextHop.port,
      UInt16.ofNat (pkt.outerUDP.size + pkt.sci.size + pkt.path.size + pkt.sci.plen.toNat), 0⟩
    outerUDPValid := true }

def buildOuterIP (srcHost : IPAddress) (nextHop : IPEndpoint) (pkt : PacketBuffer) :
    PacketBuffer :=
  if nextHop.host.is4 then
    { pkt with
      ipv4 := ⟨IPv4.dontFragment, pkt.ipv6.tc, 64, IPProto.udp,
        UInt16.ofNat (pkt.ipv4.size + pkt.outerUDP.len.toNat), 0, 0, srcHost, nextHop.host⟩
      ipValid := .ipv4 }
  else
    let pkt := { pkt with
      ipv6.hlim := 64
      ipv6.nh := IPProto.udp
      ipv6.plen := pkt.outerUDP.len }
    -- the addresses in the flow label are those of the packet that was translated
    { pkt with
      ipv6.fl := computeIPv6FlowLabel hash pkt.ipv6 (pkt.l4FlowLabel murmur32)
      ipv6.src := srcHost
      ipv6.dst := nextHop.host
      ipValid := .ipv6 }

def buildUnderlay (srcHost : IPAddress) (nextHop : IPEndpoint) (pkt : PacketBuffer) :
    PacketBuffer :=
  { (pkt.buildOuterUDP nextHop).buildOuterIP hash murmur32 srcHost nextHop with
    scionValid := true }

end PacketBuffer

/-- The part of `translateEgress` that begins with a path. -/
def Routed.translate (r : Routed) : Except String EgressResult :=
  match r.buildScion hashSc murmur32 with
  | .error e => .error e
  | .ok pkt =>
    if pkt.scionSize r.path > r.mtu.toNat then .ok (pkt.rejectTooBig r.path r.mtu r.nextHop)
    else
      -- the path has been assigned to the packet
      match pkt.clampMss fun _ path => (r.mtu, path) with
      | (none, pkt) => .ok ⟨.abort, 0, r.nextHop, pkt⟩
      | (some (mss, clampedMSS), pkt) =>
        let pkt := (pkt.updateEgressChecksum mss clampedMSS).buildUnderlay hash murmur32 r.srcHost
          r.nextHop
        .ok ⟨.pass, pkt.outerUDP.sport, r.nextHop, pkt⟩

def PacketBuffer.translateEgress (sourcePrefix : IPAddress) (prefixLen : UInt32)
    (getPath : GetPath) (pkt : PacketBuffer) : Except String EgressResult :=
  match pkt.route sourcePrefix prefixLen getPath with
  | .error result => .ok result
  | .ok r => r.translate hash hashSc murmur32

theorem PacketBuffer.translateEgress_of_route {sourcePrefix : IPAddress} {prefixLen : UInt32}
    {getPath : GetPath} {pkt : PacketBuffer} {r : Routed}
    (h : pkt.route sourcePrefix prefixLen getPath = .ok r) :
    pkt.translateEgress hash hashSc murmur32 sourcePrefix prefixLen getPath
      = r.translate hash hashSc murmur32 := by
  rw [translateEgress, h]

end Egress

/-! ### Before there is a path -/

namespace PacketBuffer

variable {pkt pkt' : PacketBuffer}

/-- Two packets of the same layout, which may differ in the contents of their layer 4 headers
and in their underlays. -/
structure SameLayout (pkt pkt' : PacketBuffer) : Prop where
  sci : pkt'.sci = pkt.sci
  path : pkt'.path = pkt.path
  l4Size : pkt'.l4Size = pkt.l4Size
  payload : pkt'.payload.length = pkt.payload.length
  packet : pkt'.packet = pkt.packet
  endOfHeader : pkt'.endOfHeader = pkt.endOfHeader
  buffer : pkt'.buffer.length = pkt.buffer.length
  stunValid : pkt'.stunValid = pkt.stunValid

namespace SameLayout

variable {a b c : PacketBuffer}

theorem refl (a : PacketBuffer) : SameLayout a a := ⟨rfl, rfl, rfl, rfl, rfl, rfl, rfl, rfl⟩

theorem trans (hab : SameLayout a b) (hbc : SameLayout b c) : SameLayout a c where
  sci := hbc.sci.trans hab.sci
  path := hbc.path.trans hab.path
  l4Size := hbc.l4Size.trans hab.l4Size
  payload := hbc.payload.trans hab.payload
  packet := hbc.packet.trans hab.packet
  endOfHeader := hbc.endOfHeader.trans hab.endOfHeader
  buffer := hbc.buffer.trans hab.buffer
  stunValid := hbc.stunValid.trans hab.stunValid

theorem placed (hab : SameLayout a b) (h : a.Placed) : b.Placed where
  offset_le := by
    rw [hab.packet, hab.endOfHeader]
    exact h.offset_le
  le_end := by
    rw [hab.packet, hab.endOfHeader]
    exact h.le_end
  end_le := by
    rw [hab.packet, hab.buffer]
    exact h.end_le

end SameLayout

theorem length_payload (hp : pkt.Placed) :
    pkt.payload.length = pkt.packet.size - (pkt.endOfHeader - pkt.packet.offset) := by
  have hoff := hp.offset_le
  have hend := hp.le_end
  have hbuf := hp.end_le
  exact Records.length_slice (by omega)

/-- The identifier is stored within the payload. -/
theorem length_storeId (pkt : PacketBuffer) : pkt.storeId.buffer.length = pkt.buffer.length := by
  rw [storeId]
  split_ifs with hlong
  · rw [payload, Records.slice, List.length_take, List.length_drop] at hlong
    exact Records.length_overwrite (by rw [leBytes, List.length_reverse, length_beBytes]; omega)
  · rfl

theorem length_payload_storeId (pkt : PacketBuffer) :
    pkt.storeId.payload.length = pkt.payload.length := by
  have hbuf := length_storeId pkt
  have hend : pkt.storeId.endOfHeader = pkt.endOfHeader := by
    rw [storeId]
    split_ifs <;> rfl
  have hpacket : pkt.storeId.packet = pkt.packet := by
    rw [storeId]
    split_ifs <;> rfl
  rw [payload, payload, Records.slice, Records.slice, List.length_take, List.length_take,
    List.length_drop, List.length_drop, hbuf, hend, hpacket]

/-- A packet whose ICMP message became one of SCMP. -/
structure ToScmp (pkt pkt' : PacketBuffer) : Prop where
  ipv6 : pkt'.ipv6 = pkt.ipv6
  l4Valid : pkt'.l4Valid = .scmp
  isKnown : pkt'.scmp.msg.isKnown = true
  layout : pkt.l4Valid = .icmp → SameLayout pkt pkt'

/-- All messages of ICMP that are translated are of the size of their translations. -/
theorem translateIcmpToScmp_spec (pkt : PacketBuffer) :
    (pkt.translateIcmpToScmp.1 = .drop ∧ pkt.translateIcmpToScmp.2 = pkt) ∨
      pkt.translateIcmpToScmp.1 = .pass ∧ ToScmp pkt pkt.translateIcmpToScmp.2 := by
  have hsize : pkt.l4Valid = .icmp → pkt.l4Size = 8 := by
    intro hicmp
    rw [PacketBuffer.l4Size, hicmp]
    rfl
  rw [translateIcmpToScmp]
  dsimp only
  split_ifs with hdst htooBig hmtu htime hparam hrequest hreply
  · exact .inr ⟨rfl, rfl, rfl, rfl, fun h => ⟨rfl, rfl, (hsize h).symm, rfl, rfl, rfl, rfl, rfl⟩⟩
  · exact .inl ⟨rfl, rfl⟩
  · exact .inr ⟨rfl, rfl, rfl, rfl, fun h => ⟨rfl, rfl, (hsize h).symm, rfl, rfl, rfl, rfl, rfl⟩⟩
  · exact .inl ⟨rfl, rfl⟩
  · exact .inl ⟨rfl, rfl⟩
  · have hstore : SameLayout pkt pkt.storeId ∧ pkt.storeId.ipv6 = pkt.ipv6 := by
      have hlen := length_payload_storeId pkt
      have hbuf := length_storeId pkt
      rw [storeId] at hlen hbuf ⊢
      split_ifs at hlen hbuf ⊢
      · exact ⟨⟨rfl, rfl, rfl, hlen, rfl, rfl, hbuf, rfl⟩, rfl⟩
      · exact ⟨SameLayout.refl pkt, rfl⟩
    exact .inr ⟨rfl, hstore.2, rfl, rfl, fun h => ⟨hstore.1.sci, hstore.1.path,
      (hsize h).symm, hstore.1.payload, hstore.1.packet, hstore.1.endOfHeader, hstore.1.buffer,
      hstore.1.stunValid⟩⟩
  · exact .inr ⟨rfl, rfl, rfl, rfl, fun h => ⟨rfl, rfl, (hsize h).symm, rfl, rfl, rfl, rfl, rfl⟩⟩
  · exact .inl ⟨rfl, rfl⟩

/-- A packet of the protocol that the SCION header will name. -/
structure L4Translated (pkt : PacketBuffer) (proto : ScionProto) (pkt' : PacketBuffer) :
    Prop where
  ipv6 : pkt'.ipv6 = pkt.ipv6
  proto : proto = pkt'.l4Valid.proto
  layout : SameLayout pkt pkt'

theorem translateL4_spec {verdict : Verdict} {proto : ScionProto}
    (h : pkt.translateL4 = (verdict, proto, pkt'))
    (hverdict : ¬(verdict = .abort ∨ verdict = .drop)) :
    verdict = .pass ∧ L4Translated pkt proto pkt' := by
  rw [translateL4] at h
  split_ifs at h with hicmp
  · obtain ⟨hdrop, -⟩ | ⟨hpass, hscmp⟩ := translateIcmpToScmp_spec pkt
    · have hv : verdict = .drop := (congrArg Prod.fst h).symm.trans hdrop
      exact absurd (.inr hv) hverdict
    · obtain rfl : pkt.translateIcmpToScmp.2 = pkt' := congrArg (·.2.2) h
      refine ⟨(congrArg Prod.fst h).symm.trans hpass, hscmp.ipv6, ?_, hscmp.layout hicmp⟩
      rw [hscmp.l4Valid]
      exact (congrArg (·.2.1) h).symm
  · cases h
    exact ⟨rfl, rfl, rfl, SameLayout.refl pkt⟩

/-- Where the members of a routed packet come from. -/
structure RoutedFrom (sourcePrefix : IPAddress) (prefixLen : UInt32) (getPath : GetPath)
    (pkt : PacketBuffer) (r : Routed) : Prop where
  ipValid : pkt.ipValid = .ipv6
  translated : pkt.translateL4 = (.pass, r.nextHeader, r.pkt)
  srcHost : r.srcHost = translateIPv6Prefix pkt.ipv6.src sourcePrefix prefixLen
  dst : unmapFromIPv6 r.pkt.ipv6.dst = .ok r.dst
  path : getPath ⟨⟨0⟩, r.srcHost⟩ r.dst (r.pkt.l4SPort 0) (r.pkt.l4DPort 0) r.nextHeader
    (r.pkt.ipv6.tc >>> 2) = (.ok (some r.path), r.mtu)

theorem routedFrom {sourcePrefix : IPAddress} {prefixLen : UInt32} {getPath : GetPath}
    {r : Routed} (h : pkt.route sourcePrefix prefixLen getPath = .ok r) :
    RoutedFrom sourcePrefix prefixLen getPath pkt r := by
  rw [route] at h
  split_ifs at h with hip
  rcases htranslated : pkt.translateL4 with ⟨verdict, proto, pkt'⟩
  rw [htranslated] at h
  dsimp only at h
  split_ifs at h with hverdict
  obtain ⟨rfl, -⟩ := translateL4_spec htranslated hverdict
  cases hdst : unmapFromIPv6 pkt'.ipv6.dst with
  | error ec =>
    rw [hdst] at h
    cases h
  | ok dst =>
    rw [hdst] at h
    dsimp only at h
    split at h
    · split_ifs at h
    · cases h
    · next hpath =>
      cases h
      exact ⟨not_not.mp hip, htranslated, rfl, hdst, hpath⟩

/-- Nothing passes without a path. -/
theorem not_pass_of_route {sourcePrefix : IPAddress} {prefixLen : UInt32} {getPath : GetPath}
    {result : EgressResult} (h : pkt.route sourcePrefix prefixLen getPath = .error result) :
    result.verdict ≠ .pass := by
  rw [route] at h
  split_ifs at h with hip
  · cases h
    nofun
  rcases htranslated : pkt.translateL4 with ⟨verdict, proto, pkt'⟩
  rw [htranslated] at h
  dsimp only at h
  split_ifs at h with hverdict
  · cases h
    rintro rfl
    exact absurd hverdict (by decide)
  cases hdst : unmapFromIPv6 pkt'.ipv6.dst with
  | error ec =>
    rw [hdst] at h
    cases h
    nofun
  | ok dst =>
    rw [hdst] at h
    dsimp only at h
    split at h
    · split_ifs at h <;> cases h <;> nofun
    · cases h
      nofun
    · cases h

theorem RoutedFrom.l4 {sourcePrefix : IPAddress} {prefixLen : UInt32} {getPath : GetPath}
    {r : Routed} (h : RoutedFrom sourcePrefix prefixLen getPath pkt r) :
    L4Translated pkt r.nextHeader r.pkt :=
  (translateL4_spec h.translated (by decide)).2

end PacketBuffer

/-! ### With a path -/

namespace PacketBuffer

variable {hash : IPAddress → UInt64} {murmur32 : List UInt8 → UInt32 → UInt32}
  {pkt pkt' : PacketBuffer}

/-- Two packets with the same bytes and the same SCMP message, if it is one. -/
structure SameMessage (pkt pkt' : PacketBuffer) : Prop where
  l4Valid : pkt'.l4Valid = pkt.l4Valid
  buffer : pkt'.buffer = pkt.buffer
  msg : pkt'.scmp.msg = pkt.scmp.msg

theorem SameMessage.trans {a b c : PacketBuffer} (hab : SameMessage a b) (hbc : SameMessage b c) :
    SameMessage a c :=
  ⟨hbc.l4Valid.trans hab.l4Valid, hbc.buffer.trans hab.buffer, hbc.msg.trans hab.msg⟩

/-- Clamping changes the value of an option that stays. -/
theorem sameLayout_clampMss {mtu : UInt16} {m : UInt16 × UInt16}
    (h : pkt.clampMss (fun _ path => (mtu, path)) = (some m, pkt')) :
    SameLayout pkt pkt' ∧ SameMessage pkt pkt' := by
  rw [clampMss] at h
  dsimp only at h
  split_ifs at h with hmss hroom
  · cases h
  · cases h
    exact ⟨⟨rfl, rfl, rfl, rfl, rfl, rfl, rfl, rfl⟩, rfl, rfl, rfl⟩
  · cases h
    exact ⟨SameLayout.refl pkt, rfl, rfl, rfl⟩

theorem sameLayout_egressChecksum (mss clampedMSS : UInt16) (pkt : PacketBuffer) :
    SameLayout pkt (pkt.updateEgressChecksum mss clampedMSS) ∧
      SameMessage pkt (pkt.updateEgressChecksum mss clampedMSS) := by
  obtain ⟨ipValid, outerUDPValid, stunValid, scionValid, l4Valid, ipv4, ipv6, outerUDP, stun, sci,
    path, icmp, scmp, tcp, udp, buffer, packet, endOfHeader⟩ := pkt
  cases l4Valid <;> exact ⟨⟨rfl, rfl, rfl, rfl, rfl, rfl, rfl, rfl⟩, rfl, rfl, rfl⟩

theorem sameLayout_underlay (srcHost : IPAddress) (nextHop : IPEndpoint) (pkt : PacketBuffer) :
    SameLayout pkt (pkt.buildUnderlay hash murmur32 srcHost nextHop) ∧
      SameMessage pkt (pkt.buildUnderlay hash murmur32 srcHost nextHop) := by
  rw [buildUnderlay, buildOuterIP]
  split_ifs <;> exact ⟨⟨rfl, rfl, rfl, rfl, rfl, rfl, rfl, rfl⟩, rfl, rfl, rfl⟩

/-- The underlay of a packet. -/
structure Underlaid (srcHost : IPAddress) (nextHop : IPEndpoint) (pkt : PacketBuffer) : Prop where
  scionValid : pkt.scionValid = true
  outerUDPValid : pkt.outerUDPValid = true
  len : pkt.outerUDP.len
    = UInt16.ofNat (8 + pkt.sci.size + pkt.path.size + pkt.sci.plen.toNat)
  chksum : pkt.outerUDP.chksum = 0
  ipv4 : nextHop.host.is4 = true → pkt.ipValid = .ipv4 ∧ pkt.ipv4.src = srcHost ∧
    pkt.ipv4.dst = nextHop.host ∧ pkt.ipv4.len = UInt16.ofNat (20 + pkt.outerUDP.len.toNat)
  ipv6 : nextHop.host.is4 = false → pkt.ipValid = .ipv6 ∧ pkt.ipv6.src = srcHost ∧
    pkt.ipv6.dst = nextHop.host ∧ pkt.ipv6.plen = pkt.outerUDP.len

theorem underlaid (srcHost : IPAddress) (nextHop : IPEndpoint) (pkt : PacketBuffer) :
    Underlaid srcHost nextHop (pkt.buildUnderlay hash murmur32 srcHost nextHop) := by
  rw [buildUnderlay, buildOuterIP]
  split_ifs with h4
  · exact ⟨rfl, rfl, rfl, rfl, fun _ => ⟨rfl, rfl, rfl, rfl⟩, fun h6 => absurd (h4.symm.trans h6)
      (by decide)⟩
  · exact ⟨rfl, rfl, rfl, rfl, fun h4' => absurd h4' h4, fun _ => ⟨rfl, rfl, rfl, rfl⟩⟩

end PacketBuffer

namespace Routed

variable {hash : IPAddress → UInt64} {hashSc : ScIPAddress → UInt64}
  {murmur32 : List UInt8 → UInt32 → UInt32} {r : Routed} {built : PacketBuffer}
  {result : EgressResult}

open PacketBuffer

/-- A packet with its SCION header. -/
structure Built (hashSc : ScIPAddress → UInt64) (murmur32 : List UInt8 → UInt32 → UInt32)
    (r : Routed) (built : PacketBuffer) : Prop where
  length_le : r.path.path.length ≤ RawPathContents.maxSize
  encoded : built.path.encoded = r.path.path
  size : built.path.size = r.path.path.length
  eq : built = { r.pkt with sci := r.scionHeader hashSc murmur32, path := built.path }

theorem built_of_buildScion (h : r.buildScion hashSc murmur32 = .ok built) :
    Built hashSc murmur32 r built := by
  rw [buildScion] at h
  cases hassign : r.pkt.path.assign r.path.source r.path.destination r.path.type r.path.path with
  | error e =>
    rw [hassign] at h
    cases h
  | ok path =>
    rw [hassign] at h
    cases h
    obtain ⟨hencoded, hsize, hlen⟩ := RawPathContents.encoded_of_assign hassign
    exact ⟨hlen, hencoded, hsize, rfl⟩

/-- The size of the packet that will be sent, without its underlay. -/
def size (r : Routed) : ℕ :=
  12 + r.dst.size + (8 + r.srcHost.size) + r.path.path.length + r.pkt.l4Size
    + r.pkt.payload.length

theorem scionSize_of_built (h : Built hashSc murmur32 r built) :
    built.scionSize r.path = r.size := by
  rw [h.eq]
  rfl

/-- What has been done to a packet that passes. -/
structure PassedAs (hash : IPAddress → UInt64) (hashSc : ScIPAddress → UInt64)
    (murmur32 : List UInt8 → UInt32 → UInt32) (r : Routed) (result : EgressResult) : Prop where
  length_le : r.path.path.length ≤ RawPathContents.maxSize
  size_le : r.size ≤ r.mtu.toNat
  sci : result.pkt.sci = r.scionHeader hashSc murmur32
  path_size : result.pkt.path.size = r.path.path.length
  encoded : result.pkt.path.encoded = r.path.path
  message : SameMessage r.pkt result.pkt
  packet : result.pkt.packet = r.pkt.packet
  endOfHeader : result.pkt.endOfHeader = r.pkt.endOfHeader
  l4Size : result.pkt.l4Size = r.pkt.l4Size
  payload : result.pkt.payload.length = r.pkt.payload.length
  stunValid : result.pkt.stunValid = r.pkt.stunValid
  placed : r.pkt.Placed → result.pkt.Placed
  underlaid : Underlaid r.srcHost r.nextHop result.pkt

theorem passedAs (h : r.translate hash hashSc murmur32 = .ok result)
    (hpass : result.verdict = .pass) : PassedAs hash hashSc murmur32 r result := by
  rw [translate] at h
  cases hbuild : r.buildScion hashSc murmur32 with
  | error e =>
    rw [hbuild] at h
    cases h
  | ok built =>
    rw [hbuild] at h
    dsimp only at h
    have hbuilt := built_of_buildScion hbuild
    split_ifs at h with hbig
    · cases h
      rw [rejectTooBig] at hpass
      split_ifs at hpass
    · rcases hclamp : built.clampMss fun _ path => (r.mtu, path) with ⟨_ | m, clamped⟩
      · rw [hclamp] at h
        cases h
        cases hpass
      · rw [hclamp] at h
        obtain ⟨hlayout, hsame⟩ := sameLayout_clampMss hclamp
        obtain ⟨hlayout', hsame'⟩ := sameLayout_egressChecksum m.1 m.2 clamped
        obtain ⟨hlayout'', hsame''⟩ := @sameLayout_underlay hash murmur32 r.srcHost r.nextHop
          (clamped.updateEgressChecksum m.1 m.2)
        have hall := (hlayout.trans hlayout').trans hlayout''
        have hfirst : SameMessage r.pkt built := by
          rw [hbuilt.eq]
          exact ⟨rfl, rfl, rfl⟩
        have hsci : built.sci = r.scionHeader hashSc murmur32 := by rw [hbuilt.eq]
        cases h
        refine ⟨hbuilt.length_le, ?_, hall.sci.trans hsci,
          (congrArg RawPathContents.size hall.path).trans hbuilt.size,
          (congrArg RawPathContents.encoded hall.path).trans hbuilt.encoded,
          ((hfirst.trans hsame).trans hsame').trans hsame'',
          hall.packet.trans (by rw [hbuilt.eq]), hall.endOfHeader.trans (by rw [hbuilt.eq]),
          hall.l4Size.trans (by rw [hbuilt.eq]; rfl), hall.payload.trans (by rw [hbuilt.eq]; rfl),
          hall.stunValid.trans (by rw [hbuilt.eq]),
          fun hp => hall.placed (by rw [hbuilt.eq]; exact ⟨hp.1, hp.2, hp.3⟩), underlaid _ _ _⟩
        rw [← scionSize_of_built hbuilt]
        exact Nat.not_lt.mp hbig

end Routed

end Scion
