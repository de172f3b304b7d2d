/-
Datagrams between two translators (`scitra/translator.hpp`, `scitra-tun/scitra_tun.cpp`).

One translator makes a SCION packet of a datagram from its TUN interface, the routers on the way
change the path, and the other one makes a datagram for its own TUN interface of what arrives.

* `Gateway` — what a translator is configured with; `forward` and `deliver` are its directions;
* `PathChanged` — what routers may do to a packet;
* `exists_sentAs` — the packet that a datagram is sent as;
* `deliver_crossed_iff` — which datagrams come out at the other end, and as what;
* `deliver_reply_iff` — and which replies to them;
* `verified_deliver_iff` — whether the checksum of what comes out is right.
-/
import Scion.ChecksumUpdate
import Scion.Egress
import Scion.IngressHeaders
import Scion.PacketAssembly
import Scion.WordSums

namespace Scion

open BigEndian Codec OnesComplement PacketBuffer PacketParser ReadStream

/-! ### Translators -/

/-- A path of the local AS that the length field of a SCION header has room for. -/
structure Path.Usable (localAS : IsdAsn) (src dst : IPAddress) (path : Path) : Prop where
  source : path.source = localAS
  words : path.path.length % 4 = 0
  length_le : 28 + dst.size + src.size + path.path.length ≤ 1020

/-- A translator. Its public address is mapped when it starts, and it is given paths of its own
AS. -/
structure Gateway where
  localAS : IsdAsn
  publicIP : IPAddress
  mappedIP : IPAddress
  tunIP : IPAddress
  getPath : GetPath
  getMTU : GetMtu
  mapped : mapToIPv6 ⟨localAS, publicIP⟩ = .ok mappedIP
  tunIs6 : tunIP.is4 = false
  usable : ∀ src dst sport dport proto tc path mtu,
    getPath src dst sport dport proto tc = (.ok (some path), mtu) →
      path.Usable localAS src.host dst.host

namespace PacketBuffer

/-- The validation of AS-internal packets in `translateScionToIP`. -/
def internalAccepted (from_ : IPEndpoint) (pkt : PacketBuffer) : Bool :=
  pkt.path.type != PathType.empty ||
    (pkt.sci.src.host == from_.host && pkt.l4SPort dispatcherPort == from_.port)

end PacketBuffer

namespace Gateway

section Directions

variable (hash : IPAddress → UInt64) (hashSc : ScIPAddress → UInt64)
  (murmur32 : List UInt8 → UInt32 → UInt32)

/-- From the TUN interface to the underlay. The socket has no mapped address. -/
def forward (g : Gateway) (buf : PacketBuffer) (raw : List UInt8) :
    Option (IPEndpoint × List UInt8) :=
  let (ec, pkt) := buf.receive 1024 raw false none
  if ec ≠ .ok then none
  else
    match pkt.translateEgress hash hashSc murmur32 g.publicIP replaceAddress g.getPath with
    | .error _ => none
    | .ok result =>
      if result.verdict = .pass then
        match (result.pkt.emitPacket true).1 with
        | .ok sent => some (result.nextHop, sent)
        | .error _ => none
      else none

/-- From the underlay to the TUN interface, for a socket bound to `port`. STUN messages are for
the socket. -/
def deliver (g : Gateway) (port : UInt16) (buf : PacketBuffer) (from_ : IPEndpoint)
    (raw : List UInt8) : Option (List UInt8) :=
  let (ec, pkt) := buf.receive 4 raw true none
  if ec ≠ .ok ∨ pkt.stunValid = true then none
  else if !pkt.portAccepted port then none
  else if !pkt.internalAccepted from_ then none
  else
    match pkt.translateIngress hash murmur32 g.mappedIP g.tunIP replaceAddress g.getMTU with
    | (.pass, pkt) => (pkt.emitPacket false).1.toOption
    | (_, _) => none

end Directions

end Gateway

/-! ### The way -/

/-- The size of a host address of a given type. -/
def hostLen (type : ℕ) : ℕ := 4 * (type % 4 + 1)

/-- Where the path begins. -/
def pathBegin (bs : List UInt8) : ℕ :=
  28 + hostLen ((bs.getD 9 0).toNat / 16) + hostLen ((bs.getD 9 0).toNat % 16)

/-- Where the path ends. -/
def pathEnd (bs : List UInt8) : ℕ := 4 * (bs.getD 5 0).toNat

/-- Routers change the path and nothing else. -/
structure PathChanged (sent arrived : List UInt8) : Prop where
  length : arrived.length = sent.length
  front : arrived.take (pathBegin sent) = sent.take (pathBegin sent)
  behind : arrived.drop (pathEnd sent) = sent.drop (pathEnd sent)

instance (sent arrived : List UInt8) : Decidable (PathChanged sent arrived) :=
  decidable_of_iff (arrived.length = sent.length ∧
      arrived.take (pathBegin sent) = sent.take (pathBegin sent) ∧
      arrived.drop (pathEnd sent) = sent.drop (pathEnd sent))
    ⟨fun h => ⟨h.1, h.2.1, h.2.2⟩, fun h => ⟨h.1, h.2, h.3⟩⟩

theorem pathBegin_eq (sci : SCION) (rest : List UInt8) : pathBegin (sci.bytes ++ rest) = sci.size := by
  have htypes : (sci.bytes ++ rest).getD 9 0
      = UInt8.ofNat (sci.dst.host.type.toNat * 16 + sci.src.host.type.toNat) := by
    simp [SCION.bytes, beBytes]
  rw [pathBegin, htypes, SCION.size, ScIPAddress.size, ScIPAddress.size, IsdAsn.size, IsdAsn.size,
    IPAddress.size, IPAddress.size, IPAddress.type, IPAddress.type]
  cases sci.dst.host.is4 <;> cases sci.src.host.is4 <;> rfl

theorem pathEnd_eq (sci : SCION) (rest : List UInt8) :
    pathEnd (sci.bytes ++ rest) = 4 * sci.hlen.toNat := by
  have hlen : (sci.bytes ++ rest).getD 5 0 = sci.hlen := by
    simp [SCION.bytes, beBytes]
  rw [pathEnd, hlen]

/-- A packet that arrives has the same headers and another path of the same length. -/
theorem PathChanged.exists_path {sci : SCION} {path rest arrived : List UInt8}
    (h : PathChanged (sci.bytes ++ path ++ rest) arrived) (hframed : Framed sci path) :
    ∃ path', path'.length = path.length ∧ arrived = sci.bytes ++ path' ++ rest := by
  have hlength := h.length
  have hfront := h.front
  have hbehind := h.behind
  have hframe := hframed.length_eq
  have hsci := sci.length_bytes
  rw [List.append_assoc, pathBegin_eq, List.take_left' hsci] at hfront
  rw [List.append_assoc, pathEnd_eq, ← List.append_assoc,
    List.drop_left' (by rw [List.length_append, hsci, hframe])] at hbehind
  rw [List.length_append, List.length_append, hsci] at hlength
  refine ⟨(arrived.take (sci.size + path.length)).drop sci.size, ?_, ?_⟩
  · rw [List.length_drop, List.length_take]
    omega
  · have hsplit : arrived.take (sci.size + path.length)
        = sci.bytes ++ (arrived.take (sci.size + path.length)).drop sci.size := by
      conv_lhs => rw [← List.take_append_drop sci.size (arrived.take (sci.size + path.length))]
      rw [List.take_take, min_eq_left (Nat.le_add_right _ _), hfront]
    rw [← hsplit, ← hframe, ← hbehind, List.take_append_drop]

/-! ### Emission -/

namespace PacketBuffer

section Emission

variable {noUnderlay : Bool} {pkt : PacketBuffer}

/-- Headers of the length that was measured are emitted in front of the payload. -/
theorem emitPacket_of_length (hw : pkt.Writable noUnderlay) (hp : pkt.Placed)
    (hroom : pkt.measureHeaders noUnderlay ≤ pkt.endOfHeader)
    (hlen : (pkt.emitted noUnderlay).length = pkt.measureHeaders noUnderlay) :
    (pkt.emitPacket noUnderlay).1 = .ok (pkt.emitted noUnderlay ++ pkt.payload) := by
  have hgap : pkt.gap noUnderlay = [] := by
    rw [gap, hlen, List.drop_eq_nil_iff, Records.slice, List.length_take]
    exact Nat.min_le_left _ _
  rw [emitPacket_ok hw hp hroom hlen.le, hgap, List.nil_append]

/-- A transport header that is written in the size it has. -/
structure L4Sized (pkt : PacketBuffer) : Prop where
  length : pkt.l4Bytes.length = pkt.l4Size
  isKnown : pkt.l4Valid = .scmp → pkt.scmp.msg.isKnown = true

/-- A SCION packet without its underlay. -/
theorem emitPacket_scion (hstun : pkt.stunValid = false) (hscion : pkt.scionValid = true)
    (hpath : pkt.PathSized) (hl4 : pkt.L4Sized) (hp : pkt.Placed)
    (hroom : pkt.sci.size + pkt.path.size + pkt.l4Size ≤ pkt.endOfHeader) :
    (pkt.emitPacket true).1
      = .ok (pkt.sci.bytes ++ pkt.path.encoded ++ pkt.l4Bytes ++ pkt.payload) := by
  have hbytes : pkt.emitted true = pkt.sci.bytes ++ pkt.path.encoded ++ pkt.l4Bytes := by
    rw [emitted, underlayBytes, innerBytes, hstun, hscion, scionBytes]
    rfl
  have hmeasure : pkt.measureHeaders true = pkt.sci.size + pkt.path.size + pkt.l4Size := by
    rw [measureHeaders, hscion]
    simp
  have hsized : pkt.path.encoded.length = pkt.path.size := hpath
  rw [← hbytes]
  refine emitPacket_of_length ⟨by simp, hl4.isKnown⟩ hp (by omega) ?_
  rw [hbytes, hmeasure, List.length_append, List.length_append, SCION.length_bytes, hsized,
    hl4.length]

/-- An IPv6 packet for the TUN interface. -/
theorem emitPacket_ipv6 (hstun : pkt.stunValid = false) (hscion : pkt.scionValid = false)
    (houter : pkt.outerUDPValid = false) (hip : pkt.ipValid = .ipv6) (h6 : pkt.ipv6.Is6)
    (hl4 : pkt.L4Sized) (hp : pkt.Placed) (hroom : 40 + pkt.l4Size ≤ pkt.endOfHeader) :
    (pkt.emitPacket false).1 = .ok (pkt.ipv6.bytes ++ pkt.l4Bytes ++ pkt.payload) := by
  have hbytes : pkt.emitted false = pkt.ipv6.bytes ++ pkt.l4Bytes := by
    rw [emitted, underlayBytes, innerBytes, hstun, hscion, houter, ipBytes, hip]
    simp [bytesIf]
  have hmeasure : pkt.measureHeaders false = 40 + pkt.l4Size := by
    rw [measureHeaders, hscion, houter, hip]
    simp [IPv6.size]
  have hwritable : pkt.IPWritable := ⟨fun h => absurd (hip.symm.trans h) (by decide), fun _ => h6⟩
  rw [← hbytes]
  refine emitPacket_of_length ⟨fun _ => hwritable, hl4.isKnown⟩ hp (by omega) ?_
  rw [hbytes, hmeasure, List.length_append, IPv6.length_bytes h6, hl4.length]

/-- Nothing is clamped in a datagram. -/
theorem clampMss_udp {getMTU : GetMtu} (hudp : pkt.l4Valid = .udp) :
    pkt.clampMss getMTU = (some (0, 0), pkt) := by
  rw [clampMss, if_neg (by rw [hudp]; exact fun h => by cases h.1)]

theorem l4Sized_of_udp (h : pkt.l4Valid = .udp) : pkt.L4Sized := by
  refine ⟨?_, fun hscmp => by rw [h] at hscmp; cases hscmp⟩
  rw [l4Bytes, l4Size, h]
  exact UDP.length_bytes _

end Emission

end PacketBuffer

/-! ### From the TUN interface -/

namespace Routed

variable {hash : IPAddress → UInt64} {hashSc : ScIPAddress → UInt64}
  {murmur32 : List UInt8 → UInt32 → UInt32} {r : Routed} {result : EgressResult}

theorem size_scionHeader (hashSc : ScIPAddress → UInt64)
    (murmur32 : List UInt8 → UInt32 → UInt32) (r : Routed) :
    (r.scionHeader hashSc murmur32).size = 28 + r.dst.host.size + r.srcHost.size := by
  show 12 + (8 + r.dst.host.size) + (8 + r.srcHost.size) = _
  omega

/-- The length of a usable path can be stored. -/
theorem framed_scionHeader (hashSc : ScIPAddress → UInt64)
    (murmur32 : List UInt8 → UInt32 → UInt32) {r : Routed} {localAS : IsdAsn}
    (husable : r.path.Usable localAS r.srcHost r.dst.host)
    (hle : r.path.path.length ≤ RawPathContents.maxSize)
    (hhbh : r.nextHeader ≠ ScionProto.hbhOpt) (he2e : r.nextHeader ≠ ScionProto.e2eOpt) :
    Framed (r.scionHeader hashSc murmur32) r.path.path := by
  have hsize : ∀ ip : IPAddress, ip.size % 4 = 0 := by
    intro ip
    rw [IPAddress.size]
    split_ifs <;> rfl
  have hdst := hsize r.dst.host
  have hsrc := hsize r.srcHost
  have hwords := husable.words
  have hlen := husable.length_le
  have hhlen : (r.scionHeader hashSc murmur32).hlen
      = UInt8.ofNat ((28 + r.dst.host.size + r.srcHost.size + r.path.path.length) / 4) := by
    rw [← size_scionHeader hashSc murmur32 r]
    rfl
  refine ⟨?_, hle, hhbh, he2e⟩
  rw [hhlen, size_scionHeader, UInt8.toNat_ofNat']
  omega

/-- The checksum of a datagram for the pseudo header of SCION. -/
def egressChksum (hashSc : ScIPAddress → UInt64) (murmur32 : List UInt8 → UInt32 → UInt32)
    (r : Routed) : UInt16 :=
  updateInternetChecksum r.pkt.udp.chksum
    ((r.scionHeader hashSc murmur32).checksum 8 ScionProto.udp) (r.pkt.ipv6.checksum 8)

/-- Only the checksum of a datagram changes. -/
theorem udp_of_translate (hudp : r.pkt.l4Valid = .udp)
    (h : r.translate hash hashSc murmur32 = .ok result) (hpass : result.verdict = .pass) :
    result.pkt.l4Valid = .udp ∧
      result.pkt.udp = { r.pkt.udp with chksum := r.egressChksum hashSc murmur32 } := by
  rw [translate] at h
  cases hbuild : r.buildScion hashSc murmur32 with
  | error e =>
    rw [hbuild] at h
    cases h
  | ok built =>
    rw [hbuild] at h
    dsimp only at h
    have hbuilt := built_of_buildScion hbuild
    have hvalid : built.l4Valid = .udp := by
      rw [hbuilt.eq]
      exact hudp
    split_ifs at h with hbig
    · cases h
      rw [rejectTooBig] at hpass
      split_ifs at hpass
    · rw [clampMss_udp hvalid] at h
      cases h
      have hsize : built.l4Size = 8 := by
        rw [PacketBuffer.l4Size, hvalid]
        rfl
      have hupdate : built.updateEgressChecksum 0 0 = { built with
          udp.chksum := updateInternetChecksum built.udp.chksum
            (built.sci.checksum 8 ScionProto.udp) (built.ipv6.checksum 8) } := by
        rw [updateEgressChecksum, if_neg (by rw [hvalid]; decide), l4UpdateChecksum, hvalid, hsize]
        simp [L4Type.proto, ScionProto.udp, IPProto.udp]
      rw [hupdate, buildUnderlay, buildOuterIP]
      have hmembers : built.udp = r.pkt.udp ∧ built.ipv6 = r.pkt.ipv6 ∧
          built.sci = r.scionHeader hashSc murmur32 := by
        rw [hbuilt.eq]
        exact ⟨rfl, rfl, rfl⟩
      obtain ⟨hu, hi, hs⟩ := hmembers
      rw [egressChksum, ← hu, ← hi, ← hs]
      split_ifs <;> exact ⟨hvalid, rfl⟩

end Routed

namespace Gateway

variable {hash : IPAddress → UInt64} {hashSc : ScIPAddress → UInt64}
  {murmur32 : List UInt8 → UInt32 → UInt32} {g : Gateway} {buf : PacketBuffer} {ip : IPv6}
  {udp : UDP} {payload sent : List UInt8} {nextHop : IPEndpoint}

/-- A datagram from the TUN interface. -/
structure IsDatagram (ip : IPv6) (udp : UDP) (payload : List UInt8) : Prop where
  fits : ip.Fits
  nh : ip.nh = IPProto.udp
  noCookie : ¬HasCookie udp payload

/-- The packet that a datagram is sent as. -/
structure SentAs (g : Gateway) (ip : IPv6) (udp : UDP) (payload sent : List UInt8) where
  sci : SCION
  path : List UInt8
  chksum : UInt16
  framed : Framed sci path
  qos : sci.qos = ip.tc
  nh : sci.nh = ScionProto.udp
  src : sci.src = ⟨g.localAS, g.publicIP⟩
  dst : unmapFromIPv6 ip.dst = .ok sci.dst
  chksum_eq : chksum
    = updateInternetChecksum udp.chksum (sci.checksum 8 ScionProto.udp) (ip.checksum 8)
  short : 8 + payload.length < 65536
  plen : sci.plen = UInt16.ofNat (8 + payload.length)
  sent_eq : sent = sci.bytes ++ path ++ ({ udp with chksum := chksum } : UDP).bytes ++ payload

/-- The buffer that has received a datagram. -/
def gotDatagram (buf : PacketBuffer) (ip : IPv6) (udp : UDP) (payload : List UInt8) :
    PacketBuffer :=
  gotIPv6 1024 ip udp.bytes payload (withDatagram udp) buf

theorem receive_datagram (hdatagram : IsDatagram ip udp payload)
    (hfits : (ip.bytes ++ udp.bytes ++ payload).length ≤ buf.buffer.length - 1024) :
    buf.receive 1024 (ip.bytes ++ udp.bytes ++ payload) false none
      = (.ok, gotDatagram buf ip udp payload) := by
  have hstun : detectStun (udp.bytes ++ payload) = false := by
    rw [Bool.eq_false_iff, Ne, detectStun_udp]
    exact hdatagram.noCookie
  have hl4 := readsPart_datagram ip.src udp
  rw [← hdatagram.nh] at hl4
  exact receive_ipv6 hdatagram.fits hstun hl4 (keepsRaw_withDatagram udp) hfits

theorem exists_sentAs (hdatagram : IsDatagram ip udp payload)
    (hfits : (ip.bytes ++ udp.bytes ++ payload).length ≤ buf.buffer.length - 1024)
    (hsent : g.forward hash hashSc murmur32 buf (ip.bytes ++ udp.bytes ++ payload)
      = some (nextHop, sent)) :
    Nonempty (SentAs g ip udp payload sent) := by
  rw [forward, receive_datagram hdatagram hfits] at hsent
  have hplaced : (gotDatagram buf ip udp payload).Placed :=
    placed_gotIPv6 (keepsRaw_withDatagram udp) hfits
  have hpayload : (gotDatagram buf ip udp payload).payload = payload :=
    payload_gotIPv6 (keepsRaw_withDatagram udp) hfits
  have hend : (gotDatagram buf ip udp payload).endOfHeader
      = min 1024 buf.buffer.length + (ip.bytes ++ udp.bytes).length := rfl
  have h6 : ip.Is6 := ⟨hdatagram.fits.src.1, hdatagram.fits.dst.1⟩
  have hlen : (ip.bytes ++ udp.bytes).length = 48 := by
    rw [List.length_append, IPv6.length_bytes h6, UDP.length_bytes]
  rw [List.length_append, hlen] at hfits
  set got := gotDatagram buf ip udp payload with hgot
  have hmembers : got.l4Valid = .udp ∧ got.ipv6 = ip ∧ got.udp = udp ∧ got.stunValid = false :=
    ⟨rfl, rfl, rfl, rfl⟩
  obtain ⟨hvalid, hip, hudp, hstun⟩ := hmembers
  dsimp only at hsent
  rw [if_neg (by decide)] at hsent
  cases hresult : got.translateEgress hash hashSc murmur32 g.publicIP replaceAddress g.getPath with
  | error e =>
    rw [hresult] at hsent
    cases hsent
  | ok result =>
    rw [hresult] at hsent
    dsimp only at hsent
    split_ifs at hsent with hpass
    rw [translateEgress] at hresult
    cases hroute : got.route g.publicIP replaceAddress g.getPath with
    | error answered =>
      rw [hroute] at hresult
      cases hresult
      exact absurd hpass (not_pass_of_route hroute)
    | ok r =>
      rw [hroute] at hresult
      have hfrom := routedFrom hroute
      have hpassed := Routed.passedAs hresult hpass
      -- a datagram is not translated any further
      have htranslated := hfrom.translated
      rw [translateL4, if_neg (by rw [hvalid]; decide), hvalid] at htranslated
      obtain ⟨hproto, hpkt⟩ : L4Type.udp.proto = r.nextHeader ∧ got = r.pkt := by
        simpa using htranslated
      obtain ⟨hvalid', hudp'⟩ := Routed.udp_of_translate (hpkt ▸ hvalid) hresult hpass
      have husable := g.usable _ _ _ _ _ _ _ _ hfrom.path
      have hsrcHost : r.srcHost = g.publicIP := by
        rw [hfrom.srcHost, translateIPv6Prefix, if_pos rfl]
      have hdst := hfrom.dst
      have hsize := hpassed.size_le
      have hmtu := r.mtu.toNat_lt
      have hl4 : r.pkt.l4Size = 8 := by
        rw [← hpkt, PacketBuffer.l4Size, hvalid]
        rfl
      have hframed := Routed.framed_scionHeader hashSc murmur32 husable hpassed.length_le
        (by rw [← hproto]; decide) (by rw [← hproto]; decide)
      have hsciSize := Routed.size_scionHeader hashSc murmur32 r
      have hroom := husable.length_le
      dsimp only at hroom
      have hsame : result.pkt.payload = payload := by
        rw [PacketBuffer.payload, hpassed.message.buffer, hpassed.packet, hpassed.endOfHeader,
          ← hpkt]
        exact hpayload
      have hemit := emitPacket_scion
        ((hpassed.stunValid.trans (congrArg PacketBuffer.stunValid hpkt.symm)).trans hstun)
        hpassed.underlaid.scionValid
        (show result.pkt.path.encoded.length = result.pkt.path.size by
          rw [hpassed.encoded, hpassed.path_size])
        (l4Sized_of_udp hvalid') (hpassed.placed (hpkt ▸ hplaced)) (by
          rw [hpassed.sci, hpassed.path_size, hpassed.l4Size, hl4, hsciSize, hpassed.endOfHeader,
            ← hpkt, hend, hlen]
          omega)
      rw [hemit] at hsent
      have hbytes := congrArg Prod.snd (Option.some.inj hsent)
      dsimp only at hbytes
      rw [hpassed.sci, hpassed.encoded, PacketBuffer.l4Bytes, hvalid', hudp', hsame, ← hpkt,
        hudp] at hbytes
      rw [Routed.size, hl4, ← hpkt, hpayload] at hsize
      rw [← hpkt, hip] at hdst
      refine ⟨⟨r.scionHeader hashSc murmur32, r.path.path, r.egressChksum hashSc murmur32, hframed,
        ?_, hproto.symm, ?_, hdst, ?_, by omega, ?_, hbytes.symm⟩⟩
      · show r.pkt.ipv6.tc = ip.tc
        rw [← hpkt, hip]
      · show (⟨r.path.source, r.srcHost⟩ : ScIPAddress) = _
        rw [husable.source, hsrcHost]
      · rw [Routed.egressChksum, ← hpkt, hudp, hip]
      · show UInt16.ofNat (r.pkt.l4Size + r.pkt.payload.length) = _
        rw [hl4, ← hpkt, hpayload]

end Gateway

/-! ### To the TUN interface -/

namespace PacketBuffer

variable {hash : IPAddress → UInt64} {murmur32 : List UInt8 → UInt32 → UInt32}
  {acceptPrefix dstPrefix src dst : IPAddress} {getMTU : GetMtu} {pkt : PacketBuffer}

theorem translateAccepted_udp (hudp : pkt.l4Valid = .udp) :
    (pkt.translateAccepted hash murmur32 getMTU).1 = .pass := by
  rw [translateAccepted, if_neg (by rw [hudp]; decide)]
  dsimp only
  rw [if_neg (by decide), clampMss_udp hudp]

/-- A datagram is translated if its destination is accepted. -/
theorem translateIngress_pass_iff (hscion : pkt.scionValid = true) (hudp : pkt.l4Valid = .udp)
    (hsrc : mapToIPv6 pkt.sci.src = .ok src) (hdst : mapToIPv6 pkt.sci.dst = .ok dst)
    (prefixLen : UInt32) :
    (pkt.translateIngress hash murmur32 acceptPrefix dstPrefix prefixLen getMTU).1 = .pass ↔
      samePrefix acceptPrefix dst prefixLen = true := by
  rw [translateIngress, hscion, if_neg (by decide), hsrc]
  dsimp only
  rw [hdst]
  dsimp only
  cases samePrefix acceptPrefix dst prefixLen with
  | false => exact iff_of_false (by simp) (by simp)
  | true => exact iff_of_true (translateAccepted_udp hudp) rfl

/-- What becomes of the headers of a datagram. -/
theorem datagram_of_ingressFrom {after : PacketBuffer} {prefixLen : UInt32}
    (h : IngressFrom hash murmur32 dstPrefix prefixLen pkt after) (hudp : pkt.l4Valid = .udp)
    (hsrc : mapToIPv6 pkt.sci.src = .ok src) (hdst : mapToIPv6 pkt.sci.dst = .ok dst) :
    after.ipv6 = ⟨pkt.sci.qos, 64, pkt.sci.nh, UInt16.ofNat (8 + pkt.payload.length),
        (hash (translateIPv6Prefix dst dstPrefix prefixLen) ^^^ hash src).toUInt32
          ^^^ pkt.udp.flowLabel murmur32, src, translateIPv6Prefix dst dstPrefix prefixLen⟩ ∧
      after.udp = { pkt.udp with
        chksum := updateInternetChecksum pkt.udp.chksum (after.ipv6.checksum 8)
          (pkt.sci.checksum 8 IPProto.udp) } := by
  obtain ⟨-, -, -, -, hsci, hsame, -, -, -, hvalid⟩ := h.clamped_kept
  have hother : pkt.l4Valid ≠ .scmp := by
    rw [hudp]
    decide
  obtain ⟨hnext, hkept, -⟩ := h.l4Accepted.other hother
  have hclamped : h.clamped.l4Valid = .udp := hvalid.trans (hkept.trans hudp)
  have hsize : h.clamped.l4Size = 8 := by
    rw [PacketBuffer.l4Size, hclamped]
    rfl
  have hpayload := h.clamped_payload
  obtain ⟨hsrcEq, hdstEq⟩ := h.clamped_addrs
  rw [Except.ok.inj (h.src_eq.symm.trans hsrc)] at hsrcEq
  rw [Except.ok.inj (h.dst_eq.symm.trans hdst)] at hdstEq
  have hlabel : h.clamped.l4FlowLabel murmur32 = pkt.udp.flowLabel murmur32 := by
    rw [l4FlowLabel, hclamped, hsame]
  have hip := h.ipv6_eq
  have hzero := h.isClamped.other (by rw [← hvalid, hclamped]; decide)
  have hupdate := h.isUpdated.udp hclamped
  constructor
  · rw [hip, buildIPv6, ← hlabel, ← hsrcEq, ← hdstEq, hnext, hsci, hsize, hpayload]
    rfl
  · have hbuilt : (h.clamped.buildIPv6 hash murmur32 h.nextHeader).udp = pkt.udp := hsame
    have hbuiltSci : (h.clamped.buildIPv6 hash murmur32 h.nextHeader).sci = pkt.sci := hsci
    have hbuiltSize : (h.clamped.buildIPv6 hash murmur32 h.nextHeader).l4Size = 8 := hsize
    rw [hupdate, hbuilt, hbuiltSci, hbuiltSize, hzero.1, hzero.2, ← hip]
    simp

end PacketBuffer

namespace Gateway

section Deliver

variable {hash : IPAddress → UInt64} {murmur32 : List UInt8 → UInt32 → UInt32} {g : Gateway}
  {buf : PacketBuffer} {sci : SCION} {path payload : List UInt8} {udp : UDP}
  {src dst : IPAddress} {port : UInt16} {from_ : IPEndpoint}

/-- The IPv6 header of a datagram that is delivered. -/
def deliveredHeader (hash : IPAddress → UInt64) (murmur32 : List UInt8 → UInt32 → UInt32)
    (tunIP src : IPAddress) (tc : UInt8) (udp : UDP) (payload : List UInt8) : IPv6 :=
  ⟨tc, 64, IPProto.udp, UInt16.ofNat (8 + payload.length),
    (hash tunIP ^^^ hash src).toUInt32 ^^^ udp.flowLabel murmur32, src, tunIP⟩

/-- The transport header of a datagram that is delivered, which had the pseudo header of
`sci`. -/
def deliveredUDP (hdr : IPv6) (sci : SCION) (udp : UDP) : UDP :=
  { udp with
    chksum := updateInternetChecksum udp.chksum (hdr.checksum 8)
      (sci.checksum 8 ScionProto.udp) }

/-- The datagram is accepted by the socket, and its destination by the translator. -/
structure Accepts (g : Gateway) (port : UInt16) (from_ : IPEndpoint) (type : PathType)
    (src : IPEndpoint) (dport : UInt16) (dst : IPAddress) : Prop where
  port_eq : dport = port
  notDispatcher : port ≠ dispatcherPort
  internal : type = PathType.empty → from_ = src
  dst : samePrefix g.mappedIP dst replaceAddress = true

/-- A SCION packet with a datagram is delivered if it is accepted. -/
theorem deliver_eq_some_iff (hframed : Framed sci path) (hnh : sci.nh = ScionProto.udp)
    (hsrc : mapToIPv6 sci.onWire.src = .ok src) (hdst : mapToIPv6 sci.onWire.dst = .ok dst)
    (hsrc6 : src.is4 = false)
    (hfits : (sci.bytes ++ path ++ udp.bytes ++ payload).length ≤ buf.buffer.length - 4)
    (out : List UInt8) :
    g.deliver hash murmur32 port buf from_ (sci.bytes ++ path ++ udp.bytes ++ payload) = some out ↔
      g.Accepts port from_ sci.ptype ⟨sci.onWire.src.host, udp.sport⟩ udp.dport dst ∧
        out = (deliveredHeader hash murmur32 g.tunIP src sci.qos udp payload).bytes
          ++ (deliveredUDP (deliveredHeader hash murmur32 g.tunIP src sci.qos udp payload) sci
            udp).bytes ++ payload := by
  have hread := readsPart_udp udp
  rw [← hnh] at hread
  have hkeeps : KeepsRaw fun pkt : PacketBuffer => { pkt with udp := udp, l4Valid := .udp } :=
    ⟨fun _ => rfl, fun _ => rfl⟩
  have hreceive := @receive_scion _ _ none _ _ _ _ _ hframed (by rw [hnh]; decide) hread hkeeps
    hfits
  have hplaced := placed_gotScion hkeeps hfits
  have hpayload := payload_gotScion hkeeps hfits
  rw [deliver, hreceive]
  set got := gotScion 4 sci path udp.bytes payload
    (fun pkt => { pkt with udp := udp, l4Valid := .udp }) buf with hgot
  have hmembers : got.l4Valid = .udp ∧ got.udp = udp ∧ got.sci = sci.onWire ∧
      got.scionValid = true ∧ got.stunValid = false ∧ got.path.type = sci.ptype :=
    ⟨rfl, rfl, rfl, rfl, rfl, rfl⟩
  obtain ⟨hvalid, hudp, hsci, hscion, hstun, htype⟩ := hmembers
  have hport : got.portAccepted port = true ↔ udp.dport = port ∧ port ≠ dispatcherPort := by
    rw [portAccepted, l4DPort, hvalid, hudp]
    simp
  have hinternal : got.internalAccepted from_ = true ↔
      (sci.ptype = PathType.empty → from_ = ⟨sci.onWire.src.host, udp.sport⟩) := by
    rw [internalAccepted, l4SPort, hvalid, hudp, hsci, htype, Bool.or_eq_true, Bool.and_eq_true,
      bne_iff_ne, beq_iff_eq, beq_iff_eq, Ne, ← imp_iff_not_or]
    obtain ⟨host, fromPort⟩ := from_
    rw [IPEndpoint.mk.injEq, eq_comm (a := host), eq_comm (a := fromPort)]
  dsimp only
  rw [if_neg (by rw [hstun]; decide)]
  by_cases hp : udp.dport = port ∧ port ≠ dispatcherPort
  swap
  · rw [if_pos (by simpa using fun h => hp (hport.mp h))]
    exact iff_of_false (by simp) fun h => hp ⟨h.1.port_eq, h.1.notDispatcher⟩
  rw [if_neg (by simpa using hport.mpr hp)]
  by_cases hi : sci.ptype = PathType.empty → from_ = ⟨sci.onWire.src.host, udp.sport⟩
  swap
  · rw [if_pos (by simpa using fun h => hi (hinternal.mp h))]
    exact iff_of_false (by simp) fun h => hi h.1.internal
  rw [if_neg (by simpa using hinternal.mpr hi)]
  have hpass := @translateIngress_pass_iff hash murmur32 g.mappedIP g.tunIP src dst g.getMTU got
    hscion hvalid (hsci ▸ hsrc) (hsci ▸ hdst) replaceAddress
  have hfrom := @ingressFrom hash murmur32 g.mappedIP g.tunIP replaceAddress g.getMTU got
  rcases htranslated : got.translateIngress hash murmur32 g.mappedIP g.tunIP replaceAddress
    g.getMTU with ⟨verdict, after⟩
  rw [htranslated] at hpass hfrom
  dsimp only at hpass hfrom ⊢
  by_cases hverdict : verdict = .pass
  swap
  · refine iff_of_false ?_ fun h => hverdict (hpass.mpr h.1.dst)
    cases verdict with
    | pass => exact absurd rfl hverdict
    | _ => simp
  subst hverdict
  obtain ⟨h⟩ := hfrom rfl
  have ht := h.translated
  obtain ⟨hip, hudpEq⟩ := datagram_of_ingressFrom h hvalid (hsci ▸ hsrc) (hsci ▸ hdst)
  have hlocal : translateIPv6Prefix dst g.tunIP replaceAddress = g.tunIP := if_pos rfl
  rw [hlocal, hpayload, hudp, hsci, show sci.onWire.nh = IPProto.udp from hnh] at hip
  have hheader : after.ipv6 = deliveredHeader hash murmur32 g.tunIP src sci.qos udp payload := hip
  have hsum : sci.onWire.checksum 8 IPProto.udp = sci.checksum 8 ScionProto.udp := by
    rw [SCION.checksum, SCION.checksum, SCION.onWire, ScIPAddress.checksum_withoutZone,
      ScIPAddress.checksum_withoutZone]
    rfl
  have hafter : after.udp = deliveredUDP after.ipv6 sci udp := by
    rw [hudpEq, hudp, hsci, hsum]
    rfl
  have hvalid' : after.l4Valid = .udp := (ht.other (by rw [hvalid]; decide)).1.trans hvalid
  -- the headroom is what the smallest SCION header lacks
  have hroom : 40 + after.l4Size ≤ after.endOfHeader := by
    have hend : got.endOfHeader
      = min 4 buf.buffer.length + (sci.bytes ++ path ++ udp.bytes).length := rfl
    have hsize : after.l4Size = 8 := by
      rw [PacketBuffer.l4Size, hvalid']
      rfl
    have hmin : ∀ ip : IPAddress, 4 ≤ ip.size := by
      intro ip
      rw [IPAddress.size]
      split_ifs <;> norm_num
    have hdstSize := hmin sci.dst.host
    have hsrcSize := hmin sci.src.host
    rw [List.length_append, List.length_append, List.length_append, SCION.length_bytes,
      UDP.length_bytes, SCION.size, ScIPAddress.size, ScIPAddress.size, IsdAsn.size,
      IsdAsn.size] at hfits
    rw [hsize, ht.endOfHeader, hend, List.length_append, List.length_append, SCION.length_bytes,
      UDP.length_bytes, SCION.size, ScIPAddress.size, ScIPAddress.size, IsdAsn.size, IsdAsn.size]
    omega
  have hemit := emitPacket_ipv6 (ht.stunValid.trans hstun) ht.scionValid ht.outerUDPValid
    ht.ipValid (by rw [hheader]; exact ⟨hsrc6, g.tunIs6⟩) (l4Sized_of_udp hvalid')
    (ht.intact ⟨hplaced, fun h => absurd (hstun.symm.trans h) (by decide)⟩).placed hroom
  rw [PacketBuffer.l4Bytes, hvalid', payload_of_same ht, hpayload, hafter, hheader] at hemit
  have haccepts : g.Accepts port from_ sci.ptype ⟨sci.onWire.src.host, udp.sport⟩ udp.dport dst :=
    ⟨hp.1, hp.2, hi, hpass.mp rfl⟩
  dsimp only
  rw [hemit]
  constructor
  · intro hout
    exact ⟨haccepts, (Option.some.inj hout).symm⟩
  · rintro ⟨-, rfl⟩
    rfl

end Deliver

/-! ### From one to the other -/

section Way

variable {hash hash' : IPAddress → UInt64} {hashSc : ScIPAddress → UInt64}
  {hashSc' : ScIPAddress → UInt64} {murmur32 murmur32' : List UInt8 → UInt32 → UInt32}
  {a b : Gateway} {buf buf' : PacketBuffer}
  {ip : IPv6} {udp : UDP} {payload sent arrived : List UInt8} {nextHop from_ : IPEndpoint}
  {port : UInt16}

/-- The sum of the SCION pseudo header between the two. -/
def scionSum (a : Gateway) (dst : ScIPAddress) : UInt32 :=
  dst.checksum + (⟨a.localAS, a.publicIP⟩ : ScIPAddress).checksum + 8 + 17

/-- The transport header of a datagram on its way. -/
def sentUDP (a : Gateway) (dst : ScIPAddress) (ip : IPv6) (udp : UDP) : UDP :=
  { udp with chksum := updateInternetChecksum udp.chksum (a.scionSum dst) (ip.checksum 8) }

/-- The IPv6 header at the other end. -/
def arrivedHeader (hash : IPAddress → UInt64) (murmur32 : List UInt8 → UInt32 → UInt32)
    (a b : Gateway) (ip : IPv6) (udp : UDP) (payload : List UInt8) : IPv6 :=
  deliveredHeader hash murmur32 b.tunIP a.mappedIP.withoutZone ip.tc udp payload

/-- The transport header at the other end. -/
def arrivedUDP (a : Gateway) (dst : ScIPAddress) (hdr ip : IPv6) (udp : UDP) : UDP :=
  { udp with
    chksum := updateInternetChecksum (a.sentUDP dst ip udp).chksum (hdr.checksum 8)
      (a.scionSum dst) }

theorem is4_of_mapToIPv6 {addr : ScIPAddress} {mapped : IPAddress}
    (h : mapToIPv6 addr = .ok mapped) : mapped.is4 = false := by
  rcases mapToIPv6_eq_ok h with ⟨host, -, -, hmap⟩ | ⟨hscion, -, -, rfl⟩
  · rw [mapIPv4] at hmap
    dsimp only at hmap
    split_ifs at hmap <;> cases hmap <;> rfl
  · rw [IPAddress.isScion, Bool.and_eq_true] at hscion
    rw [IPAddress.is6, Bool.not_eq_true'] at hscion
    exact hscion.1

theorem is6_of_fits (hip : ip.Fits) : ip.dst.is6 = true := by
  rw [IPAddress.is6, Bool.not_eq_true']
  exact hip.dst.1

/-- What is sent for a datagram comes out at the other end if it is accepted there. -/
theorem SentAs.deliver_iff (s : SentAs a ip udp payload sent) (hip : ip.Fits)
    (hway : PathChanged sent arrived) (hfits : arrived.length ≤ buf.buffer.length - 4)
    (out : List UInt8) :
    b.deliver hash murmur32 port buf from_ arrived = some out ↔
      b.Accepts port from_ (arrived.getD 8 0) ⟨a.publicIP.withoutZone, udp.sport⟩ udp.dport
          ip.dst ∧
        ∃ dst, unmapFromIPv6 ip.dst = .ok dst ∧
          out = (arrivedHeader hash murmur32 a b ip udp payload).bytes
            ++ (a.arrivedUDP dst (arrivedHeader hash murmur32 a b ip udp payload) ip udp).bytes
            ++ payload := by
  obtain ⟨sci, path, chksum, hframed, hqos, hnh, hsrc, hdst, hchksum, -, -, hsentEq⟩ := s
  rw [List.append_assoc] at hsentEq
  subst hsentEq
  obtain ⟨path', hlen, rfl⟩ := hway.exists_path hframed
  have hframed' : Framed sci path' :=
    ⟨by rw [hlen]; exact hframed.length_eq, by rw [hlen]; exact hframed.length_le,
      hframed.noHbh, hframed.noE2e⟩
  have hmapSrc := mapToIPv6_withoutZone a.mapped
  have hmapDst := mapToIPv6_withoutZone
    (mapToIPv6_unmapFromIPv6 (is6_of_fits hip) hip.dst.2 hdst)
  rw [hip.dst.2] at hmapDst
  rw [← hsrc] at hmapSrc
  have hsrc6 : a.mappedIP.withoutZone.is4 = false := by
    rw [IPAddress.is4_withoutZone]
    exact is4_of_mapToIPv6 a.mapped
  have htype : (sci.bytes ++ path' ++ (({ udp with chksum := chksum } : UDP).bytes
      ++ payload)).getD 8 0 = sci.ptype := by
    simp [SCION.bytes, beBytes]
  have hsum : sci.checksum 8 ScionProto.udp = a.scionSum sci.dst := by
    rw [SCION.checksum, hsrc]
    rfl
  have hdeliver := @deliver_eq_some_iff hash murmur32 b buf sci path' payload
    { udp with chksum := chksum } _ _ port from_ hframed' hnh hmapSrc hmapDst hsrc6
    (by rwa [List.append_assoc]) out
  rw [List.append_assoc _ _ payload] at hdeliver
  have hhost : sci.onWire.src.host = a.publicIP.withoutZone := by
    rw [SCION.onWire, hsrc]
    rfl
  have hheader : deliveredHeader hash murmur32 b.tunIP a.mappedIP.withoutZone sci.qos
      { udp with chksum := chksum } payload = arrivedHeader hash murmur32 a b ip udp payload := by
    rw [hqos]
    rfl
  have harrived : deliveredUDP (arrivedHeader hash murmur32 a b ip udp payload) sci
      { udp with chksum := chksum }
        = a.arrivedUDP sci.dst (arrivedHeader hash murmur32 a b ip udp payload) ip udp := by
    rw [deliveredUDP, arrivedUDP, sentUDP, hchksum, hsum]
  rw [hdeliver, htype, hhost, hheader, harrived]
  refine and_congr_right fun _ => ⟨fun hout => ⟨sci.dst, hdst, hout⟩, ?_⟩
  rintro ⟨dst, hdst', hout⟩
  rwa [← Except.ok.inj (hdst'.symm.trans hdst)]

/-- What arrives for a datagram that a translator has sent. -/
structure Crosses (hash : IPAddress → UInt64) (hashSc : ScIPAddress → UInt64)
    (murmur32 : List UInt8 → UInt32 → UInt32) (g : Gateway) (buf : PacketBuffer) (ip : IPv6)
    (udp : UDP) (payload arrived : List UInt8) : Prop where
  datagram : IsDatagram ip udp payload
  fits : (ip.bytes ++ udp.bytes ++ payload).length ≤ buf.buffer.length - 1024
  forwarded : ∃ nextHop sent, g.forward hash hashSc murmur32 buf
    (ip.bytes ++ udp.bytes ++ payload) = some (nextHop, sent) ∧ PathChanged sent arrived

theorem Crosses.exists_sentAs (h : a.Crosses hash hashSc murmur32 buf ip udp payload arrived) :
    ∃ sent, Nonempty (SentAs a ip udp payload sent) ∧ PathChanged sent arrived := by
  obtain ⟨nextHop, sent, hsent, hway⟩ := h.forwarded
  exact ⟨sent, Gateway.exists_sentAs h.datagram h.fits hsent, hway⟩

/-- A datagram that was sent comes out at the other end if it is accepted there: from the mapped
address of the sender to the interface of the receiver, of the same traffic class, with the same
ports, length and payload. -/
theorem deliver_crossed_iff (h : a.Crosses hash hashSc murmur32 buf ip udp payload arrived)
    (hfits : arrived.length ≤ buf'.buffer.length - 4) (out : List UInt8) :
    b.deliver hash' murmur32' port buf' from_ arrived = some out ↔
      b.Accepts port from_ (arrived.getD 8 0) ⟨a.publicIP.withoutZone, udp.sport⟩ udp.dport
          ip.dst ∧
        ∃ dst, unmapFromIPv6 ip.dst = .ok dst ∧
          out = (arrivedHeader hash' murmur32' a b ip udp payload).bytes
            ++ (a.arrivedUDP dst (arrivedHeader hash' murmur32' a b ip udp payload) ip udp).bytes
            ++ payload := by
  obtain ⟨sent, ⟨s⟩, hway⟩ := h.exists_sentAs
  exact s.deliver_iff h.datagram.fits hway hfits out

/-- The path from an AS to its neighbour. -/
def exampleHop (localAS remoteAS : IsdAsn) : Path :=
  ⟨localAS, remoteAS, PathType.scion, 0, 1472, 2, ⟨.v4 0x0a000063, 30042⟩, List.replicate 36 0,
    ⟨0, 0⟩⟩

theorem usable_exampleHop (localAS remoteAS : IsdAsn) (src dst : IPAddress) :
    (exampleHop localAS remoteAS).Usable localAS src dst := by
  refine ⟨rfl, by simp [exampleHop], ?_⟩
  have hsize : ∀ ip : IPAddress, ip.size ≤ 16 := by
    intro ip
    rw [IPAddress.size]
    split_ifs <;> norm_num
  have hdst := hsize dst
  have hsrc := hsize src
  rw [exampleHop, List.length_replicate]
  omega

theorem usable_of_found {localAS remoteAS : IsdAsn} {src dst : IPAddress} {path : Path}
    {mtu mtu' : UInt16}
    (h : ((.ok (some (exampleHop localAS remoteAS)), mtu) : Except ErrorCode (Option Path) × UInt16)
      = (.ok (some path), mtu')) : path.Usable localAS src dst := by
  cases h
  exact usable_exampleHop localAS remoteAS src dst

/-- A gateway of one of two neighbours in an ISD. -/
def exampleGateway (localAS remoteAS : IsdAsn) (host : UInt32) (mappedIP : IPAddress)
    (h : mapToIPv6 ⟨localAS, .v4 host⟩ = .ok mappedIP) : Gateway where
  localAS := localAS
  publicIP := .v4 host
  mappedIP := mappedIP
  tunIP := mappedIP
  getPath _ _ _ _ _ _ := (.ok (some (exampleHop localAS remoteAS)), 1472)
  getMTU _ rp := (1280, rp)
  mapped := h
  tunIs6 := is4_of_mapToIPv6 h
  usable _ _ _ _ _ _ _ _ := usable_of_found

def exampleNear : Gateway :=
  exampleGateway ⟨0x1000000000001⟩ ⟨0x1000000000002⟩ 0x0a000001
    (.v6 0xfc00100001000000 0xffff0a000001 "") (by decide +kernel)

def exampleFar : Gateway :=
  exampleGateway ⟨0x1000000000002⟩ ⟨0x1000000000001⟩ 0x0a000002
    (.v6 0xfc00100002000000 0xffff0a000002 "") (by decide +kernel)

/-- A datagram from the first one to the second one, and one back. -/
def exampleAsk : IPv6 := ⟨0x20, 64, IPProto.udp, 12, 7, exampleNear.tunIP, exampleFar.mappedIP⟩

def exampleAnswer : IPv6 := ⟨0, 64, IPProto.udp, 12, 9, exampleFar.tunIP, exampleNear.mappedIP⟩

/-- The checksum of `exampleAsk` with this payload. -/
def exampleUDP : UDP := ⟨4242, 53, 12, 0xfffe⟩

def examplePayload : List UInt8 := [0xbd, 0x07, 3, 4]

/-- Routers that change a byte of the path. -/
theorem exists_crosses {p : List UInt8 → Bool} (hdatagram : IsDatagram ip udp payload)
    (hfits : (ip.bytes ++ udp.bytes ++ payload).length ≤ buf.buffer.length - 1024)
    (h : (a.forward hash hashSc murmur32 buf (ip.bytes ++ udp.bytes ++ payload)).any (fun sent =>
      decide (PathChanged sent.2 (sent.2.set 40 1)) && p (sent.2.set 40 1)) = true) :
    ∃ arrived, a.Crosses hash hashSc murmur32 buf ip udp payload arrived ∧ p arrived = true := by
  obtain ⟨⟨nextHop, sent⟩, hsent, hfacts⟩ := (Option.any_eq_true _ _).mp h
  obtain ⟨hway, hp⟩ := (Bool.and_eq_true _ _).mp hfacts
  exact ⟨_, ⟨hdatagram, hfits, nextHop, sent, hsent, of_decide_eq_true hway⟩, hp⟩

/-- The first datagram is delivered. -/
theorem exists_delivered_example : ∃ arrived,
    exampleNear.Crosses (fun _ => 0) (fun _ => 0) (fun _ _ => 0)
        (PacketBuffer.ofBuffer (List.replicate 1124 0)) exampleAsk exampleUDP examplePayload
        arrived ∧
      arrived.length ≤ (PacketBuffer.ofBuffer (List.replicate 100 0)).buffer.length - 4 ∧
      ∃ out, exampleFar.deliver (fun _ => 0) (fun _ _ => 0) 53
        (PacketBuffer.ofBuffer (List.replicate 100 0)) ⟨.v4 0x0a000064, 50000⟩ arrived
          = some out := by
  obtain ⟨arrived, hcrosses, hfacts⟩ := @exists_crosses (fun _ => 0) (fun _ => 0) (fun _ _ => 0)
    exampleNear (PacketBuffer.ofBuffer (List.replicate 1124 0)) exampleAsk exampleUDP examplePayload
    (fun arrived => decide (arrived.length ≤ 96) && (exampleFar.deliver (fun _ => 0)
      (fun _ _ => 0) 53 (PacketBuffer.ofBuffer (List.replicate 100 0)) ⟨.v4 0x0a000064, 50000⟩
      arrived).isSome)
    ⟨by decide +kernel, rfl, by decide +kernel⟩ (by decide +kernel) (by decide +kernel)
  obtain ⟨hfits, hsome⟩ := (Bool.and_eq_true _ _).mp hfacts
  refine ⟨arrived, hcrosses, ?_, Option.isSome_iff_exists.mp hsome⟩
  rw [PacketBuffer.ofBuffer, List.length_replicate]
  exact of_decide_eq_true hfits

theorem exists_answered_example : ∃ arrived,
    exampleFar.Crosses (fun _ => 0) (fun _ => 0) (fun _ _ => 0)
        (PacketBuffer.ofBuffer (List.replicate 1124 0)) exampleAnswer ⟨53, 4242, 12, 0x1234⟩
        examplePayload arrived ∧
      arrived.length ≤ (PacketBuffer.ofBuffer (List.replicate 100 0)).buffer.length - 4 ∧
      arrived.getD 8 0 = PathType.scion := by
  obtain ⟨arrived, hcrosses, hfacts⟩ := @exists_crosses (fun _ => 0) (fun _ => 0) (fun _ _ => 0)
    exampleFar (PacketBuffer.ofBuffer (List.replicate 1124 0)) exampleAnswer
    ⟨53, 4242, 12, 0x1234⟩ examplePayload
    (fun arrived => decide (arrived.length ≤ 96 ∧ arrived.getD 8 0 = PathType.scion))
    ⟨by decide +kernel, rfl, by decide +kernel⟩ (by decide +kernel) (by decide +kernel)
  obtain ⟨hfits, htype⟩ := of_decide_eq_true hfacts
  refine ⟨arrived, hcrosses, ?_, htype⟩
  rwa [PacketBuffer.ofBuffer, List.length_replicate]

theorem deliver_crossed_iff_example : ∃ arrived out,
    exampleNear.Crosses (fun _ => 0) (fun _ => 0) (fun _ _ => 0)
        (PacketBuffer.ofBuffer (List.replicate 1124 0)) exampleAsk exampleUDP examplePayload
        arrived ∧
      exampleFar.Accepts 53 ⟨.v4 0x0a000064, 50000⟩ (arrived.getD 8 0)
        ⟨exampleNear.publicIP.withoutZone, 4242⟩ 53 exampleAsk.dst ∧
      ∃ dst, unmapFromIPv6 exampleAsk.dst = .ok dst ∧
        out = (arrivedHeader (fun _ => 0) (fun _ _ => 0) exampleNear exampleFar exampleAsk
            exampleUDP examplePayload).bytes
          ++ (exampleNear.arrivedUDP dst (arrivedHeader (fun _ => 0) (fun _ _ => 0) exampleNear
            exampleFar exampleAsk exampleUDP examplePayload) exampleAsk exampleUDP).bytes
          ++ examplePayload := by
  obtain ⟨arrived, hcrosses, hfits, out, hout⟩ := exists_delivered_example
  exact ⟨arrived, out, hcrosses, (deliver_crossed_iff hcrosses hfits out).mp hout⟩

theorem is6_mappedIP (g : Gateway) : g.mappedIP.is6 = true := by
  rw [IPAddress.is6, is4_of_mapToIPv6 g.mapped]
  rfl

/-- Accepted datagrams are for the mapped address. -/
theorem Accepts.eq_mappedIP {src : IPEndpoint} {type : PathType} {dport : UInt16}
    (h : b.Accepts port from_ type src dport ip.dst) (hip : ip.Fits) :
    ip.dst = b.mappedIP.withoutZone := by
  rw [eq_of_samePrefix b.is6_mappedIP h.dst, hip.dst.2]

theorem samePrefix_withoutZone {ip : IPAddress} (h6 : ip.is6 = true) :
    samePrefix ip ip.withoutZone replaceAddress = true := by
  obtain addr | ⟨hi, lo, zone⟩ := ip
  · cases h6
  · rw [samePrefix_iff rfl rfl (by decide)]
    exact fun _ _ => rfl

/-- What is answered to the address and port that a datagram was delivered with comes back, from
the address that the datagram was for, unless the socket is that of the dispatcher. -/
theorem deliver_reply_iff {answer : IPv6} {udp' : UDP} {payload' arrived' out : List UInt8}
    {buf₁ buf₂ buf₃ buf₄ : PacketBuffer} {from' : IPEndpoint}
    (hask : a.Crosses hash hashSc murmur32 buf₁ ip udp payload arrived)
    (hfits : arrived.length ≤ buf₂.buffer.length - 4)
    (hout : b.deliver hash' murmur32' port buf₂ from_ arrived = some out)
    (hanswer : b.Crosses hash' hashSc' murmur32' buf₃ answer udp' payload' arrived')
    (hdst : answer.dst = a.mappedIP.withoutZone) (hdport : udp'.dport = udp.sport)
    (hfits' : arrived'.length ≤ buf₄.buffer.length - 4) (out' : List UInt8) :
    a.deliver hash murmur32 udp.sport buf₄ from' arrived' = some out' ↔
      udp.sport ≠ dispatcherPort ∧
      (arrived'.getD 8 0 = PathType.empty → from' = ⟨b.publicIP.withoutZone, udp'.sport⟩) ∧
      ∃ dst, unmapFromIPv6 a.mappedIP.withoutZone = .ok dst ∧
        out' = (deliveredHeader hash murmur32 a.tunIP ip.dst answer.tc udp' payload').bytes
          ++ (b.arrivedUDP dst (deliveredHeader hash murmur32 a.tunIP ip.dst answer.tc udp'
            payload') answer udp').bytes ++ payload' := by
  obtain ⟨sent, ⟨s⟩, hway⟩ := hask.exists_sentAs
  obtain ⟨sent', ⟨s'⟩, hway'⟩ := hanswer.exists_sentAs
  have hasked := ((s.deliver_iff hask.datagram.fits hway hfits out).mp hout).1
  have hip := hasked.eq_mappedIP hask.datagram.fits
  have hheader : arrivedHeader hash murmur32 b a answer udp' payload'
      = deliveredHeader hash murmur32 a.tunIP ip.dst answer.tc udp' payload' := by
    rw [arrivedHeader, hip]
  rw [s'.deliver_iff hanswer.datagram.fits hway' hfits' out', hheader, hdst]
  constructor
  · rintro ⟨haccepts, hdelivered⟩
    exact ⟨haccepts.notDispatcher, haccepts.internal, hdelivered⟩
  · rintro ⟨hport, hinternal, hdelivered⟩
    exact ⟨⟨hdport, hport, hinternal, hdst ▸ samePrefix_withoutZone a.is6_mappedIP⟩,
      hdelivered⟩

theorem deliver_reply_iff_example : ∃ arrived' out',
    exampleFar.Crosses (fun _ => 0) (fun _ => 0) (fun _ _ => 0)
        (PacketBuffer.ofBuffer (List.replicate 1124 0)) exampleAnswer ⟨53, 4242, 12, 0x1234⟩
        examplePayload arrived' ∧
      exampleNear.deliver (fun _ => 0) (fun _ _ => 0) 4242
        (PacketBuffer.ofBuffer (List.replicate 100 0)) ⟨.v4 0x0a000064, 50000⟩ arrived'
          = some out' := by
  obtain ⟨arrived, hcrosses, hfits, out, hout⟩ := exists_delivered_example
  obtain ⟨arrived', hcrosses', hfits', htype⟩ := exists_answered_example
  refine ⟨arrived', _, hcrosses', (deliver_reply_iff hcrosses hfits hout hcrosses' rfl rfl hfits'
    _).mpr ⟨by decide, ?_, ⟨⟨0x1000000000001⟩, .v4 0x0a000001⟩, by decide +kernel, rfl⟩⟩
  intro hempty
  exact absurd (htype.symm.trans hempty) (by decide)

/-- The sum over a datagram and its pseudo header. -/
def wireSum (ip : IPv6) (udp : UDP) (payload : List UInt8) : ℕ :=
  wordSum ip.src.bytes + wordSum ip.dst.bytes + (8 + payload.length) + ip.nh.toNat
    + wordSum (udp.bytes ++ payload)

/-- The checksum of a datagram is that of its words. -/
def Verified (ip : IPv6) (udp : UDP) (payload : List UInt8) : Prop :=
  IsSum 65536 (wireSum ip udp payload) 65535

instance (ip : IPv6) (udp : UDP) (payload : List UInt8) : Decidable (Verified ip udp payload) :=
  inferInstanceAs (Decidable (IsSum 65536 _ 65535))

theorem wireSum_eq (ip : IPv6) (udp : UDP) (payload : List UInt8) :
    wireSum ip udp payload + 8 = (ip.checksum 8).toNat + (8 + payload.length)
      + (udp.sport.toNat + udp.dport.toNat + udp.len.toNat + udp.chksum.toNat)
      + wordSum payload := by
  have hsrc := ip.src.wordSum_bytes_le
  have hdst := ip.dst.wordSum_bytes_le
  have hnh := ip.nh.toNat_lt
  rw [wireSum, IPv6.checksum_eq, UInt32.toNat_ofNat', show (8 : UInt16).toNat = 8 from rfl,
    wordSum_append _ _ (by rw [UDP.length_bytes]), UDP.wordSum_bytes]
  omega

/-- The datagram that is delivered has the checksum of its words exactly if the carries that its
two updates lose cancel each other. -/
theorem verified_arrivedUDP_iff {hdr : IPv6} {dst : ScIPAddress}
    (hverified : Verified ip udp payload) :
    Verified hdr (a.arrivedUDP dst hdr ip udp) payload ↔
      lostCarry udp.chksum (a.scionSum dst) (ip.checksum 8)
        + lostCarry (a.sentUDP dst ip udp).chksum (hdr.checksum 8) (a.scionSum dst) = 0 := by
  have hsum := wireSum_eq ip udp payload
  have hsum' := wireSum_eq hdr (a.arrivedUDP dst hdr ip udp) payload
  have hfirst := updateInternetChecksum_modEq udp.chksum (a.scionSum dst) (ip.checksum 8)
  have hsecond := updateInternetChecksum_modEq (a.sentUDP dst ip udp).chksum (hdr.checksum 8)
    (a.scionSum dst)
  obtain ⟨hlow, hhigh⟩ := lostCarry_bounds udp.chksum (a.scionSum dst) (ip.checksum 8)
  obtain ⟨hlow', hhigh'⟩ := lostCarry_bounds (a.sentUDP dst ip udp).chksum (hdr.checksum 8)
    (a.scionSum dst)
  rw [Verified, isSum_pred_iff (by norm_num)] at hverified ⊢
  rw [show updateInternetChecksum (a.sentUDP dst ip udp).chksum (hdr.checksum 8) (a.scionSum dst)
    = (a.arrivedUDP dst hdr ip udp).chksum from rfl] at hsecond
  rw [show updateInternetChecksum udp.chksum (a.scionSum dst) (ip.checksum 8)
    = (a.sentUDP dst ip udp).chksum from rfl] at hfirst
  have hports : (a.arrivedUDP dst hdr ip udp).sport = udp.sport ∧
      (a.arrivedUDP dst hdr ip udp).dport = udp.dport ∧
      (a.arrivedUDP dst hdr ip udp).len = udp.len := ⟨rfl, rfl, rfl⟩
  rw [hports.1, hports.2.1, hports.2.2] at hsum'
  rw [Int.ModEq] at hfirst hsecond
  omega

/-- A delivered datagram has the checksum of its words exactly if what is lost on one side is
made up for on the other one. -/
theorem verified_deliver_iff (h : a.Crosses hash hashSc murmur32 buf ip udp payload arrived)
    (hfits : arrived.length ≤ buf'.buffer.length - 4) {out : List UInt8}
    (hout : b.deliver hash' murmur32' port buf' from_ arrived = some out)
    (hverified : Verified ip udp payload) :
    ∃ dst hdr, unmapFromIPv6 ip.dst = .ok dst ∧
      hdr = arrivedHeader hash' murmur32' a b ip udp payload ∧
      out = hdr.bytes ++ (a.arrivedUDP dst hdr ip udp).bytes ++ payload ∧
      (Verified hdr (a.arrivedUDP dst hdr ip udp) payload ↔
        lostCarry udp.chksum (a.scionSum dst) (ip.checksum 8)
          + lostCarry (a.sentUDP dst ip udp).chksum (hdr.checksum 8) (a.scionSum dst) = 0) := by
  obtain ⟨sent, ⟨s⟩, hway⟩ := h.exists_sentAs
  obtain ⟨-, dst, hdst, heq⟩ := (s.deliver_iff h.datagram.fits hway hfits out).mp hout
  exact ⟨dst, _, hdst, rfl, heq, verified_arrivedUDP_iff hverified⟩

/-- A datagram that is delivered with a wrong checksum. -/
theorem verified_deliver_iff_example : ∃ arrived out,
    exampleNear.Crosses (fun _ => 0) (fun _ => 0) (fun _ _ => 0)
        (PacketBuffer.ofBuffer (List.replicate 1124 0)) exampleAsk exampleUDP examplePayload
        arrived ∧
      exampleFar.deliver (fun _ => 0) (fun _ _ => 0) 53
        (PacketBuffer.ofBuffer (List.replicate 100 0)) ⟨.v4 0x0a000064, 50000⟩ arrived
          = some out ∧
      ∃ hdr udp, out = hdr.bytes ++ udp.bytes ++ examplePayload ∧
        ¬ Verified hdr udp examplePayload := by
  obtain ⟨arrived, hcrosses, hfits, out, hout⟩ := exists_delivered_example
  obtain ⟨dst, hdr, hdst, hhdr, heq, hiff⟩ :=
    verified_deliver_iff hcrosses hfits hout (by decide +kernel)
  refine ⟨arrived, out, hcrosses, hout, hdr, _, heq, fun hverified => ?_⟩
  have hlost := hiff.mp hverified
  rw [hhdr, ← Except.ok.inj ((show unmapFromIPv6 exampleAsk.dst
    = .ok ⟨⟨0x1000000000002⟩, .v4 0x0a000002⟩ by decide +kernel).symm.trans hdst)] at hlost
  exact absurd hlost (by decide +kernel)

end Way

end Gateway

end Scion
