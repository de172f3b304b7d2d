/-
Translation of received packets from SCION to IPv6 (`scitra/translator.hpp`,
`scitra/translator.cpp`), behind the socket they are received on.

A packet passes the socket, a comparison of its destination port with that of the socket,
and the translator, which compares its destination address with the mapped local one. The
socket rewrites the fields that are compared if it has a mapped address.

* `translateIngress`, with `translateScmpToIcmp` and the clamping of the MSS;
* `portAccepted` — the validation of ports;
* `SocketEvent.storesMapping` — the events that store a mapped address;
* `isFor_of_run` — without one, what passes is addressed to the socket.
-/
import Scion.AddressPrefix
import Scion.Mapping
import Scion.SocketMapping

namespace Scion

open Runs

/-! ### The translator -/

inductive Verdict
  | abort
  | drop
  | pass
  | returned
  deriving DecidableEq, Repr

/-- `DISPATCHER_PORT`. -/
def dispatcherPort : UInt16 := 30041

/-- `TCP_HDR_SIZE`. -/
def tcpHdrSize : ℕ := 20

namespace PacketBuffer

/-- The MTU of a path, which may be reversed on the way. -/
abbrev GetMtu := SCION → RawPathContents → UInt16 × RawPathContents

/-- The layer 4 header's contribution to the flow label. -/
def l4FlowLabel (murmur32 : List UInt8 → UInt32 → UInt32) (pkt : PacketBuffer) : UInt32 :=
  match pkt.l4Valid with
  | .icmp => pkt.icmp.flowLabel
  | .scmp => 0
  | .tcp => pkt.tcp.flowLabel murmur32
  | .udp => pkt.udp.flowLabel murmur32
  | .none => 0

/-- `hash` is `std::hash` of IP addresses. -/
def computeIPv6FlowLabel (hash : IPAddress → UInt64) (ip : IPv6) (l4FlowLabel : UInt32) :
    UInt32 :=
  (hash ip.dst ^^^ hash ip.src).toUInt32 ^^^ l4FlowLabel

/-- The identifier in bytes 16 and 17 of the payload, if it is that long. -/
def originalId (pkt : PacketBuffer) (id : UInt16) : UInt16 :=
  if pkt.payload.length ≥ 18 then
    (pkt.payload.getD 16 0).toUInt16 + ((pkt.payload.getD 17 0).toUInt16 <<< 8)
  else id

def translateScmpToIcmp (pkt : PacketBuffer) : Verdict × PacketBuffer :=
  match pkt.scmp.msg with
  | .dstUnreach _ | .paramProblem _ _ | .extIfDown _ _ | .intConnDown _ _ _ => (.drop, pkt)
  | .packetTooBig _ => (.drop, pkt)
  | .echoRequest id seq =>
    (.pass, { pkt with
      icmp := ⟨ICMPv6Type.echoRequest, 0, 0, id, seq⟩
      l4Valid := .icmp })
  | .echoReply id seq =>
    (.pass, { pkt with
      icmp := ⟨ICMPv6Type.echoReply, 0, 0, pkt.originalId id, seq⟩
      l4Valid := .icmp })
  | _ => (.abort, pkt)

/-- The maximum segment size, before and after it is clamped. There is none if the MTU leaves
no room for a segment. -/
def clampMss (getMTU : GetMtu) (pkt : PacketBuffer) : Option (UInt16 × UInt16) × PacketBuffer :=
  if pkt.l4Valid = .tcp ∧ pkt.tcp.optMask.mss = true then
    let (mtu, path) := getMTU pkt.sci pkt.path
    let pkt := { pkt with path := path }
    let scionMSS : ℤ := (mtu.toNat : ℤ) - ((pkt.sci.size + pkt.path.size : ℕ) : ℤ) - tcpHdrSize
    if scionMSS ≤ 0 then (none, pkt)
    else
      let mss := pkt.tcp.options.mss.mss
      let clampedMSS := min mss (UInt16.ofNat (min scionMSS 65535).toNat)
      (some (mss, clampedMSS), { pkt with tcp.options.mss.mss := clampedMSS })
  else (some (0, 0), pkt)

section Ingress

variable (hash : IPAddress → UInt64) (murmur32 : List UInt8 → UInt32 → UInt32)

/-- The IPv6 header of an accepted packet in place of the SCION header. -/
def buildIPv6 (nextHeader : IPProto) (pkt : PacketBuffer) : PacketBuffer :=
  let pkt := { pkt with
    ipv6.tc := pkt.sci.qos
    ipv6.hlim := 64
    ipv6.nh := nextHeader
    ipv6.plen := UInt16.ofNat (pkt.l4Size + pkt.payload.length) }
  { pkt with
    ipv6.fl := computeIPv6FlowLabel hash pkt.ipv6 (pkt.l4FlowLabel murmur32)
    ipValid := .ipv6
    outerUDPValid := false
    scionValid := false }

/-- The checksum of an accepted packet. -/
def updateIngressChecksum (mss clampedMSS : UInt16) (pkt : PacketBuffer) : PacketBuffer :=
  if pkt.l4Valid = .icmp then
    let hdrChksum :=
      pkt.ipv6.checksum (UInt16.ofNat (pkt.icmp.size + pkt.payload.length)) + pkt.icmp.checksum
    { pkt with icmp.chksum := internetChecksum pkt.payload hdrChksum }
  else
    pkt.l4UpdateChecksum
      (pkt.ipv6.checksum (UInt16.ofNat pkt.l4Size) + clampedMSS.toUInt32)
      (pkt.sci.checksum (UInt16.ofNat pkt.l4Size) pkt.l4Valid.proto + mss.toUInt32)

/-- The rest of `translateIngress` for a packet with an accepted destination. -/
def translateAccepted (getMTU : GetMtu) (pkt : PacketBuffer) : Verdict × PacketBuffer :=
  let (verdict, nextHeader, pkt) :=
    if pkt.l4Valid = .scmp then
      let (verdict, pkt) := pkt.translateScmpToIcmp
      (verdict, IPProto.icmpv6, pkt)
    else (.pass, pkt.sci.nh, pkt)
  if verdict = .abort ∨ verdict = .drop then (verdict, pkt)
  else
    match pkt.clampMss getMTU with
    | (none, pkt) => (.abort, pkt)
    | (some (mss, clampedMSS), pkt) =>
      (.pass, (pkt.buildIPv6 hash murmur32 nextHeader).updateIngressChecksum mss clampedMSS)

def translateIngress (acceptPrefix dstPrefix : IPAddress) (prefixLen : UInt32) (getMTU : GetMtu)
    (pkt : PacketBuffer) : Verdict × PacketBuffer :=
  if !pkt.scionValid then (.abort, pkt)
  else
    match mapToIPv6 pkt.sci.src with
    | .error _ => (.drop, pkt)
    | .ok src =>
      let pkt := { pkt with ipv6.src := src }
      match mapToIPv6 pkt.sci.dst with
      | .error _ => (.drop, pkt)
      | .ok dst =>
        -- only packets addressed to our public IP or subnet
        if !samePrefix acceptPrefix dst prefixLen then (.drop, pkt)
        else
          let pkt := { pkt with ipv6.dst := translateIPv6Prefix dst dstPrefix prefixLen }
          pkt.translateAccepted hash murmur32 getMTU

/-- The validation of ports in `translateScionToIP`: the port of the socket, which is that of
the dispatcher for packets without a port and for no others. -/
def portAccepted (localPort : UInt16) (pkt : PacketBuffer) : Bool :=
  pkt.l4DPort dispatcherPort == localPort &&
    !(localPort == dispatcherPort && pkt.l4Valid != .scmp)

end Ingress

end PacketBuffer

/-! ### Prefixes of full length -/

theorem withoutZone_of_mapIPv4 {isdAsn : IsdAsn} {host ip : IPAddress}
    (h : mapIPv4 isdAsn host = .ok ip) : ip.withoutZone = ip := by
  rw [mapIPv4] at h
  dsimp only at h
  split_ifs at h
  · cases h
    rfl
  · cases h
    rfl

/-- Zones are carried along, but do not count. -/
theorem mapToIPv6_withoutZone {a : ScIPAddress} {ip : IPAddress} (h : mapToIPv6 a = .ok ip) :
    mapToIPv6 a.withoutZone = .ok ip.withoutZone := by
  obtain ⟨isdAsn, addr | ⟨hi, lo, zone⟩⟩ := a
  · have hmap : mapIPv4 isdAsn (.v4 addr) = .ok ip := h
    rw [withoutZone_of_mapIPv4 hmap]
    exact h
  · show mapToIPv6 ⟨isdAsn, .v6 hi lo ""⟩ = _
    rw [mapToIPv6] at h ⊢
    dsimp only at h ⊢
    rw [if_pos (show (IPAddress.v6 hi lo zone).is6 = true from rfl)] at h
    rw [if_pos (show (IPAddress.v6 hi lo "").is6 = true from rfl)]
    by_cases h46 : (IPAddress.v6 hi lo zone).is4in6 = true
    · have hunmap : (IPAddress.v6 hi lo "").unmap4in6 = (IPAddress.v6 hi lo zone).unmap4in6 := by
        rw [IPAddress.unmap4in6, IPAddress.unmap4in6, if_pos h46]
        exact if_pos h46
      rw [if_pos h46] at h
      rw [if_pos (show (IPAddress.v6 hi lo "").is4in6 = true from h46), hunmap,
        withoutZone_of_mapIPv4 h]
      exact h
    · rw [if_neg h46] at h
      rw [if_neg (show ¬(IPAddress.v6 hi lo "").is4in6 = true from h46)]
      by_cases hscion : (!(IPAddress.v6 hi lo zone).isScion) = true
      · rw [if_pos hscion] at h
        cases h
      rw [if_neg hscion] at h
      rw [if_neg (show ¬(!(IPAddress.v6 hi lo "").isScion) = true from hscion),
        show unmapIsdAsn (.v6 hi lo "") = unmapIsdAsn (.v6 hi lo zone) from rfl]
      cases hia : unmapIsdAsn (.v6 hi lo zone) with
      | none =>
        rw [hia] at h
        cases h
      | some r =>
        rw [hia] at h
        dsimp only at h ⊢
        split_ifs at h ⊢
        cases h
        rfl

theorem eq_of_samePrefix {a b : IPAddress} (ha : a.is6 = true) (h : samePrefix a b 128 = true) :
    a.withoutZone = b.withoutZone := by
  obtain addr | ⟨hi, lo, zone⟩ := a
  · cases ha
  obtain addr' | ⟨hi', lo', zone'⟩ := b
  · cases h
  · have hmin : min (128 : UInt32) 64 = 64 := by decide
    obtain ⟨rfl, rfl⟩ : hi = hi' ∧ lo = lo' := by
      simpa [samePrefix, IPAddress.is4, IPAddress.is6, IPAddress.hi, IPAddress.lo, hmin] using h
    rfl

/-- The host is an IPv4 host that is written as an IPv6 address. -/
def ScIPAddress.isWrittenIPv4 (a : ScIPAddress) : Bool := a.isOwnMappedIPv4 || a.host.is4in6

theorem ScIPAddress.isWrittenIPv4_withoutZone (a : ScIPAddress) :
    a.withoutZone.isWrittenIPv4 = a.isWrittenIPv4 := by
  obtain ⟨isdAsn, addr | ⟨hi, lo, zone⟩⟩ := a
  · rfl
  · rfl

/-- Other addresses that are mapped to the same one are the same. -/
theorem eq_of_mapToIPv6 {a b : ScIPAddress} {ip ip' : IPAddress}
    (ha : a.isWrittenIPv4 = false) (hb : b.isWrittenIPv4 = false)
    (hmapa : mapToIPv6 a = .ok ip) (hmapb : mapToIPv6 b = .ok ip')
    (hsame : samePrefix ip ip' 128 = true) : a.withoutZone = b.withoutZone := by
  have h6 : ip.is6 = true := by
    rcases mapToIPv6_eq_ok hmapa with ⟨addr, -, -, hmap⟩ | ⟨hscion, -, -, rfl⟩
    · rw [mapIPv4] at hmap
      dsimp only at hmap
      split_ifs at hmap
      · cases hmap
        rfl
      · cases hmap
        rfl
    · rw [IPAddress.isScion, Bool.and_eq_true] at hscion
      exact hscion.1
  have hnormalized : ∀ c : ScIPAddress, c.isWrittenIPv4 = false →
      c.isOwnMappedIPv4 = false ∧ c.normalized = c := by
    intro c hc
    rw [ScIPAddress.isWrittenIPv4, Bool.or_eq_false_iff] at hc
    refine ⟨hc.1, ?_⟩
    rw [ScIPAddress.normalized, IPAddress.unmap4in6, hc.2, if_neg Bool.false_ne_true]
  obtain ⟨howna, hsamea⟩ := hnormalized a.withoutZone (a.isWrittenIPv4_withoutZone.trans ha)
  obtain ⟨hownb, hsameb⟩ := hnormalized b.withoutZone (b.isWrittenIPv4_withoutZone.trans hb)
  have hmapb' := mapToIPv6_withoutZone hmapb
  rw [← eq_of_samePrefix h6 hsame] at hmapb'
  have heq := normalized_eq_of_mapToIPv6 howna hownb (mapToIPv6_withoutZone hmapa) hmapb'
  rw [hsamea, hsameb] at heq
  exact heq

/-! ### What passes -/

namespace PacketBuffer

variable {hash : IPAddress → UInt64} {murmur32 : List UInt8 → UInt32 → UInt32}

/-- The destination is accepted before anything else happens to a packet. -/
theorem accepted_of_translateIngress {acceptPrefix dstPrefix : IPAddress} {prefixLen : UInt32}
    {getMTU : GetMtu} {pkt : PacketBuffer}
    (h : (pkt.translateIngress hash murmur32 acceptPrefix dstPrefix prefixLen getMTU).1 = .pass) :
    ∃ dst, mapToIPv6 pkt.sci.dst = .ok dst ∧ samePrefix acceptPrefix dst prefixLen = true := by
  rw [translateIngress] at h
  split_ifs at h
  cases hsrc : mapToIPv6 pkt.sci.src with
  | error ec =>
    rw [hsrc] at h
    cases h
  | ok src =>
    rw [hsrc] at h
    dsimp only at h
    cases hdst : mapToIPv6 pkt.sci.dst with
    | error ec =>
      rw [hdst] at h
      cases h
    | ok dst =>
      rw [hdst] at h
      dsimp only at h
      cases hsame : samePrefix acceptPrefix dst prefixLen with
      | true => exact ⟨dst, rfl, hsame⟩
      | false =>
        rw [hsame] at h
        cases h

/-- The destination of a packet, whose port is that of the dispatcher if it has none. Packets
carry no zones. -/
def AddressedTo (pkt : PacketBuffer) (ep : IPEndpoint) : Prop :=
  pkt.sci.dst.host.withoutZone = ep.host.withoutZone ∧ pkt.l4DPort dispatcherPort = ep.port

instance (pkt : PacketBuffer) (ep : IPEndpoint) : Decidable (pkt.AddressedTo ep) :=
  inferInstanceAs (Decidable (_ ∧ _))

end PacketBuffer

namespace Socket

variable {cfg : StunConfig} {s : Socket}

/-- A datagram as it is parsed from the buffer. -/
def parsed (pkt : PacketBuffer) (data : List UInt8) : ErrorCode × PacketBuffer :=
  pkt.receive 4 (data.take (pkt.clearAndGetBuffer 4).packet.size) true none

theorem takeResponse_ne_ok (pkt : PacketBuffer) (source : IPEndpoint) (out : SendOutcome)
    (now : ℤ) : (s.takeResponse pkt source out now).ec ≠ .ok := by
  rcases s.takeResponse_cases pkt source out now with ⟨-, hec, -⟩ | ⟨-, hec, -⟩
  · rw [hec]
    decide
  · rw [hec]
    decide

/-- What a socket hands on are translated packets that are not STUN messages. -/
theorem recvPacket_ok (henabled : cfg.enableStun = true) {pkt : PacketBuffer} {data : List UInt8}
    {source : IPEndpoint} {out : SendOutcome} {now : ℤ}
    (h : (s.recvPacket cfg pkt (.ok (data, source)) out now).ec = .ok) :
    (s.recvPacket cfg pkt (.ok (data, source)) out now).pkt
      = s.ingressNat (parsed pkt data).2 := by
  rw [recvPacket.eq_def] at h ⊢
  rw [parsed]
  revert h
  dsimp only
  rcases pkt.receive 4 (data.take (pkt.clearAndGetBuffer 4).packet.size) true none with
    ⟨code, received⟩
  intro h
  by_cases hcode : code = .ok
  · subst hcode
    dsimp only at h ⊢
    rw [handlePacket, if_pos henabled] at h ⊢
    by_cases hvalid : received.stunValid = true
    swap
    · rw [if_neg hvalid]
    rw [if_pos hvalid] at h
    by_cases hrequest : received.stun.type = StunMsgType.bindingRequest
    · rw [if_pos hrequest] at h
      cases hpersistent : s.persistent with
      | true =>
        rw [hpersistent] at h
        cases h
      | false =>
        rw [hpersistent] at h
        cases h
    rw [if_neg hrequest] at h
    by_cases hresponse : received.stun.type = StunMsgType.bindingResponse
    · rw [if_pos hresponse] at h
      exact absurd h (takeResponse_ne_ok received source out now)
    · rw [if_neg hresponse] at h
      cases h
  · cases code with
    | ok => exact absurd rfl hcode
    | _ => cases h

/-- A received packet passes the socket, the ports and the translator. -/
def Passes (hash : IPAddress → UInt64) (murmur32 : List UInt8 → UInt32 → UInt32) (s : Socket)
    (mappedIP dstPrefix : IPAddress) (getMTU : PacketBuffer.GetMtu) (r : Received) : Prop :=
  r.ec = .ok ∧ r.pkt.portAccepted s.localPort = true ∧
    (r.pkt.translateIngress hash murmur32 mappedIP dstPrefix 128 getMTU).1 = .pass

instance (hash : IPAddress → UInt64) (murmur32 : List UInt8 → UInt32 → UInt32) (s : Socket)
    (mappedIP dstPrefix : IPAddress) (getMTU : PacketBuffer.GetMtu) (r : Received) :
    Decidable (s.Passes hash murmur32 mappedIP dstPrefix getMTU r) :=
  inferInstanceAs (Decidable (_ ∧ _ ∧ _))

/-- A packet is for the socket: for its local endpoint or for the one it is mapped to. -/
def IsFor (s : Socket) (pkt : PacketBuffer) : Prop :=
  pkt.AddressedTo ⟨s.localAddress, s.localPort⟩ ∨ ∃ ep ∈ s.mapped, pkt.AddressedTo ep

instance (s : Socket) (pkt : PacketBuffer) : Decidable (s.IsFor pkt) :=
  inferInstanceAs (Decidable (_ ∨ ∃ ep ∈ _, _))

/-- Without a mapped address nothing is rewritten before it is compared. -/
theorem isFor_of_passes {hash : IPAddress → UInt64} {murmur32 : List UInt8 → UInt32 → UInt32}
    {isdAsn : IsdAsn} {mappedIP dstPrefix : IPAddress} {getMTU : PacketBuffer.GetMtu}
    {pkt : PacketBuffer} {data : List UInt8} {source : IPEndpoint} {out : SendOutcome} {now : ℤ}
    (henabled : cfg.enableStun = true) (hnone : s.mapped = none)
    (hmap : mapToIPv6 ⟨isdAsn, s.localAddress⟩ = .ok mappedIP)
    (hlocal : ScIPAddress.isWrittenIPv4 ⟨isdAsn, s.localAddress⟩ = false)
    (hdst : (parsed pkt data).2.sci.dst.isWrittenIPv4 = false)
    (hpasses : s.Passes hash murmur32 mappedIP dstPrefix getMTU
      (s.recvPacket cfg pkt (.ok (data, source)) out now)) :
    s.IsFor (parsed pkt data).2 := by
  obtain ⟨hok, hport, hverdict⟩ := hpasses
  rw [recvPacket_ok henabled hok, ingressNat.eq_def, hnone] at hport hverdict
  obtain ⟨dst, hmapdst, hsame⟩ := PacketBuffer.accepted_of_translateIngress hverdict
  have haddr := eq_of_mapToIPv6 hlocal hdst hmap hmapdst hsame
  rw [PacketBuffer.portAccepted, Bool.and_eq_true, beq_iff_eq] at hport
  exact Or.inl ⟨(congrArg ScIPAddress.host haddr).symm, hport.1⟩

end Socket

/-! ### Runs -/

/-- The event stores a mapped address: the socket gives up on STUN, or takes a response that
carries one. -/
def SocketEvent.storesMapping (e : SocketEvent) : Bool :=
  e.gaveUp || e.accepted && e.response.any fun r => r.1.mapped.isSome

namespace SocketSystem

variable {cfg : StunConfig} {localPort : UInt16} {persistent : Bool} {localAddress : IPAddress}
  {h : List SocketEvent} {sys : SocketSystem}

/-- Nothing else does. -/
theorem mapped_eq_none_of_run (henabled : cfg.enableStun = true)
    (hrun : Run (opened localPort persistent localAddress) (step cfg) h sys)
    (hquiet : ∀ e ∈ h, e.storesMapping = false) : sys.socket.mapped = none := by
  induction hrun with
  | start => rfl
  | @next past sys sys' e hpast hstep ih =>
    have hold := ih fun e' he' => hquiet e' (List.mem_cons_of_mem e he')
    have he := hquiet e List.mem_cons_self
    rw [SocketEvent.storesMapping, Bool.or_eq_false_iff] at he
    cases effect_of_step henabled hstep with
    | gaveUp hgaveUp =>
      rw [hgaveUp] at he
      cases he.1
    | requested _ _ _ _ _ _ _ hmapped => exact hmapped.trans hold
    | accepted _ _ haccepted stun _ hresponse _ _ hsame _ _ =>
      rw [haccepted, hresponse] at he
      refine (hsame ?_).trans hold
      exact Option.not_isSome_iff_eq_none.mp (Bool.eq_false_iff.mp he.2)
    | other _ _ _ _ _ _ hmapped => exact hmapped.trans hold

/-- In every run without an event that stores a mapped address, the packets that pass are for
the socket, unless an IPv4 host is written as an IPv6 address. -/
theorem isFor_of_run (hash : IPAddress → UInt64) (murmur32 : List UInt8 → UInt32 → UInt32)
    (isdAsn : IsdAsn) (mappedIP dstPrefix : IPAddress) (getMTU : PacketBuffer.GetMtu)
    (pkt : PacketBuffer) (data : List UInt8) (source : IPEndpoint) (out : SendOutcome) (now : ℤ)
    (henabled : cfg.enableStun = true)
    (hrun : Run (opened localPort persistent localAddress) (step cfg) h sys)
    (hquiet : ∀ e ∈ h, e.storesMapping = false)
    (hmap : mapToIPv6 ⟨isdAsn, sys.socket.localAddress⟩ = .ok mappedIP)
    (hlocal : ScIPAddress.isWrittenIPv4 ⟨isdAsn, sys.socket.localAddress⟩ = false)
    (hdst : (Socket.parsed pkt data).2.sci.dst.isWrittenIPv4 = false)
    (hpasses : sys.socket.Passes hash murmur32 mappedIP dstPrefix getMTU
      (sys.socket.recvPacket cfg pkt (.ok (data, source)) out now)) :
    sys.socket.IsFor (Socket.parsed pkt data).2 :=
  Socket.isFor_of_passes henabled (mapped_eq_none_of_run henabled hrun hquiet) hmap hlocal hdst
    hpasses

/-! ### A packet for somebody else -/

/-- A packet to 1-1,10.0.0.`host` with the destination port 256 · `hi` + `lo`. -/
def datagramTo (host hi lo : UInt8) : List UInt8 :=
  [0, 0, 0, 1, 17, 9, 0, 9, 0, 0, 0, 0, 0, 1, 0, 0, 0, 0, 0, 1, 0, 1, 0, 0, 0, 0, 0, 2, 10, 0, 0,
    host, 10, 0, 0, 2, 0, 80, hi, lo, 0, 9, 0x12, 0x34, 7]

/-- The mapped form of 1-1,10.0.0.1. -/
def exampleMappedIP : IPAddress := .v6 0xfc00100001000000 0xffff0a000001 ""

def exampleBuffer : PacketBuffer := PacketBuffer.ofBuffer (List.replicate 64 0)

/-- The socket was asked to send something, which takes a mapped address. -/
theorem isFor_of_run_exampleCall : ∃ sys,
    Run (opened 31000 false (.v4 0x0a000001)) (step exampleConfig)
        [.sendPacket 0 exampleCall] sys ∧
      sys.socket.IsFor (Socket.parsed exampleBuffer (datagramTo 1 0x79 0x18)).2 := by
  have hrun : Run (opened 31000 false (.v4 0x0a000001)) (step exampleConfig)
      [.sendPacket 0 exampleCall]
      ((opened 31000 false (.v4 0x0a000001)).setThread 0 (.requesting exampleCall)) :=
    run_of_replay rfl
  exact ⟨_, hrun, isFor_of_run (fun _ => 0) (fun _ _ => 0) ⟨0x1000000000001⟩ exampleMappedIP
    exampleMappedIP (fun _ rp => (1280, rp)) exampleBuffer (datagramTo 1 0x79 0x18)
    ⟨.v4 0x0a000002, 80⟩ ⟨none, 0⟩ 0 rfl hrun
    (fun e he => by rw [List.mem_singleton.mp he]; rfl) (by decide) (by decide)
    (by decide +kernel) (by decide +kernel)⟩

/-- With a mapped address, a packet to another host and port passes. -/
theorem not_forall_isFor :
    ¬ ∀ (hash : IPAddress → UInt64) (murmur32 : List UInt8 → UInt32 → UInt32) (isdAsn : IsdAsn)
      (mappedIP dstPrefix : IPAddress) (getMTU : PacketBuffer.GetMtu) (cfg : StunConfig)
      (localPort : UInt16) (persistent : Bool) (localAddress : IPAddress) (h : List SocketEvent)
      (sys : SocketSystem) (pkt : PacketBuffer) (data : List UInt8) (source : IPEndpoint)
      (out : SendOutcome) (now : ℤ), cfg.enableStun = true →
      Run (opened localPort persistent localAddress) (step cfg) h sys →
      mapToIPv6 ⟨isdAsn, sys.socket.localAddress⟩ = .ok mappedIP →
      sys.socket.Passes hash murmur32 mappedIP dstPrefix getMTU
        (sys.socket.recvPacket cfg pkt (.ok (data, source)) out now) →
      sys.socket.IsFor (Socket.parsed pkt data).2 := by
  intro hclaim
  have hreplay : ((replay (opened 31000 false (.v4 0x0a000001)) (step exampleConfig)
      answeredOnce).any fun sys =>
        decide (mapToIPv6 ⟨⟨0x1000000000001⟩, sys.socket.localAddress⟩ = .ok exampleMappedIP ∧
          sys.socket.Passes (fun _ => 0) (fun _ _ => 0) exampleMappedIP exampleMappedIP
            (fun _ rp => (1280, rp)) (sys.socket.recvPacket exampleConfig exampleBuffer
              (.ok (datagramTo 77 0x30 0x39, ⟨.v4 0x0a000002, 80⟩)) ⟨none, 0⟩ 0) ∧
          ¬sys.socket.IsFor (Socket.parsed exampleBuffer (datagramTo 77 0x30 0x39)).2)) = true := by
    decide +kernel
  obtain ⟨sys, hsys, hall⟩ := (Option.any_eq_true _ _).mp hreplay
  obtain ⟨hmap, hpasses, hnot⟩ := of_decide_eq_true hall
  exact hnot (hclaim _ _ ⟨0x1000000000001⟩ exampleMappedIP _ _ exampleConfig 31000 false
    (.v4 0x0a000001) answeredOnce sys exampleBuffer (datagramTo 77 0x30 0x39) _ _ _ rfl
    (run_of_replay hsys) hmap hpasses)

end SocketSystem

end Scion
