/-
The packet buffer of the translator (`scitra/packet.hpp`, `scitra/packet.cpp`).

A packet lies somewhere in a buffer, and its headers are parsed into members that can
be rewritten in place and emitted again in front of the payload.

* `PacketBuffer`, with `clearAndGetBuffer`, `parsePacket`, `emitPacket` and the other
  functions of the source;
* `emitted` — the bytes of the valid headers with the checksum of the underlay;
* `emitPacket_ok`, `emitPacket_error` — what is emitted, and when nothing is.
-/
import Scion.AcceptedHeaders
import Scion.PathDigest
import Scion.Stun

namespace Scion

open BigEndian Codec ReadStream WriteStream

/-! ### STUN messages in a buffer -/

namespace STUN

/-- Reading into an existing message: a mapped address stays when there is none in the
attributes. -/
def readInto (old : STUN) : Reader STUN := do
  let type ← ReadStream.serializeUint16
  let length ← ReadStream.serializeUint16
  let cookie ← ReadStream.serializeUint32
  ensure (cookie == magicCookie) "magic cookie does not match"
  let transaction ← ReadStream.serializeBytes 12
  let attribs ← ReadStream.lookahead (some length.toNat)
  match parseAttributes transaction attribs.length old.mapped (ReadStream.ofBuffer attribs) with
  | .ok mapped _ => pure ⟨type, transaction, mapped⟩
  | .error e _ => throw e

def mappedBytes (tx : List UInt8) (address : IPEndpoint) : List UInt8 :=
  beBytes 2 StunAttribType.xorMappedAddress.toNat ++
    (beBytes 2 (UInt16.ofNat (8 + address.host.size - 4)).toNat ++ (List.replicate 1 (0 : UInt8) ++
      ([if address.host.is4 then StunAddrFamily.ipv4 else StunAddrFamily.ipv6] ++
        (beBytes 2 (address.port ^^^ (magicCookie >>> 16).toUInt16).toNat ++
          if address.host.is4 then beBytes 4 (address.host.getIPv4 ^^^ magicCookie).toNat
          else
            beBytes 8 (address.host.hi ^^^ ((magicCookie.toUInt64 <<< 32) |||
              UInt64.ofNat (beNat (tx.take 4)))).toNat ++
            beBytes 8 (address.host.lo ^^^ UInt64.ofNat (beNat ((tx.drop 4).take 8))).toNat))))

def bytes (stun : STUN) : List UInt8 :=
  beBytes 2 stun.type.toNat ++ (beBytes 2 (UInt16.ofNat (stun.size - stunHeaderSize)).toNat ++
    (beBytes 4 magicCookie.toNat ++ (stun.transaction ++
      ((stun.mapped.map (mappedBytes stun.transaction)).getD []))))

theorem bytes_pos (stun : STUN) : 0 < stun.bytes.length := by
  rw [bytes, List.length_append, length_beBytes]
  omega

theorem writes_mapped (tx : List UInt8) (address : IPEndpoint) :
    Writes WriteStream.cursor (writeXorMapped tx address) (mappedBytes tx address) := by
  refine (writes_uint16 _).bind ((writes_uint16 _).bind ((writes_advanceBytes 1).bind
    ((writes_byte _).bind ((writes_uint16 _).bind ?_))))
  cases h4 : address.host.is4 with
  | true =>
    simp only [if_true]
    exact writes_uint32 _
  | false =>
    simp only [Bool.false_eq_true, if_false]
    exact (IPAddress.v6 _ _ "").writes

theorem writes (stun : STUN) : Writes WriteStream.cursor stun.write stun.bytes := by
  refine (writes_uint16 _).bind ((writes_uint16 _).bind ((writes_uint32 _).bind
    ((writes_bytes _).bind ?_)))
  cases hmapped : stun.mapped with
  | none => exact Writes.pure
  | some address => exact writes_mapped stun.transaction address

end STUN

/-! ### The members -/

/-- Which of the IP headers holds valid data. -/
inductive IPValidity
  | none
  | ipv4
  | ipv6
  deriving DecidableEq, Repr

/-- Which of the layer 4 headers holds valid data. -/
inductive L4Type
  | none
  | icmp
  | scmp
  | tcp
  | udp
  deriving DecidableEq, Repr

namespace L4Type

/-- The values of the enumeration are protocol numbers. -/
def proto : L4Type → UInt8
  | none => 0
  | icmp => IPProto.icmpv6
  | scmp => ScionProto.scmp
  | tcp => IPProto.tcp
  | udp => IPProto.udp

end L4Type

/-- A part of the buffer. -/
structure Span where
  offset : ℕ
  size : ℕ
  deriving DecidableEq, Repr

/-- A raw packet, and the headers parsed from it. The headers are valid as the flags
say. -/
structure PacketBuffer where
  ipValid : IPValidity := .none
  outerUDPValid : Bool := false
  stunValid : Bool := false
  scionValid : Bool := false
  l4Valid : L4Type := .none
  ipv4 : IPv4 := {}
  ipv6 : IPv6 := {}
  outerUDP : UDP := ⟨0, 0, 0, 0⟩
  stun : STUN := ⟨StunMsgType.bindingRequest, List.replicate 12 0, Option.none⟩
  sci : SCION := ⟨0, 9, ScionProto.udp, PathType.empty, 0, 0, ⟨⟨0⟩, .v6 0 0 ""⟩, ⟨⟨0⟩, .v6 0 0 ""⟩⟩
  path : RawPathContents := RawPathContents.empty
  icmp : ICMPv6 := {}
  scmp : SCMP := ⟨0, .unknownError 0 0⟩
  tcp : TCP := {}
  udp : UDP := ⟨0, 0, 0, 0⟩
  buffer : List UInt8
  packet : Span
  endOfHeader : ℕ
  deriving DecidableEq, Repr

/-- Whether a UDP packet between two endpoints should be parsed as SCION. -/
abbrev IsScion := IPEndpoint → IPEndpoint → Bool

/-- Programs that read from a packet into a packet buffer. -/
abbrev PacketParser (α : Type) := EStateM String (PacketBuffer × ReadStream) α

namespace PacketBuffer

def ofBuffer (buffer : List UInt8) : PacketBuffer where
  buffer := buffer
  packet := ⟨0, buffer.length⟩
  endOfHeader := 0

/-- All valid headers are invalidated, and the packet becomes the buffer behind the
headroom. -/
def clearAndGetBuffer (headroom : ℕ) (pkt : PacketBuffer) : PacketBuffer :=
  let headroom := min headroom pkt.buffer.length
  { pkt with
    ipValid := .none
    outerUDPValid := false
    stunValid := false
    scionValid := false
    l4Valid := .none
    packet := ⟨headroom, pkt.buffer.length - headroom⟩
    endOfHeader := 0 }

/-- Raw data is written to the span that `clearAndGetBuffer` returned. -/
def place (raw : List UInt8) (pkt : PacketBuffer) : PacketBuffer :=
  { pkt with buffer := Records.overwrite pkt.buffer pkt.packet.offset raw }

/-! ### Parsing

A header that is not accepted leaves its member as it was, where the source leaves it
partly overwritten: nothing reads the member before the next header is parsed into it.
The checksum of SCMP is different and is stored before the message is accepted. -/

def scan {α : Type} (r : Reader α) : PacketParser α := fun s =>
  match r s.2 with
  | .ok a rs => .ok a (s.1, rs)
  | .error e rs => .error e (s.1, rs)

def update (f : PacketBuffer → PacketBuffer) : PacketParser Unit := fun s => .ok () (f s.1, s.2)

/-- Read into a member. -/
def scanInto {α : Type} (r : PacketBuffer → Reader α) (set : α → PacketBuffer → PacketBuffer) :
    PacketParser α := fun s => (do let a ← scan (r s.1); update (set a); pure a) s

/-- The IP header; the source address and the protocol are returned. -/
def parseIP : PacketParser (IPAddress × IPProto) := do
  let ipVer ← scan (UInt64.toUInt8 <$> ReadStream.serializeBits 8 4)
  if ipVer = 4 then do
    scan (modify fun rs => (rs.seek (some 0) 0).2)
    let ipv4 ← scanInto (fun _ => IPv4.read) fun ipv4 pkt =>
      { pkt with ipv4 := ipv4, ipValid := .ipv4 }
    pure (ipv4.src, ipv4.proto)
  else if ipVer = 6 then do
    scan (modify fun rs => (rs.seek (some 0) 0).2)
    let ipv6 ← scanInto (fun _ => IPv6.read) fun ipv6 pkt =>
      { pkt with ipv6 := ipv6, ipValid := .ipv6 }
    pure (ipv6.src, ipv6.nh)
  else throw "invalid IP version"

/-- Whether STUN is ahead. -/
def aheadStun : PacketParser Bool := fun s =>
  match ReadStream.lookahead (some STUN.stunHeaderSize) s.2 with
  | .ok header rs => .ok (detectStun header) (s.1, rs)
  | .error _ rs => .ok false (s.1, rs)

def parseStun : PacketParser Unit := do
  let _ ← scanInto (fun pkt => STUN.readInto pkt.stun) fun stun pkt =>
    { pkt with stun := stun, stunValid := true }
  pure ()

/-- The options of one kind of extension header, which are skipped. -/
def skipOpts (kind proto : ScionProto) : PacketParser ScionProto :=
  if proto = kind then do
    let opts ← scan OptsHeader.read
    scan (ReadStream.advanceBytes opts.optionSize)
    pure opts.nh
  else pure proto

/-- `RawPath::assign`. -/
def assignPath (source destination : IsdAsn) (type : PathType) (data : List UInt8) :
    PacketParser Unit := fun s =>
  match s.1.path.assign source destination type data with
  | .ok path => .ok () ({ s.1 with path := path }, s.2)
  | .error e => .error e s

/-- The SCION header, the path and the options; the protocol behind them is returned. -/
def parseScion : PacketParser ScionProto := do
  let sci ← scanInto (fun _ => SCION.read) fun sci pkt => { pkt with sci := sci }
  let pdata ← scan (ReadStream.lookahead (some sci.pathSize))
  assignPath sci.src.isdAsn sci.dst.isdAsn sci.ptype pdata
  scan (ReadStream.advanceBytes sci.pathSize)
  let proto ← skipOpts ScionProto.hbhOpt sci.nh
  let proto ← skipOpts ScionProto.e2eOpt proto
  update fun pkt => { pkt with scionValid := true }
  pure proto

def parseScmp : PacketParser Unit := do
  let type ← scan ReadStream.serializeByte
  let code ← scan ReadStream.serializeByte
  let chksum ← scanInto (fun _ => ReadStream.serializeUint16) fun chksum pkt =>
    { pkt with scmp.chksum := chksum }
  let _ ← scanInto (fun _ => ScmpMessage.read type code) fun msg pkt =>
    { pkt with scmp := ⟨chksum, msg⟩, l4Valid := .scmp }
  pure ()

def parseL4 (proto : ScionProto) : PacketParser Unit :=
  if proto = ScionProto.scmp then parseScmp
  else if proto = IPProto.icmpv6 then do
    let _ ← scanInto (fun _ => ICMPv6.read) fun icmp pkt =>
      { pkt with icmp := icmp, l4Valid := .icmp }
    pure ()
  else if proto = ScionProto.tcp then do
    let _ ← scanInto (fun pkt => TCP.read pkt.tcp) fun tcp pkt =>
      { pkt with tcp := tcp, l4Valid := .tcp }
    pure ()
  else if proto = ScionProto.udp then do
    let _ ← scanInto (fun _ => UDP.read) fun udp pkt => { pkt with udp := udp, l4Valid := .udp }
    pure ()
  else throw "protocol not supported"

/-- The underlay of a UDP packet, or the packet itself. Both endpoints are made of the
source address. -/
def parseUDP (isScion : Option IsScion) (srcIP : IPAddress) : PacketParser Unit := do
  let outerUDP ← scanInto (fun _ => UDP.read) fun outerUDP pkt => { pkt with outerUDP := outerUDP }
  if isScion.any fun isScion => isScion ⟨srcIP, outerUDP.sport⟩ ⟨srcIP, outerUDP.dport⟩ then do
    update fun pkt => { pkt with outerUDPValid := true }
    let proto ← parseScion
    parseL4 proto
  else update fun pkt => { pkt with udp := pkt.outerUDP, outerUDPValid := false, l4Valid := .udp }

/-- What follows the IP header and is not STUN. -/
def parseInner (noUnderlay : Bool) (isScion : Option IsScion) (srcIP : IPAddress)
    (ipProto : IPProto) : PacketParser Unit :=
  if noUnderlay then do
    let proto ← parseScion
    parseL4 proto
  else if ipProto = IPProto.udp then parseUDP isScion srcIP
  else parseL4 ipProto

def parse (noUnderlay : Bool) (isScion : Option IsScion) : PacketParser Unit := do
  let ip ← if noUnderlay then pure (.v6 0 0 "", 0) else parseIP
  let stun ← aheadStun
  if stun then parseStun else parseInner noUnderlay isScion ip.1 ip.2

/-- The packet as it lies in the buffer. -/
def raw (pkt : PacketBuffer) : List UInt8 :=
  Records.slice pkt.buffer pkt.packet.offset pkt.packet.size

def parsePacket (size : ℕ) (noUnderlay : Bool) (isScion : Option IsScion) (pkt : PacketBuffer) :
    ErrorCode × PacketBuffer :=
  let pkt := { pkt with
    endOfHeader := pkt.packet.offset
    packet.size := min size pkt.packet.size }
  match parse noUnderlay isScion (pkt, ReadStream.ofBuffer pkt.raw) with
  | .ok _ (pkt, rs) => (.ok, { pkt with endOfHeader := pkt.packet.offset + rs.bytePos })
  | .error _ (pkt, _) => (.invalidPacket, pkt)

/-! ### Views and sizes -/

/-- The packet without its headers. -/
def payload (pkt : PacketBuffer) : List UInt8 :=
  Records.slice pkt.buffer pkt.endOfHeader
    (pkt.packet.size - (pkt.endOfHeader - pkt.packet.offset))

/-- The raw headers become payload, of `maxSize` bytes at most. The new length of the
payload is returned. -/
def quoteRawHeaders (maxSize : ℕ) (pkt : PacketBuffer) : ℕ × PacketBuffer :=
  let size := min pkt.packet.size maxSize
  (size, { pkt with packet.size := size, endOfHeader := pkt.packet.offset })

def l4Size (pkt : PacketBuffer) : ℕ :=
  match pkt.l4Valid with
  | .icmp => pkt.icmp.size
  | .scmp => pkt.scmp.size
  | .tcp => pkt.tcp.size
  | .udp => pkt.udp.size
  | .none => 0

/-- The size of the valid headers. -/
def measureHeaders (noUnderlay : Bool) (pkt : PacketBuffer) : ℕ :=
  let size := 0
  let size :=
    if noUnderlay then size
    else
      let size :=
        match pkt.ipValid with
        | .ipv4 => size + pkt.ipv4.size
        | .ipv6 => size + pkt.ipv6.size
        | .none => size
      if pkt.outerUDPValid then size + pkt.outerUDP.size else size
  let size := if pkt.scionValid then size + (pkt.sci.size + pkt.path.size) else size
  size + pkt.l4Size

/-- The source port of the layer 4 protocol or `default`. -/
def l4SPort (default : UInt16) (pkt : PacketBuffer) : UInt16 :=
  match pkt.l4Valid with
  | .tcp => pkt.tcp.sport
  | .udp => pkt.udp.sport
  | _ => default

/-- The destination port of the layer 4 protocol or `default`. -/
def l4DPort (default : UInt16) (pkt : PacketBuffer) : UInt16 :=
  match pkt.l4Valid with
  | .tcp => pkt.tcp.dport
  | .udp => pkt.udp.dport
  | _ => default

/-! ### Emitting -/

/-- The checksum over the outer UDP header as it is, the pseudo header, the payload and
the headers `data` behind the outer UDP header. -/
def outerChksum (pkt : PacketBuffer) (data : List UInt8) : UInt16 :=
  let hdrChksum := pkt.outerUDP.checksum
  let hdrChksum :=
    match pkt.ipValid with
    | .ipv4 => hdrChksum + pkt.ipv4.checksum pkt.outerUDP.len
    | .ipv6 => hdrChksum + pkt.ipv6.checksum pkt.outerUDP.len
    | .none => hdrChksum
  internetChecksum data (onesComplementChecksum pkt.payload hdrChksum).toUInt32

def emitIP (pkt : PacketBuffer) : Writer :=
  match pkt.ipValid with
  | .ipv4 => pkt.ipv4.write
  | .ipv6 => pkt.ipv6.write
  | .none => pure ()

/-- The underlay. The position of the outer UDP header is returned. -/
def emitUnderlay (noUnderlay : Bool) (pkt : PacketBuffer) : EStateM String WriteStream ℕ :=
  if noUnderlay then pure 0
  else do
    pkt.emitIP
    if pkt.outerUDPValid then do
      let outerUdpPos ← WriteStream.getPos
      pkt.outerUDP.write
      pure outerUdpPos
    else pure 0

def emitL4 (pkt : PacketBuffer) : Writer :=
  match pkt.l4Valid with
  | .icmp => pkt.icmp.write
  | .scmp => pkt.scmp.write
  | .tcp => pkt.tcp.write
  | .udp => pkt.udp.write
  | .none => pure ()

def emitScion (pkt : PacketBuffer) : Writer := do
  pkt.sci.write
  WriteStream.serializeBytes pkt.path.encoded

/-- The headers behind the underlay. -/
def emitInner (pkt : PacketBuffer) : Writer := do
  writeIf pkt.stunValid pkt.stun.write
  writeIf pkt.scionValid pkt.emitScion
  pkt.emitL4

/-- A writer whose error is ignored. -/
def ignoreError (w : Writer) : Writer := fun ws =>
  match w ws with
  | .ok _ ws => .ok () ws
  | .error _ ws => .ok () ws

/-- Store the checksum of the outer UDP header. -/
def emitOuterChksum (outerUdpPos : ℕ) (pkt : PacketBuffer) : Writer := do
  let pos ← WriteStream.getPos
  let offset := pos - outerUdpPos - 8
  let data ← WriteStream.lookback (some offset)
  ignoreError (WriteStream.updateChksum (pkt.outerChksum data) offset)

def emit (noUnderlay : Bool) (pkt : PacketBuffer) : Writer := do
  let outerUdpPos ← pkt.emitUnderlay noUnderlay
  pkt.emitInner
  writeIf (!noUnderlay && pkt.outerUDPValid) (pkt.emitOuterChksum outerUdpPos)

/-- The valid headers are written in front of the payload, which is not moved. -/
def emitPacket (noUnderlay : Bool) (pkt : PacketBuffer) : Maybe (List UInt8) × PacketBuffer :=
  let headroom := pkt.endOfHeader
  let hdrSize := pkt.measureHeaders noUnderlay
  let payloadSize := pkt.packet.size - (pkt.endOfHeader - pkt.packet.offset)
  if headroom < hdrSize then (.error .bufferTooSmall, pkt)
  else
    match pkt.emit noUnderlay
        (WriteStream.ofBuffer (Records.slice pkt.buffer (headroom - hdrSize) hdrSize)) with
    | .ok _ ws =>
      let pkt := { pkt with
        buffer := Records.overwrite pkt.buffer (headroom - hdrSize) ws.data
        packet := ⟨headroom - hdrSize, hdrSize + payloadSize⟩ }
      (.ok pkt.raw, pkt)
    | .error _ ws =>
      (.error .logicError,
        { pkt with buffer := Records.overwrite pkt.buffer (headroom - hdrSize) ws.data })

/-! ### What is emitted -/

/-- The bytes of the IP header. -/
def ipBytes (pkt : PacketBuffer) : List UInt8 :=
  match pkt.ipValid with
  | .ipv4 => pkt.ipv4.bytes
  | .ipv6 => pkt.ipv6.bytes
  | .none => []

def scionBytes (pkt : PacketBuffer) : List UInt8 := pkt.sci.bytes ++ pkt.path.encoded

def l4Bytes (pkt : PacketBuffer) : List UInt8 :=
  match pkt.l4Valid with
  | .icmp => pkt.icmp.bytes
  | .scmp => pkt.scmp.bytes
  | .tcp => pkt.tcp.bytes
  | .udp => pkt.udp.bytes
  | .none => []

/-- The bytes of the headers behind the underlay. -/
def innerBytes (pkt : PacketBuffer) : List UInt8 :=
  bytesIf pkt.stunValid pkt.stun.bytes ++ (bytesIf pkt.scionValid pkt.scionBytes ++ pkt.l4Bytes)

/-- The bytes of the underlay with a given checksum. -/
def underlayBytes (noUnderlay : Bool) (chksum : UInt16) (pkt : PacketBuffer) : List UInt8 :=
  bytesIf (!noUnderlay) (pkt.ipBytes ++
    bytesIf pkt.outerUDPValid ({ pkt.outerUDP with chksum := chksum } : UDP).bytes)

/-- The bytes of the valid headers, with the checksum of the underlay. -/
def emitted (noUnderlay : Bool) (pkt : PacketBuffer) : List UInt8 :=
  pkt.underlayBytes noUnderlay (pkt.outerChksum pkt.innerBytes) ++ pkt.innerBytes

/-- The addresses of the IP header are of its version. -/
structure IPWritable (pkt : PacketBuffer) : Prop where
  ipv4 : pkt.ipValid = .ipv4 → pkt.ipv4.Is4
  ipv6 : pkt.ipValid = .ipv6 → pkt.ipv6.Is6

/-- The headers that can be written: the IP header, and no SCMP message that is an unknown
error. -/
structure Writable (noUnderlay : Bool) (pkt : PacketBuffer) : Prop where
  ip : noUnderlay = false → pkt.IPWritable
  scmp : pkt.l4Valid = .scmp → pkt.scmp.msg.isKnown = true

theorem length_underlayBytes (noUnderlay : Bool) (chksum chksum' : UInt16) (pkt : PacketBuffer) :
    (pkt.underlayBytes noUnderlay chksum).length
      = (pkt.underlayBytes noUnderlay chksum').length := by
  simp only [underlayBytes, length_bytesIf, List.length_append, UDP.length_bytes]

section Writable

variable {noUnderlay : Bool} {pkt : PacketBuffer}

theorem writes_ip (hw : pkt.IPWritable) : Writes WriteStream.cursor pkt.emitIP pkt.ipBytes := by
  rw [emitIP, ipBytes]
  cases hip : pkt.ipValid with
  | none => exact Writes.pure
  | ipv4 => exact IPv4.writes (hw.ipv4 hip)
  | ipv6 => exact IPv6.writes (hw.ipv6 hip)

theorem refuses_ip (hw : ¬pkt.IPWritable) : Refuses WriteStream.cursor pkt.emitIP [] := by
  rw [emitIP]
  cases hip : pkt.ipValid with
  | none =>
    refine absurd ⟨fun h => ?_, fun h => ?_⟩ hw
    · rw [hip] at h
      cases h
    · rw [hip] at h
      cases h
  | ipv4 =>
    refine IPv4.refuses fun h4 => hw ⟨fun _ => h4, fun h => ?_⟩
    rw [hip] at h
    cases h
  | ipv6 =>
    refine IPv6.refuses fun h6 => hw ⟨fun h => ?_, fun _ => h6⟩
    rw [hip] at h
    cases h

theorem writes_l4 (hw : pkt.l4Valid = .scmp → pkt.scmp.msg.isKnown = true) :
    Writes WriteStream.cursor pkt.emitL4 pkt.l4Bytes := by
  rw [emitL4, l4Bytes]
  cases hl4 : pkt.l4Valid with
  | none => exact Writes.pure
  | icmp => exact pkt.icmp.writes
  | scmp => exact SCMP.writes (hw hl4)
  | tcp => exact pkt.tcp.writes
  | udp => exact pkt.udp.writes

theorem writes_inner (hw : pkt.l4Valid = .scmp → pkt.scmp.msg.isKnown = true) :
    Writes WriteStream.cursor pkt.emitInner pkt.innerBytes :=
  (writes_if pkt.stunValid pkt.stun.writes).bind ((writes_if pkt.scionValid
    (pkt.sci.writes.bind (writes_bytes pkt.path.encoded))).bind (writes_l4 hw))

/-- The outer UDP header, whose position is returned. -/
theorem writesAt_outerUDP (h : UDP) (p : ℕ) :
    WritesAt WriteStream.cursor p
      (do let outerUdpPos ← WriteStream.getPos; h.write; pure outerUdpPos) h.bytes p := by
  refine writesAt_getPos_bind ?_
  have hudp := (h.writes.at p).bind (f := fun _ => pure p) (WritesAt.pure (p + h.bytes.length) p)
  rwa [List.append_nil] at hudp

theorem writesAt_underlay (hw : noUnderlay = false → pkt.IPWritable) :
    WritesAt WriteStream.cursor 0 (pkt.emitUnderlay noUnderlay)
      (pkt.underlayBytes noUnderlay pkt.outerUDP.chksum)
      (if !noUnderlay && pkt.outerUDPValid then pkt.ipBytes.length else 0) := by
  cases noUnderlay with
  | true => exact WritesAt.pure 0 0
  | false =>
    have hip := (writes_ip (hw rfl)).at 0
    cases houter : pkt.outerUDPValid with
    | true =>
      have hudp := writesAt_outerUDP pkt.outerUDP (0 + pkt.ipBytes.length)
      have hall := hip.bind (f := fun _ => _) hudp
      simp only [emitUnderlay, underlayBytes, houter, Bool.not_false, Bool.and_self,
        Bool.false_eq_true, if_false, if_true, bytesIf]
      rwa [zero_add] at hall
    | false =>
      have hall := hip.bind (f := fun _ => pure 0) (WritesAt.pure (0 + pkt.ipBytes.length) 0)
      simp only [emitUnderlay, underlayBytes, houter, Bool.not_false, Bool.and_false,
        Bool.false_eq_true, if_false, if_true, bytesIf]
      exact hall

/-- Storing the checksum of the outer UDP header, which is `data.length` bytes back. -/
theorem emitOuterChksum_cursor (front old data rest : List UInt8) (hold : old.length = 2)
    (hfront : 6 ≤ front.length) :
    pkt.emitOuterChksum (front.length - 6) (WriteStream.cursor (front ++ (old ++ data)) rest)
      = .ok () (WriteStream.cursor
        (front ++ (beBytes 2 (pkt.outerChksum data).toNat ++ data)) rest) := by
  have hpos : WriteStream.getPos (WriteStream.cursor (front ++ (old ++ data)) rest)
      = .ok (front ++ (old ++ data)).length (WriteStream.cursor (front ++ (old ++ data)) rest) := rfl
  have hoffset : (front ++ (old ++ data)).length - (front.length - 6) - 8 = data.length := by
    simp only [List.length_append, hold]
    omega
  have hback := lookback_cursor (front ++ old) data rest data.length rfl
  rw [List.append_assoc] at hback
  rw [emitOuterChksum, bind_ok hpos, hoffset, bind_ok hback, ignoreError,
    updateChksum_cursor _ front old data rest hold]

/-- Headers that fit are written. -/
theorem emit_ok (hw : pkt.Writable noUnderlay) {region : List UInt8}
    (hroom : (pkt.emitted noUnderlay).length ≤ region.length) :
    pkt.emit noUnderlay (WriteStream.ofBuffer region)
      = .ok () (WriteStream.cursor (pkt.emitted noUnderlay)
          (region.drop (pkt.emitted noUnderlay).length)) := by
  set under := pkt.underlayBytes noUnderlay pkt.outerUDP.chksum with hunder
  have hlen : (pkt.emitted noUnderlay).length = under.length + pkt.innerBytes.length := by
    rw [emitted, List.length_append, length_underlayBytes _ _ pkt.outerUDP.chksum]
  have hfirst := (writesAt_underlay hw.ip [] region rfl).1 (by rw [← hunder]; omega)
  have hinner := (writes_inner hw.scmp under (region.drop under.length)).1
    (by rw [List.length_drop]; omega)
  rw [List.nil_append] at hfirst
  rw [List.drop_drop, ← hlen] at hinner
  rw [emit, WriteStream.ofBuffer_eq, bind_ok hfirst, bind_ok hinner]
  cases hstore : !noUnderlay && pkt.outerUDPValid with
  | false =>
    -- without an outer UDP header there is no checksum to store
    have hsame : pkt.emitted noUnderlay = under ++ pkt.innerBytes := by
      rw [emitted, hunder, underlayBytes, underlayBytes]
      cases noUnderlay with
      | true => rfl
      | false =>
        rw [Bool.not_false, Bool.true_and] at hstore
        simp only [hstore, bytesIf, Bool.false_eq_true, if_false]
    rw [hsame]
    rfl
  | true =>
    obtain ⟨hnot, houter⟩ := (Bool.and_eq_true _ _).mp hstore
    set udp := pkt.outerUDP with hudp
    have hbytes : ∀ chksum : UInt16, pkt.underlayBytes noUnderlay chksum
        = pkt.ipBytes ++ (beBytes 2 udp.sport.toNat ++ (beBytes 2 udp.dport.toNat ++
            beBytes 2 udp.len.toNat)) ++ beBytes 2 chksum.toNat := by
      intro chksum
      simp only [underlayBytes, hnot, houter, bytesIf, if_true, UDP.bytes, List.append_assoc]
      rfl
    have hrun := @emitOuterChksum_cursor pkt
      (pkt.ipBytes ++ (beBytes 2 udp.sport.toNat ++ (beBytes 2 udp.dport.toNat ++
        beBytes 2 udp.len.toNat))) (beBytes 2 udp.chksum.toNat) pkt.innerBytes
      (region.drop (pkt.emitted noUnderlay).length) (length_beBytes 2 _)
      (by simp only [List.length_append, length_beBytes]; omega)
    have hpos : (pkt.ipBytes ++ (beBytes 2 udp.sport.toNat ++ (beBytes 2 udp.dport.toNat ++
        beBytes 2 udp.len.toNat))).length - 6 = pkt.ipBytes.length := by
      simp only [List.length_append, length_beBytes]
      omega
    rw [hpos, ← List.append_assoc, ← hbytes, ← List.append_assoc, ← hbytes] at hrun
    exact hrun

theorem refuses_scmp {msg : ScmpMessage} (h : msg.isKnown = false) (chksum : UInt16) :
    Refuses WriteStream.cursor (SCMP.mk chksum msg).write [] := by
  intro pre post
  cases hrun : (SCMP.mk chksum msg).write (WriteStream.cursor pre ([] ++ post)) with
  | error e s' => exact ⟨e, s', rfl⟩
  | ok u s' =>
    have hknown : msg.isKnown = true :=
      L4Header.isKnown_of_write_eq_ok (h := .scmp ⟨chksum, msg⟩) hrun
    rw [h] at hknown
    cases hknown

theorem refuses_inner (hl4 : pkt.l4Valid = .scmp) (hmsg : pkt.scmp.msg.isKnown = false) :
    Refuses WriteStream.cursor pkt.emitInner [] := by
  refine (writes_if pkt.stunValid pkt.stun.writes).bind_refuses ((writes_if pkt.scionValid
    (pkt.sci.writes.bind (writes_bytes pkt.path.encoded))).bind_refuses ?_)
  rw [emitL4, hl4]
  exact refuses_scmp hmsg pkt.scmp.chksum

/-- Headers that do not fit, or are not of their kind, are not written. -/
theorem emit_error {region : List UInt8}
    (h : pkt.Writable noUnderlay → region.length < (pkt.emitted noUnderlay).length) :
    ∃ e s, pkt.emit noUnderlay (WriteStream.ofBuffer region) = .error e s := by
  rw [emit]
  by_cases hip : noUnderlay = false → pkt.IPWritable
  · obtain ⟨hfits, hshort⟩ := writesAt_underlay hip [] region rfl
    set under := pkt.underlayBytes noUnderlay pkt.outerUDP.chksum with hunder
    by_cases hroom : under.length ≤ region.length
    · -- the underlay is written, and what follows fails
      have hinner : ∃ e s, pkt.emitInner
          (WriteStream.cursor ([] ++ under) (region.drop under.length)) = .error e s := by
        by_cases hscmp : pkt.l4Valid = .scmp → pkt.scmp.msg.isKnown = true
        · have hlong := h ⟨hip, hscmp⟩
          rw [emitted, List.length_append, length_underlayBytes _ _ pkt.outerUDP.chksum,
            ← hunder] at hlong
          exact (writes_inner hscmp ([] ++ under) (region.drop under.length)).2
            (by rw [List.length_drop]; omega)
        · rw [Classical.not_imp, Bool.not_eq_true] at hscmp
          exact refuses_inner hscmp.1 hscmp.2 ([] ++ under) (region.drop under.length)
      obtain ⟨e, s, herr⟩ := hinner
      exact ⟨e, s, by rw [WriteStream.ofBuffer_eq, bind_ok (hfits hroom), bind_error herr]⟩
    · obtain ⟨e, s, herr⟩ := hshort (by omega)
      exact ⟨e, s, by rw [WriteStream.ofBuffer_eq, bind_error herr]⟩
  · rw [Classical.not_imp] at hip
    obtain ⟨rfl, hip⟩ := hip
    obtain ⟨e, s, herr⟩ := refuses_ip hip [] region
    have hunder : pkt.emitUnderlay false (WriteStream.ofBuffer region) = .error e s := by
      rw [emitUnderlay, if_neg Bool.false_ne_true]
      exact bind_error herr
    exact ⟨e, s, bind_error hunder⟩

/-! ### Emitted packets -/

/-- The end of the header lies in the buffer, and the packet behind it. -/
structure Placed (pkt : PacketBuffer) : Prop where
  offset_le : pkt.packet.offset ≤ pkt.endOfHeader
  le_end : pkt.endOfHeader ≤ pkt.packet.offset + pkt.packet.size
  end_le : pkt.packet.offset + pkt.packet.size ≤ pkt.buffer.length

/-- The bytes in front of the payload where headers that are shorter than measured end. -/
def gap (noUnderlay : Bool) (pkt : PacketBuffer) : List UInt8 :=
  (Records.slice pkt.buffer (pkt.endOfHeader - pkt.measureHeaders noUnderlay)
    (pkt.measureHeaders noUnderlay)).drop (pkt.emitted noUnderlay).length

theorem emitPacket_ok (hw : pkt.Writable noUnderlay) (hp : pkt.Placed)
    (hroom : pkt.measureHeaders noUnderlay ≤ pkt.endOfHeader)
    (hfits : (pkt.emitted noUnderlay).length ≤ pkt.measureHeaders noUnderlay) :
    (pkt.emitPacket noUnderlay).1
      = .ok (pkt.emitted noUnderlay ++ (pkt.gap noUnderlay ++ pkt.payload)) := by
  have hend := hp.le_end.trans hp.end_le
  set region := Records.slice pkt.buffer (pkt.endOfHeader - pkt.measureHeaders noUnderlay)
    (pkt.measureHeaders noUnderlay) with hregion
  have hlen : region.length = pkt.measureHeaders noUnderlay := Records.length_slice (by omega)
  have hrun : pkt.emit noUnderlay (WriteStream.ofBuffer region) = .ok () _ :=
    emit_ok hw (by omega)
  have hdata : (pkt.emitted noUnderlay ++ pkt.gap noUnderlay).length
      = pkt.measureHeaders noUnderlay := by
    rw [gap, ← hregion, List.length_append, List.length_drop]
    omega
  have hraw := @Records.slice_overwrite _ pkt.buffer
    (pkt.endOfHeader - pkt.measureHeaders noUnderlay) (by omega)
    (pkt.emitted noUnderlay ++ pkt.gap noUnderlay)
    (pkt.packet.size - (pkt.endOfHeader - pkt.packet.offset))
  rw [hdata, Nat.sub_add_cancel hroom, ← payload, List.append_assoc] at hraw
  rw [emitPacket, if_neg (by omega), ← hregion, hrun]
  exact congrArg Except.ok hraw

theorem emitPacket_error
    (h : pkt.Writable noUnderlay → pkt.measureHeaders noUnderlay ≤ pkt.endOfHeader →
      pkt.measureHeaders noUnderlay < (pkt.emitted noUnderlay).length) :
    ∃ e, (pkt.emitPacket noUnderlay).1 = .error e := by
  by_cases hroom : pkt.endOfHeader < pkt.measureHeaders noUnderlay
  · exact ⟨_, by rw [emitPacket, if_pos hroom]⟩
  · have hshort : (Records.slice pkt.buffer (pkt.endOfHeader - pkt.measureHeaders noUnderlay)
        (pkt.measureHeaders noUnderlay)).length ≤ pkt.measureHeaders noUnderlay := by
      rw [Records.slice, List.length_take]
      omega
    obtain ⟨e, s, herr⟩ := @emit_error noUnderlay pkt
      (Records.slice pkt.buffer (pkt.endOfHeader - pkt.measureHeaders noUnderlay)
        (pkt.measureHeaders noUnderlay)) fun hw => by have hlong := h hw (by omega); omega
    exact ⟨_, by rw [emitPacket, if_neg hroom, herr]⟩

/-- What was emitted could be written, and had room. -/
theorem emitPacket_eq_ok (hp : pkt.Placed) {bytes : List UInt8}
    (h : (pkt.emitPacket noUnderlay).1 = .ok bytes) :
    pkt.Writable noUnderlay ∧
      (pkt.emitted noUnderlay ++ pkt.gap noUnderlay).length = pkt.measureHeaders noUnderlay ∧
      bytes = pkt.emitted noUnderlay ++ (pkt.gap noUnderlay ++ pkt.payload) := by
  have hfits : pkt.Writable noUnderlay ∧ pkt.measureHeaders noUnderlay ≤ pkt.endOfHeader ∧
      (pkt.emitted noUnderlay).length ≤ pkt.measureHeaders noUnderlay := by
    by_contra hnot
    obtain ⟨e, herr⟩ := @emitPacket_error noUnderlay pkt fun hw hroom => by
      by_contra hle
      exact hnot ⟨hw, hroom, Nat.not_lt.mp hle⟩
    rw [herr] at h
    cases h
  obtain ⟨hw, hroom, hlen⟩ := hfits
  have hend := hp.le_end.trans hp.end_le
  refine ⟨hw, ?_, Except.ok.inj (h.symm.trans (emitPacket_ok hw hp hroom hlen))⟩
  rw [gap, List.length_append, List.length_drop, Records.length_slice (by omega)]
  omega

end Writable

end PacketBuffer

end Scion
