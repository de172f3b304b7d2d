/-
Packet processing (`socket/packager.hpp`).

* `ScionPackager` — the state of a socket that packets depend on;
* `ScionPackager.pack`, `ScionPackager.unpack` — packets sent and received;
* `ScionPackager.unpack_eq_ok_iff` — a packet is accepted if it is not STUN,
  parses, passes the checks, and both lists of extensions parse;
* `ScionPackager.of_unpack_eq_checksumError` — a checksum error is an answer to a
  packet that parses and does not verify.
-/
import Scion.RoundTrip
import Scion.Stun

namespace Scion

open BigEndian Codec

/-- Endpoints are constructed unspecified. -/
def ScIPEndpoint.unspecified : ScIPEndpoint := ⟨⟨0⟩, ⟨.v6 0 0 "", 0⟩⟩

structure ScionPackager where
  trafficClass : UInt8
  localEp : ScIPEndpoint
  mapped : ScIPEndpoint
  remote : ScIPEndpoint
  expectStunResponse : Bool
  expectedStunServer : IPAddress
  stunTx : List UInt8
  deriving DecidableEq, Repr

/-- The arguments of `RawPath::assign`. -/
structure ReceivedPath where
  source : IsdAsn
  destination : IsdAsn
  type : PathType
  data : List UInt8
  deriving DecidableEq, Repr

/-- What `unpack` leaves in its output arguments, and returns. An SCMP message is
handed to the callback, and the result is then an error. -/
structure Unpacked (S : Type) where
  hbhExt : List (Extension S)
  e2eExt : List (Extension S)
  sender : ScIPEndpoint
  path : ReceivedPath
  scmp : Option ScmpMessage
  payload : List UInt8
  result : ErrorCode
  deriving DecidableEq, Repr

namespace ScionPackager

def init : ScionPackager where
  trafficClass := 0
  localEp := ScIPEndpoint.unspecified
  mapped := ScIPEndpoint.unspecified
  remote := ScIPEndpoint.unspecified
  expectStunResponse := false
  expectedStunServer := .v6 0 0 ""
  stunTx := List.replicate 12 0

def setLocalEp (p : ScionPackager) (ep : ScIPEndpoint) : ErrorCode × ScionPackager :=
  if ep.host.isUnspecified then (.invalidArgument, p)
  else if ep.port == 0 then (.invalidArgument, p)
  else (.ok, { p with localEp := ep, mapped := ep })

def setMappedIpAndPort (p : ScionPackager) (mapped : IPEndpoint) : ScionPackager :=
  { p with mapped := ⟨p.localEp.isdAsn, mapped⟩ }

def setRemoteEp (p : ScionPackager) (ep : ScIPEndpoint) : ErrorCode × ScionPackager :=
  (.ok, { p with remote := ep })

def setTrafficClass (p : ScionPackager) (tc : UInt8) : ScionPackager :=
  { p with trafficClass := tc }

/-- The transaction of a request, taken from the memory of two random numbers. -/
def stunTransaction (rand₁ rand₂ : UInt64) : List UInt8 :=
  leBytes 8 rand₁.toNat ++ (leBytes 8 rand₂.toNat).take 4

/-- Prepare a binding request in `buf`. -/
def createStunRequest (p : ScionPackager) (buf : List UInt8) (stunServer : IPAddress)
    (rand₁ rand₂ : UInt64) : ErrorCode × List UInt8 × ScionPackager :=
  let stun : STUN := ⟨StunMsgType.bindingRequest, stunTransaction rand₁ rand₂, none⟩
  match stun.write (WriteStream.ofBuffer buf) with
  | .error _ ws => (.bufferTooSmall, ws.data, p)
  | .ok _ ws =>
    (.ok, ws.data, { p with
      expectStunResponse := true
      expectedStunServer := stunServer
      stunTx := stun.transaction })

/-! ### Sending -/

def getSourceAddress (p : ScionPackager) (path : PathView) : Maybe ScIPEndpoint :=
  if p.mapped.isdAsn.isUnspecified then
    -- take the source ISD-ASN from path
    .ok ⟨path.firstAS, p.mapped.localEp⟩
  else if !path.empty && path.firstAS != p.mapped.isdAsn then .error .invalidArgument
  else .ok p.mapped

section Send

variable {S : Type} [ExtensionClass S]
variable (hash : ScIPAddress → UInt64) (murmur32 : List UInt8 → UInt32 → UInt32)

/-- Prepare the packet headers for sending the given payload; no destination
stands for the remote endpoint. -/
def pack (p : ScionPackager) (headers : HeaderCache) (dst : Option ScIPEndpoint)
    (path : PathView) (exts : List (Extension S)) (l4 : L4Header) (payload : List UInt8) :
    Maybe (HeaderCache × L4Header) :=
  if p.localEp.host.isUnspecified || p.localEp.port == 0 then .error .noLocalHostAddr
  else do
    let src ← p.getSourceAddress path
    let dst := dst.getD p.remote
    if !dst.address.isFullySpecified then .error .invalidArgument
    else headers.build hash murmur32 p.trafficClass dst src path exts l4 payload

/-- Prepare sending by updating the packet headers. -/
def packUpdate (headers : HeaderCache) (l4 : L4Header) (payload : List UInt8) :
    Maybe (HeaderCache × L4Header) :=
  headers.updatePayload l4 payload

end Send

/-! ### Receiving -/

def verifyReceived (p : ScionPackager) (pkt : ParsedPacket) (ulSource : IPAddress) : ErrorCode :=
  let isScmp := pkt.l4.proto == SCMP.proto
  if !p.mapped.address.matchesAddr pkt.sci.dst then .dstAddrMismatch
  else if !isScmp && !p.remote.address.matchesAddr pkt.sci.src then .srcAddrMismatch
  else if pkt.sci.ptype == PathType.empty && ulSource.unmap4in6 != pkt.sci.src.host then
    .invalidPacket
  else if pkt.checksum != 0xffff then .checksumError
  else .ok

/-- Nothing but the expected response to the last request changes the mapping. -/
def updateMappedAddressFromStun (p : ScionPackager) (stun : STUN) : ScionPackager :=
  if stun.type != StunMsgType.bindingResponse then p
  else if stun.transaction != p.stunTx then p
  else
    let p := { p with expectStunResponse := false }
    match stun.mapped with
    | some address => p.setMappedIpAndPort address
    | none => p

def parseStun (p : ScionPackager) (buf : List UInt8) (ulSource : IPAddress) :
    ErrorCode × ScionPackager :=
  if p.expectStunResponse then
    if ulSource != p.expectedStunServer then (.srcAddrMismatch, p)
    else
      match STUN.read (ReadStream.ofBuffer buf) with
      | .error _ _ => (.invalidPacket, p)
      | .ok stun _ => (.stunReceived, p.updateMappedAddressFromStun stun)
  else (.stunReceived, p)

section Receive

variable {S : Type} [ExtensionClass S]

/-- An empty list of extensions is not parsed. -/
def unpackExtensions (opts : List UInt8) (exts : List (Extension S)) :
    Maybe (List (Extension S)) :=
  if exts.isEmpty then .ok exts
  else
    match parseExtensions exts (ReadStream.ofBuffer opts) with
    | .error _ _ => .error .invalidPacket
    | .ok exts _ => .ok exts

/-- The part of `unpack` behind the checks. -/
def unpackVerified (pkt : ParsedPacket) (hbhExt e2eExt : List (Extension S)) :
    Maybe (Unpacked S) := do
  let hbhExt ← unpackExtensions pkt.hbhOpts hbhExt
  -- the stream for the end-to-end extensions is also opened on `hbhOpts`
  let e2eExt ← unpackExtensions pkt.hbhOpts e2eExt
  let path : ReceivedPath := ⟨pkt.sci.src.isdAsn, pkt.sci.dst.isdAsn, pkt.sci.ptype, pkt.path⟩
  match pkt.l4 with
  | .udp udp =>
    .ok ⟨hbhExt, e2eExt, ⟨pkt.sci.src.isdAsn, ⟨pkt.sci.src.host, udp.sport⟩⟩, path, none,
      pkt.payload, .ok⟩
  | .scmp scmp =>
    .ok ⟨hbhExt, e2eExt, ⟨pkt.sci.src.isdAsn, ⟨pkt.sci.src.host, 0⟩⟩, path, some scmp.msg,
      pkt.payload, .scmpReceived⟩

/-- Parse a SCION packet received from the underlay. -/
def unpack (p : ScionPackager) (buf : List UInt8) (ulSource : IPAddress)
    (hbhExt e2eExt : List (Extension S)) : Maybe (Unpacked S) × ScionPackager :=
  if detectStun buf then
    let (err, p) := p.parseStun buf ulSource
    (.error err, p)
  else
    match ParsedPacket.parse (ReadStream.ofBuffer buf) with
    | .error _ _ => (.error .invalidPacket, p)
    | .ok pkt _ =>
      let ec := p.verifyReceived pkt ulSource
      if ec ≠ .ok then (.error ec, p) else (unpackVerified pkt hbhExt e2eExt, p)

/-- Parse STUN packets and ignore anything else. -/
def unpackStun (p : ScionPackager) (buf : List UInt8) (ulSource : IPAddress) :
    ErrorCode × ScionPackager :=
  if detectStun buf then p.parseStun buf ulSource else (.pending, p)

/-! ### What is accepted -/

/-- A packet is accepted if it is not STUN, parses, passes the checks, and both
lists of extensions parse. -/
theorem unpack_eq_ok_iff {p : ScionPackager} {buf : List UInt8} {ulSource : IPAddress}
    {hbhExt e2eExt : List (Extension S)} {u : Unpacked S} :
    (p.unpack buf ulSource hbhExt e2eExt).1 = .ok u ↔
      detectStun buf = false ∧ ∃ pkt s, ParsedPacket.parse (ReadStream.ofBuffer buf) = .ok pkt s ∧
        p.verifyReceived pkt ulSource = .ok ∧ unpackVerified pkt hbhExt e2eExt = .ok u := by
  rw [unpack]
  cases hstun : detectStun buf with
  | true => simp
  | false =>
    rw [if_neg Bool.false_ne_true]
    rcases hparse : ParsedPacket.parse (ReadStream.ofBuffer buf) with ⟨pkt, s⟩ | ⟨e, s⟩
    · by_cases hverify : p.verifyReceived pkt ulSource = .ok
      · simp [hverify]
      · simp [hverify]
    · simp

theorem unpackExtensions_ne_checksumError (opts : List UInt8) (exts : List (Extension S)) :
    unpackExtensions opts exts ≠ .error .checksumError := by
  rw [unpackExtensions]
  split
  · exact fun h => by cases h
  · split <;> exact fun h => by cases h

theorem unpackVerified_ne_checksumError (pkt : ParsedPacket) (hbhExt e2eExt : List (Extension S)) :
    unpackVerified pkt hbhExt e2eExt ≠ .error .checksumError := by
  rw [unpackVerified]
  rcases hhbh : unpackExtensions pkt.hbhOpts hbhExt with err | hbhExt'
  · rintro h
    cases h
    exact unpackExtensions_ne_checksumError _ _ hhbh
  rcases he2e : unpackExtensions pkt.hbhOpts e2eExt with err | e2eExt'
  · rintro h
    cases h
    exact unpackExtensions_ne_checksumError _ _ he2e
  · rcases hl4 : pkt.l4 with udp | scmp
    · simp [bind, Except.bind]
    · simp [bind, Except.bind]

theorem parseStun_ne_checksumError (p : ScionPackager) (buf : List UInt8) (ulSource : IPAddress) :
    (p.parseStun buf ulSource).1 ≠ .checksumError := by
  rw [parseStun]
  split
  · split
    · simp
    · split <;> simp
  · simp

theorem checksum_ne_of_verifyReceived {p : ScionPackager} {pkt : ParsedPacket}
    {ulSource : IPAddress} (h : p.verifyReceived pkt ulSource = .checksumError) :
    pkt.checksum ≠ 0xffff := by
  intro hsum
  simp only [verifyReceived, hsum, bne_self_eq_false, Bool.false_eq_true, if_false] at h
  split at h
  · cases h
  split at h
  · cases h
  split at h
  · cases h
  · cases h

/-- A checksum error is an answer to a packet that parses and does not verify. -/
theorem of_unpack_eq_checksumError {p : ScionPackager} {buf : List UInt8} {ulSource : IPAddress}
    {hbhExt e2eExt : List (Extension S)}
    (h : (p.unpack buf ulSource hbhExt e2eExt).1 = .error .checksumError) :
    ∃ pkt s, ParsedPacket.parse (ReadStream.ofBuffer buf) = .ok pkt s ∧ pkt.checksum ≠ 0xffff := by
  rw [unpack] at h
  split at h
  · exact absurd (Except.error.inj h) (parseStun_ne_checksumError p buf ulSource)
  · split at h
    · cases h
    · next pkt s hparse =>
      refine ⟨pkt, s, hparse, ?_⟩
      by_cases hverify : p.verifyReceived pkt ulSource = .ok
      · rw [if_neg (not_not.mpr hverify)] at h
        exact absurd h (unpackVerified_ne_checksumError pkt hbhExt e2eExt)
      · rw [if_pos hverify] at h
        exact checksum_ne_of_verifyReceived (Except.error.inj h)

end Receive

end ScionPackager

end Scion
