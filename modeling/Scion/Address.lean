/-
SCION addresses (`addr/isd_asn.hpp`, `addr/generic_ip.hpp`, `addr/address.hpp`,
`addr/endpoint.hpp`).

* `IsdAsn`, `IPAddress`, `ScIPAddress`, `ScIPEndpoint` with the predicates and
  checksums of the source;
* `reads`, `writes` of an ISD-ASN and of an IP address — their wire
  formats. The zone of an IPv6 address is not on the wire: what is read back
  is `IPAddress.withoutZone`.
-/
import Scion.BitStream

namespace Scion

open BigEndian Codec

/-- Error codes (`error_codes.hpp`). -/
inductive ErrorCode
  | ok
  | cancelled
  | pending
  | timeout
  | scmpReceived
  | stunReceived
  | logicError
  | notImplemented
  | invalidArgument
  | syntaxError
  | invalidSocket
  | bufferTooSmall
  | packetTooBig
  | requiresZone
  | noLocalHostAddr
  | nameNotFound
  | remoteError
  | fileNotFound
  | invalidPacket
  | checksumError
  | dstAddrMismatch
  | srcAddrMismatch
  deriving DecidableEq, Repr

/-- A value or an error code. -/
abbrev Maybe (α : Type) := Except ErrorCode α

/-! ### ISD-ASN pairs -/

/-- A 16-bit ISD and a 48-bit ASN in one word. -/
structure IsdAsn where
  ia : UInt64
  deriving DecidableEq, Repr

namespace IsdAsn

def make (isd asn : UInt64) : IsdAsn := ⟨(isd <<< 48) ||| asn⟩

def isd (a : IsdAsn) : UInt64 := a.ia >>> 48

def asn (a : IsdAsn) : UInt64 := a.ia &&& 0xffffffffffff

def isUnspecified (a : IsdAsn) : Bool := a.isd == 0 || a.asn == 0

/-- Equal to `other`, or a wildcard. -/
def matchesIA (a other : IsdAsn) : Bool := a.isUnspecified || a == other

def checksum (a : IsdAsn) : UInt32 := (a.ia &&& 0xffffffff).toUInt32 + (a.ia >>> 32).toUInt32

def size (_ : IsdAsn) : ℕ := 8

def read : Reader IsdAsn := IsdAsn.mk <$> ReadStream.serializeUint64

def write (a : IsdAsn) : Writer := WriteStream.serializeUint64 a.ia

def bytes (a : IsdAsn) : List UInt8 := beBytes 8 a.ia.toNat

@[simp] theorem length_bytes (a : IsdAsn) : a.bytes.length = 8 := length_beBytes _ _

theorem reads (a : IsdAsn) : Reads ReadStream.cursor read a.bytes a :=
  (ReadStream.reads_uint64 a.ia).bind_pure

theorem writes (a : IsdAsn) : Writes WriteStream.cursor a.write a.bytes :=
  WriteStream.writes_uint64 a.ia

end IsdAsn

/-! ### IP addresses -/

/-- `m_hi` and `m_lo` with the shared address info: an IPv4 address has no high
word and 32 bits in the low word, an IPv6 address has a zone, empty for none. -/
inductive IPAddress
  | v4 (addr : UInt32)
  | v6 (hi lo : UInt64) (zone : String)
  deriving DecidableEq, Repr

/-- Host address types as the SCION header encodes them. The field can hold
other values after a read. -/
abbrev HostAddrType := UInt8

namespace HostAddrType

def ipv4 : HostAddrType := 0x0
def ipv6 : HostAddrType := 0x3

end HostAddrType

namespace IPAddress

/-- `m_hi`. -/
def hi : IPAddress → UInt64
  | v4 _ => 0
  | v6 hi _ _ => hi

/-- `m_lo`. -/
def lo : IPAddress → UInt64
  | v4 addr => addr.toUInt64
  | v6 _ lo _ => lo

def is4 : IPAddress → Bool
  | v4 _ => true
  | v6 .. => false

def is6 (ip : IPAddress) : Bool := !ip.is4

def getIPv4 (ip : IPAddress) : UInt32 := ip.lo.toUInt32

def getIPv6 (ip : IPAddress) : UInt64 × UInt64 := (ip.hi, ip.lo)

/-- The wildcard, also as an IPv4-mapped IPv6 address. -/
def isUnspecified (ip : IPAddress) : Bool :=
  ip.hi == 0 && (ip.lo == 0 || ip.lo == (0xffff : UInt64) <<< 32)

/-- An IPv4-mapped IPv6 address. -/
def is4in6 (ip : IPAddress) : Bool := ip.is6 && ip.hi == 0 && ip.lo >>> 32 == 0xffff

/-- A SCION-mapped IPv6 address. -/
def isScion (ip : IPAddress) : Bool := ip.is6 && (ip.hi >>> 56) &&& 0xff == 0xfc

/-- The plain IPv4 address of an IPv4-mapped one. -/
def unmap4in6 (ip : IPAddress) : IPAddress :=
  if ip.is4in6 then v4 (ip.lo &&& 0xffffffff).toUInt32 else ip

/-- The sum of the 16-bit words of the address. -/
def checksum (ip : IPAddress) : UInt32 :=
  (List.range 4).foldl (fun sum i =>
    let sum := sum + ((ip.lo >>> UInt64.ofNat (16 * i)) &&& 0xffff).toUInt32
    sum + ((ip.hi >>> UInt64.ofNat (16 * i)) &&& 0xffff).toUInt32) 0

def size (ip : IPAddress) : ℕ := if ip.is4 then 4 else 16

/-- `AddressTraits::type`. -/
def type (ip : IPAddress) : HostAddrType := if ip.is4 then HostAddrType.ipv4 else HostAddrType.ipv6

def read (v4 : Bool) : Reader IPAddress :=
  if v4 then do
    let ip ← ReadStream.serializeUint32
    pure (.v4 ip)
  else do
    let hi ← ReadStream.serializeUint64
    let lo ← ReadStream.serializeUint64
    pure (.v6 hi lo "")

def write (ip : IPAddress) (v4 : Bool) : Writer := do
  ensure (v4 == ip.is4) "address type does not match expectation"
  if v4 then
    WriteStream.serializeUint32 ip.lo.toUInt32
  else do
    WriteStream.serializeUint64 ip.hi
    WriteStream.serializeUint64 ip.lo

/-- The address as the wire carries it. -/
def withoutZone : IPAddress → IPAddress
  | v4 addr => v4 addr
  | v6 hi lo _ => v6 hi lo ""

def bytes : IPAddress → List UInt8
  | v4 addr => beBytes 4 addr.toNat
  | v6 hi lo _ => beBytes 8 hi.toNat ++ beBytes 8 lo.toNat

@[simp] theorem length_bytes (ip : IPAddress) : ip.bytes.length = ip.size := by
  cases ip <;> simp [bytes, size, is4]

@[simp] theorem is4_withoutZone (ip : IPAddress) : ip.withoutZone.is4 = ip.is4 := by
  cases ip <;> rfl

@[simp] theorem size_withoutZone (ip : IPAddress) : ip.withoutZone.size = ip.size := by
  rw [size, size, is4_withoutZone]

@[simp] theorem checksum_withoutZone (ip : IPAddress) :
    ip.withoutZone.checksum = ip.checksum := by
  cases ip <;> rfl

theorem reads (ip : IPAddress) :
    Reads ReadStream.cursor (read ip.is4) ip.bytes ip.withoutZone := by
  cases ip with
  | v4 addr => exact (ReadStream.reads_uint32 addr).bind_pure
  | v6 hi lo zone => exact (ReadStream.reads_uint64 hi).bind (ReadStream.reads_uint64 lo).bind_pure

theorem writes (ip : IPAddress) : Writes WriteStream.cursor (ip.write ip.is4) ip.bytes := by
  cases ip with
  | v4 addr =>
    have hlow : addr.toUInt64.toUInt32 = addr := by simp
    show Writes WriteStream.cursor
      (ensure true _ >>= fun _ => WriteStream.serializeUint32 addr.toUInt64.toUInt32) _
    rw [hlow]
    exact Writes.pure.bind (WriteStream.writes_uint32 addr)
  | v6 hi lo zone =>
    show Writes WriteStream.cursor (ensure true _ >>= fun _ =>
      WriteStream.serializeUint64 hi >>= fun _ => WriteStream.serializeUint64 lo) _
    exact Writes.pure.bind ((WriteStream.writes_uint64 hi).bind (WriteStream.writes_uint64 lo))

end IPAddress

/-! ### SCION addresses and endpoints -/

/-- `Address<generic::IPAddress>`. -/
structure ScIPAddress where
  isdAsn : IsdAsn
  host : IPAddress
  deriving DecidableEq, Repr

namespace ScIPAddress

def isFullySpecified (a : ScIPAddress) : Bool :=
  !a.isdAsn.isUnspecified && !a.host.isUnspecified

/-- Equal to `other` up to the wildcards of this address. -/
def matchesAddr (a other : ScIPAddress) : Bool :=
  if !a.isdAsn.matchesIA other.isdAsn then false
  else a.host.isUnspecified || a.host == other.host

def checksum (a : ScIPAddress) : UInt32 := a.isdAsn.checksum + a.host.checksum

def size (a : ScIPAddress) : ℕ := a.isdAsn.size + a.host.size

/-- The address as the wire carries it. -/
def withoutZone (a : ScIPAddress) : ScIPAddress := { a with host := a.host.withoutZone }

@[simp] theorem size_withoutZone (a : ScIPAddress) : a.withoutZone.size = a.size := by
  simp [size, withoutZone]

@[simp] theorem checksum_withoutZone (a : ScIPAddress) :
    a.withoutZone.checksum = a.checksum := by
  simp [checksum, withoutZone]

end ScIPAddress

structure IPEndpoint where
  host : IPAddress
  port : UInt16
  deriving DecidableEq, Repr

/-- `Endpoint<generic::IPEndpoint>`. -/
structure ScIPEndpoint where
  isdAsn : IsdAsn
  localEp : IPEndpoint
  deriving DecidableEq, Repr

namespace ScIPEndpoint

def host (ep : ScIPEndpoint) : IPAddress := ep.localEp.host

def port (ep : ScIPEndpoint) : UInt16 := ep.localEp.port

def address (ep : ScIPEndpoint) : ScIPAddress := ⟨ep.isdAsn, ep.host⟩

end ScIPEndpoint

end Scion
