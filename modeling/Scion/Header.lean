/-
The SCION common and address header and the headers of options (`hdr/proto.hpp`,
`hdr/scion.hpp`).

* `SCION.reads`, `SCION.writes` — the wire format of the common and address
  header. A flow label of more than 20 bits and the zones of IPv6 hosts are not
  on the wire: what is read back is `SCION.onWire`;
* `OptsHeader.reads`, `OptsHeader.writes` — the header in front of hop-by-hop and
  end-to-end options;
* `SciOpt.reads` — one option skipped.
-/
import Scion.ScionPath

namespace Scion

open BigEndian Codec

/-! ### Protocol numbers -/

/-- Next header types. The field can hold other values after a read. -/
abbrev ScionProto := UInt8

namespace ScionProto

def tcp : ScionProto := 6
def udp : ScionProto := 17
def hbhOpt : ScionProto := 200
def e2eOpt : ScionProto := 201
def scmp : ScionProto := 202
def bfd : ScionProto := 203

end ScionProto

/-- Option types. -/
abbrev OptType := UInt8

namespace OptType

def pad1 : OptType := 0
def padN : OptType := 1
def spao : OptType := 2
def idInt : OptType := 253
def idIntEntry : OptType := 254

end OptType

/-! ### Common and address header -/

/-- SCION common and address header. Does not include the path. -/
structure SCION where
  qos : UInt8
  hlen : UInt8
  nh : ScionProto
  ptype : PathType
  plen : UInt16
  fl : UInt32
  dst : ScIPAddress
  src : ScIPAddress
  deriving DecidableEq, Repr

namespace SCION

def version : UInt8 := 0

def minSize : ℕ := 9 * 4

/-- Pseudo header checksum for upper-layer protocols. -/
def checksum (h : SCION) (length : UInt16) (nh : ScionProto) : UInt32 :=
  h.dst.checksum + h.src.checksum + length.toUInt32 + nh.toUInt32

def size (h : SCION) : ℕ := 12 + h.dst.size + h.src.size

/-- The size of the path behind this header. Where the header is too short for
the addresses the unsigned difference wraps around to more than any buffer
holds. -/
def pathSize (h : SCION) : ℕ := (4 * h.hlen.toNat + 2 ^ 64 - h.size) % 2 ^ 64

/-- Version, traffic class and flow label. -/
def readVersion : Reader (UInt8 × UInt32) := do
  let ver ← UInt64.toUInt8 <$> ReadStream.serializeBits 8 4
  ensure (ver == version) "unknown SCION version"
  let qos ← ReadStream.serializeByte
  let fl ← UInt64.toUInt32 <$> ReadStream.serializeBits 32 20
  pure (qos, fl)

/-- The types of destination and source host. -/
def readHostTypes : Reader (HostAddrType × HostAddrType) := do
  let dstType ← UInt64.toUInt8 <$> ReadStream.serializeBits 8 4
  let srcType ← UInt64.toUInt8 <$> ReadStream.serializeBits 8 4
  pure (dstType, srcType)

def isIPType (type : HostAddrType) : Bool :=
  type == HostAddrType.ipv4 || type == HostAddrType.ipv6

def read : Reader SCION := do
  let (qos, fl) ← readVersion
  let nh ← ReadStream.serializeByte
  let hlen ← ReadStream.serializeByte
  ensure (hlen.toNat ≥ minSize / 4) "invalid SCION header"
  let plen ← ReadStream.serializeUint16
  let ptype ← ReadStream.serializeByte
  let types ← readHostTypes
  ensure (isIPType types.1) "unsupported host address type"
  ensure (isIPType types.2) "unsupported host address type"
  ReadStream.advanceBytes 2
  let dstIA ← IsdAsn.read
  let srcIA ← IsdAsn.read
  let dstHost ← IPAddress.read (types.1 == HostAddrType.ipv4)
  let srcHost ← IPAddress.read (types.2 == HostAddrType.ipv4)
  pure ⟨qos, hlen, nh, ptype, plen, fl, ⟨dstIA, dstHost⟩, ⟨srcIA, srcHost⟩⟩

def writeVersion (qos : UInt8) (fl : UInt32) : Writer := do
  WriteStream.serializeBits 8 version.toUInt64 4
  WriteStream.serializeByte qos
  WriteStream.serializeBits 32 fl.toUInt64 20

def writeHostTypes (dstType srcType : HostAddrType) : Writer := do
  WriteStream.serializeBits 8 dstType.toUInt64 4
  WriteStream.serializeBits 8 srcType.toUInt64 4

def write (h : SCION) : Writer := do
  writeVersion h.qos h.fl
  WriteStream.serializeByte h.nh
  WriteStream.serializeByte h.hlen
  WriteStream.serializeUint16 h.plen
  WriteStream.serializeByte h.ptype
  writeHostTypes h.dst.host.type h.src.host.type
  WriteStream.advanceBytes 2
  h.dst.isdAsn.write
  h.src.isdAsn.write
  h.dst.host.write (h.dst.host.type == HostAddrType.ipv4)
  h.src.host.write (h.src.host.type == HostAddrType.ipv4)

/-! ### Wire format -/

/-- The bits of the first word; the version in the high bits is zero. -/
def versionWord (qos : UInt8) (fl : UInt32) : ℕ := qos.toNat * 2 ^ 20 + fl.toNat % 2 ^ 20

def bytes (h : SCION) : List UInt8 :=
  beBytes 4 (versionWord h.qos h.fl) ++ ([h.nh] ++ ([h.hlen] ++ (beBytes 2 h.plen.toNat ++
    ([h.ptype] ++ (beBytes 1 (h.dst.host.type.toNat * 16 + h.src.host.type.toNat) ++
      (List.replicate 2 0 ++ (h.dst.isdAsn.bytes ++ (h.src.isdAsn.bytes ++
        (h.dst.host.bytes ++ h.src.host.bytes)))))))))

/-- The header as the wire carries it. -/
def onWire (h : SCION) : SCION :=
  { h with
    fl := UInt32.ofNat (h.fl.toNat % 2 ^ 20)
    dst := h.dst.withoutZone
    src := h.src.withoutZone }

@[simp] theorem length_bytes (h : SCION) : h.bytes.length = h.size := by
  simp only [bytes, size, ScIPAddress.size, IsdAsn.size, List.length_append, length_beBytes,
    List.length_replicate, List.length_singleton, IsdAsn.length_bytes, IPAddress.length_bytes]
  omega

@[simp] theorem size_onWire (h : SCION) : h.onWire.size = h.size := by
  simp [size, onWire]

theorem toUInt32_ofNat (n : ℕ) : (UInt64.ofNat n).toUInt32 = UInt32.ofNat n := by
  apply UInt32.toNat_inj.mp
  rw [UInt64.toNat_toUInt32, UInt64.toNat_ofNat', UInt32.toNat_ofNat']
  omega

theorem versionWord_lt (qos : UInt8) (fl : UInt32) : versionWord qos fl < 2 ^ 28 := by
  have hqos := qos.toNat_lt
  rw [versionWord]
  omega

theorem reads_version (qos : UInt8) (fl : UInt32) :
    Reads ReadStream.cursor readVersion (beBytes 4 (versionWord qos fl))
      (qos, UInt32.ofNat (fl.toNat % 2 ^ 20)) := by
  have hver := (ReadStream.readsBits_serializeBits 8 0 4 (by norm_num) (by norm_num)).map
    UInt64.toUInt8
  have hfl := (ReadStream.readsBits_serializeBits 32 4 20 (by norm_num) (by norm_num)).map
    UInt64.toUInt32
  have hrest := (ReadStream.readsBits_byte 4 (by norm_num)).bind fun qos =>
    hfl.bind fun fl => ReadStream.ReadsBits.pure (qos, fl) 0
  have hword := versionWord_lt qos fl
  have hnum : beNat (beBytes 4 (versionWord qos fl)) = versionWord qos fl := by
    rw [beNat_beBytes]
    omega
  have hall := hver.reads_ensure (fun ver => ver == version) "unknown SCION version"
    (fun _ => hrest) (k := 4) (by norm_num) (length_beBytes 4 _)
    (by rw [hnum, Nat.div_eq_of_lt hword]; rfl)
  have hqos : (UInt64.ofNat (versionWord qos fl % 2 ^ 28 / 2 ^ 20)).toUInt8 = qos := by
    have hlt := qos.toNat_lt
    rw [PathMeta.toUInt8_ofNat]
    apply UInt8.toNat_inj.mp
    rw [UInt8.toNat_ofNat', versionWord]
    omega
  have hflow : (UInt64.ofNat (versionWord qos fl % 2 ^ 28 % 2 ^ 20)).toUInt32
      = UInt32.ofNat (fl.toNat % 2 ^ 20) := by
    rw [toUInt32_ofNat, versionWord]
    congr 1
    omega
  rw [hnum] at hall
  norm_num only [Nat.div_one] at hall hqos hflow ⊢
  rw [hqos, hflow] at hall
  exact hall

theorem writes_version (qos : UInt8) (fl : UInt32) :
    Writes WriteStream.cursor (writeVersion qos fl) (beBytes 4 (versionWord qos fl)) := by
  have hver := WriteStream.writesBits_serializeBits 8 0 4 version.toUInt64 (by norm_num)
    (by norm_num)
  have hqos := WriteStream.writesBits_byte 4 qos (by norm_num)
  have hfl := WriteStream.writesBits_serializeBits 32 4 20 fl.toUInt64 (by norm_num) (by norm_num)
  have hall := hver.bind (hqos.bind hfl)
  have hword : version.toUInt64.toNat % 2 ^ 4 * 2 ^ (8 + 20)
      + (qos.toNat * 2 ^ 20 + fl.toUInt64.toNat % 2 ^ 20) = versionWord qos fl := by
    rw [show version.toUInt64.toNat = 0 from rfl, UInt32.toNat_toUInt64, versionWord]
    omega
  rw [hword] at hall
  exact WriteStream.WritesBits.writes (m := 4) hall

theorem reads_hostTypes (dstType srcType : HostAddrType) (hdst : dstType.toNat < 16)
    (hsrc : srcType.toNat < 16) :
    Reads ReadStream.cursor readHostTypes (beBytes 1 (dstType.toNat * 16 + srcType.toNat))
      (dstType, srcType) := by
  have hfield : ∀ a, ReadStream.ReadsBits (UInt64.toUInt8 <$> ReadStream.serializeBits 8 4) a 4
      fun d => (UInt64.ofNat d).toUInt8 := fun a =>
    (ReadStream.readsBits_serializeBits 8 a 4 (by norm_num) (by norm_num)).map UInt64.toUInt8
  have hall := (hfield 0).bind fun dstType => (hfield 4).bind fun srcType =>
    ReadStream.ReadsBits.pure (dstType, srcType) 0
  have hread := ReadStream.ReadsBits.reads (m := 1) hall
    (beBytes 1 (dstType.toNat * 16 + srcType.toNat)) (length_beBytes 1 _)
  have hhigh : (UInt64.ofNat ((dstType.toNat * 16 + srcType.toNat) % 256 / 16)).toUInt8 = dstType := by
    rw [PathMeta.toUInt8_ofNat]
    apply UInt8.toNat_inj.mp
    rw [UInt8.toNat_ofNat']
    omega
  have hlow : (UInt64.ofNat ((dstType.toNat * 16 + srcType.toNat) % 256 % 16)).toUInt8 = srcType := by
    rw [PathMeta.toUInt8_ofNat]
    apply UInt8.toNat_inj.mp
    rw [UInt8.toNat_ofNat']
    omega
  rw [beNat_beBytes] at hread
  norm_num only [Nat.div_one] at hread
  rw [hhigh, hlow] at hread
  exact hread

theorem writes_hostTypes (dstType srcType : HostAddrType) (hdst : dstType.toNat < 16)
    (hsrc : srcType.toNat < 16) :
    Writes WriteStream.cursor (writeHostTypes dstType srcType)
      (beBytes 1 (dstType.toNat * 16 + srcType.toNat)) := by
  have hfield : ∀ a (type : HostAddrType), type.toNat < 16 →
      WriteStream.WritesBits (WriteStream.serializeBits 8 type.toUInt64 4) a 4 type.toNat := by
    intro a type htype
    have h := WriteStream.writesBits_serializeBits 8 a 4 type.toUInt64 (by norm_num) (by norm_num)
    rwa [UInt8.toNat_toUInt64, Nat.mod_eq_of_lt (show type.toNat < 2 ^ 4 from htype)] at h
  exact WriteStream.WritesBits.writes (m := 1) ((hfield 0 dstType hdst).bind (hfield 4 srcType hsrc))

theorem type_lt (ip : IPAddress) : ip.type.toNat < 16 := by
  rw [IPAddress.type]
  split <;> decide

theorem isIPType_type (ip : IPAddress) : isIPType ip.type = true := by
  cases ip <;> rfl

theorem type_eq_ipv4 (ip : IPAddress) : (ip.type == HostAddrType.ipv4) = ip.is4 := by
  cases ip <;> rfl

/-- A header long enough for its addresses is read back. -/
theorem reads (h : SCION) (hlen : minSize / 4 ≤ h.hlen.toNat) :
    Reads ReadStream.cursor read h.bytes h.onWire := by
  refine (reads_version h.qos h.fl).bind ((ReadStream.reads_byte h.nh).bind
    ((ReadStream.reads_byte h.hlen).bind (Reads.ensure (decide_eq_true hlen)
      ((ReadStream.reads_uint16 h.plen).bind ((ReadStream.reads_byte h.ptype).bind
        ((reads_hostTypes _ _ (type_lt h.dst.host) (type_lt h.src.host)).bind
          (Reads.ensure (isIPType_type _) (Reads.ensure (isIPType_type _)
            ((ReadStream.reads_advanceBytes _ 2 List.length_replicate).bind
              ((IsdAsn.reads h.dst.isdAsn).bind ((IsdAsn.reads h.src.isdAsn).bind ?_)))))))))))
  simp only [type_eq_ipv4]
  exact (IPAddress.reads h.dst.host).bind (IPAddress.reads h.src.host).bind_pure

theorem writes (h : SCION) : Writes WriteStream.cursor h.write h.bytes := by
  rw [write, type_eq_ipv4, type_eq_ipv4]
  exact (writes_version h.qos h.fl).bind ((WriteStream.writes_byte h.nh).bind
    ((WriteStream.writes_byte h.hlen).bind ((WriteStream.writes_uint16 h.plen).bind
      ((WriteStream.writes_byte h.ptype).bind
        ((writes_hostTypes _ _ (type_lt h.dst.host) (type_lt h.src.host)).bind
          ((WriteStream.writes_advanceBytes 2).bind ((IsdAsn.writes h.dst.isdAsn).bind
            ((IsdAsn.writes h.src.isdAsn).bind ((IPAddress.writes h.dst.host).bind
              (IPAddress.writes h.src.host))))))))))

end SCION

/-! ### Option headers -/

/-- The common shape of the hop-by-hop and end-to-end options headers. -/
structure OptsHeader where
  nh : ScionProto
  extLen : UInt8
  deriving DecidableEq, Repr

namespace OptsHeader

def minSize : ℕ := 2

/-- The size in bytes of the options following this header. -/
def optionSize (h : OptsHeader) : ℕ := 4 * h.extLen.toNat + 2

def read : Reader OptsHeader := do
  let nh ← ReadStream.serializeByte
  let extLen ← ReadStream.serializeByte
  pure ⟨nh, extLen⟩

def write (h : OptsHeader) : Writer := do
  WriteStream.serializeByte h.nh
  WriteStream.serializeByte h.extLen

def bytes (h : OptsHeader) : List UInt8 := [h.nh] ++ [h.extLen]

theorem reads (h : OptsHeader) : Reads ReadStream.cursor read h.bytes h :=
  (ReadStream.reads_byte h.nh).bind (ReadStream.reads_byte h.extLen).bind_pure

theorem writes (h : OptsHeader) : Writes WriteStream.cursor h.write h.bytes :=
  (WriteStream.writes_byte h.nh).bind (WriteStream.writes_byte h.extLen)

end OptsHeader

abbrev HopByHopOpts := OptsHeader

abbrev EndToEndOpts := OptsHeader

/-! ### Options -/

/-- Generic SCION option that captures type and length but not the actual option
data. -/
structure SciOpt where
  type : OptType
  dataLen : UInt8
  deriving DecidableEq, Repr

namespace SciOpt

def size (opt : SciOpt) : ℕ := if opt.type = OptType.pad1 then 1 else 2 + opt.dataLen.toNat

/-- Pad1 options don't have a length field. -/
def read : Reader SciOpt := do
  let type ← ReadStream.serializeByte
  if type ≠ OptType.pad1 then do
    let dataLen ← ReadStream.serializeByte
    ReadStream.advanceBytes dataLen.toNat
    pure ⟨type, dataLen⟩
  else pure ⟨type, 0⟩

def write (opt : SciOpt) : Writer := do
  WriteStream.serializeByte opt.type
  if opt.type ≠ OptType.pad1 then do
    WriteStream.serializeByte opt.dataLen
    WriteStream.advanceBytes opt.dataLen.toNat
  else pure ()

end SciOpt

end Scion
