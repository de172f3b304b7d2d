/-
STUN messages (`hdr/stun.hpp`).

* `STUN.read`, `STUN.write` — the two directions of the source;
* `STUN.write_request_eq_ok_iff` — a request fits in 20 bytes;
* `detectStun` — how STUN is told apart from SCION on one port;
* `detectStun_eq_false` — no packet whose SCION header announces one of the
  protocols of this library is taken for STUN.
-/
import Scion.Address

namespace Scion

open BigEndian Codec

/-- Message types. The field can hold other values after a read. -/
abbrev StunMsgType := UInt16

namespace StunMsgType

def bindingRequest : StunMsgType := 0x0001
def bindingResponse : StunMsgType := 0x0101

end StunMsgType

namespace StunAttribType

def xorMappedAddress : UInt16 := 0x0020

end StunAttribType

namespace StunAddrFamily

def ipv4 : UInt8 := 0x01
def ipv6 : UInt8 := 0x02

end StunAddrFamily

/-- Simplified STUN message. -/
structure STUN where
  type : StunMsgType
  transaction : List UInt8
  mapped : Option IPEndpoint
  deriving DecidableEq, Repr

namespace STUN

/-- Magic cookie in host byte order. -/
def magicCookie : UInt32 := 0x2112a442

def stunHeaderSize : ℕ := 20

/-- A generic attribute; the value is dropped. -/
def readAttribute : Reader UInt16 := do
  let type ← ReadStream.serializeUint16
  let length ← ReadStream.serializeUint16
  ensure (length ≤ 32) "STUN attribute too large"
  let _ ← ReadStream.serializeBytes length.toNat
  pure type

/-- `StunXorMappedAddress::serialize`. -/
def readXorMapped (tx : List UInt8) : Reader IPEndpoint := do
  let type ← ReadStream.serializeUint16
  ensure (type == StunAttribType.xorMappedAddress) "incorrect attribute type"
  let length ← ReadStream.serializeUint16
  ReadStream.advanceBytes 1
  let family ← ReadStream.serializeByte
  ensure (family == StunAddrFamily.ipv4 || family == StunAddrFamily.ipv6)
    "STUN XOR-MAPPED_ADDRESS unexpected address family"
  ensure (length == if family == StunAddrFamily.ipv4 then 8 else 20)
    "STUN XOR-MAPPED_ADDRESS has invalid length"
  let port ← ReadStream.serializeUint16
  let port := port ^^^ (magicCookie >>> 16).toUInt16
  if family == StunAddrFamily.ipv4 then do
    let ip ← ReadStream.serializeUint32
    pure ⟨.v4 (ip ^^^ magicCookie), port⟩
  else do
    let buf ← ReadStream.serializeBytes 16
    let hi := UInt64.ofNat (beNat (buf.take 8))
      ^^^ ((magicCookie.toUInt64 <<< 32) ||| UInt64.ofNat (beNat (tx.take 4)))
    let lo := UInt64.ofNat (beNat (buf.drop 8)) ^^^ UInt64.ofNat (beNat ((tx.drop 4).take 8))
    pure ⟨.v6 hi lo "", port⟩

/-- The loop over the attributes, for at most `fuel` of them; every attribute
takes four bytes. -/
def parseAttributes (tx : List UInt8) : ℕ → Option IPEndpoint → Reader (Option IPEndpoint)
  | 0, mapped => fun rs => if rs.hasData then .error "no progress" rs else .ok mapped rs
  | fuel + 1, mapped => fun rs =>
    if rs.hasData then
      (do
        let ptr ← ReadStream.lookahead (some 2)
        if UInt16.ofNat (beNat ptr) = StunAttribType.xorMappedAddress then do
          let address ← readXorMapped tx
          parseAttributes tx fuel (some address)
        else do
          let type ← readAttribute
          -- these types require comprehension
          ensure (!(type < 0x8000 && type > StunAttribType.xorMappedAddress))
            "STUN attribute not understood"
          parseAttributes tx fuel mapped) rs
    else .ok mapped rs

def read : Reader STUN := do
  let type ← ReadStream.serializeUint16
  let length ← ReadStream.serializeUint16
  let cookie ← ReadStream.serializeUint32
  ensure (cookie == magicCookie) "magic cookie does not match"
  let transaction ← ReadStream.serializeBytes 12
  let attribs ← ReadStream.lookahead (some length.toNat)
  match parseAttributes transaction attribs.length none (ReadStream.ofBuffer attribs) with
  | .ok mapped _ => pure ⟨type, transaction, mapped⟩
  | .error e _ => throw e

/-- `StunXorMappedAddress::serialize`, writing. -/
def writeXorMapped (tx : List UInt8) (address : IPEndpoint) : Writer := do
  WriteStream.serializeUint16 StunAttribType.xorMappedAddress
  WriteStream.serializeUint16 (UInt16.ofNat (8 + address.host.size - 4))
  WriteStream.advanceBytes 1
  WriteStream.serializeByte
    (if address.host.is4 then StunAddrFamily.ipv4 else StunAddrFamily.ipv6)
  WriteStream.serializeUint16 (address.port ^^^ (magicCookie >>> 16).toUInt16)
  if address.host.is4 then
    WriteStream.serializeUint32 (address.host.getIPv4 ^^^ magicCookie)
  else do
    let hi := address.host.hi
      ^^^ ((magicCookie.toUInt64 <<< 32) ||| UInt64.ofNat (beNat (tx.take 4)))
    let lo := address.host.lo ^^^ UInt64.ofNat (beNat ((tx.drop 4).take 8))
    (IPAddress.v6 hi lo "").write false

def size (stun : STUN) : ℕ :=
  match stun.mapped with
  | some address => stunHeaderSize + (8 + address.host.size)
  | none => stunHeaderSize

def write (stun : STUN) : Writer := do
  WriteStream.serializeUint16 stun.type
  WriteStream.serializeUint16 (UInt16.ofNat (stun.size - stunHeaderSize))
  WriteStream.serializeUint32 magicCookie
  WriteStream.serializeBytes stun.transaction
  match stun.mapped with
  | some address => writeXorMapped stun.transaction address
  | none => pure ()

/-- A request fits in a buffer with room for the header. -/
theorem write_request_eq_ok_iff {tx : List UInt8} (htx : tx.length = 12) (buf : List UInt8) :
    (∃ ws, write ⟨StunMsgType.bindingRequest, tx, none⟩ (WriteStream.ofBuffer buf) = .ok () ws) ↔
      stunHeaderSize ≤ buf.length := by
  have hwrites : Writes WriteStream.cursor (write ⟨StunMsgType.bindingRequest, tx, none⟩) _ :=
    (WriteStream.writes_uint16 _).bind ((WriteStream.writes_uint16 _).bind
      ((WriteStream.writes_uint32 _).bind ((WriteStream.writes_bytes tx).bind Writes.pure)))
  have hrun := hwrites [] buf
  rw [← WriteStream.ofBuffer_eq] at hrun
  simp only [List.length_append, length_beBytes, htx, List.length_nil] at hrun
  rw [stunHeaderSize]
  constructor
  · rintro ⟨ws, hok⟩
    by_contra hshort
    obtain ⟨e, ws', herr⟩ := hrun.2 (by omega)
    rw [hok] at herr
    cases herr
  · intro hroom
    exact ⟨_, hrun.1 (by omega)⟩

end STUN

/-- Whether the buffer contains the magic cookie of STUN. -/
def detectStun (buf : List UInt8) : Bool :=
  !decide (buf.length < STUN.stunHeaderSize) &&
    UInt32.ofNat (beNat ((buf.drop 4).take 4)) == STUN.magicCookie

theorem detectStun_take {buf : List UInt8} {n : ℕ} (h : n ≤ buf.length) :
    detectStun (buf.take n) = (decide (STUN.stunHeaderSize ≤ n) && detectStun buf) := by
  rw [detectStun, detectStun, STUN.stunHeaderSize, List.length_take, min_eq_left h]
  by_cases hn : 20 ≤ n
  · have hcookie : ((buf.take n).drop 4).take 4 = (buf.drop 4).take 4 := by
      rw [List.drop_take, List.take_take, min_eq_left (by omega)]
    have hlen : ¬ buf.length < 20 := by omega
    have hlen' : ¬ n < 20 := by omega
    simp [hcookie, hn, hlen, hlen']
  · have hlen : n < 20 := by omega
    simp [hn, hlen]

/-- Where the cookie would begin stands the next header field of SCION. -/
theorem detectStun_eq_false {word rest : List UInt8} {nh : UInt8} (hword : word.length = 4)
    (hnh : nh ≠ 0x21) : detectStun (word ++ ([nh] ++ rest)) = false := by
  rw [detectStun, Bool.and_eq_false_imp]
  intro hlen
  have hrest : 3 ≤ rest.length := by
    simp only [Bool.not_eq_true', decide_eq_false_iff_not, List.length_append, hword,
      List.length_singleton, STUN.stunHeaderSize] at hlen
    omega
  rw [List.drop_append_of_le_length (by omega), List.drop_eq_nil_of_le (by omega),
    List.nil_append, List.singleton_append, List.take_succ_cons, beq_eq_false_iff_ne]
  intro heq
  have htake : (rest.take 3).length = 3 := by
    rw [List.length_take]
    omega
  have htail := beNat_lt (rest.take 3)
  have hbyte := nh.toNat_lt
  have hval := congrArg UInt32.toNat heq
  rw [beNat_cons, htake, UInt32.toNat_ofNat', STUN.magicCookie,
    show (0x2112a442 : UInt32).toNat = 0x2112a442 from rfl] at hval
  rw [htake] at htail
  norm_num only at htail hval
  have hhead : nh.toNat = 0x21 := by omega
  exact hnh (UInt8.toNat_inj.mp hhead)

end Scion
