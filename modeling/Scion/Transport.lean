/-
Transport headers (`hdr/udp.hpp`, `hdr/scmp.hpp`).

* `UDP`, `SCMP` with the messages of the source, their checksums and wire formats;
* `L4Header` — either of them, as the templates over a transport header take it;
* `L4Header.reads`, `L4Header.writes` — the wire format. Unknown SCMP errors can
  be read but not written.
-/
import Scion.Header

namespace Scion

open BigEndian Codec

/-! ### UDP -/

structure UDP where
  sport : UInt16
  dport : UInt16
  len : UInt16
  chksum : UInt16
  deriving DecidableEq, Repr

namespace UDP

def proto : ScionProto := ScionProto.udp

def size (_ : UDP) : ℕ := 8

/-- Takes the current value of the chksum field into account. -/
def checksum (h : UDP) : UInt32 :=
  h.sport.toUInt32 + h.dport.toUInt32 + h.len.toUInt32 + h.chksum.toUInt32

def setPayload (h : UDP) (payload : List UInt8) : UDP :=
  { h with len := UInt16.ofNat (h.size + payload.length) }

/-- This header's contribution to the flow label, hashed by `MurmurHash3_x86_32`. -/
def flowLabel (murmur32 : List UInt8 → UInt32 → UInt32) (h : UDP) : UInt32 :=
  let key := (proto.toUInt32 <<< 16) ||| (h.sport.toUInt32 <<< 8) ||| h.dport.toUInt32
  murmur32 (leBytes 4 key.toNat) 0

def read : Reader UDP := do
  let sport ← ReadStream.serializeUint16
  let dport ← ReadStream.serializeUint16
  let len ← ReadStream.serializeUint16
  let chksum ← ReadStream.serializeUint16
  pure ⟨sport, dport, len, chksum⟩

def write (h : UDP) : Writer := do
  WriteStream.serializeUint16 h.sport
  WriteStream.serializeUint16 h.dport
  WriteStream.serializeUint16 h.len
  WriteStream.serializeUint16 h.chksum

def bytes (h : UDP) : List UInt8 :=
  beBytes 2 h.sport.toNat ++ (beBytes 2 h.dport.toNat ++ (beBytes 2 h.len.toNat ++
    beBytes 2 h.chksum.toNat))

@[simp] theorem length_bytes (h : UDP) : h.bytes.length = 8 := by simp [bytes]

theorem reads (h : UDP) : Reads ReadStream.cursor read h.bytes h :=
  (ReadStream.reads_uint16 h.sport).bind ((ReadStream.reads_uint16 h.dport).bind
    ((ReadStream.reads_uint16 h.len).bind (ReadStream.reads_uint16 h.chksum).bind_pure))

theorem writes (h : UDP) : Writes WriteStream.cursor h.write h.bytes :=
  (WriteStream.writes_uint16 h.sport).bind ((WriteStream.writes_uint16 h.dport).bind
    ((WriteStream.writes_uint16 h.len).bind (WriteStream.writes_uint16 h.chksum)))

end UDP

/-! ### SCMP messages -/

/-- 64-bit SCION AS interface ID. -/
structure AsInterface where
  ifid : UInt64
  deriving DecidableEq, Repr

namespace AsInterface

def checksum (i : AsInterface) : UInt32 :=
  let word (n : UInt64) : UInt64 := (i.ifid >>> n) &&& 0xffff
  (word 0 + word 16 + word 32 + word 48).toUInt32

def read : Reader AsInterface := AsInterface.mk <$> ReadStream.serializeUint64

def write (i : AsInterface) : Writer := WriteStream.serializeUint64 i.ifid

def bytes (i : AsInterface) : List UInt8 := beBytes 8 i.ifid.toNat

@[simp] theorem length_bytes (i : AsInterface) : i.bytes.length = 8 := length_beBytes _ _

theorem reads (i : AsInterface) : Reads ReadStream.cursor read i.bytes i :=
  (ReadStream.reads_uint64 i.ifid).bind_pure

theorem writes (i : AsInterface) : Writes WriteStream.cursor i.write i.bytes :=
  WriteStream.writes_uint64 i.ifid

end AsInterface

/-- Message types. The field can hold other values after a read. -/
abbrev ScmpType := UInt8

namespace ScmpType

def dstUnreach : ScmpType := 1
def packetTooBig : ScmpType := 2
def paramProblem : ScmpType := 4
def extIfDown : ScmpType := 5
def intConnDown : ScmpType := 6
def echoRequest : ScmpType := 128
def echoReply : ScmpType := 129
def traceRequest : ScmpType := 130
def traceReply : ScmpType := 131

end ScmpType

inductive ScmpMessage
  | unknownError (type : ScmpType) (code : UInt8)
  | dstUnreach (code : UInt8)
  | packetTooBig (mtu : UInt16)
  | paramProblem (code : UInt8) (pointer : UInt16)
  | extIfDown (sender : IsdAsn) (iface : AsInterface)
  | intConnDown (sender : IsdAsn) (ingress egress : AsInterface)
  | echoRequest (id seq : UInt16)
  | echoReply (id seq : UInt16)
  | traceRequest (id seq : UInt16)
  | traceReply (id seq : UInt16) (sender : IsdAsn) (iface : AsInterface)
  deriving DecidableEq, Repr

namespace ScmpMessage

def type : ScmpMessage → ScmpType
  | unknownError type _ => type
  | dstUnreach _ => ScmpType.dstUnreach
  | packetTooBig _ => ScmpType.packetTooBig
  | paramProblem .. => ScmpType.paramProblem
  | extIfDown .. => ScmpType.extIfDown
  | intConnDown .. => ScmpType.intConnDown
  | echoRequest .. => ScmpType.echoRequest
  | echoReply .. => ScmpType.echoReply
  | traceRequest .. => ScmpType.traceRequest
  | traceReply .. => ScmpType.traceReply

def code : ScmpMessage → UInt8
  | unknownError _ code => code
  | dstUnreach code => code
  | paramProblem code _ => code
  | _ => 0

/-- The sum of the 16-bit words of the message, with type and code. -/
def checksum (msg : ScmpMessage) : UInt32 :=
  let sum := (msg.type.toUInt32 <<< 8) + msg.code.toUInt32
  match msg with
  | unknownError .. => sum
  | dstUnreach _ => sum
  | packetTooBig mtu => sum + mtu.toUInt32
  | paramProblem _ pointer => sum + pointer.toUInt32
  | extIfDown sender iface => sum + sender.checksum + iface.checksum
  | intConnDown sender ingress egress =>
    sum + sender.checksum + (ingress.checksum + egress.checksum)
  | echoRequest id seq => sum + (id.toUInt32 + seq.toUInt32)
  | echoReply id seq => sum + (id.toUInt32 + seq.toUInt32)
  | traceRequest id seq => sum + (id.toUInt32 + seq.toUInt32)
  | traceReply id seq sender iface =>
    sum + (id.toUInt32 + seq.toUInt32) + (sender.checksum + iface.checksum)

def size : ScmpMessage → ℕ
  | unknownError .. => 0
  | dstUnreach _ => 4
  | packetTooBig _ => 4
  | paramProblem .. => 4
  | extIfDown .. => 16
  | intConnDown .. => 24
  | echoRequest .. => 4
  | echoReply .. => 4
  | traceRequest .. => 20
  | traceReply .. => 20

/-- The message behind type, code and checksum. -/
def read (type : ScmpType) (code : UInt8) : Reader ScmpMessage :=
  if type = ScmpType.dstUnreach then do
    ReadStream.advanceBytes 4
    pure (.dstUnreach code)
  else if type = ScmpType.packetTooBig then do
    ReadStream.advanceBytes 2
    let mtu ← ReadStream.serializeUint16
    pure (.packetTooBig mtu)
  else if type = ScmpType.paramProblem then do
    ReadStream.advanceBytes 2
    let pointer ← ReadStream.serializeUint16
    pure (.paramProblem code pointer)
  else if type = ScmpType.extIfDown then do
    let sender ← IsdAsn.read
    let iface ← AsInterface.read
    pure (.extIfDown sender iface)
  else if type = ScmpType.intConnDown then do
    let sender ← IsdAsn.read
    let ingress ← AsInterface.read
    let egress ← AsInterface.read
    pure (.intConnDown sender ingress egress)
  else if type = ScmpType.echoRequest then do
    let id ← ReadStream.serializeUint16
    let seq ← ReadStream.serializeUint16
    pure (.echoRequest id seq)
  else if type = ScmpType.echoReply then do
    let id ← ReadStream.serializeUint16
    let seq ← ReadStream.serializeUint16
    pure (.echoReply id seq)
  else if type = ScmpType.traceRequest then do
    let id ← ReadStream.serializeUint16
    let seq ← ReadStream.serializeUint16
    ReadStream.advanceBytes 16
    pure (.traceRequest id seq)
  else if type = ScmpType.traceReply then do
    let id ← ReadStream.serializeUint16
    let seq ← ReadStream.serializeUint16
    let sender ← IsdAsn.read
    let iface ← AsInterface.read
    pure (.traceReply id seq sender iface)
  -- unknown SCMP error messages must be passed up the stack
  else if type < 128 then pure (.unknownError type code)
  -- unknown informational messages must be dropped
  else throw "unknown informational SCMP message"

def write : ScmpMessage → Writer
  | unknownError .. => throw "programming error"
  | dstUnreach _ => WriteStream.advanceBytes 4
  | packetTooBig mtu => do
    WriteStream.advanceBytes 2
    WriteStream.serializeUint16 mtu
  | paramProblem _ pointer => do
    WriteStream.advanceBytes 2
    WriteStream.serializeUint16 pointer
  | extIfDown sender iface => do
    sender.write
    iface.write
  | intConnDown sender ingress egress => do
    sender.write
    ingress.write
    egress.write
  | echoRequest id seq => do
    WriteStream.serializeUint16 id
    WriteStream.serializeUint16 seq
  | echoReply id seq => do
    WriteStream.serializeUint16 id
    WriteStream.serializeUint16 seq
  | traceRequest id seq => do
    WriteStream.serializeUint16 id
    WriteStream.serializeUint16 seq
    WriteStream.advanceBytes 16
  | traceReply id seq sender iface => do
    WriteStream.serializeUint16 id
    WriteStream.serializeUint16 seq
    sender.write
    iface.write

def bytes : ScmpMessage → List UInt8
  | unknownError .. => []
  | dstUnreach _ => List.replicate 4 0
  | packetTooBig mtu => List.replicate 2 0 ++ beBytes 2 mtu.toNat
  | paramProblem _ pointer => List.replicate 2 0 ++ beBytes 2 pointer.toNat
  | extIfDown sender iface => sender.bytes ++ iface.bytes
  | intConnDown sender ingress egress => sender.bytes ++ (ingress.bytes ++ egress.bytes)
  | echoRequest id seq => beBytes 2 id.toNat ++ beBytes 2 seq.toNat
  | echoReply id seq => beBytes 2 id.toNat ++ beBytes 2 seq.toNat
  | traceRequest id seq => beBytes 2 id.toNat ++ (beBytes 2 seq.toNat ++ List.replicate 16 0)
  | traceReply id seq sender iface =>
    beBytes 2 id.toNat ++ (beBytes 2 seq.toNat ++ (sender.bytes ++ iface.bytes))

/-- Messages other than unknown errors. -/
def isKnown : ScmpMessage → Bool
  | unknownError .. => false
  | _ => true

@[simp] theorem length_bytes (msg : ScmpMessage) : msg.bytes.length = msg.size := by
  cases msg <;> simp [bytes, size]

theorem reads {msg : ScmpMessage} (h : msg.isKnown = true) :
    Reads ReadStream.cursor (read msg.type msg.code) msg.bytes msg := by
  cases msg with
  | unknownError type code => cases h
  | dstUnreach code => exact (ReadStream.reads_advanceBytes _ 4 List.length_replicate).bind_pure
  | packetTooBig mtu =>
    exact (ReadStream.reads_advanceBytes _ 2 List.length_replicate).bind
      (ReadStream.reads_uint16 mtu).bind_pure
  | paramProblem code pointer =>
    exact (ReadStream.reads_advanceBytes _ 2 List.length_replicate).bind
      (ReadStream.reads_uint16 pointer).bind_pure
  | extIfDown sender iface =>
    exact (IsdAsn.reads sender).bind (AsInterface.reads iface).bind_pure
  | intConnDown sender ingress egress =>
    exact (IsdAsn.reads sender).bind ((AsInterface.reads ingress).bind
      (AsInterface.reads egress).bind_pure)
  | echoRequest id seq =>
    exact (ReadStream.reads_uint16 id).bind (ReadStream.reads_uint16 seq).bind_pure
  | echoReply id seq =>
    exact (ReadStream.reads_uint16 id).bind (ReadStream.reads_uint16 seq).bind_pure
  | traceRequest id seq =>
    exact (ReadStream.reads_uint16 id).bind ((ReadStream.reads_uint16 seq).bind
      (ReadStream.reads_advanceBytes _ 16 List.length_replicate).bind_pure)
  | traceReply id seq sender iface =>
    exact (ReadStream.reads_uint16 id).bind ((ReadStream.reads_uint16 seq).bind
      ((IsdAsn.reads sender).bind (AsInterface.reads iface).bind_pure))

theorem writes {msg : ScmpMessage} (h : msg.isKnown = true) :
    Writes WriteStream.cursor msg.write msg.bytes := by
  cases msg with
  | unknownError type code => cases h
  | dstUnreach code => exact WriteStream.writes_advanceBytes 4
  | packetTooBig mtu => exact (WriteStream.writes_advanceBytes 2).bind (WriteStream.writes_uint16 mtu)
  | paramProblem code pointer =>
    exact (WriteStream.writes_advanceBytes 2).bind (WriteStream.writes_uint16 pointer)
  | extIfDown sender iface => exact (IsdAsn.writes sender).bind (AsInterface.writes iface)
  | intConnDown sender ingress egress =>
    exact (IsdAsn.writes sender).bind ((AsInterface.writes ingress).bind (AsInterface.writes egress))
  | echoRequest id seq => exact (WriteStream.writes_uint16 id).bind (WriteStream.writes_uint16 seq)
  | echoReply id seq => exact (WriteStream.writes_uint16 id).bind (WriteStream.writes_uint16 seq)
  | traceRequest id seq =>
    exact (WriteStream.writes_uint16 id).bind ((WriteStream.writes_uint16 seq).bind
      (WriteStream.writes_advanceBytes 16))
  | traceReply id seq sender iface =>
    exact (WriteStream.writes_uint16 id).bind ((WriteStream.writes_uint16 seq).bind
      ((IsdAsn.writes sender).bind (AsInterface.writes iface)))

end ScmpMessage

/-! ### SCMP -/

/-- SCION Control Message Protocol. -/
structure SCMP where
  chksum : UInt16
  msg : ScmpMessage
  deriving DecidableEq, Repr

namespace SCMP

def proto : ScionProto := ScionProto.scmp

def checksum (h : SCMP) : UInt32 := h.chksum.toUInt32 + h.msg.checksum

def size (h : SCMP) : ℕ := 4 + h.msg.size

def read : Reader SCMP := do
  let type ← ReadStream.serializeByte
  let code ← ReadStream.serializeByte
  let chksum ← ReadStream.serializeUint16
  let msg ← ScmpMessage.read type code
  pure ⟨chksum, msg⟩

def write (h : SCMP) : Writer := do
  WriteStream.serializeByte h.msg.type
  WriteStream.serializeByte h.msg.code
  WriteStream.serializeUint16 h.chksum
  h.msg.write

def bytes (h : SCMP) : List UInt8 :=
  [h.msg.type] ++ ([h.msg.code] ++ (beBytes 2 h.chksum.toNat ++ h.msg.bytes))

@[simp] theorem length_bytes (h : SCMP) : h.bytes.length = h.size := by
  simp [bytes, size]
  omega

theorem reads {h : SCMP} (hknown : h.msg.isKnown = true) :
    Reads ReadStream.cursor read h.bytes h :=
  (ReadStream.reads_byte h.msg.type).bind ((ReadStream.reads_byte h.msg.code).bind
    ((ReadStream.reads_uint16 h.chksum).bind (ScmpMessage.reads hknown).bind_pure))

theorem writes {h : SCMP} (hknown : h.msg.isKnown = true) :
    Writes WriteStream.cursor h.write h.bytes :=
  (WriteStream.writes_byte h.msg.type).bind ((WriteStream.writes_byte h.msg.code).bind
    ((WriteStream.writes_uint16 h.chksum).bind (ScmpMessage.writes hknown)))

end SCMP

/-! ### Either header -/

/-- A transport header, the parameter `L4` of the source's templates. -/
inductive L4Header
  | udp (h : UDP)
  | scmp (h : SCMP)
  deriving DecidableEq, Repr

namespace L4Header

/-- `PROTO`. -/
def proto : L4Header → ScionProto
  | udp _ => UDP.proto
  | scmp _ => SCMP.proto

def size : L4Header → ℕ
  | udp h => h.size
  | scmp h => h.size

def checksum : L4Header → UInt32
  | udp h => h.checksum
  | scmp h => h.checksum

def chksum : L4Header → UInt16
  | udp h => h.chksum
  | scmp h => h.chksum

/-- `l4.chksum = chksum`. -/
def withChksum (chksum : UInt16) : L4Header → L4Header
  | udp h => udp { h with chksum := chksum }
  | scmp h => scmp { h with chksum := chksum }

/-- Ports are set in headers that have any. -/
def withPorts (sport dport : UInt16) : L4Header → L4Header
  | udp h => udp { h with sport := sport, dport := dport }
  | scmp h => scmp h

def setPayload (payload : List UInt8) : L4Header → L4Header
  | udp h => udp (h.setPayload payload)
  | scmp h => scmp h

def flowLabel (murmur32 : List UInt8 → UInt32 → UInt32) : L4Header → UInt32
  | udp h => h.flowLabel murmur32
  | scmp _ => 0

def write : L4Header → Writer
  | udp h => h.write
  | scmp h => h.write

def bytes : L4Header → List UInt8
  | udp h => h.bytes
  | scmp h => h.bytes

/-- Everything but an SCMP header with an unknown error can be written. -/
def isKnown : L4Header → Bool
  | udp _ => true
  | scmp h => h.msg.isKnown

/-! Setting fields keeps type, size and kind of message. -/

@[simp] theorem proto_withChksum (c : UInt16) (h : L4Header) :
    (h.withChksum c).proto = h.proto := by
  cases h <;> rfl

@[simp] theorem size_withChksum (c : UInt16) (h : L4Header) : (h.withChksum c).size = h.size := by
  cases h <;> rfl

@[simp] theorem isKnown_withChksum (c : UInt16) (h : L4Header) :
    (h.withChksum c).isKnown = h.isKnown := by
  cases h <;> rfl

@[simp] theorem withChksum_withChksum (c d : UInt16) (h : L4Header) :
    (h.withChksum c).withChksum d = h.withChksum d := by
  cases h <;> rfl

@[simp] theorem proto_withPorts (sport dport : UInt16) (h : L4Header) :
    (h.withPorts sport dport).proto = h.proto := by
  cases h <;> rfl

@[simp] theorem size_withPorts (sport dport : UInt16) (h : L4Header) :
    (h.withPorts sport dport).size = h.size := by
  cases h <;> rfl

@[simp] theorem isKnown_withPorts (sport dport : UInt16) (h : L4Header) :
    (h.withPorts sport dport).isKnown = h.isKnown := by
  cases h <;> rfl

@[simp] theorem proto_setPayload (payload : List UInt8) (h : L4Header) :
    (h.setPayload payload).proto = h.proto := by
  cases h <;> rfl

@[simp] theorem size_setPayload (payload : List UInt8) (h : L4Header) :
    (h.setPayload payload).size = h.size := by
  cases h <;> rfl

@[simp] theorem isKnown_setPayload (payload : List UInt8) (h : L4Header) :
    (h.setPayload payload).isKnown = h.isKnown := by
  cases h <;> rfl

@[simp] theorem chksum_withPorts (sport dport : UInt16) (h : L4Header) :
    (h.withPorts sport dport).chksum = h.chksum := by
  cases h <;> rfl

@[simp] theorem chksum_setPayload (payload : List UInt8) (h : L4Header) :
    (h.setPayload payload).chksum = h.chksum := by
  cases h <;> rfl

theorem withChksum_chksum {c : UInt16} {h : L4Header} (hc : h.chksum = c) :
    h.withChksum c = h := by
  subst hc
  cases h <;> rfl

/-- The checksum field is one of the words summed. -/
theorem checksum_withChksum (c : UInt16) (h : L4Header) :
    (h.withChksum c).checksum = (h.withChksum 0).checksum + c.toUInt32 := by
  cases h with
  | udp h => simp [withChksum, checksum, UDP.checksum]
  | scmp h =>
    simp only [withChksum, checksum, SCMP.checksum]
    rw [show (0 : UInt16).toUInt32 = 0 from rfl, UInt32.zero_add, UInt32.add_comm]

@[simp] theorem length_bytes (h : L4Header) : h.bytes.length = h.size := by
  cases h with
  | udp h => exact UDP.length_bytes h
  | scmp h => exact SCMP.length_bytes h

theorem writes {h : L4Header} (hknown : h.isKnown = true) :
    Writes WriteStream.cursor h.write h.bytes := by
  cases h with
  | udp h => exact UDP.writes h
  | scmp h => exact SCMP.writes hknown

/-- An SCMP header with an unknown error is never written. -/
theorem isKnown_of_write_eq_ok {h : L4Header} {s s' : WriteStream}
    (hwrite : h.write s = .ok () s') : h.isKnown = true := by
  cases h with
  | udp h => rfl
  | scmp h =>
    obtain ⟨chksum, msg⟩ := h
    cases msg with
    | unknownError type code =>
      obtain ⟨_, _, _, hwrite⟩ := bind_eq_ok.mp hwrite
      obtain ⟨_, _, _, hwrite⟩ := bind_eq_ok.mp hwrite
      obtain ⟨_, _, _, hwrite⟩ := bind_eq_ok.mp hwrite
      cases hwrite
    | _ => rfl

end L4Header

end Scion
