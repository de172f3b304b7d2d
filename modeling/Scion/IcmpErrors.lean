/-
Errors to the sender of a packet (`scitra/translator.hpp`, `scitra/packet.hpp`).

A packet without a path, or too big for it, is answered with an ICMPv6 error that quotes it. The
error is made in the buffer of the packet, where the identifier of a ping has been stored by then.

* `FromTun` — a packet as it was read from the TUN interface;
* `returned_spec` — which error is made, and of which packet;
* `emitPacket_makeIcmp` — the bytes of an error;
* `isIcmpError_iff` — the packets for which they are an error to their sender.
-/
import Scion.EgressMtu
import Scion.PingIdentity
import Scion.Reemission

namespace Scion

open BigEndian Codec OnesComplement ReadStream

/-! ### The fields of an IPv6 packet -/

namespace IPv6

variable {h : IPv6} (rest : List UInt8)

theorem slice_version (h : IPv6) :
    Records.slice (h.bytes ++ rest) 0 4 = beBytes 4 (classWord 6 h.tc h.fl) := by
  rw [bytes, List.append_assoc, Records.slice, List.drop_zero,
    List.take_left' (length_beBytes 4 _)]

theorem slice_plen (h : IPv6) : Records.slice (h.bytes ++ rest) 4 2 = beBytes 2 h.plen.toNat := by
  rw [bytes, List.append_assoc, List.append_assoc]
  exact Records.slice_middle (length_beBytes 4 _) (length_beBytes 2 _)

theorem slice_nh (h : IPv6) : Records.slice (h.bytes ++ rest) 6 1 = [h.nh] := by
  have hfront : (beBytes 4 (classWord 6 h.tc h.fl) ++ beBytes 2 h.plen.toNat).length = 6 := by simp
  rw [bytes, ← List.append_assoc (beBytes 4 _), List.append_assoc, List.append_assoc [h.nh]]
  exact Records.slice_middle hfront rfl

/-- The addresses are behind eight bytes. -/
theorem bytes_append_eq (h : IPv6) : ∃ front, front.length = 8 ∧
    h.bytes ++ rest = front ++ (h.src.bytes ++ (h.dst.bytes ++ rest)) := by
  refine ⟨beBytes 4 (classWord 6 h.tc h.fl) ++ (beBytes 2 h.plen.toNat ++ ([h.nh] ++ [h.hlim])),
    by simp, ?_⟩
  simp only [bytes, List.append_assoc]

theorem length_addresses (h6 : h.Is6) : h.src.bytes.length = 16 ∧ h.dst.bytes.length = 16 := by
  rw [IPAddress.length_bytes, IPAddress.length_bytes, IPAddress.size, IPAddress.size, h6.1, h6.2]
  exact ⟨rfl, rfl⟩

theorem slice_src (h6 : h.Is6) : Records.slice (h.bytes ++ rest) 8 16 = h.src.bytes := by
  obtain ⟨front, hfront, heq⟩ := h.bytes_append_eq rest
  rw [heq]
  exact Records.slice_middle hfront (length_addresses h6).1

theorem slice_dst (h6 : h.Is6) : Records.slice (h.bytes ++ rest) 24 16 = h.dst.bytes := by
  obtain ⟨front, hfront, heq⟩ := h.bytes_append_eq rest
  rw [heq, ← List.append_assoc front]
  exact Records.slice_middle (by rw [List.length_append, hfront, (length_addresses h6).1])
    (length_addresses h6).2

theorem slice_addresses (h6 : h.Is6) :
    Records.slice (h.bytes ++ rest) 8 32 = h.src.bytes ++ h.dst.bytes := by
  obtain ⟨front, hfront, heq⟩ := h.bytes_append_eq rest
  rw [heq, ← List.append_assoc h.src.bytes]
  exact Records.slice_middle hfront
    (by rw [List.length_append, (length_addresses h6).1, (length_addresses h6).2])

end IPv6

namespace PacketBuffer

open PacketParser

/-! ### Packets from the TUN interface -/

/-- What `TunQueue` keeps in front of a packet. -/
def scionHeadroom : ℕ := 1024

/-- `TunQueue::recvPacket`, when `raw` has been read. -/
def recvTun (raw : List UInt8) (pkt : PacketBuffer) : ErrorCode × PacketBuffer :=
  pkt.receive scionHeadroom raw false none

/-- Without a predicate nothing is parsed as SCION. -/
theorem scans_parseInner_none (srcIP : IPAddress) (ipProto : IPProto) :
    Scans (parseInner false none srcIP ipProto) fun pkt _ _ pkt' =>
      pkt.outerUDPValid = false →
        pkt'.scionValid = pkt.scionValid ∧ pkt'.outerUDPValid = false := by
  rw [parseInner, if_neg Bool.false_ne_true]
  by_cases hudp : ipProto = IPProto.udp
  · rw [if_pos hudp, parseUDP]
    refine ((scans_into fun _ => UDP.takes).bind (Q := fun _ pkt _ _ pkt' =>
      pkt'.scionValid = pkt.scionValid ∧ pkt'.outerUDPValid = false) fun outerUDP => ?_).mono ?_
    · rw [if_neg (by simp)]
      refine (scans_update _).mono ?_
      rintro pkt _ _ _ ⟨-, rfl⟩
      exact ⟨rfl, rfl⟩
    · rintro pkt _ _ _ ⟨_, _, _, _, rfl, ⟨-, rfl⟩, hflags⟩ -
      exact hflags
  · rw [if_neg hudp]
    refine (scans_parseL4 ipProto).mono ?_
    rintro pkt _ _ _ ⟨-, -, icmp, scmp, tcp, udp, l4Valid, rfl⟩ houter
    exact ⟨rfl, houter⟩

/-- A packet without underlay as it lies in the buffer. -/
structure FromTun (raw : List UInt8) (pkt : PacketBuffer) : Prop where
  raw_eq : pkt.raw = raw
  offset : pkt.packet.offset = scionHeadroom
  size : pkt.packet.size = raw.length
  outerUDPValid : pkt.outerUDPValid = false
  scionValid : pkt.scionValid = false
  placed : pkt.Placed

/-- Header by header, only the members of the header are others. -/
theorem parse_none {pkt : PacketBuffer} {raw : List UInt8} {s : PacketBuffer × ReadStream}
    (hclear : pkt.Cleared) (h : parse false none (pkt, ReadStream.cursor [] raw) = .ok () s) :
    s.1.scionValid = false ∧ s.1.outerUDPValid = false ∧ raw ≠ [] := by
  rw [parse, if_neg Bool.false_ne_true] at h
  obtain ⟨ip, s₁, hip, h⟩ := bind_eq_ok.mp h
  obtain ⟨bs, rest, pkt₁, rfl, rfl, hpart, hset⟩ := parseIP_spec hip
  have hflags : pkt₁.scionValid = false ∧ pkt₁.outerUDPValid = false := by
    rcases hset with ⟨h4, rfl⟩ | ⟨h6, rfl⟩
    · exact ⟨hclear.scionValid, hclear.outerUDPValid⟩
    · exact ⟨hclear.scionValid, hclear.outerUDPValid⟩
  have hlong : bs ++ rest ≠ [] := by
    have hpos : 0 < bs.length := by
      cases hpart with
      | ipv4 chksum valid is4 verifies =>
        rw [IPv4.length_bytesWith is4]
        decide
      | ipv6 valid is6 =>
        rw [IPv6.length_bytes is6]
        decide
    exact fun hnil => by simp [List.append_eq_nil_iff.mp hnil] at hpos
  -- what looks like STUN is parsed as such in place of the other headers
  obtain ⟨stun, s₂, hahead, h⟩ := bind_eq_ok.mp h
  obtain rfl := aheadStun_eq_ok hahead
  cases stun with
  | true =>
    rw [if_pos rfl] at h
    obtain ⟨_, _, _, -, rfl, stun, rfl⟩ := scans_parseStun pkt₁ bs rest () s h
    exact ⟨hflags.1, hflags.2, hlong⟩
  | false =>
    rw [if_neg Bool.false_ne_true] at h
    obtain ⟨_, _, pkt', -, rfl, hpart⟩ := scans_parseInner_none ip.1 ip.2 pkt₁ bs rest () s h
    obtain ⟨hscion, houter⟩ := hpart hflags.2
    exact ⟨hscion.trans hflags.1, houter, hlong⟩

theorem fromTun {raw : List UInt8} {pkt : PacketBuffer}
    (hfits : raw.length ≤ pkt.buffer.length - scionHeadroom)
    (h : (pkt.recvTun raw).1 = .ok) : FromTun raw (pkt.recvTun raw).2 := by
  obtain ⟨received⟩ := receive_spec hfits h
  obtain ⟨got, rs, hrun, hgot⟩ := parsePacket_eq_ok h
  change parse false none (pkt.placedFor scionHeadroom raw,
    ReadStream.ofBuffer (pkt.placedFor scionHeadroom raw).raw) = _ at hrun
  rw [raw_placedFor hfits, ofBuffer_eq] at hrun
  have hclear : (pkt.placedFor scionHeadroom raw).Cleared := ⟨rfl, rfl, rfl, rfl, rfl⟩
  obtain ⟨hscion, houter, hne⟩ := parse_none hclear hrun
  obtain ⟨_, _, _, -, hs, hbuffer, hpacket, -⟩ := parse_spec hclear hrun
  cases hs
  have hat := hpacket.trans (packet_placedFor hfits)
  have hpos := List.length_pos_of_ne_nil hne
  have hplaced := received.placed
  rw [recvTun, receive, hgot]
  refine ⟨?_, ?_, congrArg Span.size hat, houter, hscion, ?_⟩
  · rw [← raw_placedFor hfits]
    show Records.slice got.buffer _ _ = Records.slice _ _ _
    rw [hbuffer, hpacket]
  · refine (congrArg Span.offset hat).trans ?_
    exact min_eq_left (by omega)
  · rwa [receive, hgot] at hplaced

/-! ### The error -/

/-- What fits behind the headers of an error. -/
def quoteLimit : ℕ := 1232

/-- What an error quotes. -/
def quote (pkt : PacketBuffer) : List UInt8 := pkt.raw.take quoteLimit

/-- The IPv6 header of an error that quotes `n` bytes. -/
def errorHeader (n : ℕ) (pkt : PacketBuffer) : IPv6 :=
  { pkt.ipv6 with
    plen := UInt16.ofNat (8 + n)
    nh := IPProto.icmpv6
    src := .v6 ((0xfc : UInt64) <<< 56) 1 ""
    dst := pkt.ipv6.src }

/-- An error with its checksum. -/
def errorMessage (error : ICMPv6) (pkt : PacketBuffer) : ICMPv6 :=
  { error with
    chksum := internetChecksum pkt.quote
      ((pkt.errorHeader pkt.quote.length).checksum (UInt16.ofNat (8 + pkt.quote.length))
        + error.checksum) }

/-- A packet with an IPv6 header and room for an error in front of it. -/
structure Answerable (pkt : PacketBuffer) : Prop where
  ipValid : pkt.ipValid = .ipv6
  outerUDPValid : pkt.outerUDPValid = false
  scionValid : pkt.scionValid = false
  offset : 48 ≤ pkt.packet.offset
  end_le : pkt.packet.offset + pkt.packet.size ≤ pkt.buffer.length

section Error

variable {pkt : PacketBuffer}

theorem Answerable.length_quote (h : pkt.Answerable) :
    pkt.quote.length = min pkt.packet.size quoteLimit := by
  have hraw : pkt.raw.length = pkt.packet.size := Records.length_slice h.end_le
  rw [quote, List.length_take, hraw, min_comm]

/-- The bytes of an error. -/
def errorBytes (error : ICMPv6) (pkt : PacketBuffer) : List UInt8 :=
  (pkt.errorHeader pkt.quote.length).bytes ++ ((pkt.errorMessage error).bytes ++ pkt.quote)

/-- The packet in which the error has been made. -/
def answer (error : ICMPv6) (pkt : PacketBuffer) : PacketBuffer :=
  { pkt with
    ipv6 := pkt.errorHeader pkt.quote.length
    icmp := pkt.errorMessage error
    l4Valid := .icmp
    packet.size := pkt.quote.length
    endOfHeader := pkt.packet.offset }

theorem Answerable.measureHeaders_answer (h : pkt.Answerable) (error : ICMPv6) :
    (pkt.answer error).measureHeaders false = 48 := by
  simp only [measureHeaders, answer, h.ipValid, h.outerUDPValid, h.scionValid, l4Size,
    Bool.false_eq_true, if_false, IPv6.size, ICMPv6.size]

theorem Answerable.placed_answer (h : pkt.Answerable) (error : ICMPv6) :
    (pkt.answer error).Placed := by
  have hle := h.length_quote.trans_le (min_le_left _ _)
  have hend := h.end_le
  refine ⟨le_rfl, Nat.le_add_right _ _, ?_⟩
  show pkt.packet.offset + pkt.quote.length ≤ pkt.buffer.length
  omega

theorem Answerable.payload_answer (h : pkt.Answerable) (error : ICMPv6) :
    (pkt.answer error).payload = pkt.quote := by
  show Records.slice pkt.buffer pkt.packet.offset
    (pkt.quote.length - (pkt.packet.offset - pkt.packet.offset)) = pkt.quote
  rw [Nat.sub_self, Nat.sub_zero, h.length_quote, min_comm, quote, PacketBuffer.raw, Records.slice,
    Records.slice, List.take_take]

theorem Answerable.emitted_answer (h : pkt.Answerable) (error : ICMPv6) :
    (pkt.answer error).emitted false = (pkt.errorHeader pkt.quote.length).bytes ++
      (bytesIf pkt.stunValid pkt.stun.bytes ++ (pkt.errorMessage error).bytes) := by
  rw [emitted, underlayBytes, innerBytes, ipBytes, l4Bytes]
  simp only [answer, h.ipValid, h.outerUDPValid, h.scionValid, bytesIf, Bool.not_false, if_true,
    Bool.false_eq_true, if_false, List.append_nil, List.nil_append]

/-- The headers of the error are measured before the packet is cut. -/
theorem Answerable.makeIcmp_eq (h : pkt.Answerable) (type : ICMPv6Type) (code : UInt8)
    (param2 : UInt16) : pkt.makeIcmp type code param2 = pkt.answer ⟨type, code, 0, 0, param2⟩ := by
  have hquote := h.payload_answer ⟨type, code, 0, 0, param2⟩
  simp only [answer, payload] at hquote
  have hmax : ipv6MinLinkMtu - (0 + 40 + 8) = quoteLimit := rfl
  rw [makeIcmp, answer]
  simp only [measureHeaders, h.ipValid, h.outerUDPValid, h.scionValid, l4Size, quoteRawHeaders,
    Bool.false_eq_true, if_false, IPv6.size, ICMPv6.size, hmax, ← h.length_quote, payload, hquote]
  rfl

/-- The error is written in front of what it quotes. -/
theorem Answerable.emitPacket_answer (h : pkt.Answerable) (h6 : pkt.ipv6.src.is4 = false)
    (hstun : pkt.stunValid = false) (error : ICMPv6) :
    ((pkt.answer error).emitPacket false).1 = .ok (pkt.errorBytes error) := by
  have his6 : (pkt.errorHeader pkt.quote.length).Is6 := ⟨rfl, h6⟩
  have hmeasured := h.measureHeaders_answer error
  have hemitted := h.emitted_answer error
  rw [hstun, bytesIf, if_neg Bool.false_ne_true, List.nil_append] at hemitted
  have hlength : ((pkt.answer error).emitted false).length = 48 := by
    rw [hemitted, List.length_append, IPv6.length_bytes his6, ICMPv6.length_bytes]
  have hwritable : (pkt.answer error).Writable false := by
    refine ⟨fun _ => ⟨fun h4 => ?_, fun _ => his6⟩, fun hscmp => ?_⟩
    · exact absurd (h.ipValid.symm.trans h4) (by decide)
    · exact absurd hscmp (by simp [answer])
  have hroom : (pkt.answer error).measureHeaders false ≤ (pkt.answer error).endOfHeader := by
    rw [hmeasured]
    exact h.offset
  have hgap : (pkt.answer error).gap false = [] := by
    rw [gap, hmeasured, hlength, List.drop_eq_nil_iff, Records.slice, List.length_take]
    exact Nat.min_le_left _ _
  rw [emitPacket_ok hwritable (h.placed_answer error) hroom (by rw [hmeasured, hlength]), hgap,
    h.payload_answer, hemitted, errorBytes, List.nil_append, List.append_assoc]

/-- A STUN message would be written as well, for which there is no room. -/
theorem Answerable.emitPacket_answer_stun (h : pkt.Answerable) (hstun : pkt.stunValid = true)
    (error : ICMPv6) : ∃ e, ((pkt.answer error).emitPacket false).1 = .error e := by
  refine emitPacket_error fun hwritable _ => ?_
  have his6 : (pkt.errorHeader pkt.quote.length).Is6 := (hwritable.ip rfl).ipv6 h.ipValid
  have hpos := pkt.stun.bytes_pos
  rw [h.measureHeaders_answer, h.emitted_answer, hstun, bytesIf, if_pos rfl, List.length_append,
    List.length_append, IPv6.length_bytes his6, ICMPv6.length_bytes]
  omega

end Error

/-! ### What an error should be -/

/-- The words that the receiver of an ICMPv6 message adds up, with those of the pseudo header. -/
def receivedSum (bytes : List UInt8) : ℕ :=
  wordSum (Records.slice bytes 8 32) + wordSum (beBytes 4 (bytes.drop 40).length)
    + IPProto.icmpv6.toNat + wordSum (bytes.drop 40)

/-- An ICMPv6 error to the source of a packet, which is quoted as far as there is room. -/
structure IsIcmpError (raw bytes : List UInt8) : Prop where
  version : beNat (Records.slice bytes 0 4) / 2 ^ 28 = 6
  length_le : bytes.length ≤ ipv6MinLinkMtu
  plen : beNat (Records.slice bytes 4 2) = 8 + (bytes.drop 48).length
  nh : Records.slice bytes 6 1 = [IPProto.icmpv6]
  dst : Records.slice bytes 24 16 = Records.slice raw 8 16
  type : Records.slice bytes 40 1 = [ICMPv6Type.dstUnreachable] ∨
    Records.slice bytes 40 1 = [ICMPv6Type.packetTooBig]
  verifies : IsSum 65536 (receivedSum bytes) 65535
  quote : bytes.drop 48 = raw.take quoteLimit

/-- What is summed for an error to `dst`. -/
def errorSum (error : ICMPv6) (dst : IPAddress) (quote : List UInt8) : ℕ :=
  0xfc00 + 1 + wordSum dst.bytes + (8 + quote.length) + IPProto.icmpv6.toNat
    + wordSum error.bytes + wordSum quote

section Checksum

variable {pkt : PacketBuffer} {error : ICMPv6}

/-- The sum is that of the fields. -/
theorem toNat_errorSum (hlen : pkt.quote.length ≤ quoteLimit) :
    ((pkt.errorHeader pkt.quote.length).checksum (UInt16.ofNat (8 + pkt.quote.length))
      + error.checksum).toNat + wordSum pkt.quote = errorSum error pkt.ipv6.src pkt.quote := by
  have hdst := pkt.ipv6.src.wordSum_bytes_le
  have hsrc : wordSum (IPAddress.v6 ((0xfc : UInt64) <<< 56) 1 "").bytes = 0xfc00 + 1 := by decide
  have herror := wordSum_le error.bytes
  rw [ICMPv6.length_bytes] at herror
  rw [quoteLimit] at hlen
  rw [IPv6.checksum_eq, ICMPv6.checksum_eq, ← UInt32.ofNat_add, UInt32.toNat_ofNat',
    UInt16.toNat_ofNat', errorSum]
  show (wordSum (IPAddress.v6 ((0xfc : UInt64) <<< 56) 1 "").bytes + wordSum pkt.ipv6.src.bytes
    + _ + IPProto.icmpv6.toNat + _) % _ + _ = _
  rw [hsrc, show IPProto.icmpv6.toNat = 58 from rfl]
  omega

/-- With the checksum, the sum is that of the receiver. -/
theorem receivedSum_errorBytes (h6 : pkt.ipv6.src.is4 = false) (hchksum : error.chksum = 0)
    (hlen : pkt.quote.length ≤ quoteLimit) :
    receivedSum (pkt.errorBytes error)
      = errorSum error pkt.ipv6.src pkt.quote + (pkt.errorMessage error).chksum.toNat := by
  have his6 : (pkt.errorHeader pkt.quote.length).Is6 := ⟨rfl, h6⟩
  have hsrc : wordSum (IPAddress.v6 ((0xfc : UInt64) <<< 56) 1 "").bytes = 0xfc00 + 1 := by decide
  have hlength := wordSum_beBytes_add 1 2 (8 + pkt.quote.length)
  rw [show 2 * 1 + 2 = 4 from rfl, show 2 * 1 = 2 from rfl, wordSum_beBytes_two,
    wordSum_beBytes_two, show 256 ^ 2 = 65536 from rfl] at hlength
  have hwords := ICMPv6.wordSum_bytes (pkt.errorMessage error)
  have hwords' := ICMPv6.wordSum_bytes error
  rw [hchksum] at hwords'
  rw [quoteLimit] at hlen
  rw [receivedSum, errorBytes, IPv6.slice_addresses _ his6,
    List.drop_left' (IPv6.length_bytes his6), List.length_append, ICMPv6.length_bytes, hlength,
    wordSum_append _ _ (by rw [(IPv6.length_addresses his6).1]),
    wordSum_append _ _ (by rw [ICMPv6.length_bytes]), errorSum, hwords, hwords']
  show wordSum (IPAddress.v6 ((0xfc : UInt64) <<< 56) 1 "").bytes + wordSum pkt.ipv6.src.bytes
    + _ + _ + (error.type.toNat * 256 + error.code.toNat + _ + error.param1.toNat
      + error.param2.toNat + _) = _
  rw [hsrc, show (0 : UInt16).toNat = 0 from rfl]
  omega

/-- The checksum is right unless a carry is lost. -/
theorem verifies_errorBytes_iff (h6 : pkt.ipv6.src.is4 = false) (hchksum : error.chksum = 0)
    (hlen : pkt.quote.length ≤ quoteLimit) :
    IsSum 65536 (receivedSum (pkt.errorBytes error)) 65535 ↔
      lost 65536 (errorSum error pkt.ipv6.src pkt.quote) ≡ 0 [MOD 65535] := by
  have hmod := internetChecksum_add_modEq pkt.quote
    ((pkt.errorHeader pkt.quote.length).checksum (UInt16.ofNat (8 + pkt.quote.length))
      + error.checksum)
  rw [toNat_errorSum hlen] at hmod
  rw [isSum_pred_iff (by norm_num), receivedSum_errorBytes h6 hchksum hlen]
  rw [Nat.ModEq] at hmod ⊢
  show (_ + (internetChecksum _ _).toNat) % 65535 = 0 ↔ _
  omega

/-- All but the quote and the checksum is as it should be. -/
theorem isIcmpError_errorBytes_iff {raw : List UInt8} (h6 : pkt.ipv6.src.is4 = false)
    (hsrc : Records.slice raw 8 16 = pkt.ipv6.src.bytes) (hchksum : error.chksum = 0)
    (htype : error.type = ICMPv6Type.dstUnreachable ∨ error.type = ICMPv6Type.packetTooBig) :
    IsIcmpError raw (pkt.errorBytes error) ↔
      pkt.quote = raw.take quoteLimit ∧
        lost 65536 (errorSum error pkt.ipv6.src (raw.take quoteLimit)) ≡ 0 [MOD 65535] := by
  have his6 : (pkt.errorHeader pkt.quote.length).Is6 := ⟨rfl, h6⟩
  have hlen : pkt.quote.length ≤ quoteLimit := List.length_take_le _ _
  have hdrop : (pkt.errorBytes error).drop 48 = pkt.quote := by
    rw [errorBytes, ← List.append_assoc]
    exact List.drop_left' (by rw [List.length_append, IPv6.length_bytes his6, ICMPv6.length_bytes])
  have hlong := hlen
  rw [quoteLimit] at hlong
  constructor
  · intro h
    have hquote := hdrop.symm.trans h.quote
    have hverifies := (verifies_errorBytes_iff h6 hchksum hlen).mp h.verifies
    rw [hquote] at hverifies
    exact ⟨hquote, hverifies⟩
  · rintro ⟨hquote, hlost⟩
    rw [← hquote] at hlost
    refine ⟨?_, ?_, ?_, IPv6.slice_nh _ _, ?_, ?_,
      (verifies_errorBytes_iff h6 hchksum hlen).mpr hlost, hdrop.trans hquote⟩
    · have htc := (pkt.errorHeader pkt.quote.length).tc.toNat_lt
      rw [errorBytes, IPv6.slice_version, beNat_beBytes, classWord]
      omega
    · rw [errorBytes, List.length_append, List.length_append, IPv6.length_bytes his6,
        ICMPv6.length_bytes, ipv6MinLinkMtu]
      omega
    · rw [hdrop, errorBytes, IPv6.slice_plen, beNat_beBytes]
      show (UInt16.ofNat (8 + pkt.quote.length)).toNat % _ = _
      rw [UInt16.toNat_ofNat']
      omega
    · rw [errorBytes, IPv6.slice_dst _ his6, hsrc]
      rfl
    · have hfirst : Records.slice (pkt.errorBytes error) 40 1 = [error.type] := by
        rw [errorBytes, ICMPv6.bytes, List.append_assoc]
        exact Records.slice_middle (IPv6.length_bytes his6) rfl
      rw [hfirst]
      exact htype.imp (congrArg ([·])) (congrArg ([·]))

end Checksum

/-! ### The packets that are answered -/

section Returned

variable {hash : IPAddress → UInt64} {hashSc : ScIPAddress → UInt64}
  {murmur32 : List UInt8 → UInt32 → UInt32} {sourcePrefix : IPAddress} {prefixLen : UInt32}
  {getPath : GetPath} {pkt pkt' : PacketBuffer} {result : EgressResult}

/-- The error for a packet. Below zero the MTU that it names is the largest there is. -/
def errorFor (sourcePrefix : IPAddress) (prefixLen : UInt32) (getPath : GetPath)
    (pkt : PacketBuffer) : ICMPv6 :=
  match unmapFromIPv6 pkt.ipv6.dst with
  | .error _ => ⟨ICMPv6Type.dstUnreachable, 3, 0, 0, 0⟩
  | .ok _ =>
    match pkt.route sourcePrefix prefixLen getPath with
    | .error _ => ⟨ICMPv6Type.dstUnreachable, 0, 0, 0, 0⟩
    | .ok r => ⟨ICMPv6Type.packetTooBig, 0, 0, 0,
        if r.innerMtu < 0 then 65535 else UInt16.ofNat (min r.innerMtu.toNat 65535)⟩

theorem errorFor_type (sourcePrefix : IPAddress) (prefixLen : UInt32) (getPath : GetPath)
    (pkt : PacketBuffer) :
    (errorFor sourcePrefix prefixLen getPath pkt).chksum = 0 ∧
      ((errorFor sourcePrefix prefixLen getPath pkt).type = ICMPv6Type.dstUnreachable ∨
        (errorFor sourcePrefix prefixLen getPath pkt).type = ICMPv6Type.packetTooBig) := by
  rw [errorFor]
  cases unmapFromIPv6 pkt.ipv6.dst with
  | error e => exact ⟨rfl, .inl rfl⟩
  | ok dst =>
    cases pkt.route sourcePrefix prefixLen getPath with
    | error answered => exact ⟨rfl, .inl rfl⟩
    | ok r => exact ⟨rfl, .inr rfl⟩

/-- A ping, whose identifier is stored in its payload. -/
def IsEchoRequest (pkt : PacketBuffer) : Prop :=
  pkt.l4Valid = .icmp ∧ pkt.icmp.type = ICMPv6Type.echoRequest

instance (pkt : PacketBuffer) : Decidable pkt.IsEchoRequest := inferInstanceAs (Decidable (_ ∧ _))

/-- What a packet still is when its error is made. -/
structure StillIs (pkt pkt' : PacketBuffer) : Prop where
  ipv6 : pkt'.ipv6 = pkt.ipv6
  ipValid : pkt'.ipValid = pkt.ipValid
  outerUDPValid : pkt'.outerUDPValid = pkt.outerUDPValid
  scionValid : pkt'.scionValid = pkt.scionValid
  stunValid : pkt'.stunValid = pkt.stunValid
  packet : pkt'.packet = pkt.packet
  endOfHeader : pkt'.endOfHeader = pkt.endOfHeader
  stored : pkt.IsEchoRequest → pkt'.buffer = pkt.storeId.buffer
  kept : ¬pkt.IsEchoRequest → pkt'.buffer = pkt.buffer

theorem stillIs_translateL4 {verdict : Verdict} {proto : ScionProto}
    (h : pkt.translateL4 = (verdict, proto, pkt')) : StillIs pkt pkt' := by
  rw [translateL4] at h
  split_ifs at h with hicmp
  · obtain rfl : pkt.translateIcmpToScmp.2 = pkt' := congrArg (·.2.2) h
    by_cases hrequest : pkt.icmp.type = ICMPv6Type.echoRequest
    · have hstored : pkt.translateIcmpToScmp.2 = { pkt.storeId with
          scmp.msg := .echoRequest dispatcherPort pkt.icmp.param2
          l4Valid := .scmp } := by
        rw [translateIcmpToScmp, hrequest]
        rfl
      rw [hstored, storeId]
      split_ifs with hlong
      · refine ⟨rfl, rfl, rfl, rfl, rfl, rfl, rfl, fun _ => ?_, fun h => absurd ⟨hicmp, hrequest⟩ h⟩
        rw [storeId, if_pos hlong]
      · refine ⟨rfl, rfl, rfl, rfl, rfl, rfl, rfl, fun _ => ?_, fun h => absurd ⟨hicmp, hrequest⟩ h⟩
        rw [storeId, if_neg hlong]
    · rw [translateIcmpToScmp]
      dsimp only
      split_ifs <;> exact ⟨rfl, rfl, rfl, rfl, rfl, rfl, rfl, fun h => absurd h.2 hrequest,
        fun _ => rfl⟩
  · cases h
    exact ⟨rfl, rfl, rfl, rfl, rfl, rfl, rfl, fun hrequest => absurd hrequest.1 hicmp, fun _ => rfl⟩

/-- The MTU that is named. -/
theorem toUInt16_ipMtu {r : Routed} {built : PacketBuffer}
    (hbuilt : Routed.Built hashSc murmur32 r built) :
    (min (built.ipMtu r.path r.mtu) 65535).toUInt16
      = if r.innerMtu < 0 then 65535 else UInt16.ofNat (min r.innerMtu.toNat 65535) := by
  have hlow := Routed.le_innerMtu hbuilt.length_le
  have hval := Routed.toNat_ipMtu hbuilt
  rw [← UInt16.toNat_inj, UInt64.toNat_toUInt16, Routed.toNat_min,
    show (65535 : UInt64).toNat = 65535 from rfl]
  split_ifs at hval ⊢ with hneg
  · omega
  · rw [show (65535 : UInt16).toNat = 65535 from rfl]
    omega
  · rw [UInt16.toNat_ofNat']
    omega
  · omega

/-- An error was made of what a packet still is. -/
def ErrorMade (sourcePrefix : IPAddress) (prefixLen : UInt32) (getPath : GetPath)
    (pkt after : PacketBuffer) : Prop :=
  pkt.ipValid = .ipv6 ∧ ∃ pkt' type code param2, StillIs pkt pkt' ∧
    errorFor sourcePrefix prefixLen getPath pkt = ⟨type, code, 0, 0, param2⟩ ∧
    after = pkt'.makeIcmp type code param2

/-- Without a destination or a path. -/
theorem errorMade_of_route (hroute : pkt.route sourcePrefix prefixLen getPath = .error result)
    (hreturned : result.verdict = .returned) :
    ErrorMade sourcePrefix prefixLen getPath pkt result.pkt := by
  have hwhole := hroute
  rw [route] at hroute
  split_ifs at hroute with hip
  · cases hroute
    cases hreturned
  rcases htranslated : pkt.translateL4 with ⟨verdict, proto, pkt'⟩
  have hstill := stillIs_translateL4 htranslated
  rw [htranslated] at hroute
  dsimp only at hroute
  split_ifs at hroute with hverdict
  · -- the translation of ICMP does not return errors
    cases hroute
    rw [show verdict = .returned from hreturned] at hverdict
    exact absurd hverdict (by decide)
  refine ⟨not_not.mp hip, ?_⟩
  rw [errorFor, ← hstill.ipv6]
  cases hdst : unmapFromIPv6 pkt'.ipv6.dst with
  | error e =>
    rw [hdst] at hroute
    cases hroute
    exact ⟨pkt', _, _, _, hstill, rfl, rfl⟩
  | ok dst =>
    rw [hdst] at hroute
    rw [hwhole]
    dsimp only at hroute
    split at hroute
    · split_ifs at hroute
      · -- the path is pending
        cases hroute
        cases hreturned
      · cases hroute
        exact ⟨pkt', _, _, _, hstill, rfl, rfl⟩
    · cases hroute
      exact ⟨pkt', _, _, _, hstill, rfl, rfl⟩
    · cases hroute

/-- With a path for which the packet is too big. -/
theorem errorMade_of_translate {r : Routed}
    (hroute : pkt.route sourcePrefix prefixLen getPath = .ok r)
    (hresult : r.translate hash hashSc murmur32 = .ok result)
    (hreturned : result.verdict = .returned) :
    ErrorMade sourcePrefix prefixLen getPath pkt result.pkt := by
  rw [Routed.translate] at hresult
  have hfrom := routedFrom hroute
  have hstill := stillIs_translateL4 hfrom.translated
  refine ⟨hfrom.ipValid, ?_⟩
  cases hbuild : r.buildScion hashSc murmur32 with
  | error e =>
    rw [hbuild] at hresult
    cases hresult
  | ok built =>
    have hbuilt := Routed.built_of_buildScion hbuild
    rw [hbuild] at hresult
    dsimp only at hresult
    split_ifs at hresult with hbig
    · cases hresult
      have hdst := hfrom.dst
      rw [hstill.ipv6] at hdst
      rw [errorFor, hdst, hroute]
      rw [rejectTooBig] at hreturned ⊢
      split_ifs at hreturned ⊢ with hmtu
      refine ⟨built, _, _, _, ?_, rfl, ?_⟩
      · -- only the SCION header and the path have been set
        rw [hbuilt.eq]
        exact ⟨hstill.ipv6, hstill.ipValid, hstill.outerUDPValid, hstill.scionValid,
          hstill.stunValid, hstill.packet, hstill.endOfHeader, hstill.stored, hstill.kept⟩
      · rw [← toUInt16_ipMtu hbuilt]
        rfl
    · rcases hclamp : built.clampMss fun _ path => (r.mtu, path) with ⟨_ | m, clamped⟩
      · rw [hclamp] at hresult
        cases hresult
        cases hreturned
      · rw [hclamp] at hresult
        cases hresult
        cases hreturned

theorem returned_spec
    (hresult : pkt.translateEgress hash hashSc murmur32 sourcePrefix prefixLen getPath
      = .ok result) (hreturned : result.verdict = .returned) :
    ErrorMade sourcePrefix prefixLen getPath pkt result.pkt := by
  rw [translateEgress] at hresult
  cases hroute : pkt.route sourcePrefix prefixLen getPath with
  | error answered =>
    rw [hroute] at hresult
    obtain rfl := Except.ok.inj hresult
    exact errorMade_of_route hroute hreturned
  | ok r =>
    rw [hroute] at hresult
    exact errorMade_of_translate hroute hresult hreturned

end Returned

/-! ### What is quoted -/

section Quote

variable {raw : List UInt8} {old : TCP} {pkt pkt' : PacketBuffer}

/-- What stands where the identifier of a ping is stored is that identifier. -/
def StoresNothing (pkt : PacketBuffer) : Prop :=
  pkt.IsEchoRequest → 18 ≤ pkt.payload.length →
    Records.slice pkt.payload 16 2 = leBytes 2 pkt.icmp.param1.toNat

instance (pkt : PacketBuffer) : Decidable pkt.StoresNothing :=
  inferInstanceAs (Decidable (_ → _ → _))

/-- An ICMP message is behind the IPv6 header. -/
theorem FromTun.endOfHeader_eq (tun : FromTun raw pkt) (received : Received false old raw pkt)
    (h6 : pkt.ipValid = .ipv6) (hicmp : pkt.l4Valid = .icmp) :
    pkt.endOfHeader = pkt.packet.offset + 48 := by
  have hlen := congrArg List.length received.raw_eq
  have hpayload := length_payload tun.placed
  have hle := tun.placed.le_end
  have hoff := tun.placed.offset_le
  have hsize := tun.size
  have hhdr : received.hdr.length = 48 := by
    rcases received.parts with hstun | ⟨⟨parts⟩⟩
    · exact absurd (hstun.l4Valid.symm.trans hicmp) (by decide)
    obtain ⟨⟨scion, l4, hinner, -, hno, -, hl4⟩⟩ := parts.inner_part
    have hip := (parts.ip_part rfl).length
    rw [parts.bytes_eq, hinner, tun.outerUDPValid, hno tun.scionValid, List.length_append, hip,
      ipSize, h6]
    cases hl4 with
    | icmp valid =>
      rw [bytesIf, if_neg Bool.false_ne_true, List.nil_append, List.nil_append,
        ICMPv6.length_bytes]
      rfl
    | scmp valid holds => exact absurd (valid.symm.trans hicmp) (by decide)
    | tcp valid parsed => exact absurd (valid.symm.trans hicmp) (by decide)
    | udp valid => exact absurd (valid.symm.trans hicmp) (by decide)
  rw [List.length_append] at hlen
  omega

/-- The quote is that of the packet as it was received exactly if nothing was changed by storing the
identifier. -/
theorem FromTun.quote_iff (tun : FromTun raw pkt) (received : Received false old raw pkt)
    (h6 : pkt.ipValid = .ipv6) (hstill : StillIs pkt pkt') :
    pkt'.quote = raw.take quoteLimit ↔ pkt.StoresNothing := by
  have hsame : pkt'.buffer = pkt.buffer → pkt'.quote = raw.take quoteLimit := by
    intro hbuffer
    rw [quote, PacketBuffer.raw, hbuffer, hstill.packet, ← PacketBuffer.raw, tun.raw_eq]
  by_cases hrequest : pkt.IsEchoRequest
  · have hstored := hstill.stored hrequest
    by_cases hlong : 18 ≤ pkt.payload.length
    · have hend := tun.endOfHeader_eq received h6 hrequest.1
      have hpayload := length_payload tun.placed
      have hle := tun.placed.end_le
      have hid : ∀ {before : PacketBuffer}, before.packet = pkt.packet →
          before.endOfHeader = pkt.endOfHeader → Records.slice before.payload 16 2
            = Records.slice before.buffer (pkt.endOfHeader + 16) 2 := by
        intro before hpacket hheader
        rw [payload, hpacket, hheader]
        exact Records.slice_slice _ _ _ _ _ (by omega)
      constructor
      · intro hquote _ _
        -- the identifier is among the bytes that are quoted
        have hquoted : ∀ {before : PacketBuffer}, before.packet = pkt.packet →
            Records.slice before.quote 64 2
              = Records.slice before.buffer (pkt.endOfHeader + 16) 2 := by
          intro before hpacket
          have htake : before.quote = Records.slice before.raw 0 quoteLimit := by
            rw [quote, Records.slice, List.drop_zero]
          rw [htake, Records.slice_slice _ _ _ _ _ (by decide), PacketBuffer.raw, hpacket,
            Records.slice_slice _ _ _ _ _ (by omega), hend]
        have hfirst : pkt.quote = pkt'.quote := by rw [hquote, quote, tun.raw_eq]
        calc Records.slice pkt.payload 16 2
            = Records.slice pkt.quote 64 2 := (hid rfl rfl).trans (hquoted rfl).symm
          _ = Records.slice pkt'.quote 64 2 := by rw [hfirst]
          _ = Records.slice pkt.storeId.buffer (pkt.endOfHeader + 16) 2 := by
              rw [hquoted hstill.packet, hstored]
          _ = Records.slice pkt.storeId.payload 16 2 := by
              rw [hid] <;> rw [storeId, if_pos hlong]
          _ = leBytes 2 pkt.icmp.param1.toNat := slice_payload_storeId hlong
      · intro hnothing
        have hsize : pkt.endOfHeader + 16 + 2 ≤ pkt.buffer.length := by omega
        refine hsame (hstored.trans ?_)
        rw [storeId, if_pos hlong, ← hnothing hrequest hlong, hid rfl rfl,
          Records.overwrite_slice hsize]
    · refine iff_of_true (hsame ?_) fun _ h => absurd h hlong
      rw [hstored, storeId, if_neg hlong]
  · exact iff_of_true (hsame (hstill.kept hrequest)) fun h => absurd h hrequest

theorem StillIs.answerable (hstill : StillIs pkt pkt') (tun : FromTun raw pkt)
    (h6 : pkt.ipValid = .ipv6) : pkt'.Answerable := by
  have hbuffer : pkt'.buffer.length = pkt.buffer.length := by
    by_cases hrequest : pkt.IsEchoRequest
    · rw [hstill.stored hrequest, length_storeId]
    · rw [hstill.kept hrequest]
  refine ⟨hstill.ipValid.trans h6, hstill.outerUDPValid.trans tun.outerUDPValid,
    hstill.scionValid.trans tun.scionValid, ?_, ?_⟩
  · rw [hstill.packet, tun.offset]
    decide
  · rw [hstill.packet, hbuffer]
    exact tun.placed.end_le

/-- The source address in the packet. -/
theorem FromTun.slice_src (received : Received false old raw pkt) (h6 : pkt.ipValid = .ipv6)
    (hstun : pkt.stunValid = false) :
    pkt.ipv6.Is6 ∧ Records.slice raw 8 16 = pkt.ipv6.src.bytes := by
  rcases received.parts with hmessage | ⟨⟨parts⟩⟩
  · exact absurd (hmessage.stunValid.symm.trans hstun) (by decide)
  have hraw := received.raw_eq
  have hip := parts.ip_part rfl
  rw [parts.bytes_eq, List.append_assoc] at hraw
  generalize parts.ip = ip at hraw hip
  cases hip with
  | ipv4 chksum valid is4 verifies => exact absurd (valid.symm.trans h6) (by decide)
  | ipv6 valid is6 =>
    rw [hraw]
    exact ⟨is6, IPv6.slice_src _ is6⟩

end Quote

/-! ### Errors -/

section Main

variable {hash : IPAddress → UInt64} {hashSc : ScIPAddress → UInt64}
  {murmur32 : List UInt8 → UInt32 → UInt32} {sourcePrefix : IPAddress} {prefixLen : UInt32}
  {getPath : GetPath} {raw : List UInt8} {start pkt : PacketBuffer} {result : EgressResult}

/-- Packets that look like STUN get no error. Of a ping, the error quotes what has become of it, and
the checksum of any error may lose a carry. -/
theorem isIcmpError_iff (hfits : raw.length ≤ start.buffer.length - scionHeadroom)
    (hrecv : start.recvTun raw = (.ok, pkt))
    (hresult : pkt.translateEgress hash hashSc murmur32 sourcePrefix prefixLen getPath
      = .ok result) (hreturned : result.verdict = .returned) :
    (∃ bytes, (result.pkt.emitPacket false).1 = .ok bytes ∧ IsIcmpError raw bytes) ↔
      pkt.stunValid = false ∧ pkt.StoresNothing ∧
        lost 65536 (errorSum (errorFor sourcePrefix prefixLen getPath pkt) pkt.ipv6.src
          (raw.take quoteLimit)) ≡ 0 [MOD 65535] := by
  have hok : (start.recvTun raw).1 = .ok := by rw [hrecv]
  have tun := fromTun hfits hok
  obtain ⟨received⟩ := receive_spec hfits hok
  rw [← recvTun, hrecv] at received
  rw [hrecv] at tun
  obtain ⟨h6, pkt', type, code, param2, hstill, herror, hpkt⟩ := returned_spec hresult hreturned
  have hanswerable := hstill.answerable tun h6
  rw [hpkt, hanswerable.makeIcmp_eq, ← herror]
  cases hstun : pkt.stunValid with
  | true =>
    obtain ⟨e, hemit⟩ := hanswerable.emitPacket_answer_stun (hstill.stunValid.trans hstun)
      (errorFor sourcePrefix prefixLen getPath pkt)
    rw [hemit]
    refine iff_of_false ?_ fun h => absurd h.1 (by decide)
    rintro ⟨bytes, hbytes, -⟩
    cases hbytes
  | false =>
    obtain ⟨is6, hsrc⟩ := FromTun.slice_src received h6 hstun
    obtain ⟨hchksum, htype⟩ := errorFor_type sourcePrefix prefixLen getPath pkt
    have hsource : pkt'.ipv6.src.is4 = false := by
      rw [hstill.ipv6]
      exact is6.1
    -- with the bytes of the error the question is what they quote and what their checksum is
    rw [← hstill.ipv6] at hsrc
    rw [hanswerable.emitPacket_answer hsource (hstill.stunValid.trans hstun),
      ← tun.quote_iff received h6 hstill, ← hstill.ipv6,
      ← isIcmpError_errorBytes_iff hsource hsrc hchksum htype]
    constructor
    · rintro ⟨bytes, hbytes, hbytesError⟩
      rw [Except.ok.inj hbytes]
      exact ⟨rfl, hbytesError⟩
    · rintro ⟨-, hbytesError⟩
      exact ⟨_, rfl, hbytesError⟩

/-! ### Without a path -/

def exampleTun : PacketBuffer := ofBuffer (List.replicate 1120 0)

/-- There is no path to anywhere. -/
def noPaths : GetPath := fun _ _ _ _ _ _ => (.ok none, 0)

theorem recvTun_eq (h : (start.recvTun raw).1 = .ok) :
    start.recvTun raw = (.ok, (start.recvTun raw).2) := Prod.ext h rfl

/-- A UDP packet of 60 bytes to 1-1,10.0.0.1. -/
def exampleUdp : List UInt8 := udpOverIPv6 [0, 0, 0xff, 0xff, 10, 0, 0, 1] 12

/-- It is quoted as it is. -/
theorem isIcmpError_iff_udp : ∃ result bytes,
    (exampleTun.recvTun exampleUdp).2.translateEgress (fun _ => 0) (fun _ => 0) (fun _ _ => 0)
        (.v4 0x0a000002) 128 noPaths = .ok result ∧
      (result.pkt.emitPacket false).1 = .ok bytes ∧ IsIcmpError exampleUdp bytes := by
  obtain ⟨result, hresult, hall⟩ := exists_ok_of_any
    (x := (exampleTun.recvTun exampleUdp).2.translateEgress (fun _ => 0) (fun _ => 0)
      (fun _ _ => 0) (.v4 0x0a000002) 128 noPaths)
    (p := fun result => result.verdict = .returned) (by decide +kernel)
  have hfits : exampleUdp.length ≤ exampleTun.buffer.length - scionHeadroom := by decide +kernel
  obtain ⟨bytes, hbytes, herror⟩ := (isIcmpError_iff hfits (recvTun_eq (by decide +kernel)) hresult
    (of_decide_eq_true hall)).mpr (by decide +kernel)
  exact ⟨result, bytes, hresult, hbytes, herror⟩

/-- A ping with 18 bytes is quoted with its identifier in the last two of them. -/
theorem not_forall_isIcmpError :
    ¬ ∀ (hash : IPAddress → UInt64) (hashSc : ScIPAddress → UInt64)
      (murmur32 : List UInt8 → UInt32 → UInt32) (sourcePrefix : IPAddress) (prefixLen : UInt32)
      (getPath : GetPath) (raw : List UInt8) (start pkt : PacketBuffer) (result : EgressResult),
      raw.length ≤ start.buffer.length - scionHeadroom → start.recvTun raw = (.ok, pkt) →
      pkt.translateEgress hash hashSc murmur32 sourcePrefix prefixLen getPath = .ok result →
      result.verdict = .returned →
      ∃ bytes, (result.pkt.emitPacket false).1 = .ok bytes ∧ IsIcmpError raw bytes := by
  intro hclaim
  obtain ⟨result, hresult, hall⟩ := exists_ok_of_any
    (x := (exampleTun.recvTun (pingBytes 0)).2.translateEgress (fun _ => 0) (fun _ => 0)
      (fun _ _ => 0) (.v4 0x0a000002) 128 noPaths)
    (p := fun result => result.verdict = .returned ∧
      (result.pkt.emitPacket false).1.toOption.all fun bytes =>
        bytes.drop 48 ≠ (pingBytes 0).take quoteLimit) (by decide +kernel)
  obtain ⟨hreturned, hquote⟩ := of_decide_eq_true hall
  obtain ⟨bytes, hbytes, herror⟩ := hclaim _ _ _ _ _ _ _ _ _ _ (by decide +kernel)
    (recvTun_eq (by decide +kernel)) hresult hreturned
  rw [hbytes] at hquote
  exact of_decide_eq_true hquote herror.quote

end Main

end PacketBuffer

end Scion
