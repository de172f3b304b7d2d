/-
The checksum of received packets (`socket/parsed_packet.hpp`).

`checksum` adds up the fields of the decoded headers in 32 bits. Two things are lost
against the one's-complement sum of the bytes received: the words of an SCMP message that
no field holds, and the carries out of the 32 bits.

* `wireSum` — the sum of the pseudo header and of the bytes behind it;
* `lostSum` — what is lost of it;
* `checksum_iff_isSum_iff` — for which packets `checksum` tells the packets whose sum is
  `0xffff`.
-/
import Scion.WordSums

namespace Scion

open BigEndian Codec OnesComplement ReadStream

/-- The bytes of the transport header that no field holds. -/
def L4Header.ignored : L4Header → List Bool
  | .udp _ => List.replicate 8 false
  | .scmp h => (SCMP.kept h.msg.type).map (!·)

namespace ParsedPacket

/-! ### The sum of the bytes -/

section Sums

variable (buffer : List UInt8) (pkt : ParsedPacket)

/-- The addresses in the header. -/
def addressBytes : List UInt8 := (buffer.drop 12).take (pkt.sci.dst.size + pkt.sci.src.size)

/-- The transport header and the payload, to the end of the buffer. -/
def transportBytes : List UInt8 :=
  buffer.drop (buffer.length - (pkt.l4.size + pkt.payload.length))

/-- The number of bytes between path and transport header. -/
def extensionSize : ℕ :=
  buffer.length - (pkt.sci.size + pkt.path.length + pkt.l4.size + pkt.payload.length)

/-- The length field of the pseudo header: the payload length without extensions. -/
def upperLength : UInt16 := pkt.sci.plen - UInt16.ofNat (extensionSize buffer pkt)

/-- The sum of the pseudo header, the transport header and the payload. -/
def wireSum : ℕ :=
  wordSum (addressBytes buffer pkt) + (upperLength buffer pkt).toNat + pkt.l4.proto.toNat
    + wordSum (transportBytes buffer pkt)

/-- The words of the transport header that no field holds. -/
def ignoredSum : ℕ := wordSum (keep pkt.l4.ignored (transportBytes buffer pkt))

/-- The higher words of the ISD-ASNs, which are summed in halves of 32 bits. -/
def highWords : ℕ :=
  pkt.sci.dst.isdAsn.highWords + pkt.sci.src.isdAsn.highWords + pkt.l4.highWords

/-- The sum of the fields, before it is cut to 32 bits. -/
def fieldSum : ℕ := wireSum buffer pkt - ignoredSum buffer pkt + 65535 * highWords pkt

/-- What is lost: the words that no field holds and the carries out of 32 bits. -/
def lostSum : ℕ := ignoredSum buffer pkt + fieldSum buffer pkt / 2 ^ 32

/-- The sum left in 32 bits is the least or the greatest number, which are folded to 0 and
to `0xfffe`. -/
def AtEdge : Prop :=
  fieldSum buffer pkt % 2 ^ 32 = 0 ∨ fieldSum buffer pkt % 2 ^ 32 + 1 = 2 ^ 32

instance : Decidable (AtEdge buffer pkt) := inferInstanceAs (Decidable (_ ∨ _))

/-- Nothing is lost modulo 65535, or the packet is damaged, and by something else than what
is lost. At the edge nothing verifies, which is right when something is lost. -/
def Covered : Prop :=
  if AtEdge buffer pkt then lostSum buffer pkt % 65535 ≠ 0
  else lostSum buffer pkt % 65535 = 0 ∨
    (wireSum buffer pkt % 65535 ≠ 0 ∧
      wireSum buffer pkt % 65535 ≠ lostSum buffer pkt % 65535)

instance : Decidable (Covered buffer pkt) :=
  inferInstanceAs (Decidable (ite (AtEdge buffer pkt) _ _))

end Sums

/-! ### What the parser has cut -/

namespace OptsPart

/-- There are at least two bytes of options, and not more than the header can say. -/
theorem length {bs opts : List UInt8} (h : OptsPart bs opts) :
    UInt16.ofNat opts.length + (if UInt16.ofNat opts.length > 0 then 2 else 0)
      = UInt16.ofNat bs.length := by
  cases h with
  | none => rfl
  | some hdr opts hlen =>
    have hext := hdr.extLen.toNat_lt
    have hsize : opts.length = 4 * (hdr.extLen.toNat + 1) - 2 := hlen
    have hpos : UInt16.ofNat opts.length > 0 := by
      rw [gt_iff_lt, UInt16.lt_iff_toNat_lt, UInt16.toNat_ofNat']
      show 0 < _
      omega
    have hbytes : (hdr.bytes ++ opts).length = opts.length + 2 := by
      rw [List.length_append, Nat.add_comm]
      rfl
    rw [if_pos hpos, hbytes, UInt16.ofNat_add]
    rfl

end OptsPart

namespace Layout

variable {buffer : List UInt8} {pkt : ParsedPacket}

theorem addressBytes_eq (l : Layout buffer pkt) :
    addressBytes buffer pkt = pkt.sci.addressBytes := by
  rw [addressBytes, ← length_addressBytes]
  conv_lhs => rw [l.buffer_eq]
  rw [List.drop_left' l.length_common, List.take_left]

theorem transportBytes_eq (l : Layout buffer pkt) :
    transportBytes buffer pkt = l.l4 ++ pkt.payload := by
  have hlen := L4Header.Holds.length l.l4_holds
  have hfront : (l.common ++ (pkt.sci.addressBytes ++ (pkt.path ++ (l.hbh ++ l.e2e)))).length
      = buffer.length - (pkt.l4.size + pkt.payload.length) := by
    rw [l.length_buffer, l.length_front]
    omega
  rw [transportBytes, ← hfront]
  exact (congrArg (List.drop _) l.split_at_l4).trans List.drop_left

theorem extensionSize_eq (l : Layout buffer pkt) :
    extensionSize buffer pkt = l.hbh.length + l.e2e.length := by
  have hlen := l.length_buffer
  have hpath := l.length_path
  rw [extensionSize]
  omega

/-- The receiver takes off the extensions that it has found. -/
theorem l4Len_eq (l : Layout buffer pkt) : pkt.l4Len = upperLength buffer pkt := by
  rw [upperLength, l.extensionSize_eq, UInt16.ofNat_add, ← l.hbh_opts.length,
    ← l.e2e_opts.length, l4Len]
  -- both differences wrap around alike
  generalize UInt16.ofNat pkt.hbhOpts.length = m
  generalize UInt16.ofNat pkt.e2eOpts.length = n
  show pkt.sci.plen - m - n - (_ + _) = pkt.sci.plen - (m + _ + (n + _))
  grind

end Layout

/-! ### What is added up -/

theorem wordSum_addressBytes (sci : SCION) : wordSum sci.addressBytes
    = wordSum sci.dst.isdAsn.bytes + (wordSum sci.src.isdAsn.bytes
      + (wordSum sci.dst.host.bytes + wordSum sci.src.host.bytes)) := by
  rw [SCION.addressBytes, wordSum_append _ _ (by simp), wordSum_append _ _ (by simp),
    wordSum_append _ _ (IPAddress.length_bytes_even _)]

theorem sciChecksum_eq (sci : SCION) (length : UInt16) (nh : ScionProto) :
    sci.checksum length nh = UInt32.ofNat (wordSum sci.addressBytes
      + 65535 * (sci.dst.isdAsn.highWords + sci.src.isdAsn.highWords) + length.toNat
      + nh.toNat) := by
  have hnh : nh.toUInt32 = UInt32.ofNat nh.toNat := by
    rw [← UInt32.toNat_inj, UInt8.toNat_toUInt32, UInt32.toNat_ofNat']
    have hlt := nh.toNat_lt
    omega
  rw [SCION.checksum, ScIPAddress.checksum, ScIPAddress.checksum, IsdAsn.checksum_eq,
    IsdAsn.checksum_eq, IPAddress.checksum_eq, IPAddress.checksum_eq, toUInt32_eq_ofNat, hnh]
  simp only [← UInt32.ofNat_add]
  rw [wordSum_addressBytes]
  exact congrArg UInt32.ofNat (by ring)

/-- The bytes of a transport header are those its fields hold and those they do not. -/
theorem wordSum_holds {bs : List UInt8} {l4 : L4Header} (h : l4.Holds bs) :
    wordSum l4.bytes + wordSum (keep l4.ignored bs) = wordSum bs ∧
      l4.ignored.length = bs.length := by
  cases l4 with
  | udp hdr =>
    have hbytes : bs = hdr.bytes := h
    rw [L4Header.ignored, hbytes, keep_false (UDP.length_bytes hdr), List.length_replicate,
      UDP.length_bytes, show wordSum (List.replicate 8 0) = 0 from rfl, add_zero]
    exact ⟨rfl, rfl⟩
  | scmp hdr =>
    have hholds : SCMP.Holds bs hdr := h
    rw [L4Header.ignored, List.length_map, hholds.flags]
    refine ⟨?_, rfl⟩
    rw [← wordSum_keep_add hholds.flags, ← hholds.bytes]
    rfl

namespace Layout

variable {buffer : List UInt8} {pkt : ParsedPacket}

theorem wordSum_transportBytes (l : Layout buffer pkt) :
    wordSum pkt.l4.bytes + wordSum pkt.payload + ignoredSum buffer pkt
      = wordSum (transportBytes buffer pkt) := by
  obtain ⟨hsum, hflags⟩ := wordSum_holds l.l4_holds
  have heven : l.l4.length % 2 = 0 := by
    rw [L4Header.Holds.length l.l4_holds, ← L4Header.length_bytes]
    exact L4Header.length_bytes_even _
  -- no byte of the payload is ignored
  have hkeep : keep pkt.l4.ignored (l.l4 ++ pkt.payload) = keep pkt.l4.ignored l.l4 := by
    have happend : keep (pkt.l4.ignored ++ []) (l.l4 ++ pkt.payload)
        = keep pkt.l4.ignored l.l4 ++ keep [] pkt.payload := keep_append hflags
    rwa [List.append_nil, show keep [] pkt.payload = [] from rfl, List.append_nil] at happend
  rw [ignoredSum, l.transportBytes_eq, hkeep, wordSum_append _ _ heven, ← hsum]
  ring

/-- The receiver adds up the fields. -/
theorem fieldSum_eq (l : Layout buffer pkt) :
    ((pkt.l4.checksum + pkt.sci.checksum pkt.l4Len pkt.l4.proto).toNat + wordSum pkt.payload)
      % 2 ^ 32 = fieldSum buffer pkt % 2 ^ 32 := by
  have hwords := l.wordSum_transportBytes
  have hfields : fieldSum buffer pkt = (wordSum pkt.l4.bytes + 65535 * pkt.l4.highWords
      + (wordSum pkt.sci.addressBytes + 65535 * (pkt.sci.dst.isdAsn.highWords
        + pkt.sci.src.isdAsn.highWords) + pkt.l4Len.toNat + pkt.l4.proto.toNat))
      + wordSum pkt.payload := by
    rw [fieldSum, wireSum, highWords, l.addressBytes_eq, l.l4Len_eq]
    omega
  rw [hfields, L4Header.checksum_eq, sciChecksum_eq, ← UInt32.ofNat_add, UInt32.toNat_ofNat',
    Nat.mod_add_mod]

/-- The bytes received are what is folded and what is lost, modulo 65535. -/
theorem wireSum_modEq (l : Layout buffer pkt) :
    wireSum buffer pkt % 65535
      = (fieldSum buffer pkt % 2 ^ 32 + lostSum buffer pkt) % 65535 := by
  have hignored : ignoredSum buffer pkt ≤ wireSum buffer pkt := by
    have hwords := l.wordSum_transportBytes
    rw [wireSum]
    omega
  have hfields : fieldSum buffer pkt + ignoredSum buffer pkt
      = wireSum buffer pkt + 65535 * highWords pkt := by
    rw [fieldSum]
    omega
  rw [lostSum]
  omega

end Layout

/-- For an accepted packet `checksum` returns `0xffff` exactly when the sum of the pseudo
header and of the bytes of transport header and payload is `0xffff`, if and only if the
packet is covered. -/
theorem checksum_iff_isSum_iff {buffer : List UInt8} {pkt : ParsedPacket} {s : ReadStream}
    (h : parse (ofBuffer buffer) = .ok pkt s) :
    (pkt.checksum = 0xffff ↔ IsSum 65536 (wireSum buffer pkt) 0xffff) ↔ Covered buffer pkt := by
  obtain ⟨l⟩ := layout_of_parse h
  have hlt : fieldSum buffer pkt % 2 ^ 32 < 65536 * 65536 := Nat.mod_lt _ (by norm_num)
  have hmod := l.wireSum_modEq
  have hsum : pkt.checksum = 0xffff ↔
      fieldSum buffer pkt % 2 ^ 32 % 65535 = 0 ∧ ¬AtEdge buffer pkt := by
    rw [← UInt16.toNat_inj, checksum, onesComplementChecksum, toNat_onesComplementChecksumScalar,
      l.fieldSum_eq, show (0xffff : UInt16).toNat = 65536 - 1 from rfl,
      fold_eq_pred_iff (by norm_num) hlt, AtEdge, not_or]
    norm_num
  rw [hsum, show (0xffff : ℕ) = 65536 - 1 from rfl, isSum_pred_iff (by norm_num), Covered]
  by_cases hedge : AtEdge buffer pkt
  · -- the sum that is folded is a multiple of 65535 but not taken for one
    have hzero : fieldSum buffer pkt % 2 ^ 32 % 65535 = 0 := by
      rcases hedge with hedge | hedge <;> omega
    rw [if_pos hedge]
    have hlost : wireSum buffer pkt % 65535 = lostSum buffer pkt % 65535 := by omega
    simp only [hedge, not_true, and_false, false_iff]
    rw [← hlost]
  · rw [if_neg hedge]
    simp only [hedge, not_false_eq_true, and_true]
    omega

/-- The payload `01 02` from AS `ff00:0:0`. -/
theorem checksum_iff_isSum_iff_udp :
    ∃ pkt s, parse (ofBuffer (addressHeader 17 10 [0, 0, 0, 0]
        ++ [0, 80, 0, 81, 0, 10, 0xec, 0x2f, 1, 2])) = .ok pkt s ∧
      (pkt.checksum = 0xffff ↔ IsSum 65536 (wireSum (addressHeader 17 10 [0, 0, 0, 0]
        ++ [0, 80, 0, 81, 0, 10, 0xec, 0x2f, 1, 2]) pkt) 0xffff) :=
  ⟨_, _, rfl, (checksum_iff_isSum_iff rfl).mpr (by decide)⟩

/-- The same payload from AS `ff00:ffff:ffff`: the sum of the bytes is right, but the two
halves of the ISD-ASN carry. -/
example : ∃ pkt s, parse (ofBuffer (addressHeader 17 10 [0xff, 0xff, 0xff, 0xff]
        ++ [0, 80, 0, 81, 0, 10, 0xec, 0x2f, 1, 2])) = .ok pkt s ∧ pkt.checksum = 0xfffe ∧
      IsSum 65536 (wireSum (addressHeader 17 10 [0xff, 0xff, 0xff, 0xff]
        ++ [0, 80, 0, 81, 0, 10, 0xec, 0x2f, 1, 2]) pkt) 0xffff :=
  ⟨_, _, rfl, rfl, by decide⟩

/-- Damage to the unused bytes of an SCMP message is not seen. -/
theorem not_forall_checksum_iff_isSum :
    ¬ ∀ (buffer : List UInt8) (pkt : ParsedPacket) (s : ReadStream),
      parse (ofBuffer buffer) = .ok pkt s →
      (pkt.checksum = 0xffff ↔ IsSum 65536 (wireSum buffer pkt) 0xffff) := by
  intro h
  have hsum := (h (addressHeader 202 8 [1, 1, 1, 1] ++ [1, 0, 0xea, 0x23, 0, 0, 0x12, 0x34])
    _ _ rfl).mp (by rfl)
  exact absurd hsum (by decide)

end ParsedPacket

end Scion
