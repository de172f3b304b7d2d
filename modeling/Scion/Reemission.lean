/-
Emitting a packet right after parsing it (`scitra/packet.hpp`).

* `Regular` — no extension headers and no TCP options, reserved fields that are zero, and
  a length and a checksum of the underlay that are right;
* `Reemitted` — which of these packets have a header that is written as it was read;
* `emitPacket_receive_iff` — exactly they are emitted as they came in.
-/
import Scion.PacketParts
import Scion.WordSums

namespace Scion

open BigEndian Codec OnesComplement

/-! ### Checksums computed again -/

theorem wordSum_pos {bs : List UInt8} {b : UInt8} (hmem : b ∈ bs) (hb : b ≠ 0) :
    0 < wordSum bs := by
  have hpos : ∀ c : UInt8, c ≠ 0 → 0 < c.toNat := by
    intro c hc
    refine Nat.pos_of_ne_zero fun h => hc ?_
    rw [← UInt8.toNat_inj, h]
    rfl
  induction bs using wordSum.induct with
  | case1 => cases hmem
  | case2 last =>
    have hlast := hpos b hb
    rw [List.mem_singleton] at hmem
    rw [wordSum, ← hmem]
    omega
  | case3 hi lo rest ih =>
    have hword : beNat [hi, lo] = hi.toNat * 256 + lo.toNat := by simp [beNat]
    have hlast := hpos b hb
    rw [wordSum, hword]
    rcases List.mem_cons.mp hmem with rfl | hmem
    · omega
    rcases List.mem_cons.mp hmem with rfl | hmem
    · omega
    · have hrest := ih hmem
      omega

/-- A checksum that verifies comes out again unless it is the other zero, or a carry was
lost. -/
theorem complement_fold_iff {s k : ℕ} (hpos : 0 < s) (hs : s < 2 ^ 20) (hk : k < 65536)
    (hverifies : fold 65536 (s + k) % 65536 = 65535) :
    65535 - fold 65536 s % 65536 = k ↔ k ≠ 65535 ∧ fold 65536 s < 65536 := by
  have hsum : (s + k) % 65535 = 0 :=
    ((fold_eq_pred_iff (b := 65536) (by norm_num) (by omega)).mp hverifies).1
  have hmod : fold 65536 s % 65535 = s % 65535 := fold_modEq (by norm_num)
  have hzero : fold 65536 s ≠ 0 := fun h => by
    have hs := fold_eq_zero (show 1 ≤ 65536 by norm_num) h
    omega
  have hlt : fold 65536 s < 65536 + 16 := by
    unfold fold
    omega
  generalize fold 65536 s = f at hmod hzero hlt ⊢
  by_cases hcarry : f < 65536
  · rw [Nat.mod_eq_of_lt hcarry]
    omega
  · have hcut : f % 65536 = f - 65536 := by omega
    rw [hcut]
    omega

/-- The checksum of a sum in two parts, the first of which is folded before the second is
added. -/
theorem complement_refold_iff {a d c : ℕ} (ha : a < 2 ^ 32) (hdpos : 0 < d) (hd : d < 2 ^ 31)
    (hc : c < 65536) (hverifies : c = 0 ∨ (a + d) % 65535 = 0) :
    65535 - fold 65536 (fold 65536 a % 65536 + d) % 65536 = c ↔
      (a + d) % 65535 + c = fold 65536 a / 65536 := by
  have hmod : fold 65536 a % 65535 = a % 65535 := fold_modEq (by norm_num)
  have hlt := fold_lt (b := 65536) (s := a) (by omega)
  generalize fold 65536 a = f at hmod hlt ⊢
  have hmod' : fold 65536 (f % 65536 + d) % 65535 = (f % 65536 + d) % 65535 :=
    fold_modEq (by norm_num)
  have hzero : fold 65536 (f % 65536 + d) ≠ 0 := fun h => by
    have hsum := fold_eq_zero (show 1 ≤ 65536 by norm_num) h
    omega
  have hlt' : fold 65536 (f % 65536 + d) < 65536 + 32768 := by
    unfold fold
    omega
  generalize fold 65536 (f % 65536 + d) = g at hmod' hzero hlt' ⊢
  -- the carry of the first fold is missing in what the second one adds up
  obtain ⟨carry, r, hr, hcarry, rfl⟩ : ∃ carry r, r < 65536 ∧ carry < 2 ∧ f = 65536 * carry + r :=
    ⟨f / 65536, f % 65536, by omega, by omega, by omega⟩
  have hhigh : (65536 * carry + r) / 65536 = carry := by omega
  have hlow : (65536 * carry + r) % 65536 = r := by omega
  have htotal : (g + carry) % 65535 = (a + d) % 65535 := by omega
  rw [hhigh]
  generalize (a + d) % 65535 = t at hverifies htotal ⊢
  by_cases hsecond : g < 65536
  · rw [Nat.mod_eq_of_lt hsecond]
    omega
  · have hcut : g % 65536 = g - 65536 := by omega
    rw [hcut]
    omega

/-! ### IP version 4 -/

namespace IPv4

theorem bytesWith_injective (h : IPv4) : Function.Injective h.bytesWith := by
  intro c d heq
  have hpart := (List.append_inj (List.append_cancel_left heq) (by
    rw [length_beBytes, length_beBytes])).1
  have hnat := congrArg beNat hpart
  have hc := c.toNat_lt
  have hd := d.toNat_lt
  rw [beNat_beBytes, beNat_beBytes] at hnat
  rw [← UInt16.toNat_inj]
  omega

/-- An accepted header is written as it was unless its checksum is the other zero, or a
carry was lost. -/
theorem bytes_eq_bytesWith_iff {h : IPv4} (h4 : h.Is4) {chksum : UInt16}
    (hverifies : onesComplementChecksum (h.bytesWith chksum) 0 = 0xffff) :
    h.bytes = h.bytesWith chksum ↔
      chksum ≠ 0xffff ∧ fold 65536 (wordSum (h.bytesWith 0)) < 65536 := by
  have hsum := wordSum_bytesWith h chksum
  have hle := wordSum_le (h.bytesWith 0)
  rw [length_bytesWith h4] at hle
  have hchksum := chksum.toNat_lt
  have hnat := congrArg UInt16.toNat hverifies
  rw [onesComplementChecksum, toNat_onesComplementChecksumScalar, hsum,
    show (0 : UInt32).toNat = 0 from rfl, show (0xffff : UInt16).toNat = 65535 from rfl,
    zero_add, Nat.mod_eq_of_lt (b := 2 ^ 32) (by omega)] at hnat
  have hiff := complement_fold_iff (h.wordSum_pos 0) (by omega) hchksum hnat
  have hcompute : (internetChecksum (h.bytesWith 0) 0).toNat
      = 65535 - fold 65536 (wordSum (h.bytesWith 0)) % 65536 := by
    rw [toNat_internetChecksum, show (0 : UInt32).toNat = 0 from rfl, zero_add,
      Nat.mod_eq_of_lt (b := 2 ^ 32) (by omega)]
  rw [bytes, h.bytesWith_injective.eq_iff, ← UInt16.toNat_inj, hcompute, hiff, ne_eq, ne_eq,
    ← UInt16.toNat_inj, show (0xffff : UInt16).toNat = 65535 from rfl]

end IPv4

/-! ### SCMP -/

/-- An accepted header without reserved bits is written as it was unless there is a code in
a message that has none. -/
theorem SCMP.Holds.bytes_eq_iff {bs : List UInt8} {h : SCMP} (hh : SCMP.Holds bs h)
    (hreserved : keep (ScmpMessage.keptBody h.msg.type) (bs.drop 4) = bs.drop 4) :
    bs = h.bytes ↔ (ScmpMessage.hasCode h.msg.type = false → bs.getD 1 0 = 0) := by
  have hlen : 4 ≤ bs.length := by
    rw [hh.size, SCMP.size]
    omega
  obtain ⟨t, c, x, y, body, rfl⟩ : ∃ t c x y body, bs = [t, c, x, y] ++ body := by
    obtain ⟨t, c, x, y, htake⟩ := List.length_eq_four.mp
      (show (bs.take 4).length = 4 by rw [List.length_take]; omega)
    exact ⟨t, c, x, y, bs.drop 4, by rw [← htake, List.take_append_drop]⟩
  rw [show ([t, c, x, y] ++ body).drop 4 = body from rfl] at hreserved
  rw [hh.bytes, SCMP.kept, keep_append rfl, hreserved]
  cases hcode : ScmpMessage.hasCode h.msg.type with
  | true => simp [keep]
  | false => simp [keep]

namespace PacketBuffer

/-! ### Regular packets -/

/-- The size of the IP header. -/
def ipSize (pkt : PacketBuffer) : ℕ :=
  match pkt.ipValid with
  | .ipv4 => pkt.ipv4.size
  | .ipv6 => pkt.ipv6.size
  | .none => 0

/-- Where the SCION header begins. -/
def scionOffset (pkt : PacketBuffer) : ℕ :=
  pkt.ipSize + if pkt.outerUDPValid then pkt.outerUDP.size else 0

/-- Where the transport header begins when there are no extension headers. -/
def l4Offset (pkt : PacketBuffer) : ℕ :=
  pkt.scionOffset + if pkt.scionValid then pkt.sci.size + pkt.path.size else 0

/-- The words of the pseudo header of the underlay. -/
def pseudoSum (pkt : PacketBuffer) : ℕ :=
  match pkt.ipValid with
  | .ipv4 => wordSum pkt.ipv4.src.bytes + wordSum pkt.ipv4.dst.bytes + pkt.ipv4.proto.toNat
      + pkt.outerUDP.len.toNat
  | .ipv6 => wordSum pkt.ipv6.src.bytes + wordSum pkt.ipv6.dst.bytes + pkt.outerUDP.len.toNat
      + pkt.ipv6.nh.toNat
  | .none => 0

/-- The sum over the pseudo header and all that is behind the IP header. -/
def wireSum (raw : List UInt8) (pkt : PacketBuffer) : ℕ :=
  pkt.pseudoSum + wordSum (raw.drop pkt.ipSize)

/-- The part of the sum that is folded first. -/
def outerSum (pkt : PacketBuffer) : ℕ :=
  pkt.pseudoSum + wordSum pkt.outerUDP.bytes + wordSum pkt.payload

/-- A packet without extension headers and TCP options, whose reserved bytes are zero and
whose underlay has the right length and checksum. -/
structure Regular (raw : List UInt8) (pkt : PacketBuffer) : Prop where
  noExtensions : pkt.scionValid = true →
    pkt.sci.nh ≠ ScionProto.hbhOpt ∧ pkt.sci.nh ≠ ScionProto.e2eOpt
  noOptions : pkt.l4Valid = .tcp → raw.getD (pkt.l4Offset + 12) 0 = TCP.plainOffset
  reserved : pkt.scionValid = true →
    Records.slice raw (pkt.scionOffset + 10) 2 = List.replicate 2 0
  reservedScmp : pkt.l4Valid = .scmp →
    keep (ScmpMessage.keptBody pkt.scmp.msg.type)
        (Records.slice raw (pkt.l4Offset + 4) pkt.scmp.msg.size)
      = Records.slice raw (pkt.l4Offset + 4) pkt.scmp.msg.size
  outerLength : pkt.outerUDPValid = true → pkt.outerUDP.len.toNat = raw.length - pkt.ipSize
  outerChksum : pkt.outerUDPValid = true →
    pkt.outerUDP.chksum = 0 ∨ pkt.wireSum raw % 65535 = 0

/-- No STUN message; no SCMP message that is an unknown error or has a code that is not
written; an IP header whose checksum is computed again; and an underlay without a checksum
(or with the 1 that comes of a lost carry). -/
structure Reemitted (raw : List UInt8) (pkt : PacketBuffer) : Prop where
  noStun : pkt.stunValid = false
  message : pkt.l4Valid = .scmp → pkt.scmp.msg.isKnown = true ∧
    (ScmpMessage.hasCode pkt.scmp.msg.type = false → raw.getD (pkt.l4Offset + 1) 0 = 0)
  ipChksum : pkt.ipValid = .ipv4 → Records.slice raw 10 2 ≠ [0xff, 0xff] ∧
    fold 65536 (wordSum (pkt.ipv4.bytesWith 0)) < 65536
  outerChksum : pkt.outerUDPValid = true →
    pkt.wireSum raw % 65535 + pkt.outerUDP.chksum.toNat = fold 65536 pkt.outerSum / 65536

/-! ### The checksum of the underlay -/

theorem pseudoSum_lt (pkt : PacketBuffer) : pkt.pseudoSum < 2 ^ 22 := by
  have hlen := pkt.outerUDP.len.toNat_lt
  rw [pseudoSum]
  cases pkt.ipValid with
  | none =>
    show 0 < _
    norm_num
  | ipv4 =>
    have hsrc := pkt.ipv4.src.wordSum_bytes_le
    have hdst := pkt.ipv4.dst.wordSum_bytes_le
    have hproto := pkt.ipv4.proto.toNat_lt
    show _ + _ + _ + _ < _
    omega
  | ipv6 =>
    have hsrc := pkt.ipv6.src.wordSum_bytes_le
    have hdst := pkt.ipv6.dst.wordSum_bytes_le
    have hproto := pkt.ipv6.nh.toNat_lt
    show _ + _ + _ + _ < _
    omega

theorem outerChksum_eq (data : List UInt8) (pkt : PacketBuffer) :
    pkt.outerChksum data = internetChecksum data (onesComplementChecksum pkt.payload
      (UInt32.ofNat (pkt.pseudoSum + wordSum pkt.outerUDP.bytes))).toUInt32 := by
  have hproto : ∀ b : UInt8, b.toUInt32 = UInt32.ofNat b.toNat := by
    intro b
    rw [← UInt32.toNat_inj, UInt8.toNat_toUInt32, UInt32.toNat_ofNat']
    have hlt := b.toNat_lt
    omega
  rw [PacketBuffer.outerChksum, pseudoSum]
  cases pkt.ipValid with
  | none => simp only [UDP.checksum_eq, zero_add]
  | ipv4 =>
    simp only [UDP.checksum_eq, IPv4.checksum, IPAddress.checksum_eq, hproto, toUInt32_eq_ofNat,
      ← UInt32.ofNat_add]
    rw [Nat.add_comm (wordSum pkt.outerUDP.bytes)]
  | ipv6 =>
    simp only [UDP.checksum_eq, IPv6.checksum, IPAddress.checksum_eq, hproto, toUInt32_eq_ofNat,
      ← UInt32.ofNat_add]
    rw [Nat.add_comm (wordSum pkt.outerUDP.bytes)]

/-- The first sum is folded and cut, and the second one too. -/
theorem toNat_outerChksum_cut (data : List UInt8) (pkt : PacketBuffer) :
    (pkt.outerChksum data).toNat = 65535
      - fold 65536 ((fold 65536 (pkt.outerSum % 2 ^ 32) % 65536 + wordSum data) % 2 ^ 32)
        % 65536 := by
  have hfirst : (onesComplementChecksum pkt.payload
      (UInt32.ofNat (pkt.pseudoSum + wordSum pkt.outerUDP.bytes))).toNat
        = fold 65536 (pkt.outerSum % 2 ^ 32) % 65536 := by
    rw [onesComplementChecksum, toNat_onesComplementChecksumScalar, UInt32.toNat_ofNat',
      Nat.mod_add_mod, ← outerSum]
  rw [outerChksum_eq, toNat_internetChecksum, UInt16.toNat_toUInt32, hfirst]

theorem toNat_outerChksum {data : List UInt8} {pkt : PacketBuffer} (hsum : pkt.outerSum < 2 ^ 32)
    (hdata : wordSum data < 2 ^ 31) :
    (pkt.outerChksum data).toNat
      = 65535 - fold 65536 (fold 65536 pkt.outerSum % 65536 + wordSum data) % 65536 := by
  have hlt : fold 65536 pkt.outerSum % 65536 < 65536 := Nat.mod_lt _ (by norm_num)
  rw [toNat_outerChksum_cut, Nat.mod_eq_of_lt hsum, Nat.mod_eq_of_lt (b := 2 ^ 32) (by omega)]

/-! ### The parts of regular packets -/

theorem length_bytesWith (h : SCION) {reserved : List UInt8} (hlen : reserved.length = 2) :
    (h.bytesWith reserved).length = h.size := by
  simp only [SCION.bytesWith, SCION.size, ScIPAddress.size, IsdAsn.size, List.length_append,
    length_beBytes, hlen, List.length_singleton, IsdAsn.length_bytes, IPAddress.length_bytes]
  omega

section Regular

variable {noUnderlay : Bool} {old : TCP} {raw bs : List UInt8} {pkt : PacketBuffer}

theorem IPPart.length (h : IPPart pkt bs) : bs.length = pkt.ipSize := by
  cases h with
  | ipv4 chksum valid is4 verifies =>
    rw [IPv4.length_bytesWith is4, ipSize, valid]
    rfl
  | ipv6 valid is6 =>
    rw [IPv6.length_bytes is6, ipSize, valid]
    rfl

/-- The IP header is written as it was under the condition on its checksum. -/
theorem IPPart.eq_bytes_iff (h : IPPart pkt bs) (rest : List UInt8) :
    bs = pkt.ipBytes ↔ (pkt.ipValid = .ipv4 → Records.slice (bs ++ rest) 10 2 ≠ [0xff, 0xff] ∧
      fold 65536 (wordSum (pkt.ipv4.bytesWith 0)) < 65536) := by
  cases h with
  | ipv4 chksum valid is4 verifies =>
    have hslice : Records.slice (pkt.ipv4.bytesWith chksum ++ rest) 10 2
        = beBytes 2 chksum.toNat := by
      rw [IPv4.bytesWith, Records.slice, List.append_assoc, List.append_assoc,
        List.drop_left' (IPv4.length_front _), List.take_left' (length_beBytes 2 _)]
    have hones : beBytes 2 chksum.toNat = [0xff, 0xff] ↔ chksum = 0xffff := by
      constructor
      · intro h
        have hnat := congrArg beNat h
        have hlt := chksum.toNat_lt
        rw [beNat_beBytes, show beNat [0xff, 0xff] = 65535 from rfl] at hnat
        rw [← UInt16.toNat_inj, show (0xffff : UInt16).toNat = 65535 from rfl]
        omega
      · rintro rfl
        rfl
    rw [ipBytes, valid, hslice, ne_eq, hones]
    rw [eq_comm, IPv4.bytes_eq_bytesWith_iff is4 verifies]
    exact ⟨fun h _ => h, fun h => h rfl⟩
  | ipv6 valid is6 =>
    rw [ipBytes, valid]
    exact ⟨fun _ h => (by cases h), fun _ => rfl⟩

/-- The SCION header and the path are those of the members. -/
theorem ScionPart.eq_scionBytes {proto : ScionProto} {rest : List UInt8}
    (h : ScionPart pkt proto bs)
    (hexts : pkt.sci.nh ≠ ScionProto.hbhOpt ∧ pkt.sci.nh ≠ ScionProto.e2eOpt)
    (hreserved : Records.slice (bs ++ rest) 10 2 = List.replicate 2 0) :
    bs = pkt.scionBytes ∧ bs.length = pkt.sci.size + pkt.path.size ∧ bs.length % 4 = 0 := by
  obtain ⟨reserved, exts, rfl, hlen, -, hsize, hfour, hnoExts⟩ := h
  obtain ⟨rfl, -⟩ := hnoExts hexts.1 hexts.2
  have hzero : reserved = List.replicate 2 0 := by
    obtain ⟨front, tail, hfront, hsplit⟩ : ∃ front tail, front.length = 10 ∧
        pkt.sci.bytesWith reserved = front ++ (reserved ++ tail) :=
      ⟨beBytes 4 (SCION.versionWord pkt.sci.qos pkt.sci.fl) ++ ([pkt.sci.nh] ++ ([pkt.sci.hlen] ++
        (beBytes 2 pkt.sci.plen.toNat ++ ([pkt.sci.ptype] ++
          beBytes 1 (pkt.sci.dst.host.type.toNat * 16 + pkt.sci.src.host.type.toNat))))),
        pkt.sci.dst.isdAsn.bytes ++ (pkt.sci.src.isdAsn.bytes ++
          (pkt.sci.dst.host.bytes ++ pkt.sci.src.host.bytes)), by simp,
        by simp only [SCION.bytesWith, List.append_assoc]⟩
    rw [← hreserved, hsplit, Records.slice, List.append_assoc, List.append_assoc,
      List.drop_left' hfront, List.append_assoc, List.take_left' hlen]
  rw [hzero, ← SCION.bytes_eq_bytesWith, List.append_nil, ← scionBytes]
  have hbytes : pkt.scionBytes.length = pkt.sci.size + pkt.path.size := by
    rw [scionBytes, List.length_append, SCION.length_bytes, ← hsize]
  exact ⟨rfl, hbytes, by omega⟩

theorem IPPart.length_ipBytes (h : IPPart pkt bs) : pkt.ipBytes.length = pkt.ipSize := by
  cases h with
  | ipv4 chksum valid is4 verifies =>
    rw [ipBytes, ipSize, valid]
    exact IPv4.length_bytes is4
  | ipv6 valid is6 =>
    rw [ipBytes, ipSize, valid]
    exact IPv6.length_bytes is6

theorem IPPart.writable (h : IPPart pkt bs) : pkt.IPWritable := by
  cases h with
  | ipv4 chksum valid is4 verifies =>
    refine ⟨fun _ => is4, fun h => ?_⟩
    rw [valid] at h
    cases h
  | ipv6 valid is6 =>
    refine ⟨fun h => ?_, fun _ => is6⟩
    rw [valid] at h
    cases h

/-- The bytes of a regular transport header, and those that it is written with. -/
structure L4Bytes (pkt : PacketBuffer) (l4 rest : List UInt8) : Prop where
  length : l4.length = pkt.l4Size
  length_l4Bytes : pkt.l4Bytes.length = pkt.l4Size
  even : l4.length % 2 = 0
  small : l4.length ≤ 28
  eq_iff : l4 = pkt.l4Bytes ↔ (pkt.l4Valid = .scmp →
    ScmpMessage.hasCode pkt.scmp.msg.type = false → (l4 ++ rest).getD 1 0 = 0)

theorem size_scmp (h : SCMP) : h.size % 2 = 0 ∧ h.size ≤ 28 := by
  rw [SCMP.size]
  cases h.msg <;> simp [ScmpMessage.size]

/-- The bytes of a header other than SCMP are all from its fields. -/
theorem L4Bytes.of_not_scmp {l4 rest : List UInt8} (hne : pkt.l4Valid ≠ .scmp)
    (hbytes : pkt.l4Bytes = l4) (hsize : pkt.l4Size = l4.length) (heven : l4.length % 2 = 0)
    (hsmall : l4.length ≤ 28) : L4Bytes pkt l4 rest where
  length := hsize.symm
  length_l4Bytes := by rw [hbytes, hsize]
  even := heven
  small := hsmall
  eq_iff := ⟨fun _ hscmp => absurd hscmp hne, fun _ => hbytes.symm⟩

theorem L4Part.l4Bytes {l4 rest : List UInt8} (h : L4Part old pkt l4)
    (hplain : pkt.l4Valid = .tcp → (l4 ++ rest).getD 12 0 = TCP.plainOffset)
    (hreserved : pkt.l4Valid = .scmp →
      keep (ScmpMessage.keptBody pkt.scmp.msg.type)
          (Records.slice (l4 ++ rest) 4 pkt.scmp.msg.size)
        = Records.slice (l4 ++ rest) 4 pkt.scmp.msg.size) : L4Bytes pkt l4 rest := by
  cases h with
  | icmp valid =>
    have hlen := ICMPv6.length_bytes pkt.icmp
    have hsize : pkt.l4Size = 8 := by
      rw [l4Size, valid]
      rfl
    refine .of_not_scmp (by simp [valid]) ?_ (hsize.trans hlen.symm) (by omega) (by omega)
    rw [PacketBuffer.l4Bytes, valid]
  | udp valid =>
    have hlen := UDP.length_bytes pkt.udp
    have hsize : pkt.l4Size = 8 := by
      rw [l4Size, valid]
      rfl
    refine .of_not_scmp (by simp [valid]) ?_ (hsize.trans hlen.symm) (by omega) (by omega)
    rw [PacketBuffer.l4Bytes, valid]
  | tcp valid parsed =>
    have hlong : 20 ≤ l4.length := by
      rw [parsed.bytes_eq, List.length_append, TCP.length_fixedWith]
      omega
    have hoffset := hplain valid
    rw [List.getD_append _ _ _ _ (by omega)] at hoffset
    obtain ⟨heq, hmask⟩ := parsed.bytes_plain hoffset
    have hsize : pkt.l4Size = 20 := by
      rw [l4Size, valid]
      simp [TCP.size, TCP.measureOpts, hmask]
    have hlen : l4.length = 20 := by
      have hfixed := parsed.bytes_eq
      have hopts := parsed.length_opts
      rw [hfixed, TCP.getD_fixedWith] at hoffset
      rw [hoffset, show TCP.plainOffset.toNat = 80 from rfl] at hopts
      rw [hfixed, List.length_append, TCP.length_fixedWith, hopts]
    refine .of_not_scmp (by simp [valid]) ?_ (hsize.trans hlen.symm) (by omega) (by omega)
    rw [PacketBuffer.l4Bytes, valid, heq]
  | scmp valid holds =>
    have hbytes : pkt.l4Bytes = pkt.scmp.bytes := by rw [PacketBuffer.l4Bytes, valid]
    have hsize : pkt.l4Size = pkt.scmp.size := by rw [l4Size, valid]
    have hlen : l4.length = 4 + pkt.scmp.msg.size := holds.size
    have hdrop : Records.slice (l4 ++ rest) 4 pkt.scmp.msg.size = l4.drop 4 := by
      rw [Records.slice_append_left _ _ _ _ (by omega), Records.slice,
        List.take_of_length_le (by rw [List.length_drop]; omega)]
    have hkept := hreserved valid
    rw [hdrop] at hkept
    have hsizes := size_scmp pkt.scmp
    refine ⟨by rw [hsize, holds.size], by rw [hbytes, hsize, SCMP.length_bytes],
      by rw [holds.size]; exact hsizes.1, by rw [holds.size]; exact hsizes.2, ?_⟩
    rw [hbytes, holds.bytes_eq_iff hkept, List.getD_append _ _ _ _ (by omega)]
    exact ⟨fun h _ => h, fun h => h valid⟩

/-- A regular packet cut into its parts, with the members they are written from. -/
structure Cut (noUnderlay : Bool) (raw : List UInt8) (pkt : PacketBuffer) where
  ip : List UInt8
  scion : List UInt8
  l4 : List UInt8
  raw_eq : raw = ip ++ (bytesIf pkt.outerUDPValid pkt.outerUDP.bytes ++
    (scion ++ (l4 ++ pkt.payload)))
  no_underlay : noUnderlay = true → ip = [] ∧ pkt.ipValid = .none ∧ pkt.outerUDPValid = false
  ip_part : noUnderlay = false → IPPart pkt ip
  length_ip : ip.length = pkt.ipSize
  scion_eq : scion = bytesIf pkt.scionValid pkt.scionBytes
  length_scion : scion.length = if pkt.scionValid then pkt.sci.size + pkt.path.size else 0
  scion_even : scion.length % 2 = 0
  scion_small : scion.length ≤ 1020
  underlay : pkt.outerUDPValid = true → pkt.scionValid = true ∧ pkt.sci.hlen ≠ 0
  l4_bytes : L4Bytes pkt l4 pkt.payload
  offset : ∀ k, raw.getD (pkt.l4Offset + k) 0 = (l4 ++ pkt.payload).getD k 0

theorem Parts.cut {hdr : List UInt8} (parts : Parts noUnderlay old pkt hdr)
    (hraw : raw = hdr ++ pkt.payload) (hregular : Regular raw pkt) :
    Nonempty (Cut noUnderlay raw pkt) := by
  obtain ⟨inner⟩ := parts.inner_part
  have hip : parts.ip.length = pkt.ipSize := by
    cases noUnderlay with
    | true =>
      obtain ⟨hnil, hnone, -⟩ := parts.no_underlay rfl
      rw [hnil, ipSize, hnone]
      rfl
    | false => exact (parts.ip_part rfl).length
  set outer := bytesIf pkt.outerUDPValid pkt.outerUDP.bytes with houter
  have hsplit : raw = (parts.ip ++ outer) ++ (inner.scion ++ (inner.l4 ++ pkt.payload)) := by
    have hhdr := congrArg (· ++ pkt.payload) parts.bytes_eq
    have hinner := congrArg (fun bs => (parts.ip ++ bs) ++ pkt.payload) inner.bytes_eq
    rw [hraw]
    refine (hhdr.trans hinner).trans ?_
    simp only [List.append_assoc, houter]
  have hscionOffset : (parts.ip ++ outer).length = pkt.scionOffset := by
    rw [List.length_append, hip, houter, length_bytesIf, UDP.length_bytes]
    rfl
  -- the SCION header is the one of the members
  have hscion : inner.scion = bytesIf pkt.scionValid pkt.scionBytes ∧
      inner.scion.length = (if pkt.scionValid then pkt.sci.size + pkt.path.size else 0) ∧
      inner.scion.length % 2 = 0 ∧ inner.scion.length ≤ 1020 := by
    cases hvalid : pkt.scionValid with
    | false =>
      rw [inner.no_scion hvalid]
      exact ⟨rfl, rfl, rfl, Nat.zero_le _⟩
    | true =>
      obtain ⟨part⟩ := inner.scion_part hvalid
      have hreserved := hregular.reserved hvalid
      rw [hsplit, ← hscionOffset, Records.slice_append_right] at hreserved
      obtain ⟨heq, hlen, hfour⟩ := part.eq_scionBytes (hregular.noExtensions hvalid) hreserved
      have hsize := part.size_eq
      have hhlen := pkt.sci.hlen.toNat_lt
      exact ⟨heq, hlen, by omega, by omega⟩
  obtain ⟨hscionEq, hscionLen, hscionEven, hscionSmall⟩ := hscion
  have hl4Offset : ((parts.ip ++ outer) ++ inner.scion).length = pkt.l4Offset := by
    rw [List.length_append, hscionOffset, hscionLen]
    rfl
  rw [← List.append_assoc] at hsplit
  have hoffset : ∀ k, raw.getD (pkt.l4Offset + k) 0 = (inner.l4 ++ pkt.payload).getD k 0 := by
    intro k
    rw [hsplit, ← hl4Offset, List.getD_append_right _ _ _ _ (by omega), Nat.add_sub_cancel_left]
  have hl4 : L4Bytes pkt inner.l4 pkt.payload := by
    refine inner.l4_part.l4Bytes (fun htcp => ?_) fun hscmp => ?_
    · rw [← hoffset]
      exact hregular.noOptions htcp
    · have hreserved := hregular.reservedScmp hscmp
      rwa [hsplit, ← hl4Offset, Records.slice_append_right] at hreserved
  refine ⟨⟨parts.ip, inner.scion, inner.l4, ?_, parts.no_underlay, parts.ip_part, hip, hscionEq,
    hscionLen, hscionEven, hscionSmall, fun hvalid => ?_, hl4, hoffset⟩⟩
  · rw [hsplit]
    simp only [List.append_assoc, houter]
  · obtain ⟨part⟩ := inner.scion_part (inner.underlay hvalid)
    refine ⟨inner.underlay hvalid, fun hzero => ?_⟩
    have hsize := part.size_eq
    rw [hzero, SCION.size, show (0 : UInt8).toNat = 0 from rfl] at hsize
    omega

namespace Cut

variable (cut : Cut noUnderlay raw pkt)

theorem measureHeaders_eq : pkt.measureHeaders noUnderlay
    = cut.ip.length + ((bytesIf pkt.outerUDPValid pkt.outerUDP.bytes).length
      + (cut.scion.length + pkt.l4Size)) := by
  rw [cut.length_scion, cut.length_ip, length_bytesIf, UDP.length_bytes]
  cases noUnderlay with
  | true =>
    obtain ⟨-, hnone, houter⟩ := cut.no_underlay rfl
    rw [measureHeaders, ipSize, hnone, houter]
    cases pkt.scionValid with
    | true => simp
    | false => simp
  | false =>
    rw [measureHeaders, ipSize]
    simp only [Bool.false_eq_true, if_false]
    cases pkt.ipValid <;> cases pkt.outerUDPValid <;> cases pkt.scionValid <;>
      simp [UDP.size, add_assoc]

theorem innerBytes_eq (hstun : pkt.stunValid = false) :
    pkt.innerBytes = cut.scion ++ pkt.l4Bytes := by
  rw [innerBytes, hstun, cut.scion_eq]
  rfl

/-- What is written, part by part. -/
theorem emitted_eq (hstun : pkt.stunValid = false) :
    pkt.emitted noUnderlay = bytesIf (!noUnderlay) pkt.ipBytes ++
      (bytesIf pkt.outerUDPValid
          ({ pkt.outerUDP with chksum := pkt.outerChksum pkt.innerBytes } : UDP).bytes ++
        (cut.scion ++ pkt.l4Bytes)) := by
  rw [emitted, underlayBytes, cut.innerBytes_eq hstun]
  cases noUnderlay with
  | true =>
    rw [(cut.no_underlay rfl).2.2]
    rfl
  | false => exact List.append_assoc ..

theorem length_ipBytes : (bytesIf (!noUnderlay) pkt.ipBytes).length = cut.ip.length := by
  cases noUnderlay with
  | true =>
    rw [(cut.no_underlay rfl).1]
    rfl
  | false =>
    rw [cut.length_ip]
    exact (cut.ip_part rfl).length_ipBytes

theorem length_emitted (cut : Cut noUnderlay raw pkt) (hstun : pkt.stunValid = false) :
    (pkt.emitted noUnderlay).length = pkt.measureHeaders noUnderlay := by
  rw [cut.emitted_eq hstun, cut.measureHeaders_eq, List.length_append, List.length_append,
    List.length_append, cut.length_ipBytes, cut.l4_bytes.length_l4Bytes, length_bytesIf,
    length_bytesIf, UDP.length_bytes, UDP.length_bytes]

/-- The IP header is written as it was. -/
theorem ip_iff : bytesIf (!noUnderlay) pkt.ipBytes = cut.ip ↔
    (pkt.ipValid = .ipv4 → Records.slice raw 10 2 ≠ [0xff, 0xff] ∧
      fold 65536 (wordSum (pkt.ipv4.bytesWith 0)) < 65536) := by
  cases noUnderlay with
  | true =>
    obtain ⟨hnil, hnone, -⟩ := cut.no_underlay rfl
    rw [hnil, hnone]
    exact ⟨fun _ h => (by cases h), fun _ => rfl⟩
  | false =>
    have hiff := (cut.ip_part rfl).eq_bytes_iff (bytesIf pkt.outerUDPValid pkt.outerUDP.bytes ++
      (cut.scion ++ (cut.l4 ++ pkt.payload)))
    rw [← cut.raw_eq] at hiff
    exact eq_comm.trans hiff

/-- The checksum of the underlay that is written. -/
theorem chksum_iff (hregular : Regular raw pkt) (houter : pkt.outerUDPValid = true) :
    pkt.outerChksum (cut.scion ++ cut.l4) = pkt.outerUDP.chksum ↔
      pkt.wireSum raw % 65535 + pkt.outerUDP.chksum.toNat = fold 65536 pkt.outerSum / 65536 := by
  have hlength := hregular.outerLength houter
  have hlt := pkt.outerUDP.len.toNat_lt
  have hchksum := pkt.outerUDP.chksum.toNat_lt
  have hbehind : raw.drop pkt.ipSize
      = pkt.outerUDP.bytes ++ ((cut.scion ++ cut.l4) ++ pkt.payload) := by
    refine (congrArg (List.drop pkt.ipSize) cut.raw_eq).trans ?_
    rw [List.drop_left' cut.length_ip, houter, List.append_assoc]
    rfl
  have hdata : (cut.scion ++ cut.l4).length % 2 = 0 := by
    have hscion := cut.scion_even
    have hl4 := cut.l4_bytes.even
    rw [List.length_append]
    omega
  have hwire : pkt.wireSum raw = pkt.outerSum + wordSum (cut.scion ++ cut.l4) := by
    rw [wireSum, outerSum, hbehind, wordSum_append _ _ (by rw [UDP.length_bytes]),
      wordSum_append _ _ hdata]
    omega
  have hsmall : pkt.payload.length ≤ 65535 := by
    have hlen := congrArg List.length hbehind
    rw [List.length_drop, List.length_append, List.length_append] at hlen
    omega
  have hpayload := wordSum_le pkt.payload
  have hsum := wordSum_le (cut.scion ++ cut.l4)
  have hudp := wordSum_le pkt.outerUDP.bytes
  have hscion := cut.scion_small
  have hl4 := cut.l4_bytes.small
  have hpseudo := pkt.pseudoSum_lt
  rw [UDP.length_bytes] at hudp
  rw [List.length_append] at hsum
  have houterSum : pkt.outerSum < 2 ^ 32 := by
    rw [outerSum]
    omega
  have hpos : 0 < wordSum (cut.scion ++ cut.l4) := by
    -- the header length is not zero
    refine wordSum_pos (b := pkt.sci.hlen) (List.mem_append_left _ ?_) (cut.underlay houter).2
    rw [cut.scion_eq, (cut.underlay houter).1, scionBytes, SCION.bytes_eq_bytesWith,
      SCION.bytesWith]
    simp [bytesIf]
  have hver : pkt.outerUDP.chksum.toNat = 0 ∨
      (pkt.outerSum + wordSum (cut.scion ++ cut.l4)) % 65535 = 0 := by
    rw [← hwire]
    refine (hregular.outerChksum houter).imp (fun h => ?_) id
    rw [h]
    rfl
  rw [← UInt16.toNat_inj, toNat_outerChksum houterSum (by omega), hwire]
  exact complement_refold_iff houterSum hpos (by omega) hchksum hver

theorem bytes_chksum_iff (h : UDP) (chksum : UInt16) :
    ({ h with chksum := chksum } : UDP).bytes = h.bytes ↔ chksum = h.chksum := by
  constructor
  · intro heq
    have hpart := List.append_cancel_left (List.append_cancel_left (List.append_cancel_left heq))
    have hnat := congrArg beNat hpart
    have hnew := chksum.toNat_lt
    have hold := h.chksum.toNat_lt
    rw [beNat_beBytes, beNat_beBytes] at hnat
    rw [← UInt16.toNat_inj]
    replace hnat : chksum.toNat % 256 ^ 2 = h.chksum.toNat % 256 ^ 2 := hnat
    omega
  · rintro rfl
    rfl

/-- What is written is the packet exactly if each part is. -/
theorem emitted_eq_iff (hregular : Regular raw pkt) (hstun : pkt.stunValid = false) :
    pkt.emitted noUnderlay ++ pkt.payload = raw ↔
      bytesIf (!noUnderlay) pkt.ipBytes = cut.ip ∧ pkt.l4Bytes = cut.l4 ∧
        (pkt.outerUDPValid = true → pkt.wireSum raw % 65535 + pkt.outerUDP.chksum.toNat
          = fold 65536 pkt.outerSum / 65536) := by
  have hlenL4 : pkt.l4Bytes.length = cut.l4.length :=
    cut.l4_bytes.length_l4Bytes.trans cut.l4_bytes.length.symm
  have hemitted := congrArg (· ++ pkt.payload) (cut.emitted_eq hstun)
  simp only [List.append_assoc] at hemitted
  rw [hemitted]
  constructor
  · intro heq
    obtain ⟨hip, hrest⟩ := List.append_inj (heq.trans cut.raw_eq) cut.length_ipBytes
    obtain ⟨houter, hrest⟩ := List.append_inj hrest (by
      rw [length_bytesIf, length_bytesIf, UDP.length_bytes, UDP.length_bytes])
    obtain ⟨hl4, -⟩ := List.append_inj (List.append_cancel_left hrest) hlenL4
    refine ⟨hip, hl4, fun hvalid => (cut.chksum_iff hregular hvalid).mp ?_⟩
    rw [hvalid, bytesIf, bytesIf, if_pos rfl, if_pos rfl, bytes_chksum_iff] at houter
    rwa [cut.innerBytes_eq hstun, hl4] at houter
  · rintro ⟨hip, hl4, hchksum⟩
    refine Eq.trans ?_ cut.raw_eq.symm
    rw [hip, hl4]
    congr 2
    cases hvalid : pkt.outerUDPValid with
    | false => rfl
    | true =>
      have houter := (cut.chksum_iff hregular hvalid).mpr (hchksum hvalid)
      rw [← hl4, ← cut.innerBytes_eq hstun] at houter
      rw [bytesIf, bytesIf, if_pos rfl, if_pos rfl, bytes_chksum_iff]
      exact houter

theorem emitPacket_iff (cut : Cut noUnderlay raw pkt) (hregular : Regular raw pkt) (hstun : pkt.stunValid = false)
    (hplaced : pkt.Placed) (hend : raw.length ≤ pkt.endOfHeader + pkt.payload.length) :
    (pkt.emitPacket noUnderlay).1 = .ok raw ↔ Reemitted raw pkt := by
  have hl4 : pkt.l4Bytes = cut.l4 ↔ (pkt.l4Valid = .scmp →
      ScmpMessage.hasCode pkt.scmp.msg.type = false → raw.getD (pkt.l4Offset + 1) 0 = 0) := by
    rw [cut.offset]
    exact eq_comm.trans cut.l4_bytes.eq_iff
  by_cases hknown : pkt.l4Valid = .scmp → pkt.scmp.msg.isKnown = true
  · have hw : pkt.Writable noUnderlay := ⟨fun h => (cut.ip_part h).writable, hknown⟩
    have hroom : pkt.measureHeaders noUnderlay ≤ pkt.endOfHeader := by
      have hlen := congrArg List.length cut.raw_eq
      rw [List.length_append, List.length_append, List.length_append, List.length_append,
        cut.l4_bytes.length] at hlen
      rw [cut.measureHeaders_eq]
      omega
    have hsame := cut.length_emitted hstun
    have hgap : pkt.gap noUnderlay = [] := by
      rw [gap, hsame, List.drop_eq_nil_iff, Records.slice, List.length_take]
      exact Nat.min_le_left _ _
    rw [emitPacket_ok hw hplaced hroom hsame.le, hgap, List.nil_append, Except.ok.injEq,
      cut.emitted_eq_iff hregular hstun, cut.ip_iff, hl4]
    constructor
    · rintro ⟨hip, hmsg, houter⟩
      exact ⟨hstun, fun h => ⟨hknown h, hmsg h⟩, hip, houter⟩
    · intro h
      exact ⟨h.ipChksum, fun hscmp => (h.message hscmp).2, h.outerChksum⟩
  · -- an unknown SCMP error is not written
    obtain ⟨e, herr⟩ := @emitPacket_error noUnderlay pkt
      fun hw => absurd hw.scmp hknown
    rw [herr]
    refine ⟨fun h => (by cases h), fun h => absurd (fun hscmp => (h.message hscmp).1) hknown⟩

end Cut

end Regular

/-- STUN messages are not measured, so that there is no room for them. -/
theorem StunMessage.emitPacket_error {pkt : PacketBuffer} (h : StunMessage pkt)
    (noUnderlay : Bool) : ∃ e, (pkt.emitPacket noUnderlay).1 = .error e := by
  refine PacketBuffer.emitPacket_error fun hw _ => ?_
  have hpos := pkt.stun.bytes_pos
  have hip : noUnderlay = false → pkt.ipBytes.length = pkt.ipSize := by
    intro hno
    have hwritable := hw.ip hno
    rw [ipBytes, ipSize]
    cases hvalid : pkt.ipValid with
    | none => rfl
    | ipv4 => exact IPv4.length_bytes (hwritable.ipv4 hvalid)
    | ipv6 => exact IPv6.length_bytes (hwritable.ipv6 hvalid)
  rw [emitted, innerBytes, underlayBytes, measureHeaders, l4Size, l4Bytes, h.stunValid,
    h.outerUDPValid, h.scionValid, h.l4Valid]
  cases noUnderlay with
  | true =>
    simp [bytesIf]
    exact hpos
  | false =>
    have hlen := hip rfl
    rw [ipSize] at hlen
    cases hvalid : pkt.ipValid <;> rw [hvalid] at hlen <;> simp [bytesIf, hlen] <;> omega

/-- A regular packet that was received is emitted as it came in under the conditions of
`Reemitted`, and not otherwise. -/
theorem emitPacket_receive_iff {pkt : PacketBuffer} {headroom : ℕ} {raw : List UInt8}
    {noUnderlay : Bool} {isScion : Option IsScion}
    (hfits : raw.length ≤ pkt.buffer.length - headroom)
    (hok : (pkt.receive headroom raw noUnderlay isScion).1 = .ok)
    (hregular : Regular raw (pkt.receive headroom raw noUnderlay isScion).2) :
    ((pkt.receive headroom raw noUnderlay isScion).2.emitPacket noUnderlay).1 = .ok raw ↔
      Reemitted raw (pkt.receive headroom raw noUnderlay isScion).2 := by
  obtain ⟨received⟩ := receive_spec hfits hok
  rcases received.parts with hstun | hparts
  · obtain ⟨e, herr⟩ := hstun.emitPacket_error noUnderlay
    rw [herr]
    refine ⟨fun h => (by cases h), fun h => ?_⟩
    have hno := h.noStun
    rw [hstun.stunValid] at hno
    cases hno
  · obtain ⟨parts⟩ := hparts
    obtain ⟨cut⟩ := parts.cut received.raw_eq hregular
    refine cut.emitPacket_iff hregular parts.no_stun received.placed ?_
    have hlen := congrArg List.length received.raw_eq
    have hle := received.length_le
    rw [List.length_append] at hlen
    omega

/-- A SCION packet with an empty path and a UDP datagram of one byte. -/
def scionUdp : List UInt8 :=
  [0, 0, 0, 1, 17, 9, 0, 9, 0, 0, 0, 0, 0, 1, 0, 0, 0, 0, 0, 1, 0, 1, 0, 0, 0, 0, 0, 2, 10, 0, 0, 1,
    10, 0, 0, 2, 0, 80, 0, 81, 0, 9, 0x12, 0x34, 7]

theorem emitPacket_receive_iff_scionUdp :
    (((ofBuffer (List.replicate 64 0)).receive 0 scionUdp true none).2.emitPacket true).1
        = .ok scionUdp ↔
      Reemitted scionUdp ((ofBuffer (List.replicate 64 0)).receive 0 scionUdp true none).2 := by
  refine emitPacket_receive_iff (by decide) (by decide) ⟨fun _ => by decide, fun h => ?_,
    fun _ => by decide, fun h => ?_, fun h => ?_, fun h => ?_⟩
  · exact absurd h (by decide)
  · exact absurd h (by decide)
  · exact absurd h (by decide)
  · exact absurd h (by decide)

/-- A binding request is accepted, but not emitted. -/
theorem not_forall_emitPacket_receive :
    ¬ ∀ (pkt : PacketBuffer) (headroom : ℕ) (raw : List UInt8) (noUnderlay : Bool)
      (isScion : Option IsScion), raw.length ≤ pkt.buffer.length - headroom →
      (pkt.receive headroom raw noUnderlay isScion).1 = .ok →
      Regular raw (pkt.receive headroom raw noUnderlay isScion).2 →
      ((pkt.receive headroom raw noUnderlay isScion).2.emitPacket noUnderlay).1 = .ok raw := by
  intro h
  have hemit := h (ofBuffer (List.replicate 64 0)) 32
    ([0, 1, 0, 0, 0x21, 0x12, 0xa4, 0x42] ++ List.replicate 12 5) true none (by decide) (by decide)
    ⟨fun h => absurd h (by decide), fun h => absurd h (by decide), fun h => absurd h (by decide),
      fun h => absurd h (by decide), fun h => absurd h (by decide), fun h => absurd h (by decide)⟩
  exact absurd hemit (by decide)

end PacketBuffer

end Scion
