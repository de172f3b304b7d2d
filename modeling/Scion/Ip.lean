/-
IP headers (`hdr/ip.hpp`).

* `IPv4`, `IPv6`, `ICMPv6` with their checksums and wire formats;
* `writes` — the bytes of a written header;
* `takes` — the bytes of an accepted one. The checksum of an IPv4 header is checked
  and dropped when it is read, and computed again when it is written.
-/
import Scion.Decoding
import Scion.Checksum
import Mathlib.Data.Nat.Bitwise

namespace Scion

open BigEndian Codec ReadStream WriteStream

/-- Protocol numbers. The field can hold other values after a read. -/
abbrev IPProto := UInt8

namespace IPProto

def icmp : IPProto := 1
def tcp : IPProto := 6
def udp : IPProto := 17
def icmpv6 : IPProto := 58

end IPProto

/-! ### Bits of fields -/

theorem toUInt8_ofNat (d : ℕ) : (UInt64.ofNat d).toUInt8.toNat = d % 2 ^ 8 := by
  rw [UInt64.toNat_toUInt8, UInt64.toNat_ofNat']
  omega

theorem toUInt16_ofNat (d : ℕ) : (UInt64.ofNat d).toUInt16.toNat = d % 2 ^ 16 := by
  rw [UInt64.toNat_toUInt16, UInt64.toNat_ofNat']
  omega

/-- Version, traffic class and flow label fill four bytes. -/
def classWord (version : ℕ) (tc : UInt8) (fl : UInt32) : ℕ :=
  version * 2 ^ 28 + tc.toNat * 2 ^ 20 + fl.toNat % 2 ^ 20

/-! ### IP version 4 -/

/-- IP version 4 header without options. -/
structure IPv4 where
  flags : UInt8 := 2
  tos : UInt8 := 0
  ttl : UInt8 := 64
  proto : IPProto := IPProto.udp
  len : UInt16 := 0
  id : UInt16 := 1
  frag : UInt16 := 0
  src : IPAddress := .v4 0
  dst : IPAddress := .v4 0
  deriving DecidableEq, Repr

namespace IPv4

def version : UInt8 := 4

/-- IP without options. -/
def ihl : UInt8 := 5

def moreFragments : UInt8 := 1
def dontFragment : UInt8 := 2

/-- The pseudo header checksum for higher-level protocols. -/
def checksum (h : IPv4) (length : UInt16) : UInt32 :=
  h.src.checksum + h.dst.checksum + h.proto.toUInt32 + length.toUInt32

def size (_ : IPv4) : ℕ := 4 * ihl.toNat

/-- Version and header length. -/
def readVersion : Reader Unit := do
  let ver ← UInt64.toUInt8 <$> ReadStream.serializeBits 8 4
  ensure (ver == version) "invalid IP version"
  let hdrLen ← UInt64.toUInt8 <$> ReadStream.serializeBits 8 4
  ensure (!(hdrLen < 5 : Bool)) "invalid IP header"
  ensure (!(hdrLen > 5 : Bool)) "IP options not supported"
  pure ()

/-- Flags and fragment offset. -/
def readFragment : Reader (UInt8 × UInt16) := do
  let flags ← UInt64.toUInt8 <$> ReadStream.serializeBits 8 3
  ensure (flags &&& ((1 : UInt8) <<< 2) == 0) "invalid IP header"
  let frag ← UInt64.toUInt16 <$> ReadStream.serializeBits 16 13
  pure (flags, frag)

def readFields : Reader IPv4 := do
  readVersion
  let tos ← ReadStream.serializeByte
  let len ← ReadStream.serializeUint16
  let id ← ReadStream.serializeUint16
  let fragment ← readFragment
  let ttl ← ReadStream.serializeByte
  let proto ← ReadStream.serializeByte
  let _ ← ReadStream.serializeUint16
  let src ← IPAddress.read true
  let dst ← IPAddress.read true
  pure ⟨fragment.1, tos, ttl, proto, len, id, fragment.2, src, dst⟩

def read : Reader IPv4 := do
  let hdr ← ReadStream.lookahead (some 20)
  ensure (onesComplementChecksum hdr 0 == 0xffff) "incorrect IP checksum"
  readFields

def writeVersion : Writer := do
  WriteStream.serializeBits 8 version.toUInt64 4
  WriteStream.serializeBits 8 ihl.toUInt64 4

def writeFragment (h : IPv4) : Writer := do
  WriteStream.serializeBits 8 h.flags.toUInt64 3
  WriteStream.serializeBits 16 h.frag.toUInt64 13

def writeFields (h : IPv4) : Writer := do
  writeVersion
  WriteStream.serializeByte h.tos
  WriteStream.serializeUint16 h.len
  WriteStream.serializeUint16 h.id
  h.writeFragment
  WriteStream.serializeByte h.ttl
  WriteStream.serializeByte h.proto
  WriteStream.serializeUint16 0
  h.src.write true
  h.dst.write true

def write (h : IPv4) : Writer := do
  h.writeFields
  let hdr ← WriteStream.lookback (some 20)
  WriteStream.updateChksum (internetChecksum hdr 0) 8

/-! The bytes in front of the checksum and behind it. -/

def front (h : IPv4) : List UInt8 :=
  beBytes 1 (4 * 16 + 5) ++ ([h.tos] ++ (beBytes 2 h.len.toNat ++ (beBytes 2 h.id.toNat ++
    (beBytes 2 (h.flags.toNat % 2 ^ 3 * 2 ^ 13 + h.frag.toNat % 2 ^ 13) ++ ([h.ttl] ++ [h.proto])))))

def addresses (h : IPv4) : List UInt8 := h.src.bytes ++ h.dst.bytes

/-- The header with a given checksum. -/
def bytesWith (h : IPv4) (chksum : UInt16) : List UInt8 :=
  h.front ++ (beBytes 2 chksum.toNat ++ h.addresses)

def bytes (h : IPv4) : List UInt8 := h.bytesWith (internetChecksum (h.bytesWith 0) 0)

@[simp] theorem length_front (h : IPv4) : h.front.length = 10 := by simp [front]

/-- Both addresses are of IP version 4. -/
def Is4 (h : IPv4) : Prop := h.src.is4 = true ∧ h.dst.is4 = true

theorem length_addresses {h : IPv4} (h4 : h.Is4) : h.addresses.length = 8 := by
  rw [addresses, List.length_append, IPAddress.length_bytes, IPAddress.length_bytes,
    IPAddress.size, IPAddress.size, h4.1, h4.2]
  rfl

theorem length_bytesWith {h : IPv4} (h4 : h.Is4) (chksum : UInt16) :
    (h.bytesWith chksum).length = 20 := by
  rw [bytesWith, List.length_append, List.length_append, length_front, length_beBytes,
    length_addresses h4]

theorem length_bytes {h : IPv4} (h4 : h.Is4) : h.bytes.length = 20 := length_bytesWith h4 _

/-- The checksum is a word of its own. -/
theorem wordSum_bytesWith (h : IPv4) (chksum : UInt16) :
    wordSum (h.bytesWith chksum) = wordSum (h.bytesWith 0) + chksum.toNat := by
  have hparts : ∀ c : UInt16, wordSum (h.bytesWith c)
      = wordSum h.front + (c.toNat + wordSum h.addresses) := by
    intro c
    have hlt := c.toNat_lt
    rw [bytesWith, wordSum_append h.front _ (by rw [length_front]),
      wordSum_append (beBytes 2 c.toNat) _ (by rw [length_beBytes]), wordSum_beBytes_two,
      Nat.mod_eq_of_lt hlt]
  rw [hparts, hparts, show (0 : UInt16).toNat = 0 from rfl]
  omega

/-- The first word of the header has the version. -/
theorem wordSum_pos (h : IPv4) (chksum : UInt16) : 0 < wordSum (h.bytesWith chksum) := by
  simp only [bytesWith, front, beBytes, List.cons_append, List.nil_append, wordSum, beNat]
  simp

theorem writes_version : Writes WriteStream.cursor writeVersion (beBytes 1 (4 * 16 + 5)) := by
  have hver := writesBits_serializeBits 8 0 4 version.toUInt64 (by norm_num) (by norm_num)
  have hlen := writesBits_serializeBits 8 4 4 ihl.toUInt64 (by norm_num) (by norm_num)
  exact WritesBits.writes (m := 1) (hver.bind hlen)

theorem writes_fragment (h : IPv4) : Writes WriteStream.cursor h.writeFragment
    (beBytes 2 (h.flags.toNat % 2 ^ 3 * 2 ^ 13 + h.frag.toNat % 2 ^ 13)) := by
  have hflags := writesBits_serializeBits 8 0 3 h.flags.toUInt64 (by norm_num) (by norm_num)
  have hfrag := writesBits_serializeBits 16 3 13 h.frag.toUInt64 (by norm_num) (by norm_num)
  have hall := hflags.bind hfrag
  rw [UInt8.toNat_toUInt64, UInt16.toNat_toUInt64] at hall
  exact WritesBits.writes (m := 2) hall

theorem writes_address {ip : IPAddress} (h4 : ip.is4 = true) :
    Writes WriteStream.cursor (ip.write true) ip.bytes := by
  have h := ip.writes
  rwa [h4] at h

theorem writes_fields {h : IPv4} (h4 : h.Is4) :
    Writes WriteStream.cursor h.writeFields (h.bytesWith 0) := by
  have hall := writes_version.bind ((writes_byte h.tos).bind ((writes_uint16 h.len).bind
    ((writes_uint16 h.id).bind (h.writes_fragment.bind ((writes_byte h.ttl).bind
      ((writes_byte h.proto).bind ((writes_uint16 0).bind
        ((writes_address h4.1).bind (writes_address h4.2)))))))))
  rw [bytesWith, front, addresses]
  simp only [List.append_assoc] at hall ⊢
  exact hall

theorem writes {h : IPv4} (h4 : h.Is4) : Writes WriteStream.cursor h.write h.bytes :=
  writes_chksum (writes_fields h4) (length_beBytes 2 _) (length_bytesWith h4 0)
    (length_addresses h4) fun hdr => internetChecksum hdr 0

/-- An address of the other version is not written. -/
theorem refuses_address {ip : IPAddress} {v4 : Bool} (h : ip.is4 = !v4) :
    Refuses WriteStream.cursor (ip.write v4) [] := by
  refine Refuses.ensure ?_ []
  rw [h]
  cases v4 <;> rfl

theorem refuses {h : IPv4} (h4 : ¬h.Is4) : Refuses WriteStream.cursor h.write [] := by
  refine Refuses.bind ?_ _
  refine writes_version.bind_refuses ((writes_byte h.tos).bind_refuses ((writes_uint16
    h.len).bind_refuses ((writes_uint16 h.id).bind_refuses (h.writes_fragment.bind_refuses
      ((writes_byte h.ttl).bind_refuses ((writes_byte h.proto).bind_refuses
        ((writes_uint16 0).bind_refuses ?_)))))))
  cases hsrc : h.src.is4 with
  | false => exact (refuses_address hsrc).bind _
  | true =>
    have hdst : h.dst.is4 = false := by
      rw [Is4, hsrc] at h4
      simpa using h4
    exact (writes_address hsrc).bind_refuses (refuses_address hdst)

/-! ### Accepted headers -/

theorem takes_version : Takes ReadStream.cursor readVersion fun bs _ => bs = beBytes 1 (4 * 16 + 5) := by
  have hver := ((readsBits_serializeBits 8 0 4 (by norm_num) (by norm_num)).map
    UInt64.toUInt8).takesField
  have hlen := ((readsBits_serializeBits 8 4 4 (by norm_num) (by norm_num)).map
    UInt64.toUInt8).takesField
  have hall : TakesField readVersion 0 (8 * 1) _ :=
    hver.bind (n := 4) fun ver => TakesField.ensure (hlen.bind (n := 0) fun hdrLen =>
      TakesField.ensure (TakesField.ensure (TakesField.pure () 0)))
  refine hall.takes.mono ?_
  rintro bs _ ⟨d, rfl, ver, ⟨hlt, rfl⟩, hver, hdrLen, ⟨hlt', rfl⟩, hmin, hmax, -⟩
  have hfour := congrArg UInt8.toNat (eq_of_beq hver)
  rw [toUInt8_ofNat, show version.toNat = 4 from rfl] at hfour
  rw [Bool.not_eq_true', decide_eq_false_iff_not, UInt8.lt_iff_toNat_lt, toUInt8_ofNat,
    show (5 : UInt8).toNat = 5 from rfl] at hmin
  rw [Bool.not_eq_true', decide_eq_false_iff_not, gt_iff_lt, UInt8.lt_iff_toNat_lt, toUInt8_ofNat,
    show (5 : UInt8).toNat = 5 from rfl] at hmax
  congr 1
  omega

/-- The reserved flag is the third bit. -/
theorem reserved_eq_zero {flags : UInt8} :
    (flags &&& ((1 : UInt8) <<< 2) == 0) = true ↔ flags.toNat / 4 % 2 = 0 := by
  have hand : (flags &&& ((1 : UInt8) <<< 2)).toNat = (flags.toNat.testBit 2).toNat * 2 ^ 2 := by
    rw [UInt8.toNat_and, show ((1 : UInt8) <<< 2).toNat = 2 ^ 2 from rfl, Nat.and_two_pow]
  rw [beq_iff_eq, ← UInt8.toNat_inj, hand, UInt8.toNat_zero, Nat.testBit_eq_decide_div_mod_eq]
  by_cases hbit : flags.toNat / 2 ^ 2 % 2 = 1
  · rw [decide_eq_true hbit]
    simp only [Bool.toNat_true]
    omega
  · rw [decide_eq_false hbit]
    simp only [Bool.toNat_false]
    omega

/-- Flags without the reserved one, and an offset of 13 bits. -/
structure Fits (h : IPv4) : Prop where
  flags : h.flags.toNat < 4
  frag : h.frag.toNat < 2 ^ 13

instance (h : IPv4) : Decidable h.Fits :=
  decidable_of_iff (h.flags.toNat < 4 ∧ h.frag.toNat < 2 ^ 13)
    ⟨fun hfits => ⟨hfits.1, hfits.2⟩, fun hfits => ⟨hfits.1, hfits.2⟩⟩

theorem takes_fragment : Takes ReadStream.cursor readFragment fun bs v =>
    (v.1.toNat < 4 ∧ v.2.toNat < 2 ^ 13) ∧
      bs = beBytes 2 (v.1.toNat % 2 ^ 3 * 2 ^ 13 + v.2.toNat % 2 ^ 13) := by
  have hflags := ((readsBits_serializeBits 8 0 3 (by norm_num) (by norm_num)).map
    UInt64.toUInt8).takesField
  have hfrag := ((readsBits_serializeBits 16 3 13 (by norm_num) (by norm_num)).map
    UInt64.toUInt16).takesField
  have hall : TakesField readFragment 0 (8 * 2) _ :=
    hflags.bind (n := 13) fun flags => TakesField.ensure
      (hfrag.bind (n := 0) fun frag => TakesField.pure (flags, frag) 0)
  refine hall.takes.mono ?_
  rintro bs v ⟨d, rfl, flags, ⟨hlt, rfl⟩, hreserved, frag, ⟨hlt', rfl⟩, rfl⟩
  rw [reserved_eq_zero, toUInt8_ofNat] at hreserved
  rw [toUInt8_ofNat, toUInt16_ofNat]
  refine ⟨⟨by omega, by omega⟩, ?_⟩
  congr 1
  omega

theorem takes_fields : Takes ReadStream.cursor readFields fun bs h =>
    h.Is4 ∧ h.Fits ∧ ∃ chksum, bs = h.bytesWith chksum := by
  refine (takes_version.bind fun _ => takes_byte.bind fun tos => takes_uint16.bind fun len =>
    takes_uint16.bind fun id => takes_fragment.bind fun fragment => takes_byte.bind fun ttl =>
      takes_byte.bind fun proto => takes_uint16.bind fun chksum =>
        IPAddress.takes_v4.bind fun src => IPAddress.takes_v4.bind_pure (g := fun dst =>
          (⟨fragment.1, tos, ttl, proto, len, id, fragment.2, src, dst⟩ : IPv4))).mono ?_
  rintro bs h ⟨_, u, _, rfl, rfl, _, tos, _, rfl, rfl, _, len, _, rfl, rfl, _, id, _, rfl, rfl,
    hrest⟩
  obtain ⟨_, fragment, _, rfl, ⟨hfits, rfl⟩, _, ttl, _, rfl, rfl, _, proto, _, rfl, rfl, hrest⟩ :=
    hrest
  obtain ⟨_, chksum, _, rfl, rfl, _, src, _, rfl, ⟨rfl, hsrc⟩, dst, ⟨rfl, hdst⟩, rfl⟩ := hrest
  refine ⟨⟨hsrc, hdst⟩, ⟨hfits.1, hfits.2⟩, chksum, ?_⟩
  simp only [bytesWith, front, addresses, List.append_assoc]

/-- An accepted header is that of its fields, with a checksum that verifies. -/
theorem takes_fits : Takes ReadStream.cursor read fun bs h =>
    h.Is4 ∧ h.Fits ∧ onesComplementChecksum bs 0 = 0xffff ∧ ∃ chksum, bs = h.bytesWith chksum := by
  intro pre post h s hrun
  obtain ⟨hdr, s', hlook, hrest⟩ := bind_eq_ok.mp hrun
  obtain ⟨hcheck, hfields⟩ := ensure_bind_eq_ok.mp hrest
  by_cases hshort : post.length < 20
  · rw [lookahead, if_neg (by simp), ReadStream.remaining_cursor, if_pos hshort] at hlook
    cases hlook
  -- the header that is checked is the one that is read
  · have hlen : (post.take 20).length = 20 := by
      rw [List.length_take]
      omega
    have hview := lookahead_some pre (post.take 20) (post.drop 20) 20 hlen
    rw [List.take_append_drop, hlook] at hview
    cases hview
    obtain ⟨bs, rest, rfl, rfl, h4, hfits, chksum, rfl⟩ := takes_fields pre post h s hfields
    rw [List.take_left' (length_bytesWith h4 chksum)] at hcheck
    exact ⟨_, rest, rfl, rfl, h4, hfits, eq_of_beq hcheck, chksum, rfl⟩

theorem takes : Takes ReadStream.cursor read fun bs h =>
    h.Is4 ∧ onesComplementChecksum bs 0 = 0xffff ∧ ∃ chksum, bs = h.bytesWith chksum :=
  takes_fits.mono fun _ _ h => ⟨h.1, h.2.2⟩

end IPv4

/-! ### IP version 6 -/

/-- IP version 6. -/
structure IPv6 where
  tc : UInt8 := 0
  hlim : UInt8 := 64
  nh : IPProto := IPProto.udp
  plen : UInt16 := 0
  fl : UInt32 := 0
  src : IPAddress := .v6 0 0 ""
  dst : IPAddress := .v6 0 0 ""
  deriving DecidableEq, Repr

namespace IPv6

def version : UInt8 := 6

/-- The pseudo header checksum for higher-level protocols. -/
def checksum (h : IPv6) (length : UInt16) : UInt32 :=
  h.src.checksum + h.dst.checksum + length.toUInt32 + h.nh.toUInt32

def size (_ : IPv6) : ℕ := 40

/-- Version, traffic class and flow label. -/
def readVersion : Reader (UInt8 × UInt32) := do
  let ver ← UInt64.toUInt8 <$> ReadStream.serializeBits 8 4
  ensure (ver == version) "invalid IP version"
  let tc ← ReadStream.serializeByte
  let fl ← UInt64.toUInt32 <$> ReadStream.serializeBits 32 20
  pure (tc, fl)

def read : Reader IPv6 := do
  let label ← readVersion
  let plen ← ReadStream.serializeUint16
  let nh ← ReadStream.serializeByte
  let hlim ← ReadStream.serializeByte
  let src ← IPAddress.read false
  let dst ← IPAddress.read false
  pure ⟨label.1, hlim, nh, plen, label.2, src, dst⟩

def writeVersion (h : IPv6) : Writer := do
  WriteStream.serializeBits 8 version.toUInt64 4
  WriteStream.serializeByte h.tc
  WriteStream.serializeBits 32 h.fl.toUInt64 20

def write (h : IPv6) : Writer := do
  h.writeVersion
  WriteStream.serializeUint16 h.plen
  WriteStream.serializeByte h.nh
  WriteStream.serializeByte h.hlim
  h.src.write false
  h.dst.write false

def bytes (h : IPv6) : List UInt8 :=
  beBytes 4 (classWord 6 h.tc h.fl) ++ (beBytes 2 h.plen.toNat ++ ([h.nh] ++ ([h.hlim] ++
    (h.src.bytes ++ h.dst.bytes))))

/-- Both addresses are of IP version 6. -/
def Is6 (h : IPv6) : Prop := h.src.is4 = false ∧ h.dst.is4 = false

theorem length_bytes {h : IPv6} (h6 : h.Is6) : h.bytes.length = 40 := by
  simp only [bytes, List.length_append, length_beBytes, List.length_singleton,
    IPAddress.length_bytes, IPAddress.size, h6.1, h6.2, Bool.false_eq_true, if_false]

theorem writes_version (h : IPv6) :
    Writes WriteStream.cursor h.writeVersion (beBytes 4 (classWord 6 h.tc h.fl)) := by
  have hver := writesBits_serializeBits 8 0 4 version.toUInt64 (by norm_num) (by norm_num)
  have htc := writesBits_byte 4 h.tc (by norm_num)
  have hfl := writesBits_serializeBits 32 4 20 h.fl.toUInt64 (by norm_num) (by norm_num)
  have hall := hver.bind (htc.bind hfl)
  have hword : version.toUInt64.toNat % 2 ^ 4 * 2 ^ (8 + 20)
      + (h.tc.toNat * 2 ^ 20 + h.fl.toUInt64.toNat % 2 ^ 20) = classWord 6 h.tc h.fl := by
    rw [show version.toUInt64.toNat = 6 from rfl, UInt32.toNat_toUInt64, classWord]
    omega
  rw [hword] at hall
  exact WritesBits.writes (m := 4) hall

theorem writes_address {ip : IPAddress} (h6 : ip.is4 = false) :
    Writes WriteStream.cursor (ip.write false) ip.bytes := by
  have h := ip.writes
  rwa [h6] at h

theorem writes {h : IPv6} (h6 : h.Is6) : Writes WriteStream.cursor h.write h.bytes :=
  h.writes_version.bind ((writes_uint16 h.plen).bind ((writes_byte h.nh).bind
    ((writes_byte h.hlim).bind ((writes_address h6.1).bind (writes_address h6.2)))))

theorem refuses {h : IPv6} (h6 : ¬h.Is6) : Refuses WriteStream.cursor h.write [] := by
  refine h.writes_version.bind_refuses ((writes_uint16 h.plen).bind_refuses ((writes_byte
    h.nh).bind_refuses ((writes_byte h.hlim).bind_refuses ?_)))
  cases hsrc : h.src.is4 with
  | true => exact (IPv4.refuses_address hsrc).bind _
  | false =>
    have hdst : h.dst.is4 = true := by
      rw [Is6, hsrc] at h6
      simpa using h6
    exact (writes_address hsrc).bind_refuses (IPv4.refuses_address hdst)

theorem takes_version : Takes ReadStream.cursor readVersion fun bs v =>
    bs = beBytes 4 (classWord 6 v.1 v.2) := by
  have hver := ((readsBits_serializeBits 8 0 4 (by norm_num) (by norm_num)).map
    UInt64.toUInt8).takesField
  have htc := (readsBits_byte 4 (by norm_num)).takesField
  have hfl := ((readsBits_serializeBits 32 4 20 (by norm_num) (by norm_num)).map
    UInt64.toUInt32).takesField
  have hall : TakesField readVersion 0 (8 * 4) _ :=
    hver.bind (n := 28) fun ver => TakesField.ensure (htc.bind (n := 20) fun tc =>
      hfl.bind (n := 0) fun fl => TakesField.pure (tc, fl) 0)
  refine hall.takes.mono ?_
  rintro bs v ⟨d, rfl, ver, ⟨hlt, rfl⟩, hver, tc, ⟨hlt', rfl⟩, fl, ⟨hlt'', rfl⟩, rfl⟩
  have hsix := congrArg UInt8.toNat (eq_of_beq hver)
  rw [toUInt8_ofNat, show version.toNat = 6 from rfl] at hsix
  rw [classWord, toUInt8_ofNat, UInt64.toNat_toUInt32, UInt64.toNat_ofNat']
  congr 1
  omega

/-- An accepted header is that of its fields. -/
theorem takes : Takes ReadStream.cursor read fun bs h => h.Is6 ∧ bs = h.bytes := by
  refine (takes_version.bind fun label => takes_uint16.bind fun plen => takes_byte.bind fun nh =>
    takes_byte.bind fun hlim => (IPAddress.takes_v6).bind fun src =>
      (IPAddress.takes_v6).bind_pure (g := fun dst =>
        (⟨label.1, hlim, nh, plen, label.2, src, dst⟩ : IPv6))).mono ?_
  rintro bs h ⟨_, label, _, rfl, rfl, _, plen, _, rfl, rfl, _, nh, _, rfl, rfl, _, hlim, _, rfl,
    rfl, _, src, _, rfl, ⟨rfl, hsrc⟩, dst, ⟨rfl, hdst⟩, rfl⟩
  exact ⟨⟨hsrc, hdst⟩, rfl⟩

end IPv6

/-! ### ICMP for IPv6 -/

/-- Message types. The field can hold other values after a read. -/
abbrev ICMPv6Type := UInt8

namespace ICMPv6Type

def dstUnreachable : ICMPv6Type := 1
def packetTooBig : ICMPv6Type := 2
def timeExceeded : ICMPv6Type := 3
def paramProblem : ICMPv6Type := 4
def echoRequest : ICMPv6Type := 128
def echoReply : ICMPv6Type := 129

end ICMPv6Type

structure ICMPv6 where
  type : ICMPv6Type := ICMPv6Type.echoRequest
  code : UInt8 := 0
  chksum : UInt16 := 0
  param1 : UInt16 := 0
  param2 : UInt16 := 0
  deriving DecidableEq, Repr

namespace ICMPv6

/-- Takes the current value of the chksum field into account. -/
def checksum (h : ICMPv6) : UInt32 :=
  (h.type.toUInt32 <<< 8) + h.code.toUInt32 + h.chksum.toUInt32 + h.param1.toUInt32
    + h.param2.toUInt32

def size (_ : ICMPv6) : ℕ := 8

/-- This header's contribution to the flow label. -/
def flowLabel (_ : ICMPv6) : UInt32 := 0

def read : Reader ICMPv6 := do
  let type ← ReadStream.serializeByte
  let code ← ReadStream.serializeByte
  let chksum ← ReadStream.serializeUint16
  let param1 ← ReadStream.serializeUint16
  let param2 ← ReadStream.serializeUint16
  pure ⟨type, code, chksum, param1, param2⟩

def write (h : ICMPv6) : Writer := do
  WriteStream.serializeByte h.type
  WriteStream.serializeByte h.code
  WriteStream.serializeUint16 h.chksum
  WriteStream.serializeUint16 h.param1
  WriteStream.serializeUint16 h.param2

def bytes (h : ICMPv6) : List UInt8 :=
  [h.type] ++ ([h.code] ++ (beBytes 2 h.chksum.toNat ++ (beBytes 2 h.param1.toNat ++
    beBytes 2 h.param2.toNat)))

@[simp] theorem length_bytes (h : ICMPv6) : h.bytes.length = 8 := by simp [bytes]

theorem writes (h : ICMPv6) : Writes WriteStream.cursor h.write h.bytes :=
  (writes_byte h.type).bind ((writes_byte h.code).bind ((writes_uint16 h.chksum).bind
    ((writes_uint16 h.param1).bind (writes_uint16 h.param2))))

theorem takes : Takes ReadStream.cursor read fun bs h => bs = h.bytes := by
  refine (takes_byte.bind fun type => takes_byte.bind fun code => takes_uint16.bind fun chksum =>
    takes_uint16.bind fun param1 => takes_uint16.bind_pure (g := fun param2 =>
      (⟨type, code, chksum, param1, param2⟩ : ICMPv6))).mono ?_
  rintro bs h ⟨_, type, _, rfl, rfl, _, code, _, rfl, rfl, _, chksum, _, rfl, rfl, _, param1, _,
    rfl, rfl, param2, rfl, rfl⟩
  rfl

end ICMPv6

end Scion
