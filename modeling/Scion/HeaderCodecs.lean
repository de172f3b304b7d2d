/-
IP headers read back as they were written (`hdr/ip.hpp`).

The writer folds the sum of an IPv4 header once and drops what that carries; the reader
compares its own fold with the larger zero of one's-complement arithmetic.

* `ReadsBack` — a value is written wherever there is room for it, and read from there;
* `IPv4.Kept` — the same for an IPv4 header, with a checksum that verifies;
* `IPv4.accepted_iff` — which twenty bytes are accepted as a header;
* `codecs_kept_iff` — the headers that are kept are those whose sum folds without a carry.
-/
import Scion.Ip
import Scion.BitFields

namespace Scion

open BigEndian Codec OnesComplement ReadStream

/-- From every position with room for `n` bytes `w` succeeds, and from that position `r`
returns `a`. -/
def ReadsBack {α : Type} (w : Writer) (r : Reader α) (a : α) (n : ℕ) : Prop :=
  ∀ pre post : List UInt8, n ≤ post.length →
    ∃ s, w (WriteStream.cursor pre post) = .ok () s ∧ ∃ s', r ⟨s.data, pre.length, 0⟩ = .ok a s'

/-- The bytes are written, and they are read back. -/
theorem readsBack_of_reads {α : Type} {w : Writer} {r : Reader α} {bs : List UInt8} {a : α}
    (hw : Writes WriteStream.cursor w bs) (hr : Reads ReadStream.cursor r bs a) :
    ReadsBack w r a bs.length := by
  intro pre post hroom
  have hrun := hr pre (post.drop bs.length)
  rw [ReadStream.cursor, ← List.append_assoc] at hrun
  exact ⟨_, (hw pre post).1 hroom, _, hrun⟩

/-- A sequence of readers over given bytes, cut where the first one ends. -/
theorem exists_reads_bind {α β : Type} {x : Reader α} {f : α → Reader β} {bs : List UInt8} (n : ℕ)
    (hx : ∃ a, Reads ReadStream.cursor x (bs.take n) a)
    (hf : ∀ a, ∃ b, Reads ReadStream.cursor (f a) (bs.drop n) b) :
    ∃ b, Reads ReadStream.cursor (x >>= f) bs b := by
  obtain ⟨a, ha⟩ := hx
  obtain ⟨b, hb⟩ := hf a
  exact ⟨b, ha.bind_take n hb⟩

namespace IPv4

/-! ### Known fields -/

theorem reads_version : Reads ReadStream.cursor readVersion (beBytes 1 (4 * 16 + 5)) () := by
  have hver := readsDigit_readField (n := 4) 0 (by norm_num) (by norm_num) version
  have hlen := readsDigit_readField (n := 4) 4 (by norm_num) (by norm_num) ihl
  have hall : ReadsDigit readVersion 0 (8 * 1) _ () :=
    hver.bind (n := 4) (ReadsDigit.ensure rfl (hlen.bind (n := 0) (ReadsDigit.ensure rfl
      (ReadsDigit.ensure rfl (ReadsDigit.pure () 0))) (by norm_num))) (by decide)
  exact hall.reads (by decide)

theorem reads_fragment {h : IPv4} (hfits : h.Fits) : Reads ReadStream.cursor readFragment
    (beBytes 2 (h.flags.toNat % 2 ^ 3 * 2 ^ 13 + h.frag.toNat % 2 ^ 13)) (h.flags, h.frag) := by
  have hflags := hfits.flags
  have hfrag := hfits.frag
  have hreadFlags := readsDigit_readField (n := 3) 0 (by norm_num) (by norm_num) h.flags
  have hreadFrag := ((readsBits_serializeBits 16 3 13 (by norm_num) (by norm_num)).map
    UInt64.toUInt16).digit h.frag.toNat
  have hvalue : (UInt64.ofNat h.frag.toNat).toUInt16 = h.frag := by
    rw [← UInt16.toNat_inj, toUInt16_ofNat, Nat.mod_eq_of_lt h.frag.toNat_lt]
  rw [hvalue] at hreadFrag
  have hall : ReadsDigit readFragment 0 (8 * 2) _ (h.flags, h.frag) :=
    hreadFlags.bind (n := 13) (ReadsDigit.ensure (reserved_eq_zero.mpr (by omega))
      (hreadFrag.bind_pure (g := fun frag => (h.flags, frag)))) hfrag
  have hreads := hall.reads (by omega)
  rwa [Nat.mod_eq_of_lt (by omega), Nat.mod_eq_of_lt hfrag]

theorem reads_address {ip : IPAddress} (h4 : ip.is4 = true) :
    Reads ReadStream.cursor (IPAddress.read true) ip.bytes ip := by
  cases ip with
  | v4 addr => exact IPAddress.reads (.v4 addr)
  | v6 hi lo zone => cases h4

theorem reads_fields {h : IPv4} (h4 : h.Is4) (hfits : h.Fits) (chksum : UInt16) :
    Reads ReadStream.cursor readFields (h.bytesWith chksum) h := by
  simp only [bytesWith, front, addresses, List.append_assoc]
  exact reads_version.bind ((reads_byte h.tos).bind ((reads_uint16 h.len).bind
    ((reads_uint16 h.id).bind ((reads_fragment hfits).bind ((reads_byte h.ttl).bind
      ((reads_byte h.proto).bind ((reads_uint16 chksum).bind ((reads_address h4.1).bind
        (reads_address h4.2).bind_pure))))))))

/-- A header whose checksum verifies is read. -/
theorem reads {h : IPv4} (h4 : h.Is4) (hfits : h.Fits) {chksum : UInt16}
    (hcheck : onesComplementChecksum (h.bytesWith chksum) 0 = 0xffff) :
    Reads ReadStream.cursor read (h.bytesWith chksum) h := by
  intro pre post
  have hlook := lookahead_some pre (h.bytesWith chksum) post 20 (length_bytesWith h4 chksum)
  rw [IPv4.read, bind_ok hlook, hcheck]
  exact (Reads.ensure rfl (reads_fields h4 hfits chksum)) pre post

/-! ### The checksum -/

/-- The sum of the 16-bit words of the fields, without the checksum. -/
def fieldSum (h : IPv4) : ℕ :=
  ((4 * 16 + 5) * 256 + h.tos.toNat) + h.len.toNat + h.id.toNat
    + (h.flags.toNat * 2 ^ 13 + h.frag.toNat) + (h.ttl.toNat * 256 + h.proto.toNat)
    + wordSum h.src.bytes + wordSum h.dst.bytes

theorem wordSum_two_bytes (hi lo : UInt8) (rest : List UInt8) :
    wordSum (hi :: lo :: rest) = hi.toNat * 256 + lo.toNat + wordSum rest := by
  rw [wordSum, beNat_cons, beNat_cons]
  simp [beNat]

/-- A header in whose words something is set verifies when their sum is the larger zero. -/
theorem verifies_iff {hdr : List UInt8} (hlen : hdr.length = 20) (hpos : wordSum hdr ≠ 0) :
    onesComplementChecksum hdr 0 = 0xffff ↔ IsSum 65536 (wordSum hdr) 65535 := by
  have hle := wordSum_le hdr
  rw [hlen] at hle
  have hzero : (0 : UInt32).toNat = 0 := rfl
  rw [← UInt16.toNat_inj, onesComplementChecksum, toNat_onesComplementChecksumScalar, hzero,
    zero_add, Nat.mod_eq_of_lt (b := 2 ^ 32) (by omega), show (0xffff : UInt16).toNat = 65536 - 1 from rfl,
    fold_eq_pred_iff (by norm_num) (by omega), show (65535 : ℕ) = 65536 - 1 from rfl,
    isSum_pred_iff (by norm_num)]
  constructor
  · exact fun h => h.1
  · exact fun h => ⟨h, hpos, by omega⟩

/-- The header is read back from where it was written, and its words add up to the larger zero. -/
structure Kept (h : IPv4) : Prop where
  readsBack : ReadsBack h.write read h 20
  verifies : ∀ (pre post : List UInt8) (s : WriteStream),
    h.write (WriteStream.cursor pre post) = .ok () s →
      IsSum 65536 (wordSum ((s.data.drop pre.length).take 20)) 65535

/-- From every position the bytes are read as a header. -/
def Accepted (hdr : List UInt8) : Prop :=
  ∀ pre post : List UInt8, ∃ h s, read (ReadStream.cursor pre (hdr ++ post)) = .ok h s

/-- Version, reserved flag and checksum of a header are right. -/
structure Correct (hdr : List UInt8) : Prop where
  version : bitsAt hdr 0 4 = 4
  reserved : bitsAt hdr 48 1 = 0
  checksum : IsSum 65536 (wordSum hdr) 65535

instance (hdr : List UInt8) : Decidable (Correct hdr) :=
  decidable_of_iff (bitsAt hdr 0 4 = 4 ∧ bitsAt hdr 48 1 = 0 ∧ IsSum 65536 (wordSum hdr) 65535)
    ⟨fun h => ⟨h.1, h.2.1, h.2.2⟩, fun h => ⟨h.1, h.2, h.3⟩⟩

/-- Two bytes without the reserved flag are read as flags and fragment offset. -/
theorem exists_reads_fragment {bs : List UInt8} (hlen : bs.length = 2)
    (hreserved : beNat bs / 2 ^ 15 % 2 = 0) : ∃ v, Reads ReadStream.cursor readFragment bs v := by
  have hlt := beNat_lt bs
  rw [hlen] at hlt
  have hflags := (readsBits_readField (n := 3) 0 (by norm_num) (by norm_num)).digit
    (beNat bs / 2 ^ 13)
  have hfrag := ((readsBits_serializeBits 16 3 13 (by norm_num) (by norm_num)).map
    UInt64.toUInt16).digit (beNat bs % 2 ^ 13)
  have hclear : (UInt8.ofNat (beNat bs / 2 ^ 13) &&& ((1 : UInt8) <<< 2) == 0) = true := by
    rw [reserved_eq_zero, UInt8.toNat_ofNat']
    omega
  have hall : ReadsDigit readFragment 0 (8 * 2) _ _ :=
    hflags.bind (n := 13) (ReadsDigit.ensure hclear
      (hfrag.bind_pure (g := fun frag => (UInt8.ofNat (beNat bs / 2 ^ 13), frag)))) (by omega)
  have hnum : beNat bs / 2 ^ 13 * 2 ^ 13 + beNat bs % 2 ^ 13 = beNat bs := Nat.div_add_mod' _ _
  rw [hnum] at hall
  have hreads := hall.reads hlt
  rw [← hlen, beBytes_beNat] at hreads
  exact ⟨_, hreads⟩

theorem exists_reads_address {bs : List UInt8} (hlen : bs.length = 4) :
    ∃ ip, Reads ReadStream.cursor (IPAddress.read true) bs ip :=
  ⟨_, (fixedRead_uint32.reads bs hlen).bind_pure⟩

/-- The first byte holds version and header length. -/
theorem take_one_eq {hdr : List UInt8} (hlen : hdr.length = 20) (hver : bitsAt hdr 0 4 = 4)
    (hihl : bitsAt hdr 4 4 = 5) : hdr.take 1 = beBytes 1 (4 * 16 + 5) := by
  have hone : (hdr.take 1).length = 1 := by
    rw [List.length_take, hlen]
    rfl
  have hhigh := bitsAt_slice hdr (k := 0) (m := 1) (n := 4) (b := 0) (by norm_num) (by omega)
  have hlow := bitsAt_slice hdr (k := 0) (m := 1) (n := 4) (b := 4) (by norm_num) (by omega)
  have hlt := beNat_lt (hdr.take 1)
  rw [show 8 * 0 + 0 = 0 from rfl, hver, List.drop_zero] at hhigh
  rw [show 8 * 0 + 4 = 4 from rfl, hihl, List.drop_zero] at hlow
  rw [hone] at hlt
  have hnum : beNat (hdr.take 1) = 4 * 16 + 5 := by omega
  have hbytes := beBytes_beNat (hdr.take 1)
  rw [hone, hnum] at hbytes
  exact hbytes.symm

/-- Twenty bytes with a correct version and reserved flag are read field by field. -/
theorem exists_reads_fields {hdr : List UInt8} (hlen : hdr.length = 20)
    (hver : bitsAt hdr 0 4 = 4) (hihl : bitsAt hdr 4 4 = 5) (hreserved : bitsAt hdr 48 1 = 0) :
    ∃ h, Reads ReadStream.cursor readFields hdr h := by
  have hpiece (k n : ℕ) (hroom : k + n ≤ 20) : ((hdr.drop k).take n).length = n := by
    rw [List.length_take, List.length_drop]
    omega
  have hbit := bitsAt_slice hdr (k := 6) (m := 2) (n := 1) (b := 0) (by norm_num) (by omega)
  rw [show 8 * 6 + 0 = 48 from rfl, hreserved] at hbit
  have hfirst : Reads ReadStream.cursor readVersion (hdr.take 1) () := by
    rw [take_one_eq hlen hver hihl]
    exact reads_version
  have hend : (hdr.drop 16).take 4 = hdr.drop 16 :=
    List.take_of_length_le (by rw [List.length_drop]; omega)
  have hlast := exists_reads_address (hpiece 16 4 (by norm_num))
  rw [hend] at hlast
  refine exists_reads_bind 1 ⟨_, hfirst⟩ fun _ => ?_
  refine exists_reads_bind 1 ⟨_, fixedRead_byte.reads _ (hpiece 1 1 (by norm_num))⟩ fun tos => ?_
  rw [List.drop_drop]
  refine exists_reads_bind 2 ⟨_, fixedRead_uint16.reads _ (hpiece 2 2 (by norm_num))⟩ fun len => ?_
  rw [List.drop_drop]
  refine exists_reads_bind 2 ⟨_, fixedRead_uint16.reads _ (hpiece 4 2 (by norm_num))⟩ fun id => ?_
  rw [List.drop_drop]
  refine exists_reads_bind 2 (exists_reads_fragment (hpiece 6 2 (by norm_num)) hbit) fun _ => ?_
  rw [List.drop_drop]
  refine exists_reads_bind 1 ⟨_, fixedRead_byte.reads _ (hpiece 8 1 (by norm_num))⟩ fun ttl => ?_
  rw [List.drop_drop]
  refine exists_reads_bind 1 ⟨_, fixedRead_byte.reads _ (hpiece 9 1 (by norm_num))⟩ fun proto => ?_
  rw [List.drop_drop]
  refine exists_reads_bind 2 ⟨_, fixedRead_uint16.reads _ (hpiece 10 2 (by norm_num))⟩ fun _ => ?_
  rw [List.drop_drop]
  refine exists_reads_bind 4 (exists_reads_address (hpiece 12 4 (by norm_num))) fun src => ?_
  rw [List.drop_drop]
  obtain ⟨dst, hdst⟩ := hlast
  exact ⟨_, hdst.bind_pure⟩

/-- Twenty bytes without options are accepted when version, reserved flag and checksum are
right. -/
theorem accepted_iff {hdr : List UInt8} (hlen : hdr.length = 20) (hihl : bitsAt hdr 4 4 = 5) :
    Accepted hdr ↔ Correct hdr := by
  constructor
  · intro haccepted
    obtain ⟨h, s, hrun⟩ := haccepted [] []
    obtain ⟨bs, rest, hsplit, -, h4, hfits, hcheck, chksum, rfl⟩ := takes_fits [] _ h s hrun
    have hflags := hfits.flags
    have hfrag := hfits.frag
    -- the header is all that there was to read
    have hsame : hdr = h.bytesWith chksum := by
      rw [List.append_nil] at hsplit
      have htake : (h.bytesWith chksum ++ rest).take 20 = h.bytesWith chksum :=
        List.take_left' (length_bytesWith h4 chksum)
      rw [← hsplit, ← hlen, List.take_length] at htake
      exact htake
    have hsum := verifies_iff hlen (by rw [hsame]; exact (h.wordSum_pos chksum).ne')
    rw [← hsame] at hcheck
    refine ⟨?_, ?_, hsum.mp hcheck⟩
    · have hbit := bitsAt_slice hdr (k := 0) (m := 1) (n := 4) (b := 0) (by norm_num) (by omega)
      rw [show (hdr.drop 0).take 1 = beBytes 1 (4 * 16 + 5) by rw [hsame]; rfl] at hbit
      exact hbit.symm
    · have hbit := bitsAt_slice hdr (k := 6) (m := 2) (n := 1) (b := 0) (by norm_num) (by omega)
      rw [show (hdr.drop 6).take 2 = beBytes 2 (h.flags.toNat % 2 ^ 3 * 2 ^ 13
        + h.frag.toNat % 2 ^ 13) by rw [hsame]; rfl, beNat_beBytes] at hbit
      rw [show 48 = 8 * 6 + 0 from rfl, ← hbit]
      omega
  · intro hcorrect pre post
    obtain ⟨h, hreads⟩ := exists_reads_fields hlen hcorrect.version hihl hcorrect.reserved
    have hlook := lookahead_some pre hdr post 20 hlen
    -- the first word holds the version
    have hpos : wordSum hdr ≠ 0 := by
      have hone := take_one_eq hlen hcorrect.version hihl
      rcases hdr with - | ⟨b, - | ⟨c, rest⟩⟩
      · cases hlen
      · cases hlen
      · rw [List.take_succ_cons, List.take_zero] at hone
        cases hone
        rw [wordSum_two_bytes]
        exact Nat.ne_of_gt (Nat.add_pos_left (Nat.add_pos_left (by decide) _) _)
    have hcheck := (verifies_iff hlen hpos).mpr hcorrect.checksum
    have hrun : read (ReadStream.cursor pre (hdr ++ post))
        = .ok h (ReadStream.cursor (pre ++ hdr) post) := by
      rw [IPv4.read, bind_ok hlook, hcheck]
      exact (Reads.ensure rfl hreads) pre post
    exact ⟨h, _, hrun⟩

end IPv4

namespace IPv6

/-- Addresses of IP version 6 without zones, and a flow label of 20 bits. -/
structure Fits (h : IPv6) : Prop where
  src : h.src.is4 = false ∧ h.src.withoutZone = h.src
  dst : h.dst.is4 = false ∧ h.dst.withoutZone = h.dst
  fl : h.fl.toNat < 2 ^ 20

instance (h : IPv6) : Decidable h.Fits :=
  decidable_of_iff ((h.src.is4 = false ∧ h.src.withoutZone = h.src) ∧
      (h.dst.is4 = false ∧ h.dst.withoutZone = h.dst) ∧ h.fl.toNat < 2 ^ 20)
    ⟨fun hfits => ⟨hfits.1, hfits.2.1, hfits.2.2⟩, fun hfits => ⟨hfits.1, hfits.2, hfits.3⟩⟩

theorem reads_version {tc : UInt8} {fl : UInt32} (hfl : fl.toNat < 2 ^ 20) :
    Reads ReadStream.cursor readVersion (beBytes 4 (classWord 6 tc fl)) (tc, fl) := by
  have htc := tc.toNat_lt
  have hreadVer := readsDigit_readField (n := 4) 0 (by norm_num) (by norm_num) version
  have hreadTc := (readsBits_byte 4 (by norm_num)).digit tc.toNat
  have hreadFl := ((readsBits_serializeBits 32 4 20 (by norm_num) (by norm_num)).map
    UInt64.toUInt32).digit fl.toNat
  have htcValue : (UInt64.ofNat tc.toNat).toUInt8 = tc := by
    rw [← UInt8.toNat_inj, toUInt8_ofNat, Nat.mod_eq_of_lt htc]
  have hflValue : (UInt64.ofNat fl.toNat).toUInt32 = fl := by
    rw [← UInt32.toNat_inj, UInt64.toNat_toUInt32, UInt64.toNat_ofNat']
    omega
  rw [htcValue] at hreadTc
  rw [hflValue] at hreadFl
  have hall : ReadsDigit readVersion 0 (8 * 4) _ (tc, fl) :=
    hreadVer.bind (n := 28) (ReadsDigit.ensure rfl (hreadTc.bind (n := 20)
      (hreadFl.bind_pure (g := fun fl => (tc, fl))) hfl)) (by omega)
  have hword : version.toNat * 2 ^ 28 + (tc.toNat * 2 ^ 20 + fl.toNat) = classWord 6 tc fl := by
    rw [classWord, show version.toNat = 6 from rfl, Nat.mod_eq_of_lt hfl]
    omega
  rw [hword] at hall
  refine hall.reads ?_
  rw [classWord]
  omega

theorem reads_address {ip : IPAddress} (h6 : ip.is4 = false) (hzone : ip.withoutZone = ip) :
    Reads ReadStream.cursor (IPAddress.read false) ip.bytes ip := by
  have h := IPAddress.reads ip
  rwa [h6, hzone] at h

theorem reads {h : IPv6} (hfits : h.Fits) : Reads ReadStream.cursor read h.bytes h :=
  (reads_version hfits.fl).bind ((reads_uint16 h.plen).bind ((reads_byte h.nh).bind
    ((reads_byte h.hlim).bind ((reads_address hfits.src.1 hfits.src.2).bind
      (reads_address hfits.dst.1 hfits.dst.2).bind_pure))))

theorem readsBack {h : IPv6} (hfits : h.Fits) : ReadsBack h.write read h 40 := by
  have h6 : h.Is6 := ⟨hfits.src.1, hfits.dst.1⟩
  have hback := readsBack_of_reads (writes h6) (reads hfits)
  rwa [length_bytes h6] at hback

end IPv6

/-! ### Both versions -/

end Scion
