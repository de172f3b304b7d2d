/-
Word sums of headers (`addr/isd_asn.hpp`, `addr/generic_ip.hpp`, `hdr/ip.hpp`, `hdr/udp.hpp`,
`hdr/scmp.hpp`).

Every header adds up its own fields. The sums are compared with those of the words on
the wire.

* `IsdAsn.highWords` — what an ISD-ASN adds beyond its words, as it is summed in halves;
* `checksum_eq` of the addresses, pseudo headers, messages and transport headers — the sum
  of the words, with these;
* `wordSum_keep_add` — the words are the sum of what is kept and what is not.
-/
import Scion.Ip
import Scion.PacketLayout

namespace Scion

open BigEndian Codec

/-- Bytes that are kept and bytes that are not. -/
theorem wordSum_keep_add {flags : List Bool} {bs : List UInt8} (h : flags.length = bs.length) :
    wordSum (keep flags bs) + wordSum (keep (flags.map (!·)) bs) = wordSum bs := by
  induction bs using wordSum.induct generalizing flags with
  | case1 =>
    rw [List.length_nil, List.length_eq_zero_iff] at h
    rw [h]
    rfl
  | case2 last =>
    obtain ⟨f, rfl⟩ := List.length_eq_one_iff.mp h
    cases f <;> simp [keep, wordSum]
  | case3 hi lo rest ih =>
    obtain ⟨f₁, flags, rfl⟩ := List.exists_cons_of_length_eq_add_one h
    obtain ⟨f₂, flags, rfl⟩ := List.exists_cons_of_length_eq_add_one (Nat.succ.inj h)
    have hrest := @ih flags (by simpa using h)
    -- a word is two bytes, and each is on one of the two sides
    rw [keep, keep] at hrest
    cases f₁ <;> cases f₂ <;> simp [keep, wordSum, beNat] <;> omega

/-- A number is of the words `w₃` to `w₀`. -/
structure IsWords (n w₃ w₂ w₁ w₀ : ℕ) : Prop where
  lt₃ : w₃ < 2 ^ 16
  lt₂ : w₂ < 2 ^ 16
  lt₁ : w₁ < 2 ^ 16
  lt₀ : w₀ < 2 ^ 16
  div₃ : n / 2 ^ 48 = w₃
  div₂ : n / 2 ^ 32 = w₃ * 2 ^ 16 + w₂
  div₁ : n / 2 ^ 16 % 2 ^ 16 = w₁
  mod₁ : n % 2 ^ 32 = w₁ * 2 ^ 16 + w₀
  mod₀ : n % 2 ^ 16 = w₀

theorem exists_isWords {n : ℕ} (h : n < 2 ^ 64) : ∃ w₃ w₂ w₁ w₀, IsWords n w₃ w₂ w₁ w₀ := by
  obtain ⟨high, low, hhigh, hlow, rfl⟩ : ∃ high low, high < 2 ^ 32 ∧ low < 2 ^ 32 ∧
      n = high * 2 ^ 32 + low := ⟨n / 2 ^ 32, n % 2 ^ 32, by omega, by omega, by omega⟩
  refine ⟨high / 2 ^ 16, high % 2 ^ 16, low / 2 ^ 16, low % 2 ^ 16, ?_, ?_, ?_, ?_, ?_, ?_, ?_, ?_,
    ?_⟩ <;> omega

theorem IsWords.words {n w₃ w₂ w₁ w₀ : ℕ} (h : IsWords n w₃ w₂ w₁ w₀) :
    n / 2 ^ (16 * 0) % 2 ^ 16 = w₀ ∧ n / 2 ^ (16 * 1) % 2 ^ 16 = w₁ ∧
      n / 2 ^ (16 * 2) % 2 ^ 16 = w₂ ∧ n / 2 ^ (16 * 3) % 2 ^ 16 = w₃ := by
  obtain ⟨h₃, h₂, h₁, h₀, hdiv₃, hdiv₂, hdiv₁, hmod₁, hmod₀⟩ := h
  refine ⟨by rwa [mul_zero, pow_zero, Nat.div_one], by rwa [mul_one], ?_, ?_⟩
  · rw [show 16 * 2 = 32 from rfl, hdiv₂]
    omega
  · rw [show 16 * 3 = 48 from rfl, hdiv₃]
    omega

theorem wordSum_beBytes_eight {n w₃ w₂ w₁ w₀ : ℕ} (h : IsWords n w₃ w₂ w₁ w₀) :
    wordSum (beBytes 8 n) = w₃ + w₂ + w₁ + w₀ := by
  obtain ⟨h₃, h₂, h₁, h₀, hdiv₃, hdiv₂, hdiv₁, hmod₁, hmod₀⟩ := h
  rw [wordSum_beBytes_add 1 6, wordSum_beBytes_add 1 4, wordSum_beBytes_add 1 2]
  simp only [mul_one, wordSum_beBytes_two]
  omega

theorem wordSum_beBytes_four (n : ℕ) (h : n < 2 ^ 32) :
    wordSum (beBytes 4 n) = n / 2 ^ 16 + n % 2 ^ 16 := by
  rw [wordSum_beBytes_add 1 2]
  simp only [mul_one, wordSum_beBytes_two]
  omega

theorem toUInt32_eq_ofNat (n : UInt16) : n.toUInt32 = UInt32.ofNat n.toNat := by
  rw [← UInt32.toNat_inj, UInt16.toNat_toUInt32, UInt32.toNat_ofNat']
  have h := n.toNat_lt
  omega

/-- A word of a 64-bit number. -/
theorem toNat_word (v : UInt64) {k : ℕ} (h : k < 4) :
    ((v >>> UInt64.ofNat (16 * k)) &&& 0xffff).toNat = v.toNat / 2 ^ (16 * k) % 2 ^ 16 := by
  have hshift : (UInt64.ofNat (16 * k)).toNat % 64 = 16 * k := by
    rw [UInt64.toNat_ofNat']
    omega
  rw [UInt64.toNat_and, UInt64.toNat_shiftRight, hshift, Nat.shiftRight_eq_div_pow,
    show (0xffff : UInt64).toNat = 2 ^ 16 - 1 from rfl, Nat.and_two_pow_sub_one_eq_mod]

theorem toUInt32_word (v : UInt64) {k : ℕ} (h : k < 4) :
    ((v >>> UInt64.ofNat (16 * k)) &&& 0xffff).toUInt32
      = UInt32.ofNat (v.toNat / 2 ^ (16 * k) % 2 ^ 16) := by
  rw [← UInt32.toNat_inj, UInt64.toNat_toUInt32, toNat_word v h, UInt32.toNat_ofNat']

/-! ### Addresses -/

namespace IsdAsn

/-- The higher word of either half. -/
def highWords (a : IsdAsn) : ℕ := a.ia.toNat / 2 ^ 48 + a.ia.toNat / 2 ^ 16 % 2 ^ 16

/-- The halves are summed, not the words, so that the higher words count 65536 times. -/
theorem checksum_eq (a : IsdAsn) :
    a.checksum = UInt32.ofNat (wordSum a.bytes + 65535 * a.highWords) := by
  obtain ⟨w₃, w₂, w₁, w₀, hwords⟩ := exists_isWords a.ia.toNat_lt
  have hlow : (a.ia &&& 0xffffffff).toNat = a.ia.toNat % 2 ^ 32 := by
    rw [UInt64.toNat_and, show (0xffffffff : UInt64).toNat = 2 ^ 32 - 1 from rfl,
      Nat.and_two_pow_sub_one_eq_mod]
  have hhigh : (a.ia >>> 32).toNat = a.ia.toNat / 2 ^ 32 := by
    rw [UInt64.toNat_shiftRight, show (32 : UInt64).toNat % 64 = 32 from rfl,
      Nat.shiftRight_eq_div_pow]
  rw [← UInt32.toNat_inj, checksum, UInt32.toNat_add, UInt64.toNat_toUInt32,
    UInt64.toNat_toUInt32, hlow, hhigh, UInt32.toNat_ofNat', bytes,
    wordSum_beBytes_eight hwords, highWords, hwords.div₃, hwords.div₂, hwords.div₁, hwords.mod₁]
  omega

end IsdAsn

namespace IPAddress

theorem checksum_eq (ip : IPAddress) : ip.checksum = UInt32.ofNat (wordSum ip.bytes) := by
  obtain ⟨w₃, w₂, w₁, w₀, hhi⟩ := exists_isWords ip.hi.toNat_lt
  obtain ⟨v₃, v₂, v₁, v₀, hlo⟩ := exists_isWords ip.lo.toNat_lt
  obtain ⟨hw₀, hw₁, hw₂, hw₃⟩ := hhi.words
  obtain ⟨hv₀, hv₁, hv₂, hv₃⟩ := hlo.words
  -- the loop takes a word of either half at a time, the lowest first
  have hsum : ip.checksum
      = UInt32.ofNat (v₀ + w₀ + v₁ + w₁ + v₂ + w₂ + v₃ + w₃) := by
    rw [checksum, show List.range 4 = [0, 1, 2, 3] from rfl]
    simp only [List.foldl_cons, List.foldl_nil, toUInt32_word _ (show 0 < 4 by norm_num),
      toUInt32_word _ (show 1 < 4 by norm_num), toUInt32_word _ (show 2 < 4 by norm_num),
      toUInt32_word _ (show 3 < 4 by norm_num), UInt32.zero_add, ← UInt32.ofNat_add, hw₀, hw₁,
      hw₂, hw₃, hv₀, hv₁, hv₂, hv₃]
  rw [hsum]
  congr 1
  cases ip with
  | v4 addr =>
    have hlt := addr.toNat_lt
    -- the high word is zero, the low one has 32 bits
    rw [hi, show (0 : UInt64).toNat = 0 from rfl] at hw₀ hw₁ hw₂ hw₃
    rw [lo, UInt32.toNat_toUInt64] at hv₀ hv₁ hv₂ hv₃
    rw [bytes, wordSum_beBytes_four _ hlt]
    omega
  | v6 high low zone =>
    rw [hi] at hhi
    rw [lo] at hlo
    rw [bytes, wordSum_append _ _ (by rw [length_beBytes]), wordSum_beBytes_eight hhi,
      wordSum_beBytes_eight hlo]
    omega

theorem length_bytes_even (ip : IPAddress) : ip.bytes.length % 2 = 0 := by
  rw [length_bytes, size]
  split <;> rfl

theorem wordSum_bytes_le (ip : IPAddress) : wordSum ip.bytes ≤ 8 * 65535 := by
  have hle := wordSum_le ip.bytes
  rw [length_bytes, size] at hle
  split at hle <;> omega

end IPAddress

/-- The sum of the words of an IPv6 pseudo header. -/
theorem IPv6.checksum_eq (h : IPv6) (len : UInt16) : h.checksum len
    = UInt32.ofNat (wordSum h.src.bytes + wordSum h.dst.bytes + len.toNat + h.nh.toNat) := by
  have hproto : h.nh.toUInt32 = UInt32.ofNat h.nh.toNat := by
    have hlt := h.nh.toNat_lt
    rw [← UInt32.toNat_inj, UInt8.toNat_toUInt32, UInt32.toNat_ofNat']
    omega
  rw [checksum, IPAddress.checksum_eq, IPAddress.checksum_eq, toUInt32_eq_ofNat, hproto,
    ← UInt32.ofNat_add, ← UInt32.ofNat_add, ← UInt32.ofNat_add]

/-! ### Transport headers -/

theorem UDP.wordSum_bytes (h : UDP) : wordSum h.bytes
    = h.sport.toNat + h.dport.toNat + h.len.toNat + h.chksum.toNat := by
  have hsport := h.sport.toNat_lt
  have hdport := h.dport.toNat_lt
  have hlen := h.len.toNat_lt
  have hchksum := h.chksum.toNat_lt
  rw [bytes, wordSum_append _ _ (by simp), wordSum_append _ _ (by simp),
    wordSum_append _ _ (by simp)]
  simp only [wordSum_beBytes_two]
  omega

theorem UDP.checksum_eq (h : UDP) : h.checksum = UInt32.ofNat (wordSum h.bytes) := by
  rw [checksum, wordSum_bytes, toUInt32_eq_ofNat, toUInt32_eq_ofNat, toUInt32_eq_ofNat,
    toUInt32_eq_ofNat, ← UInt32.ofNat_add, ← UInt32.ofNat_add, ← UInt32.ofNat_add]

theorem AsInterface.checksum_eq (i : AsInterface) :
    i.checksum = UInt32.ofNat (wordSum i.bytes) := by
  obtain ⟨w₃, w₂, w₁, w₀, hwords⟩ := exists_isWords i.ifid.toNat_lt
  obtain ⟨h₀, h₁, h₂, h₃⟩ := hwords.words
  rw [← UInt32.toNat_inj, bytes, wordSum_beBytes_eight hwords, UInt32.toNat_ofNat']
  show ((((i.ifid >>> UInt64.ofNat (16 * 0)) &&& 0xffff)
    + ((i.ifid >>> UInt64.ofNat (16 * 1)) &&& 0xffff)
    + ((i.ifid >>> UInt64.ofNat (16 * 2)) &&& 0xffff)
    + ((i.ifid >>> UInt64.ofNat (16 * 3)) &&& 0xffff)).toUInt32).toNat = _
  rw [UInt64.toNat_toUInt32, UInt64.toNat_add, UInt64.toNat_add, UInt64.toNat_add,
    toNat_word _ (show 0 < 4 by norm_num), toNat_word _ (show 1 < 4 by norm_num),
    toNat_word _ (show 2 < 4 by norm_num), toNat_word _ (show 3 < 4 by norm_num), h₀, h₁, h₂, h₃]
  obtain ⟨hlt₃, hlt₂, hlt₁, hlt₀, -⟩ := hwords
  omega

namespace ScmpMessage

/-- The higher words of the ISD-ASN in the message, if there is one. -/
def highWords : ScmpMessage → ℕ
  | unknownError .. => 0
  | dstUnreach _ => 0
  | packetTooBig _ => 0
  | paramProblem .. => 0
  | extIfDown sender _ => sender.highWords
  | intConnDown sender _ _ => sender.highWords
  | echoRequest .. => 0
  | echoReply .. => 0
  | traceRequest .. => 0
  | traceReply _ _ sender _ => sender.highWords

theorem typeCode_eq (type code : UInt8) :
    (type.toUInt32 <<< 8) + code.toUInt32 = UInt32.ofNat (type.toNat * 256 + code.toNat) := by
  have htype := type.toNat_lt
  rw [← UInt32.toNat_inj, UInt32.toNat_add, UInt32.toNat_shiftLeft, UInt8.toNat_toUInt32,
    UInt8.toNat_toUInt32, show (8 : UInt32).toNat % 32 = 8 from rfl, Nat.shiftLeft_eq,
    UInt32.toNat_ofNat']
  omega

theorem wordSum_pair (id seq : UInt16) (rest : List UInt8) :
    wordSum (beBytes 2 id.toNat ++ (beBytes 2 seq.toNat ++ rest))
      = id.toNat + seq.toNat + wordSum rest := by
  have hid := id.toNat_lt
  have hseq := seq.toNat_lt
  rw [wordSum_append _ _ (by simp), wordSum_append _ _ (by simp), wordSum_beBytes_two,
    wordSum_beBytes_two]
  omega

theorem wordSum_reserved (v : UInt16) :
    wordSum (List.replicate 2 0 ++ beBytes 2 v.toNat) = v.toNat := by
  have hv := v.toNat_lt
  rw [wordSum_append _ _ (by simp), wordSum_beBytes_two,
    show wordSum (List.replicate 2 0) = 0 from rfl]
  omega

/-- Type, code and the fields: the reserved bytes are zero in what is written. -/
theorem checksum_eq (msg : ScmpMessage) :
    msg.checksum = UInt32.ofNat (msg.type.toNat * 256 + msg.code.toNat + wordSum msg.bytes
      + 65535 * msg.highWords) := by
  have hhead := typeCode_eq msg.type msg.code
  cases msg with
  | unknownError type code =>
    rw [bytes, highWords, wordSum, mul_zero, add_zero, add_zero]
    exact hhead
  | dstUnreach code =>
    rw [bytes, highWords, show wordSum (List.replicate 4 0) = 0 from rfl, mul_zero, add_zero,
      add_zero]
    exact hhead
  | packetTooBig mtu =>
    simp only [checksum, hhead, bytes, highWords, wordSum_reserved, toUInt32_eq_ofNat,
      mul_zero, add_zero, ← UInt32.ofNat_add]
  | paramProblem code pointer =>
    simp only [checksum, hhead, bytes, highWords, wordSum_reserved, toUInt32_eq_ofNat,
      mul_zero, add_zero, ← UInt32.ofNat_add]
  | extIfDown sender iface =>
    simp only [checksum, hhead, bytes, highWords, wordSum_append sender.bytes _ (by simp),
      IsdAsn.checksum_eq, AsInterface.checksum_eq, ← UInt32.ofNat_add]
    congr 1
    ring
  | intConnDown sender ingress egress =>
    simp only [checksum, hhead, bytes, highWords, wordSum_append sender.bytes _ (by simp),
      wordSum_append ingress.bytes _ (by simp), IsdAsn.checksum_eq, AsInterface.checksum_eq,
      ← UInt32.ofNat_add]
    congr 1
    ring
  | echoRequest id seq =>
    have hpair := wordSum_pair id seq []
    rw [List.append_nil, wordSum, add_zero] at hpair
    simp only [checksum, hhead, bytes, highWords, hpair, toUInt32_eq_ofNat, mul_zero, add_zero,
      ← UInt32.ofNat_add]
  | echoReply id seq =>
    have hpair := wordSum_pair id seq []
    rw [List.append_nil, wordSum, add_zero] at hpair
    simp only [checksum, hhead, bytes, highWords, hpair, toUInt32_eq_ofNat, mul_zero, add_zero,
      ← UInt32.ofNat_add]
  | traceRequest id seq =>
    simp only [checksum, hhead, bytes, highWords, wordSum_pair,
      show wordSum (List.replicate 16 0) = 0 from rfl, toUInt32_eq_ofNat, mul_zero, add_zero,
      ← UInt32.ofNat_add]
  | traceReply id seq sender iface =>
    simp only [checksum, hhead, bytes, highWords, wordSum_pair,
      wordSum_append sender.bytes _ (by simp), toUInt32_eq_ofNat, IsdAsn.checksum_eq,
      AsInterface.checksum_eq, ← UInt32.ofNat_add]
    congr 1
    ring

end ScmpMessage

namespace ICMPv6

theorem wordSum_bytes (h : ICMPv6) : wordSum h.bytes
    = h.type.toNat * 256 + h.code.toNat + h.chksum.toNat + h.param1.toNat + h.param2.toNat := by
  have hchksum := h.chksum.toNat_lt
  have hpair := ScmpMessage.wordSum_pair h.param1 h.param2 []
  rw [List.append_nil, wordSum, add_zero] at hpair
  rw [bytes, List.singleton_append, List.singleton_append, wordSum,
    wordSum_append _ _ (by simp), wordSum_beBytes_two, Nat.mod_eq_of_lt hchksum, hpair]
  simp only [beNat, List.length_singleton, List.length_nil]
  omega

theorem checksum_eq (h : ICMPv6) : h.checksum = UInt32.ofNat (wordSum h.bytes) := by
  rw [checksum, wordSum_bytes, ScmpMessage.typeCode_eq, toUInt32_eq_ofNat, toUInt32_eq_ofNat,
    toUInt32_eq_ofNat, ← UInt32.ofNat_add, ← UInt32.ofNat_add, ← UInt32.ofNat_add]

end ICMPv6

theorem SCMP.wordSum_bytes (h : SCMP) : wordSum h.bytes
    = h.msg.type.toNat * 256 + h.msg.code.toNat + (h.chksum.toNat + wordSum h.msg.bytes) := by
  have hchksum := h.chksum.toNat_lt
  rw [bytes, List.singleton_append, List.singleton_append, wordSum,
    wordSum_append _ _ (by simp), wordSum_beBytes_two, Nat.mod_eq_of_lt hchksum]
  simp [beNat]

theorem SCMP.checksum_eq (h : SCMP) :
    h.checksum = UInt32.ofNat (wordSum h.bytes + 65535 * h.msg.highWords) := by
  rw [checksum, wordSum_bytes, ScmpMessage.checksum_eq, toUInt32_eq_ofNat, ← UInt32.ofNat_add]
  congr 1
  ring

namespace L4Header

def highWords : L4Header → ℕ
  | udp _ => 0
  | scmp h => h.msg.highWords

/-- The sum of the words that a transport header writes. -/
theorem checksum_eq (l4 : L4Header) :
    l4.checksum = UInt32.ofNat (wordSum l4.bytes + 65535 * l4.highWords) := by
  cases l4 with
  | udp h =>
    rw [highWords, mul_zero, add_zero]
    exact UDP.checksum_eq h
  | scmp h => exact SCMP.checksum_eq h

theorem length_bytes_even (l4 : L4Header) : l4.bytes.length % 2 = 0 := by
  rw [length_bytes]
  cases l4 with
  | udp h => simp [size, UDP.size]
  | scmp h =>
    show (4 + h.msg.size) % 2 = 0
    cases h.msg <;> simp [ScmpMessage.size]

end L4Header

end Scion
