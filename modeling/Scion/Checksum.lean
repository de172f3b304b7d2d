/-
The internet checksum (`hdr/details.hpp`, `hdr/details.cpp`).

The 16-bit big-endian words of a buffer are added into a wrapping 32-bit
accumulator, which is then folded to 16 bits once.

* `onesComplementChecksumScalar` — the loop and the fold of the source;
* `wordSum` — the integer sum of the words;
* `toNat_onesComplementChecksumScalar` — the result is one cut fold of the
  accumulator;
* `onesComplementChecksum_add_internetChecksum` — when a receiver verifies it;
* `onesComplementChecksumScalar_isSum_iff` — it is the one's-complement sum
  exactly when that fold does not carry.
-/
import Scion.BigEndian
import Scion.OnesComplement

namespace Scion

open BigEndian OnesComplement

/-- The loop over the 16-bit words of the buffer; a last odd byte counts as
the high byte of a word. -/
def addWords : UInt32 → List UInt8 → UInt32
  | sum, [] => sum
  | sum, [last] => sum + (last.toUInt32 <<< 8)
  | sum, hi :: lo :: rest => addWords (sum + UInt32.ofNat (beNat [hi, lo])) rest

def onesComplementChecksumScalar (buffer : List UInt8) (inital : UInt32) : UInt16 :=
  let sum := addWords inital buffer
  let sum := (sum >>> 16) + (sum &&& 0xffff)
  sum.toUInt16

/-- Without AVX2 the scalar implementation is the one in use. -/
def onesComplementChecksum (buffer : List UInt8) (inital : UInt32) : UInt16 :=
  onesComplementChecksumScalar buffer inital

def internetChecksum (buffer : List UInt8) (inital : UInt32) : UInt16 :=
  ~~~onesComplementChecksum buffer inital

/-! ### The accumulator -/

/-- The sum of the big-endian 16-bit words, the last odd byte padded with
zero. -/
def wordSum : List UInt8 → ℕ
  | [] => 0
  | [last] => last.toNat * 256
  | hi :: lo :: rest => beNat [hi, lo] + wordSum rest

/-- Buffers of whole words are added up one after the other. -/
theorem wordSum_append (xs ys : List UInt8) (h : xs.length % 2 = 0) :
    wordSum (xs ++ ys) = wordSum xs + wordSum ys := by
  induction xs using wordSum.induct with
  | case1 => rw [List.nil_append, wordSum, zero_add]
  | case2 last => cases h
  | case3 hi lo rest ih =>
    rw [List.length_cons, List.length_cons] at h
    rw [List.cons_append, List.cons_append, wordSum, wordSum, ih (by omega), add_assoc]

theorem wordSum_le (bs : List UInt8) : wordSum bs ≤ 65535 * ((bs.length + 1) / 2) := by
  induction bs using wordSum.induct with
  | case1 => exact Nat.zero_le _
  | case2 last =>
    have hlast := last.toNat_lt
    rw [wordSum, List.length_singleton]
    omega
  | case3 hi lo rest ih =>
    have hword := beNat_lt [hi, lo]
    rw [show [hi, lo].length = 2 from rfl] at hword
    rw [wordSum, List.length_cons, List.length_cons]
    omega

@[simp] theorem wordSum_beBytes_two (n : ℕ) : wordSum (beBytes 2 n) = n % 65536 := by
  have h := beNat_beBytes 2 n
  rw [beBytes, beBytes, beBytes_zero, show 256 ^ 2 = 65536 from rfl] at h
  rw [beBytes, beBytes, beBytes_zero]
  rw [wordSum, h, wordSum, add_zero]

/-- The high half of a numeral and the low half. -/
theorem wordSum_beBytes_add (m n v : ℕ) :
    wordSum (beBytes (2 * m + n) v)
      = wordSum (beBytes (2 * m) (v / 256 ^ n)) + wordSum (beBytes n v) := by
  rw [beBytes_append, wordSum_append _ _ (by rw [length_beBytes]; omega)]

theorem toNat_addWords (sum : UInt32) (buffer : List UInt8) :
    (addWords sum buffer).toNat = (sum.toNat + wordSum buffer) % 2 ^ 32 := by
  induction sum, buffer using addWords.induct with
  | case1 sum =>
    rw [addWords, wordSum, add_zero, Nat.mod_eq_of_lt sum.toNat_lt]
  | case2 sum last =>
    have hshift : (last.toUInt32 <<< 8).toNat = last.toNat * 256 := by
      have hlast := last.toNat_lt
      rw [UInt32.toNat_shiftLeft, UInt8.toNat_toUInt32, show (8 : UInt32).toNat % 32 = 8 from rfl,
        Nat.shiftLeft_eq, Nat.mod_eq_of_lt (by omega)]
    rw [addWords, wordSum, UInt32.toNat_add, hshift]
  | case3 sum hi lo rest ih =>
    rw [addWords, ih, wordSum, UInt32.toNat_add, UInt32.toNat_ofNat', Nat.mod_add_mod,
      Nat.add_right_comm, Nat.add_mod_mod, Nat.add_right_comm, add_assoc]

/-- One fold of the wrapped accumulator, cut to 16 bits. -/
theorem toNat_onesComplementChecksumScalar (buffer : List UInt8) (inital : UInt32) :
    (onesComplementChecksumScalar buffer inital).toNat
      = fold 65536 ((inital.toNat + wordSum buffer) % 2 ^ 32) % 65536 := by
  have hacc := toNat_addWords inital buffer
  set sum := addWords inital buffer with hsum
  have hlt := sum.toNat_lt
  have hhigh : (sum >>> 16).toNat = sum.toNat / 65536 := by
    rw [UInt32.toNat_shiftRight, show (16 : UInt32).toNat % 32 = 16 from rfl,
      Nat.shiftRight_eq_div_pow]
  have hlow : (sum &&& 0xffff).toNat = sum.toNat % 65536 := by
    rw [UInt32.toNat_and, show (0xffff : UInt32).toNat = 2 ^ 16 - 1 from rfl,
      Nat.and_two_pow_sub_one_eq_mod]
  rw [onesComplementChecksumScalar, ← hsum]
  simp only [UInt32.toNat_toUInt16, UInt32.toNat_add, hhigh, hlow]
  rw [← hacc, fold, Nat.mod_eq_of_lt (b := 2 ^ 32) (by omega)]

/-! ### Verification -/

theorem toNat_internetChecksum (buffer : List UInt8) (inital : UInt32) :
    (internetChecksum buffer inital).toNat
      = 65535 - fold 65536 ((inital.toNat + wordSum buffer) % 2 ^ 32) % 65536 := by
  rw [internetChecksum, UInt16.toNat_not, onesComplementChecksum,
    toNat_onesComplementChecksumScalar]
  rfl

/-- With the checksum the words add up to what was lost of their sum. -/
theorem internetChecksum_add_modEq (buffer : List UInt8) (inital : UInt32) :
    (internetChecksum buffer inital).toNat + (inital.toNat + wordSum buffer)
      ≡ lost 65536 (inital.toNat + wordSum buffer) [MOD 65535] := by
  have hcut : fold 65536 ((inital.toNat + wordSum buffer) % 2 ^ 32) % 65536
      + lost 65536 (inital.toNat + wordSum buffer)
        ≡ inital.toNat + wordSum buffer [MOD 65535] := cut_add_lost (by norm_num)
  rw [toNat_internetChecksum]
  rw [Nat.ModEq] at hcut ⊢
  omega

/-- A receiver who adds the checksum of the sender to the same data finds
`0xffff` exactly when the sender's fold did not carry. -/
theorem onesComplementChecksum_add_internetChecksum (buffer : List UInt8) (inital : UInt32) :
    onesComplementChecksum buffer (inital + (internetChecksum buffer inital).toUInt32) = 0xffff ↔
      fold 65536 ((inital.toNat + wordSum buffer) % 2 ^ 32) < 65536 := by
  set s := (inital.toNat + wordSum buffer) % 2 ^ 32 with hs
  have hlt : s < 65536 * 65536 := by
    have h := Nat.mod_lt (inital.toNat + wordSum buffer) (show 0 < 2 ^ 32 by norm_num)
    omega
  have hchk : (internetChecksum buffer inital).toUInt32.toNat
      = 65536 - 1 - fold 65536 s % 65536 := by
    rw [UInt16.toNat_toUInt32, toNat_internetChecksum, ← hs]
  have hsum : ((inital + (internetChecksum buffer inital).toUInt32).toNat + wordSum buffer) % 2 ^ 32
      = (s + (65536 - 1 - fold 65536 s % 65536)) % (65536 * 65536) := by
    rw [UInt32.toNat_add, hchk]
    omega
  have hres : (onesComplementChecksum buffer
        (inital + (internetChecksum buffer inital).toUInt32)).toNat
      = fold 65536 ((s + (65536 - 1 - fold 65536 s % 65536)) % (65536 * 65536)) % 65536 := by
    rw [onesComplementChecksum, toNat_onesComplementChecksumScalar, hsum]
  rw [← UInt16.toNat_inj, hres, show (0xffff : UInt16).toNat = 65535 from rfl]
  constructor
  · intro h
    by_contra hcarry
    rw [fold_add_complement_of_carry hlt (by omega)] at h
    omega
  · intro hfold
    obtain ⟨hfit, hmax⟩ := fold_add_complement hlt hfold
    rw [Nat.mod_eq_of_lt hfold, Nat.mod_eq_of_lt hfit, hmax]

/-! ### Correctness -/

/-- The checksum is the one's-complement sum of the initial value and the words
of the buffer exactly when the two halves of their integer sum add up without
a carry: the carry of the one fold is cut off, never added back. -/
theorem onesComplementChecksumScalar_isSum_iff (buffer : List UInt8) (inital : UInt32)
    (hfit : inital.toNat + wordSum buffer < 2 ^ 32) :
    IsSum 65536 (inital.toNat + wordSum buffer)
        (onesComplementChecksumScalar buffer inital).toNat ↔
      (inital.toNat + wordSum buffer) / 65536 + (inital.toNat + wordSum buffer) % 65536
        < 65536 := by
  rw [toNat_onesComplementChecksumScalar, Nat.mod_eq_of_lt hfit]
  exact isSum_fold_iff (by norm_num) hfit

/-- A buffer with a carry-free sum. -/
theorem onesComplementChecksumScalar_isSum_iff_header :
    IsSum 65536 ((0 : UInt32).toNat + wordSum [0x45, 0x00, 0xff, 0x73, 0x80])
        (onesComplementChecksumScalar [0x45, 0x00, 0xff, 0x73, 0x80] 0).toNat ↔
      ((0 : UInt32).toNat + wordSum [0x45, 0x00, 0xff, 0x73, 0x80]) / 65536
        + ((0 : UInt32).toNat + wordSum [0x45, 0x00, 0xff, 0x73, 0x80]) % 65536 < 65536 :=
  onesComplementChecksumScalar_isSum_iff [0x45, 0x00, 0xff, 0x73, 0x80] 0 (by decide)

/-- The words `ffff`, `ffff` and `0001` add up to `1ffff`, whose halves carry:
the checksum is 0, the one's-complement sum is 1. -/
theorem not_forall_onesComplementChecksumScalar_isSum :
    ¬ ∀ (buffer : List UInt8) (inital : UInt32), buffer.length ≤ 65535 →
      inital.toNat + wordSum buffer < 2 ^ 32 →
      IsSum 65536 (inital.toNat + wordSum buffer)
        (onesComplementChecksumScalar buffer inital).toNat := by
  intro h
  have hsum := h [0xff, 0xff, 0xff, 0xff, 0x00, 0x01] 0 (by decide) (by decide)
  exact absurd hsum (by decide)

end Scion
