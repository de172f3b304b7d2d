/-
Prefixes of IP addresses (`addr/generic_ip.hpp`, `scitra/translator.hpp`).

Both functions mask the two words of an IPv6 address, each with shifts of its own that are
never by a whole word.

* `samePrefix`, `translateIPv6Prefix` — the comparison and the replacement;
* `samePrefix_iff`, `bit_translateIPv6Prefix` — what they say of the bits of an address;
* `prefix_translation` — a replaced prefix is accepted, replaced again, and restored.
-/
import Scion.Address

namespace Scion

/-- Test if the first `prefixLen` bits of `a` and `b` match. -/
def samePrefix (a b : IPAddress) (prefixLen : UInt32) : Bool :=
  if a.is4 then
    if !b.is4 || decide (prefixLen > 32) then false
    else
      let mask : UInt64 := ~~~0 <<< (32 - prefixLen).toUInt64
      a.lo &&& mask == b.lo &&& mask
  else if !b.is6 || decide (prefixLen > 128) then false
  else
    let shift := 64 - min prefixLen 64
    let hiMask : UInt64 := if shift > 63 then 0 else ~~~0 <<< shift.toUInt64
    if a.hi &&& hiMask != b.hi &&& hiMask then false
    else if prefixLen ≤ 64 then true
    else
      let shift := 64 - (prefixLen - 64)
      let loMask : UInt64 := if shift > 63 then 0 else ~~~0 <<< shift.toUInt64
      a.lo &&& loMask == b.lo &&& loMask

/-- The length that replaces an entire address, even by an IPv4 one. -/
def replaceAddress : UInt32 := 128

/-- Replaces the first `prefixLen` bits of `addr` with the corresponding bits of `pre`. -/
def translateIPv6Prefix (addr pre : IPAddress) (prefixLen : UInt32) : IPAddress :=
  if prefixLen = replaceAddress then pre
  else
    let (addrHi, addrLo) := addr.getIPv6
    let (prefixHi, prefixLo) := pre.getIPv6
    let shift := 64 - min prefixLen 64
    let maskHi : UInt64 := if shift > 63 then 0 else ~~~0 <<< shift.toUInt64
    let maskLo : UInt64 :=
      if prefixLen > 64 then
        let shift := 64 - (prefixLen - 64)
        if shift > 63 then 0 else ~~~0 <<< shift.toUInt64
      else 0
    .v6 ((addrHi &&& ~~~maskHi) ||| (prefixHi &&& maskHi))
      ((addrLo &&& ~~~maskLo) ||| (prefixLo &&& maskLo)) ""

/-! ### Masks -/

/-- The bits of a word, its highest first. -/
def wordBit (x : UInt64) (i : ℕ) : Bool := x.toNat.testBit (63 - i)

/-- The mask keeps the bits in front of the shifted ones. -/
theorem wordBit_mask {shift : UInt32} (hshift : shift.toNat ≤ 64) {i : ℕ} (hi : i < 64) :
    wordBit (if shift > 63 then 0 else ~~~0 <<< shift.toUInt64) i = decide (i + shift.toNat < 64) := by
  rw [wordBit]
  split_ifs with hbig
  · have hlt : 63 < shift.toNat := hbig
    rw [UInt64.toNat_zero, Nat.zero_testBit, eq_comm, decide_eq_false_iff_not]
    omega
  · have hle : shift.toNat ≤ 63 := Nat.le_of_not_lt hbig
    have hshl : (~~~0 <<< shift.toUInt64 : UInt64).toNat
        = ((2 ^ 64 - 1) <<< shift.toNat) % 2 ^ 64 := by
      rw [UInt64.toNat_shiftLeft, UInt32.toNat_toUInt64, Nat.mod_eq_of_lt (by omega : shift.toNat < 64)]
      rfl
    rw [hshl, Nat.testBit_mod_two_pow, Nat.testBit_shiftLeft, Nat.testBit_two_pow_sub_one,
      decide_eq_true (by omega : 63 - i < 64), Bool.true_and, ← Bool.decide_and]
    congr 1
    apply propext
    omega

theorem wordBit_select (x y mask : UInt64) {i : ℕ} (hi : i < 64) :
    wordBit ((x &&& ~~~mask) ||| (y &&& mask)) i
      = if wordBit mask i then wordBit y i else wordBit x i := by
  have hnot : (~~~mask).toNat.testBit (63 - i) = !mask.toNat.testBit (63 - i) := by
    rw [UInt64.toNat_not, show UInt64.size - 1 - mask.toNat = 2 ^ 64 - (mask.toNat + 1) by
      simp only [UInt64.size]; omega, Nat.testBit_two_pow_sub_succ mask.toNat_lt,
      decide_eq_true (by omega : 63 - i < 64), Bool.true_and]
  rw [wordBit, wordBit, wordBit, wordBit, UInt64.toNat_or, Nat.testBit_or, UInt64.toNat_and,
    Nat.testBit_and, UInt64.toNat_and, Nat.testBit_and, hnot]
  cases mask.toNat.testBit (63 - i) <;> simp

/-- Words are equal under a mask if their bits are where it has one. -/
theorem and_mask_eq_iff (x y mask : UInt64) :
    x &&& mask = y &&& mask ↔ ∀ i < 64, wordBit mask i = true → wordBit x i = wordBit y i := by
  have hbit : ∀ (z : UInt64) (i : ℕ), wordBit (z &&& mask) i = (wordBit z i && wordBit mask i) :=
    fun z i => by rw [wordBit, UInt64.toNat_and, Nat.testBit_and]; rfl
  constructor
  · intro h i _ hmask
    have hi := congrArg (wordBit · i) h
    simpa [hbit, hmask] using hi
  · intro h
    rw [← UInt64.toNat_inj]
    refine Nat.eq_of_testBit_eq fun j => ?_
    by_cases hj : j < 64
    · have hi := h (63 - j) (by omega)
      have hx := hbit x (63 - j)
      have hy := hbit y (63 - j)
      rw [wordBit, show 63 - (63 - j) = j by omega] at hx hy
      rw [hx, hy]
      cases hmask : wordBit mask (63 - j) with
      | false => rw [Bool.and_false, Bool.and_false]
      | true => rw [hi hmask]
    · have hpow : 2 ^ 64 ≤ 2 ^ j := Nat.pow_le_pow_right (by norm_num) (by omega)
      rw [Nat.testBit_lt_two_pow (lt_of_lt_of_le (UInt64.toNat_lt _) hpow),
        Nat.testBit_lt_two_pow (lt_of_lt_of_le (UInt64.toNat_lt _) hpow)]

/-! ### The bits of an address -/

/-- The bits of an IPv6 address, its first one first. -/
def IPAddress.bit (ip : IPAddress) (i : ℕ) : Bool :=
  if i < 64 then wordBit ip.hi i else wordBit ip.lo (i - 64)

/-- An IPv6 address without a zone. -/
def IPAddress.ZonelessIPv6 (ip : IPAddress) : Prop := ∃ hi lo, ip = .v6 hi lo ""

theorem eq_of_wordBit {x y : UInt64} (h : ∀ i < 64, wordBit x i = wordBit y i) : x = y := by
  have hmask := (and_mask_eq_iff x y (~~~0)).mpr fun i hi _ => h i hi
  rwa [show (~~~0 : UInt64) = -1 from rfl, UInt64.and_neg_one, UInt64.and_neg_one] at hmask

theorem IPAddress.ZonelessIPv6.eq_of_bit {a b : IPAddress} (ha : a.ZonelessIPv6)
    (hb : b.ZonelessIPv6) (h : ∀ i < 128, a.bit i = b.bit i) : a = b := by
  obtain ⟨hi, lo, rfl⟩ := ha
  obtain ⟨hi', lo', rfl⟩ := hb
  have hhi : hi = hi' := eq_of_wordBit fun i hi => by
    have hbit := h i (by omega)
    rwa [bit, if_pos hi, bit, if_pos hi] at hbit
  have hlo : lo = lo' := eq_of_wordBit fun i hi => by
    have hbit := h (64 + i) (by omega)
    rwa [bit, if_neg (by omega), bit, if_neg (by omega), Nat.add_sub_cancel_left] at hbit
  rw [hhi, hlo]

section
variable {n : UInt32}

/-- The mask of the high word has the first 64 bits of the prefix. -/
theorem wordBit_maskHi {i : ℕ} (hi : i < 64) :
    wordBit (if 64 - min n 64 > 63 then 0 else ~~~0 <<< (64 - min n 64).toUInt64) i
      = decide (i < n.toNat) := by
  have hmin : (min n 64).toNat = min n.toNat 64 := by
    rw [UInt32.min_def, Nat.min_def]
    split_ifs with h h' h'
    · rfl
    · exact absurd h h'
    · exact absurd h' h
    · rfl
  have hle : min n 64 ≤ 64 := by
    show (min n 64).toNat ≤ 64
    omega
  have hshift : (64 - min n 64).toNat = 64 - min n.toNat 64 := by
    rw [UInt32.toNat_sub_of_le _ _ hle, hmin]
    rfl
  rw [wordBit_mask (by omega) hi, hshift]
  congr 1
  apply propext
  omega

/-- The mask of the low word has the other ones. -/
theorem wordBit_maskLo (h64 : 64 < n.toNat) (hn : n.toNat ≤ 128) {i : ℕ} (hi : i < 64) :
    wordBit (if 64 - (n - 64) > 63 then 0 else ~~~0 <<< (64 - (n - 64)).toUInt64) i
      = decide (64 + i < n.toNat) := by
  have hsub : (n - 64).toNat = n.toNat - 64 :=
    UInt32.toNat_sub_of_le _ _ (show (64 : UInt32).toNat ≤ n.toNat from h64.le)
  have hshift : (64 - (n - 64)).toNat = 64 - (n.toNat - 64) := by
    rw [UInt32.toNat_sub_of_le _ _ (show (n - 64).toNat ≤ 64 by omega), hsub]
    rfl
  rw [wordBit_mask (by omega) hi, hshift]
  congr 1
  apply propext
  omega

/-- The first bits are those of the prefix, the others those of the address. -/
theorem bit_translateIPv6Prefix (addr pre : IPAddress) (hn : n.toNat ≤ 128) {i : ℕ} (hi : i < 128) :
    (translateIPv6Prefix addr pre n).bit i = if i < n.toNat then pre.bit i else addr.bit i := by
  rw [translateIPv6Prefix]
  by_cases hall : n = replaceAddress
  · rw [if_pos hall, if_pos (by rw [hall]; exact hi)]
  rw [if_neg hall]
  by_cases hhi : i < 64
  · simp only [IPAddress.bit, IPAddress.hi, IPAddress.getIPv6, if_pos hhi, wordBit_select _ _ _ hhi,
      wordBit_maskHi hhi, decide_eq_true_eq]
  · have hlo : i - 64 < 64 := by omega
    simp only [IPAddress.bit, IPAddress.lo, IPAddress.getIPv6, if_neg hhi, wordBit_select _ _ _ hlo]
    by_cases h64 : n > 64
    · have hmask := wordBit_maskLo (show 64 < n.toNat from h64) hn hlo
      rw [if_pos h64, hmask, show 64 + (i - 64) = i by omega]
      simp only [decide_eq_true_eq]
    · have hle : ¬ 64 < n.toNat := h64
      rw [if_neg h64, if_neg (show ¬ i < n.toNat by omega), wordBit, UInt64.toNat_zero,
        Nat.zero_testBit, if_neg Bool.false_ne_true]

theorem and_maskHi_iff (x y : UInt64) :
    (x &&& (if 64 - min n 64 > 63 then 0 else ~~~0 <<< (64 - min n 64).toUInt64 : UInt64)
        = y &&& (if 64 - min n 64 > 63 then 0 else ~~~0 <<< (64 - min n 64).toUInt64 : UInt64)) ↔
      ∀ i < 64, i < n.toNat → wordBit x i = wordBit y i := by
  rw [and_mask_eq_iff]
  exact forall₂_congr fun i hi => by rw [wordBit_maskHi hi, decide_eq_true_eq]

theorem and_maskLo_iff (h64 : 64 < n.toNat) (hn : n.toNat ≤ 128) (x y : UInt64) :
    (x &&& (if 64 - (n - 64) > 63 then 0 else ~~~0 <<< (64 - (n - 64)).toUInt64 : UInt64)
        = y &&& (if 64 - (n - 64) > 63 then 0 else ~~~0 <<< (64 - (n - 64)).toUInt64 : UInt64)) ↔
      ∀ i < 64, 64 + i < n.toNat → wordBit x i = wordBit y i := by
  rw [and_mask_eq_iff]
  exact forall₂_congr fun i hi => by rw [wordBit_maskLo h64 hn hi, decide_eq_true_eq]

/-- The bits of a prefix are bits of the high word, and then of the low word. -/
theorem forall_bit_iff (a b : IPAddress) (k : ℕ) (hk : k ≤ 128) :
    (∀ i < k, a.bit i = b.bit i) ↔
      (∀ i < 64, i < k → wordBit a.hi i = wordBit b.hi i) ∧
      ∀ i < 64, 64 + i < k → wordBit a.lo i = wordBit b.lo i := by
  constructor
  · intro h
    refine ⟨fun i hi hik => ?_, fun i _ hik => ?_⟩
    · have hbit := h i hik
      rwa [IPAddress.bit, IPAddress.bit, if_pos hi, if_pos hi] at hbit
    · have hbit := h (64 + i) hik
      rwa [IPAddress.bit, IPAddress.bit, if_neg (by omega), if_neg (by omega),
        Nat.add_sub_cancel_left] at hbit
  · rintro ⟨hhi, hlo⟩ i hik
    rw [IPAddress.bit, IPAddress.bit]
    split_ifs with hi
    · exact hhi i hi hik
    · exact hlo (i - 64) (by omega) (by omega)

/-- Addresses have the same prefix if their first bits are the same. -/
theorem samePrefix_iff {a b : IPAddress} (ha : a.is6 = true) (hb : b.is6 = true)
    (hn : n.toNat ≤ 128) :
    samePrefix a b n = true ↔ ∀ i < n.toNat, a.bit i = b.bit i := by
  have ha4 : ¬ a.is4 = true := by simpa [IPAddress.is6] using ha
  have hguard : ¬ (!b.is6 || decide (n > 128)) = true := by
    rw [hb, Bool.not_true, Bool.false_or, decide_eq_true_eq]
    exact Nat.not_lt.mpr hn
  rw [forall_bit_iff a b n.toNat hn, samePrefix, if_neg ha4, if_neg hguard]
  simp only [bne_iff_ne, ne_eq, ite_not, and_maskHi_iff]
  by_cases hhi : ∀ i < 64, i < n.toNat → wordBit a.hi i = wordBit b.hi i
  · rw [if_pos hhi, and_iff_right hhi]
    by_cases h64 : n ≤ 64
    · have hle : n.toNat ≤ 64 := h64
      rw [if_pos h64]
      exact iff_of_true rfl fun i _ hik => by omega
    · rw [if_neg h64, beq_iff_eq, and_maskLo_iff (Nat.lt_of_not_le h64) hn]
  · rw [if_neg hhi]
    exact iff_of_false Bool.false_ne_true fun h => hhi h.1

theorem zonelessIPv6_translateIPv6Prefix (addr : IPAddress) {pre : IPAddress}
    (hpre : pre.ZonelessIPv6) : (translateIPv6Prefix addr pre n).ZonelessIPv6 := by
  rw [translateIPv6Prefix]
  by_cases hall : n = replaceAddress
  · rwa [if_pos hall]
  · rw [if_neg hall]
    exact ⟨_, _, rfl⟩

end

theorem IPAddress.ZonelessIPv6.is6 {ip : IPAddress} (h : ip.ZonelessIPv6) : ip.is6 = true := by
  obtain ⟨hi, lo, rfl⟩ := h
  rfl

/-- A replaced prefix is accepted as that prefix, replacing it again forgets it, and an
address that had the other prefix is restored by it. -/
theorem prefix_translation {a p q : IPAddress} {n : UInt32} (ha : a.ZonelessIPv6)
    (hp : p.ZonelessIPv6) (hq : q.ZonelessIPv6) (hn : n ≤ 128) :
    samePrefix (translateIPv6Prefix a p n) p n = true ∧
    translateIPv6Prefix (translateIPv6Prefix a p n) q n = translateIPv6Prefix a q n ∧
    (samePrefix a q n = true → translateIPv6Prefix (translateIPv6Prefix a p n) q n = a) := by
  have hlen : n.toNat ≤ 128 := hn
  have hap := zonelessIPv6_translateIPv6Prefix (n := n) a hp
  have hagain : translateIPv6Prefix (translateIPv6Prefix a p n) q n = translateIPv6Prefix a q n := by
    refine (zonelessIPv6_translateIPv6Prefix _ hq).eq_of_bit
      (zonelessIPv6_translateIPv6Prefix _ hq) fun i hi => ?_
    rw [bit_translateIPv6Prefix _ _ hlen hi, bit_translateIPv6Prefix _ _ hlen hi,
      bit_translateIPv6Prefix _ _ hlen hi]
    split_ifs <;> rfl
  refine ⟨?_, hagain, fun hsame => ?_⟩
  · rw [samePrefix_iff hap.is6 hp.is6 hlen]
    intro i hi
    rw [bit_translateIPv6Prefix _ _ hlen (by omega), if_pos hi]
  · rw [samePrefix_iff ha.is6 hq.is6 hlen] at hsame
    rw [hagain]
    refine (zonelessIPv6_translateIPv6Prefix _ hq).eq_of_bit ha fun i hi => ?_
    rw [bit_translateIPv6Prefix _ _ hlen hi]
    split_ifs with hpre
    · exact (hsame i hpre).symm
    · rfl

/-- `fd01::1` behind the prefix `fcff::/16`, and restored. -/
theorem prefix_translation_slash16 :
    samePrefix (translateIPv6Prefix (.v6 0xfd01000000000000 1 "") (.v6 0xfcff000000000000 0 "") 16)
      (.v6 0xfcff000000000000 0 "") 16 = true ∧
    translateIPv6Prefix
        (translateIPv6Prefix (.v6 0xfd01000000000000 1 "") (.v6 0xfcff000000000000 0 "") 16)
        (.v6 0xfd01000000000000 0 "") 16 = .v6 0xfd01000000000000 1 "" := by
  have h := prefix_translation (a := .v6 0xfd01000000000000 1 "") (p := .v6 0xfcff000000000000 0 "")
    (q := .v6 0xfd01000000000000 0 "") (n := 16) ⟨_, _, rfl⟩ ⟨_, _, rfl⟩ ⟨_, _, rfl⟩ (by decide)
  exact ⟨h.1, h.2.2 (by decide)⟩

end Scion
