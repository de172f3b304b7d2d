/-
Incremental update of an internet checksum (`hdr/details.hpp`).

Words that are added to the data and words that are taken out of it are summed apart, and
their difference is added to the complement of the checksum in a wrapping 32-bit integer,
which is then folded once.

* `OnesComplement.foldInt` — one fold of an integer that may be negative;
* `OnesComplement.foldInt_emod_modEq_iff` — the cut fold is congruent to the integer exactly
  when there is nothing to cut and nothing to borrow;
* `toNat_updateInternetChecksum` — the updated checksum in terms of that fold;
* `updateInternetChecksum_exact_iff` — when it verifies the new data and is not zero;
* `updateInternetChecksum_modEq` — how far off it is otherwise.
-/
import Scion.Socket

/-! ### Differences -/

namespace OnesComplement

/-- The high part of an integer carried around to its low digit. -/
def foldInt (b u : ℤ) : ℤ := u / b + u % b

theorem foldInt_modEq (b u : ℤ) : foldInt b u ≡ u [ZMOD b - 1] := by
  have hdiv := Int.mul_ediv_add_emod u b
  apply Int.modEq_of_dvd
  refine ⟨u / b, ?_⟩
  rw [foldInt]
  linear_combination -hdiv

/-- The fold of a number of two digits or less, wrapped around when it is negative, lies
between minus one digit and twice the largest one. -/
theorem foldInt_bounds {b u : ℤ} (hb : 0 < b) (hlow : -(b * b) ≤ u) (hhigh : u < b * b) :
    -b ≤ foldInt b u ∧ foldInt b u < 2 * b - 1 := by
  have hdigit := Int.emod_lt_of_pos u hb
  have hzero := Int.emod_nonneg u hb.ne'
  have hquot : u / b < b := Int.ediv_lt_of_lt_mul hb hhigh
  have hquot' : -b ≤ u / b := Int.le_ediv_of_mul_le hb (by linarith)
  rw [foldInt]
  omega

/-- Cutting the fold to a digit is right exactly when it is a digit: neither a carry out of
it nor a borrow is ever made up for. -/
theorem foldInt_emod_modEq_iff {b u : ℤ} (hb : 4 ≤ b) (hlow : -(b * b) ≤ u) (hhigh : u < b * b) :
    foldInt b u % b ≡ u [ZMOD b - 1] ↔ 0 ≤ foldInt b u ∧ foldInt b u < b := by
  obtain ⟨hmin, hmax⟩ := foldInt_bounds (by omega) hlow hhigh
  have hfold := foldInt_modEq b u
  constructor
  · intro hcut
    -- what is cut off is a multiple of `b - 1`, and less than that
    obtain ⟨k, hk⟩ := (hcut.trans hfold.symm).dvd
    have hdiv := Int.mul_ediv_add_emod (foldInt b u) b
    have hquot : -1 ≤ foldInt b u / b := Int.le_ediv_of_mul_le (by omega) (by omega)
    have hquot' : foldInt b u / b ≤ 1 := by
      have hlt : foldInt b u / b < 2 := Int.ediv_lt_of_lt_mul (by omega) (by omega)
      omega
    have hmul : (b - 1) * (k - foldInt b u / b) = foldInt b u / b := by
      linear_combination -hk - hdiv
    have hzero : foldInt b u / b = 0 := by
      by_contra hne
      rcases (show foldInt b u / b = 1 ∨ foldInt b u / b = -1 by omega) with hone | hone
      · have hunit := Int.isUnit_iff.mp (IsUnit.of_mul_eq_one _ (hmul.trans hone))
        omega
      · rw [hone] at hmul
        have hneg : (b - 1) * -(k - -1) = 1 := by linear_combination -hmul
        have hunit := Int.isUnit_iff.mp (IsUnit.of_mul_eq_one _ hneg)
        omega
    have hdigit := Int.emod_lt_of_pos (foldInt b u) (show 0 < b by omega)
    have hpos := Int.emod_nonneg (foldInt b u) (show b ≠ 0 by omega)
    rw [hzero] at hdiv
    omega
  · rintro ⟨hpos, hlt⟩
    rwa [Int.emod_eq_of_lt hpos hlt]

end OnesComplement

namespace Scion

open OnesComplement

/-! ### The updated checksum -/

/-- The sum of 16-bit words in a 32-bit integer. -/
def sumWords (words : List UInt16) : UInt32 :=
  words.foldl (fun sum word => sum + word.toUInt32) 0

/-- Their sum as an integer. -/
def wordTotal (words : List UInt16) : ℤ := (words.map fun word => (word.toNat : ℤ)).sum

theorem wordTotal_bounds (words : List UInt16) :
    0 ≤ wordTotal words ∧ wordTotal words ≤ 65535 * words.length := by
  induction words with
  | nil => exact ⟨le_rfl, le_rfl⟩
  | cons word words ih =>
    have hlt := word.toNat_lt
    rw [wordTotal, List.map_cons, List.sum_cons, ← wordTotal, List.length_cons]
    push_cast
    omega

/-- Not too many words do not overflow. -/
theorem toNat_sumWords {words : List UInt16} (h : words.length ≤ 32) :
    ((sumWords words).toNat : ℤ) = wordTotal words := by
  have hfold : ∀ (words : List UInt16) (sum : UInt32),
      (sum.toNat : ℤ) + 65535 * words.length < 2 ^ 32 →
      ((words.foldl (fun sum word => sum + word.toUInt32) sum).toNat : ℤ)
        = sum.toNat + wordTotal words := by
    intro words
    induction words with
    | nil => exact fun sum _ => (add_zero _).symm
    | cons word words ih =>
      intro sum hroom
      have hlt := word.toNat_lt
      have hadd : (sum + word.toUInt32).toNat = sum.toNat + word.toNat := by
        rw [UInt32.toNat_add, UInt16.toNat_toUInt32]
        rw [List.length_cons] at hroom
        push_cast at hroom
        omega
      rw [List.foldl_cons, ih _ (by rw [hadd, List.length_cons] at *; push_cast at *; omega), hadd,
        wordTotal, wordTotal, List.map_cons, List.sum_cons]
      push_cast
      ring
  rw [sumWords, hfold words 0 (by rw [UInt32.toNat_zero]; push_cast; omega), UInt32.toNat_zero]
  push_cast
  ring

/-- The checksum without its complement, with the words added and removed. -/
def updatedSum (chksum : UInt16) (added removed : List UInt16) : ℤ :=
  0xffff - chksum.toNat + wordTotal added - wordTotal removed

section Update

variable {chksum : UInt16} {added removed : List UInt16}

theorem updatedSum_bounds (hadded : added.length ≤ 32) (hremoved : removed.length ≤ 32) :
    -(65536 * 65536) < updatedSum chksum added removed ∧
      updatedSum chksum added removed < 65536 * 65536 := by
  have hlt := chksum.toNat_lt
  have hadd := wordTotal_bounds added
  have hsub := wordTotal_bounds removed
  rw [updatedSum]
  omega

/-- The sum in the 32-bit integer is wrapped around. -/
theorem toNat_updatedSum (hadded : added.length ≤ 32) (hremoved : removed.length ≤ 32) :
    ((((~~~chksum).toUInt32 + sumWords added - sumWords removed).toNat : ℕ) : ℤ)
      = updatedSum chksum added removed % 2 ^ 32 := by
  have hlt := chksum.toNat_lt
  have hadd := toNat_sumWords hadded
  have hsub := toNat_sumWords hremoved
  have hltsub := (sumWords removed).toNat_lt
  rw [UInt32.toNat_sub, UInt32.toNat_add, UInt16.toNat_toUInt32, UInt16.toNat_not,
    show UInt16.size = 65536 from rfl, updatedSum, ← hadd, ← hsub]
  omega

/-- The updated checksum is the complement of the fold, but for a sum of zero. -/
theorem toNat_updateInternetChecksum_of {add sub : UInt32} {u : ℤ} (hlow : -(65536 * 65536) < u)
    (hhigh : u < 65536 * 65536)
    (hsum : (((~~~chksum).toUInt32 + add - sub).toNat : ℤ) = u % 2 ^ 32) :
    ((updateInternetChecksum chksum add sub).toNat : ℤ)
      = if u = 0 then 0 else 65535 - foldInt 65536 u % 65536 := by
  rw [updateInternetChecksum]
  set sum := (~~~chksum).toUInt32 + add - sub with hset
  have hlt := sum.toNat_lt
  have hfold : ((sum >>> 16) + (sum &&& 0xffff)).toNat = sum.toNat / 65536 + sum.toNat % 65536 := by
    rw [UInt32.toNat_add, UInt32.toNat_shiftRight, show (16 : UInt32).toNat % 32 = 16 from rfl,
      Nat.shiftRight_eq_div_pow, UInt32.toNat_and,
      show (0xffff : UInt32).toNat = 2 ^ 16 - 1 from rfl, Nat.and_two_pow_sub_one_eq_mod]
    omega
  have hzero : (sum >>> 16) + (sum &&& 0xffff) = 0 ↔ u = 0 := by
    rw [← UInt32.toNat_inj, hfold, UInt32.toNat_zero]
    omega
  have hcut : ∀ v : UInt32, ((~~~v).toUInt16.toNat : ℤ) = 65535 - v.toNat % 65536 := by
    intro v
    have hv := v.toNat_lt
    rw [UInt32.toNat_toUInt16, UInt32.toNat_not, show UInt32.size = 2 ^ 32 from rfl]
    omega
  simp only [hzero]
  by_cases hnone : u = 0
  · rw [if_pos hnone, if_pos hnone]
    rfl
  · rw [if_neg hnone, if_neg hnone, hcut, hfold, foldInt]
    omega

theorem toNat_updateInternetChecksum (hadded : added.length ≤ 32) (hremoved : removed.length ≤ 32) :
    ((updateInternetChecksum chksum (sumWords added) (sumWords removed)).toNat : ℤ)
      = if updatedSum chksum added removed = 0 then 0
        else 65535 - foldInt 65536 (updatedSum chksum added removed) % 65536 := by
  obtain ⟨hlow, hhigh⟩ := @updatedSum_bounds chksum _ _ hadded hremoved
  exact toNat_updateInternetChecksum_of hlow hhigh (toNat_updatedSum hadded hremoved)

/-! ### Exactness -/

/-- The checksum verifies data with the given sum of its words. -/
def Verifies (chksum : UInt16) (total : ℤ) : Prop := total + chksum.toNat ≡ 0xffff [ZMOD 0xffff]

instance (chksum : UInt16) (total : ℤ) : Decidable (Verifies chksum total) :=
  inferInstanceAs (Decidable (_ % _ = _ % _))

/-- The sum that is folded is not zero, and its fold a digit other than the largest. -/
def FoldsOnce (u : ℤ) : Prop := u ≠ 0 ∧ 0 ≤ u / 65536 + u % 65536 ∧ u / 65536 + u % 65536 < 65535

instance (u : ℤ) : Decidable (FoldsOnce u) := inferInstanceAs (Decidable (_ ∧ _ ∧ _))

/-- A complement verifies what is congruent to the number that it complements. -/
theorem complement_verifies_iff {r v t c : ℤ} (ht : t ≡ v [ZMOD 65535]) (hc : c = 65535 - r) :
    t + c ≡ 65535 [ZMOD 65535] ↔ r ≡ v [ZMOD 65535] := by
  subst hc
  rw [Int.ModEq] at ht ⊢
  rw [Int.ModEq]
  omega

/-- An updated checksum verifies the updated data and is not zero exactly when the difference
is folded to a digit, without a carry or a borrow, and to neither of the two zeros. -/
theorem updateInternetChecksum_exact_iff {total : ℤ} (hadded : added.length ≤ 32)
    (hremoved : removed.length ≤ 32) (hverifies : Verifies chksum total) :
    (Verifies (updateInternetChecksum chksum (sumWords added) (sumWords removed))
        (total + wordTotal added - wordTotal removed) ∧
      updateInternetChecksum chksum (sumWords added) (sumWords removed) ≠ 0) ↔
    FoldsOnce (updatedSum chksum added removed) := by
  obtain ⟨hlow, hhigh⟩ := @updatedSum_bounds chksum _ _ hadded hremoved
  have hval := @toNat_updateInternetChecksum chksum _ _ hadded hremoved
  have hnonzero : updateInternetChecksum chksum (sumWords added) (sumWords removed) ≠ 0 ↔
      ((updateInternetChecksum chksum (sumWords added) (sumWords removed)).toNat : ℤ) ≠ 0 := by
    rw [Ne, Ne, ← UInt16.toNat_inj, UInt16.toNat_zero, Nat.cast_eq_zero]
  have htotal : total + wordTotal added - wordTotal removed
      ≡ updatedSum chksum added removed [ZMOD 65535] := by
    rw [Verifies, Int.ModEq] at hverifies
    rw [updatedSum, Int.ModEq]
    omega
  have hdigit := foldInt_emod_modEq_iff (show (4 : ℤ) ≤ 65536 by norm_num) hlow.le hhigh
  rw [hnonzero, Verifies, FoldsOnce]
  set u := updatedSum chksum added removed with hu
  by_cases hzero : u = 0
  · rw [if_pos hzero] at hval
    exact iff_of_false (fun h => h.2 hval) fun h => h.1 hzero
  · rw [if_neg hzero] at hval
    rw [complement_verifies_iff htotal hval, show (65535 : ℤ) = 65536 - 1 from rfl, hdigit, hval]
    rw [foldInt]
    omega

end Update

/-- A port that is replaced by another one. -/
theorem updateInternetChecksum_exact_iff_port :
    (Verifies (updateInternetChecksum 0xfff0 (sumWords [0x1388]) (sumWords [0x000f]))
        (0x000f + wordTotal [0x1388] - wordTotal [0x000f]) ∧
      updateInternetChecksum 0xfff0 (sumWords [0x1388]) (sumWords [0x000f]) ≠ 0) ↔
    FoldsOnce (updatedSum 0xfff0 [0x1388] [0x000f]) :=
  updateInternetChecksum_exact_iff (by decide) (by decide) (by decide)

/-- The word that completes the sum to the largest digit updates the checksum to zero. -/
theorem not_forall_updateInternetChecksum_exact :
    ¬ ∀ (chksum : UInt16) (total : ℤ) (added removed : List UInt16), added.length ≤ 32 →
      removed.length ≤ 32 → Verifies chksum total →
      Verifies (updateInternetChecksum chksum (sumWords added) (sumWords removed))
          (total + wordTotal added - wordTotal removed) ∧
        updateInternetChecksum chksum (sumWords added) (sumWords removed) ≠ 0 := by
  intro h
  have hexact := h 1 0xfffe [1] [] (by decide) (by decide) (by decide)
  exact absurd hexact.2 (by decide)

/-! ### Updates one after the other -/

/-- What an update of a checksum loses: a wrap-around of the sum counts for one, and so does a
carry out of the fold. -/
def lostCarry (chksum : UInt16) (add sub : UInt32) : ℤ :=
  let u : ℤ := 65535 - chksum.toNat + add.toNat - sub.toNat
  u / 2 ^ 32 + foldInt 65536 (u % 2 ^ 32) / 65536

theorem lostCarry_bounds (chksum : UInt16) (add sub : UInt32) :
    -1 ≤ lostCarry chksum add sub ∧ lostCarry chksum add sub ≤ 1 := by
  have hchksum := chksum.toNat_lt
  have hadd := add.toNat_lt
  have hsub := sub.toNat_lt
  rw [lostCarry, foldInt]
  omega

/-- An updated checksum is off by what is lost. -/
theorem updateInternetChecksum_modEq (chksum : UInt16) (add sub : UInt32) :
    ((updateInternetChecksum chksum add sub).toNat : ℤ)
      ≡ chksum.toNat - add.toNat + sub.toNat + lostCarry chksum add sub [ZMOD 65535] := by
  have hchksum := chksum.toNat_lt
  have hadd := add.toNat_lt
  have hsub := sub.toNat_lt
  have hwrapped : (((~~~chksum).toUInt32 + add - sub).toNat : ℤ)
      = (65535 - chksum.toNat + add.toNat - sub.toNat) % 2 ^ 32 := by
    rw [UInt32.toNat_sub, UInt32.toNat_add, UInt16.toNat_toUInt32, UInt16.toNat_not,
      show UInt16.size = 65536 from rfl]
    omega
  have hval := @toNat_updateInternetChecksum_of chksum add sub
    ((65535 - chksum.toNat + add.toNat - sub.toNat) % 2 ^ 32) (by omega) (by omega)
    (by rw [hwrapped]; omega)
  rw [lostCarry, hval, foldInt, Int.ModEq]
  split_ifs with hzero <;> omega

end Scion
