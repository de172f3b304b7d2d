/-
One's-complement sums in an arbitrary radix.

In radix `b` a sum `s` is reduced by adding its high half to its low half until
one digit is left. What remains is congruent to `s` modulo `b - 1` and is zero
only for `s = 0`.

* `fold b s` — one such addition;
* `IsSum b s r` — the digit `r` is the one's-complement sum of `s`;
* `isSum_fold_iff` — one fold, cut to a digit, is that sum exactly when the
  folded value is a digit already;
* `fold_eq_pred_iff` — which sums one fold takes to the largest digit;
* `fold_add_complement`, `fold_add_complement_of_carry` — what a receiver
  finds who adds the complement of the cut fold;
* `lost b s` — what is lost when `s` is cut to two digits, folded and cut to one.
-/
import Mathlib.Tactic

namespace OnesComplement

variable {b s r : ℕ}

/-- The high part carried around to the low digit. -/
def fold (b s : ℕ) : ℕ := s / b + s % b

/-- `r` is the one's-complement sum of `s`: a digit, congruent to `s` modulo
`b - 1`, and zero only when `s` is. -/
def IsSum (b s r : ℕ) : Prop := r < b ∧ r ≡ s [MOD b - 1] ∧ (r = 0 → s = 0)

instance (b s r : ℕ) : Decidable (IsSum b s r) :=
  inferInstanceAs (Decidable (_ ∧ (r % (b - 1) = s % (b - 1)) ∧ _))

theorem fold_lt (h : s < b * b) : fold b s + 1 < 2 * b := by
  have hb : 0 < b := by
    rcases Nat.eq_zero_or_pos b with rfl | hb
    · simp at h
    · exact hb
  have hhigh : s / b < b := Nat.div_lt_of_lt_mul h
  have hlow : s % b < b := Nat.mod_lt s hb
  unfold fold
  omega

/-- Carrying around loses a multiple of `b - 1`. -/
theorem fold_add_mul (hb : 1 ≤ b) : fold b s + (b - 1) * (s / b) = s := by
  have hdiv := Nat.div_add_mod s b
  obtain ⟨c, rfl⟩ : ∃ c, b = c + 1 := ⟨b - 1, by omega⟩
  rw [add_mul, one_mul] at hdiv
  rw [fold, Nat.add_sub_cancel]
  omega

theorem fold_modEq (hb : 1 ≤ b) : fold b s ≡ s [MOD b - 1] := by
  have h := fold_add_mul (s := s) hb
  calc fold b s ≡ fold b s + (b - 1) * (s / b) [MOD b - 1] := by
        rw [Nat.ModEq, Nat.add_mul_mod_self_left]
    _ = s := h

theorem fold_eq_zero (hb : 1 ≤ b) (h : fold b s = 0) : s = 0 := by
  have hhigh : s / b = 0 := (Nat.add_eq_zero_iff.mp h).1
  have hsum := fold_add_mul (s := s) hb
  rw [h, hhigh, mul_zero, add_zero] at hsum
  exact hsum.symm

/-- Cutting the fold of a two-digit sum to one digit is right exactly when
there is nothing to cut: a carry out of the fold is never added back. -/
theorem isSum_fold_iff (hb : 3 ≤ b) (h : s < b * b) :
    IsSum b s (fold b s % b) ↔ fold b s < b := by
  constructor
  · rintro ⟨-, hmod, -⟩
    by_contra hcarry
    have hlt := fold_lt h
    have hcut : fold b s % b = fold b s - b := by
      rw [Nat.mod_eq_sub_mod (by omega), Nat.mod_eq_of_lt (by omega)]
    -- the cut value is one less than the fold modulo `b - 1`
    have hstep : fold b s = fold b s - b + 1 + (b - 1) := by omega
    have hone : fold b s - b + 1 ≡ fold b s - b + 0 [MOD b - 1] := by
      calc fold b s - b + 1 ≡ fold b s - b + 1 + (b - 1) [MOD b - 1] := by
            rw [Nat.ModEq, Nat.add_mod_right]
        _ = fold b s := hstep.symm
        _ ≡ s [MOD b - 1] := fold_modEq (by omega)
        _ ≡ fold b s - b + 0 [MOD b - 1] := by
            rw [add_zero, ← hcut]
            exact hmod.symm
    have hzero : 1 % (b - 1) = 0 % (b - 1) := Nat.ModEq.add_left_cancel' _ hone
    rw [Nat.mod_eq_of_lt (by omega), Nat.zero_mod] at hzero
    omega
  · intro hlt
    rw [Nat.mod_eq_of_lt hlt]
    exact ⟨hlt, fold_modEq (by omega), fold_eq_zero (by omega)⟩

theorem isSum_pred_iff (hb : 2 ≤ b) : IsSum b s (b - 1) ↔ s % (b - 1) = 0 := by
  have hself : (b - 1) % (b - 1) = 0 := Nat.mod_self _
  constructor
  · rintro ⟨-, hmod, -⟩
    rw [← hself]
    exact hmod.symm
  · intro h
    exact ⟨by omega, hself.trans h.symm, fun hzero => by omega⟩

/-- One fold, cut to a digit, is the largest digit for the multiples of `b - 1` between
the least and the greatest sum of two digits. -/
theorem fold_eq_pred_iff (hb : 3 ≤ b) (h : s < b * b) :
    fold b s % b = b - 1 ↔ s % (b - 1) = 0 ∧ s ≠ 0 ∧ s + 1 ≠ b * b := by
  have hlt := fold_lt h
  have hmod : fold b s % (b - 1) = s % (b - 1) := fold_modEq (by omega)
  have hdiv := Nat.div_add_mod s b
  have hhigh : s / b < b := Nat.div_lt_of_lt_mul h
  have hlow : s % b < b := Nat.mod_lt s (by omega)
  have hsquare : b * b = b * (b - 1) + b := by
    obtain ⟨c, rfl⟩ : ∃ c, b = c + 1 := ⟨b - 1, by omega⟩
    rw [Nat.add_sub_cancel]
    ring
  constructor
  · intro hfold
    have hexact : fold b s = b - 1 := by
      rcases Nat.lt_or_ge (fold b s) b with hdigit | hcarry
      · rwa [Nat.mod_eq_of_lt hdigit] at hfold
      · rw [Nat.mod_eq_sub_mod hcarry, Nat.mod_eq_of_lt (by omega)] at hfold
        omega
    refine ⟨by rw [← hmod, hexact, Nat.mod_self], ?_, ?_⟩
    · rintro rfl
      rw [fold, Nat.zero_div, Nat.zero_mod] at hexact
      omega
    · intro hmax
      -- both digits are the largest
      have hquot : s / b = b - 1 := by
        rw [show s = b * (b - 1) + (b - 1) by omega, Nat.mul_add_div (by omega),
          Nat.div_eq_of_lt (by omega), add_zero]
      rw [fold, hquot] at hexact
      rw [hquot] at hdiv
      omega
  · rintro ⟨hzero, hpos, hmax⟩
    obtain ⟨k, hk⟩ := Nat.dvd_of_mod_eq_zero (hmod.trans hzero)
    have hk2 : k < 3 := by
      by_contra hge
      have hmul : (b - 1) * 3 ≤ (b - 1) * k := Nat.mul_le_mul_left _ (by omega)
      omega
    interval_cases k
    · exact absurd (fold_eq_zero (show 1 ≤ b by omega) (hk.trans (mul_zero _))) hpos
    · rw [hk, mul_one, Nat.mod_eq_of_lt (by omega)]
    · -- twice the largest digit is the fold of the greatest sum only
      rw [fold] at hk
      have hquot : s / b = b - 1 := by omega
      rw [hquot] at hdiv
      omega

/-- Without a carry out of the fold, adding the complement of the sum folds to
the largest digit. -/
theorem fold_add_complement (h : s < b * b) (hlt : fold b s < b) :
    s + (b - 1 - fold b s) < b * b ∧ fold b (s + (b - 1 - fold b s)) = b - 1 := by
  have hb : 0 < b := by omega
  have hhigh : s / b < b := Nat.div_lt_of_lt_mul h
  have hsum : s + (b - 1 - fold b s) = b * (s / b) + (b - 1 - s / b) := by
    have hdiv := Nat.div_add_mod s b
    unfold fold at hlt ⊢
    omega
  have hsmall : b - 1 - s / b < b :=
    lt_of_le_of_lt (Nat.sub_le _ _) (Nat.sub_lt hb one_pos)
  constructor
  · rw [hsum]
    calc b * (s / b) + (b - 1 - s / b) < b * (s / b) + b := Nat.add_lt_add_left hsmall _
      _ = b * (s / b + 1) := by ring
      _ ≤ b * b := Nat.mul_le_mul_left b hhigh
  · rw [hsum, fold, Nat.mul_add_div hb, Nat.div_eq_of_lt hsmall, Nat.mul_add_mod,
      Nat.mod_eq_of_lt hsmall]
    omega

/-- After a carry out of the fold, adding the complement of the cut sum folds
to the radix, whose low digit is zero, or runs out of the two digits. -/
theorem fold_add_complement_of_carry (h : s < b * b) (hcarry : b ≤ fold b s) :
    fold b ((s + (b - 1 - fold b s % b)) % (b * b)) % b = 0 := by
  have hb : 0 < b := by
    rcases Nat.eq_zero_or_pos b with rfl | hb
    · simp at h
    · exact hb
  have hhigh : s / b < b := Nat.div_lt_of_lt_mul h
  have hlt := fold_lt h
  have hcut : fold b s % b = fold b s - b := by
    rw [Nat.mod_eq_sub_mod (by omega), Nat.mod_eq_of_lt (by omega)]
  have hsum : s + (b - 1 - fold b s % b) = b * (s / b + 1) + (b - 1 - s / b) := by
    have hdiv := Nat.div_add_mod s b
    rw [hcut, mul_add, mul_one]
    unfold fold at hlt hcarry ⊢
    generalize s / b = q at hdiv hhigh hlt hcarry ⊢
    omega
  have hsmall : b - 1 - s / b < b :=
    lt_of_le_of_lt (Nat.sub_le _ _) (Nat.sub_lt hb one_pos)
  rw [hsum]
  rcases Nat.lt_or_ge (s / b + 1) b with hroom | hfull
  · have hfit : b * (s / b + 1) + (b - 1 - s / b) < b * b := by
      calc b * (s / b + 1) + (b - 1 - s / b) < b * (s / b + 1) + b :=
            Nat.add_lt_add_left hsmall _
        _ = b * (s / b + 1 + 1) := by ring
        _ ≤ b * b := Nat.mul_le_mul_left b hroom
    have hlast : s / b + 1 + 0 + (b - 1 - s / b) = b := by
      generalize s / b = q at hhigh
      omega
    rw [Nat.mod_eq_of_lt hfit, fold, Nat.mul_add_div hb, Nat.div_eq_of_lt hsmall,
      Nat.mul_add_mod, Nat.mod_eq_of_lt hsmall, hlast, Nat.mod_self]
  · have hlast : s / b + 1 = b := by omega
    rw [hlast, show b - 1 - s / b = 0 by omega, add_zero, Nat.mod_self]
    simp [fold]

/-- The carries out of two digits, and the one out of the fold. -/
def lost (b s : ℕ) : ℕ := s / (b * b) + fold b (s % (b * b)) / b

/-- What is lost makes the difference to the sum. -/
theorem cut_add_lost (hb : 1 ≤ b) :
    fold b (s % (b * b)) % b + lost b s ≡ s [MOD b - 1] := by
  have hone : b ≡ 1 [MOD b - 1] := by
    rw [Nat.ModEq, Nat.mod_eq_sub_mod (by omega : b ≥ b - 1), Nat.sub_sub_self hb]
  have hsquare : b * b ≡ 1 [MOD b - 1] := hone.mul hone
  -- a digit counts as much in any place
  calc fold b (s % (b * b)) % b + lost b s
      = fold b (s % (b * b)) % b + 1 * (fold b (s % (b * b)) / b) + 1 * (s / (b * b)) := by
        rw [lost]
        omega
    _ ≡ fold b (s % (b * b)) % b + b * (fold b (s % (b * b)) / b) + b * b * (s / (b * b))
          [MOD b - 1] :=
        (((Nat.ModEq.refl _).add (hone.symm.mul_right _)).add (hsquare.symm.mul_right _))
    _ = fold b (s % (b * b)) + b * b * (s / (b * b)) := by rw [Nat.mod_add_div]
    _ ≡ s % (b * b) + b * b * (s / (b * b)) [MOD b - 1] := (fold_modEq hb).add_right _
    _ = s := Nat.mod_add_div _ _

end OnesComplement
