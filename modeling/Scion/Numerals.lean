/-
Numerals in a base of up to 36.

* `fromChars` — the longest numeral at the front of a text, read into a type of
  bounded size;
* `Spells` — the text is a numeral of the number;
* `spells_toDigits`, `spells_toUpper` — the numerals that are printed;
* `fromChars_eq_iff` — numerals, and nothing else, are read whole.
-/
import Mathlib.Algebra.Ring.Nat
import Mathlib.Data.List.Induction
import Mathlib.Data.List.TakeWhile
import Mathlib.Tactic.Common

namespace Numerals

/-- The value of a character as a digit; 36 for one that is no digit in any base. -/
def digitValue (c : Char) : ℕ :=
  if 48 ≤ c.toNat ∧ c.toNat ≤ 57 then c.toNat - 48
  else if 97 ≤ c.toNat ∧ c.toNat ≤ 122 then c.toNat - 97 + 10
  else if 65 ≤ c.toNat ∧ c.toNat ≤ 90 then c.toNat - 65 + 10
  else 36

/-- The number that the digits denote. -/
def value (base : ℕ) (digits : List Char) : ℕ :=
  digits.foldl (fun n c => base * n + digitValue c) 0

/-- `std::from_chars` for an unsigned type of numbers below `bound`: the text
behind the digits, and the number unless there are no digits or it is too large. -/
def fromChars (base bound : ℕ) (text : List Char) : List Char × Option ℕ :=
  let digits := text.takeWhile fun c => decide (digitValue c < base)
  (text.drop digits.length,
    if digits = [] then none
    else if value base digits < bound then some (value base digits)
    else none)

/-- The text is a numeral of `n`. -/
structure Spells (base : ℕ) (text : List Char) (n : ℕ) : Prop where
  ne_nil : text ≠ []
  digits : ∀ c ∈ text, digitValue c < base
  value_eq : value base text = n

theorem value_append (base : ℕ) (digits : List Char) (c : Char) :
    value base (digits ++ [c]) = base * value base digits + digitValue c := by
  rw [value, List.foldl_append]
  rfl

/-- A numeral is read back whole. -/
theorem Spells.fromChars {base bound : ℕ} {text : List Char} {n : ℕ} (h : Spells base text n)
    (hn : n < bound) : fromChars base bound text = ([], some n) := by
  have hall : text.takeWhile (fun c => decide (digitValue c < base)) = text :=
    List.takeWhile_eq_self_iff.mpr fun c hc => decide_eq_true (h.digits c hc)
  rw [Numerals.fromChars, hall, List.drop_length, if_neg h.ne_nil, h.value_eq, if_pos hn]

/-- Only numerals are read whole. -/
theorem fromChars_eq_iff {base bound : ℕ} {text : List Char} {n : ℕ} :
    fromChars base bound text = ([], some n) ↔ Spells base text n ∧ n < bound := by
  constructor
  · intro h
    rw [Numerals.fromChars, Prod.mk.injEq, List.drop_eq_nil_iff] at h
    obtain ⟨hlen, hn⟩ := h
    have hall : text.takeWhile (fun c => decide (digitValue c < base)) = text :=
      (List.takeWhile_prefix _).eq_of_length_le hlen
    rw [hall] at hn
    split_ifs at hn with hnil hlt
    refine ⟨⟨hnil, ?_, Option.some.inj hn⟩, (Option.some.inj hn) ▸ hlt⟩
    intro c hc
    exact of_decide_eq_true (List.takeWhile_eq_self_iff.mp hall c hc)
  · rintro ⟨h, hn⟩
    exact h.fromChars hn

/-- The size of a numeral of so many digits. -/
theorem value_lt {base : ℕ} {text : List Char} (hdigits : ∀ c ∈ text, digitValue c < base) :
    value base text < base ^ text.length := by
  induction text using List.reverseRecOn with
  | nil => exact Nat.one_pos
  | append_singleton text c ih =>
    have hprev := ih fun d hd => hdigits d (List.mem_append_left _ hd)
    have hlast := hdigits c (List.mem_append_right _ (List.mem_singleton_self c))
    rw [value_append, List.length_append, List.length_singleton, Nat.pow_succ']
    calc base * value base text + digitValue c < base * value base text + base := by omega
      _ = base * (value base text + 1) := (Nat.mul_succ _ _).symm
      _ ≤ base * base ^ text.length := Nat.mul_le_mul_left base hprev

theorem Spells.lt {base : ℕ} {text : List Char} {n : ℕ} (h : Spells base text n) :
    n < base ^ text.length :=
  h.value_eq ▸ value_lt h.digits

/-- A text is a numeral of one number. -/
theorem Spells.unique {base : ℕ} {text : List Char} {m n : ℕ} (hm : Spells base text m)
    (hn : Spells base text n) : m = n :=
  hm.value_eq.symm.trans hn.value_eq

/-! ### Printed numerals -/

theorem digitValue_digitChar {d : ℕ} (hd : d < 16) : digitValue d.digitChar = d := by
  have hall : ∀ d < 16, digitValue d.digitChar = d := by decide
  exact hall d hd

theorem digitValue_toUpper {d : ℕ} (hd : d < 16) : digitValue d.digitChar.toUpper = d := by
  have hall : ∀ d < 16, digitValue d.digitChar.toUpper = d := by decide
  exact hall d hd

/-- Digits that a function of characters keeps, as `Char.toUpper` does. -/
theorem spells_map_toDigits {base : ℕ} (hbase : 1 < base) {f : Char → Char}
    (hf : ∀ d < base, digitValue (f d.digitChar) = d) (n : ℕ) :
    Spells base ((Nat.toDigits base n).map f) n := by
  induction n using Nat.strongRecOn with
  | ind n ih =>
    rw [Nat.toDigits_eq_if hbase]
    by_cases hlt : n < base
    · rw [if_pos hlt]
      refine ⟨by simp, fun c hc => ?_, ?_⟩
      · rw [List.map_singleton, List.mem_singleton] at hc
        rw [hc, hf n hlt]
        exact hlt
      · show base * 0 + digitValue (f n.digitChar) = n
        rw [hf n hlt, Nat.mul_zero, Nat.zero_add]
    · -- the last digit comes off the end
      have hmod : n % base < base := Nat.mod_lt n (by omega)
      have hprev := ih (n / base) (Nat.div_lt_self (by omega) hbase)
      rw [if_neg hlt, List.map_append, List.map_singleton]
      refine ⟨by simp, fun c hc => ?_, ?_⟩
      · rcases List.mem_append.mp hc with hc | hc
        · exact hprev.digits c hc
        · rw [List.mem_singleton.mp hc, hf _ hmod]
          exact hmod
      · rw [value_append, hprev.value_eq, hf _ hmod, Nat.div_add_mod]

theorem spells_toDigits {base : ℕ} (hbase : 1 < base) (hle : base ≤ 16) (n : ℕ) :
    Spells base (Nat.toDigits base n) n := by
  have h := spells_map_toDigits hbase (f := id)
    (fun d hd => digitValue_digitChar (Nat.lt_of_lt_of_le hd hle)) n
  rwa [List.map_id] at h

theorem spells_toUpper {base : ℕ} (hbase : 1 < base) (hle : base ≤ 16) (n : ℕ) :
    Spells base ((Nat.toDigits base n).map Char.toUpper) n :=
  spells_map_toDigits hbase (fun _ hd => digitValue_toUpper (Nat.lt_of_lt_of_le hd hle)) n

end Numerals
