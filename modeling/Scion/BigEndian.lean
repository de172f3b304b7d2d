/-
Big-endian numerals over byte lists.

A byte list read most significant byte first is a numeral in base 256.

* `beNat` is the number a byte list denotes;
* `beBytes n v` are the `n` bytes of `v`, reduced to that width, and `leBytes n v`
  the same from the other end;
* `beNat_beBytes`, `beBytes_beNat` — the two are inverse on `n` bytes;
* `beBytes_append` — cutting a numeral is division with remainder;
* `beNat_take` — a prefix of a numeral is a quotient.

Nothing here knows about packets: the codecs built on top speak only of
numbers and these lemmas turn the numbers into bytes.
-/
import Mathlib.Tactic

namespace BigEndian

/-- The number denoted by a byte list, most significant byte first. -/
def beNat : List UInt8 → ℕ
  | [] => 0
  | b :: bs => b.toNat * 256 ^ bs.length + beNat bs

/-- The low `n` bytes of `v`, most significant byte first. -/
def beBytes : ℕ → ℕ → List UInt8
  | 0, _ => []
  | n + 1, v => UInt8.ofNat (v / 256 ^ n) :: beBytes n v

/-- The bytes in little-endian order, as integers lie in memory. -/
def leBytes (n v : ℕ) : List UInt8 := (beBytes n v).reverse

@[simp] theorem beBytes_zero (v : ℕ) : beBytes 0 v = [] := rfl

@[simp] theorem length_beBytes (n v : ℕ) : (beBytes n v).length = n := by
  induction n with
  | zero => rfl
  | succ n ih => rw [beBytes, List.length_cons, ih]

theorem beNat_cons (b : UInt8) (bs : List UInt8) :
    beNat (b :: bs) = b.toNat * 256 ^ bs.length + beNat bs := rfl

theorem beNat_append (xs ys : List UInt8) :
    beNat (xs ++ ys) = beNat xs * 256 ^ ys.length + beNat ys := by
  induction xs with
  | nil => simp [beNat]
  | cons b xs ih =>
    rw [List.cons_append, beNat_cons, beNat_cons, ih, List.length_append, pow_add]
    ring

theorem beNat_lt (bs : List UInt8) : beNat bs < 256 ^ bs.length := by
  induction bs with
  | nil => simp [beNat]
  | cons b bs ih =>
    have hb : b.toNat < 256 := b.toNat_lt
    have hstep : (b.toNat + 1) * 256 ^ bs.length ≤ 256 * 256 ^ bs.length :=
      Nat.mul_le_mul_right _ hb
    rw [beNat_cons, List.length_cons, pow_succ]
    linarith

theorem beNat_beBytes (n v : ℕ) : beNat (beBytes n v) = v % 256 ^ n := by
  induction n with
  | zero => simp [beNat, Nat.mod_one]
  | succ n ih =>
    have hdigit : (UInt8.ofNat (v / 256 ^ n)).toNat = v / 256 ^ n % 256 := by
      simp
    rw [beBytes, beNat_cons, length_beBytes, ih, hdigit, pow_succ, Nat.mod_mul]
    ring

theorem beBytes_mod (n m v : ℕ) (h : n ≤ m) : beBytes n (v % 256 ^ m) = beBytes n v := by
  induction n with
  | zero => rfl
  | succ n ih =>
    obtain ⟨k, rfl⟩ : ∃ k, m = n + 1 + k := ⟨m - (n + 1), by omega⟩
    rw [beBytes, beBytes, ih (by omega)]
    congr 1
    apply UInt8.toNat_inj.mp
    rw [UInt8.toNat_ofNat', UInt8.toNat_ofNat', add_assoc, pow_add,
      Nat.mod_mul_right_div_self, Nat.mod_mod_of_dvd]
    exact ⟨256 ^ k, by rw [pow_add]; norm_num⟩

/-- Two byte lists of one length denote the same number only if equal. -/
theorem eq_of_beNat_eq : ∀ {xs ys : List UInt8}, xs.length = ys.length →
    beNat xs = beNat ys → xs = ys := by
  intro xs
  induction xs with
  | nil =>
    intro ys hlen _
    exact (List.length_eq_zero_iff.mp hlen.symm).symm
  | cons x xs ih =>
    intro ys hlen hval
    cases ys with
    | nil => simp at hlen
    | cons y ys =>
      have hlen' : xs.length = ys.length := by simpa using hlen
      rw [beNat_cons, beNat_cons, hlen'] at hval
      have hxs := beNat_lt xs
      have hys := beNat_lt ys
      rw [hlen'] at hxs
      have hpos : 0 < 256 ^ ys.length := by positivity
      have hhead : x.toNat = y.toNat := by
        have h1 : (x.toNat * 256 ^ ys.length + beNat xs) / 256 ^ ys.length = x.toNat := by
          rw [mul_comm, Nat.mul_add_div hpos, Nat.div_eq_of_lt hxs, add_zero]
        have h2 : (y.toNat * 256 ^ ys.length + beNat ys) / 256 ^ ys.length = y.toNat := by
          rw [mul_comm, Nat.mul_add_div hpos, Nat.div_eq_of_lt hys, add_zero]
        rw [← h1, ← h2, hval]
      rw [hhead] at hval
      rw [UInt8.toNat_inj.mp hhead, ih hlen' (by omega)]

theorem beBytes_beNat (bs : List UInt8) : beBytes bs.length (beNat bs) = bs := by
  refine eq_of_beNat_eq (length_beBytes _ _) ?_
  rw [beNat_beBytes, Nat.mod_eq_of_lt (beNat_lt bs)]

/-- Cutting a numeral: the leading `m` bytes are the quotient, the trailing
`n` bytes the remainder. -/
theorem beBytes_append (m n v : ℕ) :
    beBytes (m + n) v = beBytes m (v / 256 ^ n) ++ beBytes n v := by
  refine eq_of_beNat_eq (by simp) ?_
  rw [beNat_append, beNat_beBytes, beNat_beBytes, beNat_beBytes, length_beBytes,
    pow_add, mul_comm (256 ^ m), Nat.mod_mul]
  ring

theorem beNat_take (bs : List UInt8) (k : ℕ) :
    beNat (bs.take k) = beNat bs / 256 ^ (bs.length - k) := by
  have hsplit := beNat_append (bs.take k) (bs.drop k)
  rw [List.take_append_drop, List.length_drop] at hsplit
  have hlt := beNat_lt (bs.drop k)
  rw [List.length_drop] at hlt
  rw [hsplit, mul_comm, Nat.mul_add_div (by positivity), Nat.div_eq_of_lt hlt, add_zero]

theorem beNat_replicate_zero (n : ℕ) : beNat (List.replicate n 0) = 0 := by
  induction n with
  | zero => rfl
  | succ n ih => rw [List.replicate_succ, beNat_cons, ih]; simp

/-- Appending zero bytes shifts the number. -/
theorem beNat_append_zeros (bs : List UInt8) (n : ℕ) :
    beNat (bs ++ List.replicate n 0) = beNat bs * 256 ^ n := by
  rw [beNat_append, beNat_replicate_zero, List.length_replicate, add_zero]

end BigEndian
