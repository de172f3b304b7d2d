/-
The bits that bit stream operations write and read (`bit_stream.hpp`).

A position is counted in bits from the first byte's most significant bit. The
operations are described from any position of any buffer: what they overwrite,
and what they leave of what the buffer held before.

* `bitAt` — a bit of a buffer, and `testBit_bitsAt` — a field as its bits;
* `Puts` — a field is written: the bits that the byte of the position still holds
  behind it are merged with the field;
* `WriteStream.puts_serializeBits`, `puts_advanceBits`, `puts_putAligned` — the
  operations that write a field, and `advanceBytes_off` — the one that does not;
* `ReadStream.serializeBits_atBit` and its like — what is read there.
-/
import Mathlib.Data.List.GetD
import Scion.BitStream

namespace Scion

open BigEndian Codec

/-! ### Bits of a buffer -/

/-- Bit `i` of the buffer, 0 past its end. -/
def bitAt (data : List UInt8) (i : ℕ) : Bool := (data.getD (i / 8) 0).toNat.testBit (7 - i % 8)

theorem bitAt_congr {xs ys : List UInt8} {i j : ℕ} (hmod : i % 8 = j % 8)
    (h : xs.getD (i / 8) 0 = ys.getD (j / 8) 0) : bitAt xs i = bitAt ys j := by
  rw [bitAt, bitAt, hmod, h]

theorem testBit_beNat (bs : List UInt8) {i : ℕ} (h : i < 8 * bs.length) :
    (beNat bs).testBit (8 * bs.length - 1 - i) = bitAt bs i := by
  induction bs generalizing i with
  | nil => simp at h
  | cons b bs ih =>
    have hlt := beNat_lt bs
    have hpow : (256 : ℕ) ^ bs.length = 2 ^ (8 * bs.length) := by
      rw [show (256 : ℕ) = 2 ^ 8 from rfl, ← pow_mul]
    rw [hpow] at hlt
    rw [List.length_cons] at h
    rw [beNat, hpow, mul_comm, Nat.testBit_two_pow_mul_add _ hlt, List.length_cons]
    by_cases hi : i < 8
    · rw [if_neg (by omega), bitAt, Nat.div_eq_of_lt hi, List.getD_cons_zero, Nat.mod_eq_of_lt hi,
        show 8 * (bs.length + 1) - 1 - i - 8 * bs.length = 7 - i by omega]
    · have hrest := ih (show i - 8 < 8 * bs.length by omega)
      rw [if_pos (by omega), show 8 * (bs.length + 1) - 1 - i = 8 * bs.length - 1 - (i - 8) by omega,
        hrest]
      refine bitAt_congr (by omega) ?_
      rw [show i / 8 = (i - 8) / 8 + 1 by omega, List.getD_cons_succ]

theorem bitAt_beBytes {m v i : ℕ} (h : i < 8 * m) :
    bitAt (beBytes m v) i = v.testBit (8 * m - 1 - i) := by
  have hpow : (256 : ℕ) ^ m = 2 ^ (8 * m) := by
    rw [show (256 : ℕ) = 2 ^ 8 from rfl, ← pow_mul]
  have hbit := testBit_beNat (beBytes m v) (i := i) (by rwa [length_beBytes])
  rw [← hbit, beNat_beBytes, length_beBytes, hpow, Nat.testBit_mod_two_pow,
    decide_eq_true (by omega), Bool.true_and]

/-- The bits of a field, the last one first. -/
theorem testBit_bitsAt {data : List UInt8} {P n : ℕ} (h : P + n ≤ 8 * data.length) (j : ℕ) :
    (ReadStream.bitsAt data P n).testBit j = (decide (j < n) && bitAt data (P + n - 1 - j)) := by
  rw [ReadStream.bitsAt, Nat.testBit_mod_two_pow, Nat.testBit_div_two_pow]
  by_cases hj : j < n
  · rw [decide_eq_true hj, Bool.true_and, Bool.true_and,
      ← testBit_beNat data (show P + n - 1 - j < 8 * data.length by omega)]
    congr 1
    omega
  · rw [decide_eq_false hj, Bool.false_and, Bool.false_and]

theorem bitsAt_lt (data : List UInt8) (P n : ℕ) : ReadStream.bitsAt data P n < 2 ^ n :=
  Nat.mod_lt _ (by positivity)

/-- A field of whole bytes on a byte boundary. -/
theorem bitsAt_bytesAt (data : List UInt8) {k m : ℕ} (h : k + m ≤ data.length) :
    ReadStream.bitsAt data (8 * k) (8 * m) = beNat ((data.drop k).take m) := by
  have hlen : ((data.drop k).take m).length = m := by
    rw [List.length_take, List.length_drop]
    omega
  refine Nat.eq_of_testBit_eq fun j => ?_
  rw [testBit_bitsAt (by omega)]
  by_cases hj : j < 8 * m
  · have hbit := testBit_beNat ((data.drop k).take m) (i := 8 * m - 1 - j) (by omega)
    rw [hlen, show 8 * m - 1 - (8 * m - 1 - j) = j by omega] at hbit
    rw [decide_eq_true hj, Bool.true_and, hbit]
    refine bitAt_congr (by omega) ?_
    rw [List.getD_eq_getElem?_getD, List.getD_eq_getElem?_getD,
      List.getElem?_take_of_lt (by omega), List.getElem?_drop]
    congr 2
    omega
  · have hlt := beNat_lt ((data.drop k).take m)
    have hpow : (256 : ℕ) ^ m = 2 ^ (8 * m) := by
      rw [show (256 : ℕ) = 2 ^ 8 from rfl, ← pow_mul]
    rw [hlen, hpow] at hlt
    rw [decide_eq_false hj, Bool.false_and, Nat.testBit_lt_two_pow]
    exact lt_of_lt_of_le hlt (Nat.pow_le_pow_right (by norm_num) (by omega))

/-- The bits of a buffer in which bytes were overwritten. -/
theorem bitAt_put (ws : WriteStream) {bytes : List UInt8}
    (h : ws.bytePos + bytes.length ≤ ws.data.length) (i : ℕ) :
    bitAt (ws.put bytes) i =
      if 8 * ws.bytePos ≤ i ∧ i < 8 * (ws.bytePos + bytes.length)
        then bitAt bytes (i - 8 * ws.bytePos) else bitAt ws.data i := by
  have htake : (ws.data.take ws.bytePos).length = ws.bytePos := by
    rw [List.length_take]
    omega
  rw [WriteStream.put, List.append_assoc]
  by_cases hbefore : i < 8 * ws.bytePos
  · rw [if_neg (by omega)]
    refine bitAt_congr rfl ?_
    rw [List.getD_append _ _ _ _ (by omega), List.getD_eq_getElem?_getD,
      List.getElem?_take_of_lt (by omega), ← List.getD_eq_getElem?_getD]
  · by_cases hin : i < 8 * (ws.bytePos + bytes.length)
    · rw [if_pos (by omega)]
      refine bitAt_congr (by omega) ?_
      rw [List.getD_append_right _ _ _ _ (by omega), htake, List.getD_append _ _ _ _ (by omega)]
      congr 1
      omega
    · rw [if_neg (by omega)]
      refine bitAt_congr rfl ?_
      rw [List.getD_append_right _ _ _ _ (by omega), htake,
        List.getD_append_right _ _ _ _ (by omega), List.getD_eq_getElem?_getD, List.getElem?_drop,
        ← List.getD_eq_getElem?_getD]
      congr 1
      omega

theorem length_put {ws : WriteStream} {bytes : List UInt8}
    (h : ws.bytePos + bytes.length ≤ ws.data.length) : (ws.put bytes).length = ws.data.length := by
  rw [WriteStream.put, List.length_append, List.length_append, List.length_take, List.length_drop]
  omega

/-! ### Writing a field -/

/-- What the byte of position `P` holds behind it, when `P` is not on a byte
boundary. -/
def tailBit (data : List UInt8) (P i : ℕ) : Bool :=
  decide (P % 8 ≠ 0 ∧ i / 8 = P / 8) && bitAt data i

/-- The field `v` of `n` bits is written at `P`: it is merged with the tail of
the byte of `P`, and the byte in which it ends keeps this tail, if it is the same,
and is zero behind the field if it is not. -/
structure Puts (data data' : List UInt8) (P n v : ℕ) : Prop where
  length : data'.length = data.length
  before : ∀ i < P, bitAt data' i = bitAt data i
  field : ∀ i, P ≤ i → i < P + n →
    bitAt data' i = (v.testBit (P + n - 1 - i) || tailBit data P i)
  rest : ∀ i, P + n ≤ i → i < 8 * ((P + n + 7) / 8) → bitAt data' i = tailBit data P i
  behind : ∀ i, P + n ≤ i → 8 * ((P + n + 7) / 8) ≤ i → bitAt data' i = bitAt data i

theorem Puts.zero (data : List UInt8) (P : ℕ) : Puts data data P 0 0 := by
  refine ⟨rfl, fun i _ => rfl, fun i _ _ => by omega, fun i hi hi' => ?_, fun i _ _ => rfl⟩
  rw [tailBit, decide_eq_true (by omega), Bool.true_and]

/-- Zeros behind zeros. -/
theorem Puts.trans {data data₁ data₂ : List UInt8} {P m n : ℕ} (h₁ : Puts data data₁ P m 0)
    (h₂ : Puts data₁ data₂ (P + m) n 0) : Puts data data₂ P (m + n) 0 := by
  have hfield₁ : ∀ i, P ≤ i → i < 8 * ((P + m + 7) / 8) → bitAt data₁ i = tailBit data P i := by
    intro i hi hi'
    by_cases hm : i < P + m
    · rw [h₁.field i hi hm, Nat.zero_testBit, Bool.false_or]
    · exact h₁.rest i (by omega) hi'
  -- behind the first zeros the byte has the tail of the byte of `P`, if it is the same
  have htail : ∀ i, P + m ≤ i → i < 8 * ((P + (m + n) + 7) / 8) →
      tailBit data₁ (P + m) i = tailBit data P i := by
    intro i hi hi'
    by_cases hsame : P % 8 ≠ 0 ∧ i / 8 = P / 8
    · rw [tailBit, decide_eq_true (by omega), Bool.true_and, hfield₁ i (by omega) (by omega)]
    · have hnone : tailBit data P i = false := by rw [tailBit, decide_eq_false hsame, Bool.false_and]
      by_cases hbyte : (P + m) % 8 ≠ 0 ∧ i / 8 = (P + m) / 8
      · rw [tailBit, decide_eq_true hbyte, Bool.true_and, hfield₁ i (by omega) (by omega)]
      · rw [hnone, tailBit, decide_eq_false hbyte, Bool.false_and]
  refine ⟨h₂.length.trans h₁.length, fun i hi => ?_, fun i hi hi' => ?_, fun i hi hi' => ?_,
    fun i hi hi' => ?_⟩
  · rw [h₂.before i (by omega), h₁.before i hi]
  · rw [Nat.zero_testBit, Bool.false_or]
    by_cases hm : i < P + m
    · rw [h₂.before i hm, hfield₁ i hi (by omega)]
    · rw [h₂.field i (by omega) (by omega), Nat.zero_testBit, Bool.false_or,
        htail i (by omega) (by omega)]
  · rw [h₂.rest i (by omega) (by omega), htail i (by omega) hi']
  · rw [h₂.behind i (by omega) (by omega), h₁.behind i (by omega) (by omega)]

namespace WriteStream

/-- The stream at bit `P` of the buffer. -/
def atBit (data : List UInt8) (P : ℕ) : WriteStream := ⟨data, P / 8, P % 8⟩

@[simp] theorem data_atBit (data : List UInt8) (P : ℕ) : (atBit data P).data = data := rfl

@[simp] theorem bytePos_atBit (data : List UInt8) (P : ℕ) : (atBit data P).bytePos = P / 8 := rfl

@[simp] theorem bitPos_atBit (data : List UInt8) (P : ℕ) : (atBit data P).bitPos = P % 8 := rfl

@[simp] theorem remaining_atBit (data : List UInt8) (P : ℕ) :
    (atBit data P).remaining = data.length - P / 8 := rfl

theorem eq_atBit {data : List UInt8} {bytePos bitPos P : ℕ} (hbyte : bytePos = P / 8)
    (hbit : bitPos = P % 8) : (⟨data, bytePos, bitPos⟩ : WriteStream) = atBit data P := by
  subst hbyte hbit
  rfl

theorem toNat_ofNat_mod {k : ℕ} (hk : k < 64) : (UInt64.ofNat k).toNat % 64 = k := by
  rw [UInt64.toNat_ofNat']
  omega

/-- The working word of `serializeBits`, from its first bit. -/
theorem testBit_mergeWord (value : UInt64) (c : UInt8) {n b i : ℕ} (hn : 1 ≤ n)
    (hnb : n + b ≤ 64) (hb : b ≤ 8) (hi : i < 64) :
    (if b ≠ 0 then (value <<< UInt64.ofNat (64 - n) >>> UInt64.ofNat b) ||| (c.toUInt64 <<< 56)
        else value <<< UInt64.ofNat (64 - n)).toNat.testBit (63 - i)
      = ((decide (b ≤ i ∧ i < b + n) && value.toNat.testBit (b + n - 1 - i))
        || (decide (b ≠ 0 ∧ i < 8) && c.toNat.testBit (7 - i))) := by
  -- the new bits, moved to the front and then behind the occupied ones
  have hnew : (value <<< UInt64.ofNat (64 - n)).toNat.testBit (b + (63 - i))
      = (decide (b ≤ i ∧ i < b + n) && value.toNat.testBit (b + n - 1 - i)) := by
    rw [UInt64.toNat_shiftLeft, toNat_ofNat_mod (by omega), Nat.testBit_mod_two_pow,
      Nat.testBit_shiftLeft, show b + (63 - i) - (64 - n) = b + n - 1 - i by omega,
      ← Bool.and_assoc, ← Bool.decide_and]
    congr 2
    exact propext (by omega)
  by_cases hb0 : b = 0
  · subst hb0
    rw [if_neg (by omega)]
    rw [Nat.zero_add] at hnew
    rw [hnew, decide_eq_false (show ¬(0 ≠ 0 ∧ i < 8) by omega), Bool.false_and, Bool.or_false]
  · have hold : (c.toUInt64 <<< 56).toNat.testBit (63 - i)
        = (decide (i < 8) && c.toNat.testBit (7 - i)) := by
      rw [UInt64.toNat_shiftLeft, UInt8.toNat_toUInt64, show (56 : UInt64).toNat % 64 = 56 from rfl,
        Nat.testBit_mod_two_pow, Nat.testBit_shiftLeft, show 63 - i - 56 = 7 - i by omega,
        ← Bool.and_assoc, ← Bool.decide_and]
      congr 2
      exact propext (by omega)
    rw [if_pos hb0, UInt64.toNat_or, Nat.testBit_or, UInt64.toNat_shiftRight,
      toNat_ofNat_mod (by omega), Nat.testBit_shiftRight, hnew, hold]
    congr 3
    exact propext (by omega)

/-- The word that is copied holds the occupied bits of the current byte and, behind them, the
value. -/
theorem bitAt_mergeWord {n : ℕ} (value : UInt64) (data : List UInt8) (P : ℕ) (hn : 1 ≤ n)
    (hmax : n ≤ 57) {i : ℕ} (hi : 8 * (P / 8) ≤ i)
    (hi' : i < 8 * (P / 8 + (n + P % 8 + 7) / 8)) :
    bitAt ((beBytes 8 (if P % 8 ≠ 0 then
        (value <<< UInt64.ofNat (64 - n) >>> UInt64.ofNat (P % 8)) |||
          ((data.getD (P / 8) 0).toUInt64 <<< 56)
      else value <<< UInt64.ofNat (64 - n)).toNat).take ((n + P % 8 + 7) / 8)) (i - 8 * (P / 8))
      = ((decide (P ≤ i ∧ i < P + n) && (value.toNat % 2 ^ n).testBit (P + n - 1 - i))
        || tailBit data P i) := by
  set word := (if P % 8 ≠ 0 then
      (value <<< UInt64.ofNat (64 - n) >>> UInt64.ofNat (P % 8)) |||
        ((data.getD (P / 8) 0).toUInt64 <<< 56)
    else value <<< UInt64.ofNat (64 - n)) with hword
  have hbytes : bitAt ((beBytes 8 word.toNat).take ((n + P % 8 + 7) / 8)) (i - 8 * (P / 8))
      = bitAt (beBytes 8 word.toNat) (i - 8 * (P / 8)) := by
    refine bitAt_congr rfl ?_
    rw [List.getD_eq_getElem?_getD, List.getElem?_take_of_lt (by omega),
      ← List.getD_eq_getElem?_getD]
  have hmerge := testBit_mergeWord value (data.getD (P / 8) 0) (i := i - 8 * (P / 8)) hn
    (by omega) (show P % 8 ≤ 8 by omega) (by omega)
  rw [hbytes, bitAt_beBytes (by omega), show 8 * 8 - 1 - (i - 8 * (P / 8))
    = 63 - (i - 8 * (P / 8)) by omega, hword, hmerge]
  congr 1
  · by_cases hin : P ≤ i ∧ i < P + n
    · rw [decide_eq_true (by omega), decide_eq_true hin, Nat.testBit_mod_two_pow,
        decide_eq_true (by omega), Bool.true_and, Bool.true_and, Bool.true_and]
      congr 1
      omega
    · rw [decide_eq_false (by omega), decide_eq_false hin, Bool.false_and, Bool.false_and]
  · by_cases htail : P % 8 ≠ 0 ∧ i / 8 = P / 8
    · rw [tailBit, decide_eq_true (by omega), decide_eq_true htail, bitAt, htail.2]
      congr 2
      omega
    · rw [tailBit, decide_eq_false (by omega), decide_eq_false htail, Bool.false_and,
        Bool.false_and]

theorem puts_serializeBits {valueBits n : ℕ} {value : UInt64} {data : List UInt8} {P : ℕ}
    {s : WriteStream} (hn : 1 ≤ n)
    (h : serializeBits valueBits value n (atBit data P) = .ok () s) :
    n ≤ min 57 valueBits ∧ P + n ≤ 8 * data.length ∧
      ∃ data', s = atBit data' (P + n) ∧ Puts data data' P n (value.toNat % 2 ^ n) := by
  rw [serializeBits, if_neg (by omega)] at h
  by_cases hmax : n > min (64 - 7) valueBits
  · rw [if_pos hmax] at h
    cases h
  rw [if_neg hmax] at h
  have hbit (i : ℕ) (hi : 8 * (P / 8) ≤ i) (hi' : i < 8 * (P / 8 + (n + P % 8 + 7) / 8)) :=
    bitAt_mergeWord value data P hn (by omega) hi hi'
  set m := (n + P % 8 + 7) / 8 with hm
  set word := (if P % 8 ≠ 0 then
      (value <<< UInt64.ofNat (64 - n) >>> UInt64.ofNat (P % 8)) |||
        ((data.getD (P / 8) 0).toUInt64 <<< 56)
    else value <<< UInt64.ofNat (64 - n)) with hword
  change (if data.length - P / 8 < m then .error "out of space" (atBit data P)
    else .ok () ⟨(atBit data P).put ((beBytes 8 word.toNat).take m), P / 8 + (P % 8 + n) / 8,
      (P % 8 + n) % 8⟩ : EStateM.Result String WriteStream Unit) = .ok () s at h
  by_cases hroom : data.length - P / 8 < m
  · rw [if_pos hroom] at h
    cases h
  rw [if_neg hroom] at h
  cases h
  have hlen : ((beBytes 8 word.toNat).take m).length = m := by
    rw [List.length_take, length_beBytes]
    omega
  have hfit : P / 8 + ((beBytes 8 word.toNat).take m).length ≤ data.length := by
    rw [hlen]
    omega
  have hput := bitAt_put (atBit data P) hfit
  rw [hlen, bytePos_atBit, data_atBit] at hput
  refine ⟨by omega, by omega, (atBit data P).put ((beBytes 8 word.toNat).take m), ?_,
    ⟨length_put hfit, fun i hi => ?_, fun i hi hi' => ?_, fun i hi hi' => ?_,
      fun i hi hi' => ?_⟩⟩
  · exact eq_atBit (by omega) (by omega)
  · rw [hput]
    by_cases hbyte : 8 * (P / 8) ≤ i
    · -- occupied bits of the current byte are merged back
      rw [if_pos (by omega), hbit i hbyte (by omega), decide_eq_false (by omega), Bool.false_and,
        Bool.false_or, tailBit, decide_eq_true (by omega), Bool.true_and]
    · rw [if_neg (by omega)]
  · rw [hput]
    rw [if_pos (by omega), hbit i (by omega) (by omega), decide_eq_true ⟨hi, hi'⟩, Bool.true_and]
  · rw [hput]
    rw [if_pos (by omega), hbit i (by omega) (by omega), decide_eq_false (by omega),
      Bool.false_and, Bool.false_or]
  · rw [hput]
    rw [if_neg (by omega)]

/-- Zero words, one after another. -/
theorem puts_advanceWords (k : ℕ) {data : List UInt8} {P : ℕ} {s : WriteStream}
    (h : advanceWords k (atBit data P) = .ok () s) :
    ∃ data', s = atBit data' (P + 32 * k) ∧ Puts data data' P (32 * k) 0 := by
  induction k generalizing data P with
  | zero =>
    cases h
    exact ⟨data, rfl, Puts.zero data P⟩
  | succ k ih =>
    rw [advanceWords] at h
    obtain ⟨_, s₁, hword, hrest⟩ := bind_eq_ok.mp h
    obtain ⟨_, _, data₁, rfl, hputs₁⟩ := puts_serializeBits (by norm_num) hword
    obtain ⟨data₂, rfl, hputs₂⟩ := ih hrest
    refine ⟨data₂, by rw [show P + 32 * (k + 1) = P + 32 + 32 * k by omega], ?_⟩
    rw [show 32 * (k + 1) = 32 + 32 * k by omega]
    exact Puts.trans hputs₁ hputs₂

theorem puts_advanceBits {n : ℕ} {data : List UInt8} {P : ℕ} {s : WriteStream}
    (h : advanceBits n (atBit data P) = .ok () s) :
    (n + P % 8 + 7) / 8 ≤ data.length - P / 8 ∧
      ∃ data', s = atBit data' (P + n) ∧ Puts data data' P n 0 := by
  rw [advanceBits, remaining_atBit, bitPos_atBit] at h
  by_cases hroom : data.length - P / 8 < (n + P % 8 + 7) / 8
  · rw [if_pos hroom] at h
    cases h
  rw [if_neg hroom] at h
  refine ⟨by omega, ?_⟩
  obtain ⟨_, s₁, hwords, hbits⟩ := bind_eq_ok.mp h
  obtain ⟨data₁, rfl, hputs₁⟩ := puts_advanceWords _ hwords
  have hn : n = 32 * (n / 32) + n % 32 := (Nat.div_add_mod n 32).symm
  by_cases hzero : n % 32 = 0
  · rw [hzero] at hbits
    cases hbits
    rw [hzero, add_zero] at hn
    exact ⟨data₁, by rw [← hn], by rwa [← hn] at hputs₁⟩
  · obtain ⟨_, _, data₂, rfl, hputs₂⟩ := puts_serializeBits (by omega) hbits
    refine ⟨data₂, by rw [add_assoc, ← hn], ?_⟩
    have hputs := hputs₁.trans (n := n % 32) (by
      rwa [show (0 : UInt64).toNat % 2 ^ (n % 32) = 0 by simp] at hputs₂)
    rwa [← hn] at hputs

theorem puts_putAligned {bytes data : List UInt8} {P : ℕ} {s : WriteStream} (hP : P % 8 = 0)
    (h : putAligned bytes (atBit data P) = .ok () s) :
    bytes.length ≤ data.length - P / 8 ∧
      ∃ data', s = atBit data' (P + 8 * bytes.length) ∧
        Puts data data' P (8 * bytes.length) (beNat bytes) := by
  rw [putAligned, remaining_atBit] at h
  by_cases hroom : data.length - P / 8 < bytes.length
  · rw [if_pos hroom] at h
    cases h
  rw [if_neg hroom] at h
  cases h
  refine ⟨by omega, (atBit data P).put bytes, ?_, ?_⟩
  · exact eq_atBit (by rw [bytePos_atBit]; omega) (by rw [bitPos_atBit]; omega)
  by_cases hempty : bytes.length = 0
  · rw [List.length_eq_zero_iff] at hempty
    subst hempty
    have hsame : (atBit data P).put [] = data := by simp [put]
    rw [hsame]
    exact Puts.zero data P
  have hfit : P / 8 + bytes.length ≤ data.length := by omega
  have hput := bitAt_put (atBit data P) hfit
  rw [bytePos_atBit, data_atBit] at hput
  refine ⟨length_put hfit, fun i hi => ?_, fun i hi hi' => ?_, fun i hi hi' => by omega,
    fun i hi _ => ?_⟩
  · rw [hput, if_neg (by omega)]
  · have hnumeral := testBit_beNat bytes (i := i - P) (by omega)
    rw [hput, if_pos (by omega), show i - 8 * (P / 8) = i - P by omega, ← hnumeral, tailBit,
      decide_eq_false (by omega), Bool.false_and, Bool.or_false]
    congr 1
    omega
  · rw [hput, if_neg (by omega)]

/-- Off a byte boundary `advanceBytes` moves twice and leaves the byte in which it
stops as it was. -/
theorem advanceBytes_off {n : ℕ} {data : List UInt8} {P : ℕ} {s : WriteStream} (hP : P % 8 ≠ 0)
    (hn : 1 ≤ n) (h : advanceBytes n (atBit data P) = .ok () s) :
    P / 8 + 2 * n ≤ data.length ∧ P / 8 + n + 1 ≤ data.length ∧
      ∃ data', s = atBit data' (P + 16 * n) ∧ data'.length = data.length ∧
        (∀ i < P, bitAt data' i = bitAt data i) ∧
        ∀ i, 8 * ((P + 16 * n) / 8) ≤ i → bitAt data' i = bitAt data i := by
  rw [advanceBytes, if_pos (by rwa [bitPos_atBit])] at h
  obtain ⟨_, s₁, hbits, hfill⟩ := bind_eq_ok.mp h
  obtain ⟨hroom, data₁, rfl, hputs⟩ := puts_advanceBits hbits
  rw [putAligned, remaining_atBit, List.length_replicate] at hfill
  have hlen := hputs.length
  by_cases hfull : data₁.length - (P + 8 * n) / 8 < n
  · rw [if_pos hfull] at hfill
    cases hfill
  rw [if_neg hfull] at hfill
  cases hfill
  have hfit : (P + 8 * n) / 8 + (List.replicate n (0 : UInt8)).length ≤ data₁.length := by
    rw [List.length_replicate]
    omega
  have hput := bitAt_put (atBit data₁ (P + 8 * n)) hfit
  rw [bytePos_atBit, data_atBit, List.length_replicate] at hput
  refine ⟨by omega, by omega, (atBit data₁ (P + 8 * n)).put (List.replicate n 0), ?_, ?_,
    fun i hi => ?_, fun i hi => ?_⟩
  · exact eq_atBit (by rw [bytePos_atBit]; omega) (by rw [bitPos_atBit]; omega)
  · rw [length_put hfit, data_atBit, hlen]
  · rw [hput, if_neg (by omega), hputs.before i hi]
  · rw [hput, if_neg (by omega), hputs.behind i (by omega) (by omega)]

end WriteStream

/-! ### Reading at a bit -/

namespace ReadStream

/-- The stream at bit `P` of the buffer. -/
def atBit (data : List UInt8) (P : ℕ) : ReadStream := ⟨data, P / 8, P % 8⟩

@[simp] theorem bitPos_atBit (data : List UInt8) (P : ℕ) : (atBit data P).bitPos = P % 8 := rfl

@[simp] theorem remaining_atBit (data : List UInt8) (P : ℕ) :
    (atBit data P).remaining = data.length - P / 8 := rfl

theorem bitCursor_nil (data : List UInt8) (P : ℕ) : bitCursor [] data P = atBit data P := by
  rw [bitCursor, atBit, List.nil_append, List.length_nil, zero_add]

theorem advance_atBit {data : List UInt8} {P m n : ℕ} (h : 8 * m = n) :
    (atBit data P).advance m = atBit data (P + n) := by
  subst h
  rw [advance, atBit, atBit, show (P + 8 * m) / 8 = P / 8 + m by omega,
    show (P + 8 * m) % 8 = P % 8 by omega]

/-- Whole bytes at a byte boundary are the bits there. -/
theorem beNat_next {data : List UInt8} {P m n : ℕ} (hP : P % 8 = 0)
    (hroom : m ≤ data.length - P / 8) (hm : 1 ≤ m) (h : 8 * m = n) :
    beNat ((atBit data P).next m) = bitsAt data P n := by
  subst h
  have hbits := bitsAt_bytesAt data (k := P / 8) (m := m) (by omega)
  rw [show 8 * (P / 8) = P by omega] at hbits
  exact hbits.symm

theorem serializeBits_atBit (valueBits : ℕ) {n P : ℕ} (data : List UInt8)
    (hmax : n ≤ min 57 valueBits)
    (hroom : 1 ≤ n → P + n ≤ 8 * data.length) :
    serializeBits valueBits n (atBit data P)
      = .ok (UInt64.ofNat (bitsAt data P n)) (atBit data (P + n)) := by
  by_cases hn : 1 ≤ n
  · rw [← bitCursor_nil, ← bitCursor_nil]
    exact serializeBits_run valueBits n P [] data hn hmax (hroom hn)
  · obtain rfl : n = 0 := by omega
    rw [serializeBits, if_pos rfl, bitsAt, pow_zero, Nat.mod_one]
    rfl

theorem advanceWords_atBit (k : ℕ) {P : ℕ} {data : List UInt8}
    (hroom : 1 ≤ k → P + 32 * k ≤ 8 * data.length) :
    advanceWords k (atBit data P) = .ok () (atBit data (P + 32 * k)) := by
  induction k generalizing P with
  | zero => rfl
  | succ k ih =>
    have hword := serializeBits_atBit 32 data (n := 32) (P := P) (by norm_num) (by omega)
    rw [advanceWords, bind_ok hword, ih (by omega)]
    congr 2
    omega

theorem advanceBits_atBit {n P : ℕ} (data : List UInt8)
    (hroom : (n + P % 8 + 7) / 8 ≤ data.length - P / 8) :
    advanceBits n (atBit data P) = .ok () (atBit data (P + n)) := by
  have hn : 32 * (n / 32) + n % 32 = n := Nat.div_add_mod n 32
  have hbits := serializeBits_atBit 32 data (n := n % 32) (P := P + 32 * (n / 32))
    (by omega) (by omega)
  rw [advanceBits, if_neg (by rw [remaining_atBit, bitPos_atBit]; omega),
    bind_ok (advanceWords_atBit (n / 32) (by omega)), bind_ok hbits, add_assoc, hn]
  rfl

theorem advanceBytes_off {n P : ℕ} (data : List UInt8) (hP : P % 8 ≠ 0) (hn : 1 ≤ n)
    (hroom : P / 8 + 2 * n ≤ data.length) (hroom' : P / 8 + n + 1 ≤ data.length) :
    advanceBytes n (atBit data P) = .ok () (atBit data (P + 16 * n)) := by
  have hbits := advanceBits_atBit data (n := 8 * n) (P := P) (by omega)
  rw [advanceBytes, if_pos (by rwa [bitPos_atBit]), bind_ok hbits, skipBytes,
    if_neg (by rw [remaining_atBit]; omega), advance_atBit (n := 8 * n) rfl,
    show P + 8 * n + 8 * n = P + 16 * n by omega]

end ReadStream

/-! ### Byte swaps -/

theorem toNat_byteswap16 (x : UInt16) :
    (byteswap16 x).toNat = 2 ^ 8 * (x.toNat % 2 ^ 8) + x.toNat / 2 ^ 8 := by
  have hlt : x.toNat < 2 ^ 16 := x.toNat_lt
  have hhigh : (x <<< 8).toNat = 2 ^ 8 * (x.toNat % 2 ^ 8) := by
    rw [UInt16.toNat_shiftLeft, show (8 : UInt16).toNat % 16 = 8 from rfl, Nat.shiftLeft_eq]
    omega
  have hlow : (x >>> 8).toNat = x.toNat / 2 ^ 8 := by
    rw [UInt16.toNat_shiftRight, show (8 : UInt16).toNat % 16 = 8 from rfl,
      Nat.shiftRight_eq_div_pow]
  rw [byteswap16, UInt16.toNat_or, hhigh, hlow, ← Nat.two_pow_add_eq_or_of_lt (by omega)]

theorem byteswap16_byteswap16 (x : UInt16) : byteswap16 (byteswap16 x) = x := by
  have hlt : x.toNat < 2 ^ 16 := x.toNat_lt
  apply UInt16.toNat_inj.mp
  rw [toNat_byteswap16, toNat_byteswap16]
  omega

theorem byteswap32_byteswap32 (x : UInt32) : byteswap32 (byteswap32 x) = x := by
  have hlt : beNat (beBytes 4 x.toNat).reverse < 256 ^ (beBytes 4 x.toNat).reverse.length :=
    beNat_lt _
  rw [List.length_reverse, length_beBytes] at hlt
  have hback : beBytes 4 (beNat (beBytes 4 x.toNat).reverse) = (beBytes 4 x.toNat).reverse := by
    have h := beBytes_beNat (beBytes 4 x.toNat).reverse
    rwa [List.length_reverse, length_beBytes] at h
  rw [byteswap32, byteswap32, UInt32.toNat_ofNat',
    Nat.mod_eq_of_lt (show beNat (beBytes 4 x.toNat).reverse < 2 ^ 32 from hlt), hback,
    List.reverse_reverse, beNat_beBytes,
    Nat.mod_eq_of_lt (show x.toNat < 256 ^ 4 from x.toNat_lt), UInt32.ofNat_toNat]

end Scion
