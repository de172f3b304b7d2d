/-
The layout of integers in bit streams (`bit_stream.hpp`).

Each width has an operation of its own, which takes whole bytes on a byte boundary and
calls `serializeBits` off one. It is compared with `serializeBits` of the same integer.

* `bitsUint64` — 64 bits as two halves;
* `SameLayout` — an operation does as another, or fails and leaves the stream;
* `WriteStream.serializeBits_eq_iff` — two values leave the same bits exactly when they
  differ only where bits of the current byte are set;
* `IntegerCall.sameLayout_iff` — the integers that are laid out alike everywhere.
-/
import Scion.StreamPositions

namespace Scion

open BigEndian Codec

/-! ### The bits of an integer -/

/-- 64 bits, the high half first. -/
def ReadStream.bitsUint64 : Reader UInt64 := do
  let high ← serializeBits 32 32
  let low ← serializeBits 32 32
  return high <<< 32 ||| low

/-- 64 bits, the high half first. -/
def WriteStream.bitsUint64 (value : UInt64) : Writer := do
  serializeBits 32 (value >>> 32) 32
  serializeBits 32 (value % 0x100000000) 32

section SameLayout

variable {σ α : Type}

/-- An operation succeeds as another does, or it fails and leaves the stream as it was. -/
def SameLayout (x ref : EStateM String σ α) (s : σ) : Prop :=
  (∃ a t, x s = .ok a t ∧ ref s = .ok a t) ∨ ∃ e, x s = .error e s

theorem sameLayout_of_eq {x ref : EStateM String σ α} {s : σ} (heq : x s = ref s)
    (hkeeps : ∀ e t, x s = .error e t → t = s) : SameLayout x ref s := by
  cases hrun : x s with
  | ok a t => exact Or.inl ⟨a, t, hrun, heq ▸ hrun⟩
  | error e t =>
    obtain rfl := hkeeps e t hrun
    exact Or.inr ⟨e, hrun⟩

/-- Of an operation that succeeds, the results are compared. -/
theorem sameLayout_iff_of_ok {x ref : EStateM String σ α} {s t : σ} {a : α} (h : x s = .ok a t) :
    SameLayout x ref s ↔ ref s = .ok a t := by
  constructor
  · rintro (⟨b, u, hx, href⟩ | ⟨e, herr⟩)
    · rw [h] at hx
      cases hx
      exact href
    · rw [h] at herr
      cases herr
  · intro href
    exact Or.inl ⟨a, t, h, href⟩

theorem sameLayout_congr {x y ref : EStateM String σ α} {s : σ} (h : x s = y s) :
    SameLayout x ref s ↔ SameLayout y ref s := by
  rw [SameLayout, SameLayout, h]

end SameLayout

/-! ### Writing -/

/-- Two values are the same field at `P`, merged with what the byte of `P` holds behind
it. -/
def SameField (data : List UInt8) (P n v w : ℕ) : Prop :=
  ∀ i, P ≤ i → i < P + n →
    (v.testBit (P + n - 1 - i) || tailBit data P i)
      = (w.testBit (P + n - 1 - i) || tailBit data P i)

/-- In front of zeros the field is that of one value only. -/
theorem sameField_iff_of_clear {data : List UInt8} {P n v w : ℕ}
    (h : ∀ i, P ≤ i → i < P + n → tailBit data P i = false) :
    SameField data P n v w ↔ v % 2 ^ n = w % 2 ^ n := by
  constructor
  · intro hsame
    refine Nat.eq_of_testBit_eq fun k => ?_
    rw [Nat.testBit_mod_two_pow, Nat.testBit_mod_two_pow]
    by_cases hk : k < n
    · have hbit := hsame (P + n - 1 - k) (by omega) (by omega)
      rw [h _ (by omega) (by omega), Bool.or_false, Bool.or_false,
        show P + n - 1 - (P + n - 1 - k) = k by omega] at hbit
      rw [hbit]
    · rw [decide_eq_false hk, Bool.false_and, Bool.false_and]
  · intro hmod i hi hi'
    have hbit := congrArg (Nat.testBit · (P + n - 1 - i)) hmod
    rw [Nat.testBit_mod_two_pow, Nat.testBit_mod_two_pow, decide_eq_true (by omega),
      Bool.true_and, Bool.true_and] at hbit
    rw [hbit]

namespace WriteStream

/-- A failure leaves the stream as it was. -/
theorem serializeBits_keeps {valueBits n : ℕ} {value : UInt64} {ws : WriteStream} {e : String}
    {t : WriteStream} (h : serializeBits valueBits value n ws = .error e t) : t = ws := by
  rw [serializeBits] at h
  by_cases hn : n = 0
  · rw [if_pos hn] at h
    cases h
  rw [if_neg hn] at h
  by_cases hmax : n > min (64 - 7) valueBits
  · rw [if_pos hmax] at h
    cases h
    rfl
  rw [if_neg hmax] at h
  dsimp only at h
  by_cases hroom : ws.remaining < (n + ws.bitPos + 7) / 8
  · rw [if_pos hroom] at h
    cases h
    rfl
  · rw [if_neg hroom] at h
    cases h

theorem putAligned_keeps {bytes : List UInt8} {ws : WriteStream} {e : String} {t : WriteStream}
    (h : putAligned bytes ws = .error e t) : t = ws := by
  rw [putAligned] at h
  split_ifs at h
  cases h
  rfl

/-- The working word of `serializeBits`. -/
def mergeWord (ws : WriteStream) (value : UInt64) (n : ℕ) : UInt64 :=
  if ws.bitPos ≠ 0 then
    (value <<< UInt64.ofNat (64 - n) >>> UInt64.ofNat ws.bitPos) |||
      ((ws.data.getD ws.bytePos 0).toUInt64 <<< 56)
  else value <<< UInt64.ofNat (64 - n)

theorem serializeBits_room (valueBits : ℕ) {n : ℕ} (value : UInt64) {ws : WriteStream} (hn : 1 ≤ n)
    (hmax : n ≤ min 57 valueBits) (hroom : (n + ws.bitPos + 7) / 8 ≤ ws.remaining) :
    serializeBits valueBits value n ws
      = .ok () ⟨ws.put ((beBytes 8 (ws.mergeWord value n).toNat).take ((n + ws.bitPos + 7) / 8)),
        ws.bytePos + (ws.bitPos + n) / 8, (ws.bitPos + n) % 8⟩ := by
  rw [serializeBits, if_neg (by omega), if_neg (by omega)]
  dsimp only
  rw [if_neg (by omega), mergeWord]

/-- Whole bytes at a byte boundary. -/
theorem serializeBits_aligned (valueBits : ℕ) {m : ℕ} (value : UInt64) {ws : WriteStream}
    (hbit : ws.bitPos = 0) (hm : 1 ≤ m) (hmax : 8 * m ≤ min 57 valueBits) :
    serializeBits valueBits value (8 * m) ws = putAligned (beBytes m value.toNat) ws := by
  have hbytes : (8 * m + ws.bitPos + 7) / 8 = m := by omega
  have hword : (beBytes 8 (ws.mergeWord value (8 * m)).toNat).take m = beBytes m value.toNat := by
    have hpow : 2 ^ 64 = 256 ^ (8 - m) * 256 ^ m := by
      rw [← pow_add, Nat.sub_add_cancel (by omega)]
      norm_num
    have hshift : 2 ^ (64 - 8 * m) = 256 ^ (8 - m) := by
      rw [pow_byte, Nat.mul_sub]
    rw [mergeWord, if_neg (not_not.mpr hbit), UInt64.toNat_shiftLeft, toNat_ofNat_mod (by omega),
      Nat.shiftLeft_eq, hshift, hpow, mul_comm value.toNat, Nat.mul_mod_mul_left,
      show (8 : ℕ) = m + (8 - m) by omega, beBytes_append, Nat.add_sub_cancel_left,
      Nat.mul_div_cancel_left _ (by positivity), List.take_left' (length_beBytes _ _),
      beBytes_mod m m _ le_rfl]
  by_cases hroom : ws.remaining < m
  · rw [serializeBits, if_neg (by omega), if_neg (by omega), putAligned, length_beBytes,
      if_pos hroom]
    dsimp only
    rw [hbytes, if_pos hroom]
  · rw [serializeBits_room valueBits value (by omega) hmax (by omega), hbytes, hword, putAligned,
      length_beBytes, if_neg hroom, hbit, Nat.zero_add, Nat.mul_div_cancel_left _ (by norm_num),
      Nat.mul_mod_right]

/-- The bits that end up in the buffer, from those of the current byte on. -/
theorem testBit_word (ws : WriteStream) (value : UInt64) {n i : ℕ} (hn : 1 ≤ n)
    (hnb : n + ws.bitPos ≤ 64) (hbit : ws.bitPos ≤ 8) (hi : i < 64) :
    (ws.mergeWord value n).toNat.testBit (63 - i)
      = ((decide (ws.bitPos ≤ i ∧ i < ws.bitPos + n)
          && (value.toNat.testBit (ws.bitPos + n - 1 - i)
            || tailBit ws.data (8 * ws.bytePos + ws.bitPos) (8 * ws.bytePos + i)))
        || (decide (ws.bitPos ≠ 0 ∧ i < 8 ∧ ¬ (ws.bitPos ≤ i ∧ i < ws.bitPos + n))
          && (ws.data.getD ws.bytePos 0).toNat.testBit (7 - i))) := by
  have hmerge := testBit_mergeWord value (ws.data.getD ws.bytePos 0) hn hnb hbit hi
  rw [mergeWord, hmerge]
  by_cases hin : ws.bitPos ≤ i ∧ i < ws.bitPos + n
  · rw [decide_eq_true hin, Bool.true_and, Bool.true_and,
      decide_eq_false (show ¬ (ws.bitPos ≠ 0 ∧ i < 8 ∧ ¬ (ws.bitPos ≤ i ∧ i < ws.bitPos + n)) from
        fun h => h.2.2 hin), Bool.false_and, Bool.or_false]
    congr 1
    by_cases htail : ws.bitPos ≠ 0 ∧ i < 8
    · rw [tailBit, decide_eq_true htail, decide_eq_true (by omega), Bool.true_and, Bool.true_and,
        bitAt, show (8 * ws.bytePos + i) / 8 = ws.bytePos by omega,
        show (8 * ws.bytePos + i) % 8 = i by omega]
    · rw [tailBit, decide_eq_false htail, decide_eq_false (by omega), Bool.false_and,
        Bool.false_and]
  · rw [decide_eq_false hin, Bool.false_and, Bool.false_and, Bool.false_or, Bool.false_or]
    congr 2
    exact propext (by tauto)

theorem put_left_cancel {ws : WriteStream} {xs ys : List UInt8} (hlen : xs.length = ys.length)
    (h : ws.put xs = ws.put ys) : xs = ys := by
  rw [put, put, hlen] at h
  exact List.append_cancel_left (List.append_cancel_right h)

/-- Two values leave the same stream exactly when they are the same field. -/
theorem serializeBits_eq_iff {valueBits n : ℕ} (v w : UInt64) {ws : WriteStream} (hn : 1 ≤ n)
    (hmax : n ≤ min 56 valueBits) (hbit : ws.bitPos ≤ 8)
    (hroom : (n + ws.bitPos + 7) / 8 ≤ ws.remaining) :
    serializeBits valueBits v n ws = serializeBits valueBits w n ws ↔
      SameField ws.data (8 * ws.bytePos + ws.bitPos) n v.toNat w.toNat := by
  set m := (n + ws.bitPos + 7) / 8 with hm
  have hv := serializeBits_room valueBits v hn (by omega) hroom
  have hw := serializeBits_room valueBits w hn (by omega) hroom
  rw [← hm] at hv hw
  constructor
  · intro heq i hi hi'
    rw [hv, hw] at heq
    have hlen : ∀ u : UInt64, ((beBytes 8 (ws.mergeWord u n).toNat).take m).length = m := by
      intro u
      rw [List.length_take, length_beBytes]
      omega
    have hput := congrArg WriteStream.data (EStateM.Result.ok.inj heq).2
    have hbytes := put_left_cancel ((hlen v).trans (hlen w).symm) hput
    -- the bit of the word that ends up at `i`
    have hword : ∀ u : UInt64, bitAt ((beBytes 8 (ws.mergeWord u n).toNat).take m)
        (i - 8 * ws.bytePos)
          = (u.toNat.testBit (8 * ws.bytePos + ws.bitPos + n - 1 - i)
            || tailBit ws.data (8 * ws.bytePos + ws.bitPos) i) := by
      intro u
      have hfull : bitAt ((beBytes 8 (ws.mergeWord u n).toNat).take m) (i - 8 * ws.bytePos)
          = bitAt (beBytes 8 (ws.mergeWord u n).toNat) (i - 8 * ws.bytePos) := by
        refine bitAt_congr rfl ?_
        rw [List.getD_eq_getElem?_getD, List.getElem?_take_of_lt (by omega),
          ← List.getD_eq_getElem?_getD]
      rw [hfull, bitAt_beBytes (by omega),
        show 8 * 8 - 1 - (i - 8 * ws.bytePos) = 63 - (i - 8 * ws.bytePos) by omega,
        testBit_word ws u hn (by omega) hbit (by omega), decide_eq_true (by omega),
        decide_eq_false (by omega), Bool.true_and, Bool.false_and, Bool.or_false,
        show 8 * ws.bytePos + (i - 8 * ws.bytePos) = i by omega]
      congr 2
      omega
    rw [← hword v, ← hword w, hbytes]
  · intro hsame
    have hwords : ws.mergeWord v n = ws.mergeWord w n := by
      refine UInt64.toNat_inj.mp (Nat.eq_of_testBit_eq fun k => ?_)
      by_cases hk : k < 64
      · have hbits : ∀ u : UInt64, (ws.mergeWord u n).toNat.testBit k = _ := fun u =>
          (congrArg (Nat.testBit (ws.mergeWord u n).toNat)
            (show k = 63 - (63 - k) by omega)).trans
              (testBit_word ws u hn (by omega) hbit (show 63 - k < 64 by omega))
        rw [hbits v, hbits w]
        by_cases hin : ws.bitPos ≤ 63 - k ∧ 63 - k < ws.bitPos + n
        · have hfield := hsame (8 * ws.bytePos + (63 - k)) (by omega) (by omega)
          rw [show 8 * ws.bytePos + ws.bitPos + n - 1 - (8 * ws.bytePos + (63 - k))
            = ws.bitPos + n - 1 - (63 - k) by omega] at hfield
          rw [hfield]
        · rw [decide_eq_false hin, Bool.false_and, Bool.false_and]
      · have hbig : ∀ u : UInt64, u.toNat.testBit k = false := fun u =>
          Nat.testBit_lt_two_pow (lt_of_lt_of_le u.toNat_lt
            (Nat.pow_le_pow_right (by norm_num) (by omega)))
        rw [hbig, hbig]
    rw [hv, hw, hwords]

/-- Off a byte boundary one value is written in place of another. -/
theorem sameLayout_serializeBits_iff (valueBits : ℕ) {n : ℕ} (v w : UInt64) {ws : WriteStream}
    (h : ws.place.Standing) (hn : 1 ≤ n) (hmax : n ≤ min 56 valueBits) :
    SameLayout (serializeBits valueBits v n) (serializeBits valueBits w n) ws ↔
      ¬ (ws.place.bits + n ≤ 8 * ws.data.length ∧
        ¬ SameField ws.data ws.place.bits n v.toNat w.toNat) := by
  have hbyte : ws.bitPos ≤ 8 := h.inByte
  have hbuffer : ws.bytePos ≤ ws.data.length := h.inBuffer
  have hbits : ws.place.bits = 8 * ws.bytePos + ws.bitPos := rfl
  rw [hbits]
  by_cases hroom : 8 * ws.bytePos + ws.bitPos + n ≤ 8 * ws.data.length
  · have hfits : (n + ws.bitPos + 7) / 8 ≤ ws.remaining := by
      rw [remaining]
      omega
    rw [and_iff_right hroom, not_not, ← serializeBits_eq_iff v w hn hmax hbyte hfits,
      serializeBits_room valueBits v hn (by omega) hfits,
      sameLayout_iff_of_ok (serializeBits_room valueBits v hn (by omega) hfits)]
    exact eq_comm
  · refine iff_of_true (Or.inr ⟨"out of space", ?_⟩) fun hslips => hroom hslips.1
    rw [serializeBits, if_neg (by omega), if_neg (by omega)]
    dsimp only
    rw [if_pos (by rw [remaining]; omega)]

theorem sameLayout_aligned {x ref : Writer} {bytes : List UInt8} {ws : WriteStream}
    (hx : x ws = putAligned bytes ws) (href : ref ws = putAligned bytes ws) :
    SameLayout x ref ws :=
  sameLayout_of_eq (hx.trans href.symm) fun _ _ h => putAligned_keeps (hx ▸ h)

theorem writes_serializeBits (valueBits : ℕ) {m : ℕ} (value : UInt64) (hm : 1 ≤ m)
    (hmax : 8 * m ≤ min 57 valueBits) :
    Writes cursor (serializeBits valueBits value (8 * m)) (beBytes m value.toNat) :=
  writes_of_aligned fun pre post =>
    serializeBits_aligned valueBits value (bitPos_cursor pre post) hm hmax

/-- Two halves are the whole. -/
theorem writes_bitsUint64 (value : UInt64) :
    Writes cursor (bitsUint64 value) (beBytes 8 value.toNat) := by
  have hhigh := writes_serializeBits 32 (m := 4) (value >>> 32) (by norm_num)
    (by norm_num)
  have hlow := writes_serializeBits 32 (m := 4) (value % 0x100000000) (by norm_num)
    (by norm_num)
  have hbytes : beBytes 8 value.toNat
      = beBytes 4 (value >>> 32).toNat ++ beBytes 4 (value % 0x100000000).toNat := by
    rw [UInt64.toNat_shiftRight, UInt64.toNat_mod, show (32 : UInt64).toNat % 64 = 32 from rfl,
      show (0x100000000 : UInt64).toNat = 256 ^ 4 from rfl, beBytes_mod 4 4 _ le_rfl,
      Nat.shiftRight_eq_div_pow, beBytes_append 4 4, show (256 : ℕ) ^ 4 = 2 ^ 32 by norm_num]
  rw [hbytes]
  exact hhigh.bind hlow

/-- A stream on a byte boundary. -/
theorem eq_cursor {ws : WriteStream} (hbit : ws.bitPos = 0)
    (hbuffer : ws.bytePos ≤ ws.data.length) :
    ws = cursor (ws.data.take ws.bytePos) (ws.data.drop ws.bytePos) := by
  rw [cursor, List.take_append_drop, List.length_take, Nat.min_eq_left hbuffer, ← hbit]

theorem sameLayout_uint64_aligned (value : UInt64) {ws : WriteStream} (h : ws.place.Standing)
    (hbit : ws.bitPos = 0) : SameLayout (serializeUint64 value) (bitsUint64 value) ws := by
  have hrun : serializeUint64 value ws = putAligned (beBytes 8 value.toNat) ws :=
    if_neg (not_not.mpr hbit)
  by_cases hroom : ws.remaining < 8
  · refine Or.inr ⟨"out of space", ?_⟩
    rw [hrun, putAligned, length_beBytes, if_pos hroom]
  · have hpost : (beBytes 8 value.toNat).length ≤ (ws.data.drop ws.bytePos).length := by
      rw [length_beBytes, List.length_drop]
      exact not_lt.mp hroom
    have hop := (writes_uint64 value (ws.data.take ws.bytePos) (ws.data.drop ws.bytePos)).1 hpost
    have href := (writes_bitsUint64 value (ws.data.take ws.bytePos)
      (ws.data.drop ws.bytePos)).1 hpost
    rw [← eq_cursor hbit h.inBuffer] at hop href
    exact Or.inl ⟨(), _, hop, href⟩

theorem moves_bitsUint64 (value : UInt64) :
    Moves place (bitsUint64 value) (Place.andThen (Place.moveBits 32 32) (Place.moveBits 32 32)) :=
  (moves_serializeBits 32 _ 32).bind fun _ => moves_serializeBits 32 _ 32

/-- Off a byte boundary 32 of 64 bits are written. -/
theorem sameLayout_uint64_off_iff (value : UInt64) {ws : WriteStream} (h : ws.place.Standing)
    (hbit : ws.bitPos ≠ 0) :
    SameLayout (serializeUint64 value) (bitsUint64 value) ws ↔
      ¬ ws.place.bits + 32 ≤ 8 * ws.data.length := by
  have hmoves := moves_serializeBits 64 (byteswap64 value) 32 ws
  have hrun : serializeUint64 value ws = serializeBits 64 (byteswap64 value) 32 ws := if_pos hbit
  rw [Place.moveBits_eq h 64 (by norm_num) (by norm_num)] at hmoves
  rw [show ws.data.length = ws.place.size from rfl]
  by_cases hroom : ws.place.bits + 32 ≤ 8 * ws.place.size
  · refine iff_of_false ?_ (not_not.mpr hroom)
    rw [if_pos hroom] at hmoves
    rintro (⟨_, t, hok, href⟩ | ⟨e, herr⟩)
    · -- both succeed, and stand at different bits
      rw [hrun] at hok
      rw [hok] at hmoves
      have hone : t.place.bits = ws.place.bits + 32 := by
        rw [(Prod.mk.inj hmoves).2, Place.bits_ofBits]
      have hfirst := Place.moveBits_eq h 32 (n := 32) (by norm_num) (by norm_num)
      have hsecond := Place.moveBits_eq (Place.standing_ofBits hroom) 32 (n := 32) (by norm_num)
        (by norm_num)
      have hboth := moves_bitsUint64 value ws
      rw [if_pos hroom] at hfirst
      rw [href, Place.andThen, hfirst, if_pos rfl, hsecond] at hboth
      by_cases hmore : (Place.ofBits ws.place.size (ws.place.bits + 32)).bits + 32
          ≤ 8 * (Place.ofBits ws.place.size (ws.place.bits + 32)).size
      · rw [if_pos hmore] at hboth
        have htwo : t.place.bits = ws.place.bits + 32 + 32 := by
          rw [(Prod.mk.inj hboth).2, Place.bits_ofBits, Place.bits_ofBits]
        omega
      · rw [if_neg hmore] at hboth
        cases (Prod.mk.inj hboth).1
    · rw [hrun] at herr
      rw [herr] at hmoves
      cases (Prod.mk.inj hmoves).1
  · refine iff_of_true ?_ hroom
    rw [if_neg hroom] at hmoves
    cases hbits : serializeBits 64 (byteswap64 value) 32 ws with
    | ok _ t =>
      rw [hbits] at hmoves
      cases (Prod.mk.inj hmoves).1
    | error e t =>
      obtain rfl := serializeBits_keeps hbits
      exact Or.inr ⟨e, hrun.trans hbits⟩

theorem sameLayout_byte (value : UInt8) (ws : WriteStream) :
    SameLayout (serializeByte value) (serializeBits 8 value.toUInt64 8) ws := by
  by_cases hbit : ws.bitPos ≠ 0
  · have hrun : serializeByte value ws = serializeBits 8 value.toUInt64 8 ws := if_pos hbit
    exact sameLayout_of_eq hrun fun _ _ herr => serializeBits_keeps (hrun ▸ herr)
  · have hbits := serializeBits_aligned 8 (m := 1) value.toUInt64 (not_not.mp hbit)
      le_rfl (by norm_num)
    rw [UInt8.toNat_toUInt64] at hbits
    exact sameLayout_aligned (if_neg hbit) hbits

theorem sameLayout_uint16_iff (value : UInt16) {ws : WriteStream} (h : ws.place.Standing) :
    SameLayout (serializeUint16 value) (serializeBits 16 value.toUInt64 16) ws ↔
      ¬ (ws.bitPos ≠ 0 ∧ ws.place.bits + 16 ≤ 8 * ws.data.length ∧
        ¬ SameField ws.data ws.place.bits 16 (byteswap16 value).toNat value.toNat) := by
  by_cases hbit : ws.bitPos ≠ 0
  · have hsame := sameLayout_serializeBits_iff 16 (n := 16)
      (byteswap16 value).toUInt64 value.toUInt64 h (by norm_num) (by norm_num)
    rw [UInt16.toNat_toUInt64, UInt16.toNat_toUInt64] at hsame
    rw [and_iff_right hbit, ← hsame]
    exact sameLayout_congr (if_pos hbit)
  · have hbits := serializeBits_aligned 16 (m := 2) value.toUInt64
      (not_not.mp hbit) (by norm_num) (by norm_num)
    rw [UInt16.toNat_toUInt64] at hbits
    exact iff_of_true (sameLayout_aligned (if_neg hbit) hbits) fun hslips => hbit hslips.1

theorem sameLayout_uint32_iff (value : UInt32) {ws : WriteStream} (h : ws.place.Standing) :
    SameLayout (serializeUint32 value) (serializeBits 32 value.toUInt64 32) ws ↔
      ¬ (ws.bitPos ≠ 0 ∧ ws.place.bits + 32 ≤ 8 * ws.data.length ∧
        ¬ SameField ws.data ws.place.bits 32 (byteswap32 value).toNat value.toNat) := by
  by_cases hbit : ws.bitPos ≠ 0
  · have hsame := sameLayout_serializeBits_iff 32 (n := 32)
      (byteswap32 value).toUInt64 value.toUInt64 h (by norm_num) (by norm_num)
    rw [UInt32.toNat_toUInt64, UInt32.toNat_toUInt64] at hsame
    rw [and_iff_right hbit, ← hsame]
    exact sameLayout_congr (if_pos hbit)
  · have hbits := serializeBits_aligned 32 (m := 4) value.toUInt64
      (not_not.mp hbit) (by norm_num) (by norm_num)
    rw [UInt32.toNat_toUInt64] at hbits
    exact iff_of_true (sameLayout_aligned (if_neg hbit) hbits) fun hslips => hbit hslips.1

end WriteStream

/-! ### Reading -/

namespace ReadStream

/-- The stream behind `n` bits. -/
def skip (rs : ReadStream) (n : ℕ) : ReadStream :=
  ⟨rs.data, rs.bytePos + (rs.bitPos + n) / 8, (rs.bitPos + n) % 8⟩

theorem place_skip (rs : ReadStream) (n : ℕ) :
    (rs.skip n).place = Place.ofBits rs.data.length (rs.place.bits + n) := by
  simp only [skip, place, Place.ofBits, Place.bits, Place.mk.injEq, true_and]
  omega

theorem bits_skip (rs : ReadStream) (n : ℕ) : (rs.skip n).place.bits = rs.place.bits + n := by
  rw [place_skip, Place.bits_ofBits]

/-- The bits at the position, or the error when they are not there. -/
theorem serializeBits_eq (valueBits : ℕ) {n : ℕ} {rs : ReadStream} (h : rs.place.Standing)
    (hn : 1 ≤ n) (hmax : n ≤ min 56 valueBits) :
    serializeBits valueBits n rs =
      if rs.place.bits + n ≤ 8 * rs.data.length then
        .ok (UInt64.ofNat (bitsAt rs.data rs.place.bits n)) (rs.skip n)
      else .error "out of data to read" rs := by
  have hbyte : rs.bitPos ≤ 8 := h.inByte
  have hbuffer : rs.bytePos ≤ rs.data.length := h.inBuffer
  have hbits : rs.place.bits = 8 * rs.bytePos + rs.bitPos := rfl
  rw [hbits]
  by_cases hroom : 8 * rs.bytePos + rs.bitPos + n ≤ 8 * rs.data.length
  · rw [if_pos hroom]
    exact serializeBits_from valueBits rs hn (by omega) hbyte (by omega)
      (by rw [remaining]; omega)
  · rw [if_neg hroom, serializeBits, if_neg (by omega), if_neg (by omega)]
    dsimp only
    rw [if_pos (by rw [remaining]; omega)]

theorem map_serializeBits_eq {α : Type} (f : UInt64 → α) (valueBits : ℕ) {n : ℕ}
    {rs : ReadStream} (h : rs.place.Standing) (hn : 1 ≤ n) (hmax : n ≤ min 56 valueBits) :
    (f <$> serializeBits valueBits n) rs =
      if rs.place.bits + n ≤ 8 * rs.data.length then
        .ok (f (UInt64.ofNat (bitsAt rs.data rs.place.bits n))) (rs.skip n)
      else .error "out of data to read" rs := by
  have hmap : (f <$> serializeBits valueBits n) rs
      = (serializeBits valueBits n >>= fun v => pure (f v)) rs := rfl
  have hrun := serializeBits_eq valueBits h hn hmax
  rw [hmap]
  by_cases hroom : rs.place.bits + n ≤ 8 * rs.data.length
  · rw [if_pos hroom] at hrun
    rw [if_pos hroom, bind_ok hrun]
    rfl
  · rw [if_neg hroom] at hrun
    rw [if_neg hroom, bind_error hrun]

/-- Off a byte boundary a value is read from the bits, in place of another. -/
theorem sameLayout_map_iff {α : Type} (f g : UInt64 → α) {v w n : ℕ} {rs : ReadStream}
    (h : rs.place.Standing) (hn : 1 ≤ n) (hv : n ≤ min 56 v) (hw : n ≤ min 56 w) :
    SameLayout (f <$> serializeBits v n) (g <$> serializeBits w n) rs ↔
      ¬ (rs.place.bits + n ≤ 8 * rs.data.length ∧
        f (UInt64.ofNat (bitsAt rs.data rs.place.bits n))
          ≠ g (UInt64.ofNat (bitsAt rs.data rs.place.bits n))) := by
  have hf := map_serializeBits_eq f v h hn hv
  have hg := map_serializeBits_eq g w h hn hw
  by_cases hroom : rs.place.bits + n ≤ 8 * rs.data.length
  · rw [if_pos hroom] at hf hg
    rw [sameLayout_iff_of_ok hf, hg, and_iff_right hroom, not_not]
    exact ⟨fun heq => (EStateM.Result.ok.inj heq).1.symm, fun heq => by rw [heq]⟩
  · rw [if_neg hroom] at hf
    exact iff_of_true (Or.inr ⟨_, hf⟩) fun hslips => hroom hslips.1

/-- Bytes on a byte boundary are the bits there. -/
theorem take_eq {α : Type} (f : ℕ → α) {m : ℕ} {rs : ReadStream} (h : rs.place.Standing)
    (hbit : rs.bitPos = 0) :
    (if rs.remaining < m then .error "out of data to read" rs
      else .ok (f (beNat (rs.next m))) (rs.advance m) : EStateM.Result String ReadStream α) =
      if rs.place.bits + 8 * m ≤ 8 * rs.data.length then
        .ok (f (bitsAt rs.data rs.place.bits (8 * m))) (rs.skip (8 * m))
      else .error "out of data to read" rs := by
  have hbuffer : rs.bytePos ≤ rs.data.length := h.inBuffer
  have hbits : rs.place.bits = 8 * rs.bytePos := by
    rw [Place.bits, show rs.place.bitPos = 0 from hbit]
    rfl
  have hremaining : rs.remaining = rs.data.length - rs.bytePos := rfl
  by_cases hroom : rs.remaining < m
  · rw [if_pos hroom, if_neg (by omega)]
  · have hnum := bitsAt_bytesAt rs.data (k := rs.bytePos) (m := m) (by omega)
    rw [if_neg hroom, if_pos (by omega), hbits, hnum, skip, hbit, Nat.zero_add,
      Nat.mul_div_cancel_left _ (by norm_num), Nat.mul_mod_right, ← hbit]
    rfl

/-- On a byte boundary the bits of the bytes are read. -/
theorem sameLayout_take {α : Type} (f : ℕ → α) (g : UInt64 → α) {x : Reader α} {m w : ℕ}
    {rs : ReadStream} (h : rs.place.Standing) (hbit : rs.bitPos = 0) (hm : 1 ≤ m)
    (hw : 8 * m ≤ min 56 w) (hfg : ∀ v, g (UInt64.ofNat v) = f v)
    (hx : x rs = if rs.remaining < m then .error "out of data to read" rs
      else .ok (f (beNat (rs.next m))) (rs.advance m)) :
    SameLayout x (g <$> serializeBits w (8 * m)) rs := by
  have href := map_serializeBits_eq g w h (n := 8 * m) (by omega) hw
  rw [hfg, ← take_eq f h hbit] at href
  refine sameLayout_of_eq (hx.trans href.symm) fun e t herr => ?_
  rw [hx] at herr
  split_ifs at herr
  cases herr
  rfl

/-- Two halves are the whole. -/
theorem bitsUint64_eq {rs : ReadStream} (h : rs.place.Standing)
    (hroom : rs.place.bits + 64 ≤ 8 * rs.data.length) :
    bitsUint64 rs = .ok (UInt64.ofNat (bitsAt rs.data rs.place.bits 64)) (rs.skip 64) := by
  have hhigh := serializeBits_eq 32 h (n := 32) (by norm_num) (by norm_num)
  rw [if_pos (by omega)] at hhigh
  have hstand : (rs.skip 32).place.Standing := by
    rw [place_skip]
    exact Place.standing_ofBits (by omega)
  have hlow := serializeBits_eq 32 hstand (n := 32) (by norm_num) (by norm_num)
  rw [bits_skip, if_pos (by rw [show (rs.skip 32).data = rs.data from rfl]; omega)] at hlow
  have hskip : (rs.skip 32).skip 32 = rs.skip 64 := by
    simp only [skip, ReadStream.mk.injEq, true_and]
    omega
  rw [bitsUint64, bind_ok hhigh, bind_ok hlow, hskip]
  refine congrArg (fun v => EStateM.Result.ok v (rs.skip 64)) (UInt64.toNat_inj.mp ?_)
  have hsum := bitsAt_add rs.data rs.place.bits 32 32 (by omega)
  have hhighlt := bitsAt_lt rs.data rs.place.bits 32
  have hlowlt := bitsAt_lt rs.data (rs.place.bits + 32) 32
  rw [UInt64.toNat_or, UInt64.toNat_shiftLeft, UInt64.toNat_ofNat', UInt64.toNat_ofNat',
    UInt64.toNat_ofNat', show (32 : UInt64).toNat % 64 = 32 from rfl, Nat.shiftLeft_eq, hsum,
    show (rs.skip 32).data = rs.data from rfl, Nat.mod_eq_of_lt (by omega),
    Nat.mod_eq_of_lt (by omega), Nat.mod_eq_of_lt (by omega), Nat.mod_eq_of_lt (by omega),
    mul_comm, ← Nat.two_pow_add_eq_or_of_lt hlowlt]

/-- Off a byte boundary an integer of 64 bits is refused. -/
theorem sameLayout_uint64 {rs : ReadStream} (h : rs.place.Standing) :
    SameLayout serializeUint64 bitsUint64 rs := by
  by_cases hbit : rs.bitPos ≠ 0
  · exact Or.inr ⟨"not implemented", if_pos hbit⟩
  · have hrun : serializeUint64 rs = _ := if_neg hbit
    rw [take_eq UInt64.ofNat h (not_not.mp hbit)] at hrun
    by_cases hroom : rs.place.bits + 64 ≤ 8 * rs.data.length
    · rw [if_pos hroom] at hrun
      exact Or.inl ⟨_, _, hrun, bitsUint64_eq h hroom⟩
    · rw [if_neg hroom] at hrun
      exact Or.inr ⟨_, hrun⟩

theorem sameLayout_byte {rs : ReadStream} (h : rs.place.Standing) :
    SameLayout serializeByte (UInt64.toUInt8 <$> serializeBits 8 8) rs := by
  by_cases hbit : rs.bitPos ≠ 0
  · have hsame := sameLayout_map_iff UInt64.toUInt8 UInt64.toUInt8 (v := 32) (w := 8) (n := 8) h
      (by norm_num) (by norm_num) (by norm_num)
    have hrun : serializeByte rs = (UInt64.toUInt8 <$> serializeBits 32 8) rs := if_pos hbit
    exact (sameLayout_congr hrun).mpr (hsame.mpr fun hslips => hslips.2 rfl)
  · exact sameLayout_take (m := 1) UInt8.ofNat UInt64.toUInt8 h (not_not.mp hbit) le_rfl
      (by norm_num) (fun v => UInt64.toUInt8_ofNat' v) (if_neg hbit)

theorem sameLayout_uint16_iff {rs : ReadStream} (h : rs.place.Standing) :
    SameLayout serializeUint16 (UInt64.toUInt16 <$> serializeBits 16 16) rs ↔
      ¬ (rs.bitPos ≠ 0 ∧ rs.place.bits + 16 ≤ 8 * rs.data.length ∧
        byteswap16 (UInt16.ofNat (bitsAt rs.data rs.place.bits 16))
          ≠ UInt16.ofNat (bitsAt rs.data rs.place.bits 16)) := by
  by_cases hbit : rs.bitPos ≠ 0
  · have hsame := sameLayout_map_iff (fun v => byteswap16 v.toUInt16) UInt64.toUInt16 (v := 32)
      (w := 16) (n := 16) h (by norm_num) (by norm_num) (by norm_num)
    rw [UInt64.toUInt16_ofNat'] at hsame
    rw [and_iff_right hbit, ← hsame]
    exact sameLayout_congr (if_pos hbit)
  · exact iff_of_true (sameLayout_take (m := 2) UInt16.ofNat UInt64.toUInt16 h
      (not_not.mp hbit) (by norm_num) (by norm_num) (fun v => UInt64.toUInt16_ofNat' v)
      (if_neg hbit)) fun hslips => hbit hslips.1

theorem sameLayout_uint32_iff {rs : ReadStream} (h : rs.place.Standing) :
    SameLayout serializeUint32 (UInt64.toUInt32 <$> serializeBits 32 32) rs ↔
      ¬ (rs.bitPos ≠ 0 ∧ rs.place.bits + 32 ≤ 8 * rs.data.length ∧
        byteswap32 (UInt32.ofNat (bitsAt rs.data rs.place.bits 32))
          ≠ UInt32.ofNat (bitsAt rs.data rs.place.bits 32)) := by
  by_cases hbit : rs.bitPos ≠ 0
  · have hsame := sameLayout_map_iff (fun v => byteswap32 v.toUInt32) UInt64.toUInt32 (v := 32)
      (w := 32) (n := 32) h (by norm_num) (by norm_num) (by norm_num)
    rw [UInt64.toUInt32_ofNat'] at hsame
    rw [and_iff_right hbit, ← hsame]
    exact sameLayout_congr (if_pos hbit)
  · exact iff_of_true (sameLayout_take (m := 4) UInt32.ofNat UInt64.toUInt32 h
      (not_not.mp hbit) (by norm_num) (by norm_num) (fun v => UInt64.toUInt32_ofNat' v)
      (if_neg hbit)) fun hslips => hbit hslips.1

end ReadStream

/-! ### Calls -/

/-- A stream and an integer to be read from it or written to it. -/
inductive IntegerCall
  | readByte (rs : ReadStream)
  | readUint16 (rs : ReadStream)
  | readUint32 (rs : ReadStream)
  | readUint64 (rs : ReadStream)
  | writeByte (value : UInt8) (ws : WriteStream)
  | writeUint16 (value : UInt16) (ws : WriteStream)
  | writeUint32 (value : UInt32) (ws : WriteStream)
  | writeUint64 (value : UInt64) (ws : WriteStream)

namespace IntegerCall

def place : IntegerCall → Place
  | readByte rs | readUint16 rs | readUint32 rs | readUint64 rs => rs.place
  | writeByte _ ws | writeUint16 _ ws | writeUint32 _ ws | writeUint64 _ ws => ws.place

/-- The integer has the layout that `serializeBits` gives it, or is refused. -/
def SameAsBits : IntegerCall → Prop
  | readByte rs =>
    SameLayout ReadStream.serializeByte (UInt64.toUInt8 <$> ReadStream.serializeBits 8 8) rs
  | readUint16 rs =>
    SameLayout ReadStream.serializeUint16 (UInt64.toUInt16 <$> ReadStream.serializeBits 16 16) rs
  | readUint32 rs =>
    SameLayout ReadStream.serializeUint32 (UInt64.toUInt32 <$> ReadStream.serializeBits 32 32) rs
  | readUint64 rs => SameLayout ReadStream.serializeUint64 ReadStream.bitsUint64 rs
  | writeByte value ws =>
    SameLayout (WriteStream.serializeByte value) (WriteStream.serializeBits 8 value.toUInt64 8) ws
  | writeUint16 value ws =>
    SameLayout (WriteStream.serializeUint16 value)
      (WriteStream.serializeBits 16 value.toUInt64 16) ws
  | writeUint32 value ws =>
    SameLayout (WriteStream.serializeUint32 value)
      (WriteStream.serializeBits 32 value.toUInt64 32) ws
  | writeUint64 value ws =>
    SameLayout (WriteStream.serializeUint64 value) (WriteStream.bitsUint64 value) ws

/-- Off a byte boundary integers of 16 and 32 bits are swapped, and half of one of 64 bits
is written. -/
def Swapped : IntegerCall → Prop
  | readUint16 rs => rs.bitPos ≠ 0 ∧ rs.place.bits + 16 ≤ 8 * rs.data.length ∧
      byteswap16 (UInt16.ofNat (ReadStream.bitsAt rs.data rs.place.bits 16))
        ≠ UInt16.ofNat (ReadStream.bitsAt rs.data rs.place.bits 16)
  | readUint32 rs => rs.bitPos ≠ 0 ∧ rs.place.bits + 32 ≤ 8 * rs.data.length ∧
      byteswap32 (UInt32.ofNat (ReadStream.bitsAt rs.data rs.place.bits 32))
        ≠ UInt32.ofNat (ReadStream.bitsAt rs.data rs.place.bits 32)
  | writeUint16 value ws => ws.bitPos ≠ 0 ∧ ws.place.bits + 16 ≤ 8 * ws.data.length ∧
      ¬ SameField ws.data ws.place.bits 16 (byteswap16 value).toNat value.toNat
  | writeUint32 value ws => ws.bitPos ≠ 0 ∧ ws.place.bits + 32 ≤ 8 * ws.data.length ∧
      ¬ SameField ws.data ws.place.bits 32 (byteswap32 value).toNat value.toNat
  | writeUint64 _ ws => ws.bitPos ≠ 0 ∧ ws.place.bits + 32 ≤ 8 * ws.data.length
  | _ => False

/-- An integer is laid out as `serializeBits` lays it out, wherever the stream stands,
exactly when it is not swapped. -/
theorem sameAsBits_iff (c : IntegerCall) (h : c.place.Standing) : c.SameAsBits ↔ ¬ c.Swapped := by
  cases c with
  | readByte rs => exact iff_of_true (ReadStream.sameLayout_byte h) id
  | readUint16 rs => exact ReadStream.sameLayout_uint16_iff h
  | readUint32 rs => exact ReadStream.sameLayout_uint32_iff h
  | readUint64 rs => exact iff_of_true (ReadStream.sameLayout_uint64 h) id
  | writeByte value ws => exact iff_of_true (WriteStream.sameLayout_byte value ws) id
  | writeUint16 value ws => exact WriteStream.sameLayout_uint16_iff value h
  | writeUint32 value ws => exact WriteStream.sameLayout_uint32_iff value h
  | writeUint64 value ws =>
    by_cases hbit : ws.bitPos ≠ 0
    · rw [Swapped, and_iff_right hbit]
      exact WriteStream.sameLayout_uint64_off_iff value h hbit
    · exact iff_of_true (WriteStream.sameLayout_uint64_aligned value h (not_not.mp hbit))
        fun hslips => hbit hslips.1

/-- Reading 16 bits on a byte boundary. -/
theorem sameAsBits_iff_aligned :
    let c : IntegerCall := .readUint16 ⟨[18, 52], 0, 0⟩
    c.SameAsBits ↔ ¬ c.Swapped :=
  sameAsBits_iff (.readUint16 ⟨[18, 52], 0, 0⟩)
    ⟨by decide, by decide, fun hne => absurd rfl hne⟩

/-- Four bits behind a byte boundary, 0x1234 is read as 0x3412. -/
theorem not_forall_sameAsBits : ¬ ∀ c : IntegerCall, c.place.Standing → c.SameAsBits := by
  intro h
  have hsame := h (.readUint16 ⟨[1, 35, 64], 0, 4⟩) ⟨by decide, by decide, fun _ => by decide⟩
  rcases hsame with ⟨v, t, hok, href⟩ | ⟨e, herr⟩
  · have hswapped : v = 0x3412 := (EStateM.Result.ok.inj hok).1.symm
    have hplain : v = 0x1234 := (EStateM.Result.ok.inj href).1.symm
    rw [hswapped] at hplain
    exact absurd hplain (by decide)
  · cases herr

end IntegerCall

end Scion
