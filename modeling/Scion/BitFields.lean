/-
Readers of bit fields whose bits are known (`bit_stream.hpp`).

`ReadsBits` says how a reader decodes any bits. A reader that checks a field before it
goes on to the next one succeeds on some bits only, and is described by the number
that it reads.

* `ReadsDigit` — the reader on given bits, with its rules for sequences and checks;
* `ReadsDigit.reads` — whole bytes, and `reads_paddedField`, a field in front of reserved bits;
* `readFour`, `writeFour` — arrays of four fields.
-/
import Scion.Decoding

namespace Scion

open BigEndian Codec ReadStream

namespace ReadStream

variable {α β : Type}

/-- From any point at bit offset `a`, `r` takes the next `n` bits, if they denote `d`, and
returns `v`. -/
def ReadsDigit (r : Reader α) (a n d : ℕ) (v : α) : Prop :=
  ∀ pre bs k, k % 8 = a → k + n ≤ 8 * bs.length → bitsAt bs k n = d →
    r (bitCursor pre bs k) = .ok v (bitCursor pre bs (k + n))

theorem ReadsBits.digit {r : Reader α} {a n : ℕ} {f : ℕ → α} (h : ReadsBits r a n f) (d : ℕ) :
    ReadsDigit r a n d (f d) := by
  intro pre bs k hk hroom hd
  rw [(h pre bs k hk (by omega)).1 hroom, hd]

theorem ReadsDigit.pure (v : α) (a : ℕ) : ReadsDigit (Pure.pure v) a 0 0 v :=
  fun _ _ _ _ _ _ => rfl

/-- Two fields, the first one in the higher bits. -/
theorem ReadsDigit.bind {x : Reader α} {y : α → Reader β} {a m n d e : ℕ} {v : α} {w : β}
    (hx : ReadsDigit x a m d v) (hy : ReadsDigit (y v) ((a + m) % 8) n e w) (he : e < 2 ^ n) :
    ReadsDigit (x >>= y) a (m + n) (d * 2 ^ n + e) w := by
  intro pre bs k hk hroom hd
  have hhigh : bitsAt bs k m = d := by
    rw [← bitsAt_div bs k m n (by omega), hd, Nat.add_comm, Nat.add_mul_div_right _ _ (by positivity),
      Nat.div_eq_of_lt he, zero_add]
  have hlow : bitsAt bs (k + m) n = e := by
    rw [← bitsAt_mod bs k m n (by omega), hd, Nat.mul_add_mod_self_right, Nat.mod_eq_of_lt he]
  rw [bind_ok (hx pre bs k hk (by omega) hhigh), hy pre bs (k + m) (by omega) (by omega) hlow,
    add_assoc]

/-- The last field. -/
theorem ReadsDigit.bind_pure {x : Reader α} {g : α → β} {a m d : ℕ} {v : α}
    (hx : ReadsDigit x a m d v) : ReadsDigit (x >>= fun v => Pure.pure (g v)) a m d (g v) := by
  intro pre bs k hk hroom hd
  rw [bind_ok (hx pre bs k hk hroom hd)]
  rfl

/-- A check that holds. -/
theorem ReadsDigit.ensure {c : Bool} {e : String} {f : Unit → Reader α} {a n d : ℕ} {v : α}
    (hc : c = true) (hf : ReadsDigit (f ()) a n d v) :
    ReadsDigit (Codec.ensure c e >>= f) a n d v := by
  intro pre bs k hk hroom hd
  subst hc
  rw [bind_ok (ensure_true e _), hf pre bs k hk hroom hd]

/-- Whole bytes are read as the numeral of their number. -/
theorem ReadsDigit.reads {r : Reader α} {m d : ℕ} {v : α} (h : ReadsDigit r 0 (8 * m) d v)
    (hd : d < 256 ^ m) : Reads cursor r (beBytes m d) v := by
  intro pre post
  have hlen := length_beBytes m d
  have hnum : bitsAt (beBytes m d ++ post) 0 (8 * m) = d := by
    rw [bitsAt_bytes _ post m hlen, beNat_beBytes, Nat.mod_eq_of_lt hd]
  have hrun := h pre (beBytes m d ++ post) 0 rfl
    (by rw [List.length_append, hlen]; omega) hnum
  rwa [bitCursor_zero, zero_add, bitCursor_bytes pre _ post m hlen] at hrun

/-- A field in an integer of eight bits. -/
def readField (n : ℕ) : Reader UInt8 := UInt64.toUInt8 <$> serializeBits 8 n

theorem readsBits_readField {n : ℕ} (a : ℕ) (hn : 1 ≤ n) (hmax : n ≤ 8) :
    ReadsBits (readField n) a n UInt8.ofNat :=
  ((readsBits_serializeBits 8 a n hn (by omega)).map UInt64.toUInt8).congr
    fun d _ => PathMeta.toUInt8_ofNat d

theorem readsDigit_readField {n : ℕ} (a : ℕ) (hn : 1 ≤ n) (hmax : n ≤ 8) (v : UInt8) :
    ReadsDigit (readField n) a n v.toNat v := by
  have h := (readsBits_readField a hn hmax).digit v.toNat
  rwa [UInt8.ofNat_toNat] at h

/-- A field fits in its width. -/
theorem takesField_readField {n : ℕ} (a : ℕ) (hn : 1 ≤ n) (hmax : n ≤ 8) :
    TakesField (readField n) a n fun _ v => v.toNat < 2 ^ n := by
  refine (readsBits_readField a hn hmax).takesField.mono ?_
  rintro d v ⟨hd, rfl⟩
  rw [UInt8.toNat_ofNat']
  exact (Nat.mod_le _ _).trans_lt hd

end ReadStream

namespace WriteStream

def writeField (n : ℕ) (v : UInt8) : Writer := serializeBits 8 v.toUInt64 n

/-- A value that fits in its field. -/
theorem writesBits_writeField {n : ℕ} (a : ℕ) (hn : 1 ≤ n) (hmax : n ≤ 8) {v : UInt8}
    (hv : v.toNat < 2 ^ n) : WritesBits (writeField n v) a n v.toNat := by
  have h := writesBits_serializeBits 8 a n v.toUInt64 hn (by omega)
  rwa [UInt8.toNat_toUInt64, Nat.mod_eq_of_lt hv] at h

end WriteStream

/-! ### A field in front of reserved bits -/

section Reserved

variable {n k m : ℕ} (hn : 1 ≤ n) (hmax : n ≤ 8) (hk : 1 ≤ k) (hkmax : k < 32) (hm : n + k = 8 * m)

include hn hmax hk hkmax hm

theorem WriteStream.writes_paddedField {v : UInt8} (hv : v.toNat < 2 ^ n) :
    Writes cursor (do writeField n v; advanceBits k) (beBytes m (v.toNat * 2 ^ k)) := by
  have hall := (writesBits_writeField 0 hn hmax hv).bind
    (writesBits_advanceBits ((0 + n) % 8) k hk hkmax)
  rw [add_zero, hm] at hall
  exact hall.writes

theorem ReadStream.reads_paddedField {v : UInt8} (hv : v.toNat < 2 ^ n) :
    Reads cursor (do let v ← readField n; advanceBits k; pure v) (beBytes m (v.toNat * 2 ^ k))
      v := by
  have hskip := ((readsBits_advanceBits ((0 + n) % 8) k hk hkmax).digit 0).bind_pure
    (g := fun _ => v)
  have hall := ReadsDigit.bind (y := fun v => advanceBits k >>= fun _ => Pure.pure v)
    (readsDigit_readField 0 hn hmax v) hskip (by positivity)
  have hlt : v.toNat * 2 ^ k < 256 ^ m := by
    rw [show 256 = 2 ^ 8 from rfl, ← pow_mul, ← hm, pow_add]
    exact (Nat.mul_lt_mul_right (by positivity)).mpr hv
  rw [add_zero, hm] at hall
  exact hall.reads hlt

/-- The field fits in its width. -/
theorem ReadStream.takes_paddedField :
    Takes cursor (do let v ← readField n; advanceBits k; pure v : Reader UInt8)
      fun _ v => v.toNat < 2 ^ n := by
  have hall := (takesField_readField 0 hn hmax).bind fun v =>
    (readsBits_advanceBits ((0 + n) % 8) k hk hkmax).takesField.bind (n := 0) fun _ =>
      TakesField.pure v _
  rw [add_zero, hm] at hall
  refine hall.takes.mono ?_
  rintro _ v ⟨d, -, _, hv, _, -, rfl⟩
  exact hv

end Reserved

/-! ### Arrays of four -/

/-- The elements of an array, one after the other. -/
def readFour {α : Type} (r : Reader α) : Reader (Fin 4 → α) := do
  let a ← r
  let b ← r
  let c ← r
  let d ← r
  pure ![a, b, c, d]

def writeFour {α : Type} (w : α → Writer) (f : Fin 4 → α) : Writer := do
  w (f 0)
  w (f 1)
  w (f 2)
  w (f 3)

theorem vec_four {α : Type} (f : Fin 4 → α) : ![f 0, f 1, f 2, f 3] = f := by
  funext i
  fin_cases i <;> rfl

/-- Four fields of three bits, as they follow a field of four. -/
def threes (f : Fin 4 → UInt8) : ℕ :=
  (f 0).toNat * 2 ^ (3 + (3 + 3)) + ((f 1).toNat * 2 ^ (3 + 3) +
    ((f 2).toNat * 2 ^ 3 + (f 3).toNat))

theorem threes_lt {f : Fin 4 → UInt8} (h : ∀ i, (f i).toNat < 8) : threes f < 2 ^ 12 := by
  have h0 := h 0
  have h1 := h 1
  have h2 := h 2
  have h3 := h 3
  rw [threes]
  omega

/-- The elements are read as they are, when each is. -/
theorem readsDigit_readFour {r : Reader UInt8} {f : Fin 4 → UInt8} (h : ∀ i, (f i).toNat < 8)
    (hr : ∀ a i, ReadsDigit r a 3 (f i).toNat (f i)) :
    ReadsDigit (readFour r) 4 12 (threes f) f := by
  have h1 := h 1
  have h2 := h 2
  have h3 := h 3
  have hall : ReadsDigit (readFour r) 4 (3 + (3 + (3 + 3))) (threes f) ![f 0, f 1, f 2, f 3] :=
    (hr 4 0).bind ((hr 7 1).bind ((hr 2 2).bind
      ((hr 5 3).bind_pure (g := fun d => ![f 0, f 1, f 2, d])) (by omega)) (by omega)) (by omega)
  rwa [vec_four] at hall

theorem writesBits_writeFour {f : Fin 4 → UInt8} (h : ∀ i, (f i).toNat < 8) :
    WriteStream.WritesBits (writeFour (WriteStream.writeField 3) f) 4 12 (threes f) := by
  have hw := fun a i => WriteStream.writesBits_writeField a (n := 3) (by norm_num) (by norm_num)
    (h i)
  exact (hw 4 0).bind ((hw 7 1).bind ((hw 2 2).bind (hw 5 3)))

end Scion
