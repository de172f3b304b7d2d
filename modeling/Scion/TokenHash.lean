/-
The hash of MPTCP keys (`scitra/crypto.cpp`).

A token is the first word of the SHA-256 hash of a key. The message is always one block, of
which only the first two words are not known beforehand, and of the hash only one word is
computed.

* `sha256Trunc` — the loops over the words and the rounds;
* `extend_eq_schedule`, `toState_rounds` — each loop against the standard;
* `sha256Trunc_eq` — the token is the first word of the hash.
-/
import Scion.BitStream
import Scion.Sha256
import Mathlib.Data.List.GetD

namespace Scion

open BigEndian

namespace Crypto

/-! ### The loops -/

def rotate (v n : UInt32) : UInt32 := (v >>> n) ||| (v <<< (32 - n))

def K : List UInt32 := [
  0x428a2f98, 0x71374491, 0xb5c0fbcf, 0xe9b5dba5, 0x3956c25b, 0x59f111f1,
  0x923f82a4, 0xab1c5ed5, 0xd807aa98, 0x12835b01, 0x243185be, 0x550c7dc3,
  0x72be5d74, 0x80deb1fe, 0x9bdc06a7, 0xc19bf174, 0xe49b69c1, 0xefbe4786,
  0x0fc19dc6, 0x240ca1cc, 0x2de92c6f, 0x4a7484aa, 0x5cb0a9dc, 0x76f988da,
  0x983e5152, 0xa831c66d, 0xb00327c8, 0xbf597fc7, 0xc6e00bf3, 0xd5a79147,
  0x06ca6351, 0x14292967, 0x27b70a85, 0x2e1b2138, 0x4d2c6dfc, 0x53380d13,
  0x650a7354, 0x766a0abb, 0x81c2c92e, 0x92722c85, 0xa2bfe8a1, 0xa81a664b,
  0xc24b8b70, 0xc76c51a3, 0xd192e819, 0xd6990624, 0xf40e3585, 0x106aa070,
  0x19a4c116, 0x1e376c08, 0x2748774c, 0x34b0bcb5, 0x391c0cb3, 0x4ed8aa4a,
  0x5b9cca4f, 0x682e6ff3, 0x748f82ee, 0x78a5636f, 0x84c87814, 0x8cc70208,
  0x90befffa, 0xa4506ceb, 0xbef9a3f7, 0xc67178f2]

/-- The words that the first loop begins with. -/
def input (key : UInt64) : List UInt32 :=
  [(key >>> 32).toUInt32, key.toUInt32, byteswap32 ((1 : UInt32) <<< 7)] ++ List.replicate 12 0 ++ [64]

/-- `w[i]` from the words before it. -/
def nextWord (w : List UInt32) (i : ℕ) : UInt32 :=
  let sigma0 := rotate (w.getD (i - 15) 0) 7 ^^^ rotate (w.getD (i - 15) 0) 18
    ^^^ (w.getD (i - 15) 0 >>> 3)
  let sigma1 := rotate (w.getD (i - 2) 0) 17 ^^^ rotate (w.getD (i - 2) 0) 19
    ^^^ (w.getD (i - 2) 0 >>> 10)
  w.getD (i - 16) 0 + sigma0 + w.getD (i - 7) 0 + sigma1

/-- The first loop, after `n` words. -/
def extend (w : List UInt32) : ℕ → List UInt32
  | 0 => w
  | n + 1 => extend w n ++ [nextWord (extend w n) (16 + n)]

/-- The variables of the second loop. -/
structure Vars where
  a : UInt32 := 0x6a09e667
  b : UInt32 := 0xbb67ae85
  c : UInt32 := 0x3c6ef372
  d : UInt32 := 0xa54ff53a
  e : UInt32 := 0x510e527f
  f : UInt32 := 0x9b05688c
  g : UInt32 := 0x1f83d9ab
  h : UInt32 := 0x5be0cd19
  deriving DecidableEq, Repr

/-- The body of the second loop. -/
def round (k w : UInt32) (v : Vars) : Vars :=
  let sigma0 := rotate v.a 2 ^^^ rotate v.a 13 ^^^ rotate v.a 22
  let sigma1 := rotate v.e 6 ^^^ rotate v.e 11 ^^^ rotate v.e 25
  let choice := (v.e &&& v.f) ^^^ (~~~v.e &&& v.g)
  let majority := (v.a &&& v.b) ^^^ (v.a &&& v.c) ^^^ (v.b &&& v.c)
  let temp1 := v.h + sigma1 + choice + k + w
  let temp2 := sigma0 + majority
  ⟨temp1 + temp2, v.a, v.b, v.c, v.d + temp1, v.e, v.f, v.g⟩

/-- The second loop, after `n` rounds. -/
def rounds (w : List UInt32) : ℕ → Vars
  | 0 => {}
  | n + 1 => round (K.getD n 0) (w.getD n 0) (rounds w n)

def sha256Trunc (key : UInt64) : UInt32 := 0x6a09e667 + (rounds (extend (input key) 48) 64).a

/-! ### Words -/

theorem toBitVec_rotate (v : UInt32) {n : UInt32} (hpos : 0 < n.toNat) (hlt : n.toNat < 32) :
    (rotate v n).toBitVec = v.toBitVec.rotateRight n.toNat := by
  have hsub : (32 - n).toNat % 32 = 32 - n.toNat := by
    rw [UInt32.toNat_sub_of_le _ _ (UInt32.le_iff_toNat_le.mpr hlt.le)]
    exact Nat.mod_eq_of_lt (Nat.sub_lt (show 0 < 32 by norm_num) hpos)
  rw [rotate, UInt32.toBitVec_or, UInt32.toBitVec_shiftRight, UInt32.toBitVec_shiftLeft,
    BitVec.rotateRight_def, Nat.mod_eq_of_lt hlt, BitVec.ushiftRight_eq', BitVec.shiftLeft_eq',
    BitVec.toNat_umod, BitVec.toNat_umod]
  congr 2
  exact Nat.mod_eq_of_lt hlt

theorem toBitVec_nextWord (w : List UInt32) (i : ℕ) :
    (nextWord w i).toBitVec = Sha256.sigma1 (w.getD (i - 2) 0).toBitVec
      + (w.getD (i - 7) 0).toBitVec + Sha256.sigma0 (w.getD (i - 15) 0).toBitVec
      + (w.getD (i - 16) 0).toBitVec := by
  have hsum : ∀ a b c d : Sha256.Word, a + b + c + d = d + c + b + a := fun a b c d => by ac_rfl
  rw [nextWord, Sha256.sigma0, Sha256.sigma1]
  simp (disch := decide) only [UInt32.toBitVec_add, UInt32.toBitVec_xor, toBitVec_rotate,
    UInt32.toBitVec_shiftRight]
  exact hsum _ _ _ _

def toState (v : Vars) : Sha256.State :=
  ⟨v.a.toBitVec, v.b.toBitVec, v.c.toBitVec, v.d.toBitVec, v.e.toBitVec, v.f.toBitVec,
    v.g.toBitVec, v.h.toBitVec⟩

theorem toState_initial : toState {} = Sha256.initial := by decide +kernel

theorem toState_round (k w : UInt32) (v : Vars) :
    toState (round k w v) = Sha256.round k.toBitVec w.toBitVec (toState v) := by
  rw [round, Sha256.round, Sha256.bigSigma0, Sha256.bigSigma1, Sha256.ch, Sha256.maj]
  simp (disch := decide) only [toState, UInt32.toBitVec_add, UInt32.toBitVec_xor,
    UInt32.toBitVec_and, UInt32.toBitVec_not, toBitVec_rotate]
  rfl

theorem toBitVec_K : ∀ t < 64, (K.getD t 0).toBitVec = Sha256.K t := by decide +kernel

/-! ### The first loop -/

/-- Every word is appended to sixteen or more. -/
theorem extend_eq_schedule {w : List UInt32} {block : ℕ → Sha256.Word} (hlen : w.length = 16)
    (hblock : ∀ t < 16, (w.getD t 0).toBitVec = block t) (n : ℕ) :
    (extend w n).length = 16 + n ∧
      ∀ t < 16 + n, ((extend w n).getD t 0).toBitVec = Sha256.schedule block t := by
  induction n with
  | zero =>
    refine ⟨hlen, fun t ht => ?_⟩
    rw [Sha256.schedule_of_lt block ht]
    exact hblock t ht
  | succ n ih =>
    obtain ⟨hlength, hwords⟩ := ih
    refine ⟨by rw [extend, List.length_append, hlength, List.length_singleton]; rfl, ?_⟩
    intro t ht
    rw [extend]
    obtain hold | rfl : t < 16 + n ∨ t = 16 + n := by omega
    · rw [List.getD_append _ _ _ _ (by omega)]
      exact hwords t hold
    · rw [List.getD_append_right _ _ _ _ (by omega), hlength, Nat.sub_self, List.getD_cons_zero,
        toBitVec_nextWord, hwords _ (by omega), hwords _ (by omega), hwords _ (by omega),
        hwords _ (by omega), Nat.add_comm 16 n, Sha256.schedule_add]
      rfl

/-! ### The second loop -/

theorem toState_rounds {w : List UInt32} {block : ℕ → Sha256.Word}
    (hwords : ∀ t < 64, (w.getD t 0).toBitVec = Sha256.schedule block t) :
    ∀ n ≤ 64, toState (rounds w n) = Sha256.rounds block Sha256.initial n := by
  intro n
  induction n with
  | zero => exact fun _ => toState_initial
  | succ n ih =>
    intro hn
    rw [rounds, toState_round, ih (by omega), toBitVec_K n hn, hwords n hn, Sha256.rounds]

/-! ### The block -/

/-- The padded key is the words of the first loop, byte by byte. -/
theorem pad_key (key : UInt64) :
    Sha256.pad (beBytes 8 key.toNat) = ((input key).map fun w => beBytes 4 w.toNat).flatten := by
  have hhigh : beBytes 4 (key >>> 32).toUInt32.toNat = beBytes 4 (key.toNat / 256 ^ 4) := by
    rw [UInt64.toNat_toUInt32, UInt64.toNat_shiftRight, Nat.shiftRight_eq_div_pow]
    exact beBytes_mod 4 4 _ le_rfl
  have hlow : beBytes 4 key.toUInt32.toNat = beBytes 4 key.toNat := by
    rw [UInt64.toNat_toUInt32]
    exact beBytes_mod 4 4 _ le_rfl
  -- behind the key there is nothing but constants
  have hrest : 0x80 :: List.replicate 47 0 ++ beBytes 8 64
      = ((byteswap32 ((1 : UInt32) <<< 7) :: List.replicate 12 0 ++ [64]).map
        fun w : UInt32 => beBytes 4 w.toNat).flatten := by decide
  have hinput : input key = (key >>> 32).toUInt32 :: key.toUInt32 ::
    (byteswap32 ((1 : UInt32) <<< 7) :: List.replicate 12 0 ++ [64]) := rfl
  rw [Sha256.pad, length_beBytes, hinput, List.map_cons, List.map_cons, List.flatten_cons,
    List.flatten_cons, hhigh, hlow, ← List.append_assoc (beBytes 4 _), ← beBytes_append 4 4,
    List.append_assoc]
  exact congrArg (beBytes 8 key.toNat ++ ·) hrest

theorem blockWord_pad (key : UInt64) {t : ℕ} (ht : t < 16) :
    ((input key).getD t 0).toBitVec = Sha256.blockWord (Sha256.pad (beBytes 8 key.toNat)) 0 t := by
  have hlen : t < (input key).length := ht
  have hwords : ∀ bs ∈ (input key).map fun w : UInt32 => beBytes 4 w.toNat, bs.length = 4 := by
    intro bs hbs
    obtain ⟨w, -, rfl⟩ := List.mem_map.mp hbs
    exact length_beBytes 4 _
  rw [Sha256.blockWord, pad_key, show 64 * 0 + 4 * t = t * 4 by omega,
    Records.slice_flatten hwords (by rwa [List.length_map]), List.getElem_map, beNat_beBytes,
    List.getD_eq_getElem _ _ hlen]
  exact BitVec.eq_of_toNat_eq (by simp)

end Crypto

/-- The token of a key is the first word of the hash of its bytes. -/
theorem Crypto.sha256Trunc_eq (key : UInt64) :
    (sha256Trunc key).toNat = beNat ((Sha256.digest (beBytes 8 key.toNat)).take 4) := by
  have hshort : (beBytes 8 key.toNat).length ≤ 55 := by
    rw [length_beBytes]
    norm_num
  have hextend := extend_eq_schedule (w := input key) rfl (fun t => blockWord_pad key) 48
  have hrounds := toState_rounds hextend.2 64 le_rfl
  have hinitial : (0x6a09e667 : UInt32).toBitVec = Sha256.initial.a :=
    congrArg Sha256.State.a toState_initial
  rw [Sha256.digest_of_short hshort, Sha256.take_bytes, beNat_beBytes, Sha256.compress,
    Sha256.State.add, ← hrounds, ← hinitial]
  exact (Nat.mod_eq_of_lt (BitVec.isLt _)).symm

end Scion
