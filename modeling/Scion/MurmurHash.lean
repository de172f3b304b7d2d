/-
The hash functions of paths, addresses and flow labels (`src/murmur_hash3.cpp`, `path/path.cpp`).

Keys are hashed in blocks of 4 or 16 bytes, followed by the bytes that make no block.

* `murmurHash3_x86_32`, `murmurHash3_x64_128` — the functions of the source;
* `lossless_hash32`, `lossless_hash128` — their steps lose nothing;
* `murmurHash3_lossless` — with all blocks but one given, every hash is that of exactly one block,
  and the bytes at the end are told apart;
* `murmurDigest_eq_iff` — paths that differ in one group of four hops have different digests.
-/
import Scion.PathDigest
import Scion.Records
import Scion.WordMixing

namespace Scion

open BigEndian Mixing Function

namespace MurmurHash3

section Words

variable {w : ℕ}

/-- `getblock32`, `getblock64`: the word of `n` bytes at index `i`. -/
def getblock (w n : ℕ) (data : List UInt8) (i : ℕ) : BitVec w :=
  BitVec.ofNat w (beNat (Records.slice data (n * i) n).reverse)

/-- The cases of a `switch` that fall through, from the last byte of the tail to the first one. -/
def gather (w : ℕ) : List UInt8 → ℕ → BitVec w
  | [], _ => 0
  | b :: bs, i => gather w bs (i + 1) ^^^ BitVec.ofNat w b.toNat <<< (8 * i)

def mix (c : BitVec w) (r : ℕ) (c' : BitVec w) (k : BitVec w) : BitVec w := rotl r (k * c) * c'

/-- The finalization mix. -/
def fmix (r₁ : ℕ) (c₁ : BitVec w) (r₂ : ℕ) (c₂ : BitVec w) (r₃ : ℕ) (h : BitVec w) : BitVec w :=
  xorShift r₃ (xorShift r₂ (xorShift r₁ h * c₁) * c₂)

theorem bijective_mix {c c' d d' : BitVec w} {r : ℕ} (hc : c * d = 1) (hc' : c' * d' = 1)
    (hpos : 0 < r) (hr : r < w) : Bijective (mix c r c') :=
  ((bijective_mul hc').comp (bijective_rotl hpos hr)).comp (bijective_mul hc)

theorem bijective_fmix {c₁ c₂ d₁ d₂ : BitVec w} {r₁ r₂ r₃ : ℕ} (hc₁ : c₁ * d₁ = 1)
    (hc₂ : c₂ * d₂ = 1) (h₁ : 0 < r₁) (h₂ : 0 < r₂) (h₃ : 0 < r₃) :
    Bijective (fmix r₁ c₁ r₂ c₂ r₃) :=
  (((bijective_xorShift h₃).comp (bijective_mul hc₂)).comp (bijective_xorShift h₂)).comp
    ((bijective_mul hc₁).comp (bijective_xorShift h₁))

/-- The state after a word was mixed in. -/
def stir (r : ℕ) (a c : BitVec w) (h : BitVec w) : BitVec w := (rotl r h + a) * 5 + c

theorem bijective_stir {r : ℕ} {five a c : BitVec w} (hfive : 5 * five = 1) (hpos : 0 < r)
    (hr : r < w) : Bijective (stir r a c) :=
  (((bijective_add c).comp (bijective_mul hfive)).comp (bijective_add a)).comp
    (bijective_rotl hpos hr)

/-- Numbers that share no digits. -/
theorem xor_eq_add {a c k : ℕ} (hc : c < 2 ^ k) : a * 2 ^ k ^^^ c = a * 2 ^ k + c := by
  have hdiv : (a * 2 ^ k ^^^ c) / 2 ^ k = a := by
    rw [Nat.xor_div_two_pow, Nat.mul_div_cancel _ (by positivity), Nat.div_eq_of_lt hc, Nat.xor_zero]
  have hmod : (a * 2 ^ k ^^^ c) % 2 ^ k = c := by
    rw [Nat.xor_mod_two_pow, Nat.mul_mod_left, Nat.mod_eq_of_lt hc, Nat.zero_xor]
  rw [← Nat.div_add_mod (a * 2 ^ k ^^^ c) (2 ^ k), hdiv, hmod, mul_comm]

/-- The bytes of a word. -/
theorem toNat_gather {bs : List UInt8} {i : ℕ} (h : 8 * (i + bs.length) ≤ w) :
    (gather w bs i).toNat = beNat bs.reverse * 2 ^ (8 * i) := by
  induction bs generalizing i with
  | nil => simp [gather, beNat]
  | cons b bs ih =>
    have hih := ih (i := i + 1) (by rw [List.length_cons] at h; omega)
    have hbyte : b.toNat < 2 ^ 8 := b.toNat_lt
    have hsmall : b.toNat * 2 ^ (8 * i) < 2 ^ (8 * (i + 1)) := by
      rw [show 8 * (i + 1) = 8 + 8 * i by ring, pow_add]
      exact Nat.mul_lt_mul_of_pos_right hbyte (by positivity)
    have hwide : 2 ^ (8 * (i + 1)) ≤ 2 ^ w := Nat.pow_le_pow_right (by norm_num) (by
      rw [List.length_cons] at h
      omega)
    have hshift : (BitVec.ofNat w b.toNat <<< (8 * i)).toNat = b.toNat * 2 ^ (8 * i) := by
      rw [BitVec.toNat_shiftLeft, BitVec.toNat_ofNat, Nat.shiftLeft_eq, Nat.mod_mul_mod,
        Nat.mod_eq_of_lt (hsmall.trans_le hwide)]
    rw [gather, BitVec.toNat_xor, hih, hshift, xor_eq_add hsmall, List.reverse_cons, beNat_append,
      beNat_cons, beNat]
    simp only [List.length_nil, List.length_cons, pow_zero, mul_one, add_zero]
    rw [show 8 * (i + 1) = 8 + 8 * i by ring, pow_add]
    ring

theorem eq_of_gather {bs bs' : List UInt8} (hlen : bs'.length = bs.length) (h : 8 * bs.length ≤ w)
    (heq : gather w bs 0 = gather w bs' 0) : bs = bs' := by
  have hnat := congrArg BitVec.toNat heq
  rw [toNat_gather (by omega), toNat_gather (by omega), mul_zero, pow_zero, mul_one, mul_one] at hnat
  have hreverse := eq_of_beNat_eq (by rw [List.length_reverse, List.length_reverse, hlen]) hnat
  exact List.reverse_injective hreverse

/-- A word that is mixed in if there are bytes for it. -/
theorem bijective_xorIf (c : Prop) [Decidable c] (k : BitVec w) :
    Bijective fun h : BitVec w => if c then h ^^^ k else h := by
  by_cases hc : c
  · simp only [hc, if_true]
    exact bijective_xor k
  · simp only [hc, if_false]
    exact bijective_id

theorem eq_of_xorIf {f : BitVec w → BitVec w} (hf : Injective f) {bs bs' : List UInt8}
    (hlen : bs'.length = bs.length) (hw : 8 * bs.length ≤ w) {c : Prop} [Decidable c]
    (hc : ¬c → bs.length = 0) {h : BitVec w}
    (heq : (if c then h ^^^ f (gather w bs 0) else h) = if c then h ^^^ f (gather w bs' 0) else h) :
    bs = bs' := by
  by_cases hbytes : c
  · rw [if_pos hbytes, if_pos hbytes] at heq
    exact eq_of_gather hlen hw (hf ((bijective_xor_left h).injective heq))
  · rw [List.length_eq_zero_iff.mp (hc hbytes),
      List.length_eq_zero_iff.mp (hlen.trans (hc hbytes))]

/-- A word is made of its bytes. -/
theorem bijective_getblock (n : ℕ) :
    Bijective fun bs : {bs : List UInt8 // bs.length = n} => getblock (8 * n) n bs 0 := by
  have hslice : ∀ bs : {bs : List UInt8 // bs.length = n}, Records.slice bs.1 (n * 0) n = bs := by
    rintro ⟨bs, rfl⟩
    rw [mul_zero, Records.slice, List.drop_zero, List.take_length]
  have hpow : (2 : ℕ) ^ (8 * n) = 256 ^ n := by
    rw [pow_mul]
    norm_num
  constructor
  · intro bs bs' heq
    have hnat := congrArg BitVec.toNat heq
    have hlt : ∀ bs : {bs : List UInt8 // bs.length = n}, beNat bs.1.reverse < 2 ^ (8 * n) := by
      intro bs
      have hbound := beNat_lt bs.1.reverse
      rwa [List.length_reverse, bs.2, ← hpow] at hbound
    simp only [getblock, hslice, BitVec.toNat_ofNat, Nat.mod_eq_of_lt (hlt _)] at hnat
    have hreverse := eq_of_beNat_eq (by simp only [List.length_reverse, bs.2, bs'.2]) hnat
    exact Subtype.ext (List.reverse_injective hreverse)
  · intro k
    have hlen : (leBytes n k.toNat).length = n := by
      rw [leBytes, List.length_reverse, length_beBytes]
    refine ⟨⟨leBytes n k.toNat, hlen⟩, ?_⟩
    dsimp only
    rw [getblock, hslice ⟨_, hlen⟩]
    show BitVec.ofNat (8 * n) (beNat (leBytes n k.toNat).reverse) = k
    rw [leBytes, List.reverse_reverse, beNat_beBytes, ← hpow,
      Nat.mod_eq_of_lt k.isLt, BitVec.ofNat_toNat, BitVec.setWidth_eq]

end Words

/-! ### 32 bits -/

def mix32 : BitVec 32 → BitVec 32 := mix 0xcc9e2d51 15 0x1b873593

/-- The body of the loop of `MurmurHash3_x86_32`. -/
def round32 (h1 k1 : BitVec 32) : BitVec 32 :=
  let h1 := h1 ^^^ mix32 k1
  rotl 13 h1 * 5 + 0xe6546b64

def tail32 (tail : List UInt8) (h1 : BitVec 32) : BitVec 32 :=
  if 0 < tail.length then h1 ^^^ mix32 (gather 32 tail 0) else h1

def fmix32 : BitVec 32 → BitVec 32 := fmix 16 0x85ebca6b 13 0xc2b2ae35 16

/-- `MurmurHash3_x86_32`. -/
def murmurHash3_x86_32 (key : List UInt8) (seed : UInt32) : UInt32 :=
  let nblocks := key.length / 4
  let h1 := (List.range nblocks).foldl (fun h1 i => round32 h1 (getblock 32 4 key i)) seed.toBitVec
  let h1 := tail32 (key.drop (nblocks * 4)) h1
  UInt32.ofBitVec (fmix32 (h1 ^^^ BitVec.ofNat 32 key.length))

theorem bijective_mix32 : Bijective mix32 :=
  bijective_mix (by decide : _ * (0xdee13bb1 : BitVec 32) = 1)
    (by decide : _ * (0x56ed309b : BitVec 32) = 1) (by decide) (by decide)

theorem absorbs_round32 : Absorbs round32 := by
  have hstir : Bijective fun h : BitVec 32 => rotl 13 h * 5 + 0xe6546b64 :=
    ((bijective_add _).comp (bijective_mul (by decide : _ * (0xcccccccd : BitVec 32) = 1))).comp
      (bijective_rotl (by decide) (by decide))
  exact ⟨fun k => hstir.comp (bijective_xor _), fun h =>
    hstir.comp ((bijective_xor_left h).comp bijective_mix32)⟩

theorem bijective_fmix32 : Bijective fmix32 :=
  bijective_fmix (by decide : _ * (0xa5cb9243 : BitVec 32) = 1)
    (by decide : _ * (0x7ed1b41d : BitVec 32) = 1) (by decide) (by decide) (by decide)

/-! ### 128 bits -/

def mixK1 : BitVec 64 → BitVec 64 := mix 0x87c37b91114253d5 31 0x4cf5ad432745937f

def mixK2 : BitVec 64 → BitVec 64 := mix 0x4cf5ad432745937f 33 0x87c37b91114253d5

/-- The body of the loop of `MurmurHash3_x64_128`. -/
def round128 (h k : BitVec 64 × BitVec 64) : BitVec 64 × BitVec 64 :=
  let h1 := h.1 ^^^ mixK1 k.1
  let h1 := stir 27 h.2 0x52dce729 h1
  let h2 := h.2 ^^^ mixK2 k.2
  let h2 := stir 31 h1 0x38495ab5 h2
  (h1, h2)

def tail128 (tail : List UInt8) (h : BitVec 64 × BitVec 64) : BitVec 64 × BitVec 64 :=
  let h2 := if 8 < tail.length then h.2 ^^^ mixK2 (gather 64 (tail.drop 8) 0) else h.2
  let h1 := if 0 < tail.length then h.1 ^^^ mixK1 (gather 64 (tail.take 8) 0) else h.1
  (h1, h2)

def fmix64 : BitVec 64 → BitVec 64 := fmix 33 0xff51afd7ed558ccd 33 0xc4ceb9fe1a85ec53 33

/-- `h1 += h2; h2 += h1`. -/
def spread (h : BitVec 64 × BitVec 64) : BitVec 64 × BitVec 64 :=
  let h1 := h.1 + h.2
  let h2 := h.2 + h1
  (h1, h2)

def finalize128 (len : BitVec 64) (h : BitVec 64 × BitVec 64) : BitVec 64 × BitVec 64 :=
  let h := spread (h.1 ^^^ len, h.2 ^^^ len)
  spread (fmix64 h.1, fmix64 h.2)

/-- `MurmurHash3_x64_128`. -/
def murmurHash3_x64_128 (key : List UInt8) (seed : UInt32) : UInt64 × UInt64 :=
  let nblocks := key.length / 16
  let h := (BitVec.ofNat 64 seed.toNat, BitVec.ofNat 64 seed.toNat)
  let h := (List.range nblocks).foldl (fun h i =>
    round128 h (getblock 64 8 key (i * 2 + 0), getblock 64 8 key (i * 2 + 1))) h
  let h := tail128 (key.drop (nblocks * 16)) h
  let h := finalize128 (BitVec.ofNat 64 key.length) h
  (UInt64.ofBitVec h.1, UInt64.ofBitVec h.2)

example : murmurHash3_x64_128 [0x68, 0x65, 0x6c, 0x6c, 0x6f] 0
    = (0xcbd8a7b341bd9b02, 0x5b1e906a48ae1d19) := by decide +kernel

theorem bijective_mixK1 : Bijective mixK1 :=
  bijective_mix (by decide : _ * (0xa98409e882ce4d7d : BitVec 64) = 1)
    (by decide : _ * (0xa81e14edd9de2c7f : BitVec 64) = 1) (by decide) (by decide)

theorem bijective_mixK2 : Bijective mixK2 :=
  bijective_mix (by decide : _ * (0xa81e14edd9de2c7f : BitVec 64) = 1)
    (by decide : _ * (0xa98409e882ce4d7d : BitVec 64) = 1) (by decide) (by decide)

theorem bijective_fmix64 : Bijective fmix64 :=
  bijective_fmix (by decide : _ * (0x4f74430c22a54005 : BitVec 64) = 1)
    (by decide : _ * (0x9cb4b2f8129337db : BitVec 64) = 1) (by decide) (by decide) (by decide)

theorem absorbs_round128 : Absorbs round128 := by
  have hfive : (5 : BitVec 64) * 0xcccccccccccccccd = 1 := by decide
  have hstir1 : ∀ a, Bijective (stir (w := 64) 27 a 0x52dce729) := fun a =>
    bijective_stir hfive (by decide) (by decide)
  have hstir2 : ∀ a, Bijective (stir (w := 64) 31 a 0x38495ab5) := fun a =>
    bijective_stir hfive (by decide) (by decide)
  refine ⟨fun k => ?_, fun h => ?_⟩
  · exact bijective_lanes (f := fun h1 h2 => stir 27 h2 0x52dce729 (h1 ^^^ mixK1 k.1))
      (g := fun h1 h2 => stir 31 h1 0x38495ab5 (h2 ^^^ mixK2 k.2))
      (fun h2 => (hstir1 h2).comp (bijective_xor _)) fun h1 => (hstir2 h1).comp (bijective_xor _)
  · exact bijective_lanes (f := fun k1 _ => stir 27 h.2 0x52dce729 (h.1 ^^^ mixK1 k1))
      (g := fun h1 k2 => stir 31 h1 0x38495ab5 (h.2 ^^^ mixK2 k2))
      (fun _ => (hstir1 h.2).comp ((bijective_xor_left h.1).comp bijective_mixK1))
      fun h1 => (hstir2 h1).comp ((bijective_xor_left h.2).comp bijective_mixK2)

theorem bijective_tail128 (tail : List UInt8) : Bijective (tail128 tail) :=
  (bijective_xorIf _ _).prodMap (bijective_xorIf _ _)

/-- Two tails of the same length are told apart by the word that takes in a byte on which they
differ. -/
theorem eq_of_tail128 {tail tail' : List UInt8} (hlen : tail'.length = tail.length)
    (hshort : tail.length ≤ 16) {h : BitVec 64 × BitVec 64}
    (heq : tail128 tail h = tail128 tail' h) : tail = tail' := by
  obtain ⟨hfst, hsnd⟩ := Prod.mk.inj heq
  rw [hlen] at hfst hsnd
  have htake : tail.take 8 = tail'.take 8 :=
    eq_of_xorIf bijective_mixK1.injective (by simp [hlen]) (by simp; omega) (by simp) hfst
  have hdrop : tail.drop 8 = tail'.drop 8 :=
    eq_of_xorIf bijective_mixK2.injective (by simp [hlen]) (by simp; omega) (by simp; omega) hsnd
  rw [← List.take_append_drop 8 tail, htake, hdrop, List.take_append_drop]

theorem bijective_finalize128 (len : BitVec 64) : Bijective (finalize128 len) := by
  have hspread : Bijective spread :=
    bijective_lanes (f := fun h1 h2 => h1 + h2) (g := fun h1 h2 => h2 + h1)
      (fun h2 => bijective_add h2) fun h1 => bijective_add h1
  have hxor := (bijective_xor len).prodMap (bijective_xor len)
  exact (hspread.comp (bijective_fmix64.prodMap bijective_fmix64)).comp (hspread.comp hxor)

/-! ### Keys -/

/-- The words of the first block. -/
def words (data : List UInt8) : BitVec 64 × BitVec 64 :=
  (getblock 64 8 data 0, getblock 64 8 data 1)

theorem getblock_drop (w n : ℕ) (data : List UInt8) (k i j : ℕ) :
    getblock w n (data.drop (n * k * i)) j = getblock w n data (i * k + j) := by
  rw [getblock, getblock, Records.slice, Records.slice, List.drop_drop]
  congr 6
  ring

theorem getblock_append {w n : ℕ} {bs : List UInt8} (rest : List UInt8) {i : ℕ}
    (h : n * i + n ≤ bs.length) : getblock w n (bs ++ rest) i = getblock w n bs i := by
  rw [getblock, getblock, Records.slice_append_left bs rest _ _ h]

/-- The halves of a block. -/
theorem words_append {bs : List UInt8} (h : bs.length = 8) (bs' : List UInt8) :
    words (bs ++ bs') = (getblock (8 * 8) 8 bs 0, getblock (8 * 8) 8 bs' 0) := by
  have hsnd : getblock 64 8 (bs ++ bs') 1 = getblock 64 8 bs' 0 := by
    rw [← getblock_drop 64 8 (bs ++ bs') 1 1 0, List.drop_left' h]
  rw [words, hsnd, getblock_append bs' (by omega)]

theorem bijective_words : Bijective fun bs : {bs : List UInt8 // bs.length = 16} => words bs := by
  have hhalf := bijective_getblock 8
  constructor
  · rintro ⟨bs, hbs⟩ ⟨bs', hbs'⟩ heq
    have htake : ∀ {bs : List UInt8}, bs.length = 16 → (bs.take 8).length = 8 := by
      intro bs hbs
      rw [List.length_take, hbs]
      rfl
    have hdrop : ∀ {bs : List UInt8}, bs.length = 16 → (bs.drop 8).length = 8 := by
      intro bs hbs
      rw [List.length_drop, hbs]
    dsimp only at heq
    rw [← List.take_append_drop 8 bs, ← List.take_append_drop 8 bs',
      words_append (htake hbs), words_append (htake hbs')] at heq
    obtain ⟨h1, h2⟩ := Prod.mk.inj heq
    have hfst : (⟨bs.take 8, htake hbs⟩ : {bs : List UInt8 // bs.length = 8})
        = ⟨bs'.take 8, htake hbs'⟩ := hhalf.injective h1
    have hsnd : (⟨bs.drop 8, hdrop hbs⟩ : {bs : List UInt8 // bs.length = 8})
        = ⟨bs'.drop 8, hdrop hbs'⟩ := hhalf.injective h2
    apply Subtype.ext
    show bs = bs'
    rw [← List.take_append_drop 8 bs, Subtype.mk.inj hfst, Subtype.mk.inj hsnd,
      List.take_append_drop]
  · rintro ⟨k1, k2⟩
    obtain ⟨⟨bs, hbs⟩, rfl⟩ := hhalf.surjective k1
    obtain ⟨⟨bs', hbs'⟩, rfl⟩ := hhalf.surjective k2
    exact ⟨⟨bs ++ bs', by rw [List.length_append, hbs, hbs']⟩, words_append hbs bs'⟩

/-! ### Both functions -/

/-- `MurmurHash3_x86_32`, for keys of any length. -/
def hash32 (seed : UInt32) : BlockHash 4 UInt8 (BitVec 32) (BitVec 32) (BitVec 32) where
  read := fun data => getblock 32 4 data 0
  init := seed.toBitVec
  round := round32
  tail := tail32
  finalize := fun len h1 => fmix32 (h1 ^^^ BitVec.ofNat 32 len)

/-- `MurmurHash3_x64_128`, for keys of any length. -/
def hash128 (seed : UInt32) :
    BlockHash 16 UInt8 (BitVec 64 × BitVec 64) (BitVec 64 × BitVec 64) (BitVec 64 × BitVec 64) where
  read := words
  init := (BitVec.ofNat 64 seed.toNat, BitVec.ofNat 64 seed.toNat)
  round := round128
  tail := tail128
  finalize := fun len => finalize128 (BitVec.ofNat 64 len)

theorem hash32_eq (key : List UInt8) (seed : UInt32) :
    murmurHash3_x86_32 key seed = UInt32.ofBitVec ((hash32 seed).hash key) := by
  have hread : ∀ i, getblock 32 4 (key.drop (4 * i)) 0 = getblock 32 4 key i := fun i => by
    have hdrop := getblock_drop 32 4 key 1 i 0
    rwa [mul_one, mul_one, add_zero] at hdrop
  rw [BlockHash.hash, blocks, List.foldl_map]
  simp only [hash32, hread]
  rfl

theorem hash128_eq (key : List UInt8) (seed : UInt32) : murmurHash3_x64_128 key seed
    = Prod.map UInt64.ofBitVec UInt64.ofBitVec ((hash128 seed).hash key) := by
  have hread : ∀ i, words (key.drop (16 * i))
      = (getblock 64 8 key (i * 2 + 0), getblock 64 8 key (i * 2 + 1)) := fun i => by
    rw [words, ← getblock_drop 64 8 key 2 i 0, ← getblock_drop 64 8 key 2 i 1]
  rw [BlockHash.hash, blocks, List.foldl_map]
  simp only [hash128, hread]
  rfl

theorem lossless_hash32 (seed : UInt32) : (hash32 seed).Lossless where
  pos := by decide
  read_append bs rest hbs := getblock_append rest (by omega)
  read := bijective_getblock 4
  round := absorbs_round32
  tail bs := bijective_xorIf _ _
  tail_eq bs bs' h hlen hshort heq := by
    simp only [hash32, tail32, hlen] at heq
    exact eq_of_xorIf bijective_mix32.injective hlen (by omega) (by omega) heq
  finalize len := bijective_fmix32.comp (bijective_xor _)

theorem lossless_hash128 (seed : UInt32) : (hash128 seed).Lossless where
  pos := by decide
  read_append bs rest hbs := by
    show words (bs ++ rest) = words bs
    rw [words, words, getblock_append rest (by omega), getblock_append rest (by omega)]
  read := bijective_words
  round := absorbs_round128
  tail := bijective_tail128
  tail_eq bs bs' h hlen hshort heq := eq_of_tail128 hlen hshort.le heq
  finalize len := bijective_finalize128 _

theorem bijective_ofBitVec64 : Bijective UInt64.ofBitVec :=
  ⟨fun _ _ h => UInt64.ofBitVec.inj h, fun x => ⟨x.toBitVec, rfl⟩⟩

theorem bijective_ofBitVec32 : Bijective UInt32.ofBitVec :=
  ⟨fun _ _ h => UInt32.ofBitVec.inj h, fun x => ⟨x.toBitVec, rfl⟩⟩

section Keys

variable (seed : UInt32) {front : List UInt8}

/-- Every word of 128 bits is the hash of one block between the others. -/
theorem bijective_block128 (hfront : 16 ∣ front.length) (back : List UInt8) :
    Bijective fun block : {bs : List UInt8 // bs.length = 16} =>
      murmurHash3_x64_128 (front ++ (block ++ back)) seed := by
  simp only [hash128_eq]
  exact (bijective_ofBitVec64.prodMap bijective_ofBitVec64).comp
    ((lossless_hash128 seed).bijective_block hfront back)

theorem injective_tail128 (hfront : 16 ∣ front.length) {k : ℕ} (hk : k < 16) :
    Injective fun tail : {bs : List UInt8 // bs.length = k} =>
      murmurHash3_x64_128 (front ++ tail) seed := by
  simp only [hash128_eq]
  exact (bijective_ofBitVec64.prodMap bijective_ofBitVec64).injective.comp
    ((lossless_hash128 seed).injective_tail hfront hk)

theorem bijective_block32 (hfront : 4 ∣ front.length) (back : List UInt8) :
    Bijective fun block : {bs : List UInt8 // bs.length = 4} =>
      murmurHash3_x86_32 (front ++ (block ++ back)) seed := by
  simp only [hash32_eq]
  exact bijective_ofBitVec32.comp ((lossless_hash32 seed).bijective_block hfront back)

theorem injective_tail32 (hfront : 4 ∣ front.length) {k : ℕ} (hk : k < 4) :
    Injective fun tail : {bs : List UInt8 // bs.length = k} =>
      murmurHash3_x86_32 (front ++ tail) seed := by
  simp only [hash32_eq]
  exact bijective_ofBitVec32.injective.comp ((lossless_hash32 seed).injective_tail hfront hk)

/-- Both functions tell keys apart that differ in one block, or in the bytes after the blocks. -/
theorem murmurHash3_lossless :
    (∀ front back : List UInt8, 16 ∣ front.length →
      Bijective fun block : {bs : List UInt8 // bs.length = 16} =>
        murmurHash3_x64_128 (front ++ (block ++ back)) seed) ∧
    (∀ front : List UInt8, ∀ k < 16, 16 ∣ front.length →
      Injective fun tail : {bs : List UInt8 // bs.length = k} =>
        murmurHash3_x64_128 (front ++ tail) seed) ∧
    (∀ front back : List UInt8, 4 ∣ front.length →
      Bijective fun block : {bs : List UInt8 // bs.length = 4} =>
        murmurHash3_x86_32 (front ++ (block ++ back)) seed) ∧
    ∀ front : List UInt8, ∀ k < 4, 4 ∣ front.length →
      Injective fun tail : {bs : List UInt8 // bs.length = k} =>
        murmurHash3_x86_32 (front ++ tail) seed :=
  ⟨fun _ back hfront => bijective_block128 seed hfront back,
    fun _ _ hk hfront => injective_tail128 seed hfront hk,
    fun _ back hfront => bijective_block32 seed hfront back,
    fun _ _ hk hfront => injective_tail32 seed hfront hk⟩

end Keys

end MurmurHash3

/-! ### Digests -/

open MurmurHash3

theorem length_flatMap_hopBytes (hops : List Hop) :
    (hops.flatMap hopBytes).length = 4 * hops.length := by
  rw [List.length_flatMap]
  simp [hopBytes, leBytes, mul_comm]

section Digests

variable (randomSeed : UInt32) {src : IsdAsn}

/-- Lists of hops that differ in one group of four hops, or in the last ones that make no group. -/
theorem computeDigest_inj {front xs ys back : List Hop} (hfront : 4 ∣ front.length)
    (hlen : ys.length = xs.length) (hgroup : xs.length = 4 ∨ xs.length < 4 ∧ back = [])
    (h : computeDigest murmurHash3_x64_128 randomSeed src (front ++ (xs ++ back))
      = computeDigest murmurHash3_x64_128 randomSeed src (front ++ (ys ++ back))) : xs = ys := by
  have hx := length_flatMap_hopBytes xs
  have hy := length_flatMap_hopBytes ys
  have hfront' : 16 ∣ (front.flatMap hopBytes).length := by
    rw [length_flatMap_hopBytes]
    exact Nat.mul_dvd_mul_left 4 hfront
  -- what is hashed of the source cancels out
  obtain ⟨hlo, hhi⟩ := PathDigest.mk.inj h
  have hhash := Prod.ext ((UInt64.xor_right_inj _).mp hlo) ((UInt64.xor_right_inj _).mp hhi)
  simp only [List.flatMap_append] at hhash
  apply flatMap_hopBytes_injective
  rcases hgroup with hfour | ⟨hfew, rfl⟩
  · have hsame : (⟨xs.flatMap hopBytes, by omega⟩ : {bs : List UInt8 // bs.length = 16})
        = ⟨ys.flatMap hopBytes, by omega⟩ :=
      (bijective_block128 randomSeed hfront' _).injective hhash
    exact Subtype.mk.inj hsame
  · simp only [List.flatMap_nil, List.append_nil] at hhash
    have hsame : (⟨xs.flatMap hopBytes, hx⟩ : {bs : List UInt8 // bs.length = 4 * xs.length})
        = ⟨ys.flatMap hopBytes, by omega⟩ :=
      injective_tail128 randomSeed hfront' (by omega) hhash
    exact Subtype.mk.inj hsame

/-- The same hops from another AS. -/
theorem computeDigest_source_inj {src' : IsdAsn} {hops : List Hop}
    (h : computeDigest murmurHash3_x64_128 randomSeed src hops
      = computeDigest murmurHash3_x64_128 randomSeed src' hops) : src = src' := by
  have hlen : ∀ v, (leBytes 8 v).length = 8 := fun v => by
    rw [leBytes, List.length_reverse, length_beBytes]
  obtain ⟨hlo, hhi⟩ := PathDigest.mk.inj h
  have hhash := Prod.ext ((UInt64.xor_left_inj _).mp hlo) ((UInt64.xor_left_inj _).mp hhi)
  have hsame : (⟨leBytes 8 src.ia.toNat, hlen _⟩ : {bs : List UInt8 // bs.length = 8})
      = ⟨leBytes 8 src'.ia.toNat, hlen _⟩ :=
    @injective_tail128 randomSeed [] (by simp) 8 (by norm_num) _ _ hhash
  have hnum := congrArg beNat (List.reverse_injective (Subtype.mk.inj hsame))
  rw [beNat_beBytes, beNat_beBytes, Nat.mod_eq_of_lt (show _ < 256 ^ 8 from src.ia.toNat_lt),
    Nat.mod_eq_of_lt (show _ < 256 ^ 8 from src'.ia.toNat_lt)] at hnum
  exact congrArg IsdAsn.mk (UInt64.toNat_inj.mp hnum)

variable {a b : PathObject}

/-- Paths of one source and as many hops have the same digest only if they are the same wherever
four hops are hashed at a time; and the same hops have it only from the same source. -/
theorem murmurDigest_eq_iff (hla : a.hops.length ≤ 64) (hlb : b.hops.length ≤ 64) :
    (∀ front xs ys back, a.firstAS = b.firstAS → a.hashedHops = front ++ (xs ++ back) →
      b.hashedHops = front ++ (ys ++ back) → 4 ∣ front.length → ys.length = xs.length →
      (xs.length = 4 ∨ xs.length < 4 ∧ back = []) →
      (a.digest murmurHash3_x64_128 randomSeed = b.digest murmurHash3_x64_128 randomSeed ↔
        xs = ys)) ∧
    (a.hashedHops = b.hashedHops →
      (a.digest murmurHash3_x64_128 randomSeed = b.digest murmurHash3_x64_128 randomSeed ↔
        a.firstAS = b.firstAS)) := by
  rw [PathObject.digest_eq _ _ hla, PathObject.digest_eq _ _ hlb]
  refine ⟨fun front xs ys back hsource ha hb hfront hlen hgroup => ?_, fun hhops => ?_⟩
  · rw [hsource, ha, hb]
    exact ⟨computeDigest_inj randomSeed hfront hlen hgroup, fun h => by rw [h]⟩
  · rw [hhops]
    exact ⟨computeDigest_source_inj randomSeed, fun h => by rw [h]⟩

/-- A path that leaves the last AS but one through interface `egress`. -/
def exampleTwoHops (egress : UInt16) : PathObject :=
  .path (IsdAsn.make 1 1) (IsdAsn.make 1 2) PathType.scion 0 1472 ⟨.v4 0x0a000001, 31000⟩
    { twoSegmentPath 0 1 with
      hfs := [⟨0, 63, 4, 0, exampleMac⟩, ⟨0, 63, 0, 3, exampleMac'⟩, ⟨0, 63, 0, 9, exampleMac⟩,
        ⟨0, 63, egress, 0, exampleMac'⟩] }.bytes

theorem murmurDigest_eq_iff_twoHops :
    (exampleTwoHops 10).digest murmurHash3_x64_128 7 = (exampleTwoHops 11).digest murmurHash3_x64_128 7
      ↔ [((4, 3) : Hop), (9, 10)] = [(4, 3), (9, 11)] :=
  (murmurDigest_eq_iff 7 (by decide +kernel) (by decide +kernel)).1 [] _ _ [] (by decide +kernel)
    (by decide +kernel) (by decide +kernel) (by decide) rfl (.inr ⟨by decide, rfl⟩)

end Digests

end Scion
