/-
Hash functions that mix words into a state.

A message is absorbed block by block. Where every step is a bijection of the state, and blocks
are mixed in by a bijection as well, messages that differ in one block have different hashes,
and every hash is that of a message with the other blocks given.

* `bijective_xorShift`, `bijective_rotl`, `bijective_mul`, `bijective_add` — operations on words;
* `bijective_lanes` — states of two words that are updated in turn;
* `Absorbs` — steps of this kind;
* `Absorbs.bijective_foldl`, `Absorbs.bijective_foldl_block` — any number of them;
* `BlockHash`, `BlockHash.Lossless` — hash functions that are made of such steps;
* `BlockHash.Lossless.bijective_block`, `BlockHash.Lossless.injective_tail` — what they tell apart.
-/
import Mathlib.Data.BitVec
import Mathlib.Logic.Function.Iterate
import Mathlib.Tactic

namespace Mixing

open Function

variable {α β γ σ : Type}

/-! ### Words -/

/-- A function some power of which is the identity. -/
theorem bijective_of_iterate {f : α → α} {n : ℕ} (h : f^[n + 1] = id) : Bijective f := by
  refine bijective_iff_has_inverse.mpr ⟨f^[n], fun x => ?_, fun x => ?_⟩
  · rw [← iterate_succ_apply f n x, h, id]
  · rw [← iterate_succ_apply' f n x, h, id]

section Words

variable {w : ℕ}

/-- `x ^= x >> k`. -/
def xorShift (k : ℕ) (x : BitVec w) : BitVec w := x ^^^ x >>> k

/-- `(x << r) | (x >> (w - r))`. -/
def rotl (r : ℕ) (x : BitVec w) : BitVec w := x <<< r ||| x >>> (w - r)

/-- Shifts add up, and what is shifted once only cancels out. -/
theorem xorShift_xorShift (k : ℕ) (x : BitVec w) : xorShift k (xorShift k x) = xorShift (2 * k) x := by
  rw [xorShift, xorShift, xorShift, BitVec.ushiftRight_xor_distrib, ← BitVec.shiftRight_add,
    BitVec.xor_assoc, ← BitVec.xor_assoc (x >>> k), BitVec.xor_self, BitVec.zero_xor, two_mul]

theorem iterate_xorShift (n k : ℕ) :
    (xorShift k : BitVec w → BitVec w)^[2 ^ n] = xorShift (2 ^ n * k) := by
  induction n with
  | zero => rw [pow_zero, one_mul, iterate_one]
  | succ n ih =>
    funext x
    rw [pow_succ, mul_two, iterate_add_apply, ih, xorShift_xorShift]
    congr 1
    ring

theorem xorShift_eq_id {k : ℕ} (h : w ≤ k) : (xorShift k : BitVec w → BitVec w) = id := by
  funext x
  rw [xorShift, BitVec.ushiftRight_eq_zero h, BitVec.xor_zero, id]

/-- Bits that are shifted often enough are gone. -/
theorem bijective_xorShift {k : ℕ} (hk : 0 < k) : Bijective (xorShift k : BitVec w → BitVec w) := by
  have hbig : w ≤ 2 ^ w * k := Nat.lt_two_pow_self.le.trans (Nat.le_mul_of_pos_right _ hk)
  have hid : (xorShift k : BitVec w → BitVec w)^[2 ^ w] = id := by
    rw [iterate_xorShift, xorShift_eq_id hbig]
  obtain ⟨n, hn⟩ : ∃ n, 2 ^ w = n + 1 := Nat.exists_eq_succ_of_ne_zero (by positivity)
  rw [hn] at hid
  exact bijective_of_iterate hid

theorem rotl_eq_rotateLeft {r : ℕ} (hr : r < w) (x : BitVec w) : rotl r x = x.rotateLeft r := by
  rw [BitVec.rotateLeft_eq_rotateLeftAux_of_lt hr]
  rfl

/-- Two rotations that make up a full turn. -/
theorem rotl_rotl {r : ℕ} (hpos : 0 < r) (hr : r < w) (x : BitVec w) : rotl (w - r) (rotl r x) = x := by
  rw [rotl_eq_rotateLeft (by omega), rotl_eq_rotateLeft hr]
  apply BitVec.eq_of_getLsbD_eq
  intro i hi
  rw [BitVec.getLsbD_rotateLeft_of_le (by omega)]
  by_cases hlow : i < w - r
  · have hback : ¬w - (w - r) + i < r := by omega
    simp only [hlow, decide_true, cond_true, BitVec.getLsbD_rotateLeft_of_le hr, hback,
      decide_false, cond_false, show w - (w - r) + i - r = i by omega,
      show w - (w - r) + i < w by omega, Bool.true_and]
  · have hback : i - (w - r) < r := by omega
    simp only [hlow, decide_false, cond_false, BitVec.getLsbD_rotateLeft_of_le hr, hback,
      decide_true, cond_true, hi, show w - r + (i - (w - r)) = i by omega, Bool.true_and]

theorem bijective_rotl {r : ℕ} (hpos : 0 < r) (hr : r < w) :
    Bijective (rotl r : BitVec w → BitVec w) := by
  refine bijective_iff_has_inverse.mpr ⟨rotl (w - r), rotl_rotl hpos hr, fun x => ?_⟩
  have hback := rotl_rotl (show 0 < w - r by omega) (show w - r < w by omega) x
  rwa [show w - (w - r) = r by omega] at hback

theorem bijective_mul {c c' : BitVec w} (h : c * c' = 1) : Bijective fun x : BitVec w => x * c := by
  refine bijective_iff_has_inverse.mpr ⟨fun x => x * c', fun x => ?_, fun x => ?_⟩
  · dsimp only
    rw [mul_assoc, h, mul_one]
  · dsimp only
    rw [mul_assoc, mul_comm c', h, mul_one]

theorem bijective_add (c : BitVec w) : Bijective fun x : BitVec w => x + c :=
  (Equiv.addRight c).bijective

theorem bijective_xor (c : BitVec w) : Bijective fun x : BitVec w => x ^^^ c := by
  refine bijective_of_iterate (n := 1) (funext fun x => ?_)
  show x ^^^ c ^^^ c = x
  rw [BitVec.xor_assoc, BitVec.xor_self, BitVec.xor_zero]

theorem bijective_xor_left (c : BitVec w) : Bijective fun x : BitVec w => c ^^^ x := by
  have hcomm : (fun x : BitVec w => c ^^^ x) = fun x => x ^^^ c := funext fun x => BitVec.xor_comm c x
  rw [hcomm]
  exact bijective_xor c

end Words

/-! ### States of two words -/

/-- An update of the first component that depends on the second one. -/
theorem bijective_fst {f : α → β → γ} (h : ∀ b, Bijective fun a => f a b) :
    Bijective fun p : α × β => (f p.1 p.2, p.2) := by
  constructor
  · rintro ⟨a, b⟩ ⟨a', b'⟩ heq
    obtain ⟨hfst, rfl : b = b'⟩ := Prod.mk.inj heq
    have hsame : a = a' := (h b).injective hfst
    rw [hsame]
  · rintro ⟨c, b⟩
    obtain ⟨a, rfl⟩ := (h b).surjective c
    exact ⟨(a, b), rfl⟩

theorem bijective_snd {f : α → β → γ} (h : ∀ a, Bijective (f a)) :
    Bijective fun p : α × β => (p.1, f p.1 p.2) := by
  constructor
  · rintro ⟨a, b⟩ ⟨a', b'⟩ heq
    obtain ⟨rfl : a = a', hsnd⟩ := Prod.mk.inj heq
    have hsame : b = b' := (h a).injective hsnd
    rw [hsame]
  · rintro ⟨a, c⟩
    obtain ⟨b, rfl⟩ := (h a).surjective c
    exact ⟨(a, b), rfl⟩

/-- Updates of both components, one after the other. -/
theorem bijective_lanes {δ : Type} {f : α → β → γ} {g : γ → β → δ}
    (hf : ∀ b, Bijective fun a => f a b) (hg : ∀ c, Bijective (g c)) :
    Bijective fun p : α × β => (f p.1 p.2, g (f p.1 p.2) p.2) :=
  (bijective_snd hg).comp (bijective_fst hf)

/-! ### Messages -/

/-- A block is mixed into a state, and either one can be found again from the other. -/
structure Absorbs (f : σ → β → σ) : Prop where
  state : ∀ b, Bijective fun s => f s b
  block : ∀ s, Bijective (f s)

section Messages

variable {f : σ → β → σ}

theorem Absorbs.bijective_foldl (h : Absorbs f) (bs : List β) : Bijective fun s => bs.foldl f s := by
  induction bs with
  | nil => exact bijective_id
  | cons b bs ih => exact ih.comp (h.state b)

/-- The hash as a function of one block. -/
theorem Absorbs.bijective_foldl_block (h : Absorbs f) (front back : List β) (s : σ) :
    Bijective fun b => (front ++ b :: back).foldl f s := by
  have hsplit : (fun b => (front ++ b :: back).foldl f s)
      = (fun s => back.foldl f s) ∘ f (front.foldl f s) := by
    funext b
    rw [List.foldl_append, List.foldl_cons, comp_apply]
  rw [hsplit]
  exact (h.bijective_foldl back).comp (h.block _)

end Messages

/-! ### Hash functions -/

section Blocks

/-- The blocks of a message, `n` letters each. -/
def blocks (n : ℕ) (read : List β → α) (data : List β) (nblocks : ℕ) : List α :=
  (List.range nblocks).map fun i => read (data.drop (n * i))

theorem blocks_succ (n : ℕ) (read : List β → α) (data : List β) (k : ℕ) :
    blocks n read data (k + 1) = read data :: blocks n read (data.drop n) k := by
  rw [blocks, blocks, List.range_succ_eq_map, List.map_cons, List.map_map, mul_zero, List.drop_zero]
  congr 1
  refine List.map_congr_left fun i _ => ?_
  rw [comp_apply, List.drop_drop, Nat.succ_eq_add_one]
  congr 2
  ring

/-- One block between others. -/
theorem exists_blocks_split {n : ℕ} (read : List β → α)
    (hread : ∀ bs rest, bs.length = n → read (bs ++ rest) = read bs) {front : List β} {m : ℕ}
    (hfront : front.length = n * m) (back : List β) (k : ℕ) :
    ∃ before after, ∀ bs : List β, bs.length = n →
      blocks n read (front ++ (bs ++ back)) (m + 1 + k) = before ++ read bs :: after := by
  induction m generalizing front with
  | zero =>
    refine ⟨[], blocks n read back k, fun bs hbs => ?_⟩
    have hnil : front = [] := List.length_eq_zero_iff.mp hfront
    rw [hnil, List.nil_append, Nat.zero_add, Nat.add_comm, blocks_succ, hread bs back hbs,
      ← hbs, List.drop_left, List.nil_append]
  | succ m ih =>
    have hle : n ≤ front.length := by
      rw [hfront]
      exact Nat.le_mul_of_pos_right _ (Nat.succ_pos m)
    have hdrop : (front.drop n).length = n * m := by
      rw [List.length_drop, hfront, Nat.mul_succ, Nat.add_sub_cancel]
    obtain ⟨before, after, hsplit⟩ := ih hdrop
    refine ⟨read (front.take n) :: before, after, fun bs hbs => ?_⟩
    have hhead : read (front ++ (bs ++ back)) = read (front.take n) := by
      rw [← List.take_append_drop n front, List.append_assoc, hread _ _ (by
        rw [List.length_take]
        omega), List.take_append_drop]
    rw [show m + 1 + 1 + k = m + 1 + k + 1 by ring, blocks_succ, hhead,
      List.drop_append_of_le_length hle, hsplit bs hbs, List.cons_append]

/-- The blocks before what is left over. -/
theorem blocks_append {n : ℕ} {read : List β → α}
    (hread : ∀ bs rest, bs.length = n → read (bs ++ rest) = read bs) {front : List β} {m : ℕ}
    (hfront : front.length = n * m) (tail : List β) :
    blocks n read (front ++ tail) m = blocks n read front m := by
  induction m generalizing front with
  | zero => rfl
  | succ m ih =>
    rw [Nat.mul_succ] at hfront
    have hdrop : (front.drop n).length = n * m := by
      rw [List.length_drop, hfront, Nat.add_sub_cancel]
    have hrest := ih hdrop
    have hhead : ∀ rest, read (front ++ rest) = read (front.take n) := by
      intro rest
      rw [← List.take_append_drop n front, List.append_assoc, hread _ _ (by
        rw [List.length_take]
        omega), List.take_append_drop]
    have hnil := hhead []
    rw [List.append_nil] at hnil
    rw [blocks_succ, blocks_succ, hhead, hnil, List.drop_append_of_le_length (by omega), hrest]

end Blocks

/-- A hash function that takes in `n` letters at a time. -/
structure BlockHash (n : ℕ) (β γ σ δ : Type) where
  read : List β → γ
  init : σ
  round : σ → γ → σ
  /-- What is left over is taken in at last. -/
  tail : List β → σ → σ
  finalize : ℕ → σ → δ

namespace BlockHash

variable {n : ℕ} {β γ σ δ : Type}

def hash (H : BlockHash n β γ σ δ) (key : List β) : δ :=
  H.finalize key.length (H.tail (key.drop (key.length / n * n))
    ((blocks n H.read key (key.length / n)).foldl H.round H.init))

/-- Nothing that is taken in is lost. -/
structure Lossless (H : BlockHash n β γ σ δ) : Prop where
  pos : 0 < n
  read_append : ∀ bs rest, bs.length = n → H.read (bs ++ rest) = H.read bs
  read : Bijective fun bs : {bs : List β // bs.length = n} => H.read bs
  round : Absorbs H.round
  tail : ∀ bs, Bijective (H.tail bs)
  tail_eq : ∀ bs bs' s, bs'.length = bs.length → bs.length < n → H.tail bs s = H.tail bs' s →
    bs = bs'
  finalize : ∀ len, Bijective (H.finalize len)

variable {H : BlockHash n β γ σ δ} {front : List β}

/-- With all blocks but one given, every hash is that of exactly one block. -/
theorem Lossless.bijective_block (h : H.Lossless) (hfront : n ∣ front.length) (back : List β) :
    Bijective fun block : {bs : List β // bs.length = n} => H.hash (front ++ (block ++ back)) := by
  obtain ⟨m, hm⟩ := hfront
  obtain ⟨before, after, hsplit⟩ :=
    exists_blocks_split H.read h.read_append hm back (back.length / n)
  -- neither the length nor the tail depends on the block
  have hkey : ∀ block : {bs : List β // bs.length = n}, H.hash (front ++ (block ++ back))
      = H.finalize (n * (m + 1) + back.length) (H.tail (back.drop (back.length / n * n))
        ((before ++ H.read block :: after).foldl H.round H.init)) := by
    rintro ⟨block, hblock⟩
    have hfb : (front ++ block).length = (m + 1) * n := by
      rw [List.length_append, hm, hblock]
      ring
    have hlength : (front ++ (block ++ back)).length = n * (m + 1) + back.length := by
      rw [← List.append_assoc, List.length_append, hfb]
      ring
    have hnblocks : (n * (m + 1) + back.length) / n = m + 1 + back.length / n :=
      Nat.mul_add_div h.pos _ _
    have hdrop : (front ++ (block ++ back)).drop ((m + 1 + back.length / n) * n)
        = back.drop (back.length / n * n) := by
      rw [add_mul, ← List.append_assoc, ← hfb, ← List.drop_drop, List.drop_left]
    rw [hash, hlength, hnblocks, hdrop, hsplit block hblock]
  simp only [hkey]
  exact ((h.finalize _).comp (h.tail _)).comp
    ((h.round.bijective_foldl_block before after _).comp h.read)

/-- Messages that differ in what is left over have different hashes. -/
theorem Lossless.injective_tail (h : H.Lossless) (hfront : n ∣ front.length) {k : ℕ} (hk : k < n) :
    Injective fun tail : {bs : List β // bs.length = k} => H.hash (front ++ tail) := by
  obtain ⟨m, hm⟩ := hfront
  have hkey : ∀ {tail : List β}, tail.length = k → H.hash (front ++ tail)
      = H.finalize (n * m + k) (H.tail tail ((blocks n H.read front m).foldl H.round H.init)) := by
    intro tail htail
    have hlength : (front ++ tail).length = n * m + k := by rw [List.length_append, hm, htail]
    have hnblocks : (n * m + k) / n = m := by
      rw [Nat.mul_add_div h.pos, Nat.div_eq_of_lt hk, add_zero]
    rw [hash, hlength, hnblocks, blocks_append h.read_append hm, mul_comm m, ← hm, List.drop_left]
  rintro ⟨tail, htail⟩ ⟨tail', htail'⟩ heq
  dsimp only at heq
  rw [hkey htail, hkey htail'] at heq
  have hsame := (h.finalize _).injective heq
  have hshort : tail.length < n := by omega
  exact Subtype.ext (h.tail_eq _ _ _ (htail'.trans htail.symm) hshort hsame)

end BlockHash

end Mixing
