/-
The vectorised internet checksum (`hdr/details.cpp`).

With AVX2 the words up to the first 16-byte boundary are added one by one, then
whole blocks of eight words in the eight lanes of a register, then the words
and the odd byte that are left.

* `onesComplementChecksumAVX` — the function, `none` where it would read past
  the buffer or load a block from an unaligned address;
* `laneSum_addBlocks` — the lanes of the accumulator hold the words of all
  blocks together;
* `onesComplementChecksumAVX_eq_scalar` — it is the scalar checksum.
-/
import Scion.Checksum

namespace Scion

open BigEndian

/-! ### Vector registers -/

/-- A 128-bit register as its bytes, the byte of the lowest address first. -/
abbrev M128i := Fin 16 → UInt8

/-- A 256-bit register as its 32-bit lanes. -/
abbrev M256i := Fin 8 → UInt32

def mm256_setzero_si256 : M256i := fun _ => 0

/-- The bytes are given from the last to the first. -/
def mm_set_epi8 (e : M128i) : M128i := fun i => e i.rev

/-- Each byte of the mask selects a byte by its low four bits, or zero by its
sign. -/
def mm_shuffle_epi8 (a mask : M128i) : M128i := fun i =>
  if mask i &&& 0x80 ≠ 0 then 0 else a (Fin.ofNat 16 (mask i &&& 0x0f).toNat)

/-- The eight little-endian 16-bit lanes, extended with zeros. -/
def mm256_cvtepu16_epi32 (a : M128i) : M256i := fun i =>
  UInt32.ofNat (beNat [a ⟨2 * i + 1, by omega⟩, a ⟨2 * i, by omega⟩])

def mm256_add_epi32 (a b : M256i) : M256i := fun i => a i + b i

/-- The block at an offset of the buffer that lies at `ptr`: the address must be
a multiple of 16. -/
def mm_load_si128 (ptr : UInt64) (buffer : List UInt8) (offset : ℕ) : Option M128i :=
  if h : (ptr + .ofNat offset).toNat % 16 = 0 ∧ offset + 16 ≤ buffer.length then
    some fun i => buffer[offset + i]
  else none

/-- The lanes, stored and added to a sum. -/
def laneSum (sum : UInt32) (acc : M256i) : UInt32 :=
  (List.ofFn acc).foldl (· + ·) sum

/-- Swap adjacent bytes. -/
def swapMask : M128i :=
  mm_set_epi8 ![14, 15, 12, 13, 10, 11, 8, 9, 6, 7, 4, 5, 2, 3, 0, 1]

/-! ### The function -/

/-- The big-endian word at an offset. -/
def wordAt (buffer : List UInt8) (offset : ℕ) : Option UInt32 := do
  let hi ← buffer[offset]?
  let lo ← buffer[offset + 1]?
  return UInt32.ofNat (beNat [hi, lo])

/-- The loop over `count` words from an offset on. -/
def addWordsFrom (buffer : List UInt8) : ℕ → ℕ → UInt32 → Option UInt32
  | _, 0, sum => some sum
  | offset, count + 1, sum => do
    let word ← wordAt buffer offset
    addWordsFrom buffer (offset + 2) count (sum + word)

/-- The loop over the aligned blocks. -/
def addBlocks (ptr : UInt64) (buffer : List UInt8) (lastBlock block : ℕ) (acc : M256i) :
    Option M256i :=
  if block < lastBlock then do
    let a ← mm_load_si128 ptr buffer block
    let a := mm_shuffle_epi8 a swapMask
    addBlocks ptr buffer lastBlock (block + 16)
      (mm256_add_epi32 acc (mm256_cvtepu16_epi32 a))
  else
    some acc
termination_by lastBlock - block

/-- The last byte of a buffer of odd length. -/
def addOddByte (buffer : List UInt8) (sum : UInt32) : Option UInt32 :=
  if buffer.length % 2 = 1 then do
    let last ← buffer[buffer.length - 1]?
    return sum + (last.toUInt32 <<< 8)
  else
    some sum

/-- `ptr` is the address of the buffer; the pointers into it are offsets. -/
def onesComplementChecksumAVX (ptr : UInt64) (buffer : List UInt8) (inital : UInt32) :
    Option UInt16 := do
  let size := buffer.length
  if ptr % 2 ≠ 0 then
    return onesComplementChecksumScalar buffer inital
  let align := min (-ptr &&& 15).toNat size
  let sum ← addWordsFrom buffer 0 (align / 2) inital
  -- `& ~15`
  let lastBlock := align + (size - align) / 16 * 16
  let acc ← addBlocks ptr buffer lastBlock align mm256_setzero_si256
  let sum := laneSum sum acc
  let remainder := (size - align) % 16
  let sum ← addWordsFrom buffer lastBlock (remainder / 2) sum
  let sum ← addOddByte buffer sum
  let sum := (sum >>> 16) + (sum &&& 0xffff)
  return sum.toUInt16

/-! ### Words -/

theorem addWords_eq (sum : UInt32) (buffer : List UInt8) :
    addWords sum buffer = sum + .ofNat (wordSum buffer) := by
  rw [← UInt32.toNat_inj, toNat_addWords, UInt32.toNat_add, UInt32.toNat_ofNat',
    Nat.add_mod_mod]

theorem addWords_append (sum : UInt32) (xs ys : List UInt8) (h : xs.length % 2 = 0) :
    addWords sum (xs ++ ys) = addWords (addWords sum xs) ys := by
  rw [addWords_eq, addWords_eq, addWords_eq, wordSum_append _ _ h, UInt32.ofNat_add,
    UInt32.add_assoc]

/-- The bytes of the buffer between two offsets. -/
def stretch (buffer : List UInt8) (i j : ℕ) : List UInt8 := (buffer.drop i).take (j - i)

theorem length_stretch {buffer : List UInt8} {i j : ℕ} (hj : j ≤ buffer.length) :
    (stretch buffer i j).length = j - i := by
  rw [stretch, List.length_take, List.length_drop]
  omega

theorem stretch_append (buffer : List UInt8) {i j k : ℕ} (hij : i ≤ j) (hjk : j ≤ k) :
    stretch buffer i j ++ stretch buffer j k = stretch buffer i k := by
  rw [stretch, stretch, stretch, show k - i = (j - i) + (k - j) by omega, List.take_add,
    List.drop_drop, show i + (j - i) = j by omega]

theorem stretch_self (buffer : List UInt8) (i : ℕ) : stretch buffer i i = [] := by
  rw [stretch, Nat.sub_self, List.take_zero]

/-- Words added up to one offset and from there on are words added up. -/
theorem addWords_stretch (sum : UInt32) (buffer : List UInt8) {i j k : ℕ} (hij : i ≤ j)
    (hjk : j ≤ k) (hj : j ≤ buffer.length) (heven : (j - i) % 2 = 0) :
    addWords (addWords sum (stretch buffer i j)) (stretch buffer j k)
      = addWords sum (stretch buffer i k) := by
  rw [← addWords_append _ _ _ (by rw [length_stretch hj]; exact heven), stretch_append _ hij hjk]

theorem stretch_two {buffer : List UInt8} {i : ℕ} (h : i + 2 ≤ buffer.length) :
    stretch buffer i (i + 2) = [buffer[i], buffer[i + 1]] := by
  rw [stretch, show i + 2 - i = 2 by omega, List.drop_eq_getElem_cons (by omega),
    List.drop_eq_getElem_cons (by omega)]
  rfl

theorem addWordsFrom_eq (buffer : List UInt8) (offset count : ℕ) (sum : UInt32)
    (h : offset + 2 * count ≤ buffer.length) :
    addWordsFrom buffer offset count sum
      = some (addWords sum (stretch buffer offset (offset + 2 * count))) := by
  induction count generalizing offset sum with
  | zero =>
    rw [addWordsFrom, Nat.mul_zero, Nat.add_zero, stretch_self, addWords]
  | succ count ih =>
    have hword : wordAt buffer offset
        = some (UInt32.ofNat (beNat [buffer[offset], buffer[offset + 1]])) := by
      rw [wordAt, List.getElem?_eq_getElem (by omega), List.getElem?_eq_getElem (by omega)]
      rfl
    have hstep : sum + UInt32.ofNat (beNat [buffer[offset], buffer[offset + 1]])
        = addWords sum (stretch buffer offset (offset + 2)) := by
      rw [stretch_two (by omega), addWords, addWords]
    rw [addWordsFrom, hword, Option.bind_eq_bind, Option.bind_some, ih _ _ (by omega), hstep,
      addWords_stretch _ _ (by omega) (by omega) (by omega) (by omega),
      show offset + 2 + 2 * count = offset + 2 * (count + 1) by omega]

/-! ### Blocks -/

theorem laneSum_add (sum : UInt32) (a b : M256i) :
    laneSum sum (mm256_add_epi32 a b) = laneSum (laneSum sum a) b := by
  simp only [laneSum, mm256_add_epi32, List.ofFn_succ, List.ofFn_zero, List.foldl_cons,
    List.foldl_nil]
  ac_rfl

/-- The shuffle turns the little-endian lanes into big-endian words. -/
theorem cvtepu16_swapMask (a : M128i) (i : Fin 8) :
    mm256_cvtepu16_epi32 (mm_shuffle_epi8 a swapMask) i
      = UInt32.ofNat (beNat [a ⟨2 * i, by omega⟩, a ⟨2 * i + 1, by omega⟩]) := by
  fin_cases i <;> rfl

/-- The lanes of one block are its eight words. -/
theorem laneSum_block (sum : UInt32) (a : M128i) :
    laneSum sum (mm256_cvtepu16_epi32 (mm_shuffle_epi8 a swapMask))
      = addWords sum (List.ofFn a) := by
  have hlanes : mm256_cvtepu16_epi32 (mm_shuffle_epi8 a swapMask) = fun i : Fin 8 =>
      UInt32.ofNat (beNat [a ⟨2 * i, by omega⟩, a ⟨2 * i + 1, by omega⟩]) :=
    funext (cvtepu16_swapMask a)
  rw [hlanes]
  rfl

theorem mm_load_si128_eq {ptr : UInt64} (buffer : List UInt8) {offset : ℕ}
    (haligned : (ptr.toNat + offset) % 16 = 0) (h : offset + 16 ≤ buffer.length) :
    ∃ a, mm_load_si128 ptr buffer offset = some a ∧
      List.ofFn a = stretch buffer offset (offset + 16) := by
  have haddress : (ptr + .ofNat offset).toNat % 16 = 0 := by
    rw [UInt64.toNat_add, UInt64.toNat_ofNat']
    omega
  refine ⟨_, dif_pos ⟨haddress, h⟩, ?_⟩
  refine List.ext_getElem ?_ ?_
  · rw [List.length_ofFn, length_stretch h]
    omega
  · intro i _ _
    simp only [stretch, List.getElem_ofFn, List.getElem_take, List.getElem_drop]

/-- Every block the loop loads is aligned and inside the buffer, and its words
go into the lanes. -/
theorem laneSum_addBlocks (ptr : UInt64) (buffer : List UInt8) {lastBlock : ℕ} (sum : UInt32)
    (hlast : lastBlock ≤ buffer.length) (n : ℕ) (block : ℕ) (acc : M256i)
    (hn : lastBlock = block + 16 * n)
    (haligned : block < lastBlock → (ptr.toNat + block) % 16 = 0) :
    ∃ acc', addBlocks ptr buffer lastBlock block acc = some acc' ∧
      laneSum sum acc' = addWords (laneSum sum acc) (stretch buffer block lastBlock) := by
  induction n generalizing block acc with
  | zero =>
    obtain rfl : lastBlock = block := by omega
    refine ⟨acc, ?_, ?_⟩
    · rw [addBlocks, if_neg (lt_irrefl _)]
    · rw [stretch_self, addWords]
  | succ n ih =>
    have hlt : block < lastBlock := by omega
    obtain ⟨a, hload, ha⟩ := mm_load_si128_eq buffer (haligned hlt) (by omega)
    obtain ⟨acc', hrest, hsum⟩ := ih (block + 16)
      (mm256_add_epi32 acc (mm256_cvtepu16_epi32 (mm_shuffle_epi8 a swapMask)))
      (by omega) (fun _ => by have h := haligned hlt; omega)
    refine ⟨acc', ?_, ?_⟩
    · rw [addBlocks, if_pos hlt, hload]
      exact hrest
    · rw [hsum, laneSum_add, laneSum_block, ha,
        addWords_stretch _ _ (by omega) (by omega) (by omega) (by omega)]

/-! ### The whole buffer -/

/-- The distance to the next 16-byte boundary. -/
theorem toNat_neg_and (ptr : UInt64) :
    (-ptr &&& 15).toNat = (16 - ptr.toNat % 16) % 16 := by
  have hlt := ptr.toNat_lt
  rw [UInt64.toNat_and, UInt64.toNat_neg, show (15 : UInt64).toNat = 2 ^ 4 - 1 from rfl,
    Nat.and_two_pow_sub_one_eq_mod, UInt64.size]
  omega

/-- The words of a buffer and its odd byte are all of it. -/
theorem addOddByte_eq (buffer : List UInt8) (inital : UInt32) :
    addOddByte buffer (addWords inital (stretch buffer 0 (2 * (buffer.length / 2))))
      = some (addWords inital buffer) := by
  have hwhole : stretch buffer 0 buffer.length = buffer := by
    rw [stretch, Nat.sub_zero, List.drop_zero, List.take_length]
  rw [addOddByte]
  split
  · rename_i hodd
    have hlast : stretch buffer (buffer.length - 1) buffer.length
        = [buffer[buffer.length - 1]] := by
      rw [stretch, show buffer.length - (buffer.length - 1) = 1 by omega,
        List.drop_eq_getElem_cons (by omega)]
      rfl
    have h := addWords_stretch inital buffer (Nat.zero_le (buffer.length - 1))
      (Nat.sub_le _ 1) (by omega) (by omega)
    rw [hwhole, hlast, addWords] at h
    rw [List.getElem?_eq_getElem (by omega), show 2 * (buffer.length / 2) = buffer.length - 1
      by omega, ← h]
    rfl
  · rw [show 2 * (buffer.length / 2) = buffer.length by omega, hwhole]

/-- The vectorised and the scalar checksum agree for every buffer, address and
initial value, and every load of a block is aligned and in bounds. -/
theorem onesComplementChecksumAVX_eq_scalar (ptr : UInt64) (buffer : List UInt8)
    (inital : UInt32) :
    onesComplementChecksumAVX ptr buffer inital
      = some (onesComplementChecksumScalar buffer inital) := by
  by_cases hodd : ptr % 2 ≠ 0
  · rw [onesComplementChecksumAVX, if_pos hodd]
    rfl
  have heven : ptr.toNat % 2 = 0 := by
    have h := congrArg UInt64.toNat (not_not.mp hodd)
    rwa [UInt64.toNat_mod] at h
  set size := buffer.length with hsize
  set align := min (-ptr &&& 15).toNat size with halign
  set lastBlock := align + (size - align) / 16 * 16 with hlast
  have hgap := toNat_neg_and ptr
  -- the first aligned byte, or the end of a buffer that has none
  have hcase : align = size ∨
      (align < size ∧ align % 2 = 0 ∧ (ptr.toNat + align) % 16 = 0) := by
    rcases Nat.lt_or_ge (-ptr &&& 15).toNat size with hlt | hge
    · right
      rw [min_eq_left hlt.le] at halign
      omega
    · left
      exact min_eq_right hge
  have hle : align ≤ size := min_le_right _ _
  have hhead := addWordsFrom_eq buffer 0 (align / 2) inital (by omega)
  obtain ⟨acc, hblocks, hacc⟩ := laneSum_addBlocks ptr buffer
    (addWords inital (stretch buffer 0 (0 + 2 * (align / 2))))
    (show lastBlock ≤ buffer.length by omega)
    ((size - align) / 16) align mm256_setzero_si256 (by omega) (by omega)
  have htail := addWordsFrom_eq buffer lastBlock ((size - align) % 16 / 2)
    (laneSum (addWords inital (stretch buffer 0 (0 + 2 * (align / 2)))) acc) (by omega)
  -- all whole words of the buffer
  have hwords : addWords (laneSum (addWords inital (stretch buffer 0 (0 + 2 * (align / 2)))) acc)
        (stretch buffer lastBlock (lastBlock + 2 * ((size - align) % 16 / 2)))
      = addWords inital (stretch buffer 0 (2 * (size / 2))) := by
    have hzero (s : UInt32) : laneSum s mm256_setzero_si256 = s := by
      simp [laneSum, mm256_setzero_si256, List.ofFn_succ]
    rw [hacc, hzero, Nat.zero_add]
    rcases hcase with hall | ⟨hlt, halign2, -⟩
    · rw [show lastBlock = align by omega, stretch_self, addWords,
        show align + 2 * ((size - align) % 16 / 2) = align by omega, stretch_self, addWords, hall]
    · rw [show 2 * (align / 2) = align by omega,
        addWords_stretch _ _ (by omega) (by omega) (by omega) (by omega),
        addWords_stretch _ _ (by omega) (by omega) (by omega) (by omega),
        show lastBlock + 2 * ((size - align) % 16 / 2) = 2 * (size / 2) by omega]
  rw [onesComplementChecksumAVX, if_neg hodd]
  simp only [Option.bind_eq_bind, Option.pure_def]
  rw [← hsize, ← halign, hhead, Option.bind_some, hblocks, Option.bind_some, htail,
    Option.bind_some, hwords, addOddByte_eq]
  rfl

end Scion
