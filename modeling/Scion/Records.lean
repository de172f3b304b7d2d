/-
Buffers of records of one size, and the in-place reversal loop.

A buffer holding `cs.flatten`, every record of `cs` being `w` elements long, is
read and overwritten record by record; the loop that swaps the outermost
records and moves inwards reverses it.

* `slice`, `overwrite` — copying out of and into a buffer;
* `exists_records` — a buffer of the right length is made of records;
* `slice_flatten`, `overwrite_flatten` — record access;
* `swapLoop`, `swapLoop_rel` — the loop and its simulation rule;
* `swapLoop_swapAt`, `swapLoop_swapRecords` — it reverses lists and buffers.
-/
import Mathlib.Tactic

namespace Records

variable {α β σ τ : Type}

/-! ### Copying -/

/-- `n` elements at offset `off`. -/
def slice (s : List α) (off n : ℕ) : List α := (s.drop off).take n

/-- `x` copied over the elements at offset `off`. -/
def overwrite (s : List α) (off : ℕ) (x : List α) : List α :=
  s.take off ++ x ++ s.drop (off + x.length)

theorem slice_append_right (p s : List α) (off n : ℕ) :
    slice (p ++ s) (p.length + off) n = slice s off n := by
  rw [slice, List.drop_append, List.drop_eq_nil_of_le (by omega), List.nil_append,
    Nat.add_sub_cancel_left, slice]

theorem slice_append_left (s t : List α) (off n : ℕ) (h : off + n ≤ s.length) :
    slice (s ++ t) off n = slice s off n := by
  rw [slice, List.drop_append_of_le_length (by omega),
    List.take_append_of_le_length (by rw [List.length_drop]; omega), slice]

theorem overwrite_append_right (p s : List α) (off : ℕ) (x : List α) :
    overwrite (p ++ s) (p.length + off) x = p ++ overwrite s off x := by
  simp only [overwrite, List.take_append, List.drop_append, List.append_assoc,
    Nat.add_sub_cancel_left, List.take_of_length_le (Nat.le_add_right _ off),
    List.drop_eq_nil_of_le (show p.length ≤ p.length + off + x.length by omega), List.nil_append,
    show p.length + off + x.length - p.length = off + x.length by omega]

theorem overwrite_append_left (s t : List α) (off : ℕ) (x : List α)
    (h : off + x.length ≤ s.length) : overwrite (s ++ t) off x = overwrite s off x ++ t := by
  rw [overwrite, List.take_append_of_le_length (by omega), List.drop_append_of_le_length h]
  simp only [overwrite, List.append_assoc]

theorem length_slice {s : List α} {off n : ℕ} (h : off + n ≤ s.length) :
    (slice s off n).length = n := by
  rw [slice, List.length_take, List.length_drop]
  omega

theorem length_overwrite {s : List α} {off : ℕ} {x : List α} (h : off + x.length ≤ s.length) :
    (overwrite s off x).length = s.length := by
  rw [overwrite, List.length_append, List.length_append, List.length_take, List.length_drop]
  omega

/-- What was copied is found again, and behind it what was there. -/
theorem slice_overwrite {s : List α} {off : ℕ} (h : off ≤ s.length) (x : List α) (n : ℕ) :
    slice (overwrite s off x) off (x.length + n) = x ++ slice s (off + x.length) n := by
  have hlen : (s.take off).length = off := by
    rw [List.length_take]
    omega
  rw [slice, overwrite, List.append_assoc, List.drop_left' hlen, List.take_append,
    List.take_of_length_le (by omega), Nat.add_sub_cancel_left, slice]

theorem slice_overwrite_self {s : List α} {off : ℕ} (h : off ≤ s.length) (x : List α) :
    slice (overwrite s off x) off x.length = x := by
  have hslice := slice_overwrite h x 0
  rwa [Nat.add_zero, show slice s (off + x.length) 0 = [] from List.take_zero,
    List.append_nil] at hslice

/-- Nothing changes if what is written was there. -/
theorem overwrite_slice {s : List α} {off n : ℕ} (h : off + n ≤ s.length) :
    overwrite s off (slice s off n) = s := by
  rw [overwrite, length_slice h, slice, ← List.drop_drop, List.append_assoc, List.take_append_drop,
    List.take_append_drop]

/-- A part between others. -/
theorem slice_middle {front middle back : List α} {off n : ℕ} (hfront : front.length = off)
    (hmiddle : middle.length = n) : slice (front ++ (middle ++ back)) off n = middle := by
  rw [slice, List.drop_left' hfront, List.take_left' hmiddle]

/-- A part of a part. -/
theorem slice_slice (s : List α) (off m off' n : ℕ) (h : off' + n ≤ m) :
    slice (slice s off m) off' n = slice s (off + off') n := by
  rw [slice, slice, slice, List.drop_take, List.drop_drop, List.take_take, min_eq_left (by omega)]

theorem getD_slice (s : List α) (off n : ℕ) {i : ℕ} (h : i < n) (d : α) :
    (slice s off n).getD i d = s.getD (off + i) d := by
  rw [slice, List.getD_eq_getElem?_getD, List.getElem?_take_of_lt h, List.getElem?_drop,
    ← List.getD_eq_getElem?_getD]

/-- What is written inside a part is written to the part. -/
theorem slice_overwrite_inside {s x : List α} {off n k : ℕ} (h : off + n ≤ s.length)
    (hk : k + x.length ≤ n) :
    slice (overwrite s (off + k) x) off n = overwrite (slice s off n) k x := by
  have hfront : (s.take off).length = off := by
    rw [List.length_take]
    omega
  have hmiddle := length_slice h
  have hs : s = s.take off ++ (slice s off n ++ s.drop (off + n)) := by
    rw [slice, ← List.drop_drop, List.take_append_drop, List.take_append_drop]
  have hwritten : overwrite s (off + k) x
      = s.take off ++ (overwrite (slice s off n) k x ++ s.drop (off + n)) := by
    conv_lhs => rw [hs]
    rw [← overwrite_append_left _ _ _ _ (by rw [hmiddle]; exact hk), ← overwrite_append_right, hfront]
  rw [hwritten]
  exact slice_middle hfront (by rw [length_overwrite (by rw [hmiddle]; exact hk), hmiddle])

/-! ### Records -/

section FixedSize

variable {w : ℕ}

theorem length_flatten {cs : List (List α)} (h : ∀ c ∈ cs, c.length = w) :
    cs.flatten.length = cs.length * w := by
  induction cs with
  | nil => simp
  | cons c cs ih =>
    rw [List.flatten_cons, List.length_append, h c (List.mem_cons_self ..),
      ih fun d hd => h d (List.mem_cons_of_mem _ hd), List.length_cons]
    ring

/-- Records of one positive size are found again in their concatenation. -/
theorem flatten_injOn (hw : 0 < w) : ∀ {cs ds : List (List α)}, (∀ c ∈ cs, c.length = w) →
    (∀ d ∈ ds, d.length = w) → cs.flatten = ds.flatten → cs = ds := by
  intro cs
  induction cs with
  | nil =>
    intro ds _ hds h
    have hlen := congrArg List.length h
    rw [length_flatten hds, List.flatten_nil, List.length_nil] at hlen
    rcases Nat.mul_eq_zero.mp hlen.symm with h0 | h0
    · exact (List.length_eq_zero_iff.mp h0).symm
    · omega
  | cons c cs ih =>
    intro ds hcs hds h
    cases ds with
    | nil =>
      have hlen := congrArg List.length h
      rw [length_flatten hcs, List.flatten_nil, List.length_nil, List.length_cons] at hlen
      exact absurd (Nat.mul_eq_zero.mp hlen) (by omega)
    | cons d ds =>
      have hc := hcs c (List.mem_cons_self ..)
      have hd := hds d (List.mem_cons_self ..)
      obtain ⟨hhead, htail⟩ := List.append_inj h (hc.trans hd.symm)
      rw [hhead, ih (fun x hx => hcs x (List.mem_cons_of_mem _ hx))
        (fun x hx => hds x (List.mem_cons_of_mem _ hx)) htail]

theorem flatMap_injective {f : β → List α} (hw : 0 < w) (hf : ∀ b, (f b).length = w)
    (hinj : Function.Injective f) : Function.Injective fun bs : List β => bs.flatMap f := by
  intro xs ys h
  refine List.map_injective_iff.mpr hinj (flatten_injOn hw ?_ ?_ h)
  · simp [hf]
  · simp [hf]

/-- A buffer of `k * w` elements is a list of `k` records. -/
theorem exists_records (k : ℕ) : ∀ s : List α, s.length = k * w →
    ∃ cs : List (List α), cs.length = k ∧ (∀ c ∈ cs, c.length = w) ∧ cs.flatten = s := by
  induction k with
  | zero =>
    intro s hs
    exact ⟨[], rfl, by simp, by simpa using (List.length_eq_zero_iff.mp (by simpa using hs)).symm⟩
  | succ k ih =>
    intro s hs
    have hlen : s.length = k * w + w := by rw [hs]; ring
    obtain ⟨cs, hk, hcs, hflat⟩ := ih (s.drop w) (by rw [List.length_drop]; omega)
    refine ⟨s.take w :: cs, by rw [List.length_cons, hk], ?_, ?_⟩
    · intro c hc
      rcases List.mem_cons.mp hc with rfl | hc
      · rw [List.length_take]; omega
      · exact hcs c hc
    · rw [List.flatten_cons, hflat, List.take_append_drop]

/-- The records before and after record `i`. -/
theorem flatten_split {cs : List (List α)} (h : ∀ c ∈ cs, c.length = w) {i : ℕ}
    (hi : i < cs.length) :
    cs.flatten = (cs.take i).flatten ++ (cs[i] ++ (cs.drop (i + 1)).flatten) ∧
      (cs.take i).flatten.length = i * w := by
  constructor
  · rw [← List.flatten_cons, ← List.drop_eq_getElem_cons hi, ← List.flatten_append,
      List.take_append_drop]
  · rw [length_flatten fun c hc => h c (List.mem_of_mem_take hc), List.length_take,
      Nat.min_eq_left hi.le]

theorem slice_flatten {cs : List (List α)} (h : ∀ c ∈ cs, c.length = w) {i : ℕ}
    (hi : i < cs.length) : slice cs.flatten (i * w) w = cs[i] := by
  obtain ⟨hsplit, hlen⟩ := flatten_split h hi
  have hw : cs[i].length = w := h _ (List.getElem_mem hi)
  have hskip := slice_append_right (cs.take i).flatten
    (cs[i] ++ (cs.drop (i + 1)).flatten) 0 w
  rw [hlen, add_zero] at hskip
  rw [hsplit, hskip, slice, List.drop_zero, ← hw, List.take_left]

theorem overwrite_flatten {cs : List (List α)} (h : ∀ c ∈ cs, c.length = w) {i : ℕ}
    (hi : i < cs.length) {x : List α} (hx : x.length = w) :
    overwrite cs.flatten (i * w) x = (cs.set i x).flatten := by
  obtain ⟨hsplit, hlen⟩ := flatten_split h hi
  have hw : cs[i].length = w := h _ (List.getElem_mem hi)
  have hskip := overwrite_append_right (cs.take i).flatten
    (cs[i] ++ (cs.drop (i + 1)).flatten) 0 x
  rw [hlen, add_zero] at hskip
  rw [hsplit, hskip, overwrite, List.take_zero, List.nil_append, Nat.zero_add, hx, ← hw,
    List.drop_left, List.set_eq_take_append_cons_drop, if_pos hi, List.flatten_append,
    List.flatten_cons]

theorem mem_set_length {cs : List (List α)} (h : ∀ c ∈ cs, c.length = w) {x : List α}
    (hx : x.length = w) (i : ℕ) : ∀ c ∈ cs.set i x, c.length = w := by
  intro c hc
  rcases List.mem_or_eq_of_mem_set hc with hc | rfl
  · exact h c hc
  · exact hx

end FixedSize

/-! ### Swapping -/

/-- Exchange two list elements. -/
def swapAt (i j : ℕ) (xs : List α) : List α :=
  match xs[i]?, xs[j]? with
  | some a, some b => (xs.set i b).set j a
  | _, _ => xs

/-- Exchange two records of `w` elements through a temporary copy. -/
def swapRecords (w i j : ℕ) (s : List α) : List α :=
  let temp := slice s (i * w) w
  let s := overwrite s (i * w) (slice s (j * w) w)
  overwrite s (j * w) temp

@[simp] theorem length_swapAt (i j : ℕ) (xs : List α) : (swapAt i j xs).length = xs.length := by
  unfold swapAt
  split <;> simp

theorem swapAt_eq {xs : List α} {i j : ℕ} (hi : i < xs.length) (hj : j < xs.length) :
    swapAt i j xs = (xs.set i xs[j]).set j xs[i] := by
  simp only [swapAt, List.getElem?_eq_getElem hi, List.getElem?_eq_getElem hj]

theorem getElem?_swapAt {xs : List α} {i j : ℕ} (hi : i < xs.length) (hj : j < xs.length)
    (k : ℕ) :
    (swapAt i j xs)[k]? = if k = j then xs[i]? else if k = i then xs[j]? else xs[k]? := by
  rw [swapAt_eq hi hj, List.getElem?_set, List.getElem?_set, List.length_set]
  by_cases hkj : j = k
  · subst hkj
    rw [if_pos rfl, if_pos rfl, if_pos hj, List.getElem?_eq_getElem hi]
  · rw [if_neg hkj, if_neg (Ne.symm hkj)]
    by_cases hki : i = k
    · subst hki
      rw [if_pos rfl, if_pos rfl, if_pos hi, List.getElem?_eq_getElem hj]
    · rw [if_neg hki, if_neg (Ne.symm hki)]

theorem mem_swapAt {i j : ℕ} {xs : List α} {x : α} (h : x ∈ swapAt i j xs) : x ∈ xs := by
  unfold swapAt at h
  split at h
  next a b ha hb =>
    rcases List.mem_or_eq_of_mem_set h with h | rfl
    · rcases List.mem_or_eq_of_mem_set h with h | rfl
      · exact h
      · exact List.mem_of_getElem? hb
    · exact List.mem_of_getElem? ha
  next => exact h

theorem map_swapAt (f : α → β) (i j : ℕ) (xs : List α) :
    (swapAt i j xs).map f = swapAt i j (xs.map f) := by
  unfold swapAt
  rw [List.getElem?_map, List.getElem?_map]
  cases xs[i]? <;> cases xs[j]? <;> simp [List.map_set]

/-- On a buffer of records the two kinds of exchange agree. -/
theorem swapRecords_flatten {w : ℕ} {cs : List (List α)} (h : ∀ c ∈ cs, c.length = w) {i j : ℕ}
    (hi : i < cs.length) (hj : j < cs.length) :
    swapRecords w i j cs.flatten = (swapAt i j cs).flatten ∧
      ∀ c ∈ swapAt i j cs, c.length = w := by
  have hiw : cs[i].length = w := h _ (List.getElem_mem hi)
  have hjw : cs[j].length = w := h _ (List.getElem_mem hj)
  have hset := mem_set_length h hjw i
  rw [swapAt_eq hi hj]
  refine ⟨?_, mem_set_length hset hiw j⟩
  rw [swapRecords, slice_flatten h hi, slice_flatten h hj, overwrite_flatten h hi hjw,
    overwrite_flatten hset (by rw [List.length_set]; exact hj) hiw]

/-- The records of a buffer are exchanged whatever follows them. -/
theorem swapRecords_append {w i j : ℕ} {s : List α} (t : List α) (hi : i * w + w ≤ s.length)
    (hj : j * w + w ≤ s.length) : swapRecords w i j (s ++ t) = swapRecords w i j s ++ t := by
  have hlen : ∀ off, off + w ≤ s.length → (slice s off w).length = w := by
    intro off hoff
    rw [slice, List.length_take, List.length_drop]
    omega
  have hover : (overwrite s (i * w) (slice s (j * w) w)).length = s.length := by
    simp only [overwrite, List.length_append, List.length_take, List.length_drop, hlen _ hj]
    omega
  simp only [swapRecords]
  rw [slice_append_left s t _ _ hi, slice_append_left s t _ _ hj,
    overwrite_append_left s t _ _ (by rw [hlen _ hj]; exact hi),
    overwrite_append_left _ t _ _ (by rw [hlen _ hi, hover]; exact hj)]

/-! ### The reversal loop -/

/-- `for (; i < j; ++i, --j) swap(i, j)`. -/
def swapLoop (swap : ℕ → ℕ → σ → σ) (i j : ℕ) (s : σ) : σ :=
  if i < j then swapLoop swap (i + 1) (j - 1) (swap i j s) else s
termination_by j - i

theorem swapLoop_of_lt (swap : ℕ → ℕ → σ → σ) {i j : ℕ} (h : i < j) (s : σ) :
    swapLoop swap i j s = swapLoop swap (i + 1) (j - 1) (swap i j s) := by
  rw [swapLoop, if_pos h]

theorem swapLoop_of_not_lt (swap : ℕ → ℕ → σ → σ) {i j : ℕ} (h : ¬ i < j) (s : σ) :
    swapLoop swap i j s = s := by
  rw [swapLoop, if_neg h]

/-- Simulation: swaps that preserve a relation make loops that do. -/
theorem swapLoop_rel {f : ℕ → ℕ → σ → σ} {g : ℕ → ℕ → τ → τ} {R : σ → τ → Prop} {n : ℕ}
    (step : ∀ i j s t, i < j → j < n → R s t → R (f i j s) (g i j t)) (i j : ℕ) :
    ∀ s t, j < n → R s t → R (swapLoop f i j s) (swapLoop g i j t) := by
  induction hd : j - i using Nat.strong_induction_on generalizing i j with
  | _ d ih =>
    intro s t hj hst
    by_cases hij : i < j
    · rw [swapLoop_of_lt f hij, swapLoop_of_lt g hij]
      exact ih _ (by omega) (i + 1) (j - 1) rfl _ _ (by omega) (step i j s t hij hj hst)
    · rwa [swapLoop_of_not_lt f hij, swapLoop_of_not_lt g hij]

/-- Between `i` and `j` the elements are mirrored, outside they stay. -/
theorem getElem?_swapLoop (i j : ℕ) : ∀ xs : List α, j < xs.length → ∀ k,
    (swapLoop swapAt i j xs)[k]? = if i ≤ k ∧ k ≤ j then xs[i + j - k]? else xs[k]? := by
  induction hd : j - i using Nat.strong_induction_on generalizing i j with
  | _ d ih =>
    intro xs hj k
    -- one round mirrors the ends `i` and `j`, the rest of the loop what is between them
    by_cases hij : i < j
    · rw [swapLoop_of_lt swapAt hij,
        ih _ (by omega) (i + 1) (j - 1) rfl _ (by rw [length_swapAt]; omega),
        getElem?_swapAt (by omega) hj, getElem?_swapAt (by omega) hj,
        show i + 1 + (j - 1) = i + j by omega]
      by_cases hk : i ≤ k ∧ k ≤ j
      · rw [if_pos hk]
        by_cases hin : i + 1 ≤ k ∧ k ≤ j - 1
        · rw [if_pos hin, if_neg (by omega), if_neg (by omega)]
        · rw [if_neg hin]
          by_cases hkj : k = j
          · rw [if_pos hkj, hkj, Nat.add_sub_cancel]
          · rw [if_neg hkj, if_pos (by omega), show k = i by omega, Nat.add_sub_cancel_left]
      · rw [if_neg hk, if_neg (by omega), if_neg (by omega), if_neg (by omega)]
    · rw [swapLoop_of_not_lt swapAt hij]
      by_cases hk : i ≤ k ∧ k ≤ j
      · rw [if_pos hk, show i + j - k = k by omega]
      · rw [if_neg hk]

/-- The loop over all elements reverses a list. -/
theorem swapLoop_swapAt (xs : List α) : swapLoop swapAt 0 (xs.length - 1) xs = xs.reverse := by
  rcases Nat.eq_zero_or_pos xs.length with hzero | hpos
  · rw [List.length_eq_zero_iff.mp hzero, swapLoop_of_not_lt swapAt (by simp)]
    rfl
  · apply List.ext_getElem?
    intro k
    rw [getElem?_swapLoop 0 (xs.length - 1) xs (by omega), Nat.zero_add]
    by_cases hk : k < xs.length
    · rw [if_pos ⟨Nat.zero_le k, by omega⟩, List.getElem?_reverse hk]
    · rw [if_neg (by omega), List.getElem?_eq_none (by omega),
        List.getElem?_eq_none (by rw [List.length_reverse]; omega)]

/-- The loop over all records reverses a buffer. -/
theorem swapLoop_swapRecords {w : ℕ} {cs : List (List α)} (h : ∀ c ∈ cs, c.length = w)
    (hpos : 0 < cs.length) :
    swapLoop (swapRecords w) 0 (cs.length - 1) cs.flatten = cs.reverse.flatten := by
  -- the loop on bytes follows the loop on records
  set R : List α → List (List α) → Prop := fun s t =>
    s = t.flatten ∧ t.length = cs.length ∧ ∀ c ∈ t, c.length = w with hR
  have hstep : ∀ i j s t, i < j → j < cs.length → R s t →
      R (swapRecords w i j s) (swapAt i j t) := by
    rintro i j s t hij hj ⟨rfl, hlen, ht⟩
    obtain ⟨heq, hw⟩ := swapRecords_flatten ht (i := i) (j := j) (by omega) (by omega)
    exact ⟨heq, by rw [length_swapAt, hlen], hw⟩
  have hrel := swapLoop_rel hstep 0 (cs.length - 1) cs.flatten cs (by omega) ⟨rfl, rfl, h⟩
  rw [hrel.1, swapLoop_swapAt]

end Records
