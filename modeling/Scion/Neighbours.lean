/-
Joining neighbouring list elements, with some joints left out.

Joint `i` lies between elements `i` and `i + 1`. Two enumerations are compared:
one filters the joints by index, the other walks over the elements and takes
two steps at once where a joint is to be left out.

* `keepJoints` — the joints whose index passes a test;
* `skipWalk` — the walk; at element `k` it asks whether to skip the joint
  before `k`;
* `skipWalk_eq_keepJoints` — the walk leaves out the joints before the elements
  of `skipped`: a question that falls on the second of two steps is not asked;
* `keepJoints_eq_iff` — two tests, one stronger than the other, give the same
  enumeration only if they agree;
* `keepJoints_two_iff` — the same for two joints that may be left out;
* `pick_reverse`, `joints_reverse` — the enumeration from the last element on.
-/
import Mathlib.Tactic

namespace Neighbours

variable {α β : Type} (join : α → α → β)

/-- The joints of `a :: rest` that pass the test, `a` having index `i`. -/
def keepJoints (keep : ℕ → Bool) : ℕ → α → List α → List β
  | _, _, [] => []
  | i, a, b :: rest =>
    if keep i then join a b :: keepJoints keep (i + 1) b rest else keepJoints keep (i + 1) b rest

/-- Walk from `a` over `rest`, whose first element has index `k`. -/
def skipWalk (skip : ℕ → Bool) : ℕ → α → List α → List β
  | _, _, [] => []
  | k, a, b :: rest =>
    if skip k then
      match rest with
      | [] => []
      | c :: rest => join b c :: skipWalk skip (k + 2) c rest
    else join a b :: skipWalk skip (k + 1) b rest

/-- The elements at which the walk takes two steps. -/
def skipped (skip : ℕ → Bool) : ℕ → Bool
  | 0 => skip 0
  | k + 1 => skip (k + 1) && !skipped skip k

theorem skipWalk_eq_keepJoints (skip : ℕ → Bool) (k : ℕ) (a : α) (rest : List α)
    (h : skipped skip k = false) :
    skipWalk join skip (k + 1) a rest = keepJoints join (fun i => !skipped skip (i + 1)) k a rest := by
  induction hn : rest.length using Nat.strong_induction_on generalizing k a rest with
  | _ n ih =>
    match rest with
    | [] => rfl
    | b :: rest =>
      have hhere : skipped skip (k + 1) = skip (k + 1) := by
        rw [skipped, h, Bool.not_false, Bool.and_true]
      rw [skipWalk.eq_def, keepJoints]
      simp only [hhere]
      cases hskip : skip (k + 1) with
      | false =>
        simp only [Bool.false_eq_true, if_false, Bool.not_false, if_true]
        rw [ih rest.length (by rw [← hn]; simp) (k + 1) b rest (by rw [hhere, hskip]) rfl]
      | true =>
        -- the next question is not asked
        have hnext : skipped skip (k + 2) = false := by
          rw [skipped, hhere, hskip, Bool.not_true, Bool.and_false]
        match rest with
        | [] => rfl
        | c :: rest =>
          simp only [if_true, Bool.not_true, Bool.false_eq_true, if_false]
          rw [keepJoints]
          simp only [hnext, Bool.not_false, if_true]
          rw [ih rest.length (by rw [← hn]; simp only [List.length_cons]; omega) (k + 2) c rest
            hnext rfl]

/-- A walk that starts with two steps stands behind the first element. -/
theorem skipWalk_zero {skip : ℕ → Bool} (h : skip 0 = true) (a b : α) (rest : List α) :
    skipWalk join skip 0 a (b :: rest)
      = keepJoints join (fun i => !skipped skip (i + 1)) 0 b rest := by
  have hone : skipped skip 1 = false := by
    rw [skipped, skipped, h, Bool.not_true, Bool.and_false]
  rw [skipWalk.eq_def]
  simp only [h, if_true]
  match rest with
  | [] => rfl
  | c :: rest =>
    rw [keepJoints]
    simp only [Nat.zero_add, hone, Bool.not_false, if_true]
    rw [← skipWalk_eq_keepJoints join skip 1 c rest hone]

/-- The joints as a filtered list. -/
theorem keepJoints_eq_filter (keep : ℕ → Bool) (i : ℕ) (a : α) (rest : List α) :
    (((List.zipWith join (a :: rest) rest).zipIdx i).filter fun p => keep p.2).map Prod.fst
      = keepJoints join keep i a rest := by
  induction rest generalizing i a with
  | nil => rfl
  | cons b rest ih =>
    rw [List.zipWith_cons_cons, List.zipIdx_cons, List.filter_cons, keepJoints, ← ih]
    cases keep i <;> rfl

/-- The skipped elements when questions are answered yes at the start and at
two later elements at most: right behind another skipped element the question
is not asked. -/
theorem skipped_iff {skip : ℕ → Bool} {a b n : ℕ} {u v : Bool} (ha : 0 < a) (hab : a < b)
    (hskip : ∀ j < n, skip j = true ↔ j = 0 ∨ (u = true ∧ j = a) ∨ (v = true ∧ j = b)) :
    ∀ j < n, skipped skip j = true ↔
      j = 0 ∨ (u = true ∧ j = a ∧ a ≠ 1) ∨
        (v = true ∧ j = b ∧ ¬ (u = true ∧ a ≠ 1 ∧ b = a + 1)) := by
  intro j
  induction j with
  | zero =>
    intro hj
    rw [skipped, hskip 0 hj]
    simp
  | succ j ih =>
    intro hj
    rw [skipped, Bool.and_eq_true, hskip (j + 1) hj, Bool.not_eq_true', Bool.eq_false_iff, ne_eq,
      ih (by omega)]
    cases u <;> cases v <;>
      simp only [true_and, false_and, Bool.false_eq_true, false_or, or_false, not_false_eq_true,
        and_true] <;> omega

/-- A stronger test keeps no more joints. -/
theorem length_keepJoints_le {keep₁ keep₂ : ℕ → Bool} : ∀ (i : ℕ) (a : α) (rest : List α),
    (∀ j, i ≤ j → j < i + rest.length → keep₁ j = true → keep₂ j = true) →
    (keepJoints join keep₁ i a rest).length ≤ (keepJoints join keep₂ i a rest).length := by
  intro i a rest
  induction rest generalizing i a with
  | nil => exact fun _ => le_rfl
  | cons b rest ih =>
    intro h
    have htail := ih (i + 1) b fun j hj hlt => h j (by omega) (by rw [List.length_cons]; omega)
    rw [keepJoints, keepJoints]
    by_cases h1 : keep₁ i = true
    · rw [if_pos h1, if_pos (h i le_rfl (by simp) h1)]
      simpa using htail
    · rw [if_neg h1]
      split
      · rw [List.length_cons]
        omega
      · exact htail

/-- Only tests that agree on every joint enumerate the same. -/
theorem keepJoints_eq_iff {keep₁ keep₂ : ℕ → Bool} (i : ℕ) (a : α) (rest : List α)
    (h : ∀ j, i ≤ j → j < i + rest.length → keep₁ j = true → keep₂ j = true) :
    keepJoints join keep₁ i a rest = keepJoints join keep₂ i a rest ↔
      ∀ j, i ≤ j → j < i + rest.length → keep₁ j = keep₂ j := by
  induction rest generalizing i a with
  | nil =>
    refine ⟨fun _ j hj hlt => ?_, fun _ => rfl⟩
    rw [List.length_nil] at hlt
    omega
  | cons b rest ih =>
    have htail : ∀ j, i + 1 ≤ j → j < i + 1 + rest.length → keep₁ j = true → keep₂ j = true :=
      fun j hj hlt => h j (by omega) (by rw [List.length_cons]; omega)
    have hsplit : (∀ j, i ≤ j → j < i + (b :: rest).length → keep₁ j = keep₂ j) ↔
        keep₁ i = keep₂ i ∧ ∀ j, i + 1 ≤ j → j < i + 1 + rest.length → keep₁ j = keep₂ j := by
      rw [List.length_cons]
      constructor
      · exact fun hall => ⟨hall i le_rfl (by omega), fun j hj hlt => hall j (by omega) (by omega)⟩
      · rintro ⟨hi, hrest⟩ j hj hlt
        rcases Nat.eq_or_lt_of_le hj with rfl | hj
        · exact hi
        · exact hrest j hj (by omega)
    rw [hsplit, ← ih (i + 1) b htail, keepJoints, keepJoints]
    cases h1 : keep₁ i with
    | true =>
      rw [h i le_rfl (by simp) h1]
      simp
    | false =>
      cases h2 : keep₂ i with
      | true =>
        -- the weaker test keeps one joint more than the stronger can make up for
        have hle := length_keepJoints_le join (i + 1) b rest htail
        constructor
        · intro heq
          have hlen := congrArg List.length heq
          simp only [Bool.false_eq_true, if_false, if_true, List.length_cons] at hlen
          omega
        · rintro ⟨hne, -⟩
          cases hne
      | false => simp

/-- The same with the joints that are left out. -/
theorem keepJoints_not_eq_iff (drop₁ drop₂ : ℕ → Bool) (a : α) (rest : List α)
    (h : (∀ j < rest.length, drop₁ j = true → drop₂ j = true) ∨
      (∀ j < rest.length, drop₂ j = true → drop₁ j = true)) :
    keepJoints join (fun j => !drop₁ j) 0 a rest = keepJoints join (fun j => !drop₂ j) 0 a rest ↔
      ∀ j < rest.length, drop₁ j = true ↔ drop₂ j = true := by
  have hiff : ∀ d₁ d₂ : ℕ → Bool, (∀ j < rest.length, d₁ j = true → d₂ j = true) →
      (keepJoints join (fun j => !d₂ j) 0 a rest = keepJoints join (fun j => !d₁ j) 0 a rest ↔
        ∀ j < rest.length, d₁ j = true ↔ d₂ j = true) := by
    intro d₁ d₂ hle
    rw [keepJoints_eq_iff join 0 a rest]
    · constructor
      · intro hall j hj
        have hnot := hall j (Nat.zero_le j) (by omega)
        rw [Bool.not_inj hnot]
      · intro hall j _ hj
        exact congrArg not (Bool.eq_iff_iff.mpr (hall j (by omega))).symm
    · intro j _ hj hkeep
      rw [Bool.not_eq_true', Bool.eq_false_iff] at hkeep ⊢
      exact mt (hle j (by omega)) hkeep
  rcases h with h | h
  · rw [eq_comm]
    exact hiff drop₁ drop₂ h
  · rw [hiff drop₂ drop₁ h]
    exact forall₂_congr fun j _ => iff_comm

/-! ### Walking back -/

/-- The elements whose index passes the test, the first one having index `k`. -/
def pick (keep : ℕ → Bool) (k : ℕ) (xs : List β) : List β :=
  ((xs.zipIdx k).filter fun p => keep p.2).map Prod.fst

theorem pick_cons (keep : ℕ → Bool) (k : ℕ) (x : β) (xs : List β) :
    pick keep k (x :: xs) = if keep k then x :: pick keep (k + 1) xs else pick keep (k + 1) xs := by
  rw [pick, List.zipIdx_cons, List.filter_cons]
  cases keep k <;> rfl

theorem pick_append_singleton (keep : ℕ → Bool) (k : ℕ) (xs : List β) (x : β) :
    pick keep k (xs ++ [x]) = pick keep k xs ++ if keep (k + xs.length) then [x] else [] := by
  rw [pick, List.zipIdx_append, List.filter_append, List.map_append, pick]
  congr 1
  rw [List.zipIdx_singleton, List.filter_cons]
  cases keep (k + xs.length) <;> rfl

theorem pick_congr {keep keep' : ℕ → Bool} {xs : List β} : ∀ {k : ℕ},
    (∀ i < xs.length, keep (k + i) = keep' (k + i)) → pick keep k xs = pick keep' k xs := by
  induction xs with
  | nil => exact fun _ => rfl
  | cons x xs ih =>
    intro k h
    rw [List.length_cons] at h
    have htail := @ih (k + 1) fun i hi => by
      rw [Nat.add_right_comm, Nat.add_assoc]
      exact h (i + 1) (by omega)
    rw [pick_cons, pick_cons, htail, show keep k = keep' k from h 0 (Nat.succ_pos _)]

theorem pick_map {γ : Type} (f : β → γ) (keep : ℕ → Bool) (k : ℕ) (xs : List β) :
    pick keep k (xs.map f) = (pick keep k xs).map f := by
  induction xs generalizing k with
  | nil => rfl
  | cons x xs ih =>
    rw [List.map_cons, pick_cons, pick_cons, ih]
    cases keep k <;> rfl

/-- The elements that are picked, from the last one on. -/
theorem pick_reverse {keep keep' : ℕ → Bool} {xs : List β} : ∀ {k k' : ℕ},
    (∀ i < xs.length, keep' (k' + (xs.length - 1 - i)) = keep (k + i)) →
    pick keep' k' xs.reverse = (pick keep k xs).reverse := by
  induction xs with
  | nil => exact fun _ => rfl
  | cons x xs ih =>
    intro k k' h
    rw [List.length_cons] at h
    have hhead := h 0 (Nat.succ_pos _)
    rw [Nat.add_sub_cancel, Nat.sub_zero, Nat.add_zero] at hhead
    have htail := @ih (k + 1) k' fun i hi => by
      rw [show k' + (xs.length - 1 - i) = k' + (xs.length + 1 - 1 - (i + 1)) by omega,
        h (i + 1) (by omega), show k + (i + 1) = k + 1 + i by omega]
    rw [List.reverse_cons, pick_append_singleton, htail, List.length_reverse, hhead, pick_cons]
    cases keep k <;> simp

/-- Without one element. -/
theorem pick_ne {xs : List β} {i k : ℕ} (hi : i < xs.length) :
    pick (fun j => j != k + i) k xs = xs.eraseIdx i := by
  have hall : ∀ (ys : List β) (k l : ℕ), k < l → pick (fun j => j != k) l ys = ys := by
    intro ys
    induction ys with
    | nil => exact fun _ _ _ => rfl
    | cons y ys ih =>
      intro k l hkl
      rw [pick_cons, if_pos (by simpa using hkl.ne'), ih k (l + 1) (by omega)]
  induction xs generalizing i k with
  | nil => exact absurd hi (Nat.not_lt_zero i)
  | cons x xs ih =>
    rw [pick_cons]
    match i with
    | 0 =>
      rw [if_neg (by simp), Nat.add_zero, hall xs k (k + 1) (Nat.lt_succ_self k)]
      rfl
    | i + 1 =>
      have htail := ih (i := i) (k := k + 1) (by simpa using hi)
      rw [Nat.add_right_comm, Nat.add_assoc] at htail
      rw [if_pos (by simp), htail]
      rfl

/-- Leaving out one element or another makes no difference when all elements from
the one to the other are the same. -/
theorem eraseIdx_eq_iff {xs : List β} {i j : ℕ} (hij : i ≤ j) :
    xs.eraseIdx i = xs.eraseIdx j ↔ ∀ k, i ≤ k → k < j → xs[k]? = xs[k + 1]? := by
  constructor
  · intro h k hik hkj
    have hk := congrArg (fun ys => ys[k]?) h
    simp only [List.getElem?_eraseIdx] at hk
    rw [if_neg (by omega), if_pos hkj] at hk
    exact hk.symm
  · intro h
    refine List.ext_getElem? fun k => ?_
    rw [List.getElem?_eraseIdx, List.getElem?_eraseIdx]
    by_cases hik : k < i
    · rw [if_pos hik, if_pos (by omega)]
    · rw [if_neg hik]
      by_cases hkj : k < j
      · rw [if_pos hkj, h k (by omega) hkj]
      · rw [if_neg hkj]

/-- All joints. -/
def joints (xs : List α) : List β := List.zipWith join xs xs.tail

theorem keepJoints_eq_pick (keep : ℕ → Bool) (a : α) (rest : List α) :
    keepJoints join keep 0 a rest = pick keep 0 (joints join (a :: rest)) :=
  (keepJoints_eq_filter join keep 0 a rest).symm

theorem length_joints (xs : List α) : (joints join xs).length = xs.length - 1 := by
  rw [joints, List.length_zipWith, List.length_tail]
  exact min_eq_right (Nat.sub_le _ _)

/-- Turning the elements around and walking back turns the joints around. -/
theorem joints_reverse {f : α → α} {g : β → β} (h : ∀ a b, join (f b) (f a) = g (join a b))
    (xs : List α) : joints join (xs.map f).reverse = ((joints join xs).map g).reverse := by
  refine List.ext_getElem ?_ fun i hi hi' => ?_
  · rw [length_joints, List.length_reverse, List.length_map, List.length_reverse, List.length_map,
      length_joints]
  · rw [List.length_reverse, List.length_map, length_joints] at hi'
    simp only [joints, List.getElem_zipWith, List.getElem_tail, List.getElem_reverse,
      List.getElem_map, List.length_map, List.length_zipWith, List.length_tail]
    rw [← h]
    congr 3 <;> omega

/-- Two enumerations that may leave out the joints `x` and `y` are the same when
they leave out the same ones, or one of them each and all joints between them are
the same. -/
theorem keepJoints_two_iff {keep₁ keep₂ : ℕ → Bool} {x y : ℕ} {b₁ c₁ b₂ c₂ : Bool} (a : α)
    (rest : List α) (hxy : x < y) (hy : y < rest.length)
    (h₁ : ∀ j < rest.length, keep₁ j = false ↔ (b₁ = true ∧ j = x) ∨ (c₁ = true ∧ j = y))
    (h₂ : ∀ j < rest.length, keep₂ j = false ↔ (b₂ = true ∧ j = x) ∨ (c₂ = true ∧ j = y)) :
    keepJoints join keep₁ 0 a rest = keepJoints join keep₂ 0 a rest ↔
      b₁ = b₂ ∧ c₁ = c₂ ∨ b₁ ≠ c₁ ∧ b₁ = c₂ ∧ c₁ = b₂ ∧
        (joints join (a :: rest)).eraseIdx x = (joints join (a :: rest)).eraseIdx y := by
  have hlen : (joints join (a :: rest)).length = rest.length := by
    rw [length_joints, List.length_cons, Nat.add_sub_cancel]
  -- an enumeration that leaves out one joint only
  have herase : ∀ {keep : ℕ → Bool} {i : ℕ}, i < rest.length →
      (∀ j < rest.length, keep j = false ↔ j = i) →
      keepJoints join keep 0 a rest = (joints join (a :: rest)).eraseIdx i := by
    intro keep i hi hkeep
    have hne := pick_ne (k := 0) (show i < (joints join (a :: rest)).length from hlen ▸ hi)
    rw [keepJoints_eq_pick, ← hne]
    refine pick_congr fun j hj => ?_
    rw [hlen] at hj
    have hiff := hkeep (0 + j) (by omega)
    cases hk : keep (0 + j) with
    | false =>
      rw [hiff.mp hk, Nat.zero_add]
      exact (bne_self_eq_false i).symm
    | true =>
      have hji : 0 + j ≠ i := fun h => by rw [hiff.mpr h] at hk; cases hk
      simpa using hji
  have hx : x < rest.length := hxy.trans hy
  have hcompare := keepJoints_not_eq_iff join (fun j => !keep₁ j) (fun j => !keep₂ j) a rest
  simp only [Bool.not_not, Bool.not_eq_true'] at hcompare
  have hpoint : (∀ j < rest.length, keep₁ j = false ↔ keep₂ j = false) ↔ b₁ = b₂ ∧ c₁ = c₂ := by
    constructor
    · intro hall
      have hatx := hall x hx
      have haty := hall y hy
      rw [h₁ x hx, h₂ x hx] at hatx
      rw [h₁ y hy, h₂ y hy] at haty
      simp only [and_true, hxy.ne, hxy.ne', and_false, or_false, false_or] at hatx haty
      exact ⟨Bool.eq_iff_iff.mpr hatx, Bool.eq_iff_iff.mpr haty⟩
    · rintro ⟨rfl, rfl⟩ j hj
      rw [h₁ j hj, h₂ j hj]
  by_cases hle : (b₁ = true → b₂ = true) ∧ (c₁ = true → c₂ = true)
  · rw [hcompare (.inl fun j hj h => ?_), hpoint]
    · constructor
      · exact Or.inl
      · rintro (h | ⟨hne, hbc, hcb, -⟩)
        · exact h
        · exact absurd (Bool.eq_iff_iff.mpr ⟨fun h => hcb.trans (hle.1 h),
            fun h => hbc.trans (hle.2 h)⟩) hne
    · rw [h₂ j hj]
      exact ((h₁ j hj).mp h).imp (And.imp_left hle.1) (And.imp_left hle.2)
  · by_cases hge : (b₂ = true → b₁ = true) ∧ (c₂ = true → c₁ = true)
    · rw [hcompare (.inr fun j hj h => ?_), hpoint]
      · constructor
        · exact Or.inl
        · rintro (h | ⟨hne, hbc, hcb, -⟩)
          · exact h
          · exact absurd (Bool.eq_iff_iff.mpr ⟨fun h => hge.2 (hbc.symm.trans h),
              fun h => hge.1 (hcb.symm.trans h)⟩) hne
      · rw [h₁ j hj]
        exact ((h₂ j hj).mp h).imp (And.imp_left hge.1) (And.imp_left hge.2)
    · -- one joint is left out by each
      have hcases : b₁ = true ∧ c₁ = false ∧ b₂ = false ∧ c₂ = true ∨
          b₁ = false ∧ c₁ = true ∧ b₂ = true ∧ c₂ = false := by
        cases b₁ <;> cases c₁ <;> cases b₂ <;> cases c₂ <;> simp at hle hge ⊢
      rcases hcases with ⟨rfl, rfl, rfl, rfl⟩ | ⟨rfl, rfl, rfl, rfl⟩
      · rw [herase hx fun j hj => (h₁ j hj).trans (by simp),
          herase hy fun j hj => (h₂ j hj).trans (by simp)]
        simp
      · rw [herase hy fun j hj => (h₁ j hj).trans (by simp),
          herase hx fun j hj => (h₂ j hj).trans (by simp), eq_comm]
        simp

end Neighbours
