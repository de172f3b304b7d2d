/-
The first of the longest runs of a predicate on positions.

* `Run` — a non-empty interval of positions that all satisfy the predicate;
* `Found` — what a search up to `n` has to find: the first of the longest runs of
  at least two, or that there is none;
* `Found.succ`, `Found.extend` — how a scan from left to right keeps it.
-/
import Mathlib.Data.Nat.Notation
import Mathlib.Tactic.Common
import Mathlib.Order.Basic

namespace LongestRun

/-- The positions from `a` up to `b` satisfy `z`. -/
def Run (z : ℕ → Prop) (a b : ℕ) : Prop := a < b ∧ ∀ j, a ≤ j → j < b → z j

/-- Of the runs up to `n`, of at least two, this is the first of the longest. -/
structure IsLongest (z : ℕ → Prop) (n a b : ℕ) : Prop where
  le : b ≤ n
  two : a + 2 ≤ b
  run : Run z a b
  longest : ∀ a' b', b' ≤ n → Run z a' b' → b' - a' ≤ b - a ∧ (b' - a' = b - a → a ≤ a')

/-- The first of the longest runs of at least two, or the empty one at 0. -/
def Found (z : ℕ → Prop) (n a b : ℕ) : Prop :=
  (a = 0 ∧ b = 0 ∧ ∀ a' b', b' ≤ n → Run z a' b' → b' - a' ≤ 1) ∨ IsLongest z n a b

variable {z : ℕ → Prop} {n a b m : ℕ}

theorem found_zero : Found z 0 0 0 := by
  refine Or.inl ⟨rfl, rfl, ?_⟩
  intro a' b' hb' hrun
  exact absurd hrun.1 (by omega)

/-- A run does not contain a position that does not satisfy the predicate. -/
theorem Run.le_or_lt (h : Run z a b) (hm : ¬ z m) : b ≤ m ∨ m < a := by
  by_contra hcontra
  exact hm (h.2 m (by omega) (by omega))

/-- No run goes over a position that does not satisfy the predicate. -/
theorem Found.succ (h : Found z n a b) (hn : ¬ z n) : Found z (n + 1) a b := by
  have hle : ∀ a' b', b' ≤ n + 1 → Run z a' b' → b' ≤ n := by
    intro a' b' hb' hrun
    have hlt := hrun.1
    rcases hrun.le_or_lt hn with h | h
    · exact h
    · omega
  rcases h with ⟨ha, hb, hnone⟩ | h
  · exact Or.inl ⟨ha, hb, fun a' b' hb' hrun => hnone a' b' (hle a' b' hb' hrun) hrun⟩
  · exact Or.inr ⟨Nat.le_succ_of_le h.le, h.two, h.run,
      fun a' b' hb' hrun => h.longest a' b' (hle a' b' hb' hrun) hrun⟩

/-- A run from `m` to `n` that nothing before it continues is the longest if it
is longer than what was found before. -/
theorem Found.extend (h : Found z m a b) (hstart : m = 0 ∨ ¬ z (m - 1)) (hrun : Run z m n) :
    (n - m > 1 ∧ n - m > b - a → Found z n m n) ∧
      (¬(n - m > 1 ∧ n - m > b - a) → Found z n a b) := by
  have hlt := hrun.1
  -- a run up to `n` ends before `m` or is part of the last one
  have hsplit : ∀ a' b', Run z a' b' → b' ≤ m ∨ m ≤ a' := by
    intro a' b' hrun'
    rcases hstart with rfl | hm
    · exact Or.inr (Nat.zero_le _)
    · rcases hrun'.le_or_lt hm with h' | h'
      · exact Or.inl (by omega)
      · exact Or.inr (by omega)
  constructor
  · rintro ⟨htwo, hlonger⟩
    refine Or.inr ⟨Nat.le_refl n, by omega, hrun, fun a' b' hb' hrun' => ?_⟩
    rcases hsplit a' b' hrun' with hbefore | hinside
    · have hold : b' - a' < n - m := by
        rcases h with ⟨_, _, hnone⟩ | h
        · have := hnone a' b' hbefore hrun'
          omega
        · have := (h.longest a' b' hbefore hrun').1
          omega
      omega
    · omega
  · intro hshort
    rcases h with ⟨ha, hb, hnone⟩ | h
    · refine Or.inl ⟨ha, hb, fun a' b' hb' hrun' => ?_⟩
      rcases hsplit a' b' hrun' with hbefore | hinside
      · exact hnone a' b' hbefore hrun'
      · omega
    · have hle := h.le
      have htwo := h.two
      refine Or.inr ⟨by omega, h.two, h.run, fun a' b' hb' hrun' => ?_⟩
      rcases hsplit a' b' hrun' with hbefore | hinside
      · exact h.longest a' b' hbefore hrun'
      · omega

/-- The first of the longest runs is one run. -/
theorem IsLongest.unique {a' b' : ℕ} (h : IsLongest z n a b) (h' : IsLongest z n a' b') :
    a = a' ∧ b = b' := by
  have hlt := h.run.1
  have hlt' := h'.run.1
  obtain ⟨hle, heq⟩ := h.longest a' b' h'.le h'.run
  obtain ⟨hle', heq'⟩ := h'.longest a b h.le h.run
  have hfirst := heq (by omega)
  have hfirst' := heq' (by omega)
  omega

/-- A run that is followed by nothing and no shorter than another is found by
where it starts. -/
theorem isLongest_end_iff :
    IsLongest z n m n ↔ m + 2 ≤ n ∧ (∀ j, m ≤ j → j < n → z j) ∧
      ∀ i < m, ∃ j, i ≤ j ∧ j < i + (n - m) ∧ ¬ z j := by
  constructor
  · intro h
    have htwo := h.two
    refine ⟨h.two, h.run.2, fun i hi => ?_⟩
    by_contra hnone
    push Not at hnone
    have hrun : Run z i (i + (n - m)) := ⟨by omega, fun j hj hj' => hnone j hj hj'⟩
    have := (h.longest i (i + (n - m)) (by omega) hrun).2 (by omega)
    omega
  · rintro ⟨htwo, hall, hbefore⟩
    refine ⟨Nat.le_refl n, htwo, ⟨by omega, hall⟩, fun a' b' hb' hrun => ?_⟩
    have hlt := hrun.1
    by_cases ha' : a' < m
    · obtain ⟨j, hj, hj', hne⟩ := hbefore a' ha'
      have : b' ≤ j := by
        rcases hrun.le_or_lt hne with h | h
        · exact h
        · omega
      omega
    · omega

end LongestRun
