/-
The first of the least elements of a list.

Elements have costs in a linear order, or none. A loop keeps the best element up to now and
ends early when it comes to one of a cost that nothing is below.

* `scan` — the loop;
* `IsFirstLeast` — what it looks for;
* `scan_eq_none_iff`, `isFirstLeast_of_scan` — what it finds;
* `IsFirstLeast.before_or_after` — where the other elements are.
-/
import Mathlib.Tactic

namespace FirstLeast

variable {α κ : Type*} [LinearOrder κ] {bottom : κ} {cost : α → Option κ}

/-- The loop with the best element up to now and its cost. -/
def scan (bottom : κ) (cost : α → Option κ) : List α → Option (α × κ) → Option α
  | [], best => best.map Prod.fst
  | x :: xs, best =>
    match cost x with
    | none => scan bottom cost xs best
    | some k =>
      if k = bottom then some x
      else if best.all fun b => decide (k < b.2) then scan bottom cost xs (some (x, k))
      else scan bottom cost xs best

/-- What comes before `x` costs more, and what comes after it costs no less. -/
def IsFirstLeast (cost : α → Option κ) (xs : List α) (x : α) : Prop :=
  ∃ before after k, xs = before ++ x :: after ∧ cost x = some k ∧
    (∀ y ∈ before, ∀ l, cost y = some l → k < l) ∧ ∀ y ∈ after, ∀ l, cost y = some l → k ≤ l

theorem IsFirstLeast.exists_cost {xs : List α} {x : α} (h : IsFirstLeast cost xs x) :
    x ∈ xs ∧ ∃ k, cost x = some k := by
  obtain ⟨before, after, k, rfl, hk, -⟩ := h
  exact ⟨List.mem_append_right _ (List.mem_cons_self ..), k, hk⟩

/-- Any other occurrence in the list is behind the first least element, at no lower cost, or
before it and at a higher one. -/
theorem IsFirstLeast.before_or_after {before' after' : List α} {x y : α} {l : κ}
    (h : IsFirstLeast cost (before' ++ y :: after') x) (hl : cost y = some l) :
    x = y ∨ ∃ k, cost x = some k ∧ (x ∈ before' ∧ k ≤ l ∨ x ∈ after' ∧ k < l) := by
  obtain ⟨before, after, k, heq, hk, hbefore, hafter⟩ := h
  rcases List.append_eq_append_iff.mp heq with ⟨mid, hpre, hsuf⟩ | ⟨mid, hpre, hsuf⟩
  · cases mid with
    | nil =>
      rw [List.nil_append, List.cons.injEq] at hsuf
      exact .inl hsuf.1.symm
    | cons z mid =>
      obtain ⟨rfl, rfl⟩ := List.cons.inj hsuf
      refine .inr ⟨k, hk, .inr ⟨List.mem_append_right _ (List.mem_cons_self ..), ?_⟩⟩
      exact hbefore y (hpre ▸ List.mem_append_right _ (List.mem_cons_self ..)) l hl
  · cases mid with
    | nil =>
      rw [List.nil_append, List.cons.injEq] at hsuf
      exact .inl hsuf.1
    | cons z mid =>
      obtain ⟨rfl, rfl⟩ := List.cons.inj hsuf
      refine .inr ⟨k, hk, .inl ⟨hpre ▸ List.mem_append_right _ (List.mem_cons_self ..), ?_⟩⟩
      exact hafter y (List.mem_append_right _ (List.mem_cons_self ..)) l hl

/-- The first least element of the rest, if it is below the best element up to now. -/
def Below (best : Option (α × κ)) (cost : α → Option κ) (xs : List α) (x : α) : Prop :=
  IsFirstLeast cost xs x ∧ ∀ b, best = some b → ∀ k, cost x = some k → k < b.2

/-- Nothing in the rest is below the best element up to now. -/
def Stays (best : Option (α × κ)) (cost : α → Option κ) (xs : List α) (x : α) : Prop :=
  ∃ k, best = some (x, k) ∧ ∀ y ∈ xs, ∀ l, cost y = some l → k ≤ l

theorem Below.cons {best : Option (α × κ)} {xs : List α} {x y : α} {l : κ}
    (h : Below (some (y, l)) cost xs x) (hl : cost y = some l)
    (hbest : ∀ b, best = some b → l < b.2) : Below best cost (y :: xs) x := by
  obtain ⟨⟨before, after, k, rfl, hk, hbefore, hafter⟩, hbelow⟩ := h
  have hlt : k < l := hbelow (y, l) rfl k hk
  refine ⟨⟨y :: before, after, k, rfl, hk, ?_, hafter⟩, ?_⟩
  · intro z hz m hm
    rcases List.mem_cons.mp hz with rfl | hold
    · rw [← Option.some.inj (hl.symm.trans hm)]
      exact hlt
    · exact hbefore z hold m hm
  · intro b hb m hm
    rw [← Option.some.inj (hk.symm.trans hm)]
    exact hlt.trans (hbest b hb)

/-- Elements that are not below the best one do not matter. -/
theorem Below.skip {best : Option (α × κ)} {xs : List α} {x y : α}
    (h : Below best cost xs x) (hy : ∀ l, cost y = some l → ∃ b, best = some b ∧ b.2 ≤ l) :
    Below best cost (y :: xs) x := by
  obtain ⟨⟨before, after, k, rfl, hk, hbefore, hafter⟩, hbelow⟩ := h
  refine ⟨⟨y :: before, after, k, rfl, hk, ?_, hafter⟩, hbelow⟩
  intro z hz m hm
  rcases List.mem_cons.mp hz with rfl | hold
  · obtain ⟨b, hb, hle⟩ := hy m hm
    exact (hbelow b hb k hk).trans_le hle
  · exact hbefore z hold m hm

/-- The loop ends with the best element it began with or with one of the rest. -/
theorem stays_or_below_of_scan (hbottom : ∀ x k, cost x = some k → bottom ≤ k) {x : α} :
    ∀ {xs : List α} {best : Option (α × κ)}, (∀ b, best = some b → bottom < b.2) →
      scan bottom cost xs best = some x → Stays best cost xs x ∨ Below best cost xs x := by
  intro xs
  induction xs with
  | nil =>
    intro best _ h
    obtain ⟨⟨y, k⟩, hbest, rfl⟩ := Option.map_eq_some_iff.mp h
    exact .inl ⟨k, hbest, fun z hz => absurd hz List.not_mem_nil⟩
  | cons y ys ih =>
    intro best hbest h
    rw [scan] at h
    -- an element that the loop passes over
    have hskip : scan bottom cost ys best = some x →
        (∀ l, cost y = some l → ∃ b, best = some b ∧ b.2 ≤ l) →
        Stays best cost (y :: ys) x ∨ Below best cost (y :: ys) x := by
      intro hscan hy
      rcases ih hbest hscan with ⟨k, hk, hrest⟩ | hbelow
      · refine .inl ⟨k, hk, fun z hz l hl => ?_⟩
        rcases List.mem_cons.mp hz with rfl | hold
        · obtain ⟨b, hb, hle⟩ := hy l hl
          rw [hk] at hb
          rw [← Option.some.inj hb] at hle
          exact hle
        · exact hrest z hold l hl
      · exact .inr (hbelow.skip hy)
    cases hcost : cost y with
    | none =>
      rw [hcost] at h
      exact hskip h fun l hl => by rw [hcost] at hl; cases hl
    | some l =>
      rw [hcost] at h
      dsimp only at h
      split_ifs at h with hzero hbetter
      · obtain rfl := Option.some.inj h
        refine .inr ⟨⟨[], ys, l, rfl, hcost, fun z hz => absurd hz List.not_mem_nil, ?_⟩, ?_⟩
        · intro z _ m hm
          rw [hzero]
          exact hbottom z m hm
        · intro b hb m hm
          rw [← Option.some.inj (hcost.symm.trans hm), hzero]
          exact hbest b hb
      · have hlt : ∀ b, best = some b → l < b.2 := by
          intro b hb
          rw [hb] at hbetter
          exact of_decide_eq_true hbetter
        have hpos : ∀ b, some (y, l) = some b → bottom < b.2 := by
          intro b hb
          rw [← Option.some.inj hb]
          exact lt_of_le_of_ne (hbottom y l hcost) (Ne.symm hzero)
        rcases ih hpos h with ⟨k, hk, hrest⟩ | hbelow
        · obtain ⟨rfl, rfl⟩ := Prod.mk.inj (Option.some.inj hk)
          refine .inr ⟨⟨[], ys, l, rfl, hcost, fun z hz => absurd hz List.not_mem_nil, hrest⟩, ?_⟩
          intro b hb m hm
          rw [← Option.some.inj (hcost.symm.trans hm)]
          exact hlt b hb
        · exact .inr (hbelow.cons hcost hlt)
      · refine hskip h fun m hm => ?_
        rw [← Option.some.inj (hcost.symm.trans hm)]
        cases best with
        | none => exact absurd rfl hbetter
        | some b => exact ⟨b, rfl, not_lt.mp fun hlt => hbetter (decide_eq_true hlt)⟩

theorem isFirstLeast_of_scan (hbottom : ∀ x k, cost x = some k → bottom ≤ k) {xs : List α} {x : α}
    (h : scan bottom cost xs none = some x) : IsFirstLeast cost xs x := by
  rcases stays_or_below_of_scan hbottom (fun b hb => by cases hb) h with ⟨k, hk, -⟩ | hbelow
  · cases hk
  · exact hbelow.1

theorem scan_eq_none_iff {xs : List α} :
    ∀ {best : Option (α × κ)}, scan bottom cost xs best = none ↔
      best = none ∧ ∀ x ∈ xs, cost x = none := by
  induction xs with
  | nil =>
    intro best
    rw [scan, Option.map_eq_none_iff]
    exact ⟨fun h => ⟨h, fun x hx => absurd hx List.not_mem_nil⟩, fun h => h.1⟩
  | cons y ys ih =>
    intro best
    rw [scan, List.forall_mem_cons]
    cases hcost : cost y with
    | none =>
      dsimp only
      rw [ih]
      exact ⟨fun h => ⟨h.1, rfl, h.2⟩, fun h => ⟨h.1, h.2.2⟩⟩
    | some l =>
      dsimp only
      refine iff_of_false ?_ fun h => by cases h.2.1
      split_ifs with hzero hbetter
      · exact not_false
      · rw [ih]
        exact fun h => by cases h.1
      · rw [ih]
        rintro ⟨rfl, -⟩
        exact hbetter rfl

end FirstLeast
