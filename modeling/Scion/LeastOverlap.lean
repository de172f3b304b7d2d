/-
The path of a new MPTCP subflow (`scitra-tun/scitra_tun.cpp`, `path/path.cpp`).

A subflow takes the first of the candidates that have the least overlap with the paths in use
and are none of them. Candidates that are broken are not left out.

* `overlap`, `overlapLoop`, `selectPathMulti` — the source, with exact fractions;
* `selectLoop_eq_scan` — the loops look for a first least element;
* `sound_selectPathMulti_iff` — the lists for which the result is what it should be.
-/
import Scion.FirstLeast
import Scion.HopPredicate
import Scion.PathSelection

namespace Scion

open FirstLeast

/-- A path with what is not part of its route: the attribute `PATH_ATTRIBUTE_INTERFACES` and
the flag that it is broken. -/
structure MetaPath where
  path : Path
  interfaces : Option (List MetaHop)
  broken : Bool
  deriving DecidableEq, Repr

namespace MetaPath

/-! ### The loops -/

/-- How many hops of `other` are also hops of `p`, and how many hops `other` has. -/
def overlap (p other : MetaPath) : Maybe (ℕ × ℕ) :=
  match p.interfaces, other.interfaces with
  | some hopsA, some hopsB =>
    .ok (hopsB.countP fun hop => hopsA.contains hop, hopsB.length)
  | _, _ => .error .invalidArgument

/-- What a path in use adds to the overlap; there is no number for one without hops. -/
def overlapWith (p other : MetaPath) : Option ℚ :=
  match p.overlap other with
  | .ok (first, second) => if second = 0 then none else some (first / second)
  -- assume full overlap if no other data is available
  | .error _ => some 1

/-- The inner loop: `none` if the path is in use. -/
def overlapLoop (p : MetaPath) : List MetaPath → Option ℚ → Option (Option ℚ)
  | [], overlap => some overlap
  | other :: others, overlap =>
    if p.path.matchesPath other.path then none
    else overlapLoop p others (overlap.bind fun o => (p.overlapWith other).map (o + ·))

/-- The outer loop with the best path up to now and its overlap. What is not a number is
neither zero nor below another one. -/
def selectLoop (others : List MetaPath) :
    List MetaPath → Option (MetaPath × ℚ) → Option MetaPath
  | [], best => best.map Prod.fst
  | path :: paths, best =>
    match path.overlapLoop others (some 0) with
    | some (some overlap) =>
      if overlap = 0 then some path
      else if best.all fun b => decide (overlap < b.2) then
        selectLoop others paths (some (path, overlap))
      else selectLoop others paths best
    | _ => selectLoop others paths best

def selectPathMulti (paths others : List MetaPath) : Option MetaPath :=
  selectLoop others paths none

/-! ### The purpose -/

/-- The path may be used next to those in use. -/
def Usable (others : List MetaPath) (p : MetaPath) : Prop :=
  p.broken = false ∧ ∀ other ∈ others, p.path.hops ≠ other.path.hops

instance (others : List MetaPath) (p : MetaPath) : Decidable (p.Usable others) :=
  inferInstanceAs (Decidable (_ ∧ _))

/-- The sum of the overlaps with the paths in use. -/
def summedOverlap (others : List MetaPath) (p : MetaPath) : Option ℚ :=
  (others.mapM p.overlapWith).map List.sum

/-- The summed overlap of a path that may be used. -/
def usableOverlap (others : List MetaPath) (p : MetaPath) : Option ℚ :=
  if p.Usable others then p.summedOverlap others else none

/-- Nothing is selected exactly if nothing can be used, and what is selected can be used and
is the first one of the least overlap among what can be. -/
def Sound (paths others : List MetaPath) : Option MetaPath → Prop
  | none => ∀ p ∈ paths, ¬p.Usable others
  | some p => p.Usable others ∧ IsFirstLeast (usableOverlap others) paths p

/-! ### What is selected -/

/-- The code's own test for a path that is not in use. -/
def isFree (others : List MetaPath) (p : MetaPath) : Bool :=
  others.all fun other => !p.path.matchesPath other.path

/-- The summed overlap of a path that is not in use. -/
def freeOverlap (others : List MetaPath) (p : MetaPath) : Option ℚ :=
  if p.isFree others then p.summedOverlap others else none

theorem overlapWith_nonneg {p other : MetaPath} {o : ℚ} (h : p.overlapWith other = some o) :
    0 ≤ o := by
  rw [overlapWith] at h
  split at h
  · split_ifs at h
    rw [← Option.some.inj h]
    positivity
  · rw [← Option.some.inj h]
    exact zero_le_one

theorem summedOverlap_cons (other : MetaPath) (others : List MetaPath) (p : MetaPath) :
    p.summedOverlap (other :: others)
      = (p.overlapWith other).bind fun o => (p.summedOverlap others).map (o + ·) := by
  rw [summedOverlap, summedOverlap, List.mapM_cons]
  cases p.overlapWith other with
  | none => rfl
  | some o =>
    cases others.mapM p.overlapWith with
    | none => rfl
    | some os => exact congrArg some (List.sum_cons ..)

theorem summedOverlap_nonneg {others : List MetaPath} {p : MetaPath} :
    ∀ {o : ℚ}, p.summedOverlap others = some o → 0 ≤ o := by
  induction others with
  | nil =>
    intro o h
    exact (Option.some.inj h).le
  | cons other others ih =>
    intro o h
    rw [summedOverlap_cons] at h
    obtain ⟨a, ha, hrest⟩ := Option.bind_eq_some_iff.mp h
    obtain ⟨b, hb, rfl⟩ := Option.map_eq_some_iff.mp hrest
    exact add_nonneg (overlapWith_nonneg ha) (ih hb)

theorem overlapLoop_eq (p : MetaPath) (others : List MetaPath) (overlap : Option ℚ) :
    p.overlapLoop others overlap =
      if p.isFree others then
        some (overlap.bind fun o => (p.summedOverlap others).map (o + ·))
      else none := by
  induction others generalizing overlap with
  | nil =>
    cases overlap with
    | none => rfl
    | some o => exact congrArg (some ∘ some) (add_zero o).symm
  | cons other others ih =>
    rw [overlapLoop, isFree, List.all_cons, ← isFree, ih]
    cases p.path.matchesPath other.path with
    | true => rfl
    | false =>
      rw [if_neg Bool.false_ne_true, Bool.not_false, Bool.true_and, summedOverlap_cons]
      cases overlap with
      | none => rfl
      | some o =>
        cases p.overlapWith other with
        | none => rfl
        | some a =>
          cases p.summedOverlap others with
          | none => rfl
          | some b =>
            have hsum : o + a + b = o + (a + b) := add_assoc o a b
            exact congrArg (fun sum => if p.isFree others then some (some sum) else none) hsum

theorem selectLoop_eq_scan (others paths : List MetaPath) (best : Option (MetaPath × ℚ)) :
    selectLoop others paths best = scan 0 (freeOverlap others) paths best := by
  induction paths generalizing best with
  | nil => rfl
  | cons path paths ih =>
    have hloop : path.overlapLoop others (some 0)
        = if path.isFree others then some (path.summedOverlap others) else none := by
      rw [overlapLoop_eq]
      cases path.summedOverlap others with
      | none => rfl
      | some o => rw [Option.bind_some, Option.map_some, zero_add]
    rw [selectLoop, scan, hloop, freeOverlap]
    cases path.isFree others with
    | false => exact ih best
    | true =>
      rw [if_pos rfl, if_pos rfl]
      cases path.summedOverlap others with
      | none => exact ih best
      | some o =>
        dsimp only
        rw [ih, ih]

/-- The choice among paths whose overlaps are given. -/
theorem map_selectLoop {overlap : Path → Option ℚ} {others : List MetaPath} :
    ∀ {paths : List MetaPath} {best : Option (MetaPath × ℚ)},
      (∀ p ∈ paths, overlap p.path = p.summedOverlap others) →
      (selectLoop others paths best).map MetaPath.path = Scion.selectLoop overlap
        (others.map MetaPath.path) (paths.map MetaPath.path) (best.map fun b => (b.1.path, b.2)) := by
  intro paths
  induction paths with
  | nil =>
    intro best _
    cases best with
    | none => rfl
    | some b => rfl
  | cons path paths ih =>
    intro best hoverlap
    obtain ⟨hpath, hpaths⟩ := List.forall_mem_cons.mp hoverlap
    have hin : ((others.map MetaPath.path).any fun other => path.path.matchesPath other)
        = !path.isFree others := by
      rw [List.any_map, isFree, List.not_all_eq_any_not]
      simp only [Bool.not_not]
      rfl
    rw [selectLoop_eq_scan, scan, freeOverlap, List.map_cons, Scion.selectLoop, hin, hpath]
    cases path.isFree others with
    | false =>
      rw [← selectLoop_eq_scan]
      exact ih hpaths
    | true =>
      rw [if_pos rfl, Bool.not_true, if_neg Bool.false_ne_true]
      cases path.summedOverlap others with
      | none =>
        rw [← selectLoop_eq_scan]
        exact ih hpaths
      | some o =>
        have hbest : ((best.map fun b => (b.1.path, b.2)).all fun b => decide (o < b.2))
            = best.all fun b => decide (o < b.2) := by
          rw [Option.all_map]
        dsimp only
        rw [hbest, ← selectLoop_eq_scan, ← selectLoop_eq_scan]
        split_ifs with hzero hbetter
        · rfl
        · exact ih hpaths
        · exact ih hpaths

theorem isFree_of_usable {others : List MetaPath} {p : MetaPath} (h : p.Usable others) :
    p.isFree others = true := by
  rw [isFree, List.all_eq_true]
  intro other hother
  have hne := h.2 other hother
  rw [Path.matchesPath, beq_false_of_ne hne, Bool.and_false]
  rfl

theorem isFirstLeast_of_selectPathMulti {paths others : List MetaPath} {p : MetaPath}
    (h : selectPathMulti paths others = some p) : IsFirstLeast (freeOverlap others) paths p := by
  rw [selectPathMulti, selectLoop_eq_scan] at h
  refine isFirstLeast_of_scan (fun q o ho => ?_) h
  rw [freeOverlap] at ho
  split_ifs at ho
  exact summedOverlap_nonneg ho

theorem selectPathMulti_eq_none_iff {paths others : List MetaPath} :
    selectPathMulti paths others = none ↔ ∀ p ∈ paths, p.freeOverlap others = none := by
  rw [selectPathMulti, selectLoop_eq_scan, scan_eq_none_iff]
  exact and_iff_right rfl

/-! ### When it is what it should be -/

/-- Every path that is not in use, but cannot be used, loses against one that can be: one
before it that does not overlap more, or one behind it that overlaps less. -/
def Beaten (paths others : List MetaPath) : Prop :=
  ∀ before after p, paths = before ++ p :: after → p.isFree others = true → ¬p.Usable others →
    ∀ o, p.summedOverlap others = some o →
      (∃ q ∈ before, q.Usable others ∧ ∃ a, q.summedOverlap others = some a ∧ a ≤ o) ∨
        ∃ q ∈ after, q.Usable others ∧ ∃ a, q.summedOverlap others = some a ∧ a < o

/-- If a path can be used, there is one whose overlap is a number. -/
def Comparable (paths others : List MetaPath) : Prop :=
  (∃ p ∈ paths, p.Usable others) →
    ∃ p ∈ paths, p.Usable others ∧ ∃ o, p.summedOverlap others = some o

theorem usableOverlap_eq_some {others : List MetaPath} {p : MetaPath} {o : ℚ} :
    p.usableOverlap others = some o ↔ p.Usable others ∧ p.summedOverlap others = some o := by
  rw [usableOverlap]
  split_ifs with h
  · exact (and_iff_right h).symm
  · exact iff_of_false (fun hnone => by cases hnone) fun hp => h hp.1

theorem freeOverlap_eq_some {others : List MetaPath} {p : MetaPath} {o : ℚ} :
    p.freeOverlap others = some o ↔ p.isFree others = true ∧ p.summedOverlap others = some o := by
  rw [freeOverlap]
  split_ifs with h
  · exact (and_iff_right h).symm
  · exact iff_of_false (fun hnone => by cases hnone) fun hp => h hp.1

theorem freeOverlap_of_usableOverlap {others : List MetaPath} {p : MetaPath} {o : ℚ}
    (h : p.usableOverlap others = some o) : p.freeOverlap others = some o := by
  obtain ⟨husable, ho⟩ := usableOverlap_eq_some.mp h
  exact freeOverlap_eq_some.mpr ⟨isFree_of_usable husable, ho⟩

/-- A path that can be used and is selected among all that are not in use is the one to
select. -/
theorem isFirstLeast_usable {paths others : List MetaPath} {p : MetaPath}
    (h : IsFirstLeast (freeOverlap others) paths p) (husable : p.Usable others) :
    IsFirstLeast (usableOverlap others) paths p := by
  obtain ⟨before, after, o, hpaths, ho, hbefore, hafter⟩ := h
  refine ⟨before, after, o, hpaths, usableOverlap_eq_some.mpr
    ⟨husable, (freeOverlap_eq_some.mp ho).2⟩, fun q hq a ha => ?_, fun q hq a ha => ?_⟩
  · exact hbefore q hq a (freeOverlap_of_usableOverlap ha)
  · exact hafter q hq a (freeOverlap_of_usableOverlap ha)

/-- The result is sound exactly for lists where no broken path wins and overlaps can be
compared. -/
theorem sound_selectPathMulti_iff (paths others : List MetaPath) :
    Sound paths others (selectPathMulti paths others) ↔
      Beaten paths others ∧ Comparable paths others := by
  constructor
  · intro hsound
    constructor
    · -- the result beats the broken path, or is it
      intro before after p hpaths hfree hunusable o ho
      have hcost := freeOverlap_eq_some.mpr ⟨hfree, ho⟩
      cases hselect : selectPathMulti paths others with
      | none =>
        have hnone := selectPathMulti_eq_none_iff.mp hselect p
          (hpaths ▸ List.mem_append_right _ (List.mem_cons_self ..))
        rw [hcost] at hnone
        cases hnone
      | some q =>
        rw [hselect] at hsound
        have hleast := isFirstLeast_of_selectPathMulti hselect
        rw [hpaths] at hleast
        rcases hleast.before_or_after hcost with rfl | ⟨a, ha, hwhere⟩
        · exact absurd hsound.1 hunusable
        · have hsum := (freeOverlap_eq_some.mp ha).2
          exact hwhere.imp (fun h => ⟨q, h.1, hsound.1, a, hsum, h.2⟩)
            fun h => ⟨q, h.1, hsound.1, a, hsum, h.2⟩
    · rintro ⟨p, hp, husable⟩
      cases hselect : selectPathMulti paths others with
      | none =>
        rw [hselect] at hsound
        exact absurd husable (hsound p hp)
      | some q =>
        rw [hselect] at hsound
        obtain ⟨hmem, o, ho⟩ := hsound.2.exists_cost
        exact ⟨q, hmem, hsound.1, o, (usableOverlap_eq_some.mp ho).2⟩
  · rintro ⟨hbeaten, hcomparable⟩
    cases hselect : selectPathMulti paths others with
    | none =>
      have hnone := selectPathMulti_eq_none_iff.mp hselect
      intro p hp husable
      obtain ⟨q, hq, hqusable, o, ho⟩ := hcomparable ⟨p, hp, husable⟩
      have hcost := freeOverlap_eq_some.mpr ⟨isFree_of_usable hqusable, ho⟩
      rw [hnone q hq] at hcost
      cases hcost
    | some p =>
      have hleast := isFirstLeast_of_selectPathMulti hselect
      -- a broken result would have been beaten
      suffices husable : p.Usable others from ⟨husable, isFirstLeast_usable hleast husable⟩
      by_contra hunusable
      obtain ⟨before, after, o, hpaths, ho, hbefore, hafter⟩ := hleast
      obtain ⟨hfree, hsum⟩ := freeOverlap_eq_some.mp ho
      rcases hbeaten before after p hpaths hfree hunusable o hsum with
        ⟨q, hq, hqusable, a, ha, hle⟩ | ⟨q, hq, hqusable, a, ha, hlt⟩
      · have hcost := freeOverlap_eq_some.mpr ⟨isFree_of_usable hqusable, ha⟩
        exact absurd (hbefore q hq a hcost) (not_lt.mpr hle)
      · have hcost := freeOverlap_eq_some.mpr ⟨isFree_of_usable hqusable, ha⟩
        exact absurd (hafter q hq a hcost) (not_le.mpr hlt)

/-- A path that is known to be broken. -/
def exampleBroken : MetaPath :=
  ⟨exampleRawPath.makePath exampleHash 0 ⟨.v4 0x0a000001, 30041⟩, none, true⟩

/-- With no other candidate the broken path is selected. -/
theorem not_forall_sound_selectPathMulti :
    ¬∀ paths others : List MetaPath, Sound paths others (selectPathMulti paths others) := by
  intro hclaim
  have hsound : exampleBroken.Usable [] := (hclaim [exampleBroken] []).1
  exact absurd hsound.1 (by decide)

end MetaPath

end Scion
