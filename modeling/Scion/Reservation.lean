/-
Values that are assigned to keys in two steps.

A writer looks at the values of all keys, decides on one for its own key and
assigns it later; assignments of other writers fall in between. The log of a
writer holds the assignments since it looked, without those that changed nothing.

* `Distinct` — no two keys have the same value;
* `Reserved` — the keys that have the writer's value got it after it looked;
* `Since` — the writer's key has its old value or one from the log;
* `Reserved.assign`, `Since.assign` — other assignments keep both;
* `Distinct.assign` — an assignment after an undisturbed wait.
-/
import Mathlib.Logic.Function.Basic
import Mathlib.Data.List.Basic

namespace Reservation

variable {κ ν : Type}

def Distinct (assigned : κ → Option ν) : Prop :=
  ∀ j k v, assigned j = some v → assigned k = some v → j = k

/-- The entry of an assignment. -/
def entry [DecidableEq ν] (assigned : κ → Option ν) (k : κ) (v : ν) : List (κ × ν) :=
  if assigned k = some v then [] else [(k, v)]

/-- Another key has the value `v` only if the log says so. -/
def Reserved (assigned : κ → Option ν) (log : List (κ × ν)) (k : κ) (v : ν) : Prop :=
  ∀ j, j ≠ k → assigned j = some v → (j, v) ∈ log

/-- The key had the value `r` when the log began. -/
def Since (assigned : κ → Option ν) (log : List (κ × ν)) (k : κ) (r : Option ν) : Prop :=
  ∀ v, (∀ w, (k, w) ∈ log → w = v) → assigned k = r ∨ assigned k = some v

variable {assigned : κ → Option ν} {log : List (κ × ν)} {k : κ} {v : ν}

theorem Distinct.reserved (h : Distinct assigned) (hk : assigned k = some v)
    (log : List (κ × ν)) : Reserved assigned log k v :=
  fun j hj hv => absurd (h j k v hv hk) hj

theorem Reserved.free (h : Reserved assigned log k v) (hlog : ∀ j, (j, v) ∈ log → j = k) :
    ∀ j, j ≠ k → assigned j ≠ some v :=
  fun j hj hv => hj (hlog j (h j hj hv))

variable [DecidableEq κ]

theorem Distinct.assign (h : Distinct assigned) (hfree : ∀ j, j ≠ k → assigned j ≠ some v) :
    Distinct (Function.update assigned k (some v)) := by
  have hother : ∀ i w, i ≠ k → Function.update assigned k (some v) i = some w →
      assigned i = some w ∧ w ≠ v := by
    intro i w hi hw
    rw [Function.update_of_ne hi] at hw
    refine ⟨hw, ?_⟩
    rintro rfl
    exact hfree i hi hw
  have hself : ∀ w, Function.update assigned k (some v) k = some w → w = v := by
    intro w hw
    rw [Function.update_self] at hw
    exact (Option.some.inj hw).symm
  intro i j w hi hj
  by_cases hik : i = k
  · by_cases hjk : j = k
    · rw [hik, hjk]
    · rw [hik] at hi
      exact absurd (hself w hi) (hother j w hjk hj).2
  · by_cases hjk : j = k
    · rw [hjk] at hj
      exact absurd (hself w hj) (hother i w hik hi).2
    · exact h i j w (hother i w hik hi).1 (hother j w hjk hj).1

variable [DecidableEq ν]

theorem Reserved.assign (h : Reserved assigned log k v) (j : κ) (w : ν) :
    Reserved (Function.update assigned j (some w)) (entry assigned j w ++ log) k v := by
  intro i hi hv
  rw [List.mem_append]
  by_cases hij : i = j
  · rw [hij, Function.update_self] at hv
    rw [hij] at hi ⊢
    rw [entry]
    split_ifs with hsame
    · exact .inr (h j hi (hsame.trans hv))
    · rw [Option.some.inj hv]
      exact .inl (List.mem_singleton_self _)
  · rw [Function.update_of_ne hij] at hv
    exact .inr (h i hi hv)

theorem Since.assign {r : Option ν} (h : Since assigned log k r) (j : κ) (w : ν) :
    Since (Function.update assigned j (some w)) (entry assigned j w ++ log) k r := by
  intro u hlog
  have hold := h u fun x hx => hlog x (List.mem_append_right _ hx)
  by_cases hkj : k = j
  · rw [hkj, Function.update_self]
    rw [hkj] at hold hlog
    by_cases hsame : assigned j = some w
    · rw [← hsame]
      exact hold
    · right
      have hmem : (j, w) ∈ entry assigned j w ++ log := by
        rw [entry, if_neg hsame]
        exact List.mem_append_left _ (List.mem_singleton_self _)
      rw [hlog w hmem]
  · rw [Function.update_of_ne hkj]
    exact hold

end Reservation
