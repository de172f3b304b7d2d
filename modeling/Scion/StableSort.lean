/-
Sorting by several orders, one after the other.

A stable sort leaves in their order the elements that it does not tell apart.
Sorting by one order after the other is then sorting once, by the last order
first, and by the places in the list where no order decides.

* `Precedes` — the lexicographic order of several orders and the places;
* `pairwise_mergeSort` — one more sort puts its order in front;
* `SortedBy` — the list sorted by an order of its elements and their places, which
  is unique (`SortedBy.unique`);
* `foldl_mergeSort` — what several stable sorts do.
-/
import Mathlib.Data.List.Basic
import Mathlib.Tactic.Common

namespace StableSort

variable {α : Type}

/-- An order by which a list can be sorted: a total preorder. -/
structure Order (α : Type) where
  le : α → α → Bool
  trans : ∀ a b c, le a b = true → le b c = true → le a c = true
  total : ∀ a b, (le a b || le b a) = true

/-- The first order that tells two elements apart decides, and if none does, their
places in the list. -/
def Precedes : List (Order α) → α × ℕ → α × ℕ → Prop
  | [], a, b => a.2 < b.2
  | order :: rest, a, b =>
    order.le a.1 b.1 = true ∧ (order.le b.1 a.1 = true → Precedes rest a b)

theorem Precedes.asymm {orders : List (Order α)} {a b : α × ℕ} (h : Precedes orders a b) :
    ¬ Precedes orders b a := by
  induction orders with
  | nil => exact Nat.lt_asymm h
  | cons order rest ih =>
    rintro ⟨hba, hrest⟩
    exact ih (h.2 hba) (hrest h.1)

/-- The order of elements with their places. -/
def Order.onPlaces (order : Order α) : Order (α × ℕ) where
  le a b := order.le a.1 b.1
  trans a b c := order.trans a.1 b.1 c.1
  total a b := order.total a.1 b.1

theorem sublist_pair_or {l : List α} {a b : α} (ha : a ∈ l) (hb : b ∈ l) (hne : a ≠ b) :
    [a, b].Sublist l ∨ [b, a].Sublist l := by
  induction l with
  | nil => cases ha
  | cons x l ih =>
    rcases List.mem_cons.mp ha with rfl | ha'
    · rcases List.mem_cons.mp hb with rfl | hb'
      · exact absurd rfl hne
      · exact Or.inl ((List.singleton_sublist.mpr hb').cons_cons a)
    · rcases List.mem_cons.mp hb with rfl | hb'
      · exact Or.inr ((List.singleton_sublist.mpr ha').cons_cons b)
      · exact (ih ha' hb').imp (·.cons x) (·.cons x)

/-- Two elements stand in one order only. -/
theorem not_sublist_swap {l : List α} (hnodup : l.Nodup) {a b : α} (hab : [a, b].Sublist l) :
    ¬ [b, a].Sublist l := by
  induction l with
  | nil => cases hab
  | cons x l ih =>
    obtain ⟨hx, hl⟩ := List.nodup_cons.mp hnodup
    intro hba
    cases hab with
    | cons _ hab =>
      cases hba with
      | cons _ hba => exact ih hl hab hba
      | cons_cons _ hba => exact hx (hab.subset (by simp))
    | cons_cons _ hab =>
      cases hba with
      | cons _ hba => exact hx (hba.subset (by simp))
      | cons_cons _ hba => exact hx (List.singleton_sublist.mp hab)

/-- A sort puts its order in front of those by which the list is sorted. -/
theorem pairwise_mergeSort {orders : List (Order α)} (order : Order α) {l : List (α × ℕ)}
    (h : l.Pairwise (Precedes orders)) :
    (l.mergeSort order.onPlaces.le).Pairwise (Precedes (order :: orders)) := by
  have hperm := List.mergeSort_perm l order.onPlaces.le
  have hnodup : l.Nodup := h.imp fun hp => by
    rintro rfl
    exact hp.asymm hp
  have hsorted := List.pairwise_mergeSort order.onPlaces.trans order.onPlaces.total l
  rw [List.pairwise_iff_forall_sublist] at h hsorted ⊢
  intro a b hab
  refine ⟨hsorted hab, fun hba => ?_⟩
  have ha : a ∈ l := hperm.mem_iff.mp (hab.subset (by simp))
  have hb : b ∈ l := hperm.mem_iff.mp (hab.subset (by simp))
  have hnodup' := hperm.nodup_iff.mpr hnodup
  have hne : a ≠ b := by
    rintro rfl
    exact (List.nodup_cons.mp (hnodup'.sublist hab)).1 List.mem_cons_self
  -- the sort keeps the order of two elements that it does not tell apart
  rcases sublist_pair_or ha hb hne with hl | hl
  · exact h hl
  · exact absurd (List.pair_sublist_mergeSort order.onPlaces.trans order.onPlaces.total hba hl)
      (not_sublist_swap hnodup' hab)

/-- The elements of `l` in the order of `orders` and then of their places in `l`. -/
def SortedBy (orders : List (Order α)) (l sorted : List α) : Prop :=
  ∃ placed : List (α × ℕ), placed.Perm l.zipIdx ∧ placed.map Prod.fst = sorted ∧
    placed.Pairwise (Precedes orders)

theorem SortedBy.perm {orders : List (Order α)} {l sorted : List α} (h : SortedBy orders l sorted) :
    sorted.Perm l := by
  obtain ⟨placed, hperm, rfl, -⟩ := h
  have hmap := hperm.map Prod.fst
  rwa [List.zipIdx_map_fst] at hmap

theorem SortedBy.unique {orders : List (Order α)} {l sorted sorted' : List α}
    (h : SortedBy orders l sorted) (h' : SortedBy orders l sorted') : sorted = sorted' := by
  obtain ⟨placed, hperm, rfl, hpairwise⟩ := h
  obtain ⟨placed', hperm', rfl, hpairwise'⟩ := h'
  congr 1
  exact (hperm.trans hperm'.symm).eq_of_pairwise
    (fun a b _ _ hab hba => absurd hba hab.asymm) hpairwise hpairwise'

theorem SortedBy.refl (l : List α) : SortedBy [] l l := by
  refine ⟨l.zipIdx, .refl _, List.zipIdx_map_fst 0 l, ?_⟩
  have hplaces : (l.zipIdx.map Prod.snd).Pairwise (· < ·) := by
    rw [List.zipIdx_map_snd]
    exact List.pairwise_lt_range'
  rw [List.pairwise_map] at hplaces
  exact hplaces

/-- Sorting a sorted list once more. -/
theorem SortedBy.mergeSort {orders : List (Order α)} {l sorted : List α}
    (h : SortedBy orders l sorted) (order : Order α) :
    SortedBy (order :: orders) l (sorted.mergeSort order.le) := by
  obtain ⟨placed, hperm, rfl, hpairwise⟩ := h
  refine ⟨placed.mergeSort order.onPlaces.le, (List.mergeSort_perm _ _).trans hperm, ?_,
    pairwise_mergeSort order hpairwise⟩
  exact List.map_mergeSort fun _ _ _ _ => rfl

/-- Stable sorts from left to right sort by the last order first. -/
theorem foldl_mergeSort (orders : List (Order α)) (l : List α) :
    SortedBy orders.reverse l (orders.foldl (fun l order => l.mergeSort order.le) l) := by
  have hrun (done : List (Order α)) (sorted : List α) (h : SortedBy done l sorted) :
      SortedBy (orders.reverse ++ done) l
        (orders.foldl (fun l order => l.mergeSort order.le) sorted) := by
    induction orders generalizing done sorted with
    | nil => exact h
    | cons order rest ih =>
      rw [List.reverse_cons, List.append_assoc]
      exact ih _ _ (h.mergeSort order)
  have hall := hrun [] l (SortedBy.refl l)
  rwa [List.append_nil] at hall

end StableSort
