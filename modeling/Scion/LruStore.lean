/-
Stores of least recently used entries.

A store is a list of entries with distinct keys, the least recently used first. An
entry is found by its key, put at the back when it is used, and dropped at the front
when there is no room.

* `Store`, with `find?`, `touch`, `push`, `erase`, `update`, `drop` and `dropWhile`;
* `mem_entries_iff` — the entries are what `find?` finds;
* `find?_touch`, `find?_push`, `find?_erase`, `find?_update` — what is found afterwards;
* `Recent` — the entries are in the order of their last uses.
-/
import Mathlib.Data.List.Nodup

namespace Lru

variable {κ υ : Type}

/-- Entries with distinct keys, the least recently used first. -/
@[ext]
structure Store (κ υ : Type) where
  entries : List (κ × υ)
  nodup : (entries.map Prod.fst).Nodup

namespace Store

variable {s : Store κ υ} {k k' : κ} {v v' : υ}

def empty : Store κ υ := ⟨[], List.nodup_nil⟩

/-- Some of the entries, in their order. -/
def restrict (s : Store κ υ) (entries : List (κ × υ)) (h : entries.Sublist s.entries) :
    Store κ υ :=
  ⟨entries, (h.map Prod.fst).nodup s.nodup⟩

/-- All but the `n` least recently used entries. -/
def drop (s : Store κ υ) (n : ℕ) : Store κ υ :=
  s.restrict (s.entries.drop n) (List.drop_sublist n s.entries)

/-- Drop entries from the front on while they satisfy `p`. -/
def dropWhile (s : Store κ υ) (p : υ → Bool) : Store κ υ :=
  s.restrict (s.entries.dropWhile fun e => p e.2) (List.dropWhile_sublist _)

/-- A new entry at the back. -/
def push (s : Store κ υ) (k : κ) (v : υ) (h : k ∉ s.entries.map Prod.fst) : Store κ υ where
  entries := s.entries ++ [(k, v)]
  nodup := by
    rw [List.map_append, List.map_singleton]
    refine List.nodup_append.mpr ⟨s.nodup, List.nodup_singleton k, ?_⟩
    intro a ha b hb
    rw [List.mem_singleton.mp hb]
    rintro rfl
    exact h ha

@[simp] theorem entries_drop (s : Store κ υ) (n : ℕ) : (s.drop n).entries = s.entries.drop n := rfl

@[simp] theorem entries_dropWhile (s : Store κ υ) (p : υ → Bool) :
    (s.dropWhile p).entries = s.entries.dropWhile fun e => p e.2 := rfl

@[simp] theorem entries_push (s : Store κ υ) (k : κ) (v : υ) (h : k ∉ s.entries.map Prod.fst) :
    (s.push k v h).entries = s.entries ++ [(k, v)] := rfl

variable [DecidableEq κ]

def find? (s : Store κ υ) (k : κ) : Option υ := (s.entries.find? fun e => e.1 = k).map Prod.snd

def erase (s : Store κ υ) (k : κ) : Store κ υ :=
  s.restrict (s.entries.filter fun e => e.1 ≠ k) List.filter_sublist

theorem notMem_erase (s : Store κ υ) (k : κ) : k ∉ (s.erase k).entries.map Prod.fst := by
  intro h
  obtain ⟨e, he, hk⟩ := List.mem_map.mp h
  exact of_decide_eq_true (List.mem_filter.mp he).2 hk

/-- The entry of a key gets a new value and moves to the back. -/
def touch (s : Store κ υ) (k : κ) (v : υ) : Store κ υ := (s.erase k).push k v (notMem_erase s k)

/-- The value of a key changes where it is. -/
def update (s : Store κ υ) (k : κ) (f : υ → υ) : Store κ υ where
  entries := s.entries.map fun e => if e.1 = k then (e.1, f e.2) else e
  nodup := by
    have hkeys : (s.entries.map fun e => if e.1 = k then (e.1, f e.2) else e).map Prod.fst
        = s.entries.map Prod.fst := by
      rw [List.map_map]
      refine List.map_congr_left fun e _ => ?_
      rw [Function.comp_apply]
      split <;> rfl
    rw [hkeys]
    exact s.nodup

@[simp] theorem entries_erase (s : Store κ υ) (k : κ) :
    (s.erase k).entries = s.entries.filter fun e => e.1 ≠ k := rfl

@[simp] theorem entries_touch (s : Store κ υ) (k : κ) (v : υ) :
    (s.touch k v).entries = (s.entries.filter fun e => e.1 ≠ k) ++ [(k, v)] := rfl

@[simp] theorem entries_update (s : Store κ υ) (k : κ) (f : υ → υ) :
    (s.update k f).entries = s.entries.map fun e => if e.1 = k then (e.1, f e.2) else e := rfl

/-- A value that is changed and then used. -/
theorem touch_update (s : Store κ υ) (k : κ) (f : υ → υ) (v : υ) :
    (s.update k f).touch k v = s.touch k v := by
  refine Store.ext ?_
  rw [entries_touch, entries_touch, entries_update, List.filter_map]
  congr 1
  have hfilter : s.entries.filter ((fun e => decide (e.1 ≠ k)) ∘ fun e =>
      if e.1 = k then (e.1, f e.2) else e) = s.entries.filter fun e => e.1 ≠ k := by
    refine List.filter_congr fun e _ => ?_
    rw [Function.comp_apply]
    split <;> rfl
  rw [hfilter]
  refine (List.map_congr_left fun e he => ?_).trans (List.map_id _)
  rw [if_neg (of_decide_eq_true (List.mem_filter.mp he).2), id]

/-! ### What is found -/

/-- The entries are what is found. -/
theorem mem_entries_iff : (k, v) ∈ s.entries ↔ s.find? k = some v := by
  obtain ⟨entries, hnodup⟩ := s
  rw [find?]
  dsimp only
  induction entries with
  | nil => simp
  | cons e entries ih =>
    rw [List.map_cons, List.nodup_cons] at hnodup
    by_cases hkey : e.1 = k
    · have hnot : (k, v) ∉ entries := by
        intro hmem
        rw [hkey] at hnodup
        exact hnodup.1 (List.mem_map_of_mem hmem)
      rw [List.find?_cons_of_pos (by simpa using hkey), Option.map_some, Option.some.injEq,
        List.mem_cons]
      constructor
      · rintro (h | h)
        · exact congrArg Prod.snd h.symm
        · exact absurd h hnot
      · intro h
        exact Or.inl (Prod.ext hkey.symm h.symm)
    · rw [List.find?_cons_of_neg (by simpa using hkey), ← ih hnodup.2, List.mem_cons]
      constructor
      · rintro (h | h)
        · exact absurd (congrArg Prod.fst h.symm) hkey
        · exact h
      · exact Or.inr

theorem find?_eq_none_iff : s.find? k = none ↔ k ∉ s.entries.map Prod.fst := by
  rw [find?, Option.map_eq_none_iff, List.find?_eq_none, List.mem_map]
  constructor
  · rintro h ⟨e, he, hk⟩
    exact h e he (by simpa using hk)
  · intro h e he hk
    exact h ⟨e, he, by simpa using hk⟩

theorem find?_eq_some_of_mem {e : κ × υ} (h : e ∈ s.entries) : s.find? e.1 = some e.2 :=
  mem_entries_iff.mp h

/-- An entry that is used is not counted twice. -/
theorem length_touch_le (h : s.find? k = some v) (v' : υ) :
    (s.touch k v').entries.length ≤ s.entries.length := by
  have hmem : ∃ e ∈ s.entries, ¬ decide (e.1 ≠ k) = true :=
    ⟨(k, v), mem_entries_iff.mpr h, fun hne => of_decide_eq_true hne rfl⟩
  rw [entries_touch, List.length_append, List.length_singleton]
  exact List.length_filter_lt_length_iff_exists.mpr hmem

/-- Two stores in which the same entries are found at a key. -/
theorem find?_congr {t : Store κ υ} (h : ∀ v, (k, v) ∈ s.entries ↔ (k', v) ∈ t.entries) :
    s.find? k = t.find? k' := by
  refine Option.ext fun v => ?_
  rw [← mem_entries_iff, ← mem_entries_iff]
  exact h v

theorem find?_restrict_of_some {entries : List (κ × υ)} {h : entries.Sublist s.entries}
    (hfind : (s.restrict entries h).find? k = some v) : s.find? k = some v :=
  mem_entries_iff.mp (h.subset (mem_entries_iff.mpr hfind))

theorem find?_erase (s : Store κ υ) (k k' : κ) :
    (s.erase k).find? k' = if k' = k then none else s.find? k' := by
  split
  · next heq =>
    rw [heq]
    exact find?_eq_none_iff.mpr (notMem_erase s k)
  · next hne =>
    refine find?_congr fun v => ?_
    rw [erase, restrict, List.mem_filter]
    exact and_iff_left (by simpa using hne)

theorem find?_push (s : Store κ υ) (k k' : κ) (v : υ) (h : k ∉ s.entries.map Prod.fst) :
    (s.push k v h).find? k' = if k' = k then some v else s.find? k' := by
  split
  · next heq =>
    refine mem_entries_iff.mp (List.mem_append_right s.entries ?_)
    rw [heq]
    exact List.mem_singleton_self (k, v)
  · next hne =>
    refine find?_congr fun v' => ?_
    rw [push, List.mem_append]
    refine or_iff_left fun hmem => hne ?_
    exact congrArg Prod.fst (List.mem_singleton.mp hmem)

theorem find?_touch (s : Store κ υ) (k k' : κ) (v : υ) :
    (s.touch k v).find? k' = if k' = k then some v else s.find? k' := by
  rw [touch, find?_push, find?_erase]
  split <;> rfl

theorem find?_update (s : Store κ υ) (k k' : κ) (f : υ → υ) :
    (s.update k f).find? k' = if k' = k then (s.find? k).map f else s.find? k' := by
  have hmem : ∀ v, (k', v) ∈ (s.update k f).entries ↔
      ∃ e ∈ s.entries, (if e.1 = k then (e.1, f e.2) else e) = (k', v) := by
    intro v
    rw [update]
    exact List.mem_map
  split
  · next heq =>
    refine Option.ext fun v => ?_
    rw [← mem_entries_iff, hmem, Option.map_eq_some_iff, heq]
    constructor
    · rintro ⟨e, he, hev⟩
      by_cases hkey : e.1 = k
      · rw [if_pos hkey] at hev
        refine ⟨e.2, ?_, congrArg Prod.snd hev⟩
        rw [← hkey]
        exact find?_eq_some_of_mem he
      · rw [if_neg hkey] at hev
        exact absurd (congrArg Prod.fst hev) hkey
    · rintro ⟨v', hv', rfl⟩
      exact ⟨(k, v'), mem_entries_iff.mpr hv', if_pos rfl⟩
  · next hne =>
    refine Option.ext fun v => ?_
    rw [← mem_entries_iff, ← mem_entries_iff, hmem]
    constructor
    · rintro ⟨e, he, hev⟩
      by_cases hkey : e.1 = k
      · rw [if_pos hkey] at hev
        exact absurd ((congrArg Prod.fst hev).symm.trans hkey) hne
      · rw [if_neg hkey] at hev
        rwa [← hev]
    · intro h
      exact ⟨(k', v), h, if_neg hne⟩

/-! ### Recency -/

/-- The entries stand in the order in which their keys were last used; `uses` lists the
uses, latest first. -/
def Recent (uses : List κ) (s : Store κ υ) : Prop :=
  (s.entries.map Prod.fst).Pairwise fun a b => uses.idxOf b < uses.idxOf a

theorem Recent.restrict {uses : List κ} (h : Recent uses s) {entries : List (κ × υ)}
    (hsub : entries.Sublist s.entries) : Recent uses (s.restrict entries hsub) :=
  List.Pairwise.sublist (hsub.map Prod.fst) h

/-- A key that is used goes to the back. -/
theorem Recent.push {uses : List κ} (h : Recent uses s) (v : υ)
    (hk : k ∉ s.entries.map Prod.fst) : Recent (k :: uses) (s.push k v hk) := by
  rw [Recent, entries_push, List.map_append, List.map_singleton, List.pairwise_append]
  have hlater : ∀ a ∈ s.entries.map Prod.fst, (k :: uses).idxOf a = uses.idxOf a + 1 := by
    intro a ha
    refine List.idxOf_cons_ne uses fun heq => hk ?_
    rw [heq]
    exact ha
  refine ⟨?_, List.pairwise_singleton _ k, fun a ha b hb => ?_⟩
  · refine List.Pairwise.imp_of_mem (fun {a b} ha hb hab => ?_) h
    rw [hlater a ha, hlater b hb]
    exact Nat.succ_lt_succ hab
  · rw [List.mem_singleton.mp hb, List.idxOf_cons_self, hlater a ha]
    exact Nat.succ_pos _

theorem Recent.touch {uses : List κ} (h : Recent uses s) (k : κ) (v : υ) :
    Recent (k :: uses) (s.touch k v) :=
  Recent.push (h.restrict List.filter_sublist) v (notMem_erase s k)

theorem Recent.update {uses : List κ} (h : Recent uses s) (k : κ) (f : υ → υ) :
    Recent uses (s.update k f) := by
  have hkeys : (s.update k f).entries.map Prod.fst = s.entries.map Prod.fst := by
    rw [entries_update, List.map_map]
    refine List.map_congr_left fun e _ => ?_
    rw [Function.comp_apply]
    split <;> rfl
  rw [Recent, hkeys]
  exact h

end Store

end Lru
