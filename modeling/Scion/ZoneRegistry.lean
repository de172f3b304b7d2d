/-
The registry of IPv6 zones (`src/addr/generic_ip.cpp`, `addr/generic_ip.hpp`).

Addresses with the same zone share an entry that counts them. The registry finds entries
by their zone, under a mutex; the counts are atomic and not under it. The release that
reaches zero goes on to the destructor, which removes the entry under the mutex, and the
entry is freed. Reference counts are numbers.

* `ZoneState.step` — one section under the mutex, or one operation on a count;
* `ZoneState.Invariant` — every entry is in one phase of its life;
* `ZoneState.makesLive_iff` — when the registry hands out an entry that is dying;
* `registry_sound_iff` — the interleavings in which all addresses refer to their entry.
-/
import Mathlib.Logic.Function.Basic
import Mathlib.Data.Nat.Notation
import Scion.Runs

namespace Scion

open Runs

/-! ### The registry -/

/-- `DynamicAddrInfo`. -/
structure ZoneEntry where
  zone : String
  count : ℕ
  /-- Not in the code: the count has reached zero. -/
  dead : Bool
  /-- Not in the code: how often the entry was removed from the registry, and freed. -/
  removals : ℕ
  frees : ℕ

/-- A live address: the entry it refers to, none for `IPv6NoZone`, and the zone it was
made with, which is not in the code. -/
structure ZoneRef where
  entry : Option ℕ
  zone : String
  deriving DecidableEq

/-- What is next for a thread that has released an entry for the last time. -/
inductive DestroyStage
  | removing
  | freeing
  deriving DecidableEq

structure ZoneState where
  /-- The entries by the order of their allocation. -/
  entries : ℕ → Option ZoneEntry
  next : ℕ
  registry : List ℕ
  live : List ZoneRef
  threads : ℕ → Option (DestroyStage × ℕ)

/-- The steps of a thread. -/
inductive ZoneEvent
  | make (thread : ℕ) (zone : String)
  | copy (thread : ℕ) (ref : ZoneRef)
  | destroy (thread : ℕ) (ref : ZoneRef)
  | remove (thread : ℕ)
  | free (thread : ℕ)

namespace ZoneState

def start : ZoneState := ⟨fun _ => none, 0, [], [], fun _ => none⟩

/-- The `std::find_if` of `Make`. -/
def lookup (s : ZoneState) (zone : String) : Option ℕ :=
  s.registry.find? fun e => (s.entries e).any fun x => x.zone == zone

def modify (s : ZoneState) (e : ℕ) (f : ZoneEntry → ZoneEntry) : ZoneState :=
  { s with entries := Function.update s.entries e ((s.entries e).map f) }

/-- `intrusive_ptr_add_ref`. -/
def addRef (s : ZoneState) (e : ℕ) : ZoneState :=
  s.modify e fun x => { x with count := x.count + 1 }

/-- `intrusive_ptr_release`: the thread that takes the count to zero destroys the entry. -/
def release (s : ZoneState) (t e : ℕ) : ZoneState :=
  let last := (s.entries e).any fun x => x.count == 1
  let s := s.modify e fun x =>
    { x with count := x.count - 1, dead := x.dead || x.count == 1 }
  if last then { s with threads := Function.update s.threads t (some (.removing, e)) } else s

/-- The section of `Make` for a zone that is not empty. -/
def makeZone (s : ZoneState) (zone : String) : ZoneState :=
  match s.lookup zone with
  | some e => { s.addRef e with live := ⟨some e, zone⟩ :: s.live }
  | none =>
    { s with
      entries := Function.update s.entries s.next (some ⟨zone, 1, false, 0, 0⟩)
      next := s.next + 1
      registry := s.registry ++ [s.next]
      live := ⟨some s.next, zone⟩ :: s.live }

/-- One step, of a thread that is not in a destructor or in its next stage. -/
def step (s : ZoneState) : ZoneEvent → Option ZoneState
  | .make t zone =>
    if s.threads t ≠ none then none
    else if zone = "" then some { s with live := ⟨none, zone⟩ :: s.live }
    else some (s.makeZone zone)
  | .copy t ref =>
    if s.threads t ≠ none ∨ ref ∉ s.live then none
    else
      match ref.entry with
      | some e => some { s.addRef e with live := ref :: s.live }
      | none => some { s with live := ref :: s.live }
  | .destroy t ref =>
    if s.threads t ≠ none ∨ ref ∉ s.live then none
    else
      let s := { s with live := s.live.erase ref }
      match ref.entry with
      | some e => some (s.release t e)
      | none => some s
  | .remove t =>
    match s.threads t with
    | some (.removing, e) =>
      let s := s.modify e fun x => { x with removals := x.removals + 1 }
      some { s with
        registry := s.registry.filter (· ≠ e)
        threads := Function.update s.threads t (some (.freeing, e)) }
    | _ => none
  | .free t =>
    match s.threads t with
    | some (.freeing, e) =>
      let s := s.modify e fun x => { x with frees := x.frees + 1 }
      some { s with threads := Function.update s.threads t none }
    | _ => none

/-! ### Soundness -/

/-- An entry that `Make` hands out has not reached zero before. -/
def MakesLive (s : ZoneState) (event : ZoneEvent) : Prop :=
  ∀ t zone e x, event = .make t zone → zone ≠ "" → s.lookup zone = some e →
    s.entries e = some x → x.dead = false

/-- Live addresses refer to an entry that is not freed and has their zone. An entry is
removed and freed at most once, and no less when nothing refers to it and no thread is
destroying it. -/
structure Sound (s : ZoneState) : Prop where
  refers : ∀ ref ∈ s.live, ∀ e, ref.entry = some e →
    ∃ x, s.entries e = some x ∧ x.frees = 0 ∧ x.zone = ref.zone
  noZone : ∀ ref ∈ s.live, ref.entry = none → ref.zone = ""
  atMostOnce : ∀ e x, s.entries e = some x → x.removals ≤ 1 ∧ x.frees ≤ 1
  atLeastOnce : ∀ e x, s.entries e = some x → (∀ ref ∈ s.live, ref.entry ≠ some e) →
    (∀ t stage, s.threads t ≠ some (stage, e)) → x.removals = 1 ∧ x.frees = 1

/-- A thread is about to remove an entry of the zone for which `Make` is called. -/
def MakesInWindow (s : ZoneState) (event : ZoneEvent) : Prop :=
  ∃ t zone, event = .make t zone ∧ zone ≠ "" ∧
    ∃ remover e x, s.threads remover = some (.removing, e) ∧ s.entries e = some x ∧ x.zone = zone

/-! ### The life of an entry -/

/-- The phases of an entry, with the thread that destroys it and its stage. -/
inductive Phase (registered : Prop) : ZoneEntry → Option (ℕ × DestroyStage) → Prop
  | live {zone : String} {count : ℕ} :
    0 < count → registered → Phase registered ⟨zone, count, false, 0, 0⟩ none
  | removing {zone : String} {t : ℕ} :
    registered → Phase registered ⟨zone, 0, true, 0, 0⟩ (some (t, .removing))
  | freeing {zone : String} {t : ℕ} :
    ¬ registered → Phase registered ⟨zone, 0, true, 1, 0⟩ (some (t, .freeing))
  | gone {zone : String} : ¬ registered → Phase registered ⟨zone, 0, true, 1, 1⟩ none

/-- The thread that destroys an entry is the only one. -/
def Owns (s : ZoneState) (e : ℕ) (owner : Option (ℕ × DestroyStage)) : Prop :=
  ∀ t stage, s.threads t = some (stage, e) ↔ owner = some (t, stage)

/-- The number of live addresses that refer to an entry. -/
def refs (s : ZoneState) (e : ℕ) : ℕ := s.live.countP fun ref => ref.entry == some e

structure Invariant (s : ZoneState) : Prop where
  phase : ∀ e x, s.entries e = some x →
    ∃ owner, Phase (e ∈ s.registry) x owner ∧ s.Owns e owner
  counted : ∀ e x, s.entries e = some x → x.count = s.refs e
  refers : ∀ ref ∈ s.live, ∀ e, ref.entry = some e →
    ∃ x, s.entries e = some x ∧ x.zone = ref.zone
  noZone : ∀ ref ∈ s.live, ref.entry = none → ref.zone = ""
  allocated : ∀ e, s.next ≤ e → s.entries e = none
  registered : ∀ e ∈ s.registry, s.entries e ≠ none
  destroyed : ∀ t stage e, s.threads t = some (stage, e) → s.entries e ≠ none
  distinct : ∀ e ∈ s.registry, ∀ e' ∈ s.registry,
    (s.entries e).map ZoneEntry.zone = (s.entries e').map ZoneEntry.zone → e = e'

variable {s s' : ZoneState} {e : ℕ} {x y : ZoneEntry}

theorem refs_cons (ref : ZoneRef) (s : ZoneState) (e : ℕ) :
    refs { s with live := ref :: s.live } e = s.refs e + if ref.entry = some e then 1 else 0 := by
  simp [refs, List.countP_cons]

theorem refs_erase {ref : ZoneRef} (hmem : ref ∈ s.live) (e : ℕ) :
    s.refs e = refs { s with live := s.live.erase ref } e +
      if ref.entry = some e then 1 else 0 := by
  have hperm := (List.perm_cons_erase hmem).countP_eq fun ref => ref.entry == some e
  rw [List.countP_cons] at hperm
  simpa [refs] using hperm

/-- An entry that an address refers to is live. -/
theorem Invariant.live_of_ref (h : s.Invariant) {ref : ZoneRef} (hmem : ref ∈ s.live)
    (href : ref.entry = some e) (hx : s.entries e = some x) :
    Phase (e ∈ s.registry) x none ∧ s.Owns e none ∧ 0 < x.count ∧ x.dead = false := by
  have hpos : 0 < x.count := by
    rw [h.counted e x hx, refs, List.countP_pos_iff]
    exact ⟨ref, hmem, by simp [href]⟩
  obtain ⟨owner, hphase, howns⟩ := h.phase e x hx
  cases hphase with
  | live hcount hregistered => exact ⟨Phase.live hcount hregistered, howns, hpos, rfl⟩
  | removing _ => exact absurd hpos (lt_irrefl 0)
  | freeing _ => exact absurd hpos (lt_irrefl 0)
  | gone _ => exact absurd hpos (lt_irrefl 0)

/-- The invariant makes a state sound. -/
theorem Invariant.sound (h : s.Invariant) : s.Sound := by
  refine ⟨?_, h.noZone, ?_, ?_⟩
  · intro ref hmem e href
    obtain ⟨x, hx, hzone⟩ := h.refers ref hmem e href
    obtain ⟨hphase, -, hpos, -⟩ := h.live_of_ref hmem href hx
    cases hphase with
    | live _ _ => exact ⟨_, hx, rfl, hzone⟩
    | gone _ => exact absurd hpos (lt_irrefl 0)
  · intro e x hx
    obtain ⟨owner, hphase, -⟩ := h.phase e x hx
    cases hphase with
    | live _ _ => exact ⟨by simp, by simp⟩
    | removing _ => exact ⟨by simp, by simp⟩
    | freeing _ => exact ⟨by simp, by simp⟩
    | gone _ => exact ⟨by simp, by simp⟩
  · intro e x hx hunused hidle
    have hcount := h.counted e x hx
    have hzero : s.refs e = 0 := by
      rw [refs, List.countP_eq_zero]
      intro ref hmem heq
      exact hunused ref hmem (eq_of_beq heq)
    obtain ⟨owner, hphase, howns⟩ := h.phase e x hx
    cases hphase with
    | live hpos _ =>
      -- a live entry has an address, which `hzero` excludes
      dsimp only at hcount
      omega
    | removing _ => exact absurd ((howns _ _).mpr rfl) (hidle _ _)
    | freeing _ => exact absurd ((howns _ _).mpr rfl) (hidle _ _)
    | gone _ => exact ⟨rfl, rfl⟩

/-- The registry hands out a dying entry exactly in the window between the last release
and the removal. -/
theorem makesLive_iff (h : s.Invariant) (event : ZoneEvent) :
    s.MakesLive event ↔ ¬ s.MakesInWindow event := by
  constructor
  · rintro hlive ⟨t, zone, rfl, hzone, remover, e, x, hthread, hx, rfl⟩
    obtain ⟨owner, hphase, howns⟩ := h.phase e x hx
    have howner := (howns remover .removing).mp hthread
    subst howner
    -- the registry finds this entry, for it has only one of the zone
    obtain ⟨hregistered, hdead⟩ : e ∈ s.registry ∧ x.dead = true := by
      cases hphase with
      | removing hregistered => exact ⟨hregistered, rfl⟩
    have hfound : s.lookup x.zone = some e := by
      cases hlookup : s.lookup x.zone with
      | none =>
        have hnone := List.find?_eq_none.mp hlookup e hregistered
        simp [hx] at hnone
      | some e' =>
        have hmem := List.mem_of_find?_eq_some hlookup
        have hsame := List.find?_some hlookup
        obtain ⟨x', hx', heq⟩ := (Option.any_eq_true ..).mp hsame
        rw [h.distinct e' hmem e hregistered (by simp [hx, hx', eq_of_beq heq])]
    have hfalse := hlive t x.zone e x rfl hzone hfound hx
    rw [hdead] at hfalse
    cases hfalse
  · rintro hwindow t zone e x rfl hzone hfound hx
    have hmem := List.mem_of_find?_eq_some hfound
    have hsame := List.find?_some hfound
    rw [hx, Option.any_some] at hsame
    obtain ⟨owner, hphase, howns⟩ := h.phase e x hx
    -- of the entries in the registry only one that is being removed is dying
    cases hphase with
    | live _ _ => rfl
    | @removing zone' remover _ =>
      have hthread := (howns remover .removing).mpr rfl
      exact absurd ⟨t, zone, rfl, hzone, remover, e, _, hthread, hx, eq_of_beq hsame⟩ hwindow
    | freeing hgone => exact absurd hmem hgone
    | gone hgone => exact absurd hmem hgone

/-! ### Steps -/

/-- One entry is made or changes, with the addresses that refer to it and the threads that
destroy it. -/
theorem Invariant.update (h : s.Invariant)
    (hentries : s'.entries = Function.update s.entries e (some y))
    (hzone : ∀ x, s.entries e = some x → y.zone = x.zone) (hnext : s.next ≤ s'.next)
    (hlt : e < s'.next) (hregistry : ∀ e' ≠ e, e' ∈ s'.registry ↔ e' ∈ s.registry)
    (hdistinct : e ∈ s'.registry → ∀ e' ∈ s.registry,
      (s.entries e').map ZoneEntry.zone = some y.zone → e' = e)
    (hthreads : ∀ e' ≠ e, ∀ t stage,
      s'.threads t = some (stage, e') ↔ s.threads t = some (stage, e'))
    (hrefs : ∀ e' ≠ e, s'.refs e' = s.refs e')
    (hlive : ∀ ref ∈ s'.live, ref ∈ s.live ∨ ref.entry = some e ∧ ref.zone = y.zone)
    (hcount : y.count = s'.refs e)
    (hphase : ∃ owner, Phase (e ∈ s'.registry) y owner ∧ s'.Owns e owner) : s'.Invariant := by
  have hself : s'.entries e = some y := by rw [hentries, Function.update_self]
  have hother : ∀ e' ≠ e, s'.entries e' = s.entries e' := by
    intro e' hne
    rw [hentries, Function.update_of_ne hne]
  have hsome : ∀ e', s.entries e' ≠ none → s'.entries e' ≠ none := by
    intro e' hsome
    rcases eq_or_ne e' e with rfl | hne
    · rw [hself]
      exact Option.some_ne_none y
    · rw [hother e' hne]
      exact hsome
  refine ⟨?_, ?_, ?_, ?_, ?_, ?_, ?_, ?_⟩
  · intro e' z hz
    rcases eq_or_ne e' e with rfl | hne
    · rw [hself] at hz
      cases hz
      exact hphase
    · rw [hother e' hne] at hz
      obtain ⟨owner, hold, howns⟩ := h.phase e' z hz
      refine ⟨owner, ?_, fun t stage => (hthreads e' hne t stage).trans (howns t stage)⟩
      rw [hregistry e' hne]
      exact hold
  · intro e' z hz
    rcases eq_or_ne e' e with rfl | hne
    · rw [hself] at hz
      cases hz
      exact hcount
    · rw [hother e' hne] at hz
      rw [hrefs e' hne]
      exact h.counted e' z hz
  · intro ref href e' hentry
    rcases hlive ref href with hmem | ⟨hnew, hzone'⟩
    · obtain ⟨z, hz, hzone'⟩ := h.refers ref hmem e' hentry
      rcases eq_or_ne e' e with rfl | hne
      · exact ⟨y, hself, (hzone z hz).trans hzone'⟩
      · exact ⟨z, (hother e' hne).trans hz, hzone'⟩
    · cases hnew.symm.trans hentry
      exact ⟨y, hself, hzone'.symm⟩
  · intro ref href hnone
    rcases hlive ref href with hmem | ⟨hnew, -⟩
    · exact h.noZone ref hmem hnone
    · cases hnew.symm.trans hnone
  · intro e' hle
    rw [hother e' (Nat.ne_of_gt (hlt.trans_le hle))]
    exact h.allocated e' (hnext.trans hle)
  · intro e' hmem
    rcases eq_or_ne e' e with rfl | hne
    · rw [hself]
      exact Option.some_ne_none y
    · exact hsome e' (h.registered e' ((hregistry e' hne).mp hmem))
  · intro t stage e' hthread
    rcases eq_or_ne e' e with rfl | hne
    · rw [hself]
      exact Option.some_ne_none y
    · exact hsome e' (h.destroyed t stage e' ((hthreads e' hne t stage).mp hthread))
  · intro e₁ hmem₁ e₂ hmem₂ hsame
    rcases eq_or_ne e₁ e with rfl | hne₁
    · rcases eq_or_ne e₂ e₁ with rfl | hne₂
      · rfl
      · rw [hself, hother e₂ hne₂] at hsame
        exact (hdistinct hmem₁ e₂ ((hregistry e₂ hne₂).mp hmem₂) hsame.symm).symm
    · rcases eq_or_ne e₂ e with rfl | hne₂
      · rw [hself, hother e₁ hne₁] at hsame
        exact hdistinct hmem₂ e₁ ((hregistry e₁ hne₁).mp hmem₁) hsame
      · rw [hother e₁ hne₁, hother e₂ hne₂] at hsame
        exact h.distinct e₁ ((hregistry e₁ hne₁).mp hmem₁) e₂ ((hregistry e₂ hne₂).mp hmem₂) hsame

/-- An entry that exists changes, and is not registered again. -/
theorem Invariant.change (h : s.Invariant) (hx : s.entries e = some x) (hzone : y.zone = x.zone)
    (hentries : s'.entries = Function.update s.entries e (some y)) (hnext : s'.next = s.next)
    (hregistry : ∀ e' ≠ e, e' ∈ s'.registry ↔ e' ∈ s.registry)
    (hkept : e ∈ s'.registry → e ∈ s.registry)
    (hthreads : ∀ e' ≠ e, ∀ t stage,
      s'.threads t = some (stage, e') ↔ s.threads t = some (stage, e'))
    (hrefs : ∀ e' ≠ e, s'.refs e' = s.refs e')
    (hlive : ∀ ref ∈ s'.live, ref ∈ s.live ∨ ref.entry = some e ∧ ref.zone = x.zone)
    (hcount : y.count = s'.refs e)
    (hphase : ∃ owner, Phase (e ∈ s'.registry) y owner ∧ s'.Owns e owner) : s'.Invariant := by
  have hlt : e < s'.next := by
    by_contra hge
    rw [hnext, not_lt] at hge
    cases hx.symm.trans (h.allocated e hge)
  have hsame : ∀ x', s.entries e = some x' → y.zone = x'.zone := by
    intro x' hx'
    cases hx.symm.trans hx'
    exact hzone
  refine h.update hentries hsame hnext.ge hlt hregistry ?_ hthreads hrefs ?_ hcount hphase
  · intro hmem e' hmem' heq
    refine h.distinct e' hmem' e (hkept hmem) ?_
    rw [heq, hx, Option.map_some, hzone]
  · rw [hzone]
    exact hlive

/-- A thread that goes on leaves the owners of other entries. -/
theorem update_threads_iff {threads : ℕ → Option (DestroyStage × ℕ)} {t : ℕ}
    {next : Option (DestroyStage × ℕ)} (hbefore : ∀ stage, threads t ≠ some (stage, e))
    (hafter : ∀ stage, next ≠ some (stage, e)) (t' : ℕ) (stage : DestroyStage) :
    Function.update threads t next t' = some (stage, e) ↔ threads t' = some (stage, e) := by
  rcases eq_or_ne t' t with rfl | hother
  · rw [Function.update_self]
    exact iff_of_false (hafter stage) (hbefore stage)
  · rw [Function.update_of_ne hother]

/-- The entry of a thread that goes on has no other owner. -/
theorem Owns.update {owner : Option (ℕ × DestroyStage)} (howns : s.Owns e owner) {t : ℕ}
    (howner : ∀ t' stage, owner = some (t', stage) → t' = t) (next : Option DestroyStage)
    (t' : ℕ) (stage : DestroyStage) :
    Function.update s.threads t (next.map (·, e)) t' = some (stage, e) ↔
      next.map (t, ·) = some (t', stage) := by
  rcases eq_or_ne t' t with rfl | hother
  · rw [Function.update_self]
    simp
  · rw [Function.update_of_ne hother]
    refine iff_of_false ?_ ?_
    · intro hthread
      exact hother (howner t' stage ((howns t' stage).mp hthread))
    · intro hnext
      obtain ⟨_, -, heq⟩ := Option.map_eq_some_iff.mp hnext
      exact hother (Prod.mk.inj heq).1.symm

theorem invariant_start : start.Invariant where
  phase e x hx := by cases hx
  counted e x hx := by cases hx
  refers ref hmem := by cases hmem
  noZone ref hmem := by cases hmem
  allocated _ _ := rfl
  registered e hmem := by cases hmem
  destroyed t stage e hthread := by cases hthread
  distinct e hmem := by cases hmem

/-- Addresses without a zone come and go. -/
theorem Invariant.withLive (h : s.Invariant) {live : List ZoneRef}
    (hlive : ∀ ref ∈ live, ref ∈ s.live ∨ ref.entry = none ∧ ref.zone = "")
    (hrefs : ∀ e, refs { s with live := live } e = s.refs e) :
    Invariant { s with live := live } := by
  refine ⟨h.phase, ?_, ?_, ?_, h.allocated, h.registered, h.destroyed, h.distinct⟩
  · intro e x hx
    rw [hrefs]
    exact h.counted e x hx
  · intro ref hmem e href
    rcases hlive ref hmem with hold | ⟨hnone, -⟩
    · exact h.refers ref hold e href
    · cases hnone.symm.trans href
  · intro ref hmem hnone
    rcases hlive ref hmem with hold | ⟨-, hzone⟩
    · exact h.noZone ref hold hnone
    · exact hzone

theorem Invariant.consNoZone (h : s.Invariant) {zone : String} (hzone : zone = "") :
    Invariant { s with live := ⟨none, zone⟩ :: s.live } := by
  refine h.withLive ?_ ?_
  · intro ref hmem
    rcases List.mem_cons.mp hmem with rfl | hmem
    · exact Or.inr ⟨rfl, hzone⟩
    · exact Or.inl hmem
  · intro e
    rw [refs_cons, if_neg (Option.some_ne_none e).symm, Nat.add_zero]

/-- A reference is added to an entry that is not dying. -/
theorem Invariant.addRef (h : s.Invariant) (hx : s.entries e = some x) (hdead : x.dead = false) :
    Invariant { s.addRef e with live := ⟨some e, x.zone⟩ :: s.live } := by
  obtain ⟨owner, hphase, howns⟩ := h.phase e x hx
  have hcount := h.counted e x hx
  have hone : ∀ e', refs { s.addRef e with live := ⟨some e, x.zone⟩ :: s.live } e' =
      s.refs e' + if some e = some e' then 1 else 0 := refs_cons ⟨some e, x.zone⟩ s
  refine h.change hx rfl (y := { x with count := x.count + 1 }) ?_ rfl
    (fun _ _ => Iff.rfl) id (fun _ _ _ _ => Iff.rfl) ?_ ?_ ?_ ⟨owner, ?_, howns⟩
  · simp only [ZoneState.addRef, modify, hx, Option.map_some]
  · intro e' hne
    rw [hone, if_neg fun heq => hne (Option.some.inj heq).symm, Nat.add_zero]
  · intro ref hmem
    rcases List.mem_cons.mp hmem with rfl | hold
    · exact Or.inr ⟨rfl, rfl⟩
    · exact Or.inl hold
  · rw [hone, if_pos rfl, hcount]
  · cases hphase with
    | live _ hregistered => exact Phase.live (Nat.succ_pos _) hregistered
    | removing _ => cases hdead
    | freeing _ => cases hdead
    | gone _ => cases hdead

/-- A reference is released, the last one by the thread that then destroys the entry. -/
theorem Invariant.release (h : s.Invariant) {t : ℕ} (hidle : s.threads t = none) {ref : ZoneRef}
    (hmem : ref ∈ s.live) (href : ref.entry = some e) :
    Invariant (ZoneState.release { s with live := s.live.erase ref } t e) := by
  obtain ⟨x, hx, -⟩ := h.refers ref hmem e href
  obtain ⟨hphase, howns, hpos, hdead⟩ := h.live_of_ref hmem href hx
  have hcount := h.counted e x hx
  have hrefs := refs_erase hmem
  rw [hrefs, if_pos href] at hcount
  have hlive : ∀ ref' ∈ s.live.erase ref, ref' ∈ s.live ∨ ref'.entry = some e ∧ ref'.zone = x.zone :=
    fun ref' hmem' => Or.inl (List.mem_of_mem_erase hmem')
  have hsame : ∀ e' ≠ e, refs { s with live := s.live.erase ref } e' = s.refs e' := by
    intro e' hne
    rw [hrefs e', if_neg, Nat.add_zero]
    rintro heq
    exact hne (Option.some.inj (heq.symm.trans href))
  have hlast : (s.entries e).any (fun x => x.count == 1) = (x.count == 1) := by
    rw [hx, Option.any_some]
  rw [ZoneState.release]
  dsimp only
  rw [hlast]
  by_cases hone : x.count = 1
  · -- the count reaches zero
    rw [if_pos (by simpa using hone)]
    refine h.change hx (y := { x with count := 0, dead := true }) rfl ?_ rfl
      (fun _ _ => Iff.rfl) id ?_ hsame hlive ?_ ⟨some (t, .removing), ?_, ?_⟩
    · simp [modify, hx, hone]
    · intro e' hne
      exact update_threads_iff (by simp [modify, hidle]) (by simp [hne.symm])
    · exact (by omega : 0 = refs { s with live := s.live.erase ref } e)
    · cases hphase with
      | live _ hregistered => exact Phase.removing hregistered
      | gone _ => cases hdead
    · exact howns.update (by simp) (some .removing)
  · have hmore : (x.count == 1) = false := by simpa using hone
    rw [if_neg (by simpa using hone)]
    refine h.change hx (y := { x with count := x.count - 1 }) rfl ?_ rfl
      (fun _ _ => Iff.rfl) id (fun _ _ _ _ => Iff.rfl) hsame hlive ?_ ⟨none, ?_, howns⟩
    · simp [modify, hx, hmore]
    · exact (by omega : x.count - 1 = refs { s with live := s.live.erase ref } e)
    -- the entry stays alive for the other addresses
    · cases hphase with
      | live _ hregistered => exact Phase.live (by dsimp only at *; omega) hregistered
      | gone _ => cases hdead

/-- The entry is removed from the registry. -/
theorem Invariant.remove (h : s.Invariant) {t : ℕ} (hthread : s.threads t = some (.removing, e)) :
    Invariant { s.modify e fun x => { x with removals := x.removals + 1 } with
      registry := s.registry.filter (· ≠ e)
      threads := Function.update s.threads t (some (.freeing, e)) } := by
  obtain ⟨x, hx⟩ := Option.ne_none_iff_exists'.mp (h.destroyed t _ e hthread)
  obtain ⟨owner, hphase, howns⟩ := h.phase e x hx
  have howner := (howns t .removing).mp hthread
  subst howner
  refine h.change hx (y := { x with removals := x.removals + 1 }) rfl ?_ rfl ?_ ?_ ?_
    (fun _ _ => rfl) (fun _ => Or.inl) (h.counted e x hx) ⟨some (t, .freeing), ?_, ?_⟩
  · simp [modify, hx]
  · intro e' hne
    simp [hne]
  · intro hmem
    exact (List.mem_filter.mp hmem).1
  · intro e' hne
    exact update_threads_iff (by simp [hthread, hne.symm]) (by simp [hne.symm])
  · cases hphase with
    | removing _ => exact Phase.freeing (by simp)
  · exact howns.update (by simp [eq_comm]) (some .freeing)

/-- The entry is freed. -/
theorem Invariant.free (h : s.Invariant) {t : ℕ} (hthread : s.threads t = some (.freeing, e)) :
    Invariant { s.modify e fun x => { x with frees := x.frees + 1 } with
      threads := Function.update s.threads t none } := by
  obtain ⟨x, hx⟩ := Option.ne_none_iff_exists'.mp (h.destroyed t _ e hthread)
  obtain ⟨owner, hphase, howns⟩ := h.phase e x hx
  have howner := (howns t .freeing).mp hthread
  subst howner
  refine h.change hx (y := { x with frees := x.frees + 1 }) rfl ?_ rfl (fun _ _ => Iff.rfl) id ?_
    (fun _ _ => rfl) (fun _ => Or.inl) (h.counted e x hx) ⟨none, ?_, ?_⟩
  · simp [modify, hx]
  · intro e' hne
    exact update_threads_iff (by simp [hthread, hne.symm]) (by simp)
  · cases hphase with
    | freeing hgone => exact Phase.gone hgone
  · exact howns.update (by simp [eq_comm]) none

/-- An entry is made for a zone that the registry does not have. -/
theorem Invariant.makeEntry (h : s.Invariant) {zone : String} (hnone : s.lookup zone = none) :
    Invariant { s with
      entries := Function.update s.entries s.next (some ⟨zone, 1, false, 0, 0⟩)
      next := s.next + 1
      registry := s.registry ++ [s.next]
      live := ⟨some s.next, zone⟩ :: s.live } := by
  have hfresh : s.entries s.next = none := h.allocated s.next le_rfl
  have hrefs := refs_cons ⟨some s.next, zone⟩ s
  have hunused : s.refs s.next = 0 := by
    rw [refs, List.countP_eq_zero]
    intro ref hmem heq
    obtain ⟨x, hx, -⟩ := h.refers ref hmem s.next (eq_of_beq heq)
    cases hfresh.symm.trans hx
  -- no entry of the registry has the zone
  have hnew : ∀ e ∈ s.registry, (s.entries e).map ZoneEntry.zone ≠ some zone := by
    intro e hmem hsame
    obtain ⟨x, hx, rfl⟩ := Option.map_eq_some_iff.mp hsame
    have hmiss := List.find?_eq_none.mp hnone e hmem
    simp [hx] at hmiss
  refine h.update (e := s.next) rfl ?_ (Nat.le_succ s.next) (Nat.lt_succ_self s.next) ?_ ?_
    (fun _ _ _ _ => Iff.rfl) ?_ ?_ ?_ ⟨none, Phase.live Nat.one_pos (by simp), ?_⟩
  · intro x hx
    cases hfresh.symm.trans hx
  · intro e hne
    simp [hne]
  · intro _ e hmem hsame
    exact absurd hsame (hnew e hmem)
  · intro e hne
    have hcons := hrefs e
    rw [if_neg fun heq => hne (Option.some.inj heq).symm, Nat.add_zero] at hcons
    exact hcons
  · intro ref hmem
    rcases List.mem_cons.mp hmem with rfl | hmem
    · exact Or.inr ⟨rfl, rfl⟩
    · exact Or.inl hmem
  · have hcons := hrefs s.next
    rw [if_pos rfl, hunused] at hcons
    exact hcons.symm
  · intro t stage
    refine iff_of_false ?_ (Option.some_ne_none _).symm
    intro hthread
    exact h.destroyed t stage s.next hthread hfresh

/-- A step keeps the invariant unless `Make` hands out a dying entry. -/
theorem Invariant.step (h : s.Invariant) {event : ZoneEvent} (hlive : s.MakesLive event)
    (hstep : s.step event = some s') : s'.Invariant := by
  cases event with
  | make t zone =>
    rw [ZoneState.step] at hstep
    split_ifs at hstep with hbusy hzone
    · cases hstep
      exact h.consNoZone hzone
    · cases hstep
      rw [makeZone]
      cases hlookup : s.lookup zone with
      | none => exact h.makeEntry hlookup
      | some e =>
        have hsame := List.find?_some hlookup
        obtain ⟨x, hx, heq⟩ := (Option.any_eq_true ..).mp hsame
        have hdead := hlive t zone e x rfl hzone hlookup hx
        rw [← eq_of_beq heq]
        exact h.addRef hx hdead
  | copy t ref =>
    rw [ZoneState.step] at hstep
    split_ifs at hstep with hbusy
    have hmem : ref ∈ s.live := not_not.mp fun hnot => hbusy (Or.inr hnot)
    obtain ⟨entry, zone⟩ := ref
    cases entry with
    | none =>
      cases hstep
      exact h.consNoZone (h.noZone _ hmem rfl)
    | some e =>
      cases hstep
      obtain ⟨x, hx, rfl⟩ := h.refers _ hmem e rfl
      exact h.addRef hx (h.live_of_ref hmem rfl hx).2.2.2
  | destroy t ref =>
    rw [ZoneState.step] at hstep
    split_ifs at hstep with hbusy
    have hmem : ref ∈ s.live := not_not.mp fun hnot => hbusy (Or.inr hnot)
    have hidle : s.threads t = none := not_not.mp fun hnot => hbusy (Or.inl hnot)
    obtain ⟨entry, zone⟩ := ref
    cases entry with
    | none =>
      cases hstep
      refine h.withLive (fun ref hmem' => Or.inl (List.mem_of_mem_erase hmem')) ?_
      intro e
      have herase := refs_erase hmem e
      rw [if_neg (Option.some_ne_none e).symm, Nat.add_zero] at herase
      exact herase.symm
    | some e =>
      cases hstep
      exact h.release hidle hmem rfl
  | remove t =>
    rw [ZoneState.step] at hstep
    split at hstep
    · next e hthread =>
      cases hstep
      exact h.remove hthread
    · cases hstep
  | free t =>
    rw [ZoneState.step] at hstep
    split at hstep
    · next e hthread =>
      cases hstep
      exact h.free hthread
    · cases hstep

end ZoneState

/-! ### Runs -/

/-- In an interleaving, `Make` hands out no entry whose count has reached zero and all
states are sound exactly when no address with a zone is made while a thread is about to
remove an entry of that zone. -/
theorem registry_sound_iff (h : List ZoneEvent) :
    (Always ZoneState.start ZoneState.step (fun _ s event => s.MakesLive event) h ∧
      Throughout ZoneState.start ZoneState.step (fun _ s => s.Sound) h) ↔
      Always ZoneState.start ZoneState.step (fun _ s event => ¬ s.MakesInWindow event) h := by
  have hinvariant : Always ZoneState.start ZoneState.step (fun _ s event => s.MakesLive event) h →
      Throughout ZoneState.start ZoneState.step (fun _ s => s.Invariant) h := by
    intro hlive
    refine hlive.throughout ZoneState.invariant_start ?_
    intro past s event s' hrun hs hmakes hstep
    exact hs.step hmakes hstep
  constructor
  · rintro ⟨hlive, -⟩ past s event hrun hsuffix
    have hs := hinvariant hlive past s hrun (suffix_of_cons hsuffix)
    exact (ZoneState.makesLive_iff hs event).mp (hlive past s event hrun hsuffix)
  · intro hnever
    -- outside of the window the invariant is kept, and then no entry handed out is dying
    have hkept : Throughout ZoneState.start ZoneState.step (fun _ s => s.Invariant) h := by
      refine hnever.throughout ZoneState.invariant_start ?_
      intro past s event s' hrun hs hwindow hstep
      exact hs.step ((ZoneState.makesLive_iff hs event).mpr hwindow) hstep
    refine ⟨?_, fun past s hrun hsuffix => (hkept past s hrun hsuffix).sound⟩
    intro past s event hrun hsuffix
    have hs := hkept past s hrun (suffix_of_cons hsuffix)
    exact (ZoneState.makesLive_iff hs event).mpr (hnever past s event hrun hsuffix)

/-- One thread destroys the only address of a zone and another one makes a new one before
the entry is removed; the new address then refers to an entry that is freed. -/
theorem not_forall_registry_sound :
    ¬ ∀ h : List ZoneEvent,
      Always ZoneState.start ZoneState.step (fun _ s event => s.MakesLive event) h ∧
        Throughout ZoneState.start ZoneState.step (fun _ s => s.Sound) h := by
  intro hclaim
  let h : List ZoneEvent := [.free 0, .remove 0, .make 1 "eth0", .destroy 0 ⟨some 0, "eth0"⟩,
    .make 0 "eth0"]
  cases hreplay : replay ZoneState.start ZoneState.step h with
  | none => exact absurd (congrArg Option.isSome hreplay) (by decide)
  | some s =>
    have hsound := (hclaim h).2 h s (run_of_replay hreplay) List.suffix_rfl
    have hlive : (replay ZoneState.start ZoneState.step h).map ZoneState.live
        = some [⟨some 0, "eth0"⟩] := by decide
    have hfreed : (replay ZoneState.start ZoneState.step h).bind
        (fun s => (s.entries 0).map ZoneEntry.frees) = some 1 := by decide
    rw [hreplay] at hlive hfreed
    have hmem : (⟨some 0, "eth0"⟩ : ZoneRef) ∈ s.live := by
      rw [Option.some.inj hlive]
      exact List.mem_singleton.mpr rfl
    obtain ⟨x, hx, hzero, -⟩ := hsound.refers _ hmem 0 rfl
    rw [Option.bind_some, hx, Option.map_some, hzero] at hfreed
    cases hfreed

end Scion
