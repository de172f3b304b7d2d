/-
Runs of a labelled transition system and their histories.

A history lists the events of a run, latest first, so that a statement about
what happened before an event is a recursion on the rest of the list.

* `Run init step h s` — the events `h` lead from `init` to `s`;
* `Run.unique` — the history determines the state;
* `Run.invariant` — a relation between history and state that every event keeps;
* `Run.of_suffix` — every event of the history happened in a reachable state;
* `replay`, `check` — runs that are computed;
* `Always P h` — every event of `h` stands in the relation `P` to its past and
  to the state it found;
* `Throughout I h` — every state of the run `h` is in `I`;
* `mostRecent` — the latest event of a kind, and the events since;
* `Always.throughout`, `throughout_iff_always` — an invariant holds throughout a run exactly if each
  event keeps it where it is found.
-/
import Mathlib.Data.List.Infix

namespace Runs

variable {σ ε : Type} (init : σ) (step : σ → ε → Option σ)

/-- The events `h`, latest first, lead from `init` to a state. -/
inductive Run : List ε → σ → Prop
  | start : Run [] init
  | next {past : List ε} {s s' : σ} {e : ε} : Run past s → step s e = some s' → Run (e :: past) s'

/-- Every event of the history satisfies `P`. -/
def Always (P : List ε → σ → ε → Prop) (h : List ε) : Prop :=
  ∀ past s e, Run init step past s → e :: past <:+ h → P past s e

/-- Every state of the run, the first and the last one included, satisfies `I`. -/
def Throughout (I : List ε → σ → Prop) (h : List ε) : Prop :=
  ∀ past s, Run init step past s → past <:+ h → I past s

variable {init step}

theorem Run.unique {h : List ε} {s t : σ} (hs : Run init step h s) (ht : Run init step h t) :
    s = t := by
  induction hs generalizing t with
  | start =>
    cases ht
    rfl
  | next hpast hstep ih =>
    cases ht with
    | next hpast' hstep' =>
      rw [← ih hpast', hstep] at hstep'
      exact Option.some.inj hstep'

/-- A run goes on where another one has ended. -/
theorem Run.append {h past : List ε} {s t : σ} (hpast : Run init step past s)
    (hrun : Run s step h t) : Run init step (h ++ past) t := by
  induction hrun with
  | start => exact hpast
  | next _ hstep ih => exact ih.next hstep

/-- A relation of histories and states that holds at the start and is kept by
every event holds in every run. -/
theorem Run.invariant {I : List ε → σ → Prop} (hstart : I [] init)
    (hnext : ∀ past s e s', I past s → step s e = some s' → I (e :: past) s') {h : List ε} {s : σ}
    (hrun : Run init step h s) : I h s := by
  induction hrun with
  | start => exact hstart
  | next _ hstep ih => exact hnext _ _ _ _ ih hstep

theorem suffix_of_cons {h past : List ε} {e : ε} (hsuffix : e :: past <:+ h) : past <:+ h :=
  (List.suffix_cons e past).trans hsuffix

/-- Every earlier history is that of a run, to a state that admits the event
that came next. -/
theorem Run.of_suffix {h past : List ε} {s : σ} {e : ε} (hrun : Run init step h s)
    (hsuffix : e :: past <:+ h) : ∃ t t', Run init step past t ∧ step t e = some t' := by
  induction hrun with
  | start => exact absurd (List.suffix_nil.mp hsuffix) (List.cons_ne_nil e past)
  | next hpast hstep ih =>
    rcases List.suffix_cons_iff.mp hsuffix with heq | hsuffix
    · obtain ⟨rfl, rfl⟩ := List.cons.inj heq
      exact ⟨_, _, hpast, hstep⟩
    · exact ih hsuffix

variable (init step) in
/-- The state a history leads to, if it is that of a run. -/
def replay : List ε → Option σ
  | [] => some init
  | e :: past => (replay past).bind fun s => step s e

theorem run_of_replay {h : List ε} {s : σ} (hs : replay init step h = some s) :
    Run init step h s := by
  induction h generalizing s with
  | nil =>
    rw [← Option.some.inj hs]
    exact Run.start
  | cons e past ih =>
    obtain ⟨t, ht, hstep⟩ := Option.bind_eq_some_iff.mp hs
    exact (ih ht).next hstep

theorem Run.replay {h : List ε} {s : σ} (hrun : Run init step h s) :
    replay init step h = some s := by
  induction hrun with
  | start => rfl
  | next _ hstep ih => exact Option.bind_eq_some_iff.mpr ⟨_, ih, hstep⟩

variable (init step) in
/-- Whether every event of a history passes a test where it happens. -/
def check (test : σ → ε → Bool) : List ε → Bool
  | [] => true
  | e :: past => check test past && (replay init step past).all fun s => test s e

theorem always_of_check {test : σ → ε → Bool} {h : List ε}
    (hcheck : check init step test h = true) :
    Always init step (fun _ s e => test s e = true) h := by
  intro past s e hpast hsuffix
  induction h with
  | nil => exact absurd (List.suffix_nil.mp hsuffix) (List.cons_ne_nil e past)
  | cons e' past' ih =>
    obtain ⟨htail, hhead⟩ := (Bool.and_eq_true ..).mp hcheck
    rcases List.suffix_cons_iff.mp hsuffix with heq | hsuffix
    · obtain ⟨rfl, rfl⟩ := List.cons.inj heq
      rw [hpast.replay, Option.all_some] at hhead
      exact hhead
    · exact ih htail hsuffix

/-- An invariant that every event keeps which stands in the relation `P` to its
past and to the state it found. -/
theorem Always.throughout {I : List ε → σ → Prop} {P : List ε → σ → ε → Prop} {h : List ε}
    (hP : Always init step P h) (hstart : I [] init)
    (hnext : ∀ past s e s', Run init step past s → I past s → P past s e →
      step s e = some s' → I (e :: past) s') : Throughout init step I h := by
  intro past t ht
  induction ht with
  | start => exact fun _ => hstart
  | next hpast hstep ih =>
    intro hsuffix
    exact hnext _ _ _ _ hpast (ih (suffix_of_cons hsuffix)) (hP _ _ _ hpast hsuffix) hstep

/-- Where an event keeps `I` exactly if it stands in the relation `P`, a run is
in `I` throughout exactly if `P` holds of all of its events. -/
theorem throughout_iff_always {I : List ε → σ → Prop} {P : List ε → σ → ε → Prop}
    (hstart : I [] init)
    (hnext : ∀ past s e s', Run init step past s → I past s → step s e = some s' →
      (I (e :: past) s' ↔ P past s e)) {h : List ε} {s : σ} (hrun : Run init step h s) :
    Throughout init step I h ↔ Always init step P h := by
  constructor
  · intro hI past t e hpast hsuffix
    obtain ⟨u, u', hu, hstep⟩ := hrun.of_suffix hsuffix
    rw [hpast.unique hu]
    exact (hnext past u e u' hu (hI past u hu (suffix_of_cons hsuffix)) hstep).mp
      (hI _ u' (hu.next hstep) hsuffix)
  · intro hP
    refine hP.throughout hstart ?_
    intro past t e t' hpast hI hPe hstep
    exact (hnext past t e t' hpast hI hstep).mpr hPe

/-- What holds of all events of a history holds of those of an earlier one. -/
theorem Always.of_suffix {P : List ε → σ → ε → Prop} {h past : List ε} (hP : Always init step P h)
    (hsuffix : past <:+ h) : Always init step P past :=
  fun past' s e hrun hsuffix' => hP past' s e hrun (hsuffix'.trans hsuffix)

section MostRecent

variable {α : Type} {f : ε → Option α} {past : List ε} {e : ε}

variable (f) in
/-- What the latest event of those that make something has made, and the events since,
latest first. -/
def mostRecent : List ε → Option (α × List ε)
  | [] => none
  | e :: past =>
    match f e with
    | some a => some (a, [])
    | none => (mostRecent past).map fun found => (found.1, e :: found.2)

theorem mostRecent_cons_of_some {a : α} (h : f e = some a) :
    mostRecent f (e :: past) = some (a, []) := by
  rw [mostRecent, h]

theorem mostRecent_cons_of_none {a : α} {since : List ε} (h : f e = none) :
    mostRecent f (e :: past) = some (a, since) ↔
      ∃ since', since = e :: since' ∧ mostRecent f past = some (a, since') := by
  rw [mostRecent, h]
  simp only [Option.map_eq_some_iff, Prod.exists, Prod.mk.injEq]
  constructor
  · rintro ⟨a', since', hpast, rfl, rfl⟩
    exact ⟨since', rfl, hpast⟩
  · rintro ⟨since', rfl, hpast⟩
    exact ⟨a, since', hpast, rfl, rfl⟩

theorem mostRecent_cons_eq_none :
    mostRecent f (e :: past) = none ↔ f e = none ∧ mostRecent f past = none := by
  rw [mostRecent]
  cases f e with
  | some a => simp
  | none => simp

end MostRecent

end Runs
