/-
Loops that peek at a queue.

A round looks at the head of the queue, and reports it, skips it or fails. Which elements it
removes is up to the round; it should be those that it skips.

* `run` — the rounds of a loop, with what it skips and what it reports;
* `Keeps` — a loop that ends and removes nothing but what it skips;
* `keeps_iff_of_ended`, `keeps_cons_iff` — one round of such a loop;
* `not_keeps_of_stuck`, `not_keeps_of_lost` — loops that never end, or remove more.
-/
import Mathlib.Data.List.Basic

namespace Peeking

inductive Outcome (ρ : Type)
  | failed (result : ρ)
  | reported (result : ρ)
  | skipped
  deriving DecidableEq, Repr

/-- What a round does: the state and the queue behind it. -/
structure Round (σ δ ρ : Type) where
  outcome : Outcome ρ
  state : σ
  queue : List δ
  deriving DecidableEq, Repr

structure Ended (σ δ ρ : Type) where
  result : ρ
  reported : Option δ
  skipped : List δ
  state : σ
  queue : List δ
  deriving DecidableEq, Repr

section Loops

variable {σ δ ρ : Type} {round : σ → List δ → Round σ δ ρ} {s : σ} {q : List δ}

/-- At most `fuel` rounds. -/
def run (round : σ → List δ → Round σ δ ρ) : ℕ → σ → List δ → Option (Ended σ δ ρ)
  | 0, _, _ => none
  | fuel + 1, s, q =>
    let r := round s q
    match r.outcome with
    | .failed result => some ⟨result, none, [], r.state, r.queue⟩
    | .reported result => some ⟨result, q.head?, [], r.state, r.queue⟩
    | .skipped => (run round fuel r.state r.queue).map fun e =>
      { e with skipped := q.head?.toList ++ e.skipped }

/-- The loop has removed what it skipped, and what it reports is still the head. -/
structure Ended.Keeps (e : Ended σ δ ρ) (q : List δ) : Prop where
  removed : e.skipped ++ e.queue = q
  head : ∀ d, e.reported = some d → e.queue.head? = some d

/-- The loop ends, and loses nothing. -/
def Keeps (round : σ → List δ → Round σ δ ρ) (s : σ) (q : List δ) : Prop :=
  ∃ fuel e, run round fuel s q = some e ∧ e.Keeps q

/-- The loop ends with this round. -/
theorem keeps_iff_of_ended (h : (round s q).outcome ≠ .skipped) :
    Keeps round s q ↔ (round s q).queue = q := by
  constructor
  · rintro ⟨fuel, e, hrun, hkeeps⟩
    cases fuel with
    | zero => cases hrun
    | succ fuel =>
      rw [run] at hrun
      split at hrun
      · obtain rfl := Option.some.inj hrun
        exact hkeeps.removed
      · obtain rfl := Option.some.inj hrun
        exact hkeeps.removed
      · next hskipped => exact absurd hskipped h
  · intro hqueue
    cases houtcome : (round s q).outcome with
    | failed result =>
      refine ⟨1, ⟨result, none, [], (round s q).state, (round s q).queue⟩, ?_, hqueue, ?_⟩
      · rw [run, houtcome]
      · exact fun d hd => by cases hd
    | reported result =>
      refine ⟨1, ⟨result, q.head?, [], (round s q).state, (round s q).queue⟩, ?_, hqueue, ?_⟩
      · rw [run, houtcome]
      · exact fun d hd => by rw [← hd, hqueue]
    | skipped => exact absurd houtcome h

theorem keeps_of_failed {result : ρ} {t : σ} (h : round s q = ⟨.failed result, t, q⟩) :
    Keeps round s q := by
  refine (keeps_iff_of_ended ?_).mpr ?_
  · rw [h]
    exact fun hskipped => by cases hskipped
  · rw [h]

/-- What is reported may not be removed. -/
theorem keeps_iff_of_reported {result : ρ} {t : σ} {q' : List δ}
    (h : round s q = ⟨.reported result, t, q'⟩) : Keeps round s q ↔ q' = q := by
  rw [keeps_iff_of_ended, h]
  rw [h]
  exact fun hskipped => by cases hskipped

/-- The loop goes on. -/
theorem run_succ_of_skipped (h : (round s q).outcome = .skipped) (fuel : ℕ) :
    run round (fuel + 1) s q = (run round fuel (round s q).state (round s q).queue).map fun e =>
      { e with skipped := q.head?.toList ++ e.skipped } := by
  rw [run, h]

/-- A head that is skipped is removed. -/
theorem keeps_cons_iff {d : δ} {t : σ} (hround : round s (d :: q) = ⟨.skipped, t, q⟩) :
    Keeps round s (d :: q) ↔ Keeps round t q := by
  have h : (round s (d :: q)).outcome = .skipped := by rw [hround]
  have hqueue : (round s (d :: q)).queue = q := by rw [hround]
  have hstate : (round s (d :: q)).state = t := by rw [hround]
  rw [← hstate]
  constructor
  · rintro ⟨fuel, e, hrun, hremoved, hhead⟩
    cases fuel with
    | zero => cases hrun
    | succ fuel =>
      rw [run_succ_of_skipped h, hqueue] at hrun
      obtain ⟨e, he, rfl⟩ := Option.map_eq_some_iff.mp hrun
      exact ⟨fuel, e, he, (List.cons.inj hremoved).2, hhead⟩
  · rintro ⟨fuel, e, hrun, hremoved, hhead⟩
    refine ⟨fuel + 1, { e with skipped := d :: e.skipped }, ?_, ?_, hhead⟩
    · rw [run_succ_of_skipped h, hqueue, hrun]
      rfl
    · exact congrArg (d :: ·) hremoved

/-- A loop that always comes back to where it skips does not end. -/
theorem not_keeps_of_stuck {stuck : σ → List δ → Prop} (h : stuck s q)
    (hstep : ∀ s q, stuck s q → (round s q).outcome = .skipped ∧
      stuck (round s q).state (round s q).queue) : ¬Keeps round s q := by
  rintro ⟨fuel, e, hrun, -⟩
  induction fuel generalizing s q e with
  | zero => cases hrun
  | succ fuel ih =>
    obtain ⟨hskipped, hstuck⟩ := hstep s q h
    rw [run_succ_of_skipped hskipped] at hrun
    obtain ⟨e', he', -⟩ := Option.map_eq_some_iff.mp hrun
    exact ih hstuck e' he'

/-- No more is skipped and left than there was. -/
theorem length_le_of_run (hle : ∀ s q, (round s q).queue.length ≤ q.length)
    (hlt : ∀ s q, (round s q).outcome = .skipped → (round s q).queue.length < q.length)
    {fuel : ℕ} {e : Ended σ δ ρ} (h : run round fuel s q = some e) :
    e.skipped.length + e.queue.length ≤ q.length := by
  induction fuel generalizing s q e with
  | zero => cases h
  | succ fuel ih =>
    have hqueue := hle s q
    cases houtcome : (round s q).outcome with
    | failed result =>
      rw [run, houtcome] at h
      obtain rfl := Option.some.inj h
      dsimp only
      rw [List.length_nil]
      omega
    | reported result =>
      rw [run, houtcome] at h
      obtain rfl := Option.some.inj h
      dsimp only
      rw [List.length_nil]
      omega
    | skipped =>
      rw [run_succ_of_skipped houtcome] at h
      obtain ⟨e, he, rfl⟩ := Option.map_eq_some_iff.mp h
      have hshort := hlt s q houtcome
      have hrest := ih he
      have hhead : q.head?.toList.length ≤ 1 := by cases q <;> simp
      rw [List.length_append]
      dsimp only
      omega

/-- A round that removes more than it skips. -/
theorem not_keeps_of_lost (hle : ∀ s q, (round s q).queue.length ≤ q.length)
    (hlt : ∀ s q, (round s q).outcome = .skipped → (round s q).queue.length < q.length)
    (h : (round s q).outcome = .skipped) (hlost : (round s q).queue.length + 1 < q.length) :
    ¬Keeps round s q := by
  rintro ⟨fuel, e, hrun, hkeeps⟩
  cases fuel with
  | zero => cases hrun
  | succ fuel =>
    rw [run_succ_of_skipped h] at hrun
    obtain ⟨e, he, rfl⟩ := Option.map_eq_some_iff.mp hrun
    have hrest := length_le_of_run hle hlt he
    have hremoved := congrArg List.length hkeeps.removed
    have hhead : q.head?.toList.length ≤ 1 := by cases q <;> simp
    rw [List.length_append, List.length_append] at hremoved
    dsimp only at hremoved
    omega

end Loops

end Peeking
