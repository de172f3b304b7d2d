/-
Asynchronous operations and loops that do the same.

An operation starts underlying operations and is handed the outcome of each by
its intermediate handler, which starts another one or invokes the completion
handler. A blocking function does the same in a loop.

* `Operation`, `drive` — an operation, and what it does with a list of outcomes;
* `Completes` — the completion handler is invoked last and once, and with the
  failure of an underlying operation if there is one;
* `completes_of_stepwise` — it is enough that every call of the intermediate
  handler does one thing;
* `loop`, `Reaches` — a blocking loop, and the inputs it gets to;
* `agrees_iff_not_reaches` — a loop and an operation do the same exactly if the loop never
  gets to an input that the two treat differently.
-/
import Mathlib.Data.List.Infix

namespace Completion

/-- What an operation does to the outside. -/
inductive Effect (ρ : Type)
  | start
  | complete (r : ρ)
  deriving DecidableEq, Repr

/-- What initiating does, and what the intermediate handler does with an
outcome. -/
structure Operation (σ ι ρ : Type) where
  initial : σ
  initiate : List (Effect ρ)
  handle : σ → ι → List (Effect ρ) × σ

/-- An operation under way, with the number of underlying operations whose
outcome is not yet known. -/
structure Progress (σ ρ : Type) where
  state : σ
  pending : ℕ
  effects : List (Effect ρ)
  deriving DecidableEq, Repr

section Model

variable {σ ι ρ : Type}

def Effect.isStart : Effect ρ → Bool
  | .start => true
  | .complete _ => false

/-- What the completion handler was invoked with. -/
def results (effects : List (Effect ρ)) : List ρ :=
  effects.filterMap fun
    | .start => none
    | .complete r => some r

namespace Operation

def begin (op : Operation σ ι ρ) : Progress σ ρ :=
  ⟨op.initial, op.initiate.countP Effect.isStart, op.initiate⟩

/-- The outcome `x` of an underlying operation. -/
def deliver (op : Operation σ ι ρ) (p : Progress σ ρ) (x : ι) : Progress σ ρ :=
  let (effects, state) := op.handle p.state x
  ⟨state, p.pending - 1 + effects.countP Effect.isStart, p.effects ++ effects⟩

/-- Deliver outcomes while there are underlying operations; the rest of them is
not consumed. -/
def drive (op : Operation σ ι ρ) : Progress σ ρ → List ι → Progress σ ρ × List ι
  | p, [] => (p, [])
  | p, x :: xs => if p.pending = 0 then (p, x :: xs) else drive op (op.deliver p x) xs

def run (op : Operation σ ι ρ) (xs : List ι) : Progress σ ρ × List ι := op.drive op.begin xs

end Operation

/-- Nothing follows an invocation of the completion handler: no second one, and
no underlying operation. -/
def Final (effects : List (Effect ρ)) : Prop :=
  ∀ before r after, effects = before ++ .complete r :: after → after = []

/-- The completion handler is invoked once at most and nothing is started
afterwards; if an outcome is a failure, the handler was invoked with it. -/
structure Completes (op : Operation σ ι ρ) (failure : ι → Option ρ) (xs : List ι) : Prop where
  final : Final (op.run xs).1.effects
  failed : ∀ past x rest r, xs = past ++ x :: rest → (op.run past).1.pending ≠ 0 →
    failure x = some r → .complete r ∈ (op.run xs).1.effects

/-- Every call does one thing: it starts an underlying operation or invokes the
completion handler, the latter with the failure if there is one. -/
structure Stepwise (op : Operation σ ι ρ) (failure : ι → Option ρ) : Prop where
  initiate : op.initiate = [.start] ∨ ∃ r, op.initiate = [.complete r]
  handle : ∀ s x, (op.handle s x).1 = [.start] ∨ ∃ r, (op.handle s x).1 = [.complete r]
  failed : ∀ s x r, failure x = some r → (op.handle s x).1 = [.complete r]

end Model

/-! ### Operations that complete -/

section Once

variable {σ ι ρ : Type} {op : Operation σ ι ρ} {failure : ι → Option ρ}

theorem Operation.drive_append (op : Operation σ ι ρ) (p : Progress σ ρ) (xs ys : List ι)
    (h : (op.drive p xs).1.pending ≠ 0) :
    op.drive p (xs ++ ys) = op.drive (op.drive p xs).1 ys := by
  induction xs generalizing p with
  | nil => rfl
  | cons x xs ih =>
    by_cases hp : p.pending = 0
    · rw [Operation.drive, if_pos hp] at h
      exact absurd hp h
    · rw [Operation.drive, if_neg hp] at h
      rw [List.cons_append, Operation.drive, if_neg hp, Operation.drive, if_neg hp, ih _ h]

/-- Nothing more happens without underlying operations. -/
theorem Operation.drive_of_pending_zero (op : Operation σ ι ρ) {p : Progress σ ρ}
    (h : p.pending = 0) (xs : List ι) : op.drive p xs = (p, xs) := by
  cases xs with
  | nil => rfl
  | cons x xs => rw [Operation.drive, if_pos h]

/-- The operation is over after the first outcome. -/
theorem Operation.run_cons_of_over {op : Operation σ ι ρ} (hstart : op.initiate = [.start]) {x : ι}
    (hover : (op.handle op.initial x).1.countP Effect.isStart = 0) (xs : List ι) :
    op.run (x :: xs)
      = (⟨(op.handle op.initial x).2, 0, .start :: (op.handle op.initial x).1⟩, xs) := by
  rw [Operation.run, Operation.begin, hstart]
  have hdeliver : op.deliver ⟨op.initial, 1, [.start]⟩ x
      = ⟨(op.handle op.initial x).2, 0, .start :: (op.handle op.initial x).1⟩ := by
    rw [Operation.deliver]
    simp [hover]
  exact (congrArg (fun p => op.drive p xs) hdeliver).trans (op.drive_of_pending_zero rfl xs)

/-- The operation waits for one underlying operation, or the last thing it did was
to invoke the completion handler. -/
inductive Orderly : Progress σ ρ → Prop
  | waiting (s : σ) (n : ℕ) : Orderly ⟨s, 1, List.replicate n .start⟩
  | finished (s : σ) (n : ℕ) (r : ρ) : Orderly ⟨s, 0, List.replicate n .start ++ [.complete r]⟩

theorem complete_not_mem_starts (n : ℕ) (r : ρ) :
    Effect.complete r ∉ List.replicate n (Effect.start : Effect ρ) := by
  intro hmem
  cases (List.mem_replicate.mp hmem).2

theorem Orderly.final {p : Progress σ ρ} (h : Orderly p) : Final p.effects := by
  intro before r after heq
  cases h with
  | waiting s n =>
    refine absurd ?_ (complete_not_mem_starts n r)
    rw [show List.replicate n Effect.start = _ from heq]
    exact List.mem_append_right _ (List.mem_cons_self ..)
  | finished s n r' =>
    rcases List.eq_nil_or_concat after with hnil | ⟨init, last, hlast⟩
    · exact hnil
    · -- what stands before the last effect are starts
      have hsplit : List.replicate n Effect.start ++ [Effect.complete r']
          = (before ++ Effect.complete r :: init) ++ [last] := by
        rw [show List.replicate n Effect.start ++ [Effect.complete r'] = _ from heq, hlast,
          List.concat_eq_append, List.append_assoc, List.cons_append]
      refine absurd ?_ (complete_not_mem_starts n r)
      rw [(List.append_inj' hsplit rfl).1]
      exact List.mem_append_right _ (List.mem_cons_self ..)

theorem Stepwise.orderly_begin (h : Stepwise op failure) : Orderly op.begin := by
  rcases h.initiate with hstart | ⟨r, hcomplete⟩
  · rw [Operation.begin, hstart]
    exact Orderly.waiting _ 1
  · rw [Operation.begin, hcomplete]
    exact Orderly.finished _ 0 r

theorem Stepwise.orderly_deliver (h : Stepwise op failure) {p : Progress σ ρ} (hp : Orderly p)
    (hpending : p.pending ≠ 0) (x : ι) : Orderly (op.deliver p x) := by
  cases hp with
  | finished s n r => exact absurd rfl hpending
  | waiting s n =>
    rcases hhandle : op.handle s x with ⟨effects, state⟩
    have hone := h.handle s x
    rw [hhandle] at hone
    rcases hone with rfl | ⟨r, rfl⟩
    · rw [Operation.deliver, hhandle]
      simp only [← List.replicate_succ']
      exact Orderly.waiting state (n + 1)
    · rw [Operation.deliver, hhandle]
      exact Orderly.finished state n r

theorem Stepwise.orderly_drive (h : Stepwise op failure) {p : Progress σ ρ} (hp : Orderly p)
    (xs : List ι) : Orderly (op.drive p xs).1 := by
  induction xs generalizing p with
  | nil => exact hp
  | cons x xs ih =>
    by_cases hpending : p.pending = 0
    · rw [op.drive_of_pending_zero hpending]
      exact hp
    · rw [Operation.drive, if_neg hpending]
      exact ih (h.orderly_deliver hp hpending x)

/-- Calls that do one thing each make an operation that completes properly. -/
theorem completes_of_stepwise (h : Stepwise op failure) (xs : List ι) :
    Completes op failure xs where
  final := (h.orderly_drive h.orderly_begin xs).final
  failed := by
    rintro past x rest r rfl hpending hfailure
    rw [Operation.run, op.drive_append _ _ _ hpending]
    rw [Operation.run] at hpending
    have hp : Orderly (op.drive op.begin past).1 := h.orderly_drive h.orderly_begin past
    generalize (op.drive op.begin past).1 = p at hp hpending
    rw [Operation.drive, if_neg hpending]
    have hover : (op.deliver p x).pending = 0 ∧ .complete r ∈ (op.deliver p x).effects := by
      have hhandle := h.failed p.state x r hfailure
      cases hp with
      | finished s n r' => exact absurd rfl hpending
      | waiting s n =>
        rw [Operation.deliver]
        simp only [hhandle]
        exact ⟨rfl, List.mem_append_right _ (List.mem_singleton_self _)⟩
    rw [op.drive_of_pending_zero hover.1]
    exact hover.2

end Once

/-! ### Loops -/

section Loops

variable {σ ι ρ : Type}

/-- A loop that ends with a result of its body; an empty list blocks it. -/
def loop (body : σ → ι → Option ρ × σ) : σ → List ι → Option ρ × σ × List ι
  | s, [] => (none, s, [])
  | s, x :: xs =>
    match body s x with
    | (some r, s') => (some r, s', xs)
    | (none, s') => loop body s' xs

/-- The loop gets to an input with the property `bad`. -/
def Reaches (body : σ → ι → Option ρ × σ) (bad : σ → ι → Prop) : σ → List ι → Prop
  | _, [] => False
  | s, x :: xs => bad s x ∨ (body s x).1 = none ∧ Reaches body bad (body s x).2 xs

/-- The operation has the result, the state and the unconsumed inputs of the loop. -/
structure Agrees (sync : Option ρ × σ × List ι) (async : Progress σ ρ × List ι) : Prop where
  result : results async.1.effects = sync.1.toList
  state : async.1.state = sync.2.1
  rest : async.2 = sync.2.2

/-- A round of a loop starts over or completes. -/
def Effect.ofResult : Option ρ → Effect ρ
  | some r => .complete r
  | none => .start

/-- The operation whose intermediate handler is a body of a loop. -/
structure Restarts (op : Operation σ ι ρ) (body : σ → ι → Option ρ × σ) : Prop where
  initiate : op.initiate = [.start]
  handle : ∀ s x, op.handle s x = ([Effect.ofResult (body s x).1], (body s x).2)

theorem length_rest_le (body : σ → ι → Option ρ × σ) (s : σ) (xs : List ι) :
    (loop body s xs).2.2.length ≤ xs.length := by
  induction xs generalizing s with
  | nil => exact le_rfl
  | cons x xs ih =>
    rw [loop]
    rcases hbody : body s x with ⟨_ | r, s'⟩
    · exact (ih s').trans (Nat.le_succ _)
    · exact Nat.le_succ _

/-- A loop that consumes everything else has a result only if it consumes an input. -/
theorem result_none_or_consumes (body : σ → ι → Option ρ × σ) (s : σ) (xs : List ι) :
    (loop body s xs).1 = none ∨ (loop body s xs).2.2.length < xs.length := by
  induction xs generalizing s with
  | nil => exact .inl rfl
  | cons x xs ih =>
    rw [loop]
    rcases hbody : body s x with ⟨_ | r, s'⟩
    · rcases ih s' with h | h
      · exact .inl h
      · exact .inr (h.trans (Nat.lt_succ_self _))
    · exact .inr (Nat.lt_succ_self _)

/-- The loop that an operation amounts to. -/
theorem Restarts.agrees {op : Operation σ ι ρ} {body : σ → ι → Option ρ × σ}
    (h : Restarts op body) (xs : List ι) : Agrees (loop body op.initial xs) (op.run xs) := by
  have hdrive : ∀ s n, Agrees (loop body s xs) (op.drive ⟨s, 1, List.replicate n .start⟩ xs) := by
    induction xs with
    | nil =>
      intro s n
      exact ⟨by simp [results, loop, Operation.drive], rfl, rfl⟩
    | cons x xs ih =>
      intro s n
      rw [loop, Operation.drive, if_neg Nat.one_ne_zero, Operation.deliver, h.handle]
      rcases hbody : body s x with ⟨_ | r, s'⟩
      · have hnext := ih s' (n + 1)
        rw [List.replicate_succ'] at hnext
        exact hnext
      · rw [op.drive_of_pending_zero rfl]
        exact ⟨by simp [results, Effect.ofResult], rfl, rfl⟩
  have hrun := hdrive op.initial 1
  rw [Operation.run, Operation.begin, h.initiate]
  exact hrun

/-- Two loops whose bodies differ in the result where they differ at all do the same
exactly if the first one never gets to such an input. -/
theorem loop_eq_iff {body body' : σ → ι → Option ρ × σ}
    (hresult : ∀ s x, body s x ≠ body' s x → (body s x).1 ≠ (body' s x).1) (s : σ) (xs : List ι) :
    ((loop body s xs).1 = (loop body' s xs).1 ∧ (loop body s xs).2 = (loop body' s xs).2) ↔
      ¬ Reaches body (fun s x => body s x ≠ body' s x) s xs := by
  induction xs generalizing s with
  | nil => simp [loop, Reaches]
  | cons x xs ih =>
    rw [Reaches, not_or]
    by_cases hsame : body s x = body' s x
    · rw [loop, loop, ← hsame]
      rcases hbody : body s x with ⟨_ | r, s'⟩
      · simpa [hbody] using ih s'
      · simp
    · refine iff_of_false ?_ fun h => h.1 hsame
      rintro ⟨hres, hrest⟩
      refine hresult s x hsame ?_
      rw [loop, loop] at hres hrest
      -- one of them ends here and the other one does not, or both do
      rcases hbody : body s x with ⟨_ | r, s₁⟩ <;> rcases hbody' : body' s x with ⟨_ | r', s₂⟩
      · rfl
      · rw [hbody, hbody'] at hres hrest
        have hlen := congrArg (fun p => p.2.length) hrest
        rcases result_none_or_consumes body s₁ xs with h | h
        · exact absurd (h.symm.trans hres) (by simp)
        · exact absurd hlen h.ne
      · rw [hbody, hbody'] at hres hrest
        have hlen := congrArg (fun p => p.2.length) hrest
        rcases result_none_or_consumes body' s₂ xs with h | h
        · exact absurd (hres.trans h) (by simp)
        · exact absurd hlen h.ne'
      · rw [hbody, hbody'] at hres
        exact hres

theorem agrees_iff_not_reaches {op : Operation σ ι ρ} {body body' : σ → ι → Option ρ × σ}
    (h : Restarts op body')
    (hresult : ∀ s x, body s x ≠ body' s x → (body s x).1 ≠ (body' s x).1) (xs : List ι) :
    Agrees (loop body op.initial xs) (op.run xs) ↔
      ¬ Reaches body (fun s x => body s x ≠ body' s x) op.initial xs := by
  rw [← loop_eq_iff hresult]
  have hsame := h.agrees xs
  constructor
  · intro hagrees
    have hres := hagrees.result.symm.trans hsame.result
    refine ⟨?_, Prod.ext ?_ ?_⟩
    · rcases hl : (loop body op.initial xs).1 with _ | r <;>
        rcases hl' : (loop body' op.initial xs).1 with _ | r' <;> simp_all
    · exact hagrees.state.symm.trans hsame.state
    · exact hagrees.rest.symm.trans hsame.rest
  · rintro ⟨hres, hrest⟩
    rw [show loop body op.initial xs = loop body' op.initial xs from Prod.ext hres hrest]
    exact hsame

/-- What the loop gets to depends on the property at the inputs only. -/
theorem Reaches.congr {body : σ → ι → Option ρ × σ} {bad bad' : σ → ι → Prop}
    (h : ∀ s x, bad s x ↔ bad' s x) (s : σ) (xs : List ι) :
    Reaches body bad s xs ↔ Reaches body bad' s xs := by
  induction xs generalizing s with
  | nil => exact Iff.rfl
  | cons x xs ih => exact or_congr (h s x) (and_congr_right fun _ => ih _)

end Loops

end Completion
