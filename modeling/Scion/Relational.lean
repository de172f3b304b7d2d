/-
Two runs of programs with state and errors, side by side.

A relational triple says of two programs that whatever the first one does from one state, the
second one does from a related state, up to a relation of what they end with. It says nothing
where the first one fails, so that symmetric relations compare the two in either direction.

* `Follows S m m' Q` — from states related by `S`, every result of `m` is one of `m'`, related
  by `Q`;
* `Follows.bind`, `Follows.ite`, `Follows.mono` — its rules;
* `Beside R P` — pairs of a record and an input, with the records related by `R` and the same
  input, of which `P` holds.
-/
import Mathlib.Tactic.TypeStar

namespace Relational

variable {ε ε' σ τ ρ α β γ δ : Type}

/-- What the first program does from one state, the second one does from a related state. -/
def Follows (S : σ → τ → Prop) (m : EStateM ε σ α) (m' : EStateM ε' τ β)
    (Q : α → σ → β → τ → Prop) : Prop :=
  ∀ s t, S s t → ∀ a s', m s = .ok a s' → ∃ b t', m' t = .ok b t' ∧ Q a s' b t'

/-- Records beside the same input. -/
def Beside (R : ρ → ρ → Prop) (P : σ → Prop) (s t : ρ × σ) : Prop :=
  R s.1 t.1 ∧ t.2 = s.2 ∧ P s.2

/-- Two results that are errors related by `E` or values related by `A`. -/
inductive Both (E : ε → ε' → Prop) (A : α → β → Prop) : Except ε α → Except ε' β → Prop
  | error {e : ε} {e' : ε'} (h : E e e') : Both E A (.error e) (.error e')
  | ok {a : α} {b : β} (h : A a b) : Both E A (.ok a) (.ok b)

section Rules

variable {S : σ → τ → Prop} {m : EStateM ε σ α} {m' : EStateM ε' τ β} {Q : α → σ → β → τ → Prop}

theorem Follows.mono {S' : σ → τ → Prop} {Q' : α → σ → β → τ → Prop} (h : Follows S m m' Q)
    (hS : ∀ s t, S' s t → S s t) (hQ : ∀ a s b t, Q a s b t → Q' a s b t) :
    Follows S' m m' Q' := by
  intro s t hs a s' hm
  obtain ⟨b, t', hm', hq⟩ := h s t (hS s t hs) a s' hm
  exact ⟨b, t', hm', hQ a s' b t' hq⟩

theorem Follows.pure {a : α} {b : β} (h : ∀ s t, S s t → Q a s b t) :
    Follows S (Pure.pure a : EStateM ε σ α) (Pure.pure b : EStateM ε' τ β) Q := by
  intro s t hs a' s' hm
  cases hm
  exact ⟨b, t, rfl, h s t hs⟩

theorem Follows.throw (e : ε) : Follows S (MonadExcept.throw e : EStateM ε σ α) m' Q := by
  intro s t hs a s' hm
  cases hm

theorem Follows.bind {f : α → EStateM ε σ γ} {f' : β → EStateM ε' τ δ}
    {P : γ → σ → δ → τ → Prop} (hm : Follows S m m' Q)
    (hf : ∀ a b, Follows (fun s t => Q a s b t) (f a) (f' b) P) :
    Follows S (m >>= f) (m' >>= f') P := by
  intro s t hs c s'' hrun
  rcases hfirst : m s with ⟨a, s'⟩ | ⟨e, s'⟩
  · obtain ⟨b, t', hm', hq⟩ := hm s t hs a s' hfirst
    have hrest : f a s' = .ok c s'' := by
      have hbind : (m >>= f) s = f a s' := by
        show EStateM.bind m f s = _
        rw [EStateM.bind, hfirst]
      rw [← hbind, hrun]
    obtain ⟨d, t'', hf', hp⟩ := hf a b s' t' hq c s'' hrest
    refine ⟨d, t'', ?_, hp⟩
    show EStateM.bind m' f' t = _
    rw [EStateM.bind, hm']
    exact hf'
  · have hbind : (m >>= f) s = .error e s' := by
      show EStateM.bind m f s = _
      rw [EStateM.bind, hfirst]
    rw [hbind] at hrun
    cases hrun

/-- The results of the two programs are the same. -/
theorem Follows.bind_same {m' : EStateM ε' τ α} {f : α → EStateM ε σ γ}
    {f' : α → EStateM ε' τ δ} {T : α → σ → τ → Prop} {P : γ → σ → δ → τ → Prop}
    (hm : Follows S m m' fun a s b t => b = a ∧ T a s t)
    (hf : ∀ a, Follows (T a) (f a) (f' a) P) : Follows S (m >>= f) (m' >>= f') P := by
  refine hm.bind fun a b => ?_
  intro s t hs
  obtain ⟨rfl, ht⟩ := hs
  exact hf b s t ht

theorem Follows.ite {c : Prop} [Decidable c] {n : EStateM ε σ α} {n' : EStateM ε' τ β}
    (hm : c → Follows S m m' Q) (hn : ¬c → Follows S n n' Q) :
    Follows S (if c then m else n) (if c then m' else n') Q := by
  by_cases h : c
  · rw [if_pos h, if_pos h]
    exact hm h
  · rw [if_neg h, if_neg h]
    exact hn h

end Rules

end Relational
