/-
What programs with state and errors leave alone.

* `Leaves f m` — `f` of the state is the same after `m`, also when `m` fails;
* `Leaves.bind`, `Leaves.ite`, `Leaves.all` — its rules.
-/
import Scion.Codec

namespace Frames

variable {ε σ α β γ : Type} {f : σ → γ}

/-- The state behind a result. -/
def after : EStateM.Result ε σ α → σ
  | .ok _ s => s
  | .error _ s => s

/-- Whatever comes of the program, `f` of the state stays. -/
def Leaves (f : σ → γ) (m : EStateM ε σ α) : Prop := ∀ s, f (after (m s)) = f s

theorem Leaves.pure (a : α) : Leaves f (Pure.pure a : EStateM ε σ α) := fun _ => rfl

theorem Leaves.throw (e : ε) : Leaves f (MonadExcept.throw e : EStateM ε σ α) := fun _ => rfl

theorem Leaves.bind {m : EStateM ε σ α} {k : α → EStateM ε σ β} (hm : Leaves f m)
    (hk : ∀ a, Leaves f (k a)) : Leaves f (m >>= k) := by
  intro s
  have hfirst := hm s
  rcases hrun : m s with ⟨a, t⟩ | ⟨e, t⟩
  · have hbind : (m >>= k) s = k a t := by
      show EStateM.bind m k s = _
      rw [EStateM.bind, hrun]
    rw [hrun] at hfirst
    rw [hbind, hk a t]
    exact hfirst
  · have hbind : (m >>= k) s = .error e t := by
      show EStateM.bind m k s = _
      rw [EStateM.bind, hrun]
    rw [hrun] at hfirst
    rw [hbind]
    exact hfirst

theorem Leaves.ite {c : Prop} [Decidable c] {m n : EStateM ε σ α} (hm : c → Leaves f m)
    (hn : ¬c → Leaves f n) : Leaves f (if c then m else n) := by
  by_cases h : c
  · rw [if_pos h]
    exact hm h
  · rw [if_neg h]
    exact hn h

theorem Leaves.ensure (check : Bool) (e : ε) :
    Leaves f (Codec.ensure check e : EStateM ε σ Unit) :=
  .ite (fun _ => .pure ()) fun _ => .throw e

theorem Leaves.all {w : α → EStateM ε σ Unit} (hw : ∀ a, Leaves f (w a)) :
    ∀ as : List α, Leaves f (Codec.writeAll w as)
  | [] => .pure ()
  | a :: as => (hw a).bind fun _ => Leaves.all hw as

end Frames
