/-
Reasoning rules for readers that fill an existing value.

What such a reader leaves alone keeps its old value, so that its result is a function of the
old one.

* `Decodes r P` — the bytes that `r` consumed give the same value wherever they stand, and
  `P` relates the two;
* `Fills r P` — the bytes that `r` consumed decide what becomes of any old value, and `P`
  relates them to that function;
* `ReadsInto r bs a f` — `r` consumes exactly `bs`, yields `a` and changes a record that stands
  beside the cursor by `f`.
-/
import Scion.Codec

namespace Codec

variable {ε σ ρ α β : Type}

section Rules

variable (view : List UInt8 → List UInt8 → σ)

/-- The bytes consumed by `r` give the same value wherever they stand. -/
def Decodes (r : EStateM ε σ α) (P : List UInt8 → α → Prop) : Prop :=
  Takes view r fun bs a => Reads view r bs a ∧ P bs a

/-- The bytes consumed by `r` decide what becomes of any old value. -/
def Fills (r : ρ → EStateM ε σ α) (P : List UInt8 → (ρ → α) → Prop) : Prop :=
  ∀ old, Takes view (r old) fun bs a =>
    ∃ f : ρ → α, a = f old ∧ (∀ x, Reads view (r x) bs (f x)) ∧ P bs f

/-- The bytes `bs` are consumed whatever stands around them and in the record. -/
def ReadsInto (r : EStateM ε (ρ × σ) α) (bs : List UInt8) (a : α) (f : ρ → ρ) : Prop :=
  ∀ x pre post, r (x, view pre (bs ++ post)) = .ok a (f x, view (pre ++ bs) post)

variable {view}

/-! ### Readers that start from nothing -/

theorem Takes.decodes {r : EStateM ε σ α} {P : List UInt8 → α → Prop} (h : Takes view r P)
    (hreads : ∀ bs a, P bs a → Reads view r bs a) : Decodes view r P :=
  h.mono fun bs a hP => ⟨hreads bs a hP, hP⟩

theorem Decodes.mono {r : EStateM ε σ α} {P Q : List UInt8 → α → Prop} (h : Decodes view r P)
    (hPQ : ∀ bs a, P bs a → Q bs a) : Decodes view r Q :=
  Takes.mono h fun bs a hP => ⟨hP.1, hPQ bs a hP.2⟩

theorem Decodes.pure (a : α) :
    Decodes view (Pure.pure a : EStateM ε σ α) fun bs b => bs = [] ∧ b = a := by
  refine (Takes.pure a).decodes ?_
  rintro _ _ ⟨rfl, rfl⟩
  exact Reads.pure _

theorem Decodes.bind {x : EStateM ε σ α} {f : α → EStateM ε σ β} {P : List UInt8 → α → Prop}
    {Q : α → List UInt8 → β → Prop} (hx : Decodes view x P) (hf : ∀ a, Decodes view (f a) (Q a)) :
    Decodes view (x >>= f) fun bs b => ∃ xs a ys, bs = xs ++ ys ∧ P xs a ∧ Q a ys b := by
  refine (Takes.bind hx hf).mono ?_
  rintro _ b ⟨xs, a, ys, rfl, ⟨hreads, hP⟩, hreads', hQ⟩
  exact ⟨hreads.bind hreads', xs, a, ys, rfl, hP, hQ⟩

theorem Decodes.bind_pure {x : EStateM ε σ α} {g : α → β} {P : List UInt8 → α → Prop}
    (hx : Decodes view x P) :
    Decodes view (x >>= fun a => Pure.pure (g a)) fun bs b => ∃ a, P bs a ∧ b = g a := by
  refine (Takes.bind_pure hx).mono ?_
  rintro bs b ⟨a, ⟨hreads, hP⟩, rfl⟩
  exact ⟨hreads.bind_pure, a, hP, rfl⟩

theorem Decodes.map {x : EStateM ε σ α} (g : α → β) {P : List UInt8 → α → Prop}
    (hx : Decodes view x P) : Decodes view (g <$> x) fun bs b => ∃ a, P bs a ∧ b = g a :=
  hx.bind_pure

theorem Decodes.ensure {c : Bool} {e : ε} {f : Unit → EStateM ε σ β} {Q : List UInt8 → β → Prop}
    (hf : Decodes view (f ()) Q) :
    Decodes view (Codec.ensure c e >>= f) fun bs b => c = true ∧ Q bs b := by
  refine (Takes.ensure hf).mono ?_
  rintro bs b ⟨hc, hreads, hQ⟩
  exact ⟨Reads.ensure hc hreads, hc, hQ⟩

/-- A check on its own. -/
theorem Decodes.check (c : Bool) (e : ε) :
    Decodes view (Codec.ensure c e) fun bs (_ : Unit) => c = true ∧ bs = [] := by
  cases c with
  | true => exact (Decodes.pure ()).mono fun _ _ h => ⟨rfl, h.1⟩
  | false => exact fun _ _ _ _ h => by cases h

theorem Decodes.throw (e : ε) (P : List UInt8 → α → Prop) :
    Decodes view (MonadExcept.throw e : EStateM ε σ α) P :=
  Takes.throw e _

/-! ### Readers with an old value -/

theorem Fills.mono {r : ρ → EStateM ε σ α} {P Q : List UInt8 → (ρ → α) → Prop}
    (h : Fills view r P) (hPQ : ∀ bs f, P bs f → Q bs f) : Fills view r Q := by
  intro old
  refine (h old).mono ?_
  rintro bs a ⟨f, rfl, hreads, hP⟩
  exact ⟨f, rfl, hreads, hPQ bs f hP⟩

/-- A reader that does not look at the old value. -/
theorem Decodes.fills {r : EStateM ε σ α} {P : List UInt8 → α → Prop} (h : Decodes view r P) :
    Fills view (fun _ : ρ => r) fun bs f => ∃ a, f = (fun _ => a) ∧ P bs a := by
  intro old
  refine Takes.mono h ?_
  rintro bs a ⟨hreads, hP⟩
  exact ⟨fun _ => a, rfl, fun _ => hreads, a, rfl, hP⟩

theorem Fills.pure (g : ρ → α) :
    Fills view (fun old => (Pure.pure (g old) : EStateM ε σ α)) fun bs f => bs = [] ∧ f = g := by
  intro old
  refine (Takes.pure (g old)).mono ?_
  rintro _ _ ⟨rfl, rfl⟩
  exact ⟨g, rfl, fun x => Reads.pure (g x), rfl, rfl⟩

/-- What follows may look at what was read, and goes on from there. -/
theorem Fills.bind {x : ρ → EStateM ε σ α} {y : ρ → α → EStateM ε σ β}
    {P : List UInt8 → (ρ → α) → Prop} {Q : (ρ → α) → List UInt8 → (ρ → β) → Prop}
    (hx : Fills view x P) (hy : ∀ f, Fills view (fun old => y old (f old)) (Q f)) :
    Fills view (fun old => x old >>= y old) fun bs g =>
      ∃ xs f ys, bs = xs ++ ys ∧ P xs f ∧ Q f ys g := by
  intro old pre post b s h
  obtain ⟨a, s', hrun, hrest⟩ := bind_eq_ok.mp h
  obtain ⟨xs, post', rfl, rfl, f, rfl, hreads, hP⟩ := hx old pre post a s' hrun
  obtain ⟨ys, rest, rfl, rfl, g, rfl, hreads', hQ⟩ := hy f old (pre ++ xs) post' b s hrest
  exact ⟨xs ++ ys, rest, (List.append_assoc ..).symm, by rw [List.append_assoc], g, rfl,
    fun x => (hreads x).bind (hreads' x), xs, f, ys, rfl, hP, hQ⟩

/-- After a reader that does not look at the old value. -/
theorem Decodes.bind_fills {x : EStateM ε σ α} {y : ρ → α → EStateM ε σ β}
    {P : List UInt8 → α → Prop} {Q : α → List UInt8 → (ρ → β) → Prop} (hx : Decodes view x P)
    (hy : ∀ a, Fills view (fun old => y old a) (Q a)) :
    Fills view (fun old => x >>= y old) fun bs g =>
      ∃ xs a ys, bs = xs ++ ys ∧ P xs a ∧ Q a ys g := by
  intro old pre post b s h
  obtain ⟨a, s', hrun, hrest⟩ := bind_eq_ok.mp h
  obtain ⟨xs, post', rfl, rfl, hreads, hP⟩ := hx pre post a s' hrun
  obtain ⟨ys, rest, rfl, rfl, g, rfl, hreads', hQ⟩ := hy a old (pre ++ xs) post' b s hrest
  exact ⟨xs ++ ys, rest, (List.append_assoc ..).symm, by rw [List.append_assoc], g, rfl,
    fun x => hreads.bind (hreads' x), xs, a, ys, rfl, hP, hQ⟩

/-- The last step stores what was read. -/
theorem Fills.bind_pure {x : ρ → EStateM ε σ α} {g : ρ → α → β}
    {P : List UInt8 → (ρ → α) → Prop} (hx : Fills view x P) :
    Fills view (fun old => x old >>= fun a => Pure.pure (g old a)) fun bs h =>
      ∃ f, P bs f ∧ h = fun old => g old (f old) := by
  refine (hx.bind fun f => Fills.pure fun old => g old (f old)).mono ?_
  rintro bs h ⟨xs, f, ys, rfl, hP, rfl, rfl⟩
  exact ⟨f, by rwa [List.append_nil], rfl⟩

theorem Fills.ensure {c : Bool} {e : ε} {y : ρ → Unit → EStateM ε σ β}
    {Q : List UInt8 → (ρ → β) → Prop} (hy : Fills view (fun old => y old ()) Q) :
    Fills view (fun old => Codec.ensure c e >>= y old) fun bs f => c = true ∧ Q bs f := by
  intro old
  refine (Takes.ensure (hy old)).mono ?_
  rintro bs a ⟨hc, f, rfl, hreads, hQ⟩
  exact ⟨f, rfl, fun x => Reads.ensure hc (hreads x), hc, hQ⟩

/-- With another old value around the one that is filled. -/
theorem Fills.comp {τ : Type} {r : ρ → EStateM ε σ α} {P : List UInt8 → (ρ → α) → Prop}
    (h : Fills view r P) (inner : τ → ρ) :
    Fills view (fun old => r (inner old)) fun bs g =>
      ∃ f, P bs f ∧ g = fun old => f (inner old) := by
  intro old
  refine (h (inner old)).mono ?_
  rintro bs a ⟨f, rfl, hreads, hP⟩
  exact ⟨fun x => f (inner x), rfl, fun x => hreads (inner x), f, hP, rfl⟩

/-! ### Readers beside a record -/

theorem ReadsInto.pure (a : α) :
    ReadsInto view (Pure.pure a : EStateM ε (ρ × σ) α) [] a id := by
  intro x pre post
  rw [List.append_nil]
  rfl

theorem ReadsInto.bind {r : EStateM ε (ρ × σ) α} {s : α → EStateM ε (ρ × σ) β}
    {xs ys : List UInt8} {a : α} {b : β} {f g : ρ → ρ} (hr : ReadsInto view r xs a f)
    (hs : ReadsInto view (s a) ys b g) :
    ReadsInto view (r >>= s) (xs ++ ys) b fun x => g (f x) := by
  intro x pre post
  rw [List.append_assoc, bind_ok (hr x pre (ys ++ post)), hs, List.append_assoc]

/-- What follows consumes nothing. -/
theorem ReadsInto.bind_nil {r : EStateM ε (ρ × σ) α} {s : α → EStateM ε (ρ × σ) β}
    {xs : List UInt8} {a : α} {b : β} {f g : ρ → ρ} (hr : ReadsInto view r xs a f)
    (hs : ReadsInto view (s a) [] b g) : ReadsInto view (r >>= s) xs b fun x => g (f x) := by
  have h := hr.bind hs
  rwa [List.append_nil] at h

/-- What goes first consumes nothing. -/
theorem ReadsInto.nil_bind {r : EStateM ε (ρ × σ) α} {s : α → EStateM ε (ρ × σ) β}
    {ys : List UInt8} {a : α} {b : β} {f g : ρ → ρ} (hr : ReadsInto view r [] a f)
    (hs : ReadsInto view (s a) ys b g) : ReadsInto view (r >>= s) ys b fun x => g (f x) :=
  hr.bind hs

end Rules

end Codec
