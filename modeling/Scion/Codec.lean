/-
Reasoning rules for stateful readers and writers of byte strings.

A reader or writer is an `EStateM` program over some cursor state; `view pre
post` is the state standing between the bytes `pre` already passed and the
bytes `post` still ahead.

* `Reads r bs a` — `r` consumes exactly `bs`, whatever follows, and yields `a`;
* `Starves r n` — `r` fails when fewer than `n` bytes are ahead;
* `Refuses r bs` — `r` fails on every input that begins with `bs`;
* `Takes r P` — the bytes that `r` consumed without failing and its value are
  related by `P`;
* `Writes w bs` — `w` overwrites the next bytes by `bs` when they fit and
  fails when they do not;
* `WritesAt p w bs a` — the same for a writer that looks at its position `p`
  and returns `a`.

Each of them composes along `>>=` and along lists of records (`readN`,
`writeAll`), so a codec written as a sequence of field operations is understood
field by field and never executed.
-/
import Scion.Records

namespace Codec

variable {ε σ α β : Type}

/-! ### Running a bind -/

theorem bind_ok {x : EStateM ε σ α} {f : α → EStateM ε σ β} {s s' : σ} {a : α}
    (h : x s = .ok a s') : (x >>= f) s = f a s' := by
  show EStateM.bind x f s = _
  rw [EStateM.bind, h]

theorem bind_error {x : EStateM ε σ α} {f : α → EStateM ε σ β} {s s' : σ} {e : ε}
    (h : x s = .error e s') : (x >>= f) s = .error e s' := by
  show EStateM.bind x f s = _
  rw [EStateM.bind, h]

/-- A bind that succeeds went through a successful first half. -/
theorem bind_eq_ok {x : EStateM ε σ α} {f : α → EStateM ε σ β} {s t : σ} {b : β} :
    (x >>= f) s = .ok b t ↔ ∃ a s', x s = .ok a s' ∧ f a s' = .ok b t := by
  rcases h : x s with ⟨a, s'⟩ | ⟨e, s'⟩
  · rw [bind_ok h]
    constructor
    · exact fun hf => ⟨a, s', rfl, hf⟩
    · rintro ⟨a', s'', heq, hf⟩
      cases heq
      exact hf
  · rw [bind_error h]
    constructor
    · exact fun hc => by cases hc
    · rintro ⟨a', s'', heq, _⟩
      cases heq

/-- Stop with the message `e` unless the check holds. -/
def ensure (check : Bool) (e : ε) : EStateM ε σ Unit :=
  if check then pure () else throw e

/-- `r` run for `n` records. -/
def readN (r : EStateM ε σ α) : ℕ → EStateM ε σ (List α)
  | 0 => pure []
  | n + 1 => do
    let a ← r
    let as ← readN r n
    pure (a :: as)

/-- `w` run for every record of a list. -/
def writeAll (w : α → EStateM ε σ Unit) : List α → EStateM ε σ Unit
  | [] => pure ()
  | a :: as => do
    w a
    writeAll w as

@[simp] theorem ensure_true (e : ε) (s : σ) : (ensure true e : EStateM ε σ Unit) s = .ok () s :=
  rfl

@[simp] theorem ensure_false (e : ε) (s : σ) :
    (ensure false e : EStateM ε σ Unit) s = .error e s := rfl

theorem ensure_eq_ok {check : Bool} {e : ε} {s s' : σ} :
    (ensure check e : EStateM ε σ Unit) s = .ok () s' ↔ check = true ∧ s' = s := by
  cases check
  · simp
  · constructor
    · intro h
      cases h
      exact ⟨rfl, rfl⟩
    · rintro ⟨_, rfl⟩
      rfl

/-- A check in front of a program that succeeds has passed. -/
theorem ensure_bind_eq_ok {check : Bool} {e : ε} {f : Unit → EStateM ε σ β} {s t : σ} {b : β} :
    (ensure check e >>= f) s = .ok b t ↔ check = true ∧ f () s = .ok b t := by
  rw [bind_eq_ok]
  constructor
  · rintro ⟨_, s', hcheck, hf⟩
    obtain ⟨hc, rfl⟩ := ensure_eq_ok.mp hcheck
    exact ⟨hc, hf⟩
  · rintro ⟨hc, hf⟩
    exact ⟨(), s, ensure_eq_ok.mpr ⟨hc, rfl⟩, hf⟩

section Rules

variable (view : List UInt8 → List UInt8 → σ)

/-! ### Readers -/

/-- `r` consumes exactly the bytes `bs` and returns `a`. -/
def Reads (r : EStateM ε σ α) (bs : List UInt8) (a : α) : Prop :=
  ∀ pre post, r (view pre (bs ++ post)) = .ok a (view (pre ++ bs) post)

/-- `r` fails when fewer than `n` bytes are left. -/
def Starves (r : EStateM ε σ α) (n : ℕ) : Prop :=
  ∀ pre post, post.length < n → ∃ e s, r (view pre post) = .error e s

variable {view}

theorem Reads.pure (a : α) : Reads view (Pure.pure a : EStateM ε σ α) [] a := by
  intro pre post
  rw [List.nil_append, List.append_nil]
  rfl

theorem Reads.bind {x : EStateM ε σ α} {f : α → EStateM ε σ β} {xs ys : List UInt8} {a : α}
    {b : β} (hx : Reads view x xs a) (hf : Reads view (f a) ys b) :
    Reads view (x >>= f) (xs ++ ys) b := by
  intro pre post
  rw [List.append_assoc, bind_ok (hx pre (ys ++ post)), hf, List.append_assoc]

/-- A second half that consumes nothing. -/
theorem Reads.bind_nil {x : EStateM ε σ α} {f : α → EStateM ε σ β} {xs : List UInt8} {a : α}
    {b : β} (hx : Reads view x xs a) (hf : Reads view (f a) [] b) : Reads view (x >>= f) xs b := by
  have h := hx.bind hf
  rwa [List.append_nil] at h

/-- A first half that consumes nothing. -/
theorem Reads.nil_bind {x : EStateM ε σ α} {f : α → EStateM ε σ β} {ys : List UInt8} {a : α}
    {b : β} (hx : Reads view x [] a) (hf : Reads view (f a) ys b) : Reads view (x >>= f) ys b :=
  hx.bind hf

/-- The bytes of a sequence, cut where the first half ends. -/
theorem Reads.bind_take {x : EStateM ε σ α} {f : α → EStateM ε σ β} {bs : List UInt8} {a : α}
    {b : β} (n : ℕ) (hx : Reads view x (bs.take n) a) (hf : Reads view (f a) (bs.drop n) b) :
    Reads view (x >>= f) bs b := by
  have h := hx.bind hf
  rwa [List.take_append_drop] at h

/-- A check that holds costs no bytes. -/
theorem Reads.ensure {c : Bool} {e : ε} {f : Unit → EStateM ε σ β} {ys : List UInt8} {b : β}
    (hc : c = true) (hf : Reads view (f ()) ys b) :
    Reads view (Codec.ensure c e >>= f) ys b := by
  intro pre post
  subst hc
  rw [bind_ok (ensure_true e _), hf]

/-- The last step of a reader returns what was read. -/
theorem Reads.bind_pure {x : EStateM ε σ α} {g : α → β} {xs : List UInt8} {a : α}
    (hx : Reads view x xs a) : Reads view (x >>= fun a => Pure.pure (g a)) xs (g a) :=
  hx.bind_nil (Reads.pure (g a))

theorem Starves.bind {x : EStateM ε σ α} {f : α → EStateM ε σ β} {m n : ℕ}
    (hx : Starves view x m)
    (hread : ∀ xs, xs.length = m → ∃ a, Reads view x xs a ∧ Starves view (f a) n) :
    Starves view (x >>= f) (m + n) := by
  intro pre post hlen
  by_cases hm : post.length < m
  · obtain ⟨e, s, h⟩ := hx pre post hm
    exact ⟨e, s, bind_error h⟩
  · obtain ⟨a, hr, hs⟩ := hread (post.take m) (by rw [List.length_take]; omega)
    have hrun := hr pre (post.drop m)
    rw [List.take_append_drop] at hrun
    obtain ⟨e, s, h⟩ := hs (pre ++ post.take m) (post.drop m) (by rw [List.length_drop]; omega)
    exact ⟨e, s, by rw [bind_ok hrun, h]⟩

/-- Records read one after another. -/
theorem Reads.readN {r : EStateM ε σ α} {dec : List UInt8 → α} : ∀ cs : List (List UInt8),
    (∀ c ∈ cs, Reads view r c (dec c)) →
    Reads view (Codec.readN r cs.length) cs.flatten (cs.map dec) := by
  intro cs
  induction cs with
  | nil => exact fun _ => Reads.pure []
  | cons c cs ih =>
    intro h
    exact (h c (List.mem_cons_self ..)).bind
      (ih fun d hd => h d (List.mem_cons_of_mem _ hd)).bind_pure

theorem Starves.readN {r : EStateM ε σ α} {dec : List UInt8 → α} {n : ℕ}
    (hread : ∀ c, c.length = n → Reads view r c (dec c)) (hstarve : Starves view r n) (k : ℕ) :
    Starves view (Codec.readN r k) (k * n) := by
  induction k with
  | zero => exact fun pre post h => by omega
  | succ k ih =>
    have hrest : ∀ a, Starves view (Codec.readN r k >>= fun as => Pure.pure (a :: as)) (k * n) := by
      intro a pre post h
      obtain ⟨e, s, herr⟩ := ih pre post h
      exact ⟨e, s, bind_error herr⟩
    have h := hstarve.bind (f := fun a => Codec.readN r k >>= fun as => Pure.pure (a :: as))
      fun c hc => ⟨dec c, hread c hc, hrest (dec c)⟩
    rwa [show n + k * n = (k + 1) * n by ring] at h

/-- Records that were read were there. -/
theorem readN_eq_ok {r : EStateM ε σ α} {dec : List UInt8 → α} {n k : ℕ}
    (hread : ∀ c, c.length = n → Reads view r c (dec c)) (hstarve : Starves view r n)
    {pre post : List UInt8} {as : List α} {s : σ}
    (h : Codec.readN r k (view pre post) = .ok as s) :
    ∃ (cs : List (List UInt8)) (rest : List UInt8), post = cs.flatten ++ rest ∧ cs.length = k ∧
      (∀ c ∈ cs, c.length = n) ∧ as = cs.map dec ∧ s = view (pre ++ cs.flatten) rest := by
  by_cases hshort : post.length < k * n
  · obtain ⟨e, s', herr⟩ := hstarve.readN hread k pre post hshort
    rw [herr] at h
    cases h
  -- long enough: what the reader finds is cut into records and read by `Reads.readN`
  · obtain ⟨cs, hk, hcs, hflat⟩ := Records.exists_records (w := n) k (post.take (k * n))
      (by rw [List.length_take]; omega)
    have hrun := Reads.readN cs (fun c hc => hread c (hcs c hc)) pre (post.drop (k * n))
    rw [hflat, List.take_append_drop, hk, h] at hrun
    cases hrun
    exact ⟨cs, post.drop (k * n), by rw [hflat, List.take_append_drop], hk, hcs, rfl,
      by rw [hflat]⟩

/-! ### Readers that refuse their input -/

variable (view) in
/-- `r` fails on every input that begins with `bs`. -/
def Refuses (r : EStateM ε σ α) (bs : List UInt8) : Prop :=
  ∀ pre post, ∃ e s, r (view pre (bs ++ post)) = .error e s

theorem Refuses.append {r : EStateM ε σ α} {xs : List UInt8} (h : Refuses view r xs)
    (ys : List UInt8) : Refuses view r (xs ++ ys) := by
  intro pre post
  rw [List.append_assoc]
  exact h pre (ys ++ post)

/-- The first half refuses. -/
theorem Refuses.bind {x : EStateM ε σ α} {bs : List UInt8} (h : Refuses view x bs)
    (f : α → EStateM ε σ β) : Refuses view (x >>= f) bs := by
  intro pre post
  obtain ⟨e, s, herr⟩ := h pre post
  exact ⟨e, s, bind_error herr⟩

/-- The second half refuses. -/
theorem Reads.bind_refuses {x : EStateM ε σ α} {f : α → EStateM ε σ β} {xs ys : List UInt8}
    {a : α} (hx : Reads view x xs a) (hf : Refuses view (f a) ys) :
    Refuses view (x >>= f) (xs ++ ys) := by
  intro pre post
  obtain ⟨e, s, herr⟩ := hf (pre ++ xs) post
  exact ⟨e, s, by rw [List.append_assoc, bind_ok (hx pre (ys ++ post)), herr]⟩

/-- A check that does not hold. -/
theorem Refuses.ensure {c : Bool} {e : ε} {f : Unit → EStateM ε σ β} (hc : c = false)
    (ys : List UInt8) : Refuses view (Codec.ensure c e >>= f) ys := by
  intro pre post
  subst hc
  exact ⟨e, view pre (ys ++ post), bind_error (ensure_false e _)⟩

/-! ### Readers that succeeded -/

variable (view) in
/-- What `r` consumed, whenever it did not fail, and its value stand in the relation
`P`. -/
def Takes (r : EStateM ε σ α) (P : List UInt8 → α → Prop) : Prop :=
  ∀ pre post a s, r (view pre post) = .ok a s →
    ∃ bs rest, post = bs ++ rest ∧ s = view (pre ++ bs) rest ∧ P bs a

theorem Takes.mono {r : EStateM ε σ α} {P Q : List UInt8 → α → Prop} (h : Takes view r P)
    (hPQ : ∀ bs a, P bs a → Q bs a) : Takes view r Q := by
  intro pre post a s hrun
  obtain ⟨bs, rest, hpost, hs, hP⟩ := h pre post a s hrun
  exact ⟨bs, rest, hpost, hs, hPQ bs a hP⟩

theorem Takes.pure (a : α) :
    Takes view (Pure.pure a : EStateM ε σ α) fun bs b => bs = [] ∧ b = a := by
  intro pre post b s h
  cases h
  exact ⟨[], post, rfl, by rw [List.append_nil], rfl, rfl⟩

theorem Takes.bind {x : EStateM ε σ α} {f : α → EStateM ε σ β} {P : List UInt8 → α → Prop}
    {Q : α → List UInt8 → β → Prop} (hx : Takes view x P) (hf : ∀ a, Takes view (f a) (Q a)) :
    Takes view (x >>= f) fun bs b => ∃ xs a ys, bs = xs ++ ys ∧ P xs a ∧ Q a ys b := by
  intro pre post b s h
  obtain ⟨a, s', hrun, hrest⟩ := bind_eq_ok.mp h
  obtain ⟨xs, post', rfl, rfl, hP⟩ := hx pre post a s' hrun
  obtain ⟨ys, rest, rfl, rfl, hQ⟩ := hf a (pre ++ xs) post' b s hrest
  exact ⟨xs ++ ys, rest, (List.append_assoc ..).symm, by rw [List.append_assoc], xs, a, ys, rfl,
    hP, hQ⟩

/-- The last step of a reader returns what was read. -/
theorem Takes.bind_pure {x : EStateM ε σ α} {g : α → β} {P : List UInt8 → α → Prop}
    (hx : Takes view x P) :
    Takes view (x >>= fun a => Pure.pure (g a)) fun bs b => ∃ a, P bs a ∧ b = g a := by
  refine (hx.bind fun a => Takes.pure (g a)).mono ?_
  rintro bs b ⟨xs, a, ys, rfl, hP, rfl, rfl⟩
  exact ⟨a, by rwa [List.append_nil], rfl⟩

/-- A check costs no bytes, and it held. -/
theorem Takes.ensure {c : Bool} {e : ε} {f : Unit → EStateM ε σ β} {Q : List UInt8 → β → Prop}
    (hf : Takes view (f ()) Q) :
    Takes view (Codec.ensure c e >>= f) fun bs b => c = true ∧ Q bs b := by
  intro pre post b s h
  obtain ⟨hc, hrun⟩ := ensure_bind_eq_ok.mp h
  obtain ⟨bs, rest, hpost, hs, hQ⟩ := hf pre post b s hrun
  exact ⟨bs, rest, hpost, hs, hc, hQ⟩

theorem Takes.throw (e : ε) (P : List UInt8 → α → Prop) :
    Takes view (MonadExcept.throw e : EStateM ε σ α) P :=
  fun _ _ _ _ h => by cases h

/-- A reader of `n` bytes that fails when there are fewer. -/
theorem Reads.takes {r : EStateM ε σ α} {n : ℕ} {dec : List UInt8 → α}
    (hread : ∀ bs, bs.length = n → Reads view r bs (dec bs)) (hstarve : Starves view r n) :
    Takes view r fun bs a => bs.length = n ∧ a = dec bs := by
  intro pre post a s h
  by_cases hshort : post.length < n
  · obtain ⟨e, s', herr⟩ := hstarve pre post hshort
    rw [herr] at h
    cases h
  · have hlen : (post.take n).length = n := by
      rw [List.length_take]
      omega
    have hrun := hread (post.take n) hlen pre (post.drop n)
    rw [List.take_append_drop, h] at hrun
    cases hrun
    exact ⟨post.take n, post.drop n, (List.take_append_drop ..).symm, rfl, hlen, rfl⟩

/-! ### Writers -/

variable (view) in
/-- `w` overwrites the next bytes by `bs`, or fails when there is no room. -/
def Writes (w : EStateM ε σ Unit) (bs : List UInt8) : Prop :=
  ∀ pre post,
    (bs.length ≤ post.length →
      w (view pre post) = .ok () (view (pre ++ bs) (post.drop bs.length))) ∧
    (post.length < bs.length → ∃ e s, w (view pre post) = .error e s)

theorem Writes.pure : Writes view (Pure.pure () : EStateM ε σ Unit) [] := by
  intro pre post
  refine ⟨fun _ => ?_, fun h => by simp at h⟩
  rw [List.append_nil, List.length_nil, List.drop_zero]
  rfl

theorem Writes.bind {v w : EStateM ε σ Unit} {xs ys : List UInt8}
    (hv : Writes view v xs) (hw : Writes view w ys) :
    Writes view (v >>= fun _ => w) (xs ++ ys) := by
  intro pre post
  rw [List.length_append]
  constructor
  · intro hroom
    rw [bind_ok ((hv pre post).1 (by omega)),
      (hw (pre ++ xs) (post.drop xs.length)).1 (by rw [List.length_drop]; omega),
      List.append_assoc, List.drop_drop]
  · intro hshort
    by_cases hx : post.length < xs.length
    · obtain ⟨e, s, h⟩ := (hv pre post).2 hx
      exact ⟨e, s, bind_error h⟩
    · obtain ⟨e, s, h⟩ := (hw (pre ++ xs) (post.drop xs.length)).2
        (by rw [List.length_drop]; omega)
      exact ⟨e, s, by rw [bind_ok ((hv pre post).1 (by omega)), h]⟩

/-- What is written first does not help a writer that fails everywhere. -/
theorem Writes.bind_refuses {v : EStateM ε σ Unit} {w : EStateM ε σ α} {xs : List UInt8}
    (hv : Writes view v xs) (hw : Refuses view w []) :
    Refuses view (v >>= fun _ => w) [] := by
  intro pre post
  by_cases hx : post.length < xs.length
  · obtain ⟨e, s, h⟩ := (hv pre post).2 hx
    exact ⟨e, s, bind_error h⟩
  · obtain ⟨e, s, h⟩ := hw (pre ++ xs) (post.drop xs.length)
    exact ⟨e, s, by rw [List.nil_append, bind_ok ((hv pre post).1 (by omega)), ← h]; rfl⟩

/-- Records written one after another. -/
theorem Writes.writeAll {w : α → EStateM ε σ Unit} {enc : α → List UInt8} : ∀ as : List α,
    (∀ a ∈ as, Writes view (w a) (enc a)) →
    Writes view (Codec.writeAll w as) (as.map enc).flatten := by
  intro as
  induction as with
  | nil => exact fun _ => Writes.pure
  | cons a as ih =>
    intro h
    exact (h a (List.mem_cons_self ..)).bind (ih fun b hb => h b (List.mem_cons_of_mem _ hb))

/-! ### Writers at a position

Some writers look at where they stand, and some return a value. -/

variable (view) in
/-- At position `p`, `w` overwrites the next bytes by `bs` and returns `a`, or
fails when there is no room. -/
def WritesAt (p : ℕ) (w : EStateM ε σ α) (bs : List UInt8) (a : α) : Prop :=
  ∀ pre post, pre.length = p →
    (bs.length ≤ post.length →
      w (view pre post) = .ok a (view (pre ++ bs) (post.drop bs.length))) ∧
    (post.length < bs.length → ∃ e s, w (view pre post) = .error e s)

theorem Writes.at {w : EStateM ε σ Unit} {bs : List UInt8} (hw : Writes view w bs) (p : ℕ) :
    WritesAt view p w bs () :=
  fun pre post _ => hw pre post

theorem WritesAt.pure (p : ℕ) (a : α) :
    WritesAt view p (Pure.pure a : EStateM ε σ α) [] a := by
  intro pre post _
  refine ⟨fun _ => ?_, fun h => by simp at h⟩
  rw [List.append_nil, List.length_nil, List.drop_zero]
  rfl

theorem WritesAt.bind {p : ℕ} {x : EStateM ε σ α} {f : α → EStateM ε σ β} {xs ys : List UInt8}
    {a : α} {b : β} (hx : WritesAt view p x xs a)
    (hf : WritesAt view (p + xs.length) (f a) ys b) :
    WritesAt view p (x >>= f) (xs ++ ys) b := by
  intro pre post hpre
  have hpre' : (pre ++ xs).length = p + xs.length := by rw [List.length_append, hpre]
  rw [List.length_append]
  constructor
  · intro hroom
    rw [bind_ok ((hx pre post hpre).1 (by omega)),
      (hf (pre ++ xs) (post.drop xs.length) hpre').1 (by rw [List.length_drop]; omega),
      List.append_assoc, List.drop_drop]
  · intro hshort
    by_cases hfit : post.length < xs.length
    · obtain ⟨e, s, h⟩ := (hx pre post hpre).2 hfit
      exact ⟨e, s, bind_error h⟩
    · obtain ⟨e, s, h⟩ := (hf (pre ++ xs) (post.drop xs.length) hpre').2
        (by rw [List.length_drop]; omega)
      exact ⟨e, s, by rw [bind_ok ((hx pre post hpre).1 (by omega)), h]⟩

/-- A writer that succeeded wrote its bytes, and they fitted. -/
theorem WritesAt.of_ok {p : ℕ} {w : EStateM ε σ α} {bs pre post : List UInt8} {a b : α} {s : σ}
    (hw : WritesAt view p w bs a) (hpre : pre.length = p) (h : w (view pre post) = .ok b s) :
    bs.length ≤ post.length ∧ b = a ∧ s = view (pre ++ bs) (post.drop bs.length) := by
  by_cases hroom : bs.length ≤ post.length
  · rw [(hw pre post hpre).1 hroom] at h
    cases h
    exact ⟨hroom, rfl, rfl⟩
  · obtain ⟨e, s', herr⟩ := (hw pre post hpre).2 (by omega)
    rw [herr] at h
    cases h

/-- How much a writer writes does not depend on the buffer. -/
theorem WritesAt.length_eq {p : ℕ} {w : EStateM ε σ α} {bs bs' : List UInt8} {a b : α}
    (h : WritesAt view p w bs a) (h' : WritesAt view p w bs' b) : bs.length = bs'.length := by
  have hle {xs ys : List UInt8} {u v : α} (hx : WritesAt view p w xs u)
      (hy : WritesAt view p w ys v) : ys.length ≤ xs.length :=
    (hy.of_ok (List.length_replicate (a := (0 : UInt8))) ((hx _ xs List.length_replicate).1 le_rfl)).1
  exact le_antisymm (hle h' h) (hle h h')

end Rules

end Codec
