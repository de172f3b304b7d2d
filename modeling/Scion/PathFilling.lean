/-
Reading into a decoded path (`path/decoded_scion.hpp`, `hdr/scion.hpp`).

`serialize` overwrites the path member by member and may stop at every one of
them. The meta header comes first, so after a failure it can announce fields the
vectors do not have; and `segment` ends behind the last hop field whenever the
next segment does not begin at 0.

* `Filler` — reading into an object, which keeps what was read before a failure;
* `DecodedScionPath.project_fill` — success and its result are those of `read`;
* `DecodedScionPath.WellFormed` — the fields the meta header announces are there;
* `DecodedScionPath.wellFormed_run_iff` — it stays well formed as long as no
  buffer announces a hop field.
-/
import Scion.PathExpiry
import Scion.StreamBits

namespace Scion

open BigEndian Codec

/-! ### Reading into an object -/

/-- Reading into an object: what was read before a failure stays there. -/
abbrev Filler (σ α : Type) := EStateM String (ReadStream × σ) α

namespace Filler

variable {σ τ α : Type}

/-- Read a value and store it; on a byte boundary nothing is stored on failure. -/
def store (r : Reader α) (set : α → σ → σ) : Filler σ Unit := fun s =>
  match r s.1 with
  | .ok a rs => .ok () (rs, set a s.2)
  | .error e rs => .error e (rs, s.2)

/-- Fail unless the object passes a check. -/
def check (c : σ → Bool) (e : String) : Filler σ Unit := fun s =>
  if c s.2 then .ok () s else .error e s

def update (f : σ → σ) : Filler σ Unit := fun s => .ok () (s.1, f s.2)

/-- Read into a member. -/
def member (get : σ → τ) (set : τ → σ → σ) (f : Filler τ Unit) : Filler σ Unit := fun s =>
  match f (s.1, get s.2) with
  | .ok _ t => .ok () (t.1, set t.2 s.2)
  | .error e t => .error e (t.1, set t.2 s.2)

/-- Read into the elements of a list, one after the other. -/
def eachOf (f : Filler τ Unit) :
    List τ → ReadStream → EStateM.Result String (ReadStream × List τ) Unit
  | [], rs => .ok () (rs, [])
  | x :: xs, rs =>
    match f (rs, x) with
    | .error e s => .error e (s.1, s.2 :: xs)
    | .ok _ s =>
      match eachOf f xs s.1 with
      | .ok _ t => .ok () (t.1, s.2 :: t.2)
      | .error e t => .error e (t.1, s.2 :: t.2)

/-- Read into the elements of a vector. -/
def each (f : Filler τ Unit) : Filler (List τ) Unit := fun s => eachOf f s.2 s.1

/-- The object is the result, if the reading succeeds. -/
def project (f : Filler σ Unit) (x : σ) : Reader σ := fun rs =>
  match f (rs, x) with
  | .ok _ s => .ok s.2 s.1
  | .error e s => .error e s.1

/-- The object that is left in either case. -/
def left (f : Filler σ Unit) (rs : ReadStream) (x : σ) : σ :=
  match f (rs, x) with
  | .ok _ s => s.2
  | .error _ s => s.2

/-- `resize` of a vector. -/
def resize (n : ℕ) (default : τ) (xs : List τ) : List τ :=
  xs.take n ++ List.replicate (n - xs.length) default

@[simp] theorem length_resize (n : ℕ) (default : τ) (xs : List τ) :
    (resize n default xs).length = n := by
  rw [resize, List.length_append, List.length_take, List.length_replicate]
  omega

theorem project_bind_store (r : Reader α) (set : α → σ → σ) (f : Filler σ Unit) (x : σ) :
    project (do store r set; f) x = (do let a ← r; project f (set a x)) := by
  funext rs
  cases h : r rs with
  | ok a rs' =>
    have hstore : store r set (rs, x) = .ok () (rs', set a x) := by rw [store, h]
    rw [bind_ok h, project, bind_ok hstore]
    rfl
  | error e rs' =>
    have hstore : store r set (rs, x) = .error e (rs', x) := by rw [store, h]
    rw [bind_error h, project, bind_error hstore]

theorem project_store (r : Reader α) (set : α → σ → σ) (x : σ) :
    project (store r set) x = (do let a ← r; pure (set a x)) := by
  funext rs
  cases h : r rs with
  | ok a rs' =>
    rw [bind_ok h, project, store, h]
    rfl
  | error e rs' => rw [bind_error h, project, store, h]

theorem project_bind_check (c : σ → Bool) (e : String) (f : Filler σ Unit) (x : σ) :
    project (do check c e; f) x = (do ensure (c x) e; project f x) := by
  funext rs
  cases h : c x with
  | true =>
    have hcheck : check c e (rs, x) = .ok () (rs, x) := by rw [check, h]; rfl
    rw [bind_ok (ensure_true e rs), project, bind_ok hcheck]
    rfl
  | false =>
    have hcheck : check c e (rs, x) = .error e (rs, x) := by rw [check, h]; rfl
    rw [bind_error (ensure_false e rs), project, bind_error hcheck]

theorem project_check (c : σ → Bool) (e : String) (x : σ) :
    project (check c e) x = (do ensure (c x) e; pure x) := by
  funext rs
  cases h : c x with
  | true =>
    rw [bind_ok (ensure_true e rs), project, check, h]
    rfl
  | false =>
    rw [bind_error (ensure_false e rs), project, check, h]
    rfl

theorem project_bind_update (f : σ → σ) (g : Filler σ Unit) (x : σ) :
    project (do update f; g) x = project g (f x) := rfl

theorem project_bind_member (get : σ → τ) (set : τ → σ → σ) (f : Filler τ Unit)
    (g : Filler σ Unit) (x : σ) :
    project (do member get set f; g) x = (do let y ← project f (get x); project g (set y x)) := by
  funext rs
  cases h : f (rs, get x) with
  | ok u s =>
    have hmember : member get set f (rs, x) = .ok () (s.1, set s.2 x) := by rw [member, h]
    have hproject : project f (get x) rs = .ok s.2 s.1 := by rw [project, h]
    rw [bind_ok hproject, project, bind_ok hmember]
    rfl
  | error e s =>
    have hmember : member get set f (rs, x) = .error e (s.1, set s.2 x) := by rw [member, h]
    have hproject : project f (get x) rs = .error e s.1 := by rw [project, h]
    rw [bind_error hproject, project, bind_error hmember]

theorem project_member (get : σ → τ) (set : τ → σ → σ) (f : Filler τ Unit) (x : σ) :
    project (member get set f) x = (do let y ← project f (get x); pure (set y x)) := by
  funext rs
  cases h : f (rs, get x) with
  | ok u s =>
    have hproject : project f (get x) rs = .ok s.2 s.1 := by rw [project, h]
    rw [bind_ok hproject, project, member, h]
    rfl
  | error e s =>
    have hproject : project f (get x) rs = .error e s.1 := by rw [project, h]
    rw [bind_error hproject, project, member, h]

/-! ### What is left -/

theorem left_bind_ok {f g : Filler σ Unit} {rs : ReadStream} {x : σ} {s : ReadStream × σ}
    (h : f (rs, x) = .ok () s) : left (do f; g) rs x = left g s.1 s.2 := by
  rw [left, bind_ok h, left]

theorem left_bind_error {f g : Filler σ Unit} {rs : ReadStream} {x : σ} {s : ReadStream × σ}
    {e : String} (h : f (rs, x) = .error e s) : left (do f; g) rs x = s.2 := by
  rw [left, bind_error h]

/-- Reading keeps what holds of the object, wherever it stops. -/
def Keeps (P : σ → Prop) (f : Filler σ Unit) : Prop := ∀ rs x, P x → P (left f rs x)

theorem Keeps.bind {P : σ → Prop} {f g : Filler σ Unit} (hf : Keeps P f) (hg : Keeps P g) :
    Keeps P (do f; g) := by
  intro rs x hx
  have hleft := hf rs x hx
  cases h : f (rs, x) with
  | ok u s =>
    rw [left, h] at hleft
    rw [left_bind_ok h]
    exact hg _ _ hleft
  | error e s =>
    rw [left, h] at hleft
    rw [left_bind_error h]
    exact hleft

theorem Keeps.update {P : σ → Prop} {f : σ → σ} (h : ∀ x, P x → P (f x)) :
    Keeps P (Filler.update f) :=
  fun _ x hx => h x hx

theorem Keeps.check {P : σ → Prop} {c : σ → Bool} {e : String} : Keeps P (Filler.check c e) := by
  intro rs x hx
  rw [left, Filler.check]
  cases c x <;> exact hx

theorem left_member (get : σ → τ) (set : τ → σ → σ) (f : Filler τ Unit) (rs : ReadStream) (x : σ) :
    left (member get set f) rs x = set (left f rs (get x)) x := by
  rw [left, left, member]
  cases f (rs, get x) <;> rfl

theorem Keeps.member {P : σ → Prop} {get : σ → τ} {set : τ → σ → σ} {f : Filler τ Unit}
    (h : ∀ x y, P x → P (set y x)) : Keeps P (Filler.member get set f) := by
  intro rs x hx
  rw [left_member]
  exact h x _ hx

/-- The vector has as many elements as before, whether or not they were read. -/
theorem length_each (f : Filler τ Unit) (xs : List τ) (rs : ReadStream) :
    (left (each f) rs xs).length = xs.length := by
  induction xs generalizing rs with
  | nil => rfl
  | cons x xs ih =>
    rw [left, each, eachOf]
    cases hf : f (rs, x) with
    | error e s => rfl
    | ok u s =>
      have hrest := ih s.1
      rw [left, each] at hrest
      cases heach : eachOf f xs s.1 with
      | ok v t =>
        rw [heach] at hrest
        simp only [heach, List.length_cons, hrest]
      | error e t =>
        rw [heach] at hrest
        simp only [heach, List.length_cons, hrest]

/-- The elements read do not depend on what was there. -/
theorem project_each {f : Filler τ Unit} {r : Reader τ} (h : ∀ x, project f x = r) (xs : List τ) :
    project (each f) xs = readN r xs.length := by
  induction xs with
  | nil => rfl
  | cons x xs ih =>
    funext rs
    have hx := congrFun (h x) rs
    rw [List.length_cons, readN]
    rw [project] at hx
    cases hf : f (rs, x) with
    | error e s =>
      rw [hf] at hx
      rw [bind_error hx.symm, project, each, eachOf, hf]
    | ok u s =>
      rw [hf] at hx
      have hrest := congrFun ih s.1
      rw [bind_ok hx.symm, project, each, eachOf, hf]
      rw [project, each] at hrest
      cases heach : eachOf f xs s.1 with
      | ok v t =>
        rw [heach] at hrest
        rw [bind_ok hrest.symm]
        simp only [heach]
        rfl
      | error e t =>
        rw [heach] at hrest
        rw [bind_error hrest.symm]
        simp only [heach]

end Filler

open Filler

/-! ### Fields -/

/-- `PathMeta::serialize` of a reading stream. -/
def PathMeta.fill : Filler PathMeta Unit := do
  store (UInt64.toUInt8 <$> ReadStream.serializeBits 8 2) fun v m => { m with currInf := v }
  store (UInt64.toUInt8 <$> ReadStream.serializeBits 8 6) fun v m => { m with currHf := v }
  store (ReadStream.advanceBits 6) fun _ m => m
  store (UInt64.toUInt8 <$> ReadStream.serializeBits 8 6) fun v m => { m with seg0 := v }
  store (UInt64.toUInt8 <$> ReadStream.serializeBits 8 6) fun v m => { m with seg1 := v }
  store (UInt64.toUInt8 <$> ReadStream.serializeBits 8 6) fun v m => { m with seg2 := v }
  check PathMeta.segmentsInOrder "invalid path meta header"
  check (fun m => m.currInf.toNat < m.segmentCount) "invalid path meta header"
  check (fun m => m.currHf.toNat < m.hopFieldCount) "invalid path meta header"

def InfoField.fill : Filler InfoField Unit := do
  store ReadStream.serializeByte fun v info => { info with flags := v }
  store (ReadStream.advanceBytes 1) fun _ info => info
  store ReadStream.serializeUint16 fun v info => { info with segid := v }
  store ReadStream.serializeUint32 fun v info => { info with timestamp := v }

def HopField.fill : Filler HopField Unit := do
  store ReadStream.serializeByte fun v hf => { hf with flags := v }
  store ReadStream.serializeByte fun v hf => { hf with expTime := v }
  store ReadStream.serializeUint16 fun v hf => { hf with consIngress := v }
  store ReadStream.serializeUint16 fun v hf => { hf with consEgress := v }
  store (ReadStream.serializeBytes 6) fun v hf =>
    { hf with mac := Vector.ofFn fun i => v.getD i 0 }

/-- A field that was not read yet. -/
def InfoField.default : InfoField := ⟨0, 0, 0⟩

def HopField.default : HopField := ⟨0, 0, 0, 0, Vector.replicate 6 0⟩

theorem PathMeta.project_fill (m : PathMeta) : project PathMeta.fill m = PathMeta.read := by
  rw [PathMeta.fill, PathMeta.read, PathMeta.readFields]
  simp only [project_bind_store, project_bind_check, project_check, bind_assoc, pure_bind]

theorem InfoField.project_fill (info : InfoField) : project InfoField.fill info = InfoField.read := by
  rw [InfoField.fill, InfoField.read]
  simp only [project_bind_store, project_store]

theorem HopField.project_fill (hf : HopField) : project HopField.fill hf = HopField.read := by
  rw [HopField.fill, HopField.read]
  simp only [project_bind_store, project_store]

/-! ### Reading the meta header -/

section

variable {σ : Type} {data : List UInt8} {P n : ℕ}

theorem store_bits (set : UInt8 → σ → σ) (x : σ) (hn : 1 ≤ n) (hmax : n ≤ 8)
    (hroom : P + n ≤ 8 * data.length) :
    store (UInt64.toUInt8 <$> ReadStream.serializeBits 8 n) set (ReadStream.atBit data P, x)
      = .ok () (ReadStream.atBit data (P + n),
          set (UInt8.ofNat (ReadStream.bitsAt data P n)) x) := by
  have hread := ReadStream.serializeBits_atBit 8 data (n := n) (P := P) (by omega) fun _ => hroom
  have hmap : (UInt64.toUInt8 <$> ReadStream.serializeBits 8 n) (ReadStream.atBit data P)
      = .ok (UInt8.ofNat (ReadStream.bitsAt data P n)) (ReadStream.atBit data (P + n)) := by
    rw [map_eq_pure_bind, bind_ok hread, PathMeta.toUInt8_ofNat]
    rfl
  rw [store, hmap]

theorem store_bits_short (set : UInt8 → σ → σ) (x : σ) (hn : 1 ≤ n) (hmax : n ≤ 8)
    (hshort : 8 * data.length < P + n) :
    ∃ e, store (UInt64.toUInt8 <$> ReadStream.serializeBits 8 n) set (ReadStream.atBit data P, x)
      = .error e (ReadStream.atBit data P, x) := by
  have hread : ReadStream.serializeBits 8 n (ReadStream.atBit data P)
      = .error "out of data to read" (ReadStream.atBit data P) := by
    rw [ReadStream.serializeBits, if_neg (by omega), if_neg (by omega),
      ReadStream.remaining_atBit, ReadStream.bitPos_atBit, if_pos (by omega)]
  have hmap : (UInt64.toUInt8 <$> ReadStream.serializeBits 8 n) (ReadStream.atBit data P)
      = .error "out of data to read" (ReadStream.atBit data P) := by
    rw [map_eq_pure_bind, bind_error hread]
  exact ⟨_, by rw [store, hmap]⟩

end

/-- The length of segment `i` as the buffer has it, if it is long enough. -/
def announced (buffer : List UInt8) (i : ℕ) : Option UInt8 :=
  if 14 + 6 * (i + 1) ≤ 8 * buffer.length
  then some (UInt8.ofNat (ReadStream.bitsAt buffer (14 + 6 * i) 6)) else none

/-- The segment lengths that the buffer has are overwritten, even if the meta
header is then rejected. -/
theorem PathMeta.segLen_left (m : PathMeta) (buffer : List UInt8) {i : ℕ} (hi : i < 3) :
    (left PathMeta.fill (ReadStream.ofBuffer buffer) m).segLen i
      = (announced buffer i).getD (m.segLen i) := by
  have hstart : ReadStream.ofBuffer buffer = ReadStream.atBit buffer 0 := rfl
  have hnone : ∀ {j}, 8 * buffer.length < 14 + 6 * (j + 1) → announced buffer j = none :=
    fun h => if_neg (by omega)
  have hsome : ∀ {j}, 14 + 6 * (j + 1) ≤ 8 * buffer.length →
      announced buffer j = some (UInt8.ofNat (ReadStream.bitsAt buffer (14 + 6 * j) 6)) :=
    fun h => if_pos h
  rw [hstart, fill]
  -- the bit fields up to the end of the buffer are stored
  by_cases h1 : 1 ≤ buffer.length
  swap
  · obtain ⟨e, hinf⟩ := store_bits_short (fun v m => { m with currInf := v }) m
      (by norm_num) (by norm_num) (by omega : 8 * buffer.length < 0 + 2)
    rw [left_bind_error hinf, hnone (by omega)]
    rfl
  rw [left_bind_ok (store_bits _ m (by norm_num) (by norm_num) (by omega)),
    left_bind_ok (store_bits _ _ (by norm_num) (by norm_num) (by omega))]
  by_cases h2 : 2 ≤ buffer.length
  swap
  · have hskip : ∀ x : PathMeta, store (ReadStream.advanceBits 6) (fun _ m => m)
        (ReadStream.atBit buffer 8, x) = .error "out of data to read" (ReadStream.atBit buffer 8, x) := by
      intro x
      rw [store, ReadStream.advanceBits, ReadStream.remaining_atBit, ReadStream.bitPos_atBit,
        if_pos (by omega)]
    rw [left_bind_error (hskip _), hnone (by omega)]
    rfl
  have hskip : ∀ x : PathMeta, store (ReadStream.advanceBits 6) (fun _ m => m)
      (ReadStream.atBit buffer 8, x) = .ok () (ReadStream.atBit buffer 14, x) := by
    intro x
    rw [store, ReadStream.advanceBits_atBit buffer (by omega)]
  rw [left_bind_ok (hskip _)]
  by_cases h3 : 3 ≤ buffer.length
  swap
  · obtain ⟨e, h0⟩ := store_bits_short (fun v (m : PathMeta) => { m with seg0 := v })
      { m with
        currInf := UInt8.ofNat (ReadStream.bitsAt buffer 0 2)
        currHf := UInt8.ofNat (ReadStream.bitsAt buffer (0 + 2) 6) }
      (by norm_num) (by norm_num) (by omega : 8 * buffer.length < 14 + 6)
    rw [left_bind_error h0, hnone (by omega)]
    rfl
  rw [left_bind_ok (store_bits _ _ (by norm_num) (by norm_num) (by omega))]
  by_cases h4 : 4 ≤ buffer.length
  swap
  · obtain ⟨e, h1⟩ := store_bits_short (fun v (m : PathMeta) => { m with seg1 := v })
      { m with
        currInf := UInt8.ofNat (ReadStream.bitsAt buffer 0 2)
        currHf := UInt8.ofNat (ReadStream.bitsAt buffer (0 + 2) 6)
        seg0 := UInt8.ofNat (ReadStream.bitsAt buffer 14 6) }
      (by norm_num) (by norm_num) (by omega : 8 * buffer.length < 14 + 6 + 6)
    rw [left_bind_error h1]
    interval_cases i
    · rw [hsome (by omega)]
      rfl
    · rw [hnone (by omega)]
      rfl
    · rw [hnone (by omega)]
      rfl
  rw [left_bind_ok (store_bits _ _ (by norm_num) (by norm_num) (by omega)),
    left_bind_ok (store_bits _ _ (by norm_num) (by norm_num) (by omega)), hsome (by omega)]
  -- the checks change nothing
  have hchecks : ∀ (m' : PathMeta), Keeps (fun x => x = m') (do
      check PathMeta.segmentsInOrder "invalid path meta header"
      check (fun m => m.currInf.toNat < m.segmentCount) "invalid path meta header"
      check (fun m => m.currHf.toNat < m.hopFieldCount) "invalid path meta header") :=
    fun m' => Keeps.bind Keeps.check (Keeps.bind Keeps.check Keeps.check)
  rw [hchecks _ _ _ rfl]
  interval_cases i <;> rfl

namespace DecodedScionPath

/-- `serialize` of a reading stream. -/
def fill : Filler DecodedScionPath Unit := do
  member (fun p => p.metaHeader) (fun m p => { p with metaHeader := m }) PathMeta.fill
  update fun p => { p with ifs := resize p.metaHeader.segmentCount InfoField.default p.ifs }
  member (fun p => p.ifs) (fun ifs p => { p with ifs := ifs }) (each InfoField.fill)
  update fun p => { p with hfs := resize p.metaHeader.hopFieldCount HopField.default p.hfs }
  member (fun p => p.hfs) (fun hfs p => { p with hfs := hfs }) (each HopField.fill)

/-- Whether the reading succeeds, and with which path, does not depend on the
path it is read into. -/
theorem project_fill (p : DecodedScionPath) : project fill p = p.read := by
  rw [fill, read]
  simp only [project_bind_member, project_bind_update, project_member,
    project_each InfoField.project_fill, project_each HopField.project_fill,
    PathMeta.project_fill, length_resize]

/-- The meta header is overwritten first; the vectors follow if it is accepted. -/
theorem left_fill (p : DecodedScionPath) (rs : ReadStream) :
    (∃ e s, PathMeta.fill (rs, p.metaHeader) = .error e s ∧
        left fill rs p = { p with metaHeader := s.2 }) ∨
      ∃ s, PathMeta.fill (rs, p.metaHeader) = .ok () s ∧ (left fill rs p).metaHeader = s.2 := by
  cases h : PathMeta.fill (rs, p.metaHeader) with
  | error e s =>
    refine .inl ⟨e, s, rfl, ?_⟩
    have hmember : member (fun p => p.metaHeader)
        (fun m (p : DecodedScionPath) => { p with metaHeader := m }) PathMeta.fill (rs, p)
          = .error e (s.1, { p with metaHeader := s.2 }) := by
      rw [member, h]
    rw [fill, left_bind_error hmember]
  | ok u s =>
    refine .inr ⟨s, rfl, ?_⟩
    have hmember : member (fun p => p.metaHeader)
        (fun m (p : DecodedScionPath) => { p with metaHeader := m }) PathMeta.fill (rs, p)
          = .ok () (s.1, { p with metaHeader := s.2 }) := by
      rw [member, h]
    rw [fill, left_bind_ok hmember]
    -- what follows leaves the meta header alone
    have hkeeps : Keeps (fun q : DecodedScionPath => q.metaHeader = s.2) (do
        update fun p => { p with ifs := resize p.metaHeader.segmentCount InfoField.default p.ifs }
        member (fun p => p.ifs) (fun ifs p => { p with ifs := ifs }) (each InfoField.fill)
        update fun p => { p with hfs := resize p.metaHeader.hopFieldCount HopField.default p.hfs }
        member (fun p => p.hfs) (fun hfs p => { p with hfs := hfs }) (each HopField.fill)) :=
      Keeps.bind (Keeps.update fun _ hx => hx) <| Keeps.bind (Keeps.member fun _ _ hx => hx) <|
        Keeps.bind (Keeps.update fun _ hx => hx) (Keeps.member fun _ _ hx => hx)
    exact hkeeps s.1 { p with metaHeader := s.2 } rfl

/-! ### Well-formed paths -/

/-- `segment`: the hop fields from `begin() + segmentBegin(seg)` to
`end() + segmentBegin(seg + 1)`, if both are positions of the vector. -/
def segment (p : DecodedScionPath) (seg : ℕ) : Option (List HopField) :=
  let first := p.metaHeader.segmentBegin seg
  let last := p.hfs.length + p.metaHeader.segmentBegin (seg + 1)
  if first ≤ p.hfs.length ∧ last ≤ p.hfs.length then some ((p.hfs.take last).drop first) else none

/-- The hop fields of all segments, one segment after the other. -/
def segments (p : DecodedScionPath) : Option (List HopField) :=
  List.flatten <$> (List.range p.metaHeader.segmentCount).mapM p.segment

/-- What the accessors and the writing `serialize` rely on. -/
structure WellFormed (p : DecodedScionPath) : Prop where
  consistent : p.Consistent
  info_indexed : ∀ i < p.metaHeader.segmentCount, ∃ info, p.ifs[i]? = some info
  hop_indexed : ∀ i < p.metaHeader.hopFieldCount, ∃ hf, p.hfs[i]? = some hf
  size_written : ∀ (buffer : List UInt8) (ws : WriteStream),
    p.write (WriteStream.ofBuffer buffer) = .ok () ws → ws.bytePos = p.size ∧ ws.bitPos = 0
  segments_eq : p.segments = some p.hfs

theorem Consistent.info_indexed {p : DecodedScionPath} (h : p.Consistent) :
    ∀ i < p.metaHeader.segmentCount, ∃ info, p.ifs[i]? = some info := by
  intro i hi
  rw [← h.1] at hi
  exact ⟨_, List.getElem?_eq_getElem hi⟩

theorem Consistent.hop_indexed {p : DecodedScionPath} (h : p.Consistent) :
    ∀ i < p.metaHeader.hopFieldCount, ∃ hf, p.hfs[i]? = some hf := by
  intro i hi
  rw [← h.2] at hi
  exact ⟨_, List.getElem?_eq_getElem hi⟩

theorem Consistent.size_written {p : DecodedScionPath} (h : p.Consistent) (buffer : List UInt8)
    (ws : WriteStream) (hwrite : p.write (WriteStream.ofBuffer buffer) = .ok () ws) :
    ws.bytePos = p.size ∧ ws.bitPos = 0 := by
  have hrun := writes h [] buffer
  rw [WriteStream.ofBuffer_eq] at hwrite
  by_cases hfits : p.bytes.length ≤ buffer.length
  · rw [hrun.1 hfits] at hwrite
    cases hwrite
    exact ⟨length_bytes p, rfl⟩
  · obtain ⟨e, ws', herr⟩ := hrun.2 (not_le.mp hfits)
    rw [herr] at hwrite
    cases hwrite

/-- A path with hop fields in its first segment has no valid `segment(0)`. -/
theorem segments_eq_none {p : DecodedScionPath} (h : p.metaHeader.Valid) : p.segments = none := by
  have hcount : 0 < p.metaHeader.segmentCount := Nat.zero_lt_of_lt h.2.1
  have hseg0 : 0 < p.metaHeader.seg0.toNat := by
    rcases h.segments with ⟨-, h0, -⟩ | ⟨-, h0, -⟩ | ⟨-, h0, -⟩ <;> exact h0
  have hfirst : p.segment 0 = none := if_neg fun hrange => by
    have hlast := hrange.2
    rw [zero_add, PathMeta.segmentBegin] at hlast
    omega
  obtain ⟨n, hn⟩ := Nat.exists_eq_succ_of_ne_zero hcount.ne'
  rw [segments, hn, List.range_succ_eq_map, List.mapM_cons, hfirst]
  rfl

/-- Nothing was read into the path yet that announces a field. -/
structure Blank (p : DecodedScionPath) : Prop where
  lengths : ∀ i < 3, p.metaHeader.segLen i = 0
  no_infos : p.ifs = []
  no_hops : p.hfs = []

theorem hopFieldCount_eq_zero_iff {m : PathMeta} :
    m.hopFieldCount = 0 ↔ ∀ i < 3, m.segLen i = 0 := by
  have hzero : ∀ x : UInt8, x = 0 ↔ x.toNat = 0 := by
    intro x
    rw [← UInt8.toNat_inj]
    rfl
  simp only [hzero, PathMeta.hopFieldCount]
  constructor
  · intro h i hi
    interval_cases i
    · exact (Nat.eq_zero_of_add_eq_zero (Nat.eq_zero_of_add_eq_zero h).1).1
    · exact (Nat.eq_zero_of_add_eq_zero (Nat.eq_zero_of_add_eq_zero h).1).2
    · exact (Nat.eq_zero_of_add_eq_zero h).2
  · intro h
    have h0 : m.seg0.toNat = 0 := h 0 (by norm_num)
    have h1 : m.seg1.toNat = 0 := h 1 (by norm_num)
    have h2 : m.seg2.toNat = 0 := h 2 (by norm_num)
    rw [h0, h1, h2]

theorem Blank.segmentCount {p : DecodedScionPath} (h : p.Blank) :
    p.metaHeader.segmentCount = 0 := by
  have h0 : p.metaHeader.seg0 = 0 := h.lengths 0 (by norm_num)
  have h1 : p.metaHeader.seg1 = 0 := h.lengths 1 (by norm_num)
  have h2 : p.metaHeader.seg2 = 0 := h.lengths 2 (by norm_num)
  rw [PathMeta.segmentCount, h0, h1, h2]
  rfl

theorem Blank.wellFormed {p : DecodedScionPath} (h : p.Blank) : p.WellFormed := by
  have hcons : p.Consistent := by
    refine ⟨?_, ?_⟩
    · rw [h.no_infos, h.segmentCount]
      rfl
    · rw [h.no_hops, hopFieldCount_eq_zero_iff.mpr h.lengths]
      rfl
  refine ⟨hcons, hcons.info_indexed, hcons.hop_indexed, hcons.size_written, ?_⟩
  rw [segments, h.segmentCount, h.no_hops]
  rfl

/-! ### Runs -/

/-- A call that may change a path. -/
inductive Call where
  | read (buffer : List UInt8)
  | reverse
  deriving DecidableEq, Repr

/-- The path after the call. -/
def after (p : DecodedScionPath) : Call → DecodedScionPath
  | .read buffer => left fill (ReadStream.ofBuffer buffer) p
  | .reverse => p.reverseInPlace.2

/-- The segment lengths that the buffer has are zero. -/
def AnnouncesNothing (buffer : List UInt8) : Prop :=
  ∀ i < 3, ∀ len, announced buffer i = some len → len = 0

/-- The paths of a run. -/
def states (p : DecodedScionPath) (calls : List Call) : List DecodedScionPath := calls.scanl after p

theorem blank_make (source destination : IsdAsn) : (make source destination).Blank := by
  refine ⟨fun i hi => ?_, rfl, rfl⟩
  match i with
  | 0 => rfl
  | 1 => rfl
  | 2 => rfl

theorem Blank.after_reverse {p : DecodedScionPath} (h : p.Blank) : p.after .reverse = p := by
  rw [after, reverseInPlace, h.no_hops]
  rfl

/-- A path with an accepted meta header has hop fields it cannot return. -/
theorem Blank.after_read {p : DecodedScionPath} (h : p.Blank) (buffer : List UInt8) :
    (p.after (.read buffer)).WellFormed ↔ (p.after (.read buffer)).Blank := by
  refine ⟨fun hwell => ?_, Blank.wellFormed⟩
  rcases left_fill p (ReadStream.ofBuffer buffer) with ⟨e, s, -, hleft⟩ | ⟨s, hfill, hmeta⟩
  · rw [after, hleft] at hwell ⊢
    refine ⟨hopFieldCount_eq_zero_iff.mp ?_, h.no_infos, h.no_hops⟩
    exact hwell.consistent.2.symm.trans (congrArg List.length h.no_hops)
  · -- the meta header is valid
    have hread : PathMeta.read (ReadStream.cursor [] buffer) = .ok s.2 s.1 := by
      rw [← PathMeta.project_fill p.metaHeader, ← ReadStream.ofBuffer_eq, project, hfill]
    obtain ⟨bs, rest, -, -, -, hvalid, -⟩ := PathMeta.read_eq_ok hread
    have hnone := segments_eq_none (p := p.after (.read buffer)) (by rw [after, hmeta]; exact hvalid)
    have hsome := hwell.segments_eq
    rw [hnone] at hsome
    cases hsome

theorem Blank.blank_after_read_iff {p : DecodedScionPath} (h : p.Blank) (buffer : List UInt8) :
    (p.after (.read buffer)).Blank ↔ AnnouncesNothing buffer := by
  have hlens : ∀ i < 3, (left PathMeta.fill (ReadStream.ofBuffer buffer) p.metaHeader).segLen i
      = (announced buffer i).getD 0 := by
    intro i hi
    rw [PathMeta.segLen_left _ _ hi, h.lengths i hi]
  have hmeta : (p.after (.read buffer)).metaHeader
      = left PathMeta.fill (ReadStream.ofBuffer buffer) p.metaHeader := by
    rw [after]
    rcases left_fill p (ReadStream.ofBuffer buffer) with ⟨e, s, hfill, hleft⟩ | ⟨s, hfill, hleft⟩
    · rw [hleft, left, hfill]
    · rw [hleft, left, hfill]
  constructor
  · intro hblank i hi len hlen
    have hzero := hblank.lengths i hi
    rwa [hmeta, hlens i hi, hlen] at hzero
  · intro hnothing
    have hzero : ∀ i < 3, (p.after (.read buffer)).metaHeader.segLen i = 0 := by
      intro i hi
      rw [hmeta, hlens i hi]
      cases hlen : announced buffer i with
      | none => rfl
      | some len => exact hnothing i hi len hlen
    rcases left_fill p (ReadStream.ofBuffer buffer) with ⟨e, s, -, hleft⟩ | ⟨s, hfill, hleft⟩
    · refine ⟨hzero, ?_, ?_⟩
      · rw [after, hleft]
        exact h.no_infos
      · rw [after, hleft]
        exact h.no_hops
    · -- a meta header without hop fields is rejected
      have hread : PathMeta.read (ReadStream.cursor [] buffer) = .ok s.2 s.1 := by
        rw [← PathMeta.project_fill p.metaHeader, ← ReadStream.ofBuffer_eq, project, hfill]
      obtain ⟨bs, rest, -, -, -, hvalid, -⟩ := PathMeta.read_eq_ok hread
      have hcount := hopFieldCount_eq_zero_iff.mpr hzero
      rw [after, hleft] at hcount
      exact absurd hvalid.2.2 (by omega)

/-- A path stays well formed as long as no buffer announces a hop field. -/
theorem wellFormed_run_iff (source destination : IsdAsn) (calls : List Call) :
    (∀ p ∈ states (make source destination) calls, p.WellFormed) ↔
      ∀ buffer, .read buffer ∈ calls → AnnouncesNothing buffer := by
  have hrun : ∀ p : DecodedScionPath, p.Blank → ((∀ q ∈ states p calls, q.WellFormed) ↔
      ∀ buffer, .read buffer ∈ calls → AnnouncesNothing buffer) := by
    induction calls with
    | nil =>
      intro p hp
      refine iff_of_true ?_ fun _ h => absurd h List.not_mem_nil
      intro q hq
      rw [states, List.scanl_nil, List.mem_singleton] at hq
      rw [hq]
      exact hp.wellFormed
    | cons call calls ih =>
      intro p hp
      have hstates : states p (call :: calls) = p :: states (p.after call) calls :=
        List.scanl_cons
      have hhead : p.after call ∈ states (p.after call) calls := by
        rw [states]
        cases calls <;> simp
      rw [hstates, List.forall_mem_cons, and_iff_right hp.wellFormed]
      cases call with
      | reverse =>
        rw [hp.after_reverse, ih p hp]
        simp
      | read buffer =>
        constructor
        · intro hall
          have hblank := (hp.after_read buffer).mp (hall _ hhead)
          intro buffer' hmem
          rcases List.mem_cons.mp hmem with heq | hmem
          · cases heq
            exact (hp.blank_after_read_iff buffer).mp hblank
          · exact (ih _ hblank).mp hall buffer' hmem
        · intro hall
          have hblank := (hp.blank_after_read_iff buffer).mpr (hall buffer List.mem_cons_self)
          exact (ih _ hblank).mpr fun buffer' hmem => hall buffer' (List.mem_cons_of_mem _ hmem)
  exact hrun _ (blank_make source destination)

/-- A path that was read has the fields its meta header announces. -/
theorem consistent_of_read {p q : DecodedScionPath} {buffer : List UInt8} {rs : ReadStream}
    (h : p.read (ReadStream.ofBuffer buffer) = .ok q rs) :
    q.Consistent ∧ q.metaHeader.Valid ∧ p.after (.read buffer) = q := by
  have hleft : p.after (.read buffer) = q := by
    rw [← project_fill, project] at h
    rw [after, left]
    cases hfill : fill (ReadStream.ofBuffer buffer, p) with
    | ok u s =>
      rw [hfill] at h
      cases h
      rfl
    | error e s =>
      rw [hfill] at h
      cases h
  rw [read, ReadStream.ofBuffer_eq] at h
  obtain ⟨m, s₁, hmeta, h⟩ := bind_eq_ok.mp h
  obtain ⟨mb, rest₁, -, -, -, hvalid, rfl⟩ := PathMeta.read_eq_ok hmeta
  obtain ⟨ifs, s₂, hinfos, h⟩ := bind_eq_ok.mp h
  obtain ⟨ics, rest₂, -, hics, -, rfl, rfl⟩ :=
    readN_eq_ok InfoField.reads InfoField.starves hinfos
  obtain ⟨hfs, s₃, hhops, h⟩ := bind_eq_ok.mp h
  obtain ⟨hcs, rest₃, -, hhcs, -, rfl, rfl⟩ :=
    readN_eq_ok HopField.reads HopField.starves hhops
  cases h
  refine ⟨⟨?_, ?_⟩, hvalid, hleft⟩
  · rw [List.length_map, hics]
  · rw [List.length_map, hhcs]

/-- Every path that was read is consistent, and none returns its segments. -/
theorem segments_after_read {p q : DecodedScionPath} {buffer : List UInt8} {rs : ReadStream}
    (h : p.read (ReadStream.ofBuffer buffer) = .ok q rs) :
    (p.after (.read buffer)).Consistent ∧ (p.after (.read buffer)).segments = none := by
  obtain ⟨hcons, hvalid, hleft⟩ := consistent_of_read h
  rw [hleft]
  exact ⟨hcons, segments_eq_none hvalid⟩

theorem Consistent.after_reverse {p : DecodedScionPath} (h : p.Consistent) :
    (p.after .reverse).Consistent := by
  rw [after]
  by_cases hne : p.hfs = []
  · rw [reverseInPlace, hne]
    exact h
  · obtain ⟨r, hr, hcons, -⟩ := consistent_reverse h hne
    rw [hr]
    exact hcons

/-- As long as no reading fails, the meta header announces what is there. -/
theorem consistent_run {p : DecodedScionPath} (hp : p.Consistent) (calls : List Call)
    (h : ∀ buffer, .read buffer ∈ calls → ∀ q : DecodedScionPath,
      ∃ r rs, q.read (ReadStream.ofBuffer buffer) = .ok r rs) :
    ∀ q ∈ states p calls, q.Consistent := by
  induction calls generalizing p with
  | nil =>
    intro q hq
    rw [states, List.scanl_nil, List.mem_singleton] at hq
    exact hq ▸ hp
  | cons call calls ih =>
    have hstates : states p (call :: calls) = p :: states (p.after call) calls := List.scanl_cons
    have hnext : (p.after call).Consistent := by
      cases call with
      | reverse => exact hp.after_reverse
      | read buffer =>
        obtain ⟨r, rs, hread⟩ := h buffer List.mem_cons_self p
        exact (segments_after_read hread).1
    rw [hstates, List.forall_mem_cons]
    exact ⟨hp, ih hnext fun buffer hmem => h buffer (List.mem_cons_of_mem _ hmem)⟩

/-- A rejected meta header that announces two hop fields stays in a path without
any. -/
theorem not_forall_wellFormed_run :
    ¬ ∀ (source destination : IsdAsn) (calls : List Call),
      ∀ p ∈ states (make source destination) calls, p.WellFormed := by
  intro h
  -- the current info field is out of range
  have hwell := h (IsdAsn.make 1 1) (IsdAsn.make 1 2) [.read [0xc0, 0, 0x20, 0]] _
    (List.mem_of_getElem? (i := 1) rfl)
  exact absurd hwell.consistent.2 (by decide)

end DecodedScionPath

end Scion
