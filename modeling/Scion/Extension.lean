/-
SCION extensions (`extensions/extension.hpp`).

An extension is written as a sequence of type-length-value options behind an
options header. What a class derived from `Extension` implements is a parameter.

* `computeExtSize`, `parseExtensions` — the two loops of the source;
* `Emits` — the contract of writing: as many bytes as the size says;
* `Options` — a well-formed sequence of options with its types;
* `Carries` — the contract between an extension sent and those that receive it;
* `parses_chunks` — the options of extensions sent make valid exactly the
  receiving extensions of their types.
-/
import Scion.Header

namespace Scion

open BigEndian Codec

inductive Category
  | hopByHop
  | endToEnd
  deriving DecidableEq, Repr

/-- An extension with data `S`. -/
structure Extension (S : Type) where
  validFlag : Bool
  data : S
  deriving DecidableEq, Repr

/-- The virtual methods of an extension. `write` is told the position in the
packet, `size` the offset from the start of the options header. -/
class ExtensionClass (S : Type) where
  category : S → Category
  type : S → OptType
  size : S → ℕ → ℕ
  parse : Extension S → Reader (Extension S)
  write : S → ℕ → Writer

namespace Extension

variable {S : Type} [ExtensionClass S]

def isValid (ext : Extension S) : Bool := ext.validFlag

def setValid (ext : Extension S) : Extension S := { ext with validFlag := true }

def setInvalid (ext : Extension S) : Extension S := { ext with validFlag := false }

def category (ext : Extension S) : Category := ExtensionClass.category ext.data

def type (ext : Extension S) : OptType := ExtensionClass.type ext.data

def size (ext : Extension S) (pos : ℕ) : ℕ := ExtensionClass.size ext.data pos

def parse (ext : Extension S) : Reader (Extension S) := ExtensionClass.parse ext

def write (ext : Extension S) (pos : ℕ) : Writer := ExtensionClass.write ext.data pos

/-- `isHbH` and `isE2E`: valid and of the category. -/
def isIn (category : Category) (ext : Extension S) : Bool :=
  ext.isValid && ext.category == category

end Extension

section Loops

variable {S : Type} [ExtensionClass S]

/-- The extensions of one category that are emitted. -/
def emitted (category : Category) (exts : List (Extension S)) : List (Extension S) :=
  exts.filter (Extension.isIn category)

/-- The size of the extensions header of one category, 0 for no header. -/
def categorySize (category : Category) (exts : List (Extension S)) : ℕ :=
  if exts.any (Extension.isIn category) then
    (emitted category exts).foldl (fun size ext => size + ext.size size) OptsHeader.minSize
  else 0

/-- The sizes of the hop-by-hop and of the end-to-end extensions header. -/
def computeExtSize (exts : List (Extension S)) : ℕ × ℕ :=
  (categorySize .hopByHop exts, categorySize .endToEnd exts)

/-- Hand the next option to the first extension of its type, if there is one. -/
def parseMatching (optType : OptType) :
    List (Extension S) → Reader (Option (List (Extension S)))
  | [] => pure none
  | ext :: exts =>
    if optType = ext.type then do
      let ext ← ext.parse
      pure (some (ext :: exts))
    else do
      let found ← parseMatching optType exts
      pure (found.map (ext :: ·))

/-- Extract an option without looking at it. The loop ignores a failure, and
goes on from wherever the failed read has left the stream. -/
def skipOption : Reader Unit := fun rs =>
  match SciOpt.read rs with
  | .ok _ rs => .ok () rs
  | .error _ rs => .ok () rs

/-- The body of the loop of `parseExtensions`. -/
def parseOption (exts : List (Extension S)) : Reader (List (Extension S)) := do
  let nextType ← ReadStream.lookahead (some 1)
  let found ← parseMatching (nextType.headD OptType.pad1) exts
  match found with
  | some exts => pure exts
  | none => do
    skipOption
    pure exts

/-- The loop, for at most `fuel` options. -/
def parseOptions : ℕ → List (Extension S) → Reader (List (Extension S))
  | 0, exts => fun rs => if rs.hasData then .error "no progress" rs else .ok exts rs
  | fuel + 1, exts => fun rs =>
    if rs.hasData then (parseOption exts >>= parseOptions fuel) rs else .ok exts rs

/-- Every option takes a byte, so there are no more options than bytes. -/
def parseExtensions (exts : List (Extension S)) : Reader (List (Extension S)) := fun rs =>
  parseOptions rs.remaining (exts.map Extension.setInvalid) rs

/-! ### Sizes and writing -/

/-- Written from position `pos` and `off` bytes into their options header, the
extensions emit the bytes of `chunks`, each as many as its size says. -/
inductive Emits : List (Extension S) → ℕ → ℕ → List (List UInt8) → Prop
  | nil (pos off : ℕ) : Emits [] pos off []
  | cons {ext : Extension S} {exts : List (Extension S)} {pos off : ℕ} {bs : List UInt8}
      {chunks : List (List UInt8)} (hwrite : WritesAt WriteStream.cursor pos (ext.write pos) bs ())
      (hsize : bs.length = ext.size off) (hrest : Emits exts (pos + bs.length) (off + bs.length) chunks) :
      Emits (ext :: exts) pos off (bs :: chunks)

theorem Emits.foldl_size {exts : List (Extension S)} {pos off : ℕ} {chunks : List (List UInt8)}
    (h : Emits exts pos off chunks) :
    exts.foldl (fun size ext => size + ext.size size) off = off + chunks.flatten.length := by
  induction h with
  | nil pos off => simp
  | cons hwrite hsize hrest ih =>
    rw [List.foldl_cons, ← hsize, ih, List.flatten_cons, List.length_append, add_assoc]

/-- The options header announces the two bytes of its own and the options. -/
theorem Emits.categorySize {category : Category} {exts : List (Extension S)} {pos : ℕ}
    {chunks : List (List UInt8)} (h : Emits (emitted category exts) pos OptsHeader.minSize chunks) :
    categorySize category exts =
      if exts.any (Extension.isIn category) then 2 + chunks.flatten.length else 0 := by
  rw [Scion.categorySize, h.foldl_size]
  rfl

theorem emitted_eq_nil {category : Category} {exts : List (Extension S)} :
    emitted category exts = [] ↔ exts.any (Extension.isIn category) = false := by
  rw [emitted, List.filter_eq_nil_iff, List.any_eq_false]

theorem Emits.eq_nil {category : Category} {exts : List (Extension S)} {pos off : ℕ}
    {chunks : List (List UInt8)} (h : Emits (emitted category exts) pos off chunks)
    (hnone : exts.any (Extension.isIn category) = false) : chunks = [] := by
  rw [emitted_eq_nil.mpr hnone] at h
  cases h
  rfl

end Loops

/-! ### Parsing -/

/-- `bs` is a sequence of options of the given types. -/
inductive Options : List OptType → List UInt8 → Prop
  | nil : Options [] []
  | pad1 {types : List OptType} {bs : List UInt8} (h : Options types bs) :
      Options (OptType.pad1 :: types) ([OptType.pad1] ++ bs)
  | option {types : List OptType} {bs data : List UInt8} {type : OptType} {dataLen : UInt8}
      (htype : type ≠ OptType.pad1) (hdata : data.length = dataLen.toNat)
      (h : Options types bs) :
      Options (type :: types) (([type] ++ ([dataLen] ++ data)) ++ bs)

/-- The first byte of an option is its type. -/
theorem Options.exists_eq_append {type : OptType} {types : List OptType} {bs : List UInt8}
    (h : Options (type :: types) bs) : ∃ rest, bs = [type] ++ rest := by
  cases h with
  | pad1 h => exact ⟨_, rfl⟩
  | option htype hdata h => exact ⟨_, by rw [List.append_assoc]⟩

theorem reads_skipOption {bs : List UInt8} {opt : SciOpt}
    (h : Reads ReadStream.cursor SciOpt.read bs opt) :
    Reads ReadStream.cursor skipOption bs () := by
  intro pre post
  rw [skipOption, h]

theorem SciOpt.reads_pad1 :
    Reads ReadStream.cursor SciOpt.read [OptType.pad1] ⟨OptType.pad1, 0⟩ := by
  refine (ReadStream.reads_byte OptType.pad1).bind_nil ?_
  rw [if_neg (by simp)]
  exact Reads.pure _

theorem SciOpt.reads_option {type : OptType} {dataLen : UInt8} {data : List UInt8}
    (htype : type ≠ OptType.pad1) (hdata : data.length = dataLen.toNat) :
    Reads ReadStream.cursor SciOpt.read ([type] ++ ([dataLen] ++ data)) ⟨type, dataLen⟩ := by
  refine (ReadStream.reads_byte type).bind ?_
  rw [if_pos htype]
  exact (ReadStream.reads_byte dataLen).bind
    (ReadStream.reads_advanceBytes data dataLen.toNat hdata).bind_pure

section Receiving

variable {S : Type} [ExtensionClass S]

/-- The loop of `parseExtensions` started on `post` ends with the extensions `exts'`. -/
def Parses (exts : List (Extension S)) (post : List UInt8) (exts' : List (Extension S)) : Prop :=
  ∀ pre fuel, post.length ≤ fuel →
    parseOptions fuel exts (ReadStream.cursor pre post)
      = .ok exts' (ReadStream.cursor (pre ++ post) [])

theorem Parses.nil (exts : List (Extension S)) : Parses exts [] exts := by
  intro pre fuel _
  have hdata : (ReadStream.cursor pre []).hasData = false := ReadStream.hasData_cursor pre []
  rw [List.append_nil]
  cases fuel with
  | zero =>
    show (if _ then _ else _) = _
    rw [hdata, if_neg Bool.false_ne_true]
  | succ fuel =>
    show (if _ then _ else _) = _
    rw [hdata, if_neg Bool.false_ne_true]

/-- One round of the loop. -/
theorem Parses.step {exts exts₁ exts' : List (Extension S)} {bs post : List UInt8}
    (hpos : 0 < bs.length) (hread : Reads ReadStream.cursor (parseOption exts) bs exts₁)
    (h : Parses exts₁ post exts') : Parses exts (bs ++ post) exts' := by
  intro pre fuel hfuel
  rw [List.length_append] at hfuel
  obtain ⟨fuel, rfl⟩ : ∃ f, fuel = f + 1 := ⟨fuel - 1, by omega⟩
  have hdata : (ReadStream.cursor pre (bs ++ post)).hasData = true := by
    rw [ReadStream.hasData_cursor]
    cases bs with
    | nil => simp at hpos
    | cons b bs => rfl
  show (if _ then _ else _) = _
  rw [if_pos hdata, bind_ok (hread pre post), h _ _ (by omega), List.append_assoc]

/-- No extension of the list has the type. -/
theorem reads_parseMatching_none {exts : List (Extension S)} {type : OptType}
    (h : type ∉ exts.map Extension.type) :
    Reads ReadStream.cursor (parseMatching type exts) [] none := by
  induction exts with
  | nil => exact Reads.pure none
  | cons ext exts ih =>
    rw [List.map_cons, List.mem_cons, not_or] at h
    rw [parseMatching, if_neg h.1]
    exact (ih h.2).bind_pure

/-- The look at the type of the next option costs no bytes. -/
theorem reads_lookahead_bind {α : Type} {type : OptType} {bs : List UInt8} {a : α}
    {f : List UInt8 → Reader α} (h : Reads ReadStream.cursor (f [type]) ([type] ++ bs) a) :
    Reads ReadStream.cursor (ReadStream.lookahead (some 1) >>= f) ([type] ++ bs) a := by
  intro pre post
  rw [List.append_assoc, bind_ok (ReadStream.lookahead_some pre [type] (bs ++ post) 1 rfl),
    ← List.append_assoc, h]

/-- An option of a type no extension has is passed over. -/
theorem reads_parseOption_skip {exts : List (Extension S)} {type : OptType} {bs : List UInt8}
    {opt : SciOpt} (htype : type ∉ exts.map Extension.type)
    (hread : Reads ReadStream.cursor SciOpt.read ([type] ++ bs) opt) :
    Reads ReadStream.cursor (parseOption exts) ([type] ++ bs) exts := by
  refine reads_lookahead_bind ?_
  exact (reads_parseMatching_none htype).nil_bind
    ((reads_skipOption hread).bind_pure (g := fun _ => exts))

/-- Options of types no extension has are passed over. -/
theorem Parses.skip {exts exts' : List (Extension S)} {types : List OptType}
    {bs post : List UInt8} (hopts : Options types bs)
    (hforeign : ∀ t ∈ types, t ∉ exts.map Extension.type) (h : Parses exts post exts') :
    Parses exts (bs ++ post) exts' := by
  induction hopts with
  | nil => exact h
  -- a skipped option leaves the extensions as they are
  | @pad1 types bs hopts ih =>
    rw [List.append_assoc]
    have hread : Reads ReadStream.cursor (parseOption exts) [OptType.pad1] exts :=
      reads_parseOption_skip (hforeign _ (List.mem_cons_self ..)) SciOpt.reads_pad1
    exact Parses.step (by simp) hread (ih fun t ht => hforeign t (List.mem_cons_of_mem _ ht))
  | @option types bs data type dataLen htype hdata hopts ih =>
    rw [List.append_assoc]
    have hread := reads_parseOption_skip (hforeign _ (List.mem_cons_self ..))
      (SciOpt.reads_option htype hdata)
    exact Parses.step (by simp) hread (ih fun t ht => hforeign t (List.mem_cons_of_mem _ ht))

/-! ### What a sent extension leaves at the receiver -/

/-- `exts'` are the extensions `exts` after a parse, valid where they were or
where `sent` says so of their type. -/
def Received (exts : List (Extension S)) (sent : OptType → Bool) (exts' : List (Extension S)) :
    Prop :=
  exts'.map Extension.type = exts.map Extension.type ∧
    exts'.map Extension.isValid = exts.map fun ext => ext.isValid || sent ext.type

/-- The bytes `body` are what extensions of type `type` parse. -/
def ParsedBy (S : Type) [ExtensionClass S] (type : OptType) (body : List UInt8) : Prop :=
  ∀ ext : Extension S, ext.type = type →
    ∃ ext' : Extension S, Reads ReadStream.cursor ext.parse body ext' ∧ ext'.type = type ∧
      ext'.isValid = true

/-- The bytes `bs` of the extension `ext` are padding and then its options, of
which the first has its type and all are parsed by the extensions of that type.
Its other options have none of the types `types`. -/
def Carries (types : List OptType) (ext : Extension S) (bs : List UInt8) : Prop :=
  ∃ (padTypes inner : List OptType) (pad body : List UInt8),
    bs = pad ++ body ∧ Options padTypes pad ∧ Options (ext.type :: inner) body ∧
      (∀ t ∈ padTypes, t ∉ types) ∧ (∀ t ∈ inner, t ∉ types) ∧ ParsedBy S ext.type body

theorem Received.refl (exts : List (Extension S)) : Received exts (fun _ => false) exts :=
  ⟨rfl, by simp⟩

theorem Received.trans {exts exts₁ exts₂ : List (Extension S)} {sent₁ sent₂ : OptType → Bool}
    (h₁ : Received exts sent₁ exts₁) (h₂ : Received exts₁ sent₂ exts₂) :
    Received exts (fun t => sent₁ t || sent₂ t) exts₂ := by
  refine ⟨h₂.1.trans h₁.1, h₂.2.trans ?_⟩
  obtain ⟨htype, hvalid⟩ := h₁
  clear h₂
  induction exts generalizing exts₁ with
  | nil =>
    rw [List.map_nil, List.map_eq_nil_iff] at htype
    rw [htype, List.map_nil, List.map_nil]
  | cons ext exts ih =>
    cases exts₁ with
    | nil => cases htype
    | cons ext₁ exts₁ =>
      simp only [List.map_cons, List.cons.injEq] at htype hvalid ⊢
      exact ⟨by rw [hvalid.1, htype.1, Bool.or_assoc], ih htype.2 hvalid.2⟩

/-- An option whose type one of the extensions has is parsed by that extension. -/
theorem reads_parseMatching_some {exts : List (Extension S)} {type : OptType} {body : List UInt8}
    (hnodup : (exts.map Extension.type).Nodup) (hmem : type ∈ exts.map Extension.type)
    (hparse : ParsedBy S type body) :
    ∃ exts', Reads ReadStream.cursor (parseMatching type exts) body (some exts') ∧
      Received exts (· == type) exts' := by
  -- on the receivers: the first of the type parses, and by `hnodup` it is the only one
  induction exts with
  | nil => cases hmem
  | cons ext exts ih =>
    rw [List.map_cons, List.nodup_cons] at hnodup
    rw [List.map_cons, List.mem_cons] at hmem
    rw [parseMatching]
    by_cases htype : type = ext.type
    · obtain ⟨ext', hread, htype', hvalid⟩ := hparse ext htype.symm
      have hrest : ∀ other ∈ exts, (other.type == type) = false := by
        intro other hother
        rw [beq_eq_false_iff_ne, htype]
        intro heq
        exact hnodup.1 (heq ▸ List.mem_map_of_mem hother)
      refine ⟨ext' :: exts, ?_, ?_, ?_⟩
      · rw [if_pos htype]
        exact hread.bind_pure (g := fun ext' => some (ext' :: exts))
      · rw [List.map_cons, List.map_cons, htype', htype]
      · simp only [List.map_cons, hvalid, htype, beq_self_eq_true, Bool.or_true]
        congr 1
        refine List.map_congr_left fun other hother => ?_
        rw [← htype, hrest other hother, Bool.or_false]
    · obtain ⟨exts', hread, htypes, hvalid⟩ := ih hnodup.2 (hmem.resolve_left htype)
      refine ⟨ext :: exts', ?_, ?_, ?_⟩
      · rw [if_neg htype]
        exact hread.bind_pure (g := fun found => found.map (ext :: ·))
      · rw [List.map_cons, List.map_cons, htypes]
      · simp only [List.map_cons, hvalid, beq_eq_false_iff_ne.mpr (Ne.symm htype), Bool.or_false]

/-- The options of one extension sent, at receivers of pairwise different types. -/
theorem parses_chunk {types : List OptType} {ext : Extension S} {bs : List UInt8}
    (hcarries : Carries types ext bs) {exts : List (Extension S)}
    (hnodup : (exts.map Extension.type).Nodup)
    (htypes : ∀ t ∈ exts.map Extension.type, t ∈ types) :
    ∃ exts₁, Received exts (· == ext.type) exts₁ ∧ ∀ post exts',
      Parses exts₁ post exts' → Parses exts (bs ++ post) exts' := by
  obtain ⟨padTypes, inner, pad, body, rfl, hpad, hbody, hpadForeign, hinner, hparse⟩ := hcarries
  have hskip : ∀ t ∈ padTypes, t ∉ exts.map Extension.type :=
    fun t ht hmem => hpadForeign t ht (htypes t hmem)
  -- a receiver of this type takes the first option, any other skips the body
  obtain ⟨rest, hfirst⟩ := hbody.exists_eq_append
  by_cases hmem : ext.type ∈ exts.map Extension.type
  · obtain ⟨exts₁, hread, hreceived⟩ := reads_parseMatching_some hnodup hmem hparse
    refine ⟨exts₁, hreceived, fun post exts' hpost => ?_⟩
    rw [List.append_assoc]
    refine Parses.skip hpad hskip (Parses.step ?_ ?_ hpost)
    · rw [hfirst, List.length_append]
      simp
    · rw [hfirst] at hread ⊢
      exact reads_lookahead_bind (hread.bind_nil (Reads.pure exts₁))
  · refine ⟨exts, ?_, fun post exts' hpost => ?_⟩
    · refine ⟨rfl, List.map_congr_left fun other hother => ?_⟩
      have hne : other.type ≠ ext.type :=
        fun heq => hmem (heq ▸ List.mem_map_of_mem hother)
      simp only [beq_eq_false_iff_ne.mpr hne, Bool.or_false]
    · rw [List.append_assoc]
      refine Parses.skip hpad hskip (Parses.skip hbody ?_ hpost)
      intro t ht
      rcases List.mem_cons.mp ht with rfl | ht
      · exact hmem
      · exact fun hmem => hinner t ht (htypes t hmem)

/-- The options of the extensions sent, at receivers of pairwise different types. -/
theorem parses_chunks {types : List OptType} {sent : List (Extension S)}
    {chunks : List (List UInt8)} (hcarries : List.Forall₂ (Carries types) sent chunks)
    {exts : List (Extension S)} (hnodup : (exts.map Extension.type).Nodup)
    (htypes : ∀ t ∈ exts.map Extension.type, t ∈ types) :
    ∃ exts', Parses exts chunks.flatten exts' ∧
      Received exts (fun t => sent.any fun ext => t == ext.type) exts' := by
  induction hcarries generalizing exts with
  | nil => exact ⟨exts, Parses.nil exts, Received.refl exts⟩
  | @cons ext bs sent chunks hchunk hrest ih =>
    obtain ⟨exts₁, hreceived, hparses⟩ := parses_chunk hchunk hnodup htypes
    -- the receivers keep their types, so the next chunk finds the same
    rw [← hreceived.1] at hnodup htypes
    obtain ⟨exts', hparses', hreceived'⟩ := ih hnodup htypes
    exact ⟨exts', hparses _ _ hparses', hreceived.trans hreceived'⟩

/-- `parseExtensions` on the options of the extensions sent: valid are exactly
the extensions of a type that was sent. -/
theorem parseExtensions_chunks {types : List OptType} {sent : List (Extension S)}
    {chunks : List (List UInt8)} (hcarries : List.Forall₂ (Carries types) sent chunks)
    {exts : List (Extension S)} (hnodup : (exts.map Extension.type).Nodup)
    (htypes : ∀ t ∈ exts.map Extension.type, t ∈ types) :
    ∃ exts' s, parseExtensions exts (ReadStream.ofBuffer chunks.flatten) = .ok exts' s ∧
      exts'.map Extension.isValid =
        exts.map fun ext => sent.any fun other => ext.type == other.type := by
  have hinvalid : (exts.map Extension.setInvalid).map Extension.type
      = exts.map Extension.type := by
    rw [List.map_map]
    rfl
  rw [← hinvalid] at hnodup htypes
  obtain ⟨exts', hparses, hreceived⟩ := parses_chunks hcarries hnodup htypes
  refine ⟨exts', _, hparses [] _ (by rw [ReadStream.ofBuffer_eq]; simp), ?_⟩
  rw [hreceived.2, List.map_map]
  rfl

/-- Extensions of other types than those sent are all left invalid. -/
theorem parseExtensions_foreign {types : List OptType} {sent : List (Extension S)}
    {chunks : List (List UInt8)} (hcarries : List.Forall₂ (Carries types) sent chunks)
    {exts : List (Extension S)} (htypes : ∀ t ∈ exts.map Extension.type, t ∈ types)
    (hforeign : ∀ ext ∈ sent, ext.type ∉ exts.map Extension.type) :
    ∃ s, parseExtensions exts (ReadStream.ofBuffer chunks.flatten)
      = .ok (exts.map Extension.setInvalid) s := by
  have hinvalid : (exts.map Extension.setInvalid).map Extension.type
      = exts.map Extension.type := by
    rw [List.map_map]
    rfl
  have hparses : Parses (exts.map Extension.setInvalid) chunks.flatten
      (exts.map Extension.setInvalid) := by
    induction hcarries with
    | nil => exact Parses.nil _
    | @cons ext bs sent chunks hchunk hrest ih =>
      obtain ⟨padTypes, inner, pad, body, rfl, hpad, hbody, hpadForeign, hinner, _⟩ := hchunk
      have hhead := hforeign ext (List.mem_cons_self ..)
      rw [List.flatten_cons, List.append_assoc]
      refine Parses.skip hpad ?_ (Parses.skip hbody ?_
        (ih fun other hother => hforeign other (List.mem_cons_of_mem _ hother)))
      · rw [hinvalid]
        exact fun t ht hmem => hpadForeign t ht (htypes t hmem)
      · rw [hinvalid]
        intro t ht
        rcases List.mem_cons.mp ht with rfl | ht
        · exact hhead
        · exact fun hmem => hinner t ht (htypes t hmem)
  exact ⟨_, hparses [] _ (by rw [ReadStream.ofBuffer_eq]; simp)⟩

end Receiving

/-! ### An extension of one option -/

/-- The least that implements the interface: a single option with data that is
not interpreted. -/
structure PlainOption where
  category : Category
  type : OptType
  data : List UInt8
  deriving DecidableEq, Repr

namespace PlainOption

def bytes (opt : PlainOption) : List UInt8 :=
  [opt.type] ++ ([UInt8.ofNat opt.data.length] ++ opt.data)

instance : ExtensionClass PlainOption where
  category := PlainOption.category
  type := PlainOption.type
  size opt _ := 2 + opt.data.length
  parse ext := do
    let type ← ReadStream.serializeByte
    ensure (type == ext.data.type) "unexpected option type"
    let dataLen ← ReadStream.serializeByte
    let data ← ReadStream.serializeBytes dataLen.toNat
    pure ⟨true, { ext.data with data := data }⟩
  write opt _ := do
    WriteStream.serializeByte opt.type
    WriteStream.serializeByte (UInt8.ofNat opt.data.length)
    WriteStream.serializeBytes opt.data

theorem emits_cons {opt : PlainOption} {exts : List (Extension PlainOption)} {pos off : ℕ}
    {chunks : List (List UInt8)}
    (h : Emits exts (pos + opt.bytes.length) (off + opt.bytes.length) chunks) :
    Emits (⟨true, opt⟩ :: exts) pos off (opt.bytes :: chunks) := by
  refine Emits.cons ?_ ?_ h
  · exact ((WriteStream.writes_byte opt.type).bind ((WriteStream.writes_byte _).bind
      (WriteStream.writes_bytes opt.data))).at pos
  · rw [bytes, List.length_append, List.length_append, List.length_singleton,
      List.length_singleton, ← add_assoc]
    rfl

/-- Two options of one type differ in their data only. -/
theorem parsedBy {opt : PlainOption} (hlen : opt.data.length < 256) :
    ParsedBy PlainOption opt.type opt.bytes := by
  rintro ⟨valid, category, type, data⟩ htype
  subst htype
  refine ⟨⟨true, ⟨category, opt.type, opt.data⟩⟩, ?_, rfl, rfl⟩
  have hdata : opt.data.length = (UInt8.ofNat opt.data.length).toNat := by
    rw [UInt8.toNat_ofNat', Nat.mod_eq_of_lt hlen]
  exact (ReadStream.reads_byte opt.type).bind (Reads.ensure (beq_self_eq_true _)
    ((ReadStream.reads_byte _).bind (ReadStream.reads_bytes opt.data _ hdata).bind_pure))

theorem carries {opt : PlainOption} (htype : opt.type ≠ OptType.pad1)
    (hlen : opt.data.length < 256) (types : List OptType) (valid : Bool) :
    Carries types (⟨valid, opt⟩ : Extension PlainOption) opt.bytes := by
  have hdata : opt.data.length = (UInt8.ofNat opt.data.length).toNat := by
    rw [UInt8.toNat_ofNat', Nat.mod_eq_of_lt hlen]
  have hopts := Options.option htype hdata Options.nil
  rw [List.append_nil] at hopts
  exact ⟨[], [], [], opt.bytes, rfl, Options.nil, hopts, by simp, by simp, parsedBy hlen⟩

end PlainOption

end Scion
