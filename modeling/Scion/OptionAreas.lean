/-
Option areas from the network (`ext::parseExtensions`).

The loop of `parseExtensions` is followed round by round over an area of any bytes.

* `Round`, `Visits` — the rounds of the loop and where they begin;
* `LawfulParse` — what an extension's parser is relied on for, and `IdInt.lawfulParse`;
* `parseExtensions_eq_ok_iff` — the parse succeeds exactly when a round begins at the end;
* `parsedAsOptions_iff` — an area is taken apart into options exactly when each round ends
  where an option ends.
-/
import Scion.IdInt

namespace Scion

open Codec ReadStream

/-! ### Sequences of options -/

/-- `bs` is a sequence of complete options. -/
def WholeOptions (bs : List UInt8) : Prop := ∃ types, Options types bs

/-- One complete option: Pad1, or a type, a length and that many bytes of data. -/
inductive IsOption : List UInt8 → Prop
  | pad1 : IsOption [OptType.pad1]
  | option {type : OptType} {dataLen : UInt8} {data : List UInt8} (htype : type ≠ OptType.pad1)
      (hdata : data.length = dataLen.toNat) : IsOption ([type] ++ ([dataLen] ++ data))

/-- A complete option comes first. -/
def BeginsWithOption (post : List UInt8) : Prop := ∃ bs rest, post = bs ++ rest ∧ IsOption bs

theorem WholeOptions.nil : WholeOptions [] := ⟨[], Options.nil⟩

theorem IsOption.append {bs rest : List UInt8} (h : IsOption bs) (hrest : WholeOptions rest) :
    WholeOptions (bs ++ rest) := by
  obtain ⟨types, hopts⟩ := hrest
  cases h with
  | pad1 => exact ⟨_, Options.pad1 hopts⟩
  | option htype hdata => exact ⟨_, Options.option htype hdata hopts⟩

theorem IsOption.whole {bs : List UInt8} (h : IsOption bs) : WholeOptions bs := by
  have hall := h.append WholeOptions.nil
  rwa [List.append_nil] at hall

theorem WholeOptions.append {xs ys : List UInt8} (hx : WholeOptions xs) (hy : WholeOptions ys) :
    WholeOptions (xs ++ ys) := by
  obtain ⟨types, hopts⟩ := hx
  induction hopts with
  | nil => exact hy
  | pad1 hopts ih =>
    rw [List.append_assoc]
    exact IsOption.pad1.append ih
  | option htype hdata hopts ih =>
    rw [List.append_assoc]
    exact (IsOption.option htype hdata).append ih

/-- A sequence of options that is not empty begins with one, and the others follow. -/
theorem WholeOptions.exists_option {bs : List UInt8} (h : WholeOptions bs) (hne : bs ≠ []) :
    ∃ first rest, bs = first ++ rest ∧ IsOption first ∧ WholeOptions rest := by
  obtain ⟨types, hopts⟩ := h
  cases hopts with
  | nil => exact absurd rfl hne
  | pad1 hopts => exact ⟨_, _, rfl, IsOption.pad1, _, hopts⟩
  | option htype hdata hopts => exact ⟨_, _, rfl, IsOption.option htype hdata, _, hopts⟩

/-- What follows tells nothing about where the first option ends. -/
theorem IsOption.append_inj {xs ys bs cs : List UInt8} (hx : IsOption xs) (hy : IsOption ys)
    (h : xs ++ bs = ys ++ cs) : xs = ys ∧ bs = cs := by
  cases hx with
  | pad1 =>
    cases hy with
    | pad1 => exact ⟨rfl, List.append_cancel_left h⟩
    | option htype hdata => exact absurd (List.cons.inj h).1.symm htype
  | @option type dataLen data htype hdata =>
    cases hy with
    | pad1 => exact absurd (List.cons.inj h).1 htype
    | @option type' dataLen' data' htype' hdata' =>
      obtain ⟨rfl, htail⟩ := List.cons.inj h
      obtain ⟨rfl, hrest⟩ := List.cons.inj htail
      have hsplit : data ++ bs = data' ++ cs := hrest
      obtain ⟨rfl, rfl⟩ := List.append_inj hsplit (hdata.trans hdata'.symm)
      exact ⟨rfl, rfl⟩

/-- Options in front can be taken away. -/
theorem WholeOptions.of_append {xs ys : List UInt8} (hx : WholeOptions xs)
    (h : WholeOptions (xs ++ ys)) : WholeOptions ys := by
  obtain ⟨types, hopts⟩ := hx
  have cancel {first bs : List UInt8} (hfirst : IsOption first)
      (hall : WholeOptions (first ++ bs)) : WholeOptions bs := by
    have hne : first ++ bs ≠ [] := by
      cases hfirst <;> exact List.cons_ne_nil _ _
    obtain ⟨first', rest, heq, hfirst', hrest⟩ := hall.exists_option hne
    rwa [(hfirst.append_inj hfirst' heq).2]
  induction hopts with
  | nil => exact h
  | pad1 hopts ih =>
    rw [List.append_assoc] at h
    exact ih (cancel IsOption.pad1 h)
  | option htype hdata hopts ih =>
    rw [List.append_assoc] at h
    exact ih (cancel (IsOption.option htype hdata) h)

theorem WholeOptions.beginsWithOption {bs : List UInt8} (h : WholeOptions bs) (hne : bs ≠ []) :
    BeginsWithOption bs := by
  obtain ⟨first, rest, heq, hfirst, -⟩ := h.exists_option hne
  exact ⟨first, rest, heq, hfirst⟩

/-! ### Options passed over -/

/-- The bytes by which the loop moves for an option that no extension has: where the option is
cut off, a data length that is there is passed over and the data is not. -/
def skipped : List UInt8 → List UInt8
  | [] => []
  | [type] => [type]
  | type :: dataLen :: data =>
    if type = OptType.pad1 then [type]
    else if dataLen.toNat ≤ data.length then type :: dataLen :: data.take dataLen.toNat
    else [type, dataLen]

theorem skipped_eq {bs : List UInt8} (h : IsOption bs) (rest : List UInt8) :
    skipped (bs ++ rest) = bs := by
  cases h with
  | pad1 =>
    cases rest with
    | nil => rfl
    | cons b rest =>
      show skipped (OptType.pad1 :: b :: rest) = _
      rw [skipped, if_pos rfl]
  | @option type dataLen data htype hdata =>
    change (if type = OptType.pad1 then [type] else if dataLen.toNat ≤ (data ++ rest).length then
      type :: dataLen :: (data ++ rest).take dataLen.toNat else [type, dataLen]) = _
    rw [if_neg htype, if_pos (by rw [List.length_append]; omega), List.take_left' hdata]
    rfl

/-- The bytes that are passed over are options only if there is a complete one. -/
theorem beginsWithOption_of_skipped {post : List UInt8} (hne : post ≠ [])
    (h : WholeOptions (skipped post)) : BeginsWithOption post := by
  match post, hne, h with
  | [type], _, h => exact h.beginsWithOption (List.cons_ne_nil _ _)
  | type :: dataLen :: data, _, h =>
    rw [skipped] at h
    by_cases htype : type = OptType.pad1
    · exact ⟨[type], dataLen :: data, rfl, htype ▸ IsOption.pad1⟩
    by_cases hroom : dataLen.toNat ≤ data.length
    · have hdata : (data.take dataLen.toNat).length = dataLen.toNat := by
        rw [List.length_take, min_eq_left hroom]
      refine ⟨[type] ++ ([dataLen] ++ data.take dataLen.toNat), data.drop dataLen.toNat, ?_,
        IsOption.option htype hdata⟩
      rw [List.append_assoc, List.append_assoc, List.take_append_drop]
      rfl
    · -- the two bytes left would be an option without data
      rw [if_neg htype, if_neg hroom] at h
      obtain ⟨first, rest, heq, hfirst, -⟩ := h.exists_option (List.cons_ne_nil _ _)
      cases hfirst with
      | pad1 => exact absurd (List.cons.inj heq).1 htype
      | @option type' dataLen' data' htype' hdata' =>
        obtain ⟨-, htail⟩ := List.cons.inj heq
        obtain ⟨rfl, hnil⟩ := List.cons.inj htail
        have hsplit : data' ++ rest = [] := hnil.symm
        rw [(List.append_eq_nil_iff.mp hsplit).1, List.length_nil] at hdata'
        omega

theorem serializeByte_nil (pre : List UInt8) :
    serializeByte (cursor pre []) = .error "out of data to read" (cursor pre []) := by
  rw [serializeByte, if_neg (by simp), if_pos (by simp)]

theorem advanceBytes_short {pre post : List UInt8} {n : ℕ} (h : post.length < n) :
    advanceBytes n (cursor pre post) = .error "out of data to read" (cursor pre post) := by
  rw [advanceBytes, if_neg (by simp), skipBytes, if_pos (by rwa [remaining_cursor])]

theorem skipOption_of_read {rs s : ReadStream} {opt : SciOpt} (h : SciOpt.read rs = .ok opt s) :
    skipOption rs = .ok () s := by
  rw [skipOption, h]

/-- A failed read has moved the stream as well. -/
theorem skipOption_of_error {rs s : ReadStream} {e : String} (h : SciOpt.read rs = .error e s) :
    skipOption rs = .ok () s := by
  rw [skipOption, h]

theorem skipOption_cursor (pre : List UInt8) {post : List UInt8} (hne : post ≠ []) :
    skipOption (cursor pre post)
      = .ok () (cursor (pre ++ skipped post) (post.drop (skipped post).length)) := by
  by_cases hfirst : BeginsWithOption post
  · obtain ⟨bs, rest, rfl, hopt⟩ := hfirst
    rw [skipped_eq hopt, List.drop_left]
    cases hopt with
    | pad1 => exact reads_skipOption SciOpt.reads_pad1 pre rest
    | option htype hdata => exact reads_skipOption (SciOpt.reads_option htype hdata) pre rest
  · match post, hne, hfirst with
    | [type], _, hfirst =>
      have htype : type ≠ OptType.pad1 := fun h => hfirst ⟨[type], [], rfl, h ▸ IsOption.pad1⟩
      have hbyte : serializeByte (cursor pre [type]) = .ok type (cursor (pre ++ [type]) []) :=
        reads_byte type pre []
      refine skipOption_of_error (e := "out of data to read") ?_
      rw [SciOpt.read, bind_ok hbyte, if_pos htype]
      exact bind_error (serializeByte_nil _)
    | type :: dataLen :: data, _, hfirst =>
      have htype : type ≠ OptType.pad1 :=
        fun h => hfirst ⟨[type], dataLen :: data, rfl, h ▸ IsOption.pad1⟩
      have hshort : ¬dataLen.toNat ≤ data.length := by
        intro hroom
        refine hfirst ⟨[type] ++ ([dataLen] ++ data.take dataLen.toNat),
          data.drop dataLen.toNat, ?_, IsOption.option htype ?_⟩
        · rw [List.append_assoc, List.append_assoc, List.take_append_drop]
          rfl
        · rw [List.length_take, min_eq_left hroom]
      have hbyte : serializeByte (cursor pre (type :: dataLen :: data))
          = .ok type (cursor (pre ++ [type]) (dataLen :: data)) := reads_byte type pre _
      have hlen : serializeByte (cursor (pre ++ [type]) (dataLen :: data))
          = .ok dataLen (cursor (pre ++ [type, dataLen]) data) := by
        have hread := reads_byte dataLen (pre ++ [type]) data
        rwa [List.append_assoc] at hread
      refine skipOption_of_error (e := "out of data to read") ?_
      rw [SciOpt.read, skipped, if_neg htype, if_neg hshort]
      rw [bind_ok hbyte, if_pos htype, bind_ok hlen]
      exact bind_error (advanceBytes_short (Nat.not_le.mp hshort))

/-! ### Extensions and the first option of an area -/

section Extensions

variable {S : Type} [ExtensionClass S]

variable (S) in
/-- What the loop relies on: a parser that succeeds has read something, keeps the type of its
extension and marks it valid. -/
structure LawfulParse : Prop where
  takes : ∀ ext : Extension S, Takes cursor ext.parse fun bs ext' =>
    bs ≠ [] ∧ ext'.type = ext.type ∧ ext'.isValid = true

/-- The extension at `i` is the first of its type. -/
structure IsFirst (type : OptType) (exts : List (Extension S)) (i : ℕ) (ext : Extension S) :
    Prop where
  get : exts[i]? = some ext
  type_eq : ext.type = type
  first : type ∉ (exts.take i).map Extension.type

theorem IsFirst.mem {type : OptType} {exts : List (Extension S)} {i : ℕ} {ext : Extension S}
    (h : IsFirst type exts i ext) : type ∈ exts.map Extension.type :=
  h.type_eq ▸ List.mem_map_of_mem (List.mem_of_getElem? h.get)

theorem IsFirst.le {type : OptType} {exts : List (Extension S)} {i j : ℕ}
    {ext other : Extension S} (hi : IsFirst type exts i ext) (hj : IsFirst type exts j other) :
    j ≤ i := by
  by_contra hlt
  have hmem : ext ∈ exts.take j :=
    List.mem_of_getElem? ((List.getElem?_take_of_lt (Nat.not_le.mp hlt)).trans hi.get)
  exact hj.first (hi.type_eq ▸ List.mem_map_of_mem hmem)

theorem IsFirst.unique {type : OptType} {exts : List (Extension S)} {i j : ℕ}
    {ext other : Extension S} (hi : IsFirst type exts i ext) (hj : IsFirst type exts j other) :
    i = j := le_antisymm (hj.le hi) (hi.le hj)

theorem isFirst_cons {type : OptType} {head : Extension S} {exts : List (Extension S)} {i : ℕ}
    {ext : Extension S} (hhead : type ≠ head.type) (h : IsFirst type exts i ext) :
    IsFirst type (head :: exts) (i + 1) ext := by
  refine ⟨h.get, h.type_eq, ?_⟩
  rw [List.take_succ_cons, List.map_cons, List.mem_cons, not_or]
  exact ⟨hhead, h.first⟩

/-- An option is given to the first extension of its type, or nothing happens. -/
theorem parseMatching_eq_ok {type : OptType} {exts : List (Extension S)} {rs s : ReadStream}
    {found : Option (List (Extension S))} (h : parseMatching type exts rs = .ok found s) :
    (type ∉ exts.map Extension.type ∧ found = none ∧ s = rs) ∨
      ∃ i ext ext', IsFirst type exts i ext ∧ ext.parse rs = .ok ext' s ∧
        found = some (exts.set i ext') := by
  induction exts generalizing found with
  | nil =>
    cases h
    exact .inl ⟨List.not_mem_nil, rfl, rfl⟩
  | cons head exts ih =>
    rw [parseMatching] at h
    by_cases htype : type = head.type
    · rw [if_pos htype] at h
      obtain ⟨ext', s', hparse, hpure⟩ := bind_eq_ok.mp h
      cases hpure
      exact .inr ⟨0, head, ext', ⟨rfl, htype.symm, List.not_mem_nil⟩, hparse, rfl⟩
    · rw [if_neg htype] at h
      obtain ⟨found', s', hrest, hpure⟩ := bind_eq_ok.mp h
      cases hpure
      obtain ⟨hnone, rfl, rfl⟩ | ⟨i, ext, ext', hfirst, hparse, rfl⟩ := ih hrest
      · refine .inl ⟨?_, rfl, rfl⟩
        rw [List.map_cons, List.mem_cons, not_or]
        exact ⟨htype, hnone⟩
      · exact .inr ⟨i + 1, ext, ext', isFirst_cons htype hfirst, hparse, rfl⟩

theorem parseMatching_of_isFirst {type : OptType} {exts : List (Extension S)} {i : ℕ}
    {ext ext' : Extension S} {rs s : ReadStream} (hfirst : IsFirst type exts i ext)
    (hparse : ext.parse rs = .ok ext' s) :
    parseMatching type exts rs = .ok (some (exts.set i ext')) s := by
  induction exts generalizing i with
  | nil => exact absurd hfirst.mem List.not_mem_nil
  | cons head exts ih =>
    rw [parseMatching]
    cases i with
    | zero =>
      obtain ⟨hget, htype, -⟩ := hfirst
      cases hget
      rw [if_pos htype.symm, bind_ok hparse]
      rfl
    | succ i =>
      obtain ⟨hget, htype, hnot⟩ := hfirst
      rw [List.take_succ_cons, List.map_cons, List.mem_cons, not_or] at hnot
      rw [if_neg hnot.1, bind_ok (ih ⟨hget, htype, hnot.2⟩)]
      rfl

/-! ### Rounds of the loop -/

variable (S) in
/-- Where a round begins: the extensions so far, the bytes read and the bytes left. -/
structure Head where
  exts : List (Extension S)
  pre : List UInt8
  post : List UInt8

/-- One round of the loop leads from `h` to `h'`. -/
structure Round (h h' : Head S) : Prop where
  hasData : h.post ≠ []
  parse : parseOption h.exts (cursor h.pre h.post) = .ok h'.exts (cursor h'.pre h'.post)

/-- A parse of `area` has a round that begins at `h`, or ends there. -/
def Visits (exts : List (Extension S)) (area : List UInt8) (h : Head S) : Prop :=
  Relation.ReflTransGen Round ⟨exts.map Extension.setInvalid, [], area⟩ h

/-- In the round at `h` an option is parsed by the extension `i`. -/
def Head.ParsedBy (h : Head S) (i : ℕ) : Prop :=
  ∃ type rest ext, h.post = type :: rest ∧ IsFirst type h.exts i ext ∧
    ∃ ext' s, ext.parse (cursor h.pre h.post) = .ok ext' s

theorem cursor_inj {pre post pre' post' : List UInt8} (h : cursor pre post = cursor pre' post') :
    pre = pre' ∧ post = post' := by
  injection h with hdata hpos
  exact List.append_inj hdata hpos

theorem round_rightUnique : Relator.RightUnique (Round (S := S)) := by
  intro h a b ha hb
  have heq := ha.parse.symm.trans hb.parse
  injection heq with hexts hcursor
  obtain ⟨hpre, hpost⟩ := cursor_inj hcursor
  cases a
  cases b
  congr

theorem parseOption_cons (exts : List (Extension S)) (pre rest : List UInt8) (type : UInt8) :
    parseOption exts (cursor pre (type :: rest)) =
      (do
        let found ← parseMatching type exts
        match found with
        | some exts => pure exts
        | none => do
          skipOption
          pure exts) (cursor pre (type :: rest)) :=
  bind_ok (lookahead_some pre [type] rest 1 rfl)

/-- What a round can do: pass an option over, or give it to the first extension of its type. -/
theorem round_cases (hlaw : LawfulParse S) {h h' : Head S} (hround : Round h h') :
    ∃ type rest, h.post = type :: rest ∧
      ((type ∉ h.exts.map Extension.type ∧
        h' = ⟨h.exts, h.pre ++ skipped h.post, h.post.drop (skipped h.post).length⟩) ∨
      ∃ i ext ext' bs, IsFirst type h.exts i ext ∧
        ext.parse (cursor h.pre h.post) = .ok ext' (cursor h'.pre h'.post) ∧
        bs ≠ [] ∧ h.post = bs ++ h'.post ∧ h'.pre = h.pre ++ bs ∧
        ext'.isValid = true ∧ h'.exts = h.exts.set i ext') := by
  obtain ⟨exts, pre, post⟩ := h
  obtain ⟨exts', pre', post'⟩ := h'
  obtain ⟨hne, hparse⟩ := hround
  cases post with
  | nil => exact absurd rfl hne
  | cons type rest =>
    refine ⟨type, rest, rfl, ?_⟩
    rw [parseOption_cons] at hparse
    obtain ⟨found, s, hmatch, hrest⟩ := bind_eq_ok.mp hparse
    obtain ⟨hnone, rfl, rfl⟩ | ⟨i, ext, ext', hfirst, hown, rfl⟩ := parseMatching_eq_ok hmatch
    · refine .inl ⟨hnone, ?_⟩
      change (skipOption >>= fun _ => pure exts) _ = _ at hrest
      rw [bind_ok (skipOption_cursor pre hne)] at hrest
      injection hrest with hexts hcursor
      obtain ⟨rfl, rfl⟩ := cursor_inj hcursor
      rw [hexts]
    · cases hrest
      obtain ⟨bs, rest', hpost, hs, hbs, -, hvalid⟩ := hlaw.takes ext _ _ _ _ hown
      obtain ⟨rfl, rfl⟩ := cursor_inj hs
      exact .inr ⟨i, ext, ext', bs, hfirst, hown, hbs, hpost, rfl, hvalid, rfl⟩

theorem skipped_ne_nil {post : List UInt8} (h : post ≠ []) : skipped post ≠ [] := by
  match post, h with
  | [type], _ => exact List.cons_ne_nil _ _
  | type :: dataLen :: data, _ =>
    rw [skipped]
    split
    · exact List.cons_ne_nil _ _
    · split <;> exact List.cons_ne_nil _ _

/-- The bytes that are passed over are there. -/
theorem skipped_append (post : List UInt8) :
    skipped post ++ post.drop (skipped post).length = post := by
  match post with
  | [] => rfl
  | [type] => rfl
  | type :: dataLen :: data =>
    rw [skipped]
    split
    · rfl
    · split
      · rename_i hroom
        rw [List.length_cons, List.length_cons, List.length_take, min_eq_left hroom]
        exact congrArg (type :: dataLen :: ·) (List.take_append_drop _ _)
      · rfl

/-- A round reads some of the bytes that are left. -/
theorem Round.exists_eq_append (hlaw : LawfulParse S) {h h' : Head S} (hround : Round h h') :
    ∃ bs, bs ≠ [] ∧ h.post = bs ++ h'.post ∧ h'.pre = h.pre ++ bs := by
  obtain ⟨type, rest, hpost, ⟨-, rfl⟩ | ⟨i, ext, ext', bs, -, -, hne, hbs, hpre, -⟩⟩ :=
    round_cases hlaw hround
  · exact ⟨skipped h.post, skipped_ne_nil hround.hasData, (skipped_append _).symm, rfl⟩
  · exact ⟨bs, hne, hbs, hpre⟩

theorem Round.of_parse {h : Head S} (hlaw : LawfulParse S) (hne : h.post ≠ [])
    {exts' : List (Extension S)} {s : ReadStream}
    (hparse : parseOption h.exts (cursor h.pre h.post) = .ok exts' s) :
    ∃ h' : Head S, Round h h' ∧ exts' = h'.exts ∧ s = cursor h'.pre h'.post := by
  obtain ⟨exts, pre, post⟩ := h
  cases post with
  | nil => exact absurd rfl hne
  | cons type rest =>
    have hrun := hparse
    rw [parseOption_cons] at hparse
    obtain ⟨found, s', hmatch, hrest⟩ := bind_eq_ok.mp hparse
    obtain ⟨-, rfl, rfl⟩ | ⟨i, ext, ext', -, hown, rfl⟩ := parseMatching_eq_ok hmatch
    · change (skipOption >>= fun _ => pure exts) _ = _ at hrest
      rw [bind_ok (skipOption_cursor pre hne)] at hrest
      cases hrest
      exact ⟨⟨_, _, _⟩, ⟨hne, hrun⟩, rfl, rfl⟩
    · cases hrest
      obtain ⟨bs, rest', -, rfl, -⟩ := hlaw.takes ext _ _ _ _ hown
      exact ⟨⟨_, _, _⟩, ⟨hne, hrun⟩, rfl, rfl⟩

/-- No round begins at the end. -/
theorem eq_of_run_of_end {h h' : Head S} (hend : h.post = [])
    (hrun : Relation.ReflTransGen Round h h') : h = h' := by
  obtain heq | ⟨g, hround, -⟩ := hrun.cases_head
  · exact heq
  · exact absurd hend hround.hasData

theorem parseOptions_of_end (fuel : ℕ) {h : Head S} (hend : h.post = []) :
    parseOptions fuel h.exts (cursor h.pre h.post) = .ok h.exts (cursor h.pre []) := by
  have hdata : (cursor h.pre []).hasData = false := hasData_cursor h.pre []
  rw [hend]
  cases fuel with
  | zero =>
    show (if _ then _ else _) = _
    rw [hdata, if_neg Bool.false_ne_true]
  | succ fuel =>
    show (if _ then _ else _) = _
    rw [hdata, if_neg Bool.false_ne_true]

theorem parseOptions_eq_ok_iff_of_end (fuel : ℕ) {h : Head S} (hend : h.post = [])
    {exts' : List (Extension S)} {s : ReadStream} :
    parseOptions fuel h.exts (cursor h.pre h.post) = .ok exts' s ↔
      ∃ pre', s = cursor pre' [] ∧ Relation.ReflTransGen Round h ⟨exts', pre', []⟩ := by
  rw [parseOptions_of_end fuel hend]
  constructor
  · rintro ⟨⟩
    refine ⟨h.pre, rfl, ?_⟩
    rw [← hend]
  · rintro ⟨pre', rfl, hrun⟩
    rw [eq_of_run_of_end hend hrun]

theorem parseOptions_succ (fuel : ℕ) {h : Head S} (hne : h.post ≠ []) :
    parseOptions (fuel + 1) h.exts (cursor h.pre h.post)
      = (parseOption h.exts >>= parseOptions fuel) (cursor h.pre h.post) := by
  have hdata : (cursor h.pre h.post).hasData = true := by
    rw [hasData_cursor, Bool.not_eq_true', List.isEmpty_eq_false_iff]
    exact hne
  show (if _ then _ else _) = _
  rw [if_pos hdata]

/-- The loop succeeds exactly when a round would begin at the end of the area. -/
theorem parseOptions_eq_ok_iff (hlaw : LawfulParse S) {fuel : ℕ} {h : Head S}
    (hfuel : h.post.length ≤ fuel) {exts' : List (Extension S)} {s : ReadStream} :
    parseOptions fuel h.exts (cursor h.pre h.post) = .ok exts' s ↔
      ∃ pre', s = cursor pre' [] ∧ Relation.ReflTransGen Round h ⟨exts', pre', []⟩ := by
  induction fuel generalizing h with
  | zero =>
    exact parseOptions_eq_ok_iff_of_end 0 (List.length_eq_zero_iff.mp (Nat.le_zero.mp hfuel))
  | succ fuel ih =>
    by_cases hend : h.post = []
    · exact parseOptions_eq_ok_iff_of_end _ hend
    · have hshorter {h' : Head S} (hround : Round h h') : h'.post.length ≤ fuel := by
        obtain ⟨bs, hne, heq, -⟩ := hround.exists_eq_append hlaw
        have hpos := List.length_pos_iff.mpr hne
        rw [heq, List.length_append] at hfuel
        omega
      rw [parseOptions_succ fuel hend, bind_eq_ok]
      constructor
      · rintro ⟨exts₁, s₁, hparse, hrest⟩
        obtain ⟨h', hround, rfl, rfl⟩ := Round.of_parse hlaw hend hparse
        obtain ⟨pre', hs, hrun⟩ := (ih (hshorter hround)).mp hrest
        exact ⟨pre', hs, hrun.head hround⟩
      · rintro ⟨pre', hs, hrun⟩
        obtain heq | ⟨h', hround, hrun⟩ := hrun.cases_head
        · rw [heq] at hend
          exact absurd rfl hend
        · exact ⟨_, _, hround.parse, (ih (hshorter hround)).mpr ⟨pre', hs, hrun⟩⟩

/-- The parse succeeds exactly when it arrives at the end of the area. -/
theorem parseExtensions_eq_ok_iff (hlaw : LawfulParse S) {exts exts' : List (Extension S)}
    {area : List UInt8} {s : ReadStream} :
    parseExtensions exts (ofBuffer area) = .ok exts' s ↔
      ∃ pre', s = cursor pre' [] ∧ Visits exts area ⟨exts', pre', []⟩ := by
  have hremaining : (ofBuffer area).remaining = area.length := remaining_cursor [] area
  rw [parseExtensions, hremaining]
  exact parseOptions_eq_ok_iff (h := ⟨exts.map Extension.setInvalid, [], area⟩) hlaw le_rfl

/-- The bytes read and those left are the area, in every round. -/
theorem Visits.append_eq (hlaw : LawfulParse S) {exts : List (Extension S)} {area : List UInt8}
    {h : Head S} (hvisit : Visits exts area h) : h.pre ++ h.post = area := by
  induction hvisit with
  | refl => rfl
  | tail _ hround ih =>
    obtain ⟨bs, -, hpost, hpre⟩ := hround.exists_eq_append hlaw
    rw [hpre, List.append_assoc, ← hpost, ih]

/-! ### Which extensions are valid -/

def ValidAt (exts : List (Extension S)) (i : ℕ) : Prop :=
  ∃ ext, exts[i]? = some ext ∧ ext.isValid = true

theorem Round.validAt_iff (hlaw : LawfulParse S) {h h' : Head S} (hround : Round h h') (i : ℕ) :
    ValidAt h'.exts i ↔ ValidAt h.exts i ∨ h.ParsedBy i := by
  obtain ⟨type, rest, hpost, ⟨hnone, rfl⟩ | ⟨j, ext, ext', bs, hfirst, hown, -, -, -, hvalid, hexts⟩⟩ :=
    round_cases hlaw hround
  · refine (or_iff_left ?_).symm
    rintro ⟨type', rest', other, hpost', hother, -⟩
    rw [hpost] at hpost'
    cases hpost'
    exact hnone hother.mem
  · have hlen : j < h.exts.length := (List.getElem?_eq_some_iff.mp hfirst.get).1
    rw [hexts]
    by_cases hi : j = i
    · subst hi
      refine iff_of_true ⟨ext', ?_, hvalid⟩ (.inr ⟨type, rest, ext, hpost, hfirst, ext', _, hown⟩)
      rw [List.getElem?_set_self hlen]
    · have hset : ValidAt (h.exts.set j ext') i ↔ ValidAt h.exts i := by
        rw [ValidAt, List.getElem?_set_ne hi, ValidAt]
      rw [hset]
      refine (or_iff_left ?_).symm
      rintro ⟨type', rest', other, hpost', hother, -⟩
      rw [hpost] at hpost'
      cases hpost'
      exact hi (hfirst.unique hother)

theorem validAt_mono (hlaw : LawfulParse S) {h h' : Head S}
    (hrun : Relation.ReflTransGen Round h h') {i : ℕ} (hvalid : ValidAt h.exts i) :
    ValidAt h'.exts i := by
  induction hrun with
  | refl => exact hvalid
  | tail _ hround ih => exact (hround.validAt_iff hlaw i).mpr (.inl ih)

/-- Valid is what a round before has parsed. -/
theorem Visits.exists_parsedBy (hlaw : LawfulParse S) {exts : List (Extension S)}
    {area : List UInt8} {h : Head S} (hvisit : Visits exts area h) {i : ℕ}
    (hvalid : ValidAt h.exts i) : ∃ g, Visits exts area g ∧ g.ParsedBy i := by
  induction hvisit with
  | refl =>
    obtain ⟨ext, hget, hvalid⟩ := hvalid
    rw [List.getElem?_map] at hget
    obtain ⟨ext', -, rfl⟩ := Option.map_eq_some_iff.mp hget
    cases hvalid
  | @tail g h' hg hround ih =>
    obtain hold | hparsed := (hround.validAt_iff hlaw i).mp hvalid
    · exact ih hold
    · exact ⟨g, hg, hparsed⟩

/-- At the end of the area valid are exactly the extensions that have parsed an option. -/
theorem Visits.validAt_iff (hlaw : LawfulParse S) {exts : List (Extension S)} {area : List UInt8}
    {h : Head S} (hvisit : Visits exts area h) (hend : h.post = []) (i : ℕ) :
    ValidAt h.exts i ↔ ∃ g, Visits exts area g ∧ g.ParsedBy i := by
  refine ⟨hvisit.exists_parsedBy hlaw, ?_⟩
  rintro ⟨g, hg, hparsed⟩
  have hne : g.post ≠ [] := by
    obtain ⟨type, rest, ext, hpost, -⟩ := hparsed
    rw [hpost]
    exact List.cons_ne_nil _ _
  -- the rounds are determined, so the one at `g` comes before the end
  obtain hrun | hrun := Relation.ReflTransGen.total_of_right_unique round_rightUnique hg hvisit
  · obtain rfl | ⟨g', hround, hrun⟩ := hrun.cases_head
    · exact absurd hend hne
    · exact validAt_mono hlaw hrun ((hround.validAt_iff hlaw i).mpr (.inr hparsed))
  · exact absurd (eq_of_run_of_end hend hrun ▸ hend) hne

/-! ### Areas taken apart into options -/

/-- An area that is accepted is a sequence of options, of which the extensions that end up valid
have parsed one each at least, and whatever is looked at as the type of an option is one. -/
structure ParsedAsOptions (exts : List (Extension S)) (area : List UInt8) : Prop where
  whole : ∀ exts' s, parseExtensions exts (ofBuffer area) = .ok exts' s → WholeOptions area
  valid : ∀ exts' s, parseExtensions exts (ofBuffer area) = .ok exts' s → ∀ i,
    (ValidAt exts' i ↔ ∃ h, Visits exts area h ∧ WholeOptions h.pre ∧ h.ParsedBy i)
  boundaries : ∀ h, Visits exts area h → h.post ≠ [] → WholeOptions h.pre

/-- An option that no extension has is there as a whole, and an extension that parses one stops
at the end of an option. -/
structure Head.Sound (h : Head S) : Prop where
  passedOver : ∀ type rest, h.post = type :: rest → type ∉ h.exts.map Extension.type →
    BeginsWithOption h.post
  parsed : ∀ type rest i ext ext' bs rest', h.post = type :: rest → IsFirst type h.exts i ext →
    ext.parse (cursor h.pre h.post) = .ok ext' (cursor (h.pre ++ bs) rest') → WholeOptions bs

theorem Round.whole (hlaw : LawfulParse S) {h h' : Head S} (hround : Round h h')
    (hsound : h.Sound) (hpre : WholeOptions h.pre) : WholeOptions h'.pre := by
  obtain ⟨type, rest, hpost, ⟨hnone, rfl⟩ | ⟨i, ext, ext', bs, hfirst, hown, -, -, hpre', -⟩⟩ :=
    round_cases hlaw hround
  · obtain ⟨bs, rest', heq, hopt⟩ := hsound.passedOver type rest hpost hnone
    refine hpre.append ?_
    rw [heq, skipped_eq hopt]
    exact hopt.whole
  · rw [hpre'] at hown ⊢
    exact hpre.append (hsound.parsed type rest i ext ext' bs _ hpost hfirst hown)

/-- A round that ends where an option ends was sound. -/
theorem Head.sound_of_whole {h : Head S} (hpre : WholeOptions h.pre)
    (hnext : ∀ h', Round h h' → WholeOptions h'.pre) : h.Sound := by
  obtain ⟨exts, pre, post⟩ := h
  constructor
  · rintro type rest rfl hnone
    have hne := List.cons_ne_nil type rest
    have hround : Round (⟨exts, pre, type :: rest⟩ : Head S)
        ⟨exts, pre ++ skipped (type :: rest), (type :: rest).drop (skipped (type :: rest)).length⟩ := by
      refine ⟨hne, ?_⟩
      have hmatch := reads_parseMatching_none hnone pre (type :: rest)
      rw [List.append_nil] at hmatch
      show parseOption exts (cursor pre (type :: rest)) = _
      rw [parseOption_cons]
      exact (bind_ok hmatch).trans (bind_ok (skipOption_cursor pre hne))
    exact beginsWithOption_of_skipped hne (hpre.of_append (hnext _ hround))
  · rintro type rest i ext ext' bs rest' rfl hfirst hown
    have hround : Round (⟨exts, pre, type :: rest⟩ : Head S)
        ⟨exts.set i ext', pre ++ bs, rest'⟩ := by
      refine ⟨List.cons_ne_nil _ _, ?_⟩
      show parseOption exts (cursor pre (type :: rest)) = _
      rw [parseOption_cons]
      exact bind_ok (parseMatching_of_isFirst hfirst hown)
    exact hpre.of_append (hnext _ hround)

/-- While the rounds are sound, they begin where options begin. -/
theorem Visits.whole (hlaw : LawfulParse S) {exts : List (Extension S)} {area : List UInt8}
    (hsound : ∀ h, Visits exts area h → h.Sound) {h : Head S} (hvisit : Visits exts area h) :
    WholeOptions h.pre := by
  induction hvisit with
  | refl => exact WholeOptions.nil
  | tail hg hround ih => exact hround.whole hlaw (hsound _ hg) ih

/-- An area is taken apart into options exactly when every round is sound. -/
theorem parsedAsOptions_iff (hlaw : LawfulParse S) (exts : List (Extension S))
    (area : List UInt8) :
    ParsedAsOptions exts area ↔ ∀ h, Visits exts area h → h.Sound := by
  constructor
  · intro hparsed h hvisit
    by_cases hpost : h.post = []
    · exact ⟨fun type rest heq => absurd (hpost.symm.trans heq) (List.cons_ne_nil _ _).symm,
        fun type rest i ext ext' bs rest' heq =>
          absurd (hpost.symm.trans heq) (List.cons_ne_nil _ _).symm⟩
    · refine Head.sound_of_whole (hparsed.boundaries h hvisit hpost) fun h' hround => ?_
      have hvisit' : Visits exts area h' := hvisit.tail hround
      by_cases hpost' : h'.post = []
      · -- the parse ends here
        have harea := hvisit'.append_eq hlaw
        obtain ⟨exts', pre', post'⟩ := h'
        cases hpost'
        rw [List.append_nil] at harea
        rw [harea]
        exact hparsed.whole _ _ ((parseExtensions_eq_ok_iff hlaw).mpr ⟨_, rfl, hvisit'⟩)
      · exact hparsed.boundaries h' hvisit' hpost'
  · intro hsound
    refine ⟨?_, ?_, fun h hvisit _ => hvisit.whole hlaw hsound⟩
    · intro exts' s hparse
      obtain ⟨pre', -, hvisit⟩ := (parseExtensions_eq_ok_iff hlaw).mp hparse
      have hwhole := hvisit.whole hlaw hsound
      have harea := hvisit.append_eq hlaw
      rw [List.append_nil] at harea
      rwa [← harea]
    · intro exts' s hparse i
      obtain ⟨pre', -, hvisit⟩ := (parseExtensions_eq_ok_iff hlaw).mp hparse
      refine (hvisit.validAt_iff hlaw rfl i).trans ⟨?_, ?_⟩
      · rintro ⟨g, hg, hparsed⟩
        exact ⟨g, hg, hg.whole hlaw hsound, hparsed⟩
      · rintro ⟨g, hg, -, hparsed⟩
        exact ⟨g, hg, hparsed⟩

end Extensions

theorem IdInt.lawfulParse : LawfulParse IdInt := by
  refine ⟨fun ext => ((IdInt.takes ext.data).bind_pure
    (g := fun data => (⟨true, data⟩ : Extension IdInt))).mono ?_⟩
  rintro bs _ ⟨data, ⟨hne, -⟩, rfl⟩
  exact ⟨hne, rfl, rfl⟩

/-- The length that `IdIntOpt::size` computes counts the type and the length: a parser that goes
by it expects the option to end two bytes later than the extension's parser stops. -/
theorem IdIntOpt.not_wholeOptions_bytes {m : IdIntOpt} (h : m.dataLen.toNat = m.size) :
    ¬ WholeOptions m.bytes := by
  intro hwhole
  obtain ⟨first, rest, heq, hfirst, -⟩ := hwhole.exists_option (List.cons_ne_nil _ _)
  have hlen : m.size = first.length + rest.length := by
    rw [← m.length_bytes, heq, List.length_append]
  cases hfirst with
  | pad1 => exact absurd (List.cons.inj heq).1 (by decide)
  | @option type dataLen data htype hdata =>
    obtain ⟨rfl, -⟩ := List.cons.inj (List.cons.inj heq).2
    rw [List.length_append, List.length_append, List.length_singleton, List.length_singleton,
      hdata, h] at hlen
    omega

/-- Padding options in front of an ID-INT extension that is not there. -/
theorem parsedAsOptions_padding_iff :
    ParsedAsOptions [(⟨true, {}⟩ : Extension IdInt)] [1, 1, 0] ↔
      ∀ h, Visits [(⟨true, {}⟩ : Extension IdInt)] [1, 1, 0] h → h.Sound :=
  parsedAsOptions_iff IdInt.lawfulParse _ _

/-- An option of five bytes of data is cut off after two, which are parsed as padding. -/
theorem not_forall_parsedAsOptions :
    ¬ ∀ (exts : List (Extension IdInt)) (area : List UInt8), ParsedAsOptions exts area := by
  intro hall
  have hwhole := (hall [] [2, 5, 0, 0]).whole [] _ rfl
  obtain ⟨first, rest, heq, hfirst, -⟩ := hwhole.exists_option (List.cons_ne_nil _ _)
  cases hfirst with
  | pad1 => cases heq
  | @option type dataLen data htype hdata =>
    obtain ⟨-, htail⟩ := List.cons.inj heq
    obtain ⟨rfl, hdata'⟩ := List.cons.inj htail
    have hlen : (data ++ rest).length = 2 := congrArg List.length hdata'.symm
    rw [List.length_append, hdata, show (5 : UInt8).toNat = 5 from rfl] at hlen
    omega

end Scion
