/-
Sequences of hop predicates (`details::translateHopSeqExprToRegex`).

The predicates of a sequence are replaced by their patterns, and the spaces between them
are dropped. A predicate that is an ISD with interfaces is taken apart: the scanner ends it
in front of the `#`, which stays in the pattern.

* `PlainPredicate` — predicates in their text form, with what they are parsed to;
* `scanPredicate_text` — the scanner finds the end of a predicate;
* `mem_pieces` — patterns side by side match a path hop by hop;
* `plainSequence_iff` — a plain sequence matches a path hop by hop exactly if none of its
  predicates is an ISD with interfaces.
-/
import Scion.HopPattern
import Scion.PathPolicy

namespace Scion

open Numerals Pattern

/-! ### Predicates as text -/

/-- The parts of a predicate's text that are there. -/
structure PredicateText where
  isd : List Char
  asn : Option (List Char)
  interfaces : Option (List Char × Option (List Char))

namespace PredicateText

def asnText (p : PredicateText) : List Char :=
  match p.asn with
  | none => []
  | some asn => '-' :: asn

def interfacesText (p : PredicateText) : List Char :=
  match p.interfaces with
  | none => []
  | some (ingress, none) => '#' :: ingress
  | some (ingress, some egress) => '#' :: (ingress ++ ',' :: egress)

def text (p : PredicateText) : List Char := p.isd ++ (p.asnText ++ p.interfacesText)

end PredicateText

/-- A decimal number. -/
def Numeral (text : List Char) : Prop := ∃ n, Spells 10 text n

/-- A text form that is parsed. -/
structure PlainPredicate extends PredicateText where
  value : HopPredicate
  isd_numeral : Numeral isd
  asn_text : ∀ text ∈ asn, ∃ n, AsnText text n
  ingress_numeral : ∀ i ∈ interfaces, Numeral i.1
  egress_numeral : ∀ i ∈ interfaces, ∀ egress ∈ i.2, Numeral egress
  parse_text : HopPredicate.parse toPredicateText.text = .ok value

/-- The ASN is left out, but not the interfaces. -/
def PlainPredicate.IsdWithInterfaces (p : PlainPredicate) : Prop :=
  p.asn = none ∧ p.interfaces ≠ none

instance (p : PlainPredicate) : Decidable p.IsdWithInterfaces :=
  inferInstanceAs (Decidable (p.asn = none ∧ p.interfaces ≠ none))

/-- Predicates with single spaces between them. -/
def PlainPredicate.sequence (ps : List PlainPredicate) : List Char :=
  [' '].intercalate (ps.map fun p => p.text)

/-- The first text, and a space in front of each of the others. -/
theorem intercalate_space_cons (text : List Char) (texts : List (List Char)) :
    [' '].intercalate (text :: texts) = text ++ texts.flatMap fun t => ' ' :: t := by
  induction texts generalizing text with
  | nil => simp [List.intercalate]
  | cons t texts ih =>
    have hrest := ih t
    rw [List.intercalate] at hrest ⊢
    rw [List.intersperse_cons_cons, List.flatten_cons, List.flatten_cons, hrest]
    rfl

/-! ### The scanner -/

/-- No part of a predicate goes on behind it. -/
def Delimited (x : List Char) : Prop := ∀ c ∈ x.head?, c ∈ [' ', '#', ',']

theorem delimited_nil : Delimited [] := fun c hc => by cases hc

theorem delimited_cons {c : Char} (x : List Char) (h : c ∈ [' ', '#', ',']) : Delimited (c :: x) :=
  fun d hd => by rwa [← Option.some.inj hd]

theorem isDigit_of_digitValue {c : Char} (h : digitValue c < 10) : c.isDigit = true := by
  rw [digitValue] at h
  split_ifs at h with hdigit hlower hupper
  · rw [Char.isDigit, Bool.and_eq_true]
    exact ⟨decide_eq_true hdigit.1, decide_eq_true hdigit.2⟩
  all_goals omega

theorem isAsnChar_of_digitValue {c : Char} (h : digitValue c < 16) : isAsnChar c = true := by
  rw [digitValue] at h
  rw [isAsnChar]
  split_ifs at h with hdigit hlower hupper
  · rw [isDigit_of_digitValue (by rw [digitValue, if_pos hdigit]; omega)]
    rfl
  · have hle : 'a' ≤ c ∧ c ≤ 'f' := ⟨hlower.1, show c.toNat ≤ 102 by omega⟩
    simp [hle]
  · have hle : 'A' ≤ c ∧ c ≤ 'F' := ⟨hupper.1, show c.toNat ≤ 70 by omega⟩
    simp [hle]
  · omega

/-- A front of some characters, up to one that is not among them. -/
theorem dropWhile_front {p : Char → Bool} {a x : List Char} (ha : ∀ c ∈ a, p c = true)
    (hx : ∀ c ∈ x.head?, p c = false) : (a ++ x).dropWhile p = x := by
  rw [List.dropWhile_append_of_pos ha]
  cases x with
  | nil => rfl
  | cons c x => rw [List.dropWhile_cons_of_neg (by simp [hx c rfl])]

theorem takeWhile_front {p : Char → Bool} {a x : List Char} (ha : ∀ c ∈ a, p c = true)
    (hx : ∀ c ∈ x.head?, p c = false) : (a ++ x).takeWhile p = a := by
  rw [List.takeWhile_append_of_pos ha]
  cases x with
  | nil => exact List.append_nil a
  | cons c x => rw [List.takeWhile_cons_of_neg (by simp [hx c rfl]), List.append_nil]

theorem Numeral.isDigit {text : List Char} (h : Numeral text) : ∀ c ∈ text, c.isDigit = true := by
  obtain ⟨n, hspells⟩ := h
  exact fun c hc => isDigit_of_digitValue (hspells.digits c hc)

theorem Numeral.exists_cons {text : List Char} (h : Numeral text) :
    ∃ c rest, text = c :: rest ∧ c.isDigit = true := by
  obtain ⟨c, rest, rfl⟩ := List.exists_cons_of_ne_nil (h.elim fun n hspells => hspells.ne_nil)
  exact ⟨c, rest, rfl, h.isDigit c List.mem_cons_self⟩

theorem scanDigits_numeral {text x : List Char} (h : Numeral text)
    (hx : ∀ c ∈ x.head?, c.isDigit = false) : scanDigits (text ++ x) = some x := by
  obtain ⟨c, rest, rfl, hc⟩ := h.exists_cons
  rw [List.cons_append, scanDigits, if_pos hc]
  exact congrArg some (dropWhile_front (fun d hd => h.isDigit d (List.mem_cons_of_mem c hd)) hx)

theorem Delimited.isDigit {x : List Char} (h : Delimited x) : ∀ c ∈ x.head?, c.isDigit = false := by
  have hall : ∀ c ∈ [' ', '#', ','], c.isDigit = false := List.all_iff_forall_prop.mp (by decide)
  exact fun c hc => hall c (h c hc)

theorem Delimited.isAsnChar {x : List Char} (h : Delimited x) :
    ∀ c ∈ x.head?, isAsnChar c = false := by
  have hall : ∀ c ∈ [' ', '#', ','], Scion.isAsnChar c = false :=
    List.all_iff_forall_prop.mp (by decide)
  exact fun c hc => hall c (h c hc)

theorem scanChar_eq_none {c : Char} {x : List Char} (h : ∀ d ∈ x.head?, d ≠ c) :
    scanChar c x = none := by
  cases x with
  | nil => rfl
  | cons d x => exact if_neg (h d rfl)

theorem Delimited.scanChar_eq_none {x : List Char} (h : Delimited x) {c : Char}
    (hc : c ∉ [' ', '#', ',']) : scanChar c x = none :=
  Scion.scanChar_eq_none fun _ hd heq => hc (heq ▸ h _ hd)

/-- A group and what is behind it. -/
theorem scanAsnGroup_group {group x : List Char} {v : ℕ} (h : HexGroup group v)
    (hx : ∀ c ∈ x.head?, isAsnChar c = false) : scanAsnGroup (group ++ x) = some x := by
  have hall : ∀ c ∈ group, isAsnChar c = true := fun c hc =>
    isAsnChar_of_digitValue (h.1.digits c hc)
  have hpos := List.length_pos_of_ne_nil h.1.ne_nil
  have hlen : min 4 group.length = group.length := Nat.min_eq_right h.2
  rw [scanAsnGroup, takeWhile_front hall hx, hlen]
  show (if group.length = 0 then none else some ((group ++ x).drop group.length)) = some x
  rw [if_neg (by omega), List.drop_left]

/-- A decimal number is not three groups. -/
theorem scanAsn_numeral {text x : List Char} (h : Numeral text) (hx : Delimited x) :
    scanAsn (text ++ x) = none := by
  have hall : ∀ c ∈ text, isAsnChar c = true := by
    obtain ⟨n, hspells⟩ := h
    exact fun c hc => isAsnChar_of_digitValue (lt_trans (hspells.digits c hc) (by norm_num))
  have hpos : 0 < text.length := by
    obtain ⟨n, hspells⟩ := h
    exact List.length_pos_of_ne_nil hspells.ne_nil
  have hgroup : scanAsnGroup (text ++ x) = some (text.drop (min 4 text.length) ++ x) := by
    rw [scanAsnGroup, takeWhile_front hall hx.isAsnChar]
    show (if min 4 text.length = 0 then none else some ((text ++ x).drop (min 4 text.length))) = _
    rw [if_neg (by omega), List.drop_append_of_le_length (Nat.min_le_right 4 _)]
  have hcolon : scanChar ':' (text.drop (min 4 text.length) ++ x) = none := by
    apply scanChar_eq_none
    intro d hd heq
    subst heq
    cases hrest : text.drop (min 4 text.length) with
    | nil =>
      rw [hrest] at hd
      exact absurd (hx _ hd) (by decide)
    | cons c rest =>
      rw [hrest] at hd
      obtain rfl : c = ':' := Option.some.inj hd
      exact absurd (h.isDigit ':' (List.mem_of_mem_drop (hrest ▸ List.mem_cons_self))) (by decide)
  rw [scanAsn, hgroup]
  show (scanChar ':' _ >>= scanAsnGroup >>= scanChar ':' >>= scanAsnGroup) = none
  rw [hcolon]
  rfl

theorem scanAsn_groups {text x : List Char} {n : ℕ} (h : ThreeGroups text n) (hx : Delimited x) :
    scanAsn (text ++ x) = some x := by
  obtain ⟨a, b, c, v₁, v₂, v₃, rfl, ha, hb, hc, -⟩ := h
  have hcolon : ∀ y : List Char, ∀ d ∈ (':' :: y).head?, isAsnChar d = false := fun y d hd => by
    rw [← Option.some.inj hd]
    decide
  have htext : (a ++ ':' :: (b ++ ':' :: c)) ++ x = a ++ ':' :: (b ++ ':' :: (c ++ x)) := by simp
  rw [scanAsn, htext, scanAsnGroup_group ha (hcolon _)]
  show (scanAsnGroup (b ++ ':' :: (c ++ x)) >>= scanChar ':' >>= scanAsnGroup) = some x
  rw [scanAsnGroup_group hb (hcolon _)]
  exact scanAsnGroup_group hc hx.isAsnChar

theorem scan_asnText {text x : List Char} {n : ℕ} (h : AsnText text n) (hx : Delimited x) :
    (scanAsn (text ++ x) <|> scanDigits (text ++ x)) = some x := by
  rcases h with ⟨hspells, -⟩ | hgroups
  · rw [scanAsn_numeral ⟨n, hspells⟩ hx, scanDigits_numeral ⟨n, hspells⟩ hx.isDigit]
    rfl
  · rw [scanAsn_groups hgroups hx]
    rfl

/-- A number alone ends where the digits end. -/
theorem scanPredicate_numeral {text x : List Char} (h : Numeral text) (hx : Delimited x) :
    scanPredicate (text ++ x) = some x := by
  rw [scanPredicate, scanDigits_numeral h hx.isDigit]
  simp only [Option.bind_eq_bind, Option.bind_some, hx.scanChar_eq_none (by decide : '-' ∉ _),
    Option.bind_none]

theorem scanPredicate_asn {isd asn x : List Char} {n : ℕ} (h : Numeral isd) (hasn : AsnText asn n)
    (hx : Delimited x) : scanPredicate (isd ++ '-' :: (asn ++ x)) = some (scanInterfaces x) := by
  have hdash : ∀ c ∈ ('-' :: (asn ++ x)).head?, c.isDigit = false := fun c hc => by
    rw [← Option.some.inj hc]
    decide
  have hscan : (scanChar '-' ('-' :: (asn ++ x)) >>= fun text => scanAsn text <|> scanDigits text)
      = some x := scan_asnText hasn hx
  rw [scanPredicate, scanDigits_numeral h hdash]
  simp only [Option.bind_eq_bind, Option.bind_some] at hscan ⊢
  rw [hscan]

/-- What is behind a predicate: nothing, or a space. -/
def Spaced (x : List Char) : Prop := x = [] ∨ ∃ y, x = ' ' :: y

theorem Spaced.delimited {x : List Char} (h : Spaced x) : Delimited x := by
  rcases h with rfl | ⟨y, rfl⟩
  · exact delimited_nil
  · exact delimited_cons y (by decide)

theorem Spaced.scanChar_eq_none {x : List Char} (h : Spaced x) {c : Char} (hc : c ≠ ' ') :
    scanChar c x = none := by
  apply Scion.scanChar_eq_none
  rcases h with rfl | ⟨y, rfl⟩
  · exact fun d hd => by cases hd
  · exact fun d hd heq => hc (heq.symm.trans (Option.some.inj hd).symm)

namespace PlainPredicate

theorem delimited_interfacesText (p : PlainPredicate) {x : List Char} (hx : Spaced x) :
    Delimited (p.interfacesText ++ x) := by
  rw [PredicateText.interfacesText]
  rcases p.interfaces with _ | ⟨ingress, _ | egress⟩
  · exact hx.delimited
  · exact delimited_cons _ (by decide)
  · exact delimited_cons _ (by decide)

theorem scanInterfaces_text (p : PlainPredicate) {x : List Char} (hx : Spaced x) :
    scanInterfaces (p.interfacesText ++ x) = x := by
  rw [PredicateText.interfacesText]
  rcases hinterfaces : p.interfaces with _ | ⟨ingress, _ | egress⟩
  · show scanInterfaces x = x
    rw [scanInterfaces, hx.scanChar_eq_none (by decide)]
    rfl
  · have hscan := scanDigits_numeral (p.ingress_numeral _ hinterfaces) hx.delimited.isDigit
    show scanInterfaces ('#' :: (ingress ++ x)) = x
    rw [scanInterfaces]
    show (match scanDigits (ingress ++ x) with | none => _ | some rest => _) = x
    rw [hscan]
    show (match scanChar ',' x >>= scanDigits with | none => x | some rest' => rest') = x
    rw [hx.scanChar_eq_none (by decide)]
    rfl
  · have hscan := scanDigits_numeral (p.egress_numeral _ hinterfaces egress rfl) hx.delimited.isDigit
    have hcomma : Delimited (',' :: (egress ++ x)) := delimited_cons _ (by decide)
    have hscan' := scanDigits_numeral (p.ingress_numeral _ hinterfaces) hcomma.isDigit
    have htext : ('#' :: (ingress ++ ',' :: egress)) ++ x = '#' :: (ingress ++ ',' :: (egress ++ x)) := by
      simp
    show scanInterfaces (('#' :: (ingress ++ ',' :: egress)) ++ x) = x
    rw [htext, scanInterfaces]
    show (match scanDigits (ingress ++ ',' :: (egress ++ x)) with | none => _ | some rest => _) = x
    rw [hscan']
    show (match scanDigits (egress ++ x) with | none => _ | some rest' => rest') = x
    rw [hscan]

/-- The scanner finds the end of a predicate, unless that is an ISD with interfaces. -/
theorem scanPredicate_text (p : PlainPredicate) (hp : ¬ p.IsdWithInterfaces) {x : List Char}
    (hx : Spaced x) : scanPredicate (p.text ++ x) = some x := by
  rw [PredicateText.text, PredicateText.asnText]
  rcases hasn : p.asn with _ | asn
  · have hinterfaces : p.interfaces = none := by
      by_contra hne
      exact hp ⟨hasn, hne⟩
    rw [PredicateText.interfacesText, hinterfaces]
    show scanPredicate ((p.isd ++ []) ++ x) = some x
    rw [List.append_nil]
    exact scanPredicate_numeral p.isd_numeral hx.delimited
  · obtain ⟨n, htext⟩ := p.asn_text asn hasn
    have hassoc : (p.isd ++ ('-' :: asn ++ p.interfacesText)) ++ x
        = p.isd ++ '-' :: (asn ++ (p.interfacesText ++ x)) := by simp
    show scanPredicate ((p.isd ++ ('-' :: asn ++ p.interfacesText)) ++ x) = some x
    rw [hassoc, scanPredicate_asn p.isd_numeral htext (p.delimited_interfacesText hx),
      p.scanInterfaces_text hx]

theorem exists_cons_text (p : PlainPredicate) :
    ∃ c rest, p.text = c :: rest ∧ c.isDigit = true := by
  obtain ⟨c, rest, hisd, hc⟩ := p.isd_numeral.exists_cons
  exact ⟨c, rest ++ (p.asnText ++ p.interfacesText), by rw [PredicateText.text, hisd]; rfl, hc⟩

theorem sequence_cons (p : PlainPredicate) (ps : List PlainPredicate) :
    sequence (p :: ps) = p.text ++ ps.flatMap fun q => ' ' :: q.text := by
  rw [sequence, List.map_cons, intercalate_space_cons, List.flatMap_map]

theorem spaced_tail (ps : List PlainPredicate) : Spaced (ps.flatMap fun q => ' ' :: q.text) := by
  cases ps with
  | nil => exact Or.inl rfl
  | cons p ps => exact Or.inr ⟨_, rfl⟩

/-- The space in front of the predicates that are left is skipped. -/
theorem ltrim_tail (ps : List PlainPredicate) :
    ltrim (ps.flatMap fun q => ' ' :: q.text) = sequence ps := by
  cases ps with
  | nil => rfl
  | cons p ps =>
    obtain ⟨c, rest, htext, hc⟩ := p.exists_cons_text
    have hspace : isSpace c = false := by
      rw [Char.isDigit, Bool.and_eq_true] at hc
      have hge : 48 ≤ c.toNat := of_decide_eq_true hc.1
      rw [isSpace, Bool.or_eq_false_iff, Bool.and_eq_false_iff, beq_eq_false_iff_ne]
      refine ⟨?_, Or.inr (decide_eq_false (by omega))⟩
      rintro rfl
      exact absurd hge (by decide)
    rw [sequence_cons, List.flatMap_cons, htext]
    show ((c :: rest ++ _).dropWhile isSpace) = _
    rw [List.cons_append, List.dropWhile_cons_of_neg (by simp [hspace])]

end PlainPredicate

/-! ### The translation -/

section
variable {n : ℕ} {s pre token rest : List Char}

/-- One round of the loop: the token behind `pre` is replaced by its pattern. -/
theorem translatePredicates_succ (hpre : ∀ c ∈ pre, c.isDigit = false)
    (htoken : ∃ c t, token = c :: t ∧ c.isDigit = true)
    (hscan : scanPredicate (token ++ rest) = some rest) :
    translatePredicates (n + 1) s (pre ++ (token ++ rest)) = match HopPredicate.parse token with
      | .error _ => .error .syntaxError
      | .ok hp => translatePredicates n (s ++ rtrim pre ++ hp.regex) (ltrim rest) := by
  obtain ⟨c, t, rfl, hc⟩ := htoken
  have hfront : ∀ c ∈ pre, (!c.isDigit) = true := fun c hc => by rw [hpre c hc]; rfl
  have hhead : ∀ d ∈ (c :: t ++ rest).head?, (!d.isDigit) = false := fun d hd => by
    rw [← Option.some.inj hd, hc]
    rfl
  have hlen : (c :: t ++ rest).length - rest.length = (c :: t).length := by
    rw [List.length_append, Nat.add_sub_cancel]
  rw [translatePredicates, dropWhile_front hfront hhead, takeWhile_front hfront hhead]
  cases hparse : HopPredicate.parse (c :: t) with
  | error e => simp only [hscan, hlen, List.take_left, hparse]
  | ok hp => simp only [hscan, hlen, List.take_left, hparse]

end

theorem translatePredicates_nil (n : ℕ) (s : List Char) : translatePredicates n s [] = .ok s := by
  cases n with
  | zero => rw [translatePredicates, List.append_nil]
  | succ n =>
    rw [translatePredicates]
    show Except.ok (s ++ []) = Except.ok s
    rw [List.append_nil]

namespace PlainPredicate

/-- Each predicate is replaced by its pattern, and the spaces are dropped. -/
theorem translate_sequence {ps : List PlainPredicate} (hps : ∀ p ∈ ps, ¬ p.IsdWithInterfaces)
    {n : ℕ} (hn : (sequence ps).length ≤ n) (s : List Char) :
    translatePredicates n s (sequence ps) = .ok (s ++ ps.flatMap fun p => p.value.regex) := by
  induction ps generalizing n s with
  | nil => exact (translatePredicates_nil n s).trans (by rw [List.flatMap_nil, List.append_nil])
  | cons p ps ih =>
    obtain ⟨hp, hps⟩ := List.forall_mem_cons.mp hps
    obtain ⟨c, rest, htext, -⟩ := p.exists_cons_text
    have htrim := ltrim_tail ps
    have hshort : (sequence ps).length ≤ (ps.flatMap fun q => ' ' :: q.text).length := by
      rw [← htrim]
      exact List.length_dropWhile_le _ _
    rw [sequence_cons] at hn ⊢
    rw [List.length_append, htext, List.length_cons] at hn
    obtain ⟨m, rfl⟩ : ∃ m, n = m + 1 := ⟨n - 1, by omega⟩
    have hstep : translatePredicates (m + 1) s
        ([] ++ (p.text ++ ps.flatMap fun q => ' ' :: q.text)) = _ :=
      translatePredicates_succ (List.forall_mem_nil _) p.exists_cons_text
        (p.scanPredicate_text hp (spaced_tail ps))
    rw [List.nil_append, p.parse_text] at hstep
    simp only at hstep
    rw [hstep, htrim, ih hps (by omega), List.flatMap_cons]
    simp [rtrim]

end PlainPredicate

/-! ### Patterns side by side -/

/-- The part of a pattern that a predicate becomes. -/
def piece (hp : HopPredicate) : Expr := 0 + concat hp.items

theorem mem_piece {hp : HopPredicate} {w : List Char} :
    w ∈ (piece hp).matches' ↔ ∃ t sp, hp.Accepts t ∧ Gap sp ∧ w = t.text ++ sp := by
  rw [piece, mem_zero_add, HopPredicate.mem_items]

theorem reads_pieces (hps : List HopPredicate) :
    Reads (hps.flatMap HopPredicate.regex) (hps.map piece) := by
  induction hps with
  | nil => exact reads_nil
  | cons hp hps ih => exact hp.reads_regex.append ih

theorem HopText.exists_cons_text (t : HopText) : ∃ c rest, t.text = c :: rest ∧ c ∈ digits := by
  obtain ⟨c, rest, hisd⟩ := List.exists_cons_of_ne_nil t.isd_written.1
  have hc := t.isd_written.2 c (by rw [hisd]; exact List.mem_cons_self)
  exact ⟨c, rest ++ '-' :: (t.asn ++ '#' :: (t.ingress ++ ',' :: t.egress)),
    by rw [text, hisd]; rfl, hc⟩

theorem interfacesToSeqExpr_cons (hop : MetaHop) (hops : List MetaHop) :
    interfacesToSeqExpr (hop :: hops)
      = hop.hopText.text ++ hops.flatMap fun h => ' ' :: h.hopText.text := by
  have htexts : hops.map MetaHop.format = hops.map fun h => h.hopText.text :=
    List.map_congr_left fun h _ => h.format_eq
  rw [interfacesToSeqExpr, List.map_cons, intercalate_space_cons, MetaHop.format_eq, htexts,
    List.flatMap_map]

/-- What is behind the first hop. -/
theorem hopTail_cons (hop : MetaHop) (hops : List MetaHop) :
    ((hop :: hops).flatMap fun h => ' ' :: h.hopText.text)
      = ' ' :: interfacesToSeqExpr (hop :: hops) := by
  rw [interfacesToSeqExpr_cons, List.flatMap_cons]
  rfl

/-- A word of patterns side by side is empty or starts with the text of a hop. -/
theorem mem_pieces_cases {hps : List HopPredicate} {w : List Char}
    (h : w ∈ (concat (hps.map piece)).matches') :
    w = [] ∨ ∃ t : HopText, ∃ rest, w = t.text ++ rest := by
  cases hps with
  | nil => exact Or.inl (mem_concat_nil.mp h)
  | cons hp hps =>
    obtain ⟨a, b, ha, -, rfl⟩ := mem_concat_cons.mp h
    obtain ⟨t, sp, -, -, rfl⟩ := mem_piece.mp ha
    exact Or.inr ⟨t, sp ++ b, List.append_assoc _ sp b⟩

/-- A hop ends where its predicate's part of the word ends. -/
theorem text_append_gap_inj {t t' : HopText} {sp b : List Char} {hops : List MetaHop} (hsp : Gap sp)
    (hb : b = [] ∨ ∃ t : HopText, ∃ rest, b = t.text ++ rest)
    (h : t.text ++ (sp ++ b) = t'.text ++ hops.flatMap fun h => ' ' :: h.hopText.text) :
    t = t' ∧ sp ++ b = hops.flatMap fun h => ' ' :: h.hopText.text := by
  have htail : ∀ c ∈ (hops.flatMap fun h => ' ' :: h.hopText.text).head?, c ∉ digits := by
    cases hops with
    | nil => exact fun c hc => by cases hc
    | cons hop hops => exact notMem_head? (by decide) _
  rcases hsp with rfl | ⟨c, hc, rfl⟩
  · rcases hb with rfl | ⟨u, rest, rfl⟩
    · exact HopText.text_append_inj (by simp) htail h
    · -- the digits of the next ISD would go on with those of the interface
      have hwritten : Written digits (t.egress ++ u.isd) :=
        ⟨by simp [t.egress_written.1], fun c hc =>
          (List.mem_append.mp hc).elim (t.egress_written.2 c) (u.isd_written.2 c)⟩
      have hjoined : t.text ++ ([] ++ (u.text ++ rest))
          = HopText.text ⟨t.isd, t.asn, t.ingress, t.egress ++ u.isd, t.isd_written, t.asn_written,
              t.ingress_written, hwritten⟩
            ++ '-' :: (u.asn ++ '#' :: (u.ingress ++ ',' :: u.egress) ++ rest) := by
        simp [HopText.text]
      rw [hjoined] at h
      obtain ⟨-, hdash⟩ := HopText.text_append_inj (notMem_head? (by decide) _) htail h
      cases hops with
      | nil => cases hdash
      | cons hop hops =>
        rw [hopTail_cons] at hdash
        exact absurd (List.cons.inj hdash).1 (by decide)
  · have hall : ∀ c ∈ whitespace, c ∉ digits := List.all_iff_forall_prop.mp (by decide)
    exact HopText.text_append_inj (notMem_head? (hall c hc) b) htail h

/-- The patterns match a path hop by hop. -/
theorem mem_pieces {hps : List HopPredicate} {hops : List MetaHop} :
    interfacesToSeqExpr hops ∈ (concat (hps.map piece)).matches' ↔
      List.Forall₂ (fun hp hop => hp.Accepts hop.hopText) hps hops := by
  induction hps generalizing hops with
  | nil =>
    rw [List.map_nil, mem_concat_nil, List.forall₂_nil_left_iff]
    constructor
    · intro hnil
      cases hops with
      | nil => rfl
      | cons hop hops =>
        obtain ⟨c, rest, htext, -⟩ := hop.hopText.exists_cons_text
        rw [interfacesToSeqExpr_cons, htext] at hnil
        cases hnil
    · rintro rfl
      rfl
  | cons hp hps ih =>
    rw [List.map_cons, mem_concat_cons]
    constructor
    · rintro ⟨a, b, ha, hb, heq⟩
      obtain ⟨t, sp, haccepts, hsp, rfl⟩ := mem_piece.mp ha
      rw [List.append_assoc] at heq
      cases hops with
      | nil =>
        obtain ⟨c, rest, htext, -⟩ := t.exists_cons_text
        rw [htext] at heq
        cases heq
      | cons hop hops =>
        rw [interfacesToSeqExpr_cons] at heq
        obtain ⟨rfl, htail⟩ := text_append_gap_inj hsp (mem_pieces_cases hb) heq.symm
        refine List.Forall₂.cons haccepts (ih.mp ?_)
        have hrest : b = interfacesToSeqExpr hops := by
          cases hops with
          | nil => exact (List.append_eq_nil_iff.mp htail).2
          | cons next hops =>
            rw [hopTail_cons] at htail
            rcases hsp with rfl | ⟨c, -, rfl⟩
            · rcases mem_pieces_cases hb with rfl | ⟨u, rest, rfl⟩
              · cases htail
              · obtain ⟨c, text, htext, hc⟩ := u.exists_cons_text
                rw [htext] at htail
                have hspace : c = ' ' := (List.cons.inj htail).1
                rw [hspace] at hc
                exact absurd hc (by decide)
            · exact (List.cons.inj htail).2
        rwa [hrest] at hb
    · intro h
      cases h with
      | @cons _ hop _ hops haccepts hrest =>
        have hb := ih.mpr hrest
        rw [interfacesToSeqExpr_cons]
        cases hops with
        | nil =>
          exact ⟨_, _, mem_piece.mpr ⟨_, [], haccepts, Or.inl rfl, (List.append_nil _).symm⟩, hb, rfl⟩
        | cons next hops =>
          refine ⟨_, _, mem_piece.mpr ⟨_, [' '], haccepts, Or.inr ⟨' ', by decide, rfl⟩, rfl⟩, hb, ?_⟩
          rw [hopTail_cons, List.append_assoc]
          rfl

/-! ### Counting hops -/

theorem HopText.count_text (t : HopText) : t.text.count '#' = 1 := by
  have hdigits : ∀ text, Written digits text → text.count '#' = 0 := fun text h =>
    List.count_eq_zero.mpr fun hmem => absurd (h.2 _ hmem) (by decide)
  have hasn : t.asn.count '#' = 0 :=
    List.count_eq_zero.mpr fun hmem => absurd (t.asn_written.2 _ hmem) (by decide)
  rw [text, List.count_append, List.count_cons_of_ne (by decide), List.count_append,
    List.count_cons_self, List.count_append, List.count_cons_of_ne (by decide), hasn,
    hdigits _ t.isd_written, hdigits _ t.ingress_written, hdigits _ t.egress_written]

theorem count_interfacesToSeqExpr (hops : List MetaHop) :
    (interfacesToSeqExpr hops).count '#' = hops.length := by
  cases hops with
  | nil => rfl
  | cons hop hops =>
    have htail : (hops.flatMap fun h => ' ' :: h.hopText.text).count '#' = hops.length := by
      induction hops with
      | nil => rfl
      | cons next hops ih =>
        rw [List.flatMap_cons, List.count_append, List.count_cons_of_ne (by decide),
          HopText.count_text, ih, List.length_cons, Nat.add_comm]
    rw [interfacesToSeqExpr_cons, List.count_append, HopText.count_text, htail, List.length_cons,
      Nat.add_comm]

/-- The words of the pattern have `k` hashes at least. -/
def Demands (k : ℕ) (pattern : List Char) : Prop :=
  ∃ es, Reads pattern es ∧ ∀ w ∈ (concat es).matches', k ≤ w.count '#'

theorem demands_nil : Demands 0 [] := ⟨[], reads_nil, fun _ _ => Nat.zero_le _⟩

theorem Demands.mono {k k' : ℕ} {pattern : List Char} (h : Demands k pattern) (hle : k' ≤ k) :
    Demands k' pattern := by
  obtain ⟨es, hreads, hcount⟩ := h
  exact ⟨es, hreads, fun w hw => hle.trans (hcount w hw)⟩

theorem Demands.append {k k' : ℕ} {pattern pattern' : List Char} (h : Demands k pattern)
    (h' : Demands k' pattern') : Demands (k + k') (pattern ++ pattern') := by
  obtain ⟨es, hreads, hcount⟩ := h
  obtain ⟨es', hreads', hcount'⟩ := h'
  refine ⟨es ++ es', hreads.append hreads', fun w hw => ?_⟩
  obtain ⟨a, b, ha, hb, rfl⟩ := mem_concat_append.mp hw
  rw [List.count_append]
  exact Nat.add_le_add (hcount a ha) (hcount' b hb)

theorem demands_regex (hp : HopPredicate) : Demands 1 hp.regex := by
  refine ⟨_, hp.reads_regex, fun w hw => ?_⟩
  obtain ⟨t, sp, -, -, rfl⟩ := mem_piece.mp (mem_concat_singleton.mp hw)
  rw [List.count_append, HopText.count_text]
  omega

/-- A predicate with nothing in front of it. -/
theorem Demands.next {k : ℕ} {pattern : List Char} (h : Demands k pattern) (hp : HopPredicate) :
    Demands (k + 1) (pattern ++ rtrim [] ++ hp.regex) := by
  rw [show rtrim [] = [] from rfl, List.append_nil]
  exact h.append (demands_regex hp)

theorem demands_hash : Demands 1 ['#'] := by
  refine ⟨[.char '#'], fun _ _ => ⟨_, rfl, rfl, rfl⟩, fun w hw => ?_⟩
  rw [mem_char.mp (mem_concat_singleton.mp hw)]
  decide

theorem demands_comma : Demands 0 [','] :=
  ⟨[.char ','], fun _ _ => ⟨_, rfl, rfl, rfl⟩, fun _ _ => Nat.zero_le _⟩

/-- The translation fails, or its words have `k` hashes at least. -/
def FailsOrDemands (k : ℕ) : Maybe (List Char) → Prop
  | .error _ => True
  | .ok pattern => Demands k pattern

theorem FailsOrDemands.of_eq_ok {k : ℕ} {m : Maybe (List Char)} {pattern : List Char}
    (h : FailsOrDemands k m) (hok : m = .ok pattern) : Demands k pattern := by
  rwa [hok] at h

/-- One round, whether the token is parsed or not. -/
theorem failsOrDemands_succ {n k : ℕ} {s token rest : List Char} (pre : List Char)
    (hpre : ∀ c ∈ pre, c.isDigit = false) (htoken : ∃ c t, token = c :: t ∧ c.isDigit = true)
    (hscan : scanPredicate (token ++ rest) = some rest)
    (hnext : ∀ hp : HopPredicate,
      FailsOrDemands k (translatePredicates n (s ++ rtrim pre ++ hp.regex) (ltrim rest))) :
    FailsOrDemands k (translatePredicates (n + 1) s (pre ++ (token ++ rest))) := by
  rw [translatePredicates_succ hpre htoken hscan]
  rcases HopPredicate.parse token with e | hp
  · trivial
  · exact hnext hp

namespace PlainPredicate

/-- The interfaces of an ISD are taken for further predicates, behind what is left of the
predicate's text. -/
theorem failsOrDemands_interfaces (p : PlainPredicate) (hp : p.IsdWithInterfaces)
    {n j k : ℕ} {s x : List Char} (hs : Demands j s) (hx : Spaced x)
    (hn : (p.interfacesText ++ x).length ≤ n)
    (hnext : ∀ m s', x.length ≤ m → Demands (j + 1) s' →
      FailsOrDemands k (translatePredicates m s' (ltrim x))) :
    FailsOrDemands k (translatePredicates n s (p.interfacesText ++ x)) := by
  have hhash : ∀ c ∈ ['#'], c.isDigit = false := List.all_iff_forall_prop.mp (by decide)
  have hcomma : ∀ c ∈ [','], c.isDigit = false := List.all_iff_forall_prop.mp (by decide)
  rw [PredicateText.interfacesText] at hn ⊢
  rcases hinterfaces : p.interfaces with _ | ⟨ingress, _ | egress⟩
  · exact absurd hinterfaces hp.2
  · have hingress := p.ingress_numeral _ hinterfaces
    rw [hinterfaces] at hn
    obtain ⟨m, rfl⟩ : ∃ m, n = m + 1 :=
      ⟨n - 1, by simp only [List.cons_append, List.length_cons] at hn; omega⟩
    simp only [List.cons_append, List.length_cons, List.length_append] at hn
    refine failsOrDemands_succ _ hhash hingress.exists_cons
      (scanPredicate_numeral hingress hx.delimited) fun hp' => ?_
    have hdemands := (hs.append demands_hash).append (demands_regex hp')
    exact hnext m _ (by omega) (hdemands.mono (by omega))
  · have hingress := p.ingress_numeral _ hinterfaces
    have hegress := p.egress_numeral _ hinterfaces egress rfl
    have hdelimited : Delimited (',' :: (egress ++ x)) := delimited_cons _ (by decide)
    rw [hinterfaces] at hn
    simp only [List.cons_append, List.length_cons, List.length_append] at hn
    obtain ⟨m, rfl⟩ : ∃ m, n = m + 2 := ⟨n - 2, by omega⟩
    have htext : ('#' :: (ingress ++ ',' :: egress)) ++ x
        = ['#'] ++ (ingress ++ ',' :: (egress ++ x)) := by simp
    show FailsOrDemands k (translatePredicates (m + 2) s (('#' :: (ingress ++ ',' :: egress)) ++ x))
    rw [htext]
    refine failsOrDemands_succ _ hhash hingress.exists_cons
      (scanPredicate_numeral hingress hdelimited) fun hp' => ?_
    refine failsOrDemands_succ _ hcomma hegress.exists_cons
      (scanPredicate_numeral hegress hx.delimited) fun hp'' => ?_
    have hdemands := (((hs.append demands_hash).append (demands_regex hp')).append
      demands_comma).append (demands_regex hp'')
    exact hnext m _ (by omega) (hdemands.mono (by omega))

/-- There are at least as many hashes as predicates, and more with each ISD that has
interfaces. -/
theorem failsOrDemands_sequence (ps : List PlainPredicate) {n j : ℕ} {s : List Char}
    (hs : Demands j s) (hn : (sequence ps).length ≤ n) :
    FailsOrDemands (j + ps.length + ps.countP fun p => decide p.IsdWithInterfaces)
      (translatePredicates n s (sequence ps)) := by
  induction ps generalizing n j s with
  | nil =>
    rw [show sequence [] = [] from rfl, translatePredicates_nil]
    exact hs
  | cons p ps ih =>
    obtain ⟨c, rest, htext, -⟩ := p.exists_cons_text
    have htrim := ltrim_tail ps
    have htail := spaced_tail ps
    have hshort : (sequence ps).length ≤ (ps.flatMap fun q => ' ' :: q.text).length := by
      rw [← htrim]
      exact List.length_dropWhile_le _ _
    rw [sequence_cons] at hn ⊢
    have hlength := hn
    rw [List.length_append, htext, List.length_cons] at hlength
    obtain ⟨m, rfl⟩ : ∃ m, n = m + 1 := ⟨n - 1, by omega⟩
    by_cases hp : p.IsdWithInterfaces
    · have hsplit : p.text ++ (ps.flatMap fun q => ' ' :: q.text)
          = p.isd ++ (p.interfacesText ++ ps.flatMap fun q => ' ' :: q.text) := by
        rw [PredicateText.text, PredicateText.asnText, hp.1, List.nil_append, List.append_assoc]
      obtain ⟨c', rest', hisd, -⟩ := p.isd_numeral.exists_cons
      rw [hsplit, List.length_append, hisd, List.length_cons] at hn
      rw [hsplit, List.countP_cons_of_pos (by simpa using hp)]
      refine failsOrDemands_succ [] (List.forall_mem_nil _) p.isd_numeral.exists_cons
        (scanPredicate_numeral p.isd_numeral (p.delimited_interfacesText htail)) fun hp' => ?_
      have hkeep : ltrim (p.interfacesText ++ ps.flatMap fun q => ' ' :: q.text)
          = p.interfacesText ++ ps.flatMap fun q => ' ' :: q.text := by
        rw [PredicateText.interfacesText]
        rcases hinterfaces : p.interfaces with _ | ⟨ingress, _ | egress⟩
        · exact absurd hinterfaces hp.2
        · rfl
        · rfl
      rw [hkeep]
      refine p.failsOrDemands_interfaces hp (hs.next hp') htail (by omega)
        fun m' s' hm hs' => ?_
      rw [htrim]
      have hih := ih hs' (show (sequence ps).length ≤ m' by omega)
      rw [List.length_cons]
      rwa [show j + 1 + 1 + ps.length + (ps.countP fun p => decide p.IsdWithInterfaces)
        = j + (ps.length + 1) + ((ps.countP fun p => decide p.IsdWithInterfaces) + 1) by omega] at hih
    · rw [List.countP_cons_of_neg (by simpa using hp)]
      refine failsOrDemands_succ [] (List.forall_mem_nil _) p.exists_cons_text
        (p.scanPredicate_text hp htail) fun hp' => ?_
      rw [htrim]
      have hih := ih (hs.next hp') (show (sequence ps).length ≤ m by omega)
      rw [List.length_cons]
      rwa [show j + 1 + ps.length = j + (ps.length + 1) by omega] at hih

end PlainPredicate

/-! ### Matching paths -/

/-- The expression of the sequence is built, and matches the path. -/
def SequenceMatches (seq : List Char) (hops : List MetaHop) : Prop :=
  ∃ r, translateHopSeqExprToRegex compile seq = .ok r ∧ r.rmatch (interfacesToSeqExpr hops) = true

/-- There is a hop for each predicate, and the predicate's pattern matches it. -/
def MatchesHopByHop (ps : List PlainPredicate) (hops : List MetaHop) : Prop :=
  List.Forall₂ (fun p hop => p.value.RegexMatches hop.format) ps hops

theorem sequenceMatches_iff_of_reads {seq pattern : List Char} {es : List Expr}
    (h : translatePredicates seq.length [] seq = .ok pattern) (hreads : Reads pattern es)
    (hops : List MetaHop) :
    SequenceMatches seq hops ↔ interfacesToSeqExpr hops ∈ (concat es).matches' := by
  have htranslate : translateHopSeqExprToRegex compile seq = .ok (0 + concat es) := by
    rw [translateHopSeqExprToRegex, h]
    simp only [bind, Except.bind, compile_of_reads hreads]
  rw [SequenceMatches, htranslate]
  simp only [Except.ok.injEq, exists_eq_left', RegularExpression.rmatch_iff_matches', mem_zero_add]

theorem matchesHopByHop_iff (ps : List PlainPredicate) (hops : List MetaHop) :
    MatchesHopByHop ps hops ↔
      List.Forall₂ (fun hp hop => hp.Accepts hop.hopText) (ps.map PlainPredicate.value) hops := by
  rw [MatchesHopByHop, List.forall₂_map_left_iff]
  simp only [MetaHop.format_eq, HopPredicate.regexMatches_text_iff]

theorem sequenceMatches_iff {ps : List PlainPredicate} (hps : ∀ p ∈ ps, ¬ p.IsdWithInterfaces)
    (hops : List MetaHop) :
    SequenceMatches (PlainPredicate.sequence ps) hops ↔ MatchesHopByHop ps hops := by
  have htranslate := PlainPredicate.translate_sequence hps (le_refl _) []
  have hreads := reads_pieces (ps.map PlainPredicate.value)
  rw [List.flatMap_map] at hreads
  rw [List.nil_append] at htranslate
  rw [sequenceMatches_iff_of_reads htranslate hreads, mem_pieces, matchesHopByHop_iff]

/-- The hops that the predicates were made of match hop by hop. -/
theorem matchesHopByHop_self (ps : List PlainPredicate) :
    MatchesHopByHop ps (ps.map fun p => ⟨p.value.isdAsn, p.value.ingress, p.value.egress⟩) := by
  rw [matchesHopByHop_iff, List.forall₂_map_left_iff, List.forall₂_map_right_iff,
    List.forall₂_same]
  exact fun p _ => p.value.accepts_self

/-- With an ISD that has interfaces, no path of as many hops as there are predicates is
matched. -/
theorem not_sequenceMatches {ps : List PlainPredicate} {p : PlainPredicate} (hmem : p ∈ ps)
    (hp : p.IsdWithInterfaces) {hops : List MetaHop} (hlen : hops.length = ps.length) :
    ¬ SequenceMatches (PlainPredicate.sequence ps) hops := by
  rintro ⟨r, htranslate, hmatch⟩
  have hdemands := PlainPredicate.failsOrDemands_sequence ps demands_nil (le_refl _)
  rcases hpattern : translatePredicates (PlainPredicate.sequence ps).length []
    (PlainPredicate.sequence ps) with ec | pattern
  · rw [translateHopSeqExprToRegex, hpattern] at htranslate
    cases htranslate
  · obtain ⟨es, hreads, hcount⟩ := hdemands.of_eq_ok hpattern
    have hword := (sequenceMatches_iff_of_reads hpattern hreads hops).mp ⟨r, htranslate, hmatch⟩
    have hle := hcount _ hword
    have hpos : 0 < ps.countP fun p => decide p.IsdWithInterfaces :=
      List.countP_pos_iff.mpr ⟨p, hmem, decide_eq_true hp⟩
    rw [count_interfacesToSeqExpr] at hle
    omega

/-- A sequence of plain predicates matches the paths that its predicates match hop by hop,
unless one of them is an ISD with interfaces. -/
theorem plainSequence_iff (ps : List PlainPredicate) :
    (∀ hops, SequenceMatches (PlainPredicate.sequence ps) hops ↔ MatchesHopByHop ps hops) ↔
      ∀ p ∈ ps, ¬ p.IsdWithInterfaces := by
  constructor
  · intro h p hmem hp
    exact not_sequenceMatches hmem hp (List.length_map _) ((h _).mpr (matchesHopByHop_self ps))
  · exact fun hps hops => sequenceMatches_iff hps hops

/-- `1#2` matches a hop of ISD 1, but the sequence of it alone does not match the path. -/
theorem not_forall_plainSequence :
    ¬ ∀ (ps : List PlainPredicate) (hops : List MetaHop),
      SequenceMatches (PlainPredicate.sequence ps) hops ↔ MatchesHopByHop ps hops := by
  intro h
  have hone : Numeral ['1'] := ⟨1, by simp, List.forall_mem_singleton.mpr (by decide), rfl⟩
  have htwo : Numeral ['2'] := ⟨2, by simp, List.forall_mem_singleton.mpr (by decide), rfl⟩
  let p : PlainPredicate :=
    { isd := ['1'], asn := none, interfaces := some (['2'], none),
      value := ⟨IsdAsn.make 1 0, 2, 0⟩, isd_numeral := hone
      asn_text := fun _ htext => by cases htext
      ingress_numeral := fun i hi => by rwa [← Option.some.inj hi]
      egress_numeral := fun i hi e he => by
        rw [← Option.some.inj hi] at he
        cases he
      parse_text := rfl }
  exact not_sequenceMatches (List.mem_singleton_self p) ⟨rfl, nofun⟩ rfl
    ((h [p] _).mpr (matchesHopByHop_self [p]))

end Scion
