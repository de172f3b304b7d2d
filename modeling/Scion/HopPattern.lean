/-
The patterns of hop predicates (`HopPredicate::regex`).

A pattern is matched against the text of a hop, with a space behind it or none. Where a
predicate leaves the ISD or the ASN open, the pattern leaves open all that follows.

* `HopText` — the four parts of a hop's text, of the characters they are written in;
* `reads_regex`, `mem_items` — what a pattern is read as, and its words;
* `regexMatches_iff` — the hops whose text the pattern of a predicate matches;
* `regex_iff_matchHop_iff` — they are those that the predicate matches, unless only a part
  that the pattern leaves open tells the hop apart.
-/
import Mathlib.Data.Bool.AllAny
import Scion.AsnText
import Scion.HopPredicate
import Scion.Pattern

namespace Scion

open Numerals Pattern

/-! ### The text of a hop -/

/-- The characters of AS numbers in patterns. -/
def asnChars : List Char := classChars "0-9a-f:".toList

/-- A text of the characters, not empty. -/
def Written (chars : List Char) (text : List Char) : Prop := text ≠ [] ∧ ∀ c ∈ text, c ∈ chars

theorem mem_digits {c : Char} (h : digitValue c < 10) : c ∈ digits := by
  rw [digitValue] at h
  split_ifs at h with hdigit hlower hupper
  · exact mem_interval hdigit.1 hdigit.2
  all_goals omega

theorem written_formatDecimal (n : ℕ) : Written digits (formatDecimal n) := by
  have hspells := spells_toDigits (show 1 < 10 by norm_num) (by norm_num) n
  exact ⟨hspells.ne_nil, fun c hc => mem_digits (hspells.digits c hc)⟩

theorem formatDecimal_inj {m n : ℕ} (h : formatDecimal m = formatDecimal n) : m = n := by
  have hm := spells_toDigits (show 1 < 10 by norm_num) (by norm_num) m
  have hn := spells_toDigits (show 1 < 10 by norm_num) (by norm_num) n
  rw [← formatDecimal] at hm hn
  rw [h] at hm
  exact hm.unique hn

theorem digits_subset_asnChars : digits ⊆ asnChars := by decide

theorem digitChar_mem_asnChars {d : ℕ} (h : d < 16) : d.digitChar ∈ asnChars := by
  have hall : ∀ d < 16, d.digitChar ∈ asnChars := by decide
  exact hall d h

theorem toDigits_subset_asnChars (n : ℕ) : ∀ c ∈ Nat.toDigits 16 n, c ∈ asnChars := by
  induction n using Nat.strongRecOn with
  | ind n ih =>
    intro c hc
    rw [Nat.toDigits_eq_if (by norm_num)] at hc
    split_ifs at hc with hlt
    · rw [List.mem_singleton.mp hc]
      exact digitChar_mem_asnChars hlt
    · rcases List.mem_append.mp hc with hc | hc
      · exact ih (n / 16) (by omega) c hc
      · rw [List.mem_singleton.mp hc]
        exact digitChar_mem_asnChars (Nat.mod_lt n (by norm_num))

theorem written_formatAsn (asn : UInt64) : Written asnChars (IsdAsn.formatAsn asn) := by
  rw [IsdAsn.formatAsn]
  split_ifs with hsmall
  · exact ⟨(written_formatDecimal asn.toNat).1,
      fun c hc => digits_subset_asnChars ((written_formatDecimal asn.toNat).2 c hc)⟩
  · refine ⟨by simp, fun c hc => ?_⟩
    have hcolon : ':' ∈ asnChars := by decide
    simp only [List.mem_append, List.mem_cons] at hc
    rcases hc with (hc | rfl | hc) | rfl | hc
    · exact toDigits_subset_asnChars _ c hc
    · exact hcolon
    · exact toDigits_subset_asnChars _ c hc
    · exact hcolon
    · exact toDigits_subset_asnChars _ c hc

theorem formatAsn_inj {a b : UInt64} (ha : a.toNat < 2 ^ 48) (hb : b.toNat < 2 ^ 48)
    (h : IsdAsn.formatAsn a = IsdAsn.formatAsn b) : a = b := by
  have hparse := parseAsn_formatAsn ha
  rw [h, parseAsn_formatAsn hb] at hparse
  exact (Except.ok.inj hparse).symm

/-- The parts of a hop's text. -/
structure HopText where
  isd : List Char
  asn : List Char
  ingress : List Char
  egress : List Char
  isd_written : Written digits isd
  asn_written : Written asnChars asn
  ingress_written : Written digits ingress
  egress_written : Written digits egress

def HopText.text (t : HopText) : List Char :=
  t.isd ++ '-' :: (t.asn ++ '#' :: (t.ingress ++ ',' :: t.egress))

def MetaHop.hopText (hop : MetaHop) : HopText where
  isd := formatDecimal hop.isdAsn.isd.toNat
  asn := IsdAsn.formatAsn hop.isdAsn.asn
  ingress := formatDecimal hop.ingress.toNat
  egress := formatDecimal hop.egress.toNat
  isd_written := written_formatDecimal _
  asn_written := written_formatAsn _
  ingress_written := written_formatDecimal _
  egress_written := written_formatDecimal _

theorem MetaHop.format_eq (hop : MetaHop) : hop.format = hop.hopText.text := by
  simp [format, HopText.text, hopText, IsdAsn.format]

/-- Texts whose fronts are made of some characters, up to one that is not among them. -/
theorem append_inj_of_mem {chars a a' x x' : List Char} (ha : ∀ c ∈ a, c ∈ chars)
    (ha' : ∀ c ∈ a', c ∈ chars) (hx : ∀ c ∈ x.head?, c ∉ chars) (hx' : ∀ c ∈ x'.head?, c ∉ chars)
    (h : a ++ x = a' ++ x') : a = a' ∧ x = x' := by
  induction a generalizing a' with
  | nil =>
    cases a' with
    | nil => exact ⟨rfl, h⟩
    | cons c' a' =>
      rw [List.nil_append] at h
      subst h
      exact absurd (ha' c' List.mem_cons_self) (hx c' rfl)
  | cons c a ih =>
    cases a' with
    | nil =>
      rw [List.nil_append] at h
      subst h
      exact absurd (ha c List.mem_cons_self) (hx' c rfl)
    | cons c' a' =>
      obtain ⟨rfl, htail⟩ := List.cons.inj h
      obtain ⟨rfl, hrest⟩ := ih (fun d hd => ha d (List.mem_cons_of_mem _ hd))
        (fun d hd => ha' d (List.mem_cons_of_mem _ hd)) htail
      exact ⟨rfl, hrest⟩

theorem notMem_head? {chars : List Char} {c : Char} (h : c ∉ chars) (text : List Char) :
    ∀ d ∈ (c :: text).head?, d ∉ chars := by
  intro d hd
  rwa [← Option.some.inj hd]

/-- Nothing, or one space of any kind. -/
def Gap (sp : List Char) : Prop := sp = [] ∨ ∃ c ∈ whitespace, sp = [c]

/-! ### What a pattern is read as -/

namespace HopPredicate

def isdItems (hp : HopPredicate) : List Expr :=
  if hp.isdAsn.isd = 0 then [oneOrMore (oneOf digits)]
  else (formatDecimal hp.isdAsn.isd.toNat).map .char

def asnItems (hp : HopPredicate) : List Expr :=
  if hp.isdAsn.isd = 0 ∨ hp.isdAsn.asn = 0 then [oneOrMore (oneOf asnChars)]
  else (IsdAsn.formatAsn hp.isdAsn.asn).map .char

/-- The interfaces and the comma between them. -/
def interfaceItems (hp : HopPredicate) : List Expr :=
  let number := oneOrMore (oneOf digits)
  let ingress := (formatDecimal hp.ingress.toNat).map RegularExpression.char
  if hp.isdAsn.isd = 0 ∨ hp.isdAsn.asn = 0 ∨ hp.ingress = 0 then [number, .char ',', number]
  else if hp.egress = 0 then
    [0 + concat (ingress ++ [.char ',', number]) + concat ([number, .char ','] ++ ingress)]
  else ingress ++ .char ',' :: (formatDecimal hp.egress.toNat).map .char

def items (hp : HopPredicate) : List Expr :=
  hp.isdItems ++ .char '-' :: (hp.asnItems ++ .char '#' ::
    (hp.interfaceItems ++ [optional (oneOf whitespace)]))

end HopPredicate

theorem isLiteral_of_mem {c : Char} (h : c ∈ asnChars) : IsLiteral c := by
  have hall : ∀ c ∈ asnChars, IsLiteral c := List.all_iff_forall_prop.mp (by decide)
  exact hall c h

theorem reads_formatDecimal (n : ℕ) :
    Reads (formatDecimal n) ((formatDecimal n).map RegularExpression.char) :=
  reads_literals fun c hc =>
    isLiteral_of_mem (digits_subset_asnChars ((written_formatDecimal n).2 c hc))

theorem reads_formatAsn (asn : UInt64) :
    Reads (IsdAsn.formatAsn asn) ((IsdAsn.formatAsn asn).map RegularExpression.char) :=
  reads_literals fun c hc => isLiteral_of_mem ((written_formatAsn asn).2 c hc)

theorem reads_format (a : IsdAsn) :
    Reads a.format ((formatDecimal a.isd.toNat).map RegularExpression.char
      ++ .char '-' :: (IsdAsn.formatAsn a.asn).map RegularExpression.char) := by
  have hdash : Reads ['-'] [.char '-'] := fun _ _ => ⟨_, rfl, rfl, rfl⟩
  exact (reads_formatDecimal a.isd.toNat).append (hdash.append (reads_formatAsn a.asn))

namespace HopPredicate

theorem reads_regex (hp : HopPredicate) : Reads hp.regex [0 + concat hp.items] := by
  have hgap : Reads "\\s?".toList [optional (oneOf whitespace)] := fun _ _ => ⟨_, rfl, rfl, rfl⟩
  have hnumber : Reads "\\d+".toList [oneOrMore (oneOf digits)] := fun _ _ => ⟨_, rfl, rfl, rfl⟩
  have hcomma : Reads [','] [.char ','] := fun _ _ => ⟨_, rfl, rfl, rfl⟩
  have hhash : Reads ['#'] [.char '#'] := fun _ _ => ⟨_, rfl, rfl, rfl⟩
  have hinterfaces : Reads "#\\d+,\\d+\\s?".toList [.char '#', oneOrMore (oneOf digits), .char ',',
      oneOrMore (oneOf digits), optional (oneOf whitespace)] := fun _ _ => ⟨_, rfl, rfl, rfl⟩
  have hasn : Reads "-[0-9a-f:]+".toList [.char '-', oneOrMore (oneOf asnChars)] :=
    fun _ _ => ⟨_, rfl, rfl, rfl⟩
  by_cases hisd : hp.isdAsn.isd = 0
  · have hread := ((hnumber.append hasn).append hinterfaces).group
    simpa [regex, items, isdItems, asnItems, interfaceItems, hisd] using hread
  by_cases hasn0 : hp.isdAsn.asn = 0
  · have hread := (((reads_formatDecimal hp.isdAsn.isd.toNat).append hasn).append hinterfaces).group
    simpa [regex, items, isdItems, asnItems, interfaceItems, hisd, hasn0] using hread
  by_cases hingress : hp.ingress = 0
  · have hread := ((reads_format hp.isdAsn).append hinterfaces).group
    simpa [regex, items, isdItems, asnItems, interfaceItems, hisd, hasn0, hingress] using hread
  have hig := reads_formatDecimal hp.ingress.toNat
  by_cases hegress : hp.egress = 0
  · have hchoice := (hig.append (hcomma.append hnumber)).choice ((hnumber.append hcomma).append hig)
    have hread := ((reads_format hp.isdAsn).append (hhash.append (hchoice.append hgap))).group
    simpa [regex, items, isdItems, asnItems, interfaceItems, hisd, hasn0, hingress, hegress]
      using hread
  · have hread := ((reads_format hp.isdAsn).append (hhash.append (hig.append (hcomma.append
      ((reads_formatDecimal hp.egress.toNat).append hgap))))).group
    simpa [regex, items, isdItems, asnItems, interfaceItems, hisd, hasn0, hingress, hegress]
      using hread

/-! ### The words of a pattern -/

/-- The interfaces are those that the pattern asks for. -/
def AcceptsInterfaces (hp : HopPredicate) (ingress egress : List Char) : Prop :=
  hp.isdAsn.isd ≠ 0 → hp.isdAsn.asn ≠ 0 → hp.ingress ≠ 0 →
    if hp.egress = 0 then
      ingress = formatDecimal hp.ingress.toNat ∨ egress = formatDecimal hp.ingress.toNat
    else ingress = formatDecimal hp.ingress.toNat ∧ egress = formatDecimal hp.egress.toNat

/-- The parts are those that the pattern asks for. -/
structure Accepts (hp : HopPredicate) (t : HopText) : Prop where
  isd : hp.isdAsn.isd ≠ 0 → t.isd = formatDecimal hp.isdAsn.isd.toNat
  asn : hp.isdAsn.isd ≠ 0 → hp.isdAsn.asn ≠ 0 → t.asn = IsdAsn.formatAsn hp.isdAsn.asn
  interfaces : hp.AcceptsInterfaces t.ingress t.egress

variable {hp : HopPredicate} {w : List Char}

theorem mem_isdItems :
    w ∈ (concat hp.isdItems).matches' ↔
      Written digits w ∧ (hp.isdAsn.isd ≠ 0 → w = formatDecimal hp.isdAsn.isd.toNat) := by
  rw [isdItems]
  by_cases hisd : hp.isdAsn.isd = 0
  · rw [if_pos hisd, mem_concat_singleton, mem_oneOrMore]
    exact ⟨fun h => ⟨h, fun hne => absurd hisd hne⟩, fun h => h.1⟩
  · rw [if_neg hisd, mem_literals]
    constructor
    · rintro rfl
      exact ⟨written_formatDecimal _, fun _ => rfl⟩
    · exact fun h => h.2 hisd

theorem mem_asnItems :
    w ∈ (concat hp.asnItems).matches' ↔
      Written asnChars w ∧
        (hp.isdAsn.isd ≠ 0 → hp.isdAsn.asn ≠ 0 → w = IsdAsn.formatAsn hp.isdAsn.asn) := by
  rw [asnItems]
  by_cases hopen : hp.isdAsn.isd = 0 ∨ hp.isdAsn.asn = 0
  · rw [if_pos hopen, mem_concat_singleton, mem_oneOrMore]
    exact ⟨fun h => ⟨h, fun hisd hasn => absurd hopen (not_or.mpr ⟨hisd, hasn⟩)⟩, fun h => h.1⟩
  · rw [if_neg hopen, mem_literals]
    rw [not_or] at hopen
    constructor
    · rintro rfl
      exact ⟨written_formatAsn _, fun _ _ => rfl⟩
    · exact fun h => h.2 hopen.1 hopen.2

/-- Any number in front of the items. -/
theorem mem_concat_number {es : List Expr} :
    w ∈ (concat (oneOrMore (oneOf digits) :: es)).matches' ↔
      ∃ a b, Written digits a ∧ b ∈ (concat es).matches' ∧ w = a ++ b := by
  rw [mem_concat_cons]
  simp only [mem_oneOrMore]
  rfl

theorem mem_interfaceItems :
    w ∈ (concat hp.interfaceItems).matches' ↔
      ∃ ingress egress, Written digits ingress ∧ Written digits egress ∧
        hp.AcceptsInterfaces ingress egress ∧ w = ingress ++ ',' :: egress := by
  have hig := written_formatDecimal hp.ingress.toNat
  have heg := written_formatDecimal hp.egress.toNat
  rw [interfaceItems]
  by_cases hopen : hp.isdAsn.isd = 0 ∨ hp.isdAsn.asn = 0 ∨ hp.ingress = 0
  · have hall : ∀ i e, hp.AcceptsInterfaces i e := fun i e hisd hasn hingress =>
      absurd hopen (not_or.mpr ⟨hisd, not_or.mpr ⟨hasn, hingress⟩⟩)
    rw [if_pos hopen, mem_concat_number]
    constructor
    · rintro ⟨i, b, hi, hb, rfl⟩
      obtain ⟨e, he, rfl⟩ := mem_concat_char.mp hb
      exact ⟨i, e, hi, mem_oneOrMore.mp (mem_concat_singleton.mp he), hall i e, rfl⟩
    · rintro ⟨i, e, hi, he, -, rfl⟩
      exact ⟨i, ',' :: e, hi,
        mem_concat_char.mpr ⟨e, mem_concat_singleton.mpr (mem_oneOrMore.mpr he), rfl⟩, rfl⟩
  rw [if_neg hopen]
  rw [not_or, not_or] at hopen
  by_cases hegress : hp.egress = 0
  · rw [if_pos hegress, mem_concat_singleton, mem_add, mem_zero_add, mem_concat_append,
      List.cons_append, mem_concat_number]
    constructor
    · rintro (⟨a, b, ha, hb, rfl⟩ | ⟨i, b, hi, hb, rfl⟩)
      · obtain ⟨e, he, rfl⟩ := mem_concat_char.mp hb
        obtain rfl := mem_literals.mp ha
        refine ⟨_, e, hig, mem_oneOrMore.mp (mem_concat_singleton.mp he), fun _ _ _ => ?_, rfl⟩
        rw [if_pos hegress]
        exact Or.inl rfl
      · obtain ⟨e, he, rfl⟩ := mem_concat_char.mp hb
        obtain rfl := mem_literals.mp he
        refine ⟨i, _, hi, hig, fun _ _ _ => ?_, rfl⟩
        rw [if_pos hegress]
        exact Or.inr rfl
    · rintro ⟨i, e, hi, he, haccepts, rfl⟩
      have hside := haccepts hopen.1 hopen.2.1 hopen.2.2
      rw [if_pos hegress] at hside
      rcases hside with rfl | rfl
      · exact Or.inl ⟨_, ',' :: e, mem_literals.mpr rfl,
          mem_concat_char.mpr ⟨e, mem_concat_singleton.mpr (mem_oneOrMore.mpr he), rfl⟩, rfl⟩
      · exact Or.inr ⟨i, _, hi, mem_concat_char.mpr ⟨_, mem_literals.mpr rfl, rfl⟩, rfl⟩
  · rw [if_neg hegress, mem_concat_append]
    constructor
    · rintro ⟨a, b, ha, hb, rfl⟩
      obtain ⟨e, he, rfl⟩ := mem_concat_char.mp hb
      obtain rfl := mem_literals.mp ha
      obtain rfl := mem_literals.mp he
      refine ⟨_, _, hig, heg, fun _ _ _ => ?_, rfl⟩
      rw [if_neg hegress]
      exact ⟨rfl, rfl⟩
    · rintro ⟨i, e, -, -, haccepts, rfl⟩
      have hboth := haccepts hopen.1 hopen.2.1 hopen.2.2
      rw [if_neg hegress] at hboth
      obtain ⟨rfl, rfl⟩ := hboth
      exact ⟨_, _, mem_literals.mpr rfl, mem_concat_char.mpr ⟨_, mem_literals.mpr rfl, rfl⟩, rfl⟩

/-- The words of a pattern: texts of hops, with a space or none. -/
theorem mem_items :
    w ∈ (concat hp.items).matches' ↔ ∃ t sp, hp.Accepts t ∧ Gap sp ∧ w = t.text ++ sp := by
  have hgap : ∀ sp, sp ∈ (optional (oneOf whitespace)).matches' ↔ Gap sp := fun sp => by
    rw [mem_optional, mem_oneOf, Gap]
  rw [items, mem_concat_append]
  constructor
  · rintro ⟨isd, _, hisd, hdash, rfl⟩
    obtain ⟨_, hafter, rfl⟩ := mem_concat_char.mp hdash
    obtain ⟨asn, _, hasn, hhash, rfl⟩ := mem_concat_append.mp hafter
    obtain ⟨_, hrest, rfl⟩ := mem_concat_char.mp hhash
    obtain ⟨interfaces, sp, hinterfaces, hsp, rfl⟩ := mem_concat_append.mp hrest
    obtain ⟨ingress, egress, hingress, hegress, haccepts, rfl⟩ := mem_interfaceItems.mp hinterfaces
    obtain ⟨hisdWritten, hisd⟩ := mem_isdItems.mp hisd
    obtain ⟨hasnWritten, hasn⟩ := mem_asnItems.mp hasn
    refine ⟨⟨isd, asn, ingress, egress, hisdWritten, hasnWritten, hingress, hegress⟩, sp,
      ⟨hisd, hasn, haccepts⟩, (hgap sp).mp (mem_concat_singleton.mp hsp), ?_⟩
    simp [HopText.text]
  · rintro ⟨t, sp, haccepts, hsp, rfl⟩
    have hinterfaces := mem_interfaceItems.mpr ⟨t.ingress, t.egress, t.ingress_written,
      t.egress_written, haccepts.interfaces, rfl⟩
    have hrest := mem_concat_append.mpr ⟨_, sp, hinterfaces,
      mem_concat_singleton.mpr ((hgap sp).mpr hsp), rfl⟩
    have hhash := mem_concat_char (c := '#').mpr ⟨_, hrest, rfl⟩
    have hasn := mem_concat_append.mpr
      ⟨t.asn, _, mem_asnItems.mpr ⟨t.asn_written, haccepts.asn⟩, hhash, rfl⟩
    refine ⟨t.isd, _, mem_isdItems.mpr ⟨t.isd_written, haccepts.isd⟩,
      mem_concat_char.mpr ⟨_, hasn, rfl⟩, ?_⟩
    simp [HopText.text]

end HopPredicate

/-! ### Matching one hop -/

/-- A text has its parts in one way, with a rest that starts with no digit. -/
theorem HopText.text_append_inj {t t' : HopText} {x x' : List Char}
    (hx : ∀ c ∈ x.head?, c ∉ digits) (hx' : ∀ c ∈ x'.head?, c ∉ digits)
    (h : t.text ++ x = t'.text ++ x') : t = t' ∧ x = x' := by
  have hdash := notMem_head? (show '-' ∉ digits by decide)
  have hhash := notMem_head? (show '#' ∉ asnChars by decide)
  have hcomma := notMem_head? (show ',' ∉ digits by decide)
  obtain ⟨isd, asn, ingress, egress, hisd, hasn, hingress, hegress⟩ := t
  obtain ⟨isd', asn', ingress', egress', hisd', hasn', hingress', hegress'⟩ := t'
  simp only [text, List.append_assoc, List.cons_append] at h
  obtain ⟨rfl, h₁⟩ := append_inj_of_mem hisd.2 hisd'.2 (hdash _) (hdash _) h
  obtain ⟨rfl, h₂⟩ := append_inj_of_mem hasn.2 hasn'.2 (hhash _) (hhash _) (List.cons.inj h₁).2
  obtain ⟨rfl, h₃⟩ := append_inj_of_mem hingress.2 hingress'.2 (hcomma _) (hcomma _)
    (List.cons.inj h₂).2
  obtain ⟨rfl, h₄⟩ := append_inj_of_mem hegress.2 hegress'.2 hx hx' (List.cons.inj h₃).2
  exact ⟨rfl, h₄⟩

theorem Gap.head?_notMem {sp : List Char} (h : Gap sp) : ∀ c ∈ sp.head?, c ∉ digits := by
  intro c hc
  rcases h with rfl | ⟨d, hd, rfl⟩
  · cases hc
  · have hall : ∀ c ∈ whitespace, c ∉ digits := List.all_iff_forall_prop.mp (by decide)
    exact notMem_head? (hall d hd) [] c hc

namespace HopPredicate

/-- The pattern of the predicate compiles, and matches the text. -/
def RegexMatches (hp : HopPredicate) (text : List Char) : Prop :=
  ∃ r, compile hp.regex = some r ∧ r.rmatch text = true

theorem compile_regex (hp : HopPredicate) :
    compile hp.regex = some (0 + concat [0 + concat hp.items]) :=
  compile_of_reads hp.reads_regex

theorem regexMatches_text_iff (hp : HopPredicate) (t : HopText) :
    hp.RegexMatches t.text ↔ hp.Accepts t := by
  rw [RegexMatches, compile_regex]
  simp only [Option.some.injEq, exists_eq_left', RegularExpression.rmatch_iff_matches',
    mem_zero_add, mem_concat_singleton, mem_items]
  constructor
  · rintro ⟨t', sp, haccepts, hsp, heq⟩
    rw [← List.append_nil t.text] at heq
    obtain ⟨rfl, -⟩ := HopText.text_append_inj (by simp) hsp.head?_notMem heq
    exact haccepts
  · intro haccepts
    exact ⟨t, [], haccepts, Or.inl rfl, (List.append_nil t.text).symm⟩

theorem acceptsInterfaces_iff (hp : HopPredicate) (hop : MetaHop) :
    hp.AcceptsInterfaces hop.hopText.ingress hop.hopText.egress ↔
      (hp.isdAsn.isd ≠ 0 → hp.isdAsn.asn ≠ 0 → hp.ingress ≠ 0 →
        if hp.egress = 0 then hop.ingress = hp.ingress ∨ hop.egress = hp.ingress
        else hop.ingress = hp.ingress ∧ hop.egress = hp.egress) := by
  have hinj : ∀ a b : UInt64, formatDecimal a.toNat = formatDecimal b.toNat ↔ a = b := fun a b =>
    ⟨fun h => UInt64.toNat_inj.mp (formatDecimal_inj h), fun h => h ▸ rfl⟩
  simp only [AcceptsInterfaces, MetaHop.hopText, hinj]

theorem accepts_hopText_iff (hp : HopPredicate) (hop : MetaHop) :
    hp.Accepts hop.hopText ↔
      (hp.isdAsn.isd ≠ 0 → hp.isdAsn.isd = hop.isdAsn.isd) ∧
      (hp.isdAsn.isd ≠ 0 → hp.isdAsn.asn ≠ 0 → hp.isdAsn.asn = hop.isdAsn.asn) ∧
      (hp.isdAsn.isd ≠ 0 → hp.isdAsn.asn ≠ 0 → hp.ingress ≠ 0 →
        if hp.egress = 0 then hop.ingress = hp.ingress ∨ hop.egress = hp.ingress
        else hop.ingress = hp.ingress ∧ hop.egress = hp.egress) := by
  have hasnLt : ∀ a : IsdAsn, a.asn.toNat < 2 ^ 48 := fun a => by
    rw [toNat_asn]
    omega
  constructor
  · rintro ⟨hisd, hasn, hinterfaces⟩
    refine ⟨fun h => ?_, fun h h' => ?_, (hp.acceptsInterfaces_iff hop).mp hinterfaces⟩
    · exact UInt64.toNat_inj.mp (formatDecimal_inj (hisd h).symm)
    · exact formatAsn_inj (hasnLt _) (hasnLt _) (hasn h h').symm
  · rintro ⟨hisd, hasn, hinterfaces⟩
    refine ⟨fun h => ?_, fun h h' => ?_, (hp.acceptsInterfaces_iff hop).mpr hinterfaces⟩
    · rw [hisd h]
      rfl
    · rw [hasn h h']
      rfl

/-- A hop that the predicate was made of. -/
theorem accepts_self (hp : HopPredicate) :
    hp.Accepts (MetaHop.mk hp.isdAsn hp.ingress hp.egress).hopText := by
  rw [accepts_hopText_iff]
  refine ⟨fun _ => rfl, fun _ _ => rfl, fun _ _ _ => ?_⟩
  split_ifs
  · exact Or.inl rfl
  · exact ⟨rfl, rfl⟩

/-- The interfaces that are given are not those of the hop. -/
def InterfacesDiffer (hp : HopPredicate) (hop : MetaHop) : Prop :=
  hp.ingress ≠ 0 ∧
    if hp.egress = 0 then hop.ingress ≠ hp.ingress ∧ hop.egress ≠ hp.ingress
    else hop.ingress ≠ hp.ingress ∨ hop.egress ≠ hp.egress

/-- Only what follows an open ISD or ASN tells the hop apart. -/
def OnlyRestDiffers (hp : HopPredicate) (hop : MetaHop) : Prop :=
  (hp.isdAsn.isd = 0 ∧
      (hp.isdAsn.asn ≠ 0 ∧ hp.isdAsn.asn ≠ hop.isdAsn.asn ∨ hp.InterfacesDiffer hop)) ∨
  (hp.isdAsn.isd = hop.isdAsn.isd ∧ hp.isdAsn.asn = 0 ∧ hp.InterfacesDiffer hop)

theorem not_interfacesDiffer_iff (hp : HopPredicate) (hop : MetaHop) :
    ¬ hp.InterfacesDiffer hop ↔ (hp.ingress ≠ 0 →
      if hp.egress = 0 then hop.ingress = hp.ingress ∨ hop.egress = hp.ingress
      else hop.ingress = hp.ingress ∧ hop.egress = hp.egress) := by
  rw [InterfacesDiffer]
  split_ifs
  · simp only [not_and, not_not, or_iff_not_imp_left, ne_eq]
  · simp only [not_and, not_or, not_not, ne_eq]

theorem matchHop_iff (hp : HopPredicate) (hop : MetaHop) :
    hp.matchHop hop = true ↔
      (hp.isdAsn.isd ≠ 0 → hp.isdAsn.isd = hop.isdAsn.isd) ∧
      (hp.isdAsn.asn ≠ 0 → hp.isdAsn.asn = hop.isdAsn.asn) ∧ ¬ hp.InterfacesDiffer hop := by
  rw [matchHop_eq_true_iff, not_interfacesDiffer_iff]
  constructor
  · rintro ⟨hia, hboth, hone⟩
    refine ⟨hia.isd, hia.asn, fun hingress => ?_⟩
    split_ifs with hegress
    · exact hone hingress hegress
    · exact hboth hingress hegress
  · rintro ⟨hisd, hasn, hinterfaces⟩
    refine ⟨⟨hisd, hasn⟩, fun hingress hegress => ?_, fun hingress hegress => ?_⟩
    · have h := hinterfaces hingress
      rwa [if_neg hegress] at h
    · have h := hinterfaces hingress
      rwa [if_pos hegress] at h

end HopPredicate

theorem interfacesToSeqExpr_singleton (hop : MetaHop) :
    interfacesToSeqExpr [hop] = hop.hopText.text := by
  rw [← MetaHop.format_eq]
  simp [interfacesToSeqExpr, List.intercalate]

/-- The pattern of a predicate matches the hops that the predicate matches, unless only
what follows an open ISD or ASN tells the hop apart. -/
theorem regex_iff_matchHop_iff (hp : HopPredicate) (hop : MetaHop) :
    (hp.RegexMatches (interfacesToSeqExpr [hop]) ↔ hp.matchHop hop = true) ↔
      ¬ hp.OnlyRestDiffers hop := by
  rw [interfacesToSeqExpr_singleton, HopPredicate.regexMatches_text_iff,
    HopPredicate.accepts_hopText_iff, HopPredicate.matchHop_iff, HopPredicate.OnlyRestDiffers]
  have hdiffer := hp.not_interfacesDiffer_iff hop
  constructor
  · rintro h (⟨hisd, hrest⟩ | ⟨hisd, hasn, hrest⟩)
    · obtain ⟨-, hasn, hinterfaces⟩ := h.mp ⟨fun hne => absurd hisd hne,
        fun hne => absurd hisd hne, fun hne => absurd hisd hne⟩
      rcases hrest with ⟨hne, hdiff⟩ | hrest
      · exact hdiff (hasn hne)
      · exact hinterfaces hrest
    · exact (h.mp ⟨fun _ => hisd, fun _ hne => absurd hasn hne,
        fun _ hne => absurd hasn hne⟩).2.2 hrest
  · intro h
    rw [not_or] at h
    constructor
    · rintro ⟨hisd, hasn, hinterfaces⟩
      by_cases hisd0 : hp.isdAsn.isd = 0
      · have hrest := not_or.mp fun hrest => h.1 ⟨hisd0, hrest⟩
        exact ⟨hisd, fun hne => by_contra fun hdiff => hrest.1 ⟨hne, hdiff⟩, hrest.2⟩
      · refine ⟨hisd, hasn hisd0, ?_⟩
        by_cases hasn0 : hp.isdAsn.asn = 0
        · exact fun hrest => h.2 ⟨hisd hisd0, hasn0, hrest⟩
        · exact hdiffer.mpr (hinterfaces hisd0 hasn0)
    · rintro ⟨hisd, hasn, hinterfaces⟩
      exact ⟨hisd, fun _ => hasn, fun _ _ => hdiffer.mp hinterfaces⟩

/-- `1-0#5` does not match a hop of interfaces 1 and 2 in ISD 1, but its pattern does. -/
theorem not_forall_regex_iff_matchHop :
    ¬ ∀ (hp : HopPredicate) (hop : MetaHop),
      hp.RegexMatches (interfacesToSeqExpr [hop]) ↔ hp.matchHop hop = true := by
  intro h
  have hmatch := (h ⟨IsdAsn.make 1 0, 5, 0⟩ ⟨IsdAsn.make 1 1, 1, 2⟩).mp (by
    rw [interfacesToSeqExpr_singleton, HopPredicate.regexMatches_text_iff,
      HopPredicate.accepts_hopText_iff]
    exact ⟨fun _ => by decide, fun _ hne => absurd (by decide) hne,
      fun _ hne => absurd (by decide) hne⟩)
  exact absurd hmatch (by decide)

end Scion
