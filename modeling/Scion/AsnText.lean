/-
AS numbers as text (`addr/isd_asn.cpp`).

An ASN is written as a decimal number or as three groups of up to four hexadecimal
digits. The parser counts two groups as enough and looks at the value of a group where
its length is meant.

* `AsnText` — the texts of a number as they are documented;
* `parseAsn_eq_ok_iff` — the texts that are parsed, and to what;
* `parseAsn_iff` — the two agree on all texts but those of `LooseGroups`;
* `parse_format` — an ISD-ASN is read back from its text.
-/
import Scion.AddressText

namespace Scion

open Numerals

/-! ### Hexadecimal groups -/

/-- What the parser takes for a group: a numeral of 16 bits, of any length. -/
def HexField (group : List Char) (v : ℕ) : Prop := Spells 16 group v ∧ v < 2 ^ 16

/-- One to four hexadecimal digits. -/
def HexGroup (group : List Char) (v : ℕ) : Prop := Spells 16 group v ∧ group.length ≤ 4

theorem HexGroup.field {group : List Char} {v : ℕ} (h : HexGroup group v) : HexField group v :=
  ⟨h.1, lt_of_lt_of_le h.1.lt (Nat.pow_le_pow_right (by norm_num) h.2 : 16 ^ _ ≤ 16 ^ 4)⟩

theorem HexField.group {group : List Char} {v : ℕ} (h : HexField group v)
    (hlen : group.length ≤ 4) : HexGroup group v :=
  ⟨h.1, hlen⟩

/-- The number in groups from position `i` on. -/
def groupsValue : ℕ → List ℕ → ℕ
  | _, [] => 0
  | i, v :: vs => v * 2 ^ (16 * (2 - i)) + groupsValue (i + 1) vs

theorem groupsValue_lt {groups : List (List Char)} {vs : List ℕ} {i : ℕ}
    (h : List.Forall₂ HexField groups vs) (hlen : i + vs.length ≤ 3) :
    groupsValue i vs < 2 ^ (16 * (3 - i)) := by
  induction h generalizing i with
  | nil => exact Nat.two_pow_pos _
  | @cons _ v _ vs hfield _ ih =>
    rw [List.length_cons] at hlen
    have hrest := ih (show i + 1 + vs.length ≤ 3 by omega)
    have hshift : 16 * (3 - (i + 1)) = 16 * (2 - i) := by omega
    rw [hshift] at hrest
    have hv := hfield.2
    calc groupsValue i (v :: vs) < v * 2 ^ (16 * (2 - i)) + 2 ^ (16 * (2 - i)) := by
          rw [groupsValue]
          omega
      _ = (v + 1) * 2 ^ (16 * (2 - i)) := (Nat.succ_mul _ _).symm
      _ ≤ 2 ^ 16 * 2 ^ (16 * (2 - i)) := Nat.mul_le_mul_right _ hv
      _ = 2 ^ (16 * (3 - i)) := by
          rw [← pow_add]
          congr 1
          omega

theorem parseNumber_eq_ok_iff {base bound : ℕ} {text : List Char} {n : ℕ} :
    parseNumber base bound text = .ok n ↔ Spells base text n ∧ n < bound := by
  rw [← fromChars_eq_iff, parseNumber]
  split
  · next h => simp [h]
  · next m h => simp [h]
  · next h => simp [h]

/-- A group put below the bits of the groups before it. -/
theorem toNat_or_group {asn : UInt64} {v i : ℕ} (hv : v < 2 ^ 16) (hi : i ≤ 2)
    (hasn : asn.toNat % 2 ^ (16 * (3 - i)) = 0) :
    (asn ||| (UInt64.ofNat v <<< UInt64.ofNat (16 * (2 - i)))).toNat
      = asn.toNat + v * 2 ^ (16 * (2 - i)) := by
  have hk : (UInt64.ofNat (16 * (2 - i))).toNat = 16 * (2 - i) := by
    rw [UInt64.toNat_ofNat', Nat.mod_eq_of_lt (by omega)]
  have hval : (UInt64.ofNat v).toNat = v := by
    rw [UInt64.toNat_ofNat', Nat.mod_eq_of_lt (by omega)]
  have hpow : v * 2 ^ (16 * (2 - i)) < 2 ^ (16 * (3 - i)) := by
    rw [show 16 * (3 - i) = 16 + 16 * (2 - i) by omega, pow_add]
    exact Nat.mul_lt_mul_of_pos_right hv (by positivity)
  have hsmall : 2 ^ (16 * (3 - i)) ≤ 2 ^ 64 := Nat.pow_le_pow_right (by norm_num) (by omega)
  have hshift : (UInt64.ofNat v <<< UInt64.ofNat (16 * (2 - i))).toNat
      = v * 2 ^ (16 * (2 - i)) := by
    rw [toNat_shift _ _ (by rw [hk]; omega) (by rw [hk, hval]; omega), hk, hval]
  rw [toNat_or_low _ _ (16 * (3 - i)) hasn (by rw [hshift]; exact hpow), hshift]

/-- The loop accepts up to three groups, and adds them up. -/
theorem parseAsnGroups_eq_ok_iff {groups : List (List Char)} {i k : ℕ} {asn asn' : UInt64}
    (hi : i ≤ 3) (hasn : asn.toNat % 2 ^ (16 * (3 - i)) = 0) :
    parseAsnGroups groups i asn = .ok (k, asn') ↔
      ∃ vs, List.Forall₂ HexField groups vs ∧ k = i + groups.length ∧ k ≤ 3 ∧
        asn'.toNat = asn.toNat + groupsValue i vs := by
  induction groups generalizing i asn with
  | nil =>
    rw [parseAsnGroups]
    constructor
    · intro h
      cases h
      exact ⟨[], List.Forall₂.nil, rfl, hi, rfl⟩
    · rintro ⟨vs, hvs, rfl, -, hval⟩
      cases hvs
      rw [UInt64.toNat_inj.mp hval]
  | cons group groups ih =>
    rw [parseAsnGroups]
    by_cases hmany : i > 2 ∨ group.isEmpty = true
    · rw [if_pos hmany]
      refine iff_of_false (fun h => by cases h) ?_
      rintro ⟨vs, hvs, rfl, hle, -⟩
      cases hvs with
      | cons hfield _ =>
        rcases hmany with hmany | hmany
        · rw [List.length_cons] at hle
          omega
        · exact hfield.1.ne_nil (List.isEmpty_iff.mp hmany)
    rw [if_neg hmany]
    have hi2 : i ≤ 2 := by
      by_contra hlt
      exact hmany (Or.inl (by omega))
    rcases hnum : parseNumber 16 (2 ^ 64) group with ec | v
    · refine iff_of_false (fun h => by cases h) ?_
      rintro ⟨vs, hvs, -⟩
      cases hvs with
      | cons hfield _ =>
        have hok := parseNumber_eq_ok_iff.mpr ⟨hfield.1, lt_trans hfield.2 (by norm_num : 2 ^ 16 < 2 ^ 64)⟩
        rw [hnum] at hok
        cases hok
    obtain ⟨hspells, -⟩ := parseNumber_eq_ok_iff.mp hnum
    by_cases hbig : v > 0xffff
    · show (if v > 0xffff then _ else _) = _ ↔ _
      rw [if_pos hbig]
      refine iff_of_false (fun h => by cases h) ?_
      rintro ⟨vs, hvs, -⟩
      cases hvs with
      | cons hfield _ =>
        have hv := hfield.1.unique hspells
        have hlt := hfield.2
        omega
    show (if v > 0xffff then _ else _) = _ ↔ _
    rw [if_neg hbig]
    have hv : v < 2 ^ 16 := by omega
    have hor := toNat_or_group hv hi2 hasn
    have hnext : (asn ||| (UInt64.ofNat v <<< UInt64.ofNat (16 * (2 - i)))).toNat
        % 2 ^ (16 * (3 - (i + 1))) = 0 := by
      rw [hor, show 16 * (3 - (i + 1)) = 16 * (2 - i) by omega, Nat.add_mul_mod_self_right]
      exact Nat.mod_eq_zero_of_dvd ((Nat.pow_dvd_pow 2 (by omega)).trans
        (Nat.dvd_of_mod_eq_zero hasn))
    rw [ih (by omega) hnext, hor]
    constructor
    · rintro ⟨vs, hvs, hk, hle, hval⟩
      refine ⟨v :: vs, List.Forall₂.cons ⟨hspells, hv⟩ hvs, ?_, hle, ?_⟩
      · rw [List.length_cons]
        omega
      · rw [hval, groupsValue, Nat.add_assoc]
    · rintro ⟨vs, hvs, hk, hle, hval⟩
      cases hvs with
      | cons hfield hvs =>
        obtain rfl := hfield.1.unique hspells
        refine ⟨_, hvs, ?_, hle, ?_⟩
        · rw [List.length_cons] at hk
          omega
        · rw [hval, groupsValue, Nat.add_assoc]

/-! ### AS numbers -/

/-- The groups of a text that the parser takes for an ASN. -/
def FieldsOf (text : List Char) (vs : List ℕ) : Prop :=
  List.Forall₂ HexField (text.splitOn ':') vs

theorem FieldsOf.length_eq {text : List Char} {vs : List ℕ} (h : FieldsOf text vs) :
    (text.splitOn ':').length = vs.length :=
  List.Forall₂.length_eq h

theorem parseScionAsn_eq_ok_iff {text : List Char} {asn : UInt64} :
    parseScionAsn text = .ok asn ↔
      ∃ vs, FieldsOf text vs ∧ 2 ≤ vs.length ∧ vs.length ≤ 3 ∧ asn.toNat = groupsValue 0 vs := by
  have hgroups : ∀ (k : ℕ) (asn : UInt64), parseAsnGroups (text.splitOn ':') 0 0 = .ok (k, asn) ↔
      ∃ vs, FieldsOf text vs ∧ k = vs.length ∧ k ≤ 3 ∧ asn.toNat = groupsValue 0 vs := by
    intro k asn
    rw [parseAsnGroups_eq_ok_iff (by norm_num) rfl]
    refine exists_congr fun vs => and_congr_right fun hvs => ?_
    rw [FieldsOf.length_eq hvs, Nat.zero_add, UInt64.toNat_zero, Nat.zero_add]
  rw [parseScionAsn]
  constructor
  · intro h
    rcases hparse : parseAsnGroups (text.splitOn ':') 0 0 with ec | ⟨k, asn'⟩
    · rw [hparse] at h
      cases h
    · rw [hparse] at h
      obtain ⟨vs, hvs, rfl, hle, hval⟩ := (hgroups k asn').mp hparse
      replace h : (if vs.length < 2 then .error (.scion .syntaxError) else .ok asn')
        = (.ok asn : Parsed UInt64) := h
      split_ifs at h with hfew
      cases h
      exact ⟨vs, hvs, by omega, hle, hval⟩
  · rintro ⟨vs, hvs, hge, hle, hval⟩
    rw [(hgroups vs.length asn).mpr ⟨vs, hvs, rfl, hle, hval⟩]
    show (if vs.length < 2 then _ else _) = _
    rw [if_neg (by omega)]

/-- A numeral is one group. -/
theorem splitOn_of_spells {base : ℕ} {text : List Char} {n : ℕ} (h : Spells base text n)
    (hbase : base ≤ 36) : text.splitOn ':' = [text] :=
  List.splitOn_eq_singleton (IPAddress.not_mem_of_spells h hbase)

/-- The texts that are accepted: decimal numbers, and two or three groups. -/
theorem parseAsn_eq_ok_iff {text : List Char} {asn : UInt64} :
    parseAsn text = .ok asn ↔
      (Spells 10 text asn.toNat ∧ asn.toNat ≤ 0xffffffffffff) ∨
      ∃ vs, FieldsOf text vs ∧ 2 ≤ vs.length ∧ vs.length ≤ 3 ∧ asn.toNat = groupsValue 0 vs := by
  -- a decimal number has a single group
  have hone : ∀ {n vs}, Spells 10 text n → FieldsOf text vs → ¬ 2 ≤ vs.length := by
    intro n vs h hvs
    rw [← hvs.length_eq, splitOn_of_spells h (by norm_num), List.length_singleton]
    norm_num
  rw [← parseScionAsn_eq_ok_iff, parseAsn]
  rcases hnum : parseNumber 10 (2 ^ 64) text with ec | n
  · refine (or_iff_right ?_).symm
    rintro ⟨hspells, -⟩
    have hok := parseNumber_eq_ok_iff.mpr ⟨hspells, asn.toNat_lt⟩
    rw [hnum] at hok
    cases hok
  obtain ⟨hspells, hlt⟩ := parseNumber_eq_ok_iff.mp hnum
  have hscion : ¬ parseScionAsn text = .ok asn := by
    intro h
    obtain ⟨vs, hvs, hge, -⟩ := parseScionAsn_eq_ok_iff.mp h
    exact hone hspells hvs hge
  have hval : (UInt64.ofNat n).toNat = n := by
    rw [UInt64.toNat_ofNat', Nat.mod_eq_of_lt hlt]
  rw [or_iff_left hscion]
  show (if n ≤ 0xffffffffffff then _ else _) = _ ↔ _
  by_cases hmax : n ≤ 0xffffffffffff
  · rw [if_pos hmax]
    constructor
    · intro h
      cases h
      rw [hval]
      exact ⟨hspells, hmax⟩
    · rintro ⟨hspells', -⟩
      rw [hspells.unique hspells', UInt64.ofNat_toNat]
  · rw [if_neg hmax]
    refine iff_of_false hscion ?_
    rintro ⟨hspells', hmax'⟩
    rw [← hspells.unique hspells'] at hmax'
    exact hmax hmax'

/-- Three groups of one to four hexadecimal digits. -/
def ThreeGroups (text : List Char) (n : ℕ) : Prop :=
  ∃ a b c x y z, text = a ++ ':' :: (b ++ ':' :: c) ∧ HexGroup a x ∧ HexGroup b y ∧
    HexGroup c z ∧ n = x * 2 ^ 32 + y * 2 ^ 16 + z

/-- The text of an ASN: a decimal number, or three groups. -/
def AsnText (text : List Char) (n : ℕ) : Prop :=
  (Spells 10 text n ∧ n ≤ 0xffffffffffff) ∨ ThreeGroups text n

/-- Two groups, or three of which one has more than four digits, each of 16 bits. -/
def LooseGroups (text : List Char) : Prop :=
  ∃ vs, FieldsOf text vs ∧
    (vs.length = 2 ∨ vs.length = 3 ∧ ∃ group ∈ text.splitOn ':', 4 < group.length)

/-- Three groups are found where they are. -/
theorem splitOn_three {a b c : List Char} {x y z : ℕ} (ha : HexField a x) (hb : HexField b y)
    (hc : HexField c z) : (a ++ ':' :: (b ++ ':' :: c)).splitOn ':' = [a, b, c] := by
  have hcolon : ∀ {g : List Char} {v : ℕ}, HexField g v → ':' ∉ g := by
    intro g v hg
    exact IPAddress.not_mem_of_spells hg.1 (by decide)
  rw [List.splitOn_append_cons_self_of_not_mem (hcolon ha),
    List.splitOn_append_cons_self_of_not_mem (hcolon hb), List.splitOn_eq_singleton (hcolon hc)]

theorem fieldsOf_three {a b c : List Char} {x y z : ℕ} (ha : HexField a x) (hb : HexField b y)
    (hc : HexField c z) : FieldsOf (a ++ ':' :: (b ++ ':' :: c)) [x, y, z] := by
  rw [FieldsOf, splitOn_three ha hb hc]
  exact .cons ha (.cons hb (.cons hc .nil))

theorem groupsValue_three (x y z : ℕ) : groupsValue 0 [x, y, z] = x * 2 ^ 32 + y * 2 ^ 16 + z := by
  simp [groupsValue, Nat.add_assoc]

/-- Three groups of up to four digits are those of an ASN. -/
theorem threeGroups_of_fieldsOf {text : List Char} {vs : List ℕ} (h : FieldsOf text vs)
    (hlen : vs.length = 3) (hshort : ∀ group ∈ text.splitOn ':', group.length ≤ 4) :
    ThreeGroups text (groupsValue 0 vs) := by
  have htext : [':'].intercalate (text.splitOn ':') = text := List.intercalate_splitOn ':'
  obtain ⟨x, y, z, rfl⟩ := List.length_eq_three.mp hlen
  obtain ⟨a, as, ha, has, hsplit⟩ := List.forall₂_cons_right_iff.mp h
  obtain ⟨b, bs, hb, hbs, rfl⟩ := List.forall₂_cons_right_iff.mp has
  obtain ⟨c, cs, hc, hcs, rfl⟩ := List.forall₂_cons_right_iff.mp hbs
  obtain rfl := List.forall₂_nil_right_iff.mp hcs
  rw [hsplit] at htext hshort
  refine ⟨a, b, c, x, y, z, ?_, ha.group (hshort a (by simp)), hb.group (hshort b (by simp)),
    hc.group (hshort c (by simp)), groupsValue_three x y z⟩
  rw [← htext]
  simp [List.intercalate]

/-- The parser accepts the documented texts with the number they denote, and no others,
but for groups that are too long or too few. -/
theorem parseAsn_iff (text : List Char) :
    (∀ asn : UInt64, parseAsn text = .ok asn ↔ AsnText text asn.toNat) ↔ ¬ LooseGroups text := by
  constructor
  · rintro h ⟨vs, hvs, hloose⟩
    have hlen : 2 ≤ vs.length ∧ vs.length ≤ 3 := by omega
    have hlt : groupsValue 0 vs < 2 ^ 48 := groupsValue_lt hvs (by omega)
    have hval : (UInt64.ofNat (groupsValue 0 vs)).toNat = groupsValue 0 vs := by
      rw [UInt64.toNat_ofNat', Nat.mod_eq_of_lt (by omega)]
    have hok : parseAsn text = .ok (UInt64.ofNat (groupsValue 0 vs)) :=
      parseAsn_eq_ok_iff.mpr (Or.inr ⟨vs, hvs, hlen.1, hlen.2, hval⟩)
    rcases (h _).mp hok with ⟨hspells, -⟩ | ⟨a, b, c, x, y, z, rfl, ha, hb, hc, -⟩
    · have hone := hvs.length_eq
      rw [splitOn_of_spells hspells (by norm_num), List.length_singleton] at hone
      omega
    · have hthree := hvs.length_eq
      rw [splitOn_three ha.field hb.field hc.field] at hthree hloose
      rcases hloose with htwo | ⟨-, group, hgroup, hlong⟩
      · rw [htwo] at hthree
        cases hthree
      · have ha' := ha.2
        have hb' := hb.2
        have hc' := hc.2
        simp only [List.mem_cons, List.not_mem_nil, or_false] at hgroup
        rcases hgroup with rfl | rfl | rfl <;> omega
  · intro hloose asn
    rw [parseAsn_eq_ok_iff, AsnText]
    refine or_congr_right ?_
    constructor
    · rintro ⟨vs, hvs, hge, hle, hval⟩
      have hthree : vs.length = 3 := by
        by_contra hne
        exact hloose ⟨vs, hvs, Or.inl (by omega)⟩
      have hshort : ∀ group ∈ text.splitOn ':', group.length ≤ 4 := by
        intro group hgroup
        by_contra hlong
        exact hloose ⟨vs, hvs, Or.inr ⟨hthree, group, hgroup, by omega⟩⟩
      rw [hval]
      exact threeGroups_of_fieldsOf hvs hthree hshort
    · rintro ⟨a, b, c, x, y, z, rfl, ha, hb, hc, hval⟩
      exact ⟨[x, y, z], fieldsOf_three ha.field hb.field hc.field, by simp, by simp,
        hval.trans (groupsValue_three x y z).symm⟩

/-- The text 1:2 is accepted. -/
theorem not_forall_parseAsn :
    ¬ ∀ (text : List Char) (asn : UInt64), parseAsn text = .ok asn ↔ AsnText text asn.toNat := by
  intro h
  have hone : HexField ['1'] 1 :=
    ⟨⟨by simp, List.forall_mem_singleton.mpr (by decide), rfl⟩, by norm_num⟩
  have htwo : HexField ['2'] 2 :=
    ⟨⟨by simp, List.forall_mem_singleton.mpr (by decide), rfl⟩, by norm_num⟩
  have hfields : FieldsOf ['1', ':', '2'] [1, 2] := .cons hone (.cons htwo .nil)
  have hok := (h ['1', ':', '2'] 0x100020000).mp
    (parseAsn_eq_ok_iff.mpr (Or.inr ⟨[1, 2], hfields, by decide, by decide, rfl⟩))
  rcases hok with ⟨hspells, -⟩ | ⟨a, b, c, x, y, z, htext, ha, hb, hc, -⟩
  · have hcolon := hspells.digits ':' (by decide)
    exact absurd hcolon (by decide)
  · have hsplit := splitOn_three ha.field hb.field hc.field
    rw [← htext] at hsplit
    have hlength := congrArg List.length hsplit
    rw [show (['1', ':', '2'].splitOn ':').length = 2 from by decide] at hlength
    simp at hlength

/-! ### ISD-ASN pairs -/

/-- An ASN is read back from its text. -/
theorem parseAsn_formatAsn {asn : UInt64} (h : asn.toNat < 2 ^ 48) :
    parseAsn (IsdAsn.formatAsn asn) = .ok asn := by
  have hgroup : ∀ k : UInt64, k.toNat < 64 →
      HexField (Nat.toDigits 16 ((asn >>> k) &&& 0xffff).toNat) (asn.toNat / 2 ^ k.toNat % 2 ^ 16) := by
    intro k hk
    rw [toNat_field asn k 0xffff 16 hk rfl]
    exact ⟨spells_toDigits (by norm_num) (by norm_num) _, Nat.mod_lt _ (by norm_num)⟩
  have hlow : HexField (Nat.toDigits 16 (asn &&& 0xffff).toNat) (asn.toNat % 2 ^ 16) := by
    rw [UInt64.toNat_and, show (0xffff : UInt64).toNat = 2 ^ 16 - 1 from rfl,
      Nat.and_two_pow_sub_one_eq_mod]
    exact ⟨spells_toDigits (by norm_num) (by norm_num) _, Nat.mod_lt _ (by norm_num)⟩
  rw [parseAsn_eq_ok_iff, IsdAsn.formatAsn]
  split_ifs with hsmall
  · exact Or.inl ⟨spells_toDigits (by norm_num) (by norm_num) _, by omega⟩
  · rw [List.append_assoc, List.cons_append]
    refine Or.inr ⟨_, fieldsOf_three (hgroup 32 (by decide)) (hgroup 16 (by decide)) hlow, by simp,
      by simp, ?_⟩
    rw [groupsValue_three, show (32 : UInt64).toNat = 32 from rfl,
      show (16 : UInt64).toNat = 16 from rfl]
    omega

theorem parseIsd_formatDecimal {isd : UInt64} (h : isd.toNat < 2 ^ 16) :
    parseIsd (formatDecimal isd.toNat) = .ok isd := by
  have hnum : parseNumber 10 (2 ^ 64) (formatDecimal isd.toNat) = .ok isd.toNat :=
    parseNumber_eq_ok_iff.mpr
      ⟨spells_toDigits (by norm_num) (by norm_num) _, isd.toNat_lt⟩
  rw [parseIsd, hnum]
  show (if isd.toNat > 0xffff then _ else _) = _
  rw [if_neg (by omega), UInt64.ofNat_toNat]

/-- The two parts of an ISD-ASN make it up. -/
theorem IsdAsn.make_isd_asn (a : IsdAsn) : IsdAsn.make a.isd a.asn = a := by
  have hlt := a.ia.toNat_lt
  rw [make_eq a.isd a.asn (by rw [toNat_isd]; omega) (by rw [toNat_asn]; omega), toNat_isd,
    toNat_asn, Nat.div_add_mod', UInt64.ofNat_toNat]

/-- An ISD-ASN is read back from its text. -/
theorem parse_format (a : IsdAsn) : IsdAsn.parse a.format = .ok a := by
  have hlt := a.ia.toNat_lt
  have hdigits : ∀ c ∈ formatDecimal a.isd.toNat, (c != '-') = true := by
    intro c hc
    rw [bne_iff_ne]
    rintro rfl
    exact IPAddress.not_mem_of_spells
      (spells_toDigits (show 1 < 10 by norm_num) (by norm_num) a.isd.toNat) (by decide) hc
  have hisd := parseIsd_formatDecimal (show a.isd.toNat < 2 ^ 16 by rw [toNat_isd]; omega)
  have hasn := parseAsn_formatAsn (show a.asn.toNat < 2 ^ 48 by rw [toNat_asn]; omega)
  rw [IsdAsn.parse, IsdAsn.format, List.dropWhile_append_of_pos hdigits,
    List.takeWhile_append_of_pos hdigits]
  show (do let isd ← parseIsd (formatDecimal a.isd.toNat ++ []); _ : Parsed IsdAsn) = _
  rw [List.append_nil, hisd]
  show (do let asn ← parseAsn (IsdAsn.formatAsn a.asn); Except.ok (IsdAsn.make a.isd asn) :
    Parsed IsdAsn) = _
  rw [hasn]
  exact congrArg Except.ok a.make_isd_asn

end Scion
