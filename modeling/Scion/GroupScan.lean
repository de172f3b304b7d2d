/-
The groups of an IPv6 text as the parser goes through them.

* `QuadText` — a dotted quad, which is what `parseIPv4` takes;
* `Scans` — the groups the loop has read: fields of up to four hexadecimal digits and
  empty groups;
* `scans_iff` — any two of the empty groups are among the first three;
* `exists_stop` — the loop goes through the groups of a text up to one it does not read
  so, where it ends.
-/
import Scion.AsnText

namespace Scion

open Numerals

namespace IPAddress

/-! ### Dotted quads -/

/-- A decimal number of a byte. -/
def ByteText (text : List Char) (b : ℕ) : Prop := Spells 10 text b ∧ b < 256

/-- Four decimal numbers with dots between them. -/
def QuadText (text : List Char) (n : ℕ) : Prop :=
  ∃ a b c d w x y z, text = a ++ '.' :: (b ++ '.' :: (c ++ '.' :: d)) ∧
    ByteText a w ∧ ByteText b x ∧ ByteText c y ∧ ByteText d z ∧
    n = w * 2 ^ 24 + x * 2 ^ 16 + y * 2 ^ 8 + z

theorem QuadText.length {text : List Char} {n : ℕ} (h : QuadText text n) : 4 < text.length := by
  obtain ⟨a, b, c, d, w, x, y, z, rfl, ha, hb, -, -, -⟩ := h
  have ha := List.length_pos_iff.mpr ha.1.ne_nil
  have hb := List.length_pos_iff.mpr hb.1.ne_nil
  simp only [List.length_append, List.length_cons]
  omega

/-- A dotted quad has digits and dots. -/
theorem QuadText.not_mem {text : List Char} {n : ℕ} (h : QuadText text n) {c : Char}
    (hc : 10 ≤ digitValue c) (hdot : c ≠ '.') : c ∉ text := by
  obtain ⟨a, b, c', d, w, x, y, z, rfl, ha, hb, hc', hd, -⟩ := h
  simp only [List.mem_append, List.mem_cons, not_or]
  exact ⟨not_mem_of_spells ha.1 hc, hdot, not_mem_of_spells hb.1 hc, hdot,
    not_mem_of_spells hc'.1 hc, hdot, not_mem_of_spells hd.1 hc⟩

/-- The word made of the bytes from position `i` on. -/
def putBytes : List ℕ → ℕ → UInt32 → UInt32
  | [], _, addr => addr
  | b :: bs, i, addr => putBytes bs (i + 1) (addr ||| (UInt32.ofNat b <<< UInt32.ofNat (8 * (3 - i))))

theorem toNat_putBytes {w x y z : ℕ} (hw : w < 256) (hx : x < 256) (hy : y < 256) (hz : z < 256) :
    (putBytes [w, x, y, z] 0 0).toNat = w * 2 ^ 24 + x * 2 ^ 16 + y * 2 ^ 8 + z := by
  have h24 := @toNat_or_byte 0 w 24 hw (le_refl 24) rfl
  have h16 := toNat_or_byte hx (show 16 ≤ 24 by omega) (by rw [h24]; simp)
  have h8 := toNat_or_byte hy (show 8 ≤ 24 by omega) (by rw [h16, h24]; simp; omega)
  have h0 := toNat_or_byte hz (show 0 ≤ 24 by omega) (by rw [h8, h16, h24]; simp; omega)
  calc (putBytes [w, x, y, z] 0 0).toNat = _ := h0
    _ = w * 2 ^ 24 + x * 2 ^ 16 + y * 2 ^ 8 + z := by
      rw [h8, h16, h24]
      simp

theorem parseIPv4Groups_eq_ok_iff {groups : List (List Char)} {i j : ℕ} {addr res : UInt32} :
    parseIPv4Groups groups i addr = .ok (j, res) ↔
      ∃ bs, List.Forall₂ ByteText groups bs ∧ (groups = [] ∨ i + groups.length ≤ 4) ∧
        j = i + groups.length ∧ res = putBytes bs i addr := by
  induction groups generalizing i addr with
  | nil =>
    rw [parseIPv4Groups]
    constructor
    · intro h
      cases h
      exact ⟨[], .nil, Or.inl rfl, rfl, rfl⟩
    · rintro ⟨bs, hbs, -, rfl, rfl⟩
      cases hbs
      rfl
  | cons group rest ih =>
    constructor
    · intro h
      rw [parseIPv4Groups] at h
      split_ifs at h with hstop
      split at h
      · rename_i byte hread
        have hbyte := fromChars_eq_iff.mp hread
        obtain ⟨bs, hbs, hlen, hj, hres⟩ := ih.mp h
        rw [not_or] at hstop
        refine ⟨byte :: bs, .cons hbyte hbs, Or.inr ?_, ?_, hres⟩
        · rw [List.length_cons]
          rcases hlen with rfl | hlen
          · rw [List.length_nil]
            omega
          · omega
        · rw [List.length_cons]
          omega
      · cases h
    · rintro ⟨bs, hbs, hlen, rfl, rfl⟩
      obtain ⟨b, bs, hbyte, hrest, rfl⟩ := List.forall₂_cons_left_iff.mp hbs
      have hlength : (group :: rest).length = rest.length + 1 := rfl
      have hroom := hlen.resolve_left (by simp)
      rw [parseIPv4Groups_cons hbyte.1 hbyte.2 (by omega)]
      exact ih.mpr ⟨bs, hrest, Or.inr (by omega), by omega, rfl⟩

/-- The parser for IPv4 takes dotted quads. -/
theorem parseIPv4_eq_ok_iff {text : List Char} {addr : UInt32} :
    parseIPv4 text = .ok addr ↔ QuadText text addr.toNat := by
  constructor
  · intro h
    rw [parseIPv4] at h
    rcases hgroups : parseIPv4Groups (text.splitOn '.') 0 0 with e | ⟨i, res⟩
    · rw [hgroups] at h
      cases h
    rw [hgroups] at h
    replace h : (if i < 4 then Except.error ErrorCode.syntaxError else .ok res : Maybe UInt32)
      = .ok addr := h
    split_ifs at h with hfew
    cases h
    obtain ⟨bs, hbs, hlen, hi, rfl⟩ := parseIPv4Groups_eq_ok_iff.mp hgroups
    have hfour : bs.length = 4 := by
      have hlength := hbs.length_eq
      rcases hlen with hnil | hlen
      · rw [hnil, List.length_nil] at hi
        omega
      · omega
    have htext : ['.'].intercalate (text.splitOn '.') = text := List.intercalate_splitOn '.'
    rcases bs with _ | ⟨w, _ | ⟨x, _ | ⟨y, _ | ⟨z, _ | ⟨_, _⟩⟩⟩⟩⟩ <;> simp at hfour
    obtain ⟨a, as, ha, has, hsplit⟩ := List.forall₂_cons_right_iff.mp hbs
    obtain ⟨b, bs, hb, hbs, rfl⟩ := List.forall₂_cons_right_iff.mp has
    obtain ⟨c, cs, hc, hcs, rfl⟩ := List.forall₂_cons_right_iff.mp hbs
    obtain ⟨d, ds, hd, hds, rfl⟩ := List.forall₂_cons_right_iff.mp hcs
    obtain rfl := List.forall₂_nil_right_iff.mp hds
    refine ⟨a, b, c, d, w, x, y, z, ?_, ha, hb, hc, hd, toNat_putBytes ha.2 hb.2 hc.2 hd.2⟩
    rw [← htext, hsplit]
    simp [List.intercalate]
  · rintro ⟨a, b, c, d, w, x, y, z, rfl, ha, hb, hc, hd, haddr⟩
    have hdot : ∀ {t : List Char} {v : ℕ}, ByteText t v → '.' ∉ t := by
      intro t v ht
      exact not_mem_of_spells ht.1 (by decide)
    have hsplit : (a ++ '.' :: (b ++ '.' :: (c ++ '.' :: d))).splitOn '.' = [a, b, c, d] := by
      rw [List.splitOn_append_cons_self_of_not_mem (hdot ha),
        List.splitOn_append_cons_self_of_not_mem (hdot hb),
        List.splitOn_append_cons_self_of_not_mem (hdot hc), List.splitOn_eq_singleton (hdot hd)]
    have hgroups : parseIPv4Groups [a, b, c, d] 0 0 = .ok (4, putBytes [w, x, y, z] 0 0) :=
      parseIPv4Groups_eq_ok_iff.mpr ⟨_, .cons ha (.cons hb (.cons hc (.cons hd .nil))),
        Or.inr le_rfl, rfl, rfl⟩
    rw [parseIPv4, hsplit, hgroups]
    refine congrArg Except.ok (UInt32.toNat_inj.mp ?_)
    rw [toNat_putBytes ha.2 hb.2 hc.2 hd.2, haddr]

/-! ### The loop -/

/-- A group of up to four hexadecimal digits, or an empty one, which counts as zero. -/
def PieceText (group : List Char) (v : UInt16) : Prop :=
  (group = [] ∧ v = 0) ∨ HexGroup group v.toNat

/-- The groups that the loop has read, their fields, and the last empty group. -/
inductive Scans : List (List Char) → List UInt16 → Option ℕ → Prop
  | nil : Scans [] [] none
  | empty {groups : List (List Char)} {vs : List UInt16} {c : Option ℕ} (h : Scans groups vs c)
      (hroom : groups.length < 8) (hc : mayCollapse c groups.length = true) :
      Scans (groups ++ [[]]) (vs ++ [0]) (some groups.length)
  | hex {groups : List (List Char)} {vs : List UInt16} {c : Option ℕ} {group : List Char}
      {v : UInt16} (h : Scans groups vs c) (hroom : groups.length < 8)
      (hgroup : HexGroup group v.toNat) : Scans (groups ++ [group]) (vs ++ [v]) c

namespace Scans

variable {groups : List (List Char)} {vs : List UInt16} {c : Option ℕ}

theorem length_eq (h : Scans groups vs c) : groups.length = vs.length := by
  induction h with
  | nil => rfl
  | empty h _ _ ih => rw [List.length_append, List.length_append, ih]; rfl
  | hex h _ _ ih => rw [List.length_append, List.length_append, ih]; rfl

theorem length_le (h : Scans groups vs c) : groups.length ≤ 8 := by
  cases h with
  | nil => exact Nat.zero_le 8
  | empty h hroom _ => rwa [List.length_append]
  | hex h hroom _ => rwa [List.length_append]

/-- The loop goes through these groups and fills the fields one by one. -/
theorem parseGroups_eq (h : Scans groups vs c) (text zone : List Char) (rest : List (List Char)) :
    parseGroups text zone (groups ++ rest) 0 none (List.replicate 8 0)
      = parseGroups text zone rest vs.length c (filled vs) := by
  induction h generalizing rest with
  | nil => rfl
  | @empty groups vs c h hroom hc ih =>
    rw [List.append_assoc, List.singleton_append, ih, h.length_eq]
    rw [h.length_eq] at hroom hc
    exact parseGroups_empty vs hroom hc
  | @hex groups vs c group v h hroom hgroup ih =>
    rw [List.append_assoc, List.singleton_append, ih]
    rw [h.length_eq] at hroom
    exact parseGroups_hex vs hgroup.1 hgroup.2 hroom

end Scans

/-- The loop goes on behind the group at position `i`. -/
def Continues (i : ℕ) (c : Option ℕ) (group : List Char) : Prop :=
  i < 8 ∧ ((group = [] ∧ mayCollapse c i = true) ∨ ∃ v : UInt16, HexGroup group v.toNat)

/-- The loop ends at the end of the groups, or at one that does not go on. -/
def Stops (i : ℕ) (c : Option ℕ) (rest : List (List Char)) : Prop :=
  ∀ group rest', rest = group :: rest' → ¬ Continues i c group

/-- The loop goes through the first groups and then ends. -/
theorem exists_stop (groups : List (List Char)) :
    ∃ front vs c rest, groups = front ++ rest ∧ Scans front vs c ∧ Stops front.length c rest := by
  have hfrom : ∀ (rest front : List (List Char)) (vs : List UInt16) (c : Option ℕ),
      Scans front vs c → ∃ front' vs' c' rest', front ++ rest = front' ++ rest' ∧
        Scans front' vs' c' ∧ Stops front'.length c' rest' := by
    intro rest
    induction rest with
    | nil =>
      intro front vs c h
      refine ⟨front, vs, c, [], rfl, h, ?_⟩
      intro group rest' hnil
      cases hnil
    | cons group rest ih =>
      intro front vs c h
      by_cases hgo : Continues front.length c group
      · obtain ⟨hroom, ⟨rfl, hc⟩ | ⟨v, hgroup⟩⟩ := hgo
        · obtain ⟨front', vs', c', rest', heq, h', hstop⟩ := ih _ _ _ (h.empty hroom hc)
          exact ⟨front', vs', c', rest', by rw [← heq]; simp, h', hstop⟩
        · obtain ⟨front', vs', c', rest', heq, h', hstop⟩ := ih _ _ _ (h.hex hroom hgroup)
          exact ⟨front', vs', c', rest', by rw [← heq]; simp, h', hstop⟩
      · refine ⟨front, vs, c, group :: rest, rfl, h, ?_⟩
        intro group' rest' hcons
        cases hcons
        exact hgo
  exact hfrom groups [] [] none .nil

/-! ### Empty groups -/

/-- Any two empty groups are among the first three. -/
def EarlyBlanks (groups : List (List Char)) : Prop :=
  ∀ j k, j < k → groups[j]? = some [] → groups[k]? = some [] → k ≤ 2

/-- The position of the last empty group. -/
def LastBlank (groups : List (List Char)) : Option ℕ → Prop
  | none => [] ∉ groups
  | some k => groups[k]? = some [] ∧ ∀ j, groups[j]? = some [] → j ≤ k

theorem getElem?_snoc {groups : List (List Char)} {group : List Char} {k : ℕ}
    (h : (groups ++ [group])[k]? = some []) :
    groups[k]? = some [] ∨ (k = groups.length ∧ group = []) := by
  rcases Nat.lt_or_ge k groups.length with hlt | hge
  · rw [List.getElem?_append_left hlt] at h
    exact Or.inl h
  · rw [List.getElem?_append_right hge, List.getElem?_singleton] at h
    split_ifs at h with hk
    exact Or.inr ⟨by omega, Option.some.inj h⟩

theorem getElem?_snoc_left {groups : List (List Char)} (group : List Char) {k : ℕ}
    (h : groups[k]? = some []) : (groups ++ [group])[k]? = some [] := by
  have hlt := (List.getElem?_eq_some_iff.mp h).1
  rwa [List.getElem?_append_left hlt]

/-- An empty group may follow when it comes among the first three, or is the first one. -/
theorem mayCollapse_iff {groups : List (List Char)} {c : Option ℕ} (hlast : LastBlank groups c) :
    mayCollapse c groups.length = true ↔ EarlyBlanks (groups ++ [[]]) := by
  have hend : (groups ++ [[]])[groups.length]? = some [] := by simp
  cases c with
  | none =>
    refine iff_of_true rfl ?_
    intro j k hjk hj hk
    have hlength := (List.getElem?_eq_some_iff.mp hk).1
    rw [List.length_append, List.length_singleton] at hlength
    have hj' := (getElem?_snoc hj).resolve_right (by omega)
    exact absurd (List.mem_of_getElem? hj') hlast
  | some c =>
    obtain ⟨hc, hmax⟩ := hlast
    have hlt := (List.getElem?_eq_some_iff.mp hc).1
    have hiff : mayCollapse (some c) groups.length = true ↔ groups.length ≤ 2 := by
      simp only [mayCollapse, Bool.or_eq_true, Bool.and_eq_true, beq_iff_eq]
      omega
    rw [hiff]
    constructor
    · intro hle j k hjk hj hk
      have hlength := (List.getElem?_eq_some_iff.mp hk).1
      rw [List.length_append, List.length_singleton] at hlength
      omega
    · intro h
      exact h c groups.length hlt (getElem?_snoc_left [] hc) hend

theorem EarlyBlanks.left {front back : List (List Char)} (h : EarlyBlanks (front ++ back)) :
    EarlyBlanks front := by
  intro j k hjk hj hk
  have hleft : ∀ {i : ℕ}, front[i]? = some [] → (front ++ back)[i]? = some [] := by
    intro i hi
    rwa [List.getElem?_append_left (List.getElem?_eq_some_iff.mp hi).1]
  exact h j k hjk (hleft hj) (hleft hk)

theorem earlyBlanks_snoc {groups : List (List Char)} {group : List Char} (hne : group ≠ [])
    (h : EarlyBlanks groups) : EarlyBlanks (groups ++ [group]) := by
  intro j k hjk hj hk
  exact h j k hjk ((getElem?_snoc hj).resolve_right fun hg => hne hg.2)
    ((getElem?_snoc hk).resolve_right fun hg => hne hg.2)

theorem lastBlank_snoc {groups : List (List Char)} {group : List Char} (hne : group ≠ [])
    {c : Option ℕ} : LastBlank (groups ++ [group]) c ↔ LastBlank groups c := by
  have hiff : ∀ k : ℕ, (groups ++ [group])[k]? = some [] ↔ groups[k]? = some [] := fun k =>
    ⟨fun h => (getElem?_snoc h).resolve_right fun hg => hne hg.2, getElem?_snoc_left group⟩
  cases c with
  | none => simp [LastBlank, Ne.symm hne]
  | some k => simp only [LastBlank, hiff]

theorem lastBlank_snoc_nil {groups : List (List Char)} : LastBlank (groups ++ [[]]) (some groups.length) := by
  refine ⟨by simp, ?_⟩
  intro j hj
  have hlength := (List.getElem?_eq_some_iff.mp hj).1
  rw [List.length_append, List.length_singleton] at hlength
  omega

theorem Scans.lastBlank {groups : List (List Char)} {vs : List UInt16} {c : Option ℕ}
    (h : Scans groups vs c) : EarlyBlanks groups ∧ LastBlank groups c := by
  induction h with
  | nil => exact ⟨fun j k _ hj _ => by simp at hj, List.not_mem_nil⟩
  | empty h hroom hc ih => exact ⟨(mayCollapse_iff ih.2).mp hc, lastBlank_snoc_nil⟩
  | hex h hroom hgroup ih =>
    exact ⟨earlyBlanks_snoc hgroup.1.ne_nil ih.1, (lastBlank_snoc hgroup.1.ne_nil).mpr ih.2⟩

theorem Scans.forall₂ {groups : List (List Char)} {vs : List UInt16} {c : Option ℕ}
    (h : Scans groups vs c) : List.Forall₂ PieceText groups vs := by
  induction h with
  | nil => exact .nil
  | empty h hroom hc ih => exact List.rel_append ih (.cons (Or.inl ⟨rfl, rfl⟩) .nil)
  | hex h hroom hgroup ih => exact List.rel_append ih (.cons (Or.inr hgroup) .nil)

theorem forall₂_append_left {α β : Type} {R : α → β → Prop} {front back : List α} {l : List β}
    (h : List.Forall₂ R (front ++ back) l) :
    ∃ l₁ l₂, l = l₁ ++ l₂ ∧ List.Forall₂ R front l₁ ∧ List.Forall₂ R back l₂ := by
  induction front generalizing l with
  | nil => exact ⟨[], l, rfl, .nil, h⟩
  | cons a front ih =>
    obtain ⟨b, l', hab, hrest, rfl⟩ := List.forall₂_cons_left_iff.mp h
    obtain ⟨l₁, l₂, rfl, hfront, hback⟩ := ih hrest
    exact ⟨b :: l₁, l₂, rfl, .cons hab hfront, hback⟩

/-- What the loop reads: pieces of text, up to eight, with any two empty ones among the
first three. -/
theorem exists_scans {groups : List (List Char)} {vs : List UInt16}
    (h : List.Forall₂ PieceText groups vs) (hlen : groups.length ≤ 8) (hearly : EarlyBlanks groups) :
    ∃ c, Scans groups vs c := by
  induction groups using List.reverseRecOn generalizing vs with
  | nil =>
    obtain rfl := List.forall₂_nil_left_iff.mp h
    exact ⟨none, .nil⟩
  | append_singleton groups group ih =>
    rw [List.length_append, List.length_singleton] at hlen
    obtain ⟨us, ws, rfl, hgroups, hgroup⟩ := forall₂_append_left h
    obtain ⟨v, ws, hpiece, hnil, rfl⟩ := List.forall₂_cons_left_iff.mp hgroup
    obtain rfl := List.forall₂_nil_left_iff.mp hnil
    obtain ⟨c, hscans⟩ := ih hgroups (by omega) hearly.left
    rcases hpiece with ⟨rfl, rfl⟩ | hhex
    · exact ⟨_, hscans.empty (by omega) ((mayCollapse_iff hscans.lastBlank.2).mpr hearly)⟩
    · exact ⟨c, hscans.hex (by omega) hhex⟩

theorem exists_scans_iff {groups : List (List Char)} {vs : List UInt16} :
    (∃ c, Scans groups vs c) ↔
      List.Forall₂ PieceText groups vs ∧ groups.length ≤ 8 ∧ EarlyBlanks groups := by
  constructor
  · rintro ⟨c, h⟩
    exact ⟨h.forall₂, h.length_le, h.lastBlank.1⟩
  · rintro ⟨h, hlen, hearly⟩
    exact exists_scans h hlen hearly

end IPAddress

end Scion
