/-
The texts of IP addresses, and those that the parser takes for them.

* `IPv6Text` — eight groups of up to four hexadecimal digits, or fewer and two colons for
  the zeros, the last two possibly as a dotted quad;
* `Denotes` — a dotted quad or such a text, with an optional zone, and its address;
* `StrayColon` — colons that the parser overlooks;
* `sound_iff` — the parser is right unless it accepts a text with such colons, or writes
  past its array of fields.
-/
import Scion.IPBounds

namespace Scion

open BigEndian Numerals

namespace IPAddress

/-! ### The grammar -/

/-- The two fields of a dotted quad. -/
def quadFields (n : ℕ) : List UInt16 := [UInt16.ofNat (n / 2 ^ 16), UInt16.ofNat n]

/-- Groups of up to four hexadecimal digits, the last possibly a dotted quad in place of
two. -/
inductive FieldsText : List (List Char) → List UInt16 → Prop
  | nil : FieldsText [] []
  | quad {quad : List Char} {n : ℕ} (h : QuadText quad n) : FieldsText [quad] (quadFields n)
  | cons {group : List Char} {v : UInt16} {groups : List (List Char)} {vs : List UInt16}
      (hgroup : HexGroup group v.toNat) (h : FieldsText groups vs) :
      FieldsText (group :: groups) (v :: vs)

/-- The text of an IPv6 address without a zone, and its eight fields. -/
inductive IPv6Text : List Char → List UInt16 → Prop
  | full {groups : List (List Char)} {vs : List UInt16} (h : FieldsText groups vs)
      (hlen : vs.length = 8) : IPv6Text ([':'].intercalate groups) vs
  | compressed {front back : List (List Char)} {us ws : List UInt16}
      (hfront : List.Forall₂ (fun group v => HexGroup group v.toNat) front us)
      (hback : FieldsText back ws) (hlen : us.length + ws.length ≤ 7) :
      IPv6Text ([':'].intercalate front ++ ':' :: ':' :: [':'].intercalate back)
        (us ++ List.replicate (8 - (us.length + ws.length)) 0 ++ ws)

/-- The text is one of the address, with its zone. -/
def Denotes (text : List Char) (ip : IPAddress) : Prop :=
  (∃ addr, ip = v4 addr ∧ QuadText text addr.toNat) ∨
    ∃ body vs, text = body ++ zoneText ip.zone ∧ IPv6Text body vs ∧ ip.is6 = true ∧
      ip.bytes = vs.flatMap fun v => beBytes 2 v.toNat

/-! ### What is accepted -/

/-- Groups of up to four hexadecimal digits and empty groups, the last possibly a dotted
quad, with the fields that the loop fills. -/
inductive PiecesText : List (List Char) → List UInt16 → Prop
  | nil : PiecesText [] []
  | quad {quad : List Char} {n : ℕ} (h : QuadText quad n) : PiecesText [quad] (quadFields n)
  | cons {group : List Char} {v : UInt16} {groups : List (List Char)} {vs : List UInt16}
      (hgroup : PieceText group v) (h : PiecesText groups vs) :
      PiecesText (group :: groups) (v :: vs)

/-- No text, a single colon at the start or at the end, or three colons in a row. -/
def StrayColon (body : List Char) : Prop :=
  body = [] ∨ body = [':'] ∨ (∃ c rest, body = ':' :: c :: rest ∧ c ≠ ':') ∨
    (∃ front c, body = front ++ [c, ':'] ∧ c ≠ ':') ∨ [':', ':', ':'] <:+: body

/-- A text that is accepted with such colons, or with a dotted quad as its eighth group.
The parser looks for two empty groups that are not both among the first three, and for
fewer than eight fields without an empty group. -/
def LooseText (text : List Char) (noZone : Bool) : Prop :=
  text ≠ [] ∧ ZoneAccepted text noZone ∧
    ∃ vs, PiecesText ((hostText text).splitOn ':') vs ∧ EarlyBlanks ((hostText text).splitOn ':') ∧
      ((hostText text).splitOn ':').length ≤ 8 ∧ ([] ∈ (hostText text).splitOn ':' ∨ 8 ≤ vs.length) ∧
      (StrayColon (hostText text) ∨ vs.length = 9)

/-! ### Pieces -/

theorem PiecesText.of_forall₂ {groups : List (List Char)} {vs : List UInt16}
    (h : List.Forall₂ PieceText groups vs) : PiecesText groups vs := by
  induction h with
  | nil => exact .nil
  | cons hgroup _ ih => exact .cons hgroup ih

theorem PiecesText.of_quad {front : List (List Char)} {vs : List UInt16} {quad : List Char} {n : ℕ}
    (h : List.Forall₂ PieceText front vs) (hquad : QuadText quad n) :
    PiecesText (front ++ [quad]) (vs ++ quadFields n) := by
  induction h with
  | nil => exact .quad hquad
  | cons hgroup _ ih => exact .cons hgroup ih

/-- The pieces are groups, with or without a dotted quad at the end. -/
theorem PiecesText.cases_quad {groups : List (List Char)} {vs : List UInt16}
    (h : PiecesText groups vs) :
    List.Forall₂ PieceText groups vs ∨ ∃ front us quad n, groups = front ++ [quad] ∧
      vs = us ++ quadFields n ∧ List.Forall₂ PieceText front us ∧ QuadText quad n := by
  induction h with
  | nil => exact Or.inl .nil
  | quad h => exact Or.inr ⟨[], [], _, _, rfl, rfl, .nil, h⟩
  | cons hgroup h ih =>
    rcases ih with hplain | ⟨front, us, quad, n, rfl, rfl, hfront, hquad⟩
    · exact Or.inl (.cons hgroup hplain)
    · exact Or.inr ⟨_, _, quad, n, rfl, rfl, .cons hgroup hfront, hquad⟩

/-- Without empty groups the pieces are fields. -/
theorem PiecesText.fields {groups : List (List Char)} {vs : List UInt16} (h : PiecesText groups vs)
    (hne : [] ∉ groups) : FieldsText groups vs := by
  induction h with
  | nil => exact .nil
  | quad h => exact .quad h
  | cons hgroup h ih =>
    rw [List.mem_cons, not_or] at hne
    exact .cons (hgroup.resolve_left fun hnil => hne.1 hnil.1.symm) (ih hne.2)

theorem quadFields_toNat (ipv4 : UInt32) :
    quadFields ipv4.toNat = [(ipv4 >>> 16).toUInt16, ipv4.toUInt16] := by
  have hshift : (ipv4 >>> 16).toNat = ipv4.toNat / 2 ^ 16 := by
    rw [UInt32.toNat_shiftRight, Nat.shiftRight_eq_div_pow]
    rfl
  rw [quadFields, ← hshift]
  rfl

theorem length_quadFields (n : ℕ) : (quadFields n).length = 2 := rfl

/-! ### The loop -/

/-- A dotted quad fills two fields. -/
theorem set_filled_quad {done : List UInt16} (v w : UInt16) (h : done.length + 2 ≤ 8) :
    ((filled done).set done.length v).set (done.length + 1) w = filled (done ++ [v, w]) := by
  have hsecond := set_filled w (show (done ++ [v]).length < 8 by
    rw [List.length_append, List.length_singleton]
    omega)
  rw [List.length_append, List.length_singleton, List.append_assoc] at hsecond
  rw [set_filled v (by omega), hsecond]
  rfl

/-- The loop goes through the pieces, and fills the fields when there are at most eight. -/
theorem parseGroups_pieces {groups : List (List Char)} {vs : List UInt16} (text zone : List Char)
    (h : PiecesText groups vs) (hearly : EarlyBlanks groups) (hlen : groups.length ≤ 8)
    (hmore : [] ∈ groups ∨ 8 ≤ vs.length) :
    ∃ c addr, LastBlank groups c ∧ (vs.length ≤ 8 → addr = filled vs) ∧
      parseGroups text zone groups 0 none (List.replicate 8 0)
        = .ok (.groups vs.length c addr) := by
  rcases h.cases_quad with hplain | ⟨front, us, quad, n, rfl, rfl, hfront, hquad⟩
  · obtain ⟨c, hscans⟩ := exists_scans hplain hlen hearly
    have hrun := hscans.parseGroups_eq text zone []
    rw [List.append_nil, parseGroups] at hrun
    exact ⟨c, _, hscans.lastBlank.2, fun _ => rfl, hrun⟩
  · rw [List.length_append, List.length_singleton] at hlen
    rw [List.length_append, length_quadFields] at hmore ⊢
    obtain ⟨c, hscans⟩ := exists_scans hfront (by omega) hearly.left
    obtain ⟨ipv4, rfl⟩ := hquad.exists_word
    have hlength := hscans.length_eq
    have hne : quad ≠ [] := List.ne_nil_of_length_pos (by have := hquad.length; omega)
    have hpos : 0 < us.length := by
      by_contra hzero
      obtain rfl := List.length_eq_zero_iff.mp (show front.length = 0 by omega)
      rcases hmore with hblank | hmany
      · rw [List.nil_append, List.mem_singleton] at hblank
        exact hne hblank.symm
      · omega
    refine ⟨c, ((filled us).set us.length (ipv4 >>> 16).toUInt16).set (us.length + 1) ipv4.toUInt16,
      (lastBlank_snoc hne).mpr hscans.lastBlank.2, fun hroom => ?_, ?_⟩
    · rw [quadFields_toNat]
      exact set_filled_quad _ _ hroom
    · rw [hscans.parseGroups_eq, ← tracedGroups_fst, tracedGroups_quad hpos (by omega) hquad]
      rfl

/-- What the loop goes through are pieces. -/
theorem pieces_of_loopEnds {text zone : List Char} {groups : List (List Char)} {i : ℕ}
    {c : Option ℕ} {addr : List UInt16} (h : LoopEnds text zone groups (.groups i c addr)) :
    ∃ vs, PiecesText groups vs ∧ EarlyBlanks groups ∧ groups.length ≤ 8 ∧ LastBlank groups c ∧
      i = vs.length := by
  cases h with
  | @plain vs c h =>
    exact ⟨vs, .of_forall₂ h.forall₂, h.lastBlank.1, h.length_le, h.lastBlank.2, rfl⟩
  | @quad front vs c quad ipv4 hgroups h hpos hroom hquad =>
    have hne : quad ≠ [] := List.ne_nil_of_length_pos (by have := hquad.length; omega)
    have hlength := h.length_eq
    subst hgroups
    refine ⟨vs ++ quadFields ipv4.toNat, .of_quad h.forall₂ hquad,
      earlyBlanks_snoc hne h.lastBlank.1, ?_, (lastBlank_snoc hne).mpr h.lastBlank.2, ?_⟩
    · rw [List.length_append, List.length_singleton]
      omega
    · rw [List.length_append, length_quadFields]

/-! ### The groups of a text -/

/-- Groups that are printed with two colons for zeros between `front` and `back`. -/
def collapsed (front back : List (List Char)) : List (List Char) :=
  (if front = [] then [[]] else front) ++ [[]] ++ (if back = [] then [[]] else back)

theorem splitOn_collapsed {front back : List (List Char)} (hfront : ∀ group ∈ front, ':' ∉ group)
    (hback : ∀ group ∈ back, ':' ∉ group) :
    ([':'].intercalate front ++ ':' :: ':' :: [':'].intercalate back).splitOn ':'
      = collapsed front back := by
  have hsplit : ∀ {groups : List (List Char)}, (∀ group ∈ groups, ':' ∉ group) →
      ([':'].intercalate groups).splitOn ':' = if groups = [] then [[]] else groups := by
    intro groups h
    split_ifs with hnil
    · rw [hnil]
      rfl
    · exact List.splitOn_intercalate _ h hnil
  rw [List.splitOn_append_cons_self, hsplit hfront, ← List.nil_append (':' :: _),
    List.splitOn_append_cons_self, hsplit hback, collapsed, List.append_assoc]
  rfl

section Colons

variable {front back : List (List Char)} {group : List Char}

theorem PiecesText.not_mem {groups : List (List Char)} {vs : List UInt16}
    (h : PiecesText groups vs) : ∀ group ∈ groups, ':' ∉ group := by
  induction h with
  | nil => exact fun group hgroup => absurd hgroup List.not_mem_nil
  | quad h =>
    intro group hgroup
    rw [List.mem_singleton.mp hgroup]
    exact h.not_mem (by decide) (by decide)
  | cons hgroup h ih =>
    intro group hmem
    rcases List.mem_cons.mp hmem with rfl | hmem
    · rcases hgroup with ⟨rfl, -⟩ | hhex
      · exact List.not_mem_nil
      · exact not_mem_of_spells hhex.1 (by decide)
    · exact ih group hmem

/-- A single colon at the start. -/
theorem strayColon_start (hgroup : group ≠ []) (hplain : ':' ∉ group) :
    StrayColon ([':'].intercalate ([] :: group :: back)) := by
  obtain ⟨c, cs, rfl⟩ := List.exists_cons_of_ne_nil hgroup
  rw [intercalate_cons, List.nil_append, List.flatMap_cons]
  refine Or.inr (Or.inr (Or.inl ⟨c, _, rfl, ?_⟩))
  rintro rfl
  exact hplain (List.mem_cons_self ..)

theorem intercalate_snoc (hfront : front ≠ []) (group : List Char) :
    [':'].intercalate (front ++ [group]) = [':'].intercalate front ++ ':' :: group := by
  rw [intercalate_append hfront, List.flatMap_singleton]

/-- The last group is at the end of the text. -/
theorem exists_intercalate_snoc (front : List (List Char)) (group : List Char) :
    ∃ init, [':'].intercalate (front ++ [group]) = init ++ group := by
  rcases eq_or_ne front [] with rfl | hfront
  · exact ⟨[], by simp [List.intercalate]⟩
  · exact ⟨[':'].intercalate front ++ [':'], by rw [intercalate_snoc hfront]; simp⟩

/-- A single colon at the end. -/
theorem strayColon_end (hfront : front ≠ []) (hne : [] ∉ front)
    (hplain : ∀ group ∈ front, ':' ∉ group) :
    StrayColon ([':'].intercalate (front ++ [[]])) := by
  have hlast := List.dropLast_append_getLast hfront
  have hmem := List.getLast_mem hfront
  set last := front.getLast hfront
  have hlastNe : last ≠ [] := fun hnil => hne (hnil ▸ hmem)
  obtain ⟨init, hinit⟩ := exists_intercalate_snoc front.dropLast last
  rw [hlast] at hinit
  rw [intercalate_snoc hfront, hinit, ← List.dropLast_append_getLast hlastNe]
  refine Or.inr (Or.inr (Or.inr (Or.inl ⟨init ++ last.dropLast, last.getLast hlastNe, ?_, ?_⟩)))
  · simp
  · rintro hcolon
    exact hplain last hmem (hcolon ▸ List.getLast_mem hlastNe)

/-- Three colons in a row. -/
theorem strayColon_three (hfront : front ≠ []) (hback : back ≠ []) :
    StrayColon ([':'].intercalate (front ++ [] :: [] :: back)) := by
  obtain ⟨group, rest, rfl⟩ := List.exists_cons_of_ne_nil hback
  rw [intercalate_append hfront]
  refine Or.inr (Or.inr (Or.inr (Or.inr ⟨[':'].intercalate front, group ++ rest.flatMap (':' :: ·), ?_⟩)))
  simp

end Colons

/-- An empty group behind others. -/
theorem exists_blank_behind (front : List (List Char)) {back : List (List Char)} (h : [] ∈ back) :
    ∃ k, front.length ≤ k ∧ (front ++ back)[k]? = some [] := by
  obtain ⟨k, hk⟩ := List.mem_iff_getElem?.mp h
  refine ⟨front.length + k, Nat.le_add_right _ _, ?_⟩
  rwa [List.getElem?_append_right (Nat.le_add_right _ _), Nat.add_sub_cancel_left]

/-- Behind an empty group there is none from the third on. -/
theorem not_mem_of_earlyBlanks (front : List (List Char)) {back : List (List Char)}
    (h : EarlyBlanks (front ++ back)) {j : ℕ} (hj : front[j]? = some []) (hlen : 3 ≤ front.length) : [] ∉ back := by
  intro hblank
  obtain ⟨k, hk, hget⟩ := exists_blank_behind front hblank
  have hlt := (List.getElem?_eq_some_iff.mp hj).1
  have htwo := h j k (by omega) (by rwa [List.getElem?_append_left hlt]) hget
  omega

/-- Without stray colons all groups are there, or zeros are left out at one place. -/
theorem exists_collapsed {groups : List (List Char)} (hplain : ∀ group ∈ groups, ':' ∉ group)
    (hstray : ¬ StrayColon ([':'].intercalate groups)) (hearly : EarlyBlanks groups) :
    [] ∉ groups ∨ ∃ front back, [] ∉ front ∧ [] ∉ back ∧ groups = collapsed front back ∧
      (back = [] → front.length ≤ 1) := by
  by_cases hblank : [] ∈ groups
  · right
    obtain ⟨front, back, rfl, hfront⟩ := List.eq_append_cons_of_mem hblank
    rcases eq_or_ne front [] with rfl | hne
    · rcases back with _ | ⟨group, rest⟩
      · exact absurd (Or.inl rfl) hstray
      rcases eq_or_ne group [] with rfl | hgroup
      · rcases rest with _ | ⟨group, rest⟩
        · exact absurd (Or.inr (Or.inl rfl)) hstray
        have hrest : [] ∉ rest := not_mem_of_earlyBlanks [[], [], group] hearly (j := 0) rfl le_rfl
        rcases eq_or_ne group [] with rfl | hgroup
        · rcases eq_or_ne rest [] with rfl | hrestNe
          · exact ⟨[], [], List.not_mem_nil, List.not_mem_nil, rfl, fun _ => Nat.zero_le _⟩
          · exact absurd (strayColon_three (List.cons_ne_nil [] []) hrestNe) hstray
        · refine ⟨[], group :: rest, List.not_mem_nil, ?_, rfl, fun hnil => by simp at hnil⟩
          rw [List.mem_cons, not_or]
          exact ⟨hgroup.symm, hrest⟩
      · exact absurd (strayColon_start hgroup (hplain group (by simp))) hstray
    · rcases back with _ | ⟨group, rest⟩
      · exact absurd (strayColon_end hne hfront fun g hg => hplain g (by simp [hg])) hstray
      have hpos := List.length_pos_iff.mpr hne
      have hrest : [] ∉ rest := by
        refine not_mem_of_earlyBlanks (front ++ [[], group]) ?_
          (show (front ++ [[], group])[front.length]? = some [] by simp) ?_
        · simpa using hearly
        · simp
          omega
      rcases eq_or_ne group [] with rfl | hgroup
      · have hone : front.length + 1 ≤ 2 :=
          hearly front.length (front.length + 1) (by omega) (by simp) (by simp)
        rcases eq_or_ne rest [] with rfl | hrestNe
        · refine ⟨front, [], hfront, List.not_mem_nil, ?_, fun _ => by omega⟩
          rw [collapsed, if_neg hne, if_pos rfl, List.append_assoc]
          rfl
        · exact absurd (strayColon_three hne hrestNe) hstray
      · refine ⟨front, group :: rest, hfront, ?_, ?_, fun hnil => by simp at hnil⟩
        · rw [List.mem_cons, not_or]
          exact ⟨hgroup.symm, hrest⟩
        · rw [collapsed, if_neg hne, if_neg (by simp), List.append_assoc]
          rfl
  · exact Or.inl hblank

/-! ### Where the empty groups are -/

section Blanks

variable {front back : List (List Char)}

/-- A list that stands for itself, or for one empty group. -/
theorem length_orBlank (groups : List (List Char)) :
    (if groups = [] then [[]] else groups).length = max 1 groups.length := by
  split_ifs with h
  · rw [h]
    rfl
  · have hpos := List.length_pos_iff.mpr h
    omega

theorem length_collapsed (front back : List (List Char)) :
    (collapsed front back).length = max 1 front.length + 1 + max 1 back.length := by
  rw [collapsed, List.length_append, List.length_append, length_orBlank, length_orBlank,
    List.length_singleton]

theorem blank_orBlank_iff {groups : List (List Char)} (h : [] ∉ groups) (k : ℕ) :
    (if groups = [] then [[]] else groups)[k]? = some [] ↔ groups.length = 0 ∧ k = 0 := by
  rw [List.length_eq_zero_iff]
  split_ifs with hnil
  · rw [and_iff_right hnil, List.getElem?_singleton]
    simp
  · exact iff_of_false (fun hk => h (List.mem_of_getElem? hk)) fun hk => hnil hk.1

/-- The empty groups of a text with two colons. -/
theorem blank_collapsed_iff (hfront : [] ∉ front) (hback : [] ∉ back) (k : ℕ) :
    (collapsed front back)[k]? = some [] ↔
      k = max 1 front.length ∨ (front.length = 0 ∧ k = 0) ∨
        (back.length = 0 ∧ k = max 1 front.length + 1) := by
  have hlen := length_orBlank front
  rw [collapsed]
  rcases Nat.lt_trichotomy k (max 1 front.length) with hlt | heq | hgt
  · rw [List.append_assoc, List.getElem?_append_left (by omega), blank_orBlank_iff hfront]
    omega
  · rw [List.append_assoc, List.getElem?_append_right (by omega), hlen, heq, Nat.sub_self]
    simp
  · have hmid : ((if front = [] then [[]] else front) ++ [[]]).length = max 1 front.length + 1 := by
      rw [List.length_append, hlen, List.length_singleton]
    rw [List.getElem?_append_right (by omega), blank_orBlank_iff hback, hmid]
    omega

end Blanks

theorem splitOn_cons_colon (text : List Char) :
    (':' :: text).splitOn ':' = [] :: text.splitOn ':' :=
  List.splitOn_append_cons_self [] text

/-- Stray colons show in where the empty groups are. -/
theorem blanks_of_strayColon {body : List Char} (h : StrayColon body) :
    ((body.splitOn ':').length ≤ 2 ∧ [] ∈ body.splitOn ':') ∨
      ((body.splitOn ':')[0]? = some [] ∧ (body.splitOn ':')[1]? ≠ some []) ∨
      (∃ k, (body.splitOn ':').length = k + 2 ∧ (body.splitOn ':')[k]? ≠ some [] ∧
        (body.splitOn ':')[k + 1]? = some []) ∨
      ∃ k, 1 ≤ k ∧ k + 2 < (body.splitOn ':').length ∧ (body.splitOn ':')[k]? = some [] ∧
        (body.splitOn ':')[k + 1]? = some [] := by
  rcases h with rfl | rfl | ⟨c, rest, rfl, hc⟩ | ⟨front, c, rfl, hc⟩ | ⟨front, back, rfl⟩
  · exact Or.inl ⟨by decide, by decide⟩
  · exact Or.inl ⟨by decide, by decide⟩
  · refine Or.inr (Or.inl ?_)
    have htext : [':'].intercalate ((c :: rest).splitOn ':') = c :: rest := List.intercalate_splitOn ':'
    rw [splitOn_cons_colon]
    refine ⟨rfl, ?_⟩
    rw [List.getElem?_cons_succ]
    intro hblank
    rcases hgroups : (c :: rest).splitOn ':' with _ | ⟨group, groups⟩
    · exact List.splitOn_ne_nil ':' _ hgroups
    rw [hgroups] at htext hblank
    obtain rfl : group = [] := by simpa using hblank
    rw [intercalate_cons, List.nil_append] at htext
    rcases groups with _ | ⟨group, groups⟩
    · simp at htext
    · simp at htext
      exact hc htext.1.symm
  · refine Or.inr (Or.inr (Or.inl ?_))
    have hsplit : (front ++ [c, ':']).splitOn ':' = (front ++ [c]).splitOn ':' ++ [[]] := by
      have h := List.splitOn_append_cons_self (a := ':') (front ++ [c]) []
      rwa [List.append_assoc] at h
    have htext : [':'].intercalate ((front ++ [c]).splitOn ':') = front ++ [c] :=
      List.intercalate_splitOn ':'
    have hne := List.splitOn_ne_nil ':' (front ++ [c])
    have hlast := List.dropLast_append_getLast hne
    set init := ((front ++ [c]).splitOn ':').dropLast
    set last := ((front ++ [c]).splitOn ':').getLast hne
    have hlastNe : last ≠ [] := by
      intro hnil
      rw [← hlast, hnil] at htext
      rcases eq_or_ne init [] with hinit | hinit
      · rw [hinit] at htext
        simp [List.intercalate] at htext
      · rw [intercalate_snoc hinit] at htext
        exact hc (List.singleton_inj.mp (List.append_inj_right' htext rfl)).symm
    rw [hsplit, ← hlast]
    exact ⟨init.length, by simp, by simpa using hlastNe, by simp⟩
  · refine Or.inr (Or.inr (Or.inr ?_))
    have hsplit : (front ++ [':', ':', ':'] ++ back).splitOn ':'
        = front.splitOn ':' ++ ([] :: [] :: back.splitOn ':') := by
      rw [List.append_assoc, List.cons_append, List.splitOn_append_cons_self, List.cons_append,
        splitOn_cons_colon, List.cons_append, splitOn_cons_colon, List.nil_append]
    have hfront := List.length_pos_iff.mpr (List.splitOn_ne_nil ':' front)
    have hback := List.length_pos_iff.mpr (List.splitOn_ne_nil ':' back)
    rw [hsplit]
    refine ⟨(front.splitOn ':').length, hfront, ?_, by simp, by simp⟩
    simp only [List.length_append, List.length_cons]
    omega

theorem FieldsText.not_mem {groups : List (List Char)} {vs : List UInt16} (h : FieldsText groups vs)
    {c : Char} (hc : 16 ≤ digitValue c) (hdot : c ≠ '.') : ∀ group ∈ groups, c ∉ group := by
  induction h with
  | nil => exact fun group hgroup => absurd hgroup List.not_mem_nil
  | quad h =>
    intro group hgroup
    rw [List.mem_singleton.mp hgroup]
    exact h.not_mem (by omega) hdot
  | cons hgroup h ih =>
    intro group hmem
    rcases List.mem_cons.mp hmem with rfl | hmem
    · exact not_mem_of_spells hgroup.1 hc
    · exact ih group hmem

theorem FieldsText.ne_nil {groups : List (List Char)} {vs : List UInt16}
    (h : FieldsText groups vs) : [] ∉ groups := by
  induction h with
  | nil => exact List.not_mem_nil
  | quad h =>
    rw [List.mem_singleton]
    rintro rfl
    exact absurd h.length (by decide)
  | cons hgroup h ih =>
    rw [List.mem_cons, not_or]
    exact ⟨hgroup.1.ne_nil.symm, ih⟩

theorem fieldsText_of_forall₂ {groups : List (List Char)} {vs : List UInt16}
    (h : List.Forall₂ (fun group v => HexGroup group v.toNat) groups vs) : FieldsText groups vs := by
  induction h with
  | nil => exact .nil
  | cons hgroup _ ih => exact .cons hgroup ih

/-- The documented texts have no stray colons. -/
theorem IPv6Text.not_strayColon {body : List Char} {vs : List UInt16} (h : IPv6Text body vs) :
    ¬ StrayColon body := by
  intro hstray
  have hblanks := blanks_of_strayColon hstray
  cases h with
  | @full groups vs h hlen =>
    have hnil : groups ≠ [] := by
      rintro rfl
      cases h
      simp at hlen
    rw [List.splitOn_intercalate _ (h.not_mem (by decide) (by decide)) hnil] at hblanks
    have hblank : [] ∈ groups := by
      rcases hblanks with h | h | ⟨k, -, -, h⟩ | ⟨k, -, -, h, -⟩
      · exact h.2
      · exact List.mem_of_getElem? h.1
      · exact List.mem_of_getElem? h
      · exact List.mem_of_getElem? h
    exact h.ne_nil hblank
  | @compressed front back us ws hfront hback hlen =>
    have hfields := fieldsText_of_forall₂ hfront
    have hlength := length_collapsed front back
    have hiff := blank_collapsed_iff hfields.ne_nil hback.ne_nil
    rw [splitOn_collapsed (hfields.not_mem (by decide) (by decide))
      (hback.not_mem (by decide) (by decide))] at hblanks
    rcases hblanks with h | ⟨h0, h1⟩ | ⟨k, hk, hnot, h⟩ | ⟨k, hpos, hk, h, h'⟩
    · omega
    · rw [ne_eq, hiff] at h1
      rw [hiff] at h0
      omega
    · rw [ne_eq, hiff] at hnot
      rw [hiff] at h
      omega
    · rw [hiff] at h h'
      omega

/-! ### The fields of a text -/

/-- Only the last of the pieces may be a dotted quad. -/
theorem PiecesText.append {front back : List (List Char)} {vs : List UInt16}
    (h : PiecesText (front ++ back) vs) (hback : back ≠ []) :
    ∃ us ws, vs = us ++ ws ∧ List.Forall₂ PieceText front us ∧ PiecesText back ws := by
  induction front generalizing vs with
  | nil => exact ⟨[], vs, rfl, .nil, h⟩
  | cons group front ih =>
    rw [List.cons_append] at h
    generalize hgroups : group :: (front ++ back) = groups at h
    cases h with
    | nil => cases hgroups
    | quad h =>
      have hnil := (List.cons.inj hgroups).2
      exact absurd (List.append_eq_nil_iff.mp hnil).2 hback
    | @cons group' v groups' vs hgroup h =>
      cases hgroups
      obtain ⟨us, ws, rfl, hus, hws⟩ := ih h
      exact ⟨v :: us, ws, rfl, .cons hgroup hus, hws⟩

theorem forall₂_hex {groups : List (List Char)} {vs : List UInt16}
    (h : List.Forall₂ PieceText groups vs) (hne : [] ∉ groups) :
    List.Forall₂ (fun group v => HexGroup group v.toNat) groups vs := by
  induction h with
  | nil => exact .nil
  | cons hgroup _ ih =>
    rw [List.mem_cons, not_or] at hne
    exact .cons (hgroup.resolve_left fun hnil => hne.1 hnil.1.symm) (ih hne.2)

theorem pieces_blank {vs : List UInt16} (h : List.Forall₂ PieceText [[]] vs) : vs = [0] := by
  obtain ⟨v, vs, hpiece, hnil, rfl⟩ := List.forall₂_cons_left_iff.mp h
  obtain rfl := List.forall₂_nil_left_iff.mp hnil
  rcases hpiece with ⟨-, rfl⟩ | hhex
  · rfl
  · exact absurd rfl hhex.1.ne_nil

/-- The fields of a text with two colons. -/
theorem PiecesText.collapsed {front back : List (List Char)} {vs : List UInt16}
    (hfront : [] ∉ front) (hback : [] ∉ back) (h : PiecesText (collapsed front back) vs) :
    ∃ us ws, List.Forall₂ (fun group v => HexGroup group v.toNat) front us ∧ FieldsText back ws ∧
      vs = us ++ List.replicate (1 - front.length + 1 + (1 - back.length)) 0 ++ ws := by
  have hbackNe : (if back = [] then [[]] else back) ≠ [] := by
    split_ifs with hnil
    · simp
    · exact hnil
  obtain ⟨us, ws, rfl, hus, hws⟩ := h.append hbackNe
  obtain ⟨us, mid, rfl, hleft, hmid⟩ := forall₂_append_left hus
  obtain rfl := pieces_blank hmid
  have hfrontFields : ∃ us', List.Forall₂ (fun group v => HexGroup group v.toNat) front us' ∧
      us = us' ++ List.replicate (1 - front.length) 0 := by
    split_ifs at hleft with hnil
    · obtain rfl := pieces_blank hleft
      subst hnil
      exact ⟨[], .nil, rfl⟩
    · have hpos := List.length_pos_iff.mpr hnil
      exact ⟨us, forall₂_hex hleft hfront, by rw [show 1 - front.length = 0 by omega]; simp⟩
  have hbackFields : ∃ ws', FieldsText back ws' ∧
      ws = List.replicate (1 - back.length) 0 ++ ws' := by
    split_ifs at hws with hnil
    · rcases hws.cases_quad with hplain | ⟨init, us, quad, n, heq, -, -, hquad⟩
      · obtain rfl := pieces_blank hplain
        subst hnil
        exact ⟨[], .nil, rfl⟩
      · have hlast := List.append_inj_right' (show [] ++ [[]] = init ++ [quad] from heq) rfl
        rw [← List.singleton_inj.mp hlast] at hquad
        exact absurd hquad.length (by decide)
    · have hpos := List.length_pos_iff.mpr hnil
      exact ⟨ws, hws.fields hback, by rw [show 1 - back.length = 0 by omega]; simp⟩
  obtain ⟨us', hus', rfl⟩ := hfrontFields
  obtain ⟨ws', hws', rfl⟩ := hbackFields
  refine ⟨us', ws', hus', hws', ?_⟩
  rw [List.replicate_add, List.replicate_add]
  simp only [List.append_assoc]
  rfl

/-- The zeros that are left out are put in. -/
theorem finishParse_zeros {us ws : List UInt16} {m : ℕ} (zone : List Char) (hm : 1 ≤ m)
    (hlen : us.length + m + ws.length ≤ 8) :
    finishParse zone (.groups (us ++ List.replicate m 0 ++ ws).length (some (us.length + m - 1))
        (filled (us ++ List.replicate m 0 ++ ws)))
      = .ok (makeIPv6 (us ++ List.replicate (8 - (us.length + ws.length)) 0 ++ ws) zone) := by
  have hfront : us ++ List.replicate m (0 : UInt16) ≠ [] := by
    intro hnil
    have hlength := congrArg List.length hnil
    rw [List.length_append, List.length_replicate, List.length_nil] at hlength
    omega
  have hexpand := @finishParse_expand zone (us ++ List.replicate m 0) ws hfront
  have hlength : (us ++ List.replicate m (0 : UInt16)).length = us.length + m := by
    rw [List.length_append, List.length_replicate]
  rw [hlength] at hexpand
  rw [hexpand, List.length_append, hlength, List.append_assoc us, ← List.replicate_add,
    show m + (8 - (us.length + m + ws.length)) = 8 - (us.length + ws.length) by omega]

/-! ### The address -/

/-- The fields are the bytes of the address. -/
theorem bytes_makeIPv6 {vs : List UInt16} (h : vs.length = 8) (zone : List Char) :
    (makeIPv6 vs zone).bytes = vs.flatMap fun v => beBytes 2 v.toNat := by
  set all := vs.flatMap fun v => beBytes 2 v.toNat with hall
  have hlen : all.length = 16 := by
    rw [hall, List.length_flatMap]
    simp [h]
  have hword : ∀ bs : List UInt8, bs.length = 8 →
      beBytes 8 (UInt64.ofNat (beNat bs)).toNat = bs := by
    intro bs hbs
    have hlt := beNat_lt bs
    rw [hbs] at hlt
    have hword := beBytes_beNat bs
    rw [hbs] at hword
    rw [UInt64.toNat_ofNat', Nat.mod_eq_of_lt (show beNat bs < 2 ^ 64 by omega), hword]
  show beBytes 8 (UInt64.ofNat (beNat (all.take 8))).toNat
    ++ beBytes 8 (UInt64.ofNat (beNat (all.drop 8))).toNat = all
  rw [hword _ (by rw [List.length_take]; omega), hword _ (by rw [List.length_drop]; omega),
    List.take_append_drop]

theorem zoneText_zonePart {text : List Char} {noZone : Bool} (h : ZoneAccepted text noZone) :
    zonePart text = zoneText (String.ofList ((zonePart text).drop 1)) := by
  rcases eq_or_ne (zonePart text) [] with hnil | hne
  · rw [hnil]
    rfl
  · have hlong : 1 < (zonePart text).length := by
      rcases h with h | h
      · exact absurd h hne
      · exact h.2
    have hhead : (zonePart text).head hne = '%' :=
      bne_eq_false_iff_eq.mp (List.head_dropWhile_not (· != '%') hne)
    have hcons := List.cons_head_tail hne
    rw [hhead] at hcons
    have hzone : String.ofList ((zonePart text).drop 1) ≠ "" := by
      intro hempty
      have hlist := congrArg String.toList hempty
      rw [String.toList_ofList] at hlist
      have hlength := congrArg List.length hlist
      rw [List.length_drop] at hlength
      simp at hlength
      omega
    rw [zoneText, if_pos hzone, String.toList_ofList, List.drop_one, hcons]

/-- The zone is found behind a text without the separator. -/
theorem hostText_append {body : List Char} (h : '%' ∉ body) (zone : String) :
    hostText (body ++ zoneText zone) = body := by
  have hbody : ∀ c ∈ body, (c != '%') = true := by
    intro c hc
    rw [bne_iff_ne]
    rintro rfl
    exact h hc
  rw [hostText, List.takeWhile_append_of_pos hbody, zoneText]
  split_ifs
  · simp
  · simp

/-! ### The parser and the grammar -/

theorem IPv6Text.length_eq {body : List Char} {vs : List UInt16} (h : IPv6Text body vs) :
    vs.length = 8 := by
  cases h with
  | full h hlen => exact hlen
  | compressed hfront hback hlen =>
    rw [List.length_append, List.length_append, List.length_replicate]
    omega

theorem IPv6Text.percent_notMem {body : List Char} {vs : List UInt16} (h : IPv6Text body vs) :
    '%' ∉ body := by
  cases h with
  | full h hlen => exact not_mem_intercalate (by decide) (h.not_mem (by decide) (by decide))
  | compressed hfront hback hlen =>
    have hleft := (fieldsText_of_forall₂ hfront).not_mem (c := '%') (by decide) (by decide)
    have hright := hback.not_mem (c := '%') (by decide) (by decide)
    simp only [List.mem_append, List.mem_cons, not_or]
    exact ⟨not_mem_intercalate (by decide) hleft, by decide, by decide,
      not_mem_intercalate (by decide) hright⟩

/-- A text of pieces without stray colons is one of the documented texts, and the loop
and what follows it make up its fields. -/
theorem exists_fields {body : List Char} {vs : List UInt16} (zone : List Char)
    (h : PiecesText (body.splitOn ':') vs) (hearly : EarlyBlanks (body.splitOn ':'))
    (hlen : (body.splitOn ':').length ≤ 8) (hmore : [] ∈ body.splitOn ':' ∨ 8 ≤ vs.length)
    (hstray : ¬ StrayColon body) (hvs : vs.length ≤ 8) :
    ∃ fields, IPv6Text body fields ∧
      (parseGroups body zone (body.splitOn ':') 0 none (List.replicate 8 0) >>= finishParse zone)
        = .ok (makeIPv6 fields zone) := by
  have htext : [':'].intercalate (body.splitOn ':') = body := List.intercalate_splitOn ':'
  obtain ⟨c, addr, hlast, haddr, hrun⟩ := parseGroups_pieces body zone h hearly hlen hmore
  obtain rfl := haddr hvs
  rw [hrun, ok_bind_finishParse]
  rcases exists_collapsed h.not_mem (by rwa [htext]) hearly with hfull | ⟨front, back, hfront, hback, hgroups, -⟩
  · have height : vs.length = 8 := by
      have hmany := hmore.resolve_left hfull
      omega
    refine ⟨vs, ?_, ?_⟩
    · have hfields := IPv6Text.full (h.fields hfull) height
      rwa [htext] at hfields
    · show (if vs.length < 8 then _ else (.ok (makeIPv6 (filled vs) zone) : Maybe IPAddress)) = _
      rw [if_neg (by omega), filled, height, Nat.sub_self, List.replicate_zero, List.append_nil]
  · rw [hgroups] at h hlast
    obtain ⟨us, ws, hus, hws, rfl⟩ := h.collapsed hfront hback
    have hlength : front.length = us.length := hus.length_eq
    have hiff := blank_collapsed_iff hfront hback
    set m := 1 - front.length + 1 + (1 - back.length) with hm
    have hc : c = some (us.length + m - 1) := by
      cases c with
      | none => exact absurd (List.mem_of_getElem? ((hiff _).mpr (Or.inl rfl))) hlast
      | some k =>
        obtain ⟨hk, hmax⟩ := hlast
        have hmid := hmax _ ((hiff _).mpr (Or.inl rfl))
        have hend := fun h : back.length = 0 => hmax _ ((hiff _).mpr (Or.inr (Or.inr ⟨h, rfl⟩)))
        rw [hiff] at hk
        congr 1
        rcases Nat.eq_zero_or_pos back.length with hzero | hpos
        · have hend := hend hzero
          omega
        · omega
    rw [List.length_append, List.length_append, List.length_replicate] at hvs
    refine ⟨us ++ List.replicate (8 - (us.length + ws.length)) 0 ++ ws, ?_, ?_⟩
    · have hfields := IPv6Text.compressed hus hws (by omega)
      have hsplit := splitOn_collapsed ((fieldsText_of_forall₂ hus).not_mem (by decide) (by decide))
        (hws.not_mem (by decide) (by decide))
      rw [← hgroups] at hsplit
      have hbody := congrArg [':'].intercalate hsplit
      rw [List.intercalate_splitOn, htext] at hbody
      rwa [hbody] at hfields
    · rw [hc]
      exact finishParse_zeros zone (by omega) (by omega)

/-- Eight groups with a dotted quad as the last stand for nine fields. -/
theorem length_of_quadBehindSeven {groups : List (List Char)} {vs : List UInt16}
    (h : PiecesText groups vs) (hlen : groups.length ≤ 8) (hseven : QuadBehindSeven groups) :
    vs.length = 9 := by
  obtain ⟨front, us, quad, n, rest, rfl, hfront, -, -, hquad⟩ := hseven
  rw [List.length_append, List.length_cons] at hlen
  obtain rfl := List.length_eq_zero_iff.mp (show rest.length = 0 by omega)
  obtain ⟨us, ws, rfl, hus, hws⟩ := h.append (List.cons_ne_nil _ _)
  have hlong := hquad.length
  have htwo : ws.length = 2 := by
    rcases hws.cases_quad with hplain | ⟨init, us', quad', n', heq, rfl, hinit, -⟩
    · obtain ⟨v, vs, hpiece, -, rfl⟩ := List.forall₂_cons_left_iff.mp hplain
      rcases hpiece with ⟨rfl, -⟩ | hhex
      · exact absurd hlong (by decide)
      · have hshort := hhex.2
        omega
    · have hone := congrArg List.length heq
      rw [List.length_append, List.length_singleton, List.length_singleton] at hone
      have hnone := hinit.length_eq
      rw [List.length_append, length_quadFields]
      omega
  have hus := hus.length_eq
  rw [List.length_append]
  omega

/-- Nine fields are eight groups with a dotted quad as the last. -/
theorem quadBehindSeven_of_length {groups : List (List Char)} {vs : List UInt16}
    (h : PiecesText groups vs) (hearly : EarlyBlanks groups) (hlen : groups.length ≤ 8)
    (hvs : vs.length = 9) : QuadBehindSeven groups := by
  rcases h.cases_quad with hplain | ⟨front, us, quad, n, rfl, rfl, hfront, hquad⟩
  · have hlength := hplain.length_eq
    omega
  · have hlength := hfront.length_eq
    rw [List.length_append, length_quadFields] at hvs
    exact ⟨front, us, quad, n, [], rfl, by omega, hfront, hearly.left, hquad⟩

theorem PiecesText.length_le {groups : List (List Char)} {vs : List UInt16}
    (h : PiecesText groups vs) : vs.length ≤ groups.length + 1 := by
  induction h with
  | nil => exact Nat.zero_le _
  | quad h => exact le_rfl
  | cons hgroup h ih =>
    rw [List.length_cons, List.length_cons]
    omega

/-- The end of the parser succeeds when there are eight fields or an empty group. -/
theorem exists_finishParse {groups : List (List Char)} {i : ℕ} {c : Option ℕ} (zone : List Char)
    (addr : List UInt16) (hlast : LastBlank groups c) (hmore : [] ∈ groups ∨ 8 ≤ i) :
    ∃ ip, finishParse zone (.groups i c addr) = .ok ip := by
  cases c with
  | none =>
    have hmany := hmore.resolve_left hlast
    exact ⟨_, if_neg (by omega)⟩
  | some k =>
    by_cases hi : i < 8
    · exact ⟨_, if_pos hi⟩
    · exact ⟨_, if_neg hi⟩

/-- A dotted quad has no stray colons. -/
theorem QuadText.not_strayColon {text : List Char} {n : ℕ} (h : QuadText text n) :
    ¬ StrayColon text := by
  have hcolon : ':' ∉ text := h.not_mem (by decide) (by decide)
  rintro (rfl | rfl | ⟨c, rest, rfl, -⟩ | ⟨front, c, rfl, -⟩ | ⟨front, back, rfl⟩)
  · exact absurd h.length (by decide)
  all_goals exact hcolon (by simp)

theorem hostText_of_not_mem {text : List Char} (h : '%' ∉ text) : hostText text = text := by
  have hhost := hostText_append h ""
  rwa [show zoneText "" = [] from rfl, List.append_nil] at hhost

/-- What an address is denoted by has no stray colons. -/
theorem Denotes.not_strayColon {text : List Char} {ip : IPAddress} (h : Denotes text ip) :
    ¬ StrayColon (hostText text) := by
  rcases h with ⟨addr, -, hquad⟩ | ⟨body, vs, htext, hbody, -⟩
  · rw [hostText_of_not_mem (hquad.not_mem (by decide) (by decide))]
    exact hquad.not_strayColon
  · rw [htext, hostText_append hbody.percent_notMem]
    exact hbody.not_strayColon

/-- The parser with the groups of the text. -/
theorem parse_of_zone {text : List Char} {noZone : Bool} (hne : text ≠ [])
    (h : ZoneAccepted text noZone) :
    parse text noZone
      = parseGroups (hostText text) ((zonePart text).drop 1) ((hostText text).splitOn ':') 0 none
        (List.replicate 8 0) >>= finishParse ((zonePart text).drop 1) := by
  rw [← tracedParse_fst, tracedParse_of_zone hne h, ← tracedGroups_fst]

/-- A text that stands for groups is right. -/
theorem denotes_of_groups {text : List Char} {noZone : Bool} {vs : List UInt16}
    (hzone : ZoneAccepted text noZone) (hfields : IPv6Text (hostText text) vs) :
    Denotes text (makeIPv6 vs ((zonePart text).drop 1)) := by
  refine Or.inr ⟨hostText text, vs, ?_, hfields, rfl, bytes_makeIPv6 hfields.length_eq _⟩
  show text = hostText text ++ zoneText (String.ofList ((zonePart text).drop 1))
  rw [← zoneText_zonePart hzone, hostText, zonePart, List.takeWhile_append_dropWhile]

/-- A dotted quad as a whole is right. -/
theorem denotes_of_quad {text : List Char} {noZone : Bool} {addr : UInt32}
    (hzone : ZoneAccepted text noZone) (hnone : (zonePart text).drop 1 = [])
    (h : parseIPv4 (hostText text) = .ok addr) : Denotes text (v4 addr) := by
  have hpart : zonePart text = [] := by
    rw [List.drop_eq_nil_iff] at hnone
    rcases hzone with h | h
    · exact h
    · omega
  have htext : hostText text ++ zonePart text = text := List.takeWhile_append_dropWhile
  rw [hpart, List.append_nil] at htext
  rw [htext, parseIPv4_eq_ok_iff] at h
  exact Or.inl ⟨addr, rfl, h⟩

/-- What the parser accepts is a documented text of the address it returns, but for
loose texts. -/
theorem sound_iff (text : List Char) (noZone : Bool) :
    (∀ ip, parse text noZone = .ok ip →
      Denotes text ip ∧ ∀ a ∈ (tracedParse text noZone).2, a.InBounds) ↔ ¬ LooseText text noZone := by
  constructor
  · rintro h ⟨hne, hzone, vs, hpieces, hearly, hlen, hmore, hbad⟩
    obtain ⟨c, addr, hlast, -, hrun⟩ := parseGroups_pieces (hostText text) ((zonePart text).drop 1)
      hpieces hearly hlen hmore
    obtain ⟨ip, hip⟩ := exists_finishParse ((zonePart text).drop 1) addr hlast hmore
    have hparse : parse text noZone = .ok ip := by
      rw [parse_of_zone hne hzone, hrun, ok_bind_finishParse, hip]
    obtain ⟨hdenotes, hbounds⟩ := h ip hparse
    rcases hbad with hstray | hnine
    · exact hdenotes.not_strayColon hstray
    · exact (inBounds_of_zone hzone).mp hbounds (quadBehindSeven_of_length hpieces hearly hlen hnine)
  · intro hloose ip hparse
    have hne : text ≠ [] := by
      rintro rfl
      cases hparse
    have hzone : ZoneAccepted text noZone := by
      by_contra hzone
      rw [← tracedParse_fst] at hparse
      exact (tracedParse_of_not_zone hzone).1 ip hparse
    rw [inBounds_of_zone hzone]
    rw [parse_of_zone hne hzone] at hparse
    rcases hrun : parseGroups (hostText text) ((zonePart text).drop 1) ((hostText text).splitOn ':')
        0 none (List.replicate 8 0) with e | res
    · rw [hrun] at hparse
      cases hparse
    have hends := loopEnds_of_ok hrun
    rw [hrun, ok_bind_finishParse] at hparse
    cases res with
    | ipv4 addr =>
      cases hparse
      cases hends with
      | @ipv4 group rest _ hgroups hlong hnone h =>
        refine ⟨denotes_of_quad hzone hnone h, ?_⟩
        rintro ⟨front, vs, quad, n, rest', hsplit, hseven, hpieces, -⟩
        rw [hgroups] at hsplit
        rcases front with _ | ⟨first, front⟩
        · cases hseven
        obtain rfl := (List.cons.inj hsplit).1
        obtain ⟨v, vs, hpiece, -, rfl⟩ := List.forall₂_cons_left_iff.mp hpieces
        rcases hpiece with ⟨rfl, -⟩ | hhex
        · exact absurd hlong (by decide)
        · exact absurd hhex.2 (by omega)
    | groups i c addr =>
      obtain ⟨vs, hpieces, hearly, hlen, hlast, rfl⟩ := pieces_of_loopEnds hends
      have hmore : [] ∈ (hostText text).splitOn ':' ∨ 8 ≤ vs.length := by
        rcases c with _ | k
        · refine Or.inr (not_lt.mp fun hfew => ?_)
          have herror : finishParse ((zonePart text).drop 1) (.groups vs.length none addr)
              = .error .syntaxError := if_pos hfew
          rw [herror] at hparse
          cases hparse
        · exact Or.inl (List.mem_of_getElem? hlast.1)
      have hgood : ¬ (StrayColon (hostText text) ∨ vs.length = 9) := fun hbad =>
        hloose ⟨hne, hzone, vs, hpieces, hearly, hlen, hmore, hbad⟩
      rw [not_or] at hgood
      have hle := hpieces.length_le
      obtain ⟨fields, hfields, hresult⟩ := exists_fields ((zonePart text).drop 1) hpieces hearly
        hlen hmore hgood.1 (by omega)
      rw [hrun, ok_bind_finishParse, hparse] at hresult
      cases hresult
      exact ⟨denotes_of_groups hzone hfields,
        fun hseven => hgood.2 (length_of_quadBehindSeven hpieces hlen hseven)⟩

/-- A single colon in front is overlooked. -/
theorem not_forall_sound :
    ¬ ∀ (text : List Char) (noZone : Bool) (ip : IPAddress), parse text noZone = .ok ip →
      Denotes text ip := by
  intro h
  have hdenotes := h ":0:0:0:0:0:0:0".toList false (v6 0 0 "") (by decide)
  have hhost : hostText ":0:0:0:0:0:0:0".toList = ':' :: '0' :: ":0:0:0:0:0:0".toList := by decide
  refine hdenotes.not_strayColon ?_
  rw [hhost]
  exact Or.inr (Or.inr (Or.inl ⟨'0', _, rfl, by decide⟩))

end IPAddress

end Scion
