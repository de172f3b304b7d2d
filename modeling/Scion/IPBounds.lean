/-
The accesses of the IPv6 parser to its array of fields.

* `tracedParse` — the parser with the indices and offsets it uses;
* `tracedParse_fst` — it is the parser;
* `inBounds_iff` — all accesses are in bounds unless seven groups are read and the eighth
  is a dotted quad, whose second field is written past the end.
-/
import Scion.GroupScan

namespace Scion

open Numerals

namespace IPAddress

/-- An access to the array of fields, or a substring from an offset in a text. -/
inductive Access
  | field (i : ℤ)
  | substr (offset length : ℕ)
  deriving DecidableEq, Repr

def Access.InBounds : Access → Prop
  | field i => 0 ≤ i ∧ i ≤ 7
  | substr offset length => offset ≤ length

/-- `parseGroups` with its accesses. -/
def tracedGroups (text zone : List Char) :
    List (List Char) → ℕ → Option ℕ → List UInt16 → Maybe GroupsEnd × List Access
  | [], i, collapsedGroup, addr => (.ok (.groups i collapsedGroup addr), [])
  | group :: rest, i, collapsedGroup, addr =>
    if i > 7 then (.error .syntaxError, [])
    else if group.isEmpty then
      if mayCollapse collapsedGroup i then
        let (res, accesses) := tracedGroups text zone rest (i + 1) (some i) (addr.set i 0)
        (res, .field i :: accesses)
      else (.error .syntaxError, [])
    else if group.length > 4 then
      if i = 0 then
        (if !zone.isEmpty then .error .syntaxError else .ipv4 <$> parseIPv4 text, [])
      else
        match parseIPv4 group with
        | .error _ => (.error .syntaxError, [])
        | .ok ipv4 =>
          -- both fields are written before the group is known to be the last
          (if !rest.isEmpty then .error .syntaxError
            else .ok (.groups (i + 2) collapsedGroup
              ((addr.set i (ipv4 >>> 16).toUInt16).set (i + 1) ipv4.toUInt16)),
            [.field i, .field (i + 1)])
    else
      match fromChars 16 65536 group with
      | ([], some field) =>
        let (res, accesses) :=
          tracedGroups text zone rest (i + 1) collapsedGroup (addr.set i (UInt16.ofNat field))
        (res, .field i :: accesses)
      | _ => (.error .syntaxError, [])

/-- The accesses of `expand`: a field is read and written for each that moves, and the
gap is written. -/
def expandAccesses (i collapsedGroup : ℕ) : List Access :=
  let expandZeros := 8 - i
  let collapsedEnd := collapsedGroup + expandZeros
  ((List.range (7 - collapsedEnd)).map (7 - ·)).flatMap
      (fun j => [.field ((j : ℤ) - expandZeros), .field j])
    ++ (List.range' (collapsedGroup + 1) expandZeros).map fun j : ℕ => .field j

def finishAccesses : Maybe GroupsEnd → List Access
  | .ok (.groups i (some c) _) => if i < 8 then expandAccesses i c else []
  | _ => []

/-- `parse` with its accesses. -/
def tracedParse (text : List Char) (noZone : Bool) : Maybe IPAddress × List Access :=
  if text.isEmpty then (.error .syntaxError, [])
  else
    let text' := text.takeWhile (· != '%')
    let zoneText := text.dropWhile (· != '%')
    if !zoneText.isEmpty && noZone then (.error .requiresZone, [])
    else
      let zone := zoneText.drop 1
      if !zoneText.isEmpty && zone.isEmpty then
        (.error .syntaxError, [.substr (text'.length + 1) text.length])
      else
        let (res, accesses) := tracedGroups text' zone (text'.splitOn ':') 0 none (List.replicate 8 0)
        (res >>= finishParse zone,
          (if zoneText.isEmpty then []
            else [.substr (text'.length + 1) text.length, .substr 0 text.length])
          ++ accesses ++ finishAccesses res)

theorem tracedGroups_fst (text zone : List Char) (groups : List (List Char)) (i : ℕ) (c : Option ℕ)
    (addr : List UInt16) :
    (tracedGroups text zone groups i c addr).1 = parseGroups text zone groups i c addr := by
  induction groups generalizing i c addr with
  | nil => rfl
  | cons group rest ih =>
    rw [tracedGroups, parseGroups]
    by_cases hi : i > 7
    · rw [if_pos hi, if_pos hi]
    rw [if_neg hi, if_neg hi]
    by_cases hempty : group.isEmpty
    · rw [if_pos hempty, if_pos hempty]
      by_cases hc : mayCollapse c i
      · rw [if_pos hc, if_pos hc]
        exact ih _ _ _
      · rw [if_neg hc, if_neg hc]
    rw [if_neg hempty, if_neg hempty]
    by_cases hlong : group.length > 4
    · rw [if_pos hlong, if_pos hlong]
      by_cases hfirst : i = 0
      · rw [if_pos hfirst, if_pos hfirst]
      · rw [if_neg hfirst, if_neg hfirst]
        cases parseIPv4 group with
        | error e => rfl
        | ok ipv4 => rfl
    rw [if_neg hlong, if_neg hlong]
    rcases fromChars 16 65536 group with ⟨_ | ⟨d, ds⟩, _ | field⟩
    · rfl
    · exact ih _ _ _
    · rfl
    · rfl

/-- The instrumented parser is the parser. -/
theorem tracedParse_fst (text : List Char) (noZone : Bool) :
    (tracedParse text noZone).1 = parse text noZone := by
  rw [tracedParse, parse]
  dsimp only
  split_ifs
  · rfl
  · rfl
  · rfl
  · rw [tracedGroups_fst]
  · rw [tracedGroups_fst]

/-! ### The accesses of the loop -/

/-- The accesses to the first fields, one after the other. -/
def fieldAccesses (n : ℕ) : List Access := (List.range n).map fun i : ℕ => .field i

theorem inBounds_of_mem_fieldAccesses {n : ℕ} (hn : n ≤ 8) {a : Access}
    (ha : a ∈ fieldAccesses n) : a.InBounds := by
  rw [fieldAccesses, List.mem_map] at ha
  obtain ⟨i, hi, rfl⟩ := ha
  rw [List.mem_range] at hi
  exact ⟨by omega, by omega⟩

theorem fieldAccesses_succ (n : ℕ) : fieldAccesses (n + 1) = fieldAccesses n ++ [.field n] := by
  rw [fieldAccesses, fieldAccesses, List.range_succ, List.map_append]
  rfl

theorem tracedGroups_hex {text zone group : List Char} {rest : List (List Char)} {c : Option ℕ}
    (done : List UInt16) {v : UInt16} (h : HexGroup group v.toNat) (hroom : done.length < 8) :
    (tracedGroups text zone (group :: rest) done.length c (filled done)).2
      = .field done.length
        :: (tracedGroups text zone rest (done ++ [v]).length c (filled (done ++ [v]))).2 := by
  have hlen := h.2
  rw [tracedGroups, if_neg (by omega), isEmpty_of_spells h.1, if_neg Bool.false_ne_true,
    if_neg (by omega), h.1.fromChars v.toNat_lt, List.length_append, List.length_singleton]
  dsimp only
  rw [UInt16.ofNat_toNat, set_filled v hroom]

theorem tracedGroups_empty {text zone : List Char} {rest : List (List Char)} {c : Option ℕ}
    (done : List UInt16) (hroom : done.length < 8) (hc : mayCollapse c done.length = true) :
    (tracedGroups text zone ([] :: rest) done.length c (filled done)).2
      = .field done.length
        :: (tracedGroups text zone rest (done ++ [0]).length (some done.length)
          (filled (done ++ [0]))).2 := by
  rw [tracedGroups, if_neg (by omega), List.isEmpty_nil, if_pos rfl, if_pos hc, set_filled 0 hroom,
    List.length_append, List.length_singleton]

/-- The groups that are read fill the fields from the first on. -/
theorem Scans.tracedGroups_snd {groups : List (List Char)} {vs : List UInt16} {c : Option ℕ}
    (h : Scans groups vs c) (text zone : List Char) (rest : List (List Char)) :
    (tracedGroups text zone (groups ++ rest) 0 none (List.replicate 8 0)).2
      = fieldAccesses vs.length ++ (tracedGroups text zone rest vs.length c (filled vs)).2 := by
  induction h generalizing rest with
  | nil => rfl
  | @empty groups vs c h hroom hc ih =>
    rw [h.length_eq] at hroom hc ⊢
    rw [List.append_assoc, List.singleton_append, ih, tracedGroups_empty vs hroom hc,
      List.length_append, List.length_singleton, fieldAccesses_succ, List.append_assoc]
    rfl
  | @hex groups vs c group v h hroom hgroup ih =>
    rw [h.length_eq] at hroom
    rw [List.append_assoc, List.singleton_append, ih, tracedGroups_hex vs hgroup hroom,
      List.length_append, List.length_singleton, fieldAccesses_succ, List.append_assoc]
    rfl

/-- Where the loop stops it fails, unless the group has more than four characters. -/
theorem tracedGroups_stop {text zone group : List Char} {rest : List (List Char)} {i : ℕ}
    {c : Option ℕ} {addr : List UInt16} (hstop : ¬ Continues i c group)
    (h : 8 ≤ i ∨ group.length ≤ 4) :
    tracedGroups text zone (group :: rest) i c addr = (.error .syntaxError, []) := by
  rw [tracedGroups]
  by_cases hi : i > 7
  · rw [if_pos hi]
  rw [if_neg hi]
  by_cases hempty : group.isEmpty
  · have hnil := List.isEmpty_iff.mp hempty
    rw [if_pos hempty, if_neg]
    intro hc
    exact hstop ⟨by omega, Or.inl ⟨hnil, hc⟩⟩
  rw [if_neg hempty, if_neg (by omega)]
  rcases hread : fromChars 16 65536 group with ⟨_ | ⟨d, ds⟩, _ | field⟩
  · rfl
  · obtain ⟨hspells, hlt⟩ := fromChars_eq_iff.mp hread
    refine absurd ⟨by omega, Or.inr ⟨UInt16.ofNat field, ?_, by omega⟩⟩ hstop
    rwa [UInt16.toNat_ofNat', Nat.mod_eq_of_lt hlt]
  · rfl
  · rfl

/-- A first group of more than four characters is read with the text as a whole. -/
theorem tracedGroups_first {text zone group : List Char} {rest : List (List Char)} {c : Option ℕ}
    {addr : List UInt16} (hlong : 4 < group.length) :
    tracedGroups text zone (group :: rest) 0 c addr
      = (if !zone.isEmpty then .error .syntaxError else .ipv4 <$> parseIPv4 text, []) := by
  have hempty : ¬ group.isEmpty = true := by
    rw [List.isEmpty_iff, ← List.length_eq_zero_iff]
    omega
  rw [tracedGroups, if_neg (by omega), if_neg hempty, if_pos hlong, if_pos rfl]

/-- A dotted quad behind the first group. -/
theorem tracedGroups_quad {text zone group : List Char} {rest : List (List Char)} {i : ℕ}
    {c : Option ℕ} {addr : List UInt16} {ipv4 : UInt32} (hi : 0 < i) (hroom : i < 8)
    (h : QuadText group ipv4.toNat) :
    tracedGroups text zone (group :: rest) i c addr
      = (if !rest.isEmpty then .error .syntaxError
          else .ok (.groups (i + 2) c
            ((addr.set i (ipv4 >>> 16).toUInt16).set (i + 1) ipv4.toUInt16)),
          [.field i, .field (i + 1)]) := by
  have hlong := h.length
  have hempty : ¬ group.isEmpty = true := by
    rw [List.isEmpty_iff, ← List.length_eq_zero_iff]
    omega
  rw [tracedGroups, if_neg (by omega), if_neg hempty, if_pos hlong, if_neg (by omega),
    parseIPv4_eq_ok_iff.mpr h]

/-- Another long group behind the first one. -/
theorem tracedGroups_long {text zone group : List Char} {rest : List (List Char)} {i : ℕ}
    {c : Option ℕ} {addr : List UInt16} (hi : 0 < i) (hroom : i < 8) (hlong : 4 < group.length)
    (h : ∀ n, ¬ QuadText group n) :
    tracedGroups text zone (group :: rest) i c addr = (.error .syntaxError, []) := by
  have hempty : ¬ group.isEmpty = true := by
    rw [List.isEmpty_iff, ← List.length_eq_zero_iff]
    omega
  rw [tracedGroups, if_neg (by omega), if_neg hempty, if_pos hlong, if_neg (by omega)]
  rcases hread : parseIPv4 group with e | ipv4
  · rfl
  · exact absurd (parseIPv4_eq_ok_iff.mp hread) (h _)

/-- Seven groups are read, and behind them comes a dotted quad. -/
def QuadBehindSeven (groups : List (List Char)) : Prop :=
  ∃ front vs quad n rest, groups = front ++ quad :: rest ∧ front.length = 7 ∧
    List.Forall₂ PieceText front vs ∧ EarlyBlanks front ∧ QuadText quad n

theorem QuadText.lt {text : List Char} {n : ℕ} (h : QuadText text n) : n < 2 ^ 32 := by
  obtain ⟨a, b, c, d, w, x, y, z, -, ha, hb, hc, hd, rfl⟩ := h
  have hw := ha.2
  have hx := hb.2
  have hy := hc.2
  have hz := hd.2
  omega

/-- A dotted quad denotes a word. -/
theorem QuadText.exists_word {text : List Char} {n : ℕ} (h : QuadText text n) :
    ∃ ipv4 : UInt32, ipv4.toNat = n :=
  ⟨UInt32.ofNat n, by rw [UInt32.toNat_ofNat', Nat.mod_eq_of_lt h.lt]⟩

/-- The second field of such a quad is written past the end. -/
theorem field_eight_mem {text zone : List Char} {groups : List (List Char)}
    (h : QuadBehindSeven groups) :
    .field 8 ∈ (tracedGroups text zone groups 0 none (List.replicate 8 0)).2 := by
  obtain ⟨front, vs, quad, n, rest, rfl, hseven, hpieces, hearly, hquad⟩ := h
  obtain ⟨c, hscans⟩ := exists_scans hpieces (by omega) hearly
  obtain ⟨ipv4, rfl⟩ := hquad.exists_word
  have hlength := hscans.length_eq
  rw [hscans.tracedGroups_snd, tracedGroups_quad (by omega) (by omega) hquad, ← hlength, hseven]
  exact List.mem_append_right _ (List.mem_pair.mpr (Or.inr rfl))

/-- Without it the loop keeps to the array. -/
theorem tracedGroups_inBounds {text zone : List Char} {groups : List (List Char)}
    (h : ¬ QuadBehindSeven groups) :
    ∀ a ∈ (tracedGroups text zone groups 0 none (List.replicate 8 0)).2, a.InBounds := by
  obtain ⟨front, vs, c, rest, rfl, hscans, hstop⟩ := exists_stop groups
  have hlength := hscans.length_eq
  have hle := hscans.length_le
  have hfront := fun a => inBounds_of_mem_fieldAccesses (a := a) (show vs.length ≤ 8 by omega)
  intro a ha
  rw [hscans.tracedGroups_snd, List.mem_append] at ha
  rcases ha with ha | ha
  · exact hfront a ha
  rcases rest with _ | ⟨group, rest⟩
  · rw [tracedGroups] at ha
    exact absurd ha List.not_mem_nil
  have hgroup := hstop group rest rfl
  rw [hlength] at hgroup
  by_cases hshort : 8 ≤ vs.length ∨ group.length ≤ 4
  · rw [tracedGroups_stop hgroup hshort] at ha
    exact absurd ha List.not_mem_nil
  rcases Nat.eq_zero_or_pos vs.length with hzero | hpos
  · rw [hzero, tracedGroups_first (by omega)] at ha
    exact absurd ha List.not_mem_nil
  by_cases hquad : ∃ n, QuadText group n
  · obtain ⟨n, hquad⟩ := hquad
    obtain ⟨ipv4, rfl⟩ := hquad.exists_word
    have hsix : vs.length ≠ 7 := by
      intro hseven
      exact h ⟨front, vs, group, _, rest, rfl, by omega, hscans.forall₂, hscans.lastBlank.1, hquad⟩
    rw [tracedGroups_quad hpos (by omega) hquad, List.mem_pair] at ha
    rcases ha with rfl | rfl
    · exact ⟨by omega, by omega⟩
    · exact ⟨by omega, by omega⟩
  · rw [tracedGroups_long hpos (by omega) (by omega) (not_exists.mp hquad)] at ha
    exact absurd ha List.not_mem_nil

/-! ### The end of the loop -/

/-- How the loop succeeds: with a dotted quad as the text, at the end of the groups, or
with a dotted quad as the last of them. -/
inductive LoopEnds (text zone : List Char) (groups : List (List Char)) : GroupsEnd → Prop
  | ipv4 {group : List Char} {rest : List (List Char)} {addr : UInt32}
      (hgroups : groups = group :: rest) (hlong : 4 < group.length) (hzone : zone = [])
      (h : parseIPv4 text = .ok addr) : LoopEnds text zone groups (.ipv4 addr)
  | plain {vs : List UInt16} {c : Option ℕ} (h : Scans groups vs c) :
      LoopEnds text zone groups (.groups vs.length c (filled vs))
  | quad {front : List (List Char)} {vs : List UInt16} {c : Option ℕ} {quad : List Char}
      {ipv4 : UInt32} (hgroups : groups = front ++ [quad]) (h : Scans front vs c)
      (hpos : 0 < vs.length) (hroom : vs.length < 8) (hquad : QuadText quad ipv4.toNat) :
      LoopEnds text zone groups (.groups (vs.length + 2) c
        (((filled vs).set vs.length (ipv4 >>> 16).toUInt16).set (vs.length + 1) ipv4.toUInt16))

theorem loopEnds_of_ok {text zone : List Char} {groups : List (List Char)} {res : GroupsEnd}
    (h : parseGroups text zone groups 0 none (List.replicate 8 0) = .ok res) :
    LoopEnds text zone groups res := by
  obtain ⟨front, vs, c, rest, rfl, hscans, hstop⟩ := exists_stop groups
  have hlength := hscans.length_eq
  have hle := hscans.length_le
  rw [hscans.parseGroups_eq, ← tracedGroups_fst] at h
  rcases rest with _ | ⟨group, rest⟩
  · rw [tracedGroups] at h
    cases h
    rw [List.append_nil]
    exact .plain hscans
  have hgroup := hstop group rest rfl
  rw [hlength] at hgroup
  by_cases hshort : 8 ≤ vs.length ∨ group.length ≤ 4
  · rw [tracedGroups_stop hgroup hshort] at h
    cases h
  rcases Nat.eq_zero_or_pos vs.length with hzero | hpos
  · rw [hzero, tracedGroups_first (by omega)] at h
    dsimp only at h
    split_ifs at h with hzone
    rcases hread : parseIPv4 text with e | addr
    · rw [hread] at h
      cases h
    · rw [hread] at h
      cases h
      obtain rfl := List.length_eq_zero_iff.mp (hlength.trans hzero)
      exact .ipv4 rfl (by omega) (by simpa using hzone) hread
  by_cases hquad : ∃ n, QuadText group n
  · obtain ⟨n, hquad⟩ := hquad
    obtain ⟨ipv4, rfl⟩ := hquad.exists_word
    rw [tracedGroups_quad hpos (by omega) hquad] at h
    dsimp only at h
    split_ifs at h with hlast
    cases h
    obtain rfl : rest = [] := by simpa using hlast
    exact .quad rfl hscans hpos (by omega) hquad
  · rw [tracedGroups_long hpos (by omega) (by omega) (not_exists.mp hquad)] at h
    cases h

/-- The last collapsed group is one of those that were read. -/
theorem LoopEnds.collapsed_lt {text zone : List Char} {groups : List (List Char)} {i c : ℕ}
    {addr : List UInt16} (h : LoopEnds text zone groups (.groups i (some c) addr)) : c < i := by
  cases h with
  | plain h =>
    rw [← h.length_eq]
    exact (List.getElem?_eq_some_iff.mp h.lastBlank.2.1).1
  | quad hgroups h hpos hroom hquad =>
    have hlt := (List.getElem?_eq_some_iff.mp h.lastBlank.2.1).1
    rw [h.length_eq] at hlt
    omega

/-! ### The parser as a whole -/

/-- The zeros are inserted within the array. -/
theorem expandAccesses_inBounds {i c : ℕ} (hc : c < i) (hi : i < 8) :
    ∀ a ∈ expandAccesses i c, a.InBounds := by
  intro a ha
  rw [expandAccesses, List.mem_append, List.mem_flatMap, List.mem_map] at ha
  rcases ha with ⟨j, hj, ha⟩ | ⟨j, hj, rfl⟩
  · rw [List.mem_map] at hj
    obtain ⟨k, hk, rfl⟩ := hj
    rw [List.mem_range] at hk
    rw [List.mem_pair] at ha
    rcases ha with rfl | rfl
    · exact ⟨by omega, by omega⟩
    · exact ⟨by omega, by omega⟩
  · rw [List.mem_range'_1] at hj
    exact ⟨by omega, by omega⟩

theorem finishAccesses_inBounds {text zone : List Char} {groups : List (List Char)} :
    ∀ a ∈ finishAccesses (tracedGroups text zone groups 0 none (List.replicate 8 0)).1,
      a.InBounds := by
  intro a ha
  rcases hres : (tracedGroups text zone groups 0 none (List.replicate 8 0)).1 with
    e | (addr | ⟨i, _ | c, addr⟩)
  · rw [hres] at ha
    exact absurd ha List.not_mem_nil
  · rw [hres] at ha
    exact absurd ha List.not_mem_nil
  · rw [hres] at ha
    exact absurd ha List.not_mem_nil
  · rw [hres, finishAccesses] at ha
    split_ifs at ha with hi
    · rw [tracedGroups_fst] at hres
      exact expandAccesses_inBounds (loopEnds_of_ok hres).collapsed_lt hi a ha
    · exact absurd ha List.not_mem_nil

/-- The text before the zone. -/
def hostText (text : List Char) : List Char := text.takeWhile (· != '%')

/-- The zone with its separator. -/
def zonePart (text : List Char) : List Char := text.dropWhile (· != '%')

/-- The zone, if there is one, is accepted. -/
def ZoneAccepted (text : List Char) (noZone : Bool) : Prop :=
  zonePart text = [] ∨ (noZone = false ∧ 1 < (zonePart text).length)

theorem length_hostText_add (text : List Char) :
    (hostText text).length + (zonePart text).length = text.length := by
  rw [← List.length_append, hostText, zonePart, List.takeWhile_append_dropWhile]

theorem tracedParse_of_zone {text : List Char} {noZone : Bool} (hne : text ≠ [])
    (h : ZoneAccepted text noZone) :
    tracedParse text noZone =
      let traced := tracedGroups (hostText text) ((zonePart text).drop 1)
        ((hostText text).splitOn ':') 0 none (List.replicate 8 0)
      (traced.1 >>= finishParse ((zonePart text).drop 1),
        (if (zonePart text).isEmpty then []
          else [.substr ((hostText text).length + 1) text.length, .substr 0 text.length])
        ++ traced.2 ++ finishAccesses traced.1) := by
  have hnoZone : ¬ (!(zonePart text).isEmpty && noZone) = true := by
    rcases h with h | ⟨h, -⟩ <;> simp [h]
  have hzone : ¬ (!(zonePart text).isEmpty && ((zonePart text).drop 1).isEmpty) = true := by
    rcases h with h | ⟨-, h⟩
    · simp [h]
    · simp only [Bool.and_eq_true, List.isEmpty_iff, List.drop_eq_nil_iff]
      omega
  rw [tracedParse, if_neg (by simpa using hne)]
  dsimp only
  rw [← hostText, ← zonePart, if_neg hnoZone, if_neg hzone]

/-- A zone that is not accepted ends the parser at once. -/
theorem tracedParse_of_not_zone {text : List Char} {noZone : Bool} (h : ¬ ZoneAccepted text noZone) :
    (∀ ip, (tracedParse text noZone).1 ≠ .ok ip) ∧
      ∀ a ∈ (tracedParse text noZone).2, a.InBounds := by
  have hlength := length_hostText_add text
  rw [ZoneAccepted, not_or] at h
  have hpos := List.length_pos_iff.mpr h.1
  have hsome : (!(zonePart text).isEmpty) = true := by simp [h.1]
  have hne : ¬ text.isEmpty = true := by
    rintro hnil
    rw [List.isEmpty_iff.mp hnil] at hpos
    exact absurd hpos (by decide)
  rw [tracedParse, if_neg hne]
  dsimp only
  rw [← hostText, ← zonePart, hsome]
  cases noZone with
  | true =>
    rw [if_pos (by rfl)]
    exact ⟨nofun, fun a ha => absurd ha List.not_mem_nil⟩
  | false =>
    have hempty : ((zonePart text).drop 1).isEmpty = true := by
      rw [List.isEmpty_iff, List.drop_eq_nil_iff]
      by_contra hlong
      exact h.2 ⟨rfl, by omega⟩
    rw [hempty, if_neg (by decide), if_pos (by rfl)]
    refine ⟨nofun, fun a ha => ?_⟩
    rw [List.mem_singleton.mp ha]
    show (hostText text).length + 1 ≤ text.length
    omega

/-- With a zone that is accepted, it depends on the groups. -/
theorem inBounds_of_zone {text : List Char} {noZone : Bool} (hzone : ZoneAccepted text noZone) :
    (∀ a ∈ (tracedParse text noZone).2, a.InBounds) ↔
      ¬ QuadBehindSeven ((hostText text).splitOn ':') := by
  rcases eq_or_ne text [] with rfl | hne
  · refine iff_of_true (fun a ha => absurd ha List.not_mem_nil) ?_
    rintro ⟨front, vs, quad, n, rest, hsplit, hseven, -⟩
    have hone := congrArg List.length hsplit
    rw [List.length_append, hseven] at hone
    simp [hostText] at hone
    omega
  have hlength := length_hostText_add text
  rw [tracedParse_of_zone hne hzone]
  dsimp only
  constructor
  · intro h hseven
    have height := h (.field 8) (List.mem_append_left _ (List.mem_append_right _
      (field_eight_mem hseven)))
    exact absurd height.2 (by decide)
  · intro h a ha
    rw [List.mem_append, List.mem_append] at ha
    rcases ha with (ha | ha) | ha
    · split_ifs at ha with hnone
      · exact absurd ha List.not_mem_nil
      · rw [List.isEmpty_iff] at hnone
        have hpos := List.length_pos_iff.mpr hnone
        rcases List.mem_pair.mp ha with rfl | rfl
        · show (hostText text).length + 1 ≤ text.length
          omega
        · exact Nat.zero_le _
    · exact tracedGroups_inBounds h a ha
    · exact finishAccesses_inBounds a ha

/-- Every access is in bounds, but the one behind seven groups. -/
theorem inBounds_iff (text : List Char) (noZone : Bool) :
    (∀ a ∈ (tracedParse text noZone).2, a.InBounds) ↔
      ¬ (ZoneAccepted text noZone ∧ QuadBehindSeven ((hostText text).splitOn ':')) := by
  by_cases hzone : ZoneAccepted text noZone
  · rw [inBounds_of_zone hzone]
    exact not_congr (and_iff_right hzone).symm
  · exact iff_of_true (tracedParse_of_not_zone hzone).2 (fun h => hzone h.1)

/-- The second half of the dotted quad goes to the ninth of eight fields. -/
theorem not_forall_inBounds :
    ¬ ∀ (text : List Char) (noZone : Bool), ∀ a ∈ (tracedParse text noZone).2, a.InBounds := by
  intro h
  have height := h "1:2:3:4:5:6:7:1.2.3.4".toList false (.field 8) (by decide)
  exact absurd height.2 (by decide)

end IPAddress

end Scion
