/-
Hosts and ports in the text of an address.

Colons stand in ASNs, in IPv6 hosts, in zones and before the port. `splitHostPort` tells
them apart by the last colon and the first comma.

* `splitHostPort_of_two` — what becomes of a text with two colons or more;
* `exists_hostText` — the text of an IPv6 address up to its zone;
* `Printed` — what is printed of endpoints and addresses;
* `splitHostPort_text_iff` — each printed text is taken apart, but for an IPv6 address
  whose zone has exactly one colon behind a comma.
-/
import Scion.AsnText

namespace Scion

open Numerals IPAddress

/-! ### Formatting -/

/-- `std::formatter<generic::IPEndpoint>`. -/
def IPEndpoint.format (ep : IPEndpoint) (longForm upperCase : Bool) : List Char :=
  if ep.host.is4 then
    ep.host.formatTo longForm upperCase ++ ':' :: formatDecimal ep.port.toNat
  else
    '[' :: (ep.host.formatTo longForm upperCase ++ ']' :: ':' :: formatDecimal ep.port.toNat)

/-- `std::formatter<Address<generic::IPAddress>>`. -/
def ScIPAddress.format (a : ScIPAddress) : List Char :=
  a.isdAsn.format ++ ',' :: a.host.formatTo false false

/-- `std::formatter<Endpoint<generic::IPEndpoint>>`. -/
def ScIPEndpoint.format (ep : ScIPEndpoint) : List Char :=
  if ep.host.is4 then ep.address.format ++ ':' :: formatDecimal ep.port.toNat
  else '[' :: (ep.address.format ++ ']' :: ':' :: formatDecimal ep.port.toNat)

/-! ### The last separator -/

theorem dropWhile_append_left {c : Char} {front : List Char} (h : c ∉ front) (back : List Char) :
    (front ++ back).dropWhile (· != c) = back.dropWhile (· != c) := by
  refine List.dropWhile_append_of_pos ?_
  intro x hx
  rw [bne_iff_ne]
  rintro rfl
  exact h hx

theorem dropWhile_append {c : Char} {front : List Char} (h : c ∉ front) (back : List Char) :
    (front ++ c :: back).dropWhile (· != c) = c :: back := by
  rw [dropWhile_append_left h]
  simp

theorem dropWhile_of_not_mem {c : Char} {text : List Char} (h : c ∉ text) :
    text.dropWhile (· != c) = [] := by
  rw [List.dropWhile_eq_nil_iff]
  intro x hx
  rw [bne_iff_ne]
  rintro rfl
  exact h hx

theorem splitLast_append {c : Char} {back : List Char} (h : c ∉ back) (front : List Char) :
    splitLast c (front ++ c :: back) = some (front, back) := by
  have hback : ∀ x ∈ back.reverse, (x != c) = true := by
    intro x hx
    rw [bne_iff_ne]
    rintro rfl
    exact h (List.mem_reverse.mp hx)
  rw [splitLast, List.reverse_append, List.reverse_cons, List.append_assoc,
    List.dropWhile_append_of_pos hback, List.takeWhile_append_of_pos hback]
  simp

theorem splitLast_of_not_mem {c : Char} {text : List Char} (h : c ∉ text) :
    splitLast c text = none := by
  rw [splitLast, dropWhile_of_not_mem (mt List.mem_reverse.mp h)]

/-- A text is cut at the last of its separators. -/
theorem exists_last {c : Char} {text : List Char} (h : c ∈ text) :
    ∃ front back, text = front ++ c :: back ∧ c ∉ back := by
  obtain ⟨back, front, hcut, hback⟩ := List.eq_append_cons_of_mem (List.mem_reverse.mpr h)
  refine ⟨front.reverse, back.reverse, ?_, mt List.mem_reverse.mp hback⟩
  rw [← List.reverse_reverse text, hcut]
  simp

/-! ### Ports -/

theorem parsePort_formatDecimal (port : UInt16) :
    parsePort (formatDecimal port.toNat) = .ok port := by
  have hspells := spells_toDigits (show 1 < 10 by norm_num) (by norm_num) port.toNat
  rw [parsePort, formatDecimal, isEmpty_of_spells hspells, if_neg Bool.false_ne_true,
    hspells.fromChars port.toNat_lt]
  exact congrArg Except.ok UInt16.ofNat_toNat

theorem not_mem_formatDecimal (n : ℕ) {c : Char} (hc : 10 ≤ digitValue c) :
    c ∉ formatDecimal n :=
  not_mem_of_spells (spells_toDigits (by norm_num) (by norm_num) n) hc

/-! ### Texts with a bracket -/

theorem splitHostPort_bracketed (addr : List Char) :
    splitHostPort ('[' :: (addr ++ [']'])) = .ok (addr, 0) := by
  rw [splitHostPort, splitLast_append List.not_mem_nil]

theorem splitHostPort_bracketed_port (addr : List Char) (port : UInt16) :
    splitHostPort ('[' :: (addr ++ ']' :: ':' :: formatDecimal port.toNat)) = .ok (addr, port) := by
  have hback : ']' ∉ ':' :: formatDecimal port.toNat := by
    rw [List.mem_cons, not_or]
    exact ⟨by decide, not_mem_formatDecimal _ (by decide)⟩
  rw [splitHostPort, splitLast_append hback]
  show (do .ok (addr, ← parsePort (formatDecimal port.toNat)) : Parsed (List Char × UInt16)) = _
  rw [parsePort_formatDecimal]
  rfl

/-! ### Texts without a bracket -/

theorem splitHostPort_of_head {text : List Char} (h : text.head? ≠ some '[') :
    splitHostPort text =
      match splitLast ':' text with
      | none => .ok (text, 0)
      | some (addr, port) =>
        let host := if ',' ∈ addr then addr.dropWhile (· != ',') else addr
        if ':' ∈ host then .ok (text, 0) else (do .ok (addr, ← parsePort port)) := by
  cases text with
  | nil => rfl
  | cons c rest =>
    have hne : ∀ rest', c :: rest = '[' :: rest' → False := by
      rintro rest' heq
      rw [heq] at h
      exact h rfl
    exact splitHostPort.eq_2 (c :: rest) hne

theorem head?_ne {c : Char} {text : List Char} (h : c ∉ text) : text.head? ≠ some c :=
  fun hhead => h (List.mem_of_head? hhead)

theorem head?_append_ne {c : Char} {front back : List Char} (h : c ∉ front)
    (hback : back.head? ≠ some c) : (front ++ back).head? ≠ some c := by
  cases front with
  | nil => exact hback
  | cons x xs => exact fun hx => h (List.mem_of_head? hx)

theorem splitHostPort_of_no_colon {text : List Char} (hhead : text.head? ≠ some '[')
    (h : ':' ∉ text) : splitHostPort text = .ok (text, 0) := by
  rw [splitHostPort_of_head hhead, splitLast_of_not_mem h]

/-- The port of a text whose host has no colon. -/
theorem splitHostPort_port {addr : List Char} (hhead : addr.head? ≠ some '[')
    (h : ':' ∉ (if ',' ∈ addr then addr.dropWhile (· != ',') else addr)) (port : UInt16) :
    splitHostPort (addr ++ ':' :: formatDecimal port.toNat) = .ok (addr, port) := by
  have hhead' : (addr ++ ':' :: formatDecimal port.toNat).head? ≠ some '[' := by
    cases addr with
    | nil => simp
    | cons c rest => exact hhead
  rw [splitHostPort_of_head hhead', splitLast_append (not_mem_formatDecimal _ (by decide))]
  dsimp only
  rw [if_neg h, parsePort_formatDecimal]
  rfl

/-- A host with a port is not the text as a whole. -/
theorem port_ne_whole (addr port : List Char) :
    (do .ok (addr, ← parsePort port) : Parsed (List Char × UInt16))
      ≠ .ok (addr ++ ':' :: port, 0) := by
  intro h
  cases hparse : parsePort port with
  | error e =>
    rw [hparse] at h
    cases h
  | ok value =>
    rw [hparse] at h
    have hlength := congrArg List.length (congrArg Prod.fst (Except.ok.inj h))
    simp at hlength

/-- A text with two colons or more is a host without a port, unless there is exactly one
behind its first comma. -/
theorem splitHostPort_of_two {text : List Char} (hhead : text.head? ≠ some '[')
    (h : 2 ≤ text.count ':') :
    splitHostPort text = .ok (text, 0) ↔ (text.dropWhile (· != ',')).count ':' ≠ 1 := by
  obtain ⟨addr, port, rfl, hport⟩ :=
    exists_last (List.count_pos_iff.mp (show 0 < text.count ':' by omega))
  have hnone := List.count_eq_zero_of_not_mem hport
  rw [List.count_append, List.count_cons_self, hnone] at h
  have haddr : ':' ∈ addr := List.count_pos_iff.mp (by omega)
  rw [splitHostPort_of_head hhead, splitLast_append hport]
  dsimp only
  by_cases hcomma : ',' ∈ addr
  · obtain ⟨front, back, rfl, hfront⟩ := List.eq_append_cons_of_mem hcomma
    have hcount : (',' :: (back ++ ':' :: port)).count ':' = back.count ':' + 1 := by
      simp [hnone]
    rw [if_pos hcomma, dropWhile_append hfront, List.append_assoc, List.cons_append,
      dropWhile_append hfront, hcount]
    by_cases hback : ':' ∈ back
    · have hpos := List.count_pos_iff.mpr hback
      rw [if_pos (List.mem_cons_of_mem _ hback)]
      exact iff_of_true rfl (by omega)
    · rw [if_neg (by simp [hback]), List.count_eq_zero_of_not_mem hback]
      have hne := port_ne_whole (front ++ ',' :: back) port
      rw [List.append_assoc, List.cons_append] at hne
      exact iff_of_false hne (by omega)
  · rw [if_neg hcomma, if_pos haddr]
    refine iff_of_true rfl ?_
    by_cases hbehind : ',' ∈ port
    · obtain ⟨front, back, rfl, hfront⟩ := List.eq_append_cons_of_mem hbehind
      have hback : ':' ∉ back := fun hmem => hport (by simp [hmem])
      rw [show addr ++ ':' :: (front ++ ',' :: back) = (addr ++ ':' :: front) ++ ',' :: back by simp,
        dropWhile_append (by simp [hcomma, hfront]), List.count_cons_of_ne (by decide),
        List.count_eq_zero_of_not_mem hback]
      omega
    · rw [dropWhile_of_not_mem (by simp [hcomma, hbehind]), List.count_nil]
      omega

/-! ### The text of an IPv6 address -/

theorem length_le_count (pieces : List (List Char)) :
    pieces.length ≤ (pieces.flatMap (':' :: ·)).count ':' := by
  induction pieces with
  | nil => exact Nat.zero_le _
  | cons piece pieces ih =>
    rw [List.flatMap_cons, List.count_append, List.count_cons_self, List.length_cons]
    omega

section Body

variable {upperCase : Bool} {addr : List UInt8} {c : Char}

theorem not_mem_groups (hc : 16 ≤ digitValue c) (a b : ℕ) :
    ∀ piece ∈ groups upperCase addr a b, c ∉ piece := by
  intro piece hpiece
  rw [groups, List.mem_map] at hpiece
  obtain ⟨k, -, rfl⟩ := hpiece
  exact not_mem_of_spells (spells_formatGroup upperCase addr k).1 hc

theorem not_mem_formatGroups (hc : 16 ≤ digitValue c) (hcolon : c ≠ ':') (a b : ℕ) :
    c ∉ formatGroups upperCase addr (2 * a) (2 * b) := by
  have hgroups : ∀ piece ∈ groups upperCase addr a b, c ∉ piece := not_mem_groups hc a b
  rcases Nat.eq_zero_or_pos a with rfl | ha
  · rw [Nat.mul_zero, formatGroups_zero]
    exact not_mem_intercalate hcolon hgroups
  · rw [formatGroups_of_pos upperCase addr ha]
    exact not_mem_flatMap hcolon hgroups

theorem length_groups (upperCase : Bool) (addr : List UInt8) (a b : ℕ) :
    (groups upperCase addr a b).length = b - a := by
  simp [groups]

/-- There is a colon between any two groups. -/
theorem count_formatGroups_zero (upperCase : Bool) (addr : List UInt8) (b : ℕ) :
    b - 1 ≤ (formatGroups upperCase addr 0 (2 * b)).count ':' := by
  have hlength := length_groups upperCase addr 0 b
  rw [formatGroups_zero]
  rcases hsplit : groups upperCase addr 0 b with _ | ⟨first, rest⟩
  · rw [hsplit, List.length_nil] at hlength
    omega
  · rw [hsplit, List.length_cons] at hlength
    have hrest := length_le_count rest
    rw [intercalate_cons, List.count_append]
    omega

/-- There is a colon before each group that is not the first. -/
theorem count_formatGroups_of_pos (upperCase : Bool) (addr : List UInt8) {a : ℕ} (ha : 0 < a)
    (b : ℕ) : b - a ≤ (formatGroups upperCase addr (2 * a) (2 * b)).count ':' := by
  rw [formatGroups_of_pos upperCase addr ha, ← length_groups upperCase addr a b]
  exact length_le_count _

/-- The text of an IPv6 address up to its zone. -/
theorem exists_hostText (hi lo : UInt64) (zone : String) (longForm upperCase : Bool) :
    ∃ body, (v6 hi lo zone).formatTo longForm upperCase = body ++ zoneText zone ∧
      2 ≤ body.count ':' ∧ ∀ c, 16 ≤ digitValue c → c ≠ ':' → c ≠ '.' → c ∉ body := by
  obtain ⟨n, tail, htail, hlength, hquad, -, -⟩ := exists_tail hi lo zone
  have hn : 6 ≤ n := by
    rcases htail with ⟨rfl, -⟩ | ⟨rfl, -⟩ <;> omega
  obtain ⟨f, l, hfind, hfl⟩ : ∃ f l,
      (if longForm then (0, 0) else findLongestZeroGroup (v6 hi lo zone).bytes (2 * n))
        = (2 * f, 2 * l) ∧ (f = 0 ∧ l = 0 ∨ f < l ∧ l ≤ n) := by
    cases longForm with
    | true => exact ⟨0, 0, rfl, Or.inl ⟨rfl, rfl⟩⟩
    | false =>
      obtain ⟨f, l, hfind, hfound⟩ := findLongestZeroGroup_found (v6 hi lo zone).bytes n
      refine ⟨f, l, hfind, ?_⟩
      rcases hfound with ⟨rfl, rfl, -⟩ | hlongest
      · exact Or.inl ⟨rfl, rfl⟩
      · have htwo := hlongest.two
        exact Or.inr ⟨by omega, hlongest.le⟩
  refine ⟨_, formatTo_v6 hlength hquad hfind, ?_, ?_⟩
  · simp only [List.count_append]
    rcases hfl with ⟨rfl, rfl⟩ | ⟨hfl, hln⟩
    · have hfull : n - 1 ≤ (formatGroups upperCase (v6 hi lo zone).bytes (2 * 0) (2 * n)).count ':' :=
        count_formatGroups_zero upperCase (v6 hi lo zone).bytes n
      omega
    · have hbehind := count_formatGroups_of_pos upperCase (v6 hi lo zone).bytes
        (show 0 < l by omega) n
      have hend : 1 ≤ n - l + (if 2 * l = 2 * n then [':'] else []).count ':' := by
        split_ifs with hif
        · simp
        · omega
      rw [if_pos (show 2 * l > 2 * f by omega), List.count_singleton_self]
      omega
  · intro c hc hcolon hdot
    have hparts : ∀ a b, c ∉ formatGroups upperCase (v6 hi lo zone).bytes (2 * a) (2 * b) :=
      not_mem_formatGroups hc hcolon
    have htailText : c ∉ tail.flatMap (':' :: ·) := by
      refine not_mem_flatMap hcolon ?_
      rcases htail with ⟨-, rfl⟩ | ⟨-, rfl⟩
      · simp
      · intro piece hpiece
        rw [List.mem_singleton.mp hpiece]
        exact colon_notMem_formatIPv4 lo (by omega) hdot
    have hif : ∀ (p : Prop) [Decidable p], c ∉ (if p then [':'] else []) := by
      intro p _
      split_ifs
      · simpa using hcolon
      · exact List.not_mem_nil
    simp only [List.mem_append, not_or]
    exact ⟨⟨⟨⟨hparts 0 f, hif _⟩, hparts l n⟩, hif _⟩, htailText⟩

end Body

/-! ### Printed texts -/

/-- What is printed of endpoints and addresses, the latter also in brackets. -/
inductive Printed
  | endpoint (ep : IPEndpoint) (longForm upperCase : Bool)
  | scEndpoint (ep : ScIPEndpoint)
  | address (ip : IPAddress) (longForm upperCase bracketed : Bool)
  | scAddress (a : ScIPAddress) (bracketed : Bool)

namespace Printed

def bracket (text : List Char) (bracketed : Bool) : List Char :=
  if bracketed then '[' :: (text ++ [']']) else text

def text : Printed → List Char
  | endpoint ep longForm upperCase => ep.format longForm upperCase
  | scEndpoint ep => ep.format
  | address ip longForm upperCase bracketed => bracket (ip.formatTo longForm upperCase) bracketed
  | scAddress a bracketed => bracket a.format bracketed

def addressText : Printed → List Char
  | endpoint ep longForm upperCase => ep.host.formatTo longForm upperCase
  | scEndpoint ep => ep.address.format
  | address ip longForm upperCase _ => ip.formatTo longForm upperCase
  | scAddress a _ => a.format

def port : Printed → UInt16
  | endpoint ep _ _ => ep.port
  | scEndpoint ep => ep.port
  | address .. => 0
  | scAddress .. => 0

/-- An address without an ISD-ASN and without brackets, whose zone has exactly one colon
behind its first comma. -/
def ColonInZone : Printed → Prop
  | address ip _ _ false => (ip.zone.toList.dropWhile (· != ',')).count ':' = 1
  | _ => False

end Printed

/-! ### ISD-ASN pairs -/

theorem not_mem_isdAsn_format (a : IsdAsn) {c : Char} (hc : 16 ≤ digitValue c) (hcolon : c ≠ ':')
    (hdash : c ≠ '-') : c ∉ a.format := by
  have hhex : ∀ n : ℕ, c ∉ Nat.toDigits 16 n := fun n =>
    not_mem_of_spells (spells_toDigits (by norm_num) (by norm_num) n) hc
  have hdecimal : ∀ n : ℕ, c ∉ formatDecimal n := fun n => not_mem_formatDecimal n (by omega)
  have hasn : c ∉ IsdAsn.formatAsn a.asn := by
    rw [IsdAsn.formatAsn]
    split_ifs
    · exact hdecimal _
    · simp only [List.mem_append, List.mem_cons, not_or]
      exact ⟨⟨hhex _, hcolon, hhex _⟩, hcolon, hhex _⟩
  rw [IsdAsn.format, List.mem_append, List.mem_cons, not_or, not_or]
  exact ⟨hdecimal _, hdash, hasn⟩

/-- The text of an ISD-ASN has no colon, or two. -/
theorem colons_isdAsn_format (a : IsdAsn) : ':' ∉ a.format ∨ 2 ≤ a.format.count ':' := by
  have hdecimal : ∀ n : ℕ, ':' ∉ formatDecimal n := fun n => not_mem_formatDecimal n (by decide)
  rw [IsdAsn.format, IsdAsn.formatAsn]
  split_ifs
  · left
    rw [List.mem_append, List.mem_cons, not_or, not_or]
    exact ⟨hdecimal _, by decide, hdecimal _⟩
  · right
    simp only [List.count_append, List.count_cons, beq_self_eq_true, if_true]
    omega

/-! ### Each printed text -/

theorem formatTo_v4 (addr : UInt32) (longForm upperCase : Bool) :
    (v4 addr).formatTo longForm upperCase = formatIPv4 addr.toUInt64 := rfl

/-- An address without a port, without brackets and without an ISD-ASN. -/
theorem splitHostPort_formatTo_iff (ip : IPAddress) (longForm upperCase : Bool) :
    splitHostPort (ip.formatTo longForm upperCase) = .ok (ip.formatTo longForm upperCase, 0) ↔
      (ip.zone.toList.dropWhile (· != ',')).count ':' ≠ 1 := by
  rcases ip with addr | ⟨hi, lo, zone⟩
  · have hplain : ∀ c, 10 ≤ digitValue c → c ≠ '.' → c ∉ formatIPv4 addr.toUInt64 := fun c hc hdot =>
      colon_notMem_formatIPv4 _ hc hdot
    refine iff_of_true ?_ (by simp [IPAddress.zone])
    exact splitHostPort_of_no_colon (head?_ne (hplain '[' (by decide) (by decide)))
      (hplain ':' (by decide) (by decide))
  · obtain ⟨body, hbody, hcolons, hplain⟩ := exists_hostText hi lo zone longForm upperCase
    have hhead : (body ++ zoneText zone).head? ≠ some '[' := by
      refine head?_append_ne (hplain '[' (by decide) (by decide) (by decide)) ?_
      rw [zoneText]
      split_ifs
      · simp
      · simp
    have hcount : ((body ++ zoneText zone).dropWhile (· != ',')).count ':'
        = (zone.toList.dropWhile (· != ',')).count ':' := by
      rw [dropWhile_append_left (hplain ',' (by decide) (by decide) (by decide)), zoneText]
      split_ifs with hzone
      · rw [List.dropWhile_cons_of_pos (by decide)]
      · rw [not_not.mp hzone]
        rfl
    rw [hbody, splitHostPort_of_two hhead (by rw [List.count_append]; omega), hcount]
    rfl

/-- An address with an ISD-ASN, without a port and without brackets. -/
theorem splitHostPort_scAddress (a : ScIPAddress) : splitHostPort a.format = .ok (a.format, 0) := by
  obtain ⟨ia, host⟩ := a
  have hcomma : ',' ∉ ia.format := not_mem_isdAsn_format ia (by decide) (by decide) (by decide)
  have hbracket : '[' ∉ ia.format := not_mem_isdAsn_format ia (by decide) (by decide) (by decide)
  have hhead : (ScIPAddress.format ⟨ia, host⟩).head? ≠ some '[' :=
    head?_append_ne hbracket (by simp)
  have hdrop : (ScIPAddress.format ⟨ia, host⟩).dropWhile (· != ',')
      = ',' :: host.formatTo false false := dropWhile_append hcomma _
  have hcolons : (ScIPAddress.format ⟨ia, host⟩).count ':'
      = ia.format.count ':' + (host.formatTo false false).count ':' := by
    rw [ScIPAddress.format, List.count_append, List.count_cons_of_ne (by decide)]
  rcases host with addr | ⟨hi, lo, zone⟩
  · have hquad : ':' ∉ formatIPv4 addr.toUInt64 := colon_notMem_formatIPv4 _ (by decide) (by decide)
    rcases colons_isdAsn_format ia with hnone | htwo
    · refine splitHostPort_of_no_colon hhead ?_
      rw [ScIPAddress.format, List.mem_append, List.mem_cons, not_or, not_or]
      exact ⟨hnone, by decide, hquad⟩
    · refine (splitHostPort_of_two hhead (by omega)).mpr ?_
      rw [hdrop, List.count_cons_of_ne (by decide), formatTo_v4, List.count_eq_zero_of_not_mem hquad]
      omega
  · obtain ⟨body, hbody, htwo, -⟩ := exists_hostText hi lo zone false false
    have hhost : 2 ≤ ((v6 hi lo zone).formatTo false false).count ':' := by
      rw [hbody, List.count_append]
      omega
    refine (splitHostPort_of_two hhead (by omega)).mpr ?_
    rw [hdrop, List.count_cons_of_ne (by decide)]
    omega

theorem splitHostPort_endpoint (ep : IPEndpoint) (longForm upperCase : Bool) :
    splitHostPort (ep.format longForm upperCase)
      = .ok (ep.host.formatTo longForm upperCase, ep.port) := by
  obtain ⟨host, port⟩ := ep
  rcases host with addr | ⟨hi, lo, zone⟩
  · have hplain : ∀ c, 10 ≤ digitValue c → c ≠ '.' → c ∉ formatIPv4 addr.toUInt64 := fun c hc hdot =>
      colon_notMem_formatIPv4 _ hc hdot
    refine splitHostPort_port (head?_ne (hplain '[' (by decide) (by decide))) ?_ port
    rw [if_neg (hplain ',' (by decide) (by decide))]
    exact hplain ':' (by decide) (by decide)
  · exact splitHostPort_bracketed_port _ port

theorem splitHostPort_scEndpoint (ep : ScIPEndpoint) :
    splitHostPort ep.format = .ok (ep.address.format, ep.port) := by
  obtain ⟨ia, host, port⟩ := ep
  rcases host with addr | ⟨hi, lo, zone⟩
  · have hcomma : ',' ∉ ia.format := not_mem_isdAsn_format ia (by decide) (by decide) (by decide)
    have hbracket : '[' ∉ ia.format := not_mem_isdAsn_format ia (by decide) (by decide) (by decide)
    have hquad : ':' ∉ formatIPv4 addr.toUInt64 := colon_notMem_formatIPv4 _ (by decide) (by decide)
    refine splitHostPort_port (head?_append_ne hbracket (by simp)) ?_ port
    rw [if_pos (by simp), dropWhile_append hcomma, List.mem_cons, not_or]
    exact ⟨by decide, hquad⟩
  · exact splitHostPort_bracketed_port _ port

/-- Each printed text is taken apart into the address and the port, but for an IPv6
address without a port and with one colon behind the first comma of its zone. -/
theorem splitHostPort_text_iff (p : Printed) :
    splitHostPort p.text = .ok (p.addressText, p.port) ↔ ¬ p.ColonInZone := by
  cases p with
  | endpoint ep longForm upperCase =>
    exact iff_of_true (splitHostPort_endpoint ep longForm upperCase) not_false
  | scEndpoint ep => exact iff_of_true (splitHostPort_scEndpoint ep) not_false
  | address ip longForm upperCase bracketed =>
    cases bracketed with
    | true => exact iff_of_true (splitHostPort_bracketed _) not_false
    | false => exact splitHostPort_formatTo_iff ip longForm upperCase
  | scAddress a bracketed =>
    refine iff_of_true ?_ not_false
    cases bracketed with
    | true => exact splitHostPort_bracketed _
    | false => exact splitHostPort_scAddress a

/-- The zone `a,b:80` is cut. -/
theorem not_forall_splitHostPort_text :
    ¬ ∀ p : Printed, splitHostPort p.text = .ok (p.addressText, p.port) := by
  intro h
  have hbad := (splitHostPort_formatTo_iff (v6 0xfe80000000000000 1 "a,b:80") false false).mp
    (h (.address (v6 0xfe80000000000000 1 "a,b:80") false false false))
  exact hbad (by decide)

end Scion
