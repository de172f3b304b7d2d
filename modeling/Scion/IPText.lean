/-
IP addresses as text (`addr/generic_ip.cpp`).

* `IPAddress.parse`, `IPAddress.formatTo` — the parser and the formatter of the
  source;
* `findLongestZeroGroup_found` — the groups that are compressed are the first of
  the longest runs of zeros;
* `parse_plain`, `parse_compressed` — the loop over the groups of a text, and the
  zeros that the parser fills in behind it;
* `parse_formatTo_iff` — the text of an address is parsed back exactly when it
  does not end in a compressed run behind two or more groups.
-/
import Mathlib.Data.List.GetD
import Scion.LongestRun
import Scion.Mapping
import Scion.Numerals

namespace Scion

open BigEndian Numerals LongestRun

namespace IPAddress

/-! ### Parsing -/

/-- The loop over the numbers of a dotted quad. -/
def parseIPv4Groups : List (List Char) → ℕ → UInt32 → Maybe (ℕ × UInt32)
  | [], i, addr => .ok (i, addr)
  | group :: rest, i, addr =>
    -- too many dots
    if i > 3 ∨ group.isEmpty then .error .syntaxError
    else
      match fromChars 10 256 group with
      | ([], some byte) =>
        parseIPv4Groups rest (i + 1) (addr ||| (UInt32.ofNat byte <<< UInt32.ofNat (8 * (3 - i))))
      | _ => .error .syntaxError

def parseIPv4 (text : List Char) : Maybe UInt32 := do
  let (i, addr) ← parseIPv4Groups (text.splitOn '.') 0 0
  -- too few dots
  if i < 4 then .error .syntaxError else .ok addr

/-- Whether an empty group is accepted, after the collapsed group before it. -/
def mayCollapse (collapsedGroup : Option ℕ) (i : ℕ) : Bool :=
  match collapsedGroup with
  | none => true
  -- "::x" and "::", and "x::"
  | some c => (c == 0 && (i == 1 || i == 2)) || (c == 1 && i == 2)

/-- How the loop over the groups ends. -/
inductive GroupsEnd
  | ipv4 (addr : UInt32)
  | groups (i : ℕ) (collapsedGroup : Option ℕ) (addr : List UInt16)
  deriving DecidableEq, Repr

/-- The loop over the groups between the colons. The array `addr` has eight
fields; a dotted quad that is the eighth group writes one field past its end,
which is lost here. -/
def parseGroups (text zone : List Char) :
    List (List Char) → ℕ → Option ℕ → List UInt16 → Maybe GroupsEnd
  | [], i, collapsedGroup, addr => .ok (.groups i collapsedGroup addr)
  | group :: rest, i, collapsedGroup, addr =>
    -- too many groups
    if i > 7 then .error .syntaxError
    else if group.isEmpty then
      if mayCollapse collapsedGroup i then
        parseGroups text zone rest (i + 1) (some i) (addr.set i 0)
      else .error .syntaxError
    else if group.length > 4 then
      if i = 0 then
        -- an IPv4 address, which cannot have a zone identifier
        if !zone.isEmpty then .error .syntaxError else .ipv4 <$> parseIPv4 text
      else
        match parseIPv4 group with
        | .error _ => .error .syntaxError
        | .ok ipv4 =>
          -- must be the last group
          if !rest.isEmpty then .error .syntaxError
          else .ok (.groups (i + 2) collapsedGroup
            ((addr.set i (ipv4 >>> 16).toUInt16).set (i + 1) ipv4.toUInt16))
    else
      match fromChars 16 65536 group with
      | ([], some field) =>
        parseGroups text zone rest (i + 1) collapsedGroup (addr.set i (UInt16.ofNat field))
      | _ => .error .syntaxError

/-- Insert the zeros of the collapsed group: the fields behind it move back, and
the gap is cleared. -/
def expand (addr : List UInt16) (i collapsedGroup : ℕ) : List UInt16 :=
  let expandZeros := 8 - i
  let collapsedEnd := collapsedGroup + expandZeros
  let moved := ((List.range (7 - collapsedEnd)).map (7 - ·)).foldl
    (fun addr j => addr.set j (addr.getD (j - expandZeros) 0)) addr
  (List.range' (collapsedGroup + 1) expandZeros).foldl (fun addr j => addr.set j 0) moved

/-- `MakeIPv6` on the fields in network byte order. -/
def makeIPv6 (addr : List UInt16) (zone : List Char) : IPAddress :=
  let bytes := addr.flatMap fun field => beBytes 2 field.toNat
  .v6 (UInt64.ofNat (beNat (bytes.take 8))) (UInt64.ofNat (beNat (bytes.drop 8)))
    (String.ofList zone)

/-- The address behind the loop over the groups. -/
def finishParse (zone : List Char) : GroupsEnd → Maybe IPAddress
  | .ipv4 addr => .ok (.v4 addr)
  | .groups i collapsedGroup addr =>
    if i < 8 then
      match collapsedGroup with
      | some c => .ok (makeIPv6 (expand addr i c) zone)
      | none => .error .syntaxError
    else .ok (makeIPv6 addr zone)

def parse (text : List Char) (noZone : Bool) : Maybe IPAddress :=
  if text.isEmpty then .error .syntaxError
  else
    let text' := text.takeWhile (· != '%')
    let zoneText := text.dropWhile (· != '%')
    if !zoneText.isEmpty && noZone then .error .requiresZone
    else
      let zone := zoneText.drop 1
      if !zoneText.isEmpty && zone.isEmpty then .error .syntaxError
      else parseGroups text' zone (text'.splitOn ':') 0 none (List.replicate 8 0)
        >>= finishParse zone

/-! ### Formatting -/

def zone : IPAddress → String
  | v4 _ => ""
  | v6 _ _ zone => zone

def formatIPv4 (lo : UInt64) : List Char :=
  let decimal := fun k : UInt64 => Nat.toDigits 10 ((lo >>> k) &&& 0xff).toNat
  decimal 24 ++ '.' :: (decimal 16 ++ '.' :: (decimal 8 ++ '.' :: decimal 0))

/-- The group of two bytes at `i`. -/
def group (addr : List UInt8) (i : ℕ) : ℕ :=
  256 * (addr.getD i 0).toNat + (addr.getD (i + 1) 0).toNat

/-- The state of `findLongestZeroGroup`. -/
structure ZeroGroups where
  longestBegin : ℕ
  longestEnd : ℕ
  longestGroup : ℕ
  groupBegin : Option ℕ

/-- The end of a group of zeros at `i`. -/
def ZeroGroups.close (s : ZeroGroups) (i : ℕ) : ZeroGroups :=
  match s.groupBegin with
  | none => s
  | some start =>
    if i - start > s.longestGroup then ⟨start, i, i - start, none⟩
    else { s with groupBegin := none }

def ZeroGroups.step (addr : List UInt8) (s : ZeroGroups) (i : ℕ) : ZeroGroups :=
  if addr.getD i 0 = 0 ∧ addr.getD (i + 1) 0 = 0 then
    match s.groupBegin with
    | none => { s with groupBegin := some i }
    | some _ => s
  else s.close i

/-- The bytes of the first of the longest groups of zeros, of which a single
field is none. -/
def findLongestZeroGroup (addr : List UInt8) (length : ℕ) : ℕ × ℕ :=
  let s := ((List.range (length / 2)).map (2 * ·)).foldl (ZeroGroups.step addr) ⟨0, 0, 2, none⟩
  let s := s.close length
  (s.longestBegin, s.longestEnd)

def formatGroup (upperCase : Bool) (addr : List UInt8) (i : ℕ) : List Char :=
  let digits := Nat.toDigits 16 (group addr i)
  if upperCase then digits.map Char.toUpper else digits

/-- The groups from byte `first` up to byte `last`. -/
def formatGroups (upperCase : Bool) (addr : List UInt8) (first last : ℕ) : List Char :=
  (List.range' first ((last - first) / 2) 2).flatMap fun i =>
    (if i ≠ 0 then [':'] else []) ++ formatGroup upperCase addr i

def formatTo (ip : IPAddress) (longForm upperCase : Bool) : List Char :=
  if ip.is4 then formatIPv4 ip.lo
  else
    let addr := ip.bytes
    -- the last four bytes are a dotted quad
    let length := if ip.is4in6 || ip.isScion4 then 12 else 16
    let (first, last) := if longForm then (0, 0) else findLongestZeroGroup addr length
    formatGroups upperCase addr 0 first
      ++ (if last > first then [':'] else [])
      ++ formatGroups upperCase addr last length
      ++ (if last = length then [':'] else [])
      ++ (if length = 12 then ':' :: formatIPv4 ip.lo else [])
      ++ (if ip.zone ≠ "" then '%' :: ip.zone.toList else [])

/-! ### The longest group of zeros -/

/-- The group at position `k` is zero. -/
def ZeroAt (addr : List UInt8) (k : ℕ) : Prop := group addr (2 * k) = 0

theorem zeroAt_iff (addr : List UInt8) (k : ℕ) :
    ZeroAt addr k ↔ addr.getD (2 * k) 0 = 0 ∧ addr.getD (2 * k + 1) 0 = 0 := by
  rw [ZeroAt, group, ← UInt8.toNat_inj, ← UInt8.toNat_inj]
  show _ ↔ _ = 0 ∧ _ = 0
  omega

/-- The state before group `k`: the longest run up to the run that is open, or
up to `k`. -/
structure Scanned (addr : List UInt8) (k : ℕ) (s : ZeroGroups) (m f l : ℕ) : Prop where
  found : Found (ZeroAt addr) m f l
  start : m = 0 ∨ ¬ ZeroAt addr (m - 1)
  longestBegin : s.longestBegin = 2 * f
  longestEnd : s.longestEnd = 2 * l
  longestGroup : s.longestGroup = max 2 (2 * (l - f))
  groupBegin : (s.groupBegin = none ∧ m = k) ∨
    (s.groupBegin = some (2 * m) ∧ Run (ZeroAt addr) m k)

/-- Closing the group that is open leaves the longest run up to `k`. -/
theorem Scanned.close {addr : List UInt8} {k : ℕ} {s : ZeroGroups} {m f l : ℕ}
    (h : Scanned addr k s m f l) :
    ∃ f' l', Found (ZeroAt addr) k f' l' ∧ (s.close (2 * k)).longestBegin = 2 * f' ∧
      (s.close (2 * k)).longestEnd = 2 * l' ∧
      (s.close (2 * k)).longestGroup = max 2 (2 * (l' - f')) ∧
      (s.close (2 * k)).groupBegin = none := by
  rcases h.groupBegin with ⟨hnone, rfl⟩ | ⟨hsome, hrun⟩
  · rw [ZeroGroups.close, hnone]
    exact ⟨f, l, h.found, h.longestBegin, h.longestEnd, h.longestGroup, hnone⟩
  · have hlt := hrun.1
    have hgroup := h.longestGroup
    obtain ⟨hlonger, hshorter⟩ := h.found.extend h.start hrun
    rw [ZeroGroups.close, hsome]
    dsimp only
    by_cases hlong : 2 * k - 2 * m > s.longestGroup
    · rw [if_pos hlong]
      refine ⟨m, k, hlonger (by omega), rfl, rfl, ?_, rfl⟩
      show 2 * k - 2 * m = _
      omega
    · rw [if_neg hlong]
      exact ⟨f, l, hshorter (by omega), h.longestBegin, h.longestEnd, h.longestGroup, rfl⟩

theorem Scanned.step {addr : List UInt8} {k : ℕ} {s : ZeroGroups} {m f l : ℕ}
    (h : Scanned addr k s m f l) :
    ∃ m' f' l', Scanned addr (k + 1) (s.step addr (2 * k)) m' f' l' := by
  by_cases hzero : ZeroAt addr k
  · have hopen : ∀ j, k ≤ j → j < k + 1 → ZeroAt addr j := by
      intro j hj hj'
      rwa [show j = k by omega]
    rw [ZeroGroups.step, if_pos ((zeroAt_iff addr k).mp hzero)]
    rcases h.groupBegin with ⟨hnone, rfl⟩ | ⟨hsome, hrun⟩
    · rw [hnone]
      exact ⟨m, f, l, h.found, h.start, h.longestBegin, h.longestEnd, h.longestGroup,
        Or.inr ⟨rfl, Nat.lt_succ_self m, hopen⟩⟩
    · rw [hsome]
      refine ⟨m, f, l, h.found, h.start, h.longestBegin, h.longestEnd, h.longestGroup,
        Or.inr ⟨hsome, Nat.lt_succ_of_lt hrun.1, fun j hj hj' => ?_⟩⟩
      by_cases hjk : j < k
      · exact hrun.2 j hj hjk
      · exact hopen j (by omega) hj'
  · obtain ⟨f', l', hfound, hbegin, hend, hgroup, hnone⟩ := h.close
    rw [ZeroGroups.step, if_neg (mt (zeroAt_iff addr k).mpr hzero)]
    exact ⟨k + 1, f', l', hfound.succ hzero, Or.inr (by simpa using hzero), hbegin, hend, hgroup,
      Or.inl ⟨hnone, rfl⟩⟩

theorem scanned_foldl (addr : List UInt8) (n : ℕ) :
    ∃ m f l, Scanned addr n
      (((List.range n).map (2 * ·)).foldl (ZeroGroups.step addr) ⟨0, 0, 2, none⟩) m f l := by
  induction n with
  | zero => exact ⟨0, 0, 0, found_zero, Or.inl rfl, rfl, rfl, rfl, Or.inl ⟨rfl, rfl⟩⟩
  | succ n ih =>
    obtain ⟨m, f, l, h⟩ := ih
    rw [List.range_succ, List.map_append, List.foldl_append]
    exact h.step

/-- The compressed groups are the first of the longest runs of zeros. -/
theorem findLongestZeroGroup_found (addr : List UInt8) (n : ℕ) :
    ∃ f l, findLongestZeroGroup addr (2 * n) = (2 * f, 2 * l) ∧ Found (ZeroAt addr) n f l := by
  obtain ⟨m, f, l, h⟩ := scanned_foldl addr n
  obtain ⟨f', l', hfound, hbegin, hend, _, _⟩ := h.close
  refine ⟨f', l', ?_, hfound⟩
  rw [findLongestZeroGroup, show 2 * n / 2 = n by omega]
  exact Prod.ext hbegin hend

/-! ### Dotted quads -/

/-- A character that is no digit is not in a numeral. -/
theorem not_mem_of_spells {base : ℕ} {text : List Char} {n : ℕ} (h : Spells base text n) {c : Char}
    (hc : base ≤ digitValue c) : c ∉ text :=
  fun hmem => absurd (h.digits c hmem) (by omega)

theorem isEmpty_of_spells {base : ℕ} {text : List Char} {n : ℕ} (h : Spells base text n) :
    text.isEmpty = false := by
  rw [List.isEmpty_eq_false_iff]
  exact h.ne_nil

theorem parseIPv4Groups_cons {group : List Char} {rest : List (List Char)} {i b : ℕ} {addr : UInt32}
    (h : Spells 10 group b) (hb : b < 256) (hi : i ≤ 3) :
    parseIPv4Groups (group :: rest) i addr = parseIPv4Groups rest (i + 1)
      (addr ||| (UInt32.ofNat b <<< UInt32.ofNat (8 * (3 - i)))) := by
  rw [parseIPv4Groups, if_neg, h.fromChars hb]
  rw [isEmpty_of_spells h]
  simp
  omega

/-- A byte put below the bits of a word. -/
theorem toNat_or_byte {addr : UInt32} {b k : ℕ} (hb : b < 256) (hk : k ≤ 24)
    (haddr : addr.toNat % 2 ^ (k + 8) = 0) :
    (addr ||| (UInt32.ofNat b <<< UInt32.ofNat k)).toNat = addr.toNat + b * 2 ^ k := by
  have hk' : (UInt32.ofNat k).toNat % 32 = k := by
    rw [UInt32.toNat_ofNat', Nat.mod_mod_of_dvd _ (by norm_num), Nat.mod_eq_of_lt (by omega)]
  have hpow : b * 2 ^ k < 2 ^ (k + 8) := by
    rw [pow_add, mul_comm]
    exact Nat.mul_lt_mul_of_pos_left hb (by positivity)
  have hsmall : b * 2 ^ k < 2 ^ 32 :=
    lt_of_lt_of_le hpow (Nat.pow_le_pow_right (by norm_num) (by omega))
  have hdiv := Nat.div_add_mod addr.toNat (2 ^ (k + 8))
  rw [haddr, add_zero] at hdiv
  rw [UInt32.toNat_or, UInt32.toNat_shiftLeft, hk', UInt32.toNat_ofNat',
    Nat.mod_eq_of_lt (show b < 2 ^ 32 by omega), Nat.shiftLeft_eq, Nat.mod_eq_of_lt hsmall, ← hdiv,
    ← Nat.two_pow_add_eq_or_of_lt hpow]

/-- The bytes of a word, from the top. -/
theorem or_bytes (n : ℕ) :
    (((((0 : UInt32) ||| (UInt32.ofNat (n / 2 ^ 24 % 256) <<< UInt32.ofNat 24))
        ||| (UInt32.ofNat (n / 2 ^ 16 % 256) <<< UInt32.ofNat 16))
        ||| (UInt32.ofNat (n / 2 ^ 8 % 256) <<< UInt32.ofNat 8))
        ||| (UInt32.ofNat (n % 256) <<< UInt32.ofNat 0)).toNat = n % 2 ^ 32 := by
  have hmod : ∀ m, m % 256 < 256 := fun m => Nat.mod_lt m (by norm_num)
  have h24 := @toNat_or_byte 0 _ 24 (hmod (n / 2 ^ 24)) (le_refl 24) rfl
  have h16 := toNat_or_byte (hmod (n / 2 ^ 16)) (show 16 ≤ 24 by omega) (by rw [h24]; simp)
  have h8 := toNat_or_byte (hmod (n / 2 ^ 8)) (show 8 ≤ 24 by omega) (by rw [h16, h24]; simp; omega)
  have h0 := toNat_or_byte (hmod n) (show 0 ≤ 24 by omega) (by rw [h8, h16, h24]; simp; omega)
  rw [h0, h8, h16, h24]
  simp
  omega

/-- A byte of a word as a number. -/
theorem toNat_byteAt (lo k : UInt64) (hk : k.toNat < 64) :
    ((lo >>> k) &&& 0xff).toNat = lo.toNat / 2 ^ k.toNat % 256 :=
  toNat_field lo k 0xff 8 hk rfl

theorem spells_decimal (lo k : UInt64) (hk : k.toNat < 64) :
    Spells 10 (Nat.toDigits 10 ((lo >>> k) &&& 0xff).toNat) (lo.toNat / 2 ^ k.toNat % 256) := by
  rw [toNat_byteAt lo k hk]
  exact spells_toDigits (by norm_num) (by norm_num) _

/-- A dotted quad is parsed back. -/
theorem parseIPv4_formatIPv4 (lo : UInt64) : parseIPv4 (formatIPv4 lo) = .ok lo.toUInt32 := by
  have h24 := spells_decimal lo 24 (by decide)
  have h16 := spells_decimal lo 16 (by decide)
  have h8 := spells_decimal lo 8 (by decide)
  have h0 := spells_decimal lo 0 (by decide)
  have hdot : 10 ≤ digitValue '.' := by decide
  have hmod : ∀ m, m % 256 < 256 := fun m => Nat.mod_lt m (by norm_num)
  set decimal := fun k : UInt64 => Nat.toDigits 10 ((lo >>> k) &&& 0xff).toNat with hdecimal
  have htext : formatIPv4 lo
      = ['.'].intercalate [decimal 24, decimal 16, decimal 8, decimal 0] := by
    simp [formatIPv4, hdecimal, List.intercalate]
  have hsplit : (formatIPv4 lo).splitOn '.' = [decimal 24, decimal 16, decimal 8, decimal 0] := by
    rw [htext]
    refine List.splitOn_intercalate _ ?_ (by simp)
    intro text hmem
    simp only [List.mem_cons, List.not_mem_nil, or_false] at hmem
    rcases hmem with rfl | rfl | rfl | rfl
    · exact not_mem_of_spells h24 hdot
    · exact not_mem_of_spells h16 hdot
    · exact not_mem_of_spells h8 hdot
    · exact not_mem_of_spells h0 hdot
  have hword := or_bytes lo.toNat
  rw [parseIPv4, hsplit, parseIPv4Groups_cons h24 (hmod _) (by omega),
    parseIPv4Groups_cons h16 (hmod _) (by omega), parseIPv4Groups_cons h8 (hmod _) (by omega),
    parseIPv4Groups_cons h0 (hmod _) (by omega)]
  refine congrArg Except.ok (UInt32.toNat_inj.mp ?_)
  rw [UInt64.toNat_toUInt32, ← hword]
  simp only [show (0 : UInt64).toNat = 0 from rfl, pow_zero, Nat.div_one]
  rfl

/-! ### The loop over the groups -/

/-- The array of fields when the fields `done` have been read. -/
def filled (done : List UInt16) : List UInt16 := done ++ List.replicate (8 - done.length) 0

theorem set_filled {done : List UInt16} (v : UInt16) (h : done.length < 8) :
    (filled done).set done.length v = filled (done ++ [v]) := by
  obtain ⟨n, hn⟩ : ∃ n, 8 - done.length = n + 1 := ⟨8 - done.length - 1, by omega⟩
  rw [filled, filled, hn, List.length_append, List.length_singleton,
    show 8 - (done.length + 1) = n by omega, List.set_append_right _ _ le_rfl, Nat.sub_self,
    List.replicate_succ, List.set_cons_zero, List.append_assoc, List.singleton_append]

section Groups

variable {text zone : List Char} {rest : List (List Char)} {c : Option ℕ} (done : List UInt16)

theorem parseGroups_hex {group : List Char} {v : UInt16} (h : Spells 16 group v.toNat)
    (hlen : group.length ≤ 4) (hroom : done.length < 8) :
    parseGroups text zone (group :: rest) done.length c (filled done)
      = parseGroups text zone rest (done ++ [v]).length c (filled (done ++ [v])) := by
  rw [parseGroups, if_neg (by omega), isEmpty_of_spells h, if_neg Bool.false_ne_true,
    if_neg (by omega), h.fromChars v.toNat_lt, List.length_append, List.length_singleton]
  dsimp only
  rw [UInt16.ofNat_toNat, set_filled v hroom]

/-- Groups of digits fill the fields one by one. -/
theorem parseGroups_hexes {groups : List (List Char)} {vs : List UInt16}
    (h : List.Forall₂ (fun group v => Spells 16 group v.toNat ∧ group.length ≤ 4) groups vs)
    (hroom : done.length + vs.length ≤ 8) :
    parseGroups text zone (groups ++ rest) done.length c (filled done)
      = parseGroups text zone rest (done ++ vs).length c (filled (done ++ vs)) := by
  induction h generalizing done with
  | nil => rw [List.append_nil, List.nil_append]
  | @cons group v groups vs hgroup hgroups ih =>
    rw [List.length_cons] at hroom
    have hlen : (done ++ [v]).length + vs.length ≤ 8 := by
      rw [List.length_append, List.length_singleton]
      omega
    rw [List.cons_append, parseGroups_hex done hgroup.1 hgroup.2 (by omega), ih _ hlen,
      List.append_assoc, List.singleton_append]

theorem parseGroups_empty (hroom : done.length < 8) (hc : mayCollapse c done.length = true) :
    parseGroups text zone ([] :: rest) done.length c (filled done)
      = parseGroups text zone rest (done ++ [0]).length (some done.length)
          (filled (done ++ [0])) := by
  rw [parseGroups, if_neg (by omega), List.isEmpty_nil, if_pos rfl, if_pos hc, set_filled 0 hroom,
    List.length_append, List.length_singleton]

theorem length_formatIPv4 (lo : UInt64) : (formatIPv4 lo).length > 4 := by
  have hpos : ∀ n, 0 < (Nat.toDigits 10 n).length := fun n => Nat.length_toDigits_pos
  have h24 := hpos ((lo >>> 24) &&& 0xff).toNat
  have h16 := hpos ((lo >>> 16) &&& 0xff).toNat
  simp only [formatIPv4, List.length_append, List.length_cons]
  omega

/-- A dotted quad at the end fills the last two fields. -/
theorem parseGroups_ipv4 (lo : UInt64) (hfirst : 0 < done.length) (hroom : done.length ≤ 6) :
    parseGroups text zone [formatIPv4 lo] done.length c (filled done)
      = .ok (.groups (done ++ [(lo.toUInt32 >>> 16).toUInt16, lo.toUInt32.toUInt16]).length c
          (filled (done ++ [(lo.toUInt32 >>> 16).toUInt16, lo.toUInt32.toUInt16]))) := by
  have hlen := length_formatIPv4 lo
  have hne : (formatIPv4 lo).isEmpty = false := by
    rw [List.isEmpty_eq_false_iff, ← List.length_pos_iff]
    omega
  have hset : ∀ v w : UInt16, ((filled done).set done.length v).set (done.length + 1) w
      = filled (done ++ [v, w]) := by
    intro v w
    have h := set_filled w (show (done ++ [v]).length < 8 by
      rw [List.length_append, List.length_singleton]
      omega)
    rw [List.length_append, List.length_singleton, List.append_assoc] at h
    rw [set_filled v (by omega), h]
    rfl
  rw [parseGroups, if_neg (by omega), hne, if_neg Bool.false_ne_true, if_pos hlen,
    if_neg (by omega), parseIPv4_formatIPv4]
  dsimp only
  rw [List.isEmpty_nil, Bool.not_true, if_neg Bool.false_ne_true, hset, List.length_append]
  rfl

end Groups

/-! ### The collapsed group -/

theorem length_expand_move (addr : List UInt16) (e n : ℕ) :
    (((List.range n).map (7 - ·)).foldl (fun addr j => addr.set j (addr.getD (j - e) 0))
      addr).length = addr.length := by
  induction n with
  | zero => rfl
  | succ n ih =>
    rw [List.range_succ, List.map_append, List.foldl_append]
    simp only [List.map_cons, List.map_nil, List.foldl_cons, List.foldl_nil, List.length_set]
    exact ih

/-- The first loop moves the last `n` fields back by `e`. -/
theorem getElem?_expand_move {addr : List UInt16} (haddr : addr.length = 8) (e : ℕ) {n : ℕ}
    (hn : n < 8) (x : ℕ) :
    (((List.range n).map (7 - ·)).foldl (fun addr j => addr.set j (addr.getD (j - e) 0)) addr)[x]?
      = if 8 - n ≤ x ∧ x < 8 then addr[x - e]? else addr[x]? := by
  induction n generalizing x with
  | zero =>
    rw [if_neg (by omega)]
    rfl
  | succ n ih =>
    have hlen := length_expand_move addr e n
    rw [List.range_succ, List.map_append, List.foldl_append]
    simp only [List.map_cons, List.map_nil, List.foldl_cons, List.foldl_nil]
    rw [List.getElem?_set, hlen, haddr]
    by_cases hx : 7 - n = x
    · have hold := ih (by omega) (x - e)
      rw [if_neg (by omega)] at hold
      rw [if_pos hx, if_pos (by omega), if_pos (by omega), List.getD_eq_getElem?_getD, hx, hold,
        List.getElem?_eq_getElem (by omega)]
      rfl
    · rw [if_neg hx, ih (by omega)]
      by_cases hin : 8 - n ≤ x ∧ x < 8
      · rw [if_pos hin, if_pos (by omega)]
      · rw [if_neg hin, if_neg (by omega)]

/-- The second loop clears fields. -/
theorem getElem?_expand_clear (addr : List UInt16) (start n : ℕ) (x : ℕ) :
    ((List.range' start n).foldl (fun addr j => addr.set j 0) addr)[x]?
      = if start ≤ x ∧ x < start + n ∧ x < addr.length then some 0 else addr[x]? := by
  induction n generalizing addr start with
  | zero =>
    rw [if_neg (by omega)]
    rfl
  | succ n ih =>
    rw [List.range'_succ, List.foldl_cons, ih, List.length_set, List.getElem?_set]
    by_cases hx : start = x
    · subst hx
      rw [if_neg (by omega), if_pos rfl]
      by_cases hlt : start < addr.length
      · rw [if_pos hlt, if_pos (by omega)]
      · rw [if_neg hlt, if_neg (by omega), List.getElem?_eq_none (by omega)]
    · rw [if_neg hx]
      by_cases hin : start + 1 ≤ x ∧ x < start + 1 + n ∧ x < addr.length
      · rw [if_pos hin, if_pos (by omega)]
      · rw [if_neg hin, if_neg (by omega)]

/-- The zeros that are missing come behind the collapsed group. -/
theorem expand_eq {front back : List UInt16} (hfront : front ≠ [])
    (hlen : front.length + back.length < 8) :
    expand (filled (front ++ back)) (front ++ back).length (front.length - 1)
      = front ++ List.replicate (8 - (front ++ back).length) 0 ++ back := by
  have hpos := List.length_pos_iff.mpr hfront
  have hfilled : (filled (front ++ back)).length = 8 := by
    rw [filled, List.length_append, List.length_replicate, List.length_append]
    omega
  refine List.ext_getElem? fun x => ?_
  rw [expand, getElem?_expand_clear, length_expand_move, hfilled,
    getElem?_expand_move hfilled _ (by omega), List.length_append, filled]
  by_cases hx : x < front.length
  · rw [if_neg (by omega), if_neg (by omega), List.append_assoc, List.append_assoc,
      List.getElem?_append_left hx, List.getElem?_append_left hx]
  · by_cases hgap : x < front.length + (8 - (front.length + back.length))
    · rw [if_pos (by omega), List.getElem?_append_left (by simp; omega),
        List.getElem?_append_right (by omega), List.getElem?_replicate, if_pos (by omega)]
    · have hback : (front ++ List.replicate (8 - (front.length + back.length)) 0 ++ back)[x]?
          = back[x - (front.length + (8 - (front.length + back.length)))]? := by
        rw [List.getElem?_append_right (by simp; omega), List.length_append, List.length_replicate]
      rw [if_neg (by omega), hback]
      by_cases hend : x < 8
      · rw [if_pos (by omega), List.append_assoc, List.getElem?_append_right (by omega),
          List.getElem?_append_left (by omega)]
        congr 1
        omega
      · rw [if_neg (by omega), List.getElem?_eq_none (by simp; omega),
          List.getElem?_eq_none (by omega)]

/-! ### The fields of an address -/

/-- The field at position `k`. -/
def fieldAt (addr : List UInt8) (k : ℕ) : UInt16 := UInt16.ofNat (group addr (2 * k))

def fields (addr : List UInt8) (a b : ℕ) : List UInt16 := (List.range' a (b - a)).map (fieldAt addr)

theorem group_lt (addr : List UInt8) (i : ℕ) : group addr i < 65536 := by
  have hhigh := (addr.getD i 0).toNat_lt
  have hlow := (addr.getD (i + 1) 0).toNat_lt
  rw [group]
  omega

theorem toNat_fieldAt (addr : List UInt8) (k : ℕ) :
    (fieldAt addr k).toNat = group addr (2 * k) := by
  rw [fieldAt, UInt16.toNat_ofNat']
  exact Nat.mod_eq_of_lt (group_lt addr _)

theorem length_fields (addr : List UInt8) (a b : ℕ) : (fields addr a b).length = b - a := by
  rw [fields, List.length_map, List.length_range']

theorem fields_append (addr : List UInt8) {a b c : ℕ} (hab : a ≤ b) (hbc : b ≤ c) :
    fields addr a b ++ fields addr b c = fields addr a c := by
  have hlen : b - a + (c - b) = c - a := by omega
  rw [fields, fields, fields, ← List.map_append, ← hlen, ← List.range'_append_1,
    show a + (b - a) = b by omega]

/-- A run of zeros is made of zero fields. -/
theorem fields_of_run {addr : List UInt8} {a b : ℕ} (h : Run (ZeroAt addr) a b) :
    fields addr a b = List.replicate (b - a) 0 := by
  rw [List.eq_replicate_iff]
  refine ⟨length_fields addr a b, fun v hv => ?_⟩
  rw [fields, List.mem_map] at hv
  obtain ⟨k, hk, rfl⟩ := hv
  rw [List.mem_range'_1] at hk
  have hlt := h.1
  have hzero : group addr (2 * k) = 0 := h.2 k hk.1 (by omega)
  rw [fieldAt, hzero]
  rfl

theorem beBytes_pair (a b : UInt8) : beBytes 2 (256 * a.toNat + b.toNat) = [a, b] := by
  have h := beBytes_beNat [a, b]
  simp only [beNat, List.length_cons, List.length_nil, pow_zero, mul_one, add_zero] at h
  rw [mul_comm]
  exact h

/-- The bytes of the fields are the bytes of the address. -/
theorem bytes_fields {addr : List UInt8} {n : ℕ} (h : addr.length = 2 * n) :
    (fields addr 0 n).flatMap (fun field => beBytes 2 field.toNat) = addr := by
  have hpairs : (fields addr 0 n).flatMap (fun field => beBytes 2 field.toNat)
      = (List.range n).flatMap fun k => [addr.getD (2 * k) 0, addr.getD (2 * k + 1) 0] := by
    rw [fields, Nat.sub_zero, List.flatMap_map, ← List.range_eq_range']
    refine List.flatMap_congr fun k _ => ?_
    rw [toNat_fieldAt, group, beBytes_pair]
  rw [hpairs]
  clear hpairs
  induction n generalizing addr with
  | zero =>
    rw [List.length_eq_zero_iff.mp h]
    rfl
  | succ n ih =>
    match addr, h with
    | a :: b :: rest, h =>
      have hrest : rest.length = 2 * n := by
        simp only [List.length_cons] at h
        omega
      rw [List.range_succ_eq_map, List.flatMap_cons, List.flatMap_map]
      have htail := ih hrest
      simp only [Nat.mul_succ]
      rw [show (List.range n).flatMap (fun k => [(a :: b :: rest).getD (2 * k + 2) 0,
        (a :: b :: rest).getD (2 * k + 2 + 1) 0]) = rest from htail]
      rfl

theorem getD_beBytes (n v : ℕ) {i : ℕ} (h : i < n) :
    (beBytes n v).getD i 0 = UInt8.ofNat (v / 256 ^ (n - 1 - i)) := by
  induction n generalizing i with
  | zero => omega
  | succ n ih =>
    cases i with
    | zero => rfl
    | succ i =>
      have hexp : n + 1 - 1 - (i + 1) = n - 1 - i := by omega
      rw [beBytes, List.getD_cons_succ, ih (by omega), hexp]

/-- A group of the low word. -/
theorem group_low (hi lo : UInt64) (zone : String) {i : ℕ} (h : i + 1 < 8) :
    group (v6 hi lo zone).bytes (8 + i) = 256 * (lo.toNat / 256 ^ (7 - i) % 256)
      + lo.toNat / 256 ^ (6 - i) % 256 := by
  have hbyte : ∀ j < 8, ((v6 hi lo zone).bytes.getD (8 + j) 0).toNat
      = lo.toNat / 256 ^ (7 - j) % 256 := by
    intro j hj
    have hlen := length_beBytes 8 hi.toNat
    rw [bytes, List.getD_append_right _ _ _ _ (by omega), hlen, Nat.add_sub_cancel_left,
      getD_beBytes 8 _ hj, UInt8.toNat_ofNat']
  rw [group, hbyte i (by omega), add_assoc, hbyte (i + 1) h,
    show 7 - (i + 1) = 6 - i by omega]

theorem length_bytes_v6 (hi lo : UInt64) (zone : String) : (v6 hi lo zone).bytes.length = 16 := by
  rw [length_bytes]
  rfl

/-- All eight fields make the address again. -/
theorem makeIPv6_fields (hi lo : UInt64) (zone zone' : String) :
    makeIPv6 (fields (v6 hi lo zone').bytes 0 8) zone.toList = v6 hi lo zone := by
  have hword : ∀ w : UInt64, UInt64.ofNat (beNat (beBytes 8 w.toNat)) = w := by
    intro w
    have hlt := w.toNat_lt
    rw [beNat_beBytes, Nat.mod_eq_of_lt (by omega), UInt64.ofNat_toNat]
  rw [makeIPv6, bytes_fields (length_bytes_v6 hi lo zone')]
  dsimp only [bytes]
  rw [List.take_left' (length_beBytes 8 _), List.drop_left' (length_beBytes 8 _), hword, hword,
    String.ofList_toList]

/-- The last two fields are those of the dotted quad. -/
theorem fields_ipv4 (hi lo : UInt64) (zone : String) :
    fields (v6 hi lo zone).bytes 6 8 = [(lo.toUInt32 >>> 16).toUInt16, lo.toUInt32.toUInt16] := by
  have h6 := group_low hi lo zone (show 4 + 1 < 8 by omega)
  have h7 := group_low hi lo zone (show 6 + 1 < 8 by omega)
  rw [show 8 + 4 = 2 * 6 from rfl] at h6
  rw [show 8 + 6 = 2 * 7 from rfl] at h7
  have hhigh : fieldAt (v6 hi lo zone).bytes 6 = (lo.toUInt32 >>> 16).toUInt16 := by
    rw [← UInt16.toNat_inj, toNat_fieldAt, h6, UInt32.toNat_toUInt16, UInt32.toNat_shiftRight,
      show (16 : UInt32).toNat % 32 = 16 from rfl, Nat.shiftRight_eq_div_pow,
      UInt64.toNat_toUInt32]
    omega
  have hlow : fieldAt (v6 hi lo zone).bytes 7 = lo.toUInt32.toUInt16 := by
    rw [← UInt16.toNat_inj, toNat_fieldAt, h7, UInt32.toNat_toUInt16, UInt64.toNat_toUInt32]
    omega
  rw [← hhigh, ← hlow]
  rfl

/-! ### The groups of a text -/

/-- The groups as they are printed. -/
def groups (upperCase : Bool) (addr : List UInt8) (a b : ℕ) : List (List Char) :=
  (List.range' a (b - a)).map fun k => formatGroup upperCase addr (2 * k)

theorem spells_formatGroup (upperCase : Bool) (addr : List UInt8) (k : ℕ) :
    Spells 16 (formatGroup upperCase addr (2 * k)) (fieldAt addr k).toNat ∧
      (formatGroup upperCase addr (2 * k)).length ≤ 4 := by
  have hlen : (Nat.toDigits 16 (group addr (2 * k))).length ≤ 4 :=
    (Nat.length_toDigits_le_iff (by norm_num) (by norm_num)).mpr (group_lt addr _)
  rw [toNat_fieldAt, formatGroup]
  cases upperCase with
  | false => exact ⟨spells_toDigits (by norm_num) (by norm_num) _, hlen⟩
  | true =>
    refine ⟨spells_toUpper (by norm_num) (by norm_num) _, ?_⟩
    rw [if_pos rfl, List.length_map]
    exact hlen

theorem forall₂_groups (upperCase : Bool) (addr : List UInt8) (a b : ℕ) :
    List.Forall₂ (fun group v => Spells 16 group v.toNat ∧ group.length ≤ 4)
      (groups upperCase addr a b) (fields addr a b) := by
  rw [groups, fields, List.forall₂_map_left_iff, List.forall₂_map_right_iff, List.forall₂_same]
  exact fun k _ => spells_formatGroup upperCase addr k

theorem groups_eq_nil_iff {upperCase : Bool} {addr : List UInt8} {a b : ℕ} :
    groups upperCase addr a b = [] ↔ b ≤ a := by
  rw [groups, List.map_eq_nil_iff, List.range'_eq_nil_iff]
  omega

theorem intercalate_cons (x : List Char) (xs : List (List Char)) :
    [':'].intercalate (x :: xs) = x ++ xs.flatMap (':' :: ·) := by
  induction xs generalizing x with
  | nil => simp [List.intercalate]
  | cons y ys ih =>
    rw [List.intercalate_cons_cons, ih, List.flatMap_cons]
    simp

theorem intercalate_append {xs : List (List Char)} (h : xs ≠ []) (ys : List (List Char)) :
    [':'].intercalate (xs ++ ys) = [':'].intercalate xs ++ ys.flatMap (':' :: ·) := by
  obtain ⟨x, xs, rfl⟩ := List.exists_cons_of_ne_nil h
  rw [List.cons_append, intercalate_cons, intercalate_cons, List.flatMap_append, List.append_assoc]

theorem not_mem_flatMap {pieces : List (List Char)} {c : Char} (hcolon : c ≠ ':')
    (h : ∀ piece ∈ pieces, c ∉ piece) : c ∉ pieces.flatMap (':' :: ·) := by
  rw [List.mem_flatMap]
  rintro ⟨piece, hpiece, hmem⟩
  rcases List.mem_cons.mp hmem with heq | hmem
  · exact hcolon heq
  · exact h piece hpiece hmem

theorem not_mem_intercalate {pieces : List (List Char)} {c : Char} (hcolon : c ≠ ':')
    (h : ∀ piece ∈ pieces, c ∉ piece) : c ∉ [':'].intercalate pieces := by
  cases pieces with
  | nil => exact List.not_mem_nil
  | cons first rest =>
    rw [intercalate_cons, List.mem_append, not_or]
    exact ⟨h _ (List.mem_cons_self ..),
      not_mem_flatMap hcolon fun piece hpiece => h _ (List.mem_cons_of_mem _ hpiece)⟩

theorem range'_two_mul (a n : ℕ) : List.range' (2 * a) n 2 = (List.range' a n).map (2 * ·) := by
  induction n generalizing a with
  | zero => rfl
  | succ n ih =>
    rw [List.range'_succ, List.range'_succ, List.map_cons, ← ih]
    rfl

/-- Groups behind the first are printed with a colon before each. -/
theorem formatGroups_of_pos (upperCase : Bool) (addr : List UInt8) {a : ℕ} (ha : 0 < a) (b : ℕ) :
    formatGroups upperCase addr (2 * a) (2 * b)
      = (groups upperCase addr a b).flatMap (':' :: ·) := by
  rw [formatGroups, show (2 * b - 2 * a) / 2 = b - a by omega, range'_two_mul, List.flatMap_map,
    groups, List.flatMap_map]
  refine List.flatMap_congr fun k hk => ?_
  rw [List.mem_range'_1] at hk
  rw [if_pos (by omega), List.singleton_append]

/-- Groups from the first are printed with a colon between them. -/
theorem formatGroups_zero (upperCase : Bool) (addr : List UInt8) (b : ℕ) :
    formatGroups upperCase addr 0 (2 * b) = [':'].intercalate (groups upperCase addr 0 b) := by
  cases b with
  | zero => rfl
  | succ b =>
    have hgroups : groups upperCase addr 0 (b + 1)
        = formatGroup upperCase addr 0 :: groups upperCase addr 1 (b + 1) := by
      rw [groups, groups, Nat.sub_zero, List.range'_succ, List.map_cons]
      rfl
    have hformat : formatGroups upperCase addr 0 (2 * (b + 1))
        = formatGroup upperCase addr 0 ++ formatGroups upperCase addr (2 * 1) (2 * (b + 1)) := by
      rw [formatGroups, formatGroups, show (2 * (b + 1) - 0) / 2 = b + 1 by omega,
        show (2 * (b + 1) - 2 * 1) / 2 = b by omega, List.range'_succ, List.flatMap_cons]
      simp
    rw [hgroups, hformat, intercalate_cons, formatGroups_of_pos upperCase addr Nat.one_pos]

/-- The groups of the text in which those from `f` up to `l` are compressed. -/
def compressedGroups (upperCase : Bool) (addr : List UInt8) (f l n : ℕ)
    (tail : List (List Char)) : List (List Char) :=
  (if f = 0 then [[]] else groups upperCase addr 0 f) ++
    ([[]] ++ (groups upperCase addr l n ++ ((if l = n then [[]] else []) ++ tail)))

/-- A compressed text is a text of groups. -/
theorem intercalate_compressedGroups (upperCase : Bool) (addr : List UInt8) {f l n : ℕ}
    (hl : f < l) (tail : List (List Char)) :
    [':'].intercalate (compressedGroups upperCase addr f l n tail)
      = formatGroups upperCase addr 0 (2 * f) ++ [':'] ++ formatGroups upperCase addr (2 * l) (2 * n)
        ++ (if l = n then [':'] else []) ++ tail.flatMap (':' :: ·) := by
  have hfirst : [':'].intercalate (if f = 0 then [[]] else groups upperCase addr 0 f)
      = [':'].intercalate (groups upperCase addr 0 f) := by
    by_cases hf : f = 0
    · rw [if_pos hf, hf]
      rfl
    · rw [if_neg hf]
  have hne : (if f = 0 then [[]] else groups upperCase addr 0 f) ≠ [] := by
    by_cases hf : f = 0
    · rw [if_pos hf]
      simp
    · rw [if_neg hf]
      exact mt groups_eq_nil_iff.mp (by omega)
  rw [compressedGroups, intercalate_append hne, hfirst, ← formatGroups_zero, List.flatMap_append,
    List.flatMap_append, List.flatMap_append, ← formatGroups_of_pos upperCase addr (by omega) n]
  by_cases hln : l = n
  · simp [hln]
  · simp [hln]

/-! ### Parsing the groups -/

/-- What is printed behind the group at `n`: nothing, or the dotted quad. -/
def Tail (lo : UInt64) (n : ℕ) (tail : List (List Char)) : Prop :=
  (n = 8 ∧ tail = []) ∨ (n = 6 ∧ tail = [formatIPv4 lo])

section Parsing

variable {upperCase : Bool} {hi lo : UInt64} {zone' : String} {n : ℕ} {tail : List (List Char)}
  {text zone : List Char} {c : Option ℕ}

/-- The groups from `l` on fill the fields from `l` on. -/
theorem parseGroups_back (done : List UInt16) (htail : Tail lo n tail) {l : ℕ} (hl : l < n)
    (hroom : done.length + (8 - l) ≤ 8) :
    parseGroups text zone (groups upperCase (v6 hi lo zone').bytes l n ++ tail) done.length c
        (filled done)
      = .ok (.groups (done ++ fields (v6 hi lo zone').bytes l 8).length c
          (filled (done ++ fields (v6 hi lo zone').bytes l 8))) := by
  have hlen := length_fields (v6 hi lo zone').bytes l n
  rcases htail with ⟨rfl, rfl⟩ | ⟨rfl, rfl⟩
  · rw [parseGroups_hexes done (forall₂_groups upperCase _ l 8) (by rw [hlen]; omega), parseGroups]
  · rw [parseGroups_hexes done (forall₂_groups upperCase _ l 6) (by rw [hlen]; omega),
      parseGroups_ipv4 _ lo (by rw [List.length_append, hlen]; omega)
        (by rw [List.length_append, hlen]; omega),
      ← fields_ipv4 hi lo zone', List.append_assoc, fields_append _ (by omega) (by omega)]

theorem ok_bind_finishParse (e : GroupsEnd) :
    ((.ok e : Maybe GroupsEnd) >>= finishParse zone) = finishParse zone e := rfl

/-- The end of the parser when zeros are missing behind `front`. -/
theorem finishParse_expand {front back : List UInt16} (hfront : front ≠ []) :
    finishParse zone (.groups (front ++ back).length (some (front.length - 1))
        (filled (front ++ back)))
      = .ok (makeIPv6 (front ++ List.replicate (8 - (front ++ back).length) 0 ++ back) zone) := by
  rw [finishParse]
  by_cases hall : (front ++ back).length < 8
  · rw [if_pos hall, expand_eq hfront (by rwa [List.length_append] at hall)]
  · rw [if_neg hall, filled, show 8 - (front ++ back).length = 0 by omega, List.replicate_zero,
      List.append_nil, List.append_nil]

/-- All groups in full. -/
theorem parse_plain (htail : Tail lo n tail) :
    (parseGroups text zone (groups upperCase (v6 hi lo zone').bytes 0 n ++ tail) 0 none
        (List.replicate 8 0) >>= finishParse zone)
      = .ok (makeIPv6 (fields (v6 hi lo zone').bytes 0 8) zone) := by
  have hpos : 0 < n := by
    rcases htail with ⟨rfl, _⟩ | ⟨rfl, _⟩ <;> omega
  have hrun : parseGroups text zone (groups upperCase (v6 hi lo zone').bytes 0 n ++ tail) 0 none
      (filled []) = _ :=
    parseGroups_back [] htail hpos (by simp)
  have hlen := length_fields (v6 hi lo zone').bytes 0 8
  rw [show List.replicate 8 (0 : UInt16) = filled [] from rfl, hrun, List.nil_append,
    ok_bind_finishParse, finishParse, if_neg (by omega), filled, hlen, Nat.sub_self,
    List.replicate_zero, List.append_nil]

/-- The first groups of a compressed text, and the empty group behind them. -/
theorem parse_front {f l : ℕ} (hfl : f + 2 ≤ l) (hl : l ≤ 8) (rest : List (List Char))
    (hrun : Run (ZeroAt (v6 hi lo zone').bytes) f l) :
    ∃ front, front ≠ [] ∧ front.length = max 2 (f + 1) ∧
      parseGroups text zone ((if f = 0 then [[]] else groups upperCase (v6 hi lo zone').bytes 0 f)
          ++ ([[]] ++ rest)) 0 none (List.replicate 8 0)
        = parseGroups text zone rest front.length (some (front.length - 1)) (filled front) ∧
      ∀ k, front ++ List.replicate k 0
        = fields (v6 hi lo zone').bytes 0 f ++ List.replicate (max 2 (f + 1) - f + k) 0 := by
  rw [show List.replicate 8 (0 : UInt16) = filled [] from rfl]
  by_cases hf : f = 0
  · subst hf
    refine ⟨[0, 0], by simp, rfl, ?_, fun k => ?_⟩
    · rw [if_pos rfl, List.singleton_append, List.singleton_append]
      exact (parseGroups_empty [] (by simp) rfl).trans (parseGroups_empty [0] (by simp) rfl)
    · rw [show max 2 (0 + 1) - 0 + k = k + 2 by omega]
      rfl
  · have hlen := length_fields (v6 hi lo zone').bytes 0 f
    refine ⟨fields (v6 hi lo zone').bytes 0 f ++ [0], by simp, ?_, ?_, fun k => ?_⟩
    · rw [List.length_append, hlen, List.length_singleton]
      omega
    · have hhexes : parseGroups text zone
          (groups upperCase (v6 hi lo zone').bytes 0 f ++ ([[]] ++ rest)) 0 none (filled []) = _ :=
        parseGroups_hexes [] (forall₂_groups upperCase _ 0 f)
          (by rw [hlen, List.length_nil]; omega)
      rw [if_neg hf, hhexes, List.nil_append, List.singleton_append,
        parseGroups_empty _ (by rw [hlen]; omega) rfl, List.length_append, List.length_singleton,
        Nat.add_sub_cancel]
    · rw [show max 2 (f + 1) - f + k = k + 1 by omega, List.append_assoc, List.replicate_succ]
      rfl

/-- A run of zeros that is compressed at the start or in the middle. -/
theorem parse_compressed (htail : Tail lo n tail) {f l : ℕ} (hfl : f + 2 ≤ l) (hl : l < n)
    (hrun : Run (ZeroAt (v6 hi lo zone').bytes) f l) :
    (parseGroups text zone (compressedGroups upperCase (v6 hi lo zone').bytes f l n tail) 0 none
        (List.replicate 8 0) >>= finishParse zone)
      = .ok (makeIPv6 (fields (v6 hi lo zone').bytes 0 8) zone) := by
  have hn : n ≤ 8 := by
    rcases htail with ⟨rfl, _⟩ | ⟨rfl, _⟩ <;> omega
  have hlen := length_fields (v6 hi lo zone').bytes l 8
  obtain ⟨front, hne, hfront, hparse, hzeros⟩ := @parse_front upperCase hi lo zone' text
    zone f l hfl (by omega) (groups upperCase (v6 hi lo zone').bytes l n ++ tail) hrun
  rw [compressedGroups, if_neg (show ¬ l = n by omega), List.nil_append, hparse,
    parseGroups_back front htail hl (by omega), ok_bind_finishParse,
    finishParse_expand hne, hzeros, List.length_append, hfront, hlen,
    show max 2 (f + 1) - f + (8 - (max 2 (f + 1) + (8 - l))) = l - f by omega,
    ← fields_of_run hrun, fields_append _ (by omega) (by omega),
    fields_append _ (by omega) (by omega)]

/-- A run of zeros that is compressed at the end. -/
theorem parse_compressed_end {f : ℕ} (hf : f + 2 ≤ 8)
    (hrun : Run (ZeroAt (v6 hi lo zone').bytes) f 8) :
    (parseGroups text zone (compressedGroups upperCase (v6 hi lo zone').bytes f 8 8 []) 0 none
        (List.replicate 8 0) >>= finishParse zone)
      = if f < 2 then .ok (makeIPv6 (fields (v6 hi lo zone').bytes 0 8) zone)
        else .error .syntaxError := by
  obtain ⟨front, hne, hfront, hparse, hzeros⟩ := @parse_front upperCase hi lo zone' text
    zone f 8 hf le_rfl [[]] hrun
  have hnone : groups upperCase (v6 hi lo zone').bytes 8 8 = [] :=
    groups_eq_nil_iff.mpr le_rfl
  rw [compressedGroups, if_pos (rfl : 8 = 8), hnone, List.nil_append, List.append_nil, hparse]
  by_cases hlow : f < 2
  · have hback := @finishParse_expand zone (front ++ [0]) [] (by simp)
    rw [List.append_nil, List.length_append, List.length_singleton, Nat.add_sub_cancel] at hback
    rw [if_pos hlow, parseGroups_empty front (by omega), parseGroups, ok_bind_finishParse,
      List.length_append, List.length_singleton, hback, List.append_nil, List.append_assoc,
      List.singleton_append, ← List.replicate_succ, hzeros, hfront,
      show max 2 (f + 1) - f + (8 - (max 2 (f + 1) + 1) + 1) = 8 - f by omega,
      ← fields_of_run hrun, fields_append _ (by omega) (by omega)]
    rw [hfront, mayCollapse]
    have hcases : f = 0 ∨ f = 1 := by omega
    rcases hcases with rfl | rfl <;> rfl
  · rw [if_neg hlow, parseGroups, if_neg (by omega), List.isEmpty_nil, if_pos rfl, if_neg]
    · rfl
    · rw [hfront, mayCollapse, show max 2 (f + 1) = f + 1 by omega, Nat.add_sub_cancel]
      simp
      omega

end Parsing

/-! ### The text as a whole -/

theorem colon_notMem_formatIPv4 (lo : UInt64) {c : Char} (hc : 10 ≤ digitValue c) (hdot : c ≠ '.') :
    c ∉ formatIPv4 lo := by
  have hdecimal : ∀ k : UInt64, c ∉ Nat.toDigits 10 ((lo >>> k) &&& 0xff).toNat :=
    fun k => not_mem_of_spells (spells_toDigits (by norm_num) (by norm_num) _) hc
  simp only [formatIPv4, List.mem_append, List.mem_cons, not_or]
  exact ⟨hdecimal 24, hdot, hdecimal 16, hdot, hdecimal 8, hdot, hdecimal 0⟩

/-- Pieces of text without separators. -/
def Plain (pieces : List (List Char)) : Prop := ∀ piece ∈ pieces, ':' ∉ piece ∧ '%' ∉ piece

theorem plain_groups (upperCase : Bool) (addr : List UInt8) (a b : ℕ) :
    Plain (groups upperCase addr a b) := by
  intro piece hpiece
  rw [groups, List.mem_map] at hpiece
  obtain ⟨k, _, rfl⟩ := hpiece
  have h := (spells_formatGroup upperCase addr k).1
  exact ⟨not_mem_of_spells h (by decide), not_mem_of_spells h (by decide)⟩

theorem Plain.append {xs ys : List (List Char)} (hx : Plain xs) (hy : Plain ys) :
    Plain (xs ++ ys) := by
  intro piece hpiece
  rcases List.mem_append.mp hpiece with h | h
  · exact hx piece h
  · exact hy piece h

theorem plain_empty : Plain [[]] := by
  intro piece hpiece
  rw [List.mem_singleton.mp hpiece]
  exact ⟨List.not_mem_nil, List.not_mem_nil⟩

theorem plain_nil : Plain [] := fun _ h => absurd h List.not_mem_nil

theorem Tail.plain {lo : UInt64} {n : ℕ} {tail : List (List Char)} (h : Tail lo n tail) :
    Plain tail := by
  rcases h with ⟨_, rfl⟩ | ⟨_, rfl⟩
  · exact plain_nil
  · intro piece hpiece
    rw [List.mem_singleton.mp hpiece]
    exact ⟨colon_notMem_formatIPv4 lo (by decide) (by decide),
      colon_notMem_formatIPv4 lo (by decide) (by decide)⟩

theorem plain_compressedGroups (upperCase : Bool) (addr : List UInt8) (f l : ℕ) {lo : UInt64}
    {n : ℕ} {tail : List (List Char)} (htail : Tail lo n tail) :
    Plain (compressedGroups upperCase addr f l n tail) := by
  refine Plain.append ?_ (plain_empty.append ((plain_groups upperCase addr l n).append
    (Plain.append ?_ htail.plain)))
  · split
    · exact plain_empty
    · exact plain_groups upperCase addr 0 f
  · split
    · exact plain_empty
    · exact plain_nil

/-- The zone as it is printed. -/
def zoneText (zone : String) : List Char := if zone ≠ "" then '%' :: zone.toList else []

/-- The text is cut at the zone and at the colons. -/
theorem parse_pieces {pieces : List (List Char)} (hplain : Plain pieces) (zone : String)
    (hne : [':'].intercalate pieces ≠ []) :
    parse ([':'].intercalate pieces ++ zoneText zone) false
      = parseGroups ([':'].intercalate pieces) zone.toList pieces 0 none (List.replicate 8 0)
        >>= finishParse zone.toList := by
  set body := [':'].intercalate pieces with hbody
  have hpieces : pieces ≠ [] := by
    rintro rfl
    exact hne rfl
  have hsplit : body.splitOn ':' = pieces :=
    List.splitOn_intercalate _ (fun piece h => (hplain piece h).1) hpieces
  have hpercent : ∀ c ∈ body, (c != '%') = true := by
    intro c hc
    rw [bne_iff_ne]
    rintro rfl
    exact not_mem_intercalate (by decide) (fun piece hpiece => (hplain piece hpiece).2) hc
  have hempty : (body ++ zoneText zone).isEmpty = false := by
    rw [List.isEmpty_eq_false_iff]
    simp [hne]
  have htake : (body ++ zoneText zone).takeWhile (· != '%') = body := by
    rw [List.takeWhile_append_of_pos hpercent, zoneText]
    split <;> simp
  have hdrop : (body ++ zoneText zone).dropWhile (· != '%') = zoneText zone := by
    rw [List.dropWhile_append_of_pos hpercent, zoneText]
    split <;> simp
  rw [parse, hempty, if_neg Bool.false_ne_true, htake, hdrop]
  dsimp only
  rw [hsplit, Bool.and_false, if_neg Bool.false_ne_true, zoneText]
  by_cases hzone : zone = ""
  · subst hzone
    rfl
  · have hlist : zone.toList.isEmpty = false := by
      rw [List.isEmpty_eq_false_iff]
      intro h
      exact hzone (String.toList_inj.mp h)
    rw [if_pos hzone]
    simp only [List.drop_succ_cons, List.drop_zero, hlist, Bool.and_false, Bool.false_eq_true,
      if_false]

theorem parse_formatTo_v4 (addr : UInt32) (longForm upperCase : Bool) :
    parse ((v4 addr).formatTo longForm upperCase) false = .ok (v4 addr) := by
  have hlen := length_formatIPv4 addr.toUInt64
  have hplain : Plain [formatIPv4 addr.toUInt64] := Tail.plain (Or.inr ⟨rfl, rfl⟩)
  have hempty : (formatIPv4 addr.toUInt64).isEmpty = false := by
    rw [List.isEmpty_eq_false_iff, ← List.length_pos_iff]
    omega
  have hone : [':'].intercalate [formatIPv4 addr.toUInt64] = formatIPv4 addr.toUInt64 := by
    rw [intercalate_cons, List.flatMap_nil, List.append_nil]
  have hparse := parse_pieces hplain "" (by
    rw [hone, ← List.length_pos_iff]
    omega)
  rw [hone, zoneText, if_neg (by simp), List.append_nil] at hparse
  have hformat : (v4 addr).formatTo longForm upperCase = formatIPv4 addr.toUInt64 := rfl
  rw [hformat, hparse, parseGroups, if_neg (by omega), hempty, if_neg Bool.false_ne_true,
    if_pos hlen, if_pos rfl, parseIPv4_formatIPv4, UInt32.toUInt32_toUInt64]
  rfl

/-- The address is an IPv6 address whose text has no dotted quad, and of its runs
of zero groups the first of the longest is the one from `f` up to the end, with
two groups or more before it. -/
structure ZerosAtEnd (ip : IPAddress) (f : ℕ) : Prop where
  is6 : ip.is6 = true
  noQuad : (ip.is4in6 || ip.isScion4) = false
  behind : 2 ≤ f
  two : f + 2 ≤ 8
  zeros : ∀ k, f ≤ k → k < 8 → group ip.bytes (2 * k) = 0
  longest : ∀ i < f, ∃ k, i ≤ k ∧ k < i + (8 - f) ∧ group ip.bytes (2 * k) ≠ 0

/-- The groups of an IPv6 address that are printed, and the dotted quad. -/
theorem exists_tail (hi lo : UInt64) (zone : String) :
    ∃ n tail, Tail lo n tail ∧
      (if (v6 hi lo zone).is4in6 || (v6 hi lo zone).isScion4 then 12 else 16) = 2 * n ∧
      (if 2 * n = 12 then ':' :: formatIPv4 lo else []) = tail.flatMap (':' :: ·) ∧
      (n = 8 ↔ ((v6 hi lo zone).is4in6 || (v6 hi lo zone).isScion4) = false) ∧
      (n = 6 → ¬ ZeroAt (v6 hi lo zone).bytes 5) := by
  cases hquad : (v6 hi lo zone).is4in6 || (v6 hi lo zone).isScion4 with
  | false => exact ⟨8, [], Or.inl ⟨rfl, rfl⟩, rfl, rfl, by simp, by simp⟩
  | true =>
    have hmarker : (v6 hi lo zone).lo >>> 32 = 0xffff := by
      rcases Bool.or_eq_true_iff.mp hquad with h | h
      · simp only [is4in6, Bool.and_eq_true, beq_iff_eq] at h
        exact h.2
      · exact marker_of_isScion4 h
    refine ⟨6, [formatIPv4 lo], Or.inr ⟨rfl, rfl⟩, rfl, by simp, by simp, fun _ hzero => ?_⟩
    have h5 : group (v6 hi lo zone).bytes (2 * 5) = _ :=
      group_low hi lo zone (show 2 + 1 < 8 by omega)
    rw [ZeroAt, h5] at hzero
    rw [← UInt64.toNat_inj, UInt64.toNat_shiftRight, Nat.shiftRight_eq_div_pow,
      show (32 : UInt64).toNat % 64 = 32 from rfl, show (0xffff : UInt64).toNat = 65535 from rfl]
      at hmarker
    have hlo : (v6 hi lo zone).lo.toNat = lo.toNat := rfl
    omega

section Text

variable {upperCase : Bool} {hi lo : UInt64} {zone : String} {n : ℕ} {tail : List (List Char)}

/-- The parts of the text of an IPv6 address. -/
theorem formatTo_v6 {longForm : Bool} {first last : ℕ}
    (hlength : (if (v6 hi lo zone).is4in6 || (v6 hi lo zone).isScion4 then 12 else 16) = 2 * n)
    (hquad : (if 2 * n = 12 then ':' :: formatIPv4 lo else []) = tail.flatMap (':' :: ·))
    (h : (if longForm then (0, 0) else findLongestZeroGroup (v6 hi lo zone).bytes (2 * n))
      = (first, last)) :
    (v6 hi lo zone).formatTo longForm upperCase
      = formatGroups upperCase (v6 hi lo zone).bytes 0 first ++ (if last > first then [':'] else [])
        ++ formatGroups upperCase (v6 hi lo zone).bytes last (2 * n)
        ++ (if last = 2 * n then [':'] else []) ++ tail.flatMap (':' :: ·) ++ zoneText zone := by
  rw [formatTo, if_neg (show ¬ (v6 hi lo zone).is4 = true from Bool.false_ne_true), hlength]
  dsimp only
  rw [h, ← hquad]
  rfl

/-- The text without compression is parsed back. -/
theorem parse_fullText (htail : Tail lo n tail) :
    parse (formatGroups upperCase (v6 hi lo zone).bytes 0 (2 * n) ++ tail.flatMap (':' :: ·)
      ++ zoneText zone) false = .ok (v6 hi lo zone) := by
  have hpos : 0 < n := by
    rcases htail with ⟨rfl, _⟩ | ⟨rfl, _⟩ <;> omega
  have hgroups : groups upperCase (v6 hi lo zone).bytes 0 n ≠ [] :=
    mt groups_eq_nil_iff.mp (by omega)
  have hne : [':'].intercalate (groups upperCase (v6 hi lo zone).bytes 0 n ++ tail) ≠ [] := by
    obtain ⟨x, xs, hx⟩ := List.exists_cons_of_ne_nil hgroups
    have hfirst : x ∈ groups upperCase (v6 hi lo zone).bytes 0 n := hx ▸ List.mem_cons_self ..
    rw [groups, List.mem_map] at hfirst
    obtain ⟨k, _, rfl⟩ := hfirst
    rw [hx, List.cons_append, intercalate_cons]
    intro hnil
    exact (spells_formatGroup upperCase _ k).1.ne_nil (List.append_eq_nil_iff.mp hnil).1
  have hparse := parse_pieces ((plain_groups upperCase _ 0 n).append htail.plain) zone hne
  rw [parse_plain htail, makeIPv6_fields] at hparse
  rwa [intercalate_append hgroups, ← formatGroups_zero] at hparse

/-- The text with the zeros from `f` up to `l` compressed is parsed back, unless
these are the last groups and two groups or more stand before them. -/
theorem parse_compressedText (htail : Tail lo n tail)
    (hn6 : n = 6 → ¬ ZeroAt (v6 hi lo zone).bytes 5) {f l : ℕ} (hfl : f + 2 ≤ l) (hln : l ≤ n)
    (hrun : Run (ZeroAt (v6 hi lo zone).bytes) f l) :
    parse (formatGroups upperCase (v6 hi lo zone).bytes 0 (2 * f) ++ [':']
        ++ formatGroups upperCase (v6 hi lo zone).bytes (2 * l) (2 * n)
        ++ (if l = n then [':'] else []) ++ tail.flatMap (':' :: ·) ++ zoneText zone) false
      = if l = 8 ∧ 2 ≤ f then .error .syntaxError else .ok (v6 hi lo zone) := by
  have hbody := intercalate_compressedGroups upperCase (v6 hi lo zone).bytes (n := n)
    (show f < l by omega) tail
  have hparse := parse_pieces (plain_compressedGroups upperCase (v6 hi lo zone).bytes f l htail)
    zone (by rw [hbody]; simp)
  rw [← hbody, hparse]
  by_cases hend : l = n
  · subst hend
    rcases htail with ⟨rfl, rfl⟩ | ⟨rfl, rfl⟩
    · rw [parse_compressed_end (by omega) hrun, makeIPv6_fields]
      by_cases hf : f < 2
      · rw [if_pos hf, if_neg (by omega)]
      · rw [if_neg hf, if_pos (by omega)]
    · exact absurd (hrun.2 5 (by omega) (by omega)) (hn6 rfl)
  · rw [parse_compressed htail hfl (by omega) hrun, makeIPv6_fields, if_neg]
    rintro ⟨rfl, _⟩
    rcases htail with ⟨rfl, _⟩ | ⟨rfl, _⟩ <;> omega

end Text

/-- The text of an address is parsed back, or its zeros at the end are compressed
behind two groups or more and it is not parsed. -/
theorem parse_formatTo_cases (ip : IPAddress) (longForm upperCase : Bool) :
    ((longForm = false ∧ ∃ f, ZerosAtEnd ip f) ∧
        parse (ip.formatTo longForm upperCase) false = .error .syntaxError) ∨
      (¬(longForm = false ∧ ∃ f, ZerosAtEnd ip f) ∧
        parse (ip.formatTo longForm upperCase) false = .ok ip) := by
  rcases ip with addr | ⟨hi, lo, zone⟩
  · refine Or.inr ⟨?_, parse_formatTo_v4 addr longForm upperCase⟩
    rintro ⟨_, f, h⟩
    exact absurd h.is6 (show ¬ false = true by decide)
  obtain ⟨n, tail, htail, hlength, hquad, hn8, hn6⟩ := exists_tail hi lo zone
  have hn : n = 8 ∨ n = 6 := by
    rcases htail with ⟨h, _⟩ | ⟨h, _⟩
    · exact Or.inl h
    · exact Or.inr h
  have hfull : (if longForm then (0, 0) else findLongestZeroGroup (v6 hi lo zone).bytes (2 * n))
      = (0, 0) → parse ((v6 hi lo zone).formatTo longForm upperCase) false = .ok (v6 hi lo zone) := by
    intro h
    rw [formatTo_v6 hlength hquad h, if_neg (by omega), if_neg (by omega), List.append_nil,
      List.append_nil]
    exact parse_fullText htail
  cases longForm with
  | true => exact Or.inr ⟨by simp, hfull rfl⟩
  | false =>
    obtain ⟨f, l, hfind, hfound⟩ := findLongestZeroGroup_found (v6 hi lo zone).bytes n
    rcases hfound with ⟨rfl, rfl, hnone⟩ | hlongest
    · refine Or.inr ⟨?_, hfull (hfind.trans rfl)⟩
      rintro ⟨_, f, hend⟩
      have h8 := hn8.mpr hend.noQuad
      have htwo := hend.two
      have hshort := hnone f 8 (by omega) ⟨by omega, hend.zeros⟩
      omega
    · have htwo := hlongest.two
      have hle := hlongest.le
      have hends : (if 2 * l = 2 * n then [':'] else []) = if l = n then [':'] else [] := by
        by_cases hln : l = n
        · rw [if_pos hln, if_pos (by omega)]
        · rw [if_neg hln, if_neg (by omega)]
      have hif : (if false then (0, 0) else findLongestZeroGroup (v6 hi lo zone).bytes (2 * n))
          = (2 * f, 2 * l) := hfind
      rw [formatTo_v6 hlength hquad hif, if_pos (by omega), hends,
        parse_compressedText htail hn6 htwo hle hlongest.run]
      by_cases hbad : l = 8 ∧ 2 ≤ f
      · obtain ⟨rfl, hbehind⟩ := hbad
        obtain rfl : n = 8 := by omega
        obtain ⟨_, hzeros, hbefore⟩ := isLongest_end_iff.mp hlongest
        exact Or.inl ⟨⟨rfl, f, rfl, hn8.mp rfl, hbehind, htwo, hzeros, hbefore⟩,
          if_pos ⟨rfl, hbehind⟩⟩
      · refine Or.inr ⟨?_, if_neg hbad⟩
        rintro ⟨_, f', hend⟩
        obtain rfl : n = 8 := hn8.mpr hend.noQuad
        have hlast : IsLongest (ZeroAt (v6 hi lo zone).bytes) 8 f' 8 :=
          isLongest_end_iff.mpr ⟨hend.two, hend.zeros, hend.longest⟩
        obtain ⟨rfl, rfl⟩ : f = f' ∧ l = 8 := hlongest.unique hlast
        exact hbad ⟨rfl, hend.behind⟩

/-- The text of an address is parsed back into the address, in either format and
case of digits, unless the default format compresses zeros at its end behind two
groups or more: that text ends in two colons, of which the parser takes the
second for another collapsed group. -/
theorem parse_formatTo_iff (ip : IPAddress) (longForm upperCase : Bool) :
    parse (ip.formatTo longForm upperCase) false = .ok ip ↔
      ¬(longForm = false ∧ ∃ f, ZerosAtEnd ip f) := by
  rcases parse_formatTo_cases ip longForm upperCase with ⟨hbad, herror⟩ | ⟨hgood, hok⟩
  · rw [herror]
    exact iff_of_false (by simp) (not_not.mpr hbad)
  · exact iff_of_true hok hgood

/-- The address 2001:db8:: is printed so, and this text is not parsed. -/
theorem not_forall_parse_formatTo :
    ¬ ∀ (ip : IPAddress) (longForm : Bool), parse (ip.formatTo longForm false) false = .ok ip := by
  intro h
  have hbad : ZerosAtEnd (v6 0x20010db800000000 0 "") 2 := by
    refine ⟨rfl, by decide, le_refl 2, by norm_num, by decide, ?_⟩
    intro i hi
    refine ⟨i, le_refl i, by omega, ?_⟩
    rcases (by omega : i = 0 ∨ i = 1) with rfl | rfl
    · decide
    · decide
  rcases parse_formatTo_cases (v6 0x20010db800000000 0 "") false false with ⟨_, herror⟩ | ⟨hgood, _⟩
  · rw [h _ false] at herror
    cases herror
  · exact hgood ⟨rfl, 2, hbad⟩

end IPAddress

end Scion
