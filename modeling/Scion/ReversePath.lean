/-
Path reversal (`path/path.cpp`, `path/decoded_scion.hpp`).

`reversePathInPlace` works on the bytes of a path: bit fields of the meta word
and copies of whole records. `DecodedScionPath.reverseInPlace` works on the
decoded fields. On a buffer that decodes completely, with its reserved bits
zero, the two commute with decoding.

* `reversePathInPlace_layout` — the bytes of the reversed path;
* `consistent_reverse` — the fields of the reversed path;
* `reversePathInPlace_eq_encode` — both ways lead to the same bytes.
-/
import Scion.ScionPath

namespace Scion

open BigEndian Codec Records

/-! ### Reversal of the raw bytes -/

/-- The segment lengths in the meta word. -/
def metaSeg (pathMeta : UInt32) : ℕ → UInt32
  | 0 => (pathMeta >>> 12) &&& 0x3f
  | 1 => (pathMeta >>> 6) &&& 0x3f
  | _ => pathMeta &&& 0x3f

def metaNumInf (pathMeta : UInt32) : UInt32 :=
  (if metaSeg pathMeta 0 > 0 then 1 else 0) + (if metaSeg pathMeta 1 > 0 then 1 else 0)
    + (if metaSeg pathMeta 2 > 0 then 1 else 0)

def metaNumHop (pathMeta : UInt32) : UInt32 :=
  metaSeg pathMeta 0 + metaSeg pathMeta 1 + metaSeg pathMeta 2

/-- The meta word of the reversed path. -/
def reverseMeta (pathMeta : UInt32) : UInt32 :=
  let numInf := metaNumInf pathMeta
  let res := (pathMeta >>> 18) &&& 0x3f
  let currHop := metaNumHop pathMeta - ((pathMeta >>> 24) &&& 0x3f) - 1
  let currInf := numInf - ((pathMeta >>> 30) &&& 0x03) - 1
  let (seg0, seg1, seg2) :=
    if numInf = 2 then (metaSeg pathMeta 1, metaSeg pathMeta 0, metaSeg pathMeta 2)
    else if numInf = 3 then (metaSeg pathMeta 2, metaSeg pathMeta 1, metaSeg pathMeta 0)
    else (metaSeg pathMeta 0, metaSeg pathMeta 1, metaSeg pathMeta 2)
  seg2 ||| (seg1 <<< 6) ||| (seg0 <<< 12) ||| (res <<< 18) ||| (currHop <<< 24) ||| (currInf <<< 30)

/-- Reverse the order of the info fields, then their construction direction;
`inf` starts at the first info field. -/
def reverseInfoFields (numInf : ℕ) (inf : List UInt8) : List UInt8 :=
  let inf := if numInf > 1 then swapRecords 8 0 (numInf - 1) inf else inf
  (List.range numInf).foldl (fun inf i => inf.set (i * 8) (inf.getD (i * 8) 0 ^^^ 1)) inf

/-- Reverse the order of the hop fields; `hfs` starts at the first hop field. -/
def reverseHopFields (numHop : ℕ) (hfs : List UInt8) : List UInt8 :=
  swapLoop (swapRecords 12) 0 (numHop - 1) hfs

/-- Apply `f` to the buffer from `off` on. -/
def modifyFrom (off : ℕ) (f : List UInt8 → List UInt8) (path : List UInt8) : List UInt8 :=
  path.take off ++ f (path.drop off)

def reversePathInPlace (type : PathType) (path : List UInt8) : ErrorCode × List UInt8 :=
  if type = PathType.empty then (.ok, path)
  else if type ≠ PathType.scion then (.notImplemented, path)
  else if path.length < 4 then (.invalidArgument, path)
  else
    let pathMeta := UInt32.ofNat (beNat (slice path 0 4))
    let numInf := (metaNumInf pathMeta).toNat
    let numHop := (metaNumHop pathMeta).toNat
    if numInf < 1 then (.invalidArgument, path)
    else if numHop < 2 ∨ numHop > 64 then (.invalidArgument, path)
    else if path.length ≠ 4 + numInf * 8 + numHop * 12 then (.invalidArgument, path)
    else
      let path := modifyFrom 4 (reverseInfoFields numInf) path
      let path := modifyFrom (4 + numInf * 8) (reverseHopFields numHop) path
      (.ok, overwrite path 0 (beBytes 4 (reverseMeta pathMeta).toNat))

/-! ### Reversal of a decoded path -/

namespace PathMeta

/-- The meta header of the reversed path. -/
def reverse (m : PathMeta) (numInf numHop : ℕ) : PathMeta :=
  let m := { m with
    currInf := (UInt64.ofNat numInf - m.currInf.toUInt64 - 1).toUInt8
    currHf := (UInt64.ofNat numHop - m.currHf.toUInt64 - 1).toUInt8 }
  if numInf = 2 then { m with seg0 := m.seg1, seg1 := m.seg0 }
  else if numInf = 3 then { m with seg0 := m.seg2, seg2 := m.seg0 }
  else m

end PathMeta

/-- `flags ^= Flags::ConsDir`. -/
def InfoField.toggleConsDir (info : InfoField) : InfoField := { info with flags := info.flags ^^^ 1 }

def DecodedScionPath.reverseInPlace (p : DecodedScionPath) : ErrorCode × DecodedScionPath :=
  if p.hfs.isEmpty then (.logicError, p)
  else
    let numInf := p.ifs.length
    let ifs := if numInf > 1 then swapAt 0 (numInf - 1) p.ifs else p.ifs
    let numHop := p.hfs.length
    (.ok, {
      source := p.destination
      destination := p.source
      metaHeader := p.metaHeader.reverse numInf numHop
      ifs := ifs.map InfoField.toggleConsDir
      hfs := swapLoop swapAt 0 (numHop - 1) p.hfs })

/-! ### Records -/

/-- Toggling the construction direction in the bytes of an info field. -/
def toggleFirst (c : List UInt8) : List UInt8 := c.set 0 (c.getD 0 0 ^^^ 1)

theorem set_flatten_split {p c t : List UInt8} (hc : c ≠ []) :
    (p ++ (c ++ t)).set p.length ((p ++ (c ++ t)).getD p.length 0 ^^^ 1)
      = p ++ (toggleFirst c ++ t) := by
  match c, hc with
  | b :: bs, _ => simp [toggleFirst, List.getD_eq_getElem?_getD]

/-- The loop toggles the leading byte of every record. -/
theorem foldl_toggle (cs : List (List UInt8)) (h : ∀ c ∈ cs, c.length = 8) (t : List UInt8) :
    (List.range cs.length).foldl
        (fun inf i => inf.set (i * 8) (inf.getD (i * 8) 0 ^^^ 1)) (cs.flatten ++ t)
      = (cs.map toggleFirst).flatten ++ t := by
  have hprefix : ∀ k, k ≤ cs.length →
      (List.range k).foldl (fun inf i => inf.set (i * 8) (inf.getD (i * 8) 0 ^^^ 1))
          (cs.flatten ++ t)
        = ((cs.take k).map toggleFirst).flatten ++ ((cs.drop k).flatten ++ t) := by
    intro k
    induction k with
    | zero => intro _; simp
    | succ k ih =>
      intro hk
      have hlen : (((cs.take k).map toggleFirst).flatten).length = k * 8 := by
        rw [length_flatten (w := 8), List.length_map, List.length_take, Nat.min_eq_left (by omega)]
        intro c hc
        obtain ⟨d, hd, rfl⟩ := List.mem_map.mp hc
        rw [toggleFirst, List.length_set]
        exact h d (List.mem_of_mem_take hd)
      have hne : cs[k] ≠ [] := by
        have h8 := h _ (List.getElem_mem (show k < cs.length by omega))
        intro hnil
        rw [hnil] at h8
        cases h8
      rw [List.range_succ, List.foldl_append, ih (by omega), List.foldl_cons, List.foldl_nil,
        List.drop_eq_getElem_cons (show k < cs.length by omega), List.flatten_cons, ← hlen,
        List.append_assoc, set_flatten_split hne, List.take_succ_eq_append_getElem (by omega),
        List.map_append, List.flatten_append, List.append_assoc]
      simp
  have hall := hprefix cs.length le_rfl
  simpa using hall

theorem reverseInfoFields_flatten {ics : List (List UInt8)} (h : ∀ c ∈ ics, c.length = 8)
    (t : List UInt8) :
    reverseInfoFields ics.length (ics.flatten ++ t)
      = ((if ics.length > 1 then swapAt 0 (ics.length - 1) ics else ics).map toggleFirst).flatten
        ++ t := by
  unfold reverseInfoFields
  by_cases hmany : ics.length > 1
  · obtain ⟨hswap, hlen⟩ := swapRecords_flatten h (i := 0) (j := ics.length - 1) (by omega) (by omega)
    have htotal := length_flatten h
    have hfold := foldl_toggle (swapAt 0 (ics.length - 1) ics) hlen t
    rw [length_swapAt] at hfold
    rw [if_pos hmany, if_pos hmany,
      swapRecords_append t (by omega) (by rw [htotal]; omega), hswap]
    exact hfold
  · rw [if_neg hmany, if_neg hmany]
    exact foldl_toggle ics h t

/-! ### The meta word -/

theorem toNat_field32 (x k mask : UInt32) (n : ℕ) (hk : k.toNat < 32)
    (hmask : mask.toNat = 2 ^ n - 1) :
    ((x >>> k) &&& mask).toNat = x.toNat / 2 ^ k.toNat % 2 ^ n := by
  rw [UInt32.toNat_and, UInt32.toNat_shiftRight, Nat.mod_eq_of_lt hk, hmask,
    Nat.and_two_pow_sub_one_eq_mod, Nat.shiftRight_eq_div_pow]

/-- A field put above the low `k` bits. -/
theorem toNat_or_high (x y k : UInt32) (hk : k.toNat < 32) (hx : x.toNat < 2 ^ k.toNat)
    (hy : y.toNat * 2 ^ k.toNat < 2 ^ 32) :
    (x ||| (y <<< k)).toNat = x.toNat + y.toNat * 2 ^ k.toNat := by
  rw [UInt32.toNat_or, UInt32.toNat_shiftLeft, Nat.mod_eq_of_lt hk, Nat.shiftLeft_eq,
    Nat.mod_eq_of_lt hy, mul_comm, Nat.or_comm, ← Nat.two_pow_add_eq_or_of_lt hx, add_comm]

/-- A field put at bit `k` does not change the bits below. -/
theorem toNat_or_mod (x y k : UInt32) {n : ℕ} (hk : k.toNat < 32) (hn : n ≤ k.toNat) :
    (x ||| (y <<< k)).toNat % 2 ^ n = x.toNat % 2 ^ n := by
  have hhigh : y.toNat <<< k.toNat % 2 ^ 32 % 2 ^ n = 0 := by
    rw [Nat.mod_mod_of_dvd _ (pow_dvd_pow 2 (by omega)), Nat.shiftLeft_eq]
    exact Nat.mod_eq_zero_of_dvd ((pow_dvd_pow 2 hn).mul_left _)
  rw [UInt32.toNat_or, UInt32.toNat_shiftLeft, Nat.mod_eq_of_lt hk, Nat.or_mod_two_pow, hhigh,
    Nat.or_zero]

theorem toNat_packSegments {seg2 seg1 seg0 : UInt32} (h2 : seg2.toNat < 64)
    (h1 : seg1.toNat < 64) (h0 : seg0.toNat < 64) :
    (seg2 ||| (seg1 <<< 6) ||| (seg0 <<< 12)).toNat
      = seg2.toNat + seg1.toNat * 2 ^ 6 + seg0.toNat * 2 ^ 12 := by
  have e1 : (seg2 ||| (seg1 <<< 6)).toNat = seg2.toNat + seg1.toNat * 2 ^ 6 :=
    toNat_or_high seg2 seg1 6 (by decide) h2 (by show _ * 2 ^ 6 < _; omega)
  rw [← e1]
  exact toNat_or_high _ seg0 12 (by decide) (by rw [e1]; show _ < 2 ^ 12; omega)
    (by show _ * 2 ^ 12 < _; omega)

theorem toNat_packMeta {seg2 seg1 seg0 res hop inf : UInt32} (h2 : seg2.toNat < 64)
    (h1 : seg1.toNat < 64) (h0 : seg0.toNat < 64) (hres : res.toNat < 64) (hhop : hop.toNat < 64)
    (hinf : inf.toNat < 4) :
    (seg2 ||| (seg1 <<< 6) ||| (seg0 <<< 12) ||| (res <<< 18) ||| (hop <<< 24) ||| (inf <<< 30)).toNat
      = seg2.toNat + seg1.toNat * 2 ^ 6 + seg0.toNat * 2 ^ 12 + res.toNat * 2 ^ 18
        + hop.toNat * 2 ^ 24 + inf.toNat * 2 ^ 30 := by
  have e2 := toNat_packSegments h2 h1 h0
  have e3 : (seg2 ||| (seg1 <<< 6) ||| (seg0 <<< 12) ||| (res <<< 18)).toNat
      = seg2.toNat + seg1.toNat * 2 ^ 6 + seg0.toNat * 2 ^ 12 + res.toNat * 2 ^ 18 := by
    rw [← e2]
    exact toNat_or_high _ res 18 (by decide) (by rw [e2]; show _ < 2 ^ 18; omega)
      (by show _ * 2 ^ 18 < _; omega)
  have e4 : (seg2 ||| (seg1 <<< 6) ||| (seg0 <<< 12) ||| (res <<< 18) ||| (hop <<< 24)).toNat
      = seg2.toNat + seg1.toNat * 2 ^ 6 + seg0.toNat * 2 ^ 12 + res.toNat * 2 ^ 18
        + hop.toNat * 2 ^ 24 := by
    rw [← e3]
    exact toNat_or_high _ hop 24 (by decide) (by rw [e3]; show _ < 2 ^ 24; omega)
      (by show _ * 2 ^ 24 < _; omega)
  rw [← e4]
  exact toNat_or_high _ inf 30 (by decide) (by rw [e4]; show _ < 2 ^ 30; omega)
    (by show _ * 2 ^ 30 < _; omega)

theorem toNat_metaSeg (pathMeta : UInt32) (i : ℕ) :
    (metaSeg pathMeta i).toNat = ((PathMeta.ofWord pathMeta.toNat).segLen i).toNat := by
  have hbyte : ∀ n, (UInt8.ofNat (n % 2 ^ 6)).toNat = n % 2 ^ 6 := by
    intro n
    rw [UInt8.toNat_ofNat']
    omega
  match i with
  | 0 => exact (toNat_field32 pathMeta 12 0x3f 6 (by decide) rfl).trans (hbyte _).symm
  | 1 => exact (toNat_field32 pathMeta 6 0x3f 6 (by decide) rfl).trans (hbyte _).symm
  | n + 2 =>
    show (pathMeta &&& 0x3f).toNat = (UInt8.ofNat (pathMeta.toNat % 2 ^ 6)).toNat
    rw [hbyte, UInt32.toNat_and, show (0x3f : UInt32).toNat = 2 ^ 6 - 1 from rfl,
      Nat.and_two_pow_sub_one_eq_mod]

/-- The fields above the segment lengths do not reach into them. -/
theorem toNat_metaSeg_packMeta {seg2 seg1 seg0 : UInt32} (res hop inf : UInt32)
    (h2 : seg2.toNat < 64) (h1 : seg1.toNat < 64) (h0 : seg0.toNat < 64) (i : ℕ) :
    (metaSeg (seg2 ||| (seg1 <<< 6) ||| (seg0 <<< 12) ||| (res <<< 18) ||| (hop <<< 24)
      ||| (inf <<< 30)) i).toNat
      = (if i = 0 then seg0 else if i = 1 then seg1 else seg2).toNat := by
  have hlow := toNat_packSegments h2 h1 h0
  set low := seg2 ||| (seg1 <<< 6) ||| (seg0 <<< 12)
  set word := low ||| (res <<< 18) ||| (hop <<< 24) ||| (inf <<< 30)
  have hmod : word.toNat % 2 ^ 18 = low.toNat % 2 ^ 18 :=
    calc word.toNat % 2 ^ 18
        = (low ||| (res <<< 18) ||| (hop <<< 24)).toNat % 2 ^ 18 :=
          toNat_or_mod _ inf 30 (by decide) (by decide)
      _ = (low ||| (res <<< 18)).toNat % 2 ^ 18 := toNat_or_mod _ hop 24 (by decide) (by decide)
      _ = low.toNat % 2 ^ 18 := toNat_or_mod _ res 18 (by decide) (by decide)
  match i with
  | 0 =>
    refine (toNat_field32 word 12 0x3f 6 (by decide) rfl).trans ?_
    show word.toNat / 2 ^ 12 % 2 ^ 6 = seg0.toNat
    omega
  | 1 =>
    refine (toNat_field32 word 6 0x3f 6 (by decide) rfl).trans ?_
    show word.toNat / 2 ^ 6 % 2 ^ 6 = seg1.toNat
    omega
  | n + 2 =>
    show (word &&& 0x3f).toNat = seg2.toNat
    rw [UInt32.toNat_and, show (0x3f : UInt32).toNat = 2 ^ 6 - 1 from rfl,
      Nat.and_two_pow_sub_one_eq_mod]
    omega

theorem metaSeg_lt (pathMeta : UInt32) (i : ℕ) : (metaSeg pathMeta i).toNat < 64 := by
  have hmod : ∀ n, (UInt8.ofNat (n % 2 ^ 6)).toNat < 64 := by
    intro n
    rw [UInt8.toNat_ofNat']
    omega
  rw [toNat_metaSeg]
  match i with
  | 0 => exact hmod _
  | 1 => exact hmod _
  | n + 2 => exact hmod _

theorem toNat_metaNumInf (pathMeta : UInt32) :
    (metaNumInf pathMeta).toNat = (PathMeta.ofWord pathMeta.toNat).segmentCount := by
  have hpos : ∀ i, metaSeg pathMeta i > 0 ↔ (PathMeta.ofWord pathMeta.toNat).segLen i > 0 := by
    intro i
    rw [gt_iff_lt, gt_iff_lt, UInt32.lt_iff_toNat_lt, UInt8.lt_iff_toNat_lt, toNat_metaSeg]
    rfl
  have h0 := hpos 0
  have h1 := hpos 1
  have h2 := hpos 2
  simp only [PathMeta.segLen] at h0 h1 h2
  simp only [metaNumInf, PathMeta.segmentCount, h0, h1, h2]
  split <;> split <;> split <;> rfl

theorem toNat_metaNumHop (pathMeta : UInt32) :
    (metaNumHop pathMeta).toNat = (PathMeta.ofWord pathMeta.toNat).hopFieldCount := by
  have h0 := metaSeg_lt pathMeta 0
  have h1 := metaSeg_lt pathMeta 1
  have h2 := metaSeg_lt pathMeta 2
  have e0 := toNat_metaSeg pathMeta 0
  have e1 := toNat_metaSeg pathMeta 1
  have e2 := toNat_metaSeg pathMeta 2
  simp only [PathMeta.segLen] at e0 e1 e2
  rw [metaNumHop, UInt32.toNat_add, UInt32.toNat_add, PathMeta.hopFieldCount, ← e0, ← e1, ← e2]
  omega

/-- Where a segment of the reversed path stands before. -/
def mirrorSeg (numInf : UInt32) (i : ℕ) : ℕ :=
  if numInf = 2 then if i = 0 then 1 else if i = 1 then 0 else 2
  else if numInf = 3 then if i = 0 then 2 else if i = 1 then 1 else 0
  else if i = 0 then 0 else if i = 1 then 1 else 2

/-- Reversing exchanges segment lengths. -/
theorem metaSeg_reverseMeta (pathMeta : UInt32) (i : ℕ) :
    metaSeg (reverseMeta pathMeta) i = metaSeg pathMeta (mirrorSeg (metaNumInf pathMeta) i) := by
  have h0 := metaSeg_lt pathMeta 0
  have h1 := metaSeg_lt pathMeta 1
  have h2 := metaSeg_lt pathMeta 2
  have hpack : ∀ {seg2 seg1 seg0 : UInt32} (res hop inf : UInt32), seg2.toNat < 64 →
      seg1.toNat < 64 → seg0.toNat < 64 →
      metaSeg (seg2 ||| (seg1 <<< 6) ||| (seg0 <<< 12) ||| (res <<< 18) ||| (hop <<< 24)
        ||| (inf <<< 30)) i = if i = 0 then seg0 else if i = 1 then seg1 else seg2 :=
    fun res hop inf h2 h1 h0 => UInt32.toNat_inj.mp (toNat_metaSeg_packMeta res hop inf h2 h1 h0 i)
  rw [mirrorSeg, reverseMeta]
  by_cases c2 : metaNumInf pathMeta = 2
  · rw [if_pos c2, if_pos c2]
    dsimp only
    rw [hpack _ _ _ h2 h0 h1]
    split_ifs <;> rfl
  · rw [if_neg c2, if_neg c2]
    by_cases c3 : metaNumInf pathMeta = 3
    · rw [if_pos c3, if_pos c3]
      dsimp only
      rw [hpack _ _ _ h0 h1 h2]
      split_ifs <;> rfl
    · rw [if_neg c3, if_neg c3]
      dsimp only
      rw [hpack _ _ _ h2 h1 h0]
      split_ifs <;> rfl

theorem metaNum_reverseMeta (pathMeta : UInt32) :
    metaNumInf (reverseMeta pathMeta) = metaNumInf pathMeta ∧
      metaNumHop (reverseMeta pathMeta) = metaNumHop pathMeta := by
  have hseg := metaSeg_reverseMeta pathMeta
  simp only [mirrorSeg] at hseg
  by_cases c2 : metaNumInf pathMeta = 2
  · simp only [if_pos c2] at hseg
    constructor
    · rw [metaNumInf, hseg, hseg, hseg, metaNumInf]
      exact congrArg (· + _) (UInt32.add_comm _ _)
    · rw [metaNumHop, hseg, hseg, hseg, metaNumHop]
      exact congrArg (· + _) (UInt32.add_comm _ _)
  · by_cases c3 : metaNumInf pathMeta = 3
    · simp only [if_neg c2, if_pos c3] at hseg
      have hswap : ∀ x y z : UInt32, z + y + x = x + y + z := by
        intro x y z
        rw [UInt32.add_comm z y, UInt32.add_comm (y + z), UInt32.add_assoc]
      constructor
      · rw [metaNumInf, hseg, hseg, hseg, metaNumInf]
        exact hswap _ _ _
      · rw [metaNumHop, hseg, hseg, hseg, metaNumHop]
        exact hswap _ _ _
    · simp only [if_neg c2, if_neg c3] at hseg
      constructor
      · rw [metaNumInf, hseg, hseg, hseg]
        rfl
      · rw [metaNumHop, hseg, hseg, hseg]
        rfl

/-- Counting an index from the other end. -/
theorem toNat_mirror32 {num cur : UInt32} (h : cur.toNat < num.toNat) :
    (num - cur - 1).toNat = num.toNat - cur.toNat - 1 := by
  have hlt := num.toNat_lt
  rw [UInt32.toNat_sub, UInt32.toNat_sub, show (1 : UInt32).toNat = 1 from rfl]
  omega

theorem toNat_mirror8 {num : ℕ} {cur : UInt8} (hnum : num ≤ 256) (h : cur.toNat < num) :
    (UInt64.ofNat num - cur.toUInt64 - 1).toUInt8.toNat = num - cur.toNat - 1 := by
  rw [UInt64.toNat_toUInt8, UInt64.toNat_sub, UInt64.toNat_sub, UInt64.toNat_ofNat',
    UInt8.toNat_toUInt64, show (1 : UInt64).toNat = 1 from rfl]
  omega

theorem segmentCount_le (m : PathMeta) : m.segmentCount ≤ 3 := by
  unfold PathMeta.segmentCount
  split <;> split <;> split <;> omega

/-- The two ways to reverse a meta header. -/
theorem toNat_reverseMeta {pathMeta : UInt32} {m : PathMeta}
    (hm : m = PathMeta.ofWord pathMeta.toNat) (hres : pathMeta.toNat / 2 ^ 18 % 2 ^ 6 = 0)
    (hvalid : m.Valid) (hhops : m.hopFieldCount ≤ 64) :
    (reverseMeta pathMeta).toNat = (m.reverse m.segmentCount m.hopFieldCount).word := by
  obtain ⟨-, hinf, hhf⟩ := hvalid
  have hcount := segmentCount_le m
  have h0 := metaSeg_lt pathMeta 0
  have h1 := metaSeg_lt pathMeta 1
  have h2 := metaSeg_lt pathMeta 2
  have e0 : (metaSeg pathMeta 0).toNat = m.seg0.toNat := by rw [hm]; exact toNat_metaSeg pathMeta 0
  have e1 : (metaSeg pathMeta 1).toNat = m.seg1.toNat := by rw [hm]; exact toNat_metaSeg pathMeta 1
  have e2 : (metaSeg pathMeta 2).toNat = m.seg2.toNat := by rw [hm]; exact toNat_metaSeg pathMeta 2
  have enum : (metaNumInf pathMeta).toNat = m.segmentCount := by rw [hm]; exact toNat_metaNumInf _
  have enhop : (metaNumHop pathMeta).toNat = m.hopFieldCount := by rw [hm]; exact toNat_metaNumHop _
  have eres : ((pathMeta >>> 18) &&& 0x3f).toNat = 0 :=
    (toNat_field32 pathMeta 18 0x3f 6 (by decide) rfl).trans hres
  have ehop : ((pathMeta >>> 24) &&& 0x3f).toNat = m.currHf.toNat := by
    rw [hm]
    refine (toNat_field32 pathMeta 24 0x3f 6 (by decide) rfl).trans ?_
    show _ = (UInt8.ofNat (pathMeta.toNat / 2 ^ 24 % 2 ^ 6)).toNat
    rw [UInt8.toNat_ofNat']
    show pathMeta.toNat / 2 ^ 24 % 2 ^ 6 = _
    omega
  have einf : ((pathMeta >>> 30) &&& 0x03).toNat = m.currInf.toNat := by
    have hlt := pathMeta.toNat_lt
    rw [hm]
    refine (toNat_field32 pathMeta 30 0x03 2 (by decide) rfl).trans ?_
    show pathMeta.toNat / 2 ^ 30 % 2 ^ 2 = (UInt8.ofNat (pathMeta.toNat / 2 ^ 30)).toNat
    rw [UInt8.toNat_ofNat']
    omega
  have fhop : (metaNumHop pathMeta - ((pathMeta >>> 24) &&& 0x3f) - 1).toNat
      = m.hopFieldCount - m.currHf.toNat - 1 := by
    rw [toNat_mirror32 (by rw [ehop, enhop]; exact hhf), enhop, ehop]
  have finf : (metaNumInf pathMeta - ((pathMeta >>> 30) &&& 0x03) - 1).toNat
      = m.segmentCount - m.currInf.toNat - 1 := by
    rw [toNat_mirror32 (by rw [einf, enum]; exact hinf), enum, einf]
  have ghop := toNat_mirror8 (by omega : m.hopFieldCount ≤ 256) hhf
  have ginf := toNat_mirror8 (by omega : m.segmentCount ≤ 256) hinf
  have htwo : metaNumInf pathMeta = 2 ↔ m.segmentCount = 2 := by
    rw [← UInt32.toNat_inj, enum]
    rfl
  have hthree : metaNumInf pathMeta = 3 ↔ m.segmentCount = 3 := by
    rw [← UInt32.toNat_inj, enum]
    rfl
  -- the segments are exchanged under the same conditions
  by_cases c2 : m.segmentCount = 2
  · simp only [reverseMeta, if_pos (htwo.mpr c2), PathMeta.reverse, if_pos c2, PathMeta.word]
    rw [toNat_packMeta h2 h0 h1 (by omega) (by omega) (by omega), ghop, ginf, fhop, finf, eres,
      e0, e1, e2]
    omega
  · by_cases c3 : m.segmentCount = 3
    · simp only [reverseMeta, if_neg (mt htwo.mp c2), if_pos (hthree.mpr c3), PathMeta.reverse,
        if_neg c2, if_pos c3, PathMeta.word]
      rw [toNat_packMeta h0 h1 h2 (by omega) (by omega) (by omega), ghop, ginf, fhop, finf, eres,
        e0, e1, e2]
      omega
    · simp only [reverseMeta, if_neg (mt htwo.mp c2), if_neg (mt hthree.mp c3), PathMeta.reverse,
        if_neg c2, if_neg c3, PathMeta.word]
      rw [toNat_packMeta h2 h1 h0 (by omega) (by omega) (by omega), ghop, ginf, fhop, finf, eres,
        e0, e1, e2]
      omega

/-! ### The two reversals agree -/

/-- The reserved bits of the meta header and the reserved byte of every info
field are zero. -/
def ReservedZero (buffer : List UInt8) (numInf : ℕ) : Prop :=
  buffer.getD 1 0 &&& 0xfc = 0 ∧ ∀ i < numInf, buffer.getD (4 + (i * 8 + 1)) 0 = 0

instance (buffer : List UInt8) (numInf : ℕ) : Decidable (ReservedZero buffer numInf) :=
  inferInstanceAs (Decidable (_ ∧ _))

theorem ReservedZero.word {mb rest : List UInt8} {numInf : ℕ} (hmb : mb.length = 4)
    (h : ReservedZero (mb ++ rest) numInf) : beNat mb / 2 ^ 18 % 2 ^ 6 = 0 := by
  match mb, hmb with
  | [b0, b1, b2, b3], _ =>
    have hb1 : b1.toNat &&& 252 = 0 := by
      have h1 : b1 &&& 0xfc = 0 := h.1
      rw [← UInt8.toNat_inj, UInt8.toNat_and] at h1
      exact h1
    have hzero : b1.toNat / 2 ^ 2 % 2 ^ 6 = 0 := by
      rw [← Nat.and_two_pow_sub_one_eq_mod, show 2 ^ 6 - 1 = 252 / 2 ^ 2 from rfl,
        ← Nat.and_div_two_pow, hb1]
    have hlt := b1.toNat_lt
    have h2 := b2.toNat_lt
    have h3 := b3.toNat_lt
    simp only [beNat, List.length_cons, List.length_nil]
    omega

theorem ReservedZero.info {mb rest : List UInt8} {ics : List (List UInt8)} (hmb : mb.length = 4)
    (h8 : ∀ c ∈ ics, c.length = 8) (h : ReservedZero (mb ++ (ics.flatten ++ rest)) ics.length) :
    ∀ c ∈ ics, c.getD 1 0 = 0 := by
  intro c hc
  obtain ⟨i, hi, rfl⟩ := List.getElem_of_mem hc
  have hbyte := h.2 i hi
  obtain ⟨hsplit, hlen⟩ := flatten_split h8 hi
  have hskip : (mb ++ (ics.flatten ++ rest)).getD (4 + (i * 8 + 1)) 0 = ics[i].getD 1 0 := by
    rw [hsplit, ← hmb, ← hlen]
    simp only [List.getD_eq_getElem?_getD, List.append_assoc, List.getElem?_append_right
      (Nat.le_add_right _ _), Nat.add_sub_cancel_left]
    rw [List.getElem?_append_left (by rw [h8 _ (List.getElem_mem hi)]; norm_num)]
  rwa [hskip] at hbyte

theorem length_reversedInfos {ics : List (List UInt8)} (h : ∀ c ∈ ics, c.length = 8) :
    ((if ics.length > 1 then swapAt 0 (ics.length - 1) ics else ics).map
      toggleFirst).flatten.length = ics.length * 8 := by
  have h8 : ∀ c ∈ (if ics.length > 1 then swapAt 0 (ics.length - 1) ics else ics).map toggleFirst,
      c.length = 8 := by
    intro c hc
    obtain ⟨d, hd, rfl⟩ := List.mem_map.mp hc
    rw [toggleFirst, List.length_set]
    split at hd
    · exact h d (mem_swapAt hd)
    · exact h d hd
  rw [length_flatten h8, List.length_map]
  split <;> simp

/-- Records of the sizes in the meta word, reversed in place. -/
theorem reversePathInPlace_records {mb : List UInt8} {ics hcs : List (List UInt8)}
    (hmb : mb.length = 4) (hics8 : ∀ c ∈ ics, c.length = 8) (hhcs12 : ∀ c ∈ hcs, c.length = 12)
    (hnum : (metaNumInf (UInt32.ofNat (beNat mb))).toNat = ics.length)
    (hnhop : (metaNumHop (UInt32.ofNat (beNat mb))).toNat = hcs.length)
    (hpos : 1 ≤ ics.length) (hmin : 2 ≤ hcs.length) (hmax : hcs.length ≤ 64) :
    reversePathInPlace PathType.scion (mb ++ (ics.flatten ++ hcs.flatten)) = (.ok,
      beBytes 4 (reverseMeta (UInt32.ofNat (beNat mb))).toNat
        ++ (((if ics.length > 1 then swapAt 0 (ics.length - 1) ics else ics).map toggleFirst).flatten
        ++ hcs.reverse.flatten)) := by
  have hics' := length_flatten hics8
  have hhcs' := length_flatten hhcs12
  have hslice : slice (mb ++ (ics.flatten ++ hcs.flatten)) 0 4 = mb := by
    rw [slice, List.drop_zero, ← hmb, List.take_left]
  set infos := ((if ics.length > 1 then swapAt 0 (ics.length - 1) ics else ics).map
    toggleFirst).flatten
  have hinfosLen : infos.length = ics.length * 8 := length_reversedInfos hics8
  have hstep1 : modifyFrom 4 (reverseInfoFields ics.length) (mb ++ (ics.flatten ++ hcs.flatten))
      = mb ++ (infos ++ hcs.flatten) := by
    rw [modifyFrom, ← hmb, List.take_left, List.drop_left, reverseInfoFields_flatten hics8]
  have hstep2 : modifyFrom (4 + ics.length * 8) (reverseHopFields hcs.length)
      (mb ++ (infos ++ hcs.flatten)) = mb ++ (infos ++ hcs.reverse.flatten) := by
    rw [← List.append_assoc, modifyFrom,
      show 4 + ics.length * 8 = (mb ++ infos).length by rw [List.length_append, hmb, hinfosLen],
      List.take_left, List.drop_left, reverseHopFields, swapLoop_swapRecords hhcs12 (by omega),
      List.append_assoc]
  have hstep3 : ∀ x : List UInt8, x.length = 4 →
      overwrite (mb ++ (infos ++ hcs.reverse.flatten)) 0 x = x ++ (infos ++ hcs.reverse.flatten) := by
    intro x hx
    rw [overwrite, List.take_zero, List.nil_append, Nat.zero_add, hx, ← hmb, List.drop_left]
  have hlen : (mb ++ (ics.flatten ++ hcs.flatten)).length
      = 4 + ics.length * 8 + hcs.length * 12 := by
    rw [List.length_append, List.length_append, hmb, hics', hhcs', Nat.add_assoc]
  rw [reversePathInPlace, if_neg (by decide), if_neg (by simp), if_neg (by omega)]
  simp only [hslice, hnum, hnhop]
  rw [if_neg (by omega), if_neg (by omega), if_neg (by rw [hlen]; simp), hstep1, hstep2,
    hstep3 _ (length_beBytes _ _)]

/-- The bytes of a path, reversed in place. -/
theorem reversePathInPlace_layout {buffer mb : List UInt8} {ics hcs : List (List UInt8)}
    (h : DecodedScionPath.Layout buffer mb ics hcs) (hmin : 2 ≤ hcs.length)
    (hmax : hcs.length ≤ 64) :
    reversePathInPlace PathType.scion buffer = (.ok,
      beBytes 4 (reverseMeta (UInt32.ofNat (beNat mb))).toNat
        ++ (((if ics.length > 1 then swapAt 0 (ics.length - 1) ics else ics).map toggleFirst).flatten
        ++ hcs.reverse.flatten)) := by
  obtain ⟨rfl, hmb, hics, hhcs, hics8, hhcs12, hvalid⟩ := h
  have hword : (UInt32.ofNat (beNat mb)).toNat = beNat mb := by
    have hlt := beNat_lt mb
    rw [hmb] at hlt
    rw [UInt32.toNat_ofNat', Nat.mod_eq_of_lt (show beNat mb < 2 ^ 32 from hlt)]
  have hpos : 1 ≤ ics.length := by
    rw [hics]
    exact Nat.one_le_of_lt hvalid.2.1
  refine reversePathInPlace_records hmb hics8 hhcs12 ?_ ?_ hpos hmin hmax
  · rw [toNat_metaNumInf, hword, hics]
    rfl
  · rw [toNat_metaNumHop, hword, hhcs]
    rfl

/-- Reversing the fields keeps the sizes of the vectors in step with the meta
header. -/
theorem consistent_reverse {p : DecodedScionPath} (h : p.Consistent) (hne : p.hfs ≠ []) :
    ∃ r, p.reverseInPlace = (.ok, r) ∧ r.Consistent ∧
      r.metaHeader = p.metaHeader.reverse p.metaHeader.segmentCount p.metaHeader.hopFieldCount ∧
      r.ifs = (if p.ifs.length > 1 then swapAt 0 (p.ifs.length - 1) p.ifs else p.ifs).map
        InfoField.toggleConsDir ∧
      r.hfs = p.hfs.reverse := by
  obtain ⟨hifs, hhfs⟩ := h
  have hcounts : ∀ m : PathMeta, ∀ a b,
      (m.reverse a b).segmentCount = m.segmentCount ∧
        (m.reverse a b).hopFieldCount = m.hopFieldCount := by
    intro m a b
    simp only [PathMeta.reverse]
    split
    · simp only [PathMeta.segmentCount, PathMeta.hopFieldCount]
      omega
    · split
      · simp only [PathMeta.segmentCount, PathMeta.hopFieldCount]
        omega
      · exact ⟨rfl, rfl⟩
  rw [DecodedScionPath.reverseInPlace, if_neg (by simpa using hne)]
  refine ⟨_, rfl, ⟨?_, ?_⟩, ?_, rfl, swapLoop_swapAt p.hfs⟩
  · simp only [List.length_map, (hcounts _ _ _).1, ← hifs]
    split <;> simp
  · rw [(hcounts _ _ _).2, swapLoop_swapAt, List.length_reverse, hhfs]
  · simp only [hifs, hhfs]

theorem ofBytes_toggleFirst {c : List UInt8} (h8 : c.length = 8) :
    InfoField.ofBytes (toggleFirst c) = (InfoField.ofBytes c).toggleConsDir := by
  match c, h8 with
  | [b0, b1, b2, b3, b4, b5, b6, b7], _ =>
    simp [InfoField.toggleConsDir, InfoField.ofBytes, toggleFirst, ofNat_beNat_singleton]

theorem bytes_toggleConsDir {c : List UInt8} (h8 : c.length = 8) (hres : c.getD 1 0 = 0) :
    (InfoField.ofBytes c).toggleConsDir.bytes = toggleFirst c := by
  rw [← ofBytes_toggleFirst h8, InfoField.bytes_ofBytes (by rw [toggleFirst, List.length_set, h8])]
  match c, h8 with
  | [b0, b1, b2, b3, b4, b5, b6, b7], _ => exact hres

/-- Reversing the bytes of a path is reversing its decoded fields. -/
theorem reversePathInPlace_eq_encode {source destination : IsdAsn} {buffer : List UInt8}
    {p : DecodedScionPath} (hdec : DecodedScionPath.decode source destination buffer = some p)
    (hres : ReservedZero buffer p.ifs.length) (hmin : 2 ≤ p.hfs.length) (hmax : p.hfs.length ≤ 64) :
    ∃ reversed bytes, p.reverseInPlace = (.ok, reversed) ∧ reversed.encode = some bytes ∧
      reversePathInPlace PathType.scion buffer = (.ok, bytes) := by
  obtain ⟨mb, ics, hcs, hlayout, rfl⟩ := DecodedScionPath.exists_layout hdec
  have hraw := reversePathInPlace_layout hlayout
    (by simpa [DecodedScionPath.ofLayout] using hmin)
    (by simpa [DecodedScionPath.ofLayout] using hmax)
  obtain ⟨rfl, hmb, hics, hhcs, hics8, hhcs12, hvalid⟩ := hlayout
  set p := DecodedScionPath.ofLayout source destination mb ics hcs with hp
  have hifs : p.ifs = ics.map InfoField.ofBytes := rfl
  have hhfs : p.hfs = hcs.map HopField.ofBytes := rfl
  rw [hifs, List.length_map] at hres
  rw [hhfs, List.length_map] at hmin hmax
  have hcons : p.Consistent :=
    ⟨by rw [hifs, List.length_map, hics]; rfl, by rw [hhfs, List.length_map, hhcs]; rfl⟩
  obtain ⟨reversed, hrev, hrcons, hrmeta, hrifs, hrhfs⟩ := consistent_reverse hcons (by
    intro hnil
    rw [hhfs, List.map_eq_nil_iff] at hnil
    rw [hnil] at hmin
    exact absurd hmin (by decide))
  refine ⟨reversed, reversed.bytes, hrev, DecodedScionPath.encode_eq hrcons, ?_⟩
  -- the meta words
  have hlt := beNat_lt mb
  rw [hmb] at hlt
  have hword : (UInt32.ofNat (beNat mb)).toNat = beNat mb := by
    rw [UInt32.toNat_ofNat', Nat.mod_eq_of_lt (show beNat mb < 2 ^ 32 from hlt)]
  have hmeta : (reverseMeta (UInt32.ofNat (beNat mb))).toNat = reversed.metaHeader.word := by
    rw [hrmeta]
    refine toNat_reverseMeta (m := p.metaHeader) (by rw [hword]; rfl)
      (by rw [hword]; exact hres.word hmb) hvalid ?_
    show (PathMeta.ofBytes mb).hopFieldCount ≤ 64
    rw [← hhcs]
    exact hmax
  -- the info fields
  have hinfos : (reversed.ifs.map InfoField.bytes)
      = (if ics.length > 1 then swapAt 0 (ics.length - 1) ics else ics).map toggleFirst := by
    have hswap : (if p.ifs.length > 1 then swapAt 0 (p.ifs.length - 1) p.ifs else p.ifs)
        = (if ics.length > 1 then swapAt 0 (ics.length - 1) ics else ics).map InfoField.ofBytes := by
      rw [hifs, List.length_map]
      split
      · rw [map_swapAt]
      · rfl
    have hmem : ∀ c ∈ (if ics.length > 1 then swapAt 0 (ics.length - 1) ics else ics), c ∈ ics := by
      intro c hc
      split at hc
      · exact mem_swapAt hc
      · exact hc
    rw [hrifs, hswap, List.map_map, List.map_map]
    refine List.map_congr_left fun c hc => ?_
    exact bytes_toggleConsDir (hics8 c (hmem c hc)) (hres.info hmb hics8 c (hmem c hc))
  -- the hop fields
  have hhops : reversed.hfs.map HopField.bytes = hcs.reverse := by
    rw [hrhfs, hhfs, List.map_reverse, List.map_map]
    congr 1
    calc hcs.map (HopField.bytes ∘ HopField.ofBytes) = hcs.map id :=
          List.map_congr_left fun c hc => HopField.bytes_ofBytes (hhcs12 c hc)
      _ = hcs := List.map_id hcs
  rw [hraw, DecodedScionPath.bytes, hinfos, hhops, PathMeta.bytes, hmeta]

/-- A path of one segment with two hops. -/
def twoHopPath : DecodedScionPath where
  source := IsdAsn.make 1 1
  destination := IsdAsn.make 1 2
  metaHeader := ⟨0, 1, 2, 0, 0⟩
  ifs := [⟨1, 0x1234, 0x5f000000⟩]
  hfs := [⟨0, 63, 0, 1, exampleMac⟩, ⟨0, 63, 2, 0, exampleMac'⟩]

theorem reversePathInPlace_eq_encode_twoHopPath :
    ∃ reversed bytes, twoHopPath.reverseInPlace = (.ok, reversed) ∧
      reversed.encode = some bytes ∧
      reversePathInPlace PathType.scion twoHopPath.bytes = (.ok, bytes) :=
  reversePathInPlace_eq_encode (by decide : DecodedScionPath.decode (IsdAsn.make 1 1)
    (IsdAsn.make 1 2) twoHopPath.bytes = some twoHopPath) (by decide) (by decide) (by decide)

end Scion
