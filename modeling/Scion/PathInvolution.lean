/-
Reversing a raw path twice (`path/path.cpp`).

The current hop field is counted from the other end in 32 bits and put back into
its six bits without a mask. If it was out of range, the borrow reaches the current
info field.

* `toNat_reverseMeta_fields` — the fields of the reversed meta word;
* `reverseMeta_reverseMeta_iff` — the meta words that are restored;
* `reversePathInPlace_involutive_iff` — the paths that are restored.
-/
import Scion.RawPathEquality

namespace Scion

open BigEndian Codec Records

/-! ### The meta word -/

/-- The current hop field in the meta word. -/
def metaCurrHop (pathMeta : UInt32) : ℕ := pathMeta.toNat / 2 ^ 24 % 2 ^ 6

/-- The current info field in the meta word. -/
def metaCurrInf (pathMeta : UInt32) : ℕ := pathMeta.toNat / 2 ^ 30

/-- The union of two numbers, one of them with bits below the other's. -/
theorem add_two_pow_or (n : ℕ) {a : ℕ} (ha : a < 2 ^ n) (b c : ℕ) :
    (2 ^ n * b + a) ||| (2 ^ n * c) = 2 ^ n * (b ||| c) + a := by
  have hor : 2 ^ n * b ||| 2 ^ n * c = 2 ^ n * (b ||| c) := by
    rw [mul_comm, mul_comm _ c, mul_comm _ (b ||| c), ← Nat.shiftLeft_eq, ← Nat.shiftLeft_eq,
      ← Nat.shiftLeft_eq, Nat.shiftLeft_or_distrib]
  rw [Nat.two_pow_add_eq_or_of_lt ha, Nat.two_pow_add_eq_or_of_lt ha, Nat.or_assoc,
    Nat.or_comm a, ← Nat.or_assoc, hor]

theorem three_or {n : ℕ} (h : n < 4) : 3 ||| n = 3 := by
  have hall : ∀ n < 4, 3 ||| n = 3 := by decide
  exact hall n h

/-- Two fields put above the low 24 bits, the first reaching into the second. -/
theorem toNat_or_overflow (low hop inf : UInt32) (hlow : low.toNat < 2 ^ 24) :
    (low ||| (hop <<< 24) ||| (inf <<< 30)).toNat
      = low.toNat + 2 ^ 24 * (hop.toNat % 2 ^ 6) + 2 ^ 30 * ((hop.toNat / 2 ^ 6 % 4) ||| (inf.toNat % 4)) := by
  have hhop : (hop <<< 24).toNat = 2 ^ 24 * (2 ^ 6 * (hop.toNat / 2 ^ 6 % 4) + hop.toNat % 2 ^ 6) := by
    rw [UInt32.toNat_shiftLeft, show (24 : UInt32).toNat % 32 = 24 from rfl, Nat.shiftLeft_eq]
    omega
  have hinf : (inf <<< 30).toNat = 2 ^ 24 * (2 ^ 6 * (inf.toNat % 4)) := by
    rw [UInt32.toNat_shiftLeft, show (30 : UInt32).toNat % 32 = 30 from rfl, Nat.shiftLeft_eq]
    omega
  have hsix := add_two_pow_or 6 (Nat.mod_lt hop.toNat (Nat.two_pow_pos 6)) (hop.toNat / 2 ^ 6 % 4)
    (inf.toNat % 4)
  have hhigh := add_two_pow_or 24 (Nat.two_pow_pos 24) (2 ^ 6 * (hop.toNat / 2 ^ 6 % 4) + hop.toNat % 2 ^ 6)
    (2 ^ 6 * (inf.toNat % 4))
  rw [hsix, add_zero, add_zero] at hhigh
  rw [UInt32.toNat_or, UInt32.toNat_or, hhop, hinf, Nat.or_assoc, hhigh, Nat.or_comm,
    ← Nat.two_pow_add_eq_or_of_lt hlow]
  omega

theorem exists_packMeta (pathMeta : UInt32) :
    ∃ seg2 seg1 seg0 : UInt32, seg2.toNat < 64 ∧ seg1.toNat < 64 ∧ seg0.toNat < 64 ∧
      reverseMeta pathMeta = (seg2 ||| (seg1 <<< 6) ||| (seg0 <<< 12)
        ||| (((pathMeta >>> 18) &&& 0x3f) <<< 18)
        ||| ((metaNumHop pathMeta - ((pathMeta >>> 24) &&& 0x3f) - 1) <<< 24)
        ||| ((metaNumInf pathMeta - ((pathMeta >>> 30) &&& 0x03) - 1) <<< 30)) := by
  have h0 := metaSeg_lt pathMeta 0
  have h1 := metaSeg_lt pathMeta 1
  have h2 := metaSeg_lt pathMeta 2
  rw [reverseMeta]
  by_cases c2 : metaNumInf pathMeta = 2
  · rw [if_pos c2]
    exact ⟨_, _, _, h2, h0, h1, rfl⟩
  · rw [if_neg c2]
    by_cases c3 : metaNumInf pathMeta = 3
    · rw [if_pos c3]
      exact ⟨_, _, _, h0, h1, h2, rfl⟩
    · rw [if_neg c3]
      exact ⟨_, _, _, h2, h1, h0, rfl⟩

/-- The fields of the reversed meta word. A current hop field out of range sets both
bits of the current info field. -/
theorem toNat_reverseMeta_fields {pathMeta : UInt32} (hmax : (metaNumHop pathMeta).toNat ≤ 64) :
    (reverseMeta pathMeta).toNat = (metaSeg (reverseMeta pathMeta) 2).toNat
      + (metaSeg (reverseMeta pathMeta) 1).toNat * 2 ^ 6
      + (metaSeg (reverseMeta pathMeta) 0).toNat * 2 ^ 12
      + pathMeta.toNat / 2 ^ 18 % 2 ^ 6 * 2 ^ 18
      + 2 ^ 24 * (((metaNumHop pathMeta).toNat + 63 - metaCurrHop pathMeta) % 2 ^ 6)
      + 2 ^ 30 * (if metaCurrHop pathMeta < (metaNumHop pathMeta).toNat
          then ((metaNumInf pathMeta).toNat + 3 - metaCurrInf pathMeta) % 4 else 3) := by
  obtain ⟨seg2, seg1, seg0, h2, h1, h0, hshape⟩ := exists_packMeta pathMeta
  have hseg := toNat_metaSeg_packMeta ((pathMeta >>> 18) &&& 0x3f)
    (metaNumHop pathMeta - ((pathMeta >>> 24) &&& 0x3f) - 1)
    (metaNumInf pathMeta - ((pathMeta >>> 30) &&& 0x03) - 1) h2 h1 h0
  rw [← hshape] at hseg
  rw [hseg 2, hseg 1, hseg 0]
  have eres : ((pathMeta >>> 18) &&& 0x3f).toNat = pathMeta.toNat / 2 ^ 18 % 2 ^ 6 :=
    toNat_field32 pathMeta 18 0x3f 6 (by decide) rfl
  have ehop : ((pathMeta >>> 24) &&& 0x3f).toNat = metaCurrHop pathMeta :=
    toNat_field32 pathMeta 24 0x3f 6 (by decide) rfl
  have einf : ((pathMeta >>> 30) &&& 0x03).toNat = metaCurrInf pathMeta := by
    have hlt := pathMeta.toNat_lt
    have hfield := toNat_field32 pathMeta 30 0x03 2 (by decide) rfl
    rw [hfield, metaCurrInf]
    exact Nat.mod_eq_of_lt (by show pathMeta.toNat / 2 ^ 30 < 2 ^ 2; omega)
  have hcurr : metaCurrHop pathMeta < 64 := Nat.mod_lt _ (by norm_num)
  have hcurrInf : metaCurrInf pathMeta < 4 := by
    have hlt := pathMeta.toNat_lt
    rw [metaCurrInf]
    omega
  have hnumInf : (metaNumInf pathMeta).toNat ≤ 3 := by
    rw [toNat_metaNumInf]
    exact segmentCount_le _
  -- the two fields at the top
  have fhop : (metaNumHop pathMeta - ((pathMeta >>> 24) &&& 0x3f) - 1).toNat
      = (2 ^ 32 + (metaNumHop pathMeta).toNat - metaCurrHop pathMeta - 1) % 2 ^ 32 := by
    rw [UInt32.toNat_sub, UInt32.toNat_sub, ehop, show (1 : UInt32).toNat = 1 from rfl]
    omega
  have finf : (metaNumInf pathMeta - ((pathMeta >>> 30) &&& 0x03) - 1).toNat
      = (2 ^ 32 + (metaNumInf pathMeta).toNat - metaCurrInf pathMeta - 1) % 2 ^ 32 := by
    rw [UInt32.toNat_sub, UInt32.toNat_sub, einf, show (1 : UInt32).toNat = 1 from rfl]
    omega
  have elow : (seg2 ||| (seg1 <<< 6) ||| (seg0 <<< 12)
      ||| (((pathMeta >>> 18) &&& 0x3f) <<< 18)).toNat
      = seg2.toNat + seg1.toNat * 2 ^ 6 + seg0.toNat * 2 ^ 12
        + pathMeta.toNat / 2 ^ 18 % 2 ^ 6 * 2 ^ 18 := by
    have hsegs := toNat_packSegments h2 h1 h0
    rw [← hsegs, ← eres]
    exact toNat_or_high _ _ 18 (by decide) (by rw [hsegs]; show _ < 2 ^ 18; omega)
      (by rw [eres]; show _ * 2 ^ 18 < 2 ^ 32; omega)
  have htop := toNat_or_overflow _ (metaNumHop pathMeta - ((pathMeta >>> 24) &&& 0x3f) - 1)
    (metaNumInf pathMeta - ((pathMeta >>> 30) &&& 0x03) - 1) (by rw [elow]; omega)
  rw [← hshape, elow, fhop, finf] at htop
  have hhop : (2 ^ 32 + (metaNumHop pathMeta).toNat - metaCurrHop pathMeta - 1) % 2 ^ 32 % 2 ^ 6
      = ((metaNumHop pathMeta).toNat + 63 - metaCurrHop pathMeta) % 2 ^ 6 := by omega
  have hinf : (2 ^ 32 + (metaNumHop pathMeta).toNat - metaCurrHop pathMeta - 1) % 2 ^ 32 / 2 ^ 6 % 4
        ||| (2 ^ 32 + (metaNumInf pathMeta).toNat - metaCurrInf pathMeta - 1) % 2 ^ 32 % 4
      = if metaCurrHop pathMeta < (metaNumHop pathMeta).toNat
          then ((metaNumInf pathMeta).toNat + 3 - metaCurrInf pathMeta) % 4 else 3 := by
    by_cases hin : metaCurrHop pathMeta < (metaNumHop pathMeta).toNat
    · rw [if_pos hin, show (2 ^ 32 + (metaNumHop pathMeta).toNat - metaCurrHop pathMeta - 1) % 2 ^ 32
        / 2 ^ 6 % 4 = 0 by omega, Nat.zero_or]
      omega
    · rw [if_neg hin, show (2 ^ 32 + (metaNumHop pathMeta).toNat - metaCurrHop pathMeta - 1) % 2 ^ 32
        / 2 ^ 6 % 4 = 3 by omega]
      exact three_or (Nat.mod_lt _ (by norm_num))
  rw [htop, hhop, hinf]
  rfl

/-- The fields of a meta word. -/
theorem toNat_eq_fields (pathMeta : UInt32) :
    pathMeta.toNat = (metaSeg pathMeta 2).toNat + (metaSeg pathMeta 1).toNat * 2 ^ 6
      + (metaSeg pathMeta 0).toNat * 2 ^ 12 + pathMeta.toNat / 2 ^ 18 % 2 ^ 6 * 2 ^ 18
      + 2 ^ 24 * metaCurrHop pathMeta + 2 ^ 30 * metaCurrInf pathMeta := by
  have h0 : (metaSeg pathMeta 0).toNat = pathMeta.toNat / 2 ^ 12 % 2 ^ 6 :=
    toNat_field32 pathMeta 12 0x3f 6 (by decide) rfl
  have h1 : (metaSeg pathMeta 1).toNat = pathMeta.toNat / 2 ^ 6 % 2 ^ 6 :=
    toNat_field32 pathMeta 6 0x3f 6 (by decide) rfl
  have h2 : (metaSeg pathMeta 2).toNat = pathMeta.toNat % 2 ^ 6 := by
    show (pathMeta &&& 0x3f).toNat = _
    rw [UInt32.toNat_and, show (0x3f : UInt32).toNat = 2 ^ 6 - 1 from rfl,
      Nat.and_two_pow_sub_one_eq_mod]
  rw [h0, h1, h2, metaCurrHop, metaCurrInf]
  omega

/-- The top fields of a word are those of any way to write it. -/
theorem top_fields_unique {low res res' hop hop' inf inf' : ℕ} (hres : res < 2 ^ 6)
    (hres' : res' < 2 ^ 6) (hhop : hop < 2 ^ 6) (hhop' : hop' < 2 ^ 6)
    (h : low + res * 2 ^ 18 + 2 ^ 24 * hop + 2 ^ 30 * inf
      = low + res' * 2 ^ 18 + 2 ^ 24 * hop' + 2 ^ 30 * inf') :
    res = res' ∧ hop = hop' ∧ inf = inf' := by
  omega

theorem mirrorSeg_mirrorSeg (numInf : UInt32) {i : ℕ} (hi : i ≤ 2) :
    mirrorSeg numInf (mirrorSeg numInf i) = i := by
  rw [mirrorSeg, mirrorSeg]
  interval_cases i <;> split_ifs <;> simp_all

/-- The meta word is restored unless its current hop field is out of range and its
current info field is not 3. -/
theorem reverseMeta_reverseMeta_iff {pathMeta : UInt32} (hmin : 2 ≤ (metaNumHop pathMeta).toNat)
    (hmax : (metaNumHop pathMeta).toNat ≤ 64) :
    reverseMeta (reverseMeta pathMeta) = pathMeta ↔
      metaCurrHop pathMeta < (metaNumHop pathMeta).toNat ∨ metaCurrInf pathMeta = 3 := by
  obtain ⟨hinf, hhop⟩ := metaNum_reverseMeta pathMeta
  have hseg : ∀ i ≤ 2, metaSeg (reverseMeta (reverseMeta pathMeta)) i = metaSeg pathMeta i := by
    intro i hi
    rw [metaSeg_reverseMeta, metaSeg_reverseMeta, hinf, mirrorSeg_mirrorSeg _ hi]
  have hfirst := toNat_reverseMeta_fields hmax
  have hsecond := @toNat_reverseMeta_fields (reverseMeta pathMeta) (by rw [hhop]; exact hmax)
  rw [hseg 2 (by norm_num), hseg 1 (by norm_num), hseg 0 (by norm_num), hhop, hinf] at hsecond
  have hfields := toNat_eq_fields pathMeta
  have hlow : ∀ word : UInt32, (metaSeg word 2).toNat + (metaSeg word 1).toNat * 2 ^ 6
      + (metaSeg word 0).toNat * 2 ^ 12 < 2 ^ 18 := by
    intro word
    have h0 := metaSeg_lt word 0
    have h1 := metaSeg_lt word 1
    have h2 := metaSeg_lt word 2
    omega
  have hcurr : ∀ word : UInt32, metaCurrHop word < 2 ^ 6 := fun word => Nat.mod_lt _ (by norm_num)
  have hsix : ∀ n, n % 2 ^ 6 < 2 ^ 6 := fun n => Nat.mod_lt n (by norm_num)
  have hcurrInf : metaCurrInf pathMeta < 4 := by
    have hlt := pathMeta.toNat_lt
    rw [metaCurrInf]
    omega
  have hnumInf : (metaNumInf pathMeta).toNat ≤ 3 := by
    rw [toNat_metaNumInf]
    exact segmentCount_le _
  obtain ⟨hres', hhop', hinf'⟩ := top_fields_unique (hsix _) (hsix _) (hcurr _) (hsix _)
    ((toNat_eq_fields (reverseMeta pathMeta)).symm.trans hfirst)
  rw [hres', hhop', hinf'] at hsecond
  have hh := hcurr pathMeta
  have hl := hlow pathMeta
  have hr := hsix (pathMeta.toNat / 2 ^ 18)
  rw [← UInt32.toNat_inj, hsecond]
  conv_lhs => rw [hfields]
  clear hfirst hsecond hfields hres' hhop' hinf'
  generalize (metaSeg pathMeta 2).toNat + (metaSeg pathMeta 1).toNat * 2 ^ 6
    + (metaSeg pathMeta 0).toNat * 2 ^ 12 = low at hl ⊢
  generalize pathMeta.toNat / 2 ^ 18 % 2 ^ 6 = res at hr ⊢
  generalize metaCurrHop pathMeta = cur at hh ⊢
  generalize metaCurrInf pathMeta = curInf at hcurrInf ⊢
  by_cases hin : cur < (metaNumHop pathMeta).toNat
  · rw [if_pos hin, if_pos (by omega)]
    exact iff_of_true (by omega) (Or.inl hin)
  · rw [if_neg hin, if_neg (by omega)]
    constructor
    · intro h
      right
      omega
    · rintro (hlt | rfl)
      · exact absurd hlt hin
      · omega

/-! ### The path -/

/-- Paths that are reversed: the size is that of the fields in the meta header. -/
structure Reversible (path : List UInt8) : Prop where
  meta_le : 4 ≤ path.length
  numInf : 1 ≤ (metaNumInf (UInt32.ofNat (beNat (path.take 4)))).toNat
  numHop_ge : 2 ≤ (metaNumHop (UInt32.ofNat (beNat (path.take 4)))).toNat
  numHop_le : (metaNumHop (UInt32.ofNat (beNat (path.take 4)))).toNat ≤ 64
  length_eq : path.length = 4 + (metaNumInf (UInt32.ofNat (beNat (path.take 4)))).toNat * 8
    + (metaNumHop (UInt32.ofNat (beNat (path.take 4)))).toNat * 12

theorem toggleFirst_toggleFirst {c : List UInt8} (h : c.length = 8) :
    toggleFirst (toggleFirst c) = c := by
  cases c with
  | nil => cases h
  | cons b rest =>
    show (b ^^^ 1 ^^^ 1) :: rest = b :: rest
    rw [UInt8.xor_assoc, UInt8.xor_self, UInt8.xor_zero]

/-- Exchanging the ends of at most three info fields reverses them. -/
theorem swapEnds_eq_reverse {α : Type} {xs : List α} (h : xs.length ≤ 3) :
    (if xs.length > 1 then swapAt 0 (xs.length - 1) xs else xs) = xs.reverse := by
  match xs, h with
  | [], _ => rfl
  | [a], _ => rfl
  | [a, b], _ => rfl
  | [a, b, c], _ => rfl

/-- Info fields change their order and direction, and change back. -/
theorem toggle_reverse_twice {ics : List (List UInt8)} (h : ∀ c ∈ ics, c.length = 8) :
    ((ics.reverse.map toggleFirst).reverse.map toggleFirst) = ics := by
  rw [List.map_reverse, List.map_reverse, List.map_reverse, List.reverse_reverse, List.map_map]
  calc ics.map (toggleFirst ∘ toggleFirst) = ics.map id :=
        List.map_congr_left fun c hc => toggleFirst_toggleFirst (h c hc)
    _ = ics := List.map_id ics

theorem reversible_iff {path : List UInt8} :
    (reversePathInPlace PathType.scion path).1 = .ok ↔ Reversible path := by
  constructor
  · intro h
    obtain ⟨hmeta, hinf, hhop, hlen⟩ := RawPathContents.reversePathInPlace_ok h
    exact ⟨hmeta, hinf, hhop.1, hhop.2, hlen⟩
  · rintro ⟨hmeta, hinf, hmin, hmax, hlen⟩
    have hslice : slice path 0 4 = path.take 4 := by rw [slice, List.drop_zero]
    rw [reversePathInPlace, if_neg (by decide), if_neg (by decide), if_neg (by omega)]
    simp only [hslice]
    rw [if_neg (by omega), if_neg (by omega), if_neg (by omega)]

/-- The second reversal restores the fields, and the meta word where it is restored. -/
theorem reversePathInPlace_twice {path : List UInt8} (h : Reversible path) :
    reversePathInPlace PathType.scion (reversePathInPlace PathType.scion path).2 =
      (.ok, beBytes 4 (reverseMeta (reverseMeta (UInt32.ofNat (beNat (path.take 4))))).toNat
        ++ path.drop 4) := by
  obtain ⟨hmeta, hinf, hmin, hmax, hlen⟩ := h
  set word := UInt32.ofNat (beNat (path.take 4)) with hword
  have hnumInf : (metaNumInf word).toNat ≤ 3 := by
    rw [toNat_metaNumInf]
    exact segmentCount_le _
  obtain ⟨ics, hics, hics8, hinfos⟩ := exists_records (w := 8) (metaNumInf word).toNat
    ((path.drop 4).take ((metaNumInf word).toNat * 8))
    (by rw [List.length_take, List.length_drop]; omega)
  obtain ⟨hcs, hhcs, hhcs12, hhops⟩ := exists_records (w := 12) (metaNumHop word).toNat
    (path.drop (4 + (metaNumInf word).toNat * 8))
    (by rw [List.length_drop]; omega)
  have hdrop : path.drop 4 = ics.flatten ++ hcs.flatten := by
    rw [hhops, hinfos, ← List.drop_drop, List.take_append_drop]
  have hmb : (path.take 4).length = 4 := by
    rw [List.length_take]
    omega
  have honce := reversePathInPlace_records hmb hics8 hhcs12 hics.symm hhcs.symm (by omega) (by omega)
    (by omega)
  rw [← hdrop, List.take_append_drop, swapEnds_eq_reverse (by omega)] at honce
  -- the records of the reversed path
  have hnum : UInt32.ofNat (beNat (beBytes 4 (reverseMeta word).toNat)) = reverseMeta word := by
    rw [beNat_beBytes, Nat.mod_eq_of_lt (show _ < 256 ^ 4 from (reverseMeta word).toNat_lt),
      UInt32.ofNat_toNat]
  obtain ⟨hinfSame, hhopSame⟩ := metaNum_reverseMeta word
  have hics8' : ∀ c ∈ ics.reverse.map toggleFirst, c.length = 8 := by
    intro c hc
    obtain ⟨d, hd, rfl⟩ := List.mem_map.mp hc
    rw [toggleFirst, List.length_set]
    exact hics8 d (List.mem_reverse.mp hd)
  have hhcs12' : ∀ c ∈ hcs.reverse, c.length = 12 := fun c hc => hhcs12 c (List.mem_reverse.mp hc)
  have hicsLen : (ics.reverse.map toggleFirst).length = ics.length := by simp
  have htwice := reversePathInPlace_records (length_beBytes 4 (reverseMeta word).toNat) hics8'
    hhcs12' (by rw [hnum, hinfSame, hicsLen, hics]) (by rw [hnum, hhopSame, List.length_reverse, hhcs])
    (by rw [hicsLen]; omega) (by rw [List.length_reverse]; omega) (by rw [List.length_reverse]; omega)
  rw [swapEnds_eq_reverse (by rw [hicsLen]; omega), toggle_reverse_twice hics8,
    List.reverse_reverse, hnum, ← hdrop] at htwice
  rw [honce]
  exact htwice

/-- The path is rejected and unchanged, or it is reversed and a second reversal
restores it. -/
def ReversesBack (type : PathType) (path : List UInt8) : Prop :=
  (reversePathInPlace type path).1 ≠ .ok ∧ (reversePathInPlace type path).2 = path ∨
    (reversePathInPlace type path).1 = .ok ∧
      reversePathInPlace type (reversePathInPlace type path).2 = (.ok, path)

/-- Reversal is undone by a second one unless the current hop field is out of range and
the current info field is not 3. -/
theorem reversesBack_iff (type : PathType) (path : List UInt8) :
    ReversesBack type path ↔ (type = PathType.scion → Reversible path →
      metaCurrHop (UInt32.ofNat (beNat (path.take 4)))
        < (metaNumHop (UInt32.ofNat (beNat (path.take 4)))).toNat ∨
      metaCurrInf (UInt32.ofNat (beNat (path.take 4))) = 3) := by
  by_cases hok : (reversePathInPlace type path).1 = .ok
  · by_cases htype : type = PathType.scion
    · subst htype
      have hrev := reversible_iff.mp hok
      rw [ReversesBack, reversePathInPlace_twice hrev, ← reverseMeta_reverseMeta_iff hrev.numHop_ge
        hrev.numHop_le]
      have htake : (path.take 4).length = 4 := by
        rw [List.length_take]
        exact min_eq_left hrev.meta_le
      have hword : (UInt32.ofNat (beNat (path.take 4))).toNat = beNat (path.take 4) := by
        have hlt := beNat_lt (path.take 4)
        rw [htake] at hlt
        rw [UInt32.toNat_ofNat', Nat.mod_eq_of_lt (show _ < 2 ^ 32 from hlt)]
      have hbytes : beBytes 4 (UInt32.ofNat (beNat (path.take 4))).toNat = path.take 4 := by
        have hroundtrip := beBytes_beNat (path.take 4)
        rw [htake] at hroundtrip
        rw [hword]
        exact hroundtrip
      constructor
      · rintro (⟨herror, -⟩ | ⟨-, hback⟩) - -
        · exact absurd hok herror
        · have hhead := congrArg (fun r => r.2.take 4) hback
          dsimp only at hhead
          rw [List.take_left' (length_beBytes _ _)] at hhead
          have hnat := congrArg beNat hhead
          rw [beNat_beBytes, Nat.mod_eq_of_lt (show _ < 256 ^ 4 from UInt32.toNat_lt _)] at hnat
          exact UInt32.toNat_inj.mp (hnat.trans hword.symm)
      · intro h
        refine Or.inr ⟨hok, ?_⟩
        rw [h rfl hrev, hbytes, List.take_append_drop]
    · have hempty : type = PathType.empty := by
        by_contra hempty
        rw [reversePathInPlace, if_neg hempty, if_pos htype] at hok
        cases hok
      subst hempty
      exact iff_of_true (Or.inr ⟨rfl, rfl⟩) fun h => absurd h htype
  · refine iff_of_true (Or.inl ⟨hok, reversePathInPlace_error hok⟩) ?_
    rintro rfl hrev
    exact absurd (reversible_iff.mpr hrev) hok

/-- Two hop fields, of which the third is the current one. -/
def beyondLastHop : List UInt8 := [0x02, 0x00, 0x20, 0x00] ++ List.replicate 32 0

theorem reversible_beyondLastHop : Reversible beyondLastHop := by
  constructor <;> decide

theorem not_forall_reversesBack :
    ¬ ∀ (type : PathType) (path : List UInt8), ReversesBack type path := by
  intro h
  rcases h PathType.scion beyondLastHop with ⟨herror, -⟩ | ⟨-, hback⟩
  · exact herror (reversible_iff.mpr reversible_beyondLastHop)
  · rw [reversePathInPlace_twice reversible_beyondLastHop] at hback
    exact absurd hback (by decide)

end Scion
