/-
The hops of a reversed path (`path/raw_hop_range.hpp`, `path/path.cpp`).

Reversal exchanges the segments and their info fields. The raw iterator decides
with the flag of the segment that begins whether it leaves out a segment change,
and the segment that begins is another one on the way back.

* `Mirrored` — the meta header of the reversed path;
* `orient_reversed` — the hop fields are passed the other way;
* `RawPathContents.hops_reverseInPlace_iff` — the paths whose hops are reversed as
  well.
-/
import Scion.HopMasks
import Scion.PathInvolution

namespace Scion

open BigEndian Codec Neighbours Records

/-! ### The meta header -/

/-- The segments in the opposite order. -/
structure Mirrored (m m' : PathMeta) : Prop where
  segmentCount_eq : m'.segmentCount = m.segmentCount
  hopFieldCount_eq : m'.hopFieldCount = m.hopFieldCount
  segLen_eq : ∀ i < m.segmentCount, m'.segLen i = m.segLen (m.segmentCount - 1 - i)
  valid : m'.Valid

/-- The segments of the path and of the reversed one, by their number. -/
theorem Mirrored.segments {m m' : PathMeta} (h : Mirrored m m') (hvalid : m.Valid) :
    (m.segmentCount = 1 ∧ 0 < m.seg0.toNat ∧ m.seg1.toNat = 0 ∧ m.seg2.toNat = 0 ∧
      m'.seg0.toNat = m.seg0.toNat ∧ m'.seg1.toNat = 0 ∧ m'.seg2.toNat = 0) ∨
    (m.segmentCount = 2 ∧ 0 < m.seg0.toNat ∧ 0 < m.seg1.toNat ∧ m.seg2.toNat = 0 ∧
      m'.seg0.toNat = m.seg1.toNat ∧ m'.seg1.toNat = m.seg0.toNat ∧ m'.seg2.toNat = 0) ∨
    (m.segmentCount = 3 ∧ 0 < m.seg0.toNat ∧ 0 < m.seg1.toNat ∧ 0 < m.seg2.toNat ∧
      m'.seg0.toNat = m.seg2.toNat ∧ m'.seg1.toNat = m.seg1.toNat ∧
      m'.seg2.toNat = m.seg0.toNat) := by
  have hlen : ∀ i < m.segmentCount,
      (m'.segLen i).toNat = (m.segLen (m.segmentCount - 1 - i)).toNat :=
    fun i hi => congrArg UInt8.toNat (h.segLen_eq i hi)
  have hhop := h.hopFieldCount_eq
  rw [PathMeta.hopFieldCount, PathMeta.hopFieldCount] at hhop
  rcases hvalid.segments with ⟨hn, h0, h1, h2⟩ | ⟨hn, h0, h1, h2⟩ | ⟨hn, h0, h1, h2⟩
  · rw [hn] at hlen
    have hfirst : m'.seg0.toNat = m.seg0.toNat := hlen 0 (by norm_num)
    exact .inl ⟨hn, h0, h1, h2, hfirst, by omega, by omega⟩
  · rw [hn] at hlen
    have hfirst : m'.seg0.toNat = m.seg1.toNat := hlen 0 (by norm_num)
    have hsecond : m'.seg1.toNat = m.seg0.toNat := hlen 1 (by norm_num)
    exact .inr (.inl ⟨hn, h0, h1, h2, hfirst, hsecond, by omega⟩)
  · rw [hn] at hlen
    exact .inr (.inr ⟨hn, h0, h1, h2, hlen 0 (by norm_num), hlen 1 (by norm_num),
      hlen 2 (by norm_num)⟩)

/-- The word of a meta header. -/
theorem toNat_metaWord {mb : List UInt8} (hmb : mb.length = 4) :
    (UInt32.ofNat (beNat mb)).toNat = beNat mb := by
  have hlt := beNat_lt mb
  rw [hmb] at hlt
  rw [UInt32.toNat_ofNat', Nat.mod_eq_of_lt (show beNat mb < 2 ^ 32 from hlt)]

theorem mirrorSeg_eq {n : ℕ} {numInf : UInt32} (hn : numInf.toNat = n) (hpos : 1 ≤ n) (hmax : n ≤ 3)
    {i : ℕ} (hi : i < n) : mirrorSeg numInf i = n - 1 - i := by
  have htwo : numInf = 2 ↔ n = 2 := by
    rw [← UInt32.toNat_inj, hn]
    rfl
  have hthree : numInf = 3 ↔ n = 3 := by
    rw [← UInt32.toNat_inj, hn]
    rfl
  simp only [mirrorSeg, htwo, hthree]
  split_ifs <;> omega

theorem segmentsInOrder_iff (m : PathMeta) : m.segmentsInOrder = true ↔
    (0 < m.seg2.toNat → 0 < m.seg1.toNat) ∧ (0 < m.seg1.toNat → 0 < m.seg0.toNat) := by
  have hpos : ∀ x : UInt8, x > 0 ↔ 0 < x.toNat := by
    intro x
    rw [gt_iff_lt, UInt8.lt_iff_toNat_lt]
    rfl
  have hzero : ∀ x : UInt8, x = 0 ↔ x.toNat = 0 := by
    intro x
    rw [← UInt8.toNat_inj]
    rfl
  simp only [PathMeta.segmentsInOrder, Bool.not_eq_true', Bool.or_eq_false_iff,
    Bool.and_eq_false_iff, decide_eq_false_iff_not, beq_eq_false_iff_ne, ne_eq, hpos, hzero]
  omega

/-- The current fields in a meta word. -/
theorem ofWord_current (word : UInt32) :
    (PathMeta.ofWord word.toNat).currInf.toNat = metaCurrInf word ∧
      (PathMeta.ofWord word.toNat).currHf.toNat = metaCurrHop word := by
  have hlt := word.toNat_lt
  constructor
  · show (UInt8.ofNat (word.toNat / 2 ^ 30)).toNat = _
    rw [UInt8.toNat_ofNat', metaCurrInf]
    omega
  · show (UInt8.ofNat (word.toNat / 2 ^ 24 % 2 ^ 6)).toNat = _
    rw [UInt8.toNat_ofNat', metaCurrHop]
    omega

/-- The current fields of the reversed path are in range if those of the path are. -/
theorem current_reverseMeta {word : UInt32} (hinf : metaCurrInf word < (metaNumInf word).toNat)
    (hhop : metaCurrHop word < (metaNumHop word).toNat) (hmax : (metaNumHop word).toNat ≤ 64) :
    metaCurrInf (reverseMeta word) < (metaNumInf word).toNat ∧
      metaCurrHop (reverseMeta word) < (metaNumHop word).toNat := by
  have hfields := toNat_reverseMeta_fields hmax
  rw [if_pos hhop] at hfields
  have h0 := metaSeg_lt (reverseMeta word) 0
  have h1 := metaSeg_lt (reverseMeta word) 1
  have h2 := metaSeg_lt (reverseMeta word) 2
  have hnumInf : (metaNumInf word).toNat ≤ 3 := by
    rw [toNat_metaNumInf]
    exact segmentCount_le _
  rw [metaCurrInf, metaCurrHop, hfields]
  omega

theorem mirrored_reverseMeta {mb : List UInt8} (hmb : mb.length = 4)
    (hvalid : (PathMeta.ofBytes mb).Valid) (hmax : (PathMeta.ofBytes mb).hopFieldCount ≤ 64) :
    Mirrored (PathMeta.ofBytes mb)
      (PathMeta.ofBytes (beBytes 4 (reverseMeta (UInt32.ofNat (beNat mb))).toNat)) := by
  set word := UInt32.ofNat (beNat mb) with hword
  have hm : PathMeta.ofBytes mb = PathMeta.ofWord word.toNat := by
    rw [PathMeta.ofBytes, hword, toNat_metaWord hmb]
  have hm' : PathMeta.ofBytes (beBytes 4 (reverseMeta word).toNat)
      = PathMeta.ofWord (reverseMeta word).toNat := by
    rw [PathMeta.ofBytes, beNat_beBytes,
      Nat.mod_eq_of_lt (show _ < 256 ^ 4 from (reverseMeta word).toNat_lt)]
  rw [hm, hm']
  rw [hm] at hvalid hmax
  obtain ⟨hsameInf, hsameHop⟩ := metaNum_reverseMeta word
  have hinf := toNat_metaNumInf (reverseMeta word)
  have hhop := toNat_metaNumHop (reverseMeta word)
  rw [hsameInf, toNat_metaNumInf word] at hinf
  rw [hsameHop, toNat_metaNumHop word] at hhop
  set m := PathMeta.ofWord word.toNat
  set m' := PathMeta.ofWord (reverseMeta word).toNat
  have hlen : ∀ i < m.segmentCount, m'.segLen i = m.segLen (m.segmentCount - 1 - i) := by
    intro i hi
    have hseg := congrArg UInt32.toNat (metaSeg_reverseMeta word i)
    rw [toNat_metaSeg, toNat_metaSeg, mirrorSeg_eq (toNat_metaNumInf word)
      (Nat.one_le_of_lt hvalid.2.1) (segmentCount_le m) hi] at hseg
    exact UInt8.toNat_inj.mp hseg
  obtain ⟨hcurrInf, hcurrHop⟩ := ofWord_current word
  obtain ⟨hcurrInf', hcurrHop'⟩ := ofWord_current (reverseMeta word)
  obtain ⟨hinfRange, hhopRange⟩ := current_reverseMeta
    (by rw [toNat_metaNumInf, ← hcurrInf]; exact hvalid.2.1)
    (by rw [toNat_metaNumHop, ← hcurrHop]; exact hvalid.2.2) (by rw [toNat_metaNumHop]; exact hmax)
  refine ⟨hinf.symm, hhop.symm, hlen, ?_, ?_, ?_⟩
  · rw [segmentsInOrder_iff]
    rw [PathMeta.hopFieldCount, PathMeta.hopFieldCount] at hhop
    rcases hvalid.segments with ⟨hn, h0, h1, h2⟩ | ⟨hn, h0, h1, h2⟩ | ⟨hn, h0, h1, h2⟩
    · have hfirst : m'.seg0 = m.seg0 := by
        have hzero := hlen 0 (by omega)
        rwa [hn] at hzero
      rw [hfirst] at hhop ⊢
      omega
    · have hfirst : m'.seg0 = m.seg1 := by
        have hzero := hlen 0 (by omega)
        rwa [hn] at hzero
      have hsecond : m'.seg1 = m.seg0 := by
        have hone := hlen 1 (by omega)
        rwa [hn] at hone
      rw [hfirst, hsecond] at hhop ⊢
      omega
    · have hfirst : m'.seg0 = m.seg2 := by
        have hzero := hlen 0 (by omega)
        rwa [hn] at hzero
      have hsecond : m'.seg1 = m.seg1 := by
        have hone := hlen 1 (by omega)
        rwa [hn] at hone
      rw [hfirst, hsecond]
      omega
  · rw [hcurrInf', ← hinf, ← toNat_metaNumInf word]
    exact hinfRange
  · rw [hcurrHop', ← hhop, ← toNat_metaNumHop word]
    exact hhopRange

/-- A segment of the reversed path ends where the segment begins. -/
theorem Mirrored.segmentBegin {m m' : PathMeta} (h : Mirrored m m') (hvalid : m.Valid) {k : ℕ}
    (hk : k ≤ m.segmentCount) :
    m'.segmentBegin (m.segmentCount - k) + m.segmentBegin k = m.hopFieldCount := by
  rcases h.segments hvalid with ⟨hn, h0, h1, h2, e0, e1, e2⟩ | ⟨hn, h0, h1, h2, e0, e1, e2⟩ |
      ⟨hn, h0, h1, h2, e0, e1, e2⟩ <;>
    rw [hn] at hk ⊢ <;> interval_cases k <;>
    simp only [PathMeta.segmentBegin, PathMeta.hopFieldCount, Nat.sub_self, Nat.sub_zero,
      Nat.reduceSub] <;> omega

/-! ### The hop fields -/

namespace InfoField

theorem consDir_toggleConsDir (info : InfoField) : info.toggleConsDir.consDir = !info.consDir := by
  have hbit : ∀ x : UInt8, (x &&& 0x1 != 0) = decide (x.toNat % 2 = 1) := by
    intro x
    rw [bne, Bool.eq_iff_iff, Bool.not_eq_true', beq_eq_false_iff_ne, ne_eq, ← UInt8.toNat_inj,
      UInt8.toNat_and, decide_eq_true_eq, show (0x1 : UInt8).toNat = 1 from rfl,
      show (0 : UInt8).toNat = 0 from rfl, Nat.and_one_is_mod]
    omega
  rw [consDir, consDir, hbit, hbit, toggleConsDir]
  simp only [UInt8.toNat_xor]
  rw [show (1 : UInt8).toNat = 1 from rfl, Nat.xor_mod_two_eq, Bool.eq_iff_iff, Bool.not_eq_true',
    decide_eq_true_eq, decide_eq_false_iff_not]
  omega

theorem peering_toggleConsDir (info : InfoField) : info.toggleConsDir.peering = info.peering := by
  have hand : (info.flags ^^^ 1) &&& 0x2 = info.flags &&& 0x2 := by
    apply UInt8.toNat_inj.mp
    rw [UInt8.toNat_and, UInt8.toNat_and, UInt8.toNat_xor, Nat.and_xor_distrib_right,
      show (1 : UInt8).toNat &&& (0x2 : UInt8).toNat = 0 from rfl, Nat.xor_zero]
  rw [peering, peering, toggleConsDir]
  simp only [hand]

end InfoField

/-- The path whose fields are those of a path in the opposite order. -/
structure Reversed (m m' : PathMeta) (ifs ifs' : List InfoField) (hfs hfs' : List HopField) :
    Prop where
  mirrored : Mirrored m m'
  valid : m.Valid
  lens : ∀ i, (m.segLen i).toNat < 64
  lens' : ∀ i, (m'.segLen i).toNat < 64
  infos : ifs.length = m.segmentCount
  infos_eq : ifs' = ifs.reverse.map InfoField.toggleConsDir
  hops : hfs.length = m.hopFieldCount
  hops_eq : hfs' = hfs.reverse
  hops_le : hfs.length ≤ 64

namespace Reversed

variable {m m' : PathMeta} {ifs ifs' : List InfoField} {hfs hfs' : List HopField}

theorem infos' (h : Reversed m m' ifs ifs' hfs hfs') : ifs'.length = m'.segmentCount := by
  rw [h.infos_eq, List.length_map, List.length_reverse, h.infos, h.mirrored.segmentCount_eq]

/-- Of at most 64 hop fields, the third segment begins before the last. -/
theorem sum_lt (h : Reversed m m' ifs ifs' hfs hfs') {info : InfoField} (hi : ifs[2]? = some info) :
    m.seg0.toNat + m.seg1.toNat < 64 ∧ m'.seg0.toNat + m'.seg1.toNat < 64 := by
  obtain ⟨hlt, -⟩ := List.getElem?_eq_some_iff.mp hi
  have hmax := h.hops_le
  rw [h.infos] at hlt
  rw [h.hops, PathMeta.hopFieldCount] at hmax
  rcases h.mirrored.segments h.valid with ⟨hn, -⟩ | ⟨hn, -⟩ | ⟨hn, h0, h1, h2, e0, e1, e2⟩ <;> omega

theorem sum_lt' (h : Reversed m m' ifs ifs' hfs hfs') {info : InfoField}
    (hi : ifs'[2]? = some info) : m'.seg0.toNat + m'.seg1.toNat < 64 := by
  obtain ⟨hlt, -⟩ := List.getElem?_eq_some_iff.mp hi
  rw [h.infos', h.mirrored.segmentCount_eq, ← h.infos] at hlt
  exact (h.sum_lt (List.getElem?_eq_getElem hlt)).2

/-- The direction of a hop field is the other one on the way back. -/
theorem testMask_reversed (h : Reversed m m' ifs ifs' hfs hfs') {i : ℕ} (hi : i < hfs.length) :
    testMask (hopDirMask m' ifs' 0 0 0) (hfs.length - 1 - i)
      = !testMask (hopDirMask m ifs 0 0 0) i := by
  have hcount : i < m.hopFieldCount := h.hops ▸ hi
  have hmax := h.hops_le
  have hseg := h.valid.segmentOf_lt hcount
  obtain ⟨hlow, hhigh⟩ := (PathMeta.segmentOf_eq_iff hcount).mp rfl
  set seg := m.segmentOf i
  obtain ⟨info, hinfo, hdir⟩ := testMask_hopDirMask h.valid h.infos h.lens
    (fun info hthird _ => (h.sum_lt hthird).1) hlow hhigh (by omega)
  have hbegin := h.mirrored.segmentBegin h.valid (k := seg) hseg.le
  have hend := h.mirrored.segmentBegin h.valid (k := seg + 1) hseg
  have hlow' : m'.segmentBegin (m.segmentCount - 1 - seg) ≤ hfs.length - 1 - i := by
    rw [show m.segmentCount - 1 - seg = m.segmentCount - (seg + 1) by omega, h.hops]
    omega
  have hhigh' : hfs.length - 1 - i < m'.segmentBegin (m.segmentCount - 1 - seg + 1) := by
    rw [show m.segmentCount - 1 - seg + 1 = m.segmentCount - seg by omega, h.hops]
    omega
  obtain ⟨info', hinfo', hdir'⟩ := testMask_hopDirMask h.mirrored.valid h.infos' h.lens'
    (fun info hthird _ => h.sum_lt' hthird) hlow' hhigh' (by omega)
  have htoggle : info' = info.toggleConsDir := by
    rw [h.infos_eq, List.getElem?_map, List.getElem?_reverse (by rw [h.infos]; omega), h.infos,
      show m.segmentCount - 1 - (m.segmentCount - 1 - seg) = seg by omega, hinfo] at hinfo'
    exact (Option.some.inj hinfo').symm
  rw [hdir', hdir, htoggle, InfoField.consDir_toggleConsDir]

/-- The hop fields are passed in the opposite order and direction. -/
theorem orient_reversed (h : Reversed m m' ifs ifs' hfs hfs') :
    orient (hopDirMask m' ifs' 0 0 0) 0 hfs'
      = ((orient (hopDirMask m ifs 0 0 0) 0 hfs).map Prod.swap).reverse := by
  refine List.ext_getElem ?_ fun j hj hj' => ?_
  · rw [h.hops_eq]
    simp [orient]
  · have hlen : j < hfs.length := by
      rw [h.hops_eq] at hj
      simpa [orient] using hj
    have hmask := h.testMask_reversed (i := hfs.length - 1 - j) (by omega)
    rw [show hfs.length - 1 - (hfs.length - 1 - j) = j by omega] at hmask
    simp only [orient, h.hops_eq, List.getElem_map, List.getElem_zipIdx, List.getElem_reverse,
      List.length_map, List.length_zipIdx, zero_add, takeIfId, hmask]
    cases testMask (hopDirMask m ifs 0 0 0) (hfs.length - 1 - j) <;> rfl

/-- The hops in the opposite order and direction are joints of the way back. -/
theorem hops_reversed (h : Reversed m m' ifs ifs' hfs hfs') {first first' : Hop}
    {others others' : List Hop} (hids : orient (hopDirMask m ifs 0 0 0) 0 hfs = first :: others)
    (hids' : orient (hopDirMask m' ifs' 0 0 0) 0 hfs' = first' :: others') (keep : ℕ → Bool) :
    ((keepJoints combine keep 0 first others).map Prod.swap).reverse
      = keepJoints combine (fun j => keep (others.length - 1 - j)) 0 first' others' := by
  have hturn : ∀ a b : Hop, combine b.swap a.swap = (combine a b).swap := fun _ _ => rfl
  have horient := h.orient_reversed
  rw [hids, hids'] at horient
  have hlen : (joints combine (first :: others)).length = others.length := by
    rw [length_joints, List.length_cons, Nat.add_sub_cancel]
  rw [keepJoints_eq_pick, keepJoints_eq_pick, horient, joints_reverse combine hturn, ← pick_map]
  symm
  refine pick_reverse fun i hi => ?_
  rw [List.length_map, hlen] at hi ⊢
  congr 1
  omega

end Reversed

/-! ### Segment changes -/

/-- The info field of a segment. -/
def infoOf (ifs : List InfoField) (seg : ℕ) : InfoField := ifs.getD seg InfoField.default

theorem getElem?_infoOf {ifs : List InfoField} {n : ℕ} (h : ifs.length = n) :
    ∀ seg < n, ifs[seg]? = some (infoOf ifs seg) := by
  intro seg hseg
  rw [infoOf, List.getD_eq_getElem?_getD, List.getElem?_eq_getElem (by omega), Option.getD_some]

namespace DecodedScionPath

/-- The interfaces of a hop field in path direction. -/
def interfaces (p : DecodedScionPath) (i : ℕ) : Hop :=
  let hf := p.hfs.getD i HopField.default
  if (infoOf p.ifs (p.metaHeader.segmentOf i)).consDir then (hf.consIngress, hf.consEgress)
  else (hf.consEgress, hf.consIngress)

/-- From the last hop field of the first segment to the first one of the third, all
hop fields are connected through the same pair of interfaces. -/
def SameLinks (p : DecodedScionPath) : Prop :=
  ∀ i, p.metaHeader.seg0.toNat ≤ i + 1 →
    i + 1 < p.metaHeader.seg0.toNat + p.metaHeader.seg1.toNat →
    combine (p.interfaces i) (p.interfaces (i + 1))
      = combine (p.interfaces (i + 1)) (p.interfaces (i + 2))

/-- The segment changes are left out on the way and on the way back: those of two
segments on both ways or on none. Of three segments, both are kept or left out
alike, or one is left out on the way and the other on the way back, where all
links are the same from the one to the other. -/
def MirrorsHops (p : DecodedScionPath) : Prop :=
  match p.ifs with
  | [i0, i1] =>
    (i1.peering = false ∧ p.metaHeader.seg0 ≠ 1) ↔ (i0.peering = false ∧ p.metaHeader.seg1 ≠ 1)
  | [i0, i1, i2] =>
    let first := i1.peering = false ∧ p.metaHeader.seg0 ≠ 1
    let second := i2.peering = false ∧ ¬ (first ∧ p.metaHeader.seg1 = 1)
    let firstBack := i1.peering = false ∧ p.metaHeader.seg2 ≠ 1
    let secondBack := i0.peering = false ∧ ¬ (firstBack ∧ p.metaHeader.seg1 = 1)
    (firstBack ↔ second) ∧ (secondBack ↔ first) ∨
      ¬ (firstBack ↔ secondBack) ∧ (firstBack ↔ first) ∧ (secondBack ↔ second) ∧ p.SameLinks
  | _ => True

end DecodedScionPath

namespace Reversed

variable {m m' : PathMeta} {ifs ifs' : List InfoField} {hfs hfs' : List HopField}

/-- The joints the raw walk leaves out. -/
theorem skipped_joint (h : Reversed m m' ifs ifs' hfs hfs') {j : ℕ} (hj : j + 1 < hfs.length) :
    skipped (testMask (rawSegChange m ifs 0 0 0)) (j + 1) = true ↔
      (LeavesFirst m (infoOf ifs) ∧ j + 1 = m.seg0.toNat) ∨
        (LeavesSecond m (infoOf ifs) ∧ j + 1 = m.seg0.toNat + m.seg1.toNat) := by
  have hmax := h.hops_le
  rw [skipped_rawSegChange_iff h.valid h.infos (getElem?_infoOf h.infos) h.lens
    (fun info hthird hfar => absurd hfar.1 (not_le.mpr (h.sum_lt hthird).1)) (by omega)]
  simp

/-- The joints the raw walk leaves out on the way back. -/
theorem skipped_joint' (h : Reversed m m' ifs ifs' hfs hfs') {j : ℕ} (hj : j + 1 < hfs.length) :
    skipped (testMask (rawSegChange m' ifs' 0 0 0)) (j + 1) = true ↔
      (LeavesFirst m' (infoOf ifs') ∧ j + 1 = m'.seg0.toNat) ∨
        (LeavesSecond m' (infoOf ifs') ∧ j + 1 = m'.seg0.toNat + m'.seg1.toNat) := by
  have hmax := h.hops_le
  rw [skipped_rawSegChange_iff h.mirrored.valid h.infos' (getElem?_infoOf h.infos') h.lens'
    (fun info hthird hfar => absurd hfar.1 (not_le.mpr (h.sum_lt' hthird))) (by omega)]
  simp

theorem ne_one_iff (x : UInt8) : x.toNat ≠ 1 ↔ x ≠ 1 := by
  rw [ne_eq, ne_eq, ← UInt8.toNat_inj]
  rfl

section

variable (h : Reversed m m' ifs ifs' hfs hfs') {first : Hop} {others : List Hop}
  (hlen : others.length + 1 = hfs.length)

include h hlen

/-- Whether a joint is kept on the way and on the way back. -/
theorem keep_reversed {j : ℕ} (hj : j < others.length) :
    ((!skipped (testMask (rawSegChange m' ifs' 0 0 0)) (j + 1)) = false ↔
      (LeavesFirst m' (infoOf ifs') ∧ j + 1 = m'.seg0.toNat) ∨
        (LeavesSecond m' (infoOf ifs') ∧ j + 1 = m'.seg0.toNat + m'.seg1.toNat)) ∧
    ((!skipped (testMask (rawSegChange m ifs 0 0 0)) (others.length - 1 - j + 1)) = false ↔
      (LeavesSecond m (infoOf ifs) ∧ j + 1 + m.seg0.toNat + m.seg1.toNat = hfs.length) ∨
        (LeavesFirst m (infoOf ifs) ∧ j + 1 + m.seg0.toNat = hfs.length)) := by
  rw [Bool.not_eq_false', Bool.not_eq_false', h.skipped_joint' (by omega),
    h.skipped_joint (by omega)]
  refine ⟨Iff.rfl, ?_⟩
  rw [or_comm]
  exact or_congr (and_congr_right fun _ => by omega) (and_congr_right fun _ => by omega)

/-- A path of one segment keeps all joints. -/
theorem keepJoints_one (hn : m.segmentCount = 1) :
    keepJoints combine (fun j => !skipped (testMask (rawSegChange m' ifs' 0 0 0)) (j + 1)) 0
        first others
      = keepJoints combine
        (fun j => !skipped (testMask (rawSegChange m ifs 0 0 0)) (others.length - 1 - j + 1)) 0
        first others := by
  have hnone : ¬ LeavesFirst m (infoOf ifs) ∧ ¬ LeavesSecond m (infoOf ifs) ∧
      ¬ LeavesFirst m' (infoOf ifs') ∧ ¬ LeavesSecond m' (infoOf ifs') := by
    rw [LeavesSecond, LeavesSecond, LeavesFirst, LeavesFirst, h.mirrored.segmentCount_eq, hn]
    simp
  rw [keepJoints_eq_iff combine 0 first others]
  · intro j _ hj
    obtain ⟨hway, hback⟩ := h.keep_reversed hlen (j := j) (by omega)
    rw [Bool.eq_iff_iff, ← not_iff_not, Bool.not_eq_true, Bool.not_eq_true, hway, hback]
    simp [hnone]
  · intro j _ hj _
    obtain ⟨-, hback⟩ := h.keep_reversed hlen (j := j) (by omega)
    rw [← Bool.not_eq_false, hback]
    simp [hnone]

/-- A path of two segments may leave out one joint. -/
theorem keepJoints_two (hn : m.segmentCount = 2) :
    keepJoints combine (fun j => !skipped (testMask (rawSegChange m' ifs' 0 0 0)) (j + 1)) 0
        first others
      = keepJoints combine
        (fun j => !skipped (testMask (rawSegChange m ifs 0 0 0)) (others.length - 1 - j + 1)) 0
        first others ↔ (LeavesFirst m (infoOf ifs) ↔ LeavesFirst m' (infoOf ifs')) := by
  have hnone : ¬ LeavesSecond m (infoOf ifs) ∧ ¬ LeavesSecond m' (infoOf ifs') := by
    rw [LeavesSecond, LeavesSecond, h.mirrored.segmentCount_eq, hn]
    simp
  have hops := h.hops
  rw [PathMeta.hopFieldCount] at hops
  obtain ⟨h0, h1, h2, e0, e1, e2⟩ : 0 < m.seg0.toNat ∧ 0 < m.seg1.toNat ∧ m.seg2.toNat = 0 ∧
      m'.seg0.toNat = m.seg1.toNat ∧ m'.seg1.toNat = m.seg0.toNat ∧ m'.seg2.toNat = 0 := by
    rcases h.mirrored.segments h.valid with ⟨hc, -⟩ | ⟨-, hs⟩ | ⟨hc, -⟩
    · omega
    · exact hs
    · omega
  -- the joint in front of the last segment of the way back
  have hway : ∀ j < others.length,
      (skipped (testMask (rawSegChange m' ifs' 0 0 0)) (j + 1) = true ↔
        LeavesFirst m' (infoOf ifs') ∧ j + 1 = m.seg1.toNat) := by
    intro j hj
    rw [h.skipped_joint' (by omega), e0]
    simp [hnone]
  have hback : ∀ j < others.length,
      (skipped (testMask (rawSegChange m ifs 0 0 0)) (others.length - 1 - j + 1) = true ↔
        LeavesFirst m (infoOf ifs) ∧ j + 1 = m.seg1.toNat) := by
    intro j hj
    have hkeep := (h.keep_reversed hlen hj).2
    rw [Bool.not_eq_false'] at hkeep
    rw [hkeep]
    simp only [hnone, false_and, false_or]
    exact and_congr_right fun _ => by omega
  rw [keepJoints_not_eq_iff combine
    (fun j => skipped (testMask (rawSegChange m' ifs' 0 0 0)) (j + 1))
    (fun j => skipped (testMask (rawSegChange m ifs 0 0 0)) (others.length - 1 - j + 1))]
  · constructor
    · intro hall
      have hjoint := hall (m.seg1.toNat - 1) (by omega)
      rw [hway _ (by omega), hback _ (by omega), Nat.sub_add_cancel h1, and_iff_left rfl,
        and_iff_left rfl] at hjoint
      exact hjoint.symm
    · intro hiff j hj
      rw [hway j hj, hback j hj, hiff]
  · by_cases hleft : LeavesFirst m (infoOf ifs)
    · exact .inl fun j hj hskip => (hback j hj).mpr ⟨hleft, ((hway j hj).mp hskip).2⟩
    · exact .inr fun j hj hskip => absurd ((hback j hj).mp hskip).1 hleft

/-- A path of three segments may leave out two joints. -/
theorem keepJoints_three (hn : m.segmentCount = 3) :
    keepJoints combine (fun j => !skipped (testMask (rawSegChange m' ifs' 0 0 0)) (j + 1)) 0
        first others
      = keepJoints combine
        (fun j => !skipped (testMask (rawSegChange m ifs 0 0 0)) (others.length - 1 - j + 1)) 0
        first others ↔
      (LeavesFirst m' (infoOf ifs') ↔ LeavesSecond m (infoOf ifs)) ∧
          (LeavesSecond m' (infoOf ifs') ↔ LeavesFirst m (infoOf ifs)) ∨
        ¬ (LeavesFirst m' (infoOf ifs') ↔ LeavesSecond m' (infoOf ifs')) ∧
          (LeavesFirst m' (infoOf ifs') ↔ LeavesFirst m (infoOf ifs)) ∧
          (LeavesSecond m' (infoOf ifs') ↔ LeavesSecond m (infoOf ifs)) ∧
          ∀ j, m.seg2.toNat ≤ j + 1 → j + 1 < m.seg2.toNat + m.seg1.toNat →
            (joints combine (first :: others))[j]? = (joints combine (first :: others))[j + 1]? := by
  have hops := h.hops
  rw [PathMeta.hopFieldCount] at hops
  obtain ⟨h0, h1, h2, e0, e1, e2⟩ : 0 < m.seg0.toNat ∧ 0 < m.seg1.toNat ∧ 0 < m.seg2.toNat ∧
      m'.seg0.toNat = m.seg2.toNat ∧ m'.seg1.toNat = m.seg1.toNat ∧
      m'.seg2.toNat = m.seg0.toNat := by
    rcases h.mirrored.segments h.valid with ⟨hc, -⟩ | ⟨hc, -⟩ | ⟨-, hs⟩
    · omega
    · omega
    · exact hs
  classical
  have hway : ∀ j < others.length, (!skipped (testMask (rawSegChange m' ifs' 0 0 0)) (j + 1)) = false ↔
      (decide (LeavesFirst m' (infoOf ifs')) = true ∧ j = m.seg2.toNat - 1) ∨
        (decide (LeavesSecond m' (infoOf ifs')) = true ∧ j = m.seg2.toNat + m.seg1.toNat - 1) := by
    intro j hj
    rw [(h.keep_reversed hlen hj).1, e0, e1, decide_eq_true_eq, decide_eq_true_eq]
    exact or_congr (and_congr_right fun _ => by omega) (and_congr_right fun _ => by omega)
  have hback : ∀ j < others.length,
      (!skipped (testMask (rawSegChange m ifs 0 0 0)) (others.length - 1 - j + 1)) = false ↔
      (decide (LeavesSecond m (infoOf ifs)) = true ∧ j = m.seg2.toNat - 1) ∨
        (decide (LeavesFirst m (infoOf ifs)) = true ∧ j = m.seg2.toNat + m.seg1.toNat - 1) := by
    intro j hj
    rw [(h.keep_reversed hlen hj).2, decide_eq_true_eq, decide_eq_true_eq]
    exact or_congr (and_congr_right fun _ => by omega) (and_congr_right fun _ => by omega)
  have hbetween : (∀ j, m.seg2.toNat - 1 ≤ j → j < m.seg2.toNat + m.seg1.toNat - 1 →
        (joints combine (first :: others))[j]? = (joints combine (first :: others))[j + 1]?) ↔
      ∀ j, m.seg2.toNat ≤ j + 1 → j + 1 < m.seg2.toNat + m.seg1.toNat →
        (joints combine (first :: others))[j]? = (joints combine (first :: others))[j + 1]? :=
    forall_congr' fun j => imp_congr (by omega) (imp_congr (by omega) Iff.rfl)
  rw [keepJoints_two_iff combine first others (by omega) (by omega) hway hback,
    eraseIdx_eq_iff (by omega), hbetween]
  simp only [ne_eq, decide_eq_decide]

end

end Reversed

section

variable {p : DecodedScionPath} {m' : PathMeta} {ifs' : List InfoField} {hfs' : List HopField}
  (h : Reversed p.metaHeader m' p.ifs ifs' p.hfs hfs')

include h

theorem getElem?_orient {i : ℕ} (hi : i < p.hfs.length) :
    (orient (hopDirMask p.metaHeader p.ifs 0 0 0) 0 p.hfs)[i]? = some (p.interfaces i) := by
  have hmax := h.hops_le
  have hcount : i < p.metaHeader.hopFieldCount := h.hops ▸ hi
  obtain ⟨hlow, hhigh⟩ := (PathMeta.segmentOf_eq_iff hcount).mp rfl
  obtain ⟨info, hinfo, hdir⟩ := testMask_hopDirMask h.valid h.infos h.lens
    (fun info hthird _ => (h.sum_lt hthird).1) hlow hhigh (by omega)
  rw [getElem?_infoOf h.infos _ (h.valid.segmentOf_lt hcount), Option.some.injEq] at hinfo
  have hlen : i < (orient (hopDirMask p.metaHeader p.ifs 0 0 0) 0 p.hfs).length := by
    simpa [orient] using hi
  rw [List.getElem?_eq_getElem hlen, DecodedScionPath.interfaces, hinfo, ← hdir,
    List.getD_eq_getElem?_getD, List.getElem?_eq_getElem hi]
  simp only [orient, List.getElem_map, List.getElem_zipIdx, zero_add, takeIfId, Option.getD_some]

/-- The joints of the way back are the links of the path. -/
theorem getElem?_joints {first' : Hop} {others' : List Hop}
    (hids' : orient (hopDirMask m' ifs' 0 0 0) 0 hfs' = first' :: others') {i j : ℕ}
    (hij : i + j + 2 = p.hfs.length) :
    (joints combine (first' :: others'))[j]?
      = some (combine (p.interfaces i) (p.interfaces (i + 1))).swap := by
  have hturn : ∀ a b : Hop, combine b.swap a.swap = (combine a b).swap := fun _ _ => rfl
  have hlen : (orient (hopDirMask p.metaHeader p.ifs 0 0 0) 0 p.hfs).length = p.hfs.length := by
    simp [orient]
  have hjoints : ((joints combine (orient (hopDirMask p.metaHeader p.ifs 0 0 0) 0 p.hfs)).map
      Prod.swap).length = p.hfs.length - 1 := by
    rw [List.length_map, length_joints, hlen]
  rw [← hids', h.orient_reversed, joints_reverse combine hturn,
    List.getElem?_reverse (by rw [hjoints]; omega), hjoints,
    show p.hfs.length - 1 - 1 - j = i by omega, List.getElem?_map, joints,
    List.getElem?_zipWith, List.getElem?_tail, getElem?_orient h (by omega),
    getElem?_orient h (by omega)]
  rfl

theorem joints_sameLinks (hn : p.metaHeader.segmentCount = 3) {first' : Hop} {others' : List Hop}
    (hids' : orient (hopDirMask m' ifs' 0 0 0) 0 hfs' = first' :: others') :
    (∀ j, p.metaHeader.seg2.toNat ≤ j + 1 →
        j + 1 < p.metaHeader.seg2.toNat + p.metaHeader.seg1.toNat →
        (joints combine (first' :: others'))[j]? = (joints combine (first' :: others'))[j + 1]?) ↔
      p.SameLinks := by
  have hops := h.hops
  rw [PathMeta.hopFieldCount] at hops
  obtain ⟨h0, h1, h2⟩ : 0 < p.metaHeader.seg0.toNat ∧ 0 < p.metaHeader.seg1.toNat ∧
      0 < p.metaHeader.seg2.toNat := by
    rcases h.valid.segments with ⟨hc, -⟩ | ⟨hc, -⟩ | ⟨-, hs⟩
    · omega
    · omega
    · exact hs
  have hswap : ∀ a b : Hop, a.swap = b.swap ↔ a = b := fun a b => Prod.swap_inj
  constructor
  · intro hall i hlow hhigh
    have hlink := hall (p.hfs.length - (i + 3)) (by omega) (by omega)
    rw [getElem?_joints h hids' (i := i + 1) (by omega), getElem?_joints h hids' (i := i) (by omega),
      Option.some.injEq, hswap] at hlink
    exact hlink.symm
  · intro hall j hlow hhigh
    have hlink := hall (p.hfs.length - (j + 3)) (by omega) (by omega)
    rw [getElem?_joints h hids' (i := p.hfs.length - (j + 3) + 1) (by omega),
      getElem?_joints h hids' (i := p.hfs.length - (j + 3)) (by omega), Option.some.injEq, hswap]
    exact hlink.symm

/-- The hops of the way back are those of the way exactly when the condition holds. -/
theorem keepJoints_mirrors_iff {first first' : Hop} {others others' : List Hop}
    (hids : orient (hopDirMask p.metaHeader p.ifs 0 0 0) 0 p.hfs = first :: others)
    (hids' : orient (hopDirMask m' ifs' 0 0 0) 0 hfs' = first' :: others') :
    keepJoints combine (fun j => !skipped (testMask (rawSegChange m' ifs' 0 0 0)) (j + 1)) 0
        first' others'
      = ((keepJoints combine
          (fun j => !skipped (testMask (rawSegChange p.metaHeader p.ifs 0 0 0)) (j + 1)) 0
          first others).map Prod.swap).reverse ↔ p.MirrorsHops := by
  have hlen : others.length + 1 = p.hfs.length := by
    have hwhole := congrArg List.length hids
    rwa [orient, List.length_map, List.length_zipIdx, List.length_cons, eq_comm] at hwhole
  have hlen' : others'.length = others.length := by
    have hwhole := congrArg List.length hids'
    rw [orient, List.length_map, List.length_zipIdx, List.length_cons, h.hops_eq,
      List.length_reverse] at hwhole
    omega
  rw [h.hops_reversed hids hids']
  rw [← hlen'] at hlen ⊢
  have hback := h.infos_eq
  rcases h.mirrored.segments h.valid with ⟨hn, -⟩ | ⟨hn, h0, h1, h2, e0, e1, e2⟩ |
      ⟨hn, h0, h1, h2, e0, e1, e2⟩
  · refine iff_of_true (h.keepJoints_one hlen hn) ?_
    obtain ⟨i0, hi⟩ := List.length_eq_one_iff.mp (h.infos.trans hn)
    rw [DecodedScionPath.MirrorsHops, hi]
    trivial
  · obtain ⟨i0, i1, hi⟩ := List.length_eq_two.mp (h.infos.trans hn)
    rw [h.keepJoints_two hlen hn, DecodedScionPath.MirrorsHops, hback, hi, LeavesFirst, LeavesFirst,
      h.mirrored.segmentCount_eq, hn, e0, Reversed.ne_one_iff, Reversed.ne_one_iff]
    simp [infoOf, InfoField.peering_toggleConsDir]
  · obtain ⟨i0, i1, i2, hi⟩ := List.length_eq_three.mp (h.infos.trans hn)
    rw [h.keepJoints_three hlen hn, joints_sameLinks h hn hids', DecodedScionPath.MirrorsHops, hback,
      hi, LeavesSecond, LeavesSecond, LeavesFirst, LeavesFirst, h.mirrored.segmentCount_eq, hn, e0,
      e1, Reversed.ne_one_iff, Reversed.ne_one_iff]
    have hone : p.metaHeader.seg1.toNat = 1 ↔ p.metaHeader.seg1 = 1 :=
      not_iff_not.mp (Reversed.ne_one_iff _)
    simp [infoOf, InfoField.peering_toggleConsDir, hone]

end

/-! ### The reversed path -/

/-- The parts of the reversed bytes. -/
theorem exists_reversed {buffer mb : List UInt8} {ics hcs : List (List UInt8)}
    (h : DecodedScionPath.Layout buffer mb ics hcs) (hmin : 2 ≤ hcs.length)
    (hmax : hcs.length ≤ 64) :
    ∃ mb', reversePathInPlace PathType.scion buffer
        = (.ok, mb' ++ ((ics.reverse.map toggleFirst).flatten ++ hcs.reverse.flatten)) ∧
      DecodedScionPath.Layout (mb' ++ ((ics.reverse.map toggleFirst).flatten ++ hcs.reverse.flatten))
        mb' (ics.reverse.map toggleFirst) hcs.reverse ∧
      Reversed (PathMeta.ofBytes mb) (PathMeta.ofBytes mb') (ics.map InfoField.ofBytes)
        ((ics.reverse.map toggleFirst).map InfoField.ofBytes) (hcs.map HopField.ofBytes)
        (hcs.reverse.map HopField.ofBytes) := by
  have hmirror := mirrored_reverseMeta h.length_meta h.valid (h.length_hops ▸ hmax)
  have hsegments : ics.length ≤ 3 := by
    rw [h.length_infos]
    exact segmentCount_le _
  refine ⟨_, ?_, ⟨rfl, length_beBytes _ _, ?_, ?_, ?_, ?_, hmirror.valid⟩,
    ⟨hmirror, h.valid, segLen_ofBytes_lt _, segLen_ofBytes_lt _, ?_, ?_, ?_, ?_, ?_⟩⟩
  · rw [reversePathInPlace_layout h hmin hmax, swapEnds_eq_reverse hsegments]
  · rw [List.length_map, List.length_reverse, hmirror.segmentCount_eq, h.length_infos]
  · rw [List.length_reverse, hmirror.hopFieldCount_eq, h.length_hops]
  · intro c hc
    obtain ⟨c, hmem, rfl⟩ := List.mem_map.mp hc
    rw [toggleFirst, List.length_set, h.info_size c (List.mem_reverse.mp hmem)]
  · intro c hc
    exact h.hop_size c (List.mem_reverse.mp hc)
  · rw [List.length_map, h.length_infos]
  · rw [List.map_map, ← List.map_reverse, List.map_map]
    exact List.map_congr_left fun c hc =>
      ofBytes_toggleFirst (h.info_size c (List.mem_reverse.mp hc))
  · rw [List.length_map, h.length_hops]
  · rw [List.map_reverse]
  · rwa [List.length_map]

/-- The hops of a reversed path are those of the path in the opposite order and
direction exactly when the condition holds. -/
theorem rawHops_reversed_iff {source destination : IsdAsn} {buffer : List UInt8}
    {p : DecodedScionPath} (hdec : DecodedScionPath.decode source destination buffer = some p)
    (hmin : 2 ≤ p.hfs.length) (hmax : p.hfs.length ≤ 64) :
    rawHops PathType.scion (reversePathInPlace PathType.scion buffer).2
      = ((rawHops PathType.scion buffer).map Prod.swap).reverse ↔ p.MirrorsHops := by
  obtain ⟨mb, ics, hcs, hlayout, rfl⟩ := DecodedScionPath.exists_layout hdec
  rw [DecodedScionPath.ofLayout, List.length_map] at hmin hmax
  obtain ⟨mb', hreverse, hlayout', hreversed⟩ := exists_reversed hlayout hmin hmax
  obtain ⟨first, others, hids, -, hzero⟩ := exists_orient hlayout
  obtain ⟨first', others', hids', -, hzero'⟩ := exists_orient hlayout'
  have hback := rawHops_layout hlayout'
    (rfl : _ = DecodedScionPath.ofLayout destination source mb' (ics.reverse.map toggleFirst)
      hcs.reverse) first' others' hids' hzero'
  rw [hreverse, rawHops_layout hlayout rfl first others hids hzero, hback]
  exact keepJoints_mirrors_iff (p := DecodedScionPath.ofLayout source destination mb ics hcs)
    hreversed hids hids'

theorem length_reversed {source destination : IsdAsn} {buffer : List UInt8}
    {p : DecodedScionPath} (hdec : DecodedScionPath.decode source destination buffer = some p)
    (hmin : 2 ≤ p.hfs.length) (hmax : p.hfs.length ≤ 64) :
    (reversePathInPlace PathType.scion buffer).2.length = buffer.length := by
  obtain ⟨mb, ics, hcs, hlayout, rfl⟩ := DecodedScionPath.exists_layout hdec
  rw [DecodedScionPath.ofLayout, List.length_map] at hmin hmax
  obtain ⟨mb', hreverse, hlayout', -⟩ := exists_reversed hlayout hmin hmax
  rw [hreverse, hlayout.buffer_eq]
  simp only [List.length_append, length_flatten hlayout.info_size, length_flatten hlayout.hop_size,
    length_flatten hlayout'.info_size, length_flatten hlayout'.hop_size, List.length_map,
    List.length_reverse, hlayout.length_meta, hlayout'.length_meta]

namespace RawPathContents

/-- Reversal in place keeps to the bytes of the path. -/
theorem encoded_reverseInPlace {s : RawPathContents}
    (hlength : (reversePathInPlace s.type s.encoded).2.length = s.encoded.length) :
    s.reverseInPlace.2.type = s.type ∧
      s.reverseInPlace.2.encoded = (reversePathInPlace s.type s.encoded).2 := by
  have htake : ((reversePathInPlace s.type s.encoded).2 ++ s.path.drop s.size).take s.size
      = (reversePathInPlace s.type s.encoded).2 := by
    have hsize : s.encoded.length = min s.size s.path.length := List.length_take
    rw [List.take_append, List.take_of_length_le (by omega)]
    refine List.append_right_eq_self.mpr (List.length_eq_zero_iff.mp ?_)
    rw [List.length_take, List.length_drop]
    omega
  by_cases herr : (reversePathInPlace s.type s.encoded).1 = .ok
  · have hreversed : s.reverseInPlace.2 = ⟨s.destination, s.source, s.type, s.size,
        (reversePathInPlace s.type s.encoded).2 ++ s.path.drop s.size⟩ := by
      simp [reverseInPlace, herr]
    rw [hreversed]
    exact ⟨rfl, htake⟩
  · have hreversed : s.reverseInPlace.2 = ⟨s.source, s.destination, s.type, s.size,
        (reversePathInPlace s.type s.encoded).2 ++ s.path.drop s.size⟩ := by
      simp [reverseInPlace, herr]
    rw [hreversed]
    exact ⟨rfl, htake⟩

/-- The range over the hops of a path is turned around with the path exactly when
the raw iterator leaves out the segment changes alike on both ways. -/
theorem hops_reverseInPlace_iff {s : RawPathContents} (htype : s.type = PathType.scion)
    {p : DecodedScionPath}
    (hdec : DecodedScionPath.decode s.source s.destination s.encoded = some p)
    (hmin : 2 ≤ p.hfs.length) (hmax : p.hfs.length ≤ 64) :
    s.reverseInPlace.2.hops = (s.hops.map Prod.swap).reverse ↔ p.MirrorsHops := by
  obtain ⟨htype', hencoded⟩ := encoded_reverseInPlace (s := s) (by
    rw [htype]
    exact length_reversed hdec hmin hmax)
  rw [hops, hops, htype', hencoded, htype]
  exact rawHops_reversed_iff hdec hmin hmax

/-- The contents of a path of two segments. -/
def ofTwoSegments (flags0 flags1 : UInt8) : RawPathContents :=
  ⟨IsdAsn.make 1 1, IsdAsn.make 1 2, PathType.scion, (twoSegmentPath flags0 flags1).bytes.length,
    overwrite (List.replicate maxSize 0) 0 (twoSegmentPath flags0 flags1).bytes⟩

theorem encoded_ofTwoSegments (flags0 flags1 : UInt8) :
    (ofTwoSegments flags0 flags1).encoded = (twoSegmentPath flags0 flags1).bytes := by
  have hassign : RawPathContents.empty.assign (IsdAsn.make 1 1) (IsdAsn.make 1 2) PathType.scion
      (twoSegmentPath flags0 flags1).bytes = .ok (ofTwoSegments flags0 flags1) :=
    if_neg (by rw [not_lt]; exact Nat.le_of_ble_eq_true rfl)
  exact (encoded_of_assign hassign).1

/-- Both segments of the path have the peering flag. -/
theorem hops_reverseInPlace_iff_peering :
    (ofTwoSegments 2 3).reverseInPlace.2.hops
        = ((ofTwoSegments 2 3).hops.map Prod.swap).reverse ↔ (twoSegmentPath 2 3).MirrorsHops :=
  hops_reverseInPlace_iff rfl (by
    rw [encoded_ofTwoSegments]
    decide) (by decide) (by decide)

/-- With the peering flag on the second segment only, the hop at the segment change
is left out on the way back. -/
theorem not_forall_hops_reverseInPlace :
    ¬ ∀ (s : RawPathContents) (p : DecodedScionPath), s.type = PathType.scion →
      DecodedScionPath.decode s.source s.destination s.encoded = some p →
      2 ≤ p.hfs.length → p.hfs.length ≤ 64 →
      s.reverseInPlace.2.hops = (s.hops.map Prod.swap).reverse := by
  intro h
  have hdec : DecodedScionPath.decode (IsdAsn.make 1 1) (IsdAsn.make 1 2)
      (twoSegmentPath 0 2).bytes = some (twoSegmentPath 0 2) := by decide
  have hscion : (ofTwoSegments 0 2).type = PathType.scion := rfl
  have hencoded := encoded_ofTwoSegments 0 2
  have hmirror := h (ofTwoSegments 0 2) (twoSegmentPath 0 2) rfl (hencoded ▸ hdec) (by decide)
    (by decide)
  obtain ⟨htype, hreversed⟩ := encoded_reverseInPlace (s := ofTwoSegments 0 2) (by
    rw [hencoded, hscion]
    exact length_reversed hdec (by decide) (by decide))
  rw [hops, hops, htype, hreversed, hencoded, hscion,
    rawHops_reversed_iff hdec (by decide) (by decide)] at hmirror
  simp only [DecodedScionPath.MirrorsHops, twoSegmentPath] at hmirror
  exact absurd hmirror (by decide)

end RawPathContents

end Scion
