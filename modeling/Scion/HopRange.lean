/-
Iterating over the hops of a path (`path/raw_hop_range.hpp`,
`path/decoded_scion.hpp`).

A hop is the pair of interfaces between two neighbouring hop fields, in path
direction. `RawHopIter` parses the hop fields one by one and takes two steps
where a segment begins; `DecodedScionPath.hops` joins all neighbours and filters
out the joints where a segment ends.

* `rawHops_layout`, `hops_eq` — both as joints of the same oriented hop fields;
* `rawHops_eq_hops_iff` — the segment lengths and peering flags for which the
  two agree.
-/
import Mathlib.Data.Nat.Bitwise
import Scion.Neighbours
import Scion.ScionPath

namespace Scion

open BigEndian Codec Neighbours

/-- Egress and ingress interface between two hop fields. -/
abbrev Hop := UInt16 × UInt16

/-- `mask & (1ull << i)`. -/
def testMask (mask : UInt64) (i : ℕ) : Bool := mask &&& ((1 : UInt64) <<< UInt64.ofNat i) != 0

/-- The mask with the bits of a segment of `len` hop fields from `sum` on. -/
def setSegment (hopDir : UInt64) (len sum : ℕ) : UInt64 :=
  hopDir ||| ((~~~((~~~(0 : UInt64)) <<< UInt64.ofNat len)) <<< UInt64.ofNat sum)

/-- First and second interface of a hop field in path direction. -/
def takeIfId (hopDir : UInt64) (index : ℕ) (hf : HopField) : Hop :=
  if testMask hopDir index then (hf.consIngress, hf.consEgress)
  else (hf.consEgress, hf.consIngress)

/-- Leaving one hop field and entering the next. -/
def combine (first second : Hop) : Hop := (first.2, second.1)

/-! ### Raw paths -/

/-- Generator parsing the interface IDs from hop fields in a raw path. -/
structure RawHopIter where
  rs : ReadStream
  stopIteration : Bool
  prevHop : Hop
  curHop : Hop
  index : ℕ
  hopDir : UInt64
  segChange : UInt64
  deriving DecidableEq, Repr

namespace RawHopIter

/-- `operator*`. -/
def deref (it : RawHopIter) : Hop := combine it.prevHop it.curHop

/-- One round of the loop in `operator++`. -/
def readHop (it : RawHopIter) : RawHopIter :=
  match HopField.read it.rs with
  | .error _ rs => { it with rs := rs, stopIteration := true }
  | .ok hf rs =>
    { it with
      rs := rs
      prevHop := it.curHop
      curHop := takeIfId it.hopDir it.index hf
      index := it.index + 1 }

/-- `operator++`. -/
def next (it : RawHopIter) : RawHopIter :=
  let stepped := it.readHop
  if testMask it.segChange it.index && !stepped.stopIteration then stepped.readHop else stepped

/-- The loop of the constructor over `n` more info fields, the next of which
has index `i` and its segment `sum` hop fields before it. -/
def scanInfoFields (m : PathMeta) : ℕ → ℕ → ℕ → RawHopIter → RawHopIter
  | 0, _, _, it => it.next
  | n + 1, i, sum, it =>
    match InfoField.read it.rs with
    | .error _ rs => { it with rs := rs, stopIteration := true }
    | .ok info rs =>
      let len := (m.segLen i).toNat
      let hopDir := if info.consDir then setSegment it.hopDir len sum else it.hopDir
      -- special case: keep peering segment changes
      let segChange :=
        if !info.peering || i == 0 then it.segChange ||| ((1 : UInt64) <<< UInt64.ofNat sum)
        else it.segChange
      scanInfoFields m n (i + 1) (sum + len)
        { it with rs := rs, hopDir := hopDir, segChange := segChange }

/-- The constructor. -/
def ofPath (path : List UInt8) : RawHopIter :=
  let it : RawHopIter := ⟨ReadStream.ofBuffer path, false, (0, 0), (0, 0), 0, 0, 0⟩
  match PathMeta.read it.rs with
  | .error _ rs => { it with rs := rs, stopIteration := true }
  | .ok m rs => scanInfoFields m m.segmentCount 0 0 { it with rs := rs }

/-- The values of a loop from `it` to the sentinel, at most `fuel` of them. -/
def collect : ℕ → RawHopIter → List Hop
  | 0, _ => []
  | fuel + 1, it => if it.stopIteration then [] else it.deref :: collect fuel it.next

end RawHopIter

/-- `hops()` of a raw path. Every step consumes bytes, so the loop ends before
the fuel does. -/
def rawHops (type : PathType) (encoded : List UInt8) : List Hop :=
  RawHopIter.collect (encoded.length + 1)
    (if type ≠ PathType.scion then RawHopIter.ofPath [] else RawHopIter.ofPath encoded)

/-! ### Decoded paths -/

/-- The loop of `hops()` over the info fields. -/
def hopDirMask (m : PathMeta) : List InfoField → ℕ → ℕ → UInt64 → UInt64
  | [], _, _, hopDir => hopDir
  | info :: ifs, i, sum, hopDir =>
    let len := (m.segLen i).toNat
    hopDirMask m ifs (i + 1) (sum + len) (if info.consDir then setSegment hopDir len sum else hopDir)

/-- The joints to be left out: the last hop fields of the first two segments,
unless the first info field is a peering one. -/
def segChangeMask (p : DecodedScionPath) : UInt64 :=
  match p.ifs with
  | [] => 0
  | info :: _ =>
    let seg0 := p.metaHeader.seg0.toNat
    let seg1 := p.metaHeader.seg1.toNat
    -- special case: keep peering segment changes
    if !info.peering then
      ((1 : UInt64) <<< UInt64.ofNat (seg0 - 1)) ||| ((1 : UInt64) <<< UInt64.ofNat (seg0 + seg1 - 1))
    else 0

def DecodedScionPath.hops (p : DecodedScionPath) : List Hop :=
  let hopDir := hopDirMask p.metaHeader p.ifs 0 0 0
  let ids := p.hfs.zipIdx.map fun (hf, index) => takeIfId hopDir index hf
  let joined := List.zipWith combine ids ids.tail
  (joined.zipIdx.filter fun (_, i) => !testMask (segChangeMask p) i).map Prod.fst

/-! ### Masks -/

theorem testMask_zero (i : ℕ) : testMask 0 i = false := by simp [testMask]

theorem toNat_bit {i : ℕ} (hi : i < 64) : ((1 : UInt64) <<< UInt64.ofNat i).toNat = 2 ^ i := by
  have hshift : (UInt64.ofNat i).toNat % 64 = i := by
    rw [UInt64.toNat_ofNat']
    omega
  rw [UInt64.toNat_shiftLeft, hshift, show (1 : UInt64).toNat = 1 from rfl, Nat.one_shiftLeft]
  exact Nat.mod_eq_of_lt (Nat.pow_lt_pow_right (by norm_num) hi)

/-- Within the word, the mask test is the bit test. -/
theorem testMask_eq_testBit (mask : UInt64) {i : ℕ} (hi : i < 64) :
    testMask mask i = mask.toNat.testBit i := by
  have hpos : 2 ^ i ≠ 0 := by positivity
  rw [testMask, bne, Bool.eq_iff_iff, Bool.not_eq_true', beq_eq_false_iff_ne, ne_eq,
    ← UInt64.toNat_inj, UInt64.toNat_and, toNat_bit hi, Nat.and_two_pow,
    show (0 : UInt64).toNat = 0 from rfl]
  cases mask.toNat.testBit i <;> simp

theorem testMask_or_bit (mask : UInt64) {a i : ℕ} (ha : a < 64) (hi : i < 64) :
    testMask (mask ||| ((1 : UInt64) <<< UInt64.ofNat a)) i = (testMask mask i || decide (i = a)) := by
  rw [testMask_eq_testBit _ hi, testMask_eq_testBit _ hi, UInt64.toNat_or, toNat_bit ha,
    Nat.testBit_or, Nat.testBit_two_pow]
  congr 1
  exact decide_eq_decide.mpr eq_comm

/-! ### The raw walk -/

/-- The iterator in front of the hop field records `recs`. -/
def RawHopIter.At (it : RawHopIter) (recs : List (List UInt8)) : Prop :=
  it.stopIteration = false ∧ (∀ c ∈ recs, c.length = 12) ∧
    ∃ pre, it.rs = ReadStream.cursor pre recs.flatten

/-- The oriented hop fields from index `k` on. -/
def orient (hopDir : UInt64) (k : ℕ) (hfs : List HopField) : List Hop :=
  (hfs.zipIdx k).map fun (hf, index) => takeIfId hopDir index hf

namespace RawHopIter

theorem readHop_nil {it : RawHopIter} (h : it.At []) : it.readHop.stopIteration = true := by
  obtain ⟨-, -, pre, hrs⟩ := h
  obtain ⟨e, s, herr⟩ := HopField.starves pre [] (by simp)
  rw [readHop, hrs, List.flatten_nil, herr]

theorem readHop_cons {it : RawHopIter} {c : List UInt8} {recs : List (List UInt8)}
    (h : it.At (c :: recs)) :
    it.readHop.At recs ∧ it.readHop.prevHop = it.curHop ∧
      it.readHop.curHop = takeIfId it.hopDir it.index (HopField.ofBytes c) ∧
      it.readHop.index = it.index + 1 ∧ it.readHop.hopDir = it.hopDir ∧
      it.readHop.segChange = it.segChange := by
  obtain ⟨hstop, h12, pre, hrs⟩ := h
  have hread := HopField.reads c (h12 c (List.mem_cons_self ..)) pre recs.flatten
  rw [readHop, hrs, List.flatten_cons, hread]
  exact ⟨⟨hstop, fun d hd => h12 d (List.mem_cons_of_mem _ hd), pre ++ c, rfl⟩, rfl, rfl, rfl, rfl,
    rfl⟩

theorem collect_of_stop {fuel : ℕ} {it : RawHopIter} (h : it.stopIteration = true) :
    collect fuel it = [] := by
  cases fuel with
  | zero => rfl
  | succ fuel => rw [collect, if_pos h]

/-- The loop that has just moved past the current hop field is the walk over
those that are left. -/
theorem collect_next {recs : List (List UInt8)} {it : RawHopIter} {fuel : ℕ} (h : it.At recs)
    (hfuel : recs.length < fuel) :
    collect fuel it.next = skipWalk combine (testMask it.segChange) it.index it.curHop
      (orient it.hopDir it.index (recs.map HopField.ofBytes)) := by
  induction hn : recs.length using Nat.strong_induction_on generalizing recs it fuel with
  | _ n ih =>
    obtain ⟨fuel, rfl⟩ : ∃ f, fuel = f + 1 := ⟨fuel - 1, by omega⟩
    match recs with
    | [] =>
      have hstop := readHop_nil h
      have hnext : it.next.stopIteration = true := by
        rw [next, hstop]
        simpa using hstop
      rw [collect_of_stop hnext]
      rfl
    | c :: recs =>
      obtain ⟨hat, hprev, hcur, hindex, hdir, hseg⟩ := readHop_cons h
      rw [List.length_cons] at hfuel hn
      simp only [orient, List.map_cons, List.zipIdx_cons]
      rw [skipWalk.eq_def]
      by_cases hskip : testMask it.segChange it.index = true
      · have hnext : it.next = it.readHop.readHop := by
          rw [next, hskip, hat.1]
          rfl
        simp only [hskip, if_true]
        rw [hnext]
        match recs with
        | [] =>
          rw [collect_of_stop (readHop_nil hat)]
          rfl
        | d :: recs =>
          obtain ⟨hat', hprev', hcur', hindex', hdir', hseg'⟩ := readHop_cons hat
          rw [List.length_cons] at hfuel hn
          rw [collect, if_neg (by rw [hat'.1]; simp), deref, hprev', hcur', hcur, hindex, hdir,
            ih recs.length (by omega) hat' (by omega) rfl]
          rw [hseg', hseg, hindex', hindex, hcur', hindex, hdir', hdir]
          rfl
      · have hnext : it.next = it.readHop := by
          rw [next, Bool.eq_false_iff.mpr hskip]
          rfl
        simp only [hskip, Bool.false_eq_true, if_false]
        rw [hnext, collect, if_neg (by rw [hat.1]; simp), deref, hprev, hcur,
          ih recs.length (by omega) hat (by omega) rfl, hseg, hindex, hcur, hdir]
        rfl

end RawHopIter

/-- The mask of segment changes the constructor collects. -/
def rawSegChange (m : PathMeta) : List InfoField → ℕ → ℕ → UInt64 → UInt64
  | [], _, _, segChange => segChange
  | info :: ifs, i, sum, segChange =>
    rawSegChange m ifs (i + 1) (sum + (m.segLen i).toNat)
      (if !info.peering || i == 0 then segChange ||| ((1 : UInt64) <<< UInt64.ofNat sum)
        else segChange)

theorem RawHopIter.scanInfoFields_eq (m : PathMeta) {ics : List (List UInt8)}
    (h8 : ∀ c ∈ ics, c.length = 8) (rest : List UInt8) :
    ∀ (i sum : ℕ) (pre : List UInt8) (it : RawHopIter),
      it.rs = ReadStream.cursor pre (ics.flatten ++ rest) →
      scanInfoFields m ics.length i sum it = RawHopIter.next { it with
        rs := ReadStream.cursor (pre ++ ics.flatten) rest
        hopDir := hopDirMask m (ics.map InfoField.ofBytes) i sum it.hopDir
        segChange := rawSegChange m (ics.map InfoField.ofBytes) i sum it.segChange } := by
  induction ics with
  | nil =>
    intro i sum pre it hrs
    rw [List.flatten_nil, List.nil_append] at hrs
    simp only [List.length_nil, scanInfoFields, List.flatten_nil, List.append_nil, List.map_nil,
      hopDirMask, rawSegChange, ← hrs]
  | cons c ics ih =>
    intro i sum pre it hrs
    have hread := InfoField.reads c (h8 c (List.mem_cons_self ..)) pre (ics.flatten ++ rest)
    rw [List.length_cons, scanInfoFields, hrs, List.flatten_cons, List.append_assoc, hread]
    simp only
    rw [ih (fun d hd => h8 d (List.mem_cons_of_mem _ hd)) (i + 1) _ (pre ++ c) _ rfl,
      List.append_assoc]
    rfl

/-- The raw hops of a complete path are the joints of its oriented hop fields,
without the joints the walk skips. -/
theorem rawHops_layout {buffer mb : List UInt8} {ics hcs : List (List UInt8)}
    (h : DecodedScionPath.Layout buffer mb ics hcs) {source destination : IsdAsn}
    {p : DecodedScionPath} (hp : p = DecodedScionPath.ofLayout source destination mb ics hcs)
    (first : Hop) (others : List Hop)
    (hids : orient (hopDirMask p.metaHeader p.ifs 0 0 0) 0 p.hfs = first :: others)
    (hzero : testMask (rawSegChange p.metaHeader p.ifs 0 0 0) 0 = true) :
    rawHops PathType.scion buffer = keepJoints combine
      (fun i => !skipped (testMask (rawSegChange p.metaHeader p.ifs 0 0 0)) (i + 1)) 0
      first others := by
  obtain ⟨hbuf, hmb, hics, hhcs, hics8, hhcs12, hvalid⟩ := h
  have hmeta := PathMeta.reads hmb hvalid [] (ics.flatten ++ hcs.flatten)
  rw [List.nil_append, ← hbuf] at hmeta
  have hfuel : hcs.length < buffer.length + 1 := by
    rw [hbuf, List.length_append, List.length_append, Records.length_flatten hhcs12]
    omega
  set it : RawHopIter := ⟨ReadStream.cursor (mb ++ ics.flatten) hcs.flatten, false, (0, 0), (0, 0), 0,
    hopDirMask p.metaHeader p.ifs 0 0 0, rawSegChange p.metaHeader p.ifs 0 0 0⟩ with hit
  have hofPath : RawHopIter.ofPath buffer = it.next := by
    rw [RawHopIter.ofPath, ReadStream.ofBuffer_eq, hmeta]
    simp only [← hics]
    rw [RawHopIter.scanInfoFields_eq _ hics8 hcs.flatten 0 0 mb _ rfl, hit, hp]
    rfl
  have hat : it.At hcs := ⟨rfl, hhcs12, mb ++ ics.flatten, rfl⟩
  rw [rawHops, if_neg (by simp), hofPath, RawHopIter.collect_next hat hfuel]
  have hhfs : hcs.map HopField.ofBytes = p.hfs := by rw [hp]; rfl
  rw [hhfs, show it.hopDir = hopDirMask p.metaHeader p.ifs 0 0 0 from rfl,
    show it.index = 0 from rfl, hids]
  exact skipWalk_zero combine hzero _ _ _

theorem hops_eq {p : DecodedScionPath} (first : Hop) (others : List Hop)
    (hids : orient (hopDirMask p.metaHeader p.ifs 0 0 0) 0 p.hfs = first :: others) :
    p.hops = keepJoints combine (fun i => !testMask (segChangeMask p) i) 0 first others := by
  rw [← keepJoints_eq_filter, DecodedScionPath.hops]
  rw [orient] at hids
  rw [hids]
  rfl

/-! ### Agreement -/

/-- The joints at the segment changes, kept or left out: the raw walk asks the
info field of the segment that begins and cannot leave out a joint right behind
the start or behind another one left out; the decoded path asks the first info
field for both joints. -/
def hopRangesAgree (m : PathMeta) : List InfoField → Bool
  | [i0, i1] => i0.peering == (i1.peering || m.seg0 == 1)
  | [i0, i1, i2] =>
    if i0.peering then (i1.peering || m.seg0 == 1) && i2.peering
    else m.seg0 != 1 && !i1.peering && m.seg1 != 1 && !i2.peering
  | _ => true

/-- The segments of a valid meta header. -/
theorem PathMeta.Valid.segments {m : PathMeta} (h : m.Valid) :
    (m.segmentCount = 1 ∧ 0 < m.seg0.toNat ∧ m.seg1.toNat = 0 ∧ m.seg2.toNat = 0) ∨
    (m.segmentCount = 2 ∧ 0 < m.seg0.toNat ∧ 0 < m.seg1.toNat ∧ m.seg2.toNat = 0) ∨
    (m.segmentCount = 3 ∧ 0 < m.seg0.toNat ∧ 0 < m.seg1.toNat ∧ 0 < m.seg2.toNat) := by
  obtain ⟨horder, hinf, -⟩ := h
  have hpos : ∀ x : UInt8, x > 0 ↔ 0 < x.toNat := by
    intro x
    rw [gt_iff_lt, UInt8.lt_iff_toNat_lt]
    rfl
  have hzero : ∀ x : UInt8, x = 0 ↔ x.toNat = 0 := by
    intro x
    rw [← UInt8.toNat_inj]
    rfl
  simp only [segmentsInOrder, Bool.not_eq_true', Bool.or_eq_false_iff, Bool.and_eq_false_iff,
    decide_eq_false_iff_not, beq_eq_false_iff_ne, ne_eq, hpos, hzero] at horder
  simp only [segmentCount, hpos] at hinf ⊢
  split_ifs at hinf ⊢ <;> omega

theorem testMask_ite_bit (c : Bool) (mask : UInt64) {a i : ℕ} (ha : a < 64) (hi : i < 64) :
    testMask (if c = true then mask ||| ((1 : UInt64) <<< UInt64.ofNat a) else mask) i = true ↔
      testMask mask i = true ∨ (c = true ∧ i = a) := by
  cases c
  · simp
  · simp [testMask_or_bit mask ha hi]

/-- The joints the decoded path leaves out. -/
theorem testMask_segChangeMask {p : DecodedScionPath} {info : InfoField} {ifs : List InfoField}
    (hifs : p.ifs = info :: ifs) (h0 : 0 < p.metaHeader.seg0.toNat)
    (hmax : p.metaHeader.seg0.toNat + p.metaHeader.seg1.toNat ≤ 64) {j : ℕ} (hj : j < 64) :
    testMask (segChangeMask p) j = true ↔ info.peering = false ∧
      (j + 1 = p.metaHeader.seg0.toNat
        ∨ j + 1 = p.metaHeader.seg0.toNat + p.metaHeader.seg1.toNat) := by
  rw [segChangeMask, hifs]
  cases hp : info.peering with
  | true => simp [hp, testMask_zero]
  | false =>
    have hfirst := testMask_or_bit 0 (a := p.metaHeader.seg0.toNat - 1) (by omega) hj
    rw [UInt64.zero_or, testMask_zero, Bool.false_or] at hfirst
    simp only [hp, Bool.not_false, if_true]
    rw [testMask_or_bit _ (by omega) hj, hfirst]
    simp only [Bool.or_eq_true, decide_eq_true_eq, true_and]
    omega

/-- The first info field always marks the first hop field, each further one its
own unless it is peering. -/
theorem rawSegChange_one (m : PathMeta) (i0 : InfoField) {j : ℕ} (hj : j < 64) :
    testMask (rawSegChange m [i0] 0 0 0) j = true ↔ j = 0 := by
  rw [rawSegChange, rawSegChange, testMask_ite_bit _ _ (by norm_num) hj, testMask_zero]
  simp

theorem rawSegChange_two (m : PathMeta) (i0 i1 : InfoField) (h : m.seg0.toNat < 64) {j : ℕ}
    (hj : j < 64) :
    testMask (rawSegChange m [i0, i1] 0 0 0) j = true ↔
      j = 0 ∨ ((!i1.peering) = true ∧ j = m.seg0.toNat) := by
  have hone := rawSegChange_one m i0 hj
  rw [rawSegChange, rawSegChange] at hone
  rw [rawSegChange, rawSegChange, rawSegChange,
    testMask_ite_bit _ _ (by rw [zero_add]; exact h) hj, hone]
  simp [PathMeta.segLen]

theorem rawSegChange_three (m : PathMeta) (i0 i1 i2 : InfoField) (h0 : m.seg0.toNat < 64)
    (h : m.seg0.toNat + m.seg1.toNat < 64) {j : ℕ} (hj : j < 64) :
    testMask (rawSegChange m [i0, i1, i2] 0 0 0) j = true ↔
      j = 0 ∨ ((!i1.peering) = true ∧ j = m.seg0.toNat)
        ∨ ((!i2.peering) = true ∧ j = m.seg0.toNat + m.seg1.toNat) := by
  have htwo := rawSegChange_two m i0 i1 h0 hj
  rw [rawSegChange, rawSegChange, rawSegChange] at htwo
  rw [rawSegChange, rawSegChange, rawSegChange, rawSegChange,
    testMask_ite_bit _ _ (by rw [zero_add]; exact h) hj, htwo]
  simp [PathMeta.segLen, or_assoc]

theorem seg_eq_one (x : UInt8) : (x == 1) = decide (x.toNat = 1) := by
  rw [beq_eq_decide, decide_eq_decide, ← UInt8.toNat_inj]
  rfl

/-- The joints of a path, without those the raw walk leaves out and without
those the decoded path leaves out. -/
def JointsAgree (p : DecodedScionPath) (first : Hop) (others : List Hop) : Prop :=
  keepJoints combine
      (fun i => !skipped (testMask (rawSegChange p.metaHeader p.ifs 0 0 0)) (i + 1)) 0 first others
    = keepJoints combine (fun i => !testMask (segChangeMask p) i) 0 first others

theorem jointsAgree_iff {p : DecodedScionPath} {first : Hop} {others : List Hop}
    (raw decoded : ℕ → Prop)
    (hraw : ∀ j < others.length,
      (skipped (testMask (rawSegChange p.metaHeader p.ifs 0 0 0)) (j + 1) = true ↔ raw j))
    (hdecoded : ∀ j < others.length, (testMask (segChangeMask p) j = true ↔ decoded j))
    (hsub : (∀ j < others.length, raw j → decoded j) ∨ (∀ j < others.length, decoded j → raw j)) :
    JointsAgree p first others ↔ ∀ j < others.length, (raw j ↔ decoded j) := by
  have hcompare := keepJoints_not_eq_iff combine
    (fun j => skipped (testMask (rawSegChange p.metaHeader p.ifs 0 0 0)) (j + 1))
    (fun j => testMask (segChangeMask p) j) first others
  rw [JointsAgree, hcompare]
  · exact forall₂_congr fun j hj => iff_congr (hraw j hj) (hdecoded j hj)
  · refine hsub.imp (fun h j hj => ?_) (fun h j hj => ?_)
    · rw [hraw j hj, hdecoded j hj]
      exact h j hj
    · rw [hraw j hj, hdecoded j hj]
      exact h j hj

section

variable {p : DecodedScionPath} {first : Hop} {others : List Hop}
  (h0 : 0 < p.metaHeader.seg0.toNat)
  (hlen : others.length + 1
    = p.metaHeader.seg0.toNat + p.metaHeader.seg1.toNat + p.metaHeader.seg2.toNat)
  (hmax : p.metaHeader.seg0.toNat + p.metaHeader.seg1.toNat + p.metaHeader.seg2.toNat ≤ 64)

include h0 hlen hmax

theorem jointsAgree_one {i0 : InfoField} (hi : p.ifs = [i0]) (h1 : p.metaHeader.seg1.toNat = 0)
    (h2 : p.metaHeader.seg2.toNat = 0) : JointsAgree p first others := by
  have hmask : ∀ j < 64, testMask (rawSegChange p.metaHeader p.ifs 0 0 0) j = true ↔
      j = 0 ∨ (false = true ∧ j = 1) ∨ (false = true ∧ j = 2) := by
    intro j hj
    rw [hi, rawSegChange_one _ _ hj]
    simp
  have hskipped := skipped_iff (by omega) (by omega) hmask
  rw [jointsAgree_iff (fun _ => False) (fun _ => False) _ _ (.inl (by simp))]
  · simp
  · intro j hj
    rw [hskipped (j + 1) (by omega)]
    simp
  · intro j hj
    rw [testMask_segChangeMask hi h0 (by omega) (by omega), iff_false, not_and]
    omega

theorem jointsAgree_two {i0 i1 : InfoField} (hi : p.ifs = [i0, i1])
    (h1 : 0 < p.metaHeader.seg1.toNat) (h2 : p.metaHeader.seg2.toNat = 0) :
    JointsAgree p first others ↔ hopRangesAgree p.metaHeader p.ifs = true := by
  have hmask : ∀ j < 64, testMask (rawSegChange p.metaHeader p.ifs 0 0 0) j = true ↔
      j = 0 ∨ ((!i1.peering) = true ∧ j = p.metaHeader.seg0.toNat) ∨
        (false = true ∧ j = p.metaHeader.seg0.toNat + 1) := by
    intro j hj
    rw [hi, rawSegChange_two _ _ _ (by omega) hj]
    simp
  have hskipped := skipped_iff h0 (by omega) hmask
  have hagree : hopRangesAgree p.metaHeader p.ifs = true ↔
      (i1.peering = false ∧ p.metaHeader.seg0.toNat ≠ 1 ↔ i0.peering = false) := by
    rw [hi, hopRangesAgree, seg_eq_one]
    cases i0.peering <;> cases i1.peering <;> simp
  rw [hagree, jointsAgree_iff
    (fun j => (i1.peering = false ∧ p.metaHeader.seg0.toNat ≠ 1)
      ∧ j + 1 = p.metaHeader.seg0.toNat)
    (fun j => i0.peering = false ∧ j + 1 = p.metaHeader.seg0.toNat)]
  · constructor
    · intro hall
      have hjoint := hall (p.metaHeader.seg0.toNat - 1) (by omega)
      rwa [Nat.sub_add_cancel h0, and_iff_left rfl, and_iff_left rfl] at hjoint
    · intro hiff j _
      rw [hiff]
  · intro j hj
    rw [hskipped (j + 1) (by omega)]
    simp only [Bool.not_eq_true', Nat.add_eq_zero_iff, one_ne_zero, and_false, false_or,
      Bool.false_eq_true, false_and, or_false]
    rw [and_assoc, and_comm (a := j + 1 = _)]
  · intro j hj
    rw [testMask_segChangeMask hi h0 (by omega) (by omega)]
    exact and_congr_right fun _ => ⟨fun h => by omega, Or.inl⟩
  · cases i0.peering with
    | false => exact .inl fun j _ h => ⟨rfl, h.2⟩
    | true => exact .inr fun j _ h => absurd h.1 (by simp)

theorem jointsAgree_three {i0 i1 i2 : InfoField} (hi : p.ifs = [i0, i1, i2])
    (h1 : 0 < p.metaHeader.seg1.toNat) (h2 : 0 < p.metaHeader.seg2.toNat) :
    JointsAgree p first others ↔ hopRangesAgree p.metaHeader p.ifs = true := by
  have hmask : ∀ j < 64, testMask (rawSegChange p.metaHeader p.ifs 0 0 0) j = true ↔
      j = 0 ∨ ((!i1.peering) = true ∧ j = p.metaHeader.seg0.toNat) ∨
        ((!i2.peering) = true ∧ j = p.metaHeader.seg0.toNat + p.metaHeader.seg1.toNat) := by
    intro j hj
    rw [hi, rawSegChange_three _ _ _ _ (by omega) (by omega) hj]
  have hskipped := skipped_iff h0 (by omega) hmask
  -- what the raw walk does at the first and at the second segment change
  set first₁ := i1.peering = false ∧ p.metaHeader.seg0.toNat ≠ 1 with hfirst₁
  set second₁ := i2.peering = false ∧ ¬ (first₁ ∧ p.metaHeader.seg1.toNat = 1) with hsecond₁
  have hagree : hopRangesAgree p.metaHeader p.ifs = true ↔
      (first₁ ↔ i0.peering = false) ∧ (second₁ ↔ i0.peering = false) := by
    rw [hi, hopRangesAgree, bne, bne, seg_eq_one, seg_eq_one, hsecond₁, hfirst₁]
    by_cases hs : p.metaHeader.seg0.toNat = 1 <;>
      cases i0.peering <;> cases i1.peering <;> cases i2.peering <;> simp [hs]
  rw [hagree, jointsAgree_iff
    (fun j => (first₁ ∧ j + 1 = p.metaHeader.seg0.toNat) ∨
      (second₁ ∧ j + 1 = p.metaHeader.seg0.toNat + p.metaHeader.seg1.toNat))
    (fun j => i0.peering = false ∧ (j + 1 = p.metaHeader.seg0.toNat ∨
      j + 1 = p.metaHeader.seg0.toNat + p.metaHeader.seg1.toNat))]
  · constructor
    · intro hall
      have hat₁ := hall (p.metaHeader.seg0.toNat - 1) (by omega)
      have hat₂ := hall (p.metaHeader.seg0.toNat + p.metaHeader.seg1.toNat - 1) (by omega)
      rw [Nat.sub_add_cancel (by omega)] at hat₁ hat₂
      have hne : p.metaHeader.seg0.toNat ≠ p.metaHeader.seg0.toNat + p.metaHeader.seg1.toNat := by
        omega
      simp only [hne, hne.symm, and_false, and_true, or_false, false_or, or_true] at hat₁ hat₂
      exact ⟨hat₁, hat₂⟩
    · rintro ⟨hat₁, hat₂⟩ j _
      rw [hat₁, hat₂, and_or_left]
  · intro j hj
    rw [hskipped (j + 1) (by omega), hsecond₁, hfirst₁]
    simp only [Bool.not_eq_true', Nat.add_eq_zero_iff, one_ne_zero, and_false, false_or,
      Nat.add_left_cancel_iff]
    rw [and_assoc, and_assoc, and_comm (a := j + 1 = _), and_comm (a := j + 1 = _), and_assoc]
  · exact fun j hj => testMask_segChangeMask hi h0 (by omega) (by omega)
  · cases i0.peering with
    | false => exact .inl fun j _ h => ⟨rfl, h.imp And.right And.right⟩
    | true => exact .inr fun j _ h => absurd h.1 (by simp)

end

theorem rawSegChange_keeps (m : PathMeta) {j : ℕ} (hj : j < 64) :
    ∀ (ifs : List InfoField) (i sum : ℕ) (segChange : UInt64),
      testMask segChange j = true → testMask (rawSegChange m ifs i sum segChange) j = true := by
  intro ifs
  induction ifs with
  | nil => exact fun _ _ _ h => h
  | cons info ifs ih =>
    intro i sum segChange h
    refine ih _ _ _ ?_
    split
    · rw [testMask_eq_testBit _ hj] at h ⊢
      rw [UInt64.toNat_or, Nat.testBit_or, h, Bool.true_or]
    · exact h

/-- The oriented hop fields of a complete path, and the mask that starts with the first of
them. -/
theorem exists_orient {buffer mb : List UInt8} {ics hcs : List (List UInt8)}
    (h : DecodedScionPath.Layout buffer mb ics hcs) :
    ∃ first others,
      orient (hopDirMask (PathMeta.ofBytes mb) (ics.map InfoField.ofBytes) 0 0 0) 0
        (hcs.map HopField.ofBytes) = first :: others ∧ others.length + 1 = hcs.length ∧
      testMask (rawSegChange (PathMeta.ofBytes mb) (ics.map InfoField.ofBytes) 0 0 0) 0 = true := by
  have hlen : (orient (hopDirMask (PathMeta.ofBytes mb) (ics.map InfoField.ofBytes) 0 0 0) 0
      (hcs.map HopField.ofBytes)).length = hcs.length := by
    rw [orient, List.length_map, List.length_zipIdx, List.length_map]
  obtain ⟨first, others, hids⟩ := List.exists_cons_of_length_pos
    (l := orient (hopDirMask (PathMeta.ofBytes mb) (ics.map InfoField.ofBytes) 0 0 0) 0
      (hcs.map HopField.ofBytes)) (by
        rw [hlen, h.length_hops]
        exact Nat.zero_lt_of_lt h.valid.2.2)
  refine ⟨first, others, hids, ?_, ?_⟩
  · rw [← hlen, hids, List.length_cons]
  · have hpos : 0 < ics.length := by
      rw [h.length_infos]
      rcases h.valid.segments with ⟨hcount, -⟩ | ⟨hcount, -⟩ | ⟨hcount, -⟩ <;> omega
    obtain ⟨c, ics, rfl⟩ := List.exists_cons_of_length_pos hpos
    rw [List.map_cons, rawSegChange]
    refine rawSegChange_keeps _ (by norm_num) _ _ _ _ ?_
    simp [testMask]

/-- On a complete path of at most 64 hop fields the two hop sequences are the
same exactly when the same segment changes are kept. -/
theorem rawHops_eq_hops_iff {source destination : IsdAsn} {buffer : List UInt8}
    {p : DecodedScionPath} (hdec : DecodedScionPath.decode source destination buffer = some p)
    (hmax : p.hfs.length ≤ 64) :
    rawHops PathType.scion buffer = p.hops ↔ hopRangesAgree p.metaHeader p.ifs = true := by
  obtain ⟨mb, ics, hcs, hlayout, hp⟩ := DecodedScionPath.exists_layout hdec
  have hvalid : p.metaHeader.Valid := by rw [hp]; exact hlayout.valid
  have hifs : p.ifs.length = p.metaHeader.segmentCount := by
    rw [hp, DecodedScionPath.ofLayout, List.length_map, hlayout.length_infos]
  have hhfs : p.hfs.length = p.metaHeader.hopFieldCount := by
    rw [hp, DecodedScionPath.ofLayout, List.length_map, hlayout.length_hops]
  rw [hhfs] at hmax
  obtain ⟨first, others, hids, hlen, hzero⟩ : ∃ first others,
      orient (hopDirMask p.metaHeader p.ifs 0 0 0) 0 p.hfs = first :: others ∧
      others.length + 1 = p.metaHeader.hopFieldCount ∧
      testMask (rawSegChange p.metaHeader p.ifs 0 0 0) 0 = true := by
    rw [← hhfs, hp, DecodedScionPath.ofLayout, List.length_map]
    exact exists_orient hlayout
  rw [PathMeta.hopFieldCount] at hlen hmax
  have hseg := hvalid.segments
  rw [rawHops_layout hlayout hp first others hids hzero, hops_eq first others hids]
  change JointsAgree p first others ↔ _
  rcases hseg with ⟨hcount, h0, h1, h2⟩ | ⟨hcount, h0, h1, h2⟩ | ⟨hcount, h0, h1, h2⟩
  · obtain ⟨i0, hi⟩ := List.length_eq_one_iff.mp (hifs.trans hcount)
    refine iff_of_true (jointsAgree_one h0 hlen hmax hi h1 h2) ?_
    rw [hi]
    rfl
  · obtain ⟨i0, i1, hi⟩ := List.length_eq_two.mp (hifs.trans hcount)
    exact jointsAgree_two h0 hlen hmax hi h1 h2
  · obtain ⟨i0, i1, i2, hi⟩ := List.length_eq_three.mp (hifs.trans hcount)
    exact jointsAgree_three h0 hlen hmax hi h1 h2

/-- A path of two segments with two hop fields each. -/
def twoSegmentPath (flags0 flags1 : UInt8) : DecodedScionPath where
  source := IsdAsn.make 1 1
  destination := IsdAsn.make 1 2
  metaHeader := ⟨0, 0, 2, 2, 0⟩
  ifs := [⟨flags0, 0x1234, 0x5f000000⟩, ⟨flags1, 0x4321, 0x5f000000⟩]
  hfs := [⟨0, 63, 4, 0, exampleMac⟩, ⟨0, 63, 0, 3, exampleMac'⟩,
    ⟨0, 63, 0, 9, exampleMac⟩, ⟨0, 63, 10, 0, exampleMac'⟩]

/-- Both ranges keep the segment change of a peering path. -/
theorem rawHops_eq_hops_iff_peering :
    rawHops PathType.scion (twoSegmentPath 2 3).bytes = (twoSegmentPath 2 3).hops ↔
      hopRangesAgree (twoSegmentPath 2 3).metaHeader (twoSegmentPath 2 3).ifs = true :=
  rawHops_eq_hops_iff (by decide : DecodedScionPath.decode (IsdAsn.make 1 1) (IsdAsn.make 1 2)
    (twoSegmentPath 2 3).bytes = some (twoSegmentPath 2 3)) (by decide)

/-- With the peering flag on the first segment only, the raw range leaves out
the segment change and the decoded range keeps it. -/
theorem not_forall_rawHops_eq_hops :
    ¬ ∀ (source destination : IsdAsn) (buffer : List UInt8) (p : DecodedScionPath),
      DecodedScionPath.decode source destination buffer = some p → p.hfs.length ≤ 64 →
      rawHops PathType.scion buffer = p.hops := by
  intro h
  have heq := h (IsdAsn.make 1 1) (IsdAsn.make 1 2) (twoSegmentPath 2 1).bytes
    (twoSegmentPath 2 1) (by decide) (by decide)
  exact absurd heq (by decide)

end Scion
