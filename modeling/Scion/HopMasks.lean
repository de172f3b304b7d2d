/-
The masks of hop iteration (`path/raw_hop_range.hpp`, `path/decoded_scion.hpp`).

Both iterators keep the construction directions and the segment changes in words
of 64 bits. A path can have more hop fields than that, and a shift by 64 or more
is undefined.

* `HopEvent` — a shift of a mask, or a hop field taken in a direction;
* `RawHopIter.covers_callEvents` — the events of the raw walk over hop fields;
* `testMask_hopDirMask` — the direction mask of a path within its 64 bits;
* `masked_iff` — the buffers whose iteration stays within the masks.
-/
import Scion.PathFilling

namespace Scion

open BigEndian Codec Neighbours Records

/-! ### Events -/

/-- What depends on the masks while hops are iterated over. -/
inductive HopEvent where
  /-- A 64-bit mask is shifted, or 1 is. -/
  | shift (amount : ℕ)
  /-- The interfaces of a hop field are taken in a direction. -/
  | visit (index : ℕ) (consDir : Bool)
  deriving DecidableEq, Repr

/-- The shifts by which the constructor and `hops` mark the hop fields of a segment. -/
def dirEvents (info : InfoField) (len sum : ℕ) : List HopEvent :=
  if info.consDir then [.shift len, .shift sum] else []

/-- The shifts in a round of the constructor's loop. -/
def infoEvents (info : InfoField) (i len sum : ℕ) : List HopEvent :=
  dirEvents info len sum ++ if !info.peering || i == 0 then [.shift sum] else []

namespace RawHopIter

/-- A round of the loop in `operator++`: the direction of a hop field that was
read is looked up. -/
def readHopEvents (it : RawHopIter) : List HopEvent :=
  match HopField.read it.rs with
  | .error _ _ => []
  | .ok _ _ => [.shift it.index, .visit it.index (testMask it.hopDir it.index)]

/-- `operator++`. -/
def nextEvents (it : RawHopIter) : List HopEvent :=
  .shift it.index :: (it.readHopEvents ++
    if testMask it.segChange it.index && !it.readHop.stopIteration then it.readHop.readHopEvents
    else [])

/-- The loop of the constructor, as in `scanInfoFields`. -/
def scanEvents (m : PathMeta) : ℕ → ℕ → ℕ → RawHopIter → List HopEvent
  | 0, _, _, it => it.nextEvents
  | n + 1, i, sum, it =>
    match InfoField.read it.rs with
    | .error _ _ => []
    | .ok info rs =>
      let len := (m.segLen i).toNat
      let hopDir := if info.consDir then setSegment it.hopDir len sum else it.hopDir
      let segChange :=
        if !info.peering || i == 0 then it.segChange ||| ((1 : UInt64) <<< UInt64.ofNat sum)
        else it.segChange
      infoEvents info i len sum ++ scanEvents m n (i + 1) (sum + len)
        { it with rs := rs, hopDir := hopDir, segChange := segChange }

/-- The constructor. -/
def ofPathEvents (path : List UInt8) : List HopEvent :=
  let it : RawHopIter := ⟨ReadStream.ofBuffer path, false, (0, 0), (0, 0), 0, 0, 0⟩
  match PathMeta.read it.rs with
  | .error _ _ => []
  | .ok m rs => scanEvents m m.segmentCount 0 0 { it with rs := rs }

/-- A loop from `it` to the sentinel. -/
def collectEvents : ℕ → RawHopIter → List HopEvent
  | 0, _ => []
  | fuel + 1, it => if it.stopIteration then [] else it.nextEvents ++ collectEvents fuel it.next

end RawHopIter

/-- A loop over the hops of a raw path of type SCION. -/
def rawHopEvents (encoded : List UInt8) : List HopEvent :=
  RawHopIter.ofPathEvents encoded ++
    RawHopIter.collectEvents (encoded.length + 1) (RawHopIter.ofPath encoded)

namespace DecodedScionPath

/-- The loop of `hops()` over the info fields. -/
def dirMaskEvents (m : PathMeta) : List InfoField → ℕ → ℕ → List HopEvent
  | [], _, _ => []
  | info :: ifs, i, sum =>
    dirEvents info (m.segLen i).toNat sum ++ dirMaskEvents m ifs (i + 1) (sum + (m.segLen i).toNat)

/-- The shifts that mark the joints to be left out. -/
def segChangeEvents (p : DecodedScionPath) : List HopEvent :=
  match p.ifs with
  | [] => []
  | info :: _ =>
    if !info.peering then
      [.shift (p.metaHeader.seg0.toNat - 1),
        .shift (p.metaHeader.seg0.toNat + p.metaHeader.seg1.toNat - 1)]
    else []

/-- A loop over `hops()`: `takeIfId` is applied to the hop fields and the filter
to the joints between them. -/
def hopEvents (p : DecodedScionPath) : List HopEvent :=
  let hopDir := hopDirMask p.metaHeader p.ifs 0 0 0
  dirMaskEvents p.metaHeader p.ifs 0 0 ++ (p.segChangeEvents ++
    ((List.range p.hfs.length).flatMap (fun index =>
        [.shift index, .visit index (testMask hopDir index)]) ++
      (List.range (p.hfs.length - 1)).map .shift))

end DecodedScionPath

/-- No shift is undefined, and the hop fields that are there are taken in the
direction of their own segment. -/
def Masked (events : List HopEvent) (m : PathMeta) (info : ℕ → InfoField) (present : ℕ → Prop) :
    Prop :=
  (∀ amount, .shift amount ∈ events → amount < 64) ∧
    ∀ seg i, m.segmentBegin seg ≤ i → i < m.segmentBegin (seg + 1) → present i →
      .visit i (info seg).consDir ∈ events ∧
        ∀ consDir, .visit i consDir ∈ events → consDir = (info seg).consDir

/-! ### The raw walk -/

namespace RawHopIter

/-- The iterator in front of the hop field records `recs`, behind which there is
not enough for another. -/
structure Facing (it : RawHopIter) (recs : List (List UInt8)) : Prop where
  running : it.stopIteration = false
  sizes : ∀ c ∈ recs, c.length = 12
  stream : ∃ pre tail, tail.length < 12 ∧ it.rs = ReadStream.cursor pre (recs.flatten ++ tail)

theorem Facing.read_nil {it : RawHopIter} (h : it.Facing []) :
    it.readHop.stopIteration = true ∧ it.readHopEvents = [] := by
  obtain ⟨pre, tail, htail, hrs⟩ := h.stream
  obtain ⟨e, s, herr⟩ := HopField.starves pre tail htail
  rw [readHop, readHopEvents, hrs, List.flatten_nil, List.nil_append, herr]
  exact ⟨rfl, rfl⟩

theorem Facing.read_cons {it : RawHopIter} {c : List UInt8} {recs : List (List UInt8)}
    (h : it.Facing (c :: recs)) :
    it.readHop.Facing recs ∧ it.readHop.index = it.index + 1 ∧
      it.readHop.hopDir = it.hopDir ∧ it.readHop.segChange = it.segChange ∧
      it.readHopEvents = [.shift it.index, .visit it.index (testMask it.hopDir it.index)] := by
  obtain ⟨pre, tail, htail, hrs⟩ := h.stream
  have hread := HopField.reads c (h.sizes c List.mem_cons_self) pre (recs.flatten ++ tail)
  rw [readHop, readHopEvents, hrs, List.flatten_cons, List.append_assoc, hread]
  exact ⟨⟨h.running, fun d hd => h.sizes d (List.mem_cons_of_mem _ hd), pre ++ c, tail, htail, rfl⟩,
    rfl, rfl, rfl, rfl⟩

theorem collectEvents_of_stop {fuel : ℕ} {it : RawHopIter} (h : it.stopIteration = true) :
    collectEvents fuel it = [] := by
  cases fuel with
  | zero => rfl
  | succ fuel => rw [collectEvents, if_pos h]

/-- A call of `operator++` and the loop behind it. -/
def callEvents (fuel : ℕ) (it : RawHopIter) : List HopEvent :=
  it.nextEvents ++ collectEvents fuel it.next

theorem callEvents_of_running {fuel : ℕ} {it : RawHopIter} (h : it.next.stopIteration = false) :
    callEvents (fuel + 1) it = it.nextEvents ++ callEvents fuel it.next := by
  rw [callEvents, collectEvents, if_neg (by rw [h]; simp), callEvents]

theorem callEvents_nil {it : RawHopIter} (h : it.Facing []) (fuel : ℕ) :
    callEvents fuel it = [.shift it.index] := by
  obtain ⟨hstop, hread⟩ := h.read_nil
  have hnext : it.next.stopIteration = true := by
    rw [next, hstop]
    simpa using hstop
  rw [callEvents, collectEvents_of_stop hnext, nextEvents, hread, hstop]
  simp

theorem callEvents_one {it : RawHopIter} {c : List UInt8} {recs : List (List UInt8)}
    (h : it.Facing (c :: recs)) (hskip : testMask it.segChange it.index = false) (fuel : ℕ) :
    callEvents (fuel + 1) it = [.shift it.index, .shift it.index,
      .visit it.index (testMask it.hopDir it.index)] ++ callEvents fuel it.readHop := by
  obtain ⟨hat, -, -, -, hread⟩ := h.read_cons
  have hnext : it.next = it.readHop := by
    rw [next, hskip]
    rfl
  rw [callEvents_of_running (by rw [hnext]; exact hat.running), hnext, nextEvents, hskip, hread]
  rfl

theorem callEvents_last {it : RawHopIter} {c : List UInt8}
    (h : it.Facing [c]) (hskip : testMask it.segChange it.index = true) (fuel : ℕ) :
    callEvents fuel it = [.shift it.index, .shift it.index,
      .visit it.index (testMask it.hopDir it.index)] := by
  obtain ⟨hat, -, -, -, hread⟩ := h.read_cons
  obtain ⟨hstop, hnone⟩ := hat.read_nil
  have hnext : it.next.stopIteration = true := by
    rw [next, hskip, hat.running]
    exact hstop
  rw [callEvents, collectEvents_of_stop hnext, nextEvents, hskip, hat.running, hread, hnone]
  rfl

theorem callEvents_two {it : RawHopIter} {c d : List UInt8} {recs : List (List UInt8)}
    (h : it.Facing (c :: d :: recs)) (hskip : testMask it.segChange it.index = true) (fuel : ℕ) :
    callEvents (fuel + 1) it = [.shift it.index, .shift it.index,
      .visit it.index (testMask it.hopDir it.index), .shift (it.index + 1),
      .visit (it.index + 1) (testMask it.hopDir (it.index + 1))]
        ++ callEvents fuel it.readHop.readHop := by
  obtain ⟨hat, hindex, hdir, -, hread⟩ := h.read_cons
  obtain ⟨hat', -, -, -, hread'⟩ := hat.read_cons
  have hnext : it.next = it.readHop.readHop := by
    rw [next, hskip, hat.running]
    rfl
  rw [callEvents_of_running (by rw [hnext]; exact hat'.running), hnext, nextEvents, hskip,
    hat.running, hread, hread', hindex, hdir]
  rfl

/-- The events of a walk over `n` hop fields from index `j` on. It shifts by the
index of every hop field and visits it, and it shifts by the number of hop fields
unless the last one is the first of two steps. -/
structure Covers (events : List HopEvent) (j n : ℕ) (skip dir : ℕ → Bool) : Prop where
  shift_iff : ∀ amount, .shift amount ∈ events ↔ j ≤ amount ∧ amount < j + n ∨
    amount = j + n ∧ (n = 0 ∨ skipped skip (amount - 1) = false)
  visit_iff : ∀ i consDir, .visit i consDir ∈ events ↔ j ≤ i ∧ i < j + n ∧ consDir = dir i

section

variable {events : List HopEvent} {j n : ℕ} {skip dir : ℕ → Bool}

theorem covers_nil : Covers [.shift j] j 0 skip dir where
  shift_iff amount := by
    simp only [List.mem_singleton, HopEvent.shift.injEq, true_or, and_true]
    omega
  visit_iff i consDir := by
    simp only [List.mem_singleton, reduceCtorEq, false_iff]
    omega

/-- The second of two steps fails. -/
theorem covers_last (h : skipped skip j = true) :
    Covers [.shift j, .shift j, .visit j (dir j)] j 1 skip dir where
  shift_iff amount := by
    simp only [List.mem_cons, HopEvent.shift.injEq, reduceCtorEq, List.not_mem_nil, or_false, or_self]
    constructor
    · rintro rfl
      exact .inl ⟨le_rfl, Nat.lt_succ_self _⟩
    · rintro (hrange | ⟨rfl, hlast⟩)
      · omega
      · rw [Nat.add_sub_cancel, h] at hlast
        simp at hlast
  visit_iff i consDir := by
    simp only [List.mem_cons, HopEvent.visit.injEq, reduceCtorEq, List.not_mem_nil, or_false,
      false_or]
    constructor
    · rintro ⟨rfl, rfl⟩
      exact ⟨le_rfl, Nat.lt_succ_self _, rfl⟩
    · rintro ⟨hlow, hhigh, rfl⟩
      obtain rfl : i = j := by omega
      exact ⟨rfl, rfl⟩

theorem Covers.one (h : Covers events (j + 1) n skip dir) (hhere : skipped skip j = false) :
    Covers ([.shift j, .shift j, .visit j (dir j)] ++ events) j (n + 1) skip dir where
  shift_iff amount := by
    rw [List.mem_append, h.shift_iff]
    simp only [List.mem_cons, HopEvent.shift.injEq, reduceCtorEq, List.not_mem_nil, or_false, or_self]
    constructor
    · rintro (rfl | hrange | ⟨rfl, hlast⟩)
      · exact .inl (by omega)
      · exact .inl (by omega)
      · refine .inr ⟨by omega, .inr ?_⟩
        rcases hlast with rfl | hlast
        · exact hhere
        · exact hlast
    · rintro (hrange | ⟨rfl, hlast⟩)
      · by_cases hfirst : amount = j
        · exact .inl hfirst
        · exact .inr (.inl (by omega))
      · exact .inr (.inr ⟨by omega, .inr (hlast.resolve_left not_false)⟩)
  visit_iff i consDir := by
    rw [List.mem_append, h.visit_iff]
    simp only [List.mem_cons, HopEvent.visit.injEq, reduceCtorEq, List.not_mem_nil, or_false,
      false_or]
    constructor
    · rintro (⟨rfl, rfl⟩ | ⟨hlow, hhigh, rfl⟩)
      · exact ⟨le_rfl, by omega, rfl⟩
      · exact ⟨by omega, by omega, rfl⟩
    · rintro ⟨hlow, hhigh, rfl⟩
      by_cases hfirst : i = j
      · exact .inl ⟨hfirst, by rw [hfirst]⟩
      · exact .inr ⟨by omega, by omega, rfl⟩

/-- Behind two steps the question is not asked again. -/
theorem Covers.two (h : Covers events (j + 2) n skip dir) (hhere : skipped skip j = true) :
    Covers ([.shift j, .shift j, .visit j (dir j), .shift (j + 1), .visit (j + 1) (dir (j + 1))]
      ++ events) j (n + 2) skip dir where
  shift_iff amount := by
    have hafter : skipped skip (j + 1) = false := by
      rw [skipped, hhere, Bool.not_true, Bool.and_false]
    rw [List.mem_append, h.shift_iff]
    simp only [List.mem_cons, HopEvent.shift.injEq, reduceCtorEq, List.not_mem_nil, or_false,
      false_or]
    constructor
    · rintro ((rfl | rfl | rfl) | hrange | ⟨rfl, hlast⟩)
      · exact .inl (by omega)
      · exact .inl (by omega)
      · exact .inl (by omega)
      · exact .inl (by omega)
      · refine .inr ⟨by omega, ?_⟩
        rcases hlast with rfl | hlast
        · exact hafter
        · exact hlast
    · rintro (hrange | ⟨rfl, hlast⟩)
      · by_cases hfirst : amount ≤ j + 1
        · exact .inl (by omega)
        · exact .inr (.inl (by omega))
      · exact .inr (.inr ⟨by omega, .inr hlast⟩)
  visit_iff i consDir := by
    rw [List.mem_append, h.visit_iff]
    simp only [List.mem_cons, HopEvent.visit.injEq, reduceCtorEq, List.not_mem_nil, or_false,
      false_or]
    constructor
    · rintro ((⟨rfl, rfl⟩ | ⟨rfl, rfl⟩) | ⟨hlow, hhigh, rfl⟩)
      · exact ⟨le_rfl, by omega, rfl⟩
      · exact ⟨by omega, by omega, rfl⟩
      · exact ⟨by omega, by omega, rfl⟩
    · rintro ⟨hlow, hhigh, rfl⟩
      by_cases hfirst : i = j
      · exact .inl (.inl ⟨hfirst, by rw [hfirst]⟩)
      · by_cases hsecond : i = j + 1
        · exact .inl (.inr ⟨hsecond, by rw [hsecond]⟩)
        · exact .inr ⟨by omega, by omega, rfl⟩

end

theorem covers_callEvents {recs : List (List UInt8)} {it : RawHopIter} {fuel : ℕ}
    (h : it.Facing recs) (hfuel : recs.length < fuel)
    (hask : skipped (testMask it.segChange) it.index = testMask it.segChange it.index) :
    Covers (callEvents fuel it) it.index recs.length (testMask it.segChange)
      (testMask it.hopDir) := by
  induction hn : recs.length using Nat.strong_induction_on generalizing recs it fuel with
  | _ n ih =>
    obtain ⟨fuel, rfl⟩ : ∃ f, fuel = f + 1 := ⟨fuel - 1, by omega⟩
    match recs with
    | [] =>
      subst hn
      rw [callEvents_nil h]
      exact covers_nil
    | c :: recs =>
      obtain ⟨hat, hindex, hdir, hseg, -⟩ := h.read_cons
      rw [List.length_cons] at hfuel hn
      by_cases hskip : testMask it.segChange it.index = true
      · rw [hskip] at hask
        match recs with
        | [] =>
          subst hn
          rw [callEvents_last h hskip]
          exact covers_last hask
        | d :: recs =>
          obtain ⟨hat', hindex', hdir', hseg', -⟩ := hat.read_cons
          rw [List.length_cons] at hfuel hn
          subst hn
          rw [callEvents_two h hskip]
          have hrest := ih recs.length (by omega) hat'
            (by omega : recs.length < fuel) (by
            rw [hseg', hseg, hindex', hindex, skipped, skipped, hask, Bool.not_true, Bool.and_false,
              Bool.not_false, Bool.and_true]) rfl
          rw [hindex', hindex, hdir', hdir, hseg', hseg] at hrest
          exact hrest.two hask
      · rw [Bool.not_eq_true] at hskip
        rw [hskip] at hask
        subst hn
        rw [callEvents_one h hskip]
        have hrest := ih recs.length (by omega) hat
          (by omega : recs.length < fuel) (by
          rw [hseg, hindex, skipped, hask, Bool.not_false, Bool.and_true]) rfl
        rw [hindex, hdir, hseg] at hrest
        exact hrest.one hask

/-! ### The constructor -/

/-- The shifts of the constructor's loop. -/
def infosEvents (m : PathMeta) : List InfoField → ℕ → ℕ → List HopEvent
  | [], _, _ => []
  | info :: ifs, i, sum =>
    infoEvents info i (m.segLen i).toNat sum ++ infosEvents m ifs (i + 1) (sum + (m.segLen i).toNat)

theorem scanEvents_complete (m : PathMeta) {ics : List (List UInt8)}
    (h8 : ∀ c ∈ ics, c.length = 8) (rest : List UInt8) :
    ∀ (i sum : ℕ) (pre : List UInt8) (it : RawHopIter),
      it.rs = ReadStream.cursor pre (ics.flatten ++ rest) →
      scanEvents m ics.length i sum it = infosEvents m (ics.map InfoField.ofBytes) i sum
        ++ RawHopIter.nextEvents { it with
          rs := ReadStream.cursor (pre ++ ics.flatten) rest
          hopDir := hopDirMask m (ics.map InfoField.ofBytes) i sum it.hopDir
          segChange := rawSegChange m (ics.map InfoField.ofBytes) i sum it.segChange } := by
  induction ics with
  | nil =>
    intro i sum pre it hrs
    rw [List.flatten_nil, List.nil_append] at hrs
    simp only [List.length_nil, scanEvents, List.flatten_nil, List.append_nil, List.map_nil,
      infosEvents, List.nil_append, hopDirMask, rawSegChange, ← hrs]
  | cons c ics ih =>
    intro i sum pre it hrs
    have hread := InfoField.reads c (h8 c List.mem_cons_self) pre (ics.flatten ++ rest)
    rw [List.length_cons, scanEvents, hrs, List.flatten_cons, List.append_assoc, hread]
    simp only
    rw [ih (fun d hd => h8 d (List.mem_cons_of_mem _ hd)) (i + 1) _ (pre ++ c) _ rfl,
      List.append_assoc pre, List.map_cons, infosEvents, List.append_assoc (infoEvents ..)]
    rfl

/-- The constructor stops at an info field that is not there. -/
theorem scanEvents_short (m : PathMeta) {ics : List (List UInt8)}
    (h8 : ∀ c ∈ ics, c.length = 8) {rest : List UInt8} (hrest : rest.length < 8) (n : ℕ) :
    ∀ (i sum : ℕ) (pre : List UInt8) (it : RawHopIter),
      it.rs = ReadStream.cursor pre (ics.flatten ++ rest) →
      scanEvents m (ics.length + (n + 1)) i sum it
          = infosEvents m (ics.map InfoField.ofBytes) i sum ∧
        (scanInfoFields m (ics.length + (n + 1)) i sum it).stopIteration = true := by
  induction ics with
  | nil =>
    intro i sum pre it hrs
    obtain ⟨e, s, herr⟩ := InfoField.starves pre rest hrest
    rw [List.flatten_nil, List.nil_append] at hrs
    rw [List.length_nil, zero_add, scanEvents, scanInfoFields, hrs, herr]
    exact ⟨rfl, rfl⟩
  | cons c ics ih =>
    intro i sum pre it hrs
    have hread := InfoField.reads c (h8 c List.mem_cons_self) pre (ics.flatten ++ rest)
    rw [List.length_cons, add_right_comm, scanEvents, scanInfoFields, hrs, List.flatten_cons,
      List.append_assoc, hread]
    simp only
    obtain ⟨hevents, hstop⟩ := ih (fun d hd => h8 d (List.mem_cons_of_mem _ hd)) (i + 1)
      (sum + (m.segLen i).toNat) (pre ++ c) { it with
        rs := ReadStream.cursor (pre ++ c) (ics.flatten ++ rest)
        hopDir := if (InfoField.ofBytes c).consDir
          then setSegment it.hopDir (m.segLen i).toNat sum else it.hopDir
        segChange := if !(InfoField.ofBytes c).peering || i == 0
          then it.segChange ||| ((1 : UInt64) <<< UInt64.ofNat sum) else it.segChange } rfl
    exact ⟨by rw [hevents]; rfl, hstop⟩

section

variable {mb : List UInt8} (rest : List UInt8) {ics : List (List UInt8)} (hmb : mb.length = 4)
  (hvalid : (PathMeta.ofBytes mb).Valid) (h8 : ∀ c ∈ ics, c.length = 8)

include hmb hvalid h8

/-- With all info fields there, the walk starts behind them. -/
theorem rawHopEvents_complete (hics : ics.length = (PathMeta.ofBytes mb).segmentCount) :
    rawHopEvents (mb ++ (ics.flatten ++ rest))
      = infosEvents (PathMeta.ofBytes mb) (ics.map InfoField.ofBytes) 0 0
        ++ callEvents ((mb ++ (ics.flatten ++ rest)).length + 1)
          ⟨ReadStream.cursor (mb ++ ics.flatten) rest, false, (0, 0), (0, 0), 0,
            hopDirMask (PathMeta.ofBytes mb) (ics.map InfoField.ofBytes) 0 0 0,
            rawSegChange (PathMeta.ofBytes mb) (ics.map InfoField.ofBytes) 0 0 0⟩ := by
  have hmeta := PathMeta.reads hmb hvalid [] (ics.flatten ++ rest)
  rw [List.nil_append] at hmeta
  rw [rawHopEvents, ofPathEvents, ofPath, ReadStream.ofBuffer_eq, hmeta]
  simp only [← hics]
  rw [scanEvents_complete _ h8 rest 0 0 mb _ rfl, scanInfoFields_eq _ h8 rest 0 0 mb _ rfl,
    List.append_assoc]
  rfl

theorem rawHopEvents_short (hrest : rest.length < 8)
    (hics : ics.length < (PathMeta.ofBytes mb).segmentCount) :
    rawHopEvents (mb ++ (ics.flatten ++ rest))
      = infosEvents (PathMeta.ofBytes mb) (ics.map InfoField.ofBytes) 0 0 := by
  have hmeta := PathMeta.reads hmb hvalid [] (ics.flatten ++ rest)
  rw [List.nil_append] at hmeta
  obtain ⟨n, hn⟩ := Nat.exists_eq_add_of_lt hics
  rw [rawHopEvents, ofPathEvents, ofPath, ReadStream.ofBuffer_eq, hmeta]
  simp only [hn]
  obtain ⟨hevents, hstop⟩ := scanEvents_short (PathMeta.ofBytes mb) h8 hrest n 0 0 mb
    ⟨ReadStream.cursor mb (ics.flatten ++ rest), false, (0, 0), (0, 0), 0, 0, 0⟩ rfl
  rw [collectEvents_of_stop (by exact hstop), List.append_nil]
  exact hevents

end

end RawHopIter

/-! ### Bits of the masks -/

theorem testBit_shiftLeft (x : UInt64) {n i : ℕ} (hn : n < 64) (hi : i < 64) :
    (x <<< UInt64.ofNat n).toNat.testBit i = (decide (n ≤ i) && x.toNat.testBit (i - n)) := by
  have hshift : (UInt64.ofNat n).toNat % 64 = n := by
    rw [UInt64.toNat_ofNat']
    omega
  rw [UInt64.toNat_shiftLeft, hshift, Nat.testBit_mod_two_pow, Nat.testBit_shiftLeft,
    decide_eq_true hi, Bool.true_and]

theorem testBit_not (x : UInt64) {i : ℕ} (hi : i < 64) :
    (~~~x).toNat.testBit i = !x.toNat.testBit i := by
  have hlt : x.toNat < 2 ^ 64 := x.toNat_lt
  have hnot : (~~~x).toNat = 2 ^ 64 - (x.toNat + 1) := by
    rw [UInt64.toNat_not, UInt64.size]
    omega
  rw [hnot, Nat.testBit_two_pow_sub_succ hlt, decide_eq_true hi, Bool.true_and]

/-- The mask of a segment has the bits of its hop fields. -/
theorem testMask_setSegment (hopDir : UInt64) {len sum i : ℕ} (hlen : len < 64) (hsum : sum < 64)
    (hi : i < 64) :
    testMask (setSegment hopDir len sum) i
      = (testMask hopDir i || decide (sum ≤ i ∧ i < sum + len)) := by
  rw [testMask_eq_testBit _ hi, testMask_eq_testBit _ hi, setSegment, UInt64.toNat_or,
    Nat.testBit_or, testBit_shiftLeft _ hsum hi]
  congr 1
  by_cases hlow : sum ≤ i
  · rw [testBit_not _ (by omega), testBit_shiftLeft _ hlen (by omega), testBit_not _ (by omega)]
    simp only [UInt64.toNat_zero, Nat.zero_testBit, Bool.not_false, Bool.and_true, hlow,
      decide_true, Bool.true_and, true_and]
    rw [← decide_not]
    exact decide_eq_decide.mpr (by omega)
  · simp [hlow]

theorem testMask_ite_segment (c : Bool) (hopDir : UInt64) {len sum i : ℕ} (hlen : len < 64)
    (hsum : c = true → sum < 64) (hi : i < 64) :
    testMask (if c = true then setSegment hopDir len sum else hopDir) i = true ↔
      testMask hopDir i = true ∨ (c = true ∧ sum ≤ i ∧ i < sum + len) := by
  cases c with
  | false => simp
  | true => simp [testMask_setSegment hopDir hlen (hsum rfl) hi]

/-- The first hop field of the segment `k` segments behind segment `i`, which
begins at `sum`. -/
def segStart (m : PathMeta) (i sum k : ℕ) : ℕ :=
  sum + ((List.range k).map fun j => (m.segLen (i + j)).toNat).sum

theorem segStart_zero (m : PathMeta) (i sum : ℕ) : segStart m i sum 0 = sum := rfl

theorem segStart_succ (m : PathMeta) (i sum k : ℕ) :
    segStart m i sum (k + 1) = segStart m (i + 1) (sum + (m.segLen i).toNat) k := by
  rw [segStart, segStart, List.range_succ_eq_map, List.map_cons, List.map_map, List.sum_cons,
    add_zero, add_assoc]
  congr 3
  refine List.map_congr_left fun j _ => ?_
  rw [Function.comp_apply, Nat.succ_eq_add_one, add_right_comm, add_assoc]

theorem segStart_eq_segmentBegin (m : PathMeta) {k : ℕ} (hk : k ≤ 3) :
    segStart m 0 0 k = m.segmentBegin k := by
  match k with
  | 0 => rfl
  | 1 => simp [segStart, PathMeta.segmentBegin, PathMeta.segLen]
  | 2 => simp [segStart, PathMeta.segmentBegin, PathMeta.segLen, List.range_succ]
  | 3 => simp [segStart, PathMeta.segmentBegin, PathMeta.segLen, List.range_succ,
      PathMeta.hopFieldCount, add_assoc]

/-- The direction mask has the bits of the segments in construction direction. -/
theorem testMask_hopDirMask_iff {m : PathMeta} (hlens : ∀ i, (m.segLen i).toNat < 64) {i : ℕ}
    (hi : i < 64) {ifs : List InfoField} : ∀ (t sum : ℕ) (hopDir : UInt64),
      (∀ k info, ifs[k]? = some info → info.consDir = true → segStart m t sum k < 64) →
      (testMask (hopDirMask m ifs t sum hopDir) i = true ↔ testMask hopDir i = true ∨
        ∃ k info, ifs[k]? = some info ∧ info.consDir = true ∧ segStart m t sum k ≤ i ∧
          i < segStart m t sum (k + 1)) := by
  induction ifs with
  | nil =>
    intro t sum hopDir _
    rw [hopDirMask]
    simp
  | cons info ifs ih =>
    intro t sum hopDir hstarts
    have hhead := testMask_ite_segment info.consDir hopDir (hlens t)
      (fun h => show sum < 64 from hstarts 0 info rfl h) hi
    have htail := ih (t + 1) (sum + (m.segLen t).toNat)
      (if info.consDir = true then setSegment hopDir (m.segLen t).toNat sum else hopDir)
      fun k info' hk hc => segStart_succ m t sum k ▸ hstarts (k + 1) info' hk hc
    rw [hopDirMask, htail, hhead, or_assoc]
    refine or_congr_right ?_
    constructor
    · rintro (⟨hc, hlow, hhigh⟩ | ⟨k, info', hk, hc, hlow, hhigh⟩)
      · refine ⟨0, info, rfl, hc, hlow, ?_⟩
        rw [segStart_succ, segStart_zero]
        exact hhigh
      · refine ⟨k + 1, info', hk, hc, ?_, ?_⟩
        · rw [segStart_succ]
          exact hlow
        · rw [segStart_succ]
          exact hhigh
    · rintro ⟨k, info', hk, hc, hlow, hhigh⟩
      cases k with
      | zero =>
        cases hk
        rw [segStart_succ, segStart_zero] at hhigh
        exact .inl ⟨hc, hlow, hhigh⟩
      | succ k =>
        rw [segStart_succ] at hlow hhigh
        exact .inr ⟨k, info', hk, hc, hlow, hhigh⟩

/-- The direction of a hop field is that of its segment, as long as no segment in
construction direction begins beyond the mask. -/
theorem testMask_hopDirMask {m : PathMeta} {ifs : List InfoField} (hvalid : m.Valid)
    (hifs : ifs.length = m.segmentCount) (hlens : ∀ i, (m.segLen i).toNat < 64)
    (hthird : ∀ info, ifs[2]? = some info → info.consDir = true →
      m.seg0.toNat + m.seg1.toNat < 64)
    {seg i : ℕ} (hlow : m.segmentBegin seg ≤ i) (hhigh : i < m.segmentBegin (seg + 1))
    (hi : i < 64) :
    ∃ info, ifs[seg]? = some info ∧ testMask (hopDirMask m ifs 0 0 0) i = info.consDir := by
  have hcount : i < m.hopFieldCount := by
    refine lt_of_lt_of_le hhigh ?_
    by_cases hseg : seg < 2
    · interval_cases seg <;> simp only [PathMeta.segmentBegin, PathMeta.hopFieldCount] <;> omega
    · obtain ⟨n, rfl⟩ := Nat.exists_eq_add_of_le' (not_lt.mp hseg)
      exact le_refl m.hopFieldCount
  have hseg := (PathMeta.segmentOf_eq_iff hcount).mpr ⟨hlow, hhigh⟩
  have hthree : ∀ k info, ifs[k]? = some info → k < 3 := by
    intro k info hk
    obtain ⟨hlt, -⟩ := List.getElem?_eq_some_iff.mp hk
    rcases hvalid.segments with ⟨hn, -⟩ | ⟨hn, -⟩ | ⟨hn, -⟩ <;> omega
  have hlt : seg < ifs.length := by
    rw [hifs, ← hseg]
    exact hvalid.segmentOf_lt hcount
  have hstarts : ∀ k info, ifs[k]? = some info → info.consDir = true → segStart m 0 0 k < 64 := by
    intro k info hk hc
    rw [segStart_eq_segmentBegin m (by have := hthree k info hk; omega)]
    have hk3 := hthree k info hk
    interval_cases k
    · exact (by norm_num : 0 < 64)
    · exact hlens 0
    · exact hthird info hk hc
  have hmask := testMask_hopDirMask_iff hlens hi 0 0 0 hstarts
  refine ⟨ifs[seg], List.getElem?_eq_getElem hlt, Bool.eq_iff_iff.mpr (hmask.trans ?_)⟩
  rw [testMask_zero]
  constructor
  · rintro (h | ⟨k, info, hk, hc, hbegin, hend⟩)
    · cases h
    · have hk3 := hthree k info hk
      rw [segStart_eq_segmentBegin m (by omega)] at hbegin hend
      have hsame := (PathMeta.segmentOf_eq_iff hcount).mpr ⟨hbegin, hend⟩
      rw [hseg] at hsame
      subst hsame
      rw [List.getElem?_eq_getElem hlt, Option.some.injEq] at hk
      rw [hk]
      exact hc
  · intro hc
    have hk3 := hthree seg _ (List.getElem?_eq_getElem hlt)
    refine .inr ⟨seg, _, List.getElem?_eq_getElem hlt, hc, ?_, ?_⟩
    · rw [segStart_eq_segmentBegin m (by omega)]
      exact hlow
    · rw [segStart_eq_segmentBegin m (by omega)]
      exact hhigh

/-! ### Shifts of the constructor -/

/-- The third info field is marked beyond the mask. -/
def MarksBeyond (m : PathMeta) (info : InfoField) : Prop :=
  64 ≤ m.seg0.toNat + m.seg1.toNat ∧ ¬ (info.consDir = false ∧ info.peering = true)

theorem mem_infoEvents {info : InfoField} {i len sum amount : ℕ} :
    .shift amount ∈ infoEvents info i len sum ↔
      info.consDir = true ∧ (amount = len ∨ amount = sum) ∨
        (info.peering = false ∨ i = 0) ∧ amount = sum := by
  rw [infoEvents, dirEvents, List.mem_append]
  cases info.consDir <;> cases info.peering <;> by_cases hi : i = 0 <;> simp [hi]

theorem visit_not_mem_infosEvents (m : PathMeta) {i : ℕ} {consDir : Bool} :
    ∀ (ifs : List InfoField) (t sum : ℕ), .visit i consDir ∉ RawHopIter.infosEvents m ifs t sum := by
  intro ifs
  induction ifs with
  | nil => exact fun _ _ => List.not_mem_nil
  | cons info ifs ih =>
    intro t sum hmem
    rw [RawHopIter.infosEvents, List.mem_append] at hmem
    rcases hmem with hmem | hmem
    · rw [infoEvents, dirEvents] at hmem
      cases info.consDir <;> cases info.peering <;> by_cases ht : t = 0 <;> simp [ht] at hmem
    · exact ih _ _ hmem

/-- Only the third info field can be marked beyond the mask. -/
theorem infosEvents_lt_iff {m : PathMeta} (hlens : ∀ i, (m.segLen i).toNat < 64)
    {ifs : List InfoField} (hthree : ifs.length ≤ 3) :
    (∀ amount, .shift amount ∈ RawHopIter.infosEvents m ifs 0 0 → amount < 64) ↔
      ∀ info, ifs[2]? = some info → ¬ MarksBeyond m info := by
  have hlen0 : m.seg0.toNat < 64 := hlens 0
  have hlen1 : m.seg1.toNat < 64 := hlens 1
  have hlen2 : m.seg2.toNat < 64 := hlens 2
  match ifs with
  | [] => simp [RawHopIter.infosEvents]
  | [i0] =>
    refine iff_of_true (fun amount hmem => ?_) (by simp)
    simp only [RawHopIter.infosEvents, List.append_nil, mem_infoEvents, PathMeta.segLen] at hmem
    omega
  | [i0, i1] =>
    refine iff_of_true (fun amount hmem => ?_) (by simp)
    simp only [RawHopIter.infosEvents, List.append_nil, List.mem_append, mem_infoEvents,
      PathMeta.segLen] at hmem
    omega
  | [i0, i1, i2] =>
    have hmem : ∀ amount, .shift amount ∈ RawHopIter.infosEvents m [i0, i1, i2] 0 0 ↔
        .shift amount ∈ infoEvents i0 0 m.seg0.toNat 0 ∨
          .shift amount ∈ infoEvents i1 1 m.seg1.toNat m.seg0.toNat ∨
          .shift amount ∈ infoEvents i2 2 m.seg2.toNat (m.seg0.toNat + m.seg1.toNat) := by
      intro amount
      simp only [RawHopIter.infosEvents, List.append_nil, List.mem_append, PathMeta.segLen, zero_add]
    constructor
    · rintro hall info hinfo ⟨hfar, hmarked⟩
      cases hinfo
      refine absurd (hall _ ((hmem _).mpr (.inr (.inr (mem_infoEvents.mpr ?_))))) (not_lt.mpr hfar)
      cases hc : i2.consDir with
      | true => exact .inl ⟨rfl, .inr rfl⟩
      | false =>
        cases hp : i2.peering with
        | true => exact absurd ⟨hc, hp⟩ hmarked
        | false => exact .inr ⟨.inl rfl, rfl⟩
    · intro hnone amount h
      have hnot := hnone i2 rfl
      rw [MarksBeyond] at hnot
      rcases (hmem _).mp h with h | h | h <;> rw [mem_infoEvents] at h
      · omega
      · omega
      · rcases h with ⟨hc, h⟩ | ⟨hp, h⟩
        · have hsum : m.seg0.toNat + m.seg1.toNat < 64 := by
            by_contra hfar
            exact hnot ⟨not_lt.mp hfar, fun h => by rw [hc] at h; cases h.1⟩
          omega
        · have hsum : m.seg0.toNat + m.seg1.toNat < 64 := by
            by_contra hfar
            exact hnot ⟨not_lt.mp hfar, fun h => by
              rcases hp with hp | hp
              · rw [hp] at h
                cases h.2
              · omega⟩
          omega

/-! ### Decoded paths -/

namespace DecodedScionPath

theorem mem_dirMaskEvents {m : PathMeta} {event : HopEvent} :
    ∀ {ifs : List InfoField} {t sum : ℕ}, event ∈ dirMaskEvents m ifs t sum →
      ∃ k info, ifs[k]? = some info ∧
        (event = .shift (m.segLen (t + k)).toNat ∨ event = .shift (segStart m t sum k)) := by
  intro ifs
  induction ifs with
  | nil => exact fun h => absurd h List.not_mem_nil
  | cons info ifs ih =>
    intro t sum hmem
    rw [dirMaskEvents, List.mem_append] at hmem
    rcases hmem with hmem | hmem
    · refine ⟨0, info, rfl, ?_⟩
      rw [dirEvents] at hmem
      split_ifs at hmem
      · simpa [segStart_zero] using hmem
      · exact absurd hmem List.not_mem_nil
    · obtain ⟨k, info', hk, hevent⟩ := ih hmem
      refine ⟨k + 1, info', hk, ?_⟩
      rw [segStart_succ, show t + (k + 1) = t + 1 + k by omega]
      exact hevent

theorem mem_segChangeEvents {p : DecodedScionPath} {event : HopEvent}
    (h : event ∈ p.segChangeEvents) :
    event = .shift (p.metaHeader.seg0.toNat - 1) ∨
      event = .shift (p.metaHeader.seg0.toNat + p.metaHeader.seg1.toNat - 1) := by
  rw [segChangeEvents] at h
  split at h
  · exact absurd h List.not_mem_nil
  · split_ifs at h
    · simpa using h
    · exact absurd h List.not_mem_nil

section Consistent

variable {p : DecodedScionPath}

/-- With three segments, the third one begins within the first 64 hop fields. -/
theorem third_lt (hcons : p.Consistent) (hvalid : p.metaHeader.Valid) (hmax : p.hfs.length ≤ 64)
    {info : InfoField} (hinfo : p.ifs[2]? = some info) :
    p.metaHeader.seg0.toNat + p.metaHeader.seg1.toNat < 64 := by
  have hcount : p.metaHeader.seg0.toNat + p.metaHeader.seg1.toNat + p.metaHeader.seg2.toNat
      = p.hfs.length := hcons.2.symm
  obtain ⟨hlt, -⟩ := List.getElem?_eq_some_iff.mp hinfo
  rw [hcons.1] at hlt
  rcases hvalid.segments with ⟨hn, -⟩ | ⟨hn, -⟩ | ⟨-, -, -, h2⟩ <;> omega

/-- The mask of directions is made with shifts by less than 64. -/
theorem dirMaskEvents_lt (hcons : p.Consistent) (hvalid : p.metaHeader.Valid)
    (hlens : ∀ i, (p.metaHeader.segLen i).toNat < 64) (hmax : p.hfs.length ≤ 64) :
    ∀ event ∈ dirMaskEvents p.metaHeader p.ifs 0 0, ∃ amount < 64, event = .shift amount := by
  intro event hmem
  obtain ⟨k, info, hk, hevent⟩ := mem_dirMaskEvents hmem
  rcases hevent with hevent | hevent
  · exact ⟨_, hlens _, hevent⟩
  · refine ⟨_, ?_, hevent⟩
    obtain ⟨hlt, -⟩ := List.getElem?_eq_some_iff.mp hk
    have hthree : k < 3 := by
      rw [hcons.1] at hlt
      rcases hvalid.segments with ⟨hn, -⟩ | ⟨hn, -⟩ | ⟨hn, -⟩ <;> omega
    rw [segStart_eq_segmentBegin _ hthree.le]
    match k with
    | 0 => exact (by norm_num : 0 < 64)
    | 1 => exact hlens 0
    | 2 => exact third_lt hcons hvalid hmax hk

/-- A hop field is visited in the direction that the mask has for it. -/
theorem mem_hopEvents_visit_iff (hcons : p.Consistent) (hvalid : p.metaHeader.Valid)
    (hlens : ∀ i, (p.metaHeader.segLen i).toNat < 64) (hmax : p.hfs.length ≤ 64) {i : ℕ}
    (hi : i < p.hfs.length) {consDir : Bool} :
    .visit i consDir ∈ p.hopEvents ↔
      consDir = testMask (hopDirMask p.metaHeader p.ifs 0 0 0) i := by
  rw [hopEvents, List.mem_append, List.mem_append, List.mem_append]
  constructor
  · rintro (hmem | hmem | hmem | hmem)
    · obtain ⟨a, -, heq⟩ := dirMaskEvents_lt hcons hvalid hlens hmax _ hmem
      cases heq
    · rcases mem_segChangeEvents hmem with h | h <;> cases h
    · obtain ⟨j, -, hevent⟩ := List.mem_flatMap.mp hmem
      simp only [List.mem_cons, reduceCtorEq, HopEvent.visit.injEq, List.not_mem_nil, or_false,
        false_or] at hevent
      obtain ⟨rfl, rfl⟩ := hevent
      rfl
    · obtain ⟨j, -, hevent⟩ := List.mem_map.mp hmem
      cases hevent
  · rintro rfl
    refine .inr (.inr (.inl (List.mem_flatMap.mpr ⟨i, List.mem_range.mpr hi, ?_⟩)))
    simp

/-- Up to 64 hop fields fit the masks. -/
theorem masked_hopEvents (hcons : p.Consistent) (hvalid : p.metaHeader.Valid)
    (hlens : ∀ i, (p.metaHeader.segLen i).toNat < 64) (hmax : p.hfs.length ≤ 64) :
    Masked p.hopEvents p.metaHeader (fun seg => p.ifs.getD seg InfoField.default)
      (fun i => i < p.hfs.length) := by
  have hcount : p.metaHeader.seg0.toNat + p.metaHeader.seg1.toNat + p.metaHeader.seg2.toNat
      = p.hfs.length := hcons.2.symm
  have hlen0 : p.metaHeader.seg0.toNat < 64 := hlens 0
  constructor
  · intro amount hmem
    rw [hopEvents, List.mem_append, List.mem_append, List.mem_append] at hmem
    rcases hmem with hmem | hmem | hmem | hmem
    · obtain ⟨a, ha, heq⟩ := dirMaskEvents_lt hcons hvalid hlens hmax _ hmem
      cases heq
      exact ha
    · have hchange := mem_segChangeEvents hmem
      simp only [HopEvent.shift.injEq] at hchange
      omega
    · obtain ⟨i, hi, hevent⟩ := List.mem_flatMap.mp hmem
      simp only [List.mem_cons, HopEvent.shift.injEq, reduceCtorEq, List.not_mem_nil, or_self,
        or_false] at hevent
      rw [List.mem_range] at hi
      omega
    · obtain ⟨i, hi, hevent⟩ := List.mem_map.mp hmem
      cases hevent
      rw [List.mem_range] at hi
      omega
  · intro seg i hlow hhigh hi
    obtain ⟨info, hinfo, hmask⟩ := testMask_hopDirMask hvalid hcons.1 hlens
      (fun info h _ => third_lt hcons hvalid hmax h) hlow hhigh (lt_of_lt_of_le hi hmax)
    have hown : p.ifs.getD seg InfoField.default = info := by
      rw [List.getD_eq_getElem?_getD, hinfo]
      rfl
    have hvisit (consDir : Bool) : .visit i consDir ∈ p.hopEvents ↔
        consDir = testMask (hopDirMask p.metaHeader p.ifs 0 0 0) i :=
      mem_hopEvents_visit_iff hcons hvalid hlens hmax hi
    simp only [hown]
    rw [← hmask]
    exact ⟨(hvisit _).mpr rfl, fun consDir h => (hvisit consDir).mp h⟩

end Consistent

end DecodedScionPath

/-! ### Which paths fit -/

/-- A hop field with index 63 is the first of a segment that is left out at the
segment change, and the walk asks for it. -/
def LastBegins (m : PathMeta) (info : ℕ → InfoField) : Prop :=
  2 ≤ m.segmentCount ∧ (info 1).peering = false ∧ m.seg0.toNat = 63 ∨
    m.segmentCount = 3 ∧ (info 2).peering = false ∧ m.seg0.toNat + m.seg1.toNat = 63 ∧
      ¬ ((info 1).peering = false ∧ m.seg1.toNat = 1)

theorem rawSegChange_peering (m : PathMeta) (i0 i1 i2 : InfoField) (h : i2.peering = true) :
    rawSegChange m [i0, i1, i2] 0 0 0 = rawSegChange m [i0, i1] 0 0 0 := by
  simp only [rawSegChange, h]
  rfl

/-- The walk leaves out the joint in front of the second segment. -/
def LeavesFirst (m : PathMeta) (info : ℕ → InfoField) : Prop :=
  2 ≤ m.segmentCount ∧ (info 1).peering = false ∧ m.seg0.toNat ≠ 1

/-- The walk leaves out the joint in front of the third segment. -/
def LeavesSecond (m : PathMeta) (info : ℕ → InfoField) : Prop :=
  m.segmentCount = 3 ∧ (info 2).peering = false ∧ ¬ (LeavesFirst m info ∧ m.seg1.toNat = 1)

section

variable {m : PathMeta} {ifs : List InfoField} {info : ℕ → InfoField} (hvalid : m.Valid)
  (hifs : ifs.length = m.segmentCount) (hinfo : ∀ seg < m.segmentCount, ifs[seg]? = some (info seg))
  (hlens : ∀ i, (m.segLen i).toNat < 64) (hnone : ∀ i2, ifs[2]? = some i2 → ¬ MarksBeyond m i2)

include hvalid hifs hinfo hlens hnone

/-- The hop fields at which the walk takes two steps. -/
theorem skipped_rawSegChange_iff {j : ℕ} (hj : j < 64) :
    skipped (testMask (rawSegChange m ifs 0 0 0)) j = true ↔
      j = 0 ∨ (LeavesFirst m info ∧ j = m.seg0.toNat) ∨
        (LeavesSecond m info ∧ j = m.seg0.toNat + m.seg1.toNat) := by
  have hlen0 : m.seg0.toNat < 64 := hlens 0
  rw [LeavesSecond, LeavesFirst]
  rcases hvalid.segments with ⟨hn, h0, h1, h2⟩ | ⟨hn, h0, h1, h2⟩ | ⟨hn, h0, h1, h2⟩
  · obtain ⟨i0, rfl⟩ := List.length_eq_one_iff.mp (hifs.trans hn)
    have hmask : ∀ j < 64, testMask (rawSegChange m [i0] 0 0 0) j = true ↔
        j = 0 ∨ (false = true ∧ j = 1) ∨ (false = true ∧ j = 2) := by
      intro j hj
      rw [rawSegChange_one _ _ hj]
      simp
    rw [skipped_iff (by omega) (by omega) hmask j hj]
    simp [hn]
  · obtain ⟨i0, i1, rfl⟩ := List.length_eq_two.mp (hifs.trans hn)
    have hi1 : i1 = info 1 := Option.some.inj (hinfo 1 (by omega))
    have hmask : ∀ j < 64, testMask (rawSegChange m [i0, i1] 0 0 0) j = true ↔
        j = 0 ∨ ((!i1.peering) = true ∧ j = m.seg0.toNat) ∨
          (false = true ∧ j = m.seg0.toNat + 1) := by
      intro j hj
      rw [rawSegChange_two _ _ _ hlen0 hj]
      simp
    rw [skipped_iff h0 (by omega) hmask j hj, hn, ← hi1]
    cases i1.peering
    · simp
      omega
    · simp
  · obtain ⟨i0, i1, i2, rfl⟩ := List.length_eq_three.mp (hifs.trans hn)
    have hi1 : i1 = info 1 := Option.some.inj (hinfo 1 (by omega))
    have hi2 : i2 = info 2 := Option.some.inj (hinfo 2 (by omega))
    have hnot := hnone i2 rfl
    rw [MarksBeyond] at hnot
    have hmask : ∀ j < 64, testMask (rawSegChange m [i0, i1, i2] 0 0 0) j = true ↔
        j = 0 ∨ ((!i1.peering) = true ∧ j = m.seg0.toNat) ∨
          ((!i2.peering) = true ∧ j = m.seg0.toNat + m.seg1.toNat) := by
      intro j hj
      by_cases hfar : 64 ≤ m.seg0.toNat + m.seg1.toNat
      · have hpeer : i2.peering = true := by
          by_contra hp
          exact hnot ⟨hfar, fun h => hp h.2⟩
        rw [rawSegChange_peering _ _ _ _ hpeer, rawSegChange_two _ _ _ hlen0 hj, hpeer]
        simp
      · exact rawSegChange_three m i0 i1 i2 hlen0 (not_le.mp hfar) hj
    rw [skipped_iff h0 (by omega) hmask j hj, hn, ← hi1, ← hi2]
    cases i1.peering <;> cases i2.peering <;> simp <;> omega

/-- The walk takes two steps at index 63 when a segment begins there. -/
theorem skipped_last_iff :
    skipped (testMask (rawSegChange m ifs 0 0 0)) 63 = true ↔ LastBegins m info := by
  have hlen0 : m.seg0.toNat < 64 := hlens 0
  rw [skipped_rawSegChange_iff hvalid hifs hinfo hlens hnone (by norm_num), LastBegins,
    LeavesSecond, LeavesFirst]
  have hcount : m.segmentCount = 1 ∨ m.segmentCount = 2 ∨ m.segmentCount = 3 := by
    rcases hvalid.segments with ⟨hn, -⟩ | ⟨hn, -⟩ | ⟨hn, -⟩ <;> omega
  rcases hcount with hn | hn | hn <;> rw [hn] <;> cases (info 1).peering <;>
    cases (info 2).peering <;> simp <;> omega

end

/-- The info field of a segment in a buffer. -/
def infoAt (buffer : List UInt8) (seg : ℕ) : InfoField :=
  InfoField.ofBytes (slice buffer (4 + seg * 8) 8)

/-- Loops over the hops of a raw path and of the path decoded from it stay within
the masks. -/
def HopsMasked (buffer : List UInt8) (m : PathMeta) : Prop :=
  Masked (rawHopEvents buffer) m (infoAt buffer)
      (fun i => 4 + m.segmentCount * 8 + (i + 1) * 12 ≤ buffer.length) ∧
    ∀ (source destination : IsdAsn) (p : DecodedScionPath) (rs : ReadStream),
      (DecodedScionPath.make source destination).read (ReadStream.ofBuffer buffer) = .ok p rs →
      Masked p.hopEvents p.metaHeader (fun seg => p.ifs.getD seg InfoField.default)
        (fun i => i < p.hfs.length)

/-- There is room for at most 63 hop fields behind the info fields, or for 64 if
the last one begins a segment, and the third segment is not marked beyond the
masks. -/
def FitsMasks (buffer : List UInt8) (m : PathMeta) : Prop :=
  let records := (buffer.length - (4 + m.segmentCount * 8)) / 12
  (m.segmentCount = 3 → 28 ≤ buffer.length → ¬ MarksBeyond m (infoAt buffer 2)) ∧
    (records ≤ 63 ∨ records = 64 ∧ LastBegins m (infoAt buffer))

theorem segLen_ofBytes_lt (mb : List UInt8) (i : ℕ) :
    ((PathMeta.ofBytes mb).segLen i).toNat < 64 := by
  have hfield : ∀ n : ℕ, (UInt8.ofNat (n % 2 ^ 6)).toNat < 64 := by
    intro n
    rw [UInt8.toNat_ofNat']
    omega
  match i with
  | 0 => exact hfield _
  | 1 => exact hfield _
  | n + 2 => exact hfield _

/-- A path that is decoded has all its fields in the buffer. -/
theorem length_of_read {source destination : IsdAsn} {mb post : List UInt8} (hmb : mb.length = 4)
    (hvalid : (PathMeta.ofBytes mb).Valid) {p : DecodedScionPath} {rs : ReadStream}
    (h : (DecodedScionPath.make source destination).read (ReadStream.ofBuffer (mb ++ post))
      = .ok p rs) :
    p.metaHeader = PathMeta.ofBytes mb ∧
      (PathMeta.ofBytes mb).segmentCount * 8 + p.hfs.length * 12 ≤ post.length := by
  have hmeta := PathMeta.reads hmb hvalid [] post
  rw [List.nil_append] at hmeta
  rw [DecodedScionPath.read, ReadStream.ofBuffer_eq, bind_ok hmeta] at h
  obtain ⟨ifs, s₂, hinfos, h⟩ := bind_eq_ok.mp h
  obtain ⟨ics, rest₂, rfl, hics, hics8, rfl, rfl⟩ :=
    readN_eq_ok InfoField.reads InfoField.starves hinfos
  obtain ⟨hfs, s₃, hhops, h⟩ := bind_eq_ok.mp h
  obtain ⟨hcs, rest₃, rfl, hhcs, hhcs12, rfl, rfl⟩ :=
    readN_eq_ok HopField.reads HopField.starves hhops
  cases h
  refine ⟨rfl, ?_⟩
  rw [List.length_append, List.length_append, length_flatten hics8, length_flatten hhcs12,
    List.length_map, hics, ← add_assoc]
  exact Nat.le_add_right _ _

theorem infoAt_append {mb : List UInt8} (rest : List UInt8) {ics : List (List UInt8)} (hmb : mb.length = 4)
    (h8 : ∀ c ∈ ics, c.length = 8) {seg : ℕ} (hseg : seg < ics.length) :
    (ics.map InfoField.ofBytes)[seg]? = some (infoAt (mb ++ (ics.flatten ++ rest)) seg) := by
  have hroom : seg * 8 + 8 ≤ ics.flatten.length := by
    rw [length_flatten h8]
    omega
  rw [infoAt, ← hmb, slice_append_right, slice_append_left _ _ _ _ hroom, slice_flatten h8 hseg,
    List.getElem?_map, List.getElem?_eq_getElem hseg]
  rfl

/-- With an info field missing, no hop field is there. -/
theorem hopsMasked_short {mb post : List UInt8} (hmb : mb.length = 4)
    (hvalid : (PathMeta.ofBytes mb).Valid)
    (hshort : post.length < (PathMeta.ofBytes mb).segmentCount * 8) :
    HopsMasked (mb ++ post) (PathMeta.ofBytes mb) := by
  obtain ⟨ics, hics, h8, hflat⟩ := exists_records (w := 8) (post.length / 8)
    (post.take (post.length / 8 * 8)) (by rw [List.length_take]; omega)
  have hpost : post = ics.flatten ++ post.drop (post.length / 8 * 8) := by
    rw [hflat, List.take_append_drop]
  have hevents := RawHopIter.rawHopEvents_short (post.drop (post.length / 8 * 8)) hmb hvalid h8
    (by rw [List.length_drop]; omega) (by rw [hics]; omega)
  rw [← hpost] at hevents
  have htwo : ics.length ≤ 2 := by
    rcases hvalid.segments with ⟨hn, -⟩ | ⟨hn, -⟩ | ⟨hn, -⟩ <;> omega
  refine ⟨⟨?_, ?_⟩, ?_⟩
  · rw [hevents, infosEvents_lt_iff (segLen_ofBytes_lt mb) (by rw [List.length_map]; omega)]
    intro info hinfo
    obtain ⟨hlt, -⟩ := List.getElem?_eq_some_iff.mp hinfo
    rw [List.length_map] at hlt
    omega
  · intro seg i _ _ hpresent
    rw [List.length_append] at hpresent
    omega
  · intro source destination p rs hread
    have hlen := (length_of_read hmb hvalid hread).2
    omega

section

variable {mb : List UInt8} (rest : List UInt8) {ics : List (List UInt8)} (hmb : mb.length = 4)
  (hvalid : (PathMeta.ofBytes mb).Valid) (h8 : ∀ c ∈ ics, c.length = 8)
  (hics : ics.length = (PathMeta.ofBytes mb).segmentCount)

include hmb hvalid h8 hics

/-- Behind the info fields the walk covers what there is room for. -/
theorem exists_covers : ∃ walk,
    rawHopEvents (mb ++ (ics.flatten ++ rest))
      = RawHopIter.infosEvents (PathMeta.ofBytes mb) (ics.map InfoField.ofBytes) 0 0 ++ walk ∧
    RawHopIter.Covers walk 0 (rest.length / 12)
      (testMask (rawSegChange (PathMeta.ofBytes mb) (ics.map InfoField.ofBytes) 0 0 0))
      (testMask (hopDirMask (PathMeta.ofBytes mb) (ics.map InfoField.ofBytes) 0 0 0)) := by
  obtain ⟨hcs, hhcs, h12, hhops⟩ := exists_records (w := 12) (rest.length / 12)
    (rest.take (rest.length / 12 * 12)) (by rw [List.length_take]; omega)
  refine ⟨_, RawHopIter.rawHopEvents_complete rest hmb hvalid h8 hics, ?_⟩
  rw [← hhcs]
  exact RawHopIter.covers_callEvents
    ⟨rfl, h12, mb ++ ics.flatten, rest.drop (rest.length / 12 * 12),
      by rw [List.length_drop]; omega, by rw [hhops, List.take_append_drop]⟩
    (by rw [hhcs, List.length_append, List.length_append]; omega) rfl

/-- The shifts of a loop over a raw path. -/
theorem rawShifts_lt_iff :
    (∀ amount, .shift amount ∈ rawHopEvents (mb ++ (ics.flatten ++ rest)) → amount < 64) ↔
      (∀ info, (ics.map InfoField.ofBytes)[2]? = some info →
        ¬ MarksBeyond (PathMeta.ofBytes mb) info) ∧
      (rest.length / 12 ≤ 63 ∨ rest.length / 12 = 64 ∧ skipped
        (testMask (rawSegChange (PathMeta.ofBytes mb) (ics.map InfoField.ofBytes) 0 0 0)) 63
          = true) := by
  have hthree : (ics.map InfoField.ofBytes).length ≤ 3 := by
    rw [List.length_map, hics]
    rcases hvalid.segments with ⟨hn, -⟩ | ⟨hn, -⟩ | ⟨hn, -⟩ <;> omega
  have hinfos := infosEvents_lt_iff (segLen_ofBytes_lt mb) hthree
  obtain ⟨walk, hevents, hcovers⟩ := exists_covers rest hmb hvalid h8 hics
  rw [hevents]
  constructor
  · intro hall
    refine ⟨hinfos.mp fun amount hmem => hall amount (List.mem_append_left _ hmem), ?_⟩
    by_contra hnot
    obtain ⟨hlong, hlast⟩ := not_or.mp hnot
    have hbeyond := (hcovers.shift_iff 64).mpr (by
      by_cases hexact : rest.length / 12 = 64
      · exact .inr ⟨by omega, .inr (Bool.eq_false_iff.mpr fun h => hlast ⟨hexact, h⟩)⟩
      · exact .inl ⟨Nat.zero_le _, by omega⟩)
    exact absurd (hall 64 (List.mem_append_right _ hbeyond)) (lt_irrefl 64)
  · rintro ⟨hnone, hroom⟩ amount hmem
    rcases List.mem_append.mp hmem with hmem | hmem
    · exact hinfos.mpr hnone amount hmem
    · rcases (hcovers.shift_iff amount).mp hmem with ⟨-, hlt⟩ | ⟨rfl, hlast⟩
      · omega
      · rw [zero_add] at hlast ⊢
        rcases hroom with hroom | ⟨hexact, hskipped⟩
        · omega
        · -- the last hop field is the first of two steps
          rw [hexact] at hlast
          rcases hlast with hlast | hlast
          · cases hlast
          · rw [hskipped] at hlast
            cases hlast

/-- The hop fields of a raw path are taken in the direction of their segments. -/
theorem visit_rawHopEvents_iff
    (hnone : ∀ info, (ics.map InfoField.ofBytes)[2]? = some info →
      ¬ MarksBeyond (PathMeta.ofBytes mb) info) (hmax : rest.length / 12 ≤ 64) {seg i : ℕ}
    (hlow : (PathMeta.ofBytes mb).segmentBegin seg ≤ i)
    (hhigh : i < (PathMeta.ofBytes mb).segmentBegin (seg + 1)) (hi : i < rest.length / 12)
    (consDir : Bool) :
    .visit i consDir ∈ rawHopEvents (mb ++ (ics.flatten ++ rest)) ↔
      consDir = (infoAt (mb ++ (ics.flatten ++ rest)) seg).consDir := by
  obtain ⟨walk, hevents, hcovers⟩ := exists_covers rest hmb hvalid h8 hics
  obtain ⟨info, hinfo, hdir⟩ := testMask_hopDirMask hvalid
    (by rw [List.length_map, hics] : (ics.map InfoField.ofBytes).length = _)
    (segLen_ofBytes_lt mb) (fun info hthird hc => by
      by_contra hsum
      exact hnone info hthird ⟨not_lt.mp hsum, fun h => by rw [hc] at h; cases h.1⟩)
    hlow hhigh (lt_of_lt_of_le hi hmax)
  have hseg : seg < ics.length := by
    obtain ⟨hlt, -⟩ := List.getElem?_eq_some_iff.mp hinfo
    rwa [List.length_map] at hlt
  rw [infoAt_append rest hmb h8 hseg, Option.some.injEq] at hinfo
  rw [hevents, List.mem_append, hcovers.visit_iff, hinfo, ← hdir]
  constructor
  · rintro (hmem | ⟨-, -, heq⟩)
    · exact absurd hmem (visit_not_mem_infosEvents _ _ 0 0)
    · exact heq
  · exact fun heq => .inr ⟨Nat.zero_le _, by omega, heq⟩

end

/-- The iteration stays within the masks exactly when the hop fields do: the raw
iterator goes on to the end of the buffer and looks once behind it. -/
theorem masked_iff {buffer : List UInt8} {m : PathMeta} {rs : ReadStream}
    (h : PathMeta.read (ReadStream.ofBuffer buffer) = .ok m rs) :
    HopsMasked buffer m ↔ FitsMasks buffer m := by
  rw [ReadStream.ofBuffer_eq] at h
  obtain ⟨mb, post, rfl, hmb, rfl, hvalid, -⟩ := PathMeta.read_eq_ok h
  have hlens := segLen_ofBytes_lt mb
  by_cases hshort : post.length < (PathMeta.ofBytes mb).segmentCount * 8
  · refine iff_of_true (hopsMasked_short hmb hvalid hshort) ⟨?_, .inl ?_⟩
    · intro hthree hlong
      rw [List.length_append] at hlong
      omega
    · rw [List.length_append]
      omega
  -- the info fields, and what is left for hop fields
  obtain ⟨ics, hics, h8, hinfos⟩ := exists_records (w := 8) (PathMeta.ofBytes mb).segmentCount
    (post.take ((PathMeta.ofBytes mb).segmentCount * 8)) (by rw [List.length_take]; omega)
  obtain ⟨rest, rfl⟩ : ∃ rest, post = ics.flatten ++ rest :=
    ⟨post.drop ((PathMeta.ofBytes mb).segmentCount * 8), by rw [hinfos, List.take_append_drop]⟩
  have hflat : ics.flatten.length = (PathMeta.ofBytes mb).segmentCount * 8 := by
    rw [length_flatten h8, hics]
  have hlength : (mb ++ (ics.flatten ++ rest)).length
      = 4 + (PathMeta.ofBytes mb).segmentCount * 8 + rest.length := by
    rw [List.length_append, List.length_append, hmb, hflat, add_assoc]
  have hlast := fun hnone => skipped_last_iff hvalid (by rw [List.length_map, hics])
    (fun seg hseg => infoAt_append rest hmb h8 (hics ▸ hseg)) hlens hnone
  have hshift := rawShifts_lt_iff rest hmb hvalid h8 hics
  have hroom : ((mb ++ (ics.flatten ++ rest)).length
      - (4 + (PathMeta.ofBytes mb).segmentCount * 8)) / 12 = rest.length / 12 := by
    rw [hlength, Nat.add_sub_cancel_left]
  rw [HopsMasked, FitsMasks, Masked, hshift, hroom]
  constructor
  · rintro ⟨⟨⟨hnone, hrecords⟩, -⟩, -⟩
    refine ⟨fun hk _ => hnone _ (infoAt_append rest hmb h8 (by omega)), ?_⟩
    rwa [← hlast hnone]
  · rintro ⟨hfar, hrecords⟩
    have hnone : ∀ info, (ics.map InfoField.ofBytes)[2]? = some info →
        ¬ MarksBeyond (PathMeta.ofBytes mb) info := by
      intro info hinfo
      obtain ⟨hlt, -⟩ := List.getElem?_eq_some_iff.mp hinfo
      rw [List.length_map] at hlt
      rw [infoAt_append rest hmb h8 hlt, Option.some.injEq] at hinfo
      rw [← hinfo]
      have hthree : (PathMeta.ofBytes mb).segmentCount = 3 := by
        rcases hvalid.segments with ⟨hn, -⟩ | ⟨hn, -⟩ | ⟨hn, -⟩ <;> omega
      exact hfar hthree (by omega)
    rw [← hlast hnone] at hrecords
    have hmax : rest.length / 12 ≤ 64 := hrecords.elim (fun h => by omega) fun h => h.1.le
    refine ⟨⟨⟨hnone, hrecords⟩, ?_⟩, ?_⟩
    · intro seg i hlow hhigh hpresent
      have hvisit := visit_rawHopEvents_iff rest hmb hvalid h8 hics hnone hmax hlow hhigh (by omega)
      exact ⟨(hvisit _).mpr rfl, fun consDir hmem => (hvisit consDir).mp hmem⟩
    · intro source destination p rs hread
      obtain ⟨hmeta, hall⟩ := length_of_read hmb hvalid hread
      obtain ⟨hcons, hvalid', -⟩ := DecodedScionPath.consistent_of_read hread
      refine DecodedScionPath.masked_hopEvents hcons hvalid' (by rw [hmeta]; exact hlens) ?_
      rw [List.length_append, hflat] at hall
      omega

theorem masked_iff_twoSegmentPath :
    HopsMasked (twoSegmentPath 2 3).bytes ⟨0, 0, 2, 2, 0⟩ ↔
      FitsMasks (twoSegmentPath 2 3).bytes ⟨0, 0, 2, 2, 0⟩ :=
  masked_iff (rfl : PathMeta.read (ReadStream.ofBuffer (twoSegmentPath 2 3).bytes)
    = .ok ⟨0, 0, 2, 2, 0⟩ ⟨(twoSegmentPath 2 3).bytes, 4, 0⟩)

/-- Two segments of 40 hop fields each fit into a path and not into the masks. -/
theorem not_forall_hopsMasked :
    ¬ ∀ (buffer : List UInt8) (m : PathMeta) (rs : ReadStream), buffer.length ≤ 984 →
      PathMeta.read (ReadStream.ofBuffer buffer) = .ok m rs → HopsMasked buffer m := by
  intro h
  have hmeta := PathMeta.reads (by rfl : [0x00, 0x02, 0x8a, 0x00].length = 4)
    (by decide : (PathMeta.ofBytes [0x00, 0x02, 0x8a, 0x00]).Valid) []
    ([List.replicate 8 0, List.replicate 8 0].flatten ++ List.replicate 960 0)
  rw [List.nil_append, ← ReadStream.ofBuffer_eq] at hmeta
  have hmasked := h _ _ _ (by
    rw [List.length_append, List.length_append, List.length_replicate]
    decide) hmeta
  have hshifts := (rawShifts_lt_iff (List.replicate 960 0) (by rfl)
    (by decide : (PathMeta.ofBytes [0x00, 0x02, 0x8a, 0x00]).Valid) (by simp) (by decide)).mp
    hmasked.1.1
  rw [List.length_replicate] at hshifts
  rcases hshifts.2 with hroom | ⟨hroom, -⟩ <;> omega

end Scion
