/-
Path MTU discovery (`scmp/path_mtu.hpp`).

The MTU of every destination and path is kept in a store of least recently used records.
It starts out as the MTU of the first hop or of the path, and SCMP messages lower it.

* `PathMtuDiscoverer`, with `getMtu`, `updateMtu`, `handleScmpCallback` and the other
  functions of the source;
* `Lawful` — the limit is not lowered below a record, and no path is above the limit;
* `getMtu_le_iff` — no MTU exceeds that of the first hop in exactly the runs whose calls are
  lawful.
-/
import Scion.LruStore
import Scion.PathDigest
import Scion.Header
import Scion.Runs
import Scion.Transport

namespace Scion

open Codec Runs Lru

/-- What a record is for. -/
structure Destination where
  address : ScIPAddress
  path : PathDigest
  deriving DecidableEq, Repr

structure MtuRecord (T : Type) where
  lastAccess : T
  mtu : UInt16
  deriving DecidableEq, Repr

/-- The index of the source holds the keys of the list: both are one store. -/
structure PathMtuDiscoverer (T : Type) where
  maximumMtu : UInt16
  capacity : ℕ
  mtu : Store Destination (MtuRecord T)

/-- `InvalidSize`, a code of parameter problems. -/
def ScmpMessage.invalidSize : UInt8 := 19

namespace PathMtuDiscoverer

section Model

variable {T : Type}

def make (T : Type) (firstHopMtu : UInt16) (capacity : ℕ) : PathMtuDiscoverer T :=
  ⟨firstHopMtu, max 1 capacity, Store.empty⟩

def setFirstHopMtu (s : PathMtuDiscoverer T) (firstHopMtu : UInt16) : PathMtuDiscoverer T :=
  { s with maximumMtu := firstHopMtu }

def size (s : PathMtuDiscoverer T) : ℕ := s.mtu.entries.length

/-- The least recently accessed records are removed if there are more than the new
capacity. -/
def setCapacity (s : PathMtuDiscoverer T) (capacity : ℕ) : ℕ × PathMtuDiscoverer T :=
  let s := { s with capacity := max 1 capacity }
  if s.capacity < s.size then
    let remove := s.size - s.capacity
    (remove, { s with mtu := s.mtu.drop remove })
  else (0, s)

/-- Get a record and update its last access time if it exists. -/
def get (s : PathMtuDiscoverer T) (dest : Destination) (t : T) :
    Option (UInt16 × PathMtuDiscoverer T) :=
  (s.mtu.find? dest).map fun record =>
    (record.mtu, { s with mtu := s.mtu.touch dest { record with lastAccess := t } })

/-- Room for a record. -/
def evict (s : PathMtuDiscoverer T) : Store Destination (MtuRecord T) :=
  if s.size ≥ s.capacity then s.mtu.drop 1 else s.mtu

theorem evict_sublist (s : PathMtuDiscoverer T) : s.evict.entries.Sublist s.mtu.entries := by
  rw [evict]
  split
  · exact List.drop_sublist 1 _
  · exact List.Sublist.refl _

theorem notMem_evict {s : PathMtuDiscoverer T} {dest : Destination}
    (h : s.mtu.find? dest = none) : dest ∉ s.evict.entries.map Prod.fst := by
  intro hmem
  exact Store.find?_eq_none_iff.mp h ((s.evict_sublist.map Prod.fst).subset hmem)

/-- Insert a new record. -/
def insert (s : PathMtuDiscoverer T) (dest : Destination) (mtu : UInt16) (t : T)
    (h : s.mtu.find? dest = none) : PathMtuDiscoverer T :=
  { s with mtu := s.evict.push dest ⟨t, mtu⟩ (notMem_evict h) }

/-- The record of a destination, or a new one with the value `mtu`. -/
def getOr (s : PathMtuDiscoverer T) (dest : Destination) (mtu : UInt16) (t : T) :
    UInt16 × PathMtuDiscoverer T :=
  match h : s.get dest t with
  | some found => found
  | none => (mtu, s.insert dest mtu t (Option.map_eq_none_iff.mp h))

/-- `getMtu` of a path without metadata. -/
def getMtu (s : PathMtuDiscoverer T) (dest : Destination) (t : T) :
    UInt16 × PathMtuDiscoverer T :=
  s.getOr dest s.maximumMtu t

/-- `getMtu` of a path with metadata, whose MTU is zero if it is not available. -/
def getMtuOfPath (s : PathMtuDiscoverer T) (dest : Destination) (pathMtu : UInt16) (t : T) :
    UInt16 × PathMtuDiscoverer T :=
  s.getOr dest (if pathMtu = 0 then s.maximumMtu else pathMtu) t

/-- The MTU of a record is only lowered. -/
def updateMtu (s : PathMtuDiscoverer T) (dest : Destination) (mtu : UInt16) :
    Bool × PathMtuDiscoverer T :=
  match s.mtu.find? dest with
  | some record =>
    if record.mtu ≥ mtu then
      (true, { s with mtu := s.mtu.update dest fun record => { record with mtu := mtu } })
    else (false, s)
  | none => (false, s)

def forgetMtu (s : PathMtuDiscoverer T) (dest : Destination) : ℕ × PathMtuDiscoverer T :=
  if (s.mtu.find? dest).isSome then (1, { s with mtu := s.mtu.erase dest }) else (0, s)

/-- Remove the records from the front on that were not accessed since `cutoff`. -/
def clearBefore [LT T] [DecidableLT T] (s : PathMtuDiscoverer T) (cutoff : T) :
    ℕ × PathMtuDiscoverer T :=
  let kept := s.mtu.dropWhile fun record => decide (record.lastAccess < cutoff)
  (s.size - kept.entries.length, { s with mtu := kept })

def clear (s : PathMtuDiscoverer T) : PathMtuDiscoverer T := { s with mtu := Store.empty }

section Callback

-- `MurmurHash3_x64_128` and the seed of the process
variable (murmur : List UInt8 → UInt32 → UInt64 × UInt64) (randomSeed : UInt32)

/-- The headers at the front of a quoted packet. -/
def readQuote : Reader (SCION × List UInt8) := do
  let sci ← SCION.read
  let path ← ReadStream.lookahead (some sci.pathSize)
  pure (sci, path)

/-- The destination of a quoted packet, if its path is in the quote. -/
def parseScmpPacketQuote (pktQuote : List UInt8) : Option Destination :=
  match readQuote (ReadStream.ofBuffer pktQuote) with
  | .error _ _ => none
  | .ok (sci, path) _ =>
    match RawPath.empty.assign sci.src.isdAsn sci.dst.isdAsn sci.ptype path with
    | .error _ => none
    | .ok rp => some ⟨sci.dst, (rp.digest murmur randomSeed).1⟩

/-- The next value for the destination of the quote, if the message is about the size of
the packet. -/
def mtuOf : ScmpMessage → Option UInt16
  | .packetTooBig mtu => some mtu
  | .paramProblem code _ => if code = ScmpMessage.invalidSize then some 8000 else none
  | _ => none

def handleScmpCallback (s : PathMtuDiscoverer T) (msg : ScmpMessage) (payload : List UInt8) :
    Bool × PathMtuDiscoverer T :=
  match mtuOf msg with
  | none => (true, s)
  | some mtu =>
    match parseScmpPacketQuote murmur randomSeed payload with
    | none => (true, s)
    | some dest => (true, (s.updateMtu dest mtu).2)

end Callback

end Model

end PathMtuDiscoverer

/-- Calls to a `PathMtuDiscoverer`. -/
inductive MtuCall (T : Type)
  | getMtu (dest : Destination) (t : T)
  | getMtuOfPath (dest : Destination) (pathMtu : UInt16) (t : T)
  | updateMtu (dest : Destination) (mtu : UInt16)
  | setFirstHopMtu (firstHopMtu : UInt16)
  | setCapacity (capacity : ℕ)
  | forgetMtu (dest : Destination)
  | clearBefore (cutoff : T)
  | clear
  | handleScmpCallback (msg : ScmpMessage) (payload : List UInt8)

namespace PathMtuDiscoverer

variable {T : Type} {s s' : PathMtuDiscoverer T}

/-! ### Records and the limit -/

/-- No record is above the limit. -/
def Bounded (limit : UInt16) (s : PathMtuDiscoverer T) : Prop :=
  ∀ e ∈ s.mtu.entries, e.2.mtu ≤ limit

theorem bounded_iff {limit : UInt16} :
    Bounded limit s ↔ ∀ dest record, s.mtu.find? dest = some record → record.mtu ≤ limit := by
  constructor
  · intro h dest record hfind
    exact h _ (Store.mem_entries_iff.mpr hfind)
  · intro h e he
    exact h e.1 e.2 (Store.find?_eq_some_of_mem he)

theorem Bounded.of_sublist {limit : UInt16} (h : Bounded limit s)
    (hsub : s'.mtu.entries.Sublist s.mtu.entries) : Bounded limit s' :=
  fun e he => h e (hsub.subset he)

theorem getOr_of_some {dest : Destination} {mtu : UInt16} {t : T} {record : MtuRecord T}
    (h : s.mtu.find? dest = some record) : s.getOr dest mtu t =
      (record.mtu, { s with mtu := s.mtu.touch dest { record with lastAccess := t } }) := by
  rw [getOr]
  split
  · next found h' =>
    rw [get, h] at h'
    cases h'
    rfl
  · next h' =>
    rw [get, h] at h'
    cases h'

theorem getOr_of_none {dest : Destination} {mtu : UInt16} {t : T}
    (h : s.mtu.find? dest = none) : s.getOr dest mtu t = (mtu, s.insert dest mtu t h) := by
  rw [getOr]
  split
  · next found h' =>
    rw [get, h] at h'
    cases h'
  · rfl

theorem maximumMtu_getOr (s : PathMtuDiscoverer T) (dest : Destination) (mtu : UInt16) (t : T) :
    (s.getOr dest mtu t).2.maximumMtu = s.maximumMtu := by
  cases hfind : s.mtu.find? dest with
  | some record => rw [getOr_of_some hfind]
  | none =>
    rw [getOr_of_none hfind]
    rfl

/-- A new record has to keep to the limit. -/
theorem bounded_getOr_iff {limit : UInt16} (hs : Bounded limit s) (dest : Destination)
    (mtu : UInt16) (t : T) :
    Bounded limit (s.getOr dest mtu t).2 ↔ (s.mtu.find? dest = none → mtu ≤ limit) := by
  cases hfind : s.mtu.find? dest with
  | some record =>
    rw [getOr_of_some hfind]
    refine iff_of_true ?_ (fun h => (by cases h))
    refine bounded_iff.mpr fun dest' record' h => ?_
    rw [Store.find?_touch] at h
    split at h
    · cases h
      exact bounded_iff.mp hs dest record hfind
    · exact bounded_iff.mp hs dest' record' h
  | none =>
    rw [getOr_of_none hfind]
    constructor
    · intro h _
      refine bounded_iff.mp h dest ⟨t, mtu⟩ ?_
      rw [insert, Store.find?_push, if_pos rfl]
    · intro hmtu
      refine bounded_iff.mpr fun dest' record h => ?_
      rw [insert, Store.find?_push] at h
      split at h
      · cases h
        exact hmtu rfl
      · exact hs _ (s.evict_sublist.subset (Store.mem_entries_iff.mpr h))

/-- A value that is returned is within the limit, unless it is new and is not. -/
theorem getOr_le {limit : UInt16} (hs : Bounded limit s) {dest : Destination} {mtu : UInt16} {t : T}
    (hmtu : s.mtu.find? dest = none → mtu ≤ limit) : (s.getOr dest mtu t).1 ≤ limit := by
  cases hfind : s.mtu.find? dest with
  | some record =>
    rw [getOr_of_some hfind]
    exact bounded_iff.mp hs dest record hfind
  | none =>
    rw [getOr_of_none hfind]
    exact hmtu hfind

theorem maximumMtu_updateMtu (s : PathMtuDiscoverer T) (dest : Destination) (mtu : UInt16) :
    (s.updateMtu dest mtu).2.maximumMtu = s.maximumMtu := by
  rw [updateMtu]
  split
  · split <;> rfl
  · rfl

theorem capacity_updateMtu (s : PathMtuDiscoverer T) (dest : Destination) (mtu : UInt16) :
    (s.updateMtu dest mtu).2.capacity = s.capacity := by
  rw [updateMtu]
  split
  · split <;> rfl
  · rfl

/-- Updates find what was there before, or a value that is not above it. -/
theorem find?_updateMtu (s : PathMtuDiscoverer T) (dest dest' : Destination) (mtu : UInt16) :
    (s.updateMtu dest mtu).2.mtu.find? dest' =
      if dest' = dest then
        (s.mtu.find? dest).map fun record =>
          if record.mtu ≥ mtu then { record with mtu := mtu } else record
      else s.mtu.find? dest' := by
  rw [updateMtu]
  cases hfind : s.mtu.find? dest with
  | some record =>
    dsimp only
    split
    · next hle =>
      rw [Store.find?_update, hfind, Option.map_some, Option.map_some, if_pos hle]
    · next hle =>
      split
      · next heq => rw [heq, hfind, Option.map_some, if_neg hle]
      · rfl
  | none =>
    dsimp only
    split
    · next heq => rw [heq, hfind, Option.map_none]
    · rfl

theorem bounded_updateMtu {limit : UInt16} (hs : Bounded limit s) (dest : Destination)
    (mtu : UInt16) : Bounded limit (s.updateMtu dest mtu).2 := by
  refine bounded_iff.mpr fun dest' record h => ?_
  rw [find?_updateMtu] at h
  split at h
  · obtain ⟨old, hold, rfl⟩ := Option.map_eq_some_iff.mp h
    have hle := bounded_iff.mp hs dest old hold
    split
    · next hge => exact UInt16.le_trans hge hle
    · exact hle
  · exact bounded_iff.mp hs dest' record h

/-! ### Runs -/

/-- What `getMtu` returns. -/
def returned (s : PathMtuDiscoverer T) : MtuCall T → Option UInt16
  | .getMtu dest t => some (s.getMtu dest t).1
  | .getMtuOfPath dest pathMtu t => some (s.getMtuOfPath dest pathMtu t).1
  | _ => none

/-- The limit is not set below a record, and a path without a record is not above the
limit. -/
def Lawful (s : PathMtuDiscoverer T) : MtuCall T → Prop
  | .setFirstHopMtu firstHopMtu => ∀ e ∈ s.mtu.entries, e.2.mtu ≤ firstHopMtu
  | .getMtuOfPath dest pathMtu _ => s.mtu.find? dest = none → pathMtu ≤ s.maximumMtu
  | _ => True

/-- The values that a lawful call returns are within the limit. -/
theorem returned_le {c : MtuCall T} (hs : Bounded s.maximumMtu s) (hc : Lawful s c) {mtu : UInt16}
    (h : s.returned c = some mtu) : mtu ≤ s.maximumMtu := by
  cases c with
  | getMtu dest t =>
    cases h
    exact getOr_le hs fun _ => UInt16.le_refl _
  | getMtuOfPath dest pathMtu t =>
    cases h
    refine getOr_le hs fun hnone => ?_
    split
    · exact UInt16.le_refl _
    · exact hc hnone
  | _ => cases h

/-- Records that are above the limit are returned. -/
theorem bounded_iff_getMtu (t : T) :
    Bounded s.maximumMtu s ↔ ∀ dest, (s.getMtu dest t).1 ≤ s.maximumMtu := by
  constructor
  · intro hs dest
    exact getOr_le hs fun _ => UInt16.le_refl _
  · intro h
    refine bounded_iff.mpr fun dest record hfind => ?_
    have hget := h dest
    rw [getMtu, getOr_of_some hfind] at hget
    exact hget

section Runs

variable [LT T] [DecidableLT T]
variable (murmur : List UInt8 → UInt32 → UInt64 × UInt64) (randomSeed : UInt32)

def step (s : PathMtuDiscoverer T) : MtuCall T → Option (PathMtuDiscoverer T)
  | .getMtu dest t => some (s.getMtu dest t).2
  | .getMtuOfPath dest pathMtu t => some (s.getMtuOfPath dest pathMtu t).2
  | .updateMtu dest mtu => some (s.updateMtu dest mtu).2
  | .setFirstHopMtu firstHopMtu => some (s.setFirstHopMtu firstHopMtu)
  | .setCapacity capacity => some (s.setCapacity capacity).2
  | .forgetMtu dest => some (s.forgetMtu dest).2
  | .clearBefore cutoff => some (s.clearBefore cutoff).2
  | .clear => some s.clear
  | .handleScmpCallback msg payload => some (s.handleScmpCallback murmur randomSeed msg payload).2

variable {murmur randomSeed}

/-- The records stay within the limit exactly if the call is lawful. -/
theorem bounded_step_iff {c : MtuCall T} (hs : Bounded s.maximumMtu s)
    (h : s.step murmur randomSeed c = some s') : Bounded s'.maximumMtu s' ↔ Lawful s c := by
  cases c with
  | getMtu dest t =>
    cases h
    rw [getMtu, maximumMtu_getOr, bounded_getOr_iff hs]
    exact iff_of_true (fun _ => UInt16.le_refl _) trivial
  | getMtuOfPath dest pathMtu t =>
    cases h
    rw [getMtuOfPath, maximumMtu_getOr, bounded_getOr_iff hs, Lawful]
    refine forall_congr' fun _ => ?_
    split
    · next hzero =>
      rw [hzero]
      exact iff_of_true (UInt16.le_refl _) UInt16.zero_le
    · rfl
  | updateMtu dest mtu =>
    cases h
    rw [maximumMtu_updateMtu]
    exact iff_of_true (bounded_updateMtu hs dest mtu) trivial
  | setFirstHopMtu firstHopMtu =>
    cases h
    exact Iff.rfl
  | setCapacity capacity =>
    cases h
    rw [setCapacity]
    split
    · exact iff_of_true (hs.of_sublist (List.drop_sublist _ _)) trivial
    · exact iff_of_true hs trivial
  | forgetMtu dest =>
    cases h
    rw [forgetMtu]
    split
    · exact iff_of_true (hs.of_sublist List.filter_sublist) trivial
    · exact iff_of_true hs trivial
  | clearBefore cutoff =>
    cases h
    exact iff_of_true (hs.of_sublist (List.dropWhile_sublist _)) trivial
  | clear =>
    cases h
    exact iff_of_true (fun e he => absurd he List.not_mem_nil) trivial
  | handleScmpCallback msg payload =>
    cases h
    rw [handleScmpCallback]
    split
    · exact iff_of_true hs trivial
    · split
      · exact iff_of_true hs trivial
      · rw [maximumMtu_updateMtu]
        exact iff_of_true (bounded_updateMtu hs _ _) trivial

/-- In a run, all values that are returned and that could be returned are at most the MTU
of the first hop exactly if the calls are lawful. -/
theorem getMtu_le_iff [Nonempty T] {firstHopMtu : UInt16} {capacity : ℕ} {h : List (MtuCall T)}
    (hrun : Run (make T firstHopMtu capacity) (step murmur randomSeed) h s) :
    (Always (make T firstHopMtu capacity) (step murmur randomSeed)
        (fun _ s c => ∀ mtu, s.returned c = some mtu → mtu ≤ s.maximumMtu) h ∧
      Throughout (make T firstHopMtu capacity) (step murmur randomSeed)
        (fun _ s => ∀ dest t, (s.getMtu dest t).1 ≤ s.maximumMtu) h) ↔
      Always (make T firstHopMtu capacity) (step murmur randomSeed) (fun _ s c => Lawful s c) h := by
  have hthroughout := throughout_iff_always (I := fun _ s => Bounded s.maximumMtu s)
    (P := fun _ s c => Lawful s c) (fun e he => absurd he List.not_mem_nil)
    (fun past s c s' _ hs hstep => bounded_step_iff hs hstep) hrun
  obtain ⟨t⟩ := ‹Nonempty T›
  constructor
  · rintro ⟨-, hready⟩
    refine hthroughout.mp fun past s hpast hsuffix => ?_
    exact (bounded_iff_getMtu t).mpr fun dest => hready past s hpast hsuffix dest t
  · intro hlawful
    have hbounded := hthroughout.mpr hlawful
    refine ⟨?_, ?_⟩
    · intro past s c hpast hsuffix mtu hreturned
      exact returned_le (hbounded past s hpast (suffix_of_cons hsuffix))
        (hlawful past s c hpast hsuffix) hreturned
    · intro past s hpast hsuffix dest t
      exact (bounded_iff_getMtu t).mp (hbounded past s hpast hsuffix) dest

/-- A destination in the AS 1-ff00:0:110. -/
def exampleDestination : Destination := ⟨⟨⟨0x1ff0000000110⟩, .v4 0x0a000001⟩, ⟨1, 2⟩⟩

/-- The limit is lowered below a record, latest call first. -/
def limitLowered : List (MtuCall ℕ) :=
  [.getMtu exampleDestination 1, .setFirstHopMtu 1400, .getMtu exampleDestination 0]

variable (murmur randomSeed) in
theorem run_limitLowered : ∃ s, Run (make ℕ 1500 16) (step murmur randomSeed) limitLowered s :=
  ⟨_, run_of_replay rfl⟩

end Runs

theorem getMtu_le_iff_limitLowered :
    (Always (make ℕ 1500 16) (step (fun _ _ => (0, 0)) 0)
        (fun _ s c => ∀ mtu, s.returned c = some mtu → mtu ≤ s.maximumMtu) limitLowered ∧
      Throughout (make ℕ 1500 16) (step (fun _ _ => (0, 0)) 0)
        (fun _ s => ∀ dest t, (s.getMtu dest t).1 ≤ s.maximumMtu) limitLowered) ↔
      Always (make ℕ 1500 16) (step (fun _ _ => (0, 0)) 0) (fun _ s c => Lawful s c)
        limitLowered := by
  obtain ⟨s, hrun⟩ := run_limitLowered (fun _ _ => (0, 0)) 0
  exact getMtu_le_iff hrun

/-- A record that was made before the limit was lowered is returned as it is. -/
theorem not_forall_getMtu_le :
    ¬ ∀ (firstHopMtu : UInt16) (capacity : ℕ) (h : List (MtuCall ℕ)) (s : PathMtuDiscoverer ℕ),
      Run (make ℕ firstHopMtu capacity) (step (fun _ _ => (0, 0)) 0) h s →
      Always (make ℕ firstHopMtu capacity) (step (fun _ _ => (0, 0)) 0)
        (fun _ s c => ∀ mtu, s.returned c = some mtu → mtu ≤ s.maximumMtu) h := by
  intro h
  obtain ⟨s, hrun⟩ := run_limitLowered (fun _ _ => (0, 0)) 0
  have hle := h 1500 16 _ _ hrun [.setFirstHopMtu 1400, .getMtu exampleDestination 0] _
    (.getMtu exampleDestination 1) (run_of_replay rfl) List.suffix_rfl 1500 rfl
  exact absurd hle (by decide)

end PathMtuDiscoverer

end Scion
