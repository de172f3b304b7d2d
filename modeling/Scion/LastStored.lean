/-
The path cache as a map of the sets last stored (`path/cache.hpp`).

What a cache is for is said by its history alone: the paths of a route are those of
the last `store` for it that lived long enough, unless they were cleared since.

* `lastStored` — these paths, and `shown` — those of them not yet expired;
* `paths_eq_lastStored` — the entries of the cache are this map, in every run;
* `returned_eq_shown` — so is what lookups return.
-/
import Scion.Callers

namespace Scion

open Runs

namespace PathCache

/-- The overload of `store` that takes over a vector of paths. -/
def storeMoved (c : PathCache) (now : ℤ) (r : Route) (paths : List Path) : PathCache :=
  let cached := (c.cache r).getD PathSet.empty
  let kept := paths.filter fun path => !decide (path.expiry ≤ now + c.minAcceptedLifetime)
  c.set r (c.updateNextRefresh now { cached with paths := kept })

/-- Both overloads store the same paths. -/
theorem storeMoved_eq_store (c : PathCache) (now : ℤ) (r : Route) (paths : List Path) :
    c.storeMoved now r paths = c.store now r paths := by
  have hfilter : ∀ path : Path, (!decide (path.expiry ≤ now + c.minAcceptedLifetime))
      = decide (path.expiry > now + c.minAcceptedLifetime) := by
    intro path
    rw [← decide_not]
    exact decide_eq_decide.mpr not_le
  rw [storeMoved, store]
  simp only [hfilter]

/-- The overload of `lookupCached` with a callback for the paths: what is passed to
the callback, if it is called. -/
def lookupCachedReceive (c : PathCache) (now : ℤ) (r : Route) : Option (List Path) :=
  match c.cache r with
  | some set => some (set.validPaths now)
  | none => none

/-- The paths of a route, none without an entry. -/
def paths (c : PathCache) (r : Route) : List Path :=
  match c.cache r with
  | some set => set.paths
  | none => []

end PathCache

/-! ### What was last stored -/

section LastStored

variable (minAcceptedLifetime : ℤ) (emptyPath : IsdAsn → Path)

/-- The paths given to a `store` that live long enough. -/
def accepted (now : ℤ) (paths : List Path) : List Path :=
  paths.filter fun path => path.expiry > now + minAcceptedLifetime

/-- The accepted paths of the last `store` for the route, none if the route was cleared
since. A lookup within one AS stores the empty path. -/
def lastStored (r : Route) : List Event → List Path
  | [] => []
  | .store r' now paths :: past =>
    if r' = r then accepted minAcceptedLifetime now paths else lastStored r past
  | .storeEmpty caller now :: past =>
    if currentRoute caller past = some r then accepted minAcceptedLifetime now [emptyPath r.src]
    else lastStored r past
  | .clearAll :: _ => []
  | .clear r' :: past => if r' = r then [] else lastStored r past
  | _ :: past => lastStored r past

/-- Those of them that are not expired. -/
def shown (r : Route) (now : ℤ) (h : List Event) : List Path :=
  (lastStored minAcceptedLifetime emptyPath r h).filter fun path => path.expiry > now

end LastStored

/-- The event returns the paths to a caller, or passes them to its callback. -/
def Event.Returned (past : List Event) (r : Route) (now : ℤ) (paths : List Path) : Event → Prop
  | lookupReturned caller now' result =>
    currentRoute caller past = some r ∧ now' = now ∧ paths = result.toOption.getD []
  | lookupReceiveReturned caller now' received _ =>
    currentRoute caller past = some r ∧ now' = now ∧ paths = received.getD []
  | lookupCached r' now' result => r' = r ∧ now' = now ∧ paths = result
  | _ => False

/-! ### One section -/

namespace PathCache

theorem paths_set (c : PathCache) (r r' : Route) (set : PathSet) :
    (c.set r set).paths r' = if r' = r then set.paths else c.paths r' := by
  by_cases h : r' = r
  · subst h
    rw [paths, cache_set_same, if_pos rfl]
  · rw [paths, cache_set_of_ne c h, if_neg h, paths]

theorem paths_store (c : PathCache) (now : ℤ) (r r' : Route) (stored : List Path) :
    (c.store now r stored).paths r'
      = if r' = r then accepted c.minAcceptedLifetime now stored else c.paths r' := by
  rw [store, paths_set]
  rfl

theorem paths_clear (c : PathCache) (r r' : Route) :
    (c.clear r).paths r' = if r' = r then [] else c.paths r' := by
  by_cases h : r' = r
  · subst h
    have hnone : (c.clear r').cache r' = none := Function.update_self ..
    rw [paths, hnone, if_pos rfl]
  · have hsame : (c.clear r).cache r' = c.cache r' := Function.update_of_ne h ..
    rw [paths, hsame, if_neg h, paths]

/-- The section of `update` writes the flag only. -/
theorem paths_beginUpdate (c : PathCache) (now : ℤ) (r r' : Route) (refresh : Bool) :
    (c.beginUpdate now r refresh).1.paths r' = c.paths r' := by
  rw [beginUpdate]
  cases hr : c.cache r with
  | none =>
    rw [paths_set]
    split
    · next h => rw [h, paths, hr, PathSet.empty]
    · rfl
  | some set =>
    rw [paths_set]
    split
    · next h => rw [h, paths, hr]
    · rfl

theorem lifetime_beginUpdate (c : PathCache) (now : ℤ) (r : Route) (refresh : Bool) :
    (c.beginUpdate now r refresh).1.minAcceptedLifetime = c.minAcceptedLifetime := by
  rw [beginUpdate]
  split <;> rfl

theorem lookupCached_eq (c : PathCache) (now : ℤ) (r : Route) :
    c.lookupCached now r = (c.paths r).filter fun path => path.expiry > now := by
  rw [lookupCached, paths]
  cases c.cache r with
  | none => rfl
  | some set => rfl

theorem lookupCachedReceive_eq (c : PathCache) (now : ℤ) (r : Route) :
    (c.lookupCachedReceive now r).getD [] = (c.paths r).filter fun path => path.expiry > now := by
  rw [lookupCachedReceive, paths]
  cases c.cache r with
  | none => rfl
  | some set => rfl

theorem lookup_eq (c : PathCache) (now : ℤ) (r : Route) (ec : ErrorCode) :
    (c.lookup now r ec).toOption.getD [] = (c.paths r).filter fun path => path.expiry > now := by
  rw [lookup, paths]
  cases hr : c.cache r with
  | none =>
    dsimp only
    split <;> rfl
  | some set =>
    dsimp only
    cases hpaths : set.paths with
    | nil => by_cases hec : ec = .pending <;> simp [hec, Except.toOption]
    | cons path rest => simp [PathSet.validPaths, hpaths, Except.toOption]

theorem lookupReceive_eq (c : PathCache) (now : ℤ) (r : Route) (ec : ErrorCode) :
    (c.lookupReceive now r ec).1.getD [] = (c.paths r).filter fun path => path.expiry > now := by
  rw [lookupReceive, paths]
  cases hr : c.cache r with
  | none =>
    dsimp only
    split <;> rfl
  | some set =>
    dsimp only
    cases hpaths : set.paths with
    | nil => by_cases hec : ec = .pending <;> simp [hec]
    | cons path rest => simp [PathSet.validPaths, hpaths]

end PathCache

/-! ### Runs -/

section Runs

variable {murmur : List UInt8 → UInt32 → UInt64 × UInt64} {randomSeed : UInt32}
variable {minAcceptedLifetime refreshAtRemaining refreshInterval : ℤ}

/-- The cache holds what was last stored. -/
theorem paths_eq_lastStored {h : List Event} {s : System}
    (hrun : Run (System.init minAcceptedLifetime refreshAtRemaining refreshInterval)
      (System.step murmur randomSeed) h s) :
    s.cache.minAcceptedLifetime = minAcceptedLifetime ∧ ∀ r, s.cache.paths r
      = lastStored minAcceptedLifetime (Path.makeEmpty murmur randomSeed) r h := by
  -- on the run: five sections write the cache, and `lastStored` follows them
  induction hrun with
  | start => exact ⟨rfl, fun r => rfl⟩
  | @next past s s' e hpast hstep ih =>
    obtain ⟨hlifetime, hpaths⟩ := ih
    cases e with
    | update caller call r' refresh now query =>
      obtain ⟨-, hcache, -⟩ := System.step_update hstep
      rw [hcache]
      refine ⟨(PathCache.lifetime_beginUpdate ..).trans hlifetime, fun r => ?_⟩
      rw [PathCache.paths_beginUpdate]
      exact hpaths r
    | storeEmpty caller now =>
      obtain ⟨call, r', internal, hstate, rfl⟩ := System.step_storeEmpty hstep
      -- the section does not say its route, the history of its caller does
      have hroute : currentRoute caller past = some r' :=
        currentRoute_of_route hpast (by rw [hstate, Caller.route])
      refine ⟨hlifetime, fun r => ?_⟩
      show (s.cache.store now r' _).paths r = _
      rw [PathCache.paths_store, hlifetime, lastStored, hroute]
      by_cases hr : r = r'
      · rw [hr, if_pos rfl, if_pos rfl]
      · rw [if_neg hr, if_neg fun h => hr (Option.some.inj h).symm, hpaths]
    | store r' now paths =>
      cases hstep
      refine ⟨hlifetime, fun r => ?_⟩
      rw [PathCache.paths_store, hlifetime, hpaths, lastStored]
      exact if_congr eq_comm rfl rfl
    | clearAll =>
      cases hstep
      exact ⟨hlifetime, fun r => rfl⟩
    | clear r' =>
      cases hstep
      refine ⟨hlifetime, fun r => ?_⟩
      rw [PathCache.paths_clear, hpaths, lastStored]
      exact if_congr eq_comm rfl rfl
    | lookupCached r' now result =>
      simp only [System.step, Option.ite_none_right_eq_some] at hstep
      cases hstep.2
      exact ⟨hlifetime, hpaths⟩
    | queryInvoked =>
      obtain ⟨_, _, -, rfl⟩ := System.step_queryInvoked hstep
      exact ⟨hlifetime, hpaths⟩
    | queryReturned =>
      obtain ⟨_, _, _, -, rfl⟩ := System.step_queryReturned hstep
      exact ⟨hlifetime, hpaths⟩
    | lookupReturned =>
      obtain ⟨_, _, -, -, rfl⟩ := System.step_lookupReturned hstep
      exact ⟨hlifetime, hpaths⟩
    | lookupReceiveReturned =>
      obtain ⟨_, _, -, -, rfl⟩ := System.step_lookupReceiveReturned hstep
      exact ⟨hlifetime, hpaths⟩
    | prefetchReturned =>
      obtain ⟨_, -, rfl⟩ := System.step_prefetchReturned hstep
      exact ⟨hlifetime, hpaths⟩

/-- What lookups return, in every run, is what was last stored and is not expired: the
calls of all callers, the overload of `lookupCached` with a callback, and this
whichever overload of `store` was called. -/
theorem returned_eq_shown {h : List Event} {s : System}
    (hrun : Run (System.init minAcceptedLifetime refreshAtRemaining refreshInterval)
      (System.step murmur randomSeed) h s) :
    (∀ past e, e :: past <:+ h → ∀ r now paths, e.Returned past r now paths →
      paths = shown minAcceptedLifetime (Path.makeEmpty murmur randomSeed) r now past) ∧
    (∀ r now, (s.cache.lookupCachedReceive now r).getD []
      = shown minAcceptedLifetime (Path.makeEmpty murmur randomSeed) r now h) ∧
    ∀ r now paths, s.cache.storeMoved now r paths = s.cache.store now r paths := by
  refine ⟨fun past e hsuffix r now paths hreturned => ?_, fun r now => ?_, fun r now paths =>
    PathCache.storeMoved_eq_store ..⟩
  · obtain ⟨t, t', ht, hstep⟩ := hrun.of_suffix hsuffix
    rw [shown, ← (paths_eq_lastStored ht).2]
    -- the caller returns for the route of its last call
    cases e with
    | lookupReturned caller now' result =>
      obtain ⟨hcurrent, rfl, rfl⟩ := hreturned
      obtain ⟨r', ec, hstate, rfl, -⟩ := System.step_lookupReturned hstep
      rw [currentRoute_of_route ht (show _ = some r' by rw [hstate, Caller.route])] at hcurrent
      cases hcurrent
      exact PathCache.lookup_eq ..
    | lookupReceiveReturned caller now' received ec =>
      obtain ⟨hcurrent, rfl, rfl⟩ := hreturned
      obtain ⟨r', ec', hstate, hresult, -⟩ := System.step_lookupReceiveReturned hstep
      rw [currentRoute_of_route ht (show _ = some r' by rw [hstate, Caller.route])] at hcurrent
      cases hcurrent
      rw [← PathCache.lookupReceive_eq _ _ _ ec', ← hresult]
    | lookupCached r' now' result =>
      obtain ⟨rfl, rfl, rfl⟩ := hreturned
      simp only [System.step, Option.ite_none_right_eq_some] at hstep
      rw [hstep.1]
      exact PathCache.lookupCached_eq ..
    | _ => exact hreturned.elim
  · rw [shown, ← (paths_eq_lastStored hrun).2]
    exact PathCache.lookupCachedReceive_eq ..

end Runs

/-- A lookup within one AS, which stores the empty path and returns it. -/
def internalLookup : List Event :=
  [ .lookupReturned 0 3 (.ok [Path.makeEmpty (fun _ _ => (0, 0)) 0 (IsdAsn.make 1 1)]),
    .storeEmpty 0 2,
    .update 0 .lookup ⟨IsdAsn.make 1 1, IsdAsn.make 1 1⟩ false 1 false ]

theorem run_internalLookup : ∃ s, Run (System.init 5 10 30) (System.step (fun _ _ => (0, 0)) 0)
    internalLookup s :=
  ⟨_, .next (.next (.next .start rfl) rfl) rfl⟩

theorem returned_eq_shown_internalLookup : ∃ s : System,
    (∀ past e, e :: past <:+ internalLookup → ∀ r now paths, e.Returned past r now paths →
      paths = shown 5 (Path.makeEmpty (fun _ _ => (0, 0)) 0) r now past) ∧
    (∀ r now, (s.cache.lookupCachedReceive now r).getD []
      = shown 5 (Path.makeEmpty (fun _ _ => (0, 0)) 0) r now internalLookup) ∧
    ∀ r now paths, s.cache.storeMoved now r paths = s.cache.store now r paths :=
  run_internalLookup.elim fun s hrun => ⟨s, returned_eq_shown hrun⟩

end Scion
