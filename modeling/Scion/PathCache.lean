/-
The path cache (`path/cache.hpp`, `path/shared_cache.hpp`).

`PathCache` and `SharedPathCache` differ only in their locks. Every call is cut
into the sections during which the shared cache holds its lock; the calls of any
number of callers interleave. A caller that is in the middle of a call stands
for a thread as well as for a call made from within a query callback.

* `PathCache.beginUpdate` — the decision to query paths;
* `System.step` — one section of one call;
* `noSecondQuery_iff` — the runs in which no second query is sent while one is
  outstanding.
-/
import Scion.PathDigest
import Scion.Runs

namespace Scion

open Runs

/-! ### The cache -/

/-- `PathCache::Route`. -/
structure Route where
  src : IsdAsn
  dst : IsdAsn
  deriving DecidableEq, Repr

/-- Times and durations are in ticks of the UTC clock. -/
structure PathSet where
  nextRefresh : ℤ
  -- flag preventing multiple calls to path query callback
  refreshPending : Bool
  paths : List Path
  deriving DecidableEq, Repr

namespace PathSet

/-- The value of a new entry. -/
def empty : PathSet := ⟨0, false, []⟩

/-- Paths that are not expired. -/
def validPaths (set : PathSet) (now : ℤ) : List Path := set.paths.filter fun path => path.expiry > now

end PathSet

structure PathCache where
  minAcceptedLifetime : ℤ
  refreshAtRemaining : ℤ
  refreshInterval : ℤ
  cache : Route → Option PathSet

namespace PathCache

def make (minAcceptedLifetime refreshAtRemaining refreshInterval : ℤ) : PathCache :=
  ⟨minAcceptedLifetime, refreshAtRemaining, refreshInterval, fun _ => none⟩

/-- `cache[r] = set`. -/
def set (c : PathCache) (r : Route) (set : PathSet) : PathCache :=
  { c with cache := Function.update c.cache r (some set) }

def updateNextRefresh (c : PathCache) (now : ℤ) (set : PathSet) : PathSet :=
  let nextExpiry := set.paths.foldl (fun nextExpiry path => min path.expiry nextExpiry) Path.maxExpiry
  { set with
    nextRefresh := min (nextExpiry - c.refreshAtRemaining) (now + c.refreshInterval)
    refreshPending := false }

/-- Both overloads of `store`. -/
def store (c : PathCache) (now : ℤ) (r : Route) (paths : List Path) : PathCache :=
  let cached := (c.cache r).getD PathSet.empty
  let accepted := paths.filter fun path => path.expiry > now + c.minAcceptedLifetime
  c.set r (c.updateNextRefresh now { cached with paths := accepted })

/-- `clear()`. -/
def clearAll (c : PathCache) : PathCache := { c with cache := fun _ => none }

def clear (c : PathCache) (r : Route) : PathCache :=
  { c with cache := Function.update c.cache r none }

/-- The locked section of `update`; whether paths are refreshed. -/
def beginUpdate (c : PathCache) (now : ℤ) (r : Route) (refresh : Bool) : PathCache × Bool :=
  match c.cache r with
  | some set =>
    let refresh := if !refresh then !set.refreshPending && set.nextRefresh < now else refresh
    (c.set r { set with refreshPending := refresh }, refresh)
  | none => (c.set r { PathSet.empty with refreshPending := true }, true)

/-- The rest of `lookup` after `update` returned `ec`. -/
def lookup (c : PathCache) (now : ℤ) (r : Route) (ec : ErrorCode) : Maybe (List Path) :=
  match c.cache r with
  | some set =>
    if !set.paths.isEmpty then .ok (set.validPaths now)
    else if ec = .pending then .error .pending else .ok []
  | none => if ec = .pending then .error .pending else .ok []

/-- The rest of the overload with a callback for the paths: what is passed to
the callback, if it is called, and the result. -/
def lookupReceive (c : PathCache) (now : ℤ) (r : Route) (ec : ErrorCode) :
    Option (List Path) × ErrorCode :=
  match c.cache r with
  | some set =>
    if !set.paths.isEmpty then (some (set.validPaths now), .ok)
    else if ec = .pending then (none, .pending) else (none, .ok)
  | none => if ec = .pending then (none, .pending) else (none, .ok)

def lookupCached (c : PathCache) (now : ℤ) (r : Route) : List Path :=
  match c.cache r with
  | some set => set.validPaths now
  | none => []

end PathCache

/-! ### Calls -/

/-- The calls that go through `update`. -/
inductive UpdateCall
  | lookup
  | lookupReceive
  | prefetch
  deriving DecidableEq, Repr

/-- What a caller is doing. -/
inductive Caller
  | idle
  /-- about to invoke `queryPaths` -/
  | asking (call : UpdateCall) (r : Route) (external : r.src ≠ r.dst)
  /-- `queryPaths` is running -/
  | querying (call : UpdateCall) (r : Route) (external : r.src ≠ r.dst)
  /-- about to store the empty path -/
  | storing (call : UpdateCall) (r : Route) (internal : r.src = r.dst)
  /-- `update` returned `ec` -/
  | updated (call : UpdateCall) (r : Route) (ec : ErrorCode)
  deriving DecidableEq, Repr

/-- The sections of all calls with what they observe and return. -/
inductive Event
  /-- the locked section of `update`; `query` if it decides to invoke `queryPaths` -/
  | update (caller : ℕ) (call : UpdateCall) (r : Route) (refresh : Bool) (now : ℤ) (query : Bool)
  /-- `queryPaths` is invoked -/
  | queryInvoked (caller : ℕ) (r : Route)
  /-- `queryPaths` returns -/
  | queryReturned (caller : ℕ) (ec : ErrorCode)
  /-- `update` stores the empty path -/
  | storeEmpty (caller : ℕ) (now : ℤ)
  | lookupReturned (caller : ℕ) (now : ℤ) (result : Maybe (List Path))
  | lookupReceiveReturned (caller : ℕ) (now : ℤ) (received : Option (List Path)) (ec : ErrorCode)
  | prefetchReturned (caller : ℕ) (ec : ErrorCode)
  | lookupCached (r : Route) (now : ℤ) (result : List Path)
  | store (r : Route) (now : ℤ) (paths : List Path)
  | clearAll
  | clear (r : Route)
  deriving DecidableEq, Repr

structure System where
  cache : PathCache
  callers : ℕ → Caller

namespace System

variable (murmur : List UInt8 → UInt32 → UInt64 × UInt64) (randomSeed : UInt32)

def setCaller (s : System) (caller : ℕ) (state : Caller) : System :=
  { s with callers := Function.update s.callers caller state }

/-- Nobody is calling and nothing is cached. -/
def init (minAcceptedLifetime refreshAtRemaining refreshInterval : ℤ) : System :=
  ⟨PathCache.make minAcceptedLifetime refreshAtRemaining refreshInterval, fun _ => .idle⟩

/-- One section, if its caller has got there and observes what the event says. -/
def step (s : System) : Event → Option System
  | .update caller call r refresh now query =>
    let (cache, refresh) := s.cache.beginUpdate now r refresh
    if s.callers caller = .idle ∧ query = (refresh && r.src != r.dst) then
      some <| { s with cache := cache }.setCaller caller <|
        if refresh then
          if h : r.src = r.dst then .storing call r h else .asking call r h
        else .updated call r .ok
    else none
  | .queryInvoked caller r =>
    match s.callers caller with
    | .asking call r' h => if r = r' then some (s.setCaller caller (.querying call r' h)) else none
    | _ => none
  | .queryReturned caller ec =>
    match s.callers caller with
    | .querying call r _ => some (s.setCaller caller (.updated call r ec))
    | _ => none
  | .storeEmpty caller now =>
    match s.callers caller with
    | .storing call r _ =>
      let cache := s.cache.store now r [Path.makeEmpty murmur randomSeed r.src]
      some ({ s with cache := cache }.setCaller caller (.updated call r .ok))
    | _ => none
  | .lookupReturned caller now result =>
    match s.callers caller with
    | .updated .lookup r ec =>
      if result = s.cache.lookup now r ec then some (s.setCaller caller .idle) else none
    | _ => none
  | .lookupReceiveReturned caller now received ec =>
    match s.callers caller with
    | .updated .lookupReceive r ec' =>
      if (received, ec) = s.cache.lookupReceive now r ec' then some (s.setCaller caller .idle)
      else none
    | _ => none
  | .prefetchReturned caller ec =>
    match s.callers caller with
    | .updated .prefetch _ ec' => if ec = ec' then some (s.setCaller caller .idle) else none
    | _ => none
  | .lookupCached r now result => if result = s.cache.lookupCached now r then some s else none
  | .store r now paths => some { s with cache := s.cache.store now r paths }
  | .clearAll => some { s with cache := s.cache.clearAll }
  | .clear r => some { s with cache := s.cache.clear r }

end System

/-! ### Histories -/

namespace Event

/-- A lookup or prefetch of the route. -/
def Asks (r : Route) : Event → Prop
  | update _ _ r' _ _ _ => r' = r
  | _ => False

/-- A lookup or prefetch of the route that decides to query paths. -/
def Queries (r : Route) : Event → Prop
  | update _ _ r' _ _ query => r' = r ∧ query = true
  | _ => False

/-- A `store` or `clear` call for the route or a `clear` call for all. -/
def Answers (r : Route) : Event → Prop
  | store r' _ _ => r' = r
  | clear r' => r' = r
  | clearAll => True
  | _ => False

end Event

/-- The caller's invocation of `queryPaths` for the route is still running, and
neither `store` nor `clear` was called since it began. -/
def QueryRunning (caller : ℕ) (r : Route) : List Event → Prop
  | [] => False
  | e :: past =>
    ¬ e.Answers r ∧
      (e = .queryInvoked caller r ∨
        ((∀ ec, e ≠ .queryReturned caller ec) ∧ QueryRunning caller r past))

/-- An invocation of `queryPaths` for the route returned `Pending`, and neither
`store` nor `clear` was called since it began. -/
def QueryOutstanding (r : Route) : List Event → Prop
  | [] => False
  | e :: past =>
    ¬ e.Answers r ∧
      ((∃ caller, e = .queryReturned caller .pending ∧ QueryRunning caller r past) ∨
        QueryOutstanding r past)

/-- The caller's lookup or prefetch, which decided to query paths, began while a
query for the route was outstanding, and neither `store` nor `clear` was called
since. -/
def BeganOutstanding (caller : ℕ) (r : Route) : List Event → Prop
  | [] => False
  | e :: past =>
    ¬ e.Answers r ∧
      ((∃ call refresh now, e = .update caller call r refresh now true ∧
          QueryOutstanding r past) ∨
        ((∀ call r' refresh now query, e ≠ .update caller call r' refresh now query) ∧
          BeganOutstanding caller r past))

/-- `queryPaths` is not invoked by a lookup or prefetch that began while a query
for its route was outstanding. -/
def NoSecondQuery (past : List Event) (e : Event) : Prop :=
  ∀ caller r, e = .queryInvoked caller r → ¬ BeganOutstanding caller r past

/-- The last call for the route was a lookup or prefetch that decided to query
paths. -/
def LastCallQueried (r : Route) : List Event → Prop
  | [] => False
  | e :: past => e.Queries r ∨ (¬ e.Asks r ∧ ¬ e.Answers r ∧ LastCallQueried r past)

/-- While a query for the route is outstanding, a lookup or prefetch does not
ask for a refresh, and either it is the first call since one that decided to
query or the paths in the cache are not due for a refresh. -/
def Patient (past : List Event) (s : System) (e : Event) : Prop :=
  ∀ caller call r refresh now query, e = .update caller call r refresh now query →
    QueryOutstanding r past →
      refresh = false ∧
        (LastCallQueried r past ∨ ∃ set, s.cache.cache r = some set ∧ now ≤ set.nextRefresh)

/-! ### One section -/

/-- The route is in the cache with its flag set. -/
def PathCache.Pending (c : PathCache) (r : Route) : Prop :=
  ∃ set, c.cache r = some set ∧ set.refreshPending = true

namespace PathCache

theorem cache_set_same (c : PathCache) (r : Route) (set : PathSet) :
    (c.set r set).cache r = some set :=
  Function.update_self ..

theorem cache_set_of_ne (c : PathCache) {r r' : Route} (h : r' ≠ r) (set : PathSet) :
    (c.set r set).cache r' = c.cache r' :=
  Function.update_of_ne h ..

/-- The section of `update` writes its decision into the flag. -/
theorem pending_beginUpdate (c : PathCache) (now : ℤ) (r : Route) (refresh : Bool) :
    (c.beginUpdate now r refresh).1.Pending r ↔ (c.beginUpdate now r refresh).2 = true := by
  rw [beginUpdate, Pending]
  split <;> simp [cache_set_same]

theorem cache_beginUpdate_of_ne (c : PathCache) (now : ℤ) {r r' : Route} (h : r' ≠ r)
    (refresh : Bool) : (c.beginUpdate now r refresh).1.cache r' = c.cache r' := by
  rw [beginUpdate]
  split <;> exact cache_set_of_ne _ h _

/-- Paths are not refreshed when nobody asks for it and the flag is set or the
paths are not due. -/
theorem beginUpdate_eq_false_iff (c : PathCache) (now : ℤ) (r : Route) (refresh : Bool) :
    (c.beginUpdate now r refresh).2 = false ↔ refresh = false ∧
      (c.Pending r ∨ ∃ set, c.cache r = some set ∧ now ≤ set.nextRefresh) := by
  rw [beginUpdate, Pending]
  cases hr : c.cache r with
  | none => simp
  | some set => cases refresh <;> cases hp : set.refreshPending <;> simp [hp]

theorem not_pending_store (c : PathCache) (now : ℤ) (r : Route) (paths : List Path) :
    ¬ (c.store now r paths).Pending r := by
  rintro ⟨set, hset, hpending⟩
  rw [store, cache_set_same] at hset
  cases hset
  cases hpending

theorem cache_store_of_ne (c : PathCache) (now : ℤ) {r r' : Route} (h : r' ≠ r)
    (paths : List Path) : (c.store now r paths).cache r' = c.cache r' :=
  cache_set_of_ne _ h _

end PathCache

section Runs

variable {murmur : List UInt8 → UInt32 → UInt64 × UInt64} {randomSeed : UInt32}

/-- The locked section of `update`. -/
theorem System.step_update {s s' : System} {caller : ℕ} {call : UpdateCall} {r : Route}
    {refresh : Bool} {now : ℤ} {query : Bool}
    (h : s.step murmur randomSeed (.update caller call r refresh now query) = some s') :
    query = ((s.cache.beginUpdate now r refresh).2 && r.src != r.dst) ∧
      s'.cache = (s.cache.beginUpdate now r refresh).1 ∧
      (query = true → ∃ external, s'.callers caller = .asking call r external) := by
  simp only [step] at h
  split at h
  · next hguard =>
    cases h
    refine ⟨hguard.2, rfl, fun hquery => ?_⟩
    have hdecide := hguard.2.symm.trans hquery
    rw [Bool.and_eq_true, bne_iff_ne] at hdecide
    refine ⟨hdecide.2, ?_⟩
    simp only [setCaller, Function.update_self]
    rw [if_pos hdecide.1, dif_neg hdecide.2]
  · cases h

/-- A caller that moves on within its call does not touch the cache. -/
theorem System.step_cache {s s' : System} {e : Event} (h : s.step murmur randomSeed e = some s') :
    (∃ caller call r refresh now query, e = .update caller call r refresh now query) ∨
    (∃ caller now r paths, e = .storeEmpty caller now ∧ r.src = r.dst ∧
      s'.cache = s.cache.store now r paths) ∨
    (∃ r now paths, e = .store r now paths ∧ s'.cache = s.cache.store now r paths) ∨
    (e = .clearAll ∧ s'.cache = s.cache.clearAll) ∨
    (∃ r, e = .clear r ∧ s'.cache = s.cache.clear r) ∨
    ((∀ r, ¬ e.Asks r ∧ ¬ e.Answers r) ∧ s'.cache = s.cache) := by
  cases e with
  | update caller call r refresh now query => exact .inl ⟨_, _, _, _, _, _, rfl⟩
  | storeEmpty caller now =>
    simp only [step] at h
    split at h
    · next call r internal _ =>
      cases h
      exact .inr (.inl ⟨_, _, r, _, rfl, internal, rfl⟩)
    · cases h
  | store r now paths =>
    cases h
    exact .inr (.inr (.inl ⟨_, _, _, rfl, rfl⟩))
  | clearAll =>
    cases h
    exact .inr (.inr (.inr (.inl ⟨rfl, rfl⟩)))
  | clear r =>
    cases h
    exact .inr (.inr (.inr (.inr (.inl ⟨_, rfl, rfl⟩))))
  | lookupCached r now result =>
    simp only [step, Option.ite_none_right_eq_some] at h
    cases h.2
    exact .inr (.inr (.inr (.inr (.inr ⟨fun _ => ⟨id, id⟩, rfl⟩))))
  | queryInvoked | queryReturned | lookupReturned | lookupReceiveReturned | prefetchReturned =>
    refine .inr (.inr (.inr (.inr (.inr ⟨fun _ => ⟨id, id⟩, ?_⟩))))
    simp only [step] at h
    split at h
    · first
        | cases h; rfl
        | (simp only [Option.ite_none_right_eq_some] at h; cases h.2; rfl)
    · cases h

/-- What a section does to the flag of a route to another AS. -/
theorem System.pending_step {s s' : System} {e : Event} (h : s.step murmur randomSeed e = some s')
    {r : Route} (hr : r.src ≠ r.dst) :
    s'.cache.Pending r ↔ e.Queries r ∨ (¬ e.Asks r ∧ ¬ e.Answers r ∧ s.cache.Pending r) := by
  have hsame : ∀ c : PathCache, c.cache r = s.cache.cache r → (c.Pending r ↔ s.cache.Pending r) := by
    intro c hc
    rw [PathCache.Pending, hc]
    rfl
  rcases step_cache h with ⟨caller, call, r', refresh, now, query, rfl⟩ |
    ⟨caller, now, r', paths, rfl, internal, hcache⟩ | ⟨r', now, paths, rfl, hcache⟩ |
    ⟨rfl, hcache⟩ | ⟨r', rfl, hcache⟩ | ⟨hother, hcache⟩
  · obtain ⟨hquery, hcache, -⟩ := step_update h
    rw [hcache]
    by_cases hroute : r' = r
    · subst hroute
      rw [PathCache.pending_beginUpdate]
      simp [Event.Queries, Event.Asks, hquery, hr]
    · rw [hsame _ (PathCache.cache_beginUpdate_of_ne _ _ (Ne.symm hroute) _)]
      simp [Event.Queries, Event.Asks, Event.Answers, hroute]
  · have hne : r ≠ r' := by
      rintro rfl
      exact hr internal
    rw [hcache, hsame _ (PathCache.cache_store_of_ne _ _ hne _)]
    simp [Event.Queries, Event.Asks, Event.Answers]
  · rw [hcache]
    by_cases hroute : r' = r
    · subst hroute
      simp [PathCache.not_pending_store, Event.Queries, Event.Answers]
    · rw [hsame _ (PathCache.cache_store_of_ne _ _ (Ne.symm hroute) _)]
      simp [Event.Queries, Event.Asks, Event.Answers, hroute]
  · rw [hcache]
    simp [PathCache.Pending, PathCache.clearAll, Event.Queries, Event.Answers]
  · rw [hcache]
    by_cases hroute : r' = r
    · subst hroute
      simp [PathCache.Pending, PathCache.clear, Event.Queries, Event.Answers]
    · rw [hsame _ (Function.update_of_ne (Ne.symm hroute) ..)]
      simp [Event.Queries, Event.Asks, Event.Answers, hroute]
  · have hqueries : ¬ e.Queries r := by
      intro hq
      cases e with
      | update => exact (hother r).1 hq.1
      | _ => exact hq
    rw [hcache]
    simp [hqueries, hother r]

/-! ### Runs -/

variable {minAcceptedLifetime refreshAtRemaining refreshInterval : ℤ}

/-- The flag says whether the last call for the route decided to query. -/
theorem pending_iff_lastCallQueried {h : List Event} {s : System}
    (hrun : Run (System.init minAcceptedLifetime refreshAtRemaining refreshInterval)
      (System.step murmur randomSeed) h s) {r : Route} (hr : r.src ≠ r.dst) :
    s.cache.Pending r ↔ LastCallQueried r h := by
  refine hrun.invariant (I := fun h s => s.cache.Pending r ↔ LastCallQueried r h) ?_ ?_
  · simp [System.init, PathCache.make, PathCache.Pending, LastCallQueried]
  · intro past s e s' ih hstep
    rw [System.pending_step hstep hr, ih, LastCallQueried]

/-- Queries are invoked for routes to another AS only. -/
theorem external_of_queryInvoked {h : List Event} {s : System}
    (hrun : Run (System.init minAcceptedLifetime refreshAtRemaining refreshInterval)
      (System.step murmur randomSeed) h s) {caller : ℕ} {r : Route}
    (hmem : .queryInvoked caller r ∈ h) : r.src ≠ r.dst := by
  induction hrun with
  | start => cases hmem
  | @next past s s' e hpast hstep ih =>
    rcases List.mem_cons.mp hmem with rfl | hmem
    · simp only [System.step] at hstep
      split at hstep
      · next external _ =>
        rw [Option.ite_none_right_eq_some] at hstep
        rw [hstep.1]
        exact external
      · cases hstep
    · exact ih hmem

theorem QueryRunning.mem {caller : ℕ} {r : Route} {h : List Event} (hq : QueryRunning caller r h) :
    .queryInvoked caller r ∈ h := by
  induction h with
  | nil => exact hq.elim
  | cons e past ih =>
    rcases hq.2 with rfl | ⟨-, hq⟩
    · exact List.mem_cons_self ..
    · exact List.mem_cons_of_mem _ (ih hq)

theorem QueryOutstanding.exists_mem {r : Route} {h : List Event} (hq : QueryOutstanding r h) :
    ∃ caller, .queryInvoked caller r ∈ h := by
  induction h with
  | nil => exact hq.elim
  | cons e past ih =>
    rcases hq.2 with ⟨caller, -, hq⟩ | hq
    · exact ⟨caller, List.mem_cons_of_mem _ hq.mem⟩
    · obtain ⟨caller, hmem⟩ := ih hq
      exact ⟨caller, List.mem_cons_of_mem _ hmem⟩

/-- The lookup or prefetch of a caller that began while a query was
outstanding. -/
theorem BeganOutstanding.exists_update {caller : ℕ} {r : Route} {h : List Event}
    (hb : BeganOutstanding caller r h) : ∃ call refresh now past,
      .update caller call r refresh now true :: past <:+ h ∧ QueryOutstanding r past := by
  induction h with
  | nil => exact hb.elim
  | cons e past ih =>
    rcases hb.2 with ⟨call, refresh, now, rfl, hq⟩ | ⟨-, hb⟩
    · exact ⟨_, _, _, _, List.suffix_rfl, hq⟩
    · obtain ⟨call, refresh, now, past', hsuffix, hq⟩ := ih hb
      exact ⟨_, _, _, _, hsuffix.trans (List.suffix_cons e past), hq⟩

/-- While a query is outstanding, a lookup or prefetch decides against a query
exactly if it is patient. -/
theorem query_eq_false_iff {past : List Event} {s s' : System}
    (hrun : Run (System.init minAcceptedLifetime refreshAtRemaining refreshInterval)
      (System.step murmur randomSeed) past s) {caller : ℕ} {call : UpdateCall} {r : Route}
    {refresh : Bool} {now : ℤ} {query : Bool}
    (hstep : s.step murmur randomSeed (.update caller call r refresh now query) = some s')
    (hout : QueryOutstanding r past) :
    query = false ↔ refresh = false ∧
      (LastCallQueried r past ∨ ∃ set, s.cache.cache r = some set ∧ now ≤ set.nextRefresh) := by
  obtain ⟨caller', hmem⟩ := hout.exists_mem
  have external := external_of_queryInvoked hrun hmem
  have hne : (r.src != r.dst) = true := bne_iff_ne.mpr external
  rw [(System.step_update hstep).1, hne, Bool.and_true, PathCache.beginUpdate_eq_false_iff,
    pending_iff_lastCallQueried hrun external]

/-- No second query is sent in a run, nor by the next step of any caller after
any part of it, exactly if every lookup and prefetch in it is patient. -/
theorem noSecondQuery_iff {h : List Event} {s : System}
    (hrun : Run (System.init minAcceptedLifetime refreshAtRemaining refreshInterval)
      (System.step murmur randomSeed) h s) :
    (∀ past e t, past <:+ h → Run (System.init minAcceptedLifetime refreshAtRemaining refreshInterval)
      (System.step murmur randomSeed) (e :: past) t → NoSecondQuery past e) ↔
    Always (System.init minAcceptedLifetime refreshAtRemaining refreshInterval)
      (System.step murmur randomSeed) Patient h := by
  constructor
  · intro hnone past t e ht hsuffix caller call r refresh now query he hout
    subst he
    obtain ⟨t', t₁, ht', hstep⟩ := hrun.of_suffix hsuffix
    obtain rfl := ht'.unique ht
    rw [← query_eq_false_iff ht' hstep hout]
    by_contra hquery
    rw [Bool.not_eq_false] at hquery
    subst hquery
    -- the caller goes on to invoke `queryPaths`
    obtain ⟨external, hasking⟩ := (System.step_update hstep).2.2 rfl
    have hinvoke : t₁.step murmur randomSeed (.queryInvoked caller r)
        = some (t₁.setCaller caller (.querying call r external)) := by
      simp [System.step, hasking]
    exact hnone _ _ _ hsuffix ((ht'.next hstep).next hinvoke) caller r rfl
      ⟨id, .inl ⟨call, refresh, now, rfl, hout⟩⟩
  · intro hpatient past e t hsuffix _ caller r _ hbegan
    obtain ⟨call, refresh, now, before, hupdate, hout⟩ := hbegan.exists_update
    have hupdate := hupdate.trans hsuffix
    obtain ⟨t₀, t₁, ht₀, hstep⟩ := hrun.of_suffix hupdate
    have hfalse := (query_eq_false_iff ht₀ hstep hout).mpr
      (hpatient before t₀ _ ht₀ hupdate caller call r refresh now true rfl hout)
    cases hfalse

end Runs

/-- A lookup whose query returns `Pending`, and a second lookup, which sends no
query but clears the flag. -/
def twoLookups : List Event :=
  [ .lookupReturned 0 2 (.ok []),
    .update 0 .lookup ⟨IsdAsn.make 1 1, IsdAsn.make 1 2⟩ false 2 false,
    .lookupReturned 0 1 (.error .pending),
    .queryReturned 0 .pending,
    .queryInvoked 0 ⟨IsdAsn.make 1 1, IsdAsn.make 1 2⟩,
    .update 0 .lookup ⟨IsdAsn.make 1 1, IsdAsn.make 1 2⟩ false 1 true ]

theorem run_twoLookups : ∃ s, Run (System.init 5 10 30) (System.step (fun _ _ => (0, 0)) 0)
    twoLookups s :=
  ⟨_, .next (.next (.next (.next (.next (.next .start rfl) rfl) rfl) rfl) rfl) rfl⟩

theorem queryOutstanding_twoLookups :
    QueryOutstanding ⟨IsdAsn.make 1 1, IsdAsn.make 1 2⟩ twoLookups :=
  ⟨id, .inr ⟨id, .inr ⟨id, .inr ⟨id, .inl ⟨0, rfl, id, .inl rfl⟩⟩⟩⟩⟩

theorem noSecondQuery_iff_twoLookups :
    (∀ past e t, past <:+ twoLookups → Run (System.init 5 10 30)
      (System.step (fun _ _ => (0, 0)) 0) (e :: past) t → NoSecondQuery past e) ↔
    Always (System.init 5 10 30) (System.step (fun _ _ => (0, 0)) 0) Patient twoLookups :=
  run_twoLookups.elim fun _ hrun => noSecondQuery_iff hrun

/-- The third lookup sends a second query. -/
theorem not_forall_noSecondQuery :
    ¬ ∀ murmur randomSeed minAcceptedLifetime refreshAtRemaining refreshInterval h s,
      Run (System.init minAcceptedLifetime refreshAtRemaining refreshInterval)
        (System.step murmur randomSeed) h s →
      ∀ past e, e :: past <:+ h → NoSecondQuery past e := by
  intro hall
  have hthird : ∃ s, Run (System.init 5 10 30) (System.step (fun _ _ => (0, 0)) 0)
      (.queryInvoked 0 ⟨IsdAsn.make 1 1, IsdAsn.make 1 2⟩
        :: .update 0 .lookup ⟨IsdAsn.make 1 1, IsdAsn.make 1 2⟩ false 3 true :: twoLookups) s :=
    ⟨_, .next (.next (.next (.next (.next (.next (.next (.next .start rfl) rfl) rfl) rfl) rfl) rfl)
      rfl) rfl⟩
  obtain ⟨t, hthird⟩ := hthird
  exact hall _ _ _ _ _ _ _ hthird _ _ List.suffix_rfl 0 _ rfl
    ⟨id, .inl ⟨.lookup, false, 3, rfl, queryOutstanding_twoLookups⟩⟩

end Scion
