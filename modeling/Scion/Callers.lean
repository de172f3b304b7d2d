/-
The callers of the path cache (`path/cache.hpp`, `path/shared_cache.hpp`).

One lemma for each section of a call says where its caller was and where it goes on.

* `System.step_update_callers`, `System.step_queryInvoked` and its like — the sections;
* `System.step_caller`, `System.step_callers_of_ne` — that caller moves, nobody else does;
* `currentRoute` — the route of a caller's last call, from the history.
-/
import Scion.PathCache

namespace Scion

open Runs

/-! ### Sections of one caller -/

/-- The route of the call that the caller is in. -/
def Caller.route : Caller → Option Route
  | idle => none
  | asking _ r _ => some r
  | querying _ r _ => some r
  | storing _ r _ => some r
  | updated _ r _ => some r

/-- The caller whose section the event is. -/
def Event.caller : Event → Option ℕ
  | update caller _ _ _ _ _ => some caller
  | queryInvoked caller _ => some caller
  | queryReturned caller _ => some caller
  | storeEmpty caller _ => some caller
  | lookupReturned caller _ _ => some caller
  | lookupReceiveReturned caller _ _ _ => some caller
  | prefetchReturned caller _ => some caller
  | _ => none

section Steps

variable {murmur : List UInt8 → UInt32 → UInt64 × UInt64} {randomSeed : UInt32}

namespace System

@[simp] theorem callers_setCaller_same (s : System) (caller : ℕ) (state : Caller) :
    (s.setCaller caller state).callers caller = state :=
  Function.update_self ..

theorem callers_setCaller_of_ne (s : System) {caller other : ℕ} (h : other ≠ caller)
    (state : Caller) : (s.setCaller caller state).callers other = s.callers other :=
  Function.update_of_ne h ..

/-- The locked section of `update`, and what the caller does next. -/
theorem step_update_callers {s s' : System} {caller : ℕ} {call : UpdateCall} {r : Route}
    {refresh : Bool} {now : ℤ} {query : Bool}
    (h : s.step murmur randomSeed (.update caller call r refresh now query) = some s') :
    s.callers caller = .idle ∧ s' = { s with cache := (s.cache.beginUpdate now r refresh).1 }.setCaller
      caller (if (s.cache.beginUpdate now r refresh).2 then
          if h : r.src = r.dst then .storing call r h else .asking call r h
        else .updated call r .ok) := by
  simp only [step] at h
  split at h
  · next hguard => exact ⟨hguard.1, (Option.some.inj h).symm⟩
  · cases h

theorem step_queryInvoked {s s' : System} {caller : ℕ} {r : Route}
    (h : s.step murmur randomSeed (.queryInvoked caller r) = some s') :
    ∃ call external, s.callers caller = .asking call r external ∧
      s' = s.setCaller caller (.querying call r external) := by
  simp only [step] at h
  split at h
  · next call r' external hstate =>
    rw [Option.ite_none_right_eq_some] at h
    obtain ⟨rfl, h⟩ := h
    exact ⟨call, external, hstate, (Option.some.inj h).symm⟩
  · cases h

theorem step_queryReturned {s s' : System} {caller : ℕ} {ec : ErrorCode}
    (h : s.step murmur randomSeed (.queryReturned caller ec) = some s') :
    ∃ call r external, s.callers caller = .querying call r external ∧
      s' = s.setCaller caller (.updated call r ec) := by
  simp only [step] at h
  split at h
  · next call r external hstate => exact ⟨call, r, external, hstate, (Option.some.inj h).symm⟩
  · cases h

theorem step_storeEmpty {s s' : System} {caller : ℕ} {now : ℤ}
    (h : s.step murmur randomSeed (.storeEmpty caller now) = some s') :
    ∃ call r internal, s.callers caller = .storing call r internal ∧
      s' = { s with cache := s.cache.store now r [Path.makeEmpty murmur randomSeed r.src] }.setCaller
        caller (.updated call r .ok) := by
  simp only [step] at h
  split at h
  · next call r internal hstate => exact ⟨call, r, internal, hstate, (Option.some.inj h).symm⟩
  · cases h

theorem step_lookupReturned {s s' : System} {caller : ℕ} {now : ℤ} {result : Maybe (List Path)}
    (h : s.step murmur randomSeed (.lookupReturned caller now result) = some s') :
    ∃ r ec, s.callers caller = .updated .lookup r ec ∧ result = s.cache.lookup now r ec ∧
      s' = s.setCaller caller .idle := by
  simp only [step] at h
  split at h
  · next r ec hstate =>
    rw [Option.ite_none_right_eq_some] at h
    exact ⟨r, ec, hstate, h.1, (Option.some.inj h.2).symm⟩
  · cases h

theorem step_lookupReceiveReturned {s s' : System} {caller : ℕ} {now : ℤ}
    {received : Option (List Path)} {ec : ErrorCode}
    (h : s.step murmur randomSeed (.lookupReceiveReturned caller now received ec) = some s') :
    ∃ r ec', s.callers caller = .updated .lookupReceive r ec' ∧
      (received, ec) = s.cache.lookupReceive now r ec' ∧ s' = s.setCaller caller .idle := by
  simp only [step] at h
  split at h
  · next r ec' hstate =>
    rw [Option.ite_none_right_eq_some] at h
    exact ⟨r, ec', hstate, h.1, (Option.some.inj h.2).symm⟩
  · cases h

theorem step_prefetchReturned {s s' : System} {caller : ℕ} {ec : ErrorCode}
    (h : s.step murmur randomSeed (.prefetchReturned caller ec) = some s') :
    ∃ r, s.callers caller = .updated .prefetch r ec ∧ s' = s.setCaller caller .idle := by
  simp only [step] at h
  split at h
  · next r ec' hstate =>
    rw [Option.ite_none_right_eq_some] at h
    obtain ⟨rfl, h⟩ := h
    exact ⟨r, hstate, (Option.some.inj h).symm⟩
  · cases h

/-- The other callers stay where they are. -/
theorem step_callers_of_ne {s s' : System} {e : Event} (h : s.step murmur randomSeed e = some s')
    {other : ℕ} (hother : e.caller ≠ some other) : s'.callers other = s.callers other := by
  have hne : ∀ {caller : ℕ}, e.caller = some caller → other ≠ caller := by
    rintro caller hcaller rfl
    exact hother hcaller
  cases e with
  | update =>
    obtain ⟨-, rfl⟩ := step_update_callers h
    exact callers_setCaller_of_ne _ (hne rfl) _
  | queryInvoked =>
    obtain ⟨_, _, -, rfl⟩ := step_queryInvoked h
    exact callers_setCaller_of_ne _ (hne rfl) _
  | queryReturned =>
    obtain ⟨_, _, _, -, rfl⟩ := step_queryReturned h
    exact callers_setCaller_of_ne _ (hne rfl) _
  | storeEmpty =>
    obtain ⟨_, _, _, -, rfl⟩ := step_storeEmpty h
    exact callers_setCaller_of_ne _ (hne rfl) _
  | lookupReturned =>
    obtain ⟨_, _, -, -, rfl⟩ := step_lookupReturned h
    exact callers_setCaller_of_ne _ (hne rfl) _
  | lookupReceiveReturned =>
    obtain ⟨_, _, -, -, rfl⟩ := step_lookupReceiveReturned h
    exact callers_setCaller_of_ne _ (hne rfl) _
  | prefetchReturned =>
    obtain ⟨_, -, rfl⟩ := step_prefetchReturned h
    exact callers_setCaller_of_ne _ (hne rfl) _
  | lookupCached =>
    simp only [step, Option.ite_none_right_eq_some] at h
    cases h.2
    rfl
  | store | clearAll | clear =>
    cases h
    rfl

/-- The caller whose section it is begins a call, goes on in the middle of one or returns. -/
theorem step_caller {s s' : System} {e : Event} {caller : ℕ}
    (h : s.step murmur randomSeed e = some s') (hcaller : e.caller = some caller) :
    (s.callers caller = .idle ∧
      ∃ call r refresh now query, e = .update caller call r refresh now query) ∨
    (∃ call r external, s.callers caller = .asking call r external ∧
      s'.callers caller = .querying call r external) ∨
    (∃ call r external ec, s.callers caller = .querying call r external ∧
      e = .queryReturned caller ec ∧ s'.callers caller = .updated call r ec) ∨
    (∃ call r internal, s.callers caller = .storing call r internal ∧
      s'.callers caller = .updated call r .ok) ∨
    ∃ call r ec, s.callers caller = .updated call r ec ∧ s'.callers caller = .idle := by
  cases e with
  | update _ call r refresh now query =>
    cases hcaller
    exact .inl ⟨(step_update_callers h).1, call, r, refresh, now, query, rfl⟩
  | queryInvoked _ r =>
    cases hcaller
    obtain ⟨call, external, hstate, rfl⟩ := step_queryInvoked h
    exact .inr (.inl ⟨call, r, external, hstate, callers_setCaller_same ..⟩)
  | queryReturned _ ec =>
    cases hcaller
    obtain ⟨call, r, external, hstate, rfl⟩ := step_queryReturned h
    exact .inr (.inr (.inl ⟨call, r, external, ec, hstate, rfl, callers_setCaller_same ..⟩))
  | storeEmpty =>
    cases hcaller
    obtain ⟨call, r, internal, hstate, rfl⟩ := step_storeEmpty h
    exact .inr (.inr (.inr (.inl ⟨call, r, internal, hstate, callers_setCaller_same ..⟩)))
  | lookupReturned =>
    cases hcaller
    obtain ⟨r, ec, hstate, -, rfl⟩ := step_lookupReturned h
    exact .inr (.inr (.inr (.inr ⟨_, r, ec, hstate, callers_setCaller_same ..⟩)))
  | lookupReceiveReturned =>
    cases hcaller
    obtain ⟨r, ec, hstate, -, rfl⟩ := step_lookupReceiveReturned h
    exact .inr (.inr (.inr (.inr ⟨_, r, ec, hstate, callers_setCaller_same ..⟩)))
  | prefetchReturned _ ec =>
    cases hcaller
    obtain ⟨r, hstate, rfl⟩ := step_prefetchReturned h
    exact .inr (.inr (.inr (.inr ⟨_, r, ec, hstate, callers_setCaller_same ..⟩)))
  | _ => cases hcaller

/-- While `queryPaths` runs, the caller's next section is its return. -/
theorem eq_queryReturned_of_querying {s s' : System} {e : Event} {caller : ℕ} {call : UpdateCall}
    {r : Route} {external : r.src ≠ r.dst} (h : s.step murmur randomSeed e = some s')
    (hstate : s.callers caller = .querying call r external) (hcaller : e.caller = some caller) :
    ∃ ec, e = .queryReturned caller ec := by
  rcases step_caller h hcaller with ⟨hidle, -⟩ | ⟨_, _, _, hasking, -⟩ | ⟨_, _, _, ec, -, he, -⟩ |
    ⟨_, _, _, hstoring, -⟩ | ⟨_, _, _, hupdated, -⟩
  · rw [hidle] at hstate
    cases hstate
  · rw [hasking] at hstate
    cases hstate
  · exact ⟨ec, he⟩
  · rw [hstoring] at hstate
    cases hstate
  · rw [hupdated] at hstate
    cases hstate

/-- A caller in the middle of a call stays with its route or returns. -/
theorem route_step {s s' : System} {e : Event} {caller : ℕ} {r : Route}
    (h : s.step murmur randomSeed e = some s')
    (hupdate : ∀ call r' refresh now query, e ≠ .update caller call r' refresh now query)
    (hroute : s.callers caller = .idle ∨ (s.callers caller).route = some r) :
    s'.callers caller = .idle ∨ (s'.callers caller).route = some r := by
  by_cases hcaller : e.caller = some caller
  · rcases step_caller h hcaller with ⟨-, _, _, _, _, _, rfl⟩ | ⟨_, _, _, hstate, hstate'⟩ |
      ⟨_, _, _, _, hstate, -, hstate'⟩ | ⟨_, _, _, hstate, hstate'⟩ | ⟨_, _, _, -, hidle⟩
    · exact absurd rfl (hupdate _ _ _ _ _)
    · rw [hstate] at hroute
      rw [hstate']
      exact .inr (hroute.resolve_left (by simp))
    · rw [hstate] at hroute
      rw [hstate']
      exact .inr (hroute.resolve_left (by simp))
    · rw [hstate] at hroute
      rw [hstate']
      exact .inr (hroute.resolve_left (by simp))
    · exact .inl hidle
  · rwa [step_callers_of_ne h hcaller]

/-- An idle caller only begins a call. -/
theorem caller_ne_of_idle {s s' : System} {e : Event} {caller : ℕ}
    (h : s.step murmur randomSeed e = some s') (hidle : s.callers caller = .idle)
    (hupdate : ∀ call r refresh now query, e ≠ .update caller call r refresh now query) :
    e.caller ≠ some caller := by
  intro hcaller
  rcases step_caller h hcaller with ⟨-, _, _, _, _, _, rfl⟩ | ⟨_, _, _, hstate, -⟩ |
    ⟨_, _, _, _, hstate, -⟩ | ⟨_, _, _, hstate, -⟩ | ⟨_, _, _, hstate, -⟩
  · exact hupdate _ _ _ _ _ rfl
  · rw [hidle] at hstate
    cases hstate
  · rw [hidle] at hstate
    cases hstate
  · rw [hidle] at hstate
    cases hstate
  · rw [hidle] at hstate
    cases hstate

end System

end Steps

/-! ### Histories -/

/-- The route of the caller's last call that goes through `update`. -/
def currentRoute (caller : ℕ) : List Event → Option Route
  | [] => none
  | .update caller' _ r _ _ _ :: past =>
    if caller' = caller then some r else currentRoute caller past
  | _ :: past => currentRoute caller past

theorem currentRoute_cons_of_not_update {e : Event} {caller : ℕ} (past : List Event)
    (h : ∀ call r refresh now query, e ≠ .update caller call r refresh now query) :
    currentRoute caller (e :: past) = currentRoute caller past := by
  cases e with
  | update caller' call r refresh now query =>
    rw [currentRoute, if_neg]
    rintro rfl
    exact h _ _ _ _ _ rfl
  | _ => rfl

/-- A caller in the middle of a call is so for the route of its last call. -/
theorem currentRoute_of_route {murmur : List UInt8 → UInt32 → UInt64 × UInt64}
    {randomSeed : UInt32} {minAcceptedLifetime refreshAtRemaining refreshInterval : ℤ}
    {h : List Event} {s : System}
    (hrun : Run (System.init minAcceptedLifetime refreshAtRemaining refreshInterval)
      (System.step murmur randomSeed) h s) {caller : ℕ} {r : Route}
    (hroute : (s.callers caller).route = some r) : currentRoute caller h = some r := by
  -- on the run: only a new call changes the last route, and it has that route
  induction hrun generalizing r with
  | start => cases hroute
  | @next past s s' e hpast hstep ih =>
    by_cases hupdate : ∃ call r' refresh now query, e = .update caller call r' refresh now query
    · obtain ⟨call, r', refresh, now, query, rfl⟩ := hupdate
      obtain ⟨-, rfl⟩ := System.step_update_callers hstep
      rw [System.callers_setCaller_same] at hroute
      rw [currentRoute, if_pos rfl, ← hroute]
      split
      · split <;> rfl
      · rfl
    · push Not at hupdate
      rw [currentRoute_cons_of_not_update past hupdate]
      -- the caller was already in the middle of this call
      cases hbefore : (s.callers caller).route with
      | none =>
        have hidle : s.callers caller = .idle := by
          cases hstate : s.callers caller with
          | idle => rfl
          | _ =>
            rw [hstate] at hbefore
            cases hbefore
        by_cases hcaller : e.caller = some caller
        · exact absurd hcaller (System.caller_ne_of_idle hstep hidle hupdate)
        · rw [System.step_callers_of_ne hstep hcaller, hbefore] at hroute
          cases hroute
      | some r' =>
        rcases System.route_step hstep hupdate (.inr hbefore) with hidle | hsame
        · rw [hidle] at hroute
          cases hroute
        · rw [hsame] at hroute
          rw [← hroute]
          exact ih hbefore

end Scion
