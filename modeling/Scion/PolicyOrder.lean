/-
What a policy set returns (`path/policy.hpp`, `path/policy.cpp`).

* `PathOrder.order` — the orderings of the source as orders of paths;
* `Policy.sort_eq` — sorting by all of them, where none is random;
* `PolicySet.Returns` — the accepted paths of the first policy that accepts any;
* `PolicySet.returns_of_loadJsonFile` — that is what `apply` returns, from every set
  that was loaded.
-/
import Scion.PolicyFiles
import Scion.StableSort

namespace Scion

open StableSort

/-! ### Orderings -/

section
variable {κ : Type} [LT κ] [DecidableLT κ] (value : κ → ℤ)
  (hvalue : ∀ a b : κ, a < b ↔ value a < value b) (key : PolicyPath → κ)

/-- Ascending keys, which are compared as numbers. -/
def ascending : Order PolicyPath where
  le a b := !decide (key b < key a)
  trans a b c hab hbc := by
    simp only [Bool.not_eq_true', decide_eq_false_iff_not, hvalue] at hab hbc ⊢
    omega
  total a b := by
    simp only [Bool.or_eq_true, Bool.not_eq_true', decide_eq_false_iff_not, hvalue]
    omega

/-- Descending keys. -/
def descending : Order PolicyPath where
  le a b := !decide (key a < key b)
  trans a b c hab hbc := by
    simp only [Bool.not_eq_true', decide_eq_false_iff_not, hvalue] at hab hbc ⊢
    omega
  total a b := by
    simp only [Bool.or_eq_true, Bool.not_eq_true', decide_eq_false_iff_not, hvalue]
    omega

theorem sortAsc_map_some (null : κ) (ps : List PolicyPath) :
    sortAsc (deref key null) (ps.map some)
      = (ps.mergeSort (ascending value hvalue key).le).map some := by
  symm
  apply List.map_mergeSort
  intro a _ b _
  rfl

theorem sortDesc_map_some (null : κ) (ps : List PolicyPath) :
    sortDesc (deref key null) (ps.map some)
      = (ps.mergeSort (descending value hvalue key).le).map some := by
  symm
  apply List.map_mergeSort
  intro a _ b _
  rfl

end

namespace PathOrder

theorem hops_value (a b : UInt32) : a < b ↔ (a.toNat : ℤ) < b.toNat := by
  rw [UInt32.lt_iff_toNat_lt, Nat.cast_lt]

theorem bw_value (a b : UInt64) : a < b ↔ (a.toNat : ℤ) < b.toNat := by
  rw [UInt64.lt_iff_toNat_lt, Nat.cast_lt]

theorem lat_value (a b : Int64) : a < b ↔ a.toInt < b.toInt := Int64.lt_iff_toInt_lt

/-- The order that an ordering sorts by. A random one has none. -/
def order : PathOrder → Option (Order PolicyPath)
  | random => none
  | hopsAsc => some (ascending _ hops_value PolicyPath.hopCount)
  | hopsDesc => some (descending _ hops_value PolicyPath.hopCount)
  | metaLatAsc => some (ascending _ lat_value getMetaLatency)
  | metaLatDesc => some (descending _ lat_value getMetaLatency)
  | metaBwAsc => some (ascending _ bw_value getMetaBw)
  | metaBwDesc => some (descending _ bw_value getMetaBw)

theorem sort_map_some {o : PathOrder} {ord : Order PolicyPath} (h : o.order = some ord)
    (draw : ℕ → ℕ) (ps : List PolicyPath) :
    o.sort draw (ps.map some) = (ps.mergeSort ord.le).map some := by
  cases o with
  | random => cases h
  | hopsAsc =>
    cases h
    exact sortAsc_map_some _ _ _ _ _
  | hopsDesc =>
    cases h
    exact sortDesc_map_some _ _ _ _ _
  | metaLatAsc =>
    cases h
    exact sortAsc_map_some _ _ _ _ _
  | metaLatDesc =>
    cases h
    exact sortDesc_map_some _ _ _ _ _
  | metaBwAsc =>
    cases h
    exact sortAsc_map_some _ _ _ _ _
  | metaBwDesc =>
    cases h
    exact sortDesc_map_some _ _ _ _ _

end PathOrder

namespace Policy

variable {R : Type}

/-- The orders of the policy, unless one of its orderings is random. -/
def orders (policy : Policy R) : Option (List (Order PolicyPath)) :=
  (policy.ordering.getD []).mapM PathOrder.order

theorem foldl_sort_eq {os : List PathOrder} {orders : List (Order PolicyPath)}
    (h : os.mapM PathOrder.order = some orders) (draw : ℕ → ℕ → ℕ) (k : ℕ) (ps : List PolicyPath) :
    (os.zipIdx k).foldl (fun paths o => o.1.sort (draw o.2) paths) (ps.map some)
      = (orders.foldl (fun ps order => ps.mergeSort order.le) ps).map some := by
  induction os generalizing orders k ps with
  | nil =>
    cases h
    rfl
  | cons o rest ih =>
    rw [List.mapM_cons] at h
    obtain ⟨order, horder, h⟩ := Option.bind_eq_some_iff.mp h
    obtain ⟨orders', horders, h⟩ := Option.bind_eq_some_iff.mp h
    cases h
    rw [List.zipIdx_cons, List.foldl_cons, List.foldl_cons, PathOrder.sort_map_some horder]
    exact ih horders (k + 1) _

/-- The orderings are applied from left to right. -/
theorem sort_eq {policy : Policy R} {orders : List (Order PolicyPath)}
    (h : policy.orders = some orders) (draw : ℕ → ℕ → ℕ) (ps : List PolicyPath) :
    policy.sort draw (ps.map some)
      = (orders.foldl (fun ps order => ps.mergeSort order.le) ps).map some := by
  rw [sort]
  rw [Policy.orders] at h
  cases hordering : policy.ordering with
  | none =>
    rw [hordering] at h
    cases h
    rfl
  | some os =>
    rw [hordering] at h
    exact foldl_sort_eq h draw 0 ps

end Policy

/-! ### What is returned -/

namespace PolicySet

section
variable {R : Type} {compile : List Char → Option R} {set set' : PolicySet R}
  {names names' : PolicyNames}

/-- Also what an exception leaves in the set is linked backwards. -/
theorem BackLinked.leftIn_parsePolicies {entries : List (String × Json)} (h : BackLinked set names) :
    ∃ names', BackLinked (leftIn (PolicySet.parsePolicies compile entries names set)) names' := by
  induction entries generalizing set names with
  | nil => exact ⟨names, h⟩
  | cons entry rest ih =>
    rw [PolicySet.parsePolicies]
    cases hentry : PolicySet.parsePolicy compile set names entry.1 entry.2 with
    | error e => exact ⟨names, h⟩
    | ok r => exact ih (h.parsePolicy hentry)

theorem BackLinked.leftIn_parseMatchers {ms : List Json} (h : BackLinked set names) :
    BackLinked (leftIn (PolicySet.parseMatchers names ms set)) names := by
  induction ms generalizing set with
  | nil => exact h
  | cons matcher rest ih =>
    rw [PolicySet.parseMatchers]
    cases hentry : PolicySet.parseMatcher names matcher with
    | error e => exact h
    | ok entry => exact ih (h.parseMatcher hentry)

theorem BackLinked.leftIn_parseMatchersOf {members : List (String × Json)}
    (h : BackLinked set names) :
    BackLinked (leftIn (PolicySet.parseMatchersOf members names set)) names := by
  rw [PolicySet.parseMatchersOf]
  cases ifContains members "matchers" with
  | none => exact h
  | some matchers =>
    cases harray : matchers.asArray with
    | error e =>
      simp only [harray]
      exact h
    | ok ms =>
      simp only [harray]
      exact h.leftIn_parseMatchers

theorem BackLinked.leftIn_parse (data : Json) :
    ∃ names, BackLinked (leftIn (PolicySet.parse compile data PolicySet.init)) names := by
  rw [PolicySet.parse]
  cases hdata : data.asObject with
  | error e => exact ⟨[], .init⟩
  | ok members =>
    simp only [PolicySet.parsePoliciesOf]
    cases hpolicies : ifContains members "policies" with
    | none => exact ⟨[], BackLinked.init.leftIn_parseMatchersOf⟩
    | some policies =>
      cases hobject : policies.asObject with
      | error e =>
        simp only [hobject]
        exact ⟨[], .init⟩
      | ok entries =>
        simp only [hobject]
        obtain ⟨names', hback⟩ :=
          @BackLinked.leftIn_parsePolicies R compile PolicySet.init [] entries .init
        cases hentries : PolicySet.parsePolicies compile entries [] PolicySet.init with
        | error e s =>
          simp only [hentries] at hback ⊢
          exact ⟨names', hback⟩
        | ok names s =>
          simp only
          exact ⟨names, (BackLinked.init.parsePolicies hentries).leftIn_parseMatchersOf⟩

theorem BackLinked.loadJsonFile (kindError : JsonKind → String) (before : PolicySet R)
    (file : PolicyFile) :
    ∃ names, BackLinked (PolicySet.loadJsonFile compile kindError before file).2 names := by
  cases file with
  | missing => exact ⟨[], .init⟩
  | malformed what => exact ⟨[], .init⟩
  | document data =>
    obtain ⟨names, hback⟩ := @BackLinked.leftIn_parse R compile data
    rw [PolicySet.loadJsonFile]
    cases hparse : PolicySet.parse compile data PolicySet.init with
    | error e s =>
      rw [hparse] at hback
      exact ⟨names, hback⟩
    | ok _ s =>
      rw [hparse] at hback
      exact ⟨names, hback⟩

end

section
variable {R : Type} (regexMatch : R → List Char → Bool)

/-- The outcome of a chain of policies on a list of paths. The first policy that accepts
any decides: its paths come in the order of its orderings, the last one first, and
then in that of the list. -/
structure Returns (chain : List (PolicyIndex × Policy R)) (ps : List PolicyPath)
    (r : AppliedPolicies) : Prop where
  complete : ∀ v ∈ r.visits, v.paths = ps.map some
  length_eq : r.paths.length = ps.length
  rejected : (∀ q ∈ chain, q.2.accepted regexMatch ps = []) → r.paths.take r.returned = []
  accepted : ∀ before q after orders, chain = before ++ q :: after →
    (∀ q' ∈ before, q'.2.accepted regexMatch ps = []) → q.2.accepted regexMatch ps ≠ [] →
    q.2.orders = some orders →
    ∃ sorted, r.paths.take r.returned = sorted.map some ∧
      SortedBy orders.reverse (q.2.accepted regexMatch ps) sorted

/-- The first policy of a chain that accepts a path. -/
theorem find?_accepts {ps : List PolicyPath} {before after : List (PolicyIndex × Policy R)}
    {q : PolicyIndex × Policy R} (hreject : ∀ q' ∈ before, q'.2.accepted regexMatch ps = [])
    (haccept : q.2.accepted regexMatch ps ≠ []) :
    (before ++ q :: after).find? (fun q => decide (q.2.accepted regexMatch ps ≠ [])) = some q :=
  List.find?_eq_some_iff_append.mpr ⟨by simpa using haccept, before, after, rfl,
    fun q' hq' => by simpa using hreject q' hq'⟩

variable {regexMatch}

theorem Tried.returns {draw : ℕ → ℕ → ℕ} {ps : List PolicyPath}
    {chain : List (PolicyIndex × Policy R)} {r : AppliedPolicies}
    (h : Tried regexMatch draw ps chain r) : Returns regexMatch chain ps r := by
  cases h with
  | rejected _ reject =>
    refine ⟨?_, List.length_map _, fun _ => rfl, ?_⟩
    · intro v hv
      obtain ⟨q, -, rfl⟩ := List.mem_map.mp hv
      rfl
    · rintro before q after orders rfl - haccept -
      exact absurd (reject q (by simp)) haccept
  | accepted before after q rest reject accept length =>
    refine ⟨?_, ?_, fun hall => ?_, ?_⟩
    · intro v hv
      obtain ⟨q, -, rfl⟩ := List.mem_map.mp hv
      rfl
    · rw [List.length_append, Policy.length_sort, List.length_map, length]
    · exact absurd (hall q (by simp)) accept
    · intro before' q' after' orders hchain hreject haccept horders
      have hfind := @find?_accepts R regexMatch ps before after q reject accept
      rw [hchain, find?_accepts regexMatch hreject haccept] at hfind
      cases hfind
      refine ⟨_, ?_, foldl_mergeSort orders _⟩
      rw [← Policy.sort_eq horders draw]
      exact List.take_left' (by rw [Policy.length_sort, List.length_map])

end

/-- A set that was loaded returns the accepted paths of the first policy that accepts
any, in the order of its orderings. -/
theorem returns_of_loadJsonFile {R : Type} (compile : List Char → Option R)
    (kindError : JsonKind → String) (regexMatch : R → List Char → Bool) (before : PolicySet R)
    (file : PolicyFile) (draw : ℕ → ℕ → ℕ) (flow : PolicyFlow) (ps : List PolicyPath) :
    ∃ set chain r, (loadJsonFile compile kindError before file).2 = set ∧
      Chain set (set.getPolicyIndex flow).1 chain ∧
      set.apply regexMatch draw (set.policies.length + 1) flow (ps.map some) = some r ∧
      Returns regexMatch chain ps r := by
  obtain ⟨names, hback⟩ := @BackLinked.loadJsonFile R compile kindError before file
  obtain ⟨chain, hchain, -, -, hlen⟩ := hback.exists_flow_chain flow
  by_cases hps : ps = []
  · subst hps
    refine ⟨_, chain, ⟨[], 0, []⟩, rfl, hchain, rfl, ?_⟩
    exact ⟨fun v hv => (by cases hv), rfl, fun _ => rfl,
      fun _ _ _ _ _ _ haccept => absurd rfl haccept⟩
  · obtain ⟨r, happly, htried⟩ := apply_tried regexMatch draw hchain hlen hps
    exact ⟨_, chain, r, rfl, hchain, happly, htried.returns⟩

end PolicySet

end Scion
