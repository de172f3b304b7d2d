/-
Policy sets and failover (`path/policy.hpp`, `path/policy.cpp`).

Policies are kept in document order. A policy names the one that replaces it when
it rejects every path, and that has to be defined before.

* `PolicySet.parse`, `PolicySet.loadJsonFile` — reading a set, with what is kept of
  a document behind an error;
* `PolicySet.apply` — the loop over the failover policies;
* `PolicySet.BackLinked` — failover goes to earlier policies only;
* `PolicySet.Chain`, `PolicySet.Tried` — the policies that replace each other, and
  the outcome of trying them;
* `PolicySet.apply_tried`, `PolicySet.failover_terminates` — the loop tries them in
  order, each at most once.
-/
import Scion.PathPolicy

namespace Scion

/-- An index into the policies with its two special values. -/
inductive PolicyIndex
  | none
  | default
  | policy (i : ℕ)
  deriving DecidableEq, Repr

/-- A set of matchers and policies. Without a policy, the index of a matcher is
beyond all policies. -/
structure PolicySet (R : Type) where
  matchers : List (TrafficMatcher × Option ℕ)
  policies : List (Policy R × PolicyIndex)
  defaultPolicy : Policy R
  deriving DecidableEq, Repr

/-- A policy that is tried, and the span it is applied to. -/
structure PolicyVisit where
  index : PolicyIndex
  paths : List PathPtr
  deriving DecidableEq, Repr

/-- What `apply` leaves in the span, the length of the part it returns, and the
policies it has tried on the way. -/
structure AppliedPolicies where
  paths : List PathPtr
  returned : ℕ
  visits : List PolicyVisit
  deriving DecidableEq, Repr

/-- The policies that have been tried. -/
def AppliedPolicies.visited (s : AppliedPolicies) : List PolicyIndex :=
  s.visits.map PolicyVisit.index

/-- `e.what()`, with the messages for values of another kind. -/
def PolicyException.what (kindError : JsonKind → String) : PolicyException → String
  | parserError what => what
  | notOfKind kind => kindError kind

namespace PolicySet

variable {R : Type}

def init : PolicySet R := ⟨[], [], Policy.init⟩

/-! ### Reading sets -/

/-- The names of the policies with their indices, the latest first. -/
abbrev PolicyNames := List (String × ℕ)

def referencedBeforeDefinition (name : String) : PolicyException :=
  .parserError ("Policy '" ++ cStr name ++ "' referenced before definition")

section
variable (compile : List Char → Option R)

/-- The policy that is extended. -/
def basePolicy (set : PolicySet R) (names : PolicyNames) (obj : List (String × Json)) :
    Except PolicyException (Option (Policy R)) :=
  match ifContains obj "extends" with
  | none => .ok none
  | some raw => do
    let base ← raw.asString
    if base = "default" then .ok (some set.defaultPolicy)
    else
      match names.lookup base with
      | some i => .ok (set.policies[i]?.map Prod.fst)
      | none => .error (referencedBeforeDefinition base)

def nextPolicy (names : PolicyNames) (obj : List (String × Json)) :
    Except PolicyException PolicyIndex :=
  match ifContains obj "failover" with
  | none => .ok .none
  | some raw => do
    let failover ← raw.asString
    if failover = "default" then .ok .default
    else
      match names.lookup failover with
      | some i => .ok (.policy i)
      | none => .error (referencedBeforeDefinition failover)

/-- One round of the loop over the policies. The set is changed last. -/
def parsePolicy (set : PolicySet R) (names : PolicyNames) (name : String) (policy : Json) :
    Except PolicyException (PolicySet R × PolicyNames) := do
  let obj ← policy.asObject
  let base ← basePolicy set names obj
  let next ← nextPolicy names obj
  if name = "default" then
    if next ≠ .none then .error (.parserError "'failover' not allowed in default policy")
    else .ok ({ set with defaultPolicy := ← Policy.ofJson compile obj base }, names)
  else
    let policy ← Policy.ofJson compile obj base
    .ok ({ set with policies := set.policies ++ [(policy, next)] },
      (name, set.policies.length) :: names)

def parsePolicies : List (String × Json) → PolicyNames → PolicySet R →
    EStateM.Result PolicyException (PolicySet R) PolicyNames
  | [], names, set => .ok names set
  | (name, policy) :: rest, names, set =>
    match parsePolicy compile set names name policy with
    | .ok (set', names') => parsePolicies rest names' set'
    | .error e => .error e set

end

def matcherPolicy (names : PolicyNames) (obj : List (String × Json)) :
    Except PolicyException (Option ℕ) :=
  match ifContains obj "policy" with
  | none => .ok none
  | some raw => do
    let policy ← raw.asString
    match names.lookup policy with
    | some i => .ok (some i)
    | none => .error (referencedBeforeDefinition policy)

/-- One round of the loop over the matchers. -/
def parseMatcher (names : PolicyNames) (matcher : Json) :
    Except PolicyException (TrafficMatcher × Option ℕ) := do
  let obj ← matcher.asObject
  let policy ← matcherPolicy names obj
  .ok (← TrafficMatcher.ofJson obj, policy)

def parseMatchers (names : PolicyNames) : List Json → PolicySet R →
    EStateM.Result PolicyException (PolicySet R) Unit
  | [], set => .ok () set
  | matcher :: rest, set =>
    match parseMatcher names matcher with
    | .ok entry => parseMatchers names rest { set with matchers := set.matchers ++ [entry] }
    | .error e => .error e set

section
variable (compile : List Char → Option R)

/-- The second half of `parse`. -/
def parseMatchersOf (members : List (String × Json)) (names : PolicyNames) (set : PolicySet R) :
    EStateM.Result PolicyException (PolicySet R) Unit :=
  match ifContains members "matchers" with
  | none => .ok () set
  | some matchers =>
    match matchers.asArray with
    | .ok matchers => parseMatchers names matchers set
    | .error e => .error e set

/-- The first half of `parse`. -/
def parsePoliciesOf (members : List (String × Json)) (set : PolicySet R) :
    EStateM.Result PolicyException (PolicySet R) PolicyNames :=
  match ifContains members "policies" with
  | none => .ok [] set
  | some policies =>
    match policies.asObject with
    | .ok policies => parsePolicies compile policies [] set
    | .error e => .error e set

def parse (data : Json) (set : PolicySet R) : EStateM.Result PolicyException (PolicySet R) Unit :=
  match data.asObject with
  | .error e => .error e set
  | .ok members =>
    match parsePoliciesOf compile members set with
    | .error e set' => .error e set'
    | .ok names set' => parseMatchersOf members names set'

end

/-- What is found at the path of a policy file. -/
inductive PolicyFile
  | missing
  | malformed (what : String)
  | document (data : Json)
  deriving Repr

/-- `loadJsonFile`: the error with its message, and the set afterwards. -/
def loadJsonFile (compile : List Char → Option R) (kindError : JsonKind → String)
    (_ : PolicySet R) : PolicyFile → (ErrorCode × String) × PolicySet R
  | .missing => ((.fileNotFound, "file not found"), init)
  | .malformed what => ((.syntaxError, what), init)
  | .document data =>
    match parse compile data init with
    | .ok _ set => ((.ok, ""), set)
    | .error e set => ((.syntaxError, e.what kindError), set)

/-! ### Applying sets -/

/-- The loop over the matchers. -/
def matchingPolicy (set : PolicySet R) (flow : PolicyFlow) :
    List (TrafficMatcher × Option ℕ) → Option ℕ
  | [] => none
  | (_, none) :: rest => matchingPolicy set flow rest
  | (matcher, some i) :: rest =>
    if matcher.matchFlow flow && i < set.policies.length then some i
    else matchingPolicy set flow rest

/-- `getPolicyIndex`, with where the policy stands. -/
def getPolicyIndex (set : PolicySet R) (flow : PolicyFlow) :
    PolicyIndex × Policy R × PolicyIndex :=
  match set.matchingPolicy flow set.matchers with
  | none => (.default, set.defaultPolicy, .none)
  | some i =>
    match set.policies[i]? with
    | some (policy, next) => (.policy i, policy, next)
    | none => (.default, set.defaultPolicy, .none)

section
variable (regexMatch : R → List Char → Bool) (set : PolicySet R) (draw : ℕ → ℕ → ℕ)

/-- The loop of `apply`, for a number of rounds. There is no policy beyond the
last. -/
def failover : ℕ → AppliedPolicies → PolicyIndex → Option AppliedPolicies
  | 0, _, _ => none
  | n + 1, s, next =>
    if s.returned ≠ 0 then some s
    else
      match next with
      | .none => some s
      | .default => do
        let (paths, returned) ← set.defaultPolicy.apply regexMatch draw s.paths
        some ⟨paths, returned, s.visits ++ [⟨.default, s.paths⟩]⟩
      | .policy i =>
        match set.policies[i]? with
        | none => none
        | some (policy, next') => do
          let (paths, returned) ← policy.apply regexMatch draw s.paths
          failover n ⟨paths, returned, s.visits ++ [⟨.policy i, s.paths⟩]⟩ next'

/-- `apply`, where the loop takes at most `n` rounds. -/
def apply (n : ℕ) (flow : PolicyFlow) (paths : List PathPtr) : Option AppliedPolicies :=
  if paths.isEmpty then some ⟨paths, 0, []⟩
  else do
    let (index, policy, next) := set.getPolicyIndex flow
    let (paths', returned) ← policy.apply regexMatch draw paths
    failover regexMatch set draw n ⟨paths', returned, [⟨index, paths⟩]⟩ next

end

/-! ### What a document leaves in the set -/

theorem bind_eq_ok {ε α β : Type} {x : Except ε α} {f : α → Except ε β} {b : β} :
    (x >>= f) = .ok b ↔ ∃ a, x = .ok a ∧ f a = .ok b := by
  cases x <;> simp [bind, Except.bind]

section
variable {compile : List Char → Option R} {set set' : PolicySet R} {names names' : PolicyNames}

theorem nextPolicy_eq_policy {obj : List (String × Json)} {i : ℕ}
    (h : nextPolicy names obj = .ok (.policy i)) : ∃ name, names.lookup name = some i := by
  rw [nextPolicy] at h
  cases hraw : ifContains obj "failover" with
  | none =>
    rw [hraw] at h
    cases h
  | some raw =>
    rw [hraw] at h
    obtain ⟨name, -, h⟩ := bind_eq_ok.mp h
    by_cases hdefault : name = "default"
    · rw [if_pos hdefault] at h
      cases h
    · rw [if_neg hdefault] at h
      cases hlookup : names.lookup name with
      | none =>
        rw [hlookup] at h
        cases h
      | some j =>
        rw [hlookup] at h
        cases h
        exact ⟨name, hlookup⟩

/-- An entry defines the default policy, or a policy behind those before it whose
failover policy has a name by then. -/
theorem parsePolicy_cases {name : String} {policy : Json}
    (h : parsePolicy compile set names name policy = .ok (set', names')) :
    (∃ p, name = "default" ∧ set' = { set with defaultPolicy := p } ∧ names' = names) ∨
    (∃ p next, set' = { set with policies := set.policies ++ [(p, next)] } ∧
      names' = (name, set.policies.length) :: names ∧
      ∀ i, next = .policy i → ∃ earlier, names.lookup earlier = some i) := by
  rw [parsePolicy] at h
  obtain ⟨obj, -, h⟩ := bind_eq_ok.mp h
  obtain ⟨base, -, h⟩ := bind_eq_ok.mp h
  obtain ⟨next, hnext, h⟩ := bind_eq_ok.mp h
  by_cases hname : name = "default"
  · rw [if_pos hname] at h
    by_cases hnone : next ≠ .none
    · rw [if_pos hnone] at h
      cases h
    · rw [if_neg hnone] at h
      obtain ⟨p, -, h⟩ := bind_eq_ok.mp h
      cases h
      exact Or.inl ⟨p, hname, rfl, rfl⟩
  · rw [if_neg hname] at h
    obtain ⟨p, -, h⟩ := bind_eq_ok.mp h
    cases h
    refine Or.inr ⟨p, next, rfl, rfl, fun i hi => ?_⟩
    subst hi
    exact nextPolicy_eq_policy hnext

/-- Names and matchers are those of policies, and failover goes to earlier
policies. -/
structure BackLinked (set : PolicySet R) (names : PolicyNames) : Prop where
  names_lt : ∀ name i, names.lookup name = some i → i < set.policies.length
  next_lt : ∀ i p j, set.policies[i]? = some (p, PolicyIndex.policy j) → j < i
  matcher_lt : ∀ m ∈ set.matchers, ∀ i, m.2 = some i → i < set.policies.length

theorem BackLinked.init : BackLinked (init : PolicySet R) [] :=
  ⟨fun _ _ h => (by cases h), fun _ _ _ h => (by cases h), fun _ h => (by cases h)⟩

theorem BackLinked.parsePolicy (h : BackLinked set names) {name : String} {policy : Json}
    (hok : parsePolicy compile set names name policy = .ok (set', names')) :
    BackLinked set' names' := by
  obtain ⟨p, -, rfl, rfl⟩ | ⟨p, next, rfl, rfl, hnext⟩ := parsePolicy_cases hok
  · exact ⟨h.names_lt, h.next_lt, h.matcher_lt⟩
  · refine ⟨?_, ?_, ?_⟩
    · intro name' i hlookup
      rw [List.lookup_cons] at hlookup
      show i < (set.policies ++ [(p, next)]).length
      rw [List.length_append, List.length_singleton]
      cases hname : name' == name with
      | true =>
        rw [hname] at hlookup
        cases hlookup
        exact Nat.lt_succ_self _
      | false =>
        rw [hname] at hlookup
        exact Nat.lt_succ_of_lt (h.names_lt name' i hlookup)
    · intro i p' j hi
      replace hi : (set.policies ++ [(p, next)])[i]? = some (p', .policy j) := hi
      rcases Nat.lt_trichotomy i set.policies.length with hlt | rfl | hgt
      · rw [List.getElem?_append_left hlt] at hi
        exact h.next_lt i p' j hi
      · rw [List.getElem?_concat_length] at hi
        cases hi
        obtain ⟨earlier, hearlier⟩ := hnext j rfl
        exact h.names_lt earlier j hearlier
      · rw [List.getElem?_eq_none (by simp; omega)] at hi
        cases hi
    · intro m hm i hi
      show i < (set.policies ++ [(p, next)]).length
      rw [List.length_append]
      exact Nat.lt_add_right _ (h.matcher_lt m hm i hi)

theorem BackLinked.parsePolicies {policies : List (String × Json)} (h : BackLinked set names)
    (hok : parsePolicies compile policies names set = .ok names' set') : BackLinked set' names' := by
  induction policies generalizing set names with
  | nil =>
    cases hok
    exact h
  | cons entry rest ih =>
    rw [PolicySet.parsePolicies] at hok
    cases hentry : PolicySet.parsePolicy compile set names entry.1 entry.2 with
    | error e =>
      rw [hentry] at hok
      cases hok
    | ok r =>
      rw [hentry] at hok
      exact ih (h.parsePolicy hentry) hok

theorem matcherPolicy_eq_some {obj : List (String × Json)} {i : ℕ}
    (h : matcherPolicy names obj = .ok (some i)) : ∃ name, names.lookup name = some i := by
  rw [matcherPolicy] at h
  cases hraw : ifContains obj "policy" with
  | none =>
    rw [hraw] at h
    cases h
  | some raw =>
    rw [hraw] at h
    obtain ⟨name, -, h⟩ := bind_eq_ok.mp h
    cases hlookup : names.lookup name with
    | none =>
      rw [hlookup] at h
      cases h
    | some j =>
      rw [hlookup] at h
      cases h
      exact ⟨name, hlookup⟩

theorem BackLinked.parseMatcher (h : BackLinked set names) {matcher : Json}
    {entry : TrafficMatcher × Option ℕ} (hok : parseMatcher names matcher = .ok entry) :
    BackLinked { set with matchers := set.matchers ++ [entry] } names := by
  refine ⟨h.names_lt, h.next_lt, fun m hm i hi => ?_⟩
  rcases List.mem_append.mp hm with hold | hnew
  · exact h.matcher_lt m hold i hi
  · rw [List.mem_singleton.mp hnew] at hi
    rw [PolicySet.parseMatcher] at hok
    obtain ⟨obj, -, hok⟩ := bind_eq_ok.mp hok
    obtain ⟨policy, hpolicy, hok⟩ := bind_eq_ok.mp hok
    obtain ⟨tm, -, hok⟩ := bind_eq_ok.mp hok
    cases hok
    subst hi
    obtain ⟨name, hname⟩ := matcherPolicy_eq_some hpolicy
    exact h.names_lt name i hname

theorem BackLinked.parseMatchers {ms : List Json} (h : BackLinked set names)
    (hok : parseMatchers names ms set = .ok () set') : BackLinked set' names := by
  induction ms generalizing set with
  | nil =>
    cases hok
    exact h
  | cons matcher rest ih =>
    rw [PolicySet.parseMatchers] at hok
    cases hentry : PolicySet.parseMatcher names matcher with
    | error e =>
      rw [hentry] at hok
      cases hok
    | ok entry =>
      rw [hentry] at hok
      exact ih (h.parseMatcher hentry) hok

/-- Reading a document stops nowhere: the policies are read, and then the
matchers. -/
theorem parse_ok {data : Json} (hok : parse compile data set = .ok () set') :
    ∃ members names mid, parsePoliciesOf compile members set = .ok names mid ∧
      parseMatchersOf members names mid = .ok () set' := by
  rw [parse] at hok
  cases hdata : data.asObject with
  | error e =>
    rw [hdata] at hok
    cases hok
  | ok members =>
    rw [hdata] at hok
    cases hpolicies : parsePoliciesOf compile members set with
    | error e mid =>
      simp only [hpolicies] at hok
      cases hok
    | ok names mid =>
      simp only [hpolicies] at hok
      exact ⟨members, names, mid, hpolicies, hok⟩

theorem BackLinked.parsePoliciesOf {members : List (String × Json)} (h : BackLinked set [])
    (hok : parsePoliciesOf compile members set = .ok names' set') : BackLinked set' names' := by
  rw [PolicySet.parsePoliciesOf] at hok
  cases hpolicies : ifContains members "policies" with
  | none =>
    rw [hpolicies] at hok
    cases hok
    exact h
  | some policies =>
    simp only [hpolicies] at hok
    cases hobject : policies.asObject with
    | error e =>
      simp only [hobject] at hok
      cases hok
    | ok entries =>
      simp only [hobject] at hok
      exact h.parsePolicies hok

theorem BackLinked.parseMatchersOf {members : List (String × Json)} (h : BackLinked set names)
    (hok : parseMatchersOf members names set = .ok () set') : BackLinked set' names := by
  rw [PolicySet.parseMatchersOf] at hok
  cases hmatchers : ifContains members "matchers" with
  | none =>
    rw [hmatchers] at hok
    cases hok
    exact h
  | some matchers =>
    simp only [hmatchers] at hok
    cases harray : matchers.asArray with
    | error e =>
      simp only [harray] at hok
      cases hok
    | ok entries =>
      simp only [harray] at hok
      exact h.parseMatchers hok

theorem BackLinked.parse {data : Json} (hok : parse compile data PolicySet.init = .ok () set) :
    ∃ names, BackLinked set names := by
  obtain ⟨members, names, mid, hpolicies, hmatchers⟩ := parse_ok hok
  exact ⟨names, (BackLinked.init.parsePoliciesOf hpolicies).parseMatchersOf hmatchers⟩

end

/-! ### Failover -/

section
variable (regexMatch : R → List Char → Bool) {set : PolicySet R} {names : PolicyNames}

/-- The policies that replace each other from an index on, with their indices. -/
inductive Chain (set : PolicySet R) : PolicyIndex → List (PolicyIndex × Policy R) → Prop
  | none : Chain set .none []
  | default : Chain set .default [(.default, set.defaultPolicy)]
  | policy {i : ℕ} {p : Policy R} {next : PolicyIndex} {rest : List (PolicyIndex × Policy R)}
      (get : set.policies[i]? = some (p, next)) (tail : Chain set next rest) :
      Chain set (.policy i) ((.policy i, p) :: rest)

/-- The policies that exist. -/
def Exists (set : PolicySet R) : PolicyIndex → Prop
  | .policy i => i < set.policies.length
  | _ => True

/-- The places in a chain from `next` on: each stands before the next one. -/
structure Descends (set : PolicySet R) (next : PolicyIndex) (places : List PolicyIndex) : Prop where
  nodup : places.Nodup
  exist : ∀ v ∈ places, Exists set v
  ne_none : .none ∉ places
  of_none : next = .none → places = []
  of_default : next = .default → places = [.default]
  le : ∀ i j, next = .policy i → .policy j ∈ places → j ≤ i
  length_le : ∀ i, next = .policy i → places.length ≤ i + 2

theorem Descends.cons {i : ℕ} {next : PolicyIndex} {places : List PolicyIndex}
    (h : Descends set next places) (hi : i < set.policies.length)
    (hnext : ∀ j, next = .policy j → j < i) :
    Descends set (.policy i) (.policy i :: places) := by
  have hlt (j : ℕ) (hj : PolicyIndex.policy j ∈ places) : j < i := by
    cases next with
    | none => cases h.of_none rfl ▸ hj
    | default =>
      have hmem := h.of_default rfl ▸ hj
      cases List.mem_singleton.mp hmem
    | policy k => exact Nat.lt_of_le_of_lt (h.le k j rfl hj) (hnext k rfl)
  refine ⟨?_, ?_, ?_, fun hnone => ?_, fun hdefault => ?_, ?_, ?_⟩
  · exact List.nodup_cons.mpr ⟨fun hmem => absurd (hlt i hmem) (Nat.lt_irrefl i), h.nodup⟩
  · exact List.forall_mem_cons.mpr ⟨hi, h.exist⟩
  · exact List.not_mem_cons_of_ne_of_not_mem (by simp) h.ne_none
  · cases hnone
  · cases hdefault
  · intro k j hk hj
    cases hk
    rcases List.mem_cons.mp hj with heq | hj
    · cases heq
      exact le_refl i
    · exact Nat.le_of_lt (hlt j hj)
  · intro k hk
    cases hk
    rw [List.length_cons]
    cases next with
    | none =>
      rw [h.of_none rfl]
      exact Nat.le_add_left 1 (i + 1)
    | default =>
      rw [h.of_default rfl]
      exact Nat.le_add_left 2 i
    | policy k =>
      have hlen := h.length_le k rfl
      have hki := hnext k rfl
      omega

/-- Failover from a policy that exists ends. -/
theorem BackLinked.exists_chain (h : BackLinked set names) (next : PolicyIndex)
    (hnext : Exists set next) :
    ∃ chain, Chain set next chain ∧ Descends set next (chain.map Prod.fst) := by
  cases next with
  | none => exact ⟨[], .none, by constructor <;> simp⟩
  | default => exact ⟨_, .default, by constructor <;> simp [Exists]⟩
  | policy i =>
    induction i using Nat.strongRecOn with
    | ind i ih =>
      obtain ⟨⟨p, next⟩, hget⟩ : ∃ entry, set.policies[i]? = some entry :=
        ⟨_, List.getElem?_eq_getElem hnext⟩
      have hlt : ∀ j, next = .policy j → j < i := by
        rintro j rfl
        exact h.next_lt i p j hget
      obtain ⟨chain, hchain, hdesc⟩ : ∃ chain, Chain set next chain ∧
          Descends set next (chain.map Prod.fst) := by
        cases next with
        | none => exact ⟨[], .none, by constructor <;> simp⟩
        | default => exact ⟨_, .default, by constructor <;> simp [Exists]⟩
        | policy j => exact ih j (hlt j rfl) ((hlt j rfl).trans hnext)
      exact ⟨_, .policy hget hchain, hdesc.cons hnext hlt⟩

/-- The outcome of trying the policies of a chain on a span: those that reject every
path leave it to the next one as it is. -/
inductive Tried (draw : ℕ → ℕ → ℕ) (ps : List PolicyPath) :
    List (PolicyIndex × Policy R) → AppliedPolicies → Prop
  | rejected (chain : List (PolicyIndex × Policy R))
      (reject : ∀ q ∈ chain, q.2.accepted regexMatch ps = []) :
      Tried draw ps chain ⟨ps.map some, 0, chain.map fun q => ⟨q.1, ps.map some⟩⟩
  | accepted (before after : List (PolicyIndex × Policy R)) (q : PolicyIndex × Policy R)
      (rest : List PathPtr) (reject : ∀ q ∈ before, q.2.accepted regexMatch ps = [])
      (accept : q.2.accepted regexMatch ps ≠ [])
      (length : (q.2.accepted regexMatch ps).length + rest.length = ps.length) :
      Tried draw ps (before ++ q :: after)
        ⟨q.2.sort draw ((q.2.accepted regexMatch ps).map some) ++ rest,
          (q.2.accepted regexMatch ps).length,
          (before ++ [q]).map fun q => ⟨q.1, ps.map some⟩⟩

/-- A policy is tried on the whole span: it takes its paths, or leaves the span as it
is. -/
theorem apply_tries (q : PolicyIndex × Policy R) (draw : ℕ → ℕ → ℕ) (ps : List PolicyPath) :
    (q.2.accepted regexMatch ps = [] ∧
      q.2.apply regexMatch draw (ps.map some) = some (ps.map some, 0)) ∨
    (q.2.accepted regexMatch ps ≠ [] ∧ ∃ rest, q.2.apply regexMatch draw (ps.map some)
      = some (q.2.sort draw ((q.2.accepted regexMatch ps).map some) ++ rest,
        (q.2.accepted regexMatch ps).length) ∧
      (q.2.accepted regexMatch ps).length + rest.length = ps.length) := by
  obtain ⟨rest, happly, hlen, hrest⟩ := q.2.apply_eq regexMatch draw ps
  by_cases hnil : q.2.accepted regexMatch ps = []
  · refine Or.inl ⟨hnil, ?_⟩
    rw [happly, hrest hnil, hnil]
    simp
  · exact Or.inr ⟨hnil, rest, happly, hlen⟩

theorem failover_of_returned (draw : ℕ → ℕ → ℕ) {n : ℕ} (hn : 0 < n) {s : AppliedPolicies}
    (h : s.returned ≠ 0) (next : PolicyIndex) :
    failover regexMatch set draw n s next = some s := by
  cases n with
  | zero => exact absurd hn (Nat.lt_irrefl 0)
  | succ n =>
    rw [failover.eq_def]
    exact if_pos h

theorem failover_tried {draw : ℕ → ℕ → ℕ} {ps : List PolicyPath} {next : PolicyIndex}
    {chain : List (PolicyIndex × Policy R)} (hchain : Chain set next chain) {n : ℕ}
    (hn : chain.length < n) {before : List (PolicyIndex × Policy R)}
    (hbefore : ∀ q ∈ before, q.2.accepted regexMatch ps = []) :
    ∃ r, failover regexMatch set draw n
        ⟨ps.map some, 0, before.map fun q => ⟨q.1, ps.map some⟩⟩ next = some r ∧
      Tried regexMatch draw ps (before ++ chain) r := by
  induction hchain generalizing n before with
  | none =>
    obtain ⟨n, rfl⟩ := Nat.exists_eq_succ_of_ne_zero (Nat.ne_of_gt hn)
    rw [List.append_nil]
    exact ⟨_, rfl, .rejected before hbefore⟩
  | default =>
    obtain ⟨n, rfl⟩ := Nat.exists_eq_succ_of_ne_zero (Nat.ne_of_gt (Nat.zero_lt_of_lt hn))
    rw [failover.eq_def]
    dsimp only
    rw [if_neg (not_not_intro rfl)]
    rcases apply_tries regexMatch (.default, set.defaultPolicy) draw ps with
      ⟨hreject, happly⟩ | ⟨haccept, rest, happly, hlen⟩
    · dsimp only at happly
      rw [happly]
      refine ⟨_, rfl, ?_⟩
      have htried := @Tried.rejected R regexMatch draw ps _ (List.forall_mem_append.mpr
        ⟨hbefore, List.forall_mem_singleton.mpr hreject⟩)
      rwa [List.map_append] at htried
    · dsimp only at happly
      rw [happly]
      refine ⟨_, rfl, ?_⟩
      have htried := @Tried.accepted R regexMatch draw ps before [] _ rest hbefore haccept hlen
      rwa [List.map_append] at htried
  | @policy i p next chain hget hchain ih =>
    rw [List.length_cons] at hn
    obtain ⟨n, rfl⟩ := Nat.exists_eq_succ_of_ne_zero (Nat.ne_of_gt (Nat.zero_lt_of_lt hn))
    rw [failover.eq_def]
    dsimp only
    rw [if_neg (not_not_intro rfl), hget]
    rcases apply_tries regexMatch (.policy i, p) draw ps with
      ⟨hreject, happly⟩ | ⟨haccept, rest, happly, hlen⟩
    · dsimp only at happly ⊢
      rw [happly]
      have hrest := @ih n (by omega) (before ++ [(.policy i, p)]) (List.forall_mem_append.mpr
        ⟨hbefore, List.forall_mem_singleton.mpr hreject⟩)
      rwa [List.map_append, List.append_assoc] at hrest
    · dsimp only at happly ⊢
      rw [happly]
      refine ⟨_, failover_of_returned regexMatch draw (by omega)
        (fun h => haccept (List.length_eq_zero_iff.mp h)) next, ?_⟩
      have htried := @Tried.accepted R regexMatch draw ps before chain _ rest hbefore haccept hlen
      rwa [List.map_append] at htried

/-- A matcher is ignored: without it, every flow gets the policy that it gets. -/
def Ignores (set : PolicySet R) (m : TrafficMatcher × Option ℕ) : Prop :=
  ∀ before after, set.matchers = before ++ m :: after → ∀ flow,
    ({ set with matchers := before ++ after } : PolicySet R).getPolicyIndex flow
      = set.getPolicyIndex flow

theorem matchingPolicy_lt (flow : PolicyFlow) {ms : List (TrafficMatcher × Option ℕ)} {i : ℕ}
    (h : set.matchingPolicy flow ms = some i) : i < set.policies.length := by
  induction ms with
  | nil => cases h
  | cons m rest ih =>
    obtain ⟨matcher, policy⟩ := m
    cases policy with
    | none => exact ih h
    | some j =>
      rw [matchingPolicy] at h
      by_cases hmatch : (matcher.matchFlow flow && decide (j < set.policies.length)) = true
      · rw [if_pos hmatch] at h
        cases h
        exact of_decide_eq_true (Bool.and_eq_true_iff.mp hmatch).2
      · rw [if_neg hmatch] at h
        exact ih h

theorem ignores_of_none (matcher : TrafficMatcher) : Ignores set (matcher, none) := by
  intro before after hmatchers flow
  have hmatching : ∀ ms, set.matchingPolicy flow (ms ++ (matcher, none) :: after)
      = set.matchingPolicy flow (ms ++ after) := by
    intro ms
    induction ms with
    | nil => rfl
    | cons m rest ih =>
      obtain ⟨tm, policy⟩ := m
      cases policy with
      | none => exact ih
      | some i => rw [List.cons_append, List.cons_append, matchingPolicy, matchingPolicy, ih]
  have hsame : ∀ ms, ({ set with matchers := before ++ after } : PolicySet R).matchingPolicy flow ms
      = set.matchingPolicy flow ms := by
    intro ms
    induction ms with
    | nil => rfl
    | cons m rest ih =>
      obtain ⟨tm, policy⟩ := m
      cases policy with
      | none => exact ih
      | some i => rw [matchingPolicy, matchingPolicy, ih]
  rw [getPolicyIndex, getPolicyIndex, hsame, hmatchers, hmatching]

theorem getPolicyIndex_cases (set : PolicySet R) (flow : PolicyFlow) :
    set.getPolicyIndex flow = (.default, set.defaultPolicy, .none) ∨
    ∃ i p next, set.policies[i]? = some (p, next) ∧
      set.getPolicyIndex flow = (.policy i, p, next) := by
  rw [getPolicyIndex]
  cases hmatching : set.matchingPolicy flow set.matchers with
  | none => exact Or.inl rfl
  | some i =>
    obtain ⟨⟨p, next⟩, hget⟩ : ∃ entry, set.policies[i]? = some entry :=
      ⟨_, List.getElem?_eq_getElem (matchingPolicy_lt flow hmatching)⟩
    simp only [hget]
    exact Or.inr ⟨i, p, next, hget, rfl⟩

/-- The policy of a flow, and the policies that replace it. -/
theorem BackLinked.exists_flow_chain (h : BackLinked set names) (flow : PolicyFlow) :
    ∃ chain, Chain set (set.getPolicyIndex flow).1 chain ∧ (chain.map Prod.fst).Nodup ∧
      (∀ v ∈ chain.map Prod.fst, Exists set v) ∧ chain.length ≤ set.policies.length + 1 := by
  rcases getPolicyIndex_cases set flow with hindex | ⟨i, p, next, hget, hindex⟩
  · rw [hindex]
    exact ⟨_, .default, by simp, by simp [Exists], by simp⟩
  · rw [hindex]
    have hi : i < set.policies.length := (List.getElem?_eq_some_iff.mp hget).1
    obtain ⟨chain, hchain, hdesc⟩ := h.exists_chain (.policy i) hi
    have hlen := hdesc.length_le i rfl
    rw [List.length_map] at hlen
    exact ⟨chain, hchain, hdesc.nodup, hdesc.exist, by omega⟩

/-- The policies of the chain are tried until one accepts a path. -/
theorem apply_tried (draw : ℕ → ℕ → ℕ) {flow : PolicyFlow} {chain : List (PolicyIndex × Policy R)}
    (hchain : Chain set (set.getPolicyIndex flow).1 chain) {n : ℕ} (hn : chain.length ≤ n)
    {ps : List PolicyPath} (hps : ps ≠ []) :
    ∃ r, set.apply regexMatch draw n flow (ps.map some) = some r ∧ Tried regexMatch draw ps chain r := by
  have hempty : (ps.map some).isEmpty = false := by
    simpa using hps
  -- the first policy, and what follows it
  obtain ⟨q, next, tail, rfl, hindex, htail⟩ : ∃ q next tail, chain = q :: tail ∧
      set.getPolicyIndex flow = (q.1, q.2, next) ∧ Chain set next tail := by
    rcases getPolicyIndex_cases set flow with hindex | ⟨i, p, next, hget, hindex⟩
    · rw [hindex] at hchain
      cases hchain
      exact ⟨_, .none, [], rfl, hindex, .none⟩
    · rw [hindex] at hchain
      cases hchain with
      | policy hget' htail =>
        rw [hget] at hget'
        cases hget'
        exact ⟨_, next, _, rfl, hindex, htail⟩
  rw [List.length_cons] at hn
  rw [apply, hempty, if_neg Bool.false_ne_true, hindex]
  dsimp only
  rcases apply_tries regexMatch q draw ps with ⟨hreject, happly⟩ | ⟨haccept, rest, happly, hlen⟩
  · rw [happly]
    exact @failover_tried R regexMatch set draw ps next tail htail n hn [q]
      (List.forall_mem_singleton.mpr hreject)
  · rw [happly]
    refine ⟨_, failover_of_returned regexMatch draw (by omega)
      (fun h => haccept (List.length_eq_zero_iff.mp h)) next, ?_⟩
    exact Tried.accepted [] tail q rest (by simp) haccept hlen

theorem Tried.visited {draw : ℕ → ℕ → ℕ} {ps : List PolicyPath}
    {chain : List (PolicyIndex × Policy R)} {r : AppliedPolicies}
    (h : Tried regexMatch draw ps chain r) : r.visited <+: chain.map Prod.fst := by
  cases h with
  | rejected =>
    rw [AppliedPolicies.visited, List.map_map]
    exact List.prefix_rfl
  | accepted before after q rest =>
    rw [AppliedPolicies.visited, List.map_map]
    have hpre := (List.prefix_append (before ++ [q]) after).map Prod.fst
    rwa [← List.append_cons] at hpre

/-- The loop of `apply` ends. -/
theorem BackLinked.apply_ends (h : BackLinked set names) (draw : ℕ → ℕ → ℕ) (flow : PolicyFlow)
    (ps : List PolicyPath) :
    ∃ r, set.apply regexMatch draw (set.policies.length + 1) flow (ps.map some) = some r ∧
      r.visited.Nodup ∧ ∀ v ∈ r.visited, Exists set v := by
  by_cases hps : ps = []
  · subst hps
    exact ⟨⟨[], 0, []⟩, rfl, List.nodup_nil, fun v hv => (by cases hv)⟩
  · obtain ⟨chain, hchain, hnodup, hexist, hlen⟩ := h.exists_flow_chain flow
    obtain ⟨r, happly, htried⟩ := apply_tried regexMatch draw hchain hlen hps
    have hpre := htried.visited
    exact ⟨r, happly, hnodup.sublist hpre.sublist, fun v hv => hexist v (hpre.subset hv)⟩

end

/-- Failover goes back in the document from every policy that it defines, so that the
loop over the policies of a flow tries each of them at most once. -/
theorem failover_terminates {compile : List Char → Option R} (regexMatch : R → List Char → Bool)
    {data : Json} {set : PolicySet R} (h : parse compile data init = .ok () set) :
    (∀ i p next, set.policies[i]? = some (p, next) → next = .none ∨ next = .default ∨
      ∃ j, next = .policy j ∧ j < i ∧ j < set.policies.length) ∧
    (∀ m ∈ set.matchers, (∃ i, m.2 = some i ∧ i < set.policies.length) ∨ Ignores set m) ∧
    ∀ draw flow (ps : List PolicyPath), ∃ r,
      set.apply regexMatch draw (set.policies.length + 1) flow (ps.map some) = some r ∧
      r.visited.Nodup ∧ ∀ v ∈ r.visited, Exists set v := by
  obtain ⟨names, hback⟩ := BackLinked.parse h
  refine ⟨fun i p next hi => ?_, fun m hm => ?_, hback.apply_ends regexMatch⟩
  · cases next with
    | none => exact Or.inl rfl
    | default => exact Or.inr (Or.inl rfl)
    | policy j =>
      have hji := hback.next_lt i p j hi
      have hlen := (List.getElem?_eq_some_iff.mp hi).1
      exact Or.inr (Or.inr ⟨j, rfl, hji, hji.trans hlen⟩)
  · obtain ⟨matcher, policy⟩ := m
    cases policy with
    | none => exact Or.inr (ignores_of_none matcher)
    | some i => exact Or.inl ⟨i, rfl, hback.matcher_lt _ hm i rfl⟩

/-- Two policies, the second with the first as its failover policy. -/
def twoPolicies : Json :=
  .object [("matchers", .array [.object [("policy", .string "p2")]]),
    ("policies", .object [("p1", .object []), ("p2", .object [("failover", .string "p1")])])]

def twoPoliciesSet : PolicySet Unit :=
  ⟨[(TrafficMatcher.init, some 1)], [(Policy.init, .none), (Policy.init, .policy 0)], Policy.init⟩

theorem failover_terminates_twoPolicies :
    (∀ i p next, twoPoliciesSet.policies[i]? = some (p, next) → next = .none ∨ next = .default ∨
      ∃ j, next = .policy j ∧ j < i ∧ j < twoPoliciesSet.policies.length) ∧
    (∀ m ∈ twoPoliciesSet.matchers,
      (∃ i, m.2 = some i ∧ i < twoPoliciesSet.policies.length) ∨ Ignores twoPoliciesSet m) ∧
    ∀ draw flow (ps : List PolicyPath), ∃ r,
      twoPoliciesSet.apply (fun _ _ => true) draw (twoPoliciesSet.policies.length + 1) flow
        (ps.map some) = some r ∧
      r.visited.Nodup ∧ ∀ v ∈ r.visited, Exists twoPoliciesSet v :=
  failover_terminates (fun _ _ => true)
    (show parse (fun _ => none) twoPolicies init = .ok () twoPoliciesSet by rfl)

end PolicySet

end Scion
