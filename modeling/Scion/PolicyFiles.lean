/-
Loading policy files (`path/policy.cpp`).

The members of the set are cleared first and then filled while the document is
walked. An exception leaves in them what was read before it.

* `PolicySet.ErrorFirst` — no part of the document that defines something precedes
  the error;
* `PolicySet.parse_keeps_nothing_iff` — exactly then the set is empty behind the
  error;
* `PolicySet.allOrNothing_iff` — and the set behaves as before or as an empty one.
-/
import Scion.PolicySet

namespace Scion

namespace PolicySet

/-- The set as it is left, with or without an exception. -/
def leftIn {ε σ α : Type} : EStateM.Result ε σ α → σ
  | .ok _ s => s
  | .error _ s => s

section
variable {R : Type} (compile : List Char → Option R)

/-- No matcher precedes one that is rejected. -/
def MatchersErrorFirst (members : List (String × Json)) : Prop :=
  match ifContains members "matchers" with
  | some (.array (matcher :: _)) => ∃ e, parseMatcher [] matcher = .error e
  | _ => True

/-- No policy precedes one that is rejected, other than a default policy without
rules; `rest` is what is to hold behind the policies. -/
def EntriesErrorFirst (rest : Prop) : List (String × Json) → Prop
  | [] => rest
  | (name, policy) :: entries =>
    (∃ e, parsePolicy compile init [] name policy = .error e) ∨
      parsePolicy compile init [] name policy = .ok (init, []) ∧ EntriesErrorFirst rest entries

def MembersErrorFirst (members : List (String × Json)) : Prop :=
  match ifContains members "policies" with
  | none => MatchersErrorFirst members
  | some (.object entries) => EntriesErrorFirst compile (MatchersErrorFirst members) entries
  | _ => True

/-- In a file that is rejected, nothing is defined before the error. -/
def ErrorFirst : PolicyFile → Prop
  | .document (.object members) => MembersErrorFirst compile members
  | _ => True

/-- The policies of the document have different names, as the members of every
parsed object. -/
def UniqueNames : PolicyFile → Prop
  | .document (.object members) => ∀ entries,
    ifContains members "policies" = some (.object entries) → (entries.map Prod.fst).Nodup
  | _ => True

end

section
variable {R : Type} {compile : List Char → Option R} {set set' : PolicySet R}
  {names names' : PolicyNames}

/-! ### What stays -/

theorem policies_ne_nil_of_parsePolicy {name : String} {policy : Json}
    (h : parsePolicy compile set names name policy = .ok (set', names'))
    (hset : set.policies ≠ []) : set'.policies ≠ [] := by
  obtain ⟨p, -, rfl, rfl⟩ | ⟨p, next, rfl, rfl, -⟩ := parsePolicy_cases h
  · exact hset
  · simp

theorem policies_ne_nil_of_parsePolicies (entries : List (String × Json))
    (hset : set.policies ≠ []) :
    (leftIn (parsePolicies compile entries names set)).policies ≠ [] := by
  induction entries generalizing set names with
  | nil => exact hset
  | cons entry rest ih =>
    rw [parsePolicies]
    cases hentry : parsePolicy compile set names entry.1 entry.2 with
    | error e => exact hset
    | ok r => exact ih (policies_ne_nil_of_parsePolicy hentry hset)

/-- Only an entry of that name replaces the default policy. -/
theorem defaultPolicy_parsePolicy {name : String} {policy : Json} (hname : name ≠ "default")
    (h : parsePolicy compile set names name policy = .ok (set', names')) :
    set'.defaultPolicy = set.defaultPolicy := by
  rw [parsePolicy] at h
  obtain ⟨obj, -, h⟩ := bind_eq_ok.mp h
  obtain ⟨base, -, h⟩ := bind_eq_ok.mp h
  obtain ⟨next, -, h⟩ := bind_eq_ok.mp h
  rw [if_neg hname] at h
  obtain ⟨p, -, h⟩ := bind_eq_ok.mp h
  cases h
  rfl

theorem defaultPolicy_parsePolicies {entries : List (String × Json)}
    (hnames : "default" ∉ entries.map Prod.fst) :
    (leftIn (parsePolicies compile entries names set)).defaultPolicy = set.defaultPolicy := by
  induction entries generalizing set names with
  | nil => rfl
  | cons entry rest ih =>
    rw [List.map_cons, List.mem_cons, not_or] at hnames
    rw [parsePolicies]
    cases hentry : parsePolicy compile set names entry.1 entry.2 with
    | error e => rfl
    | ok r => exact (ih hnames.2).trans (defaultPolicy_parsePolicy (Ne.symm hnames.1) hentry)

theorem parseMatchers_keeps (ms : List Json) :
    (leftIn (parseMatchers names ms set)).policies = set.policies ∧
      (leftIn (parseMatchers names ms set)).defaultPolicy = set.defaultPolicy ∧
      (set.matchers ≠ [] → (leftIn (parseMatchers names ms set)).matchers ≠ []) := by
  induction ms generalizing set with
  | nil => exact ⟨rfl, rfl, id⟩
  | cons matcher rest ih =>
    rw [parseMatchers]
    cases hentry : parseMatcher names matcher with
    | error e => exact ⟨rfl, rfl, id⟩
    | ok entry =>
      obtain ⟨hpolicies, hdefault, hmatchers⟩ :=
        @ih { set with matchers := set.matchers ++ [entry] }
      exact ⟨hpolicies, hdefault, fun _ => hmatchers (by simp)⟩

theorem parseMatchersOf_keeps (members : List (String × Json)) :
    (leftIn (parseMatchersOf members names set)).policies = set.policies ∧
      (leftIn (parseMatchersOf members names set)).defaultPolicy = set.defaultPolicy := by
  rw [parseMatchersOf]
  cases ifContains members "matchers" with
  | none => exact ⟨rfl, rfl⟩
  | some matchers =>
    cases harray : matchers.asArray with
    | error e => simp [harray, leftIn]
    | ok ms =>
      simp only [harray]
      exact ⟨(parseMatchers_keeps ms).1, (parseMatchers_keeps ms).2.1⟩

/-! ### Errors in the matchers -/

theorem parseMatchersOf_init_iff {members : List (String × Json)} {e : PolicyException}
    (h : parseMatchersOf members [] init = .error e set) :
    set = init ↔ MatchersErrorFirst members := by
  rw [parseMatchersOf] at h
  rw [MatchersErrorFirst]
  cases hmatchers : ifContains members "matchers" with
  | none =>
    rw [hmatchers] at h
    cases h
  | some matchers =>
    simp only [hmatchers] at h
    cases matchers with
    | array ms =>
      cases ms with
      | nil => cases h
      | cons matcher rest =>
        simp only [Json.asArray, parseMatchers] at h
        cases hentry : parseMatcher [] matcher with
        | error e' =>
          rw [hentry] at h
          cases h
          exact ⟨fun _ => ⟨_, hentry⟩, fun _ => rfl⟩
        | ok entry =>
          rw [hentry] at h
          have hkept := (@parseMatchers_keeps R { (init : PolicySet R) with matchers := [entry] } []
            rest).2.2 (List.cons_ne_nil _ _)
          constructor
          · rintro rfl
            replace h : parseMatchers [] rest { (init : PolicySet R) with matchers := [entry] }
                = .error e init := h
            rw [h] at hkept
            exact absurd rfl hkept
          · rintro ⟨e', he'⟩
            rw [hentry] at he'
            cases he'
    | _ =>
      cases h
      exact ⟨fun _ => trivial, fun _ => rfl⟩

/-! ### Errors in the policies -/

/-- What is left of `parse` at an entry of the policies. -/
def parseFrom (compile : List Char → Option R) (members entries : List (String × Json))
    (names : PolicyNames) (set : PolicySet R) : EStateM.Result PolicyException (PolicySet R) Unit :=
  match parsePolicies compile entries names set with
  | .error e set' => .error e set'
  | .ok names' set' => parseMatchersOf members names' set'

theorem parseFrom_cons (members : List (String × Json)) (entry : String × Json)
    (entries : List (String × Json)) :
    parseFrom compile members (entry :: entries) names set =
      match parsePolicy compile set names entry.1 entry.2 with
      | .ok r => parseFrom compile members entries r.2 r.1
      | .error e => .error e set := by
  rw [parseFrom, parsePolicies]
  cases parsePolicy compile set names entry.1 entry.2 with
  | error e => rfl
  | ok r => rfl

theorem parseFrom_keeps (members entries : List (String × Json)) :
    (set.policies ≠ [] → (leftIn (parseFrom compile members entries names set)).policies ≠ []) ∧
    ("default" ∉ entries.map Prod.fst →
      (leftIn (parseFrom compile members entries names set)).defaultPolicy = set.defaultPolicy) := by
  rw [parseFrom]
  have hpolicies := @policies_ne_nil_of_parsePolicies R compile set names entries
  have hdefault := @defaultPolicy_parsePolicies R compile set names entries
  cases hparse : parsePolicies compile entries names set with
  | error e set' =>
    rw [hparse] at hpolicies hdefault
    exact ⟨hpolicies, hdefault⟩
  | ok names' set' =>
    rw [hparse] at hpolicies hdefault
    obtain ⟨hkeep, hkeep'⟩ := @parseMatchersOf_keeps R set' names' members
    refine ⟨fun h => ?_, fun h => ?_⟩
    · simp only [hkeep]
      exact hpolicies h
    · simp only [hkeep']
      exact hdefault h

theorem parseFrom_init_iff {members entries : List (String × Json)} {e : PolicyException}
    (hnames : (entries.map Prod.fst).Nodup)
    (h : parseFrom compile members entries [] init = .error e set) :
    set = init ↔ EntriesErrorFirst compile (MatchersErrorFirst members) entries := by
  induction entries with
  | nil => exact parseMatchersOf_init_iff h
  | cons entry rest ih =>
    obtain ⟨name, policy⟩ := entry
    rw [List.map_cons, List.nodup_cons] at hnames
    rw [parseFrom_cons] at h
    rw [EntriesErrorFirst]
    cases hentry : parsePolicy compile init [] name policy with
    | error e' =>
      simp only [hentry] at h
      cases h
      exact ⟨fun _ => Or.inl ⟨_, rfl⟩, fun _ => rfl⟩
    | ok r =>
      obtain ⟨set', names'⟩ := r
      simp only [hentry] at h
      obtain ⟨hpolicies, hdefault⟩ := @parseFrom_keeps R compile set' names' members rest
      rw [h] at hpolicies hdefault
      obtain ⟨p, rfl, rfl, rfl⟩ | ⟨p, next, rfl, rfl, -⟩ := parsePolicy_cases hentry
      · by_cases hp : p = Policy.init
        · subst hp
          rw [ih hnames.2 h]
          exact ⟨fun hrest => Or.inr ⟨rfl, hrest⟩,
            fun hcases => hcases.elim (fun ⟨e', he'⟩ => (by cases he')) And.right⟩
        · constructor
          · rintro rfl
            exact absurd (hdefault hnames.1).symm hp
          · rintro (⟨e', he'⟩ | ⟨hinit, -⟩)
            · cases he'
            · cases hinit
              exact absurd rfl hp
      · constructor
        · rintro rfl
          exact absurd rfl (hpolicies (by simp))
        · rintro (⟨e', he'⟩ | ⟨hinit, -⟩)
          · cases he'
          · cases hinit

theorem parse_keeps_nothing_iff {data : Json} {e : PolicyException}
    (hnames : UniqueNames (.document data)) (h : parse compile data init = .error e set) :
    set = init ↔ ErrorFirst compile (.document data) := by
  cases data with
  | object members =>
    rw [ErrorFirst, MembersErrorFirst]
    simp only [parse, Json.asObject, parsePoliciesOf] at h
    cases hpolicies : ifContains members "policies" with
    | none =>
      simp only [hpolicies] at h
      exact parseMatchersOf_init_iff h
    | some policies =>
      simp only [hpolicies] at h
      cases policies with
      | object entries => exact parseFrom_init_iff (hnames entries hpolicies) h
      | _ =>
        cases h
        exact ⟨fun _ => trivial, fun _ => rfl⟩
  | _ =>
    cases h
    exact ⟨fun _ => trivial, fun _ => rfl⟩

end

/-! ### Files -/

section
variable {R : Type} (compile : List Char → Option R) (kindError : JsonKind → String)
  (regexMatch : R → List Char → Bool)

/-- Two sets give every flow the same policy and the same paths. -/
def SameBehaviour (set set' : PolicySet R) : Prop :=
  ∀ flow, (set.getPolicyIndex flow).2.1 = (set'.getPolicyIndex flow).2.1 ∧
    ∀ draw n paths, set.apply regexMatch draw n flow paths = set'.apply regexMatch draw n flow paths

/-- If the file is rejected, the set behaves as before or as an empty set, and has
nothing of the file. -/
def AllOrNothing (set : PolicySet R) (file : PolicyFile) : Prop :=
  (loadJsonFile compile kindError set file).1.1 ≠ .ok →
    (SameBehaviour regexMatch (loadJsonFile compile kindError set file).2 set ∨
      SameBehaviour regexMatch (loadJsonFile compile kindError set file).2 init) ∧
    (loadJsonFile compile kindError set file).2.matchers = [] ∧
    (loadJsonFile compile kindError set file).2.policies = [] ∧
    (loadJsonFile compile kindError set file).2.defaultPolicy = Policy.init

/-- The load of a rejected file is all or nothing if and only if nothing is defined in
the file before the error. -/
theorem allOrNothing_iff (set : PolicySet R) (file : PolicyFile) (hnames : UniqueNames file) :
    AllOrNothing compile kindError regexMatch set file ↔
      ((loadJsonFile compile kindError set file).1.1 ≠ .ok → ErrorFirst compile file) := by
  have hinit (s : PolicySet R) (hs : s = init) :
      (SameBehaviour regexMatch s set ∨ SameBehaviour regexMatch s init) ∧
        s.matchers = [] ∧ s.policies = [] ∧ s.defaultPolicy = Policy.init := by
    subst hs
    exact ⟨Or.inr fun flow => ⟨rfl, fun _ _ _ => rfl⟩, rfl, rfl, rfl⟩
  refine forall_congr' fun hfails => ?_
  cases file with
  | missing => exact iff_of_true (hinit _ rfl) trivial
  | malformed what => exact iff_of_true (hinit _ rfl) trivial
  | document data =>
    rw [loadJsonFile] at hfails ⊢
    cases hparse : parse compile data init with
    | ok _ after =>
      rw [hparse] at hfails
      exact absurd rfl hfails
    | error e after =>
      rw [← parse_keeps_nothing_iff hnames hparse]
      refine ⟨?_, hinit after⟩
      rintro ⟨-, hmatchers, hpolicies, hdefault⟩
      obtain ⟨matchers, policies, defaultPolicy⟩ := after
      cases hmatchers
      cases hpolicies
      cases hdefault
      rfl

end

/-- A default policy that rejects ISD 1, and an entry that is not an object. -/
def keptDefault : PolicyFile :=
  .document (.object [("policies", .object
    [("default", .object [("acl", .array [.string "- 1", .string "+"])]), ("p1", .null)])])

/-- Rejecting the second entry keeps the default policy. -/
theorem allOrNothing_keptDefault :
    AllOrNothing (fun _ => none) (fun _ => "") (fun (_ : Unit) _ => true) init keptDefault ↔
      ((loadJsonFile (fun _ => none) (fun _ => "") (init : PolicySet Unit) keptDefault).1.1 ≠ .ok →
        ErrorFirst (R := Unit) (fun _ => none) keptDefault) :=
  allOrNothing_iff _ _ _ _ _ fun entries h => by
    cases h
    decide

theorem not_forall_allOrNothing :
    ¬ ∀ (R : Type) (compile : List Char → Option R) (kindError : JsonKind → String)
      (regexMatch : R → List Char → Bool) (set : PolicySet R) (file : PolicyFile),
      AllOrNothing compile kindError regexMatch set file := by
  intro h
  have hkept := (h Unit (fun _ => none) (fun _ => "") (fun _ _ => true) init keptDefault
    (show ErrorCode.syntaxError ≠ .ok by decide)).2.2.2
  replace hkept : (⟨some [(false, ⟨IsdAsn.make 1 0, 0, 0⟩), (true, HopPredicate.any)], none, none,
    none⟩ : Policy Unit) = Policy.init := hkept
  cases hkept

end PolicySet

end Scion
