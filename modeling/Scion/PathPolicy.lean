/-
Path policies (`path/policy.hpp`, `path/policy.cpp`).

A policy filters a span of path pointers in place and sorts what is left. It is
read from a JSON object, which may extend another policy.

* `Json`, `PolicyException` — parsed documents, and what is thrown on them;
* `TrafficMatcher.ofJson`, `Policy.ofJson` — the two kinds of objects;
* `Policy.apply` — the filter and the sort;
* `Policy.apply_eq` — it returns the accepted paths in the order of the policy,
  and leaves the span as it was if there are none.

Regular expressions are those of the standard library: a type of compiled
patterns with its constructor, which may throw, and its full match.
-/
import Scion.HopPredicate
import Scion.Packager
import Scion.Records

namespace Scion

/-! ### Documents -/

/-- `boost::json::value`. -/
inductive Json
  | null
  | bool (value : Bool)
  | int64 (value : Int64)
  | uint64 (value : UInt64)
  | double (bits : UInt64)
  | string (value : String)
  | array (values : List Json)
  | object (members : List (String × Json))
  deriving Repr

/-- The kinds that are asked for with `as_object` and its siblings. -/
inductive JsonKind
  | object
  | array
  | string
  | int64
  deriving DecidableEq, Repr

/-- What is thrown: a `ParserError`, or the error of a value of another kind. -/
inductive PolicyException
  | parserError (what : String)
  | notOfKind (kind : JsonKind)
  deriving DecidableEq, Repr

namespace Json

def asObject : Json → Except PolicyException (List (String × Json))
  | object members => .ok members
  | _ => .error (.notOfKind .object)

def asArray : Json → Except PolicyException (List Json)
  | array values => .ok values
  | _ => .error (.notOfKind .array)

def asString : Json → Except PolicyException String
  | string value => .ok value
  | _ => .error (.notOfKind .string)

def asInt64 : Json → Except PolicyException Int64
  | int64 value => .ok value
  | _ => .error (.notOfKind .int64)

end Json

/-- `object::if_contains`. -/
def ifContains (members : List (String × Json)) (key : String) : Option Json := members.lookup key

/-- The text up to its first zero, as `c_str` hands it on. -/
def cStr (s : String) : String := String.ofList (s.toList.takeWhile (· != '\x00'))

/-- `std::isspace` in the C locale. -/
def isSpace (c : Char) : Bool := c == ' ' || (9 ≤ c.toNat && c.toNat ≤ 13)

def ltrim (sv : List Char) : List Char := sv.dropWhile isSpace

def rtrim (sv : List Char) : List Char := (sv.reverse.dropWhile isSpace).reverse

/-! ### Traffic matchers -/

/-- What policies are selected by: a 5-tuple and the traffic class. -/
structure PolicyFlow where
  src : ScIPEndpoint
  dst : ScIPEndpoint
  proto : ScionProto
  tc : UInt8
  deriving DecidableEq, Repr

structure TrafficMatcher where
  src : ScIPEndpoint
  dst : ScIPEndpoint
  proto : ScionProto
  trafficClass : UInt8
  deriving DecidableEq, Repr

namespace TrafficMatcher

def init : TrafficMatcher := ⟨ScIPEndpoint.unspecified, ScIPEndpoint.unspecified, 0, 0⟩

def matchEp (matcher value : ScIPEndpoint) : Bool :=
  if matcher.isdAsn.isd == 0 then true
  else if matcher.isdAsn.isd != value.isdAsn.isd then false
  else if matcher.isdAsn.asn == 0 then true
  else if matcher.isdAsn.asn != value.isdAsn.asn then false
  else if matcher.host.isUnspecified then true
  else if matcher.host != value.host then false
  else !(matcher.port != 0 && matcher.port != value.port)

/-- `match`. -/
def matchFlow (m : TrafficMatcher) (flow : PolicyFlow) : Bool :=
  if !matchEp m.src flow.src then false
  else if !matchEp m.dst flow.dst then false
  else if m.proto != 0 && m.proto != flow.proto then false
  else !(m.trafficClass != 0 && m.trafficClass != flow.tc)

def parseAddressMatcher (str : String) : Except PolicyException ScIPEndpoint :=
  let failed := PolicyException.parserError ("Invalid address matcher: '" ++ cStr str ++ "'")
  if ',' ∈ str.toList then
    match ScIPEndpoint.parse str.toList with
    | .ok ep => .ok ep
    | .error _ => .error failed
  else
    -- no IP part
    match IsdAsn.parse str.toList with
    | .ok isdAsn => .ok ⟨isdAsn, ScIPEndpoint.unspecified.localEp⟩
    | .error _ => .error failed

def setMember (m : TrafficMatcher) (name : String) (value : Json) :
    Except PolicyException TrafficMatcher :=
  if name = "source" then do
    .ok { m with src := ← parseAddressMatcher (← value.asString) }
  else if name = "destination" then do
    .ok { m with dst := ← parseAddressMatcher (← value.asString) }
  else if name = "protocol" then do
    let proto ← value.asString
    if proto = "tcp" then .ok { m with proto := ScionProto.tcp }
    else if proto = "udp" then .ok { m with proto := ScionProto.udp }
    else .error (.parserError ("Unknown protocol '" ++ cStr proto ++ "'"))
  else if name = "traffic_class" then do
    let tc ← value.asInt64
    if tc < 0 ∨ tc > 255 then .error (.parserError "Invalid traffic class")
    else .ok { m with trafficClass := tc.toInt.toNat.toUInt8 }
  else if name = "policy" then .ok m
  else .error (.parserError ("Matcher attribute '" ++ name ++ "' not recognized"))

/-- The constructor from a JSON object. -/
def ofJson (obj : List (String × Json)) : Except PolicyException TrafficMatcher :=
  obj.foldlM (fun m member => setMember m member.1 member.2) init

end TrafficMatcher

/-! ### Paths -/

/-- `path_meta::LinkMeta`: latency in nanoseconds, bandwidth in kbit/s. -/
structure LinkMeta where
  latency : Int64
  bandwidth : UInt64
  deriving DecidableEq, Repr

/-- What policies see of a path object. -/
structure PolicyPath where
  object : ℕ
  empty : Bool
  mtu : UInt16
  hopCount : UInt32
  interfaces : Option (List MetaHop)
  linkMeta : Option (List LinkMeta)
  deriving DecidableEq, Repr

/-- `Duration::max`. -/
def durationMax : Int64 := 0x7fffffffffffffff

/-- The loop over the links, from `lat` on. -/
def sumLatency : List LinkMeta → Int64 → Int64
  | [], lat => lat
  | link :: rest, lat => if link.latency == 0 then durationMax else sumLatency rest (lat + link.latency)

def getMetaLatency (path : PolicyPath) : Int64 :=
  match path.linkMeta with
  | none => durationMax
  | some links => sumLatency links 0

/-- The loop over the links, from `bw` on. -/
def minBandwidth : List LinkMeta → UInt64 → UInt64
  | [], bw => bw
  | link :: rest, bw => if link.bandwidth == 0 then 0 else minBandwidth rest (min bw link.bandwidth)

def getMetaBw (path : PolicyPath) : UInt64 :=
  match path.linkMeta with
  | none => 0
  | some links => minBandwidth links 0xffffffffffffffff

/-! ### Policies -/

inductive PathRequirement
  | minMetaMtu (minMtu : UInt16)
  | maxMetaLat (maxLat : Int64)
  | minMetaBw (minBw : UInt64)
  deriving DecidableEq, Repr

namespace PathRequirement

def fullfills : PathRequirement → PolicyPath → Bool
  | minMetaMtu minMtu, path => decide (path.mtu ≥ minMtu)
  | maxMetaLat maxLat, path => decide (getMetaLatency path ≤ maxLat)
  | minMetaBw minBw, path => decide (getMetaBw path ≥ minBw)

end PathRequirement

inductive PathOrder
  | random
  | hopsAsc
  | hopsDesc
  | metaLatAsc
  | metaLatDesc
  | metaBwAsc
  | metaBwDesc
  deriving DecidableEq, Repr

/-- A policy with compiled patterns of type `R`. -/
structure Policy (R : Type) where
  acl : Option Acl
  sequence : Option R
  reqs : Option (List PathRequirement)
  ordering : Option (List PathOrder)
  deriving DecidableEq, Repr

/-! ### Sequences -/

/-- The part of a text behind a front part, if that matches. -/
abbrev Scanner := List Char → Option (List Char)

/-- `\d+`. -/
def scanDigits : Scanner
  | c :: text => if c.isDigit then some (text.dropWhile Char.isDigit) else none
  | [] => none

/-- `[0-9a-f-A-F]`. -/
def isAsnChar (c : Char) : Bool :=
  c.isDigit || ('a' ≤ c && c ≤ 'f') || c == '-' || ('A' ≤ c && c ≤ 'F')

/-- `[0-9a-f-A-F]{1,4}`, as much of it as there is. -/
def scanAsnGroup (text : List Char) : Option (List Char) :=
  let n := min 4 (text.takeWhile isAsnChar).length
  if n = 0 then none else some (text.drop n)

/-- One character. -/
def scanChar (c : Char) : Scanner
  | c' :: text => if c' = c then some text else none
  | [] => none

/-- Three groups of a SCION-style ASN. -/
def scanAsn : Scanner := fun text =>
  scanAsnGroup text >>= scanChar ':' >>= scanAsnGroup >>= scanChar ':' >>= scanAsnGroup

/-- `(#\d+(,\d+)?)?`. -/
def scanInterfaces (text : List Char) : List Char :=
  match scanChar '#' text >>= scanDigits with
  | none => text
  | some rest =>
    match scanChar ',' rest >>= scanDigits with
    | none => rest
    | some rest' => rest'

/-- The pattern of the hop predicates in a sequence, where a digit begins. None of
its repetitions can stop early, so that nothing has to be tried twice. -/
def scanPredicate : Scanner := fun text =>
  scanDigits text >>= fun rest =>
    match scanChar '-' rest >>= fun asn => scanAsn asn <|> scanDigits asn with
    | some rest' => some (scanInterfaces rest')
    | none => some rest

/-- The loop over the predicates in what is left of the sequence. -/
def translatePredicates : ℕ → List Char → List Char → Maybe (List Char)
  | 0, s, sv => .ok (s ++ sv)
  | n + 1, s, sv =>
    let matched := sv.dropWhile (!Char.isDigit ·)
    match scanPredicate matched with
    | none => .ok (s ++ sv)
    | some suffix =>
      match HopPredicate.parse (matched.take (matched.length - suffix.length)) with
      | .error _ => .error .syntaxError
      | .ok hp =>
        translatePredicates n (s ++ rtrim (sv.takeWhile (!Char.isDigit ·)) ++ hp.regex) (ltrim suffix)

section
variable {R : Type} (compile : List Char → Option R) (regexMatch : R → List Char → Bool)

/-- `details::translateHopSeqExprToRegex`. A predicate takes at least a digit. -/
def translateHopSeqExprToRegex (seq : List Char) : Maybe R := do
  let pattern ← translatePredicates seq.length [] seq
  match compile pattern with
  | some regex => .ok regex
  | none => .error .syntaxError

namespace Policy

def init : Policy R := ⟨none, none, none, none⟩

/-! ### Reading policies -/

def parseAclLine (line : String) : Except PolicyException (Bool × HopPredicate) :=
  let entry allow (text : List Char) :=
    match HopPredicate.parse (ltrim text) with
    | .ok hp => .ok (allow, hp)
    | .error _ => .error (PolicyException.parserError ("Invalid hop predicate '" ++ cStr line ++ "'"))
  match line.toList with
  | '+' :: text => entry true text
  | '-' :: text => entry false text
  | _ => .error (.parserError "ACL line must start with + or -")

def parseAcl (acl : List Json) : Except PolicyException Acl :=
  acl.mapM fun entry => entry.asString >>= parseAclLine

def parseRequirement (name : String) (value : Json) : Except PolicyException PathRequirement :=
  if name = "min_mtu" then do
    .ok (.minMetaMtu (min (← value.asInt64).toUInt64 65535).toUInt16)
  else if name = "max_meta_lat" then do
    .ok (.maxMetaLat ((← value.asInt64) * 1000000))
  else if name = "min_meta_bw" then do
    .ok (.minMetaBw (← value.asInt64).toUInt64)
  else .error (.parserError ("Requirement '" ++ name ++ "' not recognized"))

def parseRequirements (reqs : List (String × Json)) :
    Except PolicyException (List PathRequirement) :=
  reqs.mapM fun req => parseRequirement req.1 req.2

def parseOrder (ordering : String) : Except PolicyException PathOrder :=
  if ordering = "random" then .ok .random
  else if ordering = "hops_asc" then .ok .hopsAsc
  else if ordering = "hops_desc" then .ok .hopsDesc
  else if ordering = "meta_latency_asc" then .ok .metaLatAsc
  else if ordering = "meta_latency_desc" then .ok .metaLatDesc
  else if ordering = "meta_bandwidth_asc" then .ok .metaBwAsc
  else if ordering = "meta_bandwidth_desc" then .ok .metaBwDesc
  else .error (.parserError ("Ordering '" ++ cStr ordering ++ "' not recognized"))

def parseOrdering (order : List Json) : Except PolicyException (List PathOrder) :=
  order.mapM fun value => value.asString >>= parseOrder

def setMember (policy : Policy R) (name : String) (value : Json) :
    Except PolicyException (Policy R) :=
  if name = "acl" then do
    .ok { policy with acl := some (← parseAcl (← value.asArray)) }
  else if name = "sequence" then do
    let seq ← value.asString
    match translateHopSeqExprToRegex compile seq.toList with
    | .ok regex => .ok { policy with sequence := some regex }
    | .error _ =>
      .error (.parserError ("Can't interpret hop predicate sequence '" ++ cStr seq ++ "'"))
  else if name = "requirements" then do
    .ok { policy with reqs := some (← parseRequirements (← value.asObject)) }
  else if name = "ordering" then do
    .ok { policy with ordering := some (← parseOrdering (← value.asArray)) }
  else if name = "extends" ∨ name = "failover" then .ok policy
  else .error (.parserError ("Policy attribute '" ++ name ++ "' not recognized"))

/-- What is not defined is taken from the base. -/
def inherit (policy base : Policy R) : Policy R where
  acl := policy.acl <|> base.acl
  sequence := policy.sequence <|> base.sequence
  reqs := policy.reqs <|> base.reqs
  ordering := policy.ordering <|> base.ordering

/-- The constructor from a JSON object. -/
def ofJson (obj : List (String × Json)) (base : Option (Policy R)) :
    Except PolicyException (Policy R) := do
  let policy ← obj.foldlM (fun p member => setMember compile p member.1 member.2) init
  match base with
  | some base => .ok (policy.inherit base)
  | none => .ok policy

/-! ### Applying policies -/

def matchSequence (policy : Policy R) (hops : List MetaHop) : Bool :=
  match policy.sequence with
  | none => true
  | some regex => regexMatch regex (interfacesToSeqExpr hops)

def checkRequirements (policy : Policy R) (path : PolicyPath) : Bool :=
  match policy.reqs with
  | none => true
  | some reqs => reqs.all (·.fullfills path)

def test (policy : Policy R) (path : PolicyPath) : Bool :=
  if path.empty then true
  else
    match path.interfaces with
    | none => false
    | some hops =>
      if !policy.checkRequirements path then false
      else if !matchACL policy.acl hops then false
      else policy.matchSequence regexMatch hops

end Policy

end

/-! ### Spans of paths -/

/-- `PathPtr`. -/
abbrev PathPtr := Option PolicyPath

/-- The loop of `Policy::apply` over the positions that are left: an accepted
pointer is moved to position `out`, also where that is its own. A null pointer is
not to be dereferenced. -/
def filterLoop {α : Type} (accepts : α → Bool) :
    List ℕ → List (Option α) → ℕ → Option (List (Option α) × ℕ)
  | [], paths, out => some (paths, out)
  | i :: rest, paths, out =>
    match paths[i]? with
    | some (some path) =>
      if accepts path then filterLoop accepts rest ((paths.set i none).set out (some path)) (out + 1)
      else filterLoop accepts rest paths out
    | _ => none

/-- `std::shuffle` with the numbers that are drawn. -/
def shuffle {α : Type} (draw : ℕ → ℕ) (xs : List α) : List α :=
  (List.range' 1 (xs.length - 1)).foldl (fun xs i => Records.swapAt i (draw i % (i + 1)) xs) xs

/-- The projection of a pointer, where it can be dereferenced. -/
def deref {κ : Type} (key : PolicyPath → κ) (null : κ) : PathPtr → κ
  | some path => key path
  | none => null

/-- `std::ranges::stable_sort` by `std::less` of the keys. -/
def sortAsc {κ : Type} [LT κ] [DecidableLT κ] (key : PathPtr → κ) (paths : List PathPtr) :
    List PathPtr :=
  paths.mergeSort fun a b => !decide (key b < key a)

/-- `std::ranges::stable_sort` by `std::greater` of the keys. -/
def sortDesc {κ : Type} [LT κ] [DecidableLT κ] (key : PathPtr → κ) (paths : List PathPtr) :
    List PathPtr :=
  paths.mergeSort fun a b => !decide (key a < key b)

/-- One round of the loop over the orderings. -/
def PathOrder.sort (order : PathOrder) (draw : ℕ → ℕ) (paths : List PathPtr) : List PathPtr :=
  match order with
  | random => shuffle draw paths
  | hopsAsc => sortAsc (deref PolicyPath.hopCount 0) paths
  | hopsDesc => sortDesc (deref PolicyPath.hopCount 0) paths
  | metaLatAsc => sortAsc (deref getMetaLatency 0) paths
  | metaLatDesc => sortDesc (deref getMetaLatency 0) paths
  | metaBwAsc => sortAsc (deref getMetaBw 0) paths
  | metaBwDesc => sortDesc (deref getMetaBw 0) paths

namespace Policy

variable {R : Type} (regexMatch : R → List Char → Bool)

/-- `Policy::sort`, with the numbers that are drawn for each ordering. -/
def sort (policy : Policy R) (draw : ℕ → ℕ → ℕ) (paths : List PathPtr) : List PathPtr :=
  match policy.ordering with
  | none => paths
  | some orders => orders.zipIdx.foldl (fun paths order => order.1.sort (draw order.2) paths) paths

/-- `Policy::apply`: what the span holds afterwards, and the length of the part
that is returned. -/
def apply (policy : Policy R) (draw : ℕ → ℕ → ℕ) (paths : List PathPtr) :
    Option (List PathPtr × ℕ) := do
  let (paths, out) ← filterLoop (policy.test regexMatch) (List.range paths.length) paths 0
  some (policy.sort draw (paths.take out) ++ paths.drop out, out)

end Policy

/-! ### What is left in the span -/

/-- The first `k` paths have been looked at: the accepted ones are at the front, and
the span has not changed if there are none. -/
structure Filtered {α : Type} (accepts : α → Bool) (ps : List α) (k : ℕ)
    (paths : List (Option α)) (out : ℕ) : Prop where
  length_eq : paths.length = ps.length
  out_eq : out = ((ps.take k).filter accepts).length
  take_eq : paths.take out = ((ps.take k).filter accepts).map some
  drop_eq : paths.drop k = (ps.drop k).map some
  unchanged : out = 0 → paths = ps.map some

section
variable {α : Type} {accepts : α → Bool} {ps : List α}

theorem Filtered.out_le {k out : ℕ} {paths : List (Option α)}
    (h : Filtered accepts ps k paths out) : out ≤ k := by
  have hfilter := List.length_filter_le accepts (ps.take k)
  rw [← h.out_eq, List.length_take] at hfilter
  omega

theorem Filtered.skip {k out : ℕ} {paths : List (Option α)} (h : Filtered accepts ps k paths out)
    (hk : k < ps.length) (hreject : accepts ps[k] = false) : Filtered accepts ps (k + 1) paths out := by
  have htake : (ps.take (k + 1)).filter accepts = (ps.take k).filter accepts := by
    rw [List.take_succ_eq_append_getElem hk, List.filter_append]
    simp [hreject]
  refine ⟨h.length_eq, ?_, ?_, ?_, h.unchanged⟩
  · rw [htake]
    exact h.out_eq
  · rw [htake]
    exact h.take_eq
  · rw [← List.drop_drop, h.drop_eq, ← List.map_drop, List.drop_drop]

theorem Filtered.move {k out : ℕ} {paths : List (Option α)} (h : Filtered accepts ps k paths out)
    (hk : k < ps.length) (haccept : accepts ps[k] = true) :
    Filtered accepts ps (k + 1) ((paths.set k none).set out (some ps[k])) (out + 1) := by
  have hle := h.out_le
  have hlen := h.length_eq
  have htake : (ps.take (k + 1)).filter accepts = (ps.take k).filter accepts ++ [ps[k]] := by
    rw [List.take_succ_eq_append_getElem hk, List.filter_append]
    simp [haccept]
  refine ⟨by simpa using hlen, ?_, ?_, ?_, fun h0 => absurd h0 (Nat.succ_ne_zero out)⟩
  · rw [htake, List.length_append, ← h.out_eq]
    rfl
  · rw [htake, List.map_append, ← h.take_eq, List.take_succ_eq_append_getElem (by simp; omega),
      List.take_set_of_le (le_refl out), List.take_set_of_le hle, List.getElem_set_self]
    rfl
  · rw [List.drop_set_of_lt (by omega), List.drop_set_of_lt (by omega), ← List.drop_drop, h.drop_eq,
      ← List.map_drop, List.drop_drop]

theorem Filtered.get {k out : ℕ} {paths : List (Option α)} (h : Filtered accepts ps k paths out)
    (hk : k < ps.length) : paths[k]? = some (some ps[k]) := by
  have hdrop := congrArg List.head? h.drop_eq
  rwa [List.head?_drop, List.head?_map, List.head?_drop, List.getElem?_eq_getElem hk] at hdrop

theorem filterLoop_from {k out : ℕ} {paths : List (Option α)} (h : Filtered accepts ps k paths out)
    (n : ℕ) (hn : k + n = ps.length) :
    ∃ paths' out', filterLoop accepts (List.range' k n) paths out = some (paths', out') ∧
      Filtered accepts ps ps.length paths' out' := by
  induction n generalizing k out paths with
  | zero =>
    rw [Nat.add_zero] at hn
    exact ⟨paths, out, rfl, hn ▸ h⟩
  | succ n ih =>
    have hk : k < ps.length := by omega
    rw [List.range'_succ, filterLoop, h.get hk]
    cases haccept : accepts ps[k] with
    | false => simpa [haccept] using ih (h.skip hk haccept) (by omega)
    | true => simpa [haccept] using ih (h.move hk haccept) (by omega)

/-- The accepted elements are moved to the front in their order. -/
theorem filterLoop_map_some (accepts : α → Bool) (ps : List α) :
    ∃ paths, filterLoop accepts (List.range ps.length) (ps.map some) 0
        = some (paths, (ps.filter accepts).length) ∧
      paths.length = ps.length ∧
      paths.take (ps.filter accepts).length = (ps.filter accepts).map some ∧
      (ps.filter accepts = [] → paths = ps.map some) := by
  have hstart : Filtered accepts ps 0 (ps.map some) 0 :=
    ⟨List.length_map _, rfl, rfl, rfl, fun _ => rfl⟩
  obtain ⟨paths, out, hloop, hfiltered⟩ := filterLoop_from hstart ps.length (Nat.zero_add _)
  have hout := hfiltered.out_eq
  have htake := hfiltered.take_eq
  rw [List.take_length] at hout htake
  subst hout
  rw [← List.range_eq_range'] at hloop
  refine ⟨paths, hloop, hfiltered.length_eq, htake, fun hnil => hfiltered.unchanged ?_⟩
  rw [hnil]
  rfl

end

theorem length_shuffle {α : Type} (draw : ℕ → ℕ) (xs : List α) :
    (shuffle draw xs).length = xs.length := by
  rw [shuffle]
  generalize List.range' 1 (xs.length - 1) = places
  induction places generalizing xs with
  | nil => rfl
  | cons i rest ih => rw [List.foldl_cons, ih, Records.length_swapAt]

namespace PathOrder

theorem length_sort (order : PathOrder) (draw : ℕ → ℕ) (paths : List PathPtr) :
    (order.sort draw paths).length = paths.length := by
  cases order <;> simp [sort, sortAsc, sortDesc, length_shuffle]

@[simp] theorem sort_nil (order : PathOrder) (draw : ℕ → ℕ) : order.sort draw [] = [] := by
  cases order <;> simp [sort, sortAsc, sortDesc, shuffle]

end PathOrder

namespace Policy

variable {R : Type} (regexMatch : R → List Char → Bool)

@[simp] theorem sort_nil (policy : Policy R) (draw : ℕ → ℕ → ℕ) : policy.sort draw [] = [] := by
  rw [sort]
  cases policy.ordering with
  | none => rfl
  | some orders =>
    simp only
    induction orders.zipIdx with
    | nil => rfl
    | cons order rest ih => rw [List.foldl_cons, PathOrder.sort_nil, ih]

theorem length_sort (policy : Policy R) (draw : ℕ → ℕ → ℕ) (paths : List PathPtr) :
    (policy.sort draw paths).length = paths.length := by
  rw [sort]
  cases policy.ordering with
  | none => rfl
  | some orders =>
    simp only
    induction orders.zipIdx generalizing paths with
    | nil => rfl
    | cons order rest ih => rw [List.foldl_cons, ih, PathOrder.length_sort]

/-- The paths that the policy accepts. -/
def accepted (policy : Policy R) (ps : List PolicyPath) : List PolicyPath :=
  ps.filter (policy.test regexMatch)

/-- The accepted paths come back in the order of the policy. -/
theorem apply_eq (policy : Policy R) (draw : ℕ → ℕ → ℕ) (ps : List PolicyPath) :
    ∃ rest, policy.apply regexMatch draw (ps.map some)
        = some (policy.sort draw ((policy.accepted regexMatch ps).map some) ++ rest,
          (policy.accepted regexMatch ps).length) ∧
      (policy.accepted regexMatch ps).length + rest.length = ps.length ∧
      (policy.accepted regexMatch ps = [] → rest = ps.map some) := by
  obtain ⟨paths, hloop, hlen, htake, hnil⟩ := filterLoop_map_some (policy.test regexMatch) ps
  rw [← accepted] at hloop htake hnil
  refine ⟨paths.drop (policy.accepted regexMatch ps).length, ?_, ?_, fun h => ?_⟩
  · rw [apply, List.length_map, hloop, ← htake]
    rfl
  · have hle : (policy.accepted regexMatch ps).length ≤ ps.length := List.length_filter_le _ ps
    rw [List.length_drop, hlen]
    omega
  · rw [h, hnil h]
    rfl

end Policy

end Scion
