/-
Hop predicates and access control lists (`path/policy.hpp`, `path/policy.cpp`).

A predicate is written `ISD-ASN#Ig,Eg`, with zeros as wildcards. An egress
interface behind a zero ingress interface is parsed and then never looked at.

* `HopPredicate.parse`, `HopPredicate.matchHop`, `HopPredicate.regex` — the
  predicate as text, on a hop, and as a regular expression;
* `matchACL_iff` — the first entry that matches a hop decides on it;
* `HopPredicate.matchHop_iff_selects_iff` — a predicate matches what it is
  written to select unless only its egress interface tells the hop apart.
-/
import Scion.AddressText

namespace Scion

/-- `path_meta::Hop`. -/
structure MetaHop where
  isdAsn : IsdAsn
  ingress : UInt64
  egress : UInt64
  deriving DecidableEq, Repr

structure HopPredicate where
  isdAsn : IsdAsn
  ingress : UInt64
  egress : UInt64
  deriving DecidableEq, Repr

namespace HopPredicate

/-- The predicate that matches every hop. -/
def any : HopPredicate := ⟨⟨0⟩, 0, 0⟩

def parse (sv : List Char) : Parsed HopPredicate :=
  if sv.isEmpty then .ok any
  else do
    let iaText := sv.takeWhile (· != '#')
    let isdAsn ←
      if '-' ∈ sv then IsdAsn.parse iaText
      else do .ok (IsdAsn.make (UInt64.ofNat (← parseNumber 10 65536 iaText)) 0)
    match sv.dropWhile (· != '#') with
    | [] => .ok ⟨isdAsn, 0, 0⟩
    | _ :: interfaces =>
      let ingress ← parseNumber 10 (2 ^ 64) (interfaces.takeWhile (· != ','))
      match interfaces.dropWhile (· != ',') with
      | [] => .ok ⟨isdAsn, UInt64.ofNat ingress, 0⟩
      | _ :: egressText =>
        let egress ← parseNumber 10 (2 ^ 64) egressText
        .ok ⟨isdAsn, UInt64.ofNat ingress, UInt64.ofNat egress⟩

/-- `match`. -/
def matchHop (hp : HopPredicate) (hop : MetaHop) : Bool :=
  if hp.isdAsn.isd != 0 && hp.isdAsn.isd != hop.isdAsn.isd then false
  else if hp.isdAsn.asn != 0 && hp.isdAsn.asn != hop.isdAsn.asn then false
  else if hp.ingress != 0 then
    if hp.egress != 0 then !(hop.ingress != hp.ingress || hop.egress != hp.egress)
    else !(hop.ingress != hp.ingress && hop.egress != hp.ingress)
  else true

/-- The pattern for the full form of the hops that are to match. -/
def regex (hp : HopPredicate) : List Char :=
  if hp.isdAsn.isd = 0 then "(\\d+-[0-9a-f:]+#\\d+,\\d+\\s?)".toList
  else if hp.isdAsn.asn = 0 then
    "(".toList ++ formatDecimal hp.isdAsn.isd.toNat ++ "-[0-9a-f:]+#\\d+,\\d+\\s?)".toList
  else if hp.ingress = 0 then "(".toList ++ hp.isdAsn.format ++ "#\\d+,\\d+\\s?)".toList
  else if hp.egress = 0 then
    "(".toList ++ hp.isdAsn.format ++ "#(".toList ++ formatDecimal hp.ingress.toNat
      ++ ",\\d+|\\d+,".toList ++ formatDecimal hp.ingress.toNat ++ ")\\s?)".toList
  else
    "(".toList ++ hp.isdAsn.format ++ "#".toList ++ formatDecimal hp.ingress.toNat
      ++ ",".toList ++ formatDecimal hp.egress.toNat ++ "\\s?)".toList

end HopPredicate

/-- A hop in its full form. -/
def MetaHop.format (hop : MetaHop) : List Char :=
  hop.isdAsn.format ++ '#' :: formatDecimal hop.ingress.toNat
    ++ ',' :: formatDecimal hop.egress.toNat

/-- `details::interfacesToSeqExpr`. -/
def interfacesToSeqExpr (hops : List MetaHop) : List Char :=
  [' '].intercalate (hops.map MetaHop.format)

/-! ### Access control lists -/

/-- Predicates with whether they allow a hop. -/
abbrev Acl := List (Bool × HopPredicate)

namespace Acl

/-- The loop over the entries for one hop: whether a matching entry is found that
allows it. -/
def allows : Acl → MetaHop → Bool
  | [], _ => false
  | (allow, hp) :: rest, hop => if hp.matchHop hop then allow else allows rest hop

/-- The first entry that matches the hop is there and is an allow entry. -/
def FirstMatchAllows (acl : Acl) (hop : MetaHop) : Prop :=
  ∃ before hp after, acl = before ++ (true, hp) :: after ∧ hp.matchHop hop = true ∧
    ∀ entry ∈ before, entry.2.matchHop hop = false

theorem allows_eq_find? (acl : Acl) (hop : MetaHop) :
    acl.allows hop = ((acl.find? fun entry => entry.2.matchHop hop).map Prod.fst).getD false := by
  induction acl with
  | nil => rfl
  | cons entry rest ih =>
    rw [allows, List.find?_cons]
    cases hmatch : entry.2.matchHop hop with
    | false => simpa using ih
    | true => rfl

theorem allows_iff (acl : Acl) (hop : MetaHop) :
    acl.allows hop = true ↔ acl.FirstMatchAllows hop := by
  rw [allows_eq_find?]
  constructor
  · intro h
    cases hfind : acl.find? fun entry => entry.2.matchHop hop with
    | none =>
      rw [hfind] at h
      cases h
    | some entry =>
      rw [hfind] at h
      obtain ⟨hmatch, before, after, hacl, hbefore⟩ := List.find?_eq_some_iff_append.mp hfind
      obtain ⟨allow, hp⟩ := entry
      obtain rfl : allow = true := h
      exact ⟨before, hp, after, hacl, hmatch, fun e he => by simpa using hbefore e he⟩
  · rintro ⟨before, hp, after, hacl, hmatch, hbefore⟩
    have hfind : acl.find? (fun entry => entry.2.matchHop hop) = some (true, hp) :=
      List.find?_eq_some_iff_append.mpr
        ⟨hmatch, before, after, hacl, fun e he => by simpa using hbefore e he⟩
    rw [hfind]
    rfl

end Acl

/-- `Policy::matchACL` with the policy's list, where it has one. -/
def matchACL : Option Acl → List MetaHop → Bool
  | none, _ => true
  | some _, [] => true
  | some acl, hop :: rest => if acl.allows hop then matchACL (some acl) rest else false

theorem matchACL_iff (acl : Acl) (hops : List MetaHop) :
    matchACL (some acl) hops = true ↔ ∀ hop ∈ hops, acl.FirstMatchAllows hop := by
  induction hops with
  | nil => simp [matchACL]
  | cons hop rest ih =>
    rw [matchACL, List.forall_mem_cons, ← Acl.allows_iff]
    cases acl.allows hop with
    | false => simp
    | true => simpa using ih

/-! ### What a predicate selects -/

namespace HopPredicate

/-- The ISD and the ASN are those of the hop where they are not zero. -/
structure SelectsIsdAsn (hp : HopPredicate) (hop : MetaHop) : Prop where
  isd : hp.isdAsn.isd ≠ 0 → hp.isdAsn.isd = hop.isdAsn.isd
  asn : hp.isdAsn.asn ≠ 0 → hp.isdAsn.asn = hop.isdAsn.asn

/-- A single interface is that of either side of the hop, two are those of the two
sides. -/
def SelectsInterfaces (hp : HopPredicate) (hop : MetaHop) : Prop :=
  (hp.ingress ≠ 0 → hp.egress ≠ 0 → hop.ingress = hp.ingress ∧ hop.egress = hp.egress) ∧
  (hp.ingress ≠ 0 → hp.egress = 0 → hop.ingress = hp.ingress ∨ hop.egress = hp.ingress) ∧
  (hp.ingress = 0 → hp.egress ≠ 0 → hop.ingress = hp.egress ∨ hop.egress = hp.egress)

/-- What the predicate is written to select. -/
def Selects (hp : HopPredicate) (hop : MetaHop) : Prop :=
  hp.SelectsIsdAsn hop ∧ hp.SelectsInterfaces hop

/-- Only the egress interface is given, and it is not that of the hop. -/
structure OnlyEgressDiffers (hp : HopPredicate) (hop : MetaHop) : Prop where
  ingress : hp.ingress = 0
  egress : hp.egress ≠ 0
  ne_ingress : hop.ingress ≠ hp.egress
  ne_egress : hop.egress ≠ hp.egress

theorem matchHop_eq_true_iff (hp : HopPredicate) (hop : MetaHop) :
    hp.matchHop hop = true ↔ hp.SelectsIsdAsn hop ∧
      (hp.ingress ≠ 0 → hp.egress ≠ 0 → hop.ingress = hp.ingress ∧ hop.egress = hp.egress) ∧
      (hp.ingress ≠ 0 → hp.egress = 0 → hop.ingress = hp.ingress ∨ hop.egress = hp.ingress) := by
  rw [matchHop]
  by_cases hisd : (hp.isdAsn.isd != 0 && hp.isdAsn.isd != hop.isdAsn.isd) = true
  · rw [if_pos hisd]
    rw [Bool.and_eq_true, bne_iff_ne, bne_iff_ne] at hisd
    exact ⟨fun h => (by cases h), fun h => absurd (h.1.isd hisd.1) hisd.2⟩
  rw [if_neg hisd]
  by_cases hasn : (hp.isdAsn.asn != 0 && hp.isdAsn.asn != hop.isdAsn.asn) = true
  · rw [if_pos hasn]
    rw [Bool.and_eq_true, bne_iff_ne, bne_iff_ne] at hasn
    exact ⟨fun h => (by cases h), fun h => absurd (h.1.asn hasn.1) hasn.2⟩
  have hia : hp.SelectsIsdAsn hop := ⟨by simpa using hisd, by simpa using hasn⟩
  rw [if_neg hasn, and_iff_right hia]
  by_cases hingress : hp.ingress = 0
  · simp [hingress]
  · by_cases hegress : hp.egress = 0
    · simp [hingress, hegress, or_iff_not_imp_left]
    · simp [hingress, hegress]

theorem matchHop_iff_selects_iff (hp : HopPredicate) (hop : MetaHop) :
    (hp.matchHop hop = true ↔ hp.Selects hop) ↔
      ¬ (hp.SelectsIsdAsn hop ∧ hp.OnlyEgressDiffers hop) := by
  rw [matchHop_eq_true_iff, Selects, SelectsInterfaces]
  constructor
  · rintro h ⟨hia, hdiffers⟩
    have hselects := (h.mp ⟨hia, fun hne => absurd hdiffers.ingress hne,
      fun hne => absurd hdiffers.ingress hne⟩).2.2.2 hdiffers.ingress hdiffers.egress
    exact hselects.elim hdiffers.ne_ingress hdiffers.ne_egress
  · intro h
    constructor
    · rintro ⟨hia, hboth, hone⟩
      refine ⟨hia, hboth, hone, fun hingress hegress => ?_⟩
      by_contra hside
      rw [not_or] at hside
      exact h ⟨hia, hingress, hegress, hside.1, hside.2⟩
    · rintro ⟨hia, hboth, hone, -⟩
      exact ⟨hia, hboth, hone⟩

end HopPredicate

/-- A list decides by first match for every predicate, and the predicate is the one
that was written, unless it has only an egress interface and that is not the hop's. -/
theorem acl_semantics_iff (acl : Acl) (hops : List MetaHop) (hp : HopPredicate) (hop : MetaHop) :
    ((matchACL (some acl) hops = true ↔ ∀ hop ∈ hops, acl.FirstMatchAllows hop) ∧
      (hp.matchHop hop = true ↔ hp.Selects hop)) ↔
    ¬ (hp.SelectsIsdAsn hop ∧ hp.OnlyEgressDiffers hop) := by
  rw [← HopPredicate.matchHop_iff_selects_iff]
  exact and_iff_right (matchACL_iff acl hops)

/-- `0-0#0,2` matches a hop from interface 1 to interface 3. -/
theorem not_forall_acl_semantics :
    ¬ ∀ (acl : Acl) (hops : List MetaHop) (hp : HopPredicate) (hop : MetaHop),
      (matchACL (some acl) hops = true ↔ ∀ hop ∈ hops, acl.FirstMatchAllows hop) ∧
        (hp.matchHop hop = true ↔ hp.Selects hop) := by
  intro h
  have hselects := ((h [] [] ⟨⟨0⟩, 0, 2⟩ ⟨IsdAsn.make 1 1, 1, 3⟩).2.mp rfl).2.2.2 rfl (by decide)
  exact absurd hselects (by decide)

end Scion
