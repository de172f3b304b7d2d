/-
SCION addresses as text (`addr/isd_asn.cpp`, `addr/address.hpp`,
`addr/endpoint.cpp`, `details/from_chars.hpp`).

* `IsdAsn.parse`, `IsdAsn.format` — an ISD-ASN pair as text;
* `ScIPAddress.parse`, `splitHostPort`, `ScIPEndpoint.parse` — addresses with a
  host and a port.
-/
import Scion.IPText

namespace Scion

open Numerals

/-- `std::errc`. -/
inductive Errc
  | invalidArgument
  | resultOutOfRange
  deriving DecidableEq, Repr

/-- `std::error_code`, of the library or of the standard. -/
inductive StdError
  | scion (ec : ErrorCode)
  | errc (ec : Errc)
  deriving DecidableEq, Repr

/-- A value or a `std::error_code`. -/
abbrev Parsed (α : Type) := Except StdError α

/-- `details::from_chars` for an unsigned type of numbers below `bound`. -/
def parseNumber (base bound : ℕ) (text : List Char) : Parsed ℕ :=
  match fromChars base bound text with
  | (_ :: _, _) => .error (.scion .syntaxError)
  | ([], some n) => .ok n
  | ([], none) => .error (.errc (if text.isEmpty then .invalidArgument else .resultOutOfRange))

/-! ### ISD-ASN pairs -/

/-- `Isd::Parse`. -/
def parseIsd (text : List Char) : Parsed UInt64 := do
  let isd ← parseNumber 10 (2 ^ 64) text
  if isd > 0xffff then .error (.scion .syntaxError) else .ok (UInt64.ofNat isd)

/-- The loop over the groups of a SCION-style ASN: the number of groups and the
ASN. -/
def parseAsnGroups : List (List Char) → ℕ → UInt64 → Parsed (ℕ × UInt64)
  | [], i, asn => .ok (i, asn)
  | group :: rest, i, asn =>
    -- too many groups or empty group
    if i > 2 ∨ group.isEmpty then .error (.scion .syntaxError)
    else do
      let v ← parseNumber 16 (2 ^ 64) group
      if v > 0xffff then .error (.scion .syntaxError)
      else parseAsnGroups rest (i + 1) (asn ||| (UInt64.ofNat v <<< UInt64.ofNat (16 * (2 - i))))

/-- A SCION-style ASN. -/
def parseScionAsn (text : List Char) : Parsed UInt64 := do
  let (i, asn) ← parseAsnGroups (text.splitOn ':') 0 0
  -- too few groups
  if i < 2 then .error (.scion .syntaxError) else .ok asn

/-- `Asn::Parse`. -/
def parseAsn (text : List Char) : Parsed UInt64 :=
  match parseNumber 10 (2 ^ 64) text with
  | .ok asn => if asn ≤ 0xffffffffffff then .ok (UInt64.ofNat asn) else parseScionAsn text
  | .error _ => parseScionAsn text

/-- Decimal digits. -/
def formatDecimal (n : ℕ) : List Char := Nat.toDigits 10 n

namespace IsdAsn

/-- `IsdAsn::Parse`. -/
def parse (text : List Char) : Parsed IsdAsn :=
  match text.dropWhile (· != '-') with
  | [] => .error (.scion .syntaxError)
  | _ :: asnText => do
    let isd ← parseIsd (text.takeWhile (· != '-'))
    let asn ← parseAsn asnText
    .ok (make isd asn)

/-- `std::formatter<Asn>`. -/
def formatAsn (asn : UInt64) : List Char :=
  if asn ≤ 0xffffffff then formatDecimal asn.toNat
  else Nat.toDigits 16 ((asn >>> 32) &&& 0xffff).toNat ++ ':' ::
    Nat.toDigits 16 ((asn >>> 16) &&& 0xffff).toNat ++ ':' ::
    Nat.toDigits 16 (asn &&& 0xffff).toNat

/-- `std::formatter<IsdAsn>`. -/
def format (a : IsdAsn) : List Char := formatDecimal a.isd.toNat ++ '-' :: formatAsn a.asn

end IsdAsn

/-! ### Hosts and ports -/

/-- An error of the IP address parser. -/
def liftError {α : Type} : Maybe α → Parsed α
  | .ok a => .ok a
  | .error ec => .error (.scion ec)

/-- `Address<generic::IPAddress>::Parse`. -/
def ScIPAddress.parse (text : List Char) : Parsed ScIPAddress :=
  match text.dropWhile (· != ',') with
  | [] => .error (.scion .syntaxError)
  | _ :: hostText => do
    let ia ← IsdAsn.parse (text.takeWhile (· != ','))
    let host ← liftError (IPAddress.parse hostText false)
    .ok ⟨ia, host⟩

/-- What stands before and behind the last `c`, as `rfind` locates it. -/
def splitLast (c : Char) (text : List Char) : Option (List Char × List Char) :=
  match text.reverse.dropWhile (· != c) with
  | [] => none
  | _ :: before => some (before.reverse, (text.reverse.takeWhile (· != c)).reverse)

/-- The port behind a colon. -/
def parsePort (text : List Char) : Parsed UInt16 :=
  if text.isEmpty then .error (.scion .syntaxError)
  else
    match fromChars 10 65536 text with
    | ([], some port) => .ok (UInt16.ofNat port)
    | _ => .error (.scion .syntaxError)

/-- `details::splitHostPort`. -/
def splitHostPort : List Char → Parsed (List Char × UInt16)
  | '[' :: text =>
    match splitLast ']' text with
    | none => .error (.scion .syntaxError)
    | some (addr, []) => .ok (addr, 0)
    | some (addr, ':' :: port) => do .ok (addr, ← parsePort port)
    | some _ => .error (.scion .syntaxError)
  | text =>
    match splitLast ':' text with
    | none => .ok (text, 0)
    | some (addr, port) =>
      -- with a colon in what is then the host, SCION-IPv6 or IPv6 without a port
      let host := if ',' ∈ addr then addr.dropWhile (· != ',') else addr
      if ':' ∈ host then .ok (text, 0) else do .ok (addr, ← parsePort port)

/-- `Endpoint<generic::IPEndpoint>::Parse`. -/
def ScIPEndpoint.parse (text : List Char) : Parsed ScIPEndpoint := do
  let (addr, port) ← splitHostPort text
  let address ← ScIPAddress.parse addr
  .ok ⟨address.isdAsn, ⟨address.host, port⟩⟩

end Scion
