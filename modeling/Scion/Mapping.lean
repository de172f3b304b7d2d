/-
Mapping SCION addresses to IPv6 and back (`addr/mapping.hpp`).

A SCION-mapped IPv6 address packs the ISD, the ASN and a local prefix into its
high word. `mapToIPv6` builds one for an IPv4 host and passes an IPv6 host
through that is a mapped address of its own AS; `unmapFromIPv6` takes the
address apart again.

* `unmapIsdAsn_eq`, `mapIPv4_eq` — the bit fields as numbers;
* `unmapFromIPv6_mapIPv4`, `mapToIPv6_unmapFromIPv6` — the two round trips;
* `mapToIPv6_reversible` — the host formats for which the mapping is
  reversible.
-/
import Scion.Address

namespace Scion

def scionIpPrefix : UInt64 := (0xfc : UInt64) <<< 56

/-- The ISD-ASN in a SCION-mapped address, with the AS-local routing prefix;
`none` for the reserved formats. -/
def unmapIsdAsn (ip : IPAddress) : Option (IsdAsn × UInt32) :=
  let hi := ip.getIPv6.1
  let isd := (hi >>> 44) &&& 0xfff
  let flags := (hi >>> 40) &&& 0xf
  if flags &&& 0x8 = 0 then
    some (IsdAsn.make isd ((hi >>> 24) &&& 0xfffff), (hi &&& 0xffffff).toUInt32)
  else if flags = 0xe then
    some (IsdAsn.make isd (((2 : UInt64) <<< 32) ||| ((hi >>> 8) &&& 0xffffffff)), (hi &&& 0xff).toUInt32)
  else none

/-- The part of `mapToIPv6` that builds the address of an IPv4 host. -/
def mapIPv4 (isdAsn : IsdAsn) (host : IPAddress) : Maybe IPAddress :=
  let isd := isdAsn.isd
  if ¬ isd < (1 : UInt64) <<< 12 then .error .invalidArgument
  else
    let asn := isdAsn.asn
    let iid := ((0xffff : UInt64) <<< 32) ||| host.getIPv4.toUInt64
    if asn < (1 : UInt64) <<< 19 then
      .ok (.v6 (scionIpPrefix ||| (isd <<< 44) ||| (asn <<< 24)) iid "")
    else if 0x200000000 ≤ asn ∧ asn ≤ 0x2ffffffff then
      .ok (.v6 (scionIpPrefix ||| (isd <<< 44) ||| ((0xe : UInt64) <<< 40) ||| ((asn &&& 0xffffffff) <<< 8))
        iid "")
    else .error .invalidArgument

/-- Statically map a full SCION address to an IPv6 address. -/
def mapToIPv6 (addr : ScIPAddress) : Maybe IPAddress :=
  let host := addr.host
  if host.is6 then
    -- unmap v4-mapped IPv6 before mapping to SCION
    if host.is4in6 then mapIPv4 addr.isdAsn host.unmap4in6
    else if !host.isScion then .error .invalidArgument
    else match unmapIsdAsn host with
      | none => .error .invalidArgument
      | some (isdAsn, _) =>
        if isdAsn ≠ addr.isdAsn then .error .invalidArgument
        -- the host part is already the mapped address
        else .ok host
  else mapIPv4 addr.isdAsn host

def unmapFromIPv6 (ip : IPAddress) : Maybe ScIPAddress :=
  let (pre, iid) := ip.getIPv6
  if pre &&& ((0xff : UInt64) <<< 56) ≠ scionIpPrefix then .error .invalidArgument
  else match unmapIsdAsn ip with
    | none => .error .notImplemented
    | some (isdAsn, localPrefix) =>
      if localPrefix = 0 ∧ iid ≠ 0 ∧ iid >>> 32 = 0xffff then
        .ok ⟨isdAsn, .v4 iid.toUInt32⟩
      else .ok ⟨isdAsn, ip⟩

/-! ### Formats of mapped addresses -/

inductive ScionIPv6Class
  | invalid
  | bgpIPv4
  | bgpIPv6
  | bgpWildcard
  | wildcardAsn
  | publicScionIPv4
  | publicScionIPv6
  | publicScionWildcard
  | reserved
  deriving DecidableEq, Repr

/-- The type of a SCION-mapped address, `invalid` if it is none. -/
def classifyScionMappedIP (ip : IPAddress) : ScionIPv6Class :=
  let (pre, iid) := ip.getIPv6
  if pre &&& ((0xff : UInt64) <<< 56) ≠ scionIpPrefix then .invalid
  else
    let flags := (pre >>> 40) &&& 0xf
    if flags &&& 0x8 = 0 then
      let asn := (pre >>> 24) &&& 0xfffff
      if asn = 0 then .wildcardAsn
      else if pre &&& 0xffffff = 0 ∧ iid = 0 then .bgpWildcard
      else if pre &&& 0xffffff = 0 ∧ iid >>> 32 = 0xffff then .bgpIPv4
      else .bgpIPv6
    else if flags = 0xe then
      if pre &&& 0xff = 0 ∧ iid = 0 then .publicScionWildcard
      else if pre &&& 0xff = 0 ∧ iid >>> 32 = 0xffff then .publicScionIPv4
      else .publicScionIPv6
    else .reserved

/-- A SCION-IPv4-mapped IPv6 address. -/
def IPAddress.isScion4 (ip : IPAddress) : Bool :=
  match classifyScionMappedIP ip with
  | .bgpIPv4 | .publicScionIPv4 => true
  | _ => false

/-- A SCION-IPv4-mapped address has the marker of an IPv4 host. -/
theorem marker_of_isScion4 {ip : IPAddress} (h : ip.isScion4 = true) : ip.lo >>> 32 = 0xffff := by
  by_contra hne
  rw [IPAddress.isScion4, classifyScionMappedIP] at h
  simp only [IPAddress.getIPv6, hne, and_false, if_false] at h
  split at h
  · next heq =>
    split_ifs at heq
  · next heq =>
    split_ifs at heq
  · cases h

/-! ### The bit fields as numbers -/

/-- A field of `n` bits at bit `k`. -/
theorem toNat_field (x k mask : UInt64) (n : ℕ) (hk : k.toNat < 64)
    (hmask : mask.toNat = 2 ^ n - 1) :
    ((x >>> k) &&& mask).toNat = x.toNat / 2 ^ k.toNat % 2 ^ n := by
  rw [UInt64.toNat_and, UInt64.toNat_shiftRight, Nat.mod_eq_of_lt hk, hmask,
    Nat.and_two_pow_sub_one_eq_mod, Nat.shiftRight_eq_div_pow]

/-- A word of few bits shifted up. -/
theorem toNat_shift (x k : UInt64) (hk : k.toNat < 64) (hx : x.toNat * 2 ^ k.toNat < 2 ^ 64) :
    (x <<< k).toNat = x.toNat * 2 ^ k.toNat := by
  rw [UInt64.toNat_shiftLeft, Nat.mod_eq_of_lt hk, Nat.shiftLeft_eq, Nat.mod_eq_of_lt hx]

/-- Words without common bits are added. -/
theorem toNat_or_low (x y : UInt64) (k : ℕ) (hx : x.toNat % 2 ^ k = 0) (hy : y.toNat < 2 ^ k) :
    (x ||| y).toNat = x.toNat + y.toNat := by
  have hdiv := Nat.div_add_mod x.toNat (2 ^ k)
  rw [hx, add_zero] at hdiv
  rw [UInt64.toNat_or, ← hdiv, ← Nat.two_pow_add_eq_or_of_lt hy]

theorem toNat_isd (a : IsdAsn) : a.isd.toNat = a.ia.toNat / 2 ^ 48 := by
  rw [IsdAsn.isd, UInt64.toNat_shiftRight, Nat.shiftRight_eq_div_pow]
  rfl

theorem toNat_asn (a : IsdAsn) : a.asn.toNat = a.ia.toNat % 2 ^ 48 := by
  rw [IsdAsn.asn, UInt64.toNat_and, show (0xffffffffffff : UInt64).toNat = 2 ^ 48 - 1 from rfl,
    Nat.and_two_pow_sub_one_eq_mod]

theorem make_eq (isd asn : UInt64) (hisd : isd.toNat < 2 ^ 16) (hasn : asn.toNat < 2 ^ 48) :
    IsdAsn.make isd asn = ⟨UInt64.ofNat (isd.toNat * 2 ^ 48 + asn.toNat)⟩ := by
  have hshift : (isd <<< 48).toNat = isd.toNat * 2 ^ 48 :=
    toNat_shift isd 48 (by decide) (by show isd.toNat * 2 ^ 48 < 2 ^ 64; omega)
  refine congrArg IsdAsn.mk (UInt64.toNat_inj.mp ?_)
  rw [UInt64.toNat_ofNat', Nat.mod_eq_of_lt (by omega),
    toNat_or_low (isd <<< 48) asn 48 (by rw [hshift]; omega) hasn, hshift]

/-- Bit 3 of the flags separates the two halves of the flag values. -/
theorem flags_and_eight (flags : UInt64) (h : flags.toNat < 16) :
    flags &&& 0x8 = 0 ↔ flags.toNat < 8 := by
  have hall : ∀ n < 16, n &&& 8 = 0 ↔ n < 8 := by decide
  rw [← UInt64.toNat_inj, UInt64.toNat_and]
  exact hall _ h

/-- The ISD-ASN and the local prefix of a mapped address, as numbers. -/
theorem unmapIsdAsn_eq (ip : IPAddress) :
    unmapIsdAsn ip =
      if ip.hi.toNat / 2 ^ 40 % 16 < 8 then
        some (⟨UInt64.ofNat (ip.hi.toNat / 2 ^ 44 % 2 ^ 12 * 2 ^ 48
          + ip.hi.toNat / 2 ^ 24 % 2 ^ 20)⟩, UInt32.ofNat (ip.hi.toNat % 2 ^ 24))
      else if ip.hi.toNat / 2 ^ 40 % 16 = 14 then
        some (⟨UInt64.ofNat (ip.hi.toNat / 2 ^ 44 % 2 ^ 12 * 2 ^ 48
          + (2 * 2 ^ 32 + ip.hi.toNat / 2 ^ 8 % 2 ^ 32))⟩, UInt32.ofNat (ip.hi.toNat % 2 ^ 8))
      else none := by
  have hisd : ((ip.hi >>> 44) &&& 0xfff).toNat = ip.hi.toNat / 2 ^ 44 % 2 ^ 12 :=
    toNat_field ip.hi 44 0xfff 12 (by decide) rfl
  have hflags : ((ip.hi >>> 40) &&& 0xf).toNat = ip.hi.toNat / 2 ^ 40 % 16 :=
    toNat_field ip.hi 40 0xf 4 (by decide) rfl
  have hbgp : ((ip.hi >>> 24) &&& 0xfffff).toNat = ip.hi.toNat / 2 ^ 24 % 2 ^ 20 :=
    toNat_field ip.hi 24 0xfffff 20 (by decide) rfl
  have hpub : ((ip.hi >>> 8) &&& 0xffffffff).toNat = ip.hi.toNat / 2 ^ 8 % 2 ^ 32 :=
    toNat_field ip.hi 8 0xffffffff 32 (by decide) rfl
  have hpub' : (((2 : UInt64) <<< 32) ||| ((ip.hi >>> 8) &&& 0xffffffff)).toNat
      = 2 * 2 ^ 32 + ip.hi.toNat / 2 ^ 8 % 2 ^ 32 := by
    rw [toNat_or_low _ _ 32 (by decide) (by rw [hpub]; omega), hpub]
    rfl
  have hlocal : (ip.hi &&& 0xffffff).toUInt32 = UInt32.ofNat (ip.hi.toNat % 2 ^ 24) := by
    apply UInt32.toNat_inj.mp
    rw [UInt64.toNat_toUInt32, UInt64.toNat_and, show (0xffffff : UInt64).toNat = 2 ^ 24 - 1 from rfl,
      Nat.and_two_pow_sub_one_eq_mod, UInt32.toNat_ofNat']
  have hlocal' : (ip.hi &&& 0xff).toUInt32 = UInt32.ofNat (ip.hi.toNat % 2 ^ 8) := by
    apply UInt32.toNat_inj.mp
    rw [UInt64.toNat_toUInt32, UInt64.toNat_and, show (0xff : UInt64).toNat = 2 ^ 8 - 1 from rfl,
      Nat.and_two_pow_sub_one_eq_mod, UInt32.toNat_ofNat']
  have hlow : (ip.hi >>> 40 &&& 0xf) &&& 0x8 = 0 ↔ ip.hi.toNat / 2 ^ 40 % 16 < 8 := by
    rw [flags_and_eight _ (by rw [hflags]; omega), hflags]
  have hmid : ip.hi >>> 40 &&& 0xf = 0xe ↔ ip.hi.toNat / 2 ^ 40 % 16 = 14 := by
    rw [← UInt64.toNat_inj, hflags]
    rfl
  simp only [unmapIsdAsn, IPAddress.getIPv6, hlow, hmid, hlocal, hlocal']
  rw [make_eq _ _ (by rw [hisd]; omega) (by rw [hbgp]; omega),
    make_eq _ _ (by rw [hisd]; omega) (by rw [hpub']; omega), hisd, hbgp, hpub']

/-- The fields of a mapped address with a BGP ASN. -/
theorem bgpFields {n isd asn : ℕ} (hisd : isd < 2 ^ 12) (hasn : asn < 2 ^ 19)
    (hn : n = 0xfc * 2 ^ 56 + isd * 2 ^ 44 + asn * 2 ^ 24) :
    n < 2 ^ 64 ∧ n / 2 ^ 56 = 0xfc ∧ n / 2 ^ 40 % 16 < 8 ∧ n / 2 ^ 44 % 2 ^ 12 = isd ∧
      n / 2 ^ 24 % 2 ^ 20 = asn ∧ n % 2 ^ 24 = 0 := by
  subst hn
  refine ⟨?_, ?_, ?_, ?_, ?_, ?_⟩ <;> omega

/-- The fields of a mapped address with a public SCION ASN. -/
theorem publicFields {n isd asn : ℕ} (hisd : isd < 2 ^ 12) (hasn : asn < 2 ^ 32)
    (hn : n = 0xfc * 2 ^ 56 + isd * 2 ^ 44 + 14 * 2 ^ 40 + asn * 2 ^ 8) :
    n < 2 ^ 64 ∧ n / 2 ^ 56 = 0xfc ∧ n / 2 ^ 40 % 16 = 14 ∧ n / 2 ^ 44 % 2 ^ 12 = isd ∧
      n / 2 ^ 8 % 2 ^ 32 = asn ∧ n % 2 ^ 8 = 0 := by
  subst hn
  refine ⟨?_, ?_, ?_, ?_, ?_, ?_⟩ <;> omega

theorem bgpFields_of_word {n : ℕ} (hpre : n / 2 ^ 56 = 0xfc) (hflags : n / 2 ^ 40 % 16 < 8)
    (hlocal : n % 2 ^ 24 = 0) :
    n / 2 ^ 24 % 2 ^ 20 < 2 ^ 19 ∧
      0xfc * 2 ^ 56 + n / 2 ^ 44 % 2 ^ 12 * 2 ^ 44 + n / 2 ^ 24 % 2 ^ 20 * 2 ^ 24 = n := by
  constructor <;> omega

theorem publicFields_of_word {n : ℕ} (hpre : n / 2 ^ 56 = 0xfc) (hflags : n / 2 ^ 40 % 16 = 14)
    (hlocal : n % 2 ^ 8 = 0) :
    0xfc * 2 ^ 56 + n / 2 ^ 44 % 2 ^ 12 * 2 ^ 44 + 14 * 2 ^ 40
      + n / 2 ^ 8 % 2 ^ 32 * 2 ^ 8 = n := by
  omega

/-- The two parts of an ISD-ASN put together. -/
theorem isdAsnFields {isd asn : ℕ} (hisd : isd < 2 ^ 12) (hasn : asn < 2 ^ 48) :
    (UInt64.ofNat (isd * 2 ^ 48 + asn)).toNat / 2 ^ 48 = isd ∧
      (UInt64.ofNat (isd * 2 ^ 48 + asn)).toNat % 2 ^ 48 = asn := by
  rw [UInt64.toNat_ofNat', Nat.mod_eq_of_lt (by omega)]
  omega

/-- The word of an IPv4 host under a mapped prefix. -/
theorem mappedIid_eq (host : IPAddress) :
    ((0xffff : UInt64) <<< 32) ||| host.getIPv4.toUInt64
      = UInt64.ofNat (0xffff * 2 ^ 32 + host.getIPv4.toNat) := by
  have hhost := host.getIPv4.toNat_lt
  apply UInt64.toNat_inj.mp
  rw [toNat_or_low _ _ 32 (by decide) (by rw [UInt32.toNat_toUInt64]; exact hhost),
    UInt32.toNat_toUInt64, UInt64.toNat_ofNat', Nat.mod_eq_of_lt (by omega)]
  rfl

/-- The prefix and the ISD at the head of the upper word. -/
theorem toNat_prefix_isd {isdAsn : IsdAsn} (h : isdAsn.ia.toNat / 2 ^ 48 < 2 ^ 12) :
    (scionIpPrefix ||| (isdAsn.isd <<< 44)).toNat
      = 0xfc * 2 ^ 56 + isdAsn.ia.toNat / 2 ^ 48 * 2 ^ 44 := by
  have hisd := toNat_isd isdAsn
  have hpre : scionIpPrefix.toNat = 0xfc * 2 ^ 56 := rfl
  have hisd44 : (isdAsn.isd <<< 44).toNat = isdAsn.ia.toNat / 2 ^ 48 * 2 ^ 44 := by
    rw [toNat_shift _ _ (by decide) (by rw [hisd]; show _ * 2 ^ 44 < _; omega), hisd]
    rfl
  rw [toNat_or_low _ _ 56 (by decide) (by rw [hisd44]; omega), hpre, hisd44]

/-- The upper word for a BGP AS number. -/
theorem bgpWord_eq {isdAsn : IsdAsn} (hisd : isdAsn.ia.toNat / 2 ^ 48 < 2 ^ 12)
    (hbgp : isdAsn.ia.toNat % 2 ^ 48 < 2 ^ 19) :
    (scionIpPrefix ||| (isdAsn.isd <<< 44)) ||| (isdAsn.asn <<< 24)
      = UInt64.ofNat (0xfc * 2 ^ 56 + isdAsn.ia.toNat / 2 ^ 48 * 2 ^ 44
        + isdAsn.ia.toNat % 2 ^ 48 * 2 ^ 24) := by
  have hasn := toNat_asn isdAsn
  have hhigh := toNat_prefix_isd hisd
  have hasn24 : (isdAsn.asn <<< 24).toNat = isdAsn.ia.toNat % 2 ^ 48 * 2 ^ 24 := by
    rw [toNat_shift _ _ (by decide) (by rw [hasn]; show _ * 2 ^ 24 < _; omega), hasn]
    rfl
  apply UInt64.toNat_inj.mp
  rw [toNat_or_low _ _ 44 (by rw [hhigh]; omega) (by rw [hasn24]; omega), hhigh, hasn24,
    UInt64.toNat_ofNat']
  exact (Nat.mod_eq_of_lt (bgpFields hisd hbgp rfl).1).symm

/-- The upper word for a public SCION AS number, of which the low 32 bits are kept. -/
theorem publicWord_eq {isdAsn : IsdAsn} (hisd : isdAsn.ia.toNat / 2 ^ 48 < 2 ^ 12) :
    scionIpPrefix ||| (isdAsn.isd <<< 44) ||| ((0xe : UInt64) <<< 40)
        ||| ((isdAsn.asn &&& 0xffffffff) <<< 8)
      = UInt64.ofNat (0xfc * 2 ^ 56 + isdAsn.ia.toNat / 2 ^ 48 * 2 ^ 44
        + 14 * 2 ^ 40 + isdAsn.ia.toNat % 2 ^ 32 * 2 ^ 8) := by
  have hhigh := toNat_prefix_isd hisd
  have hlow : (isdAsn.asn &&& 0xffffffff).toNat = isdAsn.ia.toNat % 2 ^ 32 := by
    rw [UInt64.toNat_and, toNat_asn isdAsn, show (0xffffffff : UInt64).toNat = 2 ^ 32 - 1 from rfl,
      Nat.and_two_pow_sub_one_eq_mod]
    omega
  have hasn8 : ((isdAsn.asn &&& 0xffffffff) <<< 8).toNat
      = isdAsn.ia.toNat % 2 ^ 32 * 2 ^ 8 := by
    rw [toNat_shift _ _ (by decide) (by rw [hlow]; show _ * 2 ^ 8 < _; omega), hlow]
    rfl
  have hflags : ((0xe : UInt64) <<< 40).toNat = 14 * 2 ^ 40 := rfl
  have hmid : (scionIpPrefix ||| (isdAsn.isd <<< 44) ||| ((0xe : UInt64) <<< 40)).toNat
      = 0xfc * 2 ^ 56 + isdAsn.ia.toNat / 2 ^ 48 * 2 ^ 44 + 14 * 2 ^ 40 := by
    rw [toNat_or_low _ _ 44 (by rw [hhigh]; omega) (by decide), hhigh, hflags]
  apply UInt64.toNat_inj.mp
  rw [toNat_or_low _ _ 40 (by rw [hmid]; omega) (by rw [hasn8]; omega), hmid, hasn8,
    UInt64.toNat_ofNat']
  exact (Nat.mod_eq_of_lt (publicFields hisd (Nat.mod_lt _ (by norm_num)) rfl).1).symm

/-- The mapped address of an IPv4 host, as numbers. -/
theorem mapIPv4_eq (isdAsn : IsdAsn) (host : IPAddress) :
    mapIPv4 isdAsn host =
      if ¬ isdAsn.ia.toNat / 2 ^ 48 < 2 ^ 12 then .error .invalidArgument
      else if isdAsn.ia.toNat % 2 ^ 48 < 2 ^ 19 then
        .ok (.v6 (UInt64.ofNat (0xfc * 2 ^ 56 + isdAsn.ia.toNat / 2 ^ 48 * 2 ^ 44
            + isdAsn.ia.toNat % 2 ^ 48 * 2 ^ 24))
          (UInt64.ofNat (0xffff * 2 ^ 32 + host.getIPv4.toNat)) "")
      else if isdAsn.ia.toNat % 2 ^ 48 / 2 ^ 32 = 2 then
        .ok (.v6 (UInt64.ofNat (0xfc * 2 ^ 56 + isdAsn.ia.toNat / 2 ^ 48 * 2 ^ 44
            + 14 * 2 ^ 40 + isdAsn.ia.toNat % 2 ^ 32 * 2 ^ 8))
          (UInt64.ofNat (0xffff * 2 ^ 32 + host.getIPv4.toNat)) "")
      else .error .invalidArgument := by
  have hisd := toNat_isd isdAsn
  have hasn := toNat_asn isdAsn
  have hisdlt : isdAsn.isd < (1 : UInt64) <<< 12 ↔ isdAsn.ia.toNat / 2 ^ 48 < 2 ^ 12 := by
    rw [UInt64.lt_iff_toNat_lt, hisd]
    rfl
  have hasnlt : isdAsn.asn < (1 : UInt64) <<< 19 ↔ isdAsn.ia.toNat % 2 ^ 48 < 2 ^ 19 := by
    rw [UInt64.lt_iff_toNat_lt, hasn]
    rfl
  have hpub : (0x200000000 ≤ isdAsn.asn ∧ isdAsn.asn ≤ 0x2ffffffff) ↔
      isdAsn.ia.toNat % 2 ^ 48 / 2 ^ 32 = 2 := by
    rw [UInt64.le_iff_toNat_le, UInt64.le_iff_toNat_le, hasn,
      show (0x200000000 : UInt64).toNat = 2 * 2 ^ 32 from rfl,
      show (0x2ffffffff : UInt64).toNat = 3 * 2 ^ 32 - 1 from rfl]
    omega
  simp only [mapIPv4, hisdlt, hasnlt, hpub, mappedIid_eq]
  split
  · rfl
  next hsmall =>
    split
    next hbgp => rw [bgpWord_eq (not_not.mp hsmall) hbgp]
    next =>
      split
      · rw [publicWord_eq (not_not.mp hsmall)]
      · rfl

/-- The test for the SCION prefix looks at the leading byte. -/
theorem and_prefixMask_eq (x : UInt64) :
    x &&& ((0xff : UInt64) <<< 56) = scionIpPrefix ↔ x.toNat / 2 ^ 56 = 0xfc := by
  have hx := x.toNat_lt
  have hmask : ((0xff : UInt64) <<< 56).toNat = 255 * 2 ^ 56 := rfl
  have hquot : (x.toNat &&& 255 * 2 ^ 56) / 2 ^ 56 = x.toNat / 2 ^ 56 := by
    have hbyte : 255 * 2 ^ 56 / 2 ^ 56 = 2 ^ 8 - 1 := rfl
    rw [Nat.and_div_two_pow, hbyte, Nat.and_two_pow_sub_one_eq_mod]
    omega
  have hrest : (x.toNat &&& 255 * 2 ^ 56) % 2 ^ 56 = 0 := by
    have hzero : 255 * 2 ^ 56 % 2 ^ 56 = 0 := rfl
    rw [Nat.and_mod_two_pow, hzero, Nat.and_zero]
  have hpre : scionIpPrefix.toNat = 0xfc * 2 ^ 56 := rfl
  rw [← UInt64.toNat_inj, UInt64.toNat_and, hmask, hpre]
  omega

theorem isScion_eq (ip : IPAddress) (h6 : ip.is6 = true) :
    ip.isScion = true ↔ ip.hi.toNat / 2 ^ 56 = 0xfc := by
  have hbyte : (ip.hi >>> 56 &&& 0xff).toNat = ip.hi.toNat / 2 ^ 56 % 2 ^ 8 :=
    toNat_field ip.hi 56 0xff 8 (by decide) rfl
  have hlt := ip.hi.toNat_lt
  rw [IPAddress.isScion, h6, Bool.true_and, beq_iff_eq, ← UInt64.toNat_inj, hbyte,
    show (0xfc : UInt64).toNat = 0xfc from rfl]
  omega

/-- What `unmapFromIPv6` makes of an address with the prefix. -/
theorem unmapFromIPv6_eq (ip : IPAddress) (isdAsn : IsdAsn) (localPrefix : UInt32)
    (hpre : ip.hi.toNat / 2 ^ 56 = 0xfc) (hunmap : unmapIsdAsn ip = some (isdAsn, localPrefix)) :
    unmapFromIPv6 ip =
      if localPrefix = 0 ∧ ip.lo.toNat / 2 ^ 32 = 0xffff then .ok ⟨isdAsn, .v4 ip.getIPv4⟩
      else .ok ⟨isdAsn, ip⟩ := by
  have hword : ip.lo >>> 32 = 0xffff ↔ ip.lo.toNat / 2 ^ 32 = 0xffff := by
    rw [← UInt64.toNat_inj, UInt64.toNat_shiftRight, Nat.shiftRight_eq_div_pow]
    rfl
  have hnonzero : ip.lo ≠ 0 ∧ ip.lo >>> 32 = 0xffff ↔ ip.lo.toNat / 2 ^ 32 = 0xffff := by
    rw [hword, ne_eq, ← UInt64.toNat_inj, show (0 : UInt64).toNat = 0 from rfl]
    omega
  simp only [unmapFromIPv6, IPAddress.getIPv6, IPAddress.getIPv4, ne_eq,
    (and_prefixMask_eq ip.hi).mpr hpre, not_true_eq_false, if_false, hunmap]
  exact if_congr (and_congr_right fun _ => hnonzero) rfl rfl

/-- Only addresses with the prefix are taken apart. -/
theorem prefix_of_unmapFromIPv6 {ip : IPAddress} {a : ScIPAddress} (h : unmapFromIPv6 ip = .ok a) :
    ip.hi.toNat / 2 ^ 56 = 0xfc := by
  by_contra hne
  have hmask := mt (and_prefixMask_eq ip.hi).mp hne
  simp [unmapFromIPv6, IPAddress.getIPv6, hmask] at h

/-! ### Round trips -/

/-- The address with an IPv4-mapped host replaced by the plain IPv4 host. -/
def ScIPAddress.normalized (a : ScIPAddress) : ScIPAddress := { a with host := a.host.unmap4in6 }

/-- A mapped address whose high word carries `isdAsn` without a local prefix
is taken apart into `isdAsn` and its IPv4 host. -/
theorem unmapFromIPv6_mapped {isdAsn : IsdAsn} {addr : UInt32} {n : ℕ} (hn : n < 2 ^ 64)
    (hpre : n / 2 ^ 56 = 0xfc)
    (hunmap : unmapIsdAsn (.v6 (UInt64.ofNat n) (UInt64.ofNat (0xffff * 2 ^ 32 + addr.toNat)) "")
      = some (isdAsn, 0)) :
    unmapFromIPv6 (.v6 (UInt64.ofNat n) (UInt64.ofNat (0xffff * 2 ^ 32 + addr.toNat)) "")
      = .ok ⟨isdAsn, .v4 addr⟩ := by
  have haddr := addr.toNat_lt
  have hhi : (UInt64.ofNat n).toNat = n := by
    rw [UInt64.toNat_ofNat', Nat.mod_eq_of_lt hn]
  have hlo : (UInt64.ofNat (0xffff * 2 ^ 32 + addr.toNat)).toNat = 0xffff * 2 ^ 32 + addr.toNat := by
    rw [UInt64.toNat_ofNat', Nat.mod_eq_of_lt (by omega)]
  have hlow : (UInt64.ofNat (0xffff * 2 ^ 32 + addr.toNat)).toUInt32 = addr := by
    apply UInt32.toNat_inj.mp
    rw [UInt64.toNat_toUInt32, hlo]
    omega
  rw [unmapFromIPv6_eq _ isdAsn 0 (by rw [IPAddress.hi, hhi, hpre]) hunmap,
    if_pos ⟨rfl, by rw [IPAddress.lo, hlo]; omega⟩]
  exact congrArg (fun host => Except.ok (ScIPAddress.mk isdAsn (.v4 host))) hlow

/-- An IPv4 host survives the mapping. -/
theorem unmapFromIPv6_mapIPv4 {isdAsn : IsdAsn} {addr : UInt32} {ip : IPAddress}
    (h : mapIPv4 isdAsn (.v4 addr) = .ok ip) : unmapFromIPv6 ip = .ok ⟨isdAsn, .v4 addr⟩ := by
  have hhost : (IPAddress.v4 addr).getIPv4 = addr := by simp [IPAddress.getIPv4, IPAddress.lo]
  rw [mapIPv4_eq, hhost] at h
  split at h
  · cases h
  next hsmall =>
    split at h
    next hbgp =>
      cases h
      obtain ⟨hlt, hpre, hflags, hisd, hasn, hlocal⟩ := bgpFields (not_not.mp hsmall) hbgp rfl
      refine unmapFromIPv6_mapped hlt hpre ?_
      rw [unmapIsdAsn_eq, IPAddress.hi, UInt64.toNat_ofNat', Nat.mod_eq_of_lt hlt, if_pos hflags,
        hisd, hasn, hlocal, Nat.div_add_mod', UInt64.ofNat_toNat]
      rfl
    next hbig =>
      split at h
      next hpub =>
        have hasn' : 2 * 2 ^ 32 + isdAsn.ia.toNat % 2 ^ 32 = isdAsn.ia.toNat % 2 ^ 48 := by omega
        cases h
        obtain ⟨hlt, hpre, hflags, hisd, hasn, hlocal⟩ :=
          publicFields (not_not.mp hsmall)
            (show isdAsn.ia.toNat % 2 ^ 32 < 2 ^ 32 from Nat.mod_lt _ (by norm_num)) rfl
        refine unmapFromIPv6_mapped hlt hpre ?_
        rw [unmapIsdAsn_eq, IPAddress.hi, UInt64.toNat_ofNat', Nat.mod_eq_of_lt hlt,
          if_neg (by omega), if_pos hflags, hisd, hasn, hlocal, hasn', Nat.div_add_mod',
          UInt64.ofNat_toNat]
        rfl
      · cases h

/-- An IPv4-mapped address is unmapped to an IPv4 address. -/
theorem exists_unmap4in6 {host : IPAddress} (h : host.is4in6 = true) :
    ∃ addr, host.unmap4in6 = .v4 addr := by
  rw [IPAddress.unmap4in6, if_pos h]
  exact ⟨_, rfl⟩

/-- A SCION-mapped address is not IPv4-mapped. -/
theorem is4in6_eq_false_of_mapped {host : IPAddress} (h : host.hi.toNat / 2 ^ 56 = 0xfc) :
    host.is4in6 = false := by
  have hne : host.hi ≠ 0 := by
    intro hzero
    rw [hzero] at h
    exact absurd h (by decide)
  rw [IPAddress.is4in6, beq_eq_false_iff_ne.mpr hne]
  simp

/-- The host is a SCION-mapped address of the address's own AS that embeds an
IPv4 address. -/
def ScIPAddress.isOwnMappedIPv4 (a : ScIPAddress) : Bool :=
  a.host.isScion && unmapIsdAsn a.host == some (a.isdAsn, 0) && a.host.lo >>> 32 == 0xffff

/-- What `mapToIPv6` accepts: an IPv4 host, or a mapped address of the same
ISD-ASN, which it returns. -/
theorem mapToIPv6_eq_ok {a : ScIPAddress} {ip : IPAddress} (h : mapToIPv6 a = .ok ip) :
    (∃ addr, a.normalized.host = .v4 addr ∧ a.host.isScion = false ∧
      mapIPv4 a.isdAsn (.v4 addr) = .ok ip) ∨
    (a.host.isScion = true ∧ (∃ localPrefix, unmapIsdAsn a.host = some (a.isdAsn, localPrefix)) ∧
      a.normalized = a ∧ ip = a.host) := by
  rcases hhost : a.host with addr | ⟨hi, lo, zone⟩
  · left
    refine ⟨addr, ?_, rfl, ?_⟩
    · rw [ScIPAddress.normalized, hhost]
      rfl
    · simpa [mapToIPv6, hhost, IPAddress.is6, IPAddress.is4] using h
  · have h6 : a.host.is6 = true := by rw [hhost]; rfl
    simp only [mapToIPv6, h6, if_true] at h
    by_cases h46 : a.host.is4in6 = true
    · left
      obtain ⟨addr, haddr⟩ := exists_unmap4in6 h46
      rw [if_pos h46, haddr] at h
      refine ⟨addr, haddr, ?_, h⟩
      rw [← hhost, Bool.eq_false_iff]
      intro hscion
      rw [is4in6_eq_false_of_mapped ((isScion_eq _ h6).mp hscion)] at h46
      cases h46
    · right
      rw [if_neg h46] at h
      by_cases hscion : a.host.isScion = true
      · rw [if_neg (by simp [hscion])] at h
        rcases hunmap : unmapIsdAsn a.host with _ | ⟨isdAsn, localPrefix⟩
        · rw [hunmap] at h
          cases h
        · rw [hunmap] at h
          by_cases hia : isdAsn = a.isdAsn
          · simp only [hia, ne_eq, not_true_eq_false, if_false, Except.ok.injEq] at h
            refine ⟨hhost ▸ hscion, ⟨localPrefix, by rw [← hhost, hunmap, hia]⟩, ?_, ?_⟩
            · rw [ScIPAddress.normalized, IPAddress.unmap4in6, if_neg h46]
            · rw [← hhost, h]
          · simp [hia] at h
      · rw [if_pos (by simp [hscion])] at h
        cases h

/-- The mapping of `a` is reversible exactly when the host is not itself the
mapped form of an IPv4 host in the same AS: that address passes through
unchanged and comes back as the IPv4 host. -/
theorem unmapFromIPv6_mapToIPv6_iff (a : ScIPAddress) :
    (∀ ip, mapToIPv6 a = .ok ip → unmapFromIPv6 ip = .ok a.normalized) ↔
      a.isOwnMappedIPv4 = false := by
  constructor
  · intro h
    rw [Bool.eq_false_iff]
    intro hown
    simp only [ScIPAddress.isOwnMappedIPv4, Bool.and_eq_true, beq_iff_eq] at hown
    obtain ⟨⟨hscion, hunmap⟩, hword⟩ := hown
    have h6 : a.host.is6 = true := by
      simp only [IPAddress.isScion, Bool.and_eq_true] at hscion
      exact hscion.1
    have hpre := (isScion_eq _ h6).mp hscion
    have h46 := is4in6_eq_false_of_mapped hpre
    have hmap : mapToIPv6 a = .ok a.host := by
      simp [mapToIPv6, h6, h46, hscion, hunmap]
    have hword' : a.host.lo.toNat / 2 ^ 32 = 0xffff := by
      rw [← UInt64.toNat_inj, UInt64.toNat_shiftRight, Nat.shiftRight_eq_div_pow] at hword
      exact hword
    have hback := h a.host hmap
    rw [unmapFromIPv6_eq _ _ _ hpre hunmap, if_pos ⟨rfl, hword'⟩, Except.ok.injEq] at hback
    have hhost := congrArg (fun b => b.host.is4) hback
    simp only [ScIPAddress.normalized, IPAddress.unmap4in6, h46, Bool.false_eq_true, if_false]
      at hhost
    rw [IPAddress.is6, ← hhost] at h6
    cases h6
  · intro hown ip hmap
    rcases mapToIPv6_eq_ok hmap with ⟨addr, hhost, -, hmap4⟩ |
      ⟨hscion, ⟨localPrefix, hunmap⟩, hnorm, rfl⟩
    · rw [unmapFromIPv6_mapIPv4 hmap4, ← hhost]
      rfl
    · have h6 : a.host.is6 = true := by
        simp only [IPAddress.isScion, Bool.and_eq_true] at hscion
        exact hscion.1
      rw [unmapFromIPv6_eq _ _ _ ((isScion_eq _ h6).mp hscion) hunmap, hnorm, if_neg]
      rintro ⟨rfl, hword⟩
      have hword' : a.host.lo >>> 32 = 0xffff := by
        rw [← UInt64.toNat_inj, UInt64.toNat_shiftRight, Nat.shiftRight_eq_div_pow]
        exact hword
      simp [ScIPAddress.isOwnMappedIPv4, hscion, hunmap, hword'] at hown

/-- The ISD-ASN and local prefix determine the high word. -/
theorem mapIPv4_unmapIsdAsn {ip : IPAddress} {isdAsn : IsdAsn} {addr : UInt32}
    (hpre : ip.hi.toNat / 2 ^ 56 = 0xfc) (hunmap : unmapIsdAsn ip = some (isdAsn, 0))
    (hword : ip.lo.toNat = 0xffff * 2 ^ 32 + addr.toNat) :
    mapIPv4 isdAsn (.v4 addr) = .ok (.v6 ip.hi ip.lo "") := by
  have hhost : (IPAddress.v4 addr).getIPv4 = addr := by simp [IPAddress.getIPv4, IPAddress.lo]
  have hlo : UInt64.ofNat (0xffff * 2 ^ 32 + addr.toNat) = ip.lo := by
    rw [← hword, UInt64.ofNat_toNat]
  rw [mapIPv4_eq, hhost, hlo]
  rw [unmapIsdAsn_eq] at hunmap
  set n := ip.hi.toNat with hn
  have hhi : ip.hi = UInt64.ofNat n := by rw [hn, UInt64.ofNat_toNat]
  have hzero : ∀ k, k < 2 ^ 32 → UInt32.ofNat k = 0 → k = 0 := by
    intro k hk h0
    have hval := congrArg UInt32.toNat h0
    rw [UInt32.toNat_ofNat', Nat.mod_eq_of_lt hk] at hval
    exact hval
  split at hunmap
  next hflags =>
    simp only [Option.some.injEq, Prod.mk.injEq] at hunmap
    obtain ⟨rfl, hlocal⟩ := hunmap
    obtain ⟨hasn, hword⟩ := bgpFields_of_word hpre hflags (hzero _ (by omega) hlocal)
    obtain ⟨hisd', hasn'⟩ := isdAsnFields
      (show n / 2 ^ 44 % 2 ^ 12 < 2 ^ 12 from Nat.mod_lt _ (by norm_num))
      (show n / 2 ^ 24 % 2 ^ 20 < 2 ^ 48 by omega)
    have hsmall : n / 2 ^ 44 % 2 ^ 12 < 2 ^ 12 := Nat.mod_lt _ (by norm_num)
    rw [hisd', hasn', if_neg (not_not.mpr hsmall), if_pos hasn, hword, hhi]
  next hflags =>
    split at hunmap
    next hpub =>
      simp only [Option.some.injEq, Prod.mk.injEq] at hunmap
      obtain ⟨rfl, hlocal⟩ := hunmap
      have hword := publicFields_of_word hpre hpub (hzero _ (by omega) hlocal)
      obtain ⟨hisd', hasn'⟩ := isdAsnFields
        (show n / 2 ^ 44 % 2 ^ 12 < 2 ^ 12 from Nat.mod_lt _ (by norm_num))
        (show 2 * 2 ^ 32 + n / 2 ^ 8 % 2 ^ 32 < 2 ^ 48 by omega)
      have hsmall : n / 2 ^ 44 % 2 ^ 12 < 2 ^ 12 := Nat.mod_lt _ (by norm_num)
      have hlow : ∀ x : ℕ, x % 2 ^ 48 = 2 * 2 ^ 32 + n / 2 ^ 8 % 2 ^ 32 →
          x % 2 ^ 32 = n / 2 ^ 8 % 2 ^ 32 := by
        intro x hx
        omega
      rw [hisd', hlow _ hasn', hasn', if_neg (not_not.mpr hsmall), if_neg (by omega),
        if_pos (by omega), hword, hhi]
    · cases hunmap

/-- The other round trip: whatever a zone-less address is taken apart into is
mapped back to it. -/
theorem mapToIPv6_unmapFromIPv6 {ip : IPAddress} {a : ScIPAddress} (h6 : ip.is6 = true)
    (hzone : ip.withoutZone = ip) (h : unmapFromIPv6 ip = .ok a) : mapToIPv6 a = .ok ip := by
  have hpre := prefix_of_unmapFromIPv6 h
  have hscion := (isScion_eq ip h6).mpr hpre
  have h46 := is4in6_eq_false_of_mapped hpre
  rcases hunmap : unmapIsdAsn ip with _ | ⟨isdAsn, localPrefix⟩
  · simp [unmapFromIPv6, IPAddress.getIPv6, (and_prefixMask_eq ip.hi).mpr hpre, hunmap] at h
  · rw [unmapFromIPv6_eq ip isdAsn localPrefix hpre hunmap] at h
    split at h
    next hv4 =>
      obtain ⟨rfl, hword⟩ := hv4
      cases h
      have haddr : ip.getIPv4.toNat = ip.lo.toNat % 2 ^ 32 := by
        rw [IPAddress.getIPv4, UInt64.toNat_toUInt32]
      have hlo : ip.lo.toNat = 0xffff * 2 ^ 32 + ip.getIPv4.toNat := by
        rw [haddr]
        omega
      have hip : IPAddress.v6 ip.hi ip.lo "" = ip := by
        cases ip with
        | v4 addr => cases h6
        | v6 hi lo zone => exact hzone
      show mapIPv4 isdAsn (.v4 ip.getIPv4) = _
      rw [mapIPv4_unmapIsdAsn hpre hunmap hlo, hip]
    next =>
      cases h
      simp [mapToIPv6, h6, h46, hscion, hunmap]

/-! ### Reversibility -/

/-- On the addresses that are taken apart into what they were the mapping is injective. -/
theorem normalized_eq_of_mapToIPv6 {a b : ScIPAddress} {ip : IPAddress}
    (ha : a.isOwnMappedIPv4 = false) (hb : b.isOwnMappedIPv4 = false) (hmapa : mapToIPv6 a = .ok ip)
    (hmapb : mapToIPv6 b = .ok ip) : a.normalized = b.normalized := by
  have hbacka := (unmapFromIPv6_mapToIPv6_iff a).mpr ha ip hmapa
  have hbackb := (unmapFromIPv6_mapToIPv6_iff b).mpr hb ip hmapb
  rw [hbacka, Except.ok.injEq] at hbackb
  exact hbackb

/-- The two functions are inverse to each other, up to the replacement of an
IPv4-mapped host, exactly on the addresses whose host is not the mapped form
of an IPv4 host in the same AS; on these the mapping is injective. -/
theorem mapToIPv6_reversible (a b : ScIPAddress) (ip : IPAddress) :
    ((∀ mapped, mapToIPv6 a = .ok mapped → unmapFromIPv6 mapped = .ok a.normalized) ↔
      a.isOwnMappedIPv4 = false) ∧
    (ip.is6 = true → ip.withoutZone = ip → unmapFromIPv6 ip = .ok a → mapToIPv6 a = .ok ip) ∧
    (a.isOwnMappedIPv4 = false → b.isOwnMappedIPv4 = false → mapToIPv6 a = .ok ip →
      mapToIPv6 b = .ok ip → a.normalized = b.normalized) := by
  refine ⟨unmapFromIPv6_mapToIPv6_iff a, mapToIPv6_unmapFromIPv6, ?_⟩
  intro ha hb hmapa hmapb
  exact normalized_eq_of_mapToIPv6 ha hb hmapa hmapb

/-- The address 1-64512,10.0.0.1 and its mapped form fc00:10fc::ffff:10.0.0.1. -/
theorem mapToIPv6_reversible_example :
    unmapFromIPv6 (.v6 0xfc0010fc00000000 0xffff0a000001 "")
        = .ok ⟨IsdAsn.make 1 64512, .v4 0x0a000001⟩ ∧
      mapToIPv6 ⟨IsdAsn.make 1 64512, .v4 0x0a000001⟩
        = .ok (.v6 0xfc0010fc00000000 0xffff0a000001 "") :=
  have hboth := mapToIPv6_reversible ⟨IsdAsn.make 1 64512, .v4 0x0a000001⟩
    ⟨IsdAsn.make 1 64512, .v4 0x0a000001⟩ (.v6 0xfc0010fc00000000 0xffff0a000001 "")
  have hmap := hboth.2.1 rfl rfl (by decide)
  ⟨hboth.1.mpr (by decide) _ hmap, hmap⟩

/-- A host that is the mapped form of 10.0.0.1 in its own AS passes through
`mapToIPv6`, but is taken apart into the IPv4 host, which is mapped to the same
address. -/
theorem not_mapToIPv6_reversible :
    ¬ ∀ (a : ScIPAddress) (ip : IPAddress), mapToIPv6 a = .ok ip →
      unmapFromIPv6 ip = .ok a.normalized := by
  intro h
  have hback := h ⟨IsdAsn.make 1 64512, .v6 0xfc0010fc00000000 0xffff0a000001 ""⟩
    (.v6 0xfc0010fc00000000 0xffff0a000001 "") (by decide)
  exact absurd hback (by decide)

end Scion
