/-
Classes of SCION-mapped addresses (`addr/mapping.hpp`).

`classifyScionMappedIP` and `unmapFromIPv6` read the same prefix. The former looks for
ASN zero before it looks at the host, the latter does not look for it.

* `classifyScionMappedIP_eq` — the classes by the fields of the address as numbers;
* `ScionIPv6Class.unmapped` — what an address of a class is taken apart into;
* `classify_unmapFromIPv6` — the two agree but on the addresses of ASN zero.
-/
import Scion.Mapping

namespace Scion

/-- The marker of an IPv4 host. -/
def IPAddress.HasIPv4Marker (ip : IPAddress) : Prop := ip.lo.toNat / 2 ^ 32 = 0xffff

instance (ip : IPAddress) : Decidable ip.HasIPv4Marker :=
  inferInstanceAs (Decidable (_ = _))

/-- The class by the fields of the address. -/
theorem classifyScionMappedIP_eq (ip : IPAddress) :
    classifyScionMappedIP ip =
      if ip.hi.toNat / 2 ^ 56 ≠ 0xfc then .invalid
      else if ip.hi.toNat / 2 ^ 40 % 16 < 8 then
        if ip.hi.toNat / 2 ^ 24 % 2 ^ 20 = 0 then .wildcardAsn
        else if ip.hi.toNat % 2 ^ 24 = 0 ∧ ip.lo = 0 then .bgpWildcard
        else if ip.hi.toNat % 2 ^ 24 = 0 ∧ ip.HasIPv4Marker then .bgpIPv4
        else .bgpIPv6
      else if ip.hi.toNat / 2 ^ 40 % 16 = 14 then
        if ip.hi.toNat % 2 ^ 8 = 0 ∧ ip.lo = 0 then .publicScionWildcard
        else if ip.hi.toNat % 2 ^ 8 = 0 ∧ ip.HasIPv4Marker then .publicScionIPv4
        else .publicScionIPv6
      else .reserved := by
  have hflags : ((ip.hi >>> 40) &&& 0xf).toNat = ip.hi.toNat / 2 ^ 40 % 16 :=
    toNat_field ip.hi 40 0xf 4 (by decide) rfl
  have hlow : (ip.hi >>> 40 &&& 0xf) &&& 0x8 = 0 ↔ ip.hi.toNat / 2 ^ 40 % 16 < 8 := by
    rw [flags_and_eight _ (by rw [hflags]; omega), hflags]
  have hmid : ip.hi >>> 40 &&& 0xf = 0xe ↔ ip.hi.toNat / 2 ^ 40 % 16 = 14 := by
    rw [← UInt64.toNat_inj, hflags]
    rfl
  have hasn : (ip.hi >>> 24) &&& 0xfffff = 0 ↔ ip.hi.toNat / 2 ^ 24 % 2 ^ 20 = 0 := by
    rw [← UInt64.toNat_inj, toNat_field ip.hi 24 0xfffff 20 (by decide) rfl]
    rfl
  have hmask : ∀ (mask : UInt64) (n : ℕ), mask.toNat = 2 ^ n - 1 →
      (ip.hi &&& mask = 0 ↔ ip.hi.toNat % 2 ^ n = 0) := by
    intro mask n hmask
    rw [← UInt64.toNat_inj, UInt64.toNat_and, hmask, Nat.and_two_pow_sub_one_eq_mod]
    rfl
  have hmarker : ip.lo >>> 32 = 0xffff ↔ ip.HasIPv4Marker := by
    rw [← UInt64.toNat_inj, UInt64.toNat_shiftRight, Nat.shiftRight_eq_div_pow]
    rfl
  simp only [classifyScionMappedIP, IPAddress.getIPv6, ne_eq, and_prefixMask_eq, hlow, hmid, hasn,
    hmask 0xffffff 24 rfl, hmask 0xff 8 rfl, hmarker]

/-- The ISD-ASN that an address of a class encodes. -/
def IPAddress.encodedIsdAsn (ip : IPAddress) : ScionIPv6Class → IsdAsn
  | .publicScionIPv4 | .publicScionIPv6 | .publicScionWildcard =>
    ⟨UInt64.ofNat (ip.hi.toNat / 2 ^ 44 % 2 ^ 12 * 2 ^ 48
      + (2 * 2 ^ 32 + ip.hi.toNat / 2 ^ 8 % 2 ^ 32))⟩
  | _ =>
    ⟨UInt64.ofNat (ip.hi.toNat / 2 ^ 44 % 2 ^ 12 * 2 ^ 48 + ip.hi.toNat / 2 ^ 24 % 2 ^ 20)⟩

/-- What an address of a class is taken apart into. -/
def ScionIPv6Class.unmapped (ip : IPAddress) : ScionIPv6Class → Maybe ScIPAddress
  | .invalid => .error .invalidArgument
  | .reserved => .error .notImplemented
  | .bgpIPv4 => .ok ⟨ip.encodedIsdAsn .bgpIPv4, .v4 ip.getIPv4⟩
  | .publicScionIPv4 => .ok ⟨ip.encodedIsdAsn .publicScionIPv4, .v4 ip.getIPv4⟩
  | .wildcardAsn =>
    -- the class does not tell whether there is an IPv4 host
    .ok ⟨ip.encodedIsdAsn .wildcardAsn,
      if ip.hi.toNat % 2 ^ 24 = 0 ∧ ip.HasIPv4Marker then .v4 ip.getIPv4 else ip⟩
  | c => .ok ⟨ip.encodedIsdAsn c, ip⟩

/-- An IPv4 host is found behind a local prefix of zero. -/
theorem unmapFromIPv6_of_localPrefix {ip : IPAddress} {isdAsn : IsdAsn} {k : ℕ} (hk : k ≤ 32)
    (hpre : ip.hi.toNat / 2 ^ 56 = 0xfc)
    (hunmap : unmapIsdAsn ip = some (isdAsn, UInt32.ofNat (ip.hi.toNat % 2 ^ k))) :
    unmapFromIPv6 ip = .ok ⟨isdAsn,
      if ip.hi.toNat % 2 ^ k = 0 ∧ ip.HasIPv4Marker then .v4 ip.getIPv4 else ip⟩ := by
  have hlocal : UInt32.ofNat (ip.hi.toNat % 2 ^ k) = 0 ↔ ip.hi.toNat % 2 ^ k = 0 := by
    have hlt : ip.hi.toNat % 2 ^ k < 2 ^ 32 :=
      lt_of_lt_of_le (Nat.mod_lt _ (by positivity)) (Nat.pow_le_pow_right (by norm_num) hk)
    rw [← UInt32.toNat_inj, UInt32.toNat_ofNat', Nat.mod_eq_of_lt hlt]
    rfl
  rw [unmapFromIPv6_eq ip _ _ hpre hunmap]
  by_cases hv4 : ip.hi.toNat % 2 ^ k = 0 ∧ ip.HasIPv4Marker
  · rw [if_pos hv4, if_pos ⟨hlocal.mpr hv4.1, hv4.2⟩]
  · rw [if_neg hv4, if_neg fun h => hv4 ⟨hlocal.mp h.1, h.2⟩]

/-- Without an interface identifier there is no IPv4 host. -/
theorem IPAddress.not_hasIPv4Marker {ip : IPAddress} (h : ip.lo = 0) : ¬ ip.HasIPv4Marker := by
  rw [HasIPv4Marker, h]
  decide

/-- An address is taken apart into what its class says. -/
theorem unmapFromIPv6_eq_unmapped (ip : IPAddress) :
    unmapFromIPv6 ip = (classifyScionMappedIP ip).unmapped ip := by
  rw [classifyScionMappedIP_eq]
  by_cases hpre : ip.hi.toNat / 2 ^ 56 = 0xfc
  swap
  · rw [if_pos hpre]
    have hmask := mt (and_prefixMask_eq ip.hi).mp hpre
    simp [unmapFromIPv6, IPAddress.getIPv6, hmask, ScionIPv6Class.unmapped]
  rw [if_neg (not_not.mpr hpre)]
  have hunmap := unmapIsdAsn_eq ip
  by_cases hlow : ip.hi.toNat / 2 ^ 40 % 16 < 8
  · rw [if_pos hlow] at hunmap ⊢
    rw [unmapFromIPv6_of_localPrefix (by norm_num) hpre hunmap]
    by_cases hasn : ip.hi.toNat / 2 ^ 24 % 2 ^ 20 = 0
    · rw [if_pos hasn]
      rfl
    rw [if_neg hasn]
    by_cases hwild : ip.hi.toNat % 2 ^ 24 = 0 ∧ ip.lo = 0
    · rw [if_pos hwild, if_neg fun h => ip.not_hasIPv4Marker hwild.2 h.2]
      rfl
    rw [if_neg hwild]
    by_cases hv4 : ip.hi.toNat % 2 ^ 24 = 0 ∧ ip.HasIPv4Marker
    · rw [if_pos hv4, if_pos hv4]
      rfl
    · rw [if_neg hv4, if_neg hv4]
      rfl
  rw [if_neg hlow] at hunmap ⊢
  by_cases hpublic : ip.hi.toNat / 2 ^ 40 % 16 = 14
  · rw [if_pos hpublic] at hunmap ⊢
    rw [unmapFromIPv6_of_localPrefix (by norm_num) hpre hunmap]
    by_cases hwild : ip.hi.toNat % 2 ^ 8 = 0 ∧ ip.lo = 0
    · rw [if_pos hwild, if_neg fun h => ip.not_hasIPv4Marker hwild.2 h.2]
      rfl
    rw [if_neg hwild]
    by_cases hv4 : ip.hi.toNat % 2 ^ 8 = 0 ∧ ip.HasIPv4Marker
    · rw [if_pos hv4, if_pos hv4]
      rfl
    · rw [if_neg hv4, if_neg hv4]
      rfl
  · rw [if_neg hpublic] at hunmap ⊢
    simp [unmapFromIPv6, IPAddress.getIPv6, (and_prefixMask_eq ip.hi).mpr hpre, hunmap,
      ScionIPv6Class.unmapped]

section Unmapped

variable {ip : IPAddress} {a : ScIPAddress}

/-- The ISD-ASN is the one that the class encodes. -/
theorem isdAsn_of_unmapFromIPv6 (h : unmapFromIPv6 ip = .ok a) :
    a.isdAsn = ip.encodedIsdAsn (classifyScionMappedIP ip) := by
  rw [unmapFromIPv6_eq_unmapped] at h
  cases hclass : classifyScionMappedIP ip with
  | invalid => rw [hclass] at h; cases h
  | reserved => rw [hclass] at h; cases h
  | _ =>
    rw [hclass] at h
    cases h
    rfl

/-- ASN zero is a class of its own. -/
theorem asn_eq_zero_iff (h : unmapFromIPv6 ip = .ok a) :
    a.isdAsn.asn = 0 ↔ classifyScionMappedIP ip = .wildcardAsn := by
  have hpre := prefix_of_unmapFromIPv6 h
  have hasn : ∀ n isd asn : ℕ, isd < 2 ^ 12 → asn < 2 ^ 48 → n = isd * 2 ^ 48 + asn →
      ((⟨UInt64.ofNat n⟩ : IsdAsn).asn = 0 ↔ asn = 0) := by
    rintro n isd asn hisd hlt rfl
    rw [← UInt64.toNat_inj, toNat_asn, (isdAsnFields hisd hlt).2]
    rfl
  have hisd : ip.hi.toNat / 2 ^ 44 % 2 ^ 12 < 2 ^ 12 := Nat.mod_lt _ (by norm_num)
  rcases hunmap : unmapIsdAsn ip with _ | ⟨isdAsn, localPrefix⟩
  · simp [unmapFromIPv6, IPAddress.getIPv6, (and_prefixMask_eq ip.hi).mpr hpre, hunmap] at h
  have ha : a.isdAsn = isdAsn := by
    rw [unmapFromIPv6_eq ip _ _ hpre hunmap] at h
    split at h
    · cases h
      rfl
    · cases h
      rfl
  rw [unmapIsdAsn_eq] at hunmap
  rw [ha, classifyScionMappedIP_eq, if_neg (not_not.mpr hpre)]
  by_cases hlow : ip.hi.toNat / 2 ^ 40 % 16 < 8
  · rw [if_pos hlow] at hunmap ⊢
    cases hunmap
    rw [hasn _ _ _ hisd (by omega) rfl]
    constructor
    · intro hzero
      rw [if_pos hzero]
    · intro hclass
      by_contra hne
      rw [if_neg hne] at hclass
      split_ifs at hclass
  rw [if_neg hlow] at hunmap ⊢
  by_cases hpublic : ip.hi.toNat / 2 ^ 40 % 16 = 14
  · rw [if_pos hpublic] at hunmap ⊢
    cases hunmap
    rw [hasn _ _ _ hisd (by omega) rfl]
    constructor
    · intro hzero
      omega
    · intro hclass
      split_ifs at hclass
  · rw [if_neg hpublic] at hunmap
    cases hunmap

/-- Classes and results agree, but an address of ASN zero may have an IPv4 host. -/
theorem classify_unmapFromIPv6 (ip : IPAddress) (h6 : ip.is6 = true) :
    (classifyScionMappedIP ip ∈ [.bgpIPv4, .publicScionIPv4] ↔
      ∃ a, unmapFromIPv6 ip = .ok a ∧ a.host.is4 = true ∧ a.isdAsn.asn ≠ 0) ∧
    (classifyScionMappedIP ip ∈ [.invalid, .reserved] ↔ ∃ ec, unmapFromIPv6 ip = .error ec) ∧
    (classifyScionMappedIP ip ∈
        [.bgpIPv6, .bgpWildcard, .wildcardAsn, .publicScionIPv6, .publicScionWildcard] ↔
      ∃ a, unmapFromIPv6 ip = .ok a ∧ (a.host = ip ∨ a.isdAsn.asn = 0)) ∧
    ∀ a, unmapFromIPv6 ip = .ok a → a.isdAsn = ip.encodedIsdAsn (classifyScionMappedIP ip) := by
  have h4 : ip.is4 = false := by simpa [IPAddress.is6] using h6
  have hv4 : ∀ addr, IPAddress.v4 addr ≠ ip := by
    rintro addr rfl
    cases h4
  have hasn : ∀ a, (classifyScionMappedIP ip).unmapped ip = .ok a →
      (a.isdAsn.asn = 0 ↔ classifyScionMappedIP ip = .wildcardAsn) := by
    intro a ha
    exact asn_eq_zero_iff ((unmapFromIPv6_eq_unmapped ip).trans ha)
  refine ⟨?_, ?_, ?_, fun a => isdAsn_of_unmapFromIPv6⟩
  · rw [unmapFromIPv6_eq_unmapped]
    cases hclass : classifyScionMappedIP ip <;> rw [hclass] at hasn <;>
      simp_all [ScionIPv6Class.unmapped, IPAddress.is4]
  · rw [unmapFromIPv6_eq_unmapped]
    cases hclass : classifyScionMappedIP ip <;> simp [ScionIPv6Class.unmapped]
  · rw [unmapFromIPv6_eq_unmapped]
    cases hclass : classifyScionMappedIP ip <;> rw [hclass] at hasn <;>
      simp_all [ScionIPv6Class.unmapped]

/-- The address fc00:10fb:100::ffff:10.0.0.1. -/
theorem classify_unmapFromIPv6_bgpIPv4 :
    ∃ a, unmapFromIPv6 (.v6 0xfc0010fb01000000 0xffff0a000001 "") = .ok a ∧
      a.host.is4 = true ∧ a.isdAsn.asn ≠ 0 :=
  (classify_unmapFromIPv6 (.v6 0xfc0010fb01000000 0xffff0a000001 "") rfl).1.mp (by decide)

/-- The address fc00:1000::ffff:10.0.0.1 of ASN zero is not of a class with IPv4 hosts. -/
theorem not_classify_unmapFromIPv6 :
    ¬ ∀ ip : IPAddress, ip.is6 = true →
      (classifyScionMappedIP ip ∈ [.bgpIPv4, .publicScionIPv4] ↔
        ∃ a, unmapFromIPv6 ip = .ok a ∧ a.host.is4 = true) := by
  intro h
  have hclass := (h (.v6 0xfc00100000000000 0xffff0a000001 "") rfl).mpr
    ⟨⟨IsdAsn.make 1 0, .v4 0x0a000001⟩, by decide, rfl⟩
  exact absurd hclass (by decide)

end Unmapped

end Scion
