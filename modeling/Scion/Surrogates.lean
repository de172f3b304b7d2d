/-
IPv6 representations of SCION addresses in the interposer
(`interposer/src/interposer.hpp`, `interposer/src/interposer.cpp`).

An address is represented by its SCION-mapped IPv6 address if it has one, else
by a surrogate: one from the configuration, or a free address behind its hash
value in fc00::/64.

* `nextFree_eq_some_iff`, `exists_nextFree` — the loop of `makeSurrogate`;
* `agree_iff` — when the two lookup functions agree;
* `reversible_represent_iff` — one more call of `map_scion_to_ipv6`;
* `reversible_run_iff` — the runs in which every representation leads back to
  its address.
-/
import Mathlib.Data.List.AList
import Scion.Mapping

namespace Scion

/-- The IPv4-mapped form of an IPv4 address. -/
def IPAddress.map4in6 : IPAddress → IPAddress
  | v4 addr => v6 0 (((0xffff : UInt64) <<< 32) ||| addr.toUInt64) ""
  | v6 hi lo zone => v6 hi lo zone

/-- The bytes of an `in6_addr` as two words. -/
abbrev In6Addr := UInt64 × UInt64

/-- What a `sockaddr` of a sufficient length holds. -/
inductive SockAddr
  | scion (ep : ScIPEndpoint)
  | in6 (addr : In6Addr) (port : UInt16)
  | other

/-! ### The tables -/

structure AddressSurrogates where
  surrogates : AList fun _ : IPAddress => ScIPAddress
  addresses : AList fun _ : ScIPAddress => IPAddress

namespace AddressSurrogates

def empty : AddressSurrogates := ⟨∅, ∅⟩

def addOrReplace (surrogate : IPAddress) (addr : ScIPAddress) (s : AddressSurrogates) :
    AddressSurrogates :=
  ⟨s.surrogates.insert surrogate addr, s.addresses.insert addr surrogate⟩

def getAddress (s : AddressSurrogates) (surrogate : IPAddress) : Option ScIPAddress :=
  s.surrogates.lookup surrogate

/-- The constructor of `Interposer` with the pairs of the configuration files. -/
def ofOptions (opts : List (IPAddress × ScIPAddress)) : AddressSurrogates :=
  opts.foldl (fun s (surrogate, address) => s.addOrReplace surrogate address) empty

/-- The candidate `i` for an address with the hash value `h`. -/
def candidate (h : UInt64) (i : ℕ) : IPAddress := .v6 scionIpPrefix (h + UInt64.ofNat i) ""

/-- The loop of `makeSurrogate`. -/
def nextFree (s : AddressSurrogates) (h : UInt64) : ℕ → ℕ → Option IPAddress
  | 0, _ => none
  | fuel + 1, i =>
    if candidate h i ∈ s.surrogates then s.nextFree h fuel (i + 1) else some (candidate h i)

variable (hash : ScIPAddress → UInt64)

/-- The existing surrogate, or a new one. There is none if all candidates are
taken. -/
def makeSurrogate (addr : ScIPAddress) (s : AddressSurrogates) :
    Option (IPAddress × AddressSurrogates) :=
  match s.addresses.lookup addr with
  | some surrogate => some (surrogate, s)
  | none =>
    (s.nextFree (hash addr) (s.surrogates.entries.length + 1) 0).map fun surrogate =>
      (surrogate, s.addOrReplace surrogate addr)

/-- `in6_to_scion`. -/
def in6ToScion (s : AddressSurrogates) (addr : In6Addr) : Option ScIPAddress :=
  let ip := (IPAddress.v6 addr.1 addr.2 "").unmap4in6
  match s.getAddress ip with
  | some host => some host
  | none => (unmapFromIPv6 ip).toOption

/-- `sockaddr_to_scion`. -/
def sockaddrToScion (s : AddressSurrogates) : SockAddr → Option ScIPEndpoint
  | .scion ep => some ep
  | .in6 addr port =>
    let ip := IPAddress.v6 addr.1 addr.2 ""
    match s.getAddress ip with
    | some host => some ⟨host.isdAsn, ⟨host.host, port⟩⟩
    | none => (unmapFromIPv6 ip).toOption.map fun host => ⟨host.isdAsn, ⟨host.host, port⟩⟩
  | .other => none

/-- `map_scion_to_ipv6`. -/
def mapScionToIPv6 (addr : ScIPAddress) (s : AddressSurrogates) :
    Option (IPAddress × AddressSurrogates) :=
  match mapToIPv6 addr with
  | .ok mapped => some (mapped, s)
  | .error _ => (s.makeSurrogate hash addr).map fun (surrogate, s) => (surrogate.map4in6, s)

/-! ### The loop -/

/-- The first candidate that is free. -/
def IsNextFree (s : AddressSurrogates) (h : UInt64) (ip : IPAddress) : Prop :=
  ∃ i, ip = candidate h i ∧ ip ∉ s.surrogates ∧ ∀ j < i, candidate h j ∈ s.surrogates

theorem IsNextFree.unique {s : AddressSurrogates} {h : UInt64} {ip ip' : IPAddress}
    (hfree : s.IsNextFree h ip) (hfree' : s.IsNextFree h ip') : ip = ip' := by
  obtain ⟨i, rfl, hnot, hbefore⟩ := hfree
  obtain ⟨j, rfl, hnot', hbefore'⟩ := hfree'
  rcases lt_trichotomy i j with hlt | rfl | hlt
  · exact absurd (hbefore' i hlt) hnot
  · rfl
  · exact absurd (hbefore j hlt) hnot'

theorem candidate_injOn (h : UInt64) {i j : ℕ} (hi : i < 2 ^ 64) (hj : j < 2 ^ 64)
    (heq : candidate h i = candidate h j) : i = j := by
  rw [candidate, candidate, IPAddress.v6.injEq] at heq
  have hword := congrArg UInt64.toNat heq.2.1
  rw [UInt64.toNat_add, UInt64.toNat_add, UInt64.toNat_ofNat', UInt64.toNat_ofNat'] at hword
  omega

variable {hash}

theorem isNextFree_of_nextFree {s : AddressSurrogates} {h : UInt64} {ip : IPAddress} :
    ∀ {fuel i : ℕ}, s.nextFree h fuel i = some ip → (∀ j < i, candidate h j ∈ s.surrogates) →
      s.IsNextFree h ip := by
  intro fuel
  induction fuel with
  | zero =>
    intro i hnext
    cases hnext
  | succ fuel ih =>
    intro i hnext hbefore
    rw [nextFree] at hnext
    split_ifs at hnext with htaken
    · refine ih hnext fun j hj => ?_
      rcases Nat.lt_succ_iff_lt_or_eq.mp hj with hlt | rfl
      · exact hbefore j hlt
      · exact htaken
    · cases hnext
      exact ⟨i, rfl, htaken, hbefore⟩

/-- Without a result all candidates up to the fuel are taken. -/
theorem taken_of_nextFree {s : AddressSurrogates} {h : UInt64} : ∀ {fuel i : ℕ},
    s.nextFree h fuel i = none → ∀ j < fuel, candidate h (i + j) ∈ s.surrogates := by
  intro fuel
  induction fuel with
  | zero =>
    intro i _ j hj
    omega
  | succ fuel ih =>
    intro i hnext j hj
    rw [nextFree] at hnext
    split_ifs at hnext with htaken
    cases j with
    | zero => exact htaken
    | succ j =>
      have hlater := ih hnext j (by omega)
      rwa [show i + 1 + j = i + (j + 1) by omega] at hlater

/-- There is a free candidate as long as not all of them are taken. -/
theorem exists_nextFree (s : AddressSurrogates) (h : UInt64)
    (hroom : s.surrogates.entries.length < 2 ^ 64) :
    ∃ ip, s.nextFree h (s.surrogates.entries.length + 1) 0 = some ip := by
  by_contra hnone
  have htaken := taken_of_nextFree (Option.eq_none_iff_forall_ne_some.mpr
    fun ip hip => hnone ⟨ip, hip⟩)
  -- more candidates than entries
  have hmaps : ∀ i ∈ Finset.range (s.surrogates.entries.length + 1),
      candidate h i ∈ s.surrogates.keys.toFinset := by
    intro i hi
    have hmem := htaken i (Finset.mem_range.mp hi)
    rw [zero_add] at hmem
    exact List.mem_toFinset.mpr hmem
  have hinj : Set.InjOn (candidate h) (Finset.range (s.surrogates.entries.length + 1)) := by
    intro i hi j hj heq
    rw [Finset.coe_range, Set.mem_Iio] at hi hj
    exact candidate_injOn h (by omega) (by omega) heq
  have hcard := Finset.card_le_card_of_injOn _ hmaps hinj
  have hkeys : s.surrogates.keys.toFinset.card ≤ s.surrogates.entries.length :=
    (List.toFinset_card_le _).trans_eq (by rw [AList.keys, List.keys, List.length_map])
  rw [Finset.card_range] at hcard
  omega

/-- The loop ends without a result only if there is no free candidate. -/
theorem not_isNextFree_of_nextFree {s : AddressSurrogates} {h : UInt64}
    (hnone : s.nextFree h (s.surrogates.entries.length + 1) 0 = none) (ip : IPAddress) :
    ¬ s.IsNextFree h ip := by
  rintro ⟨i, rfl, hnot, -⟩
  have hmany : 2 ^ 64 ≤ s.surrogates.entries.length := by
    by_contra hroom
    obtain ⟨ip, hip⟩ := s.exists_nextFree h (not_le.mp hroom)
    rw [hnone] at hip
    cases hip
  -- the hash values wrap around
  have hwrap : candidate h i = candidate h (i % 2 ^ 64) := by
    have hword : UInt64.ofNat i = UInt64.ofNat (i % 2 ^ 64) := by
      apply UInt64.toNat_inj.mp
      rw [UInt64.toNat_ofNat', UInt64.toNat_ofNat', Nat.mod_mod]
    rw [candidate, candidate, hword]
  have htaken := taken_of_nextFree hnone (i % 2 ^ 64) (by omega)
  rw [zero_add, ← hwrap] at htaken
  exact hnot htaken

/-! ### Lookups -/

/-- An `in6_addr` as an address. -/
def ofIn6 (addr : In6Addr) : IPAddress := .v6 addr.1 addr.2 ""

theorem getAddress_addOrReplace (s : AddressSurrogates) (surrogate ip : IPAddress)
    (addr : ScIPAddress) : (s.addOrReplace surrogate addr).getAddress ip
      = if ip = surrogate then some addr else s.getAddress ip := by
  rw [getAddress, addOrReplace]
  split_ifs with h
  · rw [h, AList.lookup_insert]
  · rw [AList.lookup_insert_ne h, getAddress]

/-- IPv4 addresses are not SCION-mapped. -/
theorem unmapFromIPv6_is4in6 {ip : IPAddress} (h : ip.is4in6 = true) :
    (unmapFromIPv6 ip).toOption = none ∧ (unmapFromIPv6 ip.unmap4in6).toOption = none := by
  have hhi : ip.hi = 0 := by
    rw [IPAddress.is4in6, Bool.and_eq_true, Bool.and_eq_true, beq_iff_eq, beq_iff_eq] at h
    exact h.1.2
  have hhi' : ip.unmap4in6.hi = 0 := by
    rw [IPAddress.unmap4in6, if_pos h]
    rfl
  have herror : ∀ ip' : IPAddress, ip'.hi = 0 → (unmapFromIPv6 ip').toOption = none := by
    intro ip' hzero
    rw [unmapFromIPv6, IPAddress.getIPv6, hzero]
    rfl
  exact ⟨herror ip hhi, herror _ hhi'⟩

/-- IPv4 surrogates are known in both forms. -/
def BothForms (s : AddressSurrogates) : Prop :=
  ∀ ip : IPAddress, ip.is4in6 = true → ip.withoutZone = ip →
    s.getAddress ip.unmap4in6 = s.getAddress ip

/-- The two lookup functions agree. -/
def Agree (s : AddressSurrogates) : Prop :=
  ∀ addr port, s.sockaddrToScion (.in6 addr port)
    = (s.in6ToScion addr).map fun host => ⟨host.isdAsn, ⟨host.host, port⟩⟩

theorem sockaddrToScion_in6 (s : AddressSurrogates) (addr : In6Addr) (port : UInt16) :
    s.sockaddrToScion (.in6 addr port)
      = ((s.getAddress (ofIn6 addr)).or (unmapFromIPv6 (ofIn6 addr)).toOption).map
        fun host => ⟨host.isdAsn, ⟨host.host, port⟩⟩ := by
  rw [sockaddrToScion, ofIn6]
  cases s.getAddress (.v6 addr.1 addr.2 "") <;> simp

theorem in6ToScion_eq (s : AddressSurrogates) (addr : In6Addr) :
    s.in6ToScion addr = (s.getAddress (ofIn6 addr).unmap4in6).or
      (unmapFromIPv6 (ofIn6 addr).unmap4in6).toOption := by
  rw [in6ToScion, ofIn6]
  cases s.getAddress (IPAddress.v6 addr.1 addr.2 "").unmap4in6 <;> simp

/-- The lookup functions agree exactly if IPv4 surrogates are known in both forms:
one of them looks up the IPv4 form, the other one the IPv4-mapped form. -/
theorem agree_iff {s : AddressSurrogates} : s.Agree ↔ s.BothForms := by
  have hinj : ∀ port : UInt16, Function.Injective
      fun host : ScIPAddress => ScIPEndpoint.mk host.isdAsn ⟨host.host, port⟩ := by
    rintro port ⟨ia, host⟩ ⟨ia', host'⟩ heq
    simpa using heq
  constructor
  · intro hagree ip h4in6 hzone
    have hsame := hagree ip.getIPv6 0
    have hip : ofIn6 ip.getIPv6 = ip := by
      cases ip with
      | v4 addr => cases h4in6
      | v6 hi lo zone => exact hzone
    obtain ⟨hnone, hnone'⟩ := unmapFromIPv6_is4in6 h4in6
    rw [sockaddrToScion_in6, in6ToScion_eq, hip, hnone, hnone', Option.or_none, Option.or_none]
      at hsame
    exact (Option.map_injective (hinj 0) hsame).symm
  · intro hforms addr port
    rw [sockaddrToScion_in6, in6ToScion_eq]
    by_cases h4in6 : (ofIn6 addr).is4in6 = true
    · obtain ⟨hnone, hnone'⟩ := unmapFromIPv6_is4in6 h4in6
      rw [hforms _ h4in6 rfl, hnone, hnone']
    · rw [IPAddress.unmap4in6, if_neg h4in6]

/-- Both lookup functions lead from the representation back to the address, up to
the replacement of an IPv4-mapped host. -/
def Represents (s : AddressSurrogates) (a : ScIPAddress) (ip : IPAddress) : Prop :=
  (∃ b, s.in6ToScion ip.getIPv6 = some b ∧ b.normalized = a.normalized) ∧
    ∀ port, ∃ b : ScIPAddress,
      s.sockaddrToScion (.in6 ip.getIPv6 port) = some ⟨b.isdAsn, ⟨b.host, port⟩⟩ ∧
        b.normalized = a.normalized

theorem represents_iff {s : AddressSurrogates} (hforms : s.BothForms) {a : ScIPAddress}
    {ip : IPAddress} : s.Represents a ip ↔
      ∃ b, (s.getAddress (ofIn6 ip.getIPv6)).or (unmapFromIPv6 (ofIn6 ip.getIPv6)).toOption = some b ∧
        b.normalized = a.normalized := by
  have hin6 : s.in6ToScion ip.getIPv6
      = (s.getAddress (ofIn6 ip.getIPv6)).or (unmapFromIPv6 (ofIn6 ip.getIPv6)).toOption := by
    have hzero := sockaddrToScion_in6 s ip.getIPv6 0
    rw [agree_iff.mpr hforms] at hzero
    refine Option.map_injective ?_ hzero
    rintro ⟨ia, host⟩ ⟨ia', host'⟩ heq
    simpa using heq
  rw [Represents, hin6]
  constructor
  · exact And.left
  · rintro ⟨b, hfound, hsame⟩
    refine ⟨⟨b, hfound, hsame⟩, fun port => ⟨b, ?_, hsame⟩⟩
    rw [sockaddrToScion_in6, hfound]
    rfl

end AddressSurrogates

/-! ### SCION-mapped addresses -/

theorem IPAddress.unmap4in6_unmap4in6 (ip : IPAddress) : ip.unmap4in6.unmap4in6 = ip.unmap4in6 := by
  by_cases h : ip.is4in6 = true
  · obtain ⟨addr, haddr⟩ := exists_unmap4in6 h
    rw [haddr]
    rfl
  · have hsame : ip.unmap4in6 = ip := if_neg h
    rw [hsame, hsame]

theorem ScIPAddress.normalized_normalized (a : ScIPAddress) : a.normalized.normalized = a.normalized :=
  congrArg (ScIPAddress.mk a.isdAsn) a.host.unmap4in6_unmap4in6

/-- IPv4 hosts are mapped alike in both forms. -/
theorem mapToIPv6_normalized (a : ScIPAddress) : mapToIPv6 a.normalized = mapToIPv6 a := by
  by_cases h : a.host.is4in6 = true
  · have h6 : a.host.is6 = true := by
      rw [IPAddress.is4in6, Bool.and_eq_true, Bool.and_eq_true] at h
      exact h.1.1
    obtain ⟨addr, haddr⟩ := exists_unmap4in6 h
    have h4 : (IPAddress.v4 addr).is6 = false := rfl
    simp only [mapToIPv6, ScIPAddress.normalized, haddr, h4, h6, h, if_true, Bool.false_eq_true,
      if_false]
  · rw [ScIPAddress.normalized, IPAddress.unmap4in6, if_neg h]

theorem mapToIPv6_congr {a b : ScIPAddress} (h : a.normalized = b.normalized) :
    mapToIPv6 a = mapToIPv6 b := by
  rw [← mapToIPv6_normalized a, h, mapToIPv6_normalized]

/-- A mapped address has the SCION prefix and, if the host has none, no zone. -/
theorem mapped_of_mapToIPv6 {a : ScIPAddress} {ip : IPAddress} (hzone : a.host.withoutZone = a.host)
    (h : mapToIPv6 a = .ok ip) : ip.hi.toNat / 2 ^ 56 = 0xfc ∧ ip = .v6 ip.hi ip.lo "" := by
  rcases mapToIPv6_eq_ok h with ⟨addr, -, -, hmap⟩ | ⟨hscion, -, -, rfl⟩
  · have hunmap := unmapFromIPv6_mapIPv4 hmap
    rw [mapIPv4_eq] at hmap
    split_ifs at hmap <;> cases hmap <;> exact ⟨prefix_of_unmapFromIPv6 hunmap, rfl⟩
  · have h6 : a.host.is6 = true := by
      rw [IPAddress.isScion, Bool.and_eq_true] at hscion
      exact hscion.1
    refine ⟨(isScion_eq _ h6).mp hscion, ?_⟩
    cases hhost : a.host with
    | v4 addr =>
      rw [hhost] at h6
      cases h6
    | v6 hi lo zone =>
      rw [hhost] at hzone
      exact hzone.symm

/-- What is taken apart has no IPv4-mapped host. -/
theorem normalized_of_unmapFromIPv6 {ip : IPAddress} {b : ScIPAddress}
    (h : unmapFromIPv6 ip = .ok b) : b.normalized = b := by
  have hpre := prefix_of_unmapFromIPv6 h
  rcases hunmap : unmapIsdAsn ip with _ | ⟨isdAsn, localPrefix⟩
  · simp [unmapFromIPv6, IPAddress.getIPv6, (and_prefixMask_eq ip.hi).mpr hpre, hunmap] at h
  · rw [unmapFromIPv6_eq ip isdAsn localPrefix hpre hunmap] at h
    split_ifs at h <;> cases h
    · rfl
    · rw [ScIPAddress.normalized, IPAddress.unmap4in6, is4in6_eq_false_of_mapped hpre]
      rfl

/-- The mapped address leads back to the address unless its host is the mapped form
of an IPv4 host. -/
theorem unmapFromIPv6_mapped_iff {a : ScIPAddress} {ip : IPAddress} (h : mapToIPv6 a = .ok ip) :
    (∃ b, (unmapFromIPv6 ip).toOption = some b ∧ b.normalized = a.normalized) ↔
      a.isOwnMappedIPv4 = false := by
  rw [← unmapFromIPv6_mapToIPv6_iff]
  constructor
  · rintro ⟨b, hb, hsame⟩ ip' hip'
    rw [h, Except.ok.injEq] at hip'
    subst hip'
    cases hunmap : unmapFromIPv6 ip with
    | error e =>
      rw [hunmap] at hb
      cases hb
    | ok c =>
      rw [hunmap] at hb
      cases hb
      rw [← hsame, normalized_of_unmapFromIPv6 hunmap]
  · intro hback
    refine ⟨a.normalized, ?_, a.normalized_normalized⟩
    rw [hback ip h]
    rfl

/-! ### Runs -/

/-- The tables of an interposer with the calls of `map_scion_to_ipv6` that returned. -/
structure Representations where
  tables : AddressSurrogates
  returned : List (ScIPAddress × IPAddress)

namespace Representations

open AddressSurrogates

/-- All representations lead back to their addresses, also from a socket address;
no two addresses share one, and the lookup functions agree on all others. -/
structure Reversible (st : Representations) : Prop where
  represents : ∀ a ip, (a, ip) ∈ st.returned → st.tables.Represents a ip
  injective : ∀ a b ip, (a, ip) ∈ st.returned → (b, ip) ∈ st.returned → a.normalized = b.normalized
  agree : st.tables.Agree

variable (hash : ScIPAddress → UInt64)

/-- One more call. -/
def represent (st : Representations) (a : ScIPAddress) : Option Representations :=
  (st.tables.mapScionToIPv6 hash a).map fun (ip, s) => ⟨s, (a, ip) :: st.returned⟩

/-- The configuration and calls of `map_scion_to_ipv6`. -/
def run (opts : List (IPAddress × ScIPAddress)) (calls : List ScIPAddress) : Option Representations :=
  calls.foldlM (represent hash) ⟨ofOptions opts, []⟩

/-- The call does not make two addresses share a representation. A mapped address is
not a surrogate of another address, nor is the host one of these; the surrogate of
an address is bound to it in the form in which it is looked up; and the next free
candidate is not the mapped address of an earlier call. -/
def Harmless (st : Representations) (a : ScIPAddress) : Prop :=
  match mapToIPv6 a with
  | .ok ip =>
    match st.tables.getAddress ip with
    | some b => b.normalized = a.normalized
    | none => a.isOwnMappedIPv4 = false
  | .error _ =>
    match st.tables.addresses.lookup a with
    | some surrogate => ∃ b, st.tables.getAddress surrogate.map4in6.withoutZone = some b ∧
        b.normalized = a.normalized
    | none => ∀ c ∈ st.returned.map Prod.fst, ∀ ip, mapToIPv6 c = .ok ip →
        ¬ st.tables.IsNextFree (hash a) ip

/-- Addresses with a mapped address are represented by it. -/
def Mapped (st : Representations) : Prop :=
  ∀ a ip, (a, ip) ∈ st.returned → ∀ mapped, mapToIPv6 a = .ok mapped → ip = mapped

variable {hash}

theorem represent_cases {st st' : Representations} {a : ScIPAddress}
    (h : st.represent hash a = some st') :
    (∃ ip, mapToIPv6 a = .ok ip ∧ st' = ⟨st.tables, (a, ip) :: st.returned⟩) ∨
    (∃ e surrogate, mapToIPv6 a = .error e ∧ st.tables.addresses.lookup a = some surrogate ∧
      st' = ⟨st.tables, (a, surrogate.map4in6) :: st.returned⟩) ∨
    (∃ e i, mapToIPv6 a = .error e ∧ st.tables.addresses.lookup a = none ∧
      st.tables.IsNextFree (hash a) (candidate (hash a) i) ∧
      st' = ⟨st.tables.addOrReplace (candidate (hash a) i) a,
        (a, candidate (hash a) i) :: st.returned⟩) := by
  rw [represent, mapScionToIPv6] at h
  cases hmap : mapToIPv6 a with
  | ok ip =>
    rw [hmap] at h
    cases h
    exact .inl ⟨ip, rfl, rfl⟩
  | error e =>
    rw [hmap, makeSurrogate] at h
    cases hknown : st.tables.addresses.lookup a with
    | some surrogate =>
      rw [hknown] at h
      cases h
      exact .inr (.inl ⟨e, surrogate, rfl, rfl, rfl⟩)
    | none =>
      simp only [hknown, Option.map_map, Option.map_eq_some_iff] at h
      obtain ⟨ip, hnext, rfl⟩ := h
      obtain ⟨i, rfl, hfree⟩ :=
        isNextFree_of_nextFree hnext fun j hj => absurd hj (Nat.not_lt_zero j)
      exact .inr (.inr ⟨e, i, rfl, rfl, ⟨i, rfl, hfree⟩, rfl⟩)

/-- No address is shared if all of them lead back. -/
theorem reversible_iff {st : Representations} : st.Reversible ↔
    (∀ a ip, (a, ip) ∈ st.returned → st.tables.Represents a ip) ∧ st.tables.Agree := by
  constructor
  · intro h
    exact ⟨h.represents, h.agree⟩
  · rintro ⟨hrep, hagree⟩
    refine ⟨hrep, ?_, hagree⟩
    intro a b ip ha hb
    obtain ⟨⟨c, hc, hca⟩, -⟩ := hrep a ip ha
    obtain ⟨⟨d, hd, hdb⟩, -⟩ := hrep b ip hb
    rw [hc, Option.some.injEq] at hd
    rw [← hca, hd, hdb]

/-- A call that leaves the tables as they are. -/
theorem reversible_cons_iff {st : Representations} (hrev : st.Reversible) (a : ScIPAddress)
    (ip : IPAddress) :
    Reversible ⟨st.tables, (a, ip) :: st.returned⟩ ↔ st.tables.Represents a ip := by
  rw [reversible_iff]
  constructor
  · rintro ⟨hrep, -⟩
    exact hrep a ip List.mem_cons_self
  · intro hnew
    refine ⟨fun b ip' hmem => ?_, hrev.agree⟩
    rcases List.mem_cons.mp hmem with heq | hold
    · cases heq
      exact hnew
    · exact hrev.represents b ip' hold

/-- A mapped address is looked up before it is taken apart. -/
theorem represents_mapped_iff {s : AddressSurrogates} (hforms : s.BothForms) {a : ScIPAddress}
    {ip : IPAddress} (hzone : a.host.withoutZone = a.host) (hmap : mapToIPv6 a = .ok ip) :
    s.Represents a ip ↔ match s.getAddress ip with
      | some b => b.normalized = a.normalized
      | none => a.isOwnMappedIPv4 = false := by
  have hip : ofIn6 ip.getIPv6 = ip := (mapped_of_mapToIPv6 hzone hmap).2.symm
  rw [represents_iff hforms, hip]
  cases s.getAddress ip with
  | some b => simp
  | none =>
    rw [Option.none_or]
    exact unmapFromIPv6_mapped_iff hmap

/-- A surrogate is found in the form of an `in6_addr`. -/
theorem represents_surrogate_iff {s : AddressSurrogates} (hforms : s.BothForms) {a : ScIPAddress}
    {e : ErrorCode} (surrogate : IPAddress) (hmap : mapToIPv6 a = .error e) :
    s.Represents a surrogate.map4in6 ↔
      ∃ b, s.getAddress surrogate.map4in6.withoutZone = some b ∧ b.normalized = a.normalized := by
  have hip : ofIn6 surrogate.map4in6.getIPv6 = surrogate.map4in6.withoutZone := by
    cases surrogate <;> rfl
  rw [represents_iff hforms, hip]
  cases s.getAddress surrogate.map4in6.withoutZone with
  | some b => rw [Option.some_or]
  | none =>
    rw [Option.none_or]
    refine iff_of_false ?_ (by simp)
    rintro ⟨b, hunmap, hsame⟩
    cases hback : unmapFromIPv6 surrogate.map4in6.withoutZone with
    | error e' =>
      rw [hback] at hunmap
      cases hunmap
    | ok c =>
      rw [hback] at hunmap
      cases hunmap
      -- what the surrogate is taken apart into would be mapped, and the address with it
      have hmapped := mapToIPv6_unmapFromIPv6 (by rw [← hip]; rfl) (by rw [← hip]; rfl) hback
      rw [mapToIPv6_congr hsame, hmap] at hmapped
      cases hmapped

/-- A new surrogate. -/
theorem reversible_new_iff {st : Representations} (hrev : st.Reversible) (hmapped : st.Mapped)
    {a : ScIPAddress} {e : ErrorCode} (hmap : mapToIPv6 a = .error e) {h : UInt64} {i : ℕ}
    (hfree : candidate h i ∉ st.tables.surrogates) :
    Reversible ⟨st.tables.addOrReplace (candidate h i) a, (a, candidate h i) :: st.returned⟩ ↔
      ∀ c ∈ st.returned.map Prod.fst, mapToIPv6 c ≠ .ok (candidate h i) := by
  have hforms := agree_iff.mp hrev.agree
  have hnone : st.tables.getAddress (candidate h i) = none := AList.lookup_eq_none.mpr hfree
  have hforms' : (st.tables.addOrReplace (candidate h i) a).BothForms := by
    intro ip h4in6 hzone
    obtain ⟨addr, haddr⟩ := exists_unmap4in6 h4in6
    rw [getAddress_addOrReplace, getAddress_addOrReplace, if_neg, if_neg, hforms ip h4in6 hzone]
    · rintro rfl
      cases h4in6
    · rw [haddr]
      simp [candidate]
  have hnew : (st.tables.addOrReplace (candidate h i) a).Represents a (candidate h i) := by
    refine (represents_iff hforms').mpr ⟨a, ?_, rfl⟩
    show (AddressSurrogates.getAddress _ (candidate h i)).or _ = some a
    rw [getAddress_addOrReplace, if_pos rfl, Option.some_or]
  rw [reversible_iff]
  constructor
  · rintro ⟨hrep, -⟩ c hc hcmap
    obtain ⟨⟨c, ip⟩, hmem, rfl⟩ := List.mem_map.mp hc
    have hip := hmapped c ip hmem _ hcmap
    subst hip
    -- the address of the earlier call leads to the new one
    obtain ⟨⟨b, hb, hbc⟩, -⟩ := hrep c (candidate h i) (List.mem_cons_of_mem _ hmem)
    obtain ⟨⟨b', hb', hba⟩, -⟩ := hnew
    rw [hb, Option.some.injEq] at hb'
    rw [hb', hba] at hbc
    rw [← mapToIPv6_congr hbc, hmap] at hcmap
    cases hcmap
  · intro hall
    refine ⟨fun c ip hmem => ?_, agree_iff.mpr hforms'⟩
    rcases List.mem_cons.mp hmem with heq | hold
    · cases heq
      exact hnew
    · obtain ⟨b, hb, hbc⟩ := (represents_iff hforms).mp (hrev.represents c ip hold)
      refine (represents_iff hforms').mpr ⟨b, ?_, hbc⟩
      rw [getAddress_addOrReplace, if_neg, hb]
      intro hsame
      rw [hsame, hnone, Option.none_or] at hb
      cases hback : unmapFromIPv6 (candidate h i) with
      | error e' =>
        rw [hback] at hb
        cases hb
      | ok b' =>
        rw [hback] at hb
        cases hb
        refine hall c (List.mem_map_of_mem hold) ?_
        rw [← mapToIPv6_congr hbc]
        exact mapToIPv6_unmapFromIPv6 rfl rfl hback

/-- One more call keeps all representations reversible exactly if it is harmless. -/
theorem reversible_represent_iff {st st' : Representations} {a : ScIPAddress}
    (hzone : a.host.withoutZone = a.host) (hmapped : st.Mapped) (hrev : st.Reversible)
    (h : st.represent hash a = some st') : st'.Reversible ↔ st.Harmless hash a := by
  have hforms := agree_iff.mp hrev.agree
  rw [Harmless]
  rcases represent_cases h with ⟨ip, hmap, rfl⟩ | ⟨e, surrogate, hmap, hknown, rfl⟩ |
      ⟨e, i, hmap, hknown, hfree, rfl⟩
  · rw [hmap, reversible_cons_iff hrev, represents_mapped_iff hforms hzone hmap]
  · rw [hmap, reversible_cons_iff hrev, represents_surrogate_iff hforms surrogate hmap]
    simp only [hknown]
  · have hnot : candidate (hash a) i ∉ st.tables.surrogates := by
      obtain ⟨j, hj, hnot, -⟩ := hfree
      exact hnot
    rw [hmap, reversible_new_iff hrev hmapped hmap hnot]
    simp only [hknown]
    constructor
    · intro hall c hc ip hcmap hnext
      rw [hnext.unique hfree] at hcmap
      exact hall c hc hcmap
    · intro hall c hc hcmap
      exact hall c hc _ hcmap hfree

theorem mapped_represent {st st' : Representations} {a : ScIPAddress} (hmapped : st.Mapped)
    (h : st.represent hash a = some st') : st'.Mapped := by
  have hcons : ∀ ip s, (∀ mapped, mapToIPv6 a = .ok mapped → ip = mapped) →
      Mapped ⟨s, (a, ip) :: st.returned⟩ := by
    intro ip s hnew b ip' hmem
    rcases List.mem_cons.mp hmem with heq | hold
    · cases heq
      exact hnew
    · exact hmapped b ip' hold
  rcases represent_cases h with ⟨ip, hmap, rfl⟩ | ⟨e, surrogate, hmap, -, rfl⟩ |
      ⟨e, i, hmap, -, -, rfl⟩
  · exact hcons _ _ fun mapped heq => Except.ok.inj (hmap.symm.trans heq)
  · exact hcons _ _ fun mapped heq => by rw [hmap] at heq; cases heq
  · exact hcons _ _ fun mapped heq => by rw [hmap] at heq; cases heq

theorem run_append (opts : List (IPAddress × ScIPAddress)) (calls : List ScIPAddress)
    (a : ScIPAddress) :
    run hash opts (calls ++ [a]) = (run hash opts calls).bind (represent hash · a) := by
  rw [run, List.foldlM_append]
  rcases hrun : List.foldlM (represent hash) (⟨ofOptions opts, []⟩ : Representations) calls with
    _ | st
  · rw [run, hrun]
    rfl
  · rw [run, hrun]
    simp [List.foldlM]

theorem mapped_run {opts : List (IPAddress × ScIPAddress)} {calls : List ScIPAddress}
    {st : Representations} (h : run hash opts calls = some st) : st.Mapped := by
  induction calls using List.reverseRecOn generalizing st with
  | nil =>
    cases h
    intro a ip hmem
    cases hmem
  | append_singleton calls a ih =>
    rw [run_append] at h
    obtain ⟨st', hst', hstep⟩ := Option.bind_eq_some_iff.mp h
    exact mapped_represent (ih hst') hstep

/-- A call that does not return is harmless. -/
theorem harmless_of_represent {st : Representations} {a : ScIPAddress}
    (h : st.represent hash a = none) : st.Harmless hash a := by
  rw [represent, Option.map_eq_none_iff, mapScionToIPv6] at h
  rw [Harmless]
  cases hmap : mapToIPv6 a with
  | ok ip =>
    rw [hmap] at h
    cases h
  | error e =>
    simp only [hmap, Option.map_eq_none_iff, makeSurrogate] at h
    cases hknown : st.tables.addresses.lookup a with
    | some surrogate =>
      rw [hknown] at h
      cases h
    | none =>
      simp only [hknown, Option.map_eq_none_iff] at h
      intro c _ ip _
      exact not_isNextFree_of_nextFree h ip

/-- The representations lead back to their addresses at all times exactly if the
configuration has IPv4 surrogates in both forms and each call is harmless. -/
theorem reversible_run_iff (hash : ScIPAddress → UInt64) (opts : List (IPAddress × ScIPAddress))
    (calls : List ScIPAddress) (hzone : ∀ a ∈ calls, a.host.withoutZone = a.host) :
    (∀ before, before <+: calls → ∀ st, run hash opts before = some st → st.Reversible) ↔
      (ofOptions opts).BothForms ∧ ∀ before a, before ++ [a] <+: calls →
        ∀ st, run hash opts before = some st → st.Harmless hash a := by
  constructor
  · intro hall
    refine ⟨agree_iff.mp (hall [] List.nil_prefix _ rfl).agree, fun before a hpre st hst => ?_⟩
    have hmem : a ∈ calls := hpre.subset (by simp)
    cases hstep : st.represent hash a with
    | none => exact harmless_of_represent hstep
    | some st' =>
      have hrun : run hash opts (before ++ [a]) = some st' := by rw [run_append, hst, ← hstep]; rfl
      have hrev := hall before ((List.prefix_append _ _).trans hpre) st hst
      exact (reversible_represent_iff (hzone a hmem) (mapped_run hst) hrev hstep).mp
        (hall _ hpre st' hrun)
  · rintro ⟨hforms, hharmless⟩ before
    induction before using List.reverseRecOn with
    | nil =>
      intro _ st hst
      cases hst
      exact reversible_iff.mpr ⟨fun a ip hmem => (List.not_mem_nil hmem).elim, agree_iff.mpr hforms⟩
    | append_singleton before a ih =>
      intro hpre st' hst'
      have hmem : a ∈ calls := hpre.subset (by simp)
      rw [run_append] at hst'
      obtain ⟨st, hst, hstep⟩ := Option.bind_eq_some_iff.mp hst'
      have hrev := ih ((List.prefix_append _ _).trans hpre) st hst
      exact (reversible_represent_iff (hzone a hmem) (mapped_run hst) hrev hstep).mpr
        (hharmless before a hpre st hst)

/-- A host address that has no mapped address. -/
def loopbackAddress : ScIPAddress := ⟨IsdAsn.make 1 64496, .v6 0 1 ""⟩

theorem reversible_run_iff_loopback :
    (∀ before, before <+: [loopbackAddress] → ∀ st,
        run (fun _ => 7) [(.v6 0xfc00000000000000 0 "", ⟨⟨0⟩, .v4 0x7f000001⟩)] before = some st →
        st.Reversible) ↔
      (ofOptions [(.v6 0xfc00000000000000 0 "", ⟨⟨0⟩, .v4 0x7f000001⟩)]).BothForms ∧
        ∀ before a, before ++ [a] <+: [loopbackAddress] → ∀ st,
          run (fun _ => 7) [(.v6 0xfc00000000000000 0 "", ⟨⟨0⟩, .v4 0x7f000001⟩)] before = some st →
          st.Harmless (fun _ => 7) a :=
  reversible_run_iff _ _ _ (by decide)

/-- A surrogate that the configuration gives to a second address stays the
representation of the first one. -/
theorem not_forall_reversible_run :
    ¬ ∀ (hash : ScIPAddress → UInt64) (opts : List (IPAddress × ScIPAddress))
      (calls : List ScIPAddress), (∀ a ∈ calls, a.host.withoutZone = a.host) →
      ∀ before, before <+: calls → ∀ st, run hash opts before = some st → st.Reversible := by
  intro h
  let other : ScIPAddress := ⟨IsdAsn.make 1 64496, .v6 0 2 ""⟩
  let surrogate : IPAddress := .v6 0xfc00000000000000 0x1000 ""
  let opts := [(surrogate, loopbackAddress), (surrogate, other)]
  have hrun : run (fun _ => 0) opts [loopbackAddress]
      = some ⟨ofOptions opts, [(loopbackAddress, surrogate)]⟩ := rfl
  have hrev := h (fun _ => 0) opts [loopbackAddress] (by decide) _ List.prefix_rfl _ hrun
  obtain ⟨⟨b, hfound, hsame⟩, -⟩ :=
    hrev.represents loopbackAddress surrogate (List.mem_singleton.mpr rfl)
  have hother : (ofOptions opts).in6ToScion surrogate.getIPv6 = some other := by decide
  rw [Option.some.inj (hfound.symm.trans hother)] at hsame
  exact absurd hsame (by decide)

end Representations

end Scion
