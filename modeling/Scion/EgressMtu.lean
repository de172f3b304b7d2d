/-
The MTU in answers to packets that are too big (`scitra/translator.hpp`).

A packet that does not fit the path is answered with the largest size that would. The size is
computed in 64 bits, where it wraps around if header and path alone are larger than the MTU.

* `innerMtu` — the MTU of the path for IPv6 packets, as an integer;
* `toNat_ipMtu` — what is computed is that integer unless it is negative;
* `mtuAdvertised_iff` — when the answer is right, and a packet of that size fits.
-/
import Scion.Egress

namespace Scion

open BigEndian PacketBuffer

/-- An ICMPv6 message to the sender that its packets may have `mtu` bytes. -/
structure EgressResult.IsTooBig (result : EgressResult) (mtu : ℕ) : Prop where
  verdict : result.verdict = .returned
  l4Valid : result.pkt.l4Valid = .icmp
  type : result.pkt.icmp.type = ICMPv6Type.packetTooBig
  mtu : result.pkt.icmp.param1.toNat * 65536 + result.pkt.icmp.param2.toNat = mtu

namespace Routed

/-- The MTU of the path for IPv6 packets. -/
def innerMtu (r : Routed) : ℤ :=
  r.mtu.toNat + 40 - ((12 + r.dst.size + (8 + r.srcHost.size) : ℕ) : ℤ) - r.path.path.length

/-- The packet gets a SCION header and is then rejected. -/
def RejectedTooBig (r : Routed) : Prop :=
  r.path.path.length ≤ RawPathContents.maxSize ∧ r.mtu.toNat < r.size

instance (r : Routed) : Decidable r.RejectedTooBig := inferInstanceAs (Decidable (_ ∧ _))

variable {hash : IPAddress → UInt64} {hashSc : ScIPAddress → UInt64}
  {murmur32 : List UInt8 → UInt32 → UInt32} {r : Routed} {built : PacketBuffer}
  {result : EgressResult}

/-! ### The computed size -/

theorem size_dst_le (a : ScIPAddress) : a.size ≤ 24 := by
  rw [ScIPAddress.size, IsdAsn.size, IPAddress.size]
  split_ifs <;> decide

theorem size_host_le (ip : IPAddress) : ip.size ≤ 16 := by
  rw [IPAddress.size]
  split_ifs <;> decide

/-- Header and path are not as large as 2000 bytes. -/
theorem le_innerMtu (hlen : r.path.path.length ≤ RawPathContents.maxSize) : -2000 ≤ r.innerMtu := by
  have hdst := size_dst_le r.dst
  have hsrc := size_host_le r.srcHost
  rw [RawPathContents.maxSize] at hlen
  rw [innerMtu]
  omega

/-- The difference wraps around below zero. -/
theorem toNat_ipMtu (hbuilt : Built hashSc murmur32 r built) :
    ((built.ipMtu r.path r.mtu).toNat : ℤ)
      = if 0 ≤ r.innerMtu then r.innerMtu else 2 ^ 64 + r.innerMtu := by
  have hpath := hbuilt.length_le
  have hdst := size_dst_le r.dst
  have hsrc := size_host_le r.srcHost
  have hmtu := r.mtu.toNat_lt
  have hsci : built.sci.size = 12 + r.dst.size + (8 + r.srcHost.size) := by
    rw [hbuilt.eq]
    rfl
  have hipv6 : built.ipv6.size = 40 := rfl
  rw [RawPathContents.maxSize] at hpath
  rw [ipMtu, UInt64.toNat_sub, UInt64.toNat_sub, UInt64.toNat_add, UInt64.toNat_ofNat',
    UInt64.toNat_ofNat', UInt64.toNat_ofNat', UInt16.toNat_toUInt64, hsci, hipv6, innerMtu]
  split_ifs with hneg
  · omega
  · omega

/-- What becomes of a packet that is rejected. -/
theorem translate_of_rejected (hbig : r.RejectedTooBig) :
    ∃ built, Built hashSc murmur32 r built ∧
      r.translate hash hashSc murmur32 = .ok (built.rejectTooBig r.path r.mtu r.nextHop) := by
  obtain ⟨hlen, hsize⟩ := hbig
  cases hbuild : r.buildScion hashSc murmur32 with
  | error e =>
    rw [buildScion, RawPathContents.assign, if_neg (Nat.not_lt.mpr hlen)] at hbuild
    cases hbuild
  | ok built =>
    have hbuilt := built_of_buildScion hbuild
    refine ⟨built, hbuilt, ?_⟩
    rw [translate, hbuild]
    dsimp only
    rw [if_pos (show built.scionSize r.path > r.mtu.toNat by
      rw [scionSize_of_built hbuilt]; exact hsize)]

theorem toNat_min (a b : UInt64) : (min a b).toNat = min a.toNat b.toNat := by
  rw [UInt64.min_def]
  split_ifs with h
  · exact (min_eq_left (UInt64.le_iff_toNat_le.mp h)).symm
  · exact (min_eq_right (Nat.le_of_not_le fun hle => h (UInt64.le_iff_toNat_le.mpr hle))).symm

/-- It is answered unless the computed size is small. -/
theorem rejectTooBig_spec (r : Routed) (built : PacketBuffer) (nextHop : IPEndpoint) :
    (built.ipMtu r.path r.mtu).toNat < 1280 ∧
        (built.rejectTooBig r.path r.mtu nextHop).verdict = .drop ∨
      1280 ≤ (built.ipMtu r.path r.mtu).toNat ∧
        (built.rejectTooBig r.path r.mtu nextHop).IsTooBig
          (min (built.ipMtu r.path r.mtu).toNat 65535) := by
  have hmin : (UInt64.ofNat ipv6MinLinkMtu).toNat = 1280 := rfl
  rw [rejectTooBig]
  split_ifs with hge
  · rw [ge_iff_le, UInt64.le_iff_toNat_le, hmin] at hge
    refine .inr ⟨hge, rfl, rfl, rfl, ?_⟩
    show 0 * 65536 + (min (built.ipMtu r.path r.mtu) 65535).toUInt16.toNat = _
    rw [UInt64.toNat_toUInt16, toNat_min, show (65535 : UInt64).toNat = 65535 from rfl]
    omega
  · rw [ge_iff_le, UInt64.le_iff_toNat_le, hmin] at hge
    exact .inl ⟨Nat.not_le.mp hge, rfl⟩

end Routed

/-! ### The answer -/

section Answer

variable {hash : IPAddress → UInt64} {hashSc : ScIPAddress → UInt64}
  {murmur32 : List UInt8 → UInt32 → UInt32} {sourcePrefix : IPAddress} {prefixLen : UInt32}
  {getPath getPath' : GetPath} {pkt pkt' : PacketBuffer} {r r' : Routed} {result : EgressResult}

/-- Another packet of the flow, which gets the same path and is as long as the path allows. -/
structure FollowUp (sourcePrefix : IPAddress) (prefixLen : UInt32) (getPath : GetPath)
    (pkt : PacketBuffer) (r : Routed) (pkt' : PacketBuffer) (r' : Routed) : Prop where
  placed : pkt'.Placed
  route : pkt'.route sourcePrefix prefixLen getPath = .ok r'
  src : pkt'.ipv6.src = pkt.ipv6.src
  dst : pkt'.ipv6.dst = pkt.ipv6.dst
  sport : pkt'.l4SPort 0 = pkt.l4SPort 0
  dport : pkt'.l4DPort 0 = pkt.l4DPort 0
  l4Valid : pkt'.l4Valid = pkt.l4Valid
  path : r'.path = r.path
  mtu : r'.mtu = r.mtu
  size : (pkt'.packet.size : ℤ) = min r.innerMtu 65535
  header : 40 ≤ pkt'.endOfHeader - pkt'.packet.offset

/-- A packet that is too big is answered with the MTU, and another of that size is not. -/
structure MtuAdvertised (sourcePrefix : IPAddress) (prefixLen : UInt32) (getPath : GetPath)
    (pkt : PacketBuffer) (r : Routed) (result : EgressResult) (pkt' : PacketBuffer)
    (r' : Routed) : Prop where
  answered : (∃ mtu, result.IsTooBig mtu) ↔ 1280 ≤ r.innerMtu
  value : ∀ mtu, result.IsTooBig mtu → (mtu : ℤ) = min r.innerMtu 65535
  followUp : 1280 ≤ r.innerMtu → FollowUp sourcePrefix prefixLen getPath pkt r pkt' r' →
    ¬r'.RejectedTooBig
  dropped : r.innerMtu < 1280 → result.verdict = .drop

/-- Another packet of the flow fits if its layer 4 header is as short as it was received. -/
theorem FollowUp.rejectedTooBig_iff (hroute : pkt.route sourcePrefix prefixLen getPath = .ok r)
    (hlen : r.path.path.length ≤ RawPathContents.maxSize)
    (h : FollowUp sourcePrefix prefixLen getPath' pkt r pkt' r') :
    ¬r'.RejectedTooBig ↔ (pkt'.l4Size : ℤ) + 40 + min r.innerMtu 65535
      ≤ ((pkt'.endOfHeader - pkt'.packet.offset : ℕ) : ℤ) + r.innerMtu := by
  have hfrom := routedFrom hroute
  have hfrom' := routedFrom h.route
  have hsrc : r'.srcHost = r.srcHost := by rw [hfrom'.srcHost, hfrom.srcHost, h.src]
  have hdst : r'.dst = r.dst := by
    have heq := hfrom'.dst
    rw [hfrom'.l4.ipv6, h.dst, ← hfrom.l4.ipv6, hfrom.dst] at heq
    exact (Except.ok.inj heq).symm
  have hl4 := hfrom'.l4.layout.l4Size
  have hpayload := hfrom'.l4.layout.payload
  have hsize := h.size
  have hheader := h.header
  have hend := h.placed.le_end
  have hoff := h.placed.offset_le
  rw [length_payload h.placed] at hpayload
  rw [Routed.RejectedTooBig, h.path, h.mtu, and_iff_right hlen, Routed.size, hsrc, hdst, h.path,
    hl4, hpayload]
  rw [Routed.innerMtu] at hsize ⊢
  omega

/-- Below zero the answer is an MTU that no packet can exceed. -/
theorem mtuAdvertised_iff (hash : IPAddress → UInt64) (hashSc : ScIPAddress → UInt64)
    (murmur32 : List UInt8 → UInt32 → UInt32) (pkt' : PacketBuffer) (r' : Routed)
    (getPath' : GetPath) (hroute : pkt.route sourcePrefix prefixLen getPath = .ok r)
    (hbig : r.RejectedTooBig)
    (hresult : pkt.translateEgress hash hashSc murmur32 sourcePrefix prefixLen getPath
      = .ok result) :
    MtuAdvertised sourcePrefix prefixLen getPath' pkt r result pkt' r' ↔
      0 ≤ r.innerMtu ∧ (1280 ≤ r.innerMtu →
        FollowUp sourcePrefix prefixLen getPath' pkt r pkt' r' →
        (pkt'.l4Size : ℤ) + 40 + min r.innerMtu 65535
          ≤ ((pkt'.endOfHeader - pkt'.packet.offset : ℕ) : ℤ) + r.innerMtu) := by
  obtain ⟨built, hbuilt, htranslate⟩ := @Routed.translate_of_rejected hash hashSc murmur32 r hbig
  rw [translateEgress, hroute] at hresult
  obtain rfl := Except.ok.inj (htranslate.symm.trans hresult)
  have hval := Routed.toNat_ipMtu hbuilt
  have hlow := Routed.le_innerMtu hbig.1
  constructor
  · intro h
    refine ⟨?_, fun hmtu hfollow =>
      (hfollow.rejectedTooBig_iff hroute hbig.1).mp (h.followUp hmtu hfollow)⟩
    by_contra hneg
    rw [if_neg hneg] at hval
    rcases Routed.rejectTooBig_spec r built r.nextHop with ⟨hsmall, -⟩ | ⟨-, hanswer⟩
    · omega
    · have := h.answered.mp ⟨_, hanswer⟩
      omega
  · rintro ⟨hnonneg, hfits⟩
    rw [if_pos hnonneg] at hval
    have hfollow : 1280 ≤ r.innerMtu →
        FollowUp sourcePrefix prefixLen getPath' pkt r pkt' r' → ¬r'.RejectedTooBig :=
      fun hmtu hfollow => (hfollow.rejectedTooBig_iff hroute hbig.1).mpr (hfits hmtu hfollow)
    rcases Routed.rejectTooBig_spec r built r.nextHop with ⟨hsmall, hdrop⟩ | ⟨hlarge, hanswer⟩
    · have hnone : ∀ mtu, ¬(built.rejectTooBig r.path r.mtu r.nextHop).IsTooBig mtu := by
        intro mtu h
        have hverdict := h.verdict
        rw [hdrop] at hverdict
        cases hverdict
      exact ⟨⟨fun h => absurd h (not_exists.mpr hnone), fun hmtu => by omega⟩,
        fun mtu h => absurd h (hnone mtu), hfollow, fun _ => hdrop⟩
    · refine ⟨⟨fun _ => by omega, fun _ => ⟨_, hanswer⟩⟩, fun mtu h => ?_, hfollow,
        fun hmtu => by omega⟩
      have hsame := h.mtu.symm.trans hanswer.mtu
      omega

/-! ### A long path with a small MTU -/

/-- A UDP packet to a host of 1-1 with `n` bytes of payload. -/
def udpOverIPv6 (host : List UInt8) (n : ℕ) : List UInt8 :=
  [0x60, 0, 0, 0] ++ (beBytes 2 (8 + n) ++ ([17, 64] ++
    ([0xfd, 0, 0, 0, 0, 0, 0, 0, 0, 0, 0, 0, 0, 0, 0, 1] ++
      ([0xfc, 0, 0x10, 0, 1, 0, 0, 0] ++ (host ++
        ([0x13, 0x88, 0x13, 0x89] ++ (beBytes 2 (8 + n) ++ ([0x12, 0x34] ++
          List.replicate n 0))))))))

def exampleEgress (headroom : ℕ) (host : List UInt8) (n : ℕ) : PacketBuffer :=
  ((PacketBuffer.ofBuffer (List.replicate (headroom + 48 + n) 0)).receive headroom
    (udpOverIPv6 host n) false none).2

/-- The packet to 10.0.0.1. -/
def exampleEgress4 (n : ℕ) : PacketBuffer := exampleEgress 64 [0, 0, 0xff, 0xff, 10, 0, 0, 1] n

/-- A path of `len` bytes from 1-2. -/
def examplePathOf (nextHop : IPEndpoint) (len : ℕ) : Path :=
  ⟨⟨0x1000000000002⟩, ⟨0x1000000000001⟩, PathType.scion, 0, 1472, 2, nextHop,
    List.replicate len 0, ⟨0, 0⟩⟩

def examplePath4 (len : ℕ) : Path := examplePathOf ⟨.v4 0x0a000063, 30042⟩ len

def exampleRouted (n len : ℕ) (mtu : UInt16) : Routed :=
  ⟨exampleEgress4 n, .v4 0x0a000002, ⟨⟨0x1000000000001⟩, .v4 0x0a000001⟩, ScionProto.udp,
    examplePath4 len, mtu⟩

def exampleGetPath (path : Path) (mtu : UInt16) : GetPath := fun _ _ _ _ _ _ =>
  (.ok (some path), mtu)

def exampleGetPath4 (len : ℕ) (mtu : UInt16) : GetPath := exampleGetPath (examplePath4 len) mtu

/-- A packet of 1500 bytes is answered with 1436. -/
theorem mtuAdvertised_iff_largePacket : ∃ result,
    (exampleEgress4 1452).translateEgress (fun _ => 0) (fun _ => 0) (fun _ _ => 0)
        (.v4 0x0a000002) 128 (exampleGetPath4 40 1472) = .ok result ∧
      MtuAdvertised (.v4 0x0a000002) 128 (exampleGetPath4 40 1472) (exampleEgress4 1452)
        (exampleRouted 1452 40 1472) result (exampleEgress4 1388)
        (exampleRouted 1388 40 1472) := by
  have hroute : (exampleEgress4 1452).route (.v4 0x0a000002) 128 (exampleGetPath4 40 1472)
      = .ok (exampleRouted 1452 40 1472) := by decide +kernel
  have hbig : (exampleRouted 1452 40 1472).RejectedTooBig := by decide +kernel
  obtain ⟨built, -, htranslate⟩ :=
    @Routed.translate_of_rejected (fun _ => 0) (fun _ => 0) (fun _ _ => 0) _ hbig
  have hresult := (translateEgress_of_route (fun _ => 0) (fun _ => 0) (fun _ _ => 0) hroute).trans
    htranslate
  exact ⟨_, hresult, (mtuAdvertised_iff _ _ _ (exampleEgress4 1388) (exampleRouted 1388 40 1472)
    (exampleGetPath4 40 1472) hroute hbig hresult).mpr ⟨by decide +kernel,
      fun _ _ => by decide +kernel⟩⟩

/-- Header and path are 80 bytes larger than any IPv6 packet may be, and the answer is an MTU
of 65535. -/
theorem not_forall_mtuAdvertised :
    ¬ ∀ (hash : IPAddress → UInt64) (hashSc : ScIPAddress → UInt64)
      (murmur32 : List UInt8 → UInt32 → UInt32) (sourcePrefix : IPAddress) (prefixLen : UInt32)
      (getPath getPath' : GetPath) (pkt pkt' : PacketBuffer) (r r' : Routed)
      (result : EgressResult), pkt.route sourcePrefix prefixLen getPath = .ok r →
      r.RejectedTooBig →
      pkt.translateEgress hash hashSc murmur32 sourcePrefix prefixLen getPath = .ok result →
      MtuAdvertised sourcePrefix prefixLen getPath' pkt r result pkt' r' := by
  intro hclaim
  have hroute : (exampleEgress4 12).route (.v4 0x0a000002) 128 (exampleGetPath4 984 900)
      = .ok (exampleRouted 12 984 900) := by decide +kernel
  have hbig : (exampleRouted 12 984 900).RejectedTooBig := by decide +kernel
  obtain ⟨built, hbuilt, htranslate⟩ :=
    @Routed.translate_of_rejected (fun _ => 0) (fun _ => 0) (fun _ _ => 0) _ hbig
  have hdrop := (hclaim _ _ _ _ _ _ (exampleGetPath4 984 900) _ (exampleEgress4 12) _
    (exampleRouted 12 984 900) _ hroute hbig
    ((translateEgress_of_route _ _ _ hroute).trans htranslate)).dropped (by decide +kernel)
  have hval := Routed.toNat_ipMtu hbuilt
  rw [show (exampleRouted 12 984 900).innerMtu = -80 by decide +kernel,
    if_neg (by decide)] at hval
  rcases Routed.rejectTooBig_spec (exampleRouted 12 984 900) built
    (exampleRouted 12 984 900).nextHop with ⟨hsmall, -⟩ | ⟨-, hanswer⟩
  · omega
  · have hverdict := hanswer.verdict
    rw [hdrop] at hverdict
    cases hverdict

end Answer

end Scion
