/-
Building a packet and parsing it (`socket/header_cache.hpp`,
`socket/parsed_packet.hpp`).

* `Recovers` — the parsed packet is the packet that was sent;
* `parse_build_iff` — a built packet is recovered exactly when its hosts have no
  zone, its options are of one category, and their header can say their size.
-/
import Scion.ParsedPacket

namespace Scion

open BigEndian Codec HeaderCache ParsedPacket

/-- The packet has these addresses, this path, the options `hbh` and `e2e`, this
transport header and this payload. -/
structure Recovers (pkt : ParsedPacket) (dst src : ScIPEndpoint) (path : PathView)
    (hbh e2e : List UInt8) (l4 : L4Header) (payload : List UInt8) : Prop where
  dst : pkt.sci.dst = dst.address
  src : pkt.sci.src = src.address
  path : pkt.path = path.encoded
  hbhOpts : pkt.hbhOpts = hbh
  e2eOpts : pkt.e2eOpts = e2e
  l4 : pkt.l4 = l4
  payload : pkt.payload = payload

section Build

variable {S : Type} [ExtensionClass S]
  {hash : ScIPAddress → UInt64} {murmur32 : List UInt8 → UInt32 → UInt32}
  {cache cache' : HeaderCache} {tc : UInt8} {dst src : ScIPEndpoint} {path : PathView}
  {exts : List (Extension S)} {l4 l4' : L4Header} {payload : List UInt8}
  {hbh e2e : List (List UInt8)}

/-- The length field of a header that was built counts addresses and path. -/
theorem sentHeader_hlen_eq (hmod : extPos dst src path % 4 = 0)
    (hlt : extPos dst src path < 1024) :
    4 * (sentHeader hash murmur32 tc dst src path exts l4 payload).hlen.toNat
      = (sentHeader hash murmur32 tc dst src path exts l4 payload).size + path.size := by
  rw [sentHeader_size_add, sentHeader_hlen, UInt8.toNat_ofNat']
  omega

theorem sentHeader_nh :
    (sentHeader hash murmur32 tc dst src path exts l4 payload).nh
      = nextHeader (computeExtSize exts).1 (computeExtSize exts).2
          (sentL4 hash murmur32 tc dst src path exts l4 payload) := by
  have hproto : (sentL4 hash murmur32 tc dst src path exts l4 payload).proto
      = (prepareL4 dst src l4 payload).proto := by simp
  rw [nextHeader, hproto]
  rfl

/-- A built packet with options of at most one category, of a size their header
can say. -/
theorem parse_build (hemits : EmitsOptions exts (extPos dst src path) hbh e2e)
    (hbuild : build hash murmur32 cache tc dst src path exts l4 payload = .ok (cache', l4'))
    (hone : ¬((computeExtSize exts).1 > 0 ∧ (computeExtSize exts).2 > 0))
    (hfitHbh : OptsFit (computeExtSize exts).1) (hfitE2e : OptsFit (computeExtSize exts).2) :
    ∃ s, parse (ReadStream.ofBuffer (cache'.buffer ++ payload)) = .ok
      ⟨(sentHeader hash murmur32 tc dst src path exts l4 payload).onWire, path.encoded,
        hbh.flatten, e2e.flatten, l4', payload⟩ s := by
  obtain ⟨hknown, hmod, hlt, hr⟩ := (build_eq_ok_iff hemits).mp hbuild
  cases hr
  exact parse_headerBytes (sentHeader_hlen_eq hmod hlt) sentHeader_nh (counts hemits.hopByHop)
    (counts hemits.endToEnd) (isKnown_sentL4.trans hknown) hone hfitHbh hfitE2e

/-- A built packet with options of both categories is rejected. -/
theorem parse_build_both (hemits : EmitsOptions exts (extPos dst src path) hbh e2e)
    (hbuild : build hash murmur32 cache tc dst src path exts l4 payload = .ok (cache', l4'))
    (hhbh : (computeExtSize exts).1 > 0) (he2e : (computeExtSize exts).2 > 0)
    (pkt : ParsedPacket) (s : ReadStream) :
    parse (ReadStream.ofBuffer (cache'.buffer ++ payload)) ≠ .ok pkt s := by
  obtain ⟨hknown, hmod, hlt, hr⟩ := (build_eq_ok_iff hemits).mp hbuild
  cases hr
  exact parse_headerBytes_both (sentHeader_hlen_eq hmod hlt) sentHeader_nh
    (counts hemits.hopByHop) hhbh he2e pkt s

theorem withoutZone_address (ep : ScIPEndpoint) :
    ep.address.withoutZone = ep.address ↔ ep.host.withoutZone = ep.host := by
  simp [ScIPEndpoint.address, ScIPAddress.withoutZone]

/-- A packet that was built is recovered by the parser exactly when both hosts
are without a zone, which is not on the wire, the options are of at most one
category, since with both the SCION header announces the second options header
in place of the first, and the options headers can say their size. -/
theorem parse_build_iff (hemits : EmitsOptions exts (extPos dst src path) hbh e2e)
    (hbuild : build hash murmur32 cache tc dst src path exts l4 payload = .ok (cache', l4')) :
    (∃ pkt s, parse (ReadStream.ofBuffer (cache'.buffer ++ payload)) = .ok pkt s ∧
        Recovers pkt dst src path hbh.flatten e2e.flatten l4' payload) ↔
      dst.host.withoutZone = dst.host ∧ src.host.withoutZone = src.host ∧
        ¬((computeExtSize exts).1 > 0 ∧ (computeExtSize exts).2 > 0) ∧
        OptsFit (computeExtSize exts).1 ∧ OptsFit (computeExtSize exts).2 := by
  constructor
  · rintro ⟨pkt, s, hparse, hrecovers⟩
    have hone : ¬((computeExtSize exts).1 > 0 ∧ (computeExtSize exts).2 > 0) :=
      fun ⟨hhbh, he2e⟩ => parse_build_both hemits hbuild hhbh he2e pkt s hparse
    have hfits : OptsFit (computeExtSize exts).1 ∧ OptsFit (computeExtSize exts).2 := by
      obtain ⟨hknown, hmod, hlt, hr⟩ := (build_eq_ok_iff hemits).mp hbuild
      cases hr
      exact optsFit_of_parse (sentHeader_hlen_eq hmod hlt) sentHeader_nh
        (counts hemits.hopByHop) (counts hemits.endToEnd) hone hparse hrecovers.hbhOpts
        hrecovers.e2eOpts
    obtain ⟨s', hparse'⟩ := parse_build hemits hbuild hone hfits.1 hfits.2
    rw [hparse'] at hparse
    cases hparse
    exact ⟨(withoutZone_address dst).mp hrecovers.dst, (withoutZone_address src).mp hrecovers.src,
      hone, hfits⟩
  · rintro ⟨hdst, hsrc, hone, hfitHbh, hfitE2e⟩
    obtain ⟨s, hparse⟩ := parse_build hemits hbuild hone hfitHbh hfitE2e
    exact ⟨_, s, hparse, (withoutZone_address dst).mpr hdst, (withoutZone_address src).mpr hsrc,
      rfl, rfl, rfl, rfl, rfl⟩

end Build

/-! ### A hop-by-hop and an end-to-end extension in one packet -/

namespace RoundTrip

def host (last : UInt32) : IPAddress := .v4 (0x0a000000 + last)

/-- An endpoint in 1-ff00:0:110. -/
def endpoint (last : UInt32) (port : UInt16) : ScIPEndpoint :=
  ⟨IsdAsn.make 1 0xff0000000110, ⟨host last, port⟩⟩

def emptyPath : PathView := ⟨IsdAsn.make 1 0xff0000000110, PathType.empty, []⟩

/-- An option without data. -/
def option (category : Category) (type : OptType) : Extension PlainOption :=
  ⟨true, ⟨category, type, []⟩⟩

def both : List (Extension PlainOption) := [option .hopByHop 240, option .endToEnd 241]

def udp : UDP := ⟨0, 0, 0, 0⟩

theorem emits_one (pos : ℕ) :
    EmitsOptions [option .endToEnd 241] pos [] [[241, 0]] :=
  ⟨Emits.nil _ _, PlainOption.emits_cons (Emits.nil _ _)⟩

theorem emits_both (pos : ℕ) : EmitsOptions both pos [[240, 0]] [[241, 0]] :=
  ⟨PlainOption.emits_cons (Emits.nil _ _), PlainOption.emits_cons (Emits.nil _ _)⟩

end RoundTrip

section Datagram

open RoundTrip

/-- One end-to-end extension is recovered. -/
theorem parse_build_iff_endToEnd :
    ∃ cache' l4', build (fun _ => 0) (fun _ _ => 0) HeaderCache.init 0 (endpoint 1 5000)
        (endpoint 2 3000) emptyPath [option .endToEnd 241] (.udp udp) [1, 2]
          = .ok (cache', l4') ∧
      ((∃ pkt s, parse (ReadStream.ofBuffer (cache'.buffer ++ [1, 2])) = .ok pkt s ∧
          Recovers pkt (endpoint 1 5000) (endpoint 2 3000) emptyPath [] [241, 0] l4' [1, 2]) ↔
        (endpoint 1 5000).host.withoutZone = (endpoint 1 5000).host ∧
          (endpoint 2 3000).host.withoutZone = (endpoint 2 3000).host ∧
          ¬((computeExtSize [option .endToEnd 241]).1 > 0 ∧
            (computeExtSize [option .endToEnd 241]).2 > 0) ∧
          OptsFit (computeExtSize [option .endToEnd 241]).1 ∧
          OptsFit (computeExtSize [option .endToEnd 241]).2) := by
  obtain ⟨⟨cache', l4'⟩, hbuild⟩ : ∃ r, build (fun _ => 0) (fun _ _ => 0) HeaderCache.init 0
      (endpoint 1 5000) (endpoint 2 3000) emptyPath [option .endToEnd 241] (.udp udp) [1, 2]
        = .ok r :=
    ⟨_, (build_eq_ok_iff (emits_one _)).mpr ⟨rfl, by decide, by decide, rfl⟩⟩
  exact ⟨cache', l4', hbuild, parse_build_iff (emits_one _) hbuild⟩

/-- With a hop-by-hop and an end-to-end extension of four bytes each, between
fully specified IPv4 endpoints and over the empty path, the packet that `build`
makes is not accepted. -/
theorem not_forall_parse_build :
    ¬ ∀ (S : Type) (_ : ExtensionClass S) (hash : ScIPAddress → UInt64)
        (murmur32 : List UInt8 → UInt32 → UInt32) (cache cache' : HeaderCache) (tc : UInt8)
        (dst src : ScIPEndpoint) (path : PathView) (exts : List (Extension S)) (udp : UDP)
        (l4' : L4Header) (payload : List UInt8) (hbh e2e : List (List UInt8)),
      dst.address.isFullySpecified = true → src.address.isFullySpecified = true →
      path.size % 4 = 0 → (∀ ext ∈ exts, ext.isValid = true) →
      EmitsOptions exts (extPos dst src path) hbh e2e →
      build hash murmur32 cache tc dst src path exts (.udp udp) payload = .ok (cache', l4') →
      cache'.buffer.length + payload.length < 2 ^ 16 →
      ∃ pkt s, parse (ReadStream.ofBuffer (cache'.buffer ++ payload)) = .ok pkt s ∧
        Recovers pkt dst src path hbh.flatten e2e.flatten l4' payload := by
  intro h
  obtain ⟨⟨cache', l4'⟩, hbuild⟩ : ∃ r, build (fun _ => 0) (fun _ _ => 0) HeaderCache.init 0
      (endpoint 1 5000) (endpoint 2 3000) emptyPath both (.udp udp) [1, 2] = .ok r :=
    ⟨_, (build_eq_ok_iff (emits_both _)).mpr ⟨rfl, by decide, by decide, rfl⟩⟩
  have hlen : cache'.buffer.length + [(1 : UInt8), 2].length < 2 ^ 16 := by
    obtain ⟨_, _, _, hr⟩ := (build_eq_ok_iff (emits_both _)).mp hbuild
    cases hr
    rw [length_headerBytes (emits_both _)]
    decide
  obtain ⟨pkt, s, hparse, _⟩ := h PlainOption inferInstance (fun _ => 0) (fun _ _ => 0)
    HeaderCache.init cache' 0 (endpoint 1 5000) (endpoint 2 3000) emptyPath both udp l4' [1, 2]
    [[240, 0]] [[241, 0]] (by decide) (by decide) (by decide) (by decide) (emits_both _) hbuild hlen
  exact parse_build_both (emits_both _) hbuild (by decide) (by decide) pkt s hparse

end Datagram

end Scion
