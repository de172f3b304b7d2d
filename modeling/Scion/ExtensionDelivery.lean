/-
Extensions packed and unpacked (`socket/packager.hpp`,
`extensions/extension.hpp`).

* `Survive` — the receiver's extensions are valid where they were sent, and
  parsed from the options of their own category;
* `survive_unpack_iff` — extensions of a packet that is accepted survive exactly
  when none that was sent has the type of one of the receiver's end-to-end
  extensions: those are parsed from the hop-by-hop options.
-/
import Scion.Packager

namespace Scion

open BigEndian Codec HeaderCache ParsedPacket ScionPackager

section Delivery

variable {S : Type} [ExtensionClass S]

/-- Whether an extension of the type was sent in the category. -/
def isSent (category : Category) (exts : List (Extension S)) (type : OptType) : Bool :=
  (emitted category exts).any fun ext => type == ext.type

/-- The extensions `exts` were sent in the packet `pkt`; each of the receiver's
extensions is valid exactly when it was sent in its category, and parsed from the
options of that category. -/
structure Survive (exts : List (Extension S)) (pkt : ParsedPacket)
    (hbhExt e2eExt : List (Extension S)) (u : Unpacked S) : Prop where
  hbhValid : u.hbhExt.map Extension.isValid = hbhExt.map fun ext => isSent .hopByHop exts ext.type
  hbhParsed : ∃ s, parseExtensions hbhExt (ReadStream.ofBuffer pkt.hbhOpts) = .ok u.hbhExt s
  e2eValid : u.e2eExt.map Extension.isValid = e2eExt.map fun ext => isSent .endToEnd exts ext.type
  e2eParsed : ∃ s, parseExtensions e2eExt (ReadStream.ofBuffer pkt.e2eOpts) = .ok u.e2eExt s

/-- Lists of extensions are parsed also when they are empty. -/
theorem unpackExtensions_eq {opts : List UInt8} {exts exts' : List (Extension S)} {s : ReadStream}
    (h : parseExtensions exts (ReadStream.ofBuffer opts) = .ok exts' s)
    (hlen : exts'.length = exts.length) : unpackExtensions opts exts = .ok exts' := by
  rw [unpackExtensions, h]
  cases exts with
  | nil => rw [List.length_eq_zero_iff.mp hlen]; rfl
  | cons ext exts => rfl

theorem of_unpackVerified_eq_ok {pkt : ParsedPacket} {hbhExt e2eExt : List (Extension S)}
    {u : Unpacked S} (h : unpackVerified pkt hbhExt e2eExt = .ok u) :
    unpackExtensions pkt.hbhOpts hbhExt = .ok u.hbhExt ∧
      unpackExtensions pkt.hbhOpts e2eExt = .ok u.e2eExt := by
  rw [unpackVerified] at h
  rcases hhbh : unpackExtensions pkt.hbhOpts hbhExt with err | hbhExt'
  · rw [hhbh] at h
    cases h
  rcases he2e : unpackExtensions pkt.hbhOpts e2eExt with err | e2eExt'
  · rw [hhbh, he2e] at h
    cases h
  · rw [hhbh, he2e] at h
    rcases hl4 : pkt.l4 with udp | scmp
    · rw [hl4] at h
      cases h
      exact ⟨rfl, rfl⟩
    · rw [hl4] at h
      cases h
      exact ⟨rfl, rfl⟩

/-- A packed packet is one that was built. -/
theorem build_of_pack {hash : ScIPAddress → UInt64} {murmur32 : List UInt8 → UInt32 → UInt32}
    {p : ScionPackager} {headers : HeaderCache} {dst : Option ScIPEndpoint} {src : ScIPEndpoint}
    {path : PathView} {exts : List (Extension S)} {l4 : L4Header} {payload : List UInt8}
    {r : HeaderCache × L4Header} (hsrc : p.getSourceAddress path = .ok src)
    (h : p.pack hash murmur32 headers dst path exts l4 payload = .ok r) :
    headers.build hash murmur32 p.trafficClass (dst.getD p.remote) src path exts l4 payload
      = .ok r := by
  rw [pack] at h
  split at h
  · cases h
  · rw [hsrc] at h
    simp only [bind, Except.bind] at h
    split at h
    · cases h
    · exact h

/-- A valid extension is sent in one of the categories. -/
theorem mem_emitted {exts : List (Extension S)} {ext : Extension S} (hmem : ext ∈ exts)
    (hvalid : ext.isValid = true) : ext ∈ emitted ext.category exts := by
  rw [emitted, List.mem_filter]
  exact ⟨hmem, by rw [Extension.isIn, hvalid, beq_self_eq_true]; rfl⟩

theorem isSent_eq_true {category : Category} {exts : List (Extension S)} {type : OptType} :
    isSent category exts type = true ↔ ∃ ext ∈ emitted category exts, type = ext.type := by
  simp [isSent]

theorem isSent_of_nil {category : Category} {exts : List (Extension S)}
    (h : emitted category exts = []) (type : OptType) : isSent category exts type = false := by
  rw [isSent, h]
  rfl

/-- In a packet with options of one category an extension of a type is sent as
often as not, in both categories, only if it is not sent at all. -/
theorem isSent_eq_iff {exts : List (Extension S)} {type : OptType}
    (hone : emitted .hopByHop exts = [] ∨ emitted .endToEnd exts = []) :
    isSent .hopByHop exts type = isSent .endToEnd exts type ↔
      ∀ ext ∈ exts, ext.isValid = true → type ≠ ext.type := by
  constructor
  · intro heq ext hmem hvalid htype
    have hin := mem_emitted hmem hvalid
    have hneither : isSent .hopByHop exts type = false ∧ isSent .endToEnd exts type = false := by
      rcases hone with hnone | hnone
      · have h := isSent_of_nil hnone type
        exact ⟨h, heq ▸ h⟩
      · have h := isSent_of_nil hnone type
        exact ⟨heq.trans h, h⟩
    cases hcat : ext.category with
    | hopByHop =>
      rw [hcat] at hin
      exact Bool.false_ne_true (hneither.1.symm.trans (isSent_eq_true.mpr ⟨ext, hin, htype⟩))
    | endToEnd =>
      rw [hcat] at hin
      exact Bool.false_ne_true (hneither.2.symm.trans (isSent_eq_true.mpr ⟨ext, hin, htype⟩))
  · intro h
    have hnot : ∀ category, isSent category exts type = false := by
      intro category
      rw [← Bool.not_eq_true, isSent_eq_true]
      rintro ⟨ext, hin, htype⟩
      rw [emitted, List.mem_filter, Extension.isIn, Bool.and_eq_true] at hin
      exact h ext hin.1 hin.2.1 htype
    rw [hnot, hnot]

/-! ### Accepted packets -/

/-- The options that are found in an accepted packet are those of one category. -/
theorem accepted_of_pack {hash : ScIPAddress → UInt64} {murmur32 : List UInt8 → UInt32 → UInt32}
    {sender peer : ScionPackager} {headers cache' : HeaderCache} {dst : Option ScIPEndpoint}
    {src : ScIPEndpoint} {path : PathView} {exts : List (Extension S)} {l4 l4' : L4Header}
    {payload : List UInt8} {hbh e2e : List (List UInt8)} {ulSource : IPAddress}
    {hbhExt e2eExt : List (Extension S)} {u : Unpacked S}
    (hpack : sender.pack hash murmur32 headers dst path exts l4 payload = .ok (cache', l4'))
    (hsrc : sender.getSourceAddress path = .ok src)
    (hemits : EmitsOptions exts (extPos (dst.getD sender.remote) src path) hbh e2e)
    (hfitHbh : OptsFit (computeExtSize exts).1) (hfitE2e : OptsFit (computeExtSize exts).2)
    (haccept : (peer.unpack (cache'.buffer ++ payload) ulSource hbhExt e2eExt).1 = .ok u) :
    (emitted .hopByHop exts = [] ∨ emitted .endToEnd exts = []) ∧
      ∃ pkt s, parse (ReadStream.ofBuffer (cache'.buffer ++ payload)) = .ok pkt s ∧
        pkt.hbhOpts = hbh.flatten ∧ pkt.e2eOpts = e2e.flatten ∧
        unpackVerified pkt hbhExt e2eExt = .ok u := by
  have hbuild := build_of_pack hsrc hpack
  obtain ⟨_, pkt, s, hparse, _, hverified⟩ := unpack_eq_ok_iff.mp haccept
  have hone : ¬((computeExtSize exts).1 > 0 ∧ (computeExtSize exts).2 > 0) :=
    fun h => parse_build_both hemits hbuild h.1 h.2 pkt s hparse
  obtain ⟨s', hparse'⟩ := parse_build hemits hbuild hone hfitHbh hfitE2e
  rw [hparse] at hparse'
  cases hparse'
  refine ⟨?_, _, _, hparse, rfl, rfl, hverified⟩
  by_cases hhbh : (computeExtSize exts).1 = 0
  · exact Or.inl (emitted_eq_nil_of_size hemits.hopByHop hhbh)
  · exact Or.inr (emitted_eq_nil_of_size hemits.endToEnd
      (show (computeExtSize exts).2 = 0 by omega))

/-- In a packet that `pack` made and a peer accepted, where the headers can say
the size of the options, the extensions survive exactly when none that was sent,
in either category, has the type of one of the receiver's end-to-end extensions:
these are also looked for in the hop-by-hop options. -/
theorem survive_unpack_iff {hash : ScIPAddress → UInt64}
    {murmur32 : List UInt8 → UInt32 → UInt32} {sender peer : ScionPackager}
    {headers cache' : HeaderCache} {dst : Option ScIPEndpoint} {src : ScIPEndpoint}
    {path : PathView} {exts : List (Extension S)} {l4 l4' : L4Header} {payload : List UInt8}
    {hbh e2e : List (List UInt8)} {ulSource : IPAddress} {hbhExt e2eExt : List (Extension S)}
    {u : Unpacked S}
    (hpack : sender.pack hash murmur32 headers dst path exts l4 payload = .ok (cache', l4'))
    (hsrc : sender.getSourceAddress path = .ok src)
    (hemits : EmitsOptions exts (extPos (dst.getD sender.remote) src path) hbh e2e)
    (hcarriesHbh : List.Forall₂ (Carries ((hbhExt ++ e2eExt).map Extension.type))
      (emitted .hopByHop exts) hbh)
    (hcarriesE2e : List.Forall₂ (Carries ((hbhExt ++ e2eExt).map Extension.type))
      (emitted .endToEnd exts) e2e)
    (hnodupHbh : (hbhExt.map Extension.type).Nodup)
    (hnodupE2e : (e2eExt.map Extension.type).Nodup)
    (hfitHbh : OptsFit (computeExtSize exts).1) (hfitE2e : OptsFit (computeExtSize exts).2)
    (haccept : (peer.unpack (cache'.buffer ++ payload) ulSource hbhExt e2eExt).1 = .ok u) :
    (∃ pkt s, parse (ReadStream.ofBuffer (cache'.buffer ++ payload)) = .ok pkt s ∧
        Survive exts pkt hbhExt e2eExt u) ↔
      ∀ ext ∈ exts, ext.isValid = true → ext.type ∉ e2eExt.map Extension.type := by
  obtain ⟨hone, pkt, s, hparse, hhbhOpts, he2eOpts, hverified⟩ :=
    accepted_of_pack hpack hsrc hemits hfitHbh hfitE2e haccept
  obtain ⟨hunpackHbh, hunpackE2e⟩ := of_unpackVerified_eq_ok hverified
  have hsubHbh : ∀ t ∈ hbhExt.map Extension.type,
      t ∈ (hbhExt ++ e2eExt).map Extension.type := by
    intro t ht
    rw [List.map_append]
    exact List.mem_append_left _ ht
  have hsubE2e : ∀ t ∈ e2eExt.map Extension.type,
      t ∈ (hbhExt ++ e2eExt).map Extension.type := by
    intro t ht
    rw [List.map_append]
    exact List.mem_append_right _ ht
  -- both lists are parsed from the hop-by-hop options
  obtain ⟨hbhExt', s₁, hparseHbh, hvalidHbh⟩ :=
    parseExtensions_chunks hcarriesHbh hnodupHbh hsubHbh
  obtain ⟨e2eExt', s₂, hparseE2e, hvalidE2e⟩ :=
    parseExtensions_chunks hcarriesHbh hnodupE2e hsubE2e
  rw [← hhbhOpts] at hparseHbh hparseE2e
  have hlenHbh : hbhExt'.length = hbhExt.length := by
    simpa using congrArg List.length hvalidHbh
  have hlenE2e : e2eExt'.length = e2eExt.length := by
    simpa using congrArg List.length hvalidE2e
  rw [unpackExtensions_eq hparseHbh hlenHbh] at hunpackHbh
  rw [unpackExtensions_eq hparseE2e hlenE2e] at hunpackE2e
  have hHbh : u.hbhExt = hbhExt' := (Except.ok.inj hunpackHbh).symm
  have hE2e : u.e2eExt = e2eExt' := (Except.ok.inj hunpackE2e).symm
  constructor
  · rintro ⟨pkt', s', hparse', hsurvive⟩
    rw [hparse] at hparse'
    cases hparse'
    have hagree := hsurvive.e2eValid
    rw [hE2e, hvalidE2e, List.map_inj_left] at hagree
    intro ext hmem hvalid htype
    obtain ⟨receiver, hreceiver, hsame⟩ := List.mem_map.mp htype
    exact (isSent_eq_iff hone).mp (hagree receiver hreceiver) ext hmem hvalid hsame
  · intro hforeign
    have hnotIn : ∀ category, ∀ ext ∈ emitted category exts,
        ext.type ∉ e2eExt.map Extension.type := by
      intro category ext hin
      rw [emitted, List.mem_filter, Extension.isIn, Bool.and_eq_true] at hin
      exact hforeign ext hin.1 hin.2.1
    refine ⟨pkt, s, hparse, ?_, ⟨s₁, by rw [hHbh]; exact hparseHbh⟩, ?_, ?_⟩
    · rw [hHbh, hvalidHbh]
      rfl
    · rw [hE2e, hvalidE2e, List.map_inj_left]
      intro receiver hreceiver
      refine (isSent_eq_iff hone).mpr fun ext hmem hvalid hsame => ?_
      exact hforeign ext hmem hvalid (hsame ▸ List.mem_map_of_mem hreceiver)
    · -- foreign extensions are left invalid by both regions
      obtain ⟨s₃, hforeignHbh⟩ := parseExtensions_foreign hcarriesHbh hsubE2e (hnotIn .hopByHop)
      obtain ⟨s₄, hforeignE2e⟩ := parseExtensions_foreign hcarriesE2e hsubE2e (hnotIn .endToEnd)
      rw [← hhbhOpts, hparseE2e] at hforeignHbh
      refine ⟨s₄, ?_⟩
      rw [he2eOpts, hforeignE2e, hE2e, (EStateM.Result.ok.inj hforeignHbh).1]

end Delivery

section Datagram

open RoundTrip

/-- A socket in 1-ff00:0:110. -/
def socket (last : UInt32) (port : UInt16) : ScionPackager :=
  (ScionPackager.init.setLocalEp (endpoint last port)).2

/-- A packet with the extension `ext`, sent and received. -/
def deliver (ext : Extension PlainOption) (hbhExt e2eExt : List (Extension PlainOption)) :
    Maybe (HeaderCache × L4Header × Unpacked PlainOption) := do
  let (cache, l4) ← (socket 2 3000).pack (fun _ => 0) (fun _ _ => 0) HeaderCache.init
    (some (endpoint 1 5000)) emptyPath [ext] (.udp udp) [1, 2]
  let u ← ((socket 1 5000).unpack (cache.buffer ++ [1, 2]) (host 2) hbhExt e2eExt).1
  pure (cache, l4, u)

theorem deliver_eq_ok {ext : Extension PlainOption} {hbhExt e2eExt : List (Extension PlainOption)}
    (h : (deliver ext hbhExt e2eExt).isOk = true) :
    ∃ cache' l4' u, (socket 2 3000).pack (fun _ => 0) (fun _ _ => 0) HeaderCache.init
        (some (endpoint 1 5000)) emptyPath [ext] (.udp udp) [1, 2] = .ok (cache', l4') ∧
      ((socket 1 5000).unpack (cache'.buffer ++ [1, 2]) (host 2) hbhExt e2eExt).1 = .ok u := by
  rcases hpack : (socket 2 3000).pack (fun _ => 0) (fun _ _ => 0) HeaderCache.init
      (some (endpoint 1 5000)) emptyPath [ext] (.udp udp) [1, 2] with err | ⟨cache', l4'⟩
  · rw [deliver, hpack] at h
    cases h
  rcases hunpack : ((socket 1 5000).unpack (cache'.buffer ++ [1, 2]) (host 2) hbhExt e2eExt).1
    with err | u
  · simp only [deliver, hpack, bind, Except.bind, hunpack] at h
    cases h
  · exact ⟨cache', l4', u, rfl, hunpack⟩

/-- A hop-by-hop option of type 240, received by an extension of that type and by
an end-to-end extension of type 241. -/
theorem survive_unpack_iff_hopByHop :
    ∃ cache' l4' u, (socket 2 3000).pack (fun _ => 0) (fun _ _ => 0) HeaderCache.init
        (some (endpoint 1 5000)) emptyPath [option .hopByHop 240] (.udp udp) [1, 2]
          = .ok (cache', l4') ∧
      ((socket 1 5000).unpack (cache'.buffer ++ [1, 2]) (host 2) [option .hopByHop 240]
        [option .endToEnd 241]).1 = .ok u ∧
      ∃ pkt s, parse (ReadStream.ofBuffer (cache'.buffer ++ [1, 2])) = .ok pkt s ∧
        Survive [option .hopByHop 240] pkt [option .hopByHop 240] [option .endToEnd 241] u := by
  obtain ⟨cache', l4', u, hpack, hunpack⟩ := deliver_eq_ok
    (show (deliver (option .hopByHop 240) [option .hopByHop 240] [option .endToEnd 241]).isOk
      = true by decide +kernel)
  have hemits : ∀ pos, EmitsOptions [option .hopByHop 240] pos [[240, 0]] [] :=
    fun pos => ⟨PlainOption.emits_cons (Emits.nil _ _), Emits.nil _ _⟩
  have hcarries : Carries (([option .hopByHop 240] ++ [option .endToEnd 241]).map Extension.type)
      (option .hopByHop 240) [240, 0] := PlainOption.carries (by decide) (by decide) _ true
  exact ⟨cache', l4', u, hpack, hunpack, (survive_unpack_iff hpack rfl (hemits _)
    (List.Forall₂.cons hcarries List.Forall₂.nil) List.Forall₂.nil (by decide) (by decide)
    (by decide) (by decide) hunpack).mpr (by decide)⟩

/-- An end-to-end option of type 241 is sent, and the packet accepted by a
receiver with an end-to-end extension of type 241, which it leaves invalid. -/
theorem not_forall_survive_unpack :
    ¬ ∀ (S : Type) (_ : ExtensionClass S) (hash : ScIPAddress → UInt64)
        (murmur32 : List UInt8 → UInt32 → UInt32) (sender peer : ScionPackager)
        (headers cache' : HeaderCache) (dst : Option ScIPEndpoint) (src : ScIPEndpoint)
        (path : PathView) (exts : List (Extension S)) (l4 l4' : L4Header) (payload : List UInt8)
        (hbh e2e : List (List UInt8)) (ulSource : IPAddress)
        (hbhExt e2eExt : List (Extension S)) (u : Unpacked S),
      sender.pack hash murmur32 headers dst path exts l4 payload = .ok (cache', l4') →
      sender.getSourceAddress path = .ok src →
      (∀ ext ∈ exts, ext.isValid = true) →
      EmitsOptions exts (extPos (dst.getD sender.remote) src path) hbh e2e →
      List.Forall₂ (Carries ((hbhExt ++ e2eExt).map Extension.type))
        (emitted .hopByHop exts) hbh →
      List.Forall₂ (Carries ((hbhExt ++ e2eExt).map Extension.type))
        (emitted .endToEnd exts) e2e →
      (hbhExt.map Extension.type).Nodup → (e2eExt.map Extension.type).Nodup →
      OptsFit (computeExtSize exts).1 → OptsFit (computeExtSize exts).2 →
      (peer.unpack (cache'.buffer ++ payload) ulSource hbhExt e2eExt).1 = .ok u →
      ∃ pkt s, parse (ReadStream.ofBuffer (cache'.buffer ++ payload)) = .ok pkt s ∧
        Survive exts pkt hbhExt e2eExt u := by
  intro h
  have hrun : (deliver (option .endToEnd 241) [] [option .endToEnd 241]).map
      (fun r => r.2.2.e2eExt.map Extension.isValid) = .ok [false] := by
    decide +kernel
  have hok : (deliver (option .endToEnd 241) [] [option .endToEnd 241]).isOk = true := by
    decide +kernel
  obtain ⟨cache', l4', u, hpack, hunpack⟩ := deliver_eq_ok hok
  have hcarries : Carries (([] ++ [option .endToEnd 241]).map Extension.type)
      (option .endToEnd 241) [241, 0] := PlainOption.carries (by decide) (by decide) _ true
  obtain ⟨pkt, s, _, hsurvive⟩ := h PlainOption inferInstance _ _ _ _ _ _ _ _ _ _ _ _ _ _ _ _
    [] _ u hpack rfl (by decide) (emits_one _) List.Forall₂.nil
    (List.Forall₂.cons hcarries List.Forall₂.nil) (by decide) (by decide) (by decide) (by decide)
    hunpack
  have hinvalid : u.e2eExt.map Extension.isValid = [false] := by
    simp only [deliver, hpack, bind, Except.bind, hunpack, pure, Except.pure] at hrun
    exact Except.ok.inj hrun
  have hvalid := hsurvive.e2eValid
  rw [hinvalid] at hvalid
  exact absurd hvalid (by decide)

end Datagram

end Scion
