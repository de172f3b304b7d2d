/-
Headers updated in place (`socket/header_cache.hpp`).

* `Caches` — the invariant of a cache without extensions: it holds the headers of
  a packet, and the sum of its pseudo header;
* `Caches.updatePayload` — one update replaces the packet, and keeps the invariant;
* `Caches.updateAll` — so do any number of updates;
* `updateAll_eq_build` — after updates without extensions, the last of which finds
  a zero checksum field, the cache is that of a fresh build but for the flow label.
-/
import Scion.RoundTrip

namespace Scion

open BigEndian Codec HeaderCache

namespace HeaderCache

/-- One update after another. -/
def updateAll : HeaderCache → List (L4Header × List UInt8) → Maybe HeaderCache
  | cache, [] => .ok cache
  | cache, (l4, payload) :: updates =>
    match cache.updatePayload l4 payload with
    | .error err => .error err
    | .ok (cache, _) => cache.updateAll updates

/-- The bytes are equal but for the last 20 bits of the first word. -/
def SameButFlowLabel (a b : List UInt8) : Prop :=
  beNat (a.take 4) / 2 ^ 20 = beNat (b.take 4) / 2 ^ 20 ∧ a.drop 4 = b.drop 4

instance (a b : List UInt8) : Decidable (SameButFlowLabel a b) :=
  inferInstanceAs (Decidable (_ ∧ _))

/-! ### The invariant -/

/-- The cache holds the headers of a packet without extensions. -/
structure Caches (cache : HeaderCache) (scHdr : SCION) (path : PathView) (l4 : L4Header)
    (payload : List UInt8) : Prop where
  buffer : cache.buffer = scHdr.bytes ++ (path.encoded ++ l4.bytes)
  nhOffset : cache.nhOffset = 4
  l4Offset : cache.l4Offset.toNat = scHdr.size + path.size
  payloadSize : cache.payloadSize = UInt16.ofNat payload.length
  scionHdrChksum : cache.scionHdrChksum = pseudoChecksum scHdr l4 payload
  nh : scHdr.nh = l4.proto
  plen : scHdr.plen = UInt16.ofNat (l4.size + payload.length)

/-- The SCION header of another transport header and payload. -/
def patched (scHdr : SCION) (l4 : L4Header) (payload : List UInt8) : SCION :=
  { scHdr with nh := l4.proto, plen := UInt16.ofNat (l4.size + payload.length) }

/-- The transport header as `updatePayload` sends it. -/
def updatedL4 (scHdr : SCION) (l4 : L4Header) (payload : List UInt8) : L4Header :=
  (l4.setPayload payload).withChksum (internetChecksum payload
    (pseudoChecksum scHdr l4 payload + ((l4.setPayload payload).withChksum 0).checksum))

/-- The bytes of a SCION header around the fields that are patched. -/
theorem bytes_eq (scHdr : SCION) :
    ∃ rest, ∀ (l4 : L4Header) (payload : List UInt8),
      scHdr.bytes = beBytes 4 (SCION.versionWord scHdr.qos scHdr.fl)
          ++ ([scHdr.nh] ++ ([scHdr.hlen] ++ (beBytes 2 scHdr.plen.toNat ++ rest))) ∧
      (patched scHdr l4 payload).bytes = beBytes 4 (SCION.versionWord scHdr.qos scHdr.fl)
          ++ ([l4.proto] ++ ([scHdr.hlen] ++
            (beBytes 2 (UInt16.ofNat (l4.size + payload.length)).toNat ++ rest))) :=
  ⟨_, fun _ _ => ⟨rfl, rfl⟩⟩

theorem resize_append (a b : List UInt8) (n : ℕ) :
    resize (a ++ b) (a.length + n) = a ++ resize b n := by
  rw [resize, resize, List.take_length_add_append, List.length_append, List.append_assoc,
    Nat.add_sub_add_left]

theorem isKnown_of_updateHeaders_eq_ok {cache : HeaderCache} {plen : UInt16} {l4 : L4Header}
    {ws ws' : WriteStream} (h : updateHeaders cache plen l4 ws = .ok () ws') :
    l4.isKnown = true := by
  obtain ⟨_, _, _, h⟩ := bind_eq_ok.mp h
  obtain ⟨_, _, _, h⟩ := bind_eq_ok.mp h
  obtain ⟨_, _, _, h⟩ := bind_eq_ok.mp h
  obtain ⟨_, _, _, h⟩ := bind_eq_ok.mp h
  obtain ⟨_, _, _, h⟩ := bind_eq_ok.mp h
  exact L4Header.isKnown_of_write_eq_ok h

/-! ### One update -/

section Step

variable {cache : HeaderCache} {scHdr : SCION} {path : PathView} {l4 l4n : L4Header}
  {payload payloadn : List UInt8}

/-- The update finds the old protocol and length where it looks. -/
theorem Caches.readOldFields (h : Caches cache scHdr path l4 payload) :
    ∃ s, readOldFields (ReadStream.ofBuffer cache.buffer) = .ok (scHdr.nh, scHdr.plen) s := by
  obtain ⟨rest, hrest⟩ := bytes_eq scHdr
  have hbuffer := h.buffer
  rw [(hrest l4 payload).1] at hbuffer
  simp only [List.append_assoc] at hbuffer
  have hplen : (ReadStream.cursor
        (beBytes 4 (SCION.versionWord scHdr.qos scHdr.fl) ++ [scHdr.nh])
        ([scHdr.hlen] ++ (beBytes 2 scHdr.plen.toNat ++ (rest ++ (path.encoded ++ l4.bytes))))).data
      = (beBytes 4 (SCION.versionWord scHdr.qos scHdr.fl) ++ [scHdr.nh] ++ [scHdr.hlen])
        ++ (beBytes 2 scHdr.plen.toNat ++ (rest ++ (path.encoded ++ l4.bytes))) := by
    simp only [ReadStream.cursor, List.append_assoc]
  have hsix : (beBytes 4 (SCION.versionWord scHdr.qos scHdr.fl) ++ [scHdr.nh]
      ++ [scHdr.hlen]).length = 6 := by
    simp
  rw [HeaderCache.readOldFields, ReadStream.seek_bind hbuffer (length_beBytes 4 _),
    bind_ok (ReadStream.reads_byte _ _ _), ReadStream.seek_bind hplen hsix,
    bind_ok (ReadStream.reads_uint16 _ _ _)]
  exact ⟨_, rfl⟩

/-- The sizes counted in the old length are taken out of it again. -/
theorem Caches.updatedLen (h : Caches cache scHdr path l4 payload) :
    updatedLen cache scHdr.plen l4n payloadn = UInt16.ofNat (l4n.size + payloadn.length) := by
  have hlen : cache.buffer.length = scHdr.size + path.size + l4.size := by
    rw [h.buffer, List.length_append, List.length_append, SCION.length_bytes,
      L4Header.length_bytes, ← add_assoc]
    rfl
  have hoffset := h.l4Offset
  have hlt := cache.l4Offset.toNat_lt
  apply UInt16.toNat_inj.mp
  rw [HeaderCache.updatedLen, h.plen, h.payloadSize, hlen]
  simp only [UInt16.toNat_add, UInt64.toNat_toUInt16, UInt64.toNat_sub, UInt16.toNat_toUInt64,
    UInt16.toNat_ofNat', UInt64.toNat_ofNat', hoffset]
  omega

/-- The headers of the old packet with the new fields written into them. -/
theorem Caches.updateHeaders (h : Caches cache scHdr path l4 payload) (payloadn : List UInt8)
    (hknown : l4n.isKnown = true) :
    updateHeaders cache (UInt16.ofNat (l4n.size + payloadn.length)) l4n
        (WriteStream.ofBuffer (resize cache.buffer (cache.l4Offset.toNat + l4n.size)))
      = .ok () (WriteStream.cursor
          ((patched scHdr l4n payloadn).bytes ++ path.encoded ++ l4n.bytes) []) := by
  obtain ⟨rest, hrest⟩ := bytes_eq scHdr
  obtain ⟨hold, hnew⟩ := hrest l4n payloadn
  set word := beBytes 4 (SCION.versionWord scHdr.qos scHdr.fl) with hword
  have hwordlen : word.length = 4 := length_beBytes 4 _
  have hsized : resize cache.buffer (cache.l4Offset.toNat + l4n.size)
      = word ++ ([scHdr.nh] ++ ([scHdr.hlen] ++ (beBytes 2 scHdr.plen.toNat ++
          (rest ++ (path.encoded ++ resize l4.bytes l4n.size))))) := by
    have hoffset : cache.l4Offset.toNat = (scHdr.bytes ++ path.encoded).length := by
      rw [h.l4Offset, List.length_append, SCION.length_bytes]
      rfl
    rw [h.buffer, ← List.append_assoc, hoffset, resize_append, hold]
    simp only [List.append_assoc]
  set tail := rest ++ (path.encoded ++ resize l4.bytes l4n.size) with htail
  set plen := UInt16.ofNat (l4n.size + payloadn.length) with hplen
  -- the length at offset 6, the protocol at offset 4, the transport header at the end
  have hdata₁ : (WriteStream.ofBuffer (resize cache.buffer
        (cache.l4Offset.toNat + l4n.size))).data
      = (word ++ ([scHdr.nh] ++ [scHdr.hlen])) ++ (beBytes 2 scHdr.plen.toNat ++ tail) := by
    rw [hsized, WriteStream.ofBuffer]
    simp only [List.append_assoc]
  have hsix : (word ++ ([scHdr.nh] ++ [scHdr.hlen])).length = 6 := by
    simp [hwordlen]
  have hdata₂ : (WriteStream.cursor (word ++ ([scHdr.nh] ++ [scHdr.hlen]) ++ beBytes 2 plen.toNat)
        tail).data
      = word ++ ([scHdr.nh] ++ ([scHdr.hlen] ++ (beBytes 2 plen.toNat ++ tail))) := by
    simp only [WriteStream.cursor, List.append_assoc]
  have hfour : word.length = cache.nhOffset.toNat := by
    rw [h.nhOffset, hwordlen]
    rfl
  have hdata₃ : (WriteStream.cursor (word ++ [l4n.proto])
        ([scHdr.hlen] ++ (beBytes 2 plen.toNat ++ tail))).data
      = ((patched scHdr l4n payloadn).bytes ++ path.encoded)
        ++ (resize l4.bytes l4n.size ++ []) := by
    rw [hnew, htail]
    simp only [WriteStream.cursor, List.append_assoc, List.append_nil]
  have hend : ((patched scHdr l4n payloadn).bytes ++ path.encoded).length
      = cache.l4Offset.toNat := by
    rw [h.l4Offset, List.length_append, SCION.length_bytes]
    rfl
  have hbytes : (resize l4.bytes l4n.size).length = l4n.bytes.length := by
    rw [length_resize, L4Header.length_bytes]
  rw [HeaderCache.updateHeaders, WriteStream.seek_bind hdata₁ hsix,
    bind_ok (WriteStream.writes_replace (WriteStream.writes_uint16 plen) (by simp) _ _),
    WriteStream.seek_bind hdata₂ hfour,
    bind_ok (WriteStream.writes_replace (WriteStream.writes_byte l4n.proto) (by simp) _ _),
    WriteStream.seek_bind hdata₃ hend,
    WriteStream.writes_replace (L4Header.writes hknown) hbytes]

@[simp] theorem size_updatedL4 : (updatedL4 scHdr l4n payloadn).size = l4n.size := by
  simp [updatedL4]

@[simp] theorem proto_updatedL4 : (updatedL4 scHdr l4n payloadn).proto = l4n.proto := by
  simp [updatedL4]

@[simp] theorem isKnown_updatedL4 : (updatedL4 scHdr l4n payloadn).isKnown = l4n.isKnown := by
  simp [updatedL4]

/-- What an update does, but for the writing. -/
theorem Caches.updatePayload_eq (h : Caches cache scHdr path l4 payload) :
    cache.updatePayload l4n payloadn =
      match HeaderCache.updateHeaders cache (UInt16.ofNat (l4n.size + payloadn.length))
          (updatedL4 scHdr l4n payloadn)
          (WriteStream.ofBuffer (resize cache.buffer (cache.l4Offset.toNat + l4n.size))) with
      | .error _ _ => .error .logicError
      | .ok _ ws => .ok (⟨pseudoChecksum scHdr l4n payloadn, UInt16.ofNat payloadn.length,
          cache.nhOffset, cache.l4Offset, ws.data⟩, updatedL4 scHdr l4n payloadn) := by
  obtain ⟨s, hread⟩ := h.readOldFields
  -- the old protocol and length are taken out of the sum, the new ones added
  have hsum : cache.scionHdrChksum + (l4n.proto.toUInt32 - scHdr.nh.toUInt32)
        + ((UInt16.ofNat (l4n.size + payloadn.length)).toUInt32 - scHdr.plen.toUInt32)
      = pseudoChecksum scHdr l4n payloadn := by
    rw [h.scionHdrChksum, pseudoChecksum, pseudoChecksum, SCION.checksum, SCION.checksum, h.nh,
      h.plen]
    grind
  rw [HeaderCache.updatePayload, hread]
  simp only [h.updatedLen, L4Header.proto_setPayload, L4Header.withChksum_withChksum,
    L4Header.size_withChksum, L4Header.size_setPayload, hsum]
  rfl

/-- One update replaces transport header and payload and keeps the invariant;
it succeeds exactly for a header that can be written. -/
theorem Caches.updatePayload_eq_ok_iff (h : Caches cache scHdr path l4 payload)
    {r : HeaderCache × L4Header} :
    cache.updatePayload l4n payloadn = .ok r ↔ l4n.isKnown = true ∧
      r = (⟨pseudoChecksum scHdr l4n payloadn, UInt16.ofNat payloadn.length, cache.nhOffset,
        cache.l4Offset, (patched scHdr l4n payloadn).bytes ++ (path.encoded ++
          (updatedL4 scHdr l4n payloadn).bytes)⟩, updatedL4 scHdr l4n payloadn) := by
  rw [h.updatePayload_eq]
  by_cases hknown : l4n.isKnown = true
  · have hknown' : (updatedL4 scHdr l4n payloadn).isKnown = true := isKnown_updatedL4.trans hknown
    have hwrite := h.updateHeaders payloadn hknown'
    have hpatched : patched scHdr (updatedL4 scHdr l4n payloadn) payloadn
        = patched scHdr l4n payloadn := by
      rw [patched, patched, size_updatedL4, proto_updatedL4]
    rw [size_updatedL4, hpatched] at hwrite
    rw [hwrite]
    simp only [WriteStream.cursor, List.append_assoc, List.append_nil]
    constructor
    · intro hr
      exact ⟨hknown, (Except.ok.inj hr).symm⟩
    · rintro ⟨_, rfl⟩
      rfl
  · constructor
    · intro hr
      rcases hwrite : HeaderCache.updateHeaders cache (UInt16.ofNat (l4n.size + payloadn.length))
          (updatedL4 scHdr l4n payloadn)
          (WriteStream.ofBuffer (resize cache.buffer (cache.l4Offset.toNat + l4n.size)))
        with ⟨u, ws⟩ | ⟨e, ws⟩
      · exact absurd (isKnown_updatedL4.symm.trans (isKnown_of_updateHeaders_eq_ok hwrite)) hknown
      · rw [hwrite] at hr
        cases hr
    · rintro ⟨hk, _⟩
      exact absurd hk hknown

theorem Caches.updatePayload (h : Caches cache scHdr path l4 payload)
    {cache' : HeaderCache} {l4' : L4Header}
    (hok : cache.updatePayload l4n payloadn = .ok (cache', l4')) :
    l4' = updatedL4 scHdr l4n payloadn ∧ l4n.isKnown = true ∧
      Caches cache' (patched scHdr l4n payloadn) path l4' payloadn := by
  obtain ⟨hknown, hr⟩ := h.updatePayload_eq_ok_iff.mp hok
  cases hr
  refine ⟨rfl, hknown, rfl, h.nhOffset, h.l4Offset, rfl, ?_, ?_, ?_⟩
  · rw [pseudoChecksum, pseudoChecksum, size_updatedL4, proto_updatedL4]
    rfl
  · rw [proto_updatedL4]
    rfl
  · rw [size_updatedL4]
    rfl

end Step

/-! ### Any number of updates -/

/-- The headers after at least one update are those of the last. -/
theorem Caches.updateAll {updates : List (L4Header × List UInt8)} {cache cache' : HeaderCache}
    {scHdr : SCION} {path : PathView} {l4 : L4Header} {payload : List UInt8}
    (h : Caches cache scHdr path l4 payload) (update : L4Header × List UInt8)
    (hok : cache.updateAll (update :: updates) = .ok cache') :
    ∃ last, (update :: updates).getLast? = some last ∧ last.1.isKnown = true ∧
      Caches cache' (patched scHdr last.1 last.2) path (updatedL4 scHdr last.1 last.2) last.2 := by
  induction updates generalizing cache scHdr l4 payload update with
  | nil =>
    rw [HeaderCache.updateAll] at hok
    rcases hstep : cache.updatePayload update.1 update.2 with err | ⟨next, l4'⟩
    · rw [hstep] at hok
      cases hok
    · rw [hstep] at hok
      cases hok
      obtain ⟨rfl, hknown, hcaches⟩ := h.updatePayload hstep
      exact ⟨update, rfl, hknown, hcaches⟩
  | cons second updates ih =>
    rw [HeaderCache.updateAll] at hok
    rcases hstep : cache.updatePayload update.1 update.2 with err | ⟨next, l4'⟩
    · rw [hstep] at hok
      cases hok
    · rw [hstep] at hok
      obtain ⟨_, _, hcaches⟩ := h.updatePayload hstep
      obtain ⟨last, hlast, hknown, hend⟩ := ih hcaches second hok
      exact ⟨last, by rw [List.getLast?_cons_cons, hlast], hknown, hend⟩

section Build

variable {S : Type} [ExtensionClass S]
  {hash : ScIPAddress → UInt64} {murmur32 : List UInt8 → UInt32 → UInt32}
  {cache built updated : HeaderCache} {tc : UInt8} {dst src : ScIPEndpoint}
  {path : PathView} {exts : List (Extension S)} {l4 l4' : L4Header} {payload : List UInt8}
  {hbh e2e : List (List UInt8)} {updates : List (L4Header × List UInt8)}

/-- Without valid extensions there is nothing between path and transport header. -/
theorem emits_invalid (hnone : ∀ ext ∈ exts, ext.isValid = false) (pos : ℕ) :
    computeExtSize exts = (0, 0) ∧ EmitsOptions exts pos [] [] := by
  have hany : ∀ category, exts.any (Extension.isIn category) = false := by
    intro category
    rw [List.any_eq_false]
    intro ext hext
    rw [Extension.isIn, hnone ext hext]
    simp
  refine ⟨?_, ?_, ?_⟩
  · rw [computeExtSize, categorySize, categorySize, hany, hany]
    rfl
  · rw [emitted_eq_nil.mpr (hany _)]
    exact Emits.nil _ _
  · rw [emitted_eq_nil.mpr (hany _)]
    exact Emits.nil _ _

/-- What `build` leaves behind satisfies the invariant. -/
theorem caches_build (hnone : ∀ ext ∈ exts, ext.isValid = false)
    (hbuild : build hash murmur32 cache tc dst src path exts l4 payload = .ok (built, l4')) :
    extPos dst src path % 4 = 0 ∧ extPos dst src path < 1024 ∧
      Caches built (sentHeader hash murmur32 tc dst src path exts l4 payload) path l4' payload := by
  obtain ⟨hsize, hemits⟩ := emits_invalid hnone (extPos dst src path)
  obtain ⟨hknown, hmod, hlt, hr⟩ := (build_eq_ok_iff hemits).mp hbuild
  rw [hsize] at hr
  cases hr
  have hpos : extPos dst src path
      = (sentHeader hash murmur32 tc dst src path exts l4 payload).size + path.size := rfl
  have hplen : (sentHeader hash murmur32 tc dst src path exts l4 payload).plen
      = UInt16.ofNat (l4.size + payload.length) := by
    rw [sentHeader, scionHeader, hsize]
    simp
  have hnh : (sentHeader hash murmur32 tc dst src path exts l4 payload).nh = l4.proto := by
    rw [sentHeader, scionHeader, hsize]
    simp [nextHeader]
  refine ⟨hmod, hlt, rfl, rfl, ?_, rfl, ?_, ?_, ?_⟩
  · rw [← hpos]
    show (UInt16.ofNat (extPos dst src path + 0 + 0)).toNat = _
    rw [UInt16.toNat_ofNat']
    omega
  · rw [pseudoChecksum, pseudoChecksum, size_sentL4, proto_sentL4, size_prepareL4,
      proto_prepareL4]
  · rw [hnh, proto_sentL4]
  · rw [hplen, size_sentL4]

/-- The flow label is in the last 20 bits of the first word. -/
theorem sameButFlowLabel_bytes (scHdr : SCION) (fl : UInt32) (rest : List UInt8) :
    SameButFlowLabel (scHdr.bytes ++ rest) ({ scHdr with fl := fl }.bytes ++ rest) := by
  have hword : ∀ fl, beNat (beBytes 4 (SCION.versionWord scHdr.qos fl)) / 2 ^ 20
      = scHdr.qos.toNat := by
    intro fl
    have hlt := SCION.versionWord_lt scHdr.qos fl
    rw [beNat_beBytes, Nat.mod_eq_of_lt (by norm_num; omega), SCION.versionWord]
    omega
  have hbytes : ∀ fl, { scHdr with fl := fl }.bytes
      = beBytes 4 (SCION.versionWord scHdr.qos fl) ++ scHdr.bytes.drop 4 := by
    intro fl
    rw [SCION.bytes, SCION.bytes, List.drop_left' (length_beBytes 4 _)]
  have hsame : ∀ fl, beNat (({ scHdr with fl := fl }.bytes ++ rest).take 4) / 2 ^ 20
        = scHdr.qos.toNat ∧
      ({ scHdr with fl := fl }.bytes ++ rest).drop 4 = scHdr.bytes.drop 4 ++ rest := by
    intro fl
    rw [hbytes, List.append_assoc, List.take_left' (length_beBytes 4 _),
      List.drop_left' (length_beBytes 4 _)]
    exact ⟨hword fl, rfl⟩
  exact ⟨(hsame scHdr.fl).1.trans (hsame fl).1.symm, (hsame scHdr.fl).2.trans (hsame fl).2.symm⟩

/-! ### The route -/

/-- The fields of the SCION header that updates leave alone are those of the route. -/
structure ForRoute (scHdr : SCION) (tc : UInt8) (dst src : ScIPEndpoint) (path : PathView) :
    Prop where
  qos : scHdr.qos = tc
  hlen : scHdr.hlen = UInt8.ofNat (extPos dst src path / 4)
  ptype : scHdr.ptype = path.type
  dst : scHdr.dst = dst.address
  src : scHdr.src = src.address

theorem forRoute_sentHeader :
    ForRoute (sentHeader hash murmur32 tc dst src path exts l4 payload) tc dst src path :=
  ⟨rfl, rfl, rfl, rfl, rfl⟩

theorem ForRoute.patched {scHdr : SCION} (h : ForRoute scHdr tc dst src path) (l4 : L4Header)
    (payload : List UInt8) : ForRoute (patched scHdr l4 payload) tc dst src path :=
  ⟨h.qos, h.hlen, h.ptype, h.dst, h.src⟩

/-- A patched header is the header of a fresh build but for the flow label. -/
theorem ForRoute.sentHeader_eq {scHdr : SCION} (h : ForRoute scHdr tc dst src path)
    (hnone : ∀ ext ∈ exts, ext.isValid = false) (l4 : L4Header) (payload : List UInt8) :
    sentHeader hash murmur32 tc dst src path exts l4 payload
      = { HeaderCache.patched scHdr l4 payload with
          fl := (sentHeader hash murmur32 tc dst src path exts l4 payload).fl } := by
  have hsize := (emits_invalid hnone (extPos dst src path)).1
  simp only [HeaderCache.patched, h.qos, h.hlen, h.ptype, h.dst, h.src]
  simp only [sentHeader, scionHeader, hsize, nextHeader, gt_iff_lt, lt_self_iff_false, if_false,
    proto_prepareL4, size_prepareL4, add_zero, zero_add]
  rfl

/-- The last header as it is sent does not depend on how it got there. -/
theorem updatedL4_eq_sentL4 {scHdr : SCION} (hdst : scHdr.dst = dst.address)
    (hsrc : scHdr.src = src.address) (hports : l4.withPorts src.port dst.port = l4)
    (hzero : l4.chksum = 0) :
    updatedL4 scHdr l4 payload = sentL4 hash murmur32 tc dst src path exts l4 payload := by
  have hprepare : prepareL4 dst src l4 payload = l4.setPayload payload := by
    rw [prepareL4, hports]
  have hchk : (l4.setPayload payload).withChksum 0 = l4.setPayload payload :=
    L4Header.withChksum_chksum (by rw [L4Header.chksum_setPayload, hzero])
  have hpseudo : pseudoChecksum scHdr l4 payload
      = pseudoChecksum (sentHeader hash murmur32 tc dst src path exts l4 payload)
          (l4.setPayload payload) payload := by
    rw [pseudoChecksum, pseudoChecksum, SCION.checksum, SCION.checksum, hdst, hsrc,
      L4Header.size_setPayload, L4Header.proto_setPayload]
    rfl
  rw [updatedL4, hchk, hpseudo, sentL4, hprepare, checksum]

/-- The cache holds the headers of a packet on the route. -/
structure Holds (cache : HeaderCache) (tc : UInt8) (dst src : ScIPEndpoint) (path : PathView) :
    Prop where
  packet : ∃ scHdr l4 payload, Caches cache scHdr path l4 payload ∧
    ForRoute scHdr tc dst src path
  aligned : extPos dst src path % 4 = 0
  bounded : extPos dst src path < 1024

theorem holds_build (hnone : ∀ ext ∈ exts, ext.isValid = false)
    (hbuild : build hash murmur32 cache tc dst src path exts l4 payload = .ok (built, l4')) :
    Holds built tc dst src path := by
  obtain ⟨hmod, hlt, hcaches⟩ := caches_build hnone hbuild
  exact ⟨⟨_, _, _, hcaches, forRoute_sentHeader⟩, hmod, hlt⟩

/-- An update does not leave the route. -/
theorem Holds.updatePayload (h : Holds cache tc dst src path)
    (hupdate : cache.updatePayload l4 payload = .ok (updated, l4')) :
    Holds updated tc dst src path := by
  obtain ⟨⟨scHdr, l4₀, payload₀, hcaches, hroute⟩, hmod, hlt⟩ := h
  obtain ⟨-, -, hcaches'⟩ := hcaches.updatePayload hupdate
  exact ⟨⟨_, _, _, hcaches', hroute.patched l4 payload⟩, hmod, hlt⟩

theorem Holds.exists_updatePayload (h : Holds cache tc dst src path) (hknown : l4.isKnown = true)
    (payload : List UInt8) :
    ∃ updated l4', cache.updatePayload l4 payload = .ok (updated, l4') := by
  obtain ⟨⟨scHdr, l4₀, payload₀, hcaches, hroute⟩, -, -⟩ := h
  exact ⟨_, _, hcaches.updatePayload_eq_ok_iff.mpr ⟨hknown, rfl⟩⟩

/-- What a route can be built for does not depend on the packet. -/
theorem Holds.exists_build (h : Holds cache tc dst src path)
    (hnone : ∀ ext ∈ exts, ext.isValid = false) (hknown : l4.isKnown = true)
    (cache₀ : HeaderCache) (payload : List UInt8) :
    ∃ fresh l4', build hash murmur32 cache₀ tc dst src path exts l4 payload = .ok (fresh, l4') := by
  have hemits := (emits_invalid hnone (extPos dst src path)).2
  exact ⟨_, _, (build_eq_ok_iff hemits).mpr ⟨hknown, h.aligned, h.bounded, rfl⟩⟩

/-- Headers that differ in the flow label are followed by the same bytes. -/
theorem sameButFlowLabel_bytes_iff (scHdr : SCION) (fl : UInt32) (rest rest' : List UInt8) :
    SameButFlowLabel (scHdr.bytes ++ rest) ({ scHdr with fl := fl }.bytes ++ rest') ↔
      rest = rest' := by
  constructor
  · rintro ⟨-, hdrop⟩
    have hlen : ∀ scHdr : SCION, 4 ≤ scHdr.bytes.length := by
      intro scHdr
      rw [SCION.length_bytes, SCION.size]
      omega
    have hsame := (sameButFlowLabel_bytes scHdr fl rest').2
    rw [← hdrop, List.drop_append_of_le_length (hlen scHdr),
      List.drop_append_of_le_length (hlen scHdr)] at hsame
    exact (List.append_cancel_left hsame).symm
  · rintro rfl
    exact sameButFlowLabel_bytes scHdr fl rest

theorem Holds.four_le_length (h : Holds cache tc dst src path) : 4 ≤ cache.buffer.length := by
  obtain ⟨scHdr, l4, payload, hcaches, -⟩ := h.packet
  rw [hcaches.buffer, List.length_append, SCION.length_bytes, SCION.size]
  omega

/-- The payload behind the headers is not compared. -/
theorem sameButFlowLabel_append_iff {a b : List UInt8} (ha : 4 ≤ a.length) (hb : 4 ≤ b.length)
    (payload : List UInt8) :
    SameButFlowLabel (a ++ payload) (b ++ payload) ↔ SameButFlowLabel a b := by
  rw [SameButFlowLabel, SameButFlowLabel, List.take_append_of_le_length ha,
    List.take_append_of_le_length hb, List.drop_append_of_le_length ha,
    List.drop_append_of_le_length hb, List.append_cancel_right_eq]

/-- An update with other ports than those of the route is not what a build sends. -/
theorem Holds.sameButFlowLabel_iff {sport dport : UInt16} {fresh : HeaderCache} {l4'' : L4Header}
    (h : Holds cache tc dst src path) (hnone : ∀ ext ∈ exts, ext.isValid = false)
    (hupdate : cache.updatePayload (.udp ⟨sport, dport, 0, 0⟩) payload = .ok (updated, l4'))
    (hbuild : build hash murmur32 built tc dst src path exts (.udp ⟨0, 0, 0, 0⟩) payload
      = .ok (fresh, l4'')) :
    SameButFlowLabel updated.buffer fresh.buffer ↔ sport = src.port ∧ dport = dst.port := by
  obtain ⟨⟨scHdr, l4₀, payload₀, hcaches, hroute⟩, hmod, hlt⟩ := h
  obtain ⟨hsize, hemits⟩ := emits_invalid hnone (extPos dst src path)
  obtain ⟨-, hupdated⟩ := hcaches.updatePayload_eq_ok_iff.mp hupdate
  obtain ⟨-, -, -, hfresh⟩ := (build_eq_ok_iff hemits).mp hbuild
  cases hupdated
  cases hfresh
  set bytes := (updatedL4 scHdr (.udp ⟨sport, dport, 0, 0⟩) payload).bytes with hbytes
  -- the given ports do not matter to a build
  have hports : ∀ sport dport : UInt16,
      sentL4 hash murmur32 tc dst src path exts (.udp ⟨sport, dport, 0, 0⟩) payload
        = sentL4 hash murmur32 tc dst src path exts (.udp ⟨0, 0, 0, 0⟩) payload := by
    intro sport dport
    rfl
  rw [hsize]
  show SameButFlowLabel ((patched scHdr (.udp ⟨sport, dport, 0, 0⟩) payload).bytes
      ++ (path.encoded ++ bytes))
    ((sentHeader hash murmur32 tc dst src path exts (.udp ⟨0, 0, 0, 0⟩) payload).bytes
      ++ (path.encoded ++ (sentL4 hash murmur32 tc dst src path exts (.udp ⟨0, 0, 0, 0⟩)
        payload).bytes)) ↔ _
  rw [hroute.sentHeader_eq hnone (.udp ⟨0, 0, 0, 0⟩) payload]
  refine (sameButFlowLabel_bytes_iff _ _ _ _).trans ?_
  rw [List.append_cancel_left_eq]
  constructor
  · intro heq
    obtain ⟨hsport, hrest⟩ := List.append_inj heq (by simp only [length_beBytes])
    obtain ⟨hdport, -⟩ := List.append_inj hrest (by simp only [length_beBytes])
    have hport : ∀ a b : UInt16, beBytes 2 a.toNat = beBytes 2 b.toNat → a = b := by
      intro a b hab
      have hnat := congrArg beNat hab
      rw [beNat_beBytes, beNat_beBytes] at hnat
      apply UInt16.toNat_inj.mp
      have ha := a.toNat_lt
      have hb := b.toNat_lt
      omega
    exact ⟨hport _ _ hsport, hport _ _ hdport⟩
  · rintro ⟨rfl, rfl⟩
    have hl4 : updatedL4 scHdr (.udp ⟨src.port, dst.port, 0, 0⟩) payload
        = sentL4 hash murmur32 tc dst src path exts (.udp ⟨src.port, dst.port, 0, 0⟩) payload :=
      updatedL4_eq_sentL4 hroute.dst hroute.src rfl rfl
    rw [hbytes, hl4, hports]

/-- After any number of updates the headers are those of a fresh build with the
last transport header and payload but for the flow label, if there was no update,
or no valid extension was built in and the last header has a zero checksum. -/
theorem updateAll_eq_build (cache₀ : HeaderCache) (hemits : EmitsOptions exts (extPos dst src path) hbh e2e)
    (hbuild : build hash murmur32 cache tc dst src path exts l4 payload = .ok (built, l4'))
    (hrun : built.updateAll updates = .ok updated)
    (hports : ∀ u ∈ updates, u.1.withPorts src.port dst.port = u.1)
    (hcond : ∀ u, updates.getLast? = some u →
      (∀ ext ∈ exts, ext.isValid = false) ∧ u.1.chksum = 0) :
    ∃ fresh l4'', build hash murmur32 cache₀ tc dst src path exts
        (updates.getLast?.getD (l4, payload)).1 (updates.getLast?.getD (l4, payload)).2
          = .ok (fresh, l4'') ∧
      SameButFlowLabel updated.buffer fresh.buffer := by
  cases updates with
  | nil =>
    cases hrun
    exact ⟨built, l4', (build_eq_ok_iff hemits).mpr ((build_eq_ok_iff hemits).mp hbuild),
      rfl, rfl⟩
  | cons update updates =>
    obtain ⟨u, hu⟩ : ∃ u, (update :: updates).getLast? = some u :=
      ⟨_, List.getLast?_eq_getLast_of_ne_nil (List.cons_ne_nil _ _)⟩
    obtain ⟨hnone, hzero⟩ := hcond u hu
    obtain ⟨hmod, hlt, hcaches⟩ := caches_build hnone hbuild
    obtain ⟨last, hlast, hknown, hend⟩ := hcaches.updateAll update hrun
    obtain rfl : last = u := Option.some.inj (hlast.symm.trans hu)
    obtain ⟨hsize, hemits'⟩ := emits_invalid hnone (extPos dst src path)
    have hroute : ForRoute (sentHeader hash murmur32 tc dst src path exts l4 payload) tc dst src
        path := forRoute_sentHeader
    have hmem := List.mem_of_getLast? hu
    rw [hu, Option.getD_some]
    refine ⟨_, _, (build_eq_ok_iff hemits').mpr ⟨hknown, hmod, hlt, rfl⟩, ?_⟩
    have hl4 : updatedL4 (sentHeader hash murmur32 tc dst src path exts l4 payload) last.1 last.2
        = sentL4 hash murmur32 tc dst src path exts last.1 last.2 :=
      updatedL4_eq_sentL4 rfl rfl (hports last hmem) hzero
    rw [hend.buffer, hl4, hsize]
    show SameButFlowLabel _
      ((sentHeader hash murmur32 tc dst src path exts last.1 last.2).bytes ++ (path.encoded ++
        (sentL4 hash murmur32 tc dst src path exts last.1 last.2).bytes))
    -- the two SCION headers differ in the flow label only
    rw [hroute.sentHeader_eq hnone last.1 last.2]
    exact sameButFlowLabel_bytes _ _ _

end Build

section Datagram

open RoundTrip

/-- The header of a datagram between the endpoints. -/
def datagram : L4Header := .udp ⟨3000, 5000, 0, 0⟩

/-- One update of a cache without extensions. -/
theorem updateAll_eq_build_datagram :
    ∃ built l4' updated fresh l4'',
      build (fun _ => 0) (fun _ _ => 0) HeaderCache.init 0 (endpoint 1 5000) (endpoint 2 3000)
        emptyPath ([] : List (Extension PlainOption)) (.udp udp) [1, 2] = .ok (built, l4') ∧
      built.updateAll [(datagram, [3])] = .ok updated ∧
      build (fun _ => 0) (fun _ _ => 0) HeaderCache.init 0 (endpoint 1 5000) (endpoint 2 3000)
        emptyPath ([] : List (Extension PlainOption)) datagram [3] = .ok (fresh, l4'') ∧
      SameButFlowLabel updated.buffer fresh.buffer := by
  have hnone : ∀ ext ∈ ([] : List (Extension PlainOption)), ext.isValid = false := by simp
  have hemits : EmitsOptions ([] : List (Extension PlainOption))
      (extPos (endpoint 1 5000) (endpoint 2 3000) emptyPath) [] [] :=
    (emits_invalid hnone _).2
  obtain ⟨⟨built, l4'⟩, hbuild⟩ : ∃ r, build (fun _ => 0) (fun _ _ => 0) HeaderCache.init 0
      (endpoint 1 5000) (endpoint 2 3000) emptyPath ([] : List (Extension PlainOption)) (.udp udp)
        [1, 2] = .ok r :=
    ⟨_, (build_eq_ok_iff hemits).mpr ⟨rfl, by decide, by decide, rfl⟩⟩
  obtain ⟨updated, hrun⟩ : ∃ updated, built.updateAll [(datagram, [3])] = .ok updated := by
    have hstep := (caches_build hnone hbuild).2.2.updatePayload_eq_ok_iff.mpr
      (⟨rfl, rfl⟩ : datagram.isKnown = true ∧ _ = (_, updatedL4 _ datagram [3]))
    exact ⟨_, by rw [updateAll, hstep]; rfl⟩
  obtain ⟨fresh, l4'', hfresh, hsame⟩ := updateAll_eq_build HeaderCache.init hemits
    hbuild hrun (by decide) (by decide)
  exact ⟨built, l4', updated, fresh, l4'', hbuild, hrun, hfresh, hsame⟩

/-- With an end-to-end extension an update with the same header and payload
changes the checksum: the sum of the pseudo header is corrected by the type of
the options header, which stands at offset 4, in place of the old protocol. -/
theorem not_forall_updateAll_eq_build :
    ¬ ∀ (S : Type) (_ : ExtensionClass S) (hash : ScIPAddress → UInt64)
        (murmur32 : List UInt8 → UInt32 → UInt32) (cache cache₀ built updated : HeaderCache)
        (tc : UInt8) (dst src : ScIPEndpoint) (path : PathView) (exts : List (Extension S))
        (l4 l4' : L4Header) (payload : List UInt8) (hbh e2e : List (List UInt8))
        (updates : List (L4Header × List UInt8)),
      (∀ ext ∈ exts, ext.isValid = true) → EmitsOptions exts (extPos dst src path) hbh e2e →
      build hash murmur32 cache tc dst src path exts l4 payload = .ok (built, l4') →
      built.updateAll updates = .ok updated →
      (∀ u ∈ updates, u.1.withPorts src.port dst.port = u.1) →
      ∃ fresh l4'', build hash murmur32 cache₀ tc dst src path exts
          (updates.getLast?.getD (l4, payload)).1 (updates.getLast?.getD (l4, payload)).2
            = .ok (fresh, l4'') ∧
        SameButFlowLabel updated.buffer fresh.buffer := by
  intro h
  have hrun : (match build (fun _ => 0) (fun _ _ => 0) HeaderCache.init 0 (endpoint 1 5000)
        (endpoint 2 3000) emptyPath [option .endToEnd 241] datagram [1, 2] with
      | .error _ => true
      | .ok (built, _) =>
        match built.updateAll [(datagram, [1, 2])] with
        | .error _ => true
        | .ok updated => decide (SameButFlowLabel updated.buffer built.buffer)) = false := by
    decide +kernel
  rcases hbuild : build (fun _ => 0) (fun _ _ => 0) HeaderCache.init 0 (endpoint 1 5000)
      (endpoint 2 3000) emptyPath [option .endToEnd 241] datagram [1, 2] with err | ⟨built, l4'⟩
  · rw [hbuild] at hrun
    cases hrun
  rcases hupdate : built.updateAll [(datagram, [1, 2])] with err | updated
  · simp [hbuild, hupdate] at hrun
  · simp only [hbuild, hupdate, decide_eq_false_iff_not] at hrun
    obtain ⟨fresh, l4'', hfresh, hsame⟩ := h PlainOption inferInstance (fun _ => 0) (fun _ _ => 0)
      HeaderCache.init HeaderCache.init built updated 0 (endpoint 1 5000) (endpoint 2 3000)
      emptyPath [option .endToEnd 241] datagram l4' [1, 2] [] [[241, 0]] [(datagram, [1, 2])]
      (by decide) (emits_one _) hbuild hupdate (by decide)
    -- the fresh build is the first one again
    cases hbuild.symm.trans hfresh
    exact hrun hsame

end Datagram

end HeaderCache

end Scion
