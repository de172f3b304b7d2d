/-
What an SCMP message about a packet that was too big does to the records
(`scmp/path_mtu.hpp`, `socket/header_cache.hpp`).

The key of a record is computed from a path object, the key of a quote from the bytes of
a packet that routers have changed.

* `InFlight` — the path of a packet on its way;
* `rawHops_inFlight` — the hops stay the same;
* `lowers_iff` — the record of the sender, and no other, is lowered, unless the record was
  made for a `DecodedScionPath`.
-/
import Scion.HeaderCache
import Scion.PathMtu

namespace Scion

open BigEndian Codec HeaderCache Neighbours

/-! ### Paths on their way -/

/-- The current indices and the segment identifiers of a path may change on the way. -/
structure InFlight (sent received : List UInt8) (mb mb' : List UInt8)
    (ics ics' hcs : List (List UInt8)) : Prop where
  sent : DecodedScionPath.Layout sent mb ics hcs
  received : DecodedScionPath.Layout received mb' ics' hcs
  segments : ∃ currInf currHf, PathMeta.ofBytes mb'
    = { PathMeta.ofBytes mb with currInf := currInf, currHf := currHf }
  infos : List.Forall₂ (fun c c' => ∃ segid, InfoField.ofBytes c'
    = { InfoField.ofBytes c with segid := segid }) ics ics'

/-- The masks do not depend on what changes. -/
theorem masks_inFlight {m m' : PathMeta} (hm : ∀ i, m'.segLen i = m.segLen i)
    {ics ics' : List (List UInt8)}
    (hinfos : List.Forall₂ (fun c c' => ∃ segid, InfoField.ofBytes c'
      = { InfoField.ofBytes c with segid := segid }) ics ics') :
    ∀ (i sum : ℕ) (hopDir segChange : UInt64),
      hopDirMask m' (ics'.map InfoField.ofBytes) i sum hopDir
        = hopDirMask m (ics.map InfoField.ofBytes) i sum hopDir ∧
      rawSegChange m' (ics'.map InfoField.ofBytes) i sum segChange
        = rawSegChange m (ics.map InfoField.ofBytes) i sum segChange := by
  induction hinfos with
  | nil => exact fun _ _ _ _ => ⟨rfl, rfl⟩
  | cons hinfo _ ih =>
    intro i sum hopDir segChange
    obtain ⟨segid, hinfo⟩ := hinfo
    rw [List.map_cons, List.map_cons, hopDirMask, hopDirMask, rawSegChange, rawSegChange, hinfo, hm]
    exact ⟨(ih _ _ _ 0).1, (ih _ _ 0 _).2⟩

/-- The hops of a path stay the same on the way, and there are fewer than hop fields. -/
theorem rawHops_inFlight {sent received mb mb' : List UInt8} {ics ics' hcs : List (List UInt8)}
    (h : InFlight sent received mb mb' ics ics' hcs) :
    rawHops PathType.scion received = rawHops PathType.scion sent ∧
      (rawHops PathType.scion sent).length < hcs.length := by
  have hseg : ∀ i, (PathMeta.ofBytes mb').segLen i = (PathMeta.ofBytes mb).segLen i := by
    obtain ⟨currInf, currHf, heq⟩ := h.segments
    intro i
    rw [heq]
    rfl
  obtain ⟨hdir, hchange⟩ := masks_inFlight hseg h.infos 0 0 0 0
  obtain ⟨first, others, hids, hlen, hzero⟩ := exists_orient h.sent
  have hsent := rawHops_layout h.sent
    (rfl : _ = DecodedScionPath.ofLayout ⟨0⟩ ⟨0⟩ mb ics hcs) first others hids hzero
  have hreceived := rawHops_layout h.received
    (rfl : _ = DecodedScionPath.ofLayout ⟨0⟩ ⟨0⟩ mb' ics' hcs) first others
    ((congrArg (fun dir => orient dir 0 (hcs.map HopField.ofBytes)) hdir).trans hids)
    ((congrArg (fun mask => testMask mask 0) hchange).trans hzero)
  refine ⟨?_, ?_⟩
  · rw [hsent, hreceived]
    simp only [DecodedScionPath.ofLayout, hchange]
  · rw [hsent, ← keepJoints_eq_filter, List.length_map]
    refine Nat.lt_of_le_of_lt (List.length_filter_le _ _) ?_
    rw [List.length_zipIdx, List.length_zipWith, List.length_cons]
    omega

/-! ### Keys -/

namespace PathObject

def lastAS : PathObject → IsdAsn
  | raw ops => (rawContents ops).destination
  | path _ destination .. => destination
  | decoded p => p.destination

/-- The key of the record for a host. -/
def record (murmur : List UInt8 → UInt32 → UInt64 × UInt64) (randomSeed : UInt32) (p : PathObject)
    (host : IPAddress) : Destination :=
  ⟨⟨p.lastAS, host⟩, p.digest murmur randomSeed⟩

end PathObject

/-- What the paths of the packets are: a standard path with 2 to 64 hop fields, or an empty
path. The bytes may differ when the packet is quoted. -/
inductive Forwarded (type : PathType) (sent received : List UInt8) : Prop
  | standard (type_eq : type = PathType.scion) (mb mb' : List UInt8)
      (ics ics' hcs : List (List UInt8)) (inFlight : InFlight sent received mb mb' ics ics' hcs)
      (two_le : 2 ≤ hcs.length) (le_64 : hcs.length ≤ 64)
  | empty (type_eq : type = PathType.empty) (sent_eq : sent = []) (received_eq : received = [])

namespace Forwarded

variable {type : PathType} {sent received : List UInt8}

theorem rawHops_eq (h : Forwarded type sent received) :
    rawHops type received = rawHops type sent ∧ (rawHops type sent).length < 64 := by
  cases h with
  | standard htype mb mb' ics ics' hcs hflight htwo hmax =>
    obtain ⟨heq, hlt⟩ := rawHops_inFlight hflight
    rw [htype]
    exact ⟨heq, by omega⟩
  | empty htype hsent hreceived =>
    rw [htype, hsent, hreceived]
    exact ⟨rfl, by decide⟩

theorem length_eq (h : Forwarded type sent received) : received.length = sent.length := by
  cases h with
  | standard _ mb mb' ics ics' hcs hflight _ _ =>
    obtain ⟨⟨hsent, hmb, -, -, h8, h12, -⟩, ⟨hreceived, hmb', -, -, h8', -, -⟩, -, hinfos⟩ := hflight
    rw [hsent, hreceived]
    simp only [List.length_append, hmb, hmb', Records.length_flatten h8, Records.length_flatten h8',
      hinfos.length_eq]
  | empty _ hsent hreceived => rw [hsent, hreceived]

end Forwarded

namespace PathObject

/-- The hops of an object that is not decoded are those of its bytes. -/
theorem hops_of_encodes {p : PathObject} {bytes : List UInt8} (hraw : p.isDecoded = false)
    (h : p.Encodes bytes) : p.hops = rawHops p.type bytes := by
  cases p with
  | raw ops =>
    have hbytes : (rawContents ops).encoded = bytes := h
    rw [hops, RawPathContents.hops, hbytes, type]
  | path source destination type expiry mtu nh dpPath =>
    have hbytes : dpPath = bytes := h
    rw [hops, hbytes, PathObject.type]
  | decoded p => cases hraw

/-- Every hash function gives an object and the bytes of its path on the way the same digest
exactly if the object is not a `DecodedScionPath`, which hashes 64 pairs. -/
theorem digest_eq_forwarded_iff {p : PathObject} {sent received : List UInt8}
    (hforwarded : Forwarded p.type sent received) (hencodes : p.Encodes sent) :
    (∀ murmur randomSeed, p.digest murmur randomSeed
      = computeDigest murmur randomSeed p.firstAS (rawHops p.type received)) ↔
      p.isDecoded = false := by
  obtain ⟨hsame, hlt⟩ := hforwarded.rawHops_eq
  rw [hsame]
  cases hraw : p.isDecoded with
  | false =>
    have hhops := hops_of_encodes hraw hencodes
    refine iff_of_true (fun murmur randomSeed => ?_) rfl
    rw [digest_eq murmur randomSeed (by rw [hhops]; exact hlt.le), hashedHops, hraw, hhops]
    rfl
  | true =>
    cases p with
    | raw ops => cases hraw
    | path source destination type expiry mtu nh dpPath => cases hraw
    | decoded p =>
      refine iff_of_false (fun hall => ?_) (by decide)
      have heq := (computeDigest_forall_iff p.source (fillBuffer p.hops 0 hopBuffer).1 _).mp hall
      have hlen := congrArg List.length heq
      rw [fillBuffer_fst, List.length_append, List.length_take, List.length_replicate] at hlen
      omega

end PathObject

/-! ### Quotes -/

/-- The packet is quoted from its start and past the path, which was changed on the way. -/
def Quotes (type : PathType) (header path packet quote : List UInt8) : Prop :=
  ∃ received rest k, Forwarded type path received ∧ packet = header ++ (path ++ rest) ∧
    quote = header ++ (received ++ rest.take k)

namespace PathMtuDiscoverer

variable {murmur : List UInt8 → UInt32 → UInt64 × UInt64} {randomSeed : UInt32}

/-- A header is read back from a quote, and the path behind it. -/
theorem readQuote_eq {sci : SCION} {path rest : List UInt8} (hhlen : SCION.minSize / 4 ≤ sci.hlen.toNat)
    (hsize : sci.pathSize = path.length) :
    readQuote (ReadStream.ofBuffer (sci.bytes ++ (path ++ rest)))
      = .ok (sci.onWire, path) (ReadStream.cursor sci.bytes (path ++ rest)) := by
  have hread := SCION.reads sci hhlen [] (path ++ rest)
  have hpath : sci.onWire.pathSize = path.length := by
    rw [← hsize, SCION.pathSize, SCION.pathSize, SCION.size_onWire]
    rfl
  have hahead := ReadStream.lookahead_some sci.bytes path rest path.length rfl
  rw [List.nil_append] at hread
  rw [readQuote, ReadStream.ofBuffer_eq, bind_ok hread, hpath, bind_ok hahead]
  rfl

/-- The destination of a quote. -/
theorem parseScmpPacketQuote_eq {sci : SCION} {path rest : List UInt8}
    (hhlen : SCION.minSize / 4 ≤ sci.hlen.toNat) (hsize : sci.pathSize = path.length)
    (hmax : path.length ≤ RawPathContents.maxSize) (hhops : (rawHops sci.ptype path).length ≤ 64) :
    parseScmpPacketQuote murmur randomSeed (sci.bytes ++ (path ++ rest))
      = some ⟨sci.dst.withoutZone,
          computeDigest murmur randomSeed sci.src.isdAsn (rawHops sci.ptype path)⟩ := by
  rw [parseScmpPacketQuote, readQuote_eq hhlen hsize]
  dsimp only
  rw [RawPath.assign]
  rcases hassign : RawPath.empty.toRawPathContents.assign sci.onWire.src.isdAsn sci.onWire.dst.isdAsn
    sci.onWire.ptype path with e | contents
  · rw [RawPathContents.assign, if_neg (by omega)] at hassign
    cases hassign
  · obtain ⟨hencoded, -, -⟩ := RawPathContents.encoded_of_assign hassign
    have hfields : contents.source = sci.src.isdAsn ∧ contents.type = sci.ptype := by
      rw [RawPathContents.assign, if_neg (by omega)] at hassign
      cases hassign
      exact ⟨rfl, rfl⟩
    have hfresh : (⟨contents, none⟩ : RawPath).Fresh murmur randomSeed := RawPath.fresh_of_none rfl
    have hdigest := RawPath.digest_eq hfresh
    rw [RawPathContents.hops, hencoded, hfields.1, hfields.2, List.take_of_length_le hhops] at hdigest
    exact congrArg some (congrArg (Destination.mk _) hdigest)

/-- A record with the lower of two MTUs. -/
def MtuRecord.lower {T : Type} (mtu : UInt16) (record : MtuRecord T) : MtuRecord T :=
  { record with mtu := if mtu ≤ record.mtu then mtu else record.mtu }

/-- The record of a destination is lowered if there is one, and nothing else changes. -/
def Lowers {T : Type} (dest : Destination) (mtu : UInt16) (s s' : PathMtuDiscoverer T) : Prop :=
  s'.maximumMtu = s.maximumMtu ∧ s'.capacity = s.capacity ∧
    ∀ dest', s'.mtu.find? dest' =
      if dest' = dest then (s.mtu.find? dest).map (MtuRecord.lower mtu) else s.mtu.find? dest'

section Callback

variable {S T : Type} [ExtensionClass S]
variable {hash : ScIPAddress → UInt64} {murmur32 : List UInt8 → UInt32 → UInt32}
variable {cache : HeaderCache} {r : HeaderCache × L4Header} {tc : UInt8} {dst src : ScIPEndpoint}
  {path : PathView} {exts : List (Extension S)} {l4 : L4Header} {payload quote : List UInt8}
  {hbh e2e : List (List UInt8)}

/-- The destination of a quoted packet. -/
theorem parseScmpPacketQuote_build
    (hemits : EmitsOptions exts (extPos dst src path) hbh e2e)
    (hbuild : build hash murmur32 cache tc dst src path exts l4 payload = .ok r)
    (hquote : Quotes path.type
      (sentHeader hash murmur32 tc dst src path exts l4 payload).bytes path.encoded
      (r.1.buffer ++ payload) quote) :
    ∃ received, Forwarded path.type path.encoded received ∧
      ∀ murmur randomSeed, parseScmpPacketQuote murmur randomSeed quote = some
        ⟨dst.address.withoutZone,
          computeDigest murmur randomSeed src.isdAsn (rawHops path.type received)⟩ := by
  obtain ⟨-, hmod, hlt, -⟩ := (build_eq_ok_iff hemits).mp hbuild
  obtain ⟨received, rest, k, hforwarded, -, rfl⟩ := hquote
  refine ⟨received, hforwarded, fun murmur randomSeed => ?_⟩
  obtain ⟨hsame, hhops⟩ := hforwarded.rawHops_eq
  have hlen := hforwarded.length_eq
  set sci := sentHeader hash murmur32 tc dst src path exts l4 payload with hsci
  have hhlen : sci.hlen.toNat = extPos dst src path / 4 := by
    rw [hsci, sentHeader_hlen, UInt8.toNat_ofNat']
    omega
  have hsize : sci.size + path.size = extPos dst src path := sentHeader_size_add
  have hpath : path.size = path.encoded.length := rfl
  have hmin : 36 ≤ sci.size := by
    have hhost : ∀ ip : IPAddress, 4 ≤ ip.size := by
      intro ip
      rw [IPAddress.size]
      split <;> omega
    have hdst := hhost sci.dst.host
    have hsrc := hhost sci.src.host
    rw [SCION.size, ScIPAddress.size, ScIPAddress.size, IsdAsn.size, IsdAsn.size]
    omega
  refine @parseScmpPacketQuote_eq _ _ sci _ _ ?_ ?_ ?_ ?_
  · rw [hhlen, SCION.minSize]
    omega
  · rw [SCION.pathSize, hhlen]
    omega
  · rw [hlen, RawPathContents.maxSize]
    omega
  · rw [show sci.ptype = path.type from rfl, hsame]
    exact hhops.le

/-- The message lowers the record of the destination of its quote. -/
theorem lowers_handleScmpCallback {murmur : List UInt8 → UInt32 → UInt64 × UInt64}
    {randomSeed : UInt32} (s : PathMtuDiscoverer T) {dest : Destination} (mtu : UInt16)
    (hdest : parseScmpPacketQuote murmur randomSeed quote = some dest) :
    Lowers dest mtu s (s.handleScmpCallback murmur randomSeed (.packetTooBig mtu) quote).2 := by
  have hcallback : (s.handleScmpCallback murmur randomSeed (.packetTooBig mtu) quote).2
      = (s.updateMtu dest mtu).2 := by
    rw [handleScmpCallback, mtuOf, hdest]
  rw [hcallback]
  refine ⟨maximumMtu_updateMtu s dest mtu, capacity_updateMtu s dest mtu, fun dest' => ?_⟩
  rw [find?_updateMtu]
  congr 2
  funext record
  rw [MtuRecord.lower]
  by_cases hle : mtu ≤ record.mtu
  · rw [if_pos hle, if_pos hle]
  · rw [if_neg hle, if_neg hle]

/-- A message about a packet that was too big lowers the record of its sender, whatever the
hash function and the state, exactly if the record was not made for a
`DecodedScionPath`. -/
theorem lowers_iff [Nonempty T] {p : PathObject}
    (hemits : EmitsOptions exts (extPos dst src path) hbh e2e)
    (hbuild : build hash murmur32 cache tc dst src path exts l4 payload = .ok r)
    (hsrc : src.isdAsn = p.firstAS) (hdst : dst.isdAsn = p.lastAS)
    (hzone : dst.host.withoutZone = dst.host) (htype : path.type = p.type)
    (hencodes : p.Encodes path.encoded)
    (hquote : Quotes path.type
      (sentHeader hash murmur32 tc dst src path exts l4 payload).bytes path.encoded
      (r.1.buffer ++ payload) quote) :
    (∀ murmur randomSeed (s : PathMtuDiscoverer T) mtu,
      Lowers (p.record murmur randomSeed dst.host) mtu s
        (s.handleScmpCallback murmur randomSeed (.packetTooBig mtu) quote).2) ↔
      p.isDecoded = false := by
  obtain ⟨received, hforwarded, hparse⟩ := parseScmpPacketQuote_build hemits hbuild hquote
  rw [htype] at hforwarded hparse
  rw [hsrc] at hparse
  have haddress : dst.address.withoutZone = ⟨p.lastAS, dst.host⟩ := by
    simp only [ScIPAddress.withoutZone, ScIPEndpoint.address, hdst, hzone]
  rw [haddress] at hparse
  refine Iff.trans ?_ (PathObject.digest_eq_forwarded_iff hforwarded hencodes)
  constructor
  · intro hlowers murmur randomSeed
    by_contra hdigest
    obtain ⟨t⟩ := ‹Nonempty T›
    set dest := p.record murmur randomSeed dst.host with hdest
    have hne : dest ≠ ⟨⟨p.lastAS, dst.host⟩,
        computeDigest murmur randomSeed p.firstAS (rawHops p.type received)⟩ := by
      intro heq
      exact hdigest (congrArg Destination.path heq)
    -- a state that holds the record of the sender, and no other
    let s : PathMtuDiscoverer T := ⟨0, 1, Lru.Store.empty.push dest ⟨t, 1⟩ List.not_mem_nil⟩
    have hfind : s.mtu.find? dest = some ⟨t, 1⟩ :=
      (Lru.Store.find?_push _ dest dest _ List.not_mem_nil).trans (if_pos rfl)
    obtain ⟨-, -, hlowered⟩ := hlowers murmur randomSeed s 0
    obtain ⟨-, -, hkept⟩ := lowers_handleScmpCallback s 0 (hparse murmur randomSeed)
    have hrecord := (hlowered dest).symm.trans (hkept dest)
    rw [if_pos rfl, if_neg hne, hfind, Option.map_some, Option.some.injEq] at hrecord
    have hzero : (MtuRecord.lower 0 ⟨t, 1⟩ : MtuRecord T).mtu = 0 :=
      show (if (0 : UInt16) ≤ 1 then (0 : UInt16) else 1) = 0 from if_pos (by decide)
    rw [hrecord] at hzero
    exact absurd (show (1 : UInt16) = 0 from hzero) (by decide)
  · intro hdigest murmur randomSeed s mtu
    have hrecord : p.record murmur randomSeed dst.host = ⟨⟨p.lastAS, dst.host⟩,
        computeDigest murmur randomSeed p.firstAS (rawHops p.type received)⟩ := by
      rw [PathObject.record, hdigest]
    rw [hrecord]
    exact lowers_handleScmpCallback s mtu (hparse murmur randomSeed)

end Callback

/-! ### A packet that was too big -/

def quotedPath : PathView := ⟨IsdAsn.make 1 1, PathType.scion, (twoSegmentPath 0 1).bytes⟩

def quotedDst : ScIPEndpoint := ⟨IsdAsn.make 1 2, ⟨.v4 0x0a000002, 80⟩⟩

def quotedSrc : ScIPEndpoint := ⟨IsdAsn.make 1 1, ⟨.v4 0x0a000001, 40000⟩⟩

/-- The quote ends behind the path. -/
def exampleQuote : List UInt8 :=
  (sentHeader (fun _ => 0) (fun _ _ => 0) 0 quotedDst quotedSrc quotedPath
    ([] : List (Extension PlainOption)) (.udp ⟨0, 0, 0, 0⟩) [1]).bytes ++ (quotedPath.encoded ++ [])

theorem emits_nil (pos : ℕ) : EmitsOptions ([] : List (Extension PlainOption)) pos [] [] :=
  ⟨Emits.nil _ _, Emits.nil _ _⟩

theorem forwarded_quotedPath :
    Forwarded quotedPath.type quotedPath.encoded quotedPath.encoded := by
  obtain ⟨mb, ics, hcs, hlayout, hp⟩ := DecodedScionPath.exists_layout
    (show DecodedScionPath.decode (IsdAsn.make 1 1) (IsdAsn.make 1 2) quotedPath.encoded
      = some (twoSegmentPath 0 1) by decide +kernel)
  have hlen : hcs.length = 4 := by
    have hhfs := congrArg (fun p => p.hfs.length) hp
    rw [DecodedScionPath.ofLayout, List.length_map] at hhfs
    exact hhfs.symm
  refine Forwarded.standard rfl mb mb ics ics hcs ⟨hlayout, hlayout, ⟨_, _, rfl⟩, ?_⟩
    (by omega) (by omega)
  exact List.forall₂_same.mpr fun c _ => ⟨_, rfl⟩

theorem exists_build : ∃ r, build (fun _ => 0) (fun _ _ => 0) HeaderCache.init 0 quotedDst quotedSrc
      quotedPath ([] : List (Extension PlainOption)) (.udp ⟨0, 0, 0, 0⟩) [1] = .ok r ∧
    Quotes quotedPath.type
      (sentHeader (fun _ => 0) (fun _ _ => 0) 0 quotedDst quotedSrc quotedPath
        ([] : List (Extension PlainOption)) (.udp ⟨0, 0, 0, 0⟩) [1]).bytes quotedPath.encoded
      (r.1.buffer ++ [1]) exampleQuote := by
  refine ⟨_, (build_eq_ok_iff (emits_nil _)).mpr ⟨rfl, by decide +kernel, by decide +kernel, rfl⟩, ?_⟩
  refine ⟨quotedPath.encoded, _, 0, forwarded_quotedPath,
    (List.append_assoc ..).trans (congrArg _ (List.append_assoc ..)), ?_⟩
  rw [List.take_zero]
  rfl

/-- A `Path` with these bytes. -/
def quotedObject : PathObject :=
  .path (IsdAsn.make 1 1) (IsdAsn.make 1 2) PathType.scion 0 1472 ⟨.v4 0x0a000003, 31000⟩
    quotedPath.encoded

theorem lowers_iff_quotedObject :
    (∀ murmur randomSeed (s : PathMtuDiscoverer ℕ) mtu,
      Lowers (quotedObject.record murmur randomSeed quotedDst.host) mtu s
        (s.handleScmpCallback murmur randomSeed (.packetTooBig mtu) exampleQuote).2) ↔
      quotedObject.isDecoded = false := by
  obtain ⟨r, hbuild, hquote⟩ := exists_build
  exact lowers_iff (emits_nil _) hbuild rfl rfl rfl rfl rfl hquote

/-- The record that was made for a `DecodedScionPath` stays as it was. -/
theorem not_forall_lowers :
    ¬ ∀ (p : PathObject) (hash : ScIPAddress → UInt64) (murmur32 : List UInt8 → UInt32 → UInt32)
        (cache : HeaderCache) (r : HeaderCache × L4Header) (tc : UInt8) (dst src : ScIPEndpoint)
        (path : PathView) (exts : List (Extension PlainOption)) (l4 : L4Header)
        (payload quote : List UInt8) (hbh e2e : List (List UInt8))
        (murmur : List UInt8 → UInt32 → UInt64 × UInt64) (randomSeed : UInt32)
        (s : PathMtuDiscoverer ℕ) (mtu : UInt16),
      EmitsOptions exts (extPos dst src path) hbh e2e →
      build hash murmur32 cache tc dst src path exts l4 payload = .ok r →
      src.isdAsn = p.firstAS → dst.isdAsn = p.lastAS → dst.host.withoutZone = dst.host →
      path.type = p.type → p.Encodes path.encoded →
      Quotes path.type (sentHeader hash murmur32 tc dst src path exts l4 payload).bytes
        path.encoded (r.1.buffer ++ payload) quote →
      Lowers (p.record murmur randomSeed dst.host) mtu s
        (s.handleScmpCallback murmur randomSeed (.packetTooBig mtu) quote).2 := by
  intro h
  obtain ⟨r, hbuild, hquote⟩ := exists_build
  -- the hash tells apart what is hashed by its length
  obtain ⟨-, -, hlowered⟩ := h (.decoded (twoSegmentPath 0 1)) _ _ _ r _ _ _ _ _ _ _ _ _ _
    (fun bytes _ => (UInt64.ofNat bytes.length, 0)) 0
    ((make ℕ 1500 16).getMtu (PathObject.record (fun bytes _ => (UInt64.ofNat bytes.length, 0)) 0
      (.decoded (twoSegmentPath 0 1)) quotedDst.host) 0).2 1280
    (emits_nil _) hbuild rfl rfl rfl rfl
    (show DecodedScionPath.decode (IsdAsn.make 1 1) (IsdAsn.make 1 2) quotedPath.encoded
      = some (twoSegmentPath 0 1) by decide +kernel) hquote
  have hrecord := hlowered (PathObject.record (fun bytes _ => (UInt64.ofNat bytes.length, 0)) 0
    (.decoded (twoSegmentPath 0 1)) quotedDst.host)
  exact absurd hrecord (by decide +kernel)

end PathMtuDiscoverer

end Scion
