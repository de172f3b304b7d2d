/-
Cached packet headers (`socket/header_cache.hpp`).

* `HeaderCache.build`, `HeaderCache.updatePayload` — headers from scratch, and
  patched in place for another payload;
* `headerBytes` — the headers as one byte string;
* `HeaderCache.build_eq_ok_iff` — what a successful build leaves behind: the cache
  holds exactly the headers, and the header length field is exact.
-/
import Scion.Checksum
import Scion.Extension
import Scion.Transport

namespace Scion

open BigEndian Codec

/-- What sending a packet uses of a path. -/
structure PathView where
  firstAS : IsdAsn
  type : PathType
  encoded : List UInt8
  deriving DecidableEq, Repr

namespace PathView

def size (path : PathView) : ℕ := path.encoded.length

def empty (path : PathView) : Bool := path.type == PathType.empty

end PathView

structure HeaderCache where
  scionHdrChksum : UInt32
  payloadSize : UInt16
  nhOffset : UInt16
  l4Offset : UInt16
  buffer : List UInt8
  deriving DecidableEq, Repr

/-- `std::vector::resize`. -/
def resize (buffer : List UInt8) (n : ℕ) : List UInt8 :=
  buffer.take n ++ List.replicate (n - buffer.length) 0

@[simp] theorem length_resize (buffer : List UInt8) (n : ℕ) : (resize buffer n).length = n := by
  rw [resize, List.length_append, List.length_take, List.length_replicate]
  omega

namespace HeaderCache

/-- A new cache. -/
def init : HeaderCache := ⟨0, 0, 0, 0, []⟩

section Code

variable {S : Type} [ExtensionClass S]
variable (hash : ScIPAddress → UInt64) (murmur32 : List UInt8 → UInt32 → UInt32)

/-! ### Building -/

/-- The type of the header behind the path. -/
def nextHeader (hbhExtSize e2eExtSize : ℕ) (l4 : L4Header) : ScionProto :=
  if e2eExtSize > 0 then ScionProto.e2eOpt
  else if hbhExtSize > 0 then ScionProto.hbhOpt
  else l4.proto

/-- The type of the header behind the hop-by-hop options. -/
def hbhNextHeader (e2eExtSize : ℕ) (l4 : L4Header) : ScionProto :=
  if e2eExtSize > 0 then ScionProto.e2eOpt else l4.proto

/-- `hash` is `std::hash` of addresses. -/
def computeFlowLabel (scHdr : SCION) (l4 : L4Header) : UInt32 :=
  (hash scHdr.dst ^^^ hash scHdr.src).toUInt32 ^^^ l4.flowLabel murmur32

/-- The sum of the pseudo header, kept in `m_scionHdrChksum`. -/
def pseudoChecksum (scHdr : SCION) (l4 : L4Header) (payload : List UInt8) : UInt32 :=
  scHdr.checksum (UInt16.ofNat (l4.size + payload.length)) l4.proto

def checksum (scHdr : SCION) (l4 : L4Header) (payload : List UInt8) : UInt16 :=
  internetChecksum payload (pseudoChecksum scHdr l4 payload + l4.checksum)

/-- The header in front of transport header and extensions. -/
def scionHeader (tc : UInt8) (dst src : ScIPEndpoint) (path : PathView)
    (exts : List (Extension S)) (l4 : L4Header) (payload : List UInt8) : SCION :=
  let (hbhExtSize, e2eExtSize) := computeExtSize exts
  let scHdr : SCION :=
    { qos := tc
      hlen := 0
      nh := nextHeader hbhExtSize e2eExtSize l4
      ptype := path.type
      plen := UInt16.ofNat (hbhExtSize + e2eExtSize + l4.size + payload.length)
      fl := 0
      dst := dst.address
      src := src.address }
  { scHdr with
    hlen := UInt8.ofNat ((scHdr.size + path.size) / 4)
    fl := computeFlowLabel hash murmur32 scHdr l4 }

/-- The length field of an options header of `extSize` bytes; `0 - 1` wraps
around. -/
def extLen (extSize : ℕ) : UInt8 := UInt8.ofNat (extSize / 4) - 1

/-- The options header, if there is one, and the offset of its next header
field in place of `nhOffset`. -/
def writeOptsHeader (nh : ScionProto) (extSize : ℕ) (nhOffset : UInt16) :
    EStateM String WriteStream UInt16 :=
  if extSize > 0 then do
    let pos ← WriteStream.getPos
    OptsHeader.write ⟨nh, extLen extSize⟩
    pure (UInt16.ofNat pos)
  else pure nhOffset

def writeExtensions : List (Extension S) → Writer
  | [] => pure ()
  | ext :: exts => do
    let pos ← WriteStream.getPos
    ext.write pos
    writeExtensions exts

/-- The options header and the extensions of one category; the source has this
twice. -/
def writeCategory (category : Category) (nh : ScionProto) (exts : List (Extension S))
    (nhOffset : UInt16) : EStateM String WriteStream UInt16 := do
  let nhOffset ← writeOptsHeader nh (categorySize category exts) nhOffset
  writeExtensions (emitted category exts)
  pure nhOffset

/-- The result is `m_nhOffset` and `m_l4Offset`. -/
def writeHeaders (scHdr : SCION) (path : PathView) (exts : List (Extension S)) (l4 : L4Header) :
    EStateM String WriteStream (UInt16 × UInt16) := do
  scHdr.write
  WriteStream.serializeBytes path.encoded
  let nhOffset ← writeCategory .hopByHop (hbhNextHeader (computeExtSize exts).2 l4) exts 4
  let nhOffset ← writeCategory .endToEnd l4.proto exts nhOffset
  let pos ← WriteStream.getPos
  l4.write
  pure (nhOffset, UInt16.ofNat pos)

/-- The transport header with the fields that `build` sets. -/
def prepareL4 (dst src : ScIPEndpoint) (l4 : L4Header) (payload : List UInt8) : L4Header :=
  (l4.withPorts src.port dst.port).setPayload payload

/-- Build headers from scratch. The transport header is an argument and a
result; nothing is said about the cache after an error. -/
def build (cache : HeaderCache) (tc : UInt8) (dst src : ScIPEndpoint) (path : PathView)
    (exts : List (Extension S)) (l4 : L4Header) (payload : List UInt8) :
    Maybe (HeaderCache × L4Header) :=
  let l4 := prepareL4 dst src l4 payload
  let scHdr := scionHeader hash murmur32 tc dst src path exts l4 payload
  let hdrChksum := pseudoChecksum scHdr l4 payload
  -- the checksum field still holds what the caller left there
  let l4 := l4.withChksum (checksum scHdr l4 payload)
  let size := 4 * scHdr.hlen.toNat + (computeExtSize exts).1 + (computeExtSize exts).2 + l4.size
  let ws := WriteStream.ofBuffer (resize cache.buffer size)
  match writeHeaders scHdr path exts l4 ws with
  | .error _ _ => .error .logicError
  | .ok (nhOffset, l4Offset) ws =>
    .ok (⟨hdrChksum, UInt16.ofNat payload.length, nhOffset, l4Offset, ws.data⟩, l4)

/-! ### Updating -/

/-- The next header type at offset 4 and the payload length at offset 6. -/
def readOldFields : Reader (ScionProto × UInt16) := do
  modify fun rs => (rs.seek (some 4) 0).2
  let nh ← ReadStream.serializeByte
  modify fun rs => (rs.seek (some 6) 0).2
  let oldLen ← ReadStream.serializeUint16
  pure (nh, oldLen)

def updateHeaders (cache : HeaderCache) (plen : UInt16) (l4 : L4Header) : Writer := do
  modify fun ws => (ws.seek (some 6) 0).2
  WriteStream.serializeUint16 plen
  modify fun ws => (ws.seek (some cache.nhOffset.toNat) 0).2
  WriteStream.serializeByte l4.proto
  modify fun ws => (ws.seek (some cache.l4Offset.toNat) 0).2
  l4.write

/-- The new payload length field, from the old one and the sizes it counted. -/
def updatedLen (cache : HeaderCache) (oldLen : UInt16) (l4 : L4Header) (payload : List UInt8) :
    UInt16 :=
  (oldLen.toUInt64 - (UInt64.ofNat cache.buffer.length - cache.l4Offset.toUInt64)
      - cache.payloadSize.toUInt64).toUInt16
    + UInt16.ofNat (l4.size + (UInt16.ofNat payload.length).toNat)

/-- Update headers in-place with a new payload. (won't update the flow label) -/
def updatePayload (cache : HeaderCache) (l4 : L4Header) (payload : List UInt8) :
    Maybe (HeaderCache × L4Header) :=
  match readOldFields (ReadStream.ofBuffer cache.buffer) with
  | .error _ _ => .error .logicError
  | .ok (nh, oldLen) _ =>
    let newLen := updatedLen cache oldLen l4 payload
    let l4 := l4.setPayload payload
    let hdrChksum := cache.scionHdrChksum + (l4.proto.toUInt32 - nh.toUInt32)
      + (newLen.toUInt32 - oldLen.toUInt32)
    let l4 := l4.withChksum 0
    let l4 := l4.withChksum (internetChecksum payload (hdrChksum + l4.checksum))
    let ws := WriteStream.ofBuffer (resize cache.buffer (cache.l4Offset.toNat + l4.size))
    match updateHeaders cache newLen l4 ws with
    | .error _ _ => .error .logicError
    | .ok _ ws =>
      .ok (⟨hdrChksum, UInt16.ofNat payload.length, cache.nhOffset, cache.l4Offset, ws.data⟩, l4)

end Code

/-! ### Layout -/

section Layout

variable {S : Type} [ExtensionClass S]

/-- An options header with its options, or nothing. -/
def optsBytes (nh : ScionProto) (extSize : ℕ) (opts : List UInt8) : List UInt8 :=
  if extSize > 0 then (OptsHeader.mk nh (extLen extSize)).bytes ++ opts else []

/-- The headers, with the options `hbh` and `e2e`. -/
def headerBytes (scHdr : SCION) (path : PathView) (hbhExtSize e2eExtSize : ℕ)
    (hbh e2e : List UInt8) (l4 : L4Header) : List UInt8 :=
  scHdr.bytes ++ (path.encoded ++
    (optsBytes (hbhNextHeader e2eExtSize l4) hbhExtSize hbh ++
      (optsBytes l4.proto e2eExtSize e2e ++ l4.bytes)))

/-- The size counts the options header and the options, or there are neither. -/
def Counts (extSize : ℕ) (opts : List UInt8) : Prop :=
  (extSize = 0 ∧ opts = []) ∨ extSize = 2 + opts.length

/-- The position behind the path. -/
def extPos (dst src : ScIPEndpoint) (path : PathView) : ℕ :=
  12 + dst.address.size + src.address.size + path.size

/-- The valid extensions emit as many bytes as their sizes say where `build`
writes them, the hop-by-hop ones those of `hbh` and the end-to-end ones those
of `e2e`. -/
structure EmitsOptions (exts : List (Extension S)) (pos : ℕ) (hbh e2e : List (List UInt8)) :
    Prop where
  hopByHop : Emits (emitted .hopByHop exts) (pos + OptsHeader.minSize) OptsHeader.minSize hbh
  endToEnd : Emits (emitted .endToEnd exts)
    (pos + (computeExtSize exts).1 + OptsHeader.minSize) OptsHeader.minSize e2e

theorem counts {category : Category} {exts : List (Extension S)} {p : ℕ}
    {chunks : List (List UInt8)}
    (h : Emits (emitted category exts) p OptsHeader.minSize chunks) :
    Counts (categorySize category exts) chunks.flatten := by
  have hsize := h.categorySize
  cases hany : exts.any (Extension.isIn category) with
  | true =>
    rw [hany, if_pos rfl] at hsize
    exact Or.inr hsize
  | false =>
    rw [hany, if_neg Bool.false_ne_true] at hsize
    exact Or.inl ⟨hsize, by rw [h.eq_nil hany, List.flatten_nil]⟩

theorem emitted_eq_nil_of_size {category : Category} {exts : List (Extension S)} {p : ℕ}
    {chunks : List (List UInt8)}
    (h : Emits (emitted category exts) p OptsHeader.minSize chunks)
    (hzero : categorySize category exts = 0) : emitted category exts = [] := by
  rw [h.categorySize] at hzero
  rw [emitted_eq_nil, ← Bool.not_eq_true]
  intro hany
  rw [if_pos hany] at hzero
  omega

@[simp] theorem optsBytes_zero (nh : ScionProto) (opts : List UInt8) : optsBytes nh 0 opts = [] :=
  rfl

theorem optsBytes_two_add (nh : ScionProto) (n : ℕ) (opts : List UInt8) :
    optsBytes nh (2 + n) opts = (OptsHeader.mk nh (extLen (2 + n))).bytes ++ opts :=
  if_pos (by omega)

theorem extLen_toNat (extSize : ℕ) : (extLen extSize).toNat = (extSize / 4 + 255) % 256 := by
  rw [extLen, UInt8.toNat_sub, UInt8.toNat_ofNat', show (1 : UInt8).toNat = 1 from rfl]
  omega

theorem writesAt_extensions {exts : List (Extension S)} {pos off : ℕ} {chunks : List (List UInt8)}
    (h : Emits exts pos off chunks) :
    WritesAt WriteStream.cursor pos (writeExtensions exts) chunks.flatten () := by
  induction h with
  | nil pos off => exact WritesAt.pure pos ()
  | @cons ext exts pos off bs chunks hwrite hsize hrest ih =>
    exact WriteStream.writesAt_getPos_bind (hwrite.bind ih)

/-- The options of a category stand two bytes into their header, if there are any. -/
theorem writesAt_category {category : Category} {exts : List (Extension S)} {p : ℕ}
    {chunks : List (List UInt8)}
    (h : Emits (emitted category exts) (p + OptsHeader.minSize) OptsHeader.minSize chunks)
    (nh : ScionProto) (nhOffset : UInt16) :
    WritesAt WriteStream.cursor p (writeCategory category nh exts nhOffset)
      (optsBytes nh (categorySize category exts) chunks.flatten)
      (if categorySize category exts > 0 then UInt16.ofNat p else nhOffset) := by
  rw [writeCategory, writeOptsHeader]
  rcases counts h with ⟨hzero, hnone⟩ | hsize
  -- neither a header nor options, and the caller's offset stays
  · rw [hzero, hnone, emitted_eq_nil_of_size h hzero]
    exact WritesAt.pure p nhOffset
  · have hpos : categorySize category exts > 0 := by omega
    have hheader := ((OptsHeader.writes ⟨nh, extLen (categorySize category exts)⟩).at p).bind
      (f := fun _ => pure (UInt16.ofNat p)) (WritesAt.pure _ _)
    have hexts := (writesAt_extensions h).bind (f := fun _ => pure (UInt16.ofNat p))
      (WritesAt.pure _ _)
    rw [List.append_nil] at hheader hexts
    rw [optsBytes, if_pos hpos, if_pos hpos, if_pos hpos]
    exact (WriteStream.writesAt_getPos_bind hheader).bind hexts

theorem Counts.eq_two_add {extSize : ℕ} {opts : List UInt8} (h : Counts extSize opts)
    (hpos : extSize > 0) : extSize = 2 + opts.length := by
  rcases h with ⟨hzero, _⟩ | hsize
  · omega
  · exact hsize

theorem Counts.length_optsBytes {extSize : ℕ} {opts : List UInt8} (h : Counts extSize opts)
    (nh : ScionProto) : (optsBytes nh extSize opts).length = extSize := by
  rcases h with ⟨rfl, rfl⟩ | rfl
  · rfl
  · rw [optsBytes_two_add, List.length_append]
    rfl

/-! ### A successful build -/

/-- The offset of the last next header field. -/
def nhOffsetOf (pos hbhExtSize e2eExtSize : ℕ) : UInt16 :=
  if e2eExtSize > 0 then UInt16.ofNat (pos + hbhExtSize)
  else if hbhExtSize > 0 then UInt16.ofNat pos
  else 4

theorem writesAt_headers {scHdr : SCION} {path : PathView} {exts : List (Extension S)}
    {l4 : L4Header} {hbh e2e : List (List UInt8)}
    (hemits : EmitsOptions exts (scHdr.size + path.size) hbh e2e) (hknown : l4.isKnown = true) :
    WritesAt WriteStream.cursor 0 (writeHeaders scHdr path exts l4)
      (headerBytes scHdr path (computeExtSize exts).1 (computeExtSize exts).2 hbh.flatten e2e.flatten l4)
      (nhOffsetOf (scHdr.size + path.size) (computeExtSize exts).1 (computeExtSize exts).2,
        UInt16.ofNat (scHdr.size + path.size + (computeExtSize exts).1
          + (computeExtSize exts).2)) := by
  obtain ⟨hhbh, he2e⟩ := hemits
  have hlast : ∀ pos nhOffset, WritesAt WriteStream.cursor pos
      (WriteStream.getPos >>= fun pos => l4.write >>= fun _ =>
        pure ((nhOffset, UInt16.ofNat pos) : UInt16 × UInt16))
      l4.bytes (nhOffset, UInt16.ofNat pos) := by
    intro pos nhOffset
    have h := ((L4Header.writes hknown).at pos).bind
      (f := fun _ => pure ((nhOffset, UInt16.ofNat pos) : UInt16 × UInt16)) (WritesAt.pure _ _)
    rw [List.append_nil] at h
    exact WriteStream.writesAt_getPos_bind h
  refine ((SCION.writes scHdr).at 0).bind (((WriteStream.writes_bytes path.encoded).at _).bind ?_)
  rw [SCION.length_bytes, zero_add, show path.encoded.length = path.size from rfl]
  refine (writesAt_category hhbh _ 4).bind ?_
  rw [(counts hhbh).length_optsBytes]
  refine (writesAt_category he2e _ _).bind ?_
  rw [(counts he2e).length_optsBytes]
  exact hlast _ _

/-- A stream that got as far as the transport header wrote one that can be written. -/
theorem isKnown_of_writeHeaders_eq_ok {scHdr : SCION} {path : PathView} {exts : List (Extension S)}
    {l4 : L4Header} {ws ws' : WriteStream} {offsets : UInt16 × UInt16}
    (h : writeHeaders scHdr path exts l4 ws = .ok offsets ws') : l4.isKnown = true := by
  obtain ⟨_, _, _, h⟩ := bind_eq_ok.mp h
  obtain ⟨_, _, _, h⟩ := bind_eq_ok.mp h
  obtain ⟨_, _, _, h⟩ := bind_eq_ok.mp h
  obtain ⟨_, _, _, h⟩ := bind_eq_ok.mp h
  obtain ⟨_, _, _, h⟩ := bind_eq_ok.mp h
  obtain ⟨_, _, hwrite, _⟩ := bind_eq_ok.mp h
  exact L4Header.isKnown_of_write_eq_ok hwrite

variable (hash : ScIPAddress → UInt64) (murmur32 : List UInt8 → UInt32 → UInt32)

/-- The SCION header of a packet that `build` makes. -/
def sentHeader (tc : UInt8) (dst src : ScIPEndpoint) (path : PathView) (exts : List (Extension S))
    (l4 : L4Header) (payload : List UInt8) : SCION :=
  scionHeader hash murmur32 tc dst src path exts (prepareL4 dst src l4 payload) payload

/-- The transport header of a packet that `build` makes. -/
def sentL4 (tc : UInt8) (dst src : ScIPEndpoint) (path : PathView) (exts : List (Extension S))
    (l4 : L4Header) (payload : List UInt8) : L4Header :=
  (prepareL4 dst src l4 payload).withChksum
    (checksum (sentHeader hash murmur32 tc dst src path exts l4 payload)
      (prepareL4 dst src l4 payload) payload)

variable {hash murmur32}

@[simp] theorem isKnown_prepareL4 (dst src : ScIPEndpoint) (l4 : L4Header) (payload : List UInt8) :
    (prepareL4 dst src l4 payload).isKnown = l4.isKnown := by simp [prepareL4]

@[simp] theorem size_prepareL4 (dst src : ScIPEndpoint) (l4 : L4Header) (payload : List UInt8) :
    (prepareL4 dst src l4 payload).size = l4.size := by simp [prepareL4]

@[simp] theorem proto_prepareL4 (dst src : ScIPEndpoint) (l4 : L4Header) (payload : List UInt8) :
    (prepareL4 dst src l4 payload).proto = l4.proto := by simp [prepareL4]

@[simp] theorem chksum_prepareL4 (dst src : ScIPEndpoint) (l4 : L4Header)
    (payload : List UInt8) : (prepareL4 dst src l4 payload).chksum = l4.chksum := by
  simp [prepareL4]

section Build

variable {tc : UInt8} {dst src : ScIPEndpoint} {path : PathView} {exts : List (Extension S)}
  {l4 : L4Header} {payload : List UInt8} {hbh e2e : List (List UInt8)}

@[simp] theorem isKnown_sentL4 :
    (sentL4 hash murmur32 tc dst src path exts l4 payload).isKnown = l4.isKnown := by
  simp [sentL4]

@[simp] theorem size_sentL4 :
    (sentL4 hash murmur32 tc dst src path exts l4 payload).size = l4.size := by simp [sentL4]

@[simp] theorem proto_sentL4 :
    (sentL4 hash murmur32 tc dst src path exts l4 payload).proto = l4.proto := by simp [sentL4]

theorem sentHeader_size_add :
    (sentHeader hash murmur32 tc dst src path exts l4 payload).size + path.size
      = extPos dst src path := rfl

theorem sentHeader_hlen :
    (sentHeader hash murmur32 tc dst src path exts l4 payload).hlen
      = UInt8.ofNat (extPos dst src path / 4) := rfl

/-- The headers have the size of their parts. -/
theorem length_headerBytes {scHdr : SCION}
    (hemits : EmitsOptions exts (scHdr.size + path.size) hbh e2e) :
    (headerBytes scHdr path (computeExtSize exts).1 (computeExtSize exts).2 hbh.flatten
      e2e.flatten l4).length
      = scHdr.size + path.size + (computeExtSize exts).1 + (computeExtSize exts).2 + l4.size := by
  have hlenHbh := (counts hemits.hopByHop).length_optsBytes
  have hlenE2e := (counts hemits.endToEnd).length_optsBytes
  simp only [headerBytes, computeExtSize, List.length_append, hlenHbh, hlenE2e,
    SCION.length_bytes, L4Header.length_bytes]
  rw [show path.encoded.length = path.size from rfl]
  omega

/-- A build succeeds exactly when the transport header can be written and the
length of address header and path is four times an eight-bit number, and then
the cache holds the headers, whatever it held before. -/
theorem build_eq_ok_iff {cache : HeaderCache} {r : HeaderCache × L4Header}
    (hemits : EmitsOptions exts (extPos dst src path) hbh e2e) :
    build hash murmur32 cache tc dst src path exts l4 payload = .ok r ↔
      l4.isKnown = true ∧ extPos dst src path % 4 = 0 ∧ extPos dst src path < 1024 ∧
      r = (⟨pseudoChecksum (sentHeader hash murmur32 tc dst src path exts l4 payload)
              (prepareL4 dst src l4 payload) payload,
            UInt16.ofNat payload.length,
            nhOffsetOf (extPos dst src path) (computeExtSize exts).1 (computeExtSize exts).2,
            UInt16.ofNat (extPos dst src path + (computeExtSize exts).1 + (computeExtSize exts).2),
            headerBytes (sentHeader hash murmur32 tc dst src path exts l4 payload) path
              (computeExtSize exts).1 (computeExtSize exts).2 hbh.flatten e2e.flatten
              (sentL4 hash murmur32 tc dst src path exts l4 payload)⟩,
          sentL4 hash murmur32 tc dst src path exts l4 payload) := by
  set scHdr := sentHeader hash murmur32 tc dst src path exts l4 payload with hscHdr
  set l4' := sentL4 hash murmur32 tc dst src path exts l4 payload with hl4'
  set buffer := resize cache.buffer (4 * scHdr.hlen.toNat + (computeExtSize exts).1
    + (computeExtSize exts).2 + l4'.size) with hbuffer
  have hbuild : build hash murmur32 cache tc dst src path exts l4 payload =
      match writeHeaders scHdr path exts l4' (WriteStream.ofBuffer buffer) with
      | .error _ _ => .error .logicError
      | .ok (nhOffset, l4Offset) ws =>
        .ok (⟨pseudoChecksum scHdr (prepareL4 dst src l4 payload) payload,
          UInt16.ofNat payload.length, nhOffset, l4Offset, ws.data⟩, l4') := rfl
  have hlen : buffer.length = 4 * scHdr.hlen.toNat + (computeExtSize exts).1
      + (computeExtSize exts).2 + l4'.size := length_resize _ _
  have hhlen : scHdr.hlen.toNat = extPos dst src path / 4 % 256 := by
    rw [hscHdr, sentHeader_hlen, UInt8.toNat_ofNat']
  have hknown : l4'.isKnown = l4.isKnown := isKnown_sentL4
  have hheaders : (headerBytes scHdr path (computeExtSize exts).1 (computeExtSize exts).2
        hbh.flatten e2e.flatten l4').length
      = extPos dst src path + (computeExtSize exts).1 + (computeExtSize exts).2 + l4'.size :=
    length_headerBytes hemits
  rw [hbuild, WriteStream.ofBuffer_eq]
  constructor
  · intro h
    rcases hwrite : writeHeaders scHdr path exts l4' (WriteStream.cursor [] buffer)
      with ⟨offsets, ws⟩ | ⟨e, ws⟩
    · have hk := isKnown_of_writeHeaders_eq_ok hwrite
      have hat := @writesAt_headers _ _ scHdr _ _ _ _ _ hemits hk
      obtain ⟨hfit, hoffsets, hws⟩ := hat.of_ok rfl hwrite
      rw [hheaders, hlen] at hfit
      -- `hlen` counts at most what is written, as it is the remainder of a division
      have hexact : 4 * scHdr.hlen.toNat = extPos dst src path := by omega
      rw [hwrite] at h
      refine ⟨hknown ▸ hk, by omega, by omega, ?_⟩
      -- the buffer was made to measure, nothing of it is left
      have hdrop : buffer.drop (headerBytes scHdr path (computeExtSize exts).1
            (computeExtSize exts).2 hbh.flatten e2e.flatten l4').length
          = [] := by
        rw [List.drop_eq_nil_iff, hheaders, hlen]
        omega
      rw [hdrop] at hws
      rw [hoffsets, hws] at h
      simp only [WriteStream.cursor, List.nil_append, List.append_nil] at h
      exact (Except.ok.inj h).symm
    · rw [hwrite] at h
      cases h
  · rintro ⟨hk, hmod, hlt, rfl⟩
    have hat := @writesAt_headers _ _ scHdr _ _ _ _ _ hemits (hknown.trans hk)
    have hfit : (headerBytes scHdr path (computeExtSize exts).1 (computeExtSize exts).2
          hbh.flatten e2e.flatten l4').length
        = buffer.length := by
      rw [hheaders, hlen]
      omega
    have hrun := (hat [] buffer rfl).1 hfit.le
    rw [List.drop_eq_nil_of_le hfit.ge] at hrun
    rw [hrun]
    simp only [WriteStream.cursor, List.nil_append, List.append_nil]
    rfl

end Build

end Layout

end HeaderCache

end Scion
