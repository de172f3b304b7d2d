/-
Parsing packets (`socket/parsed_packet.hpp`).

* `ParsedPacket.parse`, `ParsedPacket.checksum` — the parser of the source;
* `parse_headerBytes` — headers with options of at most one category, of a size
  their length field can say, are taken apart again;
* `parse_headerBytes_both` — headers with options of both categories never are;
* `length_hbhOpts_of_parse`, `length_e2eOpts_of_parse` — what is located as options
  has the length that the options header says.
-/
import Scion.HeaderCache

namespace Scion

open BigEndian Codec

/-- A packet with the transport header decoded; path, options and payload are
located but not parsed. -/
structure ParsedPacket where
  sci : SCION
  path : List UInt8
  hbhOpts : List UInt8
  e2eOpts : List UInt8
  l4 : L4Header
  payload : List UInt8
  deriving DecidableEq, Repr

namespace ParsedPacket

/-- `lookahead` and `advanceBytes`: the next bytes. -/
def locate (n : ℕ) : Reader (List UInt8) := do
  let bytes ← ReadStream.lookahead (some n)
  ReadStream.advanceBytes n
  pure bytes

/-- The options behind a header of type `proto`, if that is the next header, and
the type of the header that follows. -/
def parseOpts (proto nh : ScionProto) : Reader (List UInt8 × ScionProto) :=
  if nh = proto then do
    let hdr ← OptsHeader.read
    let opts ← locate hdr.optionSize
    pure (opts, hdr.nh)
  else pure ([], nh)

/-- The transport header, with `hdr::UDP` as the expected type. -/
def parseL4 (nh : ScionProto) : Reader L4Header :=
  if nh = ScionProto.scmp then L4Header.scmp <$> SCMP.read
  else if nh = UDP.proto then L4Header.udp <$> UDP.read
  else throw "unexpected transport header"

/-- The part of `parse` behind the path. -/
def parseRest (sci : SCION) (path : List UInt8) : Reader ParsedPacket := do
  let hbh ← parseOpts ScionProto.hbhOpt sci.nh
  let e2e ← parseOpts ScionProto.e2eOpt hbh.2
  let l4 ← parseL4 e2e.2
  let payload ← ReadStream.lookahead none
  modify fun rs => (rs.seek none 0).2
  pure ⟨sci, path, hbh.1, e2e.1, l4, payload⟩

def parse : Reader ParsedPacket := do
  let sci ← SCION.read
  let path ← locate sci.pathSize
  parseRest sci path

/-- The length of the transport header and payload, as the receiver derives it. -/
def l4Len (pkt : ParsedPacket) : UInt16 :=
  let hbhSize := UInt16.ofNat pkt.hbhOpts.length
  let e2eSize := UInt16.ofNat pkt.e2eOpts.length
  pkt.sci.plen - hbhSize - e2eSize
    - ((if hbhSize > 0 then 2 else 0) + (if e2eSize > 0 then 2 else 0))

/-- Compute the checksum of the (inner, not underlay) L4 header. -/
def checksum (pkt : ParsedPacket) : UInt16 :=
  onesComplementChecksum pkt.payload (pkt.l4.checksum + pkt.sci.checksum pkt.l4Len pkt.l4.proto)

/-! ### The pieces of a packet -/

theorem reads_locate (bs : List UInt8) (n : ℕ) (h : bs.length = n) :
    Reads ReadStream.cursor (locate n) bs bs := by
  intro pre post
  have hadvance := (ReadStream.reads_advanceBytes bs n h).bind_pure (g := fun _ => bs)
  rw [locate, bind_ok (ReadStream.lookahead_some pre bs post n h), hadvance]

/-- What is located has the length asked for. -/
theorem length_of_locate_eq_ok {n : ℕ} {rs rs' : ReadStream} {bs : List UInt8}
    (h : locate n rs = .ok bs rs') : bs.length = n := by
  obtain ⟨found, s, hlook, h⟩ := bind_eq_ok.mp h
  obtain ⟨_, _, _, h⟩ := bind_eq_ok.mp h
  cases h
  rw [ReadStream.lookahead] at hlook
  split at hlook
  · cases hlook
  · split at hlook
    · cases hlook
    · next hroom =>
      cases hlook
      rw [ReadStream.next, List.length_take, List.length_drop]
      rw [ReadStream.remaining] at hroom
      omega

theorem reads_parseOpts_skip {proto nh : ScionProto} (h : nh ≠ proto) :
    Reads ReadStream.cursor (parseOpts proto nh) [] ([], nh) := by
  rw [parseOpts, if_neg h]
  exact Reads.pure _

theorem reads_parseOpts (proto : ScionProto) (hdr : OptsHeader) (opts : List UInt8)
    (h : opts.length = hdr.optionSize) :
    Reads ReadStream.cursor (parseOpts proto proto) (hdr.bytes ++ opts) (opts, hdr.nh) := by
  rw [parseOpts, if_pos rfl]
  exact (OptsHeader.reads hdr).bind (reads_locate opts hdr.optionSize h).bind_pure

theorem reads_parseL4 {l4 : L4Header} (hknown : l4.isKnown = true) :
    Reads ReadStream.cursor (parseL4 l4.proto) l4.bytes l4 := by
  rw [parseL4]
  cases l4 with
  | udp h =>
    have hne : (L4Header.udp h).proto ≠ ScionProto.scmp :=
      show UDP.proto ≠ ScionProto.scmp by decide
    rw [if_neg hne, if_pos (show (L4Header.udp h).proto = UDP.proto from rfl)]
    exact (UDP.reads h).bind_pure
  | scmp h =>
    rw [if_pos (show (L4Header.scmp h).proto = ScionProto.scmp from rfl)]
    exact (SCMP.reads hknown).bind_pure

/-- Whatever follows the transport header is the payload. -/
theorem parseRest_eq_ok {sci : SCION} {path hbh e2e bs₁ bs₂ : List UInt8} {nh₁ nh₂ : ScionProto}
    {l4 : L4Header} (hhbh : Reads ReadStream.cursor (parseOpts ScionProto.hbhOpt sci.nh) bs₁ (hbh, nh₁))
    (he2e : Reads ReadStream.cursor (parseOpts ScionProto.e2eOpt nh₁) bs₂ (e2e, nh₂))
    (hl4 : Reads ReadStream.cursor (parseL4 nh₂) l4.bytes l4) (pre payload : List UInt8) :
    ∃ s, parseRest sci path (ReadStream.cursor pre (bs₁ ++ (bs₂ ++ (l4.bytes ++ payload))))
      = .ok ⟨sci, path, hbh, e2e, l4, payload⟩ s := by
  rw [parseRest, bind_ok (hhbh _ _), bind_ok (he2e _ _), bind_ok (hl4 _ _),
    bind_ok (ReadStream.lookahead_all _ _)]
  exact ⟨_, rfl⟩

/-- A header of the right length is followed by its path. -/
theorem parse_cursor {scHdr : SCION} {path : List UInt8}
    (hlen : 4 * scHdr.hlen.toNat = scHdr.size + path.length) (rest : List UInt8) :
    parse (ReadStream.ofBuffer (scHdr.bytes ++ (path ++ rest)))
      = parseRest scHdr.onWire path (ReadStream.cursor (scHdr.bytes ++ path) rest) := by
  have hmin : SCION.minSize / 4 ≤ scHdr.hlen.toNat := by
    have hsize : SCION.minSize ≤ scHdr.size := by
      simp only [SCION.minSize, SCION.size, ScIPAddress.size, IsdAsn.size, IPAddress.size]
      split <;> split <;> omega
    rw [SCION.minSize] at hsize ⊢
    omega
  have hpath : path.length = scHdr.onWire.pathSize := by
    rw [SCION.pathSize, SCION.size_onWire, show scHdr.onWire.hlen = scHdr.hlen from rfl, hlen]
    have hbyte := scHdr.hlen.toNat_lt
    omega
  rw [parse, ReadStream.ofBuffer_eq, bind_ok (SCION.reads scHdr hmin _ _),
    bind_ok (reads_locate path _ hpath _ _), List.nil_append]

/-! ### The headers of a packet -/

/-- An options header whose size an eight-bit length in units of four bytes can say. -/
def OptsFit (extSize : ℕ) : Prop := extSize % 4 = 0 ∧ extSize ≤ 1024

instance (extSize : ℕ) : Decidable (OptsFit extSize) := inferInstanceAs (Decidable (_ ∧ _))

theorem optionSize_extLen (nh : ScionProto) {n : ℕ} :
    n = (OptsHeader.mk nh (HeaderCache.extLen (2 + n))).optionSize ↔ OptsFit (2 + n) := by
  rw [OptsHeader.optionSize, HeaderCache.extLen_toNat, OptsFit]
  omega

theorem proto_ne_hbhOpt (l4 : L4Header) : l4.proto ≠ ScionProto.hbhOpt := by
  cases l4 with
  | udp h => exact show UDP.proto ≠ ScionProto.hbhOpt by decide
  | scmp h => exact show SCMP.proto ≠ ScionProto.hbhOpt by decide

theorem proto_ne_e2eOpt (l4 : L4Header) : l4.proto ≠ ScionProto.e2eOpt := by
  cases l4 with
  | udp h => exact show UDP.proto ≠ ScionProto.e2eOpt by decide
  | scmp h => exact show SCMP.proto ≠ ScionProto.e2eOpt by decide

/-- The options header says how much is located behind it and what comes next. -/
theorem of_parseOpts_eq_ok {proto : ScionProto} {hdr : OptsHeader} {pre rest : List UInt8}
    {found : List UInt8 × ScionProto} {s : ReadStream}
    (h : parseOpts proto proto (ReadStream.cursor pre (hdr.bytes ++ rest)) = .ok found s) :
    found.1.length = hdr.optionSize ∧ found.2 = hdr.nh := by
  rw [parseOpts, if_pos rfl, bind_ok (OptsHeader.reads hdr pre rest)] at h
  obtain ⟨opts, s', hlocate, h⟩ := bind_eq_ok.mp h
  cases h
  exact ⟨length_of_locate_eq_ok hlocate, rfl⟩

section Headers

open HeaderCache

variable {scHdr : SCION} {path : PathView} {m n : ℕ} {hbh e2e payload : List UInt8}
  {l4 : L4Header}

/-- Behind the path the parser has the pieces of the headers before it. -/
theorem parse_headerBytes_eq (hlen : 4 * scHdr.hlen.toNat = scHdr.size + path.size) :
    parse (ReadStream.ofBuffer (headerBytes scHdr path m n hbh e2e l4 ++ payload))
      = parseRest scHdr.onWire path.encoded (ReadStream.cursor (scHdr.bytes ++ path.encoded)
          (optsBytes (hbhNextHeader n l4) m hbh ++
            (optsBytes l4.proto n e2e ++ (l4.bytes ++ payload)))) := by
  rw [headerBytes]
  simp only [List.append_assoc]
  exact parse_cursor hlen _

/-- Options of at most one category are found again. -/
theorem parse_headerBytes (hlen : 4 * scHdr.hlen.toNat = scHdr.size + path.size)
    (hnh : scHdr.nh = nextHeader m n l4) (hhbh : Counts m hbh) (he2e : Counts n e2e)
    (hknown : l4.isKnown = true) (hone : ¬(m > 0 ∧ n > 0)) (hfitHbh : OptsFit m)
    (hfitE2e : OptsFit n) :
    ∃ s, parse (ReadStream.ofBuffer (headerBytes scHdr path m n hbh e2e l4 ++ payload))
      = .ok ⟨scHdr.onWire, path.encoded, hbh, e2e, l4, payload⟩ s := by
  have hwire : scHdr.onWire.nh = nextHeader m n l4 := hnh
  rw [parse_headerBytes_eq hlen]
  rcases hhbh with ⟨rfl, rfl⟩ | rfl
  · rcases he2e with ⟨rfl, rfl⟩ | rfl
    · -- the transport header follows the path
      have hskip : Reads ReadStream.cursor (parseOpts ScionProto.hbhOpt scHdr.onWire.nh) []
          ([], l4.proto) := by
        rw [hwire]
        exact reads_parseOpts_skip (proto_ne_hbhOpt l4)
      exact parseRest_eq_ok hskip (reads_parseOpts_skip (proto_ne_e2eOpt l4))
        (reads_parseL4 hknown) _ _
    -- end-to-end options follow the path
    · have hskip : Reads ReadStream.cursor (parseOpts ScionProto.hbhOpt scHdr.onWire.nh) []
          ([], ScionProto.e2eOpt) := by
        rw [hwire, nextHeader, if_pos (by omega)]
        exact reads_parseOpts_skip (by decide)
      have hopts := reads_parseOpts ScionProto.e2eOpt ⟨l4.proto, extLen (2 + e2e.length)⟩ e2e
        ((optionSize_extLen l4.proto).mpr hfitE2e)
      rw [optsBytes_two_add, List.append_assoc]
      exact parseRest_eq_ok hskip hopts (reads_parseL4 hknown) _ _
  -- hop-by-hop options follow the path, and there are no others
  · have hzero : n = 0 := by omega
    subst hzero
    have hnil : e2e = [] := by
      rcases he2e with ⟨_, h⟩ | h
      · exact h
      · omega
    subst hnil
    have hnext : scHdr.onWire.nh = ScionProto.hbhOpt := by
      rw [hwire, nextHeader, if_neg (by omega), if_pos (by omega)]
    have hopts : Reads ReadStream.cursor (parseOpts ScionProto.hbhOpt scHdr.onWire.nh)
        ((OptsHeader.mk l4.proto (extLen (2 + hbh.length))).bytes ++ hbh) (hbh, l4.proto) := by
      rw [hnext]
      exact reads_parseOpts _ _ hbh ((optionSize_extLen l4.proto).mpr hfitHbh)
    rw [optsBytes_two_add, hbhNextHeader, if_neg (by omega)]
    exact parseRest_eq_ok hopts (reads_parseOpts_skip (proto_ne_e2eOpt l4))
      (reads_parseL4 hknown) _ _

/-- With options of both categories the SCION header announces end-to-end
options where the hop-by-hop options stand: the parser takes these for the
former and then finds no transport header. -/
theorem parse_headerBytes_both (hlen : 4 * scHdr.hlen.toNat = scHdr.size + path.size)
    (hnh : scHdr.nh = nextHeader m n l4) (hhbh : Counts m hbh) (hm : m > 0) (hn : n > 0)
    (pkt : ParsedPacket) (s : ReadStream) :
    parse (ReadStream.ofBuffer (headerBytes scHdr path m n hbh e2e l4 ++ payload))
      ≠ .ok pkt s := by
  intro h
  have hnext : scHdr.onWire.nh = ScionProto.e2eOpt := by
    rw [show scHdr.onWire.nh = scHdr.nh from rfl, hnh, nextHeader, if_pos hn]
  obtain rfl := hhbh.eq_two_add hm
  have hskip : Reads ReadStream.cursor (parseOpts ScionProto.hbhOpt scHdr.onWire.nh) []
      ([], ScionProto.e2eOpt) := by
    rw [hnext]
    exact reads_parseOpts_skip (by decide)
  rw [parse_headerBytes_eq hlen, parseRest, ← List.nil_append (optsBytes _ _ _ ++ _),
    bind_ok (hskip _ _), optsBytes_two_add, List.append_assoc] at h
  obtain ⟨found, s', hopts, h⟩ := bind_eq_ok.mp h
  -- the header it takes for that of the end-to-end options announces these once more
  obtain ⟨_, hfound⟩ := of_parseOpts_eq_ok hopts
  have hfound' : found.2 = ScionProto.e2eOpt := by rw [hfound, hbhNextHeader, if_pos hn]
  rw [hfound'] at h
  obtain ⟨_, _, hl4, _⟩ := bind_eq_ok.mp h
  rw [parseL4, if_neg (by decide), if_neg (by decide)] at hl4
  cases hl4

/-- The hop-by-hop options that are located are as long as their header says. -/
theorem length_hbhOpts_of_parse (hlen : 4 * scHdr.hlen.toNat = scHdr.size + path.size)
    (hnh : scHdr.nh = nextHeader m 0 l4) (hhbh : Counts m hbh) (hm : m > 0)
    {pkt : ParsedPacket} {s : ReadStream}
    (h : parse (ReadStream.ofBuffer (headerBytes scHdr path m 0 hbh e2e l4 ++ payload))
      = .ok pkt s) :
    pkt.hbhOpts.length = (OptsHeader.mk l4.proto (extLen m)).optionSize := by
  have hnext : scHdr.onWire.nh = ScionProto.hbhOpt := by
    rw [show scHdr.onWire.nh = scHdr.nh from rfl, hnh, nextHeader, if_neg (by omega), if_pos hm]
  obtain rfl := hhbh.eq_two_add hm
  rw [parse_headerBytes_eq hlen, parseRest, hnext, optsBytes_two_add, List.append_assoc] at h
  obtain ⟨found, s', hopts, h⟩ := bind_eq_ok.mp h
  obtain ⟨hfound, _⟩ := of_parseOpts_eq_ok hopts
  obtain ⟨_, _, _, h⟩ := bind_eq_ok.mp h
  obtain ⟨_, _, _, h⟩ := bind_eq_ok.mp h
  obtain ⟨_, _, _, h⟩ := bind_eq_ok.mp h
  obtain ⟨_, _, _, h⟩ := bind_eq_ok.mp h
  cases h
  exact hfound

/-- The end-to-end options that are located are as long as their header says. -/
theorem length_e2eOpts_of_parse (hlen : 4 * scHdr.hlen.toNat = scHdr.size + path.size)
    (hnh : scHdr.nh = nextHeader 0 n l4) (he2e : Counts n e2e) (hn : n > 0)
    {pkt : ParsedPacket} {s : ReadStream}
    (h : parse (ReadStream.ofBuffer (headerBytes scHdr path 0 n hbh e2e l4 ++ payload))
      = .ok pkt s) :
    pkt.e2eOpts.length = (OptsHeader.mk l4.proto (extLen n)).optionSize := by
  have hnext : scHdr.onWire.nh = ScionProto.e2eOpt := by
    rw [show scHdr.onWire.nh = scHdr.nh from rfl, hnh, nextHeader, if_pos hn]
  obtain rfl := he2e.eq_two_add hn
  have hskip : Reads ReadStream.cursor (parseOpts ScionProto.hbhOpt scHdr.onWire.nh) []
      ([], ScionProto.e2eOpt) := by
    rw [hnext]
    exact reads_parseOpts_skip (by decide)
  rw [parse_headerBytes_eq hlen, parseRest, optsBytes_zero, bind_ok (hskip _ _),
    optsBytes_two_add, List.append_assoc] at h
  obtain ⟨found, s', hopts, h⟩ := bind_eq_ok.mp h
  obtain ⟨hfound, _⟩ := of_parseOpts_eq_ok hopts
  obtain ⟨_, _, _, h⟩ := bind_eq_ok.mp h
  obtain ⟨_, _, _, h⟩ := bind_eq_ok.mp h
  obtain ⟨_, _, _, h⟩ := bind_eq_ok.mp h
  cases h
  exact hfound

theorem optsFit_of_counts {extSize : ℕ} {opts : List UInt8} (nh : ScionProto)
    (hcounts : Counts extSize opts)
    (h : extSize > 0 → opts.length = (OptsHeader.mk nh (extLen extSize)).optionSize) :
    OptsFit extSize := by
  rcases hcounts with ⟨rfl, _⟩ | rfl
  · exact ⟨rfl, by omega⟩
  · exact (optionSize_extLen nh).mp (h (by omega))

/-- Options that were found again are of a size their header can say. -/
theorem optsFit_of_parse (hlen : 4 * scHdr.hlen.toNat = scHdr.size + path.size)
    (hnh : scHdr.nh = nextHeader m n l4) (hhbh : Counts m hbh) (he2e : Counts n e2e)
    (hone : ¬(m > 0 ∧ n > 0)) {pkt : ParsedPacket} {s : ReadStream}
    (h : parse (ReadStream.ofBuffer (headerBytes scHdr path m n hbh e2e l4 ++ payload))
      = .ok pkt s) (hpktHbh : pkt.hbhOpts = hbh) (hpktE2e : pkt.e2eOpts = e2e) :
    OptsFit m ∧ OptsFit n := by
  refine ⟨optsFit_of_counts l4.proto hhbh fun hm => ?_,
    optsFit_of_counts l4.proto he2e fun hn => ?_⟩
  · obtain rfl : n = 0 := by omega
    rw [← hpktHbh]
    exact length_hbhOpts_of_parse hlen hnh hhbh hm h
  · obtain rfl : m = 0 := by omega
    rw [← hpktE2e]
    exact length_e2eOpts_of_parse hlen hnh he2e hn h

end Headers

end ParsedPacket

end Scion
