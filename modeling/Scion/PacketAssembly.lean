/-
Packets put together from their parts (`scitra/packet.cpp`).

What a packet is parsed into is known when it is known what its headers were written from, so
that the headers of one translator are those of the other one.

* `ReadsPart` — a parser that consumes exactly some bytes and changes the buffer by a function;
* `readsPart_scion` — the SCION header in front of a path;
* `receive_scion`, `receive_ipv6` — a packet received without an underlay, and a datagram from
  the TUN interface.
-/
import Scion.Filling
import Scion.HeaderCodecs
import Scion.ScionDetection

namespace Scion

open BigEndian Codec ReadStream

namespace PacketParser

/-- The parser consumes exactly `bs`, returns `a` and changes the buffer by `f`. -/
abbrev ReadsPart {α : Type} (m : PacketParser α) (bs : List UInt8) (a : α)
    (f : PacketBuffer → PacketBuffer) : Prop :=
  ReadsInto ReadStream.cursor m bs a f

end PacketParser

namespace PacketBuffer

open PacketParser

variable {α : Type}

/-! ### Members -/

theorem readsPart_scan {r : Reader α} {bs : List UInt8} {a : α}
    (hr : Reads ReadStream.cursor r bs a) : ReadsPart (scan r) bs a id := by
  intro pkt pre post
  rw [scan, hr]
  rfl

theorem readsPart_update (f : PacketBuffer → PacketBuffer) : ReadsPart (update f) [] () f := by
  intro pkt pre post
  rw [List.append_nil]
  rfl

theorem scanInto_cursor {r : PacketBuffer → Reader α} {set : α → PacketBuffer → PacketBuffer}
    {bs : List UInt8} {a : α} {pkt : PacketBuffer}
    (hr : Reads ReadStream.cursor (r pkt) bs a) (pre post : List UInt8) :
    scanInto r set (pkt, ReadStream.cursor pre (bs ++ post))
      = .ok a (set a pkt, ReadStream.cursor (pre ++ bs) post) := by
  have hall : ReadsPart (do let a ← scan (r pkt); update (set a); pure a) bs a _ :=
    (readsPart_scan hr).bind_nil ((readsPart_update (set a)).bind_nil (ReadsInto.pure a))
  exact hall pkt pre post

/-- What is read does not depend on the buffer. -/
theorem readsPart_into {r : PacketBuffer → Reader α} {set : α → PacketBuffer → PacketBuffer}
    {bs : List UInt8} {a : α} (hr : ∀ pkt, Reads ReadStream.cursor (r pkt) bs a) :
    ReadsPart (scanInto r set) bs a (set a) :=
  fun pkt => scanInto_cursor (hr pkt)

/-- A last header, which may be read into the old one. -/
theorem readsPart_into_unit {r : PacketBuffer → Reader α}
    {set : α → PacketBuffer → PacketBuffer} {bs : List UInt8} {a : PacketBuffer → α}
    (hr : ∀ pkt, Reads ReadStream.cursor (r pkt) bs (a pkt)) :
    ReadsPart (do let _ ← scanInto r set; pure ()) bs () fun pkt => set (a pkt) pkt := by
  intro pkt pre post
  rw [bind_ok (scanInto_cursor (hr pkt) pre post)]
  rfl

/-! ### The SCION header -/

/-- The path that a buffer holds after an assignment. -/
def assignedPath (source destination : IsdAsn) (type : PathType) (data : List UInt8)
    (path : RawPathContents) : RawPathContents :=
  ⟨source, destination, type, data.length, Records.overwrite path.path 0 data⟩

theorem assign_eq_assignedPath {source destination : IsdAsn} {type : PathType}
    {data : List UInt8} (h : data.length ≤ RawPathContents.maxSize) (path : RawPathContents) :
    path.assign source destination type data
      = .ok (assignedPath source destination type data path) := by
  rw [RawPathContents.assign, if_neg (by omega)]
  rfl

/-- The path behind the header is assigned and skipped. -/
theorem readsPart_path (source destination : IsdAsn) (type : PathType) {data : List UInt8}
    (h : data.length ≤ RawPathContents.maxSize) :
    ReadsPart (do
      let pdata ← scan (ReadStream.lookahead (some data.length))
      assignPath source destination type pdata
      scan (ReadStream.advanceBytes data.length)) data ()
      fun pkt => { pkt with path := assignedPath source destination type data pkt.path } := by
  intro pkt pre post
  have hlook : scan (ReadStream.lookahead (some data.length))
      (pkt, ReadStream.cursor pre (data ++ post))
        = .ok data (pkt, ReadStream.cursor pre (data ++ post)) := by
    rw [scan, lookahead_some pre data post _ rfl]
  have hassign : assignPath source destination type data
      (pkt, ReadStream.cursor pre (data ++ post))
        = .ok () ({ pkt with path := assignedPath source destination type data pkt.path },
          ReadStream.cursor pre (data ++ post)) := by
    rw [assignPath, assign_eq_assignedPath h]
  rw [bind_ok hlook, bind_ok hassign]
  exact readsPart_scan (reads_advanceBytes data _ rfl) _ pre post

theorem readsPart_skipOpts {kind proto : ScionProto} (h : proto ≠ kind) :
    ReadsPart (skipOpts kind proto) [] proto id := by
  rw [skipOpts, if_neg h]
  exact ReadsInto.pure proto

/-- A header whose length is that of the header and the path. -/
structure Framed (sci : SCION) (path : List UInt8) : Prop where
  length_eq : 4 * sci.hlen.toNat = sci.size + path.length
  length_le : path.length ≤ RawPathContents.maxSize
  noHbh : sci.nh ≠ ScionProto.hbhOpt
  noE2e : sci.nh ≠ ScionProto.e2eOpt

theorem Framed.pathSize_eq {sci : SCION} {path : List UInt8} (h : Framed sci path) :
    sci.onWire.pathSize = path.length := by
  have hlen := sci.hlen.toNat_lt
  have heq := h.length_eq
  rw [SCION.pathSize, SCION.size_onWire, show sci.onWire.hlen = sci.hlen from rfl]
  omega

/-- What parsing the header and the path does to the buffer. -/
def withScion (sci : SCION) (path : List UInt8) (pkt : PacketBuffer) : PacketBuffer :=
  { pkt with
    sci := sci.onWire
    path := assignedPath sci.src.isdAsn sci.dst.isdAsn sci.ptype path pkt.path
    scionValid := true }

theorem readsPart_scion {sci : SCION} {path : List UInt8} (h : Framed sci path) :
    ReadsPart parseScion (sci.bytes ++ path) sci.nh (withScion sci path) := by
  have hlong : SCION.minSize / 4 ≤ sci.hlen.toNat := by
    have heq := h.length_eq
    rw [SCION.size, ScIPAddress.size, ScIPAddress.size, IsdAsn.size, IsdAsn.size, IPAddress.size,
      IPAddress.size] at heq
    rw [SCION.minSize]
    split_ifs at heq <;> omega
  have hpath := readsPart_path sci.onWire.src.isdAsn sci.onWire.dst.isdAsn sci.onWire.ptype
    h.length_le
  rw [← h.pathSize_eq] at hpath
  have hrest : ReadsPart (do
      let proto ← skipOpts ScionProto.hbhOpt sci.nh
      let proto ← skipOpts ScionProto.e2eOpt proto
      update fun pkt => { pkt with scionValid := true }
      pure proto) [] sci.nh _ :=
    (readsPart_skipOpts h.noHbh).bind_nil ((readsPart_skipOpts h.noE2e).bind_nil
      ((readsPart_update fun pkt => { pkt with scionValid := true }).bind_nil
        (ReadsInto.pure sci.nh)))
  have hbehind : ReadsPart ((do
      let pdata ← scan (ReadStream.lookahead (some sci.onWire.pathSize))
      assignPath sci.onWire.src.isdAsn sci.onWire.dst.isdAsn sci.onWire.ptype pdata
      scan (ReadStream.advanceBytes sci.onWire.pathSize)) >>= fun _ => _) path sci.nh _ :=
    hpath.bind_nil hrest
  simp only [bind_assoc] at hbehind
  have hall : ReadsPart parseScion (sci.bytes ++ path) sci.nh _ :=
    (readsPart_into fun _ => SCION.reads sci hlong).bind hbehind
  exact hall

/-! ### The transport header -/

theorem readsPart_udp (udp : UDP) : ReadsPart (parseL4 ScionProto.udp) udp.bytes ()
    fun pkt => { pkt with udp := udp, l4Valid := .udp } := by
  rw [parseL4, if_neg (by decide), if_neg (by decide), if_neg (by decide), if_pos rfl]
  exact readsPart_into_unit fun _ => UDP.reads udp

/-! ### Received packets -/

section Receive

variable {headroom : ℕ} {raw hdr payload : List UInt8} {noUnderlay : Bool}
  {isScion : Option IsScion} {pkt got : PacketBuffer}

/-- The headers end where the parser stopped. -/
theorem receive_of_parse (hfits : raw.length ≤ pkt.buffer.length - headroom)
    (hparse : parse noUnderlay isScion (pkt.placedFor headroom raw, ReadStream.cursor [] raw)
      = .ok () (got, ReadStream.cursor hdr payload))
    (hpacket : got.packet = (pkt.placedFor headroom raw).packet) :
    pkt.receive headroom raw noUnderlay isScion = (.ok,
      { got with endOfHeader := min headroom pkt.buffer.length + hdr.length }) := by
  have hraw := raw_placedFor hfits
  rw [placedFor] at hparse hraw
  rw [receive, parsePacket]
  rw [measured] at hparse hraw
  rw [hraw, ofBuffer_eq, hparse]
  have hend : got.packet.offset = min headroom pkt.buffer.length := by
    rw [hpacket, packet_placedFor hfits]
  rw [← hend]
  rfl

/-- What follows the headers is the payload. -/
theorem payload_of_parse (hfits : (hdr ++ payload).length ≤ pkt.buffer.length - headroom)
    (hbuffer : got.buffer = (pkt.placedFor headroom (hdr ++ payload)).buffer)
    (hpacket : got.packet = (pkt.placedFor headroom (hdr ++ payload)).packet)
    (hend : got.endOfHeader = min headroom pkt.buffer.length + hdr.length) :
    got.payload = payload := by
  have hraw := raw_placedFor hfits
  rw [PacketBuffer.raw, ← hbuffer, packet_placedFor hfits] at hraw
  have hlen : (hdr ++ payload).length - (min headroom pkt.buffer.length + hdr.length
      - min headroom pkt.buffer.length) = payload.length := by
    rw [List.length_append]
    omega
  rw [PacketBuffer.payload, hend, hpacket, packet_placedFor hfits, hlen]
  have hbehind := Records.slice_slice got.buffer (min headroom pkt.buffer.length)
    (hdr ++ payload).length hdr.length payload.length (by rw [List.length_append])
  rw [← hbehind, hraw, Records.slice, List.drop_left' rfl, List.take_length]

/-- The packet lies in the buffer. -/
theorem placed_of_parse (hfits : (hdr ++ payload).length ≤ pkt.buffer.length - headroom)
    (hbuffer : got.buffer = (pkt.placedFor headroom (hdr ++ payload)).buffer)
    (hpacket : got.packet = (pkt.placedFor headroom (hdr ++ payload)).packet)
    (hend : got.endOfHeader = min headroom pkt.buffer.length + hdr.length) : got.Placed := by
  have hlength : got.buffer.length = pkt.buffer.length := by
    rw [hbuffer]
    have hroom : min headroom pkt.buffer.length + (hdr ++ payload).length ≤ pkt.buffer.length := by
      omega
    exact Records.length_overwrite hroom
  rw [packet_placedFor hfits] at hpacket
  refine ⟨?_, ?_, ?_⟩
  · rw [hpacket, hend]
    exact Nat.le_add_right _ _
  · rw [hpacket, hend, List.length_append]
    dsimp only
    omega
  · rw [hpacket, hlength]
    dsimp only
    omega

/-- A function that leaves the raw packet as it is. -/
structure KeepsRaw (f : PacketBuffer → PacketBuffer) : Prop where
  buffer : ∀ pkt, (f pkt).buffer = pkt.buffer
  packet : ∀ pkt, (f pkt).packet = pkt.packet

/-- The buffer that has received a SCION packet. -/
def gotScion (headroom : ℕ) (sci : SCION) (path l4 payload : List UInt8)
    (f : PacketBuffer → PacketBuffer) (pkt : PacketBuffer) : PacketBuffer :=
  { f (withScion sci path (pkt.placedFor headroom (sci.bytes ++ path ++ l4 ++ payload))) with
    endOfHeader := min headroom pkt.buffer.length + (sci.bytes ++ path ++ l4).length }

/-- A SCION packet without an underlay is accepted. -/
theorem receive_scion {sci : SCION} {path l4 : List UInt8} {f : PacketBuffer → PacketBuffer}
    (hframed : Framed sci path) (hnh : sci.nh ≠ 0x21)
    (hl4 : ReadsPart (parseL4 sci.nh) l4 () f) (hf : KeepsRaw f)
    (hfits : (sci.bytes ++ path ++ l4 ++ payload).length ≤ pkt.buffer.length - headroom) :
    pkt.receive headroom (sci.bytes ++ path ++ l4 ++ payload) true isScion
      = (.ok, gotScion headroom sci path l4 payload f pkt) := by
  set raw := sci.bytes ++ path ++ l4 ++ payload with hraw
  have hinner : ReadsPart (parseInner true isScion (.v6 0 0 "") 0) (sci.bytes ++ path ++ l4) ()
      fun pkt => f (withScion sci path pkt) := by
    rw [parseInner, if_pos rfl]
    exact (readsPart_scion hframed).bind hl4
  have hdetect : detectStun raw = false := by
    rw [hraw, SCION.bytes]
    simp only [List.append_assoc]
    exact detectStun_eq_false (length_beBytes 4 _) hnh
  have hahead := aheadStun_cursor (pkt.placedFor headroom raw) [] raw
  have hrun := hinner (pkt.placedFor headroom raw) [] payload
  rw [hdetect] at hahead
  rw [← hraw, List.nil_append] at hrun
  have hparse : parse true isScion (pkt.placedFor headroom raw, ReadStream.cursor [] raw)
      = .ok () (f (withScion sci path (pkt.placedFor headroom raw)),
        ReadStream.cursor (sci.bytes ++ path ++ l4) payload) := by
    rw [parse_eq, parseUnderlay, if_pos rfl]
    rw [pure_bind, bind_ok hahead, if_neg Bool.false_ne_true]
    exact hrun
  exact receive_of_parse hfits hparse (hf.packet _)

/-- Its payload is what followed the transport header. -/
theorem payload_gotScion {sci : SCION} {path l4 : List UInt8}
    {f : PacketBuffer → PacketBuffer} (hf : KeepsRaw f)
    (hfits : (sci.bytes ++ path ++ l4 ++ payload).length ≤ pkt.buffer.length - headroom) :
    (gotScion headroom sci path l4 payload f pkt).payload = payload :=
  payload_of_parse hfits (hf.buffer _) (hf.packet _) rfl

theorem placed_gotScion {sci : SCION} {path l4 : List UInt8}
    {f : PacketBuffer → PacketBuffer} (hf : KeepsRaw f)
    (hfits : (sci.bytes ++ path ++ l4 ++ payload).length ≤ pkt.buffer.length - headroom) :
    (gotScion headroom sci path l4 payload f pkt).Placed :=
  placed_of_parse hfits (hf.buffer _) (hf.packet _) rfl

/-! ### Datagrams over IPv6 -/

/-- The version in the first bits of the header. -/
theorem bitsAt_version (ip : IPv6) (rest : List UInt8) :
    ReadStream.bitsAt (ip.bytes ++ rest) 0 4 = 6 := by
  have htc := ip.tc.toNat_lt
  have hfl : ip.fl.toNat % 2 ^ 20 < 2 ^ 20 := Nat.mod_lt _ (by norm_num)
  rw [IPv6.bytes, List.append_assoc, bitsAt_append_right _ _ _ _ (by rw [length_beBytes]; omega),
    bitsAt, length_beBytes, beNat_beBytes, classWord]
  omega

/-- The version is read first, and then the whole header. -/
theorem parseIP_ipv6 {ip : IPv6} (hfits : ip.Fits) (pkt : PacketBuffer) (rest : List UInt8) :
    parseIP (pkt, ReadStream.cursor [] (ip.bytes ++ rest))
      = .ok (ip.src, ip.nh) ({ pkt with ipv6 := ip, ipValid := .ipv6 },
        ReadStream.cursor ip.bytes rest) := by
  have hbits := (((readsBits_serializeBits 8 0 4 (by norm_num) (by norm_num)).map
    UInt64.toUInt8) [] (ip.bytes ++ rest) 0 rfl (Nat.zero_le _)).1 (by
      rw [List.length_append, IPv6.length_bytes ⟨hfits.src.1, hfits.dst.1⟩]
      omega)
  rw [bitsAt_version, bitCursor_zero] at hbits
  have hver : scan (UInt64.toUInt8 <$> ReadStream.serializeBits 8 4)
      (pkt, ReadStream.cursor [] (ip.bytes ++ rest))
        = .ok 6 (pkt, ReadStream.bitCursor [] (ip.bytes ++ rest) (0 + 4)) := by
    rw [scan, hbits]
    rfl
  have hdata : (ReadStream.bitCursor [] (ip.bytes ++ rest) (0 + 4)).data = ip.bytes ++ rest :=
    List.nil_append _
  have hall : ReadsPart (do
      let ipv6 ← scanInto (fun _ => IPv6.read) fun ipv6 pkt =>
        { pkt with ipv6 := ipv6, ipValid := .ipv6 }
      pure (ipv6.src, ipv6.nh)) ip.bytes (ip.src, ip.nh) _ :=
    (readsPart_into fun _ => IPv6.reads hfits).bind_nil (ReadsInto.pure (ip.src, ip.nh))
  have hrun := hall pkt [] rest
  rw [List.nil_append] at hrun
  rw [parseIP, bind_ok hver, if_neg (by decide), if_pos rfl, scan_seek hdata]
  exact hrun

/-- The buffer that has received a packet from the TUN interface. -/
def gotIPv6 (headroom : ℕ) (ip : IPv6) (l4 payload : List UInt8)
    (f : PacketBuffer → PacketBuffer) (pkt : PacketBuffer) : PacketBuffer :=
  { f { pkt.placedFor headroom (ip.bytes ++ l4 ++ payload) with ipv6 := ip, ipValid := .ipv6 } with
    endOfHeader := min headroom pkt.buffer.length + (ip.bytes ++ l4).length }

/-- A packet that is not taken for STUN is accepted. -/
theorem receive_ipv6 {ip : IPv6} {l4 : List UInt8} {f : PacketBuffer → PacketBuffer}
    (hip : ip.Fits) (hstun : detectStun (l4 ++ payload) = false)
    (hl4 : ReadsPart (parseInner false isScion ip.src ip.nh) l4 () f) (hf : KeepsRaw f)
    (hfits : (ip.bytes ++ l4 ++ payload).length ≤ pkt.buffer.length - headroom) :
    pkt.receive headroom (ip.bytes ++ l4 ++ payload) false isScion
      = (.ok, gotIPv6 headroom ip l4 payload f pkt) := by
  set raw := ip.bytes ++ l4 ++ payload with hraw
  have hunderlay := parseIP_ipv6 hip (pkt.placedFor headroom raw) (l4 ++ payload)
  have hahead := aheadStun_cursor
    { pkt.placedFor headroom raw with ipv6 := ip, ipValid := .ipv6 } ip.bytes (l4 ++ payload)
  have hrun := hl4 { pkt.placedFor headroom raw with ipv6 := ip, ipValid := .ipv6 } ip.bytes payload
  rw [← List.append_assoc, ← hraw] at hunderlay
  rw [hstun] at hahead
  have hparse : parse false isScion (pkt.placedFor headroom raw, ReadStream.cursor [] raw)
      = .ok () (f { pkt.placedFor headroom raw with ipv6 := ip, ipValid := .ipv6 },
        ReadStream.cursor (ip.bytes ++ l4) payload) := by
    rw [parse_eq, parseUnderlay, if_neg Bool.false_ne_true, bind_ok hunderlay, bind_ok hahead,
      if_neg Bool.false_ne_true]
    exact hrun
  exact receive_of_parse hfits hparse (hf.packet _)

theorem payload_gotIPv6 {ip : IPv6} {l4 : List UInt8} {f : PacketBuffer → PacketBuffer}
    (hf : KeepsRaw f)
    (hfits : (ip.bytes ++ l4 ++ payload).length ≤ pkt.buffer.length - headroom) :
    (gotIPv6 headroom ip l4 payload f pkt).payload = payload :=
  payload_of_parse hfits (hf.buffer _) (hf.packet _) rfl

theorem placed_gotIPv6 {ip : IPv6} {l4 : List UInt8} {f : PacketBuffer → PacketBuffer}
    (hf : KeepsRaw f)
    (hfits : (ip.bytes ++ l4 ++ payload).length ≤ pkt.buffer.length - headroom) :
    (gotIPv6 headroom ip l4 payload f pkt).Placed :=
  placed_of_parse hfits (hf.buffer _) (hf.packet _) rfl

/-- What parsing a datagram does to the buffer. -/
def withDatagram (udp : UDP) (pkt : PacketBuffer) : PacketBuffer :=
  { pkt with outerUDP := udp, udp := udp, outerUDPValid := false, l4Valid := .udp }

theorem keepsRaw_withDatagram (udp : UDP) : KeepsRaw (withDatagram udp) :=
  ⟨fun _ => rfl, fun _ => rfl⟩

theorem readsPart_datagram (srcIP : IPAddress) (udp : UDP) :
    ReadsPart (parseInner false none srcIP IPProto.udp) udp.bytes () (withDatagram udp) := by
  intro pkt pre post
  have hread : scanInto (fun _ => UDP.read) (fun outerUDP pkt => { pkt with outerUDP := outerUDP })
      (pkt, ReadStream.cursor pre (udp.bytes ++ post))
        = .ok udp ({ pkt with outerUDP := udp }, ReadStream.cursor (pre ++ udp.bytes) post) :=
    scanInto_cursor (UDP.reads udp) pre post
  rw [parseInner, if_neg Bool.false_ne_true, if_pos rfl, parseUDP, bind_ok hread]
  rfl

end Receive

end PacketBuffer

end Scion
