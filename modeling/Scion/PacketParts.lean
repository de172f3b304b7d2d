/-
The parts of a parsed packet (`scitra/packet.cpp`).

* `Scans` — what a parser consumes, and what becomes of the packet buffer;
* `Parts` — the bytes of the headers, one behind the other, and the members they were
  parsed into;
* `parse_spec` — a packet that was accepted is a STUN message or has these parts;
* `receive` — a packet is placed in the buffer and parsed.
-/
import Scion.PacketBuffer
import Scion.ScmpCodec

namespace Scion

open BigEndian Codec ReadStream

namespace PacketParser

/-! ### Parsers that succeeded -/

/-- The buffer before, the bytes consumed, the value and the buffer afterwards stand in
the relation `P`, whenever the parser did not fail. -/
def Scans {α : Type} (m : PacketParser α)
    (P : PacketBuffer → List UInt8 → α → PacketBuffer → Prop) : Prop :=
  ∀ pkt pre post a s, m (pkt, ReadStream.cursor pre post) = .ok a s →
    ∃ bs rest pkt', post = bs ++ rest ∧ s = (pkt', ReadStream.cursor (pre ++ bs) rest) ∧
      P pkt bs a pkt'

variable {α β : Type}

theorem Scans.mono {m : PacketParser α} {P Q : PacketBuffer → List UInt8 → α → PacketBuffer → Prop}
    (h : Scans m P) (hPQ : ∀ pkt bs a pkt', P pkt bs a pkt' → Q pkt bs a pkt') : Scans m Q := by
  intro pkt pre post a s hrun
  obtain ⟨bs, rest, pkt', hpost, hs, hP⟩ := h pkt pre post a s hrun
  exact ⟨bs, rest, pkt', hpost, hs, hPQ pkt bs a pkt' hP⟩

theorem Scans.pure (a : α) :
    Scans (Pure.pure a : PacketParser α) fun pkt bs b pkt' => bs = [] ∧ b = a ∧ pkt' = pkt := by
  intro pkt pre post b s h
  cases h
  exact ⟨[], post, pkt, rfl, by rw [List.append_nil], rfl, rfl, rfl⟩

theorem Scans.bind {x : PacketParser α} {f : α → PacketParser β}
    {P : PacketBuffer → List UInt8 → α → PacketBuffer → Prop}
    {Q : α → PacketBuffer → List UInt8 → β → PacketBuffer → Prop} (hx : Scans x P)
    (hf : ∀ a, Scans (f a) (Q a)) :
    Scans (x >>= f) fun pkt bs b pkt' =>
      ∃ xs a mid ys, bs = xs ++ ys ∧ P pkt xs a mid ∧ Q a mid ys b pkt' := by
  intro pkt pre post b s h
  obtain ⟨a, s', hrun, hrest⟩ := bind_eq_ok.mp h
  obtain ⟨xs, post', mid, rfl, rfl, hP⟩ := hx pkt pre post a s' hrun
  obtain ⟨ys, rest, pkt', rfl, rfl, hQ⟩ := hf a mid (pre ++ xs) post' b s hrest
  exact ⟨xs ++ ys, rest, pkt', (List.append_assoc ..).symm, by rw [List.append_assoc], xs, a, mid,
    ys, rfl, hP, hQ⟩

theorem Scans.throw (e : String) (P : PacketBuffer → List UInt8 → α → PacketBuffer → Prop) :
    Scans (MonadExcept.throw e : PacketParser α) P :=
  fun _ _ _ _ _ h => by cases h

end PacketParser

namespace PacketBuffer

open PacketParser

variable {α : Type}

theorem scan_eq_ok {r : Reader α} {pkt : PacketBuffer} {rs : ReadStream} {a : α}
    {s : PacketBuffer × ReadStream} (h : scan r (pkt, rs) = .ok a s) :
    ∃ rs', r rs = .ok a rs' ∧ s = (pkt, rs') := by
  rw [scan] at h
  cases hr : r rs with
  | ok b rs' =>
    simp only [hr] at h
    cases h
    exact ⟨rs', rfl, rfl⟩
  | error e rs' =>
    simp only [hr] at h
    cases h

theorem scans_scan {r : Reader α} {P : List UInt8 → α → Prop} (hr : Takes ReadStream.cursor r P) :
    Scans (scan r) fun pkt bs a pkt' => P bs a ∧ pkt' = pkt := by
  intro pkt pre post a s h
  obtain ⟨rs', hrun, rfl⟩ := scan_eq_ok h
  obtain ⟨bs, rest, hpost, rfl, hP⟩ := hr pre post a rs' hrun
  exact ⟨bs, rest, pkt, hpost, rfl, hP, rfl⟩

theorem scans_update (f : PacketBuffer → PacketBuffer) :
    Scans (update f) fun pkt bs _ pkt' => bs = [] ∧ pkt' = f pkt := by
  intro pkt pre post a s h
  cases h
  exact ⟨[], post, f pkt, rfl, by rw [List.append_nil], rfl, rfl⟩

theorem scans_into {r : PacketBuffer → Reader α} {set : α → PacketBuffer → PacketBuffer}
    {P : PacketBuffer → List UInt8 → α → Prop}
    (hr : ∀ pkt, Takes ReadStream.cursor (r pkt) (P pkt)) :
    Scans (scanInto r set) fun pkt bs a pkt' => P pkt bs a ∧ pkt' = set a pkt := by
  intro pkt
  have hrun := (scans_scan (hr pkt)).bind fun a =>
    (scans_update (set a)).bind fun _ => Scans.pure a
  intro pre post a s h
  obtain ⟨bs, rest, pkt', hpost, hs, xs, b, _, ys, rfl, ⟨hP, rfl⟩, _, _, _, _, rfl,
    ⟨rfl, rfl⟩, rfl, rfl, rfl⟩ := hrun pkt pre post a s h
  rw [List.append_nil, List.append_nil] at hpost hs
  exact ⟨xs, rest, _, hpost, hs, hP, rfl⟩

/-- `scanInto` whose value is dropped. -/
theorem scans_into_unit {r : PacketBuffer → Reader α} {set : α → PacketBuffer → PacketBuffer}
    {P : PacketBuffer → List UInt8 → α → Prop}
    (hr : ∀ pkt, Takes ReadStream.cursor (r pkt) (P pkt)) :
    Scans (do let _ ← scanInto r set; pure ()) fun pkt bs _ pkt' =>
      ∃ a, P pkt bs a ∧ pkt' = set a pkt := by
  refine ((scans_into hr).bind fun _ => Scans.pure ()).mono ?_
  rintro pkt bs _ pkt' ⟨xs, a, mid, ys, rfl, ⟨hP, rfl⟩, rfl, -, rfl⟩
  exact ⟨a, by rwa [List.append_nil], rfl⟩

/-! ### The IP header -/

theorem of_map_eq_ok {ε σ β : Type} {x : EStateM ε σ α} {f : α → β} {s t : σ} {b : β}
    (h : (f <$> x) s = .ok b t) : ∃ a, x s = .ok a t ∧ b = f a := by
  obtain ⟨a, s', hrun, hpure⟩ := bind_eq_ok.mp h
  cases hpure
  exact ⟨a, hrun, rfl⟩

/-- Bits are read from the same data. -/
theorem data_of_serializeBits {valueBits bits : ℕ} {rs rs' : ReadStream} {v : UInt64}
    (h : ReadStream.serializeBits valueBits bits rs = .ok v rs') : rs'.data = rs.data := by
  rw [serializeBits] at h
  by_cases hzero : bits = 0
  · rw [if_pos hzero] at h
    cases h
    rfl
  rw [if_neg hzero] at h
  by_cases hwide : bits > min (64 - 7) valueBits
  · rw [if_pos hwide] at h
    cases h
  rw [if_neg hwide] at h
  by_cases hshort : rs.remaining < (bits + rs.bitPos + 7) / 8
  · simp only [if_pos hshort] at h
    cases h
  · simp only [if_neg hshort] at h
    cases h
    rfl

/-- The IP header of a packet. -/
inductive IPPart (pkt : PacketBuffer) : List UInt8 → Prop
  | ipv4 (chksum : UInt16) (valid : pkt.ipValid = .ipv4) (is4 : pkt.ipv4.Is4)
      (verifies : onesComplementChecksum (pkt.ipv4.bytesWith chksum) 0 = 0xffff) :
      IPPart pkt (pkt.ipv4.bytesWith chksum)
  | ipv6 (valid : pkt.ipValid = .ipv6) (is6 : pkt.ipv6.Is6) : IPPart pkt pkt.ipv6.bytes

/-- The seek back to the beginning of the packet. -/
theorem scan_seek {rs : ReadStream} {raw : List UInt8} {pkt : PacketBuffer}
    {f : Unit → PacketParser α} (hdata : rs.data = raw) :
    (scan (modify fun rs => (rs.seek (some 0) 0).2) >>= f) (pkt, rs)
      = f () (pkt, ReadStream.cursor [] raw) := by
  have hseek : (rs.seek (some 0) 0).2 = ReadStream.cursor [] raw :=
    seek_eq_cursor (by rw [hdata, List.nil_append]) rfl
  have hscan : scan (modify fun rs => (rs.seek (some 0) 0).2) (pkt, rs)
      = .ok () (pkt, ReadStream.cursor [] raw) := by
    rw [← hseek]
    rfl
  exact bind_ok hscan

/-- At the beginning of the packet. -/
theorem parseIP_spec {pkt : PacketBuffer} {raw : List UInt8} {ip : IPAddress × IPProto}
    {s : PacketBuffer × ReadStream} (h : parseIP (pkt, ReadStream.cursor [] raw) = .ok ip s) :
    ∃ bs rest pkt', raw = bs ++ rest ∧ s = (pkt', ReadStream.cursor bs rest) ∧ IPPart pkt' bs ∧
      ((∃ h4, pkt' = { pkt with ipv4 := h4, ipValid := .ipv4 }) ∨
        ∃ h6, pkt' = { pkt with ipv6 := h6, ipValid := .ipv6 }) := by
  rw [parseIP] at h
  obtain ⟨ipVer, s₁, hver, h⟩ := bind_eq_ok.mp h
  obtain ⟨rs, hbits, rfl⟩ := scan_eq_ok hver
  obtain ⟨v, hword, rfl⟩ := of_map_eq_ok hbits
  have hdata : rs.data = raw := data_of_serializeBits hword
  by_cases h4 : v.toUInt8 = 4
  · rw [if_pos h4, scan_seek hdata] at h
    obtain ⟨bs, rest, _, rfl, rfl, xs, h4, _, ys, rfl, ⟨⟨his, hchksum, chksum, rfl⟩, rfl⟩, rfl, -,
      rfl⟩ := ((scans_into fun _ => IPv4.takes).bind fun h4 =>
        Scans.pure (h4.src, h4.proto)) pkt [] raw ip s h
    rw [List.append_nil, List.nil_append]
    exact ⟨_, rest, _, rfl, rfl, IPPart.ipv4 chksum rfl his hchksum, .inl ⟨h4, rfl⟩⟩
  rw [if_neg h4] at h
  by_cases h6 : v.toUInt8 = 6
  · rw [if_pos h6, scan_seek hdata] at h
    obtain ⟨bs, rest, _, rfl, rfl, xs, h6, _, ys, rfl, ⟨⟨his, rfl⟩, rfl⟩, rfl, -, rfl⟩ :=
      ((scans_into fun _ => IPv6.takes).bind fun h6 => Scans.pure (h6.src, h6.nh)) pkt [] raw ip s h
    rw [List.append_nil, List.nil_append]
    exact ⟨_, rest, _, rfl, rfl, IPPart.ipv6 rfl his, .inr ⟨h6, rfl⟩⟩
  · rw [if_neg h6] at h
    cases h

/-! ### The SCION header -/

/-- The path behind the header is assigned and skipped. -/
theorem scans_path {source destination : IsdAsn} {type : PathType} {n : ℕ} {f : PacketParser α}
    {Q : PacketBuffer → List UInt8 → α → PacketBuffer → Prop} (hf : Scans f Q) :
    Scans (do
      let pdata ← scan (ReadStream.lookahead (some n))
      assignPath source destination type pdata
      scan (ReadStream.advanceBytes n)
      f) fun pkt bs a pkt' => ∃ path ys, bs = path.encoded ++ ys ∧ path.size = path.encoded.length ∧
        path.size = n ∧ n ≤ RawPathContents.maxSize ∧ Q { pkt with path := path } ys a pkt' := by
  intro pkt pre post a s h
  obtain ⟨pdata, s₁, hscan, h⟩ := bind_eq_ok.mp h
  obtain ⟨rs, hlook, rfl⟩ := scan_eq_ok hscan
  obtain ⟨_, s₂, hassign, h⟩ := bind_eq_ok.mp h
  obtain ⟨_, s₃, hskip, h⟩ := bind_eq_ok.mp h
  -- looking ahead does not move
  obtain ⟨rest, rfl, hlen, rfl⟩ : ∃ rest, post = pdata ++ rest ∧ pdata.length = n ∧
      rs = ReadStream.cursor pre post := by
    rw [lookahead, if_neg (by simp)] at hlook
    by_cases hshort : (ReadStream.cursor pre post).remaining < n
    · rw [if_pos hshort] at hlook
      cases hlook
    · rw [if_neg hshort] at hlook
      cases hlook
      rw [remaining_cursor] at hshort
      rw [next_cursor]
      exact ⟨_, (List.take_append_drop n post).symm, by rw [List.length_take]; omega, rfl⟩
  rw [assignPath] at hassign
  cases hpath : pkt.path.assign source destination type pdata with
  | error e =>
    simp only [hpath] at hassign
    cases hassign
  | ok path =>
    simp only [hpath] at hassign
    cases hassign
    obtain ⟨rfl, hsize, hmax⟩ := RawPathContents.encoded_of_assign hpath
    obtain ⟨bs, rest', _, hsplit, rfl, hbs, rfl⟩ :=
      scans_scan (takes_advanceBytes n) _ pre _ _ s₃ hskip
    obtain ⟨rfl, rfl⟩ := List.append_inj hsplit (hlen.trans hbs.symm)
    obtain ⟨ys, rest, pkt', rfl, rfl, hQ⟩ := hf _ _ _ a s h
    exact ⟨path.encoded ++ ys, rest, pkt', (List.append_assoc ..).symm, by rw [List.append_assoc],
      path, ys, rfl, hsize, hsize.trans hlen, by omega, hQ⟩

theorem scans_skipOpts (kind proto : ScionProto) :
    Scans (skipOpts kind proto) fun pkt bs nh pkt' =>
      pkt' = pkt ∧ (proto ≠ kind → bs = [] ∧ nh = proto) := by
  rw [skipOpts]
  by_cases h : proto = kind
  · rw [if_pos h]
    refine ((scans_scan OptsHeader.takes).bind fun opts =>
      (scans_scan (takes_advanceBytes opts.optionSize)).bind fun _ => Scans.pure opts.nh).mono ?_
    rintro pkt bs nh pkt' ⟨_, _, _, _, rfl, ⟨-, rfl⟩, _, _, _, _, rfl, ⟨-, rfl⟩, -, -, rfl⟩
    exact ⟨rfl, fun hne => absurd h hne⟩
  · rw [if_neg h]
    refine (Scans.pure proto).mono ?_
    rintro pkt bs nh pkt' ⟨rfl, rfl, rfl⟩
    exact ⟨rfl, fun _ => ⟨rfl, rfl⟩⟩

/-- Header, path and extension headers of a packet, with the protocol behind them. -/
structure ScionPart (pkt : PacketBuffer) (proto : ScionProto) (bs : List UInt8) where
  reserved : List UInt8
  exts : List UInt8
  bytes_eq : bs = pkt.sci.bytesWith reserved ++ (pkt.path.encoded ++ exts)
  length_reserved : reserved.length = 2
  fl_lt : pkt.sci.fl.toNat < 2 ^ 20
  size_path : pkt.path.size = pkt.path.encoded.length
  size_eq : pkt.sci.size + pkt.path.size = 4 * pkt.sci.hlen.toNat
  noExts : pkt.sci.nh ≠ ScionProto.hbhOpt → pkt.sci.nh ≠ ScionProto.e2eOpt →
    exts = [] ∧ proto = pkt.sci.nh

theorem scans_parseScion : Scans parseScion fun pkt bs proto pkt' =>
    Nonempty (ScionPart pkt' proto bs) ∧
      ∃ sci path, pkt' = { pkt with sci := sci, path := path, scionValid := true } := by
  refine ((scans_into fun _ => SCION.takes_bytes).bind fun sci => scans_path
    ((scans_skipOpts ScionProto.hbhOpt sci.nh).bind fun proto =>
      (scans_skipOpts ScionProto.e2eOpt proto).bind fun proto =>
        (scans_update fun pkt => { pkt with scionValid := true }).bind fun _ =>
          Scans.pure proto)).mono ?_
  rintro pkt bs proto pkt' ⟨_, sci, _, ys, rfl, ⟨⟨⟨reserved, hreserved, rfl⟩, hfl, -⟩, rfl⟩, hrest⟩
  obtain ⟨path, zs, rfl, hencoded, hsize, hmax, hrest⟩ := hrest
  obtain ⟨hbh, proto₁, _, us, rfl, ⟨rfl, hhbh⟩, hrest⟩ := hrest
  obtain ⟨e2e, proto₂, _, vs, rfl, ⟨rfl, he2e⟩, hrest⟩ := hrest
  obtain ⟨_, _, _, _, rfl, ⟨rfl, rfl⟩, rfl, rfl, rfl⟩ := hrest
  rw [List.append_nil, List.append_nil]
  refine ⟨⟨⟨reserved, hbh ++ e2e, rfl, hreserved, hfl, hencoded, ?_, fun hne₁ hne₂ => ?_⟩⟩, sci,
    path, rfl⟩
  · -- the path is not as long as one behind a header longer than its own length
    have hlen := sci.hlen.toNat_lt
    have hsci : sci.size ≤ 12 + 24 + 24 := by
      rw [SCION.size, ScIPAddress.size, ScIPAddress.size, IsdAsn.size, IsdAsn.size, IPAddress.size,
        IPAddress.size]
      split <;> split <;> omega
    rw [SCION.pathSize] at hsize hmax
    rw [RawPathContents.maxSize] at hmax
    show sci.size + path.size = 4 * sci.hlen.toNat
    omega
  · obtain ⟨rfl, rfl⟩ := hhbh hne₁
    obtain ⟨rfl, rfl⟩ := he2e hne₂
    exact ⟨rfl, rfl⟩

/-! ### The transport header -/

/-- The transport header of a packet, parsed when `old` was the TCP header of the buffer. -/
inductive L4Part (old : TCP) (pkt : PacketBuffer) : List UInt8 → Prop
  | icmp (valid : pkt.l4Valid = .icmp) : L4Part old pkt pkt.icmp.bytes
  | scmp {bs : List UInt8} (valid : pkt.l4Valid = .scmp) (holds : SCMP.Holds bs pkt.scmp) :
      L4Part old pkt bs
  | tcp {bs : List UInt8} (valid : pkt.l4Valid = .tcp) (parsed : TCP.Parsed old bs pkt.tcp) :
      L4Part old pkt bs
  | udp (valid : pkt.l4Valid = .udp) : L4Part old pkt pkt.udp.bytes

/-- Only the members of layer 4 are others. -/
def OnlyL4 (pkt pkt' : PacketBuffer) : Prop :=
  ∃ icmp scmp tcp udp l4Valid,
    pkt' = { pkt with icmp := icmp, scmp := scmp, tcp := tcp, udp := udp, l4Valid := l4Valid }

theorem scans_parseScmp : Scans parseScmp fun pkt bs _ pkt' =>
    L4Part pkt.tcp pkt' bs ∧ pkt'.l4Valid = .scmp ∧ OnlyL4 pkt pkt' := by
  intro pkt pre post a s h
  -- the message is the one that `SCMP.read` reads
  have hread : ∃ scmp rs, SCMP.read (ReadStream.cursor pre post) = .ok scmp rs ∧
      s = ({ pkt with scmp := scmp, l4Valid := .scmp }, rs) := by
    obtain ⟨type, s₁, hscan₁, h⟩ := bind_eq_ok.mp h
    obtain ⟨rs₁, htype, rfl⟩ := scan_eq_ok hscan₁
    obtain ⟨code, s₂, hscan₂, h⟩ := bind_eq_ok.mp h
    obtain ⟨rs₂, hcode, rfl⟩ := scan_eq_ok hscan₂
    obtain ⟨chksum, s₃, hinto₃, h⟩ := bind_eq_ok.mp h
    obtain ⟨_, s₄, hscan₃, hset₃⟩ := bind_eq_ok.mp hinto₃
    obtain ⟨rs₃, hchksum, rfl⟩ := scan_eq_ok hscan₃
    cases hset₃
    obtain ⟨_, s₅, hinto₅, h⟩ := bind_eq_ok.mp h
    obtain ⟨msg, s₆, hscan₅, hset₅⟩ := bind_eq_ok.mp hinto₅
    obtain ⟨rs₅, hmsg, rfl⟩ := scan_eq_ok hscan₅
    cases hset₅
    cases h
    refine ⟨⟨_, _⟩, rs₅, ?_, rfl⟩
    rw [SCMP.read, bind_ok htype, bind_ok hcode, bind_ok hchksum, bind_ok hmsg]
    rfl
  obtain ⟨scmp, rs, hread, rfl⟩ := hread
  obtain ⟨bs, rest, rfl, rfl, hholds⟩ := SCMP.takes pre post scmp rs hread
  exact ⟨bs, rest, _, rfl, rfl, L4Part.scmp rfl hholds, rfl, _, _, _, _, _, rfl⟩

theorem scans_parseL4 (proto : ScionProto) : Scans (parseL4 proto) fun pkt bs _ pkt' =>
    L4Part pkt.tcp pkt' bs ∧ pkt'.l4Valid.proto = proto ∧ OnlyL4 pkt pkt' := by
  rw [parseL4]
  by_cases hscmp : proto = ScionProto.scmp
  · rw [if_pos hscmp]
    refine scans_parseScmp.mono ?_
    rintro pkt bs _ pkt' ⟨hpart, hvalid, honly⟩
    exact ⟨hpart, by rw [hvalid, hscmp]; rfl, honly⟩
  rw [if_neg hscmp]
  by_cases hicmp : proto = IPProto.icmpv6
  · rw [if_pos hicmp]
    refine (scans_into_unit fun _ => ICMPv6.takes).mono ?_
    rintro pkt bs _ pkt' ⟨icmp, rfl, rfl⟩
    exact ⟨L4Part.icmp rfl, hicmp.symm, _, _, _, _, _, rfl⟩
  rw [if_neg hicmp]
  by_cases htcp : proto = ScionProto.tcp
  · rw [if_pos htcp]
    refine (scans_into_unit fun pkt => TCP.takes pkt.tcp).mono ?_
    rintro pkt bs _ pkt' ⟨tcp, ⟨hparsed⟩, rfl⟩
    exact ⟨L4Part.tcp rfl hparsed, htcp.symm, _, _, _, _, _, rfl⟩
  rw [if_neg htcp]
  by_cases hudp : proto = ScionProto.udp
  · rw [if_pos hudp]
    refine (scans_into_unit fun _ => UDP.takes).mono ?_
    rintro pkt bs _ pkt' ⟨udp, rfl, rfl⟩
    exact ⟨L4Part.udp rfl, hudp.symm, _, _, _, _, _, rfl⟩
  · rw [if_neg hudp]
    exact Scans.throw _ _

/-! ### The headers behind the IP header -/

/-- The headers from the SCION header on. -/
structure InnerPart (old : TCP) (pkt : PacketBuffer) (bs : List UInt8) where
  scion : List UInt8
  l4 : List UInt8
  bytes_eq : bs = bytesIf pkt.outerUDPValid pkt.outerUDP.bytes ++ (scion ++ l4)
  scion_part : pkt.scionValid = true → Nonempty (ScionPart pkt pkt.l4Valid.proto scion)
  no_scion : pkt.scionValid = false → scion = []
  underlay : pkt.outerUDPValid = true → pkt.scionValid = true
  l4_part : L4Part old pkt l4

/-- The IP header, and where the packet lies in the buffer. -/
structure SameFront (pkt pkt' : PacketBuffer) : Prop where
  ipValid : pkt'.ipValid = pkt.ipValid
  ipv4 : pkt'.ipv4 = pkt.ipv4
  ipv6 : pkt'.ipv6 = pkt.ipv6
  buffer : pkt'.buffer = pkt.buffer
  packet : pkt'.packet = pkt.packet
  stunValid : pkt'.stunValid = pkt.stunValid

/-- A packet whose SCION header is the next one. -/
theorem scans_scion : Scans (do let proto ← parseScion; parseL4 proto) fun pkt bs _ pkt' =>
    ∃ scion l4, bs = scion ++ l4 ∧ Nonempty (ScionPart pkt' pkt'.l4Valid.proto scion) ∧
      pkt'.scionValid = true ∧ pkt'.outerUDPValid = pkt.outerUDPValid ∧
      pkt'.outerUDP = pkt.outerUDP ∧ L4Part pkt.tcp pkt' l4 ∧ SameFront pkt pkt' := by
  refine (scans_parseScion.bind fun proto => scans_parseL4 proto).mono ?_
  rintro pkt bs _ pkt' ⟨scion, proto, _, l4, rfl, ⟨⟨hscion⟩, sci, path, rfl⟩, hl4, rfl, icmp, scmp,
    tcp, udp, l4Valid, rfl⟩
  exact ⟨scion, l4, rfl, ⟨⟨hscion.reserved, hscion.exts, hscion.bytes_eq, hscion.length_reserved,
    hscion.fl_lt, hscion.size_path, hscion.size_eq, hscion.noExts⟩⟩, rfl, rfl, rfl, hl4,
    ⟨rfl, rfl, rfl, rfl, rfl, rfl⟩⟩

theorem scans_parseUDP (isScion : Option IsScion) (srcIP : IPAddress) :
    Scans (parseUDP isScion srcIP) fun pkt bs _ pkt' =>
      pkt.scionValid = false → Nonempty (InnerPart pkt.tcp pkt' bs) ∧ SameFront pkt pkt' := by
  have houter : Scans (scanInto (fun _ => UDP.read) fun outerUDP pkt =>
      { pkt with outerUDP := outerUDP }) _ := scans_into fun _ => UDP.takes
  refine (houter.bind (Q := fun outerUDP pkt bs _ pkt' => pkt.scionValid = false →
    pkt.outerUDP = outerUDP → Nonempty (InnerPart pkt.tcp pkt' (outerUDP.bytes ++ bs)) ∧
      SameFront pkt pkt') fun outerUDP => ?_).mono ?_
  · by_cases hunderlay : isScion.any fun isScion =>
        isScion ⟨srcIP, outerUDP.sport⟩ ⟨srcIP, outerUDP.dport⟩
    · rw [if_pos hunderlay]
      refine ((scans_update _).bind fun _ => scans_scion).mono ?_
      rintro pkt bs _ pkt' ⟨_, _, _, _, rfl, ⟨rfl, rfl⟩, scion, l4, rfl, hpart, hvalid, hunder, hudp,
        hl4, hsame⟩ - rfl
      replace hunder : pkt'.outerUDPValid = true := hunder
      refine ⟨⟨⟨scion, l4, ?_, fun _ => hpart, fun hnot => ?_, fun _ => hvalid, hl4⟩⟩, ⟨hsame.ipValid,
        hsame.ipv4, hsame.ipv6, hsame.buffer, hsame.packet, hsame.stunValid⟩⟩
      · rw [hunder, hudp]
        rfl
      · rw [hvalid] at hnot
        cases hnot
    · rw [if_neg hunderlay]
      refine (scans_update _).mono ?_
      rintro pkt bs _ pkt' ⟨rfl, rfl⟩ hscion rfl
      refine ⟨⟨⟨[], pkt.outerUDP.bytes, ?_, fun hvalid => ?_, fun _ => rfl, fun h => ?_,
        L4Part.udp rfl⟩⟩, ⟨rfl, rfl, rfl, rfl, rfl, rfl⟩⟩
      · rw [List.append_nil]
        rfl
      · rw [hscion] at hvalid
        cases hvalid
      · cases h
  · rintro pkt bs _ pkt' ⟨_, outerUDP, _, ys, rfl, ⟨rfl, rfl⟩, hrest⟩ hscion
    obtain ⟨hpart, hsame⟩ := hrest hscion rfl
    exact ⟨hpart, ⟨hsame.ipValid, hsame.ipv4, hsame.ipv6, hsame.buffer, hsame.packet,
      hsame.stunValid⟩⟩

theorem scans_parseInner (noUnderlay : Bool) (isScion : Option IsScion) (srcIP : IPAddress)
    (ipProto : IPProto) :
    Scans (parseInner noUnderlay isScion srcIP ipProto) fun pkt bs _ pkt' =>
      pkt.scionValid = false → pkt.outerUDPValid = false →
        Nonempty (InnerPart pkt.tcp pkt' bs) ∧ SameFront pkt pkt' ∧
          (noUnderlay = true → pkt'.outerUDPValid = false) := by
  rw [parseInner]
  cases noUnderlay with
  | true =>
    rw [if_pos rfl]
    refine scans_scion.mono ?_
    rintro pkt bs _ pkt' ⟨scion, l4, rfl, hpart, hvalid, hunder, -, hl4, hsame⟩ - houter
    rw [houter] at hunder
    refine ⟨⟨⟨scion, l4, ?_, fun _ => hpart, fun hnot => ?_, fun _ => hvalid, hl4⟩⟩, hsame,
      fun _ => hunder⟩
    · rw [hunder]
      rfl
    · rw [hvalid] at hnot
      cases hnot
  | false =>
    rw [if_neg Bool.false_ne_true]
    by_cases hudp : ipProto = IPProto.udp
    · rw [if_pos hudp]
      refine (scans_parseUDP isScion srcIP).mono ?_
      rintro pkt bs _ pkt' h hscion -
      exact ⟨(h hscion).1, (h hscion).2, fun h => by cases h⟩
    · rw [if_neg hudp]
      refine (scans_parseL4 ipProto).mono ?_
      rintro pkt bs _ pkt' ⟨hl4, -, icmp, scmp, tcp, udp, l4Valid, rfl⟩ hscion houter
      refine ⟨⟨⟨[], bs, ?_, fun hvalid => ?_, fun _ => rfl, fun h => ?_, hl4⟩⟩,
        ⟨rfl, rfl, rfl, rfl, rfl, rfl⟩, fun h => by cases h⟩
      · show bs = bytesIf pkt.outerUDPValid _ ++ _
        rw [houter]
        rfl
      · rw [show pkt.scionValid = true from hvalid] at hscion
        cases hscion
      · rw [show pkt.outerUDPValid = true from h] at houter
        cases houter

/-! ### Whole packets -/

/-- No header is valid. -/
structure Cleared (pkt : PacketBuffer) : Prop where
  ipValid : pkt.ipValid = .none
  outerUDPValid : pkt.outerUDPValid = false
  stunValid : pkt.stunValid = false
  scionValid : pkt.scionValid = false
  l4Valid : pkt.l4Valid = .none

/-- A STUN message, behind an IP header at most. -/
structure StunMessage (pkt : PacketBuffer) : Prop where
  stunValid : pkt.stunValid = true
  outerUDPValid : pkt.outerUDPValid = false
  scionValid : pkt.scionValid = false
  l4Valid : pkt.l4Valid = .none

/-- The headers of a packet that is no STUN message. -/
structure Parts (noUnderlay : Bool) (old : TCP) (pkt : PacketBuffer) (bs : List UInt8) where
  ip : List UInt8
  inner : List UInt8
  bytes_eq : bs = ip ++ inner
  no_stun : pkt.stunValid = false
  no_underlay : noUnderlay = true → ip = [] ∧ pkt.ipValid = .none ∧ pkt.outerUDPValid = false
  ip_part : noUnderlay = false → IPPart pkt ip
  inner_part : Nonempty (InnerPart old pkt inner)

theorem IPPart.of_same {pkt pkt' : PacketBuffer} {bs : List UInt8} (h : IPPart pkt bs)
    (hsame : SameFront pkt pkt') : IPPart pkt' bs := by
  cases h with
  | ipv4 chksum valid is4 verifies =>
    rw [← hsame.ipv4] at is4 verifies ⊢
    exact IPPart.ipv4 chksum (hsame.ipValid.trans valid) is4 verifies
  | ipv6 valid is6 =>
    rw [← hsame.ipv6] at is6 ⊢
    exact IPPart.ipv6 (hsame.ipValid.trans valid) is6

theorem aheadStun_eq_ok {pkt : PacketBuffer} {rs : ReadStream} {b : Bool}
    {s : PacketBuffer × ReadStream} (h : aheadStun (pkt, rs) = .ok b s) : s = (pkt, rs) := by
  rw [aheadStun] at h
  by_cases hbits : rs.bitPos ≠ 0
  · simp only [lookahead, if_pos hbits] at h
    cases h
    rfl
  by_cases hshort : rs.remaining < STUN.stunHeaderSize
  · simp only [lookahead, if_neg hbits, if_pos hshort] at h
    cases h
    rfl
  · simp only [lookahead, if_neg hbits, if_neg hshort] at h
    cases h
    rfl

theorem takes_stun (old : STUN) : Takes ReadStream.cursor (STUN.readInto old) fun _ _ => True := by
  refine (takes_uint16.bind fun type => takes_uint16.bind fun length => takes_uint32.bind
    fun cookie => Takes.ensure ((fixedRead_bytes 12).takes.bind fun tx =>
      (takes_lookahead length.toNat).bind (Q := fun _ _ _ => True) fun attribs => ?_)).mono ?_
  · split
    · exact (Takes.pure _).mono fun _ _ _ => trivial
    · exact Takes.throw _ _
  · exact fun _ _ _ => trivial

theorem scans_parseStun : Scans parseStun fun pkt _ _ pkt' =>
    ∃ stun, pkt' = { pkt with stun := stun, stunValid := true } := by
  refine (scans_into_unit fun pkt => takes_stun pkt.stun).mono ?_
  rintro pkt _ _ pkt' ⟨stun, -, rfl⟩
  exact ⟨stun, rfl⟩

/-- What follows the IP header `ip`. -/
theorem parseRest_spec {noUnderlay : Bool} {isScion : Option IsScion} {srcIP : IPAddress}
    {ipProto : IPProto} {pkt : PacketBuffer} {ip post : List UInt8}
    {s : PacketBuffer × ReadStream}
    (h : (do let stun ← aheadStun
             if stun then parseStun else parseInner noUnderlay isScion srcIP ipProto)
      (pkt, ReadStream.cursor ip post) = .ok () s)
    (hno : noUnderlay = true → ip = [] ∧ pkt.ipValid = .none)
    (hip : noUnderlay = false → IPPart pkt ip) (houter : pkt.outerUDPValid = false)
    (hstun : pkt.stunValid = false) (hscion : pkt.scionValid = false)
    (hl4 : pkt.l4Valid = .none) :
    ∃ bs rest pkt', ip ++ post = bs ++ rest ∧ s = (pkt', ReadStream.cursor bs rest) ∧
      pkt'.buffer = pkt.buffer ∧ pkt'.packet = pkt.packet ∧
      (StunMessage pkt' ∨ Nonempty (Parts noUnderlay pkt.tcp pkt' bs)) := by
  obtain ⟨stun, s₁, hahead, h⟩ := bind_eq_ok.mp h
  obtain rfl := aheadStun_eq_ok hahead
  cases stun with
  | true =>
    rw [if_pos rfl] at h
    obtain ⟨bs, rest, _, rfl, rfl, stun, rfl⟩ := scans_parseStun pkt ip post () s h
    exact ⟨_, rest, _, (List.append_assoc ..).symm, rfl, rfl, rfl, .inl ⟨rfl, houter, hscion, hl4⟩⟩
  | false =>
    rw [if_neg Bool.false_ne_true] at h
    obtain ⟨bs, rest, pkt', rfl, rfl, hpart⟩ := scans_parseInner _ _ _ _ pkt ip post () s h
    obtain ⟨hinner, hsame, hunder⟩ := hpart hscion houter
    refine ⟨_, rest, _, (List.append_assoc ..).symm, rfl, hsame.buffer, hsame.packet, .inr ⟨⟨ip, bs,
      rfl, hsame.stunValid.trans hstun, fun h => ?_, fun h => (hip h).of_same hsame, hinner⟩⟩⟩
    exact ⟨(hno h).1, hsame.ipValid.trans (hno h).2, hunder h⟩

theorem parse_spec {noUnderlay : Bool} {isScion : Option IsScion} {pkt : PacketBuffer}
    {raw : List UInt8} {s : PacketBuffer × ReadStream} (hclear : pkt.Cleared)
    (h : parse noUnderlay isScion (pkt, ReadStream.cursor [] raw) = .ok () s) :
    ∃ bs rest pkt', raw = bs ++ rest ∧ s = (pkt', ReadStream.cursor bs rest) ∧
      pkt'.buffer = pkt.buffer ∧ pkt'.packet = pkt.packet ∧
      (StunMessage pkt' ∨ Nonempty (Parts noUnderlay pkt.tcp pkt' bs)) := by
  rw [parse] at h
  cases noUnderlay with
  | true =>
    rw [if_pos rfl] at h
    obtain ⟨ip, s₁, hip, h⟩ := bind_eq_ok.mp h
    cases hip
    exact parseRest_spec h (fun _ => ⟨rfl, hclear.ipValid⟩) (fun h => by cases h)
      hclear.outerUDPValid hclear.stunValid hclear.scionValid hclear.l4Valid
  | false =>
    rw [if_neg Bool.false_ne_true] at h
    obtain ⟨ip, s₁, hip, h⟩ := bind_eq_ok.mp h
    obtain ⟨bs, rest, pkt₁, rfl, rfl, hpart, hset⟩ := parseIP_spec hip
    -- of the buffer only the IP header is another
    have hsame : pkt₁.outerUDPValid = pkt.outerUDPValid ∧ pkt₁.stunValid = pkt.stunValid ∧
        pkt₁.scionValid = pkt.scionValid ∧ pkt₁.l4Valid = pkt.l4Valid ∧ pkt₁.tcp = pkt.tcp ∧
        pkt₁.buffer = pkt.buffer ∧ pkt₁.packet = pkt.packet := by
      rcases hset with ⟨h4, rfl⟩ | ⟨h6, rfl⟩
      · exact ⟨rfl, rfl, rfl, rfl, rfl, rfl, rfl⟩
      · exact ⟨rfl, rfl, rfl, rfl, rfl, rfl, rfl⟩
    obtain ⟨houter, hstun, hscion, hl4, htcp, hbuffer, hpacket⟩ := hsame
    obtain ⟨bs', rest', pkt', hsplit, rfl, hbuffer', hpacket', hparts⟩ := parseRest_spec h
      (fun h => by cases h) (fun _ => hpart) (houter.trans hclear.outerUDPValid)
      (hstun.trans hclear.stunValid) (hscion.trans hclear.scionValid) (hl4.trans hclear.l4Valid)
    rw [htcp] at hparts
    exact ⟨bs', rest', pkt', hsplit, rfl, hbuffer'.trans hbuffer, hpacket'.trans hpacket, hparts⟩

/-! ### Received packets -/

/-- A raw packet is placed in the buffer and parsed. -/
def receive (headroom : ℕ) (raw : List UInt8) (noUnderlay : Bool) (isScion : Option IsScion)
    (pkt : PacketBuffer) : ErrorCode × PacketBuffer :=
  ((pkt.clearAndGetBuffer headroom).place raw).parsePacket raw.length noUnderlay isScion

section WithEnd

variable {old : TCP} {pkt : PacketBuffer} {bs : List UInt8} (e : ℕ)

/-! Where the headers end is not a part of them. -/

theorem L4Part.withEnd (h : L4Part old pkt bs) : L4Part old { pkt with endOfHeader := e } bs := by
  cases h with
  | icmp valid => exact L4Part.icmp valid
  | scmp valid holds => exact L4Part.scmp valid holds
  | tcp valid parsed => exact L4Part.tcp valid parsed
  | udp valid => exact L4Part.udp valid

theorem ScionPart.withEnd {proto : ScionProto} (h : Nonempty (ScionPart pkt proto bs)) :
    Nonempty (ScionPart { pkt with endOfHeader := e } proto bs) := by
  obtain ⟨h⟩ := h
  exact ⟨⟨h.reserved, h.exts, h.bytes_eq, h.length_reserved, h.fl_lt, h.size_path, h.size_eq,
    h.noExts⟩⟩

theorem InnerPart.withEnd (h : Nonempty (InnerPart old pkt bs)) :
    Nonempty (InnerPart old { pkt with endOfHeader := e } bs) := by
  obtain ⟨h⟩ := h
  exact ⟨⟨h.scion, h.l4, h.bytes_eq, fun hvalid => ScionPart.withEnd e (h.scion_part hvalid),
    h.no_scion, h.underlay, h.l4_part.withEnd e⟩⟩

def Parts.withEnd {noUnderlay : Bool} (h : Parts noUnderlay old pkt bs) :
    Parts noUnderlay old { pkt with endOfHeader := e } bs where
  ip := h.ip
  inner := h.inner
  bytes_eq := h.bytes_eq
  no_stun := h.no_stun
  no_underlay := h.no_underlay
  ip_part := fun hip => (h.ip_part hip).of_same ⟨rfl, rfl, rfl, rfl, rfl, rfl⟩
  inner_part := InnerPart.withEnd e h.inner_part

end WithEnd

/-- A packet that was received when `old` was the TCP header of the buffer. -/
structure Received (noUnderlay : Bool) (old : TCP) (raw : List UInt8) (got : PacketBuffer) where
  hdr : List UInt8
  raw_eq : raw = hdr ++ got.payload
  placed : got.Placed
  length_le : hdr.length ≤ got.endOfHeader
  parts : StunMessage got ∨ Nonempty (Parts noUnderlay old got hdr)

/-- The buffer when the parser begins. -/
def measured (size : ℕ) (pkt : PacketBuffer) : PacketBuffer :=
  { pkt with
    endOfHeader := pkt.packet.offset
    packet.size := min size pkt.packet.size }

theorem parsePacket_eq_ok {size : ℕ} {noUnderlay : Bool} {isScion : Option IsScion}
    {pkt : PacketBuffer} (h : (pkt.parsePacket size noUnderlay isScion).1 = .ok) :
    ∃ got rs, parse noUnderlay isScion (pkt.measured size, ReadStream.ofBuffer (pkt.measured size).raw)
        = .ok () (got, rs) ∧
      (pkt.parsePacket size noUnderlay isScion).2
        = { got with endOfHeader := got.packet.offset + rs.bytePos } := by
  rw [parsePacket] at h ⊢
  cases hrun : parse noUnderlay isScion
      (pkt.measured size, ReadStream.ofBuffer (pkt.measured size).raw) with
  | error e s =>
    rw [measured] at hrun
    simp only [hrun] at h
    cases h
  | ok _ s =>
    rw [measured] at hrun
    simp only [hrun]
    exact ⟨s.1, s.2, rfl, rfl⟩

/-- The buffer when a raw packet has been placed in it. -/
def placedFor (headroom : ℕ) (raw : List UInt8) (pkt : PacketBuffer) : PacketBuffer :=
  ((pkt.clearAndGetBuffer headroom).place raw).measured raw.length

theorem packet_placedFor {headroom : ℕ} {raw : List UInt8} {pkt : PacketBuffer}
    (hfits : raw.length ≤ pkt.buffer.length - headroom) :
    (pkt.placedFor headroom raw).packet = ⟨min headroom pkt.buffer.length, raw.length⟩ := by
  have hmin : min raw.length (pkt.buffer.length - min headroom pkt.buffer.length) = raw.length := by
    omega
  exact congrArg (Span.mk _) hmin

theorem raw_placedFor {headroom : ℕ} {raw : List UInt8} {pkt : PacketBuffer}
    (hfits : raw.length ≤ pkt.buffer.length - headroom) :
    (pkt.placedFor headroom raw).raw = raw := by
  have hslice := Records.slice_overwrite
    (show min headroom pkt.buffer.length ≤ pkt.buffer.length by omega) raw 0
  rw [add_zero, Records.slice, Records.slice, List.take_zero, List.append_nil] at hslice
  rw [PacketBuffer.raw, packet_placedFor hfits]
  exact hslice

theorem receive_spec {headroom : ℕ} {raw : List UInt8} {noUnderlay : Bool}
    {isScion : Option IsScion} {pkt : PacketBuffer}
    (hfits : raw.length ≤ pkt.buffer.length - headroom)
    (h : (pkt.receive headroom raw noUnderlay isScion).1 = .ok) :
    Nonempty (Received noUnderlay pkt.tcp raw (pkt.receive headroom raw noUnderlay isScion).2) := by
  obtain ⟨got, rs, hrun, hgot⟩ := parsePacket_eq_ok h
  rw [receive, hgot]
  set off := min headroom pkt.buffer.length with hoff
  have hraw : (pkt.placedFor headroom raw).raw = raw := raw_placedFor hfits
  have hstartPacket : (pkt.placedFor headroom raw).packet = ⟨off, raw.length⟩ :=
    packet_placedFor hfits
  set start := pkt.placedFor headroom raw with hstart
  have hfits' : off + raw.length ≤ pkt.buffer.length := by omega
  have hlength : start.buffer.length = pkt.buffer.length := Records.length_overwrite hfits'
  change parse noUnderlay isScion (start, ReadStream.ofBuffer start.raw) = _ at hrun
  rw [hraw, ofBuffer_eq] at hrun
  obtain ⟨bs, rest, _, hsplit, hs, hbuffer, hpacket, hparts⟩ :=
    parse_spec ⟨rfl, rfl, rfl, rfl, rfl⟩ hrun
  cases hs
  have hlen : raw.length = bs.length + rest.length := by rw [hsplit, List.length_append]
  have hend : got.packet.offset + (ReadStream.cursor bs rest).bytePos = off + bs.length := by
    rw [hpacket, hstartPacket]
    rfl
  have hpayload : Records.slice start.buffer (off + bs.length) rest.length = rest := by
    have hbehind := Records.slice_slice start.buffer off raw.length bs.length rest.length (by omega)
    have hfront : Records.slice start.buffer off raw.length = raw := by
      rw [PacketBuffer.raw, hstartPacket] at hraw
      exact hraw
    rw [← hbehind, hfront, hsplit, Records.slice, List.drop_left' rfl, List.take_length]
  have hrest : raw.length - (off + bs.length - off) = rest.length := by omega
  refine ⟨⟨bs, ?_, ⟨?_, ?_, ?_⟩, ?_, ?_⟩⟩
  · show raw = bs ++ Records.slice got.buffer _ (got.packet.size - (_ - got.packet.offset))
    rw [hend, hbuffer, hpacket, hstartPacket, hrest, hpayload, hsplit]
  · show got.packet.offset ≤ _
    rw [hend, hpacket, hstartPacket]
    exact Nat.le_add_right _ _
  · show _ ≤ got.packet.offset + got.packet.size
    rw [hend, hpacket, hstartPacket]
    show off + bs.length ≤ off + raw.length
    omega
  · show got.packet.offset + got.packet.size ≤ got.buffer.length
    rw [hbuffer, hpacket, hstartPacket, hlength]
    exact hfits'
  · show bs.length ≤ _
    rw [hend]
    exact Nat.le_add_left _ _
  · rcases hparts with hstun | hparts
    · exact .inl ⟨hstun.stunValid, hstun.outerUDPValid, hstun.scionValid, hstun.l4Valid⟩
    · obtain ⟨parts⟩ := hparts
      exact .inr ⟨parts.withEnd _⟩

end PacketBuffer

end Scion
