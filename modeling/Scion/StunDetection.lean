/-
Telling STUN, SCION and IP traffic apart (`scitra/packet.cpp`).

The translator looks for the cookie of STUN in what follows the IP header, also
when there is one and STUN could only be the payload of a UDP datagram.

* `detectStun_fixedWith`, `detectStun_udp`, `detectStun_icmp` — which fields of a
  transport header lie where the cookie is looked for;
* `PacketBuffer.detectStun_of_scion` — an accepted SCION packet is never taken for
  STUN;
* `PacketBuffer.toldApart_iff` — which packets are parsed as the protocol they are.
-/
import Scion.PacketParts

namespace Scion

open BigEndian Codec ReadStream

/-! ### Where the cookie is looked for -/

/-- Four bytes behind the first four. -/
theorem detectStun_word {front : List UInt8} (hfront : front.length = 4) (v : ℕ)
    (rest : List UInt8) :
    detectStun (front ++ (beBytes 4 v ++ rest)) = true ↔
      12 ≤ rest.length ∧ v % 2 ^ 32 = STUN.magicCookie.toNat := by
  have hword : ((front ++ (beBytes 4 v ++ rest)).drop 4).take 4 = beBytes 4 v := by
    rw [List.drop_left' hfront, List.take_left' (length_beBytes 4 v)]
  have hlen : (front ++ (beBytes 4 v ++ rest)).length = 8 + rest.length := by
    rw [List.length_append, List.length_append, hfront, length_beBytes]
    omega
  rw [detectStun, hword, beNat_beBytes, hlen, Bool.and_eq_true, Bool.not_eq_true',
    decide_eq_false_iff_not, beq_iff_eq, ← UInt32.toNat_inj, UInt32.toNat_ofNat', STUN.stunHeaderSize]
  constructor
  · rintro ⟨hlong, hcookie⟩
    exact ⟨by omega, by omega⟩
  · rintro ⟨hlong, hcookie⟩
    exact ⟨by omega, by omega⟩

/-- The sequence number of a TCP segment. -/
theorem detectStun_fixedWith (h : TCP) (offset : UInt8) (rest : List UInt8) :
    detectStun (h.fixedWith offset ++ rest) = true ↔ h.seq = STUN.magicCookie := by
  have hlt := h.seq.toNat_lt
  have hports : (beBytes 2 h.sport.toNat ++ beBytes 2 h.dport.toNat).length = 4 := by
    rw [List.length_append, length_beBytes, length_beBytes]
  have hword := detectStun_word hports h.seq.toNat (beBytes 4 h.ack.toNat ++ ([offset] ++
    ([h.flags] ++ (beBytes 2 h.window.toNat ++ (beBytes 2 h.chksum.toNat ++
      (beBytes 2 h.urgptr.toNat ++ rest))))))
  rw [TCP.fixedWith]
  simp only [List.append_assoc, List.length_append, length_beBytes, List.length_singleton]
    at hword ⊢
  rw [hword, Nat.mod_eq_of_lt hlt, UInt32.toNat_inj]
  exact and_iff_right (by omega)

/-- Two 16-bit fields as one word. -/
theorem beBytes_pair {m n : ℕ} (hn : n < 65536) :
    beBytes 2 m ++ beBytes 2 n = beBytes 4 (m * 65536 + n) := by
  have hlow := beBytes_mod 2 2 (m * 65536 + n) le_rfl
  rw [show (256 : ℕ) ^ 2 = 65536 from rfl, Nat.mul_add_mod_self_right, Nat.mod_eq_of_lt hn] at hlow
  rw [beBytes_append 2 2, ← hlow, show (m * 65536 + n) / 256 ^ 2 = m by omega]

/-- The length and the checksum of a UDP datagram. -/
theorem detectStun_udp (h : UDP) (payload : List UInt8) :
    detectStun (h.bytes ++ payload) = true ↔
      12 ≤ payload.length ∧ h.len = 0x2112 ∧ h.chksum = 0xa442 := by
  have hlen := h.len.toNat_lt
  have hchksum := h.chksum.toNat_lt
  have hports : (beBytes 2 h.sport.toNat ++ beBytes 2 h.dport.toNat).length = 4 := by
    rw [List.length_append, length_beBytes, length_beBytes]
  have hword := detectStun_word hports (h.len.toNat * 65536 + h.chksum.toNat) payload
  rw [← beBytes_pair hchksum] at hword
  rw [UDP.bytes]
  simp only [List.append_assoc] at hword ⊢
  rw [hword, ← UInt16.toNat_inj, ← UInt16.toNat_inj]
  change _ ∧ _ = 0x2112a442 ↔ _ ∧ _ = 0x2112 ∧ _ = 0xa442
  omega

/-- The two parameters of an ICMPv6 message. -/
theorem detectStun_icmp (h : ICMPv6) (body : List UInt8) :
    detectStun (h.bytes ++ body) = true ↔
      12 ≤ body.length ∧ h.param1 = 0x2112 ∧ h.param2 = 0xa442 := by
  have hparam1 := h.param1.toNat_lt
  have hparam2 := h.param2.toNat_lt
  have hhead : ([h.type] ++ ([h.code] ++ beBytes 2 h.chksum.toNat)).length = 4 := by
    rw [List.length_append, List.length_append, length_beBytes]
    rfl
  have hword := detectStun_word hhead (h.param1.toNat * 65536 + h.param2.toNat) body
  rw [← beBytes_pair hparam2] at hword
  rw [ICMPv6.bytes]
  simp only [List.append_assoc] at hword ⊢
  rw [hword, ← UInt16.toNat_inj, ← UInt16.toNat_inj]
  change _ ∧ _ = 0x2112a442 ↔ _ ∧ _ = 0x2112 ∧ _ = 0xa442
  omega

/-! ### Packets -/

/-- A STUN message. -/
def IsStunMessage (bs : List UInt8) : Prop :=
  detectStun bs = true ∧ ∃ stun rs, STUN.read (ReadStream.cursor [] bs) = .ok stun rs

namespace PacketBuffer

/-- The underlay up to the IP header, when there is one. -/
def parseUnderlay (noUnderlay : Bool) : PacketParser (IPAddress × IPProto) :=
  if noUnderlay then pure (.v6 0 0 "", 0) else parseIP

theorem parse_eq (noUnderlay : Bool) (isScion : Option IsScion) :
    parse noUnderlay isScion = parseUnderlay noUnderlay >>= fun ip =>
      aheadStun >>= fun stun =>
        if stun then parseStun else parseInner noUnderlay isScion ip.1 ip.2 := by
  cases noUnderlay <;> rfl

/-- Where STUN can be: without an underlay, or as the payload of a UDP datagram. -/
def CarriesStun (noUnderlay : Bool) (proto : IPProto) (bs : List UInt8) : Prop :=
  if noUnderlay then IsStunMessage bs else proto = IPProto.udp ∧ IsStunMessage (bs.drop 8)

/-- The buffer after parsing, whether or not the packet was accepted. -/
def finalBuffer : EStateM.Result String (PacketBuffer × ReadStream) Unit → PacketBuffer
  | .ok _ s => s.1
  | .error _ s => s.1

section ToldApart

variable (noUnderlay : Bool) (isScion : Option IsScion) (pkt : PacketBuffer) (raw : List UInt8)

/-- The packet is `front`, the underlay up to the IP header, and `rest`, which the codecs of
its own protocols accept with the result `s`. -/
def WellFormed (ip : IPAddress × IPProto) (front rest : List UInt8)
    (s : PacketBuffer × ReadStream) : Prop :=
  ∃ mid, parseUnderlay noUnderlay (pkt, ReadStream.cursor [] raw)
      = .ok ip (mid, ReadStream.cursor front rest) ∧
    parseInner noUnderlay isScion ip.1 ip.2 (mid, ReadStream.cursor front rest) = .ok () s

/-- Only STUN is taken for STUN, and any other packet is parsed as what it is. -/
def ToldApart (proto : IPProto) (rest : List UInt8) (s : PacketBuffer × ReadStream) : Prop :=
  ((finalBuffer (parse noUnderlay isScion (pkt, ReadStream.cursor [] raw))).stunValid = true →
    CarriesStun noUnderlay proto rest) ∧
  (¬CarriesStun noUnderlay proto rest →
    parse noUnderlay isScion (pkt, ReadStream.cursor [] raw) = .ok () s)

variable {noUnderlay isScion pkt raw}

theorem aheadStun_cursor (pkt : PacketBuffer) (front rest : List UInt8) :
    aheadStun (pkt, ReadStream.cursor front rest)
      = .ok (detectStun rest) (pkt, ReadStream.cursor front rest) := by
  have hbits : ¬(ReadStream.cursor front rest).bitPos ≠ 0 := by simp
  by_cases hshort : rest.length < STUN.stunHeaderSize
  · have hdetect : detectStun rest = false := by
      rw [detectStun, decide_eq_true hshort]
      rfl
    simp only [aheadStun, lookahead, if_neg hbits, remaining_cursor, if_pos hshort, hdetect]
  · have hdetect : detectStun (rest.take STUN.stunHeaderSize) = detectStun rest := by
      rw [detectStun_take (Nat.not_lt.mp hshort), decide_eq_true le_rfl, Bool.true_and]
    simp only [aheadStun, lookahead, if_neg hbits, remaining_cursor, if_neg hshort, next_cursor,
      hdetect]

/-- A packet that begins with an accepted SCION header and goes on with a transport header is
never taken for STUN. -/
theorem detectStun_of_scion {mid : PacketBuffer} {ip : IPAddress × IPProto}
    {front rest : List UInt8} {s : PacketBuffer × ReadStream}
    (h : parseInner true isScion ip.1 ip.2 (mid, ReadStream.cursor front rest) = .ok () s) :
    detectStun rest = false := by
  rw [parseInner, if_pos rfl] at h
  obtain ⟨_, rest', pkt', rfl, rfl, scion, l4, rfl, ⟨hscion⟩, -, -, -, hl4, -⟩ :=
    scans_scion _ _ _ _ _ h
  rw [hscion.bytes_eq, SCION.bytesWith, List.append_assoc, List.append_assoc, List.append_assoc,
    List.append_assoc]
  refine detectStun_eq_false (length_beBytes 4 _) fun hnh => ?_
  -- a next header that is no extension is the protocol of the transport header
  obtain ⟨-, hproto⟩ := hscion.noExts (by rw [hnh]; decide) (by rw [hnh]; decide)
  rw [hnh] at hproto
  cases hl4 with
  | icmp valid => rw [valid] at hproto; exact absurd hproto (by decide)
  | scmp valid holds => rw [valid] at hproto; exact absurd hproto (by decide)
  | tcp valid parsed => rw [valid] at hproto; exact absurd hproto (by decide)
  | udp valid => rw [valid] at hproto; exact absurd hproto (by decide)

/-- Whatever STUN is read from leaves the mark. -/
theorem stunValid_of_parseStun {mid : PacketBuffer} {front rest : List UInt8}
    {s : PacketBuffer × ReadStream}
    (h : parseStun (mid, ReadStream.cursor front rest) = .ok () s) : s.1.stunValid = true := by
  obtain ⟨_, _, _, _, rfl, stun, rfl⟩ := scans_parseStun _ _ _ _ _ h
  rfl

/-- The IP header leaves the other marks as they are. -/
theorem marks_of_parseUnderlay {ip : IPAddress × IPProto} {mid : PacketBuffer}
    {front rest : List UInt8}
    (h : parseUnderlay noUnderlay (pkt, ReadStream.cursor [] raw)
      = .ok ip (mid, ReadStream.cursor front rest)) :
    mid.stunValid = pkt.stunValid ∧ mid.scionValid = pkt.scionValid ∧
      mid.outerUDPValid = pkt.outerUDPValid := by
  cases noUnderlay with
  | true =>
    obtain ⟨-, hs⟩ := EStateM.Result.ok.inj h
    obtain ⟨rfl, -⟩ := Prod.mk.inj hs
    exact ⟨rfl, rfl, rfl⟩
  | false =>
    obtain ⟨_, _, pkt', -, hs, -, hset⟩ := parseIP_spec h
    obtain ⟨rfl, -⟩ := Prod.mk.inj hs
    rcases hset with ⟨h4, rfl⟩ | ⟨h6, rfl⟩
    · exact ⟨rfl, rfl, rfl⟩
    · exact ⟨rfl, rfl, rfl⟩

/-- A well-formed packet is told apart exactly when there is no underlay, or the bytes that
follow the IP header do not have the cookie of STUN in the place of their second word, or the
packet is STUN in UDP. -/
theorem toldApart_iff {ip : IPAddress × IPProto} {front rest : List UInt8}
    {s : PacketBuffer × ReadStream} (hclear : pkt.Cleared)
    (hwf : WellFormed noUnderlay isScion pkt raw ip front rest s) :
    ToldApart noUnderlay isScion pkt raw ip.2 rest s ↔
      noUnderlay = true ∨ detectStun rest = false ∨ CarriesStun noUnderlay ip.2 rest := by
  obtain ⟨mid, hunderlay, hinner⟩ := hwf
  obtain ⟨hstun, hscion, houter⟩ := marks_of_parseUnderlay hunderlay
  have hparse : parse noUnderlay isScion (pkt, ReadStream.cursor [] raw)
      = (if detectStun rest then parseStun else parseInner noUnderlay isScion ip.1 ip.2)
        (mid, ReadStream.cursor front rest) := by
    rw [parse_eq, bind_ok hunderlay, bind_ok (aheadStun_cursor mid front rest)]
  -- the codecs of the other protocols do not set the mark
  have hunmarked : s.1.stunValid = false := by
    obtain ⟨_, _, pkt', _, rfl, hparts⟩ := scans_parseInner _ _ _ _ _ _ _ _ _ hinner
    obtain ⟨-, hsame, -⟩ := hparts (hscion.trans hclear.scionValid)
      (houter.trans hclear.outerUDPValid)
    exact hsame.stunValid.trans (hstun.trans hclear.stunValid)
  cases hdetect : detectStun rest with
  | false =>
    rw [hdetect, if_neg Bool.false_ne_true] at hparse
    refine iff_of_true ⟨fun hmarked => ?_, fun _ => hparse.trans hinner⟩ (.inr (.inl rfl))
    rw [hparse, hinner] at hmarked
    rw [finalBuffer, hunmarked] at hmarked
    cases hmarked
  | true =>
    rw [hdetect, if_pos rfl] at hparse
    have hno : noUnderlay = false := by
      cases noUnderlay with
      | false => rfl
      | true =>
        rw [detectStun_of_scion hinner] at hdetect
        cases hdetect
    constructor
    · rintro ⟨-, hother⟩
      by_contra hnot
      rw [not_or, not_or] at hnot
      have hok := hother hnot.2.2
      rw [hparse] at hok
      have hmarked := stunValid_of_parseStun hok
      rw [hunmarked] at hmarked
      cases hmarked
    · rintro (htrue | hfalse | hcarries)
      · rw [hno] at htrue
        cases htrue
      · cases hfalse
      · exact ⟨fun _ => hcarries, fun hnot => absurd hcarries hnot⟩

end ToldApart

section Segment

/-- The buffer behind the IP header of the segment. -/
def segmentBuffer : PacketBuffer :=
  { ofBuffer [] with
    ipv6 := ⟨0, 64, IPProto.tcp, 20, 0, .v6 0 1 "", .v6 0 2 ""⟩
    ipValid := .ipv6 }

/-- A TCP segment over IPv6 with a given sequence number. -/
def segment (seq : ℕ) : List UInt8 :=
  [0x60, 0, 0, 0, 0, 20, 6, 64] ++ List.replicate 15 0 ++ [1] ++ List.replicate 15 0 ++ [2] ++
    [0x13, 0x88, 0x0b, 0xb8] ++ (beBytes 4 seq ++ [0, 0, 0, 0, 0x50, 0x10, 0, 0, 0, 0, 0, 0])

theorem cleared_ofBuffer (buffer : List UInt8) : (ofBuffer buffer).Cleared :=
  ⟨rfl, rfl, rfl, rfl, rfl⟩

theorem segment_wellFormed {seq : ℕ} (h : seq = 1 ∨ seq = 0x2112a442) :
    ∃ front s, WellFormed false none (ofBuffer []) (segment seq) (.v6 0 1 "", IPProto.tcp) front
      ((segment seq).drop 40) s := by
  rcases h with rfl | rfl
  · exact ⟨(segment 1).take 40, ({ segmentBuffer with
      tcp := { flags := 0x10, sport := 5000, dport := 3000, seq := 1 }
      l4Valid := .tcp }, ReadStream.cursor (segment 1) []), segmentBuffer, rfl, rfl⟩
  · exact ⟨(segment 0x2112a442).take 40, ({ segmentBuffer with
      tcp := { flags := 0x10, sport := 5000, dport := 3000, seq := 0x2112a442 }
      l4Valid := .tcp }, ReadStream.cursor (segment 0x2112a442) []), segmentBuffer, rfl, rfl⟩

/-- A segment is told apart from STUN by its sequence number. -/
theorem toldApart_iff_segment : ∃ s,
    (ToldApart false none (ofBuffer []) (segment 1) IPProto.tcp ((segment 1).drop 40) s ↔
      false = true ∨ detectStun ((segment 1).drop 40) = false ∨
        CarriesStun false IPProto.tcp ((segment 1).drop 40)) := by
  obtain ⟨front, s, hwf⟩ := segment_wellFormed (.inl rfl)
  exact ⟨s, toldApart_iff (cleared_ofBuffer []) hwf⟩

/-- A segment whose sequence number is the cookie is taken for STUN. -/
theorem not_forall_toldApart :
    ¬ ∀ (noUnderlay : Bool) (isScion : Option IsScion) (pkt : PacketBuffer) (raw : List UInt8)
      (ip : IPAddress × IPProto) (front rest : List UInt8) (s : PacketBuffer × ReadStream),
      pkt.Cleared → WellFormed noUnderlay isScion pkt raw ip front rest s →
      ToldApart noUnderlay isScion pkt raw ip.2 rest s := by
  intro h
  obtain ⟨front, s, hwf⟩ := segment_wellFormed (.inr rfl)
  obtain ⟨-, hother⟩ := h false none _ _ _ front _ s (cleared_ofBuffer []) hwf
  have hparse := hother fun hcarries => absurd hcarries.1 (by decide)
  cases hparse

end Segment

end PacketBuffer

end Scion
