/-
Packets that are handled one after the other in the same buffer (`scitra/packet.hpp`,
`scitra/packet.cpp`, `scitra/translator.hpp`, `scitra/translator.cpp`).

A gateway handles all packets of a queue in one packet buffer. A packet is received into it,
translated in one direction, and emitted from it.

* `handle`, `handleAll` — one arrival, and a sequence of them;
* `handle_eq_of_leftovers` — of what earlier packets have left, the checksum of SCMP and the mapped
  address of STUN are all that can be seen;
* `handleAll_eq_map` — in a run of packets that see nothing of it, each is handled as if it were
  the first one.
-/
import Scion.PathMirror
import Scion.RawPathEquality
import Scion.TranslationReuse
import Scion.WrittenLength

namespace Scion

open BigEndian Codec Frames Relational

namespace PacketBuffer

/-! ### The buffer stays in place -/

/-- The size of the buffer behind a parser. -/
abbrev KeepsBuffer {α : Type} (m : PacketParser α) : Prop :=
  Leaves (fun s : PacketBuffer × ReadStream => s.1.buffer.length) m

section Parsers

variable {α : Type}

theorem keepsBuffer_scan (r : Reader α) : KeepsBuffer (scan r) := by
  intro s
  rw [scan]
  cases r s.2 <;> rfl

theorem keepsBuffer_into (r : PacketBuffer → Reader α) {set : α → PacketBuffer → PacketBuffer}
    (hset : ∀ a pkt, (set a pkt).buffer.length = pkt.buffer.length) :
    KeepsBuffer (scanInto r set) := by
  intro s
  have hset' : ∀ a, KeepsBuffer (update (set a)) := fun a t => hset a t.1
  exact ((keepsBuffer_scan (r s.1)).bind fun a => (hset' a).bind fun _ => Leaves.pure a) s

theorem keepsBuffer_parseIP : KeepsBuffer parseIP :=
  (keepsBuffer_scan _).bind fun _ => .ite
    (fun _ => (keepsBuffer_scan _).bind fun _ =>
      (keepsBuffer_into _ (by intros; rfl)).bind fun _ => .pure _)
    fun _ => .ite
      (fun _ => (keepsBuffer_scan _).bind fun _ =>
        (keepsBuffer_into _ (by intros; rfl)).bind fun _ => .pure _)
      fun _ => .throw _

theorem keepsBuffer_skipOpts (kind proto : ScionProto) : KeepsBuffer (skipOpts kind proto) :=
  .ite (fun _ => (keepsBuffer_scan _).bind fun _ => (keepsBuffer_scan _).bind fun _ => .pure _)
    fun _ => .pure _

theorem keepsBuffer_parseScion : KeepsBuffer parseScion := by
  have hassign : ∀ source destination type data,
      KeepsBuffer (assignPath source destination type data) := by
    intro source destination type data s
    rw [assignPath]
    cases s.1.path.assign source destination type data <;> rfl
  have hvalid : KeepsBuffer (update fun pkt => { pkt with scionValid := true }) := fun _ => rfl
  exact (keepsBuffer_into _ (by intros; rfl)).bind fun sci => (keepsBuffer_scan _).bind fun pdata =>
    (hassign _ _ _ _).bind fun _ => (keepsBuffer_scan _).bind fun _ =>
      (keepsBuffer_skipOpts _ _).bind fun _ => (keepsBuffer_skipOpts _ _).bind fun proto =>
        hvalid.bind fun _ => .pure proto

theorem keepsBuffer_parseL4 (proto : ScionProto) : KeepsBuffer (parseL4 proto) := by
  have hinto : ∀ {β : Type} (r : PacketBuffer → Reader β) {set : β → PacketBuffer → PacketBuffer},
      (∀ a pkt, (set a pkt).buffer.length = pkt.buffer.length) →
        KeepsBuffer (do let _ ← scanInto r set; pure ()) := fun r _ hset =>
    (keepsBuffer_into r hset).bind fun _ => .pure ()
  exact .ite (fun _ => (keepsBuffer_scan _).bind fun _ => (keepsBuffer_scan _).bind fun _ =>
      (keepsBuffer_into _ (by intros; rfl)).bind fun _ => hinto _ (by intros; rfl))
    fun _ => .ite (fun _ => hinto _ (by intros; rfl)) fun _ =>
      .ite (fun _ => hinto _ (by intros; rfl)) fun _ =>
        .ite (fun _ => hinto _ (by intros; rfl)) fun _ => .throw _

theorem keepsBuffer_parse (noUnderlay : Bool) (isScion : Option IsScion) :
    KeepsBuffer (parse noUnderlay isScion) := by
  have hupdate : ∀ f : PacketBuffer → PacketBuffer,
      (∀ pkt, (f pkt).buffer.length = pkt.buffer.length) → KeepsBuffer (update f) :=
    fun f hf s => hf s.1
  have hscion : KeepsBuffer (do let proto ← parseScion; parseL4 proto) :=
    keepsBuffer_parseScion.bind keepsBuffer_parseL4
  have hstun : KeepsBuffer aheadStun := by
    intro s
    rw [aheadStun]
    cases ReadStream.lookahead (some STUN.stunHeaderSize) s.2 <;> rfl
  have hudp : ∀ srcIP, KeepsBuffer (parseUDP isScion srcIP) := fun srcIP =>
    (keepsBuffer_into _ (by intros; rfl)).bind fun _ => .ite
      (fun _ => (hupdate _ (by intros; rfl)).bind fun _ => hscion) fun _ => hupdate _ (by intros; rfl)
  have hinner : ∀ srcIP ipProto, KeepsBuffer (do
      let stun ← aheadStun
      if stun then parseStun else parseInner noUnderlay isScion srcIP ipProto) :=
    fun srcIP ipProto => hstun.bind fun _ => .ite
      (fun _ => (keepsBuffer_into _ (by intros; rfl)).bind fun _ => .pure ())
      fun _ => .ite (fun _ => hscion) fun _ => .ite (fun _ => hudp srcIP)
        fun _ => keepsBuffer_parseL4 ipProto
  rw [parse]
  cases noUnderlay with
  | true => exact (Leaves.pure _).bind fun ip => hinner ip.1 ip.2
  | false => exact keepsBuffer_parseIP.bind fun ip => hinner ip.1 ip.2

end Parsers

theorem length_parsePacket (size : ℕ) (noUnderlay : Bool) (isScion : Option IsScion)
    (pkt : PacketBuffer) :
    (pkt.parsePacket size noUnderlay isScion).2.buffer.length = pkt.buffer.length := by
  have hparse := keepsBuffer_parse noUnderlay isScion
    (pkt.measured size, ReadStream.ofBuffer (pkt.measured size).raw)
  rw [parsePacket]
  rw [measured] at hparse
  revert hparse
  dsimp only
  cases parse noUnderlay isScion (_, ReadStream.ofBuffer _) <;> exact id

theorem length_receive {headroom : ℕ} {raw : List UInt8} {noUnderlay : Bool}
    {isScion : Option IsScion} {pkt : PacketBuffer}
    (hfits : raw.length ≤ pkt.buffer.length - headroom) :
    (pkt.receive headroom raw noUnderlay isScion).2.buffer.length = pkt.buffer.length := by
  have hplaced : ((pkt.clearAndGetBuffer headroom).place raw).buffer.length = pkt.buffer.length :=
    Records.length_overwrite (show min headroom pkt.buffer.length + raw.length ≤ pkt.buffer.length by
      omega)
  exact (length_parsePacket _ _ _ _).trans hplaced

section Translation

variable {hash : IPAddress → UInt64} {hashSc : ScIPAddress → UInt64}
  {murmur32 : List UInt8 → UInt32 → UInt32}

/-- The buffer and the STUN flag. -/
structure Stays (pkt pkt' : PacketBuffer) : Prop where
  length : pkt'.buffer.length = pkt.buffer.length
  stunValid : pkt'.stunValid = pkt.stunValid

theorem Stays.trans {a b c : PacketBuffer} (hab : Stays a b) (hbc : Stays b c) : Stays a c :=
  ⟨hbc.length.trans hab.length, hbc.stunValid.trans hab.stunValid⟩

/-- The packet lies where it did. -/
structure InPlace (pkt pkt' : PacketBuffer) : Prop where
  stays : Stays pkt pkt'
  packet : pkt'.packet = pkt.packet
  endOfHeader : pkt'.endOfHeader = pkt.endOfHeader
  tcp : pkt'.l4Valid = .tcp → pkt.l4Valid = .tcp

theorem InPlace.refl (pkt : PacketBuffer) : InPlace pkt pkt := ⟨⟨rfl, rfl⟩, rfl, rfl, id⟩

theorem InPlace.trans {a b c : PacketBuffer} (hab : InPlace a b) (hbc : InPlace b c) :
    InPlace a c :=
  ⟨hab.stays.trans hbc.stays, hbc.packet.trans hab.packet, hbc.endOfHeader.trans hab.endOfHeader,
    fun h => hab.tcp (hbc.tcp h)⟩

theorem inPlace_clampMss (getMTU : GetMtu) (pkt : PacketBuffer) :
    InPlace pkt (pkt.clampMss getMTU).2 := by
  rw [clampMss]
  split_ifs
  · dsimp only
    split_ifs <;> exact ⟨⟨rfl, rfl⟩, rfl, rfl, id⟩
  · exact .refl pkt

theorem inPlace_ingressChecksum (mss clampedMSS : UInt16) (pkt : PacketBuffer) :
    InPlace pkt (pkt.updateIngressChecksum mss clampedMSS) := by
  obtain ⟨ipValid, outerUDPValid, stunValid, scionValid, l4Valid, ipv4, ipv6, outerUDP, stun, sci,
    path, icmp, scmp, tcp, udp, buffer, packet, endOfHeader⟩ := pkt
  cases l4Valid <;> exact ⟨⟨rfl, rfl⟩, rfl, rfl, id⟩

theorem inPlace_translateMessage (getMTU : GetMtu) (verdict : Verdict) (nextHeader : IPProto)
    (pkt : PacketBuffer) :
    InPlace pkt (pkt.translateMessage hash murmur32 getMTU verdict nextHeader).2 := by
  have hclamp := inPlace_clampMss getMTU pkt
  rw [translateMessage]
  split_ifs
  · exact .refl pkt
  revert hclamp
  rcases pkt.clampMss getMTU with ⟨_ | m, clamped⟩
  · exact id
  · intro hclamp
    have hbuilt : InPlace clamped (clamped.buildIPv6 hash murmur32 nextHeader) :=
      ⟨⟨rfl, rfl⟩, rfl, rfl, id⟩
    exact (hclamp.trans hbuilt).trans (inPlace_ingressChecksum m.1 m.2 _)

theorem inPlace_scmpToIcmp (pkt : PacketBuffer) : InPlace pkt pkt.translateScmpToIcmp.2 := by
  rw [translateScmpToIcmp]
  cases pkt.scmp.msg with
  | echoRequest | echoReply => exact ⟨⟨rfl, rfl⟩, rfl, rfl, by simp⟩
  | _ => exact .refl pkt

/-- Nothing is moved on the way to IPv6. -/
theorem inPlace_translateIngress (acceptPrefix dstPrefix : IPAddress) (prefixLen : UInt32)
    (getMTU : GetMtu) (pkt : PacketBuffer) :
    InPlace pkt (pkt.translateIngress hash murmur32 acceptPrefix dstPrefix prefixLen getMTU).2 := by
  have haccepted : ∀ r : PacketBuffer, InPlace r (r.translateAccepted hash murmur32 getMTU).2 := by
    intro r
    by_cases hscmp : r.l4Valid = .scmp
    · rw [translateAccepted_scmp hscmp]
      exact (inPlace_scmpToIcmp r).trans (inPlace_translateMessage _ _ _ _)
    · rw [translateAccepted_other hscmp]
      exact inPlace_translateMessage _ _ _ _
  rw [translateIngress]
  split_ifs
  · exact .refl pkt
  cases mapToIPv6 pkt.sci.src with
  | error ec => exact .refl pkt
  | ok src =>
    dsimp only
    cases mapToIPv6 pkt.sci.dst with
    | error ec => exact ⟨⟨rfl, rfl⟩, rfl, rfl, id⟩
    | ok dst =>
      dsimp only
      split_ifs
      · exact ⟨⟨rfl, rfl⟩, rfl, rfl, id⟩
      · have haddressed : InPlace pkt { pkt with
            ipv6.src := src, ipv6.dst := translateIPv6Prefix dst dstPrefix prefixLen } :=
          ⟨⟨rfl, rfl⟩, rfl, rfl, id⟩
        exact haddressed.trans (haccepted _)

theorem stays_translateL4 (pkt : PacketBuffer) : Stays pkt pkt.translateL4.2.2 := by
  rw [translateL4]
  split_ifs with hicmp
  · dsimp only
    rcases translateIcmpToScmp_spec pkt with ⟨-, hsame⟩ | ⟨-, hto⟩
    · rw [hsame]
      exact ⟨rfl, rfl⟩
    · exact ⟨(hto.layout hicmp).buffer, (hto.layout hicmp).stunValid⟩
  · exact ⟨rfl, rfl⟩

theorem stays_route (sourcePrefix : IPAddress) (prefixLen : UInt32) (getPath : GetPath)
    (pkt : PacketBuffer) :
    match pkt.route sourcePrefix prefixLen getPath with
      | .error result => Stays pkt result.pkt
      | .ok r => Stays pkt r.pkt := by
  have hl4 := stays_translateL4 pkt
  rw [route]
  split_ifs
  · exact ⟨rfl, rfl⟩
  revert hl4
  rcases pkt.translateL4 with ⟨verdict, proto, pkt'⟩
  intro hl4
  dsimp only at hl4 ⊢
  have herror : ∀ code, Stays pkt (pkt'.makeIcmpDestUnreachable code) := fun code =>
    hl4.trans ⟨rfl, rfl⟩
  split_ifs
  · exact hl4
  cases unmapFromIPv6 pkt'.ipv6.dst with
  | error ec => exact herror 3
  | ok dst =>
    dsimp only
    rcases getPath _ dst _ _ proto _ with ⟨ec | _ | path, mtu⟩
    · dsimp only
      split_ifs
      · exact hl4
      · exact herror 0
    · exact herror 0
    · exact hl4

theorem stays_translate {r : Routed} {result : EgressResult}
    (h : r.translate hash hashSc murmur32 = .ok result) : Stays r.pkt result.pkt := by
  rw [Routed.translate] at h
  cases hbuild : r.buildScion hashSc murmur32 with
  | error e =>
    rw [hbuild] at h
    cases h
  | ok built =>
    have hbuilt : Stays r.pkt built := by
      rw [(Routed.built_of_buildScion hbuild).eq]
      exact ⟨rfl, rfl⟩
    have hclamp := (inPlace_clampMss (fun _ path => (r.mtu, path)) built).stays
    rw [hbuild] at h
    dsimp only at h
    split_ifs at h
    · cases h
      rw [rejectTooBig]
      split_ifs
      · exact hbuilt.trans ⟨rfl, rfl⟩
      · exact hbuilt
    revert hclamp h
    rcases built.clampMss fun _ path => (r.mtu, path) with ⟨_ | m, clamped⟩
    · intro hclamp h
      cases h
      exact hbuilt.trans hclamp
    · intro hclamp h
      cases h
      have hchecksum := (sameLayout_egressChecksum m.1 m.2 clamped).1
      have hunderlay := (@sameLayout_underlay hash murmur32 r.srcHost r.nextHop
        (clamped.updateEgressChecksum m.1 m.2)).1
      exact ((hbuilt.trans hclamp).trans ⟨hchecksum.buffer, hchecksum.stunValid⟩).trans
        ⟨hunderlay.buffer, hunderlay.stunValid⟩

/-- The identifier of a request is stored in place. -/
theorem stays_translateEgress {sourcePrefix : IPAddress} {prefixLen : UInt32} {getPath : GetPath}
    {pkt : PacketBuffer} {result : EgressResult}
    (h : pkt.translateEgress hash hashSc murmur32 sourcePrefix prefixLen getPath = .ok result) :
    Stays pkt result.pkt := by
  have hroute := stays_route sourcePrefix prefixLen getPath pkt
  rw [translateEgress] at h
  revert h hroute
  cases pkt.route sourcePrefix prefixLen getPath with
  | error result' =>
    rintro ⟨⟩ hroute
    exact hroute
  | ok r => exact fun h hroute => hroute.trans (stays_translate h)

end Translation

/-! ### Arrivals -/

/-- How a received packet is translated, if it is. -/
inductive Direction
  | none
  | ingress (acceptPrefix dstPrefix : IPAddress) (prefixLen : UInt32) (getMTU : GetMtu)
  | egress (sourcePrefix : IPAddress) (prefixLen : UInt32) (getPath : GetPath)

/-- A packet that arrives, and what is done with it. -/
structure Arrival where
  headroom : ℕ
  raw : List UInt8
  noUnderlay : Bool
  isScion : Option IsScion
  direction : Direction
  /-- Whether it is emitted without the underlay. -/
  bare : Bool

/-- Verdict, source port and next hop of a translation. -/
abbrev Judgement := Verdict × UInt16 × IPEndpoint

/-- What is seen of an arrival: the error code of the parser, what the translator returned or
threw, and what was emitted. -/
structure Outcome where
  ec : ErrorCode
  judgement : Option (Except String Judgement)
  emitted : Option (Maybe (List UInt8))

section Handling

variable (hash : IPAddress → UInt64) (hashSc : ScIPAddress → UInt64)
  (murmur32 : List UInt8 → UInt32 → UInt32)

def Direction.translate (d : Direction) (pkt : PacketBuffer) :
    Except String Judgement × PacketBuffer :=
  match d with
  | none => (.ok (.pass, 0, ⟨.v6 0 0 "", 0⟩), pkt)
  | ingress acceptPrefix dstPrefix prefixLen getMTU =>
    let (verdict, pkt) :=
      pkt.translateIngress hash murmur32 acceptPrefix dstPrefix prefixLen getMTU
    (.ok (verdict, 0, ⟨.v6 0 0 "", 0⟩), pkt)
  | egress sourcePrefix prefixLen getPath =>
    match pkt.translateEgress hash hashSc murmur32 sourcePrefix prefixLen getPath with
    | .error e => (.error e, pkt)
    | .ok result => (.ok (result.verdict, result.sport, result.nextHop), result.pkt)

/-- Packets that pass are sent on, and errors are sent back. -/
def isSent : Except String Judgement → Bool
  | .ok (verdict, _) => verdict == .pass || verdict == .returned
  | .error _ => false

def send (bare : Bool) (translated : Except String Judgement × PacketBuffer) :
    Outcome × PacketBuffer :=
  if isSent translated.1 then
    let (bytes, pkt) := translated.2.emitPacket bare
    (⟨.ok, some translated.1, some bytes⟩, pkt)
  else (⟨.ok, some translated.1, none⟩, translated.2)

def handle (a : Arrival) (pkt : PacketBuffer) : Outcome × PacketBuffer :=
  match pkt.receive a.headroom a.raw a.noUnderlay a.isScion with
  | (.ok, got) => send a.bare (a.direction.translate hash hashSc murmur32 got)
  | (ec, got) => (⟨ec, none, none⟩, got)

/-- One after the other in the same buffer. -/
def handleAll : List Arrival → PacketBuffer → List Outcome
  | [], _ => []
  | a :: as, pkt =>
    (handle hash hashSc murmur32 a pkt).1 :: handleAll as (handle hash hashSc murmur32 a pkt).2

end Handling

/-- The paths that the lookup of an MTU leaves are the same for all buffers. -/
def Direction.Respects : Direction → Prop
  | ingress _ _ _ getMTU => SameView.Respects getMTU
  | _ => True

/-- A STUN message may be emitted with an old mapped address, and the checksum of an SCMP message
is summed up with the old one. -/
def Direction.SeesLeftovers (d : Direction) (got : PacketBuffer) : Prop :=
  got.stunValid = true ∨ got.l4Valid = .icmp ∧ d matches .egress ..

/-- The packet has room behind the headroom. -/
def Arrival.Fits (a : Arrival) (size : ℕ) : Prop := a.raw.length ≤ size - a.headroom

instance (a : Arrival) (size : ℕ) : Decidable (a.Fits size) :=
  inferInstanceAs (Decidable (_ ≤ _))

/-! ### Paths that are reversed -/

/-- A path that is not reversed stays as it is. -/
theorem length_reversePathInPlace (type : PathType) (path : List UInt8) :
    (reversePathInPlace type path).2.length = path.length := by
  by_cases hscion : type = PathType.scion
  · subst hscion
    by_cases hok : (reversePathInPlace PathType.scion path).1 = .ok
    · exact (RawPathContents.reversed_complete hok).1
    · rw [reversePathInPlace] at hok ⊢
      dsimp only at hok ⊢
      split_ifs at hok ⊢
      all_goals first | rfl | exact absurd rfl hok
  · rw [reversePathInPlace]
    split_ifs <;> rfl

/-- The lookup of a gateway: the path of the packet is reversed in place, and looked up. -/
def lookupReversed (lookup : SCION → RawPathContents → UInt16) : GetMtu := fun sci rp =>
  let (ec, rp) := rp.reverseInPlace
  if ec ≠ .ok then (1280, rp) else (lookup sci rp, rp)

theorem same_reverseInPlace {p q : RawPathContents} (h : p.Same q) :
    q.reverseInPlace.1 = p.reverseInPlace.1 ∧ p.reverseInPlace.2.Same q.reverseInPlace.2 := by
  have hlength := length_reversePathInPlace p.type p.encoded
  have hlength' : (reversePathInPlace q.type q.encoded).2.length = q.encoded.length :=
    length_reversePathInPlace _ _
  obtain ⟨htype, hencoded⟩ := RawPathContents.encoded_reverseInPlace hlength
  obtain ⟨htype', hencoded'⟩ := RawPathContents.encoded_reverseInPlace hlength'
  rw [h.type, h.encoded] at hencoded'
  have hends : ∀ r : RawPathContents, r.reverseInPlace.1 = (reversePathInPlace r.type r.encoded).1 ∧
      r.reverseInPlace.2.size = r.size ∧ r.reverseInPlace.2.source
        = (if (reversePathInPlace r.type r.encoded).1 ≠ .ok then r.source else r.destination) ∧
      r.reverseInPlace.2.destination
        = if (reversePathInPlace r.type r.encoded).1 ≠ .ok then r.destination else r.source := by
    intro r
    rw [RawPathContents.reverseInPlace]
    dsimp only
    split_ifs with herr
    · exact ⟨rfl, rfl, rfl, rfl⟩
    · exact ⟨(not_not.mp herr).symm, rfl, rfl, rfl⟩
  obtain ⟨hec, hsize, hsource, hdestination⟩ := hends p
  obtain ⟨hec', hsize', hsource', hdestination'⟩ := hends q
  rw [h.type, h.encoded] at hec' hsource' hdestination'
  refine ⟨hec'.trans hec.symm, ?_, ?_, ?_, ?_, ?_, ?_⟩
  · rw [hsource', hsource, h.source, h.destination]
  · rw [hdestination', hdestination, h.source, h.destination]
  · rw [htype', htype, h.type]
  · rw [hsize', hsize, h.size]
  · rw [hencoded', hencoded]
  · rw [hencoded, hlength, hsize, h.sized]

/-- What is looked up is what the path encodes. -/
theorem respects_lookupReversed {lookup : SCION → RawPathContents → UInt16}
    (h : ∀ sci p q, RawPathContents.Same p q → lookup sci q = lookup sci p) :
    SameView.Respects (lookupReversed lookup) := by
  intro sci p q hsame
  obtain ⟨hec, hreversed⟩ := same_reverseInPlace hsame
  rw [lookupReversed, lookupReversed]
  dsimp only
  rw [hec]
  split_ifs
  · exact ⟨rfl, hreversed⟩
  · exact ⟨h sci _ _ hreversed, hreversed⟩

/-! ### Examples of arrivals -/

/-- A datagram to 1-1,10.0.0.1, and the same with another port. -/
def exampleDatagramArrival (port : UInt8) : Arrival :=
  ⟨4, SocketSystem.datagramTo 1 port 0x18, true, none,
    .ingress SocketSystem.exampleMappedIP SocketSystem.exampleMappedIP 128
      (lookupReversed fun _ _ => 1280), false⟩

/-- An echo request to 1-1,10.0.0.2 within the AS. -/
def examplePingArrival : Arrival :=
  ⟨4, (⟨0, 64, IPProto.icmpv6, 8, 0, .v6 0xfc00100001000000 0xffff0a000001 "",
      .v6 0xfc00100001000000 0xffff0a000002 ""⟩ : IPv6).bytes
    ++ (⟨ICMPv6Type.echoRequest, 0, 0, 7, 1⟩ : ICMPv6).bytes, false, none,
    .egress (.v4 0x0a000001) 128 (fun _ _ _ _ _ _ => (.ok (some (Path.makeEmpty (fun _ _ => (0, 0)) 0
      ⟨0x1000000000001⟩)), 1280)), true⟩

/-- A buffer that has held a datagram. -/
def exampleUsed : PacketBuffer :=
  (handle (fun _ => 0) (fun _ => 0) (fun _ _ => 0) (exampleDatagramArrival 0x79)
    SocketSystem.exampleBuffer).2

section Outcomes

variable {hash : IPAddress → UInt64} {hashSc : ScIPAddress → UInt64}
  {murmur32 : List UInt8 → UInt32 → UInt32} {S : Prop} {p q : PacketBuffer}

theorem send_sameOutcome (h : SameReceived S p q) (hstun : p.stunValid = true → S)
    (result : Except String Judgement) (bare : Bool) :
    (send bare (result, q)).1 = (send bare (result, p)).1 := by
  have hemitted := h.view.emission_eq h.placed hstun
    (fun htcp => by have hroom := h.tcp_room htcp; omega) bare
  rw [send, send]
  dsimp only
  split_ifs
  · rw [hemitted]
  · rfl

theorem translate_sameOutcome {d : Direction} (hd : d.Respects) (h : SameReceived S p q)
    (hsees : d.SeesLeftovers p → S) :
    (d.translate hash hashSc murmur32 q).1 = (d.translate hash hashSc murmur32 p).1 ∧
      SameReceived S (d.translate hash hashSc murmur32 p).2
        (d.translate hash hashSc murmur32 q).2 := by
  cases d with
  | none => exact ⟨rfl, h⟩
  | ingress acceptPrefix dstPrefix prefixLen getMTU =>
    have hsame := @SameView.translateIngress_sameView S p q hash murmur32 getMTU hd h.view h.placed
      acceptPrefix dstPrefix prefixLen
    have hin := @inPlace_translateIngress hash murmur32 acceptPrefix dstPrefix prefixLen getMTU p
    obtain ⟨hoffset, hend, hsize⟩ := h.placed
    rw [Direction.translate, Direction.translate]
    dsimp only
    refine ⟨by rw [hsame.1], hsame.2, ⟨?_, ?_, ?_⟩, fun htcp => ?_⟩
    · rwa [hin.packet, hin.endOfHeader]
    · rwa [hin.packet, hin.endOfHeader]
    · rwa [hin.packet, hin.stays.length]
    · rw [hin.packet, hin.endOfHeader]
      exact h.tcp_room (hin.tcp htcp)
  | egress sourcePrefix prefixLen getPath =>
    have hboth := @SameReceived.translateEgress S p q hash hashSc murmur32 h
      (fun hicmp => hsees (.inr ⟨hicmp, rfl⟩)) sourcePrefix prefixLen getPath
    rw [Direction.translate, Direction.translate]
    revert hboth
    rcases p.translateEgress hash hashSc murmur32 sourcePrefix prefixLen getPath with e | r <;>
      rcases q.translateEgress hash hashSc murmur32 sourcePrefix prefixLen getPath with e' | r'
    · rintro ⟨rfl⟩
      exact ⟨rfl, h⟩
    · rintro ⟨⟩
    · rintro ⟨⟩
    · rintro (_ | ⟨hresult⟩)
      dsimp only
      rw [hresult.verdict, hresult.sport, hresult.nextHop]
      exact ⟨rfl, hresult.pkt⟩

theorem stays_directionTranslate (d : Direction) (pkt : PacketBuffer) :
    Stays pkt (d.translate hash hashSc murmur32 pkt).2 := by
  cases d with
  | none => exact ⟨rfl, rfl⟩
  | ingress acceptPrefix dstPrefix prefixLen getMTU =>
    exact (inPlace_translateIngress acceptPrefix dstPrefix prefixLen getMTU pkt).stays
  | egress sourcePrefix prefixLen getPath =>
    rw [Direction.translate]
    cases h : pkt.translateEgress hash hashSc murmur32 sourcePrefix prefixLen getPath with
    | error e => exact ⟨rfl, rfl⟩
    | ok result => exact stays_translateEgress h

/-- A packet is handled in every buffer of a size the same way, unless it sees what is left. -/
theorem sameOutcome_handle {a : Arrival} (hd : a.direction.Respects)
    (hlen : q.buffer.length = p.buffer.length) (hfits : a.Fits p.buffer.length)
    (hleft : a.direction.SeesLeftovers (p.receive a.headroom a.raw a.noUnderlay a.isScion).2 →
      q.scmp.chksum = p.scmp.chksum ∧ q.stun.mapped = p.stun.mapped) :
    (handle hash hashSc murmur32 a q).1 = (handle hash hashSc murmur32 a p).1 := by
  obtain ⟨hec, hreceived⟩ := @receive_sameView
    (q.scmp.chksum = p.scmp.chksum ∧ q.stun.mapped = p.stun.mapped) p q hlen id a.headroom a.raw
    hfits a.noUnderlay a.isScion
  rw [handle, handle]
  revert hec hreceived hleft
  rcases p.receive a.headroom a.raw a.noUnderlay a.isScion with ⟨ec, got⟩
  rcases q.receive a.headroom a.raw a.noUnderlay a.isScion with ⟨ec', got'⟩
  intro hleft hec hreceived
  obtain rfl : ec = ec' := hec.symm
  cases ec with
  | ok =>
    have hgot := hreceived rfl
    obtain ⟨hresult, htranslated⟩ :=
      @translate_sameOutcome hash hashSc murmur32 _ got got' a.direction hd hgot hleft
    have hstun := (@stays_directionTranslate hash hashSc murmur32 a.direction got).stunValid
    dsimp only at hstun ⊢
    revert hresult htranslated hstun
    rcases a.direction.translate hash hashSc murmur32 got with ⟨result, p'⟩
    rcases a.direction.translate hash hashSc murmur32 got' with ⟨result', q'⟩
    intro hresult htranslated hstun
    obtain rfl : result = result' := hresult.symm
    exact send_sameOutcome htranslated (fun hvalid => hleft (.inl (hstun.symm.trans hvalid))) _ _
  | _ => rfl

theorem length_handle {a : Arrival} (hd : a.direction.Respects) (hfits : a.Fits p.buffer.length) :
    (handle hash hashSc murmur32 a p).2.buffer.length = p.buffer.length := by
  have hlength : (p.receive a.headroom a.raw a.noUnderlay a.isScion).2.buffer.length
      = p.buffer.length := length_receive hfits
  obtain ⟨-, hreceived⟩ := @receive_sameView True p p rfl (fun _ => ⟨rfl, rfl⟩) a.headroom a.raw
    hfits a.noUnderlay a.isScion
  rw [handle]
  revert hlength hreceived
  rcases p.receive a.headroom a.raw a.noUnderlay a.isScion with ⟨ec, got⟩
  intro hlength hreceived
  cases ec with
  | ok =>
    obtain ⟨-, htranslated⟩ := @translate_sameOutcome hash hashSc murmur32 _ got got a.direction hd
      (hreceived rfl) fun _ => trivial
    have hstays := @stays_directionTranslate hash hashSc murmur32 a.direction got
    have hend := htranslated.placed.le_end.trans htranslated.placed.end_le
    dsimp only at hlength hstays ⊢
    rw [send]
    split_ifs
    · exact (length_emitPacket hend).trans (hstays.length.trans hlength)
    · exact hstays.length.trans hlength
  | _ => exact hlength

/-- What a packet can see of earlier ones are these two members, whatever is done with it. -/
theorem handle_eq_of_leftovers {a : Arrival} (hd : a.direction.Respects)
    (hlen : q.buffer.length = p.buffer.length) (hfits : a.Fits p.buffer.length)
    (hchksum : q.scmp.chksum = p.scmp.chksum) (hmapped : q.stun.mapped = p.stun.mapped) :
    (handle hash hashSc murmur32 a q).1 = (handle hash hashSc murmur32 a p).1 :=
  sameOutcome_handle hd hlen hfits fun _ => ⟨hchksum, hmapped⟩

/-- An echo request is translated the same way in a buffer that held a datagram. -/
theorem handle_eq_of_leftovers_ping :
    (handle (fun _ => 0) (fun _ => 0) (fun _ _ => 0) examplePingArrival exampleUsed).1
      = (handle (fun _ => 0) (fun _ => 0) (fun _ _ => 0) examplePingArrival
        SocketSystem.exampleBuffer).1 :=
  handle_eq_of_leftovers trivial (by decide +kernel) (by decide +kernel) (by decide +kernel)
    (by decide +kernel)

/-- In a run of packets that see nothing of what is left, each is handled as if it were the first
one. -/
theorem handleAll_eq_map {fresh : PacketBuffer} {as : List Arrival}
    (has : ∀ a ∈ as, a.direction.Respects ∧ a.Fits fresh.buffer.length ∧
      ¬a.direction.SeesLeftovers (fresh.receive a.headroom a.raw a.noUnderlay a.isScion).2)
    (hlen : p.buffer.length = fresh.buffer.length) :
    handleAll hash hashSc murmur32 as p
      = as.map fun a => (handle hash hashSc murmur32 a fresh).1 := by
  induction as generalizing p with
  | nil => rfl
  | cons a as ih =>
    obtain ⟨hd, hfits, hsees⟩ := has a List.mem_cons_self
    have hnext : (handle hash hashSc murmur32 a p).2.buffer.length = fresh.buffer.length :=
      (length_handle hd (by rw [hlen]; exact hfits)).trans hlen
    rw [handleAll, List.map_cons, ih (fun b hb => has b (List.mem_cons_of_mem a hb)) hnext,
      sameOutcome_handle hd hlen hfits fun h => absurd h hsees]

theorem handleAll_eq_map_datagrams :
    handleAll (fun _ => 0) (fun _ => 0) (fun _ _ => 0)
        [exampleDatagramArrival 0x79, exampleDatagramArrival 0x80] exampleUsed
      = [exampleDatagramArrival 0x79, exampleDatagramArrival 0x80].map fun a =>
        (handle (fun _ => 0) (fun _ => 0) (fun _ _ => 0) a SocketSystem.exampleBuffer).1 := by
  refine handleAll_eq_map (fun a ha => ?_) (by decide +kernel)
  have hrespects : SameView.Respects (lookupReversed fun _ _ => 1280) :=
    respects_lookupReversed fun _ _ _ _ => rfl
  have hsees : ∀ {acceptPrefix dstPrefix prefixLen getMTU} {got : PacketBuffer},
      got.stunValid = false →
        ¬(Direction.ingress acceptPrefix dstPrefix prefixLen getMTU).SeesLeftovers got := by
    rintro _ _ _ _ got hstun (h | ⟨-, h⟩)
    · exact Bool.noConfusion (hstun.symm.trans h)
    · exact Bool.noConfusion h
  rcases List.mem_cons.mp ha with rfl | ha
  · exact ⟨hrespects, by decide +kernel, hsees (by decide +kernel)⟩
  · rcases List.mem_cons.mp ha with rfl | ha
    · exact ⟨hrespects, by decide +kernel, hsees (by decide +kernel)⟩
    · cases ha

end Outcomes

end PacketBuffer

end Scion
