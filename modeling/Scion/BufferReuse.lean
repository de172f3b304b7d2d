/-
Packets that share a buffer (`scitra/packet.hpp`, `scitra/packet.cpp`).

The headers of a packet buffer are not cleared between packets, only their flags are. What an
earlier packet has left must not be seen in what is parsed and emitted later.

* `PacketBuffer.SameView` — buffers that differ only in what earlier packets have left;
* `emission_eq` — the same is emitted from them;
* `Agrees` — parsers that keep them so, with its rules;
* `receive_sameView` — a packet is received into all buffers of a size the same way.
-/
import Scion.Emission
import Scion.PacketAssembly
import Scion.Relational
import Scion.TcpReuse

namespace Scion

open BigEndian Codec ReadStream Relational

/-! ### The same view -/

/-- Paths of which the same is encoded. -/
structure RawPathContents.Same (p q : RawPathContents) : Prop where
  source : q.source = p.source
  destination : q.destination = p.destination
  type : q.type = p.type
  size : q.size = p.size
  encoded : q.encoded = p.encoded
  sized : p.encoded.length = p.size

namespace PacketBuffer

/-- The packet and the headers that are valid are the same. What is read into and not cleared, the
checksum of SCMP and the mapped address of STUN, is the same if `S`. -/
structure SameView (S : Prop) (p q : PacketBuffer) : Prop where
  ipValid : q.ipValid = p.ipValid
  outerUDPValid : q.outerUDPValid = p.outerUDPValid
  stunValid : q.stunValid = p.stunValid
  scionValid : q.scionValid = p.scionValid
  l4Valid : q.l4Valid = p.l4Valid
  packet : q.packet = p.packet
  endOfHeader : q.endOfHeader = p.endOfHeader
  length : q.buffer.length = p.buffer.length
  raw : q.raw = p.raw
  ipv4 : p.ipValid = .ipv4 → q.ipv4 = p.ipv4
  ipv6 : p.ipValid = .ipv6 → q.ipv6 = p.ipv6
  outerUDP : p.outerUDPValid = true → q.outerUDP = p.outerUDP
  sci : p.scionValid = true → q.sci = p.sci
  path : p.scionValid = true → p.path.Same q.path
  icmp : p.l4Valid = .icmp → q.icmp = p.icmp
  scmp : p.l4Valid = .scmp → q.scmp = p.scmp
  tcp : p.l4Valid = .tcp → TCP.SameWire q.tcp p.tcp
  sack : p.l4Valid = .tcp → p.tcp.sizeAt .sack ≤ 40
  udp : p.l4Valid = .udp → q.udp = p.udp
  stun : S → p.stunValid = true → q.stun = p.stun
  chksum : S → q.scmp.chksum = p.scmp.chksum
  mapped : S → q.stun.mapped = p.stun.mapped

variable {S : Prop}

namespace SameView

variable {p q : PacketBuffer}

theorem l4Bytes_eq (h : SameView S p q) : q.l4Bytes = p.l4Bytes := by
  rw [l4Bytes, l4Bytes, h.l4Valid]
  cases hl4 : p.l4Valid with
  | none => rfl
  | icmp => exact congrArg ICMPv6.bytes (h.icmp hl4)
  | scmp => exact congrArg SCMP.bytes (h.scmp hl4)
  | tcp => exact (h.tcp hl4).bytes_eq
  | udp => exact congrArg UDP.bytes (h.udp hl4)

theorem l4Size_eq (h : SameView S p q) : q.l4Size = p.l4Size := by
  rw [l4Size, l4Size, h.l4Valid]
  cases hl4 : p.l4Valid with
  | scmp => exact congrArg SCMP.size (h.scmp hl4)
  | tcp => exact (h.tcp hl4).size_eq
  | _ => rfl

theorem l4SPort_eq (h : SameView S p q) (default : UInt16) :
    q.l4SPort default = p.l4SPort default := by
  rw [l4SPort, l4SPort, h.l4Valid]
  cases hl4 : p.l4Valid with
  | tcp => exact (h.tcp hl4).sport_eq
  | udp => exact congrArg UDP.sport (h.udp hl4)
  | _ => rfl

theorem l4DPort_eq (h : SameView S p q) (default : UInt16) :
    q.l4DPort default = p.l4DPort default := by
  rw [l4DPort, l4DPort, h.l4Valid]
  cases hl4 : p.l4Valid with
  | tcp => exact (h.tcp hl4).dport_eq
  | udp => exact congrArg UDP.dport (h.udp hl4)
  | _ => rfl

theorem placed (h : SameView S p q) (hp : p.Placed) : q.Placed := by
  obtain ⟨hoffset, hend, hsize⟩ := hp
  constructor
  · rwa [h.packet, h.endOfHeader]
  · rwa [h.packet, h.endOfHeader]
  · rwa [h.packet, h.length]

/-- A part of the packet. -/
theorem slice_eq (h : SameView S p q) {off n : ℕ} (hoff : p.packet.offset ≤ off)
    (hn : off + n ≤ p.packet.offset + p.packet.size) :
    Records.slice q.buffer off n = Records.slice p.buffer off n := by
  have hraw := h.raw
  have hwithin := Records.slice_slice p.buffer p.packet.offset p.packet.size
    (off - p.packet.offset) n (by omega)
  have hwithin' := Records.slice_slice q.buffer p.packet.offset p.packet.size
    (off - p.packet.offset) n (by omega)
  rw [Nat.add_sub_cancel' hoff] at hwithin hwithin'
  rw [PacketBuffer.raw, PacketBuffer.raw, h.packet] at hraw
  rw [← hwithin, ← hwithin', hraw]

theorem payload_eq (h : SameView S p q) (hp : p.Placed) : q.payload = p.payload := by
  obtain ⟨hoffset, hend, -⟩ := hp
  rw [payload, payload, h.packet, h.endOfHeader]
  exact h.slice_eq hoffset (by omega)

/-! ### Emission -/

theorem measureHeaders_eq (h : SameView S p q) (noUnderlay : Bool) :
    q.measureHeaders noUnderlay = p.measureHeaders noUnderlay := by
  have hscion : ∀ n : ℕ, (if p.scionValid then n + (q.sci.size + q.path.size) else n)
      = if p.scionValid then n + (p.sci.size + p.path.size) else n := by
    intro n
    cases hvalid : p.scionValid with
    | false => rfl
    | true => rw [h.sci hvalid, (h.path hvalid).size]
  rw [measureHeaders, measureHeaders, h.ipValid, h.outerUDPValid, h.scionValid, h.l4Size_eq]
  dsimp only
  rw [hscion]
  rfl

theorem ipBytes_eq (h : SameView S p q) : q.ipBytes = p.ipBytes := by
  rw [ipBytes, ipBytes, h.ipValid]
  cases hip : p.ipValid with
  | none => rfl
  | ipv4 => exact congrArg IPv4.bytes (h.ipv4 hip)
  | ipv6 => exact congrArg IPv6.bytes (h.ipv6 hip)

theorem innerBytes_eq (h : SameView S p q) (hstun : p.stunValid = true → S) :
    q.innerBytes = p.innerBytes := by
  have hnone : ∀ bs, bytesIf false bs = [] := fun _ => rfl
  have hmessage : bytesIf p.stunValid q.stun.bytes = bytesIf p.stunValid p.stun.bytes := by
    cases hvalid : p.stunValid with
    | false => rw [hnone, hnone]
    | true => rw [h.stun (hstun hvalid) hvalid]
  have hscion : bytesIf p.scionValid q.scionBytes = bytesIf p.scionValid p.scionBytes := by
    cases hvalid : p.scionValid with
    | false => rw [hnone, hnone]
    | true => rw [scionBytes, scionBytes, h.sci hvalid, (h.path hvalid).encoded]
  rw [innerBytes, innerBytes, h.stunValid, h.scionValid, h.l4Bytes_eq, hmessage, hscion]

theorem outerChksum_eq (h : SameView S p q) (hp : p.Placed) (hudp : p.outerUDPValid = true)
    (data : List UInt8) : q.outerChksum data = p.outerChksum data := by
  rw [outerChksum, outerChksum, h.ipValid, h.outerUDP hudp, h.payload_eq hp]
  cases hip : p.ipValid with
  | none => rfl
  | ipv4 => rw [h.ipv4 hip]
  | ipv6 => rw [h.ipv6 hip]

theorem emitted_eq (h : SameView S p q) (hp : p.Placed) (hstun : p.stunValid = true → S)
    (noUnderlay : Bool) : q.emitted noUnderlay = p.emitted noUnderlay := by
  have hudp : bytesIf p.outerUDPValid
      ({ q.outerUDP with chksum := q.outerChksum p.innerBytes } : UDP).bytes
        = bytesIf p.outerUDPValid
          ({ p.outerUDP with chksum := p.outerChksum p.innerBytes } : UDP).bytes := by
    cases hvalid : p.outerUDPValid with
    | false => rfl
    | true => rw [h.outerChksum_eq hp hvalid, h.outerUDP hvalid]
  rw [emitted, emitted, h.innerBytes_eq hstun, underlayBytes, underlayBytes, h.ipBytes_eq,
    h.outerUDPValid, hudp]

theorem writable_iff (h : SameView S p q) (noUnderlay : Bool) :
    q.Writable noUnderlay ↔ p.Writable noUnderlay := by
  have hscmp : (q.l4Valid = .scmp → q.scmp.msg.isKnown = true) ↔
      (p.l4Valid = .scmp → p.scmp.msg.isKnown = true) := by
    rw [h.l4Valid]
    exact imp_congr_right fun hl4 => by rw [h.scmp hl4]
  have hip : q.IPWritable ↔ p.IPWritable := by
    have h4 : (q.ipValid = .ipv4 → q.ipv4.Is4) ↔ (p.ipValid = .ipv4 → p.ipv4.Is4) := by
      rw [h.ipValid]
      exact imp_congr_right fun hip => by rw [h.ipv4 hip]
    have h6 : (q.ipValid = .ipv6 → q.ipv6.Is6) ↔ (p.ipValid = .ipv6 → p.ipv6.Is6) := by
      rw [h.ipValid]
      exact imp_congr_right fun hip => by rw [h.ipv6 hip]
    exact ⟨fun hw => ⟨h4.mp hw.ipv4, h6.mp hw.ipv6⟩, fun hw => ⟨h4.mpr hw.ipv4, h6.mpr hw.ipv6⟩⟩
  exact ⟨fun hw => ⟨fun hnu => hip.mp (hw.ip hnu), hscmp.mp hw.scmp⟩,
    fun hw => ⟨fun hnu => hip.mpr (hw.ip hnu), hscmp.mpr hw.scmp⟩⟩

/-- Only blocks that are not written are measured in excess. -/
theorem l4Size_le (h : SameView S p q) :
    p.l4Size ≤ p.l4Bytes.length + if p.l4Valid = .tcp then 11 else 0 := by
  rw [l4Size, l4Bytes]
  cases hl4 : p.l4Valid with
  | none => exact Nat.zero_le _
  | icmp => exact (ICMPv6.length_bytes _).symm.le.trans (Nat.le_add_right _ _)
  | scmp => exact (SCMP.length_bytes _).symm.le.trans (Nat.le_add_right _ _)
  | tcp => exact TCP.size_le_length_bytes (h.sack hl4)
  | udp => exact (UDP.length_bytes _).symm.le.trans (Nat.le_add_right _ _)

theorem measureHeaders_le (h : SameView S p q) {noUnderlay : Bool} (hw : p.Writable noUnderlay) :
    p.measureHeaders noUnderlay
      ≤ (p.emitted noUnderlay).length + if p.l4Valid = .tcp then 11 else 0 := by
  have hl4 := h.l4Size_le
  have hscion : (bytesIf p.scionValid p.scionBytes).length
      = if p.scionValid then p.sci.size + p.path.size else 0 := by
    cases hvalid : p.scionValid with
    | false => rfl
    | true =>
      have hsized := (h.path hvalid).sized
      rw [bytesIf, if_pos rfl, if_pos rfl, scionBytes, List.length_append, SCION.length_bytes,
        hsized]
  have hmeasure : p.measureHeaders noUnderlay
      = (p.underlayBytes noUnderlay (p.outerChksum p.innerBytes)).length
        + (if p.scionValid then p.sci.size + p.path.size else 0) + p.l4Size := by
    cases noUnderlay with
    | true =>
      rw [measureHeaders, underlayBytes]
      cases p.scionValid <;> simp [bytesIf]
    | false =>
      have hip := length_ipBytes (hw.ip rfl)
      rw [measureHeaders, underlayBytes, length_bytesIf, List.length_append, hip, length_bytesIf,
        UDP.length_bytes]
      cases p.ipValid <;> cases p.outerUDPValid <;> cases p.scionValid <;>
        simp [IPv4.size, IPv4.ihl, IPv6.size, UDP.size]
  rw [hmeasure, emitted, innerBytes, List.length_append, List.length_append, List.length_append,
    hscion]
  generalize (if p.l4Valid = .tcp then 11 else 0) = excess at hl4 ⊢
  omega

/-- Headers that are measured longer than they are end in what was parsed. -/
theorem gap_eq (h : SameView S p q) (hp : p.Placed) (hstun : p.stunValid = true → S)
    {noUnderlay : Bool} (hroom : p.measureHeaders noUnderlay ≤ p.endOfHeader)
    (hgap : p.measureHeaders noUnderlay
      ≤ (p.emitted noUnderlay).length + (p.endOfHeader - p.packet.offset)) :
    q.gap noUnderlay = p.gap noUnderlay := by
  have hend := hp.offset_le
  have hsize := hp.le_end
  have htail : ∀ r : PacketBuffer, ∀ n : ℕ, n ≤ p.measureHeaders noUnderlay →
      (Records.slice r.buffer (p.endOfHeader - p.measureHeaders noUnderlay)
        (p.measureHeaders noUnderlay)).drop n
        = Records.slice r.buffer (p.endOfHeader - (p.measureHeaders noUnderlay - n))
          (p.measureHeaders noUnderlay - n) := by
    intro r n hn
    rw [Records.slice, Records.slice, List.drop_take, List.drop_drop]
    congr 2
    omega
  rw [gap, gap, h.measureHeaders_eq, h.endOfHeader, h.emitted_eq hp hstun]
  by_cases hlong : (p.emitted noUnderlay).length ≤ p.measureHeaders noUnderlay
  · rw [htail q _ hlong, htail p _ hlong]
    exact h.slice_eq (by omega) (by omega)
  · have hnil : ∀ r : PacketBuffer,
        (Records.slice r.buffer (p.endOfHeader - p.measureHeaders noUnderlay)
          (p.measureHeaders noUnderlay)).drop (p.emitted noUnderlay).length = [] := by
      intro r
      rw [List.drop_eq_nil_iff, Records.slice, List.length_take]
      omega
    rw [hnil, hnil]

/-- Whether there is too little room or the headers cannot be written. -/
theorem emitPacket_error_eq {noUnderlay : Bool} {pkt : PacketBuffer} {e : ErrorCode}
    (h : (pkt.emitPacket noUnderlay).1 = .error e) :
    e = if pkt.endOfHeader < pkt.measureHeaders noUnderlay then .bufferTooSmall else .logicError := by
  rw [emitPacket] at h
  dsimp only at h
  split_ifs at h ⊢ with hroom
  · cases h
    rfl
  · split at h
    · cases h
    · cases h
      rfl

/-- The same is emitted. -/
theorem emission_eq (h : SameView S p q) (hp : p.Placed) (hstun : p.stunValid = true → S)
    (hparsed : p.l4Valid = .tcp → p.packet.offset + 11 ≤ p.endOfHeader) (noUnderlay : Bool) :
    (q.emitPacket noUnderlay).1 = (p.emitPacket noUnderlay).1 := by
  have hmeasure := h.measureHeaders_eq noUnderlay
  have hemitted := h.emitted_eq hp hstun noUnderlay
  by_cases hok : p.Writable noUnderlay ∧ p.measureHeaders noUnderlay ≤ p.endOfHeader ∧
      (p.emitted noUnderlay).length ≤ p.measureHeaders noUnderlay
  · obtain ⟨hw, hroom, hfits⟩ := hok
    have hle : p.measureHeaders noUnderlay
        ≤ (p.emitted noUnderlay).length + (p.endOfHeader - p.packet.offset) := by
      refine (h.measureHeaders_le hw).trans (Nat.add_le_add_left ?_ _)
      split_ifs with htcp
      · have hroom := hparsed htcp
        omega
      · exact Nat.zero_le _
    rw [emitPacket_ok hw hp hroom hfits, emitPacket_ok ((h.writable_iff _).mpr hw) (h.placed hp)
      (by rwa [hmeasure, h.endOfHeader]) (by rwa [hmeasure, hemitted]), hemitted,
      h.gap_eq hp hstun hroom hle, h.payload_eq hp]
  · obtain ⟨e, herr⟩ := @emitPacket_error noUnderlay p fun hw hroom => by
      by_contra hle
      exact hok ⟨hw, hroom, Nat.not_lt.mp hle⟩
    obtain ⟨e', herr'⟩ := @emitPacket_error noUnderlay q fun hw hroom => by
      rw [hmeasure, h.endOfHeader] at hroom
      rw [hmeasure, hemitted]
      by_contra hle
      exact hok ⟨(h.writable_iff _).mp hw, hroom, Nat.not_lt.mp hle⟩
    rw [herr, herr', emitPacket_error_eq herr, emitPacket_error_eq herr', hmeasure, h.endOfHeader]

end SameView

/-! ### Parsing -/

/-- A stream at the beginning of a byte. -/
def AtByte (rs : ReadStream) : Prop := ∃ pre post, rs = cursor pre post

theorem AtByte.of_takes {α : Type} {r : Reader α} {P : List UInt8 → α → Prop}
    (hr : Takes cursor r P) {rs rs' : ReadStream} {a : α} (h : AtByte rs)
    (hrun : r rs = .ok a rs') : AtByte rs' := by
  obtain ⟨pre, post, rfl⟩ := h
  obtain ⟨bs, rest, -, rfl, -⟩ := hr pre post a rs' hrun
  exact ⟨_, _, rfl⟩

/-- On buffers related by `R` the parser returns the same, and leaves them related by `T`. -/
def Agrees {α : Type} (R : PacketBuffer → PacketBuffer → Prop) (m : PacketParser α)
    (T : α → PacketBuffer → PacketBuffer → Prop) : Prop :=
  Follows (Beside R AtByte) m m fun a s b t => b = a ∧ Beside (T a) AtByte s t

namespace Agrees

variable {α β : Type} {R : PacketBuffer → PacketBuffer → Prop}
  {T : α → PacketBuffer → PacketBuffer → Prop} {m : PacketParser α}

theorem pure (a : α) : Agrees (T a) (Pure.pure a) T :=
  Follows.pure fun _ _ h => ⟨rfl, h⟩

theorem pure_same (a : α) : Agrees R (Pure.pure a) fun _ => R :=
  Follows.pure fun _ _ h => ⟨rfl, h⟩

theorem bind {f : α → PacketParser β} {Q : β → PacketBuffer → PacketBuffer → Prop}
    (hm : Agrees R m T) (hf : ∀ a, Agrees (T a) (f a) Q) : Agrees R (m >>= f) Q :=
  Follows.bind_same hm hf

theorem throw (e : String) : Agrees R (MonadExcept.throw e : PacketParser α) T :=
  Follows.throw e

theorem ite {c : Prop} [Decidable c] {n : PacketParser α} (hm : c → Agrees R m T)
    (hn : ¬c → Agrees R n T) : Agrees R (if c then m else n) T :=
  Follows.ite hm hn

/-- The value does not come from the buffer. -/
theorem scan {r : Reader α} {P : List UInt8 → α → Prop} (hr : Takes cursor r P) :
    Agrees R (scan r) fun _ => R := by
  rintro ⟨p, _⟩ ⟨q, rs⟩ ⟨hR, rfl, hbyte⟩ a s' hrun
  obtain ⟨rs', hr', rfl⟩ := scan_eq_ok hrun
  refine ⟨a, (q, rs'), ?_, rfl, hR, rfl, hbyte.of_takes hr hr'⟩
  show PacketBuffer.scan r (q, rs) = _
  rw [PacketBuffer.scan, hr']

theorem update {f : PacketBuffer → PacketBuffer} {Q : PacketBuffer → PacketBuffer → Prop}
    (hf : ∀ p q, R p q → Q (f p) (f q)) : Agrees R (update f) fun _ => Q := by
  rintro ⟨p, _⟩ ⟨q, rs⟩ ⟨hR, rfl, hbyte⟩ a s' hrun
  cases hrun
  exact ⟨(), (f q, rs), rfl, rfl, hf p q hR, rfl, hbyte⟩

theorem into {r : Reader α} {set : α → PacketBuffer → PacketBuffer} {P : List UInt8 → α → Prop}
    (hr : Takes cursor r P) (hset : ∀ a p q, R p q → T a (set a p) (set a q)) :
    Agrees R (scanInto (fun _ => r) set) T := by
  have hrun : Agrees R (do let a ← PacketBuffer.scan r; PacketBuffer.update (set a); Pure.pure a)
      T :=
    (scan hr).bind fun a => (update (hset a)).bind fun _ => pure a
  exact hrun

/-- What is read depends on the buffer, and is dropped. -/
theorem into_unit {r : PacketBuffer → Reader α} {set : α → PacketBuffer → PacketBuffer}
    {Q : PacketBuffer → PacketBuffer → Prop}
    (hr : ∀ p q rs a rs', R p q → AtByte rs → r p rs = .ok a rs' →
      AtByte rs' ∧ ∃ b, r q rs = .ok b rs' ∧ Q (set a p) (set b q)) :
    Agrees R (do let _ ← scanInto r set; Pure.pure ()) fun _ => Q := by
  rintro ⟨p, _⟩ ⟨q, rs⟩ ⟨hR, rfl, hbyte⟩ _ s' hrun
  obtain ⟨a, s₁, hinto, hpure⟩ := bind_eq_ok.mp hrun
  obtain ⟨_, s₂, hscan, hset⟩ := bind_eq_ok.mp hinto
  obtain ⟨rs', hread, rfl⟩ := scan_eq_ok hscan
  cases hset
  cases hpure
  obtain ⟨hbyte', b, hread', hQ⟩ := hr p q rs a rs' hR hbyte hread
  have hscan' : PacketBuffer.scan (r q) (q, rs) = .ok b (q, rs') := by
    rw [PacketBuffer.scan, hread']
  have hinto' : scanInto r set (q, rs) = .ok b (set b q, rs') := by
    rw [scanInto, bind_ok hscan']
    rfl
  exact ⟨(), (set b q, rs'), bind_ok hinto', rfl, hQ, rfl, hbyte'⟩

end Agrees

/-- The version is read from the first byte, which is read again. -/
theorem agrees_parseIP {p q : PacketBuffer} (h : SameView S p q) {raw : List UInt8}
    {ip : IPAddress × IPProto} {s : PacketBuffer × ReadStream}
    (hrun : parseIP (p, cursor [] raw) = .ok ip s) :
    ∃ t, parseIP (q, cursor [] raw) = .ok ip t ∧ Beside (SameView S) AtByte s t := by
  rw [parseIP] at hrun ⊢
  obtain ⟨ipVer, s₁, hver, hrun⟩ := bind_eq_ok.mp hrun
  obtain ⟨rs, hbits, rfl⟩ := scan_eq_ok hver
  obtain ⟨v, hword, rfl⟩ := of_map_eq_ok hbits
  have hdata : rs.data = raw := data_of_serializeBits hword
  have hver' : PacketBuffer.scan (UInt64.toUInt8 <$> ReadStream.serializeBits 8 4)
      (q, cursor [] raw) = .ok v.toUInt8 (q, rs) := by
    rw [PacketBuffer.scan, hbits]
  have hstart : Beside (SameView S) AtByte (p, cursor [] raw) (q, cursor [] raw) :=
    ⟨h, rfl, [], raw, rfl⟩
  rw [bind_ok hver']
  by_cases h4 : v.toUInt8 = 4
  · have hagrees : Agrees (SameView S) (do
        let ipv4 ← scanInto (fun _ => IPv4.read) fun ipv4 pkt =>
          { pkt with ipv4 := ipv4, ipValid := .ipv4 }
        pure (ipv4.src, ipv4.proto)) fun _ => SameView S :=
      (Agrees.into IPv4.takes fun ipv4 p q h => { h with
        ipValid := rfl
        ipv4 := fun _ => rfl
        ipv6 := by simp }).bind fun ipv4 => .pure (ipv4.src, ipv4.proto)
    rw [if_pos h4, scan_seek hdata] at hrun ⊢
    obtain ⟨_, t, ht, rfl, hsame⟩ := hagrees _ _ hstart ip s hrun
    exact ⟨t, ht, hsame⟩
  rw [if_neg h4] at hrun ⊢
  by_cases h6 : v.toUInt8 = 6
  · have hagrees : Agrees (SameView S) (do
        let ipv6 ← scanInto (fun _ => IPv6.read) fun ipv6 pkt =>
          { pkt with ipv6 := ipv6, ipValid := .ipv6 }
        pure (ipv6.src, ipv6.nh)) fun _ => SameView S :=
      (Agrees.into IPv6.takes fun ipv6 p q h => { h with
        ipValid := rfl
        ipv4 := by simp
        ipv6 := fun _ => rfl }).bind fun ipv6 => .pure (ipv6.src, ipv6.nh)
    rw [if_pos h6, scan_seek hdata] at hrun ⊢
    obtain ⟨_, t, ht, rfl, hsame⟩ := hagrees _ _ hstart ip s hrun
    exact ⟨t, ht, hsame⟩
  · rw [if_neg h6] at hrun
    cases hrun

theorem agrees_skipOpts {R : PacketBuffer → PacketBuffer → Prop} (kind proto : ScionProto) :
    Agrees R (skipOpts kind proto) fun _ => R := by
  rw [skipOpts]
  exact .ite (fun _ => (Agrees.scan OptsHeader.takes).bind fun opts =>
    (Agrees.scan (takes_advanceBytes opts.optionSize)).bind fun _ => .pure_same opts.nh)
    fun _ => .pure_same proto

/-- Of the path, what is stored is what was read. -/
theorem agrees_assignPath {R Q : PacketBuffer → PacketBuffer → Prop} (source destination : IsdAsn)
    (type : PathType) (data : List UInt8)
    (hset : ∀ (p q : PacketBuffer) path path', R p q → path.Same path' →
      Q { p with path := path } { q with path := path' }) :
    Agrees R (assignPath source destination type data) fun _ => Q := by
  rintro ⟨p, _⟩ ⟨q, rs⟩ ⟨hR, rfl, hbyte⟩ _ s' hrun
  dsimp only at hR hrun hbyte ⊢
  rw [assignPath] at hrun
  cases hpath : p.path.assign source destination type data with
  | error e =>
    simp only [hpath] at hrun
    cases hrun
  | ok path =>
    simp only [hpath] at hrun
    cases hrun
    obtain ⟨hencoded, hsize, hmax⟩ := RawPathContents.encoded_of_assign hpath
    have hassign : q.path.assign source destination type data = _ :=
      assign_eq_assignedPath hmax q.path
    have hassign' := Except.ok.inj ((assign_eq_assignedPath hmax p.path).symm.trans hpath)
    obtain ⟨hencoded', -, -⟩ := RawPathContents.encoded_of_assign hassign
    refine ⟨(), ({ q with path := assignedPath source destination type data q.path }, rs), ?_, rfl,
      ?_, rfl, hbyte⟩
    · rw [assignPath]
      simp only [hassign]
    · refine hset p q _ _ hR ?_
      subst hassign'
      exact ⟨rfl, rfl, rfl, rfl, hencoded'.trans hencoded.symm, by rw [hencoded, hsize]⟩

/-- The SCION header and the path are related when they become valid. -/
theorem agrees_parseScion : Agrees (SameView S) parseScion fun _ => SameView S := by
  refine (Agrees.into (T := fun _ p q => SameView S p q ∧ q.sci = p.sci) SCION.takes_bytes ?_).bind
    fun sci => (Agrees.scan (takes_lookahead sci.pathSize)).bind fun pdata =>
      (agrees_assignPath (Q := fun p q => SameView S p q ∧ q.sci = p.sci ∧ p.path.Same q.path) _ _ _ _
        ?_).bind fun _ => (Agrees.scan (takes_advanceBytes sci.pathSize)).bind fun _ =>
          (agrees_skipOpts _ _).bind fun _ => (agrees_skipOpts _ _).bind fun proto =>
            (Agrees.update (Q := SameView S) ?_).bind fun _ => .pure_same proto
  · exact fun sci p q h => ⟨{ h with
      sci := fun _ => rfl }, rfl⟩
  · rintro p q path path' ⟨h, hsci⟩ hpath
    exact ⟨{ h with
      path := fun _ => hpath }, hsci, hpath⟩
  · rintro p q ⟨h, hsci, hpath⟩
    exact { h with
      scionValid := rfl
      sci := fun _ => hsci
      path := fun _ => hpath }

theorem agrees_parseScmp : Agrees (SameView S) parseScmp fun _ => SameView S := by
  refine (Agrees.scan takes_byte).bind fun type => (Agrees.scan takes_byte).bind fun code =>
    (Agrees.into (T := fun _ => SameView S) takes_uint16 ?_).bind fun chksum =>
      (Agrees.into (T := fun _ => SameView S) (ScmpMessage.takes type code) ?_).bind fun _ =>
        .pure_same ()
  · exact fun chksum p q h => { h with
      scmp := fun hl4 => by dsimp only; rw [h.scmp hl4]
      chksum := fun _ => rfl }
  · exact fun msg p q h => { h with
      l4Valid := rfl
      icmp := by simp
      scmp := fun _ => rfl
      chksum := fun _ => rfl
      tcp := by simp
      sack := by simp
      udp := by simp }

theorem agrees_tcp : Agrees (SameView S) (do
    let _ ← scanInto (fun pkt => TCP.read pkt.tcp) fun tcp pkt =>
      { pkt with tcp := tcp, l4Valid := .tcp }
    pure ()) fun _ => SameView S := by
  refine Agrees.into_unit ?_
  rintro p q rs tcp rs' h ⟨pre, post, rfl⟩ hread
  obtain ⟨⟨tcp', hread', hsame⟩, hsize⟩ := TCP.read_sameWire hread q.tcp
  refine ⟨AtByte.of_takes (TCP.takes p.tcp) ⟨pre, post, rfl⟩ hread, tcp', hread', ?_⟩
  exact { h with
    l4Valid := rfl
    icmp := by simp
    scmp := by simp
    tcp := fun _ => hsame
    sack := fun _ => hsize .sack
    udp := by simp }

theorem agrees_parseL4 (proto : ScionProto) : Agrees (SameView S) (parseL4 proto) fun _ => SameView S := by
  rw [parseL4]
  refine .ite (fun _ => agrees_parseScmp) fun _ => .ite (fun _ => ?_) fun _ =>
    .ite (fun _ => agrees_tcp) fun _ => .ite (fun _ => ?_) fun _ => .throw _
  · exact (Agrees.into (T := fun _ => SameView S) ICMPv6.takes fun icmp p q h => { h with
      l4Valid := rfl
      icmp := fun _ => rfl
      scmp := by simp
      tcp := by simp
      sack := by simp
      udp := by simp }).bind fun _ => .pure_same ()
  · exact (Agrees.into (T := fun _ => SameView S) UDP.takes fun udp p q h => { h with
      l4Valid := rfl
      icmp := by simp
      scmp := by simp
      tcp := by simp
      sack := by simp
      udp := fun _ => rfl }).bind fun _ => .pure_same ()

theorem agrees_parseUDP (isScion : Option IsScion) (srcIP : IPAddress) :
    Agrees (SameView S) (parseUDP isScion srcIP) fun _ => SameView S := by
  refine (Agrees.into (T := fun outerUDP p q => SameView S p q ∧ q.outerUDP = outerUDP ∧
    p.outerUDP = outerUDP) UDP.takes ?_).bind fun outerUDP => .ite (fun _ => ?_) fun _ => ?_
  · exact fun outerUDP p q h => ⟨{ h with
      outerUDP := fun _ => rfl }, rfl, rfl⟩
  · refine (Agrees.update (Q := SameView S) ?_).bind fun _ => agrees_parseScion.bind agrees_parseL4
    rintro p q ⟨h, hq, hp⟩
    exact { h with
      outerUDPValid := rfl
      outerUDP := fun _ => hq.trans hp.symm }
  · refine Agrees.update ?_
    rintro p q ⟨h, hq, hp⟩
    exact { h with
      outerUDPValid := rfl
      outerUDP := by simp
      l4Valid := rfl
      icmp := by simp
      scmp := by simp
      tcp := by simp
      sack := by simp
      udp := fun _ => hq.trans hp.symm }

theorem agrees_parseInner (noUnderlay : Bool) (isScion : Option IsScion) (srcIP : IPAddress)
    (ipProto : IPProto) :
    Agrees (SameView S) (parseInner noUnderlay isScion srcIP ipProto) fun _ => SameView S :=
  .ite (fun _ => agrees_parseScion.bind agrees_parseL4) fun _ =>
    .ite (fun _ => agrees_parseUDP isScion srcIP) fun _ => agrees_parseL4 ipProto

/-- Whatever mapped address the buffer holds, the attributes are the same. -/
theorem parseAttributes_ok {tx : List UInt8} {fuel : ℕ} (old' : Option IPEndpoint) :
    ∀ {old mapped : Option IPEndpoint} {rs rs' : ReadStream},
      STUN.parseAttributes tx fuel old rs = .ok mapped rs' →
        ∃ mapped', STUN.parseAttributes tx fuel old' rs = .ok mapped' rs' := by
  induction fuel generalizing old' with
  | zero =>
    intro old mapped rs rs' h
    rw [STUN.parseAttributes] at h ⊢
    dsimp only at h ⊢
    split_ifs at h ⊢
    cases h
    exact ⟨old', rfl⟩
  | succ fuel ih =>
    intro old mapped rs rs' h
    rw [STUN.parseAttributes] at h ⊢
    dsimp only at h ⊢
    by_cases hdata : rs.hasData = true
    swap
    · rw [if_neg hdata] at h ⊢
      cases h
      exact ⟨old', rfl⟩
    rw [if_pos hdata] at h ⊢
    obtain ⟨ptr, rs₁, hlook, h⟩ := bind_eq_ok.mp h
    rw [bind_ok hlook]
    by_cases hxor : UInt16.ofNat (beNat ptr) = StunAttribType.xorMappedAddress
    · rw [if_pos hxor] at h ⊢
      exact ⟨mapped, h⟩
    rw [if_neg hxor] at h ⊢
    obtain ⟨type, rs₂, htype, h⟩ := bind_eq_ok.mp h
    obtain ⟨_, rs₃, hknown, h⟩ := bind_eq_ok.mp h
    rw [bind_ok htype, bind_ok hknown]
    exact ih old' h

theorem readInto_ok {old stun : STUN} {rs rs' : ReadStream} (old' : STUN)
    (h : STUN.readInto old rs = .ok stun rs') : ∃ stun', STUN.readInto old' rs = .ok stun' rs' := by
  rw [STUN.readInto] at h ⊢
  obtain ⟨type, rs₁, htype, h⟩ := bind_eq_ok.mp h
  obtain ⟨length, rs₂, hlength, h⟩ := bind_eq_ok.mp h
  obtain ⟨cookie, rs₃, hcookie, h⟩ := bind_eq_ok.mp h
  obtain ⟨_, rs₄, hmagic, h⟩ := bind_eq_ok.mp h
  obtain ⟨tx, rs₅, htx, h⟩ := bind_eq_ok.mp h
  obtain ⟨attribs, rs₆, hattribs, h⟩ := bind_eq_ok.mp h
  rw [bind_ok htype, bind_ok hlength, bind_ok hcookie, bind_ok hmagic, bind_ok htx,
    bind_ok hattribs]
  cases hparse : STUN.parseAttributes tx attribs.length old.mapped (ReadStream.ofBuffer attribs) with
  | error e s =>
    rw [hparse] at h
    cases h
  | ok mapped s =>
    rw [hparse] at h
    cases h
    obtain ⟨mapped', hparse'⟩ := parseAttributes_ok old'.mapped hparse
    rw [hparse']
    exact ⟨_, rfl⟩

theorem agrees_parseStun : Agrees (SameView S) parseStun fun _ => SameView S := by
  refine Agrees.into_unit ?_
  rintro p q rs stun rs' h hbyte hread
  obtain ⟨stun', hread'⟩ := readInto_ok q.stun hread
  have hsame : S → stun' = stun := fun hS => by
    rw [STUN.readInto, h.mapped hS, ← STUN.readInto, hread] at hread'
    cases hread'
    rfl
  exact ⟨hbyte.of_takes (takes_stun p.stun) hread, stun', hread', { h with
    stunValid := rfl
    stun := fun hS _ => hsame hS
    mapped := fun hS => congrArg STUN.mapped (hsame hS) }⟩

theorem agrees_aheadStun {R : PacketBuffer → PacketBuffer → Prop} :
    Agrees R aheadStun fun _ => R := by
  rintro ⟨p, _⟩ ⟨q, rs⟩ ⟨hR, rfl, hbyte⟩ ahead s hrun
  dsimp only at hrun
  obtain rfl := aheadStun_eq_ok hrun
  refine ⟨ahead, (q, rs), ?_, rfl, hR, rfl, hbyte⟩
  rw [aheadStun] at hrun ⊢
  cases hlook : ReadStream.lookahead (some STUN.stunHeaderSize) rs with
  | ok header rs' =>
    simp only [hlook] at hrun ⊢
    cases hrun
    rfl
  | error e rs' =>
    simp only [hlook] at hrun ⊢
    cases hrun
    rfl

/-- What is read into related buffers. -/
theorem parse_sameView {p q : PacketBuffer} (h : SameView S p q) {raw : List UInt8}
    {noUnderlay : Bool} {isScion : Option IsScion} {s : PacketBuffer × ReadStream}
    (hrun : parse noUnderlay isScion (p, cursor [] raw) = .ok () s) :
    ∃ t, parse noUnderlay isScion (q, cursor [] raw) = .ok () t ∧ Beside (SameView S) AtByte s t := by
  have hrest : ∀ srcIP ipProto, Agrees (SameView S) (do
      let stun ← aheadStun
      if stun then parseStun else parseInner noUnderlay isScion srcIP ipProto)
      fun _ => SameView S := fun srcIP ipProto =>
    agrees_aheadStun.bind fun stun => .ite (fun _ => agrees_parseStun)
      fun _ => agrees_parseInner noUnderlay isScion srcIP ipProto
  rw [parse] at hrun ⊢
  cases noUnderlay with
  | true =>
    rw [if_pos rfl] at hrun ⊢
    obtain ⟨_, t, ht, -, hend⟩ := hrest (.v6 0 0 "") 0 (p, cursor [] raw) (q, cursor [] raw)
      ⟨h, rfl, [], raw, rfl⟩ () s hrun
    exact ⟨t, ht, hend⟩
  | false =>
    rw [if_neg Bool.false_ne_true] at hrun ⊢
    obtain ⟨ip, s₁, hip, hrun⟩ := bind_eq_ok.mp hrun
    obtain ⟨t₁, hip', hsame⟩ := agrees_parseIP h hip
    obtain ⟨_, t, ht, -, hend⟩ := hrest ip.1 ip.2 s₁ t₁ hsame () s hrun
    exact ⟨t, (bind_ok hip').trans ht, hend⟩

/-! ### Received packets -/

/-- Nothing is valid when a packet has been placed. -/
theorem placedFor_sameView {p q : PacketBuffer} (hlen : q.buffer.length = p.buffer.length)
    (hleft : S → q.scmp.chksum = p.scmp.chksum ∧ q.stun.mapped = p.stun.mapped) {headroom : ℕ}
    {raw : List UInt8} (hfits : raw.length ≤ p.buffer.length - headroom) :
    SameView S (p.placedFor headroom raw) (q.placedFor headroom raw) := by
  have hfits' : raw.length ≤ q.buffer.length - headroom := by rwa [hlen]
  have hpacket := packet_placedFor hfits
  have hpacket' := packet_placedFor hfits'
  have hbuffer : ∀ r : PacketBuffer, raw.length ≤ r.buffer.length - headroom →
      (r.placedFor headroom raw).buffer.length = r.buffer.length := fun r hr =>
    Records.length_overwrite (show min headroom r.buffer.length + raw.length ≤ r.buffer.length by
      omega)
  exact {
    ipValid := rfl
    outerUDPValid := rfl
    stunValid := rfl
    scionValid := rfl
    l4Valid := rfl
    packet := by rw [hpacket, hpacket', hlen]
    endOfHeader := by
      show min headroom q.buffer.length = min headroom p.buffer.length
      rw [hlen]
    length := by rw [hbuffer q hfits', hbuffer p hfits, hlen]
    raw := by rw [raw_placedFor hfits, raw_placedFor hfits']
    ipv4 := fun h => by cases h
    ipv6 := fun h => by cases h
    outerUDP := fun h => by cases h
    sci := fun h => by cases h
    path := fun h => by cases h
    icmp := fun h => by cases h
    scmp := fun h => by cases h
    tcp := fun h => by cases h
    sack := fun h => by cases h
    udp := fun h => by cases h
    stun := fun _ h => by cases h
    chksum := fun hS => (hleft hS).1
    mapped := fun hS => (hleft hS).2 }

/-- A TCP header has its fixed part in front of the payload. -/
theorem L4Part.tcp_le {old : TCP} {pkt : PacketBuffer} {bs : List UInt8} (h : L4Part old pkt bs)
    (htcp : pkt.l4Valid = .tcp) : 20 ≤ bs.length := by
  cases h with
  | tcp valid parsed =>
    rw [parsed.bytes_eq, List.length_append, TCP.length_fixedWith]
    omega
  | icmp valid => cases valid.symm.trans htcp
  | scmp valid holds => cases valid.symm.trans htcp
  | udp valid => cases valid.symm.trans htcp

theorem Parts.tcp_le {noUnderlay : Bool} {old : TCP} {pkt : PacketBuffer} {bs : List UInt8}
    (h : Parts noUnderlay old pkt bs) (htcp : pkt.l4Valid = .tcp) : 20 ≤ bs.length := by
  obtain ⟨inner⟩ := h.inner_part
  have hl4 := inner.l4_part.tcp_le htcp
  rw [h.bytes_eq, inner.bytes_eq]
  simp only [List.length_append]
  omega

/-- One packet that is received into two buffers. -/
structure SameReceived (S : Prop) (p q : PacketBuffer) : Prop where
  view : SameView S p q
  placed : p.Placed
  tcp_room : p.l4Valid = .tcp → p.packet.offset + 20 ≤ p.endOfHeader

theorem receive_ok_sameView {p q : PacketBuffer} (hlen : q.buffer.length = p.buffer.length)
    (hleft : S → q.scmp.chksum = p.scmp.chksum ∧ q.stun.mapped = p.stun.mapped) {headroom : ℕ}
    {raw : List UInt8} (hfits : raw.length ≤ p.buffer.length - headroom)
    {noUnderlay : Bool} {isScion : Option IsScion}
    (h : (p.receive headroom raw noUnderlay isScion).1 = .ok) :
    (q.receive headroom raw noUnderlay isScion).1 = .ok ∧
      SameReceived S (p.receive headroom raw noUnderlay isScion).2
        (q.receive headroom raw noUnderlay isScion).2 := by
  have hfits' : raw.length ≤ q.buffer.length - headroom := by rwa [hlen]
  have hplaced := (intact_of_receive hfits h).placed
  obtain ⟨got, rs, hrun, hgot⟩ := parsePacket_eq_ok h
  change parse noUnderlay isScion (p.placedFor headroom raw, ReadStream.ofBuffer
    (p.placedFor headroom raw).raw) = _ at hrun
  rw [raw_placedFor hfits, ofBuffer_eq] at hrun
  obtain ⟨⟨got', rs'⟩, hrun', hview, rfl, hbyte⟩ :=
    parse_sameView (placedFor_sameView hlen hleft hfits) hrun
  obtain ⟨bs, rest, _, -, hs, -, -, hparts⟩ := parse_spec ⟨rfl, rfl, rfl, rfl, rfl⟩ hrun
  cases hs
  have hend : got'.packet.offset = got.packet.offset := by rw [hview.packet]
  have hgot' : q.receive headroom raw noUnderlay isScion
      = (.ok, { got' with endOfHeader := got'.packet.offset + bs.length }) := by
    have hraw := raw_placedFor hfits'
    rw [placedFor] at hrun' hraw
    rw [receive, parsePacket]
    rw [measured] at hrun' hraw
    rw [hraw, ofBuffer_eq, hrun']
  change (p.receive headroom raw noUnderlay isScion).2 = _ at hgot
  rw [hgot] at hplaced ⊢
  rw [hgot']
  refine ⟨rfl, ⟨{ hview with
    endOfHeader := ?_ }, hplaced, fun htcp => ?_⟩⟩
  · show got'.packet.offset + bs.length = got.packet.offset + bs.length
    rw [hend]
  · have hlength : 20 ≤ bs.length := by
      rcases hparts with hstun | ⟨⟨parts⟩⟩
      · cases hstun.l4Valid.symm.trans htcp
      · exact parts.tcp_le htcp
    show got.packet.offset + 20 ≤ got.packet.offset + bs.length
    omega

/-- A packet is received into every buffer of a size the same way, up to what is not cleared. -/
theorem receive_sameView {p q : PacketBuffer} (hlen : q.buffer.length = p.buffer.length)
    (hleft : S → q.scmp.chksum = p.scmp.chksum ∧ q.stun.mapped = p.stun.mapped) {headroom : ℕ}
    {raw : List UInt8} (hfits : raw.length ≤ p.buffer.length - headroom)
    (noUnderlay : Bool) (isScion : Option IsScion) :
    (q.receive headroom raw noUnderlay isScion).1 = (p.receive headroom raw noUnderlay isScion).1 ∧
      ((p.receive headroom raw noUnderlay isScion).1 = .ok →
        SameReceived S (p.receive headroom raw noUnderlay isScion).2
          (q.receive headroom raw noUnderlay isScion).2) := by
  have hfits' : raw.length ≤ q.buffer.length - headroom := by rwa [hlen]
  have hec : ∀ r : PacketBuffer, (r.receive headroom raw noUnderlay isScion).1 = .ok ∨
      (r.receive headroom raw noUnderlay isScion).1 = .invalidPacket := by
    intro r
    rw [receive, parsePacket]
    dsimp only
    split
    · exact .inl rfl
    · exact .inr rfl
  refine ⟨?_, fun h => (receive_ok_sameView hlen hleft hfits h).2⟩
  rcases hec p with hp | hp
  · rw [hp, (receive_ok_sameView hlen hleft hfits hp).1]
  · rcases hec q with hq | hq
    · have hok := (@receive_ok_sameView False _ _ hlen.symm (by simp) _ _ hfits' _ _ hq).1
      rw [hok] at hp
      cases hp
    · rw [hp, hq]

end PacketBuffer

end Scion
