/-
Recognising the underlay of SCION packets (`scitra/packet.cpp`).

Whether a UDP datagram is the underlay of a SCION packet is left to a predicate on its source
and its destination. The parser asks it only about datagrams without the cookie of STUN, and
with the source address in both endpoints.

* `Keeps` — parsers that leave a part of the buffer alone, accepted or not;
* `outerUDPValid_parse` — which datagrams are taken for an underlay;
* `asksForEndpoints_iff` — when these are the datagrams that the predicate accepts.
-/
import Scion.StunDetection

namespace Scion

open Codec ReadStream

namespace PacketBuffer

variable {α β γ : Type}

/-! ### Parsers that leave something alone -/

/-- The buffer that a parser leaves, whether or not it accepts. -/
def reached : EStateM.Result String (PacketBuffer × ReadStream) α → PacketBuffer
  | .ok _ s => s.1
  | .error _ s => s.1

/-- A parser that does not change what `f` sees of the buffer. -/
def Keeps (f : PacketBuffer → γ) (m : PacketParser α) : Prop :=
  ∀ s, f (reached (m s)) = f s.1

namespace Keeps

variable {f : PacketBuffer → γ}

theorem pure (a : α) : Keeps f (Pure.pure a : PacketParser α) := fun _ => rfl

theorem throw (e : String) : Keeps f (MonadExcept.throw e : PacketParser α) := fun _ => rfl

theorem bind {x : PacketParser α} {k : α → PacketParser β} (hx : Keeps f x)
    (hk : ∀ a, Keeps f (k a)) : Keeps f (x >>= k) := by
  intro s
  have hfirst := hx s
  cases hrun : x s with
  | ok a t =>
    rw [hrun] at hfirst
    rw [bind_ok hrun]
    exact (hk a t).trans hfirst
  | error e t =>
    rw [hrun] at hfirst
    rw [bind_error hrun]
    exact hfirst

theorem scan (r : Reader α) : Keeps f (PacketBuffer.scan r) := by
  intro s
  rw [PacketBuffer.scan]
  cases r s.2 <;> rfl

theorem update {g : PacketBuffer → PacketBuffer} (h : ∀ pkt, f (g pkt) = f pkt) :
    Keeps f (PacketBuffer.update g) := fun s => h s.1

theorem scanInto {r : PacketBuffer → Reader α} {set : α → PacketBuffer → PacketBuffer}
    (h : ∀ a pkt, f (set a pkt) = f pkt) : Keeps f (PacketBuffer.scanInto r set) := by
  intro s
  exact ((scan (r s.1)).bind fun a => (update (h a)).bind fun _ => pure a) s

/-- `scanInto` whose value is dropped. -/
theorem scanInto_unit {r : PacketBuffer → Reader α} {set : α → PacketBuffer → PacketBuffer}
    (h : ∀ a pkt, f (set a pkt) = f pkt) :
    Keeps f (do let _ ← PacketBuffer.scanInto r set; Pure.pure ()) :=
  (scanInto h).bind fun _ => pure ()

theorem skipOpts (kind proto : ScionProto) : Keeps f (PacketBuffer.skipOpts kind proto) := by
  rw [PacketBuffer.skipOpts]
  split_ifs
  · exact (scan _).bind fun _ => (scan _).bind fun _ => pure _
  · exact pure _

theorem assignPath {source destination : IsdAsn} {type : PathType} {data : List UInt8}
    (h : ∀ path pkt, f { pkt with path := path } = f pkt) :
    Keeps f (PacketBuffer.assignPath source destination type data) := by
  intro s
  rw [PacketBuffer.assignPath]
  cases s.1.path.assign source destination type data with
  | ok path => exact h path s.1
  | error e => rfl

end Keeps

/-! ### The mark of the underlay -/

theorem keeps_parseScion : Keeps outerUDPValid parseScion := by
  rw [parseScion]
  refine Keeps.bind ?header fun sci => Keeps.bind (Keeps.scan _) fun pdata =>
    Keeps.bind ?path fun _ => Keeps.bind (Keeps.scan _) fun _ =>
      Keeps.bind (Keeps.skipOpts _ _) fun _ => Keeps.bind (Keeps.skipOpts _ _) fun _ =>
        Keeps.bind ?valid fun _ => Keeps.pure _
  case header => exact Keeps.scanInto fun _ _ => rfl
  case path => exact Keeps.assignPath fun _ _ => rfl
  case valid => exact Keeps.update fun _ => rfl

theorem keeps_parseScmp : Keeps outerUDPValid parseScmp := by
  rw [parseScmp]
  refine Keeps.bind (Keeps.scan _) fun _ => Keeps.bind (Keeps.scan _) fun _ =>
    Keeps.bind ?chksum fun _ => ?message
  case chksum => exact Keeps.scanInto fun _ _ => rfl
  case message => exact Keeps.scanInto_unit fun _ _ => rfl

theorem keeps_parseL4 (proto : ScionProto) : Keeps outerUDPValid (parseL4 proto) := by
  rw [parseL4]
  split_ifs
  · exact keeps_parseScmp
  · exact Keeps.scanInto_unit fun _ _ => rfl
  · exact Keeps.scanInto_unit fun _ _ => rfl
  · exact Keeps.scanInto_unit fun _ _ => rfl
  · exact Keeps.throw _

theorem keeps_parseStun : Keeps outerUDPValid parseStun := by
  rw [parseStun]
  exact Keeps.scanInto_unit fun _ _ => rfl

/-! ### Datagrams -/

/-- The SCION header and what follows it, if the predicate accepts the endpoints that it is
shown. -/
theorem parseUDP_cursor (isScion : IsScion) (srcIP : IPAddress) (mid : PacketBuffer)
    (front payload : List UInt8) (udp : UDP) :
    parseUDP (some isScion) srcIP (mid, ReadStream.cursor front (udp.bytes ++ payload))
      = if isScion ⟨srcIP, udp.sport⟩ ⟨srcIP, udp.dport⟩ then
          (parseScion >>= parseL4) ({ mid with outerUDP := udp, outerUDPValid := true },
            ReadStream.cursor (front ++ udp.bytes) payload)
        else .ok ()
          ({ mid with outerUDP := udp, udp := udp, outerUDPValid := false, l4Valid := .udp },
          ReadStream.cursor (front ++ udp.bytes) payload) := by
  have hread : scanInto (fun _ => UDP.read) (fun outerUDP pkt => { pkt with outerUDP := outerUDP })
      (mid, ReadStream.cursor front (udp.bytes ++ payload))
        = .ok udp ({ mid with outerUDP := udp },
          ReadStream.cursor (front ++ udp.bytes) payload) := by
    have hscan : scan UDP.read (mid, ReadStream.cursor front (udp.bytes ++ payload))
        = .ok udp (mid, ReadStream.cursor (front ++ udp.bytes) payload) := by
      rw [scan, UDP.reads udp front payload]
    rw [scanInto]
    exact (bind_ok hscan).trans rfl
  rw [parseUDP, bind_ok hread, Option.any_some]
  split_ifs <;> rfl

/-- A datagram from `src` to `dst` behind an IP header that is accepted. -/
structure Datagram (pkt : PacketBuffer) (raw : List UInt8) (mid : PacketBuffer)
    (front : List UInt8) (src dst : IPEndpoint) (udp : UDP) (payload : List UInt8) : Prop where
  accepted : parseIP (pkt, ReadStream.cursor [] raw)
    = .ok (src.host, IPProto.udp) (mid, ReadStream.cursor front (udp.bytes ++ payload))
  sport : src.port = udp.sport
  dport : dst.port = udp.dport
  dst_host : dst.host = if mid.ipValid = .ipv4 then mid.ipv4.dst else mid.ipv6.dst

/-- Length and checksum of the datagram are the cookie of STUN. -/
def HasCookie (udp : UDP) (payload : List UInt8) : Prop :=
  12 ≤ payload.length ∧ udp.len = 0x2112 ∧ udp.chksum = 0xa442

instance (udp : UDP) (payload : List UInt8) : Decidable (HasCookie udp payload) :=
  inferInstanceAs (Decidable (_ ∧ _ ∧ _))

variable {isScion : IsScion} {pkt mid : PacketBuffer} {raw front payload : List UInt8}
  {src dst : IPEndpoint} {udp : UDP}

/-- The payload is parsed as a SCION packet, whether or not it is accepted as one. -/
def ParsedAsScion (isScion : IsScion) (pkt : PacketBuffer) (raw : List UInt8) : Prop :=
  (reached (parse false (some isScion) (pkt, ReadStream.cursor [] raw))).outerUDPValid = true

/-- The predicate is asked about datagrams without the cookie, with the source address in the
place of the destination. -/
theorem parsedAsScion_iff (h : Datagram pkt raw mid front src dst udp payload)
    (hclear : pkt.Cleared) :
    ParsedAsScion isScion pkt raw ↔
      ¬HasCookie udp payload ∧ isScion src ⟨src.host, dst.port⟩ = true := by
  have hmid : mid.outerUDPValid = false := by
    obtain ⟨_, _, pkt', -, hs, -, hset⟩ := parseIP_spec h.accepted
    obtain ⟨rfl, -⟩ := Prod.mk.inj hs
    rcases hset with ⟨h4, rfl⟩ | ⟨h6, rfl⟩
    · exact hclear.outerUDPValid
    · exact hclear.outerUDPValid
  have hparse : parse false (some isScion) (pkt, ReadStream.cursor [] raw)
      = (if detectStun (udp.bytes ++ payload) then parseStun
        else parseUDP (some isScion) src.host)
          (mid, ReadStream.cursor front (udp.bytes ++ payload)) := by
    rw [parse_eq, parseUnderlay, if_neg Bool.false_ne_true, bind_ok h.accepted,
      bind_ok (aheadStun_cursor mid front _)]
    rfl
  rw [ParsedAsScion, hparse]
  have hcookie : detectStun (udp.bytes ++ payload) = true ↔ HasCookie udp payload :=
    detectStun_udp udp payload
  by_cases hstun : HasCookie udp payload
  · rw [if_pos (hcookie.mpr hstun), keeps_parseStun, hmid]
    exact iff_of_false Bool.false_ne_true fun hboth => hboth.1 hstun
  · rw [if_neg (hstun ∘ hcookie.mp), parseUDP_cursor, and_iff_right hstun, ← h.dport,
      show (⟨src.host, udp.sport⟩ : IPEndpoint) = src by rw [← h.sport]]
    split_ifs with hasks
    · refine iff_of_true ?_ hasks
      exact (keeps_parseScion.bind fun proto => keeps_parseL4 proto) _
    · exact iff_of_false Bool.false_ne_true hasks

/-- What the predicate accepts is parsed as SCION, and nothing else is, where the cookie does
not get in the way and the source address decides like the destination. -/
theorem asksForEndpoints_iff (h : Datagram pkt raw mid front src dst udp payload)
    (hclear : pkt.Cleared) :
    (ParsedAsScion isScion pkt raw ↔ isScion src dst = true) ↔
      if HasCookie udp payload then isScion src dst = false
      else isScion src ⟨src.host, dst.port⟩ = isScion src dst := by
  rw [parsedAsScion_iff h hclear]
  split_ifs with hcookie
  · constructor
    · intro hiff
      exact Bool.eq_false_iff.mpr fun haccepts => (hiff.mpr haccepts).1 hcookie
    · intro hrefuses
      exact iff_of_false (fun hboth => hboth.1 hcookie) (Bool.eq_false_iff.mp hrefuses)
  · rw [and_iff_right hcookie]
    exact Bool.eq_iff_iff.symm

/-- A datagram from ::1 to ::2, ports 5000 and 5001. -/
def datagram6 : List UInt8 :=
  [0x60, 0, 0, 0, 0, 9, 17, 64] ++ List.replicate 15 0 ++ [1] ++ List.replicate 15 0 ++ [2] ++
    [0x13, 0x88, 0x13, 0x89, 0, 9, 0x12, 0x34, 7]

theorem datagram_datagram6 : ∃ mid front, Datagram (ofBuffer []) datagram6 mid front
    ⟨.v6 0 1 "", 5000⟩ ⟨.v6 0 2 "", 5001⟩ ⟨5000, 5001, 9, 0x1234⟩ [7] :=
  ⟨{ ofBuffer [] with
      ipv6 := ⟨0, 64, IPProto.udp, 9, 0, .v6 0 1 "", .v6 0 2 ""⟩
      ipValid := .ipv6 }, datagram6.take 40, rfl, rfl, rfl, rfl⟩

/-- A predicate that looks at the ports only. -/
theorem asksForEndpoints_iff_ports :
    ParsedAsScion (fun _ dst => dst.port == 5001) (ofBuffer []) datagram6 ↔
      (⟨.v6 0 2 "", 5001⟩ : IPEndpoint).port == 5001 := by
  obtain ⟨mid, front, h⟩ := datagram_datagram6
  exact (asksForEndpoints_iff h (cleared_ofBuffer [])).mpr (by decide)

/-- A predicate that accepts ::2 is asked about ::1. -/
theorem not_forall_asksForEndpoints :
    ¬ ∀ (isScion : IsScion) (pkt mid : PacketBuffer) (raw front payload : List UInt8)
      (src dst : IPEndpoint) (udp : UDP), Datagram pkt raw mid front src dst udp payload →
      pkt.Cleared → (ParsedAsScion isScion pkt raw ↔ isScion src dst = true) := by
  intro hclaim
  obtain ⟨mid, front, h⟩ := datagram_datagram6
  have hiff := hclaim (fun _ dst => dst.host == .v6 0 2 "") _ _ _ _ _ _ _ _ h (cleared_ofBuffer [])
  have hparsed := hiff.mpr (by decide)
  rw [parsedAsScion_iff h (cleared_ofBuffer [])] at hparsed
  exact absurd hparsed.2 (by decide)

end PacketBuffer

end Scion
