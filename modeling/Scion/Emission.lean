/-
What the translator emits (`scitra/packet.hpp`, `scitra/packet.cpp`).

Headers that are written shorter than they were measured leave old bytes in front of the
payload, so that what follows a header is as long as it was measured in any case.

* `Intact` — what holds of every packet that was received;
* `emitted_parts` — the parts of a packet that was emitted.
-/
import Scion.PacketParts

namespace Scion

open Codec

theorem exists_ok_of_any {ε α : Type} {x : Except ε α} {p : α → Bool}
    (h : x.toOption.any p = true) : ∃ a, x = .ok a ∧ p a = true := by
  cases x with
  | error e => cases h
  | ok a => exact ⟨a, rfl, h⟩

namespace PacketBuffer

/-- A STUN message has no layer 4 header in front of it. -/
structure Intact (pkt : PacketBuffer) : Prop where
  placed : pkt.Placed
  stun_alone : pkt.stunValid = true → pkt.l4Valid = .none

theorem intact_of_receive {headroom : ℕ} {raw : List UInt8} {noUnderlay : Bool}
    {isScion : Option IsScion} {pkt : PacketBuffer}
    (hfits : raw.length ≤ pkt.buffer.length - headroom)
    (h : (pkt.receive headroom raw noUnderlay isScion).1 = .ok) :
    (pkt.receive headroom raw noUnderlay isScion).2.Intact := by
  obtain ⟨received⟩ := receive_spec hfits h
  refine ⟨received.placed, fun hstun => ?_⟩
  rcases received.parts with hmessage | ⟨⟨parts⟩⟩
  · exact hmessage.l4Valid
  · exact absurd (parts.no_stun.symm.trans hstun) (by decide)

theorem length_ipBytes {pkt : PacketBuffer} (h : pkt.IPWritable) :
    pkt.ipBytes.length = match pkt.ipValid with
      | .ipv4 => 20
      | .ipv6 => 40
      | .none => 0 := by
  rw [ipBytes]
  cases hvalid : pkt.ipValid with
  | none => rfl
  | ipv4 => exact IPv4.length_bytes (h.ipv4 hvalid)
  | ipv6 => exact IPv6.length_bytes (h.ipv6 hvalid)

/-- The outer UDP header with a given checksum, and the SCION header with the path, if they
are valid. -/
def underlaidBytes (chksum : UInt16) (pkt : PacketBuffer) : List UInt8 :=
  bytesIf pkt.outerUDPValid ({ pkt.outerUDP with chksum := chksum } : UDP).bytes ++
    bytesIf pkt.scionValid pkt.scionBytes

/-- The path is stored with its size. -/
def PathSized (pkt : PacketBuffer) : Prop := pkt.path.encoded.length = pkt.path.size

/-- What follows the headers of the network layer is as long as it was measured. -/
theorem emitted_parts {pkt : PacketBuffer} {bytes : List UInt8} (hintact : pkt.Intact)
    (hpath : pkt.scionValid = true → pkt.PathSized) (h : (pkt.emitPacket false).1 = .ok bytes) :
    pkt.IPWritable ∧ pkt.stunValid = false ∧ ∃ body,
      bytes = pkt.ipBytes ++ (pkt.underlaidBytes (pkt.outerChksum pkt.innerBytes) ++ body) ∧
      body = pkt.l4Bytes ++ (pkt.gap false ++ pkt.payload) ∧
      body.length = pkt.l4Size + pkt.payload.length := by
  obtain ⟨hw, hmeasured, hbytes⟩ := emitPacket_eq_ok hintact.placed h
  have hip := hw.ip rfl
  have hiplen := length_ipBytes hip
  have hscionlen : (bytesIf pkt.scionValid pkt.scionBytes).length
      = if pkt.scionValid then pkt.sci.size + pkt.path.size else 0 := by
    cases hvalid : pkt.scionValid with
    | false => rfl
    | true =>
      have hsized : pkt.path.encoded.length = pkt.path.size := hpath hvalid
      rw [bytesIf, if_pos rfl, if_pos rfl, scionBytes, List.length_append, SCION.length_bytes,
        hsized]
  -- the front is as long as it was measured
  have hfront : pkt.measureHeaders false = pkt.ipBytes.length
      + (pkt.underlaidBytes (pkt.outerChksum pkt.innerBytes)).length + pkt.l4Size := by
    rw [measureHeaders, hiplen, underlaidBytes, List.length_append, hscionlen, length_bytesIf,
      UDP.length_bytes]
    cases pkt.ipValid <;> cases pkt.outerUDPValid <;> cases pkt.scionValid <;>
      simp [IPv4.size, IPv4.ihl, IPv6.size, UDP.size] <;> omega
  have hemitted : pkt.emitted false = pkt.ipBytes ++
      (bytesIf pkt.outerUDPValid ({ pkt.outerUDP with
          chksum := pkt.outerChksum pkt.innerBytes } : UDP).bytes ++
        (bytesIf pkt.stunValid pkt.stun.bytes ++ (bytesIf pkt.scionValid pkt.scionBytes ++
          pkt.l4Bytes))) := by
    rw [emitted, underlayBytes, bytesIf, Bool.not_false, if_pos rfl, List.append_assoc]
    rfl
  rw [hfront, hemitted, underlaidBytes] at hmeasured
  have hno : pkt.stunValid = false := by
    by_contra hyes
    rw [Bool.not_eq_false] at hyes
    have hpos := pkt.stun.bytes_pos
    rw [hyes, l4Size, hintact.stun_alone hyes] at hmeasured
    simp only [bytesIf, if_true, List.length_append] at hmeasured
    omega
  refine ⟨hip, hno, pkt.l4Bytes ++ (pkt.gap false ++ pkt.payload), ?_, rfl, ?_⟩
  · rw [hbytes, hemitted, hno, underlaidBytes, bytesIf, bytesIf, bytesIf,
      if_neg Bool.false_ne_true, List.nil_append]
    simp only [List.append_assoc]
  · rw [hno, bytesIf, bytesIf, bytesIf, if_neg Bool.false_ne_true, List.nil_append] at hmeasured
    simp only [List.length_append] at hmeasured ⊢
    omega

end PacketBuffer

end Scion
