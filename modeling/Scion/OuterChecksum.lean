/-
The checksum of the underlay in emitted packets (`scitra/packet.cpp`).

The sum is taken over the UDP header with the checksum that it had, then over the payload and
then over the headers in front of it. Each of the two sums is folded once and cut to 16 bits.

* `OuterVerifies` — an emitted packet that its receivers accept;
* `outerVerifies_iff` — which packets are emitted so.
-/
import Scion.Emission
import Scion.Reemission

namespace Scion

open BigEndian Codec OnesComplement

namespace PacketBuffer

variable {pkt : PacketBuffer} {bytes : List UInt8}

/-- The sum that the checksum is the complement of, with the first sum folded and cut. -/
def innerSum (pkt : PacketBuffer) : ℕ :=
  fold 65536 (pkt.outerSum % 2 ^ 32) % 65536 + wordSum pkt.innerBytes

/-- Receivers add up all words to `0xffff`, and no checksum is left out over IPv6. -/
def OuterVerifies (pkt : PacketBuffer) (bytes : List UInt8) : Prop :=
  IsSum 65536 (pkt.wireSum bytes) 65535 ∧
    (pkt.ipValid = .ipv6 → beNat (Records.slice bytes (pkt.ipSize + 6) 2) ≠ 0)

/-- The underlay of an emitted packet, and what follows. -/
theorem emitted_outer (hplaced : pkt.Placed) (hudp : pkt.outerUDPValid = true)
    (h : (pkt.emitPacket false).1 = .ok bytes) :
    pkt.ipBytes.length = pkt.ipSize ∧ bytes = pkt.ipBytes ++
      (({ pkt.outerUDP with chksum := pkt.outerChksum pkt.innerBytes } : UDP).bytes ++
        (pkt.innerBytes ++ (pkt.gap false ++ pkt.payload))) := by
  obtain ⟨hw, -, hbytes⟩ := emitPacket_eq_ok hplaced h
  constructor
  · rw [length_ipBytes (hw.ip rfl), ipSize]
    cases pkt.ipValid <;> rfl
  · rw [hbytes, emitted, underlayBytes, hudp, bytesIf, bytesIf, Bool.not_false, if_pos rfl,
      if_pos rfl]
    simp only [List.append_assoc]

/-- The words of the UDP header without its checksum, and those of a checksum. -/
theorem wordSum_udp (h : UDP) (chksum : UInt16) :
    wordSum ({ h with chksum := chksum } : UDP).bytes + h.chksum.toNat
      = wordSum h.bytes + chksum.toNat := by
  rw [UDP.wordSum_bytes, UDP.wordSum_bytes]
  dsimp only
  omega

/-- The words as they are sent. -/
theorem wireSum_emitted (hplaced : pkt.Placed) (hudp : pkt.outerUDPValid = true)
    (h : (pkt.emitPacket false).1 = .ok bytes) :
    pkt.wireSum bytes + pkt.outerUDP.chksum.toNat
      = pkt.pseudoSum + wordSum pkt.outerUDP.bytes + (pkt.outerChksum pkt.innerBytes).toNat
        + wordSum (pkt.innerBytes ++ (pkt.gap false ++ pkt.payload)) := by
  obtain ⟨hlen, hbytes⟩ := emitted_outer hplaced hudp h
  have hwords := wordSum_udp pkt.outerUDP (pkt.outerChksum pkt.innerBytes)
  rw [wireSum, hbytes, List.drop_left' hlen, wordSum_append _ _ (by rw [UDP.length_bytes])]
  dsimp only at hwords ⊢
  omega

/-- The checksum as it is sent. -/
theorem slice_chksum_emitted (hplaced : pkt.Placed) (hudp : pkt.outerUDPValid = true)
    (h : (pkt.emitPacket false).1 = .ok bytes) :
    beNat (Records.slice bytes (pkt.ipSize + 6) 2) = (pkt.outerChksum pkt.innerBytes).toNat := by
  obtain ⟨hlen, hbytes⟩ := emitted_outer hplaced hudp h
  have hlt := (pkt.outerChksum pkt.innerBytes).toNat_lt
  set chksum := pkt.outerChksum pkt.innerBytes
  have hsplit : ({ pkt.outerUDP with chksum := chksum } : UDP).bytes
      = (beBytes 2 pkt.outerUDP.sport.toNat ++ beBytes 2 pkt.outerUDP.dport.toNat ++
        beBytes 2 pkt.outerUDP.len.toNat) ++ beBytes 2 chksum.toNat := by
    rw [UDP.bytes, List.append_assoc, List.append_assoc]
  have hfront : (beBytes 2 pkt.outerUDP.sport.toNat ++ beBytes 2 pkt.outerUDP.dport.toNat ++
      beBytes 2 pkt.outerUDP.len.toNat).length = 6 := by
    simp only [List.length_append, length_beBytes]
  have hslice := Records.slice_append_right (beBytes 2 pkt.outerUDP.sport.toNat ++
    beBytes 2 pkt.outerUDP.dport.toNat ++ beBytes 2 pkt.outerUDP.len.toNat)
    (beBytes 2 chksum.toNat ++ (pkt.innerBytes ++ (pkt.gap false ++ pkt.payload))) 0 2
  rw [hfront] at hslice
  rw [hbytes, ← hlen, Records.slice_append_right, hsplit, List.append_assoc, hslice]
  have hhead := Records.slice_append_left (beBytes 2 chksum.toNat)
    (pkt.innerBytes ++ (pkt.gap false ++ pkt.payload)) 0 2 (by rw [length_beBytes])
  rw [hhead, Records.slice, List.drop_zero, List.take_of_length_le (by rw [length_beBytes]),
    beNat_beBytes, show 256 ^ 2 = 2 ^ 16 by norm_num, Nat.mod_eq_of_lt hlt]

/-- What is summed is what is sent: the checksum that the header had, the headers behind it and
the payload come to the words that are sent and the carries that are lost, and over IPv6 the
complement is not zero. -/
def SumsWhatIsSent (pkt : PacketBuffer) : Prop :=
  pkt.outerUDP.chksum.toNat + wordSum pkt.innerBytes + wordSum pkt.payload
      ≡ wordSum (pkt.innerBytes ++ (pkt.gap false ++ pkt.payload))
        + lost 65536 pkt.outerSum + lost 65536 pkt.innerSum [MOD 65535] ∧
    (pkt.ipValid = .ipv6 → pkt.innerSum % 2 ^ 32 % 65535 = 0 → pkt.innerSum % 2 ^ 32 = 0 ∨
      pkt.innerSum % 2 ^ 32 + 1 = 2 ^ 32)

/-- The checksum is that of the emitted packet exactly if what is summed is what is sent. -/
theorem outerVerifies_iff (hplaced : pkt.Placed) (hudp : pkt.outerUDPValid = true)
    (h : (pkt.emitPacket false).1 = .ok bytes) :
    pkt.OuterVerifies bytes ↔ pkt.SumsWhatIsSent := by
  have hwire := wireSum_emitted hplaced hudp h
  have hchksum := toNat_outerChksum_cut pkt.innerBytes pkt
  rw [← innerSum] at hchksum
  have hfirst : fold 65536 (pkt.outerSum % 2 ^ 32) % 65536 + lost 65536 pkt.outerSum
    ≡ pkt.outerSum [MOD 65535] := cut_add_lost (by norm_num)
  have hsecond : fold 65536 (pkt.innerSum % 2 ^ 32) % 65536 + lost 65536 pkt.innerSum
    ≡ pkt.innerSum [MOD 65535] := cut_add_lost (by norm_num)
  have houter : pkt.outerSum = pkt.pseudoSum + wordSum pkt.outerUDP.bytes + wordSum pkt.payload :=
    rfl
  have hinner : pkt.innerSum = fold 65536 (pkt.outerSum % 2 ^ 32) % 65536
    + wordSum pkt.innerBytes := rfl
  have hones : fold 65536 (pkt.innerSum % 2 ^ 32) % 65536 = 65536 - 1
      ↔ pkt.innerSum % 2 ^ 32 % (65536 - 1) = 0 ∧ pkt.innerSum % 2 ^ 32 ≠ 0 ∧
        pkt.innerSum % 2 ^ 32 + 1 ≠ 65536 * 65536 :=
    fold_eq_pred_iff (by norm_num) (Nat.mod_lt _ (by norm_num))
  rw [OuterVerifies, SumsWhatIsSent, isSum_pred_iff (by norm_num),
    slice_chksum_emitted hplaced hudp h, hchksum]
  refine and_congr ?_ (imp_congr_right fun _ => ?_)
  · rw [Nat.ModEq] at hfirst hsecond ⊢
    omega
  · omega

/-- The SCION packet with an underlay of IPv6. -/
def underlaidUdp (chksum : UInt16) : List UInt8 :=
  [0x60, 0, 0, 0, 0, 53, 17, 64] ++ ((0xfd :: List.replicate 14 0) ++ ([1] ++
    ((0xfd :: List.replicate 14 0) ++ ([2, 0x76, 0x61, 0x76, 0x62, 0, 53] ++
      (beBytes 2 chksum.toNat ++ scionUdp)))))

def exampleUnderlaid (chksum : UInt16) : PacketBuffer :=
  ((ofBuffer (List.replicate 96 0)).receive 0 (underlaidUdp chksum) false
    (some fun _ _ => true)).2

theorem outerVerifies_iff_underlaid : ∃ bytes,
    ((exampleUnderlaid 0).emitPacket false).1 = .ok bytes ∧
      (exampleUnderlaid 0).OuterVerifies bytes := by
  have hintact : (exampleUnderlaid 0).Intact :=
    intact_of_receive (by decide +kernel) (by decide +kernel)
  obtain ⟨bytes, hbytes, -⟩ := exists_ok_of_any (x := ((exampleUnderlaid 0).emitPacket false).1)
    (p := fun _ => true) (by decide +kernel)
  exact ⟨bytes, hbytes, (outerVerifies_iff hintact.placed (by decide +kernel) hbytes).mpr
    ⟨by decide +kernel, fun _ => by decide +kernel⟩⟩

/-- A packet that was received with the right checksum is emitted with none. -/
theorem not_forall_outerVerifies :
    ¬ ∀ (pkt : PacketBuffer) (bytes : List UInt8), pkt.Placed → pkt.outerUDPValid = true →
      pkt.ipValid ≠ .none → (pkt.emitPacket false).1 = .ok bytes → pkt.OuterVerifies bytes := by
  intro hclaim
  have hintact : (exampleUnderlaid 55746).Intact :=
    intact_of_receive (by decide +kernel) (by decide +kernel)
  obtain ⟨bytes, hbytes, hfails⟩ := exists_ok_of_any
    (x := ((exampleUnderlaid 55746).emitPacket false).1)
    (p := fun bytes => beNat (Records.slice bytes ((exampleUnderlaid 55746).ipSize + 6) 2) == 0)
    (by decide +kernel)
  have hverifies := hclaim _ bytes hintact.placed (by decide +kernel) (by decide +kernel) hbytes
  exact hverifies.2 (by decide +kernel) (beq_iff_eq.mp hfails)

end PacketBuffer

end Scion
