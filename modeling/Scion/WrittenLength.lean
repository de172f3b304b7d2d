/-
The buffers behind write streams (`bit_stream.hpp`).

Writing never changes the size of a buffer, also not when there is no room.

* `KeepsLength` — for the operations of `WriteStream`, and for the headers of a packet;
* `PacketBuffer.length_emitPacket` — emission leaves the size of the packet buffer.
-/
import Scion.Frames
import Scion.PacketBuffer

namespace Scion

open BigEndian Codec Frames WriteStream

/-- The buffer of the stream stays as long as it is. -/
abbrev KeepsLength {α : Type} (w : EStateM String WriteStream α) : Prop :=
  Leaves (fun ws : WriteStream => ws.data.length) w

/-! ### Streams -/

namespace WriteStream

theorem length_put {ws : WriteStream} {bytes : List UInt8} (h : ¬ws.remaining < bytes.length) :
    (ws.put bytes).length = ws.data.length := by
  rw [remaining] at h
  rw [put, List.length_append, List.length_append, List.length_take, List.length_drop]
  omega

theorem keepsLength_putAligned (bytes : List UInt8) : KeepsLength (putAligned bytes) := by
  intro ws
  rw [putAligned]
  split_ifs with h
  · rfl
  · exact length_put h

theorem keepsLength_bits (valueBits : ℕ) (value : UInt64) (bits : ℕ) :
    KeepsLength (serializeBits valueBits value bits) := by
  intro ws
  rw [serializeBits]
  dsimp only
  by_cases hzero : bits = 0
  · rw [if_pos hzero]
    rfl
  rw [if_neg hzero]
  by_cases hwide : bits > min (64 - 7) valueBits
  · rw [if_pos hwide]
    rfl
  rw [if_neg hwide]
  by_cases hroom : ws.remaining < (bits + ws.bitPos + 7) / 8
  · rw [if_pos hroom]
    rfl
  · rw [if_neg hroom]
    refine length_put ?_
    rw [List.length_take, length_beBytes]
    omega

theorem keepsLength_advanceWords : ∀ n, KeepsLength (advanceWords n)
  | 0 => .pure ()
  | n + 1 => (keepsLength_bits _ _ _).bind fun _ => keepsLength_advanceWords n

theorem keepsLength_advanceBits (bits : ℕ) : KeepsLength (advanceBits bits) := by
  intro ws
  rw [advanceBits]
  split_ifs
  · rfl
  · exact ((keepsLength_advanceWords _).bind fun _ => keepsLength_bits _ _ _) ws

/-- Off a byte boundary bits are written. -/
theorem keepsLength_aligned {w w' : Writer} (hw : KeepsLength w) (hw' : KeepsLength w') :
    KeepsLength fun ws => if ws.bitPos ≠ 0 then w ws else w' ws := by
  intro ws
  dsimp only
  split_ifs
  · exact hw ws
  · exact hw' ws

theorem keepsLength_advanceBytes (bytes : ℕ) : KeepsLength (advanceBytes bytes) :=
  keepsLength_aligned ((keepsLength_advanceBits _).bind fun _ => keepsLength_putAligned _)
    (keepsLength_putAligned _)

theorem keepsLength_byte (value : UInt8) : KeepsLength (serializeByte value) :=
  keepsLength_aligned (keepsLength_bits _ _ _) (keepsLength_putAligned _)

theorem keepsLength_uint16 (value : UInt16) : KeepsLength (serializeUint16 value) :=
  keepsLength_aligned (keepsLength_bits _ _ _) (keepsLength_putAligned _)

theorem keepsLength_uint32 (value : UInt32) : KeepsLength (serializeUint32 value) :=
  keepsLength_aligned (keepsLength_bits _ _ _) (keepsLength_putAligned _)

theorem keepsLength_uint64 (value : UInt64) : KeepsLength (serializeUint64 value) :=
  keepsLength_aligned (keepsLength_bits _ _ _) (keepsLength_putAligned _)

theorem keepsLength_bytes (bytes : List UInt8) : KeepsLength (serializeBytes bytes) :=
  keepsLength_aligned (fun _ => rfl) (keepsLength_putAligned _)

theorem keepsLength_lookback (bytes : Option ℕ) : KeepsLength (lookback bytes) := by
  intro ws
  rw [lookback.eq_def]
  by_cases hbits : ws.bitPos ≠ 0
  · rw [if_pos hbits]
    rfl
  rw [if_neg hbits]
  cases bytes with
  | none => rfl
  | some n =>
    dsimp only
    split_ifs <;> rfl

theorem keepsLength_updateChksum (chksum : UInt16) (offset : ℕ) :
    KeepsLength (updateChksum chksum offset) := by
  intro ws
  have hwrite := keepsLength_uint16 chksum (ws.moveTo (ws.bytePos - (offset + 2)))
  rw [updateChksum]
  split_ifs
  · rfl
  · rfl
  · revert hwrite
    cases serializeUint16 chksum (ws.moveTo (ws.bytePos - (offset + 2))) <;> exact id

theorem keepsLength_subtype (subtype : UInt8) (valueBits : ℕ) (value : UInt64) (n : ℕ) :
    KeepsLength (writeSubtype subtype valueBits value n) :=
  (keepsLength_bits _ _ _).bind fun _ => keepsLength_bits _ _ _

theorem keepsLength_subtypeReserved (subtype : UInt8) (n : ℕ) :
    KeepsLength (writeSubtypeReserved subtype n) :=
  (keepsLength_bits _ _ _).bind fun _ => keepsLength_advanceBits _

theorem keepsLength_if {present : Bool} {w : Writer} (hw : KeepsLength w) :
    KeepsLength (writeIf present w) :=
  .ite (fun _ => hw) fun _ => .pure ()

end WriteStream

/-! ### Headers -/

theorem IPAddress.keepsLength_write (ip : IPAddress) (v4 : Bool) : KeepsLength (ip.write v4) :=
  (Leaves.ensure _ _).bind fun _ => .ite (fun _ => keepsLength_uint32 _) fun _ =>
    (keepsLength_uint64 _).bind fun _ => keepsLength_uint64 _

theorem IPv4.keepsLength_write (h : IPv4) : KeepsLength h.write :=
  (((keepsLength_bits _ _ _).bind fun _ => keepsLength_bits _ _ _).bind fun _ =>
    (keepsLength_byte _).bind fun _ => (keepsLength_uint16 _).bind fun _ =>
      (keepsLength_uint16 _).bind fun _ =>
        ((keepsLength_bits _ _ _).bind fun _ => keepsLength_bits _ _ _).bind fun _ =>
          (keepsLength_byte _).bind fun _ => (keepsLength_byte _).bind fun _ =>
            (keepsLength_uint16 _).bind fun _ => (h.src.keepsLength_write _).bind fun _ =>
              h.dst.keepsLength_write _).bind fun _ =>
    (keepsLength_lookback _).bind fun _ => keepsLength_updateChksum _ _

theorem IPv6.keepsLength_write (h : IPv6) : KeepsLength h.write :=
  ((keepsLength_bits _ _ _).bind fun _ => (keepsLength_byte _).bind fun _ =>
    keepsLength_bits _ _ _).bind fun _ => (keepsLength_uint16 _).bind fun _ =>
      (keepsLength_byte _).bind fun _ => (keepsLength_byte _).bind fun _ =>
        (h.src.keepsLength_write _).bind fun _ => h.dst.keepsLength_write _

theorem ICMPv6.keepsLength_write (h : ICMPv6) : KeepsLength h.write :=
  (keepsLength_byte _).bind fun _ => (keepsLength_byte _).bind fun _ =>
    (keepsLength_uint16 _).bind fun _ => (keepsLength_uint16 _).bind fun _ =>
      keepsLength_uint16 _

theorem UDP.keepsLength_write (h : UDP) : KeepsLength h.write :=
  (keepsLength_uint16 _).bind fun _ => (keepsLength_uint16 _).bind fun _ =>
    (keepsLength_uint16 _).bind fun _ => keepsLength_uint16 _

theorem ScmpMessage.keepsLength_write (msg : ScmpMessage) : KeepsLength msg.write := by
  cases msg with
  | unknownError => exact .throw _
  | dstUnreach => exact keepsLength_advanceBytes 4
  | packetTooBig | paramProblem =>
    exact (keepsLength_advanceBytes 2).bind fun _ => keepsLength_uint16 _
  | extIfDown => exact (keepsLength_uint64 _).bind fun _ => keepsLength_uint64 _
  | intConnDown =>
    exact (keepsLength_uint64 _).bind fun _ => (keepsLength_uint64 _).bind fun _ =>
      keepsLength_uint64 _
  | echoRequest | echoReply => exact (keepsLength_uint16 _).bind fun _ => keepsLength_uint16 _
  | traceRequest =>
    exact (keepsLength_uint16 _).bind fun _ => (keepsLength_uint16 _).bind fun _ =>
      keepsLength_advanceBytes 16
  | traceReply =>
    exact (keepsLength_uint16 _).bind fun _ => (keepsLength_uint16 _).bind fun _ =>
      (keepsLength_uint64 _).bind fun _ => keepsLength_uint64 _

theorem SCMP.keepsLength_write (h : SCMP) : KeepsLength h.write :=
  (keepsLength_byte _).bind fun _ => (keepsLength_byte _).bind fun _ =>
    (keepsLength_uint16 _).bind fun _ => h.msg.keepsLength_write

theorem SCION.keepsLength_write (h : SCION) : KeepsLength h.write :=
  ((keepsLength_bits _ _ _).bind fun _ => (keepsLength_byte _).bind fun _ =>
    keepsLength_bits _ _ _).bind fun _ => (keepsLength_byte _).bind fun _ =>
      (keepsLength_byte _).bind fun _ => (keepsLength_uint16 _).bind fun _ =>
        (keepsLength_byte _).bind fun _ =>
          ((keepsLength_bits _ _ _).bind fun _ => keepsLength_bits _ _ _).bind fun _ =>
            (keepsLength_advanceBytes 2).bind fun _ => (keepsLength_uint64 _).bind fun _ =>
              (keepsLength_uint64 _).bind fun _ => (h.dst.host.keepsLength_write _).bind fun _ =>
                h.src.host.keepsLength_write _

theorem STUN.keepsLength_write (stun : STUN) : KeepsLength stun.write := by
  refine (keepsLength_uint16 _).bind fun _ => (keepsLength_uint16 _).bind fun _ =>
    (keepsLength_uint32 _).bind fun _ => (keepsLength_bytes _).bind fun _ => ?_
  cases stun.mapped with
  | none => exact .pure ()
  | some address =>
    exact (keepsLength_uint16 _).bind fun _ => (keepsLength_uint16 _).bind fun _ =>
      (keepsLength_advanceBytes 1).bind fun _ => (keepsLength_byte _).bind fun _ =>
        (keepsLength_uint16 _).bind fun _ => .ite (fun _ => keepsLength_uint32 _) fun _ =>
          IPAddress.keepsLength_write _ _

/-! ### TCP -/

theorem TcpSAckOpt.keepsLength_write (o : TcpSAckOpt) : KeepsLength o.write :=
  (keepsLength_byte _).bind fun _ => (keepsLength_byte _).bind fun _ =>
    .all (fun _ => (keepsLength_uint32 _).bind fun _ => keepsLength_uint32 _) _

theorem TcpTsOpt.keepsLength_write (o : TcpTsOpt) : KeepsLength o.write :=
  (keepsLength_byte _).bind fun _ => (keepsLength_byte _).bind fun _ =>
    (keepsLength_uint32 _).bind fun _ => keepsLength_uint32 _

theorem TcpMpCapableOpt.keepsLength_write (o : TcpMpCapableOpt) : KeepsLength o.write :=
  (keepsLength_byte _).bind fun _ => (keepsLength_byte _).bind fun _ =>
    (keepsLength_subtype _ _ _ _).bind fun _ => (keepsLength_byte _).bind fun _ =>
      (keepsLength_if (keepsLength_uint64 _)).bind fun _ =>
        (keepsLength_if (keepsLength_uint64 _)).bind fun _ =>
          (keepsLength_if (keepsLength_uint16 _)).bind fun _ =>
            keepsLength_if (keepsLength_uint16 _)

theorem TcpMpJoinOpt.keepsLength_write (o : TcpMpJoinOpt) : KeepsLength o.write := by
  refine (keepsLength_byte _).bind fun _ => (keepsLength_byte _).bind fun _ => ?_
  cases o with
  | syn =>
    exact (keepsLength_subtype _ _ _ _).bind fun _ => (keepsLength_byte _).bind fun _ =>
      (keepsLength_uint32 _).bind fun _ => keepsLength_uint32 _
  | synAck =>
    exact (keepsLength_subtype _ _ _ _).bind fun _ => (keepsLength_byte _).bind fun _ =>
      (keepsLength_uint64 _).bind fun _ => keepsLength_uint32 _
  | ack => exact (keepsLength_subtypeReserved _ _).bind fun _ => keepsLength_bytes _

theorem TcpMpDssOpt.keepsLength_write (o : TcpMpDssOpt) : KeepsLength o.write := by
  have hseq : ∀ eight x, KeepsLength (writeSeq eight x) := fun eight x =>
    .ite (fun _ => keepsLength_uint64 _) fun _ => keepsLength_uint32 _
  exact (keepsLength_byte _).bind fun _ => (keepsLength_byte _).bind fun _ =>
    (keepsLength_subtype _ _ _ _).bind fun _ => (keepsLength_if (hseq _ _)).bind fun _ =>
      (keepsLength_if (hseq _ _)).bind fun _ => (keepsLength_if (keepsLength_uint32 _)).bind
        fun _ => (keepsLength_if (keepsLength_uint16 _)).bind fun _ =>
          keepsLength_if (keepsLength_uint16 _)

theorem TcpMpAddAddrOpt.keepsLength_write (o : TcpMpAddAddrOpt) : KeepsLength o.write :=
  (keepsLength_byte _).bind fun _ => (keepsLength_byte _).bind fun _ =>
    (keepsLength_subtype _ _ _ _).bind fun _ => (keepsLength_byte _).bind fun _ =>
      (o.address.keepsLength_write _).bind fun _ =>
        (keepsLength_if (keepsLength_uint16 _)).bind fun _ =>
          keepsLength_if (keepsLength_uint64 _)

theorem TcpMpRemAddrOpt.keepsLength_write (o : TcpMpRemAddrOpt) : KeepsLength o.write :=
  (keepsLength_byte _).bind fun _ => (keepsLength_byte _).bind fun _ =>
    (keepsLength_subtypeReserved _ _).bind fun _ => .all (fun _ => keepsLength_byte _) _

theorem keepsLength_mpWord (subtype : UInt8) (x : UInt64) : KeepsLength (writeMpWord subtype x) :=
  (keepsLength_byte _).bind fun _ => (keepsLength_byte _).bind fun _ =>
    (keepsLength_subtypeReserved _ _).bind fun _ => keepsLength_uint64 _

theorem TCP.keepsLength_emitOpts (h : TCP) : KeepsLength h.emitOpts := by
  have htwo : ∀ a b, KeepsLength (do serializeByte a; serializeByte b) := fun a b =>
    (keepsLength_byte a).bind fun _ => keepsLength_byte b
  refine (keepsLength_if ?_).bind fun _ => (keepsLength_if (htwo _ _)).bind fun _ =>
    (keepsLength_if ((keepsLength_uint16 _).bind fun _ => TcpSAckOpt.keepsLength_write _)).bind
      fun _ => (keepsLength_if ((keepsLength_if (keepsLength_uint16 _)).bind fun _ =>
        TcpTsOpt.keepsLength_write _)).bind fun _ => (keepsLength_if ?_).bind fun _ =>
          (keepsLength_if (TcpMpCapableOpt.keepsLength_write _)).bind fun _ =>
            (keepsLength_if (TcpMpJoinOpt.keepsLength_write _)).bind fun _ =>
              (keepsLength_if (TcpMpDssOpt.keepsLength_write _)).bind fun _ =>
                (keepsLength_if (TcpMpAddAddrOpt.keepsLength_write _)).bind fun _ =>
                  (keepsLength_if ((keepsLength_if (keepsLength_byte _)).bind fun _ =>
                    TcpMpRemAddrOpt.keepsLength_write _)).bind fun _ =>
                      (keepsLength_if ?_).bind fun _ =>
                        (keepsLength_if (keepsLength_mpWord _ _)).bind fun _ =>
                          (keepsLength_if (keepsLength_mpWord _ _)).bind fun _ =>
                            (keepsLength_if ?_).bind fun _ =>
                              keepsLength_if (keepsLength_advanceBytes _)
  · exact (keepsLength_byte _).bind fun _ => (keepsLength_byte _).bind fun _ => keepsLength_uint16 _
  · exact (keepsLength_byte _).bind fun _ => (keepsLength_byte _).bind fun _ => htwo _ _
  · exact (keepsLength_byte _).bind fun _ => (keepsLength_byte _).bind fun _ =>
      (keepsLength_byte _).bind fun _ => keepsLength_subtype _ _ _ _
  · exact (keepsLength_byte _).bind fun _ => (keepsLength_byte _).bind fun _ =>
      (keepsLength_subtype _ _ _ _).bind fun _ => keepsLength_byte _

theorem TCP.keepsLength_write (h : TCP) : KeepsLength h.write :=
  (keepsLength_uint16 _).bind fun _ => (keepsLength_uint16 _).bind fun _ =>
    (keepsLength_uint32 _).bind fun _ => (keepsLength_uint32 _).bind fun _ =>
      ((keepsLength_bits _ _ _).bind fun _ => keepsLength_advanceBits _).bind fun _ =>
        (keepsLength_byte _).bind fun _ => (keepsLength_uint16 _).bind fun _ =>
          (keepsLength_uint16 _).bind fun _ => (keepsLength_uint16 _).bind fun _ =>
            h.keepsLength_emitOpts

/-! ### Packets -/

namespace PacketBuffer

theorem keepsLength_emitIP (pkt : PacketBuffer) : KeepsLength pkt.emitIP := by
  rw [emitIP]
  cases pkt.ipValid with
  | none => exact .pure ()
  | ipv4 => exact pkt.ipv4.keepsLength_write
  | ipv6 => exact pkt.ipv6.keepsLength_write

theorem keepsLength_emitL4 (pkt : PacketBuffer) : KeepsLength pkt.emitL4 := by
  rw [emitL4]
  cases pkt.l4Valid with
  | none => exact .pure ()
  | icmp => exact pkt.icmp.keepsLength_write
  | scmp => exact pkt.scmp.keepsLength_write
  | tcp => exact pkt.tcp.keepsLength_write
  | udp => exact pkt.udp.keepsLength_write

theorem keepsLength_emit (noUnderlay : Bool) (pkt : PacketBuffer) :
    KeepsLength (pkt.emit noUnderlay) := by
  have hpos : KeepsLength WriteStream.getPos := fun _ => rfl
  have hignore : ∀ w : Writer, KeepsLength w → KeepsLength (ignoreError w) := by
    intro w hw ws
    have hlength := hw ws
    rw [ignoreError]
    revert hlength
    cases w ws <;> exact id
  refine Leaves.bind (.ite (fun _ => .pure 0) fun _ => pkt.keepsLength_emitIP.bind fun _ =>
    .ite (fun _ => hpos.bind fun pos => pkt.outerUDP.keepsLength_write.bind fun _ => .pure pos)
      fun _ => .pure 0) fun outerUdpPos => Leaves.bind ?_ fun _ => keepsLength_if ?_
  · exact (keepsLength_if pkt.stun.keepsLength_write).bind fun _ =>
      (keepsLength_if (pkt.sci.keepsLength_write.bind fun _ => keepsLength_bytes _)).bind fun _ =>
        pkt.keepsLength_emitL4
  · exact hpos.bind fun pos => (keepsLength_lookback _).bind fun data =>
      hignore _ (keepsLength_updateChksum _ _)

/-- Whether or not a packet is emitted. -/
theorem length_emitPacket {noUnderlay : Bool} {pkt : PacketBuffer}
    (hend : pkt.endOfHeader ≤ pkt.buffer.length) :
    (pkt.emitPacket noUnderlay).2.buffer.length = pkt.buffer.length := by
  rw [emitPacket]
  dsimp only
  split_ifs with hroom
  · rfl
  have hlength := pkt.keepsLength_emit noUnderlay (WriteStream.ofBuffer
    (Records.slice pkt.buffer (pkt.endOfHeader - pkt.measureHeaders noUnderlay)
      (pkt.measureHeaders noUnderlay)))
  have hregion : (Records.slice pkt.buffer (pkt.endOfHeader - pkt.measureHeaders noUnderlay)
      (pkt.measureHeaders noUnderlay)).length = pkt.measureHeaders noUnderlay :=
    Records.length_slice (by omega)
  revert hlength
  cases pkt.emit noUnderlay (WriteStream.ofBuffer
      (Records.slice pkt.buffer (pkt.endOfHeader - pkt.measureHeaders noUnderlay)
        (pkt.measureHeaders noUnderlay))) with
  | ok a ws =>
    intro hlength
    have hws : ws.data.length = pkt.measureHeaders noUnderlay := hlength.trans hregion
    exact Records.length_overwrite (by rw [hws]; omega)
  | error e ws =>
    intro hlength
    have hws : ws.data.length = pkt.measureHeaders noUnderlay := hlength.trans hregion
    exact Records.length_overwrite (by rw [hws]; omega)

end PacketBuffer

end Scion
