/-
Packets behind a NAT (`scitra-tun/socket.cpp`, `hdr/details.hpp`).

A socket with a mapped address sends from it, and hands packets to it on to the local endpoint.
Host and port, or the identifier of an echo message, are replaced, and the checksum is updated
by their difference. The checksum of SCMP is left as it was.

* `L4Verifies` — the checksum of a SCION packet;
* `Replaced` — what `egressNat` and `ingressNat` do to the words that it is for;
* `keptByNat_iff` — the packets that stay valid.
-/
import Scion.ChecksumUpdate
import Scion.IngressHeaders
import Scion.ReceivedChecksum
import Scion.TcpChecksum
import Scion.WordSums

namespace Scion

open BigEndian OnesComplement

namespace ScmpMessage

/-! ### Identifiers of echo messages -/

def requestId : ScmpMessage → Option UInt16
  | echoRequest id _ => some id
  | _ => none

def replyId : ScmpMessage → Option UInt16
  | echoReply id _ => some id
  | _ => none

/-- The message with another identifier if it is a request. -/
def withRequestId (id : UInt16) : ScmpMessage → ScmpMessage
  | echoRequest _ seq => echoRequest id seq
  | msg => msg

/-- The message with another identifier if it is a reply. -/
def withReplyId (id : UInt16) : ScmpMessage → ScmpMessage
  | echoReply _ seq => echoReply id seq
  | msg => msg

/-- The messages differ by the identifier that one of them may have. -/
structure IdReplaced (msg msg' : ScmpMessage) (id : Option UInt16) (id' : UInt16) : Prop where
  type : msg'.type = msg.type
  code : msg'.code = msg.code
  size : msg'.size = msg.size
  words : (wordSum msg'.bytes : ℤ)
    = wordSum msg.bytes + id.elim 0 fun id => (id'.toNat : ℤ) - id.toNat

theorem idReplaced_self (msg : ScmpMessage) (id' : UInt16) : IdReplaced msg msg none id' := by
  refine ⟨rfl, rfl, rfl, ?_⟩
  rw [Option.elim_none, add_zero]

theorem wordSum_echo (id id' seq : UInt16) :
    (wordSum (beBytes 2 id'.toNat ++ beBytes 2 seq.toNat) : ℤ)
      = wordSum (beBytes 2 id.toNat ++ beBytes 2 seq.toNat) + (id'.toNat - id.toNat) := by
  have hpair := wordSum_pair id seq []
  have hpair' := wordSum_pair id' seq []
  rw [List.append_nil] at hpair hpair'
  rw [hpair, hpair']
  push_cast
  ring

theorem idReplaced_withRequestId (msg : ScmpMessage) (id' : UInt16) :
    IdReplaced msg (msg.withRequestId id') msg.requestId id' := by
  cases msg with
  | echoRequest id seq => exact ⟨rfl, rfl, rfl, wordSum_echo id id' seq⟩
  | _ => exact idReplaced_self _ id'

theorem idReplaced_withReplyId (msg : ScmpMessage) (id' : UInt16) :
    IdReplaced msg (msg.withReplyId id') msg.replyId id' := by
  cases msg with
  | echoReply id seq => exact ⟨rfl, rfl, rfl, wordSum_echo id id' seq⟩
  | _ => exact idReplaced_self _ id'

end ScmpMessage

namespace PacketBuffer

/-! ### Checksums in SCION packets -/

/-- The sum over the transport header, the payload and the SCION pseudo header. -/
def sciWireSum (pkt : PacketBuffer) : ℕ :=
  wordSum pkt.sci.addressBytes + wordSum (beBytes 4 (pkt.l4Bytes ++ pkt.payload).length)
    + pkt.l4Valid.proto.toNat + wordSum (pkt.l4Bytes ++ pkt.payload)

def L4Verifies (pkt : PacketBuffer) : Prop := IsSum 65536 pkt.sciWireSum 65535

instance (pkt : PacketBuffer) : Decidable pkt.L4Verifies :=
  inferInstanceAs (Decidable (IsSum 65536 pkt.sciWireSum 65535))

/-- The packet carries TCP, UDP or SCMP behind a SCION header. -/
structure CarriesL4 (pkt : PacketBuffer) : Prop where
  scionValid : pkt.scionValid = true
  l4Valid : pkt.l4Valid = .tcp ∨ pkt.l4Valid = .udp ∨ pkt.l4Valid = .scmp

def sciChksum (pkt : PacketBuffer) : UInt16 :=
  match pkt.l4Valid with
  | .scmp => pkt.scmp.chksum
  | .tcp => pkt.tcp.chksum
  | .udp => pkt.udp.chksum
  | _ => 0

/-- The source port, or the identifier of a request. -/
def sourcePort (pkt : PacketBuffer) : Option UInt16 :=
  match pkt.l4Valid with
  | .tcp => some pkt.tcp.sport
  | .udp => some pkt.udp.sport
  | .scmp => pkt.scmp.msg.requestId
  | _ => none

/-- The destination port, or the identifier of a reply. -/
def destPort (pkt : PacketBuffer) : Option UInt16 :=
  match pkt.l4Valid with
  | .tcp => some pkt.tcp.dport
  | .udp => some pkt.udp.dport
  | .scmp => pkt.scmp.msg.replyId
  | _ => none

/-- A checksum that is updated by `change` verifies: for TCP and UDP no carry or borrow of the
sum is lost, and for SCMP there is nothing to update. -/
def UpdatesExactly (pkt : PacketBuffer) (change : ℤ) : Prop :=
  if pkt.l4Valid = .scmp then change ≡ 0 [ZMOD 65535]
  else 0 ≤ foldInt 65536 (65535 - pkt.sciChksum.toNat + change) ∧
    foldInt 65536 (65535 - pkt.sciChksum.toNat + change) < 65536

end PacketBuffer

/-- What replacing a host, and a port if there is one, adds to the words of a packet. -/
def endpointChange (host host' : IPAddress) (port : Option UInt16) (port' : UInt16) : ℤ :=
  wordSum host'.bytes - wordSum host.bytes
    + port.elim 0 fun port => (port'.toNat : ℤ) - port.toNat

theorem endpointChange_bounds (host host' : IPAddress) (port : Option UInt16) (port' : UInt16) :
    -(9 * 65535) ≤ endpointChange host host' port port' ∧
      endpointChange host host' port port' ≤ 9 * 65535 := by
  have hold := host.wordSum_bytes_le
  have hnew := host'.wordSum_bytes_le
  have hport' := port'.toNat_lt
  rw [endpointChange]
  cases port with
  | none =>
    rw [Option.elim_none]
    omega
  | some port =>
    have hport := port.toNat_lt
    rw [Option.elim_some]
    omega

/-- The sums that a host and a port are added to and subtracted from differ by that. -/
theorem sub_modEq_endpointChange (ia : IsdAsn) (host host' : IPAddress) (port port' : UInt16) :
    (((ScIPAddress.mk ia host').checksum + port'.toUInt32).toNat : ℤ)
        - ((ScIPAddress.mk ia host).checksum + port.toUInt32).toNat
      ≡ endpointChange host host' (some port) port' [ZMOD 2 ^ 32] := by
  have hold := host.wordSum_bytes_le
  have hnew := host'.wordSum_bytes_le
  rw [endpointChange, Option.elim_some, ScIPAddress.checksum, ScIPAddress.checksum,
    IPAddress.checksum_eq, IPAddress.checksum_eq, UInt32.toNat_add, UInt32.toNat_add,
    UInt32.toNat_add, UInt32.toNat_add, UInt32.toNat_ofNat', UInt32.toNat_ofNat',
    UInt16.toNat_toUInt32, UInt16.toNat_toUInt32, Int.ModEq]
  dsimp only
  omega

/-! ### What is replaced -/

namespace PacketBuffer

variable {pkt pkt' : PacketBuffer} {add sub : UInt32} {change : ℤ}

/-- The words of `pkt'` are those of `pkt` but for `change`, by which its checksum is updated
unless the packet carries SCMP. -/
structure Replaced (pkt pkt' : PacketBuffer) (change : ℤ) (add sub : UInt32) : Prop where
  wireSum : (pkt'.sciWireSum : ℤ) + pkt.sciChksum.toNat
    = pkt.sciWireSum + pkt'.sciChksum.toNat + change
  chksum : pkt'.sciChksum = if pkt.l4Valid = .scmp then pkt.sciChksum
    else updateInternetChecksum pkt.sciChksum add sub
  diff : pkt.l4Valid ≠ .scmp → (add.toNat : ℤ) - sub.toNat ≡ change [ZMOD 2 ^ 32]
  lower : -(9 * 65535) ≤ change
  upper : change ≤ 9 * 65535

theorem l4Verifies_iff : pkt.L4Verifies ↔ (pkt.sciWireSum : ℤ) ≡ 0 [ZMOD 65535] := by
  rw [L4Verifies, isSum_pred_iff (by norm_num), Int.ModEq]
  omega

/-- The checksum stays right exactly if the update is exact. -/
theorem Replaced.l4Verifies_iff (h : Replaced pkt pkt' change add sub)
    (hverifies : pkt.L4Verifies) : pkt'.L4Verifies ↔ pkt.UpdatesExactly change := by
  have hsum := h.wireSum
  have hchksum := h.chksum
  rw [PacketBuffer.l4Verifies_iff] at hverifies
  rw [PacketBuffer.l4Verifies_iff, UpdatesExactly]
  by_cases hscmp : pkt.l4Valid = .scmp
  · rw [if_pos hscmp] at hchksum ⊢
    rw [hchksum] at hsum
    rw [Int.ModEq] at hverifies ⊢
    rw [Int.ModEq]
    omega
  · rw [if_neg hscmp] at hchksum ⊢
    have hlt := pkt.sciChksum.toNat_lt
    have hlower := h.lower
    have hupper := h.upper
    have hwrapped : (((~~~pkt.sciChksum).toUInt32 + add - sub).toNat : ℤ)
        = (65535 - pkt.sciChksum.toNat + change) % 2 ^ 32 := by
      have hdiff := h.diff hscmp
      have hadd := add.toNat_lt
      have hsub := sub.toNat_lt
      rw [Int.ModEq] at hdiff
      rw [UInt32.toNat_sub, UInt32.toNat_add, UInt16.toNat_toUInt32, UInt16.toNat_not,
        show UInt16.size = 65536 from rfl]
      omega
    have hval := toNat_updateInternetChecksum_of (by omega) (by omega) hwrapped
    rw [← hchksum] at hval
    -- the words without a checksum are congruent to the sum that is folded
    have htotal : (pkt'.sciWireSum : ℤ) - pkt'.sciChksum.toNat
        ≡ 65535 - pkt.sciChksum.toNat + change [ZMOD 65535] := by
      rw [Int.ModEq] at hverifies ⊢
      omega
    have hdigit := @foldInt_emod_modEq_iff 65536 (65535 - pkt.sciChksum.toNat + change)
      (by norm_num) (by omega) (by omega)
    generalize 65535 - (pkt.sciChksum.toNat : ℤ) + change = u at hval htotal hdigit ⊢
    by_cases hzero : u = 0
    · subst hzero
      rw [if_pos rfl] at hval
      refine iff_of_true ?_ (by decide)
      rw [hval, sub_zero] at htotal
      exact htotal
    · rw [if_neg hzero] at hval
      rw [← hdigit, show (65536 : ℤ) - 1 = 65535 from rfl, ← complement_verifies_iff htotal hval,
        Int.ModEq, Int.ModEq]
      omega

/-! ### The words of a packet -/

theorem length_l4Bytes_even (pkt : PacketBuffer) : pkt.l4Bytes.length % 2 = 0 := by
  rw [l4Bytes]
  cases pkt.l4Valid with
  | none => rfl
  | icmp => exact pkt.icmp.length_bytes ▸ rfl
  | scmp => exact L4Header.length_bytes_even (.scmp pkt.scmp)
  | tcp => exact pkt.tcp.length_bytes_even
  | udp => exact L4Header.length_bytes_even (.udp pkt.udp)

theorem sciWireSum_eq (pkt : PacketBuffer) : pkt.sciWireSum
    = wordSum pkt.sci.dst.isdAsn.bytes + wordSum pkt.sci.src.isdAsn.bytes
      + wordSum pkt.sci.dst.host.bytes + wordSum pkt.sci.src.host.bytes
      + wordSum (beBytes 4 (pkt.l4Bytes.length + pkt.payload.length)) + pkt.l4Valid.proto.toNat
      + wordSum pkt.l4Bytes + wordSum pkt.payload := by
  rw [sciWireSum, ParsedPacket.wordSum_addressBytes, wordSum_append _ _ pkt.length_l4Bytes_even,
    List.length_append]
  ring

/-- The fields of a transport header are replaced, which adds `change` to its words. -/
structure L4Replaced (pkt pkt' : PacketBuffer) (change : ℤ) : Prop where
  l4Valid : pkt'.l4Valid = pkt.l4Valid
  payload : pkt'.payload = pkt.payload
  length : pkt'.l4Bytes.length = pkt.l4Bytes.length
  words : (wordSum pkt'.l4Bytes : ℤ) + pkt.sciChksum.toNat
    = wordSum pkt.l4Bytes + pkt'.sciChksum.toNat + change

theorem l4Replaced_tcp (htcp : pkt.l4Valid = .tcp) (hvalid : pkt'.l4Valid = pkt.l4Valid)
    (hpayload : pkt'.payload = pkt.payload) (hheader : pkt'.tcp = { pkt.tcp with
      sport := pkt'.tcp.sport, dport := pkt'.tcp.dport, chksum := pkt'.tcp.chksum })
    (hchange : (pkt'.tcp.sport.toNat : ℤ) - pkt.tcp.sport.toNat
      + (pkt'.tcp.dport.toNat - pkt.tcp.dport.toNat) = change) : L4Replaced pkt pkt' change := by
  have hbytes : pkt.l4Bytes = pkt.tcp.bytes := by rw [l4Bytes, htcp]
  have hbytes' : pkt'.l4Bytes = pkt'.tcp.bytes := by rw [l4Bytes, hvalid, htcp]
  have hchksum : pkt.sciChksum = pkt.tcp.chksum := by rw [sciChksum, htcp]
  have hchksum' : pkt'.sciChksum = pkt'.tcp.chksum := by rw [sciChksum, hvalid, htcp]
  refine ⟨hvalid, hpayload, ?_, ?_⟩
  · rw [hbytes, hbytes', hheader]
    rfl
  · have hwords := pkt.tcp.wordSum_bytes_eq
    have hwords' := pkt'.tcp.wordSum_bytes_eq
    rw [show ({ pkt'.tcp with sport := 0, dport := 0, chksum := 0 } : TCP)
      = { pkt.tcp with sport := 0, dport := 0, chksum := 0 } by rw [hheader]] at hwords'
    rw [hbytes, hbytes', hchksum, hchksum', hwords, hwords', ← hchange]
    push_cast
    ring

theorem l4Replaced_udp (hudp : pkt.l4Valid = .udp) (hvalid : pkt'.l4Valid = pkt.l4Valid)
    (hpayload : pkt'.payload = pkt.payload) (hlen : pkt'.udp.len = pkt.udp.len)
    (hchange : (pkt'.udp.sport.toNat : ℤ) - pkt.udp.sport.toNat
      + (pkt'.udp.dport.toNat - pkt.udp.dport.toNat) = change) : L4Replaced pkt pkt' change := by
  have hbytes : pkt.l4Bytes = pkt.udp.bytes := by rw [l4Bytes, hudp]
  have hbytes' : pkt'.l4Bytes = pkt'.udp.bytes := by rw [l4Bytes, hvalid, hudp]
  have hchksum : pkt.sciChksum = pkt.udp.chksum := by rw [sciChksum, hudp]
  have hchksum' : pkt'.sciChksum = pkt'.udp.chksum := by rw [sciChksum, hvalid, hudp]
  refine ⟨hvalid, hpayload, ?_, ?_⟩
  · rw [hbytes, hbytes', UDP.length_bytes, UDP.length_bytes]
  · rw [hbytes, hbytes', hchksum, hchksum', UDP.wordSum_bytes, UDP.wordSum_bytes, hlen,
      ← hchange]
    push_cast
    ring

theorem l4Replaced_scmp {id : Option UInt16} {id' : UInt16} (hscmp : pkt.l4Valid = .scmp)
    (hvalid : pkt'.l4Valid = pkt.l4Valid) (hpayload : pkt'.payload = pkt.payload)
    (hchksum : pkt'.scmp.chksum = pkt.scmp.chksum)
    (hmsg : ScmpMessage.IdReplaced pkt.scmp.msg pkt'.scmp.msg id id') :
    L4Replaced pkt pkt' (id.elim 0 fun id => (id'.toNat : ℤ) - id.toNat) := by
  have hbytes : pkt.l4Bytes = pkt.scmp.bytes := by rw [l4Bytes, hscmp]
  have hbytes' : pkt'.l4Bytes = pkt'.scmp.bytes := by rw [l4Bytes, hvalid, hscmp]
  have hkept : pkt'.sciChksum = pkt.sciChksum := by
    rw [sciChksum, sciChksum, hvalid, hscmp]
    exact hchksum
  refine ⟨hvalid, hpayload, ?_, ?_⟩
  · rw [hbytes, hbytes', SCMP.length_bytes, SCMP.length_bytes, SCMP.size, SCMP.size, hmsg.size]
  · rw [hbytes, hbytes', hkept, SCMP.wordSum_bytes, SCMP.wordSum_bytes, hmsg.type, hmsg.code,
      hchksum]
    push_cast
    rw [hmsg.words]
    ring

/-- The words of the addresses and those of the transport header are replaced. -/
theorem L4Replaced.wireSum {hosts : ℤ} (h : L4Replaced pkt pkt' change)
    (hhosts : (wordSum pkt'.sci.addressBytes : ℤ) = wordSum pkt.sci.addressBytes + hosts) :
    (pkt'.sciWireSum : ℤ) + pkt.sciChksum.toNat
      = pkt.sciWireSum + pkt'.sciChksum.toNat + (hosts + change) := by
  have hwords := h.words
  rw [sciWireSum_eq, sciWireSum_eq, h.l4Valid, h.payload, h.length]
  rw [ParsedPacket.wordSum_addressBytes, ParsedPacket.wordSum_addressBytes] at hhosts
  push_cast at hhosts ⊢
  linear_combination hhosts + hwords

section Endpoint

variable {host host' : IPAddress} {port' : UInt16}

/-- A host and a port are replaced, and the checksum is updated. -/
theorem L4Replaced.updated (ia : IsdAsn) {port : UInt16}
    (h : L4Replaced pkt pkt' (port'.toNat - port.toNat)) (hnot : pkt.l4Valid ≠ .scmp)
    (hhosts : (wordSum pkt'.sci.addressBytes : ℤ)
      = wordSum pkt.sci.addressBytes + (wordSum host'.bytes - wordSum host.bytes))
    (hchksum : pkt'.sciChksum = updateInternetChecksum pkt.sciChksum
      ((ScIPAddress.mk ia host').checksum + port'.toUInt32)
      ((ScIPAddress.mk ia host).checksum + port.toUInt32)) :
    ∃ add sub, Replaced pkt pkt' (endpointChange host host' (some port) port') add sub := by
  obtain ⟨hlower, hupper⟩ := endpointChange_bounds host host' (some port) port'
  refine ⟨_, _, h.wireSum hhosts, ?_, fun _ => sub_modEq_endpointChange ia host host' port port',
    hlower, hupper⟩
  rw [hchksum, if_neg hnot]

/-- A host is replaced, and an identifier if there is one; the checksum is not. -/
theorem L4Replaced.kept {port : Option UInt16}
    (h : L4Replaced pkt pkt' (port.elim 0 fun port => (port'.toNat : ℤ) - port.toNat))
    (hscmp : pkt.l4Valid = .scmp)
    (hhosts : (wordSum pkt'.sci.addressBytes : ℤ)
      = wordSum pkt.sci.addressBytes + (wordSum host'.bytes - wordSum host.bytes))
    (hchksum : pkt'.sciChksum = pkt.sciChksum) :
    ∃ add sub, Replaced pkt pkt' (endpointChange host host' port port') add sub := by
  obtain ⟨hlower, hupper⟩ := endpointChange_bounds host host' port port'
  refine ⟨0, 0, h.wireSum hhosts, ?_, fun hnot => absurd hscmp hnot, hlower, hupper⟩
  rw [hchksum, if_pos hscmp]

end Endpoint

end PacketBuffer

/-! ### The two directions -/

namespace Socket

variable {s : Socket} {mapped : IPEndpoint} {pkt : PacketBuffer}

/-- What `egressNat` adds to the words of a packet. -/
def egressChange (mapped : IPEndpoint) (pkt : PacketBuffer) : ℤ :=
  endpointChange pkt.sci.src.host mapped.host pkt.sourcePort mapped.port

/-- What `ingressNat` adds to them. -/
def ingressChange (s : Socket) (pkt : PacketBuffer) : ℤ :=
  endpointChange pkt.sci.dst.host s.localAddress pkt.destPort s.localPort

theorem wordSum_addressBytes_src (sci : SCION) (host : IPAddress) :
    (wordSum ({ sci with src := ⟨sci.src.isdAsn, host⟩ } : SCION).addressBytes : ℤ)
      = wordSum sci.addressBytes + (wordSum host.bytes - wordSum sci.src.host.bytes) := by
  rw [ParsedPacket.wordSum_addressBytes, ParsedPacket.wordSum_addressBytes]
  push_cast
  ring

theorem wordSum_addressBytes_dst (sci : SCION) (host : IPAddress) :
    (wordSum ({ sci with dst := ⟨sci.dst.isdAsn, host⟩ } : SCION).addressBytes : ℤ)
      = wordSum sci.addressBytes + (wordSum host.bytes - wordSum sci.dst.host.bytes) := by
  rw [ParsedPacket.wordSum_addressBytes, ParsedPacket.wordSum_addressBytes]
  push_cast
  ring

section Egress

variable (hscion : pkt.scionValid = true) (hmapped : s.mapped = some mapped)

include hscion hmapped

theorem egressNat_tcp (htcp : pkt.l4Valid = .tcp) : s.egressNat pkt = { pkt with
    sci.src := ⟨pkt.sci.src.isdAsn, mapped.host⟩
    tcp.sport := mapped.port
    tcp.chksum := updateInternetChecksum pkt.tcp.chksum
      ((ScIPAddress.mk pkt.sci.src.isdAsn mapped.host).checksum + mapped.port.toUInt32)
      (pkt.sci.src.checksum + pkt.tcp.sport.toUInt32) } := by
  rw [egressNat, hmapped]
  simp only [hscion, htcp, if_true, PacketBuffer.l4UpdateChecksum]

theorem egressNat_udp (hudp : pkt.l4Valid = .udp) : s.egressNat pkt = { pkt with
    sci.src := ⟨pkt.sci.src.isdAsn, mapped.host⟩
    udp.sport := mapped.port
    udp.chksum := updateInternetChecksum pkt.udp.chksum
      ((ScIPAddress.mk pkt.sci.src.isdAsn mapped.host).checksum + mapped.port.toUInt32)
      (pkt.sci.src.checksum + pkt.udp.sport.toUInt32) } := by
  rw [egressNat, hmapped]
  simp only [hscion, hudp, if_true, PacketBuffer.l4UpdateChecksum]

/-- The identifier of a request is replaced, and no checksum updated. -/
theorem egressNat_scmp (hscmp : pkt.l4Valid = .scmp) : s.egressNat pkt = { pkt with
    sci.src := ⟨pkt.sci.src.isdAsn, mapped.host⟩
    scmp.msg := pkt.scmp.msg.withRequestId mapped.port } := by
  rw [egressNat, hmapped]
  cases hmsg : pkt.scmp.msg <;>
    simp only [hscion, hscmp, hmsg, if_true, PacketBuffer.l4UpdateChecksum,
      ScmpMessage.withRequestId]
  -- all other messages stay
  all_goals rw [← hmsg]

theorem replaced_egressNat (hl4 : pkt.l4Valid = .tcp ∨ pkt.l4Valid = .udp ∨ pkt.l4Valid = .scmp) :
    ∃ add sub, PacketBuffer.Replaced pkt (s.egressNat pkt) (egressChange mapped pkt) add sub := by
  have hhosts := wordSum_addressBytes_src pkt.sci mapped.host
  rcases hl4 with htcp | hudp | hscmp
  · have hnot : pkt.l4Valid ≠ .scmp := by
      rw [htcp]
      decide
    rw [egressChange, PacketBuffer.sourcePort, htcp, egressNat_tcp hscion hmapped htcp]
    refine PacketBuffer.L4Replaced.updated pkt.sci.src.isdAsn
      (PacketBuffer.l4Replaced_tcp htcp rfl rfl rfl ?_) hnot hhosts ?_
    · rw [sub_self, add_zero]
    · rw [PacketBuffer.sciChksum, PacketBuffer.sciChksum, htcp]
  · have hnot : pkt.l4Valid ≠ .scmp := by
      rw [hudp]
      decide
    rw [egressChange, PacketBuffer.sourcePort, hudp, egressNat_udp hscion hmapped hudp]
    refine PacketBuffer.L4Replaced.updated pkt.sci.src.isdAsn
      (PacketBuffer.l4Replaced_udp hudp rfl rfl rfl ?_) hnot hhosts ?_
    · rw [sub_self, add_zero]
    · rw [PacketBuffer.sciChksum, PacketBuffer.sciChksum, hudp]
  · rw [egressChange, PacketBuffer.sourcePort, hscmp, egressNat_scmp hscion hmapped hscmp]
    refine PacketBuffer.L4Replaced.kept (PacketBuffer.l4Replaced_scmp hscmp rfl rfl rfl
      (ScmpMessage.idReplaced_withRequestId pkt.scmp.msg mapped.port)) hscmp hhosts ?_
    rw [PacketBuffer.sciChksum, PacketBuffer.sciChksum, hscmp]

end Egress

section Ingress

variable (hscion : pkt.scionValid = true) (hmapped : s.mapped = some mapped)

include hscion hmapped

theorem ingressNat_tcp (htcp : pkt.l4Valid = .tcp) : s.ingressNat pkt = { pkt with
    sci.dst := ⟨pkt.sci.dst.isdAsn, s.localAddress⟩
    tcp.dport := s.localPort
    tcp.chksum := updateInternetChecksum pkt.tcp.chksum
      ((ScIPAddress.mk pkt.sci.dst.isdAsn s.localAddress).checksum + s.localPort.toUInt32)
      (pkt.sci.dst.checksum + pkt.tcp.dport.toUInt32) } := by
  rw [ingressNat, hmapped]
  simp only [hscion, htcp, if_true, PacketBuffer.l4UpdateChecksum]

theorem ingressNat_udp (hudp : pkt.l4Valid = .udp) : s.ingressNat pkt = { pkt with
    sci.dst := ⟨pkt.sci.dst.isdAsn, s.localAddress⟩
    udp.dport := s.localPort
    udp.chksum := updateInternetChecksum pkt.udp.chksum
      ((ScIPAddress.mk pkt.sci.dst.isdAsn s.localAddress).checksum + s.localPort.toUInt32)
      (pkt.sci.dst.checksum + pkt.udp.dport.toUInt32) } := by
  rw [ingressNat, hmapped]
  simp only [hscion, hudp, if_true, PacketBuffer.l4UpdateChecksum]

/-- The identifier of a reply is replaced, and no checksum updated. -/
theorem ingressNat_scmp (hscmp : pkt.l4Valid = .scmp) : s.ingressNat pkt = { pkt with
    sci.dst := ⟨pkt.sci.dst.isdAsn, s.localAddress⟩
    scmp.msg := pkt.scmp.msg.withReplyId s.localPort } := by
  rw [ingressNat, hmapped]
  cases hmsg : pkt.scmp.msg <;>
    simp only [hscion, hscmp, hmsg, if_true, PacketBuffer.l4UpdateChecksum,
      ScmpMessage.withReplyId]
  all_goals rw [← hmsg]

theorem replaced_ingressNat
    (hl4 : pkt.l4Valid = .tcp ∨ pkt.l4Valid = .udp ∨ pkt.l4Valid = .scmp) :
    ∃ add sub, PacketBuffer.Replaced pkt (s.ingressNat pkt) (s.ingressChange pkt) add sub := by
  have hhosts := wordSum_addressBytes_dst pkt.sci s.localAddress
  rcases hl4 with htcp | hudp | hscmp
  · have hnot : pkt.l4Valid ≠ .scmp := by
      rw [htcp]
      decide
    rw [ingressChange, PacketBuffer.destPort, htcp, ingressNat_tcp hscion hmapped htcp]
    refine PacketBuffer.L4Replaced.updated pkt.sci.dst.isdAsn
      (PacketBuffer.l4Replaced_tcp htcp rfl rfl rfl ?_) hnot hhosts ?_
    · rw [sub_self, zero_add]
    · rw [PacketBuffer.sciChksum, PacketBuffer.sciChksum, htcp]
  · have hnot : pkt.l4Valid ≠ .scmp := by
      rw [hudp]
      decide
    rw [ingressChange, PacketBuffer.destPort, hudp, ingressNat_udp hscion hmapped hudp]
    refine PacketBuffer.L4Replaced.updated pkt.sci.dst.isdAsn
      (PacketBuffer.l4Replaced_udp hudp rfl rfl rfl ?_) hnot hhosts ?_
    · rw [sub_self, zero_add]
    · rw [PacketBuffer.sciChksum, PacketBuffer.sciChksum, hudp]
  · rw [ingressChange, PacketBuffer.destPort, hscmp, ingressNat_scmp hscion hmapped hscmp]
    refine PacketBuffer.L4Replaced.kept (PacketBuffer.l4Replaced_scmp hscmp rfl rfl rfl
      (ScmpMessage.idReplaced_withReplyId pkt.scmp.msg s.localPort)) hscmp hhosts ?_
    rw [PacketBuffer.sciChksum, PacketBuffer.sciChksum, hscmp]

end Ingress

/-! ### There and back -/

/-- The packet comes from the local endpoint. -/
structure FromLocal (s : Socket) (pkt : PacketBuffer) : Prop where
  host : pkt.sci.src.host = s.localAddress
  port : ∀ port, pkt.sourcePort = some port → port = s.localPort

/-- Source and destination are exchanged, and an identifier is reflected. -/
structure IsReplyTo (sent reply : PacketBuffer) : Prop where
  scionValid : reply.scionValid = true
  l4Valid : reply.l4Valid = sent.l4Valid
  src : reply.sci.src = sent.sci.dst
  dst : reply.sci.dst = sent.sci.src
  destPort : reply.destPort = sent.sourcePort

/-- The packet goes to the endpoint that `pkt` came from. -/
structure Restores (pkt after : PacketBuffer) : Prop where
  dst : after.sci.dst = pkt.sci.src
  port : after.destPort = pkt.sourcePort

/-- Source host and port of a packet that was sent. -/
theorem source_egressNat (hl4 : pkt.CarriesL4) (hmapped : s.mapped = some mapped) :
    (s.egressNat pkt).l4Valid = pkt.l4Valid ∧
      (s.egressNat pkt).sci.src = ⟨pkt.sci.src.isdAsn, mapped.host⟩ ∧
      (s.egressNat pkt).sourcePort = pkt.sourcePort.map fun _ => mapped.port := by
  obtain ⟨hscion, htcp | hudp | hscmp⟩ := hl4
  · rw [egressNat_tcp hscion hmapped htcp, PacketBuffer.sourcePort, PacketBuffer.sourcePort, htcp]
    exact ⟨rfl, rfl, rfl⟩
  · rw [egressNat_udp hscion hmapped hudp, PacketBuffer.sourcePort, PacketBuffer.sourcePort, hudp]
    exact ⟨rfl, rfl, rfl⟩
  · rw [egressNat_scmp hscion hmapped hscmp, PacketBuffer.sourcePort, PacketBuffer.sourcePort,
      hscmp]
    refine ⟨rfl, rfl, ?_⟩
    dsimp only
    cases pkt.scmp.msg <;> rfl

/-- Destination host and port of a packet that was received. -/
theorem dest_ingressNat (hl4 : pkt.CarriesL4) (hmapped : s.mapped = some mapped) :
    (s.ingressNat pkt).sci.dst = ⟨pkt.sci.dst.isdAsn, s.localAddress⟩ ∧
      (s.ingressNat pkt).destPort = pkt.destPort.map fun _ => s.localPort := by
  obtain ⟨hscion, htcp | hudp | hscmp⟩ := hl4
  · rw [ingressNat_tcp hscion hmapped htcp, PacketBuffer.destPort, PacketBuffer.destPort, htcp]
    exact ⟨rfl, rfl⟩
  · rw [ingressNat_udp hscion hmapped hudp, PacketBuffer.destPort, PacketBuffer.destPort, hudp]
    exact ⟨rfl, rfl⟩
  · rw [ingressNat_scmp hscion hmapped hscmp, PacketBuffer.destPort, PacketBuffer.destPort, hscmp]
    refine ⟨rfl, ?_⟩
    dsimp only
    cases pkt.scmp.msg <;> rfl

theorem restores_ingressNat {reply : PacketBuffer} (hl4 : pkt.CarriesL4)
    (hmapped : s.mapped = some mapped) (hlocal : s.FromLocal pkt)
    (hreply : IsReplyTo (s.egressNat pkt) reply) : Restores pkt (s.ingressNat reply) := by
  obtain ⟨hvalid, hsrc, hsport⟩ := source_egressNat hl4 hmapped
  have hvalid' := hreply.l4Valid.trans hvalid
  obtain ⟨hdst, hdport⟩ := dest_ingressNat ⟨hreply.scionValid, hvalid' ▸ hl4.l4Valid⟩ hmapped
  constructor
  · rw [hdst, hreply.dst, hsrc, ← hlocal.host]
  · rw [hdport, hreply.destPort, hsport]
    cases hport : pkt.sourcePort with
    | none => rfl
    | some port => rw [hlocal.port port hport, Option.map_some, Option.map_some]

/-- The checksum stays right in either direction, and replies come back. -/
structure KeptByNat (s : Socket) (pkt : PacketBuffer) : Prop where
  egress : (s.egressNat pkt).L4Verifies
  ingress : (s.ingressNat pkt).L4Verifies
  reply : s.FromLocal pkt → ∀ reply, IsReplyTo (s.egressNat pkt) reply →
    Restores pkt (s.ingressNat reply)

/-- The packets that stay valid are those whose checksum is updated exactly. -/
theorem keptByNat_iff (hl4 : pkt.CarriesL4) (hmapped : s.mapped = some mapped)
    (hverifies : pkt.L4Verifies) :
    s.KeptByNat pkt ↔
      pkt.UpdatesExactly (egressChange mapped pkt) ∧ pkt.UpdatesExactly (s.ingressChange pkt) := by
  obtain ⟨_, _, hegress⟩ := replaced_egressNat hl4.scionValid hmapped hl4.l4Valid
  obtain ⟨_, _, hingress⟩ := replaced_ingressNat hl4.scionValid hmapped hl4.l4Valid
  rw [← hegress.l4Verifies_iff hverifies, ← hingress.l4Verifies_iff hverifies]
  constructor
  · exact fun h => ⟨h.egress, h.ingress⟩
  · rintro ⟨hsent, hreceived⟩
    exact ⟨hsent, hreceived, fun hlocal _ hreply => restores_ingressNat hl4 hmapped hlocal hreply⟩

/-! ### A ping from behind a NAT -/

/-- A request from 1-2,10.0.0.2 to 1-1,10.0.0.1 with the identifier 30041. -/
def requestBytes : List UInt8 :=
  [0, 0, 0, 1, 202, 9, 0, 8, 0, 0, 0, 0, 0, 1, 0, 0, 0, 0, 0, 1, 0, 1, 0, 0, 0, 0, 0, 2, 10, 0, 0,
    1, 10, 0, 0, 2, 128, 0, 0xf5, 0xc4, 0x75, 0x59, 0, 7]

def exampleRequest : PacketBuffer :=
  ((PacketBuffer.ofBuffer (List.replicate 64 0)).receive 0 requestBytes true none).2

/-- The mapped address. -/
def examplePublic : IPEndpoint := ⟨.v4 0xc0000201, 40000⟩

def exampleMapped : Socket where
  localPort := 30041
  persistent := true
  localAddress := .v4 0x0a000002
  mapped := some examplePublic

theorem keptByNat_iff_exampleRequest : exampleMapped.KeptByNat exampleRequest ↔
    exampleRequest.UpdatesExactly (egressChange examplePublic exampleRequest) ∧
      exampleRequest.UpdatesExactly (exampleMapped.ingressChange exampleRequest) :=
  keptByNat_iff ⟨by decide +kernel, by decide +kernel⟩ rfl
    (by decide +kernel)

/-- The request leaves with the checksum of its old source. -/
theorem not_forall_keptByNat :
    ¬ ∀ (s : Socket) (mapped : IPEndpoint) (pkt : PacketBuffer), pkt.CarriesL4 →
      s.mapped = some mapped → pkt.L4Verifies → s.KeptByNat pkt := by
  intro hclaim
  have hkept := hclaim exampleMapped examplePublic exampleRequest
    ⟨by decide +kernel, by decide +kernel⟩ rfl (by decide +kernel)
  exact absurd hkept.egress (by decide +kernel)

end Socket

end Scion
