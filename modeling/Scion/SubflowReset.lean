/-
Packets of new MPTCP subflows for which there is no path (`scitra-tun/scitra_tun.cpp`,
`scitra-tun/error_codes.cpp`, `error_codes.cpp`).

The path of an outgoing packet is looked up in a callback of the translation, which answers
all errors but one in ICMP. The translator looks at the verdict first, and at the flag that
there was no path for a subflow only if the packet is not to be returned.

* `TunError.equals` — errors of two categories and the conditions they are compared with;
* `Translator.lookup` — the callback, `translateIPtoScion` one round of the loop around it;
* `isReset_resetMptcpSubflow` — the segment that resets a subflow;
* `not_resets` — it is never sent.
-/
import Scion.EgressMtu
import Scion.FlowTables
import Scion.PathSelection
import Scion.TcpChecksum

namespace Scion

open BigEndian OnesComplement TcpOption

/-! ### Errors -/

inductive ScitraError
  | ok
  | cancelled
  | exiting
  | stunReceived
  | logicError
  | partialWrite
  | invalidArgument
  | bufferTooSmall
  | protocolNotSupported
  | socketClosed
  | interfaceNotFound
  | invalidPacket
  | notEnoughPaths
  | noLeadFlow
  | subflowBroken
  deriving DecidableEq, Repr

inductive ErrorCondition
  /-- The conditions that match an error code. -/
  | code (ec : ErrorCode)
  | altSuccess
  | wouldBlock
  | controlPlaneRPCError
  deriving DecidableEq, Repr

/-- `std::error_code` of one of the two categories. -/
inductive TunError
  | scion (ec : ErrorCode)
  | scitra (ec : ScitraError)
  deriving DecidableEq, Repr

/-- `ScitraErrorCategory::equivalent`. -/
def ScitraError.equivalent (ec : ScitraError) : ErrorCondition → Bool
  | .code .ok => ec = .ok
  | .code .cancelled => ec = .cancelled
  | .code .stunReceived => ec = .stunReceived
  | .code .logicError => ec = .logicError
  | .code .invalidArgument => ec = .invalidArgument
  | .code .bufferTooSmall => ec = .bufferTooSmall
  | .code .invalidPacket => ec = .invalidPacket
  | _ => false

/-- The codes up to `AltSuccess`. -/
def ErrorCode.isAltSuccess : ErrorCode → Bool
  | .ok | .cancelled | .pending | .timeout | .scmpReceived | .stunReceived => true
  | _ => false

/-- `ScionErrorCondition::equivalent`; system errors are left out. -/
def ErrorCondition.equivalent (cond : ErrorCondition) : TunError → Bool
  | .scion ec => if cond = .altSuccess then ec.isAltSuccess else cond = .code ec
  | .scitra _ => false

/-- `operator==`: one of the categories has to agree. -/
def TunError.equals (e : TunError) (cond : ErrorCondition) : Bool :=
  (match e with
    | .scion _ => false
    | .scitra ec => ec.equivalent cond)
  || cond.equivalent e

/-- `translateEgress` only asks an error whether it is pending. -/
def TunError.toErrorCode (e : TunError) : ErrorCode :=
  if e.equals (.code .pending) then .pending else .logicError

theorem TunError.equals_pending_iff (e : TunError) :
    e.equals (.code .pending) = true ↔ e = .scion .pending := by
  cases e with
  | scion ec => cases ec <;> decide
  | scitra ec => cases ec <;> decide

/-! ### The path request -/

/-- The arguments of `getPath`. -/
structure PathRequest where
  src : ScIPAddress
  dst : ScIPAddress
  sport : UInt16
  dport : UInt16
  proto : ScionProto
  tc : UInt8
  deriving DecidableEq, Repr

namespace PacketBuffer

/-- What `translateEgress` calls `getPath` with, if it comes to that, and the packet at that
time. -/
def pathRequest (sourcePrefix : IPAddress) (prefixLen : UInt32) (pkt : PacketBuffer) :
    Option (PathRequest × PacketBuffer) :=
  if pkt.ipValid ≠ .ipv6 then none
  else
    let srcHost := translateIPv6Prefix pkt.ipv6.src sourcePrefix prefixLen
    let (verdict, nextHeader, pkt) := pkt.translateL4
    if verdict = .abort ∨ verdict = .drop then none
    else
      (unmapFromIPv6 pkt.ipv6.dst).toOption.map fun dst =>
        (⟨⟨⟨0⟩, srcHost⟩, dst, pkt.l4SPort 0, pkt.l4DPort 0, nextHeader, pkt.ipv6.tc >>> 2⟩, pkt)

/-- An error that is not pending is answered in ICMP. -/
theorem route_of_error {sourcePrefix : IPAddress} {prefixLen : UInt32} {getPath : GetPath}
    {pkt pkt' : PacketBuffer} {q : PathRequest} {ec : ErrorCode} {mtu : UInt16}
    (hrequest : pkt.pathRequest sourcePrefix prefixLen = some (q, pkt'))
    (hpath : getPath q.src q.dst q.sport q.dport q.proto q.tc = (.error ec, mtu))
    (hec : ec ≠ .pending) :
    pkt.route sourcePrefix prefixLen getPath =
      .error (.ended .returned (pkt'.makeIcmpDestUnreachable 0)) := by
  rw [pathRequest] at hrequest
  split_ifs at hrequest with hip
  rcases htranslated : pkt.translateL4 with ⟨verdict, proto, pkt'⟩
  rw [htranslated] at hrequest
  dsimp only at hrequest
  split_ifs at hrequest with hverdict
  obtain ⟨dst, hdst, hq⟩ := Option.map_eq_some_iff.mp hrequest
  obtain ⟨rfl, rfl⟩ := Prod.mk.inj hq
  rw [route, if_neg hip, htranslated]
  dsimp only
  rw [if_neg hverdict]
  cases hunmap : unmapFromIPv6 pkt'.ipv6.dst with
  | error e =>
    rw [hunmap] at hdst
    cases hdst
  | ok dst' =>
    rw [hunmap] at hdst
    obtain rfl : dst' = dst := Option.some.inj hdst
    dsimp only at hpath ⊢
    rw [hpath]
    exact if_neg hec

/-- A TCP segment is not changed before there is a path. -/
theorem pkt_of_pathRequest {sourcePrefix : IPAddress} {prefixLen : UInt32}
    {pkt pkt' : PacketBuffer} {q : PathRequest} (htcp : pkt.l4Valid = .tcp)
    (hrequest : pkt.pathRequest sourcePrefix prefixLen = some (q, pkt')) : pkt' = pkt := by
  have hnot : pkt.l4Valid ≠ .icmp := by
    rw [htcp]
    decide
  rw [pathRequest, translateL4, if_neg hnot] at hrequest
  have hpass : ¬(Verdict.pass = .abort ∨ Verdict.pass = .drop) := by decide
  split_ifs at hrequest
  dsimp only at hrequest
  rw [if_neg hpass] at hrequest
  obtain ⟨dst, -, hq⟩ := Option.map_eq_some_iff.mp hrequest
  exact (congrArg Prod.snd hq).symm

end PacketBuffer

/-! ### One packet from the TUN interface -/

/-- The flow ID after `getFlowEgress`, which remaps the source port. -/
def FlowTables.egressID (t : FlowTables) (extraIPs : List IPAddress) (tunIP : IPAddress)
    (tcp : Option TCP) (id : FlowID) (localEp : IPEndpoint) : FlowID :=
  match t.joined extraIPs tcp with
  | some f => id.withSourcePort (t.heap.get f).boundTo.port
  | none => t.remappedID extraIPs tunIP tcp id localEp

namespace TCP

/-- The flags and the option of a reset for lack of resources. -/
def rstAck : UInt8 := Flags.rst ||| Flags.ack

def lackOfResources : UInt8 := 0x02

end TCP

namespace PacketBuffer

/-- The header if it is one of TCP. -/
def tcpHeader (pkt : PacketBuffer) : Option TCP :=
  if pkt.l4Valid = .tcp then some pkt.tcp else none

def removePayload (pkt : PacketBuffer) : PacketBuffer :=
  { pkt with packet.size := pkt.endOfHeader - pkt.packet.offset }

/-- The segment of `resetMptcpSubflow`. -/
def resetMptcpSubflow (pkt : PacketBuffer) : PacketBuffer :=
  let pkt := { pkt with
    tcp.sport := pkt.tcp.dport
    tcp.dport := pkt.tcp.sport
    -- ACK the SYN
    tcp.ack := pkt.tcp.seq + UInt32.ofNat pkt.payload.length + 1 }
  let pkt := { pkt.removePayload with
    tcp.flags := TCP.rstAck
    tcp.seq := 0
    tcp.window := 0
    tcp.urgptr := 0
    tcp.optMask := { mpRst := true }
    tcp.options.mpRst := ⟨0, TCP.lackOfResources⟩
    scionValid := false
    ipv6.src := pkt.ipv6.dst
    ipv6.dst := pkt.ipv6.src }
  let pkt := { pkt with
    ipv6.plen := UInt16.ofNat pkt.tcp.size
    tcp.chksum := 0 }
  { pkt with
    tcp.chksum := internetChecksum pkt.payload
      (pkt.ipv6.checksum pkt.ipv6.plen + pkt.tcp.checksum) }

end PacketBuffer

/-- What does not change while the translator runs. -/
structure Translator where
  localIA : IsdAsn
  publicIP : IPAddress
  tunIP : IPAddress
  extraIPs : List IPAddress
  sha256Trunc : UInt64 → UInt32
  hash : IPAddress → UInt64
  hashSc : ScIPAddress → UInt64
  murmur32 : List UInt8 → UInt32 → UInt32

/-- What the callback leaves behind. -/
structure Lookup where
  path : Except TunError (Option Path)
  mtu : UInt16
  tables : FlowTables
  flow : FlowPtr
  remappedSPort : UInt16
  mpOutOfPaths : Bool

/-- What becomes of a packet. -/
structure Translated where
  tables : FlowTables
  /-- Goes back to the local host. -/
  toTun : Option PacketBuffer := none
  /-- Goes to a socket, with the port of the socket and the next hop. -/
  toSocket : Option (UInt16 × IPEndpoint × PacketBuffer) := none

namespace Translator

/-- `REPLACE_ADDRESS`. -/
def replaceAddress : UInt32 := 128

section Round

variable (tr : Translator) (env : Surroundings) (getMtu : IPAddress → Path → UInt16)

/-- The choice of a path for the flow `f`; its lead flow is looked up by ID. -/
def choosePath (t : FlowTables) (f : FlowPtr) (id : FlowID) (mpJoin : Bool) :
    Except (TunError × Bool) Path :=
  let flow := t.heap.get f
  let multipath := flow.multipath || mpJoin
  let select : Except (TunError × Bool) Path :=
    match selectPath env with
    | some path => .ok path
    | none => .error (.scion .pending, false)
  match flow.path with
  | none =>
    if multipath then
      match t.flows.lookup id with
      | some lead =>
        match selectPathMulti env (t.heap.getAllPaths lead) with
        | some path => .ok path
        | none => .error (.scitra .notEnoughPaths, true)
      | none => .error (.scitra .noLeadFlow, false)
    else select
  | some path =>
    if env.broken path || expiresSoon flow.type env.now path then
      if multipath then
        -- MPTCP subflows can't reselect their paths
        let path := refreshPath env path
        if env.broken path || path.expiry - env.now < 0 then
          .error (.scitra .subflowBroken, false)
        else .ok path
      else select
    else .ok path

/-- What the callback leaves behind; a path is kept in the flow. -/
def finish (dst : IPAddress) (t : FlowTables) (f : FlowPtr) (remappedSPort : UInt16) :
    Except (TunError × Bool) Path → Lookup
  | .ok path =>
    ⟨.ok (some path), getMtu dst path,
      { t with heap := t.heap.update f (Flow.setPath (some path)) }, f, remappedSPort, false⟩
  | .error (e, mpOutOfPaths) => ⟨.error e, 0, t, f, remappedSPort, mpOutOfPaths⟩

/-- The flow of a packet, which is a subflow if its lead flow uses multipath. -/
def flowEgress (t : FlowTables) (tcp : Option TCP) (id : FlowID) (localEp : IPEndpoint) :
    FlowPtr × FlowTables :=
  let (lead, t) := t.getFlowEgress tr.sha256Trunc tr.extraIPs tr.tunIP tcp id localEp
  if (t.heap.get lead).multipath then
    let (sf, m) := t.heap.getSubflowByAddr lead localEp
    (sf, { t with heap := m })
  else (lead, t)

/-- The callback of `translateEgress`. -/
def lookup (t : FlowTables) (tcp : Option TCP) (localEp : IPEndpoint) (q : PathRequest) :
    Lookup :=
  let id : FlowID := ⟨⟨tr.localIA, ⟨q.src.host, q.sport⟩⟩, ⟨q.dst.isdAsn, ⟨q.dst.host, q.dport⟩⟩,
    q.proto⟩
  let id' := t.egressID tr.extraIPs tr.tunIP tcp id localEp
  let (f, t) := tr.flowEgress t tcp id localEp
  finish getMtu q.dst.host t f id'.src.localEp.port
    (choosePath env t f id' (tcp.any fun tcp => tcp.optMask.mpJoin))

/-- The callback with the result that `translateEgress` looks at. -/
def getPath (t : FlowTables) (pkt : PacketBuffer) : GetPath := fun src dst sport dport proto tc =>
  let l := tr.lookup env getMtu t pkt.tcpHeader ⟨pkt.ipv6.src, pkt.l4SPort 0⟩
    ⟨src, dst, sport, dport, proto, tc⟩
  (l.path.mapError TunError.toErrorCode, l.mtu)

/-- The lookup for a packet, if the translation comes to it. -/
def lookupFor (t : FlowTables) (pkt : PacketBuffer) : Option Lookup :=
  (pkt.pathRequest tr.publicIP replaceAddress).map fun q =>
    tr.lookup env getMtu t pkt.tcpHeader ⟨pkt.ipv6.src, pkt.l4SPort 0⟩ q.1

/-- The source port of a subflow is remapped to that of its lead flow. -/
def remapSPort (remappedSPort port : UInt16) (pkt : PacketBuffer) : UInt16 × PacketBuffer :=
  if remappedSPort ≠ 0 ∧ port ≠ remappedSPort then
    let pkt := pkt.l4UpdateChecksum remappedSPort.toUInt32 pkt.tcp.sport.toUInt32
    (remappedSPort, { pkt with tcp.sport := remappedSPort })
  else (port, pkt)

/-- One round of `translateIPtoScion`; the packet was received at the time `recvd`. -/
def translateIPtoScion (t : FlowTables) (recvd : ℤ) (pkt : PacketBuffer) :
    Except String Translated :=
  let found := tr.lookupFor env getMtu t pkt
  let translated := pkt.translateEgress tr.hash tr.hashSc tr.murmur32 tr.publicIP replaceAddress
    (tr.getPath env getMtu t pkt)
  let t := found.elim t Lookup.tables
  let flow := found.elim 0 Lookup.flow
  translated.map fun result =>
    match result.verdict with
    | .pass =>
      let (port, pkt) := remapSPort (found.elim 0 Lookup.remappedSPort) result.sport result.pkt
      { tables := { t with
          heap := t.heap.update flow (Flow.updateStateEgress pkt.tcpHeader pkt.sci.qos recvd) }
        toSocket := some (port, result.nextHop, pkt) }
    | .returned => { tables := t, toTun := some result.pkt }
    | _ =>
      if found.any Lookup.mpOutOfPaths then
        let reset := result.pkt.resetMptcpSubflow
        { tables := { t with
            heap := t.heap.update flow (Flow.updateStateIngress reset.tcpHeader recvd) }
          toTun := some reset }
      else { tables := t }

end Round

end Translator

/-! ### The reset -/

namespace TCP

/-- A checksum adds itself to the words of a header. -/
theorem wordSum_bytes_chksum (h : TCP) (c : UInt16) :
    wordSum ({ h with chksum := c } : TCP).bytes
      = wordSum ({ h with chksum := 0 } : TCP).bytes + c.toNat := by
  have hwords := ({ h with chksum := c } : TCP).wordSum_bytes_eq
  have hzero := ({ h with chksum := 0 } : TCP).wordSum_bytes_eq
  rw [show (0 : UInt16).toNat = 0 from rfl] at hzero
  dsimp only at hwords hzero
  omega

/-- Without MP_JOIN the words are summed up as they are written. -/
theorem checksum_eq_wordSum {h : TCP} (hfits : h.Fits) (hsize : h.size ≤ 60)
    (hjoin : h.optMask.mpJoin = false) : h.checksum = UInt32.ofNat (wordSum h.bytes) := by
  obtain ⟨n, hsum, hwords⟩ := exists_wordSum_eq hfits hsize
  rw [joinSum, hjoin, if_neg Bool.false_ne_true, UInt32.add_zero] at hsum
  rw [hjoin, if_neg Bool.false_ne_true, add_zero] at hwords
  rw [hsum, hwords]

/-- The only option is MP_TCPRST. -/
theorem size_of_mpRst {h : TCP} (hmask : h.optMask = { mpRst := true }) : h.size = 24 := by
  have hrst : h.options.mpRst.size = 4 := rfl
  simp [size, measureOpts, hmask, hrst]

theorem optionList_of_mpRst {h : TCP} (hmask : h.optMask = { mpRst := true }) :
    h.optionList = [.mpRst h.options.mpRst] := by
  simp [optionList, listIf, hmask]

theorem length_bytes_of_mpRst {h : TCP} (hmask : h.optMask = { mpRst := true }) :
    h.bytes.length = 24 := by
  have hrst : h.options.mpRst.size = 4 := rfl
  rw [← size_of_mpRst hmask, length_bytes_eq_size_iff]
  refine ⟨fun hsack => ?_, ?_⟩
  · rw [hmask] at hsack
    cases hsack
  · simp [mptcpLen, hmask, hrst]

end TCP

namespace PacketBuffer

/-- The sum over a segment and its IPv6 pseudo header. -/
def tcpWireSum (pkt : PacketBuffer) : ℕ :=
  wordSum pkt.ipv6.src.bytes + wordSum pkt.ipv6.dst.bytes
    + wordSum (beBytes 4 (pkt.tcp.bytes ++ pkt.payload).length) + ScionProto.tcp.toNat
    + wordSum (pkt.tcp.bytes ++ pkt.payload)

/-- The segment `sent` resets the subflow that `pkt` is the SYN of. -/
structure IsReset (pkt sent : PacketBuffer) : Prop where
  l4Valid : sent.l4Valid = .tcp
  flags : sent.tcp.flags = TCP.rstAck
  src : sent.ipv6.src = pkt.ipv6.dst
  dst : sent.ipv6.dst = pkt.ipv6.src
  sport : sent.tcp.sport = pkt.tcp.dport
  dport : sent.tcp.dport = pkt.tcp.sport
  ack : sent.tcp.ack = pkt.tcp.seq + UInt32.ofNat pkt.payload.length + 1
  optMask : sent.tcp.optMask = { mpRst := true }
  reason : sent.tcp.options.mpRst.reason = TCP.lackOfResources
  verifies : IsSum 65536 sent.tcpWireSum 65535

/-- The header of a reset before it has a checksum. -/
def resetHeader (pkt : PacketBuffer) : TCP := { pkt.resetMptcpSubflow.tcp with chksum := 0 }

/-- The words that the checksum of a reset is made of. -/
def resetSum (pkt : PacketBuffer) : ℕ :=
  wordSum pkt.ipv6.dst.bytes + wordSum pkt.ipv6.src.bytes + 24 + ScionProto.tcp.toNat
    + wordSum pkt.resetHeader.bytes

variable {pkt : PacketBuffer}

theorem payload_resetMptcpSubflow (pkt : PacketBuffer) : pkt.resetMptcpSubflow.payload = [] := by
  change Records.slice pkt.buffer pkt.endOfHeader
    (pkt.endOfHeader - pkt.packet.offset - (pkt.endOfHeader - pkt.packet.offset)) = []
  rw [Nat.sub_self, Records.slice, List.take_zero]

/-- The checksum is that of a header of 24 bytes without a payload. -/
theorem chksum_resetMptcpSubflow (pkt : PacketBuffer) : pkt.resetMptcpSubflow.tcp.chksum =
    internetChecksum [] (({ pkt.ipv6 with src := pkt.ipv6.dst, dst := pkt.ipv6.src } :
      IPv6).checksum 24 + pkt.resetHeader.checksum) := by
  have hpayload := payload_resetMptcpSubflow pkt
  have hsize := @TCP.size_of_mpRst pkt.resetMptcpSubflow.tcp rfl
  have hplen : pkt.resetMptcpSubflow.ipv6.plen = 24 := by
    change UInt16.ofNat pkt.resetMptcpSubflow.tcp.size = 24
    rw [hsize]
    rfl
  rw [← hpayload, ← hplen]
  rfl

/-- The segment resets the subflow unless a carry of its checksum is lost. -/
theorem isReset_resetMptcpSubflow_iff (htcp : pkt.l4Valid = .tcp)
    (hnh : pkt.ipv6.nh = ScionProto.tcp) :
    IsReset pkt pkt.resetMptcpSubflow ↔ lost 65536 pkt.resetSum ≡ 0 [MOD 65535] := by
  have hmask : pkt.resetHeader.optMask = { mpRst := true } := rfl
  have hfits : pkt.resetHeader.Fits := by
    intro o ho
    rw [TCP.optionList_of_mpRst hmask, List.mem_singleton] at ho
    rw [ho]
    exact (by decide : (0 : UInt8).toNat < 16)
  have hsize : pkt.resetHeader.size ≤ 60 := by
    rw [TCP.size_of_mpRst hmask]
    norm_num
  have hheader := TCP.checksum_eq_wordSum hfits hsize rfl
  have hlength := TCP.length_bytes_of_mpRst hmask
  have hsent : pkt.resetMptcpSubflow.tcp.bytes.length = 24 := TCP.length_bytes_of_mpRst rfl
  have hwords : wordSum pkt.resetMptcpSubflow.tcp.bytes
      = wordSum pkt.resetHeader.bytes + pkt.resetMptcpSubflow.tcp.chksum.toNat :=
    pkt.resetMptcpSubflow.tcp.wordSum_bytes_chksum pkt.resetMptcpSubflow.tcp.chksum
  have hwire : pkt.resetMptcpSubflow.tcpWireSum
      = pkt.resetSum + pkt.resetMptcpSubflow.tcp.chksum.toNat := by
    rw [tcpWireSum, payload_resetMptcpSubflow, List.append_nil, hsent, hwords, resetSum]
    change wordSum pkt.ipv6.dst.bytes + wordSum pkt.ipv6.src.bytes + 24 + _ + _ = _
    omega
  have hinitial : (({ pkt.ipv6 with src := pkt.ipv6.dst, dst := pkt.ipv6.src } : IPv6).checksum 24
      + pkt.resetHeader.checksum).toNat = pkt.resetSum := by
    have hsrc := pkt.ipv6.src.wordSum_bytes_le
    have hdst := pkt.ipv6.dst.wordSum_bytes_le
    have hle := wordSum_le pkt.resetHeader.bytes
    rw [hlength] at hle
    rw [IPv6.checksum_eq, hheader, ← UInt32.ofNat_add, UInt32.toNat_ofNat', resetSum, ← hnh]
    change (_ + _ + 24 + pkt.ipv6.nh.toNat + _) % _ = _
    have hproto := pkt.ipv6.nh.toNat_lt
    dsimp only
    omega
  -- the checksum makes up for the sum but for what the fold has lost of it
  have hmod := internetChecksum_add_modEq []
    (({ pkt.ipv6 with src := pkt.ipv6.dst, dst := pkt.ipv6.src } : IPv6).checksum 24
      + pkt.resetHeader.checksum)
  rw [← chksum_resetMptcpSubflow, hinitial, wordSum, add_zero] at hmod
  have hverifies : IsSum 65536 pkt.resetMptcpSubflow.tcpWireSum 65535 ↔
      lost 65536 pkt.resetSum ≡ 0 [MOD 65535] := by
    rw [isSum_pred_iff (by norm_num), hwire]
    rw [Nat.ModEq] at hmod ⊢
    omega
  rw [← hverifies]
  exact ⟨IsReset.verifies, fun hsum => ⟨htcp, rfl, rfl, rfl, rfl, rfl, rfl, rfl, rfl, hsum⟩⟩

end PacketBuffer

/-! ### What is sent instead -/

namespace Translator

variable {tr : Translator} {env : Surroundings} {getMtu : IPAddress → Path → UInt16}
  {t : FlowTables} {pkt : PacketBuffer}

/-- There is no path for a subflow exactly if it has none yet and selects none beside those of
its connection. -/
theorem choosePath_outOfPaths_iff {f : FlowPtr} {id : FlowID} {mpJoin : Bool} {e : TunError} :
    choosePath env t f id mpJoin = .error (e, true) ↔
      (t.heap.get f).path = none ∧ ((t.heap.get f).multipath || mpJoin) = true ∧
        e = .scitra .notEnoughPaths ∧ ∃ lead, t.flows.lookup id = some lead ∧
          selectPathMulti env (t.heap.getAllPaths lead) = none := by
  rw [choosePath]
  cases hpath : (t.heap.get f).path with
  | some path =>
    refine iff_of_false ?_ fun h => by cases h.1
    dsimp only
    split_ifs
    · exact fun h => by cases h
    · exact fun h => by cases h
    · -- a path that is broken or about to expire, which is selected anew
      split <;> exact fun h => by cases h
    · exact fun h => by cases h
  | none =>
    dsimp only
    cases hmulti : (t.heap.get f).multipath || mpJoin with
    | false =>
      refine iff_of_false ?_ fun h => absurd h.2.1 Bool.false_ne_true
      rw [if_neg Bool.false_ne_true]
      split <;> exact fun h => by cases h
    | true =>
      rw [if_pos rfl]
      cases hlead : t.flows.lookup id with
      | none =>
        refine iff_of_false (fun h => by cases h) ?_
        rintro ⟨-, -, -, lead, hfound, -⟩
        cases hfound
      | some lead =>
        dsimp only
        cases hnone : selectPathMulti env (t.heap.getAllPaths lead) with
        | some path =>
          refine iff_of_false (fun h => by cases h) ?_
          rintro ⟨-, -, -, lead', hfound, hselected⟩
          rw [← Option.some.inj hfound, hnone] at hselected
          cases hselected
        | none =>
          constructor
          · intro h
            exact ⟨rfl, rfl, (congrArg Prod.fst (Except.error.inj h)).symm, lead, rfl, hnone⟩
          · rintro ⟨-, -, rfl, -⟩
            rfl

/-- The error that the callback returns when it sets its flag. -/
theorem path_of_mpOutOfPaths {tcp : Option TCP} {localEp : IPEndpoint} {q : PathRequest}
    (h : (tr.lookup env getMtu t tcp localEp q).mpOutOfPaths = true) :
    (tr.lookup env getMtu t tcp localEp q).path = .error (.scitra .notEnoughPaths) := by
  rw [lookup] at h ⊢
  dsimp only at h ⊢
  generalize hchosen : choosePath env _ _ _ _ = chosen at h ⊢
  cases chosen with
  | ok path => cases h
  | error e =>
    obtain ⟨e, mpOutOfPaths⟩ := e
    obtain rfl : mpOutOfPaths = true := h
    obtain ⟨-, -, rfl, -⟩ := choosePath_outOfPaths_iff.mp hchosen
    rfl

/-- A SYN for a new subflow for which there is no path. -/
structure OutOfPaths (tr : Translator) (env : Surroundings) (getMtu : IPAddress → Path → UInt16)
    (t : FlowTables) (pkt : PacketBuffer) : Prop where
  l4Valid : pkt.l4Valid = .tcp
  syn : pkt.tcp.has TCP.Flags.syn = true
  mpJoin : pkt.tcp.optMask.mpJoin = true
  outOfPaths : (tr.lookupFor env getMtu t pkt).any Lookup.mpOutOfPaths = true

/-- A reset of the subflow goes back to the local host. -/
def Resets (pkt : PacketBuffer) (r : Except String Translated) : Prop :=
  ∃ translated sent, r = .ok translated ∧ translated.toTun = some sent ∧ pkt.IsReset sent

/-- The error is not pending, so that the SYN is answered in ICMP and goes back before the flag
is looked at. -/
theorem translateIPtoScion_of_outOfPaths (h : OutOfPaths tr env getMtu t pkt) (recvd : ℤ) :
    ∃ tables, tr.translateIPtoScion env getMtu t recvd pkt =
      .ok { tables := tables, toTun := some (pkt.makeIcmpDestUnreachable 0) } := by
  obtain ⟨l, hl, hout⟩ := (Option.any_eq_true _ _).mp h.outOfPaths
  obtain ⟨⟨q, pkt'⟩, hrequest, rfl⟩ := Option.map_eq_some_iff.mp hl
  obtain rfl := PacketBuffer.pkt_of_pathRequest h.l4Valid hrequest
  have hpath := congrArg (Except.mapError TunError.toErrorCode) (path_of_mpOutOfPaths hout)
  have hgetPath : tr.getPath env getMtu t pkt' q.src q.dst q.sport q.dport q.proto q.tc
      = (.error .logicError, _) := Prod.ext hpath rfl
  rw [translateIPtoScion]
  dsimp only
  rw [PacketBuffer.translateEgress, PacketBuffer.route_of_error hrequest hgetPath (by decide)]
  exact ⟨_, rfl⟩

/-- No SYN for which there is no path is answered with a reset. -/
theorem not_resets (tr : Translator) (env : Surroundings) (getMtu : IPAddress → Path → UInt16)
    (t : FlowTables) (recvd : ℤ) (pkt : PacketBuffer) (h : OutOfPaths tr env getMtu t pkt) :
    ¬Resets pkt (tr.translateIPtoScion env getMtu t recvd pkt) := by
  obtain ⟨tables, htranslated⟩ := translateIPtoScion_of_outOfPaths h recvd
  rintro ⟨translated, sent, hok, htun, hreset⟩
  rw [htranslated] at hok
  obtain rfl := Except.ok.inj hok
  obtain rfl := Option.some.inj htun
  have hicmp : L4Type.icmp = .tcp := hreset.l4Valid
  cases hicmp

/-- A SYN of 10.0.0.2 to 1-1,10.0.0.1 for a connection whose token is 7. -/
def joinBytes : List UInt8 :=
  [0x60, 0, 0, 0, 0, 32, 6, 64] ++
    ([0, 0, 0, 0, 0, 0, 0, 0, 0, 0, 0xff, 0xff, 10, 0, 0, 2] ++
      ([0xfc, 0, 0x10, 0, 1, 0, 0, 0, 0, 0, 0xff, 0xff, 10, 0, 0, 1] ++
        ([0x13, 0x88, 0, 80, 0, 0, 0, 5, 0, 0, 0, 0, 0x80, 2, 0, 0, 0, 0, 0, 0] ++
          [30, 12, 0x10, 1, 0, 0, 0, 7, 0, 0, 0, 9])))

def exampleJoin : PacketBuffer :=
  ((PacketBuffer.ofBuffer (List.replicate 152 0)).receive 80 joinBytes false none).2

def exampleTranslator : Translator where
  localIA := ⟨0x1000000000002⟩
  publicIP := .v4 0x0a000002
  tunIP := .v4 0x0a000002
  extraIPs := [.v4 0x0a000003]
  sha256Trunc := UInt64.toUInt32
  hash _ := 0
  hashSc _ := 0
  murmur32 _ _ := 0

/-- No paths are known. -/
def exampleSurroundings : Surroundings where
  now := 0
  broken _ := false
  paths := []
  overlap _ := none

theorem outOfPaths_exampleJoin : OutOfPaths exampleTranslator exampleSurroundings (fun _ _ => 1472)
    FlowTables.start exampleJoin :=
  ⟨by decide +kernel, by decide +kernel, by decide +kernel, by decide +kernel⟩

theorem not_resets_exampleJoin : ¬Resets exampleJoin (exampleTranslator.translateIPtoScion
    exampleSurroundings (fun _ _ => 1472) FlowTables.start 0 exampleJoin) :=
  not_resets exampleTranslator exampleSurroundings (fun _ _ => 1472) FlowTables.start 0 exampleJoin
    outOfPaths_exampleJoin

/-- The SYN is answered with "no route to destination". -/
theorem not_forall_resets :
    ¬ ∀ (tr : Translator) (env : Surroundings) (getMtu : IPAddress → Path → UInt16)
      (t : FlowTables) (recvd : ℤ) (pkt : PacketBuffer), OutOfPaths tr env getMtu t pkt →
      Resets pkt (tr.translateIPtoScion env getMtu t recvd pkt) := by
  intro hclaim
  obtain ⟨translated, sent, hok, htun, hreset⟩ := hclaim exampleTranslator exampleSurroundings
    (fun _ _ => 1472) FlowTables.start 0 exampleJoin outOfPaths_exampleJoin
  obtain ⟨tables, hanswer⟩ := translateIPtoScion_of_outOfPaths outOfPaths_exampleJoin 0
  rw [hanswer] at hok
  obtain rfl := Except.ok.inj hok
  obtain rfl := Option.some.inj htun
  exact absurd hreset.l4Valid (by decide)

end Translator

end Scion
