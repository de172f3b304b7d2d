/-
The identifier of pings (`scitra/translator.hpp`, `scitra/translator.cpp`).

An echo request carries its identifier in its payload, since the field is taken by a port in
SCMP. A reply brings it back, whatever identifier it has itself.

* `originalId_of_payload` — what was stored in a payload is found in it;
* `icmpWireSum` — what receivers of an ICMPv6 message add up;
* `Answers` — a packet that belongs to a request;
* `answers_iff` — which replies become such packets.
-/
import Scion.EgressMtu
import Scion.IngressHeaders

namespace Scion

open BigEndian Codec OnesComplement

namespace PacketBuffer

variable {pkt reply : PacketBuffer}

/-! ### The identifier -/

/-- The identifier is stored in the payload. -/
theorem slice_payload_storeId (hlong : 18 ≤ pkt.payload.length) :
    Records.slice pkt.storeId.payload 16 2 = leBytes 2 pkt.icmp.param1.toNat := by
  have hsize : pkt.payload.length = min (pkt.packet.size - (pkt.endOfHeader - pkt.packet.offset))
      (pkt.buffer.length - pkt.endOfHeader) := by
    rw [payload, Records.slice, List.length_take, List.length_drop]
  have hwritten := Records.slice_overwrite_self
    (show pkt.endOfHeader + 16 ≤ pkt.buffer.length by omega) (leBytes 2 pkt.icmp.param1.toNat)
  rw [leBytes, List.length_reverse, length_beBytes, ← leBytes] at hwritten
  rw [storeId, if_pos hlong, payload]
  rw [Records.slice_slice _ _ _ _ _ (by dsimp only; omega)]
  exact hwritten

/-- The identifier that was stored is the one that is found. -/
theorem originalId_of_payload (hlong : 18 ≤ pkt.payload.length)
    (hpayload : reply.payload = pkt.storeId.payload) (id : UInt16) :
    reply.originalId id = pkt.icmp.param1 := by
  have hstored := slice_payload_storeId hlong
  have hlt := pkt.icmp.param1.toNat_lt
  have hlen : 18 ≤ reply.payload.length := by rwa [hpayload, length_payload_storeId]
  have hbytes : leBytes 2 pkt.icmp.param1.toNat = [UInt8.ofNat pkt.icmp.param1.toNat,
      UInt8.ofNat (pkt.icmp.param1.toNat / 256)] := by simp [leBytes, beBytes]
  rw [hbytes] at hstored
  have hlow := Records.getD_slice pkt.storeId.payload 16 2 (i := 0) (by norm_num) 0
  have hhigh := Records.getD_slice pkt.storeId.payload 16 2 (i := 1) (by norm_num) 0
  rw [hstored] at hlow hhigh
  rw [originalId, if_pos hlen, hpayload, ← hlow, ← hhigh]
  rw [← UInt16.toNat_inj, UInt16.toNat_add, UInt16.toNat_shiftLeft, UInt8.toNat_toUInt16,
    UInt8.toNat_toUInt16]
  show ((UInt8.ofNat pkt.icmp.param1.toNat).toNat
    + (UInt8.ofNat (pkt.icmp.param1.toNat / 256)).toNat <<< 8 % 2 ^ 16) % 2 ^ 16 = _
  rw [UInt8.toNat_ofNat', UInt8.toNat_ofNat', Nat.shiftLeft_eq]
  omega

/-- A request on its way: the identifier is in the payload, and the field has a port. -/
theorem sent_of_echoRequest {hash : IPAddress → UInt64} {hashSc : ScIPAddress → UInt64}
    {murmur32 : List UInt8 → UInt32 → UInt32} {sourcePrefix : IPAddress} {prefixLen : UInt32}
    {getPath : GetPath} {result : EgressResult} (hicmp : pkt.l4Valid = .icmp)
    (hrequest : pkt.icmp.type = ICMPv6Type.echoRequest)
    (hresult : pkt.translateEgress hash hashSc murmur32 sourcePrefix prefixLen getPath
      = .ok result)
    (hpass : result.verdict = .pass) :
    result.pkt.scmp.msg = .echoRequest dispatcherPort pkt.icmp.param2 ∧
      result.pkt.payload = pkt.storeId.payload := by
  have htranslated : pkt.translateL4 = (.pass, ScionProto.scmp, { pkt.storeId with
      scmp.msg := .echoRequest dispatcherPort pkt.icmp.param2
      l4Valid := .scmp }) := by
    rw [translateL4, if_pos hicmp, translateIcmpToScmp, hrequest]
    rfl
  rw [translateEgress] at hresult
  cases hroute : pkt.route sourcePrefix prefixLen getPath with
  | error answered =>
    rw [hroute] at hresult
    cases hresult
    exact absurd hpass (not_pass_of_route hroute)
  | ok r =>
    rw [hroute] at hresult
    have hfrom := routedFrom hroute
    have hpassed := Routed.passedAs hresult hpass
    have hpkt : r.pkt = _ := congrArg (·.2.2) (hfrom.translated.symm.trans htranslated)
    constructor
    · rw [hpassed.message.msg, hpkt]
    · rw [payload, hpassed.message.buffer, hpassed.packet, hpassed.endOfHeader, hpkt]
      rfl

/-! ### The checksum -/

/-- The sum over a message and its IPv6 pseudo header. -/
def icmpWireSum (pkt : PacketBuffer) : ℕ :=
  wordSum pkt.ipv6.src.bytes + wordSum pkt.ipv6.dst.bytes
    + wordSum (beBytes 4 (pkt.icmp.bytes ++ pkt.payload).length) + IPProto.icmpv6.toNat
    + wordSum (pkt.icmp.bytes ++ pkt.payload)

/-- What is summed for a reply to `pkt` from `src` to `dst`. -/
def replySum (src dst : IPAddress) (pkt reply : PacketBuffer) : ℕ :=
  wordSum src.bytes + wordSum dst.bytes + (8 + reply.payload.length) % 65536
    + IPProto.icmpv6.toNat + ICMPv6Type.echoReply.toNat * 256 + pkt.icmp.param1.toNat
    + pkt.icmp.param2.toNat + wordSum reply.payload

/-- An echo reply with the identifier, the sequence number and a checksum that its receiver
accepts. -/
structure Answers (pkt after : PacketBuffer) : Prop where
  l4Valid : after.l4Valid = .icmp
  type : after.icmp.type = ICMPv6Type.echoReply
  id : after.icmp.param1 = pkt.icmp.param1
  seq : after.icmp.param2 = pkt.icmp.param2
  verifies : IsSum 65536 after.icmpWireSum 65535

section Reply

variable {after : PacketBuffer}
  (hmsg : after.icmp = ⟨ICMPv6Type.echoReply, 0, after.icmp.chksum, pkt.icmp.param1,
    pkt.icmp.param2⟩)

include hmsg

/-- With the checksum and the higher word of the length, the sum is that of the receiver. -/
theorem icmpWireSum_eq (hpayload : after.payload = reply.payload) :
    after.icmpWireSum = replySum after.ipv6.src after.ipv6.dst pkt reply
      + (8 + reply.payload.length) / 65536 % 65536 + after.icmp.chksum.toNat := by
  have hlength := wordSum_beBytes_add 1 2 (8 + reply.payload.length)
  rw [show 2 * 1 + 2 = 4 from rfl, show 2 * 1 = 2 from rfl, wordSum_beBytes_two,
    wordSum_beBytes_two, show 256 ^ 2 = 65536 from rfl] at hlength
  have hwords := ICMPv6.wordSum_bytes after.icmp
  rw [hmsg] at hwords
  dsimp only at hwords
  rw [icmpWireSum, wordSum_append _ _ (by rw [ICMPv6.length_bytes]), List.length_append,
    ICMPv6.length_bytes, hpayload, hlength, replySum]
  rw [← hmsg] at hwords
  rw [hwords, show (0 : UInt8).toNat = 0 from rfl]
  omega

/-- The sum is that of the fields. -/
theorem toNat_replySum : (pseudoIPv6 after IPProto.icmpv6 (8 + reply.payload.length)
      + ({ after.icmp with chksum := 0 } : ICMPv6).checksum).toNat + wordSum reply.payload
    = replySum after.ipv6.src after.ipv6.dst pkt reply := by
  have hsrc := after.ipv6.src.wordSum_bytes_le
  have hdst := after.ipv6.dst.wordSum_bytes_le
  have hparam := pkt.icmp.param1.toNat_lt
  have hparam' := pkt.icmp.param2.toNat_lt
  rw [pseudoIPv6, IPv6.checksum_eq, ICMPv6.checksum_eq, ICMPv6.wordSum_bytes, hmsg,
    ← UInt32.ofNat_add, UInt32.toNat_ofNat', UInt16.toNat_ofNat', replySum]
  show (_ + IPProto.icmpv6.toNat + (ICMPv6Type.echoReply.toNat * 256 + 0 + 0 + _ + _)) % _ + _ = _
  rw [show IPProto.icmpv6.toNat = 58 from rfl, show ICMPv6Type.echoReply.toNat = 129 from rfl]
  dsimp only
  omega

end Reply

/-- The identifier and the sequence number are those of the request. The checksum is right unless
a carry is lost or the length does not fit. -/
theorem answers_iff {hash : IPAddress → UInt64} {hashSc : ScIPAddress → UInt64}
    {murmur32 : List UInt8 → UInt32 → UInt32} {sourcePrefix acceptPrefix dstPrefix : IPAddress}
    {sourceLen prefixLen : UInt32} {getPath : GetPath} {getMTU : GetMtu} {result : EgressResult}
    {port id seq : UInt16} {src dst : IPAddress} (hicmp : pkt.l4Valid = .icmp)
    (hrequest : pkt.icmp.type = ICMPv6Type.echoRequest) (hlong : 18 ≤ pkt.payload.length)
    (hresult : pkt.translateEgress hash hashSc murmur32 sourcePrefix sourceLen getPath
      = .ok result)
    (hpass : result.verdict = .pass) (hscmp : reply.l4Valid = .scmp)
    (hsent : result.pkt.scmp.msg = .echoRequest port seq)
    (hreply : reply.scmp.msg = .echoReply id seq) (hpayload : reply.payload = result.pkt.payload)
    (hsrc : mapToIPv6 reply.sci.src = .ok src) (hdst : mapToIPv6 reply.sci.dst = .ok dst)
    (hpass' : (reply.translateIngress hash murmur32 acceptPrefix dstPrefix prefixLen getMTU).1
      = .pass) :
    Answers pkt (reply.translateIngress hash murmur32 acceptPrefix dstPrefix prefixLen getMTU).2 ↔
      (8 + reply.payload.length) / 65536 % 65536
          + lost 65536 (replySum src (translateIPv6Prefix dst dstPrefix prefixLen) pkt reply)
        ≡ 0 [MOD 65535] := by
  obtain ⟨hrequested, hstored⟩ := sent_of_echoRequest hicmp hrequest hresult hpass
  obtain ⟨-, rfl⟩ : dispatcherPort = port ∧ pkt.icmp.param2 = seq :=
    ScmpMessage.echoRequest.inj (hrequested.symm.trans hsent)
  obtain ⟨hfrom⟩ := ingressFrom hpass'
  have h := hfrom.translated
  set after := (reply.translateIngress hash murmur32 acceptPrefix dstPrefix prefixLen getMTU).2
  obtain rfl : src = after.ipv6.src := Except.ok.inj (hsrc.symm.trans h.src)
  obtain ⟨dst', hdst', hdstEq⟩ := h.dst
  obtain rfl : dst = dst' := Except.ok.inj (hdst.symm.trans hdst')
  rw [← hdstEq]
  obtain ⟨hvalid, hnh⟩ := h.scmp hscmp
  have hmsg := h.icmp_reply hscmp hreply
  rw [originalId_of_payload hlong (hpayload.trans hstored)] at hmsg
  have hsize : reply.l4Size = 8 := by
    rw [l4Size, hscmp]
    show 4 + reply.scmp.msg.size = 8
    rw [hreply]
    rfl
  have hchksum := h.icmp hvalid
  rw [if_pos hscmp, hnh, hsize] at hchksum
  have hmod := internetChecksum_add_modEq reply.payload
    (pseudoIPv6 after IPProto.icmpv6 (8 + reply.payload.length)
      + ({ after.icmp with chksum := 0 } : ICMPv6).checksum)
  rw [← hchksum, toNat_replySum hmsg] at hmod
  have hwire := icmpWireSum_eq hmsg (payload_of_same h)
  have hverifies : IsSum 65536 after.icmpWireSum 65535 ↔
      (8 + reply.payload.length) / 65536 % 65536
          + lost 65536 (replySum after.ipv6.src after.ipv6.dst pkt reply) ≡ 0 [MOD 65535] := by
    rw [isSum_pred_iff (by norm_num), hwire]
    rw [Nat.ModEq] at hmod ⊢
    omega
  rw [← hverifies]
  exact ⟨Answers.verifies, fun hsum => ⟨hvalid, by rw [hmsg], by rw [hmsg], by rw [hmsg], hsum⟩⟩

/-! ### Ping and pong -/

open SocketSystem (exampleMappedIP)

/-- A request to 1-1,10.0.0.1 with 18 bytes, of which `word` is the first two. -/
def pingBytes (word : UInt16) : List UInt8 :=
  [0x60, 0, 0, 0, 0, 26, 58, 64] ++
    ([0xfd, 0, 0, 0, 0, 0, 0, 0, 0, 0, 0, 0, 0, 0, 0, 1] ++
      ([0xfc, 0, 0x10, 0, 1, 0, 0, 0, 0, 0, 0xff, 0xff, 10, 0, 0, 1] ++
        ([128, 0, 0, 0, 0x12, 0x34, 0, 7] ++ (beBytes 2 word.toNat ++ List.replicate 16 0))))

/-- Its reply to 1-2,10.0.0.2 with the identifier 30041. -/
def pongBytes (word : UInt16) : List UInt8 :=
  [0, 0, 0, 1, 202, 9, 0, 26, 0, 0, 0, 0, 0, 1, 0, 0, 0, 0, 0, 2, 0, 1, 0, 0, 0, 0, 0, 1, 10, 0, 0,
    2, 10, 0, 0, 1, 129, 0, 0, 0, 0x75, 0x59, 0, 7] ++
    (beBytes 2 word.toNat ++ (List.replicate 14 0 ++ [0x34, 0x12]))

def examplePing (word : UInt16) : PacketBuffer :=
  ((ofBuffer (List.replicate 160 0)).receive 80 (pingBytes word) false none).2

def examplePong (word : UInt16) : PacketBuffer :=
  ((ofBuffer (List.replicate 80 0)).receive 0 (pongBytes word) true none).2

/-- The mapped form of 1-2,10.0.0.2. -/
def exampleMappedSource : IPAddress := .v6 0xfc00100002000000 0xffff0a000002 ""

theorem answers_iff_pong : Answers (examplePing 0) ((examplePong 0).translateIngress (fun _ => 0)
    (fun _ _ => 0) exampleMappedSource exampleMappedSource 128 (fun _ rp => (1280, rp))).2 := by
  obtain ⟨result, hresult, hall⟩ := exists_ok_of_any
    (x := (examplePing 0).translateEgress (fun _ => 0) (fun _ => 0) (fun _ _ => 0)
      (.v4 0x0a000002) 128 (exampleGetPath4 40 1472))
    (p := fun result => result.verdict = .pass ∧
      result.pkt.scmp.msg = .echoRequest dispatcherPort 7 ∧
      (examplePong 0).payload = result.pkt.payload) (by decide +kernel)
  obtain ⟨hpass, hsent, hpayload⟩ := of_decide_eq_true hall
  exact (answers_iff (show (examplePing 0).l4Valid = .icmp by decide +kernel) (by decide +kernel)
    (by decide +kernel) hresult hpass (by decide +kernel) hsent
    (show (examplePong 0).scmp.msg = .echoReply 30041 7 by decide +kernel) hpayload
    (show mapToIPv6 _ = .ok exampleMappedIP by decide +kernel)
    (show mapToIPv6 _ = .ok exampleMappedSource by decide +kernel) (by decide +kernel)).mpr
      (by decide +kernel)

/-- With the word 2394 the sum is 0x4fffc, whose fold is 0x10000. -/
theorem not_forall_answers :
    ¬ ∀ (hash : IPAddress → UInt64) (hashSc : ScIPAddress → UInt64)
      (murmur32 : List UInt8 → UInt32 → UInt32)
      (sourcePrefix acceptPrefix dstPrefix : IPAddress) (sourceLen prefixLen : UInt32)
      (getPath : GetPath) (getMTU : GetMtu) (pkt reply : PacketBuffer) (result : EgressResult)
      (port id seq : UInt16), pkt.l4Valid = .icmp → pkt.icmp.type = ICMPv6Type.echoRequest →
      18 ≤ pkt.payload.length →
      pkt.translateEgress hash hashSc murmur32 sourcePrefix sourceLen getPath = .ok result →
      result.verdict = .pass → reply.l4Valid = .scmp →
      result.pkt.scmp.msg = .echoRequest port seq → reply.scmp.msg = .echoReply id seq →
      reply.payload = result.pkt.payload →
      (reply.translateIngress hash murmur32 acceptPrefix dstPrefix prefixLen getMTU).1 = .pass →
      Answers pkt
        (reply.translateIngress hash murmur32 acceptPrefix dstPrefix prefixLen getMTU).2 := by
  intro hclaim
  obtain ⟨result, hresult, hall⟩ := exists_ok_of_any
    (x := (examplePing 2394).translateEgress (fun _ => 0) (fun _ => 0) (fun _ _ => 0)
      (.v4 0x0a000002) 128 (exampleGetPath4 40 1472))
    (p := fun result => result.verdict = .pass ∧
      result.pkt.scmp.msg = .echoRequest dispatcherPort 7 ∧
      (examplePong 2394).payload = result.pkt.payload) (by decide +kernel)
  obtain ⟨hpass, hsent, hpayload⟩ := of_decide_eq_true hall
  have hanswers := hclaim (fun _ => 0) (fun _ => 0) (fun _ _ => 0) (.v4 0x0a000002)
    exampleMappedSource exampleMappedSource 128 128 (exampleGetPath4 40 1472)
    (fun _ rp => (1280, rp)) (examplePing 2394) (examplePong 2394) result dispatcherPort 30041 7
    (by decide +kernel) (by decide +kernel) (by decide +kernel) hresult hpass (by decide +kernel)
    hsent (by decide +kernel) hpayload (by decide +kernel)
  exact absurd hanswers.verifies (by decide +kernel)

end PacketBuffer

end Scion
