/-
Scatter/gather calls on interposed UDP sockets (`interposer/src/interposer.cpp`).

A datagram is received through a buffer of its own and copied to those of the caller, to one or
to many. What is sent from many buffers is collected in one first.

* `recvDgram`, `recvfrom`, `recvmsg`, with the loop `scatter` over the buffers;
* `flatten_scatter` — the loop fills the buffers as if they were one;
* `sendtoImpl`, `sendmsgImpl` — the send calls with the errno values of their failures;
* `scatterGather_agrees_iff` — when `recvmsg` agrees with `recvfrom`, and `sendmsg` with
  `sendto`.
-/
import Scion.InterposedSend
import Scion.Records
import Scion.SocketAddress
import Scion.StunMapping

namespace Scion

open BigEndian Records

/-! ### Addresses in memory -/

/-- The bytes of a `sockaddr_scion`; its family is `AF_SCION`. -/
def SockaddrScion.image (sa : SockaddrScion) : List UInt8 :=
  leBytes 2 64 ++ leBytes 2 sa.port.toNat ++ leBytes 4 sa.flowinfo.toNat
    ++ leBytes 4 sa.addr.hostType.toNat ++ leBytes 4 sa.addr.scopeId.toNat
    ++ leBytes 8 sa.addr.isdAsn.toNat ++ sa.addr.addr

/-- The bytes of a `sockaddr_in6` of the family `AF_INET6`, without flow information and scope. -/
def sockaddrIn6Image (addr : In6Addr) (port : UInt16) : List UInt8 :=
  leBytes 2 10 ++ beBytes 2 port.toNat ++ List.replicate 4 0
    ++ (beBytes 8 addr.1.toNat ++ beBytes 8 addr.2.toNat) ++ List.replicate 4 0

/-- `src_addr` with `addrlen`. -/
structure AddrBuffer where
  bytes : List UInt8
  len : ℕ
  deriving DecidableEq, Repr

/-- What fits of an address is copied, and the length of all of it stored. -/
def AddrBuffer.store (b : AddrBuffer) (image : List UInt8) : AddrBuffer :=
  ⟨overwrite b.bytes 0 (image.take b.len), image.length⟩

/-! ### Errors -/

/-- `EWOULDBLOCK`, which is `EAGAIN`. -/
def ewouldblock : ℕ := 11

/-- `EIO`. -/
def eio : ℕ := 5

/-- `EINVAL`. -/
def einval : ℕ := 22

/-- `EDESTADDRREQ`. -/
def edestaddrreq : ℕ := 89

/-- `EMSGSIZE`. -/
def emsgsize : ℕ := 90

/-- `EOPNOTSUPP`. -/
def eopnotsupp : ℕ := 95

namespace StatusCode

/-- The errno value of a failed receive call. -/
def recvErrno : StatusCode → ℕ
  | system errno => errno
  | scion ec => if ec = .timeout then ewouldblock else eio

/-- The errno value of a failed send call. -/
def sendErrno : StatusCode → ℕ
  | system errno => errno
  | scion ec =>
    if ec = .timeout then ewouldblock else if ec = .packetTooBig then emsgsize else eio

end StatusCode

namespace InterposedSocket

/-! ### Receiving -/

/-- `MSG_TRUNC`. -/
def msgTrunc : UInt32 := 0x20

/-- `MSG_DONTWAIT | MSG_PEEK | MSG_TRUNC | MSG_WAITALL`. -/
def recvFlags : UInt32 := 0x40 ||| 0x2 ||| msgTrunc ||| 0x100

/-- What `recvFromVia` gets from a packet. -/
structure ReceivedFrom where
  payload : List UInt8
  source : ScIPEndpoint

/-- `recvFromVia` of the UDP socket, for a buffer of some size and flags. -/
abbrev RecvFromVia := ScionPackager → ℕ → UInt32 → Except StatusCode ReceivedFrom × ScionPackager

/-- `msghdr`; no name stands for a null pointer, and so does no ancillary data. -/
structure MsgHdr where
  name : Option (List UInt8)
  namelen : ℕ
  iov : List (List UInt8)
  control : Option (List UInt8)
  flags : UInt32
  deriving DecidableEq, Repr

section Receive

variable {T : Type}

-- `native` stands for sockets of the family `AF_SCION`
variable (hash : ScIPAddress → UInt64) (ifs : NetInterfaces) (via : RecvFromVia) (native : Bool)

/-- The socket address of a source, for which a surrogate may be made. There always is one, with
less than 2^64 in use. -/
def sourceImage (surrogates : AddressSurrogates) (source : ScIPEndpoint) :
    List UInt8 × AddressSurrogates :=
  if native then ((endpointCast ifs source).image, surrogates)
  else
    let (ip, surrogates) :=
      (surrogates.mapScionToIPv6 hash source.address).getD (.v6 0 0 "", surrogates)
    (sockaddrIn6Image ip.getIPv6 source.port, surrogates)

/-- What `recv_dgram_impl` returns, the address buffer and the socket after it. -/
structure Dgram (T : Type) where
  payload : Except StatusCode (List UInt8)
  name : Option AddrBuffer
  socket : InterposedSocket T

/-- `recv_dgram_impl`. -/
def recvDgram (s : InterposedSocket T) (flags : UInt32) (name : Option AddrBuffer) : Dgram T :=
  match via s.udp bufferSize flags with
  | (.error ec, udp) => ⟨.error ec, name, { s with udp := udp }⟩
  | (.ok r, udp) =>
    match name with
    | none => ⟨.ok r.payload, none, { s with udp := udp }⟩
    | some b =>
      let (image, surrogates) := sourceImage hash ifs native s.surrogates r.source
      ⟨.ok r.payload, some (b.store image), { s with udp := udp, surrogates := surrogates }⟩

/-- What `recvfrom` returns, a number of bytes or an errno value, and what it leaves behind. -/
structure RecvfromResult (T : Type) where
  result : Except ℕ ℕ
  buf : List UInt8
  name : Option AddrBuffer
  socket : InterposedSocket T

/-- `interposer_recvfrom_impl`. -/
def recvfrom (s : InterposedSocket T) (buf : List UInt8) (flags : UInt32)
    (name : Option AddrBuffer) : RecvfromResult T :=
  if flags &&& ~~~recvFlags ≠ 0 then ⟨.error eopnotsupp, buf, name, s⟩
  else
    let recvd := s.recvDgram hash ifs via native (flags &&& ~~~msgTrunc) name
    match recvd.payload with
    | .error ec => ⟨.error ec.recvErrno, buf, recvd.name, recvd.socket⟩
    | .ok payload =>
      let ret := min buf.length payload.length
      ⟨.ok (if flags &&& msgTrunc ≠ 0 then payload.length else ret),
        overwrite buf 0 (payload.take ret), recvd.name, recvd.socket⟩

/-- The loop over the buffers of `interposer_recvmsg_impl`; the number is what remains of the
payload behind it. -/
def scatter : List UInt8 → List (List UInt8) → List (List UInt8) × ℕ
  | payload, [] => ([], payload.length)
  | payload, buf :: bufs =>
    if payload.length = 0 then (buf :: bufs, 0)
    else
      let n := min buf.length payload.length
      let (bufs, remaining) := scatter (payload.drop n) bufs
      (overwrite buf 0 (payload.take n) :: bufs, remaining)

/-- What `recvmsg` returns and leaves behind. -/
structure RecvmsgResult (T : Type) where
  result : Except ℕ ℕ
  msg : Option MsgHdr
  socket : InterposedSocket T

/-- `EFAULT`. -/
def efault : ℕ := 14

/-- `interposer_recvmsg_impl`. -/
def recvmsg (s : InterposedSocket T) (msg : Option MsgHdr) (flags : UInt32) : RecvmsgResult T :=
  match msg with
  | none => ⟨.error efault, none, s⟩
  | some msg =>
    if flags &&& ~~~recvFlags ≠ 0 then ⟨.error eopnotsupp, some msg, s⟩
    else
      -- the length of the address is a copy, which is not stored back
      let recvd := s.recvDgram hash ifs via native (flags &&& ~~~msgTrunc)
        (msg.name.map (⟨·, msg.namelen⟩))
      let msg := { msg with name := recvd.name.map AddrBuffer.bytes }
      match recvd.payload with
      | .error ec => ⟨.error ec.recvErrno, some msg, recvd.socket⟩
      | .ok payload =>
        let (iov, remaining) := scatter payload msg.iov
        ⟨.ok (if flags &&& msgTrunc ≠ 0 then payload.length else payload.length - remaining),
          some { msg with iov := iov, control := none, flags := 0 }, recvd.socket⟩

/-- The packet of a receive call, if it gets one. -/
def packet (s : InterposedSocket T) (flags : UInt32) : Option ReceivedFrom :=
  if flags &&& ~~~recvFlags ≠ 0 then none
  else (via s.udp bufferSize (flags &&& ~~~msgTrunc)).1.toOption

/-- The length of the socket address of a source. -/
def addrSize : ℕ := if native then 40 else 28

/-- What `recvmsg` is to do: what `recvfrom` does with one buffer, and to tell whether the payload
fits. -/
structure RecvAgrees (s : InterposedSocket T) (msg : MsgHdr) (flags : UInt32)
    (r : RecvfromResult T) (m : RecvmsgResult T) (msg' : MsgHdr) : Prop where
  result : m.result = r.result
  socket : m.socket = r.socket
  returned : m.msg = some msg'
  iov : msg'.iov.flatten = r.buf
  lengths : msg'.iov.map List.length = msg.iov.map List.length
  name : msg'.name = r.name.map AddrBuffer.bytes
  namelen : msg'.namelen = (r.name.map AddrBuffer.len).getD msg.namelen
  truncated : ∀ p, s.packet via flags = some p →
    (msg'.flags &&& msgTrunc ≠ 0 ↔ msg.iov.flatten.length < p.payload.length)

/-- `recvmsg` agrees with `recvfrom`. -/
def RecvmsgAgrees (s : InterposedSocket T) (msg : MsgHdr) (flags : UInt32) : Prop :=
  ∃ msg', RecvAgrees via s msg flags
    (s.recvfrom hash ifs via native msg.iov.flatten flags (msg.name.map (⟨·, msg.namelen⟩)))
    (s.recvmsg hash ifs via native (some msg) flags) msg'

/-- The payload fits, and the address length is right before the call. -/
def RecvmsgExact (s : InterposedSocket T) (msg : MsgHdr) (flags : UInt32) : Prop :=
  ∀ p, s.packet via flags = some p →
    p.payload.length ≤ msg.iov.flatten.length ∧
      (msg.name = none ∨ msg.namelen = addrSize native)

end Receive

/-! ### Sending -/

section Send

variable {T : Type}

/-- A send, with the errno value if it fails. -/
structure SendResult (T : Type) where
  sent : Sent T
  errno : Option ℕ

def SendResult.make (sent : Sent T) (errno : ℕ) : SendResult T :=
  ⟨sent, if sent.result.isNone then some errno else none⟩

variable [Inhabited T]
variable (hash : ScIPAddress → UInt64) (murmur32 : List UInt8 → UInt32 → UInt32)

/-- The errno value with which `send_dgram_impl` fails, if it does; `underlay` is the error of the
underlay. -/
def sendDgramErrno (s : InterposedSocket T) (ep : ScIPEndpoint) (payload : List UInt8)
    (flags : UInt32) (a : SendAnswers) (underlay : StatusCode) : ℕ :=
  match s.useCache ep a with
  | some cd =>
    if (s.getMtu cd.dst.host cd.path).1.toNat < s.headerCache.buffer.length + payload.length
    then emsgsize
    else
      match s.udp.sendToCached s.headerCache ep cd.nh payload flags with
      | .error ec => (StatusCode.scion ec).sendErrno
      | .ok _ => underlay.sendErrno
  | none =>
    match getPath a with
    | none => eio
    | some path =>
      match s.udp.measureTo ep path.view with
      | .error _ => eio
      | .ok hdrSize =>
        if (s.getMtu ep.host path).1.toNat < hdrSize + payload.length then emsgsize
        else
          let nh := (path.nextHopTo ep.localEp).toUnderlay
          match s.udp.sendTo hash murmur32 s.headerCache ep path.view nh payload flags with
          | .error ec => (StatusCode.scion ec).sendErrno
          | .ok _ => underlay.sendErrno

/-- The errno value with which `send_dgram_get_dest` fails. -/
def getDestErrno : Option SockAddr → ℕ
  | some _ => einval
  | none => edestaddrreq

def sendtoErrno (s : InterposedSocket T) (addr : Option SockAddr) (payload : List UInt8)
    (flags : UInt32) (a : SendAnswers) (underlay : StatusCode) : ℕ :=
  if flags &&& ~~~sendFlags ≠ 0 then eopnotsupp
  else
    match s.getDest addr with
    | none => getDestErrno addr
    | some ep => s.sendDgramErrno hash murmur32 ep payload flags a underlay

def sendmsgErrno (s : InterposedSocket T) (addr : Option SockAddr) (bufs : List (List UInt8))
    (flags : UInt32) (a : SendAnswers) (underlay : StatusCode) : ℕ :=
  if flags &&& ~~~sendFlags ≠ 0 then eopnotsupp
  else
    match s.getDest addr with
    | none => getDestErrno addr
    | some ep =>
      match gather bufferSize bufs with
      | none => emsgsize
      | some payload => s.sendDgramErrno hash murmur32 ep payload flags a underlay

/-- `interposer_sendto_impl` with its errno value. -/
def sendtoImpl (s : InterposedSocket T) (addr : Option SockAddr) (payload : List UInt8)
    (flags : UInt32) (a : SendAnswers) (underlay : StatusCode) : SendResult T :=
  SendResult.make (s.sendto hash murmur32 addr payload flags a)
    (s.sendtoErrno hash murmur32 addr payload flags a underlay)

/-- `interposer_sendmsg_impl` with its errno value. -/
def sendmsgImpl (s : InterposedSocket T) (addr : Option SockAddr) (bufs : List (List UInt8))
    (flags : UInt32) (a : SendAnswers) (underlay : StatusCode) : SendResult T :=
  SendResult.make (s.sendmsg hash murmur32 addr bufs flags a)
    (s.sendmsgErrno hash murmur32 addr bufs flags a underlay)

/-- What `sendmsg` is to do: a send of all the bytes if they fit the buffer, else to fail with
`EMSGSIZE`. -/
def SendmsgAgrees (s : InterposedSocket T) (addr : Option SockAddr) (bufs : List (List UInt8))
    (flags : UInt32) (a : SendAnswers) (underlay : StatusCode) : Prop :=
  let m := s.sendmsgImpl hash murmur32 addr bufs flags a underlay
  if bufs.flatten.length ≤ bufferSize then
    m = s.sendtoImpl hash murmur32 addr bufs.flatten flags a underlay
  else m.sent.result = none ∧ m.errno = some emsgsize ∧ m.sent.handed = none

end Send

/-! ### The loop over the buffers -/

/-- With nothing left, the loop leaves the buffers as they are. -/
theorem scatter_nil (bufs : List (List UInt8)) : scatter [] bufs = (bufs, 0) := by
  cases bufs with
  | nil => rfl
  | cons buf bufs =>
    rw [scatter]
    exact if_pos rfl

/-- A payload that ends in the first buffer. -/
theorem scatter_cons_of_le {payload buf : List UInt8} (h : payload.length ≤ buf.length)
    (bufs : List (List UInt8)) :
    scatter payload (buf :: bufs) = (overwrite buf 0 payload :: bufs, 0) := by
  rw [scatter]
  by_cases hpayload : payload.length = 0
  · rw [if_pos hpayload, List.length_eq_zero_iff.mp hpayload]
    simp [overwrite]
  · rw [if_neg hpayload]
    simp only [Nat.min_eq_right h, List.drop_length, List.take_length, scatter_nil]

/-- A payload that goes on behind the first buffer. -/
theorem scatter_cons_of_lt {payload buf : List UInt8} (h : buf.length < payload.length)
    (bufs : List (List UInt8)) :
    scatter payload (buf :: bufs)
      = (payload.take buf.length :: (scatter (payload.drop buf.length) bufs).1,
        (scatter (payload.drop buf.length) bufs).2) := by
  have hlen : (payload.take buf.length).length = buf.length := List.length_take_of_le h.le
  rw [scatter, if_neg (by omega)]
  simp only [Nat.min_eq_left h.le]
  rw [overwrite, List.take_zero, List.nil_append, hlen, Nat.zero_add, List.drop_length,
    List.append_nil]

/-- The buffers together hold what one buffer of their length would. -/
theorem flatten_scatter (payload : List UInt8) (bufs : List (List UInt8)) :
    (scatter payload bufs).1.flatten
      = overwrite bufs.flatten 0 (payload.take bufs.flatten.length) := by
  induction bufs generalizing payload with
  | nil => simp [scatter, overwrite]
  | cons buf bufs ih =>
    rcases Nat.lt_or_ge buf.length payload.length with hlt | hle
    · rw [scatter_cons_of_lt hlt, List.flatten_cons, ih, List.flatten_cons, List.length_append,
        List.take_add]
      have hlen : (payload.take buf.length).length = buf.length := List.length_take_of_le hlt.le
      simp only [overwrite, List.take_zero, List.nil_append, Nat.zero_add, List.append_assoc,
        List.length_append, hlen, List.drop_append, Nat.add_sub_cancel_left,
        List.drop_eq_nil_of_le (Nat.le_add_right _ _)]
    · rw [scatter_cons_of_le hle, List.flatten_cons, List.flatten_cons,
        List.take_of_length_le (by rw [List.length_append]; omega),
        overwrite_append_left buf bufs.flatten 0 payload (by omega)]

/-- What remains is what does not fit. -/
theorem remaining_scatter (payload : List UInt8) (bufs : List (List UInt8)) :
    (scatter payload bufs).2 = payload.length - bufs.flatten.length := by
  induction bufs generalizing payload with
  | nil => rfl
  | cons buf bufs ih =>
    rw [List.flatten_cons, List.length_append]
    rcases Nat.lt_or_ge buf.length payload.length with hlt | hle
    · rw [scatter_cons_of_lt hlt, ih, List.length_drop]
      omega
    · rw [scatter_cons_of_le hle]
      omega

theorem lengths_scatter (payload : List UInt8) (bufs : List (List UInt8)) :
    (scatter payload bufs).1.map List.length = bufs.map List.length := by
  induction bufs generalizing payload with
  | nil => rfl
  | cons buf bufs ih =>
    rcases Nat.lt_or_ge buf.length payload.length with hlt | hle
    · rw [scatter_cons_of_lt hlt, List.map_cons, ih, List.length_take_of_le hlt.le, List.map_cons]
    · rw [scatter_cons_of_le hle, List.map_cons, length_overwrite (by omega), List.map_cons]

/-- The bytes are gathered unless they are too many. -/
theorem gather_eq_none_iff {room : ℕ} {bufs : List (List UInt8)} :
    gather room bufs = none ↔ room < bufs.flatten.length := by
  induction bufs generalizing room with
  | nil => simp [gather]
  | cons buf bufs ih =>
    rw [gather, List.flatten_cons, List.length_append]
    by_cases hroom : room < buf.length
    · rw [if_pos hroom]
      simp only [true_iff]
      omega
    · rw [if_neg hroom, Option.map_eq_none_iff, ih]
      omega

/-! ### Receiving into many buffers -/

theorem length_image {sa : SockaddrScion} (h : sa.addr.addr.length = 16) :
    sa.image.length = 40 := by
  simp [SockaddrScion.image, leBytes, h]

section Receive

variable {T : Type} {hash : ScIPAddress → UInt64} {ifs : NetInterfaces} {via : RecvFromVia}
variable {native : Bool} {s : InterposedSocket T} {msg : MsgHdr} {flags : UInt32}

/-- The length of an address only depends on the family of the socket. -/
theorem length_sourceImage (surrogates : AddressSurrogates) (source : ScIPEndpoint) :
    (sourceImage hash ifs native surrogates source).1.length = addrSize native := by
  rw [sourceImage, addrSize]
  cases native with
  | true =>
    rw [if_pos rfl, if_pos rfl]
    refine length_image ?_
    rw [endpointCast, addrCast, List.length_append, IPAddress.length_bytes,
      List.length_replicate, IPAddress.size]
    split_ifs <;> rfl
  | false => simp [sockaddrIn6Image, leBytes]

theorem recvDgram_of_error {ec : StatusCode} {udp : ScionPackager}
    (h : via s.udp bufferSize flags = (.error ec, udp)) (name : Option AddrBuffer) :
    s.recvDgram hash ifs via native flags name = ⟨.error ec, name, { s with udp := udp }⟩ := by
  rw [recvDgram, h]

variable (hash ifs native) in
/-- With a buffer for it, the length of the address is that of the family. -/
theorem recvDgram_of_ok {r : ReceivedFrom} {udp : ScionPackager}
    (h : via s.udp bufferSize flags = (.ok r, udp)) (name : Option AddrBuffer) :
    (s.recvDgram hash ifs via native flags name).payload = .ok r.payload ∧
      (s.recvDgram hash ifs via native flags name).name.map AddrBuffer.len
        = name.map fun _ => addrSize native := by
  rw [recvDgram, h]
  cases name with
  | none => exact ⟨rfl, rfl⟩
  | some b => exact ⟨rfl, congrArg some (length_sourceImage s.surrogates r.source)⟩

theorem packet_of_unsupported (h : flags &&& ~~~recvFlags ≠ 0) : s.packet via flags = none := by
  rw [packet, if_pos h]

theorem packet_of_supported (h : flags &&& ~~~recvFlags = 0) :
    s.packet via flags = (via s.udp bufferSize (flags &&& ~~~msgTrunc)).1.toOption := by
  rw [packet, if_neg (not_not.mpr h)]

section Received

variable {payload : List UInt8} {name name' : Option AddrBuffer} {s' : InterposedSocket T}

theorem recvfrom_of_ok (hflags : flags &&& ~~~recvFlags = 0)
    (hd : s.recvDgram hash ifs via native (flags &&& ~~~msgTrunc) name = ⟨.ok payload, name', s'⟩)
    (buf : List UInt8) :
    s.recvfrom hash ifs via native buf flags name
      = ⟨.ok (if flags &&& msgTrunc ≠ 0 then payload.length else min buf.length payload.length),
        overwrite buf 0 (payload.take buf.length), name', s'⟩ := by
  rw [recvfrom, if_neg (not_not.mpr hflags), hd]
  dsimp only
  rw [← List.take_eq_take_min]

theorem recvmsg_of_ok (hflags : flags &&& ~~~recvFlags = 0)
    (hd : s.recvDgram hash ifs via native (flags &&& ~~~msgTrunc)
      (msg.name.map (AddrBuffer.mk · msg.namelen)) = ⟨.ok payload, name', s'⟩) :
    s.recvmsg hash ifs via native (some msg) flags
      = ⟨.ok (if flags &&& msgTrunc ≠ 0 then payload.length
          else min msg.iov.flatten.length payload.length),
        some ⟨name'.map AddrBuffer.bytes, msg.namelen, (scatter payload msg.iov).1, none, 0⟩,
        s'⟩ := by
  rw [recvmsg, if_neg (not_not.mpr hflags), hd]
  dsimp only
  have hcount : payload.length - (scatter payload msg.iov).2
      = min msg.iov.flatten.length payload.length := by
    rw [remaining_scatter]
    omega
  rw [hcount]

end Received

/-- Without a packet, both calls fail with the same errno value and store nothing. -/
theorem recvmsgAgrees_of_packet_eq_none (h : s.packet via flags = none) :
    RecvmsgAgrees hash ifs via native s msg flags := by
  have htrunc : ∀ msg' : MsgHdr, ∀ p, s.packet via flags = some p →
      (msg'.flags &&& msgTrunc ≠ 0 ↔ msg.iov.flatten.length < p.payload.length) := by
    intro msg' p hp
    rw [h] at hp
    cases hp
  -- what `recvfrom` is given comes back
  have hname : msg.name = (msg.name.map (AddrBuffer.mk · msg.namelen)).map AddrBuffer.bytes := by
    cases msg.name with
    | none => rfl
    | some bytes => rfl
  have hnamelen : msg.namelen
      = ((msg.name.map (AddrBuffer.mk · msg.namelen)).map AddrBuffer.len).getD msg.namelen := by
    cases msg.name with
    | none => rfl
    | some bytes => rfl
  refine ⟨msg, ?_⟩
  by_cases hflags : flags &&& ~~~recvFlags ≠ 0
  · rw [recvfrom, recvmsg, if_pos hflags, if_pos hflags]
    exact ⟨rfl, rfl, rfl, rfl, rfl, hname, hnamelen, htrunc msg⟩
  · rw [packet_of_supported (not_not.mp hflags)] at h
    rcases hvia : via s.udp bufferSize (flags &&& ~~~msgTrunc) with ⟨ec | r, udp⟩
    · rw [recvfrom, recvmsg, if_neg hflags, if_neg hflags, recvDgram_of_error hvia]
      dsimp only
      rw [← hname]
      exact ⟨rfl, rfl, rfl, rfl, rfl, hname, hnamelen, htrunc msg⟩
    · rw [hvia] at h
      cases h

/-- With a packet, all agrees but the length of the address and the flags. -/
theorem recvmsgAgrees_iff_of_packet {p : ReceivedFrom} (h : s.packet via flags = some p) :
    RecvmsgAgrees hash ifs via native s msg flags ↔
      p.payload.length ≤ msg.iov.flatten.length ∧
        (msg.name = none ∨ msg.namelen = addrSize native) := by
  have hflags : flags &&& ~~~recvFlags = 0 := by
    by_contra hflags
    rw [packet_of_unsupported hflags] at h
    cases h
  have hpacket : s.packet via flags
      = (via s.udp bufferSize (flags &&& ~~~msgTrunc)).1.toOption := packet_of_supported hflags
  rw [h] at hpacket
  rcases hvia : via s.udp bufferSize (flags &&& ~~~msgTrunc) with ⟨ec | r, udp⟩
  · rw [hvia] at hpacket
    cases hpacket
  rw [hvia] at hpacket
  cases hpacket
  rcases hd : s.recvDgram hash ifs via native (flags &&& ~~~msgTrunc)
    (msg.name.map (AddrBuffer.mk · msg.namelen)) with ⟨payload, name, s'⟩
  obtain ⟨hpayload, hlen⟩ := recvDgram_of_ok hash ifs native hvia
    (msg.name.map (AddrBuffer.mk · msg.namelen))
  rw [hd] at hpayload hlen
  cases hpayload
  -- the length that `recvfrom` reports
  have hnamelen : msg.namelen = (name.map AddrBuffer.len).getD msg.namelen ↔
      (msg.name = none ∨ msg.namelen = addrSize native) := by
    rw [hlen]
    cases msg.name with
    | none => simp
    | some bytes => simp
  rw [RecvmsgAgrees, recvfrom_of_ok hflags hd, recvmsg_of_ok hflags hd, ← hnamelen, ← not_lt]
  constructor
  · rintro ⟨msg', hagrees⟩
    obtain rfl := Option.some.inj hagrees.returned
    refine ⟨fun hlt => ?_, hagrees.namelen⟩
    -- `recvmsg` clears the flags, so it cannot tell of a payload that is cut off
    have htrunc := (hagrees.truncated p h).mpr hlt
    exact htrunc (UInt32.zero_and)
  · rintro ⟨hfits, hname⟩
    refine ⟨_, rfl, rfl, rfl, flatten_scatter p.payload msg.iov,
      lengths_scatter p.payload msg.iov, rfl, hname, fun p' hp' => ?_⟩
    rw [h] at hp'
    cases hp'
    exact iff_of_false (not_not.mpr UInt32.zero_and) hfits

/-- For every packet, `recvmsg` agrees with `recvfrom` exactly if the payload fits and the length
of the address is right before the call. -/
theorem recvmsgAgrees_iff :
    RecvmsgAgrees hash ifs via native s msg flags ↔ RecvmsgExact via native s msg flags := by
  cases h : s.packet via flags with
  | none =>
    refine iff_of_true (recvmsgAgrees_of_packet_eq_none h) fun p hp => ?_
    rw [h] at hp
    cases hp
  | some p =>
    rw [recvmsgAgrees_iff_of_packet h, RecvmsgExact, h]
    constructor
    · rintro hexact p' hp'
      cases hp'
      exact hexact
    · intro hexact
      exact hexact p rfl

end Receive

/-! ### Sending from many buffers -/

section Send

variable {T : Type} [Inhabited T] {hash : ScIPAddress → UInt64}
variable {murmur32 : List UInt8 → UInt32 → UInt32} {s : InterposedSocket T}
variable {addr : Option SockAddr} {bufs : List (List UInt8)} {flags : UInt32} {a : SendAnswers}
variable {underlay : StatusCode}

/-- Bytes that fit are sent as by `sendto`. -/
theorem sendmsgImpl_of_le (h : bufs.flatten.length ≤ bufferSize) :
    s.sendmsgImpl hash murmur32 addr bufs flags a underlay
      = s.sendtoImpl hash murmur32 addr bufs.flatten flags a underlay := by
  cases hgather : gather bufferSize bufs with
  | none => exact absurd (gather_eq_none_iff.mp hgather) (not_lt.mpr h)
  | some payload =>
    cases gather_eq_flatten hgather
    have hsent : s.sendmsg hash murmur32 addr bufs flags a
        = s.sendto hash murmur32 addr bufs.flatten flags a := by
      rw [sendmsg_eq, if_neg (by rw [hgather]; exact Option.some_ne_none _)]
    have herrno : s.sendmsgErrno hash murmur32 addr bufs flags a underlay
        = s.sendtoErrno hash murmur32 addr bufs.flatten flags a underlay := by
      rw [sendmsgErrno, hgather, sendtoErrno]
    rw [sendmsgImpl, sendtoImpl, hsent, herrno]

/-- Bytes that do not fit are not sent. -/
theorem sendmsgImpl_of_lt (h : bufferSize < bufs.flatten.length) :
    s.sendmsgImpl hash murmur32 addr bufs flags a underlay
      = ⟨⟨none, none, s⟩, some (s.sendmsgErrno hash murmur32 addr bufs flags a underlay)⟩ := by
  rw [sendmsgImpl, sendmsg_eq, if_pos (gather_eq_none_iff.mpr h)]
  rfl

/-- The errno value for them is `EMSGSIZE`, behind the checks of the flags and the address. -/
theorem sendmsgErrno_eq_emsgsize_iff (h : bufferSize < bufs.flatten.length) :
    s.sendmsgErrno hash murmur32 addr bufs flags a underlay = emsgsize ↔
      flags &&& ~~~sendFlags = 0 ∧ (s.getDest addr).isSome := by
  rw [sendmsgErrno, gather_eq_none_iff.mpr h]
  by_cases hflags : flags &&& ~~~sendFlags = 0
  · rw [if_neg (not_not.mpr hflags)]
    cases s.getDest addr with
    | none =>
      cases addr with
      | none => simp [getDestErrno, edestaddrreq, emsgsize]
      | some addr => simp [getDestErrno, einval, emsgsize]
    | some ep => simp [hflags]
  · rw [if_pos hflags]
    simp [hflags, eopnotsupp, emsgsize]

theorem sendmsgAgrees_iff :
    SendmsgAgrees hash murmur32 s addr bufs flags a underlay ↔
      bufs.flatten.length ≤ bufferSize ∨
        flags &&& ~~~sendFlags = 0 ∧ (s.getDest addr).isSome := by
  rw [SendmsgAgrees]
  by_cases hfits : bufs.flatten.length ≤ bufferSize
  · rw [if_pos hfits, sendmsgImpl_of_le hfits]
    exact iff_of_true rfl (Or.inl hfits)
  · have hlt : bufferSize < bufs.flatten.length := not_le.mp hfits
    rw [if_neg hfits, sendmsgImpl_of_lt hlt, Option.some_inj, sendmsgErrno_eq_emsgsize_iff hlt,
      or_iff_right hfits]
    constructor
    · rintro ⟨-, hchecks, -⟩
      exact hchecks
    · intro hchecks
      exact ⟨rfl, hchecks, rfl⟩

end Send

/-- `recvmsg` agrees with `recvfrom` exactly if no packet is received, or one that fits with the
length of its address in the header, and `sendmsg` with `sendto` exactly if the bytes fit or the
checks before succeed. -/
theorem scatterGather_agrees_iff {T : Type} [Inhabited T] (hash : ScIPAddress → UInt64)
    (murmur32 : List UInt8 → UInt32 → UInt32) (ifs : NetInterfaces) (via : RecvFromVia)
    (native : Bool) (s : InterposedSocket T) :
    (∀ msg flags, RecvmsgAgrees hash ifs via native s msg flags ↔
      RecvmsgExact via native s msg flags) ∧
    (∀ addr bufs flags a underlay, SendmsgAgrees hash murmur32 s addr bufs flags a underlay ↔
      bufs.flatten.length ≤ bufferSize ∨
        flags &&& ~~~sendFlags = 0 ∧ (s.getDest addr).isSome) :=
  ⟨fun _ _ => recvmsgAgrees_iff, fun _ _ _ _ _ => sendmsgAgrees_iff⟩

/-- A packet with the payload is received from a host. -/
def gets (payload : List UInt8) : RecvFromVia := fun udp _ _ =>
  (.ok ⟨payload, RoundTrip.endpoint 2 5000⟩, udp)

def unused : InterposedSocket ℕ :=
  created (PathMtuDiscoverer.make ℕ 1400 8) AddressSurrogates.empty

/-- The length of the address stays that of the memory for it, and nothing tells that a byte is
missing. -/
theorem not_forall_recvmsgAgrees :
    ¬RecvmsgAgrees (fun _ => 0) hostInterfaces (gets [1, 2, 3, 4]) true unused
      ⟨some (List.replicate 128 0), 128, [[0, 0], [], [0, 0]], none, 0⟩ 0 ∧
    ¬RecvmsgAgrees (fun _ => 0) hostInterfaces (gets [1, 2]) true unused
      ⟨none, 0, [[0]], none, 0⟩ 0 := by
  rw [recvmsgAgrees_iff, recvmsgAgrees_iff]
  constructor
  · intro hexact
    obtain ⟨-, hname | hnamelen⟩ := hexact _ rfl
    · cases hname
    · exact absurd hnamelen (by decide)
  · intro hexact
    exact absurd (hexact _ rfl).1 (by decide)

end InterposedSocket

end Scion
