/-
Sending on interposed UDP sockets (`interposer/src/interposer.cpp`,
`interposer/src/interposer.hpp`).

A socket keeps the headers of the last datagram and the destination they are for. While the
selector agrees, the next datagram to it is sent with the same headers.

* `InterposedSocket`, with `bind`, `connect` and `sendDgram`, the calls of the source;
* `ScIPEndpoint.sourceOn`, `Delivers` — the source address on a path, and what a datagram
  is to be;
* `CachedFor` — the cached headers are those of the last destination;
* `sends_delivers` — in every run the datagrams are those that were asked for.
-/
import Scion.PathMtu
import Scion.Surrogates
import Scion.UdpSocket

namespace Scion

open BigEndian Codec HeaderCache Runs

/-! ### Paths and endpoints -/

namespace Path

/-- What sending a packet uses of the path. -/
def view (path : Path) : PathView := ⟨path.source, path.type, path.path⟩

/-- `nextHop` with the destination, which packets with empty paths are sent to directly. -/
def nextHopTo (path : Path) (dst : IPEndpoint) : IPEndpoint :=
  if path.type == PathType.empty then dst else path.nextHop

end Path

namespace IPEndpoint

def isFullySpecified (ep : IPEndpoint) : Bool := !ep.host.isUnspecified && ep.port != 0

/-- `toUnderlay`, which does not take the zone along. -/
def toUnderlay (ep : IPEndpoint) : IPEndpoint := ⟨ep.host.withoutZone, ep.port⟩

end IPEndpoint

namespace ScIPEndpoint

def isFullySpecified (ep : ScIPEndpoint) : Bool :=
  !ep.isdAsn.isUnspecified && !ep.host.isUnspecified && ep.port != 0

/-- The source address of packets from a local endpoint; without an ISD-ASN of its own it
is in the first AS of the path. -/
def sourceOn (own : ScIPEndpoint) (path : Path) : ScIPEndpoint :=
  ⟨if own.isdAsn.isUnspecified then path.source else own.isdAsn, own.localEp⟩

end ScIPEndpoint

section Measure

variable {S : Type} [ExtensionClass S]

/-- The size of the SCION and L4 headers. -/
def measureHeader (dst src : ScIPEndpoint) (path : PathView) (exts : List (Extension S))
    (l4 : L4Header) : ℕ :=
  12 + dst.address.size + src.address.size + path.size + (computeExtSize exts).1
    + (computeExtSize exts).2 + l4.size

namespace ScionPackager

def measure (p : ScionPackager) (dst : Option ScIPEndpoint) (path : PathView)
    (exts : List (Extension S)) (l4 : L4Header) : Maybe ℕ := do
  let src ← p.getSourceAddress path
  let dst := dst.getD p.remote
  if !dst.address.isFullySpecified then .error .invalidArgument
  else .ok (measureHeader dst src path exts l4)

def measureTo (p : ScionPackager) (dst : ScIPEndpoint) (path : PathView) : Maybe ℕ :=
  p.measure (some dst) path ([] : List (Extension PlainOption)) (.udp ⟨0, 0, 0, 0⟩)

end ScionPackager

end Measure

/-! ### Sockets -/

structure CachedDestination where
  dst : ScIPEndpoint
  nh : IPEndpoint
  path : Path

/-- A socket, with the MTUs and surrogates that all sockets of the process share. -/
structure InterposedSocket (T : Type) where
  lastDest : Option CachedDestination
  headerCache : HeaderCache
  udp : ScionPackager
  pmtu : PathMtuDiscoverer T
  surrogates : AddressSurrogates

/-- What binding takes from the configuration and the control plane; `inet6` is the family
of the socket and `internal4` that of the network of the AS. -/
structure BindConfig where
  isdAsn : IsdAsn
  inet6 : Bool
  internal4 : Bool
  defaultIPv4 : Option IPAddress
  defaultIPv6 : Option IPAddress

/-- What the system returns while a socket is bound: from `get_bound_addr` before and after,
from `bind_range` and from `findLocalAddress`. -/
structure BindAnswers where
  own : Maybe IPEndpoint
  bound : ErrorCode
  found : Maybe IPEndpoint
  ownAfter : Maybe IPEndpoint

/-- What a send learns: from the path cache, from the selector, which returns one of the
paths or none, and from the underlay. `leftover` are the headers after a failure to build
them. -/
structure SendAnswers where
  selectCached : Bool
  paths : Maybe (List Path)
  selectPath : Option ℕ
  accepted : Bool
  leftover : HeaderCache

namespace InterposedSocket

/-! ### Binding and connecting -/

section Bind

variable (cfg : BindConfig)

/-- The address of `bind_default_scion`. -/
def defaultAddr : IPAddress :=
  if !cfg.inet6 then cfg.defaultIPv4.getD (.v4 0)
  else if cfg.internal4 then (cfg.defaultIPv4.getD (.v4 0)).map4in6
  else cfg.defaultIPv6.getD (.v6 0 0 "")

/-- `bind_default_scion`. -/
def bindDefault (udp : ScionPackager) (a : BindAnswers) : Bool × ScionPackager :=
  match a.own with
  | .error _ => (false, udp)
  | .ok own =>
    if !own.host.isUnspecified || own.port != 0 then
      let (ec, udp) := udp.setUnmappedLocalEp ⟨cfg.isdAsn, own⟩
      (ec == .ok, udp)
    else
      let (ec, udp) := udp.bind ⟨cfg.isdAsn, ⟨defaultAddr cfg, 0⟩⟩ a.bound a.found
      (ec == .ok && a.ownAfter.isOk, udp)

variable {T : Type}

/-- The rest of `interposer_bind` for an address in this AS. -/
def bindTo (s : InterposedSocket T) (ep : ScIPEndpoint) (a : BindAnswers) :
    Bool × InterposedSocket T :=
  let (ec, udp) := s.udp.bind ep a.bound a.found
  if ec ≠ .ok then (false, { s with udp := udp })
  else (a.ownAfter.isOk, { s with udp := udp, lastDest := none })

/-- `interposer_bind` of a socket. -/
def bind (s : InterposedSocket T) (addr : SockAddr) (a : BindAnswers) :
    Bool × InterposedSocket T :=
  match addr with
  | .scion ep =>
    if !ep.isdAsn.isUnspecified && ep.isdAsn != cfg.isdAsn then (false, s)
    -- an IPv6 socket is bound to a v4-mapped address
    else if ep.host.is4 && cfg.inet6 then
      s.bindTo ⟨ep.isdAsn, ⟨ep.host.map4in6, ep.port⟩⟩ a
    else s.bindTo ep a
  | _ => (false, s)

/-- `interposer_connect` of a socket. -/
def connect (s : InterposedSocket T) (addr : SockAddr) (a : BindAnswers) :
    Bool × InterposedSocket T :=
  match s.surrogates.sockaddrToScion addr with
  | none => (false, s)
  | some ep =>
    let (ok, udp) :=
      if !s.udp.localEp.localEp.isFullySpecified then bindDefault cfg s.udp a else (true, s.udp)
    if !ok then (false, { s with udp := udp })
    else
      let (ec, udp) := udp.setRemoteEp ep
      if ec ≠ .ok then (false, { s with udp := udp })
      else (true, { s with udp := udp, lastDest := none })

end Bind

/-! ### Sending -/

section Send

variable {T : Type} [Inhabited T]
variable (hash : ScIPAddress → UInt64) (murmur32 : List UInt8 → UInt32 → UInt32)

/-- `send_dgram_get_dest`; no address stands for the connected endpoint. -/
def getDest (s : InterposedSocket T) : Option SockAddr → Option ScIPEndpoint
  | some addr => s.surrogates.sockaddrToScion addr
  | none => if s.udp.remote.isFullySpecified then some s.udp.remote else none

/-- `get_path`. -/
def getPath (a : SendAnswers) : Option Path :=
  match a.paths with
  | .error _ => none
  | .ok paths => if paths.isEmpty then none else a.selectPath.bind fun i => paths[i]?

/-- The MTU of a host and path. -/
def getMtu (s : InterposedSocket T) (host : IPAddress) (path : Path) :
    UInt16 × PathMtuDiscoverer T :=
  s.pmtu.getMtuOfPath ⟨⟨path.destination, host⟩, path.digest⟩ path.mtu default

/-- What a send returns, what it hands to the underlay and the socket after it. -/
structure Sent (T : Type) where
  result : Option ℕ
  handed : Option Transmission
  socket : InterposedSocket T

/-- The last destination, if its headers are to be used. -/
def useCache (s : InterposedSocket T) (ep : ScIPEndpoint) (a : SendAnswers) :
    Option CachedDestination :=
  s.lastDest.filter fun cd => cd.dst == ep && a.selectCached

/-- `send_dgram_impl` with cached headers. -/
def sendDgramCached (s : InterposedSocket T) (cd : CachedDestination) (ep : ScIPEndpoint)
    (payload : List UInt8) (flags : UInt32) (a : SendAnswers) : Sent T :=
  let (mtu, pmtu) := s.getMtu cd.dst.host cd.path
  let s := { s with pmtu := pmtu }
  if mtu.toNat < s.headerCache.buffer.length + payload.length then ⟨none, none, s⟩
  else
    match s.udp.sendToCached s.headerCache ep cd.nh payload flags with
    | .error _ => ⟨none, none, { s with headerCache := a.leftover }⟩
    | .ok (headers, t) =>
      ⟨if a.accepted then some payload.length else none, some t,
        { s with headerCache := headers }⟩

/-- `send_dgram_impl` with a path from the selector. -/
def sendDgramVia (s : InterposedSocket T) (path : Path) (ep : ScIPEndpoint)
    (payload : List UInt8) (flags : UInt32) (a : SendAnswers) : Sent T :=
  let (mtu, pmtu) := s.getMtu ep.host path
  let s := { s with pmtu := pmtu }
  match s.udp.measureTo ep path.view with
  | .error _ => ⟨none, none, s⟩
  | .ok hdrSize =>
    if mtu.toNat < hdrSize + payload.length then ⟨none, none, s⟩
    else
      let nh := (path.nextHopTo ep.localEp).toUnderlay
      match s.udp.sendTo hash murmur32 s.headerCache ep path.view nh payload flags with
      | .error _ => ⟨none, none, { s with headerCache := a.leftover, lastDest := none }⟩
      | .ok (headers, t) =>
        ⟨if a.accepted then some payload.length else none, some t,
          { s with
            headerCache := headers
            lastDest := if a.accepted then some ⟨ep, nh, path⟩ else none }⟩

/-- `send_dgram_impl`. -/
def sendDgram (s : InterposedSocket T) (ep : ScIPEndpoint) (payload : List UInt8)
    (flags : UInt32) (a : SendAnswers) : Sent T :=
  match s.useCache ep a with
  | some cd => s.sendDgramCached cd ep payload flags a
  | none =>
    match getPath a with
    | none => ⟨none, none, s⟩
    | some path => s.sendDgramVia hash murmur32 path ep payload flags a

/-- `interposer_sendto_impl`; the flags that are supported are those of the underlay. -/
def sendto (s : InterposedSocket T) (addr : Option SockAddr) (payload : List UInt8)
    (flags : UInt32) (a : SendAnswers) : Sent T :=
  if flags &&& ~~~sendFlags ≠ 0 then ⟨none, none, s⟩
  else
    match s.getDest addr with
    | none => ⟨none, none, s⟩
    | some ep => s.sendDgram hash murmur32 ep payload flags a

/-- `SCION_BUFFER_SIZE`. -/
def bufferSize : ℕ := 9000

/-- The payload of `interposer_sendmsg_impl`, if there is room for it. -/
def gather (room : ℕ) : List (List UInt8) → Option (List UInt8)
  | [] => some []
  | buf :: bufs =>
    if room < buf.length then none else (gather (room - buf.length) bufs).map (buf ++ ·)

/-- `interposer_sendmsg_impl`. -/
def sendmsg (s : InterposedSocket T) (addr : Option SockAddr) (bufs : List (List UInt8))
    (flags : UInt32) (a : SendAnswers) : Sent T :=
  if flags &&& ~~~sendFlags ≠ 0 then ⟨none, none, s⟩
  else
    match s.getDest addr with
    | none => ⟨none, none, s⟩
    | some ep =>
      match gather bufferSize bufs with
      | none => ⟨none, none, s⟩
      | some payload => s.sendDgram hash murmur32 ep payload flags a

end Send

end InterposedSocket

/-- Calls on a socket. A native socket is promoted by its first datagram to a SCION address;
promoted by another call, it is as if it had been interposed before. The MTUs and surrogates
also change elsewhere. -/
inductive SocketCall (T : Type)
  | promote (a : BindAnswers)
  | bind (addr : SockAddr) (a : BindAnswers)
  | connect (addr : SockAddr) (a : BindAnswers)
  | sendto (addr : Option SockAddr) (payload : List UInt8) (flags : UInt32) (a : SendAnswers)
  | sendmsg (addr : Option SockAddr) (bufs : List (List UInt8)) (flags : UInt32)
      (a : SendAnswers)
  | elsewhere (pmtu : PathMtuDiscoverer T) (surrogates : AddressSurrogates)

namespace SocketCall

variable {T : Type}

/-- The destination, payload and answers of a datagram. -/
def datagram? : SocketCall T → Option (Option SockAddr × List UInt8 × SendAnswers)
  | .sendto addr payload _ a => some (addr, payload, a)
  | .sendmsg addr bufs _ a => some (addr, bufs.flatten, a)
  | _ => none

end SocketCall

namespace InterposedSocket

variable {T : Type}

/-- A socket that no call has been made on. -/
def created (pmtu : PathMtuDiscoverer T) (surrogates : AddressSurrogates) :
    InterposedSocket T :=
  ⟨none, HeaderCache.init, ScionPackager.init, pmtu, surrogates⟩

variable (cfg : BindConfig)
variable (hash : ScIPAddress → UInt64) (murmur32 : List UInt8 → UInt32 → UInt32)

section Step

variable [Inhabited T]

def step (s : InterposedSocket T) : SocketCall T → Option (InterposedSocket T)
  | .promote a =>
    if s.udp = ScionPackager.init then some { s with udp := (bindDefault cfg s.udp a).2 }
    else none
  | .bind addr a => some (s.bind cfg addr a).2
  | .connect addr a => some (s.connect cfg addr a).2
  | .sendto addr payload flags a => some (s.sendto hash murmur32 addr payload flags a).socket
  | .sendmsg addr bufs flags a => some (s.sendmsg hash murmur32 addr bufs flags a).socket
  | .elsewhere pmtu surrogates => some { s with pmtu := pmtu, surrogates := surrogates }

/-- What a call hands to the underlay. -/
def handed (s : InterposedSocket T) : SocketCall T → Option Transmission
  | .sendto addr payload flags a => (s.sendto hash murmur32 addr payload flags a).handed
  | .sendmsg addr bufs flags a => (s.sendmsg hash murmur32 addr bufs flags a).handed
  | _ => none

end Step

/-! ### What is to be sent -/

/-- The bytes are freshly built headers but for the flow label. -/
def FreshHeaders (tc : UInt8) (dst src : ScIPEndpoint) (path : PathView)
    (payload bytes : List UInt8) : Prop :=
  ∃ fresh l4, HeaderCache.init.build hash murmur32 tc dst src path
      ([] : List (Extension PlainOption)) (.udp ⟨0, 0, 0, 0⟩) payload = .ok (fresh, l4) ∧
    SameButFlowLabel bytes fresh.buffer

/-- The cached headers are those of the destination, on its path and from the local
endpoint. -/
structure CachedFor (udp : ScionPackager) (headers : HeaderCache) (cd : CachedDestination) :
    Prop where
  bound : udp.localEp.localEp.isFullySpecified = true
  holds : Holds headers udp.trafficClass cd.dst (udp.localEp.sourceOn cd.path) cd.path.view
  fresh : ∃ payload, FreshHeaders hash murmur32 udp.trafficClass cd.dst
    (udp.localEp.sourceOn cd.path) cd.path.view payload headers.buffer
  nh : cd.nh = (cd.path.nextHopTo cd.dst.localEp).toUnderlay

/-- The selector agreed to the path, which it was asked about as the cached one or among those
of the path cache. -/
def Approved (s : InterposedSocket T) (ep : ScIPEndpoint) (a : SendAnswers) (path : Path) : Prop :=
  (∃ cd, s.lastDest = some cd ∧ cd.dst = ep ∧ cd.path = path ∧ a.selectCached = true) ∨
    ∃ paths i, a.paths = .ok paths ∧ a.selectPath = some i ∧ paths[i]? = some path

/-- The datagram for a destination, on a path and from the local endpoint. -/
structure Delivers [Inhabited T] (s : InterposedSocket T) (ep : ScIPEndpoint) (path : Path)
    (payload : List UInt8) (t : Transmission) : Prop where
  headers : FreshHeaders hash murmur32 s.udp.trafficClass ep (s.udp.localEp.sourceOn path)
    path.view payload t.headers
  payload : t.payload = payload
  nextHop : t.nextHop = (path.nextHopTo ep.localEp).toUnderlay
  size : t.datagram.length ≤ (s.getMtu ep.host path).1.toNat

variable {hash murmur32} {tc : UInt8} {dst src : ScIPEndpoint} {path : PathView}
  {payload bytes : List UInt8} {headers headers' : HeaderCache}

/-! ### Fresh headers -/

/-- Headers do not depend on what the cache held before. -/
theorem build_init {r : HeaderCache × L4Header}
    (h : headers.build hash murmur32 tc dst src path ([] : List (Extension PlainOption))
      (.udp ⟨0, 0, 0, 0⟩) payload = .ok r) :
    HeaderCache.init.build hash murmur32 tc dst src path ([] : List (Extension PlainOption))
      (.udp ⟨0, 0, 0, 0⟩) payload = .ok r := by
  have hemits : EmitsOptions ([] : List (Extension PlainOption)) (extPos dst src path) [] [] :=
    (emits_invalid (by simp) _).2
  exact (build_eq_ok_iff hemits).mpr ((build_eq_ok_iff hemits).mp h)

theorem length_build {fresh : HeaderCache} {l4 : L4Header}
    (h : headers.build hash murmur32 tc dst src path ([] : List (Extension PlainOption))
      (.udp ⟨0, 0, 0, 0⟩) payload = .ok (fresh, l4)) :
    fresh.buffer.length = extPos dst src path + 8 := by
  have hemits : EmitsOptions ([] : List (Extension PlainOption)) (extPos dst src path) [] [] :=
    (emits_invalid (by simp) _).2
  obtain ⟨-, -, -, hr⟩ := (build_eq_ok_iff hemits).mp h
  cases hr
  rw [length_headerBytes hemits, size_sentL4]
  rfl

theorem freshHeaders_build {fresh : HeaderCache} {l4 : L4Header}
    (h : headers.build hash murmur32 tc dst src path ([] : List (Extension PlainOption))
      (.udp ⟨0, 0, 0, 0⟩) payload = .ok (fresh, l4)) :
    FreshHeaders hash murmur32 tc dst src path payload fresh.buffer :=
  ⟨fresh, l4, build_init h, rfl, rfl⟩

theorem FreshHeaders.length (h : FreshHeaders hash murmur32 tc dst src path payload bytes)
    (hlen : 4 ≤ bytes.length) : bytes.length = extPos dst src path + 8 := by
  obtain ⟨fresh, l4, hbuild, -, hdrop⟩ := h
  have hfresh := length_build hbuild
  have hrest := congrArg List.length hdrop
  rw [List.length_drop, List.length_drop] at hrest
  have hpos : 12 ≤ extPos dst src path := by
    rw [extPos]
    omega
  omega

section Packager

variable {udp : ScionPackager} {nh : IPEndpoint} {flags : UInt32} {t : Transmission}

/-- Without a mapping the source address is the local one. -/
theorem getSourceAddress_eq {path : Path} (hmapped : udp.mapped = udp.localEp)
    (h : udp.getSourceAddress path.view = .ok src) : src = udp.localEp.sourceOn path := by
  rw [ScionPackager.getSourceAddress, hmapped] at h
  by_cases hnone : udp.localEp.isdAsn.isUnspecified = true
  · rw [if_pos hnone] at h
    cases h
    rw [ScIPEndpoint.sourceOn, if_pos hnone]
    rfl
  · rw [if_neg hnone] at h
    split_ifs at h
    cases h
    rw [ScIPEndpoint.sourceOn, if_neg hnone]

theorem measureTo_eq {path : Path} {n : ℕ} (hmapped : udp.mapped = udp.localEp)
    (h : udp.measureTo dst path.view = .ok n) :
    n = extPos dst (udp.localEp.sourceOn path) path.view + 8 := by
  rw [ScionPackager.measureTo, ScionPackager.measure] at h
  rcases hsrc : udp.getSourceAddress path.view with ec | src
  · rw [hsrc] at h
    cases h
  · rw [hsrc] at h
    simp only [Bind.bind, Except.bind, Option.getD_some] at h
    split_ifs at h
    cases h
    rw [getSourceAddress_eq hmapped hsrc]
    rfl

/-- A full send leaves fresh headers for its destination and path. -/
theorem cachedFor_of_sendTo {path : Path} (hmapped : udp.mapped = udp.localEp)
    (h : udp.sendTo hash murmur32 headers dst path.view (path.nextHopTo dst.localEp).toUnderlay
      payload flags = .ok (headers', t)) :
    t = ⟨headers'.buffer, payload, (path.nextHopTo dst.localEp).toUnderlay, flags⟩ ∧
      FreshHeaders hash murmur32 udp.trafficClass dst (udp.localEp.sourceOn path) path.view payload
        headers'.buffer ∧
      CachedFor hash murmur32 udp headers'
        ⟨dst, (path.nextHopTo dst.localEp).toUnderlay, path⟩ := by
  obtain ⟨src, hsrc, hholds, hhost, hport, -⟩ := ScionPackager.holds_of_sendBuilt h
  cases getSourceAddress_eq hmapped hsrc
  rw [ScionPackager.sendTo, ScionPackager.sendBuilt] at h
  split_ifs at h
  rcases hpack : udp.pack hash murmur32 headers (some dst) path.view
    ([] : List (Extension PlainOption)) (.udp ⟨0, 0, 0, 0⟩) payload with ec | ⟨built, l4⟩
  · rw [hpack] at h
    cases h
  · rw [hpack] at h
    cases h
    obtain ⟨-, -, -, src', hsrc', hbuild⟩ := ScionPackager.pack_eq_ok_iff.mp hpack
    cases getSourceAddress_eq hmapped hsrc'
    have hfresh := freshHeaders_build hbuild
    refine ⟨rfl, hfresh, ?_, hholds, ⟨payload, hfresh⟩, rfl⟩
    rw [IPEndpoint.isFullySpecified, Bool.and_eq_true, Bool.not_eq_true', bne_iff_ne]
    exact ⟨hhost, hport⟩

/-- A send with the cached headers is that of a fresh build. -/
theorem CachedFor.of_sendToCached {cd : CachedDestination}
    (hcached : CachedFor hash murmur32 udp headers cd)
    (h : udp.sendToCached headers cd.dst nh payload flags = .ok (headers', t)) :
    t = ⟨headers'.buffer, payload, nh, flags⟩ ∧
      FreshHeaders hash murmur32 udp.trafficClass cd.dst (udp.localEp.sourceOn cd.path)
        cd.path.view payload headers'.buffer ∧
      CachedFor hash murmur32 udp headers' cd := by
  have hholds := ScionPackager.holds_of_sendUpdated hcached.holds h
  rw [ScionPackager.sendToCached, ScionPackager.sendUpdated] at h
  split_ifs at h
  rcases hupdate : ScionPackager.packUpdate headers
    (.udp ⟨udp.localEp.port, cd.dst.port, 0, 0⟩) payload with ec | ⟨updated, l4⟩
  · rw [hupdate] at h
    cases h
  · rw [hupdate] at h
    cases h
    obtain ⟨fresh, l4', hbuild⟩ : ∃ fresh l4', HeaderCache.init.build hash murmur32
        udp.trafficClass cd.dst (udp.localEp.sourceOn cd.path) cd.path.view
        ([] : List (Extension PlainOption)) (.udp ⟨0, 0, 0, 0⟩) payload = .ok (fresh, l4') :=
      hcached.holds.exists_build (by simp) rfl _ payload
    have hsame := (hcached.holds.sameButFlowLabel_iff (by simp) hupdate hbuild).mpr ⟨rfl, rfl⟩
    have hfresh : FreshHeaders hash murmur32 udp.trafficClass cd.dst
        (udp.localEp.sourceOn cd.path) cd.path.view payload headers'.buffer :=
      ⟨fresh, l4', hbuild, hsame⟩
    exact ⟨rfl, hfresh, hcached.bound, hholds, ⟨payload, hfresh⟩, hcached.nh⟩

theorem CachedFor.exists_sendToCached {cd : CachedDestination}
    (hcached : CachedFor hash murmur32 udp headers cd) (hflags : flags &&& ~~~sendFlags = 0)
    (nh : IPEndpoint) (payload : List UInt8) :
    ∃ r, udp.sendToCached headers cd.dst nh payload flags = .ok r := by
  obtain ⟨updated, l4, hupdate⟩ := hcached.holds.exists_updatePayload
    (show (L4Header.udp ⟨udp.localEp.port, cd.dst.port, 0, 0⟩).isKnown = true from rfl) payload
  refine ⟨(updated, ⟨updated.buffer, payload, nh, flags⟩), ?_⟩
  rw [ScionPackager.sendToCached, ScionPackager.sendUpdated, if_neg (not_not.mpr hflags),
    ScionPackager.packUpdate, hupdate]

end Packager

/-! ### Sends -/

variable (hash murmur32) in
/-- The invariant: the address is not mapped, and the last destination is only set while the
cache holds its headers. -/
structure Sound (s : InterposedSocket T) : Prop where
  mapped : s.udp.mapped = s.udp.localEp
  cached : ∀ cd, s.lastDest = some cd → CachedFor hash murmur32 s.udp s.headerCache cd

theorem CachedFor.four_le_length {udp : ScionPackager} {cd : CachedDestination}
    (h : CachedFor hash murmur32 udp headers cd) : 4 ≤ headers.buffer.length :=
  h.holds.four_le_length

section Sends

variable {s s' : InterposedSocket T} {ep : ScIPEndpoint} {a : SendAnswers} {flags : UInt32}

theorem approved_of_getPath {path : Path} (h : getPath a = some path) : Approved s ep a path := by
  rw [getPath] at h
  split at h
  · cases h
  · next paths hpaths =>
    split_ifs at h
    obtain ⟨i, hi, hpath⟩ := Option.bind_eq_some_iff.mp h
    exact Or.inr ⟨paths, i, hpaths, hi, hpath⟩

theorem gather_eq_flatten {room : ℕ} {bufs : List (List UInt8)}
    (h : gather room bufs = some payload) : payload = bufs.flatten := by
  induction bufs generalizing room payload with
  | nil =>
    cases h
    rfl
  | cons buf bufs ih =>
    rw [gather] at h
    split_ifs at h
    obtain ⟨rest, hrest, rfl⟩ := Option.map_eq_some_iff.mp h
    rw [List.flatten_cons, ih hrest]

variable [Inhabited T]

variable (hash murmur32) in
/-- The socket stays sound, and a datagram is the one that was asked for. -/
structure SendsSoundly (s : InterposedSocket T) (ep : ScIPEndpoint) (payload : List UInt8)
    (a : SendAnswers) (r : Sent T) : Prop where
  sound : Sound hash murmur32 r.socket
  delivers : ∀ t, r.handed = some t →
    ∃ path, Approved s ep a path ∧ Delivers hash murmur32 s ep path payload t

/-- Nothing is handed over. -/
theorem SendsSoundly.none {result : Option ℕ} (h : Sound hash murmur32 s') :
    SendsSoundly hash murmur32 s ep payload a ⟨result, none, s'⟩ :=
  ⟨h, fun _ ht => nomatch ht⟩

theorem sendDgramCached_soundly {cd : CachedDestination} (hs : Sound hash murmur32 s)
    (hflags : flags &&& ~~~sendFlags = 0) (hlast : s.lastDest = some cd)
    (hselect : a.selectCached = true) :
    SendsSoundly hash murmur32 s cd.dst payload a
      (s.sendDgramCached cd cd.dst payload flags a) := by
  have hcached := hs.cached cd hlast
  obtain ⟨⟨headers', t⟩, hsend⟩ := hcached.exists_sendToCached hflags cd.nh payload
  obtain ⟨ht, hfresh, hcached'⟩ := hcached.of_sendToCached hsend
  rw [sendDgramCached]
  dsimp only
  rw [hsend]
  by_cases hmtu : (s.getMtu cd.dst.host cd.path).1.toNat
      < s.headerCache.buffer.length + payload.length
  · rw [if_pos hmtu]
    exact SendsSoundly.none ⟨hs.mapped, hs.cached⟩
  rw [if_neg hmtu]
  refine ⟨⟨hs.mapped, ?_⟩, ?_⟩
  · intro cd' hlast'
    cases hlast.symm.trans hlast'
    exact hcached'
  · intro t' ht'
    cases ht'
    refine ⟨cd.path, Or.inl ⟨cd, hlast, rfl, rfl, hselect⟩, ?_⟩
    -- the headers keep their length, which is what was compared with the MTU
    obtain ⟨payload₀, hfresh₀⟩ := hcached.fresh
    have hlen := hfresh.length hcached'.four_le_length
    have hlen₀ := hfresh₀.length hcached.four_le_length
    subst ht
    refine ⟨hfresh, rfl, hcached.nh, ?_⟩
    rw [Transmission.datagram, List.length_append, hlen, ← hlen₀]
    exact not_lt.mp hmtu

theorem sendDgramVia_soundly {path : Path} (hs : Sound hash murmur32 s)
    (happroved : Approved s ep a path) :
    SendsSoundly hash murmur32 s ep payload a
      (s.sendDgramVia hash murmur32 path ep payload flags a) := by
  rw [sendDgramVia]
  dsimp only
  rcases hmeasure : s.udp.measureTo ep path.view with ec | hdrSize
  · exact SendsSoundly.none ⟨hs.mapped, hs.cached⟩
  dsimp only
  by_cases hmtu : (s.getMtu ep.host path).1.toNat < hdrSize + payload.length
  · rw [if_pos hmtu]
    exact SendsSoundly.none ⟨hs.mapped, hs.cached⟩
  rw [if_neg hmtu]
  rcases hsend : s.udp.sendTo hash murmur32 s.headerCache ep path.view
    (path.nextHopTo ep.localEp).toUnderlay payload flags with ec | ⟨headers', t⟩
  · exact SendsSoundly.none ⟨hs.mapped, fun cd hcd => nomatch hcd⟩
  obtain ⟨ht, hfresh, hcached⟩ := cachedFor_of_sendTo hs.mapped hsend
  refine ⟨⟨hs.mapped, ?_⟩, ?_⟩
  · intro cd hcd
    -- the underlay may have failed
    obtain ⟨-, hcd⟩ := Option.ite_none_right_eq_some.mp hcd
    cases hcd
    exact hcached
  · intro t' ht'
    cases ht'
    subst ht
    refine ⟨path, happroved, hfresh, rfl, rfl, ?_⟩
    rw [Transmission.datagram, List.length_append, hfresh.length hcached.four_le_length,
      ← measureTo_eq hs.mapped hmeasure]
    exact not_lt.mp hmtu

theorem sendDgram_soundly (hs : Sound hash murmur32 s) (hflags : flags &&& ~~~sendFlags = 0) :
    SendsSoundly hash murmur32 s ep payload a (s.sendDgram hash murmur32 ep payload flags a) := by
  rw [sendDgram]
  cases hcache : s.useCache ep a with
  | some cd =>
    rw [useCache, Option.filter_eq_some_iff, Bool.and_eq_true, beq_iff_eq] at hcache
    obtain ⟨hlast, rfl, hselect⟩ := hcache
    exact sendDgramCached_soundly hs hflags hlast hselect
  | none =>
    cases hpath : getPath a with
    | none => exact SendsSoundly.none hs
    | some path => exact sendDgramVia_soundly hs (approved_of_getPath hpath)

end Sends

/-! ### Binding -/

section Binding

variable {udp : ScionPackager} {ep : ScIPEndpoint} {bound : ErrorCode} {found : Maybe IPEndpoint}

/-- A local endpoint is not mapped, and a failure leaves the old one. -/
structure Rebinds (udp : ScionPackager) (r : ErrorCode × ScionPackager) : Prop where
  mapped : udp.mapped = udp.localEp → r.2.mapped = r.2.localEp
  unchanged : r.1 ≠ .ok → r.2 = udp

theorem Rebinds.failed (udp : ScionPackager) (ec : ErrorCode) : Rebinds udp (ec, udp) :=
  ⟨id, fun _ => rfl⟩

theorem rebinds_setLocalEp (udp : ScionPackager) (ep : ScIPEndpoint) :
    Rebinds udp (udp.setLocalEp ep) := by
  rw [ScionPackager.setLocalEp]
  split_ifs
  · exact Rebinds.failed udp _
  · exact Rebinds.failed udp _
  · exact ⟨fun _ => rfl, fun h => absurd rfl h⟩

theorem rebinds_setUnmappedLocalEp (udp : ScionPackager) (ep : ScIPEndpoint) :
    Rebinds udp (udp.setUnmappedLocalEp ep) := by
  rw [ScionPackager.setUnmappedLocalEp]
  split_ifs
  · exact rebinds_setLocalEp udp _
  · exact rebinds_setLocalEp udp _

theorem rebinds_bind (udp : ScionPackager) (ep : ScIPEndpoint) (bound : ErrorCode)
    (found : Maybe IPEndpoint) : Rebinds udp (udp.bind ep bound found) := by
  rw [ScionPackager.bind.eq_def]
  by_cases hbound : bound ≠ .ok
  · rw [if_pos hbound]
    exact Rebinds.failed udp bound
  rw [if_neg hbound]
  by_cases hnone : (ep.host.isUnspecified || ep.port == 0) = true
  · rw [if_pos hnone]
    cases found with
    | error ec => exact Rebinds.failed udp ec
    | ok own => exact rebinds_setLocalEp udp _
  · rw [if_neg hnone]
    exact rebinds_setLocalEp udp _

theorem mapped_bindDefault {a : BindAnswers} (h : udp.mapped = udp.localEp) :
    (bindDefault cfg udp a).2.mapped = (bindDefault cfg udp a).2.localEp := by
  rw [bindDefault]
  cases a.own with
  | error ec => exact h
  | ok own =>
    dsimp only
    split_ifs
    · exact (rebinds_setUnmappedLocalEp udp _).mapped h
    · exact (rebinds_bind udp _ _ _).mapped h

variable {s : InterposedSocket T}

theorem sound_bindTo (hs : Sound hash murmur32 s) (ep : ScIPEndpoint) (a : BindAnswers) :
    Sound hash murmur32 (s.bindTo ep a).2 := by
  have hrebinds := rebinds_bind s.udp ep a.bound a.found
  rw [bindTo]
  dsimp only
  by_cases hok : (s.udp.bind ep a.bound a.found).1 ≠ .ok
  · rw [if_pos hok]
    refine ⟨hrebinds.mapped hs.mapped, fun cd hcd => ?_⟩
    dsimp only
    rw [hrebinds.unchanged hok]
    exact hs.cached cd hcd
  · rw [if_neg hok]
    exact ⟨hrebinds.mapped hs.mapped, fun cd hcd => nomatch hcd⟩

theorem sound_bind (hs : Sound hash murmur32 s) (addr : SockAddr) (a : BindAnswers) :
    Sound hash murmur32 (s.bind cfg addr a).2 := by
  cases addr with
  | scion ep =>
    rw [bind]
    split_ifs
    · exact hs
    · exact sound_bindTo hs _ a
    · exact sound_bindTo hs ep a
  | in6 addr port => exact hs
  | other => exact hs

/-- An endpoint that is not fully specified has no cached headers. -/
theorem Sound.lastDest_eq_none (hs : Sound hash murmur32 s)
    (hlocal : s.udp.localEp.localEp.isFullySpecified = false) : s.lastDest = none := by
  rcases hlast : s.lastDest with _ | cd
  · rfl
  · rw [(hs.cached cd hlast).bound] at hlocal
    cases hlocal

theorem sound_connect (hs : Sound hash murmur32 s) (addr : SockAddr) (a : BindAnswers) :
    Sound hash murmur32 (s.connect cfg addr a).2 := by
  rw [connect]
  cases s.surrogates.sockaddrToScion addr with
  | none => exact hs
  | some ep =>
    dsimp only
    by_cases hlocal : s.udp.localEp.localEp.isFullySpecified = true
    · rw [hlocal]
      exact ⟨hs.mapped, fun cd hcd => nomatch hcd⟩
    · rw [Bool.not_eq_true] at hlocal
      have hmapped : (bindDefault cfg s.udp a).2.mapped = (bindDefault cfg s.udp a).2.localEp :=
        mapped_bindDefault cfg hs.mapped
      rw [hlocal, Bool.not_false, if_pos rfl]
      split_ifs
      · refine ⟨hmapped, fun cd hcd => ?_⟩
        rw [hs.lastDest_eq_none hlocal] at hcd
        cases hcd
      · next hremote => exact absurd rfl hremote
      · exact ⟨hmapped, fun cd hcd => nomatch hcd⟩

end Binding

/-! ### Runs -/

theorem sound_created (pmtu : PathMtuDiscoverer T) (surrogates : AddressSurrogates) :
    Sound hash murmur32 (created pmtu surrogates) :=
  ⟨rfl, fun _ hcd => nomatch hcd⟩

section Runs

variable [Inhabited T] {s s' : InterposedSocket T} {c : SocketCall T}

theorem sendto_soundly (hs : Sound hash murmur32 s) (addr : Option SockAddr)
    (payload : List UInt8) (flags : UInt32) (a : SendAnswers) :
    Sound hash murmur32 (s.sendto hash murmur32 addr payload flags a).socket ∧
      ∀ t, (s.sendto hash murmur32 addr payload flags a).handed = some t →
        ∃ ep path, s.getDest addr = some ep ∧ Approved s ep a path ∧
          Delivers hash murmur32 s ep path payload t := by
  rw [sendto]
  by_cases hflags : flags &&& ~~~sendFlags ≠ 0
  · rw [if_pos hflags]
    exact ⟨hs, fun t ht => nomatch ht⟩
  rw [if_neg hflags]
  cases s.getDest addr with
  | none => exact ⟨hs, fun t ht => nomatch ht⟩
  | some ep =>
    have hsends : SendsSoundly hash murmur32 s ep payload a
        (s.sendDgram hash murmur32 ep payload flags a) :=
      sendDgram_soundly hs (not_not.mp hflags)
    refine ⟨hsends.sound, fun t ht => ?_⟩
    obtain ⟨path, happroved, hdelivers⟩ := hsends.delivers t ht
    exact ⟨ep, path, rfl, happroved, hdelivers⟩

/-- With the buffers gathered, it is a send of their contents. -/
theorem sendmsg_eq (s : InterposedSocket T) (addr : Option SockAddr) (bufs : List (List UInt8))
    (flags : UInt32) (a : SendAnswers) :
    s.sendmsg hash murmur32 addr bufs flags a =
      if gather bufferSize bufs = none then ⟨none, none, s⟩
      else s.sendto hash murmur32 addr bufs.flatten flags a := by
  rw [sendmsg, sendto]
  cases hgather : gather bufferSize bufs with
  | none =>
    rw [if_pos rfl]
    split_ifs
    · rfl
    · cases s.getDest addr with
      | none => rfl
      | some ep => rfl
  | some payload =>
    cases gather_eq_flatten hgather
    rfl

/-- What a call does to a sound socket. -/
theorem sound_step (hs : Sound hash murmur32 s) (h : s.step cfg hash murmur32 c = some s') :
    Sound hash murmur32 s' := by
  cases c with
  | promote a =>
    rw [step] at h
    split_ifs at h with hinit
    cases h
    refine ⟨mapped_bindDefault cfg hs.mapped, fun cd hcd => ?_⟩
    have hlocal : s.udp.localEp.localEp.isFullySpecified = false := by
      rw [hinit]
      decide
    rw [hs.lastDest_eq_none hlocal] at hcd
    cases hcd
  | bind addr a =>
    cases h
    exact sound_bind cfg hs addr a
  | connect addr a =>
    cases h
    exact sound_connect cfg hs addr a
  | sendto addr payload flags a =>
    cases h
    exact (sendto_soundly hs addr payload flags a).1
  | sendmsg addr bufs flags a =>
    cases h
    rw [sendmsg_eq]
    split_ifs
    · exact hs
    · exact (sendto_soundly hs addr bufs.flatten flags a).1
  | elsewhere pmtu surrogates =>
    cases h
    exact ⟨hs.mapped, hs.cached⟩

/-- What a sound socket hands to the underlay is what it was asked to send. -/
theorem delivers_of_handed (hs : Sound hash murmur32 s) {t : Transmission}
    (h : s.handed hash murmur32 c = some t) :
    ∃ addr payload a ep path, c.datagram? = some (addr, payload, a) ∧ s.getDest addr = some ep ∧
      Approved s ep a path ∧ Delivers hash murmur32 s ep path payload t := by
  cases c with
  | sendto addr payload flags a =>
    obtain ⟨ep, path, hsent⟩ := (sendto_soundly hs addr payload flags a).2 t h
    exact ⟨addr, payload, a, ep, path, rfl, hsent⟩
  | sendmsg addr bufs flags a =>
    rw [handed, sendmsg_eq] at h
    split_ifs at h
    obtain ⟨ep, path, hsent⟩ := (sendto_soundly hs addr bufs.flatten flags a).2 t h
    exact ⟨addr, bufs.flatten, a, ep, path, rfl, hsent⟩
  | _ => cases h

variable {pmtu : PathMtuDiscoverer T} {surrogates : AddressSurrogates} {h : List (SocketCall T)}

/-- In every run the last destination is only set while the cache holds its headers, and every
datagram that a call hands to the underlay has the headers freshly built for the destination of
the call and a path that the selector approved, and keeps to the MTU. -/
theorem sends_delivers
    (hrun : Run (created pmtu surrogates) (step cfg hash murmur32) h s) :
    (∀ cd, s.lastDest = some cd → CachedFor hash murmur32 s.udp s.headerCache cd) ∧
      ∀ c t, s.handed hash murmur32 c = some t →
        ∃ addr payload a ep path, c.datagram? = some (addr, payload, a) ∧
          s.getDest addr = some ep ∧ Approved s ep a path ∧
          Delivers hash murmur32 s ep path payload t := by
  have hs : Sound hash murmur32 s :=
    hrun.invariant (I := fun _ s => Sound hash murmur32 s) (sound_created pmtu surrogates)
      fun _ _ _ _ hs hstep => sound_step cfg hs hstep
  exact ⟨hs.cached, fun c t ht => delivers_of_handed hs ht⟩

end Runs

open RoundTrip

/-- A host in the AS of the socket and the path to it. -/
def localAnswers (selectCached : Bool) : SendAnswers :=
  ⟨selectCached, .ok [Path.makeEmpty (fun _ _ => (0, 0)) 0 (IsdAsn.make 1 0xff0000000110)], some 0,
    true, HeaderCache.init⟩

/-- A datagram to the host, with the cached headers if there are any. -/
def localDatagram (payload : List UInt8) : SocketCall ℕ :=
  .sendto (some (.scion (endpoint 2 5000))) payload 0 (localAnswers true)

/-- A socket is bound to an address without an ISD-ASN and used once, latest call first. -/
def usedOnce : List (SocketCall ℕ) :=
  [localDatagram [1],
    .bind (.scion ⟨⟨0⟩, ⟨host 1, 3000⟩⟩) ⟨.ok ⟨host 1, 3000⟩, .ok, .ok ⟨host 1, 3000⟩,
      .ok ⟨host 1, 3000⟩⟩]

def localConfig : BindConfig := ⟨IsdAsn.make 1 0xff0000000110, true, true, none, none⟩

/-- The second datagram goes out with the cached headers. -/
theorem sends_delivers_usedOnce :
    ∃ s t addr payload a ep path,
      s.handed (fun _ => 0) (fun _ _ => 0) (localDatagram [2, 3]) = some t ∧
        s.useCache (endpoint 2 5000) (localAnswers true) ≠ none ∧
        (localDatagram [2, 3]).datagram? = some (addr, payload, a) ∧ s.getDest addr = some ep ∧
        Approved s ep a path ∧ Delivers (fun _ => 0) (fun _ _ => 0) s ep path payload t := by
  have hreplay : ((replay (created (PathMtuDiscoverer.make ℕ 1400 8) AddressSurrogates.empty)
      (step localConfig (fun _ => 0) fun _ _ => 0) usedOnce).bind fun s =>
        if (s.useCache (endpoint 2 5000) (localAnswers true)).isSome
        then s.handed (fun _ => 0) (fun _ _ => 0) (localDatagram [2, 3]) else none).isSome
      = true := by
    decide +kernel
  obtain ⟨t, ht⟩ := Option.isSome_iff_exists.mp hreplay
  obtain ⟨s, hs, ht⟩ := Option.bind_eq_some_iff.mp ht
  obtain ⟨hcache, ht⟩ := Option.ite_none_right_eq_some.mp ht
  obtain ⟨addr, payload, a, ep, path, hsent⟩ :=
    (sends_delivers localConfig (run_of_replay hs)).2 _ t ht
  exact ⟨s, t, addr, payload, a, ep, path, ht, Option.isSome_iff_ne_none.mp hcache, hsent⟩

end InterposedSocket

end Scion
