/-
Sending on SCION UDP sockets (`posix/udp_socket.hpp`, `scion_c/scion.cpp`).

A full send takes the ports of the packet from the mapped address and from its
destination, a cached send from the local and from the connected endpoint.

* `Transmission` — what is handed to the underlay;
* `send`, `sendTo`, `sendCached`, `sendToCached` — full and cached sends;
* `scionSend`, `scionSendCached` — the same calls of the C interface;
* `Setting` — the calls that change what packets are sent from and to;
* `SendCall.cached_full_iff` — for which calls and settings a cached send hands over the
  datagram of a full send.
-/
import Scion.IncrementalUpdate
import Scion.StunRequests

namespace Scion

open BigEndian Codec HeaderCache

/-- What a socket hands to the underlay. -/
structure Transmission where
  headers : List UInt8
  payload : List UInt8
  nextHop : IPEndpoint
  flags : UInt32
  deriving DecidableEq, Repr

def Transmission.datagram (t : Transmission) : List UInt8 := t.headers ++ t.payload

/-- `SMSG_CONFIRM | SMSG_DONTWAIT | SMSG_NOSIGNAL`. -/
def sendFlags : UInt32 := 0x800 ||| 0x40 ||| 0x4000

namespace ScionPackager

/-! ### Settings -/

/-- `bound` is what `bind_range` returns, `found` what `findLocalAddress` does. -/
def bind (p : ScionPackager) (ep : ScIPEndpoint) (bound : ErrorCode) (found : Maybe IPEndpoint) :
    ErrorCode × ScionPackager :=
  if bound ≠ .ok then (bound, p)
  else if ep.host.isUnspecified || ep.port == 0 then
    match found with
    | .error ec => (ec, p)
    | .ok own =>
      let addr := if ep.host.isUnspecified then own.host else ep.host
      let port := if ep.port == 0 then own.port else ep.port
      p.setLocalEp ⟨ep.isdAsn, addr.unmap4in6, port⟩
  else p.setLocalEp ⟨ep.isdAsn, ep.host.unmap4in6, ep.port⟩

/-- `setLocalEp` of the sockets. -/
def setUnmappedLocalEp (p : ScionPackager) (ep : ScIPEndpoint) : ErrorCode × ScionPackager :=
  if ep.host.is4in6 then p.setLocalEp ⟨ep.isdAsn, ep.host.unmap4in6, ep.port⟩
  else p.setLocalEp ep

/-- The calls that change what packets are sent from and to. -/
inductive Setting
  | bind (ep : ScIPEndpoint) (bound : ErrorCode) (found : Maybe IPEndpoint)
  | setLocalEp (ep : ScIPEndpoint)
  | setMappedIpAndPort (mapped : IPEndpoint)
  | requestStunMapping (router : IPAddress) (rand₁ rand₂ : UInt64)
  | recv (buf : List UInt8) (ulSource : IPAddress)
  | connect (ep : ScIPEndpoint)
  | setTrafficClass (tc : UInt8)

def apply (p : ScionPackager) : Setting → ScionPackager
  | .bind ep bound found => (p.bind ep bound found).2
  | .setLocalEp ep => (p.setUnmappedLocalEp ep).2
  | .setMappedIpAndPort mapped => p.setMappedIpAndPort mapped
  | .requestStunMapping router rand₁ rand₂ =>
    (p.createStunRequest (List.replicate 20 0) router rand₁ rand₂).2.2
  | .recv buf ulSource => (p.unpack buf ulSource ([] : List (Extension PlainOption)) []).2
  | .connect ep => (p.setRemoteEp ep).2
  | .setTrafficClass tc => p.setTrafficClass tc

/-- The socket after the calls. -/
def applyAll (p : ScionPackager) (settings : List Setting) : ScionPackager :=
  settings.foldl apply p

/-- The settings that packets depend on are the same. -/
structure SameSettings (p p' : ScionPackager) : Prop where
  trafficClass : p'.trafficClass = p.trafficClass
  localEp : p'.localEp = p.localEp
  mapped : p'.mapped = p.mapped
  remote : p'.remote = p.remote

/-! ### Sending -/

section Send

variable (hash : ScIPAddress → UInt64) (murmur32 : List UInt8 → UInt32 → UInt32)

/-- The headers are built; no destination stands for the connected endpoint. -/
def sendBuilt (p : ScionPackager) (headers : HeaderCache) (dst : Option ScIPEndpoint)
    (path : PathView) (nextHop : IPEndpoint) (payload : List UInt8) (flags : UInt32) :
    Maybe (HeaderCache × Transmission) :=
  if flags &&& ~~~sendFlags ≠ 0 then .error .invalidArgument
  else
    match p.pack hash murmur32 headers dst path ([] : List (Extension PlainOption))
      (.udp ⟨0, 0, 0, 0⟩) payload with
    | .error ec => .error ec
    | .ok (headers, _) => .ok (headers, ⟨headers.buffer, payload, nextHop, flags⟩)

def send (p : ScionPackager) (headers : HeaderCache) (path : PathView) (nextHop : IPEndpoint)
    (payload : List UInt8) (flags : UInt32) : Maybe (HeaderCache × Transmission) :=
  p.sendBuilt hash murmur32 headers none path nextHop payload flags

def sendTo (p : ScionPackager) (headers : HeaderCache) (dst : ScIPEndpoint) (path : PathView)
    (nextHop : IPEndpoint) (payload : List UInt8) (flags : UInt32) :
    Maybe (HeaderCache × Transmission) :=
  p.sendBuilt hash murmur32 headers (some dst) path nextHop payload flags

/-- The headers are updated. -/
def sendUpdated (headers : HeaderCache) (sport dport : UInt16) (nextHop : IPEndpoint)
    (payload : List UInt8) (flags : UInt32) : Maybe (HeaderCache × Transmission) :=
  if flags &&& ~~~sendFlags ≠ 0 then .error .invalidArgument
  else
    match packUpdate headers (.udp ⟨sport, dport, 0, 0⟩) payload with
    | .error ec => .error ec
    | .ok (headers, _) => .ok (headers, ⟨headers.buffer, payload, nextHop, flags⟩)

def sendCached (p : ScionPackager) (headers : HeaderCache) (nextHop : IPEndpoint)
    (payload : List UInt8) (flags : UInt32) : Maybe (HeaderCache × Transmission) :=
  sendUpdated headers p.localEp.port p.remote.port nextHop payload flags

def sendToCached (p : ScionPackager) (headers : HeaderCache) (dst : ScIPEndpoint)
    (nextHop : IPEndpoint) (payload : List UInt8) (flags : UInt32) :
    Maybe (HeaderCache × Transmission) :=
  sendUpdated headers p.localEp.port dst.port nextHop payload flags

/-- `struct scion_packet`. There is no path without a known type; the underlay address may
not be one. -/
structure ScionPacket where
  addr : Option ScIPEndpoint
  underlay : Maybe IPEndpoint
  path : Option PathView

def scionSend (p : ScionPackager) (headers : HeaderCache) (payload : List UInt8)
    (args : ScionPacket) : Maybe (HeaderCache × Transmission) :=
  match args.path with
  | none => .error .invalidArgument
  | some path =>
    match args.underlay with
    | .error ec => .error ec
    | .ok nh =>
      match args.addr with
      | some addr => p.sendTo hash murmur32 headers addr path nh payload 0
      | none => p.send hash murmur32 headers path nh payload 0

def scionSendCached (p : ScionPackager) (headers : HeaderCache) (payload : List UInt8)
    (args : ScionPacket) : Maybe (HeaderCache × Transmission) :=
  match args.underlay with
  | .error ec => .error ec
  | .ok nh => p.sendCached headers nh payload 0

/-! ### Cached and full sends -/

/-- The calls that come in both forms. -/
inductive SendCall
  | send
  | sendTo (dst : ScIPEndpoint)
  | scionSend (addr : Option ScIPEndpoint)

namespace SendCall

/-- The destination that is given. -/
def addr : SendCall → Option ScIPEndpoint
  | send => none
  | sendTo dst => some dst
  | scionSend addr => addr

/-- The destination of the full send. -/
def dst (p : ScionPackager) (call : SendCall) : ScIPEndpoint := call.addr.getD p.remote

/-- The port that the cached send is addressed to. -/
def cachedPort (p : ScionPackager) : SendCall → UInt16
  | send => p.remote.port
  | sendTo dst => dst.port
  | scionSend _ => p.remote.port

/-- The C interface has no flags. -/
def usedFlags (flags : UInt32) : SendCall → UInt32
  | send => flags
  | sendTo _ => flags
  | scionSend _ => 0

def full (p : ScionPackager) (headers : HeaderCache) (path : PathView) (nextHop : IPEndpoint)
    (payload : List UInt8) (flags : UInt32) : SendCall → Maybe (HeaderCache × Transmission)
  | send => p.send hash murmur32 headers path nextHop payload flags
  | sendTo dst => p.sendTo hash murmur32 headers dst path nextHop payload flags
  | scionSend addr => p.scionSend hash murmur32 headers payload ⟨addr, .ok nextHop, some path⟩

def cached (p : ScionPackager) (headers : HeaderCache) (path : PathView) (nextHop : IPEndpoint)
    (payload : List UInt8) (flags : UInt32) : SendCall → Maybe (HeaderCache × Transmission)
  | send => p.sendCached headers nextHop payload flags
  | sendTo dst => p.sendToCached headers dst nextHop payload flags
  | scionSend addr => p.scionSendCached headers payload ⟨addr, .ok nextHop, some path⟩

end SendCall

/-- What happens between a full send and a cached one with the same headers. -/
inductive Interim
  | setting (setting : Setting)
  | cached (call : SendCall) (path : PathView) (nextHop : IPEndpoint) (payload : List UInt8)
      (flags : UInt32)

/-- The socket and the headers after it; a send that fails leaves the headers alone. -/
def interim (s : ScionPackager × HeaderCache) : Interim → ScionPackager × HeaderCache
  | .setting setting => (s.1.apply setting, s.2)
  | .cached call path nextHop payload flags =>
    match call.cached s.1 s.2 path nextHop payload flags with
    | .error _ => s
    | .ok (headers, _) => (s.1, headers)

def interimAll (s : ScionPackager × HeaderCache) (interims : List Interim) :
    ScionPackager × HeaderCache :=
  interims.foldl interim s

/-- Both fail, or both hand the same over but for the flow label. -/
def SendsAlike (r r' : Maybe (HeaderCache × Transmission)) : Prop :=
  (∃ ec, r = .error ec ∧ r' = .error ec) ∨
    ∃ headers t headers' t', r = .ok (headers, t) ∧ r' = .ok (headers', t') ∧
      SameButFlowLabel t.datagram t'.datagram ∧ t.nextHop = t'.nextHop ∧ t.flags = t'.flags

variable {hash murmur32} {p : ScionPackager} {headers headers' other : HeaderCache}
  {call : SendCall} {path : PathView} {nextHop : IPEndpoint} {payload : List UInt8}
  {flags : UInt32} {t : Transmission}

/-! ### What a full send leaves -/

/-- The source address of a packet has the port of the mapped address. -/
theorem port_of_getSourceAddress {src : ScIPEndpoint} (h : p.getSourceAddress path = .ok src) :
    src.port = p.mapped.port := by
  rw [getSourceAddress] at h
  split_ifs at h
  · cases h
    rfl
  · cases h
    rfl

/-- What a packet is built from. -/
theorem pack_eq_ok_iff {dst : Option ScIPEndpoint} {l4 : L4Header} {r : HeaderCache × L4Header} :
    p.pack hash murmur32 headers dst path ([] : List (Extension PlainOption)) l4 payload = .ok r ↔
      p.localEp.host.isUnspecified = false ∧ p.localEp.port ≠ 0 ∧
        (dst.getD p.remote).address.isFullySpecified = true ∧
        ∃ src, p.getSourceAddress path = .ok src ∧
          headers.build hash murmur32 p.trafficClass (dst.getD p.remote) src path
            ([] : List (Extension PlainOption)) l4 payload = .ok r := by
  rw [pack]
  by_cases hlocal : p.localEp.host.isUnspecified = true
  · simp [hlocal]
  by_cases hport : p.localEp.port = 0
  · simp [hport]
  rcases hsrc : p.getSourceAddress path with ec | src
  · simp [hlocal, hport, Bind.bind, Except.bind]
  by_cases hdst : (dst.getD p.remote).address.isFullySpecified = true
  · simp [hlocal, hport, hdst, Bind.bind, Except.bind]
  · simp [hlocal, hport, hdst, Bind.bind, Except.bind]

theorem SendCall.full_eq :
    call.full hash murmur32 p headers path nextHop payload flags
      = p.sendBuilt hash murmur32 headers call.addr path nextHop payload (call.usedFlags flags) := by
  rcases call with _ | dst | _ | addr
  · rfl
  · rfl
  · rfl
  · rfl

theorem SendCall.cached_eq :
    call.cached p headers path nextHop payload flags
      = sendUpdated headers p.localEp.port (call.cachedPort p) nextHop payload
          (call.usedFlags flags) := by
  rcases call with _ | dst | addr
  · rfl
  · rfl
  · rfl

/-- A full send leaves the headers of its route, from an address that the path may have. -/
theorem holds_of_sendBuilt {dst : Option ScIPEndpoint}
    (h : p.sendBuilt hash murmur32 headers dst path nextHop payload flags = .ok (headers', t)) :
    ∃ src, p.getSourceAddress path = .ok src ∧
      Holds headers' p.trafficClass (dst.getD p.remote) src path ∧
      p.localEp.host.isUnspecified = false ∧ p.localEp.port ≠ 0 ∧
      (dst.getD p.remote).address.isFullySpecified = true := by
  rw [sendBuilt] at h
  split_ifs at h
  rcases hpack : p.pack hash murmur32 headers dst path ([] : List (Extension PlainOption))
    (.udp ⟨0, 0, 0, 0⟩) payload with ec | ⟨built, l4⟩
  · rw [hpack] at h
    cases h
  · rw [hpack] at h
    cases h
    obtain ⟨hhost, hport, hdst, src, hsrc, hbuild⟩ := pack_eq_ok_iff.mp hpack
    exact ⟨src, hsrc, holds_build (by simp) hbuild, hhost, hport, hdst⟩

/-! ### What a cached send hands over -/

section Cached

variable {tc : UInt8} {dst src : ScIPEndpoint} {sport dport : UInt16}

theorem holds_of_sendUpdated (h : Holds headers tc dst src path)
    (hsend : sendUpdated headers sport dport nextHop payload flags = .ok (headers', t)) :
    Holds headers' tc dst src path := by
  rw [sendUpdated] at hsend
  split_ifs at hsend
  rcases hupdate : packUpdate headers (.udp ⟨sport, dport, 0, 0⟩) payload with ec | ⟨updated, l4⟩
  · rw [hupdate] at hsend
    cases hsend
  · rw [hupdate] at hsend
    cases hsend
    exact h.updatePayload hupdate

/-- Whatever happens in between, the headers stay on their route. -/
theorem holds_interimAll {s : ScionPackager × HeaderCache} (h : Holds s.2 tc dst src path)
    (interims : List Interim) : Holds (interimAll s interims).2 tc dst src path := by
  induction interims generalizing s with
  | nil => exact h
  | cons i interims ih =>
    refine ih ?_
    cases i with
    | setting setting => exact h
    | cached call path' nextHop payload flags =>
      rw [interim]
      rcases hsend : call.cached s.1 s.2 path' nextHop payload flags with ec | ⟨headers, t⟩
      · exact h
      · rw [SendCall.cached_eq] at hsend
        exact holds_of_sendUpdated h hsend

/-- An update with the headers of a route is what a build hands over if the ports are those
of the route. -/
theorem sendUpdated_alike_iff {addr : Option ScIPEndpoint}
    (h : Holds headers p.trafficClass (addr.getD p.remote) src path)
    (hsrc : p.getSourceAddress path = .ok src) (hhost : p.localEp.host.isUnspecified = false)
    (hport : p.localEp.port ≠ 0) (hdst : (addr.getD p.remote).address.isFullySpecified = true)
    (hflags : flags &&& ~~~sendFlags = 0) :
    SendsAlike (sendUpdated headers sport dport nextHop payload flags)
        (p.sendBuilt hash murmur32 other addr path nextHop payload flags) ↔
      sport = src.port ∧ dport = (addr.getD p.remote).port := by
  obtain ⟨updated, l4, hupdate⟩ := h.exists_updatePayload
    (show (L4Header.udp ⟨sport, dport, 0, 0⟩).isKnown = true from rfl) payload
  obtain ⟨fresh, l4', hbuild⟩ : ∃ fresh l4', other.build hash murmur32 p.trafficClass
      (addr.getD p.remote) src path ([] : List (Extension PlainOption)) (.udp ⟨0, 0, 0, 0⟩) payload
        = .ok (fresh, l4') :=
    h.exists_build (by simp) rfl other payload
  have hpack := pack_eq_ok_iff.mpr ⟨hhost, hport, hdst, src, hsrc, hbuild⟩
  have hcached : sendUpdated headers sport dport nextHop payload flags
      = .ok (updated, ⟨updated.buffer, payload, nextHop, flags⟩) := by
    rw [sendUpdated, if_neg (not_not.mpr hflags), packUpdate, hupdate]
  have hfull : p.sendBuilt hash murmur32 other addr path nextHop payload flags
      = .ok (fresh, ⟨fresh.buffer, payload, nextHop, flags⟩) := by
    rw [sendBuilt, if_neg (not_not.mpr hflags), hpack]
  have hsame : SameButFlowLabel (updated.buffer ++ payload) (fresh.buffer ++ payload) ↔
      sport = src.port ∧ dport = (addr.getD p.remote).port := by
    have hlen := (h.updatePayload hupdate).four_le_length
    have hlen' := (holds_build (by simp) hbuild).four_le_length
    rw [sameButFlowLabel_append_iff hlen hlen' payload]
    exact h.sameButFlowLabel_iff (by simp) hupdate hbuild
  rw [hcached, hfull, ← hsame]
  constructor
  · rintro (⟨ec, hec, -⟩ | ⟨_, _, _, _, hok, hok', halike, -, -⟩)
    · cases hec
    · cases hok
      cases hok'
      exact halike
  · intro halike
    exact Or.inr ⟨_, _, _, _, rfl, rfl, halike, rfl, rfl⟩

/-- A full send depends on the settings alone. -/
theorem sendBuilt_congr {p' : ScionPackager} (h : SameSettings p p') (addr : Option ScIPEndpoint) :
    p'.sendBuilt hash murmur32 other addr path nextHop payload flags
      = p.sendBuilt hash murmur32 other addr path nextHop payload flags := by
  simp only [sendBuilt, pack, getSourceAddress, h.trafficClass, h.localEp, h.mapped, h.remote]

theorem SendCall.usedFlags_allowed (hflags : flags &&& ~~~sendFlags = 0) :
    call.usedFlags flags &&& ~~~sendFlags = 0 := by
  rcases call with _ | dst | addr
  · exact hflags
  · exact hflags
  · exact (UInt32.zero_and : 0 &&& ~~~sendFlags = 0)

/-- While the settings of a full send last, the cached sends with its headers hand over what
it would if they are addressed to the same ports. -/
theorem SendCall.cached_alike_iff {p' : ScionPackager} {latest : HeaderCache}
    {nextHop' : IPEndpoint} {payload' : List UInt8} {flags' : UInt32} {interims : List Interim}
    (hsend : call.full hash murmur32 p headers path nextHop payload flags = .ok (headers', t))
    (hinterim : interimAll (p, headers') interims = (p', latest)) (hsame : SameSettings p p')
    (hflags : flags' &&& ~~~sendFlags = 0) :
    SendsAlike (call.cached p' latest path nextHop' payload' flags')
        (call.full hash murmur32 p' other path nextHop' payload' flags') ↔
      p.mapped.port = p.localEp.port ∧
        ∀ addr, call = .scionSend (some addr) → addr.port = p.remote.port := by
  have hflags' : call.usedFlags flags' &&& ~~~sendFlags = 0 := usedFlags_allowed hflags
  rw [full_eq] at hsend
  obtain ⟨src, hsrc, hholds, hhost, hport, hdst⟩ := holds_of_sendBuilt hsend
  have hlatest : Holds latest p.trafficClass (call.addr.getD p.remote) src path := by
    have h := holds_interimAll (s := (p, headers')) hholds interims
    rw [hinterim] at h
    exact h
  have hcachedPort : call.cachedPort p' = call.cachedPort p := by
    rcases call with _ | dst | addr
    · exact congrArg ScIPEndpoint.port hsame.remote
    · rfl
    · exact congrArg ScIPEndpoint.port hsame.remote
  have hdport : call.cachedPort p = (call.addr.getD p.remote).port ↔
      ∀ addr, call = .scionSend (some addr) → addr.port = p.remote.port := by
    rcases call with _ | dst | _ | addr
    · simp [cachedPort, SendCall.addr]
    · simp [cachedPort, SendCall.addr]
    · simp [cachedPort, SendCall.addr]
    · simp [cachedPort, SendCall.addr, eq_comm]
  rw [full_eq, cached_eq, sendBuilt_congr hsame, hcachedPort, hsame.localEp,
    sendUpdated_alike_iff hlatest hsrc hhost hport hdst hflags', port_of_getSourceAddress hsrc,
    hdport, eq_comm]

/-- In every run the cached sends after a full send hand over what it would, while the
settings last, if the port is not mapped and the call of the C interface does not name an
endpoint with another port than the connected one. -/
theorem SendCall.cached_full_iff (settings : List Setting) (call : SendCall) (path : PathView)
    (nextHop nextHop' : IPEndpoint) (payload payload' : List UInt8) (flags flags' : UInt32)
    (interims : List Interim) (p' : ScionPackager) (latest : HeaderCache)
    (hsend : call.full hash murmur32 (init.applyAll settings) headers path nextHop payload flags
      = .ok (headers', t))
    (hinterim : interimAll (init.applyAll settings, headers') interims = (p', latest))
    (hsame : SameSettings (init.applyAll settings) p')
    (hflags : flags' &&& ~~~sendFlags = 0) :
    SendsAlike (call.cached p' latest path nextHop' payload' flags')
        (call.full hash murmur32 p' other path nextHop' payload' flags') ↔
      (init.applyAll settings).mapped.port = (init.applyAll settings).localEp.port ∧
        ∀ addr, call = .scionSend (some addr) →
          addr.port = (init.applyAll settings).remote.port :=
  SendCall.cached_alike_iff hsend hinterim hsame hflags

/-- Which full sends hand something over. -/
theorem SendCall.exists_full (hflags : flags &&& ~~~sendFlags = 0)
    (hhost : p.localEp.host.isUnspecified = false) (hport : p.localEp.port ≠ 0)
    (hdst : (call.dst p).address.isFullySpecified = true)
    (hsrc : p.getSourceAddress path = .ok src) (hmod : extPos (call.dst p) src path % 4 = 0)
    (hlt : extPos (call.dst p) src path < 1024) :
    ∃ headers' t, call.full hash murmur32 p headers path nextHop payload flags
      = .ok (headers', t) := by
  have hemits : EmitsOptions ([] : List (Extension PlainOption)) (extPos (call.dst p) src path)
      [] [] := (emits_invalid (by simp) _).2
  obtain ⟨r, hpack⟩ : ∃ r, p.pack hash murmur32 headers call.addr path
      ([] : List (Extension PlainOption)) (.udp ⟨0, 0, 0, 0⟩) payload = .ok r :=
    ⟨_, pack_eq_ok_iff.mpr ⟨hhost, hport, hdst, src, hsrc,
      (build_eq_ok_iff hemits).mpr ⟨rfl, hmod, hlt, rfl⟩⟩⟩
  refine ⟨r.1, ⟨r.1.buffer, payload, nextHop, call.usedFlags flags⟩, ?_⟩
  rw [full_eq, sendBuilt, if_neg (not_not.mpr (usedFlags_allowed hflags)), hpack]

open RoundTrip

/-- A bound socket. -/
def bound : List Setting := [.setLocalEp (endpoint 1 3000)]

/-- A socket whose port is mapped. -/
def natted : List Setting := [.setLocalEp (endpoint 1 3000), .setMappedIpAndPort ⟨host 9, 40000⟩]

/-- One cached send after a full one to the same endpoint. -/
theorem SendCall.cached_full_iff_sendTo :
    ∃ headers' t latest,
      SendsAlike
        ((SendCall.sendTo (endpoint 2 5000)).cached (init.applyAll bound) latest emptyPath
          ⟨host 2, 5000⟩ [2] 0)
        ((SendCall.sendTo (endpoint 2 5000)).full (fun _ => 0) (fun _ _ => 0)
          (init.applyAll bound) HeaderCache.init emptyPath ⟨host 2, 5000⟩ [2] 0) ∧
      (SendCall.sendTo (endpoint 2 5000)).full (fun _ => 0) (fun _ _ => 0) (init.applyAll bound)
        HeaderCache.init emptyPath ⟨host 2, 5000⟩ [1] 0 = .ok (headers', t) ∧
      interimAll (init.applyAll bound, headers') [] = (init.applyAll bound, latest) := by
  obtain ⟨headers', t, hsend⟩ : ∃ headers' t,
      (SendCall.sendTo (endpoint 2 5000)).full (fun _ => 0) (fun _ _ => 0) (init.applyAll bound)
        HeaderCache.init emptyPath ⟨host 2, 5000⟩ [1] 0 = .ok (headers', t) :=
    SendCall.exists_full (by decide) (by decide) (by decide) (by decide)
      (show getSourceAddress _ _ = .ok (endpoint 1 3000) by decide) (by decide) (by decide)
  refine ⟨headers', t, headers', ?_, hsend, rfl⟩
  refine (SendCall.cached_full_iff bound (.sendTo (endpoint 2 5000)) emptyPath _ ⟨host 2, 5000⟩
    [1] [2] 0 0 [] _ headers' hsend rfl ⟨rfl, rfl, rfl, rfl⟩ (by decide)).mpr ⟨by decide, ?_⟩
  intro addr h
  cases h

/-- With a mapped port the cached send has another source port than the full one. -/
theorem not_forall_cached_full :
    ¬ ∀ (hash : ScIPAddress → UInt64) (murmur32 : List UInt8 → UInt32 → UInt32)
        (settings : List Setting) (call : SendCall) (headers headers' latest other : HeaderCache)
        (path : PathView) (nextHop nextHop' : IPEndpoint) (payload payload' : List UInt8)
        (flags flags' : UInt32) (interims : List Interim) (p' : ScionPackager)
        (t : Transmission),
      call.full hash murmur32 (init.applyAll settings) headers path nextHop payload flags
        = .ok (headers', t) →
      interimAll (init.applyAll settings, headers') interims = (p', latest) →
      SameSettings (init.applyAll settings) p' → flags' &&& ~~~sendFlags = 0 →
      SendsAlike (call.cached p' latest path nextHop' payload' flags')
        (call.full hash murmur32 p' other path nextHop' payload' flags') := by
  intro h
  obtain ⟨headers', t, hsend⟩ : ∃ headers' t,
      (SendCall.sendTo (endpoint 2 5000)).full (fun _ => 0) (fun _ _ => 0) (init.applyAll natted)
        HeaderCache.init emptyPath ⟨host 2, 5000⟩ [1] 0 = .ok (headers', t) :=
    SendCall.exists_full (by decide) (by decide) (by decide) (by decide)
      (show getSourceAddress _ _ = .ok (endpoint 9 40000) by decide) (by decide) (by decide)
  have halike := h _ _ natted _ _ _ headers' HeaderCache.init _ _ ⟨host 2, 5000⟩ _ [2] _ 0 [] _ _
    hsend rfl ⟨rfl, rfl, rfl, rfl⟩ (by decide)
  have hnone : interimAll (init.applyAll natted, headers') [] = (init.applyAll natted, headers') :=
    rfl
  have hports := ((SendCall.cached_alike_iff hsend hnone ⟨rfl, rfl, rfl, rfl⟩
    (by decide)).mp halike).1
  exact absurd hports (by decide)

end Cached

end Send

end ScionPackager

end Scion
