/-
Synchronous and asynchronous sockets (`asio/scmp_socket.hpp`, `asio/udp_socket.hpp`).

The underlay is a list of outcomes. A synchronous receive is a loop over them,
an asynchronous operation is an initiation and an intermediate handler that is
given one outcome at a time.

* `recvRound`, `recvScmpRound`, `recvStunRound` — one round of the synchronous
  loops;
* `recvHandler`, `recvScmpHandler`, `recvStunHandler`, `sendHandler`,
  `requestStunMappingHandler` — the intermediate handlers;
* `AsyncCall` — the asynchronous operations.
-/
import Scion.Completion
import Scion.Packager

namespace Scion

open Completion

/-- An error code of this library or of the operating system. -/
inductive AsioError
  | scion (ec : ErrorCode)
  | system (ec : ℕ)
  deriving DecidableEq, Repr

/-- What completion handlers are invoked with: an error code, what was sent of
the payload, or the payload received. -/
inductive AsioResult
  | code (ec : AsioError)
  | sent (result : Except AsioError (List UInt8))
  | received (result : Except AsioError (List UInt8))
  deriving DecidableEq, Repr

inductive Direction
  | send
  | receive
  deriving DecidableEq, Repr

/-- The number of bytes sent, or a datagram with its underlay source. -/
def Direction.Value : Direction → Type
  | .send => ℕ
  | .receive => List UInt8 × IPEndpoint

/-- The outcome of an underlay operation. -/
abbrev Outcome (d : Direction) : Type := Except ℕ d.Value

/-- `SMSG_RECV_SCMP` and `SMSG_RECV_STUN`. -/
structure RecvFlags where
  recvScmp : Bool
  recvStun : Bool
  deriving DecidableEq, Repr

/-- The arguments of an SCMP callback. -/
structure ScmpCall where
  sender : ScIPAddress
  path : ReceivedPath
  message : ScmpMessage
  payload : List UInt8
  deriving DecidableEq, Repr

/-- The state of a socket and the arguments of a receive call: the pointers to
sender and path can be null. `calls` are the calls of the SCMP handler. -/
structure AsioState (S : Type) where
  packager : ScionPackager
  buf : List UInt8
  hbhExt : List (Extension S)
  e2eExt : List (Extension S)
  sender : Option ScIPEndpoint
  path : Option ReceivedPath
  message : ScmpMessage
  calls : List ScmpCall
  deriving DecidableEq, Repr

namespace AsioState

section Receive

variable {S : Type} [ExtensionClass S]

/-- The datagram is stored in front of the buffer; what does not fit is lost.
The number is that of the bytes received. -/
def receive (s : AsioState S) (data : List UInt8) : AsioState S × ℕ :=
  let n := min data.length s.buf.length
  ({ s with buf := data.take n ++ s.buf.drop n }, n)

/-- `packager.unpack` on `n` bytes: the payload or an error code, and the call of
the SCMP callback. -/
def unpack (s : AsioState S) (n : ℕ) (ulSource : IPAddress) :
    Maybe (List UInt8) × Option ScmpCall × AsioState S :=
  match s.packager.unpack (s.buf.take n) ulSource s.hbhExt s.e2eExt with
  | (.error ec, packager) => (.error ec, none, { s with packager := packager })
  | (.ok u, packager) =>
    let s := { s with
      packager := packager
      hbhExt := u.hbhExt
      e2eExt := u.e2eExt
      sender := s.sender.map fun _ => u.sender
      path := s.path.map fun _ => u.path }
    match u.scmp with
    | some message =>
      (.error .scmpReceived, some ⟨u.sender.address, u.path, message, u.payload⟩, s)
    | none => (.ok u.payload, none, s)

/-- `packager.unpackStun` on a part of the buffer. -/
def unpackStun (s : AsioState S) (buf : List UInt8) (ulSource : IPAddress) :
    ErrorCode × AsioState S :=
  let (ec, packager) := s.packager.unpackStun buf ulSource
  (ec, { s with packager := packager })

/-- The SCMP callback of `UdpSocket`, if there is a handler. -/
def handleScmp (scmpHandler : Bool) (call : Option ScmpCall) (s : AsioState S) : AsioState S :=
  match call with
  | some call => if scmpHandler then { s with calls := s.calls ++ [call] } else s
  | none => s

/-- The SCMP callback of `ScmpSocket`. -/
def storeScmp (call : Option ScmpCall) (s : AsioState S) : AsioState S :=
  match call with
  | some call => { s with message := call.message }
  | none => s

end Receive

end AsioState

/-! ### Synchronous receive -/

section Sync

variable {S : Type} [ExtensionClass S]

/-- One round of `recvImpl`. -/
def recvRound (flags : RecvFlags) (scmpHandler : Bool) (s : AsioState S) :
    Outcome .receive → Option AsioResult × AsioState S
  | .error ec => (some (.received (.error (.system ec))), s)
  | .ok (data, ulSource) =>
    let (s, n) := s.receive data
    let (payload, call, s) := s.unpack n ulSource.host
    let s := s.handleScmp scmpHandler call
    match payload with
    | .ok payload => (some (.received (.ok payload)), s)
    | .error ec =>
      if ec = .scmpReceived then
        if flags.recvScmp then (some (.received (.error (.scion ec))), s) else (none, s)
      else if ec = .stunReceived then
        if flags.recvStun then (some (.received (.error (.scion ec))), s) else (none, s)
      else (none, s)

/-- One round of `recvScmpImpl`. -/
def recvScmpRound (flags : RecvFlags) (s : AsioState S) :
    Outcome .receive → Option AsioResult × AsioState S
  | .error ec => (some (.received (.error (.system ec))), s)
  | .ok (data, ulSource) =>
    let (s, n) := s.receive data
    let (decoded, call, s) := s.unpack n ulSource.host
    let s := s.storeScmp call
    match decoded with
    | .ok _ => (none, s)
    | .error ec =>
      if ec = .scmpReceived then
        (some (.received (.ok ((call.map ScmpCall.payload).getD []))), s)
      else if ec = .stunReceived then
        if flags.recvStun then (some (.received (.error (.scion ec))), s) else (none, s)
      else (none, s)

/-- One round of `recvStunResponse`. -/
def recvStunRound (s : AsioState S) : Outcome .receive → Option AsioResult × AsioState S
  | .error ec => (some (.code (.system ec)), s)
  | .ok (data, ulSource) =>
    let (s, n) := s.receive data
    let (ec, s) := s.unpackStun (s.buf.take n) ulSource.host
    if ec = .stunReceived then (some (.code (.scion ec)), s)
    else if ec ≠ .pending then (some (.code (.scion ec)), s)
    else (none, s)

end Sync

/-! ### Asynchronous operations -/

section Async

variable {S : Type} [ExtensionClass S]

/-- The intermediate handler of `recvAsyncImpl`. -/
def recvHandler (flags : RecvFlags) (scmpHandler : Bool) (s : AsioState S) :
    Outcome .receive → List (Effect AsioResult) × AsioState S
  | .error ec => ([.complete (.received (.error (.system ec)))], s)
  | .ok (data, ulSource) =>
    let (s, n) := s.receive data
    let (payload, call, s) := s.unpack n ulSource.host
    let s := s.handleScmp scmpHandler call
    match payload with
    | .error ec =>
      if ec = .scmpReceived then
        if flags.recvScmp then ([.complete (.received (.error (.scion ec)))], s)
        else ([.start], s)
      -- not the code of STUN
      else if ec = .scmpReceived then
        if flags.recvStun then ([.complete (.received (.error (.scion ec)))], s)
        else ([.start], s)
      else ([.start], s)
    | .ok payload => ([.complete (.received (.ok payload))], s)

/-- The intermediate handler of `recvScmpAsyncImpl`. -/
def recvScmpHandler (flags : RecvFlags) (s : AsioState S) :
    Outcome .receive → List (Effect AsioResult) × AsioState S
  | .error ec => ([.complete (.received (.error (.system ec)))], s)
  | .ok (data, ulSource) =>
    let (s, n) := s.receive data
    let (decoded, call, s) := s.unpack n ulSource.host
    let s := s.storeScmp call
    match decoded with
    | .error ec =>
      if ec = .scmpReceived then
        ([.complete (.received (.ok ((call.map ScmpCall.payload).getD [])))], s)
      -- not the code of STUN
      else if ec = .scmpReceived then
        if flags.recvStun then ([.complete (.received (.error (.scion ec)))], s)
        else ([.start], s)
      else ([.start], s)
    | .ok _ => ([.start], s)

/-- The intermediate handler of `recvStunResponseAsync`, which looks at the
whole buffer. -/
def recvStunHandler (s : AsioState S) :
    Outcome .receive → List (Effect AsioResult) × AsioState S
  | .error ec => ([.complete (.code (.system ec))], s)
  | .ok (data, ulSource) =>
    let (s, _) := s.receive data
    let (ec, s) := s.unpackStun s.buf ulSource.host
    if ec = .stunReceived ∨ ec ≠ .pending then ([.complete (.code (.scion ec))], s)
    else ([.start], s)

/-- The intermediate handler of `sendAsyncImpl`, `sendCachedAsyncImpl` and
`sendScmpToAsyncImpl`. -/
def sendHandler (headers payload : List UInt8) (s : AsioState S) (outcome : Outcome .send) :
    List (Effect AsioResult) × AsioState S :=
  let result : Except AsioError (List UInt8) :=
    match outcome with
    | .error ec => .error (.system ec)
    | .ok sent =>
      let n := (show ℕ from sent : ℤ) - headers.length
      if n < 0 then .error (.scion .packetTooBig) else .ok (payload.take n.toNat)
  ([.complete (.sent result)], s)

/-- The intermediate handler of `requestStunMappingAsync` goes on after it has
invoked the completion handler with an error. -/
def requestStunMappingHandler (s : AsioState S) (outcome : Outcome .send) :
    List (Effect AsioResult) × AsioState S :=
  let onError : List (Effect AsioResult) :=
    match outcome with
    | .error ec => [.complete (.code (.system ec))]
    | .ok _ => []
  (onError ++ [.complete (.code (.scion .ok))], s)

/-- The asynchronous operations of the sockets. -/
inductive AsyncCall (S : Type) : Direction → Type
  | requestStunMapping (router : IPEndpoint) (rand₁ rand₂ : UInt64) : AsyncCall S .send
  | send (headers : HeaderCache) (dst : Option ScIPEndpoint) (path : PathView)
    (extensions : List (Extension S)) (payload : List UInt8) : AsyncCall S .send
  | sendCached (headers : HeaderCache) (dst : Option ScIPEndpoint) (payload : List UInt8) :
    AsyncCall S .send
  | sendScmp (headers : HeaderCache) (dst : ScIPEndpoint) (path : PathView)
    (extensions : List (Extension S)) (message : ScmpMessage) (payload : List UInt8) :
    AsyncCall S .send
  | recv (flags : RecvFlags) (scmpHandler : Bool) : AsyncCall S .receive
  | recvScmp (flags : RecvFlags) : AsyncCall S .receive
  | recvStunResponse : AsyncCall S .receive

namespace AsyncCall

variable (hash : ScIPAddress → UInt64) (murmur32 : List UInt8 → UInt32 → UInt32)

/-- The initiation of a send operation: an error of `pack` is posted to the
executor of the completion handler. -/
def initiateSend (s : AsioState S) (packed : Maybe (HeaderCache × L4Header))
    (payload : List UInt8) : Operation (AsioState S) (Outcome .send) AsioResult :=
  match packed with
  | .error ec => ⟨s, [.complete (.sent (.error (.scion ec)))], sendHandler [] payload⟩
  | .ok (headers, _) => ⟨s, [.start], sendHandler headers.buffer payload⟩

/-- The operation in a socket with the state `s`. -/
def operation (s : AsioState S) : {d : Direction} → AsyncCall S d →
    Operation (AsioState S) (Outcome d) AsioResult
  | _, requestStunMapping router rand₁ rand₂ =>
    match s.packager.createStunRequest (List.replicate 20 0) router.host rand₁ rand₂ with
    | (.ok, _, packager) =>
      ⟨{ s with packager := packager }, [.start], requestStunMappingHandler⟩
    | (ec, _, packager) =>
      ⟨{ s with packager := packager }, [.complete (.code (.scion ec))],
        requestStunMappingHandler⟩
  | _, send headers dst path extensions payload =>
    initiateSend s
      (s.packager.pack hash murmur32 headers dst path extensions (.udp ⟨0, 0, 0, 0⟩) payload) payload
  | _, sendCached headers dst payload =>
    let udp : UDP := ⟨s.packager.localEp.port, (dst.getD s.packager.remote).port, 0, 0⟩
    initiateSend s (ScionPackager.packUpdate headers (.udp udp) payload) payload
  | _, sendScmp headers dst path extensions message payload =>
    initiateSend s
      (s.packager.pack hash murmur32 headers (some dst) path extensions (.scmp ⟨0, message⟩) payload)
      payload
  | _, recv flags scmpHandler => ⟨s, [.start], recvHandler flags scmpHandler⟩
  | _, recvScmp flags => ⟨s, [.start], recvScmpHandler flags⟩
  | _, recvStunResponse => ⟨{ s with buf := List.replicate 128 0 }, [.start], recvStunHandler⟩

/-- What the completion handler is to be invoked with when an underlay operation
has failed. -/
def onError {d : Direction} : AsyncCall S d → ℕ → AsioResult
  | requestStunMapping .., ec => .code (.system ec)
  | send .., ec => .sent (.error (.system ec))
  | sendCached .., ec => .sent (.error (.system ec))
  | sendScmp .., ec => .sent (.error (.system ec))
  | recv .., ec => .received (.error (.system ec))
  | recvScmp .., ec => .received (.error (.system ec))
  | recvStunResponse, ec => .code (.system ec)

def failure {d : Direction} (call : AsyncCall S d) : Outcome d → Option AsioResult
  | .ok _ => none
  | .error ec => some (call.onError ec)

end AsyncCall

end Async

end Scion
