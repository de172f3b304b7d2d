/-
The underlay sockets of the translator (`scitra-tun/socket.hpp`,
`scitra-tun/socket.cpp`).

A socket behind a NAT asks for its mapped address with a STUN binding request to the
next hop, and holds the packet back that it was to send there.

* `Socket`, with `requestStunMapping`, `sendHeldPacket`, `ingressNat`, `egressNat` and
  `recvPacket`;
* `System` — a socket and the threads that send on it. A call of `sendPacket` is taken
  apart where another thread can come in between: the STUN state is only used under its
  mutex.
-/
import Scion.Packager
import Scion.PacketParts
import Scion.Runs

namespace Scion

/-- `hdr::details::updateInternetChecksum`. -/
def updateInternetChecksum (chksum : UInt16) (add sub : UInt32) : UInt16 :=
  let sum := (~~~chksum).toUInt32
  let sum := sum + add - sub
  let sum := (sum >>> 16) + (sum &&& 0xffff)
  let sum := if sum = 0 then 0xffff else sum
  (~~~sum).toUInt16

namespace PacketBuffer

/-- Update the checksum of TCP or UDP. -/
def l4UpdateChecksum (add sub : UInt32) (pkt : PacketBuffer) : PacketBuffer :=
  match pkt.l4Valid with
  | .tcp => { pkt with tcp.chksum := updateInternetChecksum pkt.tcp.chksum add sub }
  | .udp => { pkt with udp.chksum := updateInternetChecksum pkt.udp.chksum add sub }
  | _ => pkt

end PacketBuffer

/-- The settings of all sockets. -/
structure StunConfig where
  enableStun : Bool
  stunPort : UInt16
  natTimeout : ℤ

/-- The error codes of the socket functions. -/
inductive SocketError
  | ok
  | stunReceived
  | logicError
  | partialWrite
  | invalidPacket
  | packet (ec : ErrorCode)
  | underlay (ec : ℕ)
  deriving DecidableEq, Repr

/-- What a call of `send_to` on the underlay socket returns. -/
structure SendOutcome where
  ec : Option ℕ
  n : ℕ
  deriving DecidableEq, Repr

/-- A packet that has to be sent, its next hop, and when it was received. -/
structure SendCall where
  pkt : PacketBuffer
  nextHop : IPEndpoint
  t : ℤ
  deriving DecidableEq, Repr

/-- Data that is handed to the underlay socket. -/
abbrev Datagram := List UInt8 × IPEndpoint

abbrev HeldPacket := PacketBuffer × IPEndpoint

structure StunState where
  expectStunResponse : ℕ := 0
  expectedStunServer : IPAddress := .v4 0
  stunTx : List UInt8 := List.replicate 12 0
  heldPacket : Option HeldPacket := none
  deriving DecidableEq, Repr

/-- A UDP underlay socket. Times are relative to the epoch of the clock. -/
structure Socket where
  localPort : UInt16
  persistent : Bool
  localAddress : IPAddress
  mapped : Option IPEndpoint := none
  lastUsed : ℤ := 0
  stun : StunState := {}
  deriving DecidableEq, Repr

namespace Socket

/-! ### Address translation -/

def ingressNat (s : Socket) (pkt : PacketBuffer) : PacketBuffer :=
  match s.mapped with
  | none => pkt
  | some _ =>
    let (pkt, add, sub) :=
      if pkt.scionValid then
        let dst : ScIPAddress := ⟨pkt.sci.dst.isdAsn, s.localAddress⟩
        ({ pkt with sci.dst := dst }, dst.checksum, pkt.sci.dst.checksum)
      else (pkt, 0, 0)
    let (pkt, add, sub) :=
      match pkt.l4Valid with
      | .tcp =>
        ({ pkt with tcp.dport := s.localPort }, add + s.localPort.toUInt32,
          sub + pkt.tcp.dport.toUInt32)
      | .udp =>
        ({ pkt with udp.dport := s.localPort }, add + s.localPort.toUInt32,
          sub + pkt.udp.dport.toUInt32)
      | .scmp =>
        match pkt.scmp.msg with
        | .echoReply id seq =>
          ({ pkt with scmp.msg := .echoReply s.localPort seq }, add + s.localPort.toUInt32,
            sub + id.toUInt32)
        | _ => (pkt, add, sub)
      | _ => (pkt, add, sub)
    pkt.l4UpdateChecksum add sub

def egressNat (s : Socket) (pkt : PacketBuffer) : PacketBuffer :=
  match s.mapped with
  | none => pkt
  | some mapped =>
    let (pkt, add, sub) :=
      if pkt.scionValid then
        let src : ScIPAddress := ⟨pkt.sci.src.isdAsn, mapped.host⟩
        ({ pkt with sci.src := src }, src.checksum, pkt.sci.src.checksum)
      else (pkt, 0, 0)
    let (pkt, add, sub) :=
      match pkt.l4Valid with
      | .tcp =>
        ({ pkt with tcp.sport := mapped.port }, add + mapped.port.toUInt32,
          sub + pkt.tcp.sport.toUInt32)
      | .udp =>
        ({ pkt with udp.sport := mapped.port }, add + mapped.port.toUInt32,
          sub + pkt.udp.sport.toUInt32)
      | .scmp =>
        match pkt.scmp.msg with
        | .echoRequest id seq =>
          ({ pkt with scmp.msg := .echoRequest mapped.port seq }, add + mapped.port.toUInt32,
            sub + id.toUInt32)
        | _ => (pkt, add, sub)
      | _ => (pkt, add, sub)
    pkt.l4UpdateChecksum add sub

/-! ### STUN -/

/-- Whether the mapping might be outdated. -/
def natExpired (cfg : StunConfig) (s : Socket) (t : ℤ) : Bool :=
  cfg.enableStun && decide (cfg.natTimeout < t - s.lastUsed)

/-- Send a binding request to the next hop. The code is `stunReceived` if no more
requests should be sent. -/
def requestStunMapping (cfg : StunConfig) (s : Socket) (pkt : PacketBuffer) (nextHop : IPEndpoint)
    (rand₁ rand₂ : UInt64) (out : SendOutcome) : SocketError × Option Datagram × Socket :=
  let stun : STUN :=
    ⟨StunMsgType.bindingRequest, ScionPackager.stunTransaction rand₁ rand₂, none⟩
  match stun.write (WriteStream.ofBuffer (List.replicate 20 0)) with
  | .error _ _ => (.logicError, none, s)
  | .ok _ ws =>
    if s.stun.expectStunResponse ≥ 3 then
      -- give up on STUN and try direct connection
      (.stunReceived, none, { s with
        stun.expectStunResponse := 0
        mapped := some ⟨s.localAddress, s.localPort⟩ })
    else
      let server := if cfg.stunPort = 0 then nextHop else { nextHop with port := cfg.stunPort }
      let sent := some (ws.data, server)
      match out.ec with
      | some ec => (.underlay ec, sent, s)
      | none =>
        if out.n < ws.data.length then (.partialWrite, sent, s)
        else
          (.ok, sent, { s with stun := {
            expectStunResponse := s.stun.expectStunResponse + 1
            expectedStunServer := server.host
            stunTx := stun.transaction
            heldPacket := some (pkt, nextHop) } })

/-- Send the packet held back at the last binding request. -/
def sendHeldPacket (s : Socket) (held : HeldPacket) (out : SendOutcome) :
    SocketError × Option Datagram :=
  match ((s.egressNat held.1).emitPacket true).1 with
  | .error ec => (.packet ec, none)
  | .ok buffer =>
    let sent := some (buffer, held.2)
    if out.n < buffer.length then (.partialWrite, sent)
    else
      match out.ec with
      | some ec => (.underlay ec, sent)
      | none => (.ok, sent)

/-- Respond to a binding request with the observed remote endpoint. -/
def respondToBindingReq (pkt : PacketBuffer) (source : IPEndpoint) (out : SendOutcome) :
    SocketError × Option Datagram :=
  let stun : STUN := ⟨StunMsgType.bindingResponse, pkt.stun.transaction, some source⟩
  match stun.write (WriteStream.ofBuffer (List.replicate 44 0)) with
  | .error _ _ => (.logicError, none)
  | .ok _ ws =>
    let data := ws.data.take ws.bytePos
    let sent := some (data, source)
    match out.ec with
    | some ec => (.underlay ec, sent)
    | none => if out.n < data.length then (.partialWrite, sent) else (.ok, sent)

/-! ### Receiving -/

/-- What a call of `recvPacket` returns and does: `held` is the held packet that it hands
to `sendHeldPacket`. -/
structure Received where
  ec : SocketError
  pkt : PacketBuffer
  socket : Socket
  held : Option HeldPacket := none
  sent : Option Datagram := none

/-- Take a binding response, under the mutex of the STUN state. -/
def takeResponse (s : Socket) (pkt : PacketBuffer) (source : IPEndpoint) (out : SendOutcome)
    (now : ℤ) : Received :=
  if source.host ≠ s.stun.expectedStunServer then ⟨.invalidPacket, pkt, s, none, none⟩
  else if pkt.stun.transaction ≠ s.stun.stunTx then ⟨.invalidPacket, pkt, s, none, none⟩
  else
    let s := { s with stun.expectStunResponse := 0 }
    match pkt.stun.mapped with
    | none => ⟨.stunReceived, pkt, s, none, none⟩
    | some address =>
      let s := { s with mapped := some address }
      match s.stun.heldPacket with
      | none => ⟨.stunReceived, pkt, s, none, none⟩
      | some held =>
        ⟨.stunReceived, pkt, { s with stun.heldPacket := none, lastUsed := now }, some held,
          (s.sendHeldPacket held out).2⟩

/-- Handle a parsed packet. -/
def handlePacket (cfg : StunConfig) (s : Socket) (pkt : PacketBuffer) (source : IPEndpoint)
    (out : SendOutcome) (now : ℤ) : Received :=
  if cfg.enableStun then
    if pkt.stunValid then
      if pkt.stun.type = StunMsgType.bindingRequest then
        -- persistent sockets answer binding requests, whether or not the answer is sent
        if !s.persistent then ⟨.invalidPacket, pkt, s, none, none⟩
        else ⟨.stunReceived, pkt, s, none, (respondToBindingReq pkt source out).2⟩
      else if pkt.stun.type = StunMsgType.bindingResponse then
        s.takeResponse pkt source out now
      else ⟨.invalidPacket, pkt, s, none, none⟩
    else ⟨.ok, s.ingressNat pkt, s, none, none⟩
  else ⟨.ok, pkt, s, none, none⟩

/-- Receive and parse a packet. The underlay socket fills the buffer behind four bytes of
headroom. -/
def recvPacket (cfg : StunConfig) (s : Socket) (pkt : PacketBuffer)
    (datagram : Except ℕ Datagram) (out : SendOutcome) (now : ℤ) : Received :=
  match datagram with
  | .error ec => ⟨.underlay ec, pkt.clearAndGetBuffer 4, s, none, none⟩
  | .ok (data, source) =>
    match pkt.receive 4 (data.take (pkt.clearAndGetBuffer 4).packet.size) true none with
    | (.ok, pkt) => handlePacket cfg s pkt source out now
    | (ec, pkt) => ⟨.packet ec, pkt, s, none, none⟩

/-! ### Sending -/

/-- The rest of `sendPacket`, up to where the time of the last use is stored. -/
def transmit (cfg : StunConfig) (s : Socket) (call : SendCall) (out : SendOutcome) :
    SocketError × Option Datagram :=
  let pkt := if cfg.enableStun then s.egressNat call.pkt else call.pkt
  match (pkt.emitPacket true).1 with
  | .error ec => (.packet ec, none)
  | .ok buffer =>
    let sent := some (buffer, call.nextHop)
    match out.ec with
    | some ec => (.underlay ec, sent)
    | none => if out.n < buffer.length then (.partialWrite, sent) else (.ok, sent)

end Socket

/-! ### Runs -/

/-- Where a thread is in a call of `sendPacket`. -/
inductive SendPhase
  | idle
  | requesting (call : SendCall)
  | transmitting (call : SendCall)
  | transmitted (call : SendCall)
  deriving DecidableEq, Repr

/-- What the threads of a socket do, with the codes that are returned. -/
inductive SocketEvent
  /-- `sendPacket` is called and looks whether the mapping might be outdated. -/
  | sendPacket (thread : ℕ) (call : SendCall)
  | requestStunMapping (thread : ℕ) (call : SendCall) (rand₁ rand₂ : UInt64) (out : SendOutcome)
      (ec : SocketError)
  | transmit (thread : ℕ) (call : SendCall) (out : SendOutcome)
  /-- The time of the last use is stored. -/
  | stamp (thread : ℕ) (call : SendCall)
  | recvPacket (pkt : PacketBuffer) (datagram : Except ℕ Datagram) (out : SendOutcome) (now : ℤ)
      (ec : SocketError) (held : Option HeldPacket)
  deriving DecidableEq

/-- A socket and the threads that send on it. -/
structure SocketSystem where
  socket : Socket
  threads : ℕ → SendPhase := fun _ => .idle

namespace SocketSystem

def setThread (sys : SocketSystem) (thread : ℕ) (phase : SendPhase) : SocketSystem :=
  { sys with threads := Function.update sys.threads thread phase }

@[simp] theorem socket_setThread (sys : SocketSystem) (thread : ℕ) (phase : SendPhase) :
    (sys.setThread thread phase).socket = sys.socket := rfl

/-- An open socket that was not used yet. -/
def opened (localPort : UInt16) (persistent : Bool) (localAddress : IPAddress) : SocketSystem :=
  { socket := { localPort := localPort, persistent := persistent, localAddress := localAddress } }

def step (cfg : StunConfig) (sys : SocketSystem) : SocketEvent → Option SocketSystem
  | .sendPacket thread call =>
    if sys.threads thread = .idle then
      some (sys.setThread thread (if sys.socket.natExpired cfg call.t then .requesting call
        else .transmitting call))
    else none
  | .requestStunMapping thread call rand₁ rand₂ out ec =>
    let r := sys.socket.requestStunMapping cfg call.pkt call.nextHop rand₁ rand₂ out
    if sys.threads thread = .requesting call ∧ r.1 = ec then
      some ({ sys with socket := r.2.2 }.setThread thread
        (if ec = SocketError.stunReceived then .transmitting call else .idle))
    else none
  | .transmit thread call out =>
    if sys.threads thread = .transmitting call then
      some (sys.setThread thread
        (if (sys.socket.transmit cfg call out).1 = .ok then .transmitted call else .idle))
    else none
  | .stamp thread call =>
    if sys.threads thread = .transmitted call then
      some ({ sys with socket.lastUsed := call.t }.setThread thread .idle)
    else none
  | .recvPacket pkt datagram out now ec held =>
    let r := sys.socket.recvPacket cfg pkt datagram out now
    if r.ec = ec ∧ r.held = held then some { sys with socket := r.socket } else none

end SocketSystem

end Scion
