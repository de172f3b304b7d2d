/-
The mapping of a socket of the translator follows the outstanding STUN request
(`scitra-tun/socket.cpp`).

* `SocketEvent.request`, `SocketEvent.response` — the binding requests that are sent, and
  the binding responses that are received;
* `SocketSystem.Tracks` — what the STUN state holds of the history;
* `SocketSystem.FollowsRequest` — the mapping changes only by giving up after three
  unanswered requests, or by the response to an unanswered one;
* `SocketSystem.follows_request_iff` — it does so in every run in which no response comes
  a second time.
-/
import Scion.Socket

namespace Scion

open Runs

/-! ### What is sent and received -/

/-- A binding request, and the call of `sendPacket` whose packet is held back for it. -/
structure SocketRequest where
  call : SendCall
  transaction : List UInt8
  deriving DecidableEq, Repr

namespace SocketRequest

def server (req : SocketRequest) : IPAddress := req.call.nextHop.host

def held (req : SocketRequest) : HeldPacket := (req.call.pkt, req.call.nextHop)

end SocketRequest

namespace Socket

/-- The binding response in a datagram, and the address it comes from. -/
def response (pkt : PacketBuffer) : Except ℕ Datagram → Option (STUN × IPAddress)
  | .error _ => none
  | .ok (data, source) =>
    let received := pkt.receive 4 (data.take (pkt.clearAndGetBuffer 4).packet.size) true none
    if received.1 = .ok ∧ received.2.stunValid = true ∧
        received.2.stun.type = StunMsgType.bindingResponse then
      some (received.2.stun, source.host)
    else none

end Socket

namespace SocketEvent

/-- The request that is sent. -/
def request : SocketEvent → Option SocketRequest
  | requestStunMapping _ call rand₁ rand₂ _ .ok =>
    some ⟨call, ScionPackager.stunTransaction rand₁ rand₂⟩
  | _ => none

/-- The socket gives up on STUN. -/
def gaveUp : SocketEvent → Bool
  | requestStunMapping _ _ _ _ _ ec => decide (ec = .stunReceived)
  | _ => false

/-- The binding response that is received, and the address it comes from. -/
def response : SocketEvent → Option (STUN × IPAddress)
  | recvPacket pkt datagram .. => Socket.response pkt datagram
  | _ => none

/-- A binding response is received and taken. -/
def accepted (e : SocketEvent) : Bool :=
  match e with
  | recvPacket _ _ _ _ ec _ => e.response.isSome && decide (ec = .stunReceived)
  | _ => false

/-- The held packet that is sent. -/
def held : SocketEvent → Option HeldPacket
  | recvPacket _ _ _ _ _ held => held
  | _ => none

/-- A binding response comes from the server and carries the transaction. -/
def Answers (server : IPAddress) (transaction : List UInt8) (e : SocketEvent) : Prop :=
  ∃ stun, e.response = some (stun, server) ∧ stun.transaction = transaction

end SocketEvent

/-! ### Single functions -/

namespace Socket

variable {cfg : StunConfig} {s : Socket}

/-- A request gives up, is sent, or leaves the socket as it was. -/
theorem requestStunMapping_cases (cfg : StunConfig) (s : Socket) (pkt : PacketBuffer)
    (nextHop : IPEndpoint) (rand₁ rand₂ : UInt64) (out : SendOutcome) :
    (3 ≤ s.stun.expectStunResponse ∧
      (s.requestStunMapping cfg pkt nextHop rand₁ rand₂ out).1 = .stunReceived ∧
      (s.requestStunMapping cfg pkt nextHop rand₁ rand₂ out).2.2 = { s with
        stun.expectStunResponse := 0
        mapped := some ⟨s.localAddress, s.localPort⟩ }) ∨
    ((s.requestStunMapping cfg pkt nextHop rand₁ rand₂ out).1 = .ok ∧
      (s.requestStunMapping cfg pkt nextHop rand₁ rand₂ out).2.2 = { s with stun := {
        expectStunResponse := s.stun.expectStunResponse + 1
        expectedStunServer := nextHop.host
        stunTx := ScionPackager.stunTransaction rand₁ rand₂
        heldPacket := some (pkt, nextHop) } }) ∨
    ((s.requestStunMapping cfg pkt nextHop rand₁ rand₂ out).1 ≠ .stunReceived ∧
      (s.requestStunMapping cfg pkt nextHop rand₁ rand₂ out).1 ≠ .ok ∧
      (s.requestStunMapping cfg pkt nextHop rand₁ rand₂ out).2.2 = s) := by
  have hserver : (if cfg.stunPort = 0 then nextHop else { nextHop with port := cfg.stunPort }).host
      = nextHop.host := by
    split <;> rfl
  rw [requestStunMapping]
  dsimp only
  split
  · exact Or.inr (Or.inr ⟨SocketError.noConfusion, SocketError.noConfusion, rfl⟩)
  · by_cases hgive : s.stun.expectStunResponse ≥ 3
    · rw [if_pos hgive]
      exact Or.inl ⟨hgive, rfl, rfl⟩
    · rw [if_neg hgive]
      cases out.ec with
      | some ec => exact Or.inr (Or.inr ⟨SocketError.noConfusion, SocketError.noConfusion, rfl⟩)
      | none =>
        dsimp only
        split
        · exact Or.inr (Or.inr ⟨SocketError.noConfusion, SocketError.noConfusion, rfl⟩)
        · rw [hserver]
          exact Or.inr (Or.inl ⟨rfl, rfl⟩)

/-- A response that matches is taken, and no other is. -/
theorem takeResponse_cases (s : Socket) (pkt : PacketBuffer) (source : IPEndpoint)
    (out : SendOutcome) (now : ℤ) :
    ((source.host = s.stun.expectedStunServer ∧ pkt.stun.transaction = s.stun.stunTx) ∧
      (s.takeResponse pkt source out now).ec = .stunReceived ∧
      ∃ mapped heldPacket lastUsed,
        (s.takeResponse pkt source out now).socket = { s with
          stun.expectStunResponse := 0
          stun.heldPacket := heldPacket
          mapped := mapped
          lastUsed := lastUsed } ∧
        (pkt.stun.mapped = none → mapped = s.mapped) ∧
        (∀ address, pkt.stun.mapped = some address → mapped = some address) ∧
        (((s.takeResponse pkt source out now).held = none ∧ heldPacket = s.stun.heldPacket) ∨
          ((s.takeResponse pkt source out now).held = s.stun.heldPacket ∧ heldPacket = none))) ∨
    (¬(source.host = s.stun.expectedStunServer ∧ pkt.stun.transaction = s.stun.stunTx) ∧
      (s.takeResponse pkt source out now).ec = .invalidPacket ∧
      (s.takeResponse pkt source out now).socket = s ∧
      (s.takeResponse pkt source out now).held = none) := by
  rw [takeResponse]
  by_cases hserver : source.host = s.stun.expectedStunServer
  swap
  · rw [if_pos hserver]
    exact Or.inr ⟨fun h => hserver h.1, rfl, rfl, rfl⟩
  rw [if_neg (not_not_intro hserver)]
  by_cases htx : pkt.stun.transaction = s.stun.stunTx
  swap
  · rw [if_pos htx]
    exact Or.inr ⟨fun h => htx h.2, rfl, rfl, rfl⟩
  rw [if_neg (not_not_intro htx)]
  refine Or.inl ⟨⟨hserver, htx⟩, ?_⟩
  cases hmapped : pkt.stun.mapped with
  | none =>
    refine ⟨rfl, s.mapped, s.stun.heldPacket, s.lastUsed, rfl, fun _ => rfl, ?_, Or.inl ⟨rfl, rfl⟩⟩
    intro address h
    cases h
  | some address =>
    have hset : ∀ {m : Option IPEndpoint}, some address = none → m = s.mapped := by
      intro m h
      cases h
    cases hheld : s.stun.heldPacket with
    | none =>
      simp only [hheld]
      exact ⟨trivial, some address, none, s.lastUsed, rfl, hset, fun _ h => h, Or.inl ⟨trivial, rfl⟩⟩
    | some held =>
      simp only [hheld]
      exact ⟨trivial, some address, none, now, rfl, hset, fun _ h => h, Or.inr ⟨trivial, rfl⟩⟩

/-- Binding responses are handed to `takeResponse`, and nothing else touches the socket. -/
theorem recvPacket_cases (henabled : cfg.enableStun = true) (s : Socket) (pkt : PacketBuffer)
    (datagram : Except ℕ Datagram) (out : SendOutcome) (now : ℤ) :
    (∃ received source, response pkt datagram = some (received.stun, source.host) ∧
      s.recvPacket cfg pkt datagram out now = s.takeResponse received source out now) ∨
    (response pkt datagram = none ∧ (s.recvPacket cfg pkt datagram out now).socket = s ∧
      (s.recvPacket cfg pkt datagram out now).held = none) := by
  rcases datagram with code | ⟨data, source⟩
  · exact Or.inr ⟨rfl, rfl, rfl⟩
  rw [recvPacket.eq_def, response]
  dsimp only
  rcases pkt.receive 4 (data.take (pkt.clearAndGetBuffer 4).packet.size) true none with
    ⟨code, received⟩
  dsimp only
  by_cases hcode : code = .ok
  swap
  · rw [if_neg fun h => hcode h.1]
    refine Or.inr ⟨rfl, ?_⟩
    cases code with
    | ok => exact absurd rfl hcode
    | _ => exact ⟨rfl, rfl⟩
  subst hcode
  dsimp only
  rw [handlePacket, if_pos henabled]
  by_cases hvalid : received.stunValid = true
  swap
  · rw [if_neg fun h => hvalid h.2.1, if_neg hvalid]
    exact Or.inr ⟨rfl, rfl, rfl⟩
  rw [if_pos hvalid]
  by_cases htype : received.stun.type = StunMsgType.bindingResponse
  · rw [if_pos ⟨rfl, hvalid, htype⟩, if_neg (by rw [htype]; decide), if_pos htype]
    exact Or.inl ⟨received, source, rfl, rfl⟩
  · rw [if_neg fun h => htype h.2.2, if_neg htype]
    refine Or.inr ⟨rfl, ?_⟩
    split_ifs <;> exact ⟨rfl, rfl⟩

end Socket

/-! ### Single steps -/

namespace SocketSystem

variable {cfg : StunConfig} {sys sys' : SocketSystem} {e : SocketEvent}

/-- What an event does to the STUN state and the mapping. -/
inductive Effect (sys sys' : SocketSystem) (e : SocketEvent) : Prop
  | gaveUp (gaveUp : e.gaveUp = true) (request : e.request = none) (accepted : e.accepted = false)
      (response : e.response = none) (held : e.held = none)
      (three : 3 ≤ sys.socket.stun.expectStunResponse)
      (stun : sys'.socket.stun = { sys.socket.stun with expectStunResponse := 0 })
  | requested (gaveUp : e.gaveUp = false) (accepted : e.accepted = false)
      (response : e.response = none) (held : e.held = none) (req : SocketRequest)
      (request : e.request = some req)
      (stun : sys'.socket.stun =
        ⟨sys.socket.stun.expectStunResponse + 1, req.server, req.transaction, some req.held⟩)
      (mapped : sys'.socket.mapped = sys.socket.mapped)
  | accepted (gaveUp : e.gaveUp = false) (request : e.request = none) (accepted : e.accepted = true)
      (stun : STUN) (heldPacket : Option HeldPacket)
      (response : e.response = some (stun, sys.socket.stun.expectedStunServer))
      (transaction : stun.transaction = sys.socket.stun.stunTx)
      (stun_eq : sys'.socket.stun =
        { sys.socket.stun with expectStunResponse := 0, heldPacket := heldPacket })
      (same : stun.mapped = none → sys'.socket.mapped = sys.socket.mapped)
      (mapped : ∀ address, stun.mapped = some address → sys'.socket.mapped = some address)
      (held : (e.held = none ∧ heldPacket = sys.socket.stun.heldPacket) ∨
        (e.held = sys.socket.stun.heldPacket ∧ heldPacket = none))
  | other (gaveUp : e.gaveUp = false) (request : e.request = none) (accepted : e.accepted = false)
      (answers : ¬e.Answers sys.socket.stun.expectedStunServer sys.socket.stun.stunTx)
      (held : e.held = none) (stun : sys'.socket.stun = sys.socket.stun)
      (mapped : sys'.socket.mapped = sys.socket.mapped)

theorem effect_recvPacket (henabled : cfg.enableStun = true) (sys : SocketSystem)
    (pkt : PacketBuffer) (datagram : Except ℕ Datagram) (out : SendOutcome) (now : ℤ) :
    Effect sys { sys with socket := (sys.socket.recvPacket cfg pkt datagram out now).socket }
      (SocketEvent.recvPacket pkt datagram out now
        (sys.socket.recvPacket cfg pkt datagram out now).ec
        (sys.socket.recvPacket cfg pkt datagram out now).held) := by
  rcases sys.socket.recvPacket_cases henabled pkt datagram out now with
    ⟨received, source, hresponse, htake⟩ | ⟨hresponse, hsocket, hheld⟩
  · rw [htake]
    rcases sys.socket.takeResponse_cases received source out now with
      ⟨⟨hserver, htx⟩, hec, mapped, heldPacket, lastUsed, hsocket, hsame, hmapped, hheld⟩ |
        ⟨hnot, hec, hsocket, hheld⟩
    · rw [hserver] at hresponse
      refine Effect.accepted rfl rfl ?_ received.stun heldPacket hresponse htx ?_ ?_ ?_ hheld
      · simp [SocketEvent.accepted, SocketEvent.response, hresponse, hec]
      · rw [hsocket]
      · intro hnone
        rw [hsocket]
        exact hsame hnone
      · intro address haddress
        rw [hsocket]
        exact hmapped address haddress
    · refine Effect.other rfl rfl ?_ ?_ hheld (by rw [hsocket]) (by rw [hsocket])
      · rw [SocketEvent.accepted, hec]
        exact Bool.and_false _
      · rintro ⟨stun, hstun, htx⟩
        rw [SocketEvent.response, hresponse, Option.some.injEq, Prod.mk.injEq] at hstun
        obtain ⟨rfl, hserver⟩ := hstun
        exact hnot ⟨hserver, htx⟩
  · refine Effect.other rfl rfl ?_ ?_ hheld (by rw [hsocket]) (by rw [hsocket])
    · rw [SocketEvent.accepted, SocketEvent.response, hresponse]
      rfl
    · rintro ⟨stun, hstun, -⟩
      rw [SocketEvent.response, hresponse] at hstun
      cases hstun

theorem effect_of_step (henabled : cfg.enableStun = true) (h : sys.step cfg e = some sys') :
    Effect sys sys' e := by
  have hnone : e.response = none →
      ¬e.Answers sys.socket.stun.expectedStunServer sys.socket.stun.stunTx := by
    rintro hnone ⟨stun, hresponse, -⟩
    rw [hnone] at hresponse
    cases hresponse
  cases e with
  | sendPacket thread call =>
    simp only [step, Option.ite_none_right_eq_some, Option.some.injEq] at h
    obtain ⟨-, rfl⟩ := h
    exact Effect.other rfl rfl rfl (hnone rfl) rfl rfl rfl
  | requestStunMapping thread call rand₁ rand₂ out ec =>
    simp only [step, Option.ite_none_right_eq_some, Option.some.injEq] at h
    obtain ⟨⟨-, hec⟩, rfl⟩ := h
    rcases sys.socket.requestStunMapping_cases cfg call.pkt call.nextHop rand₁ rand₂ out with
      ⟨hthree, hcode, hstate⟩ | ⟨hcode, hstate⟩ | ⟨hcode, hcode', hstate⟩
    · obtain rfl : ec = SocketError.stunReceived := hec.symm.trans hcode
      refine Effect.gaveUp rfl rfl rfl rfl rfl hthree ?_
      rw [socket_setThread, hstate]
    · obtain rfl : ec = SocketError.ok := hec.symm.trans hcode
      refine Effect.requested rfl rfl rfl rfl ⟨call, _⟩ rfl ?_ ?_
      · rw [socket_setThread, hstate]
        rfl
      · rw [socket_setThread, hstate]
    · rw [hec] at hcode hcode'
      refine Effect.other ?_ ?_ rfl (hnone rfl) rfl ?_ ?_
      · rw [SocketEvent.gaveUp, decide_eq_false hcode]
      · cases ec with
        | ok => exact absurd rfl hcode'
        | _ => rfl
      · rw [socket_setThread, hstate]
      · rw [socket_setThread, hstate]
  | transmit thread call out =>
    simp only [step, Option.ite_none_right_eq_some, Option.some.injEq] at h
    obtain ⟨-, rfl⟩ := h
    exact Effect.other rfl rfl rfl (hnone rfl) rfl rfl rfl
  | stamp thread call =>
    simp only [step, Option.ite_none_right_eq_some, Option.some.injEq] at h
    obtain ⟨-, rfl⟩ := h
    exact Effect.other rfl rfl rfl (hnone rfl) rfl rfl rfl
  | recvPacket pkt datagram out now ec held =>
    simp only [step, Option.ite_none_right_eq_some, Option.some.injEq] at h
    obtain ⟨⟨rfl, rfl⟩, rfl⟩ := h
    exact effect_recvPacket henabled sys pkt datagram out now

/-! ### Runs -/

/-- The requests since the last response that was taken, or the last time that the socket
gave up. -/
def unanswered : List SocketEvent → ℕ
  | [] => 0
  | e :: past =>
    if e.gaveUp || e.accepted then 0
    else if e.request.isSome then unanswered past + 1
    else unanswered past

/-- The most recent request, to which no response was taken since. -/
def Unanswered (past : List SocketEvent) (req : SocketRequest) : Prop :=
  ∃ since, mostRecent SocketEvent.request past = some (req, since) ∧
    ∀ e ∈ since, e.accepted = false

/-- The mapping changes only by giving up after three unanswered requests, or by a
response to the most recent request while it is unanswered; no request is answered a second
time, and a held packet is the one of the most recent request and was not sent before. -/
structure FollowsRequest (cfg : StunConfig) (past : List SocketEvent) (sys : SocketSystem)
    (e : SocketEvent) : Prop where
  mapped : ∀ sys', sys.step cfg e = some sys' → sys'.socket.mapped ≠ sys.socket.mapped →
    (e.gaveUp = true ∧ 3 ≤ unanswered past) ∨
      (e.accepted = true ∧ ∃ req, Unanswered past req ∧ e.Answers req.server req.transaction)
  answered : e.accepted = true →
    ∀ req since, mostRecent SocketEvent.request past = some (req, since) →
      ∀ e' ∈ since, e'.accepted = false
  held : ∀ held, e.held = some held →
    ∃ req since, mostRecent SocketEvent.request past = some (req, since) ∧ held = req.held ∧
      ∀ e' ∈ since, e'.held = none

/-- No response to the most recent request was received before. Without a request, no
response with a mapped address comes from the unspecified address with the transaction
that is all zeros. -/
structure Timely (past : List SocketEvent) (e : SocketEvent) : Prop where
  first : ∀ req since, mostRecent SocketEvent.request past = some (req, since) →
    e.Answers req.server req.transaction → ∀ e' ∈ since, ¬e'.Answers req.server req.transaction
  requested : mostRecent SocketEvent.request past = none →
    ∀ stun, e.response = some (stun, .v4 0) → stun.transaction = List.replicate 12 0 →
      stun.mapped = none

/-- What the STUN state holds of the history. -/
structure Tracks (past : List SocketEvent) (sys : SocketSystem) : Prop where
  count : sys.socket.stun.expectStunResponse = unanswered past
  request : ∀ req since, mostRecent SocketEvent.request past = some (req, since) →
    sys.socket.stun.expectedStunServer = req.server ∧ sys.socket.stun.stunTx = req.transaction ∧
      ∀ e ∈ since, (e.accepted = true ↔ e.Answers req.server req.transaction)
  unrequested : mostRecent SocketEvent.request past = none →
    sys.socket.stun.expectedStunServer = .v4 0 ∧ sys.socket.stun.stunTx = List.replicate 12 0
  held : ∀ held, sys.socket.stun.heldPacket = some held →
    ∃ req since, mostRecent SocketEvent.request past = some (req, since) ∧ held = req.held ∧
      ∀ e ∈ since, e.held = none

theorem tracks_opened (localPort : UInt16) (persistent : Bool) (localAddress : IPAddress) :
    Tracks [] (opened localPort persistent localAddress) where
  count := rfl
  request req since h := by cases h
  unrequested _ := ⟨rfl, rfl⟩
  held held h := by cases h

/-- Responses are taken exactly if they answer what the state expects. -/
theorem Effect.accepted_iff (h : Effect sys sys' e) : e.accepted = true ↔
    e.Answers sys.socket.stun.expectedStunServer sys.socket.stun.stunTx := by
  have hnone : e.response = none →
      ¬e.Answers sys.socket.stun.expectedStunServer sys.socket.stun.stunTx := by
    rintro hnone ⟨stun, hresponse, -⟩
    rw [hnone] at hresponse
    cases hresponse
  cases h with
  | gaveUp _ _ haccepted hresponse _ _ _ =>
    rw [haccepted]
    exact ⟨Bool.noConfusion, fun h => absurd h (hnone hresponse)⟩
  | requested _ haccepted hresponse _ _ _ _ _ =>
    rw [haccepted]
    exact ⟨Bool.noConfusion, fun h => absurd h (hnone hresponse)⟩
  | accepted _ _ haccepted stun _ hresponse htx _ _ _ _ =>
    exact ⟨fun _ => ⟨stun, hresponse, htx⟩, fun _ => haccepted⟩
  | other _ _ haccepted hnot _ _ _ =>
    rw [haccepted]
    exact ⟨Bool.noConfusion, fun h => absurd h hnot⟩

/-- Without a new request, the state holds of the history what it held before, if the event
leaves the server and the transaction, and the held packet unless it is sent. -/
theorem Tracks.of_same {past : List SocketEvent} (ht : Tracks past sys)
    (hrequest : e.request = none)
    (hcount : sys'.socket.stun.expectStunResponse = unanswered (e :: past))
    (hserver : sys'.socket.stun.expectedStunServer = sys.socket.stun.expectedStunServer)
    (htx : sys'.socket.stun.stunTx = sys.socket.stun.stunTx)
    (haccepted : e.accepted = true ↔
      e.Answers sys.socket.stun.expectedStunServer sys.socket.stun.stunTx)
    (hheld : ∀ held, sys'.socket.stun.heldPacket = some held →
      sys.socket.stun.heldPacket = some held ∧ e.held = none) :
    Tracks (e :: past) sys' where
  count := hcount
  request req since h := by
    obtain ⟨since', rfl, hpast⟩ := (mostRecent_cons_of_none hrequest).mp h
    obtain ⟨hserver', htx', hsince⟩ := ht.request req since' hpast
    refine ⟨hserver.trans hserver', htx.trans htx', ?_⟩
    rw [hserver', htx'] at haccepted
    intro e' he'
    rcases List.mem_cons.mp he' with rfl | he'
    · exact haccepted
    · exact hsince e' he'
  unrequested h := by
    obtain ⟨hserver', htx'⟩ := ht.unrequested (mostRecent_cons_eq_none.mp h).2
    exact ⟨hserver.trans hserver', htx.trans htx'⟩
  held held h := by
    obtain ⟨hold, hnone⟩ := hheld held h
    obtain ⟨req, since, hpast, heq, hsince⟩ := ht.held held hold
    refine ⟨req, e :: since, (mostRecent_cons_of_none hrequest).mpr ⟨since, rfl, hpast⟩, heq, ?_⟩
    intro e' he'
    rcases List.mem_cons.mp he' with rfl | he'
    · exact hnone
    · exact hsince e' he'

/-- Every event keeps track of the history. -/
theorem tracks_step {past : List SocketEvent} (ht : Tracks past sys) (h : Effect sys sys' e) :
    Tracks (e :: past) sys' := by
  have haccepted := h.accepted_iff
  cases h with
  | gaveUp hgave hrequest _ _ hheld _ hstun =>
    refine ht.of_same hrequest ?_ (by rw [hstun]) (by rw [hstun]) haccepted ?_
    · rw [hstun, unanswered, hgave]
      rfl
    · rw [hstun]
      exact fun held h => ⟨h, hheld⟩
  | requested hgave hnot hresponse hheld req hrequest hstun _ =>
    have hrecent : mostRecent SocketEvent.request (e :: past) = some (req, []) :=
      mostRecent_cons_of_some hrequest
    refine ⟨?_, ?_, ?_, ?_⟩
    · rw [hstun, unanswered, hgave, hnot, hrequest, ← ht.count]
      rfl
    · intro req' since h
      rw [hrecent] at h
      cases h
      rw [hstun]
      exact ⟨rfl, rfl, fun e' he' => absurd he' List.not_mem_nil⟩
    · intro h
      rw [hrecent] at h
      cases h
    · intro held h
      rw [hstun] at h
      exact ⟨req, [], hrecent, (Option.some.inj h).symm, fun e' he' => absurd he' List.not_mem_nil⟩
  | accepted hgave hrequest htaken stun heldPacket _ _ hstun _ _ hheld =>
    refine ht.of_same hrequest ?_ (by rw [hstun]) (by rw [hstun]) haccepted ?_
    · rw [hstun, unanswered, htaken, Bool.or_true]
      rfl
    · rw [hstun]
      intro held h
      rcases hheld with ⟨hnone, hsame⟩ | ⟨-, hgone⟩
      · exact ⟨hsame.symm.trans h, hnone⟩
      · rw [hgone] at h
        cases h
  | other hgave hrequest hnot _ hheld hstun _ =>
    refine ht.of_same hrequest ?_ (by rw [hstun]) (by rw [hstun]) haccepted ?_
    · rw [hstun, unanswered, hgave, hnot, hrequest, ht.count]
      rfl
    · rw [hstun]
      exact fun held h => ⟨h, hheld⟩

section

variable {localPort : UInt16} {persistent : Bool} {localAddress : IPAddress}
variable {past : List SocketEvent}

theorem tracks_of_run (henabled : cfg.enableStun = true)
    (hrun : Run (opened localPort persistent localAddress) (step cfg) past sys) :
    Tracks past sys := by
  refine hrun.invariant (tracks_opened localPort persistent localAddress) ?_
  intro past sys e sys' ht hstep
  exact tracks_step ht (effect_of_step henabled hstep)

theorem unanswered_eq_zero (h : mostRecent SocketEvent.request past = none) :
    unanswered past = 0 := by
  induction past with
  | nil => rfl
  | cons e past ih =>
    obtain ⟨hrequest, hpast⟩ := mostRecent_cons_eq_none.mp h
    rw [unanswered, hrequest, ih hpast]
    simp

/-- While the mapping follows the requests, there is none before the first request. -/
theorem mapped_eq_none
    (hrun : Run (opened localPort persistent localAddress) (step cfg) past sys)
    (hfollows : Always (opened localPort persistent localAddress) (step cfg)
      (FollowsRequest cfg) past)
    (hnone : mostRecent SocketEvent.request past = none) : sys.socket.mapped = none := by
  induction hrun with
  | start => rfl
  | next hpast hstep ih =>
    obtain ⟨-, hnone'⟩ := mostRecent_cons_eq_none.mp hnone
    have hold := ih (hfollows.of_suffix (List.suffix_cons _ _)) hnone'
    by_contra hmapped
    rcases (hfollows _ _ _ hpast List.suffix_rfl).mapped _ hstep (by rw [hold]; exact hmapped) with
      ⟨-, hthree⟩ | ⟨-, req, ⟨since, hrecent, -⟩, -⟩
    · rw [unanswered_eq_zero hnone'] at hthree
      exact absurd hthree (by decide)
    · rw [hnone'] at hrecent
      cases hrecent

/-- A response that is taken answers the most recent request. -/
theorem answers_of_accepted (ht : Tracks past sys) (heffect : Effect sys sys' e)
    (haccepted : e.accepted = true) {req : SocketRequest} {since : List SocketEvent}
    (hrecent : mostRecent SocketEvent.request past = some (req, since)) :
    e.Answers req.server req.transaction := by
  obtain ⟨hserver, htx, -⟩ := ht.request req since hrecent
  rw [← hserver, ← htx]
  exact heffect.accepted_iff.mp haccepted

/-- A response that is timely is the first to be taken. -/
theorem Timely.not_accepted (ht : Tracks past sys) (heffect : Effect sys sys' e)
    (htimely : Timely past e) (haccepted : e.accepted = true) {req : SocketRequest}
    {since : List SocketEvent}
    (hrecent : mostRecent SocketEvent.request past = some (req, since)) :
    ∀ e' ∈ since, e'.accepted = false := by
  intro e' he'
  have hnot := htimely.first req since hrecent
    (answers_of_accepted ht heffect haccepted hrecent) e' he'
  obtain ⟨-, -, hsince⟩ := ht.request req since hrecent
  rw [← hsince e' he'] at hnot
  exact Bool.eq_false_iff.mpr hnot

theorem Effect.held_eq (heffect : Effect sys sys' e) {held : HeldPacket}
    (hheld : e.held = some held) : sys.socket.stun.heldPacket = some held := by
  cases heffect with
  | gaveUp _ _ _ _ hnone _ _ =>
    rw [hnone] at hheld
    cases hheld
  | requested _ _ _ hnone _ _ _ _ =>
    rw [hnone] at hheld
    cases hheld
  | accepted _ _ _ _ _ _ _ _ _ _ hcases =>
    rcases hcases with ⟨hnone, -⟩ | ⟨heq, -⟩
    · rw [hnone] at hheld
      cases hheld
    · exact heq.symm.trans hheld
  | other _ _ _ _ hnone _ _ =>
    rw [hnone] at hheld
    cases hheld

/-- The mapping changes when the socket gives up, or when it takes a response that holds an
address. -/
theorem Effect.mapped_cases (heffect : Effect sys sys' e)
    (hmapped : sys'.socket.mapped ≠ sys.socket.mapped) :
    (e.gaveUp = true ∧ 3 ≤ sys.socket.stun.expectStunResponse) ∨
      (e.accepted = true ∧ ∃ stun, e.response = some (stun, sys.socket.stun.expectedStunServer) ∧
        stun.transaction = sys.socket.stun.stunTx ∧ stun.mapped ≠ none) := by
  cases heffect with
  | gaveUp hgave _ _ _ _ hthree _ => exact Or.inl ⟨hgave, hthree⟩
  | requested _ _ _ _ _ _ _ hsame => exact absurd hsame hmapped
  | accepted _ _ haccepted stun _ hresponse htx _ hsame _ _ =>
    exact Or.inr ⟨haccepted, stun, hresponse, htx, fun hnone => hmapped (hsame hnone)⟩
  | other _ _ _ _ _ _ hsame => exact absurd hsame hmapped

/-- An event that is timely follows the requests. -/
theorem follows_of_timely (henabled : cfg.enableStun = true) (ht : Tracks past sys)
    (hstep : sys.step cfg e = some sys') (htimely : Timely past e) :
    FollowsRequest cfg past sys e := by
  have heffect := effect_of_step henabled hstep
  refine ⟨?_, ?_, ?_⟩
  · intro sys'' hstep'' hmapped
    rw [hstep] at hstep''
    cases hstep''
    rcases heffect.mapped_cases hmapped with
      ⟨hgave, hthree⟩ | ⟨haccepted, stun, hresponse, htx, hsome⟩
    · rw [ht.count] at hthree
      exact Or.inl ⟨hgave, hthree⟩
    · refine Or.inr ⟨haccepted, ?_⟩
      rcases hrecent : mostRecent SocketEvent.request past with _ | ⟨req, since⟩
      · obtain ⟨hserver, hzeros⟩ := ht.unrequested hrecent
        rw [hserver] at hresponse
        rw [hzeros] at htx
        exact absurd (htimely.requested hrecent stun hresponse htx) hsome
      · exact ⟨req, ⟨since, hrecent, htimely.not_accepted ht heffect haccepted hrecent⟩,
          answers_of_accepted ht heffect haccepted hrecent⟩
  · intro haccepted req since hrecent
    exact htimely.not_accepted ht heffect haccepted hrecent
  · intro held hheld
    exact ht.held held (heffect.held_eq hheld)

/-- An event that follows the requests after others that did is timely. -/
theorem timely_of_follows (henabled : cfg.enableStun = true)
    (hrun : Run (opened localPort persistent localAddress) (step cfg) past sys)
    (hstep : sys.step cfg e = some sys')
    (hpast : Always (opened localPort persistent localAddress) (step cfg) (FollowsRequest cfg) past)
    (hfollows : FollowsRequest cfg past sys e) : Timely past e := by
  have ht := tracks_of_run henabled hrun
  have heffect := effect_of_step henabled hstep
  refine ⟨?_, ?_⟩
  · intro req since hrecent hanswers e' he' hanswers'
    obtain ⟨hserver, htx, hsince⟩ := ht.request req since hrecent
    rw [← hserver, ← htx] at hanswers
    have hnot := hfollows.answered (heffect.accepted_iff.mpr hanswers) req since hrecent e' he'
    rw [(hsince e' he').mpr hanswers'] at hnot
    cases hnot
  · intro hrecent stun hresponse hzeros
    obtain ⟨hserver, htx⟩ := ht.unrequested hrecent
    have hold := mapped_eq_none hrun hpast hrecent
    have haccepted : e.accepted = true :=
      heffect.accepted_iff.mpr (by rw [hserver, htx]; exact ⟨stun, hresponse, hzeros⟩)
    by_contra hsome
    -- the response moves the mapping, although there is no request that it answers
    have hmapped : sys'.socket.mapped ≠ sys.socket.mapped := by
      cases heffect with
      | gaveUp _ _ hnot _ _ _ _ =>
        rw [hnot] at haccepted
        cases haccepted
      | requested _ hnot _ _ _ _ _ _ =>
        rw [hnot] at haccepted
        cases haccepted
      | accepted _ _ _ stun' _ hresponse' _ _ _ hmapped _ =>
        rw [hserver, hresponse] at hresponse'
        cases hresponse'
        obtain ⟨address, haddress⟩ := Option.ne_none_iff_exists'.mp hsome
        rw [hmapped address haddress, hold]
        exact Option.some_ne_none address
      | other _ _ hnot _ _ _ _ =>
        rw [hnot] at haccepted
        cases haccepted
    rcases hfollows.mapped sys' hstep hmapped with ⟨-, hthree⟩ | ⟨-, req, ⟨since, h, -⟩, -⟩
    · rw [unanswered_eq_zero hrecent] at hthree
      exact absurd hthree (by decide)
    · rw [hrecent] at h
      cases h

/-- The mapping follows the requests throughout exactly those runs in which no response
comes a second time. -/
theorem follows_request_iff (henabled : cfg.enableStun = true) {h : List SocketEvent}
    (hrun : Run (opened localPort persistent localAddress) (step cfg) h sys) :
    Always (opened localPort persistent localAddress) (step cfg) (FollowsRequest cfg) h ↔
      Always (opened localPort persistent localAddress) (step cfg) (fun past _ e => Timely past e)
        h := by
  constructor
  · intro hfollows past t e hpast hsuffix
    obtain ⟨u, u', hu, hstep⟩ := hrun.of_suffix hsuffix
    rw [← hpast.unique hu] at hstep
    exact timely_of_follows henabled hpast hstep (hfollows.of_suffix (suffix_of_cons hsuffix))
      (hfollows past t e hpast hsuffix)
  · intro htimely past t e hpast hsuffix
    obtain ⟨u, u', hu, hstep⟩ := hrun.of_suffix hsuffix
    rw [← hpast.unique hu] at hstep
    exact follows_of_timely henabled (tracks_of_run henabled hpast) hstep
      (htimely past t e hpast hsuffix)

end

/-! ### A response that comes twice -/

def exampleConfig : StunConfig := ⟨true, 3478, 30⟩

def exampleCall : SendCall := ⟨PacketBuffer.ofBuffer [0, 1, 2, 3], ⟨.v4 0x0a000002, 30042⟩, 100⟩

/-- A response to the request of `exampleCall`, with the mapped address 203.0.113.`host`. -/
def exampleResponse (host : UInt8) : Datagram :=
  ([1, 1, 0, 12, 0x21, 0x12, 0xa4, 0x42, 1, 0, 0, 0, 0, 0, 0, 0, 2, 0, 0, 0, 0, 32, 0, 8, 0, 1,
    0xbd, 0x52, 0xea, 0x12, 0xd5, 0x42 ^^^ host], ⟨.v4 0x0a000002, 3478⟩)

def exampleReceive (host : UInt8) (held : Option HeldPacket) : SocketEvent :=
  .recvPacket (PacketBuffer.ofBuffer (List.replicate 64 0)) (.ok (exampleResponse host)) ⟨none, 4⟩
    101 .stunReceived held

/-- A request and the response to it, latest first. -/
def answeredOnce : List SocketEvent :=
  [exampleReceive 5 (some (exampleCall.pkt, exampleCall.nextHop)),
    .requestStunMapping 0 exampleCall 1 2 ⟨none, 20⟩ .ok, .sendPacket 0 exampleCall]

/-- Then another response with the same transaction. -/
def answeredTwice : List SocketEvent := exampleReceive 6 none :: answeredOnce

theorem isSome_replay_answeredTwice :
    (replay (opened 31000 false (.v4 0x0a000001)) (step exampleConfig) answeredTwice).isSome
      = true := by
  decide +kernel

theorem run_answeredTwice : ∃ sys,
    Run (opened 31000 false (.v4 0x0a000001)) (step exampleConfig) answeredTwice sys := by
  obtain ⟨sys, hsys⟩ := Option.isSome_iff_exists.mp isSome_replay_answeredTwice
  exact ⟨sys, run_of_replay hsys⟩

theorem follows_request_iff_answeredTwice :
    Always (opened 31000 false (.v4 0x0a000001)) (step exampleConfig)
        (FollowsRequest exampleConfig) answeredTwice ↔
      Always (opened 31000 false (.v4 0x0a000001)) (step exampleConfig)
        (fun past _ e => Timely past e) answeredTwice := by
  obtain ⟨sys, hrun⟩ := run_answeredTwice
  exact follows_request_iff rfl hrun

/-- A response that comes a second time moves the mapping again. -/
theorem not_forall_follows_request :
    ¬ ∀ (cfg : StunConfig) (localPort : UInt16) (persistent : Bool) (localAddress : IPAddress)
      (h : List SocketEvent) (sys : SocketSystem), cfg.enableStun = true →
      Run (opened localPort persistent localAddress) (step cfg) h sys →
      Always (opened localPort persistent localAddress) (step cfg) (FollowsRequest cfg) h := by
  intro h
  obtain ⟨sys, hrun⟩ := run_answeredTwice
  obtain ⟨sys', -, hpast, -⟩ := hrun.of_suffix (List.suffix_refl answeredTwice)
  have hfollows := h _ _ _ _ _ _ rfl hrun answeredOnce sys' _ hpast List.suffix_rfl
  have hfirst := hfollows.answered (by decide +kernel) ⟨exampleCall, _⟩
    [exampleReceive 5 (some (exampleCall.pkt, exampleCall.nextHop))] rfl _ (List.mem_singleton_self _)
  revert hfirst
  decide +kernel

end SocketSystem

end Scion
