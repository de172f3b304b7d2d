/-
The query for a mapped address (`posix/scmp_socket.hpp`, `socket/packager.hpp`).

A query sends a request and receives until a response is found or a timeout, and then
retries. Random numbers, datagrams and failing system calls are inputs.

* `recvStunResponse`, `getStunMapping` — the receive loop and the retry loop;
* `recvStunResponse_spec` — a receive loop stops at the first datagram it notices;
* `StunQuery.Learns` — what is returned was learned from a response to the latest request,
  and nothing else that is received ends the query;
* `learns_iff` — the queries of which this is so.
-/
import Scion.Socket
import Scion.StunRequests

namespace Scion

/-- `std::error_code`, of the library or an errno value. -/
inductive StatusCode
  | scion (ec : ErrorCode)
  | system (errno : ℕ)
  deriving DecidableEq, Repr

/-- Equality to `ErrorCondition::Timeout`; an errno value is compared to `EAGAIN`. -/
def StatusCode.isTimeout : StatusCode → Bool
  | scion ec => ec == .timeout
  | system errno => errno == 11

/-- One pass of the retry loop: the random numbers of the transaction, the errno values of
system calls that fail, and the datagrams up to the receive operation that fails. -/
structure StunAttempt where
  rand₁ : UInt64
  rand₂ : UInt64
  sendFailure : Option ℕ
  optionFailure : Option ℕ
  datagrams : List Datagram
  recvFailure : ℕ

def StunAttempt.request (a : StunAttempt) (router : IPEndpoint) : StunRequest :=
  ⟨ScionPackager.stunTransaction a.rand₁ a.rand₂, router.host⟩

/-- What happens during a query. -/
inductive StunEvent
  | requested (req : StunRequest)
  | received (d : Datagram)
  | failed (errno : ℕ)

/-- What a query returns, and the state it leaves. -/
structure StunQuery where
  result : Except StatusCode ScIPEndpoint
  packager : ScionPackager
  /-- Not in the code: the events of the query, latest first. -/
  events : List StunEvent

/-! ### Queries -/

/-- `ScmpSocket::mappedEp`. -/
def mappedEp (p : ScionPackager) : ScIPEndpoint := p.localEp

/-- `ScmpSocket::requestStunMapping`. -/
def requestStunMapping (router : IPEndpoint) (a : StunAttempt) (p : ScionPackager) :
    StatusCode × ScionPackager :=
  let created := p.createStunRequest (List.replicate 20 0) router.host a.rand₁ a.rand₂
  if created.1 ≠ .ok then (.scion created.1, created.2.2)
  else
    match a.sendFailure with
    | some errno => (.system errno, created.2.2)
    | none => (.scion .ok, created.2.2)

/-- `ScmpSocket::recvStunResponse`, with a buffer of 128 bytes. -/
def recvStunResponse (recvFailure : ℕ) : List Datagram → ScionPackager → List StunEvent →
    StatusCode × ScionPackager × List StunEvent
  | [], p, events => (.system recvFailure, p, .failed recvFailure :: events)
  | d :: datagrams, p, events =>
    if d.1.length > 128 then (.scion .bufferTooSmall, p, .received d :: events)
    else
      let unpacked := p.unpackStun d.1 d.2.host
      if unpacked.1 = .stunReceived then (.scion .stunReceived, unpacked.2, .received d :: events)
      else if unpacked.1 ≠ .pending then (.scion unpacked.1, unpacked.2, .received d :: events)
      else recvStunResponse recvFailure datagrams unpacked.2 (.received d :: events)

/-- The retry loop. -/
def stunLoop (router : IPEndpoint) : List StunAttempt → ScionPackager → List StunEvent → StunQuery
  | [], p, events => ⟨.error (.scion .timeout), p, events⟩
  | a :: attempts, p, events =>
    let requested := requestStunMapping router a p
    if requested.1 ≠ .scion .ok then ⟨.error requested.1, requested.2, events⟩
    else
      let events := .requested (a.request router) :: events
      match a.optionFailure with
      | some errno => ⟨.error (.system errno), requested.2, events⟩
      | none =>
        let received := recvStunResponse a.recvFailure a.datagrams requested.2 events
        if received.1 = .scion .stunReceived then
          ⟨.ok (mappedEp received.2.1), received.2.1, received.2.2⟩
        else if !received.1.isTimeout then ⟨.error received.1, received.2.1, received.2.2⟩
        else stunLoop router attempts received.2.1 received.2.2

/-- `getStunMapping`, with a pass of the loop for every retry. -/
def getStunMapping (p : ScionPackager) (router : IPEndpoint) (blockingFailure : Option ℕ)
    (first : StunAttempt) (retries : List StunAttempt) : StunQuery :=
  match blockingFailure with
  | some errno => ⟨.error (.system errno), p, []⟩
  | none => stunLoop router (first :: retries) p []

/-! ### Learned mappings -/

def StunEvent.request : StunEvent → Option StunRequest
  | requested req => some req
  | _ => none

/-- The latest request. -/
def latestRequest (events : List StunEvent) : Option StunRequest :=
  events.findSome? StunEvent.request

/-- The datagram is a binding response to the request, from its server, and holds the
mapped address. -/
def StunRequest.MappedBy (req : StunRequest) (d : Datagram) (address : IPEndpoint) : Prop :=
  detectStun d.1 = true ∧ d.2.host = req.server ∧
    ∃ stun s, STUN.read (ReadStream.ofBuffer d.1) = .ok stun s ∧
      stun.type = StunMsgType.bindingResponse ∧ stun.transaction = req.transaction ∧
      stun.mapped = some address

/-- The returned address is the one in the response that was received last, to the latest
request, and then that of the socket. A query that ends with the reception of a datagram
ends with such a response. -/
structure StunQuery.Learns (q : StunQuery) : Prop where
  mapping : ∀ ep, q.result = .ok ep → ∃ d rest req, q.events = .received d :: rest ∧
    latestRequest rest = some req ∧ req.MappedBy d ep.localEp ∧ mappedEp q.packager = ep
  undisturbed : ∀ d rest, q.events = .received d :: rest →
    ∃ req address, latestRequest rest = some req ∧ req.MappedBy d address

/-- The datagram does not fit in the buffer or has the magic cookie of STUN. -/
def noticed (d : Datagram) : Bool := decide (128 < d.1.length) || detectStun d.1

/-- Of the passes up to one with a system call that fails, the first datagram that is
noticed is a response to the request of its pass, with the local address of the socket as
the mapped one unless it does not fit in the buffer. -/
def NoticesResponse (router localEp : IPEndpoint) : List StunAttempt → Prop
  | [] => True
  | a :: attempts => a.sendFailure ≠ none ∨ a.optionFailure ≠ none ∨
    match a.datagrams.find? noticed with
    | some d => ∃ address, (a.request router).MappedBy d address ∧
        (128 < d.1.length ∨ address = localEp)
    | none => a.recvFailure ≠ 11 ∨ NoticesResponse router localEp attempts

variable {p : ScionPackager} {req : StunRequest} {d : Datagram} {address address' : IPEndpoint}

theorem StunRequest.MappedBy.unique (h : req.MappedBy d address) (h' : req.MappedBy d address') :
    address = address' := by
  obtain ⟨-, -, stun, s, hread, -, -, hmapped⟩ := h
  obtain ⟨-, -, stun', s', hread', -, -, hmapped'⟩ := h'
  rw [hread] at hread'
  cases hread'
  rw [hmapped] at hmapped'
  exact Option.some.inj hmapped'

/-! ### The receive loop -/

/-- Anything but STUN is passed over. -/
theorem unpackStun_pending (h : detectStun d.1 = false) :
    p.unpackStun d.1 d.2.host = (.pending, p) := by
  rw [ScionPackager.unpackStun, h, if_neg Bool.false_ne_true]

/-- While a response is expected, a STUN message from the server completes the query if it
can be read, and all others abort it. -/
theorem unpackStun_noticed (hexpect : p.expectStunResponse = true) (h : detectStun d.1 = true) :
    ((p.unpackStun d.1 d.2.host).1 = .stunReceived ∧ d.2.host = p.expectedStunServer ∧
      ∃ stun s, STUN.read (ReadStream.ofBuffer d.1) = .ok stun s) ∨
    (((p.unpackStun d.1 d.2.host).1 = .srcAddrMismatch ∨
        (p.unpackStun d.1 d.2.host).1 = .invalidPacket) ∧
      ¬(d.2.host = p.expectedStunServer ∧
        ∃ stun s, STUN.read (ReadStream.ofBuffer d.1) = .ok stun s)) := by
  rw [ScionPackager.unpackStun, h, if_pos rfl, ScionPackager.parseStun, if_pos hexpect]
  by_cases hserver : d.2.host = p.expectedStunServer
  · rw [if_neg (by simpa using hserver)]
    cases hread : STUN.read (ReadStream.ofBuffer d.1) with
    | ok stun s => exact Or.inl ⟨rfl, hserver, stun, s, rfl⟩
    | error e s =>
      refine Or.inr ⟨Or.inr rfl, ?_⟩
      rintro ⟨-, stun, s', hok⟩
      cases hok
  · rw [if_pos (by simpa using hserver)]
    exact Or.inr ⟨Or.inl rfl, fun hboth => hserver hboth.1⟩

theorem unpackStun_ne_pending (p : ScionPackager) (h : detectStun d.1 = true) :
    (p.unpackStun d.1 d.2.host).1 ≠ .pending := by
  cases hexpect : p.expectStunResponse with
  | true =>
    rcases unpackStun_noticed hexpect h with ⟨hcode, -⟩ | ⟨hcode | hcode, -⟩
    · rw [hcode]
      decide
    · rw [hcode]
      decide
    · rw [hcode]
      decide
  | false =>
    rw [ScionPackager.unpackStun, h, if_pos rfl, ScionPackager.parseStun, hexpect,
      if_neg Bool.false_ne_true]
    exact fun hcode => ErrorCode.noConfusion hcode

/-- No datagram is a timeout. -/
theorem unpackStun_ne_timeout (p : ScionPackager) (d : Datagram) :
    (p.unpackStun d.1 d.2.host).1 ≠ .timeout := by
  rw [ScionPackager.unpackStun, ScionPackager.parseStun]
  split_ifs with hdetect hexpect hserver
  · exact fun hcode => ErrorCode.noConfusion hcode
  · split
    · exact fun hcode => ErrorCode.noConfusion hcode
    · exact fun hcode => ErrorCode.noConfusion hcode
  · exact fun hcode => ErrorCode.noConfusion hcode
  · exact fun hcode => ErrorCode.noConfusion hcode

/-- Responses do not change the local address. -/
theorem localEp_unpackStun (p : ScionPackager) (d : Datagram) :
    (p.unpackStun d.1 d.2.host).2.localEp = p.localEp := by
  rw [show (p.unpackStun d.1 d.2.host).2 = p.receiveStun d.1 d.2.host from rfl]
  rcases p.receiveStun_cases d.1 d.2.host with ⟨-, -, mapped, heq⟩ | ⟨-, heq⟩
  · rw [heq]
  · rw [heq]

/-- A receive loop passes over what it does not notice, and stops at what it does. -/
theorem recvStunResponse_spec (p : ScionPackager) (recvFailure : ℕ) (datagrams : List Datagram)
    (events : List StunEvent) :
    ∃ rest, latestRequest rest = latestRequest events ∧
      (datagrams.find? noticed = none → recvStunResponse recvFailure datagrams p events =
        (.system recvFailure, p, .failed recvFailure :: rest)) ∧
      ∀ d, datagrams.find? noticed = some d →
        (d.1.length > 128 → recvStunResponse recvFailure datagrams p events =
          (.scion .bufferTooSmall, p, .received d :: rest)) ∧
        (¬ d.1.length > 128 → recvStunResponse recvFailure datagrams p events =
          (.scion (p.unpackStun d.1 d.2.host).1, (p.unpackStun d.1 d.2.host).2,
            .received d :: rest)) := by
  induction datagrams generalizing events with
  | nil =>
    refine ⟨events, rfl, fun _ => rfl, ?_⟩
    intro d hfind
    cases hfind
  | cons d datagrams ih =>
    rw [recvStunResponse]
    by_cases hnotice : noticed d = true
    · rw [List.find?_cons_of_pos hnotice]
      refine ⟨events, rfl, fun hnone => absurd hnone (Option.some_ne_none d), ?_⟩
      rintro _ ⟨⟩
      refine ⟨fun hlong => if_pos hlong, ?_⟩
      intro hshort
      have hdetect : detectStun d.1 = true := by simpa [noticed, hshort] using hnotice
      rw [if_neg hshort]
      dsimp only
      split_ifs with hstun hpending
      · rw [hstun]
      · rfl
      -- a STUN message is never pending, so the loop ends here
      · exact absurd (not_not.mp hpending) (unpackStun_ne_pending p hdetect)
    · -- what is neither long nor STUN is passed over
      obtain ⟨hshort, hdetect⟩ : ¬ d.1.length > 128 ∧ detectStun d.1 = false := by
        simpa [noticed] using hnotice
      obtain ⟨rest, hlatest, heq⟩ := ih (.received d :: events)
      rw [List.find?_cons_of_neg hnotice, if_neg hshort, unpackStun_pending hdetect]
      exact ⟨rest, hlatest, heq⟩

/-! ### The retry loop -/

/-- A request is sent, and is then the one that a response has to match. -/
theorem requestStunMapping_cases (router : IPEndpoint) (a : StunAttempt) (p : ScionPackager) :
    (∃ errno, a.sendFailure = some errno ∧ (requestStunMapping router a p).1 = .system errno) ∨
    (a.sendFailure = none ∧ (requestStunMapping router a p).1 = .scion .ok ∧
      (requestStunMapping router a p).2 = { p with
        expectStunResponse := true
        expectedStunServer := router.host
        stunTx := ScionPackager.stunTransaction a.rand₁ a.rand₂ }) := by
  rcases p.createStunRequest_cases (List.replicate 20 0) router.host a.rand₁ a.rand₂ with
    ⟨hshort, -⟩ | ⟨-, hok, hstate⟩
  · rw [List.length_replicate, STUN.stunHeaderSize] at hshort
    omega
  · rw [requestStunMapping]
    rw [if_neg (by simpa using hok)]
    cases hsend : a.sendFailure with
    | some errno => exact Or.inl ⟨errno, rfl, rfl⟩
    | none => exact Or.inr ⟨rfl, rfl, hstate⟩

/-- What does not end with the reception of a datagram has not learned anything. -/
theorem learns_of_error {p : ScionPackager} {e : StatusCode} {events : List StunEvent}
    (hevents : ∀ d rest, events ≠ .received d :: rest) :
    StunQuery.Learns ⟨.error e, p, events⟩ where
  mapping ep h := by cases h
  undisturbed d rest h := absurd h (hevents d rest)

/-- A query that fails at a datagram is to have found a response there. -/
theorem learns_failed_iff {e : StatusCode} {rest : List StunEvent}
    (hlatest : latestRequest rest = some req) :
    StunQuery.Learns ⟨.error e, p, .received d :: rest⟩ ↔ ∃ address, req.MappedBy d address := by
  constructor
  · intro hlearns
    obtain ⟨req', address, hreq', hmapped⟩ := hlearns.undisturbed d rest rfl
    rw [hlatest] at hreq'
    cases hreq'
    exact ⟨address, hmapped⟩
  · rintro ⟨address, hmapped⟩
    refine ⟨?_, ?_⟩
    · intro ep hok
      cases hok
    · intro d' rest' hevents
      cases hevents
      exact ⟨req, address, hlatest, hmapped⟩

/-- What is returned is the local address, which the response then has to hold. -/
theorem learns_completed_iff {rest : List StunEvent} (hlatest : latestRequest rest = some req) :
    StunQuery.Learns ⟨.ok (mappedEp p), p, .received d :: rest⟩ ↔
      req.MappedBy d p.localEp.localEp := by
  constructor
  · intro hlearns
    obtain ⟨d', rest', req', hevents, hreq', hmapped, -⟩ := hlearns.mapping (mappedEp p) rfl
    cases hevents
    rw [hlatest] at hreq'
    cases hreq'
    exact hmapped
  · intro hmapped
    refine ⟨?_, ?_⟩
    · intro ep hok
      cases hok
      exact ⟨d, rest, req, rfl, hlatest, hmapped, rfl⟩
    · intro d' rest' hevents
      cases hevents
      exact ⟨req, p.localEp.localEp, hlatest, hmapped⟩

/-- A query that stops at a datagram it notices. -/
theorem learns_noticed_iff (hexpect : p.expectStunResponse = true) (hrequest : p.request = req)
    {rest : List StunEvent} (hlatest : latestRequest rest = some req)
    (hnotice : noticed d = true) {q : StunQuery}
    (hlong : d.1.length > 128 → q = ⟨.error (.scion .bufferTooSmall), p, .received d :: rest⟩)
    (hshort : ¬ d.1.length > 128 → q = if (p.unpackStun d.1 d.2.host).1 = .stunReceived then
      ⟨.ok (mappedEp (p.unpackStun d.1 d.2.host).2), (p.unpackStun d.1 d.2.host).2,
        .received d :: rest⟩
      else ⟨.error (.scion (p.unpackStun d.1 d.2.host).1), (p.unpackStun d.1 d.2.host).2,
        .received d :: rest⟩) :
    q.Learns ↔ ∃ address, req.MappedBy d address ∧
      (128 < d.1.length ∨ address = p.localEp.localEp) := by
  by_cases hsize : d.1.length > 128
  · rw [hlong hsize, learns_failed_iff hlatest]
    simp [hsize]
  have hdetect : detectStun d.1 = true := by simpa [noticed, hsize] using hnotice
  rw [hshort hsize]
  rcases unpackStun_noticed hexpect hdetect with ⟨hcode, -⟩ | ⟨hcode, hnot⟩
  · rw [if_pos hcode, learns_completed_iff hlatest, localEp_unpackStun]
    simp [hsize]
  · -- another message aborts the query, and is no response
    have hother : (p.unpackStun d.1 d.2.host).1 ≠ .stunReceived := by
      rcases hcode with hcode | hcode
      · rw [hcode]
        decide
      · rw [hcode]
        decide
    have hserver : req.server = p.expectedStunServer := by rw [← hrequest]; rfl
    have hnone : ¬ ∃ address, req.MappedBy d address := by
      rintro ⟨address, -, hsource, stun, s, hread, -⟩
      exact hnot ⟨hsource.trans hserver, stun, s, hread⟩
    rw [if_neg hother, learns_failed_iff hlatest]
    refine iff_of_false hnone ?_
    rintro ⟨address, hmapped, -⟩
    exact hnone ⟨address, hmapped⟩

/-- The retry loop, on any socket. -/
theorem learns_stunLoop_iff (router : IPEndpoint) (attempts : List StunAttempt)
    (p : ScionPackager) (events : List StunEvent)
    (hevents : ∀ d rest, events ≠ .received d :: rest) :
    (stunLoop router attempts p events).Learns ↔
      NoticesResponse router p.localEp.localEp attempts := by
  induction attempts generalizing p events with
  | nil => exact iff_of_true (learns_of_error hevents) trivial
  | cons a attempts ih =>
    rw [stunLoop, NoticesResponse]
    -- a system call that fails ends the query before a datagram is received
    rcases requestStunMapping_cases router a p with
      ⟨errno, hsend, hcode⟩ | ⟨hsend, hcode, hstate⟩
    · rw [hcode, if_pos (by simp)]
      exact iff_of_true (learns_of_error hevents) (Or.inl (by simp [hsend]))
    rw [hcode, if_neg (by simp), hstate]
    cases hoption : a.optionFailure with
    | some errno =>
      refine iff_of_true (learns_of_error ?_) (Or.inr (Or.inl (Option.some_ne_none errno)))
      intro d rest heq
      cases heq
    | none =>
      dsimp only
      set p' : ScionPackager := { p with
        expectStunResponse := true
        expectedStunServer := router.host
        stunTx := ScionPackager.stunTransaction a.rand₁ a.rand₂ }
      obtain ⟨rest, hlatest, hpassed, hstops⟩ := recvStunResponse_spec p' a.recvFailure
        a.datagrams (.requested (a.request router) :: events)
      have hrequest : latestRequest rest = some (a.request router) := hlatest
      rw [or_iff_right (not_not.mpr hsend), or_iff_right (not_not.mpr rfl)]
      cases hfind : a.datagrams.find? noticed with
      | some d =>
        obtain ⟨hlong, hshort⟩ := hstops d hfind
        refine learns_noticed_iff (p := p') rfl rfl hrequest (List.find?_some hfind) ?_ ?_
        · intro hsize
          rw [hlong hsize, if_neg (by simp)]
          exact if_pos rfl
        · intro hsize
          have htimeout := unpackStun_ne_timeout p' d
          rw [hshort hsize]
          dsimp only
          by_cases hstun : (p'.unpackStun d.1 d.2.host).1 = .stunReceived
          · rw [if_pos hstun, if_pos (by rw [hstun])]
          · -- the error is no timeout, so there is no other pass
            rw [if_neg hstun, if_neg (by simpa using hstun), if_pos]
            simpa [StatusCode.isTimeout] using htimeout
      | none =>
        rw [hpassed hfind]
        dsimp only
        rw [if_neg (by simp)]
        -- only `EAGAIN` leads to another pass, on a socket with the same local address
        by_cases htimeout : a.recvFailure = 11
        · rw [if_neg (by simp [StatusCode.isTimeout, htimeout]),
            or_iff_right (not_not.mpr htimeout)]
          refine ih p' _ ?_
          intro d rest' heq'
          cases heq'
        · rw [if_pos (by simp [StatusCode.isTimeout, htimeout])]
          refine iff_of_true (learns_of_error ?_) (Or.inl htimeout)
          intro d rest' heq'
          cases heq'

/-- A query learns the mapping, undisturbed by what is no response, exactly when the first
datagram it notices is a response that maps the socket to its own local address, or one
that does not fit in the buffer. -/
theorem learns_iff (p : ScionPackager) (router : IPEndpoint) (blockingFailure : Option ℕ)
    (first : StunAttempt) (retries : List StunAttempt) :
    (getStunMapping p router blockingFailure first retries).Learns ↔
      blockingFailure ≠ none ∨
        NoticesResponse router p.localEp.localEp (first :: retries) := by
  have hnone : ∀ d rest, ([] : List StunEvent) ≠ .received d :: rest := by
    intro d rest heq
    cases heq
  cases blockingFailure with
  | some errno =>
    exact iff_of_true (learns_of_error hnone) (Or.inl (Option.some_ne_none errno))
  | none =>
    rw [or_iff_right (not_not.mpr rfl)]
    exact learns_stunLoop_iff router (first :: retries) p [] hnone

/-- A response that maps a socket behind a NAT. -/
def exampleResponse : Datagram :=
  ([1, 1, 0, 12, 0x21, 0x12, 0xa4, 0x42, 0, 0, 0, 0, 0, 0, 0, 0, 0, 0, 0, 0, 0, 0x20, 0, 8, 0, 1,
    0x21, 0x42, 0x2b, 0x12, 0xa4, 0x43], ⟨.v4 0xc0000201, 3478⟩)

def natSocket : ScionPackager :=
  { ScionPackager.init with
    localEp := ⟨⟨0⟩, ⟨.v4 0xc0a80002, 5000⟩⟩
    mapped := ⟨⟨0⟩, ⟨.v4 0xc0a80002, 5000⟩⟩ }

/-- The local address is returned, not the one in the response. -/
theorem not_forall_learns :
    ¬ ∀ (p : ScionPackager) (router : IPEndpoint) (blockingFailure : Option ℕ)
      (first : StunAttempt) (retries : List StunAttempt),
      (getStunMapping p router blockingFailure first retries).Learns := by
  intro hclaim
  have hlearns := hclaim natSocket ⟨.v4 0xc0000201, 3478⟩ none
    ⟨0, 0, none, none, [exampleResponse], 11⟩ []
  obtain ⟨d, rest, req, hevents, -, ⟨-, -, stun, s, hread, -, -, hmapped⟩, -⟩ :=
    hlearns.mapping ⟨⟨0⟩, ⟨.v4 0xc0a80002, 5000⟩⟩ rfl
  have hresponse : d = exampleResponse := by
    cases hevents
    rfl
  have haddress : ∃ tx s', STUN.read (ReadStream.ofBuffer exampleResponse.1)
      = .ok ⟨StunMsgType.bindingResponse, tx, some ⟨.v4 0x0a000001, 80⟩⟩ s' := ⟨_, _, rfl⟩
  obtain ⟨tx, s', hok⟩ := haddress
  rw [hresponse, hok] at hread
  cases hread
  cases hmapped

end Scion
