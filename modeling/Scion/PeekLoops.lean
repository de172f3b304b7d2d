/-
Receiving with `SMSG_PEEK` (`posix/udp_socket.hpp`, `posix/scmp_socket.hpp`,
`asio/udp_socket.hpp`, `asio/scmp_socket.hpp`).

With the flag, a loop looks at the head of the receive queue and has to discard what it does not
report. The four loops do so in different branches and with different flags.

* `recvfrom`, `receiveFrom` — the receive functions of the underlay sockets;
* `RecvLoop.round` — one round of `recvImpl` or `recvScmpImpl`;
* `RecvLoop.keeps_iff` — the queues on which a loop ends and loses nothing.
-/
import Scion.AsyncReceive
import Scion.Peeking
import Scion.Socket

namespace Scion

open Completion Peeking

/-- The flags of a receive call, but for `SMSG_DONTWAIT`. -/
structure MsgFlags extends RecvFlags where
  peek : Bool
  deriving DecidableEq, Repr

/-- `EAGAIN`, of a receive queue that is empty. -/
def eagain : ℕ := 11

namespace AsioState

variable {S : Type}

/-- A receive function: the number of bytes and the source, or an error. -/
abbrev Underlay (S : Type) :=
  AsioState S → List Datagram → Except AsioError (ℕ × IPEndpoint) × AsioState S × List Datagram

/-- The POSIX sockets ask for the length of the datagram. -/
def recvfrom (peek : Bool) : Underlay S
  | s, [] => (.error (.system eagain), s, [])
  | s, d :: q =>
    let (t, n) := s.receive d.1
    let q := if peek then d :: q else q
    if d.1.length > s.buf.length then (.error (.scion .bufferTooSmall), t, q)
    else (.ok (n, d.2), t, q)

/-- With the Asio sockets, what does not fit is cut off. -/
def receiveFrom (peek : Bool) : Underlay S
  | s, [] => (.error (.system eagain), s, [])
  | s, d :: q =>
    let (t, n) := s.receive d.1
    (.ok (n, d.2), t, if peek then d :: q else q)

end AsioState

section Loops

variable {S : Type} [ExtensionClass S]

abbrev RecvRound (S : Type) :=
  AsioState S → List Datagram → Peeking.Round (AsioState S) Datagram (Except AsioError (List UInt8))

/-- One round of `recvImpl`, with its two calls of the underlay. -/
def recvWith (receive discard : AsioState.Underlay S) (flags : MsgFlags) (scmpHandler : Bool) :
    RecvRound S := fun s q =>
  match receive s q with
  | (.error ec, s, q) => ⟨.failed (.error ec), s, q⟩
  | (.ok (n, ulSource), s, q) =>
    let (payload, call, s) := s.unpack n ulSource.host
    let s := s.handleScmp scmpHandler call
    match payload with
    | .ok payload => ⟨.reported (.ok payload), s, q⟩
    | .error ec =>
      -- discard the peeked packet from the receive queue
      let (s, q) := if flags.peek then (discard s q).2 else (s, q)
      if ec = .scmpReceived then
        if flags.recvScmp then ⟨.reported (.error (.scion ec)), s, q⟩ else ⟨.skipped, s, q⟩
      else if ec = .stunReceived then
        if flags.recvStun then ⟨.reported (.error (.scion ec)), s, q⟩ else ⟨.skipped, s, q⟩
      else ⟨.skipped, s, q⟩

/-- One round of `recvScmpImpl`. -/
def recvScmpWith (receive discard : AsioState.Underlay S) (flags : MsgFlags) : RecvRound S :=
  fun s q =>
  match receive s q with
  | (.error ec, s, q) => ⟨.failed (.error ec), s, q⟩
  | (.ok (n, ulSource), s, q) =>
    let (decoded, call, s) := s.unpack n ulSource.host
    let s := s.storeScmp call
    match decoded with
    | .error ec =>
      if ec = .scmpReceived then
        ⟨.reported (.ok ((call.map ScmpCall.payload).getD [])), s, q⟩
      else if ec = .stunReceived then
        if flags.recvStun then ⟨.reported (.error (.scion ec)), s, q⟩ else ⟨.skipped, s, q⟩
      else ⟨.skipped, s, q⟩
    | .ok _ =>
      -- discard the peeked packet from the receive queue
      let (s, q) := if flags.peek then (discard s q).2 else (s, q)
      ⟨.skipped, s, q⟩

/-- The receive loops; `scmpHandler` tells whether a socket has one. -/
inductive RecvLoop
  | posixUdp (scmpHandler : Bool)
  | posixScmp
  | asioUdp (scmpHandler : Bool)
  | asioScmp
  deriving DecidableEq, Repr

namespace RecvLoop

open AsioState

def round (flags : MsgFlags) : RecvLoop → RecvRound S
  | posixUdp scmpHandler => recvWith (recvfrom flags.peek) (recvfrom false) flags scmpHandler
  | posixScmp => recvScmpWith (recvfrom flags.peek) (recvfrom false) flags
  -- the first call of `receive_from` has no flags
  | asioUdp scmpHandler => recvWith (receiveFrom false) (receiveFrom false) flags scmpHandler
  | asioScmp => recvScmpWith (receiveFrom flags.peek) (receiveFrom false) flags

end RecvLoop

/-! ### What a loop makes of a datagram -/

/-- The codes that `recvImpl` returns. -/
def MsgFlags.asks (flags : MsgFlags) (ec : ErrorCode) : Bool :=
  if ec = .scmpReceived then flags.recvScmp else ec = .stunReceived && flags.recvStun

/-- The codes at which `recvScmpImpl` returns. -/
def MsgFlags.asksScmp (flags : MsgFlags) (ec : ErrorCode) : Bool :=
  ec = .scmpReceived || ec = .stunReceived && flags.recvStun

namespace AsioState

/-- What `unpack` makes of a datagram. -/
def decode (s : AsioState S) (d : Datagram) : Maybe (List UInt8) :=
  ((s.receive d.1).1.unpack (s.receive d.1).2 d.2.host).1

/-- The state in which `recvImpl` has looked at a datagram. -/
def handled (scmpHandler : Bool) (s : AsioState S) (d : Datagram) : AsioState S :=
  let (_, call, t) := (s.receive d.1).1.unpack (s.receive d.1).2 d.2.host
  t.handleScmp scmpHandler call

/-- The state in which `recvScmpImpl` has looked at it. -/
def stored (s : AsioState S) (d : Datagram) : AsioState S :=
  let (_, call, t) := (s.receive d.1).1.unpack (s.receive d.1).2 d.2.host
  t.storeScmp call

end AsioState

/-- Up to the first payload, there is nothing but what the caller does not ask for. -/
def NoneAsked (flags : MsgFlags) (fits : AsioState S → Datagram → Prop) (scmpHandler : Bool) :
    AsioState S → List Datagram → Prop
  | _, [] => True
  | s, d :: q => fits s d →
    match s.decode d with
    | .ok _ => True
    | .error ec => flags.asks ec = false ∧ NoneAsked flags fits scmpHandler (s.handled scmpHandler d) q

/-- Up to the first message that is returned, there are only payloads. -/
def AllUnpacked (flags : MsgFlags) (fits : AsioState S → Datagram → Prop) :
    AsioState S → List Datagram → Prop
  | _, [] => True
  | s, d :: q => fits s d →
    match s.decode d with
    | .ok _ => AllUnpacked flags fits (s.stored d) q
    | .error ec => flags.asksScmp ec = true

/-- `recvImpl` removes what it returns the code of, and `recvScmpImpl` comes back to what cannot
be unpacked. The one loop that never peeks may only have a single datagram, which it skips. A
POSIX socket fails at what does not fit into the buffer. -/
def RecvLoop.Meets (flags : MsgFlags) (loop : RecvLoop) (s : AsioState S) (q : List Datagram) :
    Prop :=
  match loop with
  | posixUdp scmpHandler =>
    NoneAsked flags (fun s d => d.1.length ≤ s.buf.length) scmpHandler s q
  | posixScmp => AllUnpacked flags (fun s d => d.1.length ≤ s.buf.length) s q
  | asioUdp _ => q = [] ∨ ∃ d ec, q = [d] ∧ s.decode d = .error ec ∧ flags.asks ec = false
  | asioScmp => AllUnpacked flags (fun _ _ => True) s q

/-! ### Unpacking once more -/

namespace ScionPackager

/-- Only a STUN response changes the packager, and another one is no error then. -/
theorem parseStun_again (p : ScionPackager) (buf : List UInt8) (ulSource : IPAddress) :
    ((p.parseStun buf ulSource).2.parseStun buf ulSource).1 = (p.parseStun buf ulSource).1 := by
  have hparse := p.parseStun_eq buf ulSource
  by_cases hexpect : p.expectStunResponse = true
  · rw [if_pos hexpect] at hparse
    by_cases hserver : (ulSource != p.expectedStunServer) = true
    · rw [if_pos hserver] at hparse
      rw [hparse, hparse]
    · rw [if_neg hserver] at hparse
      cases hstun : STUN.ofBuffer buf with
      | none =>
        rw [hstun] at hparse
        rw [hparse, hparse]
      | some stun =>
        rw [hstun] at hparse
        rw [hparse]
        dsimp only
        rw [updateMappedAddressFromStun]
        split_ifs
        · rw [hparse]
        · rw [hparse]
        · cases stun.mapped <;> rfl
  · rw [if_neg hexpect] at hparse
    rw [hparse, hparse]

/-- An error comes again. -/
theorem unpack_again {p : ScionPackager} {buf : List UInt8} {ulSource : IPAddress}
    {hbhExt e2eExt : List (Extension S)} {ec : ErrorCode}
    (h : (p.unpack buf ulSource hbhExt e2eExt).1 = .error ec) :
    ((p.unpack buf ulSource hbhExt e2eExt).2.unpack buf ulSource hbhExt e2eExt).1 = .error ec := by
  cases hstun : detectStun buf with
  | true =>
    have hunpack : ∀ p : ScionPackager, p.unpack buf ulSource hbhExt e2eExt
        = (.error (p.parseStun buf ulSource).1, (p.parseStun buf ulSource).2) := by
      intro p
      rw [unpack, hstun, if_pos rfl]
    rw [hunpack] at h ⊢
    rw [hunpack, p.parseStun_again]
    exact h
  | false =>
    have hsame : (p.unpack buf ulSource hbhExt e2eExt).2 = p := by
      rw [unpack, hstun, if_neg Bool.false_ne_true]
      split
      · rfl
      · dsimp only
        split_ifs <;> rfl
    rw [hsame]
    exact h

end ScionPackager

/-! ### Rounds -/

/-- A receive function that reads what fits, and removes it unless it peeks. -/
structure IsUnderlay (receive : Bool → AsioState.Underlay S)
    (fits : AsioState S → Datagram → Prop) : Prop where
  empty : ∀ peek s, (receive peek s []).1 = .error (.system eagain) ∧ (receive peek s []).2.2 = []
  reads : ∀ peek s d q, fits s d → receive peek s (d :: q)
    = (.ok ((s.receive d.1).2, d.2), (s.receive d.1).1, if peek then d :: q else q)
  fails : ∀ peek s d q, ¬fits s d → ∃ ec, receive peek s (d :: q)
    = (.error ec, (s.receive d.1).1, if peek then d :: q else q)

omit [ExtensionClass S] in
theorem isUnderlay_recvfrom :
    IsUnderlay (@AsioState.recvfrom S) fun s d => d.1.length ≤ s.buf.length := by
  refine ⟨fun _ _ => ⟨rfl, rfl⟩, fun peek s d q hfits => ?_, fun peek s d q hnot => ?_⟩
  · exact if_neg (Nat.not_lt.mpr hfits)
  · exact ⟨_, if_pos (Nat.not_le.mp hnot)⟩

omit [ExtensionClass S] in
theorem fits_congr (s t : AsioState S) (h : s.buf.length = t.buf.length) (d : Datagram)
    (hfits : d.1.length ≤ s.buf.length) : d.1.length ≤ t.buf.length := by
  rwa [← h]

omit [ExtensionClass S] in
theorem isUnderlay_receiveFrom : IsUnderlay (@AsioState.receiveFrom S) fun _ _ => True :=
  ⟨fun _ _ => ⟨rfl, rfl⟩, fun _ _ _ _ _ => rfl, fun _ _ _ _ hnot => absurd trivial hnot⟩

namespace AsioState

omit [ExtensionClass S] in
/-- A datagram that is received once more. -/
theorem receive_again {s t : AsioState S} {data : List UInt8} (h : t.buf = (s.receive data).1.buf) :
    (t.receive data).1 = t ∧ (t.receive data).2 = (s.receive data).2 := by
  have hbuf : t.buf = data.take (min data.length s.buf.length)
      ++ s.buf.drop (min data.length s.buf.length) := h
  have hlen : t.buf.length = s.buf.length := by
    rw [hbuf, List.length_append, List.length_take, List.length_drop]
    omega
  have hmin : min data.length t.buf.length = min data.length s.buf.length := by rw [hlen]
  refine ⟨?_, hmin⟩
  have hsame : data.take (min data.length t.buf.length)
      ++ t.buf.drop (min data.length t.buf.length) = t.buf := by
    rw [hmin, hbuf, List.drop_left' (by rw [List.length_take]; omega)]
  change ({ t with buf := _ } : AsioState S) = t
  rw [hsame]

theorem buf_unpack (s : AsioState S) (n : ℕ) (ulSource : IPAddress) :
    (s.unpack n ulSource).2.2.buf = s.buf := by
  rw [unpack]
  split
  · rfl
  · split <;> rfl

omit [ExtensionClass S] in
theorem buf_handleScmp (scmpHandler : Bool) (call : Option ScmpCall) (s : AsioState S) :
    (s.handleScmp scmpHandler call).buf = s.buf := by
  cases call with
  | none => rfl
  | some call => cases scmpHandler <;> rfl

omit [ExtensionClass S] in
theorem buf_storeScmp (call : Option ScmpCall) (s : AsioState S) : (s.storeScmp call).buf = s.buf := by
  cases call <;> rfl

end AsioState

section Rounds

variable {receive : Bool → AsioState.Underlay S} {fits : AsioState S → Datagram → Prop}
  {flags : MsgFlags} {s : AsioState S} {d : Datagram}

omit [ExtensionClass S] in
/-- The head of the queue is discarded. -/
theorem IsUnderlay.discard (h : IsUnderlay receive fits) {t : AsioState S}
    (hbuf : t.buf = (s.receive d.1).1.buf) (q : List Datagram) :
    (receive false t (d :: q)).2 = (t, q) := by
  obtain ⟨hsame, -⟩ := AsioState.receive_again hbuf
  by_cases hfits : fits t d
  · rw [h.reads false t d q hfits, hsame]
    rfl
  · obtain ⟨ec, hec⟩ := h.fails false t d q hfits
    rw [hec, hsame]
    rfl

theorem buf_handled (scmpHandler : Bool) (s : AsioState S) (d : Datagram) :
    (s.handled scmpHandler d).buf = (s.receive d.1).1.buf := by
  rw [AsioState.handled, AsioState.buf_handleScmp, AsioState.buf_unpack]

theorem buf_stored (s : AsioState S) (d : Datagram) :
    (s.stored d).buf = (s.receive d.1).1.buf := by
  rw [AsioState.stored, AsioState.buf_storeScmp, AsioState.buf_unpack]

/-- A round of `recvImpl` that peeks returns a payload, and discards anything else. -/
theorem recvWith_cons (h : IsUnderlay receive fits) (hfits : fits s d) (hpeek : flags.peek = true)
    (scmpHandler : Bool) (q : List Datagram) :
    (∀ payload, s.decode d = .ok payload →
      recvWith (receive true) (receive false) flags scmpHandler s (d :: q)
        = ⟨.reported (.ok payload), s.handled scmpHandler d, d :: q⟩) ∧
    ∀ ec, s.decode d = .error ec →
      recvWith (receive true) (receive false) flags scmpHandler s (d :: q)
        = ⟨if flags.asks ec then .reported (.error (.scion ec)) else .skipped,
          s.handled scmpHandler d, q⟩ := by
  have hdiscard := h.discard (buf_handled scmpHandler s d) q
  rcases hunpack : (s.receive d.1).1.unpack (s.receive d.1).2 d.2.host with ⟨payload, call, u⟩
  have hhandled : s.handled scmpHandler d = u.handleScmp scmpHandler call := by
    rw [AsioState.handled, hunpack]
  rw [hhandled] at hdiscard ⊢
  rw [AsioState.decode, hunpack, recvWith, h.reads true s d q hfits]
  dsimp only
  rw [hunpack]
  dsimp only
  constructor
  · rintro payload rfl
    rfl
  · rintro ec rfl
    dsimp only
    rw [if_pos hpeek, if_pos rfl, hdiscard, MsgFlags.asks]
    split_ifs <;> simp_all

/-- A datagram that cannot be unpacked cannot be unpacked once more. -/
theorem AsioState.decode_again {s u : AsioState S} {d : Datagram} {call : Option ScmpCall}
    {ec : ErrorCode} (h : (s.receive d.1).1.unpack (s.receive d.1).2 d.2.host = (.error ec, call, u))
    (hec : ec ≠ .scmpReceived) : call = none ∧ u.decode d = .error ec := by
  have hbuf : u.buf = (s.receive d.1).1.buf := by
    rw [← buf_unpack (s.receive d.1).1 (s.receive d.1).2 d.2.host, h]
  obtain ⟨hsame, hnum⟩ := receive_again hbuf
  rw [decode, hsame, hnum]
  rw [unpack] at h
  rcases hp : (s.receive d.1).1.packager.unpack ((s.receive d.1).1.buf.take (s.receive d.1).2)
    d.2.host (s.receive d.1).1.hbhExt (s.receive d.1).1.e2eExt with ⟨ec' | unpacked, p⟩
  · rw [hp] at h
    have hagain := ScionPackager.unpack_again (congrArg Prod.fst hp)
    rw [hp] at hagain
    cases h
    refine ⟨rfl, ?_⟩
    rw [unpack]
    dsimp only at hagain ⊢
    rcases hq : p.unpack ((s.receive d.1).1.buf.take (s.receive d.1).2) d.2.host
      (s.receive d.1).1.hbhExt (s.receive d.1).1.e2eExt with ⟨r, p'⟩
    rw [hq] at hagain
    dsimp only at hagain
    rw [hagain]
  · rw [hp] at h
    dsimp only at h
    cases hscmp : unpacked.scmp with
    | none =>
      rw [hscmp] at h
      cases h
    | some message =>
      rw [hscmp] at h
      cases h
      exact absurd rfl hec

/-- What `recvScmpImpl` does not return is the same when it looks again. -/
theorem decode_stored {ec : ErrorCode} (h : s.decode d = .error ec)
    (hasks : flags.asksScmp ec = false) : (s.stored d).decode d = .error ec := by
  rcases hunpack : (s.receive d.1).1.unpack (s.receive d.1).2 d.2.host with ⟨payload, call, u⟩
  rw [AsioState.decode, hunpack] at h
  subst h
  obtain ⟨rfl, hagain⟩ := AsioState.decode_again hunpack fun hscmp => by
    rw [hscmp] at hasks
    cases hasks
  rw [AsioState.stored, hunpack]
  exact hagain

/-- A round of `recvScmpImpl` that peeks discards a payload, and nothing else. -/
theorem recvScmpWith_cons (h : IsUnderlay receive fits) (hfits : fits s d)
    (hpeek : flags.peek = true) (q : List Datagram) :
    (∀ payload, s.decode d = .ok payload →
      recvScmpWith (receive true) (receive false) flags s (d :: q) = ⟨.skipped, s.stored d, q⟩) ∧
    ∀ ec, s.decode d = .error ec → ∃ result,
      recvScmpWith (receive true) (receive false) flags s (d :: q)
        = ⟨if flags.asksScmp ec then .reported result else .skipped, s.stored d, d :: q⟩ := by
  have hdiscard := h.discard (buf_stored s d) q
  rcases hunpack : (s.receive d.1).1.unpack (s.receive d.1).2 d.2.host with ⟨decoded, call, u⟩
  have hstored : s.stored d = u.storeScmp call := by rw [AsioState.stored, hunpack]
  rw [hstored] at hdiscard ⊢
  rw [AsioState.decode, hunpack, recvScmpWith, h.reads true s d q hfits]
  dsimp only
  rw [hunpack]
  dsimp only
  constructor
  · rintro payload rfl
    dsimp only
    rw [if_pos hpeek, if_pos rfl, hdiscard]
  · rintro ec rfl
    dsimp only
    rw [MsgFlags.asksScmp]
    by_cases hscmp : ec = .scmpReceived
    · exact ⟨.ok ((call.map ScmpCall.payload).getD []), by simp [hscmp]⟩
    · refine ⟨.error (.scion ec), ?_⟩
      rw [if_neg hscmp]
      split_ifs <;> simp_all

/-! ### Loops that peek -/

theorem recvWith_of_error {receive discard : AsioState.Underlay S} {scmpHandler : Bool}
    {q q' : List Datagram} {t : AsioState S} {ec : AsioError}
    (h : receive s q = (.error ec, t, q')) :
    recvWith receive discard flags scmpHandler s q = ⟨.failed (.error ec), t, q'⟩ := by
  rw [recvWith, h]

theorem recvScmpWith_of_error {receive discard : AsioState.Underlay S}
    {q q' : List Datagram} {t : AsioState S} {ec : AsioError}
    (h : receive s q = (.error ec, t, q')) :
    recvScmpWith receive discard flags s q = ⟨.failed (.error ec), t, q'⟩ := by
  rw [recvScmpWith, h]

omit [ExtensionClass S] in
theorem IsUnderlay.receive_nil (h : IsUnderlay receive fits) (peek : Bool) (s : AsioState S) :
    ∃ t, receive peek s [] = (.error (.system eagain), t, []) := by
  obtain ⟨herror, hqueue⟩ := h.empty peek s
  exact ⟨(receive peek s []).2.1, Prod.ext herror (Prod.ext rfl hqueue)⟩

/-- `recvImpl` discards what it returns the code of. -/
theorem keeps_recvWith_iff (h : IsUnderlay receive fits) (hpeek : flags.peek = true)
    (scmpHandler : Bool) (s : AsioState S) (q : List Datagram) :
    Keeps (recvWith (receive true) (receive false) flags scmpHandler) s q ↔
      NoneAsked flags fits scmpHandler s q := by
  induction q generalizing s with
  | nil =>
    obtain ⟨t, ht⟩ := h.receive_nil true s
    exact iff_of_true (keeps_of_failed (recvWith_of_error ht)) trivial
  | cons d q ih =>
    rw [NoneAsked]
    by_cases hfits : fits s d
    · obtain ⟨hok, herror⟩ := recvWith_cons h hfits hpeek scmpHandler q
      rw [forall_prop_of_true hfits]
      cases hdecode : s.decode d with
      | ok payload => exact iff_of_true ((keeps_iff_of_reported (hok payload hdecode)).mpr rfl) trivial
      | error ec =>
        have hround := herror ec hdecode
        dsimp only
        cases hasks : flags.asks ec with
        | true =>
          rw [hasks, if_pos rfl] at hround
          rw [keeps_iff_of_reported hround]
          exact iff_of_false List.ne_cons_self fun hnot => Bool.noConfusion hnot.1
        | false =>
          rw [hasks, if_neg Bool.false_ne_true] at hround
          rw [keeps_cons_iff hround, ih]
          exact ⟨fun hrest => ⟨rfl, hrest⟩, And.right⟩
    · obtain ⟨ec, hec⟩ := h.fails true s d q hfits
      exact iff_of_true (keeps_of_failed (recvWith_of_error hec)) fun hyes => absurd hyes hfits

/-- `recvScmpImpl` comes back to what it cannot unpack. -/
theorem keeps_recvScmpWith_iff (h : IsUnderlay receive fits)
    (hcongr : ∀ s t : AsioState S, s.buf.length = t.buf.length → ∀ d, fits s d → fits t d)
    (hpeek : flags.peek = true) (s : AsioState S) (q : List Datagram) :
    Keeps (recvScmpWith (receive true) (receive false) flags) s q ↔
      AllUnpacked flags fits s q := by
  induction q generalizing s with
  | nil =>
    obtain ⟨t, ht⟩ := h.receive_nil true s
    exact iff_of_true (keeps_of_failed (recvScmpWith_of_error ht)) trivial
  | cons d q ih =>
    rw [AllUnpacked]
    by_cases hfits : fits s d
    · obtain ⟨hok, herror⟩ := recvScmpWith_cons h hfits hpeek q
      rw [forall_prop_of_true hfits]
      cases hdecode : s.decode d with
      | ok payload => rw [keeps_cons_iff (hok payload hdecode), ih]
      | error ec =>
        obtain ⟨result, hround⟩ := herror ec hdecode
        dsimp only
        cases hasks : flags.asksScmp ec with
        | true =>
          rw [hasks, if_pos rfl] at hround
          exact iff_of_true ((keeps_iff_of_reported hround).mpr rfl) rfl
        | false =>
          -- the datagram stays the head of the queue, and its code is not asked for
          refine iff_of_false ?_ Bool.false_ne_true
          refine @not_keeps_of_stuck _ _ _ _ _ _ (fun s q' => q' = d :: q ∧ fits s d ∧
            s.decode d = .error ec) ⟨rfl, hfits, hdecode⟩ ?_
          rintro s q' ⟨rfl, hfits, hdecode⟩
          obtain ⟨result, hstuck⟩ := (recvScmpWith_cons h hfits hpeek q).2 ec hdecode
          rw [hasks, if_neg Bool.false_ne_true] at hstuck
          rw [hstuck]
          refine ⟨rfl, rfl, hcongr s (s.stored d) ?_ d hfits, decode_stored hdecode hasks⟩
          rw [buf_stored]
          change _ = (d.1.take (min d.1.length s.buf.length)
            ++ s.buf.drop (min d.1.length s.buf.length)).length
          rw [List.length_append, List.length_take, List.length_drop]
          omega
    · obtain ⟨ec, hec⟩ := h.fails true s d q hfits
      exact iff_of_true (keeps_of_failed (recvScmpWith_of_error hec)) fun hyes => absurd hyes hfits

/-! ### The loop that does not peek -/

/-- The head is removed, and if it is not returned the datagram behind it too. -/
theorem exists_asioUdp_cons (flags : MsgFlags) (hpeek : flags.peek = true) (scmpHandler : Bool)
    (s : AsioState S) (d : Datagram) (q : List Datagram) : ∃ t,
    (∀ payload, s.decode d = .ok payload →
      (RecvLoop.asioUdp scmpHandler).round flags s (d :: q) = ⟨.reported (.ok payload), t, q⟩) ∧
    ∀ ec, s.decode d = .error ec → (RecvLoop.asioUdp scmpHandler).round flags s (d :: q)
      = ⟨if flags.asks ec then .reported (.error (.scion ec)) else .skipped, t, q.tail⟩ := by
  rcases hunpack : (s.receive d.1).1.unpack (s.receive d.1).2 d.2.host with ⟨payload, call, u⟩
  have hdecode : s.decode d = payload := by rw [AsioState.decode, hunpack]
  have hreads := isUnderlay_receiveFrom.reads false s d q trivial
  have hqueue : (AsioState.receiveFrom false (u.handleScmp scmpHandler call) q).2.2 = q.tail := by
    cases q <;> rfl
  cases payload with
  | ok payload =>
    refine ⟨u.handleScmp scmpHandler call, fun payload' h => ?_, fun ec h => ?_⟩
    · obtain rfl := Except.ok.inj (hdecode.symm.trans h)
      rw [RecvLoop.round, recvWith, hreads]
      dsimp only
      rw [hunpack]
      rfl
    · cases hdecode.symm.trans h
  | error ec =>
    refine ⟨(AsioState.receiveFrom false (u.handleScmp scmpHandler call) q).2.1,
      fun payload h => ?_, fun ec' h => ?_⟩
    · cases hdecode.symm.trans h
    · obtain rfl := Except.error.inj (hdecode.symm.trans h)
      rw [RecvLoop.round, recvWith, hreads]
      dsimp only
      rw [hunpack]
      dsimp only
      rw [if_pos hpeek, ← hqueue, MsgFlags.asks]
      split_ifs <;> simp_all

theorem asioUdp_nil (flags : MsgFlags) (scmpHandler : Bool) (s : AsioState S) :
    (RecvLoop.asioUdp scmpHandler).round flags s []
      = ⟨.failed (.error (.system eagain)), s, []⟩ := rfl

/-- Every round with a datagram removes it. -/
theorem length_asioUdp_lt (flags : MsgFlags) (hpeek : flags.peek = true) (scmpHandler : Bool)
    (s : AsioState S) {q : List Datagram} (hne : q ≠ []) :
    ((RecvLoop.asioUdp scmpHandler).round flags s q).queue.length < q.length := by
  cases q with
  | nil => exact absurd rfl hne
  | cons d q =>
    obtain ⟨t, hok, herror⟩ := exists_asioUdp_cons flags hpeek scmpHandler s d q
    cases hdecode : s.decode d with
    | ok payload =>
      rw [hok payload hdecode, List.length_cons]
      exact Nat.lt_succ_self _
    | error ec =>
      rw [herror ec hdecode, List.length_cons, List.length_tail]
      omega

/-- Of two datagrams a round that goes on removes both, and skips one. -/
theorem not_keeps_asioUdp (flags : MsgFlags) (hpeek : flags.peek = true) (scmpHandler : Bool)
    (s : AsioState S) {d d' : Datagram} {q : List Datagram} {t : AsioState S}
    (hround : (RecvLoop.asioUdp scmpHandler).round flags s (d :: d' :: q) = ⟨.skipped, t, q⟩) :
    ¬Keeps ((RecvLoop.asioUdp scmpHandler).round flags) s (d :: d' :: q) := by
  refine not_keeps_of_lost ?_ ?_ ?_ ?_
  · intro s q
    cases q with
    | nil => rw [asioUdp_nil]
    | cons d q =>
      exact (length_asioUdp_lt flags hpeek scmpHandler s (List.cons_ne_nil d q)).le
  · intro s q hskipped
    refine length_asioUdp_lt flags hpeek scmpHandler s ?_
    rintro rfl
    rw [asioUdp_nil] at hskipped
    cases hskipped
  · rw [hround]
  · rw [hround, List.length_cons, List.length_cons]
    exact Nat.lt_succ_self _

theorem keeps_asioUdp_iff (flags : MsgFlags) (hpeek : flags.peek = true) (scmpHandler : Bool)
    (s : AsioState S) (q : List Datagram) :
    Keeps ((RecvLoop.asioUdp scmpHandler).round flags) s q ↔
      q = [] ∨ ∃ d ec, q = [d] ∧ s.decode d = .error ec ∧ flags.asks ec = false := by
  cases q with
  | nil => exact iff_of_true (keeps_of_failed (asioUdp_nil flags scmpHandler s)) (.inl rfl)
  | cons d q =>
    obtain ⟨t, hok, herror⟩ := exists_asioUdp_cons flags hpeek scmpHandler s d q
    cases hdecode : s.decode d with
    | ok payload =>
      refine iff_of_false ?_ ?_
      · rw [keeps_iff_of_reported (hok payload hdecode)]
        exact List.ne_cons_self
      · rintro (hnone | ⟨d', ec, hd, hec, -⟩)
        · cases hnone
        · obtain ⟨rfl, -⟩ := List.cons.inj hd
          rw [hdecode] at hec
          cases hec
    | error ec =>
      have hround := herror ec hdecode
      cases hasks : flags.asks ec with
      | true =>
        rw [hasks, if_pos rfl] at hround
        refine iff_of_false ?_ ?_
        · -- the datagram behind it would have to be the head again
          rw [keeps_iff_of_reported hround]
          intro hqueue
          have hlen := congrArg List.length hqueue
          rw [List.length_tail, List.length_cons] at hlen
          omega
        · rintro (hnone | ⟨d', ec', hd, hec, hnot⟩)
          · cases hnone
          · obtain ⟨rfl, -⟩ := List.cons.inj hd
            obtain rfl := Except.error.inj (hdecode.symm.trans hec)
            rw [hasks] at hnot
            cases hnot
      | false =>
        rw [hasks, if_neg Bool.false_ne_true] at hround
        cases q with
        | nil =>
          refine iff_of_true ?_ (.inr ⟨d, ec, rfl, hdecode, hasks⟩)
          rw [keeps_cons_iff hround]
          exact keeps_of_failed (asioUdp_nil flags scmpHandler t)
        | cons d' q =>
          refine iff_of_false (not_keeps_asioUdp flags hpeek scmpHandler s hround) ?_
          rintro (hnone | ⟨d', ec', hd, -⟩)
          · cases hnone
          · cases (List.cons.inj hd).2

end Rounds

/-- The queues on which a loop with `SMSG_PEEK` ends and loses nothing. -/
theorem RecvLoop.keeps_iff (loop : RecvLoop) (flags : MsgFlags) (s : AsioState S)
    (q : List Datagram) (hpeek : flags.peek = true) :
    Keeps (loop.round flags) s q ↔ loop.Meets flags s q := by
  cases loop with
  | posixUdp scmpHandler =>
    rw [round, hpeek]
    exact keeps_recvWith_iff isUnderlay_recvfrom hpeek scmpHandler s q
  | posixScmp =>
    rw [round, hpeek]
    exact keeps_recvScmpWith_iff isUnderlay_recvfrom fits_congr hpeek s q
  | asioUdp scmpHandler => exact keeps_asioUdp_iff flags hpeek scmpHandler s q
  | asioScmp =>
    rw [round, hpeek]
    exact keeps_recvScmpWith_iff isUnderlay_receiveFrom (fun _ _ _ _ _ => trivial) hpeek s q

end Loops

/-! ### A datagram that is not a packet -/

def peekStun : MsgFlags := ⟨⟨false, true⟩, true⟩

def exampleSource : IPEndpoint := ⟨.v4 0x0a000002, 3478⟩

/-- The STUN message is removed from the queue. -/
theorem RecvLoop.keeps_iff_stunDatagram :
    Keeps ((posixUdp false).round peekStun) boundState [(stunDatagram, exampleSource)] ↔
      (posixUdp false).Meets peekStun boundState [(stunDatagram, exampleSource)] :=
  RecvLoop.keeps_iff (posixUdp false) peekStun boundState [(stunDatagram, exampleSource)] rfl

/-- A byte that `recvScmpImpl` looks at over and over again. -/
theorem RecvLoop.not_forall_keeps :
    ¬ ∀ (loop : RecvLoop) (flags : MsgFlags) (s : AsioState PlainOption) (q : List Datagram),
      flags.peek = true → Keeps (loop.round flags) s q := by
  intro hclaim
  have hkeeps := hclaim posixScmp peekStun boundState [([0], exampleSource)] rfl
  have hinvalid : boundState.decode ([0], exampleSource) = .error .invalidPacket := by
    decide +kernel
  rw [round, show peekStun.peek = true from rfl,
    keeps_recvScmpWith_iff isUnderlay_recvfrom fits_congr rfl, AllUnpacked, hinvalid] at hkeeps
  cases hkeeps (by decide +kernel)

end Scion
