/-
Synchronous and asynchronous receive (`asio/udp_socket.hpp`, `asio/scmp_socket.hpp`).

The asynchronous handlers test for the code of SCMP where the loops test for that
of STUN, and the one for STUN responses looks at the whole buffer, where bytes of
earlier and longer datagrams can be left.

* `STUN.ofBuffer_append` — the attributes of a message are as long as its header
  says;
* `ScionPackager.ReadsBeyond` — the message in a buffer is longer than what was
  received;
* `ReceiveCall.agrees_iff` — the two agree exactly if no datagram is treated
  differently before the loop ends.
-/
import Scion.CompletionHandlers

namespace Scion

open BigEndian Codec Completion

/-! ### STUN messages in a buffer -/

namespace STUN

/-- The message that a buffer begins with. -/
def ofBuffer (buf : List UInt8) : Option STUN :=
  match read (ReadStream.ofBuffer buf) with
  | .ok stun _ => some stun
  | .error _ _ => none

/-- The length of the attributes in the header. -/
def attribsLength (buf : List UInt8) : ℕ := (UInt16.ofNat (beNat ((buf.drop 2).take 2))).toNat

/-- Behind the header the attributes are read, and no more. -/
theorem ofBuffer_append {head : List UInt8} (h : head.length = stunHeaderSize) (rest : List UInt8) :
    ofBuffer (head ++ rest) =
      if rest.length < attribsLength head then none
      else ofBuffer (head ++ rest.take (attribsLength head)) := by
  obtain ⟨t, l, c, tx, rfl, ht, hl, hc, htx⟩ : ∃ t l c tx : List UInt8,
      head = t ++ (l ++ (c ++ tx)) ∧ t.length = 2 ∧ l.length = 2 ∧ c.length = 4 ∧ tx.length = 12 := by
    rw [stunHeaderSize] at h
    refine ⟨head.take 2, (head.drop 2).take 2, (head.drop 4).take 4, head.drop 8, ?_, ?_, ?_, ?_, ?_⟩
    · rw [show head.drop 8 = (head.drop 4).drop 4 by rw [List.drop_drop], List.take_append_drop,
        show head.drop 4 = (head.drop 2).drop 2 by rw [List.drop_drop], List.take_append_drop,
        List.take_append_drop]
    all_goals simp only [List.length_take, List.length_drop]; omega
  have hlen : attribsLength (t ++ (l ++ (c ++ tx))) = (UInt16.ofNat (beNat l)).toNat := by
    rw [attribsLength, ← ht, List.drop_left, ht, ← hl, List.take_left]
  set len := (UInt16.ofNat (beNat l)).toNat with hlendef
  have hread : ∀ rest : List UInt8, ofBuffer (t ++ (l ++ (c ++ tx)) ++ rest) =
      if UInt32.ofNat (beNat c) = magicCookie ∧ ¬ rest.length < len then
        EStateM.Result.casesOn
          (parseAttributes tx (rest.take len).length none (ReadStream.ofBuffer (rest.take len)))
          (fun mapped _ => some ⟨UInt16.ofNat (beNat t), tx, mapped⟩) (fun _ _ => none)
      else none := by
    intro rest
    rw [ofBuffer, read, ReadStream.ofBuffer_eq, List.append_assoc, List.append_assoc,
      List.append_assoc,
      bind_ok (ReadStream.fixedRead_uint16.reads t ht [] _),
      bind_ok (ReadStream.fixedRead_uint16.reads l hl _ _),
      bind_ok (ReadStream.fixedRead_uint32.reads c hc _ _)]
    by_cases hcookie : UInt32.ofNat (beNat c) = magicCookie
    · rw [bind_ok (ensure_eq_ok.mpr ⟨by simpa using hcookie, rfl⟩),
        bind_ok ((ReadStream.fixedRead_bytes 12).reads tx htx _ _)]
      by_cases hshort : rest.length < len
      · have hlook : ReadStream.lookahead (some len) (ReadStream.cursor ([] ++ t ++ l ++ c ++ tx) rest)
            = .error "out of data to read" (ReadStream.cursor ([] ++ t ++ l ++ c ++ tx) rest) := by
          rw [ReadStream.lookahead, if_neg (by simp)]
          simp only [ReadStream.remaining_cursor]
          rw [if_pos hshort]
        rw [if_neg fun h => h.2 hshort, bind_error hlook]
      · have hview := ReadStream.lookahead_some ([] ++ t ++ l ++ c ++ tx) (rest.take len)
          (rest.drop len) len (by rw [List.length_take]; omega)
        rw [List.take_append_drop] at hview
        rw [if_pos ⟨hcookie, hshort⟩, bind_ok hview]
        simp only [id]
        cases parseAttributes tx (rest.take len).length none (ReadStream.ofBuffer (rest.take len)) <;>
          rfl
    · have hfalse : (UInt32.ofNat (beNat c) == magicCookie) = false := by simpa using hcookie
      rw [if_neg fun h => hcookie h.1, hfalse, bind_error (ensure_false _ _)]
  rw [hlen, hread, hread]
  by_cases hshort : rest.length < len
  · rw [if_pos hshort, if_neg fun h => h.2 hshort]
  · have hfull : (rest.take len).length = len := by
      rw [List.length_take]
      omega
    rw [if_neg hshort, List.take_take, min_self, hfull]
    simp [hshort]
end STUN

namespace ScionPackager

theorem parseStun_eq (p : ScionPackager) (buf : List UInt8) (ulSource : IPAddress) :
    p.parseStun buf ulSource =
      if p.expectStunResponse then
        if ulSource != p.expectedStunServer then (.srcAddrMismatch, p)
        else
          match STUN.ofBuffer buf with
          | none => (.invalidPacket, p)
          | some stun => (.stunReceived, p.updateMappedAddressFromStun stun)
      else (.stunReceived, p) := by
  rw [parseStun, STUN.ofBuffer]
  cases STUN.read (ReadStream.ofBuffer buf) <;> rfl

theorem parseStun_ne_pending (p : ScionPackager) (buf : List UInt8) (ulSource : IPAddress) :
    (p.parseStun buf ulSource).1 ≠ .pending := by
  rw [parseStun_eq]
  split
  · split
    · simp
    · split <;> simp
  · simp

/-- The buffer begins with a STUN message that ends behind the first `n` bytes. -/
def ReadsBeyond (p : ScionPackager) (buf : List UInt8) (n : ℕ) (ulSource : IPAddress) : Prop :=
  detectStun buf = true ∧ (n < STUN.stunHeaderSize ∨
    p.expectStunResponse = true ∧ ulSource = p.expectedStunServer ∧
      (STUN.ofBuffer buf).isSome = true ∧ n < STUN.stunHeaderSize + STUN.attribsLength buf)

/-- Looking at more than was received makes a difference, and one in the code, if
a message is read that was not received completely. -/
theorem unpackStun_take {p : ScionPackager} {buf : List UInt8} {n : ℕ} {ulSource : IPAddress}
    (hn : n ≤ buf.length) :
    (p.ReadsBeyond buf n ulSource →
      (p.unpackStun (buf.take n) ulSource).1 ≠ (p.unpackStun buf ulSource).1) ∧
    (¬ p.ReadsBeyond buf n ulSource →
      p.unpackStun (buf.take n) ulSource = p.unpackStun buf ulSource) := by
  rw [unpackStun, unpackStun, detectStun_take hn, ReadsBeyond]
  cases hdetect : detectStun buf with
  | false => simp
  | true =>
    by_cases hheader : n < STUN.stunHeaderSize
    · have hshort : ¬ STUN.stunHeaderSize ≤ n := by omega
      simp only [hshort, hheader, decide_false, Bool.false_and, Bool.false_eq_true, if_false, if_true,
        true_or, and_self, not_true_eq_false, false_implies, and_true, true_implies]
      exact (parseStun_ne_pending p buf ulSource).symm
    · have hlong : STUN.stunHeaderSize ≤ n := by omega
      simp only [hlong, hheader, decide_true, Bool.true_and, if_true, false_or, true_and]
      rw [parseStun_eq, parseStun_eq]
      cases hexpect : p.expectStunResponse with
      | false => simp
      | true =>
        by_cases hsource : ulSource = p.expectedStunServer
        swap
        · simp [hsource]
        rw [if_pos rfl, if_neg (by simpa using hsource), if_pos rfl, if_neg (by simpa using hsource)]
        -- header and attributes
        have hhead : (buf.take 20).length = STUN.stunHeaderSize := by
          rw [List.length_take]
          exact min_eq_left (hlong.trans hn)
        have hattribs : STUN.attribsLength (buf.take 20) = STUN.attribsLength buf := by
          rw [STUN.attribsLength, STUN.attribsLength, List.drop_take, List.take_take]
          rfl
        have hbuf := STUN.ofBuffer_append hhead (buf.drop 20)
        have htake := STUN.ofBuffer_append hhead ((buf.drop 20).take (n - 20))
        have hsplit : buf.take 20 ++ (buf.drop 20).take (n - 20) = buf.take n := by
          rw [← List.take_add, Nat.add_sub_of_le (show 20 ≤ n from hlong)]
        rw [List.take_append_drop, hattribs] at hbuf
        rw [hsplit, hattribs, List.take_take, List.length_take, List.length_drop] at htake
        by_cases hfits : n < STUN.stunHeaderSize + STUN.attribsLength buf
        · have hnone : STUN.ofBuffer (buf.take n) = none := by
            rw [htake, if_pos]
            rw [STUN.stunHeaderSize] at hfits hlong
            omega
          rw [hnone]
          cases hmessage : STUN.ofBuffer buf with
          | none => simp
          | some stun => simp [hsource, hfits]
        · have hsame : STUN.ofBuffer (buf.take n) = STUN.ofBuffer buf := by
            rw [STUN.stunHeaderSize] at hfits hlong
            rw [htake, hbuf, List.length_drop, if_neg (by omega), if_neg (by omega),
              min_eq_left (by omega)]
          rw [hsame]
          simp [hfits]

/-- A STUN message from the server if a response is expected from it, or any. -/
def TakesStun (p : ScionPackager) (buf : List UInt8) (ulSource : IPAddress) : Prop :=
  detectStun buf = true ∧ (p.expectStunResponse = true →
    ulSource = p.expectedStunServer ∧ (STUN.ofBuffer buf).isSome = true)

theorem parseStun_eq_stunReceived_iff {p : ScionPackager} {buf : List UInt8} {ulSource : IPAddress} :
    (p.parseStun buf ulSource).1 = .stunReceived ↔ (p.expectStunResponse = true →
      ulSource = p.expectedStunServer ∧ (STUN.ofBuffer buf).isSome = true) := by
  rw [parseStun_eq]
  cases hexpect : p.expectStunResponse with
  | false => simp
  | true =>
    by_cases hsource : ulSource = p.expectedStunServer
    · rw [if_pos rfl, if_neg (by simpa using hsource)]
      cases STUN.ofBuffer buf <;> simp [hsource]
    · simp [hsource]

theorem verifyReceived_ne_stunReceived (p : ScionPackager) (pkt : ParsedPacket)
    (ulSource : IPAddress) : p.verifyReceived pkt ulSource ≠ .stunReceived := by
  rw [verifyReceived]
  split_ifs <;> simp

section Unpack

variable {S : Type} [ExtensionClass S]

/-- Behind the checks, only extensions are refused. -/
theorem unpackVerified_error {pkt : ParsedPacket} {hbhExt e2eExt : List (Extension S)}
    {ec : ErrorCode} (h : unpackVerified pkt hbhExt e2eExt = .error ec) : ec = .invalidPacket := by
  have hexts : ∀ {opts : List UInt8} {exts : List (Extension S)} {ec : ErrorCode},
      unpackExtensions opts exts = .error ec → ec = .invalidPacket := by
    intro opts exts ec h
    rw [unpackExtensions] at h
    split at h
    · cases h
    · split at h
      · cases h
        rfl
      · cases h
  rw [unpackVerified] at h
  rcases hhbh : unpackExtensions pkt.hbhOpts hbhExt with err | hbhExt'
  · rw [hhbh] at h
    cases h
    exact hexts hhbh
  · rcases he2e : unpackExtensions pkt.hbhOpts e2eExt with err | e2eExt'
    · rw [hhbh, he2e] at h
      cases h
      exact hexts he2e
    · rw [hhbh, he2e] at h
      rcases hl4 : pkt.l4 with udp | scmp <;> simp [hl4, bind, Except.bind] at h

theorem unpack_eq_stunReceived_iff {p : ScionPackager} {buf : List UInt8} {ulSource : IPAddress}
    {hbhExt e2eExt : List (Extension S)} :
    (p.unpack buf ulSource hbhExt e2eExt).1 = .error .stunReceived ↔ p.TakesStun buf ulSource := by
  rw [unpack, TakesStun]
  cases hstun : detectStun buf with
  | true =>
    rw [if_pos rfl, ← parseStun_eq_stunReceived_iff]
    simp
  | false =>
    refine iff_of_false (fun h => ?_) fun h => Bool.false_ne_true h.1
    rw [if_neg Bool.false_ne_true] at h
    split at h
    · cases h
    · simp only at h
      split at h
      · exact verifyReceived_ne_stunReceived _ _ _ (Except.error.inj h)
      · cases unpackVerified_error h

end Unpack

end ScionPackager

/-! ### Rounds and handlers -/

namespace AsioState

variable {S : Type}

theorem receive_buf_take (s : AsioState S) (data : List UInt8) :
    (s.receive data).1.buf.take (s.receive data).2 = data.take s.buf.length := by
  show (data.take (min data.length s.buf.length) ++ _).take (min data.length s.buf.length) = _
  rw [List.take_left' (by rw [List.length_take]; omega)]
  rcases Nat.le_total data.length s.buf.length with h | h
  · rw [min_eq_left h, List.take_length, List.take_of_length_le h]
  · rw [min_eq_right h]

theorem receive_le (s : AsioState S) (data : List UInt8) :
    (s.receive data).2 ≤ (s.receive data).1.buf.length := by
  show min data.length s.buf.length
    ≤ (data.take (min data.length s.buf.length) ++ s.buf.drop (min data.length s.buf.length)).length
  rw [List.length_append, List.length_take, List.length_drop]
  omega

variable [ExtensionClass S]

theorem unpack_eq_stunReceived_iff (s : AsioState S) (n : ℕ) (ulSource : IPAddress) :
    (s.unpack n ulSource).1 = .error .stunReceived ↔
      s.packager.TakesStun (s.buf.take n) ulSource := by
  have hpackager := @ScionPackager.unpack_eq_stunReceived_iff S _ s.packager (s.buf.take n) ulSource
    s.hbhExt s.e2eExt
  rw [← hpackager, unpack]
  rcases s.packager.unpack (s.buf.take n) ulSource s.hbhExt s.e2eExt with ⟨ec | u, packager⟩
  · simp
  · rcases hscmp : u.scmp with _ | message <;> simp [hscmp]

end AsioState

/-- The receive calls that come in both forms. -/
inductive ReceiveCall
  | recv (flags : RecvFlags) (scmpHandler : Bool)
  | recvScmp (flags : RecvFlags)
  | recvStunResponse
  deriving DecidableEq, Repr

namespace ReceiveCall

section Calls

variable {S : Type}

/-- STUN responses are received in a buffer of the call. -/
def start (call : ReceiveCall) (s : AsioState S) : AsioState S :=
  match call with
  | recvStunResponse => { s with buf := List.replicate 128 0 }
  | _ => s

/-- The datagram is treated differently: it is a STUN message, and these are asked
for, or it is read as a STUN message that is longer than itself. -/
def Misread (call : ReceiveCall) (s : AsioState S) : Outcome .receive → Prop
  | .error _ => False
  | .ok (data, ulSource) =>
    match call with
    | recv flags _ =>
      flags.recvStun = true ∧ s.packager.TakesStun (data.take s.buf.length) ulSource.host
    | recvScmp flags =>
      flags.recvStun = true ∧ s.packager.TakesStun (data.take s.buf.length) ulSource.host
    | recvStunResponse =>
      s.packager.ReadsBeyond (s.receive data).1.buf (s.receive data).2 ulSource.host

variable [ExtensionClass S]

def round : ReceiveCall → AsioState S → Outcome .receive → Option AsioResult × AsioState S
  | recv flags scmpHandler => recvRound flags scmpHandler
  | recvScmp flags => recvScmpRound flags
  | recvStunResponse => recvStunRound

/-- `recvImpl`, `recvScmpImpl` and `recvStunResponse`. -/
def sync (call : ReceiveCall) (s : AsioState S) (xs : List (Outcome .receive)) :
    Option AsioResult × AsioState S × List (Outcome .receive) := loop call.round (call.start s) xs

/-- `recvAsyncImpl`, `recvScmpAsyncImpl` and `recvStunResponseAsync`. -/
def async : ReceiveCall → AsyncCall S .receive
  | recv flags scmpHandler => .recv flags scmpHandler
  | recvScmp flags => .recvScmp flags
  | recvStunResponse => .recvStunResponse

def handler : ReceiveCall → AsioState S → Outcome .receive → List (Effect AsioResult) × AsioState S
  | recv flags scmpHandler => recvHandler flags scmpHandler
  | recvScmp flags => recvScmpHandler flags
  | recvStunResponse => recvStunHandler

/-- What an intermediate handler does, as a round of a loop. -/
def handled (call : ReceiveCall) (s : AsioState S) (x : Outcome .receive) :
    Option AsioResult × AsioState S :=
  ((results (call.handler s x).1).head?, (call.handler s x).2)

/-- A handler does what the round does unless it misreads the datagram, and then it
does not end with the same result. -/
def Follows (call : ReceiveCall) (s : AsioState S) (x : Outcome .receive) : Prop :=
  (¬ call.Misread s x → call.round s x = call.handled s x) ∧
    (call.Misread s x → (call.round s x).1 ≠ (call.handled s x).1)

theorem recv_follows (flags : RecvFlags) (scmpHandler : Bool) (s : AsioState S)
    (x : Outcome .receive) : (recv flags scmpHandler).Follows s x := by
  rcases x with ec | ⟨data, ulSource⟩
  · exact ⟨fun _ => rfl, fun h => h.elim⟩
  · rw [Follows, Misread, ← s.receive_buf_take data]
    have hstun := (s.receive data).1.unpack_eq_stunReceived_iff (s.receive data).2 ulSource.host
    rw [show (s.receive data).1.packager = s.packager from rfl] at hstun
    simp only [handled, round, handler, recvRound, recvHandler, ← hstun]
    generalize (s.receive data).1.unpack (s.receive data).2 ulSource.host = unpacked
    obtain ⟨ec | payload, call, s'⟩ := unpacked
    · by_cases hscmp : ec = .scmpReceived
      · subst hscmp
        cases flags.recvScmp <;> simp [results]
      · by_cases hec : ec = .stunReceived
        · subst hec
          cases flags.recvStun <;> simp [results]
        · simp [hscmp, hec, results]
    · simp [results]

theorem recvScmp_follows (flags : RecvFlags) (s : AsioState S) (x : Outcome .receive) :
    (recvScmp flags).Follows s x := by
  rcases x with ec | ⟨data, ulSource⟩
  · exact ⟨fun _ => rfl, fun h => h.elim⟩
  · rw [Follows, Misread, ← s.receive_buf_take data]
    have hstun := (s.receive data).1.unpack_eq_stunReceived_iff (s.receive data).2 ulSource.host
    rw [show (s.receive data).1.packager = s.packager from rfl] at hstun
    simp only [handled, round, handler, recvScmpRound, recvScmpHandler, ← hstun]
    generalize (s.receive data).1.unpack (s.receive data).2 ulSource.host = unpacked
    obtain ⟨ec | payload, call, s'⟩ := unpacked
    · by_cases hscmp : ec = .scmpReceived
      · subst hscmp
        simp [results]
      · by_cases hec : ec = .stunReceived
        · subst hec
          cases flags.recvStun <;> simp [results]
        · simp [hscmp, hec, results]
    · simp [results]

/-- Everything but `pending` ends the receive of a STUN response. -/
def stunResult (u : ErrorCode × AsioState S) : Option AsioResult × AsioState S :=
  (if u.1 = .pending then none else some (.code (.scion u.1)), u.2)

omit [ExtensionClass S] in
theorem recvStunRound_ok (s : AsioState S) (data : List UInt8) (ulSource : IPEndpoint) :
    recvStunRound s (.ok (data, ulSource)) = stunResult
      ((s.receive data).1.unpackStun ((s.receive data).1.buf.take (s.receive data).2)
        ulSource.host) := by
  simp only [recvStunRound, stunResult]
  split_ifs <;> simp_all

omit [ExtensionClass S] in
theorem recvStunHandler_ok (s : AsioState S) (data : List UInt8) (ulSource : IPEndpoint) :
    ((results (recvStunHandler s (.ok (data, ulSource))).1).head?,
        (recvStunHandler s (.ok (data, ulSource))).2)
      = stunResult ((s.receive data).1.unpackStun (s.receive data).1.buf ulSource.host) := by
  simp only [recvStunHandler, stunResult]
  split_ifs <;> simp_all [results]

theorem recvStunResponse_follows (s : AsioState S) (x : Outcome .receive) :
    recvStunResponse.Follows s x := by
  rcases x with ec | ⟨data, ulSource⟩
  · exact ⟨fun _ => rfl, fun h => h.elim⟩
  · obtain ⟨hbad, hgood⟩ := @ScionPackager.unpackStun_take s.packager (s.receive data).1.buf
      (s.receive data).2 ulSource.host (s.receive_le data)
    rw [Follows, Misread, round, handled, handler, recvStunRound_ok, recvStunHandler_ok, stunResult,
      stunResult]
    refine ⟨fun h => ?_, fun h => ?_⟩
    · have hsame : (s.receive data).1.unpackStun ((s.receive data).1.buf.take (s.receive data).2)
          ulSource.host = (s.receive data).1.unpackStun (s.receive data).1.buf ulSource.host :=
        congrArg (fun u : ErrorCode × ScionPackager =>
          (u.1, { (s.receive data).1 with packager := u.2 })) (hgood h)
      rw [hsame]
    · have hne : ((s.receive data).1.unpackStun ((s.receive data).1.buf.take (s.receive data).2)
          ulSource.host).1 ≠ ((s.receive data).1.unpackStun (s.receive data).1.buf ulSource.host).1 :=
        hbad h
      intro hsame
      simp only at hsame
      split_ifs at hsame with hpending hpending'
      · exact hne (hpending.trans hpending'.symm)
      · exact hne (AsioError.scion.inj (AsioResult.code.inj (Option.some.inj hsame)))

theorem follows (call : ReceiveCall) (s : AsioState S) (x : Outcome .receive) :
    call.Follows s x := by
  cases call with
  | recv flags scmpHandler => exact recv_follows flags scmpHandler s x
  | recvScmp flags => exact recvScmp_follows flags s x
  | recvStunResponse => exact recvStunResponse_follows s x

/-! ### Loops and operations -/

variable (hash : ScIPAddress → UInt64) (murmur32 : List UInt8 → UInt32 → UInt32)

theorem restarts (call : ReceiveCall) (s : AsioState S) :
    Restarts (call.async.operation hash murmur32 s) call.handled := by
  have hrestarts : ∀ {handle : AsioState S → Outcome .receive → List (Effect AsioResult) × AsioState S}
      {onError : ℕ → AsioResult}, Steps onError handle → ∀ s x, handle s x =
        ([Effect.ofResult (results (handle s x).1).head?], (handle s x).2) := by
    intro handle onError hsteps s x
    refine Prod.ext ?_ rfl
    rcases hsteps.one s x with hstart | ⟨r, hcomplete⟩
    · rw [hstart]
      rfl
    · rw [hcomplete]
      rfl
  cases call with
  | recv flags scmpHandler => exact ⟨rfl, hrestarts (steps_recvHandler flags scmpHandler)⟩
  | recvScmp flags => exact ⟨rfl, hrestarts (steps_recvScmpHandler flags)⟩
  | recvStunResponse => exact ⟨rfl, hrestarts steps_recvStunHandler⟩

/-- Both forms consume the same datagrams and end in the same state with the same
result exactly if no datagram is misread while they wait. -/
theorem agrees_iff (call : ReceiveCall) (s : AsioState S) (xs : List (Outcome .receive)) :
    Agrees (call.sync s xs) ((call.async.operation hash murmur32 s).run xs) ↔
      ¬ Reaches call.round call.Misread (call.start s) xs := by
  have hinitial : (call.async.operation hash murmur32 s).initial = call.start s := by
    cases call <;> rfl
  have hmisread : ∀ (s : AsioState S) x, call.round s x ≠ call.handled s x ↔ call.Misread s x := by
    intro s x
    constructor
    · intro hne
      by_contra h
      exact hne ((call.follows s x).1 h)
    · intro h heq
      exact (call.follows s x).2 h (congrArg Prod.fst heq)
  have hiff := agrees_iff_not_reaches (call.restarts hash murmur32 s)
    (fun s x hne => (call.follows s x).2 ((hmisread s x).mp hne)) xs
  rw [hinitial, Reaches.congr hmisread] at hiff
  exact hiff

end Calls

end ReceiveCall

/-- A binding request without attributes. -/
def stunDatagram : List UInt8 :=
  [0, 1, 0, 0, 0x21, 0x12, 0xa4, 0x42] ++ List.replicate 12 0

/-- With `SMSG_RECV_STUN` the loop ends at a STUN message, and the operation goes on. -/
theorem ReceiveCall.not_forall_agrees :
    ¬ ∀ (hash : ScIPAddress → UInt64) (murmur32 : List UInt8 → UInt32 → UInt32)
        (call : ReceiveCall) (s : AsioState PlainOption) (xs : List (Outcome .receive)),
      Agrees (call.sync s xs) ((call.async.operation hash murmur32 s).run xs) := by
  intro h
  have hresult := (h (fun _ => 0) (fun _ _ => 0) (recv ⟨false, true⟩ false) boundState
    [.ok (stunDatagram, ⟨.v4 0x0a000002, 3478⟩)]).result
  exact absurd hresult (by decide +kernel)

end Scion
