/-
What moves the mapped address of a socket (`socket/packager.hpp`).

* `Call` — the calls that a socket receives, with what they return;
* `latest` — the latest request of a run and the calls since;
* `Tracks` — the state expects a response exactly when the latest request is unanswered;
* `mapped_moves` — in every run the mapped address changes only when it is set, or by the
  first response to the latest request.
-/
import Scion.Packager
import Scion.Runs

namespace Scion

open BigEndian Codec Runs

/-- What a response has to match. -/
structure StunRequest where
  transaction : List UInt8
  server : IPAddress

namespace StunRequest

/-- The buffer holds a response to the request, and comes from its server. -/
def Answered (req : StunRequest) (buf : List UInt8) (ulSource : IPAddress) : Prop :=
  detectStun buf = true ∧ ulSource = req.server ∧
    ∃ stun s, STUN.read (ReadStream.ofBuffer buf) = .ok stun s ∧
      stun.type = StunMsgType.bindingResponse ∧ stun.transaction = req.transaction

end StunRequest

namespace ScionPackager

/-! ### Single calls -/

section Calls

variable {p : ScionPackager} {buf : List UInt8} {ulSource : IPAddress}

/-- The request that the state holds. -/
def request (p : ScionPackager) : StunRequest := ⟨p.stunTx, p.expectedStunServer⟩

/-- What the socket takes from a received buffer. -/
def receiveStun (p : ScionPackager) (buf : List UInt8) (ulSource : IPAddress) : ScionPackager :=
  (p.unpackStun buf ulSource).2

/-- `unpack` does to the state what `unpackStun` does. -/
theorem unpack_snd {S : Type} [ExtensionClass S] (hbhExt e2eExt : List (Extension S)) :
    (p.unpack buf ulSource hbhExt e2eExt).2 = p.receiveStun buf ulSource := by
  rw [unpack, receiveStun, unpackStun]
  cases detectStun buf with
  | true => rfl
  | false =>
    rw [if_neg Bool.false_ne_true, if_neg Bool.false_ne_true]
    split
    · rfl
    · dsimp only
      split <;> rfl

/-- An expected response is taken once; nothing else is taken. -/
theorem receiveStun_cases (p : ScionPackager) (buf : List UInt8) (ulSource : IPAddress) :
    (p.expectStunResponse = true ∧ p.request.Answered buf ulSource ∧
      ∃ mapped, p.receiveStun buf ulSource
        = { p with expectStunResponse := false, mapped := mapped }) ∨
    (¬(p.expectStunResponse = true ∧ p.request.Answered buf ulSource) ∧
      p.receiveStun buf ulSource = p) := by
  -- every test of `parseStun` and `updateMappedAddressFromStun` is a part of `Answered`:
  -- the first that fails leaves the state as it was
  rw [receiveStun, unpackStun]
  cases hdetect : detectStun buf with
  | false =>
    refine Or.inr ⟨fun h => ?_, rfl⟩
    rw [h.2.1] at hdetect
    cases hdetect
  | true =>
    rw [if_pos rfl, parseStun]
    cases hexpect : p.expectStunResponse with
    | false => exact Or.inr ⟨fun h => Bool.false_ne_true h.1, rfl⟩
    | true =>
      rw [if_pos rfl]
      by_cases hsource : ulSource = p.expectedStunServer
      swap
      · rw [if_pos (by simpa using hsource)]
        exact Or.inr ⟨fun h => hsource h.2.2.1, rfl⟩
      rw [if_neg (by simpa using hsource)]
      rcases hread : STUN.read (ReadStream.ofBuffer buf) with ⟨stun, s⟩ | ⟨e, s⟩
      swap
      · refine Or.inr ⟨fun h => ?_, rfl⟩
        obtain ⟨stun, s', hok, -⟩ := h.2.2.2
        rw [hread] at hok
        cases hok
      dsimp only
      rw [updateMappedAddressFromStun]
      by_cases htype : stun.type = StunMsgType.bindingResponse
      swap
      · rw [if_pos (by simpa using htype)]
        refine Or.inr ⟨fun h => ?_, rfl⟩
        obtain ⟨stun', s', hok, htype', -⟩ := h.2.2.2
        rw [hread] at hok
        cases hok
        exact htype htype'
      rw [if_neg (by simpa using htype)]
      by_cases htx : stun.transaction = p.stunTx
      swap
      · rw [if_pos (by simpa using htx)]
        refine Or.inr ⟨fun h => ?_, rfl⟩
        obtain ⟨stun', s', hok, -, htx'⟩ := h.2.2.2
        rw [hread] at hok
        cases hok
        exact htx htx'
      rw [if_neg (by simpa using htx)]
      refine Or.inl ⟨rfl, ⟨hdetect, hsource, stun, s, hread, htype, htx⟩, ?_⟩
      dsimp only
      -- a response without an address is taken as well
      rcases stun.mapped with _ | address
      · exact ⟨p.mapped, rfl⟩
      · exact ⟨_, rfl⟩

/-- An unspecified address is rejected, any other becomes the mapped address. -/
theorem setLocalEp_cases (p : ScionPackager) (ep : ScIPEndpoint) :
    ((p.setLocalEp ep).1 = .invalidArgument ∧ (p.setLocalEp ep).2 = p) ∨
      ((p.setLocalEp ep).1 = .ok ∧ (p.setLocalEp ep).2 = { p with localEp := ep, mapped := ep }) := by
  rw [setLocalEp]
  split
  · exact Or.inl ⟨rfl, rfl⟩
  · split
    · exact Or.inl ⟨rfl, rfl⟩
    · exact Or.inr ⟨rfl, rfl⟩

/-- A request that does not fit leaves the state as it was; any other is the one that a
response has to match. -/
theorem createStunRequest_cases (p : ScionPackager) (buf : List UInt8) (stunServer : IPAddress)
    (rand₁ rand₂ : UInt64) :
    (buf.length < STUN.stunHeaderSize ∧
      (p.createStunRequest buf stunServer rand₁ rand₂).1 = .bufferTooSmall ∧
      (p.createStunRequest buf stunServer rand₁ rand₂).2.2 = p) ∨
    (STUN.stunHeaderSize ≤ buf.length ∧
      (p.createStunRequest buf stunServer rand₁ rand₂).1 = .ok ∧
      (p.createStunRequest buf stunServer rand₁ rand₂).2.2 = { p with
        expectStunResponse := true
        expectedStunServer := stunServer
        stunTx := stunTransaction rand₁ rand₂ }) := by
  have htx : (stunTransaction rand₁ rand₂).length = 12 := by
    simp [stunTransaction, leBytes]
  have hfit := STUN.write_request_eq_ok_iff htx buf
  rw [createStunRequest]
  dsimp only
  rcases hwrite : STUN.write ⟨StunMsgType.bindingRequest, stunTransaction rand₁ rand₂, none⟩
    (WriteStream.ofBuffer buf) with ⟨_, ws⟩ | ⟨e, ws⟩
  · exact Or.inr ⟨hfit.mp ⟨ws, hwrite⟩, rfl, rfl⟩
  · refine Or.inl ⟨?_, rfl, rfl⟩
    -- a request that fits is written
    by_contra hroom
    obtain ⟨ws', hok⟩ := hfit.mpr (by omega)
    rw [hwrite] at hok
    cases hok

end Calls

/-! ### Runs -/

/-- Calls, with the error code that they return where it matters. -/
inductive Call (S : Type)
  | setLocalEp (ep : ScIPEndpoint) (ec : ErrorCode)
  | setMappedIpAndPort (mapped : IPEndpoint)
  | setRemoteEp (ep : ScIPEndpoint)
  | setTrafficClass (tc : UInt8)
  | createStunRequest (buf : List UInt8) (stunServer : IPAddress) (rand₁ rand₂ : UInt64)
      (ec : ErrorCode)
  | unpack (buf : List UInt8) (ulSource : IPAddress) (hbhExt e2eExt : List (Extension S))
  | unpackStun (buf : List UInt8) (ulSource : IPAddress)

section Runs

variable {S : Type}

namespace Call

/-- The request that the call makes, if it succeeds. -/
def request : Call S → Option StunRequest
  | createStunRequest _ stunServer rand₁ rand₂ ec =>
    if ec = .ok then some ⟨stunTransaction rand₁ rand₂, stunServer⟩ else none
  | _ => none

/-- The call receives a response to the request, from its server. -/
def Answers (req : StunRequest) : Call S → Prop
  | unpack buf ulSource _ _ => req.Answered buf ulSource
  | unpackStun buf ulSource => req.Answered buf ulSource
  | _ => False

/-- The call sets the mapped address. -/
def SetsMapped : Call S → Prop
  | setLocalEp _ ec => ec = .ok
  | setMappedIpAndPort _ => True
  | _ => False

end Call

/-- The latest successful request and the calls since, latest first. -/
def latest : List (Call S) → Option (StunRequest × List (Call S))
  | [] => none
  | c :: past =>
    match c.request with
    | some req => some (req, [])
    | none => (latest past).map fun found => (found.1, c :: found.2)

theorem latest_of_request {past : List (Call S)} {c : Call S} {req : StunRequest}
    (h : c.request = some req) : latest (c :: past) = some (req, []) := by
  rw [latest, h]

theorem latest_eq_some_of_none {past : List (Call S)} {c : Call S} {req : StunRequest}
    {since : List (Call S)} (h : c.request = none) :
    latest (c :: past) = some (req, since) ↔
      ∃ since', since = c :: since' ∧ latest past = some (req, since') := by
  rw [latest, h]
  simp only [Option.map_eq_some_iff, Prod.exists, Prod.mk.injEq]
  constructor
  · rintro ⟨req', since', hpast, rfl, rfl⟩
    exact ⟨since', rfl, hpast⟩
  · rintro ⟨since', rfl, hpast⟩
    exact ⟨req, since', hpast, rfl, rfl⟩

/-- The call sets the mapped address, or is the first to receive a response to the latest
request. -/
def MayMove (past : List (Call S)) (c : Call S) : Prop :=
  c.SetsMapped ∨ ∃ req since, latest past = some (req, since) ∧ c.Answers req ∧
    ∀ c' ∈ since, ¬ c'.Answers req

/-- The state holds the latest request, and expects a response while no call since has
received one. -/
structure Tracks (past : List (Call S)) (p : ScionPackager) : Prop where
  request : ∀ req since, latest past = some (req, since) → p.request = req
  expects : p.expectStunResponse = true ↔
    ∃ req since, latest past = some (req, since) ∧ ∀ c ∈ since, ¬ c.Answers req

theorem tracks_init : Tracks ([] : List (Call S)) init where
  request req since h := by cases h
  expects := by
    constructor
    · intro h
      cases h
    · rintro ⟨req, since, h, -⟩
      cases h

variable [ExtensionClass S]

def step (p : ScionPackager) : Call S → Option ScionPackager
  | .setLocalEp ep ec => if (p.setLocalEp ep).1 = ec then some (p.setLocalEp ep).2 else none
  | .setMappedIpAndPort mapped => some (p.setMappedIpAndPort mapped)
  | .setRemoteEp ep => some (p.setRemoteEp ep).2
  | .setTrafficClass tc => some (p.setTrafficClass tc)
  | .createStunRequest buf stunServer rand₁ rand₂ ec =>
    if (p.createStunRequest buf stunServer rand₁ rand₂).1 = ec then
      some (p.createStunRequest buf stunServer rand₁ rand₂).2.2
    else none
  | .unpack buf ulSource hbhExt e2eExt => some (p.unpack buf ulSource hbhExt e2eExt).2
  | .unpackStun buf ulSource => some (p.unpackStun buf ulSource).2

/-- A call makes a request, takes the response to the one it made before, or leaves the
expectation as it is. -/
theorem step_cases {p p' : ScionPackager} {c : Call S} (h : p.step c = some p') :
    (∃ req, c.request = some req ∧ p'.expectStunResponse = true ∧ p'.request = req ∧
      p'.mapped = p.mapped) ∨
    (c.request = none ∧ p'.request = p.request ∧
      ((p.expectStunResponse = true ∧ c.Answers p.request ∧ p'.expectStunResponse = false) ∨
        (¬(p.expectStunResponse = true ∧ c.Answers p.request) ∧
          p'.expectStunResponse = p.expectStunResponse ∧
          (p'.mapped = p.mapped ∨ c.SetsMapped)))) := by
  have hreceive : ∀ buf ulSource, p' = p.receiveStun buf ulSource →
      p'.request = p.request ∧
        ((p.expectStunResponse = true ∧ p.request.Answered buf ulSource ∧
            p'.expectStunResponse = false) ∨
          (¬(p.expectStunResponse = true ∧ p.request.Answered buf ulSource) ∧
            p'.expectStunResponse = p.expectStunResponse ∧ p'.mapped = p.mapped)) := by
    rintro buf ulSource rfl
    rcases p.receiveStun_cases buf ulSource with
      ⟨hexpect, hanswered, mapped, heq⟩ | ⟨hnot, heq⟩
    · rw [heq]
      exact ⟨rfl, Or.inl ⟨hexpect, hanswered, rfl⟩⟩
    · rw [heq]
      exact ⟨rfl, Or.inr ⟨hnot, rfl, rfl⟩⟩
  cases c with
  | setLocalEp ep ec =>
    simp only [step, Option.ite_none_right_eq_some] at h
    obtain ⟨hec, heq⟩ := h
    cases heq
    rcases p.setLocalEp_cases ep with ⟨-, hstate⟩ | ⟨hcode, hstate⟩
    · rw [hstate]
      exact Or.inr ⟨rfl, rfl, Or.inr ⟨fun h => h.2, rfl, Or.inl rfl⟩⟩
    · rw [hstate]
      exact Or.inr ⟨rfl, rfl, Or.inr ⟨fun h => h.2, rfl, Or.inr (hec.symm.trans hcode)⟩⟩
  | setMappedIpAndPort mapped =>
    cases h
    exact Or.inr ⟨rfl, rfl, Or.inr ⟨fun h => h.2, rfl, Or.inr trivial⟩⟩
  | setRemoteEp ep =>
    cases h
    exact Or.inr ⟨rfl, rfl, Or.inr ⟨fun h => h.2, rfl, Or.inl rfl⟩⟩
  | setTrafficClass tc =>
    cases h
    exact Or.inr ⟨rfl, rfl, Or.inr ⟨fun h => h.2, rfl, Or.inl rfl⟩⟩
  | createStunRequest buf stunServer rand₁ rand₂ ec =>
    simp only [step, Option.ite_none_right_eq_some] at h
    obtain ⟨hec, heq⟩ := h
    cases heq
    rcases p.createStunRequest_cases buf stunServer rand₁ rand₂ with
      ⟨-, hcode, hstate⟩ | ⟨-, hcode, hstate⟩
    · have hnone : (Call.createStunRequest buf stunServer rand₁ rand₂ ec : Call S).request = none := by
        rw [Call.request, if_neg (by rw [← hec, hcode]; decide)]
      rw [hstate]
      exact Or.inr ⟨hnone, rfl, Or.inr ⟨fun h => h.2, rfl, Or.inl rfl⟩⟩
    · rw [hstate]
      refine Or.inl ⟨⟨stunTransaction rand₁ rand₂, stunServer⟩, ?_, rfl, rfl, rfl⟩
      rw [Call.request, if_pos (hec.symm.trans hcode)]
  | unpack buf ulSource hbhExt e2eExt =>
    simp only [step, Option.some.injEq, unpack_snd] at h
    obtain ⟨hrequest, htaken | ⟨hnot, hsame, hmapped⟩⟩ := hreceive buf ulSource h.symm
    · exact Or.inr ⟨rfl, hrequest, Or.inl htaken⟩
    · exact Or.inr ⟨rfl, hrequest, Or.inr ⟨hnot, hsame, Or.inl hmapped⟩⟩
  | unpackStun buf ulSource =>
    simp only [step, Option.some.injEq] at h
    obtain ⟨hrequest, htaken | ⟨hnot, hsame, hmapped⟩⟩ := hreceive buf ulSource h.symm
    · exact Or.inr ⟨rfl, hrequest, Or.inl htaken⟩
    · exact Or.inr ⟨rfl, hrequest, Or.inr ⟨hnot, hsame, Or.inl hmapped⟩⟩

/-- Every call keeps track of the latest request. -/
theorem tracks_step {past : List (Call S)} {p p' : ScionPackager} {c : Call S}
    (ht : Tracks past p) (h : p.step c = some p') : Tracks (c :: past) p' := by
  rcases step_cases h with ⟨req, hreq, hexpect, hrequest, -⟩ | ⟨hnone, hrequest, hexpects⟩
  -- a new request: nothing has been received since
  · have hlatest : latest (c :: past) = some (req, []) := latest_of_request hreq
    refine ⟨fun req' since' h' => ?_,
      ⟨fun _ => ⟨req, [], hlatest, fun _ hc => absurd hc List.not_mem_nil⟩, fun _ => hexpect⟩⟩
    rw [hlatest] at h'
    cases h'
    exact hrequest
  · refine ⟨fun req since h' => ?_, ?_⟩
    · obtain ⟨since', -, hpast⟩ := (latest_eq_some_of_none hnone).mp h'
      rw [hrequest, ht.request req since' hpast]
    rcases hexpects with ⟨hexpect, hanswers, hexpect'⟩ | ⟨hnot, hsame, -⟩
    · -- the response was the first: no other is expected
      rw [hexpect']
      constructor
      · intro h'
        cases h'
      · rintro ⟨req, since, h', hsince⟩
        obtain ⟨since', rfl, hpast⟩ := (latest_eq_some_of_none hnone).mp h'
        rw [ht.request req since' hpast] at hanswers
        exact absurd hanswers (hsince c List.mem_cons_self)
    · rw [hsame, ht.expects]
      constructor
      -- what is not taken while a response is expected is none
      · rintro ⟨req, since, hpast, hsince⟩
        refine ⟨req, c :: since, (latest_eq_some_of_none hnone).mpr ⟨since, rfl, hpast⟩, ?_⟩
        intro c' hc'
        rcases List.mem_cons.mp hc' with rfl | hmem
        · intro hanswers
          rw [← ht.request req since hpast] at hanswers
          exact hnot ⟨ht.expects.mpr ⟨req, since, hpast, hsince⟩, hanswers⟩
        · exact hsince c' hmem
      · rintro ⟨req, since, h', hsince⟩
        obtain ⟨since', rfl, hpast⟩ := (latest_eq_some_of_none hnone).mp h'
        exact ⟨req, since', hpast, fun c' hc' => hsince c' (List.mem_cons_of_mem c hc')⟩

theorem tracks_of_run {past : List (Call S)} {p : ScionPackager}
    (hrun : Run init step past p) : Tracks past p :=
  hrun.invariant (I := Tracks) tracks_init fun _ _ _ _ => tracks_step

/-- In every run a call that changes the mapped address sets it, or is the first to receive
a response to the latest request; and a call for a request that does not fit in the buffer
changes nothing. -/
theorem mapped_moves (h : List (Call S)) :
    Always init step (fun past p c => ∀ p', p.step c = some p' →
      (p'.mapped ≠ p.mapped → MayMove past c) ∧
      ∀ buf stunServer rand₁ rand₂,
        c = .createStunRequest buf stunServer rand₁ rand₂ .bufferTooSmall → p' = p) h := by
  intro past p c hrun _ p' hstep
  have ht := tracks_of_run hrun
  constructor
  · intro hmoved
    rcases step_cases hstep with ⟨req, -, -, -, hmapped⟩ | ⟨-, -, hexpects⟩
    · exact absurd hmapped hmoved
    rcases hexpects with ⟨hexpect, hanswers, -⟩ | ⟨-, -, hmapped | hsets⟩
    · obtain ⟨req, since, hpast, hsince⟩ := ht.expects.mp hexpect
      rw [ht.request req since hpast] at hanswers
      exact Or.inr ⟨req, since, hpast, hanswers, hsince⟩
    · exact absurd hmapped hmoved
    · exact Or.inl hsets
  · rintro buf stunServer rand₁ rand₂ rfl
    simp only [step, Option.ite_none_right_eq_some] at hstep
    obtain ⟨hcode, hstate⟩ := hstep
    cases hstate
    rcases p.createStunRequest_cases buf stunServer rand₁ rand₂ with ⟨-, -, hsame⟩ | ⟨-, hok, -⟩
    · exact hsame
    · rw [hok] at hcode
      cases hcode

/-- The response that does move it. -/
example : ((init.createStunRequest (List.replicate 20 0) (.v4 1) 0 0).2.2.unpackStun
    [1, 1, 0, 12, 0x21, 0x12, 0xa4, 0x42, 0, 0, 0, 0, 0, 0, 0, 0, 0, 0, 0, 0, 0, 0x20, 0, 8, 0, 1,
      0x21, 0x42, 0x2b, 0x12, 0xa4, 0x43] (.v4 1)).2.mapped.localEp = ⟨.v4 0x0a000001, 80⟩ := by
  rfl

end Runs

end ScionPackager

end Scion
