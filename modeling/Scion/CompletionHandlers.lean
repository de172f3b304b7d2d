/-
Completion handlers of the asynchronous operations (`asio/scmp_socket.hpp`,
`asio/udp_socket.hpp`).

* `AsyncCall.stepwise` — every intermediate handler but that of a binding request
  does one thing per outcome;
* `AsyncCall.completes_iff` — the completion handler is invoked properly unless
  the send of a binding request fails.
-/
import Scion.AsioSockets

namespace Scion

open Completion

section Handlers

variable {S : Type}

/-! ### Intermediate handlers -/

/-- The handler starts over or completes, and completes with a failure. -/
structure Steps {d : Direction} (onError : ℕ → AsioResult)
    (handle : AsioState S → Outcome d → List (Effect AsioResult) × AsioState S) : Prop where
  one : ∀ s x, (handle s x).1 = [.start] ∨ ∃ r, (handle s x).1 = [.complete r]
  failed : ∀ s ec, (handle s (.error ec)).1 = [.complete (onError ec)]

theorem steps_sendHandler (headers payload : List UInt8) :
    Steps (S := S) (fun ec => .sent (.error (.system ec))) (sendHandler headers payload) where
  one := fun _ _ => .inr ⟨_, rfl⟩
  failed := fun _ _ => rfl

theorem steps_recvStunHandler :
    Steps (S := S) (fun ec => .code (.system ec)) recvStunHandler where
  one := by
    rintro s (ec | ⟨data, ulSource⟩)
    · exact .inr ⟨_, rfl⟩
    · simp only [recvStunHandler]
      split_ifs
      · exact .inr ⟨_, rfl⟩
      · exact .inl rfl
  failed := fun _ _ => rfl

variable [ExtensionClass S]

theorem steps_recvHandler (flags : RecvFlags) (scmpHandler : Bool) :
    Steps (S := S) (fun ec => .received (.error (.system ec))) (recvHandler flags scmpHandler) where
  one := by
    rintro s (ec | ⟨data, ulSource⟩)
    · exact .inr ⟨_, rfl⟩
    · simp only [recvHandler]
      generalize (s.receive data).1.unpack (s.receive data).2 ulSource.host = unpacked
      obtain ⟨ec | payload, call, s'⟩ := unpacked
      · simp only
        split_ifs
        · exact .inr ⟨_, rfl⟩
        · exact .inl rfl
        · exact .inl rfl
      · exact .inr ⟨_, rfl⟩
  failed := fun _ _ => rfl

theorem steps_recvScmpHandler (flags : RecvFlags) :
    Steps (S := S) (fun ec => .received (.error (.system ec))) (recvScmpHandler flags) where
  one := by
    rintro s (ec | ⟨data, ulSource⟩)
    · exact .inr ⟨_, rfl⟩
    · simp only [recvScmpHandler]
      generalize (s.receive data).1.unpack (s.receive data).2 ulSource.host = unpacked
      obtain ⟨ec | payload, call, s'⟩ := unpacked
      · simp only
        split_ifs
        · exact .inr ⟨_, rfl⟩
        · exact .inl rfl
      · exact .inl rfl
  failed := fun _ _ => rfl

end Handlers

/-! ### Operations -/

namespace AsyncCall

variable {S : Type}

/-- The call requests a mapping, and the underlay fails to send the request. -/
def RequestFails : {d : Direction} → AsyncCall S d → List (Outcome d) → Prop
  | _, requestStunMapping .., .error _ :: _ => True
  | _, _, _ => False

/-- An operation with such a handler, if the initiation starts an underlay
operation or posts the completion handler. -/
theorem stepwise_of_steps {d : Direction} {call : AsyncCall S d}
    {handle : AsioState S → Outcome d → List (Effect AsioResult) × AsioState S}
    (h : Steps call.onError handle) (s : AsioState S) {initiate : List (Effect AsioResult)}
    (hinitiate : initiate = [.start] ∨ ∃ r, initiate = [.complete r]) :
    Stepwise ⟨s, initiate, handle⟩ call.failure where
  initiate := hinitiate
  handle := h.one
  failed := by
    rintro s (ec | value) r hr
    · rw [← Option.some.inj hr]
      exact h.failed s ec
    · cases hr

theorem initiateSend_stepwise {call : AsyncCall S .send}
    (h : call.onError = fun ec => .sent (.error (.system ec))) (s : AsioState S)
    (packed : Maybe (HeaderCache × L4Header)) (payload : List UInt8) :
    Stepwise (initiateSend s packed payload) call.failure := by
  cases packed with
  | error ec =>
    exact stepwise_of_steps (h ▸ steps_sendHandler [] payload) s (.inr ⟨_, rfl⟩)
  | ok packed =>
    exact stepwise_of_steps (h ▸ steps_sendHandler packed.1.buffer payload) s (.inl rfl)

variable [ExtensionClass S]
variable (hash : ScIPAddress → UInt64) (murmur32 : List UInt8 → UInt32 → UInt32)

/-- A binding request fits in its buffer. -/
theorem operation_requestStunMapping (s : AsioState S) (router : IPEndpoint)
    (rand₁ rand₂ : UInt64) :
    ∃ s', (requestStunMapping router rand₁ rand₂ : AsyncCall S .send).operation hash murmur32 s
      = ⟨s', [.start], requestStunMappingHandler⟩ := by
  have htx : (ScionPackager.stunTransaction rand₁ rand₂).length = 12 := by
    simp [ScionPackager.stunTransaction, BigEndian.leBytes]
  obtain ⟨ws, hws⟩ := (STUN.write_request_eq_ok_iff htx (List.replicate 20 0)).mpr le_rfl
  simp only [operation, ScionPackager.createStunRequest, hws]
  exact ⟨_, rfl⟩

/-- The completion handler is invoked with the error, and then with success. -/
theorem not_completes_requestStunMapping (s : AsioState S) (router : IPEndpoint)
    (rand₁ rand₂ : UInt64) (ec : ℕ) (rest : List (Outcome .send)) :
    ¬ Completes ((requestStunMapping router rand₁ rand₂ : AsyncCall S .send).operation hash murmur32 s)
        (requestStunMapping router rand₁ rand₂ : AsyncCall S .send).failure (.error ec :: rest) := by
  obtain ⟨s', hop⟩ := operation_requestStunMapping hash murmur32 s router rand₁ rand₂
  intro h
  have hfinal := h.final
  rw [hop, Operation.run_cons_of_over rfl rfl] at hfinal
  cases hfinal [.start] (AsioResult.code (.system ec)) [.complete (.code (.scion .ok))] rfl

/-- The completion handler is invoked once at most, last, and with the failure of
an underlay operation, unless the send of a binding request fails. -/
theorem completes_iff (s : AsioState S) {d : Direction} (call : AsyncCall S d)
    (xs : List (Outcome d)) :
    Completes (call.operation hash murmur32 s) call.failure xs ↔ ¬ call.RequestFails xs := by
  cases call with
  | send headers dst path extensions payload =>
    exact iff_of_true (completes_of_stepwise (initiateSend_stepwise rfl s _ payload) xs) id
  | sendCached headers dst payload =>
    exact iff_of_true (completes_of_stepwise (initiateSend_stepwise rfl s _ payload) xs) id
  | sendScmp headers dst path extensions message payload =>
    exact iff_of_true (completes_of_stepwise (initiateSend_stepwise rfl s _ payload) xs) id
  | recv flags scmpHandler =>
    have hsteps : Steps (S := S) (recv flags scmpHandler : AsyncCall S .receive).onError
      (recvHandler flags scmpHandler) := steps_recvHandler flags scmpHandler
    exact iff_of_true (completes_of_stepwise (stepwise_of_steps hsteps s (.inl rfl)) xs) id
  | recvScmp flags =>
    have hsteps : Steps (S := S) (recvScmp flags : AsyncCall S .receive).onError (recvScmpHandler flags) :=
      steps_recvScmpHandler flags
    exact iff_of_true (completes_of_stepwise (stepwise_of_steps hsteps s (.inl rfl)) xs) id
  | recvStunResponse =>
    have hsteps : Steps (S := S) (recvStunResponse : AsyncCall S .receive).onError recvStunHandler :=
      steps_recvStunHandler
    exact iff_of_true (completes_of_stepwise (stepwise_of_steps hsteps _ (.inl rfl)) xs) id
  | requestStunMapping router rand₁ rand₂ =>
    rcases xs with _ | ⟨ec | sent, rest⟩
    · -- nothing is known about the send yet
      obtain ⟨s', hop⟩ := operation_requestStunMapping hash murmur32 s router rand₁ rand₂
      rw [hop]
      refine iff_of_true ⟨(Orderly.waiting s' 1).final, ?_⟩ id
      intro past x rest r hsplit
      exact absurd hsplit.symm (List.append_ne_nil_of_right_ne_nil _ (List.cons_ne_nil _ _))
    · exact iff_of_false (not_completes_requestStunMapping hash murmur32 s router rand₁ rand₂ ec rest)
        fun h => h trivial
    · obtain ⟨s', hop⟩ := operation_requestStunMapping hash murmur32 s router rand₁ rand₂
      rw [hop]
      refine iff_of_true ⟨?_, ?_⟩ id
      · rw [Operation.run_cons_of_over rfl rfl]
        exact (Orderly.finished s' 1 (AsioResult.code (.scion .ok))).final
      · intro past x rest' r hsplit hpending hfailure
        rcases past with _ | ⟨y, past⟩
        · obtain ⟨rfl, -⟩ := List.cons.inj hsplit
          cases hfailure
        · obtain ⟨rfl, -⟩ := List.cons.inj hsplit
          rw [Operation.run_cons_of_over rfl rfl] at hpending
          exact absurd rfl hpending

end AsyncCall

/-- A socket bound to a port of an IPv4 address, with no request sent. -/
def boundState : AsioState PlainOption where
  packager := { ScionPackager.init with
    localEp := ⟨IsdAsn.make 1 1, ⟨.v4 0x0a000001, 31000⟩⟩
    mapped := ⟨IsdAsn.make 1 1, ⟨.v4 0x0a000001, 31000⟩⟩ }
  buf := List.replicate 128 0
  hbhExt := []
  e2eExt := []
  sender := none
  path := none
  message := .echoRequest 0 0
  calls := []

/-- The underlay fails to send a binding request. -/
theorem AsyncCall.not_forall_completes :
    ¬ ∀ (hash : ScIPAddress → UInt64) (murmur32 : List UInt8 → UInt32 → UInt32)
        (s : AsioState PlainOption) (d : Direction) (call : AsyncCall PlainOption d)
        (xs : List (Outcome d)), Completes (call.operation hash murmur32 s) call.failure xs := by
  intro h
  exact not_completes_requestStunMapping (fun _ => 0) (fun _ _ => 0) boundState
    ⟨.v4 0x0a000002, 3478⟩ 1 2 101 [] (h _ _ _ _ _ _)

end Scion
