/-
The states of flows (`scitra-tun/flow.hpp`, `scitra-tun/scitra_tun.cpp`).

A timer closes flows that have been torn down or that have timed out. A lead flow waits for
its subflows before it is closed, and only packets open a closed flow again.

* `Flow.tick_cases` — all that the timer does to a flow;
* `FlowStates.step` — the sections of timers, packets and subflows of any number of flows;
* `inOrder_of_run` — how states end in every run;
* `run_maintainFlows` — the loop over the flow table is made of such sections.
-/
import Scion.FlowTables

namespace Scion

open Runs

/-! ### The timer -/

namespace Flow

/-- The flow has not been used for too long. -/
def Idle (now : ℤ) (f : Flow) : Prop := now - f.lastUsed > flowTimeout

/-- A flow that is torn down is closed, if need be after its subflows, and so is one that has
waited for them. Flows that are idle time out before. -/
theorem tick_cases (now : ℤ) (f : Flow) :
    f.tick now = f ∨
    (f.tick now = { f with state := .closedWait } ∧ f.state.teardown = true ∧
      f.multipath = true ∧ f.subflows ≠ []) ∨
    (f.tick now = { f with state := .closed } ∧ (f.state.teardown = true ∧ f.multipath = false ∨
      f.subflows = [] ∧ (f.state.teardown = true ∨ f.state = .closedWait))) ∨
    f.tick now = { f with state := .timeout } ∧ f.state.teardown = false ∧ f.state ≠ .closed ∧
      f.Idle now := by
  rw [tick]
  by_cases hdown : f.state.teardown = true
  · rw [if_pos hdown]
    cases hmulti : f.multipath with
    | false =>
      rw [if_neg Bool.false_ne_true, if_neg (fun h => by cases h.1)]
      exact .inr (.inr (.inl ⟨rfl, .inl ⟨hdown, rfl⟩⟩))
    | true =>
      rw [if_pos rfl]
      by_cases hempty : f.subflows = []
      · rw [if_pos ⟨rfl, hempty⟩]
        exact .inr (.inr (.inl ⟨rfl, .inr ⟨hempty, .inl hdown⟩⟩))
      · rw [if_neg fun h => hempty h.2]
        exact .inr (.inl ⟨rfl, hdown, rfl, hempty⟩)
  · rw [if_neg hdown]
    by_cases hidle : f.state ≠ .closed ∧ f.state ≠ .established ∧ now - f.lastUsed > flowTimeout
    · rw [if_pos hidle, if_neg (fun h => by cases h.1)]
      exact .inr (.inr (.inr ⟨rfl, Bool.not_eq_true _ ▸ hdown, hidle.1, hidle.2.2⟩))
    · rw [if_neg hidle]
      by_cases hwait : f.state = .closedWait ∧ f.subflows = []
      · rw [if_pos hwait]
        exact .inr (.inr (.inl ⟨rfl, .inr ⟨hwait.2, .inr hwait.1⟩⟩))
      · rw [if_neg hwait]
        exact .inl rfl

end Flow

/-! ### The system -/

namespace FlowStates

inductive Event
  /-- `Flow::Create`. -/
  | create (boundTo : IPEndpoint) (type : FlowType)
  | getSubflowByAddr (f : FlowPtr) (localEp : IPEndpoint)
  | getSubflowByPath (f : FlowPtr) (rp : RawPathContents)
  | removeSubflow (f sf : FlowPtr)
  /-- A section under the lock of a flow. -/
  | update (f : FlowPtr) (u : FlowUpdate)

/-- `close`, which other parts of the translator call. -/
def isClose : FlowUpdate → Bool
  | .close => true
  | _ => false

def start : Flows := ⟨fun _ => Flow.create ⟨.v4 0, 0⟩ .active, 0⟩

section Hash

variable (murmur : List UInt8 → UInt32 → UInt64 × UInt64) (randomSeed : UInt32)
  (addrPool : List IPAddress)

/-- One section on flows that exist; none of them calls `close`. -/
def step (m : Flows) : Event → Option Flows
  | .create boundTo type => some (m.make (Flow.create boundTo type)).2
  | .getSubflowByAddr f localEp =>
    if f < m.next then some (m.getSubflowByAddr f localEp).2 else none
  | .getSubflowByPath f rp =>
    if f < m.next then (m.getSubflowByPath murmur randomSeed f rp addrPool).map Prod.snd else none
  | .removeSubflow f sf =>
    if f < m.next then
      some (m.update f fun flow => { flow with subflows := flow.subflows.erase sf })
    else none
  | .update f u =>
    if f < m.next ∧ isClose u = false then some (m.update f (u.apply murmur randomSeed)) else none

end Hash

/-- A packet of the flow `f`. -/
def Event.isPacketOf (f : FlowPtr) : Event → Bool
  | .update g (.updateStateEgress _ _ _) => g == f
  | .update g (.updateStateIngress _ _) => g == f
  | _ => false

/-- The timeout rule takes the flow `f` from `before` to `after`. -/
def TimesOut (e : Event) (f : FlowPtr) (before after : Flow) : Prop :=
  ∃ now, e = .update f (.tick now) ∧ before.Idle now ∧ after.state = .timeout

/-- The timer closes the flow `f`, which has no subflows. -/
def Finishes (e : Event) (f : FlowPtr) (before after : Flow) : Prop :=
  ∃ now, e = .update f (.tick now) ∧ before.subflows = [] ∧ after.state = .closed

/-- What an event may do to the state of the flow `f`. -/
structure InOrder (e : Event) (f : FlowPtr) (before after : Flow) : Prop where
  closes : before.state ≠ .closed → after.state = .closed → after.subflows = []
  closed : before.state = .closed → after.state ≠ .closed → e.isPacketOf f = true
  closedWait : before.state = .closedWait → after.state ≠ .closedWait →
    e.isPacketOf f = true ∨ TimesOut e f before after ∨ Finishes e f before after

variable {murmur : List UInt8 → UInt32 → UInt64 × UInt64} {randomSeed : UInt32}
  {addrPool : List IPAddress} {m m' : Flows} {e : Event} {f : FlowPtr}

/-! ### Flows without the flag -/

/-- Only multipath flows have subflows. -/
def Alone (m : Flows) : Prop := ∀ f, (m.get f).multipath = false → (m.get f).subflows = []

theorem alone_start : Alone start := fun _ _ => rfl

theorem multipath_apply (u : FlowUpdate) {flow : Flow} (h : flow.multipath = true) :
    (u.apply murmur randomSeed flow).multipath = true := by
  cases u with
  | tick now =>
    rcases flow.tick_cases now with heq | ⟨heq, -⟩ | ⟨heq, -⟩ | ⟨heq, -⟩ <;>
      rw [FlowUpdate.apply, heq] <;> exact h
  | updatePassivePath rp nh =>
    rw [FlowUpdate.apply, Flow.updatePassivePath]
    split_ifs <;> exact h
  | updateStateEgress tcp qos t => exact (flow.touched_updateStateEgress tcp qos t).2.2.2 h
  | updateStateIngress tcp t => exact (flow.touched_updateStateIngress tcp t).2.2.2 h
  | _ => exact h

theorem alone_update {g : Flow → Flow} (h : Alone m)
    (hg : (m.get f).multipath = true ∨ (g (m.get f)).subflows = [] ∨
      (g (m.get f)).subflows = (m.get f).subflows)
    (hmulti : (m.get f).multipath = true → (g (m.get f)).multipath = true) :
    Alone (m.update f g) := by
  intro f' hf'
  by_cases heq : f' = f
  · rw [heq, Flows.get_update_same] at hf' ⊢
    have hsingle : (m.get f).multipath = false := by
      by_contra hnot
      rw [hmulti (Bool.not_eq_false _ |>.mp hnot)] at hf'
      cases hf'
    rcases hg with htrue | hempty | hsame
    · rw [hsingle] at htrue
      cases htrue
    · exact hempty
    · rw [hsame]
      exact h f hsingle
  · rw [Flows.get_update_of_ne heq] at hf' ⊢
    exact h f' hf'

theorem alone_make {flow : Flow} (h : Alone m) (hflow : flow.subflows = []) :
    Alone (m.make flow).2 := by
  intro f' hf'
  by_cases heq : f' = m.next
  · rw [heq, Flows.get_make_next]
    exact hflow
  · rw [Flows.get_make_of_ne heq] at hf' ⊢
    exact h f' hf'

/-- A subflow is only pushed to a multipath flow. -/
theorem alone_pushSubflow (h : Alone m) (hf : f < m.next) (hmulti : (m.get f).multipath = true)
    (ep : IPEndpoint) (type : FlowType) : Alone (m.pushSubflow f ep type).2 := by
  have hkept : ((m.make (Flow.createSubflow ep type (m.get f).mptcpToken)).2.get f).multipath
      = true := by
    rw [Flows.get_make_of_lt hf]
    exact hmulti
  have hmake : Alone (m.make (Flow.createSubflow ep type (m.get f).mptcpToken)).2 :=
    alone_make h rfl
  exact @alone_update _ f (fun flow => { flow with subflows := flow.subflows ++ [m.next] }) hmake
    (.inl hkept) id

theorem multipath_of_findSubflowByAddr {ep : IPEndpoint} (h : m.findSubflowByAddr f ep = none) :
    (m.get f).multipath = true := by
  rw [Flows.findSubflowByAddr] at h
  split_ifs at h with hmulti
  exact Bool.not_eq_false _ |>.mp fun hfalse => hmulti (by rw [hfalse]; rfl)

theorem multipath_of_findSubflowByPath {rp : RawPathContents}
    (h : m.findSubflowByPath murmur randomSeed f rp = some none) :
    (m.get f).multipath = true := by
  rw [Flows.findSubflowByPath] at h
  split_ifs at h with hmulti
  · cases h
  · exact Bool.not_eq_false _ |>.mp fun hfalse => hmulti (by rw [hfalse]; rfl)

theorem alone_step (h : Alone m) (hstep : step murmur randomSeed addrPool m e = some m') :
    Alone m' := by
  cases e with
  | create boundTo type =>
    rw [← Option.some.inj hstep]
    exact alone_make h rfl
  | getSubflowByAddr f localEp =>
    rw [step] at hstep
    split_ifs at hstep with hf
    rw [← Option.some.inj hstep]
    rcases m.getSubflowByAddr_cases f localEp with ⟨sf, -, hget⟩ | ⟨hnone, hget⟩
    · rw [hget]
      exact h
    · rw [hget]
      exact alone_pushSubflow h hf (multipath_of_findSubflowByAddr hnone) localEp .active
  | getSubflowByPath f rp =>
    rw [step] at hstep
    split_ifs at hstep with hf
    obtain ⟨⟨sf, m₁⟩, hget, rfl⟩ := Option.map_eq_some_iff.mp hstep
    rcases Flows.getSubflowByPath_cases hget with ⟨g, -, -, rfl⟩ | ⟨addr, hnone, -, -, rfl⟩ |
      ⟨-, -, -, rfl⟩
    · exact h
    · exact alone_pushSubflow h hf (multipath_of_findSubflowByPath hnone) _ .passive
    · exact h
  | removeSubflow f sf =>
    rw [step] at hstep
    split_ifs at hstep with hf
    rw [← Option.some.inj hstep]
    cases hmulti : (m.get f).multipath with
    | true => exact alone_update h (.inl hmulti) id
    | false =>
      refine alone_update h (.inr (.inl ?_)) id
      rw [h f hmulti]
      rfl
  | update f u =>
    rw [step] at hstep
    split_ifs at hstep with hf
    rw [← Option.some.inj hstep]
    exact alone_update h (.inr (.inr (u.bound_apply (m.get f)).2.2)) (multipath_apply u)

/-! ### States -/

theorem InOrder.of_state_eq {before after : Flow} (h : after.state = before.state) :
    InOrder e f before after where
  closes := fun hopen hclosed => absurd (h.symm.trans hclosed) hopen
  closed := fun hclosed hopen => absurd (h.trans hclosed) hopen
  closedWait := fun hwait hleft => absurd (h.trans hwait) hleft

/-- The timer keeps a flow without subflows from waiting and one with subflows from being
closed. -/
theorem inOrder_tick {flow : Flow} (halone : flow.multipath = false → flow.subflows = [])
    (now : ℤ) : InOrder (.update f (.tick now)) f flow (flow.tick now) := by
  rcases flow.tick_cases now with heq | ⟨heq, hdown, -⟩ | ⟨heq, hwhy⟩ | ⟨heq, -, hopen, hidle⟩
  · exact .of_state_eq (by rw [heq])
  · rw [heq]
    have hne : flow.state ≠ .closed := by
      rintro hclosed
      rw [hclosed] at hdown
      cases hdown
    exact ⟨fun _ h => (by cases h), fun h => absurd h hne, fun _ h => absurd rfl h⟩
  · rw [heq]
    have hempty : flow.subflows = [] := hwhy.elim (fun h => halone h.2) fun h => h.1
    exact ⟨fun _ _ => hempty, fun _ h => absurd rfl h,
      fun _ _ => .inr (.inr ⟨now, rfl, hempty, rfl⟩)⟩
  · rw [heq]
    exact ⟨fun _ h => (by cases h), fun h => absurd h hopen,
      fun _ _ => .inr (.inl ⟨now, rfl, hidle, rfl⟩)⟩

theorem state_ne_closed_egress (tcp : Option TCP) (qos : UInt8) (t : ℤ) {flow : Flow}
    (h : flow.state ≠ .closed) : (flow.updateStateEgress tcp qos t).state ≠ .closed := by
  cases tcp with
  | none => exact fun hclosed => by cases hclosed
  | some tcp =>
    rw [Flow.updateStateEgress]
    dsimp only
    rw [Flow.egressTcp]
    split_ifs <;> first | exact h | (intro hclosed; cases hclosed)

theorem state_ne_closed_ingress (tcp : Option TCP) (t : ℤ) {flow : Flow}
    (h : flow.state ≠ .closed) : (flow.updateStateIngress tcp t).state ≠ .closed := by
  cases tcp with
  | none => exact fun hclosed => by cases hclosed
  | some tcp =>
    rw [Flow.updateStateIngress]
    dsimp only
    rw [Flow.ingressTcp]
    split_ifs <;> first | exact h | (intro hclosed; cases hclosed)

theorem inOrder_packet {before after : Flow} (hpacket : e.isPacketOf f = true)
    (hne : before.state ≠ .closed → after.state ≠ .closed) : InOrder e f before after where
  closes := fun hopen hclosed => absurd hclosed (hne hopen)
  closed := fun _ _ => hpacket
  closedWait := fun _ _ => .inl hpacket

theorem inOrder_apply {u : FlowUpdate} {flow : Flow}
    (halone : flow.multipath = false → flow.subflows = []) (hclose : isClose u = false) :
    InOrder (.update f u) f flow (u.apply murmur randomSeed flow) := by
  have hself : (f == f) = true := beq_self_eq_true f
  cases u with
  | setMptcpToken token => exact .of_state_eq rfl
  | setPath path => exact .of_state_eq rfl
  | updatePassivePath rp nh =>
    refine .of_state_eq ?_
    rw [FlowUpdate.apply, Flow.updatePassivePath]
    split_ifs <;> rfl
  | close => cases hclose
  | tick now => exact inOrder_tick halone now
  | updateStateEgress tcp qos t => exact inOrder_packet hself (state_ne_closed_egress tcp qos t)
  | updateStateIngress tcp t => exact inOrder_packet hself (state_ne_closed_ingress tcp t)

theorem state_pushSubflow (hf : f < m.next) (g : FlowPtr) (ep : IPEndpoint) (type : FlowType) :
    ((m.pushSubflow g ep type).2.get f).state = (m.get f).state := by
  rw [Flows.pushSubflow]
  dsimp only
  by_cases heq : f = g
  · rw [heq, Flows.get_update_same, ← heq, Flows.get_make_of_lt hf]
  · rw [Flows.get_update_of_ne heq, Flows.get_make_of_lt hf]

theorem inOrder_step (halone : Alone m) (hstep : step murmur randomSeed addrPool m e = some m')
    (hf : f < m.next) : InOrder e f (m.get f) (m'.get f) := by
  cases e with
  | create boundTo type =>
    rw [← Option.some.inj hstep, Flows.get_make_of_lt hf]
    exact .of_state_eq rfl
  | getSubflowByAddr g localEp =>
    rw [step] at hstep
    split_ifs at hstep
    rw [← Option.some.inj hstep]
    rcases m.getSubflowByAddr_cases g localEp with ⟨sf, -, hget⟩ | ⟨-, hget⟩
    · rw [hget]
      exact .of_state_eq rfl
    · rw [hget]
      exact .of_state_eq (state_pushSubflow hf g localEp .active)
  | getSubflowByPath g rp =>
    rw [step] at hstep
    split_ifs at hstep
    obtain ⟨⟨sf, m₁⟩, hget, rfl⟩ := Option.map_eq_some_iff.mp hstep
    rcases Flows.getSubflowByPath_cases hget with ⟨_, -, -, rfl⟩ | ⟨addr, -, -, -, rfl⟩ |
      ⟨-, -, -, rfl⟩
    · exact .of_state_eq rfl
    · exact .of_state_eq (state_pushSubflow hf g _ .passive)
    · exact .of_state_eq rfl
  | removeSubflow g sf =>
    rw [step] at hstep
    split_ifs at hstep
    rw [← Option.some.inj hstep]
    refine .of_state_eq ?_
    by_cases heq : f = g
    · rw [heq, Flows.get_update_same]
    · rw [Flows.get_update_of_ne heq]
  | update g u =>
    rw [step] at hstep
    split_ifs at hstep with hu
    rw [← Option.some.inj hstep]
    by_cases heq : f = g
    · rw [heq, Flows.get_update_same]
      exact inOrder_apply (halone g) hu.2
    · rw [Flows.get_update_of_ne heq]
      exact .of_state_eq rfl

/-- In every run only multipath flows have subflows, no flow is closed before its subflows
are gone, and what has been closed stays closed without a packet or a timeout. -/
theorem inOrder_of_run (murmur : List UInt8 → UInt32 → UInt64 × UInt64) (randomSeed : UInt32)
    (addrPool : List IPAddress) {h : List Event} {m : Flows}
    (hrun : Run start (step murmur randomSeed addrPool) h m) :
    (∀ f, (m.get f).multipath = false → (m.get f).subflows = []) ∧
      ∀ e m', step murmur randomSeed addrPool m e = some m' →
        ∀ f < m.next, InOrder e f (m.get f) (m'.get f) := by
  have halone : Alone m := hrun.invariant (I := fun _ m => Alone m) alone_start
    fun _ _ _ _ hm hstep => alone_step hm hstep
  exact ⟨halone, fun e m' hstep f hf => inOrder_step halone hstep hf⟩

/-! ### The loop over the flow table -/

theorem allMade_step (h : m.AllMade) (hstep : step murmur randomSeed addrPool m e = some m') :
    m'.AllMade := by
  cases e with
  | create boundTo type =>
    rw [← Option.some.inj hstep]
    exact h.make rfl
  | getSubflowByAddr f localEp =>
    rw [step] at hstep
    split_ifs at hstep
    rw [← Option.some.inj hstep]
    exact (m.grows_getSubflowByAddr f localEp).2 h
  | getSubflowByPath f rp =>
    rw [step] at hstep
    split_ifs at hstep
    obtain ⟨r, hr, rfl⟩ := Option.map_eq_some_iff.mp hstep
    exact (Flows.grows_getSubflowByPath hr).2 h
  | removeSubflow f sf =>
    rw [step] at hstep
    split_ifs at hstep
    rw [← Option.some.inj hstep]
    exact h.update fun _ hmem => List.mem_of_mem_erase hmem
  | update f u =>
    rw [step] at hstep
    split_ifs at hstep
    rw [← Option.some.inj hstep]
    exact h.update_bound (u.bound_apply (m.get f))

theorem allMade_of_run {h : List Event} (hrun : Run start (step murmur randomSeed addrPool) h m) :
    m.AllMade :=
  hrun.invariant (I := fun _ m => m.AllMade) (fun f hf => absurd hf (Nat.not_lt_zero f))
    fun _ _ _ _ hm hstep => allMade_step hm hstep

/-- A state that some sections lead to, with as many flows as before. -/
def Reaches (murmur : List UInt8 → UInt32 → UInt64 × UInt64) (randomSeed : UInt32)
    (addrPool : List IPAddress) (m m' : Flows) : Prop :=
  m'.next = m.next ∧ ∀ h, Run start (step murmur randomSeed addrPool) h m →
    ∃ h', Run start (step murmur randomSeed addrPool) (h' ++ h) m'

theorem Reaches.refl (m : Flows) : Reaches murmur randomSeed addrPool m m :=
  ⟨rfl, fun _ hrun => ⟨[], hrun⟩⟩

theorem Reaches.trans {m₁ m₂ m₃ : Flows} (h : Reaches murmur randomSeed addrPool m₁ m₂)
    (h' : Reaches murmur randomSeed addrPool m₂ m₃) :
    Reaches murmur randomSeed addrPool m₁ m₃ := by
  refine ⟨h'.1.trans h.1, fun past hrun => ?_⟩
  obtain ⟨first, hfirst⟩ := h.2 past hrun
  obtain ⟨second, hsecond⟩ := h'.2 _ hfirst
  exact ⟨second ++ first, by rwa [List.append_assoc]⟩

theorem reaches_step (hstep : step murmur randomSeed addrPool m e = some m')
    (hnext : m'.next = m.next) : Reaches murmur randomSeed addrPool m m' :=
  ⟨hnext, fun _ hrun => ⟨[e], hrun.next hstep⟩⟩

theorem reaches_tick (hf : f < m.next) (now : ℤ) :
    Reaches murmur randomSeed addrPool m (m.update f (Flow.tick now)) :=
  reaches_step (e := .update f (.tick now)) (if_pos ⟨hf, rfl⟩) rfl

theorem reaches_erase (hf : f < m.next) (sf : FlowPtr) :
    Reaches murmur randomSeed addrPool m
      (m.update f fun flow => { flow with subflows := flow.subflows.erase sf }) :=
  reaches_step (e := .removeSubflow f sf) (if_pos hf) rfl

theorem reaches_maintainSubflows (now : ℤ) :
    ∀ {sfs : List FlowPtr} {t : FlowTables}, f < t.heap.next → (∀ sf ∈ sfs, sf < t.heap.next) →
      Reaches murmur randomSeed addrPool t.heap (FlowTables.maintainSubflows now f sfs t).heap := by
  intro sfs
  induction sfs with
  | nil => exact fun _ _ => Reaches.refl _
  | cons sf sfs ih =>
    intro t hf hsfs
    obtain ⟨hsf, hrest⟩ := List.forall_mem_cons.mp hsfs
    have htick := @reaches_tick murmur randomSeed addrPool t.heap sf hsf now
    rw [FlowTables.maintainSubflows]
    dsimp only
    split_ifs
    · have herase := @reaches_erase murmur randomSeed addrPool (t.heap.update sf (Flow.tick now)) f
        hf sf
      exact (htick.trans herase).trans (ih hf hrest)
    · exact htick.trans (ih hf hrest)

theorem reaches_maintainFlows (now : ℤ) :
    ∀ {order : List (Sigma fun _ : FlowID => FlowPtr)} {t : FlowTables} {h : List Event},
      Run start (step murmur randomSeed addrPool) h t.heap → (∀ x ∈ order, x.2 < t.heap.next) →
      Reaches murmur randomSeed addrPool t.heap (FlowTables.maintainFlows now order t).heap := by
  intro order
  induction order with
  | nil => exact fun _ _ => Reaches.refl _
  | cons x order ih =>
    intro t h hrun horder
    obtain ⟨hx, hrest⟩ := List.forall_mem_cons.mp horder
    have hsubflows : Reaches murmur randomSeed addrPool t.heap
        (t.withSubflowsMaintained now x.2).heap := by
      rw [FlowTables.withSubflowsMaintained]
      split_ifs
      · exact reaches_maintainSubflows now hx fun sf hsf => allMade_of_run hrun x.2 hx sf hsf
      · exact Reaches.refl _
    have hlead : Reaches murmur randomSeed addrPool (t.withSubflowsMaintained now x.2).heap
        ((t.withSubflowsMaintained now x.2).maintainLead now x.1 x.2).heap := by
      rw [FlowTables.maintainLead]
      dsimp only
      split_ifs <;> exact reaches_tick (by rw [hsubflows.1]; exact hx) now
    have hboth := hsubflows.trans hlead
    obtain ⟨h', hrun'⟩ := hboth.2 h hrun
    rw [FlowTables.maintainFlows]
    exact hboth.trans (ih hrun' fun y hy => by rw [hboth.1]; exact hrest y hy)

/-! ### A lead flow that waits -/

def exampleHost (n : UInt32) : IPEndpoint := ⟨.v4 n, 5000⟩

/-- An MPTCP connection that is torn down before its subflow is removed. -/
def exampleEvents : List Event :=
  [.removeSubflow 0 1, .update 0 (.tick 0),
    .update 0 (.updateStateIngress (some { flags := TCP.Flags.fin }) 0),
    .getSubflowByAddr 0 (exampleHost 2),
    .update 0 (.updateStateIngress
      (some { flags := TCP.Flags.syn, optMask := { mpJoin := true } }) 0),
    .create (exampleHost 1) .passive]

theorem exists_run_exampleEvents :
    ∃ m, Run start (step exampleHash 0 []) exampleEvents m ∧ m.next = 2 ∧
      (m.get 0).state = .closedWait ∧ (m.get 0).subflows = [] ∧ (m.get 0).lastUsed = 0 := by
  have hsome : (replay start (step exampleHash 0 []) exampleEvents).isSome = true := by
    decide +kernel
  have hall : ((replay start (step exampleHash 0 []) exampleEvents).all fun m =>
      decide (m.next = 2 ∧ (m.get 0).state = .closedWait ∧ (m.get 0).subflows = [] ∧
        (m.get 0).lastUsed = 0)) = true := by
    decide +kernel
  obtain ⟨m, hm⟩ := Option.isSome_iff_exists.mp hsome
  rw [hm] at hall
  exact ⟨m, run_of_replay hm, of_decide_eq_true hall⟩

theorem inOrder_of_run_exampleEvents : ∃ m : Flows,
    (∀ f, (m.get f).multipath = false → (m.get f).subflows = []) ∧
      ∀ e m', step exampleHash 0 [] m e = some m' →
        ∀ f < m.next, InOrder e f (m.get f) (m'.get f) := by
  obtain ⟨m, hrun, -⟩ := exists_run_exampleEvents
  exact ⟨m, inOrder_of_run exampleHash 0 [] hrun⟩

/-- Flows leave both closed states only through packets and timeouts. -/
def OnlyPacketsAndTimeouts (e : Event) (f : FlowPtr) (before after : Flow) : Prop :=
  before.state = .closed ∨ before.state = .closedWait → after.state ≠ before.state →
    e.isPacketOf f = true ∨ TimesOut e f before after

/-- The timer also closes a lead flow that has waited for its subflows. -/
theorem not_forall_onlyPacketsAndTimeouts :
    ¬∀ (murmur : List UInt8 → UInt32 → UInt64 × UInt64) (randomSeed : UInt32)
      (addrPool : List IPAddress) (h : List Event) (m : Flows),
      Run start (step murmur randomSeed addrPool) h m →
        ∀ e m', step murmur randomSeed addrPool m e = some m' →
          ∀ f < m.next, OnlyPacketsAndTimeouts e f (m.get f) (m'.get f) := by
  intro hclaim
  obtain ⟨m, hrun, hnext, hwait, hempty, hused⟩ := exists_run_exampleEvents
  have hlt : 0 < m.next := by
    rw [hnext]
    norm_num
  have hstep : step exampleHash 0 [] m (.update 0 (.tick 0)) = some (m.update 0 (Flow.tick 0)) :=
    if_pos ⟨hlt, rfl⟩
  have htick : (m.get 0).tick 0 = { m.get 0 with state := .closed } := by
    have hdown : ¬(m.get 0).state.teardown = true := by
      rw [hwait]
      decide
    have hidle : ¬((m.get 0).state ≠ .closed ∧ (m.get 0).state ≠ .established ∧
        0 - (m.get 0).lastUsed > Flow.flowTimeout) := by
      rw [hused]
      exact fun h => absurd h.2.2 (by decide)
    rw [Flow.tick, if_neg hdown, if_neg hidle, if_pos ⟨hwait, hempty⟩]
  have hstrict := hclaim exampleHash 0 [] _ m hrun _ _ hstep 0 hlt
  rw [Flows.get_update_same, htick] at hstrict
  have hleft : FlowState.closed ≠ (m.get 0).state := by
    rw [hwait]
    decide
  rcases hstrict (.inr hwait) hleft with hpacket | ⟨now, -, -, htimeout⟩
  · cases hpacket
  · cases htimeout

end FlowStates

end Scion
