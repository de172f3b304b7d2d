/-
Local endpoints of MPTCP subflows (`scitra-tun/flow.hpp`).

The code creates subflows in two ways: for the endpoint of an outgoing packet,
which is compared with that of every flow, and for the path of an incoming one,
where it takes the first address of the pool that no subflow is bound to. The
lead flow, stored apart from its subflows, is left out of the second search.

* `FlowUpdate` — the sections under the lock of a single flow;
* `Subflows.distinct_step` — one call and the endpoints;
* `Subflows.distinct_iff` — the runs in which the endpoints stay distinct.
-/
import Scion.Flow
import Scion.Runs

namespace Scion

open Runs

/-! ### Sections under one lock -/

inductive FlowUpdate
  | setMptcpToken (token : UInt32)
  | setPath (path : Option Path)
  | updatePassivePath (rp : RawPathContents) (nh : IPEndpoint)
  | close
  | tick (now : ℤ)
  | updateStateEgress (tcp : Option TCP) (qos : UInt8) (t : ℤ)
  | updateStateIngress (tcp : Option TCP) (t : ℤ)

section Hash

variable (murmur : List UInt8 → UInt32 → UInt64 × UInt64) (randomSeed : UInt32)

def FlowUpdate.apply : FlowUpdate → Flow → Flow
  | setMptcpToken token => Flow.setMptcpToken token
  | setPath path => Flow.setPath path
  | updatePassivePath rp nh => Flow.updatePassivePath murmur randomSeed rp nh
  | close => Flow.close
  | tick now => Flow.tick now
  | updateStateEgress tcp qos t => Flow.updateStateEgress tcp qos t
  | updateStateIngress tcp t => Flow.updateStateIngress tcp t

end Hash

variable {murmur : List UInt8 → UInt32 → UInt64 × UInt64} {randomSeed : UInt32}

theorem FlowUpdate.bound_apply (u : FlowUpdate) (f : Flow) :
    f.Bound (u.apply murmur randomSeed f) := by
  cases u with
  | setMptcpToken token => exact f.bound_setMptcpToken token
  | setPath path => exact f.bound_setPath path
  | updatePassivePath rp nh => exact f.bound_updatePassivePath rp nh
  | close => exact f.bound_close
  | tick now => exact f.bound_tick now
  | updateStateEgress tcp qos t => exact (f.touched_updateStateEgress tcp qos t).1
  | updateStateIngress tcp t => exact (f.touched_updateStateIngress tcp t).1

/-! ### Endpoints of a connection -/

namespace Flows

/-- The local endpoints of a lead flow and its subflows. -/
def endpoints (m : Flows) (f : FlowPtr) : List IPEndpoint :=
  (m.get f).boundTo :: (m.get f).subflows.map fun sf => (m.get sf).boundTo

/-- The objects of a connection have been made. -/
def Made (m : Flows) (f : FlowPtr) : Prop := ∀ sf ∈ f :: (m.get f).subflows, sf < m.next

theorem boundTo_update {m : Flows} {f : FlowPtr} {g : Flow → Flow}
    (hg : (g (m.get f)).boundTo = (m.get f).boundTo) (sf : FlowPtr) :
    ((m.update f g).get sf).boundTo = (m.get sf).boundTo := by
  by_cases h : sf = f
  · rw [h, get_update_same, hg]
  · rw [get_update_of_ne h]

theorem subflows_update {m : Flows} {f : FlowPtr} {g : Flow → Flow}
    (hg : (g (m.get f)).subflows = (m.get f).subflows) (sf : FlowPtr) :
    ((m.update f g).get sf).subflows = (m.get sf).subflows := by
  by_cases h : sf = f
  · rw [h, get_update_same, hg]
  · rw [get_update_of_ne h]

theorem endpoints_update {m : Flows} {f : FlowPtr} {g : Flow → Flow}
    (hg : (m.get f).Bound (g (m.get f))) (lead : FlowPtr) :
    (m.update f g).endpoints lead = m.endpoints lead := by
  simp only [endpoints, boundTo_update hg.1, subflows_update hg.2.2]

theorem made_update {m : Flows} {f : FlowPtr} {g : Flow → Flow}
    (hg : (m.get f).Bound (g (m.get f))) {lead : FlowPtr} (h : m.Made lead) :
    (m.update f g).Made lead := by
  rw [Made, subflows_update hg.2.2, next_update]
  exact h

theorem get_make_of_ne {m : Flows} {sf : FlowPtr} (h : sf ≠ m.next) (flow : Flow) :
    (m.make flow).2.get sf = m.get sf := by
  simp [make, h]

theorem get_make_of_lt {m : Flows} {sf : FlowPtr} (h : sf < m.next) (flow : Flow) :
    (m.make flow).2.get sf = m.get sf :=
  get_make_of_ne h.ne flow

@[simp] theorem get_make_next (m : Flows) (flow : Flow) : (m.make flow).2.get m.next = flow := by
  simp [make]

theorem subflows_pushSubflow {m : Flows} {f : FlowPtr} (h : m.Made f) (ep : IPEndpoint)
    (type : FlowType) :
    ((m.pushSubflow f ep type).2.get f).subflows = (m.get f).subflows ++ [m.next] := by
  have hf := h f (List.mem_cons_self ..)
  have hlead : (m.make (Flow.createSubflow ep type (m.get f).mptcpToken)).2.get f = m.get f :=
    get_make_of_lt hf _
  simp only [pushSubflow, get_update_same, hlead]
  rfl

theorem boundTo_pushSubflow (m : Flows) (f : FlowPtr) (ep : IPEndpoint) (type : FlowType)
    (sf : FlowPtr) : ((m.pushSubflow f ep type).2.get sf).boundTo =
      ((m.make (Flow.createSubflow ep type (m.get f).mptcpToken)).2.get sf).boundTo :=
  boundTo_update (g := fun flow => { flow with subflows := flow.subflows ++ [m.next] }) rfl sf

theorem endpoints_pushSubflow {m : Flows} {f : FlowPtr} (h : m.Made f) (ep : IPEndpoint)
    (type : FlowType) :
    (m.pushSubflow f ep type).2.endpoints f = m.endpoints f ++ [ep] := by
  have hold : ∀ sf ∈ f :: (m.get f).subflows,
      ((m.pushSubflow f ep type).2.get sf).boundTo = (m.get sf).boundTo := by
    intro sf hsf
    rw [boundTo_pushSubflow, get_make_of_lt (h sf hsf)]
  have hnew : ((m.pushSubflow f ep type).2.get m.next).boundTo = ep := by
    rw [boundTo_pushSubflow, get_make_next]
    rfl
  rw [endpoints, subflows_pushSubflow h, hold f (List.mem_cons_self ..), List.map_append,
    List.map_singleton, hnew, endpoints, List.cons_append]
  congr 2
  refine List.map_congr_left fun sf hsf => ?_
  exact hold sf (List.mem_cons_of_mem _ hsf)

theorem made_pushSubflow {m : Flows} {f : FlowPtr} (h : m.Made f) (ep : IPEndpoint)
    (type : FlowType) : (m.pushSubflow f ep type).2.Made f := by
  intro sf hsf
  rw [subflows_pushSubflow h, ← List.cons_append, List.mem_append] at hsf
  have hnext : (m.pushSubflow f ep type).2.next = m.next + 1 := rfl
  rw [hnext]
  rcases hsf with hold | hnew
  · exact (h sf hold).trans (Nat.lt_succ_self _)
  · rw [List.mem_singleton.mp hnew]
    exact Nat.lt_succ_self _

theorem subflows_removeSubflows (m : Flows) (f : FlowPtr) (remove : Flow → Bool) :
    ((m.removeSubflows f remove).get f).subflows =
      (m.get f).subflows.filter fun sf => !remove (m.get sf) := by
  rw [removeSubflows, get_update_same]

theorem endpoints_removeSubflows (m : Flows) (f : FlowPtr) (remove : Flow → Bool) :
    ((m.removeSubflows f remove).endpoints f).Sublist (m.endpoints f) := by
  rw [endpoints, endpoints, subflows_removeSubflows, removeSubflows]
  simp only [boundTo_update (m := m) (f := f) (g := fun flow =>
    { flow with subflows := flow.subflows.filter fun sf => !remove (m.get sf) }) rfl]
  exact (List.filter_sublist.map _).cons_cons _

theorem made_removeSubflows {m : Flows} {f : FlowPtr} (h : m.Made f) (remove : Flow → Bool) :
    (m.removeSubflows f remove).Made f := by
  intro sf hsf
  rw [subflows_removeSubflows] at hsf
  exact h sf ((List.filter_sublist.cons_cons f).subset hsf)

/-- No flow of the connection is bound to an address that is not found. -/
theorem notMem_endpoints_of_findSubflowByAddr {m : Flows} {f : FlowPtr} {ep : IPEndpoint}
    (h : m.findSubflowByAddr f ep = none) : ep ∉ m.endpoints f := by
  rw [findSubflowByAddr] at h
  split_ifs at h with _ hlead
  have hsub := List.find?_eq_none.mp h
  rw [endpoints, List.mem_cons, List.mem_map, not_or]
  refine ⟨fun heq => hlead heq.symm, ?_⟩
  rintro ⟨sf, hsf, heq⟩
  exact hsub sf hsf (decide_eq_true heq)

/-- Only the lead flow can be bound to a free address of the pool. -/
theorem mem_endpoints_of_freeAddr {m : Flows} {f : FlowPtr} {addrPool : List IPAddress}
    {addr : IPAddress} (h : m.freeAddr f addrPool = some addr) :
    ⟨addr, (m.get f).boundTo.port⟩ ∈ m.endpoints f ↔ addr = (m.get f).boundTo.host := by
  have hfree := List.find?_some h
  rw [Bool.not_eq_true', List.any_eq_false] at hfree
  rw [endpoints, List.mem_cons, List.mem_map]
  constructor
  · rintro (hlead | ⟨sf, hsf, heq⟩)
    · rw [← hlead]
    · exact absurd (decide_eq_true (congrArg IPEndpoint.host heq)) (hfree sf hsf)
  · intro hhost
    left
    rw [hhost]

end Flows

/-! ### Runs on a lead flow -/

namespace Subflows

/-- The lead flow of a connection, just taken for a multipath flow. -/
def start (flow : Flow) : Flows where
  get := fun _ => { flow with multipath := true, subflows := [] }
  next := 1

def lead : FlowPtr := 0

inductive Event
  | getSubflowByAddr (localEp : IPEndpoint)
  | getSubflowByPath (rp : RawPathContents)
  /-- A section under the lock of the lead flow, of a subflow or of any other flow. -/
  | update (f : FlowPtr) (u : FlowUpdate)
  | removeSubflows (remove : Flow → Bool)

section Hash

variable (murmur : List UInt8 → UInt32 → UInt64 × UInt64) (randomSeed : UInt32)
  (addrPool : List IPAddress)

def step (m : Flows) : Event → Option Flows
  | .getSubflowByAddr localEp => some (m.getSubflowByAddr lead localEp).2
  | .getSubflowByPath rp =>
    (m.getSubflowByPath murmur randomSeed lead rp addrPool).map Prod.snd
  | .update f u => some (m.update f (u.apply murmur randomSeed))
  | .removeSubflows remove => some (m.removeSubflows lead remove)

/-- The event is a search for a path that no flow has, while the address next
in line for a new subflow is that of the lead flow. -/
def TakesLeadHost (m : Flows) (e : Event) : Prop :=
  ∃ rp, e = .getSubflowByPath rp ∧ m.findSubflowByPath murmur randomSeed lead rp = some none ∧
    m.freeAddr lead addrPool = some (m.get lead).boundTo.host

end Hash

/-- The local endpoints of all flows of the connection differ from each other. -/
def Distinct (m : Flows) : Prop := (m.endpoints lead).Nodup

variable {addrPool : List IPAddress}

theorem made_start (flow : Flow) : (start flow).Made lead := by
  intro sf hsf
  rw [List.mem_singleton.mp hsf]
  exact Nat.zero_lt_one

theorem distinct_start (flow : Flow) : Distinct (start flow) := List.nodup_singleton _

theorem made_step {m m' : Flows} {e : Event} (hmade : m.Made lead)
    (hstep : step murmur randomSeed addrPool m e = some m') : m'.Made lead := by
  cases e with
  | getSubflowByAddr localEp =>
    rw [← Option.some.inj hstep]
    rcases m.getSubflowByAddr_cases lead localEp with ⟨sf, -, hget⟩ | ⟨-, hget⟩
    · rw [hget]
      exact hmade
    · rw [hget]
      exact m.made_pushSubflow hmade localEp .active
  | getSubflowByPath rp =>
    obtain ⟨⟨sf, m₁⟩, hget, rfl⟩ := Option.map_eq_some_iff.mp hstep
    rcases Flows.getSubflowByPath_cases hget with ⟨g, -, -, rfl⟩ | ⟨addr, -, -, -, rfl⟩ |
      ⟨-, -, -, rfl⟩
    · exact hmade
    · exact m.made_pushSubflow hmade _ .passive
    · exact hmade
  | update f u =>
    rw [← Option.some.inj hstep]
    exact Flows.made_update (u.bound_apply (m.get f)) hmade
  | removeSubflows remove =>
    rw [← Option.some.inj hstep]
    exact Flows.made_removeSubflows hmade remove

/-- A call keeps the endpoints distinct unless it takes the lead flow's host for
a new subflow. -/
theorem distinct_step {m m' : Flows} {e : Event} (hmade : m.Made lead) (hdistinct : Distinct m)
    (hstep : step murmur randomSeed addrPool m e = some m') :
    Distinct m' ↔ ¬ TakesLeadHost murmur randomSeed addrPool m e := by
  have hpush : ∀ (ep : IPEndpoint) (type : FlowType),
      Distinct (m.pushSubflow lead ep type).2 ↔ ep ∉ m.endpoints lead := by
    intro ep type
    rw [Distinct, Flows.endpoints_pushSubflow hmade, ← List.concat_eq_append, List.nodup_concat]
    exact ⟨fun h => h.1, fun h => ⟨h, hdistinct⟩⟩
  cases e with
  | getSubflowByAddr localEp =>
    have hnot : ¬ TakesLeadHost murmur randomSeed addrPool m (.getSubflowByAddr localEp) := by
      rintro ⟨rp, heq, -⟩
      exact Event.noConfusion heq
    refine iff_of_true ?_ hnot
    rw [← Option.some.inj hstep]
    rcases m.getSubflowByAddr_cases lead localEp with ⟨sf, -, hget⟩ | ⟨hnone, hget⟩
    · rw [hget]
      exact hdistinct
    · rw [hget]
      exact (hpush localEp .active).mpr (Flows.notMem_endpoints_of_findSubflowByAddr hnone)
  | getSubflowByPath rp =>
    obtain ⟨⟨sf, m₁⟩, hget, rfl⟩ := Option.map_eq_some_iff.mp hstep
    rcases Flows.getSubflowByPath_cases hget with ⟨g, hfound, -, rfl⟩ |
      ⟨addr, hnone, hfree, -, rfl⟩ | ⟨hnone, hfree, -, rfl⟩
    · refine iff_of_true hdistinct ?_
      rintro ⟨rp', heq, hnone, -⟩
      rw [← Event.getSubflowByPath.inj heq, hfound] at hnone
      exact Option.some_ne_none g (Option.some.inj hnone)
    · rw [hpush, Flows.mem_endpoints_of_freeAddr hfree, not_iff_not]
      constructor
      · intro hhost
        exact ⟨rp, rfl, hnone, hfree.trans (congrArg some hhost)⟩
      · rintro ⟨rp', -, -, hlead⟩
        exact Option.some.inj (hfree.symm.trans hlead)
    · refine iff_of_true hdistinct ?_
      rintro ⟨rp', -, -, hlead⟩
      rw [hfree] at hlead
      exact Option.some_ne_none _ hlead.symm
  | update f u =>
    have hnot : ¬ TakesLeadHost murmur randomSeed addrPool m (.update f u) := by
      rintro ⟨rp, heq, -⟩
      exact Event.noConfusion heq
    refine iff_of_true ?_ hnot
    rw [← Option.some.inj hstep, Distinct, Flows.endpoints_update (u.bound_apply (m.get f))]
    exact hdistinct
  | removeSubflows remove =>
    have hnot : ¬ TakesLeadHost murmur randomSeed addrPool m (.removeSubflows remove) := by
      rintro ⟨rp, heq, -⟩
      exact Event.noConfusion heq
    refine iff_of_true ?_ hnot
    rw [← Option.some.inj hstep]
    exact hdistinct.sublist (m.endpoints_removeSubflows lead remove)

theorem made_of_run {flow : Flow} {h : List Event} {m : Flows}
    (hrun : Run (start flow) (step murmur randomSeed addrPool) h m) : m.Made lead :=
  hrun.invariant (I := fun _ m => m.Made lead) (made_start flow)
    fun _ _ _ _ hmade hstep => made_step hmade hstep

/-- The endpoints stay distinct throughout a run exactly if no search for a path
ends with the lead flow's host for a new subflow. -/
theorem distinct_iff (murmur : List UInt8 → UInt32 → UInt64 × UInt64) (randomSeed : UInt32)
    (addrPool : List IPAddress) (flow : Flow) {h : List Event} {m : Flows}
    (hrun : Run (start flow) (step murmur randomSeed addrPool) h m) :
    Throughout (start flow) (step murmur randomSeed addrPool) (fun _ m => Distinct m) h ↔
      Always (start flow) (step murmur randomSeed addrPool)
        (fun _ m e => ¬ TakesLeadHost murmur randomSeed addrPool m e) h := by
  refine throughout_iff_always (distinct_start flow) ?_ hrun
  intro past m e m' hpast hdistinct hstep
  exact distinct_step (made_of_run hpast) hdistinct hstep

/-! ### An incoming subflow -/

def exampleLead : Flow where
  boundTo := ⟨.v4 0x0a000001, 5000⟩
  type := .active
  multipath := true
  path := some (Path.makeEmpty exampleHash 0 (IsdAsn.make 1 1))

theorem findSubflowByPath_exampleLead :
    (start exampleLead).findSubflowByPath exampleHash 0 lead exampleRawPath = some none := by
  decide +kernel

/-- One packet on a new path with one address in the pool. -/
theorem run_exampleLead (host : IPAddress) :
    Run (start exampleLead) (step exampleHash 0 [host]) [.getSubflowByPath exampleRawPath]
      ((start exampleLead).pushSubflow lead ⟨host, 5000⟩ .passive).2 := by
  refine Run.start.next ?_
  rw [step, Flows.getSubflowByPath, findSubflowByPath_exampleLead]
  rfl

theorem distinct_iff_exampleLead :
    Throughout (start exampleLead) (step exampleHash 0 [.v4 0x0a000002])
        (fun _ m => Distinct m) [.getSubflowByPath exampleRawPath] ↔
      Always (start exampleLead) (step exampleHash 0 [.v4 0x0a000002])
        (fun _ m e => ¬ TakesLeadHost exampleHash 0 [.v4 0x0a000002] m e)
        [.getSubflowByPath exampleRawPath] :=
  distinct_iff exampleHash 0 [.v4 0x0a000002] exampleLead (run_exampleLead (.v4 0x0a000002))

/-- With the lead flow's own host in the pool a new subflow gets the lead flow's
endpoint. -/
theorem not_forall_distinct :
    ¬ ∀ (murmur : List UInt8 → UInt32 → UInt64 × UInt64) (randomSeed : UInt32)
      (addrPool : List IPAddress) (flow : Flow) (h : List Event) (m : Flows),
      Run (start flow) (step murmur randomSeed addrPool) h m → Distinct m := by
  intro hall
  have hdistinct := hall exampleHash 0 [.v4 0x0a000001] exampleLead _ _
    (run_exampleLead (.v4 0x0a000001))
  rw [Distinct, Flows.endpoints_pushSubflow (made_start exampleLead)] at hdistinct
  exact absurd hdistinct (by decide)

end Subflows

end Scion
