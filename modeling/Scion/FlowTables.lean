/-
The flow tables of the translator (`scitra-tun/scitra_tun.cpp`).

`flows` holds the flows by ID, `mpTokenMap` the flows of MPTCP connections by
token, and `mpPortRemap` the source port of the lead flow for the local endpoint
of a subflow. All are written under one lock, in the order of the calls.

* `FlowTables.step` — the calls, and the sections that change the flows;
* `FlowTables.Agree` — what the tables are supposed to have in common;
* `FlowTables.agree_of_tidy` — runs that leave no entry behind.
-/
import Scion.Subflows
import Mathlib.Data.List.AList

namespace Scion

open Runs

/-- `FlowID`. -/
structure FlowID where
  src : ScIPEndpoint
  dst : ScIPEndpoint
  proto : ScionProto
  deriving DecidableEq, Repr

/-- The source port is replaced. -/
def FlowID.withSourcePort (id : FlowID) (port : UInt16) : FlowID :=
  { id with src := { id.src with localEp := { id.src.localEp with port := port } } }

structure FlowTables where
  /-- The flow objects, also those that are only held by packets. -/
  heap : Flows
  flows : AList fun _ : FlowID => FlowPtr
  mpTokenMap : AList fun _ : UInt32 => FlowPtr
  mpPortRemap : AList fun _ : IPEndpoint => UInt16

namespace FlowTables

/-! ### The calls -/

section Calls

variable (sha256Trunc : UInt64 → UInt32) (extraIPs : List IPAddress) (tunIP : IPAddress)

/-- The receiver token of a new subflow's SYN. -/
def joinToken (tcp : TCP) : Option UInt32 :=
  match tcp.options.mpJoin with
  | .syn _ _ receiverToken _ => if tcp.optMask.mpJoin then some receiverToken else none
  | _ => none

/-- MP_CAPABLE with the keys of both sides. -/
def hasKeys (tcp : TCP) : Bool :=
  tcp.optMask.mpCapable && tcp.options.mpCap.fieldMask.receiverKey

/-- The token an egress packet tells. -/
def receiverToken (tcp : TCP) : Option UInt32 :=
  if hasKeys tcp then some (sha256Trunc tcp.options.mpCap.receiverKey) else none

/-- The token an ingress packet tells. -/
def senderToken (tcp : TCP) : Option UInt32 :=
  if hasKeys tcp then some (sha256Trunc tcp.options.mpCap.senderKey) else none

/-- `flows[id]`, with a new flow if there is none. -/
def findOrCreate (t : FlowTables) (id : FlowID) (localEp : IPEndpoint) (type : FlowType) :
    FlowPtr × FlowTables :=
  match t.flows.lookup id with
  | some f => (f, t)
  | none =>
    let (f, heap) := t.heap.make (Flow.create localEp type)
    (f, { t with heap := heap, flows := t.flows.insert id f })

/-- `mpTokenMap[token] = flow` and `setMptcpToken`. -/
def learn (t : FlowTables) (f : FlowPtr) : Option UInt32 → FlowTables
  | some token =>
    { t with
      heap := t.heap.update f (Flow.setMptcpToken token)
      mpTokenMap := t.mpTokenMap.insert token f }
  | none => t

/-- The flow of a subflow's SYN, by its receiver token. -/
def joined (t : FlowTables) (tcp : Option TCP) : Option FlowPtr :=
  if extraIPs ≠ [] then (tcp.bind joinToken).bind fun token => t.mpTokenMap.lookup token else none

/-- A packet from one of the extra IPs might need source port remapping. -/
def remappedID (t : FlowTables) (tcp : Option TCP) (id : FlowID) (localEp : IPEndpoint) : FlowID :=
  if extraIPs ≠ [] ∧ tcp.isSome ∧ tcp.bind joinToken = none ∧ localEp.host ≠ tunIP then
    match t.mpPortRemap.lookup localEp with
    | some port => id.withSourcePort port
    | none => id
  else id

/-- `getFlowEgress`; `tcp` is the L4 header if it is a TCP header. -/
def getFlowEgress (t : FlowTables) (tcp : Option TCP) (id : FlowID) (localEp : IPEndpoint) :
    FlowPtr × FlowTables :=
  let subflowSyn := if extraIPs ≠ [] then tcp.bind joinToken else none
  let (f, t) :=
    match t.joined extraIPs tcp with
    | some f =>
      -- remap port to existing flow
      let sport := (t.heap.get f).boundTo.port
      (f, { t with mpPortRemap := t.mpPortRemap.insert localEp sport })
    | none => t.findOrCreate (t.remappedID extraIPs tunIP tcp id localEp) localEp .active
  -- learn the receiver token for additional subflows
  (f, t.learn f (subflowSyn.or (tcp.bind (receiverToken sha256Trunc))))

/-- `getFlowIngress`. -/
def getFlowIngress (t : FlowTables) (id : FlowID) (localEp : IPEndpoint) : FlowPtr × FlowTables :=
  t.findOrCreate id localEp .passive

def removeFlow (t : FlowTables) (id : FlowID) : FlowTables := { t with flows := t.flows.erase id }

/-- The subflows of `f` in the loop of `maintainFlowsAndSockets`. -/
def maintainSubflows (now : ℤ) (f : FlowPtr) : List FlowPtr → FlowTables → FlowTables
  | [], t => t
  | sf :: sfs, t =>
    let flow := t.heap.get sf
    let t := { t with heap := t.heap.update sf (Flow.tick now) }
    maintainSubflows now f sfs
      (if flow.state = .closed then
        { t with
          heap := t.heap.update f fun flow => { flow with subflows := flow.subflows.erase sf }
          mpPortRemap := t.mpPortRemap.erase flow.boundTo }
      else t)

/-- The subflows of a multipath flow come before the flow itself. -/
def withSubflowsMaintained (t : FlowTables) (now : ℤ) (f : FlowPtr) : FlowTables :=
  if (t.heap.get f).multipath then maintainSubflows now f (t.heap.get f).subflows t else t

/-- The flow itself. -/
def maintainLead (t : FlowTables) (now : ℤ) (id : FlowID) (f : FlowPtr) : FlowTables :=
  let flow := t.heap.get f
  let t := { t with heap := t.heap.update f (Flow.tick now) }
  if flow.state = .closed then
    { t with mpTokenMap := t.mpTokenMap.erase flow.mptcpToken, flows := t.flows.erase id }
  else t

/-- The loop over `flows`. -/
def maintainFlows (now : ℤ) : List (Sigma fun _ : FlowID => FlowPtr) → FlowTables → FlowTables
  | [], t => t
  | x :: xs, t => maintainFlows now xs ((t.withSubflowsMaintained now x.2).maintainLead now x.1 x.2)

/-- Close all flows connected to the socket at a port. -/
def closeFlows (heap : Flows) (port : UInt16) (x : Sigma fun _ : FlowID => FlowPtr) : Flows :=
  if x.1.src.port = port then
    let heap :=
      if (heap.get x.2).multipath then
        (heap.get x.2).subflows.foldl (fun heap sf => heap.update sf Flow.close) heap
      else heap
    heap.update x.2 Flow.close
  else heap

/-- `maintainFlowsAndSockets`; `order` is that in which the loop comes to the
flows, and `ports` are those of the sockets that are removed. -/
def maintainFlowsAndSockets (t : FlowTables) (now : ℤ)
    (order : List (Sigma fun _ : FlowID => FlowPtr)) (ports : List UInt16) : FlowTables :=
  let t := maintainFlows now order t
  { t with heap := ports.foldl (fun heap port =>
      t.flows.entries.foldl (fun heap x => closeFlows heap port x) heap) t.heap }

/-! ### The system -/

inductive Event
  | getFlowEgress (tcp : Option TCP) (id : FlowID) (localEp : IPEndpoint)
  | getFlowIngress (id : FlowID) (localEp : IPEndpoint)
  | removeFlow (id : FlowID)
  | maintainFlowsAndSockets (now : ℤ) (order : List (Sigma fun _ : FlowID => FlowPtr))
    (ports : List UInt16)
  /-- An ingress packet with the key of its sender. -/
  | learnToken (f : FlowPtr) (tcp : TCP)
  | update (f : FlowPtr) (u : FlowUpdate)
  | getSubflowByAddr (f : FlowPtr) (localEp : IPEndpoint)
  | getSubflowByPath (f : FlowPtr) (rp : RawPathContents)

variable (murmur : List UInt8 → UInt32 → UInt64 × UInt64) (randomSeed : UInt32)

def start : FlowTables := ⟨⟨fun _ => Flow.create ⟨.v4 0, 0⟩ .active, 0⟩, ∅, ∅, ∅⟩

/-- One section under the lock of the tables or of a flow that exists. -/
def step (t : FlowTables) : Event → Option FlowTables
  | .getFlowEgress tcp id localEp =>
    some (t.getFlowEgress sha256Trunc extraIPs tunIP tcp id localEp).2
  | .getFlowIngress id localEp => some (t.getFlowIngress id localEp).2
  | .removeFlow id => some (t.removeFlow id)
  | .maintainFlowsAndSockets now order ports =>
    if order.Perm t.flows.entries then some (t.maintainFlowsAndSockets now order ports) else none
  | .learnToken f tcp =>
    if f < t.heap.next ∧ extraIPs ≠ [] then some (t.learn f (senderToken sha256Trunc tcp)) else none
  | .update f u =>
    if f < t.heap.next then some { t with heap := t.heap.update f (u.apply murmur randomSeed) }
    else none
  | .getSubflowByAddr f localEp =>
    if f < t.heap.next then some { t with heap := (t.heap.getSubflowByAddr f localEp).2 } else none
  | .getSubflowByPath f rp =>
    if f < t.heap.next then
      (t.heap.getSubflowByPath murmur randomSeed f rp extraIPs).map fun r => { t with heap := r.2 }
    else none

end Calls

/-! ### Agreement of the tables -/

/-- The flow is in the table. -/
def Present (t : FlowTables) (f : FlowPtr) : Prop := ∃ id, t.flows.lookup id = some f

/-- Every token belongs to a flow in the table, and every remapped endpoint to a
flow in the table or one of its subflows, with the port of that flow. -/
structure Agree (t : FlowTables) : Prop where
  token : ∀ token f, t.mpTokenMap.lookup token = some f → t.Present f
  remap : ∀ ep port, t.mpPortRemap.lookup ep = some port →
    ∃ f, t.Present f ∧ ep ∈ t.heap.endpoints f ∧ (t.heap.get f).boundTo.port = port

/-- No token but its own belongs to a flow that is removed, and none of its
endpoints is remapped. -/
def clean (t : FlowTables) (f : FlowPtr) (token : Option UInt32) : Bool :=
  (t.mpTokenMap.entries.all fun x => decide (x.2 = f → token = some x.1))
    && (t.heap.endpoints f).all fun ep => (t.mpPortRemap.lookup ep).isNone

/-- The flows that the loop removes are clean when it comes to them. -/
def cleanLoop (now : ℤ) : List (Sigma fun _ : FlowID => FlowPtr) → FlowTables → Bool
  | [], _ => true
  | x :: xs, t =>
    let t := t.withSubflowsMaintained now x.2
    (decide ((t.heap.get x.2).state ≠ .closed)
        || t.clean x.2 (some (t.heap.get x.2).mptcpToken))
      && cleanLoop now xs (t.maintainLead now x.1 x.2)

/-- A call that leaves no entry without its flow. -/
def tidy (extraIPs : List IPAddress) (t : FlowTables) : Event → Bool
  | .getFlowEgress tcp _ localEp =>
    (t.joined extraIPs tcp).all fun f => decide (localEp ∈ t.heap.endpoints f)
  | .removeFlow id => (t.flows.lookup id).all fun f => t.clean f none
  | .maintainFlowsAndSockets now order _ => cleanLoop now order t
  | .learnToken f tcp => !hasKeys tcp || t.flows.entries.any fun x => x.2 = f
  | _ => true

end FlowTables

/-! ### Heaps that grow -/

namespace Flows

/-- The subflows of an object are objects. -/
def AllMade (m : Flows) : Prop := ∀ f < m.next, ∀ sf ∈ (m.get f).subflows, sf < m.next

/-- Objects keep their endpoint and their subflows. -/
structure Grows (m m' : Flows) : Prop where
  next : m.next ≤ m'.next
  boundTo : ∀ f < m.next, (m'.get f).boundTo = (m.get f).boundTo
  subflows : ∀ f < m.next, ∀ sf ∈ (m.get f).subflows, sf ∈ (m'.get f).subflows

theorem Grows.refl (m : Flows) : Grows m m := ⟨le_refl _, fun _ _ => rfl, fun _ _ _ h => h⟩

theorem Grows.trans {m₁ m₂ m₃ : Flows} (h : Grows m₁ m₂) (h' : Grows m₂ m₃) : Grows m₁ m₃ where
  next := h.next.trans h'.next
  boundTo := fun f hf => (h'.boundTo f (hf.trans_le h.next)).trans (h.boundTo f hf)
  subflows := fun f hf sf hsf => h'.subflows f (hf.trans_le h.next) sf (h.subflows f hf sf hsf)

theorem Grows.endpoints {m m' : Flows} (h : Grows m m') (hmade : m.AllMade) {f : FlowPtr}
    (hf : f < m.next) {ep : IPEndpoint} (hep : ep ∈ m.endpoints f) : ep ∈ m'.endpoints f := by
  rw [Flows.endpoints, List.mem_cons, List.mem_map] at hep ⊢
  rcases hep with hlead | ⟨sf, hsf, rfl⟩
  · left
    rw [h.boundTo f hf, hlead]
  · exact .inr ⟨sf, h.subflows f hf sf hsf, h.boundTo sf (hmade f hf sf hsf)⟩

theorem grows_update {m : Flows} {f : FlowPtr} {g : Flow → Flow}
    (hg : (m.get f).Bound (g (m.get f))) : Grows m (m.update f g) where
  next := le_refl _
  boundTo := fun f' _ => boundTo_update hg.1 f'
  subflows := by
    intro f' _ sf hsf
    rw [subflows_update hg.2.2]
    exact hsf

theorem AllMade.update {m : Flows} (h : m.AllMade) {f : FlowPtr} {g : Flow → Flow}
    (hg : ∀ sf ∈ (g (m.get f)).subflows, sf ∈ (m.get f).subflows) :
    (m.update f g).AllMade := by
  intro f' hf' sf hsf
  by_cases hf : f' = f
  · rw [hf, get_update_same] at hsf
    rw [hf] at hf'
    exact h f hf' sf (hg sf hsf)
  · rw [get_update_of_ne hf] at hsf
    exact h f' hf' sf hsf

theorem AllMade.update_bound {m : Flows} (h : m.AllMade) {f : FlowPtr} {g : Flow → Flow}
    (hg : (m.get f).Bound (g (m.get f))) : (m.update f g).AllMade :=
  h.update fun _ hsf => hg.2.2 ▸ hsf

theorem grows_make (m : Flows) (flow : Flow) : Grows m (m.make flow).2 where
  next := Nat.le_succ _
  boundTo := fun f hf => by rw [get_make_of_lt hf]
  subflows := fun f hf sf hsf => by rwa [get_make_of_lt hf]

theorem AllMade.make {m : Flows} (h : m.AllMade) {flow : Flow} (hflow : flow.subflows = []) :
    (m.make flow).2.AllMade := by
  intro f hf sf hsf
  rcases Nat.lt_succ_iff_lt_or_eq.mp hf with hold | rfl
  · rw [get_make_of_lt hold] at hsf
    exact (h f hold sf hsf).trans (Nat.lt_succ_self _)
  · rw [get_make_next, hflow] at hsf
    exact absurd hsf List.not_mem_nil

/-- Pushing a subflow makes an object and then adds it to those of `f`. -/
theorem grows_pushSubflow {m : Flows} (f : FlowPtr) (ep : IPEndpoint) (type : FlowType) :
    Grows m (m.pushSubflow f ep type).2 := by
  refine (grows_make m (Flow.createSubflow ep type (m.get f).mptcpToken)).trans ?_
  refine ⟨le_refl _, fun f' _ => boundTo_pushSubflow m f ep type f', ?_⟩
  intro f' _ sf hsf
  by_cases hf : f' = f
  · rw [hf] at hsf ⊢
    rw [pushSubflow, get_update_same]
    exact List.mem_append_left _ hsf
  · rwa [pushSubflow, get_update_of_ne hf]

theorem AllMade.pushSubflow {m : Flows} (h : m.AllMade) (f : FlowPtr) (ep : IPEndpoint)
    (type : FlowType) : (m.pushSubflow f ep type).2.AllMade := by
  have hmake := @AllMade.make m h (Flow.createSubflow ep type (m.get f).mptcpToken) rfl
  intro f' hf' sf hsf
  by_cases hf : f' = f
  · rw [hf, Flows.pushSubflow, get_update_same, List.mem_append, List.mem_singleton] at hsf
    rcases hsf with hold | rfl
    · exact hmake f (hf ▸ hf') sf hold
    · exact Nat.lt_succ_self _
  · rw [Flows.pushSubflow, get_update_of_ne hf] at hsf
    exact hmake f' hf' sf hsf

theorem grows_getSubflowByAddr (m : Flows) (f : FlowPtr) (localEp : IPEndpoint) :
    Grows m (m.getSubflowByAddr f localEp).2 ∧
      (m.AllMade → (m.getSubflowByAddr f localEp).2.AllMade) := by
  rcases m.getSubflowByAddr_cases f localEp with ⟨sf, -, hget⟩ | ⟨-, hget⟩
  · rw [hget]
    exact ⟨Grows.refl m, id⟩
  · rw [hget]
    exact ⟨grows_pushSubflow f localEp .active, fun h => h.pushSubflow f localEp .active⟩

theorem grows_getSubflowByPath {murmur : List UInt8 → UInt32 → UInt64 × UInt64}
    {randomSeed : UInt32} {m m' : Flows} {f : FlowPtr} {rp : RawPathContents}
    {addrPool : List IPAddress} {sf : Option FlowPtr}
    (h : m.getSubflowByPath murmur randomSeed f rp addrPool = some (sf, m')) :
    Grows m m' ∧ (m.AllMade → m'.AllMade) := by
  rcases getSubflowByPath_cases h with ⟨g, -, -, rfl⟩ | ⟨addr, -, -, -, rfl⟩ | ⟨-, -, -, rfl⟩
  · exact ⟨Grows.refl m', id⟩
  · exact ⟨grows_pushSubflow f _ .passive, fun h => h.pushSubflow f _ .passive⟩
  · exact ⟨Grows.refl m', id⟩

end Flows

namespace FlowTables

/-! ### The invariant -/

structure Sound (t : FlowTables) : Prop where
  made : t.heap.AllMade
  present : ∀ f, t.Present f → f < t.heap.next
  agree : t.Agree

theorem sound_start : start.Sound where
  made := fun f hf => absurd hf (Nat.not_lt_zero f)
  present := by
    rintro f ⟨id, hid⟩
    cases hid
  agree := {
    token := fun token f h => by cases h
    remap := fun ep port h => by cases h }

theorem Sound.token_lt {t : FlowTables} (h : t.Sound) {token : UInt32} {f : FlowPtr}
    (hf : t.mpTokenMap.lookup token = some f) : f < t.heap.next :=
  h.present f (h.agree.token token f hf)

/-- Only the objects change. -/
theorem Sound.heap {t : FlowTables} (h : t.Sound) {m : Flows} (hgrows : t.heap.Grows m)
    (hmade : m.AllMade) : Sound { t with heap := m } where
  made := hmade
  present := fun f hf => (h.present f hf).trans_le hgrows.next
  agree := {
    token := h.agree.token
    remap := by
      intro ep port hport
      obtain ⟨f, hf, hep, hbound⟩ := h.agree.remap ep port hport
      refine ⟨f, hf, hgrows.endpoints h.made (h.present f hf) hep, ?_⟩
      rw [hgrows.boundTo f (h.present f hf), hbound] }

theorem Sound.update {t : FlowTables} (h : t.Sound) {f : FlowPtr} {g : Flow → Flow}
    (hg : (t.heap.get f).Bound (g (t.heap.get f))) :
    Sound { t with heap := t.heap.update f g } :=
  h.heap (Flows.grows_update hg) (h.made.update_bound hg)

theorem present_insert {t : FlowTables} {id : FlowID} (hnone : t.flows.lookup id = none)
    (f : FlowPtr) {g : FlowPtr} (hg : t.Present g) :
    ∃ id', (t.flows.insert id f).lookup id' = some g := by
  obtain ⟨id', hid⟩ := hg
  have hne : id' ≠ id := by
    rintro rfl
    rw [hnone] at hid
    cases hid
  exact ⟨id', by rw [AList.lookup_insert_ne hne, hid]⟩

theorem of_lookup_insert {t : FlowTables} {id id' : FlowID} {f g : FlowPtr}
    (h : (t.flows.insert id f).lookup id' = some g) : g = f ∨ t.Present g := by
  by_cases hid : id' = id
  · rw [hid, AList.lookup_insert] at h
    exact .inl (Option.some.inj h).symm
  · rw [AList.lookup_insert_ne hid] at h
    exact .inr ⟨id', h⟩

/-- The flow that is found or created is in the table. -/
theorem sound_findOrCreate {t : FlowTables} (h : t.Sound) (id : FlowID) (localEp : IPEndpoint)
    (type : FlowType) : (t.findOrCreate id localEp type).2.Sound ∧
      (t.findOrCreate id localEp type).2.Present (t.findOrCreate id localEp type).1 := by
  rw [findOrCreate]
  cases hid : t.flows.lookup id with
  | some f => exact ⟨h, id, hid⟩
  | none =>
    have hgrows := t.heap.grows_make (Flow.create localEp type)
    have hmade := @Flows.AllMade.make _ h.made (Flow.create localEp type) rfl
    have hbase := h.heap hgrows hmade
    refine ⟨⟨hmade, ?_, ?_, ?_⟩, id, AList.lookup_insert t.flows⟩
    · rintro g ⟨id', hg⟩
      rcases of_lookup_insert hg with rfl | hold
      · exact Nat.lt_succ_self _
      · exact hbase.present g hold
    · intro token g hg
      exact present_insert hid _ (hbase.agree.token token g hg)
    · intro ep port hport
      obtain ⟨g, hg, hep⟩ := hbase.agree.remap ep port hport
      exact ⟨g, present_insert hid _ hg, hep⟩

theorem sound_learn {t : FlowTables} (h : t.Sound) {f : FlowPtr} (hf : t.Present f)
    (token : Option UInt32) : (t.learn f token).Sound ∧ (t.learn f token).Present f := by
  cases token with
  | none => exact ⟨h, hf⟩
  | some token =>
    have hbase := h.update ((t.heap.get f).bound_setMptcpToken token)
    refine ⟨⟨hbase.made, hbase.present, ?_, hbase.agree.remap⟩, hf⟩
    intro token' g hg
    have hg : (t.mpTokenMap.insert token f).lookup token' = some g := hg
    by_cases heq : token' = token
    · rw [heq, AList.lookup_insert] at hg
      rw [← Option.some.inj hg]
      exact hf
    · rw [AList.lookup_insert_ne heq] at hg
      exact hbase.agree.token token' g hg

/-- A remapped endpoint that is one of the flow's. -/
theorem Sound.remap {t : FlowTables} (h : t.Sound) {f : FlowPtr} (hf : t.Present f)
    {ep : IPEndpoint} (hep : ep ∈ t.heap.endpoints f) :
    Sound { t with mpPortRemap := t.mpPortRemap.insert ep (t.heap.get f).boundTo.port } := by
  refine ⟨h.made, h.present, h.agree.token, ?_⟩
  intro ep' port hport
  have hport : (t.mpPortRemap.insert ep (t.heap.get f).boundTo.port).lookup ep' = some port := hport
  by_cases heq : ep' = ep
  · rw [heq, AList.lookup_insert] at hport
    rw [heq]
    exact ⟨f, hf, hep, Option.some.inj hport⟩
  · rw [AList.lookup_insert_ne heq] at hport
    exact h.agree.remap ep' port hport

section Calls

variable {sha256Trunc : UInt64 → UInt32} {extraIPs : List IPAddress} {tunIP : IPAddress}

theorem present_of_joined {t : FlowTables} (h : t.Sound) {tcp : Option TCP} {f : FlowPtr}
    (hf : t.joined extraIPs tcp = some f) : t.Present f := by
  rw [joined] at hf
  split_ifs at hf
  obtain ⟨token, -, htoken⟩ := Option.bind_eq_some_iff.mp hf
  exact h.agree.token token f htoken

theorem sound_getFlowEgress {t : FlowTables} (h : t.Sound) {tcp : Option TCP}
    {localEp : IPEndpoint} (id : FlowID)
    (htidy : ∀ f, t.joined extraIPs tcp = some f → localEp ∈ t.heap.endpoints f) :
    (t.getFlowEgress sha256Trunc extraIPs tunIP tcp id localEp).2.Sound ∧
      (t.getFlowEgress sha256Trunc extraIPs tunIP tcp id localEp).2.Present
        (t.getFlowEgress sha256Trunc extraIPs tunIP tcp id localEp).1 := by
  rw [getFlowEgress]
  cases hjoined : t.joined extraIPs tcp with
  | some f =>
    have hf := present_of_joined h hjoined
    exact sound_learn (h.remap hf (htidy f hjoined)) hf _
  | none =>
    obtain ⟨hsound, hpresent⟩ :=
      sound_findOrCreate h (t.remappedID extraIPs tunIP tcp id localEp) localEp .active
    exact sound_learn hsound hpresent _

end Calls

/-! ### Removal -/

/-- What `clean` says about the maps. -/
theorem of_clean {t : FlowTables} {f : FlowPtr} {token : Option UInt32}
    (h : t.clean f token = true) :
    (∀ tk, t.mpTokenMap.lookup tk = some f → token = some tk) ∧
      ∀ ep ∈ t.heap.endpoints f, t.mpPortRemap.lookup ep = none := by
  rw [clean, Bool.and_eq_true, List.all_eq_true, List.all_eq_true] at h
  constructor
  · intro tk htk
    exact of_decide_eq_true (h.1 ⟨tk, f⟩ (AList.mem_lookup_iff.mp htk)) rfl
  · intro ep hep
    exact Option.isNone_iff_eq_none.mp (h.2 ep hep)

/-- An entry of the table is removed with the tokens in `m`. -/
theorem Sound.erase {t : FlowTables} (h : t.Sound) {id : FlowID} {f : FlowPtr}
    (hid : t.flows.lookup id = some f) {m : AList fun _ : UInt32 => FlowPtr}
    (hm : ∀ token g, m.lookup token = some g → g ≠ f ∧ t.mpTokenMap.lookup token = some g)
    (hremap : ∀ ep ∈ t.heap.endpoints f, t.mpPortRemap.lookup ep = none) :
    Sound { t with mpTokenMap := m, flows := t.flows.erase id } := by
  have hother : ∀ g, g ≠ f → t.Present g → ∃ id', (t.flows.erase id).lookup id' = some g := by
    rintro g hg ⟨id', hid'⟩
    have hne : id' ≠ id := by
      rintro rfl
      exact hg (Option.some.inj (hid'.symm.trans hid))
    exact ⟨id', (AList.lookup_erase_ne hne).trans hid'⟩
  have hold : ∀ g, (∃ id', (t.flows.erase id).lookup id' = some g) → t.Present g := by
    rintro g ⟨id', hid'⟩
    by_cases heq : id' = id
    · rw [heq, AList.lookup_erase] at hid'
      cases hid'
    · rw [AList.lookup_erase_ne heq] at hid'
      exact ⟨id', hid'⟩
  refine ⟨h.made, fun g hg => h.present g (hold g hg), ?_, ?_⟩
  · intro token g hg
    obtain ⟨hne, hlookup⟩ := hm token g hg
    exact hother g hne (h.agree.token token g hlookup)
  · intro ep port hport
    obtain ⟨g, hg, hep, hbound⟩ := h.agree.remap ep port hport
    refine ⟨g, hother g ?_ hg, hep, hbound⟩
    rintro rfl
    have hport : t.mpPortRemap.lookup ep = some port := hport
    rw [hremap ep hep] at hport
    cases hport

theorem sound_removeFlow {t : FlowTables} (h : t.Sound) {id : FlowID}
    (htidy : ∀ f, t.flows.lookup id = some f → t.clean f none = true) :
    (t.removeFlow id).Sound := by
  cases hid : t.flows.lookup id with
  | none =>
    have hsame : t.flows.erase id = t.flows := by
      refine AList.ext (List.kerase_of_notMem_keys ?_)
      exact AList.lookup_eq_none.mp hid
    rw [removeFlow, hsame]
    exact h
  | some f =>
    obtain ⟨htoken, hremap⟩ := of_clean (htidy f hid)
    refine h.erase hid ?_ hremap
    intro token g hg
    refine ⟨?_, hg⟩
    rintro rfl
    cases htoken token hg

theorem sound_maintainLead {t : FlowTables} (h : t.Sound) (now : ℤ) {id : FlowID} {f : FlowPtr}
    (hid : t.flows.lookup id = some f)
    (htidy : (t.heap.get f).state = .closed →
      t.clean f (some (t.heap.get f).mptcpToken) = true) : (t.maintainLead now id f).Sound := by
  have htick := h.update ((t.heap.get f).bound_tick now)
  rw [maintainLead]
  dsimp only
  split_ifs with hclosed
  · obtain ⟨htoken, hremap⟩ := of_clean (htidy hclosed)
    refine htick.erase hid ?_ ?_
    · intro token g hg
      have hg : (t.mpTokenMap.erase (t.heap.get f).mptcpToken).lookup token = some g := hg
      by_cases heq : token = (t.heap.get f).mptcpToken
      · rw [heq, AList.lookup_erase] at hg
        cases hg
      · rw [AList.lookup_erase_ne heq] at hg
        refine ⟨?_, hg⟩
        intro hsame
        rw [hsame] at hg
        exact heq (Option.some.inj (htoken token hg)).symm
    · intro ep hep
      rw [Flows.endpoints_update ((t.heap.get f).bound_tick now)] at hep
      exact hremap ep hep
  · exact htick

/-- The subflow `sf` of `f` is removed together with its remapped endpoint. -/
theorem Sound.eraseSubflow {t : FlowTables} (h : t.Sound) (f sf : FlowPtr) :
    Sound { t with
      heap := t.heap.update f fun flow => { flow with subflows := flow.subflows.erase sf }
      mpPortRemap := t.mpPortRemap.erase (t.heap.get sf).boundTo } := by
  have hbound : ∀ g, ((t.heap.update f fun flow =>
      { flow with subflows := flow.subflows.erase sf }).get g).boundTo = (t.heap.get g).boundTo :=
    fun g => Flows.boundTo_update rfl g
  refine ⟨h.made.update fun g hg => List.mem_of_mem_erase hg, h.present, h.agree.token, ?_⟩
  intro ep port hport
  have hport : (t.mpPortRemap.erase (t.heap.get sf).boundTo).lookup ep = some port := hport
  have hne : ep ≠ (t.heap.get sf).boundTo := by
    rintro rfl
    rw [AList.lookup_erase] at hport
    cases hport
  rw [AList.lookup_erase_ne hne] at hport
  obtain ⟨g, hg, hep, hlead⟩ := h.agree.remap ep port hport
  refine ⟨g, hg, ?_, (congrArg IPEndpoint.port (hbound g)).trans hlead⟩
  rw [Flows.endpoints, List.mem_cons, List.mem_map] at hep ⊢
  rcases hep with hself | ⟨sf', hsf', rfl⟩
  · exact .inl (hself.trans (hbound g).symm)
  · refine .inr ⟨sf', ?_, hbound sf'⟩
    have hsub : sf' ≠ sf := by
      rintro rfl
      exact hne rfl
    by_cases hf : g = f
    · rw [hf] at hsf' ⊢
      rw [Flows.get_update_same]
      exact (List.mem_erase_of_ne hsub).mpr hsf'
    · rw [Flows.get_update_of_ne hf]
      exact hsf'

theorem sound_maintainSubflows (now : ℤ) (f : FlowPtr) (sfs : List FlowPtr) {t : FlowTables}
    (h : t.Sound) : (maintainSubflows now f sfs t).Sound ∧
      (maintainSubflows now f sfs t).flows = t.flows := by
  induction sfs generalizing t with
  | nil => exact ⟨h, rfl⟩
  | cons sf sfs ih =>
    have htick := h.update ((t.heap.get sf).bound_tick now)
    have hbound : ((t.heap.update sf (Flow.tick now)).get sf).boundTo = (t.heap.get sf).boundTo :=
      Flows.boundTo_update ((t.heap.get sf).bound_tick now).1 sf
    rw [maintainSubflows]
    dsimp only
    split_ifs with hclosed
    · have herase := htick.eraseSubflow f sf
      rw [hbound] at herase
      exact ih herase
    · exact ih htick

theorem sound_withSubflowsMaintained {t : FlowTables} (h : t.Sound) (now : ℤ) (f : FlowPtr) :
    (t.withSubflowsMaintained now f).Sound ∧ (t.withSubflowsMaintained now f).flows = t.flows := by
  rw [withSubflowsMaintained]
  split_ifs
  · exact sound_maintainSubflows now f _ h
  · exact ⟨h, rfl⟩

/-- The loop; the flows it has not come to are still in the table. -/
theorem sound_maintainFlows (now : ℤ) (order : List (Sigma fun _ : FlowID => FlowPtr))
    {t : FlowTables} (h : t.Sound) (hnodup : order.NodupKeys)
    (hlookup : ∀ x ∈ order, t.flows.lookup x.1 = some x.2)
    (htidy : cleanLoop now order t = true) : (maintainFlows now order t).Sound := by
  induction order generalizing t with
  | nil => exact h
  | cons x xs ih =>
    obtain ⟨hsub, hflows⟩ := sound_withSubflowsMaintained h now x.2
    rw [cleanLoop, Bool.and_eq_true, Bool.or_eq_true, decide_eq_true_eq] at htidy
    have hx : (t.withSubflowsMaintained now x.2).flows.lookup x.1 = some x.2 := by
      rw [hflows]
      exact hlookup x (List.mem_cons_self ..)
    refine ih (sound_maintainLead hsub now hx ?_) (List.nodupKeys_cons.mp hnodup).2 ?_ htidy.2
    · intro hclosed
      exact htidy.1.resolve_left fun hopen => hopen hclosed
    · intro y hy
      have hne : y.1 ≠ x.1 := by
        intro heq
        refine (List.nodupKeys_cons.mp hnodup).1 ?_
        rw [← heq]
        exact List.mem_keys_of_mem hy
      have hold := hlookup y (List.mem_cons_of_mem _ hy)
      rw [maintainLead]
      dsimp only
      split_ifs
      · exact (AList.lookup_erase_ne hne).trans (hflows ▸ hold)
      · exact hflows ▸ hold

theorem grows_foldl {α : Type} {g : Flows → α → Flows}
    (hg : ∀ m x, m.Grows (g m x) ∧ (m.AllMade → (g m x).AllMade)) (xs : List α) (m : Flows) :
    m.Grows (xs.foldl g m) ∧ (m.AllMade → (xs.foldl g m).AllMade) := by
  induction xs generalizing m with
  | nil => exact ⟨Flows.Grows.refl m, id⟩
  | cons x xs ih =>
    exact ⟨(hg m x).1.trans (ih (g m x)).1, fun h => (ih (g m x)).2 ((hg m x).2 h)⟩

theorem grows_close (m : Flows) (f : FlowPtr) :
    m.Grows (m.update f Flow.close) ∧ (m.AllMade → (m.update f Flow.close).AllMade) :=
  ⟨Flows.grows_update (m.get f).bound_close, fun h => h.update_bound (m.get f).bound_close⟩

theorem grows_closeFlows (port : UInt16) (m : Flows) (x : Sigma fun _ : FlowID => FlowPtr) :
    m.Grows (closeFlows m port x) ∧ (m.AllMade → (closeFlows m port x).AllMade) := by
  rw [closeFlows]
  split_ifs
  · have hsub := grows_foldl grows_close (m.get x.2).subflows m
    have hlead := grows_close ((m.get x.2).subflows.foldl (fun heap sf => heap.update sf Flow.close) m) x.2
    exact ⟨hsub.1.trans hlead.1, fun h => hlead.2 (hsub.2 h)⟩
  · exact grows_close m x.2
  · exact ⟨Flows.Grows.refl m, id⟩

theorem sound_maintainFlowsAndSockets {t : FlowTables} (h : t.Sound) (now : ℤ)
    {order : List (Sigma fun _ : FlowID => FlowPtr)} (ports : List UInt16)
    (hperm : order.Perm t.flows.entries) (htidy : cleanLoop now order t = true) :
    (t.maintainFlowsAndSockets now order ports).Sound := by
  have hnodup : order.NodupKeys := (List.perm_nodupKeys hperm).mpr t.flows.nodupKeys
  have hloop := sound_maintainFlows now order h hnodup
    (fun x hx => AList.mem_lookup_iff.mpr (hperm.subset hx)) htidy
  have hclose := grows_foldl (fun m port =>
    grows_foldl (grows_closeFlows port) (maintainFlows now order t).flows.entries m) ports
    (maintainFlows now order t).heap
  exact hloop.heap hclose.1 (hclose.2 hloop.made)

/-! ### Runs -/

section Runs

variable {sha256Trunc : UInt64 → UInt32} {extraIPs : List IPAddress} {tunIP : IPAddress}
  {murmur : List UInt8 → UInt32 → UInt64 × UInt64} {randomSeed : UInt32}

theorem sound_step {t t' : FlowTables} {e : Event} (h : t.Sound)
    (htidy : tidy extraIPs t e = true)
    (hstep : step sha256Trunc extraIPs tunIP murmur randomSeed t e = some t') : t'.Sound := by
  cases e with
  | getFlowEgress tcp id localEp =>
    rw [← Option.some.inj hstep]
    refine (sound_getFlowEgress h id ?_).1
    intro f hf
    simp only [tidy, hf, Option.all_some, decide_eq_true_eq] at htidy
    exact htidy
  | getFlowIngress id localEp =>
    rw [← Option.some.inj hstep]
    exact (sound_findOrCreate h id localEp .passive).1
  | removeFlow id =>
    rw [← Option.some.inj hstep]
    refine sound_removeFlow h ?_
    intro f hf
    simp only [tidy, hf, Option.all_some] at htidy
    exact htidy
  | maintainFlowsAndSockets now order ports =>
    rw [step] at hstep
    split_ifs at hstep with hperm
    rw [← Option.some.inj hstep]
    exact sound_maintainFlowsAndSockets h now ports hperm htidy
  | learnToken f tcp =>
    rw [step] at hstep
    split_ifs at hstep
    rw [← Option.some.inj hstep, senderToken]
    split_ifs with hkeys
    · simp only [tidy, hkeys, Bool.not_true, Bool.false_or] at htidy
      obtain ⟨x, hx, hf⟩ := List.any_eq_true.mp htidy
      refine (sound_learn h ⟨x.1, ?_⟩ _).1
      rw [← of_decide_eq_true hf]
      exact AList.mem_lookup_iff.mpr hx
    · exact h
  | update f u =>
    rw [step] at hstep
    split_ifs at hstep
    rw [← Option.some.inj hstep]
    exact h.update (u.bound_apply (t.heap.get f))
  | getSubflowByAddr f localEp =>
    rw [step] at hstep
    split_ifs at hstep
    rw [← Option.some.inj hstep]
    obtain ⟨hgrows, hmade⟩ := t.heap.grows_getSubflowByAddr f localEp
    exact h.heap hgrows (hmade h.made)
  | getSubflowByPath f rp =>
    rw [step] at hstep
    split_ifs at hstep
    obtain ⟨r, hr, rfl⟩ := Option.map_eq_some_iff.mp hstep
    obtain ⟨hgrows, hmade⟩ := Flows.grows_getSubflowByPath hr
    exact h.heap hgrows (hmade h.made)

/-- The flow a packet is attached to is in the table. -/
def Attached (sha256Trunc : UInt64 → UInt32) (extraIPs : List IPAddress) (tunIP : IPAddress)
    (t : FlowTables) : Event → Prop
  | .getFlowEgress tcp id localEp =>
    (t.getFlowEgress sha256Trunc extraIPs tunIP tcp id localEp).2.Present
      (t.getFlowEgress sha256Trunc extraIPs tunIP tcp id localEp).1
  | .getFlowIngress id localEp =>
    (t.getFlowIngress id localEp).2.Present (t.getFlowIngress id localEp).1
  | _ => True

/-- In a run of tidy calls the tables agree in every state, and no packet is
attached to a flow that is not in the table. -/
theorem agree_of_tidy (sha256Trunc : UInt64 → UInt32) (extraIPs : List IPAddress)
    (tunIP : IPAddress) (murmur : List UInt8 → UInt32 → UInt64 × UInt64) (randomSeed : UInt32)
    {h : List Event}
    (htidy : Always start (step sha256Trunc extraIPs tunIP murmur randomSeed)
      (fun _ t e => tidy extraIPs t e = true) h) :
    Throughout start (step sha256Trunc extraIPs tunIP murmur randomSeed) (fun _ t => t.Agree) h ∧
      Always start (step sha256Trunc extraIPs tunIP murmur randomSeed)
        (fun _ t e => Attached sha256Trunc extraIPs tunIP t e) h := by
  have hsound : Throughout start (step sha256Trunc extraIPs tunIP murmur randomSeed)
      (fun _ t => t.Sound) h := by
    refine htidy.throughout sound_start ?_
    intro past t e t' _ ht he hstep
    exact sound_step ht he hstep
  constructor
  · intro past t hpast hsuffix
    exact (hsound past t hpast hsuffix).agree
  · intro past t e hpast hsuffix
    have ht := hsound past t hpast (suffix_of_cons hsuffix)
    have he := htidy past t e hpast hsuffix
    cases e with
    | getFlowEgress tcp id localEp =>
      refine (sound_getFlowEgress ht id ?_).2
      intro f hf
      simp only [tidy, hf, Option.all_some, decide_eq_true_eq] at he
      exact he
    | getFlowIngress id localEp => exact (sound_findOrCreate ht id localEp .passive).2
    | removeFlow id => trivial
    | maintainFlowsAndSockets now order ports => trivial
    | learnToken f tcp => trivial
    | update f u => trivial
    | getSubflowByAddr f localEp => trivial
    | getSubflowByPath f rp => trivial

end Runs

/-! ### A flow that is removed while its token is known -/

def exampleEndpoint : IPEndpoint := ⟨.v4 0x0a000001, 5000⟩

def exampleID : FlowID where
  src := ⟨IsdAsn.make 1 1, exampleEndpoint⟩
  dst := ⟨IsdAsn.make 1 2, ⟨.v4 0x0a000009, 80⟩⟩
  proto := ScionProto.tcp

/-- The third packet of a handshake tells the keys of both sides. -/
def exampleCapable : TCP where
  flags := TCP.Flags.ack
  optMask := { mpCapable := true }
  options := { mpCap := { fieldMask := { senderKey := true, receiverKey := true }
                          senderKey := 3
                          receiverKey := 7 } }

def exampleStep : FlowTables → Event → Option FlowTables :=
  step UInt64.toUInt32 [.v4 0x0a000002] (.v4 0x0a000001) exampleHash 0

def exampleCalls : List Event :=
  [.maintainFlowsAndSockets 0 [⟨exampleID, 0⟩] [], .getFlowEgress (some exampleCapable) exampleID
    exampleEndpoint]

theorem tidy_exampleCalls :
    Always start exampleStep (fun _ t e => tidy [.v4 0x0a000002] t e = true) exampleCalls :=
  always_of_check (by decide +kernel)

theorem agree_of_tidy_exampleCalls :
    Throughout start exampleStep (fun _ t => t.Agree) exampleCalls ∧
      Always start exampleStep (fun _ t e =>
        Attached UInt64.toUInt32 [.v4 0x0a000002] (.v4 0x0a000001) t e) exampleCalls :=
  agree_of_tidy UInt64.toUInt32 [.v4 0x0a000002] (.v4 0x0a000001) exampleHash 0 tidy_exampleCalls

theorem isSome_replay_removeFlow :
    (replay start exampleStep (.removeFlow exampleID :: exampleCalls)).isSome = true := by
  decide +kernel

/-- The tables after the flow was removed. -/
def removed : FlowTables :=
  (replay start exampleStep (.removeFlow exampleID :: exampleCalls)).get isSome_replay_removeFlow

theorem run_removed : Run start exampleStep (.removeFlow exampleID :: exampleCalls) removed :=
  run_of_replay (Option.some_get isSome_replay_removeFlow).symm

/-- The token still leads to the flow. -/
theorem not_forall_agree :
    ¬ ∀ (sha256Trunc : UInt64 → UInt32) (extraIPs : List IPAddress) (tunIP : IPAddress)
      (murmur : List UInt8 → UInt32 → UInt64 × UInt64) (randomSeed : UInt32) (h : List Event)
      (t : FlowTables), Run start (step sha256Trunc extraIPs tunIP murmur randomSeed) h t →
      t.Agree := by
  intro hall
  have hagree := hall UInt64.toUInt32 [.v4 0x0a000002] (.v4 0x0a000001) exampleHash 0 _ _
    run_removed
  obtain ⟨id, hid⟩ := hagree.token 7 0 (by decide +kernel)
  have hempty : removed.flows.entries = [] := by decide +kernel
  have hmem := AList.mem_lookup_iff.mp hid
  rw [hempty] at hmem
  cases hmem

end FlowTables

end Scion
