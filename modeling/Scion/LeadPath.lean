/-
The path of a lead flow (`scitra-tun/flow.hpp`, `scitra-tun/scitra_tun.cpp`).

The search for the subflow of an ingress packet compares the path of the lead flow without
asking whether there is one, if the lead flow is a multipath flow. An egress packet sets the
flag after it has stored a path. An ingress packet sets it first, and stores its own path only
if the flow is passive and the path can be reversed.

* `Flow.ingressSetsFlag` — the headers that make a multipath flow;
* `LeadPath.step` — the sections of packets on one lead flow;
* `LeadPath.safe_iff` — the runs in which no search compares a path that is missing.
-/
import Scion.FlowOwners
import Scion.SubflowPaths

namespace Scion

open Runs

/-! ### The flag -/

namespace Flow

/-- The header of an ingress packet sets the multipath flag. -/
def ingressSetsFlag (tcp : TCP) (f : Flow) : Bool :=
  !tcp.has (TCP.Flags.fin ||| TCP.Flags.rst) &&
    if f.state = .synSent then
      tcp.has TCP.Flags.syn && tcp.has TCP.Flags.ack && tcp.optMask.mpCapable
    else if tcp.has TCP.Flags.syn then tcp.optMask.mpJoin
    else decide (f.state ≠ .fin ∧ f.state ≠ .rst) && tcp.showsMultipath

theorem multipath_ingressTcp (tcp : TCP) (f : Flow) :
    (f.ingressTcp tcp).multipath = (f.multipath || f.ingressSetsFlag tcp) := by
  rw [ingressTcp, ingressSetsFlag]
  split_ifs <;> simp_all

end Flow

namespace Flows

variable {m : Flows} {f : FlowPtr}

/-- A subflow that is pushed changes the lists of subflows and nothing else. -/
theorem get_pushSubflow_of_lt (hf : f < m.next) (g : FlowPtr) (ep : IPEndpoint)
    (type : FlowType) :
    ∃ sfs, (m.pushSubflow g ep type).2.get f = { m.get f with subflows := sfs } := by
  rw [pushSubflow]
  dsimp only
  by_cases heq : f = g
  · refine ⟨(m.get f).subflows ++ [m.next], ?_⟩
    rw [heq, get_update_same, ← heq, get_make_of_lt hf]
    rfl
  · refine ⟨(m.get f).subflows, ?_⟩
    rw [get_update_of_ne heq, get_make_of_lt hf]

/-- Flows keep their path and their flag, while subflows may be pushed. -/
structure Undirected (m m' : Flows) : Prop where
  next : m.next ≤ m'.next
  path : ∀ f < m.next, (m'.get f).path = (m.get f).path
  multipath : ∀ f < m.next, (m'.get f).multipath = (m.get f).multipath

theorem Undirected.refl (m : Flows) : Undirected m m := ⟨le_refl _, fun _ _ => rfl, fun _ _ => rfl⟩

theorem undirected_pushSubflow (g : FlowPtr) (ep : IPEndpoint) (type : FlowType) :
    Undirected m (m.pushSubflow g ep type).2 := by
  refine ⟨Nat.le_succ _, fun f hf => ?_, fun f hf => ?_⟩
  · obtain ⟨sfs, hget⟩ := get_pushSubflow_of_lt hf g ep type
    rw [hget]
  · obtain ⟨sfs, hget⟩ := get_pushSubflow_of_lt hf g ep type
    rw [hget]

/-- `getSubflowByAddr` returns a flow that exists. -/
theorem getSubflowByAddr_lt (hmade : m.AllMade) (hf : f < m.next) (ep : IPEndpoint) :
    Undirected m (m.getSubflowByAddr f ep).2 ∧
      (m.getSubflowByAddr f ep).1 < (m.getSubflowByAddr f ep).2.next := by
  rcases m.getSubflowByAddr_cases f ep with ⟨sf, hfound, hget⟩ | ⟨-, hget⟩
  · rw [hget]
    refine ⟨Undirected.refl m, ?_⟩
    rw [findSubflowByAddr] at hfound
    split_ifs at hfound
    · exact Option.some.inj hfound ▸ hf
    · exact Option.some.inj hfound ▸ hf
    · exact hmade f hf sf (List.mem_of_find?_eq_some hfound)
  · rw [hget]
    exact ⟨undirected_pushSubflow f ep .active, Nat.lt_succ_self _⟩

theorem getSubflowByPath_lt {murmur : List UInt8 → UInt32 → UInt64 × UInt64}
    {randomSeed : UInt32} {rp : RawPathContents} {addrPool : List IPAddress}
    {sf : Option FlowPtr} {m' : Flows} (hmade : m.AllMade) (hf : f < m.next)
    (h : m.getSubflowByPath murmur randomSeed f rp addrPool = some (sf, m')) :
    Undirected m m' ∧ ∀ g, sf = some g → g < m'.next := by
  rcases getSubflowByPath_cases h with ⟨g, hfound, rfl, rfl⟩ | ⟨addr, -, -, rfl, rfl⟩ |
    ⟨-, -, rfl, rfl⟩
  · refine ⟨Undirected.refl m', ?_⟩
    rintro g' hg'
    rw [← Option.some.inj hg']
    rw [findSubflowByPath] at hfound
    split_ifs at hfound
    · exact Option.some.inj (Option.some.inj hfound) ▸ hf
    · obtain ⟨path, -, hpath⟩ := Option.map_eq_some_iff.mp hfound
      split_ifs at hpath
      · exact Option.some.inj hpath ▸ hf
      · exact hmade f hf g (List.mem_of_find?_eq_some hpath)
  · refine ⟨undirected_pushSubflow f _ .passive, fun g hg => ?_⟩
    rw [← Option.some.inj hg]
    exact Nat.lt_succ_self _
  · exact ⟨Undirected.refl m', fun g hg => by cases hg⟩

/-- The search of a lead flow is defined unless the path of a multipath flow is missing. -/
theorem findSubflowByPath_ne_none {murmur : List UInt8 → UInt32 → UInt64 × UInt64}
    {randomSeed : UInt32} {rp : RawPathContents} :
    m.findSubflowByPath murmur randomSeed f rp ≠ none ↔
      ((m.get f).multipath = true → (m.get f).path ≠ none) := by
  rw [findSubflowByPath]
  cases (m.get f).multipath with
  | true => simp
  | false => simp

end Flows

namespace LeadPath

open Subflows (lead)

/-! ### The system -/

inductive EgressPhase
  /-- After `getSubflowByAddr`. -/
  | bound
  /-- After `getPath`. -/
  | read (path : Option Path)
  /-- Before `setPath`. -/
  | chosen (path : Path)
  /-- The packet is translated. -/
  | stored
  deriving DecidableEq

structure EgressPacket where
  flow : FlowPtr
  phase : EgressPhase
  deriving DecidableEq

/-- An ingress packet with its flow. -/
structure IngressPacket where
  flow : FlowPtr
  /-- The path in the direction of the answer, if it can be reversed. -/
  rp : Option RawPathContents
  /-- There is no address for the subflow. -/
  rejected : Bool
  deriving DecidableEq

structure State where
  flows : Flows
  egress : ℕ → Option EgressPacket
  ingress : ℕ → Option IngressPacket

inductive Event
  | getSubflowByAddr (queue : ℕ) (localEp : IPEndpoint)
  | getPath (queue : ℕ)
  /-- The choice of a path; `found` is the result of `findFlow`. -/
  | choosePath (queue : ℕ) (mpJoin : Bool) (env : Surroundings) (found : Option FlowPtr)
  | setPath (queue : ℕ)
  | updateStateEgress (queue : ℕ) (tcp : Option TCP) (qos : UInt8) (t : ℤ)
  /-- The search for the flow of an ingress packet; the path is as it was received. -/
  | getSubflowByPath (socket : ℕ) (rp : RawPathContents)
  /-- The section that updates state and path. -/
  | updateIngress (socket : ℕ) (nh : IPEndpoint) (tcp : Option TCP) (t : ℤ)
  | rejectMptcpSubflow (socket : ℕ) (tcp : Option TCP) (t : ℤ)
  /-- The translation does not pass the packet on. -/
  | dropEgress (queue : ℕ)
  | dropIngress (socket : ℕ)
  /-- A section of other parts of the translator. -/
  | maintain (f : FlowPtr) (u : FlowUpdate)

/-- Sections that leave paths and flag alone. -/
def isMaintenance : FlowUpdate → Bool
  | .setMptcpToken _ | .close | .tick _ => true
  | _ => false

def start (boundTo : IPEndpoint) (type : FlowType) : State where
  flows := ⟨fun _ => Flow.create boundTo type, 1⟩
  egress := fun _ => none
  ingress := fun _ => none

def setEgress (s : State) (queue : ℕ) (packet : Option EgressPacket) : State :=
  { s with egress := Function.update s.egress queue packet }

def setIngress (s : State) (socket : ℕ) (packet : Option IngressPacket) : State :=
  { s with ingress := Function.update s.ingress socket packet }

def update (s : State) (f : FlowPtr) (g : Flow → Flow) : State :=
  { s with flows := s.flows.update f g }

/-- The path a packet goes on with, if any. -/
def afterChoice (f : FlowPtr) : PathChoice → Option EgressPacket
  | .keep path => some ⟨f, .chosen path⟩
  | .replace path => some ⟨f, .chosen path⟩
  | .refuse => none

section Hash

variable (murmur : List UInt8 → UInt32 → UInt64 × UInt64) (randomSeed : UInt32)
  (extraIPs : List IPAddress)

/-- The search for the flow of an ingress packet. A path that is missing is undefined
behaviour, and there is no state after it. -/
def findIngress (s : State) (socket : ℕ) (rp : RawPathContents) : Option State :=
  if extraIPs ≠ [] ∧ (s.flows.get lead).multipath = true then
    match SubflowPaths.reversed rp with
    | none => some s
    | some rp =>
      (s.flows.getSubflowByPath murmur randomSeed lead rp extraIPs).map fun
        | (some sf, m) => setIngress { s with flows := m } socket (some ⟨sf, some rp, false⟩)
        | (none, m) => setIngress { s with flows := m } socket (some ⟨lead, some rp, true⟩)
  else some (setIngress s socket (some ⟨lead, SubflowPaths.reversed rp, false⟩))

/-- One section of one packet. -/
def step (s : State) : Event → Option State
  | .getSubflowByAddr queue localEp =>
    if s.egress queue = none then
      let (sf, m) := s.flows.getSubflowByAddr lead localEp
      some (setEgress { s with flows := m } queue (some ⟨sf, .bound⟩))
    else none
  | .getPath queue =>
    match s.egress queue with
    | some ⟨f, .bound⟩ => some (setEgress s queue (some ⟨f, .read (s.flows.get f).path⟩))
    | _ => none
  | .choosePath queue mpJoin env found =>
    match s.egress queue with
    | some ⟨f, .read path⟩ =>
      let flow := s.flows.get f
      let multipath := flow.multipath || mpJoin
      let others := found.map s.flows.getAllPaths
      some (setEgress s queue (afterChoice f (choosePath flow.type multipath env others path)))
    | _ => none
  | .setPath queue =>
    match s.egress queue with
    | some ⟨f, .chosen path⟩ =>
      some (setEgress (update s f (Flow.setPath (some path))) queue (some ⟨f, .stored⟩))
    | _ => none
  | .updateStateEgress queue tcp qos t =>
    match s.egress queue with
    | some ⟨f, .stored⟩ =>
      some (setEgress (update s f (Flow.updateStateEgress tcp qos t)) queue none)
    | _ => none
  | .getSubflowByPath socket rp =>
    if s.ingress socket = none then findIngress murmur randomSeed extraIPs s socket rp else none
  | .updateIngress socket nh tcp t =>
    match s.ingress socket with
    | some ⟨f, rp, false⟩ =>
      some (setIngress (update s f (SubflowPaths.receive murmur randomSeed rp nh tcp t)) socket none)
    | _ => none
  | .rejectMptcpSubflow socket tcp t =>
    match s.ingress socket with
    | some ⟨f, _, true⟩ =>
      some (setIngress (update s f (Flow.updateStateIngress tcp t)) socket none)
    | _ => none
  | .dropEgress queue => some (setEgress s queue none)
  | .dropIngress socket => some (setIngress s socket none)
  | .maintain f u =>
    if f < s.flows.next ∧ isMaintenance u = true then some (update s f (u.apply murmur randomSeed))
    else none

/-- No ingress packet makes the search compare a path that is missing. -/
def Safe (s : State) : Prop :=
  extraIPs ≠ [] → ∀ rp, s.flows.findSubflowByPath murmur randomSeed lead rp ≠ none

end Hash

/-- A packet makes the lead flow, which has no path, a multipath flow, and its own path is not
stored. -/
def FlagsUnrouted (extraIPs : List IPAddress) (s : State) : Event → Prop
  | .updateIngress socket _ (some tcp) _ =>
    extraIPs ≠ [] ∧ ∃ rp, s.ingress socket = some ⟨lead, rp, false⟩ ∧
      (s.flows.get lead).path = none ∧ (s.flows.get lead).ingressSetsFlag tcp = true ∧
      ((s.flows.get lead).type = .active ∨ rp = none)
  | _ => False

variable {murmur : List UInt8 → UInt32 → UInt64 × UInt64} {randomSeed : UInt32}
  {extraIPs : List IPAddress} {s s' : State} {e : Event}

theorem safe_iff_path : Safe murmur randomSeed extraIPs s ↔
    (extraIPs ≠ [] → (s.flows.get lead).multipath = true → (s.flows.get lead).path ≠ none) := by
  rw [Safe]
  constructor
  · intro h hextra
    exact Flows.findSubflowByPath_ne_none.mp (h hextra RawPathContents.empty)
  · intro h hextra rp
    exact Flows.findSubflowByPath_ne_none.mpr (h hextra)

/-! ### The section of an ingress packet -/

/-- A passive flow takes the first path that it is offered. -/
theorem path_updatePassivePath_eq_none_iff (rp : RawPathContents) (nh : IPEndpoint) (f : Flow) :
    (f.updatePassivePath murmur randomSeed rp nh).path = none ↔
      f.path = none ∧ f.type = .active := by
  rw [Flow.updatePassivePath, Flow.replacesPath, Flow.acceptsPassivePath]
  cases hpath : f.path with
  | some path =>
    refine iff_of_false ?_ fun h => by cases h.1
    split_ifs <;> simp [hpath]
  | none =>
    cases htype : f.type with
    | active => simp [hpath]
    | passive => simp

theorem path_receive_eq_none_iff (rp : Option RawPathContents) (nh : IPEndpoint)
    (tcp : Option TCP) (t : ℤ) (f : Flow) :
    (SubflowPaths.receive murmur randomSeed rp nh tcp t f).path = none ↔
      f.path = none ∧ (f.type = .active ∨ rp = none) := by
  obtain ⟨⟨-, htype, -⟩, hpath, -⟩ := f.touched_updateStateIngress tcp t
  cases rp with
  | none =>
    change (f.updateStateIngress tcp t).path = none ↔ _
    rw [hpath]
    exact ⟨fun h => ⟨h, .inr rfl⟩, fun h => h.1⟩
  | some rp =>
    change ((f.updateStateIngress tcp t).updatePassivePath murmur randomSeed rp nh).path = none ↔ _
    rw [path_updatePassivePath_eq_none_iff, hpath, htype]
    simp

theorem multipath_receive (rp : Option RawPathContents) (nh : IPEndpoint) (tcp : Option TCP)
    (t : ℤ) (f : Flow) :
    (SubflowPaths.receive murmur randomSeed rp nh tcp t f).multipath =
      (f.multipath || tcp.any f.ingressSetsFlag) := by
  have hstate : (f.updateStateIngress tcp t).multipath =
      (f.multipath || tcp.any f.ingressSetsFlag) := by
    cases tcp with
    | none => exact (Bool.or_false _).symm
    | some tcp => exact f.multipath_ingressTcp tcp
  cases rp with
  | none => exact hstate
  | some rp =>
    rw [← hstate]
    change ((f.updateStateIngress tcp t).updatePassivePath murmur randomSeed rp nh).multipath = _
    rw [Flow.updatePassivePath]
    split_ifs <;> rfl

theorem maintained_apply {u : FlowUpdate} (hu : isMaintenance u = true) (f : Flow) :
    (u.apply murmur randomSeed f).path = f.path ∧
      (u.apply murmur randomSeed f).multipath = f.multipath := by
  cases u with
  | setMptcpToken token => exact ⟨rfl, rfl⟩
  | setPath path => cases hu
  | updatePassivePath rp nh => cases hu
  | close => exact ⟨rfl, rfl⟩
  | tick now =>
    rcases f.tick_cases now with heq | ⟨heq, -⟩ | ⟨heq, -⟩ | ⟨heq, -⟩ <;>
      rw [FlowUpdate.apply, heq] <;> exact ⟨rfl, rfl⟩
  | updateStateEgress tcp qos t => cases hu
  | updateStateIngress tcp t => cases hu

/-! ### The invariant -/

/-- Flows that have a path keep one. -/
structure KeepsPaths (m m' : Flows) : Prop where
  next : m.next ≤ m'.next
  path : ∀ f < m.next, (m.get f).path ≠ none → (m'.get f).path ≠ none
  made : m.AllMade → m'.AllMade

theorem KeepsPaths.refl (m : Flows) : KeepsPaths m m := ⟨le_refl _, fun _ _ h => h, id⟩

theorem keepsPaths_update {m : Flows} {f : FlowPtr} {g : Flow → Flow}
    (hbound : (m.get f).Bound (g (m.get f)))
    (hpath : (m.get f).path ≠ none → (g (m.get f)).path ≠ none) : KeepsPaths m (m.update f g) := by
  refine ⟨le_refl _, fun f' _ h => ?_, fun h => h.update_bound hbound⟩
  by_cases hf : f' = f
  · rw [hf] at h ⊢
    rw [Flows.get_update_same]
    exact hpath h
  · rwa [Flows.get_update_of_ne hf]

/-- Packets have a flow; one that has been translated has left its path there. -/
structure Sound (s : State) : Prop where
  lead : lead < s.flows.next
  made : s.flows.AllMade
  egress : ∀ queue packet, s.egress queue = some packet → packet.flow < s.flows.next ∧
    (packet.phase = .stored → (s.flows.get packet.flow).path ≠ none)
  ingress : ∀ socket packet, s.ingress socket = some packet → packet.flow < s.flows.next ∧
    (packet.rejected = true → (s.flows.get packet.flow).path ≠ none)

theorem sound_start (boundTo : IPEndpoint) (type : FlowType) : Sound (start boundTo type) where
  lead := Nat.zero_lt_one
  made := fun _ _ _ h => absurd h List.not_mem_nil
  egress := fun _ _ h => by cases h
  ingress := fun _ _ h => by cases h

theorem Sound.flows (h : Sound s) {m : Flows} (hkeeps : KeepsPaths s.flows m) :
    Sound { s with flows := m } where
  lead := h.lead.trans_le hkeeps.next
  made := hkeeps.made h.made
  egress := fun queue packet hpacket =>
    ⟨(h.egress queue packet hpacket).1.trans_le hkeeps.next, fun hphase =>
      hkeeps.path _ (h.egress queue packet hpacket).1 ((h.egress queue packet hpacket).2 hphase)⟩
  ingress := fun socket packet hpacket =>
    ⟨(h.ingress socket packet hpacket).1.trans_le hkeeps.next, fun hrejected =>
      hkeeps.path _ (h.ingress socket packet hpacket).1
        ((h.ingress socket packet hpacket).2 hrejected)⟩

theorem Sound.setEgress (h : Sound s) {queue : ℕ} {packet : Option EgressPacket}
    (hpacket : ∀ p, packet = some p → p.flow < s.flows.next ∧
      (p.phase = .stored → (s.flows.get p.flow).path ≠ none)) :
    Sound (setEgress s queue packet) := by
  refine ⟨h.lead, h.made, fun queue' p hp => ?_, h.ingress⟩
  change Function.update s.egress queue packet queue' = some p at hp
  by_cases heq : queue' = queue
  · rw [heq, Function.update_self] at hp
    exact hpacket p hp
  · rw [Function.update_of_ne heq] at hp
    exact h.egress queue' p hp

theorem Sound.setIngress (h : Sound s) {socket : ℕ} {packet : Option IngressPacket}
    (hpacket : ∀ p, packet = some p → p.flow < s.flows.next ∧
      (p.rejected = true → (s.flows.get p.flow).path ≠ none)) :
    Sound (setIngress s socket packet) := by
  refine ⟨h.lead, h.made, h.egress, fun socket' p hp => ?_⟩
  change Function.update s.ingress socket packet socket' = some p at hp
  by_cases heq : socket' = socket
  · rw [heq, Function.update_self] at hp
    exact hpacket p hp
  · rw [Function.update_of_ne heq] at hp
    exact h.ingress socket' p hp

theorem keepsPaths_receive {m : Flows} {f : FlowPtr} (rp : Option RawPathContents)
    (nh : IPEndpoint) (tcp : Option TCP) (t : ℤ) :
    KeepsPaths m (m.update f (SubflowPaths.receive murmur randomSeed rp nh tcp t)) := by
  refine keepsPaths_update ?_ fun h hnone => h ((path_receive_eq_none_iff rp nh tcp t _).mp hnone).1
  have hstate := ((m.get f).touched_updateStateIngress tcp t).1
  cases rp with
  | none => exact hstate
  | some rp => exact hstate.trans (Flow.bound_updatePassivePath rp nh _)

/-! ### Sections -/

/-- The search compares the path of a multipath flow that has one. -/
theorem findIngress_cases {socket : ℕ} {rp : RawPathContents}
    (h : findIngress murmur randomSeed extraIPs s socket rp = some s') :
    s' = s ∨ s' = setIngress s socket (some ⟨lead, SubflowPaths.reversed rp, false⟩) ∨
    (s.flows.get lead).path ≠ none ∧ ∃ reversed sf m,
      s.flows.getSubflowByPath murmur randomSeed lead reversed extraIPs = some (sf, m) ∧
      s' = setIngress { s with flows := m } socket
        (some ⟨sf.getD lead, some reversed, sf.isNone⟩) := by
  rw [findIngress] at h
  by_cases hsearch : extraIPs ≠ [] ∧ (s.flows.get lead).multipath = true
  · rw [if_pos hsearch] at h
    cases hrp : SubflowPaths.reversed rp with
    | none =>
      rw [hrp] at h
      exact .inl (Option.some.inj h).symm
    | some reversed =>
      rw [hrp] at h
      obtain ⟨⟨sf, m⟩, hget, hresult⟩ := Option.map_eq_some_iff.mp h
      refine .inr (.inr ⟨?_, reversed, sf, m, hget, ?_⟩)
      · -- without a path there is no state after the search
        intro hnone
        have hfind : s.flows.findSubflowByPath murmur randomSeed lead reversed = none := by
          by_contra hdefined
          exact Flows.findSubflowByPath_ne_none.mp hdefined hsearch.2 hnone
        rw [Flows.getSubflowByPath, hfind] at hget
        cases hget
      · cases sf with
        | none => exact hresult.symm
        | some sf => exact hresult.symm
  · rw [if_neg hsearch] at h
    exact .inr (.inl (Option.some.inj h).symm)

theorem safe_iff_of_lead (hpath : (s'.flows.get lead).path = (s.flows.get lead).path)
    (hmulti : (s'.flows.get lead).multipath = (s.flows.get lead).multipath) :
    Safe murmur randomSeed extraIPs s' ↔ Safe murmur randomSeed extraIPs s := by
  rw [safe_iff_path, safe_iff_path, hpath, hmulti]

theorem safe_of_path (h : (s.flows.get lead).path ≠ none) : Safe murmur randomSeed extraIPs s :=
  safe_iff_path.mpr fun _ _ => h

/-- A section on a flow that has a path afterwards. -/
theorem safe_update {f : FlowPtr} {g : Flow → Flow} (h : Safe murmur randomSeed extraIPs s)
    (hg : (g (s.flows.get f)).path ≠ none) : Safe murmur randomSeed extraIPs (update s f g) := by
  by_cases hf : lead = f
  · refine safe_of_path ?_
    rw [update, hf, Flows.get_update_same]
    exact hg
  · refine (safe_iff_of_lead ?_ ?_).mpr h
    · rw [update, Flows.get_update_of_ne hf]
    · rw [update, Flows.get_update_of_ne hf]

/-- What a section has done: packets are sound, and the search is safe after it unless the flag
has been set without a path. -/
def StepsTo (murmur : List UInt8 → UInt32 → UInt64 × UInt64) (randomSeed : UInt32)
    (extraIPs : List IPAddress) (s : State) (e : Event) (s' : State) : Prop :=
  Sound s' ∧ (Safe murmur randomSeed extraIPs s →
    (Safe murmur randomSeed extraIPs s' ↔ ¬FlagsUnrouted extraIPs s e))

theorem StepsTo.of_safe (hsound : Sound s')
    (hsafe : Safe murmur randomSeed extraIPs s → Safe murmur randomSeed extraIPs s')
    (hflag : ¬FlagsUnrouted extraIPs s e) : StepsTo murmur randomSeed extraIPs s e s' :=
  ⟨hsound, fun h => iff_of_true (hsafe h) hflag⟩

theorem keepsPaths_of_undirected {m m' : Flows} (h : m.Undirected m')
    (hmade : m.AllMade → m'.AllMade) : KeepsPaths m m' :=
  ⟨h.next, fun f hf hpath => h.path f hf ▸ hpath, hmade⟩

theorem safe_of_undirected {m : Flows} (hlead : lead < s.flows.next) (h : s.flows.Undirected m) :
    Safe murmur randomSeed extraIPs { s with flows := m } ↔ Safe murmur randomSeed extraIPs s :=
  safe_iff_of_lead (h.path lead hlead) (h.multipath lead hlead)

/-- The packet that has its path stored makes the flow a multipath flow after that. -/
theorem stepsTo_receive (h : Sound s) {socket : ℕ} {f : FlowPtr} {rp : Option RawPathContents}
    (hpacket : s.ingress socket = some ⟨f, rp, false⟩) (nh : IPEndpoint) (tcp : Option TCP)
    (t : ℤ) : StepsTo murmur randomSeed extraIPs s (.updateIngress socket nh tcp t)
      (setIngress (update s f (SubflowPaths.receive murmur randomSeed rp nh tcp t)) socket none) := by
  refine ⟨(h.flows (keepsPaths_receive rp nh tcp t)).setIngress fun p hp => (by cases hp), ?_⟩
  intro hsafe
  by_cases hf : f = lead
  · rw [hf] at hpacket ⊢
    have hlead : ((setIngress (update s lead (SubflowPaths.receive murmur randomSeed rp nh tcp t))
        socket none).flows.get lead) =
        SubflowPaths.receive murmur randomSeed rp nh tcp t (s.flows.get lead) := by
      rw [setIngress, update, Flows.get_update_same]
    have hbefore := safe_iff_path.mp hsafe
    rw [safe_iff_path, hlead, multipath_receive, Ne, Ne, path_receive_eq_none_iff]
    cases tcp with
    | none =>
      refine iff_of_true ?_ id
      intro hextra hmulti hnone
      exact hbefore hextra (by simpa using hmulti) hnone.1
    | some tcp =>
      -- both sides ask for a flag that is set and a path that is not stored
      simp only [FlagsUnrouted, hpacket, Option.any_some, Bool.or_eq_true]
      constructor
      · rintro hafter ⟨hextra, rp', hrp, hnone, hsets, hwhy⟩
        have hrp : rp = rp' := congrArg IngressPacket.rp (Option.some.inj hrp)
        exact hafter hextra (.inr hsets) ⟨hnone, hrp ▸ hwhy⟩
      · rintro hflag hextra (hmulti | hsets) ⟨hnone, hwhy⟩
        · exact hbefore hextra hmulti hnone
        · exact hflag ⟨hextra, rp, rfl, hnone, hsets, hwhy⟩
  · have hother : lead ≠ f := fun heq => hf heq.symm
    refine iff_of_true ((safe_iff_of_lead ?_ ?_).mpr hsafe) ?_
    · rw [setIngress, update, Flows.get_update_of_ne hother]
    · rw [setIngress, update, Flows.get_update_of_ne hother]
    · cases tcp with
      | none => exact id
      | some tcp =>
        rintro ⟨-, rp', hrp, -⟩
        rw [hpacket] at hrp
        exact hf (congrArg IngressPacket.flow (Option.some.inj hrp))

/-- Such a section leaves a sound state, which is safe if it was. -/
theorem routed_update (h : Sound s) {f : FlowPtr} {g : Flow → Flow}
    (hbound : (s.flows.get f).Bound (g (s.flows.get f)))
    (hpath : (g (s.flows.get f)).path ≠ none) :
    Sound (update s f g) ∧
      (Safe murmur randomSeed extraIPs s → Safe murmur randomSeed extraIPs (update s f g)) :=
  ⟨h.flows (keepsPaths_update hbound fun _ => hpath), fun hsafe => safe_update hsafe hpath⟩

/-- A packet of a subflow that was made for it leaves a lead flow that has a path. -/
theorem stepsTo_findIngress (h : Sound s) {socket : ℕ} {rp : RawPathContents}
    (hfind : findIngress murmur randomSeed extraIPs s socket rp = some s') :
    StepsTo murmur randomSeed extraIPs s (.getSubflowByPath socket rp) s' := by
  rcases findIngress_cases hfind with rfl | rfl | ⟨hpath, reversed, sf, m, hget, rfl⟩
  · exact .of_safe h id id
  · refine .of_safe (h.setIngress ?_) id id
    intro p hp
    rw [← Option.some.inj hp]
    exact ⟨h.lead, fun hrejected => by cases hrejected⟩
  · obtain ⟨hundirected, hlt⟩ := Flows.getSubflowByPath_lt h.made h.lead hget
    have hkeeps := keepsPaths_of_undirected hundirected (Flows.grows_getSubflowByPath hget).2
    refine .of_safe ((h.flows hkeeps).setIngress ?_) (safe_of_undirected h.lead hundirected).mpr id
    intro p hp
    rw [← Option.some.inj hp]
    cases sf with
    | none => exact ⟨h.lead.trans_le hkeeps.next, fun _ => hkeeps.path lead h.lead hpath⟩
    | some sf => exact ⟨hlt sf rfl, fun hrejected => by cases hrejected⟩

theorem stepsTo_getSubflowByAddr (h : Sound s) (queue : ℕ) (localEp : IPEndpoint) :
    StepsTo murmur randomSeed extraIPs s (.getSubflowByAddr queue localEp)
      (setEgress { s with flows := (s.flows.getSubflowByAddr lead localEp).2 } queue
        (some ⟨(s.flows.getSubflowByAddr lead localEp).1, .bound⟩)) := by
  obtain ⟨hundirected, hlt⟩ := Flows.getSubflowByAddr_lt h.made h.lead localEp
  have hkeeps := keepsPaths_of_undirected hundirected
    (s.flows.grows_getSubflowByAddr lead localEp).2
  refine .of_safe ((h.flows hkeeps).setEgress ?_) (safe_of_undirected h.lead hundirected).mpr id
  intro p hp
  rw [← Option.some.inj hp]
  exact ⟨hlt, fun hphase => by cases hphase⟩

/-- A packet goes on with the path that is chosen, or is dropped. -/
theorem stepsTo_choosePath (h : Sound s) {queue : ℕ} {f : FlowPtr} {path : Option Path}
    (hpacket : s.egress queue = some ⟨f, .read path⟩) (mpJoin : Bool) (env : Surroundings)
    (found : Option FlowPtr) (choice : PathChoice) :
    StepsTo murmur randomSeed extraIPs s (.choosePath queue mpJoin env found)
      (setEgress s queue (afterChoice f choice)) := by
  refine .of_safe (h.setEgress ?_) id id
  intro p hp
  have hlt := (h.egress queue _ hpacket).1
  cases choice with
  | keep path =>
    rw [← Option.some.inj hp]
    exact ⟨hlt, fun hphase => by cases hphase⟩
  | replace path =>
    rw [← Option.some.inj hp]
    exact ⟨hlt, fun hphase => by cases hphase⟩
  | refuse => cases hp

theorem stepsTo_setPath (h : Sound s) {queue : ℕ} {f : FlowPtr} {path : Path}
    (hpacket : s.egress queue = some ⟨f, .chosen path⟩) :
    StepsTo murmur randomSeed extraIPs s (.setPath queue)
      (setEgress (update s f (Flow.setPath (some path))) queue (some ⟨f, .stored⟩)) := by
  have hsome : ((s.flows.get f).setPath (some path)).path ≠ none := Option.some_ne_none path
  obtain ⟨hsound, hsafe⟩ := routed_update h ((s.flows.get f).bound_setPath (some path)) hsome
  refine .of_safe (hsound.setEgress ?_) hsafe id
  intro p hp
  rw [← Option.some.inj hp]
  refine ⟨(h.egress queue _ hpacket).1, fun _ => ?_⟩
  change ((s.flows.update f (Flow.setPath (some path))).get f).path ≠ none
  rw [Flows.get_update_same]
  exact hsome

/-- The path that the packet has stored before is still there. -/
theorem stepsTo_updateStateEgress (h : Sound s) {queue : ℕ} {f : FlowPtr}
    (hpacket : s.egress queue = some ⟨f, .stored⟩) (tcp : Option TCP) (qos : UInt8) (t : ℤ) :
    StepsTo murmur randomSeed extraIPs s (.updateStateEgress queue tcp qos t)
      (setEgress (update s f (Flow.updateStateEgress tcp qos t)) queue none) := by
  have hpath := (h.egress queue _ hpacket).2 rfl
  obtain ⟨hbound, hsame, -⟩ := (s.flows.get f).touched_updateStateEgress tcp qos t
  obtain ⟨hsound, hsafe⟩ := routed_update h hbound (hsame.symm ▸ hpath)
  exact .of_safe (hsound.setEgress fun p hp => by cases hp) hsafe id

/-- The lead flow had a path when the packet was compared with it. -/
theorem stepsTo_rejectMptcpSubflow (h : Sound s) {socket : ℕ} {f : FlowPtr}
    {rp : Option RawPathContents} (hpacket : s.ingress socket = some ⟨f, rp, true⟩)
    (tcp : Option TCP) (t : ℤ) :
    StepsTo murmur randomSeed extraIPs s (.rejectMptcpSubflow socket tcp t)
      (setIngress (update s f (Flow.updateStateIngress tcp t)) socket none) := by
  have hpath := (h.ingress socket _ hpacket).2 rfl
  obtain ⟨hbound, hsame, -⟩ := (s.flows.get f).touched_updateStateIngress tcp t
  obtain ⟨hsound, hsafe⟩ := routed_update h hbound (hsame.symm ▸ hpath)
  exact .of_safe (hsound.setIngress fun p hp => by cases hp) hsafe id

/-- Maintenance neither touches paths nor the flag of multipath flows. -/
theorem stepsTo_maintain (h : Sound s) (f : FlowPtr) {u : FlowUpdate}
    (hu : isMaintenance u = true) :
    StepsTo murmur randomSeed extraIPs s (.maintain f u)
      (update s f (u.apply murmur randomSeed)) := by
  obtain ⟨hpath, hmulti⟩ := @maintained_apply murmur randomSeed u hu (s.flows.get f)
  have hkeeps := keepsPaths_update (u.bound_apply (s.flows.get f)) fun hold => hpath.symm ▸ hold
  refine .of_safe (h.flows hkeeps) (fun hsafe => (safe_iff_of_lead ?_ ?_).mpr hsafe) id
  · by_cases hf : lead = f
    · rw [update, hf, Flows.get_update_same, hpath]
    · rw [update, Flows.get_update_of_ne hf]
  · by_cases hf : lead = f
    · rw [update, hf, Flows.get_update_same, hmulti]
    · rw [update, Flows.get_update_of_ne hf]

theorem stepsTo_step (h : Sound s) (hstep : step murmur randomSeed extraIPs s e = some s') :
    StepsTo murmur randomSeed extraIPs s e s' := by
  cases e with
  | getSubflowByAddr queue localEp =>
    rw [step] at hstep
    split_ifs at hstep
    rw [← Option.some.inj hstep]
    exact stepsTo_getSubflowByAddr h queue localEp
  | getPath queue =>
    rw [step] at hstep
    split at hstep
    · next f hpacket =>
      rw [← Option.some.inj hstep]
      refine .of_safe (h.setEgress ?_) id id
      intro p hp
      rw [← Option.some.inj hp]
      exact ⟨(h.egress queue _ hpacket).1, fun hphase => by cases hphase⟩
    · cases hstep
  | choosePath queue mpJoin env found =>
    rw [step] at hstep
    split at hstep
    · next f path hpacket =>
      rw [← Option.some.inj hstep]
      exact stepsTo_choosePath h hpacket mpJoin env found _
    · cases hstep
  | setPath queue =>
    rw [step] at hstep
    split at hstep
    · next f path hpacket =>
      rw [← Option.some.inj hstep]
      exact stepsTo_setPath h hpacket
    · cases hstep
  | updateStateEgress queue tcp qos t =>
    rw [step] at hstep
    split at hstep
    · next f hpacket =>
      rw [← Option.some.inj hstep]
      exact stepsTo_updateStateEgress h hpacket tcp qos t
    · cases hstep
  | getSubflowByPath socket rp =>
    rw [step] at hstep
    split_ifs at hstep
    exact stepsTo_findIngress h hstep
  | updateIngress socket nh tcp t =>
    rw [step] at hstep
    split at hstep
    · next f rp hpacket =>
      rw [← Option.some.inj hstep]
      exact stepsTo_receive h hpacket nh tcp t
    · cases hstep
  | rejectMptcpSubflow socket tcp t =>
    rw [step] at hstep
    split at hstep
    · next f rp hpacket =>
      rw [← Option.some.inj hstep]
      exact stepsTo_rejectMptcpSubflow h hpacket tcp t
    · cases hstep
  | dropEgress queue =>
    rw [← Option.some.inj hstep]
    exact .of_safe (h.setEgress fun p hp => by cases hp) id id
  | dropIngress socket =>
    rw [← Option.some.inj hstep]
    exact .of_safe (h.setIngress fun p hp => by cases hp) id id
  | maintain f u =>
    rw [step] at hstep
    split_ifs at hstep with hu
    rw [← Option.some.inj hstep]
    exact stepsTo_maintain h f hu.2

theorem sound_of_run {boundTo : IPEndpoint} {type : FlowType} {h : List Event}
    (hrun : Run (start boundTo type) (step murmur randomSeed extraIPs) h s) : Sound s :=
  hrun.invariant (I := fun _ s => Sound s) (sound_start boundTo type)
    fun _ _ _ _ hs hstep => (stepsTo_step hs hstep).1

/-- In a run no search compares a path that is missing exactly if no ingress packet sets the
flag of the lead flow while it has no path and leaves none. -/
theorem safe_iff (murmur : List UInt8 → UInt32 → UInt64 × UInt64) (randomSeed : UInt32)
    (extraIPs : List IPAddress) (boundTo : IPEndpoint) (type : FlowType) {h : List Event}
    {s : State} (hrun : Run (start boundTo type) (step murmur randomSeed extraIPs) h s) :
    Throughout (start boundTo type) (step murmur randomSeed extraIPs)
        (fun _ s => Safe murmur randomSeed extraIPs s) h ↔
      Always (start boundTo type) (step murmur randomSeed extraIPs)
        (fun _ s e => ¬FlagsUnrouted extraIPs s e) h := by
  refine throughout_iff_always (I := fun _ s => Safe murmur randomSeed extraIPs s) ?_ ?_ hrun
  · exact safe_iff_path.mpr fun _ hmulti => absurd hmulti Bool.false_ne_true
  · intro past s e s' hpast hsafe hstep
    exact (stepsTo_step (sound_of_run hpast) hstep).2 hsafe

/-! ### A flow that waits for its path -/

def exampleBound : IPEndpoint := ⟨.v4 0x0a000001, 5000⟩

/-- A segment of an MPTCP connection comes to an active flow that has no path yet. -/
def exampleEvents : List Event :=
  [.updateIngress 0 SubflowPaths.exampleRouter (some { flags := TCP.Flags.ack, optMask := { mpDss := true } }) 0,
    .getSubflowByPath 0 exampleRawPath, .dropEgress 0, .getPath 0, .getSubflowByAddr 0 exampleBound]

def exampleStep : State → Event → Option State := step exampleHash 0 [.v4 0x0a000002]

theorem isSome_replay_exampleEvents :
    (replay (start exampleBound .active) exampleStep exampleEvents).isSome = true := by
  decide +kernel

/-- The state after the segment. -/
def exampleEnd : State :=
  (replay (start exampleBound .active) exampleStep exampleEvents).get isSome_replay_exampleEvents

theorem run_exampleEvents : Run (start exampleBound .active) exampleStep exampleEvents exampleEnd :=
  run_of_replay (Option.some_get isSome_replay_exampleEvents).symm

theorem safe_iff_exampleEvents :
    Throughout (start exampleBound .active) exampleStep
        (fun _ s => Safe exampleHash 0 [.v4 0x0a000002] s) exampleEvents ↔
      Always (start exampleBound .active) exampleStep
        (fun _ s e => ¬FlagsUnrouted [.v4 0x0a000002] s e) exampleEvents :=
  safe_iff exampleHash 0 [.v4 0x0a000002] exampleBound .active run_exampleEvents

/-- The next packet makes the search compare the path that is missing. -/
theorem not_forall_safe :
    ¬∀ (murmur : List UInt8 → UInt32 → UInt64 × UInt64) (randomSeed : UInt32)
      (extraIPs : List IPAddress) (boundTo : IPEndpoint) (type : FlowType) (h : List Event)
      (s : State), Run (start boundTo type) (step murmur randomSeed extraIPs) h s →
        Safe murmur randomSeed extraIPs s := by
  intro hclaim
  have hsafe := hclaim exampleHash 0 [.v4 0x0a000002] exampleBound .active exampleEvents exampleEnd
    run_exampleEvents
  have hmulti : (exampleEnd.flows.get lead).multipath = true := by decide +kernel
  have hnone : (exampleEnd.flows.get lead).path = none := by decide +kernel
  exact safe_iff_path.mp hsafe (by decide) hmulti hnone

end LeadPath

end Scion
