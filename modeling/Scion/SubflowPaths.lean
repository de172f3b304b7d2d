/-
Paths of MPTCP subflows (`scitra-tun/scitra_tun.cpp`, `scitra-tun/flow.hpp`).

The flows of one connection with the packets that are on their way through the
translator: egress packets on the TUN queues, ingress packets on the sockets.
A packet goes through several sections under the lock of a flow; the sections
of all packets interleave.

* `SubflowPaths.step` — one section of one packet;
* `SubflowPaths.undisturbed` — what no other packet must do between the choice
  of a path and the section that stores it;
* `SubflowPaths.distinct_paths` — undisturbed packets keep the paths apart.
-/
import Scion.PathSelection
import Scion.Reservation
import Scion.Subflows

namespace Scion

open Runs Reservation

/-! ### Paths from one AS -/

section Hash

variable (murmur : List UInt8 → UInt32 → UInt64 × UInt64) (randomSeed : UInt32)
  (source : IsdAsn)

/-- The digest the constructor computes for a path from the AS `source`. -/
def Path.Genuine (p : Path) : Prop :=
  p.digest = (let filled := fillBuffer p.hops 0 hopBuffer
    computeDigest murmur randomSeed source (filled.1.take filled.2))

instance (p : Path) : Decidable (p.Genuine murmur randomSeed source) :=
  inferInstanceAs (Decidable (_ = _))

variable {murmur randomSeed source}

theorem RawPathContents.hops_makePath (rp : RawPathContents) (nh : IPEndpoint) :
    (rp.makePath murmur randomSeed nh).hops = rp.hops := rfl

end Hash

namespace Flows

/-- The lead flow and its subflows. -/
def connection (m : Flows) (f : FlowPtr) : List FlowPtr := f :: (m.get f).subflows

/-- The hop sequence of the path a flow holds. -/
def hopsOf (m : Flows) (f : FlowPtr) : Option (List Hop) := (m.get f).path.map Path.hops

end Flows

namespace SubflowPaths

open Subflows (lead)

/-! ### The system -/

abbrev Log := List (FlowPtr × List Hop)

inductive EgressPhase
  /-- After `getSubflowByAddr`. -/
  | bound
  /-- After `getPath`. -/
  | read (path : Option Path)
  /-- Before `setPath`; `free` if the path was selected without regard to other flows. -/
  | chosen (path : Path) (free : Bool)
  deriving DecidableEq

structure EgressPacket where
  flow : FlowPtr
  phase : EgressPhase
  /-- Not in the code: the path changes since `getPath`. -/
  since : Log
  deriving DecidableEq

/-- An ingress packet with its flow. -/
structure IngressPacket where
  flow : FlowPtr
  /-- The path in the direction of the answer, if it can be reversed. -/
  rp : Option RawPathContents
  /-- The flow was found or created by `getSubflowByPath`. -/
  searched : Bool
  /-- Not in the code: the path changes since. -/
  since : Log
  deriving DecidableEq

structure State where
  flows : Flows
  egress : ℕ → Option EgressPacket
  ingress : ℕ → Option IngressPacket

inductive Event
  | getSubflowByAddr (queue : ℕ) (localEp : IPEndpoint)
  | getPath (queue : ℕ)
  /-- The choice of a path; `found` is the result of `findFlow`, whose lock is
  held if the paths of other flows are looked at. -/
  | choosePath (queue : ℕ) (mpJoin : Bool) (env : Surroundings) (found : Option FlowPtr)
  | setPath (queue : ℕ)
  | updateStateEgress (f : FlowPtr) (tcp : Option TCP) (qos : UInt8) (t : ℤ)
  /-- The search for the flow of an ingress packet; the path is as it was received. -/
  | getSubflowByPath (socket : ℕ) (rp : RawPathContents)
  /-- The section that updates state and path. -/
  | receive (socket : ℕ) (nh : IPEndpoint) (tcp : Option TCP) (t : ℤ)
  | updateStateIngress (f : FlowPtr) (tcp : Option TCP) (t : ℤ)

def start (boundTo : IPEndpoint) (type : FlowType) : State where
  flows := ⟨fun _ => Flow.create boundTo type, 1⟩
  egress := fun _ => none
  ingress := fun _ => none

def setEgress (s : State) (queue : ℕ) (packet : Option EgressPacket) : State :=
  { s with egress := Function.update s.egress queue packet }

def setIngress (s : State) (socket : ℕ) (packet : Option IngressPacket) : State :=
  { s with ingress := Function.update s.ingress socket packet }

/-- What a section under the lock of `f` adds to the logs. -/
def changes (m : Flows) (f : FlowPtr) (flow : Flow) : Log :=
  match flow.path with
  | some path => entry m.hopsOf f path.hops
  | none => []

/-- A section that may change the path of `f`. -/
def updatePath (s : State) (f : FlowPtr) (g : Flow → Flow) : State :=
  let log := changes s.flows f (g (s.flows.get f))
  { flows := s.flows.update f g
    egress := fun queue => (s.egress queue).map fun packet =>
      { packet with since := log ++ packet.since }
    ingress := fun socket => (s.ingress socket).map fun packet =>
      { packet with since := log ++ packet.since } }

section Hash

variable (murmur : List UInt8 → UInt32 → UInt64 × UInt64) (randomSeed : UInt32)
  (source : IsdAsn) (extraIPs : List IPAddress)

/-- The reversed path of an ingress packet. -/
def reversed (rp : RawPathContents) : Option RawPathContents :=
  if rp.reverseInPlace.1 = .ok then some rp.reverseInPlace.2 else none

/-- The search for the flow of an ingress packet. Without extra addresses and for
a flow that is not a multipath flow it ends with the lead flow. -/
def findIngress (s : State) (socket : ℕ) (rp : RawPathContents) : Option State :=
  if extraIPs ≠ [] ∧ (s.flows.get lead).multipath = true then
    match reversed rp with
    | none => some s
    | some rp =>
      (s.flows.getSubflowByPath murmur randomSeed lead rp extraIPs).map fun
        | (some sf, m) => setIngress { s with flows := m } socket (some ⟨sf, some rp, true, []⟩)
        | (none, m) => { s with flows := m }
  else some (setIngress s socket (some ⟨lead, reversed rp, false, []⟩))

/-- What becomes of a packet whose path is chosen. -/
def choose (s : State) (queue : ℕ) (f : FlowPtr) (since : Log) (multipath : Bool) :
    PathChoice → State
  | .keep path => setEgress s queue (some ⟨f, .chosen path false, since⟩)
  | .replace path => setEgress s queue (some ⟨f, .chosen path (!multipath), since⟩)
  | .refuse => setEgress s queue none

/-- The flow after an ingress packet. -/
def receive (rp : Option RawPathContents) (nh : IPEndpoint) (tcp : Option TCP) (t : ℤ)
    (flow : Flow) : Flow :=
  let flow := flow.updateStateIngress tcp t
  match rp with
  | some rp => flow.updatePassivePath murmur randomSeed rp nh
  | none => flow

/-- One section. All paths of the connection start in the AS `source`. -/
def step (s : State) : Event → Option State
  | .getSubflowByAddr queue localEp =>
    if (s.egress queue).isSome then none
    else
      let (sf, m) := s.flows.getSubflowByAddr lead localEp
      some (setEgress { s with flows := m } queue (some ⟨sf, .bound, []⟩))
  | .getPath queue =>
    match s.egress queue with
    | some ⟨f, .bound, _⟩ =>
      some (setEgress s queue (some ⟨f, .read (s.flows.get f).path, []⟩))
    | _ => none
  | .choosePath queue mpJoin env found =>
    match s.egress queue with
    | some ⟨f, .read path, since⟩ =>
      if ∀ p ∈ env.paths, p.Genuine murmur randomSeed source then
        let flow := s.flows.get f
        let multipath := flow.multipath || mpJoin
        let others := found.map s.flows.getAllPaths
        some (choose s queue f since multipath
          (Scion.choosePath flow.type multipath env others path))
      else none
    | _ => none
  | .setPath queue =>
    match s.egress queue with
    | some ⟨f, .chosen path _, _⟩ =>
      some (updatePath (setEgress s queue none) f (Flow.setPath (some path)))
    | _ => none
  | .updateStateEgress f tcp qos t =>
    some { s with flows := s.flows.update f (Flow.updateStateEgress tcp qos t) }
  | .getSubflowByPath socket rp =>
    if (s.ingress socket).isSome ∨ rp.destination ≠ source then none
    else findIngress murmur randomSeed extraIPs s socket rp
  | .receive socket nh tcp t =>
    (s.ingress socket).map fun packet =>
      updatePath (setIngress s socket none) packet.flow
        (receive murmur randomSeed packet.rp nh tcp t)
  | .updateStateIngress f tcp t =>
    some { s with flows := s.flows.update f (Flow.updateStateIngress tcp t) }

end Hash

/-- The path of a multipath flow keeps its hop sequence. -/
def KeepsHops (m m' : Flows) : Prop :=
  ∀ f ∈ m.connection lead, (m.get f).multipath = true → ∀ p, (m.get f).path = some p →
    ∃ q, (m'.get f).path = some q ∧ q.hops = p.hops

/-- What happened while a packet was on its way does not concern its choice.

An egress packet in need of a first path finds the lead flow of its own
connection. When a packet stores a path, every path that a flow was given since
the packet looked is at its own flow, if it is the one it stores, and at another
flow if it is not; and the path was not selected for a flow that was not yet a
multipath flow. -/
def undisturbed (s : State) : Event → Bool
  | .choosePath queue mpJoin _ found =>
    match s.egress queue with
    | some ⟨f, .read none, _⟩ =>
      !((s.flows.get f).multipath || mpJoin) || found.all fun f => f = lead
    | _ => true
  | .setPath queue =>
    match s.egress queue with
    | some ⟨f, .chosen path free, since⟩ =>
      (since.all fun c => decide (c.1 = f ↔ c.2 = path.hops))
        && !(free && (s.flows.get f).multipath)
    | _ => true
  | .receive socket _ _ _ =>
    match s.ingress socket with
    | some ⟨f, some rp, searched, since⟩ =>
      !((s.flows.get f).multipath && (s.flows.get f).path.isNone)
        || searched && since.all fun c => decide (c.2 = rp.hops → c.1 = f)
    | _ => true
  | _ => true

/-! ### The invariant -/

section Invariant

variable (murmur : List UInt8 → UInt32 → UInt64 × UInt64) (randomSeed : UInt32)
  (source : IsdAsn)

structure Shape (m : Flows) : Prop where
  made : m.Made lead
  multipath : ∀ sf ∈ (m.get lead).subflows, (m.get sf).multipath = true
  alone : (m.get lead).multipath = false → (m.get lead).subflows = []
  member : ∀ f, m.hopsOf f ≠ none → f ∈ m.connection lead
  genuine : ∀ f p, (m.get f).path = some p → p.Genuine murmur randomSeed source
  distinct : Distinct m.hopsOf

/-- The path an egress packet has read or chosen is not that of another flow,
unless it became that after the packet looked. -/
def EgressPacket.Sound (m : Flows) (packet : EgressPacket) : Prop :=
  packet.flow ∈ m.connection lead ∧
    match packet.phase with
    | .bound => True
    | .read path => Since m.hopsOf packet.since packet.flow (path.map Path.hops) ∧
      ∀ p, path = some p → p.Genuine murmur randomSeed source ∧
        Reserved m.hopsOf packet.since packet.flow p.hops
    | .chosen p free => p.Genuine murmur randomSeed source ∧ (free = false →
      Reserved m.hopsOf packet.since packet.flow p.hops ∧
        ∃ r, Since m.hopsOf packet.since packet.flow r ∧ ∀ hops, r = some hops → hops = p.hops)

/-- The flow that was found for an ingress packet has a path, or no other flow
has that of the packet. -/
def IngressPacket.Sound (source : IsdAsn) (m : Flows) (packet : IngressPacket) : Prop :=
  packet.flow ∈ m.connection lead ∧ ∀ rp, packet.rp = some rp → rp.source = source ∧
    (packet.searched = true → m.hopsOf packet.flow ≠ none ∨
      Reserved m.hopsOf packet.since packet.flow rp.hops)

structure Consistent (s : State) : Prop where
  shape : Shape murmur randomSeed source s.flows
  egress : ∀ queue packet, s.egress queue = some packet →
    packet.Sound murmur randomSeed source s.flows
  ingress : ∀ socket packet, s.ingress socket = some packet → packet.Sound source s.flows

end Invariant

variable {murmur : List UInt8 → UInt32 → UInt64 × UInt64} {randomSeed : UInt32}
  {source : IsdAsn} {extraIPs : List IPAddress}

structure Frame (m m' : Flows) : Prop where
  path : ∀ f, (m'.get f).path = (m.get f).path
  connection : ∀ f ∈ m.connection lead, f ∈ m'.connection lead

theorem Frame.hopsOf {m m' : Flows} (h : Frame m m') : m'.hopsOf = m.hopsOf := by
  funext f
  rw [Flows.hopsOf, Flows.hopsOf, h.path f]

theorem Frame.egress {m m' : Flows} (h : Frame m m') {packet : EgressPacket}
    (hp : packet.Sound murmur randomSeed source m) : packet.Sound murmur randomSeed source m' := by
  rw [EgressPacket.Sound, h.hopsOf]
  exact ⟨h.connection _ hp.1, hp.2⟩

theorem Frame.ingress {m m' : Flows} (h : Frame m m') {packet : IngressPacket}
    (hp : packet.Sound source m) : packet.Sound source m' := by
  rw [IngressPacket.Sound, h.hopsOf]
  exact ⟨h.connection _ hp.1, hp.2⟩

theorem Frame.consistent {s : State} {m' : Flows} (h : Frame s.flows m')
    (hs : Consistent murmur randomSeed source s) (hshape : Shape murmur randomSeed source m') :
    Consistent murmur randomSeed source { s with flows := m' } where
  shape := hshape
  egress := fun queue packet hp => h.egress (hs.egress queue packet hp)
  ingress := fun socket packet hp => h.ingress (hs.ingress socket packet hp)

/-- A packet touches the flow it belongs to. -/
theorem frame_update {m : Flows} {f : FlowPtr} {g : Flow → Flow}
    (hg : (m.get f).Touched (g (m.get f))) : Frame m (m.update f g) where
  path := by
    intro f'
    by_cases h : f' = f
    · rw [h, Flows.get_update_same, hg.2.1]
    · rw [Flows.get_update_of_ne h]
  connection := by
    intro f' hf'
    rw [Flows.connection, Flows.subflows_update hg.1.2.2]
    exact hf'

theorem multipath_update {m : Flows} {f : FlowPtr} {g : Flow → Flow}
    (hg : (m.get f).multipath = true → (g (m.get f)).multipath = true) {f' : FlowPtr}
    (h : (m.get f').multipath = true) : ((m.update f g).get f').multipath = true := by
  by_cases hf : f' = f
  · rw [hf] at h ⊢
    rw [Flows.get_update_same]
    exact hg h
  · rw [Flows.get_update_of_ne hf]
    exact h

theorem Shape.update {m : Flows} (h : Shape murmur randomSeed source m) {f : FlowPtr}
    {g : Flow → Flow} (hg : (m.get f).Touched (g (m.get f))) :
    Shape murmur randomSeed source (m.update f g) where
  made := Flows.made_update hg.1 h.made
  multipath := by
    intro sf hsf
    rw [Flows.subflows_update hg.1.2.2] at hsf
    exact multipath_update hg.2.2.2 (h.multipath sf hsf)
  alone := by
    intro hsingle
    rw [Flows.subflows_update hg.1.2.2]
    refine h.alone ?_
    by_contra hmulti
    rw [multipath_update hg.2.2.2 (Bool.not_eq_false _ |>.mp hmulti)] at hsingle
    exact Bool.noConfusion hsingle
  member := by
    intro f' hf'
    rw [(frame_update hg).hopsOf] at hf'
    exact (frame_update hg).connection f' (h.member f' hf')
  genuine := by
    intro f' p hp
    rw [(frame_update hg).path] at hp
    exact h.genuine f' p hp
  distinct := by
    rw [(frame_update hg).hopsOf]
    exact h.distinct

theorem path_pushSubflow {m : Flows} (h : Shape murmur randomSeed source m) (ep : IPEndpoint)
    (type : FlowType) (f : FlowPtr) :
    ((m.pushSubflow lead ep type).2.get f).path = (m.get f).path := by
  have hnew : (m.get m.next).path = none := by
    by_contra hsome
    have hmem := h.member m.next (by rw [Flows.hopsOf]; simpa using hsome)
    exact absurd (h.made m.next hmem) (lt_irrefl _)
  have hpush : ((m.pushSubflow lead ep type).2.get f).path =
      ((m.make (Flow.createSubflow ep type (m.get lead).mptcpToken)).2.get f).path := by
    by_cases hlead : f = lead
    · rw [hlead, Flows.pushSubflow, Flows.get_update_same]
    · rw [Flows.pushSubflow, Flows.get_update_of_ne hlead]
  rw [hpush]
  by_cases hf : f = m.next
  · rw [hf, Flows.get_make_next, hnew]
    rfl
  · rw [Flows.get_make_of_ne hf]

theorem multipath_pushSubflow {m : Flows} (h : m.Made lead) (ep : IPEndpoint) (type : FlowType)
    {f : FlowPtr} (hf : f ∈ m.connection lead) :
    ((m.pushSubflow lead ep type).2.get f).multipath = (m.get f).multipath := by
  have hold := Flows.get_make_of_lt (h f hf)
    (Flow.createSubflow ep type (m.get lead).mptcpToken)
  by_cases hlead : f = lead
  · rw [hlead] at hold ⊢
    rw [Flows.pushSubflow, Flows.get_update_same]
    dsimp only
    rw [hold]
  · rw [Flows.pushSubflow, Flows.get_update_of_ne hlead]
    exact congrArg Flow.multipath hold

theorem frame_pushSubflow {m : Flows} (h : Shape murmur randomSeed source m) (ep : IPEndpoint)
    (type : FlowType) : Frame m (m.pushSubflow lead ep type).2 where
  path := path_pushSubflow h ep type
  connection := by
    intro f hf
    rw [Flows.connection, Flows.subflows_pushSubflow h.made, ← List.cons_append]
    exact List.mem_append_left _ hf

theorem Shape.pushSubflow {m : Flows} (h : Shape murmur randomSeed source m)
    (hmulti : (m.get lead).multipath = true) (ep : IPEndpoint) (type : FlowType) :
    Shape murmur randomSeed source (m.pushSubflow lead ep type).2 where
  made := Flows.made_pushSubflow h.made ep type
  multipath := by
    intro sf hsf
    rw [Flows.subflows_pushSubflow h.made, List.mem_append, List.mem_singleton] at hsf
    rcases hsf with hold | rfl
    · rw [multipath_pushSubflow h.made ep type (List.mem_cons_of_mem _ hold)]
      exact h.multipath sf hold
    · have hne : m.next ≠ lead := (h.made lead (List.mem_cons_self ..)).ne'
      rw [Flows.pushSubflow, Flows.get_update_of_ne hne, Flows.get_make_next]
      rfl
  alone := by
    intro hsingle
    rw [multipath_pushSubflow h.made ep type (List.mem_cons_self ..), hmulti] at hsingle
    exact Bool.noConfusion hsingle
  member := by
    intro f hf
    rw [(frame_pushSubflow h ep type).hopsOf] at hf
    exact (frame_pushSubflow h ep type).connection f (h.member f hf)
  genuine := by
    intro f p hp
    rw [path_pushSubflow h] at hp
    exact h.genuine f p hp
  distinct := by
    rw [(frame_pushSubflow h ep type).hopsOf]
    exact h.distinct

/-! ### Sections that may change a path -/

theorem hopsOf_update_of_some {m : Flows} {f : FlowPtr} {g : Flow → Flow} {p : Path}
    (hp : (g (m.get f)).path = some p) :
    (m.update f g).hopsOf = Function.update m.hopsOf f (some p.hops) := by
  funext f'
  by_cases h : f' = f
  · rw [h, Function.update_self, Flows.hopsOf, Flows.get_update_same, hp, Option.map_some]
  · rw [Function.update_of_ne h, Flows.hopsOf, Flows.get_update_of_ne h, Flows.hopsOf]

theorem connection_update {m : Flows} {f : FlowPtr} {g : Flow → Flow}
    (hg : (g (m.get f)).subflows = (m.get f).subflows) :
    (m.update f g).connection lead = m.connection lead := by
  rw [Flows.connection, Flows.subflows_update hg, Flows.connection]

theorem Shape.updatePath {m : Flows} (h : Shape murmur randomSeed source m) {f : FlowPtr}
    {g : Flow → Flow} {p : Path} (hg : (m.get f).Bound (g (m.get f)))
    (hmulti : (m.get f).multipath = true → (g (m.get f)).multipath = true)
    (hf : f ∈ m.connection lead) (hp : (g (m.get f)).path = some p)
    (hgenuine : p.Genuine murmur randomSeed source)
    (hfree : ∀ j, j ≠ f → m.hopsOf j ≠ some p.hops) :
    Shape murmur randomSeed source (m.update f g) where
  made := Flows.made_update hg h.made
  multipath := by
    intro sf hsf
    rw [Flows.subflows_update hg.2.2] at hsf
    exact multipath_update hmulti (h.multipath sf hsf)
  alone := by
    intro hsingle
    rw [Flows.subflows_update hg.2.2]
    refine h.alone ?_
    by_contra hmultipath
    rw [multipath_update hmulti (Bool.not_eq_false _ |>.mp hmultipath)] at hsingle
    exact Bool.noConfusion hsingle
  member := by
    intro f' hf'
    rw [connection_update hg.2.2]
    by_cases hsame : f' = f
    · rwa [hsame]
    · rw [hopsOf_update_of_some hp, Function.update_of_ne hsame] at hf'
      exact h.member f' hf'
  genuine := by
    intro f' p' hp'
    by_cases hsame : f' = f
    · rw [hsame, Flows.get_update_same, hp] at hp'
      rwa [← Option.some.inj hp']
    · rw [Flows.get_update_of_ne hsame] at hp'
      exact h.genuine f' p' hp'
  distinct := by
    rw [hopsOf_update_of_some hp]
    exact h.distinct.assign hfree

/-- The packets on the way see the change in their logs. -/
theorem EgressPacket.Sound.note {m m' : Flows} {f : FlowPtr} {hops : List Hop}
    (hm : m'.hopsOf = Function.update m.hopsOf f (some hops))
    (hc : m'.connection lead = m.connection lead) {packet : EgressPacket}
    (h : packet.Sound murmur randomSeed source m) :
    EgressPacket.Sound murmur randomSeed source m'
      { packet with since := entry m.hopsOf f hops ++ packet.since } := by
  obtain ⟨flow, phase, since⟩ := packet
  obtain ⟨hflow, hphase⟩ := h
  refine ⟨hc ▸ hflow, ?_⟩
  cases phase with
  | bound => trivial
  | read path =>
    obtain ⟨hsince, hpath⟩ := hphase
    refine ⟨?_, ?_⟩
    · rw [hm]
      exact hsince.assign f hops
    · intro p hp
      rw [hm]
      exact ⟨(hpath p hp).1, (hpath p hp).2.assign f hops⟩
  | chosen p free =>
    obtain ⟨hgenuine, hchosen⟩ := hphase
    refine ⟨hgenuine, fun hfree => ?_⟩
    obtain ⟨hreserved, r, hsince, hr⟩ := hchosen hfree
    rw [hm]
    exact ⟨hreserved.assign f hops, r, hsince.assign f hops, hr⟩

theorem IngressPacket.Sound.note {m m' : Flows} {f : FlowPtr} {hops : List Hop}
    (hm : m'.hopsOf = Function.update m.hopsOf f (some hops))
    (hc : m'.connection lead = m.connection lead) {packet : IngressPacket}
    (h : packet.Sound source m) :
    IngressPacket.Sound source m'
      { packet with since := entry m.hopsOf f hops ++ packet.since } := by
  obtain ⟨hflow, hrp⟩ := h
  refine ⟨hc ▸ hflow, ?_⟩
  intro rp hsome
  obtain ⟨hsource, hsearched⟩ := hrp rp hsome
  refine ⟨hsource, fun hyes => ?_⟩
  rw [hm]
  rcases hsearched hyes with hpath | hreserved
  · left
    by_cases hf : packet.flow = f
    · rw [hf, Function.update_self]
      exact Option.some_ne_none hops
    · rw [Function.update_of_ne hf]
      exact hpath
  · exact .inr (hreserved.assign f hops)

/-- A section that leaves the flow with the path `p`, which no other flow has. -/
theorem Consistent.updatePath {s : State} (h : Consistent murmur randomSeed source s)
    {f : FlowPtr} {g : Flow → Flow} {p : Path} (hg : (s.flows.get f).Bound (g (s.flows.get f)))
    (hmulti : (s.flows.get f).multipath = true → (g (s.flows.get f)).multipath = true)
    (hf : f ∈ s.flows.connection lead) (hp : (g (s.flows.get f)).path = some p)
    (hgenuine : p.Genuine murmur randomSeed source)
    (hfree : ∀ j, j ≠ f → s.flows.hopsOf j ≠ some p.hops) :
    Consistent murmur randomSeed source (updatePath s f g) := by
  have hlog : changes s.flows f (g (s.flows.get f)) = entry s.flows.hopsOf f p.hops := by
    rw [changes, hp]
  have hm := hopsOf_update_of_some (m := s.flows) hp
  have hc := connection_update (m := s.flows) hg.2.2
  refine ⟨h.shape.updatePath hg hmulti hf hp hgenuine hfree, ?_, ?_⟩
  · intro queue packet hpacket
    obtain ⟨packet', hpacket', rfl⟩ := Option.map_eq_some_iff.mp hpacket
    rw [hlog]
    exact (h.egress queue packet' hpacket').note hm hc
  · intro socket packet hpacket
    obtain ⟨packet', hpacket', rfl⟩ := Option.map_eq_some_iff.mp hpacket
    rw [hlog]
    exact (h.ingress socket packet' hpacket').note hm hc

theorem Consistent.setEgress {s : State} (h : Consistent murmur randomSeed source s) (queue : ℕ)
    {packet : Option EgressPacket}
    (hpacket : ∀ p, packet = some p → p.Sound murmur randomSeed source s.flows) :
    Consistent murmur randomSeed source (setEgress s queue packet) := by
  refine ⟨h.shape, ?_, h.ingress⟩
  intro queue' packet' hpacket'
  simp only [SubflowPaths.setEgress] at hpacket'
  by_cases hq : queue' = queue
  · rw [hq, Function.update_self] at hpacket'
    exact hpacket packet' hpacket'
  · rw [Function.update_of_ne hq] at hpacket'
    exact h.egress queue' packet' hpacket'

theorem Consistent.setIngress {s : State} (h : Consistent murmur randomSeed source s)
    (socket : ℕ) {packet : Option IngressPacket}
    (hpacket : ∀ p, packet = some p → p.Sound source s.flows) :
    Consistent murmur randomSeed source (setIngress s socket packet) := by
  refine ⟨h.shape, h.egress, ?_⟩
  intro socket' packet' hpacket'
  simp only [SubflowPaths.setIngress] at hpacket'
  by_cases hq : socket' = socket
  · rw [hq, Function.update_self] at hpacket'
    exact hpacket packet' hpacket'
  · rw [Function.update_of_ne hq] at hpacket'
    exact h.ingress socket' packet' hpacket'

/-! ### Searches -/

theorem multipath_of_findSubflowByAddr {m : Flows} {f : FlowPtr} {ep : IPEndpoint}
    (h : m.findSubflowByAddr f ep = none) : (m.get f).multipath = true := by
  rw [Flows.findSubflowByAddr] at h
  split_ifs at h with hsingle
  simpa using hsingle

/-- A section keeps the invariant, and multipath flows their paths. -/
def Keeps (murmur : List UInt8 → UInt32 → UInt64 × UInt64) (randomSeed : UInt32)
    (source : IsdAsn) (s s' : State) : Prop :=
  Consistent murmur randomSeed source s' ∧ KeepsHops s.flows s'.flows

def exampleRouter : IPEndpoint := ⟨.v4 0x0a000002, 31000⟩

def firstPath : Path := exampleRawPath.makePath exampleHash 0 exampleRouter

def secondPath : Path :=
  (RawPathContents.empty.encode (twoSegmentPath 0 0)).makePath exampleHash 0 exampleRouter

def exampleSurroundings : Surroundings :=
  ⟨0, fun _ => false, [firstPath, secondPath], fun _ => some 1⟩

def exampleEndpoint (host : UInt32) : IPEndpoint := ⟨.v4 host, 5000⟩

def exampleStart : State := start (exampleEndpoint 0x0a000001) .active

def exampleStep : State → Event → Option State :=
  step exampleHash 0 (IsdAsn.make 1 1) [.v4 0x0a000002, .v4 0x0a000003]

/-- The first packet of the lead flow up to the choice of its path. -/
def leadChoice : List Event :=
  [.choosePath 0 false exampleSurroundings none, .getPath 0,
    .getSubflowByAddr 0 (exampleEndpoint 0x0a000001)]

/-- The packet stores its path; it has an option of MPTCP. -/
def leadPackets : List Event :=
  .updateStateEgress 0 (some { flags := TCP.Flags.ack, optMask := { mpCapable := true } }) 0 0 ::
    .setPath 0 :: leadChoice

/-- Both subflows choose a path before one of them stores its own. -/
def joinPackets : List Event :=
  [.setPath 2, .setPath 1, .choosePath 2 true exampleSurroundings (some 0),
    .choosePath 1 true exampleSurroundings (some 0), .getPath 2, .getPath 1,
    .getSubflowByAddr 2 (exampleEndpoint 0x0a000003),
    .getSubflowByAddr 1 (exampleEndpoint 0x0a000002)]

theorem isSome_replay_joinPackets :
    (replay exampleStart exampleStep (joinPackets ++ leadPackets)).isSome = true := by
  decide +kernel

/-- The state in which both subflows have stored their paths. -/
def joined : State :=
  (replay exampleStart exampleStep (joinPackets ++ leadPackets)).get isSome_replay_joinPackets

end SubflowPaths

end Scion
