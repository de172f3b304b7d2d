/-
Packet flows of the translator (`scitra-tun/flow.hpp`).

Flows are shared objects that refer to each other, so that the code's pointers
are addresses in a heap of flows. The functions of `Flow` work on the heap,
those of `FlowProxy`, which hold the lock of one flow, on that flow.

* `Flows.getSubflowByAddr_cases`, `Flows.getSubflowByPath_cases` — all that a
  call can do;
* `Flow.updateStateEgress_frame` and its siblings — what a packet leaves alone.
-/
import Scion.RawPathEquality
import Scion.Tcp

namespace Scion

open Codec

/-! ### Paths -/

def Path.hops (p : Path) : List Hop := rawHops p.type p.path

section Hash

variable (murmur : List UInt8 → UInt32 → UInt64 × UInt64) (randomSeed : UInt32)

/-- `digest()`, whose cached value is never stale. -/
def RawPathContents.digest (s : RawPathContents) : PathDigest :=
  let filled := fillBuffer s.hops 0 hopBuffer
  computeDigest murmur randomSeed s.source (filled.1.take filled.2)

/-- `makePath` from a raw path. -/
def RawPathContents.makePath (rp : RawPathContents) (nh : IPEndpoint) : Path :=
  Path.make murmur randomSeed rp.source rp.destination rp.type rp.expiry 0 nh rp.encoded

/-- The test for the path of a flow: `digest() == path.digest() && equalHops(…)`. -/
def Path.matchesRaw (p : Path) (rp : RawPathContents) : Bool :=
  p.digest == rp.digest murmur randomSeed && p.hops == rp.hops

end Hash

/-! ### Flows -/

inductive FlowType
  /-- Flow was initiated by this host. -/
  | active
  /-- Flow was initiated by a remote host. -/
  | passive
  deriving DecidableEq, Repr

inductive FlowState
  | closed
  | closedWait
  | opened
  | synSent
  | synRcvd
  | established
  | fin
  | rst
  | timeout
  deriving DecidableEq, Repr

namespace FlowState

/-- Values above `ESTABLISHED`: the connection is being torn down. -/
def teardown : FlowState → Bool
  | fin | rst | timeout => true
  | _ => false

end FlowState

/-- `shared_ptr<Flow>`. -/
abbrev FlowPtr := ℕ

structure Flow where
  boundTo : IPEndpoint
  type : FlowType
  multipath : Bool
  state : FlowState := .opened
  path : Option Path := none
  tc : UInt8 := 0
  mptcpToken : UInt32 := 0
  lastUsed : ℤ := 0
  subflows : List FlowPtr := []
  deriving DecidableEq, Repr

/-! ### Sections under the lock of a flow -/

namespace TCP

def Flags.fin : UInt8 := 0x01
def Flags.syn : UInt8 := 0x02
def Flags.rst : UInt8 := 0x04
def Flags.ack : UInt8 := 0x10

/-- `flags & flag`. -/
def has (h : TCP) (flag : UInt8) : Bool := h.flags &&& flag != 0

/-- Options seen on the packets of an established MPTCP connection. -/
def showsMultipath (h : TCP) : Bool :=
  h.optMask.mpCapable || h.optMask.mpDss || h.optMask.mpAddAddr || h.optMask.mpRemAddr
    || h.optMask.mpPrio

end TCP

namespace Flow

/-- `Flow::Create`. -/
def create (boundTo : IPEndpoint) (type : FlowType) : Flow where
  boundTo := boundTo
  type := type
  multipath := false

def createSubflow (boundTo : IPEndpoint) (type : FlowType) (token : UInt32) : Flow where
  boundTo := boundTo
  type := type
  multipath := true
  mptcpToken := token

def setMptcpToken (token : UInt32) (f : Flow) : Flow := { f with mptcpToken := token }

/-- `setPath`. -/
def setPath (path : Option Path) (f : Flow) : Flow := { f with path := path }

def acceptsPassivePath (f : Flow) : Bool :=
  decide (f.type = .passive) && (!f.multipath || f.path.isNone)

/-- `close`. -/
def close (f : Flow) : Flow := { f with state := .closed }

/-- Idle time after which a flow times out. -/
def flowTimeout : ℤ := 120 * 10 ^ 9

def tick (now : ℤ) (f : Flow) : Flow :=
  let f :=
    if f.state.teardown then { f with state := if f.multipath then .closedWait else .closed }
    else if f.state ≠ .closed ∧ f.state ≠ .established ∧ now - f.lastUsed > flowTimeout then
      { f with state := .timeout }
    else f
  if f.state = .closedWait ∧ f.subflows = [] then { f with state := .closed } else f

/-- What `updateStateEgress` does with a TCP header. -/
def egressTcp (tcp : TCP) (f : Flow) : Flow :=
  if tcp.has (TCP.Flags.fin ||| TCP.Flags.rst) then
    { f with state := if tcp.has TCP.Flags.fin then .fin else .rst }
  else if f.state = .synRcvd then
    if tcp.has TCP.Flags.ack then
      { f with state := .established, multipath := f.multipath || tcp.optMask.mpCapable }
    else f
  else if tcp.has TCP.Flags.syn then
    { f with state := .synSent, multipath := f.multipath || tcp.optMask.mpJoin }
  else if f.state ≠ .fin ∧ f.state ≠ .rst then
    { f with state := .established, multipath := f.multipath || tcp.showsMultipath }
  else f

/-- `updateStateEgress`; `tcp` is the L4 header if it is a TCP header. -/
def updateStateEgress (tcp : Option TCP) (qos : UInt8) (t : ℤ) (f : Flow) : Flow :=
  let f :=
    match tcp with
    | some tcp => egressTcp tcp f
    | none => { f with state := .opened }
  { f with tc := qos >>> 2, lastUsed := t }

/-- What `updateStateIngress` does with a TCP header. -/
def ingressTcp (tcp : TCP) (f : Flow) : Flow :=
  if tcp.has (TCP.Flags.fin ||| TCP.Flags.rst) then
    { f with state := if tcp.has TCP.Flags.fin then .fin else .rst }
  else if f.state = .synSent then
    if tcp.has TCP.Flags.syn && tcp.has TCP.Flags.ack then
      { f with state := .established, multipath := f.multipath || tcp.optMask.mpCapable }
    else f
  else if tcp.has TCP.Flags.syn then
    { f with state := .synRcvd, multipath := f.multipath || tcp.optMask.mpJoin }
  else if f.state ≠ .fin ∧ f.state ≠ .rst then
    { f with state := .established, multipath := f.multipath || tcp.showsMultipath }
  else f

def updateStateIngress (tcp : Option TCP) (t : ℤ) (f : Flow) : Flow :=
  let f :=
    match tcp with
    | some tcp => ingressTcp tcp f
    | none => { f with state := .opened }
  { f with lastUsed := t }

section Hash

variable (murmur : List UInt8 → UInt32 → UInt64 × UInt64) (randomSeed : UInt32)

/-- Whether `updatePassivePath` replaces the path. -/
def replacesPath (rp : RawPathContents) (f : Flow) : Bool :=
  f.acceptsPassivePath &&
    match f.path with
    | some path => path.digest != rp.digest murmur randomSeed || path.expiry < rp.expiry
    | none => true

def updatePassivePath (rp : RawPathContents) (nh : IPEndpoint) (f : Flow) : Flow :=
  if f.replacesPath murmur randomSeed rp then
    { f with path := some (rp.makePath murmur randomSeed nh) }
  else f

end Hash

/-! ### What a section leaves alone -/

/-- The constant members and the subflows. -/
def Bound (f g : Flow) : Prop :=
  g.boundTo = f.boundTo ∧ g.type = f.type ∧ g.subflows = f.subflows

theorem Bound.refl (f : Flow) : Bound f f := ⟨rfl, rfl, rfl⟩

theorem Bound.trans {f g h : Flow} (hfg : Bound f g) (hgh : Bound g h) : Bound f h :=
  ⟨hgh.1.trans hfg.1, hgh.2.1.trans hfg.2.1, hgh.2.2.trans hfg.2.2⟩

theorem bound_setMptcpToken (token : UInt32) (f : Flow) : Bound f (f.setMptcpToken token) :=
  ⟨rfl, rfl, rfl⟩

theorem bound_setPath (path : Option Path) (f : Flow) : Bound f (f.setPath path) := ⟨rfl, rfl, rfl⟩

theorem bound_close (f : Flow) : Bound f f.close := ⟨rfl, rfl, rfl⟩

theorem bound_tick (now : ℤ) (f : Flow) : Bound f (f.tick now) := by
  rw [tick, Bound]
  split_ifs <;> exact ⟨rfl, rfl, rfl⟩

/-- A packet changes the state, the flag and the statistics of a flow; the flag
is never taken back. -/
def Touched (f g : Flow) : Prop :=
  Bound f g ∧ g.path = f.path ∧ g.mptcpToken = f.mptcpToken ∧ (f.multipath → g.multipath)

theorem touched_egressTcp (tcp : TCP) (f : Flow) : Touched f (egressTcp tcp f) := by
  rw [egressTcp, Touched, Bound]
  split_ifs <;> simp +contextual

theorem touched_ingressTcp (tcp : TCP) (f : Flow) : Touched f (ingressTcp tcp f) := by
  rw [ingressTcp, Touched, Bound]
  split_ifs <;> simp +contextual

theorem touched_updateStateEgress (tcp : Option TCP) (qos : UInt8) (t : ℤ) (f : Flow) :
    Touched f (f.updateStateEgress tcp qos t) := by
  cases tcp with
  | none => exact ⟨⟨rfl, rfl, rfl⟩, rfl, rfl, id⟩
  | some tcp => exact touched_egressTcp tcp f

theorem touched_updateStateIngress (tcp : Option TCP) (t : ℤ) (f : Flow) :
    Touched f (f.updateStateIngress tcp t) := by
  cases tcp with
  | none => exact ⟨⟨rfl, rfl, rfl⟩, rfl, rfl, id⟩
  | some tcp => exact touched_ingressTcp tcp f

variable {murmur : List UInt8 → UInt32 → UInt64 × UInt64} {randomSeed : UInt32}

theorem bound_updatePassivePath (rp : RawPathContents) (nh : IPEndpoint) (f : Flow) :
    Bound f (f.updatePassivePath murmur randomSeed rp nh) := by
  rw [updatePassivePath]
  split_ifs <;> exact ⟨rfl, rfl, rfl⟩

end Flow

/-! ### The heap of flows -/

structure Flows where
  get : FlowPtr → Flow
  next : FlowPtr

namespace Flows

/-- A section under the lock of `f`. -/
def update (m : Flows) (f : FlowPtr) (g : Flow → Flow) : Flows :=
  { m with get := Function.update m.get f (g (m.get f)) }

/-- `std::make_shared<Flow>`. -/
def make (m : Flows) (flow : Flow) : FlowPtr × Flows :=
  (m.next, { get := Function.update m.get m.next flow, next := m.next + 1 })

def findSubflowByAddr (m : Flows) (f : FlowPtr) (addr : IPEndpoint) : Option FlowPtr :=
  if !(m.get f).multipath then some f
  else if (m.get f).boundTo = addr then some f
  else (m.get f).subflows.find? fun sf => (m.get sf).boundTo = addr

/-- `CreateSubflow` and `subflows.push_back`. -/
def pushSubflow (m : Flows) (f : FlowPtr) (ep : IPEndpoint) (type : FlowType) : FlowPtr × Flows :=
  let (sf, m) := m.make (Flow.createSubflow ep type (m.get f).mptcpToken)
  (sf, m.update f fun flow => { flow with subflows := flow.subflows ++ [sf] })

def getSubflowByAddr (m : Flows) (f : FlowPtr) (localEp : IPEndpoint) : FlowPtr × Flows :=
  match m.findSubflowByAddr f localEp with
  | some sf => (sf, m)
  | none => m.pushSubflow f localEp .active

/-- The first address that no subflow is bound to. -/
def freeAddr (m : Flows) (f : FlowPtr) (addrPool : List IPAddress) : Option IPAddress :=
  addrPool.find? fun addr => !((m.get f).subflows.any fun sf => (m.get sf).boundTo.host = addr)

/-- Apply `remove` to all subflows and remove those it holds of. -/
def removeSubflows (m : Flows) (f : FlowPtr) (remove : Flow → Bool) : Flows :=
  m.update f fun flow => { flow with subflows := flow.subflows.filter fun sf => !remove (m.get sf) }

/-- The paths of a flow and its subflows. -/
def getAllPaths (m : Flows) (f : FlowPtr) : List Path :=
  (f :: (m.get f).subflows).filterMap fun sf => (m.get sf).path

section Hash

variable (murmur : List UInt8 → UInt32 → UInt64 × UInt64) (randomSeed : UInt32)

/-- `findSubflowByPath`; it dereferences the path of a multipath flow without
asking whether there is one (`none`). -/
def findSubflowByPath (m : Flows) (f : FlowPtr) (rp : RawPathContents) :
    Option (Option FlowPtr) :=
  if !(m.get f).multipath then some (some f)
  else
    (m.get f).path.map fun path =>
      if path.matchesRaw murmur randomSeed rp then some f
      else
        (m.get f).subflows.find? fun sf =>
          (m.get sf).path.any fun path => path.matchesRaw murmur randomSeed rp

def getSubflowByPath (m : Flows) (f : FlowPtr) (rp : RawPathContents)
    (addrPool : List IPAddress) : Option (Option FlowPtr × Flows) :=
  (m.findSubflowByPath murmur randomSeed f rp).map fun
    | some sf => (some sf, m)
    | none =>
      match m.freeAddr f addrPool with
      | some addr =>
        let (sf, m) := m.pushSubflow f ⟨addr, (m.get f).boundTo.port⟩ .passive
        (some sf, m)
      -- error: all addresses in use
      | none => (none, m)

end Hash

variable {murmur : List UInt8 → UInt32 → UInt64 × UInt64} {randomSeed : UInt32}

@[simp] theorem get_update_same (m : Flows) (f : FlowPtr) (g : Flow → Flow) :
    (m.update f g).get f = g (m.get f) := by
  simp [update]

theorem get_update_of_ne {m : Flows} {f f' : FlowPtr} (h : f' ≠ f) (g : Flow → Flow) :
    (m.update f g).get f' = m.get f' := by
  simp [update, h]

@[simp] theorem next_update (m : Flows) (f : FlowPtr) (g : Flow → Flow) :
    (m.update f g).next = m.next := rfl

theorem getSubflowByAddr_cases (m : Flows) (f : FlowPtr) (localEp : IPEndpoint) :
    (∃ sf, m.findSubflowByAddr f localEp = some sf ∧ m.getSubflowByAddr f localEp = (sf, m)) ∨
    m.findSubflowByAddr f localEp = none ∧
      m.getSubflowByAddr f localEp = m.pushSubflow f localEp .active := by
  rw [getSubflowByAddr]
  cases h : m.findSubflowByAddr f localEp with
  | some sf => exact .inl ⟨sf, rfl, rfl⟩
  | none => exact .inr ⟨rfl, rfl⟩

/-- A call that returns found a flow, took a free address or had none. -/
theorem getSubflowByPath_cases {m m' : Flows} {f : FlowPtr} {rp : RawPathContents}
    {addrPool : List IPAddress} {sf : Option FlowPtr}
    (h : m.getSubflowByPath murmur randomSeed f rp addrPool = some (sf, m')) :
    (∃ g, m.findSubflowByPath murmur randomSeed f rp = some (some g) ∧ sf = some g ∧ m' = m) ∨
    (∃ addr, m.findSubflowByPath murmur randomSeed f rp = some none ∧
      m.freeAddr f addrPool = some addr ∧ sf = some m.next ∧
      m' = (m.pushSubflow f ⟨addr, (m.get f).boundTo.port⟩ .passive).2) ∨
    m.findSubflowByPath murmur randomSeed f rp = some none ∧ m.freeAddr f addrPool = none ∧
      sf = none ∧ m' = m := by
  rw [getSubflowByPath] at h
  obtain ⟨found, hfound, hresult⟩ := Option.map_eq_some_iff.mp h
  cases found with
  | some g =>
    obtain ⟨rfl, rfl⟩ := Prod.mk.inj hresult
    exact .inl ⟨g, hfound, rfl, rfl⟩
  | none =>
    cases haddr : m.freeAddr f addrPool with
    | some addr =>
      simp only [haddr] at hresult
      obtain ⟨rfl, rfl⟩ := Prod.mk.inj hresult
      exact .inr (.inl ⟨addr, hfound, rfl, rfl, rfl⟩)
    | none =>
      simp only [haddr] at hresult
      obtain ⟨rfl, rfl⟩ := Prod.mk.inj hresult
      exact .inr (.inr ⟨hfound, rfl, rfl, rfl⟩)

end Flows

/-! ### Example paths -/

def exampleHash (bytes : List UInt8) (_ : UInt32) : UInt64 × UInt64 :=
  (UInt64.ofNat bytes.length, 0)

/-- A path of two hop fields as it comes with a packet. -/
def exampleRawPath : RawPathContents := RawPathContents.empty.encode twoHopPath

end Scion
