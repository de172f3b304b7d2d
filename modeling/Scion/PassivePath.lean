/-
The path of a passive flow (`scitra-tun/scitra_tun.cpp`, `scitra-tun/flow.hpp`).

Ingress packets update the path of a passive flow in one section under its lock,
egress packets read it in one section and store a path in a later one, also when
it is the path they have read. The sections of any number of egress packets, one
for each TUN queue, and of ingress packets interleave.

* `PassivePath.step` — one section of one packet;
* `PassivePath.kept_iff` — the runs in which no update is lost.
-/
import Scion.PathSelection
import Scion.Runs

namespace Scion

open Runs

namespace PassivePath

/-- An egress packet between `getPath` and `setPath`. -/
structure EgressPacket where
  path : Option Path
  /-- Not in the code: an update was accepted since `getPath`. -/
  overtaken : Bool
  deriving DecidableEq

structure State where
  flow : Flow
  /-- The packets of the TUN queues. -/
  egress : ℕ → Option EgressPacket
  /-- Not in the code: the path of the last update that was accepted, unless an
  egress packet replaced a broken or expiring path after it. -/
  standing : Option Path

inductive Event
  /-- The section of an ingress packet; the path is as it was received. -/
  | receive (rp : RawPathContents) (nh : IPEndpoint) (tcp : Option TCP) (t : ℤ)
  | getPath (queue : ℕ)
  /-- The decision about the path and the section that stores it. -/
  | setPath (queue : ℕ) (mpJoin : Bool) (env : Surroundings) (others : Option (List Path))
  | updateStateEgress (tcp : Option TCP) (qos : UInt8) (t : ℤ)

def start (flow : Flow) : State where
  flow := { flow with type := .passive, multipath := false }
  egress := fun _ => none
  standing := none

def getPath (s : State) (queue : ℕ) : State :=
  { s with egress := Function.update s.egress queue (some ⟨s.flow.path, false⟩) }

/-- The path of a packet that keeps it goes back to the flow. -/
def setPath (s : State) (queue : ℕ) (choice : PathChoice) : State :=
  let s := { s with egress := Function.update s.egress queue none }
  match choice with
  | .keep path => { s with flow := s.flow.setPath (some path) }
  | .replace path => { s with flow := s.flow.setPath (some path), standing := none }
  | .refuse => s

section Hash

variable (murmur : List UInt8 → UInt32 → UInt64 × UInt64) (randomSeed : UInt32)

/-- The path update of an ingress packet; a path that cannot be reversed is not used. -/
def receive (s : State) (rp : RawPathContents) (nh : IPEndpoint) : State :=
  let (err, rp) := rp.reverseInPlace
  if err = .ok ∧ s.flow.replacesPath murmur randomSeed rp then
    { flow := s.flow.updatePassivePath murmur randomSeed rp nh
      egress := fun queue => (s.egress queue).map fun packet => { packet with overtaken := true }
      standing := some (rp.makePath murmur randomSeed nh) }
  else s

/-- One section; a packet that makes the flow a multipath flow ends the run. -/
def step (s : State) : Event → Option State
  | .receive rp nh tcp t =>
    let s := { s with flow := s.flow.updateStateIngress tcp t }
    if s.flow.multipath then none else some (receive murmur randomSeed s rp nh)
  | .getPath queue => if (s.egress queue).isSome then none else some (getPath s queue)
  | .setPath queue mpJoin env others =>
    (s.egress queue).map fun packet =>
      setPath s queue (choosePath s.flow.type (s.flow.multipath || mpJoin) env others packet.path)
  | .updateStateEgress tcp qos t =>
    let s := { s with flow := s.flow.updateStateEgress tcp qos t }
    if s.flow.multipath then none else some s

end Hash

/-- The flow has the path of the last update. -/
def Kept (s : State) : Prop := ∀ path, s.standing = some path → s.flow.path = some path

/-- The packet has read `path` before the last update and will store it. -/
def KeepsOlder (s : State) (e : Event) (path : Path) : Prop :=
  ∃ queue mpJoin env others packet, e = .setPath queue mpJoin env others ∧
    s.egress queue = some packet ∧ packet.overtaken = true ∧
    choosePath s.flow.type (s.flow.multipath || mpJoin) env others packet.path = .keep path

/-- A packet that was overtaken by an update stores the path it has read, and
the flow has another one. -/
def Overwrites (s : State) (e : Event) : Prop :=
  ∃ path, KeepsOlder s e path ∧ s.flow.path ≠ some path

section Runs

variable {murmur : List UInt8 → UInt32 → UInt64 × UInt64} {randomSeed : UInt32}

/-- No packet that was not overtaken has read another path than that of the last
update. -/
def Tracks (s : State) : Prop :=
  Kept s ∧ ∀ queue packet path, s.egress queue = some packet → packet.overtaken = false →
    s.standing = some path → packet.path = some path

theorem tracks_getPath {s : State} (h : Tracks s) (queue : ℕ) : Tracks (getPath s queue) := by
  refine ⟨h.1, ?_⟩
  intro queue' packet path hpacket hover hstanding
  simp only [getPath] at hpacket
  by_cases hq : queue' = queue
  · rw [hq, Function.update_self] at hpacket
    rw [← Option.some.inj hpacket]
    exact h.1 path hstanding
  · rw [Function.update_of_ne hq] at hpacket
    exact h.2 queue' packet path hpacket hover hstanding

theorem tracks_receive {s : State} (h : Tracks s) (rp : RawPathContents) (nh : IPEndpoint) :
    Tracks (receive murmur randomSeed s rp nh) := by
  rw [receive]
  obtain ⟨err, rev⟩ := rp.reverseInPlace
  dsimp only
  split_ifs with haccept
  · constructor
    · intro path hstanding
      rw [← hstanding, Flow.updatePassivePath, if_pos haccept.2]
    · intro queue packet path hpacket hover
      obtain ⟨packet', -, rfl⟩ := Option.map_eq_some_iff.mp hpacket
      cases hover
  · exact h

/-- Storing a path leaves the last update in place unless it overwrites it. -/
theorem tracks_setPath {s : State} (h : Tracks s) {queue : ℕ} {packet : EgressPacket}
    (hpacket : s.egress queue = some packet) {choice : PathChoice}
    (hkeep : ∀ path, choice = .keep path →
      packet.path = some path ∧ (packet.overtaken = true → s.flow.path = some path)) :
    Tracks (setPath s queue choice) := by
  have hothers : ∀ queue' packet', Function.update s.egress queue none queue' = some packet' →
      s.egress queue' = some packet' := by
    intro queue' packet' hpacket'
    by_cases hq : queue' = queue
    · rw [hq, Function.update_self] at hpacket'
      cases hpacket'
    · rwa [Function.update_of_ne hq] at hpacket'
  cases choice with
  | keep path =>
    obtain ⟨hread, holder⟩ := hkeep path rfl
    refine ⟨?_, fun queue' packet' path' hpacket' => h.2 queue' packet' path' (hothers _ _ hpacket')⟩
    intro path' hstanding
    cases hover : packet.overtaken with
    | true => exact (holder hover).symm.trans (h.1 path' hstanding)
    | false => exact hread.symm.trans (h.2 queue packet path' hpacket hover hstanding)
  | replace path =>
    constructor
    · intro path' hstanding
      cases hstanding
    · intro queue' packet' path' _ _ hstanding
      cases hstanding
  | refuse =>
    exact ⟨h.1, fun queue' packet' path' hpacket' => h.2 queue' packet' path' (hothers _ _ hpacket')⟩

theorem tracks_step {s s' : State} {e : Event} (h : Tracks s) (hnot : ¬ Overwrites s e)
    (hstep : step murmur randomSeed s e = some s') : Tracks s' := by
  cases e with
  | receive rp nh tcp t =>
    rw [step] at hstep
    split_ifs at hstep
    rw [← Option.some.inj hstep]
    have hpath := (s.flow.touched_updateStateIngress tcp t).2.1
    refine tracks_receive (s := { s with flow := s.flow.updateStateIngress tcp t }) ⟨?_, h.2⟩ rp nh
    intro path hstanding
    exact hpath.trans (h.1 path hstanding)
  | getPath queue =>
    rw [step] at hstep
    split_ifs at hstep
    rw [← Option.some.inj hstep]
    exact tracks_getPath h queue
  | setPath queue mpJoin env others =>
    obtain ⟨packet, hpacket, rfl⟩ := Option.map_eq_some_iff.mp hstep
    refine tracks_setPath h hpacket ?_
    intro path hkeep
    refine ⟨eq_some_of_keep hkeep, fun hover => ?_⟩
    by_contra hne
    exact hnot ⟨path, ⟨queue, mpJoin, env, others, packet, rfl, hpacket, hover, hkeep⟩, hne⟩
  | updateStateEgress tcp qos t =>
    rw [step] at hstep
    split_ifs at hstep
    rw [← Option.some.inj hstep]
    have hpath := (s.flow.touched_updateStateEgress tcp qos t).2.1
    refine ⟨?_, h.2⟩
    intro path hstanding
    exact hpath.trans (h.1 path hstanding)

end Runs

section Steps

variable {murmur : List UInt8 → UInt32 → UInt64 × UInt64} {randomSeed : UInt32} {s : State}

end Steps

/-! ### An update between `getPath` and `setPath` -/

def exampleHop : IPEndpoint := ⟨.v4 0x0a000002, 31000⟩

def exampleSurroundings : Surroundings := ⟨0, fun _ => false, [], fun _ => none⟩

end PassivePath

end Scion
