/-
Paths that have failed (`path/cache.hpp`, `path/shared_cache.hpp`, `path/path.hpp`,
`scitra-tun/scitra_tun.cpp`).

Routers report in SCMP messages what is down. The path cache marks the paths it holds that lead
over it, and a packet whose path is marked looks for another one. The objects of paths are shared
by the cache, the flows and the packets on their way, and marks are set and read without a lock.

* `ScmpMessage.breaks` — the paths that a message is about;
* `PathFailover.step` — one section of the handler, of a packet or of a call to the cache;
* `Holds` — the cache of objects is the path cache of what they hold;
* `not_sent_over_failed` — once a message has been handled, no packet decides for a path that was
  in the cache and that the message is about;
* `broken_iff_reported` — and no other path is marked;
* `run_failover` — the next packet of a flow goes over the first path that works.
-/
import Mathlib.Data.List.AList
import Scion.LeastOverlap
import Scion.PathCache
import Scion.Transport

namespace Scion

open Runs

/-! ### Reports -/

namespace MetaPath

def containsInterface (p : MetaPath) (isdAsn : IsdAsn) (iface : UInt64) : Bool :=
  match p.interfaces with
  | none => false
  | some hops =>
    hops.any fun hop => hop.isdAsn == isdAsn && (hop.ingress == iface || hop.egress == iface)

def containsHop (p : MetaPath) (isdAsn : IsdAsn) (igr egr : UInt64) : Bool :=
  match p.interfaces with
  | none => false
  | some hops =>
    hops.any fun hop => hop.isdAsn == isdAsn && hop.ingress == igr && hop.egress == egr

end MetaPath

/-- The paths that `handleScmpCallback` of the cache marks. -/
def ScmpMessage.breaks : ScmpMessage → MetaPath → Bool
  | extIfDown sender iface, p => p.containsInterface sender iface.ifid
  | intConnDown sender ingress egress, p => p.containsHop sender ingress.ifid egress.ifid
  | _, _ => false

namespace PathFailover

/-! ### The parties -/

/-- A packet from the TUN interface, and the object of the path it has read or chosen. -/
inductive Packet
  | none
  /-- between `getPath` and the test of the path -/
  | read (flow : ℕ) (path : Option ℕ)
  /-- about to look paths up; a multipath flow keeps its path if there is no newer version -/
  | asking (flow : ℕ) (multipath : Bool) (path : Option ℕ)
  /-- in the loop of `selectPath` -/
  | searching (flow : ℕ) (paths : List ℕ)
  /-- in `selectPathMulti`, which reads no marks -/
  | picking (flow : ℕ) (paths : List ℕ)
  /-- about to test the path that `refreshPath` returned -/
  | refreshed (flow : ℕ) (path : ℕ)
  | chosen (flow : ℕ) (path : ℕ)
  deriving DecidableEq

/-- Objects are numbered; what they hold never changes. -/
structure State where
  cache : AList fun _ : Route => List ℕ
  /-- The time at which the object was marked, or zero. -/
  broken : ℕ → UInt64
  flows : ℕ → Option ℕ
  /-- What the handler, which holds the lock of the cache, has yet to mark. -/
  handling : Option (List ℕ)
  /-- The packets of the TUN queues. -/
  packets : ℕ → Packet

inductive Event
  /-- `store` of the cache -/
  | store (r : Route) (now : ℤ) (paths : List ℕ)
  /-- `update` enters a route without paths -/
  | enter (r : Route)
  | clear (r : Route)
  | clearAll
  /-- the handler takes the lock -/
  | handle (msg : ScmpMessage)
  /-- the handler marks one path -/
  | mark (ts : UInt64)
  /-- the handler returns -/
  | handled
  /-- `setBroken(0)` of the user interface -/
  | repair (path : ℕ)
  /-- an ingress packet stores a path in its flow -/
  | assign (flow path : ℕ)
  /-- `getPath` -/
  | read (queue flow : ℕ)
  /-- the test of the path that was read -/
  | test (queue : ℕ) (type : FlowType) (multipath : Bool) (now : ℤ)
  /-- the lookup for the flow, of which the policy takes some paths -/
  | lookup (queue : ℕ) (r : Route) (now : ℤ) (policy : List ℕ → List ℕ)
  /-- the mark of the next path is read -/
  | probe (queue : ℕ)
  /-- `selectPathMulti` returns a path -/
  | pick (queue path : ℕ)
  /-- there is no lead flow, or no path for a subflow -/
  | giveUp (queue : ℕ)
  /-- the test of a path that was refreshed -/
  | retest (queue : ℕ) (now : ℤ)
  /-- `setPath` -/
  | send (queue path : ℕ)

namespace State

def start : State := ⟨∅, fun _ => 0, fun _ => none, none, fun _ => .none⟩

/-- The objects in the cache. -/
def cached (s : State) : List ℕ := s.cache.entries.flatMap fun entry => entry.2

def setPacket (s : State) (queue : ℕ) (packet : Packet) : State :=
  { s with packets := Function.update s.packets queue packet }

def setBroken (s : State) (path : ℕ) (ts : UInt64) : State :=
  { s with broken := Function.update s.broken path ts }

end State

section Step

-- what the objects hold, and `minAcceptedLifetime`
variable (objects : ℕ → MetaPath) (minLife : ℤ)

/-- `refreshPath`: a newer object of the same path, if there is one. -/
def refresh (path : ℕ) (candidates : List ℕ) : ℕ :=
  (candidates.find? fun candidate =>
    (objects candidate).path.sameAs (objects path).path).getD path

/-- What becomes of a packet that has tested the path it read. -/
def tested (s : State) (flow : ℕ) (path : Option ℕ) (type : FlowType) (multipath : Bool) (now : ℤ) :
    Packet :=
  match path with
  | none => .asking flow multipath none
  | some path =>
    if s.broken path ≠ 0 ∨ expiresSoon type now (objects path).path then
      .asking flow multipath (some path)
    else .chosen flow path

/-- The paths of a route that are not expired. -/
def valid (s : State) (r : Route) (now : ℤ) : List ℕ :=
  ((s.cache.lookup r).getD []).filter fun path => (objects path).path.expiry > now

/-- What becomes of a packet that has looked up paths; `refreshPath` applies no policy. -/
def lookedUp (s : State) (flow : ℕ) (multipath : Bool) (path : Option ℕ) (r : Route) (now : ℤ)
    (policy : List ℕ → List ℕ) : Packet :=
  match multipath, path with
  | true, some path => .refreshed flow (refresh objects path (valid objects s r now))
  | true, none => .picking flow (policy (valid objects s r now))
  | false, _ => .searching flow (policy (valid objects s r now))

def step (s : State) : Event → Option State
  | .store r now paths =>
    if s.handling = none then
      let accepted := paths.filter fun path => (objects path).path.expiry > now + minLife
      some { s with cache := s.cache.insert r accepted }
    else none
  | .enter r =>
    if s.handling = none ∧ r ∉ s.cache then some { s with cache := s.cache.insert r [] } else none
  | .clear r => if s.handling = none then some { s with cache := s.cache.erase r } else none
  | .clearAll => if s.handling = none then some { s with cache := ∅ } else none
  | .handle msg =>
    if s.handling = none then
      some { s with handling := some (s.cached.filter fun path => msg.breaks (objects path)) }
    else none
  | .mark ts =>
    match s.handling with
    | some (path :: rest) => some ({ s with handling := some rest }.setBroken path ts)
    | _ => none
  | .handled => if s.handling = some [] then some { s with handling := none } else none
  | .repair path => some (s.setBroken path 0)
  | .assign flow path => some { s with flows := Function.update s.flows flow (some path) }
  | .read queue flow =>
    if s.packets queue = .none then some (s.setPacket queue (.read flow (s.flows flow))) else none
  | .test queue type multipath now =>
    match s.packets queue with
    | .read flow path => some (s.setPacket queue (tested objects s flow path type multipath now))
    | _ => none
  | .lookup queue r now policy =>
    match s.packets queue with
    | .asking flow multipath path =>
      if s.handling = none then
        some (s.setPacket queue (lookedUp objects s flow multipath path r now policy))
      else none
    | _ => none
  | .probe queue =>
    match s.packets queue with
    | .searching flow (path :: rest) =>
      some (s.setPacket queue (if s.broken path ≠ 0 then .searching flow rest else .chosen flow path))
    | .searching _ [] => some (s.setPacket queue .none)
    | _ => none
  | .pick queue path =>
    match s.packets queue with
    | .picking flow paths =>
      if path ∈ paths then some (s.setPacket queue (.chosen flow path)) else none
    | _ => none
  | .giveUp queue =>
    match s.packets queue with
    | .asking _ true none | .picking _ _ => some (s.setPacket queue .none)
    | _ => none
  | .retest queue now =>
    match s.packets queue with
    | .refreshed flow path =>
      some (s.setPacket queue (if s.broken path ≠ 0 ∨ (objects path).path.expiry - now < 0 then .none
        else .chosen flow path))
    | _ => none
  | .send queue path =>
    match s.packets queue with
    | .chosen flow path' =>
      if path = path' then
        some ({ s with flows := Function.update s.flows flow (some path) }.setPacket queue .none)
      else none
    | _ => none

end Step

variable {objects : ℕ → MetaPath} {minLife : ℤ} {s s' : State} {e : Event}

/-! ### What the objects hold -/

section Contents

variable {c : PathCache} {r : Route} {now : ℤ}

/-- The cache holds what the objects of the same routes hold. -/
def Holds (objects : ℕ → MetaPath) (c : PathCache) (s : State) : Prop :=
  ∀ r, (c.cache r).map PathSet.paths
    = (s.cache.lookup r).map (List.map fun path => (objects path).path)

theorem Holds.set (h : Holds objects c s) (r : Route) (set : PathSet) {paths : List ℕ}
    (hset : set.paths = paths.map fun path => (objects path).path) :
    Holds objects (c.set r set) { s with cache := s.cache.insert r paths } := by
  intro r'
  by_cases hr : r' = r
  · rw [hr, PathCache.cache_set_same, AList.lookup_insert, Option.map_some, Option.map_some, hset]
  · rw [PathCache.cache_set_of_ne _ hr, AList.lookup_insert_ne hr]
    exact h r'

theorem Holds.store (h : Holds objects c s) {paths : List ℕ}
    (hstep : step objects c.minAcceptedLifetime s (.store r now paths) = some s') :
    Holds objects (c.store now r (paths.map fun path => (objects path).path)) s' := by
  rw [step] at hstep
  split_ifs at hstep
  rw [← Option.some.inj hstep]
  refine h.set r _ ?_
  rw [PathCache.updateNextRefresh, List.filter_map]
  rfl

theorem Holds.clear (h : Holds objects c s) (hstep : step objects minLife s (.clear r) = some s') :
    Holds objects (c.clear r) s' := by
  rw [step] at hstep
  split_ifs at hstep
  rw [← Option.some.inj hstep]
  intro r'
  by_cases hr : r' = r
  · have hnone : (c.clear r).cache r = none := Function.update_self ..
    rw [hr, hnone, AList.lookup_erase]
    rfl
  · have hother : (c.clear r).cache r' = c.cache r' := Function.update_of_ne hr ..
    rw [hother, AList.lookup_erase_ne hr]
    exact h r'

theorem Holds.beginUpdate (h : Holds objects c s) (r : Route) (now : ℤ) (refresh : Bool) :
    Holds objects (c.beginUpdate now r refresh).1
      (if r ∈ s.cache then s else { s with cache := s.cache.insert r [] }) := by
  have hmem : r ∈ s.cache ↔ (c.cache r).isSome := by
    have hsome := congrArg Option.isSome (h r)
    rw [Option.isSome_map, Option.isSome_map] at hsome
    rw [← AList.lookup_isSome, hsome]
  rw [PathCache.beginUpdate]
  cases hr : c.cache r with
  | none =>
    rw [if_neg (by rw [hmem, hr]; exact Bool.false_ne_true)]
    exact h.set r _ rfl
  | some set =>
    rw [if_pos (by rw [hmem, hr]; rfl)]
    intro r'
    by_cases hsame : r' = r
    · rw [hsame, PathCache.cache_set_same, ← h r, hr]
      rfl
    · rw [PathCache.cache_set_of_ne _ hsame]
      exact h r'

theorem Holds.lookupCached (h : Holds objects c s) (r : Route) (now : ℤ) :
    c.lookupCached now r = (valid objects s r now).map fun path => (objects path).path := by
  have hr := h r
  rw [PathCache.lookupCached, valid]
  revert hr
  cases c.cache r <;> cases s.cache.lookup r
  · exact fun _ => rfl
  · simp
  · simp
  · intro hr
    dsimp only
    rw [PathSet.validPaths, Option.some.inj hr, List.filter_map]
    rfl

end Contents

/-! ### One section -/

@[simp] theorem State.broken_setPacket (s : State) (queue : ℕ) (packet : Packet) :
    (s.setPacket queue packet).broken = s.broken := rfl

@[simp] theorem State.cache_setPacket (s : State) (queue : ℕ) (packet : Packet) :
    (s.setPacket queue packet).cache = s.cache := rfl

@[simp] theorem State.handling_setPacket (s : State) (queue : ℕ) (packet : Packet) :
    (s.setPacket queue packet).handling = s.handling := rfl

@[simp] theorem State.packets_setBroken (s : State) (path : ℕ) (ts : UInt64) :
    (s.setBroken path ts).packets = s.packets := rfl

/-- What a section of the packet in a queue can do. -/
inductive Advance (objects : ℕ → MetaPath) (s : State) (queue : ℕ) : Event → Packet → Prop
  | read (flow : ℕ) : Advance objects s queue (.read queue flow) (.read flow (s.flows flow))
  | test {flow : ℕ} {path : Option ℕ} (type : FlowType) (multipath : Bool) (now : ℤ)
      (h : s.packets queue = .read flow path) : Advance objects s queue
        (.test queue type multipath now) (tested objects s flow path type multipath now)
  | lookup {flow : ℕ} {multipath : Bool} {path : Option ℕ} (r : Route) (now : ℤ)
      (policy : List ℕ → List ℕ) (h : s.packets queue = .asking flow multipath path) :
      Advance objects s queue (.lookup queue r now policy)
        (lookedUp objects s flow multipath path r now policy)
  | probe {flow path : ℕ} {rest : List ℕ} (h : s.packets queue = .searching flow (path :: rest)) :
      Advance objects s queue (.probe queue)
        (if s.broken path ≠ 0 then .searching flow rest else .chosen flow path)
  | pick {flow path : ℕ} {paths : List ℕ} (h : s.packets queue = .picking flow paths)
      (hpath : path ∈ paths) : Advance objects s queue (.pick queue path) (.chosen flow path)
  | retest {flow path : ℕ} (now : ℤ) (h : s.packets queue = .refreshed flow path) :
      Advance objects s queue (.retest queue now)
        (if s.broken path ≠ 0 ∨ (objects path).path.expiry - now < 0 then .none
          else .chosen flow path)
  | done (e : Event) : Advance objects s queue e .none

theorem packets_setPacket (s : State) (q queue : ℕ) (packet : Packet) :
    (s.setPacket q packet).packets queue = if queue = q then packet else s.packets queue :=
  Function.update_apply ..

/-- A section moves at most one packet on. -/
theorem packets_step (h : step objects minLife s e = some s') (queue : ℕ) :
    s'.packets queue = s.packets queue ∨ Advance objects s queue e (s'.packets queue) := by
  have hset : ∀ {t : State} {q : ℕ} {packet : Packet}, t.packets = s.packets →
      t.setPacket q packet = s' → (q = queue → Advance objects s queue e packet) →
        s'.packets queue = s.packets queue ∨ Advance objects s queue e (s'.packets queue) := by
    rintro t q packet hpackets rfl hadvance
    rw [packets_setPacket, hpackets]
    split_ifs with hq
    · exact .inr (hadvance hq.symm)
    · exact .inl rfl
  cases e with
  | store | enter | clear | clearAll | handle | handled =>
    rw [step] at h
    split_ifs at h
    cases h
    exact .inl rfl
  | mark ts =>
    rw [step] at h
    split at h <;> cases h
    exact .inl rfl
  | repair | assign =>
    cases h
    exact .inl rfl
  | read q flow =>
    rw [step] at h
    split_ifs at h
    exact hset rfl (Option.some.inj h) fun hq => hq ▸ .read flow
  | test q type multipath now =>
    rw [step] at h
    split at h
    · rename_i hread
      exact hset rfl (Option.some.inj h) fun hq => by
        subst hq
        exact .test type multipath now hread
    · cases h
  | lookup q r now policy =>
    rw [step] at h
    split at h
    · rename_i hasking
      split_ifs at h
      exact hset rfl (Option.some.inj h) fun hq => by
        subst hq
        exact .lookup r now policy hasking
    · cases h
  | probe q =>
    rw [step] at h
    split at h
    · rename_i hsearching
      exact hset rfl (Option.some.inj h) fun hq => by
        subst hq
        exact .probe hsearching
    · exact hset rfl (Option.some.inj h) fun _ => .done _
    · cases h
  | pick q path =>
    rw [step] at h
    split at h
    · rename_i hpicking
      split_ifs at h with hpath
      exact hset rfl (Option.some.inj h) fun hq => by
        subst hq
        exact .pick hpicking hpath
    · cases h
  | giveUp q =>
    rw [step] at h
    split at h
    · exact hset rfl (Option.some.inj h) fun _ => .done _
    · exact hset rfl (Option.some.inj h) fun _ => .done _
    · cases h
  | retest q now =>
    rw [step] at h
    split at h
    · rename_i hrefreshed
      exact hset rfl (Option.some.inj h) fun hq => by
        subst hq
        exact .retest now hrefreshed
    · cases h
  | send q path =>
    rw [step] at h
    split at h
    · rename_i flow _ _
      split_ifs at h
      exact hset (t := { s with flows := Function.update s.flows flow (some path) }) rfl
        (Option.some.inj h) fun _ => .done _
    · cases h

/-- A packet decides for a path whose mark it has read, or for one that was picked. -/
theorem broken_eq_zero_of_chosen (h : step objects minLife s e = some s') {queue flow path : ℕ}
    (hbefore : s.packets queue ≠ .chosen flow path) (hafter : s'.packets queue = .chosen flow path)
    (hpick : e ≠ .pick queue path) : s.broken path = 0 := by
  rcases packets_step h queue with hsame | hadvance
  · exact absurd (hsame.symm.trans hafter) hbefore
  rw [hafter] at hadvance
  generalize hpacket : Packet.chosen flow path = packet at hadvance
  cases hadvance with
  | read => cases hpacket
  | done => cases hpacket
  | @test _ path' type multipath now _ =>
    cases path' with
    | none => cases hpacket
    | some path' =>
      rw [tested] at hpacket
      split_ifs at hpacket with hbad
      cases hpacket
      exact not_not.mp fun hbroken => hbad (.inl hbroken)
  | @lookup _ multipath path' =>
    cases multipath <;> cases path' <;> cases hpacket
  | probe =>
    split_ifs at hpacket with hbroken
    cases hpacket
    exact not_not.mp hbroken
  | pick =>
    cases hpacket
    exact absurd rfl hpick
  | retest =>
    split_ifs at hpacket with hbad
    cases hpacket
    exact not_not.mp fun hbroken => hbad (.inl hbroken)

/-- A mark is set by the handler and unset by the user. -/
theorem broken_step (h : step objects minLife s e = some s') (path : ℕ) :
    s'.broken path = s.broken path ∨ e = .repair path ∨
      ∃ ts rest, e = .mark ts ∧ s.handling = some (path :: rest) ∧ s'.broken path = ts := by
  have hset : ∀ {t : State} {p : ℕ} {ts : UInt64}, t.broken = s.broken → t.setBroken p ts = s' →
      p = path ∧ s'.broken path = ts ∨ s'.broken path = s.broken path := by
    rintro t p ts hbroken rfl
    rw [State.setBroken, hbroken]
    by_cases hp : path = p
    · exact .inl ⟨hp.symm, by rw [hp]; exact Function.update_self ..⟩
    · exact .inr (Function.update_of_ne hp ..)
  cases e with
  | mark ts =>
    rw [step] at h
    split at h
    · rename_i p rest hhandling
      rcases hset (t := { s with handling := some rest }) rfl (Option.some.inj h) with
        ⟨rfl, hts⟩ | hsame
      · exact .inr (.inr ⟨ts, rest, rfl, hhandling, hts⟩)
      · exact .inl hsame
    · cases h
  | repair p =>
    rcases hset rfl (Option.some.inj h) with ⟨rfl, -⟩ | hsame
    · exact .inr (.inl rfl)
    · exact .inl hsame
  | store | enter | clear | clearAll | handle | handled | read =>
    rw [step] at h
    split_ifs at h
    cases h
    exact .inl rfl
  | assign =>
    cases h
    exact .inl rfl
  | test | lookup | probe | pick | giveUp | retest | send =>
    rw [step] at h
    split at h
    all_goals try split_ifs at h
    all_goals cases h
    all_goals exact .inl rfl

/-- Only the handler itself changes what it has yet to mark. -/
theorem handling_step (h : step objects minLife s e = some s') :
    s'.handling = s.handling ∨
    (∃ msg, e = .handle msg ∧ s'.handling
      = some (s.cached.filter fun path => msg.breaks (objects path))) ∨
    (∃ ts path rest, e = .mark ts ∧ s.handling = some (path :: rest) ∧ s'.handling = some rest) ∨
    e = .handled ∧ s.handling = some [] := by
  cases e with
  | handle msg =>
    rw [step] at h
    split_ifs at h
    cases h
    exact .inr (.inl ⟨msg, rfl, rfl⟩)
  | mark ts =>
    rw [step] at h
    split at h
    · rename_i path rest hhandling
      cases h
      exact .inr (.inr (.inl ⟨ts, path, rest, rfl, hhandling, rfl⟩))
    · cases h
  | handled =>
    rw [step] at h
    split_ifs at h with hdone
    exact .inr (.inr (.inr ⟨rfl, hdone⟩))
  | store | enter | clear | clearAll | read =>
    rw [step] at h
    split_ifs at h
    cases h
    exact .inl rfl
  | repair | assign =>
    cases h
    exact .inl rfl
  | test | lookup | probe | pick | giveUp | retest | send =>
    rw [step] at h
    split at h
    all_goals try split_ifs at h
    all_goals cases h
    all_goals exact .inl rfl

/-! ### Runs -/

/-- The clock of the handler has started, and nobody takes back the mark of the path. -/
structure Stands (path : ℕ) (events : List Event) : Prop where
  clock : .mark 0 ∉ events
  repair : .repair path ∉ events

theorem Stands.of_cons {path : ℕ} {e : Event} {events : List Event} (h : Stands path (e :: events)) :
    e ≠ .mark 0 ∧ e ≠ .repair path ∧ Stands path events :=
  ⟨fun he => h.clock (he ▸ List.mem_cons_self), fun he => h.repair (he ▸ List.mem_cons_self),
    fun hmem => h.clock (List.mem_cons_of_mem _ hmem),
    fun hmem => h.repair (List.mem_cons_of_mem _ hmem)⟩

theorem Stands.of_append {path : ℕ} {later earlier : List Event} (h : Stands path (later ++ earlier)) :
    Stands path later ∧ Stands path earlier :=
  ⟨⟨fun hmem => h.clock (List.mem_append_left _ hmem),
      fun hmem => h.repair (List.mem_append_left _ hmem)⟩,
    fun hmem => h.clock (List.mem_append_right _ hmem),
    fun hmem => h.repair (List.mem_append_right _ hmem)⟩

theorem broken_ne_zero_step (h : step objects minLife s e = some s') {path : ℕ}
    (hbroken : s.broken path ≠ 0) (hclock : e ≠ .mark 0) (hrepair : e ≠ .repair path) :
    s'.broken path ≠ 0 := by
  rcases broken_step h path with hsame | he | ⟨ts, rest, rfl, -, hts⟩
  · rwa [hsame]
  · exact absurd he hrepair
  · rw [hts]
    exact fun hzero => hclock (hzero ▸ rfl)

/-- The path is marked, or the handler will mark it. -/
def Found (path : ℕ) (s : State) : Prop :=
  s.broken path ≠ 0 ∨ ∃ left, s.handling = some left ∧ path ∈ left

/-- The handler marks what it has found, and returns when there is nothing left. -/
theorem found_step (h : step objects minLife s e = some s') {path : ℕ} (hfound : Found path s)
    (hclock : e ≠ .mark 0) (hrepair : e ≠ .repair path) : Found path s' := by
  rcases hfound with hbroken | ⟨left, hleft, hmem⟩
  · exact .inl (broken_ne_zero_step h hbroken hclock hrepair)
  rcases handling_step h with hsame | ⟨msg, rfl, -⟩ | ⟨ts, marked, rest, rfl, hhandling, hrest⟩ |
      ⟨-, hdone⟩
  · exact .inr ⟨left, hsame.trans hleft, hmem⟩
  · rw [step, if_neg (by rw [hleft]; simp)] at h
    cases h
  · obtain rfl : left = marked :: rest := Option.some.inj (hleft.symm.trans hhandling)
    rcases List.mem_cons.mp hmem with rfl | hmem
    · rw [step, hhandling] at h
      cases h
      have hts : ({ s with handling := some rest }.setBroken path ts).broken path = ts :=
        Function.update_self ..
      exact .inl fun hzero => hclock (by rw [← hts, hzero])
    · exact .inr ⟨rest, hrest, hmem⟩
  · rw [hdone] at hleft
    cases hleft
    cases hmem

/-- What the handler finds when it takes the lock stays found. -/
theorem found_of_handle {since past : List Event} {msg : ScmpMessage} {s₀ : State}
    (hrun : Run State.start (step objects minLife) (since ++ .handle msg :: past) s)
    (hstart : Run State.start (step objects minLife) past s₀) {path : ℕ}
    (hcached : path ∈ s₀.cached) (hbreaks : msg.breaks (objects path) = true)
    (hstands : Stands path since) : Found path s := by
  induction since generalizing s with
  | nil =>
    cases hrun with
    | next hpast hstep =>
      rw [hpast.unique hstart] at hstep
      rw [step] at hstep
      split_ifs at hstep
      cases hstep
      exact .inr ⟨_, rfl, List.mem_filter.mpr ⟨hcached, hbreaks⟩⟩
  | cons e since ih =>
    obtain ⟨hclock, hrepair, hstands⟩ := hstands.of_cons
    cases hrun with
    | next hpast hstep => exact found_step hstep (ih hpast hstands) hclock hrepair

theorem Found.broken {path : ℕ} (h : Found path s) (hreturned : s.handling = none) :
    s.broken path ≠ 0 := by
  rcases h with hbroken | ⟨left, hleft, -⟩
  · exact hbroken
  · rw [hreturned] at hleft
    cases hleft

/-- A packet does not decide for a path that is marked. -/
theorem not_chosen_of_broken {late past : List Event} {s₀ : State}
    (hrun : Run State.start (step objects minLife) (late ++ past) s)
    (hstart : Run State.start (step objects minLife) past s₀) {path queue : ℕ}
    (hbroken : s₀.broken path ≠ 0) (hbefore : ∀ flow, s₀.packets queue ≠ .chosen flow path)
    (hstands : Stands path late) (hpick : .pick queue path ∉ late) :
    s.broken path ≠ 0 ∧ ∀ flow, s.packets queue ≠ .chosen flow path := by
  induction late generalizing s with
  | nil =>
    rw [hrun.unique hstart]
    exact ⟨hbroken, hbefore⟩
  | cons e late ih =>
    obtain ⟨hclock, hrepair, hstands⟩ := hstands.of_cons
    cases hrun with
    | next hpast hstep =>
      obtain ⟨hmarked, hother⟩ :=
        ih hpast hstands fun hmem => hpick (List.mem_cons_of_mem _ hmem)
      refine ⟨broken_ne_zero_step hstep hmarked hclock hrepair, fun flow hchosen => ?_⟩
      exact hmarked (broken_eq_zero_of_chosen hstep (hother flow) hchosen
        fun he => hpick (he ▸ List.mem_cons_self))

/-- Two paths, through the interfaces 1 and 2 of an AS. -/
def exampleObjects (i : ℕ) : MetaPath where
  path := ⟨⟨1⟩, ⟨2⟩, PathType.scion, 1000 * 10 ^ 9, 1280, 2, ⟨.v4 0, 0⟩, [], ⟨0, 0⟩⟩
  interfaces := some [⟨⟨3⟩, UInt64.ofNat (i + 1), 9⟩]
  broken := false

/-- A flow has the first path, and both are in the cache. -/
def exampleStart : List Event := [.assign 0 0, .store ⟨⟨1⟩, ⟨2⟩⟩ 0 [0, 1]]

/-- The first path is reported and marked. -/
def exampleReport : List Event := [.handled, .mark 5]

/-- A packet of the flow. -/
def examplePacket : List Event :=
  [.send 0 1, .probe 0, .probe 0, .lookup 0 ⟨⟨1⟩, ⟨2⟩⟩ 0 id, .test 0 .active false 0, .read 0 0]

/-- Once the handler has returned from a report, no packet that has not decided yet is sent over
a path that was in the cache and leads over what has failed. -/
theorem not_sent_over_failed {late since past : List Event} {msg : ScmpMessage} {s₀ s₁ : State}
    (hrun : Run State.start (step objects minLife) (late ++ (since ++ .handle msg :: past)) s)
    (hstart : Run State.start (step objects minLife) past s₀)
    (hhandled : Run State.start (step objects minLife) (since ++ .handle msg :: past) s₁)
    (hreturned : s₁.handling = none) {path queue : ℕ} (hcached : path ∈ s₀.cached)
    (hbreaks : msg.breaks (objects path) = true) (hstands : Stands path (late ++ since))
    (hbefore : ∀ flow, s₁.packets queue ≠ .chosen flow path) (hpick : .pick queue path ∉ late) :
    .send queue path ∉ late := by
  obtain ⟨hlate, hsince⟩ := hstands.of_append
  have hbroken := (found_of_handle hhandled hstart hcached hbreaks hsince).broken hreturned
  intro hsend
  obtain ⟨later, earlier, rfl⟩ := List.append_of_mem hsend
  rw [List.append_assoc] at hrun
  obtain ⟨t, t', ht, hstep⟩ := hrun.of_suffix (List.suffix_append _ _)
  obtain ⟨-, -, hearlier⟩ := hlate.of_append.2.of_cons
  obtain ⟨-, hnot⟩ := not_chosen_of_broken ht hhandled hbroken hbefore hearlier
    fun h => hpick (List.mem_append_right _ (List.mem_cons_of_mem _ h))
  -- a packet is sent over the path it has decided for
  rw [step] at hstep
  split at hstep
  · rename_i flow path' hchosen
    split_ifs at hstep with hpath
    exact hnot flow (hpath ▸ hchosen)
  · cases hstep

theorem not_sent_over_failed_example : Event.send 0 0 ∉ examplePacket := by
  have hstart : Run State.start (step exampleObjects 0) exampleStart _ :=
    (Run.start.next rfl).next rfl
  have hhandled : Run State.start (step exampleObjects 0)
      (exampleReport ++ .handle (.extIfDown ⟨3⟩ ⟨1⟩) :: exampleStart) _ :=
    ((hstart.next rfl).next rfl).next rfl
  have hrun : Run State.start (step exampleObjects 0) (examplePacket
      ++ (exampleReport ++ .handle (.extIfDown ⟨3⟩ ⟨1⟩) :: exampleStart)) _ :=
    (((((hhandled.next rfl).next rfl).next rfl).next rfl).next rfl).next rfl
  refine not_sent_over_failed hrun hstart hhandled rfl (by decide) (by decide) ⟨?_, ?_⟩ (fun _ h => by cases h) ?_
  · simp [examplePacket, exampleReport]
  · simp [examplePacket, exampleReport]
  · simp [examplePacket]

/-- The handler found the path in the cache, and the message is about it. -/
def Reported (objects : ℕ → MetaPath) (minLife : ℤ) (path : ℕ) (h : List Event) : Prop :=
  ∃ msg past s₀, .handle msg :: past <:+ h ∧ Run State.start (step objects minLife) past s₀ ∧
    path ∈ s₀.cached ∧ msg.breaks (objects path) = true

theorem Reported.cons {path : ℕ} {h : List Event} (hr : Reported objects minLife path h)
    (e : Event) : Reported objects minLife path (e :: h) := by
  obtain ⟨msg, past, s₀, hsuffix, hpast⟩ := hr
  exact ⟨msg, past, s₀, hsuffix.trans (List.suffix_cons e h), hpast⟩

/-- A path is marked only if it was in the cache when a message about it was handled. -/
theorem reported_of_broken {h : List Event} (hrun : Run State.start (step objects minLife) h s)
    {path : ℕ} (hbroken : s.broken path ≠ 0) : Reported objects minLife path h := by
  have hinv : (s.broken path ≠ 0 → Reported objects minLife path h) ∧
      ∀ left, s.handling = some left → path ∈ left → Reported objects minLife path h := by
    clear hbroken
    induction hrun with
    | start => exact ⟨fun hne => absurd rfl hne, fun _ h => by cases h⟩
    | @next past s s' e hpast hstep ih =>
      obtain ⟨hmarked, hfound⟩ := ih
      refine ⟨fun hne => ?_, fun left hleft hmem => ?_⟩
      · rcases broken_step hstep path with hsame | rfl | ⟨ts, rest, rfl, hhandling, -⟩
        · exact (hmarked (hsame ▸ hne)).cons e
        · cases hstep
          exact absurd (Function.update_self ..) hne
        · exact (hfound _ hhandling List.mem_cons_self).cons _
      · rcases handling_step hstep with hsame | ⟨msg, rfl, hfilter⟩ |
            ⟨ts, marked, rest, rfl, hhandling, hrest⟩ | ⟨rfl, -⟩
        · exact (hfound left (hsame.symm.trans hleft) hmem).cons e
        · obtain rfl := Option.some.inj (hfilter.symm.trans hleft)
          obtain ⟨hcached, hbreaks⟩ := List.mem_filter.mp hmem
          exact ⟨msg, past, s, List.suffix_refl _, hpast, hcached, hbreaks⟩
        · obtain rfl := Option.some.inj (hrest.symm.trans hleft)
          exact (hfound _ hhandling (List.mem_cons_of_mem _ hmem)).cons _
        · rw [step] at hstep
          split_ifs at hstep
          cases hstep
          cases hleft
  exact hinv.1 hbroken

/-- Whenever no handler is at work, exactly the paths are marked that were in the cache when a
message about them was handled. -/
theorem broken_iff_reported {h : List Event} (hrun : Run State.start (step objects minLife) h s)
    (hreturned : s.handling = none) {path : ℕ} (hstands : Stands path h) :
    s.broken path ≠ 0 ↔ Reported objects minLife path h := by
  refine ⟨reported_of_broken hrun, ?_⟩
  rintro ⟨msg, past, s₀, ⟨since, rfl⟩, hpast, hcached, hbreaks⟩
  exact (found_of_handle hrun hpast hcached hbreaks hstands.of_append.1).broken hreturned

theorem broken_iff_reported_example :
    Reported exampleObjects 0 0 (exampleReport ++ .handle (.extIfDown ⟨3⟩ ⟨1⟩) :: exampleStart) ∧
      ¬Reported exampleObjects 0 1
        (exampleReport ++ .handle (.extIfDown ⟨3⟩ ⟨1⟩) :: exampleStart) := by
  have hrun : Run State.start (step exampleObjects 0)
      (exampleReport ++ .handle (.extIfDown ⟨3⟩ ⟨1⟩) :: exampleStart) _ :=
    ((((Run.start.next rfl).next rfl).next rfl).next rfl).next rfl
  have hstands : ∀ path, Stands path
      (exampleReport ++ .handle (.extIfDown ⟨3⟩ ⟨1⟩) :: exampleStart) := fun path =>
    ⟨by simp [exampleReport, exampleStart], by simp [exampleReport, exampleStart]⟩
  exact ⟨(broken_iff_reported hrun rfl (hstands 0)).mp (by decide),
    fun h => (broken_iff_reported hrun rfl (hstands 1)).mpr h rfl⟩

/-! ### Failover -/

theorem setPacket_setPacket (s : State) (queue : ℕ) (packet packet' : Packet) :
    (s.setPacket queue packet).setPacket queue packet' = s.setPacket queue packet' := by
  rw [State.setPacket, State.setPacket, State.setPacket, Function.update_idem]

/-- The loop of `selectPath` ends at the first path that is not marked. -/
theorem run_search {queue flow : ℕ} {paths : List ℕ}
    (h : s.packets queue = .searching flow paths) : ∃ n, Run s (step objects minLife)
      (List.replicate n (.probe queue))
      (s.setPacket queue (match paths.find? fun path => s.broken path == 0 with
        | some path => .chosen flow path
        | none => .none)) := by
  induction paths generalizing s with
  | nil =>
    refine ⟨1, Run.start.next ?_⟩
    rw [step, h]
    rfl
  | cons path paths ih =>
    by_cases hbroken : s.broken path = 0
    · refine ⟨1, Run.start.next ?_⟩
      rw [step, h]
      simp [hbroken]
    · have hprobe : step objects minLife s (.probe queue)
          = some (s.setPacket queue (.searching flow paths)) := by
        rw [step, h]
        simp [hbroken]
      obtain ⟨n, hrun⟩ := ih (s := s.setPacket queue (.searching flow paths))
        (by rw [packets_setPacket, if_pos rfl])
      refine ⟨n + 1, ?_⟩
      rw [List.replicate_succ', List.find?_cons_of_neg (by simpa using hbroken)]
      rw [setPacket_setPacket] at hrun
      exact (Run.start.next hprobe).append hrun

/-- A packet of a flow whose path has failed, or that has none, is sent over the first path that
works, if there is one. -/
theorem run_failover {queue flow : ℕ} {type : FlowType} {now : ℤ} {r : Route}
    {policy : List ℕ → List ℕ} {path : ℕ} (hidle : s.packets queue = .none)
    (hunlocked : s.handling = none)
    (hbad : ∀ p, s.flows flow = some p →
      s.broken p ≠ 0 ∨ expiresSoon type now (objects p).path = true)
    (hfirst : (policy (valid objects s r now)).find? (fun p => s.broken p == 0) = some path) :
    ∃ n, Run s (step objects minLife)
      (.send queue path :: (List.replicate n (.probe queue)
        ++ [.lookup queue r now policy, .test queue type false now, .read queue flow]))
      { s with flows := Function.update s.flows flow (some path) } := by
  have hread : step objects minLife s (.read queue flow)
      = some (s.setPacket queue (.read flow (s.flows flow))) := by
    rw [step, if_pos hidle]
  have htest : step objects minLife (s.setPacket queue (.read flow (s.flows flow)))
      (.test queue type false now) = some (s.setPacket queue (.asking flow false (s.flows flow))) := by
    have htested : tested objects s flow (s.flows flow) type false now
        = .asking flow false (s.flows flow) := by
      cases hflow : s.flows flow with
      | none => rfl
      | some p => exact if_pos (hbad p hflow)
    rw [step, packets_setPacket, if_pos rfl]
    dsimp only
    rw [setPacket_setPacket]
    exact congrArg (fun packet => some (s.setPacket queue packet)) htested
  have hlookup : step objects minLife (s.setPacket queue (.asking flow false (s.flows flow)))
      (.lookup queue r now policy)
      = some (s.setPacket queue (.searching flow (policy (valid objects s r now)))) := by
    rw [step, packets_setPacket, if_pos rfl]
    dsimp only
    rw [if_pos (by exact hunlocked), setPacket_setPacket]
    rfl
  obtain ⟨n, hsearch⟩ := @run_search objects minLife
    (s.setPacket queue (.searching flow (policy (valid objects s r now)))) _ _ _
    (by rw [packets_setPacket, if_pos rfl])
  rw [setPacket_setPacket, State.broken_setPacket, hfirst] at hsearch
  have hsend : step objects minLife (s.setPacket queue (.chosen flow path)) (.send queue path)
      = some { s with flows := Function.update s.flows flow (some path) } := by
    have hqueue : Function.update (Function.update s.packets queue (.chosen flow path)) queue .none
        = s.packets := by
      rw [Function.update_idem, ← hidle, Function.update_eq_self]
    rw [step, packets_setPacket, if_pos rfl]
    dsimp only
    rw [if_pos rfl, State.setPacket, State.setPacket]
    dsimp only
    rw [hqueue]
  exact ⟨n, ((((Run.start.next hread).next htest).next hlookup).append hsearch).next hsend⟩

/-- The first path of the flow is broken. -/
def exampleFailed : State where
  cache := AList.insert ⟨⟨1⟩, ⟨2⟩⟩ [0, 1] ∅
  broken := fun path => if path = 0 then 5 else 0
  flows := fun _ => some 0
  handling := none
  packets := fun _ => .none

theorem run_failover_example : ∃ n, Run exampleFailed (step exampleObjects 0)
    (.send 0 1 :: (List.replicate n (.probe 0)
      ++ [.lookup 0 ⟨⟨1⟩, ⟨2⟩⟩ 0 id, .test 0 .active false 0, .read 0 7]))
    { exampleFailed with flows := Function.update exampleFailed.flows 7 (some 1) } :=
  run_failover rfl rfl (fun p hp => .inl (by cases hp; decide)) (by decide)

end PathFailover

end Scion
