/-
The built-in path selector (`interposer/src/builtin_selector.cpp`).

The selector remembers the path that it last selected for an AS and, on a passive socket,
the paths of the last clients. Passive sockets are to answer on the path of the client. No
callback makes a socket passive.

* `State.step` — what the callbacks do to the state of a socket;
* `State.select_eq_some`, `State.select_eq_none` — what is selected is a working path;
* `active_of_run` — sockets are never passive and remember no clients;
* `selects_iff` — the runs in which replies follow the path of the client.
-/
import Scion.Runs
import Scion.SocketAddress
import Scion.PathDigest

namespace Scion

open Runs

/-! ### Circular buffers -/

/-- `boost::circular_buffer`, oldest element first. -/
structure CircularBuffer (α : Type) where
  capacity : ℕ
  items : List α
  fits : items.length ≤ capacity

namespace CircularBuffer

variable {α : Type}

def empty : CircularBuffer α := ⟨0, [], le_rfl⟩

/-- Elements that no longer fit are removed from the front. -/
def rsetCapacity (n : ℕ) (b : CircularBuffer α) : CircularBuffer α where
  capacity := n
  items := b.items.drop (b.items.length - n)
  fits := by
    rw [List.length_drop]
    omega

/-- A full buffer overwrites its first element. -/
def pushBack (x : α) (b : CircularBuffer α) : CircularBuffer α where
  capacity := b.capacity
  items := (b.items ++ [x]).drop (b.items.length + 1 - b.capacity)
  fits := by
    rw [List.length_drop, List.length_append, List.length_singleton]
    omega

def set (i : ℕ) (x : α) (b : CircularBuffer α) : CircularBuffer α where
  capacity := b.capacity
  items := b.items.set i x
  fits := by
    rw [List.length_set]
    exact b.fits

end CircularBuffer

/-! ### The selector -/

/-- What the selector reads of a path in the array. The path is broken if the time is not
zero. -/
structure ListedPath where
  object : ℕ
  digest : PathDigest
  broken : UInt64
  deriving DecidableEq

def ListedPath.working (path : ListedPath) : Bool := path.broken == 0

/-- The state of a socket, but for its type, which is not read. -/
structure SelectorState where
  isPassive : Bool
  /-- The last path selected to an ISD-ASN. -/
  lastSelected : UInt64 → Option PathDigest
  /-- The last path used by a client. -/
  clients : CircularBuffer (SockaddrScion × PathDigest)

/-- `CLIENT_CAPACITY`. -/
def clientCapacity : ℕ := 32

/-- `find_path`, with nothing in place of `paths_len`. -/
def findPath (paths : List ListedPath) (digest : PathDigest) : Option ListedPath :=
  paths.find? fun path => path.digest == digest

/-- The first path with the digest, unless it is broken. -/
def usablePath (paths : List ListedPath) (digest : PathDigest) : Option ListedPath :=
  (findPath paths digest).filter ListedPath.working

/-- The callbacks of a socket, with what they read. -/
inductive SelectorEvent
  | bind (addr : SockaddrScion)
  | connect (addr : SockaddrScion)
  | received (sender : SockaddrScion) (path : RawPath)
  | selectCached (dest : SockaddrScion) (path : ListedPath)
  | select (dest : SockaddrScion) (paths : List ListedPath)

namespace SelectorState

/-- `scion_sel_notify_created`. -/
def created : SelectorState := ⟨false, fun _ => none, CircularBuffer.empty⟩

/-- `scion_sel_notify_connect`. -/
def notifyConnect (s : SelectorState) : SelectorState where
  isPassive := false
  lastSelected := fun _ => none
  clients := s.clients.rsetCapacity 0

/-- A client is updated where it is, or takes the place of the first one. -/
def record (s : SelectorState) (sender : SockaddrScion) (digest : PathDigest) :
    CircularBuffer (SockaddrScion × PathDigest) :=
  let clients := if s.clients.capacity = 0 then s.clients.rsetCapacity clientCapacity else s.clients
  match clients.items.findIdx? fun client => client.1 == sender with
  | some i => clients.set i (sender, digest)
  | none => clients.pushBack (sender, digest)

section Hash

variable (murmur : List UInt8 → UInt32 → UInt64 × UInt64) (randomSeed : UInt32)

/-- `scion_sel_notify_received`, which reverses the path of the packet. -/
def notifyReceived (s : SelectorState) (sender : SockaddrScion) (path : RawPath) :
    SelectorState × RawPath :=
  if !s.isPassive then (s, path)
  else
    let reversed := path.reverseInPlace
    if reversed.1 ≠ .ok then (s, reversed.2)
    else
      let digest := reversed.2.digest murmur randomSeed
      ({ s with clients := s.record sender digest.1 }, digest.2)

/-- The last path used by the destination. -/
def clientPath (s : SelectorState) (dest : SockaddrScion) (paths : List ListedPath) :
    Option ListedPath :=
  if s.isPassive then
    (s.clients.items.find? fun client => client.1 == dest).bind fun client => usablePath paths client.2
  else none

/-- The last path selected to the AS of the destination. -/
def repeatedPath (s : SelectorState) (dest : SockaddrScion) (paths : List ListedPath) :
    Option ListedPath :=
  (s.lastSelected dest.addr.isdAsn).bind (usablePath paths)

/-- `scion_sel_select`. -/
def select (s : SelectorState) (dest : SockaddrScion) (paths : List ListedPath) :
    Option ListedPath × SelectorState :=
  match s.clientPath dest paths with
  | some path => (some path, s)
  | none =>
    match s.repeatedPath dest paths with
    | some path => (some path, s)
    | none =>
      match paths.find? ListedPath.working with
      | some path =>
        (some path, { s with
          lastSelected := Function.update s.lastSelected dest.addr.isdAsn (some path.digest) })
      | none => (none, s)

/-- The state after a callback. -/
def step (s : SelectorState) : SelectorEvent → Option SelectorState
  | .bind _ => some s
  | .connect _ => some s.notifyConnect
  | .received sender path => some (s.notifyReceived murmur randomSeed sender path).1
  | .selectCached _ _ => some s
  | .select dest paths => some (s.select dest paths).2

end Hash

/-! ### Working paths -/

variable {s : SelectorState} {dest : SockaddrScion} {paths : List ListedPath} {path : ListedPath}

theorem usablePath_eq_some {digest : PathDigest} (h : usablePath paths digest = some path) :
    path ∈ paths ∧ path.working = true ∧ path.digest = digest := by
  obtain ⟨hfound, hworking⟩ := Option.filter_eq_some_iff.mp h
  have hdigest := List.find?_some hfound
  exact ⟨List.mem_of_find?_eq_some hfound, hworking, eq_of_beq hdigest⟩

theorem clientPath_eq_some (h : s.clientPath dest paths = some path) :
    path ∈ paths ∧ path.working = true := by
  rw [clientPath] at h
  split_ifs at h with hpassive
  obtain ⟨client, -, husable⟩ := Option.bind_eq_some_iff.mp h
  obtain ⟨hmem, hworking, -⟩ := usablePath_eq_some husable
  exact ⟨hmem, hworking⟩

theorem repeatedPath_eq_some (h : s.repeatedPath dest paths = some path) :
    path ∈ paths ∧ path.working = true := by
  obtain ⟨digest, -, husable⟩ := Option.bind_eq_some_iff.mp h
  obtain ⟨hmem, hworking, -⟩ := usablePath_eq_some husable
  exact ⟨hmem, hworking⟩

/-- The path of the client, else the last one that was selected, else the first that works. -/
theorem select_fst (s : SelectorState) (dest : SockaddrScion) (paths : List ListedPath) :
    (s.select dest paths).1 =
      (s.clientPath dest paths).or
        ((s.repeatedPath dest paths).or (paths.find? ListedPath.working)) := by
  rw [select]
  cases s.clientPath dest paths with
  | some path => rfl
  | none =>
    cases s.repeatedPath dest paths with
    | some path => rfl
    | none =>
      cases paths.find? ListedPath.working with
      | some path => rfl
      | none => rfl

/-- A selected path is one of the list, and works. -/
theorem select_eq_some (h : (s.select dest paths).1 = some path) :
    path ∈ paths ∧ path.working = true := by
  rw [select_fst, Option.or_eq_some_iff, Option.or_eq_some_iff] at h
  rcases h with hclient | ⟨-, hrepeated | ⟨-, hfirst⟩⟩
  · exact clientPath_eq_some hclient
  · exact repeatedPath_eq_some hrepeated
  · exact ⟨List.mem_of_find?_eq_some hfirst, List.find?_some hfirst⟩

/-- Nothing is selected from a list only if none of its paths works. -/
theorem select_eq_none (h : (s.select dest paths).1 = none) :
    ∀ path ∈ paths, path.working = false := by
  rw [select_fst, Option.or_eq_none_iff, Option.or_eq_none_iff] at h
  intro path hmem
  exact Bool.eq_false_of_not_eq_true (List.find?_eq_none.mp h.2.2 path hmem)

end SelectorState

/-! ### Histories -/

namespace SelectorEvent

def sender : SelectorEvent → Option SockaddrScion
  | received sender _ => some sender
  | _ => none

/-- The path of a packet from an endpoint. -/
def pathFrom (dest : SockaddrScion) : SelectorEvent → Option RawPath
  | received sender path => if sender = dest then some path else none
  | _ => none

end SelectorEvent

/-- The endpoints from which packets were received most recently, latest first. -/
def recentSenders (past : List SelectorEvent) : List SockaddrScion :=
  (past.filterMap SelectorEvent.sender).eraseDups.take 32

section Hash

variable (murmur : List UInt8 → UInt32 → UInt64 × UInt64) (randomSeed : UInt32)

/-- The digest of the reverse of the path of the last packet from an endpoint. -/
def clientDigest (past : List SelectorEvent) (dest : SockaddrScion) : Option PathDigest :=
  (past.findSome? (SelectorEvent.pathFrom dest)).bind fun path =>
    if path.reverseInPlace.1 = .ok then some (path.reverseInPlace.2.digest murmur randomSeed).1
    else none

/-- The socket is to reply on the path of the client, which has the digest. -/
structure IsReply (past : List SelectorEvent) (dest : SockaddrScion) (paths : List ListedPath)
    (digest : PathDigest) : Prop where
  unconnected : ∀ addr, SelectorEvent.connect addr ∉ past
  recent : dest ∈ recentSenders past
  last : clientDigest murmur randomSeed past dest = some digest
  listed : ∃ path ∈ paths, path.working = true ∧ path.digest = digest

/-- A path of the list that works is selected if there is one, and in a reply one on the
path of the client. -/
structure Selects (past : List SelectorEvent) (s : SelectorState) (dest : SockaddrScion)
    (paths : List ListedPath) : Prop where
  works : (∃ path ∈ paths, path.working = true) →
    ∃ path ∈ paths, path.working = true ∧ (s.select dest paths).1 = some path
  null : (∀ path ∈ paths, path.working = false) → (s.select dest paths).1 = none
  follows : ∀ digest, IsReply murmur randomSeed past dest paths digest →
    ∃ path, (s.select dest paths).1 = some path ∧ path.digest = digest

/-- Without regard for the client the path with the digest is next: it was the last one
selected to the AS of the destination, and can be repeated, or none can be repeated and it
is the first that works. -/
def IsNext (s : SelectorState) (dest : SockaddrScion) (paths : List ListedPath)
    (digest : PathDigest) : Prop :=
  (s.lastSelected dest.addr.isdAsn = some digest ∧ usablePath paths digest ≠ none) ∨
    ((∀ last, s.lastSelected dest.addr.isdAsn = some last → usablePath paths last = none) ∧
      (paths.find? ListedPath.working).map ListedPath.digest = some digest)

/-- No callback makes a socket passive, and other sockets remember no clients. -/
theorem active_of_run {h : List SelectorEvent} {s : SelectorState}
    (hrun : Run SelectorState.created (SelectorState.step murmur randomSeed) h s) :
    s.isPassive = false ∧ s.clients.items = [] := by
  refine Run.invariant (I := fun _ s => s.isPassive = false ∧ s.clients.items = [])
    ⟨rfl, rfl⟩ ?_ hrun
  rintro past s e s' ⟨hactive, hnone⟩ hstep
  cases e with
  | bind addr =>
    cases hstep
    exact ⟨hactive, hnone⟩
  | connect addr =>
    cases hstep
    -- a buffer without capacity is empty
    exact ⟨rfl, List.length_eq_zero_iff.mp (Nat.le_zero.mp (s.clients.rsetCapacity 0).fits)⟩
  | received sender path =>
    cases hstep
    rw [SelectorState.notifyReceived, hactive, Bool.not_false, if_pos rfl]
    exact ⟨hactive, hnone⟩
  | selectCached dest path =>
    cases hstep
    exact ⟨hactive, hnone⟩
  | select dest paths =>
    cases hstep
    -- a selection changes nothing but the memory of selections
    have hsame : ∀ s' : SelectorState, (s'.select dest paths).2.isPassive = s'.isPassive ∧
        (s'.select dest paths).2.clients = s'.clients := by
      intro s'
      rw [SelectorState.select]
      split
      · exact ⟨rfl, rfl⟩
      · split
        · exact ⟨rfl, rfl⟩
        · split
          · exact ⟨rfl, rfl⟩
          · exact ⟨rfl, rfl⟩
    rw [(hsame s).1, (hsame s).2]
    exact ⟨hactive, hnone⟩

variable {murmur randomSeed} {past : List SelectorEvent} {s : SelectorState}

/-- On a socket that is not passive, what is selected has the digest that is next. -/
theorem select_digest_iff (hactive : s.isPassive = false) (dest : SockaddrScion)
    (paths : List ListedPath) (digest : PathDigest) :
    (∃ path, (s.select dest paths).1 = some path ∧ path.digest = digest) ↔
      IsNext s dest paths digest := by
  have hclient : s.clientPath dest paths = none := by
    rw [SelectorState.clientPath, hactive]
    rfl
  rw [SelectorState.select_fst, hclient, Option.none_or, IsNext]
  cases hlast : s.lastSelected dest.addr.isdAsn with
  | none =>
    rw [SelectorState.repeatedPath, hlast, Option.bind_none, Option.none_or]
    simp
  | some last =>
    rw [SelectorState.repeatedPath, hlast, Option.bind_some]
    cases husable : usablePath paths last with
    | none =>
      -- the path of the last selection is not usable any more, so the first one that works is next
      rw [Option.none_or]
      constructor
      · rintro ⟨path, hfirst, rfl⟩
        refine Or.inr ⟨?_, by rw [hfirst, Option.map_some]⟩
        rintro _ ⟨⟩
        exact husable
      · rintro (⟨hsame, hsome⟩ | ⟨-, hfirst⟩)
        · cases hsame
          exact absurd husable hsome
        · exact Option.map_eq_some_iff.mp hfirst
    | some path =>
      have hdigest := (SelectorState.usablePath_eq_some husable).2.2
      rw [Option.some_or]
      constructor
      · rintro ⟨_, ⟨⟩, rfl⟩
        rw [hdigest, husable]
        exact Or.inl ⟨rfl, Option.some_ne_none path⟩
      · rintro (⟨hsame, -⟩ | ⟨hnone, -⟩)
        · cases hsame
          exact ⟨path, rfl, hdigest⟩
        · exact absurd (husable.symm.trans (hnone last rfl)) (Option.some_ne_none path)

theorem works_of_select (s : SelectorState) (dest : SockaddrScion) (paths : List ListedPath)
    (hworking : ∃ path ∈ paths, path.working = true) :
    ∃ path ∈ paths, path.working = true ∧ (s.select dest paths).1 = some path := by
  cases hselect : (s.select dest paths).1 with
  | some path =>
    obtain ⟨hmem, hworks⟩ := SelectorState.select_eq_some hselect
    exact ⟨path, hmem, hworks, rfl⟩
  | none =>
    obtain ⟨path, hmem, hworks⟩ := hworking
    rw [SelectorState.select_eq_none hselect path hmem] at hworks
    cases hworks

theorem null_of_select (s : SelectorState) (dest : SockaddrScion) (paths : List ListedPath)
    (hbroken : ∀ path ∈ paths, path.working = false) : (s.select dest paths).1 = none := by
  rw [Option.eq_none_iff_forall_ne_some]
  intro path hselect
  obtain ⟨hmem, hworks⟩ := SelectorState.select_eq_some hselect
  rw [hbroken path hmem] at hworks
  cases hworks

/-- In a run, all selections are those that are asked for exactly when in all replies the
path of the client is next also without regard for the client. -/
theorem selects_iff (murmur : List UInt8 → UInt32 → UInt64 × UInt64) (randomSeed : UInt32)
    (h : List SelectorEvent) :
    Always SelectorState.created (SelectorState.step murmur randomSeed)
      (fun past s e => ∀ dest paths, e = .select dest paths →
        Selects murmur randomSeed past s dest paths) h ↔
    Always SelectorState.created (SelectorState.step murmur randomSeed)
      (fun past s e => ∀ dest paths, e = .select dest paths → ∀ digest,
        IsReply murmur randomSeed past dest paths digest → IsNext s dest paths digest) h := by
  constructor
  · intro hselects past s e hrun hsuffix dest paths he digest hreply
    have hfollows := (hselects past s e hrun hsuffix dest paths he).follows digest hreply
    exact (select_digest_iff (active_of_run murmur randomSeed hrun).1 dest paths digest).mp hfollows
  · intro hnext past s e hrun hsuffix dest paths he
    refine ⟨works_of_select s dest paths, null_of_select s dest paths, ?_⟩
    intro digest hreply
    have hdigest := hnext past s e hrun hsuffix dest paths he digest hreply
    exact (select_digest_iff (active_of_run murmur randomSeed hrun).1 dest paths digest).mpr hdigest

/-- The length of what is hashed, in place of a hash. -/
def lengthHash (bytes : List UInt8) (_ : UInt32) : UInt64 × UInt64 :=
  (UInt64.ofNat bytes.length, 0)

def exampleClient : SockaddrScion := ⟨0, 0, ⟨HostAddrType.ipv4, 0, 1, List.replicate 16 0⟩⟩

/-- A client is answered on the first path, not on its own one. -/
theorem not_forall_selects :
    ¬ ∀ (murmur : List UInt8 → UInt32 → UInt64 × UInt64) (randomSeed : UInt32)
      (h : List SelectorEvent),
      Always SelectorState.created (SelectorState.step murmur randomSeed)
        (fun past s e => ∀ dest paths, e = .select dest paths →
          Selects murmur randomSeed past s dest paths) h := by
  intro hclaim
  have hrun : Run SelectorState.created (SelectorState.step lengthHash 0)
      [.received exampleClient (RawPath.empty.encode (twoSegmentPath 0 1))]
      SelectorState.created := Run.start.next rfl
  let paths : List ListedPath := [⟨0, ⟨1, 1⟩, 0⟩, ⟨1, ⟨0, 0⟩, 0⟩]
  have hselects := hclaim lengthHash 0 [.select exampleClient paths,
    .received exampleClient (RawPath.empty.encode (twoSegmentPath 0 1))] _ _ _ hrun
    List.suffix_rfl exampleClient paths rfl
  have hlast : clientDigest lengthHash 0
      [.received exampleClient (RawPath.empty.encode (twoSegmentPath 0 1))] exampleClient
        = some ⟨0, 0⟩ := by decide +kernel
  obtain ⟨path, hselect, hdigest⟩ := hselects.follows ⟨0, 0⟩ ⟨by simp, by decide +kernel, hlast,
    by decide⟩
  have hfirst : (SelectorState.created.select exampleClient paths).1 = some ⟨0, ⟨1, 1⟩, 0⟩ := rfl
  rw [hfirst] at hselect
  cases hselect
  exact absurd hdigest (by decide)

end Hash

end Scion
