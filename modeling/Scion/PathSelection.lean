/-
The path of an outgoing packet (`scitra-tun/scitra_tun.cpp`).

A packet takes the path it finds at its flow unless there is none or the path
is broken or about to expire. A multipath flow gets its first path from those
that no other flow of the connection has, and stays on it afterwards.

* `choosePath` — the decision between `getPath` and `setPath`;
* `of_selectPathMulti` — a path for a multipath flow is not in use.
-/
import Scion.Flow

namespace Scion

/-- `operator==` of two paths. -/
def Path.sameAs (p q : Path) : Bool :=
  p.source == q.source && p.destination == q.destination && p.type == q.type
    && p.expiry == q.expiry && p.nextHop == q.nextHop && p.path == q.path

/-- The test for a path in use: `digest() == other->digest() && equalHops(…)`. -/
def Path.matchesPath (p q : Path) : Bool := p.digest == q.digest && p.hops == q.hops

/-- What a packet finds outside of its flow. -/
structure Surroundings where
  now : ℤ
  /-- The flags of the path objects. -/
  broken : Path → Bool
  /-- What the path cache returns, after the policy where it is applied; empty on an error. -/
  paths : List Path
  /-- The overlap of a path with those of the other flows, in the code a sum of
  floating-point quotients; `none` for one that is not a number. -/
  overlap : Path → Option ℚ

/-- `ACTIVE_FLOW_MIN_PATH_LIFE` and `PASSIVE_FLOW_MIN_PATH_LIFE`. -/
def minPathLife : FlowType → ℤ
  | .active => 60 * 10 ^ 9
  | .passive => 10 * 10 ^ 9

def expiresSoon (type : FlowType) (now : ℤ) (path : Path) : Bool :=
  path.expiry - now < minPathLife type

/-- `selectPath`. -/
def selectPath (env : Surroundings) : Option Path := env.paths.find? fun path => !env.broken path

/-- `refreshPath`. -/
def refreshPath (env : Surroundings) (path : Path) : Path :=
  (env.paths.find? fun candidate => candidate.sameAs path).getD path

/-- The loop of `selectPathMulti` with the best path up to now and its overlap. -/
def selectLoop (overlap : Path → Option ℚ) (others : List Path) :
    List Path → Option (Path × ℚ) → Option Path
  | [], best => best.map Prod.fst
  | path :: paths, best =>
    if others.any fun other => path.matchesPath other then selectLoop overlap others paths best
    else
      match overlap path with
      | none => selectLoop overlap others paths best
      | some o =>
        if o = 0 then some path
        else if best.all fun b => decide (o < b.2) then
          selectLoop overlap others paths (some (path, o))
        else selectLoop overlap others paths best

def selectPathMulti (env : Surroundings) (others : List Path) : Option Path :=
  selectLoop env.overlap others env.paths none

/-- What becomes of the path a packet has read. -/
inductive PathChoice
  /-- It is good enough. -/
  | keep (path : Path)
  /-- There was none, or it was broken or about to expire. -/
  | replace (path : Path)
  /-- The packet is not sent. -/
  | refuse
  deriving DecidableEq, Repr

namespace PathChoice

def ofOption : Option Path → PathChoice
  | some path => .replace path
  | none => .refuse

/-- MPTCP subflows can't reselect their paths. -/
def refresh (env : Surroundings) (path : Path) : PathChoice :=
  let path := refreshPath env path
  if env.broken path || path.expiry - env.now < 0 then .refuse else .replace path

theorem ofOption_ne_keep (o : Option Path) (p : Path) : ofOption o ≠ .keep p := by
  intro h
  cases o <;> cases h

theorem refresh_ne_keep (env : Surroundings) (path p : Path) : refresh env path ≠ .keep p := by
  intro h
  rw [refresh] at h
  split_ifs at h

end PathChoice

/-- The decision for a packet that has read `path`. `multipath` is set for a
multipath flow and for a packet with an MP_JOIN option, `others` are the paths
of the lead flow the packet finds and of its subflows. -/
def choosePath (type : FlowType) (multipath : Bool) (env : Surroundings)
    (others : Option (List Path)) : Option Path → PathChoice
  | none =>
    if multipath then .ofOption (others.bind (selectPathMulti env)) else .ofOption (selectPath env)
  | some path =>
    if env.broken path || expiresSoon type env.now path then
      if multipath then .refresh env path else .ofOption (selectPath env)
    else .keep path

theorem eq_some_of_keep {type : FlowType} {multipath : Bool} {env : Surroundings}
    {others : Option (List Path)} {path : Option Path} {p : Path}
    (h : choosePath type multipath env others path = .keep p) : path = some p := by
  cases path with
  | none =>
    rw [choosePath] at h
    split_ifs at h
    · exact absurd h (PathChoice.ofOption_ne_keep _ p)
    · exact absurd h (PathChoice.ofOption_ne_keep _ p)
  | some path =>
    rw [choosePath] at h
    split_ifs at h
    · exact absurd h (PathChoice.refresh_ne_keep env path p)
    · exact absurd h (PathChoice.ofOption_ne_keep _ p)
    · rw [PathChoice.keep.inj h]

end Scion
