/-
Newer versions of the path of a flow (`scitra-tun/scitra_tun.cpp`, `path/path.hpp`).

A multipath flow stays on the route of its first path, of which the path cache gets new
versions before the old ones expire. The version in the cache is compared with the old one
byte by byte, its expiry included.

* `PathCache.refreshPath` — the call, for what the cache holds when it is read;
* `expiry_refreshPath` — the result expires when the old path does;
* `refreshes_iff` — when that is all that was asked for.
-/
import Scion.LastStored
import Scion.PathSelection

namespace Scion

namespace PathCache

/-- `refreshPath`; `ec` is what `update` returned before the cache is read. -/
def refreshPath (c : PathCache) (now : ℤ) (ec : ErrorCode) (path : Path) : Path :=
  match c.lookup now ⟨path.source, path.destination⟩ ec with
  | .ok paths => (paths.find? fun candidate => candidate.sameAs path).getD path
  | .error _ => path

/-- A path along the same hops between the same ASes. -/
def SameRoute (p q : Path) : Prop :=
  q.source = p.source ∧ q.destination = p.destination ∧ q.hops = p.hops

instance (p q : Path) : Decidable (SameRoute p q) := inferInstanceAs (Decidable (_ ∧ _ ∧ _))

/-- The cache holds a newer version of the path. -/
def HoldsNewer (c : PathCache) (p : Path) : Prop :=
  ∃ r, ∃ q ∈ c.paths r, SameRoute p q ∧ p.expiry < q.expiry

/-- The route is kept, and the path is renewed if the cache holds a newer version. -/
def Refreshes (c : PathCache) (now : ℤ) (ec : ErrorCode) (p : Path) : Prop :=
  SameRoute p (c.refreshPath now ec p) ∧
    (c.HoldsNewer p → p.expiry < (c.refreshPath now ec p).expiry)

/-- The result is the path itself or one that is equal to it but for its MTU. -/
theorem sameAs_refreshPath (c : PathCache) (now : ℤ) (ec : ErrorCode) (path : Path) :
    (c.refreshPath now ec path).sameAs path = true := by
  have hself : path.sameAs path = true := by simp [Path.sameAs]
  rw [refreshPath]
  cases c.lookup now ⟨path.source, path.destination⟩ ec with
  | error e => exact hself
  | ok paths =>
    dsimp only
    cases h : paths.find? fun candidate => candidate.sameAs path with
    | none => exact hself
    | some candidate =>
      have hsame := List.find?_some h
      exact hsame

/-- What a packet finds outside of its flow is what the lookup returns. -/
theorem refreshPath_eq {c : PathCache} {now : ℤ} {ec : ErrorCode} {env : Surroundings} {path : Path}
    (h : env.paths = (c.lookup now ⟨path.source, path.destination⟩ ec).toOption.getD []) :
    c.refreshPath now ec path = Scion.refreshPath env path := by
  rw [refreshPath, Scion.refreshPath, h]
  cases c.lookup now ⟨path.source, path.destination⟩ ec with
  | error e => rfl
  | ok paths => rfl

theorem sameRoute_of_sameAs {p q : Path} (h : q.sameAs p = true) :
    SameRoute p q ∧ q.expiry = p.expiry := by
  simp only [Path.sameAs, Bool.and_eq_true, beq_iff_eq] at h
  obtain ⟨⟨⟨⟨⟨hsource, hdestination⟩, htype⟩, hexpiry⟩, -⟩, hpath⟩ := h
  refine ⟨⟨hsource, hdestination, ?_⟩, hexpiry⟩
  rw [Path.hops, Path.hops, htype, hpath]

theorem expiry_refreshPath (c : PathCache) (now : ℤ) (ec : ErrorCode) (path : Path) :
    (c.refreshPath now ec path).expiry = path.expiry :=
  (sameRoute_of_sameAs (c.sameAs_refreshPath now ec path)).2

/-- A path is refreshed as it should be exactly if there is nothing to renew it with. -/
theorem refreshes_iff (c : PathCache) (now : ℤ) (ec : ErrorCode) (p : Path) :
    c.Refreshes now ec p ↔
      ∀ r, ∀ q ∈ c.paths r, SameRoute p q → q.expiry ≤ p.expiry := by
  constructor
  · intro h r q hq hroute
    by_contra hlater
    have hrenewed := h.2 ⟨r, q, hq, hroute, not_le.mp hlater⟩
    rw [expiry_refreshPath] at hrenewed
    exact lt_irrefl _ hrenewed
  · intro h
    refine ⟨(sameRoute_of_sameAs (c.sameAs_refreshPath now ec p)).1, ?_⟩
    rintro ⟨r, q, hq, hroute, hlater⟩
    exact absurd hlater (not_lt.mpr (h r q hq hroute))

/-- A path, and its next version with another timestamp. -/
def exampleOld : Path := exampleRawPath.makePath exampleHash 0 ⟨.v4 0x0a000001, 30041⟩

def exampleNew : Path :=
  Path.make exampleHash 0 exampleOld.source exampleOld.destination exampleOld.type
    (exampleOld.expiry + 1) 0 exampleOld.nextHop (Records.overwrite exampleOld.path 8 [0, 0, 0, 1])

/-- The path stays the old one. -/
theorem not_forall_refreshes :
    ¬∀ (c : PathCache) (now : ℤ) (ec : ErrorCode) (p : Path), c.Refreshes now ec p := by
  intro hclaim
  let r : Route := ⟨exampleOld.source, exampleOld.destination⟩
  let c := (make 0 0 0).set r ⟨0, false, [exampleNew]⟩
  have hroute : SameRoute exampleOld exampleNew := by decide +kernel
  have hcached : exampleNew ∈ c.paths r := by
    have hset : c.cache r = some ⟨0, false, [exampleNew]⟩ := by
      simp [c, PathCache.set]
    rw [PathCache.paths, hset]
    exact List.mem_singleton.mpr rfl
  have hrenewed := (hclaim c 0 .ok exampleOld).2 ⟨r, exampleNew, hcached, hroute, by decide +kernel⟩
  rw [expiry_refreshPath] at hrenewed
  exact lt_irrefl _ hrenewed

end PathCache

end Scion
