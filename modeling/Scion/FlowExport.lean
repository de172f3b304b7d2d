/-
Export of the flow table (`ScitraTun::exportFlows` in `scitra-tun/scitra_tun.cpp`).

The loop writes what it reads of a flow to variables that it shares with the flows to come.
All are written before they are read again but the flags: once a multipath flow has set the
flag, every record that follows has it. The counters of exported flows can be reset, so that
each export tells what has been counted since the last.

* `FlowExport.exportFlows` — the loop over the table;
* `FlowExport.exportFlows_eq` — its records and the counters it leaves;
* `FlowExport.faithful_iff` — the runs whose records describe their flows and lose nothing.
-/
import Scion.FlowOwners
import Mathlib.Algebra.Group.Prod
import Mathlib.Algebra.BigOperators.Group.List.Basic

namespace Scion

open Runs

/-! ### Counters -/

structure FlowCounters where
  pktsEgress : UInt32 := 0
  bytesEgress : UInt32 := 0
  pktsIngress : UInt32 := 0
  bytesIngress : UInt32 := 0
  deriving DecidableEq, Repr

namespace FlowCounters

def countEgress (pkts bytes : UInt32) (c : FlowCounters) : FlowCounters :=
  { c with pktsEgress := c.pktsEgress + pkts, bytesEgress := c.bytesEgress + bytes }

def countIngress (pkts bytes : UInt32) (c : FlowCounters) : FlowCounters :=
  { c with pktsIngress := c.pktsIngress + pkts, bytesIngress := c.bytesIngress + bytes }

/-- The values of the counters. -/
def values (c : FlowCounters) : ℕ × ℕ × ℕ × ℕ :=
  (c.pktsEgress.toNat, c.bytesEgress.toNat, c.pktsIngress.toNat, c.bytesIngress.toNat)

theorem toNat_add_eq_iff (a b : UInt32) :
    (a + b).toNat = a.toNat + b.toNat ↔ a.toNat + b.toNat < 2 ^ 32 := by
  rw [UInt32.toNat_add]
  exact ⟨fun h => h ▸ Nat.mod_lt _ (by norm_num), Nat.mod_eq_of_lt⟩

theorem values_countEgress_iff (pkts bytes : UInt32) (c : FlowCounters) :
    (c.countEgress pkts bytes).values = c.values + (pkts.toNat, bytes.toNat, 0, 0) ↔
      c.pktsEgress.toNat + pkts.toNat < 2 ^ 32 ∧ c.bytesEgress.toNat + bytes.toNat < 2 ^ 32 := by
  simp only [values, countEgress, Prod.mk_add_mk, Prod.mk.injEq, add_zero, and_true,
    toNat_add_eq_iff]

theorem values_countIngress_iff (pkts bytes : UInt32) (c : FlowCounters) :
    (c.countIngress pkts bytes).values = c.values + (0, 0, pkts.toNat, bytes.toNat) ↔
      c.pktsIngress.toNat + pkts.toNat < 2 ^ 32 ∧
        c.bytesIngress.toNat + bytes.toNat < 2 ^ 32 := by
  simp only [values, countIngress, Prod.mk_add_mk, Prod.mk.injEq, add_zero, true_and,
    toNat_add_eq_iff]

end FlowCounters

/-! ### Records -/

/-- `state > FlowState::CLOSED_WAIT`. -/
def FlowState.inUse : FlowState → Bool
  | closed | closedWait => false
  | _ => true

/-- The only flag is that of a multipath flow. -/
structure FlowInfo where
  tuple : FlowID
  multipath : Bool
  type : FlowType
  state : FlowState
  tc : UInt8
  boundTo : IPEndpoint
  mptcpRemoteToken : UInt32
  counters : FlowCounters
  lastUsed : ℤ
  path : Option Path
  mtu : UInt16
  deriving DecidableEq, Repr

namespace FlowExport

/-- The variables of `exportFlows`. Those that the code leaves uninitialised are written
before they are read. -/
structure Locals where
  multipath : Bool := false
  state : FlowState := .closed
  tc : UInt8 := 0
  token : UInt32 := 0
  counters : FlowCounters := {}
  lastUsed : ℤ := 0
  path : Option Path := none

/-- `getTrafficClass` and the other getters. -/
def Locals.read (flow : Flow) (counters : FlowCounters) (l : Locals) : Locals :=
  { l with
    state := flow.state
    tc := flow.tc
    token := flow.mptcpToken
    lastUsed := flow.lastUsed
    counters := counters
    path := flow.path }

/-- The loop, the counters of all flows included. -/
structure Loop where
  locals : Locals := {}
  counters : FlowPtr → FlowCounters
  out : List FlowInfo := []

section Loop

variable (getMtu : IPAddress → Path → UInt16) (heap : Flows) (resetCounters : Bool)

def Locals.info (id : FlowID) (type : FlowType) (localEp : IPEndpoint) (l : Locals) : FlowInfo where
  tuple := id
  multipath := l.multipath
  type := type
  state := l.state
  tc := l.tc
  boundTo := localEp
  mptcpRemoteToken := l.token
  counters := l.counters
  lastUsed := l.lastUsed
  path := l.path
  mtu := l.path.elim 0 (getMtu id.dst.localEp.host)

/-- Read the flow `f`, a subflow of `lead` or `lead` itself, and add its record. -/
def addRecord (id : FlowID) (lead : FlowPtr) (s : Loop) (f : FlowPtr) : Loop :=
  let l := s.locals.read (heap.get f) (s.counters f)
  { locals := l
    counters := if resetCounters then Function.update s.counters f {} else s.counters
    out := s.out ++ [l.info getMtu id (heap.get lead).type (heap.get f).boundTo] }

/-- An entry of the table. -/
def exportEntry (s : Loop) (x : Sigma fun _ : FlowID => FlowPtr) : Loop :=
  let flow := heap.get x.2
  let s := { s with locals := { s.locals with
    multipath := s.locals.multipath || flow.multipath
    state := flow.state } }
  let s := if flow.state.inUse then addRecord getMtu heap resetCounters x.1 x.2 s x.2 else s
  if s.locals.multipath then flow.subflows.foldl (addRecord getMtu heap resetCounters x.1 x.2) s
  else s

/-- `exportFlows`; `order` is that in which the loop comes to the flows. -/
def exportFlows (counters : FlowPtr → FlowCounters)
    (order : List (Sigma fun _ : FlowID => FlowPtr)) : Loop :=
  order.foldl (exportEntry getMtu heap resetCounters) { counters := counters }

end Loop

/-! ### What is to be exported -/

/-- The flows of an entry that have a record: the lead flow while it is in use, and the
subflows of a multipath flow. -/
def members (heap : Flows) (f : FlowPtr) : List FlowPtr :=
  (if (heap.get f).state.inUse then [f] else []) ++
    if (heap.get f).multipath then (heap.get f).subflows else []

/-- The flows that have a record, in the order of the table, with their ID. -/
def exported (heap : Flows) (order : List (Sigma fun _ : FlowID => FlowPtr)) :
    List (FlowID × FlowPtr) :=
  order.flatMap fun x => (members heap x.2).map fun f => (x.1, f)

/-- The record tells of the flow `x.2` and of no other. -/
structure Describes (heap : Flows) (counters : FlowPtr → FlowCounters) (x : FlowID × FlowPtr)
    (info : FlowInfo) : Prop where
  tuple : info.tuple = x.1
  multipath : info.multipath = (heap.get x.2).multipath
  state : info.state = (heap.get x.2).state
  tc : info.tc = (heap.get x.2).tc
  boundTo : info.boundTo = (heap.get x.2).boundTo
  token : info.mptcpRemoteToken = (heap.get x.2).mptcpToken
  counters : info.counters = counters x.2
  lastUsed : info.lastUsed = (heap.get x.2).lastUsed
  path : info.path = (heap.get x.2).path

/-- One record for each flow, and no other flow's counters are reset. -/
structure FaithfulExport (heap : Flows) (resetCounters : Bool) (counters : FlowPtr → FlowCounters)
    (order : List (Sigma fun _ : FlowID => FlowPtr)) (s : Loop) : Prop where
  records : List.Forall₂ (Describes heap counters) (exported heap order) s.out
  counters : ∀ f, s.counters f =
    if resetCounters ∧ f ∈ (exported heap order).map Prod.snd then {} else counters f

/-- No flow without the flag has its record after a multipath flow. -/
def InOrder (heap : Flows) (order : List (Sigma fun _ : FlowID => FlowPtr)) : Prop :=
  order.Pairwise fun x y => (heap.get x.2).multipath = true → (heap.get y.2).state.inUse = true →
    (heap.get y.2).multipath = true

/-! ### The loop -/

/-- The record of `f`, a flow of the entry `x`, while the flag is `multipath`. -/
def recordOf (getMtu : IPAddress → Path → UInt16) (heap : Flows)
    (counters : FlowPtr → FlowCounters) (multipath : Bool) (x : Sigma fun _ : FlowID => FlowPtr)
    (f : FlowPtr) : FlowInfo :=
  (Locals.read (heap.get f) (counters f) { multipath := multipath }).info getMtu x.1
    (heap.get x.2).type (heap.get f).boundTo

/-- The records of all entries; the flag is never taken back. -/
def recordsFrom (getMtu : IPAddress → Path → UInt16) (heap : Flows)
    (counters : FlowPtr → FlowCounters) :
    Bool → List (Sigma fun _ : FlowID => FlowPtr) → List FlowInfo
  | _, [] => []
  | multipath, x :: xs =>
    let multipath := multipath || (heap.get x.2).multipath
    (members heap x.2).map (recordOf getMtu heap counters multipath x)
      ++ recordsFrom getMtu heap counters multipath xs

/-- The counters of `fs` are reset. -/
def cleared (resetCounters : Bool) (fs : List FlowPtr) (counters : FlowPtr → FlowCounters) :
    FlowPtr → FlowCounters :=
  fun f => if resetCounters ∧ f ∈ fs then {} else counters f

variable {getMtu : IPAddress → Path → UInt16} {heap : Flows} {resetCounters : Bool}
  {counters counters' : FlowPtr → FlowCounters}
  {order : List (Sigma fun _ : FlowID => FlowPtr)}

theorem cleared_nil : cleared resetCounters [] counters = counters := by
  funext f
  exact if_neg fun h => List.not_mem_nil h.2

theorem cleared_append (fs gs : List FlowPtr) :
    cleared resetCounters gs (cleared resetCounters fs counters) =
      cleared resetCounters (fs ++ gs) counters := by
  funext f
  simp only [cleared, List.mem_append]
  cases resetCounters <;> grind

theorem cleared_of_notMem {fs : List FlowPtr} {f : FlowPtr} (h : f ∉ fs) :
    cleared resetCounters fs counters f = counters f :=
  if_neg fun hf => h hf.2

theorem addRecord_eq (id : FlowID) (lead : FlowPtr) (s : Loop) (f : FlowPtr) :
    (addRecord getMtu heap resetCounters id lead s f).out =
      s.out ++ [recordOf getMtu heap s.counters s.locals.multipath ⟨id, lead⟩ f] ∧
    (addRecord getMtu heap resetCounters id lead s f).counters =
      cleared resetCounters [f] s.counters ∧
    (addRecord getMtu heap resetCounters id lead s f).locals.multipath = s.locals.multipath := by
  refine ⟨rfl, ?_, rfl⟩
  funext g
  simp only [addRecord, cleared, List.mem_singleton]
  cases resetCounters with
  | false => simp
  | true => simp [Function.update_apply]

/-- Flows that differ from each other are read before they are reset. -/
theorem foldl_addRecord (id : FlowID) (lead : FlowPtr) {fs : List FlowPtr} (h : fs.Nodup)
    (s : Loop) :
    (fs.foldl (addRecord getMtu heap resetCounters id lead) s).out =
      s.out ++ fs.map (recordOf getMtu heap s.counters s.locals.multipath ⟨id, lead⟩) ∧
    (fs.foldl (addRecord getMtu heap resetCounters id lead) s).counters =
      cleared resetCounters fs s.counters ∧
    (fs.foldl (addRecord getMtu heap resetCounters id lead) s).locals.multipath =
      s.locals.multipath := by
  induction fs generalizing s with
  | nil => exact ⟨(List.append_nil _).symm, cleared_nil.symm, rfl⟩
  | cons f fs ih =>
    obtain ⟨hf, hfs⟩ := List.nodup_cons.mp h
    obtain ⟨hout, hcounters, hmulti⟩ := @addRecord_eq getMtu heap resetCounters id lead s f
    obtain ⟨ihout, ihcounters, ihmulti⟩ := ih hfs (addRecord getMtu heap resetCounters id lead s f)
    have hsame : fs.map (recordOf getMtu heap (cleared resetCounters [f] s.counters)
          s.locals.multipath ⟨id, lead⟩) =
        fs.map (recordOf getMtu heap s.counters s.locals.multipath ⟨id, lead⟩) := by
      refine List.map_congr_left fun g hg => ?_
      have hne : g ∉ [f] := fun hmem => hf (List.mem_singleton.mp hmem ▸ hg)
      rw [recordOf, cleared_of_notMem hne]
      rfl
    rw [List.foldl_cons]
    refine ⟨?_, ?_, ihmulti.trans hmulti⟩
    · rw [ihout, hout, hcounters, hmulti, hsame, List.append_assoc]
      rfl
    · rw [ihcounters, hcounters, cleared_append]
      rfl

/-- An entry is the loop over its members; flows without the flag have no subflows. -/
theorem exportEntry_eq (halone : FlowStates.Alone heap) (s : Loop)
    (x : Sigma fun _ : FlowID => FlowPtr) :
    exportEntry getMtu heap resetCounters s x =
      (members heap x.2).foldl (addRecord getMtu heap resetCounters x.1 x.2)
        { s with locals := { s.locals with
          multipath := s.locals.multipath || (heap.get x.2).multipath
          state := (heap.get x.2).state } } := by
  have hsub : (if (heap.get x.2).multipath then (heap.get x.2).subflows else []) =
      (heap.get x.2).subflows := by
    split_ifs with hmulti
    · rfl
    · exact (halone x.2 ((Bool.not_eq_true _).mp hmulti)).symm
  -- without the flag of the flow there is nothing that the flag of the loop lets through
  have hskip : ∀ s' : Loop, s'.locals.multipath = (s.locals.multipath || (heap.get x.2).multipath) →
      (if s'.locals.multipath then
        (heap.get x.2).subflows.foldl (addRecord getMtu heap resetCounters x.1 x.2) s' else s') =
      (heap.get x.2).subflows.foldl (addRecord getMtu heap resetCounters x.1 x.2) s' := by
    intro s' hs'
    split_ifs with hmulti
    · rfl
    · rw [hs', Bool.or_eq_true, not_or] at hmulti
      rw [halone x.2 ((Bool.not_eq_true _).mp hmulti.2)]
      rfl
  rw [members, hsub, exportEntry]
  dsimp only
  cases hstate : (heap.get x.2).state.inUse with
  | true =>
    rw [if_pos rfl, if_pos rfl, hskip]
    · rfl
    · rfl
  | false =>
    rw [if_neg Bool.false_ne_true, if_neg Bool.false_ne_true, hskip]
    · rfl
    · rfl

theorem recordsFrom_congr (multipath : Bool)
    (h : ∀ f ∈ order.flatMap fun x => members heap x.2, counters' f = counters f) :
    recordsFrom getMtu heap counters' multipath order =
      recordsFrom getMtu heap counters multipath order := by
  induction order generalizing multipath with
  | nil => rfl
  | cons x xs ih =>
    rw [List.flatMap_cons] at h
    rw [recordsFrom, recordsFrom]
    congr 1
    · refine List.map_congr_left fun f hf => ?_
      rw [recordOf, h f (List.mem_append_left _ hf)]
      rfl
    · exact ih _ fun f hf => h f (List.mem_append_right _ hf)

theorem foldl_exportEntry (halone : FlowStates.Alone heap)
    (hnodup : (order.flatMap fun x => members heap x.2).Nodup) (s : Loop) :
    (order.foldl (exportEntry getMtu heap resetCounters) s).out =
      s.out ++ recordsFrom getMtu heap s.counters s.locals.multipath order ∧
    (order.foldl (exportEntry getMtu heap resetCounters) s).counters =
      cleared resetCounters (order.flatMap fun x => members heap x.2) s.counters := by
  induction order generalizing s with
  | nil => exact ⟨(List.append_nil _).symm, cleared_nil.symm⟩
  | cons x xs ih =>
    rw [List.flatMap_cons, List.nodup_append] at hnodup
    obtain ⟨hx, hxs, hne⟩ := hnodup
    obtain ⟨hout, hcounters, hmulti⟩ := @foldl_addRecord getMtu heap resetCounters x.1 x.2 _ hx
      { s with locals := { s.locals with
        multipath := s.locals.multipath || (heap.get x.2).multipath
        state := (heap.get x.2).state } }
    rw [← exportEntry_eq halone] at hout hcounters hmulti
    obtain ⟨ihout, ihcounters⟩ := ih hxs (exportEntry getMtu heap resetCounters s x)
    rw [List.foldl_cons]
    constructor
    · rw [ihout, hout, hmulti, hcounters, recordsFrom_congr, List.append_assoc]
      · rfl
      · intro f hf
        exact cleared_of_notMem fun hmem => hne f hmem f hf rfl
    · rw [ihcounters, hcounters, cleared_append]
      rfl

theorem members_sublist (heap : Flows) (f : FlowPtr) :
    (members heap f).Sublist (f :: (heap.get f).subflows) := by
  have hlead : (if (heap.get f).state.inUse then [f] else []).Sublist [f] := by
    split_ifs
    · exact List.Sublist.refl _
    · exact List.nil_sublist _
  have hsub : (if (heap.get f).multipath then (heap.get f).subflows else []).Sublist
      (heap.get f).subflows := by
    split_ifs
    · exact List.Sublist.refl _
    · exact List.nil_sublist _
  exact hlead.append hsub

theorem nodup_members {t : FlowTables} (h : t.Leads) (hperm : order.Perm t.flows.entries) :
    (order.flatMap fun x => members t.heap x.2).Nodup := by
  refine (h.nodup_family hperm).sublist ?_
  exact List.Sublist.flatMap_right _ fun x _ => members_sublist t.heap x.2

/-- The records and the counters of one export. -/
theorem exportFlows_eq {t : FlowTables} (h : t.Leads) (hperm : order.Perm t.flows.entries) :
    (exportFlows getMtu t.heap resetCounters counters order).out =
      recordsFrom getMtu t.heap counters false order ∧
    (exportFlows getMtu t.heap resetCounters counters order).counters =
      cleared resetCounters (order.flatMap fun x => members t.heap x.2) counters := by
  have hloop := @foldl_exportEntry getMtu t.heap resetCounters order h.owned.alone
    (nodup_members h hperm) { counters := counters }
  rwa [List.nil_append] at hloop

/-! ### Records of the right flows -/

theorem describes_recordOf_iff {multipath : Bool} {x : Sigma fun _ : FlowID => FlowPtr}
    {f : FlowPtr} : Describes heap counters (x.1, f) (recordOf getMtu heap counters multipath x f) ↔
      multipath = (heap.get f).multipath :=
  ⟨fun h => h.multipath, fun h => ⟨rfl, h, rfl, rfl, rfl, rfl, rfl, rfl, rfl⟩⟩

/-- The flag is right for all flows of an entry exactly if it is right for the lead flow. -/
theorem members_flag_iff (howned : heap.Owned) (multipath : Bool) (f : FlowPtr) :
    (∀ g ∈ members heap f, (multipath || (heap.get f).multipath) = (heap.get g).multipath) ↔
      (multipath = true → (heap.get f).state.inUse = true → (heap.get f).multipath = true) := by
  rw [members]
  cases hmulti : (heap.get f).multipath with
  | true =>
    refine iff_of_true ?_ fun _ _ => rfl
    intro g hg
    rw [Bool.or_true]
    rcases List.mem_append.mp hg with hlead | hsub
    · split_ifs at hlead
      · rw [List.mem_singleton.mp hlead, hmulti]
      · cases hlead
    · exact (howned.flagged f g (by rwa [if_pos rfl] at hsub)).symm
  | false =>
    cases hstate : (heap.get f).state.inUse with
    | true => cases multipath <;> simp [hmulti]
    | false => simp

theorem forall₂_map_append {α β γ : Type} {R : β → γ → Prop} (xs : List α) (g : α → β)
    (g' : α → γ) (ys : List β) (zs : List γ) :
    List.Forall₂ R (xs.map g ++ ys) (xs.map g' ++ zs) ↔
      (∀ x ∈ xs, R (g x) (g' x)) ∧ List.Forall₂ R ys zs := by
  induction xs with
  | nil => simp
  | cons x xs ih => simp [ih, and_assoc]

/-- The records are right exactly if the flag, which may be set before, comes last to the flows
that do not have it. -/
theorem describes_iff (howned : heap.Owned) (multipath : Bool) :
    List.Forall₂ (Describes heap counters) (exported heap order)
        (recordsFrom getMtu heap counters multipath order) ↔
      (multipath = true → ∀ x ∈ order, (heap.get x.2).state.inUse = true →
        (heap.get x.2).multipath = true) ∧ InOrder heap order := by
  induction order generalizing multipath with
  | nil => exact iff_of_true .nil ⟨fun _ x hx => absurd hx List.not_mem_nil, .nil⟩
  | cons x xs ih =>
    have hmembers := members_flag_iff howned multipath x.2
    rw [exported, List.flatMap_cons, recordsFrom, forall₂_map_append]
    simp only [describes_recordOf_iff]
    rw [hmembers, ← exported, ih, InOrder, InOrder, List.pairwise_cons, List.forall_mem_cons,
      Bool.or_eq_true]
    constructor
    · rintro ⟨hx, hxs, hpair⟩
      exact ⟨fun h => ⟨hx h, hxs (.inl h)⟩, fun y hy h => hxs (.inr h) y hy, hpair⟩
    · rintro ⟨hall, hlater, hpair⟩
      refine ⟨fun h => (hall h).1, fun h y hy => ?_, hpair⟩
      rcases h with hset | hmulti
      · exact (hall hset).2 y hy
      · exact hlater y hy hmulti

theorem map_snd_exported (heap : Flows) (order : List (Sigma fun _ : FlowID => FlowPtr)) :
    (exported heap order).map Prod.snd = order.flatMap fun x => members heap x.2 := by
  rw [exported, List.map_flatMap]
  simp only [List.map_map, Function.comp_def, List.map_id']

/-- One export is faithful exactly if the flows come in order. -/
theorem faithfulExport_iff {t : FlowTables} (h : t.Leads) (hperm : order.Perm t.flows.entries) :
    FaithfulExport t.heap resetCounters counters order
        (exportFlows getMtu t.heap resetCounters counters order) ↔ InOrder t.heap order := by
  obtain ⟨hout, hcounters⟩ := @exportFlows_eq getMtu resetCounters counters order t h hperm
  have hiff := @describes_iff getMtu t.heap counters order h.owned false
  constructor
  · intro hfaithful
    rw [← hout] at hiff
    exact (hiff.mp hfaithful.records).2
  · intro hinOrder
    refine ⟨?_, fun f => ?_⟩
    · rw [hout]
      exact hiff.mpr ⟨fun hset => absurd hset Bool.false_ne_true, hinOrder⟩
    · rw [hcounters, map_snd_exported]
      rfl

/-! ### What is told of a flow -/

/-- The counters of `f` in the records of the flows `xs`. -/
def told (f : FlowPtr) (xs : List (FlowID × FlowPtr)) (out : List FlowInfo) : ℕ × ℕ × ℕ × ℕ :=
  (((xs.zip out).filter fun p => p.1.2 = f).map fun p => p.2.counters.values).sum

theorem told_eq {xs : List (FlowID × FlowPtr)} {out : List FlowInfo}
    (h : List.Forall₂ (fun x info => info.counters = counters x.2) xs out)
    (hnodup : (xs.map Prod.snd).Nodup) (f : FlowPtr) :
    told f xs out = if f ∈ xs.map Prod.snd then (counters f).values else 0 := by
  induction h with
  | nil => rfl
  | @cons x info xs out hx _ ih =>
    obtain ⟨hnot, htail⟩ := List.nodup_cons.mp hnodup
    have ih := ih htail
    rw [told] at ih
    rw [told, List.zip_cons_cons, List.filter_cons]
    simp only [List.map_cons, List.mem_cons]
    by_cases hf : x.2 = f
    · rw [hf] at hnot hx
      rw [if_neg hnot] at ih
      simp only [hf, decide_true, if_true, List.map_cons, List.sum_cons, ih, hx, add_zero, true_or]
    · have hne : f ≠ x.2 := fun heq => hf heq.symm
      simp only [hf, decide_false, Bool.false_eq_true, if_false, ih, hne, false_or]

theorem counters_recordsFrom (multipath : Bool) :
    List.Forall₂ (fun x info => info.counters = counters x.2) (exported heap order)
      (recordsFrom getMtu heap counters multipath order) := by
  induction order generalizing multipath with
  | nil => exact .nil
  | cons x xs ih =>
    rw [exported, List.flatMap_cons, recordsFrom, forall₂_map_append]
    exact ⟨fun _ _ => rfl, ih _⟩

/-! ### The system -/

structure State where
  tables : FlowTables
  /-- `Flow::counters`, zero for objects that have not been made. -/
  counters : FlowPtr → FlowCounters
  /-- All that has been counted; not in the code. -/
  counted : FlowPtr → ℕ × ℕ × ℕ × ℕ
  /-- All that the exports have told which reset the counters; not in the code. -/
  reported : FlowPtr → ℕ × ℕ × ℕ × ℕ

inductive Event
  /-- A call or section that does not count packets. -/
  | flows (e : FlowTables.Event)
  | countEgress (f : FlowPtr) (pkts bytes : UInt32)
  | countIngress (f : FlowPtr) (pkts bytes : UInt32)
  /-- The export holds the locks of the table, and reads each flow under its lock. -/
  | exportFlows (getMtu : IPAddress → Path → UInt16)
    (order : List (Sigma fun _ : FlowID => FlowPtr)) (resetCounters : Bool)

def start : State := ⟨FlowTables.start, fun _ => {}, fun _ => 0, fun _ => 0⟩

section Calls

variable (sha256Trunc : UInt64 → UInt32) (extraIPs : List IPAddress) (tunIP : IPAddress)
  (murmur : List UInt8 → UInt32 → UInt64 × UInt64) (randomSeed : UInt32)

/-- Count on a flow. -/
def State.count (s : State) (f : FlowPtr) (g : FlowCounters → FlowCounters)
    (n : ℕ × ℕ × ℕ × ℕ) : State :=
  { s with
    counters := Function.update s.counters f (g (s.counters f))
    counted := Function.update s.counted f (s.counted f + n) }

def step (s : State) : Event → Option State
  | .flows e =>
    (FlowTables.step sha256Trunc extraIPs tunIP murmur randomSeed s.tables e).map fun t =>
      { s with tables := t }
  | .countEgress f pkts bytes =>
    if f < s.tables.heap.next then
      some (s.count f (FlowCounters.countEgress pkts bytes) (pkts.toNat, bytes.toNat, 0, 0))
    else none
  | .countIngress f pkts bytes =>
    if f < s.tables.heap.next then
      some (s.count f (FlowCounters.countIngress pkts bytes) (0, 0, pkts.toNat, bytes.toNat))
    else none
  | .exportFlows getMtu order resetCounters =>
    if order.Perm s.tables.flows.entries then
      let loop := exportFlows getMtu s.tables.heap resetCounters s.counters order
      some { s with
        counters := loop.counters
        reported :=
          if resetCounters then
            fun f => s.reported f + told f (exported s.tables.heap order) loop.out
          else s.reported }
    else none

end Calls

/-- The records of an export describe the flows they are about. -/
def Faithful (s : State) : Event → Prop
  | .exportFlows getMtu order resetCounters =>
    FaithfulExport s.tables.heap resetCounters s.counters order
      (exportFlows getMtu s.tables.heap resetCounters s.counters order)
  | _ => True

/-- What has been counted on a flow has been reported once or is still to be reported. -/
def Conserved (s : State) : Prop := ∀ f, s.counted f = s.reported f + (s.counters f).values

/-- No counter wraps around. -/
def Fits (s : State) : Event → Prop
  | .countEgress f pkts bytes =>
    (s.counters f).pktsEgress.toNat + pkts.toNat < 2 ^ 32 ∧
      (s.counters f).bytesEgress.toNat + bytes.toNat < 2 ^ 32
  | .countIngress f pkts bytes =>
    (s.counters f).pktsIngress.toNat + pkts.toNat < 2 ^ 32 ∧
      (s.counters f).bytesIngress.toNat + bytes.toNat < 2 ^ 32
  | _ => True

/-- An export comes to no flow without the flag, if it is to have a record, after a multipath
flow. -/
def Ordered (s : State) : Event → Prop
  | .exportFlows _ order _ => InOrder s.tables.heap order
  | _ => True

/-! ### Runs -/

section Runs

variable {sha256Trunc : UInt64 → UInt32} {extraIPs : List IPAddress} {tunIP : IPAddress}
  {murmur : List UInt8 → UInt32 → UInt64 × UInt64} {randomSeed : UInt32} {s s' : State} {e : Event}

theorem exportFlows_step {getMtu : IPAddress → Path → UInt16}
    {order : List (Sigma fun _ : FlowID => FlowPtr)} {resetCounters : Bool}
    (hstep : step sha256Trunc extraIPs tunIP murmur randomSeed s
      (.exportFlows getMtu order resetCounters) = some s') :
    order.Perm s.tables.flows.entries ∧
      s' = { s with
        counters := (exportFlows getMtu s.tables.heap resetCounters s.counters order).counters
        reported :=
          if resetCounters then
            fun f => s.reported f + told f (exported s.tables.heap order)
              (exportFlows getMtu s.tables.heap resetCounters s.counters order).out
          else s.reported } := by
  by_cases hperm : order.Perm s.tables.flows.entries
  · rw [step, if_pos hperm] at hstep
    exact ⟨hperm, (Option.some.inj hstep).symm⟩
  · rw [step, if_neg hperm] at hstep
    cases hstep

theorem leads_step (h : s.tables.Leads)
    (hstep : step sha256Trunc extraIPs tunIP murmur randomSeed s e = some s') :
    s'.tables.Leads := by
  cases e with
  | flows e =>
    obtain ⟨t, ht, rfl⟩ := Option.map_eq_some_iff.mp hstep
    exact FlowTables.leads_step h ht
  | countEgress f pkts bytes =>
    rw [step] at hstep
    split_ifs at hstep
    rw [← Option.some.inj hstep]
    exact h
  | countIngress f pkts bytes =>
    rw [step] at hstep
    split_ifs at hstep
    rw [← Option.some.inj hstep]
    exact h
  | exportFlows getMtu order resetCounters =>
    rw [(exportFlows_step hstep).2]
    exact h

theorem leads_of_run {h : List Event}
    (hrun : Run start (step sha256Trunc extraIPs tunIP murmur randomSeed) h s) :
    s.tables.Leads :=
  hrun.invariant (I := fun _ s => s.tables.Leads) FlowTables.leads_start
    fun _ _ _ _ hs hstep => leads_step hs hstep

/-- Counting on a flow is right exactly if its counters take the sums. -/
theorem conserved_count_iff (h : Conserved s) (f : FlowPtr) (g : FlowCounters → FlowCounters)
    (n : ℕ × ℕ × ℕ × ℕ) :
    Conserved (s.count f g n) ↔ (g (s.counters f)).values = (s.counters f).values + n := by
  constructor
  · intro hcount
    have hf := hcount f
    simp only [State.count, Function.update_self] at hf
    rw [h f, add_assoc] at hf
    exact (add_left_cancel hf).symm
  · intro hvalues f'
    simp only [State.count, Function.update_apply]
    split_ifs with hf
    · rw [hvalues, h f, hf, add_assoc]
    · exact h f'

/-- Those flows whose counters are reset have a record that tells them. -/
theorem conserved_exportFlows (hleads : s.tables.Leads) (h : Conserved s)
    {getMtu : IPAddress → Path → UInt16} {order : List (Sigma fun _ : FlowID => FlowPtr)}
    {resetCounters : Bool}
    (hstep : step sha256Trunc extraIPs tunIP murmur randomSeed s
      (.exportFlows getMtu order resetCounters) = some s') : Conserved s' := by
  obtain ⟨hperm, rfl⟩ := exportFlows_step hstep
  obtain ⟨hout, hcounters⟩ :=
    @exportFlows_eq getMtu resetCounters s.counters order s.tables hleads hperm
  have hnodup : ((exported s.tables.heap order).map Prod.snd).Nodup := by
    rw [map_snd_exported]
    exact nodup_members hleads hperm
  have htold := told_eq (@counters_recordsFrom getMtu s.tables.heap s.counters order false) hnodup
  intro f
  dsimp only
  rw [hcounters, hout, cleared, ← map_snd_exported]
  cases resetCounters with
  | false => exact h f
  | true =>
    by_cases hf : f ∈ (exported s.tables.heap order).map Prod.snd
    · rw [if_pos rfl, if_pos ⟨rfl, hf⟩, htold f, if_pos hf]
      exact h f
    · rw [if_pos rfl, if_neg fun hboth => hf hboth.2, htold f, if_neg hf, add_zero]
      exact h f

theorem conserved_step (hleads : s.tables.Leads) (h : Conserved s)
    (hstep : step sha256Trunc extraIPs tunIP murmur randomSeed s e = some s') :
    Conserved s' ↔ Fits s e := by
  cases e with
  | flows e =>
    obtain ⟨t, -, rfl⟩ := Option.map_eq_some_iff.mp hstep
    exact iff_of_true h trivial
  | countEgress f pkts bytes =>
    rw [step] at hstep
    split_ifs at hstep
    rw [← Option.some.inj hstep, conserved_count_iff h, FlowCounters.values_countEgress_iff, Fits]
  | countIngress f pkts bytes =>
    rw [step] at hstep
    split_ifs at hstep
    rw [← Option.some.inj hstep, conserved_count_iff h, FlowCounters.values_countIngress_iff, Fits]
  | exportFlows getMtu order resetCounters =>
    exact iff_of_true (conserved_exportFlows hleads h hstep) trivial

theorem faithful_step (hleads : s.tables.Leads)
    (hstep : step sha256Trunc extraIPs tunIP murmur randomSeed s e = some s') :
    Faithful s e ↔ Ordered s e := by
  cases e with
  | flows e => exact Iff.rfl
  | countEgress f pkts bytes => exact Iff.rfl
  | countIngress f pkts bytes => exact Iff.rfl
  | exportFlows getMtu order resetCounters =>
    exact faithfulExport_iff hleads (exportFlows_step hstep).1

/-- The exports of a run are faithful and lose nothing that has been counted exactly if each
comes to the flows in order and no counter has wrapped around. -/
theorem faithful_iff (sha256Trunc : UInt64 → UInt32) (extraIPs : List IPAddress)
    (tunIP : IPAddress) (murmur : List UInt8 → UInt32 → UInt64 × UInt64) (randomSeed : UInt32)
    {h : List Event} {s : State}
    (hrun : Run start (step sha256Trunc extraIPs tunIP murmur randomSeed) h s) :
    (Always start (step sha256Trunc extraIPs tunIP murmur randomSeed)
        (fun _ s e => Faithful s e) h ∧
      Throughout start (step sha256Trunc extraIPs tunIP murmur randomSeed)
        (fun _ s => Conserved s) h) ↔
      Always start (step sha256Trunc extraIPs tunIP murmur randomSeed)
        (fun _ s e => Ordered s e ∧ Fits s e) h := by
  have hconserved : Throughout start (step sha256Trunc extraIPs tunIP murmur randomSeed)
      (fun _ s => Conserved s) h ↔ Always start
        (step sha256Trunc extraIPs tunIP murmur randomSeed) (fun _ s e => Fits s e) h := by
    refine throughout_iff_always (I := fun _ s => Conserved s) (fun _ => rfl) ?_ hrun
    intro past s e s' hpast hs hstep
    exact conserved_step (leads_of_run hpast) hs hstep
  -- a call is judged in the state that the run before it leads to
  have hfaithful : ∀ past s e, Run start (step sha256Trunc extraIPs tunIP murmur randomSeed) past s →
      e :: past <:+ h → (Faithful s e ↔ Ordered s e) := by
    intro past s e hpast hsuffix
    obtain ⟨u, u', hu, hstep⟩ := hrun.of_suffix hsuffix
    rw [hpast.unique hu]
    exact faithful_step (leads_of_run hu) hstep
  rw [hconserved]
  constructor
  · rintro ⟨hrecords, hfits⟩ past s e hpast hsuffix
    exact ⟨(hfaithful past s e hpast hsuffix).mp (hrecords past s e hpast hsuffix),
      hfits past s e hpast hsuffix⟩
  · intro hall
    refine ⟨fun past s e hpast hsuffix => ?_, fun past s e hpast hsuffix => ?_⟩
    · exact (hfaithful past s e hpast hsuffix).mpr (hall past s e hpast hsuffix).1
    · exact (hall past s e hpast hsuffix).2

end Runs

/-! ### A flow that comes after a multipath flow -/

def exampleEndpoint (n : UInt32) : IPEndpoint := ⟨.v4 n, 5000⟩

def exampleID (n : UInt32) (proto : ScionProto) : FlowID where
  src := ⟨IsdAsn.make 1 1, exampleEndpoint n⟩
  dst := ⟨IsdAsn.make 1 2, ⟨.v4 0x0a000009, 80⟩⟩
  proto := proto

/-- An MPTCP connection and a UDP flow, which the export comes to in this order. -/
def exampleOrder : List (Sigma fun _ : FlowID => FlowPtr) :=
  [⟨exampleID 1 ScionProto.tcp, 0⟩, ⟨exampleID 2 ScionProto.udp, 1⟩]

def exampleStep : State → Event → Option State :=
  step UInt64.toUInt32 [] (.v4 0x0a000001) exampleHash 0

/-- The SYN of a new subflow and a UDP packet, which is counted, before the export. -/
def exampleEvents : List Event :=
  [.exportFlows (fun _ _ => 0) exampleOrder true, .countEgress 1 1 100,
    .flows (.update 1 (.updateStateEgress none 0 0)),
    .flows (.getFlowEgress none (exampleID 2 ScionProto.udp) (exampleEndpoint 2)),
    .flows (.update 0 (.updateStateEgress
      (some { flags := TCP.Flags.syn, optMask := { mpJoin := true } }) 0 0)),
    .flows (.getFlowEgress none (exampleID 1 ScionProto.tcp) (exampleEndpoint 1))]

theorem isSome_replay_exampleEvents : (replay start exampleStep exampleEvents).isSome = true := by
  decide +kernel

theorem run_exampleEvents : Run start exampleStep exampleEvents
    ((replay start exampleStep exampleEvents).get isSome_replay_exampleEvents) :=
  run_of_replay (Option.some_get isSome_replay_exampleEvents).symm

theorem faithful_iff_exampleEvents :
    (Always start exampleStep (fun _ s e => Faithful s e) exampleEvents ∧
      Throughout start exampleStep (fun _ s => Conserved s) exampleEvents) ↔
      Always start exampleStep (fun _ s e => Ordered s e ∧ Fits s e) exampleEvents :=
  faithful_iff UInt64.toUInt32 [] (.v4 0x0a000001) exampleHash 0 run_exampleEvents

theorem isSome_replay_tail : (replay start exampleStep exampleEvents.tail).isSome = true := by
  decide +kernel

/-- The state that the export finds. -/
def exampleFound : State := (replay start exampleStep exampleEvents.tail).get isSome_replay_tail

theorem run_exampleFound : Run start exampleStep exampleEvents.tail exampleFound :=
  run_of_replay (Option.some_get isSome_replay_tail).symm

theorem not_inOrder_exampleOrder : ¬InOrder exampleFound.tables.heap exampleOrder := by
  rw [InOrder]
  decide +kernel

/-- The UDP flow is reported as a multipath flow. -/
theorem not_forall_faithful :
    ¬∀ (sha256Trunc : UInt64 → UInt32) (extraIPs : List IPAddress) (tunIP : IPAddress)
      (murmur : List UInt8 → UInt32 → UInt64 × UInt64) (randomSeed : UInt32) (h : List Event)
      (s : State), Run start (step sha256Trunc extraIPs tunIP murmur randomSeed) h s →
        Always start (step sha256Trunc extraIPs tunIP murmur randomSeed)
          (fun _ s e => Faithful s e) h ∧
        Throughout start (step sha256Trunc extraIPs tunIP murmur randomSeed)
          (fun _ s => Conserved s) h := by
  intro hclaim
  have hall := (hclaim UInt64.toUInt32 [] (.v4 0x0a000001) exampleHash 0 exampleEvents _
    run_exampleEvents).1
  have hfaithful := hall _ exampleFound _ run_exampleFound (List.suffix_refl exampleEvents)
  obtain ⟨u, u', hu, hstep⟩ := run_exampleEvents.of_suffix (List.suffix_refl exampleEvents)
  have hinOrder := (faithful_step (leads_of_run hu) hstep).mp (hu.unique run_exampleFound ▸ hfaithful)
  rw [hu.unique run_exampleFound] at hinOrder
  exact not_inOrder_exampleOrder hinOrder

end FlowExport

end Scion
