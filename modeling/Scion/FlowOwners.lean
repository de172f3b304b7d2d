/-
Lead flows and the subflows they own (`scitra-tun/flow.hpp`, `scitra-tun/scitra_tun.cpp`).

A subflow is pushed to one lead flow when it is made, and a flow that is entered into the
table has just been made and is no subflow. A loop over the table and the subflows of its
flows therefore comes to every flow at most once.

* `Flows.Owned` — no subflow has two owners, and all have the multipath flag;
* `Flows.Kept` — what the sections on flows have in common;
* `FlowTables.leads_step` — one call, `leads_of_run` any number of them.
-/
import Scion.FlowStates

namespace Scion

open Runs

namespace Flows

/-- Every subflow has one owner, which has the multipath flag just as the subflow has. -/
structure Owned (m : Flows) : Prop where
  made : ∀ f, ∀ sf ∈ (m.get f).subflows, sf < m.next
  nodup : ∀ f, (m.get f).subflows.Nodup
  disjoint : ∀ f g, f ≠ g → (m.get f).subflows.Disjoint (m.get g).subflows
  alone : FlowStates.Alone m
  flagged : ∀ f, ∀ sf ∈ (m.get f).subflows, (m.get sf).multipath = true

/-- A flow that exists and is no subflow. -/
def Lead (m : Flows) (f : FlowPtr) : Prop := f < m.next ∧ ∀ g, f ∉ (m.get g).subflows

/-- Subflows keep their owners, and lead flows stay lead flows. -/
structure Kept (m m' : Flows) : Prop where
  owned : m.Owned → m'.Owned
  lead : m.Owned → ∀ f, m.Lead f → m'.Lead f

theorem Kept.refl (m : Flows) : Kept m m := ⟨id, fun _ _ h => h⟩

theorem Kept.trans {m₁ m₂ m₃ : Flows} (h : Kept m₁ m₂) (h' : Kept m₂ m₃) : Kept m₁ m₃ where
  owned := fun hm => h'.owned (h.owned hm)
  lead := fun hm f hf => h'.lead (h.owned hm) f (h.lead hm f hf)

theorem kept_foldl {α : Type} {g : Flows → α → Flows} (hg : ∀ m x, Kept m (g m x)) (xs : List α)
    (m : Flows) : Kept m (xs.foldl g m) := by
  induction xs generalizing m with
  | nil => exact Kept.refl m
  | cons x xs ih => exact (hg m x).trans (ih (g m x))

variable {m : Flows} {f : FlowPtr}

theorem multipath_update {g : Flow → Flow}
    (hmulti : (m.get f).multipath = true → (g (m.get f)).multipath = true) {sf : FlowPtr}
    (h : (m.get sf).multipath = true) : ((m.update f g).get sf).multipath = true := by
  by_cases hsf : sf = f
  · rw [hsf, get_update_same]
    rw [hsf] at h
    exact hmulti h
  · rwa [get_update_of_ne hsf]

/-- A section that at most takes subflows from a flow. -/
theorem kept_update {g : Flow → Flow}
    (hsub : (g (m.get f)).subflows.Sublist (m.get f).subflows)
    (hmulti : (m.get f).multipath = true → (g (m.get f)).multipath = true) :
    Kept m (m.update f g) := by
  have hall : ∀ f', ((m.update f g).get f').subflows.Sublist (m.get f').subflows := by
    intro f'
    by_cases hf : f' = f
    · rw [hf, get_update_same]
      exact hsub
    · rw [get_update_of_ne hf]
  refine ⟨fun h => ?_, fun _ f' hf' => ⟨hf'.1, fun f'' hmem => hf'.2 f'' ((hall f'').subset hmem)⟩⟩
  refine ⟨fun f' sf hsf => h.made f' sf ((hall f').subset hsf), fun f' => (h.nodup f').sublist
    (hall f'), ?_, ?_, ?_⟩
  · intro f' f'' hne sf hsf hsf'
    exact h.disjoint f' f'' hne ((hall f').subset hsf) ((hall f'').subset hsf')
  · intro f' hf'
    have hsingle : (m.get f').multipath = false := by
      by_contra htrue
      have hkept := multipath_update hmulti ((Bool.not_eq_false _).mp htrue)
      rw [hf'] at hkept
      cases hkept
    exact List.sublist_nil.mp (h.alone f' hsingle ▸ hall f')
  · intro f' sf hsf
    exact multipath_update hmulti (h.flagged f' sf ((hall f').subset hsf))

theorem kept_apply {murmur : List UInt8 → UInt32 → UInt64 × UInt64} {randomSeed : UInt32}
    (u : FlowUpdate) : Kept m (m.update f (u.apply murmur randomSeed)) := by
  refine kept_update ?_ (FlowStates.multipath_apply u)
  rw [(u.bound_apply (m.get f)).2.2]

theorem kept_tick (f : FlowPtr) (now : ℤ) : Kept m (m.update f (Flow.tick now)) := by
  refine kept_update ?_ fun h => ?_
  · rw [((m.get f).bound_tick now).2.2]
  · rcases (m.get f).tick_cases now with heq | ⟨heq, -⟩ | ⟨heq, -⟩ | ⟨heq, -⟩ <;>
      rw [heq] <;> exact h

theorem kept_close (m : Flows) (f : FlowPtr) : Kept m (m.update f Flow.close) :=
  kept_update (List.Sublist.refl _) id

theorem kept_erase (f sf : FlowPtr) :
    Kept m (m.update f fun flow => { flow with subflows := flow.subflows.erase sf }) :=
  kept_update List.erase_sublist id

/-- The subflows of a flow that is made, and those of all others. -/
theorem subflows_make {flow : Flow} (hflow : flow.subflows = []) (g : FlowPtr) :
    ((m.make flow).2.get g).subflows = if g = m.next then [] else (m.get g).subflows := by
  by_cases hg : g = m.next
  · rw [if_pos hg, hg, get_make_next, hflow]
  · rw [if_neg hg, get_make_of_ne hg]

theorem kept_make {flow : Flow} (hflow : flow.subflows = []) : Kept m (m.make flow).2 := by
  have hsub : ∀ g, ((m.make flow).2.get g).subflows.Sublist (m.get g).subflows := by
    intro g
    rw [subflows_make hflow]
    split_ifs
    · exact List.nil_sublist _
    · exact List.Sublist.refl _
  have hnext : (m.make flow).2.next = m.next + 1 := rfl
  refine ⟨fun h => ⟨?_, fun g => (h.nodup g).sublist (hsub g), ?_,
    FlowStates.alone_make h.alone hflow, ?_⟩, ?_⟩
  · intro g sf hsf
    exact (h.made g sf ((hsub g).subset hsf)).trans (Nat.lt_succ_self _)
  · intro g g' hne sf hsf hsf'
    exact h.disjoint g g' hne ((hsub g).subset hsf) ((hsub g').subset hsf')
  · intro g sf hsf
    have hold := (hsub g).subset hsf
    rw [get_make_of_lt (h.made g sf hold)]
    exact h.flagged g sf hold
  · intro h g hg
    exact ⟨hg.1.trans (Nat.lt_succ_self _), fun g' hmem => hg.2 g' ((hsub g').subset hmem)⟩

/-- The flow that has been made is no subflow yet. -/
theorem lead_make (h : m.Owned) {flow : Flow} (hflow : flow.subflows = []) :
    (m.make flow).2.Lead m.next := by
  refine ⟨Nat.lt_succ_self _, fun g hmem => ?_⟩
  rw [subflows_make hflow] at hmem
  split_ifs at hmem
  · cases hmem
  · exact absurd (h.made g m.next hmem) (lt_irrefl _)

/-- The subflows after one has been pushed to `f`. -/
theorem subflows_pushSubflow_of_ne {g : FlowPtr} (hne : g ≠ f) (ep : IPEndpoint)
    (type : FlowType) :
    ((m.pushSubflow f ep type).2.get g).subflows.Sublist (m.get g).subflows := by
  rw [pushSubflow]
  dsimp only
  rw [get_update_of_ne hne, subflows_make rfl]
  split_ifs
  · exact List.nil_sublist _
  · exact List.Sublist.refl _

theorem subflows_pushSubflow_self (hf : f < m.next) (ep : IPEndpoint) (type : FlowType) :
    ((m.pushSubflow f ep type).2.get f).subflows = (m.get f).subflows ++ [m.next] := by
  rw [pushSubflow]
  dsimp only
  rw [get_update_same, get_make_of_lt hf]
  rfl

theorem multipath_pushSubflow (hf : f < m.next) (ep : IPEndpoint) (type : FlowType)
    (sf : FlowPtr) : ((m.pushSubflow f ep type).2.get sf).multipath =
      if sf = m.next then true else (m.get sf).multipath := by
  rw [pushSubflow]
  dsimp only
  by_cases hsf : sf = f
  · rw [hsf, get_update_same, get_make_of_lt hf, if_neg hf.ne]
  · rw [get_update_of_ne hsf]
    split_ifs with hnew
    · rw [hnew, get_make_next]
      rfl
    · rw [get_make_of_ne hnew]

/-- The subflow that is pushed has not been one of any flow. -/
theorem kept_pushSubflow (hf : f < m.next) (hmulti : (m.get f).multipath = true) (ep : IPEndpoint)
    (type : FlowType) : Kept m (m.pushSubflow f ep type).2 := by
  have hself := subflows_pushSubflow_self hf ep type
  have hmem : ∀ g, ∀ sf ∈ ((m.pushSubflow f ep type).2.get g).subflows,
      sf ∈ (m.get g).subflows ∨ g = f ∧ sf = m.next := by
    intro g sf hsf
    by_cases hg : g = f
    · rw [hg, hself, List.mem_append, List.mem_singleton] at hsf
      rw [hg]
      exact hsf.imp_right fun hnew => ⟨rfl, hnew⟩
    · exact .inl ((subflows_pushSubflow_of_ne hg ep type).subset hsf)
  refine ⟨fun h => ⟨?_, ?_, ?_, FlowStates.alone_pushSubflow h.alone hf hmulti ep type, ?_⟩, ?_⟩
  · intro g sf hsf
    rcases hmem g sf hsf with hold | ⟨-, rfl⟩
    · exact (h.made g sf hold).trans (Nat.lt_succ_self _)
    · exact Nat.lt_succ_self _
  · intro g
    by_cases hg : g = f
    · rw [hg, hself]
      refine List.nodup_append.mpr ⟨h.nodup f, List.nodup_singleton _, ?_⟩
      intro sf hsf sf' hsf'
      rw [List.mem_singleton.mp hsf']
      exact (h.made f sf hsf).ne
    · exact (h.nodup g).sublist (subflows_pushSubflow_of_ne hg ep type)
  · intro g g' hne sf hsf hsf'
    rcases hmem g sf hsf with hold | ⟨rfl, rfl⟩ <;> rcases hmem g' _ hsf' with hold' | ⟨rfl, hnew⟩
    · exact h.disjoint g g' hne hold hold'
    · exact absurd (h.made g sf hold) (hnew ▸ lt_irrefl _)
    · exact absurd (h.made g' _ hold') (lt_irrefl _)
    · exact hne rfl
  · intro g sf hsf
    rw [multipath_pushSubflow hf]
    split_ifs with hnew
    · rfl
    · rcases hmem g sf hsf with hold | ⟨-, hnext⟩
      · exact h.flagged g sf hold
      · exact absurd hnext hnew
  · intro h g hg
    refine ⟨hg.1.trans (Nat.lt_succ_self _), fun g' hsf => ?_⟩
    rcases hmem g' g hsf with hold | ⟨-, rfl⟩
    · exact hg.2 g' hold
    · exact lt_irrefl _ hg.1

theorem kept_getSubflowByAddr (hf : f < m.next) (localEp : IPEndpoint) :
    Kept m (m.getSubflowByAddr f localEp).2 := by
  rcases m.getSubflowByAddr_cases f localEp with ⟨sf, -, hget⟩ | ⟨hnone, hget⟩
  · rw [hget]
    exact Kept.refl m
  · rw [hget]
    exact kept_pushSubflow hf (FlowStates.multipath_of_findSubflowByAddr hnone) localEp .active

theorem kept_getSubflowByPath {murmur : List UInt8 → UInt32 → UInt64 × UInt64}
    {randomSeed : UInt32} {rp : RawPathContents} {addrPool : List IPAddress}
    {sf : Option FlowPtr} {m' : Flows} (hf : f < m.next)
    (h : m.getSubflowByPath murmur randomSeed f rp addrPool = some (sf, m')) : Kept m m' := by
  rcases getSubflowByPath_cases h with ⟨_, -, -, rfl⟩ | ⟨addr, hnone, -, -, rfl⟩ | ⟨-, -, -, rfl⟩
  · exact Kept.refl m'
  · exact kept_pushSubflow hf (FlowStates.multipath_of_findSubflowByPath hnone) _ .passive
  · exact Kept.refl m'

end Flows

/-! ### The tables -/

namespace FlowTables

theorem kept_maintainSubflows (now : ℤ) (f : FlowPtr) (sfs : List FlowPtr) (t : FlowTables) :
    t.heap.Kept (maintainSubflows now f sfs t).heap ∧
      (maintainSubflows now f sfs t).flows = t.flows := by
  induction sfs generalizing t with
  | nil => exact ⟨Flows.Kept.refl _, rfl⟩
  | cons sf sfs ih =>
    have htick := @Flows.kept_tick t.heap sf now
    rw [maintainSubflows]
    dsimp only
    split_ifs
    · obtain ⟨hkept, hflows⟩ := ih { t with
        heap := (t.heap.update sf (Flow.tick now)).update f fun flow =>
          { flow with subflows := flow.subflows.erase sf }
        mpPortRemap := t.mpPortRemap.erase (t.heap.get sf).boundTo }
      exact ⟨(htick.trans (Flows.kept_erase f sf)).trans hkept, hflows⟩
    · obtain ⟨hkept, hflows⟩ := ih { t with heap := t.heap.update sf (Flow.tick now) }
      exact ⟨htick.trans hkept, hflows⟩

theorem kept_withSubflowsMaintained (now : ℤ) (f : FlowPtr) (t : FlowTables) :
    t.heap.Kept (t.withSubflowsMaintained now f).heap ∧
      (t.withSubflowsMaintained now f).flows = t.flows := by
  rw [withSubflowsMaintained]
  split_ifs
  · exact kept_maintainSubflows now f _ t
  · exact ⟨Flows.Kept.refl _, rfl⟩

/-- The flows in the table are lead flows, and none is there under two IDs. -/
structure Leads (t : FlowTables) : Prop where
  owned : t.heap.Owned
  lead : ∀ x ∈ t.flows.entries, t.heap.Lead x.2
  nodup : (t.flows.entries.map Sigma.snd).Nodup

/-- Flows are removed from the table. -/
theorem Leads.sublist {t t' : FlowTables} (h : t.Leads) (hkept : t.heap.Kept t'.heap)
    (hsub : t'.flows.entries.Sublist t.flows.entries) : t'.Leads where
  owned := hkept.owned h.owned
  lead := fun x hx => hkept.lead h.owned x.2 (h.lead x (hsub.subset hx))
  nodup := h.nodup.sublist (hsub.map _)

theorem Leads.heap {t : FlowTables} (h : t.Leads) {m : Flows} (hkept : t.heap.Kept m) :
    Leads { t with heap := m } :=
  h.sublist hkept (List.Sublist.refl _)

theorem sublist_erase (flows : AList fun _ : FlowID => FlowPtr) (id : FlowID) :
    (flows.erase id).entries.Sublist flows.entries :=
  List.kerase_sublist id flows.entries

theorem leads_maintainLead {t : FlowTables} (h : t.Leads) (now : ℤ) (id : FlowID) (f : FlowPtr) :
    (t.maintainLead now id f).Leads := by
  have htick := h.heap (@Flows.kept_tick t.heap f now)
  rw [maintainLead]
  dsimp only
  split_ifs
  · exact htick.sublist (Flows.Kept.refl _) (sublist_erase t.flows id)
  · exact htick

theorem leads_maintainFlows (now : ℤ) (order : List (Sigma fun _ : FlowID => FlowPtr))
    {t : FlowTables} (h : t.Leads) : (maintainFlows now order t).Leads := by
  induction order generalizing t with
  | nil => exact h
  | cons x xs ih =>
    obtain ⟨hkept, hflows⟩ := kept_withSubflowsMaintained now x.2 t
    have hsub : (t.withSubflowsMaintained now x.2).Leads := by
      refine h.sublist hkept ?_
      rw [hflows]
    exact ih (leads_maintainLead hsub now x.1 x.2)

theorem kept_closeFlows (port : UInt16) (m : Flows) (x : Sigma fun _ : FlowID => FlowPtr) :
    m.Kept (closeFlows m port x) := by
  rw [closeFlows]
  split_ifs
  · exact (Flows.kept_foldl Flows.kept_close (m.get x.2).subflows m).trans
      (Flows.kept_close _ x.2)
  · exact Flows.kept_close m x.2
  · exact Flows.Kept.refl m

theorem leads_findOrCreate {t : FlowTables} (h : t.Leads) (id : FlowID) (localEp : IPEndpoint)
    (type : FlowType) : (t.findOrCreate id localEp type).2.Leads := by
  rw [findOrCreate]
  cases hid : t.flows.lookup id with
  | some f => exact h
  | none =>
    have hkept := @Flows.kept_make t.heap (Flow.create localEp type) rfl
    have hmade := @Flows.lead_make t.heap h.owned (Flow.create localEp type) rfl
    have hentries : (t.flows.insert id t.heap.next).entries =
        ⟨id, t.heap.next⟩ :: t.flows.entries :=
      AList.entries_insert_of_notMem (AList.lookup_eq_none.mp hid)
    refine ⟨hkept.owned h.owned, ?_, ?_⟩
    · intro x hx
      have hx : x ∈ (t.flows.insert id t.heap.next).entries := hx
      rw [hentries, List.mem_cons] at hx
      rcases hx with rfl | hold
      · exact hmade
      · exact hkept.lead h.owned x.2 (h.lead x hold)
    · change ((t.flows.insert id t.heap.next).entries.map Sigma.snd).Nodup
      rw [hentries, List.map_cons, List.nodup_cons]
      refine ⟨fun hmem => ?_, h.nodup⟩
      obtain ⟨x, hx, hnext⟩ := List.mem_map.mp hmem
      exact absurd (h.lead x hx).1 (hnext ▸ lt_irrefl _)

theorem leads_learn {t : FlowTables} (h : t.Leads) (f : FlowPtr) (token : Option UInt32) :
    (t.learn f token).Leads := by
  cases token with
  | none => exact h
  | some token =>
    exact h.sublist (Flows.kept_update (List.Sublist.refl _) id) (List.Sublist.refl _)

section Calls

variable {sha256Trunc : UInt64 → UInt32} {extraIPs : List IPAddress} {tunIP : IPAddress}
  {murmur : List UInt8 → UInt32 → UInt64 × UInt64} {randomSeed : UInt32} {t t' : FlowTables}
  {e : Event}

theorem leads_getFlowEgress (h : t.Leads) (tcp : Option TCP) (id : FlowID)
    (localEp : IPEndpoint) :
    (t.getFlowEgress sha256Trunc extraIPs tunIP tcp id localEp).2.Leads := by
  rw [getFlowEgress]
  cases t.joined extraIPs tcp with
  | some f =>
    have hremap : Leads { t with
        mpPortRemap := t.mpPortRemap.insert localEp (t.heap.get f).boundTo.port } :=
      h.sublist (Flows.Kept.refl _) (List.Sublist.refl _)
    exact leads_learn hremap f _
  | none => exact leads_learn (leads_findOrCreate h _ localEp .active) _ _

theorem leads_step (h : t.Leads)
    (hstep : step sha256Trunc extraIPs tunIP murmur randomSeed t e = some t') : t'.Leads := by
  cases e with
  | getFlowEgress tcp id localEp =>
    rw [← Option.some.inj hstep]
    exact leads_getFlowEgress h tcp id localEp
  | getFlowIngress id localEp =>
    rw [← Option.some.inj hstep]
    exact leads_findOrCreate h id localEp .passive
  | removeFlow id =>
    rw [← Option.some.inj hstep]
    exact h.sublist (Flows.Kept.refl _) (sublist_erase t.flows id)
  | maintainFlowsAndSockets now order ports =>
    rw [step] at hstep
    split_ifs at hstep
    rw [← Option.some.inj hstep]
    -- the flows of sockets that are removed are closed after the loop over the table
    refine (leads_maintainFlows now order h).heap (Flows.kept_foldl (fun m port => ?_) ports _)
    exact Flows.kept_foldl (kept_closeFlows port) _ m
  | learnToken f tcp =>
    rw [step] at hstep
    split_ifs at hstep
    rw [← Option.some.inj hstep]
    exact leads_learn h f _
  | update f u =>
    rw [step] at hstep
    split_ifs at hstep
    rw [← Option.some.inj hstep]
    exact h.heap (Flows.kept_apply u)
  | getSubflowByAddr f localEp =>
    rw [step] at hstep
    split_ifs at hstep with hf
    rw [← Option.some.inj hstep]
    exact h.heap (Flows.kept_getSubflowByAddr hf localEp)
  | getSubflowByPath f rp =>
    rw [step] at hstep
    split_ifs at hstep with hf
    obtain ⟨r, hr, rfl⟩ := Option.map_eq_some_iff.mp hstep
    exact h.heap (Flows.kept_getSubflowByPath hf hr)

theorem leads_start : start.Leads where
  owned := {
    made := fun _ _ h => absurd h List.not_mem_nil
    nodup := fun _ => List.nodup_nil
    disjoint := fun _ _ _ _ h => absurd h List.not_mem_nil
    alone := fun _ _ => rfl
    flagged := fun _ _ h => absurd h List.not_mem_nil }
  lead := fun _ h => absurd h List.not_mem_nil
  nodup := List.nodup_nil

/-- In every run the table holds lead flows, each once, and their subflows are no others'. -/
theorem leads_of_run {h : List Event}
    (hrun : Run start (step sha256Trunc extraIPs tunIP murmur randomSeed) h t) : t.Leads :=
  hrun.invariant (I := fun _ t => t.Leads) leads_start
    fun _ _ _ _ ht hstep => leads_step ht hstep

end Calls

/-! ### The flows that a loop comes to -/

/-- A flow in the table and its subflows. -/
def family (t : FlowTables) (f : FlowPtr) : List FlowPtr := f :: (t.heap.get f).subflows

/-- A loop over the table and the subflows of its flows comes to every flow once. -/
theorem Leads.nodup_family {t : FlowTables} (h : t.Leads)
    {order : List (Sigma fun _ : FlowID => FlowPtr)} (hperm : order.Perm t.flows.entries) :
    (order.flatMap fun x => t.family x.2).Nodup := by
  have hlead : ∀ x ∈ order, t.heap.Lead x.2 := fun x hx => h.lead x (hperm.subset hx)
  rw [List.nodup_flatMap]
  constructor
  · intro x hx
    exact List.nodup_cons.mpr ⟨(hlead x hx).2 x.2, h.owned.nodup x.2⟩
  · have hpair : order.Pairwise fun x y => x.2 ≠ y.2 :=
      List.pairwise_map.mp (List.nodup_iff_pairwise_ne.mp ((hperm.map _).nodup_iff.mpr h.nodup))
    refine hpair.imp_of_mem ?_
    intro x y hx hy hne sf hsf hsf'
    rcases List.mem_cons.mp hsf with rfl | hsub <;> rcases List.mem_cons.mp hsf' with heq | hsub'
    · exact hne heq
    · exact (hlead x hx).2 y.2 hsub'
    · exact (hlead y hy).2 x.2 (heq ▸ hsub)
    · exact h.owned.disjoint x.2 y.2 hne hsub hsub'

end FlowTables

end Scion
