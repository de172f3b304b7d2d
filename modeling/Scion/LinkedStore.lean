/-
A list of nodes and an index of iterators into it.

Entries live in the nodes of a list, and an index holds the node of every key. An iterator
is the address of a node, and is dangling once the node is gone.

* `Linked`, with `find?`, `deref`, `modify`, `splice`, `eraseNode`, `emplaceBack` and the
  loops `unindex` and `unindexWhile`; `none` for what is undefined;
* `Implements` — list and index hold the entries of a store;
* `Implements.splice`, `Implements.erase`, `Implements.push`, `Implements.unindex` — what the
  operations do to the store.
-/
import Mathlib.Data.List.AList
import Scion.LruStore

namespace Lru

variable {κ υ : Type}

/-- A node of the list, at its address. -/
structure Node (κ υ : Type) where
  id : ℕ
  key : κ
  value : υ

namespace Node

def entry (node : Node κ υ) : κ × υ := (node.key, node.value)

end Node

/-- The list, the index, and the address of the node that comes next. -/
structure Linked (κ υ : Type) where
  nodes : List (Node κ υ)
  index : AList fun _ : κ => ℕ
  fresh : ℕ

namespace Linked

def empty : Linked κ υ := ⟨[], ∅, 0⟩

def size (m : Linked κ υ) : ℕ := m.nodes.length

/-- The node an iterator points to, if it is not dangling. -/
def deref (m : Linked κ υ) (i : ℕ) : Option (Node κ υ) := m.nodes.find? fun node => node.id = i

/-- Assign to the value of a node. -/
def modify (m : Linked κ υ) (i : ℕ) (f : υ → υ) : Option (Linked κ υ) :=
  (m.deref i).map fun _ =>
    { m with nodes := m.nodes.map fun node =>
        if node.id = i then { node with value := f node.value } else node }

/-- Move a node to the end of the list. -/
def splice (m : Linked κ υ) (i : ℕ) : Option (Linked κ υ) :=
  (m.deref i).map fun node =>
    { m with nodes := (m.nodes.filter fun node => node.id ≠ i) ++ [node] }

def eraseNode (m : Linked κ υ) (i : ℕ) : Option (Linked κ υ) :=
  (m.deref i).map fun _ => { m with nodes := m.nodes.filter fun node => node.id ≠ i }

/-- The first node of a list that is not empty. -/
def front (m : Linked κ υ) : Option (Node κ υ) := m.nodes.head?

def popFront (m : Linked κ υ) : Option (Linked κ υ) :=
  match m.nodes with
  | [] => none
  | _ :: rest => some { m with nodes := rest }

/-- A new node at the end of the list. -/
def emplaceBack (m : Linked κ υ) (k : κ) (v : υ) : Linked κ υ :=
  { m with nodes := m.nodes ++ [⟨m.fresh, k, v⟩], fresh := m.fresh + 1 }

variable [DecidableEq κ]

/-- The iterator of a key. -/
def find? (m : Linked κ υ) (k : κ) : Option ℕ := m.index.lookup k

def eraseIndex (m : Linked κ υ) (k : κ) : Linked κ υ := { m with index := m.index.erase k }

/-- Let the index hold the last node for a key. -/
def indexLast (m : Linked κ υ) (k : κ) : Option (Linked κ υ) :=
  m.nodes.getLast?.map fun node => { m with index := m.index.insert k node.id }

/-- A loop that removes the keys of the first `n` nodes from the index; the rest of the
list is where the iterator ends up. -/
def unindex : ℕ → List (Node κ υ) → (AList fun _ : κ => ℕ) →
    Option (List (Node κ υ) × AList fun _ : κ => ℕ)
  | 0, nodes, index => some (nodes, index)
  | _ + 1, [], _ => none
  | n + 1, node :: rest, index => unindex n rest (index.erase node.key)

/-- A loop that removes the keys of the nodes from the index as long as they satisfy `p`,
and counts them. -/
def unindexWhile (p : υ → Bool) :
    List (Node κ υ) → (AList fun _ : κ => ℕ) → ℕ × List (Node κ υ) × AList fun _ : κ => ℕ
  | [], index => (0, [], index)
  | node :: rest, index =>
    if p node.value then
      let (count, nodes, index) := unindexWhile p rest (index.erase node.key)
      (count + 1, nodes, index)
    else (0, node :: rest, index)

/-- The nodes hold the entries of the store, at different addresses, and the index points
from each key to its node. -/
structure Implements (m : Linked κ υ) (s : Store κ υ) : Prop where
  entries : m.nodes.map Node.entry = s.entries
  ids : (m.nodes.map Node.id).Nodup
  points : ∀ k i, m.find? k = some i ↔ ∃ node ∈ m.nodes, node.key = k ∧ node.id = i
  below : ∀ node ∈ m.nodes, node.id < m.fresh

variable {m : Linked κ υ} {s : Store κ υ} {k : κ} {i : ℕ}

theorem implements_empty : Implements (empty : Linked κ υ) Store.empty := by
  refine ⟨rfl, List.nodup_nil, fun k i => ?_, fun node hnode => absurd hnode List.not_mem_nil⟩
  constructor
  · intro h
    cases h
  · rintro ⟨node, hnode, -⟩
    exact absurd hnode List.not_mem_nil

/-! ### Nodes and entries -/

theorem Implements.size_eq (h : Implements m s) : m.size = s.entries.length := by
  rw [← h.entries, List.length_map, size]

theorem Implements.keys_eq (h : Implements m s) :
    m.nodes.map Node.key = s.entries.map Prod.fst := by
  rw [← h.entries, List.map_map]
  rfl

theorem Implements.keys_nodup (h : Implements m s) : (m.nodes.map Node.key).Nodup :=
  h.keys_eq ▸ s.nodup

/-- Nodes are told apart by their addresses, and by their keys. -/
theorem Implements.eq_of_id {node node' : Node κ υ} (h : Implements m s) (hnode : node ∈ m.nodes)
    (hnode' : node' ∈ m.nodes) (hid : node.id = node'.id) : node = node' :=
  List.inj_on_of_nodup_map h.ids hnode hnode' hid

theorem Implements.eq_of_key {node node' : Node κ υ} (h : Implements m s) (hnode : node ∈ m.nodes)
    (hnode' : node' ∈ m.nodes) (hkey : node.key = node'.key) : node = node' :=
  List.inj_on_of_nodup_map h.keys_nodup hnode hnode' hkey

theorem Implements.id_eq_iff {node : Node κ υ} (h : Implements m s) (hfind : m.find? k = some i)
    (hnode : node ∈ m.nodes) : node.id = i ↔ node.key = k := by
  obtain ⟨found, hfound, rfl, rfl⟩ := (h.points k i).mp hfind
  constructor
  · intro hid
    rw [h.eq_of_id hnode hfound hid]
  · intro hkey
    rw [h.eq_of_key hnode hfound hkey]

theorem Implements.find?_eq_none_iff (h : Implements m s) :
    m.find? k = none ↔ s.find? k = none := by
  rw [Store.find?_eq_none_iff, ← h.keys_eq, List.mem_map, Option.eq_none_iff_forall_ne_some]
  constructor
  · rintro hnone ⟨node, hnode, hkey⟩
    exact hnone node.id ((h.points k node.id).mpr ⟨node, hnode, hkey, rfl⟩)
  · intro hnone i hfind
    obtain ⟨node, hnode, hkey, -⟩ := (h.points k i).mp hfind
    exact hnone ⟨node, hnode, hkey⟩

/-- The iterator of a key is not dangling. -/
theorem Implements.deref (h : Implements m s) (hfind : m.find? k = some i) :
    ∃ node ∈ m.nodes, m.deref i = some node ∧ node.key = k ∧ node.id = i ∧
      s.find? k = some node.value := by
  obtain ⟨node, hnode, hkey, hid⟩ := (h.points k i).mp hfind
  have hentry : (k, node.value) ∈ s.entries := by
    rw [← h.entries, ← hkey]
    exact List.mem_map_of_mem hnode
  refine ⟨node, hnode, ?_, hkey, hid, Store.mem_entries_iff.mp hentry⟩
  cases hderef : m.deref i with
  | none =>
    have hnot := List.find?_eq_none.mp hderef node hnode
    rw [hid] at hnot
    exact absurd (decide_eq_true rfl) hnot
  | some found =>
    have hfound := List.mem_of_find?_eq_some hderef
    have hfid : found.id = i :=
      of_decide_eq_true (List.find?_some (p := fun node : Node κ υ => decide (node.id = i)) hderef)
    rw [h.eq_of_id hfound hnode (hfid.trans hid.symm)]

/-! ### Operations -/

/-- The value of a key changes where it is. -/
theorem Implements.modify (h : Implements m s) (hfind : m.find? k = some i) (f : υ → υ) :
    ∃ m', m.modify i f = some m' ∧ Implements m' (s.update k f) ∧ m'.find? k = some i := by
  obtain ⟨node, -, hderef, -⟩ := h.deref hfind
  set change : Node κ υ → Node κ υ := fun node =>
    if node.id = i then { node with value := f node.value } else node with hchange
  have hid : ∀ node, (change node).id = node.id := by
    intro node
    rw [hchange]
    dsimp only
    split <;> rfl
  have hkey : ∀ node, (change node).key = node.key := by
    intro node
    rw [hchange]
    dsimp only
    split <;> rfl
  refine ⟨{ m with nodes := m.nodes.map change }, ?_, ⟨?_, ?_, fun k' i' => ?_, ?_⟩, hfind⟩
  · rw [Linked.modify, hderef, Option.map_some]
  · rw [Store.entries_update, ← h.entries, List.map_map, List.map_map]
    refine List.map_congr_left fun node hnode => ?_
    rw [Function.comp_apply, Function.comp_apply, hchange]
    show Node.entry (if node.id = i then _ else node) = if node.entry.1 = k then _ else node.entry
    by_cases hsame : node.id = i
    · have hk : node.entry.1 = k := (h.id_eq_iff hfind hnode).mp hsame
      rw [if_pos hsame, if_pos hk]
      rfl
    · have hk : node.entry.1 ≠ k := fun heq => hsame ((h.id_eq_iff hfind hnode).mpr heq)
      rw [if_neg hsame, if_neg hk]
  · dsimp only
    rw [List.map_map, show Node.id ∘ change = Node.id from funext hid]
    exact h.ids
  · refine (h.points k' i').trans ?_
    constructor
    · rintro ⟨node, hnode, rfl, rfl⟩
      exact ⟨change node, List.mem_map_of_mem hnode, hkey node, hid node⟩
    · rintro ⟨node, hnode, hk, hi⟩
      obtain ⟨old, hold, rfl⟩ := List.mem_map.mp hnode
      exact ⟨old, hold, (hkey old).symm.trans hk, (hid old).symm.trans hi⟩
  · intro node hnode
    obtain ⟨old, hold, rfl⟩ := List.mem_map.mp hnode
    rw [hid]
    exact h.below old hold

/-- The nodes but that of a key. -/
theorem Implements.filter_entries (h : Implements m s) (hfind : m.find? k = some i) :
    (m.nodes.filter fun node => node.id ≠ i).map Node.entry = (s.erase k).entries := by
  rw [Store.entries_erase, ← h.entries, List.filter_map]
  congr 1
  refine List.filter_congr fun node hnode => ?_
  rw [Function.comp_apply, decide_eq_decide]
  exact not_congr (h.id_eq_iff hfind hnode)

/-- The entry of a key moves to the back. -/
theorem Implements.splice (h : Implements m s) (hfind : m.find? k = some i) {v : υ}
    (hv : s.find? k = some v) :
    ∃ m', m.splice i = some m' ∧ Implements m' (s.touch k v) ∧ m'.find? k = some i := by
  obtain ⟨node, hnode, hderef, hkey, hid, hvalue⟩ := h.deref hfind
  have hmem : ∀ other, other ∈ (m.nodes.filter fun node => node.id ≠ i) ++ [node] ↔
      other ∈ m.nodes := by
    intro other
    rw [List.mem_append, List.mem_filter, List.mem_singleton]
    constructor
    · rintro (⟨hother, -⟩ | rfl)
      · exact hother
      · exact hnode
    · intro hother
      by_cases hsame : other.id = i
      · exact Or.inr (h.eq_of_id hother hnode (hsame.trans hid.symm))
      · exact Or.inl ⟨hother, decide_eq_true hsame⟩
  refine ⟨{ m with nodes := (m.nodes.filter fun node => node.id ≠ i) ++ [node] }, ?_,
    ⟨?_, ?_, fun k' i' => ?_, ?_⟩, hfind⟩
  · rw [Linked.splice, hderef, Option.map_some]
  · dsimp only
    rw [List.map_append, h.filter_entries hfind, Store.entries_erase, Store.entries_touch,
      List.map_singleton, Node.entry, hkey, ← Option.some.inj (hv.symm.trans hvalue)]
  · dsimp only
    rw [List.map_append, List.map_singleton, hid]
    refine List.nodup_append.mpr ⟨(List.filter_sublist.map Node.id).nodup h.ids,
      List.nodup_singleton i, ?_⟩
    intro a ha b hb
    obtain ⟨other, hother, rfl⟩ := List.mem_map.mp ha
    rw [List.mem_singleton.mp hb]
    exact of_decide_eq_true (List.mem_filter.mp hother).2
  · refine (h.points k' i').trans ?_
    simp only [hmem]
  · intro other hother
    exact h.below other ((hmem other).mp hother)

/-- An entry is erased from the list, and its key from the index. -/
theorem Implements.erase (h : Implements m s) (hfind : m.find? k = some i) :
    ∃ m', m.eraseNode i = some m' ∧ Implements (m'.eraseIndex k) (s.erase k) := by
  obtain ⟨node, hnode, hderef, hkey, hid, -⟩ := h.deref hfind
  refine ⟨{ m with nodes := m.nodes.filter fun node => node.id ≠ i }, ?_,
    ⟨h.filter_entries hfind, (List.filter_sublist.map Node.id).nodup h.ids, fun k' i' => ?_, ?_⟩⟩
  · rw [eraseNode, hderef, Option.map_some]
  · dsimp only [find?, eraseIndex]
    by_cases hsame : k' = k
    · rw [hsame, AList.lookup_erase]
      refine iff_of_false (Option.some_ne_none i').symm ?_
      rintro ⟨other, hother, hk, -⟩
      have hdiffer := of_decide_eq_true (List.mem_filter.mp hother).2
      exact hdiffer ((h.id_eq_iff hfind (List.mem_filter.mp hother).1).mpr hk)
    · rw [AList.lookup_erase_ne hsame]
      refine (h.points k' i').trans ?_
      constructor
      · rintro ⟨other, hother, rfl, rfl⟩
        refine ⟨other, List.mem_filter.mpr ⟨hother, decide_eq_true ?_⟩, rfl, rfl⟩
        exact fun heq => hsame ((h.id_eq_iff hfind hother).mp heq)
      · rintro ⟨other, hother, rfl, rfl⟩
        exact ⟨other, (List.mem_filter.mp hother).1, rfl, rfl⟩
  · intro other hother
    exact h.below other (List.mem_filter.mp hother).1

/-- A new entry at the back, for a key that is not in the index. -/
theorem Implements.push (h : Implements m s) (v : υ) (hk : k ∉ s.entries.map Prod.fst) :
    ∃ m', (m.emplaceBack k v).indexLast k = some m' ∧ Implements m' (s.push k v hk) ∧
      m'.nodes = m.nodes ++ [⟨m.fresh, k, v⟩] := by
  have hnew : ∀ node ∈ m.nodes, node.key ≠ k := by
    rintro node hnode rfl
    exact hk (h.keys_eq ▸ List.mem_map_of_mem hnode)
  refine ⟨⟨m.nodes ++ [⟨m.fresh, k, v⟩], m.index.insert k m.fresh, m.fresh + 1⟩, ?_,
    ⟨?_, ?_, fun k' i' => ?_, ?_⟩, rfl⟩
  · rw [indexLast, emplaceBack, List.getLast?_append, List.getLast?_singleton]
    rfl
  · dsimp only
    rw [List.map_append, h.entries]
    rfl
  · dsimp only
    rw [List.map_append]
    refine List.nodup_append.mpr ⟨h.ids, List.nodup_singleton _, ?_⟩
    intro a ha b hb
    obtain ⟨node, hnode, rfl⟩ := List.mem_map.mp ha
    rw [List.mem_singleton.mp hb]
    exact Nat.ne_of_lt (h.below node hnode)
  · dsimp only [find?]
    by_cases hsame : k' = k
    · rw [hsame, AList.lookup_insert, Option.some.injEq]
      constructor
      · rintro rfl
        exact ⟨⟨m.fresh, k, v⟩, List.mem_append_right _ (List.mem_singleton_self _), rfl, rfl⟩
      · rintro ⟨node, hnode, hkey, rfl⟩
        rcases List.mem_append.mp hnode with hold | hlast
        · exact absurd hkey (hnew node hold)
        · rw [List.mem_singleton.mp hlast]
    · rw [AList.lookup_insert_ne hsame]
      refine (h.points k' i').trans ?_
      constructor
      · rintro ⟨node, hnode, hkey, hid⟩
        exact ⟨node, List.mem_append_left _ hnode, hkey, hid⟩
      · rintro ⟨node, hnode, hkey, hid⟩
        rcases List.mem_append.mp hnode with hold | hlast
        · exact ⟨node, hold, hkey, hid⟩
        · rw [List.mem_singleton.mp hlast] at hkey
          exact absurd hkey.symm hsame
  · intro node hnode
    rcases List.mem_append.mp hnode with hold | hlast
    · exact Nat.lt_succ_of_lt (h.below node hold)
    · rw [List.mem_singleton.mp hlast]
      exact Nat.lt_succ_self m.fresh

/-- The first entry is dropped. -/
theorem Implements.tail {node : Node κ υ} {rest : List (Node κ υ)} (h : Implements m s)
    (hnodes : m.nodes = node :: rest) :
    Implements ⟨rest, m.index.erase node.key, m.fresh⟩ (s.drop 1) := by
  have hentries := h.entries
  have hids := h.ids
  have hkeys := h.keys_nodup
  rw [hnodes, List.map_cons] at hentries hids hkeys
  refine ⟨?_, (List.nodup_cons.mp hids).2, fun k i => ?_, fun other hother => ?_⟩
  · rw [Store.entries_drop, ← hentries]
    rfl
  · dsimp only [find?]
    by_cases hsame : k = node.key
    · rw [hsame, AList.lookup_erase]
      refine iff_of_false (Option.some_ne_none i).symm ?_
      rintro ⟨other, hother, hkey, -⟩
      exact (List.nodup_cons.mp hkeys).1 (hkey ▸ List.mem_map_of_mem hother)
    · rw [AList.lookup_erase_ne hsame]
      refine (h.points k i).trans ?_
      rw [hnodes]
      constructor
      · rintro ⟨other, hother, hkey, hid⟩
        rcases List.mem_cons.mp hother with rfl | hrest
        · exact absurd hkey.symm hsame
        · exact ⟨other, hrest, hkey, hid⟩
      · rintro ⟨other, hother, hkey, hid⟩
        exact ⟨other, List.mem_cons_of_mem _ hother, hkey, hid⟩
  · exact h.below other (hnodes ▸ List.mem_cons_of_mem _ hother)

/-- The loop over the first `n` nodes. -/
theorem Implements.unindex {n : ℕ} (h : Implements m s) (hn : n ≤ m.size) :
    ∃ index, Linked.unindex n m.nodes m.index = some (m.nodes.drop n, index) ∧
      Implements ⟨m.nodes.drop n, index, m.fresh⟩ (s.drop n) := by
  obtain ⟨nodes, index, fresh⟩ := m
  induction n generalizing nodes index s with
  | zero => exact ⟨index, rfl, h⟩
  | succ n ih =>
    cases nodes with
    | nil => exact absurd hn (Nat.not_succ_le_zero n)
    | cons node rest =>
      obtain ⟨index', hrun, himpl⟩ := ih _ _ (h.tail rfl) (Nat.le_of_succ_le_succ hn)
      refine ⟨index', hrun, ?_⟩
      have hdrop : (s.drop 1).drop n = s.drop (n + 1) := by
        refine Store.ext ?_
        rw [Store.entries_drop, Store.entries_drop, Store.entries_drop, List.drop_drop,
          Nat.add_comm]
      rw [← hdrop]
      exact himpl

/-- The loop over the nodes that satisfy a condition. -/
theorem Implements.unindexWhile (h : Implements m s) (p : υ → Bool) :
    (Linked.unindexWhile p m.nodes m.index).1
        = (m.nodes.takeWhile fun node => p node.value).length ∧
      (Linked.unindexWhile p m.nodes m.index).2.1 = m.nodes.dropWhile (fun node => p node.value) ∧
      Implements ⟨m.nodes.dropWhile fun node => p node.value,
        (Linked.unindexWhile p m.nodes m.index).2.2, m.fresh⟩ (s.dropWhile p) := by
  obtain ⟨nodes, index, fresh⟩ := m
  induction nodes generalizing index s with
  | nil =>
    refine ⟨rfl, rfl, ?_⟩
    have hnone : s.dropWhile p = s := by
      refine Store.ext ?_
      rw [Store.entries_dropWhile, ← h.entries]
      rfl
    rw [hnone]
    exact h
  | cons node rest ih =>
    have hentries : node.entry :: rest.map Node.entry = s.entries := h.entries
    dsimp only
    rw [Linked.unindexWhile]
    by_cases hp : p node.value
    · obtain ⟨hcount, hrest, himpl⟩ := ih _ (h.tail rfl)
      have hdrop : (s.drop 1).dropWhile p = s.dropWhile p := by
        refine Store.ext ?_
        rw [Store.entries_dropWhile, Store.entries_dropWhile, Store.entries_drop, ← hentries,
          List.drop_one, List.tail_cons]
        exact (List.dropWhile_cons_of_pos (p := fun e : κ × υ => p e.2) hp).symm
      rw [hdrop] at himpl
      rw [if_pos hp, List.takeWhile_cons_of_pos (p := fun node : Node κ υ => p node.value) hp,
        List.dropWhile_cons_of_pos (p := fun node : Node κ υ => p node.value) hp,
        List.length_cons]
      exact ⟨congrArg (· + 1) hcount, hrest, himpl⟩
    · have hkeep : s.dropWhile p = s := by
        refine Store.ext ?_
        rw [Store.entries_dropWhile, ← hentries]
        exact List.dropWhile_cons_of_neg (p := fun e : κ × υ => p e.2) hp
      rw [if_neg hp, List.takeWhile_cons_of_neg (p := fun node : Node κ υ => p node.value) hp,
        List.dropWhile_cons_of_neg (p := fun node : Node κ υ => p node.value) hp, hkeep]
      exact ⟨rfl, rfl, h⟩

end Linked

end Lru
