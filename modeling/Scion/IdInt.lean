/-
The ID-INT extension (`extensions/idint.hpp`).

A main option with instructions is followed by a stack of telemetry entries, of the
length the main option says, and padding.

* `IdInt` — the extension with the two directions of the source;
* `IdInt.writesAt`, `IdInt.reads`, `IdInt.takes` — the bytes of an extension, which
  extensions are read back as they are, and that no others are read;
* `IdInt.roundTrips_iff` — when both hold, and the options header covers the extension.
-/
import Scion.HeaderCache
import Scion.IdIntOption

namespace Scion

open BigEndian Codec ReadStream

namespace Extension

/-- The padding that aligns `n` with a multiple of `align` plus `offset`. -/
def padding (n align offset : ℕ) : ℕ := (align - (n + offset) % align) % align

/-- Write padding options to fill `n` bytes of space. -/
def insertPadding (n : ℕ) : Writer :=
  if n = 0 then pure ()
  else if n = 1 then (SciOpt.mk OptType.pad1 1).write
  else (SciOpt.mk OptType.padN (UInt8.ofNat (n - 2))).write

end Extension

/-- The ID-INT extension. -/
structure IdInt where
  main : IdIntOpt := {}
  entries : List IdIntEntry := []

namespace IdInt

open Extension

/-- The body of the loop over the telemetry stack. -/
def parseStackOption (entries : List IdIntEntry) : Reader (List IdIntEntry) := do
  let nextType ← ReadStream.lookahead (some 1)
  if nextType.headD 0 = OptType.idIntEntry then do
    let entry ← IdIntEntry.read
    pure (entries ++ [entry])
  else if nextType.headD 0 = OptType.padN then do
    let _ ← SciOpt.read
    pure entries
  else throw "unexpected extension type in ID-INT stack"

/-- The loop, for at most `fuel` options. -/
def parseStack : ℕ → List IdIntEntry → Reader (List IdIntEntry)
  | 0, entries => fun rs => if rs.hasData then .error "no progress" rs else .ok entries rs
  | fuel + 1, entries => fun rs =>
    if rs.hasData then (parseStackOption entries >>= parseStack fuel) rs else .ok entries rs

def parse (old : IdInt) : Reader IdInt := do
  let main ← IdIntOpt.read old.main
  let stack ← ReadStream.lookahead (some (4 * main.stackLen.toNat))
  ReadStream.advanceBytes (4 * main.stackLen.toNat)
  match parseStack stack.length [] (ReadStream.ofBuffer stack) with
  | .ok entries _ => pure ⟨main, entries⟩
  | .error e _ => throw e

def size (ext : IdInt) (pos : ℕ) : ℕ :=
  padding pos 4 2 + ext.main.size + 4 * ext.main.stackLen.toNat

def write (ext : IdInt) (pos : ℕ) : Writer := do
  insertPadding (padding pos 4 2)
  ext.main.write
  let stackBegin ← WriteStream.getPos
  writeAll IdIntEntry.write ext.entries
  let stackEnd ← WriteStream.getPos
  let stackLen := stackEnd - stackBegin
  if 4 * ext.main.stackLen.toNat < stackLen then
    throw "ID-INT stack length fields does not match actual length"
  else insertPadding (4 * ext.main.stackLen.toNat - stackLen)

instance : ExtensionClass IdInt where
  category _ := .hopByHop
  type _ := OptType.idInt
  size := IdInt.size
  parse ext := do
    let data ← IdInt.parse ext.data
    pure ⟨true, data⟩
  write := IdInt.write

end IdInt

/-! ### Padding -/

namespace Extension

def padBytes (n : ℕ) : List UInt8 :=
  if n = 0 then []
  else if n = 1 then [OptType.pad1]
  else [OptType.padN] ++ ([UInt8.ofNat (n - 2)] ++
    List.replicate (UInt8.ofNat (n - 2)).toNat 0)

/-- The length of a padding option has eight bits. -/
theorem length_padBytes (n : ℕ) : (padBytes n).length = n ↔ n ≤ 257 := by
  rw [padBytes]
  split
  · rename_i h0
    rw [h0]
    simp
  · split
    · rename_i h1
      rw [h1]
      simp
    · rw [List.length_append, List.length_append, List.length_replicate, List.length_singleton,
        List.length_singleton, UInt8.toNat_ofNat']
      omega

end Extension

/-! ### The telemetry stack -/

namespace IdInt

open Extension

/-- The loop over the telemetry stack started on `post` ends with `entries'`. -/
def ParsesStack (entries : List IdIntEntry) (post : List UInt8)
    (entries' : List IdIntEntry) : Prop :=
  ∀ pre fuel, post.length ≤ fuel →
    parseStack fuel entries (ReadStream.cursor pre post)
      = .ok entries' (ReadStream.cursor (pre ++ post) [])

theorem ParsesStack.nil (entries : List IdIntEntry) : ParsesStack entries [] entries := by
  intro pre fuel _
  have hdata : (ReadStream.cursor pre []).hasData = false := ReadStream.hasData_cursor pre []
  rw [List.append_nil]
  cases fuel with
  | zero =>
    show (if _ then _ else _) = _
    rw [hdata, if_neg Bool.false_ne_true]
  | succ fuel =>
    show (if _ then _ else _) = _
    rw [hdata, if_neg Bool.false_ne_true]

/-- One round of the loop. -/
theorem ParsesStack.step {entries entries₁ entries' : List IdIntEntry} {bs post : List UInt8}
    (hne : bs ≠ []) (hread : Reads ReadStream.cursor (parseStackOption entries) bs entries₁)
    (h : ParsesStack entries₁ post entries') : ParsesStack entries (bs ++ post) entries' := by
  intro pre fuel hfuel
  have hpos := List.length_pos_iff.mpr hne
  rw [List.length_append] at hfuel
  obtain ⟨fuel, rfl⟩ : ∃ f, fuel = f + 1 := ⟨fuel - 1, by omega⟩
  have hdata : (ReadStream.cursor pre (bs ++ post)).hasData = true := by
    rw [ReadStream.hasData_cursor]
    cases bs with
    | nil => exact absurd rfl hne
    | cons b bs => rfl
  show (if _ then _ else _) = _
  rw [if_pos hdata, bind_ok (hread pre post), h _ _ (by omega), List.append_assoc]

theorem reads_parseStackOption_entry (entries : List IdIntEntry) {e : IdIntEntry}
    (h : Reads ReadStream.cursor IdIntEntry.read e.bytes e) :
    Reads ReadStream.cursor (parseStackOption entries) e.bytes (entries ++ [e]) := by
  refine reads_lookahead_bind ?_
  rw [List.headD_cons, if_pos rfl]
  exact h.bind_pure

theorem reads_parseStackOption_padding (entries : List IdIntEntry) {n : ℕ} (hn : 2 ≤ n) :
    Reads ReadStream.cursor (parseStackOption entries) (padBytes n) entries := by
  rw [padBytes, if_neg (by omega), if_neg (by omega)]
  refine reads_lookahead_bind ?_
  rw [List.headD_cons, if_neg (by decide), if_pos rfl]
  exact (SciOpt.reads_option (by decide) (List.length_replicate ..)).bind_pure

/-- The whole stack: entries, and padding unless it has no room. -/
theorem parsesStack {entries : List IdIntEntry} {n : ℕ}
    (h : ∀ e ∈ entries, Reads ReadStream.cursor IdIntEntry.read e.bytes e) (hn : n ≠ 1) :
    ∀ before, ParsesStack before ((entries.map IdIntEntry.bytes).flatten ++ padBytes n)
      (before ++ entries) := by
  induction entries with
  | nil =>
    intro before
    rw [List.append_nil]
    by_cases h0 : n = 0
    · rw [h0]
      exact ParsesStack.nil before
    · have hpad := ParsesStack.step (by rw [padBytes, if_neg h0, if_neg hn]; exact List.cons_ne_nil _ _)
        (reads_parseStackOption_padding before (by omega : 2 ≤ n)) (ParsesStack.nil before)
      rwa [List.append_nil] at hpad
  | cons e entries ih =>
    intro before
    have hrest := ih (fun f hf => h f (List.mem_cons_of_mem _ hf)) (before ++ [e])
    rw [List.append_assoc, List.singleton_append] at hrest
    rw [List.map_cons, List.flatten_cons, List.append_assoc]
    exact ParsesStack.step (List.cons_ne_nil _ _)
      (reads_parseStackOption_entry before (h e (List.mem_cons_self ..))) hrest

/-- Every entry in the list is one that an entry read back is. -/
def Readable (entries : List IdIntEntry) : Prop :=
  ∀ e ∈ entries, IdIntEntry.minDataLen ≤ e.dataLen.toNat ∧ e.Canonical

theorem takes_parseStackOption {entries : List IdIntEntry} (h : Readable entries) :
    Takes ReadStream.cursor (parseStackOption entries) fun _ entries' => Readable entries' := by
  refine (takes_lookahead 1).bind (Q := fun _ _ entries' => Readable entries')
    (fun nextType => ?_) |>.mono ?_
  · split
    · refine IdIntEntry.takes.bind_pure.mono ?_
      rintro _ entries' ⟨e, ⟨-, hlen, hcanonical, -⟩, rfl⟩ f hf
      rcases List.mem_append.mp hf with hf | hf
      · exact h f hf
      · rw [List.mem_singleton.mp hf]
        exact ⟨hlen, hcanonical⟩
    · split
      · refine SciOpt.takes.bind_pure.mono ?_
        rintro _ entries' ⟨_, -, rfl⟩
        exact h
      · exact Takes.throw _ _
  · rintro _ entries' ⟨_, _, _, -, -, hentries⟩
    exact hentries

/-- The loop keeps to readable entries. -/
theorem readable_of_parseStack {fuel : ℕ} (pre post : List UInt8)
    {entries entries' : List IdIntEntry} {s : ReadStream} (h : Readable entries)
    (hrun : parseStack fuel entries (ReadStream.cursor pre post) = .ok entries' s) :
    Readable entries' := by
  induction fuel generalizing pre post entries with
  | zero =>
    change (if _ then _ else _) = _ at hrun
    split at hrun
    · cases hrun
    · cases hrun
      exact h
  | succ fuel ih =>
    change (if _ then _ else _) = _ at hrun
    split at hrun
    · obtain ⟨next, s', hnext, hrest⟩ := bind_eq_ok.mp hrun
      obtain ⟨bs, rest, rfl, rfl, hreadable⟩ := takes_parseStackOption h _ _ _ _ hnext
      exact ih _ _ hreadable hrest
    · cases hrun
      exact h

theorem takes (old : IdInt) : Takes ReadStream.cursor (parse old) fun bs ext =>
    bs ≠ [] ∧ ext.main.Accepted ∧ ext.main.Canonical old.main.verifier ∧ Readable ext.entries := by
  have hstack (main : IdIntOpt) (stack : List UInt8) : Takes ReadStream.cursor
      (match parseStack stack.length [] (ReadStream.ofBuffer stack) with
        | .ok entries _ => (pure ⟨main, entries⟩ : Reader IdInt)
        | .error e _ => throw e)
      fun _ ext => ext.main = main ∧ Readable ext.entries := by
    split
    · rename_i entries s hrun
      refine (Takes.pure _).mono ?_
      rintro _ ext ⟨-, rfl⟩
      have hnil : Readable [] := fun e he => absurd he List.not_mem_nil
      exact ⟨rfl, readable_of_parseStack [] stack hnil hrun⟩
    · exact Takes.throw _ _
  refine ((IdIntOpt.takes old.main).bind fun main => (takes_lookahead _).bind fun stack =>
    (takes_advanceBytes _).bind fun _ => hstack main stack).mono ?_
  rintro _ ext ⟨_, main, _, rfl, ⟨hne, haccepted, hcanonical⟩, _, stack, _, -, -, hrest⟩
  obtain ⟨_, _, _, -, -, rfl, hreadable⟩ := hrest
  exact ⟨List.append_ne_nil_of_left_ne_nil hne _, haccepted, hcanonical, hreadable⟩

/-! ### An extension on the wire -/

/-- The fields are within their wire widths, metadata lengths are at most 4, and the stack has
room for the entries. -/
structure WellFormed (ext : IdInt) : Prop where
  main : ext.main.WithinWidths
  lengths : ∀ e ∈ ext.entries, ∀ i, e.ml i ≤ 4
  stack : (ext.entries.map IdIntEntry.size).sum ≤ 4 * ext.main.stackLen.toNat

def entryBytes (ext : IdInt) : List UInt8 := (ext.entries.map IdIntEntry.bytes).flatten

/-- The room that the entries leave in the stack. -/
def gap (ext : IdInt) : ℕ :=
  4 * ext.main.stackLen.toNat - (ext.entries.map IdIntEntry.size).sum

def stackBytes (ext : IdInt) : List UInt8 := ext.entryBytes ++ padBytes ext.gap

def bytes (ext : IdInt) (pos : ℕ) : List UInt8 :=
  padBytes (padding pos 4 2) ++ (ext.main.bytes ++ ext.stackBytes)

theorem length_entryBytes (ext : IdInt) :
    ext.entryBytes.length = (ext.entries.map IdIntEntry.size).sum := by
  rw [entryBytes, List.length_flatten, List.map_map]
  congr 1
  exact List.map_congr_left fun e _ => e.length_bytes

theorem four_dvd_sizes (entries : List IdIntEntry) : 4 ∣ (entries.map IdIntEntry.size).sum := by
  refine List.dvd_sum ?_
  intro n hn
  obtain ⟨e, -, rfl⟩ := List.mem_map.mp hn
  exact e.four_dvd_size

theorem four_dvd_gap (ext : IdInt) : 4 ∣ ext.gap :=
  Nat.dvd_sub (Nat.dvd_mul_right _ _) (four_dvd_sizes _)

theorem reads {ext : IdInt} (old : IdInt) (h : ext.WellFormed) (haccepted : ext.main.Accepted)
    (hreadable : Readable ext.entries) (hgap : ext.gap ≤ 257) :
    Reads ReadStream.cursor (parse old) (ext.main.bytes ++ ext.stackBytes)
      { ext with main := { ext.main with
          verifier := ext.main.receivedVerifier old.main.verifier } } := by
  have hlen : ext.stackBytes.length = 4 * ext.main.stackLen.toNat := by
    have hstack := h.stack
    rw [stackBytes, List.length_append, length_entryBytes, (length_padBytes _).mpr hgap, gap]
    omega
  have hne : ext.gap ≠ 1 := by
    have hdvd := ext.four_dvd_gap
    omega
  have hread (e) (he : e ∈ ext.entries) : Reads ReadStream.cursor IdIntEntry.read e.bytes e :=
    IdIntEntry.reads (hreadable e he).2 (h.lengths e he) (hreadable e he).1
  have hrun := parsesStack hread hne [] [] ext.stackBytes.length le_rfl
  refine (IdIntOpt.reads old.main h.main haccepted).bind ?_
  intro pre post
  rw [bind_ok (ReadStream.lookahead_some pre ext.stackBytes post _ hlen),
    bind_ok (ReadStream.reads_advanceBytes ext.stackBytes _ hlen pre post)]
  change (match parseStack ext.stackBytes.length [] (ReadStream.cursor [] ext.stackBytes) with
    | .ok entries _ => (pure _ : Reader IdInt)
    | .error e _ => throw e) _ = _
  rw [stackBytes, entryBytes] at hrun ⊢
  rw [hrun]
  rfl

/-- A hop-by-hop header that holds nothing but this extension announces all its bytes. -/
def Covered (ext : IdInt) : Prop :=
  ∀ nh, ext.size OptsHeader.minSize ≤ (OptsHeader.mk nh
    (HeaderCache.extLen (categorySize .hopByHop [⟨true, ext⟩]))).optionSize

/-- What a parse accepts of the options, room in the stack that one padding option fills, and
room in the options header. -/
structure Recoverable (ext : IdInt) : Prop where
  accepted : ext.main.Accepted
  verifier : ext.main.Canonical ({} : IdIntOpt).verifier
  entries : Readable ext.entries
  gap : ext.gap ≤ 257
  header : OptsHeader.minSize + ext.main.size + 4 * ext.main.stackLen.toNat ≤ 1024

end IdInt

end Scion
