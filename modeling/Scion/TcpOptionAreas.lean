/-
Option areas of TCP headers (`hdr/tcp.hpp`).

The loop of `parseOpts` is followed option by option over an area of any bytes.

* `TCP.OptHead`, `TCP.OptRound`, `TCP.OptVisits` — where the loop stands, and one option;
* `TCP.parseOpts_eq_ok_iff` — an area is parsed when a round ends with it or at the end of
  the list;
* `TCP.LengthsFit` — the length bytes of an area agree with what the options have;
* `TCP.parsedAsDeclared_iff` — when each option is consumed by its length byte.
-/
import Scion.OptionAreas
import Scion.TcpParsing

namespace Scion

open Codec ReadStream

namespace TCP

open TcpOption

/-! ### The rounds of the loop -/

/-- Where the loop stands: the header so far, the bytes read and the bytes left. -/
structure OptHead where
  header : TCP
  pre : List UInt8
  post : List UInt8

/-- The kind of the option that comes next. -/
def OptHead.kind (a : OptHead) : UInt8 := a.post.headD 0

/-- The loop ends here. -/
def OptHead.AtEnd (a : OptHead) : Prop :=
  a.post = [] ∨ ∃ rest, a.post = TcpOptKind.endOfList :: rest

/-- One option is read, and the loop goes on behind it. -/
structure OptRound (a b : OptHead) : Prop where
  goesOn : ¬a.AtEnd
  parse : a.header.parseOption a.kind (cursor a.pre a.post) = .ok b.header (cursor b.pre b.post)

/-- A parse of `area` into `h` comes by `a`. -/
def OptVisits (h : TCP) (area : List UInt8) (a : OptHead) : Prop :=
  Relation.ReflTransGen OptRound ⟨h, [], area⟩ a

theorem OptHead.kind_ne {a : OptHead} (h : ¬a.AtEnd) : a.kind ≠ TcpOptKind.endOfList := by
  obtain ⟨header, pre, post⟩ := a
  cases post with
  | nil => exact absurd (.inl rfl) h
  | cons b rest =>
    intro hb
    exact h (.inr ⟨rest, congrArg (· :: rest) hb⟩)

/-- The bytes of an option, wherever they stand, do the same to any header. -/
structure Chunk (kind : UInt8) (bs : List UInt8) (f : TCP → TCP) : Prop where
  nonempty : bs ≠ []
  reads : ∀ x : TCP, Reads cursor (x.parseOption kind) bs (f x)
  stores : StoresKind kind bs f

/-- What one round does. -/
theorem OptRound.exists_chunk {a b : OptHead} (h : OptRound a b) :
    ∃ bs f, a.post = bs ++ b.post ∧ b.pre = a.pre ++ bs ∧ b.header = f a.header ∧
      Chunk a.kind bs f := by
  obtain ⟨bs, rest, hpost, hs, f, hf, hreads, hstores, hne⟩ :=
    fills_option (OptHead.kind_ne h.goesOn) a.header a.pre a.post _ _ h.parse
  obtain ⟨hpre, rfl⟩ := cursor_inj hs
  exact ⟨bs, f, hpost, hpre, hf, hne, hreads, hstores⟩

theorem kind_append {bs : List UInt8} (hne : bs ≠ []) (rest : List UInt8) :
    (bs ++ rest).headD 0 = bs.headD 0 := by
  cases bs with
  | nil => exact absurd rfl hne
  | cons b bs => rfl

theorem not_atEnd_append {header : TCP} {pre bs : List UInt8} (hne : bs ≠ [])
    (hkind : bs.headD 0 ≠ TcpOptKind.endOfList) (rest : List UInt8) :
    ¬(⟨header, pre, bs ++ rest⟩ : OptHead).AtEnd := by
  cases bs with
  | nil => exact absurd rfl hne
  | cons b bs =>
    rintro (hnil | ⟨rest', heq⟩)
    · cases hnil
    · exact hkind (List.cons.inj heq).1

/-- What comes behind the options that were read is not looked at. -/
theorem OptVisits.replace {h : TCP} {area : List UInt8} {a : OptHead} (hv : OptVisits h area a)
    (post : List UInt8) : OptVisits h (a.pre ++ post) ⟨a.header, a.pre, post⟩ := by
  induction hv generalizing post with
  | refl => exact Relation.ReflTransGen.refl
  | @tail b c hb hbc ih =>
    obtain ⟨bs, f, hpost, hpre, hf, hchunk⟩ := hbc.exists_chunk
    have hkind : b.kind = bs.headD 0 := by
      rw [OptHead.kind, hpost, kind_append hchunk.nonempty]
    have hne := OptHead.kind_ne hbc.goesOn
    rw [hpre, List.append_assoc]
    refine (ih (bs ++ post)).tail ⟨?_, ?_⟩
    · exact not_atEnd_append hchunk.nonempty (hkind ▸ hne) post
    · rw [OptHead.kind, kind_append hchunk.nonempty, ← hkind, hf]
      exact hchunk.reads b.header b.pre post

/-! ### The loop -/

theorem parseOpts_atEnd {a : OptHead} (hend : a.AtEnd) (fuel : ℕ) (hfuel : a.post.length ≤ fuel) :
    ∃ s, parseOpts fuel a.header (cursor a.pre a.post) = .ok a.header s := by
  obtain ⟨header, pre, post⟩ := a
  obtain rfl | ⟨rest, rfl⟩ := hend
  · have hdata : (cursor pre []).hasData = false := hasData_cursor pre []
    exact ⟨cursor pre [], by cases fuel <;> simp [parseOpts, hdata]⟩
  · obtain ⟨fuel, rfl⟩ := Nat.exists_eq_succ_of_ne_zero
      (show fuel ≠ 0 by rintro rfl; exact absurd hfuel (Nat.not_succ_le_zero _))
    have hskip := reads_map (fun _ => header) (reads_advanceBytes [TcpOptKind.endOfList] 1 rfl)
      pre rest
    rw [parseOpts_cons, if_pos rfl]
    exact ⟨_, hskip⟩

theorem parseOpts_goesOn {a : OptHead} (hend : ¬a.AtEnd) (fuel : ℕ) :
    parseOpts (fuel + 1) a.header (cursor a.pre a.post)
      = (a.header.parseOption a.kind >>= parseOpts fuel) (cursor a.pre a.post) := by
  have hne := OptHead.kind_ne hend
  obtain ⟨header, pre, post⟩ := a
  cases post with
  | nil => exact absurd (.inl rfl) hend
  | cons b rest =>
    have hkind : b ≠ TcpOptKind.endOfList := hne
    show parseOpts (fuel + 1) header (cursor pre (b :: rest))
      = (header.parseOption b >>= parseOpts fuel) (cursor pre (b :: rest))
    rw [parseOpts_cons, if_neg hkind]

/-- An option that was parsed makes a round, and takes bytes. -/
theorem exists_optRound {a : OptHead} (hend : ¬a.AtEnd) {x : TCP} {s : ReadStream}
    (h : a.header.parseOption a.kind (cursor a.pre a.post) = .ok x s) :
    ∃ b, OptRound a b ∧ b.header = x ∧ s = cursor b.pre b.post := by
  obtain ⟨bs, rest, hpost, rfl, -⟩ :=
    fills_option (OptHead.kind_ne hend) a.header a.pre a.post _ _ h
  exact ⟨⟨x, a.pre ++ bs, rest⟩, ⟨hend, h⟩, rfl, rfl⟩

theorem OptRound.length_lt {a b : OptHead} (h : OptRound a b) : b.post.length < a.post.length := by
  obtain ⟨bs, f, hpost, -, -, hchunk⟩ := h.exists_chunk
  have hpos := List.length_pos_iff.mpr hchunk.nonempty
  rw [hpost, List.length_append]
  omega

/-- The loop succeeds exactly when its rounds lead to where it ends. -/
theorem parseOpts_run {fuel : ℕ} {a : OptHead} (hfuel : a.post.length ≤ fuel) (g : TCP) :
    (∃ s, parseOpts fuel a.header (cursor a.pre a.post) = .ok g s) ↔
      ∃ b, Relation.ReflTransGen OptRound a b ∧ b.AtEnd ∧ b.header = g := by
  induction fuel generalizing a with
  | zero =>
    have hend : a.AtEnd := .inl (List.length_eq_zero_iff.mp (Nat.le_zero.mp hfuel))
    obtain ⟨s, hrun⟩ := parseOpts_atEnd hend 0 hfuel
    constructor
    · rintro ⟨s', hrun'⟩
      rw [hrun] at hrun'
      cases hrun'
      exact ⟨a, Relation.ReflTransGen.refl, hend, rfl⟩
    · rintro ⟨b, hrounds, -, rfl⟩
      rcases hrounds.cases_head with rfl | ⟨c, hac, -⟩
      · exact ⟨s, hrun⟩
      · exact absurd hend hac.goesOn
  | succ fuel ih =>
    by_cases hend : a.AtEnd
    · obtain ⟨s, hrun⟩ := parseOpts_atEnd hend (fuel + 1) hfuel
      constructor
      · rintro ⟨s', hrun'⟩
        rw [hrun] at hrun'
        cases hrun'
        exact ⟨a, Relation.ReflTransGen.refl, hend, rfl⟩
      · rintro ⟨b, hrounds, -, rfl⟩
        rcases hrounds.cases_head with rfl | ⟨c, hac, -⟩
        · exact ⟨s, hrun⟩
        · exact absurd hend hac.goesOn
    · rw [parseOpts_goesOn hend]
      constructor
      · rintro ⟨s, hrun⟩
        obtain ⟨x, s', hfirst, hrest⟩ := bind_eq_ok.mp hrun
        obtain ⟨c, hac, rfl, rfl⟩ := exists_optRound hend hfirst
        have hlt := hac.length_lt
        obtain ⟨b, hrounds, hb⟩ := (ih (by omega)).mp ⟨s, hrest⟩
        exact ⟨b, hrounds.head hac, hb⟩
      · rintro ⟨b, hrounds, hb⟩
        rcases hrounds.cases_head with rfl | ⟨c, hac, hrest⟩
        · exact absurd hb.1 hend
        · have hlt := hac.length_lt
          rw [bind_ok hac.parse]
          exact (ih (by omega)).mpr ⟨b, hrest, hb⟩

/-- An area is parsed exactly when the rounds lead to its end or to the end of the list. -/
theorem parseOpts_eq_ok_iff (h : TCP) (area : List UInt8) (g : TCP) :
    (∃ s, parseOpts area.length h (ReadStream.ofBuffer area) = .ok g s) ↔
      ∃ b, OptVisits h area b ∧ b.AtEnd ∧ b.header = g := by
  rw [ReadStream.ofBuffer_eq]
  exact @parseOpts_run area.length ⟨h, [], area⟩ le_rfl g

/-! ### Declared lengths -/

/-- The length byte of the option that comes first agrees with what the option has. -/
def LengthFits (bs : List UInt8) : Prop :=
  match typeAt bs with
  | .mpDss =>
    (lengthAt bs).toNat = TcpMpDssOpt.sizeOfFlags (dssFlagsAt bs) ∨
      (lengthAt bs).toNat = TcpMpDssOpt.sizeOfFlags (dssFlagsAt bs) + 2
  | .mpAddAddr =>
    addAddrMiddle (lengthAt bs) (addAddrFlagsAt bs) = 4 ∨
      addAddrMiddle (lengthAt bs) (addAddrFlagsAt bs) = 6 ∨
      addAddrMiddle (lengthAt bs) (addAddrFlagsAt bs) = 16 ∨
      addAddrMiddle (lengthAt bs) (addAddrFlagsAt bs) = 18
  | .other => 2 ≤ (lengthAt bs).toNat
  | _ => True

/-- From option to option by their length bytes, up to the end of the list, all of these agree
with the options. -/
inductive LengthsFit : List UInt8 → Prop
  | nil : LengthsFit []
  | endOfList (rest : List UInt8) : LengthsFit (TcpOptKind.endOfList :: rest)
  | noOp {rest : List UInt8} (hrest : LengthsFit rest) : LengthsFit (TcpOptKind.noOp :: rest)
  | option {kind : UInt8} {rest : List UInt8} (hend : kind ≠ TcpOptKind.endOfList)
      (hnoOp : kind ≠ TcpOptKind.noOp) (hfits : LengthFits (kind :: rest))
      (hrest : LengthsFit ((kind :: rest).drop (lengthAt (kind :: rest)).toNat)) :
      LengthsFit (kind :: rest)

/-- The option between two rounds is as long as its length byte says, which is at least two,
and these bytes alone decide what is stored. -/
def Declared (a b : OptHead) : Prop :=
  ∃ bs, a.post = bs ++ b.post ∧ 2 ≤ bs.length ∧ bs.length = (lengthAt bs).toNat ∧
    ∃ o : TcpOption, ∀ (x : TCP) (pre post : List UInt8),
      x.parseOption a.kind (cursor pre (bs ++ post)) = .ok (o.store x) (cursor (pre ++ bs) post)

/-- Every option but the no-op option is consumed by its length byte, and what follows the end
of the list does not matter. -/
structure ParsedAsDeclared (h : TCP) (area : List UInt8) : Prop where
  declared : ∀ a b, OptVisits h area a → OptRound a b → a.kind ≠ TcpOptKind.noOp → Declared a b
  stops : ∀ a rest, OptVisits h area a → a.post = TcpOptKind.endOfList :: rest →
    ∀ rest', ∃ s, parseOpts (a.pre ++ TcpOptKind.endOfList :: rest').length h
      (ReadStream.ofBuffer (a.pre ++ TcpOptKind.endOfList :: rest')) = .ok a.header s

theorem two_le_size {o : TcpOption} (h : o.type ≠ .other) : 2 ≤ o.size := by
  cases o with
  | noOp => exact absurd rfl h
  | sack o =>
    rw [TcpOption.size, TcpSAckOpt.size]
    omega
  | mpCapable o =>
    rw [TcpOption.size, TcpMpCapableOpt.size, TcpMpCapableMask.size]
    split_ifs <;> omega
  | mpJoin o => cases o <;> exact Nat.le_of_ble_eq_true rfl
  | mpDss o =>
    rw [TcpOption.size, TcpMpDssOpt.size, TcpMpDssOpt.sizeOfFlags]
    split_ifs <;> omega
  | mpAddAddr o =>
    rw [TcpOption.size, TcpMpAddAddrOpt.size]
    split_ifs <;> omega
  | mpRemAddr o =>
    rw [TcpOption.size, TcpMpRemAddrOpt.size]
    omega
  | _ => exact Nat.le_of_ble_eq_true rfl

section Chunks

variable {kind : UInt8} {bs : List UInt8} {f : TCP → TCP}

theorem Chunk.taken_eq (h : Chunk kind bs f) (hkind : bs.headD 0 = kind) (rest : List UInt8) :
    taken (bs ++ rest) = bs.length := by
  cases h.stores with
  | known hstores =>
    obtain ⟨o, -, hoccupies, -⟩ := hstores
    exact hoccupies.taken_eq rest
  | skipped hf hlen => exact (hlen rest hkind).2

/-- Only the no-op option is a single byte. -/
theorem Chunk.two_le (h : Chunk kind bs f) (hkind : bs.headD 0 = kind)
    (hnoOp : kind ≠ TcpOptKind.noOp) : 2 ≤ bs.length := by
  cases h.stores with
  | known hstores =>
    obtain ⟨o, -, hoccupies, htype⟩ := hstores
    rw [← hoccupies.size_eq htype]
    exact two_le_size htype
  | skipped hf hlen =>
    obtain ⟨htype, htaken⟩ := hlen [] hkind
    rw [List.append_nil] at htype htaken
    rw [← htaken, taken, htype]
    show 2 ≤ if bs.headD 0 = TcpOptKind.noOp then 1 else max (lengthAt bs).toNat 2
    rw [if_neg (hkind ▸ hnoOp)]
    omega

theorem lengthAt_append {xs : List UInt8} (h : 2 ≤ xs.length) (rest : List UInt8) :
    lengthAt (xs ++ rest) = lengthAt xs := by
  rw [lengthAt, lengthAt, List.getD_eq_getElem?_getD, List.getD_eq_getElem?_getD,
    List.getElem?_append_left (by omega)]

/-- As many bytes are taken as the length byte says exactly when it agrees with the option. -/
theorem taken_eq_lengthAt_iff {post : List UInt8} (hnoOp : post.headD 0 ≠ TcpOptKind.noOp) :
    taken post = (lengthAt post).toNat ↔ LengthFits post := by
  rw [taken, LengthFits]
  cases typeAt post with
  | mpDss =>
    show _ + (if ((lengthAt post).toNat : ℤ) - TcpMpDssOpt.sizeOfFlags (dssFlagsAt post) ≥ 2
      then 2 else 0) = _ ↔ _
    split_ifs <;> omega
  | mpAddAddr =>
    simp only [addAddrMiddle, Bool.or_eq_true]
    split_ifs <;> simp_all <;> omega
  | other =>
    show (if post.headD 0 = TcpOptKind.noOp then 1 else max (lengthAt post).toNat 2) = _ ↔ _
    rw [if_neg hnoOp]
    omega
  | _ => exact iff_of_true rfl trivial

theorem Chunk.length_eq_iff (h : Chunk kind bs f) (hkind : bs.headD 0 = kind)
    (hnoOp : kind ≠ TcpOptKind.noOp) (rest : List UInt8) :
    bs.length = (lengthAt bs).toNat ↔ LengthFits (bs ++ rest) := by
  rw [← lengthAt_append (h.two_le hkind hnoOp) rest, ← h.taken_eq hkind rest]
  refine taken_eq_lengthAt_iff ?_
  rw [kind_append h.nonempty, hkind]
  exact hnoOp

end Chunks

/-- The option of a round is consumed by its length byte exactly when that agrees with it. -/
theorem OptRound.declared_iff {a b : OptHead} (h : OptRound a b)
    (hnoOp : a.kind ≠ TcpOptKind.noOp) : Declared a b ↔ LengthFits a.post := by
  obtain ⟨bs, f, hpost, hpre, hf, hchunk⟩ := h.exists_chunk
  have hkind : bs.headD 0 = a.kind := by
    rw [OptHead.kind, hpost, kind_append hchunk.nonempty]
  rw [hpost, ← hchunk.length_eq_iff hkind hnoOp]
  constructor
  · rintro ⟨bs', hpost', -, hlen, -⟩
    rw [hpost] at hpost'
    rwa [List.append_cancel_right hpost']
  · intro hlen
    refine ⟨bs, hpost, hchunk.two_le hkind hnoOp, hlen, ?_⟩
    cases hchunk.stores with
    | known hstores =>
      obtain ⟨o, rfl, -⟩ := hstores
      exact ⟨o, hchunk.reads⟩
    | skipped hid _ =>
      subst hid
      exact ⟨.noOp, hchunk.reads⟩

/-! ### Areas whose length bytes fit -/

/-- A no-op option is a byte. -/
theorem OptRound.post_of_noOp {a b : OptHead} (h : OptRound a b)
    (hnoOp : a.kind = TcpOptKind.noOp) : a.post = TcpOptKind.noOp :: b.post := by
  obtain ⟨bs, f, hpost, hpre, hf, hchunk⟩ := h.exists_chunk
  have hkind : bs.headD 0 = a.kind := by
    rw [OptHead.kind, hpost, kind_append hchunk.nonempty]
  have htaken := hchunk.taken_eq hkind []
  have hone : taken (bs ++ []) = 1 := by
    rw [List.append_nil, taken, typeAt, hkind, hnoOp]
    exact if_pos rfl
  obtain ⟨c, rfl⟩ := List.length_eq_one_iff.mp (htaken.symm.trans hone)
  obtain rfl : c = TcpOptKind.noOp := hkind.trans hnoOp
  exact hpost

/-- A declared option ends where its length byte says. -/
theorem Declared.post_eq {a b : OptHead} (h : Declared a b) :
    b.post = a.post.drop (lengthAt a.post).toNat := by
  obtain ⟨bs, hpost, htwo, hlen, -⟩ := h
  rw [hpost, lengthAt_append htwo, ← hlen, List.drop_left]

/-- The option that comes next, and those behind it. -/
theorem LengthsFit.of_goesOn {a : OptHead} (h : LengthsFit a.post) (hend : ¬a.AtEnd)
    (hnoOp : a.kind ≠ TcpOptKind.noOp) :
    LengthFits a.post ∧ LengthsFit (a.post.drop (lengthAt a.post).toNat) := by
  have hne := OptHead.kind_ne hend
  obtain ⟨header, pre, post⟩ := a
  cases h with
  | nil => exact absurd (.inl rfl) hend
  | endOfList rest => exact absurd rfl hne
  | noOp hrest => exact absurd rfl hnoOp
  | option _ _ hfits hrest => exact ⟨hfits, hrest⟩

theorem LengthsFit.next {a b : OptHead} (hfit : LengthsFit a.post) (h : OptRound a b) :
    LengthsFit b.post := by
  by_cases hnoOp : a.kind = TcpOptKind.noOp
  · rw [h.post_of_noOp hnoOp] at hfit
    cases hfit with
    | noOp hrest => exact hrest
    | option hend hno hfits hrest => exact absurd rfl hno
  · obtain ⟨hfits, hrest⟩ := hfit.of_goesOn h.goesOn hnoOp
    rwa [((h.declared_iff hnoOp).mpr hfits).post_eq]

theorem OptVisits.lengthsFit {h : TCP} {area : List UInt8} (hfit : LengthsFit area) {a : OptHead}
    (hv : OptVisits h area a) : LengthsFit a.post := by
  induction hv with
  | refl => exact hfit
  | tail hb hbc ih => exact ih.next hbc

theorem parsedAsDeclared_of_lengthsFit {h : TCP} {area : List UInt8} (hfit : LengthsFit area) :
    ParsedAsDeclared h area := by
  refine ⟨fun a b hv hab hnoOp => ?_, fun a rest hv hpost rest' => ?_⟩
  · have hpost := hv.lengthsFit hfit
    exact (hab.declared_iff hnoOp).mpr (hpost.of_goesOn hab.goesOn hnoOp).1
  · exact (parseOpts_eq_ok_iff h _ _).mpr ⟨_, hv.replace _, .inr ⟨rest', rfl⟩, rfl⟩

/-- Options that were consumed by their length bytes, up to where the loop ended. -/
theorem ParsedAsDeclared.lengthsFit_of_rounds {h : TCP} {area : List UInt8}
    (hdecl : ParsedAsDeclared h area) {a b : OptHead} (hrounds : Relation.ReflTransGen OptRound a b)
    (hend : b.AtEnd) : OptVisits h area a → LengthsFit a.post := by
  induction hrounds using Relation.ReflTransGen.head_induction_on with
  | refl =>
    intro _
    obtain hnil | ⟨rest, hpost⟩ := hend
    · rw [hnil]
      exact .nil
    · rw [hpost]
      exact .endOfList rest
  | @head a c hac hcb ih =>
    intro hv
    have hrest := ih (hv.tail hac)
    by_cases hnoOp : a.kind = TcpOptKind.noOp
    · rw [hac.post_of_noOp hnoOp]
      exact .noOp hrest
    · have hd := hdecl.declared a c hv hac hnoOp
      have hne := OptHead.kind_ne hac.goesOn
      have hgoes := hac.goesOn
      have hfits := (hac.declared_iff hnoOp).mp hd
      rw [hd.post_eq] at hrest
      obtain ⟨header, pre, post⟩ := a
      cases post with
      | nil => exact absurd (.inl rfl) hgoes
      | cons kind rest => exact .option hne hnoOp hfits hrest

theorem ParsedAsDeclared.lengthsFit {h g : TCP} {area : List UInt8} {s : ReadStream}
    (hparse : parseOpts area.length h (ReadStream.ofBuffer area) = .ok g s)
    (hdecl : ParsedAsDeclared h area) : LengthsFit area := by
  obtain ⟨b, hrounds, hend, -⟩ := (parseOpts_eq_ok_iff h area g).mp ⟨s, hparse⟩
  exact hdecl.lengthsFit_of_rounds hrounds hend Relation.ReflTransGen.refl

/-- In an area that is parsed each option is consumed by its length byte exactly when these
agree with the options. -/
theorem parsedAsDeclared_iff {h g : TCP} {area : List UInt8} {s : ReadStream}
    (hparse : parseOpts area.length h (ReadStream.ofBuffer area) = .ok g s) :
    ParsedAsDeclared h area ↔ LengthsFit area :=
  ⟨fun hdecl => hdecl.lengthsFit hparse, parsedAsDeclared_of_lengthsFit⟩

/-- A no-op option, a window scale of 7 and the end of the list, with a byte behind it. -/
def plainArea : List UInt8 := [1, 3, 3, 7, 0, 9]

theorem parsedAsDeclared_iff_plainArea : ParsedAsDeclared {} plainArea ↔ LengthsFit plainArea :=
  parsedAsDeclared_iff (g := withWs {} ⟨7⟩) (s := cursor [1, 3, 3, 7, 0] [9]) rfl

/-- A DSS option of four bytes by its length byte, with an acknowledgement of four bytes by its
flags: the no-op options behind it are taken for the acknowledgement. -/
def dssArea : List UInt8 := [30, 4, 0x20, 0x01, 1, 1, 1, 1]

theorem not_forall_parsedAsDeclared :
    ¬ ∀ (h g : TCP) (area : List UInt8) (s : ReadStream),
      parseOpts area.length h (ReadStream.ofBuffer area) = .ok g s → ParsedAsDeclared h area := by
  intro hall
  have hrun : ∃ g s, parseOpts dssArea.length {} (ReadStream.ofBuffer dssArea) = .ok g s :=
    ⟨withMpDss {} ⟨1, 0x01010101, 0, 0, 0, none⟩, cursor dssArea [], rfl⟩
  obtain ⟨g, s, hparse⟩ := hrun
  have hfit := (hall _ _ _ _ hparse).lengthsFit hparse
  have hlen : ¬LengthFits dssArea := by
    show ¬(_ = _ ∨ _ = _)
    decide
  cases hfit with
  | option hend hnoOp hfits hrest => exact hlen hfits

end TCP

end Scion
