/-
The expiry of a raw path (`RawPath::expiry` in `src/path/path.cpp`).

A hop field expires a number of seconds after the timestamp of its segment, and
the path expires with the first of its hop fields. The loop attributes the hop
fields to the right segments, but adds timestamp and seconds in 32 bits.

* `DecodedScionPath.Expires` — the times the hop fields of a path expire at;
* `RawPathContents.hopExpiry_records` — the loop takes the minimum of the sums
  modulo `2 ^ 32`;
* `RawPathContents.expiry_isLeast_iff` — it is the minimum of the sums unless a
  sum that wraps around is the smallest afterwards.
-/
import Scion.RawPathEquality

namespace Scion

open BigEndian Codec Records

namespace PathMeta

/-- `segmentBegin`: the index of the first hop field of a segment, or of the one
behind the last hop field. -/
def segmentBegin (m : PathMeta) : ℕ → ℕ
  | 0 => 0
  | 1 => m.seg0.toNat
  | 2 => m.seg0.toNat + m.seg1.toNat
  | _ => m.hopFieldCount

/-- The segment `expiry` takes the hop field with index `i` to be part of. -/
def segmentOf (m : PathMeta) (i : ℕ) : ℕ :=
  if i < m.seg0.toNat then 0 else if i < m.seg0.toNat + m.seg1.toNat then 1 else 2

/-- The hop field is between the beginnings of its segment and the next. -/
theorem segmentOf_eq_iff {m : PathMeta} {i k : ℕ} (hi : i < m.hopFieldCount) :
    m.segmentOf i = k ↔ m.segmentBegin k ≤ i ∧ i < m.segmentBegin (k + 1) := by
  rw [hopFieldCount] at hi
  rw [segmentOf]
  by_cases hk : k < 3
  · interval_cases k <;> simp only [segmentBegin, hopFieldCount] <;> split_ifs <;> simp <;> omega
  · obtain ⟨k, rfl⟩ := Nat.exists_eq_add_of_le' (not_lt.mp hk)
    simp only [segmentBegin, hopFieldCount]
    split_ifs <;> simp

/-- Every hop field of a valid meta header has an info field. -/
theorem Valid.segmentOf_lt {m : PathMeta} (h : m.Valid) {i : ℕ} (hi : i < m.hopFieldCount) :
    m.segmentOf i < m.segmentCount := by
  rw [hopFieldCount] at hi
  rw [segmentOf]
  rcases h.segments with ⟨hcount, h0, h1, h2⟩ | ⟨hcount, h0, h1, h2⟩ | ⟨hcount, h0, h1, h2⟩ <;>
    rw [hcount] <;> split_ifs <;> omega

end PathMeta

namespace DecodedScionPath

/-- A hop field of a segment of the path expires at this time, in seconds. -/
def Expires (p : DecodedScionPath) (time : ℕ) : Prop :=
  ∃ k i info hop, p.metaHeader.segmentBegin k ≤ i ∧ i < p.metaHeader.segmentBegin (k + 1) ∧
    p.ifs[k]? = some info ∧ p.hfs[i]? = some hop ∧
    time = info.timestamp.toNat + (1 + hop.expTime.toNat) * 86400 / 256

end DecodedScionPath

theorem HopField.toNat_relativeExpiry (hop : HopField) :
    hop.relativeExpiry.toNat = (1 + hop.expTime.toNat) * 86400 / 256 := by
  have hexp := hop.expTime.toNat_lt
  rw [relativeExpiry, UInt32.toNat_ofNat', mul_assoc, mul_assoc,
    show 24 * (60 * 60) = 86400 from rfl]
  omega

/-! ### Minima -/

/-- Folding with `min` ends with a bound that is one of the values. -/
theorem foldl_min_spec {α : Type} (f : α → ℤ) (xs : List α) (a : ℤ) :
    (xs.foldl (fun e x => min e (f x)) a = a ∨
        ∃ x ∈ xs, xs.foldl (fun e x => min e (f x)) a = f x) ∧
      xs.foldl (fun e x => min e (f x)) a ≤ a ∧
      ∀ x ∈ xs, xs.foldl (fun e x => min e (f x)) a ≤ f x := by
  induction xs generalizing a with
  | nil => exact ⟨.inl rfl, le_refl a, fun x hx => absurd hx List.not_mem_nil⟩
  | cons y xs ih =>
    obtain ⟨hvalue, hstart, hbound⟩ := ih (min a (f y))
    rw [List.foldl_cons]
    refine ⟨?_, hstart.trans (min_le_left _ _), ?_⟩
    · rcases hvalue with hsame | ⟨x, hx, hvalue⟩
      · rcases min_choice a (f y) with hmin | hmin
        · exact .inl (hsame.trans hmin)
        · exact .inr ⟨y, List.mem_cons_self, hsame.trans hmin⟩
      · exact .inr ⟨x, List.mem_cons_of_mem _ hx, hvalue⟩
    · intro x hx
      rcases List.mem_cons.mp hx with rfl | hx
      · exact hstart.trans (min_le_right _ _)
      · exact hbound x hx

/-- The least value is that of the reduced ones, unless one that was reduced
came out below all the others. -/
theorem isLeast_mod_iff {S : Set ℕ} {n w : ℕ} (hlt : ∀ e ∈ S, e < 2 * n)
    (hw : IsLeast ((· % n) '' S) w) :
    IsLeast S w ↔ ∀ e ∈ S, n ≤ e → ∃ e' ∈ S, e' + n ≤ e := by
  have hreduced : ∀ e ∈ S, n ≤ e → e % n = e - n := by
    intro e he hn
    rw [Nat.mod_eq_sub_mod hn, Nat.mod_eq_of_lt (by have := hlt e he; omega)]
  constructor
  · intro hleast e he hn
    have hbelow := hw.2 ⟨e, he, hreduced e he hn⟩
    exact ⟨w, hleast.1, by omega⟩
  · intro hall
    -- the smallest time does not wrap around
    have hne : ∃ e, e ∈ S := hw.1.imp fun _ h => h.1
    classical
    set least := Nat.find hne with hleast
    have hmem : least ∈ S := Nat.find_spec hne
    have hmin : ∀ e ∈ S, least ≤ e := fun e he => Nat.find_min' hne he
    have hsmall : least < n := by
      by_contra hn
      obtain ⟨e', he', hle⟩ := hall least hmem (by omega)
      have := hmin e' he'
      have := hlt least hmem
      omega
    have hle : w ≤ least := hw.2 ⟨least, hmem, Nat.mod_eq_of_lt hsmall⟩
    obtain ⟨e, he, hew⟩ := hw.1
    have hge : least ≤ w := by
      by_cases hn : n ≤ e
      · obtain ⟨e', he', hle'⟩ := hall e he hn
        have := hmin e' he'
        have := hreduced e he hn
        simp only at hew
        omega
      · simp only [Nat.mod_eq_of_lt (not_le.mp hn)] at hew
        exact hew ▸ hmin e he
    rw [le_antisymm hle hge]
    exact ⟨hmem, fun e he => hmin e he⟩

namespace RawPathContents

/-! ### The loop -/

/-- The time `expiry` computes for a hop field, in 32 bits. -/
def hopSeconds (m : PathMeta) (ifs : List InfoField) (hop : HopField × ℕ) : UInt32 :=
  ((ifs[m.segmentOf hop.2]?).map InfoField.timestamp).getD 0 + hop.1.relativeExpiry

/-- The hop fields are records of which the loop takes the minimum. -/
theorem hopExpiry_records (m : PathMeta) (ifs : List InfoField) {hcs : List (List UInt8)}
    (h : ∀ c ∈ hcs, c.length = 12) (pre post : List UInt8) (i : ℕ) (expiry : ℤ) :
    hopExpiry m ifs hcs.length i (ReadStream.cursor pre (hcs.flatten ++ post)) expiry
      = ((hcs.map HopField.ofBytes).zipIdx i).foldl
        (fun e hop => min e (ticks (hopSeconds m ifs hop))) expiry := by
  induction hcs generalizing pre i expiry with
  | nil => rfl
  | cons c hcs ih =>
    have hread := HopField.reads c (h c List.mem_cons_self) pre
    rw [List.length_cons, List.flatten_cons, List.append_assoc, hopExpiry, hread]
    exact ih (fun d hd => h d (List.mem_cons_of_mem _ hd)) _ _ _

/-- The times computed are those of the path modulo `2 ^ 32`. -/
theorem exists_hopSeconds_iff (source destination : IsdAsn) {buffer mb : List UInt8}
    {ics hcs : List (List UInt8)} (hlayout : DecodedScionPath.Layout buffer mb ics hcs) (w : ℕ) :
    (∃ hop ∈ (hcs.map HopField.ofBytes).zipIdx,
        (hopSeconds (PathMeta.ofBytes mb) (ics.map InfoField.ofBytes) hop).toNat = w) ↔
      w ∈ (· % 2 ^ 32) ''
        {e | (DecodedScionPath.ofLayout source destination mb ics hcs).Expires e} := by
  have hvalue : ∀ i info hop,
      (ics.map InfoField.ofBytes)[(PathMeta.ofBytes mb).segmentOf i]? = some info →
      (hopSeconds (PathMeta.ofBytes mb) (ics.map InfoField.ofBytes) (hop, i)).toNat
        = (info.timestamp.toNat + (1 + hop.expTime.toNat) * 86400 / 256) % 2 ^ 32 := by
    intro i info hop hinfo
    rw [hopSeconds, hinfo, Option.map_some, Option.getD_some, UInt32.toNat_add,
      HopField.toNat_relativeExpiry]
  have hindex : ∀ {i : ℕ} {hop : HopField}, (hcs.map HopField.ofBytes)[i]? = some hop →
      i < (PathMeta.ofBytes mb).hopFieldCount := by
    intro i hop hi
    obtain ⟨hlt, -⟩ := List.getElem?_eq_some_iff.mp hi
    rwa [List.length_map, hlayout.length_hops] at hlt
  constructor
  · rintro ⟨⟨hop, i⟩, hmem, rfl⟩
    have hhop := List.mem_zipIdx_iff_getElem?.mp hmem
    have hi := hindex hhop
    have hk : (PathMeta.ofBytes mb).segmentOf i < (ics.map InfoField.ofBytes).length := by
      rw [List.length_map, hlayout.length_infos]
      exact hlayout.valid.segmentOf_lt hi
    obtain ⟨hbegin, hend⟩ := (PathMeta.segmentOf_eq_iff hi).mp rfl
    have hinfo := List.getElem?_eq_getElem hk
    exact ⟨_, ⟨_, i, _, hop, hbegin, hend, hinfo, hhop, rfl⟩, (hvalue i _ hop hinfo).symm⟩
  · rintro ⟨_, ⟨k, i, info, hop, hbegin, hend, hinfo, hhop, rfl⟩, rfl⟩
    refine ⟨(hop, i), List.mem_zipIdx_iff_getElem?.mpr hhop, hvalue i info hop ?_⟩
    rw [(PathMeta.segmentOf_eq_iff (hindex hhop)).mpr ⟨hbegin, hend⟩]
    exact hinfo

/-- The expiry of a complete path is the smallest of the sums modulo `2 ^ 32`. -/
theorem exists_isLeast_expiry {source destination : IsdAsn} {s : RawPathContents}
    {p : DecodedScionPath} (htype : s.type = PathType.scion)
    (hdec : DecodedScionPath.decode source destination s.encoded = some p) :
    ∃ w : ℕ, IsLeast ((· % 2 ^ 32) '' {e | p.Expires e}) w ∧ s.expiry = (w : ℤ) * 10 ^ 9 := by
  obtain ⟨mb, ics, hcs, hlayout, rfl⟩ := DecodedScionPath.exists_layout hdec
  have hpath : s.path
      = mb ++ (ics.flatten ++ (hcs.flatten ++ s.path.drop s.size)) := by
    rw [← List.append_assoc ics.flatten, ← List.append_assoc, ← hlayout.buffer_eq]
    exact (List.take_append_drop ..).symm
  have hexpiry := expiry_of_fields htype hlayout.length_meta hlayout.valid hlayout.length_infos
    hlayout.length_hops hlayout.info_size hpath
  rw [hopExpiry_records _ _ hlayout.hop_size] at hexpiry
  set m := PathMeta.ofBytes mb
  set ifs := ics.map InfoField.ofBytes
  obtain ⟨hvalue, -, hbound⟩ := foldl_min_spec (fun hop => ticks (hopSeconds m ifs hop))
    ((hcs.map HopField.ofBytes).zipIdx) Path.maxExpiry
  rw [← hexpiry] at hvalue hbound
  have hmem := exists_hopSeconds_iff source destination hlayout
  -- there is a hop field, and its time is below the maximum
  have hsome : ∃ hop ∈ (hcs.map HopField.ofBytes).zipIdx, s.expiry = ticks (hopSeconds m ifs hop) := by
    rcases hvalue with hmax | hvalue
    · obtain ⟨first, hfirst⟩ := List.exists_mem_of_length_pos
        (l := (hcs.map HopField.ofBytes).zipIdx) (by
          rw [List.length_zipIdx, List.length_map, hlayout.length_hops]
          exact Nat.zero_lt_of_lt hlayout.valid.2.2)
      have hle := hbound first hfirst
      have hlt := (hopSeconds m ifs first).toNat_lt
      rw [hmax, ticks, Path.maxExpiry] at hle
      omega
    · exact hvalue
  obtain ⟨hop, hhop, hvalue⟩ := hsome
  refine ⟨(hopSeconds m ifs hop).toNat, ⟨(hmem _).mp ⟨hop, hhop, rfl⟩, ?_⟩, hvalue⟩
  intro w hw
  obtain ⟨other, hother, rfl⟩ := (hmem w).mpr hw
  have hle := hbound other hother
  rw [hvalue, ticks, ticks] at hle
  exact_mod_cast le_of_mul_le_mul_right hle (by norm_num)


/-- The path expires with the first of its hop fields unless one that expires
after `2 ^ 32` seconds seems to be the first; none of those may be less than
`2 ^ 32` seconds behind the others. -/
theorem expiry_isLeast_iff {source destination : IsdAsn} {s : RawPathContents}
    {p : DecodedScionPath} (htype : s.type = PathType.scion)
    (hdec : DecodedScionPath.decode source destination s.encoded = some p) :
    (∃ time : ℕ, IsLeast {e | p.Expires e} time ∧ s.expiry = (time : ℤ) * 10 ^ 9) ↔
      ∀ e, p.Expires e → 2 ^ 32 ≤ e → ∃ e', p.Expires e' ∧ e' + 2 ^ 32 ≤ e := by
  obtain ⟨w, hw, hexpiry⟩ := exists_isLeast_expiry htype hdec
  have hlt : ∀ e ∈ {e | p.Expires e}, e < 2 * 2 ^ 32 := by
    rintro _ ⟨k, i, info, hop, -, -, -, -, rfl⟩
    have hstamp := info.timestamp.toNat_lt
    have hexp := hop.expTime.toNat_lt
    omega
  have hiff := isLeast_mod_iff hlt hw
  constructor
  · rintro ⟨time, hleast, htime⟩
    have hsame : w = time := by
      rw [hexpiry] at htime
      exact_mod_cast mul_right_cancel₀ (by norm_num) htime
    exact hiff.mp (hsame ▸ hleast)
  · intro hall
    exact ⟨w, hiff.mpr hall, hexpiry⟩

/-- A path of one segment from `timestamp` on, with two hop fields that expire
after 337 seconds and after a day. -/
def dayPath (timestamp : UInt32) : DecodedScionPath where
  source := IsdAsn.make 1 1
  destination := IsdAsn.make 1 2
  metaHeader := ⟨0, 0, 2, 0, 0⟩
  ifs := [⟨1, 0x1234, timestamp⟩]
  hfs := [⟨0, 0, 0, 3, exampleMac⟩, ⟨0, 255, 4, 0, exampleMac'⟩]

theorem encoded_dayPath (timestamp : UInt32) :
    (empty.encode (dayPath timestamp)).encoded = (dayPath timestamp).bytes :=
  encoded_of_fits List.length_replicate (by decide : (dayPath 0).Consistent)
    (by decide : (dayPath 0).size ≤ maxSize)

/-- The path that starts in 2020 expires with its first hop field. -/
theorem expiry_isLeast_iff_dayPath :
    (∃ time : ℕ, IsLeast {e | (dayPath 0x5e0be100).Expires e} time ∧
        (empty.encode (dayPath 0x5e0be100)).expiry = (time : ℤ) * 10 ^ 9) ↔
      ∀ e, (dayPath 0x5e0be100).Expires e → 2 ^ 32 ≤ e →
        ∃ e', (dayPath 0x5e0be100).Expires e' ∧ e' + 2 ^ 32 ≤ e :=
  @expiry_isLeast_iff (IsdAsn.make 1 1) (IsdAsn.make 1 2) _ _ rfl
    (by rw [encoded_dayPath]; decide)

/-- A thousand seconds before the timestamps wrap around, the hop field that
expires a day later is taken to have expired in 1970. -/
theorem not_forall_expiry_isLeast :
    ¬ ∀ (source destination : IsdAsn) (s : RawPathContents) (p : DecodedScionPath),
      s.type = PathType.scion → DecodedScionPath.decode source destination s.encoded = some p →
      ∃ time : ℕ, IsLeast {e | p.Expires e} time ∧ s.expiry = (time : ℤ) * 10 ^ 9 := by
  intro h
  have hdec : DecodedScionPath.decode (IsdAsn.make 1 1) (IsdAsn.make 1 2)
      (empty.encode (dayPath 4294966296)).encoded = some (dayPath 4294966296) := by
    rw [encoded_dayPath]
    decide
  obtain ⟨time, hleast, htime⟩ := h _ _ _ _ rfl hdec
  obtain ⟨w, hw, hexpiry⟩ := exists_isLeast_expiry rfl hdec
  have hsame : w = time := by
    rw [hexpiry] at htime
    exact_mod_cast mul_right_cancel₀ (by norm_num) htime
  -- the second hop field seems to expire first
  have hday : w ≤ 85400 :=
    hw.2 ⟨4294966296 + 86400, ⟨0, 1, _, _, by decide, by decide, rfl, rfl, by decide⟩, by decide⟩
  -- but the segment has not even started
  obtain ⟨k, i, info, hop, -, -, hinfo, -, hexpires⟩ := hleast.1
  obtain rfl : info = ⟨1, 0x1234, 4294966296⟩ :=
    List.mem_singleton.mp (List.mem_of_getElem? hinfo)
  have hstart : 4294966296 ≤ time := hexpires ▸ Nat.le_add_right _ _
  omega

end RawPathContents

end Scion
