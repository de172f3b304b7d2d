/-
Comparing raw paths (`path/raw.hpp`, `src/path/path.cpp`).

Two objects are equal when the addresses, the type and `encoded()` are. The hops
and the digest are taken from `encoded()` as well, but `expiry` parses the whole
array, which keeps the bytes of earlier and longer paths.

* `RawPathContents.expiry`, `equals`, `encodeReturning`;
* `RawPathContents.Complete` — the encoding has all the fields its meta header
  announces;
* `RawPath.agree_of_equals` — objects that were only given complete encodings
  and paths that fit are told apart by none of their methods.
-/
import Scion.PathDigest

namespace Scion

open BigEndian Codec Records

/-! ### Expiry -/

namespace HopField

/-- The expiration time in seconds relative to the info field's timestamp. -/
def relativeExpiry (hop : HopField) : UInt32 :=
  UInt32.ofNat ((1 + hop.expTime.toNat) * 24 * 60 * 60 / 256)

end HopField

/-- Ticks of the UTC clock in a number of seconds. -/
def ticks (seconds : UInt32) : ℤ := seconds.toNat * 10 ^ 9

namespace RawPathContents

/-- The loop of `expiry` over `n` more hop fields, the next of which has index `i`. -/
def hopExpiry (m : PathMeta) (ifs : List InfoField) : ℕ → ℕ → ReadStream → ℤ → ℤ
  | 0, _, _, expiry => expiry
  | n + 1, i, rs, expiry =>
    match HopField.read rs with
    | .error _ _ => expiry
    | .ok hop rs =>
      let k :=
        if i < m.seg0.toNat then 0 else if i < m.seg0.toNat + m.seg1.toNat then 1 else 2
      let timestamp := ((ifs[k]?).map InfoField.timestamp).getD 0
      hopExpiry m ifs n (i + 1) rs (min expiry (ticks (timestamp + hop.relativeExpiry)))

/-- `expiry()`; the fields are read from the buffer, whatever the size of the path. -/
def expiry (s : RawPathContents) : ℤ :=
  if s.type ≠ PathType.scion then Path.maxExpiry
  else
    match PathMeta.read (ReadStream.ofBuffer s.path) with
    | .error _ _ => Path.maxExpiry
    | .ok m rs =>
      match readN InfoField.read m.segmentCount rs with
      | .error _ _ => Path.maxExpiry
      | .ok ifs rs => hopExpiry m ifs m.hopFieldCount 0 rs Path.maxExpiry

/-! ### Comparison and encoding -/

/-- `operator==`. -/
def equals (s other : RawPathContents) : Bool :=
  s.source == other.source && s.destination == other.destination && s.type == other.type
    && s.encoded == other.encoded

/-- `path.serialize` on a stream over the array. -/
def serializes (p : DecodedScionPath) (s : RawPathContents) : Bool :=
  match p.write (WriteStream.ofBuffer s.path) with
  | .ok _ _ => true
  | .error _ _ => false

/-- `encode` with its result: the failure is propagated to the error object,
but not returned. -/
def encodeReturning (p : DecodedScionPath) (s : RawPathContents) : Bool × RawPathContents :=
  if s.serializes p then (true, s.encode p) else (true, s.encode p)

/-- `encode` tells whether the path was serialized, and a path that was is
encoded completely. -/
def EncodesExactly (p : DecodedScionPath) (s : RawPathContents) : Prop :=
  ((s.encodeReturning p).1 = true ↔ s.serializes p = true) ∧
    ((s.encodeReturning p).1 = true →
      (s.encodeReturning p).2.encoded = p.bytes ∧ (s.encodeReturning p).2.size = p.size)

/-! ### Complete encodings -/

/-- There are no bytes behind the encoding that `expiry` gets to see: either it
fills the array or it has all the fields its meta header announces. -/
def Complete (type : PathType) (bytes : List UInt8) : Prop :=
  type = PathType.scion → bytes.length = maxSize ∨
    4 ≤ bytes.length ∧ ((PathMeta.ofBytes (bytes.take 4)).Valid →
      4 + (PathMeta.ofBytes (bytes.take 4)).segmentCount * 8
        + (PathMeta.ofBytes (bytes.take 4)).hopFieldCount * 12 ≤ bytes.length)

/-- What lies behind the hop fields is not read. -/
theorem hopExpiry_append (m : PathMeta) (ifs : List InfoField) {hcs : List (List UInt8)}
    (h : ∀ c ∈ hcs, c.length = 12) (pre post post' : List UInt8) (i : ℕ) (expiry : ℤ) :
    hopExpiry m ifs hcs.length i (ReadStream.cursor pre (hcs.flatten ++ post)) expiry
      = hopExpiry m ifs hcs.length i (ReadStream.cursor pre (hcs.flatten ++ post')) expiry := by
  induction hcs generalizing pre i expiry with
  | nil => rfl
  | cons c hcs ih =>
    have hread := HopField.reads c (h c (List.mem_cons_self ..)) pre
    rw [List.length_cons, List.flatten_cons, List.append_assoc, List.append_assoc, hopExpiry,
      hopExpiry, hread, hread]
    exact ih (fun d hd => h d (List.mem_cons_of_mem _ hd)) _ _ _

/-- The meta header and the info fields are read, and the hop fields are left. -/
theorem expiry_of_fields {s : RawPathContents} (htype : s.type = PathType.scion)
    {mb rest : List UInt8} {ics hcs : List (List UInt8)} (hmb : mb.length = 4)
    (hvalid : (PathMeta.ofBytes mb).Valid)
    (hics : ics.length = (PathMeta.ofBytes mb).segmentCount)
    (hhcs : hcs.length = (PathMeta.ofBytes mb).hopFieldCount) (hics8 : ∀ c ∈ ics, c.length = 8)
    (hpath : s.path = mb ++ (ics.flatten ++ (hcs.flatten ++ rest))) :
    s.expiry = hopExpiry (PathMeta.ofBytes mb) (ics.map InfoField.ofBytes) hcs.length 0
      (ReadStream.cursor (mb ++ ics.flatten) (hcs.flatten ++ rest)) Path.maxExpiry := by
  rw [expiry, if_neg (not_not.mpr htype), hpath]
  generalize hcs.flatten ++ _ = hops
  have hread := PathMeta.reads hmb hvalid [] (ics.flatten ++ hops)
  have hreadInfos := Reads.readN ics (fun c hc => InfoField.reads c (hics8 c hc)) mb hops
  rw [hics] at hreadInfos
  rw [List.nil_append] at hread
  rw [ReadStream.ofBuffer_eq, hread, hhcs]
  simp only
  rw [hreadInfos]

/-- What lies behind all the fields is not read. -/
theorem expiry_eq_of_prefix {a b : RawPathContents} {bytes post post' : List UInt8}
    (hmeta : 4 ≤ bytes.length) (hfields : (PathMeta.ofBytes (bytes.take 4)).Valid →
      4 + (PathMeta.ofBytes (bytes.take 4)).segmentCount * 8
        + (PathMeta.ofBytes (bytes.take 4)).hopFieldCount * 12 ≤ bytes.length)
    (ha : a.type = PathType.scion) (hb : b.type = PathType.scion) (hpath : a.path = bytes ++ post)
    (hpath' : b.path = bytes ++ post') : a.expiry = b.expiry := by
  have hlen : (bytes.take 4).length = 4 := by
    rw [List.length_take]
    omega
  by_cases hvalid : (PathMeta.ofBytes (bytes.take 4)).Valid
  · have hmin := hfields hvalid
    set m := PathMeta.ofBytes (bytes.take 4)
    -- the fields are cut into records
    obtain ⟨ics, hics, hics8, hinfos⟩ := exists_records (w := 8) m.segmentCount
      ((bytes.drop 4).take (m.segmentCount * 8))
      (by rw [List.length_take, List.length_drop]; omega)
    obtain ⟨hcs, hhcs, hhcs12, hhops⟩ := exists_records (w := 12) m.hopFieldCount
      ((bytes.drop (4 + m.segmentCount * 8)).take (m.hopFieldCount * 12))
      (by rw [List.length_take, List.length_drop]; omega)
    have hbytes : ∀ t, bytes ++ t = bytes.take 4 ++ (ics.flatten ++ (hcs.flatten
        ++ (bytes.drop (4 + m.segmentCount * 8 + m.hopFieldCount * 12) ++ t))) := by
      intro t
      rw [← List.append_assoc hcs.flatten, hhops, ← List.drop_drop (i := m.hopFieldCount * 12),
        List.take_append_drop, ← List.append_assoc ics.flatten, hinfos, ← List.drop_drop,
        List.take_append_drop, ← List.append_assoc, List.take_append_drop]
    have hparse : ∀ (s : RawPathContents) t, s.type = PathType.scion → s.path = bytes ++ t →
        s.expiry = hopExpiry m (ics.map InfoField.ofBytes) hcs.length 0
          (ReadStream.cursor (bytes.take 4 ++ ics.flatten) (hcs.flatten
            ++ (bytes.drop (4 + m.segmentCount * 8 + m.hopFieldCount * 12) ++ t)))
          Path.maxExpiry := fun s t htype hs =>
      expiry_of_fields htype hlen hvalid hics hhcs hics8 (hs.trans (hbytes t))
    rw [hparse a post ha hpath, hparse b post' hb hpath', hopExpiry_append _ _ hhcs12]
  · -- the meta header is rejected
    have hreject : ∀ (s : RawPathContents) t, s.type = PathType.scion → s.path = bytes ++ t →
        s.expiry = Path.maxExpiry := by
      intro s t htype hs
      have hsplit : bytes ++ t = bytes.take 4 ++ (bytes.drop 4 ++ t) := by
        rw [← List.append_assoc, List.take_append_drop]
      rw [expiry, if_neg (not_not.mpr htype), hs, hsplit, ReadStream.ofBuffer_eq]
      cases hread : PathMeta.read (ReadStream.cursor [] (bytes.take 4 ++ (bytes.drop 4 ++ t))) with
      | error e rs => rfl
      | ok m rs =>
        obtain ⟨mb, rest, happ, hmb, rfl, hm, -⟩ := PathMeta.read_eq_ok hread
        rw [← (List.append_inj happ (hlen.trans hmb.symm)).1] at hm
        exact absurd hm hvalid
    rw [hreject a post ha hpath, hreject b post' hb hpath']

/-- What lies behind a complete encoding makes no difference. -/
theorem expiry_eq_of_encoded {a b : RawPathContents} (htype : a.type = b.type)
    (hsame : a.encoded = b.encoded) (hcomplete : Complete a.type a.encoded)
    (ha : a.path.length = maxSize) (hb : b.path.length = maxSize) : a.expiry = b.expiry := by
  by_cases hscion : a.type = PathType.scion
  · have hpath : a.path = a.encoded ++ a.path.drop a.size := (List.take_append_drop ..).symm
    have hpath' : b.path = a.encoded ++ b.path.drop b.size := by
      rw [hsame]
      exact (List.take_append_drop ..).symm
    rcases hcomplete hscion with hfull | ⟨hmeta, hfields⟩
    · -- nothing lies behind the encoding
      have hnil : ∀ {c : RawPathContents}, c.path.length = maxSize →
          c.path = a.encoded ++ c.path.drop c.size → c.path = a.encoded := by
        intro c hc hsplit
        have hlen := congrArg List.length hsplit
        rw [List.length_append, hc, hfull] at hlen
        rw [hsplit, List.length_eq_zero_iff.mp (by omega : (c.path.drop c.size).length = 0),
          List.append_nil]
      rw [expiry, expiry, ← htype, hnil ha hpath, hnil hb hpath']
    · exact expiry_eq_of_prefix hmeta hfields hscion (htype.symm.trans hscion) hpath hpath'
  · rw [expiry, expiry, ← htype, if_pos hscion, if_pos hscion]

/-! ### Reversal -/

/-- Only paths of the right length are reversed. -/
theorem reversePathInPlace_ok {path : List UInt8}
    (h : (reversePathInPlace PathType.scion path).1 = .ok) :
    let word := UInt32.ofNat (beNat (path.take 4))
    4 ≤ path.length ∧ 1 ≤ (metaNumInf word).toNat ∧
      (2 ≤ (metaNumHop word).toNat ∧ (metaNumHop word).toNat ≤ 64) ∧
      path.length = 4 + (metaNumInf word).toNat * 8 + (metaNumHop word).toNat * 12 := by
  have hslice : slice path 0 4 = path.take 4 := by rw [slice, List.drop_zero]
  rw [reversePathInPlace, if_neg (by decide), if_neg (by decide)] at h
  simp only [hslice] at h
  split_ifs at h with hshort hinf hhop hlen
  exact ⟨by omega, by omega, by omega, by omega⟩

/-! ### What operations keep -/

/-- The encoding lies in the array and is complete. -/
structure Sound (s : RawPathContents) : Prop where
  length_path : s.path.length = maxSize
  size_le : s.size ≤ maxSize
  complete : Complete s.type s.encoded

theorem sound_empty : Sound empty where
  length_path := List.length_replicate
  size_le := Nat.zero_le _
  complete := fun h => absurd h (by decide)

theorem sound_assign {source destination : IsdAsn} {type : PathType} {data : List UInt8}
    {s s' : RawPathContents} (hs : Sound s) (hdata : Complete type data)
    (h : s.assign source destination type data = .ok s') : Sound s' := by
  obtain ⟨hencoded, hsize, hle⟩ := encoded_of_assign h
  rw [assign, if_neg (by omega)] at h
  cases h
  exact ⟨(length_overwrite (by rw [hs.length_path]; omega)).trans hs.length_path, hle,
    hencoded.symm ▸ hdata⟩

/-- The meta header that is written announces no more fields than there are. -/
theorem announced_le (m : PathMeta) :
    (PathMeta.ofBytes m.bytes).segmentCount ≤ m.segmentCount ∧
      (PathMeta.ofBytes m.bytes).hopFieldCount ≤ m.hopFieldCount := by
  have hword : m.word < 256 ^ 4 := by
    rw [PathMeta.word]
    omega
  have hnum : beNat m.bytes = m.word := by
    rw [PathMeta.bytes, beNat_beBytes, Nat.mod_eq_of_lt hword]
  have h0 : (PathMeta.ofBytes m.bytes).seg0.toNat ≤ m.seg0.toNat := by
    show (UInt8.ofNat (beNat m.bytes / 2 ^ 12 % 2 ^ 6)).toNat ≤ _
    rw [hnum, UInt8.toNat_ofNat', PathMeta.word]
    omega
  have h1 : (PathMeta.ofBytes m.bytes).seg1.toNat ≤ m.seg1.toNat := by
    show (UInt8.ofNat (beNat m.bytes / 2 ^ 6 % 2 ^ 6)).toNat ≤ _
    rw [hnum, UInt8.toNat_ofNat', PathMeta.word]
    omega
  have h2 : (PathMeta.ofBytes m.bytes).seg2.toNat ≤ m.seg2.toNat := by
    show (UInt8.ofNat (beNat m.bytes % 2 ^ 6)).toNat ≤ _
    rw [hnum, UInt8.toNat_ofNat', PathMeta.word]
    omega
  constructor
  · have hpos : ∀ {x y : UInt8}, x.toNat ≤ y.toNat →
        (if x > 0 then 1 else 0) ≤ if y > 0 then 1 else 0 := by
      intro x y hxy
      by_cases hx : x > 0
      · rw [if_pos hx, if_pos (UInt8.lt_iff_toNat_lt.mpr
          (lt_of_lt_of_le (UInt8.lt_iff_toNat_lt.mp hx) hxy))]
      · rw [if_neg hx]
        exact Nat.zero_le _
    exact Nat.add_le_add (Nat.add_le_add (hpos h0) (hpos h1)) (hpos h2)
  · exact Nat.add_le_add (Nat.add_le_add h0 h1) h2

/-- A path that fits is written in front of what is left of the array. -/
theorem write_of_fits {p : DecodedScionPath} {s : RawPathContents} (hs : s.path.length = maxSize)
    (hp : p.Consistent) (hfits : p.size ≤ maxSize) :
    p.write (WriteStream.ofBuffer s.path)
      = .ok () (WriteStream.cursor p.bytes (s.path.drop p.size)) := by
  have hrun := (DecodedScionPath.writes hp [] s.path).1
    (by rw [DecodedScionPath.length_bytes, hs]; exact hfits)
  rwa [← DecodedScionPath.length_bytes]

theorem encode_of_fits {p : DecodedScionPath} {s : RawPathContents} (hs : s.path.length = maxSize)
    (hp : p.Consistent) (hfits : p.size ≤ maxSize) :
    s.encode p
      = ⟨p.source, p.destination, PathType.scion, p.size, p.bytes ++ s.path.drop p.size⟩ := by
  rw [encode, write_of_fits hs hp hfits, ← DecodedScionPath.length_bytes]
  rfl

theorem encoded_of_fits {p : DecodedScionPath} {s : RawPathContents} (hs : s.path.length = maxSize)
    (hp : p.Consistent) (hfits : p.size ≤ maxSize) : (s.encode p).encoded = p.bytes := by
  rw [encode_of_fits hs hp hfits]
  exact List.take_left' (DecodedScionPath.length_bytes p)

theorem complete_bytes {p : DecodedScionPath} (hp : p.Consistent) :
    Complete PathType.scion p.bytes := by
  intro _
  have hlen := DecodedScionPath.length_bytes p
  rw [DecodedScionPath.size, PathMeta.size, InfoField.staticSize, HopField.staticSize] at hlen
  have hmeta : p.bytes.take 4 = p.metaHeader.bytes :=
    List.take_left' (PathMeta.length_bytes _)
  have hlong : 4 ≤ p.bytes.length := by
    rw [hlen, add_assoc]
    exact Nat.le_add_right _ _
  obtain ⟨hinfos, hhops⟩ := announced_le p.metaHeader
  refine .inr ⟨hlong, fun _ => ?_⟩
  rw [hmeta, hlen, hp.1, hp.2]
  exact Nat.add_le_add (Nat.add_le_add_left (Nat.mul_le_mul_right 8 hinfos) 4)
    (Nat.mul_le_mul_right 12 hhops)

theorem sound_encode {p : DecodedScionPath} {s : RawPathContents} (hs : Sound s)
    (hp : p.Consistent) (hfits : p.size ≤ maxSize) : Sound (s.encode p) := by
  have hencoded := encoded_of_fits hs.length_path hp hfits
  have hencode := encode_of_fits hs.length_path hp hfits
  refine ⟨?_, ?_, ?_⟩
  · rw [hencode, List.length_append, DecodedScionPath.length_bytes, List.length_drop,
      hs.length_path]
    omega
  · rw [hencode]
    exact hfits
  · rw [hencoded]
    exact complete_bytes hp

/-- A path that was reversed is as long as before and has all its fields. -/
theorem reversed_complete {path : List UInt8}
    (h : (reversePathInPlace PathType.scion path).1 = .ok) :
    (reversePathInPlace PathType.scion path).2.length = path.length ∧
      Complete PathType.scion (reversePathInPlace PathType.scion path).2 := by
  obtain ⟨hmeta, hinf, hhop, hlen⟩ := reversePathInPlace_ok h
  set word := UInt32.ofNat (beNat (path.take 4)) with hword
  -- the path is cut into records
  obtain ⟨ics, hics, hics8, hinfos⟩ := exists_records (w := 8) (metaNumInf word).toNat
    ((path.drop 4).take ((metaNumInf word).toNat * 8))
    (by rw [List.length_take, List.length_drop]; omega)
  obtain ⟨hcs, hhcs, hhcs12, hhops⟩ := exists_records (w := 12) (metaNumHop word).toNat
    (path.drop (4 + (metaNumInf word).toNat * 8))
    (by rw [List.length_drop]; omega)
  have hpath : path = path.take 4 ++ (ics.flatten ++ hcs.flatten) := by
    rw [hhops, hinfos, ← List.drop_drop, List.take_append_drop, List.take_append_drop]
  have hmb : (path.take 4).length = 4 := by
    rw [List.length_take]
    omega
  have hrev := reversePathInPlace_records hmb hics8 hhcs12 hics.symm hhcs.symm (by omega) (by omega)
    (by omega)
  rw [← hpath] at hrev
  have hinfosLen := length_reversedInfos hics8
  set infos := ((if ics.length > 1 then swapAt 0 (ics.length - 1) ics else ics).map
    toggleFirst).flatten
  have hhopsLen : hcs.reverse.flatten.length = hcs.length * 12 := by
    rw [length_flatten (w := 12) fun c hc => hhcs12 c (List.mem_reverse.mp hc), List.length_reverse]
  have hsame : (beBytes 4 (reverseMeta word).toNat ++ (infos ++ hcs.reverse.flatten)).length
      = path.length := by
    rw [List.length_append, List.length_append, length_beBytes, hinfosLen, hhopsLen, hics, hhcs,
      hlen, add_assoc]
  rw [hrev]
  refine ⟨hsame, fun _ => .inr ⟨by rw [hsame]; exact hmeta, fun _ => ?_⟩⟩
  -- the sizes in the meta word are those of before
  have hnum : beNat (beBytes 4 (reverseMeta word).toNat) = (reverseMeta word).toNat := by
    rw [beNat_beBytes, Nat.mod_eq_of_lt (show _ < 256 ^ 4 from (reverseMeta word).toNat_lt)]
  obtain ⟨hinfSame, hhopSame⟩ := metaNum_reverseMeta word
  rw [hsame, List.take_left' (length_beBytes _ _), PathMeta.ofBytes, hnum, ← toNat_metaNumInf,
    ← toNat_metaNumHop, hinfSame, hhopSame]
  exact hlen.ge

theorem sound_reverseInPlace {s : RawPathContents} (hs : Sound s) : Sound s.reverseInPlace.2 := by
  by_cases hok : (reversePathInPlace s.type s.encoded).1 = .ok
  · have hreversed : s.reverseInPlace.2 = ⟨s.destination, s.source, s.type, s.size,
        (reversePathInPlace s.type s.encoded).2 ++ s.path.drop s.size⟩ := by
      simp [reverseInPlace, hok]
    have hencoded : s.encoded.length = s.size := by
      rw [encoded, List.length_take, hs.length_path, min_eq_left hs.size_le]
    have hkeeps : (reversePathInPlace s.type s.encoded).2.length = s.encoded.length ∧
        Complete s.type (reversePathInPlace s.type s.encoded).2 := by
      by_cases hscion : s.type = PathType.scion
      · rw [hscion] at hok ⊢
        exact reversed_complete hok
      · refine ⟨?_, fun h => absurd h hscion⟩
        have hempty : s.type = PathType.empty := by
          by_contra hempty
          rw [reversePathInPlace, if_neg hempty, if_pos hscion] at hok
          cases hok
        rw [reversePathInPlace, if_pos hempty]
    rw [hreversed]
    refine ⟨?_, hs.size_le, ?_⟩
    · rw [List.length_append, hkeeps.1, hencoded, List.length_drop, hs.length_path,
        Nat.add_sub_of_le hs.size_le]
    · show Complete s.type
        (((reversePathInPlace s.type s.encoded).2 ++ s.path.drop s.size).take s.size)
      rw [List.take_left' (hkeeps.1.trans hencoded)]
      exact hkeeps.2
  · have hsame := reversePathInPlace_error hok
    have hbuffer : s.encoded ++ s.path.drop s.size = s.path := List.take_append_drop _ _
    have hunchanged : s.reverseInPlace.2 = s := by
      simp [reverseInPlace, hok, hsame, hbuffer]
    rw [hunchanged]
    exact hs

/-! ### Encoding -/

/-- A path that does not fit is not serialized. -/
theorem serializes_iff {p : DecodedScionPath} {s : RawPathContents} (hs : s.path.length = maxSize)
    (hp : p.Consistent) : s.serializes p = true ↔ p.size ≤ maxSize := by
  constructor
  · intro h
    by_contra hlong
    obtain ⟨e, ws, herr⟩ := (DecodedScionPath.writes hp [] s.path).2
      (by rw [DecodedScionPath.length_bytes, hs]; omega)
    rw [serializes, WriteStream.ofBuffer_eq, herr] at h
    cases h
  · intro hfits
    rw [serializes, write_of_fits hs hp hfits]

theorem encodeReturning_eq (p : DecodedScionPath) (s : RawPathContents) :
    s.encodeReturning p = (true, s.encode p) := by
  rw [encodeReturning, ite_self]

theorem encodesExactly_iff {p : DecodedScionPath} {s : RawPathContents}
    (hs : s.path.length = maxSize) (hp : p.Consistent) :
    s.EncodesExactly p ↔ p.size ≤ maxSize := by
  rw [EncodesExactly, encodeReturning_eq, serializes_iff hs hp]
  constructor
  · rintro ⟨hresult, -⟩
    exact hresult.mp rfl
  · intro hfits
    refine ⟨iff_of_true rfl hfits, fun _ => ⟨encoded_of_fits hs hp hfits, ?_⟩⟩
    rw [encode_of_fits hs hp hfits]

end RawPathContents

/-! ### Runs -/

open RawPathContents

/-- Data that is assigned has all its fields unless it is refused, and a path
that is encoded fits. -/
def RawPathOp.Lawful : RawPathOp → Prop
  | .assign _ _ type data => data.length ≤ maxSize → Complete type data
  | .encode p => p.Consistent ∧ p.size ≤ maxSize
  | .reverseInPlace => True
  | .digest => True

theorem RawPathContents.sound_step {s : RawPathContents} (hs : Sound s) {op : RawPathOp}
    (h : op.Lawful) : Sound (s.step op) := by
  cases op with
  | assign source destination type data =>
    rw [RawPathContents.step]
    cases hassign : s.assign source destination type data with
    | error e => exact hs
    | ok s' => exact sound_assign hs (h (encoded_of_assign hassign).2.2) hassign
  | encode p => exact sound_encode hs h.1 h.2
  | reverseInPlace => exact sound_reverseInPlace hs
  | digest => exact hs

theorem RawPathContents.sound_run {ops : List RawPathOp} (h : ∀ op ∈ ops, op.Lawful) :
    Sound (ops.foldl RawPathContents.step RawPathContents.empty) :=
  List.foldlRecOn ops _ sound_empty fun _ hs op hop => sound_step hs (h op hop)

theorem RawPathContents.agree_of_sound {a b : RawPathContents} (ha : Sound a) (hb : Sound b)
    (h : a.equals b = true) :
    a.source = b.source ∧ a.expiry = b.expiry ∧ a.hops = b.hops := by
  rw [equals] at h
  simp only [Bool.and_eq_true, beq_iff_eq] at h
  obtain ⟨⟨⟨hsource, -⟩, htype⟩, hencoded⟩ := h
  refine ⟨hsource, ?_, ?_⟩
  · exact expiry_eq_of_encoded htype hencoded ha.complete ha.length_path hb.length_path
  · rw [hops, hops, htype, hencoded]

namespace RawPath

variable (murmur : List UInt8 → UInt32 → UInt64 × UInt64) (randomSeed : UInt32)

/-- The object after the operations. -/
def ofOps (ops : List RawPathOp) : RawPath := ops.foldl (step murmur randomSeed) empty

/-- No method tells equal objects apart, and `encode` tells whether the path
was serialized. -/
theorem agree_of_equals {xs ys : List RawPathOp} (hx : ∀ op ∈ xs, op.Lawful)
    (hy : ∀ op ∈ ys, op.Lawful) :
    let a := ofOps murmur randomSeed xs
    let b := ofOps murmur randomSeed ys
    (a.equals b.toRawPathContents = true →
      a.expiry = b.expiry ∧ (a.digest murmur randomSeed).1 = (b.digest murmur randomSeed).1 ∧
        a.hops = b.hops) ∧
    ∀ p : DecodedScionPath, p.Consistent → (a.EncodesExactly p ↔ p.size ≤ maxSize) := by
  intro a b
  have ha : Sound a.toRawPathContents := by
    rw [show a.toRawPathContents = _ from contents_run xs]
    exact sound_run hx
  have hb : Sound b.toRawPathContents := by
    rw [show b.toRawPathContents = _ from contents_run ys]
    exact sound_run hy
  refine ⟨fun h => ?_, fun p hp => encodesExactly_iff ha.length_path hp⟩
  obtain ⟨hsource, hexpiry, hhops⟩ := agree_of_sound ha hb h
  refine ⟨hexpiry, ?_, hhops⟩
  have hda : (a.digest murmur randomSeed).1
      = computeDigest murmur randomSeed a.source (a.hops.take 64) := digest_eq (fresh_run xs)
  have hdb : (b.digest murmur randomSeed).1
      = computeDigest murmur randomSeed b.source (b.hops.take 64) := digest_eq (fresh_run ys)
  rw [hda, hdb, hsource, hhops]

end RawPath

instance (m : PathMeta) : Decidable m.Valid := inferInstanceAs (Decidable (_ ∧ _ ∧ _))

instance (p : DecodedScionPath) : Decidable p.Consistent := inferInstanceAs (Decidable (_ ∧ _))

instance (type : PathType) (bytes : List UInt8) : Decidable (Complete type bytes) :=
  inferInstanceAs (Decidable (_ → _ ∨ _ ∧ (_ → _)))

instance RawPathOp.decidableLawful : ∀ op : RawPathOp, Decidable op.Lawful
  | .assign .. => inferInstanceAs (Decidable (_ → _))
  | .encode _ => inferInstanceAs (Decidable (_ ∧ _))
  | .reverseInPlace => inferInstanceAs (Decidable True)
  | .digest => inferInstanceAs (Decidable True)

/-- Encoding a path and reversing it twice, and assigning its bytes. -/
theorem RawPath.agree_of_equals_reversedTwice :
    let murmur : List UInt8 → UInt32 → UInt64 × UInt64 :=
      fun bytes _ => (UInt64.ofNat bytes.length, 0)
    let a := ofOps murmur 0 [.encode twoHopPath, .digest, .reverseInPlace, .reverseInPlace]
    let b := ofOps murmur 0 [.assign twoHopPath.source twoHopPath.destination PathType.scion
      twoHopPath.bytes]
    a.expiry = b.expiry ∧ (a.digest murmur 0).1 = (b.digest murmur 0).1 ∧ a.hops = b.hops := by
  intro murmur a b
  exact (agree_of_equals murmur 0
    (by decide : ∀ op ∈ [.encode twoHopPath, .digest, .reverseInPlace, .reverseInPlace],
      RawPathOp.Lawful op)
    (by decide : ∀ op ∈ [.assign twoHopPath.source twoHopPath.destination PathType.scion
      twoHopPath.bytes], RawPathOp.Lawful op)).1 (by decide +kernel)

/-- A path with more hop fields than the array has room for. -/
def oversizedPath : DecodedScionPath where
  source := IsdAsn.make 1 1
  destination := IsdAsn.make 1 2
  metaHeader := ⟨0, 0, 40, 41, 0⟩
  ifs := List.replicate 2 ⟨1, 0x1234, 0x5f000000⟩
  hfs := List.replicate 81 ⟨0, 63, 1, 2, exampleMac⟩

/-- The path is cut off, but `encode` returns true. -/
example : ¬ RawPathContents.empty.EncodesExactly oversizedPath := by
  rw [encodesExactly_iff List.length_replicate (by decide)]
  decide

/-- Behind an encoding without hop fields, one object has the hop fields of an
earlier path and the other has zeros. -/
theorem RawPath.not_forall_behave_equally :
    ¬ ∀ (murmur : List UInt8 → UInt32 → UInt64 × UInt64) (randomSeed : UInt32)
        (xs ys : List RawPathOp),
      let a := ofOps murmur randomSeed xs
      let b := ofOps murmur randomSeed ys
      (a.equals b.toRawPathContents = true →
        a.expiry = b.expiry ∧ (a.digest murmur randomSeed).1 = (b.digest murmur randomSeed).1 ∧
          a.hops = b.hops) ∧
      ∀ p : DecodedScionPath, p.Consistent → a.EncodesExactly p := by
  intro h
  have hexpiry := ((h (fun _ _ => (0, 0)) 0
    [.encode twoHopPath, .assign (IsdAsn.make 1 1) (IsdAsn.make 1 2) PathType.scion
      (twoHopPath.bytes.take 12)]
    [.assign (IsdAsn.make 1 1) (IsdAsn.make 1 2) PathType.scion (twoHopPath.bytes.take 12)]).1
    (by decide +kernel)).1
  exact absurd hexpiry (by decide +kernel)

end Scion
