/-
Path digests (`src/path/path.cpp`, `path/raw.hpp`, `path/path.hpp`,
`path/decoded_scion.hpp`).

A digest hashes the source AS and the interface pairs of `hops()`, gathered in
a buffer of 64 pairs. `RawPath` and `Path` hash the pairs that were stored,
`DecodedScionPath` hashes the whole buffer.

* `RawPath.fresh_run` — a cached digest is never stale, whatever was done to
  the object;
* `digest_eq_iff` — when two objects for one path have the same digest under
  every hash function.
-/
import Scion.HopRange
import Scion.ReversePath

namespace Scion

open BigEndian Codec

/-- 128-bit hash identifying a path. -/
structure PathDigest where
  lo : UInt64
  hi : UInt64
  deriving DecidableEq, Repr

/-! ### Hash input -/

/-- A pair of interface IDs in memory. -/
def hopBytes (hop : Hop) : List UInt8 := leBytes 2 hop.1.toNat ++ leBytes 2 hop.2.toNat

/-- The loop that stores hops from index `i` on. -/
def fillBuffer : List Hop → ℕ → List Hop → List Hop × ℕ
  | [], i, buffer => (buffer, i)
  | hop :: hops, i, buffer =>
    if i ≥ buffer.length then (buffer, i) else fillBuffer hops (i + 1) (buffer.set i hop)

/-- `std::array<Hop, 64> buffer`, zero-initialised. -/
def hopBuffer : List Hop := List.replicate 64 (0, 0)

section Hash

-- `MurmurHash3_x64_128` and the seed of the process
variable (murmur : List UInt8 → UInt32 → UInt64 × UInt64) (randomSeed : UInt32)

def computeDigest (src : IsdAsn) (path : List Hop) : PathDigest :=
  let haddr := murmur (leBytes 8 src.ia.toNat) randomSeed
  let hpath := murmur (path.flatMap hopBytes) randomSeed
  ⟨haddr.1 ^^^ hpath.1, haddr.2 ^^^ hpath.2⟩

/-! ### Decoded paths -/

def DecodedScionPath.digest (p : DecodedScionPath) : PathDigest :=
  computeDigest murmur randomSeed p.source (fillBuffer p.hops 0 hopBuffer).1

/-! ### Paths -/

/-- Expiry times are in ticks of the UTC clock. -/
structure Path where
  source : IsdAsn
  destination : IsdAsn
  type : PathType
  expiry : ℤ
  mtu : UInt16
  hopCount : UInt32
  nextHop : IPEndpoint
  path : List UInt8
  digest : PathDigest
  deriving DecidableEq, Repr

def Path.make (source destination : IsdAsn) (type : PathType) (expiry : ℤ) (mtu : UInt16)
    (nh : IPEndpoint) (dpPath : List UInt8) : Path :=
  let hops := rawHops type dpPath
  let filled := fillBuffer hops 0 hopBuffer
  { source := source
    destination := destination
    type := type
    expiry := expiry
    mtu := mtu
    hopCount := UInt32.ofNat hops.length
    nextHop := nh
    path := dpPath
    digest := computeDigest murmur randomSeed source (filled.1.take filled.2) }

/-- `Expiry::max()`. -/
def Path.maxExpiry : ℤ := 2 ^ 63 - 1

/-- `makeEmptyPath`. -/
def Path.makeEmpty (isdAsn : IsdAsn) : Path :=
  Path.make murmur randomSeed isdAsn isdAsn PathType.empty Path.maxExpiry 0 ⟨.v6 0 0 "", 0⟩ []

end Hash

/-! ### Raw paths -/

/-- The members of `RawPath` without the cached digest. -/
structure RawPathContents where
  source : IsdAsn
  destination : IsdAsn
  type : PathType
  size : ℕ
  path : List UInt8
  deriving DecidableEq, Repr

namespace RawPathContents

/-- `MAX_SIZE`. -/
def maxSize : ℕ := 984

def empty : RawPathContents := ⟨⟨0⟩, ⟨0⟩, PathType.empty, 0, List.replicate maxSize 0⟩

def encoded (s : RawPathContents) : List UInt8 := s.path.take s.size

def hops (s : RawPathContents) : List Hop := rawHops s.type s.encoded

def assign (source destination : IsdAsn) (type : PathType) (data : List UInt8)
    (s : RawPathContents) : Except String RawPathContents :=
  if data.length > maxSize then .error "supplied path is longer than the theoretical maximum"
  else .ok ⟨source, destination, type, data.length, Records.overwrite s.path 0 data⟩

/-- The size is taken from the stream also when the path does not fit. -/
def encode (p : DecodedScionPath) (s : RawPathContents) : RawPathContents :=
  let ws :=
    match p.write (WriteStream.ofBuffer s.path) with
    | .ok _ ws => ws
    | .error _ ws => ws
  ⟨p.source, p.destination, PathType.scion, ws.bytePos, ws.data⟩

def reverseInPlace (s : RawPathContents) : ErrorCode × RawPathContents :=
  let (err, reversed) := reversePathInPlace s.type s.encoded
  let path := reversed ++ s.path.drop s.size
  if err ≠ .ok then (err, { s with path := path })
  else (.ok, { s with source := s.destination, destination := s.source, path := path })

/-- A path that was assigned. -/
theorem encoded_of_assign {source destination : IsdAsn} {type : PathType} {data : List UInt8}
    {path path' : RawPathContents} (h : path.assign source destination type data = .ok path') :
    path'.encoded = data ∧ path'.size = data.length ∧ data.length ≤ maxSize := by
  rw [assign] at h
  by_cases hlong : data.length > maxSize
  · rw [if_pos hlong] at h
    cases h
  · rw [if_neg hlong] at h
    cases h
    refine ⟨?_, rfl, by omega⟩
    rw [encoded, Records.overwrite, List.take_zero, List.nil_append, List.take_left' rfl]

end RawPathContents

/-- What can be done to a `RawPath`. -/
inductive RawPathOp
  | assign (source destination : IsdAsn) (type : PathType) (data : List UInt8)
  | encode (p : DecodedScionPath)
  | reverseInPlace
  | digest
  deriving DecidableEq, Repr

/-- The contents after an operation; `assign` throws before it changes them. -/
def RawPathContents.step (s : RawPathContents) : RawPathOp → RawPathContents
  | .assign source destination type data =>
    match s.assign source destination type data with
    | .ok s' => s'
    | .error _ => s
  | .encode p => s.encode p
  | .reverseInPlace => s.reverseInPlace.2
  | .digest => s

structure RawPath extends RawPathContents where
  cachedDigest : Option PathDigest
  deriving DecidableEq, Repr

namespace RawPath

def empty : RawPath := ⟨RawPathContents.empty, none⟩

def assign (source destination : IsdAsn) (type : PathType) (data : List UInt8) (s : RawPath) :
    Except String RawPath := do
  let contents ← s.toRawPathContents.assign source destination type data
  pure ⟨contents, none⟩

def encode (p : DecodedScionPath) (s : RawPath) : RawPath :=
  ⟨s.toRawPathContents.encode p, none⟩

def reverseInPlace (s : RawPath) : ErrorCode × RawPath :=
  let (err, contents) := s.toRawPathContents.reverseInPlace
  if err ≠ .ok then (err, ⟨contents, s.cachedDigest⟩) else (.ok, ⟨contents, none⟩)

variable (murmur : List UInt8 → UInt32 → UInt64 × UInt64) (randomSeed : UInt32)

def digest (s : RawPath) : PathDigest × RawPath :=
  match s.cachedDigest with
  | some d => (d, s)
  | none =>
    let filled := fillBuffer s.hops 0 hopBuffer
    let d := computeDigest murmur randomSeed s.source (filled.1.take filled.2)
    (d, { s with cachedDigest := some d })

def step (s : RawPath) : RawPathOp → RawPath
  | .assign source destination type data =>
    match s.assign source destination type data with
    | .ok s' => s'
    | .error _ => s
  | .encode p => s.encode p
  | .reverseInPlace => s.reverseInPlace.2
  | .digest => (s.digest murmur randomSeed).2

end RawPath

/-! ### The buffer -/

theorem fillBuffer_eq (hops stored : List Hop) (n : ℕ) :
    fillBuffer hops stored.length (stored ++ List.replicate n (0, 0))
      = (stored ++ hops.take n ++ List.replicate (n - hops.length) (0, 0),
          stored.length + min n hops.length) := by
  induction hops generalizing stored n with
  | nil => simp [fillBuffer]
  | cons hop hops ih =>
    rw [fillBuffer]
    cases n with
    | zero => simp
    | succ n =>
      have hroom : ¬ stored.length ≥ (stored ++ List.replicate (n + 1) ((0, 0) : Hop)).length := by
        simp
      have hset : (stored ++ List.replicate (n + 1) ((0, 0) : Hop)).set stored.length hop
          = (stored ++ [hop]) ++ List.replicate n (0, 0) := by
        rw [List.set_append_right _ _ le_rfl, Nat.sub_self, List.replicate_succ, List.set_cons_zero,
          List.append_assoc, List.singleton_append]
      have hlen : stored.length + 1 = (stored ++ [hop]).length := by simp
      rw [if_neg hroom, hset, hlen, ih, List.length_append, List.length_singleton,
        List.take_succ_cons, List.length_cons, Nat.add_sub_add_right, Nat.add_min_add_right]
      congr 1
      · rw [List.append_assoc stored, List.singleton_append]
      · omega

/-- The whole buffer. -/
theorem fillBuffer_fst (hops : List Hop) :
    (fillBuffer hops 0 hopBuffer).1
      = hops.take 64 ++ List.replicate (64 - hops.length) (0, 0) := by
  have h := fillBuffer_eq hops [] 64
  rw [List.length_nil, List.nil_append] at h
  rw [hopBuffer, h, List.nil_append]

/-- The pairs that were stored. -/
theorem fillBuffer_take (hops : List Hop) :
    (fillBuffer hops 0 hopBuffer).1.take (fillBuffer hops 0 hopBuffer).2 = hops.take 64 := by
  have h := fillBuffer_eq hops [] 64
  rw [List.length_nil, List.nil_append] at h
  rw [hopBuffer, h, List.nil_append]
  refine List.take_left' ?_
  rw [List.length_take, Nat.zero_add]

/-- A path that is not reversed is not changed. -/
theorem reversePathInPlace_error {type : PathType} {path : List UInt8}
    (h : (reversePathInPlace type path).1 ≠ .ok) : (reversePathInPlace type path).2 = path := by
  simp only [reversePathInPlace] at h ⊢
  split_ifs at h ⊢ <;> first | rfl | exact absurd rfl h

/-! ### Cached digests -/

namespace RawPath

variable (murmur : List UInt8 → UInt32 → UInt64 × UInt64) (randomSeed : UInt32)

/-- A digest in the cache is that of the present contents. -/
def Fresh (s : RawPath) : Prop :=
  ∀ d, s.cachedDigest = some d → d = computeDigest murmur randomSeed s.source (s.hops.take 64)

variable {murmur randomSeed}

theorem fresh_of_none {s : RawPath} (h : s.cachedDigest = none) : s.Fresh murmur randomSeed := by
  intro d hd
  rw [h] at hd
  cases hd

theorem digest_eq {s : RawPath} (h : s.Fresh murmur randomSeed) :
    (s.digest murmur randomSeed).1 = computeDigest murmur randomSeed s.source (s.hops.take 64) := by
  rw [digest]
  split
  · next d hd => exact h d hd
  · rw [← fillBuffer_take]

/-- Reversing either fails and changes nothing or empties the cache. -/
theorem reverseInPlace_cases (s : RawPath) :
    s.reverseInPlace.2 = s ∨ s.reverseInPlace.2.cachedDigest = none := by
  by_cases hok : (reversePathInPlace s.type s.encoded).1 = .ok
  · right
    simp [reverseInPlace, RawPathContents.reverseInPlace, hok]
  · left
    have hsame := reversePathInPlace_error hok
    have hbuffer : s.encoded ++ s.path.drop s.size = s.path := List.take_append_drop _ _
    simp [reverseInPlace, RawPathContents.reverseInPlace, hok, hsame, hbuffer]

theorem fresh_step {s : RawPath} (h : s.Fresh murmur randomSeed) (op : RawPathOp) :
    (s.step murmur randomSeed op).Fresh murmur randomSeed := by
  cases op with
  | assign source destination type data =>
    rw [step]
    cases hassign : s.assign source destination type data with
    | error e => exact h
    | ok s' =>
      refine fresh_of_none ?_
      rw [assign] at hassign
      cases hc : s.toRawPathContents.assign source destination type data with
      | error e =>
        rw [hc] at hassign
        cases hassign
      | ok c =>
        rw [hc] at hassign
        cases hassign
        rfl
  | encode p => exact fresh_of_none rfl
  | reverseInPlace =>
    rcases reverseInPlace_cases s with hsame | hnone
    · rw [step, hsame]
      exact h
    · exact fresh_of_none hnone
  | digest =>
    rw [step, digest]
    split
    · exact h
    · intro d hd
      rw [← fillBuffer_take]
      exact (Option.some.inj hd).symm

/-- A cached digest is never stale. -/
theorem fresh_run (ops : List RawPathOp) :
    (ops.foldl (step murmur randomSeed) empty).Fresh murmur randomSeed := by
  refine List.foldlRecOn ops (step murmur randomSeed) ?_ ?_
  · exact fresh_of_none rfl
  · exact fun s hs op _ => fresh_step hs op

/-- The digest does not touch the contents. -/
theorem contents_step (s : RawPath) (op : RawPathOp) :
    (s.step murmur randomSeed op).toRawPathContents = s.toRawPathContents.step op := by
  cases op with
  | assign source destination type data =>
    rw [step, assign, RawPathContents.step]
    cases s.toRawPathContents.assign source destination type data <;> rfl
  | encode p => rfl
  | reverseInPlace =>
    rw [step, reverseInPlace, RawPathContents.step]
    rcases s.toRawPathContents.reverseInPlace with ⟨err, contents⟩
    simp only
    split <;> rfl
  | digest =>
    rw [step, digest]
    split <;> rfl

theorem contents_run (ops : List RawPathOp) :
    (ops.foldl (step murmur randomSeed) empty).toRawPathContents
      = ops.foldl RawPathContents.step RawPathContents.empty :=
  (List.foldl_hom toRawPathContents fun s op => (contents_step s op).symm).symm

end RawPath

/-! ### Agreement of digests -/

/-- A path object by how it came about: a `RawPath` after some operations, a
`Path` from its constructor, or a `DecodedScionPath`. -/
inductive PathObject
  | raw (ops : List RawPathOp)
  | path (source destination : IsdAsn) (type : PathType) (expiry : ℤ) (mtu : UInt16)
    (nh : IPEndpoint) (dpPath : List UInt8)
  | decoded (p : DecodedScionPath)
  deriving DecidableEq, Repr

namespace PathObject

/-- The contents of a `RawPath` after the operations. -/
def rawContents (ops : List RawPathOp) : RawPathContents :=
  ops.foldl RawPathContents.step RawPathContents.empty

def firstAS : PathObject → IsdAsn
  | raw ops => (rawContents ops).source
  | path source .. => source
  | decoded p => p.source

def type : PathObject → PathType
  | raw ops => (rawContents ops).type
  | path _ _ type .. => type
  | decoded _ => PathType.scion

def hops : PathObject → List Hop
  | raw ops => (rawContents ops).hops
  | path _ _ type _ _ _ dpPath => rawHops type dpPath
  | decoded p => p.hops

def isDecoded : PathObject → Bool
  | decoded _ => true
  | _ => false

/-- The object stands for the path bytes `bytes`. -/
def Encodes (bytes : List UInt8) : PathObject → Prop
  | raw ops => (rawContents ops).encoded = bytes
  | path _ _ _ _ _ _ dpPath => dpPath = bytes
  | decoded p => DecodedScionPath.decode p.source p.destination bytes = some p

def digest (murmur : List UInt8 → UInt32 → UInt64 × UInt64) (randomSeed : UInt32) :
    PathObject → PathDigest
  | raw ops =>
    ((ops.foldl (RawPath.step murmur randomSeed) RawPath.empty).digest murmur randomSeed).1
  | path source destination type expiry mtu nh dpPath =>
    (Path.make murmur randomSeed source destination type expiry mtu nh dpPath).digest
  | decoded p => p.digest murmur randomSeed

/-- The pairs that are hashed, for at most 64 hops. -/
def hashedHops (a : PathObject) : List Hop :=
  if a.isDecoded then a.hops ++ List.replicate (64 - a.hops.length) (0, 0) else a.hops

theorem digest_eq (murmur : List UInt8 → UInt32 → UInt64 × UInt64) (randomSeed : UInt32)
    {a : PathObject} (h : a.hops.length ≤ 64) :
    a.digest murmur randomSeed = computeDigest murmur randomSeed a.firstAS a.hashedHops := by
  cases a with
  | raw ops =>
    have hcontents := @RawPath.contents_run murmur randomSeed ops
    rw [digest, RawPath.digest_eq (RawPath.fresh_run ops), hcontents]
    exact congrArg _ (List.take_of_length_le h)
  | path source destination type expiry mtu nh dpPath =>
    have hall : (rawHops type dpPath).take 64 = rawHops type dpPath := List.take_of_length_le h
    rw [digest, Path.make, fillBuffer_take, hall]
    rfl
  | decoded p =>
    have hall : p.hops.take 64 = p.hops := List.take_of_length_le h
    rw [digest, DecodedScionPath.digest, fillBuffer_fst, hall]
    rfl

/-- Decoding reads the addresses from the constructor. -/
theorem decode_withAddresses {source destination : IsdAsn} {bytes : List UInt8}
    {p : DecodedScionPath} (source' destination' : IsdAsn)
    (h : DecodedScionPath.decode source destination bytes = some p) :
    DecodedScionPath.decode source' destination' bytes
      = some { p with source := source', destination := destination' } := by
  rw [DecodedScionPath.decode] at h ⊢
  rcases hread : (DecodedScionPath.make source destination).read (ReadStream.ofBuffer bytes) with
    ⟨p', rs⟩ | ⟨e, rs⟩
  · rw [hread] at h
    rw [DecodedScionPath.read] at hread
    obtain ⟨m, s₁, hmeta, hread⟩ := bind_eq_ok.mp hread
    obtain ⟨ifs, s₂, hinfos, hread⟩ := bind_eq_ok.mp hread
    obtain ⟨hfs, s₃, hhops, hread⟩ := bind_eq_ok.mp hread
    cases hread
    rw [DecodedScionPath.read, bind_ok hmeta, bind_ok hinfos, bind_ok hhops]
    simp only at h
    split at h
    · cases h
    · next hdata =>
      cases h
      rw [show (pure _ : Reader DecodedScionPath) rs = .ok _ rs from rfl]
      simp only
      rw [if_neg hdata]
      rfl
  · rw [hread] at h
    cases h

/-- Objects of one kind that stand for the same bytes have the same hops. -/
theorem hops_eq_of_encodes {a b : PathObject} {bytes : List UInt8} (ha : a.Encodes bytes)
    (hb : b.Encodes bytes) (htype : a.type = b.type) (hkind : a.isDecoded = b.isDecoded) :
    a.hops = b.hops := by
  have hplain : ∀ c : PathObject, c.isDecoded = false → c.Encodes bytes →
      c.hops = rawHops c.type bytes := by
    intro c hc henc
    cases c with
    | raw ops =>
      have hbytes : (rawContents ops).encoded = bytes := henc
      rw [hops, RawPathContents.hops, hbytes, PathObject.type]
    | path source destination type expiry mtu nh dpPath =>
      have hbytes : dpPath = bytes := henc
      rw [hops, hbytes, PathObject.type]
    | decoded p => cases hc
  cases a with
  | decoded p =>
    cases b with
    | decoded q =>
      have hq := decode_withAddresses q.source q.destination ha
      rw [Encodes] at hb
      rw [hb] at hq
      rw [hops, hops, Option.some.inj hq]
      rfl
    | raw ops => cases hkind
    | path source destination type expiry mtu nh dpPath => cases hkind
  | raw ops =>
    rw [hplain _ rfl ha, hplain b hkind.symm hb, htype]
  | path source destination type expiry mtu nh dpPath =>
    rw [hplain _ rfl ha, hplain b hkind.symm hb, htype]

end PathObject

/-! ### Hash inputs -/

theorem hopBytes_injective : Function.Injective hopBytes := by
  rintro ⟨e, i⟩ ⟨e', i'⟩ h
  obtain ⟨he, hi⟩ := List.append_inj h (by simp [leBytes])
  have hword : ∀ x y : UInt16, leBytes 2 x.toNat = leBytes 2 y.toNat → x = y := by
    intro x y hxy
    have hnum := congrArg beNat (List.reverse_injective hxy)
    rw [beNat_beBytes, beNat_beBytes, Nat.mod_eq_of_lt (show x.toNat < 256 ^ 2 from x.toNat_lt),
      Nat.mod_eq_of_lt (show y.toNat < 256 ^ 2 from y.toNat_lt)] at hnum
    exact UInt16.toNat_inj.mp hnum
  rw [hword e e' he, hword i i' hi]

theorem flatMap_hopBytes_injective : Function.Injective fun hops : List Hop => hops.flatMap hopBytes :=
  Records.flatMap_injective (w := 4) (by norm_num) (fun _ => by simp [hopBytes, leBytes])
    hopBytes_injective

/-- Every hash function gives the same digest only if the hashed pairs are the
same. -/
theorem computeDigest_forall_iff (source : IsdAsn) (xs ys : List Hop) :
    (∀ murmur randomSeed, computeDigest murmur randomSeed source xs
      = computeDigest murmur randomSeed source ys) ↔ xs = ys := by
  constructor
  · intro h
    -- a hash that tells the pairs apart; the digest of the address cancels
    have hlo := congrArg PathDigest.lo
      (h (fun bytes _ => (if bytes = xs.flatMap hopBytes then 1 else 0, 0)) 0)
    simp only [computeDigest, if_true, UInt64.xor_right_inj] at hlo
    by_contra hne
    rw [if_neg fun heq => hne (flatMap_hopBytes_injective heq).symm] at hlo
    exact absurd hlo (by decide)
  · rintro rfl _ _
    rfl

/-- The unused entries of the buffer make no difference: objects of one kind, or
64 pairs on the side that hashes no unused entries. -/
def PathObject.SameSpan (a b : PathObject) : Prop :=
  match a.isDecoded, b.isDecoded with
  | true, false => b.hops = a.hops ++ List.replicate (64 - a.hops.length) (0, 0)
  | false, true => a.hops = b.hops ++ List.replicate (64 - b.hops.length) (0, 0)
  | _, _ => True

/-- Two objects for the same source and the same hops or bytes have the same
digest under every hash function exactly when they hash the same span. -/
theorem digest_eq_iff {a b : PathObject} (hsource : a.firstAS = b.firstAS)
    (ha : a.type = PathType.scion) (hb : b.type = PathType.scion) (hla : a.hops.length ≤ 64)
    (hlb : b.hops.length ≤ 64)
    (hsame : a.hops = b.hops ∨ ∃ bytes, a.Encodes bytes ∧ b.Encodes bytes) :
    (∀ murmur randomSeed, a.digest murmur randomSeed = b.digest murmur randomSeed) ↔
      a.SameSpan b := by
  have hhops : a.isDecoded = b.isDecoded → a.hops = b.hops := by
    intro hkind
    rcases hsame with h | ⟨bytes, hea, heb⟩
    · exact h
    · exact PathObject.hops_eq_of_encodes hea heb (ha.trans hb.symm) hkind
  have hinput : (∀ murmur randomSeed, a.digest murmur randomSeed = b.digest murmur randomSeed) ↔
      a.hashedHops = b.hashedHops := by
    rw [← computeDigest_forall_iff a.firstAS]
    refine forall₂_congr fun murmur randomSeed => ?_
    rw [PathObject.digest_eq murmur randomSeed hla, PathObject.digest_eq murmur randomSeed hlb,
      hsource]
  rw [hinput, PathObject.hashedHops, PathObject.hashedHops, PathObject.SameSpan]
  cases hka : a.isDecoded <;> cases hkb : b.isDecoded
  · simpa using hhops (hka.trans hkb.symm)
  · simp
  · simpa using eq_comm
  · simp [hhops (hka.trans hkb.symm)]

/-- A `RawPath` that was hashed before it was reversed. -/
def reversedRawPath : PathObject := .raw [.encode (twoSegmentPath 0 1), .digest, .reverseInPlace]

/-- A `Path` made from the reversed bytes. -/
def reversedPath : PathObject :=
  .path (IsdAsn.make 1 2) (IsdAsn.make 1 1) PathType.scion 0 1472 ⟨.v4 0x0a000001, 31000⟩
    (reversePathInPlace PathType.scion (twoSegmentPath 0 1).bytes).2

theorem digest_eq_iff_reversed :
    (∀ murmur randomSeed,
      reversedRawPath.digest murmur randomSeed = reversedPath.digest murmur randomSeed) ↔
      reversedRawPath.SameSpan reversedPath :=
  digest_eq_iff (by decide +kernel) (by decide +kernel) (by decide +kernel) (by decide +kernel)
    (by decide +kernel) (.inl (by decide +kernel))

/-- A `Path` hashes the two hops of these bytes, a `DecodedScionPath` 64 pairs. -/
theorem not_forall_digest_eq :
    ¬ ∀ a b : PathObject, a.firstAS = b.firstAS → a.type = PathType.scion →
      b.type = PathType.scion → a.hops.length ≤ 64 → b.hops.length ≤ 64 →
      (a.hops = b.hops ∨ ∃ bytes, a.Encodes bytes ∧ b.Encodes bytes) →
      ∀ murmur randomSeed, a.digest murmur randomSeed = b.digest murmur randomSeed := by
  intro h
  have heq := h
    (.path (IsdAsn.make 1 1) (IsdAsn.make 1 2) PathType.scion 0 1472 ⟨.v4 0x0a000001, 31000⟩
      (twoSegmentPath 0 1).bytes)
    (.decoded (twoSegmentPath 0 1)) (by decide +kernel) (by decide +kernel) (by decide +kernel)
    (by decide +kernel) (by decide +kernel) (.inl (by decide +kernel))
    (fun bytes _ => (UInt64.ofNat bytes.length, 0)) 0
  exact absurd heq (by decide +kernel)

end Scion
