/-
The hash function SHA-256 of FIPS 180-4, for messages of bytes.

A message is padded to blocks of sixteen words. Each block is expanded to a schedule of
sixty-four words, one for each round, and the state after the rounds is added to the hash.

* `primes`, `rootBits` — where the constants come from;
* `schedule`, `rounds`, `hash` — the steps of the standard;
* `digest` — the hash as bytes;
* `digest_of_short` — messages that fit in one block.
-/
import Scion.BigEndian
import Scion.Records
import Mathlib.Data.Nat.NthRoot.Defs

namespace Sha256

open BigEndian

abbrev Word := BitVec 32

/-! ### Constants -/

/-- The first members of `ns` that are not multiples of earlier ones. -/
def sieve : ℕ → List ℕ → List ℕ
  | fuel + 1, p :: ns => p :: sieve fuel (ns.filter fun n => n % p ≠ 0)
  | _, _ => []

/-- The first sixty-four prime numbers. -/
def primes : List ℕ := sieve 64 (List.range' 2 310)

/-- The first 32 bits of the fractional part of the `k`-th root of `p`. -/
def rootBits (k p : ℕ) : Word := BitVec.ofNat 32 (Nat.nthRoot k (p * 2 ^ (32 * k)))

def K (t : ℕ) : Word := rootBits 3 (primes.getD t 0)

/-! ### Functions -/

def ch (x y z : Word) : Word := (x &&& y) ^^^ (~~~x &&& z)

def maj (x y z : Word) : Word := (x &&& y) ^^^ (x &&& z) ^^^ (y &&& z)

def bigSigma0 (x : Word) : Word := x.rotateRight 2 ^^^ x.rotateRight 13 ^^^ x.rotateRight 22

def bigSigma1 (x : Word) : Word := x.rotateRight 6 ^^^ x.rotateRight 11 ^^^ x.rotateRight 25

def sigma0 (x : Word) : Word := x.rotateRight 7 ^^^ x.rotateRight 18 ^^^ x >>> 3

def sigma1 (x : Word) : Word := x.rotateRight 17 ^^^ x.rotateRight 19 ^^^ x >>> 10

/-! ### Padding -/

/-- A bit that is set, zeros up to eight bytes before the end of a block, and the length of
the message in bits. -/
def pad (message : List UInt8) : List UInt8 :=
  message ++ 0x80 :: List.replicate ((119 - message.length % 64) % 64) 0
    ++ beBytes 8 (8 * message.length)

/-- Word `t` of block `i`. -/
def blockWord (padded : List UInt8) (i t : ℕ) : Word :=
  BitVec.ofNat 32 (beNat (Records.slice padded (64 * i + 4 * t) 4))

/-! ### The hash -/

/-- The words of the rounds, from those of a block. -/
def schedule (block : ℕ → Word) : ℕ → Word
  | t + 16 =>
    sigma1 (schedule block (t + 14)) + schedule block (t + 9) + sigma0 (schedule block (t + 1))
      + schedule block t
  | t => block t

/-- The working variables, and the hash value in between. -/
structure State where
  a : Word
  b : Word
  c : Word
  d : Word
  e : Word
  f : Word
  g : Word
  h : Word
  deriving DecidableEq

def initial : State where
  a := rootBits 2 2
  b := rootBits 2 3
  c := rootBits 2 5
  d := rootBits 2 7
  e := rootBits 2 11
  f := rootBits 2 13
  g := rootBits 2 17
  h := rootBits 2 19

def round (k w : Word) (s : State) : State :=
  let t₁ := s.h + bigSigma1 s.e + ch s.e s.f s.g + k + w
  let t₂ := bigSigma0 s.a + maj s.a s.b s.c
  ⟨t₁ + t₂, s.a, s.b, s.c, s.d + t₁, s.e, s.f, s.g⟩

/-- The state after `n` rounds. -/
def rounds (block : ℕ → Word) (s : State) : ℕ → State
  | 0 => s
  | n + 1 => round (K n) (schedule block n) (rounds block s n)

def State.add (s t : State) : State :=
  ⟨s.a + t.a, s.b + t.b, s.c + t.c, s.d + t.d, s.e + t.e, s.f + t.f, s.g + t.g, s.h + t.h⟩

def compress (block : ℕ → Word) (s : State) : State := s.add (rounds block s 64)

/-- The hash value after `n` blocks. -/
def hash (padded : List UInt8) : ℕ → State
  | 0 => initial
  | n + 1 => compress (blockWord padded n) (hash padded n)

def State.bytes (s : State) : List UInt8 :=
  [s.a, s.b, s.c, s.d, s.e, s.f, s.g, s.h].flatMap fun w => beBytes 4 w.toNat

def digest (message : List UInt8) : List UInt8 :=
  (hash (pad message) ((pad message).length / 64)).bytes

-- The first example of the standard, the message "abc".
example : digest [0x61, 0x62, 0x63] =
    [0xba, 0x78, 0x16, 0xbf, 0x8f, 0x01, 0xcf, 0xea, 0x41, 0x41, 0x40, 0xde, 0x5d, 0xae, 0x22,
      0x23, 0xb0, 0x03, 0x61, 0xa3, 0x96, 0x17, 0x7a, 0x9c, 0xb4, 0x10, 0xff, 0x61, 0xf2, 0x00,
      0x15, 0xad] := by decide +kernel

/-! ### Short messages -/

theorem schedule_of_lt (block : ℕ → Word) {t : ℕ} (h : t < 16) :
    schedule block t = block t := by
  rw [schedule]
  omega

theorem schedule_add (block : ℕ → Word) (t : ℕ) :
    schedule block (t + 16) = sigma1 (schedule block (t + 14)) + schedule block (t + 9)
      + sigma0 (schedule block (t + 1)) + schedule block t := by
  rw [schedule]

/-- Messages of up to 55 bytes leave room for the bit and the length. -/
theorem length_pad_of_short {message : List UInt8} (h : message.length ≤ 55) :
    (pad message).length = 64 := by
  rw [pad, List.length_append, List.length_append, List.length_cons, List.length_replicate,
    length_beBytes]
  omega

theorem digest_of_short {message : List UInt8} (h : message.length ≤ 55) :
    digest message = (compress (blockWord (pad message) 0) initial).bytes := by
  rw [digest, length_pad_of_short h]
  rfl

/-- The first four bytes of a hash are those of its first word. -/
theorem take_bytes (s : State) : s.bytes.take 4 = beBytes 4 s.a.toNat := by
  rw [State.bytes, List.flatMap_cons]
  exact List.take_left' (length_beBytes 4 _)

end Sha256
