/-
The positions of bit streams (`bit_stream.hpp`).

A stream stands at a byte and a bit of its buffer. What the operations do to the
position does not depend on the data, and is nearly the same for reading and writing.

* `Place` — where a stream stands, and `Place.Standing` — the places that `seek` accepts;
* `advanceBits64`, `advanceBytes64` — the operations with their sizes as the machine
  counts them;
* `StreamCall.result_eq` — how a call moves, as a function of the place;
* `StreamCall.exact_iff` — a call moves by its width or not at all, but for those that slip.
-/
import Scion.StreamBits

namespace Scion

open BigEndian Codec

/-! ### Sizes of 64 bits -/

/-- `ReadStream::advanceBits` for a `std::size_t`. -/
def ReadStream.advanceBits64 (bits : UInt64) : Reader Unit := fun rs =>
  if rs.remaining < ((bits + UInt64.ofNat rs.bitPos + 7) / 8).toNat then
    .error "out of data to read" rs
  else (do advanceWords (bits / 32).toNat; let _ ← serializeBits 32 (bits % 32).toNat) rs

/-- `ReadStream::advanceBytes` for a `std::size_t`. -/
def ReadStream.advanceBytes64 (bytes : UInt64) : Reader Unit := fun rs =>
  if rs.bitPos ≠ 0 then (do advanceBits64 (8 * bytes); skipBytes bytes.toNat) rs
  else skipBytes bytes.toNat rs

/-- `WriteStream::advanceBits` for a `std::size_t`. -/
def WriteStream.advanceBits64 (bits : UInt64) : Writer := fun ws =>
  if ws.remaining < ((bits + UInt64.ofNat ws.bitPos + 7) / 8).toNat then .error "out of space" ws
  else (do advanceWords (bits / 32).toNat; serializeBits 32 0 (bits % 32).toNat) ws

/-- `WriteStream::advanceBytes` for a `std::size_t`. -/
def WriteStream.advanceBytes64 (bytes : UInt64) : Writer := fun ws =>
  if ws.bitPos ≠ 0 then
    (do advanceBits64 (8 * bytes); putAligned (List.replicate bytes.toNat 0)) ws
  else putAligned (List.replicate bytes.toNat 0) ws

/-- The bytes that are touched, in machine arithmetic. -/
theorem toNat_touched (bits : UInt64) (b : ℕ) :
    ((bits + UInt64.ofNat b + 7) / 8).toNat = (bits.toNat + b + 7) % 2 ^ 64 / 8 := by
  rw [UInt64.toNat_div, UInt64.toNat_add, UInt64.toNat_add, UInt64.toNat_ofNat',
    show (7 : UInt64).toNat = 7 from rfl, show (8 : UInt64).toNat = 8 from rfl]
  omega

/-- Without a wraparound the sizes are numbers. -/
theorem ReadStream.advanceBits64_eq {bits : UInt64} {rs : ReadStream}
    (h : bits.toNat + rs.bitPos + 7 < 2 ^ 64) :
    advanceBits64 bits rs = advanceBits bits.toNat rs := by
  rw [advanceBits64, toNat_touched, Nat.mod_eq_of_lt h, UInt64.toNat_div, UInt64.toNat_mod]
  rfl

theorem WriteStream.advanceBits64_eq {bits : UInt64} {ws : WriteStream}
    (h : bits.toNat + ws.bitPos + 7 < 2 ^ 64) :
    advanceBits64 bits ws = advanceBits bits.toNat ws := by
  rw [advanceBits64, toNat_touched, Nat.mod_eq_of_lt h, UInt64.toNat_div, UInt64.toNat_mod]
  rfl

/-! ### Places -/

/-- The size of the buffer, and the byte and the bit at which a stream stands. -/
structure Place where
  size : ℕ
  bytePos : ℕ
  bitPos : ℕ
  deriving DecidableEq, Repr

namespace Place

/-- The position in bits. -/
def bits (p : Place) : ℕ := 8 * p.bytePos + p.bitPos

def remaining (p : Place) : ℕ := p.size - p.bytePos

/-- The place is one that `seek` accepts. -/
structure Standing (p : Place) : Prop where
  inBuffer : p.bytePos ≤ p.size
  inByte : p.bitPos ≤ 8
  inData : p.bitPos ≠ 0 → p.bytePos < p.size

/-- `serializeBits` succeeds, and with how many bits it moves. -/
def moveBits (valueBits n : ℕ) (p : Place) : Bool × Place :=
  if n = 0 then (true, p)
  else if n > min (64 - 7) valueBits then (false, p)
  else if p.remaining < (n + p.bitPos + 7) / 8 then (false, p)
  else (true, ⟨p.size, p.bytePos + (p.bitPos + n) / 8, (p.bitPos + n) % 8⟩)

def moveBytes (n : ℕ) (p : Place) : Bool × Place :=
  if p.remaining < n then (false, p) else (true, { p with bytePos := p.bytePos + n })

/-- One operation after another, the second if the first succeeds. -/
def andThen (f g : Place → Bool × Place) (p : Place) : Bool × Place :=
  if (f p).1 then g (f p).2 else f p

/-- The one operation off a byte boundary, and the bytes on one. -/
def offOr (off : Place → Bool × Place) (n : ℕ) (p : Place) : Bool × Place :=
  if p.bitPos ≠ 0 then off p else moveBytes n p

def moveWords : ℕ → Place → Bool × Place
  | 0 => fun p => (true, p)
  | n + 1 => andThen (moveBits 32 32) (moveWords n)

def advanceBits (bits : UInt64) (p : Place) : Bool × Place :=
  if p.remaining < ((bits + UInt64.ofNat p.bitPos + 7) / 8).toNat then (false, p)
  else andThen (moveWords (bits / 32).toNat) (moveBits 32 (bits % 32).toNat) p

def advanceBytes (bytes : UInt64) : Place → Bool × Place :=
  offOr (andThen (advanceBits (8 * bytes)) (moveBytes bytes.toNat)) bytes.toNat

end Place

/-! ### Streams move as their places do -/

section Moves

variable {σ α β : Type} {place : σ → Place}

/-- Whether an operation succeeds, and where it leaves the stream. -/
def outcome (place : σ → Place) : EStateM.Result String σ α → Bool × Place
  | .ok _ s => (true, place s)
  | .error _ s => (false, place s)

/-- The operation moves as `f` does. -/
def Moves (place : σ → Place) (x : EStateM String σ α) (f : Place → Bool × Place) : Prop :=
  ∀ s, outcome place (x s) = f (place s)

theorem Moves.pure (a : α) : Moves place (Pure.pure a) fun p => (true, p) := fun _ => rfl

theorem Moves.bind {x : EStateM String σ α} {y : α → EStateM String σ β}
    {f g : Place → Bool × Place} (hx : Moves place x f) (hy : ∀ a, Moves place (y a) g) :
    Moves place (x >>= y) (Place.andThen f g) := by
  intro s
  have hs := hx s
  rw [Place.andThen, ← hs]
  cases hrun : x s with
  | ok a t =>
    rw [bind_ok hrun, outcome, if_pos rfl]
    exact hy a t
  | error e t =>
    rw [bind_error hrun]
    rfl

theorem Moves.map {x : EStateM String σ α} {f : Place → Bool × Place} (hx : Moves place x f)
    (g : α → β) : Moves place (g <$> x) f := by
  intro s
  have hmap : g <$> x = x >>= fun a => Pure.pure (g a) := rfl
  rw [hmap, (hx.bind fun a => Moves.pure (g a)) s, Place.andThen]
  split_ifs with h
  · exact Prod.ext h.symm rfl
  · rfl

end Moves

namespace ReadStream

def place (rs : ReadStream) : Place := ⟨rs.data.length, rs.bytePos, rs.bitPos⟩

theorem moves_serializeBits (valueBits n : ℕ) :
    Moves place (serializeBits valueBits n) (Place.moveBits valueBits n) := by
  intro rs
  rw [serializeBits, Place.moveBits]
  by_cases hn : n = 0
  · rw [if_pos hn, if_pos hn]
    rfl
  rw [if_neg hn, if_neg hn]
  by_cases hmax : n > min (64 - 7) valueBits
  · rw [if_pos hmax, if_pos hmax]
    rfl
  rw [if_neg hmax, if_neg hmax]
  by_cases hroom : rs.remaining < (n + rs.bitPos + 7) / 8
  · rw [if_pos (show rs.place.remaining < (n + rs.place.bitPos + 7) / 8 from hroom)]
    dsimp only
    rw [if_pos hroom]
    rfl
  · rw [if_neg (show ¬ rs.place.remaining < (n + rs.place.bitPos + 7) / 8 from hroom)]
    dsimp only
    rw [if_neg hroom]
    rfl

theorem moves_advanceWords (n : ℕ) : Moves place (advanceWords n) (Place.moveWords n) := by
  induction n with
  | zero => exact Moves.pure ()
  | succ n ih => exact (moves_serializeBits 32 32).bind fun _ => ih

theorem moves_advanceBits64 (bits : UInt64) :
    Moves place (advanceBits64 bits) (Place.advanceBits bits) := by
  intro rs
  rw [advanceBits64, Place.advanceBits]
  by_cases hroom : rs.remaining < ((bits + UInt64.ofNat rs.bitPos + 7) / 8).toNat
  · rw [if_pos hroom, if_pos (by exact hroom)]
    rfl
  · rw [if_neg hroom, if_neg (by exact hroom)]
    exact (moves_advanceWords _).bind (fun _ => (moves_serializeBits 32 _).map fun _ => ()) rs

/-- Reading bytes on a byte boundary. -/
theorem moves_take {α : Type} (n : ℕ) (f : ReadStream → α) :
    Moves place (fun rs => if rs.remaining < n then .error "out of data to read" rs
      else .ok (f rs) (rs.advance n)) (Place.moveBytes n) := by
  intro rs
  dsimp only
  rw [Place.moveBytes]
  by_cases hroom : rs.remaining < n
  · rw [if_pos hroom, if_pos (by exact hroom)]
    rfl
  · rw [if_neg hroom, if_neg (by exact hroom)]
    rfl

theorem moves_skipBytes (n : ℕ) : Moves place (skipBytes n) (Place.moveBytes n) :=
  moves_take n fun _ => ()

theorem moves_offOr {α : Type} {r off aligned : Reader α} {f : Place → Bool × Place} {n : ℕ}
    (hr : ∀ rs, r rs = if rs.bitPos ≠ 0 then off rs else aligned rs) (hoff : Moves place off f)
    (haligned : Moves place aligned (Place.moveBytes n)) : Moves place r (Place.offOr f n) := by
  intro rs
  rw [hr, Place.offOr]
  by_cases hbit : rs.bitPos ≠ 0
  · rw [if_pos hbit, if_pos (by exact hbit)]
    exact hoff rs
  · rw [if_neg hbit, if_neg (by exact hbit)]
    exact haligned rs

theorem moves_refuse {α : Type} (e : String) :
    Moves place (fun rs => .error e rs : Reader α) fun p => (false, p) := fun _ => rfl

end ReadStream

namespace WriteStream

def place (ws : WriteStream) : Place := ⟨ws.data.length, ws.bytePos, ws.bitPos⟩

/-- The bytes that are overwritten are in the buffer. -/
theorem place_put {ws : WriteStream} {bytes : List UInt8} (h : bytes.length ≤ ws.remaining)
    (k b : ℕ) : place ⟨ws.put bytes, k, b⟩ = ⟨ws.data.length, k, b⟩ := by
  have hlength : (ws.put bytes).length = ws.data.length := by
    rw [remaining] at h
    rw [put, List.length_append, List.length_append, List.length_take, List.length_drop]
    omega
  rw [place, hlength]

theorem moves_serializeBits (valueBits : ℕ) (value : UInt64) (n : ℕ) :
    Moves place (serializeBits valueBits value n) (Place.moveBits valueBits n) := by
  intro ws
  rw [serializeBits, Place.moveBits]
  by_cases hn : n = 0
  · rw [if_pos hn, if_pos hn]
    rfl
  rw [if_neg hn, if_neg hn]
  by_cases hmax : n > min (64 - 7) valueBits
  · rw [if_pos hmax, if_pos hmax]
    rfl
  rw [if_neg hmax, if_neg hmax]
  dsimp only
  by_cases hroom : ws.remaining < (n + ws.bitPos + 7) / 8
  · rw [if_pos hroom, if_pos (by exact hroom)]
    rfl
  · rw [if_neg hroom, if_neg (show ¬ ws.place.remaining < (n + ws.place.bitPos + 7) / 8 from hroom),
      outcome, place_put]
    · rfl
    · rw [List.length_take]
      omega

theorem moves_advanceWords (n : ℕ) : Moves place (advanceWords n) (Place.moveWords n) := by
  induction n with
  | zero => exact Moves.pure ()
  | succ n ih => exact (moves_serializeBits 32 0 32).bind fun _ => ih

theorem moves_advanceBits64 (bits : UInt64) :
    Moves place (advanceBits64 bits) (Place.advanceBits bits) := by
  intro ws
  rw [advanceBits64, Place.advanceBits]
  by_cases hroom : ws.remaining < ((bits + UInt64.ofNat ws.bitPos + 7) / 8).toNat
  · rw [if_pos hroom, if_pos (by exact hroom)]
    rfl
  · rw [if_neg hroom, if_neg (by exact hroom)]
    exact (moves_advanceWords _).bind (fun _ => moves_serializeBits 32 0 _) ws

theorem moves_putAligned (bytes : List UInt8) :
    Moves place (putAligned bytes) (Place.moveBytes bytes.length) := by
  intro ws
  rw [putAligned, Place.moveBytes]
  by_cases hroom : ws.remaining < bytes.length
  · rw [if_pos hroom, if_pos (by exact hroom)]
    rfl
  · rw [if_neg hroom, if_neg (by exact hroom), outcome, place_put (by omega)]
    rfl

theorem moves_put {bytes : List UInt8} {n : ℕ} (h : bytes.length = n) :
    Moves place (putAligned bytes) (Place.moveBytes n) :=
  h ▸ moves_putAligned bytes

theorem moves_offOr {w off aligned : Writer} {f : Place → Bool × Place} {n : ℕ}
    (hw : ∀ ws, w ws = if ws.bitPos ≠ 0 then off ws else aligned ws) (hoff : Moves place off f)
    (haligned : Moves place aligned (Place.moveBytes n)) : Moves place w (Place.offOr f n) := by
  intro ws
  rw [hw, Place.offOr]
  by_cases hbit : ws.bitPos ≠ 0
  · rw [if_pos hbit, if_pos (by exact hbit)]
    exact hoff ws
  · rw [if_neg hbit, if_neg (by exact hbit)]
    exact haligned ws

theorem moves_refuse (e : String) :
    Moves place (fun ws => .error e ws : Writer) fun p => (false, p) := fun _ => rfl

end WriteStream

/-! ### Exact moves -/

namespace Place

/-- A success moves the position forward by the width, within the buffer; a failure
leaves it. -/
structure Exact (p : Place) (width : ℕ) (r : Bool × Place) : Prop where
  forward : r.1 = true → r.2.size = p.size ∧ r.2.bits = p.bits + width ∧ r.2.bits ≤ 8 * r.2.size
  stays : r.1 = false → r.2 = p

variable {p : Place}

theorem exact_refuse (width : ℕ) : Exact p width (false, p) :=
  ⟨fun h => (Bool.false_ne_true h).elim, fun _ => rfl⟩

theorem Standing.bits_le (h : p.Standing) : p.bits ≤ 8 * p.size := by
  have hbuffer := h.inBuffer
  have hbyte := h.inByte
  rcases Nat.eq_zero_or_pos p.bitPos with hzero | hpos
  · rw [bits]
    omega
  · have hdata := h.inData (by omega)
    rw [bits]
    omega

theorem exact_moveBits (h : p.Standing) (valueBits n : ℕ) :
    Exact p n (moveBits valueBits n p) := by
  have hle := h.bits_le
  rw [moveBits]
  split_ifs with hn hmax hroom
  · exact ⟨fun _ => ⟨rfl, by rw [hn, add_zero], hle⟩, fun h => (Bool.false_ne_true h.symm).elim⟩
  · exact exact_refuse n
  · exact exact_refuse n
  · refine ⟨fun _ => ⟨rfl, ?_, ?_⟩, fun h => (Bool.false_ne_true h.symm).elim⟩
    · simp only [bits]
      omega
    · simp only [bits, remaining] at *
      omega

/-- Bytes on a byte boundary. -/
theorem exact_moveBytes (h : p.Standing) (hbit : p.bitPos = 0) (n : ℕ) :
    Exact p (8 * n) (moveBytes n p) := by
  have hbuffer := h.inBuffer
  rw [moveBytes]
  split_ifs with hroom
  · exact exact_refuse _
  · refine ⟨fun _ => ⟨rfl, ?_, ?_⟩, fun h => (Bool.false_ne_true h.symm).elim⟩
    · simp only [bits]
      omega
    · simp only [bits, remaining] at *
      omega

theorem exact_offOr {off : Place → Bool × Place} {n : ℕ} (h : p.Standing)
    (hoff : p.bitPos ≠ 0 → Exact p (8 * n) (off p)) : Exact p (8 * n) (offOr off n p) := by
  rw [offOr]
  split_ifs with hbit
  · exact hoff hbit
  · exact exact_moveBytes h (not_not.mp hbit) n

/-- The place at a bit of the buffer. -/
def ofBits (size b : ℕ) : Place := ⟨size, b / 8, b % 8⟩

theorem bits_ofBits (size b : ℕ) : (ofBits size b).bits = b := Nat.div_add_mod b 8

theorem standing_ofBits {size b : ℕ} (h : b ≤ 8 * size) : (ofBits size b).Standing := by
  refine ⟨?_, ?_, ?_⟩ <;> simp only [ofBits] <;> omega

/-- A field moves to its end when there is room for it. -/
theorem moveBits_eq (h : p.Standing) (valueBits : ℕ) {n : ℕ} (hn : 1 ≤ n)
    (hmax : n ≤ min 57 valueBits) :
    moveBits valueBits n p =
      if p.bits + n ≤ 8 * p.size then (true, ofBits p.size (p.bits + n)) else (false, p) := by
  have hbuffer := h.inBuffer
  have hiff : p.remaining < (n + p.bitPos + 7) / 8 ↔ ¬ p.bits + n ≤ 8 * p.size := by
    simp only [bits, remaining]
    omega
  rw [moveBits, if_neg (by omega), if_neg (by omega)]
  by_cases hroom : p.bits + n ≤ 8 * p.size
  · rw [if_neg (by rw [hiff]; exact not_not.mpr hroom), if_pos hroom, ofBits, bits]
    congr 2
    · omega
    · omega
  · rw [if_pos (hiff.mpr hroom), if_neg hroom]

/-- Words of 32 bits that there is room for. -/
theorem moveWords_fits (h : p.Standing) (k : ℕ) (hroom : p.bits + 32 * k ≤ 8 * p.size) :
    (moveWords k p).1 = true ∧ (moveWords k p).2.bits = p.bits + 32 * k ∧
      (moveWords k p).2.size = p.size ∧ (moveWords k p).2.Standing := by
  induction k generalizing p with
  | zero => exact ⟨rfl, rfl, rfl, h⟩
  | succ k ih =>
    have hword := moveBits_eq h 32 (n := 32) (by norm_num) (by norm_num)
    rw [if_pos (by omega)] at hword
    have hrest := ih (standing_ofBits (show p.bits + 32 ≤ 8 * p.size by omega))
      (by rw [bits_ofBits]; simp only [ofBits]; omega)
    rw [bits_ofBits] at hrest
    rw [moveWords, andThen, hword, if_pos rfl]
    exact ⟨hrest.1, by rw [hrest.2.1]; omega, hrest.2.2⟩

theorem bits_le_moveWords (h : p.Standing) (k : ℕ) : p.bits ≤ (moveWords k p).2.bits := by
  induction k generalizing p with
  | zero => exact le_rfl
  | succ k ih =>
    have hword := moveBits_eq h 32 (n := 32) (by norm_num) (by norm_num)
    rw [moveWords, andThen, hword]
    by_cases hroom : p.bits + 32 ≤ 8 * p.size
    · have hrest := ih (standing_ofBits hroom)
      rw [bits_ofBits] at hrest
      rw [if_pos hroom, if_pos rfl]
      exact le_trans (Nat.le_add_right _ _) hrest
    · rw [if_neg hroom, if_neg Bool.false_ne_true]

/-- Words that there is no room for: a failure, behind those that fit. -/
theorem moveWords_short (h : p.Standing) (k : ℕ) (hroom : 8 * p.size < p.bits + 32 * k) :
    (moveWords k p).1 = false ∧ ((moveWords k p).2 = p ↔ 8 * p.size < p.bits + 32) := by
  induction k generalizing p with
  | zero =>
    have hle := h.bits_le
    omega
  | succ k ih =>
    have hword := moveBits_eq h 32 (n := 32) (by norm_num) (by norm_num)
    rw [moveWords, andThen, hword]
    by_cases hfirst : p.bits + 32 ≤ 8 * p.size
    · have hstanding := standing_ofBits hfirst
      have hrest := ih hstanding (by rw [bits_ofBits]; simp only [ofBits]; omega)
      have hle := bits_le_moveWords hstanding k
      rw [bits_ofBits] at hle
      rw [if_pos hfirst, if_pos rfl]
      refine ⟨hrest.1, iff_of_false ?_ (by omega)⟩
      intro heq
      rw [heq] at hle
      omega
    · rw [if_neg hfirst, if_neg Bool.false_ne_true]
      exact ⟨rfl, iff_of_true rfl (by omega)⟩

/-- The last bits, of less than a word. -/
theorem moveBits_rest (h : p.Standing) {n : ℕ} (hn : n < 32) :
    (moveBits 32 n p).1 = true ↔ p.bits + n ≤ 8 * p.size := by
  have hle := h.bits_le
  rcases Nat.eq_zero_or_pos n with rfl | hpos
  · exact iff_of_true rfl hle
  · rw [moveBits_eq h 32 hpos (by omega)]
    by_cases hroom : p.bits + n ≤ 8 * p.size
    · rw [if_pos hroom]
      exact iff_of_true rfl hroom
    · rw [if_neg hroom]
      exact iff_of_false Bool.false_ne_true hroom

/-- The check before the bits are skipped: it is passed when there is room, or when the
number of bytes wraps around and there is a byte. -/
theorem check_iff (h : p.Standing) (n : UInt64) :
    p.remaining < ((n + UInt64.ofNat p.bitPos + 7) / 8).toNat ↔
      8 * p.size < p.bits + n.toNat ∧ (n.toNat + p.bitPos + 7 < 2 ^ 64 ∨
        (p.remaining = 0 ∧ 2 ^ 64 + 1 ≤ n.toNat + p.bitPos)) := by
  have hbyte := h.inByte
  have hbuffer := h.inBuffer
  have hdata := h.inData
  have hlt := n.toNat_lt
  rw [toNat_touched]
  simp only [bits, remaining] at *
  omega

/-- Bits that there is room for are skipped. -/
theorem advanceBits_fits (h : p.Standing) {n : UInt64} (hroom : p.bits + n.toNat ≤ 8 * p.size) :
    (advanceBits n p).1 = true ∧ (advanceBits n p).2.bits = p.bits + n.toNat ∧
      (advanceBits n p).2.size = p.size := by
  have hsplit := Nat.div_add_mod n.toNat 32
  obtain ⟨htrue, hbits, hsize, hstanding⟩ := moveWords_fits h (n.toNat / 32) (by omega)
  have hmove := (moveBits_rest hstanding (Nat.mod_lt n.toNat (by norm_num))).mpr (by omega)
  obtain ⟨hsize', hbits', -⟩ := (exact_moveBits hstanding 32 (n.toNat % 32)).forward hmove
  rw [advanceBits, if_neg (by rw [check_iff h]; omega), UInt64.toNat_div, UInt64.toNat_mod, andThen,
    show (32 : UInt64).toNat = 32 from rfl, htrue, if_pos rfl]
  exact ⟨hmove, by omega, hsize'.trans hsize⟩

/-- Bits that there is no room for: a failure, which stays where it was unless the
number of bytes wraps around and there is room for a word. -/
theorem advanceBits_short (h : p.Standing) {n : UInt64} (hroom : 8 * p.size < p.bits + n.toNat) :
    (advanceBits n p).1 = false ∧ ((advanceBits n p).2 = p ↔
      (n.toNat + p.bitPos + 7 < 2 ^ 64 ∨ 8 * p.size < p.bits + 32)) := by
  have hcheck := check_iff h n
  rw [advanceBits]
  by_cases hfew : p.remaining < ((n + UInt64.ofNat p.bitPos + 7) / 8).toNat
  · rw [if_pos hfew]
    refine ⟨rfl, iff_of_true rfl ?_⟩
    have hbuffer := h.inBuffer
    rcases (hcheck.mp hfew).2 with hsmall | ⟨hnone, -⟩
    · exact Or.inl hsmall
    · simp only [bits, remaining] at *
      omega
  -- the number of bytes wraps around
  have hwrap : 2 ^ 64 ≤ n.toNat + p.bitPos + 7 := by
    rw [hcheck] at hfew
    omega
  have hbyte := h.inByte
  have hsplit := Nat.div_add_mod n.toNat 32
  rw [if_neg hfew, UInt64.toNat_div, UInt64.toNat_mod, show (32 : UInt64).toNat = 32 from rfl, andThen]
  by_cases hwords : p.bits + 32 * (n.toNat / 32) ≤ 8 * p.size
  · obtain ⟨htrue, hbits, hsize, hstanding⟩ := moveWords_fits h (n.toNat / 32) hwords
    have hlast := moveBits_rest hstanding (Nat.mod_lt n.toNat (by norm_num))
    have hfalse : (moveBits 32 (n.toNat % 32) (moveWords (n.toNat / 32) p).2).1 = false := by
      rw [← Bool.not_eq_true, hlast]
      omega
    rw [htrue, if_pos rfl]
    refine ⟨hfalse, iff_of_false ?_ (by omega)⟩
    rw [(exact_moveBits hstanding 32 (n.toNat % 32)).stays hfalse]
    intro heq
    rw [heq] at hbits
    omega
  · obtain ⟨hfalse, hiff⟩ := moveWords_short h (n.toNat / 32) (by omega)
    rw [hfalse, if_neg Bool.false_ne_true]
    exact ⟨hfalse, by rw [hiff]; omega⟩

/-- The number of bytes wraps around, and there is room for a word but not for all bits. -/
def AdvanceBitsSlips (p : Place) (n : UInt64) : Prop :=
  2 ^ 64 ≤ n.toNat + p.bitPos + 7 ∧ p.bits + 32 ≤ 8 * p.size ∧ 8 * p.size < p.bits + n.toNat

theorem exact_advanceBits_iff (h : p.Standing) (n : UInt64) :
    Exact p n.toNat (advanceBits n p) ↔ ¬ p.AdvanceBitsSlips n := by
  by_cases hroom : p.bits + n.toNat ≤ 8 * p.size
  · obtain ⟨htrue, hbits, hsize⟩ := advanceBits_fits h hroom
    refine iff_of_true ⟨fun _ => ⟨hsize, hbits, by omega⟩, fun hfalse => ?_⟩ ?_
    · rw [htrue] at hfalse
      cases hfalse
    · rintro ⟨-, -, hshort⟩
      omega
  · obtain ⟨hfalse, hiff⟩ := advanceBits_short h (not_le.mp hroom)
    constructor
    · rintro hexact ⟨hwrap, hword, -⟩
      have hstays := hiff.mp (hexact.stays hfalse)
      omega
    · intro hslips
      refine ⟨fun htrue => ?_, fun _ => hiff.mpr ?_⟩
      · rw [hfalse] at htrue
        cases htrue
      · by_contra hnot
        exact hslips ⟨by omega, by omega, by omega⟩

/-- Off a byte boundary, some bits are skipped before the bytes are: there is room for
them, or the number of bytes wraps around and there is room for a word. The number of
bits may itself wrap around to none; then the bytes may end where the buffer does,
with bits of the position behind it. -/
def AdvanceBytesSlips (p : Place) (n : UInt64) : Prop :=
  p.bitPos ≠ 0 ∧
    if 8 * n = 0 then n ≠ 0 ∧ p.remaining = n.toNat
    else p.bits + (8 * n).toNat ≤ 8 * p.size ∨
      (2 ^ 64 ≤ (8 * n).toNat + p.bitPos + 7 ∧ p.bits + 32 ≤ 8 * p.size)

theorem advanceBits_zero (h : p.Standing) : advanceBits 0 p = (true, p) := by
  have hle := h.bits_le
  rw [advanceBits, if_neg]
  · rfl
  · rw [check_iff h]
    have hzero : (0 : UInt64).toNat = 0 := rfl
    omega

/-- Bytes off a byte boundary, when there is no other move. -/
theorem exact_moveBytes_iff (h : p.Standing) (hbit : p.bitPos ≠ 0) (n : UInt64) :
    Exact p (8 * n.toNat) (moveBytes n.toNat p) ↔ ¬ (n ≠ 0 ∧ p.remaining = n.toNat) := by
  have hdata := h.inData hbit
  have hbyte := h.inByte
  have hzero : n ≠ 0 ↔ n.toNat ≠ 0 := not_congr UInt64.toNat_inj.symm
  rw [hzero, moveBytes]
  by_cases hroom : p.remaining < n.toNat
  · rw [if_pos hroom]
    exact iff_of_true (exact_refuse _) (by omega)
  · rw [if_neg hroom]
    constructor
    · rintro hexact ⟨hne, heq⟩
      have hend := (hexact.forward rfl).2.2
      simp only [bits, remaining] at *
      omega
    · intro hslips
      refine ⟨fun _ => ⟨rfl, ?_, ?_⟩, fun hfalse => (Bool.false_ne_true hfalse.symm).elim⟩
      · simp only [bits]
        omega
      · simp only [bits, remaining] at *
        omega

theorem exact_advanceBytes_iff (h : p.Standing) (n : UInt64) :
    Exact p (8 * n.toNat) (advanceBytes n p) ↔ ¬ p.AdvanceBytesSlips n := by
  rcases eq_or_ne p.bitPos 0 with hbit | hbit
  · refine iff_of_true ?_ fun hslips => hslips.1 hbit
    exact exact_offOr h fun hne => absurd hbit hne
  rw [advanceBytes, offOr, if_pos hbit, andThen, AdvanceBytesSlips, and_iff_right hbit]
  by_cases hroom : p.bits + (8 * n).toNat ≤ 8 * p.size
  · obtain ⟨htrue, hbits, hsize⟩ := advanceBits_fits h hroom
    by_cases hzero : 8 * n = 0
    · rw [hzero, advanceBits_zero h, if_pos rfl, if_pos rfl]
      exact exact_moveBytes_iff h hbit n
    · have hpos : (8 * n).toNat ≠ 0 := fun hnone => hzero (UInt64.toNat_inj.mp hnone)
      rw [htrue, if_pos rfl, if_neg hzero]
      refine iff_of_false ?_ (not_not.mpr (Or.inl hroom))
      -- a position that has moved once is neither kept nor moved by the width
      rw [moveBytes]
      by_cases hfew : (advanceBits (8 * n) p).2.remaining < n.toNat
      · rw [if_pos hfew]
        intro hexact
        rw [hexact.stays rfl] at hbits
        omega
      · rw [if_neg hfew]
        intro hexact
        have hmoved := (hexact.forward rfl).2.1
        simp only [bits] at hmoved hbits
        omega
  · obtain ⟨hfalse, hiff⟩ := advanceBits_short h (not_le.mp hroom)
    have hne : 8 * n ≠ 0 := by
      intro hzero
      rw [hzero] at hroom
      exact hroom h.bits_le
    rw [hfalse, if_neg Bool.false_ne_true, if_neg hne]
    constructor
    · intro hexact hslips
      have hstays := hiff.mp (hexact.stays hfalse)
      omega
    · intro hslips
      refine ⟨fun htrue => ?_, fun _ => hiff.mpr (by omega)⟩
      rw [hfalse] at htrue
      cases htrue

end Place

/-- `seek` puts a stream where it stands exactly at a place that it accepts. -/
theorem ReadStream.seek_self_iff (rs : ReadStream) :
    rs.seek (some rs.bytePos) rs.bitPos = (true, rs) ↔ rs.place.Standing := by
  have hiff : rs.place.Standing ↔ ¬ rs.bitPos > 8 ∧ ¬ rs.bytePos > rs.data.length ∧
      ¬ (rs.bytePos = rs.data.length ∧ rs.bitPos > 0) := by
    constructor
    · rintro ⟨hbuffer, hbyte, hdata⟩
      simp only [place] at *
      omega
    · rintro ⟨hbyte, hbuffer, hend⟩
      exact ⟨not_lt.mp hbuffer, not_lt.mp hbyte, fun hbit => by simp only [place] at *; omega⟩
  rw [hiff, seek]
  split_ifs with hbyte hbuffer hend
  · exact iff_of_false (fun h => Bool.false_ne_true (congrArg Prod.fst h)) fun h => h.1 hbyte
  · exact iff_of_false (fun h => Bool.false_ne_true (congrArg Prod.fst h)) fun h => h.2.1 hbuffer
  · exact iff_of_false (fun h => Bool.false_ne_true (congrArg Prod.fst h)) fun h => h.2.2 hend
  · exact iff_of_true rfl ⟨hbyte, hbuffer, hend⟩

/-- `seek` is the same for both streams. -/
theorem WriteStream.seek_self_iff (ws : WriteStream) :
    ws.seek (some ws.bytePos) ws.bitPos = (true, ws) ↔ ws.place.Standing := by
  have hread := ReadStream.seek_self_iff ⟨ws.data, ws.bytePos, ws.bitPos⟩
  rw [show ws.place = (⟨ws.data, ws.bytePos, ws.bitPos⟩ : ReadStream).place from rfl, ← hread,
    seek, ReadStream.seek]
  split_ifs
  · exact iff_of_false (fun h => Bool.false_ne_true (congrArg Prod.fst h))
      fun h => Bool.false_ne_true (congrArg Prod.fst h)
  · exact iff_of_false (fun h => Bool.false_ne_true (congrArg Prod.fst h))
      fun h => Bool.false_ne_true (congrArg Prod.fst h)
  · exact iff_of_false (fun h => Bool.false_ne_true (congrArg Prod.fst h))
      fun h => Bool.false_ne_true (congrArg Prod.fst h)
  · exact iff_of_true rfl rfl

/-! ### Calls -/

/-- The operations of `ReadStream`. -/
inductive ReadOp
  | serializeBits (valueBits bits : ℕ)
  | serializeByte
  | serializeUint16
  | serializeUint32
  | serializeUint64
  | serializeBytes (n : ℕ)
  | advanceBits (bits : UInt64)
  | advanceBytes (bytes : UInt64)

/-- The operations of `WriteStream`. -/
inductive WriteOp
  | serializeBits (valueBits : ℕ) (value : UInt64) (bits : ℕ)
  | serializeByte (value : UInt8)
  | serializeUint16 (value : UInt16)
  | serializeUint32 (value : UInt32)
  | serializeUint64 (value : UInt64)
  | serializeBytes (bytes : List UInt8)
  | advanceBits (bits : UInt64)
  | advanceBytes (bytes : UInt64)

namespace ReadOp

/-- Whether the operation succeeds, and where it leaves the stream. -/
def result (rs : ReadStream) : ReadOp → Bool × Place
  | serializeBits valueBits n => outcome ReadStream.place (ReadStream.serializeBits valueBits n rs)
  | serializeByte => outcome ReadStream.place (ReadStream.serializeByte rs)
  | serializeUint16 => outcome ReadStream.place (ReadStream.serializeUint16 rs)
  | serializeUint32 => outcome ReadStream.place (ReadStream.serializeUint32 rs)
  | serializeUint64 => outcome ReadStream.place (ReadStream.serializeUint64 rs)
  | serializeBytes n => outcome ReadStream.place (ReadStream.serializeBytes n rs)
  | advanceBits n => outcome ReadStream.place (ReadStream.advanceBits64 n rs)
  | advanceBytes n => outcome ReadStream.place (ReadStream.advanceBytes64 n rs)

/-- How many bits the operation is to move. -/
def width : ReadOp → ℕ
  | serializeBits _ n => n
  | serializeByte => 8
  | serializeUint16 => 16
  | serializeUint32 => 32
  | serializeUint64 => 64
  | serializeBytes n => 8 * n
  | advanceBits n => n.toNat
  | advanceBytes n => 8 * n.toNat

/-- How the operation moves. -/
def move : ReadOp → Place → Bool × Place
  | serializeBits valueBits n => Place.moveBits valueBits n
  | serializeByte => Place.offOr (Place.moveBits 32 8) 1
  | serializeUint16 => Place.offOr (Place.moveBits 32 16) 2
  | serializeUint32 => Place.offOr (Place.moveBits 32 32) 4
  | serializeUint64 => Place.offOr (fun p => (false, p)) 8
  | serializeBytes n => Place.offOr (fun p => (false, p)) n
  | advanceBits n => Place.advanceBits n
  | advanceBytes n => Place.advanceBytes n

theorem result_eq (op : ReadOp) (rs : ReadStream) : op.result rs = op.move rs.place := by
  cases op with
  | serializeBits valueBits n => exact ReadStream.moves_serializeBits valueBits n rs
  | serializeByte =>
    exact ReadStream.moves_offOr (fun _ => rfl)
      ((ReadStream.moves_serializeBits 32 8).map UInt64.toUInt8)
      (ReadStream.moves_take 1 fun rs => UInt8.ofNat (BigEndian.beNat (rs.next 1))) rs
  | serializeUint16 =>
    exact ReadStream.moves_offOr (fun _ => rfl)
      ((ReadStream.moves_serializeBits 32 16).map fun v => byteswap16 v.toUInt16)
      (ReadStream.moves_take 2 fun rs => UInt16.ofNat (BigEndian.beNat (rs.next 2))) rs
  | serializeUint32 =>
    exact ReadStream.moves_offOr (fun _ => rfl)
      ((ReadStream.moves_serializeBits 32 32).map fun v => byteswap32 v.toUInt32)
      (ReadStream.moves_take 4 fun rs => UInt32.ofNat (BigEndian.beNat (rs.next 4))) rs
  | serializeUint64 =>
    exact ReadStream.moves_offOr (fun _ => rfl) (ReadStream.moves_refuse "not implemented")
      (ReadStream.moves_take 8 fun rs => UInt64.ofNat (BigEndian.beNat (rs.next 8))) rs
  | serializeBytes n =>
    exact ReadStream.moves_offOr (fun _ => rfl) (ReadStream.moves_refuse "not implemented")
      (ReadStream.moves_take n fun rs => rs.next n) rs
  | advanceBits n => exact ReadStream.moves_advanceBits64 n rs
  | advanceBytes n =>
    exact ReadStream.moves_offOr (fun _ => rfl)
      ((ReadStream.moves_advanceBits64 _).bind fun _ => ReadStream.moves_skipBytes _)
      (ReadStream.moves_skipBytes _) rs

end ReadOp

namespace WriteOp

/-- Whether the operation succeeds, and where it leaves the stream. -/
def result (ws : WriteStream) : WriteOp → Bool × Place
  | serializeBits valueBits value n =>
    outcome WriteStream.place (WriteStream.serializeBits valueBits value n ws)
  | serializeByte value => outcome WriteStream.place (WriteStream.serializeByte value ws)
  | serializeUint16 value => outcome WriteStream.place (WriteStream.serializeUint16 value ws)
  | serializeUint32 value => outcome WriteStream.place (WriteStream.serializeUint32 value ws)
  | serializeUint64 value => outcome WriteStream.place (WriteStream.serializeUint64 value ws)
  | serializeBytes bytes => outcome WriteStream.place (WriteStream.serializeBytes bytes ws)
  | advanceBits n => outcome WriteStream.place (WriteStream.advanceBits64 n ws)
  | advanceBytes n => outcome WriteStream.place (WriteStream.advanceBytes64 n ws)

/-- How many bits the operation is to move. -/
def width : WriteOp → ℕ
  | serializeBits _ _ n => n
  | serializeByte _ => 8
  | serializeUint16 _ => 16
  | serializeUint32 _ => 32
  | serializeUint64 _ => 64
  | serializeBytes bytes => 8 * bytes.length
  | advanceBits n => n.toNat
  | advanceBytes n => 8 * n.toNat

/-- How the operation moves; of an integer of 64 bits, 32 are written off a byte
boundary. -/
def move : WriteOp → Place → Bool × Place
  | serializeBits valueBits _ n => Place.moveBits valueBits n
  | serializeByte _ => Place.offOr (Place.moveBits 8 8) 1
  | serializeUint16 _ => Place.offOr (Place.moveBits 16 16) 2
  | serializeUint32 _ => Place.offOr (Place.moveBits 32 32) 4
  | serializeUint64 _ => Place.offOr (Place.moveBits 64 32) 8
  | serializeBytes bytes => Place.offOr (fun p => (false, p)) bytes.length
  | advanceBits n => Place.advanceBits n
  | advanceBytes n => Place.advanceBytes n

theorem result_eq (op : WriteOp) (ws : WriteStream) : op.result ws = op.move ws.place := by
  cases op with
  | serializeBits valueBits value n => exact WriteStream.moves_serializeBits valueBits value n ws
  | serializeByte value =>
    exact WriteStream.moves_offOr (fun _ => rfl) (WriteStream.moves_serializeBits 8 _ 8)
      (WriteStream.moves_put (length_beBytes 1 _)) ws
  | serializeUint16 value =>
    exact WriteStream.moves_offOr (fun _ => rfl) (WriteStream.moves_serializeBits 16 _ 16)
      (WriteStream.moves_put (length_beBytes 2 _)) ws
  | serializeUint32 value =>
    exact WriteStream.moves_offOr (fun _ => rfl) (WriteStream.moves_serializeBits 32 _ 32)
      (WriteStream.moves_put (length_beBytes 4 _)) ws
  | serializeUint64 value =>
    exact WriteStream.moves_offOr (fun _ => rfl) (WriteStream.moves_serializeBits 64 _ 32)
      (WriteStream.moves_put (length_beBytes 8 _)) ws
  | serializeBytes bytes =>
    exact WriteStream.moves_offOr (fun _ => rfl) (WriteStream.moves_refuse _)
      (WriteStream.moves_put rfl) ws
  | advanceBits n => exact WriteStream.moves_advanceBits64 n ws
  | advanceBytes n =>
    exact WriteStream.moves_offOr (fun _ => rfl)
      ((WriteStream.moves_advanceBits64 _).bind fun _ =>
        WriteStream.moves_put (List.length_replicate ..))
      (WriteStream.moves_put (List.length_replicate ..)) ws

end WriteOp

/-- An operation of a stream. -/
inductive StreamCall
  | read (op : ReadOp) (rs : ReadStream)
  | write (op : WriteOp) (ws : WriteStream)

namespace StreamCall

def place : StreamCall → Place
  | read _ rs => rs.place
  | write _ ws => ws.place

def result : StreamCall → Bool × Place
  | read op rs => op.result rs
  | write op ws => op.result ws

def width : StreamCall → ℕ
  | read op _ => op.width
  | write op _ => op.width

/-- The bytes that `serializeBits` copies are more than those of its word. The other
operations copy at most five. -/
def Overruns : StreamCall → Prop
  | read (.serializeBits valueBits n) rs => n ≠ 0 ∧ n ≤ min (64 - 7) valueBits ∧
      (n + rs.bitPos + 7) / 8 ≤ rs.remaining ∧ 8 < (n + rs.bitPos + 7) / 8
  | write (.serializeBits valueBits _ n) ws => n ≠ 0 ∧ n ≤ min (64 - 7) valueBits ∧
      (n + ws.bitPos + 7) / 8 ≤ ws.remaining ∧ 8 < (n + ws.bitPos + 7) / 8
  | _ => False

/-- The call is defined, and moves by its width or not at all. -/
def Exact (c : StreamCall) : Prop := ¬ c.Overruns ∧ Place.Exact c.place c.width c.result

/-- 57 bits behind the last bit of a byte. -/
def BitsSlip (valueBits n : ℕ) (p : Place) : Prop :=
  n = 57 ∧ p.bitPos = 8 ∧ 57 ≤ valueBits ∧ 9 ≤ p.remaining

/-- The calls that move otherwise. -/
def Slips : StreamCall → Prop
  | read (.serializeBits valueBits n) rs => BitsSlip valueBits n rs.place
  | write (.serializeBits valueBits _ n) ws => BitsSlip valueBits n ws.place
  | write (.serializeUint64 _) ws => ws.bitPos ≠ 0 ∧ ws.place.bits + 32 ≤ 8 * ws.data.length
  | read (.advanceBits n) rs => rs.place.AdvanceBitsSlips n
  | write (.advanceBits n) ws => ws.place.AdvanceBitsSlips n
  | read (.advanceBytes n) rs => rs.place.AdvanceBytesSlips n
  | write (.advanceBytes n) ws => ws.place.AdvanceBytesSlips n
  | _ => False

def move : StreamCall → Place → Bool × Place
  | read op _ => op.move
  | write op _ => op.move

theorem result_eq (c : StreamCall) : c.result = c.move c.place := by
  cases c with
  | read op rs => exact op.result_eq rs
  | write op ws => exact op.result_eq ws

/-- Nine bytes are copied only for 57 bits behind the last bit of a byte. -/
theorem copies_nine_iff {p : Place} (h : p.Standing) (valueBits n : ℕ) :
    (n ≠ 0 ∧ n ≤ min (64 - 7) valueBits ∧ (n + p.bitPos + 7) / 8 ≤ p.remaining ∧
      8 < (n + p.bitPos + 7) / 8) ↔ BitsSlip valueBits n p := by
  have hbyte := h.inByte
  unfold BitsSlip
  omega

/-- `serializeBits` moves exactly; what slips is the word it copies. -/
theorem exact_bits_iff {p : Place} (h : p.Standing) (valueBits n : ℕ) {overruns : Prop}
    (hover : overruns ↔ BitsSlip valueBits n p) :
    (¬ overruns ∧ Place.Exact p n (Place.moveBits valueBits n p)) ↔ ¬ BitsSlip valueBits n p := by
  rw [hover]
  exact and_iff_left (Place.exact_moveBits h valueBits n)

/-- Of 64 bits off a byte boundary, 32 are moved. -/
theorem exact_half_iff {p : Place} (h : p.Standing) :
    Place.Exact p 64 (Place.offOr (Place.moveBits 64 32) 8 p) ↔
      ¬ (p.bitPos ≠ 0 ∧ p.bits + 32 ≤ 8 * p.size) := by
  rcases eq_or_ne p.bitPos 0 with hbit | hbit
  · refine iff_of_true ?_ fun hslips => hslips.1 hbit
    exact Place.exact_offOr (n := 8) h fun hne => absurd hbit hne
  rw [Place.offOr, if_pos hbit, Place.moveBits_eq h 64 (by norm_num) (by norm_num),
    and_iff_right hbit]
  by_cases hroom : p.bits + 32 ≤ 8 * p.size
  · rw [if_pos hroom]
    refine iff_of_false (fun hexact => ?_) (not_not.mpr hroom)
    have hmoved := (hexact.forward rfl).2.1
    rw [Place.bits_ofBits] at hmoved
    omega
  · rw [if_neg hroom]
    exact iff_of_true (Place.exact_refuse 64) hroom

/-- The operations that no call makes slip. -/
theorem exact_iff_of_never {c : StreamCall} (hover : ¬ c.Overruns) (hslips : ¬ c.Slips)
    (h : Place.Exact c.place c.width (c.move c.place)) : c.Exact ↔ ¬ c.Slips := by
  refine iff_of_true ⟨hover, ?_⟩ hslips
  rw [result_eq]
  exact h

/-- The operations that copy no more than their word holds. -/
theorem exact_iff_of_move {c : StreamCall} (hover : ¬ c.Overruns)
    (h : Place.Exact c.place c.width (c.move c.place) ↔ ¬ c.Slips) : c.Exact ↔ ¬ c.Slips := by
  rw [Exact, result_eq, and_iff_right hover]
  exact h

/-- A call on a stream at any byte and bit moves forward by the width of its operation
within the buffer, or fails and does not move, exactly when it is none of those that slip. -/
theorem exact_iff (c : StreamCall) (h : c.place.Standing) : c.Exact ↔ ¬ c.Slips := by
  cases c with
  | read op rs =>
    cases op with
    | serializeBits valueBits n =>
      rw [Exact, result_eq]
      exact exact_bits_iff h valueBits n (copies_nine_iff h valueBits n)
    | serializeByte =>
      exact exact_iff_of_never id id
        (Place.exact_offOr (n := 1) h fun _ => Place.exact_moveBits h 32 8)
    | serializeUint16 =>
      exact exact_iff_of_never id id
        (Place.exact_offOr (n := 2) h fun _ => Place.exact_moveBits h 32 16)
    | serializeUint32 =>
      exact exact_iff_of_never id id
        (Place.exact_offOr (n := 4) h fun _ => Place.exact_moveBits h 32 32)
    | serializeUint64 =>
      exact exact_iff_of_never id id
        (Place.exact_offOr (n := 8) h fun _ => Place.exact_refuse 64)
    | serializeBytes n =>
      exact exact_iff_of_never id id
        (Place.exact_offOr (n := n) h fun _ => Place.exact_refuse (8 * n))
    | advanceBits n => exact exact_iff_of_move id (Place.exact_advanceBits_iff h n)
    | advanceBytes n => exact exact_iff_of_move id (Place.exact_advanceBytes_iff h n)
  | write op ws =>
    cases op with
    | serializeBits valueBits value n =>
      rw [Exact, result_eq]
      exact exact_bits_iff h valueBits n (copies_nine_iff h valueBits n)
    | serializeByte value =>
      exact exact_iff_of_never id id
        (Place.exact_offOr (n := 1) h fun _ => Place.exact_moveBits h 8 8)
    | serializeUint16 value =>
      exact exact_iff_of_never id id
        (Place.exact_offOr (n := 2) h fun _ => Place.exact_moveBits h 16 16)
    | serializeUint32 value =>
      exact exact_iff_of_never id id
        (Place.exact_offOr (n := 4) h fun _ => Place.exact_moveBits h 32 32)
    | serializeUint64 value => exact exact_iff_of_move id (exact_half_iff h)
    | serializeBytes bytes =>
      exact exact_iff_of_never id id
        (Place.exact_offOr (n := bytes.length) h fun _ => Place.exact_refuse (8 * bytes.length))
    | advanceBits n => exact exact_iff_of_move id (Place.exact_advanceBits_iff h n)
    | advanceBytes n => exact exact_iff_of_move id (Place.exact_advanceBytes_iff h n)

/-- Reading one byte at the fifth bit of two. -/
theorem exact_iff_second_nibble :
    let c : StreamCall := .read .serializeByte ⟨[18, 52], 0, 4⟩
    c.Exact ↔ ¬ c.Slips :=
  exact_iff (.read .serializeByte ⟨[18, 52], 0, 4⟩)
    ⟨by decide, by decide, fun _ => by decide⟩

/-- Skipping a byte from the fifth bit of four bytes moves by 16 bits. -/
theorem not_forall_exact : ¬ ∀ c : StreamCall, c.place.Standing → c.Exact := by
  intro h
  have hexact := h (.read (.advanceBytes 1) ⟨[0, 0, 0, 0], 0, 4⟩)
    ⟨by decide, by decide, fun _ => by decide⟩
  exact absurd (hexact.2.forward (by decide)).2.1 (by decide)

end StreamCall

end Scion
