/-
The bit position over whole runs of a stream (`bit_stream.hpp`).

A position is normal when the bit is one of the eight of a byte, and none behind the last
byte. The word of `serializeBits` holds what is copied to it at a normal position. All
operations keep positions normal but two: `seek` takes the bit behind the last one of a
byte, and `advanceBytes` off a byte boundary may end where the buffer does.

* `Place.normal_seek_iff`, `Place.normal_advanceBytes_iff` — what these two do;
* `StreamEvent.normal_next_iff` — the step lemma of both streams;
* `bitPos_normal_iff` — the runs in which all positions are normal.
-/
import Scion.Runs
import Scion.StreamPositions

namespace Scion

open Runs

/-! ### Places -/

namespace Place

/-- The bit is one of the eight of a byte, and the first one at the end of the buffer. -/
structure Normal (p : Place) : Prop where
  inByte : p.bitPos < 8
  atEnd : p.bytePos = p.size → p.bitPos = 0

/-- The byte position is in the buffer or at its end. -/
def InBuffer (p : Place) : Prop := p.bytePos ≤ p.size

variable {p : Place}

theorem Normal.standing (h : p.Normal) (hbuffer : p.InBuffer) : p.Standing := by
  refine ⟨hbuffer, h.inByte.le, ?_⟩
  intro hbit
  exact lt_of_le_of_ne hbuffer fun hend => hbit (h.atEnd hend)

theorem normal_ofBits {size b : ℕ} (h : b ≤ 8 * size) : (ofBits size b).Normal := by
  refine ⟨Nat.mod_lt b (by norm_num), ?_⟩
  intro hend
  simp only [ofBits] at *
  omega

/-- How `seek` moves; `none` stands for `npos`. -/
def seek (byteOffset : Option ℕ) (bitOffset : ℕ) (p : Place) : Place :=
  match byteOffset with
  | none => if bitOffset ≠ 0 then p else ⟨p.size, p.size, 0⟩
  | some offset =>
    if bitOffset > 8 then p
    else if offset > p.size then p
    else if offset = p.size ∧ bitOffset > 0 then p
    else ⟨p.size, offset, bitOffset⟩

/-- The bit behind the last one of a byte in the buffer. -/
def SeekSlips (byteOffset : Option ℕ) (bitOffset : ℕ) (p : Place) : Prop :=
  bitOffset = 8 ∧ ∃ offset < p.size, byteOffset = some offset

/-- Off a byte boundary the bytes are skipped as bits, then once more; they end where the
buffer does. -/
def SkipSlips (n : UInt64) (p : Place) : Prop :=
  p.bitPos ≠ 0 ∧ p.bytePos + (8 * n).toNat / 8 + n.toNat = p.size

theorem normal_seek_iff (h : p.Normal) (byteOffset : Option ℕ) (bitOffset : ℕ) :
    (seek byteOffset bitOffset p).Normal ↔ ¬ SeekSlips byteOffset bitOffset p := by
  cases byteOffset with
  | none =>
    refine iff_of_true ?_ ?_
    · rw [seek]
      split_ifs with hbit
      · exact h
      · exact ⟨by norm_num, fun _ => rfl⟩
    · rintro ⟨-, offset, -, hnone⟩
      cases hnone
  | some offset =>
    have hslips : SeekSlips (some offset) bitOffset p ↔ bitOffset = 8 ∧ offset < p.size := by
      simp [SeekSlips]
    rw [hslips, seek]
    split_ifs with hbyte hbuffer hend
    · exact iff_of_true h (by omega)
    · exact iff_of_true h (by omega)
    · exact iff_of_true h (by omega)
    · constructor
      · rintro ⟨hnormal, -⟩ ⟨height, -⟩
        simp only at hnormal
        omega
      · intro hslips
        refine ⟨?_, ?_⟩
        · simp only
          omega
        · intro hsize
          simp only at *
          omega

/-! ### What keeps positions normal -/

theorem normal_moveBits (h : p.Normal) (hbuffer : p.InBuffer) (valueBits n : ℕ) :
    (moveBits valueBits n p).2.Normal := by
  have hle := (h.standing hbuffer).bits_le
  rw [moveBits]
  split_ifs with hn hmax hroom
  · exact h
  · exact h
  · exact h
  · refine ⟨Nat.mod_lt _ (by norm_num), ?_⟩
    intro hend
    simp only [remaining, InBuffer] at *
    omega

theorem inBuffer_moveBits (hbuffer : p.InBuffer) (valueBits n : ℕ) :
    (moveBits valueBits n p).2.InBuffer := by
  rw [moveBits]
  split_ifs with hn hmax hroom
  · exact hbuffer
  · exact hbuffer
  · exact hbuffer
  · simp only [remaining, InBuffer] at *
    omega

theorem inBuffer_moveBytes (hbuffer : p.InBuffer) (n : ℕ) : (moveBytes n p).2.InBuffer := by
  rw [moveBytes]
  split_ifs with hroom
  · exact hbuffer
  · simp only [remaining, InBuffer] at *
    omega

theorem bitPos_moveBytes (n : ℕ) : (moveBytes n p).2.bitPos = p.bitPos := by
  rw [moveBytes]
  split_ifs with hroom
  · rfl
  · rfl

/-- A property of places that both of two operations keep. -/
theorem andThen_keeps {P : Place → Prop} {f g : Place → Bool × Place} (hf : P (f p).2)
    (hg : P (f p).2 → P (g (f p).2).2) : P (andThen f g p).2 := by
  rw [andThen]
  split_ifs with hok
  · exact hg hf
  · exact hf

theorem normal_moveWords (h : p.Normal) (hbuffer : p.InBuffer) (k : ℕ) :
    (moveWords k p).2.Normal ∧ (moveWords k p).2.InBuffer := by
  induction k generalizing p with
  | zero => exact ⟨h, hbuffer⟩
  | succ k ih =>
    have hword := normal_moveBits h hbuffer 32 32
    exact andThen_keeps (P := fun q => q.Normal ∧ q.InBuffer)
      ⟨hword, inBuffer_moveBits hbuffer 32 32⟩ fun hmoved => ih hmoved.1 hmoved.2

theorem inBuffer_moveWords (hbuffer : p.InBuffer) (k : ℕ) : (moveWords k p).2.InBuffer := by
  induction k generalizing p with
  | zero => exact hbuffer
  | succ k ih => exact andThen_keeps (inBuffer_moveBits hbuffer 32 32) ih

theorem normal_advanceBits (h : p.Normal) (hbuffer : p.InBuffer) (n : UInt64) :
    (advanceBits n p).2.Normal ∧ (advanceBits n p).2.InBuffer := by
  rw [advanceBits]
  split_ifs with hroom
  · exact ⟨h, hbuffer⟩
  · refine andThen_keeps (P := fun q => q.Normal ∧ q.InBuffer)
      (normal_moveWords h hbuffer (n / 32).toNat) ?_
    intro hmoved
    exact ⟨normal_moveBits hmoved.1 hmoved.2 32 _, inBuffer_moveBits hmoved.2 32 _⟩

theorem inBuffer_advanceBits (hbuffer : p.InBuffer) (n : UInt64) :
    (advanceBits n p).2.InBuffer := by
  rw [advanceBits]
  split_ifs with hroom
  · exact hbuffer
  · exact andThen_keeps (inBuffer_moveWords hbuffer _) fun hmoved => inBuffer_moveBits hmoved 32 _

theorem inBuffer_advanceBytes (hbuffer : p.InBuffer) (n : UInt64) :
    (advanceBytes n p).2.InBuffer := by
  rw [advanceBytes, offOr]
  split_ifs with hbit
  · exact andThen_keeps (inBuffer_advanceBits hbuffer _) fun hmoved => inBuffer_moveBytes hmoved _
  · exact inBuffer_moveBytes hbuffer _

/-- On a byte boundary bytes keep the position normal. -/
theorem normal_offOr {off : Place → Bool × Place} {n : ℕ}
    (hoff : p.bitPos ≠ 0 → (off p).2.Normal) : (offOr off n p).2.Normal := by
  rw [offOr]
  split_ifs with hbit
  · exact hoff hbit
  · have hzero : (moveBytes n p).2.bitPos = 0 := (bitPos_moveBytes n).trans (not_not.mp hbit)
    exact ⟨by omega, fun _ => hzero⟩

theorem inBuffer_offOr {off : Place → Bool × Place} {n : ℕ} (hbuffer : p.InBuffer)
    (hoff : (off p).2.InBuffer) : (offOr off n p).2.InBuffer := by
  rw [offOr]
  split_ifs with hbit
  · exact hoff
  · exact inBuffer_moveBytes hbuffer n

theorem normal_advanceBytes_iff (h : p.Normal) (hbuffer : p.InBuffer) (n : UInt64) :
    (advanceBytes n p).2.Normal ↔ ¬ SkipSlips n p := by
  rcases eq_or_ne p.bitPos 0 with hzero | hbit
  · exact iff_of_true (normal_offOr fun hbit => absurd hzero hbit) fun hslips => hslips.1 hzero
  have hstanding := h.standing hbuffer
  have hmoved := normal_advanceBits h hbuffer (8 * n)
  have hbyte := h.inByte
  have hdata := hstanding.inData hbit
  have hmul : (8 * n).toNat = 8 * n.toNat % 2 ^ 64 := by
    rw [UInt64.toNat_mul, show (8 : UInt64).toNat = 8 from rfl]
  rw [advanceBytes, offOr, if_pos hbit, andThen, SkipSlips, and_iff_right hbit]
  by_cases hroom : p.bits + (8 * n).toNat ≤ 8 * p.size
  · obtain ⟨htrue, hbits, hsize⟩ := advanceBits_fits hstanding hroom
    have hinByte := hmoved.1.inByte
    -- whole bytes of bits keep the bit position, which the bytes then do not change
    have hsame : (advanceBits (8 * n) p).2.bitPos = p.bitPos := by
      simp only [bits] at hbits
      omega
    have hskipped : (advanceBits (8 * n) p).2.bytePos = p.bytePos + (8 * n).toNat / 8 := by
      simp only [bits] at hbits
      omega
    rw [htrue, if_pos rfl, moveBytes]
    by_cases hfew : (advanceBits (8 * n) p).2.remaining < n.toNat
    · rw [if_pos hfew]
      refine iff_of_true hmoved.1 ?_
      simp only [remaining] at hfew
      omega
    · rw [if_neg hfew]
      simp only [remaining] at hfew
      constructor
      · intro hnormal hend
        have hnone := hnormal.atEnd (by dsimp only; omega)
        dsimp only at hnone
        omega
      · intro hslips
        refine ⟨hinByte, ?_⟩
        intro hend
        dsimp only at hend
        omega
  · -- the bits do not move, and the bytes are not tried
    obtain ⟨hfalse, -⟩ := advanceBits_short hstanding (not_le.mp hroom)
    rw [hfalse, if_neg Bool.false_ne_true]
    refine iff_of_true hmoved.1 ?_
    simp only [bits] at hroom
    omega

end Place

/-! ### Working words -/

/-- A call of `serializeBits` on a stream at a place. -/
structure BitsCall where
  valueBits : ℕ
  bits : ℕ
  place : Place

namespace BitsCall

/-- The bytes that are touched. -/
def nBytes (c : BitsCall) : ℕ := (c.bits + c.place.bitPos + 7) / 8

/-- The call passes its checks, and copies. -/
structure Passes (c : BitsCall) : Prop where
  some : c.bits ≠ 0
  valid : c.bits ≤ min (64 - 7) c.valueBits
  room : c.nBytes ≤ c.place.remaining

/-- The call copies no more than the eight bytes of its word, and shifts the word by less
than its 64 bits. -/
structure InWord (c : BitsCall) : Prop where
  copies : c.Passes → c.nBytes ≤ 8
  positionShift : c.Passes → c.place.bitPos < 64
  valueShift : c.Passes → 64 - c.bits < 64

theorem inWord {c : BitsCall} (h : c.place.Normal) : c.InWord := by
  have hbyte := h.inByte
  refine ⟨?_, fun _ => by omega, ?_⟩
  · intro hpasses
    have hvalid := hpasses.valid
    rw [nBytes]
    omega
  · intro hpasses
    have hsome := hpasses.some
    omega

end BitsCall

namespace Place

/-- The calls that skip words of 32 bits, up to the first one that fails. -/
def wordCalls : ℕ → Place → List BitsCall
  | 0, _ => []
  | n + 1, p => ⟨32, 32, p⟩ ::
      if (moveBits 32 32 p).1 then wordCalls n (moveBits 32 32 p).2 else []

/-- The calls of `advanceBits`. -/
def advanceCalls (bits : UInt64) (p : Place) : List BitsCall :=
  if p.remaining < ((bits + UInt64.ofNat p.bitPos + 7) / 8).toNat then []
  else
    let words := moveWords (bits / 32).toNat p
    wordCalls (bits / 32).toNat p ++ if words.1 then [⟨32, (bits % 32).toNat, words.2⟩] else []

/-- The call off a byte boundary. -/
def offCalls (valueBits bits : ℕ) (p : Place) : List BitsCall :=
  if p.bitPos ≠ 0 then [⟨valueBits, bits, p⟩] else []

variable {p : Place}

theorem normal_wordCalls (h : p.Normal) (hbuffer : p.InBuffer) (k : ℕ) :
    ∀ c ∈ wordCalls k p, c.place.Normal := by
  induction k generalizing p with
  | zero => exact fun c hc => absurd hc List.not_mem_nil
  | succ k ih =>
    intro c hc
    rcases List.mem_cons.mp hc with rfl | hc
    · exact h
    · split_ifs at hc with hok
      · exact ih (normal_moveBits h hbuffer 32 32) (inBuffer_moveBits hbuffer 32 32) c hc
      · exact absurd hc List.not_mem_nil

theorem normal_advanceCalls (h : p.Normal) (hbuffer : p.InBuffer) (n : UInt64) :
    ∀ c ∈ advanceCalls n p, c.place.Normal := by
  intro c hc
  rw [advanceCalls] at hc
  split_ifs at hc with hroom
  · exact absurd hc List.not_mem_nil
  · rcases List.mem_append.mp hc with hc | hc
    · exact normal_wordCalls h hbuffer _ c hc
    · split_ifs at hc with hok
      · rw [List.mem_singleton.mp hc]
        exact (normal_moveWords h hbuffer _).1
      · exact absurd hc List.not_mem_nil

theorem normal_offCalls (h : p.Normal) (valueBits bits : ℕ) :
    ∀ c ∈ offCalls valueBits bits p, c.place.Normal := by
  intro c hc
  rw [offCalls] at hc
  split_ifs at hc with hbit
  · rw [List.mem_singleton.mp hc]
    exact h
  · exact absurd hc List.not_mem_nil

end Place

/-! ### Operations -/

/-- The stream that an operation leaves. -/
def after {σ α : Type} : EStateM.Result String σ α → σ
  | .ok _ s => s
  | .error _ s => s

theorem place_after {σ α : Type} (place : σ → Place) (r : EStateM.Result String σ α) :
    place (after r) = (outcome place r).2 := by
  cases r with
  | ok a s => rfl
  | error e s => rfl

/-- `WriteStream::updateChksum` with an offset of 64 bits. -/
def WriteStream.updateChksum64 (chksum : UInt16) (offset : UInt64) : Writer := fun ws =>
  if ws.bitPos ≠ 0 then .error "alignment error" ws
  else if ws.bytePos < (offset + 2).toNat then .error "attempted to write out of bounds" ws
  else
    match serializeUint16 chksum (ws.moveTo (ws.bytePos - (offset + 2).toNat)) with
    | .ok _ s => .ok () (s.moveTo ws.bytePos)
    | .error e s => .error e (s.moveTo ws.bytePos)

namespace ReadOp

def next (rs : ReadStream) : ReadOp → ReadStream
  | serializeBits valueBits n => after (ReadStream.serializeBits valueBits n rs)
  | serializeByte => after (ReadStream.serializeByte rs)
  | serializeUint16 => after (ReadStream.serializeUint16 rs)
  | serializeUint32 => after (ReadStream.serializeUint32 rs)
  | serializeUint64 => after (ReadStream.serializeUint64 rs)
  | serializeBytes n => after (ReadStream.serializeBytes n rs)
  | advanceBits n => after (ReadStream.advanceBits64 n rs)
  | advanceBytes n => after (ReadStream.advanceBytes64 n rs)

theorem place_next (op : ReadOp) (rs : ReadStream) : (op.next rs).place = (op.move rs.place).2 := by
  rw [← op.result_eq]
  cases op with
  | serializeBits valueBits n => exact place_after _ _
  | serializeByte => exact place_after _ _
  | serializeUint16 => exact place_after _ _
  | serializeUint32 => exact place_after _ _
  | serializeUint64 => exact place_after _ _
  | serializeBytes n => exact place_after _ _
  | advanceBits n => exact place_after _ _
  | advanceBytes n => exact place_after _ _

/-- The calls of `serializeBits` that the operation makes. -/
def bitsCalls (p : Place) : ReadOp → List BitsCall
  | serializeBits valueBits n => [⟨valueBits, n, p⟩]
  | serializeByte => p.offCalls 32 8
  | serializeUint16 => p.offCalls 32 16
  | serializeUint32 => p.offCalls 32 32
  | serializeUint64 => []
  | serializeBytes _ => []
  | advanceBits n => p.advanceCalls n
  | advanceBytes n => if p.bitPos ≠ 0 then p.advanceCalls (8 * n) else []

end ReadOp

namespace WriteOp

def next (ws : WriteStream) : WriteOp → WriteStream
  | serializeBits valueBits value n => after (WriteStream.serializeBits valueBits value n ws)
  | serializeByte value => after (WriteStream.serializeByte value ws)
  | serializeUint16 value => after (WriteStream.serializeUint16 value ws)
  | serializeUint32 value => after (WriteStream.serializeUint32 value ws)
  | serializeUint64 value => after (WriteStream.serializeUint64 value ws)
  | serializeBytes bytes => after (WriteStream.serializeBytes bytes ws)
  | advanceBits n => after (WriteStream.advanceBits64 n ws)
  | advanceBytes n => after (WriteStream.advanceBytes64 n ws)

theorem place_next (op : WriteOp) (ws : WriteStream) :
    (op.next ws).place = (op.move ws.place).2 := by
  rw [← op.result_eq]
  cases op with
  | serializeBits valueBits value n => exact place_after _ _
  | serializeByte value => exact place_after _ _
  | serializeUint16 value => exact place_after _ _
  | serializeUint32 value => exact place_after _ _
  | serializeUint64 value => exact place_after _ _
  | serializeBytes bytes => exact place_after _ _
  | advanceBits n => exact place_after _ _
  | advanceBytes n => exact place_after _ _

def bitsCalls (p : Place) : WriteOp → List BitsCall
  | serializeBits valueBits _ n => [⟨valueBits, n, p⟩]
  | serializeByte _ => p.offCalls 8 8
  | serializeUint16 _ => p.offCalls 16 16
  | serializeUint32 _ => p.offCalls 32 32
  | serializeUint64 _ => p.offCalls 64 32
  | serializeBytes _ => []
  | advanceBits n => p.advanceCalls n
  | advanceBytes n => if p.bitPos ≠ 0 then p.advanceCalls (8 * n) else []

end WriteOp

/-! ### Streams -/

/-- Both stream classes. -/
inductive BitStream
  | reader (rs : ReadStream)
  | writer (ws : WriteStream)
  deriving DecidableEq

/-- The calls of a program; those that only look at the position are left out. -/
inductive StreamEvent
  | seek (byteOffset : Option ℕ) (bitOffset : ℕ)
  | lookahead (bytes : Option ℕ)
  | lookback (bytes : Option ℕ)
  | updateChksum (chksum : UInt16) (offset : UInt64)
  | read (op : ReadOp)
  | write (op : WriteOp)

namespace BitStream

def place : BitStream → Place
  | reader rs => rs.place
  | writer ws => ws.place

/-- The stream is as its constructor makes it. -/
inductive Fresh : BitStream → Prop
  | reader (buffer : List UInt8) : Fresh (.reader (ReadStream.ofBuffer buffer))
  | writer (buffer : List UInt8) : Fresh (.writer (WriteStream.ofBuffer buffer))

/-- The stream after a call of a member of its class, successful or not. -/
def step : BitStream → StreamEvent → Option BitStream
  | reader rs, .seek byteOffset bitOffset => some (reader (rs.seek byteOffset bitOffset).2)
  | reader rs, .lookahead bytes => some (reader (after (ReadStream.lookahead bytes rs)))
  | reader rs, .read op => some (reader (op.next rs))
  | writer ws, .seek byteOffset bitOffset => some (writer (ws.seek byteOffset bitOffset).2)
  | writer ws, .lookback bytes => some (writer (after (WriteStream.lookback bytes ws)))
  | writer ws, .updateChksum chksum offset =>
    some (writer (after (WriteStream.updateChksum64 chksum offset ws)))
  | writer ws, .write op => some (writer (op.next ws))
  | _, _ => none

end BitStream

theorem ReadStream.place_seek (byteOffset : Option ℕ) (bitOffset : ℕ) (rs : ReadStream) :
    (rs.seek byteOffset bitOffset).2.place = rs.place.seek byteOffset bitOffset := by
  cases byteOffset with
  | none =>
    rw [seek, Place.seek]
    split_ifs with hbit
    · rfl
    · rfl
  | some offset =>
    have hsize : rs.place.size = rs.data.length := rfl
    rw [seek, Place.seek, hsize]
    split_ifs with hbyte hbuffer hend
    · rfl
    · rfl
    · rfl
    · rfl

theorem WriteStream.place_seek (byteOffset : Option ℕ) (bitOffset : ℕ) (ws : WriteStream) :
    (ws.seek byteOffset bitOffset).2.place = ws.place.seek byteOffset bitOffset := by
  cases byteOffset with
  | none =>
    rw [seek, Place.seek]
    split_ifs with hbit
    · rfl
    · rfl
  | some offset =>
    have hsize : ws.place.size = ws.data.length := rfl
    rw [seek, Place.seek, hsize]
    split_ifs with hbyte hbuffer hend
    · rfl
    · rfl
    · rfl
    · rfl

/-- A view of the data leaves the stream. -/
theorem ReadStream.after_lookahead (bytes : Option ℕ) (rs : ReadStream) :
    after (lookahead bytes rs) = rs := by
  unfold lookahead
  split_ifs with hbit
  · rfl
  · cases bytes with
    | none => rfl
    | some n =>
      dsimp only
      split_ifs with hroom
      · rfl
      · rfl

theorem WriteStream.after_lookback (bytes : Option ℕ) (ws : WriteStream) :
    after (lookback bytes ws) = ws := by
  unfold lookback
  split_ifs with hbit
  · rfl
  · cases bytes with
    | none => rfl
    | some n =>
      dsimp only
      split_ifs with hroom
      · rfl
      · rfl

/-- The position is restored behind the checksum, and its bit is not changed. -/
theorem WriteStream.place_updateChksum64 (chksum : UInt16) (offset : UInt64) (ws : WriteStream) :
    (after (updateChksum64 chksum offset ws)).place = ws.place := by
  rw [updateChksum64]
  split_ifs with hbit hfew
  · rfl
  · rfl
  · set back := ws.moveTo (ws.bytePos - (offset + 2).toNat) with hback
    have hplace := (WriteOp.serializeUint16 chksum).place_next back
    have haligned : ¬ back.place.bitPos ≠ 0 := hbit
    rw [WriteOp.move, Place.offOr, if_neg haligned, Place.moveBytes, WriteOp.next] at hplace
    have hkept : (after (serializeUint16 chksum back)).place.size = ws.place.size ∧
        (after (serializeUint16 chksum back)).place.bitPos = ws.place.bitPos := by
      rw [hplace]
      split_ifs with hroom
      · exact ⟨rfl, rfl⟩
      · exact ⟨rfl, rfl⟩
    cases hrun : serializeUint16 chksum back with
    | ok u s =>
      rw [hrun] at hkept
      exact Place.mk.injEq .. ▸ ⟨hkept.1, rfl, hkept.2⟩
    | error e s =>
      rw [hrun] at hkept
      exact Place.mk.injEq .. ▸ ⟨hkept.1, rfl, hkept.2⟩

namespace StreamEvent

/-- How a call moves. -/
def move : StreamEvent → Place → Place
  | seek byteOffset bitOffset, p => p.seek byteOffset bitOffset
  | read op, p => (op.move p).2
  | write op, p => (op.move p).2
  | _, p => p

/-- The calls of `serializeBits` that a call makes; a checksum is written on a byte boundary,
which takes none. -/
def bitsCalls : StreamEvent → Place → List BitsCall
  | read op, p => op.bitsCalls p
  | write op, p => op.bitsCalls p
  | _, _ => []

/-- The calls that leave a position which is not normal. -/
def Slips : StreamEvent → Place → Prop
  | seek byteOffset bitOffset, p => p.SeekSlips byteOffset bitOffset
  | read (.advanceBytes n), p => p.SkipSlips n
  | write (.advanceBytes n), p => p.SkipSlips n
  | _, _ => False

theorem place_step {s s' : BitStream} {e : StreamEvent} (hstep : s.step e = some s') :
    s'.place = e.move s.place := by
  cases s with
  | reader rs =>
    cases e with
    | seek byteOffset bitOffset =>
      cases hstep
      exact rs.place_seek byteOffset bitOffset
    | lookahead bytes =>
      cases hstep
      exact congrArg ReadStream.place (rs.after_lookahead bytes)
    | lookback bytes => cases hstep
    | updateChksum chksum offset => cases hstep
    | read op =>
      cases hstep
      exact op.place_next rs
    | write op => cases hstep
  | writer ws =>
    cases e with
    | seek byteOffset bitOffset =>
      cases hstep
      exact ws.place_seek byteOffset bitOffset
    | lookahead bytes => cases hstep
    | lookback bytes =>
      cases hstep
      exact congrArg WriteStream.place (ws.after_lookback bytes)
    | updateChksum chksum offset =>
      cases hstep
      exact ws.place_updateChksum64 chksum offset
    | read op => cases hstep
    | write op =>
      cases hstep
      exact op.place_next ws

variable {p : Place}

/-- Every call keeps the byte position in the buffer. -/
theorem inBuffer_move (e : StreamEvent) (hbuffer : p.InBuffer) : (e.move p).InBuffer := by
  cases e with
  | seek byteOffset bitOffset =>
    cases byteOffset with
    | none =>
      rw [move, Place.seek]
      split_ifs with hbit
      · exact hbuffer
      · exact le_rfl
    | some offset =>
      rw [move, Place.seek]
      split_ifs with hbyte hsize hend
      · exact hbuffer
      · exact hbuffer
      · exact hbuffer
      · exact not_lt.mp hsize
  | lookahead bytes => exact hbuffer
  | lookback bytes => exact hbuffer
  | updateChksum chksum offset => exact hbuffer
  | read op =>
    cases op with
    | serializeBits valueBits n => exact Place.inBuffer_moveBits hbuffer valueBits n
    | serializeByte => exact Place.inBuffer_offOr hbuffer (Place.inBuffer_moveBits hbuffer 32 8)
    | serializeUint16 => exact Place.inBuffer_offOr hbuffer (Place.inBuffer_moveBits hbuffer 32 16)
    | serializeUint32 => exact Place.inBuffer_offOr hbuffer (Place.inBuffer_moveBits hbuffer 32 32)
    | serializeUint64 => exact Place.inBuffer_offOr hbuffer hbuffer
    | serializeBytes n => exact Place.inBuffer_offOr hbuffer hbuffer
    | advanceBits n => exact Place.inBuffer_advanceBits hbuffer n
    | advanceBytes n => exact Place.inBuffer_advanceBytes hbuffer n
  | write op =>
    cases op with
    | serializeBits valueBits value n => exact Place.inBuffer_moveBits hbuffer valueBits n
    | serializeByte value =>
      exact Place.inBuffer_offOr hbuffer (Place.inBuffer_moveBits hbuffer 8 8)
    | serializeUint16 value =>
      exact Place.inBuffer_offOr hbuffer (Place.inBuffer_moveBits hbuffer 16 16)
    | serializeUint32 value =>
      exact Place.inBuffer_offOr hbuffer (Place.inBuffer_moveBits hbuffer 32 32)
    | serializeUint64 value =>
      exact Place.inBuffer_offOr hbuffer (Place.inBuffer_moveBits hbuffer 64 32)
    | serializeBytes bytes => exact Place.inBuffer_offOr hbuffer hbuffer
    | advanceBits n => exact Place.inBuffer_advanceBits hbuffer n
    | advanceBytes n => exact Place.inBuffer_advanceBytes hbuffer n

/-- From a normal position a call slips, or leaves a normal one. -/
theorem normal_move_iff (e : StreamEvent) (h : p.Normal) (hbuffer : p.InBuffer) :
    (e.move p).Normal ↔ ¬ e.Slips p := by
  have hbits : ∀ valueBits n, (Place.moveBits valueBits n p).2.Normal :=
    Place.normal_moveBits h hbuffer
  cases e with
  | seek byteOffset bitOffset => exact Place.normal_seek_iff h byteOffset bitOffset
  | lookahead bytes => exact iff_of_true h id
  | lookback bytes => exact iff_of_true h id
  | updateChksum chksum offset => exact iff_of_true h id
  | read op =>
    cases op with
    | serializeBits valueBits n => exact iff_of_true (hbits valueBits n) id
    | serializeByte => exact iff_of_true (Place.normal_offOr fun _ => hbits 32 8) id
    | serializeUint16 => exact iff_of_true (Place.normal_offOr fun _ => hbits 32 16) id
    | serializeUint32 => exact iff_of_true (Place.normal_offOr fun _ => hbits 32 32) id
    | serializeUint64 => exact iff_of_true (Place.normal_offOr fun _ => h) id
    | serializeBytes n => exact iff_of_true (Place.normal_offOr fun _ => h) id
    | advanceBits n => exact iff_of_true (Place.normal_advanceBits h hbuffer n).1 id
    | advanceBytes n => exact Place.normal_advanceBytes_iff h hbuffer n
  | write op =>
    cases op with
    | serializeBits valueBits value n => exact iff_of_true (hbits valueBits n) id
    | serializeByte value => exact iff_of_true (Place.normal_offOr fun _ => hbits 8 8) id
    | serializeUint16 value => exact iff_of_true (Place.normal_offOr fun _ => hbits 16 16) id
    | serializeUint32 value => exact iff_of_true (Place.normal_offOr fun _ => hbits 32 32) id
    | serializeUint64 value => exact iff_of_true (Place.normal_offOr fun _ => hbits 64 32) id
    | serializeBytes bytes => exact iff_of_true (Place.normal_offOr fun _ => h) id
    | advanceBits n => exact iff_of_true (Place.normal_advanceBits h hbuffer n).1 id
    | advanceBytes n => exact Place.normal_advanceBytes_iff h hbuffer n

/-- The calls of `serializeBits` that are made from a normal position find one. -/
theorem normal_bitsCalls (e : StreamEvent) (h : p.Normal) (hbuffer : p.InBuffer) :
    ∀ c ∈ e.bitsCalls p, c.place.Normal := by
  have hnone : ∀ c ∈ ([] : List BitsCall), c.place.Normal := by simp
  have hone : ∀ valueBits bits, ∀ c ∈ [(⟨valueBits, bits, p⟩ : BitsCall)], c.place.Normal := by
    simp [h]
  -- bytes are skipped as bits where the stream stands inside a byte
  have hskip : ∀ n, ∀ c ∈ if p.bitPos ≠ 0 then p.advanceCalls (8 * n) else [],
      c.place.Normal := by
    intro n c hc
    split_ifs at hc with hbit
    · exact Place.normal_advanceCalls h hbuffer (8 * n) c hc
    · exact hnone c hc
  cases e with
  | seek byteOffset bitOffset => exact hnone
  | lookahead bytes => exact hnone
  | lookback bytes => exact hnone
  | updateChksum chksum offset => exact hnone
  | read op =>
    cases op with
    | serializeBits valueBits n => exact hone valueBits n
    | serializeByte => exact Place.normal_offCalls h 32 8
    | serializeUint16 => exact Place.normal_offCalls h 32 16
    | serializeUint32 => exact Place.normal_offCalls h 32 32
    | serializeUint64 => exact hnone
    | serializeBytes n => exact hnone
    | advanceBits n => exact Place.normal_advanceCalls h hbuffer n
    | advanceBytes n => exact hskip n
  | write op =>
    cases op with
    | serializeBits valueBits value n => exact hone valueBits n
    | serializeByte value => exact Place.normal_offCalls h 8 8
    | serializeUint16 value => exact Place.normal_offCalls h 16 16
    | serializeUint32 value => exact Place.normal_offCalls h 32 32
    | serializeUint64 value => exact Place.normal_offCalls h 64 32
    | serializeBytes bytes => exact hnone
    | advanceBits n => exact Place.normal_advanceCalls h hbuffer n
    | advanceBytes n => exact hskip n

end StreamEvent

/-! ### Runs -/

theorem BitStream.Fresh.normal {init : BitStream} (hinit : init.Fresh) :
    init.place.Normal ∧ init.place.InBuffer := by
  cases hinit with
  | reader buffer => exact ⟨⟨Nat.zero_lt_succ 7, fun _ => rfl⟩, Nat.zero_le _⟩
  | writer buffer => exact ⟨⟨Nat.zero_lt_succ 7, fun _ => rfl⟩, Nat.zero_le _⟩

/-- The byte position is in the buffer in all states of all runs. -/
theorem inBuffer_of_run {init : BitStream} (hinit : init.Fresh) {h : List StreamEvent}
    {s : BitStream} (hrun : Run init BitStream.step h s) : s.place.InBuffer := by
  refine Run.invariant (I := fun _ s => s.place.InBuffer) hinit.normal.2 ?_ hrun
  intro past t e t' hbuffer hstep
  rw [StreamEvent.place_step hstep]
  exact e.inBuffer_move hbuffer

/-- In a run of a stream, all positions are normal and all calls of `serializeBits` stay in
their word exactly when no call seeks the bit behind the last one of a byte, and none that
skips bytes off a byte boundary ends where the buffer does. -/
theorem bitPos_normal_iff {init : BitStream} (hinit : init.Fresh) {h : List StreamEvent}
    {s : BitStream} (hrun : Run init BitStream.step h s) :
    (Throughout init BitStream.step (fun _ t => t.place.Normal) h ∧
      Always init BitStream.step (fun _ t e => ∀ c ∈ e.bitsCalls t.place, c.InWord) h) ↔
      Always init BitStream.step (fun _ t e => ¬ e.Slips t.place) h := by
  have hiff : Throughout init BitStream.step (fun _ t => t.place.Normal) h ↔
      Always init BitStream.step (fun _ t e => ¬ e.Slips t.place) h := by
    refine throughout_iff_always hinit.normal.1 ?_ hrun
    intro past t e t' hpast hnormal hstep
    rw [StreamEvent.place_step hstep]
    exact e.normal_move_iff hnormal (inBuffer_of_run hinit hpast)
  refine ⟨fun hboth => hiff.mp hboth.1, ?_⟩
  intro hnever
  have hnormal := hiff.mpr hnever
  refine ⟨hnormal, ?_⟩
  intro past t e hpast hsuffix c hc
  have ht := hnormal past t hpast (suffix_of_cons hsuffix)
  exact BitsCall.inWord (e.normal_bitsCalls ht (inBuffer_of_run hinit hpast) c hc)

/-- Four bits are read from the middle of the second byte of two. -/
theorem bitPos_normal_iff_second_nibble :
    let init : BitStream := .reader (ReadStream.ofBuffer [18, 52])
    let h : List StreamEvent := [.read (.serializeBits 8 4), .seek (some 1) 4]
    (Throughout init BitStream.step (fun _ t => t.place.Normal) h ∧
      Always init BitStream.step (fun _ t e => ∀ c ∈ e.bitsCalls t.place, c.InWord) h) ↔
      Always init BitStream.step (fun _ t e => ¬ e.Slips t.place) h :=
  bitPos_normal_iff (BitStream.Fresh.reader [18, 52])
    (s := .reader ⟨[18, 52], 2, 0⟩) ((Run.start.next rfl).next rfl)

/-- Behind the ninth bit of a byte, 57 bits take nine bytes. -/
theorem not_forall_bitPos_normal :
    ¬ ∀ (init : BitStream), init.Fresh → ∀ (h : List StreamEvent) (s : BitStream),
      Run init BitStream.step h s →
        Throughout init BitStream.step (fun _ t => t.place.Normal) h ∧
          Always init BitStream.step (fun _ t e => ∀ c ∈ e.bitsCalls t.place, c.InWord) h := by
  intro hclaim
  have hrun : Run (.reader (ReadStream.ofBuffer [0, 0, 0, 0, 0, 0, 0, 0, 0])) BitStream.step
      [.seek (some 0) 8] (.reader ⟨[0, 0, 0, 0, 0, 0, 0, 0, 0], 0, 8⟩) := Run.start.next rfl
  obtain ⟨-, hwords⟩ := hclaim _ (BitStream.Fresh.reader _) _ _
    (hrun.next (e := .read (.serializeBits 64 57)) rfl)
  have hword := hwords _ _ _ hrun List.suffix_rfl ⟨64, 57, ⟨9, 0, 8⟩⟩ (List.mem_singleton.mpr rfl)
  exact absurd (hword.copies ⟨by decide, by decide, by decide⟩) (by decide)

end Scion
