/-
Sequences of bit stream operations (`bit_stream.hpp`), written and read back.

A run of the writer is replayed by the reader on the buffer it left. Both move by
the same bits, so the question is what the reader finds at each of them.

* `StreamOp` — the operations with their writing and reading side;
* `Replays` — what one operation writes, and that it is read at the same place;
* `Ahead` — what a run has left of the buffer before it from its position on;
* `readOps_writeOps_iff` — the written values are read back exactly when no
  64-bit integer was written off a byte boundary and no field was merged with bits
  that the buffer held before.
-/
import Scion.StreamBits

namespace Scion

open BigEndian Codec

/-- A call of one of the `serialize` or `advance` functions. -/
inductive StreamOp where
  /-- `valueBits` is the width of the integer type. -/
  | bits (valueBits : ℕ) (value : UInt64) (n : ℕ)
  | byte (value : UInt8)
  | uint16 (value : UInt16)
  | uint32 (value : UInt32)
  | uint64 (value : UInt64)
  | bytes (value : List UInt8)
  | advanceBits (n : ℕ)
  | advanceBytes (n : ℕ)
  deriving DecidableEq, Repr

/-- What a reading call yields. -/
inductive Field where
  | number (value : ℕ)
  | bytes (value : List UInt8)
  | skipped
  deriving DecidableEq, Repr

namespace StreamOp

def write : StreamOp → Writer
  | bits valueBits value n => WriteStream.serializeBits valueBits value n
  | byte value => WriteStream.serializeByte value
  | uint16 value => WriteStream.serializeUint16 value
  | uint32 value => WriteStream.serializeUint32 value
  | uint64 value => WriteStream.serializeUint64 value
  | bytes value => WriteStream.serializeBytes value
  | advanceBits n => WriteStream.advanceBits n
  | advanceBytes n => WriteStream.advanceBytes n

def read : StreamOp → Reader Field
  | bits valueBits _ n => (fun v => .number v.toNat) <$> ReadStream.serializeBits valueBits n
  | byte _ => (fun v => .number v.toNat) <$> ReadStream.serializeByte
  | uint16 _ => (fun v => .number v.toNat) <$> ReadStream.serializeUint16
  | uint32 _ => (fun v => .number v.toNat) <$> ReadStream.serializeUint32
  | uint64 _ => (fun v => .number v.toNat) <$> ReadStream.serializeUint64
  | bytes value => Field.bytes <$> ReadStream.serializeBytes value.length
  | advanceBits n => (fun _ => .skipped) <$> ReadStream.advanceBits n
  | advanceBytes n => (fun _ => .skipped) <$> ReadStream.advanceBytes n

/-- The written value, reduced to the written width. -/
def field : StreamOp → Field
  | bits _ value n => .number (value.toNat % 2 ^ n)
  | byte value => .number value.toNat
  | uint16 value => .number value.toNat
  | uint32 value => .number value.toNat
  | uint64 value => .number value.toNat
  | bytes value => .bytes value
  | advanceBits _ => .skipped
  | advanceBytes _ => .skipped

/-- How many bits the operation moves from bit `P`. -/
def width (P : ℕ) : StreamOp → ℕ
  | bits _ _ n => n
  | byte _ => 8
  | uint16 _ => 16
  | uint32 _ => 32
  | uint64 _ => if P % 8 = 0 then 64 else 32
  | bytes value => 8 * value.length
  | advanceBits n => n
  | advanceBytes n => if P % 8 = 0 then 8 * n else 16 * n

/-- The number whose digits the operation writes at bit `P`. -/
def digits (P : ℕ) : StreamOp → ℕ
  | bits _ value n => value.toNat % 2 ^ n
  | byte value => value.toNat
  | uint16 value => if P % 8 = 0 then value.toNat else (byteswap16 value).toNat
  | uint32 value => if P % 8 = 0 then value.toNat else (byteswap32 value).toNat
  | uint64 value => value.toNat
  | bytes value => beNat value
  | advanceBits _ => 0
  | advanceBytes _ => 0

/-- `advanceBytes` off a byte boundary, which leaves the byte it stops in. -/
def jumps (P : ℕ) : StreamOp → Bool
  | advanceBytes n => decide (P % 8 ≠ 0 ∧ n ≠ 0)
  | _ => false

/-- Whether the byte of the next position still holds the buffer's own bits behind
it, if that of `P` does so when `stale`. -/
def leaves (P : ℕ) (stale : Bool) (op : StreamOp) : Bool :=
  op.jumps P || (stale && decide ((P + op.width P) / 8 = P / 8))

/-- An operation that carries no value. -/
def skips : StreamOp → Bool
  | advanceBits _ => true
  | advanceBytes _ => true
  | _ => false

def isUint64 : StreamOp → Bool
  | uint64 _ => true
  | _ => false

/-- The value is kept: a 64-bit integer is on a byte boundary, and where the
byte of `P` holds bits of the buffer, the digits written over them have
each of these bits set. -/
def Fits (buffer : List UInt8) (P : ℕ) (stale : Bool) (op : StreamOp) : Prop :=
  (op.isUint64 = true → P % 8 = 0) ∧
    (op.skips = false → stale = true → ∀ j < 8 - P % 8, j < op.width P →
      bitAt buffer (P + j) = true → (op.digits P).testBit (op.width P - 1 - j) = true)

instance (buffer : List UInt8) (P : ℕ) (stale : Bool) (op : StreamOp) :
    Decidable (op.Fits buffer P stale) := by
  unfold Fits
  infer_instance

/-- The value that the digits read at bit `P` stand for. -/
def decode (P : ℕ) (op : StreamOp) (d : ℕ) : Field :=
  match op with
  | bits _ _ _ => .number d
  | byte _ => .number d
  | uint16 _ => .number (if P % 8 = 0 then d else (byteswap16 (UInt16.ofNat d)).toNat)
  | uint32 _ => .number (if P % 8 = 0 then d else (byteswap32 (UInt32.ofNat d)).toNat)
  | uint64 _ => .number d
  | bytes value => .bytes (beBytes value.length d)
  | advanceBits _ => .skipped
  | advanceBytes _ => .skipped

theorem decode_digits (P : ℕ) (op : StreamOp) : op.decode P (op.digits P) = op.field := by
  cases op with
  | bits valueBits value n => rfl
  | byte value => rfl
  | uint16 value =>
    by_cases hP : P % 8 = 0
    · rw [decode, digits, if_pos hP, if_pos hP, field]
    · rw [decode, digits, if_neg hP, if_neg hP, UInt16.ofNat_toNat, byteswap16_byteswap16, field]
  | uint32 value =>
    by_cases hP : P % 8 = 0
    · rw [decode, digits, if_pos hP, if_pos hP, field]
    · rw [decode, digits, if_neg hP, if_neg hP, UInt32.ofNat_toNat, byteswap32_byteswap32, field]
  | uint64 value => rfl
  | bytes value => rw [decode, digits, beBytes_beNat, field]
  | advanceBits n => rfl
  | advanceBytes n => rfl

theorem digits_lt {P : ℕ} {op : StreamOp} (h : op.isUint64 = true → P % 8 = 0) :
    op.digits P < 2 ^ op.width P := by
  cases op with
  | bits valueBits value n => exact Nat.mod_lt _ (by positivity)
  | byte value => exact value.toNat_lt
  | uint16 value =>
    rw [digits]
    by_cases hP : P % 8 = 0
    · rw [if_pos hP]
      exact value.toNat_lt
    · rw [if_neg hP]
      exact UInt16.toNat_lt _
  | uint32 value =>
    rw [digits]
    by_cases hP : P % 8 = 0
    · rw [if_pos hP]
      exact value.toNat_lt
    · rw [if_neg hP]
      exact UInt32.toNat_lt _
  | uint64 value =>
    rw [width, if_pos (h rfl)]
    exact value.toNat_lt
  | bytes value =>
    have hlt := beNat_lt value
    rwa [show (256 : ℕ) = 2 ^ 8 from rfl, ← pow_mul] at hlt
  | advanceBits n => exact Nat.two_pow_pos n
  | advanceBytes n => exact Nat.two_pow_pos _

/-- Other digits stand for another value. -/
theorem eq_digits_of_decode {P d : ℕ} {op : StreamOp} (hskips : op.skips = false)
    (hlt : d < 2 ^ op.width P) (h : op.decode P d = op.field) : d = op.digits P := by
  cases op with
  | bits valueBits value n => exact Field.number.inj h
  | byte value => exact Field.number.inj h
  | uint16 value =>
    have hval := Field.number.inj h
    rw [digits]
    by_cases hP : P % 8 = 0
    · rw [if_pos hP] at hval
      rw [if_pos hP, hval]
    · rw [if_neg hP] at hval
      rw [if_neg hP, ← UInt16.toNat_inj.mp hval, byteswap16_byteswap16, UInt16.toNat_ofNat',
        Nat.mod_eq_of_lt (show d < 2 ^ 16 from hlt)]
  | uint32 value =>
    have hval := Field.number.inj h
    rw [digits]
    by_cases hP : P % 8 = 0
    · rw [if_pos hP] at hval
      rw [if_pos hP, hval]
    · rw [if_neg hP] at hval
      rw [if_neg hP, ← UInt32.toNat_inj.mp hval, byteswap32_byteswap32, UInt32.toNat_ofNat',
        Nat.mod_eq_of_lt (show d < 2 ^ 32 from hlt)]
  | uint64 value => exact Field.number.inj h
  | bytes value =>
    have hbytes := Field.bytes.inj h
    have hnum := congrArg beNat hbytes
    rw [width, pow_mul] at hlt
    rwa [beNat_beBytes, Nat.mod_eq_of_lt (show d < 256 ^ value.length from hlt)] at hnum
  | advanceBits n => cases hskips
  | advanceBytes n => cases hskips

/-! ### One operation -/

/-- At bit `P` the operation writes a field, and reads one at the same place. -/
def Replays (op : StreamOp) (P : ℕ) : Prop :=
  ∀ data s, op.write (WriteStream.atBit data P) = .ok () s →
    (1 ≤ op.width P → P + op.width P ≤ 8 * data.length) ∧
    (∃ data', s = WriteStream.atBit data' (P + op.width P) ∧
      Puts data data' P (op.width P) (op.digits P)) ∧
    ∀ final : List UInt8, final.length = data.length →
      op.read (ReadStream.atBit final P)
        = .ok (op.decode P (ReadStream.bitsAt final P (op.width P)))
            (ReadStream.atBit final (P + op.width P))

theorem map_eq_ok {α β : Type} {r : Reader α} {g : α → β} {s t : ReadStream} {a : α}
    (h : r s = .ok a t) : (g <$> r) s = .ok (g a) t := by
  show (r >>= fun a => pure (g a)) s = _
  rw [bind_ok h]
  rfl

theorem replays_bits (valueBits : ℕ) (value : UInt64) (n P : ℕ) :
    Replays (bits valueBits value n) P := by
  intro data s h
  by_cases hn : 1 ≤ n
  · obtain ⟨hmax, hroom, data', rfl, hputs⟩ := WriteStream.puts_serializeBits hn h
    refine ⟨fun _ => hroom, ⟨data', rfl, hputs⟩, fun final hlen => ?_⟩
    have hread := ReadStream.serializeBits_atBit _ final hmax fun _ => by rwa [hlen]
    have hfield := bitsAt_lt final P n
    have hword : ReadStream.bitsAt final P n < 2 ^ 64 :=
      lt_of_lt_of_le hfield (Nat.pow_le_pow_right (by norm_num) (by omega))
    rw [read, map_eq_ok hread, UInt64.toNat_ofNat', Nat.mod_eq_of_lt hword]
    rfl
  -- no bits: the call returns at once, the stream untouched
  · obtain rfl : n = 0 := by omega
    cases h
    refine ⟨fun hw => absurd hw (by simp [width]), ⟨data, rfl, ?_⟩, fun final _ => ?_⟩
    · rw [digits, width, pow_zero, Nat.mod_one]
      exact Puts.zero data P
    · have hread := ReadStream.serializeBits_atBit valueBits final (n := 0) (P := P)
        (by omega) (by omega)
      rw [read, map_eq_ok hread, decode, width]
      simp [ReadStream.bitsAt, Nat.mod_one]

/-- An integer off a byte boundary. -/
theorem replays_off {op : StreamOp} {P n : ℕ} (valueBits : ℕ) (value : UInt64) (hn : 1 ≤ n)
    (hwrite : ∀ data, op.write (WriteStream.atBit data P)
      = WriteStream.serializeBits valueBits value n (WriteStream.atBit data P))
    (hwidth : op.width P = n) (hdigits : op.digits P = value.toNat % 2 ^ n)
    (hread : ∀ final : List UInt8, P + n ≤ 8 * final.length →
      op.read (ReadStream.atBit final P)
        = .ok (op.decode P (ReadStream.bitsAt final P n)) (ReadStream.atBit final (P + n))) :
    Replays op P := by
  intro data s h
  rw [hwrite] at h
  obtain ⟨_, hroom, data', rfl, hputs⟩ := WriteStream.puts_serializeBits hn h
  rw [hwidth, hdigits]
  exact ⟨fun _ => hroom, ⟨data', rfl, hputs⟩, fun final hlen => hread final (by rwa [hlen])⟩

/-- Bytes on a byte boundary. -/
theorem replays_aligned {op : StreamOp} {P m : ℕ} (bs : List UInt8) (hP : P % 8 = 0)
    (hm : bs.length = m)
    (hwrite : ∀ data, op.write (WriteStream.atBit data P)
      = WriteStream.putAligned bs (WriteStream.atBit data P))
    (hwidth : op.width P = 8 * m) (hdigits : op.digits P = beNat bs)
    (hread : ∀ final : List UInt8, m ≤ final.length - P / 8 →
      op.read (ReadStream.atBit final P)
        = .ok (op.decode P (ReadStream.bitsAt final P (8 * m)))
            (ReadStream.atBit final (P + 8 * m))) :
    Replays op P := by
  subst hm
  intro data s h
  rw [hwrite] at h
  obtain ⟨hroom, data', rfl, hputs⟩ := WriteStream.puts_putAligned hP h
  rw [hwidth, hdigits]
  exact ⟨fun _ => by omega, ⟨data', rfl, hputs⟩, fun final hlen => hread final (by rwa [hlen])⟩

theorem replays_byte (value : UInt8) (P : ℕ) : Replays (byte value) P := by
  have hnum : beNat (beBytes 1 value.toNat) = value.toNat := by
    rw [beNat_beBytes, Nat.mod_eq_of_lt (show value.toNat < 256 ^ 1 from value.toNat_lt)]
  have hsmall : ∀ final : List UInt8,
      (UInt8.ofNat (ReadStream.bitsAt final P 8)).toNat = ReadStream.bitsAt final P 8 := by
    intro final
    rw [UInt8.toNat_ofNat', Nat.mod_eq_of_lt (bitsAt_lt final P 8)]
  by_cases hP : P % 8 = 0
  · refine replays_aligned (m := 1) (beBytes 1 value.toNat) hP rfl (fun data => ?_) rfl hnum.symm
      fun final hroom => ?_
    · rw [write, WriteStream.serializeByte, if_neg (by rw [WriteStream.bitPos_atBit]; omega)]
    · have hread : ReadStream.serializeByte (ReadStream.atBit final P)
          = .ok (UInt8.ofNat (ReadStream.bitsAt final P 8)) (ReadStream.atBit final (P + 8)) := by
        rw [ReadStream.serializeByte, if_neg (by rw [ReadStream.bitPos_atBit]; omega),
          if_neg (by rw [ReadStream.remaining_atBit]; omega),
          ReadStream.beNat_next hP hroom le_rfl rfl, ReadStream.advance_atBit rfl]
      rw [read, map_eq_ok hread, hsmall]
      rfl
  · refine replays_off (n := 8) 8 value.toUInt64 (by norm_num) (fun data => ?_) rfl ?_
      fun final hroom => ?_
    · rw [write, WriteStream.serializeByte, if_pos (by rwa [WriteStream.bitPos_atBit])]
    · rw [digits, UInt8.toNat_toUInt64, Nat.mod_eq_of_lt value.toNat_lt]
    · have hbits := ReadStream.serializeBits_atBit 32 final (n := 8) (P := P)
        (by norm_num) fun _ => hroom
      have hread : ReadStream.serializeByte (ReadStream.atBit final P)
          = .ok (UInt64.ofNat (ReadStream.bitsAt final P 8)).toUInt8
              (ReadStream.atBit final (P + 8)) := by
        rw [ReadStream.serializeByte, if_pos (by rwa [ReadStream.bitPos_atBit]), map_eq_ok hbits]
      rw [read, map_eq_ok hread, UInt64.toUInt8_ofNat', hsmall]
      rfl

theorem replays_uint16 (value : UInt16) (P : ℕ) : Replays (uint16 value) P := by
  have hnum : beNat (beBytes 2 value.toNat) = value.toNat := by
    rw [beNat_beBytes, Nat.mod_eq_of_lt (show value.toNat < 256 ^ 2 from value.toNat_lt)]
  by_cases hP : P % 8 = 0
  · refine replays_aligned (m := 2) (beBytes 2 value.toNat) hP rfl (fun data => ?_) rfl ?_
      fun final hroom => ?_
    · rw [write, WriteStream.serializeUint16, if_neg (by rw [WriteStream.bitPos_atBit]; omega)]
    · rw [digits, if_pos hP, hnum]
    · have hread : ReadStream.serializeUint16 (ReadStream.atBit final P)
          = .ok (UInt16.ofNat (ReadStream.bitsAt final P 16))
              (ReadStream.atBit final (P + 16)) := by
        rw [ReadStream.serializeUint16, if_neg (by rw [ReadStream.bitPos_atBit]; omega),
          if_neg (by rw [ReadStream.remaining_atBit]; omega),
          ReadStream.beNat_next hP hroom (by norm_num) rfl, ReadStream.advance_atBit rfl]
      rw [read, map_eq_ok hread, UInt16.toNat_ofNat', Nat.mod_eq_of_lt (bitsAt_lt final P 16),
        decode, if_pos hP]
  · refine replays_off (n := 16) 16 (byteswap16 value).toUInt64 (by norm_num) (fun data => ?_) rfl
      ?_ fun final hroom => ?_
    · rw [write, WriteStream.serializeUint16, if_pos (by rwa [WriteStream.bitPos_atBit])]
    · rw [digits, if_neg hP, UInt16.toNat_toUInt64, Nat.mod_eq_of_lt (UInt16.toNat_lt _)]
    · have hbits := ReadStream.serializeBits_atBit 32 final (n := 16) (P := P)
        (by norm_num) fun _ => hroom
      have hread : ReadStream.serializeUint16 (ReadStream.atBit final P)
          = .ok (byteswap16 (UInt64.ofNat (ReadStream.bitsAt final P 16)).toUInt16)
              (ReadStream.atBit final (P + 16)) := by
        rw [ReadStream.serializeUint16, if_pos (by rwa [ReadStream.bitPos_atBit]), map_eq_ok hbits]
      rw [read, map_eq_ok hread, UInt64.toUInt16_ofNat', decode, if_neg hP]

theorem replays_uint32 (value : UInt32) (P : ℕ) : Replays (uint32 value) P := by
  have hnum : beNat (beBytes 4 value.toNat) = value.toNat := by
    rw [beNat_beBytes, Nat.mod_eq_of_lt (show value.toNat < 256 ^ 4 from value.toNat_lt)]
  by_cases hP : P % 8 = 0
  · refine replays_aligned (m := 4) (beBytes 4 value.toNat) hP rfl (fun data => ?_) rfl ?_
      fun final hroom => ?_
    · rw [write, WriteStream.serializeUint32, if_neg (by rw [WriteStream.bitPos_atBit]; omega)]
    · rw [digits, if_pos hP, hnum]
    · have hread : ReadStream.serializeUint32 (ReadStream.atBit final P)
          = .ok (UInt32.ofNat (ReadStream.bitsAt final P 32))
              (ReadStream.atBit final (P + 32)) := by
        rw [ReadStream.serializeUint32, if_neg (by rw [ReadStream.bitPos_atBit]; omega),
          if_neg (by rw [ReadStream.remaining_atBit]; omega),
          ReadStream.beNat_next hP hroom (by norm_num) rfl, ReadStream.advance_atBit rfl]
      rw [read, map_eq_ok hread, UInt32.toNat_ofNat', Nat.mod_eq_of_lt (bitsAt_lt final P 32),
        decode, if_pos hP]
  · refine replays_off (n := 32) 32 (byteswap32 value).toUInt64 (by norm_num) (fun data => ?_) rfl
      ?_ fun final hroom => ?_
    · rw [write, WriteStream.serializeUint32, if_pos (by rwa [WriteStream.bitPos_atBit])]
    · rw [digits, if_neg hP, UInt32.toNat_toUInt64, Nat.mod_eq_of_lt (UInt32.toNat_lt _)]
    · have hbits := ReadStream.serializeBits_atBit 32 final (n := 32) (P := P)
        (by norm_num) fun _ => hroom
      have hread : ReadStream.serializeUint32 (ReadStream.atBit final P)
          = .ok (byteswap32 (UInt64.ofNat (ReadStream.bitsAt final P 32)).toUInt32)
              (ReadStream.atBit final (P + 32)) := by
        rw [ReadStream.serializeUint32, if_pos (by rwa [ReadStream.bitPos_atBit]), map_eq_ok hbits]
      rw [read, map_eq_ok hread, UInt64.toUInt32_ofNat', decode, if_neg hP]

theorem replays_uint64 (value : UInt64) {P : ℕ} (hP : P % 8 = 0) : Replays (uint64 value) P := by
  have hnum : beNat (beBytes 8 value.toNat) = value.toNat := by
    rw [beNat_beBytes, Nat.mod_eq_of_lt (show value.toNat < 256 ^ 8 from value.toNat_lt)]
  refine replays_aligned (m := 8) (beBytes 8 value.toNat) hP rfl (fun data => ?_) (if_pos hP)
    hnum.symm fun final hroom => ?_
  · rw [write, WriteStream.serializeUint64, if_neg (by rw [WriteStream.bitPos_atBit]; omega)]
  · have hread : ReadStream.serializeUint64 (ReadStream.atBit final P)
        = .ok (UInt64.ofNat (ReadStream.bitsAt final P 64)) (ReadStream.atBit final (P + 64)) := by
      rw [ReadStream.serializeUint64, if_neg (by rw [ReadStream.bitPos_atBit]; omega),
        if_neg (by rw [ReadStream.remaining_atBit]; omega),
        ReadStream.beNat_next hP hroom (by norm_num) rfl, ReadStream.advance_atBit rfl]
    rw [read, map_eq_ok hread, UInt64.toNat_ofNat', Nat.mod_eq_of_lt (bitsAt_lt final P 64)]
    rfl

/-- Bytes are only written on a byte boundary. -/
theorem replays_bytes (value : List UInt8) (P : ℕ) : Replays (bytes value) P := by
  by_cases hP : P % 8 = 0
  · refine replays_aligned (m := value.length) value hP rfl (fun data => ?_) rfl rfl
      fun final hroom => ?_
    · rw [write, WriteStream.serializeBytes, if_neg (by rw [WriteStream.bitPos_atBit]; omega)]
    · have hlen : value.length = ((ReadStream.atBit final P).next value.length).length := by
        rw [ReadStream.next, List.length_take, List.length_drop]
        exact (Nat.min_eq_left hroom).symm
      have hfield : (ReadStream.atBit final P).next value.length
          = beBytes value.length (ReadStream.bitsAt final P (8 * value.length)) := by
        -- `beNat_next` needs a byte to start from
        by_cases hempty : value.length = 0
        · rw [hempty, ReadStream.next, List.take_zero, beBytes_zero]
        · have hbytes := beBytes_beNat ((ReadStream.atBit final P).next value.length)
          rw [← hlen, ReadStream.beNat_next hP hroom (by omega) rfl] at hbytes
          exact hbytes.symm
      have hread : ReadStream.serializeBytes value.length (ReadStream.atBit final P)
          = .ok (beBytes value.length (ReadStream.bitsAt final P (8 * value.length)))
              (ReadStream.atBit final (P + 8 * value.length)) := by
        rw [ReadStream.serializeBytes, if_neg (by rw [ReadStream.bitPos_atBit]; omega),
          if_neg (by rw [ReadStream.remaining_atBit]; omega), hfield,
          ReadStream.advance_atBit rfl]
      rw [read, map_eq_ok hread]
      rfl
  · intro data s h
    rw [write, WriteStream.serializeBytes, if_pos (by rwa [WriteStream.bitPos_atBit])] at h
    cases h

theorem replays_advanceBits (n P : ℕ) : Replays (advanceBits n) P := by
  intro data s h
  obtain ⟨hroom, data', rfl, hputs⟩ := WriteStream.puts_advanceBits h
  refine ⟨fun hn => ?_, ⟨data', rfl, hputs⟩, fun final hlen => ?_⟩
  · rw [width] at hn ⊢
    omega
  · have hread := ReadStream.advanceBits_atBit final (n := n) (P := P) (by rwa [hlen])
    rw [read, map_eq_ok hread]
    rfl

/-- On a byte boundary, or for no bytes at all, `advanceBytes` writes zeros. -/
theorem replays_advanceBytes {n P : ℕ} (h : (advanceBytes n).jumps P = false) :
    Replays (advanceBytes n) P := by
  by_cases hP : P % 8 = 0
  · refine replays_aligned (m := n) (List.replicate n 0) hP (List.length_replicate ..)
      (fun data => ?_) (if_pos hP) (beNat_replicate_zero n).symm fun final hroom => ?_
    · rw [write, WriteStream.advanceBytes, if_neg (by rw [WriteStream.bitPos_atBit]; omega)]
    · have hread : ReadStream.advanceBytes n (ReadStream.atBit final P)
          = .ok () (ReadStream.atBit final (P + 8 * n)) := by
        rw [ReadStream.advanceBytes, if_neg (by rw [ReadStream.bitPos_atBit]; omega),
          ReadStream.skipBytes, if_neg (by rw [ReadStream.remaining_atBit]; omega),
          ReadStream.advance_atBit rfl]
      rw [read, map_eq_ok hread]
      rfl
  -- off a byte boundary only the advance by nothing does not jump
  · have hn : n = 0 := by
      by_contra hn
      rw [jumps, decide_eq_true ⟨hP, hn⟩] at h
      cases h
    subst hn
    intro data s hs
    rw [write, WriteStream.advanceBytes, if_pos (by rwa [WriteStream.bitPos_atBit])] at hs
    obtain ⟨_, s₁, hbits, hfill⟩ := bind_eq_ok.mp hs
    obtain ⟨hroom, data', rfl, hputs⟩ := WriteStream.puts_advanceBits hbits
    have hsame : (WriteStream.atBit data' P).put [] = data' := by simp [WriteStream.put]
    have hs : s = WriteStream.atBit data' P := by
      rw [WriteStream.putAligned, if_neg (by simp)] at hfill
      cases hfill
      rw [List.replicate_zero, mul_zero, add_zero, hsame]
      rfl
    have hw : (advanceBytes 0).width P = 0 := if_neg hP
    rw [hw]
    refine ⟨fun hn => by omega, ⟨data', hs, hputs⟩, fun final hlen => ?_⟩
    have hskip := ReadStream.advanceBits_atBit final (n := 8 * 0) (P := P) (by rwa [hlen])
    have hread : ReadStream.advanceBytes 0 (ReadStream.atBit final P)
        = .ok () (ReadStream.atBit final P) := by
      rw [ReadStream.advanceBytes, if_pos (by rwa [ReadStream.bitPos_atBit]), bind_ok hskip]
      rfl
    rw [read, map_eq_ok hread]
    rfl

/-- What the operation writes and reads at bit `P`, unless it jumps or is a 64-bit
integer off a byte boundary. -/
theorem replays (op : StreamOp) {P : ℕ} (hjumps : op.jumps P = false)
    (huint64 : op.isUint64 = true → P % 8 = 0) : Replays op P := by
  cases op with
  | bits valueBits value n => exact replays_bits valueBits value n P
  | byte value => exact replays_byte value P
  | uint16 value => exact replays_uint16 value P
  | uint32 value => exact replays_uint32 value P
  | uint64 value => exact replays_uint64 value (huint64 rfl)
  | bytes value => exact replays_bytes value P
  | advanceBits n => exact replays_advanceBits n P
  | advanceBytes n => exact replays_advanceBytes hjumps

/-! ### Runs -/

/-- From bit `P` on the buffer is as it was before the run, but for the byte of `P`
behind `P`: it is zero unless `stale`. -/
structure Ahead (buffer : List UInt8) (P : ℕ) (stale : Bool) (data : List UInt8) : Prop where
  unaligned : stale = true → P % 8 ≠ 0
  tail : ∀ i, P ≤ i → i < 8 * ((P + 7) / 8) → bitAt data i = (stale && bitAt buffer i)
  behind : ∀ i, 8 * ((P + 7) / 8) ≤ i → bitAt data i = bitAt buffer i

theorem Ahead.start (buffer : List UInt8) : Ahead buffer 0 false buffer :=
  ⟨fun h => (by cases h), fun i _ hi => by omega, fun i _ => rfl⟩

theorem Ahead.tailBit_eq {buffer data : List UInt8} {P : ℕ} {stale : Bool}
    (h : Ahead buffer P stale data) {i : ℕ} (hi : P ≤ i) :
    tailBit data P i = (decide (i / 8 = P / 8) && (stale && bitAt buffer i)) := by
  by_cases hbyte : P % 8 ≠ 0 ∧ i / 8 = P / 8
  · rw [tailBit, decide_eq_true hbyte, decide_eq_true hbyte.2, Bool.true_and, Bool.true_and,
      h.tail i hi (by omega)]
  · rw [tailBit, decide_eq_false hbyte, Bool.false_and]
    by_cases hP : P % 8 = 0
    -- on a byte boundary there is no byte to merge with
    · have hstale : stale = false := by
        by_contra hs
        exact h.unaligned (by simpa using hs) hP
      rw [hstale, Bool.false_and, Bool.and_false]
    · rw [decide_eq_false (by omega), Bool.false_and]

/-- A field written ahead. -/
theorem Ahead.puts {buffer data data' : List UInt8} {P n d : ℕ} {stale : Bool}
    (h : Ahead buffer P stale data) (hputs : Puts data data' P n d) :
    Ahead buffer (P + n) (stale && decide ((P + n) / 8 = P / 8)) data' := by
  refine ⟨fun hs => ?_, fun i hi hi' => ?_, fun i hi => ?_⟩
  · rw [Bool.and_eq_true, decide_eq_true_eq] at hs
    have := h.unaligned hs.1
    omega
  · rw [hputs.rest i hi (by omega), h.tailBit_eq (by omega)]
    by_cases hsame : (P + n) / 8 = P / 8
    · rw [decide_eq_true hsame, decide_eq_true (by omega), Bool.true_and, Bool.and_true]
    · rw [decide_eq_false hsame, decide_eq_false (by omega), Bool.false_and, Bool.and_false,
        Bool.false_and]
  · rw [hputs.behind i (by omega) (by omega)]
    exact h.behind i (by omega)

/-- The field as it is found afterwards: the digits, merged with what the byte of
`P` held. -/
theorem Ahead.bitsAt_eq_iff {buffer data data' final : List UInt8} {P n d : ℕ} {stale : Bool}
    (h : Ahead buffer P stale data) (hputs : Puts data data' P n d) (hd : d < 2 ^ n)
    (hroom : 1 ≤ n → P + n ≤ 8 * final.length)
    (hfinal : ∀ i < P + n, bitAt final i = bitAt data' i) :
    ReadStream.bitsAt final P n = d ↔ (stale = true → ∀ j < 8 - P % 8, j < n →
      bitAt buffer (P + j) = true → d.testBit (n - 1 - j) = true) := by
  by_cases hn : 1 ≤ n
  · have hbit : ∀ j < n, (ReadStream.bitsAt final P n).testBit (n - 1 - j)
        = (d.testBit (n - 1 - j) || (decide (j < 8 - P % 8) && (stale && bitAt buffer (P + j)))) := by
      intro j hj
      rw [testBit_bitsAt (hroom hn), decide_eq_true (by omega), Bool.true_and,
        show P + n - 1 - (n - 1 - j) = P + j by omega, hfinal (P + j) (by omega),
        hputs.field (P + j) (by omega) (by omega), h.tailBit_eq (by omega),
        show P + n - 1 - (P + j) = n - 1 - j by omega]
      congr 3
      exact propext (by omega)
    -- each bit of the field is the digit or, in the byte of `P`, the stale bit
    constructor
    · intro heq hstale j hj hjn hset
      have hb := hbit j hjn
      rw [heq, hstale, hset, decide_eq_true hj] at hb
      simpa using hb
    · intro hset
      refine Nat.eq_of_testBit_eq fun j => ?_
      -- above the field both numbers are zero, within it `hbit` compares the bits
      by_cases hj : j < n
      · have hb := hbit (n - 1 - j) (by omega)
        rw [show n - 1 - (n - 1 - j) = j by omega] at hb
        rw [hb]
        cases hs : stale && (decide (n - 1 - j < 8 - P % 8) && bitAt buffer (P + (n - 1 - j))) with
        | false =>
          rw [← Bool.and_assoc, Bool.and_comm (decide _), Bool.and_assoc, hs, Bool.or_false]
        | true =>
          rw [Bool.and_eq_true, Bool.and_eq_true, decide_eq_true_eq] at hs
          have hdigit := hset hs.1 (n - 1 - j) hs.2.1 (by omega) hs.2.2
          rw [show n - 1 - (n - 1 - j) = j by omega] at hdigit
          rw [hdigit, Bool.true_or]
      · have hfield := bitsAt_lt final P n
        have hpow : 2 ^ n ≤ 2 ^ j := Nat.pow_le_pow_right (by norm_num) (by omega)
        rw [Nat.testBit_lt_two_pow (lt_of_lt_of_le hfield hpow),
          Nat.testBit_lt_two_pow (lt_of_lt_of_le hd hpow)]
  · obtain rfl : n = 0 := by omega
    have hzero := bitsAt_lt final P 0
    rw [pow_zero] at hd hzero
    exact iff_of_true (by omega) fun _ j _ hj => absurd hj (by omega)

/-- What one operation does to what is ahead, and when it is read back. -/
theorem step {buffer data : List UInt8} {P : ℕ} {stale : Bool} {op : StreamOp} {s : WriteStream}
    (hahead : Ahead buffer P stale data) (h : op.write (WriteStream.atBit data P) = .ok () s) :
    ∃ data', s = WriteStream.atBit data' (P + op.width P) ∧ data'.length = data.length ∧
      (∀ i < P, bitAt data' i = bitAt data i) ∧
      Ahead buffer (P + op.width P) (op.leaves P stale) data' ∧
      ∀ final : List UInt8, final.length = data.length →
        (∀ i < P + op.width P, bitAt final i = bitAt data' i) →
        (op.Fits buffer P stale → op.read (ReadStream.atBit final P)
          = .ok op.field (ReadStream.atBit final (P + op.width P))) ∧
        (¬op.Fits buffer P stale → ∀ t, op.read (ReadStream.atBit final P) ≠ .ok op.field t) := by
  -- a jump moves by 16 bits a byte and leaves everything behind `P` as it was,
  -- so its last byte is stale
  by_cases hjumps : op.jumps P = true
  · cases op with
    | advanceBytes n =>
      rw [jumps, decide_eq_true_eq] at hjumps
      obtain ⟨hP, hn⟩ := hjumps
      have hw : (advanceBytes n).width P = 16 * n := if_neg hP
      have hleaves : (advanceBytes n).leaves P stale = true := by
        rw [leaves, jumps, decide_eq_true ⟨hP, hn⟩, Bool.true_or]
      obtain ⟨hroom, hroom', data', rfl, hlen, hbefore, hbehind⟩ :=
        WriteStream.advanceBytes_off hP (by omega) h
      rw [hw, hleaves]
      refine ⟨data', rfl, hlen, hbefore, ⟨fun _ => by omega, fun i hi hi' => ?_, fun i hi => ?_⟩,
        fun final hfinal _ => ⟨fun _ => ?_, fun hfits => ?_⟩⟩
      · rw [hbehind i (by omega), hahead.behind i (by omega), Bool.true_and]
      · rw [hbehind i (by omega), hahead.behind i (by omega)]
      · have hread := ReadStream.advanceBytes_off final hP (show 1 ≤ n by omega)
          (by omega) (by omega)
        rw [read, map_eq_ok hread]
        rfl
      · exact absurd ⟨fun hu => (by cases hu), fun hs => (by cases hs)⟩ hfits
    | _ => cases hjumps
  rw [Bool.not_eq_true] at hjumps
  have hleaves : op.leaves P stale = (stale && decide ((P + op.width P) / 8 = P / 8)) := by
    rw [leaves, hjumps, Bool.false_or]
  rw [hleaves]
  by_cases hu : op.isUint64 = true → P % 8 = 0
  · obtain ⟨hroom, ⟨data', rfl, hputs⟩, hread⟩ := replays op hjumps hu data s h
    refine ⟨data', rfl, hputs.length, hputs.before, hahead.puts hputs, fun final hlen hfinal => ?_⟩
    -- the reader decodes what is found at `P`, which later calls do not touch
    have hkept := hahead.bitsAt_eq_iff hputs (digits_lt hu) (by rwa [hlen]) hfinal
    rw [hread final hlen]
    refine ⟨fun hfits => ?_, fun hfits t heq => ?_⟩
    -- skipped bits may have been merged: nothing of them is returned
    · by_cases hskips : op.skips = true
      · cases op with
        | advanceBits n => rfl
        | advanceBytes n => rfl
        | _ => cases hskips
      · rw [hkept.mpr (hfits.2 (by simpa using hskips)), decode_digits]
    · injection heq with hvalue _
      refine hfits ⟨hu, fun hskips => hkept.mp ?_⟩
      exact eq_digits_of_decode hskips (bitsAt_lt _ _ _) hvalue
  · -- a 64-bit integer off a byte boundary: 32 bits are written, none is read
    obtain ⟨hop, hP⟩ := Classical.not_imp.mp hu
    cases op with
    | uint64 value =>
      have hw : (uint64 value).width P = 32 := if_neg hP
      rw [write, WriteStream.serializeUint64, if_pos (by rwa [WriteStream.bitPos_atBit])] at h
      obtain ⟨_, _, data', rfl, hputs⟩ := WriteStream.puts_serializeBits (by norm_num) h
      rw [hw]
      refine ⟨data', rfl, hputs.length, hputs.before, hahead.puts hputs, fun final _ _ => ?_⟩
      refine ⟨fun hfits => absurd (hfits.1 rfl) hP, fun _ t heq => ?_⟩
      have herr : ReadStream.serializeUint64 (ReadStream.atBit final P)
          = .error "not implemented" (ReadStream.atBit final P) := by
        rw [ReadStream.serializeUint64, if_pos (by rwa [ReadStream.bitPos_atBit])]
      rw [read] at heq
      change (ReadStream.serializeUint64 >>= fun v => pure (Field.number v.toNat)) _ = _ at heq
      rw [bind_error herr] at heq
      cases heq
    | _ => cases hop

end StreamOp

open StreamOp

/-- The operations called one after another on a writer. -/
def writeOps : List StreamOp → Writer
  | [] => pure ()
  | op :: ops => do
    op.write
    writeOps ops

/-- The same calls on a reader, with what they yield. -/
def readOps : List StreamOp → Reader (List Field)
  | [] => pure []
  | op :: ops => do
    let field ← op.read
    let fields ← readOps ops
    pure (field :: fields)

/-- Every value written by the operations from bit `P` on is kept. -/
def Intact (buffer : List UInt8) : List StreamOp → ℕ → Bool → Prop
  | [], _, _ => True
  | op :: ops, P, stale =>
    op.Fits buffer P stale ∧ Intact buffer ops (P + op.width P) (op.leaves P stale)

instance decidableIntact (buffer : List UInt8) :
    ∀ ops P stale, Decidable (Intact buffer ops P stale)
  | [], _, _ => .isTrue trivial
  | _ :: ops, _, _ => @instDecidableAnd _ _ _ (decidableIntact buffer ops _ _)

/-- A run of the writer and its replay. -/
theorem run {buffer : List UInt8} (ops : List StreamOp) :
    ∀ {data : List UInt8} {P : ℕ} {stale : Bool} {ws : WriteStream}, Ahead buffer P stale data →
      writeOps ops (WriteStream.atBit data P) = .ok () ws →
      ∃ Q, ws = WriteStream.atBit ws.data Q ∧ P ≤ Q ∧ ws.data.length = data.length ∧
        (∀ i < P, bitAt ws.data i = bitAt data i) ∧
        (readOps ops (ReadStream.atBit ws.data P)
          = .ok (ops.map field) (ReadStream.atBit ws.data Q) ↔ Intact buffer ops P stale) := by
  -- on the calls, for every stream that `Ahead` describes: the rest of the run
  -- writes from the next position on, so `ih` leaves what `op` wrote
  induction ops with
  | nil =>
    intro data P stale ws hahead h
    cases h
    exact ⟨P, rfl, le_rfl, rfl, fun i _ => rfl, iff_of_true rfl trivial⟩
  | cons op ops ih =>
    intro data P stale ws hahead h
    obtain ⟨_, s, hop, hops⟩ := bind_eq_ok.mp h
    obtain ⟨data₁, rfl, hlen₁, hbefore₁, hahead₁, hread⟩ := step hahead hop
    obtain ⟨Q, hQ, hle, hlen, hbefore, hiff⟩ := ih hahead₁ hops
    obtain ⟨hkeeps, hloses⟩ := hread ws.data (hlen.trans hlen₁) hbefore
    refine ⟨Q, hQ, by omega, hlen.trans hlen₁,
      fun i hi => (hbefore i (by omega)).trans (hbefore₁ i hi), ?_⟩
    rw [Intact, ← hiff, readOps, List.map_cons]
    constructor
    · intro hall
      obtain ⟨v, t, hv, hrest⟩ := bind_eq_ok.mp hall
      obtain ⟨vs, t', hvs, hpure⟩ := bind_eq_ok.mp hrest
      injection hpure with hcons ht
      injection hcons with hhead htail
      subst hhead htail ht
      -- a lost value shows at its own call, whatever is read after it
      by_cases hfits : op.Fits buffer P stale
      · have hstate := hkeeps hfits
        rw [hv] at hstate
        injection hstate with _ ht
        subst ht
        exact ⟨hfits, hvs⟩
      · exact absurd hv (hloses hfits t)
    · rintro ⟨hfits, hrest⟩
      rw [bind_ok (hkeeps hfits), bind_ok hrest]
      rfl

/-- Every value written to a fresh stream by a run of calls is read back, and the
reader ends where the writer does, exactly when the run is intact. -/
theorem readOps_writeOps_iff (buffer : List UInt8) (ops : List StreamOp) (ws : WriteStream)
    (h : writeOps ops (WriteStream.ofBuffer buffer) = .ok () ws) :
    readOps ops (ReadStream.ofBuffer ws.data)
      = .ok (ops.map field) ⟨ws.data, ws.bytePos, ws.bitPos⟩ ↔ Intact buffer ops 0 false := by
  obtain ⟨Q, hQ, _, _, _, hiff⟩ := run ops (Ahead.start buffer) h
  have hstart : ReadStream.ofBuffer ws.data = ReadStream.atBit ws.data 0 := rfl
  have hend : (⟨ws.data, ws.bytePos, ws.bitPos⟩ : ReadStream) = ReadStream.atBit ws.data Q := by
    rw [hQ]
    rfl
  rw [hstart, hend, hiff]

/-- Three bits, two bytes skipped and a byte whose digits cover those the buffer held. -/
theorem readOps_writeOps_iff_three : readOps [.bits 8 5 3, .advanceBytes 1, .byte 255]
      (ReadStream.ofBuffer [160, 0, 31, 224])
      = .ok [.number 5, .skipped, .number 255] ⟨[160, 0, 31, 224], 3, 3⟩ ↔
    Intact [1, 2, 3, 4] [.bits 8 5 3, .advanceBytes 1, .byte 255] 0 false :=
  readOps_writeOps_iff [1, 2, 3, 4] [.bits 8 5 3, .advanceBytes 1, .byte 255]
    ⟨[160, 0, 31, 224], 3, 3⟩ rfl

/-- Four bits and a 64-bit integer are written but not read. -/
theorem not_forall_readOps_writeOps : ¬∀ (buffer : List UInt8) (ops : List StreamOp)
    (ws : WriteStream), writeOps ops (WriteStream.ofBuffer buffer) = .ok () ws →
    readOps ops (ReadStream.ofBuffer ws.data)
      = .ok (ops.map field) ⟨ws.data, ws.bytePos, ws.bitPos⟩ := by
  intro h
  have hrun := h (List.replicate 9 0) [.bits 8 15 4, .uint64 1]
    ⟨[240, 0, 0, 0, 0, 0, 0, 0, 0], 4, 4⟩ rfl
  cases hrun

end Scion
