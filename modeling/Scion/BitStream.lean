/-
Bit streams over packet buffers (`bit_stream.hpp`).

`ReadStream` and `WriteStream` are a buffer with a byte and a bit position.
Every operation is an `EStateM` program whose error is the message given to
`err.error`; a failing operation leaves the stream where the source leaves it.

* `ReadStream.cursor pre post`, `WriteStream.cursor pre post` — the streams
  standing on a byte boundary between `pre` and `post`;
* `reads_*`, `writes_*` — what the aligned operations do there;
* `ReadStream.serializeBits_run`, `writesBits_*` — the same for
  the bit-granular operations, whose bytes are the big-endian numeral of the
  fields written so far.
-/
import Scion.BigEndian
import Scion.Codec

namespace Scion

open BigEndian Codec

/-- `details::byteswapBE` of the eight bytes found at a `std::uint64_t`: bytes
copied to the front of the zeroed word, read as a big-endian number. -/
def loadWord (bytes : List UInt8) : UInt64 :=
  UInt64.ofNat (beNat (bytes ++ List.replicate (8 - bytes.length) 0))

/-- `std::byteswap` of a 16-bit integer. -/
def byteswap16 (x : UInt16) : UInt16 := (x <<< 8) ||| (x >>> 8)

/-- `std::byteswap` of a 32-bit integer. -/
def byteswap32 (x : UInt32) : UInt32 :=
  UInt32.ofNat (beNat (beBytes 4 x.toNat).reverse)

/-- `std::byteswap` of a 64-bit integer. -/
def byteswap64 (x : UInt64) : UInt64 :=
  UInt64.ofNat (beNat (beBytes 8 x.toNat).reverse)

/-- Two bytes are those of the 16-bit integer they denote. -/
theorem beBytes_uint16 {bs : List UInt8} (h : bs.length = 2) :
    beBytes 2 (UInt16.ofNat (beNat bs)).toNat = bs := by
  have hlt := beNat_lt bs
  rw [h] at hlt
  rw [UInt16.toNat_ofNat', Nat.mod_eq_of_lt (show beNat bs < 2 ^ 16 from hlt), ← h,
    beBytes_beNat]

/-- Four bytes are those of the 32-bit integer they denote. -/
theorem beBytes_uint32 {bs : List UInt8} (h : bs.length = 4) :
    beBytes 4 (UInt32.ofNat (beNat bs)).toNat = bs := by
  have hlt := beNat_lt bs
  rw [h] at hlt
  rw [UInt32.toNat_ofNat', Nat.mod_eq_of_lt (show beNat bs < 2 ^ 32 from hlt), ← h,
    beBytes_beNat]

theorem ofNat_beNat_singleton (b : UInt8) : UInt8.ofNat (beNat [b]) = b := by
  simp [beNat]

/-! ### Reading -/

/-- Bit stream for reading from a packet. -/
structure ReadStream where
  data : List UInt8
  bytePos : ℕ
  bitPos : ℕ
  deriving DecidableEq, Repr

/-- Programs over a `ReadStream`; errors are the messages of `StreamError`. -/
abbrev Reader (α : Type) := EStateM String ReadStream α

namespace ReadStream

def ofBuffer (buffer : List UInt8) : ReadStream := ⟨buffer, 0, 0⟩

/-- `data.end() - byteIter`. -/
def remaining (rs : ReadStream) : ℕ := rs.data.length - rs.bytePos

/-- The stream as a condition: `byteIter != data.end()`. -/
def hasData (rs : ReadStream) : Bool := rs.bytePos != rs.data.length

/-- The next `n` bytes of the buffer. -/
def next (rs : ReadStream) (n : ℕ) : List UInt8 := (rs.data.drop rs.bytePos).take n

def advance (rs : ReadStream) (n : ℕ) : ReadStream := { rs with bytePos := rs.bytePos + n }

/-- `seek` to a byte and bit offset; `none` stands for `npos`. -/
def seek (byteOffset : Option ℕ) (bitOffset : ℕ) (rs : ReadStream) : Bool × ReadStream :=
  match byteOffset with
  | none =>
    if bitOffset ≠ 0 then (false, rs)
    else (true, { rs with bytePos := rs.data.length, bitPos := 0 })
  | some offset =>
    if bitOffset > 8 then (false, rs)
    else if offset > rs.data.length then (false, rs)
    else if offset = rs.data.length ∧ bitOffset > 0 then (false, rs)
    else (true, { rs with bytePos := offset, bitPos := bitOffset })

/-- A view of the next bytes without moving; `none` stands for `npos`. -/
def lookahead (bytes : Option ℕ) : Reader (List UInt8) := fun rs =>
  if rs.bitPos ≠ 0 then .error "alignment error" rs
  else match bytes with
    | none => .ok (rs.data.drop rs.bytePos) rs
    | some n =>
      if rs.remaining < n then .error "out of data to read" rs
      else .ok (rs.next n) rs

/-- `valueBits` is the width of the integer type the value is read into. -/
def serializeBits (valueBits bits : ℕ) : Reader UInt64 := fun rs =>
  if bits = 0 then .ok 0 rs
  else if bits > min (64 - 7) valueBits then .error "invalid argument" rs
  else
    let nBytes := (bits + rs.bitPos + 7) / 8
    if rs.remaining < nBytes then .error "out of data to read" rs
    else
      -- shift out the bits already read, then the MSBs into place
      let word := loadWord (rs.next nBytes) <<< UInt64.ofNat rs.bitPos
      let word := word >>> UInt64.ofNat (64 - bits)
      .ok word ⟨rs.data, rs.bytePos + (rs.bitPos + bits) / 8, (rs.bitPos + bits) % 8⟩

/-- The loop of `advanceBits`: skip `n` words of 32 bits. -/
def advanceWords : ℕ → Reader Unit
  | 0 => pure ()
  | n + 1 => do
    let _ ← serializeBits 32 32
    advanceWords n

def advanceBits (bits : ℕ) : Reader Unit := fun rs =>
  if rs.remaining < (bits + rs.bitPos + 7) / 8 then .error "out of data to read" rs
  else (do advanceWords (bits / 32); let _ ← serializeBits 32 (bits % 32)) rs

/-- Move the byte position, or the error at the end of the buffer. -/
def skipBytes (bytes : ℕ) : Reader Unit := fun rs =>
  if rs.remaining < bytes then .error "out of data to read" rs
  else .ok () (rs.advance bytes)

/-- Off a byte boundary the bits are skipped and the byte position then moves
once more, as in the source. -/
def advanceBytes (bytes : ℕ) : Reader Unit := fun rs =>
  if rs.bitPos ≠ 0 then (do advanceBits (8 * bytes); skipBytes bytes) rs
  else skipBytes bytes rs

def serializeByte : Reader UInt8 := fun rs =>
  if rs.bitPos ≠ 0 then (UInt64.toUInt8 <$> serializeBits 32 8) rs
  else if rs.remaining < 1 then .error "out of data to read" rs
  else .ok (UInt8.ofNat (beNat (rs.next 1))) (rs.advance 1)

def serializeUint16 : Reader UInt16 := fun rs =>
  if rs.bitPos ≠ 0 then ((fun v => byteswap16 v.toUInt16) <$> serializeBits 32 16) rs
  else if rs.remaining < 2 then .error "out of data to read" rs
  else .ok (UInt16.ofNat (beNat (rs.next 2))) (rs.advance 2)

def serializeUint32 : Reader UInt32 := fun rs =>
  if rs.bitPos ≠ 0 then ((fun v => byteswap32 v.toUInt32) <$> serializeBits 32 32) rs
  else if rs.remaining < 4 then .error "out of data to read" rs
  else .ok (UInt32.ofNat (beNat (rs.next 4))) (rs.advance 4)

def serializeUint64 : Reader UInt64 := fun rs =>
  if rs.bitPos ≠ 0 then .error "not implemented" rs
  else if rs.remaining < 8 then .error "out of data to read" rs
  else .ok (UInt64.ofNat (beNat (rs.next 8))) (rs.advance 8)

def serializeBytes (n : ℕ) : Reader (List UInt8) := fun rs =>
  if rs.bitPos ≠ 0 then .error "not implemented" rs
  else if rs.remaining < n then .error "out of data to read" rs
  else .ok (rs.next n) (rs.advance n)

end ReadStream

/-! ### Writing -/

/-- Bit stream for writing to a packet. -/
structure WriteStream where
  data : List UInt8
  bytePos : ℕ
  bitPos : ℕ
  deriving DecidableEq, Repr

/-- Programs over a `WriteStream`. -/
abbrev Writer := EStateM String WriteStream Unit

namespace WriteStream

def ofBuffer (buffer : List UInt8) : WriteStream := ⟨buffer, 0, 0⟩

def remaining (ws : WriteStream) : ℕ := ws.data.length - ws.bytePos

/-- The byte part of `getPos`. -/
def getPos : EStateM String WriteStream ℕ := fun ws => .ok ws.bytePos ws

/-- Overwrite the bytes at the write position. -/
def put (ws : WriteStream) (bytes : List UInt8) : List UInt8 :=
  ws.data.take ws.bytePos ++ bytes ++ ws.data.drop (ws.bytePos + bytes.length)

def seek (byteOffset : Option ℕ) (bitOffset : ℕ) (ws : WriteStream) : Bool × WriteStream :=
  match byteOffset with
  | none =>
    if bitOffset ≠ 0 then (false, ws)
    else (true, { ws with bytePos := ws.data.length, bitPos := 0 })
  | some offset =>
    if bitOffset > 8 then (false, ws)
    else if offset > ws.data.length then (false, ws)
    else if offset = ws.data.length ∧ bitOffset > 0 then (false, ws)
    else (true, { ws with bytePos := offset, bitPos := bitOffset })

def serializeBits (valueBits : ℕ) (value : UInt64) (bits : ℕ) : Writer := fun ws =>
  if bits = 0 then .ok () ws
  else if bits > min (64 - 7) valueBits then .error "invalid argument" ws
  else
    let nBytes := (bits + ws.bitPos + 7) / 8
    if ws.remaining < nBytes then .error "out of space" ws
    else
      let word := value <<< UInt64.ofNat (64 - bits)
      let word :=
        if ws.bitPos ≠ 0 then
          -- make room for the occupied bits of the first byte and merge them
          (word >>> UInt64.ofNat ws.bitPos) ||| ((ws.data.getD ws.bytePos 0).toUInt64 <<< 56)
        else word
      let bytes := (beBytes 8 word.toNat).take nBytes
      .ok () ⟨ws.put bytes, ws.bytePos + (ws.bitPos + bits) / 8, (ws.bitPos + bits) % 8⟩

/-- The loop of `advanceBits`: write `n` zero words of 32 bits. -/
def advanceWords : ℕ → Writer
  | 0 => pure ()
  | n + 1 => do
    serializeBits 32 0 32
    advanceWords n

def advanceBits (bits : ℕ) : Writer := fun ws =>
  if ws.remaining < (bits + ws.bitPos + 7) / 8 then .error "out of space" ws
  else (do advanceWords (bits / 32); serializeBits 32 0 (bits % 32)) ws

/-- Bytes at a byte boundary, or the error for a full buffer. -/
def putAligned (bytes : List UInt8) : Writer := fun ws =>
  if ws.remaining < bytes.length then .error "out of space" ws
  else .ok () ⟨ws.put bytes, ws.bytePos + bytes.length, ws.bitPos⟩

def advanceBytes (bytes : ℕ) : Writer := fun ws =>
  if ws.bitPos ≠ 0 then (do advanceBits (8 * bytes); putAligned (List.replicate bytes 0)) ws
  else putAligned (List.replicate bytes 0) ws

def serializeByte (value : UInt8) : Writer := fun ws =>
  if ws.bitPos ≠ 0 then serializeBits 8 value.toUInt64 8 ws
  else putAligned (beBytes 1 value.toNat) ws

/-- Off a byte boundary the swapped value is written bit by bit, as in the
source. -/
def serializeUint16 (value : UInt16) : Writer := fun ws =>
  if ws.bitPos ≠ 0 then serializeBits 16 (byteswap16 value).toUInt64 16 ws
  else putAligned (beBytes 2 value.toNat) ws

def serializeUint32 (value : UInt32) : Writer := fun ws =>
  if ws.bitPos ≠ 0 then serializeBits 32 (byteswap32 value).toUInt64 32 ws
  else putAligned (beBytes 4 value.toNat) ws

/-- Off a byte boundary the source writes only 32 bits of the swapped value. -/
def serializeUint64 (value : UInt64) : Writer := fun ws =>
  if ws.bitPos ≠ 0 then serializeBits 64 (byteswap64 value) 32 ws
  else putAligned (beBytes 8 value.toNat) ws

def serializeBytes (bytes : List UInt8) : Writer := fun ws =>
  if ws.bitPos ≠ 0 then .error "not implemented" ws
  else putAligned bytes ws

/-- The last bytes that were written; `none` for all of them. -/
def lookback (bytes : Option ℕ) : EStateM String WriteStream (List UInt8) := fun ws =>
  if ws.bitPos ≠ 0 then .error "alignment error" ws
  else
    match bytes with
    | none => .ok (ws.data.take ws.bytePos) ws
    | some n =>
      if ws.bytePos < n then .error "attempted to read out of bounds" ws
      else .ok ((ws.data.take ws.bytePos).drop (ws.bytePos - n)) ws

/-- The stream at byte `pos`. -/
def moveTo (pos : ℕ) (ws : WriteStream) : WriteStream := { ws with bytePos := pos }

/-- Overwrite a checksum behind which `offset` bytes were written. The position is
restored also when there is an error. -/
def updateChksum (chksum : UInt16) (offset : ℕ) : Writer := fun ws =>
  if ws.bitPos ≠ 0 then .error "alignment error" ws
  else if ws.bytePos < offset + 2 then .error "attempted to write out of bounds" ws
  else
    match serializeUint16 chksum (ws.moveTo (ws.bytePos - (offset + 2))) with
    | .ok _ s => .ok () (s.moveTo ws.bytePos)
    | .error e s => .error e (s.moveTo ws.bytePos)

end WriteStream

/-! ### Aligned operations -/

namespace ReadStream

/-- The stream standing on a byte boundary between `pre` and `post`. -/
def cursor (pre post : List UInt8) : ReadStream := ⟨pre ++ post, pre.length, 0⟩

theorem ofBuffer_eq (buffer : List UInt8) : ofBuffer buffer = cursor [] buffer := rfl

@[simp] theorem bitPos_cursor (pre post : List UInt8) : (cursor pre post).bitPos = 0 := rfl

@[simp] theorem remaining_cursor (pre post : List UInt8) :
    (cursor pre post).remaining = post.length := by
  simp [cursor, remaining]

theorem hasData_cursor (pre post : List UInt8) :
    (cursor pre post).hasData = !post.isEmpty := by
  cases post <;> simp [cursor, hasData]

theorem next_cursor (pre post : List UInt8) (n : ℕ) : (cursor pre post).next n = post.take n := by
  simp [cursor, next]

theorem advance_cursor (pre bs post : List UInt8) (n : ℕ) (h : bs.length = n) :
    (cursor pre (bs ++ post)).advance n = cursor (pre ++ bs) post := by
  subst h
  simp [cursor, advance]

/-- The data behind the cursor is what the stream still has to deliver. -/
theorem lookahead_all (pre post : List UInt8) :
    lookahead none (cursor pre post) = .ok post (cursor pre post) := by
  simp [lookahead, cursor]

theorem lookahead_some (pre bs post : List UInt8) (n : ℕ) (h : bs.length = n) :
    lookahead (some n) (cursor pre (bs ++ post)) = .ok bs (cursor pre (bs ++ post)) := by
  subst h
  rw [lookahead, if_neg (by simp)]
  simp [next_cursor]

/-- A position inside the data is reached. -/
theorem seek_eq_cursor {rs : ReadStream} {pre post : List UInt8} {n : ℕ}
    (hdata : rs.data = pre ++ post) (hn : pre.length = n) :
    (rs.seek (some n) 0).2 = cursor pre post := by
  subst hn
  have hle : ¬pre.length > rs.data.length := by
    rw [hdata, List.length_append]
    omega
  simp only [seek, cursor, hle, if_false, ← hdata]
  simp

theorem seek_bind {α : Type} {rs : ReadStream} {pre post : List UInt8} {n : ℕ}
    {f : Unit → Reader α} (hdata : rs.data = pre ++ post) (hn : pre.length = n) :
    ((modify fun rs => (rs.seek (some n) 0).2) >>= f) rs = f () (cursor pre post) := by
  have hseek : (modify (fun rs => (rs.seek (some n) 0).2) : Reader Unit) rs
      = .ok () (cursor pre post) := by
    rw [← seek_eq_cursor hdata hn]
    rfl
  rw [bind_ok hseek]

/-- The shape shared by the aligned fixed-width reads: check the length, take
the bytes, move on. -/
def FixedRead {α : Type} (r : Reader α) (n : ℕ) (f : List UInt8 → α) : Prop :=
  ∀ pre post, r (cursor pre post) =
    if post.length < n then .error "out of data to read" (cursor pre post)
    else .ok (f (post.take n)) ((cursor pre post).advance n)

theorem FixedRead.reads {α : Type} {r : Reader α} {n : ℕ} {f : List UInt8 → α}
    (h : FixedRead r n f) (bs : List UInt8) (hbs : bs.length = n) :
    Reads cursor r bs (f bs) := by
  intro pre post
  rw [h, if_neg (by rw [List.length_append]; omega), advance_cursor pre bs post n hbs,
    List.take_append_of_le_length (by omega), ← hbs, List.take_length]

theorem FixedRead.starves {α : Type} {r : Reader α} {n : ℕ} {f : List UInt8 → α}
    (h : FixedRead r n f) : Starves cursor r n :=
  fun _ _ hshort => ⟨_, _, by rw [h, if_pos hshort]⟩

theorem fixedRead_byte : FixedRead serializeByte 1 fun bs => UInt8.ofNat (beNat bs) := by
  intro pre post
  simp only [serializeByte, bitPos_cursor, remaining_cursor, next_cursor, ne_eq, not_true_eq_false,
    if_false]

theorem fixedRead_uint16 : FixedRead serializeUint16 2 fun bs => UInt16.ofNat (beNat bs) := by
  intro pre post
  simp only [serializeUint16, bitPos_cursor, remaining_cursor, next_cursor, ne_eq,
    not_true_eq_false, if_false]

theorem fixedRead_uint32 : FixedRead serializeUint32 4 fun bs => UInt32.ofNat (beNat bs) := by
  intro pre post
  simp only [serializeUint32, bitPos_cursor, remaining_cursor, next_cursor, ne_eq,
    not_true_eq_false, if_false]

theorem fixedRead_uint64 : FixedRead serializeUint64 8 fun bs => UInt64.ofNat (beNat bs) := by
  intro pre post
  simp only [serializeUint64, bitPos_cursor, remaining_cursor, next_cursor, ne_eq,
    not_true_eq_false, if_false]

theorem fixedRead_bytes (n : ℕ) : FixedRead (serializeBytes n) n id := by
  intro pre post
  simp only [serializeBytes, bitPos_cursor, remaining_cursor, next_cursor, ne_eq,
    not_true_eq_false, if_false, id_eq]

theorem fixedRead_advanceBytes (n : ℕ) : FixedRead (advanceBytes n) n fun _ => () := by
  intro pre post
  simp only [advanceBytes, skipBytes, bitPos_cursor, remaining_cursor, ne_eq, not_true_eq_false,
    if_false]

theorem reads_byte (b : UInt8) : Reads cursor serializeByte [b] b := by
  have h := fixedRead_byte.reads [b] rfl
  rwa [ofNat_beNat_singleton] at h

theorem reads_uint16 (v : UInt16) : Reads cursor serializeUint16 (beBytes 2 v.toNat) v := by
  have h := fixedRead_uint16.reads (beBytes 2 v.toNat) (length_beBytes _ _)
  rwa [beNat_beBytes, show v.toNat % 256 ^ 2 = v.toNat from Nat.mod_eq_of_lt v.toNat_lt,
    UInt16.ofNat_toNat] at h

theorem reads_uint32 (v : UInt32) : Reads cursor serializeUint32 (beBytes 4 v.toNat) v := by
  have h := fixedRead_uint32.reads (beBytes 4 v.toNat) (length_beBytes _ _)
  rwa [beNat_beBytes, show v.toNat % 256 ^ 4 = v.toNat from Nat.mod_eq_of_lt v.toNat_lt,
    UInt32.ofNat_toNat] at h

theorem reads_uint64 (v : UInt64) : Reads cursor serializeUint64 (beBytes 8 v.toNat) v := by
  have h := fixedRead_uint64.reads (beBytes 8 v.toNat) (length_beBytes _ _)
  rwa [beNat_beBytes, show v.toNat % 256 ^ 8 = v.toNat from Nat.mod_eq_of_lt v.toNat_lt,
    UInt64.ofNat_toNat] at h

theorem reads_bytes (bs : List UInt8) (n : ℕ) (h : bs.length = n) :
    Reads cursor (serializeBytes n) bs bs :=
  (fixedRead_bytes n).reads bs h

theorem reads_advanceBytes (bs : List UInt8) (n : ℕ) (h : bs.length = n) :
    Reads cursor (advanceBytes n) bs () :=
  (fixedRead_advanceBytes n).reads bs h

end ReadStream

namespace WriteStream

/-- The stream standing on a byte boundary between the bytes `pre` already
written and the bytes `post` still to be overwritten. -/
def cursor (pre post : List UInt8) : WriteStream := ⟨pre ++ post, pre.length, 0⟩

theorem ofBuffer_eq (buffer : List UInt8) : ofBuffer buffer = cursor [] buffer := rfl

@[simp] theorem bitPos_cursor (pre post : List UInt8) : (cursor pre post).bitPos = 0 := rfl

@[simp] theorem remaining_cursor (pre post : List UInt8) :
    (cursor pre post).remaining = post.length := by
  simp [cursor, remaining]

@[simp] theorem bytePos_cursor (pre post : List UInt8) :
    (cursor pre post).bytePos = pre.length := rfl

/-- A position inside the data is reached. -/
theorem seek_eq_cursor {ws : WriteStream} {pre post : List UInt8} {n : ℕ}
    (hdata : ws.data = pre ++ post) (hn : pre.length = n) :
    (ws.seek (some n) 0).2 = cursor pre post := by
  subst hn
  have hle : ¬pre.length > ws.data.length := by
    rw [hdata, List.length_append]
    omega
  simp only [seek, cursor, hle, if_false, ← hdata]
  simp

theorem seek_bind {α : Type} {ws : WriteStream} {pre post : List UInt8} {n : ℕ}
    {f : Unit → EStateM String WriteStream α} (hdata : ws.data = pre ++ post)
    (hn : pre.length = n) :
    ((modify fun ws => (ws.seek (some n) 0).2) >>= f) ws = f () (cursor pre post) := by
  have hseek : (modify (fun ws => (ws.seek (some n) 0).2) : Writer) ws
      = .ok () (cursor pre post) := by
    rw [← seek_eq_cursor hdata hn]
    rfl
  rw [bind_ok hseek]

/-- Bytes are replaced by as many others. -/
theorem writes_replace {w : Writer} {bs old : List UInt8} (hw : Writes cursor w bs)
    (hold : old.length = bs.length) (pre post : List UInt8) :
    w (cursor pre (old ++ post)) = .ok () (cursor (pre ++ bs) post) := by
  rw [(hw pre (old ++ post)).1 (by rw [List.length_append]; omega), ← hold, List.drop_left]

/-- Asking for the position writes nothing. -/
theorem writesAt_getPos_bind {α : Type} {p : ℕ} {f : ℕ → EStateM String WriteStream α}
    {bs : List UInt8} {a : α} (h : WritesAt cursor p (f p) bs a) :
    WritesAt cursor p (getPos >>= f) bs a := by
  intro pre post hpre
  have hpos : getPos (cursor pre post) = .ok p (cursor pre post) := by rw [← hpre]; rfl
  rw [bind_ok hpos]
  exact h pre post hpre

theorem writes_putAligned (bs : List UInt8) : Writes cursor (putAligned bs) bs := by
  intro pre post
  constructor
  · intro hroom
    rw [putAligned, if_neg (by rw [remaining_cursor]; omega)]
    simp [cursor, put, List.drop_append]
  · intro hshort
    exact ⟨_, _, by rw [putAligned, if_pos (by rw [remaining_cursor]; exact hshort)]⟩

/-- An operation that is `putAligned` on a byte boundary writes those bytes. -/
theorem writes_of_aligned {w : Writer} {bs : List UInt8}
    (h : ∀ pre post, w (cursor pre post) = putAligned bs (cursor pre post)) :
    Writes cursor w bs := by
  intro pre post
  rw [h]
  exact writes_putAligned bs pre post

theorem writes_byte (b : UInt8) : Writes cursor (serializeByte b) [b] :=
  writes_of_aligned fun pre post => by
    rw [serializeByte, if_neg (by simp), show beBytes 1 b.toNat = [b] by simp [beBytes]]

theorem writes_uint16 (v : UInt16) : Writes cursor (serializeUint16 v) (beBytes 2 v.toNat) :=
  writes_of_aligned fun pre post => by rw [serializeUint16, if_neg (by simp)]

theorem writes_uint32 (v : UInt32) : Writes cursor (serializeUint32 v) (beBytes 4 v.toNat) :=
  writes_of_aligned fun pre post => by rw [serializeUint32, if_neg (by simp)]

theorem writes_uint64 (v : UInt64) : Writes cursor (serializeUint64 v) (beBytes 8 v.toNat) :=
  writes_of_aligned fun pre post => by rw [serializeUint64, if_neg (by simp)]

theorem writes_bytes (bs : List UInt8) : Writes cursor (serializeBytes bs) bs :=
  writes_of_aligned fun pre post => by rw [serializeBytes, if_neg (by simp)]

theorem writes_advanceBytes (n : ℕ) : Writes cursor (advanceBytes n) (List.replicate n 0) :=
  writes_of_aligned fun pre post => by rw [advanceBytes, if_neg (by simp)]

/-! Writers that look back. -/

theorem lookback_cursor (pre bs post : List UInt8) (n : ℕ) (h : bs.length = n) :
    lookback (some n) (cursor (pre ++ bs) post) = .ok bs (cursor (pre ++ bs) post) := by
  have hpos : ¬(cursor (pre ++ bs) post).bytePos < n := by
    rw [bytePos_cursor, List.length_append]
    omega
  have hview : ((pre ++ bs ++ post).take (pre ++ bs).length).drop ((pre ++ bs).length - n) = bs := by
    rw [List.take_left' rfl, List.length_append, h, Nat.add_sub_cancel, List.drop_left' rfl]
  rw [lookback, if_neg (by simp)]
  simp only [hpos, if_false]
  rw [bytePos_cursor]
  exact congrArg (fun view => EStateM.Result.ok view _) hview

/-- Two bytes are overwritten in what was written. -/
theorem updateChksum_cursor (chksum : UInt16) (pre old back post : List UInt8)
    (h : old.length = 2) :
    updateChksum chksum back.length (cursor (pre ++ (old ++ back)) post)
      = .ok () (cursor (pre ++ (beBytes 2 chksum.toNat ++ back)) post) := by
  have hlen : (pre ++ (old ++ back)).length = pre.length + (back.length + 2) := by
    simp only [List.length_append, h]
    omega
  have hrun := (writes_uint16 chksum pre (old ++ (back ++ post))).1
    (by simp only [length_beBytes, List.length_append]; omega)
  rw [length_beBytes, List.drop_left' h] at hrun
  have hstart : (cursor (pre ++ (old ++ back)) post).moveTo pre.length
      = cursor pre (old ++ (back ++ post)) := by
    simp only [cursor, moveTo, List.append_assoc]
  have hend : (cursor (pre ++ beBytes 2 chksum.toNat) (back ++ post)).moveTo
      (pre.length + (back.length + 2)) = cursor (pre ++ (beBytes 2 chksum.toNat ++ back)) post := by
    simp only [cursor, moveTo, List.append_assoc, List.length_append, length_beBytes,
      WriteStream.mk.injEq, true_and, and_true]
    omega
  rw [updateChksum, if_neg (by simp), bytePos_cursor, hlen, if_neg (by omega),
    Nat.add_sub_cancel, hstart, hrun]
  exact congrArg (EStateM.Result.ok ()) hend

/-- A header is written, and then its checksum into it. -/
theorem writes_chksum {w : Writer} {front old back : List UInt8} {n m : ℕ}
    (hw : Writes cursor w (front ++ (old ++ back))) (hold : old.length = 2)
    (hn : (front ++ (old ++ back)).length = n) (hm : back.length = m)
    (chksum : List UInt8 → UInt16) :
    Writes cursor (w >>= fun _ => lookback (some n) >>= fun hdr => updateChksum (chksum hdr) m)
      (front ++ (beBytes 2 (chksum (front ++ (old ++ back))).toNat ++ back)) := by
  subst hm
  intro pre post
  have hsame : (front ++ (beBytes 2 (chksum (front ++ (old ++ back))).toNat ++ back)).length
      = (front ++ (old ++ back)).length := by
    simp only [List.length_append, length_beBytes, hold]
  rw [hsame]
  constructor
  · intro hroom
    rw [bind_ok ((hw pre post).1 hroom), bind_ok (lookback_cursor _ _ _ n hn),
      ← List.append_assoc pre, updateChksum_cursor _ _ _ _ _ hold, List.append_assoc]
  · intro hshort
    obtain ⟨e, s, herr⟩ := (hw pre post).2 hshort
    exact ⟨e, s, bind_error herr⟩


end WriteStream

/-! ### Bit-granular operations

`k` bits into the bytes after `pre`, the stream stands at byte `k / 8` and bit
`k % 8` of them. -/

namespace ReadStream

/-- `k` bits into the bytes `bs` that follow `pre`. -/
def bitCursor (pre bs : List UInt8) (k : ℕ) : ReadStream :=
  ⟨pre ++ bs, pre.length + k / 8, k % 8⟩

theorem bitCursor_zero (pre bs : List UInt8) : bitCursor pre bs 0 = cursor pre bs := rfl

theorem bitCursor_bytes (pre bs post : List UInt8) (m : ℕ) (h : bs.length = m) :
    bitCursor pre (bs ++ post) (8 * m) = cursor (pre ++ bs) post := by
  subst h
  simp [bitCursor, cursor]

/-- The `n` bits that follow the first `k` bits of `bs`, as a number. -/
def bitsAt (bs : List UInt8) (k n : ℕ) : ℕ := beNat bs / 2 ^ (8 * bs.length - k - n) % 2 ^ n

theorem bitsAt_add (bs : List UInt8) (k m n : ℕ) (h : k + m + n ≤ 8 * bs.length) :
    bitsAt bs k (m + n) = bitsAt bs k m * 2 ^ n + bitsAt bs (k + m) n := by
  unfold bitsAt
  have hexp : 8 * bs.length - k - m = 8 * bs.length - k - (m + n) + n := by omega
  have hexp' : 8 * bs.length - (k + m) - n = 8 * bs.length - k - (m + n) := by omega
  rw [hexp, hexp', pow_add 2 (8 * bs.length - k - (m + n)) n, ← Nat.div_div_eq_div_mul,
    pow_add 2 m n, mul_comm (2 ^ m), Nat.mod_mul]
  ring

/-- Cutting off the last `n` bits. -/
theorem bitsAt_div (bs : List UInt8) (k m n : ℕ) (h : k + m + n ≤ 8 * bs.length) :
    bitsAt bs k (m + n) / 2 ^ n = bitsAt bs k m := by
  have hlt : bitsAt bs (k + m) n < 2 ^ n := Nat.mod_lt _ (by positivity)
  rw [bitsAt_add bs k m n h, mul_comm, Nat.mul_add_div (by positivity), Nat.div_eq_of_lt hlt,
    add_zero]

theorem bitsAt_mod (bs : List UInt8) (k m n : ℕ) (h : k + m + n ≤ 8 * bs.length) :
    bitsAt bs k (m + n) % 2 ^ n = bitsAt bs (k + m) n := by
  have hlt : bitsAt bs (k + m) n < 2 ^ n := Nat.mod_lt _ (by positivity)
  rw [bitsAt_add bs k m n h, mul_comm, Nat.mul_add_mod, Nat.mod_eq_of_lt hlt]

theorem bitsAt_append_left (pre bs : List UInt8) (k n : ℕ) (h : k + n ≤ 8 * bs.length) :
    bitsAt (pre ++ bs) (8 * pre.length + k) n = bitsAt bs k n := by
  have hexp : 8 * (pre ++ bs).length - (8 * pre.length + k) - n = 8 * bs.length - k - n := by
    rw [List.length_append]
    omega
  have hpow : 256 ^ bs.length = 2 ^ (8 * bs.length - k - n) * (2 ^ n * 2 ^ k) := by
    rw [show (256 : ℕ) = 2 ^ 8 from rfl, ← pow_mul, ← pow_add, ← pow_add]
    congr 1
    omega
  rw [bitsAt, hexp, beNat_append, hpow, mul_left_comm, Nat.mul_add_div (by positivity),
    mul_left_comm, Nat.mul_add_mod, bitsAt]

theorem bitsAt_append_right (bs post : List UInt8) (k n : ℕ) (h : k + n ≤ 8 * bs.length) :
    bitsAt (bs ++ post) k n = bitsAt bs k n := by
  have hpost := beNat_lt post
  have hexp : 8 * (bs ++ post).length - k - n = 8 * post.length + (8 * bs.length - k - n) := by
    rw [List.length_append]
    omega
  have hpow : 2 ^ (8 * post.length) = 256 ^ post.length := by
    rw [show (256 : ℕ) = 2 ^ 8 from rfl, ← pow_mul]
  rw [bitsAt, hexp, pow_add, hpow, beNat_append, mul_comm (beNat bs), ← Nat.div_div_eq_div_mul,
    Nat.mul_add_div (by positivity), Nat.div_eq_of_lt hpost, add_zero, bitsAt]

/-- All the bits of the leading `m` bytes. -/
theorem bitsAt_bytes (bs post : List UInt8) (m : ℕ) (h : bs.length = m) :
    bitsAt (bs ++ post) 0 (8 * m) = beNat bs := by
  subst h
  have hlt := beNat_lt bs
  have hpow : 2 ^ (8 * bs.length) = 256 ^ bs.length := by
    rw [show (256 : ℕ) = 2 ^ 8 from rfl, ← pow_mul]
  rw [bitsAt_append_right _ _ _ _ (by omega), bitsAt, Nat.sub_zero, Nat.sub_self, pow_zero,
    Nat.div_one, hpow, Nat.mod_eq_of_lt hlt]

/-- The bits that follow the first `b` of the bytes from `k` on. -/
theorem bitsAt_slice (bs : List UInt8) {k m n b : ℕ} (hbits : n + b ≤ 8 * m)
    (hroom : k + m ≤ bs.length) :
    beNat ((bs.drop k).take m) / 2 ^ (8 * m - n - b) % 2 ^ n = bitsAt bs (8 * k + b) n := by
  have hlen : ((bs.drop k).take m).length = m := by
    rw [List.length_take, List.length_drop]
    omega
  have hpre : (bs.take k).length = k := by
    rw [List.length_take]
    omega
  calc beNat ((bs.drop k).take m) / 2 ^ (8 * m - n - b) % 2 ^ n
      = bitsAt ((bs.drop k).take m) b n := by rw [bitsAt, hlen, Nat.sub_right_comm]
    _ = bitsAt ((bs.drop k).take m ++ (bs.drop k).drop m) b n :=
      (bitsAt_append_right _ _ _ _ (by rw [hlen]; omega)).symm
    _ = bitsAt (bs.drop k) b n := by rw [List.take_append_drop]
    _ = bitsAt (bs.take k ++ bs.drop k) (8 * (bs.take k).length + b) n :=
      (bitsAt_append_left _ _ _ _ (by rw [List.length_drop]; omega)).symm
    _ = bitsAt bs (8 * k + b) n := by rw [List.take_append_drop, hpre]

/-- A word loaded from a numeral, shifted left by `b` and then right to its
top `n` bits, holds the `n` bits that follow the first `b`. -/
theorem toNat_loadWord_shift (bytes : List UInt8) (b n : ℕ) (hlen : bytes.length ≤ 8)
    (hn : 1 ≤ n) (hb : b ≤ 8) (hbits : n + b ≤ 8 * bytes.length) :
    (loadWord bytes <<< UInt64.ofNat b >>> UInt64.ofNat (64 - n)).toNat
      = beNat bytes / 2 ^ (8 * bytes.length - n - b) % 2 ^ n := by
  have hload : (loadWord bytes).toNat = beNat bytes * 2 ^ (64 - 8 * bytes.length) := by
    have hlt := beNat_lt bytes
    rw [loadWord, UInt64.toNat_ofNat', beNat_append_zeros, Nat.mod_eq_of_lt]
    · rw [show (256 : ℕ) = 2 ^ 8 from rfl, ← pow_mul,
        show 8 * (8 - bytes.length) = 64 - 8 * bytes.length by omega]
    · calc beNat bytes * 256 ^ (8 - bytes.length)
          < 256 ^ bytes.length * 256 ^ (8 - bytes.length) :=
            Nat.mul_lt_mul_of_pos_right hlt (by positivity)
        _ = 2 ^ 64 := by
            rw [← pow_add, show bytes.length + (8 - bytes.length) = 8 by omega]; norm_num
  have hshift : (UInt64.ofNat b).toNat % 64 = b := by
    rw [UInt64.toNat_ofNat']; omega
  have hshift' : (UInt64.ofNat (64 - n)).toNat % 64 = 64 - n := by
    rw [UInt64.toNat_ofNat']; omega
  have hsplit : 2 ^ 64 = 2 ^ (64 - n) * 2 ^ n := by
    rw [← pow_add, show 64 - n + n = 64 by omega]
  rw [UInt64.toNat_shiftRight, UInt64.toNat_shiftLeft, hshift, hshift', hload,
    Nat.shiftLeft_eq, Nat.shiftRight_eq_div_pow, hsplit, Nat.mod_mul_right_div_self,
    mul_assoc, ← pow_add]
  congr 1
  rw [show 64 - n = 64 - 8 * bytes.length + b + (8 * bytes.length - n - b) by omega,
    pow_add 2 (64 - 8 * bytes.length + b), ← Nat.div_div_eq_div_mul,
    Nat.mul_div_cancel _ (by positivity)]

theorem remaining_bitCursor (pre bs : List UInt8) (k : ℕ) :
    (bitCursor pre bs k).remaining = bs.length - k / 8 := by
  simp only [bitCursor, remaining, List.length_append]
  omega

/-- The bits read are those of the buffer. -/
theorem serializeBits_from (valueBits : ℕ) {n : ℕ} (rs : ReadStream) (hn : 1 ≤ n)
    (hmax : n ≤ min 57 valueBits) (hbit : rs.bitPos ≤ 8) (hword : (n + rs.bitPos + 7) / 8 ≤ 8)
    (hroom : (n + rs.bitPos + 7) / 8 ≤ rs.remaining) :
    serializeBits valueBits n rs
      = .ok (UInt64.ofNat (bitsAt rs.data (8 * rs.bytePos + rs.bitPos) n))
        ⟨rs.data, rs.bytePos + (rs.bitPos + n) / 8, (rs.bitPos + n) % 8⟩ := by
  set m := (n + rs.bitPos + 7) / 8 with hm
  rw [remaining] at hroom
  have hlen : (rs.next m).length = m := by
    rw [next, List.length_take, List.length_drop]
    omega
  have hload := toNat_loadWord_shift (rs.next m) rs.bitPos n (by omega) hn hbit (by omega)
  rw [hlen, next, bitsAt_slice rs.data (by omega) (by omega)] at hload
  rw [serializeBits, if_neg (by omega), if_neg (by omega)]
  simp only [← hm]
  rw [if_neg (by rw [remaining]; omega), ← hload, UInt64.ofNat_toNat, next]

/-- The bits read are the next digits of the numeral. -/
theorem serializeBits_run (valueBits n k : ℕ) (pre bs : List UInt8)
    (hn : 1 ≤ n) (hmax : n ≤ min 57 valueBits) (hk : k + n ≤ 8 * bs.length) :
    serializeBits valueBits n (bitCursor pre bs k)
      = .ok (UInt64.ofNat (bitsAt bs k n)) (bitCursor pre bs (k + n)) := by
  have hbit : (bitCursor pre bs k).bitPos = k % 8 := rfl
  have hpos : 8 * (bitCursor pre bs k).bytePos + (bitCursor pre bs k).bitPos
      = 8 * pre.length + k := by
    simp only [bitCursor]
    omega
  rw [serializeBits_from valueBits (bitCursor pre bs k) hn hmax (by omega) (by omega)
    (by rw [remaining_bitCursor, hbit]; omega), hpos]
  congr 1
  · rw [show (bitCursor pre bs k).data = pre ++ bs from rfl, bitsAt_append_left pre bs k n hk]
  · simp only [bitCursor, ReadStream.mk.injEq, true_and]
    omega

theorem serializeBits_short (valueBits n k : ℕ) (pre bs : List UInt8) (hn : 1 ≤ n)
    (hshort : 8 * bs.length < k + n) :
    ∃ e s, serializeBits valueBits n (bitCursor pre bs k) = .error e s := by
  have hrem : (bitCursor pre bs k).remaining < (n + k % 8 + 7) / 8 := by
    rw [remaining_bitCursor]
    omega
  rw [serializeBits, if_neg (by omega)]
  by_cases hmax : n > min (64 - 7) valueBits
  · exact ⟨_, _, if_pos hmax⟩
  · rw [if_neg hmax]
    simp only [show (bitCursor pre bs k).bitPos = k % 8 from rfl]
    exact ⟨_, _, if_pos hrem⟩

/-- From any point at bit offset `a`, `r` takes the next `n` bits and decodes
them by `f`; it fails when they are not there. -/
def ReadsBits {α : Type} (r : Reader α) (a n : ℕ) (f : ℕ → α) : Prop :=
  ∀ pre bs k, k % 8 = a → k ≤ 8 * bs.length →
    (k + n ≤ 8 * bs.length →
      r (bitCursor pre bs k) = .ok (f (bitsAt bs k n)) (bitCursor pre bs (k + n))) ∧
    (8 * bs.length < k + n → ∃ e s, r (bitCursor pre bs k) = .error e s)

theorem readsBits_serializeBits (valueBits a n : ℕ) (hn : 1 ≤ n) (hmax : n ≤ min 57 valueBits) :
    ReadsBits (serializeBits valueBits n) a n UInt64.ofNat := by
  intro pre bs k _ _
  exact ⟨serializeBits_run valueBits n k pre bs hn hmax,
    serializeBits_short valueBits n k pre bs hn⟩

/-- Only the values of `n`-bit numbers matter. -/
theorem ReadsBits.congr {α : Type} {r : Reader α} {a n : ℕ} {f g : ℕ → α}
    (h : ReadsBits r a n f) (hfg : ∀ d < 2 ^ n, f d = g d) : ReadsBits r a n g := by
  intro pre bs k hk hin
  have hlt : bitsAt bs k n < 2 ^ n := Nat.mod_lt _ (by positivity)
  rw [← hfg _ hlt]
  exact h pre bs k hk hin

theorem ReadsBits.map {α β : Type} {r : Reader α} {a n : ℕ} {f : ℕ → α} (g : α → β)
    (h : ReadsBits r a n f) : ReadsBits (g <$> r) a n fun d => g (f d) := by
  intro pre bs k hk hin
  have hmap : g <$> r = r >>= fun a => pure (g a) := rfl
  rw [hmap]
  refine ⟨fun hroom => ?_, fun hshort => ?_⟩
  · rw [bind_ok ((h pre bs k hk hin).1 hroom)]
    rfl
  · obtain ⟨e, s, herr⟩ := (h pre bs k hk hin).2 hshort
    exact ⟨e, s, bind_error herr⟩

theorem ReadsBits.bind {α β : Type} {x : Reader α} {y : α → Reader β} {a m n : ℕ} {f : ℕ → α}
    {g : α → ℕ → β} (hx : ReadsBits x a m f) (hy : ∀ v, ReadsBits (y v) ((a + m) % 8) n (g v)) :
    ReadsBits (x >>= y) a (m + n) fun d => g (f (d / 2 ^ n)) (d % 2 ^ n) := by
  intro pre bs k hk hin
  have hoff : (k + m) % 8 = (a + m) % 8 := by omega
  refine ⟨fun hroom => ?_, fun hshort => ?_⟩
  · simp only [bitsAt_div bs k m n (by omega), bitsAt_mod bs k m n (by omega)]
    rw [bind_ok ((hx pre bs k hk hin).1 (by omega)),
      (hy _ pre bs (k + m) hoff (by omega)).1 (by omega), add_assoc]
  · by_cases hm : k + m ≤ 8 * bs.length
    · obtain ⟨e, s, herr⟩ := (hy (f (bitsAt bs k m)) pre bs (k + m) hoff hm).2 (by omega)
      exact ⟨e, s, by rw [bind_ok ((hx pre bs k hk hin).1 hm), herr]⟩
    · obtain ⟨e, s, herr⟩ := (hx pre bs k hk hin).2 (by omega)
      exact ⟨e, s, bind_error herr⟩

theorem ReadsBits.pure {α : Type} (v : α) (a : ℕ) :
    ReadsBits (Pure.pure v) a 0 fun _ => v := by
  intro pre bs k _ hin
  exact ⟨fun _ => rfl, fun hshort => by omega⟩

/-- A byte read off a byte boundary. -/
theorem readsBits_byte (a : ℕ) (ha : a ≠ 0) :
    ReadsBits serializeByte a 8 fun d => (UInt64.ofNat d).toUInt8 := by
  intro pre bs k hk hin
  have hoff : (bitCursor pre bs k).bitPos ≠ 0 := by
    show k % 8 ≠ 0
    omega
  have hbyte : serializeByte (bitCursor pre bs k)
      = (UInt64.toUInt8 <$> serializeBits 32 8) (bitCursor pre bs k) := by
    rw [serializeByte, if_pos hoff]
  rw [hbyte]
  exact (readsBits_serializeBits 32 a 8 (by norm_num) (by norm_num)).map UInt64.toUInt8
    pre bs k hk hin

/-- Fewer than 32 bits skipped. -/
theorem readsBits_advanceBits (a n : ℕ) (hn : 1 ≤ n) (hmax : n < 32) :
    ReadsBits (advanceBits n) a n fun _ => () := by
  intro pre bs k hk hin
  have hskip : (do advanceWords (n / 32); let _ ← serializeBits 32 (n % 32) : Reader Unit)
      = (fun _ => ()) <$> serializeBits 32 n := by
    rw [Nat.div_eq_of_lt hmax, Nat.mod_eq_of_lt hmax]
    rfl
  have hbits := ((readsBits_serializeBits 32 a n hn (by omega)).map fun _ => ()) pre bs k hk hin
  rw [advanceBits, remaining_bitCursor, show (bitCursor pre bs k).bitPos = k % 8 from rfl, hskip]
  refine ⟨fun hroom => ?_, fun hshort => ?_⟩
  · rw [if_neg (by omega)]
    exact hbits.1 hroom
  · rw [if_pos (by omega)]
    exact ⟨_, _, rfl⟩

/-- Whole bytes read bit by bit. -/
theorem ReadsBits.reads {α : Type} {r : Reader α} {m : ℕ} {f : ℕ → α}
    (h : ReadsBits r 0 (8 * m) f) (bs : List UInt8) (hbs : bs.length = m) :
    Reads cursor r bs (f (beNat bs)) := by
  intro pre post
  have hrun := (h pre (bs ++ post) 0 rfl (Nat.zero_le _)).1 (by rw [List.length_append]; omega)
  rwa [bitCursor_zero, zero_add, bitsAt_bytes bs post m hbs, bitCursor_bytes pre bs post m hbs]
    at hrun

/-- Whole bytes read bit by bit, with a check of the first bits in between. -/
theorem ReadsBits.reads_ensure {α β : Type} {x : Reader α} {y : α → Reader β}
    {m n k : ℕ} {f : ℕ → α} {g : α → ℕ → β} (hx : ReadsBits x 0 m f)
    (check : α → Bool) (e : String) (hy : ∀ v, ReadsBits (y v) (m % 8) n (g v))
    (hmn : m + n = 8 * k) {bs : List UInt8}
    (hbs : bs.length = k) (hcheck : check (f (beNat bs / 2 ^ n)) = true) :
    Reads cursor (x >>= fun a => Codec.ensure (check a) e >>= fun _ => y a) bs
      (g (f (beNat bs / 2 ^ n)) (beNat bs % 2 ^ n)) := by
  intro pre post
  have hlen : (bs ++ post).length = k + post.length := by rw [List.length_append, hbs]
  -- the number the bytes denote, cut between the two readers
  have hhigh := bitsAt_div (bs ++ post) 0 m n (by omega)
  have hlow := bitsAt_mod (bs ++ post) 0 m n (by omega)
  rw [hmn, bitsAt_bytes bs post k hbs] at hhigh hlow
  have hrun := (hx pre (bs ++ post) 0 rfl (Nat.zero_le _)).1 (by omega)
  rw [bitCursor_zero, ← hhigh, zero_add] at hrun
  have hrest := (hy (f (beNat bs / 2 ^ n)) pre (bs ++ post) m rfl (by omega)).1 (by omega)
  rw [hmn, ← zero_add m, ← hlow, bitCursor_bytes pre bs post k hbs, zero_add] at hrest
  rw [bind_ok hrun, hcheck, bind_ok (ensure_true e _), hrest]

theorem ReadsBits.starves {α : Type} {r : Reader α} {m : ℕ} {f : ℕ → α}
    (h : ReadsBits r 0 (8 * m) f) : Starves cursor r m := by
  intro pre post hshort
  have hrun := (h pre post 0 rfl (Nat.zero_le _)).2 (by omega)
  rwa [bitCursor_zero] at hrun

end ReadStream

namespace WriteStream

/-- `k` bits of value `v` written after `pre`; the rest of the last byte is
zero and the bytes from there on are still those of `post`. -/
def bitCursor (pre post : List UInt8) (k v : ℕ) : WriteStream :=
  ⟨pre ++ (beBytes ((k + 7) / 8) (v * 2 ^ (8 * ((k + 7) / 8) - k)) ++ post.drop ((k + 7) / 8)),
    pre.length + k / 8, k % 8⟩

theorem bitCursor_zero (pre post : List UInt8) (v : ℕ) :
    bitCursor pre post 0 v = cursor pre post := by
  simp [bitCursor, cursor]

theorem bitCursor_bytes (pre post : List UInt8) (m v : ℕ) :
    bitCursor pre post (8 * m) v = cursor (pre ++ beBytes m v) (post.drop m) := by
  have hm : (8 * m + 7) / 8 = m := by omega
  simp [bitCursor, cursor, hm]

theorem pow_byte (n : ℕ) : (256 : ℕ) ^ n = 2 ^ (8 * n) := by
  rw [show (256 : ℕ) = 2 ^ 8 from rfl, ← pow_mul]

/-- The working word of `serializeBits`: the occupied bits `old` of the current
byte in front, then the `n` new bits, the rest zero. -/
theorem toNat_mergeWord (value : UInt64) (c : UInt8) (n b old : ℕ) (hn : 1 ≤ n)
    (hnb : n + b ≤ 64) (hb : b < 8) (hc : c.toNat = old * 2 ^ (8 - b)) :
    ((value <<< UInt64.ofNat (64 - n) >>> UInt64.ofNat b) ||| (c.toUInt64 <<< 56)).toNat
      = (old * 2 ^ n + value.toNat % 2 ^ n) * 2 ^ (64 - n - b) := by
  have hshift : (UInt64.ofNat b).toNat % 64 = b := by
    rw [UInt64.toNat_ofNat']; omega
  have hshift' : (UInt64.ofNat (64 - n)).toNat % 64 = 64 - n := by
    rw [UInt64.toNat_ofNat']; omega
  have hnew : (value <<< UInt64.ofNat (64 - n) >>> UInt64.ofNat b).toNat
      = value.toNat % 2 ^ n * 2 ^ (64 - n - b) := by
    rw [UInt64.toNat_shiftRight, UInt64.toNat_shiftLeft, hshift, hshift',
      Nat.shiftLeft_eq, Nat.shiftRight_eq_div_pow,
      show 2 ^ 64 = 2 ^ n * 2 ^ (64 - n) by rw [← pow_add]; congr 1; omega,
      Nat.mul_mod_mul_right, show 64 - n = 64 - n - b + b by omega, pow_add, ← mul_assoc,
      Nat.mul_div_cancel _ (by positivity), show 64 - n - b + b - b = 64 - n - b by omega]
  have hold : (c.toUInt64 <<< 56).toNat = 2 ^ (64 - b) * old := by
    have hlt : c.toNat < 256 := c.toNat_lt
    rw [UInt64.toNat_shiftLeft, UInt8.toNat_toUInt64, show (56 : UInt64).toNat % 64 = 56 from rfl,
      Nat.shiftLeft_eq, Nat.mod_eq_of_lt (by omega), hc,
      show 64 - b = 8 - b + 56 by omega, pow_add]
    ring
  have hsmall : value.toNat % 2 ^ n * 2 ^ (64 - n - b) < 2 ^ (64 - b) := by
    rw [show 64 - b = n + (64 - n - b) by omega, pow_add]
    exact Nat.mul_lt_mul_of_pos_right (Nat.mod_lt _ (by positivity)) (by positivity)
  rw [UInt64.toNat_or, hnew, hold, Nat.or_comm, ← Nat.two_pow_add_eq_or_of_lt hsmall,
    show 64 - b = n + (64 - n - b) by omega, pow_add]
  ring

/-- The new numeral, cut at the current byte. -/
theorem bitCursor_split (k n v w : ℕ) (hw : w < 2 ^ n) :
    beBytes ((k + n + 7) / 8) ((v * 2 ^ n + w) * 2 ^ (8 * ((k + n + 7) / 8) - (k + n)))
      = beBytes (k / 8) (v / 2 ^ (k % 8)) ++
        beBytes ((n + k % 8 + 7) / 8)
          ((v % 2 ^ (k % 8) * 2 ^ n + w) * 2 ^ (8 * ((n + k % 8 + 7) / 8) - n - k % 8)) := by
  set b := k % 8 with hb
  set m := (n + b + 7) / 8 with hm
  set e := 8 * m - n - b with he
  have htotal : (k + n + 7) / 8 = k / 8 + m := by omega
  have hexp : 8 * (k / 8 + m) - (k + n) = e := by omega
  have hpow : (256 : ℕ) ^ m = 2 ^ e * (2 ^ n * 2 ^ b) := by
    rw [pow_byte, ← pow_add, ← pow_add]
    congr 1
    omega
  have hrest : (v * 2 ^ n + w) * 2 ^ e % 256 ^ m = (v % 2 ^ b * 2 ^ n + w) * 2 ^ e := by
    have hmod : (v * 2 ^ n + w) % (2 ^ n * 2 ^ b) = v % 2 ^ b * 2 ^ n + w := by
      rw [Nat.mod_mul, mul_comm v, Nat.mul_add_mod, Nat.mod_eq_of_lt hw,
        Nat.mul_add_div (by positivity), Nat.div_eq_of_lt hw, add_zero]
      ring
    rw [hpow, mul_comm (v * 2 ^ n + w), Nat.mul_mod_mul_left, hmod]
    ring
  have hquot : (v * 2 ^ n + w) * 2 ^ e / 256 ^ m = v / 2 ^ b := by
    rw [hpow, mul_comm (v * 2 ^ n + w), Nat.mul_div_mul_left _ _ (by positivity),
      ← Nat.div_div_eq_div_mul, mul_comm v, Nat.mul_add_div (by positivity), Nat.div_eq_of_lt hw,
      add_zero]
  rw [htotal, hexp, beBytes_append, hquot, ← hrest, beBytes_mod m m _ le_rfl]

theorem remaining_bitCursor (pre post : List UInt8) (k v : ℕ) (h : (k + 7) / 8 ≤ post.length) :
    (bitCursor pre post k v).remaining = post.length - k / 8 := by
  simp only [bitCursor, remaining, List.length_append, length_beBytes, List.length_drop]
  omega

/-- The byte under the cursor holds the bits of `v` that did not fill a byte. -/
theorem getD_bitCursor (pre post : List UInt8) (k v : ℕ) (h : k % 8 ≠ 0) :
    ((bitCursor pre post k v).data.getD (pre.length + k / 8) 0).toNat
      = v % 2 ^ (k % 8) * 2 ^ (8 - k % 8) := by
  have hm : (k + 7) / 8 = k / 8 + 1 := by omega
  have hexp : 8 * (k / 8 + 1) - k = 8 - k % 8 := by omega
  have hget : (bitCursor pre post k v).data.getD (pre.length + k / 8) 0
      = UInt8.ofNat (v * 2 ^ (8 - k % 8)) := by
    simp only [bitCursor, hm, hexp]
    rw [beBytes_append (k / 8) 1]
    simp [List.getD_eq_getElem?_getD, beBytes]
  have hsplit : 2 ^ 8 = 2 ^ (k % 8) * 2 ^ (8 - k % 8) := by
    rw [← pow_add]; congr 1; omega
  rw [hget, UInt8.toNat_ofNat', hsplit, Nat.mul_mod_mul_right]

theorem put_bitCursor (pre post : List UInt8) (k n v w : ℕ) (hw : w < 2 ^ n) (hn : 1 ≤ n) :
    (bitCursor pre post k v).put (beBytes ((n + k % 8 + 7) / 8)
        ((v % 2 ^ (k % 8) * 2 ^ n + w) * 2 ^ (8 * ((n + k % 8 + 7) / 8) - n - k % 8)))
      = (bitCursor pre post (k + n) (v * 2 ^ n + w)).data := by
  have htake : (beBytes ((k + 7) / 8) (v * 2 ^ (8 * ((k + 7) / 8) - k))).take (k / 8)
      = beBytes (k / 8) (v / 2 ^ (k % 8)) := by
    by_cases hb : k % 8 = 0
    · have hm : (k + 7) / 8 = k / 8 := by omega
      rw [hm, hb, show 8 * (k / 8) - k = 0 by omega, List.take_of_length_le (by simp)]
      simp
    · have hm : (k + 7) / 8 = k / 8 + 1 := by omega
      have hquot : v * 2 ^ (8 * (k / 8 + 1) - k) / 256 ^ 1 = v / 2 ^ (k % 8) := by
        rw [show 8 * (k / 8 + 1) - k = 8 - k % 8 by omega,
          show (256 : ℕ) ^ 1 = 2 ^ (k % 8) * 2 ^ (8 - k % 8) by
            rw [← pow_add, show k % 8 + (8 - k % 8) = 8 by omega]; norm_num,
          Nat.mul_div_mul_right _ _ (by positivity)]
      rw [hm, beBytes_append, hquot, List.take_left' (by simp)]
  have hdrop : ((k + 7) / 8) ≤ k / 8 + (n + k % 8 + 7) / 8 := by omega
  have hend : (k + n + 7) / 8 = k / 8 + (n + k % 8 + 7) / 8 := by omega
  simp only [bitCursor, put]
  rw [bitCursor_split k n v w hw, List.take_append, List.take_of_length_le (by omega),
    Nat.add_sub_cancel_left, List.take_append_of_le_length (by rw [length_beBytes]; omega), htake,
    length_beBytes, List.drop_append, List.drop_eq_nil_of_le (by omega), List.nil_append,
    List.drop_append, List.drop_eq_nil_of_le (by rw [length_beBytes]; omega), List.nil_append,
    List.drop_drop, length_beBytes, hend]
  simp only [List.append_assoc]
  congr 4
  omega

/-- The bits written become the next digits of the numeral. -/
theorem serializeBits_run (valueBits n k v : ℕ) (value : UInt64) (pre post : List UInt8)
    (hn : 1 ≤ n) (hmax : n ≤ min 57 valueBits) (hroom : (k + n + 7) / 8 ≤ post.length) :
    serializeBits valueBits value n (bitCursor pre post k v)
      = .ok () (bitCursor pre post (k + n) (v * 2 ^ n + value.toNat % 2 ^ n)) := by
  have hrem : ¬ (bitCursor pre post k v).remaining < (n + k % 8 + 7) / 8 := by
    rw [remaining_bitCursor pre post k v (by omega)]
    omega
  have hwlt : value.toNat % 2 ^ n < 2 ^ n := Nat.mod_lt _ (by positivity)
  -- the working word, with or without occupied bits in the current byte
  have hword : (if k % 8 ≠ 0 then
        (value <<< UInt64.ofNat (64 - n) >>> UInt64.ofNat (k % 8)) |||
          (((bitCursor pre post k v).data.getD (pre.length + k / 8) 0).toUInt64 <<< 56)
        else value <<< UInt64.ofNat (64 - n)).toNat
      = (v % 2 ^ (k % 8) * 2 ^ n + value.toNat % 2 ^ n) * 2 ^ (64 - n - k % 8) := by
    by_cases hb : k % 8 = 0
    · have hplain := toNat_mergeWord value 0 n 0 0 hn (by omega) (by norm_num) (by simp)
      simp only [hb, ne_eq, not_true_eq_false, if_false, pow_zero, Nat.mod_one]
      rw [← hplain]
      simp
    · rw [if_pos hb]
      exact toNat_mergeWord value _ n (k % 8) (v % 2 ^ (k % 8)) hn (by omega)
        (Nat.mod_lt _ (by norm_num)) (getD_bitCursor pre post k v hb)
  have hbytes : (beBytes 8 ((v % 2 ^ (k % 8) * 2 ^ n + value.toNat % 2 ^ n)
        * 2 ^ (64 - n - k % 8))).take ((n + k % 8 + 7) / 8)
      = beBytes ((n + k % 8 + 7) / 8) ((v % 2 ^ (k % 8) * 2 ^ n + value.toNat % 2 ^ n)
          * 2 ^ (8 * ((n + k % 8 + 7) / 8) - n - k % 8)) := by
    set m := (n + k % 8 + 7) / 8 with hm
    have h8 : 8 = m + (8 - m) := by omega
    have hquot : (v % 2 ^ (k % 8) * 2 ^ n + value.toNat % 2 ^ n) * 2 ^ (64 - n - k % 8)
          / 256 ^ (8 - m)
        = (v % 2 ^ (k % 8) * 2 ^ n + value.toNat % 2 ^ n) * 2 ^ (8 * m - n - k % 8) := by
      rw [pow_byte, show 64 - n - k % 8 = 8 * m - n - k % 8 + 8 * (8 - m) by omega, pow_add,
        ← mul_assoc, Nat.mul_div_cancel _ (by positivity)]
    rw [h8, beBytes_append, ← h8, hquot, List.take_left' (by simp)]
  rw [serializeBits, if_neg (by omega), if_neg (by omega)]
  simp only [show (bitCursor pre post k v).bitPos = k % 8 from rfl,
    show (bitCursor pre post k v).bytePos = pre.length + k / 8 from rfl]
  rw [if_neg hrem, hword, hbytes, put_bitCursor pre post k n v _ hwlt hn]
  congr 1
  simp only [bitCursor, WriteStream.mk.injEq, true_and]
  omega

theorem serializeBits_short (valueBits n k v : ℕ) (value : UInt64) (pre post : List UInt8)
    (hn : 1 ≤ n) (hroom : (k + 7) / 8 ≤ post.length) (hshort : post.length < (k + n + 7) / 8) :
    ∃ e s, serializeBits valueBits value n (bitCursor pre post k v) = .error e s := by
  have hrem : (bitCursor pre post k v).remaining < (n + k % 8 + 7) / 8 := by
    rw [remaining_bitCursor pre post k v hroom]
    omega
  rw [serializeBits, if_neg (by omega)]
  by_cases hmax : n > min (64 - 7) valueBits
  · exact ⟨_, _, if_pos hmax⟩
  · rw [if_neg hmax]
    simp only [show (bitCursor pre post k v).bitPos = k % 8 from rfl]
    exact ⟨_, _, if_pos hrem⟩

/-- From any point at bit offset `a`, `w` appends the `n`-bit digit `v` to the
bits written so far; it fails when the buffer is too short. -/
def WritesBits (w : Writer) (a n v : ℕ) : Prop :=
  ∀ pre post k u, k % 8 = a → (k + 7) / 8 ≤ post.length →
    ((k + n + 7) / 8 ≤ post.length →
      w (bitCursor pre post k u) = .ok () (bitCursor pre post (k + n) (u * 2 ^ n + v))) ∧
    (post.length < (k + n + 7) / 8 → ∃ e s, w (bitCursor pre post k u) = .error e s)

theorem writesBits_serializeBits (valueBits a n : ℕ) (value : UInt64) (hn : 1 ≤ n)
    (hmax : n ≤ min 57 valueBits) :
    WritesBits (serializeBits valueBits value n) a n (value.toNat % 2 ^ n) := by
  intro pre post k u _ hin
  exact ⟨serializeBits_run valueBits n k u value pre post hn hmax,
    serializeBits_short valueBits n k u value pre post hn hin⟩

theorem writesBits_byte (a : ℕ) (value : UInt8) (ha : a ≠ 0) :
    WritesBits (serializeByte value) a 8 value.toNat := by
  intro pre post k u hk hin
  have hoff : (bitCursor pre post k u).bitPos ≠ 0 := by
    show k % 8 ≠ 0
    omega
  have hbits := writesBits_serializeBits 8 a 8 value.toUInt64 (by norm_num) (by norm_num)
    pre post k u hk hin
  rw [UInt8.toNat_toUInt64, Nat.mod_eq_of_lt value.toNat_lt] at hbits
  rw [serializeByte, if_pos hoff]
  exact hbits

theorem writesBits_advanceBits (a n : ℕ) (hn : 1 ≤ n) (hmax : n < 32) :
    WritesBits (advanceBits n) a n 0 := by
  intro pre post k u hk hin
  have hskip : (do advanceWords (n / 32); serializeBits 32 0 (n % 32) : Writer)
      = serializeBits 32 0 n := by
    rw [Nat.div_eq_of_lt hmax, Nat.mod_eq_of_lt hmax]
    rfl
  have hbits := writesBits_serializeBits 32 a n 0 hn (by omega) pre post k u hk hin
  rw [show (0 : UInt64).toNat % 2 ^ n = 0 by simp] at hbits
  rw [advanceBits, remaining_bitCursor pre post k u hin,
    show (bitCursor pre post k u).bitPos = k % 8 from rfl, hskip]
  refine ⟨fun hroom => ?_, fun hshort => ?_⟩
  · rw [if_neg (by omega)]
    exact hbits.1 hroom
  · rw [if_pos (by omega)]
    exact ⟨_, _, rfl⟩

theorem WritesBits.bind {x y : Writer} {a m n v w : ℕ} (hx : WritesBits x a m v)
    (hy : WritesBits y ((a + m) % 8) n w) :
    WritesBits (x >>= fun _ => y) a (m + n) (v * 2 ^ n + w) := by
  intro pre post k u hk hin
  have hoff : (k + m) % 8 = (a + m) % 8 := by omega
  refine ⟨fun hroom => ?_, fun hshort => ?_⟩
  · rw [bind_ok ((hx pre post k u hk hin).1 (by omega)),
      (hy pre post (k + m) _ hoff (by omega)).1 (by omega), add_assoc, pow_add]
    congr 2
    ring
  · by_cases hm : (k + m + 7) / 8 ≤ post.length
    · obtain ⟨e, s, herr⟩ := (hy pre post (k + m) (u * 2 ^ m + v) hoff hm).2 (by omega)
      exact ⟨e, s, by rw [bind_ok ((hx pre post k u hk hin).1 hm), herr]⟩
    · obtain ⟨e, s, herr⟩ := (hx pre post k u hk hin).2 (by omega)
      exact ⟨e, s, bind_error herr⟩

/-- Whole bytes written bit by bit. -/
theorem WritesBits.writes {w : Writer} {m v : ℕ} (h : WritesBits w 0 (8 * m) v) :
    Writes cursor w (beBytes m v) := by
  intro pre post
  have hrun := h pre post 0 0 rfl (by omega)
  have hm : (0 + 8 * m + 7) / 8 = m := by omega
  rw [hm, bitCursor_zero, zero_add, zero_mul, zero_add, bitCursor_bytes] at hrun
  rwa [length_beBytes]

end WriteStream

end Scion
