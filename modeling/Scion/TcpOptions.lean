/-
TCP options (`hdr/tcp.hpp`).

Each option has its two directions, its size and its part of the checksum. Reading
fills an existing object, as the source does: what is not on the wire keeps the value it
had.

* `bytes`, `writes` — what an option is written as;
* `onto`, `reads` — what is left of an object after the bytes of another were read into it;
* `onWire` — an option with the parts that are not on the wire cleared.
-/
import Scion.Address
import Scion.Checksum

namespace Scion

open BigEndian Codec

namespace TcpOptKind

def endOfList : UInt8 := 0
def noOp : UInt8 := 1
def mss : UInt8 := 2
def ws : UInt8 := 3
def sackPerm : UInt8 := 4
def sack : UInt8 := 5
def ts : UInt8 := 8
def mptcp : UInt8 := 30

end TcpOptKind

namespace TcpMpSubtype

def mpCapable : UInt8 := 0
def mpJoin : UInt8 := 1
def dss : UInt8 := 2
def addAddr : UInt8 := 3
def removeAddr : UInt8 := 4
def mpPrio : UInt8 := 5
def mpFail : UInt8 := 6
def mpFastclose : UInt8 := 7
def mpTcprst : UInt8 := 8

end TcpMpSubtype

/-- `details::checksumUint64`: the sum of the four 16-bit words of `x`. -/
def checksumUint64 (x : UInt64) : UInt32 :=
  let word (n : UInt64) : UInt64 := (x >>> n) &&& 0xffff
  (word 48 + word 32).toUInt32 + (word 16 + word 0).toUInt32

/-- The sum of the two 16-bit words of `x`. -/
def checksumUint32 (x : UInt32) : UInt32 := (x >>> 16) + (x &&& 0xffff)

/-! ### Common parts of the options -/

namespace ReadStream

/-- `verifyByte`, reading. -/
def verifyByte (expected : UInt8) (msg : String) : Reader Unit := do
  let value ← serializeByte
  ensure (value == expected) msg

theorem reads_verifyByte (b : UInt8) (msg : String) : Reads cursor (verifyByte b msg) [b] () :=
  (reads_byte b).bind_nil fun pre post => by rw [beq_self_eq_true]; simp

theorem reads_map {α β : Type} {r : Reader α} {bs : List UInt8} {a : α} (g : α → β)
    (h : Reads cursor r bs a) : Reads cursor (g <$> r) bs (g a) :=
  h.bind_pure

/-- The subtype of an MPTCP option and the `n` bits behind it. -/
def readSubtype (subtype : UInt8) (valueBits n : ℕ) : Reader UInt64 := do
  let temp ← serializeBits 8 4
  ensure (temp.toUInt8 == subtype) "incorrect MPTCP subtype"
  serializeBits valueBits n

/-- The subtype and `n` bits that are skipped. -/
def readSubtypeReserved (subtype : UInt8) (n : ℕ) : Reader Unit := do
  let temp ← serializeBits 8 4
  ensure (temp.toUInt8 == subtype) "incorrect MPTCP subtype"
  advanceBits n

/-- The first four bits of the bytes behind kind and length. -/
theorem toUInt8_subtype {subtype : UInt8} {n v : ℕ} (hs : subtype.toNat < 16) (hv : v < 2 ^ n) :
    ((UInt64.ofNat ((subtype.toNat * 2 ^ n + v) / 2 ^ n)).toUInt8 == subtype) = true := by
  rw [mul_comm, Nat.mul_add_div (by positivity), Nat.div_eq_of_lt hv, add_zero, beq_iff_eq,
    ← UInt8.toNat_inj, UInt64.toNat_toUInt8, UInt64.toNat_ofNat']
  omega

theorem reads_subtype {subtype : UInt8} {valueBits n k v : ℕ} (hn : 1 ≤ n)
    (hmax : n ≤ min 57 valueBits) (hk : 4 + n = 8 * k) (hs : subtype.toNat < 16)
    (hv : v < 2 ^ n) :
    Reads cursor (readSubtype subtype valueBits n) (beBytes k (subtype.toNat * 2 ^ n + v))
      (UInt64.ofNat v) := by
  have hbytes : beNat (beBytes k (subtype.toNat * 2 ^ n + v)) = subtype.toNat * 2 ^ n + v := by
    have hlt : subtype.toNat * 2 ^ n + v < 2 ^ (4 + n) := by
      rw [pow_add]
      nlinarith [Nat.pow_pos (n := n) (show 0 < 2 by norm_num)]
    rw [beNat_beBytes, show (256 : ℕ) = 2 ^ 8 from rfl, ← pow_mul, ← hk, Nat.mod_eq_of_lt hlt]
  have hrun := (readsBits_serializeBits 8 0 4 (by norm_num) (by norm_num)).reads_ensure
    (fun temp => temp.toUInt8 == subtype) "incorrect MPTCP subtype"
    (y := fun _ => serializeBits valueBits n)
    (fun _ => readsBits_serializeBits valueBits 4 n hn hmax) hk (length_beBytes k _)
    (by rw [hbytes]; exact toUInt8_subtype hs hv)
  rw [hbytes, mul_comm, Nat.mul_add_mod, Nat.mod_eq_of_lt hv] at hrun
  rw [mul_comm]
  exact hrun

theorem reads_subtypeReserved {subtype : UInt8} {n k : ℕ} (hn : 1 ≤ n) (hmax : n < 32)
    (hk : 4 + n = 8 * k) (hs : subtype.toNat < 16) :
    Reads cursor (readSubtypeReserved subtype n) (beBytes k (subtype.toNat * 2 ^ n)) () := by
  have hbytes : beNat (beBytes k (subtype.toNat * 2 ^ n)) = subtype.toNat * 2 ^ n := by
    have hlt : subtype.toNat * 2 ^ n < 2 ^ (4 + n) := by
      rw [pow_add]
      exact Nat.mul_lt_mul_of_pos_right hs (by positivity)
    rw [beNat_beBytes, show (256 : ℕ) = 2 ^ 8 from rfl, ← pow_mul, ← hk, Nat.mod_eq_of_lt hlt]
  exact (readsBits_serializeBits 8 0 4 (by norm_num) (by norm_num)).reads_ensure
    (fun temp => temp.toUInt8 == subtype) "incorrect MPTCP subtype"
    (y := fun _ => advanceBits n) (fun _ => readsBits_advanceBits 4 n hn hmax) hk
    (length_beBytes k _)
    (by rw [hbytes]; exact toUInt8_subtype (v := 0) hs (by positivity))

/-- Elements of an array read one after another. -/
def readSlots {α : Type} {k : ℕ} (r : Reader α) : List (Fin k) → Vector α k → Reader (Vector α k)
  | [], v => pure v
  | i :: is, v => do
    let a ← r
    readSlots r is (v.set i a)

end ReadStream

namespace WriteStream

/-- The subtype of an MPTCP option and the `n` bits behind it. -/
def writeSubtype (subtype : UInt8) (valueBits : ℕ) (value : UInt64) (n : ℕ) : Writer := do
  serializeBits 8 subtype.toUInt64 4
  serializeBits valueBits value n

/-- The subtype and `n` bits that are skipped. -/
def writeSubtypeReserved (subtype : UInt8) (n : ℕ) : Writer := do
  serializeBits 8 subtype.toUInt64 4
  advanceBits n

theorem writesBits_subtype {subtype : UInt8} (hs : subtype.toNat < 16) :
    WritesBits (serializeBits 8 subtype.toUInt64 4) 0 4 subtype.toNat := by
  have h := writesBits_serializeBits 8 0 4 subtype.toUInt64 (by norm_num) (by norm_num)
  rwa [UInt8.toNat_toUInt64, show subtype.toNat % 2 ^ 4 = subtype.toNat from Nat.mod_eq_of_lt hs]
    at h

theorem writes_subtype {subtype : UInt8} {valueBits n k : ℕ} (value : UInt64) (hn : 1 ≤ n)
    (hmax : n ≤ min 57 valueBits) (hk : 4 + n = 8 * k) (hs : subtype.toNat < 16) :
    Writes cursor (writeSubtype subtype valueBits value n)
      (beBytes k (subtype.toNat * 2 ^ n + value.toNat % 2 ^ n)) := by
  have h := (writesBits_subtype hs).bind (writesBits_serializeBits valueBits 4 n value hn hmax)
  rw [hk] at h
  exact h.writes

theorem writes_subtypeReserved {subtype : UInt8} {n k : ℕ} (hn : 1 ≤ n) (hmax : n < 32)
    (hk : 4 + n = 8 * k) (hs : subtype.toNat < 16) :
    Writes cursor (writeSubtypeReserved subtype n) (beBytes k (subtype.toNat * 2 ^ n)) := by
  have h := (writesBits_subtype hs).bind (writesBits_advanceBits 4 n hn hmax)
  rw [hk, add_zero] at h
  exact h.writes

end WriteStream

/-! ### Arrays of which only the first elements are on the wire -/

/-- The indices of a loop that runs `n` times, but not past the end of the array. -/
def firstSlots (k n : ℕ) : List (Fin k) := (List.finRange k).take n

theorem mem_firstSlots {k n : ℕ} (i : Fin k) : i ∈ firstSlots k n ↔ i.val < n := by
  rw [firstSlots, List.mem_take_iff_getElem]
  constructor
  · rintro ⟨j, hj, rfl⟩
    rw [List.getElem_finRange]
    exact lt_of_lt_of_le hj (min_le_left _ _)
  · intro hi
    refine ⟨i.val, ?_, ?_⟩
    · rw [List.length_finRange]
      exact lt_min hi i.isLt
    · rw [List.getElem_finRange]
      rfl

@[simp] theorem length_firstSlots (k n : ℕ) : (firstSlots k n).length = min n k := by
  rw [firstSlots, List.length_take, List.length_finRange]

/-- The first `n` elements of `new`, the others of `old`. -/
def overlay {α : Type} {k : ℕ} (n : ℕ) (new old : Vector α k) : Vector α k :=
  Vector.ofFn fun i => if i.val < n then new[i] else old[i]

theorem overlay_overlay {α : Type} {k : ℕ} (n : ℕ) (new old base : Vector α k) :
    overlay n (overlay n new old) base = overlay n new base := by
  ext i hi
  simp only [overlay, Fin.getElem_fin, Vector.getElem_ofFn]
  split <;> rfl

/-- One slot after the other is replaced. -/
theorem getElem_foldl_set {α : Type} {k : ℕ} (new : Vector α k) (j : Fin k) :
    ∀ (is : List (Fin k)) (old : Vector α k),
      (is.foldl (fun v (i : Fin k) => v.set i new[i]) old)[j] = if j ∈ is then new[j] else old[j] := by
  intro is
  induction is with
  | nil => intro old; rw [List.foldl_nil, if_neg List.not_mem_nil]
  | cons i is ih =>
    intro old
    rw [List.foldl_cons, ih]
    by_cases hmem : j ∈ is
    · rw [if_pos hmem, if_pos (List.mem_cons_of_mem i hmem)]
    · rw [if_neg hmem]
      by_cases hij : j = i
      · subst hij
        rw [if_pos (List.mem_cons_self ..)]
        simp
      · rw [if_neg (by rw [List.mem_cons, not_or]; exact ⟨hij, hmem⟩)]
        have hne : i.val ≠ j.val := fun h => hij (Fin.ext h.symm)
        simp [Vector.getElem_set_ne, hne]

theorem foldl_set_firstSlots {α : Type} {k : ℕ} (n : ℕ) (new old : Vector α k) :
    (firstSlots k n).foldl (fun v (i : Fin k) => v.set i new[i]) old = overlay n new old := by
  ext i hi
  have hget := getElem_foldl_set new ⟨i, hi⟩ (firstSlots k n) old
  simp only [mem_firstSlots] at hget
  refine hget.trans ?_
  simp [overlay]

theorem reads_slots {α : Type} {k : ℕ} {r : Reader α} {enc : α → List UInt8}
    (h : ∀ a, Reads ReadStream.cursor r (enc a) a) (new : Vector α k) :
    ∀ (is : List (Fin k)) (old : Vector α k),
      Reads ReadStream.cursor (ReadStream.readSlots r is old)
        (is.map fun i => enc new[i]).flatten (is.foldl (fun v (i : Fin k) => v.set i new[i]) old) := by
  intro is
  induction is with
  | nil => exact fun old => Reads.pure old
  | cons i is ih => exact fun old => (h new[i]).bind (ih (old.set i new[i]))

/-- The first `n` elements are read. -/
theorem reads_firstSlots {α : Type} {k : ℕ} {r : Reader α} {enc : α → List UInt8}
    (h : ∀ a, Reads ReadStream.cursor r (enc a) a) (n : ℕ) (new old : Vector α k) :
    Reads ReadStream.cursor (ReadStream.readSlots r (firstSlots k n) old)
      ((firstSlots k n).map fun i => enc new[i]).flatten (overlay n new old) := by
  rw [← foldl_set_firstSlots]
  exact reads_slots h new (firstSlots k n) old

open ReadStream WriteStream

/-- Message of every option for another kind. -/
def wrongKind : String := "incorrect TCP option kind"

/-! ### Options of plain TCP -/

/-- TCP maximum segment size option. -/
structure TcpMssOpt where
  mss : UInt16 := 0
  deriving DecidableEq, Repr

namespace TcpMssOpt

def length : UInt8 := 4

def size (_ : TcpMssOpt) : ℕ := length.toNat

/-- The option is aligned on a boundary of two bytes. -/
def checksum (o : TcpMssOpt) : UInt32 :=
  ((TcpOptKind.mss.toUInt32 <<< 8) ||| length.toUInt32) + o.mss.toUInt32

def read : Reader TcpMssOpt := do
  verifyByte TcpOptKind.mss wrongKind
  verifyByte length "incorrect TCP MSS option length"
  let mss ← ReadStream.serializeUint16
  pure ⟨mss⟩

def write (o : TcpMssOpt) : Writer := do
  WriteStream.serializeByte TcpOptKind.mss
  WriteStream.serializeByte length
  WriteStream.serializeUint16 o.mss

def bytes (o : TcpMssOpt) : List UInt8 := [TcpOptKind.mss] ++ ([length] ++ beBytes 2 o.mss.toNat)

theorem reads (o : TcpMssOpt) : Reads ReadStream.cursor read o.bytes o :=
  (reads_verifyByte _ _).bind ((reads_verifyByte _ _).bind (reads_uint16 o.mss).bind_pure)

theorem writes (o : TcpMssOpt) : Writes WriteStream.cursor o.write o.bytes :=
  (writes_byte _).bind ((writes_byte _).bind (writes_uint16 o.mss))

end TcpMssOpt

/-- TCP window scale option. -/
structure TcpWsOpt where
  wndShift : UInt8 := 0
  deriving DecidableEq, Repr

namespace TcpWsOpt

def length : UInt8 := 3

/-- The maximum window size is 1 GiB. -/
def maxWndShift : UInt8 := 14

def size (_ : TcpWsOpt) : ℕ := length.toNat

/-- The option is preceded by a no-op option that is aligned on a boundary of two bytes. -/
def checksum (o : TcpWsOpt) : UInt32 :=
  (((0x01 : UInt32) <<< 8) ||| TcpOptKind.ws.toUInt32) + ((length.toUInt32 <<< 8) ||| o.wndShift.toUInt32)

def read : Reader TcpWsOpt := do
  verifyByte TcpOptKind.ws wrongKind
  verifyByte length "incorrect TCP WS option length"
  let wndShift ← ReadStream.serializeByte
  ensure (wndShift ≤ maxWndShift) "TCP window shift too large"
  pure ⟨wndShift⟩

def write (o : TcpWsOpt) : Writer := do
  WriteStream.serializeByte TcpOptKind.ws
  WriteStream.serializeByte length
  WriteStream.serializeByte o.wndShift

def bytes (o : TcpWsOpt) : List UInt8 := [TcpOptKind.ws] ++ ([length] ++ [o.wndShift])

theorem reads {o : TcpWsOpt} (h : o.wndShift ≤ maxWndShift) :
    Reads ReadStream.cursor read o.bytes o :=
  (reads_verifyByte _ _).bind ((reads_verifyByte _ _).bind ((reads_byte o.wndShift).bind_nil
    (Reads.ensure (decide_eq_true h) (Reads.pure o))))

theorem writes (o : TcpWsOpt) : Writes WriteStream.cursor o.write o.bytes :=
  (writes_byte _).bind ((writes_byte _).bind (writes_byte o.wndShift))

end TcpWsOpt

/-- TCP selective acknowledgement permitted option. -/
structure TcpSAckPermOpt where
  deriving DecidableEq, Repr

namespace TcpSAckPermOpt

def length : UInt8 := 2

def size (_ : TcpSAckPermOpt) : ℕ := length.toNat

def checksum (_ : TcpSAckPermOpt) : UInt32 :=
  (TcpOptKind.sackPerm.toUInt32 <<< 8) ||| length.toUInt32

def read : Reader TcpSAckPermOpt := do
  verifyByte TcpOptKind.sackPerm wrongKind
  verifyByte length "incorrect TCP SAckPerm option length"
  pure ⟨⟩

def write (_ : TcpSAckPermOpt) : Writer := do
  WriteStream.serializeByte TcpOptKind.sackPerm
  WriteStream.serializeByte length

def bytes (_ : TcpSAckPermOpt) : List UInt8 := [TcpOptKind.sackPerm] ++ [length]

theorem reads (o : TcpSAckPermOpt) : Reads ReadStream.cursor read o.bytes o :=
  (reads_verifyByte _ _).bind (reads_verifyByte _ _).bind_pure

theorem writes (o : TcpSAckPermOpt) : Writes WriteStream.cursor o.write o.bytes :=
  (writes_byte _).bind (writes_byte _)

end TcpSAckPermOpt

/-- TCP selective acknowledgement option. The blocks are given by their left and right
edges. -/
structure TcpSAckOpt where
  blocks : UInt8 := 0
  edges : Vector (UInt32 × UInt32) 3 := Vector.replicate 3 (0, 0)
  deriving DecidableEq, Repr

namespace TcpSAckOpt

def maxBlocks : ℕ := 3

def size (o : TcpSAckOpt) : ℕ := 8 * o.blocks.toNat + 2

/-- Includes two no-op options that align the option to a boundary of four bytes. -/
def checksum (o : TcpSAckOpt) : UInt32 :=
  let sum := (TcpOptKind.sack.toUInt32 <<< 8) ||| UInt32.ofNat o.size
  let sum := (firstSlots 3 o.blocks.toNat).foldl (fun sum (i : Fin 3) =>
    sum + checksumUint32 o.edges[i].1 + checksumUint32 o.edges[i].2) sum
  sum + 0x0101

def readBlock : Reader (UInt32 × UInt32) := do
  let left ← ReadStream.serializeUint32
  let right ← ReadStream.serializeUint32
  pure (left, right)

def writeBlock (block : UInt32 × UInt32) : Writer := do
  WriteStream.serializeUint32 block.1
  WriteStream.serializeUint32 block.2

def read (old : TcpSAckOpt) : Reader TcpSAckOpt := do
  verifyByte TcpOptKind.sack wrongKind
  let temp ← ReadStream.serializeByte
  ensure (temp == 10 || temp == 18 || temp == 26) "invalid TCP SAck option"
  let blocks := (temp - 2) / 8
  let edges ← readSlots readBlock (firstSlots 3 blocks.toNat) old.edges
  pure ⟨blocks, edges⟩

def write (o : TcpSAckOpt) : Writer := do
  WriteStream.serializeByte TcpOptKind.sack
  WriteStream.serializeByte (UInt8.ofNat o.size)
  writeAll (fun i : Fin 3 => writeBlock o.edges[i]) (firstSlots 3 o.blocks.toNat)

def blockBytes (block : UInt32 × UInt32) : List UInt8 :=
  beBytes 4 block.1.toNat ++ beBytes 4 block.2.toNat

def bytes (o : TcpSAckOpt) : List UInt8 :=
  [TcpOptKind.sack] ++ ([UInt8.ofNat o.size] ++
    ((firstSlots 3 o.blocks.toNat).map fun i => blockBytes o.edges[i]).flatten)

def onto (o old : TcpSAckOpt) : TcpSAckOpt := ⟨o.blocks, overlay o.blocks.toNat o.edges old.edges⟩

def onWire (o : TcpSAckOpt) : TcpSAckOpt := o.onto {}

theorem onWire_onto (o old : TcpSAckOpt) : (o.onto old).onWire = o.onWire := by
  simp only [onWire, onto, overlay_overlay]

/-- The lengths that are accepted. -/
theorem blocks_of_size {o : TcpSAckOpt} (h : o.size ≤ 40) :
    (UInt8.ofNat o.size == 10 || UInt8.ofNat o.size == 18 || UInt8.ofNat o.size == 26)
      = decide (1 ≤ o.blocks.toNat ∧ o.blocks.toNat ≤ maxBlocks) := by
  obtain ⟨blocks, edges⟩ := o
  rw [size] at h
  rw [size, maxBlocks]
  obtain ⟨b, rfl⟩ : ∃ b : ℕ, blocks = UInt8.ofNat b := ⟨blocks.toNat, by simp⟩
  rw [UInt8.toNat_ofNat'] at h ⊢
  have hb : b % 2 ^ 8 ≤ 4 := by omega
  interval_cases b % 2 ^ 8 <;> decide

theorem reads_block (block : UInt32 × UInt32) :
    Reads ReadStream.cursor readBlock (blockBytes block) block :=
  (reads_uint32 block.1).bind (reads_uint32 block.2).bind_pure

theorem reads {o : TcpSAckOpt} (hmin : 1 ≤ o.blocks.toNat) (hmax : o.blocks.toNat ≤ maxBlocks)
    (old : TcpSAckOpt) : Reads ReadStream.cursor (read old) o.bytes (o.onto old) := by
  have hsize : o.size ≤ 40 := by
    rw [size]
    rw [maxBlocks] at hmax
    omega
  have hblocks : (UInt8.ofNat o.size - 2) / 8 = o.blocks := by
    rw [size, ← UInt8.toNat_inj]
    rw [maxBlocks] at hmax
    interval_cases o.blocks.toNat <;> rfl
  refine (reads_verifyByte _ _).bind ((reads_byte _).bind (Reads.ensure ?_ ?_))
  · rw [blocks_of_size hsize]
    exact decide_eq_true ⟨hmin, hmax⟩
  · rw [hblocks]
    exact (reads_firstSlots reads_block o.blocks.toNat o.edges old.edges).bind_pure

theorem writes_block (block : UInt32 × UInt32) :
    Writes WriteStream.cursor (writeBlock block) (blockBytes block) :=
  (writes_uint32 block.1).bind (writes_uint32 block.2)

theorem writes (o : TcpSAckOpt) : Writes WriteStream.cursor o.write o.bytes :=
  (writes_byte _).bind ((writes_byte _).bind
    (Writes.writeAll _ fun i _ => writes_block o.edges[i]))

end TcpSAckOpt

/-- TCP timestamps option. -/
structure TcpTsOpt where
  tsVal : UInt32 := 0
  tsEcr : UInt32 := 0
  deriving DecidableEq, Repr

namespace TcpTsOpt

def length : UInt8 := 10

def size (_ : TcpTsOpt) : ℕ := length.toNat

/-- The option is aligned on a boundary of two bytes. -/
def checksum (o : TcpTsOpt) : UInt32 :=
  ((TcpOptKind.ts.toUInt32 <<< 8) ||| length.toUInt32) + checksumUint32 o.tsVal
    + checksumUint32 o.tsEcr

def read : Reader TcpTsOpt := do
  verifyByte TcpOptKind.ts wrongKind
  verifyByte length "incorrect TCP MSS option length"
  let tsVal ← ReadStream.serializeUint32
  let tsEcr ← ReadStream.serializeUint32
  pure ⟨tsVal, tsEcr⟩

def write (o : TcpTsOpt) : Writer := do
  WriteStream.serializeByte TcpOptKind.ts
  WriteStream.serializeByte length
  WriteStream.serializeUint32 o.tsVal
  WriteStream.serializeUint32 o.tsEcr

def bytes (o : TcpTsOpt) : List UInt8 :=
  [TcpOptKind.ts] ++ ([length] ++ (beBytes 4 o.tsVal.toNat ++ beBytes 4 o.tsEcr.toNat))

theorem reads (o : TcpTsOpt) : Reads ReadStream.cursor read o.bytes o :=
  (reads_verifyByte _ _).bind ((reads_verifyByte _ _).bind ((reads_uint32 o.tsVal).bind
    (reads_uint32 o.tsEcr).bind_pure))

theorem writes (o : TcpTsOpt) : Writes WriteStream.cursor o.write o.bytes :=
  (writes_byte _).bind ((writes_byte _).bind ((writes_uint32 o.tsVal).bind
    (writes_uint32 o.tsEcr)))

end TcpTsOpt

end Scion
