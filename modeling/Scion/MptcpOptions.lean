/-
MPTCP options (`hdr/tcp.hpp`).

The options of Multipath TCP with their variants, as `TcpOptions` has those of plain TCP.
ADD_ADDR is in a module of its own.

* `bytes`, `reads`, `writes` — the wire formats, for field values within their widths
  (`Fits`);
* `TcpMpCapableOpt.asRead` — the reader infers the fields of MP_CAPABLE from its length,
  so that options with other fields come back as another option or not at all.
-/
import Scion.TcpOptions

namespace Scion

open BigEndian Codec ReadStream WriteStream

/-! ### Optional fields -/

/-- A field that is read when it is there. -/
def readIf {α : Type} (present : Bool) (r : Reader α) (old : α) : Reader α :=
  if present then r else pure old

/-- A field that is written when it is there. -/
def writeIf (present : Bool) (w : Writer) : Writer := if present then w else pure ()

/-- The bytes of a field that is there. -/
def bytesIf (present : Bool) (bs : List UInt8) : List UInt8 := if present then bs else []

@[simp] theorem length_bytesIf (present : Bool) (bs : List UInt8) :
    (bytesIf present bs).length = if present then bs.length else 0 := by
  cases present <;> rfl

theorem reads_if {α : Type} {r : Reader α} {bs : List UInt8} {a : α} (present : Bool)
    (h : Reads ReadStream.cursor r bs a) (old : α) :
    Reads ReadStream.cursor (readIf present r old) (bytesIf present bs)
      (if present then a else old) := by
  cases present with
  | true => exact h
  | false => exact Reads.pure old

theorem writes_if {w : Writer} {bs : List UInt8} (present : Bool)
    (h : Writes WriteStream.cursor w bs) :
    Writes WriteStream.cursor (writeIf present w) (bytesIf present bs) := by
  cases present with
  | true => exact h
  | false => exact Writes.pure

/-! ### The bits behind the subtype -/

/-- Subtype and flags, `k` bytes of which the flags are the last `n` bits. -/
def subtypeBytes (k : ℕ) (subtype : UInt8) (n : ℕ) (flags : UInt64) : List UInt8 :=
  beBytes k (subtype.toNat * 2 ^ n + flags.toNat % 2 ^ n)

@[simp] theorem length_subtypeBytes (k : ℕ) (subtype : UInt8) (n : ℕ) (flags : UInt64) :
    (subtypeBytes k subtype n flags).length = k := length_beBytes _ _

theorem toUInt8_bits {v : UInt8} {n : ℕ} (h : v.toNat < 2 ^ n) :
    (UInt64.ofNat (v.toUInt64.toNat % 2 ^ n)).toUInt8 = v := by
  rw [UInt8.toNat_toUInt64, Nat.mod_eq_of_lt h, ← UInt8.toNat_inj, UInt64.toNat_toUInt8,
    UInt64.toNat_ofNat']
  have := v.toNat_lt
  omega

theorem toUInt16_bits {v : UInt16} {n : ℕ} (h : v.toNat < 2 ^ n) :
    (UInt64.ofNat (v.toUInt64.toNat % 2 ^ n)).toUInt16 = v := by
  rw [UInt16.toNat_toUInt64, Nat.mod_eq_of_lt h, ← UInt16.toNat_inj, UInt64.toNat_toUInt16,
    UInt64.toNat_ofNat']
  have := v.toNat_lt
  omega

/-- Four bits of flags that are kept in a byte. -/
theorem reads_flags8 {subtype v : UInt8} (hs : subtype.toNat < 16) (h : v.toNat < 16) :
    Reads ReadStream.cursor (UInt64.toUInt8 <$> readSubtype subtype 8 4)
      (subtypeBytes 1 subtype 4 v.toUInt64) v := by
  have hvalue : Reads ReadStream.cursor (readSubtype subtype 8 4)
      (subtypeBytes 1 subtype 4 v.toUInt64) (UInt64.ofNat (v.toUInt64.toNat % 2 ^ 4)) :=
    reads_subtype (by norm_num) (by norm_num) (by norm_num) hs (Nat.mod_lt _ (by norm_num))
  have hrun := reads_map UInt64.toUInt8 hvalue
  rwa [toUInt8_bits (n := 4) h] at hrun

/-- Flags that are kept in a 16-bit word. -/
theorem reads_flags16 {subtype : UInt8} {v : UInt16} {k n : ℕ} (hs : subtype.toNat < 16)
    (hn : 1 ≤ n) (hmax : n ≤ 16) (hk : 4 + n = 8 * k) (h : v.toNat < 2 ^ n) :
    Reads ReadStream.cursor (UInt64.toUInt16 <$> readSubtype subtype 16 n)
      (subtypeBytes k subtype n v.toUInt64) v := by
  have hvalue : Reads ReadStream.cursor (readSubtype subtype 16 n)
      (subtypeBytes k subtype n v.toUInt64) (UInt64.ofNat (v.toUInt64.toNat % 2 ^ n)) :=
    reads_subtype hn (by omega) hk hs (Nat.mod_lt _ (by positivity))
  have hrun := reads_map UInt64.toUInt16 hvalue
  rwa [toUInt16_bits h] at hrun

theorem writes_flags {subtype : UInt8} {valueBits n k : ℕ} (flags : UInt64) (hn : 1 ≤ n)
    (hmax : n ≤ min 57 valueBits) (hk : 4 + n = 8 * k) (hs : subtype.toNat < 16) :
    Writes WriteStream.cursor (writeSubtype subtype valueBits flags n)
      (subtypeBytes k subtype n flags) :=
  writes_subtype flags hn hmax hk hs

theorem reads_reserved {subtype : UInt8} {k n : ℕ} (hn : 1 ≤ n) (hmax : n < 32)
    (hk : 4 + n = 8 * k) (hs : subtype.toNat < 16) :
    Reads ReadStream.cursor (readSubtypeReserved subtype n) (subtypeBytes k subtype n 0) () := by
  rw [subtypeBytes, UInt64.toNat_zero, Nat.zero_mod, add_zero]
  exact reads_subtypeReserved hn hmax hk hs

theorem writes_reserved {subtype : UInt8} {k n : ℕ} (hn : 1 ≤ n) (hmax : n < 32)
    (hk : 4 + n = 8 * k) (hs : subtype.toNat < 16) :
    Writes WriteStream.cursor (writeSubtypeReserved subtype n) (subtypeBytes k subtype n 0) := by
  rw [subtypeBytes, UInt64.toNat_zero, Nat.zero_mod, add_zero]
  exact writes_subtypeReserved hn hmax hk hs

/-! ### MP_CAPABLE -/

/-- Which fields of MP_CAPABLE are there. -/
structure TcpMpCapableMask where
  senderKey : Bool := false
  receiverKey : Bool := false
  dataLevelLen : Bool := false
  chksum : Bool := false
  deriving DecidableEq, Repr

/-- TCP multipath capable option. -/
structure TcpMpCapableOpt where
  fieldMask : TcpMpCapableMask := {}
  version : UInt8 := 1
  flags : UInt8 := 0
  senderKey : UInt64 := 0
  receiverKey : UInt64 := 0
  dataLevelLen : UInt16 := 0
  chksum : UInt16 := 0
  deriving DecidableEq, Repr

namespace TcpMpCapableMask

def size (m : TcpMpCapableMask) : ℕ :=
  let length := 4
  let length := if m.senderKey then length + 8 else length
  let length := if m.receiverKey then length + 8 else length
  let length := if m.dataLevelLen then length + 2 else length
  if m.chksum then length + 2 else length

/-- The fields that a reader infers from the length. -/
def ofLength (length : UInt8) : Option TcpMpCapableMask :=
  if length = 4 then some ⟨false, false, false, false⟩
  else if length = 12 then some ⟨true, false, false, false⟩
  else if length = 20 then some ⟨true, true, false, false⟩
  else if length = 22 then some ⟨true, true, true, false⟩
  else if length = 24 then some ⟨true, true, true, true⟩
  else none

/-- No field is there without those before it. -/
def isPrefix (m : TcpMpCapableMask) : Bool :=
  (m.senderKey || !m.receiverKey) && (m.receiverKey || !m.dataLevelLen)
    && (m.dataLevelLen || !m.chksum)

theorem ofLength_size {m : TcpMpCapableMask} (h : m.isPrefix = true) :
    ofLength (UInt8.ofNat m.size) = some m := by
  obtain ⟨s, r, d, c⟩ := m
  revert h
  revert s r d c
  decide

end TcpMpCapableMask

namespace TcpMpCapableOpt

def size (o : TcpMpCapableOpt) : ℕ := o.fieldMask.size

/-- The option is aligned on a boundary of two bytes. -/
def checksum (o : TcpMpCapableOpt) : UInt32 :=
  let sum := (TcpOptKind.mptcp.toUInt32 <<< 8) ||| UInt32.ofNat o.size
  let sum := sum + ((TcpMpSubtype.mpCapable.toUInt32 <<< 12) ||| (o.version.toUInt32 <<< 8)
    ||| o.flags.toUInt32)
  let sum := if o.fieldMask.senderKey then sum + checksumUint64 o.senderKey else sum
  let sum := if o.fieldMask.receiverKey then sum + checksumUint64 o.receiverKey else sum
  let sum := if o.fieldMask.dataLevelLen then sum + o.dataLevelLen.toUInt32 else sum
  if o.fieldMask.chksum then sum + o.chksum.toUInt32 else sum

def read (old : TcpMpCapableOpt) : Reader TcpMpCapableOpt := do
  verifyByte TcpOptKind.mptcp wrongKind
  let length ← ReadStream.serializeByte
  ensure (TcpMpCapableMask.ofLength length).isSome "invalid MP_CAPABLE option length"
  let fieldMask := (TcpMpCapableMask.ofLength length).getD {}
  let version ← UInt64.toUInt8 <$> readSubtype TcpMpSubtype.mpCapable 8 4
  let flags ← ReadStream.serializeByte
  let senderKey ← readIf fieldMask.senderKey ReadStream.serializeUint64 old.senderKey
  let receiverKey ← readIf fieldMask.receiverKey ReadStream.serializeUint64 old.receiverKey
  let dataLevelLen ← readIf fieldMask.dataLevelLen ReadStream.serializeUint16 old.dataLevelLen
  let chksum ← readIf fieldMask.chksum ReadStream.serializeUint16 old.chksum
  pure ⟨fieldMask, version, flags, senderKey, receiverKey, dataLevelLen, chksum⟩

def write (o : TcpMpCapableOpt) : Writer := do
  WriteStream.serializeByte TcpOptKind.mptcp
  WriteStream.serializeByte (UInt8.ofNat o.size)
  writeSubtype TcpMpSubtype.mpCapable 8 o.version.toUInt64 4
  WriteStream.serializeByte o.flags
  writeIf o.fieldMask.senderKey (WriteStream.serializeUint64 o.senderKey)
  writeIf o.fieldMask.receiverKey (WriteStream.serializeUint64 o.receiverKey)
  writeIf o.fieldMask.dataLevelLen (WriteStream.serializeUint16 o.dataLevelLen)
  writeIf o.fieldMask.chksum (WriteStream.serializeUint16 o.chksum)

def bytes (o : TcpMpCapableOpt) : List UInt8 :=
  [TcpOptKind.mptcp] ++ ([UInt8.ofNat o.size] ++
    (subtypeBytes 1 TcpMpSubtype.mpCapable 4 o.version.toUInt64 ++
      ([o.flags] ++ (bytesIf o.fieldMask.senderKey (beBytes 8 o.senderKey.toNat) ++
        (bytesIf o.fieldMask.receiverKey (beBytes 8 o.receiverKey.toNat) ++
          (bytesIf o.fieldMask.dataLevelLen (beBytes 2 o.dataLevelLen.toNat) ++
            bytesIf o.fieldMask.chksum (beBytes 2 o.chksum.toNat)))))))

/-- The version has four bits. -/
def Fits (o : TcpMpCapableOpt) : Prop := o.version.toNat < 16

def onto (o old : TcpMpCapableOpt) : TcpMpCapableOpt :=
  ⟨o.fieldMask, o.version, o.flags, if o.fieldMask.senderKey then o.senderKey else old.senderKey,
    if o.fieldMask.receiverKey then o.receiverKey else old.receiverKey,
    if o.fieldMask.dataLevelLen then o.dataLevelLen else old.dataLevelLen,
    if o.fieldMask.chksum then o.chksum else old.chksum⟩

def onWire (o : TcpMpCapableOpt) : TcpMpCapableOpt := o.onto {}

theorem onWire_onto (o old : TcpMpCapableOpt) : (o.onto old).onWire = o.onWire := by
  simp only [onWire, onto]
  split_ifs <;> rfl

theorem reads {o : TcpMpCapableOpt} (hmask : o.fieldMask.isPrefix = true) (hfits : o.Fits)
    (old : TcpMpCapableOpt) : Reads ReadStream.cursor (read old) o.bytes (o.onto old) := by
  have hlen := TcpMpCapableMask.ofLength_size hmask
  have hsubtype : TcpMpSubtype.mpCapable.toNat < 16 := by decide
  have hversion := reads_flags8 hsubtype hfits
  refine (reads_verifyByte _ _).bind ((reads_byte _).bind (Reads.ensure ?_ ?_))
  · rw [size, hlen]
    rfl
  · rw [size, hlen]
    exact hversion.bind ((reads_byte o.flags).bind
      ((reads_if o.fieldMask.senderKey (reads_uint64 o.senderKey) old.senderKey).bind
        ((reads_if o.fieldMask.receiverKey (reads_uint64 o.receiverKey) old.receiverKey).bind
          ((reads_if o.fieldMask.dataLevelLen (reads_uint16 o.dataLevelLen) old.dataLevelLen).bind
            (reads_if o.fieldMask.chksum (reads_uint16 o.chksum) old.chksum).bind_pure))))

theorem writes (o : TcpMpCapableOpt) : Writes WriteStream.cursor o.write o.bytes :=
  (writes_byte _).bind ((writes_byte _).bind
    ((writes_flags o.version.toUInt64 (by norm_num) (by norm_num) (by norm_num)
      (by decide)).bind ((writes_byte o.flags).bind
        ((writes_if _ (writes_uint64 o.senderKey)).bind
          ((writes_if _ (writes_uint64 o.receiverKey)).bind
            ((writes_if _ (writes_uint16 o.dataLevelLen)).bind
              (writes_if _ (writes_uint16 o.chksum))))))))

/-- The option that the bytes are taken for. There is none when the length is not that of
a prefix of the fields. -/
def asRead (o : TcpMpCapableOpt) : Option TcpMpCapableOpt :=
  if o.fieldMask.isPrefix then some o
  else if o.fieldMask = ⟨false, true, false, false⟩ then
    some { o with fieldMask := ⟨true, false, false, false⟩, senderKey := o.receiverKey }
  else if o.fieldMask = ⟨true, true, false, true⟩ then
    some { o with fieldMask := ⟨true, true, true, false⟩, dataLevelLen := o.chksum }
  else none

theorem bytes_asRead {o o' : TcpMpCapableOpt} (h : o.asRead = some o') : o.bytes = o'.bytes := by
  obtain ⟨m, version, flags, senderKey, receiverKey, dataLevelLen, chksum⟩ := o
  simp only [asRead] at h
  split at h
  · cases h
    rfl
  · split at h
    · cases h
      rename_i heq
      subst heq
      rfl
    · split at h
      · cases h
        rename_i heq
        subst heq
        rfl
      · cases h

theorem isPrefix_asRead {o o' : TcpMpCapableOpt} (h : o.asRead = some o') :
    o'.fieldMask.isPrefix = true := by
  rw [asRead] at h
  split at h
  · cases h
    assumption
  · split at h
    · cases h
      rfl
    · split at h
      · cases h
        rfl
      · cases h

theorem fits_asRead {o o' : TcpMpCapableOpt} (h : o.asRead = some o') (hfits : o.Fits) :
    o'.Fits := by
  rw [asRead] at h
  split at h
  · cases h
    exact hfits
  · split at h
    · cases h
      exact hfits
    · split at h
      · cases h
        exact hfits
      · cases h

/-- Lengths that stand for no fields. -/
theorem ofLength_eq_none {o : TcpMpCapableOpt} (h : o.asRead = none) :
    TcpMpCapableMask.ofLength (UInt8.ofNat o.size) = none := by
  have hmask : ∀ s r d c : Bool, (⟨s, r, d, c⟩ : TcpMpCapableMask).isPrefix = false →
      (⟨s, r, d, c⟩ : TcpMpCapableMask) ≠ ⟨false, true, false, false⟩ →
      (⟨s, r, d, c⟩ : TcpMpCapableMask) ≠ ⟨true, true, false, true⟩ →
      TcpMpCapableMask.ofLength (UInt8.ofNat (TcpMpCapableMask.size ⟨s, r, d, c⟩)) = none := by
    decide
  rw [asRead] at h
  split at h
  · cases h
  · split at h
    · cases h
    · split at h
      · cases h
      · rename_i hprefix hfirst hsecond
        exact hmask _ _ _ _ (Bool.eq_false_iff.mpr hprefix) hfirst hsecond

/-- Other options are refused. -/
theorem refuses {o : TcpMpCapableOpt} (h : o.asRead = none) (old : TcpMpCapableOpt) :
    Refuses ReadStream.cursor (read old) o.bytes :=
  (reads_verifyByte _ _).bind_refuses ((reads_byte _).bind_refuses
    (Refuses.ensure (by rw [ofLength_eq_none h]; rfl) _))

end TcpMpCapableOpt

/-! ### MP_JOIN -/

/-- TCP multipath subflow join option; its content varies during the three-way
handshake. -/
inductive TcpMpJoinOpt
  /-- On the initial SYN. -/
  | syn (flags addressId : UInt8) (receiverToken senderRand : UInt32)
  /-- On the responding SYN/ACK. -/
  | synAck (flags addressId : UInt8) (senderMac : UInt64) (senderRand : UInt32)
  /-- On the initiator's first ACK. -/
  | ack (senderMac : Vector UInt8 20)
  deriving DecidableEq, Repr

namespace TcpMpJoinOpt

def size : TcpMpJoinOpt → ℕ
  | syn .. => 12
  | synAck .. => 16
  | ack _ => 24

/-- The option is aligned on a boundary of two bytes. -/
def checksum (o : TcpMpJoinOpt) : UInt32 :=
  let sum := (TcpOptKind.mptcp.toUInt32 <<< 8) ||| UInt32.ofNat o.size
  let subtype := TcpMpSubtype.mpJoin.toUInt32 <<< 12
  match o with
  | syn flags addressId receiverToken senderRand =>
    sum + ((subtype ||| ((flags.toUInt32 <<< 8) ||| addressId.toUInt32))
      + checksumUint32 receiverToken + checksumUint32 senderRand)
  | synAck flags addressId senderMac senderRand =>
    sum + ((subtype ||| ((flags.toUInt32 <<< 8) ||| addressId.toUInt32))
      + checksumUint64 senderMac + checksumUint32 senderRand)
  | ack senderMac => sum + (onesComplementChecksum senderMac.toList subtype).toUInt32

def read : Reader TcpMpJoinOpt := do
  verifyByte TcpOptKind.mptcp wrongKind
  let length ← ReadStream.serializeByte
  if length = 12 then do
    let flags ← UInt64.toUInt8 <$> readSubtype TcpMpSubtype.mpJoin 8 4
    let addressId ← ReadStream.serializeByte
    let receiverToken ← ReadStream.serializeUint32
    let senderRand ← ReadStream.serializeUint32
    pure (syn flags addressId receiverToken senderRand)
  else if length = 16 then do
    let flags ← UInt64.toUInt8 <$> readSubtype TcpMpSubtype.mpJoin 8 4
    let addressId ← ReadStream.serializeByte
    let senderMac ← ReadStream.serializeUint64
    let senderRand ← ReadStream.serializeUint32
    pure (synAck flags addressId senderMac senderRand)
  else if length = 24 then do
    readSubtypeReserved TcpMpSubtype.mpJoin 12
    let senderMac ← ReadStream.serializeBytes 20
    pure (ack (Vector.ofFn fun i => senderMac.getD i 0))
  else throw "invalid MP_JOIN option length"

def write (o : TcpMpJoinOpt) : Writer := do
  WriteStream.serializeByte TcpOptKind.mptcp
  WriteStream.serializeByte (UInt8.ofNat o.size)
  match o with
  | syn flags addressId receiverToken senderRand => do
    writeSubtype TcpMpSubtype.mpJoin 8 flags.toUInt64 4
    WriteStream.serializeByte addressId
    WriteStream.serializeUint32 receiverToken
    WriteStream.serializeUint32 senderRand
  | synAck flags addressId senderMac senderRand => do
    writeSubtype TcpMpSubtype.mpJoin 8 flags.toUInt64 4
    WriteStream.serializeByte addressId
    WriteStream.serializeUint64 senderMac
    WriteStream.serializeUint32 senderRand
  | ack senderMac => do
    writeSubtypeReserved TcpMpSubtype.mpJoin 12
    WriteStream.serializeBytes senderMac.toList

def body : TcpMpJoinOpt → List UInt8
  | syn flags addressId receiverToken senderRand =>
    subtypeBytes 1 TcpMpSubtype.mpJoin 4 flags.toUInt64 ++ ([addressId] ++
      (beBytes 4 receiverToken.toNat ++ beBytes 4 senderRand.toNat))
  | synAck flags addressId senderMac senderRand =>
    subtypeBytes 1 TcpMpSubtype.mpJoin 4 flags.toUInt64 ++ ([addressId] ++
      (beBytes 8 senderMac.toNat ++ beBytes 4 senderRand.toNat))
  | ack senderMac => subtypeBytes 2 TcpMpSubtype.mpJoin 12 0 ++ senderMac.toList

def bytes (o : TcpMpJoinOpt) : List UInt8 :=
  [TcpOptKind.mptcp] ++ ([UInt8.ofNat o.size] ++ o.body)

/-- The flags have four bits. -/
def Fits : TcpMpJoinOpt → Prop
  | syn flags .. => flags.toNat < 16
  | synAck flags .. => flags.toNat < 16
  | ack _ => True

theorem reads {o : TcpMpJoinOpt} (h : o.Fits) : Reads ReadStream.cursor read o.bytes o := by
  refine (reads_verifyByte _ _).bind ((reads_byte _).bind ?_)
  cases o with
  | syn flags addressId receiverToken senderRand =>
    exact (reads_flags8 (by decide) h).bind ((reads_byte addressId).bind
      ((reads_uint32 receiverToken).bind (reads_uint32 senderRand).bind_pure))
  | synAck flags addressId senderMac senderRand =>
    exact (reads_flags8 (by decide) h).bind ((reads_byte addressId).bind
      ((reads_uint64 senderMac).bind (reads_uint32 senderRand).bind_pure))
  | ack senderMac =>
    have hmac : (Vector.ofFn fun i : Fin 20 => senderMac.toList.getD i 0) = senderMac := by
      ext i hi
      simp [List.getD_eq_getElem?_getD]
    have hrun := (reads_bytes senderMac.toList 20 (by simp)).bind_pure
      (g := fun mac => ack (Vector.ofFn fun i => mac.getD i 0))
    rw [hmac] at hrun
    exact (reads_reserved (n := 12) (by norm_num) (by norm_num) (by norm_num)
      (by decide)).bind hrun

theorem writes (o : TcpMpJoinOpt) : Writes WriteStream.cursor o.write o.bytes := by
  refine (writes_byte _).bind ((writes_byte _).bind ?_)
  cases o with
  | syn flags addressId receiverToken senderRand =>
    exact (writes_flags flags.toUInt64 (by norm_num) (by norm_num) (by norm_num)
      (by decide)).bind ((writes_byte addressId).bind
        ((writes_uint32 receiverToken).bind (writes_uint32 senderRand)))
  | synAck flags addressId senderMac senderRand =>
    exact (writes_flags flags.toUInt64 (by norm_num) (by norm_num) (by norm_num)
      (by decide)).bind ((writes_byte addressId).bind
        ((writes_uint64 senderMac).bind (writes_uint32 senderRand)))
  | ack senderMac =>
    exact (writes_reserved (by norm_num) (by norm_num) (by norm_num) (by decide)).bind
      (writes_bytes senderMac.toList)

end TcpMpJoinOpt

/-! ### DSS -/

/-- TCP multipath data sequence signal option. The two sequence numbers are unions of a
32-bit and a 64-bit integer, of which the former is the low half. -/
structure TcpMpDssOpt where
  flags : UInt16 := 0
  dataAck : UInt64 := 0
  dsn : UInt64 := 0
  subflowSeq : UInt32 := 0
  dataLevelLen : UInt16 := 0
  chksum : Option UInt16 := none
  deriving DecidableEq, Repr

/-- `FlagSet::operator[]`. -/
def hasFlag (flags flag : UInt16) : Bool := flags &&& flag != 0

namespace TcpMpDssOpt

def flagACK : UInt16 := (1 : UInt16) <<< 0
def flagACK8 : UInt16 := (1 : UInt16) <<< 1
def flagDSN : UInt16 := (1 : UInt16) <<< 2
def flagDSN8 : UInt16 := (1 : UInt16) <<< 3

/-- Store into the low half of a sequence number. -/
def setU32 (u64 : UInt64) (u32 : UInt32) : UInt64 := (u64 &&& 0xffffffff00000000) ||| u32.toUInt64

/-- `size` of an option with the given flags and no checksum. -/
def sizeOfFlags (flags : UInt16) : ℕ :=
  let length := 4
  let length :=
    if hasFlag flags flagACK then
      if hasFlag flags flagACK8 then length + 4 + 4 else length + 4
    else length
  if hasFlag flags flagDSN then
    if hasFlag flags flagDSN8 then length + 10 + 4 else length + 10
  else length

def size (o : TcpMpDssOpt) : ℕ := sizeOfFlags o.flags + if o.chksum.isSome then 2 else 0

/-- The sum of the words of a sequence number. -/
def checksumSeq (eight : Bool) (x : UInt64) : UInt32 :=
  if eight then checksumUint64 x else checksumUint32 x.toUInt32

/-- The option is aligned on a boundary of two bytes. -/
def checksum (o : TcpMpDssOpt) : UInt32 :=
  let sum := (TcpOptKind.mptcp.toUInt32 <<< 8) ||| UInt32.ofNat o.size
  let sum := sum + ((TcpMpSubtype.dss.toUInt32 <<< 12) ||| o.flags.toUInt32)
  let sum :=
    if hasFlag o.flags flagACK then sum + checksumSeq (hasFlag o.flags flagACK8) o.dataAck
    else sum
  let sum :=
    if hasFlag o.flags flagDSN then
      sum + checksumSeq (hasFlag o.flags flagDSN8) o.dsn + checksumUint32 o.subflowSeq
        + o.dataLevelLen.toUInt32
    else sum
  match o.chksum with
  | some chksum => sum + chksum.toUInt32
  | none => sum

/-- A sequence number of four or eight bytes, read into `old`. -/
def readSeq (eight : Bool) (old : UInt64) : Reader UInt64 :=
  if eight then ReadStream.serializeUint64
  else setU32 old <$> ReadStream.serializeUint32

def read (old : TcpMpDssOpt) : Reader TcpMpDssOpt := do
  verifyByte TcpOptKind.mptcp wrongKind
  let length ← ReadStream.serializeByte
  let flags ← UInt64.toUInt16 <$> readSubtype TcpMpSubtype.dss 16 12
  let dataAck ← readIf (hasFlag flags flagACK) (readSeq (hasFlag flags flagACK8) old.dataAck)
    old.dataAck
  let dsn ← readIf (hasFlag flags flagDSN) (readSeq (hasFlag flags flagDSN8) old.dsn) old.dsn
  let subflowSeq ← readIf (hasFlag flags flagDSN) ReadStream.serializeUint32 old.subflowSeq
  let dataLevelLen ← readIf (hasFlag flags flagDSN) ReadStream.serializeUint16 old.dataLevelLen
  let chksum ← readIf ((length.toNat : ℤ) - sizeOfFlags flags ≥ 2)
    (some <$> ReadStream.serializeUint16) none
  pure ⟨flags, dataAck, dsn, subflowSeq, dataLevelLen, chksum⟩

def writeSeq (eight : Bool) (x : UInt64) : Writer :=
  if eight then WriteStream.serializeUint64 x else WriteStream.serializeUint32 x.toUInt32

def write (o : TcpMpDssOpt) : Writer := do
  WriteStream.serializeByte TcpOptKind.mptcp
  WriteStream.serializeByte (UInt8.ofNat o.size)
  writeSubtype TcpMpSubtype.dss 16 o.flags.toUInt64 12
  writeIf (hasFlag o.flags flagACK) (writeSeq (hasFlag o.flags flagACK8) o.dataAck)
  writeIf (hasFlag o.flags flagDSN) (writeSeq (hasFlag o.flags flagDSN8) o.dsn)
  writeIf (hasFlag o.flags flagDSN) (WriteStream.serializeUint32 o.subflowSeq)
  writeIf (hasFlag o.flags flagDSN) (WriteStream.serializeUint16 o.dataLevelLen)
  writeIf o.chksum.isSome (WriteStream.serializeUint16 (o.chksum.getD 0))

def seqBytes (eight : Bool) (x : UInt64) : List UInt8 :=
  if eight then beBytes 8 x.toNat else beBytes 4 x.toUInt32.toNat

def bytes (o : TcpMpDssOpt) : List UInt8 :=
  [TcpOptKind.mptcp] ++ ([UInt8.ofNat o.size] ++
    (subtypeBytes 2 TcpMpSubtype.dss 12 o.flags.toUInt64 ++
      (bytesIf (hasFlag o.flags flagACK) (seqBytes (hasFlag o.flags flagACK8) o.dataAck) ++
        (bytesIf (hasFlag o.flags flagDSN) (seqBytes (hasFlag o.flags flagDSN8) o.dsn) ++
          (bytesIf (hasFlag o.flags flagDSN) (beBytes 4 o.subflowSeq.toNat) ++
            (bytesIf (hasFlag o.flags flagDSN) (beBytes 2 o.dataLevelLen.toNat) ++
              bytesIf o.chksum.isSome (beBytes 2 (o.chksum.getD 0).toNat)))))))

/-- The flags have twelve bits. -/
def Fits (o : TcpMpDssOpt) : Prop := o.flags.toNat < 2 ^ 12

/-- A sequence number read into `old`. -/
def seqOnto (eight : Bool) (x old : UInt64) : UInt64 := if eight then x else setU32 old x.toUInt32

def onto (o old : TcpMpDssOpt) : TcpMpDssOpt :=
  ⟨o.flags,
    if hasFlag o.flags flagACK then seqOnto (hasFlag o.flags flagACK8) o.dataAck old.dataAck
    else old.dataAck,
    if hasFlag o.flags flagDSN then seqOnto (hasFlag o.flags flagDSN8) o.dsn old.dsn else old.dsn,
    if hasFlag o.flags flagDSN then o.subflowSeq else old.subflowSeq,
    if hasFlag o.flags flagDSN then o.dataLevelLen else old.dataLevelLen, o.chksum⟩

def onWire (o : TcpMpDssOpt) : TcpMpDssOpt := o.onto {}

/-- The low half is what was stored there. -/
theorem toUInt32_setU32 (u64 : UInt64) (u32 : UInt32) : (setU32 u64 u32).toUInt32 = u32 := by
  have hmask : (0xffffffff00000000 : UInt64).toUInt32 = 0 := rfl
  simp only [setU32, UInt64.toUInt32_or, UInt64.toUInt32_and, hmask, UInt32.and_zero,
    UInt32.zero_or, UInt32.toUInt32_toUInt64]

theorem seqOnto_seqOnto (eight : Bool) (x old base : UInt64) :
    seqOnto eight (seqOnto eight x old) base = seqOnto eight x base := by
  cases eight with
  | true => rfl
  | false => simp only [seqOnto, Bool.false_eq_true, if_false, toUInt32_setU32]

theorem onWire_onto (o old : TcpMpDssOpt) : (o.onto old).onWire = o.onWire := by
  simp only [onWire, onto]
  split_ifs <;> simp only [seqOnto_seqOnto]

theorem size_le (o : TcpMpDssOpt) : o.size ≤ 28 := by
  rw [size, sizeOfFlags]
  split_ifs <;> omega

theorem reads_seq (eight : Bool) (x old : UInt64) :
    Reads ReadStream.cursor (readSeq eight old) (seqBytes eight x) (seqOnto eight x old) := by
  cases eight with
  | true => exact reads_uint64 x
  | false => exact reads_map (setU32 old) (reads_uint32 x.toUInt32)

theorem reads {o : TcpMpDssOpt} (h : o.Fits) (old : TcpMpDssOpt) :
    Reads ReadStream.cursor (read old) o.bytes (o.onto old) := by
  -- what the length leaves behind the other fields
  have hchksum : decide (((UInt8.ofNat o.size).toNat : ℤ) - sizeOfFlags o.flags ≥ 2)
      = o.chksum.isSome := by
    have hle := o.size_le
    have hsize : o.size = sizeOfFlags o.flags + if o.chksum.isSome then 2 else 0 := rfl
    rw [UInt8.toNat_ofNat', Nat.mod_eq_of_lt (by omega)]
    cases hsome : o.chksum.isSome with
    | true =>
      rw [hsome, if_pos rfl] at hsize
      exact decide_eq_true (by omega)
    | false =>
      rw [hsome, if_neg Bool.false_ne_true] at hsize
      exact decide_eq_false (by omega)
  have hlast := reads_if o.chksum.isSome
    (reads_map some (reads_uint16 (o.chksum.getD 0))) none
  have hnone : (if o.chksum.isSome = true then some (o.chksum.getD 0) else none) = o.chksum := by
    cases o.chksum <;> rfl
  rw [hnone, ← hchksum] at hlast
  rw [bytes, ← hchksum]
  exact (reads_verifyByte _ _).bind ((reads_byte _).bind
    ((reads_flags16 (by decide) (by norm_num) (by norm_num) (by norm_num) h).bind
      ((reads_if _ (reads_seq _ o.dataAck old.dataAck) old.dataAck).bind
        ((reads_if _ (reads_seq _ o.dsn old.dsn) old.dsn).bind
          ((reads_if _ (reads_uint32 o.subflowSeq) old.subflowSeq).bind
            ((reads_if _ (reads_uint16 o.dataLevelLen) old.dataLevelLen).bind
              hlast.bind_pure))))))

theorem writes_seq (eight : Bool) (x : UInt64) :
    Writes WriteStream.cursor (writeSeq eight x) (seqBytes eight x) := by
  cases eight with
  | true => exact writes_uint64 x
  | false => exact writes_uint32 x.toUInt32

theorem writes (o : TcpMpDssOpt) : Writes WriteStream.cursor o.write o.bytes :=
  (writes_byte _).bind ((writes_byte _).bind
    ((writes_flags o.flags.toUInt64 (by norm_num) (by norm_num) (by norm_num) (by decide)).bind
      ((writes_if _ (writes_seq _ o.dataAck)).bind ((writes_if _ (writes_seq _ o.dsn)).bind
        ((writes_if _ (writes_uint32 o.subflowSeq)).bind
          ((writes_if _ (writes_uint16 o.dataLevelLen)).bind
            (writes_if _ (writes_uint16 (o.chksum.getD 0)))))))))

end TcpMpDssOpt

/-! ### REMOVE_ADDR -/

/-- TCP multipath remove address option. -/
structure TcpMpRemAddrOpt where
  addressIds : Vector UInt8 8 := Vector.replicate 8 0
  /-- Number of IDs in `addressIds`, at least 1. -/
  count : UInt32 := 1
  deriving DecidableEq, Repr

namespace TcpMpRemAddrOpt

def minLength : UInt8 := 4

/-- The number of IDs that the option removes. -/
def numIds (o : TcpMpRemAddrOpt) : ℕ := max 1 (min o.count.toNat 8)

def size (o : TcpMpRemAddrOpt) : ℕ := 3 + o.numIds

/-- The option is padded to an even length by a no-op option in front of it. -/
def checksum (o : TcpMpRemAddrOpt) : UInt32 :=
  let ids := firstSlots 8 o.numIds
  if o.numIds % 2 = 1 then
    let sum := (TcpOptKind.mptcp.toUInt32 <<< 8) ||| UInt32.ofNat o.size
    let sum := sum + (TcpMpSubtype.removeAddr.toUInt32 <<< 12)
    ids.foldl (fun sum (i : Fin 8) =>
      sum + (o.addressIds[i].toUInt32 <<< if i.val % 2 = 1 then 8 else 0)) sum
  else
    let sum := ((0x01 : UInt32) <<< 8) ||| TcpOptKind.mptcp.toUInt32
    let sum := sum + ((UInt32.ofNat o.size <<< 8) ||| (TcpMpSubtype.removeAddr.toUInt32 <<< 4))
    ids.foldl (fun sum (i : Fin 8) =>
      sum + (o.addressIds[i].toUInt32 <<< if i.val % 2 = 0 then 8 else 0)) sum

def read (old : TcpMpRemAddrOpt) : Reader TcpMpRemAddrOpt := do
  verifyByte TcpOptKind.mptcp wrongKind
  let length ← ReadStream.serializeByte
  ensure (!(length < minLength)) "invalid REMOVE_ADDR option length"
  readSubtypeReserved TcpMpSubtype.removeAddr 4
  let n : UInt32 := length.toUInt32 - minLength.toUInt32 + 1
  ensure (!(n > 8)) "too many addresses in MPTCP REMOVE_ADDR option"
  let addressIds ← readSlots ReadStream.serializeByte (firstSlots 8 n.toNat) old.addressIds
  pure ⟨addressIds, n⟩

def write (o : TcpMpRemAddrOpt) : Writer := do
  WriteStream.serializeByte TcpOptKind.mptcp
  WriteStream.serializeByte (UInt8.ofNat o.size)
  writeSubtypeReserved TcpMpSubtype.removeAddr 4
  writeAll (fun i : Fin 8 => WriteStream.serializeByte o.addressIds[i]) (firstSlots 8 o.numIds)

def bytes (o : TcpMpRemAddrOpt) : List UInt8 :=
  [TcpOptKind.mptcp] ++ ([UInt8.ofNat o.size] ++ (subtypeBytes 1 TcpMpSubtype.removeAddr 4 0 ++
    ((firstSlots 8 o.numIds).map fun i => [o.addressIds[i]]).flatten))

/-- There are 1 to 8 IDs. -/
def Fits (o : TcpMpRemAddrOpt) : Prop := 1 ≤ o.count.toNat ∧ o.count.toNat ≤ 8

def onto (o old : TcpMpRemAddrOpt) : TcpMpRemAddrOpt :=
  ⟨overlay o.numIds o.addressIds old.addressIds, o.count⟩

def onWire (o : TcpMpRemAddrOpt) : TcpMpRemAddrOpt := o.onto {}

theorem onWire_onto (o old : TcpMpRemAddrOpt) : (o.onto old).onWire = o.onWire := by
  simp only [onWire, onto, numIds, overlay_overlay]

theorem reads {o : TcpMpRemAddrOpt} (h : o.Fits) (old : TcpMpRemAddrOpt) :
    Reads ReadStream.cursor (read old) o.bytes (o.onto old) := by
  obtain ⟨hmin, hmax⟩ := h
  have hnum : o.numIds = o.count.toNat := by
    rw [numIds]
    omega
  -- the count that the length stands for
  have hcount : (UInt8.ofNat o.size).toUInt32 - minLength.toUInt32 + 1 = o.count := by
    rw [← UInt32.toNat_inj, size, hnum]
    interval_cases o.count.toNat <;> rfl
  have hids := reads_firstSlots reads_byte o.count.toNat o.addressIds old.addressIds
  rw [bytes, onto, hnum]
  refine (reads_verifyByte _ _).bind ((reads_byte _).bind (Reads.ensure ?_
    ((reads_reserved (n := 4) (by norm_num) (by norm_num) (by norm_num) (by decide)).bind
      (Reads.ensure ?_ ?_))))
  · rw [size, hnum]
    interval_cases o.count.toNat <;> rfl
  · rw [hcount, Bool.not_eq_true', decide_eq_false_iff_not, UInt32.not_lt, UInt32.le_iff_toNat_le]
    exact hmax
  · rw [hcount]
    exact hids.bind_pure

theorem writes (o : TcpMpRemAddrOpt) : Writes WriteStream.cursor o.write o.bytes :=
  (writes_byte _).bind ((writes_byte _).bind
    ((writes_reserved (n := 4) (by norm_num) (by norm_num) (by norm_num)
      (by decide)).bind (Writes.writeAll _ fun i _ => writes_byte o.addressIds[i])))

end TcpMpRemAddrOpt

/-! ### MP_PRIO -/

/-- TCP multipath change subflow priority option. -/
structure TcpMpPrioOpt where
  backup : Bool := false
  deriving DecidableEq, Repr

namespace TcpMpPrioOpt

def length : UInt8 := 3

def size (_ : TcpMpPrioOpt) : ℕ := length.toNat

/-- The option is preceded by a no-op option that is aligned on a boundary of two bytes. -/
def checksum (o : TcpMpPrioOpt) : UInt32 :=
  (((0x01 : UInt32) <<< 8) ||| TcpOptKind.mptcp.toUInt32)
    + ((length.toUInt32 <<< 8) ||| (TcpMpSubtype.mpPrio.toUInt32 <<< 4) ||| o.backup.toUInt32)

def read : Reader TcpMpPrioOpt := do
  verifyByte TcpOptKind.mptcp wrongKind
  verifyByte length "incorrect MP_PRIO option length"
  let temp ← UInt64.toUInt8 <$> readSubtype TcpMpSubtype.mpPrio 8 4
  pure ⟨temp &&& 1 != 0⟩

def write (o : TcpMpPrioOpt) : Writer := do
  WriteStream.serializeByte TcpOptKind.mptcp
  WriteStream.serializeByte length
  writeSubtype TcpMpSubtype.mpPrio 8 o.backup.toUInt8.toUInt64 4

def bytes (o : TcpMpPrioOpt) : List UInt8 :=
  [TcpOptKind.mptcp] ++ ([length] ++
    subtypeBytes 1 TcpMpSubtype.mpPrio 4 o.backup.toUInt8.toUInt64)

theorem reads (o : TcpMpPrioOpt) : Reads ReadStream.cursor read o.bytes o := by
  have hbackup : (o.backup.toUInt8 &&& 1 != 0) = o.backup := by
    cases o.backup <;> rfl
  have hsubtype : TcpMpSubtype.mpPrio.toNat < 16 := by decide
  have hflag := (reads_flags8 (v := o.backup.toUInt8) hsubtype
    (by cases o.backup <;> decide)).bind_pure
      (g := fun temp => (⟨temp &&& 1 != 0⟩ : TcpMpPrioOpt))
  rw [hbackup] at hflag
  exact (reads_verifyByte _ _).bind ((reads_verifyByte _ _).bind hflag)

theorem writes (o : TcpMpPrioOpt) : Writes WriteStream.cursor o.write o.bytes :=
  (writes_byte _).bind ((writes_byte _).bind (writes_flags o.backup.toUInt8.toUInt64
    (by norm_num) (by norm_num) (by norm_num) (by decide)))

end TcpMpPrioOpt

/-! ### MP_FAIL and MP_FASTCLOSE

Both are a subtype with reserved bits and a 64-bit number. -/

/-- The length of both options. -/
def mpWordLength : UInt8 := 12

/-- `checksum` of both options. -/
def mpWordChecksum (subtype : UInt8) (x : UInt64) : UInt32 :=
  ((TcpOptKind.mptcp.toUInt32 <<< 8) ||| mpWordLength.toUInt32) + (subtype.toUInt32 <<< 12)
    + checksumUint64 x

/-- Both options, reading. -/
def readMpWord (subtype : UInt8) (wrongLength : String) : Reader UInt64 := do
  verifyByte TcpOptKind.mptcp wrongKind
  verifyByte mpWordLength wrongLength
  readSubtypeReserved subtype 12
  ReadStream.serializeUint64

/-- Both options, writing. -/
def writeMpWord (subtype : UInt8) (x : UInt64) : Writer := do
  WriteStream.serializeByte TcpOptKind.mptcp
  WriteStream.serializeByte mpWordLength
  writeSubtypeReserved subtype 12
  WriteStream.serializeUint64 x

def mpWordBytes (subtype : UInt8) (x : UInt64) : List UInt8 :=
  [TcpOptKind.mptcp] ++ ([mpWordLength] ++ (subtypeBytes 2 subtype 12 0 ++ beBytes 8 x.toNat))

theorem reads_mpWord {subtype : UInt8} (hs : subtype.toNat < 16) (wrongLength : String)
    (x : UInt64) :
    Reads ReadStream.cursor (readMpWord subtype wrongLength) (mpWordBytes subtype x) x :=
  (reads_verifyByte _ _).bind ((reads_verifyByte _ _).bind
    ((reads_reserved (n := 12) (by norm_num) (by norm_num) (by norm_num) hs).bind
      (reads_uint64 x)))

theorem writes_mpWord {subtype : UInt8} (hs : subtype.toNat < 16) (x : UInt64) :
    Writes WriteStream.cursor (writeMpWord subtype x) (mpWordBytes subtype x) :=
  (writes_byte _).bind ((writes_byte _).bind
    ((writes_reserved (n := 12) (by norm_num) (by norm_num) (by norm_num) hs).bind
      (writes_uint64 x)))

/-- TCP multipath fail option. -/
structure TcpMpFailOpt where
  dsn : UInt64 := 0
  deriving DecidableEq, Repr

namespace TcpMpFailOpt

def length : UInt8 := mpWordLength

def size (_ : TcpMpFailOpt) : ℕ := length.toNat

def checksum (o : TcpMpFailOpt) : UInt32 := mpWordChecksum TcpMpSubtype.mpFail o.dsn

def read : Reader TcpMpFailOpt :=
  mk <$> readMpWord TcpMpSubtype.mpFail "incorrect MP_TCPRST option length"

def write (o : TcpMpFailOpt) : Writer := writeMpWord TcpMpSubtype.mpFail o.dsn

def bytes (o : TcpMpFailOpt) : List UInt8 := mpWordBytes TcpMpSubtype.mpFail o.dsn

theorem reads (o : TcpMpFailOpt) : Reads ReadStream.cursor read o.bytes o :=
  reads_map mk (reads_mpWord (by decide) _ o.dsn)

theorem writes (o : TcpMpFailOpt) : Writes WriteStream.cursor o.write o.bytes :=
  writes_mpWord (by decide) o.dsn

end TcpMpFailOpt

/-- TCP multipath fast close option. -/
structure TcpMpCloseOpt where
  receiverKey : UInt64 := 0
  deriving DecidableEq, Repr

namespace TcpMpCloseOpt

def length : UInt8 := mpWordLength

def size (_ : TcpMpCloseOpt) : ℕ := length.toNat

def checksum (o : TcpMpCloseOpt) : UInt32 := mpWordChecksum TcpMpSubtype.mpFastclose o.receiverKey

def read : Reader TcpMpCloseOpt :=
  mk <$> readMpWord TcpMpSubtype.mpFastclose "incorrect MP_FASTCLOSE option length"

def write (o : TcpMpCloseOpt) : Writer := writeMpWord TcpMpSubtype.mpFastclose o.receiverKey

def bytes (o : TcpMpCloseOpt) : List UInt8 := mpWordBytes TcpMpSubtype.mpFastclose o.receiverKey

theorem reads (o : TcpMpCloseOpt) : Reads ReadStream.cursor read o.bytes o :=
  reads_map mk (reads_mpWord (by decide) _ o.receiverKey)

theorem writes (o : TcpMpCloseOpt) : Writes WriteStream.cursor o.write o.bytes :=
  writes_mpWord (by decide) o.receiverKey

end TcpMpCloseOpt

/-! ### MP_TCPRST -/

/-- TCP multipath subflow reset option. -/
structure TcpMpRstOpt where
  flags : UInt8 := 0
  reason : UInt8 := 0
  deriving DecidableEq, Repr

namespace TcpMpRstOpt

def length : UInt8 := 4

def size (_ : TcpMpRstOpt) : ℕ := length.toNat

/-- The option is aligned on a boundary of two bytes. -/
def checksum (o : TcpMpRstOpt) : UInt32 :=
  ((TcpOptKind.mptcp.toUInt32 <<< 8) ||| length.toUInt32)
    + ((TcpMpSubtype.mpTcprst.toUInt32 <<< 12) ||| (o.flags.toUInt32 <<< 8) ||| o.reason.toUInt32)

def read : Reader TcpMpRstOpt := do
  verifyByte TcpOptKind.mptcp wrongKind
  verifyByte length "incorrect MP_TCPRST option length"
  let flags ← UInt64.toUInt8 <$> readSubtype TcpMpSubtype.mpTcprst 8 4
  let reason ← ReadStream.serializeByte
  pure ⟨flags, reason⟩

def write (o : TcpMpRstOpt) : Writer := do
  WriteStream.serializeByte TcpOptKind.mptcp
  WriteStream.serializeByte length
  writeSubtype TcpMpSubtype.mpTcprst 8 o.flags.toUInt64 4
  WriteStream.serializeByte o.reason

def bytes (o : TcpMpRstOpt) : List UInt8 :=
  [TcpOptKind.mptcp] ++ ([length] ++
    (subtypeBytes 1 TcpMpSubtype.mpTcprst 4 o.flags.toUInt64 ++ [o.reason]))

/-- The flags have four bits. -/
def Fits (o : TcpMpRstOpt) : Prop := o.flags.toNat < 16

theorem reads {o : TcpMpRstOpt} (h : o.Fits) : Reads ReadStream.cursor read o.bytes o :=
  (reads_verifyByte _ _).bind ((reads_verifyByte _ _).bind ((reads_flags8 (by decide) h).bind
    (reads_byte o.reason).bind_pure))

theorem writes (o : TcpMpRstOpt) : Writes WriteStream.cursor o.write o.bytes :=
  (writes_byte _).bind ((writes_byte _).bind ((writes_flags o.flags.toUInt64 (by norm_num)
    (by norm_num) (by norm_num) (by decide)).bind (writes_byte o.reason)))

end TcpMpRstOpt

end Scion
