/-
The options of ID-INT (`hdr/idint.hpp`).

* `IdIntOpt`, `IdIntEntry` — the main option and an entry of the telemetry stack with the
  two directions of the source;
* `IdIntOpt.reads`, `IdIntEntry.reads` — which options are read back as they are,
  and `IdIntOpt.takes`, `IdIntEntry.takes` — that no others are read;
* `IdIntEntry.four_dvd_size` — entries end on a multiple of four bytes.
-/
import Scion.BitFields
import Scion.Decoding
import Scion.MptcpOptions

namespace Scion

open BigEndian Codec ReadStream

/-- ID-INT main hop-by-hop option. -/
structure IdIntOpt where
  dataLen : UInt8 := 0
  flags : UInt8 := 0
  agrMode : UInt8 := 0
  vtype : UInt8 := 1
  stackLen : UInt8 := 0
  tos : UInt8 := 0
  delayHops : UInt8 := 0
  bitmap : UInt8 := 0
  agrFunc : Fin 4 → UInt8 := fun _ => 0
  instr : Fin 4 → UInt8 := fun _ => 0
  sourceTS : UInt64 := 0
  sourcePort : UInt16 := 0
  verifier : ScIPAddress := ⟨⟨0⟩, .v6 0 0 ""⟩

namespace IdIntOpt

def minDataLen : ℕ := 22

def version : UInt8 := 0

/-- `Verifier::ThirdParty`. -/
def thirdParty : UInt8 := 0

/-- The correct value for `dataLen`. -/
def size (m : IdIntOpt) : ℕ :=
  if m.vtype = thirdParty then minDataLen + m.verifier.size else minDataLen

/-- Flags, aggregation mode, type of the verifier and of its address. -/
def readModes : Reader (UInt8 × UInt8 × UInt8 × HostAddrType) := do
  let ver ← readField 3
  ensure (ver == version) "unknown ID-INT version"
  let flags ← readField 5
  ensure (flags &&& 1 == 0) "invalid ID-INT header"
  let agrMode ← readField 2
  let vtype ← readField 2
  let verifAddrType ← readField 4
  pure (flags, agrMode, vtype, verifAddrType)

def readDelay : Reader UInt8 := do
  let delayHops ← readField 6
  ReadStream.advanceBits 10
  pure delayHops

def readFuncs : Reader (UInt8 × (Fin 4 → UInt8)) := do
  let bitmap ← readField 4
  let agrFunc ← readFour (readField 3)
  pure (bitmap, agrFunc)

/-- The verifier is another only when there is one in the option. -/
def readVerifier (old : ScIPAddress) (vtype : UInt8) (verifAddrType : HostAddrType) :
    Reader ScIPAddress :=
  if vtype = thirdParty then do
    let isdAsn ← IsdAsn.read
    let host ← IPAddress.read (verifAddrType == HostAddrType.ipv4)
    pure ⟨isdAsn, host⟩
  else pure old

def read (old : IdIntOpt) : Reader IdIntOpt := do
  let type ← ReadStream.serializeByte
  ensure (type == OptType.idInt) "incorrect option type"
  let dataLen ← ReadStream.serializeByte
  ensure (!decide (dataLen.toNat < minDataLen)) "invalid option"
  let modes ← readModes
  let stackLen ← ReadStream.serializeByte
  let tos ← ReadStream.serializeByte
  let delayHops ← readDelay
  let funcs ← readFuncs
  let instr ← readFour ReadStream.serializeByte
  let sourceTS ← ReadStream.serializeBits 64 48
  let sourcePort ← ReadStream.serializeUint16
  let verifier ← readVerifier old.verifier modes.2.2.1 modes.2.2.2
  pure ⟨dataLen, modes.1, modes.2.1, modes.2.2.1, stackLen, tos, delayHops, funcs.1, funcs.2,
    instr, sourceTS, sourcePort, verifier⟩

def verifAddrType (m : IdIntOpt) : HostAddrType :=
  if m.vtype = thirdParty then m.verifier.host.type else HostAddrType.ipv4

def writeModes (m : IdIntOpt) : Writer := do
  WriteStream.writeField 3 version
  WriteStream.writeField 5 m.flags
  WriteStream.writeField 2 m.agrMode
  WriteStream.writeField 2 m.vtype
  WriteStream.writeField 4 m.verifAddrType

def writeDelay (m : IdIntOpt) : Writer := do
  WriteStream.writeField 6 m.delayHops
  WriteStream.advanceBits 10

def writeFuncs (m : IdIntOpt) : Writer := do
  WriteStream.writeField 4 m.bitmap
  writeFour (WriteStream.writeField 3) m.agrFunc

def writeVerifier (m : IdIntOpt) : Writer :=
  if m.vtype = thirdParty then do
    m.verifier.isdAsn.write
    m.verifier.host.write (m.verifAddrType == HostAddrType.ipv4)
  else pure ()

def write (m : IdIntOpt) : Writer := do
  WriteStream.serializeByte OptType.idInt
  WriteStream.serializeByte m.dataLen
  m.writeModes
  WriteStream.serializeByte m.stackLen
  WriteStream.serializeByte m.tos
  m.writeDelay
  m.writeFuncs
  writeFour WriteStream.serializeByte m.instr
  WriteStream.serializeBits 64 m.sourceTS 48
  WriteStream.serializeUint16 m.sourcePort
  m.writeVerifier

end IdIntOpt

/-- An array of zeros, overwritten from the front. -/
def ofBytes (n : ℕ) (bs : List UInt8) : Fin n → UInt8 := fun i => bs.getD i 0

/-- ID-INT telemetry stack entry hop-by-hop option. -/
structure IdIntEntry where
  dataLen : UInt8 := 0
  flags : UInt8 := 0
  hop : UInt8 := 0
  mask : UInt8 := 0
  ml : Fin 4 → UInt8 := fun _ => 0
  nonce : Fin 12 → UInt8 := fun _ => 0
  mac : Fin 4 → UInt8 := fun _ => 0
  metadata : Fin 44 → UInt8 := fun _ => 0

namespace IdIntEntry

def minDataLen : ℕ := 12

/-- `Flags::Encrypted`. -/
def isEncrypted (flags : UInt8) : Bool := flags &&& 1 != 0

/-- The size of the metadata with the necessary padding. -/
def mdSizeOf (mask : UInt8) (ml : Fin 4 → UInt8) : ℕ :=
  let size := 0
  let size := if mask &&& 8 ≠ 0 then size + 4 else size
  let size := if mask &&& 4 ≠ 0 then size + 2 else size
  let size := if mask &&& 2 ≠ 0 then size + 2 else size
  let size := if mask &&& 1 ≠ 0 then size + 2 else size
  let size := (List.ofFn ml).foldl (fun size length => size + min (2 * length.toNat) 8) size
  -- `-(size + 2u) & 0x03`
  size + (4 - (size + 2) % 4) % 4

def mdSize (e : IdIntEntry) : ℕ := mdSizeOf e.mask e.ml

/-- The correct value for `dataLen`. -/
def size (e : IdIntEntry) : ℕ := 10 + e.mdSize + if isEncrypted e.flags then 12 else 0

def readFlags : Reader UInt8 := do
  let flags ← readField 5
  ReadStream.advanceBits 3
  pure flags

def readHop : Reader UInt8 := do
  let hop ← readField 6
  ReadStream.advanceBits 2
  pure hop

def readLength : Reader UInt8 := do
  let length ← readField 3
  ensure (!decide (length > 4)) "invalid metadata length"
  pure length

def readMask : Reader (UInt8 × (Fin 4 → UInt8)) := do
  let mask ← readField 4
  let ml ← readFour readLength
  pure (mask, ml)

def readNonce (flags : UInt8) : Reader (Fin 12 → UInt8) :=
  if isEncrypted flags then do
    let nonce ← ReadStream.serializeBytes 12
    pure (ofBytes 12 nonce)
  else pure fun _ => 0

/-- Into a new entry. -/
def read : Reader IdIntEntry := do
  let type ← ReadStream.serializeByte
  ensure (type == OptType.idIntEntry) "incorrect option type"
  let dataLen ← ReadStream.serializeByte
  ensure (!decide (dataLen.toNat < minDataLen)) "invalid option"
  let flags ← readFlags
  let hop ← readHop
  let mask ← readMask
  let nonce ← readNonce flags
  let metadata ← ReadStream.serializeBytes (min (mdSizeOf mask.1 mask.2) 44)
  let mac ← ReadStream.serializeBytes 4
  pure ⟨dataLen, flags, hop, mask.1, mask.2, nonce, ofBytes 4 mac, ofBytes 44 metadata⟩

def writeFlags (e : IdIntEntry) : Writer := do
  WriteStream.writeField 5 e.flags
  WriteStream.advanceBits 3

def writeHop (e : IdIntEntry) : Writer := do
  WriteStream.writeField 6 e.hop
  WriteStream.advanceBits 2

def writeMask (e : IdIntEntry) : Writer := do
  WriteStream.writeField 4 e.mask
  writeFour (WriteStream.writeField 3) e.ml

def write (e : IdIntEntry) : Writer := do
  WriteStream.serializeByte OptType.idIntEntry
  WriteStream.serializeByte e.dataLen
  e.writeFlags
  e.writeHop
  e.writeMask
  writeIf (isEncrypted e.flags) (WriteStream.serializeBytes (List.ofFn e.nonce))
  WriteStream.serializeBytes ((List.ofFn e.metadata).take (min e.mdSize 44))
  WriteStream.serializeBytes (List.ofFn e.mac)

end IdIntEntry

/-! ### The main option on the wire -/

namespace IdIntOpt

/-- The fields are within their wire widths. -/
structure WithinWidths (m : IdIntOpt) : Prop where
  flags : m.flags.toNat < 2 ^ 5
  agrMode : m.agrMode.toNat < 2 ^ 2
  vtype : m.vtype.toNat < 2 ^ 2
  delayHops : m.delayHops.toNat < 2 ^ 6
  bitmap : m.bitmap.toNat < 2 ^ 4
  agrFunc : ∀ i, (m.agrFunc i).toNat < 8
  sourceTS : m.sourceTS.toNat < 2 ^ 48

def modesWord (m : IdIntOpt) : ℕ :=
  m.flags.toNat * 2 ^ (2 + (2 + 4)) + (m.agrMode.toNat * 2 ^ (2 + 4) +
    (m.vtype.toNat * 2 ^ 4 + m.verifAddrType.toNat))

def verifierBytes (m : IdIntOpt) : List UInt8 :=
  if m.vtype = thirdParty then m.verifier.isdAsn.bytes ++ m.verifier.host.bytes else []

def bytes (m : IdIntOpt) : List UInt8 :=
  [OptType.idInt] ++ ([m.dataLen] ++ (beBytes 2 m.modesWord ++ ([m.stackLen] ++ ([m.tos] ++
    (beBytes 2 (m.delayHops.toNat * 2 ^ 10) ++
      (beBytes 2 (m.bitmap.toNat * 2 ^ 12 + threes m.agrFunc) ++
        (List.ofFn m.instr ++ (beBytes 6 m.sourceTS.toNat ++ (beBytes 2 m.sourcePort.toNat ++
          m.verifierBytes)))))))))

theorem verifAddrType_lt (m : IdIntOpt) : m.verifAddrType.toNat < 2 ^ 4 := by
  rw [verifAddrType, IPAddress.type]
  split
  · split <;> decide
  · decide

/-- The type of the verifier tells how its address is encoded. -/
theorem verifAddrType_beq {m : IdIntOpt} (h : m.vtype = thirdParty) :
    (m.verifAddrType == HostAddrType.ipv4) = m.verifier.host.is4 := by
  rw [verifAddrType, if_pos h, IPAddress.type]
  cases m.verifier.host.is4 <;> rfl

@[simp] theorem length_verifierBytes (m : IdIntOpt) :
    m.verifierBytes.length = m.size - minDataLen := by
  rw [verifierBytes, size]
  split
  · rw [List.length_append, IsdAsn.length_bytes, IPAddress.length_bytes, ScIPAddress.size,
      IsdAsn.size, Nat.add_sub_cancel_left]
  · rw [Nat.sub_self, List.length_nil]

theorem minDataLen_le_size (m : IdIntOpt) : minDataLen ≤ m.size := by
  rw [size]
  split
  · exact Nat.le_add_right _ _
  · exact le_rfl

theorem length_bytes (m : IdIntOpt) : m.bytes.length = m.size := by
  have hmin := m.minDataLen_le_size
  simp only [bytes, List.length_append, length_beBytes, List.length_singleton, List.length_ofFn,
    length_verifierBytes]
  rw [minDataLen] at hmin ⊢
  omega

theorem modesWord_lt {m : IdIntOpt} (h : m.WithinWidths) : m.modesWord < 2 ^ 13 := by
  have hflags := h.flags
  have hagrMode := h.agrMode
  have hvtype := h.vtype
  have haddr := m.verifAddrType_lt
  rw [modesWord]
  omega

theorem writes_modes {m : IdIntOpt} (h : m.WithinWidths) :
    Writes WriteStream.cursor m.writeModes (beBytes 2 m.modesWord) := by
  have hfield (a n : ℕ) (v : UInt8) (hn : 1 ≤ n) (hmax : n ≤ 8) (hv : v.toNat < 2 ^ n) :=
    WriteStream.writesBits_writeField a hn hmax hv
  have hall := (hfield 0 3 version (by norm_num) (by norm_num) (by decide)).bind <|
    (hfield 3 5 m.flags (by norm_num) (by norm_num) h.flags).bind <|
    (hfield 0 2 m.agrMode (by norm_num) (by norm_num) h.agrMode).bind <|
    (hfield 2 2 m.vtype (by norm_num) (by norm_num) h.vtype).bind <|
    hfield 4 4 m.verifAddrType (by norm_num) (by norm_num) m.verifAddrType_lt
  rw [show version.toNat = 0 from rfl, zero_mul, zero_add] at hall
  exact WriteStream.WritesBits.writes (m := 2) hall

theorem reads_modes {m : IdIntOpt} (h : m.WithinWidths) (hflags : m.flags &&& 1 = 0) :
    Reads cursor readModes (beBytes 2 m.modesWord)
      (m.flags, m.agrMode, m.vtype, m.verifAddrType) := by
  have hbits := h.flags
  have hagrMode := h.agrMode
  have hvtype := h.vtype
  have haddr := m.verifAddrType_lt
  have hfield (a n : ℕ) (v : UInt8) (hn : 1 ≤ n) (hmax : n ≤ 8) :=
    readsDigit_readField a hn hmax v
  have hall : ReadsDigit readModes 0 (3 + (5 + (2 + (2 + 4))))
      (version.toNat * 2 ^ (5 + (2 + (2 + 4))) + m.modesWord) _ :=
    (hfield 0 3 version (by norm_num) (by norm_num)).bind (ReadsDigit.ensure rfl <|
      (hfield 3 5 m.flags (by norm_num) (by norm_num)).bind (ReadsDigit.ensure
        (by rw [hflags]; rfl) <|
        (hfield 0 2 m.agrMode (by norm_num) (by norm_num)).bind
          ((hfield 2 2 m.vtype (by norm_num) (by norm_num)).bind
            ((hfield 4 4 m.verifAddrType (by norm_num) (by norm_num)).bind_pure
              (g := fun addrType => (m.flags, m.agrMode, m.vtype, addrType)))
            haddr) (by omega)) (by omega)) (modesWord_lt h)
  rw [show version.toNat = 0 from rfl, zero_mul, zero_add] at hall
  have hlt := modesWord_lt h
  exact ReadsDigit.reads (m := 2) hall (by omega)

theorem writes_delay {m : IdIntOpt} (h : m.WithinWidths) :
    Writes WriteStream.cursor m.writeDelay (beBytes 2 (m.delayHops.toNat * 2 ^ 10)) :=
  WriteStream.writes_paddedField (by norm_num) (by norm_num) (by norm_num) (by norm_num)
    (by norm_num) h.delayHops

theorem reads_delay {m : IdIntOpt} (h : m.WithinWidths) :
    Reads cursor readDelay (beBytes 2 (m.delayHops.toNat * 2 ^ 10)) m.delayHops :=
  reads_paddedField (by norm_num) (by norm_num) (by norm_num) (by norm_num) (by norm_num) h.delayHops

theorem writes_funcs {m : IdIntOpt} (h : m.WithinWidths) :
    Writes WriteStream.cursor m.writeFuncs
      (beBytes 2 (m.bitmap.toNat * 2 ^ 12 + threes m.agrFunc)) := by
  have hall := (WriteStream.writesBits_writeField 0 (n := 4) (by norm_num) (by norm_num)
    h.bitmap).bind (writesBits_writeFour h.agrFunc)
  exact WriteStream.WritesBits.writes (m := 2) hall

theorem reads_funcs {m : IdIntOpt} (h : m.WithinWidths) :
    Reads cursor readFuncs (beBytes 2 (m.bitmap.toNat * 2 ^ 12 + threes m.agrFunc))
      (m.bitmap, m.agrFunc) := by
  have hlt := h.bitmap
  have hthrees := threes_lt h.agrFunc
  have hfour := (readsDigit_readFour h.agrFunc fun a i =>
    readsDigit_readField a (by norm_num) (by norm_num) (m.agrFunc i)).bind_pure
      (g := fun agrFunc => (m.bitmap, agrFunc))
  have hall : ReadsDigit readFuncs 0 (4 + 12) (m.bitmap.toNat * 2 ^ 12 + threes m.agrFunc)
      (m.bitmap, m.agrFunc) :=
    (readsDigit_readField 0 (by norm_num) (by norm_num) m.bitmap).bind hfour hthrees
  exact ReadsDigit.reads (m := 2) hall (by omega)

theorem writes_instr (f : Fin 4 → UInt8) :
    Writes WriteStream.cursor (writeFour WriteStream.serializeByte f) (List.ofFn f) :=
  (WriteStream.writes_byte (f 0)).bind ((WriteStream.writes_byte (f 1)).bind
    ((WriteStream.writes_byte (f 2)).bind (WriteStream.writes_byte (f 3))))

theorem reads_instr (f : Fin 4 → UInt8) :
    Reads cursor (readFour ReadStream.serializeByte) (List.ofFn f) f := by
  have hall : Reads cursor (readFour ReadStream.serializeByte) (List.ofFn f)
      ![f 0, f 1, f 2, f 3] :=
    (reads_byte (f 0)).bind ((reads_byte (f 1)).bind ((reads_byte (f 2)).bind
      (reads_byte (f 3)).bind_pure))
  rwa [vec_four] at hall

theorem writes_verifier (m : IdIntOpt) :
    Writes WriteStream.cursor m.writeVerifier m.verifierBytes := by
  rw [writeVerifier, verifierBytes]
  by_cases h : m.vtype = thirdParty
  · rw [if_pos h, if_pos h, verifAddrType_beq h]
    exact m.verifier.isdAsn.writes.bind m.verifier.host.writes
  · rw [if_neg h, if_neg h]
    exact Writes.pure

/-- A verifier that the option does not carry is the one there was. -/
def receivedVerifier (old : ScIPAddress) (m : IdIntOpt) : ScIPAddress :=
  if m.vtype = thirdParty then m.verifier.withoutZone else old

theorem reads_verifier (old : ScIPAddress) (m : IdIntOpt) :
    Reads cursor (readVerifier old m.vtype m.verifAddrType) m.verifierBytes
      (m.receivedVerifier old) := by
  rw [readVerifier, verifierBytes, receivedVerifier]
  by_cases h : m.vtype = thirdParty
  · rw [if_pos h, if_pos h, if_pos h, verifAddrType_beq h]
    exact m.verifier.isdAsn.reads.bind m.verifier.host.reads.bind_pure
  · rw [if_neg h, if_neg h, if_neg h]
    exact Reads.pure old

theorem writes_sourceTS {m : IdIntOpt} (h : m.WithinWidths) :
    Writes WriteStream.cursor (WriteStream.serializeBits 64 m.sourceTS 48)
      (beBytes 6 m.sourceTS.toNat) := by
  have hall := WriteStream.writesBits_serializeBits 64 0 48 m.sourceTS (by norm_num) (by norm_num)
  rw [Nat.mod_eq_of_lt h.sourceTS] at hall
  exact WriteStream.WritesBits.writes (m := 6) hall

theorem reads_sourceTS {m : IdIntOpt} (h : m.WithinWidths) :
    Reads cursor (ReadStream.serializeBits 64 48) (beBytes 6 m.sourceTS.toNat) m.sourceTS := by
  have hlt := h.sourceTS
  have hall := (readsBits_serializeBits 64 0 48 (by norm_num) (by norm_num)).digit m.sourceTS.toNat
  rw [UInt64.ofNat_toNat] at hall
  exact ReadsDigit.reads (m := 6) hall (by omega)

theorem writes {m : IdIntOpt} (h : m.WithinWidths) :
    Writes WriteStream.cursor m.write m.bytes :=
  (WriteStream.writes_byte _).bind ((WriteStream.writes_byte m.dataLen).bind
    ((writes_modes h).bind ((WriteStream.writes_byte m.stackLen).bind
      ((WriteStream.writes_byte m.tos).bind ((writes_delay h).bind ((writes_funcs h).bind
        ((writes_instr m.instr).bind ((writes_sourceTS h).bind
          ((WriteStream.writes_uint16 m.sourcePort).bind m.writes_verifier)))))))))

/-- The length field is not too small, the reserved flag is not set. -/
structure Accepted (m : IdIntOpt) : Prop where
  dataLen : minDataLen ≤ m.dataLen.toNat
  flags : m.flags &&& 1 = 0

theorem reads {m : IdIntOpt} (old : IdIntOpt) (h : m.WithinWidths) (haccepted : m.Accepted) :
    Reads cursor (read old) m.bytes { m with verifier := m.receivedVerifier old.verifier } :=
  (reads_byte _).bind (Reads.ensure rfl ((reads_byte m.dataLen).bind (Reads.ensure
    (by rw [decide_eq_false (Nat.not_lt.mpr haccepted.dataLen)]; rfl)
    ((reads_modes h haccepted.flags).bind ((reads_byte m.stackLen).bind ((reads_byte m.tos).bind
      ((reads_delay h).bind ((reads_funcs h).bind ((reads_instr m.instr).bind
        ((reads_sourceTS h).bind ((reads_uint16 m.sourcePort).bind
          (reads_verifier old.verifier m).bind_pure)))))))))))

theorem takesBits_readField {n : ℕ} (a : ℕ) (hn : 1 ≤ n) (hmax : n ≤ 8) :
    TakesBits (readField n) a n := (readsBits_readField a hn hmax).takesBits

theorem takes_modes : Takes cursor readModes fun _ modes => modes.1 &&& 1 = 0 := by
  have hfield (a n : ℕ) (hn : 1 ≤ n) (hmax : n ≤ 8) := (readsBits_readField a hn hmax).takesField
  have hall : TakesField readModes 0 (8 * 2) _ :=
    (hfield 0 3 (by norm_num) (by norm_num)).bind (n := 13) fun ver => TakesField.ensure
      ((hfield 3 5 (by norm_num) (by norm_num)).bind (n := 8) fun flags => TakesField.ensure
        ((hfield 0 2 (by norm_num) (by norm_num)).bind (n := 6) fun agrMode =>
          (hfield 2 2 (by norm_num) (by norm_num)).bind (n := 4) fun vtype =>
            (hfield 4 4 (by norm_num) (by norm_num)).bind (n := 0) fun addrType =>
              TakesField.pure (flags, agrMode, vtype, addrType) 0))
  refine hall.takes.mono ?_
  rintro _ modes ⟨d, -, ver, -, -, flags, -, hflags, agrMode, -, vtype, -, addrType, -, rfl⟩
  exact beq_iff_eq.mp hflags

theorem takes_delay : Takes cursor readDelay fun _ hops => hops.toNat < 2 ^ 6 :=
  takes_paddedField (m := 2) (by norm_num) (by norm_num) (by norm_num) (by norm_num) (by norm_num)

theorem takes_funcs : Takes cursor readFuncs fun _ _ => True := by
  have hthree := fun a => takesBits_readField a (n := 3) (by norm_num) (by norm_num)
  have hall : TakesBits readFuncs 0 (8 * 2) :=
    (takesBits_readField 0 (n := 4) (by norm_num) (by norm_num)).bind (n := 12) fun bitmap =>
      TakesBits.bind (m := 12) (n := 0)
        ((hthree 4).bind (n := 9) fun a => (hthree 7).bind (n := 6) fun b =>
          (hthree 2).bind (n := 3) fun c => (hthree 5).bind (n := 0) fun d =>
            (ReadsBits.pure ![a, b, c, d] 0).takesBits)
        fun agrFunc => (ReadsBits.pure (bitmap, agrFunc) 0).takesBits
  exact hall.takes.mono fun _ _ _ => trivial

theorem takes_instr : Takes cursor (readFour serializeByte) fun _ _ => True :=
  (takes_byte.bind fun a => takes_byte.bind fun b => takes_byte.bind fun c =>
    takes_byte.bind_pure (g := fun d => ![a, b, c, d])).mono fun _ _ _ => trivial

theorem takes_sourceTS : Takes cursor (serializeBits 64 48) fun _ _ => True := by
  have hall : TakesBits (serializeBits 64 48) 0 (8 * 6) :=
    (readsBits_serializeBits 64 0 48 (by norm_num) (by norm_num)).takesBits
  exact hall.takes.mono fun _ _ _ => trivial

theorem takes_verifier (old : ScIPAddress) (vtype : UInt8) (addrType : HostAddrType) :
    Takes cursor (readVerifier old vtype addrType) fun _ verifier =>
      if vtype = thirdParty then verifier.withoutZone = verifier else verifier = old := by
  rw [readVerifier]
  by_cases h : vtype = thirdParty
  · rw [if_pos h]
    refine (IsdAsn.takes.bind fun ia => (IPAddress.takes _).bind_pure
      (g := fun host => (⟨ia, host⟩ : ScIPAddress))).mono ?_
    rintro _ verifier ⟨_, ia, _, -, -, host, ⟨-, hzone⟩, rfl⟩
    rw [if_pos h, ScIPAddress.withoutZone, hzone]
  · rw [if_neg h]
    refine (Takes.pure old).mono ?_
    rintro _ verifier ⟨-, rfl⟩
    rw [if_neg h]

/-- The verifier is the one that an option read over `old` has. -/
def Canonical (old : ScIPAddress) (m : IdIntOpt) : Prop :=
  if m.vtype = thirdParty then m.verifier.withoutZone = m.verifier else m.verifier = old

theorem takes (old : IdIntOpt) : Takes cursor (read old) fun bs m =>
    bs ≠ [] ∧ m.Accepted ∧ m.Canonical old.verifier := by
  refine (takes_byte.bind fun type => Takes.ensure (takes_byte.bind fun dataLen => Takes.ensure
    (takes_modes.bind fun modes => takes_byte.bind fun stackLen => takes_byte.bind fun tos =>
      takes_delay.bind fun hops => takes_funcs.bind fun funcs => takes_instr.bind fun instr =>
        takes_sourceTS.bind fun ts => takes_uint16.bind fun port =>
          (takes_verifier old.verifier modes.2.2.1 modes.2.2.2).bind_pure
            (g := fun verifier => (⟨dataLen, modes.1, modes.2.1, modes.2.2.1, stackLen, tos, hops,
              funcs.1, funcs.2, instr, ts, port, verifier⟩ : IdIntOpt))))).mono ?_
  rintro _ m ⟨_, type, _, rfl, rfl, -, _, dataLen, _, -, -, hlen, _, modes, _, -, hflags, hrest⟩
  obtain ⟨_, stackLen, _, -, -, _, tos, _, -, -, _, hops, _, -, -, _, funcs, _, -, -, hrest⟩ := hrest
  obtain ⟨_, instr, _, -, -, _, ts, _, -, -, _, port, _, -, -, verifier, hverifier, rfl⟩ := hrest
  refine ⟨List.cons_ne_nil _ _, ⟨?_, hflags⟩, hverifier⟩
  rw [Bool.not_eq_true', decide_eq_false_iff_not] at hlen
  exact Nat.not_lt.mp hlen

end IdIntOpt

/-! ### Entries on the wire -/

theorem ofBytes_ofFn {n : ℕ} (f : Fin n → UInt8) : ofBytes n (List.ofFn f) = f := by
  funext i
  rw [ofBytes, List.getD_eq_getElem?_getD, List.getElem?_ofFn, dif_pos i.isLt, Option.getD_some]

/-- The bytes behind those that are read are zero. -/
theorem ofBytes_getElem {n m : ℕ} {bs : List UInt8} (hbs : bs.length = m) (i : Fin n)
    (hi : m ≤ i) : ofBytes n bs i = 0 := by
  rw [ofBytes, List.getD_eq_getElem?_getD, List.getElem?_eq_none (by omega), Option.getD_none]

/-- An array that is zero behind its first `m` bytes is made of these. -/
theorem ofBytes_take {n m : ℕ} {f : Fin n → UInt8} (h : ∀ i : Fin n, m ≤ i → f i = 0) :
    ofBytes n ((List.ofFn f).take m) = f := by
  funext i
  by_cases hi : i < m
  · rw [ofBytes, List.getD_eq_getElem?_getD, List.getElem?_take_of_lt hi, List.getElem?_ofFn,
      dif_pos i.isLt, Option.getD_some]
  · rw [h i (Nat.not_lt.mp hi), ofBytes, List.getD_eq_getElem?_getD, List.getElem?_eq_none
      ((List.length_take_le _ _).trans (Nat.not_lt.mp hi)), Option.getD_none]

namespace IdIntEntry

/-- The fields are within their wire widths, and what is not on the wire is zero. -/
structure Canonical (e : IdIntEntry) : Prop where
  flags : e.flags.toNat < 2 ^ 5
  hop : e.hop.toNat < 2 ^ 6
  mask : e.mask.toNat < 2 ^ 4
  nonce : isEncrypted e.flags = false → e.nonce = fun _ => 0
  metadata : ∀ i : Fin 44, e.mdSize ≤ i → e.metadata i = 0

def bytes (e : IdIntEntry) : List UInt8 :=
  [OptType.idIntEntry] ++ ([e.dataLen] ++ (beBytes 1 (e.flags.toNat * 2 ^ 3) ++
    (beBytes 1 (e.hop.toNat * 2 ^ 2) ++ (beBytes 2 (e.mask.toNat * 2 ^ 12 + threes e.ml) ++
      (bytesIf (isEncrypted e.flags) (List.ofFn e.nonce) ++
        ((List.ofFn e.metadata).take (min e.mdSize 44) ++ List.ofFn e.mac))))))

/-- The metadata has room for everything that an entry can announce. -/
theorem mdSizeOf_le (mask : UInt8) (ml : Fin 4 → UInt8) : mdSizeOf mask ml ≤ 44 := by
  have hmin : ∀ i, min (2 * (ml i).toNat) 8 ≤ 8 := fun i => min_le_right _ _
  have h0 := hmin 0
  have h1 := hmin 1
  have h2 := hmin 2
  have h3 := hmin 3
  simp only [mdSizeOf, List.ofFn_succ, List.ofFn_zero, List.foldl_cons, List.foldl_nil]
  split <;> split <;> split <;> split <;> omega

/-- With the header of ten bytes and the nonce, the entry is a multiple of four. -/
theorem four_dvd_size (e : IdIntEntry) : 4 ∣ e.size := by
  have h : (mdSizeOf e.mask e.ml + 2) % 4 = 0 := by
    rw [mdSizeOf]
    omega
  rw [size, mdSize]
  split <;> omega

theorem length_bytes (e : IdIntEntry) : e.bytes.length = e.size := by
  have hle : e.mdSize ≤ 44 := mdSizeOf_le _ _
  rw [bytes, size, bytesIf]
  simp only [List.length_append, List.length_singleton, length_beBytes, List.length_take,
    List.length_ofFn, min_eq_left hle]
  split
  · rw [List.length_ofFn]
    omega
  · rw [List.length_nil]
    omega

theorem writes_flags {e : IdIntEntry} (h : e.flags.toNat < 2 ^ 5) :
    Writes WriteStream.cursor e.writeFlags (beBytes 1 (e.flags.toNat * 2 ^ 3)) :=
  WriteStream.writes_paddedField (by norm_num) (by norm_num) (by norm_num) (by norm_num)
    (by norm_num) h

theorem reads_flags {e : IdIntEntry} (h : e.flags.toNat < 2 ^ 5) :
    Reads cursor readFlags (beBytes 1 (e.flags.toNat * 2 ^ 3)) e.flags :=
  reads_paddedField (by norm_num) (by norm_num) (by norm_num) (by norm_num) (by norm_num) h

theorem writes_hop {e : IdIntEntry} (h : e.hop.toNat < 2 ^ 6) :
    Writes WriteStream.cursor e.writeHop (beBytes 1 (e.hop.toNat * 2 ^ 2)) :=
  WriteStream.writes_paddedField (by norm_num) (by norm_num) (by norm_num) (by norm_num)
    (by norm_num) h

theorem reads_hop {e : IdIntEntry} (h : e.hop.toNat < 2 ^ 6) :
    Reads cursor readHop (beBytes 1 (e.hop.toNat * 2 ^ 2)) e.hop :=
  reads_paddedField (by norm_num) (by norm_num) (by norm_num) (by norm_num) (by norm_num) h

theorem writes_mask {e : IdIntEntry} (h : e.mask.toNat < 2 ^ 4) (hml : ∀ i, e.ml i ≤ 4) :
    Writes WriteStream.cursor e.writeMask (beBytes 2 (e.mask.toNat * 2 ^ 12 + threes e.ml)) := by
  have hlt (i) : (e.ml i).toNat < 8 := (UInt8.le_iff_toNat_le.mp (hml i)).trans_lt (by decide)
  have hall := (WriteStream.writesBits_writeField 0 (n := 4) (by norm_num) (by norm_num) h).bind
    (writesBits_writeFour hlt)
  exact WriteStream.WritesBits.writes (m := 2) hall

theorem readsDigit_readLength (a : ℕ) {v : UInt8} (hv : v ≤ 4) :
    ReadsDigit readLength a 3 v.toNat v := by
  have hcheck : (!decide (v > 4)) = true := by
    rw [Bool.not_eq_true', decide_eq_false_iff_not]
    exact UInt8.not_lt.mpr hv
  have hall : ReadsDigit readLength a (3 + 0) (v.toNat * 2 ^ 0 + 0) v :=
    (readsDigit_readField a (by norm_num) (by norm_num) v).bind
      (ReadsDigit.ensure hcheck (ReadsDigit.pure v _)) (by norm_num)
  rwa [pow_zero, mul_one, add_zero] at hall

theorem reads_mask {e : IdIntEntry} (h : e.mask.toNat < 2 ^ 4) (hml : ∀ i, e.ml i ≤ 4) :
    Reads cursor readMask (beBytes 2 (e.mask.toNat * 2 ^ 12 + threes e.ml)) (e.mask, e.ml) := by
  have hlt (i) : (e.ml i).toNat < 8 := (UInt8.le_iff_toNat_le.mp (hml i)).trans_lt (by decide)
  have hthrees := threes_lt hlt
  have hfour := (readsDigit_readFour hlt fun a i => readsDigit_readLength a (hml i)).bind_pure
    (g := fun ml => (e.mask, ml))
  have hall : ReadsDigit readMask 0 (4 + 12) (e.mask.toNat * 2 ^ 12 + threes e.ml)
      (e.mask, e.ml) :=
    (readsDigit_readField 0 (by norm_num) (by norm_num) e.mask).bind hfour hthrees
  exact ReadsDigit.reads (m := 2) hall (by omega)

theorem reads_nonce {e : IdIntEntry}
    (h : isEncrypted e.flags = false → e.nonce = fun _ => 0) :
    Reads cursor (readNonce e.flags) (bytesIf (isEncrypted e.flags) (List.ofFn e.nonce))
      e.nonce := by
  rw [readNonce, bytesIf]
  cases hflag : isEncrypted e.flags with
  | true =>
    rw [if_pos rfl, if_pos rfl]
    have hread := (reads_bytes (List.ofFn e.nonce) 12 (List.length_ofFn ..)).bind_pure
      (g := ofBytes 12)
    rwa [ofBytes_ofFn] at hread
  | false =>
    rw [if_neg Bool.false_ne_true, if_neg Bool.false_ne_true, h hflag]
    exact Reads.pure _

theorem writes {e : IdIntEntry} (h : e.Canonical) (hml : ∀ i, e.ml i ≤ 4) :
    Writes WriteStream.cursor e.write e.bytes :=
  (WriteStream.writes_byte _).bind ((WriteStream.writes_byte e.dataLen).bind
    ((writes_flags h.flags).bind ((writes_hop h.hop).bind ((writes_mask h.mask hml).bind
      ((writes_if _ (WriteStream.writes_bytes _)).bind ((WriteStream.writes_bytes _).bind
        (WriteStream.writes_bytes _)))))))

theorem reads {e : IdIntEntry} (h : e.Canonical) (hml : ∀ i, e.ml i ≤ 4)
    (hlen : minDataLen ≤ e.dataLen.toNat) : Reads cursor read e.bytes e := by
  have hle : mdSizeOf e.mask e.ml ≤ 44 := mdSizeOf_le _ _
  have hmetadata : ofBytes 44 ((List.ofFn e.metadata).take (min e.mdSize 44)) = e.metadata :=
    ofBytes_take fun i hi => h.metadata i (by rw [mdSize] at hi ⊢; omega)
  have hall : Reads cursor read e.bytes
      ⟨e.dataLen, e.flags, e.hop, e.mask, e.ml, e.nonce, ofBytes 4 (List.ofFn e.mac),
        ofBytes 44 ((List.ofFn e.metadata).take (min e.mdSize 44))⟩ :=
    (reads_byte _).bind (Reads.ensure rfl ((reads_byte e.dataLen).bind (Reads.ensure
      (by rw [decide_eq_false (Nat.not_lt.mpr hlen)]; rfl)
      ((reads_flags h.flags).bind ((reads_hop h.hop).bind ((reads_mask h.mask hml).bind
        ((reads_nonce h.nonce).bind ((reads_bytes _ _ (by
            rw [List.length_take, List.length_ofFn, mdSize, min_eq_left hle]
            exact min_eq_left hle)).bind
          (reads_bytes _ 4 (List.length_ofFn ..)).bind_pure))))))))
  rwa [ofBytes_ofFn, hmetadata] at hall

theorem takes_flags : Takes cursor readFlags fun _ flags => flags.toNat < 2 ^ 5 :=
  takes_paddedField (m := 1) (by norm_num) (by norm_num) (by norm_num) (by norm_num) (by norm_num)

theorem takes_hop : Takes cursor readHop fun _ hop => hop.toNat < 2 ^ 6 :=
  takes_paddedField (m := 1) (by norm_num) (by norm_num) (by norm_num) (by norm_num) (by norm_num)

theorem takesField_readLength (a : ℕ) : TakesField readLength a 3 fun _ v => v ≤ 4 := by
  have hall : TakesField readLength a (3 + 0) _ :=
    (takesField_readField a (by norm_num) (by norm_num)).bind fun length =>
      TakesField.ensure (TakesField.pure length _)
  refine hall.mono ?_
  rintro d v ⟨length, -, hcheck, rfl⟩
  rw [Bool.not_eq_true', decide_eq_false_iff_not] at hcheck
  exact UInt8.not_lt.mp hcheck

theorem takes_mask : Takes cursor readMask fun _ m => m.1.toNat < 2 ^ 4 ∧ ∀ i, m.2 i ≤ 4 := by
  have hfour : TakesField (readFour readLength) 4 (3 + (3 + (3 + (3 + 0)))) _ :=
    (takesField_readLength 4).bind fun a => (takesField_readLength 7).bind fun b =>
      (takesField_readLength 2).bind fun c => (takesField_readLength 5).bind fun d =>
        TakesField.pure ![a, b, c, d] 0
  have hall : TakesField readMask 0 (8 * 2) _ :=
    (takesField_readField 0 (by norm_num) (by norm_num)).bind (m := 4) (n := 12) fun mask =>
      hfour.bind (n := 0) fun ml => TakesField.pure (mask, ml) 0
  refine hall.takes.mono ?_
  rintro _ m ⟨d, -, mask, hmask, ml, ⟨a, ha, b, hb, c, hc, e, he, rfl⟩, rfl⟩
  refine ⟨hmask, fun i => ?_⟩
  fin_cases i
  · exact ha
  · exact hb
  · exact hc
  · exact he

theorem takes_nonce (flags : UInt8) : Takes cursor (readNonce flags) fun _ nonce =>
    isEncrypted flags = false → nonce = fun _ => 0 := by
  rw [readNonce]
  cases hflag : isEncrypted flags with
  | true =>
    rw [if_pos rfl]
    refine (fixedRead_bytes 12).takes.bind_pure.mono ?_
    intro _ nonce _ hfalse
    cases hfalse
  | false =>
    rw [if_neg Bool.false_ne_true]
    refine (Takes.pure _).mono ?_
    rintro _ nonce ⟨-, rfl⟩ -
    rfl

theorem takes : Takes cursor read fun bs e =>
    bs ≠ [] ∧ minDataLen ≤ e.dataLen.toNat ∧ e.Canonical ∧ ∀ i, e.ml i ≤ 4 := by
  refine (takes_byte.bind fun type => Takes.ensure (takes_byte.bind fun dataLen => Takes.ensure
    (takes_flags.bind fun flags => takes_hop.bind fun hop => takes_mask.bind fun mask =>
      (takes_nonce flags).bind fun nonce =>
        (fixedRead_bytes (min (mdSizeOf mask.1 mask.2) 44)).takes.bind fun metadata =>
          (fixedRead_bytes 4).takes.bind_pure (g := fun mac => (⟨dataLen, flags, hop, mask.1, mask.2, nonce,
            ofBytes 4 mac, ofBytes 44 metadata⟩ : IdIntEntry))))).mono ?_
  rintro _ e ⟨_, type, _, rfl, rfl, -, _, dataLen, _, -, -, hlen, _, flags, _, -, hflags, hrest⟩
  obtain ⟨_, hop, _, -, hhop, _, mask, _, -, ⟨hmask, hml⟩, _, nonce, _, -, hnonce, hrest⟩ := hrest
  obtain ⟨_, metadata, _, -, ⟨hmetadata, rfl⟩, mac, -, rfl⟩ := hrest
  rw [Bool.not_eq_true', decide_eq_false_iff_not] at hlen
  have hle : mdSizeOf mask.1 mask.2 ≤ 44 := mdSizeOf_le _ _
  refine ⟨List.cons_ne_nil _ _, Nat.not_lt.mp hlen, ⟨hflags, hhop, hmask, hnonce, ?_⟩, hml⟩
  intro i hi
  exact ofBytes_getElem hmetadata i ((min_le_left _ _).trans hi)

end IdIntEntry

end Scion
