/-
Standard SCION paths (`hdr/scion.hpp`, `path/decoded_scion.hpp`).

A path is a meta header of four bytes, up to three info fields of eight bytes
and up to 189 hop fields of twelve.

* `PathMeta`, `InfoField`, `HopField`, `DecodedScionPath` with their two
  directions of `serialize`;
* `ofBytes`, `bytes` — what a field of bytes decodes to and is encoded from;
* `DecodedScionPath.exists_layout` — the layout of a buffer that decodes
  completely;
* `DecodedScionPath.encode_eq` — what a path is encoded to.
-/
import Scion.Address
import Scion.Records

namespace Scion

open BigEndian Codec

/-- Path types of the SCION header; the field can hold other values. -/
abbrev PathType := UInt8

namespace PathType

def empty : PathType := 0
def scion : PathType := 1
def oneHop : PathType := 2
def epic : PathType := 3
def colibri : PathType := 4

end PathType

/-! ### The meta header -/

structure PathMeta where
  currInf : UInt8
  currHf : UInt8
  seg0 : UInt8
  seg1 : UInt8
  seg2 : UInt8
  deriving DecidableEq, Repr

namespace PathMeta

/-- `segLen[i]`. -/
def segLen (m : PathMeta) : ℕ → UInt8
  | 0 => m.seg0
  | 1 => m.seg1
  | _ => m.seg2

def segmentCount (m : PathMeta) : ℕ :=
  (if m.seg0 > 0 then 1 else 0) + (if m.seg1 > 0 then 1 else 0) + (if m.seg2 > 0 then 1 else 0)

def hopFieldCount (m : PathMeta) : ℕ := m.seg0.toNat + m.seg1.toNat + m.seg2.toNat

def size (_ : PathMeta) : ℕ := 4

/-- The bit fields, before they are checked. -/
def readFields : Reader PathMeta := do
  let currInf ← UInt64.toUInt8 <$> ReadStream.serializeBits 8 2
  let currHf ← UInt64.toUInt8 <$> ReadStream.serializeBits 8 6
  ReadStream.advanceBits 6
  let seg0 ← UInt64.toUInt8 <$> ReadStream.serializeBits 8 6
  let seg1 ← UInt64.toUInt8 <$> ReadStream.serializeBits 8 6
  let seg2 ← UInt64.toUInt8 <$> ReadStream.serializeBits 8 6
  pure ⟨currInf, currHf, seg0, seg1, seg2⟩

/-- No segment follows an empty one. -/
def segmentsInOrder (m : PathMeta) : Bool :=
  !((m.seg2 > 0 && m.seg1 == 0) || (m.seg1 > 0 && m.seg0 == 0))

def read : Reader PathMeta := do
  let m ← readFields
  ensure m.segmentsInOrder "invalid path meta header"
  ensure (m.currInf.toNat < m.segmentCount) "invalid path meta header"
  ensure (m.currHf.toNat < m.hopFieldCount) "invalid path meta header"
  pure m

def write (m : PathMeta) : Writer := do
  WriteStream.serializeBits 8 m.currInf.toUInt64 2
  WriteStream.serializeBits 8 m.currHf.toUInt64 6
  WriteStream.advanceBits 6
  WriteStream.serializeBits 8 m.seg0.toUInt64 6
  WriteStream.serializeBits 8 m.seg1.toUInt64 6
  WriteStream.serializeBits 8 m.seg2.toUInt64 6

/-- The meta header in the bits of `word`. -/
def ofWord (word : ℕ) : PathMeta where
  currInf := UInt8.ofNat (word / 2 ^ 30)
  currHf := UInt8.ofNat (word / 2 ^ 24 % 2 ^ 6)
  seg0 := UInt8.ofNat (word / 2 ^ 12 % 2 ^ 6)
  seg1 := UInt8.ofNat (word / 2 ^ 6 % 2 ^ 6)
  seg2 := UInt8.ofNat (word % 2 ^ 6)

/-- The word the meta header is written as. -/
def word (m : PathMeta) : ℕ :=
  m.currInf.toNat % 2 ^ 2 * 2 ^ 30 + m.currHf.toNat % 2 ^ 6 * 2 ^ 24
    + m.seg0.toNat % 2 ^ 6 * 2 ^ 12 + m.seg1.toNat % 2 ^ 6 * 2 ^ 6 + m.seg2.toNat % 2 ^ 6

theorem toUInt8_ofNat (n : ℕ) : (UInt64.ofNat n).toUInt8 = UInt8.ofNat n := by
  apply UInt8.toNat_inj.mp
  rw [UInt64.toNat_toUInt8, UInt64.toNat_ofNat', UInt8.toNat_ofNat']
  omega

theorem readsBits_readFields : ReadStream.ReadsBits readFields 0 32 ofWord := by
  have hfield : ∀ a n, 1 ≤ n → n ≤ 8 →
      ReadStream.ReadsBits (UInt64.toUInt8 <$> ReadStream.serializeBits 8 n) a n
        fun d => (UInt64.ofNat d).toUInt8 := fun a n hn hmax =>
    (ReadStream.readsBits_serializeBits 8 a n hn (by omega)).map UInt64.toUInt8
  have hall := (hfield 0 2 (by norm_num) (by norm_num)).bind fun currInf =>
    (hfield 2 6 (by norm_num) (by norm_num)).bind fun currHf =>
    (ReadStream.readsBits_advanceBits 0 6 (by norm_num) (by norm_num)).bind fun _ =>
    (hfield 6 6 (by norm_num) (by norm_num)).bind fun seg0 =>
    (hfield 4 6 (by norm_num) (by norm_num)).bind fun seg1 =>
    (hfield 2 6 (by norm_num) (by norm_num)).bind fun seg2 =>
    ReadStream.ReadsBits.pure (PathMeta.mk currInf currHf seg0 seg1 seg2) 0
  refine hall.congr fun d hd => ?_
  simp only [toUInt8_ofNat, ofWord, PathMeta.mk.injEq]
  norm_num only at hd ⊢
  refine ⟨trivial, ?_, ?_, ?_, ?_⟩ <;> (congr 1; omega)

theorem writesBits_write (m : PathMeta) : WriteStream.WritesBits m.write 0 32 m.word := by
  have hfield : ∀ a n (v : UInt8), 1 ≤ n → n ≤ 8 →
      WriteStream.WritesBits (WriteStream.serializeBits 8 v.toUInt64 n) a n (v.toNat % 2 ^ n) := by
    intro a n v hn hmax
    have h := WriteStream.writesBits_serializeBits 8 a n v.toUInt64 hn (by omega)
    rwa [UInt8.toNat_toUInt64] at h
  have hall := (hfield 0 2 m.currInf (by norm_num) (by norm_num)).bind <|
    (hfield 2 6 m.currHf (by norm_num) (by norm_num)).bind <|
    (WriteStream.writesBits_advanceBits 0 6 (by norm_num) (by norm_num)).bind <|
    (hfield 6 6 m.seg0 (by norm_num) (by norm_num)).bind <|
    (hfield 4 6 m.seg1 (by norm_num) (by norm_num)).bind <|
    hfield 2 6 m.seg2 (by norm_num) (by norm_num)
  have hword : m.word = m.currInf.toNat % 2 ^ 2 * 2 ^ (6 + (6 + (6 + (6 + 6))))
      + (m.currHf.toNat % 2 ^ 6 * 2 ^ (6 + (6 + (6 + 6))) + (0 * 2 ^ (6 + (6 + 6))
      + (m.seg0.toNat % 2 ^ 6 * 2 ^ (6 + 6) + (m.seg1.toNat % 2 ^ 6 * 2 ^ 6
      + m.seg2.toNat % 2 ^ 6)))) := by
    rw [word]
    ring
  rw [hword]
  exact hall

def ofBytes (bs : List UInt8) : PathMeta := ofWord (beNat bs)

def bytes (m : PathMeta) : List UInt8 := beBytes 4 m.word

@[simp] theorem length_bytes (m : PathMeta) : m.bytes.length = 4 := length_beBytes _ _

theorem writes (m : PathMeta) : Writes WriteStream.cursor m.write m.bytes :=
  WriteStream.WritesBits.writes (m := 4) (writesBits_write m)

theorem reads_readFields (bs : List UInt8) (h : bs.length = 4) :
    Reads ReadStream.cursor readFields bs (ofBytes bs) :=
  ReadStream.ReadsBits.reads (m := 4) readsBits_readFields bs h

theorem starves_readFields : Starves ReadStream.cursor readFields 4 :=
  ReadStream.ReadsBits.starves (m := 4) readsBits_readFields

/-- The checks a decoded meta header has passed. -/
def Valid (m : PathMeta) : Prop :=
  m.segmentsInOrder = true ∧ m.currInf.toNat < m.segmentCount ∧ m.currHf.toNat < m.hopFieldCount

theorem reads {bs : List UInt8} (h : bs.length = 4) (hvalid : (ofBytes bs).Valid) :
    Reads ReadStream.cursor read bs (ofBytes bs) := by
  obtain ⟨horder, hinf, hhf⟩ := hvalid
  have hchecks : Reads ReadStream.cursor (do
      ensure (ofBytes bs).segmentsInOrder "invalid path meta header"
      ensure ((ofBytes bs).currInf.toNat < (ofBytes bs).segmentCount) "invalid path meta header"
      ensure ((ofBytes bs).currHf.toNat < (ofBytes bs).hopFieldCount) "invalid path meta header"
      pure (ofBytes bs)) [] (ofBytes bs) :=
    Reads.ensure horder (Reads.ensure (decide_eq_true hinf)
      (Reads.ensure (decide_eq_true hhf) (Reads.pure _)))
  have hread : Reads ReadStream.cursor read (bs ++ []) (ofBytes bs) := by
    unfold read
    exact (reads_readFields bs h).bind hchecks
  rwa [List.append_nil] at hread

/-- A meta header that was read was there and is valid. -/
theorem read_eq_ok {pre post : List UInt8} {m : PathMeta} {s : ReadStream}
    (h : read (ReadStream.cursor pre post) = .ok m s) :
    ∃ bs rest, post = bs ++ rest ∧ bs.length = 4 ∧ m = ofBytes bs ∧ m.Valid ∧
      s = ReadStream.cursor (pre ++ bs) rest := by
  by_cases hshort : post.length < 4
  · obtain ⟨e, s', herr⟩ := starves_readFields pre post hshort
    rw [read, bind_error herr] at h
    cases h
  · have hlen : (post.take 4).length = 4 := by
      rw [List.length_take]
      omega
    have hfields := reads_readFields (post.take 4) hlen pre (post.drop 4)
    rw [List.take_append_drop] at hfields
    rw [read, bind_ok hfields] at h
    obtain ⟨horder, h⟩ := ensure_bind_eq_ok.mp h
    obtain ⟨hinf, h⟩ := ensure_bind_eq_ok.mp h
    obtain ⟨hhf, h⟩ := ensure_bind_eq_ok.mp h
    cases h
    exact ⟨post.take 4, post.drop 4, (List.take_append_drop 4 post).symm, hlen, rfl,
      ⟨horder, of_decide_eq_true hinf, of_decide_eq_true hhf⟩, rfl⟩

end PathMeta

/-! ### Info fields -/

structure InfoField where
  flags : UInt8
  segid : UInt16
  timestamp : UInt32
  deriving DecidableEq, Repr

namespace InfoField

/-- `flags[Flags::ConsDir]`. -/
def consDir (info : InfoField) : Bool := info.flags &&& 0x1 != 0

/-- `flags[Flags::Peering]`. -/
def peering (info : InfoField) : Bool := info.flags &&& 0x2 != 0

def staticSize : ℕ := 8

def read : Reader InfoField := do
  let flags ← ReadStream.serializeByte
  ReadStream.advanceBytes 1
  let segid ← ReadStream.serializeUint16
  let timestamp ← ReadStream.serializeUint32
  pure ⟨flags, segid, timestamp⟩

def write (info : InfoField) : Writer := do
  WriteStream.serializeByte info.flags
  WriteStream.advanceBytes 1
  WriteStream.serializeUint16 info.segid
  WriteStream.serializeUint32 info.timestamp

/-- The info field in eight bytes, the second of which is reserved. -/
def ofBytes (bs : List UInt8) : InfoField where
  flags := UInt8.ofNat (beNat (bs.take 1))
  segid := UInt16.ofNat (beNat ((bs.drop 2).take 2))
  timestamp := UInt32.ofNat (beNat ((bs.drop 4).take 4))

def bytes (info : InfoField) : List UInt8 :=
  [info.flags] ++ ([0] ++ (beBytes 2 info.segid.toNat ++ beBytes 4 info.timestamp.toNat))

@[simp] theorem length_bytes (info : InfoField) : info.bytes.length = 8 := by
  simp [bytes]

theorem reads (bs : List UInt8) (h : bs.length = 8) :
    Reads ReadStream.cursor read bs (ofBytes bs) := by
  have htime := ReadStream.fixedRead_uint32.reads ((bs.drop 4).take 4)
    (by rw [List.length_take, List.length_drop]; omega)
  have hrest : (bs.drop 4).take 4 = bs.drop 4 :=
    List.take_of_length_le (by rw [List.length_drop]; omega)
  refine Reads.bind_take 1 (ReadStream.fixedRead_byte.reads _
    (by rw [List.length_take]; omega)) ?_
  refine Reads.bind_take 1 (ReadStream.reads_advanceBytes _ 1
    (by rw [List.length_take, List.length_drop]; omega)) ?_
  rw [List.drop_drop]
  refine Reads.bind_take 2 (ReadStream.fixedRead_uint16.reads _
    (by rw [List.length_take, List.length_drop]; omega)) ?_
  rw [List.drop_drop, ← hrest]
  exact htime.bind_pure

theorem starves : Starves ReadStream.cursor read 8 := by
  have hbytes : ∀ (n : ℕ) (bs : List UInt8), bs.length = n →
      Reads ReadStream.cursor (ReadStream.advanceBytes n) bs () := fun n bs h =>
    ReadStream.reads_advanceBytes bs n h
  refine ReadStream.fixedRead_byte.starves.bind (n := 7) fun xs hxs =>
    ⟨_, ReadStream.fixedRead_byte.reads xs hxs, ?_⟩
  refine (ReadStream.fixedRead_advanceBytes 1).starves.bind (n := 6) fun xs hxs =>
    ⟨_, hbytes 1 xs hxs, ?_⟩
  refine ReadStream.fixedRead_uint16.starves.bind (n := 4) fun xs hxs =>
    ⟨_, ReadStream.fixedRead_uint16.reads xs hxs, ?_⟩
  refine ReadStream.fixedRead_uint32.starves.bind (n := 0) fun xs hxs =>
    ⟨_, ReadStream.fixedRead_uint32.reads xs hxs, ?_⟩
  exact fun _ _ h => absurd h (Nat.not_lt_zero _)

theorem writes (info : InfoField) : Writes WriteStream.cursor info.write info.bytes :=
  (WriteStream.writes_byte info.flags).bind ((WriteStream.writes_advanceBytes 1).bind
    ((WriteStream.writes_uint16 info.segid).bind (WriteStream.writes_uint32 info.timestamp)))

/-- An info field whose reserved byte is zero gives its bytes back. -/
theorem bytes_ofBytes {bs : List UInt8} (h : bs.length = 8) (hres : bs.getD 1 0 = 0) :
    (ofBytes bs).bytes = bs := by
  match bs, h with
  | [b0, b1, b2, b3, b4, b5, b6, b7], _ =>
    have hb1 : b1 = 0 := hres
    have hsegid := beBytes_uint16 (show [b2, b3].length = 2 from rfl)
    have htime := beBytes_uint32 (show [b4, b5, b6, b7].length = 4 from rfl)
    show [UInt8.ofNat (beNat [b0])] ++ ([0] ++ (beBytes 2 (UInt16.ofNat (beNat [b2, b3])).toNat
      ++ beBytes 4 (UInt32.ofNat (beNat [b4, b5, b6, b7])).toNat)) = _
    rw [ofNat_beNat_singleton, hsegid, htime, hb1]
    rfl

end InfoField

/-! ### Hop fields -/

structure HopField where
  flags : UInt8
  expTime : UInt8
  consIngress : UInt16
  consEgress : UInt16
  mac : Vector UInt8 6
  deriving DecidableEq, Repr

namespace HopField

def staticSize : ℕ := 12

def read : Reader HopField := do
  let flags ← ReadStream.serializeByte
  let expTime ← ReadStream.serializeByte
  let consIngress ← ReadStream.serializeUint16
  let consEgress ← ReadStream.serializeUint16
  let mac ← ReadStream.serializeBytes 6
  pure ⟨flags, expTime, consIngress, consEgress, Vector.ofFn fun i => mac.getD i 0⟩

def write (hf : HopField) : Writer := do
  WriteStream.serializeByte hf.flags
  WriteStream.serializeByte hf.expTime
  WriteStream.serializeUint16 hf.consIngress
  WriteStream.serializeUint16 hf.consEgress
  WriteStream.serializeBytes hf.mac.toList

def ofBytes (bs : List UInt8) : HopField where
  flags := UInt8.ofNat (beNat (bs.take 1))
  expTime := UInt8.ofNat (beNat ((bs.drop 1).take 1))
  consIngress := UInt16.ofNat (beNat ((bs.drop 2).take 2))
  consEgress := UInt16.ofNat (beNat ((bs.drop 4).take 2))
  mac := Vector.ofFn fun i => ((bs.drop 6).take 6).getD i 0

def bytes (hf : HopField) : List UInt8 :=
  [hf.flags] ++ ([hf.expTime] ++ (beBytes 2 hf.consIngress.toNat
    ++ (beBytes 2 hf.consEgress.toNat ++ hf.mac.toList)))

@[simp] theorem length_bytes (hf : HopField) : hf.bytes.length = 12 := by
  simp [bytes]

theorem reads (bs : List UInt8) (h : bs.length = 12) :
    Reads ReadStream.cursor read bs (ofBytes bs) := by
  have hmac := ReadStream.reads_bytes ((bs.drop 6).take 6) 6
    (by rw [List.length_take, List.length_drop]; omega)
  have hrest : (bs.drop 6).take 6 = bs.drop 6 :=
    List.take_of_length_le (by rw [List.length_drop]; omega)
  refine Reads.bind_take 1 (ReadStream.fixedRead_byte.reads _
    (by rw [List.length_take]; omega)) ?_
  refine Reads.bind_take 1 (ReadStream.fixedRead_byte.reads _
    (by rw [List.length_take, List.length_drop]; omega)) ?_
  rw [List.drop_drop]
  refine Reads.bind_take 2 (ReadStream.fixedRead_uint16.reads _
    (by rw [List.length_take, List.length_drop]; omega)) ?_
  rw [List.drop_drop]
  refine Reads.bind_take 2 (ReadStream.fixedRead_uint16.reads _
    (by rw [List.length_take, List.length_drop]; omega)) ?_
  rw [List.drop_drop, ← hrest]
  exact hmac.bind_pure

theorem starves : Starves ReadStream.cursor read 12 := by
  refine ReadStream.fixedRead_byte.starves.bind (n := 11) fun xs hxs =>
    ⟨_, ReadStream.fixedRead_byte.reads xs hxs, ?_⟩
  refine ReadStream.fixedRead_byte.starves.bind (n := 10) fun xs hxs =>
    ⟨_, ReadStream.fixedRead_byte.reads xs hxs, ?_⟩
  refine ReadStream.fixedRead_uint16.starves.bind (n := 8) fun xs hxs =>
    ⟨_, ReadStream.fixedRead_uint16.reads xs hxs, ?_⟩
  refine ReadStream.fixedRead_uint16.starves.bind (n := 6) fun xs hxs =>
    ⟨_, ReadStream.fixedRead_uint16.reads xs hxs, ?_⟩
  refine (ReadStream.fixedRead_bytes 6).starves.bind (n := 0) fun xs hxs =>
    ⟨_, ReadStream.reads_bytes xs 6 hxs, ?_⟩
  exact fun _ _ h => absurd h (Nat.not_lt_zero _)

theorem writes (hf : HopField) : Writes WriteStream.cursor hf.write hf.bytes :=
  (WriteStream.writes_byte hf.flags).bind ((WriteStream.writes_byte hf.expTime).bind
    ((WriteStream.writes_uint16 hf.consIngress).bind
      ((WriteStream.writes_uint16 hf.consEgress).bind (WriteStream.writes_bytes hf.mac.toList))))

theorem bytes_ofBytes {bs : List UInt8} (h : bs.length = 12) : (ofBytes bs).bytes = bs := by
  match bs, h with
  | [b0, b1, b2, b3, b4, b5, b6, b7, b8, b9, b10, b11], _ =>
    have hingress := beBytes_uint16 (show [b2, b3].length = 2 from rfl)
    have hegress := beBytes_uint16 (show [b4, b5].length = 2 from rfl)
    show [UInt8.ofNat (beNat [b0])] ++ ([UInt8.ofNat (beNat [b1])]
      ++ (beBytes 2 (UInt16.ofNat (beNat [b2, b3])).toNat
      ++ (beBytes 2 (UInt16.ofNat (beNat [b4, b5])).toNat ++ [b6, b7, b8, b9, b10, b11]))) = _
    rw [ofNat_beNat_singleton, ofNat_beNat_singleton, hingress, hegress]
    rfl

end HopField

/-! ### Decoded paths -/

structure DecodedScionPath where
  source : IsdAsn
  destination : IsdAsn
  metaHeader : PathMeta
  ifs : List InfoField
  hfs : List HopField
  deriving DecidableEq, Repr

namespace DecodedScionPath

/-- A path without hops. -/
def make (source destination : IsdAsn) : DecodedScionPath where
  source := source
  destination := destination
  metaHeader := ⟨0, 0, 0, 0, 0⟩
  ifs := []
  hfs := []

def size (p : DecodedScionPath) : ℕ :=
  p.metaHeader.size + p.ifs.length * InfoField.staticSize + p.hfs.length * HopField.staticSize

def read (p : DecodedScionPath) : Reader DecodedScionPath := do
  let metaHeader ← PathMeta.read
  let ifs ← readN InfoField.read metaHeader.segmentCount
  let hfs ← readN HopField.read metaHeader.hopFieldCount
  pure { p with metaHeader := metaHeader, ifs := ifs, hfs := hfs }

/-- The meta header says how many fields are written; a path that was read has
as many. -/
def write (p : DecodedScionPath) : Writer := do
  p.metaHeader.write
  writeAll InfoField.write (p.ifs.take p.metaHeader.segmentCount)
  writeAll HopField.write (p.hfs.take p.metaHeader.hopFieldCount)

/-- The path in a buffer that is read completely. -/
def decode (source destination : IsdAsn) (buffer : List UInt8) : Option DecodedScionPath :=
  match (make source destination).read (ReadStream.ofBuffer buffer) with
  | .ok p rs => if rs.hasData then none else some p
  | .error _ _ => none

/-- The path written to a buffer of its size. -/
def encode (p : DecodedScionPath) : Option (List UInt8) :=
  match p.write (WriteStream.ofBuffer (List.replicate p.size 0)) with
  | .ok _ ws => some ws.data
  | .error _ _ => none

/-- The parts of a complete path: meta header, info fields, hop fields. -/
structure Layout (buffer metaBytes : List UInt8) (infos hops : List (List UInt8)) : Prop where
  buffer_eq : buffer = metaBytes ++ (infos.flatten ++ hops.flatten)
  length_meta : metaBytes.length = 4
  length_infos : infos.length = (PathMeta.ofBytes metaBytes).segmentCount
  length_hops : hops.length = (PathMeta.ofBytes metaBytes).hopFieldCount
  info_size : ∀ c ∈ infos, c.length = 8
  hop_size : ∀ c ∈ hops, c.length = 12
  valid : (PathMeta.ofBytes metaBytes).Valid

/-- The path with these parts. -/
def ofLayout (source destination : IsdAsn) (metaBytes : List UInt8)
    (infos hops : List (List UInt8)) : DecodedScionPath where
  source := source
  destination := destination
  metaHeader := PathMeta.ofBytes metaBytes
  ifs := infos.map InfoField.ofBytes
  hfs := hops.map HopField.ofBytes

/-- A buffer that decodes completely has the layout of a path. -/
theorem exists_layout {source destination : IsdAsn} {buffer : List UInt8} {p : DecodedScionPath}
    (h : decode source destination buffer = some p) :
    ∃ metaBytes infos hops, Layout buffer metaBytes infos hops ∧
      p = ofLayout source destination metaBytes infos hops := by
  rcases hread : (make source destination).read (ReadStream.ofBuffer buffer) with
    ⟨p', rs⟩ | ⟨e, rs⟩
  · rw [decode, hread] at h
    -- `decode` rejects what is left over
    have hdata : rs.hasData = false := by
      by_contra hdata
      simp [hdata] at h
    simp only [hdata, Bool.false_eq_true, if_false, Option.some.injEq] at h
    subst h
    rw [read, ReadStream.ofBuffer_eq] at hread
    obtain ⟨m, s₁, hmeta, hread⟩ := bind_eq_ok.mp hread
    obtain ⟨mb, rest₁, hbuf, hmb, rfl, hvalid, rfl⟩ := PathMeta.read_eq_ok hmeta
    obtain ⟨ifs, s₂, hinfos, hread⟩ := bind_eq_ok.mp hread
    obtain ⟨ics, rest₂, rfl, hics, hics8, rfl, rfl⟩ :=
      readN_eq_ok InfoField.reads InfoField.starves hinfos
    obtain ⟨hfs, s₃, hhops, hread⟩ := bind_eq_ok.mp hread
    obtain ⟨hcs, rest₃, rfl, hhcs, hhcs12, rfl, rfl⟩ :=
      readN_eq_ok HopField.reads HopField.starves hhops
    cases hread
    -- so the hop fields end the buffer
    have hnil : rest₃ = [] := by
      rw [ReadStream.hasData_cursor] at hdata
      simpa using hdata
    subst hnil
    exact ⟨mb, ics, hcs, ⟨by rw [hbuf, List.append_nil], hmb, hics, hhcs, hics8, hhcs12, hvalid⟩,
      rfl⟩
  · rw [decode, hread] at h
    cases h

/-- The bytes of a path. -/
def bytes (p : DecodedScionPath) : List UInt8 :=
  p.metaHeader.bytes ++ ((p.ifs.map InfoField.bytes).flatten ++ (p.hfs.map HopField.bytes).flatten)

/-- The vectors have the sizes the meta header says. -/
def Consistent (p : DecodedScionPath) : Prop :=
  p.ifs.length = p.metaHeader.segmentCount ∧ p.hfs.length = p.metaHeader.hopFieldCount

theorem length_bytes (p : DecodedScionPath) : p.bytes.length = p.size := by
  have hinfos := Records.length_flatten
    (show ∀ c ∈ p.ifs.map InfoField.bytes, c.length = 8 by simp)
  have hhops := Records.length_flatten
    (show ∀ c ∈ p.hfs.map HopField.bytes, c.length = 12 by simp)
  rw [bytes, List.length_append, List.length_append, hinfos, hhops, PathMeta.length_bytes,
    List.length_map, List.length_map, size, PathMeta.size, InfoField.staticSize,
    HopField.staticSize, add_assoc]

theorem writes {p : DecodedScionPath} (h : p.Consistent) :
    Writes WriteStream.cursor p.write p.bytes := by
  have hinfos := Writes.writeAll (w := InfoField.write) p.ifs fun info _ => InfoField.writes info
  have hhops := Writes.writeAll (w := HopField.write) p.hfs fun hf _ => HopField.writes hf
  rw [write, ← h.1, ← h.2, List.take_length, List.take_length]
  exact (PathMeta.writes p.metaHeader).bind (hinfos.bind hhops)

theorem encode_eq {p : DecodedScionPath} (h : p.Consistent) : p.encode = some p.bytes := by
  have hrun := (writes h [] (List.replicate p.size 0)).1
    (by rw [length_bytes, List.length_replicate])
  rw [encode, WriteStream.ofBuffer_eq, hrun, length_bytes, List.drop_replicate, Nat.sub_self]
  simp [WriteStream.cursor]

end DecodedScionPath

/-- The MACs of the hop fields in examples. -/
def exampleMac : Vector UInt8 6 := #v[1, 2, 3, 4, 5, 6]

@[inherit_doc exampleMac] def exampleMac' : Vector UInt8 6 := #v[6, 5, 4, 3, 2, 1]

end Scion
