/-
The TCP header (`hdr/tcp.hpp`).

* `TCP.read`, `TCP.write`, `TCP.size`, `TCP.checksum` — the functions of the source;
* `TcpOption` — an option as it stands in the list of options, and `TCP.optionList`, the
  options that `emitOpts` writes, with the no-op options between them;
* `TCP.writes` — the bytes of a header;
* `TCP.length_bytes_eq_size_iff` — when these are as many as `size` says;
* `TCP.write_as_measured_iff` — the layout of written headers.
-/
import Scion.AddAddr
import Scion.Header

namespace Scion

open BigEndian Codec ReadStream WriteStream

/-- Which options a header has. -/
structure TcpOptionMask where
  mss : Bool := false
  ws : Bool := false
  sackPerm : Bool := false
  sack : Bool := false
  ts : Bool := false
  mpCapable : Bool := false
  mpJoin : Bool := false
  mpDss : Bool := false
  mpAddAddr : Bool := false
  mpRemAddr : Bool := false
  mpPrio : Bool := false
  mpFail : Bool := false
  mpClose : Bool := false
  mpRst : Bool := false
  deriving DecidableEq, Repr

/-- Each option is valid if its bit of the mask is set. -/
structure TcpOptions where
  mss : TcpMssOpt := {}
  ws : TcpWsOpt := {}
  sack : TcpSAckOpt := {}
  ts : TcpTsOpt := {}
  mpCap : TcpMpCapableOpt := {}
  mpJoin : TcpMpJoinOpt := .syn 0 0 0 0
  mpDss : TcpMpDssOpt := {}
  mpAdd : TcpMpAddAddrOpt := {}
  mpRem : TcpMpRemAddrOpt := {}
  mpPrio : TcpMpPrioOpt := {}
  mpFail : TcpMpFailOpt := {}
  mpClose : TcpMpCloseOpt := {}
  mpRst : TcpMpRstOpt := {}
  deriving DecidableEq, Repr

/-- TCP header with options. -/
structure TCP where
  flags : UInt8 := 0
  sport : UInt16 := 0
  dport : UInt16 := 0
  window : UInt16 := 0
  urgptr : UInt16 := 0
  seq : UInt32 := 0
  ack : UInt32 := 0
  chksum : UInt16 := 0
  optMask : TcpOptionMask := {}
  options : TcpOptions := {}
  deriving DecidableEq, Repr

namespace TCP

def proto : ScionProto := ScionProto.tcp

/-! ### Measuring and summing up -/

/-- The size of the options as emitted by `emitOpts`, with padding. -/
def measureOpts (h : TCP) : ℕ :=
  let len := 0
  let len := if h.optMask.mss then len + TcpMssOpt.length.toNat else len
  let len := if h.optMask.sackPerm then len + TcpSAckPermOpt.length.toNat else len
  let len := if h.optMask.sack then len + (h.options.sack.size + 2) else len
  let len :=
    if h.optMask.ts then
      if len % 4 = 2 then len + TcpTsOpt.length.toNat else len + (TcpTsOpt.length.toNat + 2)
    else len
  let len := if h.optMask.ws then len + (TcpWsOpt.length.toNat + 1) else len
  let len := if h.optMask.mpCapable then len + h.options.mpCap.size else len
  let len := if h.optMask.mpJoin then len + h.options.mpJoin.size else len
  let len := if h.optMask.mpDss then len + h.options.mpDss.size else len
  let len := if h.optMask.mpAddAddr then len + h.options.mpAdd.size else len
  let len := if h.optMask.mpRemAddr then len + 2 * ((h.options.mpRem.size + 1) / 2) else len
  let len := if h.optMask.mpPrio then len + (h.options.mpPrio.size + 1) else len
  let len := if h.optMask.mpFail then len + h.options.mpFail.size else len
  let len := if h.optMask.mpClose then len + h.options.mpClose.size else len
  let len := if h.optMask.mpRst then len + h.options.mpRst.size else len
  -- round up to a multiple of 4
  (len + 3) / 4 * 4

def size (h : TCP) : ℕ := 20 + h.measureOpts

def checksumOpts (h : TCP) : UInt32 :=
  let m := h.optMask
  let o := h.options
  let sum : UInt32 := 0
  let sum := if m.mss then sum + o.mss.checksum else sum
  let len := if m.mss then TcpMssOpt.length.toNat else 0
  let sum := if m.sackPerm then sum + TcpSAckPermOpt.checksum ⟨⟩ else sum
  let len := if m.sackPerm then len + TcpSAckPermOpt.length.toNat else len
  let sum := if m.sack then sum + o.sack.checksum else sum
  let len := if m.sack then len + (o.sack.size + 2) else len
  let sum :=
    if m.ts then if len % 4 = 2 then sum + o.ts.checksum else sum + (0x0101 + o.ts.checksum)
    else sum
  let sum := if m.ws then sum + o.ws.checksum else sum
  let sum := if m.mpCapable then sum + o.mpCap.checksum else sum
  let sum := if m.mpJoin then sum + o.mpJoin.checksum else sum
  let sum := if m.mpDss then sum + o.mpDss.checksum else sum
  let sum := if m.mpAddAddr then sum + o.mpAdd.checksum else sum
  let sum := if m.mpRemAddr then sum + o.mpRem.checksum else sum
  let sum := if m.mpPrio then sum + o.mpPrio.checksum else sum
  let sum := if m.mpFail then sum + o.mpFail.checksum else sum
  let sum := if m.mpClose then sum + o.mpClose.checksum else sum
  if m.mpRst then sum + o.mpRst.checksum else sum

/-- Takes the current value of the chksum field into account. -/
def checksum (h : TCP) : UInt32 :=
  let sum := h.sport.toUInt32 + h.dport.toUInt32
  let sum := sum + checksumUint32 h.seq
  let sum := sum + checksumUint32 h.ack
  let sum := sum + ((UInt32.ofNat (h.size / 4) <<< 12) ||| h.flags.toUInt32)
  let sum := sum + (h.window.toUInt32 + h.chksum.toUInt32 + h.urgptr.toUInt32)
  sum + h.checksumOpts

/-- This header's contribution to the flow label, hashed by `MurmurHash3_x86_32`. -/
def flowLabel (murmur32 : List UInt8 → UInt32 → UInt32) (h : TCP) : UInt32 :=
  let key := (proto.toUInt32 <<< 16) ||| (h.sport ^^^ h.dport).toUInt32
  murmur32 (leBytes 4 key.toNat) 0

/-! ### Writing -/

/-- Two no-op options. -/
def writeNoOps : Writer := WriteStream.serializeUint16 0x0101

def emitOpts (h : TCP) : Writer := do
  let m := h.optMask
  let o := h.options
  writeIf m.mss o.mss.write
  let len := if m.mss then TcpMssOpt.length.toNat else 0
  writeIf m.sackPerm (TcpSAckPermOpt.write ⟨⟩)
  let len := if m.sackPerm then len + TcpSAckPermOpt.length.toNat else len
  writeIf m.sack do
    writeNoOps
    o.sack.write
  let len := if m.sack then len + (o.sack.size + 2) else len
  writeIf m.ts do
    writeIf (len % 4 ≠ 2) writeNoOps
    o.ts.write
  let len :=
    if m.ts then
      if len % 4 = 2 then len + TcpTsOpt.length.toNat else len + (TcpTsOpt.length.toNat + 2)
    else len
  writeIf m.ws do
    WriteStream.serializeByte TcpOptKind.noOp
    o.ws.write
  let len := if m.ws then len + (TcpWsOpt.length.toNat + 1) else len
  writeIf m.mpCapable o.mpCap.write
  writeIf m.mpJoin o.mpJoin.write
  writeIf m.mpDss o.mpDss.write
  writeIf m.mpAddAddr o.mpAdd.write
  writeIf m.mpRemAddr do
    writeIf (o.mpRem.size % 2 = 1) (WriteStream.serializeByte TcpOptKind.noOp)
    o.mpRem.write
  writeIf m.mpPrio do
    WriteStream.serializeByte TcpOptKind.noOp
    o.mpPrio.write
  writeIf m.mpFail o.mpFail.write
  writeIf m.mpClose o.mpClose.write
  writeIf m.mpRst o.mpRst.write
  -- end of option list (0) options
  writeIf (len &&& 0x2 ≠ 0) (WriteStream.advanceBytes (4 - (len &&& 3)))

/-- Data offset and reserved bits. -/
def writeOffset (h : TCP) : Writer := do
  WriteStream.serializeBits 32 (UInt64.ofNat (h.size / 4)) 4
  WriteStream.advanceBits 4

def write (h : TCP) : Writer := do
  WriteStream.serializeUint16 h.sport
  WriteStream.serializeUint16 h.dport
  WriteStream.serializeUint32 h.seq
  WriteStream.serializeUint32 h.ack
  h.writeOffset
  WriteStream.serializeByte h.flags
  WriteStream.serializeUint16 h.window
  WriteStream.serializeUint16 h.chksum
  WriteStream.serializeUint16 h.urgptr
  h.emitOpts

end TCP

/-! ### Lists of options -/

/-- An option as it stands in the list of options. -/
inductive TcpOption
  | noOp
  | mss (o : TcpMssOpt)
  | ws (o : TcpWsOpt)
  | sackPerm (o : TcpSAckPermOpt)
  | sack (o : TcpSAckOpt)
  | ts (o : TcpTsOpt)
  | mpCapable (o : TcpMpCapableOpt)
  | mpJoin (o : TcpMpJoinOpt)
  | mpDss (o : TcpMpDssOpt)
  | mpAddAddr (o : TcpMpAddAddrOpt)
  | mpRemAddr (o : TcpMpRemAddrOpt)
  | mpPrio (o : TcpMpPrioOpt)
  | mpFail (o : TcpMpFailOpt)
  | mpClose (o : TcpMpCloseOpt)
  | mpRst (o : TcpMpRstOpt)
  deriving DecidableEq, Repr

namespace TcpOption

def bytes : TcpOption → List UInt8
  | noOp => [TcpOptKind.noOp]
  | mss o => o.bytes
  | ws o => o.bytes
  | sackPerm o => o.bytes
  | sack o => o.bytes
  | ts o => o.bytes
  | mpCapable o => o.bytes
  | mpJoin o => o.bytes
  | mpDss o => o.bytes
  | mpAddAddr o => o.bytes
  | mpRemAddr o => o.bytes
  | mpPrio o => o.bytes
  | mpFail o => o.bytes
  | mpClose o => o.bytes
  | mpRst o => o.bytes

/-- Values within the widths of their fields. -/
def Fits : TcpOption → Prop
  | mpCapable o => o.Fits
  | mpJoin o => o.Fits
  | mpDss o => o.Fits
  | mpAddAddr o => o.Fits
  | mpRemAddr o => o.Fits
  | mpRst o => o.Fits
  | _ => True

/-- The bytes of a list of options. -/
def bytesOf (os : List TcpOption) : List UInt8 := (os.map bytes).flatten

/-- The options of a list that is there. -/
def listIf (present : Bool) (os : List TcpOption) : List TcpOption := if present then os else []

@[simp] theorem bytesOf_nil : bytesOf [] = [] := rfl

theorem bytesOf_cons (o : TcpOption) (os : List TcpOption) :
    bytesOf (o :: os) = o.bytes ++ bytesOf os := rfl

@[simp] theorem bytesOf_append (xs ys : List TcpOption) :
    bytesOf (xs ++ ys) = bytesOf xs ++ bytesOf ys := by
  rw [bytesOf, List.map_append, List.flatten_append]
  rfl

theorem bytesOf_listIf (present : Bool) (os : List TcpOption) :
    bytesOf (listIf present os) = bytesIf present (bytesOf os) := by
  cases present <;> rfl

/-- An option written when it is there. -/
theorem writes_listIf {w : Writer} {o : TcpOption} (present : Bool)
    (h : Writes WriteStream.cursor w o.bytes) :
    Writes WriteStream.cursor (writeIf present w) (bytesOf (listIf present [o])) := by
  rw [bytesOf_listIf, bytesOf_cons, bytesOf_nil, List.append_nil]
  exact writes_if present h

end TcpOption

/-! ### Sizes of written options -/

/-- No more blocks are written than there are. -/
theorem TcpSAckOpt.length_bytes (o : TcpSAckOpt) :
    o.bytes.length + 8 * (o.blocks.toNat - 3) = o.size := by
  have hblocks : ∀ c ∈ (firstSlots 3 o.blocks.toNat).map fun i : Fin 3 => blockBytes o.edges[i],
      c.length = 8 :=
    List.forall_mem_map.mpr fun i _ => by simp [blockBytes]
  have hlen := Records.length_flatten hblocks
  rw [List.length_map, length_firstSlots] at hlen
  rw [bytes, List.length_append, List.length_append, hlen, List.length_singleton,
    List.length_singleton, size]
  omega

@[simp] theorem TcpMpCapableOpt.length_bytes (o : TcpMpCapableOpt) : o.bytes.length = o.size := by
  simp only [bytes, List.length_append, length_bytesIf, List.length_singleton, length_subtypeBytes,
    length_beBytes, size, TcpMpCapableMask.size]
  split_ifs <;> omega

@[simp] theorem TcpMpJoinOpt.length_bytes (o : TcpMpJoinOpt) : o.bytes.length = o.size := by
  cases o <;> simp [bytes, body, size]

@[simp] theorem TcpMpDssOpt.length_bytes (o : TcpMpDssOpt) : o.bytes.length = o.size := by
  simp only [bytes, seqBytes, List.length_append, length_bytesIf, List.length_singleton,
    length_subtypeBytes, length_beBytes, size, sizeOfFlags, apply_ite List.length]
  split_ifs <;> omega

@[simp] theorem TcpMpAddAddrOpt.length_bytes (o : TcpMpAddAddrOpt) : o.bytes.length = o.size := by
  simp only [bytes, frame, portBytes, List.length_append, length_bytesIf, List.length_singleton,
    length_subtypeBytes, length_beBytes, IPAddress.length_bytes, size]
  split_ifs <;> omega

@[simp] theorem TcpMpRemAddrOpt.length_bytes (o : TcpMpRemAddrOpt) : o.bytes.length = o.size := by
  have hids : ∀ c ∈ (firstSlots 8 o.numIds).map fun i : Fin 8 => [o.addressIds[i]],
      c.length = 1 :=
    List.forall_mem_map.mpr fun i _ => rfl
  have hlen := Records.length_flatten hids
  rw [List.length_map, length_firstSlots] at hlen
  have hnum : o.numIds ≤ 8 := by
    rw [numIds]
    omega
  simp only [bytes, List.length_append, List.length_singleton, length_subtypeBytes, hlen, size]
  omega

namespace TCP

open TcpOption

/-- The length of the options of plain TCP when the timestamps are written. -/
def lenBeforeTs (h : TCP) : ℕ :=
  (if h.optMask.mss then 4 else 0) + (if h.optMask.sackPerm then 2 else 0)
    + (if h.optMask.sack then h.options.sack.size + 2 else 0)

/-- The options that `emitOpts` writes. -/
def optionList (h : TCP) : List TcpOption :=
  let m := h.optMask
  let o := h.options
  listIf m.mss [.mss o.mss] ++ (listIf m.sackPerm [.sackPerm ⟨⟩] ++
    (listIf m.sack [.noOp, .noOp, .sack o.sack] ++
      (listIf m.ts (listIf (h.lenBeforeTs % 4 ≠ 2) [.noOp, .noOp] ++ [.ts o.ts]) ++
        (listIf m.ws [.noOp, .ws o.ws] ++ (listIf m.mpCapable [.mpCapable o.mpCap] ++
          (listIf m.mpJoin [.mpJoin o.mpJoin] ++ (listIf m.mpDss [.mpDss o.mpDss] ++
            (listIf m.mpAddAddr [.mpAddAddr o.mpAdd] ++
              (listIf m.mpRemAddr (listIf (o.mpRem.size % 2 = 1) [.noOp] ++ [.mpRemAddr o.mpRem]) ++
                (listIf m.mpPrio [.noOp, .mpPrio o.mpPrio] ++ (listIf m.mpFail [.mpFail o.mpFail] ++
                  (listIf m.mpClose [.mpClose o.mpClose] ++
                    listIf m.mpRst [.mpRst o.mpRst]))))))))))))

/-- The length of the options of plain TCP, as `emitOpts` counts it. -/
def plainLen (h : TCP) : ℕ :=
  h.lenBeforeTs + (if h.optMask.ts then if h.lenBeforeTs % 4 = 2 then 10 else 12 else 0)
    + (if h.optMask.ws then 4 else 0)

/-- The length of the MPTCP options with the no-op options in front of them. -/
def mptcpLen (h : TCP) : ℕ :=
  let m := h.optMask
  let o := h.options
  (if m.mpCapable then o.mpCap.size else 0) + (if m.mpJoin then o.mpJoin.size else 0)
    + (if m.mpDss then o.mpDss.size else 0) + (if m.mpAddAddr then o.mpAdd.size else 0)
    + (if m.mpRemAddr then 2 * ((o.mpRem.size + 1) / 2) else 0) + (if m.mpPrio then 4 else 0)
    + (if m.mpFail then o.mpFail.size else 0) + (if m.mpClose then o.mpClose.size else 0)
    + (if m.mpRst then o.mpRst.size else 0)

theorem add_ite (p : Prop) [Decidable p] (a b : ℕ) :
    (if p then a + b else a) = a + if p then b else 0 := by
  split <;> rfl

/-- What is measured is what the parts add up to. -/
theorem measureOpts_eq (h : TCP) : h.measureOpts = (h.plainLen + h.mptcpLen + 3) / 4 * 4 := by
  have hts : ∀ a : ℕ, (if h.optMask.ts then if a % 4 = 2 then a + 10 else a + 12 else a)
      = a + if h.optMask.ts then if a % 4 = 2 then 10 else 12 else 0 := fun a => by
    split_ifs <;> rfl
  simp only [measureOpts, plainLen, mptcpLen, lenBeforeTs, add_ite, zero_add, TcpMssOpt.length,
    TcpSAckPermOpt.length, TcpTsOpt.length, TcpWsOpt.length, TcpMpPrioOpt.size,
    TcpMpPrioOpt.length, UInt8.reduceToNat, Nat.reduceAdd, hts]
  simp only [add_assoc]

theorem plainLen_even (h : TCP) : h.plainLen % 2 = 0 := by
  rw [plainLen, lenBeforeTs, TcpSAckOpt.size]
  split_ifs <;> omega

/-- The padding at the end of the options, which only looks at those of plain TCP. -/
def padding (h : TCP) : ℕ := if h.plainLen % 4 = 2 then 2 else 0

theorem writes_padding (h : TCP) :
    Writes WriteStream.cursor
      (writeIf (h.plainLen &&& 0x2 ≠ 0) (WriteStream.advanceBytes (4 - (h.plainLen &&& 3))))
      (List.replicate h.padding 0) := by
  have heven := h.plainLen_even
  have hthree : h.plainLen &&& 3 = h.plainLen % 4 := Nat.and_two_pow_sub_one_eq_mod h.plainLen 2
  have htwo : h.plainLen &&& 0x2 = h.plainLen % 4 := by
    have hmask : h.plainLen &&& 0x2 = (h.plainLen &&& 3) &&& 2 := by
      rw [Nat.and_assoc]
      rfl
    have hcases : h.plainLen % 4 = 0 ∨ h.plainLen % 4 = 2 := by omega
    rw [hmask, hthree]
    rcases hcases with hmod | hmod <;> rw [hmod] <;> rfl
  rw [htwo, hthree, padding]
  by_cases hmod : h.plainLen % 4 = 2
  · rw [hmod, if_pos rfl]
    exact writes_advanceBytes 2
  · rw [show h.plainLen % 4 = 0 by omega, if_neg (by norm_num)]
    exact Writes.pure

theorem writes_noOps : Writes WriteStream.cursor writeNoOps (bytesOf [.noOp, .noOp]) :=
  writes_uint16 0x0101

/-- The running length of `emitOpts`, where it is looked at. -/
theorem emitOpts_len (h : TCP) :
    let len := if h.optMask.mss then TcpMssOpt.length.toNat else 0
    let len := if h.optMask.sackPerm then len + TcpSAckPermOpt.length.toNat else len
    let len := if h.optMask.sack then len + (h.options.sack.size + 2) else len
    let last :=
      if h.optMask.ts then
        if len % 4 = 2 then len + TcpTsOpt.length.toNat else len + (TcpTsOpt.length.toNat + 2)
      else len
    let last := if h.optMask.ws then last + (TcpWsOpt.length.toNat + 1) else last
    len = h.lenBeforeTs ∧ last = h.plainLen := by
  intro len₁ len₂ len₃ last₁ last₂
  have hlen : len₃ = h.lenBeforeTs := by
    simp only [len₃, len₂, len₁, add_ite, lenBeforeTs]
    rfl
  refine ⟨hlen, ?_⟩
  have hlast : last₁ = h.lenBeforeTs
      + if h.optMask.ts then if h.lenBeforeTs % 4 = 2 then 10 else 12 else 0 := by
    simp only [last₁, hlen]
    split_ifs <;> rfl
  simp only [last₂, hlast, plainLen, add_ite]
  rfl

/-- The options of a header, followed by the padding, are written. -/
theorem writes_emitOpts (h : TCP) :
    Writes WriteStream.cursor h.emitOpts
      (bytesOf h.optionList ++ List.replicate h.padding 0) := by
  have hnoOp : Writes WriteStream.cursor (WriteStream.serializeByte TcpOptKind.noOp)
      (bytesOf [.noOp]) := writes_byte _
  have hsack := writes_if h.optMask.sack
    (writes_noOps.bind (TcpSAckOpt.writes h.options.sack))
  have hts := writes_if h.optMask.ts
    ((writes_if (h.lenBeforeTs % 4 ≠ 2) writes_noOps).bind (TcpTsOpt.writes h.options.ts))
  have hws := writes_if h.optMask.ws (hnoOp.bind (TcpWsOpt.writes h.options.ws))
  have hrem := writes_if h.optMask.mpRemAddr
    ((writes_if (h.options.mpRem.size % 2 = 1) hnoOp).bind
      (TcpMpRemAddrOpt.writes h.options.mpRem))
  have hprio := writes_if h.optMask.mpPrio (hnoOp.bind (TcpMpPrioOpt.writes h.options.mpPrio))
  obtain ⟨hlen, hlast⟩ := h.emitOpts_len
  have hpadding := h.writes_padding
  rw [← hlen] at hts
  rw [← hlast] at hpadding
  have hrun := (writes_if h.optMask.mss (TcpMssOpt.writes h.options.mss)).bind
    ((writes_if h.optMask.sackPerm (TcpSAckPermOpt.writes ⟨⟩)).bind
      (hsack.bind (hts.bind (hws.bind
        ((writes_if h.optMask.mpCapable (TcpMpCapableOpt.writes h.options.mpCap)).bind
          ((writes_if h.optMask.mpJoin (TcpMpJoinOpt.writes h.options.mpJoin)).bind
            ((writes_if h.optMask.mpDss (TcpMpDssOpt.writes h.options.mpDss)).bind
              ((writes_if h.optMask.mpAddAddr (TcpMpAddAddrOpt.writes h.options.mpAdd)).bind
                (hrem.bind (hprio.bind
                  ((writes_if h.optMask.mpFail (TcpMpFailOpt.writes h.options.mpFail)).bind
                    ((writes_if h.optMask.mpClose (TcpMpCloseOpt.writes h.options.mpClose)).bind
                      ((writes_if h.optMask.mpRst (TcpMpRstOpt.writes h.options.mpRst)).bind
                        hpadding)))))))))))))
  simp only [optionList, bytesOf_append, bytesOf_listIf, bytesOf_cons, bytesOf_nil,
    List.append_nil, List.append_assoc] at hrun ⊢
  rw [← hlen]
  exact hrun

/-! ### Sizes -/

/-- Blocks that `size` counts and the loop over the array does not write. -/
def missingBlocks (h : TCP) : ℕ := if h.optMask.sack then h.options.sack.blocks.toNat - 3 else 0

theorem length_bytesOf_listIf (present : Bool) (os : List TcpOption) :
    (bytesOf (listIf present os)).length = if present then (bytesOf os).length else 0 := by
  rw [bytesOf_listIf, length_bytesIf]

theorem length_optionList (h : TCP) :
    (bytesOf h.optionList).length + 8 * h.missingBlocks = h.plainLen + h.mptcpLen := by
  have hsack : (bytesOf (listIf h.optMask.sack [.noOp, .noOp, .sack h.options.sack])).length
      + 8 * h.missingBlocks = if h.optMask.sack then h.options.sack.size + 2 else 0 := by
    have hlen := TcpSAckOpt.length_bytes h.options.sack
    rw [length_bytesOf_listIf, missingBlocks]
    simp only [bytesOf_cons, bytesOf_nil, List.append_nil, List.length_append, TcpOption.bytes,
      List.length_singleton]
    split_ifs <;> omega
  have hts : (bytesOf (listIf h.optMask.ts
      (listIf (h.lenBeforeTs % 4 ≠ 2) [.noOp, .noOp] ++ [.ts h.options.ts]))).length
      = if h.optMask.ts then if h.lenBeforeTs % 4 = 2 then 10 else 12 else 0 := by
    have hlen : h.options.ts.bytes.length = 10 := by simp [TcpTsOpt.bytes]
    simp only [length_bytesOf_listIf, bytesOf_append, List.length_append, bytesOf_cons,
      bytesOf_nil, List.append_nil, TcpOption.bytes, List.length_singleton, hlen]
    by_cases hmod : h.lenBeforeTs % 4 = 2 <;> simp [hmod]
  have hrem : (bytesOf (listIf h.optMask.mpRemAddr
      (listIf (h.options.mpRem.size % 2 = 1) [.noOp] ++ [.mpRemAddr h.options.mpRem]))).length
      = if h.optMask.mpRemAddr then 2 * ((h.options.mpRem.size + 1) / 2) else 0 := by
    simp only [length_bytesOf_listIf, bytesOf_append, List.length_append, bytesOf_cons,
      bytesOf_nil, List.append_nil, TcpOption.bytes, List.length_singleton,
      TcpMpRemAddrOpt.length_bytes, decide_eq_true_eq]
    split_ifs <;> omega
  have hmss : h.options.mss.bytes.length = 4 := by simp [TcpMssOpt.bytes]
  have hperm : (TcpSAckPermOpt.bytes ⟨⟩).length = 2 := rfl
  have hws : h.options.ws.bytes.length = 3 := by simp [TcpWsOpt.bytes]
  have hprio : h.options.mpPrio.bytes.length = 3 := by simp [TcpMpPrioOpt.bytes]
  have hfail : h.options.mpFail.bytes.length = h.options.mpFail.size := by
    simp [TcpMpFailOpt.bytes, mpWordBytes, TcpMpFailOpt.size, TcpMpFailOpt.length, mpWordLength]
  have hclose : h.options.mpClose.bytes.length = h.options.mpClose.size := by
    simp [TcpMpCloseOpt.bytes, mpWordBytes, TcpMpCloseOpt.size, TcpMpCloseOpt.length, mpWordLength]
  have hrst : h.options.mpRst.bytes.length = h.options.mpRst.size := by
    simp [TcpMpRstOpt.bytes, TcpMpRstOpt.size, TcpMpRstOpt.length]
  rw [optionList]
  simp only [bytesOf_append, List.length_append]
  rw [hts, hrem]
  simp only [length_bytesOf_listIf h.optMask.mss, length_bytesOf_listIf h.optMask.sackPerm,
    length_bytesOf_listIf h.optMask.ws, length_bytesOf_listIf h.optMask.mpCapable,
    length_bytesOf_listIf h.optMask.mpJoin, length_bytesOf_listIf h.optMask.mpDss,
    length_bytesOf_listIf h.optMask.mpAddAddr, length_bytesOf_listIf h.optMask.mpPrio,
    length_bytesOf_listIf h.optMask.mpFail, length_bytesOf_listIf h.optMask.mpClose,
    length_bytesOf_listIf h.optMask.mpRst, bytesOf_cons, bytesOf_nil, List.append_nil,
    List.length_append, TcpOption.bytes, List.length_singleton, hmss, hperm, hws, hprio, hfail,
    hclose, hrst, TcpMpCapableOpt.length_bytes, TcpMpJoinOpt.length_bytes,
    TcpMpDssOpt.length_bytes, TcpMpAddAddrOpt.length_bytes, Nat.reduceAdd]
  simp only [plainLen, mptcpLen, lenBeforeTs] at hsack ⊢
  omega

/-! ### Written headers -/

/-- The header without options. -/
def fixedBytes (h : TCP) : List UInt8 :=
  beBytes 2 h.sport.toNat ++ (beBytes 2 h.dport.toNat ++ (beBytes 4 h.seq.toNat ++
    (beBytes 4 h.ack.toNat ++ (beBytes 1 (h.size / 4 % 2 ^ 4 * 2 ^ 4) ++ ([h.flags] ++
      (beBytes 2 h.window.toNat ++ (beBytes 2 h.chksum.toNat ++ beBytes 2 h.urgptr.toNat)))))))

@[simp] theorem length_fixedBytes (h : TCP) : h.fixedBytes.length = 20 := by simp [fixedBytes]

/-- What `write` writes. -/
def bytes (h : TCP) : List UInt8 :=
  h.fixedBytes ++ (bytesOf h.optionList ++ List.replicate h.padding 0)

theorem writes_offset (h : TCP) :
    Writes WriteStream.cursor h.writeOffset (beBytes 1 (h.size / 4 % 2 ^ 4 * 2 ^ 4)) := by
  have hbits := writesBits_serializeBits 32 0 4 (UInt64.ofNat (h.size / 4)) (by norm_num)
    (by norm_num)
  have hval : (UInt64.ofNat (h.size / 4)).toNat % 2 ^ 4 = h.size / 4 % 2 ^ 4 := by
    rw [UInt64.toNat_ofNat']
    omega
  rw [hval] at hbits
  exact (hbits.bind (writesBits_advanceBits 4 4 (by norm_num) (by norm_num))).writes

theorem writes (h : TCP) : Writes WriteStream.cursor h.write h.bytes := by
  have hrun := (writes_uint16 h.sport).bind ((writes_uint16 h.dport).bind
    ((writes_uint32 h.seq).bind ((writes_uint32 h.ack).bind (h.writes_offset.bind
      ((writes_byte h.flags).bind ((writes_uint16 h.window).bind ((writes_uint16 h.chksum).bind
        ((writes_uint16 h.urgptr).bind h.writes_emitOpts))))))))
  rw [bytes, fixedBytes]
  simp only [List.append_assoc] at hrun ⊢
  exact hrun

/-- The headers whose options are as long as they are counted. -/
def CountsAgree (h : TCP) : Prop :=
  (h.optMask.sack = true → h.options.sack.blocks.toNat ≤ TcpSAckOpt.maxBlocks) ∧
    h.mptcpLen % 4 = 0

theorem mptcpLen_even (h : TCP) : h.mptcpLen % 2 = 0 := by
  have hcap : h.options.mpCap.size % 2 = 0 := by
    rw [TcpMpCapableOpt.size, TcpMpCapableMask.size]
    split_ifs <;> omega
  have hjoin : h.options.mpJoin.size % 2 = 0 := by
    cases h.options.mpJoin <;> rw [TcpMpJoinOpt.size]
  have hdss : h.options.mpDss.size % 2 = 0 := by
    rw [TcpMpDssOpt.size, TcpMpDssOpt.sizeOfFlags]
    split_ifs <;> omega
  have hadd : h.options.mpAdd.size % 2 = 0 := by
    rw [TcpMpAddAddrOpt.size, IPAddress.size]
    split_ifs <;> omega
  have hfail : h.options.mpFail.size = 12 := rfl
  have hclose : h.options.mpClose.size = 12 := rfl
  have hrst : h.options.mpRst.size = 4 := rfl
  have hif : ∀ (p : Bool) (n : ℕ), n % 2 = 0 → (if p then n else 0) % 2 = 0 := fun p n hn => by
    cases p
    · rfl
    · exact hn
  have h1 := hif h.optMask.mpCapable _ hcap
  have h2 := hif h.optMask.mpJoin _ hjoin
  have h3 := hif h.optMask.mpDss _ hdss
  have h4 := hif h.optMask.mpAddAddr _ hadd
  have h5 := hif h.optMask.mpRemAddr (2 * ((h.options.mpRem.size + 1) / 2)) (by omega)
  have h6 := hif h.optMask.mpPrio 4 rfl
  have h7 := hif h.optMask.mpFail h.options.mpFail.size (by omega)
  have h8 := hif h.optMask.mpClose h.options.mpClose.size (by omega)
  have h9 := hif h.optMask.mpRst h.options.mpRst.size (by omega)
  rw [mptcpLen]
  omega

/-- As many bytes are written as `size` says exactly when the options that `emitOpts` does
not count need no padding. -/
theorem length_bytes_eq_size_iff (h : TCP) : h.bytes.length = h.size ↔ h.CountsAgree := by
  have hlen := h.length_optionList
  have heven := h.plainLen_even
  have heven' := h.mptcpLen_even
  have hmissing : h.missingBlocks = 0 ↔
      (h.optMask.sack = true → h.options.sack.blocks.toNat ≤ TcpSAckOpt.maxBlocks) := by
    rw [missingBlocks, TcpSAckOpt.maxBlocks]
    split_ifs with hsack <;> simp [hsack]
    omega
  rw [CountsAgree, ← hmissing, bytes, List.length_append, List.length_append, length_fixedBytes,
    List.length_replicate, size, measureOpts_eq, padding]
  split_ifs <;> omega

/-- Values within the widths of their fields. -/
def Fits (h : TCP) : Prop := ∀ o ∈ h.optionList, o.Fits

/-- A multiple of four bytes is written, as many as `size` says and as the data offset
says in words of four bytes; what follows the last option is zero. -/
def WrittenAsMeasured (h : TCP) : Prop :=
  h.size % 4 = 0 ∧ ∀ pre post : List UInt8, h.size ≤ post.length → ∃ bs,
    h.write (WriteStream.cursor pre post)
      = .ok () (WriteStream.cursor (pre ++ bs) (post.drop h.size)) ∧
    bs.length = h.size ∧ (bs.getD 12 0 >>> 4).toNat = h.size / 4 ∧
    ∃ head padding, head.length = 20 ∧
      bs = head ++ (bytesOf h.optionList ++ List.replicate padding 0)

/-- The byte that holds the data offset. -/
theorem dataOffset_bytes {h : TCP} (hsize : h.size ≤ 60) :
    (h.bytes.getD 12 0 >>> 4).toNat = h.size / 4 := by
  have hbyte : h.bytes.getD 12 0 = UInt8.ofNat (h.size / 4 % 2 ^ 4 * 2 ^ 4) := by
    simp [bytes, fixedBytes, beBytes]
  rw [hbyte, UInt8.toNat_shiftRight, UInt8.toNat_ofNat', Nat.shiftRight_eq_div_pow,
    show (4 : UInt8).toNat % 8 = 4 from rfl]
  omega

theorem WrittenAsMeasured.length_bytes {h : TCP} (hw : h.WrittenAsMeasured) :
    h.bytes.length = h.size := by
  obtain ⟨bs, hok, hlen, -⟩ := hw.2 [] (List.replicate h.size 0) (by rw [List.length_replicate])
  obtain ⟨-, -, hcursor⟩ := ((h.writes).at 0).of_ok rfl hok
  -- the two descriptions of the stream agree on its position
  have hpos := congrArg WriteStream.bytePos hcursor
  simp only [WriteStream.cursor, List.nil_append, hlen] at hpos
  exact hpos.symm

/-- A header of at most 60 bytes is written as measured exactly when the lengths of its
MPTCP options add up to whole words of four bytes. -/
theorem write_as_measured_iff {h : TCP} (hsize : h.size ≤ 60) :
    h.WrittenAsMeasured ↔ h.CountsAgree := by
  rw [← length_bytes_eq_size_iff]
  have hfour : h.size % 4 = 0 := by
    rw [size, measureOpts_eq]
    omega
  constructor
  · exact WrittenAsMeasured.length_bytes
  · intro hlen
    refine ⟨hfour, fun pre post hroom => ⟨h.bytes, ?_, hlen, dataOffset_bytes hsize,
      h.fixedBytes, h.padding, h.length_fixedBytes, rfl⟩⟩
    rw [← hlen] at hroom ⊢
    exact (h.writes pre post).1 hroom

/-- The options of a SYN. -/
def exampleSyn : TCP where
  flags := 0x02
  sport := 49152
  dport := 443
  optMask := { mss := true, ws := true, sackPerm := true, ts := true }
  options := { mss := ⟨1460⟩, ws := ⟨7⟩ }

/-- An IPv4 address announced with a port. -/
def exampleAddAddr : TCP where
  flags := 0x10
  sport := 49152
  dport := 443
  optMask := { mpAddAddr := true }
  options := { mpAdd := { address := .v4 0xc0000201, port := some 443 } }

theorem fits_exampleAddAddr : exampleAddAddr.Fits := by
  intro o ho
  have hlist : exampleAddAddr.optionList = [.mpAddAddr exampleAddAddr.options.mpAdd] := rfl
  rw [hlist, List.mem_singleton] at ho
  subst ho
  exact ⟨by decide, rfl⟩

theorem write_as_measured_iff_exampleSyn :
    exampleSyn.WrittenAsMeasured ↔ exampleSyn.CountsAgree :=
  write_as_measured_iff (by decide)

/-- The 18 bytes of an announced address with port are not padded. -/
theorem not_forall_write_as_measured :
    ¬ ∀ h : TCP, h.Fits → h.size ≤ 60 → h.WrittenAsMeasured := by
  intro hall
  have hlen := (hall exampleAddAddr fits_exampleAddAddr (by decide)).length_bytes
  rw [length_bytes_eq_size_iff] at hlen
  exact absurd hlen.2 (by decide)

end TCP

end Scion
