/-
Accepted headers in full (`hdr/scion.hpp`, `hdr/tcp.hpp`).

* `SCION.takes_bytes` — all the bytes of an accepted SCION header, of which only the
  reserved ones are not in its fields;
* `SCION.codec_roundTrip` — reading and writing undo each other;
* `TCP.takes` — the fixed part of an accepted TCP header and its options;
* `TCP.takes_plain` — without options the bytes are those that `write` writes.
-/
import Scion.Ip
import Scion.TcpCodec

namespace Scion

open BigEndian Codec ReadStream WriteStream TcpOption

/-! ### The SCION header -/

namespace SCION

/-- The header with two given bytes in its reserved field. -/
def bytesWith (h : SCION) (reserved : List UInt8) : List UInt8 :=
  beBytes 4 (versionWord h.qos h.fl) ++ ([h.nh] ++ ([h.hlen] ++ (beBytes 2 h.plen.toNat ++
    ([h.ptype] ++ (beBytes 1 (h.dst.host.type.toNat * 16 + h.src.host.type.toNat) ++
      (reserved ++ (h.dst.isdAsn.bytes ++ (h.src.isdAsn.bytes ++
        (h.dst.host.bytes ++ h.src.host.bytes)))))))))

theorem bytes_eq_bytesWith (h : SCION) : h.bytes = h.bytesWith (List.replicate 2 0) := rfl

/-- The flow label of the bytes, with the version, is that of the fields. -/
theorem takes_versionWord : Takes ReadStream.cursor readVersion fun bs v =>
    bs = beBytes 4 (versionWord v.1 v.2) ∧ v.2.toNat < 2 ^ 20 := by
  have hver := ((readsBits_serializeBits 8 0 4 (by norm_num) (by norm_num)).map
    UInt64.toUInt8).takesField
  have hqos := (readsBits_byte 4 (by norm_num)).takesField
  have hfl := ((readsBits_serializeBits 32 4 20 (by norm_num) (by norm_num)).map
    UInt64.toUInt32).takesField
  have hall : TakesField readVersion 0 (8 * 4) _ :=
    hver.bind (n := 28) fun ver => TakesField.ensure (hqos.bind (n := 20) fun qos =>
      hfl.bind (n := 0) fun fl => TakesField.pure (qos, fl) 0)
  refine hall.takes.mono ?_
  rintro bs v ⟨d, rfl, ver, ⟨hlt, rfl⟩, hver, qos, ⟨hlt', rfl⟩, fl, ⟨hlt'', rfl⟩, rfl⟩
  have hzero := congrArg UInt8.toNat (eq_of_beq hver)
  rw [Scion.toUInt8_ofNat, show version.toNat = 0 from rfl] at hzero
  rw [versionWord, Scion.toUInt8_ofNat, UInt64.toNat_toUInt32, UInt64.toNat_ofNat']
  refine ⟨?_, by omega⟩
  congr 1
  omega

theorem takes_types : Takes ReadStream.cursor readHostTypes fun bs types =>
    bs = beBytes 1 (types.1.toNat * 16 + types.2.toNat) := by
  have hfield : ∀ a, TakesField (UInt64.toUInt8 <$> ReadStream.serializeBits 8 4) a 4
      fun d v => d < 2 ^ 4 ∧ v = (UInt64.ofNat d).toUInt8 := fun a =>
    ((readsBits_serializeBits 8 a 4 (by norm_num) (by norm_num)).map UInt64.toUInt8).takesField
  have hall : TakesField readHostTypes 0 (8 * 1) _ :=
    (hfield 0).bind (n := 4) fun dstType => (hfield 4).bind (n := 0) fun srcType =>
      TakesField.pure (dstType, srcType) 0
  refine hall.takes.mono ?_
  rintro bs types ⟨d, rfl, dst, ⟨hlt, rfl⟩, src, ⟨hlt', rfl⟩, rfl⟩
  rw [Scion.toUInt8_ofNat, Scion.toUInt8_ofNat]
  congr 1
  omega

/-- A host is read by the type that it then has. -/
theorem takes_host {type : HostAddrType} (htype : isIPType type = true) :
    Takes ReadStream.cursor (IPAddress.read (type == HostAddrType.ipv4)) fun bs ip =>
      bs = ip.bytes ∧ ip.type = type := by
  rw [isIPType, Bool.or_eq_true, beq_iff_eq, beq_iff_eq] at htype
  rcases htype with rfl | rfl
  · refine IPAddress.takes_v4.mono ?_
    rintro bs ip ⟨hbs, h4⟩
    exact ⟨hbs, by rw [IPAddress.type, h4]; rfl⟩
  · refine IPAddress.takes_v6.mono ?_
    rintro bs ip ⟨hbs, h6⟩
    exact ⟨hbs, by rw [IPAddress.type, h6]; rfl⟩

/-- Only the reserved bytes of an accepted header are not in its fields. -/
theorem takes_bytes : Takes ReadStream.cursor read fun bs h =>
    (∃ reserved, reserved.length = 2 ∧ bs = h.bytesWith reserved) ∧ h.fl.toNat < 2 ^ 20 ∧
      minSize / 4 ≤ h.hlen.toNat := by
  intro pre post h s hrun
  obtain ⟨v, s₁, hver, hrun⟩ := bind_eq_ok.mp hrun
  obtain ⟨_, r₁, rfl, rfl, rfl, hfl⟩ := takes_versionWord _ _ _ _ hver
  obtain ⟨nh, s₂, hnh, hrun⟩ := bind_eq_ok.mp hrun
  obtain ⟨_, r₂, rfl, rfl, rfl⟩ := takes_byte _ _ _ _ hnh
  obtain ⟨hlen, s₃, hhlen, hrun⟩ := bind_eq_ok.mp hrun
  obtain ⟨_, r₃, rfl, rfl, rfl⟩ := takes_byte _ _ _ _ hhlen
  obtain ⟨hmin, hrun⟩ := ensure_bind_eq_ok.mp hrun
  obtain ⟨plen, s₄, hplen, hrun⟩ := bind_eq_ok.mp hrun
  obtain ⟨_, r₄, rfl, rfl, rfl⟩ := takes_uint16 _ _ _ _ hplen
  obtain ⟨ptype, s₅, hptype, hrun⟩ := bind_eq_ok.mp hrun
  obtain ⟨_, r₅, rfl, rfl, rfl⟩ := takes_byte _ _ _ _ hptype
  obtain ⟨types, s₆, htypes, hrun⟩ := bind_eq_ok.mp hrun
  obtain ⟨_, r₆, rfl, rfl, rfl⟩ := takes_types _ _ _ _ htypes
  obtain ⟨hdst, hrun⟩ := ensure_bind_eq_ok.mp hrun
  obtain ⟨hsrc, hrun⟩ := ensure_bind_eq_ok.mp hrun
  obtain ⟨u, s₇, hskip, hrun⟩ := bind_eq_ok.mp hrun
  obtain ⟨reserved, r₇, rfl, rfl, hreserved⟩ := takes_advanceBytes 2 _ _ _ _ hskip
  obtain ⟨dstIA, s₈, hdstIA, hrun⟩ := bind_eq_ok.mp hrun
  obtain ⟨_, r₈, rfl, rfl, rfl⟩ := IsdAsn.takes _ _ _ _ hdstIA
  obtain ⟨srcIA, s₉, hsrcIA, hrun⟩ := bind_eq_ok.mp hrun
  obtain ⟨_, r₉, rfl, rfl, rfl⟩ := IsdAsn.takes _ _ _ _ hsrcIA
  obtain ⟨dstHost, s₁₀, hdstHost, hrun⟩ := bind_eq_ok.mp hrun
  obtain ⟨_, r₁₀, rfl, rfl, rfl, hdstType⟩ := takes_host hdst _ _ _ _ hdstHost
  obtain ⟨srcHost, s₁₁, hsrcHost, hrun⟩ := bind_eq_ok.mp hrun
  obtain ⟨_, r₁₁, rfl, rfl, rfl, hsrcType⟩ := takes_host hsrc _ _ _ _ hsrcHost
  cases hrun
  refine ⟨_, r₁₁, ?_, ?_, ⟨reserved, hreserved, rfl⟩, hfl, of_decide_eq_true hmin⟩
  · simp only [bytesWith, hdstType, hsrcType, List.append_assoc]
  · simp only [bytesWith, hdstType, hsrcType, List.append_assoc]

@[simp] theorem length_bytesWith (h : SCION) {reserved : List UInt8}
    (hreserved : reserved.length = 2) : (h.bytesWith reserved).length = h.size := by
  have hzeros := h.length_bytes
  rw [bytes_eq_bytesWith] at hzeros
  simp only [bytesWith, List.length_append, List.length_replicate, hreserved] at hzeros ⊢
  exact hzeros

/-- The reserved bytes are those at 10 and 11. -/
theorem exists_bytesWith_eq (h : SCION) :
    ∃ front back : List UInt8, front.length = 10 ∧
      ∀ reserved, h.bytesWith reserved = front ++ (reserved ++ back) :=
  ⟨beBytes 4 (versionWord h.qos h.fl) ++ ([h.nh] ++ ([h.hlen] ++ (beBytes 2 h.plen.toNat ++
      ([h.ptype] ++ beBytes 1 (h.dst.host.type.toNat * 16 + h.src.host.type.toNat))))),
    h.dst.isdAsn.bytes ++ (h.src.isdAsn.bytes ++ (h.dst.host.bytes ++ h.src.host.bytes)),
    by simp, fun reserved => by simp only [bytesWith, List.append_assoc]⟩

theorem getElem?_bytesWith (h : SCION) {reserved : List UInt8} (hreserved : reserved.length = 2)
    {i : ℕ} (h10 : i ≠ 10) (h11 : i ≠ 11) : (h.bytesWith reserved)[i]? = h.bytes[i]? := by
  obtain ⟨front, back, hfront, hwith⟩ := h.exists_bytesWith_eq
  rw [bytes_eq_bytesWith, hwith, hwith]
  rcases Nat.lt_or_ge i 10 with hlt | hge
  · rw [List.getElem?_append_left (by omega), List.getElem?_append_left (by omega)]
  · rw [List.getElem?_append_right (by omega), List.getElem?_append_right (by omega),
      List.getElem?_append_right (by omega),
      List.getElem?_append_right (by rw [List.length_replicate]; omega), hreserved,
      List.length_replicate]

theorem onWire_eq_self {h : SCION} (hfl : h.fl.toNat < 2 ^ 20)
    (hdst : h.dst.host.withoutZone = h.dst.host) (hsrc : h.src.host.withoutZone = h.src.host) :
    h.onWire = h := by
  obtain ⟨qos, hlen, nh, ptype, plen, fl, ⟨dstIA, dstHost⟩, ⟨srcIA, srcHost⟩⟩ := h
  simp only [onWire, ScIPAddress.withoutZone] at hdst hsrc ⊢
  rw [hdst, hsrc, Nat.mod_eq_of_lt hfl, UInt32.ofNat_toNat]

/-- A header is read back from what is written for it, which is of its size. What is read is
written again, but for the reserved bytes. -/
theorem codec_roundTrip :
    (∀ h : SCION, h.fl.toNat < 2 ^ 20 → 9 ≤ h.hlen.toNat →
      h.dst.host.withoutZone = h.dst.host → h.src.host.withoutZone = h.src.host →
      ∃ bs, bs.length = h.size ∧ Writes WriteStream.cursor h.write bs ∧
        Reads ReadStream.cursor read bs h) ∧
    ∀ (pre buffer : List UInt8) (h : SCION) (s : ReadStream),
      read (ReadStream.cursor pre buffer) = .ok h s →
      ∃ bs rest bs', buffer = bs ++ rest ∧ s = ReadStream.cursor (pre ++ bs) rest ∧
        Writes WriteStream.cursor h.write bs' ∧ bs'.length = bs.length ∧
        ∀ i, i ≠ 10 → i ≠ 11 → bs'[i]? = bs[i]? := by
  constructor
  · intro h hfl hhlen hdst hsrc
    have hreads := reads h hhlen
    rw [onWire_eq_self hfl hdst hsrc] at hreads
    exact ⟨h.bytes, h.length_bytes, writes h, hreads⟩
  · intro pre buffer h s hread
    obtain ⟨bs, rest, rfl, rfl, ⟨reserved, hreserved, rfl⟩, -⟩ := takes_bytes pre buffer h s hread
    refine ⟨_, rest, h.bytes, rfl, rfl, writes h, ?_, fun i h10 h11 => ?_⟩
    · rw [length_bytes, length_bytesWith h hreserved]
    · exact (getElem?_bytesWith h hreserved h10 h11).symm

end SCION

/-! ### The TCP header -/

namespace TCP

/-- The fixed part of a header with a given byte for the data offset. -/
def fixedWith (h : TCP) (offset : UInt8) : List UInt8 :=
  beBytes 2 h.sport.toNat ++ (beBytes 2 h.dport.toNat ++ (beBytes 4 h.seq.toNat ++
    (beBytes 4 h.ack.toNat ++ ([offset] ++ ([h.flags] ++ (beBytes 2 h.window.toNat ++
      (beBytes 2 h.chksum.toNat ++ beBytes 2 h.urgptr.toNat)))))))

@[simp] theorem length_fixedWith (h : TCP) (offset : UInt8) : (h.fixedWith offset).length = 20 := by
  simp [fixedWith]

theorem getD_fixedWith (h : TCP) (offset : UInt8) (rest : List UInt8) :
    (h.fixedWith offset ++ rest).getD 12 0 = offset := by
  simp [fixedWith, beBytes]

/-- The data offset is the higher half of its byte, and at least five words. -/
theorem takes_offset : Takes ReadStream.cursor readOffset fun bs dataOffset =>
    ∃ b : UInt8, bs = [b] ∧ dataOffset.toNat = b.toNat / 16 ∧ 5 ≤ dataOffset.toNat := by
  have hoffset := ((readsBits_serializeBits 32 0 4 (by norm_num) (by norm_num)).map
    UInt64.toUInt32).takesField
  have hskip := fun v : UInt32 => ((readsBits_advanceBits 4 4 (by norm_num) (by norm_num)).map
    fun _ => v).takesField
  have hall : TakesField readOffset 0 (8 * 1) _ :=
    hoffset.bind (n := 4) fun v => TakesField.ensure (hskip v)
  refine hall.takes.mono ?_
  rintro bs dataOffset ⟨d, rfl, v, ⟨hlt, rfl⟩, hmin, hlow, rfl⟩
  rw [Bool.not_eq_true', decide_eq_false_iff_not, UInt32.lt_iff_toNat_lt, UInt64.toNat_toUInt32,
    UInt64.toNat_ofNat', show (5 : UInt32).toNat = 5 from rfl] at hmin
  refine ⟨UInt8.ofNat d, ?_, ?_, ?_⟩
  · simp [beBytes]
  · rw [UInt64.toNat_toUInt32, UInt64.toNat_ofNat', UInt8.toNat_ofNat']
    omega
  · rw [UInt64.toNat_toUInt32, UInt64.toNat_ofNat']
    omega

theorem takes_fixed (old : TCP) : Takes ReadStream.cursor (readFixed old) fun bs v =>
    ∃ offset : UInt8, bs = v.2.fixedWith offset ∧ v.1.toNat = offset.toNat / 16 ∧
      5 ≤ v.1.toNat ∧ v.2.optMask = {} ∧ v.2.options = old.options := by
  refine (takes_uint16.bind fun sport => takes_uint16.bind fun dport => takes_uint32.bind fun seq =>
    takes_uint32.bind fun ack => takes_offset.bind fun dataOffset => takes_byte.bind fun flags =>
      takes_uint16.bind fun window => takes_uint16.bind fun chksum => takes_uint16.bind_pure
        (g := fun urgptr => (dataOffset,
          (⟨flags, sport, dport, window, urgptr, seq, ack, chksum, {}, old.options⟩ : TCP)))).mono ?_
  rintro bs v ⟨_, sport, _, rfl, rfl, _, dport, _, rfl, rfl, _, seq, _, rfl, rfl, _, ack, _, rfl,
    rfl, hrest⟩
  obtain ⟨_, dataOffset, _, rfl, ⟨offset, rfl, hoffset, hmin⟩, _, flags, _, rfl, rfl, hrest⟩ := hrest
  obtain ⟨_, window, _, rfl, rfl, _, chksum, _, rfl, rfl, urgptr, rfl, rfl⟩ := hrest
  exact ⟨offset, rfl, hoffset, hmin, rfl, rfl⟩

theorem takes_readOptions (n : ℕ) (h : TCP) : Takes ReadStream.cursor (readOptions n h)
    fun bs g => bs.length = n ∧ ∃ s, parseOpts n h (ReadStream.ofBuffer bs) = .ok g s := by
  intro pre post g s hrun
  by_cases hshort : post.length < n
  · obtain ⟨e, s', herr⟩ := starves_readOptions n h pre post hshort
    rw [hrun] at herr
    cases herr
  · have hlen : (post.take n).length = n := by
      rw [List.length_take]
      omega
    have hparse : ∃ g' s', parseOpts n h (ReadStream.ofBuffer (post.take n)) = .ok g' s' := by
      cases hresult : parseOpts n h (ReadStream.ofBuffer (post.take n)) with
      | ok g' s' => exact ⟨g', s', rfl⟩
      | error e s' =>
        obtain ⟨e', s'', herr⟩ := readOptions_error hlen hresult pre (post.drop n)
        rw [List.take_append_drop, hrun] at herr
        cases herr
    obtain ⟨g', s', hparse⟩ := hparse
    have hread := readOptions_ok hlen hparse pre (post.drop n)
    rw [List.take_append_drop, hrun] at hread
    cases hread
    exact ⟨_, _, (List.take_append_drop n post).symm, rfl, hlen, s', hparse⟩

/-- An accepted header: its fixed part, and as many bytes of options as the data offset
says, from which the options are parsed. -/
structure Parsed (old : TCP) (bs : List UInt8) (g : TCP) where
  fixed : TCP
  offset : UInt8
  opts : List UInt8
  bytes_eq : bs = fixed.fixedWith offset ++ opts
  offset_min : 5 ≤ offset.toNat / 16
  length_opts : opts.length = 4 * (offset.toNat / 16 - 5)
  optMask_fixed : fixed.optMask = {}
  options_fixed : fixed.options = old.options
  result : ∃ s, parseOpts opts.length fixed (ReadStream.ofBuffer opts) = .ok g s

theorem takes (old : TCP) :
    Takes ReadStream.cursor (read old) fun bs g => Nonempty (Parsed old bs g) := by
  intro pre post g s hrun
  obtain ⟨⟨dataOffset, h⟩, s', hfixed, hrest⟩ := bind_eq_ok.mp hrun
  obtain ⟨_, rest, rfl, rfl, offset, rfl, hoffset, hmin, hmask, hoptions⟩ :=
    takes_fixed old _ _ _ _ hfixed
  replace hoffset : dataOffset.toNat = offset.toNat / 16 := hoffset
  replace hmin : 5 ≤ dataOffset.toNat := hmin
  by_cases hfive : dataOffset = 5
  · simp only [hfive, if_true] at hrest
    cases hrest
    rw [hfive, show (5 : UInt32).toNat = 5 from rfl] at hoffset
    refine ⟨_, rest, rfl, rfl, ⟨⟨_, offset, [], (List.append_nil _).symm, by omega, ?_, hmask,
      hoptions, _, rfl⟩⟩⟩
    rw [List.length_nil]
    omega
  · simp only [hfive, if_false] at hrest
    obtain ⟨opts, rest', rfl, rfl, hlen, hparse⟩ := takes_readOptions _ _ _ _ _ _ hrest
    rw [hoffset] at hlen hparse hmin
    refine ⟨h.fixedWith offset ++ opts, rest', (List.append_assoc ..).symm,
      by rw [List.append_assoc], ⟨⟨h, offset, opts, rfl, hmin, hlen, hmask, hoptions, ?_⟩⟩⟩
    rwa [hlen]

/-- The data offset of a header without options. -/
def plainOffset : UInt8 := 0x50

/-- A header without options is written as it was. -/
theorem Parsed.bytes_plain {old g : TCP} {bs : List UInt8} (p : Parsed old bs g)
    (hplain : bs.getD 12 0 = plainOffset) : bs = g.bytes ∧ g.optMask = {} := by
  obtain ⟨fixed, offset, opts, rfl, hmin, hlen, hmask, -, s, hparse⟩ := p
  rw [getD_fixedWith] at hplain
  subst hplain
  have hnil : opts = [] := List.length_eq_zero_iff.mp hlen
  subst hnil
  cases hparse
  have hsize : g.measureOpts = 0 := by simp [measureOpts, hmask]
  have hlist : g.optionList = [] := by simp [optionList, listIf, hmask]
  have hpadding : g.padding = 0 := by simp [padding, plainLen, lenBeforeTs, hmask]
  refine ⟨?_, hmask⟩
  rw [bytes, hlist, hpadding, fixedBytes, fixedWith, size, hsize]
  rfl

end TCP

end Scion
