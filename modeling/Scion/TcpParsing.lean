/-
What TCP options are read from (`hdr/tcp.hpp`).

The readers of the options are followed over unknown bytes: which of them an option takes, and
what it makes of them.

* `TcpOption.store` — what an option that was read does to a header;
* `decodes`, `fills` of the options — the bytes that a reader has taken decide alone what it
  stores;
* `OptionType`, `typeAt`, `taken` — the option that comes first in a list of bytes, and how
  many bytes its reader takes;
* `TCP.fills_option` — the body of the loop over the options.
-/
import Scion.AcceptedHeaders
import Scion.Filling

namespace Scion

open BigEndian Codec ReadStream

/-! ### Fields -/

theorem decodes_byte : Decodes cursor ReadStream.serializeByte fun bs b => bs = [b] :=
  takes_byte.decodes fun _ b h => h ▸ reads_byte b

theorem decodes_uint16 :
    Decodes cursor ReadStream.serializeUint16 fun bs v => bs = beBytes 2 v.toNat :=
  takes_uint16.decodes fun _ v h => h ▸ reads_uint16 v

theorem decodes_uint32 :
    Decodes cursor ReadStream.serializeUint32 fun bs v => bs = beBytes 4 v.toNat :=
  takes_uint32.decodes fun _ v h => h ▸ reads_uint32 v

theorem decodes_uint64 :
    Decodes cursor ReadStream.serializeUint64 fun bs v => bs = beBytes 8 v.toNat :=
  takes_uint64.decodes fun _ v h => h ▸ reads_uint64 v

theorem decodes_advanceBytes (n : ℕ) :
    Decodes cursor (ReadStream.advanceBytes n) fun bs _ => bs.length = n :=
  (takes_advanceBytes n).decodes fun bs _ h => reads_advanceBytes bs n h

theorem decodes_verifyByte (b : UInt8) (msg : String) :
    Decodes cursor (verifyByte b msg) fun bs _ => bs = [b] := by
  refine (decodes_byte.bind fun value => Decodes.check (value == b) msg).mono ?_
  rintro _ _ ⟨_, value, _, rfl, rfl, heq, rfl⟩
  rw [List.append_nil, beq_iff_eq.mp heq]

/-- The bits of a subtype that was verified. -/
theorem subtype_eq {subtype : UInt8} {d : ℕ} (hd : d < 2 ^ 4)
    (h : ((UInt64.ofNat d).toUInt8 == subtype) = true) : d = subtype.toNat := by
  rw [← beq_iff_eq.mp h, UInt64.toNat_toUInt8, UInt64.toNat_ofNat']
  omega

/-- Subtype and flags, which are the value. -/
theorem decodes_subtype {subtype : UInt8} {valueBits n k : ℕ} (hn : 1 ≤ n)
    (hmax : n ≤ min 57 valueBits) (hk : 4 + n = 8 * k) (hs : subtype.toNat < 16) :
    Decodes cursor (readSubtype subtype valueBits n) fun bs flags =>
      bs = subtypeBytes k subtype n flags ∧ flags.toNat < 2 ^ n := by
  have hfirst := (readsBits_serializeBits 8 0 4 (by norm_num) (by norm_num)).takesField
  have hsecond := (readsBits_serializeBits valueBits 4 n hn hmax).takesField
  have hfield : TakesField (readSubtype subtype valueBits n) 0 (4 + n) _ :=
    hfirst.bind fun temp => TakesField.ensure hsecond
  rw [hk] at hfield
  have hn57 : 2 ^ n ≤ 2 ^ 57 := Nat.pow_le_pow_right (by norm_num) (by omega)
  refine (hfield.takes.mono ?_).decodes ?_
  · rintro _ flags ⟨d, rfl, temp, ⟨hlt, rfl⟩, hcheck, hlow, rfl⟩
    have hhigh := subtype_eq hlt hcheck
    have hval : (UInt64.ofNat (d % 2 ^ n)).toNat = d % 2 ^ n := by
      rw [UInt64.toNat_ofNat']
      omega
    refine ⟨?_, by rwa [hval]⟩
    rw [subtypeBytes, hval, Nat.mod_mod, ← hhigh, Nat.div_add_mod']
  · rintro _ flags ⟨rfl, hlt⟩
    have hreads := reads_subtype hn hmax hk hs hlt
    rw [UInt64.ofNat_toNat] at hreads
    rw [subtypeBytes, Nat.mod_eq_of_lt hlt]
    exact hreads

/-- The bits that are skipped may be any. -/
theorem reads_subtypeSkipped {subtype : UInt8} {n k : ℕ} (hn : 1 ≤ n) (hmax : n < 32)
    (hk : 4 + n = 8 * k) (hs : subtype.toNat < 16) (reserved : UInt64) :
    Reads cursor (readSubtypeReserved subtype n) (subtypeBytes k subtype n reserved) () := by
  have hlow : reserved.toNat % 2 ^ n < 2 ^ n := Nat.mod_lt _ (by positivity)
  have hlt : subtype.toNat * 2 ^ n + reserved.toNat % 2 ^ n < 2 ^ (4 + n) := by
    rw [pow_add]
    calc subtype.toNat * 2 ^ n + reserved.toNat % 2 ^ n
        < subtype.toNat * 2 ^ n + 2 ^ n := by omega
      _ = (subtype.toNat + 1) * 2 ^ n := by ring
      _ ≤ 2 ^ 4 * 2 ^ n := Nat.mul_le_mul_right _ (by omega)
  have hbytes : beNat (subtypeBytes k subtype n reserved)
      = subtype.toNat * 2 ^ n + reserved.toNat % 2 ^ n := by
    rw [subtypeBytes, beNat_beBytes, show (256 : ℕ) = 2 ^ 8 from rfl, ← pow_mul, ← hk,
      Nat.mod_eq_of_lt hlt]
  exact (readsBits_serializeBits 8 0 4 (by norm_num) (by norm_num)).reads_ensure
    (fun temp => temp.toUInt8 == subtype) "incorrect MPTCP subtype"
    (y := fun _ => advanceBits n) (fun _ => readsBits_advanceBits 4 n hn hmax) hk
    (length_subtypeBytes k subtype n reserved) (by rw [hbytes]; exact toUInt8_subtype hs hlow)

/-- Subtype and bits that are skipped. -/
theorem decodes_subtypeReserved {subtype : UInt8} {n k : ℕ} (hn : 1 ≤ n) (hmax : n < 32)
    (hk : 4 + n = 8 * k) (hs : subtype.toNat < 16) :
    Decodes cursor (readSubtypeReserved subtype n) fun bs _ =>
      ∃ reserved : UInt64, bs = subtypeBytes k subtype n reserved := by
  have hfirst := (readsBits_serializeBits 8 0 4 (by norm_num) (by norm_num)).takesField
  have hsecond := (readsBits_advanceBits 4 n hn hmax).takesField
  have hfield : TakesField (readSubtypeReserved subtype n) 0 (4 + n) _ :=
    hfirst.bind fun temp => TakesField.ensure hsecond
  rw [hk] at hfield
  refine (hfield.takes.mono ?_).decodes ?_
  · rintro _ _ ⟨d, rfl, temp, ⟨hlt, rfl⟩, hcheck, hlow, -⟩
    have hhigh := subtype_eq hlt hcheck
    have hval : (UInt64.ofNat (d % 2 ^ n)).toNat = d % 2 ^ n := by
      have hpow : 2 ^ n ≤ 2 ^ 31 := Nat.pow_le_pow_right (by norm_num) (by omega)
      rw [UInt64.toNat_ofNat']
      omega
    refine ⟨UInt64.ofNat (d % 2 ^ n), ?_⟩
    rw [subtypeBytes, hval, Nat.mod_mod, ← hhigh, Nat.div_add_mod']
  · rintro _ _ ⟨reserved, rfl⟩
    exact reads_subtypeSkipped hn hmax hk hs reserved

/-- A field that is read when it is there. -/
theorem fills_if {ρ α : Type} {r : ρ → Reader α} {P : List UInt8 → (ρ → α) → Prop}
    (present : Bool) (h : Fills cursor r P) (field : ρ → α) :
    Fills cursor (fun old => readIf present (r old) (field old)) fun bs f =>
      if present then P bs f else bs = [] ∧ f = field := by
  cases present with
  | true => exact h.mono fun _ _ hP => hP
  | false => exact (Fills.pure field).mono fun _ _ hP => hP

/-- An integer field that is there or not. -/
theorem fills_field {ρ α : Type} {r : Reader α} {enc : α → List UInt8}
    (h : Decodes cursor r fun bs a => bs = enc a) (present : Bool) (field : ρ → α) (zero : α) :
    Fills cursor (fun old => readIf present r (field old)) fun bs f =>
      ∃ a, bs = bytesIf present (enc a) ∧ f = fun old => if present then a else field old := by
  refine (fills_if present h.fills field).mono ?_
  cases present with
  | true =>
    rintro bs f ⟨a, rfl, rfl⟩
    exact ⟨a, rfl, rfl⟩
  | false =>
    rintro bs f ⟨rfl, rfl⟩
    exact ⟨zero, rfl, rfl⟩

/-- Different slots that are read one after another. -/
theorem fills_slots {ρ α : Type} {k : ℕ} {r : Reader α} {enc : α → List UInt8}
    (h : Decodes cursor r fun bs a => bs = enc a) (zero : Vector α k) :
    ∀ (is : List (Fin k)), is.Nodup → ∀ field : ρ → Vector α k,
      Fills cursor (fun old => readSlots r is (field old)) fun bs f =>
        ∃ new : Vector α k, bs = (is.map fun i => enc (new.get i)).flatten ∧
          f = fun old =>
            is.foldl (fun v (i : Fin k) => v.set i (new.get i) i.isLt) (field old) := by
  intro is
  induction is with
  | nil =>
    intro _ field
    refine (Fills.pure field).mono ?_
    rintro bs f ⟨rfl, rfl⟩
    exact ⟨zero, rfl, rfl⟩
  | cons i is ih =>
    intro hnodup field
    obtain ⟨hnot, hrest⟩ := List.nodup_cons.mp hnodup
    refine (h.bind_fills fun a => ih hrest fun old => (field old).set i a).mono ?_
    rintro _ f ⟨_, a, _, rfl, rfl, new, rfl, rfl⟩
    have hself : (new.set i a).get i = a := by
      show (new.set i a)[i] = a
      simp
    have hother : ∀ j ∈ is, (new.set i a).get j = new.get j := fun j hj => by
      have hne : i.val ≠ j.val := fun heq => hnot (Fin.ext heq ▸ hj)
      show (new.set i a)[j] = new[j]
      simp [Vector.getElem_set_ne, hne]
    refine ⟨new.set i a, ?_, ?_⟩
    · rw [List.map_cons, List.flatten_cons, hself]
      congr 2
      exact List.map_congr_left fun j hj => by rw [hother j hj]
    · funext old
      rw [List.foldl_cons, hself]
      exact List.foldl_ext _ _ _ fun v j hj => by rw [hother j hj]

theorem nodup_firstSlots (k n : ℕ) : (firstSlots k n).Nodup :=
  (List.nodup_finRange k).sublist (List.take_sublist n _)

/-- The first `n` slots are read. -/
theorem fills_firstSlots {ρ α : Type} {k : ℕ} {r : Reader α} {enc : α → List UInt8}
    (h : Decodes cursor r fun bs a => bs = enc a) (zero : Vector α k) (n : ℕ)
    (field : ρ → Vector α k) :
    Fills cursor (fun old => readSlots r (firstSlots k n) (field old)) fun bs f =>
      ∃ new : Vector α k, bs = ((firstSlots k n).map fun i => enc (new.get i)).flatten ∧
        f = fun old => overlay n new (field old) := by
  refine (fills_slots h zero _ (nodup_firstSlots k n) field).mono ?_
  rintro bs f ⟨new, rfl, rfl⟩
  exact ⟨new, rfl, funext fun old => foldl_set_firstSlots n new (field old)⟩

/-! ### Options of plain TCP -/

theorem TcpMssOpt.decodes : Decodes cursor read fun bs o => bs = o.bytes := by
  refine ((decodes_verifyByte _ _).bind fun _ => (decodes_verifyByte _ _).bind fun _ =>
    decodes_uint16.bind_pure (g := mk)).mono ?_
  rintro _ o ⟨_, _, _, rfl, rfl, _, _, _, rfl, rfl, mss, rfl, rfl⟩
  rfl

theorem TcpWsOpt.decodes : Decodes cursor read fun bs o => bs = o.bytes := by
  refine ((decodes_verifyByte _ _).bind fun _ => (decodes_verifyByte _ _).bind fun _ =>
    decodes_byte.bind fun wndShift => (Decodes.pure (mk wndShift)).ensure).mono ?_
  rintro _ o ⟨_, _, _, rfl, rfl, _, _, _, rfl, rfl, _, wndShift, _, rfl, rfl, -, rfl, rfl⟩
  rfl

theorem TcpSAckPermOpt.decodes : Decodes cursor read fun bs o => bs = o.bytes := by
  refine ((decodes_verifyByte _ _).bind fun _ =>
    (decodes_verifyByte _ _).bind_pure (g := fun _ => mk)).mono ?_
  rintro _ o ⟨_, _, _, rfl, rfl, _, rfl, rfl⟩
  rfl

theorem TcpTsOpt.decodes : Decodes cursor read fun bs o => bs = o.bytes := by
  refine ((decodes_verifyByte _ _).bind fun _ => (decodes_verifyByte _ _).bind fun _ =>
    decodes_uint32.bind fun tsVal => decodes_uint32.bind_pure (g := mk tsVal)).mono ?_
  rintro _ o ⟨_, _, _, rfl, rfl, _, _, _, rfl, rfl, _, tsVal, _, rfl, rfl, tsEcr, rfl, rfl⟩
  rfl

theorem TcpSAckOpt.decodes_block :
    Decodes cursor readBlock fun bs block => bs = blockBytes block := by
  refine (decodes_uint32.bind fun left => decodes_uint32.bind_pure (g := Prod.mk left)).mono ?_
  rintro _ block ⟨_, left, _, rfl, rfl, right, rfl, rfl⟩
  rfl

theorem TcpSAckOpt.fills :
    Fills cursor read fun bs f => ∃ o : TcpSAckOpt,
      f = o.onto ∧ bs = o.bytes ∧ o.blocks.toNat ≤ maxBlocks := by
  refine ((decodes_verifyByte _ _).bind_fills fun _ => decodes_byte.bind_fills fun temp =>
    Fills.ensure ((fills_firstSlots decodes_block (Vector.replicate 3 (0, 0)) _ edges).bind_pure
      (g := fun _ edges => mk ((temp - 2) / 8) edges))).mono ?_
  rintro _ f ⟨_, _, _, rfl, rfl, _, temp, _, rfl, rfl, htemp, _, ⟨new, rfl, rfl⟩, rfl⟩
  have hsize : temp = UInt8.ofNat (size ⟨(temp - 2) / 8, new⟩) ∧
      ((temp - 2) / 8).toNat ≤ maxBlocks := by
    simp only [Bool.or_eq_true, beq_iff_eq] at htemp
    rcases htemp with (rfl | rfl) | rfl <;> exact ⟨rfl, by decide⟩
  refine ⟨⟨(temp - 2) / 8, new⟩, rfl, ?_, hsize.2⟩
  rw [bytes, ← hsize.1]
  rfl

/-! ### MPTCP options -/

/-- An MPTCP option of `size` bytes with a given length byte. -/
structure MptcpFrame (subtype length : UInt8) (size : ℕ) (bs : List UInt8) : Prop where
  parts : ∃ (k n : ℕ) (flags : UInt64) (rest : List UInt8), 4 + n = 8 * (k + 1) ∧
    bs = [TcpOptKind.mptcp] ++ ([length] ++ (subtypeBytes (k + 1) subtype n flags ++ rest))
  length_eq : bs.length = size

/-- Four bits of flags that are kept in a byte. -/
theorem decodes_flags8 {subtype : UInt8} (hs : subtype.toNat < 16) :
    Decodes cursor (UInt64.toUInt8 <$> readSubtype subtype 8 4) fun bs v =>
      bs = subtypeBytes 1 subtype 4 v.toUInt64 ∧ v.toNat < 16 := by
  refine ((decodes_subtype (n := 4) (k := 1) (by norm_num) (by norm_num) (by norm_num)
    hs).map UInt64.toUInt8).mono ?_
  rintro _ v ⟨flags, ⟨rfl, hlt⟩, rfl⟩
  have hval : flags.toUInt8.toNat = flags.toNat := by
    rw [UInt64.toNat_toUInt8]
    omega
  refine ⟨?_, by rwa [hval]⟩
  rw [subtypeBytes, subtypeBytes, UInt8.toNat_toUInt64, hval]

/-- Flags that are kept in a 16-bit word. -/
theorem decodes_flags16 {subtype : UInt8} {k n : ℕ} (hs : subtype.toNat < 16) (hn : 1 ≤ n)
    (hmax : n ≤ 16) (hk : 4 + n = 8 * k) :
    Decodes cursor (UInt64.toUInt16 <$> readSubtype subtype 16 n) fun bs v =>
      bs = subtypeBytes k subtype n v.toUInt64 ∧ v.toNat < 2 ^ n := by
  refine ((decodes_subtype hn (by omega) hk hs).map UInt64.toUInt16).mono ?_
  rintro _ v ⟨flags, ⟨rfl, hlt⟩, rfl⟩
  have hpow : 2 ^ n ≤ 2 ^ 16 := Nat.pow_le_pow_right (by norm_num) hmax
  have hval : flags.toUInt16.toNat = flags.toNat := by
    rw [UInt64.toNat_toUInt16]
    omega
  refine ⟨?_, by rwa [hval]⟩
  rw [subtypeBytes, subtypeBytes, UInt16.toNat_toUInt64, hval]

/-- The lengths that stand for fields. -/
theorem TcpMpCapableMask.size_ofLength {length : UInt8} {m : TcpMpCapableMask}
    (h : ofLength length = some m) : UInt8.ofNat m.size = length := by
  rw [ofLength] at h
  split_ifs at h with h4 h12 h20 h22 h24 <;> cases h <;> subst length <;> rfl

theorem TcpMpCapableOpt.fills :
    Fills cursor read fun bs f => ∃ o : TcpMpCapableOpt, f = o.onto ∧
      MptcpFrame TcpMpSubtype.mpCapable (UInt8.ofNat o.size) o.size bs := by
  refine ((decodes_verifyByte _ _).bind_fills fun _ => decodes_byte.bind_fills fun length =>
    Fills.ensure ((decodes_flags8 (by decide)).bind_fills fun version =>
      decodes_byte.bind_fills fun flags =>
        (fills_field decodes_uint64 _ senderKey 0).bind fun sKey =>
          (fills_field decodes_uint64 _ receiverKey 0).bind fun rKey =>
            (fills_field decodes_uint16 _ dataLevelLen 0).bind fun len =>
              (fills_field decodes_uint16 _ chksum 0).bind_pure (g := fun old chk =>
                (⟨(TcpMpCapableMask.ofLength length).getD {}, version, flags, sKey old, rKey old,
                  len old, chk⟩ : TcpMpCapableOpt)))).mono ?_
  rintro _ f ⟨_, _, _, rfl, rfl, _, length, _, rfl, rfl, hlength, _, version, _, rfl, ⟨rfl, -⟩,
    hrest⟩
  obtain ⟨_, flags, _, rfl, rfl, _, _, _, rfl, ⟨sKey, rfl, rfl⟩, _, _, _, rfl, ⟨rKey, rfl, rfl⟩,
    _, _, _, rfl, ⟨len, rfl, rfl⟩, _, ⟨chk, rfl, rfl⟩, rfl⟩ := hrest
  obtain ⟨m, hm⟩ := Option.isSome_iff_exists.mp hlength
  have hsize := TcpMpCapableMask.size_ofLength hm
  rw [hm, Option.getD_some]
  have hbytes := length_bytes ⟨m, version, flags, sKey, rKey, len, chk⟩
  rw [bytes, size, hsize] at hbytes
  exact ⟨⟨m, version, flags, sKey, rKey, len, chk⟩, rfl,
    ⟨0, 4, version.toUInt64, _, by norm_num, by rw [size, hsize]⟩, hbytes⟩

/-- Without the MAC, MP_JOIN has flags of four bits and an ID in front of two numbers. -/
theorem TcpMpJoinOpt.decodes_numbers {α : Type} {r : Reader α} {enc : α → List UInt8} {n : ℕ}
    (h : Decodes cursor r fun bs a => bs = enc a) (henc : ∀ a, (enc a).length = n)
    (g : UInt8 → UInt8 → α → UInt32 → TcpMpJoinOpt) :
    Decodes cursor (do
        let flags ← UInt64.toUInt8 <$> readSubtype TcpMpSubtype.mpJoin 8 4
        let addressId ← ReadStream.serializeByte
        let first ← r
        let senderRand ← ReadStream.serializeUint32
        pure (g flags addressId first senderRand))
      fun bs o => ∃ flags addressId first senderRand, o = g flags addressId first senderRand ∧
        ∃ rest, bs = subtypeBytes 1 TcpMpSubtype.mpJoin 4 flags.toUInt64 ++ rest ∧
          rest.length = n + 5 := by
  refine ((decodes_flags8 (by decide)).bind fun flags => decodes_byte.bind fun addressId =>
    h.bind fun first => decodes_uint32.bind_pure (g := g flags addressId first)).mono ?_
  rintro _ o ⟨_, flags, _, rfl, ⟨rfl, -⟩, _, addressId, _, rfl, rfl, _, first, _, rfl, rfl,
    senderRand, rfl, rfl⟩
  refine ⟨flags, addressId, first, senderRand, rfl, _, rfl, ?_⟩
  rw [List.length_append, List.length_append, List.length_singleton, henc, length_beBytes]
  omega

/-- The MAC follows reserved bits. -/
theorem TcpMpJoinOpt.decodes_mac :
    Decodes cursor (do
        readSubtypeReserved TcpMpSubtype.mpJoin 12
        let senderMac ← ReadStream.serializeBytes 20
        pure (ack (Vector.ofFn fun i => senderMac.getD i 0)))
      fun bs o => ∃ mac reserved rest, o = ack mac ∧
        bs = subtypeBytes 2 TcpMpSubtype.mpJoin 12 reserved ++ rest ∧ rest.length = 20 := by
  have hbytes : Decodes cursor (ReadStream.serializeBytes 20) fun bs mac =>
      bs.length = 20 ∧ mac = bs :=
    (fixedRead_bytes 20).takes.decodes fun bs _ h => h.2 ▸ reads_bytes bs 20 h.1
  have hsubtype : TcpMpSubtype.mpJoin.toNat < 16 := by decide
  have hreserved := decodes_subtypeReserved (n := 12) (k := 2) (by norm_num) (by norm_num)
    (by norm_num) hsubtype
  refine (hreserved.bind fun _ => hbytes.bind_pure).mono ?_
  rintro _ o ⟨_, _, rest, rfl, ⟨reserved, rfl⟩, mac, ⟨hlen, -⟩, rfl⟩
  exact ⟨_, reserved, rest, rfl, rfl, hlen⟩

theorem TcpMpJoinOpt.decodes :
    Decodes cursor read fun bs o =>
      MptcpFrame TcpMpSubtype.mpJoin (UInt8.ofNat o.size) o.size bs := by
  refine ((decodes_verifyByte _ _).bind fun _ => decodes_byte.bind
    (Q := fun length bs (o : TcpMpJoinOpt) => length = UInt8.ofNat o.size ∧
      ∃ (k n : ℕ) (flags : UInt64) (rest : List UInt8), 4 + n = 8 * (k + 1) ∧
        bs = subtypeBytes (k + 1) TcpMpSubtype.mpJoin n flags ++ rest ∧
        k + 1 + rest.length + 2 = o.size) fun length => ?_).mono ?_
  · split_ifs with h12 h16 h24
    · refine (decodes_numbers decodes_uint32 (fun _ => length_beBytes _ _) syn).mono ?_
      rintro _ o ⟨flags, addressId, first, senderRand, rfl, rest, rfl, hlen⟩
      exact ⟨h12, 0, 4, flags.toUInt64, rest, by norm_num, rfl, by rw [hlen, size]⟩
    · refine (decodes_numbers decodes_uint64 (fun _ => length_beBytes _ _) synAck).mono ?_
      rintro _ o ⟨flags, addressId, first, senderRand, rfl, rest, rfl, hlen⟩
      exact ⟨h16, 0, 4, flags.toUInt64, rest, by norm_num, rfl, by rw [hlen, size]⟩
    · refine decodes_mac.mono ?_
      rintro _ o ⟨mac, reserved, rest, rfl, rfl, hlen⟩
      exact ⟨h24, 1, 12, reserved, rest, by norm_num, rfl, by rw [hlen, size]⟩
    · exact Decodes.throw _ _
  · rintro _ o ⟨_, _, _, rfl, rfl, _, length, _, rfl, rfl, rfl, k, n, flags, rest, hk, rfl, hlen⟩
    refine ⟨⟨k, n, flags, rest, hk, rfl⟩, ?_⟩
    rw [← hlen]
    simp only [List.length_append, List.length_singleton, length_subtypeBytes]
    omega

theorem TcpMpRemAddrOpt.fills :
    Fills cursor read fun bs f => ∃ o : TcpMpRemAddrOpt, f = o.onto ∧
      MptcpFrame TcpMpSubtype.removeAddr (UInt8.ofNat o.size) o.size bs := by
  refine ((decodes_verifyByte _ _).bind_fills fun _ => decodes_byte.bind_fills fun length =>
    Fills.ensure ((decodes_subtypeReserved (n := 4) (k := 1) (by norm_num) (by norm_num)
      (by norm_num) (by decide)).bind_fills fun _ => Fills.ensure
        ((fills_firstSlots decodes_byte (Vector.replicate 8 0) _ addressIds).bind_pure
          (g := fun _ ids => mk ids (length.toUInt32 - minLength.toUInt32 + 1))))).mono ?_
  rintro _ f ⟨_, _, _, rfl, rfl, _, length, _, rfl, rfl, hmin, _, _, _, rfl, ⟨reserved, rfl⟩,
    hmax, _, ⟨new, rfl, rfl⟩, rfl⟩
  set count : UInt32 := length.toUInt32 - minLength.toUInt32 + 1 with hcount
  -- the count that the length stands for
  have hnum : count.toNat + 3 = length.toNat ∧ count.toNat ≤ 8 ∧ 1 ≤ count.toNat := by
    have hlt := length.toNat_lt
    rw [Bool.not_eq_true', decide_eq_false_iff_not, UInt8.not_lt, UInt8.le_iff_toNat_le,
      show minLength.toNat = 4 from rfl] at hmin
    rw [Bool.not_eq_true', decide_eq_false_iff_not, UInt32.not_lt, UInt32.le_iff_toNat_le,
      show (8 : UInt32).toNat = 8 from rfl] at hmax
    have hval : count.toNat = length.toNat - 3 := by
      rw [hcount, UInt32.toNat_add, UInt32.toNat_sub, UInt8.toNat_toUInt32, UInt8.toNat_toUInt32,
        show minLength.toNat = 4 from rfl, show (1 : UInt32).toNat = 1 from rfl]
      omega
    omega
  have hids : numIds ⟨new, count⟩ = count.toNat := by
    show max 1 (min count.toNat 8) = count.toNat
    omega
  have hsize : size ⟨new, count⟩ = length.toNat := by
    rw [size, hids]
    omega
  refine ⟨⟨new, count⟩, ?_, ⟨0, 4, reserved, _, by norm_num,
    by rw [hsize, UInt8.ofNat_toNat]⟩, ?_⟩
  · funext old
    rw [onto, hids]
  · have hones : ∀ c ∈ (firstSlots 8 count.toNat).map fun i : Fin 8 => [new.get i], c.length = 1 :=
      List.forall_mem_map.mpr fun i _ => rfl
    have hflat := Records.length_flatten hones
    rw [List.length_map, length_firstSlots] at hflat
    rw [hsize]
    simp only [List.length_append, List.length_singleton, length_subtypeBytes, hflat]
    omega

theorem TcpMpPrioOpt.decodes :
    Decodes cursor read fun bs o =>
      MptcpFrame TcpMpSubtype.mpPrio (UInt8.ofNat o.size) o.size bs := by
  refine ((decodes_verifyByte _ _).bind fun _ => (decodes_verifyByte _ _).bind fun _ =>
    (decodes_flags8 (by decide)).bind_pure
      (g := fun temp => (⟨temp &&& 1 != 0⟩ : TcpMpPrioOpt))).mono ?_
  rintro _ _ ⟨_, _, _, rfl, rfl, _, _, _, rfl, rfl, temp, ⟨rfl, -⟩, rfl⟩
  exact ⟨⟨0, 4, temp.toUInt64, [], by norm_num, by rw [List.append_nil]; rfl⟩, rfl⟩

/-- MP_FAIL and MP_FASTCLOSE. -/
theorem decodes_mpWord {subtype : UInt8} (hs : subtype.toNat < 16) (wrongLength : String) :
    Decodes cursor (readMpWord subtype wrongLength) fun bs _ =>
      MptcpFrame subtype mpWordLength mpWordLength.toNat bs := by
  refine ((decodes_verifyByte _ _).bind fun _ => (decodes_verifyByte _ _).bind fun _ =>
    (decodes_subtypeReserved (n := 12) (k := 2) (by norm_num) (by norm_num) (by norm_num)
      hs).bind fun _ => decodes_uint64).mono ?_
  rintro _ x ⟨_, _, _, rfl, rfl, _, _, _, rfl, rfl, _, _, _, rfl, ⟨reserved, rfl⟩, rfl⟩
  exact ⟨⟨1, 12, reserved, _, by norm_num, rfl⟩, rfl⟩

theorem TcpMpFailOpt.decodes :
    Decodes cursor read fun bs o =>
      MptcpFrame TcpMpSubtype.mpFail (UInt8.ofNat o.size) o.size bs :=
  ((decodes_mpWord (by decide) _).map mk).mono fun _ _ ⟨_, h, _⟩ => h

theorem TcpMpCloseOpt.decodes :
    Decodes cursor read fun bs o =>
      MptcpFrame TcpMpSubtype.mpFastclose (UInt8.ofNat o.size) o.size bs :=
  ((decodes_mpWord (by decide) _).map mk).mono fun _ _ ⟨_, h, _⟩ => h

theorem TcpMpRstOpt.decodes :
    Decodes cursor read fun bs o =>
      MptcpFrame TcpMpSubtype.mpTcprst (UInt8.ofNat o.size) o.size bs := by
  refine ((decodes_verifyByte _ _).bind fun _ => (decodes_verifyByte _ _).bind fun _ =>
    (decodes_flags8 (by decide)).bind fun flags => decodes_byte.bind_pure (g := mk flags)).mono ?_
  rintro _ _ ⟨_, _, _, rfl, rfl, _, _, _, rfl, rfl, _, flags, _, rfl, ⟨rfl, -⟩, reason, rfl, rfl⟩
  exact ⟨⟨0, 4, flags.toUInt64, [reason], by norm_num, rfl⟩, rfl⟩

/-! ### DSS -/

/-- A sequence number of four or eight bytes. -/
theorem TcpMpDssOpt.fills_seq {ρ : Type} (eight : Bool) (field : ρ → UInt64) :
    Fills cursor (fun old => readSeq eight (field old)) fun bs f =>
      ∃ x, bs = seqBytes eight x ∧ f = fun old => seqOnto eight x (field old) := by
  cases eight with
  | true =>
    refine decodes_uint64.fills.mono ?_
    rintro _ f ⟨x, rfl, rfl⟩
    exact ⟨x, rfl, rfl⟩
  | false =>
    refine (decodes_uint32.fills.bind_pure (g := fun old => setU32 (field old))).mono ?_
    rintro _ f ⟨_, ⟨x, rfl, rfl⟩, rfl⟩
    refine ⟨x.toUInt64, ?_, ?_⟩
    · simp [seqBytes]
    · simp [seqOnto]

theorem TcpMpDssOpt.fills_seqIf {ρ : Type} (present eight : Bool) (field : ρ → UInt64) :
    Fills cursor (fun old => readIf present (readSeq eight (field old)) (field old)) fun bs f =>
      ∃ x, bs = bytesIf present (seqBytes eight x) ∧
        f = fun old => if present then seqOnto eight x (field old) else field old := by
  refine (fills_if present (fills_seq eight field) field).mono ?_
  cases present with
  | true => exact fun _ _ h => h
  | false =>
    rintro _ f ⟨rfl, rfl⟩
    exact ⟨0, rfl, rfl⟩

/-- A DSS option, the fields of which are told by its flags. -/
structure DssFrame (o : TcpMpDssOpt) (length : UInt8) (bs : List UInt8) : Prop where
  flags_lt : o.flags.toNat < 2 ^ 12
  chksum_eq : o.chksum.isSome
    = decide ((length.toNat : ℤ) - TcpMpDssOpt.sizeOfFlags o.flags ≥ 2)
  parts : ∃ rest, bs = [TcpOptKind.mptcp] ++ ([length] ++
    (subtypeBytes 2 TcpMpSubtype.dss 12 o.flags.toUInt64 ++ rest))
  length_eq : bs.length = o.size

/-- The checksum is there or not. -/
theorem decodes_optional (present : Bool) :
    Decodes cursor (readIf present (some <$> ReadStream.serializeUint16) none) fun bs v =>
      v.isSome = present ∧ bs = bytesIf present (beBytes 2 (v.getD 0).toNat) := by
  cases present with
  | true =>
    refine (decodes_uint16.map some).mono ?_
    rintro _ v ⟨x, rfl, rfl⟩
    exact ⟨rfl, rfl⟩
  | false =>
    refine (Decodes.pure none).mono ?_
    rintro _ v ⟨rfl, rfl⟩
    exact ⟨rfl, rfl⟩

theorem TcpMpDssOpt.fills :
    Fills cursor read fun bs f => ∃ (o : TcpMpDssOpt) (length : UInt8),
      f = o.onto ∧ DssFrame o length bs := by
  refine ((decodes_verifyByte _ _).bind_fills fun _ => decodes_byte.bind_fills fun length =>
    (decodes_flags16 (n := 12) (k := 2) (by decide) (by norm_num) (by norm_num)
      (by norm_num)).bind_fills fun flags => (fills_seqIf _ _ dataAck).bind fun ack =>
        (fills_seqIf _ _ dsn).bind fun seq => (fills_field decodes_uint32 _ subflowSeq 0).bind
          fun sub => (fills_field decodes_uint16 _ dataLevelLen 0).bind fun len =>
            (decodes_optional _).fills.bind_pure (g := fun old chk =>
              (⟨flags, ack old, seq old, sub old, len old, chk⟩ : TcpMpDssOpt))).mono ?_
  rintro _ f ⟨_, _, _, rfl, rfl, _, length, _, rfl, rfl, _, flags, _, rfl, ⟨rfl, hflags⟩, hrest⟩
  obtain ⟨_, _, _, rfl, ⟨ack, rfl, rfl⟩, _, _, _, rfl, ⟨seq, rfl, rfl⟩, hrest⟩ := hrest
  obtain ⟨_, _, _, rfl, ⟨sub, rfl, rfl⟩, _, _, _, rfl, ⟨len, rfl, rfl⟩, _, ⟨chk, rfl, hchk, rfl⟩,
    rfl⟩ := hrest
  have hbytes := length_bytes ⟨flags, ack, seq, sub, len, chk⟩
  refine ⟨⟨flags, ack, seq, sub, len, chk⟩, length, rfl, hflags, hchk, ⟨_, rfl⟩, ?_⟩
  rw [← hbytes, bytes, ← hchk]
  rfl

/-! ### ADD_ADDR -/

/-- The bytes between the ID of an ADD_ADDR option and its MAC, as the length has it. -/
def addAddrMiddle (length : UInt8) (flags : UInt16) : ℤ :=
  if !hasFlag flags TcpMpAddAddrOpt.flagEcho then (length.toNat : ℤ) - 4 - 8
  else (length.toNat : ℤ) - 4

/-- An ADD_ADDR option, where the length tells what address it has and whether a port. -/
structure AddAddrFrame (o : TcpMpAddAddrOpt) (length : UInt8) (bs : List UInt8) : Prop where
  flags_lt : o.flags.toNat < 2 ^ 4
  port_eq : o.port.isSome
    = (addAddrMiddle length o.flags = 6 || addAddrMiddle length o.flags = 18 : Bool)
  address_eq : o.address.is4
    = (addAddrMiddle length o.flags = 4 || addAddrMiddle length o.flags = 6 : Bool)
  parts : ∃ rest, bs = [TcpOptKind.mptcp] ++ ([length] ++
    (subtypeBytes 1 TcpMpSubtype.addAddr 4 o.flags.toUInt64 ++ rest))
  length_eq : bs.length = o.size

theorem decodes_ipAddress (v4 : Bool) :
    Decodes cursor (IPAddress.read v4) fun bs ip => bs = ip.bytes ∧ ip.is4 = v4 := by
  cases v4 with
  | true =>
    refine (decodes_uint32.bind_pure (g := IPAddress.v4)).mono ?_
    rintro _ ip ⟨v, rfl, rfl⟩
    exact ⟨rfl, rfl⟩
  | false =>
    refine (decodes_uint64.bind fun hi =>
      decodes_uint64.bind_pure (g := fun lo => IPAddress.v6 hi lo "")).mono ?_
    rintro _ ip ⟨_, hi, _, rfl, rfl, lo, rfl, rfl⟩
    exact ⟨rfl, rfl⟩

theorem TcpMpAddAddrOpt.fills :
    Fills cursor read fun bs f => ∃ (o : TcpMpAddAddrOpt) (length : UInt8),
      f = o.onto ∧ AddAddrFrame o length bs := by
  refine ((decodes_verifyByte _ _).bind_fills fun _ => decodes_byte.bind_fills fun length =>
    (decodes_flags16 (n := 4) (k := 1) (by decide) (by norm_num) (by norm_num)
      (by norm_num)).bind_fills fun flags => decodes_byte.bind_fills fun addressId =>
        (decodes_optional _).bind_fills fun port => (decodes_ipAddress _).bind_fills fun address =>
          (fills_field decodes_uint64 _ mac 0).bind_pure (g := fun _ mac =>
            (⟨flags, addressId, address, port, mac⟩ : TcpMpAddAddrOpt))).mono ?_
  rintro _ f ⟨_, _, _, rfl, rfl, _, length, _, rfl, rfl, _, flags, _, rfl, ⟨rfl, hflags⟩, hrest⟩
  obtain ⟨_, addressId, _, rfl, rfl, _, port, _, rfl, ⟨hport, rfl⟩, hrest⟩ := hrest
  obtain ⟨_, address, _, rfl, ⟨rfl, haddress⟩, _, ⟨mac, rfl, rfl⟩, rfl⟩ := hrest
  refine ⟨⟨flags, addressId, address, port, mac⟩, length, rfl, hflags, hport, haddress,
    ⟨_, rfl⟩, ?_⟩
  rw [← hport]
  simp only [List.length_append, length_bytesIf, List.length_singleton, length_subtypeBytes,
    length_beBytes, IPAddress.length_bytes, size]
  split_ifs <;> omega

/-! ### Where options end -/

/-- The options that are told apart, and those that are skipped. -/
inductive OptionType
  | mss | ws | sackPerm | sack | ts
  | mpCapable | mpJoin | mpDss | mpAddAddr | mpRemAddr | mpPrio | mpFail | mpClose | mpRst
  | other
  deriving DecidableEq, Repr

namespace OptionType

def ofSubtype (subtype : UInt8) : OptionType :=
  if subtype = TcpMpSubtype.mpCapable then mpCapable
  else if subtype = TcpMpSubtype.mpJoin then mpJoin
  else if subtype = TcpMpSubtype.dss then mpDss
  else if subtype = TcpMpSubtype.addAddr then mpAddAddr
  else if subtype = TcpMpSubtype.removeAddr then mpRemAddr
  else if subtype = TcpMpSubtype.mpPrio then mpPrio
  else if subtype = TcpMpSubtype.mpFail then mpFail
  else if subtype = TcpMpSubtype.mpFastclose then mpClose
  else if subtype = TcpMpSubtype.mpTcprst then mpRst
  else other

def ofKind (kind subtype : UInt8) : OptionType :=
  if kind = TcpOptKind.mss then mss
  else if kind = TcpOptKind.ws then ws
  else if kind = TcpOptKind.sackPerm then sackPerm
  else if kind = TcpOptKind.sack then sack
  else if kind = TcpOptKind.ts then ts
  else if kind = TcpOptKind.mptcp then ofSubtype subtype
  else other

end OptionType

/-- The length byte of the option that comes first. -/
def lengthAt (bs : List UInt8) : UInt8 := bs.getD 1 0

/-- The type of the option that comes first. -/
def typeAt (bs : List UInt8) : OptionType :=
  OptionType.ofKind (bs.headD 0) ((bs.take 3).getLastD 0 >>> 4)

/-- The flags of a DSS option that comes first. -/
def dssFlagsAt (bs : List UInt8) : UInt16 :=
  UInt16.ofNat (((bs.getD 2 0).toNat * 256 + (bs.getD 3 0).toNat) % 2 ^ 12)

/-- The flags of an ADD_ADDR option that comes first. -/
def addAddrFlagsAt (bs : List UInt8) : UInt16 := UInt16.ofNat ((bs.getD 2 0).toNat % 2 ^ 4)

/-- The number of bytes that the reader of the option that comes first takes. -/
def taken (bs : List UInt8) : ℕ :=
  match typeAt bs with
  | .mpDss =>
    let n := TcpMpDssOpt.sizeOfFlags (dssFlagsAt bs)
    n + if ((lengthAt bs).toNat : ℤ) - n ≥ 2 then 2 else 0
  | .mpAddAddr =>
    let n := addAddrMiddle (lengthAt bs) (addAddrFlagsAt bs)
    4 + (if n = 6 || n = 18 then 2 else 0) + (if n = 4 || n = 6 then 4 else 16)
      + if hasFlag (addAddrFlagsAt bs) TcpMpAddAddrOpt.flagEcho then 0 else 8
  | .other => if bs.headD 0 = TcpOptKind.noOp then 1 else max (lengthAt bs).toNat 2
  | _ => (lengthAt bs).toNat

namespace TcpOption

/-- What an option that was read does to a header. -/
def store : TcpOption → TCP → TCP
  | noOp, h => h
  | mss o, h => h.withMss o
  | ws o, h => h.withWs o
  | sackPerm o, h => h.withSackPerm o
  | sack o, h => h.withSack (o.onto h.options.sack)
  | ts o, h => h.withTs o
  | mpCapable o, h => h.withMpCapable (o.onto h.options.mpCap)
  | mpJoin o, h => h.withMpJoin o
  | mpDss o, h => h.withMpDss (o.onto h.options.mpDss)
  | mpAddAddr o, h => h.withMpAddAddr (o.onto h.options.mpAdd)
  | mpRemAddr o, h => h.withMpRemAddr (o.onto h.options.mpRem)
  | mpPrio o, h => h.withMpPrio o
  | mpFail o, h => h.withMpFail o
  | mpClose o, h => h.withMpClose o
  | mpRst o, h => h.withMpRst o

/-- The type of an option; nothing is stored for the no-op option and those that are
skipped. -/
def type : TcpOption → OptionType
  | noOp => .other
  | mss _ => .mss
  | ws _ => .ws
  | sackPerm _ => .sackPerm
  | sack _ => .sack
  | ts _ => .ts
  | mpCapable _ => .mpCapable
  | mpJoin _ => .mpJoin
  | mpDss _ => .mpDss
  | mpAddAddr _ => .mpAddAddr
  | mpRemAddr _ => .mpRemAddr
  | mpPrio _ => .mpPrio
  | mpFail _ => .mpFail
  | mpClose _ => .mpClose
  | mpRst _ => .mpRst

def size : TcpOption → ℕ
  | noOp => 1
  | mss o => o.size
  | ws o => o.size
  | sackPerm o => o.size
  | sack o => o.size
  | ts o => o.size
  | mpCapable o => o.size
  | mpJoin o => o.size
  | mpDss o => o.size
  | mpAddAddr o => o.size
  | mpRemAddr o => o.size
  | mpPrio o => o.size
  | mpFail o => o.size
  | mpClose o => o.size
  | mpRst o => o.size

/-- The bytes of an option that was read, with any others behind them. -/
structure Occupies (o : TcpOption) (bs : List UInt8) : Prop where
  type_eq : ∀ rest, typeAt (bs ++ rest) = o.type
  taken_eq : ∀ rest, taken (bs ++ rest) = bs.length
  size_eq : o.type ≠ .other → o.size = bs.length

/-- An option of plain TCP. -/
theorem occupies_plain {o : TcpOption} {kind length : UInt8} {rest : List UInt8}
    (htype : ∀ subtype, OptionType.ofKind kind subtype = o.type)
    (hplain : o.type ≠ .mpDss ∧ o.type ≠ .mpAddAddr ∧ o.type ≠ .other)
    (hlen : (kind :: length :: rest).length = length.toNat) (hsize : o.size = length.toNat) :
    o.Occupies (kind :: length :: rest) := by
  have hat : ∀ rest', typeAt (kind :: length :: rest ++ rest') = o.type := fun _ => htype _
  refine ⟨hat, fun rest' => ?_, fun _ => hsize.trans hlen.symm⟩
  obtain ⟨hdss, hadd, hother⟩ := hplain
  rw [taken, hat, hlen]
  cases ho : o.type <;> first | rfl | contradiction

/-- The type of an MPTCP option is that of its subtype. -/
theorem typeAt_mptcp {k n : ℕ} {subtype : UInt8} (hk : 4 + n = 8 * (k + 1))
    (hs : subtype.toNat < 16) (length : UInt8) (flags : UInt64) (rest : List UInt8) :
    typeAt ([TcpOptKind.mptcp] ++ ([length] ++ (subtypeBytes (k + 1) subtype n flags ++ rest)))
      = OptionType.ofSubtype subtype := by
  rw [typeAt, subtype_third hk hs]
  rfl

/-- An MPTCP option as long as its length byte says. -/
theorem occupies_mptcp {o : TcpOption} {subtype : UInt8} {bs : List UInt8}
    (h : MptcpFrame subtype (UInt8.ofNat o.size) o.size bs) (hs : subtype.toNat < 16)
    (htype : OptionType.ofSubtype subtype = o.type)
    (hplain : o.type ≠ .mpDss ∧ o.type ≠ .mpAddAddr ∧ o.type ≠ .other) (hsize : o.size < 256) :
    o.Occupies bs := by
  obtain ⟨⟨k, n, flags, rest, hk, rfl⟩, hlen⟩ := h
  have hat : ∀ rest', typeAt ([TcpOptKind.mptcp] ++ ([UInt8.ofNat o.size] ++
      (subtypeBytes (k + 1) subtype n flags ++ rest)) ++ rest') = o.type := fun rest' => by
    rw [List.append_assoc, List.append_assoc, List.append_assoc, typeAt_mptcp hk hs, htype]
  refine ⟨hat, fun rest' => ?_, fun _ => hlen.symm⟩
  obtain ⟨hdss, hadd, hother⟩ := hplain
  have hval : (UInt8.ofNat o.size).toNat = o.size := by
    rw [UInt8.toNat_ofNat']
    omega
  rw [taken, hat, hlen]
  cases ho : o.type <;> first | exact hval | contradiction

theorem occupies_dss {o : TcpMpDssOpt} {length : UInt8} {bs : List UInt8}
    (h : DssFrame o length bs) : (mpDss o).Occupies bs := by
  obtain ⟨hflags, hchksum, ⟨rest, rfl⟩, hlen⟩ := h
  have hat : ∀ rest', typeAt ([TcpOptKind.mptcp] ++ ([length] ++
      (subtypeBytes 2 TcpMpSubtype.dss 12 o.flags.toUInt64 ++ rest)) ++ rest') = .mpDss :=
    fun rest' => by
      rw [List.append_assoc, List.append_assoc, List.append_assoc,
        typeAt_mptcp (k := 1) (by norm_num) (by decide)]
      rfl
  have hflag : ∀ rest', dssFlagsAt ([TcpOptKind.mptcp] ++ ([length] ++
      (subtypeBytes 2 TcpMpSubtype.dss 12 o.flags.toUInt64 ++ rest)) ++ rest') = o.flags :=
    fun rest' => by
      show UInt16.ofNat (((UInt8.ofNat ((TcpMpSubtype.dss.toNat * 2 ^ 12
        + o.flags.toUInt64.toNat % 2 ^ 12) / 256 ^ 1)).toNat * 256
        + (UInt8.ofNat ((TcpMpSubtype.dss.toNat * 2 ^ 12
          + o.flags.toUInt64.toNat % 2 ^ 12) / 256 ^ 0)).toNat) % 2 ^ 12) = o.flags
      rw [← UInt16.toNat_inj, UInt16.toNat_ofNat', UInt8.toNat_ofNat', UInt8.toNat_ofNat',
        UInt16.toNat_toUInt64, show TcpMpSubtype.dss.toNat = 2 from rfl]
      omega
  refine ⟨hat, fun rest' => ?_, fun _ => hlen.symm⟩
  rw [taken, hat]
  simp only [hflag]
  rw [hlen, TcpMpDssOpt.size, hchksum]
  simp only [decide_eq_true_eq]
  rfl

theorem occupies_addAddr {o : TcpMpAddAddrOpt} {length : UInt8} {bs : List UInt8}
    (h : AddAddrFrame o length bs) : (mpAddAddr o).Occupies bs := by
  obtain ⟨hflags, hport, haddress, ⟨rest, rfl⟩, hlen⟩ := h
  have hat : ∀ rest', typeAt ([TcpOptKind.mptcp] ++ ([length] ++
      (subtypeBytes 1 TcpMpSubtype.addAddr 4 o.flags.toUInt64 ++ rest)) ++ rest') = .mpAddAddr :=
    fun rest' => by
      rw [List.append_assoc, List.append_assoc, List.append_assoc,
        typeAt_mptcp (k := 0) (by norm_num) (by decide)]
      rfl
  have hflag : ∀ rest', addAddrFlagsAt ([TcpOptKind.mptcp] ++ ([length] ++
      (subtypeBytes 1 TcpMpSubtype.addAddr 4 o.flags.toUInt64 ++ rest)) ++ rest') = o.flags :=
    fun rest' => by
      show UInt16.ofNat ((UInt8.ofNat ((TcpMpSubtype.addAddr.toNat * 2 ^ 4
        + o.flags.toUInt64.toNat % 2 ^ 4) / 256 ^ 0)).toNat % 2 ^ 4) = o.flags
      rw [← UInt16.toNat_inj, UInt16.toNat_ofNat', UInt8.toNat_ofNat', UInt16.toNat_toUInt64,
        show TcpMpSubtype.addAddr.toNat = 3 from rfl]
      omega
  refine ⟨hat, fun rest' => ?_, fun _ => hlen.symm⟩
  rw [taken, hat]
  simp only [hflag]
  rw [hlen, TcpMpAddAddrOpt.size, IPAddress.size, haddress, hport]
  change 4 + (if (addAddrMiddle length o.flags = 6 || addAddrMiddle length o.flags = 18 : Bool)
      then 2 else 0) + (if (addAddrMiddle length o.flags = 4
        || addAddrMiddle length o.flags = 6 : Bool) then 4 else 16)
      + (if hasFlag o.flags TcpMpAddAddrOpt.flagEcho then 0 else 8) = _
  split_ifs <;> simp_all

end TcpOption

/-! ### The body of the loop -/

/-- An option is stored in the header that it is read into. -/
theorem fills_store {ρ α : Type} {r : ρ → Reader α} {P : List UInt8 → (ρ → α) → Prop}
    (h : Fills cursor r P) (inner : TCP → ρ) (g : TCP → α → TCP) :
    Fills cursor (fun x => g x <$> r (inner x)) fun bs f =>
      ∃ read, P bs read ∧ f = fun x => g x (read (inner x)) := by
  refine ((h.comp inner).bind_pure (g := g)).mono ?_
  rintro bs _ ⟨_, ⟨read, hP, rfl⟩, rfl⟩
  exact ⟨read, hP, rfl⟩

/-- An option for which nothing has to be kept. -/
theorem fills_storeNew {α : Type} {r : Reader α} {P : List UInt8 → α → Prop}
    (h : Decodes cursor r P) (g : TCP → α → TCP) :
    Fills cursor (fun x => g x <$> r) fun bs f => ∃ o, P bs o ∧ f = fun x => g x o := by
  refine (h.fills.bind_pure (g := g)).mono ?_
  rintro bs _ ⟨_, ⟨o, rfl, hP⟩, rfl⟩
  exact ⟨o, hP, rfl⟩

namespace TCP

open TcpOption

/-- Some option occupies the bytes and is stored. -/
def Stores (bs : List UInt8) (f : TCP → TCP) : Prop :=
  ∃ o : TcpOption, f = o.store ∧ o.Occupies bs ∧ o.type ≠ .other

/-- Options with a length of their own are no longer than a byte can say. -/
theorem size_lt_of_type {o : TcpOption} (h : o.type ≠ .sack) : o.size < 256 := by
  cases o with
  | sack o => exact absurd rfl h
  | mpCapable o =>
    rw [TcpOption.size, TcpMpCapableOpt.size, TcpMpCapableMask.size]
    split_ifs <;> omega
  | mpJoin o => cases o <;> exact Nat.le_of_ble_eq_true rfl
  | mpDss o => exact lt_of_le_of_lt o.size_le (by norm_num)
  | mpAddAddr o => exact lt_of_le_of_lt o.size_le (by norm_num)
  | mpRemAddr o =>
    rw [TcpOption.size, TcpMpRemAddrOpt.size, TcpMpRemAddrOpt.numIds]
    omega
  | _ => exact Nat.le_of_ble_eq_true rfl

/-- An MPTCP option as long as its length byte says is stored. -/
theorem stores_mptcp {o : TcpOption} {subtype : UInt8} {bs : List UInt8}
    (h : MptcpFrame subtype (UInt8.ofNat o.size) o.size bs) (hs : subtype.toNat < 16)
    (htype : OptionType.ofSubtype subtype = o.type)
    (hplain : o.type ≠ .sack ∧ o.type ≠ .mpDss ∧ o.type ≠ .mpAddAddr ∧ o.type ≠ .other) :
    Stores bs o.store ∧ 3 ≤ bs.length := by
  refine ⟨⟨o, rfl, occupies_mptcp h hs htype hplain.2 (size_lt_of_type hplain.1),
    hplain.2.2.2⟩, ?_⟩
  obtain ⟨⟨k, n, flags, rest, hk, rfl⟩, -⟩ := h
  simp only [List.length_append, List.length_singleton, length_subtypeBytes]
  omega

theorem fills_subtype (subtype : UInt8) :
    Fills cursor (fun h : TCP => h.parseSubtype subtype) fun bs f =>
      Stores bs f ∧ 3 ≤ bs.length := by
  simp only [parseSubtype]
  split_ifs with hcap hjoin hdss hadd hrem hprio hfail hclose hrst
  · refine (fills_store TcpMpCapableOpt.fills (fun h => h.options.mpCap) withMpCapable).mono ?_
    rintro bs _ ⟨_, ⟨o, rfl, hframe⟩, rfl⟩
    exact @stores_mptcp (mpCapable o) _ _ hframe (by decide) rfl ⟨nofun, nofun, nofun, nofun⟩
  · refine (fills_storeNew TcpMpJoinOpt.decodes withMpJoin).mono ?_
    rintro bs _ ⟨o, hframe, rfl⟩
    exact @stores_mptcp (mpJoin o) _ _ hframe (by decide) rfl ⟨nofun, nofun, nofun, nofun⟩
  · refine (fills_store TcpMpDssOpt.fills (fun h => h.options.mpDss) withMpDss).mono ?_
    rintro bs _ ⟨_, ⟨o, length, rfl, hframe⟩, rfl⟩
    refine ⟨⟨mpDss o, rfl, occupies_dss hframe, nofun⟩, ?_⟩
    obtain ⟨rest, rfl⟩ := hframe.parts
    simp only [List.length_append, List.length_singleton, length_subtypeBytes]
    omega
  · refine (fills_store TcpMpAddAddrOpt.fills (fun h => h.options.mpAdd) withMpAddAddr).mono ?_
    rintro bs _ ⟨_, ⟨o, length, rfl, hframe⟩, rfl⟩
    refine ⟨⟨mpAddAddr o, rfl, occupies_addAddr hframe, nofun⟩, ?_⟩
    obtain ⟨rest, rfl⟩ := hframe.parts
    simp only [List.length_append, List.length_singleton, length_subtypeBytes]
    omega
  · refine (fills_store TcpMpRemAddrOpt.fills (fun h => h.options.mpRem) withMpRemAddr).mono ?_
    rintro bs _ ⟨_, ⟨o, rfl, hframe⟩, rfl⟩
    exact @stores_mptcp (mpRemAddr o) _ _ hframe (by decide) rfl ⟨nofun, nofun, nofun, nofun⟩
  · refine (fills_storeNew TcpMpPrioOpt.decodes withMpPrio).mono ?_
    rintro bs _ ⟨o, hframe, rfl⟩
    exact @stores_mptcp (mpPrio o) _ _ hframe (by decide) rfl ⟨nofun, nofun, nofun, nofun⟩
  · refine (fills_storeNew TcpMpFailOpt.decodes withMpFail).mono ?_
    rintro bs _ ⟨o, hframe, rfl⟩
    exact @stores_mptcp (mpFail o) _ _ hframe (by decide) rfl ⟨nofun, nofun, nofun, nofun⟩
  · refine (fills_storeNew TcpMpCloseOpt.decodes withMpClose).mono ?_
    rintro bs _ ⟨o, hframe, rfl⟩
    exact @stores_mptcp (mpClose o) _ _ hframe (by decide) rfl ⟨nofun, nofun, nofun, nofun⟩
  · refine (fills_storeNew TcpMpRstOpt.decodes withMpRst).mono ?_
    rintro bs _ ⟨o, hframe, rfl⟩
    exact @stores_mptcp (mpRst o) _ _ hframe (by decide) rfl ⟨nofun, nofun, nofun, nofun⟩
  · exact fun _ => Takes.throw _ _

/-- The subtype that is looked ahead for belongs to the option. -/
theorem fills_mptcp :
    Fills cursor (fun h : TCP => h.parseMptcp) fun bs f => Stores bs f ∧ bs ≠ [] := by
  intro h pre post g s hrun
  change h.parseMptcp (cursor pre post) = .ok g s at hrun
  by_cases hshort : post.length < 3
  · have hlook : ReadStream.lookahead (some 3) (cursor pre post)
        = .error "out of data to read" (cursor pre post) := by
      rw [ReadStream.lookahead, if_neg (by simp), ReadStream.remaining_cursor]
      exact if_pos hshort
    rw [parseMptcp, bind_error hlook] at hrun
    cases hrun
  · have hlook := lookahead_some pre (post.take 3) (post.drop 3) 3 (by
      rw [List.length_take]
      omega)
    rw [List.take_append_drop] at hlook
    rw [parseMptcp, bind_ok hlook] at hrun
    obtain ⟨bs, rest, rfl, rfl, f, rfl, hreads, hstores, hthree⟩ :=
      fills_subtype _ h pre post g s hrun
    rw [List.take_append_of_le_length hthree] at hreads
    refine ⟨bs, rest, rfl, rfl, f, rfl, fun x => reads_lookahead hthree (hreads x), hstores, ?_⟩
    rintro rfl
    cases hthree

theorem decodes_skipUnknown : Decodes cursor skipUnknown fun bs _ =>
    ∃ kind length rest, bs = kind :: length :: rest ∧ bs.length = max length.toNat 2 := by
  refine (decodes_byte.bind fun _ => decodes_byte.bind fun length =>
    decodes_advanceBytes (max length.toNat 2 - 2)).mono ?_
  rintro _ _ ⟨_, kind, _, rfl, rfl, _, length, rest, rfl, rfl, hlen⟩
  refine ⟨kind, length, rest, rfl, ?_⟩
  simp only [List.length_append, List.length_singleton, hlen]
  omega

/-- What the body of the loop does with the bytes of an option of the given kind: a known option
is stored, any other is skipped. -/
inductive StoresKind (kind : UInt8) (bs : List UInt8) (f : TCP → TCP) : Prop
  | known (h : Stores bs f)
  | skipped (hf : f = id) (hlen : ∀ rest, bs.headD 0 = kind →
      typeAt (bs ++ rest) = .other ∧ taken (bs ++ rest) = bs.length)

theorem fills_option {kind : UInt8} (hkind : kind ≠ TcpOptKind.endOfList) :
    Fills cursor (fun h : TCP => h.parseOption kind) fun bs f =>
      StoresKind kind bs f ∧ bs ≠ [] := by
  have hplain : ∀ {o : TcpOption} {bs : List UInt8} {length : UInt8} {rest : List UInt8}
      (t : OptionType), bs = kind :: length :: rest → o.type = t →
      (∀ subtype, OptionType.ofKind kind subtype = t) →
      t ≠ .mpDss ∧ t ≠ .mpAddAddr ∧ t ≠ .other →
      bs.length = length.toNat → o.size = length.toNat →
      StoresKind kind bs o.store ∧ bs ≠ [] := by
    rintro o _ length rest _ rfl rfl htype ho hlen hsize
    exact ⟨.known ⟨o, rfl, occupies_plain htype ho hlen hsize, ho.2.2⟩, List.cons_ne_nil _ _⟩
  simp only [parseOption]
  split_ifs with hnoOp hmss hws hperm hsack hts hmptcp
  · refine (fills_storeNew (decodes_advanceBytes 1) (fun h _ => h)).mono ?_
    rintro bs _ ⟨_, hlen, rfl⟩
    obtain ⟨b, rfl⟩ := List.length_eq_one_iff.mp hlen
    refine ⟨.skipped rfl fun rest hb => ?_, List.cons_ne_nil _ _⟩
    obtain rfl : b = kind := hb
    subst hnoOp
    exact ⟨rfl, rfl⟩
  · refine (fills_storeNew TcpMssOpt.decodes withMss).mono ?_
    rintro bs _ ⟨o, rfl, rfl⟩
    subst hmss
    exact hplain (o := mss o) .mss rfl rfl (fun _ => rfl) (by decide) rfl rfl
  · refine (fills_storeNew TcpWsOpt.decodes withWs).mono ?_
    rintro bs _ ⟨o, rfl, rfl⟩
    subst hws
    exact hplain (o := ws o) .ws rfl rfl (fun _ => rfl) (by decide) rfl rfl
  · refine (fills_storeNew TcpSAckPermOpt.decodes withSackPerm).mono ?_
    rintro bs _ ⟨o, rfl, rfl⟩
    subst hperm
    exact hplain (o := sackPerm o) .sackPerm rfl rfl (fun _ => rfl) (by decide) rfl rfl
  · refine (fills_store TcpSAckOpt.fills (fun h => h.options.sack) withSack).mono ?_
    rintro bs _ ⟨_, ⟨o, rfl, rfl, hmax⟩, rfl⟩
    subst hsack
    have hbytes := o.length_bytes
    rw [TcpSAckOpt.maxBlocks] at hmax
    have hval : (UInt8.ofNat o.size).toNat = o.size := by
      rw [UInt8.toNat_ofNat', TcpSAckOpt.size]
      omega
    exact hplain (o := sack o) .sack rfl rfl (fun _ => rfl) (by decide) (by omega) hval.symm
  · refine (fills_storeNew TcpTsOpt.decodes withTs).mono ?_
    rintro bs _ ⟨o, rfl, rfl⟩
    subst hts
    exact hplain (o := ts o) .ts rfl rfl (fun _ => rfl) (by decide) rfl rfl
  · refine fills_mptcp.mono ?_
    rintro bs f ⟨hstores, hne⟩
    exact ⟨.known hstores, hne⟩
  · refine (fills_storeNew decodes_skipUnknown (fun h _ => h)).mono ?_
    rintro bs _ ⟨_, ⟨kind', length, rest, rfl, hlen⟩, rfl⟩
    refine ⟨.skipped rfl fun rest' hb => ?_, List.cons_ne_nil _ _⟩
    obtain rfl : kind' = kind := hb
    have hat : typeAt (kind' :: length :: rest ++ rest') = .other := by
      show OptionType.ofKind kind' _ = .other
      simp only [OptionType.ofKind, hmss, hws, hperm, hsack, hts, hmptcp, if_false]
    refine ⟨hat, ?_⟩
    rw [taken, hat, hlen]
    exact if_neg hnoOp

end TCP

end Scion
