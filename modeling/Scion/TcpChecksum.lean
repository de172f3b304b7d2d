/-
The checksum contribution of TCP headers (`hdr/tcp.hpp`).

A header adds up its fields without writing them. Each option assumes where it stands in a
word; the sums are compared with those of the words on the wire.

* `SumsTo` — a part of the header that is made of whole words, and their sum;
* `sumsTo` of the options — an option, with the no-op options in front of it, is made of whole
  words and adds them up; only the MAC in an MP_JOIN is summed up on its own;
* `TCP.sumsTo_bytes` — the sum of the words that `write` writes;
* `TCP.checksum_written_iff` — when `checksum` is congruent to it.
-/
import Scion.Reemission

namespace Scion

open BigEndian Codec OnesComplement

/-! ### Whole words -/

/-- Whole words and their sum. -/
structure SumsTo (bs : List UInt8) (sum : UInt32) : Prop where
  even : bs.length % 2 = 0
  sum_eq : sum = UInt32.ofNat (wordSum bs)

namespace SumsTo

theorem nil : SumsTo [] 0 := ⟨rfl, rfl⟩

theorem append {xs ys : List UInt8} {a b : UInt32} (hxs : SumsTo xs a) (hys : SumsTo ys b) :
    SumsTo (xs ++ ys) (a + b) := by
  obtain ⟨hx, rfl⟩ := hxs
  obtain ⟨hy, rfl⟩ := hys
  refine ⟨?_, ?_⟩
  · rw [List.length_append]
    omega
  · rw [wordSum_append _ _ hx, UInt32.ofNat_add]

theorem congr {bs bs' : List UInt8} {a a' : UInt32} (h : SumsTo bs a) (hbs : bs = bs')
    (ha : a = a') : SumsTo bs' a' := by
  subst hbs
  subst ha
  exact h

/-- Words that are there or not. -/
theorem ifThen {bs : List UInt8} {a : UInt32} (p : Bool) (h : SumsTo bs a) :
    SumsTo (bytesIf p bs) (if p then a else 0) := by
  cases p with
  | true => exact h
  | false => exact nil

theorem word (v : UInt16) : SumsTo (beBytes 2 v.toNat) v.toUInt32 := by
  refine ⟨by rw [length_beBytes], ?_⟩
  rw [wordSum_beBytes_two, Nat.mod_eq_of_lt v.toNat_lt, toUInt32_eq_ofNat]

theorem uint32 (v : UInt32) : SumsTo (beBytes 4 v.toNat) (checksumUint32 v) := by
  have hlt := v.toNat_lt
  refine ⟨by rw [length_beBytes], ?_⟩
  rw [wordSum_beBytes_four _ hlt, ← UInt32.toNat_inj, checksumUint32, UInt32.toNat_add,
    UInt32.toNat_shiftRight, show (16 : UInt32).toNat % 32 = 16 from rfl,
    Nat.shiftRight_eq_div_pow, UInt32.toNat_and,
    show (0xffff : UInt32).toNat = 2 ^ 16 - 1 from rfl, Nat.and_two_pow_sub_one_eq_mod,
    UInt32.toNat_ofNat']

theorem uint64 (v : UInt64) : SumsTo (beBytes 8 v.toNat) (checksumUint64 v) := by
  obtain ⟨w₃, w₂, w₁, w₀, hwords⟩ := exists_isWords v.toNat_lt
  obtain ⟨h₀, h₁, h₂, h₃⟩ := hwords.words
  refine ⟨by rw [length_beBytes], ?_⟩
  rw [wordSum_beBytes_eight hwords, ← UInt32.toNat_inj, UInt32.toNat_ofNat']
  show ((((v >>> UInt64.ofNat (16 * 3)) &&& 0xffff)
      + ((v >>> UInt64.ofNat (16 * 2)) &&& 0xffff)).toUInt32
    + (((v >>> UInt64.ofNat (16 * 1)) &&& 0xffff)
      + ((v >>> UInt64.ofNat (16 * 0)) &&& 0xffff)).toUInt32).toNat = _
  rw [UInt32.toNat_add, UInt64.toNat_toUInt32, UInt64.toNat_toUInt32, UInt64.toNat_add,
    UInt64.toNat_add, toNat_word _ (show 0 < 4 by norm_num), toNat_word _ (show 1 < 4 by norm_num),
    toNat_word _ (show 2 < 4 by norm_num), toNat_word _ (show 3 < 4 by norm_num), h₀, h₁, h₂, h₃]
  obtain ⟨hlt₃, hlt₂, hlt₁, hlt₀, -⟩ := hwords
  omega

/-- Two bytes. -/
theorem pair (hi lo : UInt8) : SumsTo [hi, lo] ((hi.toUInt32 <<< 8) ||| lo.toUInt32) := by
  have hhi := hi.toNat_lt
  have hlo := lo.toNat_lt
  refine ⟨by rw [List.length_cons, List.length_singleton], ?_⟩
  have hshift : (hi.toUInt32 <<< 8).toNat = 2 ^ 8 * hi.toNat := by
    rw [UInt32.toNat_shiftLeft, UInt8.toNat_toUInt32, show (8 : UInt32).toNat % 32 = 8 from rfl,
      Nat.shiftLeft_eq]
    omega
  rw [← UInt32.toNat_inj, UInt32.toNat_or, hshift, UInt8.toNat_toUInt32,
    ← Nat.two_pow_add_eq_or_of_lt hlo, UInt32.toNat_ofNat', wordSum, wordSum]
  simp [beNat]
  omega

/-- Kind and length of an option. -/
theorem head (kind : UInt8) {n : ℕ} (hn : n < 256) :
    SumsTo [kind, UInt8.ofNat n] ((kind.toUInt32 <<< 8) ||| UInt32.ofNat n) := by
  refine (pair kind (UInt8.ofNat n)).congr rfl ?_
  rw [← UInt32.toNat_inj, UInt32.toNat_or, UInt32.toNat_or, UInt8.toNat_toUInt32,
    UInt8.toNat_ofNat', UInt32.toNat_ofNat', Nat.mod_eq_of_lt (by omega),
    Nat.mod_eq_of_lt (by omega)]

/-- A subtype of four bits and flags of twelve bits. -/
theorem flags12 {subtype : UInt8} {flags : UInt64} {w : UInt32} (hs : subtype.toNat < 16)
    (hflags : flags.toNat < 2 ^ 12) (hw : w.toNat = flags.toNat) :
    SumsTo (subtypeBytes 2 subtype 12 flags) ((subtype.toUInt32 <<< 12) ||| w) := by
  refine ⟨by rw [length_subtypeBytes], ?_⟩
  have hshift : (subtype.toUInt32 <<< 12).toNat = 2 ^ 12 * subtype.toNat := by
    rw [UInt32.toNat_shiftLeft, UInt8.toNat_toUInt32, show (12 : UInt32).toNat % 32 = 12 from rfl,
      Nat.shiftLeft_eq]
    omega
  rw [subtypeBytes, wordSum_beBytes_two, ← UInt32.toNat_inj, UInt32.toNat_or, hshift, hw,
    ← Nat.two_pow_add_eq_or_of_lt hflags, UInt32.toNat_ofNat']
  omega

/-- A subtype and flags of four bits each, and the byte behind them. -/
theorem flags4 {subtype b : UInt8} {flags : UInt64} {w : UInt32} (hs : subtype.toNat < 16)
    (hflags : flags.toNat < 2 ^ 4) (hw : w.toNat = flags.toNat) :
    SumsTo (subtypeBytes 1 subtype 4 flags ++ [b])
      ((subtype.toUInt32 <<< 12) ||| (w <<< 8) ||| b.toUInt32) := by
  have hb := b.toNat_lt
  have hlow : ((w <<< 8) ||| b.toUInt32).toNat = flags.toNat * 256 + b.toNat := by
    have hshift : (w <<< 8).toNat = 2 ^ 8 * flags.toNat := by
      rw [UInt32.toNat_shiftLeft, hw, show (8 : UInt32).toNat % 32 = 8 from rfl, Nat.shiftLeft_eq]
      omega
    rw [UInt32.toNat_or, hshift, UInt8.toNat_toUInt32, ← Nat.two_pow_add_eq_or_of_lt hb]
    omega
  have hbytes : subtypeBytes 1 subtype 4 flags ++ [b]
      = subtypeBytes 2 subtype 12 (UInt64.ofNat (flags.toNat * 256 + b.toNat)) := by
    have hval : (UInt64.ofNat (flags.toNat * 256 + b.toNat)).toNat % 2 ^ 12
        = flags.toNat * 256 + b.toNat := by
      rw [UInt64.toNat_ofNat']
      omega
    have hbyte : [b] = beBytes 1 b.toNat := by simp [beBytes]
    rw [subtypeBytes, subtypeBytes, hval, hbyte, show 2 = 1 + 1 from rfl, beBytes_append]
    congr 1
    · congr 1
      omega
    · rw [← beBytes_mod 1 1 _ le_rfl, ← beBytes_mod 1 1 (_ + _) le_rfl]
      congr 1
      omega
  rw [hbytes, UInt32.or_assoc]
  refine flags12 hs ?_ ?_
  · rw [UInt64.toNat_ofNat']
    omega
  · rw [hlow, UInt64.toNat_ofNat']
    omega

/-- Two bytes that are added up. -/
theorem pair_add (hi lo : UInt8) : SumsTo [hi, lo] ((hi.toUInt32 <<< 8) + lo.toUInt32) := by
  obtain ⟨heven, hsum⟩ := pair hi lo
  refine ⟨heven, ?_⟩
  rw [ScmpMessage.typeCode_eq]
  refine congrArg UInt32.ofNat ?_
  simp [wordSum, beNat]

/-- Words that are added up in a loop. -/
theorem foldl {α : Type} {enc : α → List UInt8} {step : UInt32 → α → UInt32}
    (hstep : ∀ a bs sum, SumsTo bs sum → SumsTo (bs ++ enc a) (step sum a)) :
    ∀ (as : List α) (bs : List UInt8) (sum : UInt32), SumsTo bs sum →
      SumsTo (bs ++ (as.map enc).flatten) (as.foldl step sum) := by
  intro as
  induction as with
  | nil =>
    intro bs sum h
    rw [List.map_nil, List.flatten_nil, List.append_nil]
    exact h
  | cons a as ih =>
    intro bs sum h
    rw [List.map_cons, List.flatten_cons, ← List.append_assoc]
    exact ih _ _ (hstep a bs sum h)

end SumsTo

/-- A summand that is there or not. -/
theorem add_ite32 (p : Prop) [Decidable p] (a b : UInt32) :
    (if p then a + b else a) = a + if p then b else 0 := by
  split
  · rfl
  · rw [UInt32.add_zero]

/-! ### Options of plain TCP -/

theorem sumsTo_noOps : SumsTo (TcpOption.bytesOf [.noOp, .noOp]) 0x0101 :=
  ⟨rfl, by decide⟩

theorem TcpMssOpt.sumsTo (o : TcpMssOpt) : SumsTo o.bytes o.checksum :=
  (SumsTo.pair TcpOptKind.mss length).append (.word o.mss)

theorem TcpSAckPermOpt.sumsTo (o : TcpSAckPermOpt) : SumsTo o.bytes o.checksum :=
  SumsTo.pair TcpOptKind.sackPerm length

/-- With two no-op options in front. -/
theorem TcpSAckOpt.sumsTo {o : TcpSAckOpt} (h : o.size ≤ 40) :
    SumsTo (TcpOption.bytesOf [.noOp, .noOp, .sack o]) o.checksum := by
  have hblocks := @SumsTo.foldl (Fin 3) (fun i => blockBytes o.edges[i])
    (fun sum i => sum + checksumUint32 o.edges[i].1 + checksumUint32 o.edges[i].2)
    (fun i bs sum hsum => by
      rw [blockBytes, ← List.append_assoc]
      exact (hsum.append (.uint32 _)).append (.uint32 _))
    (firstSlots 3 o.blocks.toNat) _ _ (SumsTo.head TcpOptKind.sack (show o.size < 256 by omega))
  exact (sumsTo_noOps.append hblocks).congr (by simp [TcpOption.bytesOf, TcpOption.bytes, bytes])
    (UInt32.add_comm _ _)

theorem TcpTsOpt.sumsTo (o : TcpTsOpt) : SumsTo o.bytes o.checksum :=
  ((SumsTo.pair TcpOptKind.ts length).append ((SumsTo.uint32 o.tsVal).append
    (.uint32 o.tsEcr))).congr rfl (UInt32.add_assoc _ _ _).symm

/-- With a no-op option in front. -/
theorem TcpWsOpt.sumsTo (o : TcpWsOpt) :
    SumsTo (TcpOption.bytesOf [.noOp, .ws o]) o.checksum :=
  (SumsTo.pair 1 TcpOptKind.ws).append (.pair length o.wndShift)

/-! ### MPTCP options -/

theorem TcpMpCapableOpt.sumsTo {o : TcpMpCapableOpt} (h : o.Fits) :
    SumsTo o.bytes o.checksum := by
  have hsize : o.size < 256 := by
    rw [size, TcpMpCapableMask.size]
    split_ifs <;> omega
  have hflags :
      SumsTo (subtypeBytes 1 TcpMpSubtype.mpCapable 4 o.version.toUInt64 ++ [o.flags]) _ :=
    .flags4 (w := o.version.toUInt32) (by decide) (by rw [UInt8.toNat_toUInt64]; exact h)
      (by rw [UInt8.toNat_toUInt64, UInt8.toNat_toUInt32])
  refine ((SumsTo.head TcpOptKind.mptcp hsize).append (hflags.append
    ((SumsTo.uint64 o.senderKey).ifThen o.fieldMask.senderKey |>.append
      ((SumsTo.uint64 o.receiverKey).ifThen o.fieldMask.receiverKey |>.append
        ((SumsTo.word o.dataLevelLen).ifThen o.fieldMask.dataLevelLen |>.append
          ((SumsTo.word o.chksum).ifThen o.fieldMask.chksum)))))).congr ?_ ?_
  · simp [bytes]
  · rw [checksum]
    cases o.fieldMask.senderKey <;> cases o.fieldMask.receiverKey <;>
      cases o.fieldMask.dataLevelLen <;> cases o.fieldMask.chksum <;> simp [UInt32.add_assoc]

/-- Without the MAC, which is summed up on its own. -/
theorem TcpMpJoinOpt.sumsTo {o : TcpMpJoinOpt} (h : o.Fits) (hack : ∀ mac, o ≠ .ack mac) :
    SumsTo o.bytes o.checksum := by
  cases o with
  | syn flags addressId receiverToken senderRand =>
    have hflags : SumsTo (subtypeBytes 1 TcpMpSubtype.mpJoin 4 flags.toUInt64 ++ [addressId]) _ :=
      .flags4 (w := flags.toUInt32) (by decide) (by rw [UInt8.toNat_toUInt64]; exact h)
        (by rw [UInt8.toNat_toUInt64, UInt8.toNat_toUInt32])
    refine ((SumsTo.head TcpOptKind.mptcp (n := 12) (by norm_num)).append (hflags.append
      ((SumsTo.uint32 receiverToken).append (.uint32 senderRand)))).congr ?_ ?_
    · simp [bytes, body, size]
    · simp only [checksum, size, UInt32.add_assoc, UInt32.or_assoc]
  | synAck flags addressId senderMac senderRand =>
    have hflags : SumsTo (subtypeBytes 1 TcpMpSubtype.mpJoin 4 flags.toUInt64 ++ [addressId]) _ :=
      .flags4 (w := flags.toUInt32) (by decide) (by rw [UInt8.toNat_toUInt64]; exact h)
        (by rw [UInt8.toNat_toUInt64, UInt8.toNat_toUInt32])
    refine ((SumsTo.head TcpOptKind.mptcp (n := 16) (by norm_num)).append (hflags.append
      ((SumsTo.uint64 senderMac).append (.uint32 senderRand)))).congr ?_ ?_
    · simp [bytes, body, size]
    · simp only [checksum, size, UInt32.add_assoc, UInt32.or_assoc]
  | ack mac => exact absurd rfl (hack mac)

/-- The words of an MP_JOIN with a MAC: kind and length, the subtype, and the MAC. -/
theorem TcpMpJoinOpt.wordSum_ack (mac : Vector UInt8 20) :
    wordSum (ack mac).bytes = 0x1e18 + (0x1000 + wordSum mac.toList) := by
  have hbytes : (ack mac).bytes = [0x1e, 0x18] ++ ([0x10, 0x00] ++ mac.toList) := rfl
  rw [hbytes, wordSum_append _ _ rfl, wordSum_append _ _ rfl]
  rfl

theorem TcpMpDssOpt.sumsTo {o : TcpMpDssOpt} (h : o.Fits) : SumsTo o.bytes o.checksum := by
  have hsize : o.size < 256 := lt_of_le_of_lt o.size_le (by norm_num)
  have hflags : SumsTo (subtypeBytes 2 TcpMpSubtype.dss 12 o.flags.toUInt64) _ :=
    .flags12 (w := o.flags.toUInt32) (by decide) (by rw [UInt16.toNat_toUInt64]; exact h)
      (by rw [UInt16.toNat_toUInt64, UInt16.toNat_toUInt32])
  have hseq : ∀ (eight : Bool) (x : UInt64), SumsTo (seqBytes eight x) (checksumSeq eight x) := by
    intro eight x
    cases eight with
    | true => exact .uint64 x
    | false => exact .uint32 x.toUInt32
  refine ((SumsTo.head TcpOptKind.mptcp hsize).append (hflags.append
    ((hseq _ o.dataAck).ifThen (hasFlag o.flags flagACK) |>.append
      ((hseq _ o.dsn).ifThen (hasFlag o.flags flagDSN) |>.append
        ((SumsTo.uint32 o.subflowSeq).ifThen (hasFlag o.flags flagDSN) |>.append
          ((SumsTo.word o.dataLevelLen).ifThen (hasFlag o.flags flagDSN) |>.append
            ((SumsTo.word (o.chksum.getD 0)).ifThen o.chksum.isSome))))))).congr rfl ?_
  rw [checksum]
  cases o.chksum <;> cases hasFlag o.flags flagACK <;> cases hasFlag o.flags flagDSN <;>
    simp [UInt32.add_assoc]

theorem TcpMpAddAddrOpt.sumsTo {o : TcpMpAddAddrOpt} (h : o.Fits) :
    SumsTo o.bytes o.checksum := by
  have hsize : o.size < 256 := lt_of_le_of_lt o.size_le (by norm_num)
  have hflags :
      SumsTo (subtypeBytes 1 TcpMpSubtype.addAddr 4 o.flags.toUInt64 ++ [o.addressId]) _ :=
    .flags4 (w := o.flags.toUInt32) (by decide) (by rw [UInt16.toNat_toUInt64]; exact h.1)
      (by rw [UInt16.toNat_toUInt64, UInt16.toNat_toUInt32])
  have haddress : SumsTo o.address.bytes o.address.checksum :=
    ⟨o.address.length_bytes_even, o.address.checksum_eq⟩
  refine ((SumsTo.head TcpOptKind.mptcp hsize).append (hflags.append (haddress.append
    ((SumsTo.word (o.port.getD 0)).ifThen o.port.isSome |>.append
      ((SumsTo.uint64 o.mac).ifThen (!hasFlag o.flags flagEcho)))))).congr ?_ ?_
  · simp [bytes, frame, portBytes]
  · rw [checksum]
    cases o.port <;> cases hasFlag o.flags flagEcho <;> simp [UInt32.add_assoc]

/-- One more byte is the higher or the lower half of a word. -/
theorem wordSum_concat (bs : List UInt8) (b : UInt8) :
    wordSum (bs ++ [b]) = wordSum bs + b.toNat * if bs.length % 2 = 0 then 256 else 1 := by
  induction bs using wordSum.induct with
  | case1 => simp [wordSum]
  | case2 last => simp [wordSum, beNat]
  | case3 hi lo rest ih =>
    rw [List.cons_append, List.cons_append, wordSum, wordSum, ih, List.length_cons,
      List.length_cons, add_assoc, add_assoc, Nat.add_mod_right]

/-- IDs that are added up byte by byte. -/
theorem TcpMpRemAddrOpt.foldl_ids (ids : Vector UInt8 8) {q : ℕ} {bs : List UInt8}
    (hq : ∀ i : ℕ, i % 2 = q ↔ (bs.length + i) % 2 = 0) {n : ℕ} (hn : n ≤ 8) :
    (firstSlots 8 n).foldl (fun sum (i : Fin 8) =>
        sum + (ids[i].toUInt32 <<< if i.val % 2 = q then 8 else 0)) (UInt32.ofNat (wordSum bs))
      = UInt32.ofNat
        (wordSum (bs ++ ((firstSlots 8 n).map fun i : Fin 8 => [ids[i]]).flatten)) := by
  induction n with
  | zero => simp [firstSlots]
  | succ n ih =>
    have hslots : firstSlots 8 (n + 1) = firstSlots 8 n ++ [⟨n, hn⟩] := by
      rw [firstSlots, firstSlots, List.take_add_one, List.getElem?_eq_getElem (by simpa using hn)]
      simp
    have hlen : (bs ++ ((firstSlots 8 n).map fun i : Fin 8 => [ids[i]]).flatten).length
        = bs.length + n := by
      have hones : ∀ c ∈ (firstSlots 8 n).map fun i : Fin 8 => [ids[i]], c.length = 1 :=
        List.forall_mem_map.mpr fun i _ => rfl
      have hflat := Records.length_flatten hones
      rw [List.length_append, hflat, List.length_map, length_firstSlots]
      omega
    have hbyte := ids[n].toNat_lt
    rw [hslots, List.foldl_append, ih (by omega), List.map_append, List.flatten_append,
      ← List.append_assoc]
    simp only [List.map_cons, List.map_nil, List.flatten_cons, List.flatten_nil, List.append_nil,
      List.foldl_cons, List.foldl_nil]
    rw [wordSum_concat, hlen, UInt32.ofNat_add]
    congr 1
    simp only [← hq n]
    rw [← UInt32.toNat_inj, UInt32.toNat_ofNat']
    by_cases hpos : n % 2 = q
    · simp [hpos, Nat.shiftLeft_eq]
    · simp [hpos]

/-- With a no-op option in front when there is an even number of IDs. -/
theorem TcpMpRemAddrOpt.sumsTo (o : TcpMpRemAddrOpt) :
    SumsTo (TcpOption.bytesOf (TcpOption.listIf (o.size % 2 = 1) [.noOp] ++ [.mpRemAddr o]))
      o.checksum := by
  have hnum : 1 ≤ o.numIds ∧ o.numIds ≤ 8 := by
    rw [numIds]
    omega
  have hsubtype : subtypeBytes 1 TcpMpSubtype.removeAddr 4 0 = [0x40] := by decide
  have hids : ∀ c ∈ (firstSlots 8 o.numIds).map fun i : Fin 8 => [o.addressIds[i]],
      c.length = 1 := List.forall_mem_map.mpr fun i _ => rfl
  have hlen := Records.length_flatten hids
  rw [List.length_map, length_firstSlots] at hlen
  have hsize : o.size < 256 := by
    rw [size]
    omega
  by_cases hodd : o.numIds % 2 = 1
  · have hlist : TcpOption.bytesOf (TcpOption.listIf (o.size % 2 = 1) [.noOp] ++ [.mpRemAddr o])
        = ([TcpOptKind.mptcp, UInt8.ofNat o.size] ++ [0x40])
          ++ ((firstSlots 8 o.numIds).map fun i : Fin 8 => [o.addressIds[i]]).flatten := by
      have hpad : decide (o.size % 2 = 1) = false := decide_eq_false (by rw [size]; omega)
      simp [TcpOption.bytesOf, TcpOption.bytes, TcpOption.listIf, hpad, bytes, hsubtype]
    refine ⟨?_, ?_⟩
    · rw [hlist, List.length_append, hlen]
      simp
      omega
    · have hhead := (SumsTo.head TcpOptKind.mptcp hsize).sum_eq
      have hthird : UInt32.ofNat ((0x40 : UInt8).toNat *
          if [TcpOptKind.mptcp, UInt8.ofNat o.size].length % 2 = 0 then 256 else 1)
          = TcpMpSubtype.removeAddr.toUInt32 <<< 12 := by
        rw [List.length_cons, List.length_singleton]
        decide
      rw [hlist, ← foldl_ids o.addressIds (q := 1) (fun i => by simp; omega) hnum.2,
        wordSum_concat, UInt32.ofNat_add, ← hhead, hthird, checksum, if_pos hodd]
  · have hlist : TcpOption.bytesOf (TcpOption.listIf (o.size % 2 = 1) [.noOp] ++ [.mpRemAddr o])
        = ([TcpOptKind.noOp, TcpOptKind.mptcp] ++ [UInt8.ofNat o.size, 0x40])
          ++ ((firstSlots 8 o.numIds).map fun i : Fin 8 => [o.addressIds[i]]).flatten := by
      have hpad : decide (o.size % 2 = 1) = true := decide_eq_true (by rw [size]; omega)
      simp [TcpOption.bytesOf, TcpOption.bytes, TcpOption.listIf, hpad, bytes, hsubtype]
    refine ⟨?_, ?_⟩
    · rw [hlist, List.length_append, hlen]
      simp
      omega
    · have hhead := ((SumsTo.pair TcpOptKind.noOp TcpOptKind.mptcp).append
        (SumsTo.pair (UInt8.ofNat o.size) 0x40)).sum_eq
      have hval : (UInt8.ofNat o.size).toUInt32 = UInt32.ofNat o.size := by
        rw [← UInt32.toNat_inj, UInt8.toNat_toUInt32, UInt8.toNat_ofNat', UInt32.toNat_ofNat']
        omega
      rw [hval, show (0x40 : UInt8).toUInt32 = TcpMpSubtype.removeAddr.toUInt32 <<< 4 by decide,
        show TcpOptKind.noOp.toUInt32 = 0x01 by decide] at hhead
      rw [hlist, ← foldl_ids o.addressIds (q := 0) (fun i => by simp; omega) hnum.2, ← hhead,
        checksum, if_neg hodd]

/-- With a no-op option in front. -/
theorem TcpMpPrioOpt.sumsTo (o : TcpMpPrioOpt) :
    SumsTo (TcpOption.bytesOf [.noOp, .mpPrio o]) o.checksum := by
  obtain ⟨backup⟩ := o
  cases backup <;> exact ⟨rfl, by decide⟩

theorem sumsTo_mpWord {subtype : UInt8} (hs : subtype.toNat < 16) (x : UInt64) :
    SumsTo (mpWordBytes subtype x) (mpWordChecksum subtype x) := by
  have hflags : SumsTo (subtypeBytes 2 subtype 12 0) _ := .flags12 (w := 0) hs (by decide) rfl
  refine ((SumsTo.pair TcpOptKind.mptcp mpWordLength).append (hflags.append (.uint64 x))).congr
    rfl ?_
  rw [mpWordChecksum, UInt32.or_zero, UInt32.add_assoc]

theorem TcpMpRstOpt.sumsTo {o : TcpMpRstOpt} (h : o.Fits) : SumsTo o.bytes o.checksum :=
  (SumsTo.pair TcpOptKind.mptcp length).append
    (.flags4 (w := o.flags.toUInt32) (by decide) (by rw [UInt8.toNat_toUInt64]; exact h)
      (by rw [UInt8.toNat_toUInt64, UInt8.toNat_toUInt32]))

/-! ### Headers -/

namespace TCP

open TcpOption

theorem sumsTo_listIf {p : Bool} {os : List TcpOption} {a : UInt32}
    (h : p = true → SumsTo (bytesOf os) a) :
    SumsTo (bytesOf (listIf p os)) (if p then a else 0) := by
  cases p with
  | true => exact h rfl
  | false => exact .nil

/-- The options in front of MP_JOIN. -/
def frontList (h : TCP) : List TcpOption :=
  let m := h.optMask
  let o := h.options
  listIf m.mss [.mss o.mss] ++ (listIf m.sackPerm [.sackPerm ⟨⟩] ++
    (listIf m.sack [.noOp, .noOp, .sack o.sack] ++
      (listIf m.ts (listIf (h.lenBeforeTs % 4 ≠ 2) [.noOp, .noOp] ++ [.ts o.ts]) ++
        (listIf m.ws [.noOp, .ws o.ws] ++ listIf m.mpCapable [.mpCapable o.mpCap]))))

/-- The options behind MP_JOIN. -/
def backList (h : TCP) : List TcpOption :=
  let m := h.optMask
  let o := h.options
  listIf m.mpDss [.mpDss o.mpDss] ++ (listIf m.mpAddAddr [.mpAddAddr o.mpAdd] ++
    (listIf m.mpRemAddr (listIf (o.mpRem.size % 2 = 1) [.noOp] ++ [.mpRemAddr o.mpRem]) ++
      (listIf m.mpPrio [.noOp, .mpPrio o.mpPrio] ++ (listIf m.mpFail [.mpFail o.mpFail] ++
        (listIf m.mpClose [.mpClose o.mpClose] ++ listIf m.mpRst [.mpRst o.mpRst])))))

theorem optionList_eq (h : TCP) : h.optionList
    = h.frontList ++ (listIf h.optMask.mpJoin [.mpJoin h.options.mpJoin] ++ h.backList) := by
  simp only [optionList, frontList, backList, List.append_assoc]

def frontSum (h : TCP) : UInt32 :=
  let m := h.optMask
  let o := h.options
  (if m.mss then o.mss.checksum else 0) + ((if m.sackPerm then TcpSAckPermOpt.checksum ⟨⟩ else 0) +
    ((if m.sack then o.sack.checksum else 0) +
      ((if m.ts then (if h.lenBeforeTs % 4 ≠ 2 then 0x0101 else 0) + o.ts.checksum else 0) +
        ((if m.ws then o.ws.checksum else 0) + if m.mpCapable then o.mpCap.checksum else 0))))

def backSum (h : TCP) : UInt32 :=
  let m := h.optMask
  let o := h.options
  (if m.mpDss then o.mpDss.checksum else 0) + ((if m.mpAddAddr then o.mpAdd.checksum else 0) +
    ((if m.mpRemAddr then o.mpRem.checksum else 0) +
      ((if m.mpPrio then o.mpPrio.checksum else 0) + ((if m.mpFail then o.mpFail.checksum else 0) +
        ((if m.mpClose then o.mpClose.checksum else 0) +
          if m.mpRst then o.mpRst.checksum else 0)))))

/-- What MP_JOIN adds, if it is there. -/
def joinSum (h : TCP) : UInt32 := if h.optMask.mpJoin then h.options.mpJoin.checksum else 0

theorem checksumOpts_eq (h : TCP) :
    h.checksumOpts = h.frontSum + (h.joinSum + h.backSum) := by
  obtain ⟨hlen, -⟩ := h.emitOpts_len
  have hts : ∀ (p q : Prop) [Decidable p] [Decidable q] (sum ts : UInt32),
      (if p then if q then sum + ts else sum + (0x0101 + ts) else sum)
        = sum + if p then (if ¬q then 0x0101 else 0) + ts else 0 := by
    intro p q _ _ sum ts
    split_ifs <;> simp
  rw [checksumOpts, frontSum, joinSum, backSum]
  rw [hlen]
  simp only [hts, add_ite32, UInt32.zero_add, ne_eq]
  simp only [UInt32.add_assoc]

variable {h : TCP}

theorem sumsTo_option (o : TcpOption) {a : UInt32} (ho : SumsTo o.bytes a) :
    SumsTo (bytesOf [o]) a :=
  ho.congr (List.append_nil o.bytes).symm rfl

theorem sumsTo_frontList (hfits : h.Fits) (hsize : h.size ≤ 60) :
    SumsTo (bytesOf h.frontList) h.frontSum := by
  have hsack : h.optMask.sack = true → h.options.sack.size ≤ 40 := fun hmask =>
    short_optionList hsize _ (mem_optionList_sack hmask)
  have hcap : h.optMask.mpCapable = true → h.options.mpCap.Fits := fun hmask =>
    hfits _ (mem_optionList_mpCapable hmask)
  have hts : SumsTo (bytesOf (listIf (h.lenBeforeTs % 4 ≠ 2) [.noOp, .noOp] ++ [.ts h.options.ts]))
      ((if h.lenBeforeTs % 4 ≠ 2 then 0x0101 else 0) + h.options.ts.checksum) := by
    have hnoOps := sumsTo_listIf (p := decide (h.lenBeforeTs % 4 ≠ 2)) fun _ => sumsTo_noOps
    simp only [decide_eq_true_eq] at hnoOps
    rw [bytesOf_append]
    exact hnoOps.append (sumsTo_option (.ts _) h.options.ts.sumsTo)
  simp only [frontList, bytesOf_append, frontSum]
  exact (sumsTo_listIf fun _ => sumsTo_option (.mss _) h.options.mss.sumsTo).append
    ((sumsTo_listIf fun _ => sumsTo_option (.sackPerm _) (TcpSAckPermOpt.sumsTo ⟨⟩)).append
      ((sumsTo_listIf fun hmask => TcpSAckOpt.sumsTo (hsack hmask)).append
        ((sumsTo_listIf fun _ => hts).append
          ((sumsTo_listIf fun _ => h.options.ws.sumsTo).append
            (sumsTo_listIf fun hmask =>
              sumsTo_option (.mpCapable _) (TcpMpCapableOpt.sumsTo (hcap hmask)))))))

theorem sumsTo_backList (hfits : h.Fits) : SumsTo (bytesOf h.backList) h.backSum := by
  have hdss : h.optMask.mpDss = true → h.options.mpDss.Fits := fun hmask =>
    hfits (.mpDss h.options.mpDss) (by simp [optionList, listIf, hmask])
  have hadd : h.optMask.mpAddAddr = true → h.options.mpAdd.Fits := fun hmask =>
    hfits _ (mem_optionList_mpAddAddr hmask)
  have hrst : h.optMask.mpRst = true → h.options.mpRst.Fits := fun hmask =>
    hfits (.mpRst h.options.mpRst) (by simp [optionList, listIf, hmask])
  simp only [backList, bytesOf_append, backSum]
  exact (sumsTo_listIf fun hmask =>
      sumsTo_option (.mpDss _) (TcpMpDssOpt.sumsTo (hdss hmask))).append
    ((sumsTo_listIf fun hmask =>
        sumsTo_option (.mpAddAddr _) (TcpMpAddAddrOpt.sumsTo (hadd hmask))).append
      ((sumsTo_listIf fun _ => h.options.mpRem.sumsTo).append
        ((sumsTo_listIf fun _ => h.options.mpPrio.sumsTo).append
          ((sumsTo_listIf fun _ => sumsTo_option (.mpFail _) (sumsTo_mpWord (by decide) _)).append
            ((sumsTo_listIf fun _ =>
                sumsTo_option (.mpClose _) (sumsTo_mpWord (by decide) _)).append
              (sumsTo_listIf fun hmask =>
                sumsTo_option (.mpRst _) (TcpMpRstOpt.sumsTo (hrst hmask))))))))

/-- The sum of the header without options. -/
def fixedSum (h : TCP) : UInt32 :=
  h.sport.toUInt32 + h.dport.toUInt32 + checksumUint32 h.seq + checksumUint32 h.ack
    + ((UInt32.ofNat (h.size / 4) <<< 12) ||| h.flags.toUInt32)
    + (h.window.toUInt32 + h.chksum.toUInt32 + h.urgptr.toUInt32)

theorem sumsTo_fixedBytes (hsize : h.size ≤ 60) : SumsTo h.fixedBytes h.fixedSum := by
  have hoffset : SumsTo (beBytes 1 (h.size / 4 % 2 ^ 4 * 2 ^ 4) ++ [h.flags])
      ((UInt32.ofNat (h.size / 4) <<< 12) ||| h.flags.toUInt32) := by
    have hbyte : (UInt8.ofNat (h.size / 4 * 16)).toUInt32 <<< 8
        = UInt32.ofNat (h.size / 4) <<< 12 := by
      rw [← UInt32.toNat_inj, UInt32.toNat_shiftLeft, UInt32.toNat_shiftLeft, UInt8.toNat_toUInt32,
        UInt8.toNat_ofNat', UInt32.toNat_ofNat', show (8 : UInt32).toNat % 32 = 8 from rfl,
        show (12 : UInt32).toNat % 32 = 12 from rfl, Nat.shiftLeft_eq, Nat.shiftLeft_eq]
      omega
    refine (SumsTo.pair (UInt8.ofNat (h.size / 4 * 16)) h.flags).congr ?_ (by rw [hbyte])
    rw [Nat.mod_eq_of_lt (by omega)]
    simp [beBytes]
  rw [fixedBytes, fixedSum]
  refine ((SumsTo.word h.sport).append ((SumsTo.word h.dport).append ((SumsTo.uint32 h.seq).append
    ((SumsTo.uint32 h.ack).append (hoffset.append ((SumsTo.word h.window).append
      ((SumsTo.word h.chksum).append (.word h.urgptr)))))))).congr ?_ ?_
  · simp only [List.append_assoc]
  · simp only [UInt32.add_assoc]

theorem length_bytes_even (h : TCP) : h.bytes.length % 2 = 0 := by
  have hlen := h.length_optionList
  have heven := h.plainLen_even
  have heven' := h.mptcpLen_even
  rw [bytes, List.length_append, List.length_append, length_fixedBytes, List.length_replicate,
    padding]
  split <;> omega

/-- Ports and checksum add themselves to the words of a header. -/
theorem wordSum_bytes_eq (h : TCP) : wordSum h.bytes
    = wordSum ({ h with sport := 0, dport := 0, chksum := 0 } : TCP).bytes
      + h.sport.toNat + h.dport.toNat + h.chksum.toNat := by
  have hfixed : ∀ g : TCP, wordSum g.fixedBytes = g.sport.toNat + g.dport.toNat
      + wordSum (beBytes 4 g.seq.toNat ++ (beBytes 4 g.ack.toNat ++
        (beBytes 1 (g.size / 4 % 2 ^ 4 * 2 ^ 4) ++ ([g.flags] ++ beBytes 2 g.window.toNat))))
      + g.chksum.toNat + g.urgptr.toNat := by
    intro g
    have hsplit : g.fixedBytes = beBytes 2 g.sport.toNat ++ (beBytes 2 g.dport.toNat ++
        ((beBytes 4 g.seq.toNat ++ (beBytes 4 g.ack.toNat ++
          (beBytes 1 (g.size / 4 % 2 ^ 4 * 2 ^ 4) ++ ([g.flags] ++ beBytes 2 g.window.toNat))))
        ++ (beBytes 2 g.chksum.toNat ++ beBytes 2 g.urgptr.toNat))) := by
      simp only [fixedBytes, List.append_assoc]
    rw [hsplit, wordSum_append _ _ (by simp), wordSum_append _ _ (by simp),
      wordSum_append _ (beBytes 2 g.chksum.toNat ++ beBytes 2 g.urgptr.toNat) (by simp),
      wordSum_append (beBytes 2 g.chksum.toNat) _ (by simp)]
    simp only [wordSum_beBytes_two, Nat.mod_eq_of_lt (UInt16.toNat_lt _)]
    ring
  have heven : ∀ g : TCP, g.fixedBytes.length % 2 = 0 := by
    intro g
    rw [length_fixedBytes]
  rw [bytes, bytes, wordSum_append _ _ (heven h), wordSum_append _ _ (heven _), hfixed, hfixed,
    show (0 : UInt16).toNat = 0 from rfl]
  change _ + wordSum (bytesOf h.optionList ++ List.replicate h.padding 0)
    = _ + wordSum (bytesOf h.optionList ++ List.replicate h.padding 0) + _ + _ + _
  change _ + _ + _ + _ + _ + _ = 0 + 0 + wordSum (beBytes 4 h.seq.toNat ++ (beBytes 4 h.ack.toNat
    ++ (beBytes 1 (h.size / 4 % 2 ^ 4 * 2 ^ 4) ++ ([h.flags] ++ beBytes 2 h.window.toNat))))
    + 0 + h.urgptr.toNat + _ + _ + _ + _
  ring

/-- The words of a header but for those of MP_JOIN, as they are written and as they are
summed up. -/
theorem exists_wordSum_eq (hfits : h.Fits) (hsize : h.size ≤ 60) :
    ∃ n, h.checksum = UInt32.ofNat n + h.joinSum ∧
      wordSum h.bytes = n + if h.optMask.mpJoin then wordSum h.options.mpJoin.bytes else 0 := by
  obtain ⟨hevenFixed, hfixed⟩ := sumsTo_fixedBytes hsize
  obtain ⟨hevenFront, hfront⟩ := sumsTo_frontList hfits hsize
  obtain ⟨-, hback⟩ := sumsTo_backList hfits
  have hpadding : wordSum (List.replicate h.padding 0) = 0 := by
    rw [padding]
    split <;> rfl
  have hpaddingEven : (List.replicate h.padding (0 : UInt8)).length % 2 = 0 := by
    rw [List.length_replicate, padding]
    split <;> rfl
  have hlist : wordSum (bytesOf h.optionList) = wordSum (bytesOf h.frontList) +
      ((if h.optMask.mpJoin then wordSum h.options.mpJoin.bytes else 0)
        + wordSum (bytesOf h.backList)) := by
    have hjoinEven : h.options.mpJoin.bytes.length % 2 = 0 := by
      rw [TcpMpJoinOpt.length_bytes]
      cases h.options.mpJoin <;> rw [TcpMpJoinOpt.size]
    rw [optionList_eq, bytesOf_append, bytesOf_append, wordSum_append _ _ hevenFront]
    cases h.optMask.mpJoin with
    | true =>
      rw [if_pos rfl, listIf, if_pos rfl, bytesOf_cons, bytesOf_nil, List.append_nil]
      exact congrArg _ (wordSum_append _ _ hjoinEven)
    | false => rw [if_neg Bool.false_ne_true, zero_add]; rfl
  have hlistEven : (bytesOf h.optionList).length % 2 = 0 := by
    have hlen := h.length_optionList
    have heven := h.plainLen_even
    have heven' := h.mptcpLen_even
    omega
  refine ⟨wordSum h.fixedBytes + (wordSum (bytesOf h.frontList) + wordSum (bytesOf h.backList)),
    ?_, ?_⟩
  · rw [show h.checksum = h.fixedSum + h.checksumOpts from rfl, checksumOpts_eq, hfixed, hfront,
      hback, UInt32.ofNat_add, UInt32.ofNat_add]
    ac_rfl
  · rw [bytes, wordSum_append _ _ hevenFixed, wordSum_append _ _ hlistEven, hpadding, hlist]
    omega

/-- The MAC of an MP_JOIN, if there is one, is folded to a sum without a carry. -/
def MacFolds (h : TCP) : Prop :=
  h.optMask.mpJoin = true → ∀ mac, h.options.mpJoin = .ack mac →
    fold 65536 (0x1000 + wordSum mac.toList) < 65536

/-- Part of a sum that is cut to 16 bits after one fold. -/
theorem cut_modEq_iff {n x : ℕ} (hx : x < 2 ^ 32) :
    n + fold 65536 x % 65536 ≡ n + x [MOD 65535] ↔ fold 65536 x < 65536 := by
  have hcut : fold 65536 x % 65536 ≡ x [MOD 65535] ↔ fold 65536 x < 65536 := by
    have hmod := fold_modEq (s := x) (show 1 ≤ 65536 by norm_num)
    have hlt := fold_lt (b := 65536) (s := x) (by omega)
    rw [Nat.ModEq] at hmod ⊢
    omega
  exact ⟨fun h => hcut.mp (Nat.ModEq.add_left_cancel' n h), fun h => (hcut.mpr h).add_left n⟩

/-- The contribution of a written header is congruent to the sum of its words exactly when
the fold of the MAC in an MP_JOIN does not carry. -/
theorem checksum_written_iff (hfits : h.Fits) (hsize : h.size ≤ 60) {buf : List UInt8}
    {ws : WriteStream} (hwrite : h.write (WriteStream.ofBuffer buf) = .ok () ws) :
    h.checksum.toNat ≡ wordSum (ws.data.take ws.bytePos) [MOD 0xffff] ↔ h.MacFolds := by
  obtain ⟨n, hsum, hwords⟩ := exists_wordSum_eq hfits hsize
  have hbound : wordSum h.bytes ≤ 65535 * 31 := by
    have hle := wordSum_le h.bytes
    have hlen := h.length_optionList
    have hmeasure := h.measureOpts_eq
    have hbytes : h.bytes.length ≤ 62 := by
      rw [size] at hsize
      rw [bytes, List.length_append, List.length_append, length_fixedBytes, List.length_replicate,
        padding]
      split_ifs <;> omega
    omega
  rw [take_written hwrite]
  by_cases hjoin : h.optMask.mpJoin = true
  swap
  · -- without MP_JOIN
    rw [joinSum, if_neg hjoin, UInt32.add_zero] at hsum
    rw [if_neg hjoin, add_zero] at hwords
    refine iff_of_true ?_ fun hmask => absurd hmask hjoin
    rw [hsum, UInt32.toNat_ofNat', Nat.mod_eq_of_lt (by omega), hwords]
  rw [joinSum, if_pos hjoin] at hsum
  rw [if_pos hjoin] at hwords
  have hfitsJoin : h.options.mpJoin.Fits :=
    hfits (.mpJoin h.options.mpJoin) (by simp [optionList, listIf, hjoin])
  by_cases hack : ∃ mac, h.options.mpJoin = .ack mac
  · obtain ⟨mac, hmac⟩ := hack
    have hmacs := wordSum_le mac.toList
    rw [Vector.length_toList] at hmacs
    have hfold : (onesComplementChecksum mac.toList (TcpMpSubtype.mpJoin.toUInt32 <<< 12)).toNat
        = fold 65536 (0x1000 + wordSum mac.toList) % 65536 := by
      rw [onesComplementChecksum, toNat_onesComplementChecksumScalar,
        show (TcpMpSubtype.mpJoin.toUInt32 <<< 12).toNat = 0x1000 by decide,
        Nat.mod_eq_of_lt (b := 2 ^ 32) (by omega)]
    have hn : n ≤ 65535 * 31 := by omega
    have hchk : h.checksum.toNat
        = n + 0x1e18 + fold 65536 (0x1000 + wordSum mac.toList) % 65536 := by
      have hval : h.options.mpJoin.checksum.toNat
          = 0x1e18 + fold 65536 (0x1000 + wordSum mac.toList) % 65536 := by
        rw [hmac, TcpMpJoinOpt.checksum, UInt32.toNat_add, UInt16.toNat_toUInt32, hfold]
        rw [TcpMpJoinOpt.size, show ((TcpOptKind.mptcp.toUInt32 <<< 8) ||| UInt32.ofNat 24).toNat
          = 0x1e18 by decide]
        omega
      rw [hsum, UInt32.toNat_add, hval, UInt32.toNat_ofNat']
      omega
    have hbytes : wordSum h.bytes = n + 0x1e18 + (0x1000 + wordSum mac.toList) := by
      rw [hwords, hmac, TcpMpJoinOpt.wordSum_ack, add_assoc]
    rw [hchk, hbytes, cut_modEq_iff (by omega)]
    constructor
    · intro hlt _ mac' hmac'
      rw [hmac] at hmac'
      cases hmac'
      exact hlt
    · exact fun hfolds => hfolds hjoin mac hmac
  · have hplain := (TcpMpJoinOpt.sumsTo hfitsJoin fun mac hmac => hack ⟨mac, hmac⟩).sum_eq
    refine iff_of_true ?_ fun _ mac hmac => absurd ⟨mac, hmac⟩ hack
    rw [hsum, hplain, ← UInt32.ofNat_add, ← hwords, UInt32.toNat_ofNat',
      Nat.mod_eq_of_lt (by omega)]

theorem checksum_written_iff_exampleSyn : ∃ ws,
    exampleSyn.write (WriteStream.ofBuffer (List.replicate 40 0)) = .ok () ws ∧
      (exampleSyn.checksum.toNat ≡ wordSum (ws.data.take ws.bytePos) [MOD 0xffff] ↔
        exampleSyn.MacFolds) :=
  ⟨_, (exampleSyn.writes [] (List.replicate 40 0)).1 (by decide),
    checksum_written_iff fits_exampleSyn (by decide)
      ((exampleSyn.writes [] (List.replicate 40 0)).1 (by decide))⟩

/-- The third packet of a handshake, whose MAC begins with the words `ffff` and `f000`. -/
def exampleJoin : TCP where
  flags := 0x10
  sport := 49152
  dport := 443
  optMask := { mpJoin := true }
  options := { mpJoin := .ack ⟨#[0xff, 0xff, 0xf0, 0, 0, 0, 0, 0, 0, 0, 0, 0, 0, 0, 0, 0, 0, 0, 0, 0],
    rfl⟩ }

theorem fits_exampleJoin : exampleJoin.Fits := by
  intro o ho
  have hlist : exampleJoin.optionList = [.mpJoin exampleJoin.options.mpJoin] := rfl
  rw [hlist, List.mem_singleton] at ho
  subst ho
  trivial

/-- With the subtype, the MAC adds up to `1ffff`. -/
theorem not_forall_checksum_written :
    ¬ ∀ h : TCP, h.Fits → h.size ≤ 60 → ∀ (buf : List UInt8) (ws : WriteStream),
      h.write (WriteStream.ofBuffer buf) = .ok () ws →
      h.checksum.toNat ≡ wordSum (ws.data.take ws.bytePos) [MOD 0xffff] := by
  intro hall
  have hwrite := (exampleJoin.writes [] (List.replicate 44 0)).1 (by decide)
  have hsum := hall exampleJoin fits_exampleJoin (by decide) _ _ hwrite
  rw [take_written hwrite] at hsum
  exact absurd hsum (by decide +kernel)

end TCP

end Scion
