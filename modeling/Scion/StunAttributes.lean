/-
The attributes of STUN messages (`hdr/stun.hpp`).

* `STUN.reads_xorMapped`, `STUN.writes_xorMapped` — the mapped address and its
  obfuscation with the cookie and the transaction;
* `STUN.message_roundTrip` — a message that is written is read back as it was;
* `STUN.parseAttributes_eq_ok_iff` — what the loop over the attributes accepts;
* `STUN.delivers_padded_iff` — which padded lists of attributes are read: the loop
  never skips the padding.
-/
import Scion.Decoding
import Scion.Stun

namespace Scion

open BigEndian Codec ReadStream

namespace STUN

/-! ### The mapped address -/

/-- What the port is combined with. -/
def portMask : UInt16 := (magicCookie >>> 16).toUInt16

/-- What the high half of an IPv6 address is combined with. -/
def maskHi (tx : List UInt8) : UInt64 :=
  (magicCookie.toUInt64 <<< 32) ||| UInt64.ofNat (beNat (tx.take 4))

def maskLo (tx : List UInt8) : UInt64 := UInt64.ofNat (beNat ((tx.drop 4).take 8))

/-- The address as the attribute carries it. -/
def maskHost (tx : List UInt8) : IPAddress → IPAddress
  | .v4 ip => .v4 (ip ^^^ magicCookie)
  | .v6 hi lo zone => .v6 (hi ^^^ maskHi tx) (lo ^^^ maskLo tx) zone

@[simp] theorem size_maskHost (tx : List UInt8) (ip : IPAddress) :
    (maskHost tx ip).size = ip.size := by
  cases ip <;> rfl

/-- XOR-MAPPED-ADDRESS, with any value in the byte that is skipped. -/
def xorMappedBytes (tx : List UInt8) (reserved : UInt8) (address : IPEndpoint) : List UInt8 :=
  beBytes 2 StunAttribType.xorMappedAddress.toNat ++ (beBytes 2 (4 + address.host.size) ++
    ([reserved] ++ ([if address.host.is4 then StunAddrFamily.ipv4 else StunAddrFamily.ipv6] ++
      (beBytes 2 (address.port ^^^ portMask).toNat ++ (maskHost tx address.host).bytes))))

@[simp] theorem length_xorMappedBytes (tx : List UInt8) (reserved : UInt8)
    (address : IPEndpoint) :
    (xorMappedBytes tx reserved address).length = 8 + address.host.size := by
  simp only [xorMappedBytes, List.length_append, length_beBytes, List.length_singleton,
    IPAddress.length_bytes, size_maskHost]
  omega

theorem xor_xor_cancel16 (a b : UInt16) : a ^^^ b ^^^ b = a := by
  rw [UInt16.xor_assoc, UInt16.xor_self, UInt16.xor_zero]

theorem xor_xor_cancel32 (a b : UInt32) : a ^^^ b ^^^ b = a := by
  rw [UInt32.xor_assoc, UInt32.xor_self, UInt32.xor_zero]

theorem xor_xor_cancel64 (a b : UInt64) : a ^^^ b ^^^ b = a := by
  rw [UInt64.xor_assoc, UInt64.xor_self, UInt64.xor_zero]

theorem writes_xorMapped (tx : List UInt8) (address : IPEndpoint) :
    Writes WriteStream.cursor (writeXorMapped tx address) (xorMappedBytes tx 0 address) := by
  obtain ⟨host, port⟩ := address
  cases host with
  | v4 ip =>
    have hlow : ip.toUInt64.toUInt32 = ip := by simp
    have hhost : Writes WriteStream.cursor
        (WriteStream.serializeUint32 (ip.toUInt64.toUInt32 ^^^ magicCookie))
        (beBytes 4 (ip ^^^ magicCookie).toNat) := by
      rw [hlow]
      exact WriteStream.writes_uint32 _
    exact (WriteStream.writes_uint16 _).bind ((WriteStream.writes_uint16 8).bind
      ((WriteStream.writes_advanceBytes 1).bind ((WriteStream.writes_byte _).bind
        ((WriteStream.writes_uint16 _).bind hhost))))
  | v6 hi lo zone =>
    have hhost := IPAddress.writes (.v6 (hi ^^^ maskHi tx) (lo ^^^ maskLo tx) "")
    exact (WriteStream.writes_uint16 _).bind ((WriteStream.writes_uint16 20).bind
      ((WriteStream.writes_advanceBytes 1).bind ((WriteStream.writes_byte _).bind
        ((WriteStream.writes_uint16 _).bind hhost))))

/-- The high and the low half of the 16 bytes that are read at once. -/
theorem halves_bytes (hi lo : UInt64) :
    let buf := beBytes 8 hi.toNat ++ beBytes 8 lo.toNat
    UInt64.ofNat (beNat (buf.take 8)) = hi ∧ UInt64.ofNat (beNat (buf.drop 8)) = lo := by
  have hword (v : UInt64) : UInt64.ofNat (beNat (beBytes 8 v.toNat)) = v := by
    have hlt := v.toNat_lt
    rw [beNat_beBytes, Nat.mod_eq_of_lt (by omega), UInt64.ofNat_toNat]
  intro buf
  rw [List.take_left' (length_beBytes 8 _), List.drop_left' (length_beBytes 8 _)]
  exact ⟨hword hi, hword lo⟩

theorem reads_xorMapped (tx : List UInt8) (reserved : UInt8) (address : IPEndpoint) :
    Reads cursor (readXorMapped tx) (xorMappedBytes tx reserved address)
      ⟨address.host.withoutZone, address.port⟩ := by
  obtain ⟨host, port⟩ := address
  cases host with
  | v4 ip =>
    have h : Reads cursor (readXorMapped tx) (xorMappedBytes tx reserved ⟨.v4 ip, port⟩)
        ⟨.v4 (ip ^^^ magicCookie ^^^ magicCookie), port ^^^ portMask ^^^ portMask⟩ :=
      (reads_uint16 _).bind (Reads.ensure rfl ((reads_uint16 8).bind
        ((reads_advanceBytes [reserved] 1 rfl).bind ((reads_byte _).bind (Reads.ensure rfl
          (Reads.ensure rfl ((reads_uint16 _).bind (reads_uint32 _).bind_pure)))))))
    rwa [xor_xor_cancel16 port, xor_xor_cancel32 ip] at h
  | v6 hi lo zone =>
    obtain ⟨hhi, hlo⟩ := halves_bytes (hi ^^^ maskHi tx) (lo ^^^ maskLo tx)
    have hlen : (maskHost tx (.v6 hi lo zone)).bytes.length = 16 := by
      rw [IPAddress.length_bytes]
      rfl
    have h : Reads cursor (readXorMapped tx) (xorMappedBytes tx reserved ⟨.v6 hi lo zone, port⟩)
        ⟨.v6 (UInt64.ofNat (beNat ((beBytes 8 (hi ^^^ maskHi tx).toNat
              ++ beBytes 8 (lo ^^^ maskLo tx).toNat).take 8)) ^^^ maskHi tx)
          (UInt64.ofNat (beNat ((beBytes 8 (hi ^^^ maskHi tx).toNat
              ++ beBytes 8 (lo ^^^ maskLo tx).toNat).drop 8)) ^^^ maskLo tx) "",
          port ^^^ portMask ^^^ portMask⟩ :=
      (reads_uint16 _).bind (Reads.ensure rfl ((reads_uint16 20).bind
        ((reads_advanceBytes [reserved] 1 rfl).bind ((reads_byte _).bind (Reads.ensure rfl
          (Reads.ensure rfl ((reads_uint16 _).bind (reads_bytes _ 16 hlen).bind_pure)))))))
    rwa [hhi, hlo, xor_xor_cancel16 port, xor_xor_cancel64 hi, xor_xor_cancel64 lo] at h

/-- The address at the end of the attribute, whose family has been read. -/
theorem takes_maskedHost (tx : List UInt8) (family : UInt8) (port : UInt16) :
    Takes cursor
      (if family == StunAddrFamily.ipv4 then do
        let ip ← serializeUint32
        pure (⟨.v4 (ip ^^^ magicCookie), port⟩ : IPEndpoint)
      else do
        let buf ← serializeBytes 16
        pure ⟨.v6 (UInt64.ofNat (beNat (buf.take 8)) ^^^ maskHi tx)
          (UInt64.ofNat (beNat (buf.drop 8)) ^^^ maskLo tx) "", port⟩)
      fun bs address => bs = (maskHost tx address.host).bytes ∧ address.port = port ∧
        address.host.withoutZone = address.host ∧
        address.host.is4 = (family == StunAddrFamily.ipv4) := by
  by_cases hfamily : (family == StunAddrFamily.ipv4) = true
  · rw [if_pos hfamily, hfamily]
    refine (takes_uint32.bind_pure (g := fun ip : UInt32 =>
      (⟨.v4 (ip ^^^ magicCookie), port⟩ : IPEndpoint))).mono ?_
    rintro bs address ⟨ip, rfl, rfl⟩
    refine ⟨?_, rfl, rfl, rfl⟩
    rw [maskHost, xor_xor_cancel32, IPAddress.bytes]
  · rw [if_neg hfamily, Bool.not_eq_true _ |>.mp hfamily]
    refine ((fixedRead_bytes 16).takes.bind_pure (g := fun buf : List UInt8 =>
      (⟨.v6 (UInt64.ofNat (beNat (buf.take 8)) ^^^ maskHi tx)
        (UInt64.ofNat (beNat (buf.drop 8)) ^^^ maskLo tx) "", port⟩ : IPEndpoint))).mono ?_
    rintro bs address ⟨buf, ⟨hlen, hbuf⟩, rfl⟩
    obtain rfl : buf = bs := hbuf
    refine ⟨?_, rfl, rfl, rfl⟩
    have hhi := beBytes_uint64 (show (buf.take 8).length = 8 by rw [List.length_take]; omega)
    have hlo := beBytes_uint64 (show (buf.drop 8).length = 8 by rw [List.length_drop]; omega)
    simp only [maskHost]
    rw [xor_xor_cancel64, xor_xor_cancel64, IPAddress.bytes, hhi, hlo, List.take_append_drop]

/-- What is read as a mapped address is one, with no zone. -/
theorem takes_xorMapped (tx : List UInt8) :
    Takes cursor (readXorMapped tx) fun bs address =>
      ∃ reserved, bs = xorMappedBytes tx reserved address ∧
        address.host.withoutZone = address.host := by
  refine (takes_uint16.bind fun type => Takes.ensure (takes_uint16.bind fun length =>
    (takes_advanceBytes 1).bind fun _ => takes_byte.bind fun family => Takes.ensure (Takes.ensure
      (takes_uint16.bind fun port => takes_maskedHost tx family _)))).mono ?_
  rintro bs ⟨host, p⟩ ⟨_, type, r₁, rfl, rfl, htype, _, length, r₂, rfl, rfl, b₃, u, r₃, rfl, hskip,
    hrest⟩
  obtain ⟨_, family, r₄, rfl, rfl, hfamily, hlength, _, port, r₅, rfl, rfl, hhost, rfl, hzone,
    his4⟩ := hrest
  obtain ⟨reserved, rfl⟩ := List.length_eq_one_iff.mp hskip
  refine ⟨reserved, ?_, hzone⟩
  obtain rfl : type = StunAttribType.xorMappedAddress := beq_iff_eq.mp htype
  have hport : port ^^^ (magicCookie >>> 16).toUInt16 ^^^ portMask = port :=
    xor_xor_cancel16 port portMask
  simp only at hhost his4
  simp only [xorMappedBytes]
  rw [hport, hhost]
  cases host with
  | v4 ip =>
    obtain rfl : family = StunAddrFamily.ipv4 := (beq_iff_eq.mp his4.symm)
    obtain rfl : length = 8 := beq_iff_eq.mp hlength
    rfl
  | v6 hi lo zone =>
    obtain rfl : family = StunAddrFamily.ipv6 := by
      rw [← his4] at hfamily
      exact beq_iff_eq.mp hfamily
    obtain rfl : length = 20 := beq_iff_eq.mp hlength
    rfl

/-! ### Messages -/

/-- The header of a message with `length` bytes of attributes. -/
def headerBytes (type : StunMsgType) (length : ℕ) (tx : List UInt8) : List UInt8 :=
  beBytes 2 type.toNat ++ (beBytes 2 length ++ (beBytes 4 magicCookie.toNat ++ tx))

def mappedAttribute (tx : List UInt8) : Option IPEndpoint → List UInt8
  | some address => xorMappedBytes tx 0 address
  | none => []

theorem length_mappedAttribute (stun : STUN) :
    (mappedAttribute stun.transaction stun.mapped).length = stun.size - stunHeaderSize := by
  rw [size]
  cases stun.mapped with
  | none => rfl
  | some address =>
    rw [mappedAttribute, length_xorMappedBytes]
    exact (Nat.add_sub_cancel_left ..).symm

theorem size_le (stun : STUN) : stun.size - stunHeaderSize ≤ 24 := by
  rw [← length_mappedAttribute]
  cases stun.mapped with
  | none => exact Nat.zero_le _
  | some address =>
    rw [mappedAttribute, length_xorMappedBytes, IPAddress.size]
    split <;> omega

theorem writes_message (stun : STUN) :
    Writes WriteStream.cursor stun.write
      (headerBytes stun.type (stun.size - stunHeaderSize) stun.transaction
        ++ mappedAttribute stun.transaction stun.mapped) := by
  have hlen : (UInt16.ofNat (stun.size - stunHeaderSize)).toNat = stun.size - stunHeaderSize := by
    have h := stun.size_le
    rw [UInt16.toNat_ofNat', Nat.mod_eq_of_lt (by omega)]
  have hlength := WriteStream.writes_uint16 (UInt16.ofNat (stun.size - stunHeaderSize))
  rw [hlen] at hlength
  have hmapped : Writes WriteStream.cursor
      (match stun.mapped with
        | some address => writeXorMapped stun.transaction address
        | none => pure ())
      (mappedAttribute stun.transaction stun.mapped) := by
    cases stun.mapped with
    | none => exact Writes.pure
    | some address => exact writes_xorMapped stun.transaction address
  have h := (WriteStream.writes_uint16 stun.type).bind (hlength.bind
    ((WriteStream.writes_uint32 magicCookie).bind ((WriteStream.writes_bytes stun.transaction).bind
      hmapped)))
  rw [headerBytes, List.append_assoc, List.append_assoc, List.append_assoc]
  exact h

/-- The attributes are read from a stream of their own. -/
theorem read_eq (type : StunMsgType) {tx region : List UInt8} (htx : tx.length = 12)
    (hlen : region.length < 65536) (pre post : List UInt8) :
    read (cursor pre (headerBytes type region.length tx ++ (region ++ post))) =
      (match parseAttributes tx region.length none (ReadStream.ofBuffer region) with
        | .ok mapped _ => pure ⟨type, tx, mapped⟩
        | .error e _ => throw e : Reader STUN)
        (cursor (pre ++ headerBytes type region.length tx) (region ++ post)) := by
  obtain ⟨length, hlength⟩ : ∃ length : UInt16, length.toNat = region.length :=
    ⟨UInt16.ofNat region.length, by rw [UInt16.toNat_ofNat', Nat.mod_eq_of_lt hlen]⟩
  have hheader : headerBytes type region.length tx = beBytes 2 type.toNat
      ++ (beBytes 2 length.toNat ++ (beBytes 4 magicCookie.toNat ++ tx)) := by
    rw [headerBytes, hlength]
  have hpre : pre ++ beBytes 2 type.toNat ++ beBytes 2 length.toNat
      ++ beBytes 4 magicCookie.toNat ++ tx = pre ++ headerBytes type region.length tx := by
    rw [hheader]
    simp only [List.append_assoc]
  have hlookahead := lookahead_some (pre ++ headerBytes type region.length tx) region post
    length.toNat hlength.symm
  rw [← hpre] at hlookahead ⊢
  rw [hheader, List.append_assoc, List.append_assoc, List.append_assoc, read,
    bind_ok (reads_uint16 type pre _), bind_ok (reads_uint16 length _ _),
    bind_ok (reads_uint32 magicCookie _ _), beq_self_eq_true, bind_ok (ensure_true _ _),
    bind_ok (reads_bytes tx 12 htx _ _)]
  exact bind_ok hlookahead

/-! ### Attributes -/

end STUN

/-- An attribute: its type and value, or the mapped address with any value in the byte that
is skipped. -/
inductive StunAttribute
  | generic (type : UInt16) (value : List UInt8)
  | xorMapped (reserved : UInt8) (address : IPEndpoint)

namespace StunAttribute

/-- The attribute without the padding. -/
def bytes (tx : List UInt8) : StunAttribute → List UInt8
  | generic type value => beBytes 2 type.toNat ++ (beBytes 2 value.length ++ value)
  | xorMapped reserved address => STUN.xorMappedBytes tx reserved address

/-- The types other than XOR-MAPPED-ADDRESS that do not require comprehension; an address
has no zone. -/
def Supported : StunAttribute → Prop
  | generic type _ => type ≠ StunAttribType.xorMappedAddress ∧
      ¬(type < 0x8000 ∧ type > StunAttribType.xorMappedAddress)
  | xorMapped _ address => address.host.withoutZone = address.host

/-- The value fits in the buffer of a generic attribute. -/
def Fits : StunAttribute → Prop
  | generic _ value => value.length ≤ 32
  | xorMapped .. => True

/-- The last mapped address. -/
def mapped (m : Option IPEndpoint) : StunAttribute → Option IPEndpoint
  | generic .. => m
  | xorMapped _ address => some address

theorem four_le_length_bytes (tx : List UInt8) (a : StunAttribute) :
    4 ≤ (a.bytes tx).length := by
  cases a with
  | generic type value =>
    rw [bytes, List.length_append, length_beBytes, List.length_append, length_beBytes]
    omega
  | xorMapped reserved address =>
    rw [bytes, STUN.length_xorMappedBytes]
    omega

end StunAttribute

namespace STUN

open StunAttribute

theorem reads_attribute (tx : List UInt8) (type : UInt16) {value : List UInt8}
    (hfits : value.length ≤ 32) :
    Reads cursor readAttribute ((StunAttribute.generic type value).bytes tx) type := by
  have hlength : (UInt16.ofNat value.length).toNat = value.length := by
    rw [UInt16.toNat_ofNat', Nat.mod_eq_of_lt (by omega)]
  have hread := reads_uint16 (UInt16.ofNat value.length)
  rw [hlength] at hread
  refine (reads_uint16 type).bind (hread.bind (Reads.ensure ?_ ?_))
  · rw [decide_eq_true_eq, UInt16.le_iff_toNat_le, hlength]
    exact hfits
  · exact (reads_bytes value _ hlength.symm).bind_pure

theorem takes_attribute (tx : List UInt8) :
    Takes cursor readAttribute fun bs type =>
      ∃ value : List UInt8, value.length ≤ 32 ∧ bs = (StunAttribute.generic type value).bytes tx := by
  refine (takes_uint16.bind fun type => takes_uint16.bind fun length => Takes.ensure
    ((fixedRead_bytes length.toNat).takes.bind_pure (g := fun _ => type))).mono ?_
  rintro bs _ ⟨_, type, r₁, rfl, rfl, _, length, r₂, rfl, rfl, hle, value, ⟨hlen, -⟩, rfl⟩
  rw [decide_eq_true_eq, UInt16.le_iff_toNat_le] at hle
  refine ⟨r₂, hlen.trans_le hle, ?_⟩
  rw [StunAttribute.bytes, hlen]

/-- The loop looks at the type and goes on with one of the two readers. -/
theorem parseAttributes_succ (tx : List UInt8) (fuel : ℕ) (m : Option IPEndpoint) (type : UInt16)
    (pre post : List UInt8) :
    parseAttributes tx (fuel + 1) m (cursor pre (beBytes 2 type.toNat ++ post)) =
      (if type = StunAttribType.xorMappedAddress then
        readXorMapped tx >>= fun address => parseAttributes tx fuel (some address)
      else
        readAttribute >>= fun t =>
          ensure (!(t < 0x8000 && t > StunAttribType.xorMappedAddress))
            "STUN attribute not understood" >>= fun _ => parseAttributes tx fuel m)
        (cursor pre (beBytes 2 type.toNat ++ post)) := by
  have htype : UInt16.ofNat (beNat (beBytes 2 type.toNat)) = type := by
    have hlt := type.toNat_lt
    rw [beNat_beBytes, Nat.mod_eq_of_lt (by omega), UInt16.ofNat_toNat]
  have hdata : (cursor pre (beBytes 2 type.toNat ++ post)).hasData = true := by
    rw [hasData_cursor]
    rfl
  rw [parseAttributes]
  beta_reduce
  rw [hdata, if_pos rfl, bind_ok (lookahead_some pre _ post 2 (length_beBytes 2 _)), htype]

/-- The check of the type, as the loop makes it. -/
theorem not_required_iff {type : UInt16} :
    (!(decide (type < 0x8000) && decide (type > StunAttribType.xorMappedAddress))) = true ↔
      ¬(type < 0x8000 ∧ type > StunAttribType.xorMappedAddress) := by
  rw [Bool.not_eq_true', ← Bool.not_eq_true, Bool.and_eq_true, decide_eq_true_eq,
    decide_eq_true_eq]

/-- One pass of the loop. -/
theorem parseAttributes_step (tx : List UInt8) (fuel : ℕ) (m : Option IPEndpoint)
    {a : StunAttribute} (hsupported : a.Supported) (hfits : a.Fits) (pre post : List UInt8) :
    parseAttributes tx (fuel + 1) m (cursor pre (a.bytes tx ++ post))
      = parseAttributes tx fuel (a.mapped m) (cursor (pre ++ a.bytes tx) post) := by
  cases a with
  | generic type value =>
    have hoptional : (!(decide (type < 0x8000) && decide (type > StunAttribType.xorMappedAddress)))
        = true := not_required_iff.mpr hsupported.2
    have hread := reads_attribute tx type hfits pre post
    rw [StunAttribute.bytes, List.append_assoc] at hread ⊢
    rw [parseAttributes_succ, if_neg hsupported.1, bind_ok hread, hoptional,
      bind_ok (ensure_true _ _)]
    rfl
  | xorMapped reserved address =>
    have hread := reads_xorMapped tx reserved address pre post
    rw [StunAttribute.bytes]
    rw [show address.host.withoutZone = address.host from hsupported] at hread
    rw [xorMappedBytes, List.append_assoc] at hread ⊢
    rw [parseAttributes_succ, if_pos rfl, bind_ok hread]
    rfl

/-- What the loop got over is an attribute. -/
theorem exists_attribute {tx : List UInt8} {fuel : ℕ} {m m' : Option IPEndpoint}
    {pre post : List UInt8} {rs : ReadStream} (hpost : post ≠ [])
    (h : parseAttributes tx (fuel + 1) m (cursor pre post) = .ok m' rs) :
    ∃ (a : StunAttribute) (rest : List UInt8), a.Supported ∧ a.Fits ∧
      post = a.bytes tx ++ rest := by
  by_cases hshort : post.length < 2
  · have hdata : (cursor pre post).hasData = true := by
      rw [hasData_cursor, List.isEmpty_eq_false_iff.mpr hpost]
      rfl
    have hlookahead : lookahead (some 2) (cursor pre post)
        = .error "out of data to read" (cursor pre post) := by
      rw [lookahead, bitPos_cursor, if_neg (not_not.mpr rfl)]
      simp only [remaining_cursor, hshort, if_true]
    rw [parseAttributes] at h
    beta_reduce at h
    rw [hdata, if_pos rfl, bind_error hlookahead] at h
    cases h
  obtain ⟨type, rest, rfl⟩ : ∃ (type : UInt16) (rest : List UInt8),
      post = beBytes 2 type.toNat ++ rest := by
    have hlen : (post.take 2).length = 2 := by
      rw [List.length_take]
      omega
    exact ⟨_, post.drop 2, by rw [beBytes_uint16 hlen, List.take_append_drop]⟩
  rw [parseAttributes_succ] at h
  by_cases htype : type = StunAttribType.xorMappedAddress
  · rw [if_pos htype, bind_eq_ok] at h
    obtain ⟨address, rs', hread, -⟩ := h
    obtain ⟨_, rest', hbytes, -, reserved, rfl, hzone⟩ := takes_xorMapped tx _ _ _ _ hread
    exact ⟨.xorMapped reserved address, rest', hzone, trivial, hbytes⟩
  · rw [if_neg htype, bind_eq_ok] at h
    obtain ⟨t, rs', hread, hrest⟩ := h
    obtain ⟨hoptional, -⟩ := ensure_bind_eq_ok.mp hrest
    obtain ⟨_, rest', hbytes, -, value, hfits, rfl⟩ := takes_attribute tx _ _ _ _ hread
    -- the type that was looked at is the type that was read
    have heq : type = t := by
      rw [StunAttribute.bytes, List.append_assoc] at hbytes
      have hnum := congrArg beNat (List.append_inj_left hbytes
        (by rw [length_beBytes, length_beBytes]))
      have hlt := type.toNat_lt
      have hlt' := t.toNat_lt
      rw [beNat_beBytes, beNat_beBytes, Nat.mod_eq_of_lt (by omega), Nat.mod_eq_of_lt (by omega)]
        at hnum
      exact UInt16.toNat_inj.mp hnum
    subst heq
    exact ⟨.generic type value, rest', ⟨htype, not_required_iff.mp hoptional⟩, hfits, hbytes⟩

/-- A sequence of attributes, one right after the other. -/
def listBytes (tx : List UInt8) (attribs : List StunAttribute) : List UInt8 :=
  attribs.flatMap (StunAttribute.bytes tx)

@[simp] theorem listBytes_cons (tx : List UInt8) (a : StunAttribute)
    (attribs : List StunAttribute) :
    listBytes tx (a :: attribs) = a.bytes tx ++ listBytes tx attribs := rfl

theorem length_le_length_listBytes (tx : List UInt8) (attribs : List StunAttribute) :
    attribs.length ≤ (listBytes tx attribs).length := by
  induction attribs with
  | nil => exact Nat.zero_le _
  | cons a attribs ih =>
    have h := a.four_le_length_bytes tx
    rw [listBytes_cons, List.length_cons, List.length_append]
    omega

theorem parseAttributes_nil (tx : List UInt8) (fuel : ℕ) (m : Option IPEndpoint)
    (pre : List UInt8) : parseAttributes tx fuel m (cursor pre []) = .ok m (cursor pre []) := by
  have hdata : (cursor pre []).hasData = false := by
    rw [hasData_cursor]
    rfl
  cases fuel <;> simp [parseAttributes, hdata]

/-- The loop over attributes that it supports. -/
theorem parseAttributes_run (tx : List UInt8) {attribs : List StunAttribute}
    (h : ∀ a ∈ attribs, a.Supported ∧ a.Fits) (fuel : ℕ) (m : Option IPEndpoint)
    (pre post : List UInt8) :
    parseAttributes tx (attribs.length + fuel) m (cursor pre (listBytes tx attribs ++ post))
      = parseAttributes tx fuel (attribs.foldl StunAttribute.mapped m)
        (cursor (pre ++ listBytes tx attribs) post) := by
  induction attribs generalizing m pre with
  | nil =>
    rw [List.length_nil, zero_add, listBytes, List.flatMap_nil, List.append_nil]
    rfl
  | cons a attribs ih =>
    have ha := h a (List.mem_cons_self ..)
    rw [listBytes_cons, List.length_cons, show attribs.length + 1 + fuel
      = attribs.length + fuel + 1 by omega, List.append_assoc,
      parseAttributes_step tx _ m ha.1 ha.2, ih fun b hb => h b (List.mem_cons_of_mem _ hb)]
    rw [List.append_assoc, List.foldl_cons]

/-- The loop succeeds exactly on sequences of supported attributes without padding, and
returns the last address. -/
theorem parseAttributes_eq_ok_iff {tx : List UInt8} {fuel : ℕ} {m m' : Option IPEndpoint}
    (pre : List UInt8) {post : List UInt8} (hfuel : post.length ≤ fuel) :
    (∃ rs, parseAttributes tx fuel m (cursor pre post) = .ok m' rs) ↔
      ∃ attribs : List StunAttribute, (∀ a ∈ attribs, a.Supported ∧ a.Fits) ∧
        post = listBytes tx attribs ∧ attribs.foldl StunAttribute.mapped m = m' := by
  constructor
  · rintro ⟨rs, h⟩
    induction fuel generalizing m pre post with
    | zero =>
      obtain rfl := List.eq_nil_of_length_eq_zero (Nat.le_zero.mp hfuel)
      rw [parseAttributes_nil] at h
      cases h
      exact ⟨[], by simp, rfl, rfl⟩
    | succ fuel ih =>
      by_cases hpost : post = []
      · subst hpost
        rw [parseAttributes_nil] at h
        cases h
        exact ⟨[], by simp, rfl, rfl⟩
      · obtain ⟨a, rest, hsupported, hfits, rfl⟩ := exists_attribute hpost h
        have hlen := a.four_le_length_bytes tx
        rw [List.length_append] at hfuel
        rw [parseAttributes_step tx fuel m hsupported hfits] at h
        obtain ⟨attribs, hall, rfl, rfl⟩ := ih _ (by omega) h
        refine ⟨a :: attribs, ?_, rfl, rfl⟩
        rw [List.forall_mem_cons]
        exact ⟨⟨hsupported, hfits⟩, hall⟩
  · rintro ⟨attribs, hall, rfl, rfl⟩
    obtain ⟨k, rfl⟩ := Nat.exists_eq_add_of_le ((length_le_length_listBytes tx attribs).trans hfuel)
    have hrun := parseAttributes_run tx hall k m pre []
    rw [List.append_nil, parseAttributes_nil] at hrun
    exact ⟨_, hrun⟩

/-- A message is accepted exactly when its attributes are a sequence of supported ones
without padding. -/
theorem read_eq_ok_iff (type : StunMsgType) {tx region : List UInt8} (htx : tx.length = 12)
    (hlen : region.length < 65536) (pre post : List UInt8) (stun : STUN) :
    (∃ rs, read (cursor pre (headerBytes type region.length tx ++ (region ++ post)))
        = .ok stun rs) ↔
      stun.type = type ∧ stun.transaction = tx ∧
        ∃ attribs : List StunAttribute, (∀ a ∈ attribs, a.Supported ∧ a.Fits) ∧
          region = listBytes tx attribs ∧
          attribs.foldl StunAttribute.mapped none = stun.mapped := by
  rw [← parseAttributes_eq_ok_iff [] (le_refl region.length), ← ReadStream.ofBuffer_eq,
    read_eq type htx hlen]
  constructor
  · rintro ⟨rs, hread⟩
    cases hparse : parseAttributes tx region.length none (ReadStream.ofBuffer region) with
    | ok mapped rs' =>
      rw [hparse] at hread
      cases hread
      exact ⟨rfl, rfl, rs', rfl⟩
    | error e rs' =>
      rw [hparse] at hread
      cases hread
  · rintro ⟨rfl, rfl, rs, hparse⟩
    rw [hparse]
    exact ⟨_, rfl⟩

/-! ### The round trip -/

/-- A message without a zone is written in as many bytes as its size, and these are read as
the message, for every port and address. -/
theorem message_roundTrip {stun : STUN} (htx : stun.transaction.length = 12)
    (hzone : ∀ address ∈ stun.mapped, address.host.withoutZone = address.host) :
    ∃ bs, bs.length = stun.size ∧ Writes WriteStream.cursor stun.write bs ∧
      ∀ pre post, ∃ rs, read (cursor pre (bs ++ post)) = .ok stun rs := by
  have hregion := length_mappedAttribute stun
  have hsize := stun.size_le
  refine ⟨_, ?_, stun.writes_message, fun pre post => ?_⟩
  · have hheader : stunHeaderSize ≤ stun.size := by
      rw [size]
      split <;> omega
    rw [List.length_append, hregion, headerBytes]
    simp only [List.length_append, length_beBytes, htx]
    rw [stunHeaderSize] at hheader ⊢
    omega
  · obtain ⟨type, tx, mapped⟩ := stun
    have hattribs : ∃ attribs : List StunAttribute, (∀ a ∈ attribs, a.Supported ∧ a.Fits) ∧
        mappedAttribute tx mapped = listBytes tx attribs ∧
        attribs.foldl StunAttribute.mapped none = mapped := by
      cases mapped with
      | none => exact ⟨[], by simp, rfl, rfl⟩
      | some address =>
        refine ⟨[.xorMapped 0 address], ?_, (List.append_nil _).symm, rfl⟩
        rw [List.forall_mem_singleton]
        exact ⟨hzone address rfl, trivial⟩
    obtain ⟨rs, hread⟩ := (read_eq_ok_iff type htx
      (lt_of_le_of_lt (hregion.trans_le hsize) (by norm_num)) pre post ⟨type, tx, mapped⟩).mpr
        ⟨rfl, rfl, hattribs⟩
    rw [hregion] at hread
    exact ⟨rs, by rw [List.append_assoc]; exact hread⟩

/-- A mapped address that is all zeros on the wire. -/
theorem message_roundTrip_cookie :
    ∃ bs, bs.length = (⟨StunMsgType.bindingResponse, [1, 2, 3, 4, 5, 6, 7, 8, 9, 10, 11, 12],
        some ⟨.v4 0x2112a442, 0x2112⟩⟩ : STUN).size ∧
      Writes WriteStream.cursor (write ⟨StunMsgType.bindingResponse,
        [1, 2, 3, 4, 5, 6, 7, 8, 9, 10, 11, 12], some ⟨.v4 0x2112a442, 0x2112⟩⟩) bs ∧
      ∀ pre post, ∃ rs, read (cursor pre (bs ++ post))
        = .ok ⟨StunMsgType.bindingResponse, [1, 2, 3, 4, 5, 6, 7, 8, 9, 10, 11, 12],
          some ⟨.v4 0x2112a442, 0x2112⟩⟩ rs :=
  message_roundTrip rfl fun address haddress => by
    obtain rfl := Option.mem_some_iff.mp haddress
    rfl

/-! ### Padding -/

end STUN

namespace StunAttribute

def address? : StunAttribute → Option IPEndpoint
  | generic .. => none
  | xorMapped _ address => some address

/-- Bytes that fill an attribute up to a multiple of four. -/
def IsPadding (tx : List UInt8) (a : StunAttribute) (padding : List UInt8) : Prop :=
  padding.length < 4 ∧ 4 ∣ (a.bytes tx ++ padding).length

/-- An attribute the parser gets over: it fits and needs no padding. -/
def Unpadded (tx : List UInt8) (a : StunAttribute) : Prop :=
  a.Fits ∧ 4 ∣ (a.bytes tx).length

theorem xorMapped_unpadded (tx : List UInt8) (reserved : UInt8) (address : IPEndpoint) :
    (xorMapped reserved address).Unpadded tx := by
  refine ⟨trivial, ?_⟩
  rw [bytes, STUN.length_xorMappedBytes, IPAddress.size]
  split <;> decide

/-- The padding of an attribute, all of one byte. -/
def padWith (tx : List UInt8) (b : UInt8) (a : StunAttribute) : StunAttribute × List UInt8 :=
  (a, List.replicate ((4 - (a.bytes tx).length % 4) % 4) b)

@[simp] theorem padWith_fst (tx : List UInt8) (b : UInt8) (a : StunAttribute) :
    (padWith tx b a).1 = a := rfl

theorem isPadding_padWith (tx : List UInt8) (b : UInt8) (a : StunAttribute) :
    a.IsPadding tx (padWith tx b a).2 := by
  rw [IsPadding, padWith, List.length_append, List.length_replicate]
  omega

end StunAttribute

namespace STUN

/-- The attributes of a message, each with its padding. -/
def paddedBytes (tx : List UInt8) (padded : List (StunAttribute × List UInt8)) : List UInt8 :=
  padded.flatMap fun ap => ap.1.bytes tx ++ ap.2

@[simp] theorem paddedBytes_cons (tx : List UInt8) (ap : StunAttribute × List UInt8)
    (padded : List (StunAttribute × List UInt8)) :
    paddedBytes tx (ap :: padded) = ap.1.bytes tx ++ ap.2 ++ paddedBytes tx padded := rfl

/-- Attributes that need no padding have none. -/
theorem paddedBytes_of_unpadded {tx : List UInt8} {padded : List (StunAttribute × List UInt8)}
    (hpadding : ∀ ap ∈ padded, ap.1.IsPadding tx ap.2)
    (hunpadded : ∀ ap ∈ padded, ap.1.Unpadded tx) :
    paddedBytes tx padded = listBytes tx (padded.map Prod.fst) := by
  induction padded with
  | nil => rfl
  | cons ap padded ih =>
    rw [List.forall_mem_cons] at hpadding hunpadded
    obtain ⟨hshort, hdvd⟩ := hpadding.1
    have hlen := hunpadded.1.2
    rw [List.length_append] at hdvd
    have hnil : ap.2 = [] := List.eq_nil_of_length_eq_zero (by omega)
    rw [paddedBytes_cons, hnil, List.append_nil, ih hpadding.2 hunpadded.2]
    rfl

/-- No attribute that is supported begins with the byte `7f`. -/
theorem head_ne_of_supported {tx : List UInt8} {a : StunAttribute} {rest xs : List UInt8}
    (hsupported : a.Supported) (h : 0x7f :: xs = a.bytes tx ++ rest) : False := by
  cases a with
  | generic type value =>
    rw [StunAttribute.bytes, beBytes, List.cons_append, List.cons_append] at h
    obtain ⟨hhead, -⟩ := List.cons.inj h
    have hlt := type.toNat_lt
    have hval := congrArg UInt8.toNat hhead
    rw [UInt8.toNat_ofNat', pow_one] at hval
    change 127 = _ at hval
    refine hsupported.2 ⟨?_, ?_⟩
    · rw [UInt16.lt_iff_toNat_lt]
      change _ < 32768
      omega
    · rw [gt_iff_lt, UInt16.lt_iff_toNat_lt]
      change 32 < _
      omega
  | xorMapped reserved address =>
    rw [StunAttribute.bytes, xorMappedBytes, beBytes, List.cons_append, List.cons_append] at h
    obtain ⟨hhead, -⟩ := List.cons.inj h
    exact absurd hhead (by decide)

/-- Two bytes are a number below 65536. -/
theorem eq_of_beBytes_two {m n : ℕ} (hm : m < 65536) (hn : n < 65536)
    {xs ys : List UInt8} (h : beBytes 2 m ++ xs = beBytes 2 n ++ ys) : m = n ∧ xs = ys := by
  obtain ⟨hhead, htail⟩ := List.append_inj h (by rw [length_beBytes, length_beBytes])
  have hnum := congrArg beNat hhead
  rw [beNat_beBytes, beNat_beBytes, Nat.mod_eq_of_lt (by omega), Nat.mod_eq_of_lt (by omega)]
    at hnum
  exact ⟨hnum, htail⟩

/-- A value that is longer than the buffer of an attribute is not read. -/
theorem fits_of_bytes_eq {tx : List UInt8} {a b : StunAttribute} {rest rest' : List UInt8}
    (ha : a.Supported) (hfits : b.Fits) (hlen : (a.bytes tx).length < 65536)
    (h : a.bytes tx ++ rest = b.bytes tx ++ rest') : a.Fits := by
  cases a with
  | xorMapped reserved address => trivial
  | generic type value =>
    rw [StunAttribute.bytes, List.length_append, length_beBytes, List.length_append,
      length_beBytes] at hlen
    rw [StunAttribute.bytes, List.append_assoc, List.append_assoc] at h
    cases b with
    | generic type' value' =>
      have hvalue : value'.length ≤ 32 := hfits
      rw [StunAttribute.bytes, List.append_assoc, List.append_assoc] at h
      obtain ⟨-, htail⟩ := eq_of_beBytes_two type.toNat_lt type'.toNat_lt h
      obtain ⟨hlength, -⟩ := eq_of_beBytes_two (by omega) (by omega) htail
      rw [StunAttribute.Fits]
      omega
    | xorMapped reserved address =>
      rw [StunAttribute.bytes, xorMappedBytes, List.append_assoc] at h
      obtain ⟨htype, -⟩ := eq_of_beBytes_two type.toNat_lt
        StunAttribType.xorMappedAddress.toNat_lt h
      exact absurd (UInt16.toNat_inj.mp htype) ha.1

/-- Padded with `7f`, attributes that need padding or do not fit are not read. -/
theorem not_parse_padWith {tx : List UInt8} {attribs : List StunAttribute}
    (hsupported : ∀ a ∈ attribs, a.Supported)
    (hbad : ¬ ∀ a ∈ attribs, a.Unpadded tx) {fuel : ℕ} {m m' : Option IPEndpoint}
    {pre : List UInt8} {rs : ReadStream}
    (hlen : (paddedBytes tx (attribs.map (StunAttribute.padWith tx 0x7f))).length < 65536)
    (hfuel : (paddedBytes tx (attribs.map (StunAttribute.padWith tx 0x7f))).length ≤ fuel)
    (h : parseAttributes tx fuel m
      (cursor pre (paddedBytes tx (attribs.map (StunAttribute.padWith tx 0x7f)))) = .ok m' rs) : False := by
  induction attribs generalizing fuel m pre with
  | nil => exact hbad (by simp)
  | cons a attribs ih =>
    rw [List.forall_mem_cons] at hsupported
    have hfour := a.four_le_length_bytes tx
    rw [List.map_cons, paddedBytes_cons, StunAttribute.padWith_fst, List.append_assoc]
      at h hlen hfuel
    rw [List.length_append] at hlen hfuel
    obtain ⟨fuel, rfl⟩ : ∃ k, fuel = k + 1 := ⟨fuel - 1, by omega⟩
    have hne : a.bytes tx ++ ((StunAttribute.padWith tx 0x7f a).2
        ++ paddedBytes tx (attribs.map (StunAttribute.padWith tx 0x7f))) ≠ [] := by
      intro hnil
      have hzero := congrArg List.length hnil
      rw [List.length_append, List.length_nil] at hzero
      omega
    obtain ⟨b, rest, -, hbfits, heq⟩ := exists_attribute hne h
    have hfits := fits_of_bytes_eq hsupported.1 hbfits (by omega) heq
    rw [parseAttributes_step tx fuel m hsupported.1 hfits] at h
    rw [List.length_append] at hlen hfuel
    by_cases hdvd : 4 ∣ (a.bytes tx).length
    -- no padding: the next attribute follows
    · have hnil : (StunAttribute.padWith tx 0x7f a).2 = [] := by
        rw [StunAttribute.padWith, show (4 - (a.bytes tx).length % 4) % 4 = 0 by omega, List.replicate_zero]
      rw [hnil, List.nil_append] at h
      refine ih hsupported.2 (fun hall => hbad ?_) (by omega) (by omega) h
      rw [List.forall_mem_cons]
      exact ⟨⟨hfits, hdvd⟩, hall⟩
    -- the padding is taken for an attribute
    · obtain ⟨k, hk⟩ : ∃ k, (4 - (a.bytes tx).length % 4) % 4 = k + 1 :=
        ⟨(4 - (a.bytes tx).length % 4) % 4 - 1, by omega⟩
      have hcons : (StunAttribute.padWith tx 0x7f a).2 = 0x7f :: List.replicate k 0x7f := by
        rw [StunAttribute.padWith, hk, List.replicate_succ]
      rw [hcons, List.cons_append] at h
      obtain ⟨fuel, rfl⟩ : ∃ j, fuel = j + 1 := ⟨fuel - 1, by omega⟩
      obtain ⟨c, rest, hc, -, heq⟩ := exists_attribute (List.cons_ne_nil _ _) h
      exact head_ne_of_supported hc heq

/-- Every padding makes the attributes as long. -/
def paddedLength (tx : List UInt8) (attribs : List StunAttribute) : ℕ :=
  (attribs.map fun a => ((a.bytes tx).length + 3) / 4 * 4).sum

theorem length_paddedBytes {tx : List UInt8} {padded : List (StunAttribute × List UInt8)}
    (hpadding : ∀ ap ∈ padded, ap.1.IsPadding tx ap.2) :
    (paddedBytes tx padded).length = paddedLength tx (padded.map Prod.fst) := by
  induction padded with
  | nil => rfl
  | cons ap padded ih =>
    rw [List.forall_mem_cons] at hpadding
    obtain ⟨hshort, hdvd⟩ := hpadding.1
    rw [List.length_append] at hdvd
    have hsum : paddedLength tx ((ap :: padded).map Prod.fst)
        = ((ap.1.bytes tx).length + 3) / 4 * 4 + paddedLength tx (padded.map Prod.fst) := by
      rw [paddedLength, List.map_cons, List.map_cons, List.sum_cons]
      rfl
    rw [paddedBytes_cons, List.length_append, List.length_append, ih hpadding.2, hsum]
    omega

theorem foldl_mapped (attribs : List StunAttribute) (m : Option IPEndpoint) :
    attribs.foldl StunAttribute.mapped m
      = (attribs.filterMap StunAttribute.address?).foldl (fun _ address => some address) m := by
  induction attribs generalizing m with
  | nil => rfl
  | cons a attribs ih =>
    cases a with
    | generic type value => exact ih m
    | xorMapped reserved address => exact ih (some address)

/-- The binding response with these attributes is read and gives the address. -/
def Delivers (tx region pre post : List UInt8) (address : IPEndpoint) : Prop :=
  ∃ stun rs, read (cursor pre (headerBytes StunMsgType.bindingResponse region.length tx
    ++ (region ++ post))) = .ok stun rs ∧ stun.mapped = some address

theorem delivers_iff {tx region : List UInt8} (htx : tx.length = 12)
    (hlen : region.length < 65536) (pre post : List UInt8) (address : IPEndpoint) :
    Delivers tx region pre post address ↔
      ∃ attribs : List StunAttribute, (∀ a ∈ attribs, a.Supported ∧ a.Fits) ∧
        region = listBytes tx attribs ∧
        attribs.foldl StunAttribute.mapped none = some address := by
  constructor
  · rintro ⟨stun, rs, hread, hmapped⟩
    obtain ⟨-, -, hattribs⟩ := (read_eq_ok_iff _ htx hlen pre post stun).mp ⟨rs, hread⟩
    rwa [hmapped] at hattribs
  · intro hattribs
    obtain ⟨rs, hread⟩ := (read_eq_ok_iff _ htx hlen pre post
      ⟨StunMsgType.bindingResponse, tx, some address⟩).mpr ⟨rfl, rfl, hattribs⟩
    exact ⟨_, rs, hread, rfl⟩

/-- A list of supported attributes with one mapped address is read whatever the padding
exactly when no attribute needs padding and no value is too long for the parser. A single
message is read exactly when its attributes with their padding are also a sequence of
supported attributes without padding, with the same last address. -/
theorem delivers_padded_iff {tx : List UInt8} (htx : tx.length = 12)
    {attribs : List StunAttribute} {address : IPEndpoint} (hsupported : ∀ a ∈ attribs, a.Supported)
    (hone : attribs.filterMap StunAttribute.address? = [address])
    (hlen : paddedLength tx attribs < 65536) (pre post : List UInt8) :
    ((∀ padded : List (StunAttribute × List UInt8), padded.map Prod.fst = attribs →
        (∀ ap ∈ padded, ap.1.IsPadding tx ap.2) →
        Delivers tx (paddedBytes tx padded) pre post address) ↔
      ∀ a ∈ attribs, a.Unpadded tx) ∧
    ∀ padded : List (StunAttribute × List UInt8), padded.map Prod.fst = attribs →
      (∀ ap ∈ padded, ap.1.IsPadding tx ap.2) →
      (Delivers tx (paddedBytes tx padded) pre post address ↔
        ∃ others : List StunAttribute, (∀ a ∈ others, a.Supported ∧ a.Fits) ∧
          paddedBytes tx padded = listBytes tx others ∧
          others.foldl StunAttribute.mapped none = some address) := by
  refine ⟨⟨fun hdelivers => ?_, fun hunpadded padded hpadded hpadding => ?_⟩,
    fun padded hpadded hpadding => ?_⟩
  · by_contra hbad
    have hmap : (attribs.map (StunAttribute.padWith tx 0x7f)).map Prod.fst = attribs := by
      rw [List.map_map]
      exact List.map_id attribs
    have hpadding : ∀ ap ∈ attribs.map (StunAttribute.padWith tx 0x7f),
        ap.1.IsPadding tx ap.2 := by
      intro ap hap
      obtain ⟨a, -, rfl⟩ := List.mem_map.mp hap
      exact a.isPadding_padWith tx 0x7f
    have hshort := length_paddedBytes hpadding
    rw [hmap] at hshort
    have hothers := (delivers_iff htx (hshort.trans_lt hlen) pre post address).mp
      (hdelivers _ hmap hpadding)
    obtain ⟨rs, hparse⟩ := (parseAttributes_eq_ok_iff [] le_rfl).mpr hothers
    exact not_parse_padWith hsupported hbad (hshort.trans_lt hlen) le_rfl hparse
  · have hall : ∀ ap ∈ padded, ap.1.Unpadded tx := fun ap hap =>
      hunpadded ap.1 (hpadded ▸ List.mem_map_of_mem hap)
    have hshort := length_paddedBytes hpadding
    rw [hpadded] at hshort
    refine (delivers_iff htx (hshort.trans_lt hlen) pre post address).mpr ⟨attribs, ?_, ?_, ?_⟩
    · exact fun a ha => ⟨hsupported a ha, (hunpadded a ha).1⟩
    · rw [paddedBytes_of_unpadded hpadding hall, hpadded]
    · rw [foldl_mapped, hone]
      rfl
  · have hshort := length_paddedBytes hpadding
    rw [hpadded] at hshort
    exact delivers_iff htx (hshort.trans_lt hlen) pre post address

section Software

/-- A SOFTWARE attribute and an address. -/
def software (value : List UInt8) : List StunAttribute :=
  [.generic 0x8022 value, .xorMapped 0 ⟨.v4 0x0a000001, 5000⟩]

def someTx : List UInt8 := [1, 2, 3, 4, 5, 6, 7, 8, 9, 10, 11, 12]

theorem software_supported (value : List UInt8) : ∀ a ∈ software value, a.Supported := by
  rw [software, List.forall_mem_cons, List.forall_mem_singleton]
  refine ⟨⟨by decide, by decide⟩, rfl⟩

/-- Software with a name of four bytes. -/
theorem delivers_padded_iff_software :
    ((∀ padded : List (StunAttribute × List UInt8),
        padded.map Prod.fst = software [0x73, 0x74, 0x75, 0x6e] →
        (∀ ap ∈ padded, ap.1.IsPadding someTx ap.2) →
        Delivers someTx (paddedBytes someTx padded) [] [] ⟨.v4 0x0a000001, 5000⟩) ↔
      ∀ a ∈ software [0x73, 0x74, 0x75, 0x6e], a.Unpadded someTx) ∧
    ∀ padded : List (StunAttribute × List UInt8),
      padded.map Prod.fst = software [0x73, 0x74, 0x75, 0x6e] →
      (∀ ap ∈ padded, ap.1.IsPadding someTx ap.2) →
      (Delivers someTx (paddedBytes someTx padded) [] [] ⟨.v4 0x0a000001, 5000⟩ ↔
        ∃ others : List StunAttribute, (∀ a ∈ others, a.Supported ∧ a.Fits) ∧
          paddedBytes someTx padded = listBytes someTx others ∧
          others.foldl StunAttribute.mapped none = some ⟨.v4 0x0a000001, 5000⟩) :=
  delivers_padded_iff rfl (software_supported _) rfl (by decide) [] []

/-- A name of five bytes and three bytes of padding: the parser goes on in the padding. -/
theorem not_forall_delivers_padded :
    ¬ ∀ (tx : List UInt8) (padded : List (StunAttribute × List UInt8)) (address : IPEndpoint),
      tx.length = 12 → (∀ a ∈ padded.map Prod.fst, a.Supported) →
      (padded.map Prod.fst).filterMap StunAttribute.address? = [address] →
      paddedLength tx (padded.map Prod.fst) < 65536 →
      (∀ ap ∈ padded, ap.1.IsPadding tx ap.2) →
      Delivers tx (paddedBytes tx padded) [] [] address := by
  intro h
  have hpadding : ∀ ap ∈ (software [0x73, 0x63, 0x69, 0x6f, 0x6e]).map
      (StunAttribute.padWith someTx 0), ap.1.IsPadding someTx ap.2 := by
    intro ap hap
    obtain ⟨a, -, rfl⟩ := List.mem_map.mp hap
    exact a.isPadding_padWith someTx 0
  obtain ⟨stun, rs, hread, -⟩ := h someTx
    ((software [0x73, 0x63, 0x69, 0x6f, 0x6e]).map (StunAttribute.padWith someTx 0))
    ⟨.v4 0x0a000001, 5000⟩ rfl (software_supported [0x73, 0x63, 0x69, 0x6f, 0x6e]) rfl
    (by decide) hpadding
  cases hread

end Software

end STUN

end Scion
