/-
The ADD_ADDR option of MPTCP (`hdr/tcp.hpp`).

The port is written behind the address and looked for in front of it.

* `TcpMpAddAddrOpt.reads_frame` — an option with the port in front is read;
* `TcpMpAddAddrOpt.asRead`, `TcpMpAddAddrOpt.reads` — what the bytes written are taken
  for: address and port with all words moved by one place;
* `TcpMpAddAddrOpt.asRead_eq_iff` — that is the same option exactly when there is no port,
  or the port is every word of the address.
-/
import Scion.MptcpOptions

namespace Scion

open BigEndian Codec ReadStream WriteStream

/-- TCP multipath add address option. -/
structure TcpMpAddAddrOpt where
  flags : UInt16 := 0
  addressId : UInt8 := 0
  address : IPAddress := .v6 0 0 ""
  port : Option UInt16 := none
  mac : UInt64 := 0
  deriving DecidableEq, Repr

namespace TcpMpAddAddrOpt

/-- Is echo for reliability. -/
def flagEcho : UInt16 := (1 : UInt16) <<< 0

def size (o : TcpMpAddAddrOpt) : ℕ :=
  let length := 4 + o.address.size
  let length := if o.port.isSome then length + 2 else length
  if !hasFlag o.flags flagEcho then length + 8 else length

/-- The option is aligned on a boundary of two bytes. -/
def checksum (o : TcpMpAddAddrOpt) : UInt32 :=
  let sum := (TcpOptKind.mptcp.toUInt32 <<< 8) ||| UInt32.ofNat o.size
  let sum := sum + ((TcpMpSubtype.addAddr.toUInt32 <<< 12) ||| (o.flags.toUInt32 <<< 8)
    ||| o.addressId.toUInt32)
  let sum := sum + o.address.checksum
  let sum :=
    match o.port with
    | some port => sum + port.toUInt32
    | none => sum
  if !hasFlag o.flags flagEcho then sum + checksumUint64 o.mac else sum

/-- The port is looked for in front of the address. -/
def read (old : TcpMpAddAddrOpt) : Reader TcpMpAddAddrOpt := do
  verifyByte TcpOptKind.mptcp wrongKind
  let length ← ReadStream.serializeByte
  let flags ← UInt64.toUInt16 <$> readSubtype TcpMpSubtype.addAddr 16 4
  let addressId ← ReadStream.serializeByte
  let n : ℤ := length.toNat - 4
  let n := if !hasFlag flags flagEcho then n - 8 else n
  let port ← readIf (n = 6 || n = 18) (some <$> ReadStream.serializeUint16) none
  let address ← IPAddress.read (n = 4 || n = 6)
  let mac ← readIf (!hasFlag flags flagEcho) ReadStream.serializeUint64 old.mac
  pure ⟨flags, addressId, address, port, mac⟩

/-- The port is written behind the address. -/
def write (o : TcpMpAddAddrOpt) : Writer := do
  WriteStream.serializeByte TcpOptKind.mptcp
  WriteStream.serializeByte (UInt8.ofNat o.size)
  writeSubtype TcpMpSubtype.addAddr 16 o.flags.toUInt64 4
  WriteStream.serializeByte o.addressId
  o.address.write o.address.is4
  writeIf o.port.isSome (WriteStream.serializeUint16 (o.port.getD 0))
  writeIf (!hasFlag o.flags flagEcho) (WriteStream.serializeUint64 o.mac)

def portBytes (o : TcpMpAddAddrOpt) : List UInt8 :=
  bytesIf o.port.isSome (beBytes 2 (o.port.getD 0).toNat)

/-- The option with `middle` in the place of address and port. -/
def frame (o : TcpMpAddAddrOpt) (middle : List UInt8) : List UInt8 :=
  [TcpOptKind.mptcp] ++ ([UInt8.ofNat o.size] ++
    (subtypeBytes 1 TcpMpSubtype.addAddr 4 o.flags.toUInt64 ++ ([o.addressId] ++
      (middle ++ bytesIf (!hasFlag o.flags flagEcho) (beBytes 8 o.mac.toNat)))))

def bytes (o : TcpMpAddAddrOpt) : List UInt8 := o.frame (o.address.bytes ++ o.portBytes)

/-- The flags have four bits, and addresses have no zone. -/
def Fits (o : TcpMpAddAddrOpt) : Prop := o.flags.toNat < 2 ^ 4 ∧ o.address.withoutZone = o.address

def onto (o old : TcpMpAddAddrOpt) : TcpMpAddAddrOpt :=
  { o with mac := if !hasFlag o.flags flagEcho then o.mac else old.mac }

def onWire (o : TcpMpAddAddrOpt) : TcpMpAddAddrOpt := o.onto {}

theorem onWire_onto (o old : TcpMpAddAddrOpt) : (o.onto old).onWire = o.onWire := by
  simp only [onWire, onto]
  split_ifs <;> rfl

theorem size_le (o : TcpMpAddAddrOpt) : o.size ≤ 30 := by
  rw [size, IPAddress.size]
  split_ifs <;> omega

/-- The length without the parts in front of and behind address and port. -/
theorem middle_eq (o : TcpMpAddAddrOpt) :
    (if !hasFlag o.flags flagEcho then ((UInt8.ofNat o.size).toNat : ℤ) - 4 - 8
      else ((UInt8.ofNat o.size).toNat : ℤ) - 4)
      = o.address.size + if o.port.isSome then 2 else 0 := by
  have hle := o.size_le
  rw [UInt8.toNat_ofNat', Nat.mod_eq_of_lt (by omega), size]
  cases hasFlag o.flags flagEcho <;> cases o.port.isSome <;> simp <;> ring

/-- An option with the port in front of the address is read. -/
theorem reads_frame {o : TcpMpAddAddrOpt} (h : o.Fits) (old : TcpMpAddAddrOpt) :
    Reads ReadStream.cursor (read old) (o.frame (o.portBytes ++ o.address.bytes)) (o.onto old) := by
  obtain ⟨hflags, hzone⟩ := h
  have hmiddle := o.middle_eq
  set n := (if !hasFlag o.flags flagEcho then ((UInt8.ofNat o.size).toNat : ℤ) - 4 - 8
      else ((UInt8.ofNat o.size).toNat : ℤ) - 4) with hn
  have hsize : o.address.size = if o.address.is4 then 4 else 16 := rfl
  have hport : (decide (n = 6) || decide (n = 18)) = o.port.isSome := by
    rw [hmiddle, hsize]
    cases o.address.is4 <;> cases o.port.isSome <;> rfl
  have his4 : (decide (n = 4) || decide (n = 6)) = o.address.is4 := by
    rw [hmiddle, hsize]
    cases o.address.is4 <;> cases o.port.isSome <;> rfl
  have hfield := reads_if o.port.isSome (reads_map some (reads_uint16 (o.port.getD 0))) none
  have hnone : (if o.port.isSome = true then some (o.port.getD 0) else none) = o.port := by
    cases o.port <;> rfl
  have haddress := IPAddress.reads o.address
  rw [hnone, ← hport] at hfield
  rw [hzone, ← his4] at haddress
  rw [frame, portBytes, List.append_assoc, ← hport]
  exact (reads_verifyByte _ _).bind ((reads_byte _).bind
    ((reads_flags16 (by decide) (by norm_num) (by norm_num) (by norm_num) hflags).bind
      ((reads_byte o.addressId).bind (hfield.bind (haddress.bind
        (reads_if _ (reads_uint64 o.mac) old.mac).bind_pure)))))

theorem writes (o : TcpMpAddAddrOpt) : Writes WriteStream.cursor o.write o.bytes := by
  rw [bytes, frame, portBytes, List.append_assoc]
  exact (writes_byte _).bind ((writes_byte _).bind
    ((writes_flags o.flags.toUInt64 (by norm_num) (by norm_num) (by norm_num) (by decide)).bind
      ((writes_byte o.addressId).bind ((IPAddress.writes o.address).bind
        ((writes_if _ (writes_uint16 (o.port.getD 0))).bind
          (writes_if _ (writes_uint64 o.mac)))))))

/-- The option that the bytes are taken for: the first word of the address as the port, the
port as the last word of the address. -/
def asRead (o : TcpMpAddAddrOpt) : TcpMpAddAddrOpt :=
  match o.port, o.address with
  | none, _ => o
  | some p, .v4 a =>
    { o with address := .v4 ((a <<< 16) ||| p.toUInt32), port := some (a >>> 16).toUInt16 }
  | some p, .v6 hi lo _ =>
    { o with
      address := .v6 ((hi <<< 16) ||| (lo >>> 48)) ((lo <<< 16) ||| p.toUInt64) ""
      port := some (hi >>> 48).toUInt16 }

theorem toNat_shiftIn32 (x w : UInt32) (hw : w.toNat < 65536) :
    ((x <<< 16) ||| w).toNat = (x.toNat * 65536 + w.toNat) % 2 ^ 32 := by
  have hx := x.toNat_lt
  have hshift : (x <<< 16).toNat = 2 ^ 16 * (x.toNat % 65536) := by
    rw [UInt32.toNat_shiftLeft, show (16 : UInt32).toNat % 32 = 16 from rfl, Nat.shiftLeft_eq]
    omega
  rw [UInt32.toNat_or, hshift, ← Nat.two_pow_add_eq_or_of_lt hw]
  omega

theorem toNat_shiftIn64 (x w : UInt64) (hw : w.toNat < 65536) :
    ((x <<< 16) ||| w).toNat = (x.toNat * 65536 + w.toNat) % 2 ^ 64 := by
  have hx := x.toNat_lt
  have hshift : (x <<< 16).toNat = 2 ^ 16 * (x.toNat % 2 ^ 48) := by
    rw [UInt64.toNat_shiftLeft, show (16 : UInt64).toNat % 64 = 16 from rfl, Nat.shiftLeft_eq]
    omega
  rw [UInt64.toNat_or, hshift, ← Nat.two_pow_add_eq_or_of_lt hw]
  omega

theorem toNat_firstWord32 (x : UInt32) : (x >>> 16).toUInt16.toNat = x.toNat / 65536 := by
  have hx := x.toNat_lt
  rw [UInt32.toNat_toUInt16, UInt32.toNat_shiftRight, show (16 : UInt32).toNat % 32 = 16 from rfl,
    Nat.shiftRight_eq_div_pow]
  omega

theorem toNat_firstWord64 (x : UInt64) : (x >>> 48).toNat = x.toNat / 2 ^ 48 := by
  rw [UInt64.toNat_shiftRight, show (48 : UInt64).toNat % 64 = 48 from rfl,
    Nat.shiftRight_eq_div_pow]

/-- Another address of the same size, with or without port, fits the same frame. -/
theorem frame_congr {o : TcpMpAddAddrOpt} {address : IPAddress} {port : Option UInt16}
    (h4 : address.is4 = o.address.is4) (hport : port.isSome = o.port.isSome)
    (middle : List UInt8) :
    ({ o with address := address, port := port } : TcpMpAddAddrOpt).frame middle
      = o.frame middle := by
  have hsize : ({ o with address := address, port := port } : TcpMpAddAddrOpt).size = o.size := by
    simp only [size, IPAddress.size, h4, hport]
  simp only [frame, hsize]

/-- A word moves from behind to the front. -/
theorem beBytes_rotate (m n x y : ℕ) :
    beBytes m x ++ beBytes n y
      = beBytes n ((x * 256 ^ n + y % 256 ^ n) / 256 ^ m)
        ++ beBytes m (x * 256 ^ n + y % 256 ^ n) := by
  have hy : y % 256 ^ n < 256 ^ n := Nat.mod_lt _ (by positivity)
  rw [← beBytes_append, Nat.add_comm n m, beBytes_append]
  congr 1
  · rw [mul_comm, Nat.mul_add_div (by positivity), Nat.div_eq_of_lt hy, add_zero]
  · rw [← beBytes_mod n n (x * 256 ^ n + y % 256 ^ n) le_rfl, mul_comm, Nat.mul_add_mod,
      Nat.mod_mod, beBytes_mod n n _ le_rfl]

theorem bytes_asRead (o : TcpMpAddAddrOpt) :
    o.bytes = o.asRead.frame (o.asRead.portBytes ++ o.asRead.address.bytes) := by
  obtain ⟨flags, addressId, address, port, mac⟩ := o
  cases port with
  | none => rw [bytes, asRead, portBytes, Option.isSome_none, bytesIf, if_neg Bool.false_ne_true,
      List.append_nil, List.nil_append]
  | some p =>
    have hp := p.toNat_lt
    cases address with
    | v4 a =>
      have hrot := beBytes_rotate 4 2 a.toNat p.toNat
      have ha := a.toNat_lt
      have hword : (a.toNat * 256 ^ 2 + p.toNat % 256 ^ 2) / 256 ^ 4 = (a >>> 16).toUInt16.toNat := by
        rw [toNat_firstWord32]
        omega
      have haddr : ((a <<< 16) ||| p.toUInt32).toNat
          = (a.toNat * 256 ^ 2 + p.toNat % 256 ^ 2) % 256 ^ 4 := by
        rw [toNat_shiftIn32 a p.toUInt32 (by rw [UInt16.toNat_toUInt32]; exact hp),
          UInt16.toNat_toUInt32]
        omega
      rw [hword, ← beBytes_mod 4 4 (a.toNat * 256 ^ 2 + p.toNat % 256 ^ 2) le_rfl, ← haddr] at hrot
      exact (frame_congr rfl rfl _).symm.trans (congrArg _ hrot)
    | v6 hi lo zone =>
      have hhi := hi.toNat_lt
      have hlo := lo.toNat_lt
      have hrot := beBytes_rotate 16 2 (hi.toNat * 2 ^ 64 + lo.toNat) p.toNat
      set v := (hi.toNat * 2 ^ 64 + lo.toNat) * 256 ^ 2 + p.toNat % 256 ^ 2 with hv
      have hsplit : beBytes 16 (hi.toNat * 2 ^ 64 + lo.toNat)
          = beBytes 8 hi.toNat ++ beBytes 8 lo.toNat := by
        rw [show 16 = 8 + 8 from rfl, beBytes_append,
          show (hi.toNat * 2 ^ 64 + lo.toNat) / 256 ^ 8 = hi.toNat by omega,
          ← beBytes_mod 8 8 (hi.toNat * 2 ^ 64 + lo.toNat) le_rfl,
          show (hi.toNat * 2 ^ 64 + lo.toNat) % 256 ^ 8 = lo.toNat by omega]
      have hword : v / 256 ^ 16 = (hi >>> 48).toUInt16.toNat := by
        rw [UInt64.toNat_toUInt16, toNat_firstWord64]
        omega
      have hhigh : ((hi <<< 16) ||| (lo >>> 48)).toNat = v / 256 ^ 8 % 256 ^ 8 := by
        rw [toNat_shiftIn64 hi (lo >>> 48) (by rw [toNat_firstWord64]; omega), toNat_firstWord64]
        omega
      have hlow : ((lo <<< 16) ||| p.toUInt64).toNat = v % 256 ^ 8 := by
        rw [toNat_shiftIn64 lo p.toUInt64 (by rw [UInt16.toNat_toUInt64]; exact hp),
          UInt16.toNat_toUInt64]
        omega
      have hnew : beBytes 16 v = beBytes 8 ((hi <<< 16) ||| (lo >>> 48)).toNat
          ++ beBytes 8 ((lo <<< 16) ||| p.toUInt64).toNat := by
        rw [show 16 = 8 + 8 from rfl, beBytes_append, hhigh, hlow, beBytes_mod 8 8 _ le_rfl,
          beBytes_mod 8 8 _ le_rfl]
      rw [hsplit, hword, hnew] at hrot
      exact (frame_congr rfl rfl _).symm.trans (congrArg _ hrot)

theorem fits_asRead {o : TcpMpAddAddrOpt} (h : o.Fits) : o.asRead.Fits := by
  obtain ⟨hflags, hzone⟩ := h
  obtain ⟨flags, addressId, address, port, mac⟩ := o
  cases port with
  | none => exact ⟨hflags, hzone⟩
  | some p =>
    cases address with
    | v4 a => exact ⟨hflags, rfl⟩
    | v6 hi lo zone => exact ⟨hflags, rfl⟩

/-- The bytes written are read as an option. -/
theorem reads {o : TcpMpAddAddrOpt} (h : o.Fits) (old : TcpMpAddAddrOpt) :
    Reads ReadStream.cursor (read old) o.bytes (o.asRead.onto old) := by
  rw [bytes_asRead]
  exact reads_frame (fits_asRead h) old

/-- The 16-bit words of an address. -/
def words : IPAddress → List UInt16
  | .v4 a => [(a >>> 16).toUInt16, a.toUInt16]
  | .v6 hi lo _ =>
    [(hi >>> 48).toUInt16, (hi >>> 32).toUInt16, (hi >>> 16).toUInt16, hi.toUInt16,
      (lo >>> 48).toUInt16, (lo >>> 32).toUInt16, (lo >>> 16).toUInt16, lo.toUInt16]

/-- The port, if there is one, is also every word of the address. -/
def PortThroughout (o : TcpMpAddAddrOpt) : Prop := ∀ p ∈ o.port, ∀ w ∈ words o.address, w = p

instance (o : TcpMpAddAddrOpt) : Decidable o.PortThroughout :=
  decidable_of_iff ((o.port.all fun p => (words o.address).all fun w => w == p) = true) (by
    simp only [PortThroughout, Option.all_eq_true, List.all_eq_true, beq_iff_eq, Option.mem_def])

theorem portThroughout_some {o : TcpMpAddAddrOpt} {p : UInt16} (h : o.port = some p) :
    o.PortThroughout ↔ ∀ w ∈ words o.address, w.toNat = p.toNat := by
  simp only [PortThroughout, h, Option.mem_some_iff, forall_eq', UInt16.toNat_inj]

/-- A 64-bit number has four words. -/
theorem exists_words {n : ℕ} (h : n < 2 ^ 64) : ∃ a b c d : ℕ,
    (a < 65536 ∧ b < 65536 ∧ c < 65536 ∧ d < 65536) ∧
      n = a * 2 ^ 48 + b * 2 ^ 32 + c * 2 ^ 16 + d :=
  ⟨n / 2 ^ 48, n / 2 ^ 32 % 2 ^ 16, n / 2 ^ 16 % 2 ^ 16, n % 2 ^ 16, by omega, by omega⟩

theorem words_eq {a b c d : ℕ} (h : a < 65536 ∧ b < 65536 ∧ c < 65536 ∧ d < 65536) :
    (a * 2 ^ 48 + b * 2 ^ 32 + c * 2 ^ 16 + d) / 2 ^ 48 = a ∧
    (a * 2 ^ 48 + b * 2 ^ 32 + c * 2 ^ 16 + d) / 2 ^ 32 % 2 ^ 16 = b ∧
    (a * 2 ^ 48 + b * 2 ^ 32 + c * 2 ^ 16 + d) / 2 ^ 16 % 2 ^ 16 = c ∧
    (a * 2 ^ 48 + b * 2 ^ 32 + c * 2 ^ 16 + d) % 2 ^ 16 = d := by
  refine ⟨?_, ?_, ?_, ?_⟩ <;> omega

/-- The next word is shifted in. -/
theorem shiftIn_eq {a b c d w : ℕ} (h : a < 65536 ∧ b < 65536 ∧ c < 65536 ∧ d < 65536)
    (hw : w < 65536) :
    ((a * 2 ^ 48 + b * 2 ^ 32 + c * 2 ^ 16 + d) * 65536 + w) % 2 ^ 64 =
      b * 2 ^ 48 + c * 2 ^ 32 + d * 2 ^ 16 + w := by
  omega

theorem words_inj {a b c d a' b' c' d' : ℕ} (h : a < 65536 ∧ b < 65536 ∧ c < 65536 ∧ d < 65536)
    (h' : a' < 65536 ∧ b' < 65536 ∧ c' < 65536 ∧ d' < 65536) :
    a * 2 ^ 48 + b * 2 ^ 32 + c * 2 ^ 16 + d = a' * 2 ^ 48 + b' * 2 ^ 32 + c' * 2 ^ 16 + d' ↔
      a = a' ∧ b = b' ∧ c = c' ∧ d = d' := by
  constructor
  · intro heq
    obtain ⟨ha, hb, hc, hd⟩ := words_eq h
    obtain ⟨ha', hb', hc', hd'⟩ := words_eq h'
    rw [heq] at ha hb hc hd
    exact ⟨ha.symm.trans ha', hb.symm.trans hb', hc.symm.trans hc', hd.symm.trans hd'⟩
  · rintro ⟨rfl, rfl, rfl, rfl⟩
    rfl

/-- Two 64-bit numbers into which `p` is shifted, and out of which it comes, do not change
exactly when each of their words is `p`. -/
theorem shiftIn_eq_self_iff {h l p : ℕ} (hh : h < 2 ^ 64) (hl : l < 2 ^ 64) (hp : p < 65536) :
    ((h * 65536 + l / 2 ^ 48) % 2 ^ 64 = h ∧ (l * 65536 + p) % 2 ^ 64 = l ∧
        h / 2 ^ 48 % 2 ^ 16 = p) ↔
      (h / 2 ^ 48 % 2 ^ 16 = p ∧ h / 2 ^ 32 % 2 ^ 16 = p ∧ h / 2 ^ 16 % 2 ^ 16 = p ∧
        h % 2 ^ 16 = p) ∧
      l / 2 ^ 48 % 2 ^ 16 = p ∧ l / 2 ^ 32 % 2 ^ 16 = p ∧ l / 2 ^ 16 % 2 ^ 16 = p ∧
        l % 2 ^ 16 = p := by
  obtain ⟨a, b, c, d, hb, rfl⟩ := exists_words hh
  obtain ⟨a', b', c', d', hb', rfl⟩ := exists_words hl
  obtain ⟨h1, h2, h3, h4⟩ := words_eq hb
  obtain ⟨l1, l2, l3, l4⟩ := words_eq hb'
  have ha : a % 2 ^ 16 = a := Nat.mod_eq_of_lt hb.1
  have ha' : a' % 2 ^ 16 = a' := Nat.mod_eq_of_lt hb'.1
  rw [h1, h2, h3, h4, l1, l2, l3, l4, ha, ha', shiftIn_eq hb hb'.1, shiftIn_eq hb' hp,
    words_inj ⟨hb.2.1, hb.2.2.1, hb.2.2.2, hb'.1⟩ hb,
    words_inj ⟨hb'.2.1, hb'.2.2.1, hb'.2.2.2, hp⟩ hb']
  clear h1 h2 h3 h4 l1 l2 l3 l4
  omega

theorem toNat_word64 (x : UInt64) (k : UInt64) (hk : k.toNat < 64) :
    (x >>> k).toUInt16.toNat = x.toNat / 2 ^ k.toNat % 2 ^ 16 := by
  rw [UInt64.toNat_toUInt16, UInt64.toNat_shiftRight, Nat.mod_eq_of_lt hk,
    Nat.shiftRight_eq_div_pow]

theorem forall_words_v4 (a : UInt32) (p : UInt16) :
    (∀ w ∈ words (.v4 a), w.toNat = p.toNat) ↔
      a.toNat / 65536 = p.toNat ∧ a.toNat % 65536 = p.toNat := by
  simp only [words, List.forall_mem_cons, List.not_mem_nil, IsEmpty.forall_iff, implies_true,
    and_true]
  rw [toNat_firstWord32, UInt32.toNat_toUInt16]

theorem forall_words_v6 (hi lo : UInt64) (zone : String) (p : UInt16) :
    (∀ w ∈ words (.v6 hi lo zone), w.toNat = p.toNat) ↔
      (hi.toNat / 2 ^ 48 % 2 ^ 16 = p.toNat ∧ hi.toNat / 2 ^ 32 % 2 ^ 16 = p.toNat ∧
        hi.toNat / 2 ^ 16 % 2 ^ 16 = p.toNat ∧ hi.toNat % 2 ^ 16 = p.toNat) ∧
      lo.toNat / 2 ^ 48 % 2 ^ 16 = p.toNat ∧ lo.toNat / 2 ^ 32 % 2 ^ 16 = p.toNat ∧
        lo.toNat / 2 ^ 16 % 2 ^ 16 = p.toNat ∧ lo.toNat % 2 ^ 16 = p.toNat := by
  have hword : ∀ x : UInt64, (x >>> 48).toUInt16.toNat = x.toNat / 2 ^ 48 % 2 ^ 16 ∧
      (x >>> 32).toUInt16.toNat = x.toNat / 2 ^ 32 % 2 ^ 16 ∧
      (x >>> 16).toUInt16.toNat = x.toNat / 2 ^ 16 % 2 ^ 16 ∧
      x.toUInt16.toNat = x.toNat % 2 ^ 16 := fun x =>
    ⟨toNat_word64 x 48 (by decide), toNat_word64 x 32 (by decide), toNat_word64 x 16 (by decide),
      UInt64.toNat_toUInt16 x⟩
  obtain ⟨h1, h2, h3, h4⟩ := hword hi
  obtain ⟨l1, l2, l3, l4⟩ := hword lo
  simp only [words, List.forall_mem_cons, List.not_mem_nil, IsEmpty.forall_iff, implies_true,
    and_true, and_assoc]
  rw [h1, h2, h3, h4, l1, l2, l3, l4]

/-- An option is taken for itself when its port is found wherever it is looked for. -/
theorem asRead_eq_iff {o : TcpMpAddAddrOpt} (h : o.Fits) : o.asRead = o ↔ o.PortThroughout := by
  obtain ⟨flags, addressId, address, port, mac⟩ := o
  cases port with
  | none => simp [asRead, PortThroughout]
  | some p =>
    have hp := p.toNat_lt
    rw [portThroughout_some rfl]
    cases address with
    | v4 a =>
      have ha := a.toNat_lt
      have haddr := toNat_shiftIn32 a p.toUInt32 (by rw [UInt16.toNat_toUInt32]; exact hp)
      rw [UInt16.toNat_toUInt32] at haddr
      have hsame : (asRead ⟨flags, addressId, .v4 a, some p, mac⟩ = ⟨flags, addressId, .v4 a,
          some p, mac⟩) ↔ ((a <<< 16) ||| p.toUInt32) = a ∧ (a >>> 16).toUInt16 = p := by
        simp [asRead]
      rw [hsame, ← UInt32.toNat_inj, ← UInt16.toNat_inj, haddr, toNat_firstWord32, forall_words_v4]
      omega
    | v6 hi lo zone =>
      have hhi := hi.toNat_lt
      have hlo := lo.toNat_lt
      have hzone : "" = zone := by
        have hz := h.2
        simpa only [IPAddress.withoutZone, IPAddress.v6.injEq, true_and] using hz
      have hhigh := toNat_shiftIn64 hi (lo >>> 48) (by rw [toNat_firstWord64]; omega)
      have hlow := toNat_shiftIn64 lo p.toUInt64 (by rw [UInt16.toNat_toUInt64]; exact hp)
      rw [toNat_firstWord64] at hhigh
      rw [UInt16.toNat_toUInt64] at hlow
      have hsame : (asRead ⟨flags, addressId, .v6 hi lo zone, some p, mac⟩ = ⟨flags, addressId,
          .v6 hi lo zone, some p, mac⟩) ↔ ((hi <<< 16) ||| (lo >>> 48)) = hi ∧
            ((lo <<< 16) ||| p.toUInt64) = lo ∧ (hi >>> 48).toUInt16 = p := by
        simp [asRead, hzone, and_assoc]
      rw [hsame, ← UInt64.toNat_inj, ← UInt64.toNat_inj, ← UInt16.toNat_inj, hhigh, hlow,
        toNat_word64 hi 48 (by decide), forall_words_v6]
      exact shiftIn_eq_self_iff hhi hlo hp

/-- Only address and port change on the way. -/
theorem asRead_eq_of_onWire_eq {o : TcpMpAddAddrOpt} (h : o.asRead.onWire = o.onWire) :
    o.asRead = o := by
  have haddress := congrArg TcpMpAddAddrOpt.address h
  have hport := congrArg TcpMpAddAddrOpt.port h
  have hrest : ∃ address port, o.asRead = { o with address := address, port := port } := by
    obtain ⟨flags, addressId, address, port, mac⟩ := o
    cases port with
    | none => exact ⟨address, none, rfl⟩
    | some p => cases address <;> exact ⟨_, _, rfl⟩
  obtain ⟨address, port, heq⟩ := hrest
  rw [heq] at haddress hport ⊢
  simp only [onWire, onto] at haddress hport
  rw [haddress, hport]

end TcpMpAddAddrOpt

end Scion
