/-
Text written to the caller's buffer (`scion_c/scion.cpp`, `interposer.cpp`).

Each function formats to at most one character less than the length it is given and puts a
null behind what it has written.

* `printText` — the functions of the C interface, whose lengths are of 64 bits;
* `inetNtop`, `getnameinfo` — the functions of the interposer, whose lengths are of 32 bits;
* `Respects` — the text and its null are written if they fit, else a prefix of it;
* `respects_buffer_iff` — the calls that respect the length of the buffer.
-/
import Scion.HostPort
import Scion.LeastOverlap
import Scion.NameResolution
import Scion.PathMetadata
import Scion.Surrogates

namespace Scion

/-! ### Formatters -/

/-- `>ingress ISD-ASN egress`. -/
def formatTransit (hop : MetaHop) : List Char :=
  '>' :: (formatDecimal hop.ingress.toNat ++ ' ' :: (hop.isdAsn.format
    ++ ' ' :: formatDecimal hop.egress.toNat))

/-- `std::formatter<path_meta::Interfaces>`. It goes on to the first and the last entry also if
there are none. -/
def formatInterfaces : List MetaHop → Option (List Char)
  | [] => none
  | first :: rest =>
    let last := rest.getLastD first
    some (first.isdAsn.format ++ ' ' :: (formatDecimal first.egress.toNat
      ++ rest.dropLast.flatMap formatTransit
      ++ '>' :: (formatDecimal last.ingress.toNat ++ ' ' :: last.isdAsn.format)))

/-- A path without metadata. -/
def formatHops (firstAS : IsdAsn) (hops : List Hop) (lastAS : IsdAsn) : List Char :=
  firstAS.format ++ ' ' :: (hops.flatMap (fun hop =>
    formatDecimal hop.1.toNat ++ '>' :: (formatDecimal hop.2.toNat ++ [' '])) ++ lastAS.format)

/-- `std::formatter<Path>`. -/
def MetaPath.format (p : MetaPath) : Option (List Char) :=
  if p.path.type = PathType.empty then some ("empty ".toList ++ p.path.source.format)
  else
    match p.interfaces with
    | some hops => formatInterfaces hops
    | none => some (formatHops p.path.source p.path.hops p.path.destination)

/-- `std::formatter<RawPath>`. -/
def RawPathContents.format (rp : RawPathContents) : List Char :=
  if rp.type = PathType.empty then "empty".toList
  else formatHops rp.source rp.hops rp.destination

/-! ### Buffers -/

/-- The code that is returned and what is written from the start of the buffer on. -/
structure TextOut where
  code : ℤ
  written : List Char
  deriving DecidableEq, Repr

/-- `std::format_to_n` with a null put where it ends. -/
def formatToN (n : ℕ) (text : List Char) : List Char := text.take n ++ [Char.ofNat 0]

/-- The functions of the C interface, with the length they return. -/
def printText (text : List Char) (bufferLen : UInt64) : TextOut × ℕ :=
  if bufferLen = 0 then (⟨ScionError.bufferTooSmall, []⟩, text.length + 1)
  else
    (⟨if bufferLen.toNat < text.length + 1 then ScionError.bufferTooSmall else ScionError.ok,
      formatToN (bufferLen - 1).toNat text⟩, text.length + 1)

section Calls

variable (ifs : NetInterfaces)

def scionPrintHost (addr : ScionAddr) (bufferLen : UInt64) : TextOut × ℕ :=
  printText (addr.addrCast ifs).format bufferLen

def scionPrintEp (addr : SockaddrScion) (bufferLen : UInt64) : TextOut × ℕ :=
  printText (addr.endpointCast ifs).format bufferLen

/-- Without a result where the formatter has none. -/
def scionPathPrint (path : MetaPath) (bufferLen : UInt64) : Option (TextOut × ℕ) :=
  path.format.map fun text => printText text bufferLen

def scionRawPathPrint (path : RawPathContents) (bufferLen : UInt64) : TextOut × ℕ :=
  printText path.format bufferLen

/-! ### Interposer -/

/-- What `getnameinfo` and `inet_ntop` are given: a null pointer, an address of one of the
families that are looked at, or another one. -/
inductive NameAddr
  | null
  | scion (addr : ScionAddr)
  | in6 (addr : In6Addr)
  | other
  deriving DecidableEq, Repr

/-- The options of the interposer that decide on the addresses it handles. -/
structure InterposerOptions where
  extendedAddressMapping : Bool
  surrogates : AddressSurrogates

/-- The address that is printed here and not by the system. -/
def scionAddr (opts : InterposerOptions) : NameAddr → Option ScIPAddress
  | .scion addr => some (addr.addrCast ifs)
  | .in6 addr => if opts.extendedAddressMapping then opts.surrogates.in6ToScion addr else none
  | _ => none

/-- `EFAULT`. -/
def efault : ℤ := 14

/-- `ENOSPC`. -/
def enospc : ℤ := 28

/-- The text of an address and the check of its size, where `overflow` is reported. Sizes are of
32 bits, also `size - 1`. -/
def printAddress (overflow : ℤ) (a : ScIPAddress) (size : UInt32) : TextOut :=
  ⟨if a.format.length > (size - 1).toNat then overflow else 0, formatToN (size - 1).toNat a.format⟩

/-- `interposer_inet_ntop`, zero for `dst` and else the errno value that comes with NULL, or
nothing when the system is asked. `dst` tells whether there is a buffer. -/
def inetNtop (opts : InterposerOptions) (src : NameAddr) (dst : Bool) (size : UInt32) :
    Option TextOut :=
  match src with
  | .null => some ⟨efault, []⟩
  | _ =>
    (scionAddr ifs opts src).map fun a =>
      if dst then printAddress enospc a size else ⟨efault, []⟩

def eaiNoName : ℤ := -2
def eaiFail : ℤ := -4
def eaiSystem : ℤ := -11
def eaiOverflow : ℤ := -12

/-- The size of the `sockaddr` that holds the address. -/
def NameAddr.size : NameAddr → ℕ
  | scion _ => 40
  | in6 _ => 28
  | _ => 0

/-- `interposer_getnameinfo`, nothing when the system is asked. `host` is the length of the host
buffer, if there is one, and `serv` what the system reports for the service, if it is wanted. -/
def getnameinfo (opts : InterposerOptions) (addr : NameAddr) (addrlen : ℕ) (host : Option UInt32)
    (serv : Option ℤ) (nameRequired : Bool) : Option TextOut :=
  match addr with
  | .null => some ⟨eaiSystem, []⟩
  | .other => none
  | _ =>
    if (addr matches .in6 _) && !opts.extendedAddressMapping then none
    else if addrlen < addr.size then some ⟨eaiFail, []⟩
    else
      (scionAddr ifs opts addr).map fun a =>
        if host.isNone && serv.isNone then ⟨eaiNoName, []⟩
        else if nameRequired then ⟨eaiNoName, []⟩
        else
          match host with
          | none => ⟨serv.getD 0, []⟩
          | some hostlen =>
            let out := printAddress eaiOverflow a hostlen
            if out.code ≠ 0 then out else ⟨serv.getD 0, out.written⟩

/-! ### Calls that print an address or a path -/

inductive TextCall
  | host (addr : ScionAddr) (bufferLen : UInt64)
  | ep (addr : SockaddrScion) (bufferLen : UInt64)
  | path (path : MetaPath) (bufferLen : UInt64)
  | rawPath (path : RawPathContents) (bufferLen : UInt64)
  | ntop (src : NameAddr) (size : UInt32)
  | nameInfo (addr : NameAddr) (addrlen : ℕ) (hostlen : UInt32) (serv : Option ℤ)

namespace TextCall

variable (opts : InterposerOptions)

/-- The interposer is asked for the text of a SCION address, and a service that is wanted is
found. -/
def Asks : TextCall → Prop
  | ntop src _ => (scionAddr ifs opts src).isSome
  | nameInfo addr addrlen _ serv =>
    (scionAddr ifs opts addr).isSome ∧ addr.size ≤ addrlen ∧ serv.getD 0 = 0
  | _ => True

/-- The complete text. -/
def text : TextCall → Option (List Char)
  | host addr _ => some (addr.addrCast ifs).format
  | ep addr _ => some (addr.endpointCast ifs).format
  | path p _ => p.format
  | rawPath p _ => some p.format
  | ntop src _ => (scionAddr ifs opts src).map ScIPAddress.format
  | nameInfo addr .. => (scionAddr ifs opts addr).map ScIPAddress.format

/-- The length of the buffer. -/
def room : TextCall → ℕ
  | host _ bufferLen => bufferLen.toNat
  | ep _ bufferLen => bufferLen.toNat
  | path _ bufferLen => bufferLen.toNat
  | rawPath _ bufferLen => bufferLen.toNat
  | ntop _ size => size.toNat
  | nameInfo _ _ hostlen _ => hostlen.toNat

def run : TextCall → Option TextOut
  | host addr bufferLen => some (scionPrintHost ifs addr bufferLen).1
  | ep addr bufferLen => some (scionPrintEp ifs addr bufferLen).1
  | path p bufferLen => (scionPathPrint p bufferLen).map Prod.fst
  | rawPath p bufferLen => some (scionRawPathPrint p bufferLen).1
  | ntop src size => inetNtop ifs opts src true size
  | nameInfo addr addrlen hostlen serv =>
    getnameinfo ifs opts addr addrlen (some hostlen) serv false

/-- The error for a buffer that is too small. -/
def tooSmall : TextCall → ℤ
  | ntop .. => enospc
  | nameInfo .. => eaiOverflow
  | _ => ScionError.bufferTooSmall

end TextCall

end Calls

/-- Text and null are written if they fit, which is what success means. Else the error for a
small buffer is returned and a prefix of the text is left in it. -/
structure TextOut.Fills (tooSmall : ℤ) (text : List Char) (room : ℕ) (out : TextOut) : Prop where
  bounded : out.written.length ≤ room
  success : out.code = 0 ↔ text.length + 1 ≤ room
  whole : out.code = 0 → out.written = text ++ [Char.ofNat 0]
  truncated : ¬text.length + 1 ≤ room → out.code = tooSmall ∧
    (0 < room → ∃ shown, shown <+: text ∧ out.written = shown ++ [Char.ofNat 0])

theorem length_formatToN_le (n : ℕ) (text : List Char) : (formatToN n text).length ≤ n + 1 := by
  rw [formatToN, List.length_append, List.length_take, List.length_singleton]
  omega

theorem formatToN_of_fits {n : ℕ} {text : List Char} (h : text.length ≤ n) :
    formatToN n text = text ++ [Char.ofNat 0] := by
  rw [formatToN, List.take_of_length_le h]

/-- One character less than the room of a buffer that is not empty. -/
theorem fills_formatToN {tooSmall code : ℤ} {text : List Char} {n : ℕ} (hne : tooSmall ≠ 0)
    (hcode : code = if n < text.length then tooSmall else 0) :
    TextOut.Fills tooSmall text (n + 1) ⟨code, formatToN n text⟩ := by
  have hsuccess : code = 0 ↔ text.length + 1 ≤ n + 1 := by
    rw [hcode]
    by_cases hlt : n < text.length
    · rw [if_pos hlt]
      exact iff_of_false hne (by omega)
    · rw [if_neg hlt]
      exact iff_of_true rfl (by omega)
  refine ⟨length_formatToN_le n text, hsuccess, fun h => ?_, fun h => ⟨?_, fun _ => ?_⟩⟩
  · exact formatToN_of_fits (by have hfits := hsuccess.mp h; omega)
  · rw [hcode, if_pos (by omega)]
  · exact ⟨text.take n, List.take_prefix n text, rfl⟩

theorem toNat_sub_one {n : UInt64} (h : n ≠ 0) : n.toNat = (n - 1).toNat + 1 := by
  have hpos : n.toNat ≠ 0 := fun hzero => h (UInt64.toNat_inj.mp hzero)
  rw [UInt64.toNat_sub_of_le n 1 (by rw [UInt64.le_iff_toNat_le]; exact Nat.one_le_iff_ne_zero.mpr hpos),
    show (1 : UInt64).toNat = 1 from rfl]
  omega

theorem fills_printText (text : List Char) (bufferLen : UInt64) :
    (printText text bufferLen).1.Fills ScionError.bufferTooSmall text bufferLen.toNat := by
  have hne : ScionError.bufferTooSmall ≠ 0 := by decide
  rw [printText]
  by_cases hzero : bufferLen = 0
  · -- nothing is written, and the length that is needed is returned
    subst hzero
    rw [if_pos rfl]
    exact ⟨le_rfl, iff_of_false hne (by simp), fun h => absurd h hne,
      fun _ => ⟨rfl, fun h => absurd h (lt_irrefl 0)⟩⟩
  · rw [if_neg hzero]
    have hroom := toNat_sub_one hzero
    have hfills : TextOut.Fills ScionError.bufferTooSmall text ((bufferLen - 1).toNat + 1) _ :=
      fills_formatToN hne rfl
    rw [← hroom] at hfills
    have hsame : (bufferLen.toNat < text.length + 1) = ((bufferLen - 1).toNat < text.length) := by
      rw [hroom, Nat.add_lt_add_iff_right]
    simp only [hsame]
    exact hfills

/-- Of a buffer of length zero the length less one is the largest number. -/
theorem fills_printAddress_iff {overflow : ℤ} (hne : overflow ≠ 0) (a : ScIPAddress)
    (size : UInt32) :
    (printAddress overflow a size).Fills overflow a.format size.toNat ↔ size ≠ 0 := by
  constructor
  · rintro hfills rfl
    have hlen := hfills.bounded
    rw [printAddress, formatToN, List.length_append, List.length_singleton] at hlen
    exact absurd hlen (by simp)
  · intro hsize
    have hpos : size.toNat ≠ 0 := fun hzero => hsize (UInt32.toNat_inj.mp hzero)
    have hroom : size.toNat = (size - 1).toNat + 1 := by
      rw [UInt32.toNat_sub_of_le size 1
        (by rw [UInt32.le_iff_toNat_le]; exact Nat.one_le_iff_ne_zero.mpr hpos),
        show (1 : UInt32).toNat = 1 from rfl]
      omega
    rw [hroom]
    exact fills_formatToN hne rfl

namespace TextCall

variable {ifs : NetInterfaces} {opts : InterposerOptions}

variable (ifs opts) in
/-- The call writes the complete text or tells that it does not fit. -/
def Respects (call : TextCall) : Prop :=
  ∃ text out, call.text ifs opts = some text ∧ call.run ifs opts = some out ∧
    out.Fills call.tooSmall text call.room

/-- A path that is not empty has no list of interfaces or one that is not empty; for the
interposer's functions the length is positive. -/
def Safe : TextCall → Prop
  | path p _ => p.path.type = PathType.empty ∨ p.interfaces ≠ some []
  | ntop _ size => size ≠ 0
  | nameInfo _ _ hostlen _ => hostlen ≠ 0
  | _ => True

theorem isSome_format_iff (p : MetaPath) :
    (∃ text, p.format = some text) ↔ p.path.type = PathType.empty ∨ p.interfaces ≠ some [] := by
  rw [MetaPath.format]
  by_cases hempty : p.path.type = PathType.empty
  · rw [if_pos hempty]
    exact iff_of_true ⟨_, rfl⟩ (Or.inl hempty)
  · rw [if_neg hempty, or_iff_right hempty]
    cases p.interfaces with
    | none => exact iff_of_true ⟨_, rfl⟩ (Option.some_ne_none _).symm
    | some hops =>
      cases hops with
      | nil => exact iff_of_false (fun h => by cases h.choose_spec) fun h => h rfl
      | cons first rest => exact iff_of_true ⟨_, rfl⟩ (by simp)

theorem respects_path_iff (p : MetaPath) (bufferLen : UInt64) :
    (path p bufferLen).Respects ifs opts ↔ (path p bufferLen).Safe := by
  refine Iff.trans ?_ (isSome_format_iff p)
  constructor
  · rintro ⟨text, -, htext, -⟩
    exact ⟨text, htext⟩
  · rintro ⟨text, htext⟩
    have hrun : (path p bufferLen).run ifs opts = some (printText text bufferLen).1 := by
      rw [run, scionPathPrint, htext]
      rfl
    exact ⟨text, _, htext, hrun, fills_printText text bufferLen⟩

/-- The printed address of a call to the interposer. -/
theorem respects_iff_of_address {call : TextCall} {a : ScIPAddress} {size : UInt32}
    (hne : call.tooSmall ≠ 0) (htext : call.text ifs opts = some a.format)
    (hrun : call.run ifs opts = some (printAddress call.tooSmall a size))
    (hroom : call.room = size.toNat) : call.Respects ifs opts ↔ size ≠ 0 := by
  rw [← fills_printAddress_iff hne a size, ← hroom]
  constructor
  · rintro ⟨text, out, htext', hrun', hfills⟩
    rw [htext] at htext'
    rw [hrun] at hrun'
    cases htext'
    cases hrun'
    exact hfills
  · exact fun hfills => ⟨_, _, htext, hrun, hfills⟩

theorem run_ntop {src : NameAddr} {a : ScIPAddress} (h : scionAddr ifs opts src = some a)
    (size : UInt32) : (ntop src size).run ifs opts = some (printAddress enospc a size) := by
  rw [run, inetNtop.eq_def]
  cases src with
  | null => cases h
  | other => cases h
  | _ =>
    dsimp only
    rw [h]
    rfl

theorem run_nameInfo {addr : NameAddr} {a : ScIPAddress} (h : scionAddr ifs opts addr = some a)
    {addrlen : ℕ} (hlen : addr.size ≤ addrlen) (hostlen : UInt32) {serv : Option ℤ}
    (hserv : serv.getD 0 = 0) : (nameInfo addr addrlen hostlen serv).run ifs opts
      = some (printAddress eaiOverflow a hostlen) := by
  -- without an error of the host part the result is that of the service part
  have hout : (if (printAddress eaiOverflow a hostlen).code ≠ 0 then
      printAddress eaiOverflow a hostlen else ⟨serv.getD 0, (printAddress eaiOverflow a hostlen).written⟩)
        = printAddress eaiOverflow a hostlen := by
    by_cases hcode : (printAddress eaiOverflow a hostlen).code = 0
    · rw [if_neg (not_not.mpr hcode), hserv, ← hcode]
    · rw [if_pos hcode]
  cases addr with
  | null => cases h
  | scion addr =>
    rw [run, getnameinfo.eq_def]
    dsimp only
    rw [if_neg (by simp), if_neg (Nat.not_lt.mpr hlen), h]
    exact congrArg some hout
  | in6 addr =>
    have hextended : opts.extendedAddressMapping = true := by
      by_contra hnot
      rw [scionAddr, if_neg hnot] at h
      cases h
    rw [run, getnameinfo.eq_def]
    dsimp only
    rw [if_neg (by simp [hextended]), if_neg (Nat.not_lt.mpr hlen), h]
    exact congrArg some hout
  | other => cases h

/-- The calls that respect the caller's buffer. -/
theorem respects_buffer_iff {call : TextCall} (h : call.Asks ifs opts) :
    call.Respects ifs opts ↔ call.Safe := by
  cases call with
  | host addr bufferLen =>
    exact iff_of_true ⟨_, _, rfl, rfl, fills_printText _ bufferLen⟩ trivial
  | ep addr bufferLen => exact iff_of_true ⟨_, _, rfl, rfl, fills_printText _ bufferLen⟩ trivial
  | path p bufferLen => exact respects_path_iff p bufferLen
  | rawPath p bufferLen => exact iff_of_true ⟨_, _, rfl, rfl, fills_printText _ bufferLen⟩ trivial
  | ntop src size =>
    obtain ⟨a, ha⟩ := Option.isSome_iff_exists.mp h
    exact respects_iff_of_address (show enospc ≠ 0 by decide) (by rw [text, ha]; rfl)
      (run_ntop ha size) rfl
  | nameInfo addr addrlen hostlen serv =>
    obtain ⟨hsome, hlen, hserv⟩ := h
    obtain ⟨a, ha⟩ := Option.isSome_iff_exists.mp hsome
    exact respects_iff_of_address (show eaiOverflow ≠ 0 by decide) (by rw [text, ha]; rfl)
      (run_nameInfo ha hlen hostlen hserv) rfl

/-- An IPv4 address. -/
def loopback : ScionAddr := ⟨HostAddrType.ipv4, 0, 0, [127, 0, 0, 1]⟩

def noMapping : InterposerOptions := ⟨false, AddressSurrogates.empty⟩

theorem asks_loopback (size : UInt32) :
    (ntop (.scion loopback) size).Asks hostInterfaces noMapping := rfl

theorem respects_buffer_iff_loopback :
    (ntop (.scion loopback) 46).Respects hostInterfaces noMapping ↔
      (ntop (.scion loopback) 46).Safe :=
  respects_buffer_iff (asks_loopback 46)

/-- For a buffer of length zero the whole text is written. -/
theorem not_forall_respects : ¬∀ (ifs : NetInterfaces) (opts : InterposerOptions)
    (call : TextCall), call.Asks ifs opts → call.Respects ifs opts := by
  intro hall
  have hrespects := hall hostInterfaces noMapping (ntop (.scion loopback) 0) (asks_loopback 0)
  have hne : (ntop (.scion loopback) 0).tooSmall ≠ 0 := (by decide : enospc ≠ 0)
  exact (respects_iff_of_address hne rfl (run_ntop rfl 0) rfl).mp hrespects rfl

end TextCall

end Scion
