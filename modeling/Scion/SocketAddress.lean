/-
Socket addresses of the C interface (`scion_c/scion.cpp`, `scion.h`).

The fields of a `sockaddr_scion` are in network byte order; the host is little-endian.
Zones are carried as interface indices.

* `NetInterfaces` — names and indices of the network interfaces;
* `addrCast`, `endpointCast` and `ScionAddr.addrCast`, `SockaddrScion.endpointCast` —
  the conversions to socket addresses and back;
* `scionBind` — the endpoint that a socket is bound to;
* `sockaddrs_kept_iff` — the endpoints that are read back, and the native addresses that
  are bound like the SCION address of the same host and port.
-/
import Scion.IPText
import Scion.StreamBits

namespace Scion

open BigEndian

theorem byteswap64_byteswap64 (x : UInt64) : byteswap64 (byteswap64 x) = x := by
  have hlt : beNat (beBytes 8 x.toNat).reverse < 256 ^ (beBytes 8 x.toNat).reverse.length :=
    beNat_lt _
  rw [List.length_reverse, length_beBytes] at hlt
  have hback : beBytes 8 (beNat (beBytes 8 x.toNat).reverse) = (beBytes 8 x.toNat).reverse := by
    have h := beBytes_beNat (beBytes 8 x.toNat).reverse
    rwa [List.length_reverse, length_beBytes] at h
  rw [byteswap64, byteswap64, UInt64.toNat_ofNat',
    Nat.mod_eq_of_lt (show beNat (beBytes 8 x.toNat).reverse < 2 ^ 64 from hlt), hback,
    List.reverse_reverse, beNat_beBytes,
    Nat.mod_eq_of_lt (show x.toNat < 256 ^ 8 from x.toNat_lt), UInt64.ofNat_toNat]

/-! ### Network interfaces -/

/-- `IF_NAMESIZE`, which counts the terminating null. -/
def ifNameSize : ℕ := 16

/-- `if_nametoindex`, zero for other names, and `if_indextoname`: between the names of the
interfaces and positive indices. -/
structure NetInterfaces where
  nameToIndex : String → UInt32
  indexToName : UInt32 → Option String
  inverse : ∀ name index, index ≠ 0 → (nameToIndex name = index ↔ indexToName index = some name)
  fits : ∀ index name, indexToName index = some name →
    name ≠ "" ∧ name.length < ifNameSize ∧ Char.ofNat 0 ∉ name.toList

/-- What `zoneId` leaves of a zone in its buffer, up to the first null. -/
def zoneName (zone : String) : String :=
  String.ofList ((zone.toList.take (min zone.length ifNameSize - 1)).takeWhile (· != Char.ofNat 0))

/-- The numerical zone ID, zero if there is no zone. -/
def IPAddress.zoneId (ifs : NetInterfaces) (ip : IPAddress) : UInt32 :=
  if ip.zone = "" then 0 else ifs.nameToIndex (zoneName ip.zone)

/-! ### Conversions -/

/-- `scion_addr`. -/
structure ScionAddr where
  hostType : HostAddrType
  scopeId : UInt32
  isdAsn : UInt64
  addr : List UInt8
  deriving DecidableEq, Repr

/-- `sockaddr_scion` of the family `AF_SCION`. -/
structure SockaddrScion where
  port : UInt16
  flowinfo : UInt32
  addr : ScionAddr
  deriving DecidableEq, Repr

/-- Bytes of an address, or of the union that holds it, as an IPv4 address. -/
def makeIPv4 (bytes : List UInt8) : IPAddress := .v4 (UInt32.ofNat (beNat (bytes.take 4)))

def makeIPv6 (bytes : List UInt8) (zone : String) : IPAddress :=
  .v6 (UInt64.ofNat (beNat (bytes.take 8))) (UInt64.ofNat (beNat ((bytes.drop 8).take 8))) zone

variable (ifs : NetInterfaces)

def addrCast (a : ScIPAddress) : ScionAddr where
  hostType := a.host.type
  scopeId := if a.host.zone ≠ "" then byteswap32 (a.host.zoneId ifs) else 0
  isdAsn := byteswap64 a.isdAsn.ia
  addr := a.host.bytes ++ List.replicate (16 - a.host.size) 0

/-- The zone of a scope id, empty for the index of no interface. -/
def ScionAddr.zone (saddr : ScionAddr) : String :=
  if saddr.scopeId ≠ 0 then (ifs.indexToName saddr.scopeId).getD "" else ""

/-- Another host type fails an assertion, without which the host is the default address. -/
def ScionAddr.addrCast (saddr : ScionAddr) : ScIPAddress where
  isdAsn := ⟨byteswap64 saddr.isdAsn⟩
  host :=
    if saddr.hostType = HostAddrType.ipv4 then makeIPv4 saddr.addr
    else if saddr.hostType = HostAddrType.ipv6 then makeIPv6 saddr.addr (saddr.zone ifs)
    else .v6 0 0 ""

def endpointCast (ep : ScIPEndpoint) : SockaddrScion where
  port := byteswap16 ep.port
  flowinfo := 0
  addr := addrCast ifs ep.address

def SockaddrScion.endpointCast (sa : SockaddrScion) : ScIPEndpoint :=
  let address := sa.addr.addrCast ifs
  ⟨address.isdAsn, address.host, byteswap16 sa.port⟩

/-! ### Binding -/

/-- What a `sockaddr` points to: its family, and the fields of a known family. -/
inductive BindAddr
  | scion (sa : SockaddrScion)
  | in4 (addr : List UInt8) (port : UInt16)
  | in6 (addr : List UInt8) (port : UInt16) (scopeId : UInt32)
  | other
  deriving DecidableEq, Repr

/-- The `sizeof` of its type. -/
def BindAddr.size : BindAddr → ℕ
  | scion _ => 40
  | in4 .. => 16
  | in6 .. => 28
  | other => 0

/-- The endpoint that the socket is bound to. -/
def scionBind (localAS : IsdAsn) (addr : BindAddr) (addrLen : ℕ) : Maybe ScIPEndpoint :=
  match addr with
  | .scion sa => if addrLen < addr.size then .error .invalidArgument else .ok (sa.endpointCast ifs)
  | .in4 ip port =>
    if addrLen < addr.size then .error .invalidArgument else .ok ⟨localAS, makeIPv4 ip, port⟩
  | .in6 ip port _ =>
    if addrLen < addr.size then .error .invalidArgument else .ok ⟨localAS, makeIPv6 ip "", port⟩
  | .other => .error .notImplemented

/-- The `sockaddr_in` or `sockaddr_in6` of a host and a port in network byte order. -/
def nativeAddr (host : IPAddress) (port : UInt16) (scopeId : UInt32) : BindAddr :=
  if host.is4 then .in4 host.bytes (byteswap16 port)
  else .in6 host.bytes (byteswap16 port) scopeId

/-! ### Reading back -/

theorem uint64_ofNat_beNat (n : UInt64) : UInt64.ofNat (beNat (beBytes 8 n.toNat)) = n := by
  rw [beNat_beBytes, Nat.mod_eq_of_lt (show n.toNat < 256 ^ 8 from n.toNat_lt), UInt64.ofNat_toNat]

theorem makeIPv4_bytes (addr : UInt32) (rest : List UInt8) :
    makeIPv4 ((IPAddress.v4 addr).bytes ++ rest) = .v4 addr := by
  rw [makeIPv4, IPAddress.bytes, List.take_left' (length_beBytes 4 _), beNat_beBytes,
    Nat.mod_eq_of_lt (show addr.toNat < 256 ^ 4 from addr.toNat_lt), UInt32.ofNat_toNat]

theorem makeIPv6_bytes (hi lo : UInt64) (zone back : String) (rest : List UInt8) :
    makeIPv6 ((IPAddress.v6 hi lo zone).bytes ++ rest) back = .v6 hi lo back := by
  rw [makeIPv6, IPAddress.bytes, List.append_assoc, List.take_left' (length_beBytes 8 _),
    List.drop_left' (length_beBytes 8 _), List.take_left' (length_beBytes 8 _),
    uint64_ofNat_beNat, uint64_ofNat_beNat]

/-- The same address with another zone. IPv4 addresses have none. -/
def IPAddress.withZone (zone : String) : IPAddress → IPAddress
  | .v4 addr => .v4 addr
  | .v6 hi lo _ => .v6 hi lo zone

/-- The zone that is found when a socket address is read. -/
def zoneBack (ip : IPAddress) : String := (addrCast ifs ⟨⟨0⟩, ip⟩).zone ifs

section Fields

variable (a : ScIPAddress)

theorem hostType_addrCast : (addrCast ifs a).hostType = a.host.type := rfl

theorem isdAsn_addrCast : (addrCast ifs a).isdAsn = byteswap64 a.isdAsn.ia := rfl

theorem addr_addrCast :
    (addrCast ifs a).addr = a.host.bytes ++ List.replicate (16 - a.host.size) 0 := rfl

theorem scopeId_addrCast : (addrCast ifs a).scopeId
    = if a.host.zone ≠ "" then byteswap32 (a.host.zoneId ifs) else 0 := rfl

theorem zone_addrCast : (addrCast ifs a).zone ifs = zoneBack ifs a.host := by
  rw [zoneBack, ScionAddr.zone, ScionAddr.zone, scopeId_addrCast, scopeId_addrCast]

end Fields

theorem addrCast_addrCast (a : ScIPAddress) :
    (addrCast ifs a).addrCast ifs = ⟨a.isdAsn, a.host.withZone (zoneBack ifs a.host)⟩ := by
  rw [ScionAddr.addrCast, isdAsn_addrCast, hostType_addrCast, addr_addrCast, zone_addrCast,
    byteswap64_byteswap64]
  congr 1
  cases a.host with
  | v4 addr =>
    rw [if_pos (show (IPAddress.v4 addr).type = HostAddrType.ipv4 from rfl), makeIPv4_bytes]
    rfl
  | v6 hi lo zone =>
    have h6 : (IPAddress.v6 hi lo zone).type = HostAddrType.ipv6 := rfl
    rw [h6, if_neg (by decide), if_pos rfl, makeIPv6_bytes]
    rfl

/-- Only the zone of an endpoint can change. -/
theorem endpointCast_endpointCast (e : ScIPEndpoint) : (endpointCast ifs e).endpointCast ifs
    = ⟨e.isdAsn, e.host.withZone (zoneBack ifs e.host), e.port⟩ := by
  rw [SockaddrScion.endpointCast]
  dsimp only [endpointCast]
  rw [addrCast_addrCast, byteswap16_byteswap16]
  rfl

theorem withZone_eq_iff {ip : IPAddress} {zone : String} :
    ip.withZone zone = ip ↔ ip.is4 = true ∨ zone = ip.zone := by
  cases ip with
  | v4 addr => exact iff_of_true rfl (Or.inl rfl)
  | v6 hi lo own =>
    rw [IPAddress.withZone, IPAddress.v6.injEq]
    constructor
    · exact fun h => Or.inr h.2.2
    · rintro (h | h)
      · cases h
      · exact ⟨rfl, rfl, h⟩

/-! ### Zones -/

variable {ifs}

/-- A name of an interface. -/
def NetInterfaces.IsName (ifs : NetInterfaces) (name : String) : Prop := ifs.nameToIndex name ≠ 0

instance (name : String) : Decidable (ifs.IsName name) :=
  inferInstanceAs (Decidable (ifs.nameToIndex name ≠ 0))

/-- The name of an interface loses its last character in the buffer. -/
theorem zoneName_of_isName {name : String} (h : ifs.IsName name) :
    zoneName name = String.ofList name.toList.dropLast := by
  obtain ⟨-, hlen, hnull⟩ := ifs.fits _ _ ((ifs.inverse name _ h).mp rfl)
  have hmin : min name.length ifNameSize = name.length := Nat.min_eq_left hlen.le
  -- a name holds no null, so only the length cuts it
  have hkeep : ∀ c ∈ name.toList.dropLast, (c != Char.ofNat 0) = true := by
    intro c hc
    rw [bne_iff_ne]
    rintro rfl
    exact hnull (List.mem_of_mem_dropLast hc)
  rw [zoneName, hmin, ← String.length_toList, ← List.dropLast_eq_take,
    List.takeWhile_eq_self_iff.mpr hkeep]

/-- The index that a socket address carries is read as that of `zone`. -/
theorem zone_eq_iff {saddr : ScionAddr} {zone : String} (h : zone ≠ "") :
    saddr.zone ifs = zone ↔ ifs.IsName zone ∧ ifs.nameToIndex zone = saddr.scopeId := by
  rw [ScionAddr.zone]
  by_cases hzero : saddr.scopeId = 0
  · rw [if_neg (not_not.mpr hzero), hzero]
    exact iff_of_false (Ne.symm h) fun hname => hname.1 hname.2
  · rw [if_pos hzero, NetInterfaces.IsName]
    cases hname : ifs.indexToName saddr.scopeId with
    | none =>
      refine iff_of_false (Ne.symm h) fun hindex => ?_
      rw [(ifs.inverse zone _ hzero).mp hindex.2] at hname
      cases hname
    | some name =>
      rw [Option.getD_some]
      constructor
      · rintro rfl
        have hindex := (ifs.inverse name _ hzero).mpr hname
        exact ⟨hindex ▸ hzero, hindex⟩
      · rintro ⟨-, hindex⟩
        rw [(ifs.inverse zone _ hzero).mp hindex] at hname
        exact (Option.some.inj hname).symm

/-- No zone is read from the index of no interface. -/
theorem zone_eq_empty_iff {saddr : ScionAddr} :
    saddr.zone ifs = "" ↔ ∀ name, ifs.IsName name → ifs.nameToIndex name ≠ saddr.scopeId := by
  constructor
  · -- an interface with this index would be read, and its name is not empty
    intro hempty name hname hindex
    have hscope := ifs.inverse name _ hname
    obtain ⟨hne, -⟩ := ifs.fits _ _ (hscope.mp rfl)
    exact hne (((zone_eq_iff hne).mpr ⟨hname, hindex⟩).symm.trans hempty)
  · intro hnone
    by_contra hne
    obtain ⟨hname, hindex⟩ := (zone_eq_iff hne).mp rfl
    exact hnone _ hname hindex

theorem scopeId_of_zone {isdAsn : IsdAsn} {ip : IPAddress} (h : ip.zone ≠ "") :
    (addrCast ifs ⟨isdAsn, ip⟩).scopeId = byteswap32 (ifs.nameToIndex (zoneName ip.zone)) := by
  rw [scopeId_addrCast, if_pos h, IPAddress.zoneId, if_neg h]

theorem zoneBack_of_empty {ip : IPAddress} (h : ip.zone = "") : zoneBack ifs ip = "" := by
  have hscope : (addrCast ifs ⟨⟨0⟩, ip⟩).scopeId = 0 := if_neg (not_not.mpr h)
  rw [zoneBack, ScionAddr.zone, hscope, if_neg (not_not.mpr rfl)]

/-- No zone, or one whose index is the byte reversal of what is looked up for it. -/
def ZoneKept (ifs : NetInterfaces) (zone : String) : Prop :=
  zone = "" ∨ ifs.nameToIndex zone = byteswap32 (ifs.nameToIndex (zoneName zone))

/-- No zone, or the byte reversal of what is looked up for it is the index of no interface. -/
def ZoneLost (ifs : NetInterfaces) (zone : String) : Prop :=
  zone = "" ∨ ∀ name, ifs.IsName name →
    ifs.nameToIndex name ≠ byteswap32 (ifs.nameToIndex (zoneName zone))

theorem zoneBack_eq_iff {ip : IPAddress} (h : ip.zone = "" ∨ ifs.IsName ip.zone) :
    zoneBack ifs ip = ip.zone ↔ ZoneKept ifs ip.zone := by
  by_cases hempty : ip.zone = ""
  · exact iff_of_true ((zoneBack_of_empty hempty).trans hempty.symm) (Or.inl hempty)
  · have hname := h.resolve_left hempty
    rw [zoneBack, zone_eq_iff hempty, scopeId_of_zone hempty]
    constructor
    · exact fun hback => Or.inr hback.2
    · exact fun hkept => ⟨hname, hkept.resolve_left hempty⟩

theorem zoneBack_eq_empty_iff {ip : IPAddress} : zoneBack ifs ip = "" ↔ ZoneLost ifs ip.zone := by
  by_cases hempty : ip.zone = ""
  · exact iff_of_true (zoneBack_of_empty hempty) (Or.inl hempty)
  · rw [zoneBack, zone_eq_empty_iff, scopeId_of_zone hempty, ZoneLost, or_iff_right hempty]

/-! ### The same endpoints -/

theorem endpointCast_eq_iff {e : ScIPEndpoint} (h : e.host.zone = "" ∨ ifs.IsName e.host.zone) :
    (endpointCast ifs e).endpointCast ifs = e ↔ ZoneKept ifs e.host.zone := by
  rw [← zoneBack_eq_iff h, endpointCast_endpointCast]
  obtain ⟨isdAsn, host, port⟩ := e
  have hfields : (⟨isdAsn, host.withZone (zoneBack ifs host), port⟩ : ScIPEndpoint)
      = ⟨isdAsn, host, port⟩ ↔ host.withZone (zoneBack ifs host) = host := by
    simp
  refine hfields.trans (withZone_eq_iff.trans (or_iff_right_of_imp fun h4 => ?_))
  cases host with
  | v4 addr => exact zoneBack_of_empty rfl
  | v6 hi lo zone => cases h4

/-- A native address and the SCION address of the same host and port are bound alike, whatever
the lengths that come with them. -/
def BoundAlike (ifs : NetInterfaces) (localAS : IsdAsn) (host : IPAddress) (port : UInt16)
    (scopeId : UInt32) : Prop :=
  ∀ n m, (nativeAddr host port scopeId).size ≤ n →
    (BindAddr.scion (endpointCast ifs ⟨localAS, host, port⟩)).size ≤ m →
    scionBind ifs localAS (nativeAddr host port scopeId) n
      = scionBind ifs localAS (.scion (endpointCast ifs ⟨localAS, host, port⟩)) m

/-- The native address is bound without a zone, to the port that is read in network order. -/
theorem scionBind_nativeAddr (localAS : IsdAsn) (host : IPAddress) (port : UInt16)
    (scopeId : UInt32) {n : ℕ} (hn : (nativeAddr host port scopeId).size ≤ n) :
    scionBind ifs localAS (nativeAddr host port scopeId) n
      = .ok ⟨localAS, host.withZone "", byteswap16 port⟩ := by
  cases host with
  | v4 addr =>
    have hip := makeIPv4_bytes addr []
    rw [List.append_nil] at hip
    have hshort : ¬n < (BindAddr.in4 (IPAddress.v4 addr).bytes (byteswap16 port)).size :=
      Nat.not_lt.mpr hn
    show scionBind ifs localAS (.in4 (IPAddress.v4 addr).bytes (byteswap16 port)) n = _
    rw [scionBind, if_neg hshort, hip]
    rfl
  | v6 hi lo zone =>
    have hip := makeIPv6_bytes hi lo zone "" []
    rw [List.append_nil] at hip
    have hshort : ¬n < (BindAddr.in6 (IPAddress.v6 hi lo zone).bytes (byteswap16 port)
        scopeId).size := Nat.not_lt.mpr hn
    show scionBind ifs localAS (.in6 (IPAddress.v6 hi lo zone).bytes (byteswap16 port) scopeId) n
      = _
    rw [scionBind, if_neg hshort, hip]
    rfl

theorem boundAlike_iff (localAS : IsdAsn) (host : IPAddress) (port : UInt16) (scopeId : UInt32) :
    BoundAlike ifs localAS host port scopeId ↔
      byteswap16 port = port ∧ ZoneLost ifs host.zone := by
  have hscion {m : ℕ}
      (hm : (BindAddr.scion (endpointCast ifs ⟨localAS, host, port⟩)).size ≤ m) :
      scionBind ifs localAS (.scion (endpointCast ifs ⟨localAS, host, port⟩)) m
        = .ok ⟨localAS, host.withZone (zoneBack ifs host), port⟩ := by
    rw [scionBind, if_neg (Nat.not_lt.mpr hm), endpointCast_endpointCast]
    rfl
  have hzone : host.withZone "" = host.withZone (zoneBack ifs host) ↔ zoneBack ifs host = "" := by
    cases host with
    | v4 addr => exact iff_of_true rfl (zoneBack_of_empty rfl)
    | v6 hi lo zone =>
      rw [IPAddress.withZone, IPAddress.withZone, IPAddress.v6.injEq]
      exact ⟨fun h => h.2.2.symm, fun h => ⟨rfl, rfl, h.symm⟩⟩
  rw [← zoneBack_eq_empty_iff, ← hzone]
  constructor
  · -- the smallest lengths are enough to compare the two
    intro halike
    have hsame := halike _ _ le_rfl le_rfl
    rw [scionBind_nativeAddr localAS host port scopeId le_rfl, hscion le_rfl] at hsame
    have hep := Except.ok.inj hsame
    rw [ScIPEndpoint.mk.injEq, IPEndpoint.mk.injEq] at hep
    exact ⟨hep.2.2, hep.2.1⟩
  · rintro ⟨hport, hhost⟩ n m hn hm
    rw [scionBind_nativeAddr localAS host port scopeId hn, hscion hm, hport, hhost]

/-- Endpoints are read back when their zone is kept, and native addresses are bound like SCION
addresses when the port is its own byte reversal and the SCION address loses the zone. -/
theorem sockaddrs_kept_iff (ifs : NetInterfaces) (localAS : IsdAsn) :
    (∀ e : ScIPEndpoint, e.host.zone = "" ∨ ifs.IsName e.host.zone →
      ((endpointCast ifs e).endpointCast ifs = e ↔ ZoneKept ifs e.host.zone)) ∧
    ∀ (host : IPAddress) (port : UInt16) (scopeId : UInt32),
      BoundAlike ifs localAS host port scopeId ↔
        byteswap16 port = port ∧ ZoneLost ifs host.zone :=
  ⟨fun _ h => endpointCast_eq_iff h, boundAlike_iff localAS⟩

/-- The loopback interface and an Ethernet interface. -/
def hostInterfaces : NetInterfaces where
  nameToIndex name := if name = "lo" then 1 else if name = "eth0" then 2 else 0
  indexToName index := if index = 1 then some "lo" else if index = 2 then some "eth0" else none
  inverse name index h := by
    by_cases hlo : name = "lo" <;> by_cases heth : name = "eth0" <;> by_cases hone : index = 1 <;>
      by_cases htwo : index = 2 <;> simp_all [eq_comm]
  fits index name h := by
    split_ifs at h
    · cases h
      decide
    · cases h
      decide

def linkLocal : ScIPEndpoint :=
  ⟨IsdAsn.make 1 0xff0000000110, .v6 0xfe80000000000000 1 "eth0", 80⟩

theorem sockaddrs_kept_iff_eth0 :
    ((endpointCast hostInterfaces linkLocal).endpointCast hostInterfaces = linkLocal ↔
      ZoneKept hostInterfaces "eth0") :=
  (sockaddrs_kept_iff hostInterfaces linkLocal.isdAsn).1 linkLocal (Or.inr (by decide))

/-- The zone is looked up as `eth`. -/
theorem not_forall_endpointCast_eq :
    ¬∀ (ifs : NetInterfaces) (e : ScIPEndpoint), e.host.zone = "" ∨ ifs.IsName e.host.zone →
      (endpointCast ifs e).endpointCast ifs = e := by
  intro hall
  have hback := hall hostInterfaces linkLocal (Or.inr (by decide))
  rcases (endpointCast_eq_iff (Or.inr (by decide))).mp hback with hempty | hindex
  · exact absurd hempty (by decide)
  · exact absurd hindex (by decide)

end Scion
