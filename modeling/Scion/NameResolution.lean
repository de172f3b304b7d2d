/-
Name resolution of the C interface (`scion_c/scion.cpp`, `resolver.hpp`).

The asynchronous function repeats what the synchronous one leaves to
`Resolver::resolveService`. The lookup of a host is a parameter.

* `translateError` — the codes of the C interface;
* `resolveName`, `resolveNameAsync` — what is left in the caller's buffers, and the code;
* `resolveNameAsync_agrees_iff` — the names, lookups and buffers for which they agree.
-/
import Scion.AddressText
import Scion.SocketAddress

namespace Scion

/-! ### Error codes -/

/-- `scion_error`. -/
abbrev ScionError := ℤ

namespace ScionError

def ok : ScionError := 0
def error : ScionError := -1
def cancelled : ScionError := 1
def timeout : ScionError := 3
def logicError : ScionError := 128
def invalidArgument : ScionError := 130
def invalidSocket : ScionError := 132
def bufferTooSmall : ScionError := 133
def noLocalHostAddr : ScionError := 136
def nameNotFound : ScionError := 137
def remoteError : ScionError := 138
def wouldBlock : ScionError := 1024
def controlPlaneRpcError : ScionError := 2048

end ScionError

/-- The category of a `std::error_code`. -/
inductive ErrorCategory
  | scion
  | system
  | grpc
  | cares
  | other
  deriving DecidableEq, Repr

/-- A `std::error_code` that is an error. -/
structure SomeError where
  category : ErrorCategory
  value : ℤ
  isError : value ≠ 0
  deriving DecidableEq, Repr

/-- `translate_error` of an errno value. -/
def translateSystem (value : ℤ) : ScionError :=
  -- ECANCELED, ENOTSOCK, EDESTADDRREQ, EAGAIN
  if value = 125 then .cancelled
  else if value = 88 then .invalidSocket
  else if value = 89 then .noLocalHostAddr
  else if value = 11 then .wouldBlock
  else .error

/-- `translate_error` of an error of the c-ares library. -/
def translateCares (value : ℤ) : ScionError :=
  -- ARES_EDESTRUCTION, ARES_ECANCELLED
  if value = 16 ∨ value = 24 then .cancelled
  -- ARES_ETIMEOUT
  else if value = 12 then .timeout
  -- ARES_ENOTINITIALIZED
  else if value = 21 then .logicError
  -- ARES_EBADNAME
  else if value = 8 then .invalidArgument
  -- ARES_ENOTFOUND
  else if value = 4 then .nameNotFound
  -- ARES_ENODATA, ARES_EFORMERR, ARES_ESERVFAIL, ARES_ENOTIMP, ARES_EREFUSED
  else if value ∈ [1, 2, 3, 5, 6] then .remoteError
  else .error

def translateError (e : SomeError) : ScionError :=
  match e.category with
  | .scion => e.value
  | .system => translateSystem e.value
  | .grpc => .controlPlaneRpcError
  | .cares => translateCares e.value
  | .other => .error

theorem translateError_ne_ok (e : SomeError) : translateError e ≠ .ok := by
  rw [translateError]
  split
  · exact e.isError
  · rw [translateSystem]
    split_ifs <;> decide
  · decide
  · rw [translateCares]
    split_ifs <;> decide
  · decide

/-- The value of an `ErrorCode` that a host and port are refused with. -/
def syntaxError : SomeError := ⟨.scion, 131, by decide⟩

theorem parsePort_error {text : List Char} {e : StdError} (h : parsePort text = .error e) :
    e = .scion .syntaxError := by
  rw [parsePort] at h
  split_ifs at h
  · cases h
    rfl
  · split at h
    · cases h
    · cases h
      rfl

/-- A name is refused for its syntax. -/
theorem splitHostPort_error {text : List Char} {e : StdError} (h : splitHostPort text = .error e) :
    e = .scion .syntaxError := by
  have hbind {addr port : List Char} (hrun : (do .ok (addr, ← parsePort port) :
      Parsed (List Char × UInt16)) = .error e) : e = .scion .syntaxError := by
    cases hport : parsePort port with
    | error e' =>
      rw [hport] at hrun
      cases hrun
      exact parsePort_error hport
    | ok value =>
      rw [hport] at hrun
      cases hrun
  rw [splitHostPort.eq_def] at h
  split at h
  · split at h
    · cases h
      rfl
    · cases h
    · exact hbind h
    · cases h
      rfl
  · split at h
    · cases h
    · rename_i addr port _
      dsimp only at h
      by_cases hcolon : ':' ∈ (if ',' ∈ addr then addr.dropWhile (· != ',') else addr)
      · rw [if_pos hcolon] at h
        cases h
      · rw [if_neg hcolon] at h
        exact hbind h

/-! ### Resolution -/

/-- The code, and what the caller's buffers hold. -/
structure Resolution where
  code : ScionError
  res : List SockaddrScion
  resLen : ℕ
  deriving DecidableEq, Repr

/-- The loop that copies the addresses that fit, and the check behind it. -/
def copyOut (sockaddrs res : List SockaddrScion) : Resolution where
  code := if min res.length sockaddrs.length < sockaddrs.length then .bufferTooSmall else .ok
  res := sockaddrs.take res.length ++ res.drop sockaddrs.length
  resLen := sockaddrs.length

/-- The buffers are left as they are. -/
def failed (code : ScionError) (res : List SockaddrScion) : Resolution := ⟨code, res, res.length⟩

section Resolve

variable (ifs : NetInterfaces) (lookup : List Char → Except SomeError (List ScIPAddress))

/-- `Resolver::resolveService`. -/
def resolveService (name : List Char) : Except SomeError (List ScIPEndpoint) :=
  match splitHostPort name with
  | .error _ => .error syntaxError
  | .ok (host, port) =>
    (lookup host).map fun addresses => addresses.map fun a => ⟨a.isdAsn, a.host, port⟩

def resolveName (name : List Char) (res : List SockaddrScion) : Resolution :=
  match resolveService lookup name with
  | .error _ => failed .nameNotFound res
  | .ok addresses => copyOut (addresses.map (endpointCast ifs)) res

/-- The socket address that the completion handler makes. -/
def asyncSockaddr (port : UInt16) (host : ScIPAddress) : SockaddrScion where
  port := port
  flowinfo := 0
  addr := addrCast ifs host

/-- What the completion handler leaves, and the code that the callback gets. -/
def resolveNameAsync (name : List Char) (res : List SockaddrScion) : Resolution :=
  match splitHostPort name with
  | .error _ => failed (translateError syntaxError) res
  | .ok (_, port) =>
    match lookup name with
    | .error e => failed (translateError e) res
    | .ok addresses => copyOut (addresses.map (asyncSockaddr ifs port)) res

end Resolve

/-! ### Agreement -/

/-- The same buffers, and success in the same cases. -/
structure Resolution.Agrees (sync async : Resolution) : Prop where
  res : async.res = sync.res
  resLen : async.resLen = sync.resLen
  success : async.code = .ok ↔ sync.code = .ok

/-- Two failures leave the same buffers. -/
theorem agrees_failed {code code' : ScionError} (h : code ≠ .ok) (h' : code' ≠ .ok)
    (res : List SockaddrScion) : (failed code res).Agrees (failed code' res) :=
  ⟨rfl, rfl, iff_of_false h' h⟩

/-- Where a lookup succeeds the length tells whether all of it was copied. -/
theorem not_agrees_copyOut_failed {code : ScionError} (h : code ≠ .ok)
    (sockaddrs res : List SockaddrScion) : ¬(copyOut sockaddrs res).Agrees (failed code res) := by
  intro hagrees
  have hlen : res.length = sockaddrs.length := hagrees.resLen
  have hok : (copyOut sockaddrs res).code = .ok := if_neg (by omega)
  exact h (hagrees.success.mpr hok)

theorem not_agrees_failed_copyOut {code : ScionError} (h : code ≠ .ok)
    (sockaddrs res : List SockaddrScion) : ¬(failed code res).Agrees (copyOut sockaddrs res) := by
  intro hagrees
  have hlen : sockaddrs.length = res.length := hagrees.resLen
  have hok : (copyOut sockaddrs res).code = .ok := if_neg (by omega)
  exact h (hagrees.success.mp hok)

/-- Two successes agree in their lengths and in the addresses that fit. -/
theorem agrees_copyOut_iff (xs ys res : List SockaddrScion) :
    (copyOut xs res).Agrees (copyOut ys res) ↔
      ys.length = xs.length ∧ ys.take res.length = xs.take res.length := by
  constructor
  · intro hagrees
    have hlen : ys.length = xs.length := hagrees.resLen
    have hres : ys.take res.length ++ res.drop ys.length
        = xs.take res.length ++ res.drop xs.length := hagrees.res
    rw [hlen] at hres
    exact ⟨hlen, List.append_cancel_right hres⟩
  · rintro ⟨hlen, htake⟩
    refine ⟨?_, hlen, ?_⟩
    · show ys.take res.length ++ res.drop ys.length = xs.take res.length ++ res.drop xs.length
      rw [htake, hlen]
    · show (if min res.length ys.length < ys.length then ScionError.bufferTooSmall else .ok) = .ok ↔
        (if min res.length xs.length < xs.length then ScionError.bufferTooSmall else .ok) = .ok
      rw [hlen]

/-- The lookups of the host and of the whole name fail alike, or find equally many addresses, of
which those that fit are the same, and with one of these the port is its own byte reversal. -/
def LookedUpAlike (ifs : NetInterfaces) (port : UInt16) (room : ℕ) :
    Except SomeError (List ScIPAddress) → Except SomeError (List ScIPAddress) → Prop
  | .error _, .error _ => True
  | .ok hosts, .ok names => names.length = hosts.length ∧
      (names.map (addrCast ifs)).take room = (hosts.map (addrCast ifs)).take room ∧
      (hosts.take room ≠ [] → byteswap16 port = port)
  | _, _ => False

/-- Socket addresses with the same port are told apart by their addresses. -/
theorem map_mk_eq_iff {p q : UInt16} {xs ys : List ScionAddr} :
    xs.map (fun a => (⟨p, 0, a⟩ : SockaddrScion)) = ys.map (fun a => ⟨q, 0, a⟩) ↔
      xs = ys ∧ (ys ≠ [] → p = q) := by
  induction xs generalizing ys with
  | nil =>
    cases ys with
    | nil => simp
    | cons y ys => simp
  | cons x xs ih =>
    cases ys with
    | nil => simp
    | cons y ys =>
      rw [List.map_cons, List.map_cons, List.cons.injEq, List.cons.injEq, ih,
        SockaddrScion.mk.injEq]
      constructor
      · rintro ⟨⟨hport, -, rfl⟩, rfl, -⟩
        exact ⟨⟨rfl, rfl⟩, fun _ => hport⟩
      · rintro ⟨⟨rfl, rfl⟩, hport⟩
        have hsame := hport (List.cons_ne_nil _ _)
        exact ⟨⟨hsame, rfl, rfl⟩, rfl, fun _ => hsame⟩

theorem agrees_addresses_iff (ifs : NetInterfaces) (port : UInt16) (hosts names : List ScIPAddress)
    (res : List SockaddrScion) :
    (copyOut ((hosts.map fun a => (⟨a.isdAsn, a.host, port⟩ : ScIPEndpoint)).map
        (endpointCast ifs)) res).Agrees (copyOut (names.map (asyncSockaddr ifs port)) res) ↔
      LookedUpAlike ifs port res.length (.ok hosts) (.ok names) := by
  have hsync : (hosts.map fun a => (⟨a.isdAsn, a.host, port⟩ : ScIPEndpoint)).map (endpointCast ifs)
      = (hosts.map (addrCast ifs)).map fun a => ⟨byteswap16 port, 0, a⟩ := by
    rw [List.map_map, List.map_map]
    rfl
  have hasync : names.map (asyncSockaddr ifs port)
      = (names.map (addrCast ifs)).map fun a => ⟨port, 0, a⟩ := by
    rw [List.map_map]
    rfl
  have hempty : (hosts.map (addrCast ifs)).take res.length ≠ [] ↔ hosts.take res.length ≠ [] := by
    rw [← List.map_take, ne_eq, List.map_eq_nil_iff]
  have htake (p : UInt16) (xs : List ScionAddr) :
      (xs.map fun a => (⟨p, 0, a⟩ : SockaddrScion)).take res.length
        = (xs.take res.length).map fun a => ⟨p, 0, a⟩ := List.map_take.symm
  rw [agrees_copyOut_iff, hsync, hasync, htake, htake, map_mk_eq_iff, hempty, LookedUpAlike,
    eq_comm (a := port)]
  simp only [List.length_map]

/-- The two functions agree on a name exactly when the lookup of the name as it stands and the
lookup of its host are alike. -/
theorem resolveNameAsync_agrees_iff (ifs : NetInterfaces)
    (lookup : List Char → Except SomeError (List ScIPAddress)) (name : List Char)
    (res : List SockaddrScion) :
    (resolveName ifs lookup name res).Agrees (resolveNameAsync ifs lookup name res) ↔
      ∀ host port, splitHostPort name = .ok (host, port) →
        LookedUpAlike ifs port res.length (lookup host) (lookup name) := by
  have hnotFound : ScionError.nameNotFound ≠ .ok := by decide
  rw [resolveName, resolveNameAsync, resolveService]
  cases hsplit : splitHostPort name with
  | error e =>
    refine iff_of_true (agrees_failed hnotFound (translateError_ne_ok _) res) ?_
    intro host port h
    cases h
  | ok split =>
    obtain ⟨host, port⟩ := split
    have hall : (∀ host' port', (Except.ok (host, port) : Parsed _) = .ok (host', port') →
        LookedUpAlike ifs port' res.length (lookup host') (lookup name)) ↔
          LookedUpAlike ifs port res.length (lookup host) (lookup name) := by
      constructor
      · exact fun h => h host port rfl
      · intro h host' port' heq
        cases heq
        exact h
    rw [hall]
    dsimp only
    cases hhost : lookup host with
    | error e =>
      cases hname : lookup name with
      | error e' =>
        exact iff_of_true (agrees_failed hnotFound (translateError_ne_ok e') res) trivial
      | ok names => exact iff_of_false (not_agrees_failed_copyOut hnotFound _ res) id
    | ok hosts =>
      cases hname : lookup name with
      | error e' =>
        exact iff_of_false (not_agrees_copyOut_failed (translateError_ne_ok e') _ res) id
      | ok names => exact agrees_addresses_iff ifs port hosts names res

/-- A lookup that knows a single name. -/
def knows (known : String) (a : ScIPAddress) (host : List Char) :
    Except SomeError (List ScIPAddress) :=
  if host = known.toList then .ok [a] else .error ⟨.scion, 137, by decide⟩

/-- The asynchronous function looks up the name with its port. -/
theorem not_forall_resolveNameAsync_agrees :
    ¬∀ (ifs : NetInterfaces) (lookup : List Char → Except SomeError (List ScIPAddress))
      (name : List Char) (res : List SockaddrScion),
      (resolveName ifs lookup name res).Agrees (resolveNameAsync ifs lookup name res) := by
  intro hall
  have hagrees := hall hostInterfaces (knows "server" linkLocal.address) "server:80".toList []
  exact absurd hagrees.resLen (by decide)

end Scion
