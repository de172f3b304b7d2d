/-
Reading the TCP header (`hdr/tcp.hpp`).

Reading fills an existing header, as the source does.

* `TCP.parseOpts`, `TCP.read` — the functions of the source;
* `TcpOption.decode` — what reading one written option does to a header;
* `TCP.parseOpts_options` — a written list of options is read option by option;
* `TCP.read_written_iff` — which headers are recovered from the bytes written.
-/
import Scion.Tcp

namespace Scion

open BigEndian Codec ReadStream WriteStream TcpOption

namespace TCP

/-! ### The functions of the source -/

/-! Storing an option sets its bit of the mask. -/

def withMss (h : TCP) (o : TcpMssOpt) : TCP :=
  { h with optMask.mss := true, options.mss := o }

def withWs (h : TCP) (o : TcpWsOpt) : TCP :=
  { h with optMask.ws := true, options.ws := o }

def withSackPerm (h : TCP) (_ : TcpSAckPermOpt) : TCP := { h with optMask.sackPerm := true }

def withSack (h : TCP) (o : TcpSAckOpt) : TCP :=
  { h with optMask.sack := true, options.sack := o }

def withTs (h : TCP) (o : TcpTsOpt) : TCP :=
  { h with optMask.ts := true, options.ts := o }

def withMpCapable (h : TCP) (o : TcpMpCapableOpt) : TCP :=
  { h with optMask.mpCapable := true, options.mpCap := o }

def withMpJoin (h : TCP) (o : TcpMpJoinOpt) : TCP :=
  { h with optMask.mpJoin := true, options.mpJoin := o }

def withMpDss (h : TCP) (o : TcpMpDssOpt) : TCP :=
  { h with optMask.mpDss := true, options.mpDss := o }

def withMpAddAddr (h : TCP) (o : TcpMpAddAddrOpt) : TCP :=
  { h with optMask.mpAddAddr := true, options.mpAdd := o }

def withMpRemAddr (h : TCP) (o : TcpMpRemAddrOpt) : TCP :=
  { h with optMask.mpRemAddr := true, options.mpRem := o }

def withMpPrio (h : TCP) (o : TcpMpPrioOpt) : TCP :=
  { h with optMask.mpPrio := true, options.mpPrio := o }

def withMpFail (h : TCP) (o : TcpMpFailOpt) : TCP :=
  { h with optMask.mpFail := true, options.mpFail := o }

def withMpClose (h : TCP) (o : TcpMpCloseOpt) : TCP :=
  { h with optMask.mpClose := true, options.mpClose := o }

def withMpRst (h : TCP) (o : TcpMpRstOpt) : TCP :=
  { h with optMask.mpRst := true, options.mpRst := o }

/-- `TcpUnknownOpt`, reading: kind and length, and the bytes that are skipped. -/
def skipUnknown : Reader Unit := do
  let _ ← ReadStream.serializeByte
  let length ← ReadStream.serializeByte
  ReadStream.advanceBytes (max length.toNat 2 - 2)

/-- An MPTCP option of the given subtype. -/
def parseSubtype (h : TCP) (subtype : UInt8) : Reader TCP :=
  if subtype = TcpMpSubtype.mpCapable then
    h.withMpCapable <$> TcpMpCapableOpt.read h.options.mpCap
  else if subtype = TcpMpSubtype.mpJoin then h.withMpJoin <$> TcpMpJoinOpt.read
  else if subtype = TcpMpSubtype.dss then h.withMpDss <$> TcpMpDssOpt.read h.options.mpDss
  else if subtype = TcpMpSubtype.addAddr then
    h.withMpAddAddr <$> TcpMpAddAddrOpt.read h.options.mpAdd
  else if subtype = TcpMpSubtype.removeAddr then
    h.withMpRemAddr <$> TcpMpRemAddrOpt.read h.options.mpRem
  else if subtype = TcpMpSubtype.mpPrio then h.withMpPrio <$> TcpMpPrioOpt.read
  else if subtype = TcpMpSubtype.mpFail then h.withMpFail <$> TcpMpFailOpt.read
  else if subtype = TcpMpSubtype.mpFastclose then h.withMpClose <$> TcpMpCloseOpt.read
  else if subtype = TcpMpSubtype.mpTcprst then h.withMpRst <$> TcpMpRstOpt.read
  else throw "unknown MPTCP option subtype"

/-- MPTCP options are told apart by the subtype in the third byte. -/
def parseMptcp (h : TCP) : Reader TCP := do
  let next ← ReadStream.lookahead (some 3)
  h.parseSubtype (next.getLastD 0 >>> 4)

/-- An option of the given kind other than the end of the list. -/
def parseOption (h : TCP) (kind : UInt8) : Reader TCP :=
  if kind = TcpOptKind.noOp then (fun _ => h) <$> ReadStream.advanceBytes 1
  else if kind = TcpOptKind.mss then h.withMss <$> TcpMssOpt.read
  else if kind = TcpOptKind.ws then h.withWs <$> TcpWsOpt.read
  else if kind = TcpOptKind.sackPerm then h.withSackPerm <$> TcpSAckPermOpt.read
  else if kind = TcpOptKind.sack then h.withSack <$> TcpSAckOpt.read h.options.sack
  else if kind = TcpOptKind.ts then h.withTs <$> TcpTsOpt.read
  else if kind = TcpOptKind.mptcp then h.parseMptcp
  else (fun _ => h) <$> skipUnknown

/-- The loop over the options, for at most `fuel` of them; every option takes a byte. -/
def parseOpts : ℕ → TCP → Reader TCP
  | 0, h => fun rs => if rs.hasData then .error "no progress" rs else .ok h rs
  | fuel + 1, h => fun rs =>
    if rs.hasData then
      (do
        let next ← ReadStream.lookahead (some 1)
        if next.headD 0 = TcpOptKind.endOfList then (fun _ => h) <$> ReadStream.advanceBytes 1
        else do
          let h ← h.parseOption (next.headD 0)
          parseOpts fuel h) rs
    else .ok h rs

/-- Data offset and reserved bits. -/
def readOffset : Reader UInt32 := do
  let dataOffset ← UInt64.toUInt32 <$> ReadStream.serializeBits 32 4
  ensure (!(dataOffset < 5)) "invalid TCP header"
  (fun _ => dataOffset) <$> ReadStream.advanceBits 4

/-- The fixed part of the header, with the data offset. The mask of the options is
cleared. -/
def readFixed (old : TCP) : Reader (UInt32 × TCP) := do
  let sport ← ReadStream.serializeUint16
  let dport ← ReadStream.serializeUint16
  let seq ← ReadStream.serializeUint32
  let ack ← ReadStream.serializeUint32
  let dataOffset ← readOffset
  let flags ← ReadStream.serializeByte
  let window ← ReadStream.serializeUint16
  let chksum ← ReadStream.serializeUint16
  let urgptr ← ReadStream.serializeUint16
  pure (dataOffset, ⟨flags, sport, dport, window, urgptr, seq, ack, chksum, {}, old.options⟩)

/-- `n` bytes of options, read from a stream of their own. -/
def readOptions (n : ℕ) (h : TCP) : Reader TCP := do
  let opts ← ReadStream.lookahead (some n)
  match parseOpts opts.length h (ReadStream.ofBuffer opts) with
  | .ok h _ => (fun _ => h) <$> ReadStream.advanceBytes opts.length
  | .error e _ => throw e

def read (old : TCP) : Reader TCP := do
  let (dataOffset, h) ← readFixed old
  if dataOffset = 5 then pure h
  else readOptions (4 * (dataOffset.toNat - 5)) h

end TCP

/-! ### Looking ahead -/

theorem reads_lookahead {β : Type} {n : ℕ} {bs : List UInt8} {f : List UInt8 → Reader β} {b : β}
    (hn : n ≤ bs.length) (hf : Reads ReadStream.cursor (f (bs.take n)) bs b) :
    Reads ReadStream.cursor (ReadStream.lookahead (some n) >>= f) bs b := by
  intro pre post
  have hrun := lookahead_some pre (bs.take n) (bs.drop n ++ post) n
    (by rw [List.length_take, min_eq_left hn])
  rw [← List.append_assoc, List.take_append_drop] at hrun
  rw [bind_ok hrun, hf]

theorem refuses_lookahead {β : Type} {n : ℕ} {bs : List UInt8} {f : List UInt8 → Reader β}
    (hn : n ≤ bs.length) (hf : Refuses ReadStream.cursor (f (bs.take n)) bs) :
    Refuses ReadStream.cursor (ReadStream.lookahead (some n) >>= f) bs := by
  intro pre post
  have hrun := lookahead_some pre (bs.take n) (bs.drop n ++ post) n
    (by rw [List.length_take, min_eq_left hn])
  rw [← List.append_assoc, List.take_append_drop] at hrun
  rw [bind_ok hrun]
  exact hf pre post

/-- The third byte of an MPTCP option begins with the subtype. -/
theorem subtype_third {k n : ℕ} {subtype : UInt8} (hk : 4 + n = 8 * (k + 1))
    (hs : subtype.toNat < 16) (kind length : UInt8) (flags : UInt64) (rest : List UInt8) :
    (([kind] ++ ([length] ++ (subtypeBytes (k + 1) subtype n flags ++ rest))).take 3).getLastD 0
      >>> 4 = subtype := by
  have hn : n = 8 * k + 4 := by omega
  have hflags : flags.toNat % 2 ^ n < 2 ^ n := Nat.mod_lt _ (by positivity)
  have hpow : (256 : ℕ) ^ k = 2 ^ (8 * k) := by
    rw [show (256 : ℕ) = 2 ^ 8 from rfl, ← pow_mul]
  have hbyte : (subtype.toNat * 2 ^ n + flags.toNat % 2 ^ n) / 256 ^ k / 16 = subtype.toNat := by
    rw [Nat.div_div_eq_div_mul, hpow, show 2 ^ (8 * k) * 16 = 2 ^ n by rw [hn, pow_add]; rfl,
      mul_comm, Nat.mul_add_div (by positivity), Nat.div_eq_of_lt hflags, add_zero]
  show UInt8.ofNat ((subtype.toNat * 2 ^ n + flags.toNat % 2 ^ n) / 256 ^ k) >>> 4 = subtype
  rw [← UInt8.toNat_inj, UInt8.toNat_shiftRight, UInt8.toNat_ofNat', Nat.shiftRight_eq_div_pow,
    show (4 : UInt8).toNat % 8 = 4 from rfl]
  omega

namespace TcpOption

/-- What reading the written option does to a header; `none` when it is refused. -/
def decode (h : TCP) : TcpOption → Option TCP
  | noOp => some h
  | mss o => some (h.withMss o)
  | ws o => if o.wndShift ≤ TcpWsOpt.maxWndShift then some (h.withWs o) else none
  | sackPerm o => some (h.withSackPerm o)
  | sack o =>
    if 1 ≤ o.blocks.toNat ∧ o.blocks.toNat ≤ TcpSAckOpt.maxBlocks then
      some (h.withSack (o.onto h.options.sack))
    else none
  | ts o => some (h.withTs o)
  | mpCapable o => o.asRead.map fun o' => h.withMpCapable (o'.onto h.options.mpCap)
  | mpJoin o => some (h.withMpJoin o)
  | mpDss o => some (h.withMpDss (o.onto h.options.mpDss))
  | mpAddAddr o => some (h.withMpAddAddr (o.asRead.onto h.options.mpAdd))
  | mpRemAddr o => some (h.withMpRemAddr (o.onto h.options.mpRem))
  | mpPrio o => some (h.withMpPrio o)
  | mpFail o => some (h.withMpFail o)
  | mpClose o => some (h.withMpClose o)
  | mpRst o => some (h.withMpRst o)

/-- Blocks that are counted in a header of at most 60 bytes. -/
def Short : TcpOption → Prop
  | sack o => o.size ≤ 40
  | _ => True

/-- The kind of an option, its first byte. -/
def kind (o : TcpOption) : UInt8 := o.bytes.headD 0

theorem reads_mptcp {h h' : TCP} {k n : ℕ} {subtype length : UInt8} {flags : UInt64}
    {rest : List UInt8} (hk : 4 + n = 8 * (k + 1)) (hs : subtype.toNat < 16)
    (hr : Reads ReadStream.cursor (h.parseSubtype subtype) ([TcpOptKind.mptcp] ++ ([length] ++
      (subtypeBytes (k + 1) subtype n flags ++ rest))) h') :
    Reads ReadStream.cursor h.parseMptcp ([TcpOptKind.mptcp] ++ ([length] ++
      (subtypeBytes (k + 1) subtype n flags ++ rest))) h' := by
  refine reads_lookahead (by simp; omega) ?_
  rw [subtype_third hk hs]
  exact hr

theorem refuses_mptcp {h : TCP} {k n : ℕ} {subtype length : UInt8} {flags : UInt64}
    {rest : List UInt8} (hk : 4 + n = 8 * (k + 1)) (hs : subtype.toNat < 16)
    (hr : Refuses ReadStream.cursor (h.parseSubtype subtype) ([TcpOptKind.mptcp] ++ ([length] ++
      (subtypeBytes (k + 1) subtype n flags ++ rest)))) :
    Refuses ReadStream.cursor h.parseMptcp ([TcpOptKind.mptcp] ++ ([length] ++
      (subtypeBytes (k + 1) subtype n flags ++ rest))) := by
  refine refuses_lookahead (by simp; omega) ?_
  rw [subtype_third hk hs]
  exact hr

/-- The body of the loop decodes an option that was written. -/
theorem reads_option {o : TcpOption} (hfits : o.Fits) {h h' : TCP} (hd : o.decode h = some h') :
    Reads ReadStream.cursor (h.parseOption o.kind) o.bytes h' := by
  cases o with
  | noOp =>
    cases hd
    exact reads_map _ (reads_advanceBytes [TcpOptKind.noOp] 1 rfl)
  | mss o =>
    cases hd
    exact reads_map _ (TcpMssOpt.reads o)
  | ws o =>
    obtain ⟨hshift, hd⟩ := Option.ite_none_right_eq_some.mp hd
    cases hd
    exact reads_map _ (TcpWsOpt.reads hshift)
  | sackPerm o =>
    cases hd
    exact reads_map _ (TcpSAckPermOpt.reads o)
  | sack o =>
    obtain ⟨hblocks, hd⟩ := Option.ite_none_right_eq_some.mp hd
    cases hd
    exact reads_map _ (TcpSAckOpt.reads hblocks.1 hblocks.2 h.options.sack)
  | ts o =>
    cases hd
    exact reads_map _ (TcpTsOpt.reads o)
  | mpCapable o =>
    obtain ⟨o', hread, rfl⟩ := Option.map_eq_some_iff.mp hd
    have hr := TcpMpCapableOpt.reads (TcpMpCapableOpt.isPrefix_asRead hread)
      (TcpMpCapableOpt.fits_asRead hread hfits) h.options.mpCap
    rw [← TcpMpCapableOpt.bytes_asRead hread] at hr
    exact reads_mptcp (k := 0) (by norm_num) (by decide) (reads_map h.withMpCapable hr)
  | mpJoin o =>
    cases hd
    have hr := reads_map h.withMpJoin (TcpMpJoinOpt.reads hfits)
    cases o with
    | syn flags addressId receiverToken senderRand =>
      exact reads_mptcp (k := 0) (by norm_num) (by decide) hr
    | synAck flags addressId senderMac senderRand =>
      exact reads_mptcp (k := 0) (by norm_num) (by decide) hr
    | ack senderMac => exact reads_mptcp (k := 1) (by norm_num) (by decide) hr
  | mpDss o =>
    cases hd
    exact reads_mptcp (k := 1) (by norm_num) (by decide)
      (reads_map h.withMpDss (TcpMpDssOpt.reads hfits h.options.mpDss))
  | mpAddAddr o =>
    cases hd
    exact reads_mptcp (k := 0) (by norm_num) (by decide)
      (reads_map h.withMpAddAddr (TcpMpAddAddrOpt.reads hfits h.options.mpAdd))
  | mpRemAddr o =>
    cases hd
    exact reads_mptcp (k := 0) (by norm_num) (by decide)
      (reads_map h.withMpRemAddr (TcpMpRemAddrOpt.reads hfits h.options.mpRem))
  | mpPrio o =>
    cases hd
    have hr := reads_map h.withMpPrio (TcpMpPrioOpt.reads o)
    rw [TcpMpPrioOpt.bytes, ← List.append_nil (subtypeBytes _ _ _ _)] at hr
    have hsubtype : TcpMpSubtype.mpPrio.toNat < 16 := by decide
    have hread := reads_mptcp (h := h) (k := 0) (n := 4) (by norm_num) hsubtype hr
    rw [List.append_nil] at hread
    exact hread
  | mpFail o =>
    cases hd
    exact reads_mptcp (k := 1) (by norm_num) (by decide)
      (reads_map h.withMpFail (TcpMpFailOpt.reads o))
  | mpClose o =>
    cases hd
    exact reads_mptcp (k := 1) (by norm_num) (by decide)
      (reads_map h.withMpClose (TcpMpCloseOpt.reads o))
  | mpRst o =>
    cases hd
    exact reads_mptcp (k := 0) (by norm_num) (by decide)
      (reads_map h.withMpRst (TcpMpRstOpt.reads hfits))

/-- The body of the loop refuses an option that comes back as none. -/
theorem refuses_option {o : TcpOption} (hshort : o.Short) {h : TCP} (hd : o.decode h = none) :
    Refuses ReadStream.cursor (h.parseOption o.kind) o.bytes := by
  cases o with
  | ws o =>
    rw [decode, ite_eq_right_iff] at hd
    have hshift : ¬o.wndShift ≤ TcpWsOpt.maxWndShift := fun hle => by cases hd hle
    have hr : Refuses ReadStream.cursor TcpWsOpt.read o.bytes :=
      (reads_verifyByte _ _).bind_refuses ((reads_verifyByte _ _).bind_refuses
        ((reads_byte o.wndShift).bind_refuses (Refuses.ensure (decide_eq_false hshift) [])))
    exact hr.bind _
  | sack o =>
    rw [decode, ite_eq_right_iff] at hd
    have hblocks : ¬(1 ≤ o.blocks.toNat ∧ o.blocks.toNat ≤ TcpSAckOpt.maxBlocks) :=
      fun hle => by cases hd hle
    have hr : Refuses ReadStream.cursor (TcpSAckOpt.read h.options.sack) o.bytes :=
      (reads_verifyByte _ _).bind_refuses ((reads_byte _).bind_refuses (Refuses.ensure
        (by rw [TcpSAckOpt.blocks_of_size hshort]; exact decide_eq_false hblocks) _))
    exact hr.bind _
  | mpCapable o =>
    rw [decode, Option.map_eq_none_iff] at hd
    exact refuses_mptcp (k := 0) (by norm_num) (by decide)
      ((TcpMpCapableOpt.refuses hd h.options.mpCap).bind _)
  | _ => cases hd

/-! ### Lists of options -/

/-- What reading a written list of options does to a header. -/
def decodeAll : List TcpOption → TCP → Option TCP
  | [], h => some h
  | o :: os, h => (o.decode h).bind (decodeAll os)

/-- No option begins like the end of the list. -/
theorem bytes_eq_cons (o : TcpOption) :
    ∃ rest, o.bytes = o.kind :: rest ∧ o.kind ≠ TcpOptKind.endOfList := by
  cases o <;> exact ⟨_, rfl, fun h => Nat.succ_ne_zero _ (congrArg UInt8.toNat h)⟩

/-- One turn of the loop. -/
theorem parseOpts_cons (h : TCP) (fuel : ℕ) (pre : List UInt8) (b : UInt8) (rest : List UInt8) :
    TCP.parseOpts (fuel + 1) h (ReadStream.cursor pre (b :: rest))
      = (if b = TcpOptKind.endOfList then (fun _ => h) <$> ReadStream.advanceBytes 1
          else h.parseOption b >>= TCP.parseOpts fuel) (ReadStream.cursor pre (b :: rest)) := by
  have hdata : (ReadStream.cursor pre (b :: rest)).hasData = true := hasData_cursor pre (b :: rest)
  have hlook : ReadStream.lookahead (some 1) (ReadStream.cursor pre (b :: rest))
      = .ok [b] (ReadStream.cursor pre (b :: rest)) := lookahead_some pre [b] rest 1 rfl
  simp only [TCP.parseOpts, hdata, if_true]
  rw [bind_ok hlook, List.headD_cons]

theorem parseOpts_option (o : TcpOption) (h : TCP) (fuel : ℕ) (pre post : List UInt8) :
    TCP.parseOpts (fuel + 1) h (ReadStream.cursor pre (o.bytes ++ post))
      = (h.parseOption o.kind >>= TCP.parseOpts fuel)
        (ReadStream.cursor pre (o.bytes ++ post)) := by
  obtain ⟨rest, hbytes, hkind⟩ := o.bytes_eq_cons
  rw [hbytes, List.cons_append, parseOpts_cons, if_neg hkind]

/-- A written list is read option by option. -/
theorem parseOpts_options : ∀ (os : List TcpOption), (∀ o ∈ os, o.Fits ∧ o.Short) →
    ∀ (h : TCP) (fuel : ℕ) (pre post : List UInt8),
    (∀ h', decodeAll os h = some h' →
      TCP.parseOpts (os.length + fuel) h (ReadStream.cursor pre (bytesOf os ++ post))
        = TCP.parseOpts fuel h' (ReadStream.cursor (pre ++ bytesOf os) post)) ∧
    (decodeAll os h = none → ∃ e s,
      TCP.parseOpts (os.length + fuel) h (ReadStream.cursor pre (bytesOf os ++ post))
        = .error e s) := by
  intro os
  induction os with
  | nil =>
    intro _ h fuel pre post
    constructor
    · intro h' hd
      cases hd
      rw [bytesOf_nil, List.append_nil, List.length_nil, zero_add, List.nil_append]
    · intro hd
      cases hd
  | cons o os ih =>
    intro hos h fuel pre post
    obtain ⟨hfits, hshort⟩ := hos o (List.mem_cons_self ..)
    have hrest := fun h' => ih (fun o' ho' => hos o' (List.mem_cons_of_mem _ ho')) h' fuel
      (pre ++ o.bytes) post
    have hlen : (o :: os).length + fuel = os.length + fuel + 1 := by
      rw [List.length_cons]
      omega
    rw [hlen, bytesOf_cons, List.append_assoc, parseOpts_option, decodeAll]
    cases hd : o.decode h with
    | none =>
      obtain ⟨e, s, herr⟩ := refuses_option hshort hd pre (bytesOf os ++ post)
      exact ⟨fun h' hnone => (by cases hnone), fun _ => ⟨e, s, bind_error herr⟩⟩
    | some h₁ =>
      rw [bind_ok (reads_option hfits hd pre (bytesOf os ++ post)), ← List.append_assoc]
      exact hrest h₁

/-- Zeros behind the options end the list. -/
theorem parseOpts_zeros (h : TCP) (fuel n : ℕ) (pre : List UInt8) :
    ∃ s, TCP.parseOpts (n + fuel) h (ReadStream.cursor pre (List.replicate n 0)) = .ok h s := by
  cases n with
  | zero =>
    refine ⟨ReadStream.cursor pre [], ?_⟩
    have hdata : (ReadStream.cursor pre []).hasData = false := hasData_cursor pre []
    cases fuel <;> simp [TCP.parseOpts, hdata]
  | succ n =>
    have hskip := reads_map (fun _ => h) (reads_advanceBytes [0] 1 rfl) pre (List.replicate n 0)
    rw [List.replicate_succ, show n + 1 + fuel = n + fuel + 1 by omega, parseOpts_cons,
      if_pos (show (0 : UInt8) = TcpOptKind.endOfList from rfl)]
    exact ⟨_, hskip⟩

theorem decodeAll_append (xs ys : List TcpOption) (h : TCP) :
    decodeAll (xs ++ ys) h = (decodeAll xs h).bind (decodeAll ys) := by
  induction xs generalizing h with
  | nil => rfl
  | cons o xs ih =>
    rw [List.cons_append, decodeAll, decodeAll, Option.bind_assoc]
    exact Option.bind_congr fun h' _ => ih h'

/-- One option that is always refused. -/
theorem decodeAll_eq_none {o : TcpOption} (ho : ∀ h, o.decode h = none) {os : List TcpOption}
    (hmem : o ∈ os) (h : TCP) : decodeAll os h = none := by
  induction os generalizing h with
  | nil => cases hmem
  | cons o' os ih =>
    rw [decodeAll, Option.bind_eq_none_iff]
    intro h' hd
    rcases List.mem_cons.mp hmem with rfl | hmem
    · rw [ho] at hd
      cases hd
    · exact ih hmem h'

end TcpOption

/-! ### Recovered headers -/

namespace TCP

/-- The header with everything cleared that is not on the wire. -/
def onWire (h : TCP) : TCP :=
  let m := h.optMask
  let o := h.options
  { h with
    options := {
      mss := if m.mss then o.mss else {}
      ws := if m.ws then o.ws else {}
      sack := if m.sack then o.sack.onWire else {}
      ts := if m.ts then o.ts else {}
      mpCap := if m.mpCapable then o.mpCap.onWire else {}
      mpJoin := if m.mpJoin then o.mpJoin else .syn 0 0 0 0
      mpDss := if m.mpDss then o.mpDss.onWire else {}
      mpAdd := if m.mpAddAddr then o.mpAdd.onWire else {}
      mpRem := if m.mpRemAddr then o.mpRem.onWire else {}
      mpPrio := if m.mpPrio then o.mpPrio else {}
      mpFail := if m.mpFail then o.mpFail else {}
      mpClose := if m.mpClose then o.mpClose else {}
      mpRst := if m.mpRst then o.mpRst else {} } }

/-- The options of `h` read into those of `old`, where `cap` is read for MP_CAPABLE and
`add` for ADD_ADDR. -/
def optionsOnto (h : TCP) (cap : TcpMpCapableOpt) (add : TcpMpAddAddrOpt) (old : TcpOptions) :
    TcpOptions :=
  let m := h.optMask
  let o := h.options
  { mss := if m.mss then o.mss else old.mss
    ws := if m.ws then o.ws else old.ws
    sack := if m.sack then o.sack.onto old.sack else old.sack
    ts := if m.ts then o.ts else old.ts
    mpCap := if m.mpCapable then cap.onto old.mpCap else old.mpCap
    mpJoin := if m.mpJoin then o.mpJoin else old.mpJoin
    mpDss := if m.mpDss then o.mpDss.onto old.mpDss else old.mpDss
    mpAdd := if m.mpAddAddr then add.onto old.mpAdd else old.mpAdd
    mpRem := if m.mpRemAddr then o.mpRem.onto old.mpRem else old.mpRem
    mpPrio := if m.mpPrio then o.mpPrio else old.mpPrio
    mpFail := if m.mpFail then o.mpFail else old.mpFail
    mpClose := if m.mpClose then o.mpClose else old.mpClose
    mpRst := if m.mpRst then o.mpRst else old.mpRst }

/-! What a list that may be there leaves of a header. -/

theorem decodeAll_listIf_nil (os : List TcpOption) (h : TCP) :
    decodeAll (listIf false os) h = some h := rfl

theorem decodeAll_mss (p : Bool) (o : TcpMssOpt) (h : TCP) :
    decodeAll (listIf p [.mss o]) h
      = some { h with optMask.mss := h.optMask.mss || p, options.mss := if p then o else h.options.mss } := by
  cases p with
  | true => simp [listIf, decodeAll, decode, withMss]
  | false => simp [decodeAll_listIf_nil]

theorem decodeAll_sackPerm (p : Bool) (o : TcpSAckPermOpt) (h : TCP) :
    decodeAll (listIf p [.sackPerm o]) h
      = some { h with optMask.sackPerm := h.optMask.sackPerm || p } := by
  cases p with
  | true => simp [listIf, decodeAll, decode, withSackPerm]
  | false => simp [decodeAll_listIf_nil]

theorem decodeAll_sack (p : Bool) {o : TcpSAckOpt} (hp : p = true → 1 ≤ o.blocks.toNat ∧ o.blocks.toNat ≤ TcpSAckOpt.maxBlocks) (h : TCP) :
    decodeAll (listIf p [.noOp, .noOp, .sack o]) h
      = some { h with optMask.sack := h.optMask.sack || p, options.sack := if p then o.onto h.options.sack else h.options.sack } := by
  cases p with
  | true => simp [listIf, decodeAll, decode, withSack, hp rfl]
  | false => simp [decodeAll_listIf_nil]

theorem decodeAll_ts (p q : Bool) (o : TcpTsOpt) (h : TCP) :
    decodeAll (listIf p (listIf q [.noOp, .noOp] ++ [.ts o])) h
      = some { h with optMask.ts := h.optMask.ts || p, options.ts := if p then o else h.options.ts } := by
  cases p with
  | true => cases q <;> simp [listIf, decodeAll, decode, withTs]
  | false => simp [decodeAll_listIf_nil]

theorem decodeAll_ws (p : Bool) {o : TcpWsOpt} (hp : p = true → o.wndShift ≤ TcpWsOpt.maxWndShift) (h : TCP) :
    decodeAll (listIf p [.noOp, .ws o]) h
      = some { h with optMask.ws := h.optMask.ws || p, options.ws := if p then o else h.options.ws } := by
  cases p with
  | true => simp [listIf, decodeAll, decode, withWs, hp rfl]
  | false => simp [decodeAll_listIf_nil]

theorem decodeAll_mpCapable (p : Bool) {o cap : TcpMpCapableOpt} (hp : p = true → o.asRead = some cap) (h : TCP) :
    decodeAll (listIf p [.mpCapable o]) h
      = some { h with optMask.mpCapable := h.optMask.mpCapable || p, options.mpCap := if p then cap.onto h.options.mpCap else h.options.mpCap } := by
  cases p with
  | true => simp [listIf, decodeAll, decode, withMpCapable, hp rfl]
  | false => simp [decodeAll_listIf_nil]

theorem decodeAll_mpJoin (p : Bool) (o : TcpMpJoinOpt) (h : TCP) :
    decodeAll (listIf p [.mpJoin o]) h
      = some { h with optMask.mpJoin := h.optMask.mpJoin || p, options.mpJoin := if p then o else h.options.mpJoin } := by
  cases p with
  | true => simp [listIf, decodeAll, decode, withMpJoin]
  | false => simp [decodeAll_listIf_nil]

theorem decodeAll_mpDss (p : Bool) (o : TcpMpDssOpt) (h : TCP) :
    decodeAll (listIf p [.mpDss o]) h
      = some { h with optMask.mpDss := h.optMask.mpDss || p, options.mpDss := if p then o.onto h.options.mpDss else h.options.mpDss } := by
  cases p with
  | true => simp [listIf, decodeAll, decode, withMpDss]
  | false => simp [decodeAll_listIf_nil]

theorem decodeAll_mpAddAddr (p : Bool) (o : TcpMpAddAddrOpt) (h : TCP) :
    decodeAll (listIf p [.mpAddAddr o]) h
      = some { h with optMask.mpAddAddr := h.optMask.mpAddAddr || p, options.mpAdd := if p then o.asRead.onto h.options.mpAdd else h.options.mpAdd } := by
  cases p with
  | true => simp [listIf, decodeAll, decode, withMpAddAddr]
  | false => simp [decodeAll_listIf_nil]

theorem decodeAll_mpRemAddr (p q : Bool) (o : TcpMpRemAddrOpt) (h : TCP) :
    decodeAll (listIf p (listIf q [.noOp] ++ [.mpRemAddr o])) h
      = some { h with optMask.mpRemAddr := h.optMask.mpRemAddr || p, options.mpRem := if p then o.onto h.options.mpRem else h.options.mpRem } := by
  cases p with
  | true => cases q <;> simp [listIf, decodeAll, decode, withMpRemAddr]
  | false => simp [decodeAll_listIf_nil]

theorem decodeAll_mpPrio (p : Bool) (o : TcpMpPrioOpt) (h : TCP) :
    decodeAll (listIf p [.noOp, .mpPrio o]) h
      = some { h with optMask.mpPrio := h.optMask.mpPrio || p, options.mpPrio := if p then o else h.options.mpPrio } := by
  cases p with
  | true => simp [listIf, decodeAll, decode, withMpPrio]
  | false => simp [decodeAll_listIf_nil]

theorem decodeAll_mpFail (p : Bool) (o : TcpMpFailOpt) (h : TCP) :
    decodeAll (listIf p [.mpFail o]) h
      = some { h with optMask.mpFail := h.optMask.mpFail || p, options.mpFail := if p then o else h.options.mpFail } := by
  cases p with
  | true => simp [listIf, decodeAll, decode, withMpFail]
  | false => simp [decodeAll_listIf_nil]

theorem decodeAll_mpClose (p : Bool) (o : TcpMpCloseOpt) (h : TCP) :
    decodeAll (listIf p [.mpClose o]) h
      = some { h with optMask.mpClose := h.optMask.mpClose || p, options.mpClose := if p then o else h.options.mpClose } := by
  cases p with
  | true => simp [listIf, decodeAll, decode, withMpClose]
  | false => simp [decodeAll_listIf_nil]

theorem decodeAll_mpRst (p : Bool) (o : TcpMpRstOpt) (h : TCP) :
    decodeAll (listIf p [.mpRst o]) h
      = some { h with optMask.mpRst := h.optMask.mpRst || p, options.mpRst := if p then o else h.options.mpRst } := by
  cases p with
  | true => simp [listIf, decodeAll, decode, withMpRst]
  | false => simp [decodeAll_listIf_nil]

/-- The options of plain TCP are read. -/
theorem decodeAll_optionList {h : TCP}
    (hws : h.optMask.ws = true → h.options.ws.wndShift ≤ TcpWsOpt.maxWndShift)
    (hsack : h.optMask.sack = true → 1 ≤ h.options.sack.blocks.toNat ∧
      h.options.sack.blocks.toNat ≤ TcpSAckOpt.maxBlocks)
    {cap : TcpMpCapableOpt} (hcap : h.optMask.mpCapable = true → h.options.mpCap.asRead = some cap)
    (old : TcpOptions) :
    decodeAll h.optionList { h with optMask := {}, options := old }
      = some { h with options := h.optionsOnto cap h.options.mpAdd.asRead old } := by
  simp only [optionList, decodeAll_append, decodeAll_mss, decodeAll_sackPerm,
    decodeAll_sack _ hsack, decodeAll_ts, decodeAll_ws _ hws, decodeAll_mpCapable _ hcap,
    decodeAll_mpJoin, decodeAll_mpDss, decodeAll_mpAddAddr, decodeAll_mpRemAddr, decodeAll_mpPrio,
    decodeAll_mpFail, decodeAll_mpClose, decodeAll_mpRst, Option.bind_some, Bool.false_or]
  rfl

theorem onWire_optionsOnto (h : TCP) (old : TcpOptions) :
    ({ h with options := h.optionsOnto h.options.mpCap h.options.mpAdd old } : TCP).onWire
      = h.onWire := by
  have hif : ∀ {α : Type} (p : Bool) (a b c : α),
      (if p then (if p then a else b) else c) = if p then a else c := fun p a b c => by
    cases p <;> rfl
  have hmap : ∀ {α : Type} (p : Bool) (f : α → α) (a b c : α),
      (if p then f (if p then a else b) else c) = if p then f a else c := fun p f a b c => by
    cases p <;> rfl
  simp only [onWire, optionsOnto, hif, hmap, TcpSAckOpt.onWire_onto, TcpMpCapableOpt.onWire_onto,
    TcpMpDssOpt.onWire_onto, TcpMpAddAddrOpt.onWire_onto, TcpMpRemAddrOpt.onWire_onto]

theorem mem_optionList_ws {h : TCP} (hmask : h.optMask.ws = true) :
    .ws h.options.ws ∈ h.optionList := by
  simp [optionList, listIf, hmask]

theorem mem_optionList_sack {h : TCP} (hmask : h.optMask.sack = true) :
    .sack h.options.sack ∈ h.optionList := by
  simp [optionList, listIf, hmask]

theorem mem_optionList_mpCapable {h : TCP} (hmask : h.optMask.mpCapable = true) :
    .mpCapable h.options.mpCap ∈ h.optionList := by
  simp [optionList, listIf, hmask]

theorem mem_optionList_mpAddAddr {h : TCP} (hmask : h.optMask.mpAddAddr = true) :
    .mpAddAddr h.options.mpAdd ∈ h.optionList := by
  simp [optionList, listIf, hmask]

/-- Headers whose options are all read as what they are. -/
structure OptionsRecoverable (h : TCP) : Prop where
  ws : h.optMask.ws = true → h.options.ws.wndShift ≤ TcpWsOpt.maxWndShift
  sack : h.optMask.sack = true → 1 ≤ h.options.sack.blocks.toNat ∧
    h.options.sack.blocks.toNat ≤ TcpSAckOpt.maxBlocks
  mpCapable : h.optMask.mpCapable = true → h.options.mpCap.fieldMask.isPrefix = true
  mpAddAddr : h.optMask.mpAddAddr = true → h.options.mpAdd.PortThroughout

theorem OptionsRecoverable.decodes {h : TCP} (hr : h.OptionsRecoverable) (hfits : h.Fits)
    (old : TcpOptions) :
    ∃ g, decodeAll h.optionList { h with optMask := {}, options := old } = some g ∧
      g.onWire = h.onWire := by
  have hcap : h.optMask.mpCapable = true → h.options.mpCap.asRead = some h.options.mpCap :=
    fun hmask => if_pos (hr.mpCapable hmask)
  have hrun := decodeAll_optionList hr.ws hr.sack hcap old
  refine ⟨_, hrun, ?_⟩
  -- ADD_ADDR is taken for itself, if it is there
  have hadd : h.optionsOnto h.options.mpCap h.options.mpAdd.asRead old
      = h.optionsOnto h.options.mpCap h.options.mpAdd old := by
    cases hmask : h.optMask.mpAddAddr with
    | true =>
      have hfit : h.options.mpAdd.Fits := hfits _ (mem_optionList_mpAddAddr hmask)
      rw [(TcpMpAddAddrOpt.asRead_eq_iff hfit).mpr (hr.mpAddAddr hmask)]
    | false => simp only [optionsOnto, hmask, Bool.false_eq_true, if_false]
  rw [hadd]
  exact onWire_optionsOnto h old

theorem optionsRecoverable_of_decodes {h g : TCP} (hfits : h.Fits) {old : TcpOptions}
    (hd : decodeAll h.optionList { h with optMask := {}, options := old } = some g)
    (hg : g.onWire = h.onWire) : h.OptionsRecoverable := by
  have hws : h.optMask.ws = true → h.options.ws.wndShift ≤ TcpWsOpt.maxWndShift := by
    intro hmask
    by_contra hlarge
    rw [decodeAll_eq_none (o := .ws h.options.ws) (fun _ => if_neg hlarge) (mem_optionList_ws hmask)] at hd
    cases hd
  have hsack : h.optMask.sack = true → 1 ≤ h.options.sack.blocks.toNat ∧
      h.options.sack.blocks.toNat ≤ TcpSAckOpt.maxBlocks := by
    intro hmask
    by_contra hblocks
    rw [decodeAll_eq_none (o := .sack h.options.sack) (fun _ => if_neg hblocks)
      (mem_optionList_sack hmask)] at hd
    cases hd
  have hcap : ∃ cap, h.optMask.mpCapable = true → h.options.mpCap.asRead = some cap := by
    cases hread : h.options.mpCap.asRead with
    | some cap => exact ⟨cap, fun _ => rfl⟩
    | none =>
      refine ⟨{}, fun hmask => ?_⟩
      rw [decodeAll_eq_none (fun h' => by rw [decode, hread]; rfl)
        (mem_optionList_mpCapable hmask)] at hd
      cases hd
  obtain ⟨cap, hcap⟩ := hcap
  rw [decodeAll_optionList hws hsack hcap old] at hd
  cases hd
  refine ⟨hws, hsack, ?_, ?_⟩
  · intro hmask
    have hopt := congrArg (fun g : TCP => g.options.mpCap) hg
    simp only [onWire, optionsOnto, hmask, if_true, TcpMpCapableOpt.onWire_onto] at hopt
    have hfield := congrArg TcpMpCapableOpt.fieldMask hopt
    change cap.fieldMask = h.options.mpCap.fieldMask at hfield
    rw [← hfield]
    exact TcpMpCapableOpt.isPrefix_asRead (hcap hmask)
  · intro hmask
    have hopt := congrArg (fun g : TCP => g.options.mpAdd) hg
    simp only [onWire, optionsOnto, hmask, if_true, TcpMpAddAddrOpt.onWire_onto] at hopt
    have hfit : h.options.mpAdd.Fits := hfits _ (mem_optionList_mpAddAddr hmask)
    exact (TcpMpAddAddrOpt.asRead_eq_iff hfit).mp (TcpMpAddAddrOpt.asRead_eq_of_onWire_eq hopt)

/-! ### Reading what was written -/

theorem reads_offset {h : TCP} (hsize : h.size ≤ 60) :
    Reads ReadStream.cursor readOffset (beBytes 1 (h.size / 4 % 2 ^ 4 * 2 ^ 4))
      (UInt32.ofNat (h.size / 4)) := by
  have hlow : 20 ≤ h.size := Nat.le_add_right ..
  have hmod : h.size / 4 % 2 ^ 4 = h.size / 4 := Nat.mod_eq_of_lt (by omega)
  have hnat : beNat (beBytes 1 (h.size / 4 % 2 ^ 4 * 2 ^ 4)) / 2 ^ 4 = h.size / 4 := by
    rw [beNat_beBytes, hmod]
    omega
  have hcheck : (!((UInt64.ofNat (h.size / 4)).toUInt32 < 5 : Bool)) = true := by
    rw [Bool.not_eq_true', decide_eq_false_iff_not, UInt32.lt_iff_toNat_lt, UInt64.toNat_toUInt32,
      UInt64.toNat_ofNat', show (5 : UInt32).toNat = 5 from rfl]
    omega
  have hbits := ((readsBits_serializeBits 32 0 4 (by norm_num) (by norm_num)).map
    UInt64.toUInt32).reads_ensure (n := 4) (k := 1) (fun v => !(v < 5 : Bool)) "invalid TCP header"
    (fun v => (readsBits_advanceBits 4 4 (by norm_num) (by norm_num)).map fun _ => v) rfl
    (length_beBytes 1 (h.size / 4 % 2 ^ 4 * 2 ^ 4)) (by rw [hnat]; exact hcheck)
  rw [hnat] at hbits
  have hval : (UInt64.ofNat (h.size / 4)).toUInt32 = UInt32.ofNat (h.size / 4) := by
    rw [← UInt32.toNat_inj, UInt64.toNat_toUInt32, UInt64.toNat_ofNat', UInt32.toNat_ofNat']
    omega
  rw [hval] at hbits
  exact hbits

theorem reads_fixed {h : TCP} (hsize : h.size ≤ 60) (old : TCP) :
    Reads ReadStream.cursor (readFixed old) h.fixedBytes
      (UInt32.ofNat (h.size / 4), { h with optMask := {}, options := old.options }) :=
  (reads_uint16 h.sport).bind ((reads_uint16 h.dport).bind ((reads_uint32 h.seq).bind
    ((reads_uint32 h.ack).bind ((reads_offset hsize).bind ((reads_byte h.flags).bind
      ((reads_uint16 h.window).bind ((reads_uint16 h.chksum).bind
        (reads_uint16 h.urgptr).bind_pure)))))))

theorem length_le_bytesOf (os : List TcpOption) : os.length ≤ (bytesOf os).length := by
  induction os with
  | nil => exact le_rfl
  | cons o os ih =>
    obtain ⟨rest, hbytes, -⟩ := o.bytes_eq_cons
    rw [bytesOf_cons, hbytes, List.length_append, List.length_cons, List.length_cons]
    omega

theorem short_optionList {h : TCP} (hsize : h.size ≤ 60) : ∀ o ∈ h.optionList, o.Short := by
  intro o ho
  cases o with
  | sack o =>
    have hmem : h.optMask.sack = true ∧ o = h.options.sack := by
      simpa [optionList, listIf, List.mem_append] using ho
    obtain ⟨hmask, rfl⟩ := hmem
    rw [size, measureOpts_eq, plainLen, lenBeforeTs, hmask, if_pos rfl] at hsize
    show h.options.sack.size ≤ 40
    omega
  | _ => trivial

theorem readOptions_ok {n : ℕ} {h g : TCP} {opts : List UInt8} {s : ReadStream}
    (hlen : opts.length = n) (hparse : parseOpts n h (ReadStream.ofBuffer opts) = .ok g s) :
    Reads ReadStream.cursor (readOptions n h) opts g := by
  intro pre post
  rw [readOptions, bind_ok (lookahead_some pre opts post n hlen), hlen, hparse]
  exact reads_map _ (reads_advanceBytes opts n hlen) pre post

theorem readOptions_error {n : ℕ} {h : TCP} {opts : List UInt8} {e : String} {s : ReadStream}
    (hlen : opts.length = n) (hparse : parseOpts n h (ReadStream.ofBuffer opts) = .error e s) :
    Refuses ReadStream.cursor (readOptions n h) opts := by
  intro pre post
  rw [readOptions, bind_ok (lookahead_some pre opts post n hlen), hlen, hparse]
  exact ⟨_, _, rfl⟩

theorem starves_readOptions (n : ℕ) (h : TCP) :
    Starves ReadStream.cursor (readOptions n h) n := by
  intro pre post hshort
  have hlook : ReadStream.lookahead (some n) (ReadStream.cursor pre post)
      = .error "out of data to read" (ReadStream.cursor pre post) := by
    rw [ReadStream.lookahead, if_neg (by simp), ReadStream.remaining_cursor]
    exact if_pos hshort
  exact ⟨_, _, bind_error hlook⟩

/-- A header that was written is read up to its options. -/
theorem read_bytes {h : TCP} (hsize : h.size ≤ 60) (old : TCP) :
    read old (ReadStream.ofBuffer h.bytes)
      = (if h.measureOpts = 0 then pure { h with optMask := {}, options := old.options }
          else readOptions h.measureOpts { h with optMask := {}, options := old.options })
        (ReadStream.cursor h.fixedBytes
          (bytesOf h.optionList ++ List.replicate h.padding 0)) := by
  have hfour : h.measureOpts % 4 = 0 := by
    rw [measureOpts_eq]
    omega
  have hval : (UInt32.ofNat (h.size / 4)).toNat = h.size / 4 := by
    rw [UInt32.toNat_ofNat']
    omega
  have hfive : UInt32.ofNat (h.size / 4) = 5 ↔ h.measureOpts = 0 := by
    rw [← UInt32.toNat_inj, hval, show (5 : UInt32).toNat = 5 from rfl, size]
    omega
  have hwords : 4 * (h.size / 4 - 5) = h.measureOpts := by
    rw [size]
    omega
  have hrun := reads_fixed hsize old [] (bytesOf h.optionList ++ List.replicate h.padding 0)
  rw [List.nil_append] at hrun
  rw [read, bytes, ReadStream.ofBuffer_eq, bind_ok hrun]
  simp only [hfive, hval, hwords]

/-- What comes of a list of options that is there in full, with zeros behind it. -/
theorem parseOpts_written {h : TCP} (hfits : h.Fits) (hsize : h.size ≤ 60) (h₀ : TCP) (z : ℕ) :
    (∀ g, decodeAll h.optionList h₀ = some g →
      ∃ s, parseOpts ((bytesOf h.optionList).length + z) h₀
        (ReadStream.ofBuffer (bytesOf h.optionList ++ List.replicate z 0)) = .ok g s) ∧
    (decodeAll h.optionList h₀ = none →
      ∃ e s, parseOpts ((bytesOf h.optionList).length + z) h₀
        (ReadStream.ofBuffer (bytesOf h.optionList ++ List.replicate z 0)) = .error e s) := by
  have hlen := length_le_bytesOf h.optionList
  have hparse := parseOpts_options h.optionList
    (fun o ho => ⟨hfits o ho, short_optionList hsize o ho⟩) h₀
    (z + ((bytesOf h.optionList).length - h.optionList.length)) [] (List.replicate z 0)
  rw [show h.optionList.length + (z + ((bytesOf h.optionList).length - h.optionList.length))
    = (bytesOf h.optionList).length + z by omega] at hparse
  obtain ⟨hok, herror⟩ := hparse
  refine ⟨fun g hg => ?_, herror⟩
  obtain ⟨s, hzeros⟩ := parseOpts_zeros g ((bytesOf h.optionList).length - h.optionList.length) z
    ([] ++ bytesOf h.optionList)
  exact ⟨s, (hok g hg).trans hzeros⟩

/-- The headers that survive: their options do, and the MPTCP options do not end two bytes
short of a whole word when those of plain TCP fill whole words. -/
structure Recoverable (h : TCP) : Prop where
  options : h.OptionsRecoverable
  complete : ¬(h.plainLen % 4 = 0 ∧ h.mptcpLen % 4 = 2)

/-- With all of its options there, a header is read as what they decode to. -/
theorem read_bytes_complete {h : TCP} (hfits : h.Fits) (hsize : h.size ≤ 60) (old : TCP)
    (hroom : h.measureOpts ≤ (bytesOf h.optionList).length + h.padding) :
    (∀ g, decodeAll h.optionList { h with optMask := {}, options := old.options } = some g →
      ∃ rs, read old (ReadStream.ofBuffer h.bytes) = .ok g rs) ∧
    (decodeAll h.optionList { h with optMask := {}, options := old.options } = none →
      ∃ e rs, read old (ReadStream.ofBuffer h.bytes) = .error e rs) := by
  have hlen := h.length_optionList
  have hmeasure := h.measureOpts_eq
  rw [read_bytes hsize old]
  by_cases hzero : h.measureOpts = 0
  · -- no options at all
    have hnil : h.optionList = [] := by
      have hle := length_le_bytesOf h.optionList
      exact List.length_eq_zero_iff.mp (by omega)
    rw [if_pos hzero, hnil]
    refine ⟨fun g hg => ?_, fun hd => by cases hd⟩
    cases hg
    exact ⟨_, rfl⟩
  · obtain ⟨z, hz, hpad⟩ : ∃ z, h.measureOpts = (bytesOf h.optionList).length + z ∧
        z ≤ h.padding :=
      ⟨h.measureOpts - (bytesOf h.optionList).length, by rw [padding] at hroom; split_ifs at hroom <;> omega, by omega⟩
    have hsplit : bytesOf h.optionList ++ List.replicate h.padding 0
        = (bytesOf h.optionList ++ List.replicate z 0) ++ List.replicate (h.padding - z) 0 := by
      rw [List.append_assoc, List.replicate_append_replicate, Nat.add_sub_cancel' hpad]
    have hopts : (bytesOf h.optionList ++ List.replicate z 0).length
        = (bytesOf h.optionList).length + z := by
      rw [List.length_append, List.length_replicate]
    obtain ⟨hok, herror⟩ := parseOpts_written hfits hsize
      { h with optMask := {}, options := old.options } z
    rw [if_neg hzero, hsplit, hz]
    constructor
    · intro g hg
      obtain ⟨s, hparse⟩ := hok g hg
      exact ⟨_, readOptions_ok hopts hparse h.fixedBytes _⟩
    · intro hd
      obtain ⟨e, s, hparse⟩ := herror hd
      exact readOptions_error hopts hparse h.fixedBytes _

theorem take_written {h : TCP} {buf : List UInt8} {ws : WriteStream}
    (hwrite : h.write (WriteStream.ofBuffer buf) = .ok () ws) :
    ws.data.take ws.bytePos = h.bytes := by
  rw [WriteStream.ofBuffer_eq] at hwrite
  obtain ⟨-, -, rfl⟩ := ((h.writes).at 0).of_ok rfl hwrite
  exact List.take_left' rfl

/-- What was read was there. -/
theorem measureOpts_le_of_read {h : TCP} (hsize : h.size ≤ 60) {old g : TCP} {rs : ReadStream}
    (hok : read old (ReadStream.ofBuffer h.bytes) = .ok g rs) :
    h.measureOpts ≤ (bytesOf h.optionList).length + h.padding := by
  by_contra hshort
  obtain ⟨e, s, herr⟩ := starves_readOptions h.measureOpts
    { h with optMask := {}, options := old.options } h.fixedBytes
    (bytesOf h.optionList ++ List.replicate h.padding 0)
    (by rw [List.length_append, List.length_replicate]; omega)
  rw [read_bytes hsize old, if_neg (by omega), herr] at hok
  cases hok

/-- The bytes written for a header of at most 60 bytes are read back to all that was
written exactly when the header is recoverable. -/
theorem read_written_iff {h : TCP} (hfits : h.Fits) (hsize : h.size ≤ 60) {buf : List UInt8}
    {ws : WriteStream} (hwrite : h.write (WriteStream.ofBuffer buf) = .ok () ws) (old : TCP) :
    (∃ g rs, read old (ReadStream.ofBuffer (ws.data.take ws.bytePos)) = .ok g rs ∧
      g.onWire = h.onWire) ↔ h.Recoverable := by
  have hlen := h.length_optionList
  have hmeasure := h.measureOpts_eq
  have heven := h.plainLen_even
  have heven' := h.mptcpLen_even
  rw [take_written hwrite]
  constructor
  · rintro ⟨g, rs, hok, hg⟩
    have hroom := measureOpts_le_of_read hsize hok
    obtain ⟨hsome, hnone⟩ := read_bytes_complete hfits hsize old hroom
    refine ⟨?_, ?_⟩
    · cases hd : decodeAll h.optionList { h with optMask := {}, options := old.options } with
      | none =>
        obtain ⟨e, s, herr⟩ := hnone hd
        rw [hok] at herr
        cases herr
      | some g' =>
        obtain ⟨s, hok'⟩ := hsome g' hd
        rw [hok] at hok'
        cases hok'
        exact optionsRecoverable_of_decodes hfits hd hg
    · rintro ⟨hplain, hmptcp⟩
      rw [padding, if_neg (by omega)] at hroom
      omega
  · rintro ⟨hopts, hcomplete⟩
    have hmissing : h.missingBlocks = 0 := by
      rw [missingBlocks]
      split_ifs with hmask
      · have hmax := (hopts.sack hmask).2
        rw [TcpSAckOpt.maxBlocks] at hmax
        omega
      · rfl
    have hroom : h.measureOpts ≤ (bytesOf h.optionList).length + h.padding := by
      rw [padding]
      split_ifs <;> omega
    obtain ⟨g, hd, hg⟩ := hopts.decodes hfits old.options
    obtain ⟨rs, hok⟩ := (read_bytes_complete hfits hsize old hroom).1 g hd
    exact ⟨g, rs, hok, hg⟩

/-- The options of a SYN fit, whatever their values. -/
theorem fits_exampleSyn : exampleSyn.Fits := by
  intro o ho
  have hlist : exampleSyn.optionList = [.mss ⟨1460⟩, .sackPerm ⟨⟩, .ts {}, .noOp, .ws ⟨7⟩] := rfl
  rw [hlist] at ho
  simp only [List.mem_cons, List.not_mem_nil, or_false] at ho
  rcases ho with rfl | rfl | rfl | rfl | rfl <;> trivial

theorem read_written_iff_exampleSyn :
    ∃ ws, exampleSyn.write (WriteStream.ofBuffer (List.replicate 40 0)) = .ok () ws ∧
      ((∃ g rs, read {} (ReadStream.ofBuffer (ws.data.take ws.bytePos)) = .ok g rs ∧
        g.onWire = exampleSyn.onWire) ↔ exampleSyn.Recoverable) :=
  ⟨_, (exampleSyn.writes [] (List.replicate 40 0)).1 (by decide),
    read_written_iff fits_exampleSyn (by decide)
      ((exampleSyn.writes [] (List.replicate 40 0)).1 (by decide)) {}⟩

/-- The header with an announced address and port ends two bytes before its data offset
says. -/
theorem not_forall_read_written :
    ¬ ∀ h : TCP, h.Fits → h.size ≤ 60 → ∀ (buf : List UInt8) (ws : WriteStream),
      h.write (WriteStream.ofBuffer buf) = .ok () ws → ∀ old : TCP, ∃ g rs,
        read old (ReadStream.ofBuffer (ws.data.take ws.bytePos)) = .ok g rs ∧
          g.onWire = h.onWire := by
  intro hall
  have hwrite := (exampleAddAddr.writes [] (List.replicate 40 0)).1 (by decide)
  obtain ⟨g, rs, hok, -⟩ := hall exampleAddAddr fits_exampleAddAddr (by decide) _ _ hwrite {}
  rw [take_written hwrite] at hok
  exact absurd (measureOpts_le_of_read (by decide) hok) (by decide)

end TCP

end Scion
