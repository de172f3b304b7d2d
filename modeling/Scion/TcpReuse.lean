/-
TCP headers that are read into old ones (`hdr/tcp.hpp`).

Reading clears the mask of the options but not the options, so that values of an earlier packet
stay where nothing is stored.

* `TCP.SameWire` — headers that differ only where nothing is written from;
* `TCP.SameWire.bytes_eq`, `TCP.SameWire.size_eq` — they are written and measured the same way;
* `TCP.read_sameWire` — what is read does not depend, in this sense, on the old header.
-/
import Scion.TcpReencoding

namespace Scion

open BigEndian Codec ReadStream

/-! ### What is written -/

theorem getElem_overlay {α : Type} {k n : ℕ} (new old : Vector α k) {i : Fin k}
    (hi : i ∈ firstSlots k n) :
    getElem (overlay n new old) i i.isLt = getElem new i i.isLt := by
  simp [overlay, (mem_firstSlots i).mp hi]

theorem TcpSAckOpt.bytes_onWire (o : TcpSAckOpt) : o.onWire.bytes = o.bytes := by
  have hedges : (firstSlots 3 o.blocks.toNat).map (fun i => blockBytes o.onWire.edges[i])
      = (firstSlots 3 o.blocks.toNat).map fun i => blockBytes o.edges[i] :=
    List.map_congr_left fun i hi => by
      rw [onWire, onto, getElem_overlay _ _ hi]
  rw [bytes, bytes, ← hedges]
  rfl

theorem TcpMpCapableOpt.bytes_onWire (o : TcpMpCapableOpt) : o.onWire.bytes = o.bytes := by
  obtain ⟨⟨s, r, d, c⟩, version, flags, _, _, _, _⟩ := o
  cases s <;> cases r <;> cases d <;> cases c <;> rfl

theorem TcpMpDssOpt.seqBytes_seqOnto (eight : Bool) (x old : UInt64) :
    seqBytes eight (seqOnto eight x old) = seqBytes eight x := by
  cases eight with
  | true => rfl
  | false => simp only [seqBytes, seqOnto, Bool.false_eq_true, if_false, toUInt32_setU32]

/-- A field that is there is not the old one. -/
theorem bytesIf_ite {α : Type} (present : Bool) (f : α → List UInt8) (new old : α) :
    bytesIf present (f (if present then new else old)) = bytesIf present (f new) := by
  cases present <;> rfl

theorem TcpMpDssOpt.bytes_onWire (o : TcpMpDssOpt) : o.onWire.bytes = o.bytes := by
  have hseq := fun eight new => bytesIf_ite (hasFlag o.flags flagACK) (seqBytes eight)
    (seqOnto eight new 0) 0
  have hdsn := fun eight new => bytesIf_ite (hasFlag o.flags flagDSN) (seqBytes eight)
    (seqOnto eight new 0) 0
  have hsub := bytesIf_ite (hasFlag o.flags flagDSN) (fun v : UInt32 => beBytes 4 v.toNat)
    o.subflowSeq 0
  have hlen := bytesIf_ite (hasFlag o.flags flagDSN) (fun v : UInt16 => beBytes 2 v.toNat)
    o.dataLevelLen 0
  simp only [onWire, onto, bytes, hseq, hdsn, hsub, hlen, seqBytes_seqOnto]
  rfl

theorem TcpMpAddAddrOpt.bytes_onWire (o : TcpMpAddAddrOpt) : o.onWire.bytes = o.bytes := by
  have hmac := bytesIf_ite (!hasFlag o.flags flagEcho) (fun v : UInt64 => beBytes 8 v.toNat) o.mac 0
  simp only [onWire, onto, bytes, frame, hmac]
  rfl

theorem TcpMpRemAddrOpt.bytes_onWire (o : TcpMpRemAddrOpt) : o.onWire.bytes = o.bytes := by
  have hids : (firstSlots 8 o.numIds).map (fun i => [o.onWire.addressIds[i]])
      = (firstSlots 8 o.numIds).map fun i => [o.addressIds[i]] :=
    List.map_congr_left fun i hi => by
      rw [onWire, onto, getElem_overlay _ _ hi]
  rw [bytes, bytes, ← hids]
  rfl

namespace TCP

open TcpOption

theorem lenBeforeTs_onWire (h : TCP) : h.onWire.lenBeforeTs = h.lenBeforeTs := by
  rw [lenBeforeTs, lenBeforeTs]
  cases hsack : h.optMask.sack <;> simp only [onWire, hsack] <;> rfl

theorem plainLen_onWire (h : TCP) : h.onWire.plainLen = h.plainLen := by
  rw [plainLen, plainLen, lenBeforeTs_onWire]
  rfl

theorem ite_present {α : Type} (present : Bool) (f : α → ℕ) (new old : α) :
    (if present then f (if present then new else old) else 0) = if present then f new else 0 := by
  cases present <;> rfl

theorem mptcpLen_onWire (h : TCP) : h.onWire.mptcpLen = h.mptcpLen := by
  have hcap := ite_present h.optMask.mpCapable TcpMpCapableOpt.size h.options.mpCap.onWire {}
  have hjoin := ite_present h.optMask.mpJoin TcpMpJoinOpt.size h.options.mpJoin (.syn 0 0 0 0)
  have hdss := ite_present h.optMask.mpDss TcpMpDssOpt.size h.options.mpDss.onWire {}
  have hadd := ite_present h.optMask.mpAddAddr TcpMpAddAddrOpt.size h.options.mpAdd.onWire {}
  have hrem := ite_present h.optMask.mpRemAddr
    (fun o : TcpMpRemAddrOpt => 2 * ((o.size + 1) / 2)) h.options.mpRem.onWire {}
  have hfail := ite_present h.optMask.mpFail TcpMpFailOpt.size h.options.mpFail {}
  have hclose := ite_present h.optMask.mpClose TcpMpCloseOpt.size h.options.mpClose {}
  have hrst := ite_present h.optMask.mpRst TcpMpRstOpt.size h.options.mpRst {}
  exact congrArg₂ (· + ·) (congrArg₂ (· + ·) (congrArg₂ (· + ·) (congrArg₂ (· + ·)
    (congrArg₂ (· + ·) (congrArg₂ (· + ·) (congrArg₂ (· + ·) (congrArg₂ (· + ·) hcap hjoin) hdss)
      hadd) hrem) rfl) hfail) hclose) hrst

theorem size_onWire (h : TCP) : h.onWire.size = h.size := by
  rw [size, size, measureOpts_eq, measureOpts_eq, plainLen_onWire, mptcpLen_onWire]

/-- An option is written as it is on the wire. -/
theorem bytesOf_present {α : Type} (present : Bool) (list : α → List TcpOption)
    {new wire old : α} (h : bytesOf (list wire) = bytesOf (list new)) :
    bytesOf (listIf present (list (if present then wire else old)))
      = bytesOf (listIf present (list new)) := by
  cases present with
  | false => rfl
  | true => exact h

theorem bytesOf_optionList_onWire (h : TCP) :
    bytesOf h.onWire.optionList = bytesOf h.optionList := by
  let o := h.options
  have hmss := @bytesOf_present _ h.optMask.mss (fun o => [.mss o]) o.mss o.mss {} rfl
  have hsack := @bytesOf_present _ h.optMask.sack (fun o => [.noOp, .noOp, .sack o]) o.sack
    o.sack.onWire {} (by simp only [bytesOf_cons, TcpOption.bytes, TcpSAckOpt.bytes_onWire])
  have hts := @bytesOf_present _ h.optMask.ts
    (fun o => listIf (h.lenBeforeTs % 4 ≠ 2) [.noOp, .noOp] ++ [.ts o]) o.ts o.ts {} rfl
  have hws := @bytesOf_present _ h.optMask.ws (fun o => [.noOp, .ws o]) o.ws o.ws {} rfl
  have hcap := @bytesOf_present _ h.optMask.mpCapable (fun o => [.mpCapable o]) o.mpCap
    o.mpCap.onWire {} (by simp only [bytesOf_cons, TcpOption.bytes, TcpMpCapableOpt.bytes_onWire])
  have hjoin := @bytesOf_present _ h.optMask.mpJoin (fun o => [.mpJoin o]) o.mpJoin o.mpJoin
    (.syn 0 0 0 0) rfl
  have hdss := @bytesOf_present _ h.optMask.mpDss (fun o => [.mpDss o]) o.mpDss
    o.mpDss.onWire {} (by simp only [bytesOf_cons, TcpOption.bytes, TcpMpDssOpt.bytes_onWire])
  have hadd := @bytesOf_present _ h.optMask.mpAddAddr (fun o => [.mpAddAddr o]) o.mpAdd
    o.mpAdd.onWire {} (by simp only [bytesOf_cons, TcpOption.bytes, TcpMpAddAddrOpt.bytes_onWire])
  have hrem := @bytesOf_present _ h.optMask.mpRemAddr
    (fun o => listIf (o.size % 2 = 1) [.noOp] ++ [.mpRemAddr o]) o.mpRem o.mpRem.onWire {} (by
      rw [bytesOf_append, bytesOf_append, bytesOf_cons, bytesOf_cons]
      simp only [TcpOption.bytes, TcpMpRemAddrOpt.bytes_onWire]
      rfl)
  have hprio := @bytesOf_present _ h.optMask.mpPrio (fun o => [.noOp, .mpPrio o]) o.mpPrio
    o.mpPrio {} rfl
  have hfail := @bytesOf_present _ h.optMask.mpFail (fun o => [.mpFail o]) o.mpFail o.mpFail {} rfl
  have hclose := @bytesOf_present _ h.optMask.mpClose (fun o => [.mpClose o]) o.mpClose o.mpClose
    {} rfl
  have hrst := @bytesOf_present _ h.optMask.mpRst (fun o => [.mpRst o]) o.mpRst o.mpRst {} rfl
  rw [optionList, optionList, lenBeforeTs_onWire]
  simp only [bytesOf_append]
  exact congrArg₂ (· ++ ·) hmss (congrArg₂ (· ++ ·) rfl (congrArg₂ (· ++ ·) hsack
    (congrArg₂ (· ++ ·) hts (congrArg₂ (· ++ ·) hws (congrArg₂ (· ++ ·) hcap
      (congrArg₂ (· ++ ·) hjoin (congrArg₂ (· ++ ·) hdss (congrArg₂ (· ++ ·) hadd
        (congrArg₂ (· ++ ·) hrem (congrArg₂ (· ++ ·) hprio (congrArg₂ (· ++ ·) hfail
          (congrArg₂ (· ++ ·) hclose hrst))))))))))))

theorem bytes_onWire (h : TCP) : h.onWire.bytes = h.bytes := by
  have hfixed : h.onWire.fixedBytes = h.fixedBytes := by
    rw [fixedBytes, fixedBytes, size_onWire]
    rfl
  rw [bytes, bytes, hfixed, bytesOf_optionList_onWire, padding, padding, plainLen_onWire]

/-! ### What is read -/

/-- Headers that are the same on the wire. -/
structure SameWire (g h : TCP) : Prop where
  fixed : ({ g with options := {} } : TCP) = { h with options := {} }
  mss : h.optMask.mss = true → g.options.mss = h.options.mss
  ws : h.optMask.ws = true → g.options.ws = h.options.ws
  sack : h.optMask.sack = true → g.options.sack.onWire = h.options.sack.onWire
  ts : h.optMask.ts = true → g.options.ts = h.options.ts
  mpCap : h.optMask.mpCapable = true → g.options.mpCap.onWire = h.options.mpCap.onWire
  mpJoin : h.optMask.mpJoin = true → g.options.mpJoin = h.options.mpJoin
  mpDss : h.optMask.mpDss = true → g.options.mpDss.onWire = h.options.mpDss.onWire
  mpAdd : h.optMask.mpAddAddr = true → g.options.mpAdd.onWire = h.options.mpAdd.onWire
  mpRem : h.optMask.mpRemAddr = true → g.options.mpRem.onWire = h.options.mpRem.onWire
  mpPrio : h.optMask.mpPrio = true → g.options.mpPrio = h.options.mpPrio
  mpFail : h.optMask.mpFail = true → g.options.mpFail = h.options.mpFail
  mpClose : h.optMask.mpClose = true → g.options.mpClose = h.options.mpClose
  mpRst : h.optMask.mpRst = true → g.options.mpRst = h.options.mpRst

namespace SameWire

variable {g h : TCP}

/-- Without options there is nothing else. -/
theorem of_fixed (hfixed : ({ g with options := {} } : TCP) = { h with options := {} })
    (hnone : h.optMask = {}) : SameWire g h := by
  constructor
  · exact hfixed
  all_goals
    rw [hnone]
    exact fun hset => nomatch hset

theorem ite_eq {α : Type} {present : Bool} {new new' : α} (old : α)
    (h : present = true → new = new') :
    (if present then new else old) = if present then new' else old := by
  cases present with
  | false => rfl
  | true => exact h rfl

theorem optMask_eq (hs : SameWire g h) : g.optMask = h.optMask := by
  have hmask := congrArg (fun t : TCP => t.optMask) hs.fixed
  exact hmask

theorem chksum_eq (hs : SameWire g h) : g.chksum = h.chksum := by
  have hchksum := congrArg (fun t : TCP => t.chksum) hs.fixed
  exact hchksum

theorem withChksum (hs : SameWire g h) (chksum : UInt16) :
    SameWire { g with chksum := chksum } { h with chksum := chksum } :=
  { hs with
    fixed := congrArg (fun t : TCP => { t with chksum := chksum }) hs.fixed }

theorem sport_eq (hs : SameWire g h) : g.sport = h.sport := by
  have hsport := congrArg (fun t : TCP => t.sport) hs.fixed
  exact hsport

theorem dport_eq (hs : SameWire g h) : g.dport = h.dport := by
  have hdport := congrArg (fun t : TCP => t.dport) hs.fixed
  exact hdport

theorem onWire_eq (hs : SameWire g h) : g.onWire = h.onWire := by
  have hoptions : g.onWire.options = h.onWire.options := by
    rw [onWire, onWire, hs.optMask_eq]
    dsimp only
    rw [ite_eq _ hs.mss, ite_eq _ hs.ws, ite_eq _ hs.sack, ite_eq _ hs.ts, ite_eq _ hs.mpCap,
      ite_eq _ hs.mpJoin, ite_eq _ hs.mpDss, ite_eq _ hs.mpAdd, ite_eq _ hs.mpRem,
      ite_eq _ hs.mpPrio, ite_eq _ hs.mpFail, ite_eq _ hs.mpClose, ite_eq _ hs.mpRst]
  have hrecord : ∀ t : TCP, t.onWire = { ({ t with options := {} } : TCP) with
    options := t.onWire.options } := fun _ => rfl
  rw [hrecord g, hrecord h, hoptions, hs.fixed]

theorem bytes_eq (hs : SameWire g h) : g.bytes = h.bytes := by
  rw [← bytes_onWire, hs.onWire_eq, bytes_onWire]

theorem size_eq (hs : SameWire g h) : g.size = h.size := by
  rw [← size_onWire, hs.onWire_eq, size_onWire]

/-- Options that are stored are the same afterwards. -/
theorem store (hs : SameWire g h) (o : TcpOption) : SameWire (o.store g) (o.store h) := by
  cases o with
  | noOp => exact hs
  | mss o =>
    exact { hs with
      fixed := congrArg (fun t : TCP => { t with optMask.mss := true }) hs.fixed
      mss := fun _ => rfl }
  | ws o =>
    exact { hs with
      fixed := congrArg (fun t : TCP => { t with optMask.ws := true }) hs.fixed
      ws := fun _ => rfl }
  | sackPerm o =>
    exact { hs with
      fixed := congrArg (fun t : TCP => { t with optMask.sackPerm := true }) hs.fixed }
  | sack o =>
    exact { hs with
      fixed := congrArg (fun t : TCP => { t with optMask.sack := true }) hs.fixed
      sack := fun _ => (o.onWire_onto _).trans (o.onWire_onto _).symm }
  | ts o =>
    exact { hs with
      fixed := congrArg (fun t : TCP => { t with optMask.ts := true }) hs.fixed
      ts := fun _ => rfl }
  | mpCapable o =>
    exact { hs with
      fixed := congrArg (fun t : TCP => { t with optMask.mpCapable := true }) hs.fixed
      mpCap := fun _ => (o.onWire_onto _).trans (o.onWire_onto _).symm }
  | mpJoin o =>
    exact { hs with
      fixed := congrArg (fun t : TCP => { t with optMask.mpJoin := true }) hs.fixed
      mpJoin := fun _ => rfl }
  | mpDss o =>
    exact { hs with
      fixed := congrArg (fun t : TCP => { t with optMask.mpDss := true }) hs.fixed
      mpDss := fun _ => (o.onWire_onto _).trans (o.onWire_onto _).symm }
  | mpAddAddr o =>
    exact { hs with
      fixed := congrArg (fun t : TCP => { t with optMask.mpAddAddr := true }) hs.fixed
      mpAdd := fun _ => (o.onWire_onto _).trans (o.onWire_onto _).symm }
  | mpRemAddr o =>
    exact { hs with
      fixed := congrArg (fun t : TCP => { t with optMask.mpRemAddr := true }) hs.fixed
      mpRem := fun _ => (o.onWire_onto _).trans (o.onWire_onto _).symm }
  | mpPrio o =>
    exact { hs with
      fixed := congrArg (fun t : TCP => { t with optMask.mpPrio := true }) hs.fixed
      mpPrio := fun _ => rfl }
  | mpFail o =>
    exact { hs with
      fixed := congrArg (fun t : TCP => { t with optMask.mpFail := true }) hs.fixed
      mpFail := fun _ => rfl }
  | mpClose o =>
    exact { hs with
      fixed := congrArg (fun t : TCP => { t with optMask.mpClose := true }) hs.fixed
      mpClose := fun _ => rfl }
  | mpRst o =>
    exact { hs with
      fixed := congrArg (fun t : TCP => { t with optMask.mpRst := true }) hs.fixed
      mpRst := fun _ => rfl }

end SameWire

/-- What a round does to a header does not depend on what an earlier packet has left. -/
theorem OptRound.sameWire {a b a' : OptHead} (h : OptRound a b) (hpre : a'.pre = a.pre)
    (hpost : a'.post = a.post) (hs : SameWire a'.header a.header) :
    ∃ b', OptRound a' b' ∧ b'.pre = b.pre ∧ b'.post = b.post ∧ SameWire b'.header b.header := by
  obtain ⟨bs, f, hbytes, hbpre, hf, hchunk⟩ := h.exists_chunk
  obtain ⟨header, pre, post⟩ := a
  obtain ⟨header', pre', post'⟩ := a'
  dsimp only at hpre hpost hs hbytes hbpre hf
  subst hpre hpost
  have hrun := hchunk.reads header' pre' b.post
  rw [← hbytes, ← hbpre] at hrun
  refine ⟨⟨f header', b.pre, b.post⟩, ⟨h.goesOn, hrun⟩, rfl, rfl, ?_⟩
  rw [hf]
  cases hchunk.stores with
  | known hstores =>
    obtain ⟨o, rfl, -⟩ := hstores
    exact hs.store o
  | skipped hid =>
    rw [hid]
    exact hs

theorem exists_rounds_sameWire {a b : OptHead} (hrounds : Relation.ReflTransGen OptRound a b) :
    ∀ a' : OptHead, a'.pre = a.pre → a'.post = a.post → SameWire a'.header a.header →
      ∃ b', Relation.ReflTransGen OptRound a' b' ∧ b'.post = b.post ∧
        SameWire b'.header b.header := by
  induction hrounds using Relation.ReflTransGen.head_induction_on with
  | refl => exact fun a' _ hpost hs => ⟨a', .refl, hpost, hs⟩
  | head hstep _ ih =>
    intro a' hpre hpost hs
    obtain ⟨c, hc, hcpre, hcpost, hcs⟩ := hstep.sameWire hpre hpost hs
    obtain ⟨b', hb', hbpost, hbs⟩ := ih c hcpre hcpost hcs
    exact ⟨b', .head hc hb', hbpost, hbs⟩

theorem parseOpts_sameWire {h h' g : TCP} {area : List UInt8} {s : ReadStream}
    (hs : SameWire h' h) (hparse : parseOpts area.length h (ReadStream.ofBuffer area) = .ok g s) :
    ∃ g' s', parseOpts area.length h' (ReadStream.ofBuffer area) = .ok g' s' ∧ SameWire g' g := by
  obtain ⟨b, hrounds, hend, rfl⟩ := (parseOpts_eq_ok_iff h area g).mp ⟨s, hparse⟩
  obtain ⟨b', hrounds', hpost, hsame⟩ := exists_rounds_sameWire hrounds ⟨h', [], area⟩ rfl rfl hs
  have hend' : b'.AtEnd := by
    rw [OptHead.AtEnd, hpost]
    exact hend
  obtain ⟨s', hparse'⟩ := (parseOpts_eq_ok_iff h' area b'.header).mpr ⟨b', hrounds', hend', rfl⟩
  exact ⟨b'.header, s', hparse', hsame⟩

/-- No option is longer than the area that it was read from. -/
theorem sizeAt_le_of_rounds {a b : OptHead} (hrounds : Relation.ReflTransGen OptRound a b) {n : ℕ}
    (ha : ∀ t, a.header.sizeAt t ≤ n) (hn : a.post.length ≤ n) (t : OptionType) :
    b.header.sizeAt t ≤ n := by
  induction hrounds using Relation.ReflTransGen.head_induction_on with
  | refl => exact ha t
  | @head a c hstep _ ih =>
    obtain ⟨bs, f, hbytes, -, hf, hchunk⟩ := hstep.exists_chunk
    have hkind : bs.headD 0 = a.kind := by
      rw [OptHead.kind, hbytes, kind_append hchunk.nonempty]
    have hlen := congrArg List.length hbytes
    rw [List.length_append] at hlen
    refine ih (fun t => ?_) (by omega)
    rw [hf, hchunk.sizeAt_eq hkind c.post, hchunk.taken_eq hkind]
    split_ifs
    · exact ha t
    · rw [Function.update_apply]
      split_ifs
      · omega
      · exact ha t

/-- The fixed part of a header is read the same way into any header. -/
theorem readFixed_eq (old old' : TCP) : readFixed old'
    = (fun v => (v.1, { v.2 with options := old'.options })) <$> readFixed old := by
  simp only [readFixed, map_bind, map_pure]

/-- No more than one block is counted that is not written. -/
theorem size_le_length_bytes {h : TCP} (hsack : h.sizeAt .sack ≤ 40) :
    h.size ≤ h.bytes.length + 11 := by
  have hlen := h.length_optionList
  have hmissing : h.missingBlocks ≤ 1 := by
    rw [sizeAt, TcpSAckOpt.size] at hsack
    rw [missingBlocks]
    split_ifs at hsack ⊢ <;> omega
  rw [bytes, List.length_append, List.length_append, length_fixedBytes, size, measureOpts_eq]
  omega

/-- Headers are read the same way into any header. -/
theorem read_sameWire {old g : TCP} {pre post : List UInt8} {s : ReadStream}
    (hread : read old (cursor pre post) = .ok g s) (old' : TCP) :
    (∃ g', read old' (cursor pre post) = .ok g' s ∧ SameWire g' g) ∧ ∀ t, g.sizeAt t ≤ 40 := by
  obtain ⟨⟨dataOffset, h⟩, s', hfixed, hrest⟩ := bind_eq_ok.mp hread
  obtain ⟨bs, rest, rfl, rfl, offset, -, hoffset, -, hmask, -⟩ := takes_fixed old _ _ _ _ hfixed
  have hfixed' : readFixed old' (cursor pre (bs ++ rest))
      = .ok (dataOffset, { h with options := old'.options }) (cursor (pre ++ bs) rest) := by
    rw [readFixed_eq old old']
    show EStateM.map _ _ _ = _
    rw [EStateM.map, hfixed]
  have hs : SameWire { h with options := old'.options } h := .of_fixed rfl hmask
  have hnone : ∀ t, h.sizeAt t = 0 := fun t => by
    replace hmask : h.optMask = {} := hmask
    cases t <;> simp [sizeAt, hmask]
  rw [read, bind_ok hfixed']
  dsimp only at hrest ⊢
  by_cases hfive : dataOffset = 5
  · rw [if_pos hfive] at hrest ⊢
    cases hrest
    exact ⟨⟨_, rfl, hs⟩, fun t => (hnone t).le.trans (Nat.zero_le _)⟩
  · rw [if_neg hfive] at hrest ⊢
    obtain ⟨opts, rest', rfl, rfl, hlen, s', hparse⟩ := takes_readOptions _ _ _ _ _ _ hrest
    rw [← hlen] at hparse
    obtain ⟨g', t', hparse', hsame⟩ := parseOpts_sameWire hs hparse
    rw [hlen] at hparse'
    refine ⟨⟨g', readOptions_ok hlen hparse' _ _, hsame⟩, ?_⟩
    obtain ⟨b, hrounds, -, rfl⟩ := (parseOpts_eq_ok_iff h opts g).mp ⟨s', hparse⟩
    have hmax := offset.toNat_lt
    replace hoffset : dataOffset.toNat = offset.toNat / 16 := hoffset
    exact sizeAt_le_of_rounds hrounds (fun t => (hnone t).le.trans (Nat.zero_le _)) (by
      dsimp only
      omega)

end TCP

end Scion
