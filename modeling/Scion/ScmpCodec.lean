/-
The SCMP codec (`hdr/scmp.hpp`) in both directions.

* `ScmpMessage.keptBody`, `SCMP.kept` — the bytes of a message that its fields hold, by
  the type of the message;
* `SCMP.takes` — an accepted header is encoded to the bytes read, but for the others;
* `SCMP.codec` — messages other than unknown errors are written and read back, and what
  is read is written again up to the bytes not kept.
-/
import Scion.Decoding

namespace Scion

open BigEndian Codec ReadStream

/-! ### Bytes that are kept -/

/-- The bytes whose flag is set, the others zeroed. -/
def keep (flags : List Bool) (bs : List UInt8) : List UInt8 :=
  List.zipWith (fun flag b => if flag then b else 0) flags bs

theorem keep_append {flags₁ flags₂ : List Bool} {bs₁ bs₂ : List UInt8}
    (h : flags₁.length = bs₁.length) :
    keep (flags₁ ++ flags₂) (bs₁ ++ bs₂) = keep flags₁ bs₁ ++ keep flags₂ bs₂ :=
  List.zipWith_append h

theorem keep_true {bs : List UInt8} {n : ℕ} (h : bs.length = n) :
    keep (List.replicate n true) bs = bs := by
  subst h
  induction bs with
  | nil => rfl
  | cons b bs ih =>
    rw [List.length_cons, List.replicate_succ, keep, List.zipWith_cons_cons, if_pos rfl]
    exact congrArg (b :: ·) ih

theorem keep_false {bs : List UInt8} {n : ℕ} (h : bs.length = n) :
    keep (List.replicate n false) bs = List.replicate n 0 := by
  subst h
  induction bs with
  | nil => rfl
  | cons b bs ih =>
    rw [List.length_cons, List.replicate_succ, List.replicate_succ, keep, List.zipWith_cons_cons,
      if_neg Bool.false_ne_true]
    exact congrArg (0 :: ·) ih

/-- The types of the messages other than unknown errors. -/
def ScmpType.known : List ScmpType :=
  [dstUnreach, packetTooBig, paramProblem, extIfDown, intConnDown, echoRequest, echoReply,
    traceRequest, traceReply]

namespace ScmpMessage

/-- Whether messages of the type have a code. Those that do not are written with
code 0. -/
def hasCode (type : ScmpType) : Bool :=
  type ∉ [ScmpType.packetTooBig, ScmpType.extIfDown, ScmpType.intConnDown, ScmpType.echoRequest,
    ScmpType.echoReply, ScmpType.traceRequest, ScmpType.traceReply]

/-- The bytes behind type, code and checksum that are not reserved. -/
def keptBody (type : ScmpType) : List Bool :=
  if type = ScmpType.dstUnreach then List.replicate 4 false
  else if type = ScmpType.packetTooBig then List.replicate 2 false ++ List.replicate 2 true
  else if type = ScmpType.paramProblem then List.replicate 2 false ++ List.replicate 2 true
  else if type = ScmpType.extIfDown then List.replicate 16 true
  else if type = ScmpType.intConnDown then List.replicate 24 true
  else if type = ScmpType.echoRequest then List.replicate 4 true
  else if type = ScmpType.echoReply then List.replicate 4 true
  else if type = ScmpType.traceRequest then List.replicate 4 true ++ List.replicate 16 false
  else if type = ScmpType.traceReply then List.replicate 20 true
  else []

/-- An accepted message holds type and code, and the bytes behind them that are kept. -/
structure Holds (type : ScmpType) (code : UInt8) (bs : List UInt8) (msg : ScmpMessage) :
    Prop where
  sameType : msg.type = type
  sameCode : msg.code = if hasCode type then code else 0
  size : bs.length = msg.size
  flags : (keptBody type).length = bs.length
  body : msg.bytes = keep (keptBody type) bs
  other : msg.isKnown = false → type ∉ ScmpType.known ∧ type < 128

/-- A reserved 16-bit field and a number. -/
theorem takes_reserved (g : UInt16 → ScmpMessage) :
    Takes cursor (advanceBytes 2 >>= fun _ => serializeUint16 >>= fun v => Pure.pure (g v))
      fun bs msg => ∃ reserved v, reserved.length = 2 ∧ bs = reserved ++ beBytes 2 v.toNat ∧
        msg = g v := by
  refine ((takes_advanceBytes 2).bind fun _ => takes_uint16.bind_pure (g := g)).mono ?_
  rintro bs msg ⟨reserved, _, ys, rfl, hlen, v, rfl, rfl⟩
  exact ⟨reserved, v, hlen, rfl, rfl⟩

theorem keep_reserved {reserved : List UInt8} (h : reserved.length = 2) (v : ℕ) :
    keep (List.replicate 2 false ++ List.replicate 2 true) (reserved ++ beBytes 2 v)
      = List.replicate 2 0 ++ beBytes 2 v := by
  rw [keep_append (by rw [List.length_replicate, h]), keep_false h,
    keep_true (length_beBytes 2 v)]

/-- Two 16-bit numbers. -/
theorem takes_pair (g : UInt16 → UInt16 → ScmpMessage) :
    Takes cursor (serializeUint16 >>= fun id => serializeUint16 >>= fun seq => Pure.pure (g id seq))
      fun bs msg => ∃ id seq, bs = beBytes 2 id.toNat ++ beBytes 2 seq.toNat ∧ msg = g id seq := by
  refine (takes_uint16.bind fun id => takes_uint16.bind_pure (g := g id)).mono ?_
  rintro bs msg ⟨xs, id, ys, rfl, rfl, seq, rfl, rfl⟩
  exact ⟨id, seq, rfl, rfl⟩

theorem takes_interface : Takes cursor AsInterface.read fun bs iface => bs = iface.bytes := by
  refine (takes_uint64.bind_pure (g := AsInterface.mk)).mono ?_
  rintro bs iface ⟨v, rfl, rfl⟩
  rfl

theorem takes_dstUnreach (code : UInt8) :
    Takes cursor (read ScmpType.dstUnreach code) (Holds ScmpType.dstUnreach code) := by
  refine ((takes_advanceBytes 4).bind_pure (g := fun _ => dstUnreach code)).mono ?_
  rintro bs msg ⟨_, hlen, rfl⟩
  exact ⟨rfl, rfl, hlen, hlen.symm, (keep_false hlen).symm, fun h => by cases h⟩

theorem takes_packetTooBig (code : UInt8) :
    Takes cursor (read ScmpType.packetTooBig code) (Holds ScmpType.packetTooBig code) := by
  refine (takes_reserved packetTooBig).mono ?_
  rintro bs msg ⟨reserved, mtu, hlen, rfl, rfl⟩
  have hsize : (reserved ++ beBytes 2 mtu.toNat).length = 4 := by simp [hlen]
  exact ⟨rfl, rfl, hsize, hsize.symm, (keep_reserved hlen _).symm, fun h => by cases h⟩

theorem takes_paramProblem (code : UInt8) :
    Takes cursor (read ScmpType.paramProblem code) (Holds ScmpType.paramProblem code) := by
  refine (takes_reserved (paramProblem code)).mono ?_
  rintro bs msg ⟨reserved, pointer, hlen, rfl, rfl⟩
  have hsize : (reserved ++ beBytes 2 pointer.toNat).length = 4 := by simp [hlen]
  exact ⟨rfl, rfl, hsize, hsize.symm, (keep_reserved hlen _).symm, fun h => by cases h⟩

theorem takes_extIfDown (code : UInt8) :
    Takes cursor (read ScmpType.extIfDown code) (Holds ScmpType.extIfDown code) := by
  refine (IsdAsn.takes.bind fun sender => takes_interface.bind_pure (g := extIfDown sender)).mono ?_
  rintro bs msg ⟨xs, sender, ys, rfl, rfl, iface, rfl, rfl⟩
  have hsize : (sender.bytes ++ iface.bytes).length = 16 := by simp
  exact ⟨rfl, rfl, hsize, hsize.symm, (keep_true hsize).symm, fun h => by cases h⟩

theorem takes_intConnDown (code : UInt8) :
    Takes cursor (read ScmpType.intConnDown code) (Holds ScmpType.intConnDown code) := by
  refine (IsdAsn.takes.bind fun sender => takes_interface.bind fun ingress =>
    takes_interface.bind_pure (g := intConnDown sender ingress)).mono ?_
  rintro bs msg ⟨xs, sender, ys, rfl, rfl, zs, ingress, us, rfl, rfl, egress, rfl, rfl⟩
  have hsize : (sender.bytes ++ (ingress.bytes ++ egress.bytes)).length = 24 := by simp
  exact ⟨rfl, rfl, hsize, hsize.symm, (keep_true hsize).symm, fun h => by cases h⟩

theorem takes_echoRequest (code : UInt8) :
    Takes cursor (read ScmpType.echoRequest code) (Holds ScmpType.echoRequest code) := by
  refine (takes_pair echoRequest).mono ?_
  rintro bs msg ⟨id, seq, rfl, rfl⟩
  have hsize : (beBytes 2 id.toNat ++ beBytes 2 seq.toNat).length = 4 := by simp
  exact ⟨rfl, rfl, hsize, hsize.symm, (keep_true hsize).symm, fun h => by cases h⟩

theorem takes_echoReply (code : UInt8) :
    Takes cursor (read ScmpType.echoReply code) (Holds ScmpType.echoReply code) := by
  refine (takes_pair echoReply).mono ?_
  rintro bs msg ⟨id, seq, rfl, rfl⟩
  have hsize : (beBytes 2 id.toNat ++ beBytes 2 seq.toNat).length = 4 := by simp
  exact ⟨rfl, rfl, hsize, hsize.symm, (keep_true hsize).symm, fun h => by cases h⟩

theorem takes_traceRequest (code : UInt8) :
    Takes cursor (read ScmpType.traceRequest code) (Holds ScmpType.traceRequest code) := by
  refine (takes_uint16.bind fun id => takes_uint16.bind fun seq =>
    (takes_advanceBytes 16).bind_pure (g := fun _ => traceRequest id seq)).mono ?_
  rintro bs msg ⟨xs, id, ys, rfl, rfl, zs, seq, reserved, rfl, rfl, _, hlen, rfl⟩
  have hpair : (beBytes 2 id.toNat ++ beBytes 2 seq.toNat).length = 4 := by simp
  have hsize : (beBytes 2 id.toNat ++ (beBytes 2 seq.toNat ++ reserved)).length = 20 := by
    simp [hlen]
  refine ⟨rfl, rfl, hsize, hsize.symm, ?_, fun h => by cases h⟩
  have hkeep : keep (List.replicate 4 true ++ List.replicate 16 false)
      ((beBytes 2 id.toNat ++ beBytes 2 seq.toNat) ++ reserved)
        = (beBytes 2 id.toNat ++ beBytes 2 seq.toNat) ++ List.replicate 16 0 := by
    rw [keep_append (by rw [List.length_replicate, hpair]), keep_true hpair, keep_false hlen]
  rw [List.append_assoc, List.append_assoc] at hkeep
  exact hkeep.symm

theorem takes_traceReply (code : UInt8) :
    Takes cursor (read ScmpType.traceReply code) (Holds ScmpType.traceReply code) := by
  refine (takes_uint16.bind fun id => takes_uint16.bind fun seq => IsdAsn.takes.bind fun sender =>
    takes_interface.bind_pure (g := traceReply id seq sender)).mono ?_
  rintro bs msg ⟨xs, id, ys, rfl, rfl, zs, seq, us, rfl, rfl, vs, sender, ws, rfl, rfl, iface, rfl,
    rfl⟩
  have hsize : (beBytes 2 id.toNat ++ (beBytes 2 seq.toNat ++ (sender.bytes ++ iface.bytes))).length
      = 20 := by simp
  exact ⟨rfl, rfl, hsize, hsize.symm, (keep_true hsize).symm, fun h => by cases h⟩

/-- Every other type is that of an unknown error, or rejected. -/
theorem takes_other {type : ScmpType} (h : type ∉ ScmpType.known) (code : UInt8) :
    Takes cursor (read type code) (Holds type code) := by
  have hne : ∀ t ∈ ScmpType.known, type ≠ t := by
    rintro t ht rfl
    exact h ht
  have hcode : hasCode type = true := by
    have hsubset : [ScmpType.packetTooBig, ScmpType.extIfDown, ScmpType.intConnDown,
        ScmpType.echoRequest, ScmpType.echoReply, ScmpType.traceRequest, ScmpType.traceReply]
        ⊆ ScmpType.known := by decide
    rw [hasCode, decide_eq_true_eq]
    exact fun hmem => h (hsubset hmem)
  have hbody : keptBody type = [] := by
    rw [keptBody, if_neg (hne _ (by decide)), if_neg (hne _ (by decide)),
      if_neg (hne _ (by decide)), if_neg (hne _ (by decide)), if_neg (hne _ (by decide)),
      if_neg (hne _ (by decide)), if_neg (hne _ (by decide)), if_neg (hne _ (by decide)),
      if_neg (hne _ (by decide))]
  rw [read, if_neg (hne _ (by decide)), if_neg (hne _ (by decide)), if_neg (hne _ (by decide)),
    if_neg (hne _ (by decide)), if_neg (hne _ (by decide)), if_neg (hne _ (by decide)),
    if_neg (hne _ (by decide)), if_neg (hne _ (by decide)), if_neg (hne _ (by decide))]
  by_cases herror : type < 128
  · rw [if_pos herror]
    refine (Takes.pure _).mono ?_
    rintro bs msg ⟨rfl, rfl⟩
    exact ⟨rfl, by rw [hcode]; rfl, rfl, by rw [hbody]; rfl, by rw [hbody]; rfl,
      fun _ => ⟨h, herror⟩⟩
  · rw [if_neg herror]
    exact Takes.throw _ _

theorem takes (type : ScmpType) (code : UInt8) :
    Takes cursor (read type code) (Holds type code) := by
  by_cases hknown : type ∈ ScmpType.known
  swap
  · exact takes_other hknown code
  simp only [ScmpType.known, List.mem_cons, List.not_mem_nil, or_false] at hknown
  rcases hknown with rfl | rfl | rfl | rfl | rfl | rfl | rfl | rfl | rfl
  · exact takes_dstUnreach code
  · exact takes_packetTooBig code
  · exact takes_paramProblem code
  · exact takes_extIfDown code
  · exact takes_intConnDown code
  · exact takes_echoRequest code
  · exact takes_echoReply code
  · exact takes_traceRequest code
  · exact takes_traceReply code

end ScmpMessage

/-! ### Headers -/

namespace SCMP

/-- The bytes of a header that its fields hold, by the type of its message. -/
def kept (type : ScmpType) : List Bool :=
  [true, ScmpMessage.hasCode type, true, true] ++ ScmpMessage.keptBody type

/-- An accepted header is encoded to the bytes that are kept. -/
structure Holds (bs : List UInt8) (h : SCMP) : Prop where
  size : bs.length = h.size
  flags : (kept h.msg.type).length = bs.length
  bytes : h.bytes = keep (kept h.msg.type) bs
  other : h.msg.isKnown = false → h.msg.type ∉ ScmpType.known ∧ h.msg.type < 128

theorem takes : Takes cursor read Holds := by
  refine (takes_byte.bind fun type => takes_byte.bind fun code => takes_uint16.bind fun chksum =>
    (ScmpMessage.takes type code).bind_pure (g := SCMP.mk chksum)).mono ?_
  rintro bs h ⟨b₁, type, r₁, rfl, rfl, b₂, code, r₂, rfl, rfl, b₃, chksum, body, rfl, rfl, msg, hmsg,
    rfl⟩
  have hhead : ([type] ++ ([code] ++ beBytes 2 chksum.toNat)).length = 4 := by simp
  have hkeep : keep [true, ScmpMessage.hasCode type, true, true]
      ([type] ++ ([code] ++ beBytes 2 chksum.toNat))
        = [type] ++ ([msg.code] ++ beBytes 2 chksum.toNat) := by
    rw [hmsg.sameCode]
    simp [keep, beBytes]
  have hassoc : ∀ c : UInt8, [type] ++ ([c] ++ (beBytes 2 chksum.toNat ++ body))
      = ([type] ++ ([c] ++ beBytes 2 chksum.toNat)) ++ body := by simp
  refine ⟨?_, ?_, ?_, by rw [hmsg.sameType]; exact hmsg.other⟩
  · rw [hassoc, List.length_append, hhead, hmsg.size, size]
  · show (kept msg.type).length = _
    rw [kept, List.length_append, hmsg.sameType, hmsg.flags, hassoc, List.length_append, hhead]
    rfl
  · show bytes ⟨chksum, msg⟩ = keep (kept msg.type) _
    rw [bytes, hmsg.sameType, hmsg.body, kept, hassoc, keep_append (by simp), hkeep]
    simp

/-- On a byte boundary a header other than that of an unknown error is written, if there
is room, with exactly its size, and read back; and what is read is of the size of its
header, which is written as the bytes that are kept. That of an unknown error is never
written. -/
theorem codec (h : SCMP) :
    (h.msg.isKnown = true → ∀ pre post, h.size ≤ post.length →
      ∃ bs, bs.length = h.size ∧ h.write (WriteStream.cursor pre post)
          = .ok () (WriteStream.cursor (pre ++ bs) (post.drop h.size)) ∧
        ∀ pre' post', read (cursor pre' (bs ++ post')) = .ok h (cursor (pre' ++ bs) post')) ∧
    (h.msg.isKnown = false → ∀ ws s, h.write ws ≠ .ok () s) ∧
    ∀ pre post s, read (cursor pre post) = .ok h s →
      ∃ bs rest, post = bs ++ rest ∧ s = cursor (pre ++ bs) rest ∧ bs.length = h.size ∧
        (kept h.msg.type).length = h.size ∧
        (h.msg.isKnown = true → Writes WriteStream.cursor h.write (keep (kept h.msg.type) bs)) ∧
        (h.msg.isKnown = false → h.msg.type ∉ ScmpType.known ∧ h.msg.type < 128) := by
  refine ⟨fun hknown pre post hroom => ?_, fun hunknown ws s hwrite => ?_,
    fun pre post s hread => ?_⟩
  · have hwrite := (writes hknown pre post).1 (by rwa [length_bytes])
    rw [length_bytes] at hwrite
    exact ⟨h.bytes, length_bytes h, hwrite, reads hknown⟩
  · have hknown := L4Header.isKnown_of_write_eq_ok (h := .scmp h) hwrite
    rw [L4Header.isKnown, hunknown] at hknown
    cases hknown
  · obtain ⟨bs, rest, hpost, hs, hholds⟩ := takes pre post h s hread
    refine ⟨bs, rest, hpost, hs, hholds.size, hholds.flags.trans hholds.size, fun hknown => ?_,
      hholds.other⟩
    rw [← hholds.bytes]
    exact writes hknown

/-- An echo request of eight bytes. -/
theorem codec_echoRequest : ∃ bs, bs.length = 8 ∧
    (SCMP.mk 0 (.echoRequest 1 2)).write (WriteStream.cursor [] (List.replicate 8 0))
      = .ok () (WriteStream.cursor ([] ++ bs) ((List.replicate 8 0).drop 8)) ∧
    ∀ pre' post', read (cursor pre' (bs ++ post'))
      = .ok (SCMP.mk 0 (.echoRequest 1 2)) (cursor (pre' ++ bs) post') :=
  (codec (SCMP.mk 0 (.echoRequest 1 2))).1 rfl [] (List.replicate 8 0) (by decide)

/-- An unknown error is not written. -/
theorem not_forall_written :
    ¬ ∀ (h : SCMP) (pre post : List UInt8), h.size ≤ post.length →
      ∃ s, h.write (WriteStream.cursor pre post) = .ok () s := by
  intro h
  obtain ⟨s, hwrite⟩ := h ⟨0, .unknownError 100 0⟩ [] [0, 0, 0, 0] (by decide)
  have hknown := L4Header.isKnown_of_write_eq_ok (h := .scmp ⟨0, .unknownError 100 0⟩) hwrite
  cases hknown

end SCMP

end Scion
