/-
What successful readers have read (`bit_stream.hpp`, `addr/`, `hdr/`).

`Reads` says how a reader runs over given bytes. Here the bytes are unknown and the
reader has succeeded: each lemma says which bytes it consumed, so that the layout of
a received buffer follows from its being accepted.

* `takes_byte`, `takes_uint16` and its like — integers and bytes;
* `TakesBits` — the same for bit-granular readers, whose bits are only counted, and
  `TakesField`, which relates them to the value;
* `SCION.takes`, `UDP.takes` — headers.
-/
import Scion.Transport

namespace Scion

open BigEndian Codec

/-- Eight bytes are those of the 64-bit integer they denote. -/
theorem beBytes_uint64 {bs : List UInt8} (h : bs.length = 8) :
    beBytes 8 (UInt64.ofNat (beNat bs)).toNat = bs := by
  have hlt := beNat_lt bs
  rw [h] at hlt
  rw [UInt64.toNat_ofNat', Nat.mod_eq_of_lt (show beNat bs < 2 ^ 64 from hlt), ← h, beBytes_beNat]

namespace ReadStream

theorem FixedRead.takes {α : Type} {r : Reader α} {n : ℕ} {f : List UInt8 → α}
    (h : FixedRead r n f) : Takes cursor r fun bs a => bs.length = n ∧ a = f bs :=
  Reads.takes (fun bs hbs => h.reads bs hbs) h.starves

theorem takes_byte : Takes cursor serializeByte fun bs b => bs = [b] := by
  refine fixedRead_byte.takes.mono ?_
  rintro bs b ⟨hlen, rfl⟩
  obtain ⟨c, rfl⟩ := List.length_eq_one_iff.mp hlen
  rw [ofNat_beNat_singleton]

theorem takes_uint16 : Takes cursor serializeUint16 fun bs v => bs = beBytes 2 v.toNat := by
  refine fixedRead_uint16.takes.mono ?_
  rintro bs v ⟨hlen, rfl⟩
  exact (beBytes_uint16 hlen).symm

theorem takes_uint32 : Takes cursor serializeUint32 fun bs v => bs = beBytes 4 v.toNat := by
  refine fixedRead_uint32.takes.mono ?_
  rintro bs v ⟨hlen, rfl⟩
  exact (beBytes_uint32 hlen).symm

theorem takes_uint64 : Takes cursor serializeUint64 fun bs v => bs = beBytes 8 v.toNat := by
  refine fixedRead_uint64.takes.mono ?_
  rintro bs v ⟨hlen, rfl⟩
  exact (beBytes_uint64 hlen).symm

theorem takes_advanceBytes (n : ℕ) : Takes cursor (advanceBytes n) fun bs _ => bs.length = n :=
  (fixedRead_advanceBytes n).takes.mono fun _ _ h => h.1

/-- Looking ahead does not move. -/
theorem takes_lookahead (n : ℕ) :
    Takes cursor (lookahead (some n)) fun bs a => bs = [] ∧ a.length = n := by
  intro pre post a s h
  rw [lookahead, if_neg (by simp)] at h
  by_cases hshort : (cursor pre post).remaining < n
  · rw [if_pos hshort] at h
    cases h
  · rw [if_neg hshort] at h
    cases h
    rw [remaining_cursor] at hshort
    refine ⟨[], post, rfl, by rw [List.append_nil], rfl, ?_⟩
    rw [next_cursor, List.length_take]
    omega

theorem takes_map {α β : Type} {r : Reader α} {P : List UInt8 → α → Prop} (g : α → β)
    (h : Takes cursor r P) : Takes cursor (g <$> r) fun bs b => ∃ a, P bs a ∧ b = g a :=
  h.bind_pure

/-! ### Bits -/

/-- From any point at bit offset `a`, `r` moves by `n` bits that are there, or fails. -/
def TakesBits {α : Type} (r : Reader α) (a n : ℕ) : Prop :=
  ∀ pre bs k v s, k % 8 = a → k ≤ 8 * bs.length → r (bitCursor pre bs k) = .ok v s →
    k + n ≤ 8 * bs.length ∧ s = bitCursor pre bs (k + n)

theorem ReadsBits.takesBits {α : Type} {r : Reader α} {a n : ℕ} {f : ℕ → α}
    (h : ReadsBits r a n f) : TakesBits r a n := by
  intro pre bs k v s hk hin hrun
  by_cases hroom : k + n ≤ 8 * bs.length
  · rw [(h pre bs k hk hin).1 hroom] at hrun
    cases hrun
    exact ⟨hroom, rfl⟩
  · obtain ⟨e, s', herr⟩ := (h pre bs k hk hin).2 (by omega)
    rw [herr] at hrun
    cases hrun

theorem TakesBits.bind {α β : Type} {x : Reader α} {y : α → Reader β} {a m n : ℕ}
    (hx : TakesBits x a m) (hy : ∀ v, TakesBits (y v) ((a + m) % 8) n) :
    TakesBits (x >>= y) a (m + n) := by
  intro pre bs k v s hk hin hrun
  obtain ⟨u, s', hfirst, hrest⟩ := bind_eq_ok.mp hrun
  obtain ⟨hroom, rfl⟩ := hx pre bs k u s' hk hin hfirst
  rw [← add_assoc]
  exact hy u pre bs (k + m) v s (by omega) hroom hrest

theorem TakesBits.ensure {α : Type} {c : Bool} {e : String} {f : Unit → Reader α} {a n : ℕ}
    (hf : TakesBits (f ()) a n) : TakesBits (Codec.ensure c e >>= f) a n := by
  intro pre bs k v s hk hin hrun
  exact hf pre bs k v s hk hin (ensure_bind_eq_ok.mp hrun).2

theorem TakesBits.takes {α : Type} {r : Reader α} {m : ℕ} (h : TakesBits r 0 (8 * m)) :
    Takes cursor r fun bs _ => bs.length = m := by
  intro pre post v s hrun
  rw [← bitCursor_zero] at hrun
  obtain ⟨hroom, rfl⟩ := h pre post 0 v s rfl (Nat.zero_le _) hrun
  have hlen : (post.take m).length = m := by
    rw [List.length_take]
    omega
  refine ⟨post.take m, post.drop m, (List.take_append_drop ..).symm, ?_, hlen⟩
  have hend := bitCursor_bytes pre (post.take m) (post.drop m) m hlen
  rw [List.take_append_drop] at hend
  rw [zero_add, hend]

/-- From any point at bit offset `a`, `r` moves by `n` bits that are there, or fails, and
`P` relates the number in these bits and the value. -/
def TakesField {α : Type} (r : Reader α) (a n : ℕ) (P : ℕ → α → Prop) : Prop :=
  ∀ pre bs k v s, k % 8 = a → k ≤ 8 * bs.length → r (bitCursor pre bs k) = .ok v s →
    k + n ≤ 8 * bs.length ∧ s = bitCursor pre bs (k + n) ∧ P (bitsAt bs k n) v

theorem ReadsBits.takesField {α : Type} {r : Reader α} {a n : ℕ} {f : ℕ → α}
    (h : ReadsBits r a n f) : TakesField r a n fun d v => d < 2 ^ n ∧ v = f d := by
  intro pre bs k v s hk hin hrun
  by_cases hroom : k + n ≤ 8 * bs.length
  · rw [(h pre bs k hk hin).1 hroom] at hrun
    cases hrun
    exact ⟨hroom, rfl, Nat.mod_lt _ (by positivity), rfl⟩
  · obtain ⟨e, s', herr⟩ := (h pre bs k hk hin).2 (by omega)
    rw [herr] at hrun
    cases hrun

theorem TakesField.mono {α : Type} {r : Reader α} {a n : ℕ} {P Q : ℕ → α → Prop}
    (h : TakesField r a n P) (hPQ : ∀ d v, P d v → Q d v) : TakesField r a n Q := by
  intro pre bs k v s hk hin hrun
  obtain ⟨hroom, hs, hP⟩ := h pre bs k v s hk hin hrun
  exact ⟨hroom, hs, hPQ _ v hP⟩

theorem TakesField.pure {α : Type} (v : α) (a : ℕ) :
    TakesField (Pure.pure v : Reader α) a 0 fun _ w => w = v := by
  intro pre bs k w s _ hin hrun
  cases hrun
  exact ⟨hin, rfl, rfl⟩

/-- Two fields, the first one in the higher bits. -/
theorem TakesField.bind {α β : Type} {x : Reader α} {y : α → Reader β} {a m n : ℕ}
    {P : ℕ → α → Prop} {Q : α → ℕ → β → Prop} (hx : TakesField x a m P)
    (hy : ∀ v, TakesField (y v) ((a + m) % 8) n (Q v)) :
    TakesField (x >>= y) a (m + n) fun d w => ∃ v, P (d / 2 ^ n) v ∧ Q v (d % 2 ^ n) w := by
  intro pre bs k w s hk hin hrun
  obtain ⟨v, s', hfirst, hrest⟩ := bind_eq_ok.mp hrun
  obtain ⟨hroom, rfl, hP⟩ := hx pre bs k v s' hk hin hfirst
  obtain ⟨hroom', hs, hQ⟩ := hy v pre bs (k + m) w s (by omega) hroom hrest
  rw [← add_assoc]
  refine ⟨hroom', hs, v, ?_, ?_⟩
  · rwa [bitsAt_div bs k m n hroom']
  · rwa [bitsAt_mod bs k m n hroom']

theorem TakesField.ensure {α : Type} {c : Bool} {e : String} {f : Unit → Reader α} {a n : ℕ}
    {P : ℕ → α → Prop} (hf : TakesField (f ()) a n P) :
    TakesField (Codec.ensure c e >>= f) a n fun d v => c = true ∧ P d v := by
  intro pre bs k v s hk hin hrun
  obtain ⟨hc, hrest⟩ := ensure_bind_eq_ok.mp hrun
  obtain ⟨hroom, hs, hP⟩ := hf pre bs k v s hk hin hrest
  exact ⟨hroom, hs, hc, hP⟩

/-- Whole bytes are the numeral of the number in them. -/
theorem TakesField.takes {α : Type} {r : Reader α} {m : ℕ} {P : ℕ → α → Prop}
    (h : TakesField r 0 (8 * m) P) :
    Takes cursor r fun bs v => ∃ d, bs = beBytes m d ∧ P d v := by
  intro pre post v s hrun
  rw [← bitCursor_zero] at hrun
  obtain ⟨hroom, rfl, hP⟩ := h pre post 0 v s rfl (Nat.zero_le _) hrun
  have hlen : (post.take m).length = m := by
    rw [List.length_take]
    omega
  have hend := bitCursor_bytes pre (post.take m) (post.drop m) m hlen
  have hnum := bitsAt_bytes (post.take m) (post.drop m) m hlen
  have hself := beBytes_beNat (post.take m)
  rw [List.take_append_drop] at hend hnum
  rw [hlen] at hself
  rw [hnum] at hP
  rw [zero_add, hend]
  exact ⟨post.take m, post.drop m, (List.take_append_drop ..).symm, rfl, _, hself.symm, hP⟩

end ReadStream

open ReadStream

/-! ### Addresses -/

theorem IsdAsn.takes : Takes cursor IsdAsn.read fun bs a => bs = a.bytes := by
  refine (takes_uint64.bind_pure (g := IsdAsn.mk)).mono ?_
  rintro bs a ⟨v, rfl, rfl⟩
  rfl

/-- No zone is read. -/
theorem IPAddress.takes (v4 : Bool) :
    Takes cursor (IPAddress.read v4) fun bs ip => bs = ip.bytes ∧ ip.withoutZone = ip := by
  cases v4 with
  | true =>
    refine (takes_uint32.bind_pure (g := IPAddress.v4)).mono ?_
    rintro bs ip ⟨v, rfl, rfl⟩
    exact ⟨rfl, rfl⟩
  | false =>
    refine (takes_uint64.bind fun hi =>
      takes_uint64.bind_pure (g := fun lo => IPAddress.v6 hi lo "")).mono ?_
    rintro bs ip ⟨xs, hi, ys, rfl, rfl, lo, rfl, rfl⟩
    exact ⟨rfl, rfl⟩

theorem IPAddress.takes_v4 :
    Takes cursor (IPAddress.read true) fun bs ip => bs = ip.bytes ∧ ip.is4 = true := by
  refine (takes_uint32.bind_pure (g := IPAddress.v4)).mono ?_
  rintro bs ip ⟨v, rfl, rfl⟩
  exact ⟨rfl, rfl⟩

theorem IPAddress.takes_v6 :
    Takes cursor (IPAddress.read false) fun bs ip => bs = ip.bytes ∧ ip.is4 = false := by
  refine (takes_uint64.bind fun hi =>
    takes_uint64.bind_pure (g := fun lo => IPAddress.v6 hi lo "")).mono ?_
  rintro bs ip ⟨xs, hi, ys, rfl, rfl, lo, rfl, rfl⟩
  exact ⟨rfl, rfl⟩

/-! ### The SCION header -/

namespace SCION

theorem takes_version : Takes cursor readVersion fun bs _ => bs.length = 4 := by
  have hver := ((readsBits_serializeBits 8 0 4 (by norm_num) (by norm_num)).map
    UInt64.toUInt8).takesBits
  have hqos := (readsBits_byte 4 (by norm_num)).takesBits
  have hfl := ((readsBits_serializeBits 32 4 20 (by norm_num) (by norm_num)).map
    UInt64.toUInt32).takesBits
  exact TakesBits.takes (m := 4) (hver.bind fun ver => TakesBits.ensure (n := 28)
    (hqos.bind fun qos => hfl.bind fun fl => (ReadsBits.pure (qos, fl) 0).takesBits))

theorem takes_hostTypes : Takes cursor readHostTypes fun bs _ => bs.length = 1 := by
  have hfield : ∀ a, TakesBits (UInt64.toUInt8 <$> serializeBits 8 4) a 4 := fun a =>
    ((readsBits_serializeBits 8 a 4 (by norm_num) (by norm_num)).map UInt64.toUInt8).takesBits
  exact TakesBits.takes (m := 1) ((hfield 0).bind fun dstType => (hfield 4).bind fun srcType =>
    (ReadsBits.pure (dstType, srcType) 0).takesBits)

/-- The addresses in the order of the address header. -/
def addressBytes (h : SCION) : List UInt8 :=
  h.dst.isdAsn.bytes ++ (h.src.isdAsn.bytes ++ (h.dst.host.bytes ++ h.src.host.bytes))

/-- An accepted header is a common header of 12 bytes and the addresses. -/
theorem takes : Takes cursor read fun bs h =>
    ∃ common, common.length = 12 ∧ bs = common ++ h.addressBytes ∧
      h.dst.host.withoutZone = h.dst.host ∧ h.src.host.withoutZone = h.src.host := by
  refine (takes_version.bind fun _ => takes_byte.bind fun nh => takes_byte.bind fun hlen =>
    Takes.ensure (takes_uint16.bind fun plen => takes_byte.bind fun ptype =>
      takes_hostTypes.bind fun types => Takes.ensure (Takes.ensure
        ((takes_advanceBytes 2).bind fun _ => IsdAsn.takes.bind fun dstIA =>
          IsdAsn.takes.bind fun srcIA => (IPAddress.takes _).bind fun dstHost =>
            (IPAddress.takes _).bind_pure (g := fun srcHost => _))))).mono ?_
  rintro bs h ⟨b₁, v, r₁, rfl, h₁, b₂, nh, r₂, rfl, rfl, b₃, hlen, r₃, rfl, rfl, -, hrest⟩
  obtain ⟨b₄, plen, r₄, rfl, rfl, b₅, ptype, r₅, rfl, rfl, b₆, types, r₆, rfl, h₆, -, -,
    hrest⟩ := hrest
  obtain ⟨b₇, u, r₇, rfl, h₇, b₈, dstIA, r₈, rfl, rfl, b₉, srcIA, r₉, rfl, rfl, hrest⟩ := hrest
  obtain ⟨b₁₀, dstHost, r₁₀, rfl, ⟨rfl, hdst⟩, srcHost, ⟨rfl, hsrc⟩, rfl⟩ := hrest
  refine ⟨b₁ ++ ([nh] ++ ([hlen] ++ (beBytes 2 plen.toNat ++ ([ptype] ++ (b₆ ++ b₇))))), ?_, ?_,
    hdst, hsrc⟩
  · simp [h₁, h₆, h₇]
  · simp [addressBytes]

end SCION

/-! ### Options and transport headers -/

theorem OptsHeader.takes : Takes cursor OptsHeader.read fun bs hdr => bs = hdr.bytes := by
  refine (takes_byte.bind fun nh => takes_byte.bind_pure (g := OptsHeader.mk nh)).mono ?_
  rintro bs hdr ⟨xs, nh, ys, rfl, rfl, extLen, rfl, rfl⟩
  rfl

/-- An option of any type: Pad1, or a type, a length and that many bytes. -/
theorem SciOpt.takes : Takes cursor SciOpt.read fun bs opt =>
    opt.type = OptType.pad1 ∧ bs = [OptType.pad1] ∨
      opt.type ≠ OptType.pad1 ∧ ∃ data : List UInt8, data.length = opt.dataLen.toNat ∧
        bs = [opt.type] ++ ([opt.dataLen] ++ data) := by
  refine (takes_byte.bind (Q := fun type bs opt => opt.type = type ∧
    (type = OptType.pad1 ∧ bs = [] ∨ type ≠ OptType.pad1 ∧ ∃ data : List UInt8,
      data.length = opt.dataLen.toNat ∧ bs = [opt.dataLen] ++ data)) fun type => ?_).mono ?_
  · by_cases htype : type = OptType.pad1
    · rw [if_neg (not_not.mpr htype)]
      refine (Takes.pure _).mono ?_
      rintro bs opt ⟨rfl, rfl⟩
      exact ⟨rfl, .inl ⟨htype, rfl⟩⟩
    · rw [if_pos htype]
      refine (takes_byte.bind fun dataLen => (takes_advanceBytes dataLen.toNat).bind_pure
        (g := fun _ => (⟨type, dataLen⟩ : SciOpt))).mono ?_
      rintro _ opt ⟨_, dataLen, data, rfl, rfl, _, hdata, rfl⟩
      exact ⟨rfl, .inr ⟨htype, data, hdata, rfl⟩⟩
  · rintro _ opt ⟨_, type, bs, rfl, rfl, rfl, ⟨htype, rfl⟩ | ⟨htype, data, hdata, rfl⟩⟩
    · exact .inl ⟨htype, by rw [htype, List.append_nil]⟩
    · exact .inr ⟨htype, data, hdata, rfl⟩

theorem UDP.takes : Takes cursor UDP.read fun bs h => bs = h.bytes := by
  refine (takes_uint16.bind fun sport => takes_uint16.bind fun dport => takes_uint16.bind fun len =>
    takes_uint16.bind_pure (g := UDP.mk sport dport len)).mono ?_
  rintro bs h ⟨b₁, sport, r₁, rfl, rfl, b₂, dport, r₂, rfl, rfl, b₃, len, r₃, rfl, rfl, chksum, rfl,
    rfl⟩
  rfl

end Scion
