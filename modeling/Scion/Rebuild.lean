/-
Building headers again (`socket/header_cache.hpp`).

`HeaderCache::build` adds up the checksum field of the caller's header as it finds it,
and writes its result there. What an earlier build left in the field changes the checksum
of a later one.

* `cutFold_add_eq_iff` — which digits change the cut fold of a sum;
* `build_chksum_iff` — two values of the field on entry give the same bytes exactly if they
  are the same, or zero and `0xffff` on a sum whose low half is not zero.
-/
import Scion.SentChecksum

namespace OnesComplement

/-- The fold of a sum that wraps, cut to a digit. -/
theorem cutFold_eq (b s : ℕ) : fold b (s % (b * b)) % b = (s / b + s % b) % b := by
  rw [fold, Nat.mod_mul_right_div_self, Nat.mod_mul_right_mod, Nat.add_mod, Nat.mod_mod,
    ← Nat.add_mod]

theorem add_mod_eq_self_iff {b n k : ℕ} : (n + k) % b = n % b ↔ k % b = 0 := by
  constructor
  · intro h
    have hcancel : k ≡ 0 [MOD b] := Nat.ModEq.add_left_cancel' n h
    exact Eq.trans hcancel (Nat.zero_mod b)
  · intro h
    rw [Nat.add_mod, h, Nat.add_zero, Nat.mod_mod]

/-- A digit more changes the cut fold of a sum, unless it is zero, or it is the largest one
and there is a carry. -/
theorem cutFold_add_eq_iff {b s c : ℕ} (hc : c < b) :
    fold b ((s + c) % (b * b)) % b = fold b (s % (b * b)) % b ↔
      c = 0 ∨ c + 1 = b ∧ s % b ≠ 0 := by
  have hb : 0 < b := by omega
  have hlow : s % b < b := Nat.mod_lt s hb
  rw [cutFold_eq, cutFold_eq]
  rcases Nat.lt_or_ge (s % b + c) b with hfit | hcarry
  · have hdiv : (s + c) / b = s / b := by
      rw [Nat.add_div hb, if_neg (by rw [Nat.mod_eq_of_lt hc]; omega), Nat.div_eq_of_lt hc]
      rfl
    have hmod : (s + c) % b = s % b + c := by
      rw [Nat.add_mod, Nat.mod_eq_of_lt hc, Nat.mod_eq_of_lt hfit]
    rw [hdiv, hmod, ← Nat.add_assoc, add_mod_eq_self_iff, Nat.mod_eq_of_lt hc]
    omega
  · -- the carry makes up for the largest digit
    have hdiv : (s + c) / b = s / b + 1 := by
      rw [Nat.add_div hb, if_pos (by rw [Nat.mod_eq_of_lt hc]; omega), Nat.div_eq_of_lt hc]
    have hmod : (s + c) % b + b = s % b + c := by
      rw [Nat.add_mod, Nat.mod_eq_of_lt hc, Nat.mod_eq_sub_mod hcarry, Nat.mod_eq_of_lt (by omega)]
      omega
    have hsum : (s / b + 1 + (s + c) % b) % b = (s / b + s % b + (c + 1)) % b := by
      rw [← Nat.add_mod_right (s / b + 1 + (s + c) % b)]
      congr 1
      omega
    rw [hdiv, hsum, add_mod_eq_self_iff]
    constructor
    · intro hzero
      have hle : b ≤ c + 1 := Nat.le_of_dvd (by omega) (Nat.dvd_of_mod_eq_zero hzero)
      omega
    · rintro (hzero | ⟨hmax, -⟩)
      · omega
      · rw [hmax, Nat.mod_self]

end OnesComplement

namespace Scion

open BigEndian Codec OnesComplement HeaderCache

theorem internetChecksum_eq_iff (buffer : List UInt8) (a b : UInt32) :
    internetChecksum buffer a = internetChecksum buffer b ↔
      fold 65536 ((a.toNat + wordSum buffer) % 2 ^ 32) % 65536
        = fold 65536 ((b.toNat + wordSum buffer) % 2 ^ 32) % 65536 := by
  rw [← toNat_onesComplementChecksumScalar, ← toNat_onesComplementChecksumScalar,
    UInt16.toNat_inj, internetChecksum, internetChecksum, UInt16.not_inj]
  rfl

/-- The values of the field on entry that add up to the same checksum. -/
def SameEntry (sum : ℕ) (c d : UInt16) : Prop :=
  c = d ∨ (c = 0 ∧ d = 0xffff ∨ c = 0xffff ∧ d = 0) ∧ sum % 2 ^ 16 ≠ 0

theorem SameEntry.symm {sum : ℕ} {c d : UInt16} (h : SameEntry sum c d) : SameEntry sum d c := by
  rcases h with rfl | ⟨hends, hsum⟩
  · exact Or.inl rfl
  · exact Or.inr ⟨hends.symm.imp And.symm And.symm, hsum⟩

theorem cutFold_entry_of_le {sum : ℕ} {c d : UInt16} (h : c.toNat ≤ d.toNat) :
    fold 65536 ((sum + c.toNat) % 2 ^ 32) % 65536 = fold 65536 ((sum + d.toNat) % 2 ^ 32) % 65536 ↔
      SameEntry sum c d := by
  have hc := c.toNat_lt
  have hd := d.toNat_lt
  have hstep : sum + d.toNat = sum + c.toNat + (d.toNat - c.toNat) := by omega
  rw [eq_comm, hstep, show (2 : ℕ) ^ 32 = 65536 * 65536 from rfl,
    cutFold_add_eq_iff (show d.toNat - c.toNat < 65536 by omega), SameEntry,
    ← UInt16.toNat_inj, ← UInt16.toNat_inj, ← UInt16.toNat_inj, ← UInt16.toNat_inj,
    ← UInt16.toNat_inj, show (0 : UInt16).toNat = 0 from rfl,
    show (0xffff : UInt16).toNat = 65535 from rfl]
  constructor
  · rintro (hzero | ⟨hmax, hlow⟩)
    · exact Or.inl (by omega)
    · have hc0 : c.toNat = 0 := by omega
      rw [hc0, Nat.add_zero] at hlow
      exact Or.inr ⟨Or.inl ⟨hc0, by omega⟩, hlow⟩
  · rintro (heq | ⟨⟨hc0, hd1⟩ | ⟨hc1, hd0⟩, hlow⟩)
    · exact Or.inl (by omega)
    · refine Or.inr ⟨by omega, ?_⟩
      rwa [hc0, Nat.add_zero]
    · omega

theorem cutFold_entry_iff {sum : ℕ} (c d : UInt16) :
    fold 65536 ((sum + c.toNat) % 2 ^ 32) % 65536 = fold 65536 ((sum + d.toNat) % 2 ^ 32) % 65536 ↔
      SameEntry sum c d := by
  rcases Nat.le_total c.toNat d.toNat with h | h
  · exact cutFold_entry_of_le h
  · rw [eq_comm, cutFold_entry_of_le h]
    exact ⟨SameEntry.symm, SameEntry.symm⟩

section

variable {S : Type} [ExtensionClass S]
  {hash : ScIPAddress → UInt64} {murmur32 : List UInt8 → UInt32 → UInt32}
  {cache cache' : HeaderCache} {tc : UInt8} {dst src : ScIPEndpoint} {path : PathView}
  {exts : List (Extension S)} {l4 : L4Header} {payload : List UInt8} {hbh e2e : List (List UInt8)}

@[simp] theorem prepareL4_withChksum (c : UInt16) :
    prepareL4 dst src (l4.withChksum c) payload = (prepareL4 dst src l4 payload).withChksum c := by
  cases l4 <;> rfl

/-- The SCION header does not depend on the checksum. -/
@[simp] theorem sentHeader_withChksum (c : UInt16) :
    sentHeader hash murmur32 tc dst src path exts (l4.withChksum c) payload
      = sentHeader hash murmur32 tc dst src path exts l4 payload := by
  cases l4 <;> rfl

/-- Neither does anything else of the transport header. -/
theorem sentL4_withChksum (c : UInt16) :
    sentL4 hash murmur32 tc dst src path exts (l4.withChksum c) payload
      = (prepareL4 dst src l4 payload).withChksum
          (checksum (sentHeader hash murmur32 tc dst src path exts l4 payload)
            ((prepareL4 dst src l4 payload).withChksum c) payload) := by
  rw [sentL4, prepareL4_withChksum, sentHeader_withChksum, L4Header.withChksum_withChksum]

theorem L4Header.bytes_withChksum_inj (c d : UInt16) :
    (l4.withChksum c).bytes = (l4.withChksum d).bytes ↔ c = d := by
  refine ⟨fun h => ?_, fun h => by rw [h]⟩
  have hword : beBytes 2 c.toNat = beBytes 2 d.toNat := by
    cases l4 with
    | udp h' =>
      have htail := List.append_cancel_left h
      exact List.append_cancel_left (List.append_cancel_left htail)
    | scmp h' =>
      have htail := List.append_cancel_left (List.append_cancel_left h)
      exact List.append_cancel_right htail
  have hnat := congrArg beNat hword
  rw [beNat_beBytes, beNat_beBytes] at hnat
  have hc := c.toNat_lt
  have hd := d.toNat_lt
  rw [Nat.mod_eq_of_lt (by omega), Nat.mod_eq_of_lt (by omega)] at hnat
  exact UInt16.toNat_inj.mp hnat

/-- The checksum that is written, for two values of the field on entry. -/
theorem checksum_entry_iff (c d : UInt16) :
    checksum (sentHeader hash murmur32 tc dst src path exts l4 payload)
        ((prepareL4 dst src l4 payload).withChksum c) payload
      = checksum (sentHeader hash murmur32 tc dst src path exts l4 payload)
        ((prepareL4 dst src l4 payload).withChksum d) payload ↔
    SameEntry (checksumSum dst src (l4.withChksum 0) payload) c d := by
  set scHdr := sentHeader hash murmur32 tc dst src path exts l4 payload with hscHdr
  set hdr := prepareL4 dst src l4 payload with hhdr
  set base := pseudoChecksum scHdr hdr payload + (hdr.withChksum 0).checksum with hbase
  have hpseudo : ∀ e, pseudoChecksum scHdr (hdr.withChksum e) payload
      = pseudoChecksum scHdr hdr payload := fun e => by
    rw [pseudoChecksum, L4Header.size_withChksum, L4Header.proto_withChksum, pseudoChecksum]
  have hinital : ∀ e : UInt16, ((pseudoChecksum scHdr (hdr.withChksum e) payload
      + (hdr.withChksum e).checksum).toNat + wordSum payload) % 2 ^ 32
      = (base.toNat + wordSum payload + e.toNat) % 2 ^ 32 := fun e => by
    rw [hpseudo, L4Header.checksum_withChksum, ← UInt32.add_assoc, ← hbase, UInt32.toNat_add,
      UInt16.toNat_toUInt32, Nat.mod_add_mod, Nat.add_right_comm]
  have hsum : checksumSum dst src (l4.withChksum 0) payload = (base.toNat + wordSum payload) % 2 ^ 32 := by
    rw [checksumSum, prepareL4_withChksum, L4Header.size_withChksum, L4Header.proto_withChksum,
      hbase, pseudoChecksum, hhdr, size_prepareL4, proto_prepareL4]
    rfl
  have hlow : SameEntry (checksumSum dst src (l4.withChksum 0) payload) c d ↔
      SameEntry (base.toNat + wordSum payload) c d := by
    rw [SameEntry, SameEntry, hsum, Nat.mod_mod_of_dvd _ (by norm_num)]
  rw [checksum, checksum, internetChecksum_eq_iff, hinital, hinital, cutFold_entry_iff, hlow]

theorem headerBytes_inj {scHdr : SCION} {m n : ℕ} {hbhOpts e2eOpts : List UInt8} {a b : L4Header}
    (hproto : a.proto = b.proto) :
    headerBytes scHdr path m n hbhOpts e2eOpts a = headerBytes scHdr path m n hbhOpts e2eOpts b ↔
      a.bytes = b.bytes := by
  simp [headerBytes, hbhNextHeader, hproto]

/-- Two builds with the same arguments, but for the checksum field of the transport header
and the cache, give the same bytes exactly if the two values add up to the same checksum. -/
theorem build_chksum_iff {c d : UInt16} {r r' : HeaderCache × L4Header}
    (hemits : EmitsOptions exts (extPos dst src path) hbh e2e)
    (hc : build hash murmur32 cache tc dst src path exts (l4.withChksum c) payload = .ok r)
    (hd : build hash murmur32 cache' tc dst src path exts (l4.withChksum d) payload = .ok r') :
    r.1.buffer = r'.1.buffer ↔ SameEntry (checksumSum dst src (l4.withChksum 0) payload) c d := by
  obtain ⟨-, -, -, rfl⟩ := (build_eq_ok_iff hemits).mp hc
  obtain ⟨-, -, -, rfl⟩ := (build_eq_ok_iff hemits).mp hd
  have hproto : (sentL4 hash murmur32 tc dst src path exts (l4.withChksum c) payload).proto
      = (sentL4 hash murmur32 tc dst src path exts (l4.withChksum d) payload).proto := by
    rw [proto_sentL4, proto_sentL4, L4Header.proto_withChksum, L4Header.proto_withChksum]
  have hentry : checksum (sentHeader hash murmur32 tc dst src path exts l4 payload) _ _ = _ ↔ _ :=
    checksum_entry_iff c d
  rw [← hentry]
  simp only [sentHeader_withChksum]
  rw [headerBytes_inj hproto, sentL4_withChksum, sentL4_withChksum, L4Header.bytes_withChksum_inj]

end

section Datagram

open RoundTrip

/-- A datagram of two bytes, with any value in the field. -/
theorem exists_build (c : UInt16) :
    ∃ r, build (fun _ => 0) (fun _ _ => 0) HeaderCache.init 0 (endpoint 1 5000) (endpoint 2 3000)
      emptyPath ([] : List (Extension PlainOption)) ((L4Header.udp udp).withChksum c) [1, 2]
        = .ok r :=
  ⟨_, (build_eq_ok_iff (emits_none _)).mpr ⟨rfl, by decide, by decide, rfl⟩⟩

/-- A field of `0xffff` gives the bytes of a cleared one. -/
theorem build_chksum_iff_ffff :
    ∃ r r', build (fun _ => 0) (fun _ _ => 0) HeaderCache.init 0 (endpoint 1 5000)
        (endpoint 2 3000) emptyPath ([] : List (Extension PlainOption))
        ((L4Header.udp udp).withChksum 0) [1, 2] = .ok r ∧
      build (fun _ => 0) (fun _ _ => 0) HeaderCache.init 0 (endpoint 1 5000)
        (endpoint 2 3000) emptyPath ([] : List (Extension PlainOption))
        ((L4Header.udp udp).withChksum 0xffff) [1, 2] = .ok r' ∧
      r.1.buffer = r'.1.buffer := by
  obtain ⟨r, hr⟩ := exists_build 0
  obtain ⟨r', hr'⟩ := exists_build 0xffff
  exact ⟨r, r', hr, hr', (build_chksum_iff (emits_none _) hr hr').mpr
    (Or.inr ⟨Or.inl ⟨rfl, rfl⟩, by decide⟩)⟩

/-- A field of 1 does not. -/
theorem not_forall_build_chksum :
    ¬ ∀ (S : Type) (_ : ExtensionClass S) (hash : ScIPAddress → UInt64)
        (murmur32 : List UInt8 → UInt32 → UInt32) (cache : HeaderCache) (tc : UInt8)
        (dst src : ScIPEndpoint) (path : PathView) (exts : List (Extension S)) (l4 : L4Header)
        (payload : List UInt8) (c d : UInt16) (r r' : HeaderCache × L4Header),
      build hash murmur32 cache tc dst src path exts (l4.withChksum c) payload = .ok r →
      build hash murmur32 cache tc dst src path exts (l4.withChksum d) payload = .ok r' →
      r.1.buffer = r'.1.buffer := by
  intro h
  obtain ⟨r, hr⟩ := exists_build 0
  obtain ⟨r', hr'⟩ := exists_build 1
  have hsame := h _ _ _ _ _ _ _ _ _ _ _ _ 0 1 r r' hr hr'
  obtain ⟨-, -, -, rfl⟩ := (build_eq_ok_iff (emits_none _)).mp hr
  obtain ⟨-, -, -, rfl⟩ := (build_eq_ok_iff (emits_none _)).mp hr'
  exact absurd hsame (by decide)

end Datagram

end Scion
