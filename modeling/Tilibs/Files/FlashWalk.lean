import Mathlib
import Tilibs.Files.FileClass
import Tilibs.Lib.Tiling

/-!
# Tilibs.Files.FlashWalk

The two searches of `filetypes.cc` through a buffer: `buffer_has_tifl_header`, which follows the
lengths in the flash headers, and the search for a CX II signature of `buffer_has_tno_header`,
which goes from one `T` to the next.

Both are as the code does them, with a reader and with pointers.  They find what `tiflTypes` and
`hasCx2Signature` say of the list.
-/

namespace Tilibs.Files

open Lib

/-! ## the reader -/

/-- `TiMemReader` over data whose length is `size`; the position does not leave it. -/
structure TiMemReader (data : List UInt8) where
  pos : Nat
  inside : pos ≤ data.length

namespace TiMemReader

variable {data : List UInt8}

/-- What is behind the position. -/
def rest (r : TiMemReader data) : List UInt8 := data.drop r.pos

/-- `r->size - r->pos` -/
def avail (r : TiMemReader data) : Nat := data.length - r.pos

theorem length_rest (r : TiMemReader data) : r.rest.length = r.avail := List.length_drop

theorem pos_add_le {r : TiMemReader data} {n : Nat} (h : n ≤ r.avail) :
    r.pos + n ≤ data.length := by
  have := r.inside
  unfold avail at h
  omega

/-- `r->pos += n` -/
def forward (r : TiMemReader data) (n : Nat) (h : n ≤ r.avail) : TiMemReader data where
  pos := r.pos + n
  inside := pos_add_le h

@[simp] theorem rest_forward (r : TiMemReader data) (n : Nat) (h : n ≤ r.avail) :
    (r.forward n h).rest = r.rest.drop n := by
  unfold rest forward
  rw [List.drop_drop]

/-- `memcpy` of `n` bytes from `data + offset`; there is no result when they are not all bytes of
the buffer. -/
def memcpyFrom (data : List UInt8) (offset n : Nat) : Option (List UInt8) :=
  if offset + n ≤ data.length then some (slice data (offset, n)) else none

/-- `tifiles_mem_reader_read` -/
def read (r : TiMemReader data) (n : Nat) : Option (List UInt8 × TiMemReader data) := do
  let out ← memcpyFrom data r.pos (min n r.avail)
  return (out, r.forward (min n r.avail) (min_le_right n r.avail))

/-- A read copies from inside the buffer. -/
theorem read_eq (r : TiMemReader data) (n : Nat) :
    ∃ r', r.read n = some (r.rest.take n, r') ∧ r'.rest = r.rest.drop n := by
  refine ⟨r.forward (min n r.avail) (min_le_right n r.avail), ?_, ?_⟩
  · unfold read memcpyFrom
    rw [if_pos (pos_add_le (min_le_right n r.avail))]
    have hout : slice data (r.pos, min n r.avail) = r.rest.take n := by
      change r.rest.take (min n r.avail) = r.rest.take n
      rw [← length_rest, ← List.take_take, List.take_length]
    rw [hout]
    rfl
  · rw [rest_forward]
    rcases le_total n r.avail with hn | hn
    · rw [min_eq_left hn]
    · rw [min_eq_right hn, ← length_rest, List.drop_length,
        List.drop_eq_nil_of_le (by rw [length_rest]; exact hn)]

/-! ## flash headers -/

/-- What `buffer_has_tifl_header` has found so far: `ret`, and what is in `*dev_type` and
`*data_type` once they are written. -/
structure TiflFound where
  ret : Bool
  types : Option (UInt8 × UInt8)
  deriving DecidableEq, Repr

/-- The loop of `buffer_has_tifl_header`; there is no result when a read leaves the buffer or the
fuel does not last. -/
def tiflLoop : Nat → TiflFound → TiMemReader data → Option (TiflFound × TiMemReader data)
  | 0, _, _ => none
  | fuel + 1, found, r => do
      let (buf, r) ← r.read 78
      if buf.length ≠ 78 then return (found, r)
      if buf.take 8 ≠ ascii "**TIFL**" then return (found, r)
      let found := ⟨true, some (buf.getD 48 0, buf.getD 49 0)⟩
      let len := getLE (slice buf (74, 4))
      if h : len ≤ r.avail then tiflLoop fuel found (r.forward len h) else return (found, r)

/-- `buffer_has_tifl_header` -/
def bufferHasTiflHeader (fuel : Nat) (r : TiMemReader data) :
    Option (TiflFound × TiMemReader data) :=
  let saved := r.pos
  if data.length < 78 then some (⟨false, none⟩, ⟨saved, r.inside⟩)
  else do
    let (found, _) ← tiflLoop fuel ⟨false, none⟩ r
    return (found, ⟨saved, r.inside⟩)

/-- The types of the last header are in place of those found before. -/
def TiflFound.later (found : TiflFound) : Option (UInt8 × UInt8) → TiflFound
  | none => found
  | some types => ⟨true, some types⟩

theorem tiflTypes_of_not_header {buf : List UInt8}
    (h : ¬ (78 ≤ buf.length ∧ buf.take 8 = ascii "**TIFL**")) : tiflTypes buf = none := by
  rw [tiflTypes, if_pos]
  by_contra hcon
  exact h ⟨by omega, by tauto⟩

/-- With fuel for all headers that there can be, the loop stays inside the buffer and finds the
types of the last header. -/
theorem tiflLoop_eq (fuel : Nat) (found : TiflFound) (r : TiMemReader data)
    (h : r.rest.length < 78 * fuel) :
    ∃ r', tiflLoop fuel found r = some (found.later (tiflTypes r.rest), r') := by
  induction fuel generalizing found r with
  | zero => omega
  | succ fuel ih =>
      obtain ⟨r', hread, hrest⟩ := r.read_eq 78
      have hlen : (r.rest.take 78).length ≠ 78 ↔ r.rest.length < 78 := by
        rw [List.length_take]
        omega
      have hmagic : (r.rest.take 78).take 8 = r.rest.take 8 := by
        rw [List.take_take]
        rfl
      simp only [tiflLoop, hread, Option.bind_eq_bind, Option.bind_some, hlen, hmagic]
      by_cases hshort : r.rest.length < 78
      · rw [if_pos hshort, tiflTypes_of_not_header (by omega)]
        exact ⟨r', rfl⟩
      rw [if_neg hshort]
      by_cases hheader : r.rest.take 8 = ascii "**TIFL**"
      · have hlength : getLE (slice (r.rest.take 78) (74, 4)) = tiflLength r.rest := by
          unfold slice tiflLength
          rw [List.drop_take, List.take_take]
          rfl
        have htypes : ((r.rest.take 78).getD 48 0, (r.rest.take 78).getD 49 0)
            = (r.rest.getD 48 0, r.rest.getD 49 0) := by
          simp only [List.getD_eq_getElem?_getD, List.getElem?_take]
          rfl
        have havail : r'.avail = (r.rest.drop 78).length := by rw [← length_rest, hrest]
        rw [if_neg (not_not_intro hheader), hlength, htypes, tiflTypes,
          if_neg (not_or.mpr ⟨hshort, not_not_intro hheader⟩)]
        by_cases hfits : tiflLength r.rest ≤ r'.avail
        · rw [dif_pos hfits, if_neg (by omega)]
          have hfuel : (r'.forward _ hfits).rest.length < 78 * fuel := by
            rw [rest_forward, hrest, List.length_drop, List.length_drop]
            omega
          obtain ⟨last, hlast⟩ :=
            ih ⟨true, some (r.rest.getD 48 0, r.rest.getD 49 0)⟩ (r'.forward _ hfits) hfuel
          refine ⟨last, ?_⟩
          rw [hlast, rest_forward, hrest]
          cases tiflTypes ((r.rest.drop 78).drop (tiflLength r.rest)) <;> rfl
        · rw [dif_neg hfits, if_pos (by omega)]
          exact ⟨r', rfl⟩
      · rw [if_pos hheader, tiflTypes_of_not_header (by tauto)]
        exact ⟨r', rfl⟩

/-- The walk ends for every buffer, and leaves the reader where it was. -/
theorem bufferHasTiflHeader_eq (r : TiMemReader data) {fuel : Nat}
    (h : r.rest.length < 78 * fuel) :
    r.bufferHasTiflHeader fuel
      = some ((TiflFound.mk false none).later (tiflTypes r.rest), r) := by
  unfold bufferHasTiflHeader
  by_cases hshort : data.length < 78
  · have hlen : r.rest.length < 78 := by
      rw [length_rest, avail]
      omega
    rw [tiflTypes_of_not_header (by omega)]
    exact if_pos hshort
  · obtain ⟨r', hloop⟩ := tiflLoop_eq fuel ⟨false, none⟩ r h
    simp only [if_neg hshort, hloop, Option.bind_eq_bind, Option.bind_some]
    rfl

end TiMemReader

/-! ## a container -/

/-- An entry of a flash container: a header and as many bytes as it declares. -/
structure TiflEntry where
  header : List UInt8
  content : List UInt8
  length_header : header.length = 78
  magic : header.take 8 = ascii "**TIFL**"
  length_content : tiflLength header = content.length

namespace TiflEntry

def bytes (e : TiflEntry) : List UInt8 := e.header ++ e.content

/-- The device type and the data type. -/
def types (e : TiflEntry) : UInt8 × UInt8 := (e.header.getD 48 0, e.header.getD 49 0)

/-- The first entry is read, and then those behind it. -/
theorem tiflTypes_bytes_append (e : TiflEntry) (buf : List UInt8) :
    tiflTypes (e.bytes ++ buf) = some ((tiflTypes buf).getD e.types) := by
  have hheader := e.length_header
  have hbytes : e.bytes ++ buf = e.header ++ (e.content ++ buf) := List.append_assoc ..
  have hmagic : (e.bytes ++ buf).take 8 = ascii "**TIFL**" := by
    rw [hbytes, List.take_append_of_le_length (by omega), e.magic]
  have hlength : tiflLength (e.bytes ++ buf) = e.content.length := by
    rw [← e.length_content, hbytes]
    unfold tiflLength
    rw [List.drop_append_of_le_length (by omega),
      List.take_append_of_le_length (by rw [List.length_drop]; omega)]
  have htypes : ((e.bytes ++ buf).getD 48 0, (e.bytes ++ buf).getD 49 0) = e.types := by
    rw [hbytes, List.getD_append _ _ _ _ (by omega), List.getD_append _ _ _ _ (by omega)]
    rfl
  have hbehind : (e.bytes ++ buf).drop 78 = e.content ++ buf := by
    rw [hbytes, List.drop_left' hheader]
  have hlong : 78 ≤ (e.bytes ++ buf).length := by
    rw [hbytes, List.length_append]
    omega
  rw [tiflTypes, hmagic, hlength, htypes, hbehind, List.drop_left,
    if_neg (not_or.mpr ⟨by omega, not_not_intro rfl⟩),
    if_neg (by rw [List.length_append]; omega)]
  cases tiflTypes buf <;> rfl

/-- Of entries one behind the other, the types of the last one are found. -/
theorem tiflTypes_flatMap_bytes (entries : List TiflEntry) :
    tiflTypes (entries.flatMap bytes) = entries.getLast?.map types := by
  induction entries with
  | nil => exact TiMemReader.tiflTypes_of_not_header (by simp)
  | cons e es ih =>
      rw [List.flatMap_cons, tiflTypes_bytes_append, ih]
      cases es with
      | nil => rfl
      | cons e' es =>
          rw [List.getLast?_cons_cons, List.getLast?_cons]
          rfl

end TiflEntry

/-! ## the search for a signature -/

/-- `memchr`: how far behind the pointer the first such byte is. -/
def memchr (p : List UInt8) (c : UInt8) (n : Nat) : Option Nat := (p.take n).findIdx? (· == c)

theorem memchr_eq_some {p : List UInt8} {c : UInt8} {n k : Nat} (h : memchr p c n = some k) :
    k < n ∧ p[k]? = some c ∧ ∀ i < k, p[i]? ≠ some c := by
  obtain ⟨hk, hc, hbefore⟩ := List.findIdx?_eq_some_iff_getElem.mp h
  rw [List.getElem_take, beq_iff_eq] at hc
  rw [List.length_take] at hk
  refine ⟨by omega, by rw [← hc]; exact List.getElem?_eq_getElem (by omega), fun i hi hcon => ?_⟩
  have hne := hbefore i hi
  rw [List.getElem_take] at hne
  rw [List.getElem?_eq_getElem (by omega), Option.some.injEq] at hcon
  exact hne (beq_iff_eq.mpr hcon)

theorem memchr_eq_none {p : List UInt8} {c : UInt8} {n : Nat} (h : memchr p c n = none) :
    ∀ i < n, p[i]? ≠ some c := by
  intro i hi hcon
  refine absurd (List.findIdx?_eq_none_iff.mp h c ?_) (by simp)
  exact List.mem_of_getElem? (by rw [List.getElem?_take_of_lt hi, hcon])

/-- `TCX2_SIGNATURE_PREFIX` -/
def tcx2SignaturePrefix : List UInt8 := ascii "TI-Nspire.tc"

/-- Whether a CX II signature is at `p + ptr1`, and ends in the first 1024 bytes. -/
def cx2SignatureAt (p : List UInt8) (ptr1 : Nat) : Bool :=
  if ptr1 + tcx2SignaturePrefix.length + 3 ≤ 1024
      ∧ slice p (ptr1, tcx2SignaturePrefix.length) = tcx2SignaturePrefix then
    let c := p.getD (ptr1 + tcx2SignaturePrefix.length) 0
    (c == 0x6F || c == 0x63 || c == 0x74)
      && p.getD (ptr1 + tcx2SignaturePrefix.length + 1) 0 == 0x32
      && p.getD (ptr1 + tcx2SignaturePrefix.length + 2) 0 == 0x20
  else false

/-- The loop over the places of `T`; `ptr2` is as far behind `p` as it is given. -/
def cx2Loop (p : List UInt8) (ptr2 remaining : Nat) : Bool :=
  match _h : memchr (p.drop ptr2) 0x54 remaining with
  | none => false
  | some k =>
      if cx2SignatureAt p (ptr2 + k) then true
      else cx2Loop p (ptr2 + k + 1) (remaining - (k + 1))
termination_by remaining
decreasing_by
  have := (memchr_eq_some _h).1
  omega

/-- The end of `buffer_has_tno_header`, where a CX II signature is looked for. -/
def hasCx2SignatureBehind (p : List UInt8) : Bool := cx2Loop p 0 1024

/-- A signature begins with a `T`. -/
theorem getElem?_of_cx2SignatureAt {p : List UInt8} {i : Nat} (h : cx2SignatureAt p i = true) :
    p[i]? = some 0x54 := by
  unfold cx2SignatureAt at h
  split at h
  · rename_i hbegins
    have hfirst : (slice p (i, tcx2SignaturePrefix.length))[0]? = some 0x54 := by
      rw [hbegins.2]
      decide
    have hpos : 0 < tcx2SignaturePrefix.length := by decide
    rwa [slice, List.getElem?_take_of_lt hpos, List.getElem?_drop, Nat.add_zero] at hfirst
  · exact absurd h Bool.false_ne_true

theorem cx2Loop_of_none {p : List UInt8} {ptr2 remaining : Nat}
    (h : memchr (p.drop ptr2) 0x54 remaining = none) : cx2Loop p ptr2 remaining = false := by
  rw [cx2Loop]
  split
  · rfl
  · rename_i hsome
    rw [h] at hsome
    cases hsome

theorem cx2Loop_of_some {p : List UInt8} {ptr2 remaining k : Nat}
    (h : memchr (p.drop ptr2) 0x54 remaining = some k) :
    cx2Loop p ptr2 remaining
      = if cx2SignatureAt p (ptr2 + k) then true
        else cx2Loop p (ptr2 + k + 1) (remaining - (k + 1)) := by
  rw [cx2Loop]
  split
  · rename_i hnone
    rw [h] at hnone
    cases hnone
  · rename_i k' hk
    rw [Option.some.inj (hk.symm.trans h)]

/-- The loop finds a signature if there is one from `ptr2` on: none is between two `T`s. -/
theorem cx2Loop_iff (p : List UInt8) (ptr2 remaining : Nat) :
    cx2Loop p ptr2 remaining = true
      ↔ ∃ i, ptr2 ≤ i ∧ i < ptr2 + remaining ∧ cx2SignatureAt p i = true := by
  induction remaining using Nat.strong_induction_on generalizing ptr2 with
  | _ remaining ih =>
      cases hchr : memchr (p.drop ptr2) 0x54 remaining with
      | none =>
          rw [cx2Loop_of_none hchr]
          refine iff_of_false Bool.false_ne_true ?_
          rintro ⟨i, hle, hlt, hat⟩
          refine memchr_eq_none hchr (i - ptr2) (by omega) ?_
          rw [List.getElem?_drop, Nat.add_sub_cancel' hle, getElem?_of_cx2SignatureAt hat]
      | some k =>
          obtain ⟨hlt, -, hbefore⟩ := memchr_eq_some hchr
          rw [cx2Loop_of_some hchr]
          by_cases hat : cx2SignatureAt p (ptr2 + k) = true
          · rw [if_pos hat]
            exact iff_of_true rfl ⟨ptr2 + k, by omega, by omega, hat⟩
          rw [if_neg hat, ih (remaining - (k + 1)) (by omega)]
          refine exists_congr fun i => ⟨fun ⟨hi, hi', h⟩ => ⟨by omega, by omega, h⟩, ?_⟩
          rintro ⟨hi, hi', h⟩
          refine ⟨?_, by omega, h⟩
          -- a signature before the `T` that was found would begin with one
          by_contra hcon
          rcases Nat.lt_or_eq_of_le (show i ≤ ptr2 + k by omega) with hnear | rfl
          · refine hbefore (i - ptr2) (by omega) ?_
            rw [List.getElem?_drop, Nat.add_sub_cancel' hi, getElem?_of_cx2SignatureAt h]
          · exact hat h

theorem length_of_mem_cx2Signatures : ∀ sig ∈ cx2Signatures, sig.length = 15 := by
  decide

theorem cx2Signatures_eq : cx2Signatures = [tcx2SignaturePrefix ++ [0x6F, 0x32, 0x20],
    tcx2SignaturePrefix ++ [0x63, 0x32, 0x20], tcx2SignaturePrefix ++ [0x74, 0x32, 0x20]] := by
  decide

/-- The prefix and the three bytes behind it make up one of the signatures. -/
theorem append_mem_cx2Signatures {xs : List UInt8} {a b c : UInt8}
    (h : xs.length = tcx2SignaturePrefix.length) :
    xs ++ [a, b, c] ∈ cx2Signatures
      ↔ xs = tcx2SignaturePrefix ∧ (a = 0x6F ∨ a = 0x63 ∨ a = 0x74) ∧ b = 0x32 ∧ c = 0x20 := by
  have hone : ∀ d : UInt8, xs ++ [a, b, c] = tcx2SignaturePrefix ++ [d, 0x32, 0x20]
      ↔ xs = tcx2SignaturePrefix ∧ a = d ∧ b = 0x32 ∧ c = 0x20 := by
    intro d
    constructor
    · intro heq
      obtain ⟨hxs, hend⟩ := List.append_inj heq h
      simp only [List.cons.injEq, and_true] at hend
      exact ⟨hxs, hend⟩
    · rintro ⟨rfl, rfl, rfl, rfl⟩
      rfl
  rw [cx2Signatures_eq]
  simp only [List.mem_cons, List.not_mem_nil, or_false, hone]
  tauto

theorem cx2SignatureAt_iff {p : List UInt8} (hp : 1024 ≤ p.length) (i : Nat) :
    cx2SignatureAt p i = true ↔ i + 15 ≤ 1024 ∧ slice p (i, 15) ∈ cx2Signatures := by
  have hbegins : tcx2SignaturePrefix.length = 12 := by decide
  by_cases hend : i + 15 ≤ 1024
  · have hslice : slice p (i, 15)
        = slice p (i, tcx2SignaturePrefix.length) ++ [p[i + 12], p[i + 13], p[i + 14]] := by
      rw [hbegins, ← slice_append p i 12 3]
      congr 1
      unfold slice
      rw [List.drop_eq_getElem_cons (by omega), List.drop_eq_getElem_cons (by omega),
        List.drop_eq_getElem_cons (by omega)]
      rfl
    have hlength : (slice p (i, tcx2SignaturePrefix.length)).length
        = tcx2SignaturePrefix.length := length_slice (by omega)
    rw [hslice, append_mem_cx2Signatures hlength]
    unfold cx2SignatureAt
    rw [hbegins, List.getD_eq_getElem _ _ (by omega), List.getD_eq_getElem _ _ (by omega),
      List.getD_eq_getElem _ _ (by omega)]
    split
    · rename_i hif
      simp [hif.2, hend, or_assoc, and_assoc]
    · rename_i hif
      exact iff_of_false Bool.false_ne_true fun ⟨_, h, _⟩ => hif ⟨by omega, h⟩
  · unfold cx2SignatureAt
    rw [hbegins, if_neg fun h => hend h.1]
    exact iff_of_false Bool.false_ne_true fun h => hend h.1

/-- The search finds exactly the signatures that are inside the first 1024 bytes. -/
theorem hasCx2SignatureBehind_iff {p : List UInt8} (hp : 1024 ≤ p.length) :
    hasCx2SignatureBehind p = true
      ↔ ∃ i, ∃ sig ∈ cx2Signatures, i + sig.length ≤ 1024 ∧ slice p (i, sig.length) = sig := by
  unfold hasCx2SignatureBehind
  rw [cx2Loop_iff]
  refine exists_congr fun i => ?_
  rw [cx2SignatureAt_iff hp]
  constructor
  · rintro ⟨-, -, hend, hmem⟩
    refine ⟨_, hmem, ?_, ?_⟩ <;> rw [length_of_mem_cx2Signatures _ hmem]
    exact hend
  · rintro ⟨sig, hmem, hend, hslice⟩
    rw [length_of_mem_cx2Signatures sig hmem] at hend hslice
    exact ⟨Nat.zero_le i, by omega, hend, by rwa [hslice]⟩

/-- What `hasCx2Signature` looks for in a list. -/
theorem hasCx2Signature_iff (xs : List UInt8) :
    hasCx2Signature xs = true
      ↔ ∃ i, ∃ sig ∈ cx2Signatures, i + sig.length ≤ xs.length ∧ slice xs (i, sig.length) = sig := by
  have hempty : ∀ sig ∈ cx2Signatures, sig ≠ [] := by decide
  have hbegins : ∀ (sig ys : List UInt8),
      sig.isPrefixOf ys = true ↔ sig.length ≤ ys.length ∧ ys.take sig.length = sig := by
    intro sig ys
    rw [List.isPrefixOf_iff_prefix, List.prefix_iff_eq_take]
    refine ⟨fun h => ⟨?_, h.symm⟩, fun h => h.2.symm⟩
    rw [h, List.length_take]
    exact min_le_right ..
  induction xs with
  | nil =>
      refine iff_of_false Bool.false_ne_true ?_
      rintro ⟨i, sig, hmem, hend, -⟩
      rw [List.length_nil] at hend
      exact hempty sig hmem (List.eq_nil_of_length_eq_zero (by omega))
  | cons b bs ih =>
      rw [hasCx2Signature, Bool.or_eq_true, List.any_eq_true]
      refine (or_congr_right ih).trans ?_
      constructor
      · rintro (⟨sig, hmem, h⟩ | ⟨i, sig, hmem, hend, hslice⟩)
        · obtain ⟨hlen, htake⟩ := (hbegins sig (b :: bs)).mp h
          exact ⟨0, sig, hmem, by omega, htake⟩
        · exact ⟨i + 1, sig, hmem, by rw [List.length_cons]; omega, hslice⟩
      · rintro ⟨i, sig, hmem, hend, hslice⟩
        cases i with
        | zero => exact .inl ⟨sig, hmem, (hbegins sig (b :: bs)).mpr ⟨by omega, hslice⟩⟩
        | succ i =>
            rw [List.length_cons] at hend
            exact .inr ⟨i, sig, hmem, by omega, hslice⟩

theorem hasCx2SignatureBehind_eq {p : List UInt8} (hp : 1024 ≤ p.length) :
    hasCx2SignatureBehind p = hasCx2Signature (p.take 1024) := by
  rw [Bool.eq_iff_iff, hasCx2SignatureBehind_iff hp, hasCx2Signature_iff, List.length_take,
    min_eq_left hp]
  refine exists_congr fun i => exists_congr fun sig => and_congr_right fun _ =>
    and_congr_right fun hend => ?_
  rw [show slice (p.take 1024) (i, sig.length) = slice p (i, sig.length) by
    unfold slice
    rw [List.drop_take, List.take_take, min_eq_left (by omega)]]

/-- `buffer_has_tno_header` -/
def TiMemReader.bufferHasTnoHeader {data : List UInt8} (r : TiMemReader data) : Bool :=
  if r.avail < 1024 then false
  else if (ascii "__OSEXT__1 ").isPrefixOf r.rest then true
  else if osSignaturePrefix.isPrefixOf r.rest then
    osSignatureSuffixes.any fun suffix => suffix.isPrefixOf (r.rest.drop osSignaturePrefix.length)
  else hasCx2SignatureBehind r.rest

theorem TiMemReader.bufferHasTnoHeader_eq {data : List UInt8} (r : TiMemReader data) :
    r.bufferHasTnoHeader = Files.bufferHasTnoHeader r.rest := by
  unfold TiMemReader.bufferHasTnoHeader Files.bufferHasTnoHeader
  rw [← length_rest]
  by_cases hshort : r.rest.length < 1024
  · rw [if_pos hshort, if_pos hshort]
  · rw [if_neg hshort, if_neg hshort, hasCx2SignatureBehind_eq (by omega)]

/-! ## both searches -/

/-- Over entries one behind the other the walk ends, reads inside the buffer only, finds the types
of the last entry and leaves the reader where it was; and the other search finds a CX II signature
exactly when there is one in the first 1024 bytes. -/
theorem flashSearches_exact :
    (∀ (data : List UInt8) (r : TiMemReader data) (entries : List TiflEntry),
      r.rest = entries.flatMap TiflEntry.bytes → ∃ enough, ∀ fuel ≥ enough,
        r.bufferHasTiflHeader fuel
          = some (⟨!entries.isEmpty, entries.getLast?.map TiflEntry.types⟩, r))
    ∧ ∀ p : List UInt8, 1024 ≤ p.length → (hasCx2SignatureBehind p = true
        ↔ ∃ i, ∃ sig ∈ cx2Signatures, i + sig.length ≤ 1024 ∧ slice p (i, sig.length) = sig) := by
  refine ⟨fun data r entries hrest => ⟨r.rest.length + 1, fun fuel hfuel => ?_⟩,
    fun p hp => hasCx2SignatureBehind_iff hp⟩
  rw [r.bufferHasTiflHeader_eq (by omega), hrest, TiflEntry.tiflTypes_flatMap_bytes]
  cases entries with
  | nil => rfl
  | cons e es =>
      rw [List.getLast?_cons]
      rfl

end Tilibs.Files
