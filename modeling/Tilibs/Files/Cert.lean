import Tilibs.Files.Flash8x
import Tilibs.Lib.Fallible
import Tilibs.Lib.Tiling

/-!
# Tilibs.Files.Cert

Fields of certificates (`cert.cc`): two bytes with a type and the form of the size, the size in
no, one, two or four bytes, and the contents, which may be fields again.

The functions work on a pointer into a buffer and on the number of bytes behind it, with sums of
32 bits.  `splitCert` takes a field off a list of bytes with the sums that are meant; the two agree
unless a size is so large that the sum wraps.
-/

namespace Tilibs.Files

open Lib

/-! ## the functions -/

/-- `ERR_INVALID_PARAM`, `ERR_CERT_TRUNCATED`, and what must not happen: a read or a pointer
outside the buffer. -/
inductive CertErr
  | invalidParam
  | truncated
  | outOfBounds
  deriving DecidableEq

/-- What `tifiles_cert_field_get` stores; `contents` is the place in the buffer. -/
structure CertField where
  fieldType : UInt16
  contents : Nat
  size : Nat
  deriving DecidableEq

/-- A read of `k` bytes. -/
def bytesAt (buf : List UInt8) (pos k : Nat) : Except CertErr (List UInt8) :=
  if pos + k ≤ buf.length then .ok (slice buf (pos, k)) else .error .outOfBounds

/-- The size of a field, from its type or from the bytes behind it. -/
def certSize (fieldId : Nat) (sizeBytes : List UInt8) : Nat :=
  if certSizeBytes fieldId = 0 then fieldId % 16 else getBE sizeBytes

/-- `tifiles_cert_field_get` -/
def certFieldGet (buf : List UInt8) (pos length : Nat) : Except CertErr CertField :=
  if length < 2 then .error .invalidParam
  else do
    let fieldId := getBE (← bytesAt buf pos 2)
    let additionalLen := certSizeBytes fieldId
    if length < 2 + additionalLen then throw .truncated
    else
      let sizeBytes ← bytesAt buf (pos + 2) additionalLen
      let fieldLen := certSize fieldId sizeBytes
      if length < (2 + additionalLen + fieldLen) % 2 ^ 32 then throw .truncated
      else return ⟨UInt16.ofNat fieldId, pos + 2 + additionalLen, fieldLen⟩

/-- `tifiles_cert_field_next`: the pointer and the number of bytes behind the field. -/
def certFieldNext (buf : List UInt8) (pos length : Nat) : Except CertErr (Nat × Nat) := do
  let field ← certFieldGet buf pos length
  let stop := field.contents + field.size
  if stop > buf.length then throw .outOfBounds
  else return (stop, (length + 2 ^ 32 - (stop - pos) % 2 ^ 32) % 2 ^ 32)

/-- Types are compared without the form of the size. -/
def sameCertType (t t' : UInt16) : Bool := t &&& 0xFFF0 = t' &&& 0xFFF0

theorem lt_of_certFieldGet {buf : List UInt8} {pos length : Nat} {field : CertField}
    (h : certFieldGet buf pos length = .ok field) : pos + 2 ≤ field.contents := by
  unfold certFieldGet at h
  split at h
  · cases h
  · obtain ⟨bytes, -, h⟩ := bind_eq_ok_iff.mp h
    dsimp only at h
    split at h
    · cases h
    · obtain ⟨sizeBytes, -, h⟩ := bind_eq_ok_iff.mp h
      split at h
      · cases h
      · cases h
        exact Nat.le_add_right _ _

theorem certFieldNext_progress {buf : List UInt8} {pos length : Nat} {next : Nat × Nat}
    (h : certFieldNext buf pos length = .ok next) :
    buf.length - next.1 < buf.length - pos := by
  unfold certFieldNext at h
  obtain ⟨field, hfield, h⟩ := bind_eq_ok_iff.mp h
  have hlt := lt_of_certFieldGet hfield
  dsimp only at h
  split at h
  · cases h
  · cases h
    dsimp only
    omega

/-- The loop of `tifiles_cert_field_find`; the pointer goes on behind the field that is found. -/
def certFindLoop (buf : List UInt8) (fieldType : UInt16) (pos length : Nat) :
    Except CertErr CertField :=
  match certFieldGet buf pos length with
  | .error e => .error e
  | .ok field =>
      match h : certFieldNext buf pos length with
      | .error e => .error e
      | .ok next =>
          if sameCertType field.fieldType fieldType then .ok field
          else certFindLoop buf fieldType next.1 next.2
termination_by buf.length - pos
decreasing_by exact certFieldNext_progress h

/-- `tifiles_cert_field_find` -/
def certFieldFind (buf : List UInt8) (pos length : Nat) (fieldType : UInt16) :
    Except CertErr CertField :=
  if length < 2 then .error .invalidParam else certFindLoop buf fieldType pos length

/-- The loop of `tifiles_cert_field_find_path`: the pointer and the length of the contents. -/
def certFindPathLoop (buf : List UInt8) : Nat → Nat → List UInt16 → Except CertErr (Nat × Nat)
  | pos, length, [] => .ok (pos, length)
  | pos, length, fieldType :: path => do
      let field ← certFieldFind buf pos length fieldType
      certFindPathLoop buf field.contents field.size path

/-- `tifiles_cert_field_find_path` -/
def certFieldFindPath (buf : List UInt8) (pos length : Nat) (path : List UInt16) :
    Except CertErr (Nat × Nat) :=
  if length < 2 then .error .invalidParam
  else if path = [] then .error .invalidParam
  else certFindPathLoop buf pos length path

/-! ## fields of a list -/

/-- A field and what follows it. -/
structure CertSplit where
  fieldType : UInt16
  contents : List UInt8
  rest : List UInt8

/-- The bytes before the contents. -/
def certStart (data : List UInt8) : Nat := 2 + certSizeBytes (getBE (data.take 2))

/-- The number of bytes of the contents. -/
def certLen (data : List UInt8) : Nat := certFieldLen (getBE (data.take 2)) data

/-- The first field of a list. -/
def splitCert (data : List UInt8) : Option CertSplit :=
  if data.length < certStart data + certLen data then none
  else
    some {
      fieldType := UInt16.ofNat (getBE (data.take 2))
      contents := (data.drop (certStart data)).take (certLen data)
      rest := data.drop (certStart data + certLen data) }

/-- A size of four bytes with which the sum wraps. -/
def CertWraps (data : List UInt8) : Prop :=
  6 ≤ data.length ∧ getBE (data.take 2) % 16 = 0xF ∧ 2 ^ 32 - 6 ≤ getBE ((data.drop 2).take 4)

instance (data : List UInt8) : Decidable (CertWraps data) :=
  inferInstanceAs (Decidable (_ ∧ _ ∧ _))

theorem certStart_ge (data : List UInt8) : 2 ≤ certStart data := Nat.le_add_right 2 _

theorem length_rest_of_splitCert {data : List UInt8} {s : CertSplit} (h : splitCert data = some s) :
    s.rest.length < data.length := by
  have hstart := certStart_ge data
  unfold splitCert at h
  split at h
  · cases h
  · cases h
    dsimp only
    rw [List.length_drop]
    omega

/-- The contents of the first field of a type. -/
def firstCert (fieldType : UInt16) (data : List UInt8) : Option (List UInt8) :=
  match h : splitCert data with
  | none => none
  | some s =>
      if sameCertType s.fieldType fieldType then some s.contents else firstCert fieldType s.rest
termination_by data.length
decreasing_by exact length_rest_of_splitCert h

theorem firstCert_of_none {fieldType : UInt16} {data : List UInt8} (h : splitCert data = none) :
    firstCert fieldType data = none := by
  rw [firstCert]
  split
  · rfl
  · next s hs =>
    rw [h] at hs
    cases hs

theorem firstCert_of_some {fieldType : UInt16} {data : List UInt8} {s : CertSplit}
    (h : splitCert data = some s) : firstCert fieldType data
      = if sameCertType s.fieldType fieldType then some s.contents
        else firstCert fieldType s.rest := by
  rw [firstCert]
  split
  · next hs =>
    rw [h] at hs
    cases hs
  · next s' hs =>
    rw [h] at hs
    obtain rfl := Option.some.inj hs
    rfl

/-- A size of a field before the first one of the type, or of that one, wraps. -/
inductive WalkWraps (fieldType : UInt16) : List UInt8 → Prop
  | here {data : List UInt8} : CertWraps data → WalkWraps fieldType data
  | next {data : List UInt8} {s : CertSplit} : splitCert data = some s →
      sameCertType s.fieldType fieldType = false → WalkWraps fieldType s.rest →
      WalkWraps fieldType data

/-- A size of a field that the search for a path meets wraps. -/
inductive PathWraps : List UInt16 → List UInt8 → Prop
  | walk {fieldType : UInt16} {path : List UInt16} {data : List UInt8} :
      WalkWraps fieldType data → PathWraps (fieldType :: path) data
  | inside {fieldType : UInt16} {path : List UInt16} {data contents : List UInt8} :
      firstCert fieldType data = some contents → PathWraps path contents →
      PathWraps (fieldType :: path) data

/-- The contents at the end of a path. -/
def pathCert : List UInt16 → List UInt8 → Option (List UInt8)
  | [], data => some data
  | fieldType :: path, data => (firstCert fieldType data).bind (pathCert path)

/-! ## a place in the buffer -/

section Region

variable {buf : List UInt8} {pos length : Nat}

theorem slice_within (buf : List UInt8) (pos : Nat) {i k : Nat} (hk : i + k ≤ length) :
    slice buf (pos + i, k) = ((slice buf (pos, length)).drop i).take k := by
  unfold slice
  dsimp only
  rw [← List.drop_drop, List.drop_take, List.take_take, Nat.min_eq_left (by omega)]

theorem bytesAt_region (hend : pos + length ≤ buf.length) {i k : Nat} (hk : i + k ≤ length) :
    bytesAt buf (pos + i) k = .ok (((slice buf (pos, length)).drop i).take k) := by
  unfold bytesAt
  rw [if_pos (by omega), slice_within buf pos hk]

theorem certSizeBytes_le (fieldId : Nat) : certSizeBytes fieldId ≤ 4 := by
  unfold certSizeBytes
  split_ifs <;> decide

/-- What `tifiles_cert_field_get` does with the bytes at a place. -/
theorem certFieldGet_eq (hend : pos + length ≤ buf.length) {data : List UInt8}
    (hdata : slice buf (pos, length) = data) :
    certFieldGet buf pos length =
      if length < 2 then .error .invalidParam
      else if length < certStart data then .error .truncated
      else if length < (certStart data + certLen data) % 2 ^ 32 then .error .truncated
      else .ok ⟨UInt16.ofNat (getBE (data.take 2)), pos + certStart data, certLen data⟩ := by
  subst hdata
  have htype (h : 2 ≤ length) :
      bytesAt buf pos 2 = .ok ((slice buf (pos, length)).take 2) := by
    have hread := bytesAt_region hend (i := 0) (k := 2) (by omega)
    rw [Nat.add_zero, List.drop_zero] at hread
    exact hread
  unfold certFieldGet
  by_cases htwo : length < 2
  · rw [if_pos htwo, if_pos htwo]
  · rw [if_neg htwo, if_neg htwo, htype (Nat.not_lt.mp htwo)]
    show (if length < certStart (slice buf (pos, length)) then _ else _) = _
    by_cases hstart : length < certStart (slice buf (pos, length))
    · rw [if_pos hstart, if_pos hstart]
      rfl
    · rw [if_neg hstart, if_neg hstart, bytesAt_region hend (Nat.not_lt.mp hstart)]
      show (if length < (certStart (slice buf (pos, length))
        + certLen (slice buf (pos, length))) % 2 ^ 32 then _ else _) = _
      rw [Nat.add_assoc pos 2]
      split
      · rfl
      · rfl

/-- Less than four bytes of size are too few for a sum to wrap. -/
theorem certLen_lt {data : List UInt8} (h : getBE (data.take 2) % 16 ≠ 0xF) :
    certLen data < 2 ^ 16 := by
  have hsize (k : Nat) : getBE ((data.drop 2).take k) < 256 ^ k :=
    (getBE_lt _).trans_le (Nat.pow_le_pow_right (by omega) (List.length_take_le k _))
  have hone := hsize 1
  have htwo := hsize 2
  unfold certLen certFieldLen certSizeBytes
  split_ifs <;> omega

theorem certWraps_iff {data : List UInt8} :
    CertWraps data ↔ certStart data ≤ data.length ∧ 2 ^ 32 ≤ certStart data + certLen data := by
  have hstart := certSizeBytes_le (getBE (data.take 2))
  unfold CertWraps
  by_cases hlong : getBE (data.take 2) % 16 = 0xF
  · have hbytes : certSizeBytes (getBE (data.take 2)) = 4 := by
      unfold certSizeBytes
      rw [if_neg (by omega), if_neg (by omega), if_pos hlong]
    have hlen : certLen data = getBE ((data.drop 2).take 4) := by
      unfold certLen certFieldLen
      rw [hbytes, if_neg (by omega)]
    unfold certStart
    rw [hbytes, hlen]
    omega
  · have hlen := certLen_lt hlong
    unfold certStart
    constructor
    · exact fun h => absurd h.2.1 hlong
    · omega

/-- A field whose size does not wrap is taken off the bytes at the place. -/
theorem certFieldGet_of_not_wraps (hend : pos + length ≤ buf.length) (hsmall : buf.length < 2 ^ 32)
    {data : List UInt8} (hdata : slice buf (pos, length) = data) (hwraps : ¬CertWraps data) :
    match splitCert data with
    | none => ∃ e, certFieldGet buf pos length = .error e ∧ e ≠ .outOfBounds
    | some s => certFieldGet buf pos length
        = .ok ⟨s.fieldType, pos + certStart data, s.contents.length⟩
        ∧ slice buf (pos + certStart data, s.contents.length) = s.contents
        ∧ certStart data + s.contents.length + s.rest.length = length
        ∧ slice buf (pos + certStart data + s.contents.length, s.rest.length) = s.rest := by
  have hlength : data.length = length := by rw [← hdata, length_slice hend]
  have hget := certFieldGet_eq hend hdata
  have hstart := certStart_ge data
  rw [certWraps_iff, hlength] at hwraps
  unfold splitCert
  rw [hlength]
  by_cases hshort : length < certStart data + certLen data
  · rw [if_pos hshort]
    dsimp only
    rw [hget]
    by_cases htwo : length < 2
    · exact ⟨.invalidParam, if_pos htwo, nofun⟩
    · rw [if_neg htwo]
      by_cases hheader : length < certStart data
      · exact ⟨.truncated, if_pos hheader, nofun⟩
      · rw [if_neg hheader, if_pos (by rw [Nat.mod_eq_of_lt (by omega)]; exact hshort)]
        exact ⟨.truncated, rfl, nofun⟩
  · rw [if_neg hshort]
    dsimp only
    have hcontents : ((data.drop (certStart data)).take (certLen data)).length = certLen data := by
      rw [List.length_take, List.length_drop]
      omega
    have hrest : (data.drop (certStart data + certLen data)).length
        = length - (certStart data + certLen data) := by
      rw [List.length_drop, hlength]
    have hmod : (certStart data + certLen data) % 2 ^ 32 = certStart data + certLen data :=
      Nat.mod_eq_of_lt (by omega)
    rw [hcontents, hrest]
    refine ⟨?_, ?_, by omega, ?_⟩
    · rw [hget, if_neg (by omega), if_neg (by omega), if_neg (by rw [hmod]; exact hshort)]
    · rw [slice_within buf pos (show certStart data + certLen data ≤ length by omega), hdata]
    · rw [Nat.add_assoc, slice_within buf pos (show certStart data + certLen data
        + (length - (certStart data + certLen data)) ≤ length by omega), hdata, ← hrest,
        List.take_length]

/-- A field whose size wraps is accepted, and ends behind the buffer. -/
theorem certFieldGet_of_wraps (hend : pos + length ≤ buf.length) (hsmall : buf.length < 2 ^ 32)
    {data : List UInt8} (hdata : slice buf (pos, length) = data) (hwraps : CertWraps data) :
    ∃ field, certFieldGet buf pos length = .ok field
      ∧ buf.length < field.contents + field.size := by
  have hlength : data.length = length := by rw [← hdata, length_slice hend]
  have hstart := certStart_ge data
  have hbytes := certSizeBytes_le (getBE (data.take 2))
  obtain ⟨hsix, hlong, hsize⟩ := hwraps
  have hwrap := (certWraps_iff).mp ⟨hsix, hlong, hsize⟩
  have hlen : certLen data < 2 ^ 32 := by
    unfold certLen certFieldLen
    have hlt : getBE ((data.drop 2).take (certSizeBytes (getBE (data.take 2)))) < 256 ^ 4 :=
      (getBE_lt _).trans_le (Nat.pow_le_pow_right (by omega)
        ((List.length_take_le _ _).trans hbytes))
    split_ifs <;> omega
  have hmod : (certStart data + certLen data) % 2 ^ 32 < 6 := by
    unfold certStart at hwrap ⊢
    omega
  refine ⟨⟨UInt16.ofNat (getBE (data.take 2)), pos + certStart data, certLen data⟩, ?_, ?_⟩
  · rw [certFieldGet_eq hend hdata, if_neg (by omega), if_neg (by omega), if_neg (by omega)]
  · dsimp only
    omega

/-! ## going over the fields -/

theorem certFieldNext_of_not_wraps (hend : pos + length ≤ buf.length)
    (hsmall : buf.length < 2 ^ 32) {data : List UInt8} (hdata : slice buf (pos, length) = data)
    (hwraps : ¬CertWraps data) :
    match splitCert data with
    | none => ∃ e, certFieldNext buf pos length = .error e ∧ e ≠ .outOfBounds
    | some s => certFieldNext buf pos length
        = .ok (pos + certStart data + s.contents.length, s.rest.length) := by
  have hget := certFieldGet_of_not_wraps hend hsmall hdata hwraps
  unfold certFieldNext
  cases hsplit : splitCert data with
  | none =>
      rw [hsplit] at hget
      obtain ⟨e, hget, hne⟩ := hget
      rw [hget]
      exact ⟨e, rfl, hne⟩
  | some s =>
      rw [hsplit] at hget
      obtain ⟨hget, -, hlength, -⟩ := hget
      rw [hget]
      show (if pos + certStart data + s.contents.length > buf.length then _ else _) = _
      have hstop : pos + certStart data + s.contents.length - pos
          = certStart data + s.contents.length := by omega
      have hleft : (length + 2 ^ 32 - (certStart data + s.contents.length) % 2 ^ 32) % 2 ^ 32
          = s.rest.length := by
        rw [Nat.mod_eq_of_lt (show certStart data + s.contents.length < 2 ^ 32 by omega)]
        omega
      rw [if_neg (by omega)]
      dsimp only
      rw [hstop, hleft]
      rfl

theorem certFieldNext_of_wraps (hend : pos + length ≤ buf.length) (hsmall : buf.length < 2 ^ 32)
    {data : List UInt8} (hdata : slice buf (pos, length) = data) (hwraps : CertWraps data) :
    certFieldNext buf pos length = .error .outOfBounds := by
  obtain ⟨field, hget, hbeyond⟩ := certFieldGet_of_wraps hend hsmall hdata hwraps
  unfold certFieldNext
  rw [hget]
  exact if_pos hbeyond

theorem certFindLoop_eq (fieldType : UInt16) : certFindLoop buf fieldType pos length = (do
    let field ← certFieldGet buf pos length
    let next ← certFieldNext buf pos length
    if sameCertType field.fieldType fieldType then .ok field
    else certFindLoop buf fieldType next.1 next.2) := by
  rw [certFindLoop]
  cases certFieldGet buf pos length with
  | error e => rfl
  | ok field =>
      dsimp only
      split
      · next e hnext =>
        rw [hnext]
        rfl
      · next next hnext =>
        rw [hnext]
        rfl

/-- The loop finds the first field of the type, as long as no size wraps. -/
theorem certFindLoop_of_not_wraps {fieldType : UInt16} (hsmall : buf.length < 2 ^ 32)
    {data : List UInt8} (hend : pos + length ≤ buf.length) (hdata : slice buf (pos, length) = data)
    (hwraps : ¬WalkWraps fieldType data) :
    match firstCert fieldType data with
    | none => ∃ e, certFindLoop buf fieldType pos length = .error e ∧ e ≠ .outOfBounds
    | some contents => ∃ field, certFindLoop buf fieldType pos length = .ok field
        ∧ field.contents + field.size ≤ pos + length
        ∧ slice buf (field.contents, field.size) = contents := by
  induction hn : data.length using Nat.strong_induction_on generalizing data pos length with
  | _ n ih =>
      have hhere : ¬CertWraps data := fun h => hwraps (.here h)
      have hget := certFieldGet_of_not_wraps hend hsmall hdata hhere
      have hnext := certFieldNext_of_not_wraps hend hsmall hdata hhere
      rw [certFindLoop_eq]
      cases hsplit : splitCert data with
      | none =>
          rw [hsplit] at hget
          obtain ⟨e, hget, hne⟩ := hget
          rw [firstCert_of_none hsplit, hget]
          exact ⟨e, rfl, hne⟩
      | some s =>
          rw [hsplit] at hget hnext
          obtain ⟨hget, hcontents, hlength, hrest⟩ := hget
          dsimp only at hnext
          rw [firstCert_of_some hsplit, hget, hnext]
          cases hsame : sameCertType s.fieldType fieldType with
          | true =>
              refine ⟨⟨s.fieldType, pos + certStart data, s.contents.length⟩, ?_, ?_, hcontents⟩
              · exact if_pos hsame
              · dsimp only
                omega
          | false =>
              have hlater := ih s.rest.length (hn ▸ length_rest_of_splitCert hsplit)
                (show pos + certStart data + s.contents.length + s.rest.length ≤ buf.length by omega)
                hrest (fun h => hwraps (.next hsplit hsame h)) rfl
              have hloop : (do
                  let field ← Except.ok ⟨s.fieldType, pos + certStart data, s.contents.length⟩
                  let next ← Except.ok (pos + certStart data + s.contents.length, s.rest.length)
                  if sameCertType field.fieldType fieldType then .ok field
                  else certFindLoop buf fieldType next.1 next.2 : Except CertErr CertField)
                  = certFindLoop buf fieldType (pos + certStart data + s.contents.length)
                    s.rest.length :=
                if_neg (by rw [hsame]; exact Bool.false_ne_true)
              rw [hloop, if_neg Bool.false_ne_true]
              cases hfirst : firstCert fieldType s.rest with
              | none =>
                  rw [hfirst] at hlater
                  exact hlater
              | some contents =>
                  rw [hfirst] at hlater
                  obtain ⟨field, hfound, hin, hcontents⟩ := hlater
                  exact ⟨field, hfound, by omega, hcontents⟩

/-- A size that wraps takes the loop out of the buffer. -/
theorem certFindLoop_of_wraps {fieldType : UInt16} (hsmall : buf.length < 2 ^ 32)
    {data : List UInt8} (hwraps : WalkWraps fieldType data) (hend : pos + length ≤ buf.length)
    (hdata : slice buf (pos, length) = data) :
    certFindLoop buf fieldType pos length = .error .outOfBounds := by
  induction hwraps generalizing pos length with
  | here hhere =>
      obtain ⟨field, hget, -⟩ := certFieldGet_of_wraps hend hsmall hdata hhere
      rw [certFindLoop_eq, hget, certFieldNext_of_wraps hend hsmall hdata hhere]
      rfl
  | next hsplit hsame hrest ih =>
      rename_i data s
      by_cases hhere : CertWraps data
      · obtain ⟨field, hget, -⟩ := certFieldGet_of_wraps hend hsmall hdata hhere
        rw [certFindLoop_eq, hget, certFieldNext_of_wraps hend hsmall hdata hhere]
        rfl
      · have hget := certFieldGet_of_not_wraps hend hsmall hdata hhere
        have hnext := certFieldNext_of_not_wraps hend hsmall hdata hhere
        rw [hsplit] at hget hnext
        obtain ⟨hget, -, hlength, hrestData⟩ := hget
        dsimp only at hnext
        rw [certFindLoop_eq, hget, hnext]
        exact (if_neg (by rw [hsame]; exact Bool.false_ne_true)).trans
          (ih (by omega) hrestData)

theorem two_le_of_walkWraps {fieldType : UInt16} {data : List UInt8}
    (h : WalkWraps fieldType data) : 2 ≤ data.length := by
  cases h with
  | here hhere => exact le_trans (by decide) hhere.1
  | next hsplit _ _ =>
      have hstart := certStart_ge data
      unfold splitCert at hsplit
      split at hsplit
      · cases hsplit
      · omega

theorem firstCert_of_short {fieldType : UInt16} {data : List UInt8} (h : data.length < 2) :
    firstCert fieldType data = none := by
  apply firstCert_of_none
  have hstart := certStart_ge data
  unfold splitCert
  exact if_pos (by omega)

theorem certFieldFind_of_not_wraps {fieldType : UInt16} (hsmall : buf.length < 2 ^ 32)
    {data : List UInt8} (hend : pos + length ≤ buf.length) (hdata : slice buf (pos, length) = data)
    (hwraps : ¬WalkWraps fieldType data) :
    match firstCert fieldType data with
    | none => ∃ e, certFieldFind buf pos length fieldType = .error e ∧ e ≠ .outOfBounds
    | some contents => ∃ field, certFieldFind buf pos length fieldType = .ok field
        ∧ field.contents + field.size ≤ pos + length
        ∧ slice buf (field.contents, field.size) = contents := by
  unfold certFieldFind
  by_cases hshort : length < 2
  · have hlength : data.length = length := by rw [← hdata, length_slice hend]
    rw [firstCert_of_short (by omega)]
    exact ⟨.invalidParam, if_pos hshort, nofun⟩
  · rw [if_neg hshort]
    exact certFindLoop_of_not_wraps hsmall hend hdata hwraps

theorem certFieldFind_of_wraps {fieldType : UInt16} (hsmall : buf.length < 2 ^ 32)
    {data : List UInt8} (hwraps : WalkWraps fieldType data) (hend : pos + length ≤ buf.length)
    (hdata : slice buf (pos, length) = data) :
    certFieldFind buf pos length fieldType = .error .outOfBounds := by
  have hlength : data.length = length := by rw [← hdata, length_slice hend]
  have htwo := two_le_of_walkWraps hwraps
  unfold certFieldFind
  rw [if_neg (by omega)]
  exact certFindLoop_of_wraps hsmall hwraps hend hdata

/-- Level by level the search reaches the contents of the path. -/
theorem certFindPathLoop_of_not_wraps {path : List UInt16} (hsmall : buf.length < 2 ^ 32)
    {data : List UInt8} (hend : pos + length ≤ buf.length) (hdata : slice buf (pos, length) = data)
    (hwraps : ¬PathWraps path data) :
    match pathCert path data with
    | none => ∃ e, certFindPathLoop buf pos length path = .error e ∧ e ≠ .outOfBounds
    | some contents => ∃ place, certFindPathLoop buf pos length path = .ok place
        ∧ place.1 + place.2 ≤ pos + length ∧ slice buf place = contents := by
  induction path generalizing pos length data with
  | nil => exact ⟨(pos, length), rfl, le_rfl, hdata⟩
  | cons fieldType path ih =>
      have hfind := certFieldFind_of_not_wraps hsmall hend hdata
        (fun h => hwraps (.walk h) : ¬WalkWraps fieldType data)
      unfold pathCert certFindPathLoop
      cases hfirst : firstCert fieldType data with
      | none =>
          rw [hfirst] at hfind
          obtain ⟨e, hfind, hne⟩ := hfind
          rw [hfind]
          exact ⟨e, rfl, hne⟩
      | some contents =>
          rw [hfirst] at hfind
          obtain ⟨field, hfind, hin, hcontents⟩ := hfind
          rw [hfind]
          have hlevel := ih (by omega) hcontents fun h => hwraps (.inside hfirst h)
          show match pathCert path contents with
            | none => ∃ e, certFindPathLoop buf field.contents field.size path = .error e ∧ _
            | some contents => ∃ place, certFindPathLoop buf field.contents field.size path = .ok place
                ∧ _ ∧ _
          cases hpath : pathCert path contents with
          | none =>
              rw [hpath] at hlevel
              exact hlevel
          | some found =>
              rw [hpath] at hlevel
              obtain ⟨place, hloop, hinner, hfound⟩ := hlevel
              exact ⟨place, hloop, hinner.trans hin, hfound⟩

theorem certFindPathLoop_of_wraps {path : List UInt16} (hsmall : buf.length < 2 ^ 32)
    {data : List UInt8} (hwraps : PathWraps path data) (hend : pos + length ≤ buf.length)
    (hdata : slice buf (pos, length) = data) :
    certFindPathLoop buf pos length path = .error .outOfBounds := by
  induction hwraps generalizing pos length with
  | walk hwalk =>
      unfold certFindPathLoop
      rw [certFieldFind_of_wraps hsmall hwalk hend hdata]
      rfl
  | inside hfirst hinner ih =>
      rename_i fieldType path data contents
      unfold certFindPathLoop
      by_cases hwalk : WalkWraps fieldType data
      · rw [certFieldFind_of_wraps hsmall hwalk hend hdata]
        rfl
      · have hfind := certFieldFind_of_not_wraps hsmall hend hdata hwalk
        rw [hfirst] at hfind
        obtain ⟨field, hfind, hin, hcontents⟩ := hfind
        rw [hfind]
        exact ih (by omega) hcontents

end Region

/-! ## safety -/

section Safety

variable {buf : List UInt8} {fieldType : UInt16} {path : List UInt16}

/-- On a whole buffer the functions stay inside it. -/
structure CertSafe (buf : List UInt8) (fieldType : UInt16) (path : List UInt16) : Prop where
  get : ∀ field, certFieldGet buf 0 buf.length = .ok field →
    field.contents + field.size ≤ buf.length
  next : certFieldNext buf 0 buf.length ≠ .error .outOfBounds ∧ ∀ pos length,
    certFieldNext buf 0 buf.length = .ok (pos, length) → 2 ≤ pos ∧ pos + length = buf.length
  find : certFieldFind buf 0 buf.length fieldType ≠ .error .outOfBounds ∧ ∀ field,
    certFieldFind buf 0 buf.length fieldType = .ok field → field.contents + field.size ≤ buf.length
  findPath : certFieldFindPath buf 0 buf.length path ≠ .error .outOfBounds ∧ ∀ pos length,
    certFieldFindPath buf 0 buf.length path = .ok (pos, length) → pos + length ≤ buf.length

theorem slice_whole (buf : List UInt8) : slice buf (0, buf.length) = buf := slice_all buf

theorem two_le_of_pathWraps {data : List UInt8} (h : PathWraps path data) : 2 ≤ data.length := by
  cases h with
  | walk hwalk => exact two_le_of_walkWraps hwalk
  | inside hfirst _ =>
      by_contra hshort
      rw [firstCert_of_short (Nat.not_le.mp hshort)] at hfirst
      cases hfirst

/-- The functions stay inside a buffer exactly when no size that they meet wraps. -/
theorem certSafe_iff (hsmall : buf.length < 2 ^ 32) :
    CertSafe buf fieldType path ↔ ¬WalkWraps fieldType buf ∧ ¬PathWraps path buf := by
  have hend : 0 + buf.length ≤ buf.length := by omega
  constructor
  · intro hsafe
    constructor
    · intro hwraps
      exact hsafe.find.1 (certFieldFind_of_wraps hsmall hwraps hend (slice_whole buf))
    · intro hwraps
      have htwo := two_le_of_pathWraps hwraps
      have hne : path ≠ [] := by
        intro hnil
        subst hnil
        cases hwraps
      apply hsafe.findPath.1
      unfold certFieldFindPath
      rw [if_neg (by omega), if_neg hne]
      exact certFindPathLoop_of_wraps hsmall hwraps hend (slice_whole buf)
  · rintro ⟨hwalk, hpath⟩
    have hhere : ¬CertWraps buf := fun h => hwalk (.here h)
    have hget := certFieldGet_of_not_wraps hend hsmall (slice_whole buf) hhere
    have hnext := certFieldNext_of_not_wraps hend hsmall (slice_whole buf) hhere
    have hfind := certFieldFind_of_not_wraps hsmall hend (slice_whole buf) hwalk
    have hloop := certFindPathLoop_of_not_wraps hsmall hend (slice_whole buf) hpath
    constructor
    · intro field hfield
      cases hsplit : splitCert buf with
      | none =>
          rw [hsplit] at hget
          obtain ⟨e, hget, -⟩ := hget
          rw [hget] at hfield
          cases hfield
      | some s =>
          rw [hsplit] at hget
          obtain ⟨hget, -, hlength, -⟩ := hget
          rw [hget] at hfield
          cases hfield
          dsimp only
          omega
    · cases hsplit : splitCert buf with
      | none =>
          rw [hsplit] at hnext
          obtain ⟨e, hnext, hne⟩ := hnext
          rw [hnext]
          exact ⟨fun h => hne (Except.error.inj h), nofun⟩
      | some s =>
          rw [hsplit] at hnext hget
          obtain ⟨-, -, hlength, -⟩ := hget
          dsimp only at hnext
          rw [hnext]
          refine ⟨nofun, ?_⟩
          intro pos length hok
          cases hok
          have hstart := certStart_ge buf
          omega
    · cases hfirst : firstCert fieldType buf with
      | none =>
          rw [hfirst] at hfind
          obtain ⟨e, hfind, hne⟩ := hfind
          rw [hfind]
          exact ⟨fun h => hne (Except.error.inj h), nofun⟩
      | some contents =>
          rw [hfirst] at hfind
          obtain ⟨field, hfind, hin, -⟩ := hfind
          rw [hfind]
          refine ⟨nofun, ?_⟩
          intro field' hok
          cases hok
          omega
    · unfold certFieldFindPath
      by_cases hshort : buf.length < 2
      · rw [if_pos hshort]
        exact ⟨nofun, nofun⟩
      · rw [if_neg hshort]
        by_cases hnil : path = []
        · rw [if_pos hnil]
          exact ⟨nofun, nofun⟩
        · rw [if_neg hnil]
          cases hfound : pathCert path buf with
          | none =>
              rw [hfound] at hloop
              obtain ⟨e, hloop, hne⟩ := hloop
              rw [hloop]
              exact ⟨fun h => hne (Except.error.inj h), nofun⟩
          | some contents =>
              rw [hfound] at hloop
              obtain ⟨place, hloop, hin, -⟩ := hloop
              rw [hloop]
              refine ⟨nofun, ?_⟩
              intro pos length hok
              cases hok
              omega

/-- A field of type 0x0010 with two bytes, and one of type 0x0100 with no bytes. -/
theorem certSafe_iff_two : CertSafe [0x00, 0x12, 0x61, 0x62, 0x01, 0x00] 0x0100 [0x0010] := by
  have hfirst : splitCert [0x00, 0x12, 0x61, 0x62, 0x01, 0x00]
      = some ⟨0x0012, [0x61, 0x62], [0x01, 0x00]⟩ := rfl
  have hsecond : splitCert [0x01, 0x00] = some ⟨0x0100, [], []⟩ := rfl
  have hwalk : ¬WalkWraps 0x0100 [0x00, 0x12, 0x61, 0x62, 0x01, 0x00] := by
    intro h
    cases h with
    | here h => exact absurd h (by decide)
    | next hsplit _ h =>
        obtain rfl := Option.some.inj (hfirst.symm.trans hsplit)
        cases h with
        | here h => exact absurd h (by decide)
        | next hsplit hsame _ =>
            obtain rfl := Option.some.inj (hsecond.symm.trans hsplit)
            exact absurd hsame (by decide)
  have hpath : ¬PathWraps [0x0010] [0x00, 0x12, 0x61, 0x62, 0x01, 0x00] := by
    intro h
    cases h with
    | walk h =>
        cases h with
        | here h => exact absurd h (by decide)
        | next hsplit hsame _ =>
            obtain rfl := Option.some.inj (hfirst.symm.trans hsplit)
            exact absurd hsame (by decide)
    | inside _ h => cases h
  exact (certSafe_iff (by decide)).mpr ⟨hwalk, hpath⟩

/-- A size of 2^32 - 1 is accepted in a buffer of six bytes. -/
theorem not_certSafe_of_long_size :
    certFieldGet [0x00, 0x0F, 0xFF, 0xFF, 0xFF, 0xFF] 0 6 = .ok ⟨0x000F, 6, 2 ^ 32 - 1⟩
      ∧ ¬CertSafe [0x00, 0x0F, 0xFF, 0xFF, 0xFF, 0xFF] 0 [] := by
  have hget : certFieldGet [0x00, 0x0F, 0xFF, 0xFF, 0xFF, 0xFF] 0 6
      = .ok ⟨0x000F, 6, 2 ^ 32 - 1⟩ := by decide
  refine ⟨hget, fun hsafe => ?_⟩
  exact absurd (hsafe.get _ hget) (by decide)

end Safety

end Tilibs.Files
