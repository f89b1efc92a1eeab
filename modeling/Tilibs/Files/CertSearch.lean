import Tilibs.Files.Cert

/-!
# Tilibs.Files.CertSearch

What `tifiles_cert_field_find` and `tifiles_cert_field_find_path` find in well-formed fields.
-/

namespace Tilibs.Files

open Lib

/-! ## well-formed fields -/

/-- The form of the size of a field. -/
inductive CertForm
  | nibble
  | byte
  | word
  | long
  deriving DecidableEq

namespace CertForm

/-- The number of bytes behind the type. -/
def sizeBytes : CertForm → Nat
  | nibble => 0
  | byte => 1
  | word => 2
  | long => 4

/-- The sizes that the form has room for are below this one. -/
def limit : CertForm → Nat
  | nibble => 0xD
  | byte => 256
  | word => 256 ^ 2
  | long => 256 ^ 4

/-- The low nibble of the first two bytes. -/
def low (size : Nat) : CertForm → Nat
  | nibble => size
  | byte => 0xD
  | word => 0xE
  | long => 0xF

theorem low_lt {form : CertForm} {size : Nat} (h : size < form.limit) : form.low size < 16 := by
  cases form <;> simp only [low, limit] at * <;> omega

end CertForm

/-- A field: its type has the low nibble free, and its contents fit the form of the size. -/
structure CertEntry where
  fieldType : UInt16
  form : CertForm
  contents : List UInt8
  clean : fieldType.toNat % 16 = 0
  fits : contents.length < form.limit

namespace CertEntry

variable (entry : CertEntry)

/-- The number that the first two bytes hold. -/
def fieldId : Nat := entry.fieldType.toNat + entry.form.low entry.contents.length

/-- The bytes of a field. -/
def bytes : List UInt8 :=
  putBE 2 entry.fieldId ++ putBE entry.form.sizeBytes entry.contents.length ++ entry.contents

/-- The number of bytes before the contents. -/
def headerLength : Nat := 2 + entry.form.sizeBytes

theorem length_bytes : entry.bytes.length = entry.headerLength + entry.contents.length := by
  unfold bytes headerLength
  rw [List.length_append, List.length_append, length_putBE, length_putBE]

theorem fieldId_lt : entry.fieldId < 256 ^ 2 := by
  have hlow := CertForm.low_lt entry.fits
  have hclean := entry.clean
  have htype := entry.fieldType.toNat_lt
  unfold fieldId
  omega

theorem fieldId_mod : entry.fieldId % 16 = entry.form.low entry.contents.length := by
  have hlow := CertForm.low_lt entry.fits
  have hclean := entry.clean
  unfold fieldId
  omega

theorem certSizeBytes_fieldId : certSizeBytes entry.fieldId = entry.form.sizeBytes := by
  have hfits := entry.fits
  unfold certSizeBytes
  rw [entry.fieldId_mod]
  cases hform : entry.form with
  | nibble =>
      rw [hform] at hfits
      have hlt : entry.contents.length < 0xD := hfits
      show (if entry.contents.length = 0xD then 1 else if entry.contents.length = 0xE then 2
        else if entry.contents.length = 0xF then 4 else 0) = 0
      rw [if_neg (by omega), if_neg (by omega), if_neg (by omega)]
  | byte => rfl
  | word => rfl
  | long => rfl

variable (rest : List UInt8)

theorem getBE_take_bytes : getBE ((entry.bytes ++ rest).take 2) = entry.fieldId := by
  unfold bytes
  rw [List.append_assoc, List.append_assoc, List.take_left' (length_putBE _ _),
    getBE_putBE entry.fieldId_lt]

theorem certStart_bytes : certStart (entry.bytes ++ rest) = entry.headerLength := by
  unfold certStart headerLength
  rw [getBE_take_bytes, certSizeBytes_fieldId]

theorem certLen_bytes : certLen (entry.bytes ++ rest) = entry.contents.length := by
  have hfits := entry.fits
  have hsize : getBE (((entry.bytes ++ rest).drop 2).take entry.form.sizeBytes)
      = entry.contents.length % 256 ^ entry.form.sizeBytes := by
    unfold bytes
    rw [List.append_assoc, List.append_assoc, List.drop_left' (length_putBE _ _),
      List.take_left' (length_putBE _ _), getBE_putBE_mod]
  unfold certLen certFieldLen
  rw [getBE_take_bytes, certSizeBytes_fieldId, entry.fieldId_mod, hsize]
  cases hform : entry.form with
  | nibble => rfl
  | byte =>
      rw [hform] at hfits
      exact Nat.mod_eq_of_lt hfits
  | word =>
      rw [hform] at hfits
      exact Nat.mod_eq_of_lt hfits
  | long =>
      rw [hform] at hfits
      exact Nat.mod_eq_of_lt hfits

/-- The bytes of a field are taken off as that field. -/
theorem splitCert_bytes : splitCert (entry.bytes ++ rest)
    = some ⟨UInt16.ofNat entry.fieldId, entry.contents, rest⟩ := by
  have hheader : (putBE 2 entry.fieldId
      ++ putBE entry.form.sizeBytes entry.contents.length).length = entry.headerLength := by
    rw [List.length_append, length_putBE, length_putBE]
    rfl
  unfold splitCert
  rw [certStart_bytes, certLen_bytes, getBE_take_bytes, ← entry.length_bytes,
    if_neg (by rw [List.length_append]; omega), List.drop_left]
  unfold bytes
  rw [List.append_assoc, List.drop_left' hheader, List.take_left]

/-- In a buffer of less than 2^32 bytes the size of a field that is there does not wrap. -/
theorem not_certWraps_bytes (hsmall : (entry.bytes ++ rest).length < 2 ^ 32) :
    ¬CertWraps (entry.bytes ++ rest) := by
  rw [certWraps_iff, certStart_bytes, certLen_bytes, ← entry.length_bytes]
  rw [List.length_append] at hsmall
  omega

/-- Masking the low nibble out. -/
theorem and_mask {n : Nat} (h : n < 2 ^ 16) : n &&& 0xFFF0 = n / 16 * 16 := by
  have hdiv : (n &&& 0xFFF0) / 2 ^ 4 = n / 16 := by
    rw [Nat.and_div_two_pow]
    show n / 2 ^ 4 &&& 2 ^ 12 - 1 = n / 16
    rw [Nat.and_two_pow_sub_one_eq_mod, Nat.mod_eq_of_lt (by omega)]
    rfl
  have hmod : (n &&& 0xFFF0) % 2 ^ 4 = 0 := by
    rw [Nat.and_mod_two_pow]
    exact Nat.and_zero _
  omega

theorem sameCertType_fieldId (fieldType : UInt16) :
    sameCertType (UInt16.ofNat entry.fieldId) fieldType
      = sameCertType entry.fieldType fieldType := by
  have hlow := CertForm.low_lt entry.fits
  have hclean := entry.clean
  have hmask : UInt16.ofNat entry.fieldId &&& 0xFFF0 = entry.fieldType &&& 0xFFF0 := by
    have hliteral : (0xFFF0 : UInt16).toNat = 0xFFF0 := rfl
    apply UInt16.toNat_inj.mp
    rw [UInt16.toNat_and, UInt16.toNat_and, UInt16.toNat_ofNat_of_lt' entry.fieldId_lt, hliteral]
    rw [and_mask entry.fieldId_lt, and_mask entry.fieldType.toNat_lt]
    unfold fieldId
    omega
  unfold sameCertType
  rw [hmask]

end CertEntry

/-! ## the search -/

/-- The bytes of fields one after the other. -/
def certBytes (entries : List CertEntry) : List UInt8 := entries.flatMap CertEntry.bytes

/-- A search for the type goes past a field. -/
def CertEntry.Skipped (fieldType : UInt16) (entry : CertEntry) : Prop :=
  sameCertType entry.fieldType fieldType = false

/-- Contents that a path leads to, where at each level the field is the first of its type. -/
inductive CertReached : List UInt16 → List UInt8 → List UInt8 → Prop
  | here {data : List UInt8} : CertReached [] data data
  | inside {fieldType : UInt16} {path : List UInt16} {before : List CertEntry} {entry : CertEntry}
      {rest found : List UInt8} : (∀ skipped ∈ before, skipped.Skipped fieldType) →
      sameCertType entry.fieldType fieldType → CertReached path entry.contents found →
      CertReached (fieldType :: path) (certBytes before ++ (entry.bytes ++ rest)) found

/-- A path that has no field of its type at some level. -/
inductive CertLost : List UInt16 → List UInt8 → Prop
  | absent {fieldType : UInt16} {path : List UInt16} {entries : List CertEntry} :
      (∀ skipped ∈ entries, skipped.Skipped fieldType) →
      CertLost (fieldType :: path) (certBytes entries)
  | inside {fieldType : UInt16} {path : List UInt16} {before : List CertEntry} {entry : CertEntry}
      {rest : List UInt8} : (∀ skipped ∈ before, skipped.Skipped fieldType) →
      sameCertType entry.fieldType fieldType → CertLost path entry.contents →
      CertLost (fieldType :: path) (certBytes before ++ (entry.bytes ++ rest))

section Search

variable {buf : List UInt8} {pos length : Nat} {fieldType : UInt16}

/-- A field that is split off its bytes is taken off them, and so is what follows it. -/
theorem certField_of_split (hend : pos + length ≤ buf.length) (hsmall : buf.length < 2 ^ 32)
    {data : List UInt8} (hdata : slice buf (pos, length) = data) (hwraps : ¬CertWraps data)
    {s : CertSplit} (hsplit : splitCert data = some s) :
    certFieldGet buf pos length = .ok ⟨s.fieldType, pos + certStart data, s.contents.length⟩
      ∧ slice buf (pos + certStart data, s.contents.length) = s.contents
      ∧ slice buf (pos + certStart data + s.contents.length, s.rest.length) = s.rest
      ∧ certFieldNext buf pos length
        = .ok (pos + certStart data + s.contents.length, s.rest.length) := by
  have hget := certFieldGet_of_not_wraps hend hsmall hdata hwraps
  have hnext := certFieldNext_of_not_wraps hend hsmall hdata hwraps
  rw [hsplit] at hget hnext
  obtain ⟨hget, hcontents, -, hrest⟩ := hget
  exact ⟨hget, hcontents, hrest, hnext⟩

/-- A field at a place is taken off it. -/
theorem certFieldGet_entry (hsmall : buf.length < 2 ^ 32) (hend : pos + length ≤ buf.length)
    {entry : CertEntry} {rest : List UInt8}
    (hdata : slice buf (pos, length) = entry.bytes ++ rest) :
    certFieldGet buf pos length
        = .ok ⟨UInt16.ofNat entry.fieldId, pos + entry.headerLength, entry.contents.length⟩
      ∧ certFieldNext buf pos length = .ok (pos + entry.bytes.length, rest.length)
      ∧ entry.bytes.length + rest.length = length
      ∧ slice buf (pos + entry.headerLength, entry.contents.length) = entry.contents
      ∧ slice buf (pos + entry.bytes.length, rest.length) = rest := by
  have hlength : (entry.bytes ++ rest).length = length := by rw [← hdata, length_slice hend]
  have hwraps := entry.not_certWraps_bytes rest (by omega)
  obtain ⟨hget, hcontents, hrest, hnext⟩ :=
    certField_of_split hend hsmall hdata hwraps (entry.splitCert_bytes rest)
  rw [entry.certStart_bytes rest] at hget hcontents hrest hnext
  rw [Nat.add_assoc, ← entry.length_bytes] at hrest hnext
  rw [List.length_append] at hlength
  exact ⟨hget, hnext, hlength, hcontents, hrest⟩

/-- One round of the loop at a field of another type. -/
theorem certFindLoop_skip (hsmall : buf.length < 2 ^ 32) (hend : pos + length ≤ buf.length)
    {entry : CertEntry} {rest : List UInt8}
    (hdata : slice buf (pos, length) = entry.bytes ++ rest) (hskip : entry.Skipped fieldType) :
    certFindLoop buf fieldType pos length
      = certFindLoop buf fieldType (pos + entry.bytes.length) rest.length := by
  obtain ⟨hget, hnext, -⟩ := certFieldGet_entry hsmall hend hdata
  rw [certFindLoop_eq, hget, hnext]
  apply if_neg
  show ¬sameCertType (UInt16.ofNat entry.fieldId) fieldType = true
  rw [entry.sameCertType_fieldId, hskip]
  exact Bool.false_ne_true

/-- The loop goes past the fields of other types. -/
theorem certFindLoop_before (hsmall : buf.length < 2 ^ 32) {before : List CertEntry}
    {rest : List UInt8} (hend : pos + length ≤ buf.length)
    (hdata : slice buf (pos, length) = certBytes before ++ rest)
    (hskip : ∀ skipped ∈ before, skipped.Skipped fieldType) :
    certFindLoop buf fieldType pos length
        = certFindLoop buf fieldType (pos + (certBytes before).length) rest.length
      ∧ (certBytes before).length + rest.length = length
      ∧ slice buf (pos + (certBytes before).length, rest.length) = rest := by
  induction before generalizing pos length with
  | nil =>
      have hlength : rest.length = length := by
        rw [← length_slice hend, hdata]
        rfl
      subst hlength
      exact ⟨rfl, Nat.zero_add _, hdata⟩
  | cons entry before ih =>
      have hdata' : slice buf (pos, length) = entry.bytes ++ (certBytes before ++ rest) := by
        rw [hdata, ← List.append_assoc]
        rfl
      obtain ⟨-, -, hlength, -, hrest⟩ := certFieldGet_entry hsmall hend hdata'
      have hround := certFindLoop_skip hsmall hend hdata' (hskip entry (List.mem_cons_self ..))
      obtain ⟨hloop, hmore, hslice⟩ := ih (by omega) hrest
        fun skipped hmem => hskip skipped (List.mem_cons_of_mem _ hmem)
      have hcons : (certBytes (entry :: before)).length
          = entry.bytes.length + (certBytes before).length := by
        unfold certBytes
        rw [List.flatMap_cons, List.length_append]
      rw [hcons, ← Nat.add_assoc]
      exact ⟨hround.trans hloop, by omega, hslice⟩

/-- The first field of the type is found where it is. -/
theorem certFieldFind_first (hsmall : buf.length < 2 ^ 32) (hend : pos + length ≤ buf.length)
    {before : List CertEntry} {entry : CertEntry} {rest : List UInt8}
    (hdata : slice buf (pos, length) = certBytes before ++ (entry.bytes ++ rest))
    (hskip : ∀ skipped ∈ before, skipped.Skipped fieldType)
    (hsame : sameCertType entry.fieldType fieldType) :
    certFieldFind buf pos length fieldType = .ok ⟨UInt16.ofNat entry.fieldId,
      pos + (certBytes before).length + entry.headerLength, entry.contents.length⟩ := by
  obtain ⟨hloop, hlength, hplace⟩ := certFindLoop_before hsmall hend hdata hskip
  obtain ⟨hget, hnext, -⟩ := certFieldGet_entry hsmall (by omega) hplace
  have hheader := entry.length_bytes
  unfold CertEntry.headerLength at hheader
  rw [List.length_append] at hlength
  unfold certFieldFind
  rw [if_neg (by omega), hloop, certFindLoop_eq, hget, hnext]
  apply if_pos
  show sameCertType (UInt16.ofNat entry.fieldId) fieldType = true
  rw [entry.sameCertType_fieldId, hsame]

/-- Without a field of the type the search ends behind the last field. -/
theorem certFieldFind_absent (hsmall : buf.length < 2 ^ 32) (hend : pos + length ≤ buf.length)
    {entries : List CertEntry} (hdata : slice buf (pos, length) = certBytes entries)
    (hskip : ∀ skipped ∈ entries, skipped.Skipped fieldType) :
    certFieldFind buf pos length fieldType = .error .invalidParam := by
  unfold certFieldFind
  split
  · rfl
  · obtain ⟨hloop, -⟩ := certFindLoop_before hsmall hend
      (hdata.trans (List.append_nil _).symm) hskip
    rw [hloop, certFindLoop_eq]
    rfl

/-- A path is followed to the contents that it leads to. -/
theorem certFindPathLoop_reached {path : List UInt16} {data found : List UInt8}
    (hsmall : buf.length < 2 ^ 32) (hreached : CertReached path data found)
    (hend : pos + length ≤ buf.length) (hdata : slice buf (pos, length) = data) :
    ∃ place, certFindPathLoop buf pos length path = .ok place ∧ slice buf place = found := by
  induction hreached generalizing pos length with
  | here => exact ⟨(pos, length), rfl, hdata⟩
  | inside hskip hsame hinside ih =>
      rename_i before entry rest found
      clear hinside
      obtain ⟨-, hlength, hplace⟩ := certFindLoop_before hsmall hend hdata hskip
      obtain ⟨-, -, hinner, hcontents, -⟩ := certFieldGet_entry hsmall (by omega) hplace
      have hheader := entry.length_bytes
      rw [List.length_append] at hlength
      unfold certFindPathLoop
      rw [certFieldFind_first hsmall hend hdata hskip hsame]
      have hin : pos + (certBytes before).length + entry.headerLength + entry.contents.length
          ≤ buf.length := by omega
      exact ih hin hcontents

/-- A path that is lost is not found. -/
theorem certFindPathLoop_lost {path : List UInt16} {data : List UInt8}
    (hsmall : buf.length < 2 ^ 32) (hlost : CertLost path data) (hend : pos + length ≤ buf.length)
    (hdata : slice buf (pos, length) = data) :
    certFindPathLoop buf pos length path = .error .invalidParam := by
  induction hlost generalizing pos length with
  | absent hskip =>
      unfold certFindPathLoop
      rw [certFieldFind_absent hsmall hend hdata hskip]
      rfl
  | inside hskip hsame hinside ih =>
      rename_i before entry rest
      clear hinside
      obtain ⟨-, hlength, hplace⟩ := certFindLoop_before hsmall hend hdata hskip
      obtain ⟨-, -, hinner, hcontents, -⟩ := certFieldGet_entry hsmall (by omega) hplace
      have hheader := entry.length_bytes
      rw [List.length_append] at hlength
      unfold certFindPathLoop
      rw [certFieldFind_first hsmall hend hdata hskip hsame]
      have hin : pos + (certBytes before).length + entry.headerLength + entry.contents.length
          ≤ buf.length := by omega
      exact ih hin hcontents

end Search

/-! ## what is found -/

/-- Of a buffer of fields, the first field of a type is found, and what a path leads to by the
first field of its type at each level; without them the functions fail. -/
structure CertFindsFirst (entries : List CertEntry) (fieldType : UInt16) (path : List UInt16) :
    Prop where
  first : ∀ before entry after, entries = before ++ entry :: after →
    (∀ skipped ∈ before, skipped.Skipped fieldType) → sameCertType entry.fieldType fieldType →
    ∃ field, certFieldFind (certBytes entries) 0 (certBytes entries).length fieldType = .ok field
      ∧ field.contents = (certBytes before).length + entry.headerLength
      ∧ slice (certBytes entries) (field.contents, field.size) = entry.contents
  absent : (∀ skipped ∈ entries, skipped.Skipped fieldType) →
    certFieldFind (certBytes entries) 0 (certBytes entries).length fieldType = .error .invalidParam
  reached : ∀ found, CertReached path (certBytes entries) found →
    ∃ place, certFieldFindPath (certBytes entries) 0 (certBytes entries).length path = .ok place
      ∧ slice (certBytes entries) place = found
  lost : CertLost path (certBytes entries) →
    certFieldFindPath (certBytes entries) 0 (certBytes entries).length path = .error .invalidParam

section Finds

variable {entries : List CertEntry} {fieldType : UInt16} {path : List UInt16}

theorem certBytes_split {before : List CertEntry} {entry : CertEntry} {after : List CertEntry} :
    certBytes (before ++ entry :: after)
      = certBytes before ++ (entry.bytes ++ certBytes after) := by
  unfold certBytes
  rw [List.flatMap_append, List.flatMap_cons]

theorem two_le_of_certReached {data found : List UInt8} (hreached : CertReached path data found)
    (hne : path ≠ []) : 2 ≤ data.length := by
  cases hreached with
  | here => exact absurd rfl hne
  | inside _ _ _ =>
      rename_i entry rest _ _ _
      rw [List.length_append, List.length_append, entry.length_bytes]
      unfold CertEntry.headerLength
      omega

/-- Along a path that is not empty the first fields are found. -/
theorem certFieldFindPath_first (hsmall : (certBytes entries).length < 2 ^ 32) (hne : path ≠ []) :
    CertFindsFirst entries fieldType path := by
  have hend : 0 + (certBytes entries).length ≤ (certBytes entries).length := by omega
  constructor
  · intro before entry after hentries hskip hsame
    have hsplit := (slice_whole (certBytes entries)).trans
      ((congrArg certBytes hentries).trans certBytes_split)
    obtain ⟨-, hlength, hplace⟩ := certFindLoop_before hsmall hend hsplit hskip
    obtain ⟨-, -, -, hcontents, -⟩ := certFieldGet_entry hsmall (by omega) hplace
    rw [certFieldFind_first hsmall hend hsplit hskip hsame]
    exact ⟨_, rfl, by dsimp only; rw [Nat.zero_add], hcontents⟩
  · intro hskip
    exact certFieldFind_absent hsmall hend (slice_whole _) hskip
  · intro found hreached
    have htwo := two_le_of_certReached hreached hne
    unfold certFieldFindPath
    rw [if_neg (by omega), if_neg hne]
    exact certFindPathLoop_reached hsmall hreached hend (slice_whole _)
  · intro hlost
    unfold certFieldFindPath
    rw [if_neg hne]
    split
    · rfl
    · exact certFindPathLoop_lost hsmall hlost hend (slice_whole _)

/-- A field with contents that are a field. -/
def nestedEntry : CertEntry where
  fieldType := 0x0110
  form := .byte
  contents := [0x02, 0x02, 0x61, 0x62]
  clean := by decide
  fits := by decide

/-- A path of two levels. -/
theorem certFieldFindPath_first_nested :
    CertFindsFirst [nestedEntry, nestedEntry] 0x0110 [0x0110, 0x0200] :=
  certFieldFindPath_first (by decide) (by decide)

/-- An empty path leads nowhere: the function refuses it. -/
theorem not_certFindsFirst_of_empty_path : ¬CertFindsFirst [nestedEntry] 0x0110 [] := by
  intro h
  obtain ⟨place, hplace, -⟩ := h.reached (certBytes [nestedEntry]) .here
  have hrefused : certFieldFindPath (certBytes [nestedEntry]) 0 (certBytes [nestedEntry]).length []
      = .error .invalidParam := rfl
  rw [hrefused] at hplace
  cases hplace

end Finds

end Tilibs.Files
