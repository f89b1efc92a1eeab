import Mathlib
import Tilibs.CalcModel
import Tilibs.Lib.Bytes

/-!
# Tilibs.Files.FileTypes

How `filetypes.cc` tells what kind of file it has: by magic numbers in the first
4 KB of the file and by the extension of its name.  The readers ask these
functions before they open a file.

A file is given by its name and its bytes; it is a regular file of the file system.
-/

namespace Tilibs.Files

open Lib

/-! ## text -/

/-- The bytes of an ASCII literal. -/
def ascii (s : String) : List UInt8 := s.toByteArray.data.toList

/-- `toupper` in the C locale. -/
def toupper (b : UInt8) : UInt8 := if 0x61 ≤ b ∧ b ≤ 0x7A then b - 0x20 else b

/-- `g_ascii_tolower` -/
def asciiTolower (b : UInt8) : UInt8 := if 0x41 ≤ b ∧ b ≤ 0x5A then b + 0x20 else b

/-- `!g_ascii_strcasecmp(s, t)` -/
def sameNoCase (s t : List UInt8) : Bool := s.map asciiTolower == t.map asciiTolower

/-- `tifiles_fext_get`: what follows the last dot. -/
def tifilesFextGet (filename : List UInt8) : List UInt8 :=
  if 0x2E ∈ filename then (filename.reverse.takeWhile (· ≠ 0x2E)).reverse else []

/-! ## magic numbers -/

/-- `TIFILES_HEAD_READ_CAP` -/
def headReadCap : Nat := 4096

/-- The buffer of `tifiles_mem_reader_create_from_file`, which fails on an empty file. -/
def fileHead (bytes : List UInt8) : Option (List UInt8) :=
  if bytes.isEmpty then none else some (bytes.take headReadCap)

/-- `buffer_has_ti_header` -/
def bufferHasTiHeader (buf : List UInt8) : Bool :=
  if buf.length < 8 then false
  else
    let magic := cstr ((buf.take 8).map toupper)
    magic == ascii "**TI73**" || magic == ascii "**TI82**"
      || magic == ascii "**TI83**" || magic == ascii "**TI83F*"
      || magic == ascii "**TI85**" || magic == ascii "**TI86**"
      || magic == ascii "**TI89**" || magic == ascii "**TI92**"
      || magic == ascii "**TI92P*" || magic == ascii "**V200**"
      || magic == ascii "**TIFL**" || magic == ascii "**TICBL*"
      || magic.take 3 == ascii "*TI"

/-- `TIB_SIGNATURE` -/
def tibSignature : List UInt8 := ascii "Advanced Mathematics Software"

/-- `buffer_has_tib_header` -/
def bufferHasTibHeader (buf : List UInt8) : Bool :=
  if buf.length < 22 + (tibSignature.length + 1) + 1 then false
  else (buf.drop 22).take tibSignature.length == tibSignature

/-- `buffer_has_tig_header` -/
def bufferHasTigHeader (buf : List UInt8) : Bool :=
  if buf.length < 4 then false
  else buf.take 4 == [0x50, 0x4B, 0x03, 0x04] || buf.take 4 == [0x50, 0x4B, 0x05, 0x06]

/-- `buffer_has_tifl_header` without its two outputs: whether there is a first header. -/
def bufferHasTiflHeader (buf : List UInt8) : Bool :=
  if buf.length < 78 then false else buf.take 8 == ascii "**TIFL**"

/-- `OS_SIGNATURE_PREFIX` -/
def osSignaturePrefix : List UInt8 := ascii "TI-Nspire."

/-- The endings of an OS file's first signature. -/
def osSignatureSuffixes : List (List UInt8) :=
  [ascii "tno ", ascii "tnc ", ascii "nosamples.tno ", ascii "tco ", ascii "tcc ",
    ascii "tmo ", ascii "tmc ", ascii "tlo ", ascii "tld "]

/-- `TCO2_SIGNATURE`, `TCC2_SIGNATURE` and `TCT2_SIGNATURE` -/
def cx2Signatures : List (List UInt8) :=
  [ascii "TI-Nspire.tco2 ", ascii "TI-Nspire.tcc2 ", ascii "TI-Nspire.tct2 "]

/-- The search for a CX II signature that ends within the given bytes. -/
def hasCx2Signature : List UInt8 → Bool
  | [] => false
  | b :: bs => cx2Signatures.any (fun sig => sig.isPrefixOf (b :: bs)) || hasCx2Signature bs

/-- `buffer_has_tno_header` -/
def bufferHasTnoHeader (buf : List UInt8) : Bool :=
  if buf.length < 1024 then false
  else if (ascii "__OSEXT__1 ").isPrefixOf buf then true
  else if osSignaturePrefix.isPrefixOf buf then
    osSignatureSuffixes.any fun suffix => suffix.isPrefixOf (buf.drop osSignaturePrefix.length)
  else hasCx2Signature (buf.take 1024)

/-- `buffer_is_ti` -/
def bufferIsTi (buf : List UInt8) : Bool :=
  bufferHasTiHeader buf || bufferHasTibHeader buf || bufferHasTigHeader buf
    || bufferHasTiflHeader buf || bufferHasTnoHeader buf

/-- `buffer_is_flash` -/
def bufferIsFlash (buf : List UInt8) : Bool :=
  bufferHasTibHeader buf || bufferHasTnoHeader buf || bufferHasTiflHeader buf

/-! ## extensions -/

/-- The extensions of `GROUP_FILE_EXT` that are not empty, in the order of the models. -/
def groupFileExt : List (List UInt8) :=
  [ascii "73g", ascii "82g", ascii "83g", ascii "8Xg", ascii "8Xg", ascii "85g", ascii "86g",
    ascii "89g", ascii "89g", ascii "92g", ascii "9Xg", ascii "V2g", ascii "8Xg", ascii "89g",
    ascii "8Xg", ascii "8Xg", ascii "8Xg", ascii "8Xg", ascii "8Xg", ascii "8xg", ascii "8xg"]

/-- The extensions of `BACKUP_FILE_EXT` that are not empty. -/
def backupFileExt : List (List UInt8) :=
  [ascii "73b", ascii "82b", ascii "83b", ascii "8Xb", ascii "8Xb", ascii "85b", ascii "86b",
    ascii "89g", ascii "89g", ascii "92b", ascii "9Xg", ascii "V2g", ascii "8Xg", ascii "89g",
    ascii "8Cb", ascii "8Cb", ascii "8Xb", ascii "8Xb", ascii "8Xb"]

/-- `evo_exts` -/
def evoExts : List (List UInt8) :=
  [ascii "8xn2", ascii "8xl2", ascii "8xm2", ascii "8xy2", ascii "8xs2", ascii "8xp2",
    ascii "8ci2", ascii "8xd2", ascii "8xw2", ascii "8xz2", ascii "8xt2", ascii "8xv2",
    ascii "8xpy2", ascii "8mp2", ascii "8xg2", ascii "8ca2", ascii "8ek2"]

/-- `evo_os_exts` -/
def evoOsExts : List (List UInt8) :=
  [ascii "84b2", ascii "83b2", ascii "84tb2", ascii "84pk2", ascii "83pk2", ascii "84tpk2"]

/-- `tifiles_fext_is_evo` -/
def tifilesFextIsEvo (ext : List UInt8) : Bool := evoExts.any (sameNoCase ext)

/-- `tifiles_fext_is_evo_os` -/
def tifilesFextIsEvoOs (ext : List UInt8) : Bool := evoOsExts.any (sameNoCase ext)

/-! ## kinds of files -/

/-- `tifiles_file_has_ti_header` -/
def tifilesFileHasTiHeader (bytes : List UInt8) : Bool :=
  (fileHead bytes).any bufferHasTiHeader

/-- What `tifiles_file_is_group` and `tifiles_file_is_backup` share: a TI file with
an extension from a table. -/
def fileHasExtOf (exts : List (List UInt8)) (filename bytes : List UInt8) : Bool :=
  !(tifilesFextGet filename).isEmpty
    && (fileHead bytes).any bufferIsTi && exts.any (sameNoCase (tifilesFextGet filename))

/-- `tifiles_file_is_group` -/
def tifilesFileIsGroup (filename bytes : List UInt8) : Bool :=
  fileHasExtOf groupFileExt filename bytes

/-- `tifiles_file_is_backup` -/
def tifilesFileIsBackup (filename bytes : List UInt8) : Bool :=
  fileHasExtOf backupFileExt filename bytes

/-- `tifiles_file_is_ti` -/
def tifilesFileIsTi (filename bytes : List UInt8) : Bool :=
  let e := tifilesFextGet filename
  match fileHead bytes with
  | none => false
  | some buf =>
      bufferIsTi buf
        || !e.isEmpty && (sameNoCase e (ascii "tns") || tifilesFextIsEvo e || tifilesFextIsEvoOs e)

/-- `tifiles_file_is_single` -/
def tifilesFileIsSingle (filename bytes : List UInt8) : Bool :=
  let e := tifilesFextGet filename
  match fileHead bytes with
  | none => false
  | some buf =>
      (bufferIsTi buf || sameNoCase e (ascii "tns") || tifilesFextIsEvo e)
        && !tifilesFileIsGroup filename bytes
        && !tifilesFileIsBackup filename bytes
        && !bufferIsFlash buf
        && !tifilesFextIsEvoOs e
        && !bufferHasTigHeader buf

/-- `tifiles_file_is_regular` -/
def tifilesFileIsRegular (filename bytes : List UInt8) : Bool :=
  tifilesFileIsTi filename bytes
    && (tifilesFileIsSingle filename bytes || tifilesFileIsGroup filename bytes)

/-! ## signatures -/

/-- `tifiles_calctype2signature`: NULL for the models that the switch leaves out. -/
def tifilesCalctype2signature : CalcModel → Option (List UInt8)
  | .none => some (ascii "**TI??**")
  | .ti73 => some (ascii "**TI73**")
  | .ti82 => some (ascii "**TI82**")
  | .ti83 | .cbl | .cbr => some (ascii "**TI83**")
  | .ti83p | .ti84p | .ti84pc | .ti84pUsb | .ti84pcUsb | .ti83pceUsb | .ti84pceUsb | .ti82aUsb
  | .ti84ptUsb | .ti82aepUsb | .cbl2 | .cbr2 | .labpro => some (ascii "**TI83F*")
  | .ti85 => some (ascii "**TI85**")
  | .ti86 => some (ascii "**TI86**")
  | .ti89 | .ti89t | .ti89tUsb => some (ascii "**TI89**")
  | .ti92 => some (ascii "**TI92**")
  | .ti92p | .v200 => some (ascii "**TI92P*")
  | .labproUsb | .easytempGotempUsb | .easylinkGolinkUsb | .cbr2GomotionUsb | .godirectUsb => none
  | .ti84evoUsb | .ti83evoUsb | .ti84evotUsb | .ti80 | .nspire | .nspireCradle
  | .nspireClickpad | .nspireClickpadCas | .nspireTouchpad | .nspireTouchpadCas
  | .nspireCx | .nspireCxCas | .nspireCmc | .nspireCmcCas
  | .nspireCxii | .nspireCxiiCas | .nspireCxiit | .nspireCxiitCas | .tipresenter => some []

/-- `tifiles_signature2calctype` -/
def tifilesSignature2calctype (s : List UInt8) : CalcModel :=
  if sameNoCase s (ascii "**TI73**") then .ti73
  else if sameNoCase s (ascii "**TI82**") then .ti82
  else if sameNoCase s (ascii "**TI83**") then .ti83
  else if sameNoCase s (ascii "**TI83F*") then .ti83p
  else if sameNoCase s (ascii "**TI85**") then .ti85
  else if sameNoCase s (ascii "**TI86**") then .ti86
  else if sameNoCase s (ascii "**TI89**") then .ti89
  else if sameNoCase s (ascii "**TI92**") then .ti92
  else if sameNoCase s (ascii "**TI92P*") then .ti92p
  else if sameNoCase s (ascii "**V200**") then .v200
  else if sameNoCase s (ascii "**TICBL*") then .cbl2
  else .none

/-- Only the first eight bytes count for the header of a TI file. -/
theorem bufferHasTiHeader_append {sig : List UInt8} (hlen : sig.length = 8) (rest : List UInt8) :
    bufferHasTiHeader (sig ++ rest) = bufferHasTiHeader sig := by
  have hshort : ¬sig.length < 8 := by omega
  have hlong : ¬(sig ++ rest).length < 8 := by rw [List.length_append]; omega
  unfold bufferHasTiHeader
  rw [if_neg hshort, if_neg hlong, List.take_left' hlen, List.take_of_length_le hlen.le]

/-- The signatures of the TI-8x models but the TI-86. -/
def ti8xSignatures : List (List UInt8) :=
  [ascii "**TI73**", ascii "**TI82**", ascii "**TI83**", ascii "**TI83F*", ascii "**TI85**"]

/-- A signature of eight characters that is recognised. -/
def IsSignature (sig : List UInt8) : Prop :=
  sig.length = 8 ∧ (∀ b ∈ sig, b ≠ 0) ∧ bufferHasTiHeader sig = true
    ∧ tifilesSignature2calctype sig ≠ .none

instance (sig : List UInt8) : Decidable (IsSignature sig) :=
  inferInstanceAs (Decidable (_ ∧ _ ∧ _ ∧ _))

theorem isSignature_ti8x : ∀ sig ∈ ti8xSignatures,
    IsSignature sig ∧ tifilesSignature2calctype sig ≠ .ti86 := by
  decide

theorem isSignature_ti86 :
    IsSignature (ascii "**TI86**") ∧ tifilesSignature2calctype (ascii "**TI86**") = .ti86 := by
  decide

/-- The signature of a TI-8x model is recognised, and as the TI-86's exactly for the TI-86. -/
theorem signature_ti8x {model : CalcModel} (h : tifilesCalcIsTi8x model = true) :
    ∃ sig, tifilesCalctype2signature model = some sig ∧ IsSignature sig
      ∧ (tifilesSignature2calctype sig = .ti86 ↔ model = .ti86) := by
  by_cases h86 : model = .ti86
  · subst h86
    exact ⟨_, rfl, isSignature_ti86.1, iff_of_true isSignature_ti86.2 rfl⟩
  · have hsig : ∃ sig, tifilesCalctype2signature model = some sig ∧ sig ∈ ti8xSignatures := by
      cases model <;> first
        | exact absurd h (by decide)
        | exact absurd rfl h86
        | exact ⟨_, rfl, by simp [ti8xSignatures]⟩
    obtain ⟨sig, hsome, hmem⟩ := hsig
    have hfacts := isSignature_ti8x sig hmem
    exact ⟨sig, hsome, hfacts.1, iff_of_false hfacts.2 h86⟩

/-- The signatures of the TI-9x models. -/
def ti9xSignatures : List (List UInt8) :=
  [ascii "**TI89**", ascii "**TI92**", ascii "**TI92P*"]

theorem isSignature_ti9x : ∀ sig ∈ ti9xSignatures,
    IsSignature sig ∧ tifilesSignature2calctype sig ≠ .ti89tUsb
      ∧ tifilesCalcIsTi9x (tifilesSignature2calctype sig) = true := by
  decide

/-- The signature of a TI-9x model is recognised as one that is not the USB model. -/
theorem signature_ti9x {model : CalcModel} (h : tifilesCalcIsTi9x model = true) :
    ∃ sig, tifilesCalctype2signature model = some sig ∧ IsSignature sig
      ∧ tifilesSignature2calctype sig ≠ .ti89tUsb
      ∧ tifilesCalcIsTi9x (tifilesSignature2calctype sig) = true := by
  have hsig : ∃ sig, tifilesCalctype2signature model = some sig ∧ sig ∈ ti9xSignatures := by
    cases model <;> first
      | exact absurd h (by decide)
      | exact ⟨_, rfl, by simp [ti9xSignatures]⟩
  obtain ⟨sig, hsome, hmem⟩ := hsig
  exact ⟨sig, hsome, isSignature_ti9x sig hmem⟩

/-- A file that starts with a recognised signature has a TI header. -/
theorem tifilesFileHasTiHeader_append {sig : List UInt8} (hsig : IsSignature sig)
    (rest : List UInt8) : tifilesFileHasTiHeader (sig ++ rest) = true := by
  have hlen := hsig.1
  have hne : (sig ++ rest).isEmpty = false := by
    rw [List.isEmpty_eq_false_iff]
    intro hnil
    have hzero := congrArg List.length hnil
    rw [List.length_append, hlen, List.length_nil] at hzero
    omega
  have hhead : (sig ++ rest).take headReadCap = sig ++ rest.take (headReadCap - 8) := by
    rw [List.take_append, hlen, List.take_of_length_le (by rw [hlen]; decide)]
  unfold tifilesFileHasTiHeader fileHead
  rw [hne, hhead]
  exact (bufferHasTiHeader_append hlen _).trans hsig.2.2.1

end Tilibs.Files
