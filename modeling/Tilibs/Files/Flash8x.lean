import Mathlib
import Tilibs.Conv.Varname
import Tilibs.Files.FileClass
import Tilibs.Files.FileTypes
import Tilibs.Files.IntelHexPages
import Tilibs.Files.RwFile
import Tilibs.Files.VarEntry
import Tilibs.Lib.OutFile
import Tilibs.Lib.Proc

/-!
# Tilibs.Files.Flash8x

Applications, operating systems and certificates of the TI-Z80 models, written by `files8x.cc`:
a chain of contents, each a header of 78 bytes, whose last four are the length of the data, and
the data.

Where the data is Intel-HEX text its length is known only once it was written.  The writer then
goes back to the length, with a number of characters that it counts over the whole chain.
-/

namespace Tilibs.Files

open Lib Conv

/-- `TI83p_CERT` -/
def ti83pCert : UInt8 := 0x25

/-- `TI83p_LICENSE` -/
def ti83pLicense : UInt8 := 0x3E

/-- `FlashContent` without its link to the next one; `pages` is NULL or the array of pages. -/
structure FlashContent where
  modelDst : CalcModel
  revisionMajor : UInt8
  revisionMinor : UInt8
  flags : UInt8
  objectType : UInt8
  revisionDay : UInt8
  revisionMonth : UInt8
  revisionYear : UInt16
  name : VarName
  deviceType : UInt8
  dataType : UInt8
  hwId : UInt8
  dataLength : UInt32
  dataPart : List UInt8
  numPages : UInt32
  pages : Option (List FlashPage)

/-! ## the name of an application -/

/-- The number of bytes that hold the size of a field. -/
def certSizeBytes (fieldId : Nat) : Nat :=
  if fieldId % 16 = 0xD then 1 else if fieldId % 16 = 0xE then 2
  else if fieldId % 16 = 0xF then 4 else 0

/-- The size of a field. -/
def certFieldLen (fieldId : Nat) (data : List UInt8) : Nat :=
  if certSizeBytes fieldId = 0 then fieldId % 16
  else getBE ((data.drop 2).take (certSizeBytes fieldId))

/-- `tifiles_cert_field_get`: the field's type, its contents and what follows.  The check of the
length is one of 32 bits. -/
def tifilesCertFieldGet (data : List UInt8) : Option (Nat × List UInt8 × List UInt8) :=
  let fieldId := getBE (data.take 2)
  let start := 2 + certSizeBytes fieldId
  if data.length < 2 then none
  else if data.length < start then none
  else if data.length < (start + certFieldLen fieldId data) % 2 ^ 32 then none
  else some (fieldId, (data.drop start).take (certFieldLen fieldId data),
    data.drop (start + certFieldLen fieldId data))

/-- What follows a field is shorter. -/
theorem length_tifilesCertFieldGet {data : List UInt8} {field : Nat × List UInt8 × List UInt8}
    (h : tifilesCertFieldGet data = some field) : field.2.2.length < data.length := by
  unfold tifilesCertFieldGet at h
  dsimp only at h
  split_ifs at h
  cases h
  rw [List.length_drop]
  omega

/-- `tifiles_cert_field_find` -/
def tifilesCertFieldFind (fieldType : Nat) (data : List UInt8) : Option (List UInt8) :=
  match h : tifilesCertFieldGet data with
  | none => none
  | some field =>
      if field.1 / 16 = fieldType / 16 then some field.2.1
      else tifilesCertFieldFind fieldType field.2.2
termination_by data.length
decreasing_by exact length_tifilesCertFieldGet h

/-- `get_native_app_name` -/
def getNativeAppName (c : FlashContent) : Option (List UInt8) :=
  let data :=
    if c.numPages > 0 then (((c.pages.getD []).head?.map FlashPage.bytes).getD [])
    else c.dataPart.take c.dataLength.toNat
  if data.length ≥ 6 ∧ data.getD 0 0 &&& 0xF0 = 0x80 ∧ data.getD 1 0 = 0x0F then
    (tifilesCertFieldFind (256 * (data.getD 0 0).toNat + 0x40) (data.drop 6)).map
      fun name => name.take (varnameMax - 1)
  else none

/-- The name in the header. -/
def flashVarname (conv : Converters) (c : FlashContent) : List UInt8 :=
  let varname := (VarName.ofChars ((ticonvVarnameToTifile conv c.modelDst c.name.chars
    c.dataType).getD [])).chars
  if c.dataType = ti83pAppl then cstr ((getNativeAppName c).getD varname) else varname

/-! ## the pages of a content -/

/-- The size of a page without the bytes 0xFF at its end. -/
def trimmedSize (p : FlashPage) : Nat := (p.bytes.reverse.dropWhile (· = 0xFF)).length

/-- The padding of the last page of an application, so that 96 bytes follow the application
itself; `i` is the index of the page. -/
def lastPagePadding (first : FlashPage) (i pageLength : Nat) : Nat :=
  let appLength := 6 + getBE ((first.data.drop 2).take 4)
  let missing := Int.bmod (appLength + 96 - i * 0x4000 - pageLength) (2 ^ 32)
  -- not beyond the end of the page
  let extra := if pageLength + missing ≥ 0x3FFF then 0x3FFF - (pageLength : Int) else missing
  if extra < 0 then 0 else if extra > 96 then 96 else extra.toNat

/-- The pages with the number of bytes that are added to each. -/
def flashPages (c : FlashContent) : List (FlashPage × Nat) :=
  let pages := (c.pages.getD []).take c.numPages.toNat
  pages.mapIdx fun i p =>
    match pages.head? with
    | none => (p, 0)
    | some first =>
        if c.dataType = ti83pAppl ∧ i + 1 = c.numPages.toNat ∧ first.data.getD 0 0 = 0x80
            ∧ first.data.getD 1 0 = 0x0F then
          ({ p with size := UInt16.ofNat (trimmedSize p) }, lastPagePadding first i (trimmedSize p))
        else (p, 0)

/-- The static flag of `hex_block_write` after pages. -/
def lastFlag (oldFlag : UInt8) (ps : List (FlashPage × Nat)) : UInt8 :=
  (ps.getLast?.map fun p => p.1.flag).getD oldFlag

/-- The Intel-HEX text of a content. -/
def flashText (oldFlag : UInt8) (c : FlashContent) : List UInt8 :=
  hexPagesWrite oldFlag (flashPages c) ++ hexBlockWriteEnd

/-! ## writing -/

/-- The header up to the length of the data. -/
def flashHeader (conv : Converters) (c : FlashContent) : Except TifilesErr (List UInt8) :=
  (fwriteNChars 8 (flashVarname conv c)).map fun name =>
    ascii "**TIFL**"
      ++ [c.revisionMajor, c.revisionMinor, c.flags, c.objectType, c.revisionDay, c.revisionMonth]
      ++ fwriteWord c.revisionYear.toNat ++ fwriteByte (UInt8.ofNat (flashVarname conv c).length)
      ++ name ++ List.replicate 23 0 ++ [c.deviceType, c.dataType] ++ List.replicate 23 0
      ++ fwriteByte c.hwId

/-- What the writer keeps from one content to the next: the file, the number of characters of
Intel-HEX text, an `int` that is never reset, and the static flag. -/
structure FlashOut where
  file : OutFile
  bytesWritten : Nat
  oldFlag : UInt8

/-- A step of the writer. -/
abbrev FlashWriter (α : Type) : Type := Proc FlashOut TifilesErr α

/-- `fwrite` -/
def fwriteBytes (data : List UInt8) : FlashWriter Unit :=
  modify fun s => { s with file := s.file.write data }

/-- The length of the text is written where it belongs if the text is the only one.  The
arguments of the last `fseek` are exchanged: it goes to the position `SEEK_END`, which is 2. -/
def patchLength : FlashWriter Unit := do
  let s ← get
  match s.file.seekCur (Int.bmod (-(s.bytesWritten : Int) - 4) (2 ^ 32)) with
  | none => throw .fileIo
  | some file => set { s with file := (file.write (fwriteLong s.bytesWritten)).seekSet 2 }

/-- An operating system or an application. -/
def isOsOrApp (c : FlashContent) : Bool := c.dataType = ti83pAms || c.dataType = ti83pAppl

/-- A certificate or a licence. -/
def isCert (c : FlashContent) : Bool := c.dataType = ti83pCert || c.dataType = ti83pLicense

/-- The contents that are written as Intel-HEX text. -/
def isHexContent (c : FlashContent) : Bool := isOsOrApp c && c.hwId = 0

/-- One content. -/
def writeFlashContent (conv : Converters) (c : FlashContent) : FlashWriter Unit := do
  let header ← Proc.ofExcept (flashHeader conv c)
  fwriteBytes header
  fwriteBytes (fwriteLong c.dataLength.toNat)
  if isCert c then fwriteBytes (c.dataPart.take c.dataLength.toNat)
  else if isHexContent c then
    modify fun s =>
      { file := s.file.write (flashText s.oldFlag c)
        bytesWritten := s.bytesWritten + (flashText s.oldFlag c).length
        oldFlag := lastFlag s.oldFlag (flashPages c) }
    patchLength
  else if isOsOrApp c then fwriteBytes (c.dataPart.take c.dataLength.toNat)
  else pure ()

/-- The contents of a chain. -/
def writeFlashChain (conv : Converters) : List FlashContent → FlashWriter Unit
  | [] => pure ()
  | c :: cs => do
      writeFlashContent conv c
      writeFlashChain conv cs

/-- `ti8x_file_write_flash` to a named file, given the static flag: the bytes of the file, and
the flag that it leaves. -/
def ti8xFileWriteFlash (conv : Converters) (oldFlag : UInt8) (chain : List FlashContent) :
    Except TifilesErr (List UInt8) × UInt8 :=
  let r := Proc.exec (writeFlashChain conv chain) ⟨⟨[], 0⟩, 0, oldFlag⟩
  (r.1.map fun _ => r.2.file.bytes, r.2.oldFlag)

end Tilibs.Files
