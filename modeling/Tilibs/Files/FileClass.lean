import Mathlib
import Tilibs.CalcModel
import Tilibs.Files.FileTypes

/-!
# Tilibs.Files.FileClass

The class of a file (`tifiles_file_get_class` of `filetypes.cc`): single, group, backup,
flash or tigroup.  A flash file may have several headers; its type is that of the last one.
-/

namespace Tilibs.Files

open Lib

/-! ## classes -/

/-- `FileClass` -/
inductive FileClass
  | none | single | group | regular | backup | flash | tigroup | os | app
  deriving DecidableEq, Repr

/-- The number of a class; single and group are bits of regular, but os and app are none
of flash. -/
def FileClass.code : FileClass → Nat
  | .none => 0
  | .single => 1
  | .group => 2
  | .regular => 3
  | .backup => 4
  | .flash => 8
  | .tigroup => 16
  | .os => 32
  | .app => 64

/-- `fc & TIFILE_REGULAR` -/
def FileClass.hasRegularBit (fc : FileClass) : Bool := fc.code &&& FileClass.regular.code != 0

/-! ## flash headers -/

/-- `TI83p_AMS` -/
def ti83pAms : UInt8 := 0x23

/-- `TI83p_APPL` -/
def ti83pAppl : UInt8 := 0x24

/-- `TIFILES_FLASH_READ_CAP` -/
def flashReadCap : Nat := 4 * 1024 * 1024

/-- The length in a flash header. -/
def tiflLength (buf : List UInt8) : Nat := getLE ((buf.drop 74).take 4)

/-- `buffer_has_tifl_header`: the device type and the data type of the last header. -/
def tiflTypes (buf : List UInt8) : Option (UInt8 × UInt8) :=
  if buf.length < 78 ∨ buf.take 8 ≠ ascii "**TIFL**" then .none
  else if (buf.drop 78).length < tiflLength buf then .some (buf.getD 48 0, buf.getD 49 0)
  else
    match tiflTypes ((buf.drop 78).drop (tiflLength buf)) with
    | .none => .some (buf.getD 48 0, buf.getD 49 0)
    | .some types => .some types
termination_by buf.length
decreasing_by
  simp only [List.length_drop]
  omega

/-- `open_for_tifl` -/
def openForTifl (bytes : List UInt8) : Option (List UInt8) :=
  (fileHead bytes).map fun head =>
    if head.take 8 = ascii "**TIFL**" then bytes.take flashReadCap else head

/-! ## kinds of files -/

/-- `tifiles_file_is_os` -/
def tifilesFileIsOs (filename bytes : List UInt8) : Bool :=
  match openForTifl bytes with
  | .none => false
  | .some buf =>
      bufferIsTi buf && (bufferHasTibHeader buf || bufferHasTnoHeader buf
          || (tiflTypes buf).any fun types => types.2 = ti83pAms)
        || tifilesFextIsEvoOs (tifilesFextGet filename)

/-- `tifiles_file_is_app` -/
def tifilesFileIsApp (bytes : List UInt8) : Bool :=
  match openForTifl bytes with
  | .none => false
  | .some buf => bufferIsTi buf && (tiflTypes buf).any fun types => types.2 = ti83pAppl

/-- `tifiles_file_is_flash` -/
def tifilesFileIsFlash (filename bytes : List UInt8) : Bool :=
  (fileHead bytes).any bufferIsFlash || tifilesFextIsEvoOs (tifilesFextGet filename)

/-- `tifiles_file_is_tib` -/
def tifilesFileIsTib (filename bytes : List UInt8) : Bool :=
  sameNoCase (tifilesFextGet filename) (ascii "tib") && (fileHead bytes).any bufferHasTibHeader

/-- `tifiles_file_is_tigroup` -/
def tifilesFileIsTigroup (filename bytes : List UInt8) : Bool :=
  sameNoCase (tifilesFextGet filename) (ascii "tig") && (fileHead bytes).any bufferHasTigHeader

/-- `tifiles_file_get_class` -/
def tifilesFileGetClass (filename bytes : List UInt8) : FileClass :=
  if tifilesFileIsSingle filename bytes then .single
  else if tifilesFileIsGroup filename bytes then .group
  else if tifilesFileIsBackup filename bytes then .backup
  else if tifilesFileIsOs filename bytes then .os
  else if tifilesFileIsApp bytes then .app
  else if tifilesFileIsFlash filename bytes then .flash
  else if tifilesFileIsTigroup filename bytes then .tigroup
  else .none

/-! ## models -/

/-- `tifiles_fext_to_model` for an extension that is none of the TI-84 Evo's, from its first
characters in lower case; `c4` is zero at the end. -/
def modelOfChars (c1 c2 c3 c4 : UInt8) : CalcModel :=
  let is := fun s : String => [c1, c2, c3].take s.length = ascii s
  if is "73" then .ti73
  else if is "82" then if c3 = 0x75 then .ti82aUsb else .ti82
  else if is "83" then .ti83
  else if is "8x" then .ti83p
  else if is "8c" then .ti84pc
  else if is "8p" then .ti83pceUsb
  else if is "8e" then .ti84pceUsb
  else if is "8y" then .ti82aepUsb
  else if is "85" then .ti85
  else if is "86" then .ti86
  else if is "89" then .ti89
  else if is "92" then .ti92
  else if is "9x" then .ti92p
  else if is "v2" then .v200
  else if is "tns" then .nspire
  else if is "tnc" then .nspireTouchpadCas
  else if is "tno" then .nspireTouchpad
  else if is "tcc" then if c4 = 0 then .nspireCxCas else if c4 = 0x32 then .nspireCxiiCas else .none
  else if is "tco" then if c4 = 0 then .nspireCx else if c4 = 0x32 then .nspireCxii else .none
  else if is "tct" then if c4 = 0x32 then .nspireCxiit else .none
  else if is "tmc" then .nspireCmcCas
  else if is "tmo" then .nspireCmc
  else if is "tlo" ∨ is "tld" then .nspireCradle
  else if is "hex" then .tipresenter
  else if is "c2u" then .cbl2
  else .none

/-- `tifiles_fext_to_model` -/
def tifilesFextToModel (ext : List UInt8) : CalcModel :=
  if ext.length < 3 then .none
  else if sameNoCase ext (ascii "84tb2") ∨ sameNoCase ext (ascii "84tpk2") then .ti84evotUsb
  else if sameNoCase ext (ascii "83b2") ∨ sameNoCase ext (ascii "83pk2") then .ti83evoUsb
  else if tifilesFextIsEvo ext ∨ tifilesFextIsEvoOs ext then .ti84evoUsb
  else
    modelOfChars (asciiTolower (ext.getD 0 0)) (asciiTolower (ext.getD 1 0))
      (asciiTolower (ext.getD 2 0)) (ext.getD 3 0)

/-- `tifiles_file_get_model` -/
def tifilesFileGetModel (filename : List UInt8) : CalcModel :=
  tifilesFextToModel (tifilesFextGet filename)

/-- A class with a bit of regular is single or group. -/
theorem FileClass.eq_of_hasRegularBit {fc : FileClass} (h : fc.hasRegularBit = true) :
    fc = .single ∨ fc = .group ∨ fc = .regular := by
  cases fc <;> simp [hasRegularBit, code] at h ⊢

end Tilibs.Files
