import Mathlib
import Tilibs.Files.TigContent

/-!
# Tilibs.Files.Tigroup

Tigroups on disk (`tigroup.cc`): a zip archive whose members are written by the writers of
regular and flash files, and read by way of a temporary file with the member's suffix.  The
class of a member decides what is allocated for it, and where it is added; when it is read
again its class comes from the name and the bytes that were stored.

The readers and writers of the four kinds of models are parameters, and the zip library gives
members as they were stored.
-/

namespace Tilibs.Files

open Lib

/-! ## names in archives -/

/-- The Greek letters whose first byte in UTF-8 is 0xCE, by the second. -/
def zfeLetters : List (UInt8 × List UInt8) :=
  [(0xBC, ascii "_mu_"), (0xB1, ascii "_alpha_"), (0xB2, ascii "_beta_"), (0x93, ascii "_GAMMA_"),
    (0xB3, ascii "_gamma_"), (0x94, ascii "_DELTA_"), (0xB4, ascii "_delta_"),
    (0xB5, ascii "_epsilon_"), (0xB6, ascii "_zeta_"), (0xB8, ascii "_theta_"),
    (0xBB, ascii "_lambda_"), (0xBE, ascii "_ksi_"), (0xA0, ascii "_PI_"), (0xC0, ascii "_pi_"),
    (0xC1, ascii "_rho_"), (0xA3, ascii "_SIGMA_"), (0xC3, ascii "_sigma_"), (0xC4, ascii "_tau_"),
    (0xD5, ascii "_PHI_"), (0xA8, ascii "_PSI_"), (0xA9, ascii "_OMEGA_"), (0xC9, ascii "_omega_")]

/-- `ticonv_gfe_to_zfe` where filenames are in UTF-8. -/
def ticonvGfeToZfe : List UInt8 → List UInt8
  | 0xCE :: b :: rest => (zfeLetters.lookup b).getD [] ++ ticonvGfeToZfe rest
  | b :: rest => (if b = 0xCE then [] else [b]) ++ ticonvGfeToZfe rest
  | [] => []

/-- `g_path_get_basename` -/
def gPathGetBasename (path : List UInt8) : List UInt8 :=
  let name := (path.reverse.dropWhile (· = 0x2F)).reverse
  if path = [] then ascii "." else if name = [] then ascii "/" else basename name

/-! ## members -/

/-- What `tifiles_te_create` allocates. -/
inductive ContentKind
  | none | regular | flash
  deriving DecidableEq, Repr

/-- The allocation for a class. -/
def FileClass.kind (fc : FileClass) : ContentKind :=
  if fc.isFlashMember then .flash else if fc.hasRegularBit then .regular else .none

/-- `TigEntry`: contents of regular files on the left, of flash files on the right. -/
structure TigMember (ρ φ : Type) where
  filename : List UInt8
  type : FileClass
  content : Option (ρ ⊕ φ)
  deriving DecidableEq

/-- `TigContent` -/
structure Tigroup (ρ φ : Type) where
  model : CalcModel
  varEntries : List (TigMember ρ φ)
  appEntries : List (TigMember ρ φ)
  deriving DecidableEq

/-- The members of an archive: names and bytes. -/
abbrev Archive := List (List UInt8 × List UInt8)

/-- Errors: the destination is left alone, there is nothing allocated to read to, no reader for
the model, or what a reader or a writer says. -/
inductive TigErr
  | notAccepted
  | invalidFile
  | badCalc
  | file (code : Nat)
  deriving DecidableEq, Repr

variable {ρ φ : Type}

/-- `tifiles_content_create_tigroup` -/
def tigroupCreate (model : CalcModel) : Tigroup ρ φ := ⟨model, [], []⟩

/-- `tifiles_content_add_te` -/
def Tigroup.addTe (content : Tigroup ρ φ) (te : TigMember ρ φ) : Tigroup ρ φ :=
  match te.type.kind with
  | .flash => { content with appEntries := content.appEntries ++ [te] }
  | .regular => { content with varEntries := content.varEntries ++ [te] }
  | .none => content

/-! ## readers and writers -/

/-- What the rest of the library does.  Readers have the path, the bytes and the model that the
content was created for. -/
structure TigFormats (ρ φ : Type) where
  /-- The path of a temporary file, without its suffix. -/
  tmp : List UInt8
  dotless : 0x2E ∉ tmp
  /-- `ticonv_environment_has_utf8_filenames` -/
  utf8Filenames : Bool
  evoReadRegular : List UInt8 → List UInt8 → CalcModel → Except TigErr ρ
  ti8xReadRegular : List UInt8 → List UInt8 → CalcModel → Except TigErr ρ
  ti9xReadRegular : List UInt8 → List UInt8 → CalcModel → Except TigErr ρ
  tnspReadRegular : List UInt8 → List UInt8 → CalcModel → Except TigErr ρ
  evoReadFlash : List UInt8 → List UInt8 → CalcModel → Except TigErr φ
  ti8xReadFlash : List UInt8 → List UInt8 → CalcModel → Except TigErr φ
  ti9xReadFlash : List UInt8 → List UInt8 → CalcModel → Except TigErr φ
  tnspReadFlash : List UInt8 → List UInt8 → CalcModel → Except TigErr φ
  writeRegular : ρ → Except TigErr (List UInt8)
  writeFlash : φ → Except TigErr (List UInt8)

namespace TigFormats

/-- `tifiles_file_read_regular` -/
def fileReadRegular (lib : TigFormats ρ φ) (path bytes : List UInt8) (model : CalcModel) :
    Except TigErr ρ :=
  if ticonvModelIsTievo (tifilesFileGetModel path) then lib.evoReadRegular path bytes model
  else if tifilesCalcIsTi8x (tifilesFileGetModel path) then lib.ti8xReadRegular path bytes model
  else if tifilesCalcIsTi9x (tifilesFileGetModel path) then lib.ti9xReadRegular path bytes model
  else if ticonvModelIsTinspire model then lib.tnspReadRegular path bytes model
  else .error .badCalc

/-- `tifiles_file_read_flash` -/
def fileReadFlash (lib : TigFormats ρ φ) (path bytes : List UInt8) (model : CalcModel) :
    Except TigErr φ :=
  if ticonvModelIsTievo (tifilesFileGetModel path) then lib.evoReadFlash path bytes model
  else if tifilesCalcIsTi8x (tifilesFileGetModel path) then lib.ti8xReadFlash path bytes model
  else if tifilesCalcIsTi9x (tifilesFileGetModel path) ∨ tifilesFileIsTib path bytes then
    lib.ti9xReadFlash path bytes model
  else if ticonvModelIsTinspire model then lib.tnspReadFlash path bytes model
  else .error .badCalc

/-- The name of a member in the archive. -/
def nameInZip (lib : TigFormats ρ φ) (name : List UInt8) : List UInt8 :=
  if lib.utf8Filenames then ticonvGfeToZfe name else name

/-- `open_temp_file`: the suffix begins at the last dot, unless there is a separator after it. -/
def tempName (lib : TigFormats ρ φ) (name : List UInt8) : List UInt8 :=
  let ext := tifilesFextGet name
  if 0x2E ∈ name ∧ 0x2F ∉ ext ∧ 0x5C ∉ ext then lib.tmp ++ 0x2E :: ext else lib.tmp

/-! ## reading -/

/-- What is read to a member of the given class, from one kind of file. -/
def readKind (lib : TigFormats ρ φ) (kind : ContentKind) (path bytes : List UInt8)
    (model : CalcModel) : Except TigErr (Option (ρ ⊕ φ)) :=
  match kind with
  | .regular => (lib.fileReadRegular path bytes model).map fun c => some (.inl c)
  | .flash => (lib.fileReadFlash path bytes model).map fun c => some (.inr c)
  | .none => .ok none

/-- The member of one file in an archive; a file that is neither regular nor flash is skipped,
and so is one that has no name.  Nothing is read where nothing was allocated. -/
def readMember (lib : TigFormats ρ φ) (model : CalcModel) (name bytes : List UInt8) :
    Except TigErr (Option (TigMember ρ φ)) :=
  let path := lib.tempName name
  let fc := tifilesFileGetClass path bytes
  let kind : ContentKind :=
    if tifilesFileIsRegular path bytes then .regular
    else if tifilesFileIsFlash path bytes then .flash else .none
  if kind = .none ∨ name = [] then .ok none
  else if fc.kind = kind then
    (lib.readKind kind path bytes model).map fun c => some ⟨gPathGetBasename name, fc, c⟩
  else .error .invalidFile

/-- The model of the content: that of the first file that has one. -/
def joinModel (lib : TigFormats ρ φ) (model : CalcModel) (name : List UInt8) : CalcModel :=
  if model = .none then tifilesFileGetModel (lib.tempName name) else model

/-- One file of the archive. -/
def readEntry (lib : TigFormats ρ φ) (content : Tigroup ρ φ) (entry : List UInt8 × List UInt8) :
    Except TigErr (Tigroup ρ φ) :=
  let model := lib.joinModel content.model entry.1
  (lib.readMember model entry.1 entry.2).map fun te? =>
    te?.elim { content with model := model } ({ content with model := model } : Tigroup ρ φ).addTe

/-- `tifiles_file_read_tigroup`, to a content that was just created. -/
def fileReadTigroup (lib : TigFormats ρ φ) (archive : Archive) : Except TigErr (Tigroup ρ φ) :=
  archive.foldlM lib.readEntry (tigroupCreate .none)

/-! ## writing -/

/-- A member as it is stored. -/
def writeMember (lib : TigFormats ρ φ) (te : TigMember ρ φ) :
    Except TigErr (List UInt8 × List UInt8) :=
  match te.content with
  | some (.inl c) => (lib.writeRegular c).map fun bytes => (lib.nameInZip te.filename, bytes)
  | some (.inr c) => (lib.writeFlash c).map fun bytes => (lib.nameInZip te.filename, bytes)
  | none => .error .invalidFile

/-- `tifiles_file_write_tigroup` -/
def fileWriteTigroup (lib : TigFormats ρ φ) (content : Tigroup ρ φ) : Except TigErr Archive :=
  (content.varEntries ++ content.appEntries).mapM lib.writeMember

/-! ## adding a file -/

/-- What is read from the file that is added. -/
def readSource (lib : TigFormats ρ φ) (src : SourceFile) : Except TigErr (Option (ρ ⊕ φ)) :=
  lib.readKind src.fileClass.kind src.path src.bytes (tifilesFileGetModel src.path)

/-- `tifiles_tigroup_add_file`; a destination that does not exist is an empty archive. -/
def tigroupAddFile (lib : TigFormats ρ φ) (src : SourceFile) (archive : Archive) :
    Except TigErr Archive :=
  if tifilesFileIsTi src.path src.bytes && !tifilesFileIsTigroup src.path src.bytes then do
    let data ← lib.readSource src
    let content ← lib.fileReadTigroup archive
    lib.fileWriteTigroup (content.addTe ⟨gPathGetBasename src.path, src.fileClass, data⟩)
  else .error .notAccepted

end TigFormats

end Tilibs.Files
