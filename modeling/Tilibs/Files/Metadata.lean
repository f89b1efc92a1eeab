import Tilibs.Conv.Tokens
import Tilibs.Files.Backup8x
import Tilibs.Files.TigroupFiles
import Tilibs.Files.TypeNames

/-!
# Tilibs.Files.Metadata

The metadata of a file as an array of keys and values, `tifiles_file_get_metadata` of
`metadata.cc`.  The file is told by its content, and its extension is only compared.

The readers of the formats are parameters, and so are the files in an archive.
-/

namespace Tilibs.Files

open Lib Conv

/-! ## what is read -/

/-- The readers of the library: a path, the bytes, and the model that a content was created for. -/
structure MetadataLib where
  formats : TigFormats FileContent FlashChain
  ti9xReadBackup : List UInt8 → List UInt8 → CalcModel → Except TigErr BackupContent
  /-- The files that `libarchive` finds in an archive. -/
  openArchive : List UInt8 → Option Archive

/-- A tigroup whose members are counted in two variables of 32 bits. -/
abbrev CountedTigroup : Type :=
  { content : Tigroup FileContent FlashChain //
    content.varEntries.length + content.appEntries.length < 2 ^ 32 }

/-- What a file holds. -/
inductive MetadataContent
  | regular (content : FileContent)
  | backup (content : BackupContent)
  | flash (content : FlashLink)
  | tigroup (content : CountedTigroup)

def zipMagic : List UInt8 := [0x50, 0x4B, 0x03, 0x04]

def tiflMagic : List UInt8 := ascii "**TIFL**"

/-- `metadata_read_magic` -/
def metadataReadMagic (bytes : List UInt8) : Option (List UInt8) :=
  if bytes.length < 4 then none
  else if bytes.take 4 = zipMagic then some zipMagic
  else if bytes.length < 8 then none
  else some (cstr (bytes.take 8))

/-- `tifiles_content_create_backup` -/
def tifilesContentCreateBackup (model : CalcModel) : BackupContent where
  model
  comment := .zeros 43
  memAddress := 0
  type := 0
  version := 0
  part1 := .empty
  part2 := .empty
  part3 := .empty
  part4 := .empty
  checksum := 0
  storedChecksum := 0

namespace MetadataLib

variable (lib : MetadataLib) (filename bytes : List UInt8)

def readRegular (model : CalcModel) : Option FileContent :=
  if tifilesCalcIsTi8x model then (lib.formats.ti8xReadRegular filename bytes model).toOption
  else (lib.formats.ti9xReadRegular filename bytes model).toOption

def readBackup (model : CalcModel) : Option BackupContent :=
  if tifilesCalcIsTi8x model then
    (ti8xFileReadBackup filename bytes (tifilesContentCreateBackup model)).toOption
  else (lib.ti9xReadBackup filename bytes model).toOption

/-- The model is that of the extension, and without one the device tells the family. -/
def readFlash : Option FlashLink :=
  let model := tifilesFileGetModel filename
  let deviceType := (((openForTifl bytes).bind tiflTypes).map Prod.fst).getD 0
  let is9x := if model = .none then deviceType = 0x98 ∨ deviceType = 0x88
    else ¬tifilesCalcIsTi8x model
  let chain := if is9x then lib.formats.ti9xReadFlash filename bytes model
    else lib.formats.ti8xReadFlash filename bytes model
  chain.toOption.bind fun chain => chain.head?.map Ptr.val

def readTigroup : Option CountedTigroup :=
  match (lib.openArchive bytes).bind fun archive =>
    (lib.formats.fileReadTigroup archive).toOption with
  | some content => if h : _ then some ⟨content, h⟩ else none
  | none => none

/-- The magic of a file, the model that it stands for, and the content. -/
def readContent : Option (List UInt8 × CalcModel × MetadataContent) :=
  (metadataReadMagic bytes).bind fun magic =>
    let model := tifilesSignature2calctype magic
    -- backups have a type of their own at a fixed place
    let isBackup := if tifilesCalcIsTi8x model then bytes.getD 0x3B 0 ∈ [0x0F, 0x13, 0x1D]
      else bytes.getD 0x48 0 = 0x1D
    if magic = zipMagic then
      (lib.readTigroup bytes).map fun content => (magic, .none, .tigroup content)
    else if magic = tiflMagic then
      (lib.readFlash filename bytes).map fun content => (magic, .none, .flash content)
    else if model = .none then none
    else if isBackup then
      (lib.readBackup filename bytes model).map fun content => (magic, model, .backup content)
    else (lib.readRegular filename bytes model).map fun content => (magic, model, .regular content)

end MetadataLib

/-! ## keys and values -/

/-- `TifilesMetadataPair` -/
abbrev MetadataPair : Type := List UInt8 × List UInt8

/-- `metadata_add`, with keys that are written out. -/
def metadataAdd (pairs : List (String × List UInt8)) : List MetadataPair :=
  pairs.map fun pair => (ascii pair.1, pair.2)

/-- A key of the entry `n`. -/
def entryKey (n : Nat) (field : String) : List UInt8 :=
  ascii "entry[" ++ decimal n ++ ascii "]." ++ ascii field

/-- The fields of entries, which are numbered from one. -/
def entryPairs (entries : List (List (String × List UInt8))) : List MetadataPair :=
  entries.zipIdx.flatMap fun (fields, i) =>
    fields.map fun (field, value) => (entryKey (i + 1) field, value)

def upperHexDigit (n : UInt16) : UInt8 :=
  if n < 10 then 0x30 + n.toUInt8 else 0x41 + (n.toUInt8 - 10)

/-- What `0x%04X` prints. -/
def hexWord (n : UInt16) : List UInt8 :=
  ascii "0x" ++ [n >>> 12, (n >>> 8) &&& 0xF, (n >>> 4) &&& 0xF, n &&& 0xF].map upperHexDigit

/-- `ATTRB_LOCKED` -/
def attrbLocked : UInt8 := 1

/-- What the entries of all files have. -/
def typeFields (model : CalcModel) (ve : VarEntry) : List (String × List UInt8) :=
  [("type", decimal ve.type.toNat),
    ("type.name", tifilesVartype2string model ve.type),
    ("type.ext", tifilesVartype2fext model ve.type),
    ("size", decimal ve.size.toNat),
    ("version", decimal ve.version.toNat),
    ("attr.archived", decimal (if ve.attr = attrbArchived then 1 else 0)),
    ("attr.locked", decimal (if ve.attr = attrbLocked then 1 else 0))]

/-- The fields of an entry of a single or group file. -/
def regularFields (model : CalcModel) (ve : VarEntry) : List (String × List UInt8) :=
  ("name", ve.name.chars) :: ("folder", ve.folder.chars) :: typeFields model ve

/-- `metadata_fill_regular` -/
def metadataFillRegular (content : FileContent) (magic : List UInt8) :
    Option (List MetadataPair) :=
  content.entryList.map fun es =>
    metadataAdd [("file.class", if content.numEntries = 1 then ascii "single" else ascii "group"),
      ("file.model", tifilesModelToString content.model),
      ("file.magic", magic),
      ("file.comment", cstr content.comment.val),
      ("file.checksum.computed", hexWord content.checksum),
      ("file.checksum.stored", hexWord content.storedChecksum),
      ("file.entries", decimal content.numEntries.toNat)]
    ++ entryPairs (es.map (regularFields content.model))

/-- `metadata_fill_backup` -/
def metadataFillBackup (content : BackupContent) (magic : List UInt8) : List MetadataPair :=
  metadataAdd [("file.class", ascii "backup"),
    ("file.model", tifilesModelToString content.model),
    ("file.magic", magic),
    ("file.comment", cstr content.comment.val),
    ("file.checksum.computed", hexWord content.checksum),
    ("file.checksum.stored", hexWord content.storedChecksum),
    ("file.entries", ascii "1")]

/-- `metadata_fill_flash` -/
def metadataFillFlash (content : FlashLink) (magic : List UInt8) : List MetadataPair :=
  metadataAdd [("file.class", ascii "flash"),
    ("file.model", tifilesModelToString content.model),
    ("file.magic", magic),
    ("file.name", content.name.chars),
    ("file.entries", ascii "1")]

/-- The first variable of a member, if there is one. -/
def TigMember.firstEntry (te : TigMember FileContent FlashChain) : Option VarEntry :=
  match te.content with
  | some (.inl regular) => regular.entryList.bind List.head?
  | _ => none

/-- The flash content of a member. -/
def TigMember.flashLink (te : TigMember FileContent FlashChain) : Option FlashLink :=
  match te.content with
  | some (.inr chain) => chain.head?.map Ptr.val
  | _ => none

/-- The fields of a member with variables. -/
def memberFields (model : CalcModel) (te : TigMember FileContent FlashChain) :
    List (String × List UInt8) :=
  ("filename", cstr te.filename) :: ("class", ascii "regular")
    :: match te.firstEntry with
      | some ve => ("name", ve.name.chars) :: typeFields model ve
      | none => []

/-- The fields of a member with a flash content. -/
def appFields (te : TigMember FileContent FlashChain) : List (String × List UInt8) :=
  ("filename", cstr te.filename) :: ("class", ascii "flash")
    :: match te.flashLink with
      | some flash => [("name", flash.name.chars), ("size", decimal flash.dataLength.toNat)]
      | none => []

/-- `metadata_fill_tigroup`; the comment of an archive is not read.  The code would follow a null
pointer where a member is to have a flash content and has none. -/
def metadataFillTigroup (content : Tigroup FileContent FlashChain) (magic : List UInt8) :
    Option (List MetadataPair) :=
  if content.appEntries.all fun te => te.flashLink.isSome then
    some (metadataAdd [("file.class", ascii "tigroup"),
      ("file.model", tifilesModelToString content.model),
      ("file.magic", magic),
      ("file.comment", []),
      ("file.entries", decimal (content.varEntries.length + content.appEntries.length))]
    ++ entryPairs (content.varEntries.map (memberFields content.model)
      ++ content.appEntries.map appFields))
  else none

/-! ## the file -/

/-- The pairs of a content; `none` when the code would follow a null pointer. -/
def MetadataContent.fill (magic : List UInt8) : MetadataContent → Option (List MetadataPair)
  | .regular content => metadataFillRegular content magic
  | .backup content => some (metadataFillBackup content magic)
  | .flash content => some (metadataFillFlash content magic)
  | .tigroup content => metadataFillTigroup content.val magic

def MetadataContent.fileClass : MetadataContent → FileClass
  | .regular content => if content.numEntries = 1 then .single else .group
  | .backup _ => .backup
  | .flash _ => .flash
  | .tigroup _ => .tigroup

/-- Do the checksums differ? -/
def MetadataContent.badChecksum : MetadataContent → Bool
  | .regular content => content.checksum != content.storedChecksum
  | .backup content => content.checksum != content.storedChecksum
  | .flash _ | .tigroup _ => false

/-- Does the extension stand for something else? -/
def extensionMismatch (filename bytes : List UInt8) (contentModel : CalcModel)
    (contentClass : FileClass) : Bool :=
  let extClass := tifilesFileGetClass filename bytes
  let extModel := tifilesFileGetModel filename
  (extModel = .none ∧ extClass ≠ .tigroup)
    ∨ (extModel ≠ .none ∧ contentModel ≠ .none ∧ extModel ≠ contentModel)
    ∨ (extClass ≠ .none ∧ extClass ≠ contentClass)

/-- `metadata_warning_add`, twice: the warnings that apply, with a space between them. -/
def warningText (badChecksum mismatch : Bool) : List UInt8 :=
  match badChecksum, mismatch with
  | false, false => []
  | true, false => ascii "checksum"
  | false, true => ascii "extension_mismatch"
  | true, true => ascii "checksum extension_mismatch"

def warningPairs (text : List UInt8) : List MetadataPair :=
  if text = [] then [] else metadataAdd [("file.warnings", text)]

def metadataVersion : MetadataPair := (ascii "metadata.version", ascii "1")

/-- `tifiles_file_get_metadata` -/
def tifilesFileGetMetadata (lib : MetadataLib) (filename bytes : List UInt8) :
    Option (List MetadataPair) :=
  (lib.readContent filename bytes).bind fun (magic, contentModel, content) =>
    (content.fill magic).map fun pairs =>
      metadataVersion :: (pairs ++ warningPairs (warningText content.badChecksum
        (extensionMismatch filename bytes contentModel content.fileClass)))

end Tilibs.Files
