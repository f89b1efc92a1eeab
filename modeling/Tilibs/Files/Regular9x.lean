import Mathlib
import Tilibs.Conv.Varname
import Tilibs.Dbus.Packet
import Tilibs.Files.Content
import Tilibs.Files.FileTypes
import Tilibs.Files.RwFile

/-!
# Tilibs.Files.Regular9x

TI-9x single and group files, written and read by `files9x.cc`: a header of 60
bytes, a table of records of 16 bytes, the offset of the end of the file, and the
data of the variables.

A group file has a record for each folder before those of its variables.  A record
has the offset of its data; the reader knows the size of a variable only from the
offset in the record after it.
-/

namespace Tilibs.Files

open Lib Conv
open Dbus (tifilesChecksum)

/-! ## the table of entries -/

/-- One step of the loop that collects the folders: a new name, cut to 256 characters. -/
def addFolder (folders : List (List UInt8)) (e : VarEntry) : List (List UInt8) :=
  if e.folder.chars ∈ folders then folders else folders ++ [e.folder.chars.take 256]

/-- `folder_list` of `tifiles_create_table_of_entries`: the folder names in the order they
first appear. -/
def folderList (es : List VarEntry) : List (List UInt8) := es.foldl addFolder []

/-- One row of the table: the indexes of the entries of a folder. -/
def tableRow (es : List VarEntry) (folder : List UInt8) : List Nat :=
  (es.zipIdx.filter fun p => p.1.folder.chars = folder).map Prod.snd

/-- `tifiles_create_table_of_entries` and its `nfolders`; an empty row is a NULL pointer. On
the TI-8x models one more folder is counted, whose name is a NULL pointer. -/
def tifilesCreateTableOfEntries (model : CalcModel) (es : List VarEntry) :
    Except TifilesErr (List (List Nat) × Nat) :=
  let folders := folderList es
  if tifilesCalcIsTi8x model then
    if es.isEmpty then .ok ([[]], 1) else .error .nullPointer
  else .ok (folders.map (tableRow es), folders.length)

/-- The rows that the loops over the table reach, as entries. -/
def tableEntries (es : List VarEntry) (table : List (List Nat)) : List (List VarEntry) :=
  (table.takeWhile (· ≠ [])).map fun row => row.filterMap fun idx => es[idx]?

/-! ## writing -/

/-- `TI89_DIR`, the folder type of every TI-9x model. -/
def ti9xDir : UInt8 := 0x1F

/-- `ATTRB_ARCHIVED` -/
def attrbArchived : UInt8 := 3

/-- `ticonv_varname_to_tifile_sn` and `fwrite_8_chars`; a failed conversion leaves the
buffer without a string. -/
def fwriteName (conv : Converters) (model : CalcModel) (name : VarName) (type : UInt8) :
    Except TifilesErr (List UInt8) :=
  match ticonvVarnameToTifile conv model name.chars type with
  | none => .error .nullPointer
  | some raw => fwriteNChars 8 (raw.take (varnameMax - 1))

/-- The bytes that `fwrite` takes from an entry's buffer. -/
def VarEntry.bytes (e : VarEntry) : List UInt8 := (e.data.getD []).take e.size.toNat

/-- The record of a folder. -/
def folderRecord (conv : Converters) (model : CalcModel) (offset : Nat) (folder : VarName)
    (n : Nat) : Except TifilesErr (List UInt8) := do
  let name ← fwriteName conv model folder 0xFF
  return fwriteLong offset ++ name ++ fwriteByte ti9xDir ++ fwriteByte 0x00 ++ fwriteWord n

/-- The record of a variable. -/
def varRecord (conv : Converters) (model : CalcModel) (offset : Nat) (e : VarEntry) :
    Except TifilesErr (List UInt8) := do
  let name ← fwriteName conv model e.name e.type
  let attr := if e.attr = attrbArchived then 3 else e.attr
  return fwriteLong offset ++ name ++ fwriteByte e.type ++ fwriteByte attr ++ fwriteWord 0

/-- The records of the variables of a folder, and the offset after them. -/
def varRecords (conv : Converters) (model : CalcModel) :
    Nat → List VarEntry → Except TifilesErr (List UInt8 × Nat)
  | offset, [] => .ok ([], offset)
  | offset, e :: es => do
      let record ← varRecord conv model offset e
      let (records, last) ← varRecords conv model (offset + e.size.toNat + 4 + 2) es
      return (record ++ records, last)

/-- The table; only a group file has records for the folders. -/
def tableRecords (conv : Converters) (model : CalcModel) (group : Bool) :
    Nat → List (List VarEntry) → Except TifilesErr (List UInt8 × Nat)
  | offset, [] => .ok ([], offset)
  | offset, row :: rows => do
      let folder ← if group then folderRecord conv model offset row.headI.folder row.length
        else .ok []
      let (vars, next) ← varRecords conv model offset row
      let (records, last) ← tableRecords conv model group next rows
      return (folder ++ vars ++ records, last)

/-- The data of a variable. -/
def varData (e : VarEntry) : List UInt8 :=
  fwriteLong 0 ++ e.bytes ++ fwriteWord (tifilesChecksum e.bytes)

/-- The number of records and the offset of the data. -/
def recordCount (n folders : Nat) : Nat × Nat :=
  if n > 1 then (n + folders, 0x52 + 16 * (n + folders - 1)) else (1, 0x52)

/-- The bytes that `ti9x_file_write_regular` puts into the file for its entries. -/
def writeEntries9x (conv : Converters) (content : FileContent) (es : List VarEntry) :
    Except TifilesErr (List UInt8) := do
  let (table, numFolders) ← tifilesCreateTableOfEntries content.model es
  let rows := tableEntries es table
  match tifilesCalctype2signature content.model with
  | none => .error .nullPointer
  | some sig =>
      let signature ← fwriteNChars 8 sig
      let folder ← fwriteName conv content.model content.defaultFolder 0xFF
      let (count, offset) := recordCount es.length numFolders
      let (records, last) ← tableRecords conv content.model (es.length > 1) offset rows
      return signature ++ [1, 0] ++ folder ++ content.comment.val.take 40 ++ fwriteWord count
        ++ records ++ fwriteLong last ++ fwriteWord 0x5aa5 ++ rows.flatten.flatMap varData

/-- `ti9x_file_write_regular` to a named file: its bytes, or nothing when there is no array
of entries. The folder of a single variable becomes the default folder. -/
def ti9xFileWriteRegular (conv : Converters) (content : FileContent) :
    Except TifilesErr (Option (List UInt8)) :=
  if content.entries.isNone then .ok none
  else
    match content.entryList with
    | none => .error .nullPointer
    | some es =>
        let defaultFolder := match es with
          | [e] => VarName.ofChars e.folder.chars
          | _ => content.defaultFolder
        (writeEntries9x conv { content with defaultFolder } es).map some

/-! ## reading -/

/-- `ticonv_varname_from_tifile_sn`; a failed conversion leaves what was there. -/
def nameFromFile (conv : Converters) (model : CalcModel) (raw : List UInt8) (type : UInt8)
    (old : VarName) : VarName :=
  match ticonvVarnameFromTifile conv model raw type with
  | none => old
  | some name => VarName.ofChars name

/-- The data of the variable whose record has just been read, up to the offset in the next
record; the position stays. -/
def readVarData (fileSize curr : Nat) : FileReader (UInt32 × List UInt8 × Nat) := do
  let pos ← ftell
  let next ← freadLong
  if next > fileSize then throw .invalidFile
  else
    let size := UInt32.ofNat next - UInt32.ofNat curr - 4 - 2
    if size.toNat > fileSize then throw .invalidFile
    else
      fseek curr
      fskip 4
      let data ← freadBytes size.toNat
      let checksum ← freadWord
      fseek pos
      return (size, data, checksum)

/-- A record: its offset, name, type and attribute. -/
def readRecord9x (conv : Converters) (modelDst : CalcModel) (fileSize : Nat) :
    FileReader (Nat × VarName × UInt8 × UInt8) := do
  let curr ← freadLong
  if curr > fileSize then throw .invalidFile
  else
    let varname ← freadNChars 8
    let name := nameFromFile conv modelDst varname 0 .empty
    let type ← freadByte
    let attr ← freadByte
    fskip 2
    return (curr, name, type, if attr = 2 ∨ attr = 3 then attrbArchived else attr)

/-- The loop over the records of `ti9x_file_read_regular`: the entries, and what they add to
the two checksums. -/
def readRecords9x (conv : Converters) (modelDst : CalcModel) (fileSize : Nat) :
    Nat → VarName → FileReader (List VarEntry × Nat × Nat)
  | 0, _ => return ([], 0, 0)
  | n + 1, currentFolder => do
      let (curr, name, type, attr) ← readRecord9x conv modelDst fileSize
      if type = ti9xDir then readRecords9x conv modelDst fileSize n name
      else
        let (size, data, checksum) ← readVarData fileSize curr
        let entry : VarEntry :=
          { folder := currentFolder, name, type, attr, version := 0, size, data := some data }
        let (entries, sum, stored) ← readRecords9x conv modelDst fileSize n currentFolder
        return (entry :: entries, tifilesChecksum data + sum, checksum + stored)

/-- The body of `ti9x_file_read_regular`, once the file is open and its size known. -/
def readRegular9xBody (conv : Converters) (fileSize : Nat) (content : FileContent) :
    FileReader FileContent := do
  let signature ← freadNChars 8
  let model := tifilesSignature2calctype signature
  if model = .none then throw .invalidFile
  else
    let modelDst := if content.modelDst = .none then model else content.modelDst
    fskip 2
    let folder ← freadNChars 8
    let defaultFolder := nameFromFile conv modelDst folder 0xFF content.defaultFolder
    let comment ← freadBytes 40
    let count ← freadWord
    let (entries, sum, stored) ← readRecords9x conv modelDst fileSize count defaultFolder
    return { content with
      model, modelDst, defaultFolder
      comment := (Buf.ofChars 40 comment).overwrite content.comment (by decide)
      numEntries := UInt32.ofNat entries.length
      -- `g_realloc` of nothing frees the array
      entries := if entries.isEmpty then none else some (entries.map some)
      checksum := content.checksum + UInt16.ofNat sum
      storedChecksum := content.storedChecksum + UInt16.ofNat stored }

/-- `ti9x_file_read_regular` -/
def ti9xFileReadRegular (conv : Converters) (filename bytes : List UInt8)
    (content : FileContent) : Except TifilesErr FileContent :=
  if !tifilesFileIsRegular filename bytes then .error .invalidFile
  -- no TI-68k model has more than 4 MB of Flash
  else if bytes.length ≥ 8 * 2 ^ 20 then .error .invalidFile
  else (Proc.exec (readRegular9xBody conv bytes.length content) ⟨bytes, 0⟩).1

end Tilibs.Files
