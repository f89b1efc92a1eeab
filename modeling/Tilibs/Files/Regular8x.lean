import Mathlib
import Tilibs.Conv.Varname
import Tilibs.Dbus.Packet
import Tilibs.Files.Backup8x
import Tilibs.Files.Content
import Tilibs.Files.FileTypes
import Tilibs.Files.Regular9x
import Tilibs.Files.RwFile

/-!
# Tilibs.Files.Regular8x

TI-8x single and group files, written and read by `files8x.cc`: a header of 55 bytes with the
length of the data section, the entries one after the other, and a checksum.

How an entry is laid out depends on the model: a name of eight bytes, with two bytes more for
the attribute and the version in the TI-83+ family, or a length and a name, which the TI-86
pads.  The reader goes through the file twice.  In the first pass it counts the entries and
learns from the word that begins each of them how the names are padded and whether there is an
attribute.
-/

namespace Tilibs.Files

open Lib Conv
open Dbus (tifilesChecksum)

/-! ## models -/

/-- `is_ti8586` -/
def isTi8586 (model : CalcModel) : Bool := model == .ti85 || model == .ti86

/-- `is_ti83p` -/
def isTi83p (model : CalcModel) : Bool :=
  model == .ti83p || model == .ti84p || model == .ti84pUsb || model == .ti84pc
    || model == .ti84pcUsb || model == .ti83pceUsb || model == .ti84pceUsb || model == .ti82aUsb
    || model == .ti84ptUsb || model == .ti82aepUsb

/-! ## writing -/

/-- What an entry adds to the data length. -/
def entryLength8x (model : CalcModel) (e : VarEntry) : Nat :=
  if model = .ti82 ∨ model = .ti73 then e.size.toNat + 15
  else if model = .ti83 then e.size.toNat + 15
  else if model = .ti85 then e.size.toNat + 8 + e.name.chars.length
  else if model = .ti86 then e.size.toNat + 16
  else if isTi83p model then e.size.toNat + 17
  else 0

/-- `data_length`, a number of 32 bits; entries that are null are skipped. -/
def dataLength8x (content : FileContent) : Nat :=
  ((((content.entries.getD []).take content.numEntries.toNat).filterMap id).map
    (entryLength8x content.model)).sum % 2 ^ 32

/-- `packet_length` -/
def packetLength8x (model : CalcModel) (e : VarEntry) : Nat :=
  if model = .ti85 then 4 + e.name.chars.length
  else if model = .ti86 then 0x0C
  else if isTi83p model then 0x0D
  else 0x0B

/-- `ticonv_varname_to_tifile_sn` to a buffer that was zeroed. -/
def varnameToFile (conv : Converters) (model : CalcModel) (e : VarEntry) : List UInt8 :=
  (VarName.ofChars ((ticonvVarnameToTifile conv model e.name.chars e.type).getD [])).chars

/-- `fwrite_n_chars2`: padded with spaces. -/
def fwriteNChars2 (n : Nat) (s : List UInt8) : Except TifilesErr (List UInt8) :=
  if n < s.length then .error .fileIo else .ok (padRight n 0x20 s)

/-- The name in an entry, behind its length on the TI-85 and the TI-86. -/
def nameField8x (model : CalcModel) (varname : List UInt8) : Except TifilesErr (List UInt8) :=
  let nameLength := UInt8.ofNat varname.length
  if model = .ti85 then
    (fwriteNChars nameLength.toNat varname).map (fwriteByte nameLength ++ ·)
  else if model = .ti86 then (fwriteNChars2 8 varname).map (fwriteByte nameLength ++ ·)
  else fwriteNChars 8 varname

/-- The word for the attribute and the version. -/
def attrWord (e : VarEntry) : Nat :=
  (if e.attr = attrbArchived then 0x8000 else 0) + e.version.toNat

/-- What an entry adds to the checksum. -/
def entrySum8x (model : CalcModel) (varname : List UInt8) (e : VarEntry) : Nat :=
  let nameLength := if isTi8586 model then (UInt8.ofNat varname.length).toNat else 8
  (if isTi83p model then wordSum (attrWord e) else 0) + packetLength8x model e
    + wordSum e.size.toNat + e.type.toNat
    + (if isTi8586 model then e.name.chars.length else 0)
    + tifilesChecksum (varname.take nameLength)
    + (if model = .ti86 then (8 - nameLength) * 0x20 else 0)
    + wordSum e.size.toNat + tifilesChecksum e.bytes

/-- An entry in the file. -/
def writeEntry8x (conv : Converters) (content : FileContent) (e : VarEntry) :
    Except TifilesErr (List UInt8) := do
  let name ← nameField8x content.model (varnameToFile conv content.modelDst e)
  return fwriteWord (packetLength8x content.model e) ++ fwriteWord e.size.toNat
    ++ fwriteByte e.type ++ name
    ++ (if isTi83p content.model then fwriteWord (attrWord e) else [])
    ++ fwriteWord e.size.toNat ++ e.bytes

/-- The checksum of the file. -/
def sum8x (conv : Converters) (content : FileContent) (es : List VarEntry) : Nat :=
  (es.map fun e => entrySum8x content.model (varnameToFile conv content.modelDst e) e).sum % 2 ^ 16

/-- The bytes that `ti8x_file_write_regular` puts into the file for its entries. -/
def writeEntries8x (conv : Converters) (content : FileContent) (es : List VarEntry) :
    Except TifilesErr (List UInt8) :=
  match tifilesCalctype2signature content.model with
  | none => .error .nullPointer
  | some sig => do
      let signature ← fwriteNChars 8 sig
      let entries ← es.mapM (writeEntry8x conv content)
      return signature ++ fsignature content.model ++ content.comment.val.take 42
        ++ fwriteWord (dataLength8x content) ++ entries.flatten
        ++ fwriteWord (sum8x conv content es)

/-- `ti8x_file_write_regular` to a named file: its bytes and the content with its checksum, or
nothing when there is no array of entries. -/
def ti8xFileWriteRegular (conv : Converters) (content : FileContent) :
    Except TifilesErr (Option (List UInt8 × FileContent)) :=
  if content.entries.isNone then .ok none
  else if dataLength8x content > 65535 then .error .groupSize
  else
    match content.entryList with
    | none => .error .nullPointer
    | some es =>
        (writeEntries8x conv content es).map fun bytes =>
          some (bytes, { content with checksum := UInt16.ofNat (sum8x conv content es) })

/-! ## the first pass -/

/-- What the first pass learns: `ti83p_flag`, `name_length` and `padded86`. -/
structure Layout8x where
  ti83p : Bool
  nameLength : UInt8
  padded86 : Bool

/-- The length of a name, which must not exceed eight. -/
def freadNameLength : FileReader UInt8 := do
  let nameLength ← freadByte
  if nameLength > 8 then throw .invalidFile else return nameLength

/-- An entry of the first pass, up to the length of its data. -/
def skipName (model : CalcModel) (tmp : Nat) (layout : Layout8x) : FileReader Layout8x :=
  if model = .ti85 then do
    fskip 3
    let nameLength ← freadNameLength
    fskip nameLength.toNat
    return { layout with nameLength }
  else if model = .ti86 then do
    fskip 3
    let nameLength ← freadNameLength
    fskip nameLength.toNat
    -- names may be padded or, as on the TI-85, not
    fskip (if tmp < 0x0C then 0 else 8 - nameLength.toNat)
    return { layout with nameLength, padded86 := !decide (tmp < 0x0C) }
  else do
    fskip (if layout.ti83p then 13 else 11)
    return layout

/-- An entry of the first pass. -/
def skipEntry (model : CalcModel) (layout : Layout8x) : FileReader Layout8x := do
  let tmp ← freadWord
  let layout ← skipName model tmp { layout with ti83p := layout.ti83p || tmp == 0x0D }
  let size ← freadWord
  fskip size
  return layout

theorem movesOn_freadNameLength : MovesOn 0 freadNameLength := by
  refine (movesOn_freadByte.mono (Nat.zero_le _)).bind fun nameLength => ?_
  split
  · exact MovesOn.throw 0 _
  · exact MovesOn.pure _

theorem movesOn_skipName (model : CalcModel) (tmp : Nat) (layout : Layout8x) :
    MovesOn 0 (skipName model tmp layout) := by
  have hskip : ∀ n, MovesOn 0 (fskip n : FileReader Unit) := fun n =>
    (MovesOn.fskip n).mono (Nat.zero_le _)
  unfold skipName
  split
  · exact (hskip _).bind fun _ => movesOn_freadNameLength.bind fun _ =>
      (hskip _).bind fun _ => MovesOn.pure _
  · split
    · exact (hskip _).bind fun _ => movesOn_freadNameLength.bind fun _ =>
        (hskip _).bind fun _ => (hskip _).bind fun _ => MovesOn.pure _
    · exact (hskip _).bind fun _ => MovesOn.pure _

/-- An entry of the first pass takes two bytes at least. -/
theorem lt_of_exec_skipEntry {model : CalcModel} {layout layout' : Layout8x} {f f' : InFile}
    (h : Proc.exec (skipEntry model layout) f = (.ok layout', f')) : f.pos < f'.pos := by
  have hmoves : MovesOn 2 (skipEntry model layout) := by
    refine movesOn_freadWord.bind fun tmp => ?_
    refine (movesOn_skipName model tmp _).bind fun layout => ?_
    refine (movesOn_freadWord.mono (Nat.zero_le _)).bind fun size => ?_
    exact ((MovesOn.fskip size).mono (Nat.zero_le _)).bind fun _ => MovesOn.pure _
  have hle := hmoves f f' layout' h
  omega

/-- The first pass: the number of entries up to the end of the data section, and what their
first words say. -/
def countEntries (model : CalcModel) (last : Nat) (layout : Layout8x) (f : InFile) :
    Except TifilesErr (Nat × Layout8x) :=
  if f.pos ≥ last then .ok (0, layout)
  else
    match h : Proc.exec (skipEntry model layout) f with
    | (.error e, _) => .error e
    | (.ok layout', f') =>
        (countEntries model last layout' f').map fun counted => (counted.1 + 1, counted.2)
termination_by last - f.pos
decreasing_by
  have hlt := lt_of_exec_skipEntry h
  omega

/-! ## the second pass -/

/-- `TI84p_PIC` -/
def ti84pPic : UInt8 := 0x07

/-- The attribute and the version of a word; older versions of the library wrote the attribute
to the low byte. -/
def attrOfWord (word : Nat) : UInt8 × UInt8 :=
  if word = 0x80 then (attrbArchived, 0)
  else (if word &&& 0x8000 ≠ 0 then attrbArchived else 0, UInt8.ofNat (word % 256))

/-- Pictures of the TI-84+ CSE that older versions of the library wrote have no version. -/
def picVersion (type : UInt8) (size : Nat) (version : UInt8) : UInt8 :=
  if type = ti84pPic ∧ size = 0x55BB ∧ version = 0 then 10 else version

/-- The length of the name, where entries have one. -/
def readNameLength (model : CalcModel) (layout : Layout8x) : FileReader UInt8 :=
  if isTi8586 model then freadByte else return layout.nameLength

/-- The word for the attribute, where entries have one: the attribute, the version, and what it
adds to the checksum. -/
def readAttr (layout : Layout8x) (type : UInt8) (size : Nat) : FileReader (UInt8 × UInt8 × Nat) :=
  if layout.ti83p then do
    let word ← freadWord
    return ((attrOfWord word).1, picVersion type size (attrOfWord word).2, wordSum word)
  else return (0, 0, 0)

/-- An entry, and what it adds to the checksum.  At the end of the file the padding of a name
is missing, and so is the size. -/
def readEntry8x (conv : Converters) (model modelDst : CalcModel) (fileSize : Nat)
    (layout : Layout8x) : FileReader (VarEntry × Nat) := do
  let packetLength ← freadLength fileSize
  let size ← freadLength fileSize
  let type ← freadByte
  let nameLength ← readNameLength model layout
  let varname ← freadNChars nameLength.toNat
  let name := nameFromFile conv modelDst varname type .empty
  let padding ← freadBytes
    (if model = .ti86 ∧ layout.padded86 then (2 ^ 32 + 8 - nameLength.toNat) % 2 ^ 32 else 0)
  let (attr, version, attrSum) ← readAttr layout type size
  let _ ← freadWord
  let data ← freadBytes size
  let entry : VarEntry :=
    { folder := .empty, name, type, attr, version, size := UInt32.ofNat size, data := some data }
  return (entry, tifilesChecksum padding + attrSum + packetLength + wordSum size + type.toNat
    + (if isTi8586 model then name.chars.length else 0) + tifilesChecksum varname + wordSum size
    + tifilesChecksum data)

/-- The entries, and the sum of what they add. -/
def readEntries8x (conv : Converters) (model modelDst : CalcModel) (fileSize : Nat)
    (layout : Layout8x) : Nat → FileReader (List VarEntry × Nat)
  | 0 => return ([], 0)
  | n + 1 => do
      let (entry, sum) ← readEntry8x conv model modelDst fileSize layout
      let (entries, rest) ← readEntries8x conv model modelDst fileSize layout n
      return (entry :: entries, sum + rest)

/-- The body of `ti8x_file_read_regular`, once the file is open and its size known. -/
def readRegular8xBody (conv : Converters) (fileSize : Nat) (content : FileContent) :
    FileReader FileContent := do
  let signature ← freadNChars 8
  let model := tifilesSignature2calctype signature
  if model = .none then throw .invalidFile
  else
    let modelDst := if content.modelDst = .none then model else content.modelDst
    fskip 3
    let comment ← freadBytes 42
    let dataSize ← freadLength fileSize
    let offset ← ftell
    let file ← get
    let (n, layout) ← Proc.ofExcept (countEntries model (offset + dataSize) ⟨false, 8, false⟩ file)
    fseek offset
    let (entries, sum) ← readEntries8x conv model modelDst fileSize layout n
    let stored ← freadWord
    return { content with
      model, modelDst
      comment := Buf.ofChars 42 comment
      numEntries := UInt32.ofNat n
      entries := some (entries.map some ++ [none])
      checksum := UInt16.ofNat sum
      storedChecksum := UInt16.ofNat stored }

/-- `ti8x_file_read_regular` -/
def ti8xFileReadRegular (conv : Converters) (filename bytes : List UInt8)
    (content : FileContent) : Except TifilesErr FileContent :=
  if !tifilesFileIsRegular filename bytes then .error .invalidFile
  -- no TI-Z80 model has more than 4 MB of Flash
  else if bytes.length ≥ 8 * 2 ^ 20 then .error .invalidFile
  else (Proc.exec (readRegular8xBody conv bytes.length content) ⟨bytes, 0⟩).1

end Tilibs.Files
