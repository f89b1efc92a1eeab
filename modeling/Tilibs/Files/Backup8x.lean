import Mathlib
import Tilibs.CalcModel
import Tilibs.Dbus.Packet
import Tilibs.Files.FileTypes
import Tilibs.Files.RwFile

/-!
# Tilibs.Files.Backup8x

TI-8x backup files, written and read by `files8x.cc`: the file header, a backup
header with the lengths of the parts, the parts with their lengths again, and a
checksum.

The TI-86 has a fourth part whose length takes the place of the memory address.
The header of the newer operating systems has three more bytes, the last of them
the version; the older one has no version.
-/

namespace Tilibs.Files

open Lib
open Dbus (tifilesChecksum)

/-- A part of a backup: `data_lengthN` and the buffer `data_partN`. -/
abbrev BackupPart : Type := { data : List UInt8 // data.length < 2 ^ 16 }

/-- `BackupContent`, as far as the TI-8x models use it. -/
structure BackupContent where
  model : CalcModel
  comment : Buf 43
  memAddress : UInt16
  type : UInt8
  version : UInt8
  part1 : BackupPart
  part2 : BackupPart
  part3 : BackupPart
  part4 : BackupPart
  checksum : UInt16
  storedChecksum : UInt16

/-- `data_lengthN` -/
def BackupPart.length (part : BackupPart) : Nat := part.val.length

/-- A part without data. -/
def BackupPart.empty : BackupPart := ⟨[], by decide⟩

/-- The sum of the bytes of a length word, as `compute_backup_sum` takes it. -/
def wordSum (n : Nat) : Nat := tifilesChecksum (putLE 2 n)

/-- `compute_backup_sum` -/
def computeBackupSum (content : BackupContent) (headerSize : Nat) : Nat :=
  (headerSize + wordSum content.part1.length + content.type.toNat
    + (if headerSize ≥ 12 then content.version.toNat else 0)
    + wordSum content.part2.length + wordSum content.part3.length
    + (if content.model ≠ .ti86 then wordSum content.memAddress.toNat
       else wordSum content.part4.length)
    + wordSum content.part1.length + tifilesChecksum content.part1.val
    + wordSum content.part2.length + tifilesChecksum content.part2.val
    + wordSum content.part3.length + tifilesChecksum content.part3.val
    + wordSum content.part4.length + tifilesChecksum content.part4.val) % 2 ^ 16

/-! ## writing -/

/-- `fsignature85` and `fsignature8x` -/
def fsignature (model : CalcModel) : List UInt8 :=
  if model = .ti85 then [0x1A, 0x0C, 0x00] else [0x1A, 0x0A, 0x00]

/-- The data length that `ti8x_file_write_backup` checks and writes. -/
def backupDataLength (content : BackupContent) : Nat :=
  content.part1.length + content.part2.length + content.part3.length + 17
    + (if content.model = .ti86 then content.part4.length else 0)

/-- Whether the version gets the old header: versions 0 to 5, bit 5 apart. -/
def oldHeader (version : UInt8) : Bool := version &&& ~~~0x20 ≤ 0x05

/-- The size of the backup header. -/
def backupHeaderSize (version : UInt8) : Nat := if oldHeader version then 9 else 12

/-- The file header: signature, comment and data length. -/
def backupFileHeader (content : BackupContent) (signature : List UInt8) : List UInt8 :=
  signature ++ fsignature content.model ++ content.comment.val.take 42
    ++ fwriteWord (backupDataLength content)

/-- The backup header. -/
def backupHeader (content : BackupContent) : List UInt8 :=
  fwriteWord (backupHeaderSize content.version)
    ++ fwriteWord content.part1.length ++ fwriteByte content.type
    ++ fwriteWord content.part2.length ++ fwriteWord content.part3.length
    ++ fwriteWord (if content.model ≠ .ti86 then content.memAddress.toNat
       else content.part4.length)
    ++ (if backupHeaderSize content.version = 12 then
        fwriteWord 0 ++ fwriteByte content.version else [])

/-- A part: its length word and its data. -/
def backupPart (part : BackupPart) : List UInt8 := fwriteWord part.length ++ part.val

/-- The third part has no length word when it is empty. -/
def backupPart3 (part : BackupPart) : List UInt8 :=
  (if part.length ≠ 0 then fwriteWord part.length else []) ++ part.val

/-- The parts; the fourth is the TI-86's. -/
def backupParts (content : BackupContent) : List UInt8 :=
  backupPart content.part1 ++ backupPart content.part2 ++ backupPart3 content.part3
    ++ (if content.model = .ti86 then backupPart content.part4 else [])

/-- `ti8x_file_write_backup`: the bytes of the file, and the content with its checksum set. -/
def ti8xFileWriteBackup (content : BackupContent) :
    Except TifilesErr (List UInt8 × BackupContent) :=
  if backupDataLength content > 65535 then .error .groupSize
  else
    match tifilesCalctype2signature content.model with
    | none => .error .nullPointer
    | some sig => do
        let signature ← fwriteNChars 8 sig
        let sum := computeBackupSum content (backupHeaderSize content.version)
        return (backupFileHeader content signature ++ backupHeader content ++ backupParts content
            ++ fwriteWord sum, { content with checksum := UInt16.ofNat sum })

/-! ## reading -/

/-- A length word that must not exceed the size of the file. -/
def freadLength (fileSize : Nat) : FileReader Nat := do
  let length ← freadWord
  if length > fileSize then throw .invalidFile else return length

/-- The data of a part: its length word, which is skipped, and its bytes. -/
def freadPart (length : Nat) : FileReader BackupPart := do
  fskip 2
  let data ← freadBytes length
  if h : data.length < 2 ^ 16 then return ⟨data, h⟩ else throw .fileIo

/-- A part that is there only under a condition. -/
def freadOptPart (there : Bool) (length : Nat) : FileReader BackupPart :=
  if there then freadPart length else return BackupPart.empty

/-- The body of `ti8x_file_read_backup`, once the file is open and its size known. -/
def readBackupBody (fileSize : Nat) (content : BackupContent) : FileReader BackupContent := do
  let signature ← freadNChars 8
  let model := tifilesSignature2calctype signature
  if model = .none then throw .invalidFile
  else
    fskip 3
    let comment ← freadBytes 42
    fskip 2
    let headerSize ← freadWord
    if headerSize < 9 ∨ headerSize > 12 then throw .invalidFile
    else
      let length1 ← freadLength fileSize
      let type ← freadByte
      let length2 ← freadLength fileSize
      let length3 ← freadLength fileSize
      -- the TI-86 has the length of its fourth part where the others have the address
      let word ← freadWord
      let length4 := if model ≠ .ti86 then 0 else word
      let memAddress := if model ≠ .ti86 then UInt16.ofNat word else content.memAddress
      if length4 > fileSize then throw .invalidFile
      else
        let extra ← freadBytes (headerSize - 9)
        let version := (padRight 3 0 extra).getD 2 0
        let part1 ← freadPart length1
        let part2 ← freadPart length2
        let part3 ← freadOptPart (length3 ≠ 0) length3
        let part4 ← freadOptPart (model = .ti86) length4
        let stored ← freadWord
        let content : BackupContent :=
          { model, comment := Buf.ofChars 42 comment, memAddress, type, version, part1, part2,
            part3, part4, checksum := content.checksum, storedChecksum := UInt16.ofNat stored }
        return { content with checksum := UInt16.ofNat (computeBackupSum content headerSize) }

/-- `ti8x_file_read_backup` -/
def ti8xFileReadBackup (filename bytes : List UInt8) (content : BackupContent) :
    Except TifilesErr BackupContent :=
  if !tifilesFileIsBackup filename bytes && !tifilesFileHasTiHeader bytes then .error .invalidFile
  else if bytes.length ≥ 65536 then .error .invalidFile
  else (Proc.exec (readBackupBody bytes.length content) ⟨bytes, 0⟩).1

/-! ## round trip -/

theorem BackupPart.length_lt (part : BackupPart) : part.length < 2 ^ 16 := part.property

theorem consumes_freadLength {fileSize n : Nat} (h : n < 2 ^ 16) (hfit : n ≤ fileSize) :
    Consumes (freadLength fileSize) (fwriteWord n) n := by
  unfold freadLength
  refine (consumes_freadWord h).bind_pure ?_
  rw [if_neg (by omega)]
  exact Consumes.pure n

theorem consumes_freadPart (part : BackupPart) :
    Consumes (freadPart part.length) (backupPart part) part := by
  unfold freadPart backupPart
  refine (Consumes.fskip (length_fwriteWord _)).bind ?_
  refine (consumes_freadBytes rfl).bind_pure ?_
  rw [dif_pos part.property]
  exact Consumes.pure part

theorem consumes_freadOptPart3 (part : BackupPart) :
    Consumes (freadOptPart (part.length ≠ 0) part.length) (backupPart3 part) part := by
  unfold freadOptPart backupPart3
  by_cases hlen : part.length = 0
  · have hempty : part = BackupPart.empty := Subtype.ext (List.eq_nil_of_length_eq_zero hlen)
    subst hempty
    exact Consumes.pure BackupPart.empty
  · rw [if_pos hlen, if_pos (by simpa using hlen)]
    exact consumes_freadPart part

/-- What comes back of a version: the old header has none. -/
theorem version_extra (version : UInt8) :
    (padRight 3 0 (if backupHeaderSize version = 12 then fwriteWord 0 ++ fwriteByte version
      else [])).getD 2 0 = if oldHeader version then 0 else version := by
  unfold backupHeaderSize
  cases oldHeader version <;> rfl

theorem length_extra (version : UInt8) :
    (if backupHeaderSize version = 12 then fwriteWord 0 ++ fwriteByte version
      else []).length = backupHeaderSize version - 9 := by
  unfold backupHeaderSize
  cases oldHeader version <;> rfl

theorem backupHeaderSize_range (version : UInt8) :
    9 ≤ backupHeaderSize version ∧ backupHeaderSize version ≤ 12 := by
  unfold backupHeaderSize
  split <;> decide

/-- What the reader makes of a written file: the model of the signature, and the fields
that the file has; the others stay as they are in `old`. -/
def backupReadBack (content old : BackupContent) (sig : List UInt8) (sum : Nat) : BackupContent :=
  let model := tifilesSignature2calctype sig
  let read : BackupContent :=
    { model
      comment := Buf.ofChars 42 (content.comment.val.take 42)
      memAddress := if model ≠ .ti86 then content.memAddress else old.memAddress
      type := content.type
      version := if oldHeader content.version then 0 else content.version
      part1 := content.part1
      part2 := content.part2
      part3 := content.part3
      part4 := if model = .ti86 then content.part4 else BackupPart.empty
      checksum := old.checksum
      storedChecksum := UInt16.ofNat sum }
  { read with
    checksum := UInt16.ofNat (computeBackupSum read (backupHeaderSize content.version)) }

/-- The reader takes a backup file apart into what the writer put there. -/
theorem consumes_readBackupBody {content : BackupContent} {sig : List UInt8} {fileSize sum : Nat}
    (old : BackupContent) (hsig : IsSignature sig)
    (h86 : tifilesSignature2calctype sig = .ti86 ↔ content.model = .ti86)
    (h1 : content.part1.length ≤ fileSize) (h2 : content.part2.length ≤ fileSize)
    (h3 : content.part3.length ≤ fileSize)
    (h4 : content.model = .ti86 → content.part4.length ≤ fileSize) (hsum : sum < 2 ^ 16) :
    Consumes (readBackupBody fileSize old)
      (backupFileHeader content (padRight 8 0 sig) ++ backupHeader content
        ++ backupParts content ++ fwriteWord sum) (backupReadBack content old sig sum) := by
  have hsize := backupHeaderSize_range content.version
  have hcomment : (content.comment.val.take 42).length = 42 := by
    rw [List.length_take, content.comment.property]
    decide
  have hfsig : (fsignature content.model).length = 3 := by
    unfold fsignature
    split <;> rfl
  have hdata : (fwriteWord (backupDataLength content)).length = 2 := length_fwriteWord _
  unfold readBackupBody backupFileHeader backupHeader backupParts
  simp only [List.append_assoc]
  refine (consumes_fwriteNChars hsig.1.le hsig.2.1).bind ?_
  rw [if_neg hsig.2.2.2]
  refine (Consumes.fskip hfsig).bind ?_
  refine (consumes_freadBytes hcomment).bind ?_
  refine (Consumes.fskip hdata).bind ?_
  refine (consumes_freadWord (n := backupHeaderSize content.version) (by omega)).bind ?_
  rw [if_neg (by omega)]
  refine (consumes_freadLength content.part1.length_lt h1).bind ?_
  refine (consumes_freadByte content.type).bind ?_
  refine (consumes_freadLength content.part2.length_lt h2).bind ?_
  refine (consumes_freadLength content.part3.length_lt h3).bind ?_
  have hword : (if content.model ≠ .ti86 then content.memAddress.toNat
      else content.part4.length) < 2 ^ 16 := by
    split
    · exact content.memAddress.toNat_lt
    · exact content.part4.length_lt
  refine (consumes_freadWord hword).bind ?_
  have hlen4 : ¬(if tifilesSignature2calctype sig ≠ .ti86 then 0
      else if content.model ≠ .ti86 then content.memAddress.toNat
        else content.part4.length) > fileSize := by
    by_cases hm : content.model = .ti86
    · rw [if_neg (by simp [h86, hm]), if_neg (by simp [hm])]
      exact Nat.not_lt.2 (h4 hm)
    · rw [if_pos (by simp [h86, hm])]
      omega
  rw [if_neg hlen4]
  refine (consumes_freadBytes (length_extra content.version)).bind ?_
  refine (consumes_freadPart content.part1).bind ?_
  refine (consumes_freadPart content.part2).bind ?_
  refine (consumes_freadOptPart3 content.part3).bind ?_
  have hpart4 : Consumes (freadOptPart (tifilesSignature2calctype sig = .ti86)
      (if tifilesSignature2calctype sig ≠ .ti86 then 0
        else if content.model ≠ .ti86 then content.memAddress.toNat else content.part4.length))
      (if content.model = .ti86 then backupPart content.part4 else [])
      (if tifilesSignature2calctype sig = .ti86 then content.part4 else BackupPart.empty) := by
    unfold freadOptPart
    by_cases hm : content.model = .ti86
    · simpa [h86, hm] using consumes_freadPart content.part4
    · simpa [h86, hm] using Consumes.pure BackupPart.empty
  refine hpart4.bind ?_
  refine (consumes_freadWord hsum).bind_pure ?_
  have haddress : (if tifilesSignature2calctype sig ≠ .ti86 then
      UInt16.ofNat (if content.model ≠ .ti86 then content.memAddress.toNat
        else content.part4.length)
      else old.memAddress)
      = if tifilesSignature2calctype sig ≠ .ti86 then content.memAddress else old.memAddress := by
    by_cases hm : content.model = .ti86
    · simp [h86, hm]
    · simp [h86, hm]
  rw [haddress, version_extra]
  exact Consumes.pure _

theorem length_backupParts (content : BackupContent) :
    content.part1.length + content.part2.length + content.part3.length
      + (if content.model = .ti86 then content.part4.length else 0)
      ≤ (backupParts content).length := by
  have h1 : content.part1.length = content.part1.val.length := rfl
  have h2 : content.part2.length = content.part2.val.length := rfl
  have h3 : content.part3.length = content.part3.val.length := rfl
  have h4 : content.part4.length = content.part4.val.length := rfl
  unfold backupParts backupPart backupPart3
  split <;> simp only [List.length_append, length_fwriteWord, List.length_nil] <;> omega

/-- What the writer puts into the file of a content that it accepts. -/
theorem written_bytes {content written : BackupContent} {sig bytes : List UInt8}
    (hsome : tifilesCalctype2signature content.model = some sig) (hsig : IsSignature sig)
    (hwrite : ti8xFileWriteBackup content = .ok (bytes, written)) :
    bytes = backupFileHeader content (padRight 8 0 sig) ++ backupHeader content
      ++ backupParts content
      ++ fwriteWord (computeBackupSum content (backupHeaderSize content.version)) := by
  have hfit : ¬8 < sig.length := by
    rw [hsig.1]
    decide
  unfold ti8xFileWriteBackup at hwrite
  split at hwrite
  · cases hwrite
  · rw [hsome] at hwrite
    simp only [fwriteNChars, if_neg hfit] at hwrite
    cases hwrite
    rfl

/-- The reader takes at most 65535 bytes. -/
theorem ti8xFileReadBackup_long {filename bytes : List UInt8} (old : BackupContent)
    (h : 65535 < bytes.length) : ti8xFileReadBackup filename bytes old = .error .invalidFile := by
  unfold ti8xFileReadBackup
  split
  · rfl
  · rw [if_pos (by omega)]

/-- A backup of version 1 with three bytes of data. -/
def sampleBackup (model : CalcModel) : BackupContent where
  model := model
  comment := Buf.ofChars 42 []
  memAddress := 0x8E60
  type := 0x13
  version := 1
  part1 := ⟨[1], by decide⟩
  part2 := ⟨[2], by decide⟩
  part3 := ⟨[], by decide⟩
  part4 := ⟨[4], by decide⟩
  checksum := 0
  storedChecksum := 0

/-- Its file. -/
def sampleFile (model : CalcModel) (sig : List UInt8) : List UInt8 :=
  backupFileHeader (sampleBackup model) sig ++ backupHeader (sampleBackup model)
    ++ backupParts (sampleBackup model) ++ fwriteWord (computeBackupSum (sampleBackup model) 9)

/-- Every backup that is accepted comes back, with the property `keeps` of what is read
and what was written. -/
def BackupsKeep (keeps : BackupContent → BackupContent → Prop) : Prop :=
  ∀ (content written old : BackupContent) (filename bytes : List UInt8),
    tifilesCalcIsTi8x content.model = true →
    ti8xFileWriteBackup content = .ok (bytes, written) →
    ∃ read, ti8xFileReadBackup filename bytes old = .ok read ∧ keeps read content

/-- A TI-83 backup whose data lengths the writer accepts, in a file that is too long. -/
def longBackup : BackupContent :=
  { sampleBackup .ti83 with part1 := ⟨List.replicate 65500 0, by
      rw [List.length_replicate]
      decide⟩ }

theorem longBackup_accepted :
    ∃ bytes written, ti8xFileWriteBackup longBackup = .ok (bytes, written)
      ∧ 65535 < bytes.length := by
  have h1 : longBackup.part1.length = 65500 := List.length_replicate
  have hdata : backupDataLength longBackup = 65518 := by
    rw [backupDataLength, h1]
    rfl
  have hlens := length_backupParts longBackup
  have hwrite : ti8xFileWriteBackup longBackup = .ok (backupFileHeader longBackup
      (padRight 8 0 (ascii "**TI83**")) ++ backupHeader longBackup ++ backupParts longBackup
      ++ fwriteWord (computeBackupSum longBackup 9), { longBackup with
        checksum := UInt16.ofNat (computeBackupSum longBackup 9) }) := by
    unfold ti8xFileWriteBackup
    rw [hdata, if_neg (by decide)]
    rfl
  refine ⟨_, _, hwrite, ?_⟩
  have hheader : 36 ≤ (backupFileHeader longBackup (padRight 8 0 (ascii "**TI83**"))).length := by
    simp only [backupFileHeader, List.length_append, List.length_take,
      longBackup.comment.property]
    omega
  simp only [List.length_append]
  omega

end Tilibs.Files
