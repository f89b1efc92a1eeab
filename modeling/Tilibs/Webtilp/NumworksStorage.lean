import Mathlib
import Tilibs.Lib.Bytes
import Tilibs.Lib.Tiling

/-!
# Tilibs.Webtilp.NumworksStorage

The storage image of a NumWorks calculator: a magic word, records that begin with
their own size, and a zero word after the last of them.

`parseRecords` walks the records with an offset into the image; `encodeRecords` lays
them out behind each other.  The two meet in `storageBytes`, the bytes that a list of
records stands for.
-/

namespace Tilibs.Webtilp

open Lib

/-! ## records -/

/-- `TextEncoder` and `TextDecoder`, of the platform. -/
structure TextCodec where
  encode : String → List UInt8
  decode : List UInt8 → String

/-- A record of the storage; `autoImport` and `code` are there for Python scripts. -/
structure StorageRecord where
  fullName : String
  baseName : String
  type : String
  nameBytes : Option (List UInt8)
  data : List UInt8
  recordSize : Nat
  valid : Bool
  autoImport : Option Bool
  code : Option String
  deriving DecidableEq

/-- What `parseStorageImage` returns. -/
structure StorageImage where
  records : List StorageRecord
  rawImage : List UInt8
  usedBytes : Nat
  freeBytes : Nat
  footerValid : Bool

/-- `STORAGE_MAGIC` -/
def storageMagic : Nat := 0xBADD0BEE

/-- `STORAGE_HEADER_SIZE` -/
def storageHeaderSize : Nat := 4

/-- `STORAGE_TERMINATOR_SIZE` -/
def storageTerminatorSize : Nat := 2

/-- `MAX_STORAGE_SIZE` -/
def maxStorageSize : Int := 512 * 1024

/-! ## parsing -/

/-- The name before the last dot and the type after it; a dot in front is part of the
name. -/
def splitName (fullName : String) : String × String :=
  let reversed := fullName.toList.reverse
  let type := reversed.takeWhile (· ≠ '.')
  let base := (reversed.drop (type.length + 1)).reverse
  if '.' ∈ reversed ∧ base ≠ [] then (String.ofList base, String.ofList type.reverse)
  else (fullName, "")

/-- The fields of a Python script: an import flag, then the code up to its NUL. -/
def pythonRecord (text : TextCodec) (record : StorageRecord) : StorageRecord :=
  let code := (record.data.drop 1).takeWhile (· ≠ 0)
  { record with
    autoImport := some ((record.data.getD 0 0) &&& 0x01 ≠ 0)
    valid := decide (record.data.length ≥ 2 ∧ 1 + code.length < record.data.length)
    code := some (text.decode code) }

/-- The record of `recordSize` bytes at `offset`. -/
def parseRecord (text : TextCodec) (bytes : List UInt8) (offset recordSize : Nat) :
    Except String StorageRecord :=
  let body := slice bytes (offset + 2, recordSize - 2)
  let nameBytes := body.takeWhile (· ≠ 0)
  if nameBytes.length ≥ recordSize - 2 then
    .error s!"NumWorks storage record at {offset} has no terminated name."
  else
    let fullName := text.decode nameBytes
    let (baseName, type) := splitName fullName
    let record : StorageRecord :=
      { fullName
        baseName
        type
        nameBytes := some nameBytes
        data := body.drop (nameBytes.length + 1)
        recordSize
        valid := true
        autoImport := none
        code := none }
    .ok (if type.toLower = "py" then pythonRecord text record else record)

/-- The loop over the records: what it found, and where it stopped. -/
def parseRecords (text : TextCodec) (bytes : List UInt8) (recordLimit offset : Nat) :
    Except String (List StorageRecord × Nat) :=
  if offset + storageTerminatorSize ≤ recordLimit then
    let recordSize := getLE (slice bytes (offset, 2))
    if recordSize = 0 then .ok ([], offset + storageTerminatorSize)
    else if recordSize < 4 ∨ offset + recordSize > recordLimit then
      .error s!"Invalid NumWorks storage record size {recordSize} at {offset}."
    else do
      let record ← parseRecord text bytes offset recordSize
      let (records, usedBytes) ← parseRecords text bytes recordLimit (offset + recordSize)
      return (record :: records, usedBytes)
  else .error "NumWorks storage record terminator is missing."
  termination_by recordLimit - offset
  decreasing_by unfold storageTerminatorSize at *; omega

/-- `parseStorageImage` -/
def parseStorageImage (text : TextCodec) (bytes : List UInt8) (storageSize : Int) :
    Except String StorageImage :=
  if storageSize ≤ 0 ∨ storageSize > maxStorageSize then
    .error s!"Invalid NumWorks storage size {storageSize}."
  else if (bytes.length : Int) < storageSize + 8 then
    .error s!"Short NumWorks storage image ({bytes.length} < {storageSize + 8})."
  else if getBE (slice bytes (0, 4)) ≠ storageMagic then
    .error "NumWorks storage header magic is invalid."
  else do
    let recordLimit := storageHeaderSize + storageSize.toNat
    let (records, offset) ← parseRecords text bytes recordLimit storageHeaderSize
    return {
      records
      rawImage := bytes
      usedBytes := offset
      freeBytes := recordLimit - offset
      footerValid := getBE (slice bytes (recordLimit, 4)) = storageMagic }

/-! ## encoding -/

/-- The name that is written. -/
def StorageRecord.writtenName (text : TextCodec) (record : StorageRecord) : List UInt8 :=
  record.nameBytes.getD (text.encode record.fullName)

/-- The size that is written. -/
def StorageRecord.writtenSize (text : TextCodec) (record : StorageRecord) : Nat :=
  2 + (record.writtenName text).length + 1 + record.data.length

/-- The bytes of a record. -/
def StorageRecord.bytes (text : TextCodec) (record : StorageRecord) : List UInt8 :=
  putLE 2 (record.writtenSize text) ++ (record.writtenName text ++ 0x00 :: record.data)

/-- The loop over the records and the terminator; `total` bytes are before them. -/
def encodeRecords (text : TextCodec) (prefixLimit : Int) (total : Nat) :
    List StorageRecord → Except String (List UInt8)
  | [] => .ok [0x00, 0x00]
  | record :: records =>
      if record.writtenName text = [] ∨ 0 ∈ record.writtenName text then
        .error "NumWorks record name is empty or contains a NUL byte."
      else if record.writtenSize text > 0xFFFF then
        .error s!"NumWorks record {record.fullName} is too large."
      else if ((total + record.writtenSize text + storageTerminatorSize : Nat) : Int) > prefixLimit then
        .error "The NumWorks script storage does not have enough free space."
      else do
        let rest ← encodeRecords text prefixLimit (total + record.writtenSize text) records
        return record.bytes text ++ rest

/-- `encodeStoragePrefix` -/
def encodeStoragePrefix (text : TextCodec) (records : List StorageRecord) (storageSize : Int) :
    Except String (List UInt8) := do
  let rest ← encodeRecords text (storageHeaderSize + storageSize) storageHeaderSize records
  return [0xBA, 0xDD, 0x0B, 0xEE] ++ rest

/-! ## the bytes of a list of records -/

/-- The records behind each other. -/
def storageBytes (text : TextCodec) (records : List StorageRecord) : List UInt8 :=
  records.flatMap (StorageRecord.bytes text)

/-- A record whose name and size can be written. -/
structure StorageRecord.Writable (text : TextCodec) (record : StorageRecord) : Prop where
  named : record.writtenName text ≠ []
  noNul : ∀ b ∈ record.writtenName text, b ≠ 0
  size : record.writtenSize text ≤ 0xFFFF

theorem StorageRecord.length_bytes (text : TextCodec) (record : StorageRecord) :
    (record.bytes text).length = record.writtenSize text := by
  unfold StorageRecord.bytes StorageRecord.writtenSize
  simp only [List.length_append, List.length_cons, length_putLE]
  omega

/-- What the encoder lays out, and what it has checked. -/
theorem encodeRecords_ok {text : TextCodec} {prefixLimit : Int} {total : Nat}
    {records : List StorageRecord} {bytes : List UInt8}
    (h : encodeRecords text prefixLimit total records = .ok bytes) :
    bytes = storageBytes text records ++ [0x00, 0x00]
      ∧ (∀ record ∈ records, record.Writable text)
      ∧ (records ≠ [] → ((total + (storageBytes text records).length + 2 : Nat) : Int) ≤ prefixLimit) := by
  induction records generalizing total bytes with
  | nil =>
      cases h
      exact ⟨rfl, nofun, fun hne => absurd rfl hne⟩
  | cons record records ih =>
      unfold encodeRecords at h
      split at h
      · cases h
      · next hname =>
        split at h
        · cases h
        · next hsize =>
          split at h
          · cases h
          · next hspace =>
            cases hrest : encodeRecords text prefixLimit (total + record.writtenSize text) records with
            | error e =>
                rw [hrest] at h
                cases h
            | ok rest =>
                rw [hrest] at h
                cases h
                obtain ⟨hbytes, hwritable, hlimit⟩ := ih hrest
                rw [not_or] at hname
                have hlen := record.length_bytes text
                refine ⟨?_, ?_, fun _ => ?_⟩
                · rw [hbytes]
                  simp [storageBytes]
                · intro r hr
                  cases hr with
                  | head => exact ⟨hname.1, fun b hb hb0 => hname.2 (hb0 ▸ hb), by omega⟩
                  | tail _ hr => exact hwritable r hr
                · unfold storageBytes at hlimit ⊢
                  rw [List.flatMap_cons, List.length_append, hlen]
                  by_cases hnil : records = []
                  · rw [hnil, List.flatMap_nil, List.length_nil]
                    unfold storageTerminatorSize at hspace
                    omega
                  · have hmore := hlimit hnil
                    omega

/-! ## reading the records back -/

/-- The name ends at the first NUL. -/
theorem takeWhile_name {name : List UInt8} (h : ∀ b ∈ name, b ≠ 0) (data : List UInt8) :
    (name ++ 0x00 :: data).takeWhile (· ≠ 0) = name := by
  rw [List.takeWhile_append_of_pos (by simpa using h), List.takeWhile_cons_of_neg (by simp),
    List.append_nil]

/-- A record that begins at `offset` is read back. -/
theorem parseRecord_bytes {text : TextCodec} {record : StorageRecord} {image rest : List UInt8}
    {offset : Nat} (h : record.Writable text)
    (himage : image.drop offset = record.bytes text ++ rest) :
    ∃ parsed, parseRecord text image offset (record.writtenSize text) = .ok parsed
      ∧ parsed.nameBytes = some (record.writtenName text) ∧ parsed.data = record.data := by
  have hbody : slice image (offset + 2, record.writtenSize text - 2)
      = record.writtenName text ++ 0x00 :: record.data := by
    unfold slice
    dsimp only
    rw [← List.drop_drop, himage]
    unfold StorageRecord.bytes StorageRecord.writtenSize
    rw [List.append_assoc, List.drop_left' (length_putLE _ _)]
    exact List.take_left' (by simp only [List.length_append, List.length_cons]; omega)
  have hname := takeWhile_name h.noNul record.data
  have hlen : ¬ (record.writtenName text).length ≥ record.writtenSize text - 2 := by
    unfold StorageRecord.writtenSize
    omega
  have hdata : (record.writtenName text ++ 0x00 :: record.data).drop
      ((record.writtenName text).length + 1) = record.data := by
    rw [← List.drop_drop, List.drop_left]
    rfl
  unfold parseRecord
  dsimp only
  rw [hbody, hname, if_neg hlen, hdata]
  split
  · exact ⟨_, rfl, rfl, rfl⟩
  · exact ⟨_, rfl, rfl, rfl⟩

/-- The records come back in order, and the loop stops behind the terminator. -/
theorem parseRecords_storageBytes {text : TextCodec} {records : List StorageRecord}
    {image rest : List UInt8} {recordLimit offset : Nat}
    (hwritable : ∀ record ∈ records, record.Writable text)
    (himage : image.drop offset = storageBytes text records ++ 0x00 :: 0x00 :: rest)
    (hlimit : offset + (storageBytes text records).length + 2 ≤ recordLimit) :
    ∃ parsed, parseRecords text image recordLimit offset
        = .ok (parsed, offset + (storageBytes text records).length + 2)
      ∧ parsed.map (fun r => (r.nameBytes, r.data))
        = records.map fun r => (some (r.writtenName text), r.data) := by
  induction records generalizing offset with
  | nil =>
      have hword : getLE (slice image (offset, 2)) = 0 := by
        unfold slice
        dsimp only
        rw [himage]
        rfl
      refine ⟨[], ?_, rfl⟩
      rw [parseRecords, if_pos (by simpa [storageBytes, storageTerminatorSize] using hlimit)]
      dsimp only
      rw [hword, if_pos rfl]
      rfl
  | cons record records ih =>
      have hrecord := hwritable record (List.mem_cons_self ..)
      have hsize := hrecord.size
      have hlen := record.length_bytes text
      have hmin : 4 ≤ record.writtenSize text := by
        have hpos := List.length_pos_iff.mpr hrecord.named
        unfold StorageRecord.writtenSize
        omega
      have hbytes : storageBytes text (record :: records)
          = record.bytes text ++ storageBytes text records := List.flatMap_cons
      rw [hbytes] at himage hlimit ⊢
      rw [List.length_append, hlen] at hlimit ⊢
      have hword : getLE (slice image (offset, 2)) = record.writtenSize text := by
        unfold slice
        dsimp only
        rw [himage]
        unfold StorageRecord.bytes
        rw [List.append_assoc, List.append_assoc, List.take_left' (length_putLE _ _),
          getLE_putLE (by omega)]
      rw [List.append_assoc] at himage
      obtain ⟨parsed, hparse, hname, hdata⟩ := parseRecord_bytes hrecord himage
      have hdrop : image.drop (offset + record.writtenSize text)
          = storageBytes text records ++ 0x00 :: 0x00 :: rest := by
        rw [← List.drop_drop, himage, List.drop_left' hlen]
      obtain ⟨tail, htail, hmap⟩ := ih (fun r hr => hwritable r (List.mem_cons_of_mem _ hr)) hdrop
        (by omega)
      refine ⟨parsed :: tail, ?_, ?_⟩
      · rw [parseRecords, if_pos (by unfold storageTerminatorSize; omega)]
        dsimp only
        rw [hword, if_neg (by omega), if_neg (by omega), hparse, htail]
        show Except.ok (parsed :: tail, _) = _
        rw [Nat.add_assoc offset]
      · rw [List.map_cons, List.map_cons, hmap, hname, hdata]

/-! ## writing what was read -/

/-- A record that has a terminated name is its name, the NUL and the rest. -/
theorem name_nul_data {body : List UInt8} (h : (body.takeWhile (· ≠ 0)).length < body.length) :
    body.takeWhile (· ≠ 0) ++ 0x00 :: body.drop ((body.takeWhile (· ≠ 0)).length + 1) = body := by
  induction body with
  | nil => simp at h
  | cons b bs ih =>
      by_cases hb : b = 0
      · rw [hb, List.takeWhile_cons_of_neg (by simp)]
        rfl
      · rw [List.takeWhile_cons_of_pos (by simpa using hb)] at h ⊢
        rw [List.cons_append, List.length_cons, List.drop_succ_cons]
        rw [ih (by simpa using h)]

/-- What is read from `recordSize` bytes is written as these bytes. -/
theorem parseRecord_ok {text : TextCodec} {image : List UInt8} {offset recordSize : Nat}
    {record : StorageRecord} (hword : getLE (slice image (offset, 2)) = recordSize)
    (hmin : 4 ≤ recordSize) (hend : offset + recordSize ≤ image.length)
    (h : parseRecord text image offset recordSize = .ok record) :
    record.bytes text = slice image (offset, recordSize) := by
  have hlen : (slice image (offset + 2, recordSize - 2)).length = recordSize - 2 :=
    length_slice (by omega)
  have hsplit : slice image (offset, 2) ++ slice image (offset + 2, recordSize - 2)
      = slice image (offset, recordSize) := by
    rw [slice_append]
    congr 2
    omega
  have hsize : putLE 2 recordSize = slice image (offset, 2) := by
    have hread := putLE_getLE (slice image (offset, 2))
    rw [hword, length_slice (by omega)] at hread
    exact hread
  unfold parseRecord at h
  dsimp only at h
  split at h
  · cases h
  · next hname =>
    have hbody := name_nul_data (show ((slice image (offset + 2, recordSize - 2)).takeWhile
      (· ≠ 0)).length < (slice image (offset + 2, recordSize - 2)).length by omega)
    generalize slice image (offset + 2, recordSize - 2) = body at *
    -- the Python fields leave the name and the data as they are
    have hfields : record.writtenName text = body.takeWhile (· ≠ 0)
        ∧ record.data = body.drop ((body.takeWhile (· ≠ 0)).length + 1) := by
      split at h <;> cases h <;> exact ⟨rfl, rfl⟩
    have hwritten : record.writtenSize text = recordSize := by
      have hbodyLen := congrArg List.length hbody
      rw [List.length_append, List.length_cons] at hbodyLen
      unfold StorageRecord.writtenSize
      rw [hfields.1, hfields.2]
      omega
    unfold StorageRecord.bytes
    rw [hwritten, hfields.1, hfields.2, hbody, hsize, hsplit]

/-- What the loop reads is written as the bytes it went over. -/
theorem parseRecords_ok {text : TextCodec} {image : List UInt8} {recordLimit offset : Nat}
    {records : List StorageRecord} {usedBytes : Nat} (hlimit : recordLimit ≤ image.length)
    (h : parseRecords text image recordLimit offset = .ok (records, usedBytes)) :
    offset ≤ usedBytes ∧ storageBytes text records ++ [0x00, 0x00]
      = slice image (offset, usedBytes - offset) := by
  fun_induction parseRecords text image recordLimit offset generalizing records usedBytes with
  | case1 offset hroom recordSize =>
      rename_i hzero
      cases h
      unfold storageTerminatorSize at hroom ⊢
      have hread := putLE_getLE (slice image (offset, 2))
      rw [show getLE (slice image (offset, 2)) = 0 from hzero, length_slice (by omega)] at hread
      exact ⟨by omega, by rw [Nat.add_sub_cancel_left, ← hread]; rfl⟩
  | case2 offset hroom recordSize hzero => cases h
  | case3 offset hroom recordSize hzero hbad =>
      rename_i ih
      rw [not_or] at hbad
      cases hrecord : parseRecord text image offset recordSize with
      | error e =>
          rw [hrecord] at h
          cases h
      | ok record =>
          cases hrest : parseRecords text image recordLimit (offset + recordSize) with
          | error e =>
              rw [hrecord, hrest] at h
              cases h
          | ok rest =>
              rw [hrecord, hrest] at h
              cases h
              obtain ⟨hle, hbytes⟩ := ih hrest
              have hfirst := parseRecord_ok rfl (by omega) (by omega) hrecord
              refine ⟨by omega, ?_⟩
              have hrange : rest.2 - offset = recordSize + (rest.2 - (offset + recordSize)) := by
                omega
              rw [hrange, ← slice_append, ← hbytes, ← hfirst]
              simp [storageBytes]
  | case4 offset hroom => cases h

/-! ## the image -/

/-- The bytes of `STORAGE_MAGIC`. -/
theorem getBE_storageMagic : getBE [0xBA, 0xDD, 0x0B, 0xEE] = storageMagic := by decide

/-- The magic word, the records and the terminator. -/
theorem encodeStoragePrefix_ok {text : TextCodec} {storageSize : Int}
    {records : List StorageRecord} {encoded : List UInt8}
    (h : encodeStoragePrefix text records storageSize = .ok encoded) :
    encoded = [0xBA, 0xDD, 0x0B, 0xEE] ++ (storageBytes text records ++ [0x00, 0x00])
      ∧ (∀ record ∈ records, record.Writable text)
      ∧ (records ≠ [] → (encoded.length : Int) ≤ storageHeaderSize + storageSize) := by
  unfold encodeStoragePrefix at h
  cases hrecords : encodeRecords text (storageHeaderSize + storageSize) storageHeaderSize records with
  | error e =>
      rw [hrecords] at h
      cases h
  | ok bytes =>
      rw [hrecords] at h
      cases h
      obtain ⟨rfl, hwritable, hlimit⟩ := encodeRecords_ok hrecords
      refine ⟨rfl, hwritable, fun hne => ?_⟩
      have hroom := hlimit hne
      simp only [List.length_append, List.length_cons, List.length_nil, storageHeaderSize] at hroom ⊢
      omega

/-- An image that begins with a prefix that was encoded, and has room for it, is parsed. -/
theorem parseStorageImage_encoded {text : TextCodec} {storageSize : Int}
    {records : List StorageRecord} {encoded image : List UInt8}
    (hmax : storageSize ≤ maxStorageSize)
    (hencode : encodeStoragePrefix text records storageSize = .ok encoded)
    (hroom : (encoded.length : Int) ≤ storageHeaderSize + storageSize)
    (himage : (image.length : Int) = storageSize + 8) (hstart : encoded <+: image) :
    ∃ parsed, parseStorageImage text image storageSize = .ok parsed
      ∧ parsed.records.map (fun r => (r.nameBytes, r.data))
        = records.map (fun r => (some (r.writtenName text), r.data))
      ∧ parsed.usedBytes = encoded.length := by
  obtain ⟨rfl, hwritable, -⟩ := encodeStoragePrefix_ok hencode
  obtain ⟨rest, rfl⟩ := hstart
  have hdrop : ([0xBA, 0xDD, 0x0B, 0xEE] ++ (storageBytes text records ++ [0x00, 0x00])
      ++ rest).drop storageHeaderSize = storageBytes text records ++ 0x00 :: 0x00 :: rest := by
    simp [storageHeaderSize]
  have hmagic : getBE (slice ([0xBA, 0xDD, 0x0B, 0xEE] ++ (storageBytes text records ++ [0x00, 0x00])
      ++ rest) (0, 4)) = storageMagic := getBE_storageMagic
  have hused : ([0xBA, 0xDD, 0x0B, 0xEE] ++ (storageBytes text records ++ [0x00, 0x00])).length
      = storageHeaderSize + (storageBytes text records).length + 2 := by
    simp only [List.length_append, List.length_cons, List.length_nil, storageHeaderSize]
    omega
  rw [hused] at hroom
  unfold storageHeaderSize at hroom
  obtain ⟨parsed, hparse, hmap⟩ := parseRecords_storageBytes hwritable hdrop
    (show _ ≤ storageHeaderSize + storageSize.toNat by unfold storageHeaderSize; omega)
  unfold parseStorageImage
  rw [if_neg (by omega), if_neg (by omega), if_neg (not_not_intro hmagic)]
  dsimp only
  rw [hparse]
  exact ⟨_, rfl, hmap, hused.symm⟩

/-- An image that begins with the prefix of some records is parsed. -/
theorem parseStorageImage_prefix {text : TextCodec} {storageSize : Int}
    {records : List StorageRecord} {encoded image : List UInt8} (hne : records ≠ [])
    (hmax : storageSize ≤ maxStorageSize)
    (hencode : encodeStoragePrefix text records storageSize = .ok encoded)
    (himage : (image.length : Int) = storageSize + 8) (hstart : encoded <+: image) :
    ∃ parsed, parseStorageImage text image storageSize = .ok parsed
      ∧ parsed.records.map (fun r => (r.nameBytes, r.data))
        = records.map (fun r => (some (r.writtenName text), r.data))
      ∧ parsed.usedBytes = encoded.length :=
  parseStorageImage_encoded hmax hencode ((encodeStoragePrefix_ok hencode).2.2 hne) himage hstart

/-- The records that are read end within the storage. -/
theorem parseRecords_bounds {text : TextCodec} {image : List UInt8} {recordLimit offset : Nat}
    {records : List StorageRecord} {usedBytes : Nat}
    (h : parseRecords text image recordLimit offset = .ok (records, usedBytes)) :
    offset + 2 ≤ usedBytes ∧ usedBytes ≤ recordLimit := by
  fun_induction parseRecords text image recordLimit offset generalizing records usedBytes with
  | case1 offset hroom =>
      cases h
      unfold storageTerminatorSize at hroom ⊢
      exact ⟨le_rfl, hroom⟩
  | case2 offset hroom recordSize hzero => cases h
  | case3 offset hroom recordSize hzero hbad =>
      rename_i ih
      cases hrecord : parseRecord text image offset recordSize with
      | error e =>
          rw [hrecord] at h
          cases h
      | ok record =>
          cases hrest : parseRecords text image recordLimit (offset + recordSize) with
          | error e =>
              rw [hrecord, hrest] at h
              cases h
          | ok rest =>
              rw [hrecord, hrest] at h
              cases h
              obtain ⟨hmin, hmax⟩ := ih hrest
              exact ⟨by omega, hmax⟩
  | case4 offset hroom => cases h

theorem parseStorageImage_bounds {text : TextCodec} {storageSize : Int} {image : List UInt8}
    {parsed : StorageImage} (h : parseStorageImage text image storageSize = .ok parsed) :
    2 ≤ storageSize ∧ storageSize ≤ maxStorageSize
      ∧ (parsed.usedBytes : Int) ≤ storageHeaderSize + storageSize := by
  unfold parseStorageImage at h
  split at h
  · cases h
  · next hsize =>
    split at h
    · cases h
    · split at h
      · cases h
      · cases hrecords : parseRecords text image (storageHeaderSize + storageSize.toNat)
            storageHeaderSize with
        | error e =>
            dsimp only at h
            rw [hrecords] at h
            cases h
        | ok found =>
            dsimp only at h
            rw [hrecords] at h
            cases h
            obtain ⟨hmin, hmax⟩ := parseRecords_bounds hrecords
            unfold storageHeaderSize at hmin hmax ⊢
            dsimp only
            omega

/-- The records of an image are encoded as the bytes that were used. -/
theorem encodeStoragePrefix_parsed {text : TextCodec} {storageSize capacity : Int} {image : List UInt8}
    {parsed : StorageImage} {encoded : List UInt8}
    (hparse : parseStorageImage text image storageSize = .ok parsed)
    (hencode : encodeStoragePrefix text parsed.records capacity = .ok encoded) :
    encoded = image.take parsed.usedBytes := by
  unfold parseStorageImage at hparse
  split at hparse
  · cases hparse
  · next hsize =>
    split at hparse
    · cases hparse
    · next hlength =>
      split at hparse
      · cases hparse
      · next hmagic =>
        cases hrecords : parseRecords text image (storageHeaderSize + storageSize.toNat)
            storageHeaderSize with
        | error e =>
            dsimp only at hparse
            rw [hrecords] at hparse
            cases hparse
        | ok found =>
            dsimp only at hparse
            rw [hrecords] at hparse
            cases hparse
            unfold encodeStoragePrefix at hencode
            dsimp only at hencode ⊢
            cases hbytes : encodeRecords text (storageHeaderSize + capacity) storageHeaderSize
                found.1 with
            | error e =>
                rw [hbytes] at hencode
                cases hencode
            | ok bytes =>
                rw [hbytes] at hencode
                cases hencode
                have hheader : [0xBA, 0xDD, 0x0B, 0xEE] = slice image (0, 4) := by
                  have hread := putBE_getBE (slice image (0, 4))
                  rw [not_not.mp hmagic, length_slice (by omega)] at hread
                  exact hread
                obtain ⟨hle, hslice⟩ := parseRecords_ok (by unfold storageHeaderSize; omega) hrecords
                unfold storageHeaderSize at hle hslice
                rw [(encodeRecords_ok hbytes).1, hslice, hheader]
                show slice image (0, 4) ++ slice image (0 + 4, found.2 - 4) = image.take found.2
                rw [slice_append, Nat.add_sub_cancel' hle]
                rfl

/-- The storage of a calculator: what was encoded is parsed, and what was parsed is encoded,
up to a storage that is full. -/
theorem storage_roundTrip (text : TextCodec) (storageSize : Int) :
    (∀ records encoded image, records ≠ [] → storageSize ≤ maxStorageSize →
      encodeStoragePrefix text records storageSize = .ok encoded →
      (image.length : Int) = storageSize + 8 → encoded <+: image →
      ∃ parsed, parseStorageImage text image storageSize = .ok parsed
        ∧ parsed.records.map (fun r => (r.nameBytes, r.data))
          = records.map (fun r => (some (r.writtenName text), r.data))
        ∧ parsed.usedBytes = encoded.length)
    ∧ ∀ image parsed capacity encoded, parseStorageImage text image storageSize = .ok parsed →
      encodeStoragePrefix text parsed.records capacity = .ok encoded →
      encoded = image.take parsed.usedBytes :=
  ⟨fun _ _ _ hne hmax hencode himage hstart =>
      parseStorageImage_prefix hne hmax hencode himage hstart,
    fun _ _ _ _ hparse hencode => encodeStoragePrefix_parsed hparse hencode⟩

/-- Text of ASCII characters only. -/
def asciiText : TextCodec where
  encode s := s.toList.map fun c => UInt8.ofNat c.toNat
  decode bytes := String.ofList (bytes.map fun b => Char.ofNat b.toNat)

/-- A record of six bytes. -/
def sampleRecord : StorageRecord where
  fullName := "x"
  baseName := "x"
  type := ""
  nameBytes := some [0x78]
  data := [1, 2]
  recordSize := 6
  valid := true
  autoImport := none
  code := none

/-- A storage that the record fills. -/
def sampleImage : List UInt8 :=
  [0xBA, 0xDD, 0x0B, 0xEE, 0x06, 0x00, 0x78, 0x00, 0x01, 0x02, 0x00, 0x00, 0xBA, 0xDD, 0x0B, 0xEE]

theorem storage_roundTrip_full :
    ∃ parsed encoded, parseStorageImage asciiText sampleImage 8 = .ok parsed
      ∧ parsed.records.map (fun r => (r.nameBytes, r.data)) = [(some [0x78], [1, 2])]
      ∧ encodeStoragePrefix asciiText parsed.records 8 = .ok encoded
      ∧ encoded = sampleImage.take 12 := by
  have hencode : encodeStoragePrefix asciiText [sampleRecord] 8 = .ok (sampleImage.take 12) := rfl
  obtain ⟨parsed, hparse, hrecords, hused⟩ := (storage_roundTrip asciiText 8).1 [sampleRecord]
    (sampleImage.take 12) sampleImage (by decide) (by decide) hencode rfl
    (List.take_prefix 12 sampleImage)
  obtain ⟨record, hrecord, hfields⟩ := List.map_eq_singleton_iff.mp hrecords
  obtain ⟨hname, hdata⟩ := Prod.mk.inj hfields
  have hagain : encodeStoragePrefix asciiText parsed.records 8 = .ok (sampleImage.take 12) := by
    rw [hrecord, ← hencode]
    simp only [encodeStoragePrefix, encodeRecords, StorageRecord.writtenName,
      StorageRecord.writtenSize, StorageRecord.bytes, hname, hdata]
    rfl
  exact ⟨parsed, _, hparse, hrecords, hagain,
    (storage_roundTrip asciiText 8).2 sampleImage parsed 8 _ hparse hagain |>.trans
      (by rw [hused]; rfl)⟩

end Tilibs.Webtilp
