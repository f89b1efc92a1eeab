import Tilibs.Files.EvoFileMeta
import Tilibs.Files.RwFile

/-!
# Tilibs.Files.EvoPython

Python modules of the TI-84 Evo (`files_evo.cc`): `tifiles_evo_repack_python_module` makes a
module of the older systems (a script) of one for the newer systems, and the other way round.
-/

namespace Tilibs.Files

open Lib Evo

/-! ## Python objects -/

def evoTypePythonScript : Nat := 15
def evoTypePythonModule : Nat := 18

/-- The loop over the records of an object; every round goes forward, so `fuel` is the end of the
object.  The kinds that were seen are the bits of a number. -/
def evoPythonRecords (data : List UInt8) (stop : Nat) : Nat → Nat → Nat → Option Nat
  | 0, _, _ => none
  | fuel + 1, off, seen =>
      if stop ≤ off then some seen
      else if stop - off < 5 then none
      else
        let len := getLE (slice data (off, 3))
        let kind := (data.getD (off + 3) 0).toNat
        if stop - off - 5 < len ∨ data.getD (off + 4 + len) 0 ≠ 0 then none
        else if (kind = 0 ∧ seen ≠ 0) ∨ (kind = 1 ∧ seen ≠ 1)
            ∨ (kind = 2 ∧ seen ≠ 1 ∧ seen ≠ 3) ∨ 2 < kind then none
        else if kind = 2 ∧ (len < 4 ∨ slice data (off + 4, 2) ≠ [0x4D, 0x05]) then none
        else evoPythonRecords data stop fuel (off + 5 + len) (seen ||| 2 ^ kind)

/-- The records of an object: a name, perhaps a menu, and a program. -/
def evoPythonRecordsValid (data : List UInt8) : Bool :=
  let stop := getLE (slice data (4, 4))
  8 < stop && stop ≤ data.length
    && (evoPythonRecords data stop stop 8 0 = some 5 || evoPythonRecords data stop stop 8 0 = some 7)

/-- `evo_python_object_valid` -/
def evoPythonObjectValid (file : EvoFileMeta) : Bool :=
  match file.payload with
  | none => false
  | some data =>
      (file.type = evoTypePythonScript || file.type = evoTypePythonModule)
        && 8 ≤ data.length && file.payloadSize = data.length
        && slice data (0, 4) = [0x13, 0x02, 0xD8, 0x20] && evoPythonRecordsValid data

/-- `tifiles_evo_is_python_module` -/
def tifilesEvoIsPythonModule (data : List UInt8) : Bool :=
  evoFileHasChecksum data && (evoParseFileMeta data true).any evoPythonObjectValid

/-! ## writing -/

/-- `evo_cbor_append_arg` -/
def evoCborAppendArg (major : UInt8) (value : Nat) : List UInt8 :=
  if value < 24 then [major ||| UInt8.ofNat value]
  else if value < 256 then [major ||| 24, UInt8.ofNat value]
  else if value < 65536 then [major ||| 25, UInt8.ofNat (value / 256), UInt8.ofNat value]
  else (major ||| 26) :: putBE 4 value

/-- `evo_cbor_append_key` -/
def evoCborAppendKey (key : List UInt8) : List UInt8 :=
  evoCborAppendArg 0x60 key.length ++ key

/-- A name without the zero at its end. -/
def evoStripName (name : List UInt8) : List UInt8 :=
  if 2 ≤ name.length ∧ getLE (name.drop (name.length - 2)) = 0 then name.take (name.length - 2)
  else name

/-- The metadata of the other form. -/
def evoPackMetadata (modern : Bool) (name : List UInt8) : List UInt8 :=
  [0xBF] ++ (evoCborAppendKey keyType ++ evoCborAppendArg 0 (if modern then 15 else 18)
    ++ (evoCborAppendKey keyVersion ++ evoCborAppendArg 0 1)
    ++ (if modern then [] else evoCborAppendKey keyFlags ++ evoCborAppendArg 0 1)
    ++ (evoCborAppendKey keyName
      ++ evoCborAppendArg 0x40 ((name.length + if modern then 0 else 2) % 2 ^ 32)
      ++ (name ++ if modern then [] else [0, 0])) ++ [0xFF])

/-- The file of the other form, without the checksum. -/
def evoPackBody (modern : Bool) (name payload : List UInt8) : List UInt8 :=
  [0xBF] ++ (evoCborAppendKey keyMetaData ++ evoPackMetadata modern name
    ++ (evoCborAppendKey keyVersion ++ evoCborAppendArg 0 1)
    ++ (evoCborAppendKey keySize ++ evoCborAppendArg 0 (payload.length % 2 ^ 32))
    ++ (evoCborAppendKey keyData ++ evoCborAppendArg 0x40 (payload.length % 2 ^ 32) ++ payload)
    ++ [0xFF])

/-- The file of the other form. -/
def evoPackModule (modern : Bool) (name payload : List UInt8) : List UInt8 :=
  evoPackBody modern name payload
    ++ putBE 2 (evoFileChecksum (evoPackBody modern name payload)).toNat

/-- Whether a file is a module that can be repacked. -/
def evoRepackable (file : EvoFileMeta) : Bool :=
  let name := file.name.getD []
  evoPythonObjectValid file && !file.unfamiliar && file.fields = 15 && file.version = 1
    && file.fileVersion = 1 && 0 < name.length && name.length % 2 = 0
    && evoStripName name ≠ []
    && (List.range ((evoStripName name).length / 2)).all (fun i =>
      getLE (slice (evoStripName name) (i * 2, 2)) ≠ 0)
    && if file.type = evoTypePythonModule then file.metaFields = 15 && file.flags = 1
      else file.metaFields = 7

def gMaxUint32 : Nat := 2 ^ 32 - 1

/-- `tifiles_evo_repack_python_module` -/
def tifilesEvoRepackPythonModule (data : List UInt8) : Except TifilesErr (List UInt8) :=
  match (if evoFileHasChecksum data then evoParseFileMeta data true else none) with
  | none => .error .invalidFile
  | some file =>
      if evoRepackable file = false ∨ gMaxUint32 - 128 < data.length then .error .invalidFile
      else .ok (evoPackModule (file.type = evoTypePythonModule) (evoStripName (file.name.getD []))
        (file.payload.getD []))

/-! ## reading what is written -/

section Written

variable {rest : List UInt8}

theorem toNat_major {major : UInt8} (hmajor : major ∈ [0x00, 0x40, 0x60]) {addl : Nat}
    (haddl : addl < 27) : (major ||| UInt8.ofNat addl).toNat / 32 = major.toNat / 32
      ∧ (major ||| UInt8.ofNat addl).toNat % 32 = addl := by
  have hall : ∀ major ∈ ([0x00, 0x40, 0x60] : List UInt8), ∀ addl : Fin 27,
      (major ||| UInt8.ofNat addl).toNat / 32 = major.toNat / 32
        ∧ (major ||| UInt8.ofNat addl).toNat % 32 = addl := by decide
  exact hall major hmajor ⟨addl, haddl⟩

/-- What is written for a number is read as that number. -/
theorem exists_arg {major : UInt8} (hmajor : major ∈ [0x00, 0x40, 0x60]) {value : Nat}
    (hvalue : value < 2 ^ 32) : ∃ initial ext, evoCborAppendArg major value = initial :: ext
      ∧ initial.toNat / 32 = major.toNat / 32 ∧ initial.toNat % 32 < 27
      ∧ ∀ rest, evoCborReadUintArg (initial.toNat % 32) (ext ++ rest) = some (value, rest) := by
  unfold evoCborAppendArg
  split_ifs with hdirect hone htwo
  · obtain ⟨hdiv, hmod⟩ := toNat_major hmajor (show value < 27 by omega)
    refine ⟨_, [], rfl, hdiv, by omega, fun rest => ?_⟩
    rw [hmod]
    exact if_pos hdirect
  · have hnumber : getBE [UInt8.ofNat value] = value := getBE_putBE (k := 1) (by omega)
    obtain ⟨hdiv, hmod⟩ : (major ||| 24).toNat / 32 = major.toNat / 32
      ∧ (major ||| 24).toNat % 32 = 24 := @toNat_major major hmajor 24 (by decide)
    refine ⟨_, _, rfl, hdiv, by omega, fun rest => ?_⟩
    rw [hmod]
    simp [evoCborReadUintArg, evoCborReadBE, hnumber]
  · have hnumber : getBE [UInt8.ofNat (value / 256), UInt8.ofNat value] = value :=
      getBE_putBE (k := 2) (by omega)
    obtain ⟨hdiv, hmod⟩ : (major ||| 25).toNat / 32 = major.toNat / 32
      ∧ (major ||| 25).toNat % 32 = 25 := @toNat_major major hmajor 25 (by decide)
    refine ⟨_, _, rfl, hdiv, by omega, fun rest => ?_⟩
    rw [hmod]
    simp [evoCborReadUintArg, evoCborReadBE, hnumber]
  · have hnumber : getBE (putBE 4 value) = value := getBE_putBE (by omega)
    obtain ⟨hdiv, hmod⟩ : (major ||| 26).toNat / 32 = major.toNat / 32
      ∧ (major ||| 26).toNat % 32 = 26 := @toNat_major major hmajor 26 (by decide)
    refine ⟨_, _, rfl, hdiv, by omega, fun rest => ?_⟩
    rw [hmod]
    simp [evoCborReadUintArg, evoCborReadBE, hnumber]

theorem evoCborReadUintValue_arg {value : Nat} (hvalue : value < 2 ^ 32) (rest : List UInt8) :
    evoCborReadUintValue (evoCborAppendArg 0 value ++ rest) = some (value, rest) := by
  obtain ⟨initial, ext, harg, hdiv, -, hread⟩ := @exists_arg 0x00 (by decide) value hvalue
  rw [harg]
  have hmajor : ¬initial.toNat / 32 ≠ 0 := by
    rw [hdiv]
    decide
  exact (if_neg hmajor).trans (hread rest)

/-- Bytes with their number before them. -/
theorem evoCborReadString_arg {major : UInt8} (hmajor : major ∈ [0x00, 0x40, 0x60])
    {str : List UInt8} (hstr : str.length < 2 ^ 32) (rest : List UInt8) :
    evoCborReadString (major.toNat / 32) (evoCborAppendArg major str.length ++ (str ++ rest))
      = some (str, rest) := by
  obtain ⟨initial, ext, harg, hdiv, -, hread⟩ := exists_arg hmajor hstr
  rw [harg, List.cons_append]
  simp only [evoCborReadString]
  rw [if_neg (not_not.mpr hdiv), hread, Option.bind_some,
    if_neg (by rw [List.length_append]; omega), List.take_left, List.drop_left]

/-- The keys are short, and have no zeros. -/
structure PlainKey (key : List UInt8) : Prop where
  short : key.length < evoCborKeySize
  plain : cstr key = key

theorem evoCborReadTextKey_key {key : List UInt8} (hkey : PlainKey key) (rest : List UInt8) :
    evoCborReadTextKey (evoCborAppendKey key ++ rest) = some (key, rest) := by
  have hshort : key.length < 32 := hkey.short
  have hread := @evoCborReadString_arg 0x60 (by decide) key (by omega) rest
  unfold evoCborReadTextKey evoCborAppendKey
  rw [choose_eq_some_iff, List.append_assoc]
  refine ⟨key, hread, ?_⟩
  rw [if_neg (Nat.not_le.mpr hkey.short), hkey.plain]

/-- A key is no break. -/
theorem evoCborMapDone_key (key rest : List UInt8) (hkey : PlainKey key) (index : Nat) :
    evoCborMapDone index none (evoCborAppendKey key ++ rest) = none := by
  have hshort : key.length < 32 := hkey.short
  obtain ⟨initial, ext, harg, hdiv, -⟩ := @exists_arg 0x60 (by decide) key.length (by omega)
  unfold evoCborMapDone evoCborAppendKey
  rw [harg]
  refine if_neg ?_
  intro hbreak
  obtain rfl := Option.some.inj hbreak
  exact absurd hdiv (by decide)

/-- With enough fuel the loop over a map ends with a result. -/
def Loops (value : EvoFileMeta → List UInt8 → Reader UInt8 EvoFileMeta) (file : EvoFileMeta)
    (data : List UInt8) (result : EvoFileMeta × List UInt8) : Prop :=
  ∀ fuel index, data.length < fuel → evoMapLoop value none fuel index file data = some result

section Loops

variable {value : EvoFileMeta → List UInt8 → Reader UInt8 EvoFileMeta} {file file' : EvoFileMeta}
variable {data : List UInt8} {result : EvoFileMeta × List UInt8}

/-- One round of the loop over a map. -/
theorem loops_key {key : List UInt8} (hkey : PlainKey key)
    (hvalue : value file key data = some (file', rest)) (hrest : rest.length ≤ data.length)
    (hmore : Loops value file' rest result) :
    Loops value file (evoCborAppendKey key ++ data) result := by
  intro fuel index hfuel
  rw [List.length_append] at hfuel
  obtain ⟨fuel, rfl⟩ : ∃ k, fuel = k + 1 := ⟨fuel - 1, by omega⟩
  have hpos : 0 < (evoCborAppendKey key).length := by
    unfold evoCborAppendKey evoCborAppendArg
    rw [List.length_append]
    split_ifs <;> simp
  rw [evoMapLoop, evoCborMapDone_key key data hkey, evoCborReadTextKey_key hkey]
  show (value file key data).bind _ = _
  rw [hvalue]
  exact hmore fuel (index + 1) (by omega)

/-- A break ends the loop over a map. -/
theorem loops_break (value : EvoFileMeta → List UInt8 → Reader UInt8 EvoFileMeta)
    (hfile : file = file') (rest : List UInt8) : Loops value file (0xFF :: rest) (file', rest) := by
  subst hfile
  intro fuel index hfuel
  cases fuel with
  | zero => exact absurd hfuel (Nat.not_lt_zero _)
  | succ fuel => rfl

theorem evoReadMap_loops (h : Loops value file data result) :
    evoReadMap value file (0xBF :: data) = some result :=
  h _ 0 (Nat.lt_succ_self _)

end Loops

/-- A field with a number. -/
theorem choose_uint {mark : EvoFileMeta × Nat → EvoFileMeta}
    {f : Nat → Option (EvoFileMeta × Nat)} {value : Nat} {seen : EvoFileMeta × Nat}
    (hvalue : value < 2 ^ 32) (hf : f value = some seen) (rest : List UInt8) :
    ((evoCborReadUintValue.choose f).choose fun seen => some (mark seen))
      (evoCborAppendArg 0 value ++ rest) = some (mark seen, rest) :=
  choose_eq_some_iff.mpr ⟨seen, choose_eq_some_iff.mpr
    ⟨value, evoCborReadUintValue_arg hvalue rest, hf⟩, rfl⟩

/-- A field with bytes. -/
theorem choose_bytes {mark : EvoFileMeta × Nat → EvoFileMeta}
    {f : List UInt8 → Option (EvoFileMeta × Nat)} {str : List UInt8} {seen : EvoFileMeta × Nat}
    (hstr : str.length < 2 ^ 32) (hf : f str = some seen) (rest : List UInt8) :
    (((evoCborReadString 2).choose f).choose fun seen => some (mark seen))
      (evoCborAppendArg 0x40 str.length ++ (str ++ rest)) = some (mark seen, rest) :=
  choose_eq_some_iff.mpr ⟨seen, choose_eq_some_iff.mpr
    ⟨str, @evoCborReadString_arg 0x40 (by decide) str hstr rest, hf⟩, rfl⟩

theorem length_append_right_le (xs ys : List UInt8) : ys.length ≤ (xs ++ ys).length := by
  rw [List.length_append]
  exact Nat.le_add_left _ _

theorem plainKey_type : PlainKey keyType := ⟨by decide, by decide⟩
theorem plainKey_version : PlainKey keyVersion := ⟨by decide, by decide⟩
theorem plainKey_flags : PlainKey keyFlags := ⟨by decide, by decide⟩
theorem plainKey_name : PlainKey keyName := ⟨by decide, by decide⟩
theorem plainKey_metaData : PlainKey keyMetaData := ⟨by decide, by decide⟩
theorem plainKey_size : PlainKey keySize := ⟨by decide, by decide⟩
theorem plainKey_data : PlainKey keyData := ⟨by decide, by decide⟩

section Values

variable (total : Nat) (file : EvoFileMeta)

/-- The value of a key of the metadata, with the mark of its field. -/
def markedMetadata (key : List UInt8) : Reader UInt8 EvoFileMeta :=
  (evoMetadataValue total true file key).choose fun seen => some (EvoFileMeta.markMeta seen)

theorem markedMetadata_type {value : Nat} (hvalue : value ≤ 255) (rest : List UInt8) :
    markedMetadata total file keyType (evoCborAppendArg 0 value ++ rest)
      = some (EvoFileMeta.markMeta ({ file with type := value }, 1), rest) := by
  unfold markedMetadata evoMetadataValue
  rw [if_pos rfl]
  exact choose_uint (by omega) (if_neg (by omega)) rest

theorem markedMetadata_version {value : Nat} (hvalue : value < 2 ^ 32) (rest : List UInt8) :
    markedMetadata total file keyVersion (evoCborAppendArg 0 value ++ rest)
      = some (EvoFileMeta.markMeta ({ file with version := value }, 4), rest) := by
  unfold markedMetadata evoMetadataValue
  rw [if_neg (by decide), if_neg (by decide), if_pos ⟨rfl, rfl⟩]
  exact choose_uint hvalue rfl rest

theorem markedMetadata_flags {value : Nat} (hvalue : value < 2 ^ 32) (rest : List UInt8) :
    markedMetadata total file keyFlags (evoCborAppendArg 0 value ++ rest)
      = some (EvoFileMeta.markMeta ({ file with flags := value }, 8), rest) := by
  unfold markedMetadata evoMetadataValue
  rw [if_neg (by decide), if_neg (by decide), if_neg (by decide), if_pos ⟨rfl, rfl⟩]
  exact choose_uint hvalue rfl rest

theorem markedMetadata_name {name : List UInt8} (hname : name.length < 2 ^ 32)
    (rest : List UInt8) :
    markedMetadata total file keyName (evoCborAppendArg 0x40 name.length ++ (name ++ rest))
      = some (EvoFileMeta.markMeta ({ file with name := some name }, 2), rest) := by
  unfold markedMetadata evoMetadataValue
  rw [if_neg (by decide), if_pos rfl]
  exact choose_bytes hname rfl rest

/-- The value of a key of the file, with the mark of its field. -/
def markedFile (key : List UInt8) : Reader UInt8 EvoFileMeta :=
  (evoFileValue total true file key).choose fun seen => some (EvoFileMeta.mark seen)

theorem markedFile_metaData {file' : EvoFileMeta} {data rest : List UInt8}
    (h : evoParseMetadata total true file data = some (file', rest)) :
    markedFile total file keyMetaData data = some (EvoFileMeta.mark (file', 1), rest) := by
  unfold markedFile evoFileValue
  rw [if_pos rfl]
  exact choose_eq_some_iff.mpr ⟨_, choose_eq_some_iff.mpr ⟨file', h, rfl⟩, rfl⟩

theorem markedFile_version {value : Nat} (hvalue : value < 2 ^ 32) (rest : List UInt8) :
    markedFile total file keyVersion (evoCborAppendArg 0 value ++ rest)
      = some (EvoFileMeta.mark ({ file with fileVersion := value }, 2), rest) := by
  unfold markedFile evoFileValue
  rw [if_neg (by decide), if_pos ⟨rfl, rfl⟩]
  exact choose_uint hvalue rfl rest

theorem markedFile_size {value : Nat} (hvalue : value < 2 ^ 32) (rest : List UInt8) :
    markedFile total file keySize (evoCborAppendArg 0 value ++ rest)
      = some (EvoFileMeta.mark ({ file with payloadSize := value }, 4), rest) := by
  unfold markedFile evoFileValue
  rw [if_neg (by decide), if_neg (by decide), if_pos ⟨rfl, rfl⟩]
  exact choose_uint hvalue rfl rest

theorem markedFile_data {payload : List UInt8} (hpayload : payload.length < 2 ^ 32)
    (rest : List UInt8) :
    markedFile total file keyData (evoCborAppendArg 0x40 payload.length ++ (payload ++ rest))
      = some (EvoFileMeta.mark ({ file with payload := some payload }, 8), rest) := by
  unfold markedFile evoFileValue
  rw [if_neg (by decide), if_neg (by decide), if_neg (by decide), if_pos ⟨rfl, rfl⟩]
  exact choose_bytes hpayload rfl rest

end Values

/-- What is read from the metadata of a packed file. -/
def packedMetadata (modern : Bool) (name : List UInt8) : EvoFileMeta where
  type := if modern then 15 else 18
  name := some (if modern then name else name ++ [0, 0])
  version := 1
  flags := if modern then 0 else 1
  metaFields := if modern then 7 else 15

theorem evoParseMetadata_pack (total : Nat) (modern : Bool) {name : List UInt8}
    (hname : name.length + 2 < 2 ^ 32) (rest : List UInt8) :
    evoParseMetadata total true {} (evoPackMetadata modern name ++ rest)
      = some (packedMetadata modern name, rest) := by
  cases modern with
  | true =>
      have hlength : (name.length + 0) % 2 ^ 32 = name.length := Nat.mod_eq_of_lt (by omega)
      unfold evoPackMetadata
      simp only [if_true, List.append_assoc, List.nil_append, List.append_nil, List.cons_append,
        hlength]
      apply evoReadMap_loops
      refine loops_key plainKey_type (markedMetadata_type total _ (by decide) _)
        (length_append_right_le _ _) ?_
      refine loops_key plainKey_version (markedMetadata_version total _ (by decide) _)
        (length_append_right_le _ _) ?_
      refine loops_key plainKey_name (markedMetadata_name total _ (by omega) _)
        (by rw [List.length_append, List.length_append]; omega) ?_
      exact loops_break _ (by simp [EvoFileMeta.markMeta, packedMetadata]) rest
  | false =>
      have hbytes : (name.length + 2) % 2 ^ 32 = (name ++ [0, 0]).length := by
        rw [Nat.mod_eq_of_lt hname, List.length_append]
        rfl
      have hlength : (name ++ [0, 0]).length < 2 ^ 32 := by
        rw [List.length_append]
        exact hname
      unfold evoPackMetadata
      simp only [Bool.false_eq_true, if_false, List.append_assoc, List.nil_append, List.cons_append,
        hbytes]
      apply evoReadMap_loops
      refine loops_key plainKey_type (markedMetadata_type total _ (by decide) _)
        (length_append_right_le _ _) ?_
      refine loops_key plainKey_version (markedMetadata_version total _ (by decide) _)
        (length_append_right_le _ _) ?_
      refine loops_key plainKey_flags (markedMetadata_flags total _ (by decide) _)
        (length_append_right_le _ _) ?_
      have hname (file : EvoFileMeta) := markedMetadata_name total file hlength (0xFF :: rest)
      simp only [List.append_assoc, List.cons_append, List.nil_append] at hname
      refine loops_key plainKey_name (hname _)
        (by simp only [List.length_append, List.length_cons]; omega) ?_
      exact loops_break _ (by simp [EvoFileMeta.markMeta, packedMetadata]) rest

/-- What is read from a packed file. -/
def packedMeta (modern : Bool) (name payload : List UInt8) : EvoFileMeta where
  type := if modern then 15 else 18
  name := some (if modern then name else name ++ [0, 0])
  payload := some payload
  version := 1
  fileVersion := 1
  payloadSize := payload.length
  flags := if modern then 0 else 1
  fields := 15
  metaFields := if modern then 7 else 15

theorem evoFileBody_pack (modern : Bool) (name payload : List UInt8) :
    evoFileBody (evoPackModule modern name payload) = evoPackBody modern name payload := by
  unfold evoFileBody evoPackModule
  rw [List.length_append, length_putBE, if_pos (Nat.le_add_left _ _), Nat.add_sub_cancel,
    List.take_left]

/-- A packed file is read as what was packed. -/
theorem evoParseFileMeta_pack (modern : Bool) {name payload : List UInt8}
    (hname : name.length + 2 < 2 ^ 32) (hpayload : payload.length < 2 ^ 32) :
    evoParseFileMeta (evoPackModule modern name payload) true
      = some (packedMeta modern name payload) := by
  have hread : evoReadMap (markedFile (evoPackBody modern name payload).length) {}
      (evoPackBody modern name payload) = some (packedMeta modern name payload, []) := by
    generalize (evoPackBody modern name payload).length = total
    have hlength : payload.length % 2 ^ 32 = payload.length := Nat.mod_eq_of_lt hpayload
    unfold evoPackBody
    simp only [List.append_assoc, List.nil_append, List.cons_append, hlength]
    apply evoReadMap_loops
    refine loops_key plainKey_metaData (markedFile_metaData total _
      (evoParseMetadata_pack total modern hname _)) (length_append_right_le _ _) ?_
    refine loops_key plainKey_version (markedFile_version total _ (by decide) _)
      (length_append_right_le _ _) ?_
    refine loops_key plainKey_size (markedFile_size total _ hpayload _)
      (length_append_right_le _ _) ?_
    refine loops_key plainKey_data (markedFile_data total _ hpayload _)
      (by simp only [List.length_append]; omega) ?_
    exact loops_break _ (by simp [EvoFileMeta.mark, packedMetadata, packedMeta]) []
  unfold evoParseFileMeta
  rw [evoFileBody_pack]
  show (evoReadMap (markedFile (evoPackBody modern name payload).length) {}
    (evoPackBody modern name payload)).bind _ = _
  rw [hread]
  cases modern <;> rfl

end Written

/-! ## names -/

/-- A name with no zero in it. -/
structure GoodName (name : List UInt8) : Prop where
  nonempty : name ≠ []
  even : name.length % 2 = 0
  words : ∀ i < name.length / 2, getLE (slice name (i * 2, 2)) ≠ 0

section Names

variable {name : List UInt8}

theorem evoStripName_good (h : GoodName name) : evoStripName name = name := by
  have hpos := List.length_pos_iff.mpr h.nonempty
  have heven := h.even
  have hlast := h.words (name.length / 2 - 1) (by omega)
  have hslice : slice name ((name.length / 2 - 1) * 2, 2) = name.drop (name.length - 2) := by
    unfold slice
    dsimp only
    rw [show (name.length / 2 - 1) * 2 = name.length - 2 by omega]
    exact List.take_of_length_le (by rw [List.length_drop]; omega)
  rw [hslice] at hlast
  exact if_neg fun hzero => hlast hzero.2

theorem evoStripName_zero (name : List UInt8) : evoStripName (name ++ [0, 0]) = name := by
  have hlength : (name ++ [0, 0]).length - 2 = name.length := by
    rw [List.length_append]
    exact Nat.add_sub_cancel _ _
  unfold evoStripName
  rw [hlength, List.drop_left, List.take_left,
    if_pos ⟨by rw [List.length_append]; exact Nat.le_add_left _ _, rfl⟩]

theorem evoStripName_packed (modern : Bool) (h : GoodName name) :
    evoStripName (if modern then name else name ++ [0, 0]) = name := by
  cases modern with
  | true => exact evoStripName_good h
  | false => exact evoStripName_zero name

theorem length_evoStripName_le (name : List UInt8) : (evoStripName name).length ≤ name.length := by
  unfold evoStripName
  split
  · exact List.length_take_le' _ _
  · exact le_rfl

theorem length_evoStripName_mod (heven : name.length % 2 = 0) :
    (evoStripName name).length % 2 = 0 := by
  unfold evoStripName
  split
  · next h =>
    rw [List.length_take]
    omega
  · exact heven

end Names

/-! ## repacking -/

/-- The data of a module. -/
structure GoodPayload (payload : List UInt8) : Prop where
  long : 8 ≤ payload.length
  magic : slice payload (0, 4) = [0x13, 0x02, 0xD8, 0x20]
  records : evoPythonRecordsValid payload = true

section Repack

variable {data out name payload : List UInt8} {file : EvoFileMeta}

/-- What is known of a file that can be repacked. -/
theorem good_of_repackable (h : evoRepackable file = true) :
    ∃ payload, file.payload = some payload ∧ GoodPayload payload
      ∧ GoodName (evoStripName (file.name.getD [])) := by
  unfold evoRepackable at h
  simp only [Bool.and_eq_true, decide_eq_true_eq, List.all_eq_true, List.mem_range] at h
  obtain ⟨⟨⟨⟨⟨⟨⟨⟨⟨hobject, -⟩, -⟩, -⟩, -⟩, -⟩, heven⟩, hne⟩, hwords⟩, -⟩ := h
  unfold evoPythonObjectValid at hobject
  cases hpayload : file.payload with
  | none =>
      rw [hpayload] at hobject
      cases hobject
  | some payload =>
      rw [hpayload] at hobject
      simp only [Bool.and_eq_true, decide_eq_true_eq] at hobject
      obtain ⟨⟨⟨⟨-, hlong⟩, -⟩, hmagic⟩, hrecords⟩ := hobject
      exact ⟨payload, rfl, ⟨hlong, hmagic, hrecords⟩, ⟨hne, length_evoStripName_mod heven, hwords⟩⟩

theorem evoPythonObjectValid_packed (modern : Bool) (hpayload : GoodPayload payload) :
    evoPythonObjectValid (packedMeta modern name payload) = true := by
  obtain ⟨hlong, hmagic, hrecords⟩ := hpayload
  cases modern <;> simp [evoPythonObjectValid, packedMeta, hlong, hmagic, hrecords,
    evoTypePythonScript, evoTypePythonModule]

theorem evoRepackable_packed (modern : Bool) (hname : GoodName name)
    (hpayload : GoodPayload payload) : evoRepackable (packedMeta modern name payload) = true := by
  have hobject := @evoPythonObjectValid_packed name payload modern hpayload
  have hgetD : (packedMeta modern name payload).name.getD []
    = if modern then name else name ++ [0, 0] := rfl
  have hlength : 0 < (if modern then name else name ++ [0, 0]).length
      ∧ (if modern then name else name ++ [0, 0]).length % 2 = 0 := by
    have hpos := List.length_pos_iff.mpr hname.nonempty
    have heven := hname.even
    cases modern with
    | true => exact ⟨hpos, heven⟩
    | false =>
        show 0 < (name ++ [0, 0]).length ∧ (name ++ [0, 0]).length % 2 = 0
        rw [List.length_append, List.length_cons, List.length_singleton]
        omega
  unfold evoRepackable
  simp only [Bool.and_eq_true, decide_eq_true_eq, List.all_eq_true, List.mem_range]
  rw [hgetD, evoStripName_packed modern hname]
  refine ⟨⟨⟨⟨⟨⟨⟨⟨⟨hobject, rfl⟩, rfl⟩, rfl⟩, rfl⟩, hlength.1⟩, hlength.2⟩, hname.nonempty⟩,
    hname.words⟩, ?_⟩
  cases modern <;> rfl

theorem evoFileHasChecksum_pack (modern : Bool) (name payload : List UInt8) :
    evoFileHasChecksum (evoPackModule modern name payload) = true := by
  obtain ⟨tail, hbody, hlong⟩ : ∃ tail, evoPackBody modern name payload = 0xBF :: tail
      ∧ 2 ≤ tail.length := by
    refine ⟨(evoPackBody modern name payload).tail, rfl, ?_⟩
    rw [List.length_tail]
    unfold evoPackBody evoPackMetadata
    simp only [List.length_append, List.length_cons, List.length_nil]
    omega
  have hlength : (evoPackModule modern name payload).length - 2
      = (evoPackBody modern name payload).length := by
    unfold evoPackModule
    rw [List.length_append, length_putBE, Nat.add_sub_cancel]
  have hchecksum (checksum : UInt16) :
      UInt16.ofNat (getBE (putBE 2 checksum.toNat)) = checksum := by
    rw [getBE_putBE (show checksum.toNat < 256 ^ 2 from checksum.toNat_lt), UInt16.ofNat_toNat]
  unfold evoFileHasChecksum
  simp only [Bool.and_eq_true, decide_eq_true_eq]
  refine ⟨⟨?_, ?_⟩, ?_⟩
  · unfold evoPackModule
    rw [hbody, List.length_append, length_putBE, List.length_cons]
    omega
  · unfold evoPackModule
    rw [hbody]
    rfl
  · rw [hlength]
    unfold evoPackModule
    rw [List.drop_left, List.take_left, hchecksum]

/-- Packing what was packed makes the first form again, if the file is not too long. -/
theorem tifilesEvoRepackPythonModule_pack (modern : Bool) (hname : GoodName name)
    (hpayload : GoodPayload payload) (hnameLength : name.length + 2 < 2 ^ 32)
    (hlength : payload.length < 2 ^ 32) :
    tifilesEvoRepackPythonModule (evoPackModule modern name payload)
      = if gMaxUint32 - 128 < (evoPackModule modern name payload).length then .error .invalidFile
        else .ok (evoPackModule (!modern) name payload) := by
  have htype : decide ((packedMeta modern name payload).type = evoTypePythonModule) = !modern := by
    cases modern <;> rfl
  have hgetD : (packedMeta modern name payload).name.getD []
    = if modern then name else name ++ [0, 0] := rfl
  unfold tifilesEvoRepackPythonModule
  rw [evoFileHasChecksum_pack, if_pos rfl, evoParseFileMeta_pack modern hnameLength hlength]
  dsimp only
  rw [evoRepackable_packed modern hname hpayload, hgetD, evoStripName_packed modern hname, htype]
  simp only [Bool.true_eq_false, false_or]
  rfl

/-- What a file that is accepted holds. -/
theorem exists_pack_of_repack (h : tifilesEvoRepackPythonModule data = .ok out) :
    ∃ file payload modern, evoParseFileMeta data true = some file ∧ file.payload = some payload
      ∧ GoodPayload payload ∧ GoodName (evoStripName (file.name.getD []))
      ∧ (evoStripName (file.name.getD [])).length + 2 < 2 ^ 32 ∧ payload.length < 2 ^ 32
      ∧ out = evoPackModule modern (evoStripName (file.name.getD [])) payload := by
  unfold tifilesEvoRepackPythonModule at h
  cases hfile : (if evoFileHasChecksum data then evoParseFileMeta data true else none) with
  | none =>
      rw [hfile] at h
      cases h
  | some file =>
      rw [hfile] at h
      dsimp only at h
      have hparse : evoParseFileMeta data true = some file := by
        split at hfile
        · exact hfile
        · cases hfile
      split at h
      · cases h
      · next hok =>
        obtain ⟨haccepted, hsize⟩ := not_or.mp hok
        obtain ⟨payload, hpayload, hgood, hname⟩ :=
          good_of_repackable (Bool.eq_true_of_not_eq_false haccepted)
        have hbounded := bounded_evoParseFileMeta hparse
        have hlimit : data.length ≤ 2 ^ 32 - 1 - 128 := Nat.not_lt.mp hsize
        have hpayloadLength := hbounded.payload payload hpayload
        have hnameLength : (file.name.getD []).length ≤ data.length := by
          cases hname : file.name with
          | none => exact Nat.zero_le _
          | some name => exact hbounded.name name hname
        have hstrip := length_evoStripName_le (file.name.getD [])
        rw [hpayload] at h
        exact ⟨file, payload, _, hparse, hpayload, hgood, hname, by omega, by omega,
          (Except.ok.inj h).symm⟩

/-- A module that is repacked is a module with the same name and the same data.  It can be
repacked if it is not too long, and then twice more gives it back. -/
theorem tifilesEvoRepackPythonModule_repacks
    (h : tifilesEvoRepackPythonModule data = .ok out) :
    tifilesEvoIsPythonModule out = true
      ∧ (∃ file file', evoParseFileMeta data true = some file
        ∧ evoParseFileMeta out true = some file' ∧ file'.payload = file.payload
        ∧ evoStripName (file'.name.getD []) = evoStripName (file.name.getD []))
      ∧ ((∃ out', tifilesEvoRepackPythonModule out = .ok out') ↔ out.length ≤ gMaxUint32 - 128)
      ∧ ∀ out' out'', tifilesEvoRepackPythonModule out = .ok out' →
        tifilesEvoRepackPythonModule out' = .ok out'' → out'' = out := by
  obtain ⟨file, payload, modern, hparse, hpayload, hgood, hname, hnameLength, hlength, rfl⟩ :=
    exists_pack_of_repack h
  have hrepack (modern : Bool) :=
    tifilesEvoRepackPythonModule_pack modern hname hgood hnameLength hlength
  have hread := evoParseFileMeta_pack modern hnameLength hlength
  refine ⟨?_, ⟨file, _, hparse, hread, hpayload.symm, evoStripName_packed modern hname⟩, ?_, ?_⟩
  · unfold tifilesEvoIsPythonModule
    rw [evoFileHasChecksum_pack, hread]
    exact evoPythonObjectValid_packed modern hgood
  · rw [hrepack modern]
    constructor
    · rintro ⟨out', hout⟩
      split at hout
      · cases hout
      · next hsize => exact Nat.not_lt.mp hsize
    · intro hsize
      exact ⟨_, if_neg (Nat.not_lt.mpr hsize)⟩
  · intro out' out'' hout' hout''
    rw [hrepack modern] at hout'
    split at hout'
    · cases hout'
    · obtain rfl := Except.ok.inj hout'
      rw [hrepack (!modern)] at hout''
      split at hout''
      · cases hout''
      · rw [Bool.not_not] at hout''
        exact (Except.ok.inj hout'').symm

end Repack

/-! ## examples -/

section Examples

/-- Records are looked at up to the end of the object only. -/
theorem evoPythonRecords_append {data : List UInt8} {stop : Nat} (hstop : stop ≤ data.length)
    (rest : List UInt8) (fuel off seen : Nat) :
    evoPythonRecords (data ++ rest) stop fuel off seen = evoPythonRecords data stop fuel off seen := by
  have hslice {off k : Nat} (h : off + k ≤ data.length) :
      slice (data ++ rest) (off, k) = slice data (off, k) := by
    unfold slice
    dsimp only
    rw [List.drop_append_of_le_length (by omega), List.take_append_of_le_length]
    rw [List.length_drop]
    omega
  have hgetD {off : Nat} (h : off < data.length) :
      (data ++ rest).getD off 0 = data.getD off 0 := by
    rw [List.getD_eq_getElem?_getD, List.getD_eq_getElem?_getD, List.getElem?_append_left h]
  induction fuel generalizing off seen with
  | zero => rfl
  | succ fuel ih =>
      unfold evoPythonRecords
      by_cases hend : stop ≤ off
      · rw [if_pos hend, if_pos hend]
      · rw [if_neg hend, if_neg hend]
        by_cases hshort : stop - off < 5
        · rw [if_pos hshort, if_pos hshort]
        · rw [if_neg hshort, if_neg hshort, hslice (show off + 3 ≤ data.length by omega),
            hgetD (show off + 3 < data.length by omega)]
          dsimp only
          by_cases hlong : stop - off - 5 < getLE (slice data (off, 3))
          · rw [if_pos (.inl hlong), if_pos (.inl hlong)]
          · have hmagic : (getLE (slice data (off, 3)) < 4
                  ∨ slice (data ++ rest) (off + 4, 2) ≠ [0x4D, 0x05])
                = (getLE (slice data (off, 3)) < 4 ∨ slice data (off + 4, 2) ≠ [0x4D, 0x05]) := by
              by_cases hfour : getLE (slice data (off, 3)) < 4
              · simp only [hfour, true_or]
              · rw [hslice (by omega)]
            rw [hgetD (show off + 4 + getLE (slice data (off, 3)) < data.length by omega)]
            simp only [hmagic, ih]

/-- The object with a name, a menu and a program, and bytes behind it that it does not declare. -/
def smallPayload (rest : List UInt8) : List UInt8 :=
  [0x13, 0x02, 0xD8, 0x20, 30, 0, 0, 0, 1, 0, 0, 0, 0x4D, 0, 2, 0, 0, 1, 0x23, 0x0A, 0,
    4, 0, 0, 2, 0x4D, 0x05, 0x03, 0x1F, 0] ++ rest

theorem goodPayload_small (rest : List UInt8) : GoodPayload (smallPayload rest) := by
  constructor
  · unfold smallPayload
    rw [List.length_append]
    exact Nat.le_add_right_of_le (by decide)
  · rfl
  · have hstop : getLE (slice (smallPayload rest) (4, 4)) = 30 := rfl
    have hlength : 30 ≤ (smallPayload rest).length := by
      unfold smallPayload
      rw [List.length_append]
      exact Nat.le_add_right _ _
    have hrecords : evoPythonRecords (smallPayload rest) 30 30 8 0 = some 7 := by
      unfold smallPayload
      rw [evoPythonRecords_append (by decide)]
      decide
    unfold evoPythonRecordsValid
    dsimp only
    rw [hstop, hrecords]
    simp [hlength]

theorem goodName_small : GoodName [0x0C, 0xE8] := ⟨by decide, by decide, by decide⟩

/-- A script that is made a module, with some bytes behind its object. -/
theorem tifilesEvoRepackPythonModule_repacks_small :
    tifilesEvoIsPythonModule
      (evoPackModule false [0x0C, 0xE8] (smallPayload [0xA5, 0xA5])) = true := by
  refine (@tifilesEvoRepackPythonModule_repacks
    (evoPackModule true [0x0C, 0xE8] (smallPayload [0xA5, 0xA5])) _ ?_).1
  rw [tifilesEvoRepackPythonModule_pack true goodName_small (goodPayload_small _) (by decide)
    (by decide)]
  exact if_neg (by decide)

/-- The lengths of the two forms of a large module with a short name. -/
theorem length_evoPackModule_large {payload : List UInt8} (hlow : 65536 ≤ payload.length)
    (hhigh : payload.length < 2 ^ 32) :
    (evoPackModule true [0x0C, 0xE8] payload).length = payload.length + 67
      ∧ (evoPackModule false [0x0C, 0xE8] payload).length = payload.length + 76 := by
  have harg (major : UInt8) :
      (evoCborAppendArg major (payload.length % 2 ^ 32)).length = 5 := by
    rw [Nat.mod_eq_of_lt hhigh]
    unfold evoCborAppendArg
    rw [if_neg (by omega), if_neg (by omega), if_neg (by omega), List.length_cons, length_putBE]
  have hmodern : (evoPackMetadata true [0x0C, 0xE8]).length = 25 := by decide
  have hold : (evoPackMetadata false [0x0C, 0xE8]).length = 34 := by decide
  have hone : (evoCborAppendArg 0 1).length = 1 := rfl
  have hmetaData : (evoCborAppendKey keyMetaData).length = 9 := rfl
  have hversion : (evoCborAppendKey keyVersion).length = 8 := rfl
  have hsize : (evoCborAppendKey keySize).length = 5 := rfl
  have hdata : (evoCborAppendKey keyData).length = 5 := rfl
  unfold evoPackModule evoPackBody
  simp only [List.length_append, List.length_singleton, length_putBE, harg, hmodern, hold, hone,
    hmetaData, hversion, hsize, hdata]
  omega

/-- A script of nearly four gigabytes, and the module that is made of it: the longer form is refused
for its length. -/
theorem not_repacked_of_long :
    tifilesEvoRepackPythonModule
        (evoPackModule true [0x0C, 0xE8] (smallPayload (List.replicate 4294967070 0)))
      = .ok (evoPackModule false [0x0C, 0xE8] (smallPayload (List.replicate 4294967070 0)))
    ∧ tifilesEvoRepackPythonModule
        (evoPackModule false [0x0C, 0xE8] (smallPayload (List.replicate 4294967070 0)))
      = .error .invalidFile := by
  have hpayload (n : Nat) : (smallPayload (List.replicate n 0)).length = n + 30 := by
    unfold smallPayload
    rw [List.length_append, List.length_replicate, Nat.add_comm]
    rfl
  generalize hrest : List.replicate 4294967070 (0 : UInt8) = rest
  have hlength : (smallPayload rest).length = 4294967100 := by
    rw [← hrest]
    exact hpayload 4294967070
  have hlarge := length_evoPackModule_large (show 65536 ≤ (smallPayload rest).length by omega)
    (by omega)
  have hlimit : gMaxUint32 - 128 = 4294967167 := rfl
  have hrepack (modern : Bool) := tifilesEvoRepackPythonModule_pack modern goodName_small
    (goodPayload_small rest) (by decide) (show (smallPayload rest).length < 2 ^ 32 by omega)
  constructor
  · rw [hrepack true, if_neg (by omega)]
    rfl
  · rw [hrepack false, if_pos (by omega)]

end Examples

end Tilibs.Files
