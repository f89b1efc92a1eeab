import Tilibs.Files.EvoCborSkip

/-!
# Tilibs.Files.EvoFileMeta

The files of the TI-84 Evo (`files_evo.cc`): a CBOR map with the metadata of a variable and its
data, and a checksum behind it.
-/

namespace Tilibs.Files

open Lib Evo

/-! ## the checksum -/

/-- `evo_file_checksum` -/
def evoFileChecksum (body : List UInt8) : UInt16 :=
  if body.length < 3 then 0
  else
    let adjusted := body.length - 3
    let wordCount :=
      if adjusted % 2 = 1 ∧ 0 < adjusted / 2 then adjusted / 2 - 1 else adjusted / 2
    (List.range wordCount).foldl
      (fun checksum i => checksum ^^^ UInt16.ofNat (getLE (slice body (i * 2, 2)))) 0

/-- `evo_file_has_checksum` -/
def evoFileHasChecksum (data : List UInt8) : Bool :=
  5 ≤ data.length && data.head? = some 0xBF
    && UInt16.ofNat (getBE (data.drop (data.length - 2)))
      = evoFileChecksum (data.take (data.length - 2))

/-! ## values -/

/-- A byte or text string of a given length.  A string of no given length is refused with its
number. -/
def evoCborReadString (major : Nat) : Reader UInt8 (List UInt8)
  | [] => none
  | head :: data =>
      if head.toNat / 32 ≠ major then none
      else (evoCborReadUintArg (head.toNat % 32) data).bind fun len =>
        if len.2.length < len.1 then none else some (len.2.take len.1, len.2.drop len.1)

def evoCborKeySize : Nat := 32

/-- `evo_cbor_read_text_key`; the key is a C string. -/
def evoCborReadTextKey : Reader UInt8 (List UInt8) :=
  (evoCborReadString 3).choose fun key =>
    if evoCborKeySize ≤ key.length then none else some (cstr key)

/-- `evo_cbor_read_uint_value` -/
def evoCborReadUintValue : Reader UInt8 Nat
  | [] => none
  | head :: data =>
      if head.toNat / 32 ≠ 0 then none else evoCborReadUintArg (head.toNat % 32) data

/-- `evo_cbor_read_bytes_value` -/
def evoCborReadBytesValue : Reader UInt8 (List UInt8) := evoCborReadString 2

/-- `evo_cbor_enter_map`: the number of pairs, if it is given. -/
def evoCborEnterMap : Reader UInt8 (Option Nat)
  | [] => none
  | head :: data =>
      if head.toNat / 32 ≠ 5 then none
      else if head.toNat % 32 = 31 then some (none, data)
      else (evoCborReadUintArg (head.toNat % 32) data).map fun count => (some count.1, count.2)

/-- `evo_cbor_map_done`: what follows the map, when it is at its end. -/
def evoCborMapDone (index : Nat) (count : Option Nat) (data : List UInt8) : Option (List UInt8) :=
  match count with
  | some count => if count ≤ index then some data else none
  | none => if data.head? = some evoCborBreak then some data.tail else none

/-! ## the metadata -/

/-- `EvoFileMeta` -/
structure EvoFileMeta where
  type : Nat := 0
  name : Option (List UInt8) := none
  payload : Option (List UInt8) := none
  version : Nat := 0
  fileVersion : Nat := 0
  payloadSize : Nat := 0
  flags : Nat := 0
  fields : Nat := 0
  metaFields : Nat := 0
  unfamiliar : Bool := false
  deriving DecidableEq

def keyMetaData : List UInt8 := [0x6D, 0x65, 0x74, 0x61, 0x44, 0x61, 0x74, 0x61]
def keyType : List UInt8 := [0x74, 0x79, 0x70, 0x65]
def keyName : List UInt8 := [0x6E, 0x61, 0x6D, 0x65]
def keyVersion : List UInt8 := [0x76, 0x65, 0x72, 0x73, 0x69, 0x6F, 0x6E]
def keyFlags : List UInt8 := [0x66, 0x6C, 0x61, 0x67, 0x73]
def keySize : List UInt8 := [0x73, 0x69, 0x7A, 0x65]
def keyData : List UInt8 := [0x64, 0x61, 0x74, 0x61]

/-- A value that is not looked at. -/
def evoSkipValue (total : Nat) (file : EvoFileMeta) : Reader UInt8 (EvoFileMeta × Nat) := fun data =>
  (evoCborSkipAt total (evoCborSkipMaxDepth + 1) data).map fun rest =>
    (({ file with unfamiliar := true }, 0), rest)

/-- The value behind a key of the metadata, and the bit of the field. -/
def evoMetadataValue (total : Nat) (inspectPython : Bool) (file : EvoFileMeta) (key : List UInt8) :
    Reader UInt8 (EvoFileMeta × Nat) :=
  if key = keyType then
    evoCborReadUintValue.choose fun value =>
      if 255 < value then none else some ({ file with type := value }, 1)
  else if key = keyName then
    evoCborReadBytesValue.choose fun name => some ({ file with name := some name }, 2)
  else if inspectPython ∧ key = keyVersion then
    evoCborReadUintValue.choose fun value => some ({ file with version := value }, 4)
  else if inspectPython ∧ key = keyFlags then
    evoCborReadUintValue.choose fun value => some ({ file with flags := value }, 8)
  else evoSkipValue total file

/-- A field of the metadata is seen; twice is once too often. -/
def EvoFileMeta.markMeta (seen : EvoFileMeta × Nat) : EvoFileMeta :=
  { seen.1 with
    unfamiliar := seen.1.unfamiliar || seen.1.metaFields &&& seen.2 ≠ 0
    metaFields := seen.1.metaFields ||| seen.2 }

/-- The loop over the pairs of a map; every round goes forward, so `fuel` is the number of bytes
left. -/
def evoMapLoop (value : EvoFileMeta → List UInt8 → Reader UInt8 EvoFileMeta) (count : Option Nat) :
    Nat → Nat → EvoFileMeta → Reader UInt8 EvoFileMeta
  | 0, _, _, _ => none
  | fuel + 1, index, file, data =>
      match evoCborMapDone index count data with
      | some rest => some (file, rest)
      | none => (evoCborReadTextKey data).bind fun key =>
          (value file key.1 key.2).bind fun next =>
            evoMapLoop value count fuel (index + 1) next.1 next.2

/-- The pairs of a map. -/
def evoReadMap (value : EvoFileMeta → List UInt8 → Reader UInt8 EvoFileMeta) (file : EvoFileMeta) :
    Reader UInt8 EvoFileMeta := fun data =>
  (evoCborEnterMap data).bind fun map => evoMapLoop value map.1 (map.2.length + 1) 0 file map.2

/-- `evo_parse_metadata` -/
def evoParseMetadata (total : Nat) (inspectPython : Bool) (file : EvoFileMeta) :
    Reader UInt8 EvoFileMeta :=
  evoReadMap (fun file key => (evoMetadataValue total inspectPython file key).choose fun seen =>
    some (EvoFileMeta.markMeta seen)) file

/-! ## the file -/

/-- The value behind a key of the file, and the bit of the field. -/
def evoFileValue (total : Nat) (inspectPython : Bool) (file : EvoFileMeta) (key : List UInt8) :
    Reader UInt8 (EvoFileMeta × Nat) :=
  if key = keyMetaData then
    (evoParseMetadata total inspectPython file).choose fun file => some (file, 1)
  else if inspectPython ∧ key = keyVersion then
    evoCborReadUintValue.choose fun value => some ({ file with fileVersion := value }, 2)
  else if inspectPython ∧ key = keySize then
    evoCborReadUintValue.choose fun value => some ({ file with payloadSize := value }, 4)
  else if inspectPython ∧ key = keyData then
    (evoCborReadString 2).choose fun payload => some ({ file with payload := some payload }, 8)
  else evoSkipValue total file

/-- A field of the file is seen. -/
def EvoFileMeta.mark (seen : EvoFileMeta × Nat) : EvoFileMeta :=
  { seen.1 with
    unfamiliar := seen.1.unfamiliar || seen.1.fields &&& seen.2 ≠ 0
    fields := seen.1.fields ||| seen.2 }

/-- The bytes before the checksum. -/
def evoFileBody (data : List UInt8) : List UInt8 :=
  data.take (if 2 ≤ data.length then data.length - 2 else data.length)

/-- `evo_parse_file_meta` -/
def evoParseFileMeta (data : List UInt8) (inspectPython : Bool) : Option EvoFileMeta :=
  (evoReadMap (fun file key => (evoFileValue (evoFileBody data).length inspectPython file key).choose
      fun seen => some (EvoFileMeta.mark seen)) {} (evoFileBody data)).bind fun read =>
    if read.1.name.isSome ∧ read.2 = [] then some read.1 else none

/-! ## lengths -/

section Lengths

variable {data rest : List UInt8} {n : Nat}

theorem length_evoCborReadBE {k : Nat} {len : Nat × List UInt8}
    (h : evoCborReadBE k data = some len) : len.2.length ≤ data.length := by
  unfold evoCborReadBE at h
  split at h
  · cases h
  · cases h
    rw [List.length_drop]
    exact Nat.sub_le _ _

theorem length_evoCborReadUintArg {addl : Nat} {len : Nat × List UInt8}
    (h : evoCborReadUintArg addl data = some len) : len.2.length ≤ data.length := by
  unfold evoCborReadUintArg at h
  split_ifs at h
  · cases h
    exact le_rfl
  · exact length_evoCborReadBE h
  · exact length_evoCborReadBE h
  · exact length_evoCborReadBE h
  · exact length_evoCborReadBE h

theorem length_evoCborReadString {major : Nat} {str : List UInt8}
    (h : evoCborReadString major data = some (str, rest)) :
    str.length ≤ data.length ∧ rest.length ≤ data.length := by
  cases data with
  | nil => cases h
  | cons head data =>
      simp only [evoCborReadString] at h
      split at h
      · cases h
      · obtain ⟨len, hlen, hread⟩ := Option.bind_eq_some_iff.mp h
        have hle := length_evoCborReadUintArg hlen
        split at hread
        · cases hread
        · cases hread
          rw [List.length_take, List.length_drop, List.length_cons]
          omega

theorem length_evoCborReadUintValue {value : Nat}
    (h : evoCborReadUintValue data = some (value, rest)) : rest.length ≤ data.length := by
  cases data with
  | nil => cases h
  | cons head data =>
      simp only [evoCborReadUintValue] at h
      split at h
      · cases h
      · exact (length_evoCborReadUintArg h).trans (Nat.le_succ _)

theorem length_evoCborReadTextKey {key : List UInt8}
    (h : evoCborReadTextKey data = some (key, rest)) : rest.length ≤ data.length := by
  obtain ⟨str, hread, -⟩ := choose_eq_some_iff.mp h
  exact (length_evoCborReadString hread).2

theorem length_evoCborEnterMap {count : Option Nat}
    (h : evoCborEnterMap data = some (count, rest)) : rest.length ≤ data.length := by
  cases data with
  | nil => cases h
  | cons head data =>
      simp only [evoCborEnterMap] at h
      split_ifs at h
      · cases h
        exact Nat.le_succ _
      · obtain ⟨len, hlen, hread⟩ := Option.map_eq_some_iff.mp h
        cases hread
        exact (length_evoCborReadUintArg hlen).trans (Nat.le_succ _)

theorem length_evoCborMapDone {index : Nat} {count : Option Nat}
    (h : evoCborMapDone index count data = some rest) : rest.length ≤ data.length := by
  unfold evoCborMapDone at h
  cases count with
  | none =>
      dsimp only at h
      split at h
      · cases h
        rw [List.length_tail]
        exact Nat.sub_le _ _
      · cases h
  | some count =>
      dsimp only at h
      split at h
      · cases h
        exact le_rfl
      · cases h

/-- A walker that never goes back. -/
def Forward (skip : List UInt8 → Option (List UInt8)) : Prop :=
  ∀ data rest, skip data = some rest → rest.length ≤ data.length

theorem forward_pair {skip : List UInt8 → Option (List UInt8)} (hskip : Forward skip) :
    Forward (evoCborSkipPair skip) := by
  intro data rest h
  obtain ⟨mid, hmid, hrest⟩ := Option.bind_eq_some_iff.mp h
  exact (hskip _ _ hrest).trans (hskip _ _ hmid)

theorem forward_items {skip : List UInt8 → Option (List UInt8)} (hskip : Forward skip)
    (count : Nat) : Forward (evoCborSkipItems skip count) := by
  induction count with
  | zero =>
      intro data rest h
      cases h
      exact le_rfl
  | succ count ih =>
      intro data rest h
      obtain ⟨mid, hmid, hrest⟩ := Option.bind_eq_some_iff.mp h
      exact (ih _ _ hrest).trans (hskip _ _ hmid)

theorem forward_until {skip : List UInt8 → Option (List UInt8)} (hskip : Forward skip)
    (fuel : Nat) : Forward (evoCborSkipUntil skip fuel) := by
  induction fuel with
  | zero => exact nofun
  | succ fuel ih =>
      intro data rest h
      cases data with
      | nil => cases h
      | cons b data =>
          unfold evoCborSkipUntil at h
          split at h
          · cases h
            exact Nat.le_succ _
          · obtain ⟨mid, hmid, hrest⟩ := Option.bind_eq_some_iff.mp h
            exact (ih _ _ hrest).trans (hskip _ _ hmid)

theorem forward_body {skip : List UInt8 → Option (List UInt8)} (hskip : Forward skip)
    (major len : Nat) : Forward (evoCborSkipBody skip major len) := by
  intro data rest h
  unfold evoCborSkipBody at h
  split_ifs at h
  · cases h
    exact le_rfl
  · cases h
    rw [List.length_drop]
    exact Nat.sub_le _ _
  · exact forward_items hskip _ _ _ h
  · exact forward_items hskip _ _ _ h

theorem forward_evoCborSkipAt (total levels : Nat) : Forward (evoCborSkipAt total levels) := by
  induction levels with
  | zero => exact nofun
  | succ levels ih =>
      intro data rest h
      cases data with
      | nil => cases h
      | cons head data =>
          have hlevel : evoCborSkipLevel total (evoCborSkipAt total levels) (head :: data)
            = some rest := h
          unfold evoCborSkipLevel at hlevel
          dsimp only at hlevel
          rw [List.length_cons]
          split_ifs at hlevel with hbreak hopen hmajor hmap
          · exact (forward_until (forward_pair ih) _ _ _ hlevel).trans (Nat.le_succ _)
          · exact (forward_until ih _ _ _ hlevel).trans (Nat.le_succ _)
          · obtain ⟨len, hlen, hread⟩ := Option.bind_eq_some_iff.mp hlevel
            have hle := length_evoCborReadUintArg hlen
            split at hread
            · cases hread
            · exact ((forward_body ih _ _ _ _ hread).trans hle).trans (Nat.le_succ _)

/-- The name and the data are no longer than the file. -/
structure EvoFileMeta.Bounded (n : Nat) (file : EvoFileMeta) : Prop where
  name : ∀ name, file.name = some name → name.length ≤ n
  payload : ∀ payload, file.payload = some payload → payload.length ≤ n

/-- What is read from so many bytes is bounded by them. -/
def Keeps (n : Nat) (read : Reader UInt8 EvoFileMeta) : Prop :=
  ∀ data file rest, data.length ≤ n → read data = some (file, rest) →
    file.Bounded n ∧ rest.length ≤ n

theorem keeps_evoMapLoop {value : EvoFileMeta → List UInt8 → Reader UInt8 EvoFileMeta}
    (hvalue : ∀ file key, file.Bounded n → Keeps n (value file key)) (count : Option Nat)
    (fuel index : Nat) {file : EvoFileMeta} (hfile : file.Bounded n) :
    Keeps n (evoMapLoop value count fuel index file) := by
  induction fuel generalizing index file with
  | zero => exact nofun
  | succ fuel ih =>
      intro data file' rest hdata h
      unfold evoMapLoop at h
      split at h
      · next mid hdone =>
        cases h
        exact ⟨hfile, (length_evoCborMapDone hdone).trans hdata⟩
      · obtain ⟨⟨key, mid⟩, hkey, hread⟩ := Option.bind_eq_some_iff.mp h
        obtain ⟨⟨next, mid'⟩, hnext, hmore⟩ := Option.bind_eq_some_iff.mp hread
        obtain ⟨hbounded, hlength⟩ := hvalue file key hfile mid next mid'
          ((length_evoCborReadTextKey hkey).trans hdata) hnext
        exact ih (index + 1) hbounded mid' file' rest hlength hmore

theorem keeps_evoReadMap {value : EvoFileMeta → List UInt8 → Reader UInt8 EvoFileMeta}
    (hvalue : ∀ file key, file.Bounded n → Keeps n (value file key)) {file : EvoFileMeta}
    (hfile : file.Bounded n) : Keeps n (evoReadMap value file) := by
  intro data file' rest hdata h
  obtain ⟨⟨count, mid⟩, hmap, hread⟩ := Option.bind_eq_some_iff.mp h
  exact keeps_evoMapLoop hvalue count _ 0 hfile mid file' rest
    ((length_evoCborEnterMap hmap).trans hdata) hread

/-- What a value of a key keeps: the file, with bounded fields, and what follows. -/
def KeepsValue (n : Nat) (read : Reader UInt8 (EvoFileMeta × Nat)) : Prop :=
  ∀ data seen rest, data.length ≤ n → read data = some (seen, rest) →
    seen.1.Bounded n ∧ rest.length ≤ n

theorem keeps_choose {read : Reader UInt8 (EvoFileMeta × Nat)} (hread : KeepsValue n read)
    {mark : EvoFileMeta × Nat → EvoFileMeta}
    (hmark : ∀ seen, (mark seen).name = seen.1.name ∧ (mark seen).payload = seen.1.payload) :
    Keeps n (read.choose fun seen => some (mark seen)) := by
  intro data file rest hdata h
  obtain ⟨seen, hseen, hfile⟩ := choose_eq_some_iff.mp h
  obtain rfl := Option.some.inj hfile
  obtain ⟨hbounded, hlength⟩ := hread data seen rest hdata hseen
  obtain ⟨hname, hpayload⟩ := hmark seen
  exact ⟨⟨hname ▸ hbounded.name, hpayload ▸ hbounded.payload⟩, hlength⟩

theorem keepsValue_uint {file : EvoFileMeta} (hfile : file.Bounded n)
    {f : Nat → Option (EvoFileMeta × Nat)} (hf : ∀ value seen, f value = some seen →
      seen.1.name = file.name ∧ seen.1.payload = file.payload) :
    KeepsValue n (evoCborReadUintValue.choose f) := by
  intro data seen rest hdata h
  obtain ⟨value, hread, hseen⟩ := choose_eq_some_iff.mp h
  obtain ⟨hname, hpayload⟩ := hf value seen hseen
  exact ⟨⟨hname ▸ hfile.name, hpayload ▸ hfile.payload⟩,
    (length_evoCborReadUintValue hread).trans hdata⟩

theorem keepsValue_skip (total : Nat) {file : EvoFileMeta} (hfile : file.Bounded n) :
    KeepsValue n (evoSkipValue total file) := by
  intro data seen rest hdata h
  obtain ⟨rest', hskip, hseen⟩ := Option.map_eq_some_iff.mp h
  cases hseen
  exact ⟨⟨hfile.name, hfile.payload⟩, (forward_evoCborSkipAt _ _ _ _ hskip).trans hdata⟩

theorem keepsValue_metadata (total : Nat) (inspectPython : Bool) {file : EvoFileMeta}
    (hfile : file.Bounded n) (key : List UInt8) :
    KeepsValue n (evoMetadataValue total inspectPython file key) := by
  unfold evoMetadataValue
  split_ifs
  · apply keepsValue_uint hfile
    intro value seen h
    split at h
    · cases h
    · cases h
      exact ⟨rfl, rfl⟩
  · intro data seen rest hdata h
    obtain ⟨name, hread, hseen⟩ := choose_eq_some_iff.mp h
    obtain ⟨hname, hrest⟩ := length_evoCborReadString hread
    cases hseen
    refine ⟨⟨?_, hfile.payload⟩, hrest.trans hdata⟩
    intro name' heq
    cases heq
    exact hname.trans hdata
  · apply keepsValue_uint hfile
    intro value seen h
    cases h
    exact ⟨rfl, rfl⟩
  · apply keepsValue_uint hfile
    intro value seen h
    cases h
    exact ⟨rfl, rfl⟩
  · exact keepsValue_skip total hfile

theorem keeps_evoParseMetadata (total : Nat) (inspectPython : Bool) {file : EvoFileMeta}
    (hfile : file.Bounded n) : Keeps n (evoParseMetadata total inspectPython file) := by
  apply keeps_evoReadMap _ hfile
  intro file key hfile
  exact keeps_choose (keepsValue_metadata total inspectPython hfile key) fun _ => ⟨rfl, rfl⟩

theorem keepsValue_file (total : Nat) (inspectPython : Bool) {file : EvoFileMeta}
    (hfile : file.Bounded n) (key : List UInt8) :
    KeepsValue n (evoFileValue total inspectPython file key) := by
  unfold evoFileValue
  split_ifs
  · intro data seen rest hdata h
    obtain ⟨file', hread, hseen⟩ := choose_eq_some_iff.mp h
    cases hseen
    exact keeps_evoParseMetadata total inspectPython hfile data file' rest hdata hread
  · apply keepsValue_uint hfile
    intro value seen h
    cases h
    exact ⟨rfl, rfl⟩
  · apply keepsValue_uint hfile
    intro value seen h
    cases h
    exact ⟨rfl, rfl⟩
  · intro data seen rest hdata h
    obtain ⟨payload, hread, hseen⟩ := choose_eq_some_iff.mp h
    obtain ⟨hpayload, hrest⟩ := length_evoCborReadString hread
    cases hseen
    refine ⟨⟨hfile.name, ?_⟩, hrest.trans hdata⟩
    intro payload' heq
    cases heq
    exact hpayload.trans hdata
  · exact keepsValue_skip total hfile

/-- The name and the data of a file are no longer than the file. -/
theorem bounded_evoParseFileMeta {inspectPython : Bool} {file : EvoFileMeta}
    (h : evoParseFileMeta data inspectPython = some file) : file.Bounded data.length := by
  obtain ⟨⟨file', rest⟩, hread, hfile⟩ := Option.bind_eq_some_iff.mp h
  split at hfile
  · cases hfile
    have hbody : (evoFileBody data).length ≤ data.length := List.length_take_le' _ _
    have hempty : ({} : EvoFileMeta).Bounded data.length := by
      constructor
      · intro name heq
        cases heq
      · intro payload heq
        cases heq
    refine (keeps_evoReadMap ?_ hempty _ _ _ hbody hread).1
    intro file key hfile
    exact keeps_choose (keepsValue_file _ inspectPython hfile key) fun _ => ⟨rfl, rfl⟩
  · cases hfile

end Lengths

end Tilibs.Files
