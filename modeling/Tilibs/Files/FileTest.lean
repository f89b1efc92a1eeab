import Mathlib
import Tilibs.Files.FileClass
import Tilibs.Files.RwFile

/-!
# Tilibs.Files.FileTest

Whether a file is of a class and for a model (`tifiles_file_test` of `filetypes.cc`), and the
same question for the bytes alone (`tifiles_buffer_test`).  The first goes by the name as well,
reads no more of the file than it needs and takes the first bytes of a TIB file for a string;
the second has all of the bytes and no name.
-/

namespace Tilibs.Files

open Lib

/-! ## tables by model -/

/-- `GROUP_FILE_EXT` -/
def groupExtOf : CalcModel → List UInt8
  | .ti73 => ascii "73g"
  | .ti82 => ascii "82g"
  | .ti83 => ascii "83g"
  | .ti83p | .ti84p | .ti84pUsb | .ti84pc | .ti84pcUsb | .ti83pceUsb | .ti84pceUsb | .ti82aUsb =>
      ascii "8Xg"
  | .ti84ptUsb | .ti82aepUsb => ascii "8xg"
  | .ti85 => ascii "85g"
  | .ti86 => ascii "86g"
  | .ti89 | .ti89t | .ti89tUsb => ascii "89g"
  | .ti92 => ascii "92g"
  | .ti92p => ascii "9Xg"
  | .v200 => ascii "V2g"
  | _ => []

/-- `BACKUP_FILE_EXT` -/
def backupExtOf : CalcModel → List UInt8
  | .ti73 => ascii "73b"
  | .ti82 => ascii "82b"
  | .ti83 => ascii "83b"
  | .ti83p | .ti84p | .ti82aUsb | .ti84ptUsb | .ti82aepUsb => ascii "8Xb"
  | .ti84pUsb => ascii "8Xg"
  | .ti84pc | .ti84pcUsb => ascii "8Cb"
  | .ti85 => ascii "85b"
  | .ti86 => ascii "86b"
  | .ti89 | .ti89t | .ti89tUsb => ascii "89g"
  | .ti92 => ascii "92b"
  | .ti92p => ascii "9Xg"
  | .v200 => ascii "V2g"
  | _ => []

/-- `tifiles_fext_of_flash_os`: NULL for the models that have no system to load. -/
def tifilesFextOfFlashOs : CalcModel → Option (List UInt8)
  | .ti73 => some (ascii "73u")
  | .ti83p | .ti84p | .ti84pUsb | .ti84ptUsb => some (ascii "8Xu")
  | .ti84pc | .ti84pcUsb => some (ascii "8Cu")
  | .ti83pceUsb => some (ascii "8Pu")
  | .ti84pceUsb => some (ascii "8Eu")
  | .ti82aUsb => some (ascii "82u")
  | .ti82aepUsb => some (ascii "8Yu")
  | .ti84evoUsb => some (ascii "84b2")
  | .ti83evoUsb => some (ascii "83b2")
  | .ti84evotUsb => some (ascii "84tb2")
  | .ti89 | .ti89t | .ti89tUsb => some (ascii "89u")
  | .ti92p => some (ascii "9Xu")
  | .v200 => some (ascii "V2u")
  | .nspire | .nspireClickpad | .nspireTouchpad => some (ascii "tno")
  | .nspireCradle => some (ascii "tlo")
  | .nspireClickpadCas | .nspireTouchpadCas => some (ascii "tnc")
  | .nspireCx => some (ascii "tco")
  | .nspireCxCas => some (ascii "tcc")
  | .nspireCmc => some (ascii "tmo")
  | .nspireCmcCas => some (ascii "tmc")
  | .nspireCxii => some (ascii "tco2")
  | .nspireCxiiCas => some (ascii "tcc2")
  | .nspireCxiit => some (ascii "tct2")
  | .nspireCxiitCas => some (ascii "tcc2")
  | .tipresenter => some (ascii "hex")
  | .cbl2 | .labpro | .labproUsb => some (ascii "c2u")
  | _ => none

/-- `tifiles_fext_of_flash_app`: NULL for the models that have no applications. -/
def tifilesFextOfFlashApp : CalcModel → Option (List UInt8)
  | .none => some (ascii "??k")
  | .ti73 => some (ascii "73k")
  | .ti83p | .ti84p | .ti84pUsb => some (ascii "8Xk")
  | .ti84pc | .ti84pcUsb => some (ascii "8Ck")
  | .ti83pceUsb | .ti84pceUsb => some (ascii "8Ek")
  | .ti89 | .ti89t | .ti89tUsb => some (ascii "89k")
  | .ti92p => some (ascii "9Xk")
  | .v200 => some (ascii "V2k")
  | _ => none

/-- `tifiles_model_to_dev_type`: -1 where there are no flash files. -/
def tifilesModelToDevType : CalcModel → Int
  | .ti73 => 0x74
  | .ti83p | .ti84p | .ti84pUsb | .ti84pc | .ti84pcUsb | .ti83pceUsb | .ti84pceUsb | .ti82aUsb
  | .ti84ptUsb | .ti82aepUsb | .ti84evoUsb | .ti83evoUsb | .ti84evotUsb => 0x73
  | .ti89 | .ti89t | .ti89tUsb => 0x98
  | .ti92p | .v200 => 0x88
  | .tipresenter => 0x43
  | .cbl2 | .labpro | .labproUsb => 0x42
  | _ => -1

/-- `type & mask` -/
def FileClass.meets (type mask : FileClass) : Bool := type.code &&& mask.code != 0

/-- The comparison with the types of the last flash header. -/
def fitsDevice (target : CalcModel) (dtype : UInt8) (types : UInt8 × UInt8) : Bool :=
  (types.1.toNat : Int) = tifilesModelToDevType target && types.2 = dtype

/-- The models of the byte `data[8]` of a TIB file. -/
def tibModel (b : UInt8) : Option CalcModel :=
  if b = 1 then some .ti92p
  else if b = 3 then some .ti89
  else if b = 8 then some .v200
  else if b = 9 then some .ti89t
  else none

/-! ## bytes -/

/-- `buffer_is_os` -/
def bufferIsOs (buf : List UInt8) : Bool :=
  bufferIsTi buf && (bufferHasTibHeader buf || bufferHasTnoHeader buf
    || (tiflTypes buf).any fun types => types.2 = ti83pAms)

/-- `buffer_is_app` -/
def bufferIsApp (buf : List UInt8) : Bool :=
  bufferIsTi buf && (tiflTypes buf).any fun types => types.2 = ti83pAppl

/-- `buffer_test` of the class of systems. -/
def bufferTestOs (buf : List UInt8) (target : CalcModel) : Bool :=
  match if target = .none then none else tiflTypes buf with
  | some types => fitsDevice target ti83pAms types
  | none =>
      if target ≠ .none ∧ bufferHasTibHeader buf then
        16 ≤ buf.length && tibModel (buf.getD 8 0) = some target
      else bufferIsOs buf

/-- `buffer_test` of the class of applications. -/
def bufferTestApp (buf : List UInt8) (target : CalcModel) : Bool :=
  match if target = .none then none else tiflTypes buf with
  | some types => fitsDevice target ti83pAppl types
  | none => bufferIsApp buf

/-- `buffer_test` of the class of single files. -/
def bufferTestSingle (buf : List UInt8) : Bool := !bufferIsFlash buf && !bufferHasTigHeader buf

/-- `buffer_test`; it never says that bytes are a group or a backup. -/
def bufferTest (buf : List UInt8) (type : FileClass) (target : CalcModel) : Bool :=
  if !bufferIsTi buf then false
  else if type.meets .single then bufferTestSingle buf
  else if type.meets .group then false
  else if type.meets .regular then bufferTestSingle buf || false
  else if type.meets .backup then false
  else if type.meets .os then bufferTestOs buf target
  else if type.meets .app then bufferTestApp buf target
  else if type.meets .flash then bufferTestOs buf target || bufferTestApp buf target
  else if type.meets .tigroup then bufferHasTigHeader buf
  else false

/-- `tifiles_buffer_test` -/
def tifilesBufferTest (buf : List UInt8) (type : FileClass) (target : CalcModel) : Bool :=
  if buf.isEmpty then false else bufferTest buf type target

/-! ## files -/

/-- `tifiles_file_has_tifl_header`: the types of the last header. -/
def tifilesFileHasTiflHeader (bytes : List UInt8) : Option (UInt8 × UInt8) :=
  (openForTifl bytes).bind tiflTypes

/-- The array `data` of a TIB file: `fread_n_chars` clears what follows the first zero.  It also
puts a zero past the end of the array. -/
def tibData (bytes : List UInt8) : Except TifilesErr (List UInt8) :=
  (Proc.exec (freadNChars 16) ⟨bytes, 0⟩).1.map (padRight 16 0)

/-- `tifiles_file_test` of the class of systems. -/
def fileTestOs (filename bytes : List UInt8) (target : CalcModel) : Bool :=
  match if target = .none then none else tifilesFileHasTiflHeader bytes with
  | some types => fitsDevice target ti83pAms types
  | none =>
      if target ≠ .none ∧ tifilesFileIsTib filename bytes then
        match tibData bytes with
        | .ok data => tibModel (data.getD 8 0) = some target
        -- a TIB file is longer than the array
        | .error _ => false
      else if tifilesFextIsEvoOs (tifilesFextGet filename) then ticonvModelIsTievo target
      else tifilesFileIsOs filename bytes

/-- `tifiles_file_test` of the class of applications. -/
def fileTestApp (bytes : List UInt8) (target : CalcModel) : Bool :=
  match if target = .none then none else tifilesFileHasTiflHeader bytes with
  | some types => fitsDevice target ti83pAppl types
  | none => tifilesFileIsApp bytes

/-- `tifiles_file_test` of the class of single files: two characters of the extension are
enough. -/
def fileTestSingle (filename bytes : List UInt8) (target : CalcModel) : Bool :=
  if groupExtOf target ≠ []
      ∧ sameNoCase ((tifilesFextGet filename).take 2) ((groupExtOf target).take 2) then true
  else tifilesFileIsSingle filename bytes

/-- `tifiles_file_test` of the class of groups. -/
def fileTestGroup (filename bytes : List UInt8) (target : CalcModel) : Bool :=
  if groupExtOf target ≠ [] ∧ sameNoCase (tifilesFextGet filename) (groupExtOf target) then true
  else tifilesFileIsGroup filename bytes

/-- `tifiles_file_test` of the class of backups. -/
def fileTestBackup (filename bytes : List UInt8) (target : CalcModel) : Bool :=
  if backupExtOf target ≠ [] ∧ sameNoCase (tifilesFextGet filename) (backupExtOf target) then true
  else tifilesFileIsBackup filename bytes

section

-- The models of the entries that `tifiles_file_read_tigroup` finds, if it succeeds.
variable (readTigroup : List UInt8 → List UInt8 → Option (List CalcModel))

/-- `tifiles_file_test` of the class of TiGroups. -/
def fileTestTigroup (filename bytes : List UInt8) (target : CalcModel) : Bool :=
  if target = .none then tifilesFileIsTigroup filename bytes
  else if !tifilesFileIsTigroup filename bytes then false
  else (readTigroup filename bytes).any fun models => models.any (tifilesCalcAreCompat · target)

/-- `tifiles_file_test` -/
def tifilesFileTest (filename bytes : List UInt8) (type : FileClass) (target : CalcModel) : Bool :=
  if (tifilesFextGet filename).isEmpty then false
  else if !tifilesFileIsTi filename bytes then false
  else if type.meets .single then fileTestSingle filename bytes target
  else if type.meets .group then fileTestGroup filename bytes target
  else if type.meets .regular then
    fileTestSingle filename bytes target || fileTestGroup filename bytes target
  else if type.meets .backup then fileTestBackup filename bytes target
  else if type.meets .os then fileTestOs filename bytes target
  else if type.meets .app then fileTestApp bytes target
  else if type.meets .flash then fileTestOs filename bytes target || fileTestApp bytes target
  else if type.meets .tigroup then fileTestTigroup readTigroup filename bytes target
  else false

/-! ## agreement -/

/-- The extensions of flash files for a model. -/
def flashExtensions (target : CalcModel) : List (List UInt8) :=
  ascii "tib" :: (tifilesFextOfFlashOs target).toList ++ (tifilesFextOfFlashApp target).toList

/-- The name has such an extension. -/
def MatchingName (filename : List UInt8) (target : CalcModel) : Prop :=
  (flashExtensions target).any (sameNoCase (tifilesFextGet filename)) = true

/-- The file and its bytes get the same answers, and the file no answer that its own predicates
deny. -/
structure ClassesAgree (filename bytes : List UInt8) (target : CalcModel) : Prop where
  flash : MatchingName filename target → ∀ fc ∈ [FileClass.os, .app, .flash],
    tifilesFileTest readTigroup filename bytes fc target = tifilesBufferTest bytes fc target
  single : tifilesFileTest readTigroup filename bytes .single target = true →
    tifilesFileIsSingle filename bytes = true
  group : tifilesFileTest readTigroup filename bytes .group target = true →
    tifilesFileIsGroup filename bytes = true
  backup : tifilesFileTest readTigroup filename bytes .backup target = true →
    tifilesFileIsBackup filename bytes = true

end

/-- The types of a flash header that are asked for: those of the model, if there is one. -/
def asksFor (target : CalcModel) (dtype : UInt8) (types : UInt8 × UInt8) : Bool :=
  if target = .none then types.2 = dtype else fitsDevice target dtype types

/-- Of the last flash header of the file, and of the last one in the part that is read, both have
the types that are asked for, or none. -/
def SameLastHeader (bytes : List UInt8) (target : CalcModel) (dtype : UInt8) : Prop :=
  (tiflTypes (bytes.take flashReadCap)).any (asksFor target dtype)
    = (tiflTypes bytes).any (asksFor target dtype)

/-- What lets a name and the bytes agree. -/
structure FlashReadable (filename bytes : List UInt8) (target : CalcModel) : Prop where
  /-- The part of a flash file that is read ends with the same kind of header. -/
  os : (target = .none → bufferHasTibHeader bytes = false ∧ bufferHasTnoHeader bytes = false) →
    SameLastHeader bytes target ti83pAms
  app : SameLastHeader bytes target ti83pAppl
  /-- No zero stands before the model in a file that is called a TIB file, if it is the target;
  a file that is called otherwise is for the target. -/
  tib : target ≠ .none → bufferHasTiflHeader bytes = false → bufferHasTibHeader bytes = true →
    if sameNoCase (tifilesFextGet filename) (ascii "tib") then
      tibModel (bytes.getD 8 0) = some target → 0 ∉ bytes.take 8
    else tibModel (bytes.getD 8 0) = some target
  /-- Systems of the TI-84 Evo are known by their name only. -/
  evo : target ≠ .none → bufferHasTiflHeader bytes = false → bufferHasTibHeader bytes = false →
    tifilesFextIsEvoOs (tifilesFextGet filename) = true → bytes = [] ∨ bufferHasTnoHeader bytes

/-- The extension begins like that of the groups of the target. -/
def GroupLike (filename : List UInt8) (target : CalcModel) : Prop :=
  groupExtOf target ≠ []
    ∧ sameNoCase ((tifilesFextGet filename).take 2) ((groupExtOf target).take 2) = true

/-- A file that has neither the name of a group or of a backup nor the header of another class. -/
structure Unclassed (filename bytes : List UInt8) : Prop where
  group : tifilesFileIsGroup filename bytes = false
  backup : tifilesFileIsBackup filename bytes = false
  flash : tifilesFileIsFlash filename bytes = false
  zip : (fileHead bytes).any bufferHasTigHeader = false

/-! ## what is read of a file -/

theorem isPrefixOf_take {p l : List UInt8} {n : Nat} (h : p.length ≤ n) :
    p.isPrefixOf (l.take n) = p.isPrefixOf l := by
  rw [Bool.eq_iff_iff, List.isPrefixOf_iff_prefix, List.isPrefixOf_iff_prefix, List.prefix_take_iff]
  exact and_iff_left h

theorem bufferHasTiHeader_take {n : Nat} (h : 8 ≤ n) (bytes : List UInt8) :
    bufferHasTiHeader (bytes.take n) = bufferHasTiHeader bytes := by
  unfold bufferHasTiHeader
  rw [List.length_take, List.take_take, min_eq_left h]
  exact if_congr (by omega) rfl rfl

theorem bufferHasTibHeader_take {n : Nat} (h : 53 ≤ n) (bytes : List UInt8) :
    bufferHasTibHeader (bytes.take n) = bufferHasTibHeader bytes := by
  have hsig : tibSignature.length = 29 := by decide
  unfold bufferHasTibHeader
  rw [List.length_take, List.drop_take, List.take_take, hsig,
    min_eq_left (show 29 ≤ n - 22 by omega)]
  exact if_congr (by omega) rfl rfl

theorem bufferHasTigHeader_take {n : Nat} (h : 4 ≤ n) (bytes : List UInt8) :
    bufferHasTigHeader (bytes.take n) = bufferHasTigHeader bytes := by
  unfold bufferHasTigHeader
  rw [List.length_take, List.take_take, min_eq_left h]
  exact if_congr (by omega) rfl rfl

theorem bufferHasTiflHeader_take {n : Nat} (h : 78 ≤ n) (bytes : List UInt8) :
    bufferHasTiflHeader (bytes.take n) = bufferHasTiflHeader bytes := by
  unfold bufferHasTiflHeader
  rw [List.length_take, List.take_take, min_eq_left (show 8 ≤ n by omega)]
  exact if_congr (by omega) rfl rfl

theorem length_osSignatureSuffixes :
    ∀ suffix ∈ osSignatureSuffixes, osSignaturePrefix.length + suffix.length ≤ 24 := by
  decide

theorem bufferHasTnoHeader_take {n : Nat} (h : 1024 ≤ n) (bytes : List UInt8) :
    bufferHasTnoHeader (bytes.take n) = bufferHasTnoHeader bytes := by
  have hext : (ascii "__OSEXT__1 ").length ≤ n := by
    have : (ascii "__OSEXT__1 ").length = 11 := by decide
    omega
  have hprefix : osSignaturePrefix.length ≤ n := by
    have : osSignaturePrefix.length = 10 := by decide
    omega
  have hsuffix : (osSignatureSuffixes.any fun suffix =>
      suffix.isPrefixOf ((bytes.take n).drop osSignaturePrefix.length))
        = osSignatureSuffixes.any fun suffix =>
          suffix.isPrefixOf (bytes.drop osSignaturePrefix.length) := by
    rw [Bool.eq_iff_iff, List.any_eq_true, List.any_eq_true]
    refine exists_congr fun suffix => and_congr_right fun hmem => ?_
    have := length_osSignatureSuffixes suffix hmem
    rw [List.drop_take, isPrefixOf_take (by omega)]
  unfold bufferHasTnoHeader
  rw [List.length_take, isPrefixOf_take hext, isPrefixOf_take hprefix, hsuffix, List.take_take,
    min_eq_left h]
  exact if_congr (by omega) rfl rfl

theorem bufferIsTi_take {n : Nat} (h : 1024 ≤ n) (bytes : List UInt8) :
    bufferIsTi (bytes.take n) = bufferIsTi bytes := by
  unfold bufferIsTi
  rw [bufferHasTiHeader_take (by omega), bufferHasTibHeader_take (by omega),
    bufferHasTigHeader_take (by omega), bufferHasTiflHeader_take (by omega),
    bufferHasTnoHeader_take h]

theorem fileHead_eq {bytes : List UInt8} (h : bytes ≠ []) :
    fileHead bytes = some (bytes.take headReadCap) := by
  unfold fileHead
  rw [if_neg (by simpa using h)]

theorem isSome_tiflTypes (buf : List UInt8) :
    (tiflTypes buf).isSome = bufferHasTiflHeader buf := by
  rw [tiflTypes, bufferHasTiflHeader]
  by_cases hshort : buf.length < 78
  · rw [if_pos (.inl hshort), if_pos hshort]
    rfl
  rw [if_neg hshort]
  by_cases hmagic : buf.take 8 = ascii "**TIFL**"
  · rw [if_neg (by tauto), hmagic, beq_self_eq_true]
    split
    · rfl
    · split <;> rfl
  · rw [if_pos (.inr hmagic), beq_eq_false_iff_ne.mpr hmagic]
    rfl

theorem tiflTypes_eq_none {buf : List UInt8} (h : bufferHasTiflHeader buf = false) :
    tiflTypes buf = none := by
  rw [← Option.not_isSome_iff_eq_none, isSome_tiflTypes, h]
  exact Bool.false_ne_true

/-- A file that is opened for its flash headers: what the headers are looked for in is long enough
for all magic numbers, and gives the types that the limit leaves. -/
theorem openForTifl_eq {bytes : List UInt8} (h : bytes ≠ []) :
    ∃ n, 1024 ≤ n ∧ openForTifl bytes = some (bytes.take n)
      ∧ tiflTypes (bytes.take n) = tiflTypes (bytes.take flashReadCap) := by
  unfold openForTifl
  rw [fileHead_eq h, Option.map_some]
  split
  · exact ⟨flashReadCap, by decide, rfl, rfl⟩
  · rename_i hmagic
    refine ⟨headReadCap, by decide, rfl, ?_⟩
    have hnone : bufferHasTiflHeader bytes = false := by
      unfold bufferHasTiflHeader
      rw [List.take_take, min_eq_left (show 8 ≤ headReadCap by decide)] at hmagic
      rw [beq_eq_false_iff_ne.mpr hmagic, ite_self]
    rw [tiflTypes_eq_none (by rw [bufferHasTiflHeader_take (by decide), hnone]),
      tiflTypes_eq_none (by rw [bufferHasTiflHeader_take (by decide), hnone])]

theorem tifilesFileHasTiflHeader_eq (bytes : List UInt8) :
    tifilesFileHasTiflHeader bytes = tiflTypes (bytes.take flashReadCap) := by
  unfold tifilesFileHasTiflHeader
  by_cases h : bytes = []
  · subst h
    rw [List.take_nil, tiflTypes_eq_none (by decide)]
    rfl
  · obtain ⟨n, -, hopen, htypes⟩ := openForTifl_eq h
    rw [hopen, Option.bind_some, htypes]

theorem tifilesFileIsTi_eq {filename bytes : List UInt8} (h : bytes ≠ [])
    (hext : tifilesFextGet filename ≠ []) :
    tifilesFileIsTi filename bytes
      = (bufferIsTi bytes || (sameNoCase (tifilesFextGet filename) (ascii "tns")
        || tifilesFextIsEvo (tifilesFextGet filename)
        || tifilesFextIsEvoOs (tifilesFextGet filename))) := by
  unfold tifilesFileIsTi
  simp only [fileHead_eq h, bufferIsTi_take (show 1024 ≤ headReadCap by decide)]
  rw [List.isEmpty_eq_false_iff.mpr hext, Bool.not_false, Bool.true_and]

theorem tifilesFileIsTib_eq {filename bytes : List UInt8} (h : bytes ≠ []) :
    tifilesFileIsTib filename bytes
      = (sameNoCase (tifilesFextGet filename) (ascii "tib") && bufferHasTibHeader bytes) := by
  unfold tifilesFileIsTib
  rw [fileHead_eq h, Option.any_some, bufferHasTibHeader_take (by decide)]

theorem tifilesFileIsOs_eq {filename bytes : List UInt8} (h : bytes ≠ []) :
    tifilesFileIsOs filename bytes
      = (bufferIsTi bytes && (bufferHasTibHeader bytes || bufferHasTnoHeader bytes
          || (tiflTypes (bytes.take flashReadCap)).any fun types => types.2 = ti83pAms)
        || tifilesFextIsEvoOs (tifilesFextGet filename)) := by
  obtain ⟨n, hn, hopen, htypes⟩ := openForTifl_eq h
  unfold tifilesFileIsOs
  rw [hopen]
  simp only [bufferIsTi_take hn, bufferHasTibHeader_take (show 53 ≤ n by omega),
    bufferHasTnoHeader_take hn, htypes]

theorem tifilesFileIsApp_eq {bytes : List UInt8} (h : bytes ≠ []) :
    tifilesFileIsApp bytes = (bufferIsTi bytes
      && (tiflTypes (bytes.take flashReadCap)).any fun types => types.2 = ti83pAppl) := by
  obtain ⟨n, hn, hopen, htypes⟩ := openForTifl_eq h
  unfold tifilesFileIsApp
  rw [hopen]
  simp only [bufferIsTi_take hn, htypes]

/-- The limit hides nothing of a file that is not longer. -/
theorem sameLastHeader_of_le {bytes : List UInt8} (h : bytes.length ≤ flashReadCap)
    (target : CalcModel) (dtype : UInt8) : SameLastHeader bytes target dtype := by
  unfold SameLastHeader
  rw [List.take_of_length_le h]

theorem sameLastHeader_of_no_header {bytes : List UInt8} (h : bufferHasTiflHeader bytes = false)
    (target : CalcModel) (dtype : UInt8) : SameLastHeader bytes target dtype := by
  have htake : bufferHasTiflHeader (bytes.take flashReadCap) = false := by
    rw [bufferHasTiflHeader_take (by decide), h]
  unfold SameLastHeader
  rw [tiflTypes_eq_none htake, tiflTypes_eq_none h]

/-! ## the string that is read of a TIB file -/

theorem getD_padRight (n i : Nat) (bytes : List UInt8) :
    (padRight n 0 bytes).getD i 0 = bytes.getD i 0 := by
  unfold padRight
  rcases lt_or_ge i bytes.length with hlt | hge
  · rw [List.getD_append _ _ _ _ hlt]
  · rw [List.getD_append_right _ _ _ _ hge, List.getD_eq_default bytes 0 hge]
    simp only [List.getD_eq_getElem?_getD, List.getElem?_replicate]
    split <;> rfl

theorem getD_cstr (i : Nat) (bytes : List UInt8) :
    (cstr bytes).getD i 0 = if 0 ∈ bytes.take i then 0 else bytes.getD i 0 := by
  induction bytes generalizing i with
  | nil => simp [cstr]
  | cons b bytes ih =>
      by_cases hb : b = 0
      · subst hb
        cases i <;> simp [cstr]
      · have hcons : cstr (b :: bytes) = b :: cstr bytes := by
          simp [cstr, hb]
        rw [hcons]
        cases i with
        | zero => simp
        | succ i => simpa [Ne.symm hb] using ih i

theorem length_of_bufferHasTibHeader {bytes : List UInt8} (h : bufferHasTibHeader bytes = true) :
    53 ≤ bytes.length := by
  have hsig : tibSignature.length = 29 := by decide
  unfold bufferHasTibHeader at h
  split at h
  · cases h
  · omega

/-- The model of a TIB file is what it is in the bytes, but zero after a zero. -/
theorem tibData_eq {bytes : List UInt8} (h : bufferHasTibHeader bytes = true) :
    ∃ data, tibData bytes = .ok data
      ∧ data.getD 8 0 = if 0 ∈ bytes.take 8 then 0 else bytes.getD 8 0 := by
  have hlen := length_of_bufferHasTibHeader h
  have hfield : (bytes.take 16).length = 16 := by
    rw [List.length_take]
    omega
  have hread := consumes_freadNChars hfield ⟨bytes, 0⟩ (bytes.drop 16)
    (List.take_append_drop 16 bytes).symm
  refine ⟨padRight 16 0 (cstr (bytes.take 16)), ?_, ?_⟩
  · unfold tibData
    rw [hread]
    rfl
  · rw [getD_padRight, getD_cstr, List.take_take, min_eq_left (by decide)]
    simp [List.getD_eq_getElem?_getD]

/-! ## names -/

theorem sameNoCase_iff {s t : List UInt8} :
    sameNoCase s t = true ↔ s.map asciiTolower = t.map asciiTolower := beq_iff_eq

theorem tifilesFextIsEvoOs_congr {s t : List UInt8} (h : sameNoCase s t = true) :
    tifilesFextIsEvoOs s = tifilesFextIsEvoOs t := by
  unfold tifilesFextIsEvoOs
  refine List.any_congr rfl fun ext => ?_
  unfold sameNoCase
  rw [sameNoCase_iff.mp h]

theorem isTievo_of_flashExtensions (target : CalcModel) : ∀ ext ∈ flashExtensions target,
    ext ≠ [] ∧ (tifilesFextIsEvoOs ext = true → ticonvModelIsTievo target = true) := by
  cases target <;> decide

theorem MatchingName.ne_nil {filename : List UInt8} {target : CalcModel}
    (h : MatchingName filename target) : tifilesFextGet filename ≠ [] := by
  obtain ⟨ext, hmem, hsame⟩ := List.any_eq_true.mp h
  intro hnil
  rw [hnil, sameNoCase_iff] at hsame
  exact (isTievo_of_flashExtensions target ext hmem).1 (List.map_eq_nil_iff.mp hsame.symm)

/-- A name for a system of the TI-84 Evo goes with no other model. -/
theorem MatchingName.isTievo {filename : List UInt8} {target : CalcModel}
    (h : MatchingName filename target)
    (hevo : tifilesFextIsEvoOs (tifilesFextGet filename) = true) :
    ticonvModelIsTievo target = true := by
  obtain ⟨ext, hmem, hsame⟩ := List.any_eq_true.mp h
  rw [tifilesFextIsEvoOs_congr hsame] at hevo
  exact (isTievo_of_flashExtensions target ext hmem).2 hevo

/-! ## one class after the other -/

section

variable {readTigroup : List UInt8 → List UInt8 → Option (List CalcModel)}
variable {filename bytes : List UInt8} {target : CalcModel}

theorem tifilesFileTest_os : tifilesFileTest readTigroup filename bytes .os target
    = (!(tifilesFextGet filename).isEmpty && (tifilesFileIsTi filename bytes
      && fileTestOs filename bytes target)) := by
  unfold tifilesFileTest
  cases (tifilesFextGet filename).isEmpty <;> cases tifilesFileIsTi filename bytes <;> rfl

theorem tifilesFileTest_app : tifilesFileTest readTigroup filename bytes .app target
    = (!(tifilesFextGet filename).isEmpty && (tifilesFileIsTi filename bytes
      && fileTestApp bytes target)) := by
  unfold tifilesFileTest
  cases (tifilesFextGet filename).isEmpty <;> cases tifilesFileIsTi filename bytes <;> rfl

theorem tifilesFileTest_flash : tifilesFileTest readTigroup filename bytes .flash target
    = (tifilesFileTest readTigroup filename bytes .os target
      || tifilesFileTest readTigroup filename bytes .app target) := by
  unfold tifilesFileTest
  cases (tifilesFextGet filename).isEmpty <;> cases tifilesFileIsTi filename bytes <;> rfl

theorem tifilesBufferTest_os : tifilesBufferTest bytes .os target
    = (!bytes.isEmpty && (bufferIsTi bytes && bufferTestOs bytes target)) := by
  unfold tifilesBufferTest bufferTest
  cases bytes.isEmpty <;> cases bufferIsTi bytes <;> rfl

theorem tifilesBufferTest_app : tifilesBufferTest bytes .app target
    = (!bytes.isEmpty && (bufferIsTi bytes && bufferTestApp bytes target)) := by
  unfold tifilesBufferTest bufferTest
  cases bytes.isEmpty <;> cases bufferIsTi bytes <;> rfl

theorem tifilesBufferTest_flash : tifilesBufferTest bytes .flash target
    = (tifilesBufferTest bytes .os target || tifilesBufferTest bytes .app target) := by
  unfold tifilesBufferTest bufferTest
  cases bytes.isEmpty <;> cases bufferIsTi bytes <;> rfl

theorem bufferIsTi_of_tifl (h : bufferHasTiflHeader bytes = true) : bufferIsTi bytes = true := by
  unfold bufferIsTi
  rw [h, Bool.or_true, Bool.true_or]

theorem bufferIsTi_of_tib (h : bufferHasTibHeader bytes = true) : bufferIsTi bytes = true := by
  unfold bufferIsTi
  rw [h, Bool.or_true, Bool.true_or, Bool.true_or, Bool.true_or]

theorem tifilesFileIsTi_of_buffer (hbytes : bytes ≠ []) (hext : tifilesFextGet filename ≠ [])
    (h : bufferIsTi bytes = true) : tifilesFileIsTi filename bytes = true := by
  rw [tifilesFileIsTi_eq hbytes hext, h, Bool.true_or]

/-- Where the target is a model and the file has a flash header, both go by the last header. -/
theorem fitsDevice_of_header (htarget : target ≠ .none) (h : bufferHasTiflHeader bytes = true)
    (dtype : UInt8) : ∃ types types', tiflTypes (bytes.take flashReadCap) = some types
      ∧ tiflTypes bytes = some types'
      ∧ (SameLastHeader bytes target dtype
        ↔ fitsDevice target dtype types = fitsDevice target dtype types') := by
  have htake : bufferHasTiflHeader (bytes.take flashReadCap) = true := by
    rw [bufferHasTiflHeader_take (by decide), h]
  obtain ⟨types, htypes⟩ := Option.isSome_iff_exists.mp ((isSome_tiflTypes _).trans htake)
  obtain ⟨types', htypes'⟩ := Option.isSome_iff_exists.mp ((isSome_tiflTypes _).trans h)
  refine ⟨types, types', htypes, htypes', ?_⟩
  unfold SameLastHeader asksFor
  simp only [htypes, htypes', Option.any_some, if_neg htarget]

/-- Systems without a target. -/
theorem os_agree_none_iff (hbytes : bytes ≠ []) (hname : MatchingName filename .none) :
    tifilesFileTest readTigroup filename bytes .os .none = tifilesBufferTest bytes .os .none
      ↔ (bufferHasTibHeader bytes = false ∧ bufferHasTnoHeader bytes = false →
        SameLastHeader bytes .none ti83pAms) := by
  have hext := hname.ne_nil
  have hevo : tifilesFextIsEvoOs (tifilesFextGet filename) = false :=
    Bool.eq_false_iff.mpr fun h => absurd (hname.isTievo h) (by decide)
  rw [tifilesFileTest_os, tifilesBufferTest_os, List.isEmpty_eq_false_iff.mpr hext,
    List.isEmpty_eq_false_iff.mpr hbytes]
  have hfile : fileTestOs filename bytes .none = tifilesFileIsOs filename bytes := by
    simp [fileTestOs, hevo]
  have hbuffer : bufferTestOs bytes .none = bufferIsOs bytes := by
    simp [bufferTestOs]
  rw [hfile, hbuffer, tifilesFileIsOs_eq hbytes, hevo, bufferIsOs]
  cases hti : bufferIsTi bytes with
  | false =>
      have htifl : bufferHasTiflHeader bytes = false :=
        Bool.eq_false_iff.mpr fun h => by simp [bufferIsTi_of_tifl h] at hti
      simp [sameLastHeader_of_no_header htifl]
  | true =>
      rw [tifilesFileIsTi_of_buffer hbytes hext hti]
      unfold SameLastHeader asksFor
      cases bufferHasTibHeader bytes <;> cases bufferHasTnoHeader bytes <;> simp

/-- Systems for a target, in a file without flash headers: only a TIB header, or the name of a
system of the TI-84 Evo, sets the file apart from its bytes. -/
theorem os_agree_target_iff (hbytes : bytes ≠ []) (hname : MatchingName filename target)
    (htarget : target ≠ .none) (htifl : bufferHasTiflHeader bytes = false) :
    tifilesFileTest readTigroup filename bytes .os target = tifilesBufferTest bytes .os target
      ↔ (bufferHasTibHeader bytes = true →
          if sameNoCase (tifilesFextGet filename) (ascii "tib") then
            tibModel (bytes.getD 8 0) = some target → 0 ∉ bytes.take 8
          else tibModel (bytes.getD 8 0) = some target)
        ∧ (bufferHasTibHeader bytes = false →
          tifilesFextIsEvoOs (tifilesFextGet filename) = true →
            bytes = [] ∨ bufferHasTnoHeader bytes = true) := by
  have hext := hname.ne_nil
  have htypes : tiflTypes (bytes.take flashReadCap) = none :=
    tiflTypes_eq_none (by rw [bufferHasTiflHeader_take (by decide), htifl])
  rw [tifilesFileTest_os, tifilesBufferTest_os, List.isEmpty_eq_false_iff.mpr hext,
    List.isEmpty_eq_false_iff.mpr hbytes]
  unfold fileTestOs bufferTestOs
  rw [tifilesFileHasTiflHeader_eq, htypes, tiflTypes_eq_none htifl, ite_self,
    tifilesFileIsTib_eq hbytes]
  cases htib : bufferHasTibHeader bytes with
  | true =>
      have hti := bufferIsTi_of_tib htib
      have hlen := length_of_bufferHasTibHeader htib
      obtain ⟨data, hdata, hmodel⟩ := tibData_eq htib
      rw [tifilesFileIsTi_of_buffer hbytes hext hti, hti, hdata]
      cases hnamed : sameNoCase (tifilesFextGet filename) (ascii "tib") with
      | true =>
          have hzero : tibModel 0 = none := rfl
          simp only [List.getD_eq_getElem?_getD] at hmodel
          by_cases hnul : 0 ∈ bytes.take 8
          · simp [htarget, hmodel, hnul, hzero, show 16 ≤ bytes.length by omega]
          · simp [htarget, hmodel, hnul, show 16 ≤ bytes.length by omega]
      | false =>
          have hfile : (if tifilesFextIsEvoOs (tifilesFextGet filename)
              then ticonvModelIsTievo target else tifilesFileIsOs filename bytes) = true := by
            split
            · rename_i hevo
              exact hname.isTievo hevo
            · rw [tifilesFileIsOs_eq hbytes, hti, htib]
              rfl
          simp [htarget, hfile, show 16 ≤ bytes.length by omega]
  | false =>
      have hbuffer : (bufferIsTi bytes && bufferIsOs bytes) = bufferHasTnoHeader bytes := by
        unfold bufferIsOs bufferIsTi
        rw [htib, tiflTypes_eq_none htifl]
        cases bufferHasTnoHeader bytes <;> simp
      cases hevo : tifilesFextIsEvoOs (tifilesFextGet filename) with
      | true =>
          have hti : tifilesFileIsTi filename bytes = true := by
            rw [tifilesFileIsTi_eq hbytes hext, hevo]
            simp
          simp [htarget, hti, hname.isTievo hevo, hbuffer, hbytes]
      | false =>
          have hos : (tifilesFileIsTi filename bytes && tifilesFileIsOs filename bytes)
              = bufferHasTnoHeader bytes := by
            rw [tifilesFileIsOs_eq hbytes, htypes, hevo, ← hbuffer, bufferIsOs,
              tiflTypes_eq_none htifl, tifilesFileIsTi_eq hbytes hext]
            cases bufferIsTi bytes <;> simp
          simp [htarget, hos, hbuffer]

/-- Systems for a target, in a file with flash headers. -/
theorem os_agree_header_iff (hbytes : bytes ≠ []) (hname : MatchingName filename target)
    (htarget : target ≠ .none) (htifl : bufferHasTiflHeader bytes = true) :
    tifilesFileTest readTigroup filename bytes .os target = tifilesBufferTest bytes .os target
      ↔ SameLastHeader bytes target ti83pAms := by
  have hext := hname.ne_nil
  have hti := bufferIsTi_of_tifl htifl
  obtain ⟨types, types', hcut, hwhole, hsame⟩ := fitsDevice_of_header htarget htifl ti83pAms
  rw [hsame, tifilesFileTest_os, tifilesBufferTest_os, List.isEmpty_eq_false_iff.mpr hext,
    List.isEmpty_eq_false_iff.mpr hbytes, tifilesFileIsTi_of_buffer hbytes hext hti, hti]
  unfold fileTestOs bufferTestOs
  rw [tifilesFileHasTiflHeader_eq, if_neg htarget, if_neg htarget, hcut, hwhole]
  rfl

/-- Applications. -/
theorem app_agree_iff (hbytes : bytes ≠ []) (hext : tifilesFextGet filename ≠ []) :
    tifilesFileTest readTigroup filename bytes .app target = tifilesBufferTest bytes .app target
      ↔ SameLastHeader bytes target ti83pAppl := by
  rw [tifilesFileTest_app, tifilesBufferTest_app, List.isEmpty_eq_false_iff.mpr hext,
    List.isEmpty_eq_false_iff.mpr hbytes]
  unfold fileTestApp bufferTestApp
  rw [tifilesFileHasTiflHeader_eq, tifilesFileIsApp_eq hbytes, bufferIsApp]
  cases htifl : bufferHasTiflHeader bytes with
  | false =>
      have htake : bufferHasTiflHeader (bytes.take flashReadCap) = false := by
        rw [bufferHasTiflHeader_take (by decide), htifl]
      rw [tiflTypes_eq_none htake, tiflTypes_eq_none htifl, ite_self]
      simp [sameLastHeader_of_no_header htifl]
  | true =>
      have hti := bufferIsTi_of_tifl htifl
      rw [tifilesFileIsTi_of_buffer hbytes hext hti, hti]
      by_cases htarget : target = .none
      · subst htarget
        unfold SameLastHeader asksFor
        simp
      · obtain ⟨types, types', hcut, hwhole, hsame⟩ :=
          fitsDevice_of_header htarget htifl ti83pAppl
        rw [hsame, if_neg htarget, if_neg htarget, hcut, hwhole]
        rfl

/-- Systems: what the file and its bytes have to share for one answer. -/
theorem os_agree_iff (hbytes : bytes ≠ []) (hname : MatchingName filename target)
    (happ : SameLastHeader bytes target ti83pAppl) :
    tifilesFileTest readTigroup filename bytes .os target = tifilesBufferTest bytes .os target
      ↔ FlashReadable filename bytes target := by
  by_cases htarget : target = .none
  · subst htarget
    rw [os_agree_none_iff hbytes hname]
    exact ⟨fun h => ⟨fun hnone => h (hnone rfl), happ, fun hne => absurd rfl hne,
      fun hne => absurd rfl hne⟩, fun h hnone => h.os fun _ => hnone⟩
  cases htifl : bufferHasTiflHeader bytes with
  | true =>
      rw [os_agree_header_iff hbytes hname htarget htifl]
      refine ⟨fun h => ⟨fun _ => h, happ, ?_, ?_⟩, fun h => h.os fun hnone => absurd hnone htarget⟩
      · intro _ hno
        simp [htifl] at hno
      · intro _ hno
        simp [htifl] at hno
  | false =>
      rw [os_agree_target_iff hbytes hname htarget htifl]
      exact ⟨fun h => ⟨fun _ => sameLastHeader_of_no_header htifl _ _, happ, fun _ _ => h.1,
        fun _ _ => h.2⟩, fun h => ⟨h.tib htarget htifl, h.evo htarget htifl⟩⟩

/-- The three classes of flash files. -/
theorem flash_agree_iff (hname : MatchingName filename target) :
    (∀ fc ∈ [FileClass.os, .app, .flash],
      tifilesFileTest readTigroup filename bytes fc target = tifilesBufferTest bytes fc target)
      ↔ FlashReadable filename bytes target := by
  by_cases hbytes : bytes = []
  · subst hbytes
    have hfile : ∀ fc, tifilesFileTest readTigroup filename [] fc target = false := by
      intro fc
      have hti : tifilesFileIsTi filename [] = false := rfl
      simp [tifilesFileTest, hti]
    have hempty : bufferHasTiflHeader [] = false := rfl
    refine iff_of_true (fun fc _ => hfile fc) ⟨fun _ => sameLastHeader_of_no_header hempty _ _,
      sameLastHeader_of_no_header hempty _ _, fun _ _ htib => ?_, fun _ _ _ _ => .inl rfl⟩
    exact absurd htib (by decide)
  constructor
  · intro h
    have happ := (app_agree_iff hbytes hname.ne_nil).mp (h .app (by decide))
    exact (os_agree_iff hbytes hname happ).mp (h .os (by decide))
  · intro h fc hmem
    have hos := (@os_agree_iff readTigroup _ _ _ hbytes hname h.app).mpr h
    have happ := (@app_agree_iff readTigroup _ _ _ hbytes hname.ne_nil).mpr h.app
    simp only [List.mem_cons, List.not_mem_nil, or_false] at hmem
    rcases hmem with rfl | rfl | rfl
    · exact hos
    · exact happ
    · rw [tifilesFileTest_flash, tifilesBufferTest_flash, hos, happ]

/-! ## classes by name -/

/-- An extension that only TI files with a header have. -/
def NeedsHeader (ext : List UInt8) : Prop :=
  sameNoCase ext (ascii "tns") = false ∧ tifilesFextIsEvo ext = false
    ∧ tifilesFextIsEvoOs ext = false

instance (ext : List UInt8) : Decidable (NeedsHeader ext) :=
  inferInstanceAs (Decidable (_ ∧ _ ∧ _))

theorem NeedsHeader.congr {s t : List UInt8} (h : sameNoCase s t = true) (ht : NeedsHeader t) :
    NeedsHeader s := by
  have hmap := sameNoCase_iff.mp h
  unfold NeedsHeader tifilesFextIsEvo tifilesFextIsEvoOs sameNoCase at ht ⊢
  rwa [hmap]

theorem groupExtOf_mem (target : CalcModel) (h : groupExtOf target ≠ []) :
    groupExtOf target ∈ groupFileExt ∧ NeedsHeader (groupExtOf target) := by
  cases target <;> first
    | exact absurd rfl h
    | exact ⟨by decide, by decide⟩

theorem backupExtOf_mem (target : CalcModel) (h : backupExtOf target ≠ []) :
    backupExtOf target ∈ backupFileExt ∧ NeedsHeader (backupExtOf target) := by
  cases target <;> first
    | exact absurd rfl h
    | exact ⟨by decide, by decide⟩

/-- A TI file whose extension is in a table of extensions that need a header. -/
theorem fileHasExtOf_of_mem {exts : List (List UInt8)} {ext : List UInt8} (hmem : ext ∈ exts)
    (hheader : NeedsHeader ext) (hext : tifilesFextGet filename ≠ [])
    (hsame : sameNoCase (tifilesFextGet filename) ext = true)
    (hti : tifilesFileIsTi filename bytes = true) : fileHasExtOf exts filename bytes = true := by
  obtain ⟨htns, hevo, hos⟩ := hheader.congr hsame
  unfold tifilesFileIsTi at hti
  unfold fileHasExtOf
  rw [List.isEmpty_eq_false_iff.mpr hext, List.any_eq_true.mpr ⟨ext, hmem, hsame⟩]
  cases hhead : fileHead bytes with
  | none => simp [hhead] at hti
  | some buf =>
      simp only [hhead, htns, hevo, hos, Bool.or_false, Bool.and_false] at hti
      simp [hti]

/-- A test that takes the extension of the target, or what the predicate accepts. -/
theorem isOf_of_fileTest {exts : List (List UInt8)} {ext : List UInt8}
    (hmem : ext ≠ [] → ext ∈ exts ∧ NeedsHeader ext) (hext : tifilesFextGet filename ≠ [])
    (hti : tifilesFileIsTi filename bytes = true)
    (h : (if ext ≠ [] ∧ sameNoCase (tifilesFextGet filename) ext then true
      else fileHasExtOf exts filename bytes) = true) : fileHasExtOf exts filename bytes = true := by
  split at h
  · rename_i hnamed
    obtain ⟨hin, hheader⟩ := hmem hnamed.1
    exact fileHasExtOf_of_mem hin hheader hext hnamed.2 hti
  · exact h

theorem tifilesFileTest_checks {fc : FileClass}
    (h : tifilesFileTest readTigroup filename bytes fc target = true) :
    tifilesFextGet filename ≠ [] ∧ tifilesFileIsTi filename bytes = true := by
  unfold tifilesFileTest at h
  cases hext : (tifilesFextGet filename).isEmpty with
  | true => simp [hext] at h
  | false =>
      cases hti : tifilesFileIsTi filename bytes with
      | false => simp [hext, hti] at h
      | true => exact ⟨List.isEmpty_eq_false_iff.mp hext, rfl⟩

theorem tifilesFileTest_of_checks (hext : tifilesFextGet filename ≠ [])
    (hti : tifilesFileIsTi filename bytes = true) :
    tifilesFileTest readTigroup filename bytes .single target
        = fileTestSingle filename bytes target
      ∧ tifilesFileTest readTigroup filename bytes .group target
        = fileTestGroup filename bytes target
      ∧ tifilesFileTest readTigroup filename bytes .backup target
        = fileTestBackup filename bytes target := by
  unfold tifilesFileTest
  rw [List.isEmpty_eq_false_iff.mpr hext, hti]
  exact ⟨rfl, rfl, rfl⟩

/-- Groups are groups. -/
theorem isGroup_of_fileTest
    (h : tifilesFileTest readTigroup filename bytes .group target = true) :
    tifilesFileIsGroup filename bytes = true := by
  obtain ⟨hext, hti⟩ := tifilesFileTest_checks h
  rw [(tifilesFileTest_of_checks hext hti).2.1] at h
  exact isOf_of_fileTest (groupExtOf_mem target) hext hti h

/-- Backups are backups. -/
theorem isBackup_of_fileTest
    (h : tifilesFileTest readTigroup filename bytes .backup target = true) :
    tifilesFileIsBackup filename bytes = true := by
  obtain ⟨hext, hti⟩ := tifilesFileTest_checks h
  rw [(tifilesFileTest_of_checks hext hti).2.2] at h
  exact isOf_of_fileTest (backupExtOf_mem target) hext hti h

/-- A TI file is a single file when no other class claims it. -/
theorem tifilesFileIsSingle_iff (hext : tifilesFextGet filename ≠ [])
    (hti : tifilesFileIsTi filename bytes = true) :
    tifilesFileIsSingle filename bytes = true ↔ Unclassed filename bytes := by
  unfold tifilesFileIsTi at hti
  unfold tifilesFileIsSingle
  cases hhead : fileHead bytes with
  | none => simp [hhead] at hti
  | some buf =>
      simp only [hhead, List.isEmpty_eq_false_iff.mpr hext, Bool.not_false, Bool.true_and] at hti
      have hparts : Unclassed filename bytes ↔ tifilesFileIsGroup filename bytes = false
          ∧ tifilesFileIsBackup filename bytes = false
          ∧ (bufferIsFlash buf = false ∧ tifilesFextIsEvoOs (tifilesFextGet filename) = false)
          ∧ bufferHasTigHeader buf = false := by
        constructor
        · rintro ⟨hgroup, hbackup, hflash, hzip⟩
          rw [hhead, Option.any_some] at hzip
          simp only [tifilesFileIsFlash, hhead, Option.any_some, Bool.or_eq_false_iff] at hflash
          exact ⟨hgroup, hbackup, hflash, hzip⟩
        · rintro ⟨hgroup, hbackup, hflash, hzip⟩
          refine ⟨hgroup, hbackup, ?_, by rw [hhead, Option.any_some, hzip]⟩
          simp [tifilesFileIsFlash, hhead, hflash]
      rw [hparts]
      cases hos : tifilesFextIsEvoOs (tifilesFextGet filename) with
      | true => simp [hos]
      | false =>
          rw [hos, Bool.or_false, ← Bool.or_assoc] at hti
          simp [hti]
          tauto

theorem GroupLike.ne_nil (h : GroupLike filename target) : tifilesFextGet filename ≠ [] := by
  obtain ⟨hgroup, hsame⟩ := h
  intro hnil
  rw [hnil, List.take_nil, sameNoCase_iff] at hsame
  have htake := List.map_eq_nil_iff.mp hsame.symm
  exact hgroup ((List.take_eq_nil_iff.mp htake).resolve_left (by decide))

/-- Single files: two letters of the extension decide, unless another class claims the file. -/
theorem single_agree_iff :
    (tifilesFileTest readTigroup filename bytes .single target = true →
        tifilesFileIsSingle filename bytes = true)
      ↔ (tifilesFileIsTi filename bytes = true → GroupLike filename target →
        Unclassed filename bytes) := by
  constructor
  · intro h hti hlike
    have hext := hlike.ne_nil
    refine (tifilesFileIsSingle_iff hext hti).mp (h ?_)
    rw [(tifilesFileTest_of_checks hext hti).1]
    exact if_pos hlike
  · intro h htest
    obtain ⟨hext, hti⟩ := tifilesFileTest_checks htest
    rw [(tifilesFileTest_of_checks hext hti).1] at htest
    unfold fileTestSingle at htest
    split at htest
    · rename_i hlike
      exact (tifilesFileIsSingle_iff hext hti).mpr (h hti hlike)
    · exact htest

/-- When a file and its bytes are classified alike, and the file as its own predicates do. -/
theorem classesAgree_iff (readTigroup : List UInt8 → List UInt8 → Option (List CalcModel))
    (filename bytes : List UInt8) (target : CalcModel) :
    ClassesAgree readTigroup filename bytes target ↔
      (MatchingName filename target → FlashReadable filename bytes target)
      ∧ (tifilesFileIsTi filename bytes = true → GroupLike filename target →
        Unclassed filename bytes) := by
  constructor
  · intro h
    exact ⟨fun hname => (flash_agree_iff hname).mp (h.flash hname), single_agree_iff.mp h.single⟩
  · rintro ⟨hflash, hsingle⟩
    exact ⟨fun hname => (flash_agree_iff hname).mpr (hflash hname), single_agree_iff.mpr hsingle,
      isGroup_of_fileTest, isBackup_of_fileTest⟩

end

/-- The front of a system for the TI-89: its length has a zero. -/
def tibSample : List UInt8 :=
  [0x80, 0x0F, 0x00, 0x0C, 0x00, 0x00, 0x80, 0x11, 0x03] ++ List.replicate 13 0x80
    ++ tibSignature ++ [0x20, 0x20]

/-- The file is not for the TI-89, its bytes are. -/
theorem not_classesAgree_tib :
    ¬ClassesAgree (fun _ _ => none) (ascii "ti89.tib") tibSample .ti89 := by
  intro h
  have hname : MatchingName (ascii "ti89.tib") .ti89 := by
    unfold MatchingName
    decide
  have hread := (flash_agree_iff hname).mp (h.flash hname)
  have htib := hread.tib (by decide) (by decide) (by decide)
  rw [if_pos (by decide)] at htib
  exact absurd (htib (by decide)) (by decide)

end Tilibs.Files
