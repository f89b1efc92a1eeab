import Mathlib
import Tilibs.Files.TigContent
import Tilibs.Lib.Fallible

/-!
# Tilibs.Tifileutil.Group

Building a tigroup or a classic group from files (`group.cc` of tifileutil).

What the library reads from a file is a parameter; the class of a file is computed from its
name and its bytes.
-/

namespace Tilibs.Tifileutil

open Lib Files

/-- What libtifiles says about files; the numbers are its error codes. -/
structure Tifiles (φ : Type) where
  fextToModel : List UInt8 → CalcModel
  readRegular : SourceFile → CalcModel → Except Nat RegularContent
  readFlash : SourceFile → CalcModel → Except Nat φ
  readTigroup : SourceFile → Except Nat (TigContent φ)
  dupFlash : φ → φ

variable {φ : Type}

/-- `tifiles_file_get_model` -/
def Tifiles.fileGetModel (lib : Tifiles φ) (f : SourceFile) : CalcModel :=
  lib.fextToModel (tifilesFextGet f.path)

/-- The messages of `group.cc`, with what they say. -/
inductive GroupErr
  | read (code : Nat)
  -- "%s: duplicate entry %s in %s."
  | duplicateEntry (name file : List UInt8)
  -- "%s: %s is not a file which can be put into a tigroup."
  | notTigroupable (name : List UInt8)
  -- "%s: %s cannot be put into a group file."
  | notGroupable (name : List UInt8)
  -- "%s: %s is not compatible with the group model."
  | notCompatible (name : List UInt8)
  -- "%s: %s contains a flash application, which cannot be part of a group file."
  | flashApplication (name : List UInt8)
  deriving DecidableEq

def reading {α : Type} (x : Except Nat α) : Except GroupErr α := x.mapError .read

/-! ## tigroups -/

/-- `tifileutil_tigroupable` -/
def tigroupable (fc : FileClass) : Bool := fc.hasRegularBit || fc = .flash

/-- `tifileutil_group_member_present` -/
def groupMemberPresent (content : TigContent φ) (name : List UInt8) : Bool :=
  content.members.any fun te => te.filename = name

/-- A copy has the buffer that it says. -/
theorem sized_tifilesVeDup (e : VarEntry) :
    ((tifilesVeDup e).data.getD []).length = (tifilesVeDup e).size.toNat := by
  simp [tifilesVeDup, padRight, List.length_take]

/-- `tifiles_content_dup_regular` -/
def dupRegular (content : RegularContent) : RegularContent where
  model := content.model
  entries := content.entries.map tifilesVeDup
  sized := by
    intro e he
    obtain ⟨src, -, rfl⟩ := List.mem_map.mp he
    exact sized_tifilesVeDup src

/-- A member with variables of another tigroup. -/
def mergeVar (label : List UInt8) (content : TigContent φ) (te : TigEntry φ) :
    Except GroupErr (TigContent φ) :=
  if groupMemberPresent content te.filename then .error (.duplicateEntry te.filename label)
  else
    match te.content with
    | .regular regular =>
        if regular.entries = [] then .error (.notTigroupable te.filename)
        else .ok (tifilesContentAddTe content { te with content := .regular (dupRegular regular) })
    | _ => .error (.notTigroupable te.filename)

/-- A member with a flash content of another tigroup. -/
def mergeApp (lib : Tifiles φ) (label : List UInt8) (content : TigContent φ) (te : TigEntry φ) :
    Except GroupErr (TigContent φ) :=
  if groupMemberPresent content te.filename then .error (.duplicateEntry te.filename label)
  else
    let dup := match te.content with
      | .flash flash => .flash (lib.dupFlash flash)
      | other => other
    .ok (tifilesContentAddTe content { te with content := dup })

/-- `tifileutil_group_merge_tigroup` -/
def groupMergeTigroup (lib : Tifiles φ) (label : List UInt8) (content : TigContent φ)
    (f : SourceFile) : Except GroupErr (TigContent φ) := do
  let tig ← reading (lib.readTigroup f)
  let content ← tig.varEntries.foldlM (mergeVar label) content
  tig.appEntries.foldlM (mergeApp lib label) content

/-- The content that is read from a file of the given class. -/
def readMember (lib : Tifiles φ) (f : SourceFile) (fc : FileClass) :
    Except GroupErr (TigData φ) :=
  if fc = .flash then (reading (lib.readFlash f (lib.fileGetModel f))).map .flash
  else do
    let regular ← reading (lib.readRegular f (lib.fileGetModel f))
    if regular.entries = [] then .error (.notTigroupable f.path) else .ok (.regular regular)

/-- One file of `tifileutil_group_add_files`. -/
def groupAddFile (lib : Tifiles φ) (label : List UInt8) (content : TigContent φ) (f : SourceFile) :
    Except GroupErr (TigContent φ) :=
  let fc := f.fileClass
  if fc = .tigroup then groupMergeTigroup lib label content f
  else if tigroupable fc then
    if groupMemberPresent content f.base then .error (.duplicateEntry f.base label)
    else (readMember lib f fc).map fun data => tifilesContentAddTe content ⟨f.base, fc, data⟩
  else .error (.notTigroupable f.path)

/-- `tifileutil_group_add_files` -/
def groupAddFiles (lib : Tifiles φ) (label : List UInt8) (files : List SourceFile)
    (content : TigContent φ) : Except GroupErr (TigContent φ) :=
  files.foldlM (groupAddFile lib label) content

/-! ## classic groups -/

/-- The classic group that is being built; the model is that of its first variable. -/
structure GroupBuilder where
  entries : List VarEntry
  groupModel : CalcModel
  deriving DecidableEq

/-- The model of the group once a content of the given model joins it. -/
def joinModel (group : GroupBuilder) (model : CalcModel) (name : List UInt8) :
    Except GroupErr GroupBuilder :=
  if model = .nspire then .error (.notGroupable name)
  else if group.groupModel = .none then .ok { group with groupModel := model }
  else if tifilesCalcAreCompat model group.groupModel then .ok group
  else .error (.notCompatible name)

/-- `tifileutil_group_var_present` -/
def groupVarPresent (group : GroupBuilder) (ve : VarEntry) : Bool :=
  group.entries.any fun v => v.folder = ve.folder && v.name = ve.name

/-- `tifiles_content_add_entry` of a copy, unless there is an entry of that name. -/
def addVar (src : List UInt8) (label : VarEntry → List UInt8) (group : GroupBuilder) (ve : VarEntry) :
    Except GroupErr GroupBuilder :=
  if groupVarPresent group ve then .error (.duplicateEntry (label ve) src)
  else .ok { group with entries := group.entries ++ [tifilesVeDup ve] }

/-- `tifileutil_group_add_regular` -/
def groupAddRegular (lib : Tifiles φ) (group : GroupBuilder) (f : SourceFile) :
    Except GroupErr GroupBuilder := do
  let fc ← reading (lib.readRegular f .none)
  let group ← joinModel group fc.model f.path
  fc.entries.foldlM (addVar f.path fun ve => ve.name.chars) group

/-- A member of a tigroup: its first entry joins the group. -/
def groupAddMember (f : SourceFile) (group : GroupBuilder) (te : TigEntry φ) :
    Except GroupErr GroupBuilder :=
  match te.content with
  | .regular regular =>
      match regular.entries with
      | [] => .error (.notGroupable te.filename)
      | ve :: _ => do
          let group ← joinModel group regular.model te.filename
          addVar f.path (fun _ => te.filename) group ve
  | _ => .error (.notGroupable te.filename)

/-- `tifileutil_group_add_tigroup` -/
def groupAddTigroup (lib : Tifiles φ) (group : GroupBuilder) (f : SourceFile) :
    Except GroupErr GroupBuilder := do
  let tig ← reading (lib.readTigroup f)
  if tig.appEntries ≠ [] then .error (.flashApplication f.path)
  else tig.varEntries.foldlM (groupAddMember f) group

/-- One file of `tifileutil_group_add_vars`. -/
def groupAddVarsOf (lib : Tifiles φ) (group : GroupBuilder) (f : SourceFile) :
    Except GroupErr GroupBuilder :=
  if f.fileClass = .tigroup then groupAddTigroup lib group f
  else if f.fileClass.hasRegularBit then groupAddRegular lib group f
  else .error (.notGroupable f.path)

/-- `tifileutil_group_add_vars` -/
def groupAddVars (lib : Tifiles φ) (files : List SourceFile) (group : GroupBuilder) :
    Except GroupErr GroupBuilder :=
  files.foldlM (groupAddVarsOf lib) group

end Tilibs.Tifileutil
