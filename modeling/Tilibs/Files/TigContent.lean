import Mathlib
import Tilibs.CalcModel
import Tilibs.Files.FileClass
import Tilibs.Files.VarEntry

/-!
# Tilibs.Files.TigContent

The content of a tigroup (`tigroup.cc`): members with variables and members with flash
contents.  What a flash content is does not matter here, and is a parameter.
-/

namespace Tilibs.Files

open Lib

/-- `FileContent`, as far as it is used here: its entries have the buffers that they say. -/
structure RegularContent where
  model : CalcModel
  entries : List VarEntry
  sized : ∀ e ∈ entries, (e.data.getD []).length = e.size.toNat
  deriving DecidableEq

/-- The `content` of a member; `empty` is a null pointer. -/
inductive TigData (φ : Type)
  | empty
  | regular (content : RegularContent)
  | flash (content : φ)
  deriving DecidableEq

/-- `TigEntry` -/
structure TigEntry (φ : Type) where
  filename : List UInt8
  type : FileClass
  content : TigData φ
  deriving DecidableEq

/-- `TigContent` -/
structure TigContent (φ : Type) where
  model : CalcModel
  varEntries : List (TigEntry φ)
  appEntries : List (TigEntry φ)
  deriving DecidableEq

/-- The variables of a member. -/
def TigEntry.vars {φ : Type} (te : TigEntry φ) : List VarEntry :=
  match te.content with
  | .regular regular => regular.entries
  | _ => []

theorem TigEntry.sized_of_mem_vars {φ : Type} {te : TigEntry φ} {e : VarEntry}
    (h : e ∈ te.vars) : (e.data.getD []).length = e.size.toNat := by
  unfold vars at h
  split at h
  · rename_i regular _
    exact regular.sized e h
  · cases h

/-- `tifiles_content_create_tigroup` -/
def tifilesContentCreateTigroup {φ : Type} (model : CalcModel) : TigContent φ := ⟨model, [], []⟩

variable {φ : Type}

/-- The class of a member whose content is a flash content. -/
def FileClass.isFlashMember (fc : FileClass) : Bool := fc = .flash || fc = .app

/-- `tifiles_content_add_te`: a member of another class is forgotten. -/
def tifilesContentAddTe (content : TigContent φ) (te : TigEntry φ) : TigContent φ :=
  if te.type.isFlashMember then { content with appEntries := content.appEntries ++ [te] }
  else if te.type.hasRegularBit then { content with varEntries := content.varEntries ++ [te] }
  else content

/-- What follows the last slash. -/
def basename (path : List UInt8) : List UInt8 := (path.reverse.takeWhile (· ≠ 0x2F)).reverse

/-- A file: its name, which does not end in a slash, and its bytes. -/
structure SourceFile where
  path : List UInt8
  bytes : List UInt8
  named : basename path ≠ []
  deriving DecidableEq

/-- `tifiles_file_get_class` -/
def SourceFile.fileClass (f : SourceFile) : FileClass := tifilesFileGetClass f.path f.bytes

def SourceFile.base (f : SourceFile) : List UInt8 := basename f.path

/-- All members, those with variables first. -/
def TigContent.members (content : TigContent φ) : List (TigEntry φ) :=
  content.varEntries ++ content.appEntries

theorem tifilesContentAddTe_regular {content : TigContent φ} {te : TigEntry φ}
    (h : te.type.hasRegularBit = true) :
    tifilesContentAddTe content te = { content with varEntries := content.varEntries ++ [te] } := by
  have hflash : te.type.isFlashMember = false := by
    rcases FileClass.eq_of_hasRegularBit h with htype | htype | htype <;> rw [htype] <;> rfl
  unfold tifilesContentAddTe
  rw [if_neg (by rw [hflash]; decide), if_pos h]

end Tilibs.Files
