import Mathlib
import Tilibs.Lib.Bytes

/-!
# Tilibs.Files.VarEntry

The variable entry of `tifiles.h` and the functions of `ve_fp.cc` that create and
copy one.
-/

namespace Tilibs.Files

open Lib

/-- `VARNAME_MAX`; `FLDNAME_MAX` is the same. -/
def varnameMax : Nat := 1024

/-- The C string in a name or folder field. -/
abbrev VarName := CStr varnameMax

/-- The empty name. -/
def VarName.empty : VarName where
  chars := []
  noNul := nofun
  fits := by decide

/-- What `strncpy` leaves of a C string in a name field that was zeroed. -/
def VarName.ofChars (s : List UInt8) : VarName where
  chars := (cstr s).take (varnameMax - 1)
  noNul := fun b hb => by
    have hmem := List.mem_takeWhile_imp (List.mem_of_mem_take hb)
    simpa using hmem
  fits := by
    rw [List.length_take]
    have hmax : 0 < varnameMax := by decide
    omega

/-- A name is copied whole. -/
@[simp] theorem VarName.ofChars_chars (name : VarName) : VarName.ofChars name.chars = name := by
  have hfits := name.fits
  have hcstr : cstr name.chars = name.chars := by
    rw [cstr, List.takeWhile_eq_self_iff]
    simpa using name.noNul
  ext1
  show (cstr name.chars).take (varnameMax - 1) = name.chars
  rw [hcstr]
  exact List.take_of_length_le (by omega)

/-- `VarEntry`; `data` is the buffer the entry points to. -/
structure VarEntry where
  folder : VarName
  name : VarName
  type : UInt8
  attr : UInt8
  version : UInt8
  size : UInt32
  data : Option (List UInt8)
  deriving DecidableEq

/-- `tifiles_ve_create`: all zeros. -/
def tifilesVeCreate : VarEntry where
  folder := .empty
  name := .empty
  type := 0
  attr := 0
  version := 0
  size := 0
  data := none

instance : Inhabited VarEntry := ⟨tifilesVeCreate⟩

/-- `tifiles_ve_dup`: a buffer of `size` bytes is made even where the source has none. -/
def tifilesVeDup (src : VarEntry) : VarEntry :=
  { src with data := some (padRight src.size.toNat 0 ((src.data.getD []).take src.size.toNat)) }

@[simp] theorem tifilesVeDup_name (src : VarEntry) : (tifilesVeDup src).name = src.name := rfl

end Tilibs.Files
